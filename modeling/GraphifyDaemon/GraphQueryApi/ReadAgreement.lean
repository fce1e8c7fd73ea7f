import Mathlib.Data.List.Forall2
import GraphifyDaemon.GraphQueryApi.ReadTools

/-! What the read tools say of one graph, held against each other. -/
namespace GraphifyDaemon
open Library Library.JsonSchema

variable {ν γ τ : Type} [Zero ν] [DecidableEq ν] {R : ReadEngine ν γ} {P : PyText ν} {graph : γ}
variable {reading : IntReading ν} {snapshot : GraphSnapshot γ τ}

section Listings

/-- A call of `get_neighbors` that finds this node, and lists its neighbors within its budget. -/
structure ListsWhole (R : ReadEngine ν γ) (P : PyText ν) (reading : IntReading ν) (snapshot : GraphSnapshot γ τ)
    (arguments : PyDict ν) (nid : String) (relationFilter : Text) (lines : List Text) : Prop where
  found : ∃ label rest, (Json.getItem "label" arguments).bind (lowered P) = .ok label ∧
    R.findNode snapshot.graph label = .ok (nid :: rest)
  filtered : lowered P (getOr "relation_filter" (.str "") arguments) = .ok relationFilter
  listed : neighborsReport R P snapshot.graph relationFilter nid = .ok lines
  fits : ∃ budget, intArgument reading "token_budget" 2000 arguments = .ok budget ∧
    (joinLines lines).length ≤ budget.toNat * 3

/-- Within the budget the answer is all of the lines. -/
theorem ListsWhole.answer {arguments : PyDict ν} {nid : String} {relationFilter : Text} {lines : List Text}
    (h : ListsWhole R P reading snapshot arguments nid relationFilter lines) :
    toolGetNeighbors R P reading arguments snapshot = .ok (joinLines lines) := by
  obtain ⟨label, rest, hlabel, hfound⟩ := h.found
  obtain ⟨budget, hbudget, hfits⟩ := h.fits
  rw [toolGetNeighbors, hlabel, h.filtered]
  simp only [bind, Except.bind, hfound, h.listed, hbudget, pure, Except.pure, cutLinesToBudget, hfits, or_true, if_true]

/-- The edge passes the filter, as far as there is one. -/
def showsEdge (P : PyText ν) (relationFilter : Text) (edge : Except PyError (PyDict ν)) : Bool :=
  match edge.bind (passesFilter P relationFilter) with
  | .ok shown => shown
  | .error _ => false

/-- The neighbors that a listing shows, in its order. -/
def shownSuccessors (R : ReadEngine ν γ) (P : PyText ν) (graph : γ) (relationFilter : Text) (nid : String) : List String :=
  ((R.view graph).successors nid).filter fun neighbor => showsEdge P relationFilter (R.edgeData graph nid neighbor)

def shownPredecessors (R : ReadEngine ν γ) (P : PyText ν) (graph : γ) (relationFilter : Text) (nid : String) :
    List String :=
  ((R.view graph).predecessors nid).filter fun neighbor => showsEdge P relationFilter (R.edgeData graph neighbor nid)

/-- A listing that is completed has a line for each neighbor that it shows. -/
theorem neighborLines_eq_ok {arrow relationFilter : Text} {edge : String → Except PyError (PyDict ν)}
    {neighbors : List String} {lines : List Text}
    (h : neighborLines R P arrow graph edge relationFilter neighbors = .ok lines) :
    List.Forall₂ (fun neighbor line => ∃ d, edge neighbor = .ok d ∧ neighborLine R P arrow graph neighbor d = .ok line)
      (neighbors.filter fun neighbor => showsEdge P relationFilter (edge neighbor)) lines := by
  induction neighbors generalizing lines with
  | nil =>
    cases h
    exact .nil
  | cons neighbor rest ih =>
    obtain ⟨d, hd, h⟩ := bind_eq_ok.mp h
    obtain ⟨shown, hshown, h⟩ := bind_eq_ok.mp h
    have hshows : showsEdge P relationFilter (edge neighbor) = shown := by
      simp only [showsEdge, hd, Except.bind, hshown]
    cases shown with
    | false =>
      rw [List.filter_cons_of_neg (by simp [hshows])]
      exact ih h
    | true =>
      rw [List.filter_cons_of_pos (by simp [hshows])]
      obtain ⟨line, hline, h⟩ := bind_eq_ok.mp h
      obtain ⟨more, hmore, h⟩ := bind_eq_ok.mp h
      cases h
      exact .cons ⟨d, hd, hline⟩ (ih hmore)

omit [Zero ν] [DecidableEq ν] in
/-- Without a filter every edge is shown. -/
theorem shows_of_unfiltered {edge : Except PyError (PyDict ν)} {d : PyDict ν} (h : edge = .ok d) :
    showsEdge P [] edge = true := by
  rw [h]
  rfl

omit [Zero ν] [DecidableEq ν] in
/-- The attributes of an edge, as its two ends read them. -/
theorem edgeData_of_mem (hreads : R.ReadsEdges) {source target : String}
    (h : (source, target) ∈ (R.view graph).edges.keys) : ∃ d, R.edgeData graph source target = .ok d := by
  obtain ⟨d, hd⟩ := Option.isSome_iff_exists.mp ((OrderedDict.mem_keys_iff _ _).mp h)
  exact ⟨d, hreads graph source target d hd⟩

omit [Zero ν] [DecidableEq ν] in
private theorem shownSuccessors_unfiltered (hreads : R.ReadsEdges) (nid : String) :
    shownSuccessors R P graph [] nid = (R.view graph).successors nid := by
  apply List.filter_eq_self.mpr
  intro neighbor hneighbor
  obtain ⟨d, hd⟩ := edgeData_of_mem hreads (DiGraph.mem_successors.mp hneighbor)
  exact shows_of_unfiltered hd

omit [Zero ν] [DecidableEq ν] in
private theorem shownPredecessors_unfiltered (hreads : R.ReadsEdges) (nid : String) :
    shownPredecessors R P graph [] nid = (R.view graph).predecessors nid := by
  apply List.filter_eq_self.mpr
  intro neighbor hneighbor
  obtain ⟨d, hd⟩ := edgeData_of_mem hreads (DiGraph.mem_predecessors.mp hneighbor)
  exact shows_of_unfiltered hd

theorem neighborsReport_eq_ok {relationFilter : Text} {nid : String} {lines : List Text}
    (h : neighborsReport R P graph relationFilter nid = .ok lines) :
    ∃ header outgoing incoming, outgoingLines R P graph relationFilter nid = .ok outgoing ∧
      incomingLines R P graph relationFilter nid = .ok incoming ∧ lines = header :: (outgoing ++ incoming) := by
  obtain ⟨label, -, h⟩ := bind_eq_ok.mp h
  obtain ⟨outgoing, hout, h⟩ := bind_eq_ok.mp h
  obtain ⟨incoming, hin, h⟩ := bind_eq_ok.mp h
  cases h
  exact ⟨_, outgoing, incoming, hout, hin, rfl⟩

/-- Without a filter a listing has the degree of the node as its number of neighbors. -/
theorem neighborsReport_length (hreads : R.ReadsEdges) {nid : String} {lines : List Text}
    (h : neighborsReport R P graph [] nid = .ok lines) : lines.length = (R.view graph).degree nid + 1 := by
  obtain ⟨header, outgoing, incoming, hout, hin, rfl⟩ := neighborsReport_eq_ok h
  have houtgoing : ((R.view graph).successors nid).length = outgoing.length := by
    rw [← shownSuccessors_unfiltered hreads]
    exact (neighborLines_eq_ok hout).length_eq
  have hincoming : ((R.view graph).predecessors nid).length = incoming.length := by
    rw [← shownPredecessors_unfiltered hreads]
    exact (neighborLines_eq_ok hin).length_eq
  rw [DiGraph.degree, houtgoing, hincoming, List.length_cons, List.length_append]

private theorem nodeReport_getLast {nid : String} {d : PyDict ν} {lines : List Text}
    (h : nodeReport R P graph nid d = .ok lines) :
    lines.getLast? = some ("  Degree: ".toList ++ natText ((R.view graph).degree nid)) := by
  obtain ⟨_, -, h⟩ := bind_eq_ok.mp h
  obtain ⟨_, -, h⟩ := bind_eq_ok.mp h
  obtain ⟨_, -, h⟩ := bind_eq_ok.mp h
  obtain ⟨_, -, h⟩ := bind_eq_ok.mp h
  obtain ⟨_, -, h⟩ := bind_eq_ok.mp h
  obtain ⟨_, -, h⟩ := bind_eq_ok.mp h
  cases h
  rfl

/-- A call of `get_node` that takes this node. -/
def Takes (P : PyText ν) (R : ReadEngine ν γ) (snapshot : GraphSnapshot γ τ) (arguments : PyDict ν) (nid : String) : Prop :=
  ∃ label d rest, (Json.getItem "label" arguments).bind (lowered P) = .ok label ∧
    matchingNodes P label (R.view snapshot.graph).nodes.items = .ok ((nid, d) :: rest)

private theorem toolGetNode_of_takes {arguments : PyDict ν} {nid : String} {text : Text}
    (h : Takes P R snapshot arguments nid) (htext : toolGetNode R P arguments snapshot = .ok text) :
    ∃ d lines, nodeReport R P snapshot.graph nid d = .ok lines ∧ text = joinLines lines := by
  obtain ⟨label, d, rest, hlabel, hmatching⟩ := h
  rw [toolGetNode, hlabel] at htext
  simp only [bind, Except.bind, hmatching] at htext
  cases hreport : nodeReport R P snapshot.graph nid d with
  | error e =>
    rw [hreport] at htext
    cases htext
  | ok lines =>
    rw [hreport] at htext
    cases htext
    exact ⟨d, lines, hreport, rfl⟩

/-- The tools count alike, where the neighbors of every node are listed within the budget: the
degree that `get_node` prints is the number of neighbors that `get_neighbors` lists, which over all
nodes make up twice the edges that `graph_stats` prints, and it is over that number of edges, if
there are any, that its percentages are taken. -/
theorem read_tools_count_alike (hreads : R.ReadsEdges) {asked : String → PyDict ν} {listings : String → List Text}
    (h : ∀ nid ∈ (R.view snapshot.graph).nodes.keys,
      ListsWhole R P reading snapshot (asked nid) nid [] (listings nid)) :
    (∀ nid ∈ (R.view snapshot.graph).nodes.keys,
      toolGetNeighbors R P reading (asked nid) snapshot = .ok (joinLines (listings nid)) ∧
      ∀ arguments text, Takes P R snapshot arguments nid → toolGetNode R P arguments snapshot = .ok text →
        ∃ lines, text = joinLines lines ∧
          lines.getLast? = some ("  Degree: ".toList ++ natText ((listings nid).length - 1))) ∧
    ((R.view snapshot.graph).nodes.keys.map fun nid => (listings nid).length - 1).sum =
      2 * (R.view snapshot.graph).size ∧
    ((R.view snapshot.graph).size ≠ 0 → confidenceTotal R snapshot.graph = (R.view snapshot.graph).size) := by
  have hlength : ∀ nid ∈ (R.view snapshot.graph).nodes.keys,
      (listings nid).length - 1 = (R.view snapshot.graph).degree nid := by
    intro nid hnid
    rw [neighborsReport_length hreads (h nid hnid).listed]
    omega
  refine ⟨fun nid hnid => ⟨(h nid hnid).answer, fun arguments text htakes htext => ?_⟩, ?_, ?_⟩
  · obtain ⟨d, lines, hreport, rfl⟩ := toolGetNode_of_takes htakes htext
    rw [hlength nid hnid]
    exact ⟨lines, rfl, nodeReport_getLast hreport⟩
  · rw [List.map_congr_left hlength, DiGraph.sum_degree, DiGraph.size_eq]
  · intro hedges
    have htotal : (confidences R snapshot.graph).length = (R.view snapshot.graph).size := by
      rw [confidences, List.length_map, DiGraph.adjacency_length, DiGraph.size_eq]
    rw [confidenceTotal, htotal, if_neg hedges]

def linkedSnapshot : GraphSnapshot PlainGraph Unit := ⟨linkedNotes, (), .empty, 1⟩

omit [Zero ν] [DecidableEq ν] in
/-- The notes of `linkedNotes`, of which the first has its loop on both sides. -/
theorem read_tools_count_alike_linkedNotes :
    ∃ listings : String → List Text, (listings "alpha").length - 1 = 3 ∧ (listings "beta").length - 1 = 1 ∧
      ((plainReader.view linkedNotes).nodes.keys.map fun nid => (listings nid).length - 1).sum =
        2 * (plainReader.view linkedNotes).size := by
  let listing (nid : String) : List Text := ((neighborsReport plainReader plainText linkedNotes [] nid).toOption).getD []
  have hwhole : ∀ nid ∈ (plainReader.view linkedSnapshot.graph).nodes.keys,
      ListsWhole plainReader plainText plainIntegers linkedSnapshot [("label", .str nid)] nid [] (listing nid) := by
    intro nid hnid
    have hnotes : nid = "alpha" ∨ nid = "beta" := by
      revert nid
      decide
    rcases hnotes with rfl | rfl
    · exact ⟨⟨"alpha".toList, [], rfl, by decide⟩, rfl, by decide, 2000, rfl, by decide⟩
    · exact ⟨⟨"beta".toList, [], rfl, by decide⟩, rfl, by decide, 2000, rfl, by decide⟩
  have hcount := read_tools_count_alike plainReader_readsEdges hwhole
  exact ⟨listing, by decide, by decide, hcount.2.1⟩

private theorem neighborLine_eq_ok {arrow : Text} {neighbor : String} {d : PyDict ν} {line : Text}
    (h : neighborLine R P arrow graph neighbor d = .ok line) :
    ∃ label text, nodeLabel R graph neighbor = .ok label ∧ edgeText R P d = .ok text ∧
      line = "  ".toList ++ arrow ++ " ".toList ++ label ++ text := by
  obtain ⟨label, hlabel, h⟩ := bind_eq_ok.mp h
  obtain ⟨text, htext, h⟩ := bind_eq_ok.mp h
  cases h
  exact ⟨label, text, hlabel, htext, rfl⟩

/-- The line of a shown neighbor is at the neighbor's place. -/
theorem line_of_shown {neighbors : List String} {lines : List Text} {arrow : Text}
    {edge : String → Except PyError (PyDict ν)}
    (h : List.Forall₂ (fun neighbor line => ∃ d, edge neighbor = .ok d ∧
      neighborLine R P arrow graph neighbor d = .ok line) neighbors lines)
    {neighbor : String} (hmem : neighbor ∈ neighbors) {d : PyDict ν} (hd : edge neighbor = .ok d) :
    ∃ (i : Nat) (line : Text), neighbors[i]? = some neighbor ∧ lines[i]? = some line ∧
      neighborLine R P arrow graph neighbor d = .ok line := by
  induction h with
  | nil => cases hmem
  | @cons first line rest lines hline hrest ih =>
    rcases List.mem_cons.mp hmem with rfl | hmore
    · obtain ⟨d', hd', hline⟩ := hline
      obtain rfl := Except.ok.inj (hd.symm.trans hd')
      exact ⟨0, line, rfl, rfl, hline⟩
    · obtain ⟨i, found, hi, hfound, hshown⟩ := ih hmore
      exact ⟨i + 1, found, hi, hfound, hshown⟩

/-- Whatever the filter, of two listings within the budget: an edge is listed by its source exactly
when its target lists it, once each, and the two lines tell the same of it. -/
theorem edges_listed_at_both_ends (hreads : R.ReadsEdges) {source target : String} {d : PyDict ν}
    (hedge : (R.view snapshot.graph).edges.get (source, target) = some d) {relationFilter : Text}
    {ofSource ofTarget : PyDict ν} {sourceLines targetLines : List Text}
    (hsource : ListsWhole R P reading snapshot ofSource source relationFilter sourceLines)
    (htarget : ListsWhole R P reading snapshot ofTarget target relationFilter targetLines) :
    toolGetNeighbors R P reading ofSource snapshot = .ok (joinLines sourceLines) ∧
    toolGetNeighbors R P reading ofTarget snapshot = .ok (joinLines targetLines) ∧
    (shownSuccessors R P snapshot.graph relationFilter source).Nodup ∧
    (shownPredecessors R P snapshot.graph relationFilter target).Nodup ∧
    (target ∈ shownSuccessors R P snapshot.graph relationFilter source ↔
      source ∈ shownPredecessors R P snapshot.graph relationFilter target) ∧
    ∃ sourceHeader targetHeader outgoing outgoing' incoming incoming',
      sourceLines = sourceHeader :: (outgoing ++ incoming) ∧ targetLines = targetHeader :: (outgoing' ++ incoming') ∧
      outgoing.length = (shownSuccessors R P snapshot.graph relationFilter source).length ∧
      incoming'.length = (shownPredecessors R P snapshot.graph relationFilter target).length ∧
      (target ∈ shownSuccessors R P snapshot.graph relationFilter source →
        ∃ (i j : Nat) (sourceLabel targetLabel text : Text), nodeLabel R snapshot.graph source = .ok sourceLabel ∧
          nodeLabel R snapshot.graph target = .ok targetLabel ∧ edgeText R P d = .ok text ∧
          (shownSuccessors R P snapshot.graph relationFilter source)[i]? = some target ∧
          outgoing[i]? = some ("  --> ".toList ++ targetLabel ++ text) ∧
          (shownPredecessors R P snapshot.graph relationFilter target)[j]? = some source ∧
          incoming'[j]? = some ("  <-- ".toList ++ sourceLabel ++ text)) := by
  have hd : R.edgeData snapshot.graph source target = .ok d := hreads snapshot.graph source target d hedge
  have hboth : target ∈ shownSuccessors R P snapshot.graph relationFilter source ↔
      source ∈ shownPredecessors R P snapshot.graph relationFilter target := by
    simp only [shownSuccessors, shownPredecessors, List.mem_filter, DiGraph.mem_successors_iff]
  obtain ⟨sourceHeader, outgoing, incoming, hout, -, hsourceLines⟩ := neighborsReport_eq_ok hsource.listed
  obtain ⟨targetHeader, outgoing', incoming', -, hin, htargetLines⟩ := neighborsReport_eq_ok htarget.listed
  have hshownOut := neighborLines_eq_ok hout
  have hshownIn := neighborLines_eq_ok hin
  refine ⟨hsource.answer, htarget.answer, (DiGraph.nodup_successors source).filter _,
    (DiGraph.nodup_predecessors target).filter _, hboth, sourceHeader, targetHeader, outgoing, outgoing', incoming,
    incoming', hsourceLines, htargetLines, hshownOut.length_eq.symm, hshownIn.length_eq.symm, fun hshown => ?_⟩
  obtain ⟨i, line, hi, hline, hout⟩ := line_of_shown hshownOut hshown hd
  obtain ⟨j, line', hj, hline', hin⟩ := line_of_shown hshownIn (hboth.mp hshown) hd
  obtain ⟨targetLabel, text, htargetLabel, htext, rfl⟩ := neighborLine_eq_ok hout
  obtain ⟨sourceLabel, text', hsourceLabel, htext', rfl⟩ := neighborLine_eq_ok hin
  obtain rfl := Except.ok.inj (htext.symm.trans htext')
  exact ⟨i, j, sourceLabel, targetLabel, text, hsourceLabel, htargetLabel, htext, hi, hline, hj, hline'⟩

omit [Zero ν] [DecidableEq ν] in
theorem edges_listed_at_both_ends_linkedNotes :
    let call (label : String) : PyDict Int := [("label", .str label), ("relation_filter", .str "link")]
    toolGetNeighbors plainReader plainText plainIntegers (call "alpha") linkedSnapshot =
        .ok (joinLines ["Neighbors of Alpha:".toList, "  --> Beta [links_to] []".toList]) ∧
      toolGetNeighbors plainReader plainText plainIntegers (call "beta") linkedSnapshot =
        .ok (joinLines ["Neighbors of Beta:".toList, "  <-- Alpha [links_to] []".toList]) ∧
      ("beta" ∈ shownSuccessors plainReader plainText linkedNotes "link".toList "alpha" ↔
        "alpha" ∈ shownPredecessors plainReader plainText linkedNotes "link".toList "beta") := by
  intro call
  have hsource : ListsWhole plainReader plainText plainIntegers linkedSnapshot (call "alpha") "alpha" "link".toList
      ["Neighbors of Alpha:".toList, "  --> Beta [links_to] []".toList] :=
    ⟨⟨"alpha".toList, [], rfl, by decide⟩, rfl, by decide, 2000, rfl, by decide⟩
  have htarget : ListsWhole plainReader plainText plainIntegers linkedSnapshot (call "beta") "beta" "link".toList
      ["Neighbors of Beta:".toList, "  <-- Alpha [links_to] []".toList] :=
    ⟨⟨"beta".toList, [], rfl, by decide⟩, rfl, by decide, 2000, rfl, by decide⟩
  have hboth := edges_listed_at_both_ends (d := [("relation", .str "links_to")]) plainReader_readsEdges rfl hsource htarget
  exact ⟨hboth.1, hboth.2.1, hboth.2.2.2.2.1⟩

end Listings

section Lookups

/-- A label that `get_node` can lower: a text, or one that counts as none. -/
def TextLabel (d : PyDict ν) : Prop := ∃ s, orElse (getOr "label" .null d) (.str "") = .str s

instance (d : PyDict ν) : Decidable (TextLabel d) :=
  match h : orElse (getOr "label" .null d) (.str "") with
  | .str s => isTrue ⟨s, h⟩
  | .null | .bool _ | .num _ | .arr _ | .obj _ => isFalse (by simp [TextLabel, h])

/-- The node's label contains the text, or its id is the text. -/
def matchesLabel (P : PyText ν) (label : Text) (node : String × PyDict ν) : Bool :=
  match nodeMatches P label node with
  | .ok found => found
  | .error _ => false

private theorem nodeMatches_of_textLabel {label : Text} {node : String × PyDict ν} (h : TextLabel node.2) :
    nodeMatches P label node = .ok (matchesLabel P label node) := by
  obtain ⟨s, hs⟩ := h
  simp only [matchesLabel, nodeMatches, hs, lowered]
  rfl

private theorem nodeMatches_of_not_textLabel {label : Text} {node : String × PyDict ν} (h : ¬ TextLabel node.2) :
    nodeMatches P label node = .error .attributeError := by
  have hlowered : lowered P (orElse (getOr "label" .null node.2) (.str "")) = .error .attributeError := by
    cases hlabel : orElse (getOr "label" .null node.2) (.str "") with
    | str s => exact absurd ⟨s, hlabel⟩ h
    | _ => rfl
  rw [nodeMatches, hlowered]
  rfl

/-- The comprehension goes through all nodes, also behind the first match. -/
theorem matchingNodes_eq (label : Text) (nodes : List (String × PyDict ν)) :
    matchingNodes P label nodes =
      if ∀ node ∈ nodes, TextLabel node.2 then .ok (nodes.filter (matchesLabel P label)) else .error .attributeError := by
  induction nodes with
  | nil => rfl
  | cons node rest ih =>
    have hcons : (∀ other ∈ node :: rest, TextLabel other.2) ↔
        TextLabel node.2 ∧ ∀ other ∈ rest, TextLabel other.2 := List.forall_mem_cons
    rw [matchingNodes]
    by_cases hnode : TextLabel node.2
    · rw [nodeMatches_of_textLabel hnode, ih]
      by_cases hrest : ∀ other ∈ rest, TextLabel other.2
      · rw [if_pos hrest, if_pos (hcons.mpr ⟨hnode, hrest⟩), List.filter_cons]
        rfl
      · rw [if_neg hrest, if_neg (fun h => hrest (hcons.mp h).2)]
        rfl
    · rw [nodeMatches_of_not_textLabel hnode, if_neg (fun h => hnode (hcons.mp h).1)]
      rfl

/-- `get_node` takes the first match in the graph's order, and it fails, whatever it is asked
for, as soon as any node of the graph has a label that is neither a text nor nothing. -/
theorem get_node_takes_first_match {arguments : PyDict ν} {snapshot : GraphSnapshot γ τ} {s : String}
    (hlabel : Json.lookup "label" arguments = some (.str s)) :
    toolGetNode R P arguments snapshot =
      if ∀ node ∈ (R.view snapshot.graph).nodes.items, TextLabel node.2 then
        match (R.view snapshot.graph).nodes.items.find? (matchesLabel P (P.lower s.toList)) with
        | none => .ok (noNodeMatching (P.lower s.toList))
        | some (nid, d) => (nodeReport R P snapshot.graph nid d).map joinLines
      else .error .attributeError := by
  have hasked : (Json.getItem "label" arguments).bind (lowered P) = .ok (P.lower s.toList) := by
    rw [Json.getItem, hlabel]
    rfl
  have hfound : matchingNodes P (P.lower s.toList) (R.view snapshot.graph).nodes.items = _ := matchingNodes_eq _ _
  rw [toolGetNode, hasked]
  simp only [bind, Except.bind, hfound]
  split_ifs with htexts
  · rw [← List.head?_filter]
    generalize (R.view snapshot.graph).nodes.items.filter (matchesLabel P (P.lower s.toList)) = found
    cases found with
    | nil => rfl
    | cons first rest => rfl
  · rfl

omit [Zero ν] [DecidableEq ν] in
/-- A graph in which one label is a number answers no `get_node` at all. -/
theorem get_node_takes_first_match_numericLabel :
    let graph := linkedNotes.addNode "gamma" [("label", .num 7)]
    toolGetNode plainReader plainText [("label", .str "ALP")] (⟨linkedNotes, (), .empty, 1⟩ : GraphSnapshot PlainGraph Unit) ≠
        .error .attributeError ∧
      toolGetNode plainReader plainText [("label", .str "ALP")] (⟨graph, (), .empty, 1⟩ : GraphSnapshot PlainGraph Unit) =
        .error .attributeError := by
  constructor
  · rw [get_node_takes_first_match rfl, if_pos (by decide)]
    decide
  · rw [get_node_takes_first_match rfl, if_neg (by decide)]

end Lookups

end GraphifyDaemon
