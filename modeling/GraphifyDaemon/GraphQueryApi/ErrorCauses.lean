import GraphifyDaemon.GraphQueryApi.ReadAgreement
import GraphifyDaemon.GraphQueryApi.ServedCalls

/-! What a call can be answered with an error for. Where graphify does not fail, a call that was
let in fails for one of two things in the snapshot that it reads. -/
namespace GraphifyDaemon
open Library Library.Trace Library.JsonSchema

variable {ν γ τ : Type}

/-- The node has no label, or a text. -/
def Labelled (d : PyDict ν) : Prop := ∀ v, Json.lookup "label" d = some v → ∃ s, v = .str s

def ReadEngine.LabelsNodes (R : ReadEngine ν γ) (graph : γ) : Prop :=
  ∀ id d, (R.view graph).nodes.get id = some d → Labelled d

/-- Texts can be sanitized, and what is found in a graph is nodes of it. -/
structure ReadEngine.Dependable (R : ReadEngine ν γ) : Prop where
  reads : R.ReadsEdges
  sanitizes : ∀ s, Returns (R.sanitizeLabel (.str s))
  finds : ∀ graph label ids, R.findNode graph label = .ok ids → ∀ id ∈ ids, id ∈ (R.view graph).nodes.keys

section Reports
variable [Zero ν] [DecidableEq ν] {R : ReadEngine ν γ} {P : PyText ν} {graph : γ}

omit [Zero ν] [DecidableEq ν] in
private theorem label_returns (hR : R.Dependable) {d : PyDict ν} (h : Labelled d) (id : String) :
    Returns (R.sanitizeLabel (getOr "label" (.str id) d)) := by
  rw [getOr]
  cases hv : Json.lookup "label" d with
  | none => exact hR.sanitizes id
  | some v =>
    obtain ⟨s, rfl⟩ := h v hv
    exact hR.sanitizes s

private theorem textLabel_of_labelled {d : PyDict ν} (h : Labelled d) : TextLabel d := by
  rw [TextLabel, orElse, getOr]
  cases hv : Json.lookup "label" d with
  | none => exact ⟨"", rfl⟩
  | some v =>
    obtain ⟨s, rfl⟩ := h v hv
    dsimp only [Option.getD_some]
    split_ifs
    · exact ⟨s, rfl⟩
    · exact ⟨"", rfl⟩

private theorem nodeReport_returns (hR : R.Dependable) {d : PyDict ν} (h : Labelled d) (nid : String) :
    Returns (nodeReport R P graph nid d) := by
  refine Returns.bind (label_returns hR h nid) fun _ _ => ?_
  refine Returns.bind (hR.sanitizes nid) fun _ _ => ?_
  refine Returns.bind (hR.sanitizes _) fun _ _ => ?_
  refine Returns.bind (hR.sanitizes _) fun _ _ => ?_
  refine Returns.bind (hR.sanitizes _) fun _ _ => ?_
  refine Returns.bind (hR.sanitizes _) fun _ _ => ?_
  exact ⟨_, rfl⟩

private theorem edgeText_returns (hR : R.Dependable) (d : PyDict ν) : Returns (edgeText R P d) := by
  refine Returns.bind (hR.sanitizes _) fun _ _ => ?_
  refine Returns.bind (hR.sanitizes _) fun _ _ => ?_
  have hat : Returns (edgeAt R P d) := by
    unfold edgeAt
    dsimp only
    split_ifs
    · exact ⟨_, rfl⟩
    · refine Returns.bind (hR.sanitizes _) fun _ _ => ?_
      exact Returns.bind (hR.sanitizes _) fun _ _ => ⟨_, rfl⟩
  exact Returns.bind hat fun _ _ => ⟨_, rfl⟩

omit [Zero ν] [DecidableEq ν] in
private theorem nodeLabel_returns (hR : R.Dependable) (hlabels : R.LabelsNodes graph) {n : String}
    (hn : n ∈ (R.view graph).nodes.keys) : Returns (nodeLabel R graph n) := by
  obtain ⟨d, hd⟩ := Option.isSome_iff_exists.mp ((OrderedDict.mem_keys_iff _ _).mp hn)
  have hdata : nodeData R graph n = .ok d := by rw [nodeData, hd]
  refine Returns.bind ⟨d, hdata⟩ fun d' hd' => ?_
  obtain rfl := Except.ok.inj (hdata.symm.trans hd')
  exact label_returns hR (hlabels n d hd) n

private theorem neighborLine_returns (hR : R.Dependable) (hlabels : R.LabelsNodes graph) (arrow : Text) {n : String}
    (hn : n ∈ (R.view graph).nodes.keys) (d : PyDict ν) : Returns (neighborLine R P arrow graph n d) :=
  Returns.bind (nodeLabel_returns hR hlabels hn) fun _ _ => Returns.bind (edgeText_returns hR d) fun _ _ => ⟨_, rfl⟩

omit [Zero ν] [DecidableEq ν] in
/-- A filter can be put on an edge whose relation is a text. -/
theorem passesFilter_returns {relationFilter : Text} {d : PyDict ν} :
    Returns (passesFilter P relationFilter d) ↔ relationFilter = [] ∨ ∃ s, getOr "relation" (.str "") d = .str s := by
  unfold passesFilter
  split_ifs with hfilter
  · exact ⟨fun _ => .inl hfilter, fun _ => ⟨true, rfl⟩⟩
  · rw [returns_map]
    cases getOr "relation" (.str "") d <;> simp [lowered, Returns, hfilter]

/-- A listing is completed if the filter can be put on every edge of it. -/
theorem neighborLines_returns {arrow relationFilter : Text} {edge : String → Except PyError (PyDict ν)}
    {neighbors : List String} (hedges : ∀ n ∈ neighbors, Returns (edge n))
    (hlines : ∀ n ∈ neighbors, ∀ d, Returns (neighborLine R P arrow graph n d)) :
    Returns (neighborLines R P arrow graph edge relationFilter neighbors) ↔
      ∀ n ∈ neighbors, ∀ d, edge n = .ok d → Returns (passesFilter P relationFilter d) := by
  induction neighbors with
  | nil => exact ⟨fun _ _ hn => by simp at hn, fun _ => ⟨[], rfl⟩⟩
  | cons n rest ih =>
    obtain ⟨⟨d, hd⟩, hedges⟩ := List.forall_mem_cons.mp hedges
    obtain ⟨hline, hlines⟩ := List.forall_mem_cons.mp hlines
    have ih := ih hedges hlines
    constructor
    · rintro ⟨lines, h⟩
      obtain ⟨d', hd', h⟩ := bind_eq_ok.mp h
      obtain ⟨shown, hshown, h⟩ := bind_eq_ok.mp h
      have hrest : Returns (neighborLines R P arrow graph edge relationFilter rest) := by
        cases shown with
        | false => exact ⟨lines, h⟩
        | true =>
          obtain ⟨_, -, h⟩ := bind_eq_ok.mp h
          obtain ⟨more, hmore, -⟩ := bind_eq_ok.mp h
          exact ⟨more, hmore⟩
      refine List.forall_mem_cons.mpr ⟨fun d'' hd'' => ?_, ih.mp hrest⟩
      obtain rfl := Except.ok.inj (hd'.symm.trans hd'')
      exact ⟨shown, hshown⟩
    · intro h
      obtain ⟨hfirst, hrest⟩ := List.forall_mem_cons.mp h
      refine Returns.bind ⟨d, hd⟩ fun d' hd' => Returns.bind (hfirst d' hd') fun shown _ => ?_
      cases shown with
      | false => exact ih.mpr hrest
      | true => exact Returns.bind (hline d') fun _ _ => Returns.bind (ih.mpr hrest) fun _ _ => ⟨_, rfl⟩

/-- The neighbors of a node are listed if the filter can be put on every edge at it. -/
theorem neighborsReport_returns (hR : R.Dependable) (hlabels : R.LabelsNodes graph) {relationFilter : Text} {nid : String}
    (hnid : nid ∈ (R.view graph).nodes.keys) :
    Returns (neighborsReport R P graph relationFilter nid) ↔ ∀ e d, (R.view graph).edges.get e = some d →
      e.1 = nid ∨ e.2 = nid → Returns (passesFilter P relationFilter d) := by
  have hout : Returns (outgoingLines R P graph relationFilter nid) ↔ ∀ n ∈ (R.view graph).successors nid, ∀ d,
      R.edgeData graph nid n = .ok d → Returns (passesFilter P relationFilter d) := by
    apply neighborLines_returns <;> intro n hn
    · exact edgeData_of_mem hR.reads (DiGraph.mem_successors.mp hn)
    · exact neighborLine_returns hR hlabels _ ((R.view graph).ends _ (DiGraph.mem_successors.mp hn)).2
  have hin : Returns (incomingLines R P graph relationFilter nid) ↔ ∀ n ∈ (R.view graph).predecessors nid, ∀ d,
      R.edgeData graph n nid = .ok d → Returns (passesFilter P relationFilter d) := by
    apply neighborLines_returns <;> intro n hn
    · exact edgeData_of_mem hR.reads (DiGraph.mem_predecessors.mp hn)
    · exact neighborLine_returns hR hlabels _ ((R.view graph).ends _ (DiGraph.mem_predecessors.mp hn)).1
  constructor
  · rintro ⟨lines, h⟩ ⟨source, target⟩ d hd hat
    obtain ⟨_, outgoing, incoming, houtgoing, hincoming, -⟩ := neighborsReport_eq_ok h
    have hkey : (source, target) ∈ (R.view graph).edges.keys := (OrderedDict.mem_keys_iff _ _).mpr (by simp [hd])
    rcases hat with rfl | rfl
    · exact hout.mp ⟨_, houtgoing⟩ target (DiGraph.mem_successors.mpr hkey) d (hR.reads _ _ _ _ hd)
    · exact hin.mp ⟨_, hincoming⟩ source (DiGraph.mem_predecessors.mpr hkey) d (hR.reads _ _ _ _ hd)
  · intro h
    have hfilter : ∀ source target d, (source, target) ∈ (R.view graph).edges.keys → source = nid ∨ target = nid →
        R.edgeData graph source target = .ok d → Returns (passesFilter P relationFilter d) := by
      intro source target d hkey hat hd
      obtain ⟨d', hd'⟩ := Option.isSome_iff_exists.mp ((OrderedDict.mem_keys_iff _ _).mp hkey)
      obtain rfl := Except.ok.inj ((hR.reads _ _ _ _ hd').symm.trans hd)
      exact h _ _ hd' hat
    refine Returns.bind (nodeLabel_returns hR hlabels hnid) fun _ _ => ?_
    refine Returns.bind (hout.mpr fun n hn d => hfilter nid n d (DiGraph.mem_successors.mp hn) (.inl rfl)) fun _ _ => ?_
    refine Returns.bind (hin.mpr fun n hn d => hfilter n nid d (DiGraph.mem_predecessors.mp hn) (.inr rfl)) fun _ _ => ?_
    exact ⟨_, rfl⟩

end Reports

section Tools
variable {T : Toolbox ν γ τ} {tool : Tool} {arguments : PyDict ν} {snapshot : GraphSnapshot γ τ}

/-- The community that is asked for has a member that is no node of the graph. -/
def MemberGone (T : Toolbox ν γ τ) (arguments : PyDict ν) (snapshot : GraphSnapshot γ τ) : Prop :=
  ∃ v communityId members id, Json.lookup "community_id" arguments = some v ∧ toInt T.reading v = .ok communityId ∧
    snapshot.communityMap.get communityId = some members ∧ id ∈ members ∧ T.graphify.nodes snapshot.graph id = none

/-- The node that is asked for has an edge that the filter cannot be put on: its relation is not
a text. -/
def RelationUnreadable (T : Toolbox ν γ τ) (arguments : PyDict ν) (snapshot : GraphSnapshot γ τ) : Prop :=
  ∃ label relation nid rest e d, Json.lookup "label" arguments = some (.str label) ∧
    getOr "relation_filter" (.str "") arguments = .str relation ∧ T.text.lower relation.toList ≠ [] ∧
    T.reader.findNode snapshot.graph (T.text.lower label.toList) = .ok (nid :: rest) ∧
    (T.reader.view snapshot.graph).edges.get e = some d ∧ (e.1 = nid ∨ e.2 = nid) ∧
    ∀ s, getOr "relation" (.str "") d ≠ .str s

/-- graphify cannot look for the label that is asked for. -/
def SearchFails (T : Toolbox ν γ τ) (arguments : PyDict ν) (snapshot : GraphSnapshot γ τ) : Prop :=
  ∃ label, Json.lookup "label" arguments = some (.str label) ∧
    ¬ Returns (T.reader.findNode snapshot.graph (T.text.lower label.toList))

private theorem text_of_accepts (haccepts : tool.schema.accepts T.reading arguments = true) {name : String}
    (hargument : ⟨name, .property .string, none⟩ ∈ tool.schema.arguments) {v : Json ν}
    (hv : Json.lookup name arguments = some v) : ∃ s, v = .str s := by
  have haccepted : PropertySchema.string.accepts T.reading v = true := ToolSchema.accepts_argument haccepts hargument hv
  exact PropertySchema.accepts_string haccepted

private theorem required_text_of_accepts (haccepts : tool.schema.accepts T.reading arguments = true) {name : String}
    (hargument : ⟨name, .property .string, none⟩ ∈ tool.schema.arguments) (hrequired : name ∈ tool.schema.required) :
    ∃ s, Json.lookup name arguments = some (.str s) := by
  obtain ⟨v, hv⟩ := ToolSchema.accepts_required haccepts hrequired
  obtain ⟨s, rfl⟩ := text_of_accepts haccepts hargument hv
  exact ⟨s, hv⟩

private theorem intArgument_returns (haccepts : tool.schema.accepts T.reading arguments = true) {name : String}
    {minimum maximum default : Int}
    (hargument : ⟨name, .property (.integer minimum maximum), some (.number default)⟩ ∈ tool.schema.arguments) :
    Returns (intArgument T.reading name default arguments) := by
  unfold intArgument
  cases hv : Json.lookup name arguments with
  | none => exact ⟨default, rfl⟩
  | some v =>
    have haccepted : (PropertySchema.integer minimum maximum).accepts T.reading v = true :=
      ToolSchema.accepts_argument haccepts hargument hv
    obtain ⟨i, hi, -⟩ := PropertySchema.accepts_integer haccepted
    exact ⟨i, hi⟩

private theorem memberLine_returns {G : Graphify ν γ τ} {graph : γ} {n : String} :
    Returns (memberLine G graph n) ↔ (G.nodes graph n).isSome = true := by
  rw [memberLine, returns_map, nodeView]
  cases G.nodes graph n <;> simp [Returns]

/-- A community is listed if all its members are nodes. -/
theorem toolGetCommunity_returns {G : Graphify ν γ τ} {communityId : Int} {tokenBudget : Nat} :
    Returns (toolGetCommunity G communityId tokenBudget snapshot) ↔ ∀ members,
      snapshot.communityMap.get communityId = some members →
        ∀ id ∈ members, (G.nodes snapshot.graph id).isSome = true := by
  cases hmembers : snapshot.communityMap.get communityId with
  | none => exact iff_of_true (by simp [Returns, toolGetCommunity, hmembers]) (by simp)
  | some members =>
    cases members with
    | nil => exact iff_of_true (by simp [Returns, toolGetCommunity, hmembers]) (by simp)
    | cons first rest =>
      constructor
      · rintro ⟨text, h⟩ _ ⟨⟩ id hmem
        simp only [toolGetCommunity, hmembers, Option.getD_some] at h
        obtain ⟨d, -, h⟩ := bind_eq_ok.mp h
        obtain ⟨lines, hlines, -⟩ := bind_eq_ok.mp h
        exact memberLine_returns.mp (returns_mapM.mp ⟨lines, hlines⟩ id hmem)
      · intro h
        obtain ⟨header, lines, -, htext⟩ := toolGetCommunity_of_mem hmembers (h _ rfl) tokenBudget
        exact ⟨_, htext⟩

private theorem toolGetCommunityOf_returns (haccepts : Tool.getCommunity.schema.accepts T.reading arguments = true) :
    Returns (toolGetCommunityOf T.graphify T.reading arguments snapshot) ↔ ¬ MemberGone T arguments snapshot := by
  have hargument : ⟨"community_id", .atLeast 0, none⟩ ∈ Tool.getCommunity.schema.arguments := .head _
  obtain ⟨v, hv⟩ : ∃ v, Json.lookup "community_id" arguments = some v := ToolSchema.accepts_required haccepts (.head _)
  have haccepted : (ValueSchema.atLeast 0).accepts T.reading v = true :=
    ToolSchema.accepts_argument haccepts hargument hv
  obtain ⟨communityId, hid, -⟩ := ValueSchema.accepts_atLeast haccepted
  obtain ⟨budget, hbudget⟩ : Returns (intArgument T.reading "token_budget" 2000 arguments) :=
    intArgument_returns haccepts (.tail _ (.head _))
  have hasked : (Json.getItem "community_id" arguments).bind (toInt T.reading) = .ok communityId := by
    rw [Json.getItem, hv]
    exact hid
  have hlisted : Returns (toolGetCommunityOf T.graphify T.reading arguments snapshot) ↔ ∀ members,
      snapshot.communityMap.get communityId = some members →
        ∀ id ∈ members, (T.graphify.nodes snapshot.graph id).isSome = true := by
    rw [toolGetCommunityOf, hasked]
    simp only [bind, Except.bind, hbudget]
    split <;> exact toolGetCommunity_returns
  rw [hlisted]
  constructor
  · rintro h ⟨v', communityId', members, id, hv', hid', hmembers, hmem, hnone⟩
    obtain rfl := Option.some.inj (hv.symm.trans hv')
    obtain rfl := Except.ok.inj (hid.symm.trans hid')
    have hnode := h members hmembers id hmem
    simp [hnone] at hnode
  · intro h members hmembers id hmem
    by_contra hnone
    exact h ⟨v, communityId, members, id, hv, hid, hmembers, hmem, by simpa using hnone⟩

variable [Zero ν] [DecidableEq ν]

private theorem toolGetNode_returns (hR : T.reader.Dependable) (hlabels : T.reader.LabelsNodes snapshot.graph)
    (haccepts : Tool.getNode.schema.accepts T.reading arguments = true) :
    Returns (toolGetNode T.reader T.text arguments snapshot) := by
  obtain ⟨s, hs⟩ : ∃ s, Json.lookup "label" arguments = some (.str s) :=
    required_text_of_accepts haccepts (.head _) (.head _)
  have hasked : (Json.getItem "label" arguments).bind (lowered T.text) = .ok (T.text.lower s.toList) := by
    rw [Json.getItem, hs]
    rfl
  have hlabelled : ∀ node ∈ (T.reader.view snapshot.graph).nodes.items, Labelled node.2 :=
    fun node hnode => hlabels node.1 node.2 ((OrderedDict.get_eq_some_iff _ _ _).mpr hnode)
  refine Returns.bind ⟨_, hasked⟩ fun label _ => ?_
  have hfound : matchingNodes T.text label (T.reader.view snapshot.graph).nodes.items = .ok _ :=
    (matchingNodes_eq label _).trans (if_pos fun node hnode => textLabel_of_labelled (hlabelled node hnode))
  refine Returns.bind ⟨_, hfound⟩ fun found hmatch => ?_
  obtain rfl := Except.ok.inj (hfound.symm.trans hmatch)
  split
  · exact ⟨_, rfl⟩
  · rename_i nid d rest hfirst
    have hmem : (nid, d) ∈ (T.reader.view snapshot.graph).nodes.items :=
      (List.mem_filter.mp (hfirst ▸ List.mem_cons_self)).1
    exact returns_map.mpr (nodeReport_returns hR (hlabelled _ hmem) nid)

/-- The node that is found decides which edges the filter is put on. -/
theorem foundNeighbors_returns (hR : T.reader.Dependable) (hlabels : T.reader.LabelsNodes snapshot.graph)
    {relationFilter label : Text} {ids : List String} (hids : T.reader.findNode snapshot.graph label = .ok ids) :
    (∀ nid rest, ids = nid :: rest →
        Returns (neighborsReport T.reader T.text snapshot.graph relationFilter nid)) ↔
      ¬ ∃ nid rest e d, ids = nid :: rest ∧ relationFilter ≠ [] ∧
        (T.reader.view snapshot.graph).edges.get e = some d ∧ (e.1 = nid ∨ e.2 = nid) ∧
        ∀ s, getOr "relation" (.str "") d ≠ .str s := by
  constructor
  · rintro h ⟨nid, rest, e, d, rfl, hfilter, hd, hat, hodd⟩
    have hreport := h nid rest rfl
    rw [neighborsReport_returns hR hlabels (hR.finds _ _ _ hids nid List.mem_cons_self)] at hreport
    rcases passesFilter_returns.mp (hreport e d hd hat) with hnone | ⟨s, hs⟩
    · exact hfilter hnone
    · exact hodd s hs
  · rintro h nid rest rfl
    rw [neighborsReport_returns hR hlabels (hR.finds _ _ _ hids nid List.mem_cons_self)]
    intro e d hd hat
    by_contra hfails
    rw [passesFilter_returns, not_or, not_exists] at hfails
    exact h ⟨nid, rest, e, d, rfl, hfails.1, hd, hat, hfails.2⟩

omit [Zero ν] [DecidableEq ν] in
private theorem searchFails_iff {label : String} (hlabel : Json.lookup "label" arguments = some (.str label)) :
    SearchFails T arguments snapshot ↔
      ¬ Returns (T.reader.findNode snapshot.graph (T.text.lower label.toList)) := by
  constructor
  · rintro ⟨label', hlabel', hfails⟩
    obtain ⟨⟩ := hlabel.symm.trans hlabel'
    exact hfails
  · exact fun hfails => ⟨label, hlabel, hfails⟩

omit [Zero ν] [DecidableEq ν] in
private theorem relationUnreadable_iff {label relation : String} {ids : List String}
    (hlabel : Json.lookup "label" arguments = some (.str label))
    (hrelation : getOr "relation_filter" (.str "") arguments = .str relation)
    (hids : T.reader.findNode snapshot.graph (T.text.lower label.toList) = .ok ids) :
    RelationUnreadable T arguments snapshot ↔ ∃ nid rest e d, ids = nid :: rest ∧
      T.text.lower relation.toList ≠ [] ∧ (T.reader.view snapshot.graph).edges.get e = some d ∧
      (e.1 = nid ∨ e.2 = nid) ∧ ∀ s, getOr "relation" (.str "") d ≠ .str s := by
  constructor
  · rintro ⟨label', relation', nid, rest, e, d, hlabel', hrelation', hfilter, hfound, hedge⟩
    obtain ⟨⟩ := hlabel.symm.trans hlabel'
    obtain ⟨⟩ := hrelation.symm.trans hrelation'
    exact ⟨nid, rest, e, d, Except.ok.inj (hids.symm.trans hfound), hfilter, hedge⟩
  · rintro ⟨nid, rest, e, d, rfl, hfilter, hedge⟩
    exact ⟨label, relation, nid, rest, e, d, hlabel, hrelation, hfilter, hids, hedge⟩

private theorem toolGetNeighbors_returns (hR : T.reader.Dependable) (hlabels : T.reader.LabelsNodes snapshot.graph)
    (haccepts : Tool.getNeighbors.schema.accepts T.reading arguments = true) :
    Returns (toolGetNeighbors T.reader T.text T.reading arguments snapshot) ↔
      ¬ (SearchFails T arguments snapshot ∨ RelationUnreadable T arguments snapshot) := by
  obtain ⟨label, hlabel⟩ : ∃ s, Json.lookup "label" arguments = some (.str s) :=
    required_text_of_accepts haccepts (.head _) (.head _)
  obtain ⟨relation, hrelation⟩ : ∃ relation, getOr "relation_filter" (.str "") arguments = .str relation := by
    rw [getOr]
    cases hv : Json.lookup "relation_filter" arguments with
    | none => exact ⟨"", rfl⟩
    | some v => exact text_of_accepts haccepts (.tail _ (.head _)) hv
  obtain ⟨budget, hbudget⟩ : Returns (intArgument T.reading "token_budget" 2000 arguments) :=
    intArgument_returns haccepts (.tail _ (.tail _ (.head _)))
  have hasked : (Json.getItem "label" arguments).bind (lowered T.text) = .ok (T.text.lower label.toList) := by
    rw [Json.getItem, hlabel]
    rfl
  rw [toolGetNeighbors, hasked, hrelation, searchFails_iff hlabel]
  simp only [bind, Except.bind, lowered, hbudget]
  cases hids : T.reader.findNode snapshot.graph (T.text.lower label.toList) with
  | error e => simp [Returns]
  | ok ids =>
    have hfound : ¬ ¬ Returns (Except.ok ids : Except PyError (List String)) := not_not.mpr ⟨ids, rfl⟩
    rw [or_iff_right hfound, relationUnreadable_iff hlabel hrelation hids, ← foundNeighbors_returns hR hlabels hids]
    cases ids with
    | nil => exact iff_of_true ⟨_, rfl⟩ fun _ _ h => by cases h
    | cons nid rest =>
      constructor
      · rintro ⟨text, h⟩ nid' rest' ⟨⟩
        obtain ⟨lines, hlines, -⟩ := bind_eq_ok.mp h
        exact ⟨lines, hlines⟩
      · intro h
        exact Returns.bind (h nid rest rfl) fun lines _ => ⟨_, rfl⟩

omit [Zero ν] [DecidableEq ν] in
private theorem toolGodNodes_returns (haccepts : Tool.godNodes.schema.accepts T.reading arguments = true) :
    Returns (toolGodNodes T.reader T.reading arguments snapshot) ↔
      ¬ ∃ topN, intArgument T.reading "top_n" 10 arguments = .ok topN ∧
        ¬ Returns (T.reader.godNodes snapshot.graph topN) := by
  obtain ⟨topN, htopN⟩ : Returns (intArgument T.reading "top_n" 10 arguments) :=
    intArgument_returns haccepts (.head _)
  constructor
  · rintro ⟨text, h⟩ ⟨topN', htopN', hfails⟩
    obtain ⟨topN'', htopN'', h⟩ := bind_eq_ok.mp h
    obtain ⟨nodes, hnodes, -⟩ := bind_eq_ok.mp h
    obtain rfl := Except.ok.inj (htopN''.symm.trans htopN')
    exact hfails ⟨nodes, hnodes⟩
  · intro h
    refine Returns.bind ⟨topN, htopN⟩ fun topN' htopN' => ?_
    refine Returns.bind ?_ fun _ _ => ⟨_, rfl⟩
    by_contra hfails
    exact h ⟨topN', htopN', hfails⟩

/-- The question that graphify is asked is the one that the answer is cached under. -/
theorem toolQueryGraph_returns (hempty : T.engine.EmptyFiltersAreNone)
    (haccepts : Tool.queryGraph.schema.accepts T.reading arguments = true) :
    Returns (toolQueryGraph T.engine T.reading arguments snapshot) ↔
      ¬ ∃ key, cacheKwargs T.reading arguments snapshot.version = .ok key ∧
        ¬ Returns (key.answer T.engine snapshot.graph) := by
  have hfits : queryGraphSchema.accepts T.reading arguments = true := (Tool.queryGraph_accepts _ _).symm.trans haccepts
  constructor
  · rintro h ⟨key, hkey, hfails⟩
    rw [toolQueryGraph_eq_answer hempty hfits hkey snapshot] at h
    exact hfails h
  · intro h
    obtain ⟨key, hkey⟩ := exists_cacheKwargs hfits snapshot.version
    rw [toolQueryGraph_eq_answer hempty hfits hkey snapshot]
    by_contra hfails
    exact h ⟨key, hkey, hfails⟩

/-- What the tool fails for, with arguments that it takes: graphify, or the graph. -/
def FailsFor (T : Toolbox ν γ τ) (arguments : PyDict ν) (snapshot : GraphSnapshot γ τ) : Tool → Prop
  | .queryGraph => ∃ key, cacheKwargs T.reading arguments snapshot.version = .ok key ∧
      ¬ Returns (key.answer T.engine snapshot.graph)
  | .shortestPath => ¬ Returns (T.reader.shortestPathText snapshot.graph arguments)
  | .getCommunity => MemberGone T arguments snapshot
  | .getNeighbors => SearchFails T arguments snapshot ∨ RelationUnreadable T arguments snapshot
  | .godNodes => ∃ topN, intArgument T.reading "top_n" 10 arguments = .ok topN ∧
      ¬ Returns (T.reader.godNodes snapshot.graph topN)
  | .getNode | .graphStats => False

private theorem handler_returns (hempty : T.engine.EmptyFiltersAreNone) (hR : T.reader.Dependable)
    (hlabels : T.reader.LabelsNodes snapshot.graph) (haccepts : tool.schema.accepts T.reading arguments = true) :
    Returns (T.handler arguments snapshot tool) ↔ ¬ FailsFor T arguments snapshot tool := by
  cases tool with
  | queryGraph => exact toolQueryGraph_returns hempty haccepts
  | getNode => exact iff_of_true (returns_map.mpr (toolGetNode_returns hR hlabels haccepts)) id
  | getNeighbors => exact returns_map.trans (toolGetNeighbors_returns hR hlabels haccepts)
  | getCommunity => exact returns_map.trans (toolGetCommunityOf_returns haccepts)
  | godNodes => exact returns_map.trans (toolGodNodes_returns haccepts)
  | graphStats => exact iff_of_true (returns_map.mpr ⟨_, rfl⟩) id
  | shortestPath => exact not_not.symm

end Tools

section Causes
variable [Zero ν] [DecidableEq ν] {T : Toolbox ν γ τ} {request : ToolRequest ν γ τ} {s : ToolServer ν γ τ}

/-- What a call is answered with an error for. -/
inductive ErrorCause (T : Toolbox ν γ τ) (request : ToolRequest ν γ τ) : Prop where
  | unknownTool (hname : Tool.ofName request.name = none)
  | notReady (hsnapshot : request.snapshot = none)
  | invalidArguments (tool : Tool) (hname : Tool.ofName request.name = some tool)
      (hrefused : tool.schema.accepts T.reading request.arguments = false)
  | toolFailed (tool : Tool) (snapshot : GraphSnapshot γ τ) (hname : Tool.ofName request.name = some tool)
      (hsnapshot : request.snapshot = some snapshot) (hfails : FailsFor T request.arguments snapshot tool)

omit [Zero ν] [DecidableEq ν] in
private theorem resultOf_isError {name : String} {returned : Except PyError String} :
    (∃ message, resultOf name returned = .isError message) ↔ ¬ Returns returned := by
  cases returned with
  | error e => simp [resultOf, toolFailedResult, Returns]
  | ok text => simp [resultOf, Returns]

private theorem sequentialAnswer_isError (hempty : T.engine.EmptyFiltersAreNone) (hR : T.reader.Dependable)
    (hlabels : ∀ snapshot, request.snapshot = some snapshot → T.reader.LabelsNodes snapshot.graph) :
    (∃ message, sequentialAnswer T request = .isError message) ↔ ErrorCause T request := by
  unfold sequentialAnswer
  cases hname : Tool.ofName request.name with
  | none => exact iff_of_true ⟨_, rfl⟩ (.unknownTool hname)
  | some tool =>
    cases hsnapshot : request.snapshot with
    | none => exact iff_of_true ⟨_, rfl⟩ (.notReady hsnapshot)
    | some snapshot =>
      dsimp only
      cases haccepts : tool.schema.accepts T.reading request.arguments with
      | false => exact iff_of_true ⟨_, rfl⟩ (.invalidArguments tool hname haccepts)
      | true =>
        rw [if_pos rfl, resultOf_isError, handler_returns hempty hR (hlabels snapshot hsnapshot) haccepts, not_not]
        constructor
        · exact .toolFailed tool snapshot hname hsnapshot
        · intro hcause
          cases hcause with
          | unknownTool hunknown => simp [hname] at hunknown
          | notReady hnone => simp [hsnapshot] at hnone
          | invalidArguments tool' hname' hrefused =>
            obtain rfl := Option.some.inj (hname.symm.trans hname')
            simp [haccepts] at hrefused
          | toolFailed tool' snapshot' hname' hsnapshot' hfails =>
            obtain rfl := Option.some.inj (hname.symm.trans hname')
            obtain rfl := Option.some.inj (hsnapshot.symm.trans hsnapshot')
            exact hfails

/-- However calls and publications interleave, and whatever the cache holds: where graphify keeps
its word and the labels are texts, a call gets an error exactly if there is one of these causes
for it. In the graph that are a member of a community that is gone, and a relation that is not a
text. -/
theorem errors_have_their_cause (hempty : T.engine.EmptyFiltersAreNone) (hR : T.reader.Dependable) {cacheSize : Int}
    {latencyWindow : Nat} {events : List (ServerEvent ν γ)}
    (hrun : exec (ToolServer.step T) events (.initial cacheSize latencyWindow) = some s) :
    ∀ call ∈ s.ended, ∀ result, call.result = some result →
      (∀ snapshot, call.request.snapshot = some snapshot → T.reader.LabelsNodes snapshot.graph) →
      ((∃ message, result = .isError message) ↔ ErrorCause T call.request) := by
  obtain ⟨published, hserved⟩ : ∃ published, Served T published s :=
    exec_invariant_of_step (fun s => ∃ published, Served T published s)
      (fun _ _ _ ⟨_, hs⟩ hstep => hs.step hempty hstep) ⟨[], .initial cacheSize latencyWindow⟩ hrun
  intro call hcall result hresult hlabels
  rw [hserved.ended call hcall result hresult]
  exact sequentialAnswer_isError hempty hR hlabels

end Causes

private theorem plainReader_dependable : plainReader.Dependable where
  reads := plainReader_readsEdges
  sanitizes s := ⟨s.toList, rfl⟩
  finds graph label ids h id hid := by
    cases h
    exact (List.mem_filter.mp hid).1

private theorem linkedNotes_labelled : plainReader.LabelsNodes linkedNotes := by
  intro id d hd v hv
  have hmem : (id, d) ∈ linkedNotes.nodes.items := (OrderedDict.get_eq_some_iff _ _ _).mp hd
  have hitems : linkedNotes.nodes.items = [("alpha", [("label", .str "Alpha")]), ("beta", [("label", .str "Beta")])] := rfl
  simp only [hitems, List.mem_cons, Prod.mk.injEq, List.not_mem_nil, or_false] at hmem
  rcases hmem with ⟨-, rfl⟩ | ⟨-, rfl⟩ <;> cases hv <;> exact ⟨_, rfl⟩

/-- A community is asked for that has a member whose note is gone, then a node. -/
def staleCalls : List (ServerEvent Int PlainGraph) :=
  [.publish linkedNotes ((.empty : CommunityMap).set 0 ["alpha", "gone"]),
    .call "get_community" (some [("community_id", .num 0)]), .compute 0, .resume 0,
    .call "get_node" (some [("label", .str "nobody")]), .compute 0, .resume 0]

theorem errors_have_their_cause_staleCalls :
    ∃ s, exec (ToolServer.step plainToolbox) staleCalls (.initial 512 1000) = some s ∧
      s.ended.map EndedCall.result = [some (.isError "Tool get_community failed. See daemon logs for detail."),
        some (.content "No node matching 'nobody' found.")] ∧
      ∀ call ∈ s.ended, ∀ result, call.result = some result →
        ((∃ message, result = .isError message) ↔ ErrorCause plainToolbox call.request) := by
  have hrun : exec (ToolServer.step plainToolbox) staleCalls (.initial 512 1000) = some _ := rfl
  refine ⟨_, hrun, by decide, fun call hcall result hresult =>
    errors_have_their_cause plainToolbox_emptyFiltersAreNone plainReader_dependable hrun call hcall result hresult ?_⟩
  intro snapshot hsnapshot
  let graphOf (call : EndedCall Int PlainGraph Unit) : Option PlainGraph := call.request.snapshot.map GraphSnapshot.graph
  have hgraph : graphOf call ∈ [some linkedNotes, some linkedNotes] := List.mem_map_of_mem hcall
  dsimp only [graphOf] at hgraph
  rw [hsnapshot] at hgraph
  simp only [Option.map_some, List.mem_cons, Option.some.injEq, List.not_mem_nil, or_false, or_self] at hgraph
  rw [hgraph]
  exact linkedNotes_labelled

end GraphifyDaemon
