import GraphifyDaemon.GraphQueryApi.ReadTools
import GraphifyDaemon.Library.TextFields

/-! `KNOWLEDGE.md`, and what of a snapshot can be read off it again. -/
namespace GraphifyDaemon
open Library Library.TextFields

variable {ν γ τ : Type}

/-- What `generate_knowledge_md` renders, the communities by their ids. -/
structure KnowledgeSummary where
  version : Nat
  nodes : Nat
  edges : Nat
  communities : Nat
  godNodes : List GodNode
  sizes : List (Int × Nat)

/-- The line of the god node at rank `i`. -/
def godNodeLine (i : Nat) (node : GodNode) : Text :=
  natText i ++ ". ".toList ++ node.label.toList ++ " (".toList ++ natText node.degree ++ " edges)".toList

/-- `enumerate(god_nodes, 1)` -/
def godNodeSection : Nat → List GodNode → List Text
  | _, [] => []
  | i, node :: rest => godNodeLine i node :: godNodeSection (i + 1) rest

def communityLine (size : Int × Nat) : Text :=
  "- Community ".toList ++ intText size.1 ++ ": ".toList ++ natText size.2 ++ " nodes".toList

def countLine (name : String) (n : Nat) : Text := name.toList ++ natText n

namespace KnowledgeSummary

def header (k : KnowledgeSummary) : List Text :=
  ["# Knowledge Graph Summary".toList, [], countLine "- Snapshot version: " k.version, countLine "- Nodes: " k.nodes,
    countLine "- Edges: " k.edges, countLine "- Communities: " k.communities, [], "## God nodes".toList, []]

def lines (k : KnowledgeSummary) : List Text :=
  k.header ++ (godNodeSection 1 k.godNodes ++ [] :: "## Communities".toList :: [] :: k.sizes.map communityLine)

def render (k : KnowledgeSummary) : Text := joinLines k.lines ++ ['\n']

/-- No label breaks its line. -/
def OneLine (k : KnowledgeSummary) : Prop := ∀ node ∈ k.godNodes, '\n' ∉ node.label.toList

end KnowledgeSummary

/-- `sorted(community_map.items())` with the sizes of the communities. -/
def sortedSizes (communityMap : CommunityMap) : List (Int × Nat) := (communityMap.mapValues List.length).sortedItems

def knowledgeSummary (R : ReadEngine ν γ) (snapshot : GraphSnapshot γ τ) (godNodes : List GodNode) :
    KnowledgeSummary where
  version := snapshot.version
  nodes := (R.view snapshot.graph).nodes.keys.length
  edges := (R.view snapshot.graph).size
  communities := snapshot.communityMap.keys.length
  godNodes := godNodes
  sizes := sortedSizes snapshot.communityMap

/-- `generate_knowledge_md` -/
def generateKnowledgeMd (R : ReadEngine ν γ) (snapshot : GraphSnapshot γ τ) : Except PyError Text :=
  (R.godNodes snapshot.graph 10).map fun godNodes => (knowledgeSummary R snapshot godNodes).render

private theorem newline_not_mem_nat (n : Nat) : '\n' ∉ natText n := fun h => absurd (isDigit_of_mem_nat h) (by decide)

private theorem newline_not_mem_int (i : Int) : '\n' ∉ intText i := by
  intro h
  rcases mem_int h with hminus | hdigit
  · exact absurd hminus (by decide)
  · exact absurd hdigit (by decide)

private theorem bracket_not_mem_nat (n : Nat) : '(' ∉ natText n := fun h => absurd (isDigit_of_mem_nat h) (by decide)

private theorem colon_not_mem_int (i : Int) : ':' ∉ intText i := by
  intro h
  rcases mem_int h with hminus | hdigit
  · exact absurd hminus (by decide)
  · exact absurd hdigit (by decide)

private theorem not_mem_append_of {c : Char} {s t : Text} (hs : c ∉ s) (ht : c ∉ t) : c ∉ s ++ t := by
  rw [List.mem_append, not_or]
  exact ⟨hs, ht⟩

private theorem newline_not_mem_godNodeLine {node : GodNode} (hlabel : '\n' ∉ node.label.toList) (i : Nat) :
    '\n' ∉ godNodeLine i node := by
  have hrank : '\n' ∉ natText i ++ ". ".toList := not_mem_append_of (newline_not_mem_nat i) (by decide)
  have hopen : '\n' ∉ natText i ++ ". ".toList ++ node.label.toList ++ " (".toList :=
    not_mem_append_of (not_mem_append_of hrank hlabel) (by decide)
  exact not_mem_append_of (not_mem_append_of hopen (newline_not_mem_nat node.degree)) (by decide)

private theorem godNodeLine_ne_nil (i : Nat) (node : GodNode) : godNodeLine i node ≠ [] := by
  intro h
  have hclose : " edges)".toList = [] := (List.append_eq_nil_iff.mp h).2
  exact absurd hclose (by decide)

private theorem forall_mem_godNodeSection {P : Text → Prop} {nodes : List GodNode}
    (h : ∀ i, ∀ node ∈ nodes, P (godNodeLine i node)) (i : Nat) : ∀ line ∈ godNodeSection i nodes, P line := by
  induction nodes generalizing i with
  | nil =>
    intro line hline
    cases hline
  | cons node rest ih =>
    intro line hline
    rcases List.mem_cons.mp hline with rfl | hrest
    · exact h i node List.mem_cons_self
    · exact ih (fun j n hn => h j n (List.mem_cons_of_mem _ hn)) (i + 1) line hrest

private theorem newline_not_mem_communityLine (size : Int × Nat) : '\n' ∉ communityLine size := by
  have hid : '\n' ∉ "- Community ".toList ++ intText size.1 := not_mem_append_of (by decide) (newline_not_mem_int _)
  have hcount : '\n' ∉ "- Community ".toList ++ intText size.1 ++ ": ".toList ++ natText size.2 :=
    not_mem_append_of (not_mem_append_of hid (by decide)) (newline_not_mem_nat _)
  exact not_mem_append_of hcount (by decide)

private theorem newline_not_mem_countLine {name : String} (hname : '\n' ∉ name.toList) (n : Nat) :
    '\n' ∉ countLine name n :=
  not_mem_append_of hname (newline_not_mem_nat n)

private theorem countLine_injective {name : String} {m n : Nat} (h : countLine name m = countLine name n) : m = n :=
  nat_injective (List.append_cancel_left h)

/-- The label is what stands before the last bracket. -/
theorem godNodeLine_injective {i : Nat} {a b : GodNode} (h : godNodeLine i a = godNodeLine i b) : a = b := by
  have hclosed := List.append_cancel_right h
  have hbracket : ∀ node : GodNode, natText i ++ ". ".toList ++ node.label.toList ++ " (".toList ++ natText node.degree
      = (natText i ++ ". ".toList ++ node.label.toList ++ [' ']) ++ '(' :: natText node.degree := by
    intro node
    rw [show " (".toList = [' '] ++ ['('] from rfl, ← List.append_assoc _ [' '] ['('], List.append_assoc _ ['('] _]
    rfl
  rw [hbracket a, hbracket b] at hclosed
  obtain ⟨hbefore, hdegree⟩ := split_last (bracket_not_mem_nat a.degree) (bracket_not_mem_nat b.degree) hclosed
  have hlabels := List.append_cancel_left (List.append_cancel_right hbefore)
  cases a with
  | mk labelA degreeA => cases b with
    | mk labelB degreeB =>
      obtain rfl : labelA = labelB := String.toList_injective hlabels
      obtain rfl : degreeA = degreeB := nat_injective hdegree
      rfl

private theorem godNodeSection_injective {xs ys : List GodNode} {i : Nat}
    (h : godNodeSection i xs = godNodeSection i ys) :
    xs = ys := by
  induction xs generalizing ys i with
  | nil => cases ys with
    | nil => rfl
    | cons y ys => cases h
  | cons x xs ih => cases ys with
    | nil => cases h
    | cons y ys =>
      obtain ⟨hline, hrest⟩ := List.cons.inj h
      rw [godNodeLine_injective hline, ih hrest]

private theorem communityLine_injective : Function.Injective communityLine := by
  intro a b h
  have hcolon : ∀ size : Int × Nat, "- Community ".toList ++ intText size.1 ++ ": ".toList ++ natText size.2
      = "- Community ".toList ++ (intText size.1 ++ ':' :: ' ' :: natText size.2) := by
    intro size
    rw [show ": ".toList = [':', ' '] from rfl, List.append_assoc, List.append_assoc]
    rfl
  have hcut := List.append_cancel_right h
  rw [hcolon a, hcolon b] at hcut
  obtain ⟨hid, hsize⟩ := split_first (colon_not_mem_int a.1) (colon_not_mem_int b.1) (List.append_cancel_left hcut)
  exact Prod.ext (int_injective hid) (nat_injective (List.cons.inj hsize).2)

namespace KnowledgeSummary

private theorem newline_not_mem_header (k : KnowledgeSummary) : ∀ line ∈ k.header, '\n' ∉ line := by
  rw [header]
  refine List.forall_mem_cons.mpr ⟨by decide, List.forall_mem_cons.mpr ⟨by decide, ?_⟩⟩
  refine List.forall_mem_cons.mpr ⟨newline_not_mem_countLine (by decide) _, ?_⟩
  refine List.forall_mem_cons.mpr ⟨newline_not_mem_countLine (by decide) _, ?_⟩
  refine List.forall_mem_cons.mpr ⟨newline_not_mem_countLine (by decide) _, ?_⟩
  refine List.forall_mem_cons.mpr ⟨newline_not_mem_countLine (by decide) _, by decide⟩

private theorem newline_not_mem_lines {k : KnowledgeSummary} (h : k.OneLine) : ∀ line ∈ k.lines, '\n' ∉ line := by
  have hgods := forall_mem_godNodeSection (P := ('\n' ∉ ·))
    (fun i node hnode => newline_not_mem_godNodeLine (h node hnode) i) 1
  have hsizes : ∀ line ∈ k.sizes.map communityLine, '\n' ∉ line := by
    intro line hline
    obtain ⟨size, -, rfl⟩ := List.mem_map.mp hline
    exact newline_not_mem_communityLine size
  rw [lines]
  refine List.forall_mem_append.mpr ⟨k.newline_not_mem_header, List.forall_mem_append.mpr ⟨hgods, ?_⟩⟩
  refine List.forall_mem_cons.mpr ⟨by decide, List.forall_mem_cons.mpr ⟨by decide, ?_⟩⟩
  exact List.forall_mem_cons.mpr ⟨by decide, hsizes⟩

private theorem lines_ne_nil (k : KnowledgeSummary) : k.lines ≠ [] := by
  rw [lines, header]
  exact List.cons_ne_nil _ _

private theorem header_injective {a b : KnowledgeSummary} (h : a.header = b.header) :
    a.version = b.version ∧ a.nodes = b.nodes ∧ a.edges = b.edges ∧ a.communities = b.communities := by
  have hline : ∀ i : Nat, a.header[i]? = b.header[i]? := fun i => by rw [h]
  exact ⟨countLine_injective (Option.some.inj (hline 2)), countLine_injective (Option.some.inj (hline 3)),
    countLine_injective (Option.some.inj (hline 4)), countLine_injective (Option.some.inj (hline 5))⟩

/-- Two summaries with one text are the same. -/
theorem render_injective {a b : KnowledgeSummary} (ha : a.OneLine) (hb : b.OneLine) (h : a.render = b.render) :
    a = b := by
  have hlines : a.lines = b.lines :=
    joined_injective (newline_not_mem_lines ha) (newline_not_mem_lines hb) a.lines_ne_nil b.lines_ne_nil
      (List.append_cancel_right h)
  obtain ⟨hheader, hrest⟩ := List.append_inj hlines rfl
  have hblank : ∀ k : KnowledgeSummary, [] ∉ godNodeSection 1 k.godNodes := fun k hmem =>
    forall_mem_godNodeSection (P := (· ≠ [])) (fun i node _ => godNodeLine_ne_nil i node) 1 [] hmem rfl
  obtain ⟨hgods, hend⟩ := split_first (hblank a) (hblank b) hrest
  have hsizes : a.sizes = b.sizes := communityLine_injective.list_map (List.cons.inj (List.cons.inj hend).2).2
  obtain ⟨hversion, hnodes, hedges, hcommunities⟩ := header_injective hheader
  have hgodNodes := godNodeSection_injective hgods
  cases a with
  | mk => cases b with
    | mk => simp_all only

end KnowledgeSummary

/-- The file tells two snapshots apart exactly when their versions, their counts, their top
nodes or the size of a community differ; the order of the community map does not show. -/
theorem knowledge_md_faithful {R : ReadEngine ν γ} {s t : GraphSnapshot γ τ} {godNodes godNodes' : List GodNode}
    (hs : R.godNodes s.graph 10 = .ok godNodes) (ht : R.godNodes t.graph 10 = .ok godNodes')
    (hlabels : ∀ node ∈ godNodes, '\n' ∉ node.label.toList) (hlabels' : ∀ node ∈ godNodes', '\n' ∉ node.label.toList) :
    generateKnowledgeMd R s = generateKnowledgeMd R t ↔
      s.version = t.version ∧ (R.view s.graph).nodes.keys.length = (R.view t.graph).nodes.keys.length ∧
        (R.view s.graph).size = (R.view t.graph).size ∧ godNodes = godNodes' ∧
        ∀ cid, (s.communityMap.get cid).map List.length = (t.communityMap.get cid).map List.length := by
  have hsizes : sortedSizes s.communityMap = sortedSizes t.communityMap ↔
      ∀ cid, (s.communityMap.get cid).map List.length = (t.communityMap.get cid).map List.length := by
    simp only [sortedSizes, OrderedDict.sortedItems_eq_iff, OrderedDict.get_mapValues]
  rw [generateKnowledgeMd, generateKnowledgeMd, hs, ht]
  constructor
  · intro h
    have hsummary : knowledgeSummary R s godNodes = knowledgeSummary R t godNodes' :=
      KnowledgeSummary.render_injective hlabels hlabels' (Except.ok.inj h)
    exact ⟨congrArg KnowledgeSummary.version hsummary, congrArg KnowledgeSummary.nodes hsummary,
      congrArg KnowledgeSummary.edges hsummary, congrArg KnowledgeSummary.godNodes hsummary,
      hsizes.mp (congrArg KnowledgeSummary.sizes hsummary)⟩
  · rintro ⟨hversion, hnodes, hedges, rfl, hcommunities⟩
    have hsame := hsizes.mpr hcommunities
    have hcount : s.communityMap.keys.length = t.communityMap.keys.length := by
      have hlength := congrArg List.length hsame
      simpa [sortedSizes, OrderedDict.sortedItems_perm _ |>.length_eq, OrderedDict.mapValues, OrderedDict.keys]
        using hlength
    exact congrArg (fun k : KnowledgeSummary => Except.ok k.render)
      (by simp only [knowledgeSummary, hversion, hnodes, hedges, hcount, hsame])

/-- The communities of `linkedNotes` stored the other way round read the same; other sizes do not. -/
theorem knowledge_md_faithful_linkedNotes :
    let snapshot := fun communityMap => (⟨linkedNotes, (), communityMap, 1⟩ : GraphSnapshot PlainGraph Unit)
    let rest : CommunityMap := OrderedDict.empty.set 1 ["beta"]
    generateKnowledgeMd plainReader (snapshot ((OrderedDict.empty.set 0 ["alpha"]).set 1 ["beta"])) =
        generateKnowledgeMd plainReader (snapshot (rest.set 0 ["alpha"])) ∧
      generateKnowledgeMd plainReader (snapshot rest) ≠ generateKnowledgeMd plainReader (snapshot (rest.set 1 [])) := by
  have hlabels : ∀ node ∈ [GodNode.mk "alpha" 3, GodNode.mk "beta" 1], '\n' ∉ node.label.toList := by decide
  have hgods : plainReader.godNodes linkedNotes 10 = .ok [⟨"alpha", 3⟩, ⟨"beta", 1⟩] := rfl
  refine ⟨(knowledge_md_faithful hgods hgods hlabels hlabels).mpr ⟨rfl, rfl, rfl, rfl, fun cid => ?_⟩, fun h => ?_⟩
  · by_cases hzero : 0 = cid <;> by_cases hone : 1 = cid <;> simp [OrderedDict.get_set, hzero, hone]
  · obtain ⟨-, -, -, -, hsizes⟩ := (knowledge_md_faithful hgods hgods hlabels hlabels).mp h
    exact absurd (hsizes 1) (by decide)

end GraphifyDaemon
