import Mathlib.Data.Finset.Filter
import Mathlib.Data.Finset.SDiff
import Mathlib.Data.List.Basic

/-! `compare_graph_jsons`, the diff of two `graph.json` files. It loads both as undirected graphs,
whose edges have the direction of the order in which the nodes are listed. -/
namespace GraphifyDaemon

/-- The directed graph that a `graph.json` describes, as it lists it. -/
structure GraphFile (α : Type) where
  nodes : List α
  edges : List (α × α)
  ends : ∀ e ∈ edges, e.1 ∈ nodes ∧ e.2 ∈ nodes

/-- What the comparator uses of graphify: `build_from_json` without `directed=True`, and the nodes
and edges of its graphs `γ`, in sets. -/
structure UndirectedGraphs (α γ : Type) where
  buildFromJson : GraphFile α → γ
  nodes : γ → Finset α
  edges : γ → Finset (α × α)

structure GraphDiff (α : Type) where
  nodesOnlyInLegacy : Finset α
  nodesOnlyInNew : Finset α
  edgesOnlyInLegacy : Finset (α × α)
  edgesOnlyInNew : Finset (α × α)
  deriving DecidableEq

variable {α γ : Type} [DecidableEq α]

/-- `compare_graph_jsons` -/
def compareGraphJsons (G : UndirectedGraphs α γ) (legacy new : GraphFile α) : GraphDiff α :=
  let legacyGraph := G.buildFromJson legacy
  let newGraph := G.buildFromJson new
  { nodesOnlyInLegacy := G.nodes legacyGraph \ G.nodes newGraph
    nodesOnlyInNew := G.nodes newGraph \ G.nodes legacyGraph
    edgesOnlyInLegacy := G.edges legacyGraph \ G.edges newGraph
    edgesOnlyInNew := G.edges newGraph \ G.edges legacyGraph }

namespace GraphFile

/-- `u` is listed before `v`. -/
def Before (file : GraphFile α) (u v : α) : Prop := file.nodes.idxOf u < file.nodes.idxOf v

instance (file : GraphFile α) (u v : α) : Decidable (file.Before u v) := Nat.decLt _ _

/-- Between these two nodes, edges go from the one listed first only. -/
def OneWay (file : GraphFile α) (u v : α) : Prop :=
  ((u, v) ∈ file.edges → file.Before u v) ∧ ((v, u) ∈ file.edges → file.Before v u)

/-- Both files list the same edges between these two nodes, and the two nodes in one order. -/
def SameWay (file other : GraphFile α) (u v : α) : Prop :=
  ((u, v) ∈ file.edges ↔ (u, v) ∈ other.edges) ∧ ((v, u) ∈ file.edges ↔ (v, u) ∈ other.edges) ∧
    (file.Before u v ↔ other.Before u v)

end GraphFile

/-- The documented graphs: each pair of joined nodes is one edge, which starts from the node that
was inserted first. -/
structure UndirectedGraphs.InsertsInOrder (G : UndirectedGraphs α γ) : Prop where
  nodes : ∀ file v, v ∈ G.nodes (G.buildFromJson file) ↔ v ∈ file.nodes
  edges : ∀ file u v, (u, v) ∈ G.edges (G.buildFromJson file) ↔
    ((u, v) ∈ file.edges ∨ (v, u) ∈ file.edges) ∧ ¬ file.Before v u

/-- A diff that reports what is in one file and not in the other. -/
structure GraphDiff.Exact (diff : GraphDiff α) (legacy new : GraphFile α) : Prop where
  nodesOnlyInLegacy : ∀ v, v ∈ diff.nodesOnlyInLegacy ↔ v ∈ legacy.nodes ∧ v ∉ new.nodes
  nodesOnlyInNew : ∀ v, v ∈ diff.nodesOnlyInNew ↔ v ∈ new.nodes ∧ v ∉ legacy.nodes
  edgesOnlyInLegacy : ∀ e, e ∈ diff.edgesOnlyInLegacy ↔ e ∈ legacy.edges ∧ e ∉ new.edges
  edgesOnlyInNew : ∀ e, e ∈ diff.edgesOnlyInNew ↔ e ∈ new.edges ∧ e ∉ legacy.edges

omit [DecidableEq α] in
/-- The four sets are empty exactly when both files describe one graph. -/
theorem GraphDiff.Exact.empty_iff {diff : GraphDiff α} {legacy new : GraphFile α} (h : diff.Exact legacy new) :
    (diff.nodesOnlyInLegacy = ∅ ∧ diff.nodesOnlyInNew = ∅ ∧ diff.edgesOnlyInLegacy = ∅ ∧ diff.edgesOnlyInNew = ∅) ↔
      (∀ v, v ∈ legacy.nodes ↔ v ∈ new.nodes) ∧ ∀ e, e ∈ legacy.edges ↔ e ∈ new.edges := by
  simp only [Finset.eq_empty_iff_forall_notMem, h.nodesOnlyInLegacy, h.nodesOnlyInNew, h.edgesOnlyInLegacy,
    h.edgesOnlyInNew, not_and, not_not]
  constructor
  · rintro ⟨hlegacy, hnew, hfrom, hto⟩
    exact ⟨fun v => ⟨hlegacy v, hnew v⟩, fun e => ⟨hfrom e, hto e⟩⟩
  · rintro ⟨hnodes, hedges⟩
    exact ⟨fun v => (hnodes v).mp, fun v => (hnodes v).mpr, fun e => (hedges e).mp, fun e => (hedges e).mpr⟩

/-- What both files say about one pair of nodes: `a`, `b` are the legacy file's edges each way,
`c`, `d` the new one's, and `p`, `q` say whether they list the first node first. -/
theorem pair_exact_iff (a b c d p q : Prop) :
    (((((a ∨ b) ∧ p) ∧ ¬ ((c ∨ d) ∧ q)) ↔ (a ∧ ¬ c)) ∧ ((((b ∨ a) ∧ ¬ p) ∧ ¬ ((d ∨ c) ∧ ¬ q)) ↔ (b ∧ ¬ d)) ∧
      ((((c ∨ d) ∧ q) ∧ ¬ ((a ∨ b) ∧ p)) ↔ (c ∧ ¬ a)) ∧ ((((d ∨ c) ∧ ¬ q) ∧ ¬ ((b ∨ a) ∧ ¬ p)) ↔ (d ∧ ¬ b))) ↔
      ((a → p) ∧ (b → ¬ p)) ∧ ((c → q) ∧ (d → ¬ q)) ∨ (a ↔ c) ∧ (b ↔ d) ∧ (p ↔ q) := by
  by_cases ha : a <;> by_cases hb : b <;> by_cases hc : c <;> by_cases hd : d <;> by_cases hp : p <;>
    by_cases hq : q <;> simp [ha, hb, hc, hd, hp, hq]

namespace GraphFile
variable (file : GraphFile α) {u v : α}

def Joins (u v : α) : Prop := (u, v) ∈ file.edges ∨ (v, u) ∈ file.edges

/-- Of two nodes that an edge joins, one is listed first. -/
theorem before_iff (hne : u ≠ v) (h : file.Joins u v) : file.Before v u ↔ ¬ file.Before u v := by
  have hmem : u ∈ file.nodes := h.elim (fun he => (file.ends _ he).1) (fun he => (file.ends _ he).2)
  have hdistinct : file.nodes.idxOf u ≠ file.nodes.idxOf v := fun he => hne ((List.idxOf_inj hmem).mp he)
  unfold Before
  omega

private theorem oneWay_iff (hne : u ≠ v) :
    file.OneWay u v ↔ ((u, v) ∈ file.edges → file.Before u v) ∧ ((v, u) ∈ file.edges → ¬ file.Before u v) := by
  refine and_congr Iff.rfl (imp_congr_right fun he => ?_)
  exact file.before_iff hne (.inr he)

end GraphFile

section Exactness
variable {G : UndirectedGraphs α γ} (hG : G.InsertsInOrder) (file : GraphFile α) {u v : α}
include hG

/-- The graph has an edge from the first of two nodes that the file joins. -/
theorem mem_edges_iff (hne : u ≠ v) :
    ((u, v) ∈ G.edges (G.buildFromJson file) ↔ ((u, v) ∈ file.edges ∨ (v, u) ∈ file.edges) ∧ file.Before u v) ∧
      ((v, u) ∈ G.edges (G.buildFromJson file) ↔ ((v, u) ∈ file.edges ∨ (u, v) ∈ file.edges) ∧ ¬ file.Before u v) := by
  refine ⟨(hG.edges file u v).trans (and_congr_right fun hjoins => ?_), hG.edges file v u⟩
  rw [file.before_iff hne hjoins, not_not]

private theorem mem_edges_self : (u, u) ∈ G.edges (G.buildFromJson file) ↔ (u, u) ∈ file.edges := by
  rw [hG.edges, or_self]
  exact and_iff_left (Nat.lt_irrefl _)

/-- The diff is exact on the edges between two nodes. -/
theorem edges_exact_iff (legacy new : GraphFile α) (hne : u ≠ v) :
    (∀ e, e = (u, v) ∨ e = (v, u) →
      (e ∈ (compareGraphJsons G legacy new).edgesOnlyInLegacy ↔ e ∈ legacy.edges ∧ e ∉ new.edges) ∧
      (e ∈ (compareGraphJsons G legacy new).edgesOnlyInNew ↔ e ∈ new.edges ∧ e ∉ legacy.edges)) ↔
      (legacy.OneWay u v ∧ new.OneWay u v) ∨ legacy.SameWay new u v := by
  obtain ⟨hlegacy, hlegacy'⟩ := mem_edges_iff hG legacy hne
  obtain ⟨hnew, hnew'⟩ := mem_edges_iff hG new hne
  rw [legacy.oneWay_iff hne, new.oneWay_iff hne]
  unfold GraphFile.SameWay
  rw [← pair_exact_iff]
  simp only [compareGraphJsons, Finset.mem_sdiff, forall_eq_or_imp, forall_eq, hlegacy, hlegacy', hnew, hnew']
  constructor
  · rintro ⟨⟨hfrom, hto⟩, hfrom', hto'⟩
    exact ⟨hfrom, hfrom', hto, hto'⟩
  · rintro ⟨hfrom, hfrom', hto, hto'⟩
    exact ⟨⟨hfrom, hto⟩, hfrom', hto'⟩

end Exactness

/-- The diff is exact if and only if, for each two nodes, both files list the edges between them
from the node they list first, or list the same edges between them and the two nodes in one
order. -/
theorem compareGraphJsons_exact_iff {G : UndirectedGraphs α γ} (hG : G.InsertsInOrder) (legacy new : GraphFile α) :
    (compareGraphJsons G legacy new).Exact legacy new ↔
      ∀ u v, u ≠ v → (legacy.OneWay u v ∧ new.OneWay u v) ∨ legacy.SameWay new u v := by
  constructor
  · intro hexact u v hne
    refine (edges_exact_iff hG legacy new hne).mp fun e _ => ?_
    exact ⟨hexact.edgesOnlyInLegacy e, hexact.edgesOnlyInNew e⟩
  · intro hpairs
    have hedges : ∀ e, (e ∈ (compareGraphJsons G legacy new).edgesOnlyInLegacy ↔ e ∈ legacy.edges ∧ e ∉ new.edges) ∧
        (e ∈ (compareGraphJsons G legacy new).edgesOnlyInNew ↔ e ∈ new.edges ∧ e ∉ legacy.edges) := by
      rintro ⟨u, v⟩
      by_cases hne : u = v
      · subst hne
        simp only [compareGraphJsons, Finset.mem_sdiff, mem_edges_self hG, and_self]
      · exact (edges_exact_iff hG legacy new hne).mpr (hpairs u v hne) (u, v) (.inl rfl)
    refine ⟨fun v => ?_, fun v => ?_, fun e => (hedges e).1, fun e => (hedges e).2⟩
    · simp only [compareGraphJsons, Finset.mem_sdiff, hG.nodes]
    · simp only [compareGraphJsons, Finset.mem_sdiff, hG.nodes]

/-- A graph library that keeps the listed nodes and edges, with the direction of the node order. -/
def listedGraphs : UndirectedGraphs α (GraphFile α) where
  buildFromJson file := file
  nodes file := file.nodes.toFinset
  edges file := (file.edges ++ file.edges.map Prod.swap).toFinset.filter fun e => ¬ file.Before e.2 e.1

private theorem listedGraphs_insertsInOrder : (listedGraphs : UndirectedGraphs α (GraphFile α)).InsertsInOrder where
  nodes file v := List.mem_toFinset
  edges file u v := by simp [listedGraphs]

theorem compareGraphJsons_exact_iff_reordered :
    let legacy : GraphFile String := ⟨["a", "b"], [("a", "b")], by decide⟩
    let new : GraphFile String := ⟨["c", "a", "b"], [("a", "b"), ("c", "b")], by decide⟩
    (compareGraphJsons listedGraphs legacy new).Exact legacy new ↔
      ∀ u v, u ≠ v → (legacy.OneWay u v ∧ new.OneWay u v) ∨ legacy.SameWay new u v :=
  compareGraphJsons_exact_iff listedGraphs_insertsInOrder _ _

/-- Two files that list the same graph are said to differ when they list its nodes in another
order, and two that list an edge in opposite directions are said to agree. -/
theorem node_order_changes_diff :
    let listed : GraphFile String := ⟨["a", "b"], [("a", "b")], by decide⟩
    let reordered : GraphFile String := ⟨["b", "a"], [("a", "b")], by decide⟩
    let reversed : GraphFile String := ⟨["a", "b"], [("b", "a")], by decide⟩
    (compareGraphJsons listedGraphs listed reordered).edgesOnlyInLegacy = {("a", "b")} ∧
      (compareGraphJsons listedGraphs listed reversed).edgesOnlyInLegacy = ∅ ∧
      ¬ (compareGraphJsons listedGraphs listed reordered).Exact listed reordered ∧
      ¬ (compareGraphJsons listedGraphs listed reversed).Exact listed reversed := by
  refine ⟨by decide, by decide, fun h => ?_, fun h => ?_⟩
  · exact absurd ((h.edgesOnlyInLegacy ("a", "b")).mp (by decide)) (by decide)
  · exact absurd ((h.edgesOnlyInLegacy ("a", "b")).mpr (by decide)) (by decide)

end GraphifyDaemon
