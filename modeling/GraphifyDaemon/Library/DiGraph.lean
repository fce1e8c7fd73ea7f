import Mathlib.Data.List.Perm.Basic
import Mathlib.Data.List.Count
import Mathlib.Algebra.BigOperators.Group.List.Basic
import Mathlib.Algebra.GroupWithZero.Nat
import GraphifyDaemon.Library.OrderedDict

/-! Directed graphs without parallel edges, in insertion order, and how the degrees of their
nodes count their edges. -/
namespace Library

/-- Nodes and edges with their attributes. An edge has its ends among the nodes. -/
structure DiGraph (ι α β : Type) where
  nodes : OrderedDict ι α
  edges : OrderedDict (ι × ι) β
  ends : ∀ e ∈ edges.keys, e.1 ∈ nodes.keys ∧ e.2 ∈ nodes.keys

/-- Summed over distinct values, how often each is taken counts everything that takes one. -/
theorem sum_countP_eq_length {α β : Type} [DecidableEq β] {values : List β} (hdistinct : values.Nodup)
    {xs : List α} {f : α → β} (h : ∀ x ∈ xs, f x ∈ values) :
    (values.map fun v => xs.countP fun x => f x = v).sum = xs.length := by
  induction xs with
  | nil => simp
  | cons x rest ih =>
    obtain ⟨hx, hrest⟩ := List.forall_mem_cons.mp h
    have hone : (values.map fun v => if f x = v then 1 else 0).sum = 1 := by
      calc (values.map fun v => if f x = v then 1 else 0).sum
          = values.count (f x) * (if f x = f x then 1 else 0) :=
            List.sum_map_eq_nsmul_single (f x) _ fun v hv _ => if_neg (Ne.symm hv)
        _ = 1 := by rw [List.count_eq_one_of_mem hdistinct hx, if_pos rfl]
    calc (values.map fun v => (x :: rest).countP fun x => f x = v).sum
        = (values.map fun v => (rest.countP fun x => f x = v) + if f x = v then 1 else 0).sum := by
          simp only [List.countP_cons, decide_eq_true_eq]
      _ = rest.length + 1 := by rw [List.sum_map_add, ih hrest, hone]

namespace DiGraph
variable {ι α β : Type} [DecidableEq ι] (g : DiGraph ι α β)

/-- A graph without nodes. -/
def empty : DiGraph ι α β := ⟨.empty, .empty, by simp [OrderedDict.keys, OrderedDict.empty]⟩

/-- Overwrite the attributes of a node in place, or add it. -/
def addNode (n : ι) (a : α) : DiGraph ι α β where
  nodes := g.nodes.set n a
  edges := g.edges
  ends e he := by
    obtain ⟨hsource, htarget⟩ := g.ends e he
    exact ⟨OrderedDict.mem_keys_set_iff.mpr (.inr hsource), OrderedDict.mem_keys_set_iff.mpr (.inr htarget)⟩

/-- Overwrite the attributes of an edge between nodes of the graph in place, or add it. -/
def addEdge (source target : ι) (b : β) (h : source ∈ g.nodes.keys ∧ target ∈ g.nodes.keys) : DiGraph ι α β where
  nodes := g.nodes
  edges := g.edges.set (source, target) b
  ends e he := by
    rcases OrderedDict.mem_keys_set_iff.mp he with rfl | hold
    · exact h
    · exact g.ends e hold

/-- The ends of the edges out of a node, as they were inserted. -/
def successors (n : ι) : List ι := (g.edges.keys.filter fun e => e.1 = n).map Prod.snd

def predecessors (n : ι) : List ι := (g.edges.keys.filter fun e => e.2 = n).map Prod.fst

/-- Edges out and edges in; a loop is one of each. -/
def degree (n : ι) : Nat := (g.successors n).length + (g.predecessors n).length

/-- The edges node by node, as a reader of the graph goes through them. -/
def adjacency : List ((ι × ι) × β) := g.nodes.keys.flatMap fun n => g.edges.items.filter fun e => e.1.1 = n

/-- Half the sum of the degrees. -/
def size : Nat := (g.nodes.keys.map g.degree).sum / 2

variable {g}

theorem mem_successors {n m : ι} : m ∈ g.successors n ↔ (n, m) ∈ g.edges.keys := by
  simp only [successors, List.mem_map, List.mem_filter, decide_eq_true_eq, Prod.exists]
  constructor
  · rintro ⟨_, _, ⟨hedge, rfl⟩, rfl⟩
    exact hedge
  · intro hedge
    exact ⟨n, m, ⟨hedge, rfl⟩, rfl⟩

theorem mem_predecessors {n m : ι} : m ∈ g.predecessors n ↔ (m, n) ∈ g.edges.keys := by
  simp only [predecessors, List.mem_map, List.mem_filter, decide_eq_true_eq, Prod.exists]
  constructor
  · rintro ⟨_, _, ⟨hedge, rfl⟩, rfl⟩
    exact hedge
  · intro hedge
    exact ⟨m, n, ⟨hedge, rfl⟩, rfl⟩

/-- What a node leads to is what has it as a predecessor. -/
theorem mem_successors_iff {n m : ι} : m ∈ g.successors n ↔ n ∈ g.predecessors m :=
  mem_successors.trans mem_predecessors.symm

theorem nodup_successors (n : ι) : (g.successors n).Nodup := by
  apply List.Nodup.map_on _ (g.edges.nodup.filter _)
  rintro ⟨a, b⟩ ha ⟨a', b'⟩ ha' hb
  simp only [List.mem_filter, decide_eq_true_eq] at ha ha'
  rw [Prod.mk.injEq]
  exact ⟨ha.2.trans ha'.2.symm, hb⟩

theorem nodup_predecessors (n : ι) : (g.predecessors n).Nodup := by
  apply List.Nodup.map_on _ (g.edges.nodup.filter _)
  rintro ⟨a, b⟩ ha ⟨a', b'⟩ ha' hb
  simp only [List.mem_filter, decide_eq_true_eq] at ha ha'
  rw [Prod.mk.injEq]
  exact ⟨hb, ha.2.trans ha'.2.symm⟩

omit [DecidableEq ι] in
theorem length_keys : g.edges.keys.length = g.edges.items.length := List.length_map _

/-- Every edge is once an edge out and once an edge in. -/
theorem sum_degree : (g.nodes.keys.map g.degree).sum = 2 * g.edges.items.length := by
  have hdistinct : g.nodes.keys.Nodup := g.nodes.nodup
  have hout : (g.nodes.keys.map fun n => (g.successors n).length).sum = g.edges.keys.length := by
    simp only [successors, List.length_map, ← List.countP_eq_length_filter]
    exact sum_countP_eq_length hdistinct fun e he => (g.ends e he).1
  have hin : (g.nodes.keys.map fun n => (g.predecessors n).length).sum = g.edges.keys.length := by
    simp only [predecessors, List.length_map, ← List.countP_eq_length_filter]
    exact sum_countP_eq_length hdistinct fun e he => (g.ends e he).2
  calc (g.nodes.keys.map g.degree).sum
      = (g.nodes.keys.map fun n => (g.successors n).length).sum +
          (g.nodes.keys.map fun n => (g.predecessors n).length).sum := List.sum_map_add
    _ = 2 * g.edges.items.length := by
      rw [hout, hin, length_keys]
      omega

theorem size_eq : g.size = g.edges.items.length := by
  rw [size, sum_degree]
  omega

/-- Going through the graph node by node meets every edge once. -/
theorem adjacency_length : g.adjacency.length = g.edges.items.length := by
  rw [adjacency, List.length_flatMap]
  simp only [← List.countP_eq_length_filter]
  apply sum_countP_eq_length g.nodes.nodup
  intro e he
  exact (g.ends e.1 (List.mem_map.mpr ⟨e, he, rfl⟩)).1

end DiGraph
end Library
