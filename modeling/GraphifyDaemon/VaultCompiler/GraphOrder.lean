import GraphifyDaemon.Library.LastWriter
import GraphifyDaemon.ArtifactLifecycle.ResultShape
import GraphifyDaemon.VaultCompiler.ReferenceGraph

/-! What the order of the cache's entries does to the graph. The order tells of the cache's
history: an update keeps an entry's place, a deletion and re-creation puts it last, and a cold
start inserts in the order of its walk. -/
namespace GraphifyDaemon
open Library Library.LastWriter

variable {ν γ τ : Type}

/-- A graph as its readers see it: nodes and edges, with their attributes by name. -/
structure GraphContents (ν γ : Type) where
  hasNode : γ → String → Prop
  nodeAttribute : γ → String × String → Option (Json ν)
  hasEdge : γ → String × String → Prop
  edgeAttribute : γ → (String × String) × String → Option (Json ν)

structure GraphContents.Same (C : GraphContents ν γ) (graph other : γ) : Prop where
  hasNode : ∀ id, C.hasNode graph id ↔ C.hasNode other id
  nodeAttribute : ∀ slot, C.nodeAttribute graph slot = C.nodeAttribute other slot
  hasEdge : ∀ ends, C.hasEdge graph ends ↔ C.hasEdge other ends
  edgeAttribute : ∀ slot, C.edgeAttribute graph slot = C.edgeAttribute other slot

/-- The attributes that a listed node gives the node with its id. -/
def nodeWrites (node : Json ν) : List ((String × String) × Json ν) :=
  match node, nodeId node with
  | .obj members, some id => members.map fun m => ((id, m.1), m.2)
  | _, _ => []

def edgeWrites (edge : Json ν) : List (((String × String) × String) × Json ν) :=
  match edge, edgeEnds edge with
  | .obj members, some ends => members.map fun m => ((ends, m.1), m.2)
  | _, _ => []

/-- The documented `build_from_json`: nodes and edges are inserted as they are listed, an edge
brings its ends along, and a later occurrence overwrites attributes of an earlier one. Whether
it completes does not depend on the order. -/
structure GraphContents.InsertsInListOrder (C : GraphContents ν γ) (G : Graphify ν γ τ) : Prop where
  hasNode : ∀ nodes edges graph, G.buildFromJson nodes edges = .ok graph → ∀ id,
    C.hasNode graph id ↔ (∃ node ∈ nodes, nodeId node = some id) ∨
      ∃ edge ∈ edges, ∃ ends, edgeEnds edge = some ends ∧ (ends.1 = id ∨ ends.2 = id)
  nodeAttribute : ∀ nodes edges graph, G.buildFromJson nodes edges = .ok graph → ∀ slot,
    C.nodeAttribute graph slot = lastWrite slot (nodes.flatMap nodeWrites)
  hasEdge : ∀ nodes edges graph, G.buildFromJson nodes edges = .ok graph → ∀ ends,
    C.hasEdge graph ends ↔ ∃ edge ∈ edges, edgeEnds edge = some ends
  edgeAttribute : ∀ nodes edges graph, G.buildFromJson nodes edges = .ok graph → ∀ slot,
    C.edgeAttribute graph slot = lastWrite slot (edges.flatMap edgeWrites)
  anyOrder : ∀ nodes edges graph, G.buildFromJson nodes edges = .ok graph → ∀ nodes' edges', nodes.Perm nodes' →
    edges.Perm edges' → ∃ graph', G.buildFromJson nodes' edges' = .ok graph'

/-- The items that a value of `nodes` or `edges` goes through. -/
def itemsOf (items : Json ν) : List (Json ν) :=
  match items.iterate with
  | .ok xs => xs
  | .error _ => []

/-- The nodes, or the edges, that a result lists. -/
def listedItems (key : String) (result : PyDict ν) : List (Json ν) := itemsOf (Json.getList key result)

private theorem listedItems_of_iterable {key : String} (hkey : key ∈ ["nodes", "edges"]) {result : PyDict ν}
    (h : Iterable result) :
    (Json.getList key result).iterate = .ok (listedItems key result) := by
  have hlist : ∃ items, (Json.getList key result).iterate = .ok items := by
    unfold Json.getList
    cases hl : Json.lookup key result with
    | none => exact ⟨[], rfl⟩
    | some items => exact h key hkey items hl
  obtain ⟨items, hitems⟩ := hlist
  rw [listedItems, itemsOf, hitems]

private theorem iterable_of_getList {result : PyDict ν}
    (h : ∀ key ∈ ["nodes", "edges"], ∃ items, (Json.getList key result).iterate = .ok items) : Iterable result := by
  intro key hkey items hitems
  obtain ⟨xs, hxs⟩ := h key hkey
  exact ⟨xs, by rwa [Json.getList, hitems] at hxs⟩

private theorem extendWith_eq_ok {merged merged' : List (Json ν) × List (Json ν)} {result : PyDict ν} :
    extendWith merged result = .ok merged' ↔
      Iterable result ∧ merged' = (merged.1 ++ listedItems "nodes" result, merged.2 ++ listedItems "edges" result) := by
  constructor
  · intro h
    have hiterable : Iterable result := by
      refine iterable_of_getList fun key hkey => ?_
      unfold extendWith at h
      split at h
      · cases h
      · rename_i nodes hnodes
        split at h
        · cases h
        · rename_i edges hedges
          rcases List.mem_cons.mp hkey with rfl | hkey
          · exact ⟨nodes, hnodes⟩
          · obtain rfl := List.mem_singleton.mp hkey
            exact ⟨edges, hedges⟩
    refine ⟨hiterable, ?_⟩
    unfold extendWith at h
    rw [listedItems_of_iterable (by simp) hiterable, listedItems_of_iterable (by simp) hiterable] at h
    exact (Except.ok.inj h).symm
  · rintro ⟨hiterable, rfl⟩
    unfold extendWith
    rw [listedItems_of_iterable (by simp) hiterable, listedItems_of_iterable (by simp) hiterable]

theorem foldlM_extendWith_eq_ok {results : List (PyDict ν)} {merged merged' : List (Json ν) × List (Json ν)} :
    results.foldlM extendWith merged = .ok merged' ↔ (∀ result ∈ results, Iterable result) ∧
      merged' = (merged.1 ++ results.flatMap (listedItems "nodes"), merged.2 ++ results.flatMap (listedItems "edges")) := by
  induction results generalizing merged with
  | nil => simp [pure, Except.pure, eq_comm]
  | cons result rest ih =>
    rw [List.foldlM_cons, List.forall_mem_cons]
    constructor
    · intro h
      obtain ⟨mid, hstep, hrest⟩ := bind_eq_ok.mp h
      obtain ⟨hiterable, rfl⟩ := extendWith_eq_ok.mp hstep
      obtain ⟨hall, rfl⟩ := ih.mp hrest
      exact ⟨⟨hiterable, hall⟩, by simp [List.append_assoc]⟩
    · rintro ⟨⟨hiterable, hall⟩, rfl⟩
      refine bind_eq_ok.mpr ⟨_, extendWith_eq_ok.mpr ⟨hiterable, rfl⟩, ih.mpr ⟨hall, ?_⟩⟩
      simp [List.append_assoc]

/-- The graph is built from all that the results list, in their order. -/
theorem buildGraph_eq_ok {G : Graphify ν γ τ} {cache : ExtractionCache ν} {graph : γ} :
    buildGraph G cache = .ok graph ↔ (∀ result ∈ cache.entries.values, Iterable result) ∧
      G.buildFromJson (cache.entries.values.flatMap (listedItems "nodes"))
        (cache.entries.values.flatMap (listedItems "edges")) = .ok graph := by
  unfold buildGraph
  constructor
  · intro h
    split at h
    · cases h
    · rename_i merged hmerged
      obtain ⟨hall, rfl⟩ := foldlM_extendWith_eq_ok.mp hmerged
      exact ⟨hall, by simpa using h⟩
  · rintro ⟨hall, hgraph⟩
    rw [foldlM_extendWith_eq_ok.mpr ⟨hall, rfl⟩]
    simpa using hgraph

/-- Two caches map the same paths to the same results. -/
def ExtractionCache.SameEntries (cache cache' : ExtractionCache ν) : Prop := ∀ p, cache.get p = cache'.get p

/-- The attributes that a result gives its nodes, and those that it gives its edges. -/
def resultNodeWrites (result : PyDict ν) : List ((String × String) × Json ν) :=
  (listedItems "nodes" result).flatMap nodeWrites

def resultEdgeWrites (result : PyDict ν) : List (((String × String) × String) × Json ν) :=
  (listedItems "edges" result).flatMap edgeWrites

/-- No two cached files give different values to one attribute of one node or edge. -/
def NoConflict (cache : ExtractionCache ν) : Prop :=
  ∀ p q r s, cache.get p = some r → cache.get q = some s → Agree resultNodeWrites r s ∧ Agree resultEdgeWrites r s

section Order
variable {G : Graphify ν γ τ} {C : GraphContents ν γ} (hC : C.InsertsInListOrder G) {cache : ExtractionCache ν} {graph : γ}
include hC

private theorem nodeAttribute_buildGraph (h : buildGraph G cache = .ok graph) (slot : String × String) :
    C.nodeAttribute graph slot = lastWrite slot (cache.entries.values.flatMap resultNodeWrites) := by
  rw [hC.nodeAttribute _ _ graph (buildGraph_eq_ok.mp h).2, List.flatMap_assoc]
  rfl

private theorem edgeAttribute_buildGraph (h : buildGraph G cache = .ok graph) (slot : (String × String) × String) :
    C.edgeAttribute graph slot = lastWrite slot (cache.entries.values.flatMap resultEdgeWrites) := by
  rw [hC.edgeAttribute _ _ graph (buildGraph_eq_ok.mp h).2, List.flatMap_assoc]
  rfl

/-- The order of results that agree makes no difference to the graph. -/
theorem same_of_noConflict (h : buildGraph G cache = .ok graph) (hagree : NoConflict cache) {cache' : ExtractionCache ν}
    (hsame : cache.SameEntries cache') : ∃ graph', buildGraph G cache' = .ok graph' ∧ C.Same graph graph' := by
  have hperm : cache.entries.values.Perm cache'.entries.values := OrderedDict.values_perm hsame
  obtain ⟨hall, hgraph⟩ := buildGraph_eq_ok.mp h
  have hnodes : (cache.entries.values.flatMap (listedItems "nodes")).Perm
      (cache'.entries.values.flatMap (listedItems "nodes")) :=
    hperm.flatMap_right _
  have hedges : (cache.entries.values.flatMap (listedItems "edges")).Perm
      (cache'.entries.values.flatMap (listedItems "edges")) :=
    hperm.flatMap_right _
  obtain ⟨graph', hgraph'⟩ := hC.anyOrder _ _ graph hgraph _ _ hnodes hedges
  have hbuilt : buildGraph G cache' = .ok graph' :=
    buildGraph_eq_ok.mpr ⟨fun result hresult => hall result (hperm.mem_iff.mpr hresult), hgraph'⟩
  have hresults : ∀ r ∈ cache.entries.values, ∀ s ∈ cache.entries.values,
      Agree resultNodeWrites r s ∧ Agree resultEdgeWrites r s := by
    intro r hr s hs
    obtain ⟨p, hp⟩ := (OrderedDict.mem_values_iff _ _).mp hr
    obtain ⟨q, hq⟩ := (OrderedDict.mem_values_iff _ _).mp hs
    exact hagree p q r s hp hq
  refine ⟨graph', hbuilt, ⟨fun id => ?_, fun slot => ?_, fun ends => ?_, fun slot => ?_⟩⟩
  · rw [hC.hasNode _ _ graph hgraph, hC.hasNode _ _ graph' hgraph']
    simp only [hnodes.mem_iff, hedges.mem_iff]
  · rw [nodeAttribute_buildGraph hC h, nodeAttribute_buildGraph hC hbuilt]
    exact lastWrite_perm (fun r hr s hs => (hresults r hr s hs).1) hperm slot
  · rw [hC.hasEdge _ _ graph hgraph, hC.hasEdge _ _ graph' hgraph']
    simp only [hedges.mem_iff]
  · rw [edgeAttribute_buildGraph hC h, edgeAttribute_buildGraph hC hbuilt]
    exact lastWrite_perm (fun r hr s hs => (hresults r hr s hs).2) hperm slot

end Order

/-- A file is deleted and created again. -/
def ExtractionCache.recreate (cache : ExtractionCache ν) (p : VaultPath) (result : PyDict ν) : ExtractionCache ν :=
  (cache.delete p).set p result none

private theorem sameEntries_recreate {cache : ExtractionCache ν} {p : VaultPath} {result : PyDict ν}
    (h : cache.get p = some result) : cache.SameEntries (cache.recreate p result) := by
  intro q
  rw [ExtractionCache.recreate, ExtractionCache.get_set, ExtractionCache.get_delete]
  split_ifs with hq
  · rw [← hq, h]
  · rfl

/-- Every cache with these entries gives the same graph if and only if no two of the files
conflict. -/
theorem graph_order_free_iff {G : Graphify ν γ τ} {C : GraphContents ν γ} (hC : C.InsertsInListOrder G)
    {cache : ExtractionCache ν} {graph : γ} (h : buildGraph G cache = .ok graph) :
    (∀ cache', cache.SameEntries cache' → ∃ graph', buildGraph G cache' = .ok graph' ∧ C.Same graph graph') ↔
      NoConflict cache := by
  refine ⟨fun hfree p q r s hp hq => ?_, fun hagree cache' hsame => same_of_noConflict hC h hagree hsame⟩
  obtain ⟨graph₁, hbuilt₁, hsame₁⟩ := hfree _ (sameEntries_recreate hp)
  obtain ⟨graph₂, hbuilt₂, hsame₂⟩ := hfree _ (sameEntries_recreate hq)
  have hlast : ∀ (p : VaultPath) (r : PyDict ν),
      (cache.recreate p r).entries.values = (cache.delete p).entries.values ++ [r] :=
    fun p r => OrderedDict.values_set_erase cache.entries p r
  constructor
  · intro slot v w hv hw
    have hfirst : C.nodeAttribute graph₁ slot = some v := by
      rw [nodeAttribute_buildGraph hC hbuilt₁, hlast]
      exact lastWrite_last hv
    have hsecond : C.nodeAttribute graph₂ slot = some w := by
      rw [nodeAttribute_buildGraph hC hbuilt₂, hlast]
      exact lastWrite_last hw
    have hequal : some v = some w := by
      rw [← hfirst, ← hsame₁.nodeAttribute, hsame₂.nodeAttribute, hsecond]
    exact Option.some.inj hequal
  · intro slot v w hv hw
    have hfirst : C.edgeAttribute graph₁ slot = some v := by
      rw [edgeAttribute_buildGraph hC hbuilt₁, hlast]
      exact lastWrite_last hv
    have hsecond : C.edgeAttribute graph₂ slot = some w := by
      rw [edgeAttribute_buildGraph hC hbuilt₂, hlast]
      exact lastWrite_last hw
    have hequal : some v = some w := by
      rw [← hfirst, ← hsame₁.edgeAttribute, hsame₂.edgeAttribute, hsecond]
    exact Option.some.inj hequal

/-- A graph library that keeps attributes in dictionaries. -/
structure AttributedGraph where
  nodeIds : List String
  nodeAttributes : OrderedDict (String × String) (Json Nat)
  edges : List (String × String)
  edgeAttributes : OrderedDict ((String × String) × String) (Json Nat)
  deriving DecidableEq

/-- The writes of a list, each overwriting the one before. -/
def writeAll {κ : Type} [DecidableEq κ] (writes : List (κ × Json ν)) : OrderedDict κ (Json ν) :=
  writes.foldl (fun d write => d.set write.1 write.2) .empty

private theorem get_writeAll {κ : Type} [DecidableEq κ] (writes : List (κ × Json ν)) (slot : κ) :
    (writeAll writes).get slot = lastWrite slot writes := by
  have hfold : ∀ d : OrderedDict κ (Json ν), (writes.foldl (fun d write => d.set write.1 write.2) d).get slot =
      (lastWrite slot writes).or (d.get slot) := by
    induction writes with
    | nil => exact fun d => rfl
    | cons write rest ih =>
      intro d
      rw [List.foldl_cons, ih, OrderedDict.get_set, lastWrite]
      cases lastWrite slot rest with
      | some w => rfl
      | none =>
        dsimp only
        split_ifs
        · rfl
        · rfl
  rw [writeAll, hfold, OrderedDict.get_empty, Option.or_none]

def attributedGraphify : Graphify Nat AttributedGraph Unit where
  buildFromJson nodes edges := .ok
    { nodeIds := nodes.filterMap nodeId ++ (edges.filterMap edgeEnds).flatMap fun ends => [ends.1, ends.2]
      nodeAttributes := writeAll (nodes.flatMap nodeWrites)
      edges := edges.filterMap edgeEnds
      edgeAttributes := writeAll (edges.flatMap edgeWrites) }
  getTrigramIndex _ := .ok ()
  nodes graph id := if id ∈ graph.nodeIds then
      some ⟨textOf (graph.nodeAttributes.get (id, "label")), textOf (graph.nodeAttributes.get (id, "source_file")),
        textOf (graph.nodeAttributes.get (id, "community_name"))⟩
    else none
  remapCommunitiesToPrevious raw _ := raw
  sanitizeLabel := id

def attributedContents : GraphContents Nat AttributedGraph where
  hasNode graph id := id ∈ graph.nodeIds
  nodeAttribute graph slot := graph.nodeAttributes.get slot
  hasEdge graph ends := ends ∈ graph.edges
  edgeAttribute graph slot := graph.edgeAttributes.get slot

private theorem attributedContents_insertsInListOrder : attributedContents.InsertsInListOrder attributedGraphify where
  hasNode nodes edges graph h id := by
    cases h
    simp only [attributedContents, List.mem_append, List.mem_filterMap, List.mem_flatMap]
    refine or_congr Iff.rfl ⟨?_, ?_⟩
    · rintro ⟨ends, ⟨edge, hedge, hends⟩, hid⟩
      exact ⟨edge, hedge, ends, hends, by simpa [eq_comm] using hid⟩
    · rintro ⟨edge, hedge, ends, hends, hid⟩
      exact ⟨ends, ⟨edge, hedge, hends⟩, by simpa [eq_comm] using hid⟩
  nodeAttribute nodes edges graph h slot := by
    cases h
    exact get_writeAll _ slot
  hasEdge nodes edges graph h ends := by
    cases h
    simp [attributedContents]
  edgeAttribute nodes edges graph h slot := by
    cases h
    exact get_writeAll _ slot
  anyOrder _ _ _ _ _ _ _ _ := ⟨_, rfl⟩

/-- What the extraction of this file gives when it lists one node. -/
def attributedNode (id : String) (p : VaultPath) : PyDict Nat :=
  [("nodes", .arr [.obj [("id", .str id), ("source_file", .str p.str)]]), ("edges", .arr [])]

/-- Two notes, in the order of a first cold start. -/
def twoNotes (first second : String) : ExtractionCache Nat :=
  (ExtractionCache.empty.set notePath (attributedNode first notePath) none).set otherPath
    (attributedNode second otherPath) none

theorem graph_order_free_iff_twoNotes :
    ∃ graph, buildGraph attributedGraphify (twoNotes "a" "b") = .ok graph ∧
      ((∀ cache', (twoNotes "a" "b").SameEntries cache' →
          ∃ graph', buildGraph attributedGraphify cache' = .ok graph' ∧ attributedContents.Same graph graph') ↔
        NoConflict (twoNotes "a" "b")) :=
  ⟨_, rfl, graph_order_free_iff attributedContents_insertsInListOrder rfl⟩

/-- Both notes list a node `a`. The note that was deleted and created again by the live daemon has
the say, and after a restart the other one has. -/
theorem recreated_note_changes_graph :
    (twoNotes "a" "a").SameEntries ((twoNotes "a" "a").recreate notePath (attributedNode "a" notePath)) ∧
      ∃ graph graph', buildGraph attributedGraphify (twoNotes "a" "a") = .ok graph ∧
        buildGraph attributedGraphify ((twoNotes "a" "a").recreate notePath (attributedNode "a" notePath)) = .ok graph' ∧
        attributedContents.nodeAttribute graph ("a", "source_file") = some (.str "other.md") ∧
        attributedContents.nodeAttribute graph' ("a", "source_file") = some (.str "note.md") ∧
        ¬ attributedContents.Same graph graph' := by
  refine ⟨sameEntries_recreate rfl, _, _, rfl, rfl, by decide, by decide, fun hsame => ?_⟩
  exact absurd (hsame.nodeAttribute ("a", "source_file")) (by decide)

end GraphifyDaemon
