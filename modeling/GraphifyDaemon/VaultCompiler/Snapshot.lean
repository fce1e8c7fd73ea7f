import GraphifyDaemon.VaultCompiler.Extraction

/-! Graphs built from the cache, and the snapshots that publish them. -/
namespace GraphifyDaemon
open Library

/-- `dict[int, list[str]]`: the members of each community. -/
abbrev CommunityMap := OrderedDict Int (List String)

/-- The attributes of a graph node that the tools read. -/
structure NodeAttributes where
  label : Option String
  sourceFile : Option String
  communityName : Option String
  deriving DecidableEq

/-- What the daemon uses of graphify: its graphs `γ`, its trigram indexes `τ`, and its
functions on them. What `build_from_json` writes to the items it is given is left to
`Provenance`. -/
structure Graphify (ν γ τ : Type) where
  buildFromJson : List (Json ν) → List (Json ν) → Except PyError γ
  getTrigramIndex : γ → Except PyError τ
  nodes : γ → String → Option NodeAttributes
  remapCommunitiesToPrevious : CommunityMap → OrderedDict String Int → CommunityMap
  sanitizeLabel : String → String

/-- Graph, index and community map, published together. -/
structure GraphSnapshot (γ τ : Type) where
  graph : γ
  trigramIndex : τ
  communityMap : CommunityMap
  version : Nat
  deriving DecidableEq

variable {ν γ τ : Type}

def textOf : Option (Json ν) → Option String
  | some (.str s) => some s
  | _ => none

/-- The id of a node, for a dictionary that has one. -/
def nodeId : Json ν → Option String
  | .obj members => textOf (Json.lookup "id" members)
  | _ => none

/-- An extraction result has this node. -/
def Lists (result : PyDict ν) (node : Json ν) : Prop :=
  ∃ nodes, (Json.getList "nodes" result).iterate = .ok nodes ∧ node ∈ nodes

/-- `build_from_json` keeps a listed id unless it takes one of its nodes for a node with another id. -/
def Graphify.KeepsUnlike (G : Graphify ν γ τ) (twins : Json ν → Json ν → Prop) : Prop :=
  ∀ nodes edges graph, G.buildFromJson nodes edges = .ok graph → ∀ node ∈ nodes, ∀ id, nodeId node = some id →
    (∀ like ∈ nodes, nodeId like = some id → ∀ other ∈ nodes, nodeId other ≠ some id → ¬ twins like other) →
      (G.nodes graph id).isSome

def CommunityMap.memberIds (m : CommunityMap) : List String := m.values.flatten

/-- The remapping returns only nodes of the communities it is given. -/
def Graphify.RemapsWithin (G : Graphify ν γ τ) : Prop :=
  ∀ raw previous, ∀ n ∈ (G.remapCommunitiesToPrevious raw previous).memberIds, n ∈ raw.memberIds

/-- `nodes.extend(result.get("nodes", [])); edges.extend(result.get("edges", []))` -/
def extendWith (merged : List (Json ν) × List (Json ν)) (result : PyDict ν) :
    Except PyError (List (Json ν) × List (Json ν)) :=
  match (Json.getList "nodes" result).iterate with
  | .error e => .error e
  | .ok nodes => match (Json.getList "edges" result).iterate with
    | .error e => .error e
    | .ok edges => .ok (merged.1 ++ nodes, merged.2 ++ edges)

/-- `build_graph`: always from the whole cache. -/
def buildGraph (G : Graphify ν γ τ) (cache : ExtractionCache ν) : Except PyError γ :=
  match cache.entries.values.foldlM extendWith ([], []) with
  | .error e => .error e
  | .ok merged => G.buildFromJson merged.1 merged.2

private theorem mem_extendWith {merged merged' : List (Json ν) × List (Json ν)} {result : PyDict ν}
    (h : extendWith merged result = .ok merged') {node : Json ν} :
    node ∈ merged'.1 ↔ node ∈ merged.1 ∨ Lists result node := by
  unfold extendWith at h
  split at h
  · cases h
  · rename_i nodes hnodes
    split at h
    · cases h
    · cases h
      simp [Lists, hnodes]

private theorem mem_foldlM_extendWith {results : List (PyDict ν)} {merged merged' : List (Json ν) × List (Json ν)}
    (h : results.foldlM extendWith merged = .ok merged') {node : Json ν} :
    node ∈ merged'.1 ↔ node ∈ merged.1 ∨ ∃ result ∈ results, Lists result node := by
  induction results generalizing merged with
  | nil =>
    cases h
    simp
  | cons result rest ih =>
    rw [List.foldlM_cons] at h
    cases hstep : extendWith merged result with
    | error e =>
      rw [hstep] at h
      cases h
    | ok mid =>
      rw [hstep] at h
      rw [ih h, mem_extendWith hstep, or_assoc, List.exists_mem_cons_iff]

/-- Some cached extraction has this node. -/
def ExtractionCache.Lists (cache : ExtractionCache ν) (node : Json ν) : Prop :=
  ∃ p result, cache.get p = some result ∧ GraphifyDaemon.Lists result node

/-- A cached node of which none of its id is taken for another is in the graph of the cache. -/
theorem buildGraph_keeps {G : Graphify ν γ τ} {twins : Json ν → Json ν → Prop} (hkeeps : G.KeepsUnlike twins)
    {cache : ExtractionCache ν} {graph : γ} (h : buildGraph G cache = .ok graph) {node : Json ν}
    (hlists : cache.Lists node) {id : String} (hid : nodeId node = some id)
    (hunlike : ∀ like other, cache.Lists like → cache.Lists other → nodeId like = some id →
      nodeId other ≠ some id → ¬ twins like other) : (G.nodes graph id).isSome := by
  unfold buildGraph at h
  split at h
  · cases h
  · rename_i merged hmerged
    have hmem : ∀ listed, listed ∈ merged.1 ↔ cache.Lists listed := by
      intro listed
      rw [mem_foldlM_extendWith hmerged]
      simp only [List.not_mem_nil, false_or, OrderedDict.mem_values_iff]
      constructor
      · rintro ⟨result, ⟨p, hget⟩, hlisted⟩
        exact ⟨p, result, hget, hlisted⟩
      · rintro ⟨p, result, hget, hlisted⟩
        exact ⟨result, ⟨p, hget⟩, hlisted⟩
    exact hkeeps _ _ _ h node ((hmem node).mpr hlists) id hid fun like hlike hlikeId other hother hotherId =>
      hunlike like other ((hmem like).mp hlike) ((hmem other).mp hother) hlikeId hotherId

/-- The published snapshot, and the version the next one gets. -/
structure SnapshotHolder (γ τ : Type) where
  current : Option (GraphSnapshot γ τ)
  nextVersion : Nat

def SnapshotHolder.initial : SnapshotHolder γ τ := ⟨none, 1⟩

/-- `SnapshotHolder.publish`: the index is built before the reference is swapped. -/
def SnapshotHolder.publish (G : Graphify ν γ τ) (graph : γ) (communityMap : CommunityMap)
    (holder : SnapshotHolder γ τ) : Outcome PyError (SnapshotHolder γ τ) :=
  match G.getTrigramIndex graph with
  | .error e => .raised e holder
  | .ok index => .done ⟨some ⟨graph, index, communityMap, holder.nextVersion⟩, holder.nextVersion + 1⟩

theorem publish_eq_done {G : Graphify ν γ τ} {graph : γ} {communityMap : CommunityMap}
    {holder holder' : SnapshotHolder γ τ} :
    holder.publish G graph communityMap = .done holder' ↔
      ∃ index, G.getTrigramIndex graph = .ok index ∧
        holder' = ⟨some ⟨graph, index, communityMap, holder.nextVersion⟩, holder.nextVersion + 1⟩ := by
  unfold SnapshotHolder.publish
  cases G.getTrigramIndex graph with
  | error e => simp
  | ok index => simp [eq_comm]

theorem publish_raised {G : Graphify ν γ τ} {graph : γ} {communityMap : CommunityMap}
    {holder holder' : SnapshotHolder γ τ} {e : PyError}
    (h : holder.publish G graph communityMap = .raised e holder') : holder' = holder := by
  unfold SnapshotHolder.publish at h
  split at h
  · cases h
    rfl
  · cases h

end GraphifyDaemon
