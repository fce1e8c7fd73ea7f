import GraphifyDaemon.ArtifactLifecycle.BatchMeaning
import GraphifyDaemon.VaultCompiler.Snapshot

/-! The shape of cached results. Whatever extraction accepts has `nodes` and `edges` that
can be looped over, if it has them at all. -/
namespace GraphifyDaemon
open Library

variable {ν γ τ : Type}

/-- The `nodes` and `edges` a result has can be looped over. -/
def Iterable (result : PyDict ν) : Prop :=
  ∀ key ∈ ["nodes", "edges"], ∀ items, Json.lookup key result = some items → ∃ xs, items.iterate = .ok xs

def ExtractionCache.Iterable (cache : ExtractionCache ν) : Prop :=
  ∀ p result, cache.get p = some result → GraphifyDaemon.Iterable result

theorem ExtractionCache.iterable_empty : (empty : ExtractionCache ν).Iterable := by
  intro p result h
  cases h

/-- `sync_batch` can count the result under this key: there is none, or it has the key. -/
def Counted (key : String) : Option (PyDict ν) → Prop
  | none | some [] => True
  | some result => Json.hasKey key result

instance (key : String) : (result : Option (PyDict ν)) → Decidable (Counted key result)
  | none | some [] => isTrue trivial
  | some (member :: rest) => inferInstanceAs (Decidable (Json.hasKey key (member :: rest) = true))

def Countable (result : Option (PyDict ν)) : Prop := Counted "nodes" result ∧ Counted "edges" result

instance (result : Option (PyDict ν)) : Decidable (Countable result) := inferInstanceAs (Decidable (_ ∧ _))

/-- What extraction lets through can be looped over. -/
theorem attributeItems_iterate {relative : String} {items items' : Json ν}
    (h : attributeItems relative items = .ok items') : ∃ xs, items'.iterate = .ok xs := by
  obtain ⟨xs, ys, -, -, rfl⟩ | ⟨hnil, rfl⟩ := attributeItems_cases h
  · exact ⟨ys, rfl⟩
  · exact ⟨[], hnil⟩

private theorem attributeKey_self {key relative : String} {result result' : PyDict ν}
    (h : attributeKey key relative result = .ok result') {items : Json ν}
    (hitems : Json.lookup key result' = some items) : ∃ xs, items.iterate = .ok xs := by
  obtain ⟨hnone, rfl⟩ | ⟨old, new, -, hnew, rfl⟩ := attributeKey_cases h
  · simp [hnone] at hitems
  · simp only [Json.lookup, OrderedDict.lookup_setItem, if_true, Option.some.injEq] at hitems
    exact hitems ▸ attributeItems_iterate hnew

theorem attributeKey_other {key relative other : String} {result result' : PyDict ν}
    (h : attributeKey key relative result = .ok result') (hne : key ≠ other) :
    Json.lookup other result' = Json.lookup other result := by
  obtain ⟨-, rfl⟩ | ⟨old, new, -, -, rfl⟩ := attributeKey_cases h
  · rfl
  · simp [Json.lookup, OrderedDict.lookup_setItem, hne]

private theorem extractFile_iterable {extractor : Except PyError (Json ν)} {p : VaultPath} {result : PyDict ν}
    (h : extractFile extractor p = .ok result) : Iterable result := by
  obtain ⟨raw, mid, -, hnodes, hedges⟩ := extractFile_cases h
  intro key hkey items hitems
  rcases List.mem_cons.mp hkey with rfl | hkey
  · rw [attributeKey_other hedges (by decide)] at hitems
    exact attributeKey_self hnodes hitems
  · obtain rfl := List.mem_singleton.mp hkey
    exact attributeKey_self hedges hitems

theorem accepted_iterable {extractor : Except PyError (Json ν)} {p : VaultPath} {result : PyDict ν}
    (h : extractFileWithFailureIsolation extractor p = some result) : Iterable result :=
  extractFile_iterable (extractFileWithFailureIsolation_eq_some.mp h).1

private theorem extractionOf_iterable {b : FileChange × Observation ν} {result : PyDict ν}
    (h : extractionOf b = some result) : Iterable result :=
  accepted_iterable h

private theorem entryAfter_iterable {nested : List String} {p : VaultPath} {entry : Option (PyDict ν)}
    {b : FileChange × Observation ν} (h : ∀ r, entry = some r → Iterable r) :
    ∀ r, entryAfter nested p entry b = some r → Iterable r := by
  intro r hr
  have hdropped : ∀ r, (if b.1.drops p then none else entry) = some r → Iterable r := by
    intro r hr
    split_ifs at hr
    exact h r hr
  unfold entryAfter at hr
  split_ifs at hr with hdrop hreach hreach
  · exact extractionOf_iterable (by simpa using hr)
  · rcases Option.or_eq_some_iff.mp hr with hnew | ⟨-, hold⟩
    · exact extractionOf_iterable hnew
    · exact h r hold
  · exact h r hr

private theorem finalEntry_iterable {nested : List String} {batch : List (FileChange × Observation ν)} {p : VaultPath}
    {entry : Option (PyDict ν)} (h : ∀ r, entry = some r → Iterable r) :
    ∀ r, finalEntry nested batch p entry = some r → Iterable r := by
  unfold finalEntry
  induction batch generalizing entry with
  | nil => exact h
  | cons b rest ih => exact ih (entryAfter_iterable h)

/-- The cache stays free of results that cannot be looped over. -/
theorem extractBatch_iterable {nested : List String} {batch : List (FileChange × Observation ν)}
    {cache cache' : ExtractionCache ν} (hcache : cache.Iterable)
    (h : extractBatch nested batch cache = .done cache') : cache'.Iterable := by
  intro p r hr
  rw [extractBatch_get h p] at hr
  exact finalEntry_iterable (hcache p) r hr

private theorem extendWith_ok (merged : List (Json ν) × List (Json ν)) {result : PyDict ν} (h : Iterable result) :
    ∃ merged', extendWith merged result = .ok merged' := by
  have hlist : ∀ key ∈ ["nodes", "edges"], ∃ xs, (Json.getList key result).iterate = .ok xs := by
    intro key hkey
    unfold Json.getList
    cases hl : Json.lookup key result with
    | none => exact ⟨[], rfl⟩
    | some items => exact h key hkey items hl
  obtain ⟨nodes, hnodes⟩ := hlist "nodes" (by simp)
  obtain ⟨edges, hedges⟩ := hlist "edges" (by simp)
  exact ⟨(merged.1 ++ nodes, merged.2 ++ edges), by simp [extendWith, hnodes, hedges]⟩

private theorem foldlM_extendWith_ok {results : List (PyDict ν)} (h : ∀ r ∈ results, Iterable r) :
    ∀ merged, ∃ merged', results.foldlM extendWith merged = .ok merged' := by
  induction results with
  | nil => exact fun merged => ⟨merged, rfl⟩
  | cons r rest ih =>
    intro merged
    obtain ⟨mid, hmid⟩ := extendWith_ok merged (h r (by simp))
    obtain ⟨merged', hrest⟩ := ih (fun q hq => h q (by simp [hq])) mid
    refine ⟨merged', ?_⟩
    rw [List.foldlM_cons, hmid]
    exact hrest

/-- The graph build forgives missing keys. -/
theorem buildGraph_ok {G : Graphify ν γ τ} (hbuild : ∀ nodes edges, ∃ graph, G.buildFromJson nodes edges = .ok graph)
    {cache : ExtractionCache ν} (hcache : cache.Iterable) : ∃ graph, buildGraph G cache = .ok graph := by
  have hvalues : ∀ r ∈ cache.entries.values, Iterable r := by
    intro r hr
    obtain ⟨p, hp⟩ := (OrderedDict.mem_values_iff _ _).mp hr
    exact hcache p r hp
  obtain ⟨merged, hmerged⟩ := foldlM_extendWith_ok hvalues ([], [])
  obtain ⟨graph, hgraph⟩ := hbuild merged.1 merged.2
  exact ⟨graph, by simp [buildGraph, hmerged, hgraph]⟩

private theorem len_of_iterate {items : Json ν} {xs : List (Json ν)} (h : items.iterate = .ok xs) :
    ∃ n, items.len = .ok n := by
  cases items with
  | null | bool | num => cases h
  | str | arr | obj => exact ⟨_, rfl⟩

theorem itemCount_ok_iff (key : String) (hkey : key ∈ ["nodes", "edges"]) {result : Option (PyDict ν)}
    (hiterable : ∀ r, result = some r → Iterable r) :
    (∃ n, itemCount key result = .ok n) ↔ Counted key result := by
  match result with
  | none | some [] => simp [itemCount, Counted]
  | some (member :: rest) =>
    cases hl : Json.lookup key (member :: rest) with
    | none => simp [itemCount, Counted, Json.getItem, Json.hasKey, hl]
    | some items =>
      obtain ⟨xs, hxs⟩ := hiterable _ rfl key hkey items hl
      obtain ⟨n, hn⟩ := len_of_iterate hxs
      simp [itemCount, Counted, Json.getItem, Json.hasKey, hl, hn]

end GraphifyDaemon
