import GraphifyDaemon.ArtifactLifecycle.SavedCache
import GraphifyDaemon.Library.JsonDistinct
import GraphifyDaemon.Library.Trace
import GraphifyDaemon.VaultCompiler.GraphOrder

/-! Where nodes and edges come from. `extract_file` writes it into its result once, and nothing
that happens to the cache changes it, but for `build_graph`: what it passes to `build_from_json`
are the cached dictionaries themselves, which are written to there. -/
namespace GraphifyDaemon
open Library Library.Trace JsonText

variable {ν : Type}

/-- What a node or an edge gives as its `source_file`. -/
def sourceFile : Json ν → Option (Json ν)
  | .obj members => Json.lookup "source_file" members
  | .null | .bool _ | .num _ | .str _ | .arr _ => none

/-- Each node and each edge of the result names this file. -/
def Attributed (p : VaultPath) (result : PyDict ν) : Prop :=
  ∀ key ∈ ["nodes", "edges"], ∀ item ∈ listedItems key result, sourceFile item = some (.str p.str)

private theorem mapM_eq_ok {α β : Type} {f : α → Except PyError β} {xs : List α} {ys : List β}
    (h : xs.mapM f = .ok ys) :
    ∀ y ∈ ys, ∃ x ∈ xs, f x = .ok y := by
  induction xs generalizing ys with
  | nil =>
    cases h
    simp
  | cons x xs ih =>
    rw [List.mapM_cons] at h
    obtain ⟨y, hy, h⟩ := bind_eq_ok.mp h
    obtain ⟨rest, hrest, h⟩ := bind_eq_ok.mp h
    cases h
    intro z hz
    rcases List.mem_cons.mp hz with rfl | hz
    · exact ⟨x, List.mem_cons_self, hy⟩
    · obtain ⟨w, hw, hzw⟩ := ih hrest z hz
      exact ⟨w, List.mem_cons_of_mem _ hw, hzw⟩

private theorem attributeItems_attributed {relative : String} {items items' : Json ν}
    (h : attributeItems relative items = .ok items') :
    ∀ item ∈ itemsOf items', sourceFile item = some (.str relative) := by
  obtain ⟨xs, ys, -, hm, rfl⟩ | ⟨hnil, rfl⟩ := attributeItems_cases h
  · intro item hitem
    obtain ⟨x, -, hx⟩ := mapM_eq_ok hm item hitem
    cases x with
    | obj members =>
      cases hx
      simp [sourceFile, Json.lookup, OrderedDict.lookup_setItem]
    | null | bool | num | str | arr => cases hx
  · simp [itemsOf, hnil]

private theorem attributeItems_representable {relative : String} {items items' : Json ν} (hitems : Representable items)
    (h : attributeItems relative items = .ok items') : Representable items' := by
  obtain ⟨xs, ys, rfl, hm, rfl⟩ | ⟨-, rfl⟩ := attributeItems_cases h
  · refine representable_arr_iff.mpr fun item hitem => ?_
    obtain ⟨x, hmem, hx⟩ := mapM_eq_ok hm item hitem
    have hold := representable_arr_iff.mp hitems x hmem
    cases x with
    | obj members =>
      cases hx
      exact hold.setItem "source_file" rfl
    | null | bool | num | str | arr => cases hx
  · exact hitems

/-- The key's items name the file afterwards, and the other key is left alone. -/
theorem attributeKey_attributed {key relative : String} {result result' : PyDict ν}
    (h : attributeKey key relative result = .ok result') :
    (∀ item ∈ listedItems key result', sourceFile item = some (.str relative)) ∧
      (Representable (.obj result) → Representable (.obj result')) := by
  obtain ⟨hnone, rfl⟩ | ⟨items, items', hlookup, hitems, rfl⟩ := attributeKey_cases h
  · refine ⟨?_, id⟩
    simp [listedItems, itemsOf, Json.getList, hnone, Json.iterate]
  · refine ⟨?_, fun hresult => ?_⟩
    · have hlisted : listedItems key (OrderedDict.setItem key items' result) = itemsOf items' := by
        simp [listedItems, Json.getList, Json.lookup, OrderedDict.lookup_setItem]
      rw [hlisted]
      exact attributeItems_attributed hitems
    · exact hresult.setItem key (attributeItems_representable (hresult.lookup hlookup) hitems)

private theorem listedItems_attributeKey {key other relative : String} {result result' : PyDict ν}
    (h : attributeKey key relative result = .ok result') (hne : key ≠ other) :
    listedItems other result' = listedItems other result := by
  unfold listedItems Json.getList
  rw [attributeKey_other h hne]

/-- What an extraction gives names the file that was extracted. -/
theorem extractFile_attributed {extractor : Except PyError (Json ν)} {p : VaultPath} {result : PyDict ν}
    (h : extractFile extractor p = .ok result) :
    Attributed p result ∧ ((∀ v, extractor = .ok v → Representable v) → Representable (.obj result)) := by
  obtain ⟨raw, mid, rfl, hmid, h⟩ := extractFile_cases h
  obtain ⟨hnodes, hnodesJson⟩ := attributeKey_attributed hmid
  obtain ⟨hedges, hedgesJson⟩ := attributeKey_attributed h
  refine ⟨fun key hkey item hitem => ?_, fun hraw => hedgesJson (hnodesJson (hraw _ rfl))⟩
  rcases List.mem_cons.mp hkey with rfl | hkey
  · rw [listedItems_attributeKey h (by decide)] at hitem
    exact hnodes item hitem
  · obtain rfl := List.mem_singleton.mp hkey
    exact hedges item hitem

private theorem extraction_attributed {extractor : Except PyError (Json ν)} {p : VaultPath} {result : PyDict ν}
    (h : extractFileWithFailureIsolation extractor p = some result) :
    Attributed p result ∧ ((∀ v, extractor = .ok v → Representable v) → Representable (.obj result)) :=
  extractFile_attributed (extractFileWithFailureIsolation_eq_some.mp h).1

/-- The lists that `build_graph` passes to `build_from_json`. -/
def passedToBuildFromJson (cache : ExtractionCache ν) : Except PyError (List (Json ν) × List (Json ν)) :=
  cache.entries.values.foldlM extendWith ([], [])

theorem buildGraph_passed {γ τ : Type} (G : Graphify ν γ τ) (cache : ExtractionCache ν) :
    buildGraph G cache = (passedToBuildFromJson cache).bind fun merged => G.buildFromJson merged.1 merged.2 := by
  unfold buildGraph passedToBuildFromJson
  cases cache.entries.values.foldlM extendWith ([], []) <;> rfl

/-- A path with every backslash made a slash. -/
def slashed (text : String) : String := String.ofList (text.toList.map fun c => if c = '\\' then '/' else c)

/-- What `build_from_json` leaves of an item that it is passed: its `source_file` as it was, or slashed. -/
structure LeavesItem (item left : Json ν) : Prop where
  source : ∀ text, sourceFile item = some (.str text) →
    sourceFile left = some (.str text) ∨ sourceFile left = some (.str (slashed text))
  representable : Representable item → Representable left

/-- The items of a list under this key, each written to in place. -/
def rewriteKey (key : String) (leaves : Nat → Json ν → Json ν) (result : PyDict ν) : PyDict ν :=
  match Json.lookup key result with
  | some (.arr items) => OrderedDict.setItem key (.arr (items.mapIdx leaves)) result
  | _ => result

/-- The cache after a build, which has the same dictionaries. -/
def ExtractionCache.rewritten (leaves : VaultPath → String → Nat → Json ν → Json ν) (cache : ExtractionCache ν) :
    ExtractionCache ν :=
  { cache with entries := cache.entries.mapEntries fun p result =>
      rewriteKey "edges" (leaves p "edges") (rewriteKey "nodes" (leaves p "nodes") result) }

/-- The item names a file, and there is no backslash in that. -/
def PlainSource (item : Json ν) : Prop :=
  match sourceFile item with
  | some (.str text) => '\\' ∉ text.toList
  | _ => False

instance (item : Json ν) : Decidable (PlainSource item) := by
  unfold PlainSource
  split <;> infer_instance

/-- Each cached node and edge names a file without a backslash. -/
def ExtractionCache.Plain (cache : ExtractionCache ν) : Prop :=
  ∀ result ∈ cache.entries.values, ∀ key ∈ ["nodes", "edges"], ∀ item ∈ listedItems key result, PlainSource item

instance (cache : ExtractionCache ν) : Decidable cache.Plain := inferInstanceAs (Decidable (∀ _ ∈ _, _))

/-- What `build_from_json` leaves of an item that names a file without a backslash is the item. -/
def LeavesPlain (leaves : VaultPath → String → Nat → Json ν → Json ν) : Prop :=
  ∀ p key i item, PlainSource item → leaves p key i item = item

private theorem listedItems_of_list {key : String} {result : PyDict ν} {items : List (Json ν)}
    (h : Json.lookup key result = some (.arr items)) : listedItems key result = items := by
  simp [listedItems, Json.getList, h, itemsOf, Json.iterate]

private theorem rewriteKey_of_plain {key : String} {leaves : Nat → Json ν → Json ν} {result : PyDict ν}
    (hleaves : ∀ i item, PlainSource item → leaves i item = item)
    (h : ∀ item ∈ listedItems key result, PlainSource item) : rewriteKey key leaves result = result := by
  unfold rewriteKey
  split
  · rename_i items hitems
    have hsame : items.mapIdx leaves = items := by
      refine List.ext_getElem (by simp) fun i hi hi' => ?_
      rw [List.getElem_mapIdx]
      exact hleaves i _ (h _ (listedItems_of_list hitems ▸ List.getElem_mem hi'))
    rw [hsame]
    exact OrderedDict.setItem_of_lookup hitems
  · rfl

/-- A build of a cache that names no file with a backslash leaves the cache as it is. -/
theorem ExtractionCache.rewritten_of_plain {leaves : VaultPath → String → Nat → Json ν → Json ν}
    (hleaves : LeavesPlain leaves) {cache : ExtractionCache ν} (h : cache.Plain) : cache.rewritten leaves = cache := by
  have hentries : cache.entries.mapEntries (fun p result =>
      rewriteKey "edges" (leaves p "edges") (rewriteKey "nodes" (leaves p "nodes") result)) = cache.entries := by
    refine OrderedDict.mapEntries_eq_self fun entry hentry => ?_
    have hplain := h entry.2 (List.mem_map_of_mem hentry)
    rw [rewriteKey_of_plain (hleaves entry.1 "nodes") (hplain "nodes" (by decide)),
      rewriteKey_of_plain (hleaves entry.1 "edges") (hplain "edges" (by decide))]
  rw [ExtractionCache.rewritten, hentries]

/-- The cache in memory, and the text in `graph_cache.json` if there is one. -/
structure CacheLife (ν : Type) where
  cache : ExtractionCache ν
  file : Option (List Char)

namespace CacheLife

/-- Nothing cached, nothing saved. -/
def initial : CacheLife ν := ⟨.empty, none⟩

inductive Event (ν : Type) where
  /-- A new process, with nothing cached yet. -/
  | restart
  /-- `load`, which gives this cache. -/
  | load (loaded : ExtractionCache ν)
  /-- The reconciliation of a cold start. -/
  | walk (entries : List (WalkEntry ν))
  /-- `extract_batch` -/
  | batch (changes : List (FileChange × Observation ν))
  /-- `build_graph`, with what `build_from_json` leaves of each item. -/
  | build (leaves : VaultPath → String → Nat → Json ν → Json ν)
  | save

/-- What the extractors return while the event lasts is representable. -/
def Event.Extracts : Event ν → Prop
  | .walk entries => ∀ entry ∈ entries, ∀ v, entry.extractor = .ok v → Representable v
  | .batch changes => ∀ b ∈ changes, ∀ v, b.2.extractor = .ok v → Representable v
  | .restart | .load _ | .build _ | .save => True

/-- What `build_from_json` does to the items it is passed. -/
def Event.Builds : Event ν → Prop
  | .build leaves => ∀ p key i item, LeavesItem item (leaves p key i item)
  | .restart | .load _ | .walk _ | .batch _ | .save => True

/-- A walk or a batch that raises keeps what it has done to the cache. -/
def step [DecidableEq ν] (format : NumberFormat ν) (nested : List String) : Event ν → CacheLife ν → Option (CacheLife ν)
  | .restart, s => some { s with cache := .empty }
  | .load loaded, s => match s.file.map (load format) with
    | some (.ok ⟨.obj entries, .obj mtimes⟩) =>
      if (entries, mtimes) = encoded loaded then some { s with cache := loaded } else none
    | _ => none
  | .walk entries, s => match Outcome.forEach (coldVisit nested) entries ⟨s.cache, []⟩ with
    | .done r => some { s with cache := dropUnobserved r.observed r.cache }
    | .raised _ r => some { s with cache := r.cache }
  | .batch changes, s => some { s with cache := (extractBatch nested changes s.cache).store }
  | .build leaves, s => match passedToBuildFromJson s.cache with
    | .ok _ => some { s with cache := s.cache.rewritten leaves }
    | .error _ => some s
  | .save, s => some { s with file := some (saveText format s.cache) }

/-- When a graph is built, no cached path with a node or an edge has a backslash in it. -/
def BuildsWithoutBackslash : Event ν → CacheLife ν → Prop
  | .build _, s => ∀ p result, s.cache.get p = some result →
      (∃ key ∈ ["nodes", "edges"], listedItems key result ≠ []) → '\\' ∉ p.str.toList
  | _, _ => True

private theorem buildsWithoutBackslash_of_keys {leaves : VaultPath → String → Nat → Json ν → Json ν} {s : CacheLife ν}
    (h : ∀ p ∈ s.cache.entries.keys, '\\' ∉ p.str.toList) : BuildsWithoutBackslash (.build leaves) s :=
  fun p _ hp _ => h p ((OrderedDict.mem_keys_iff _ _).mpr (Option.isSome_of_eq_some hp))

end CacheLife

/-- Each cached result names its own file, and can be written as JSON. -/
def ExtractionCache.Attributed (cache : ExtractionCache ν) : Prop :=
  ∀ p result, cache.get p = some result → GraphifyDaemon.Attributed p result ∧ Representable (.obj result)

private theorem attributed_set {cache : ExtractionCache ν} (h : cache.Attributed) {extractor : Except PyError (Json ν)}
    (hjson : ∀ v, extractor = .ok v → Representable v) {p : VaultPath} {result : PyDict ν}
    (hresult : extractFileWithFailureIsolation extractor p = some result) (m : Option ν) :
    (cache.set p result m).Attributed := by
  intro q stored hq
  rw [ExtractionCache.get_set] at hq
  split_ifs at hq with hpq
  · obtain ⟨hattributed, hrepresentable⟩ := extraction_attributed hresult
    cases hq
    exact ⟨hpq ▸ hattributed, hrepresentable hjson⟩
  · exact h q stored hq

private theorem attributed_dropStale {cache : ExtractionCache ν} (h : cache.Attributed) (c : FileChange) :
    (dropStale c cache).Attributed := by
  intro p result hp
  rw [get_dropStale] at hp
  split_ifs at hp
  exact h p result hp

private theorem attributed_extractChange {nested : List String} {b : FileChange × Observation ν}
    {cache : ExtractionCache ν}
    (h : cache.Attributed) (hjson : ∀ v, b.2.extractor = .ok v → Representable v) :
    (extractChange nested b.1 b.2 cache).store.Attributed := by
  have hstale := attributed_dropStale h b.1
  unfold extractChange
  split_ifs
  · unfold storeResult
    split
    · exact hstale
    · rename_i result hresult
      split
      · rename_i m size _
        exact attributed_set hstale hjson hresult (some m)
      · exact attributed_set hstale hjson hresult none
      · exact hstale
  · exact hstale

private theorem attributed_coldVisit [DecidableEq ν] {nested : List String} {entry : WalkEntry ν} {r : Reconciliation ν}
    (h : r.cache.Attributed) (hjson : ∀ v, entry.extractor = .ok v → Representable v) :
    (coldVisit nested entry r).store.cache.Attributed := by
  unfold coldVisit
  split
  · exact h
  · split_ifs
    · exact h
    · exact h
    · split
      · exact h
      · exact h
      · dsimp only
        split
        · exact h
        · exact h
        · split_ifs
          · exact h
          · simp only [Outcome.store_done]
            cases hresult : extractFileWithFailureIsolation entry.extractor entry.path with
            | none => exact h
            | some result => exact attributed_set h hjson hresult _

private theorem attributed_dropUnobserved {cache : ExtractionCache ν} (h : cache.Attributed)
    (observed : List VaultPath) :
    (dropUnobserved observed cache).Attributed := by
  intro p result hp
  rw [get_dropUnobserved] at hp
  split_ifs at hp
  exact h p result hp

theorem slashed_of_not_mem {text : String} (h : '\\' ∉ text.toList) : slashed text = text := by
  have hsame : text.toList.map (fun c => if c = '\\' then '/' else c) = text.toList := by
    refine (List.map_congr_left fun c hc => if_neg ?_).trans (List.map_id' _)
    rintro rfl
    exact h hc
  rw [slashed, hsame, String.ofList_toList]

private theorem listedItems_rewriteKey_ne {key other : String} (hne : key ≠ other) (leaves : Nat → Json ν → Json ν)
    (result : PyDict ν) : listedItems other (rewriteKey key leaves result) = listedItems other result := by
  unfold rewriteKey
  split
  · simp [listedItems, Json.getList, Json.lookup, OrderedDict.lookup_setItem, hne]
  · rfl

/-- A rewritten item was listed before, or is what is left of one that was. -/
theorem mem_listedItems_rewriteKey {key : String} {leaves : Nat → Json ν → Json ν} {result : PyDict ν} {item : Json ν}
    (h : item ∈ listedItems key (rewriteKey key leaves result)) :
    item ∈ listedItems key result ∨ ∃ i, ∃ old ∈ listedItems key result, item = leaves i old := by
  unfold rewriteKey at h
  split at h
  · rename_i items hitems
    have hafter : item ∈ items.mapIdx leaves := by
      simpa [listedItems, Json.getList, Json.lookup, OrderedDict.lookup_setItem, itemsOf, Json.iterate] using h
    obtain ⟨i, hi, rfl⟩ := List.mem_mapIdx.mp hafter
    refine .inr ⟨i, items[i], ?_, rfl⟩
    rw [listedItems_of_list hitems]
    exact List.getElem_mem hi
  · exact .inl h

private theorem rewriteKey_representable {key : String} {leaves : Nat → Json ν → Json ν}
    (hleaves : ∀ i item, LeavesItem item (leaves i item)) {result : PyDict ν} (h : Representable (.obj result)) :
    Representable (.obj (rewriteKey key leaves result)) := by
  unfold rewriteKey
  split
  · rename_i items hitems
    refine h.setItem key (representable_arr_iff.mpr fun item hitem => ?_)
    obtain ⟨i, hi, rfl⟩ := List.mem_mapIdx.mp hitem
    exact (hleaves i _).representable (representable_arr_iff.mp (h.lookup hitems) _ (List.getElem_mem hi))
  · exact h

/-- A build leaves the items of a path without a backslash attributed to it. -/
theorem attributed_rewritten {cache : ExtractionCache ν} (h : cache.Attributed)
    {leaves : VaultPath → String → Nat → Json ν → Json ν} (hleaves : ∀ p key i item, LeavesItem item (leaves p key i item))
    (hslash : ∀ p result, cache.get p = some result →
      (∃ key ∈ ["nodes", "edges"], listedItems key result ≠ []) → '\\' ∉ p.str.toList) :
    (cache.rewritten leaves).Attributed := by
  intro p left hp
  rw [ExtractionCache.get, ExtractionCache.rewritten, OrderedDict.get_mapEntries] at hp
  obtain ⟨result, hresult, rfl⟩ := Option.map_eq_some_iff.mp hp
  obtain ⟨hattributed, hrepresentable⟩ := h p result hresult
  have hleft : ∀ key ∈ ["nodes", "edges"], ∀ i, ∀ old ∈ listedItems key result,
      sourceFile (leaves p key i old) = some (.str p.str) := by
    intro key hkey i old hold
    have hplain := slashed_of_not_mem (hslash p result hresult ⟨key, hkey, List.ne_nil_of_mem hold⟩)
    rcases (hleaves p key i old).source _ (hattributed key hkey old hold) with hsame | hslashed
    · exact hsame
    · rw [hslashed, hplain]
  refine ⟨fun key hkey item hitem => ?_, rewriteKey_representable (hleaves p "edges")
    (rewriteKey_representable (hleaves p "nodes") hrepresentable)⟩
  rcases List.mem_cons.mp hkey with rfl | hkey'
  · rw [listedItems_rewriteKey_ne (by decide)] at hitem
    rcases mem_listedItems_rewriteKey hitem with hold | ⟨i, old, hold, rfl⟩
    · exact hattributed _ hkey item hold
    · exact hleft _ hkey i old hold
  · obtain rfl := List.mem_singleton.mp hkey'
    rcases mem_listedItems_rewriteKey hitem with hold | ⟨i, old, hold, rfl⟩
    · rw [listedItems_rewriteKey_ne (by decide)] at hold
      exact hattributed _ hkey item hold
    · rw [listedItems_rewriteKey_ne (by decide)] at hold
      exact hleft _ hkey i old hold

theorem distinct_set {cache : ExtractionCache ν} (h : Distinct cache) (p : VaultPath) {result : PyDict ν}
    (hresult : Representable (.obj result)) (m : Option ν) : Distinct (cache.set p result m) := by
  intro q stored hq
  rw [ExtractionCache.get_set] at hq
  split_ifs at hq
  · cases hq
    exact hresult
  · exact h q stored hq

theorem distinct_delete {cache : ExtractionCache ν} (h : Distinct cache) (p : VaultPath) : Distinct (cache.delete p) := by
  intro q stored hq
  rw [ExtractionCache.get_delete] at hq
  split_ifs at hq
  exact h q stored hq

namespace CacheLife

/-- The cache is attributed, and so is the one that the file was written from. -/
structure Inv (format : NumberFormat ν) (s : CacheLife ν) : Prop where
  cache : s.cache.Attributed
  file : ∀ text, s.file = some text → ∃ saved : ExtractionCache ν, saved.Attributed ∧ text = saveText format saved

private theorem inv_initial (format : NumberFormat ν) : Inv format (initial : CacheLife ν) :=
  ⟨fun _ _ h => (nomatch h), fun _ h => (nomatch h)⟩

/-- What `save` wrote can be loaded, and gives the cache that was saved and no other. -/
theorem step_load_eq_some [DecidableEq ν] {format : NumberFormat ν} {nested : List String} {s s' : CacheLife ν}
    {saved loaded : ExtractionCache ν} (hfile : s.file = some (saveText format saved)) (h : Distinct saved) :
    step format nested (.load loaded) s = some s' ↔ loaded = saved ∧ s' = { s with cache := saved } := by
  simp only [step, hfile, Option.map_some, load_saveText format h]
  constructor
  · intro hstep
    split_ifs at hstep with hloaded
    obtain rfl : saved = loaded := encoded_injective hloaded
    exact ⟨rfl, (Option.some.inj hstep).symm⟩
  · rintro ⟨rfl, rfl⟩
    exact if_pos rfl

private theorem inv_step [DecidableEq ν] {format : NumberFormat ν} {nested : List String} {e : Event ν}
    {s s' : CacheLife ν}
    (hjson : e.Extracts) (hbuilds : e.Builds) (hslash : BuildsWithoutBackslash e s) (h : Inv format s)
    (hstep : step format nested e s = some s') : Inv format s' := by
  cases e with
  | restart =>
    cases hstep
    exact ⟨fun _ _ hget => (nomatch hget), h.file⟩
  | load loaded =>
    cases hfile : s.file with
    | none => simp [step, hfile] at hstep
    | some text =>
      obtain ⟨saved, hsaved, rfl⟩ := h.file text hfile
      obtain ⟨-, rfl⟩ := (step_load_eq_some hfile fun p result hp => (hsaved p result hp).2).mp hstep
      exact ⟨hsaved, h.file⟩
  | walk entries =>
    have hwalk : (Outcome.forEach (coldVisit nested) entries ⟨s.cache, []⟩).store.cache.Attributed :=
      Outcome.forEach_store_invariant (fun r : Reconciliation ν => r.cache.Attributed)
        (fun entry hentry r hr => attributed_coldVisit hr (hjson entry hentry)) h.cache
    simp only [step] at hstep
    split at hstep
    · rename_i r hr
      cases hstep
      rw [hr] at hwalk
      exact ⟨attributed_dropUnobserved hwalk _, h.file⟩
    · rename_i error r hr
      cases hstep
      rw [hr] at hwalk
      exact ⟨hwalk, h.file⟩
  | batch changes =>
    cases hstep
    have hbatch : (extractBatch nested changes s.cache).store.Attributed :=
      Outcome.forEach_store_invariant ExtractionCache.Attributed
        (fun b hb cache hcache => attributed_extractChange hcache (hjson b hb)) h.cache
    exact ⟨hbatch, h.file⟩
  | build leaves =>
    simp only [step] at hstep
    split at hstep
    · cases hstep
      exact ⟨attributed_rewritten h.cache hbuilds hslash, h.file⟩
    · cases hstep
      exact h
  | save =>
    cases hstep
    exact ⟨h.cache, fun text htext => ⟨s.cache, h.cache, (Option.some.inj htext).symm⟩⟩

end CacheLife

/-- What is merged comes from a cached result. -/
theorem mem_passedToBuildFromJson {cache : ExtractionCache ν} {merged : List (Json ν) × List (Json ν)}
    (h : passedToBuildFromJson cache = .ok merged) {item : Json ν} (hitem : item ∈ merged.1 ++ merged.2) :
    ∃ p result, cache.get p = some result ∧ ∃ key ∈ ["nodes", "edges"], item ∈ listedItems key result := by
  obtain ⟨-, rfl⟩ := foldlM_extendWith_eq_ok.mp h
  have hcached : ∀ key, item ∈ cache.entries.values.flatMap (listedItems key) →
      ∃ p result, cache.get p = some result ∧ item ∈ listedItems key result := by
    intro key hmem
    obtain ⟨result, hresult, hlisted⟩ := List.mem_flatMap.mp hmem
    obtain ⟨⟨p, _⟩, hentry, rfl⟩ := List.mem_map.mp hresult
    exact ⟨p, _, (OrderedDict.get_eq_some_iff _ _ _).mpr hentry, hlisted⟩
  rcases List.mem_append.mp hitem with hnode | hedge
  · obtain ⟨p, result, hget, hlisted⟩ := hcached "nodes" hnode
    exact ⟨p, result, hget, "nodes", by simp, hlisted⟩
  · obtain ⟨p, result, hget, hlisted⟩ := hcached "edges" hedge
    exact ⟨p, result, hget, "edges", by simp, hlisted⟩

section Runs
variable [DecidableEq ν]

/-- In every cache that a life of starts, batches, builds, saves and loads reaches, if no graph is
built while a path with a backslash is cached, what is stored under a path names that path, and
the graph is built of nothing that names another. -/
theorem provenance (format : NumberFormat ν) (nested : List String) {events : List (CacheLife.Event ν)}
    {s : CacheLife ν} (hrun : exec (CacheLife.step format nested) events .initial = some s)
    (hjson : ∀ e ∈ events, e.Extracts) (hbuilds : ∀ e ∈ events, e.Builds)
    (hslash : Along (CacheLife.step format nested) CacheLife.BuildsWithoutBackslash events .initial) :
    (∀ p result, s.cache.get p = some result → Attributed p result) ∧
      ∀ p, s.cache.get p = none → ∀ merged, passedToBuildFromJson s.cache = .ok merged →
        ∀ item ∈ merged.1 ++ merged.2, sourceFile item ≠ some (.str p.str) := by
  have hmeets := (along_of_forall (fun e he _ => And.intro (hjson e he) (hbuilds e he)) _).and hslash
  have hinv : CacheLife.Inv format s := exec_invariant (CacheLife.Inv format)
    (fun e mid mid' ⟨⟨hextracts, hbuild⟩, hplain⟩ hmid hstep => CacheLife.inv_step hextracts hbuild hplain hmid hstep)
    (CacheLife.inv_initial format) hmeets hrun
  refine ⟨fun p result hp => (hinv.cache p result hp).1, fun p hp merged hmerged item hitem hsource => ?_⟩
  obtain ⟨q, result, hq, key, hkey, hlisted⟩ := mem_passedToBuildFromJson hmerged hitem
  have hnames := (hinv.cache q result hq).1 key hkey item hlisted
  -- the text of a path determines the path
  have hpq : q = p := str_injective (Json.str.inj (Option.some.inj (hnames.symm.trans hsource)))
  rw [hpq, hp] at hq
  cases hq

end Runs

section Notes

/-- An item after a build that slashes its `source_file`. -/
def slashItem : Json Nat → Json Nat
  | .obj members => match Json.lookup "source_file" members with
    | some (.str text) => .obj (OrderedDict.setItem "source_file" (.str (slashed text)) members)
    | _ => .obj members
  | item => item

private theorem leavesItem_slashItem (item : Json Nat) : LeavesItem item (slashItem item) := by
  cases item with
  | obj members =>
    simp only [slashItem]
    split
    · rename_i text htext
      refine ⟨fun source hsource => .inr ?_, fun h => h.setItem "source_file" rfl⟩
      obtain rfl : text = source := by simpa [sourceFile, htext] using hsource
      simp [sourceFile, Json.lookup, OrderedDict.lookup_setItem]
    · exact ⟨fun _ => .inl, id⟩
  | null | bool | num | str | arr => exact ⟨fun _ => .inl, id⟩

def slashingBuild : CacheLife.Event Nat := .build fun _ _ _ => slashItem

/-- A start that finds one file, and the build after it. -/
def foundAndBuilt (p : VaultPath) : List (CacheLife.Event Nat) :=
  [.walk [⟨p, .ok false, .ok true, .found 7 1, .ok (.obj (oneNode "a"))⟩], slashingBuild]

private theorem oneNode_representable (id : String) :
    ∀ v, Except.ok (ε := PyError) (.obj (oneNode id) : Json Nat) = .ok v → Representable v := by
  rintro v ⟨⟩
  rfl

private theorem foundAndBuilt_allowed (p : VaultPath) : ∀ e ∈ foundAndBuilt p, e.Extracts ∧ e.Builds := by
  simpa [foundAndBuilt, slashingBuild, CacheLife.Event.Extracts, CacheLife.Event.Builds, leavesItem_slashItem] using
    oneNode_representable "a"

/-- What a start finds in a vault with one note. -/
def foundNote : ExtractionCache Nat := ExtractionCache.empty.set notePath (attributedNode "a" notePath) (some 7)

theorem distinct_foundNote : Distinct foundNote := by
  apply distinct_set
  · exact fun _ _ h => (nomatch h)
  · rfl

/-- The note is renamed, and extracted again. -/
def noteRenamed : CacheLife.Event Nat :=
  .batch [(.renamed notePath otherPath, ⟨.ok (.obj (oneNode "a")), .found 8 1, .found 8 1, none, none⟩)]

def noteSeen : List (CacheLife.Event Nat) := foundAndBuilt notePath ++ [.save, .restart]

/-- Saved by one process, and renamed in the next. -/
def renamedAfterRestart : List (CacheLife.Event Nat) := noteSeen ++ [.load foundNote, noteRenamed, slashingBuild]

private theorem renamedAfterRestart_allowed : ∀ e ∈ renamedAfterRestart, e.Extracts ∧ e.Builds := by
  simpa [renamedAfterRestart, noteSeen, foundAndBuilt, noteRenamed, slashingBuild, CacheLife.Event.Extracts,
    CacheLife.Event.Builds, leavesItem_slashItem] using oneNode_representable "a"

theorem provenance_renamed :
    ∃ s : CacheLife Nat, exec (CacheLife.step decimal []) renamedAfterRestart .initial = some s ∧
      s.cache.get otherPath = some (attributedNode "a" otherPath) ∧
      Attributed otherPath (attributedNode "a" otherPath) ∧ s.cache.get notePath = none ∧
      ∀ merged, passedToBuildFromJson s.cache = .ok merged →
        ∀ item ∈ merged.1 ++ merged.2, sourceFile item ≠ some (.str notePath.str) := by
  obtain ⟨mid, hfound, hfile⟩ : ∃ mid,
      exec (CacheLife.step decimal []) noteSeen .initial = some mid ∧
      mid.file = some (saveText decimal foundNote) := ⟨_, rfl, rfl⟩
  obtain ⟨s, hrenamed, hother, hnote⟩ : ∃ s,
      exec (CacheLife.step decimal []) [noteRenamed, slashingBuild] { mid with cache := foundNote } = some s ∧
      s.cache.get otherPath = some (attributedNode "a" otherPath) ∧ s.cache.get notePath = none := ⟨_, rfl, rfl, rfl⟩
  have hload : CacheLife.step decimal [] (.load foundNote) mid = some { mid with cache := foundNote } :=
    (CacheLife.step_load_eq_some hfile distinct_foundNote).mpr ⟨rfl, rfl⟩
  have hrun : exec (CacheLife.step decimal []) renamedAfterRestart .initial = some s :=
    exec_append_of hfound (exec_cons_eq_some.mpr ⟨_, hload, hrenamed⟩)
  have hslash : Along (CacheLife.step decimal []) CacheLife.BuildsWithoutBackslash renamedAfterRestart .initial := by
    refine ⟨trivial, fun found hfound => ⟨CacheLife.buildsWithoutBackslash_of_keys (by cases hfound; decide), ?_⟩⟩
    refine fun built hbuilt => ⟨trivial, fun saved hsaved => ⟨trivial, fun next hnext => ⟨trivial, ?_⟩⟩⟩
    cases hfound
    cases hbuilt
    cases hsaved
    cases hnext
    intro loaded hloaded
    obtain ⟨-, rfl⟩ := (CacheLife.step_load_eq_some (show _ = some (saveText decimal foundNote) from rfl)
      distinct_foundNote).mp hloaded
    refine ⟨trivial, fun renamed hrenamed => ⟨CacheLife.buildsWithoutBackslash_of_keys ?_, fun _ _ => trivial⟩⟩
    cases hrenamed
    decide
  obtain ⟨hattributed, hgone⟩ := provenance decimal [] hrun (fun e he => (renamedAfterRestart_allowed e he).1)
    (fun e he => (renamedAfterRestart_allowed e he).2) hslash
  exact ⟨s, hrun, hother, hattributed _ _ hother, hnote, hgone notePath hnote⟩

/-- A name with a backslash, and the path it is taken for. -/
def backslashPath : VaultPath := ⟨["a\\b.md"], by decide⟩
def slashPath : VaultPath := ⟨["a", "b.md"], by decide⟩

theorem backslash_attributed_elsewhere :
    ∃ s : CacheLife Nat, exec (CacheLife.step decimal []) (foundAndBuilt backslashPath) .initial = some s ∧
      (∀ e ∈ foundAndBuilt backslashPath, e.Extracts ∧ e.Builds) ∧
      s.cache.get backslashPath = some (attributedNode "a" slashPath) ∧
      ¬ Attributed backslashPath (attributedNode "a" slashPath) ∧ s.cache.get slashPath = none ∧
      ∃ merged, passedToBuildFromJson s.cache = .ok merged ∧
        ∃ item ∈ merged.1 ++ merged.2, sourceFile item = some (.str slashPath.str) := by
  refine ⟨_, rfl, foundAndBuilt_allowed backslashPath, rfl, fun h => ?_, rfl, _, rfl, _, List.mem_singleton.mpr rfl, rfl⟩
  have hsource := h "nodes" (by decide) (.obj [("id", .str "a"), ("source_file", .str slashPath.str)])
    (List.mem_singleton.mpr rfl)
  exact absurd hsource (by decide)

end Notes

end GraphifyDaemon
