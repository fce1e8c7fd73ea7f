import GraphifyDaemon.ArtifactLifecycle.ColdStart
import GraphifyDaemon.VaultCompiler.ReferenceGraph

/-! Which files a cold start reads, and what it makes of a vault that was not modified since
its cache was saved. -/
namespace GraphifyDaemon
open Library

variable {ν γ τ : Type} {nested : List String}

namespace WalkEntry

/-- The walk passes the path over: a directory, an excluded file, or a link out of the vault. -/
def PassedOver (nested : List String) (entry : WalkEntry ν) : Prop :=
  entry.isDir = .ok true ∨
    entry.isDir = .ok false ∧ (isExcluded nested entry.path = true ∨ entry.confined = .ok false)

/-- The path is taken for a file of the vault. -/
def Admitted (nested : List String) (entry : WalkEntry ν) : Prop :=
  entry.isDir = .ok false ∧ isExcluded nested entry.path = false ∧ entry.confined = .ok true

/-- The file still has the modification time that the cache recorded. -/
def UpToDate (cache : ExtractionCache ν) (entry : WalkEntry ν) : Prop :=
  ∃ m size, entry.stat = .found m size ∧ cache.mtime entry.path = some m

/-- A round has nothing to do: the path is passed over, or the file is up to date, or it has no
entry for it cannot be extracted. -/
def Unmodified (nested : List String) (cache : ExtractionCache ν) (entry : WalkEntry ν) : Prop :=
  entry.PassedOver nested ∨ entry.Admitted nested ∧ (entry.UpToDate cache ∨
    (∃ m size, entry.stat = .found m size) ∧ extractFileWithFailureIsolation entry.extractor entry.path = none)

/-- Two walks see the same, but for the contents of a file that is up to date. -/
structure SeesSame (cache : ExtractionCache ν) (entry other : WalkEntry ν) : Prop where
  path : entry.path = other.path
  isDir : entry.isDir = other.isDir
  confined : entry.confined = other.confined
  stat : entry.stat = other.stat
  extractor : entry.UpToDate cache ∨ entry.extractor = other.extractor

end WalkEntry

section Visits
variable [DecidableEq ν]

theorem coldVisit_of_passedOver {entry : WalkEntry ν} (h : entry.PassedOver nested) (r : Reconciliation ν) :
    coldVisit nested entry r = .done r := by
  rcases h with hdir | ⟨hdir, hexcluded | houtside⟩
  · simp [coldVisit, hdir]
  · simp [coldVisit, hdir, hexcluded]
  · unfold coldVisit
    rw [hdir, houtside]
    dsimp only
    split_ifs <;> rfl

/-- An admitted file is observed, and read if its modification time is not the recorded one. -/
theorem coldVisit_of_admitted {entry : WalkEntry ν} (h : entry.Admitted nested) {m : ν} {size : Nat}
    (hstat : entry.stat = .found m size) (r : Reconciliation ν) :
    coldVisit nested entry r = .done ⟨if r.cache.mtime entry.path = some m then r.cache
      else storeAtMtime entry.path m (extractFileWithFailureIsolation entry.extractor entry.path) r.cache,
      r.observed ++ [entry.path]⟩ := by
  obtain ⟨hdir, hexcluded, hconfined⟩ := h
  have hsuffix := suffix_of_not_excluded hexcluded
  unfold coldVisit
  rw [hdir, hconfined, hstat]
  simp only [hsuffix, hexcluded, not_true_eq_false, Bool.false_eq_true, or_self, if_false]
  split_ifs <;> rfl

private theorem coldVisit_of_unmodified {entry : WalkEntry ν} {r : Reconciliation ν}
    (h : entry.Unmodified nested r.cache) :
    ∃ observed, coldVisit nested entry r = .done ⟨r.cache, observed⟩ ∧ r.observed ⊆ observed ∧
      (entry.Admitted nested → entry.path ∈ observed) := by
  rcases h with hpassed | ⟨hadmitted, hread⟩
  · refine ⟨r.observed, coldVisit_of_passedOver hpassed r, List.Subset.refl _, fun hadmitted => ?_⟩
    obtain ⟨hdir, hexcluded, hconfined⟩ := hadmitted
    simp [WalkEntry.PassedOver, hdir, hexcluded, hconfined] at hpassed
  · refine ⟨r.observed ++ [entry.path], ?_, List.subset_append_left _ _, fun _ => by simp⟩
    rcases hread with ⟨m, size, hstat, hrecorded⟩ | ⟨⟨m, size, hstat⟩, hfails⟩
    · rw [coldVisit_of_admitted hadmitted hstat, if_pos hrecorded]
    · rw [coldVisit_of_admitted hadmitted hstat, hfails]
      simp [storeAtMtime]

private theorem walk_unmodified {walk : List (WalkEntry ν)} {r : Reconciliation ν}
    (h : ∀ entry ∈ walk, entry.Unmodified nested r.cache) :
    ∃ observed, Outcome.forEach (coldVisit nested) walk r = .done ⟨r.cache, observed⟩ ∧ r.observed ⊆ observed ∧
      ∀ entry ∈ walk, entry.Admitted nested → entry.path ∈ observed := by
  induction walk generalizing r with
  | nil => exact ⟨r.observed, rfl, List.Subset.refl _, fun _ hentry => by cases hentry⟩
  | cons entry rest ih =>
    obtain ⟨observed, hvisit, hkept, hnew⟩ := coldVisit_of_unmodified (h entry List.mem_cons_self)
    obtain ⟨observed', hloop, hkept', hnew'⟩ :=
      ih (r := ⟨r.cache, observed⟩) (fun e he => h e (List.mem_cons_of_mem _ he))
    refine ⟨observed', by rw [Outcome.forEach_cons, hvisit, Outcome.andThen_done, hloop],
      List.Subset.trans hkept hkept', fun e he hadmitted => ?_⟩
    rcases List.mem_cons.mp he with rfl | hrest
    · exact hkept' (hnew hadmitted)
    · exact hnew' e hrest hadmitted

omit [DecidableEq ν] in
/-- Where every entry was observed nothing is dropped. -/
theorem dropUnobserved_of_all {observed : List VaultPath} {cache : ExtractionCache ν}
    (h : ∀ p ∈ cache.entries.keys, p ∈ observed) : dropUnobserved observed cache = cache := by
  have hnone : cache.entries.keys.filter (fun p => p ∉ observed) = [] :=
    List.filter_eq_nil_iff.mpr fun p hp => by simpa using h p hp
  rw [dropUnobserved, hnone]
  rfl

/-- Over a vault that was not modified a cold start keeps the cache as it is, and publishes its
graph, without communities. -/
theorem runColdStart_unmodified {G : Graphify ν γ τ} {walk : List (WalkEntry ν)} {d : Daemon ν γ τ}
    (hwalk : ∀ entry ∈ walk, entry.Unmodified nested d.cache)
    (hthere : ∀ p ∈ d.cache.entries.keys, ∃ entry ∈ walk, entry.path = p ∧ entry.Admitted nested)
    {graph : γ} {index : τ} (hgraph : buildGraph G d.cache = .ok graph) (hindex : G.getTrigramIndex graph = .ok index) :
    runColdStart G nested walk d = .done { d with
      holder := ⟨some ⟨graph, index, .empty, d.holder.nextVersion⟩, d.holder.nextVersion + 1⟩ } := by
  obtain ⟨observed, hloop, -, hobserved⟩ := walk_unmodified (r := ⟨d.cache, []⟩) hwalk
  have hall : ∀ p ∈ d.cache.entries.keys, p ∈ observed := by
    intro p hp
    obtain ⟨entry, hentry, rfl, hadmitted⟩ := hthere p hp
    exact hobserved entry hentry hadmitted
  have hpublish : d.holder.publish G graph .empty =
      .done ⟨some ⟨graph, index, .empty, d.holder.nextVersion⟩, d.holder.nextVersion + 1⟩ :=
    publish_eq_done.mpr ⟨index, hindex, rfl⟩
  rw [runColdStart, hloop]
  simp only [dropUnobserved_of_all hall, hgraph, hpublish, Outcome.within_done]

private theorem coldVisit_mtime_ne {entry : WalkEntry ν} {r r' : Reconciliation ν}
    (h : coldVisit nested entry r = .done r')
    {p : VaultPath} (hp : p ≠ entry.path) : r'.cache.mtime p = r.cache.mtime p := by
  unfold coldVisit at h
  split at h
  · cases h
  · split_ifs at h
    · cases h
      rfl
    · cases h
      rfl
    · split at h
      · cases h
      · cases h
        rfl
      · dsimp only at h
        split at h
        · cases h
        · cases h
        · split_ifs at h
          · cases h
            rfl
          · cases h
            exact mtime_storeAtMtime_ne hp.symm _ _ _

private theorem coldVisit_congr {entry other : WalkEntry ν} {cache : ExtractionCache ν} {r : Reconciliation ν}
    (h : entry.SeesSame cache other) (hrecorded : r.cache.mtime entry.path = cache.mtime entry.path) :
    coldVisit nested entry r = coldVisit nested other r := by
  obtain ⟨path, isDir, confined, stat, extractor⟩ := entry
  obtain ⟨path', isDir', confined', stat', extractor'⟩ := other
  obtain ⟨rfl, rfl, rfl, rfl, hextractor⟩ := h
  dsimp only at hextractor hrecorded
  rcases hextractor with ⟨m, size, rfl, hm⟩ | rfl
  · -- the comparison of modification times comes before the extraction
    dsimp only at hm
    have hskip : r.cache.mtime path = some m := hrecorded.trans hm
    simp only [coldVisit, hskip, if_true]
  · rfl

theorem walk_congr {cache : ExtractionCache ν} {walk walk' : List (WalkEntry ν)}
    (hsees : List.Forall₂ (WalkEntry.SeesSame cache) walk walk') (hdistinct : (walk.map WalkEntry.path).Nodup)
    {r : Reconciliation ν} (hrecorded : ∀ entry ∈ walk, r.cache.mtime entry.path = cache.mtime entry.path) :
    Outcome.forEach (coldVisit nested) walk r = Outcome.forEach (coldVisit nested) walk' r := by
  induction hsees generalizing r with
  | nil => rfl
  | @cons entry other rest rest' hsame _ ih =>
    obtain ⟨hnew, hrest⟩ := List.nodup_cons.mp hdistinct
    rw [Outcome.forEach_cons, Outcome.forEach_cons, coldVisit_congr hsame (hrecorded entry List.mem_cons_self)]
    cases hvisit : coldVisit nested other r with
    | raised e r' => rfl
    | done r' =>
      refine ih hrest fun later hlater => ?_
      have hne : later.path ≠ other.path := by
        rw [← hsame.path]
        exact fun he => hnew (List.mem_map.mpr ⟨later, hlater, he⟩)
      rw [coldVisit_mtime_ne hvisit hne]
      exact hrecorded later (List.mem_cons_of_mem _ hlater)

/-- A cold start reads no file that is up to date: whatever is in those files, it ends the same. -/
theorem cold_start_reads_modified_only {G : Graphify ν γ τ} {d : Daemon ν γ τ} {walk walk' : List (WalkEntry ν)}
    (hsees : List.Forall₂ (WalkEntry.SeesSame d.cache) walk walk') (hdistinct : (walk.map WalkEntry.path).Nodup) :
    runColdStart G nested walk d = runColdStart G nested walk' d := by
  rw [runColdStart, runColdStart, walk_congr (r := ⟨d.cache, []⟩) hsees hdistinct (fun _ _ => rfl)]

end Visits

theorem cold_start_reads_modified_only_note :
    let d : Daemon Nat ReferenceGraph Unit :=
      { Daemon.initial 0 with cache := ExtractionCache.empty.set notePath (oneNode "a") (some 1) }
    let note (extractor : Except PyError (Json Nat)) : WalkEntry Nat :=
      ⟨notePath, .ok false, .ok true, .found 1 1, extractor⟩
    runColdStart referenceGraphify [] [note (.error .runtimeError)] d =
      runColdStart referenceGraphify [] [note (.ok (.obj (oneNode "b")))] d := by
  refine cold_start_reads_modified_only (.cons ⟨rfl, rfl, rfl, rfl, .inl ⟨1, 1, rfl, rfl⟩⟩ .nil) ?_
  simp

end GraphifyDaemon
