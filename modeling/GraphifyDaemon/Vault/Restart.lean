import GraphifyDaemon.ArtifactLifecycle.ColdStart
import GraphifyDaemon.Library.Trace
import GraphifyDaemon.Vault.FileSystem

/-! The modification times a cache records, over writes, compiles, saves and restarts, and
what the next cold start makes of them. -/
namespace GraphifyDaemon
open Library Library.Trace

variable {ν κ : Type}

/-- A recorded modification time that is still the file's tells that the entry is right. -/
def SoundAt (extractor : VaultPath → κ → Json ν) (vault : Vault κ ν) (cache : ExtractionCache ν) (p : VaultPath) : Prop :=
  ∀ file, vault.get p = some file → cache.mtime p = some file.mtime → cache.get p = extracted extractor p file.content

/-- The vault, the modification times given so far, the cache in RAM and the one saved, the
file that `extract_batch` has read and not stat-ed, and the file that a cold start has
stat-ed and not read. -/
structure Life (κ ν : Type) where
  vault : Vault κ ν
  given : List ν
  cache : ExtractionCache ν
  saved : SavedCache ν
  compiling : Option (FileChange × Option (PyDict ν))
  visiting : Option (VaultPath × ν)

inductive LifeEvent (κ ν : Type) where
  | write (p : VaultPath) (file : File κ ν)
  | delete (p : VaultPath)
  | extractRead (c : FileChange)
  | extractStat
  | coldStat (p : VaultPath)
  | coldRead
  | coldDrop (observed : List VaultPath)
  | save
  | restart

namespace Life

def initial (vault : Vault κ ν) : Life κ ν := ⟨vault, vault.values.map File.mtime, .empty, .absent, none, none⟩

variable [DecidableEq ν] (nested : List String) (extractor : VaultPath → κ → Json ν)

/-- A write gives its file a modification time that was never given before. -/
def write (p : VaultPath) (file : File κ ν) (s : Life κ ν) : Option (Life κ ν) :=
  if file.mtime ∈ s.given then none
  else some { s with vault := s.vault.set p file, given := file.mtime :: s.given }

def extractRead (c : FileChange) (s : Life κ ν) : Option (Life κ ν) :=
  match s.compiling with
  | some _ => none
  | none =>
    let s := { s with cache := dropStale c s.cache }
    if c.reachesPath nested then
      some { s with compiling := some (c, extractFileWithFailureIsolation (readFile extractor s.vault c.path) c.path) }
    else some s

def extractStat (s : Life κ ν) : Option (Life κ ν) :=
  match s.compiling with
  | some (c, result) => match storeResult c.path result (statFile s.vault c.path) s.cache with
    | .done cache => some { s with cache := cache, compiling := none }
    | .raised _ _ => none
  | none => none

/-- `cold_start` on one file, up to the comparison of modification times. -/
def coldStat (p : VaultPath) (s : Life κ ν) : Option (Life κ ν) :=
  match s.visiting, s.vault.get p with
  | none, some file =>
    if s.cache.mtime p = some file.mtime then some s else some { s with visiting := some (p, file.mtime) }
  | _, _ => none

def coldRead (s : Life κ ν) : Option (Life κ ν) :=
  match s.visiting with
  | some (p, m) => some { s with
      cache := storeAtMtime p m (extractFileWithFailureIsolation (readFile extractor s.vault p) p) s.cache
      visiting := none }
  | none => none

def step : LifeEvent κ ν → Life κ ν → Option (Life κ ν)
  | .write p file, s => s.write p file
  | .delete p, s => some { s with vault := s.vault.erase p }
  | .extractRead c, s => s.extractRead nested extractor c
  | .extractStat, s => s.extractStat
  | .coldStat p, s => s.coldStat p
  | .coldRead, s => s.coldRead extractor
  | .coldDrop observed, s => some { s with cache := dropUnobserved observed s.cache }
  | .save, s => some { s with saved := .intact s.cache }
  | .restart, s => some { s with cache := s.saved.loaded, compiling := none, visiting := none }

end Life

/-- No file that `extract_batch` has extracted is written before the `stat` it makes of it. -/
def ReadsStably : LifeEvent κ ν → Life κ ν → Prop
  | .write p _, s => (s.compiling.bind fun reading => reading.2.map fun _ => reading.1.path) ≠ some p
  | _, _ => True

instance (e : LifeEvent κ ν) (s : Life κ ν) : Decidable (ReadsStably e s) :=
  match e with
  | .write _ _ => inferInstanceAs (Decidable (_ ≠ _))
  | .delete _ | .extractRead _ | .extractStat | .coldStat _ | .coldRead | .coldDrop _ | .save | .restart =>
    instDecidableTrue

/-- A cache that is sound now, and stays so under writes with new modification times. -/
structure Trusted (nested : List String) (extractor : VaultPath → κ → Json ν) (vault : Vault κ ν) (given : List ν)
    (cache : ExtractionCache ν) : Prop where
  sound : ∀ p, isExcluded nested p = false → SoundAt extractor vault cache p
  given : ∀ p m, cache.mtime p = some m → m ∈ given

structure LifeInvariant (nested : List String) (extractor : VaultPath → κ → Json ν) (s : Life κ ν) : Prop where
  cache : Trusted nested extractor s.vault s.given s.cache
  saved : Trusted nested extractor s.vault s.given s.saved.loaded
  vault : ∀ p file, s.vault.get p = some file → file.mtime ∈ s.given
  compiling : ∀ c result, s.compiling = some (c, some result) →
    ∀ file, s.vault.get c.path = some file → some result = extracted extractor c.path file.content
  visiting : ∀ p m, s.visiting = some (p, m) → m ∈ s.given
  whole : s.saved ≠ .torn

section Steps
variable {nested : List String} {extractor : VaultPath → κ → Json ν}

theorem trusted_empty (vault : Vault κ ν) (given : List ν) : Trusted nested extractor vault given .empty := by
  constructor
  · intro p _ file _ hm
    cases hm
  · intro p m hm
    cases hm

private theorem lifeInvariant_initial (vault : Vault κ ν) : LifeInvariant nested extractor (.initial vault) where
  cache := trusted_empty _ _
  saved := trusted_empty _ _
  vault := fun p file hfile => List.mem_map.mpr ⟨file, (OrderedDict.mem_values_iff _ _).mpr ⟨p, hfile⟩, rfl⟩
  compiling := fun _ _ h => by cases h
  visiting := fun _ _ h => by cases h
  whole := by simp [Life.initial]

theorem Trusted.write {vault : Vault κ ν} {given : List ν} {cache : ExtractionCache ν}
    (hs : Trusted nested extractor vault given cache) {p : VaultPath} {file : File κ ν} (hfresh : file.mtime ∉ given) :
    Trusted nested extractor (vault.set p file) (file.mtime :: given) cache := by
  refine ⟨fun q hq f hf hm => ?_, fun q m hm => List.mem_cons_of_mem _ (hs.given q m hm)⟩
  rw [OrderedDict.get_set] at hf
  split_ifs at hf with hpq
  · cases hf
    exact absurd (hs.given q _ hm) hfresh
  · exact hs.sound q hq f hf hm

theorem Trusted.delete {vault : Vault κ ν} {given : List ν} {cache : ExtractionCache ν}
    (hs : Trusted nested extractor vault given cache) (p : VaultPath) :
    Trusted nested extractor (vault.erase p) given cache := by
  refine ⟨fun q hq f hf hm => ?_, hs.given⟩
  rw [OrderedDict.get_erase] at hf
  split_ifs at hf with hpq
  exact hs.sound q hq f hf hm

theorem Trusted.dropStale {vault : Vault κ ν} {given : List ν} {cache : ExtractionCache ν}
    (hs : Trusted nested extractor vault given cache) (c : FileChange) :
    Trusted nested extractor vault given (dropStale c cache) := by
  refine ⟨fun q hq f hf hm => ?_, fun q m hm => ?_⟩
  · rw [mtime_dropStale] at hm
    split_ifs at hm with hd
    rw [get_dropStale, if_neg hd]
    exact hs.sound q hq f hf hm
  · rw [mtime_dropStale] at hm
    split_ifs at hm
    exact hs.given q m hm

/-- An entry stored with a modification time that, if it is the file's, was read from it. -/
theorem Trusted.set {vault : Vault κ ν} {given : List ν} {cache : ExtractionCache ν}
    (hs : Trusted nested extractor vault given cache) (p : VaultPath) (entry : PyDict ν) (m : Option ν)
    (hm : ∀ t, m = some t → t ∈ given)
    (hentry : ∀ file, vault.get p = some file → some entry = extracted extractor p file.content) :
    Trusted nested extractor vault given (cache.set p entry m) := by
  refine ⟨fun q hq f hf hmtime => ?_, fun q t ht => ?_⟩
  · rw [ExtractionCache.get_set]
    by_cases hpq : p = q
    · subst hpq
      rw [if_pos rfl]
      exact hentry f hf
    · rw [if_neg hpq]
      rw [ExtractionCache.mtime_set, if_neg hpq] at hmtime
      exact hs.sound q hq f hf hmtime
  · rw [ExtractionCache.mtime_set] at ht
    split_ifs at ht
    · rcases Option.or_eq_some_iff.mp ht with hnew | ⟨-, hold⟩
      · exact hm t hnew
      · exact hs.given q t hold
    · exact hs.given q t ht

theorem Trusted.dropUnobserved {vault : Vault κ ν} {given : List ν} {cache : ExtractionCache ν}
    (hs : Trusted nested extractor vault given cache) (observed : List VaultPath) :
    Trusted nested extractor vault given (dropUnobserved observed cache) := by
  refine ⟨fun q hq f hf hm => ?_, fun q m hm => ?_⟩
  · obtain ⟨hget, hmtime⟩ := dropUnobserved_at observed cache q
    rw [hmtime] at hm
    rw [hget]
    split_ifs at hm with hkept
    have hsound := hs.sound q hq f hf hm
    split_ifs with ho
    · exact hsound
    · exact (hkept.resolve_left ho).symm.trans hsound
  · rw [(dropUnobserved_at observed cache q).2] at hm
    split_ifs at hm
    exact hs.given q m hm

end Steps

section Events
variable {nested : List String} {extractor : VaultPath → κ → Json ν} {s s' : Life κ ν}

/-- A compile step stores what it read before the file was last written. -/
theorem LifeInvariant.extractStat (hs : LifeInvariant nested extractor s) (h : s.extractStat = some s') :
    LifeInvariant nested extractor s' := by
  unfold Life.extractStat at h
  split at h
  · rename_i c result hcompiling
    split at h
    · rename_i cache hstore
      cases h
      refine { hs with cache := ?_, compiling := fun _ _ h => by cases h }
      cases result with
      | none =>
        cases hstore
        exact hs.cache
      | some entry =>
        have hread := hs.compiling c entry hcompiling
        cases hfile : s.vault.get c.path with
        | none =>
          simp only [statFile, hfile, storeResult, Outcome.done.injEq] at hstore
          subst hstore
          exact hs.cache.set c.path entry none (fun t ht => by cases ht) hread
        | some file =>
          simp only [statFile, hfile, storeResult, Outcome.done.injEq] at hstore
          subst hstore
          refine hs.cache.set c.path entry (some file.mtime) (fun t ht => ?_) hread
          cases ht
          exact hs.vault c.path file hfile
    · cases h
  · cases h

/-- A write gives a new modification time, and meets no file that was read and not stat-ed. -/
theorem LifeInvariant.write [DecidableEq ν] (hs : LifeInvariant nested extractor s) {p : VaultPath} {file : File κ ν}
    (hok : ReadsStably (.write p file) s) (h : s.write p file = some s') : LifeInvariant nested extractor s' := by
  unfold Life.write at h
  split_ifs at h with hfresh
  cases h
  refine ⟨hs.cache.write hfresh, hs.saved.write hfresh, fun q f hf => ?_, fun c result hreading f hf => ?_,
    fun q m hm => List.mem_cons_of_mem _ (hs.visiting q m hm), hs.whole⟩
  · rw [OrderedDict.get_set] at hf
    split_ifs at hf
    · cases hf
      exact List.mem_cons_self
    · exact List.mem_cons_of_mem _ (hs.vault q f hf)
  · have hne : p ≠ c.path := by
      rintro rfl
      have hcompiling : s.compiling = some (c, some result) := hreading
      simp [ReadsStably, hcompiling] at hok
    exact hs.compiling c result hreading f ((OrderedDict.get_set_ne _ _ hne).symm.trans hf)

theorem LifeInvariant.delete (hs : LifeInvariant nested extractor s) (p : VaultPath) :
    LifeInvariant nested extractor { s with vault := s.vault.erase p } := by
  have hkept : ∀ q f, (s.vault.erase p).get q = some f → s.vault.get q = some f := by
    intro q f hf
    rw [OrderedDict.get_erase] at hf
    split_ifs at hf
    exact hf
  exact ⟨hs.cache.delete p, hs.saved.delete p, fun q f hf => hs.vault q f (hkept q f hf),
    fun c result hreading f hf => hs.compiling c result hreading f (hkept c.path f hf), hs.visiting, hs.whole⟩

/-- What is read is the extraction of the file as it is now. -/
theorem LifeInvariant.extractRead (hs : LifeInvariant nested extractor s) {c : FileChange}
    (h : s.extractRead nested extractor c = some s') : LifeInvariant nested extractor s' := by
  unfold Life.extractRead at h
  split at h
  · cases h
  · dsimp only at h
    split_ifs at h
    · cases h
      refine { hs with cache := hs.cache.dropStale c, compiling := fun c' result hreading f hf => ?_ }
      simp only [Option.some.injEq, Prod.mk.injEq] at hreading
      obtain ⟨rfl, hresult⟩ := hreading
      rw [extract_readFile, expectedEntry, hf] at hresult
      exact hresult.symm
    · cases h
      exact { hs with cache := hs.cache.dropStale c }

/-- The modification time that a cold start is about to record is one that was given. -/
theorem LifeInvariant.coldStat [DecidableEq ν] (hs : LifeInvariant nested extractor s) {p : VaultPath}
    (h : s.coldStat p = some s') : LifeInvariant nested extractor s' := by
  unfold Life.coldStat at h
  split at h
  · rename_i file _ hfile
    split_ifs at h
    · cases h
      exact hs
    · cases h
      refine { hs with visiting := fun q m hm => ?_ }
      cases hm
      exact hs.vault p file hfile
  · cases h

theorem LifeInvariant.coldRead (hs : LifeInvariant nested extractor s) (h : s.coldRead extractor = some s') :
    LifeInvariant nested extractor s' := by
  unfold Life.coldRead at h
  split at h
  · rename_i p m hvisiting
    cases h
    refine { hs with cache := ?_, visiting := fun _ _ h => by cases h }
    rw [extract_readFile]
    cases hentry : expectedEntry extractor s.vault p with
    | none => exact hs.cache
    | some entry =>
      refine hs.cache.set p entry (some m) (fun t ht => ?_) (fun f hf => ?_)
      · cases ht
        exact hs.visiting p m hvisiting
      · rw [expectedEntry, hf] at hentry
        exact hentry.symm
  · cases h

/-- A new process has the saved cache, and has read nothing yet. -/
theorem LifeInvariant.restart (hs : LifeInvariant nested extractor s) :
    LifeInvariant nested extractor { s with cache := s.saved.loaded, compiling := none, visiting := none } := by
  refine { hs with cache := hs.saved, compiling := ?_, visiting := ?_ }
  · intro c result hnone
    cases hnone
  · intro p m hnone
    cases hnone

private theorem lifeInvariant_step [DecidableEq ν] {e : LifeEvent κ ν} (hok : ReadsStably e s)
    (hs : LifeInvariant nested extractor s) (h : Life.step nested extractor e s = some s') :
    LifeInvariant nested extractor s' := by
  cases e with
  | write p file => exact hs.write hok h
  | delete p =>
    cases h
    exact hs.delete p
  | extractRead c => exact hs.extractRead h
  | extractStat => exact hs.extractStat h
  | coldStat p => exact hs.coldStat h
  | coldRead => exact hs.coldRead h
  | coldDrop observed =>
    cases h
    exact { hs with cache := hs.cache.dropUnobserved observed }
  | save =>
    cases h
    exact { hs with saved := hs.cache, whole := by simp }
  | restart =>
    cases h
    exact hs.restart

end Events

/-- What the walk finds at a regular file of a vault that does not change. -/
def walkEntry (extractor : VaultPath → κ → Json ν) (vault : Vault κ ν) (p : VaultPath) : WalkEntry ν :=
  ⟨p, .ok false, .ok true, statFile vault p, readFile extractor vault p⟩

/-- A walk over a vault that does not change: it yields every file, and directories. -/
structure WalksOver (extractor : VaultPath → κ → Json ν) (vault : Vault κ ν) (walk : List (WalkEntry ν)) : Prop where
  only : ∀ entry ∈ walk, entry.isDir = .ok true ∨ ∃ p, (vault.get p).isSome = true ∧ entry = walkEntry extractor vault p
  every : ∀ p, (vault.get p).isSome = true → walkEntry extractor vault p ∈ walk

/-- The reconciliation so far: what was observed has its entry, the rest may be skipped
where its modification time is recorded. -/
structure ReconcileInvariant (nested : List String) (extractor : VaultPath → κ → Json ν) (vault : Vault κ ν)
    (r : Reconciliation ν) : Prop where
  sound : ∀ p, isExcluded nested p = false → SoundAt extractor vault r.cache p
  observed : ∀ p ∈ r.observed, isExcluded nested p = false ∧ r.cache.get p = expectedEntry extractor vault p

section Reconcile
variable [DecidableEq ν] {nested : List String} {extractor : VaultPath → κ → Json ν} {vault : Vault κ ν}
  {r : Reconciliation ν}

theorem ReconcileInvariant.visit (hsucceeds : Succeeds nested extractor) (hr : ReconcileInvariant nested extractor vault r)
    {p : VaultPath} (hp : isExcluded nested p = false) {file : File κ ν} (hfile : vault.get p = some file) :
    ∃ r', coldVisit nested (walkEntry extractor vault p) r = .done r' ∧ ReconcileInvariant nested extractor vault r' ∧
      r'.observed = r.observed ++ [p] := by
  have hsuffix : suffix p ∈ OBSERVED_SUFFIXES := by
    by_contra hnot
    simp [isExcluded, hnot] at hp
  obtain ⟨entry, hentry⟩ := Option.isSome_iff_exists.mp (hsucceeds p file.content hp)
  have hexpected : expectedEntry extractor vault p = some entry := by
    rw [expectedEntry, hfile]
    exact hentry
  by_cases hm : r.cache.mtime p = some file.mtime
  · refine ⟨⟨r.cache, r.observed ++ [p]⟩, by simp [coldVisit, walkEntry, hsuffix, hp, statFile, hfile, hm],
      ⟨hr.sound, fun q hq => ?_⟩, rfl⟩
    rcases List.mem_append.mp hq with hold | hnew
    · exact hr.observed q hold
    · obtain rfl := List.mem_singleton.mp hnew
      refine ⟨hp, (hr.sound q hp file hfile hm).trans ?_⟩
      rw [expectedEntry, hfile]
      rfl
  · refine ⟨⟨r.cache.set p entry (some file.mtime), r.observed ++ [p]⟩, ?_,
      ⟨fun q hq f hf hmtime => ?_, fun q hq => ?_⟩, rfl⟩
    · simp [coldVisit, walkEntry, hsuffix, hp, statFile, hfile, hm, extract_readFile, hexpected, storeAtMtime]
    · dsimp only at hmtime ⊢
      by_cases hpq : p = q
      · subst hpq
        cases hfile.symm.trans hf
        simp [ExtractionCache.get_set, hentry]
      · rw [ExtractionCache.mtime_set, if_neg hpq] at hmtime
        rw [ExtractionCache.get_set, if_neg hpq]
        exact hr.sound q hq f hf hmtime
    · dsimp only
      by_cases hpq : p = q
      · subst hpq
        exact ⟨hp, by simp [ExtractionCache.get_set, hexpected]⟩
      · rw [ExtractionCache.get_set, if_neg hpq]
        exact hr.observed q ((List.mem_append.mp hq).resolve_right (by simp [Ne.symm hpq]))

/-- The whole walk: it falls through, and observes what it was given. -/
theorem ReconcileInvariant.walk (hsucceeds : Succeeds nested extractor) {walk : List (WalkEntry ν)}
    (honly : ∀ entry ∈ walk, entry.isDir = .ok true ∨ ∃ p, (vault.get p).isSome = true ∧ entry = walkEntry extractor vault p)
    (hr : ReconcileInvariant nested extractor vault r) :
    ∃ r', Outcome.forEach (coldVisit nested) walk r = .done r' ∧ ReconcileInvariant nested extractor vault r' ∧
      (∀ p ∈ r.observed, p ∈ r'.observed) ∧
      ∀ p, isExcluded nested p = false → (vault.get p).isSome = true → walkEntry extractor vault p ∈ walk →
        p ∈ r'.observed := by
  induction walk generalizing r with
  | nil => exact ⟨r, rfl, hr, fun _ h => h, fun _ _ _ h => by cases h⟩
  | cons entry rest ih =>
    have hrest : ∀ e ∈ rest, e.isDir = .ok true ∨ ∃ p, (vault.get p).isSome = true ∧ e = walkEntry extractor vault p :=
      fun e he => honly e (List.mem_cons_of_mem _ he)
    -- one round: directories and excluded files are passed over
    have hround : ∃ mid, coldVisit nested entry r = .done mid ∧ ReconcileInvariant nested extractor vault mid ∧
        (∀ p ∈ r.observed, p ∈ mid.observed) ∧
        ∀ p, isExcluded nested p = false → (vault.get p).isSome = true → walkEntry extractor vault p = entry →
          p ∈ mid.observed := by
      rcases honly entry List.mem_cons_self with hdir | ⟨q, hq, rfl⟩
      · refine ⟨r, by simp [coldVisit, hdir], hr, fun _ h => h, ?_⟩
        rintro p - - rfl
        simp [walkEntry] at hdir
      · cases hex : isExcluded nested q with
        | true =>
          refine ⟨r, by simp [coldVisit, walkEntry, hex], hr, fun _ h => h, fun p hp _ he => ?_⟩
          obtain rfl : p = q := congrArg WalkEntry.path he
          simp [hex] at hp
        | false =>
          obtain ⟨file, hfile⟩ := Option.isSome_iff_exists.mp hq
          obtain ⟨mid, hvisit, hmid, hobserved⟩ := hr.visit hsucceeds hex hfile
          refine ⟨mid, hvisit, hmid, fun p hp => by simp [hobserved, hp], fun p _ _ he => ?_⟩
          obtain rfl : p = q := congrArg WalkEntry.path he
          simp [hobserved]
    obtain ⟨mid, hvisit, hmid, hkept, hnew⟩ := hround
    obtain ⟨r', hloop, hr', hkept', hnew'⟩ := ih hrest hmid
    refine ⟨r', by rw [Outcome.forEach_cons, hvisit, Outcome.andThen_done, hloop], hr', fun p hp => hkept' p (hkept p hp),
      fun p hp hthere hin => ?_⟩
    rcases List.mem_cons.mp hin with he | hin
    · exact hkept' p (hnew p hp hthere he)
    · exact hnew' p hp hthere hin

/-- From a cache that is sound, a cold start on a vault at rest ends with the entries of
that vault, whether or not the graph can be built and published. -/
theorem runColdStart_entries {γ τ : Type} (G : Graphify ν γ τ) (hsucceeds : Succeeds nested extractor)
    {walk : List (WalkEntry ν)} (hwalk : WalksOver extractor vault walk) {d : Daemon ν γ τ}
    (hsound : ∀ p, isExcluded nested p = false → SoundAt extractor vault d.cache p) (p : VaultPath) :
    (runColdStart G nested walk d).store.cache.get p =
      if isExcluded nested p then none else expectedEntry extractor vault p := by
  have hstart : ReconcileInvariant nested extractor vault ⟨d.cache, []⟩ := ⟨hsound, fun _ h => by cases h⟩
  obtain ⟨r, hloop, hr, -, hall⟩ := hstart.walk hsucceeds hwalk.only
  have hcache : (runColdStart G nested walk d).store.cache = dropUnobserved r.observed r.cache := by
    rw [runColdStart, hloop]
    dsimp only
    split
    · rfl
    · rw [Outcome.store_within]
  rw [hcache, get_dropUnobserved]
  by_cases ho : p ∈ r.observed
  · obtain ⟨hp, hentry⟩ := hr.observed p ho
    simp [ho, hp, hentry]
  · rw [if_neg ho]
    cases hp : isExcluded nested p with
    | true => rfl
    | false =>
      have hgone : (vault.get p).isSome = false := by
        rw [Bool.eq_false_iff]
        exact fun hthere => ho (hall p hp hthere (hwalk.every p hthere))
      simp [expectedEntry_eq_none extractor hgone]

end Reconcile

/-- The daemon that a new process builds, over what was saved. -/
def Daemon.restarted {γ τ : Type} (startedAt : Nat) (saved : SavedCache ν) : Daemon ν γ τ :=
  { Daemon.initial startedAt with graphCache := saved }

theorem coldStart_restarted [DecidableEq ν] {γ τ : Type} (G : Graphify ν γ τ) {nested : List String}
    {walk : List (WalkEntry ν)} {startedAt : Nat} {saved : SavedCache ν} (hwhole : saved ≠ .torn) :
    (Daemon.restarted startedAt saved).coldStart G nested walk =
      runColdStart G nested walk { Daemon.restarted startedAt saved with cache := saved.loaded } := by
  cases saved with
  | absent => rfl
  | intact cache => rfl
  | torn => exact absurd rfl hwhole

/-- After any life in which no file is written between its extraction and the `stat` that
follows, a cold start ends with the entries it would have without the saved cache. -/
theorem cold_start_skip_sound [DecidableEq ν] {γ τ : Type} (G : Graphify ν γ τ) {nested : List String}
    {extractor : VaultPath → κ → Json ν} (hsucceeds : Succeeds nested extractor) {vault : Vault κ ν}
    {events : List (LifeEvent κ ν)} {s : Life κ ν}
    (hstable : Along (Life.step nested extractor) ReadsStably events (.initial vault))
    (hrun : exec (Life.step nested extractor) events (.initial vault) = some s)
    {walk : List (WalkEntry ν)} (hwalk : WalksOver extractor s.vault walk) (startedAt : Nat) (p : VaultPath) :
    ((Daemon.restarted startedAt s.saved).coldStart G nested walk).store.cache.get p =
        (if isExcluded nested p then none else expectedEntry extractor s.vault p) ∧
      ((Daemon.restarted startedAt s.saved).coldStart G nested walk).store.cache.get p =
        ((Daemon.restarted startedAt .absent).coldStart G nested walk).store.cache.get p := by
  have hlife : LifeInvariant nested extractor s :=
    exec_invariant (LifeInvariant nested extractor) (fun _ _ _ hok hs hstep => lifeInvariant_step hok hs hstep)
      (lifeInvariant_initial vault) hstable hrun
  have hsaved := runColdStart_entries G hsucceeds hwalk
    (d := { Daemon.restarted startedAt s.saved with cache := s.saved.loaded }) hlife.saved.sound p
  have hempty := runColdStart_entries G hsucceeds hwalk
    (d := { Daemon.restarted startedAt .absent with cache := .empty }) (trusted_empty s.vault []).sound p
  rw [← coldStart_restarted G hlife.whole] at hsaved
  exact ⟨hsaved, hsaved.trans hempty.symm⟩

/-- A note is compiled, saved, written while the daemon is down, and compiled no more. -/
def writtenWhileDown : List (LifeEvent String Nat) :=
  [.write notePath ⟨"a", 1, 1⟩, .extractRead (.created notePath), .extractStat, .save, .restart, .write notePath ⟨"b", 2, 1⟩]

/-- A note is written between the read and the `stat` of its compile. -/
def writtenBeforeStat : List (LifeEvent String Nat) :=
  [.write notePath ⟨"a", 1, 1⟩, .extractRead (.created notePath), .write notePath ⟨"b", 2, 1⟩, .extractStat, .save]

def noteWalk (vault : Vault String Nat) : List (WalkEntry Nat) := [walkEntry titleExtractor vault notePath]

private theorem walksOver_noteWalk {vault : Vault String Nat} (h : vault.keys = [notePath]) :
    WalksOver titleExtractor vault (noteWalk vault) := by
  have hkeys : ∀ p, (vault.get p).isSome = true ↔ p = notePath := by
    intro p
    rw [← OrderedDict.mem_keys_iff, h, List.mem_singleton]
  constructor
  · intro entry hentry
    obtain rfl := List.mem_singleton.mp hentry
    exact .inr ⟨notePath, (hkeys notePath).mpr rfl, rfl⟩
  · intro p hp
    rw [(hkeys p).mp hp]
    exact List.mem_singleton.mpr rfl

theorem cold_start_skip_sound_writtenWhileDown :
    ∃ s, exec (Life.step [] titleExtractor) writtenWhileDown (.initial .empty) = some s ∧
      ((Daemon.restarted 0 s.saved).coldStart referenceGraphify [] (noteWalk s.vault)).store.cache.get notePath =
        extracted titleExtractor notePath "b" := by
  have hend : (exec (Life.step [] titleExtractor) writtenWhileDown (.initial .empty)).map
      (fun s => (s.vault.keys, s.vault.get notePath)) = some ([notePath], some ⟨"b", 2, 1⟩) := rfl
  obtain ⟨s, hrun, hs⟩ := Option.map_eq_some_iff.mp hend
  simp only [Prod.mk.injEq] at hs
  obtain ⟨hkeys, hnote⟩ := hs
  have hentry := (cold_start_skip_sound referenceGraphify (titleExtractor_succeeds []) (by decide) hrun
    (walksOver_noteWalk hkeys) 0 notePath).1
  rw [if_neg (by decide), expectedEntry, hnote] at hentry
  exact ⟨s, hrun, hentry⟩

/-- The old content is recorded with the new modification time, and the cold start skips
the note. -/
theorem cold_start_keeps_stale_entry :
    ∃ s, exec (Life.step [] titleExtractor) writtenBeforeStat (.initial .empty) = some s ∧
      WalksOver titleExtractor s.vault (noteWalk s.vault) ∧ s.vault.get notePath = some ⟨"b", 2, 1⟩ ∧
      ((Daemon.restarted 0 s.saved).coldStart referenceGraphify [] (noteWalk s.vault)).store.cache.get notePath =
        extracted titleExtractor notePath "a" ∧
      ((Daemon.restarted 0 .absent).coldStart referenceGraphify [] (noteWalk s.vault)).store.cache.get notePath =
        extracted titleExtractor notePath "b" ∧
      extracted titleExtractor notePath "a" ≠ extracted titleExtractor notePath "b" := by
  have hend : (exec (Life.step [] titleExtractor) writtenBeforeStat (.initial .empty)).map
      (fun s => (s.vault.keys, s.vault.get notePath,
        ((Daemon.restarted 0 s.saved).coldStart referenceGraphify [] (noteWalk s.vault)).store.cache.get notePath,
        ((Daemon.restarted 0 .absent).coldStart referenceGraphify [] (noteWalk s.vault)).store.cache.get notePath)) =
      some ([notePath], some ⟨"b", 2, 1⟩, extracted titleExtractor notePath "a", extracted titleExtractor notePath "b") := rfl
  obtain ⟨s, hrun, hs⟩ := Option.map_eq_some_iff.mp hend
  simp only [Prod.mk.injEq] at hs
  obtain ⟨hkeys, hnote, hsaved, habsent⟩ := hs
  exact ⟨s, hrun, walksOver_noteWalk hkeys, hnote, hsaved, habsent, by decide⟩

end GraphifyDaemon
