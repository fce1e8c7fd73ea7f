import GraphifyDaemon.ArtifactLifecycle.SavedCache
import GraphifyDaemon.Library.Trace

/-! The `files` table over the lives of the daemon on one output directory. Batches write
to it and the cold start does not, so whether it fits the cache of a new life is up to what
the last one left and what happened to the vault since. -/
namespace GraphifyDaemon
open Library Library.Trace

variable {ν γ τ : Type}

/-- The daemon, while one runs, and what the output directory holds between two lives. -/
structure Lifetimes (ν γ τ : Type) where
  daemon : Option (Daemon ν γ τ)
  files : FilesTable ν
  graphCache : SavedCache ν

inductive LifetimeEvent (ν : Type) where
  | coldStart (walk : List (WalkEntry ν)) (startedAt : Nat)
  | batch (batch : List (FileChange × Observation ν)) (seen : CompileObservation)
  | cadence (seen : CadenceObservation)
  | shutdown
  | kill (duringSave : Bool)

namespace Lifetimes

def initial : Lifetimes ν γ τ := ⟨none, .empty, .absent⟩

def ended (d : Daemon ν γ τ) : Lifetimes ν γ τ := ⟨none, d.files, d.graphCache⟩

/-- `Daemon.__init__` on an output directory that may have files already. -/
def newDaemon (startedAt : Nat) (s : Lifetimes ν γ τ) : Daemon ν γ τ :=
  { Daemon.initial startedAt with files := s.files, graphCache := s.graphCache }

/-- Batches and cycles complete; a cold start that raises ends its process. `rglob` yields
no path twice. -/
def step [Zero ν] [DecidableEq ν] (G : Graphify ν γ τ) (nested : List String) :
    LifetimeEvent ν → Lifetimes ν γ τ → Option (Lifetimes ν γ τ)
  | .coldStart walk startedAt, s => match s.daemon with
    | some _ => none
    | none =>
      if (walk.map WalkEntry.path).Nodup then
        match (s.newDaemon startedAt).coldStart G nested walk with
        | .done d => some { s with daemon := some d }
        | .raised _ _ => some s
      else none
  | .batch batch seen, s => match s.daemon with
    | none => none
    | some d => match compileBatch G nested batch seen d with
      | .done d => some { s with daemon := some d }
      | .raised _ _ => none
  | .cadence seen, s => match s.daemon with
    | none => none
    | some d => match runSlowCadenceCycle G seen d with
      | .done d => some { s with daemon := some d }
      | .raised _ _ => none
  | .shutdown, s => s.daemon.map fun d => ended { d with graphCache := .intact d.cache }
  | .kill duringSave, s => s.daemon.map fun d => ended { d with graphCache := if duringSave then .torn else d.graphCache }

end Lifetimes

/-- The numbers of the row are the lengths of the result's nodes and edges. -/
def Row.Counts (row : Row ν) (result : PyDict ν) : Prop :=
  (Json.getList "nodes" result).len = .ok row.nodeCount ∧ (Json.getList "edges" result).len = .ok row.edgeCount

/-- There is a row just when there is a result, and it counts that result. -/
def RowMatches : Option (Row ν) → Option (PyDict ν) → Prop
  | none, none => True
  | some row, some result => row.Counts result
  | none, some _ | some _, none => False

/-- The table is the index of the cache. -/
def Indexed (d : Daemon ν γ τ) : Prop := ∀ p, RowMatches (d.files.get p) (d.cache.get p)

/-- The result that a file of the vault has once the walk has passed it. -/
def keptResult [DecidableEq ν] (loaded : ExtractionCache ν) (file : SeenFile ν) : Option (PyDict ν) :=
  if loaded.mtime file.path = some file.mtime then loaded.get file.path
  else file.result.or (loaded.get file.path)

/-- The table has been brought up to date with the vault by someone else. -/
structure TableFits [DecidableEq ν] (files : FilesTable ν) (loaded : ExtractionCache ν) (seen : List (SeenFile ν)) :
    Prop where
  visited : ∀ file ∈ seen, RowMatches (files.get file.path) (keptResult loaded file)
  others : ∀ p, p ∉ seen.map SeenFile.path → files.get p = none

/-- Where nothing was indexed yet, that takes a vault in which there is nothing to index. -/
theorem tableFits_empty_iff [DecidableEq ν] {seen : List (SeenFile ν)} :
    TableFits .empty .empty seen ↔ ∀ file ∈ seen, file.result = none := by
  have hkept : ∀ file : SeenFile ν, keptResult .empty file = file.result := by
    intro file
    simp [keptResult]
  constructor
  · intro h file hfile
    have hmatches := h.visited file hfile
    rw [hkept] at hmatches
    cases hresult : file.result with
    | none => rfl
    | some result =>
      rw [hresult] at hmatches
      exact hmatches.elim
  · intro h
    refine ⟨fun file hfile => ?_, fun p _ => rfl⟩
    rw [hkept, h file hfile]
    trivial

section Walk

private theorem observe_path {nested : List String} {entry : WalkEntry ν} {file : SeenFile ν}
    (h : observe nested entry = .ok (some file)) : file.path = entry.path := by
  unfold observe at h
  split at h
  · cases h
  · split_ifs at h
    · cases h
    · cases h
    · split at h
      · cases h
      · cases h
      · split at h <;> cases h
        rfl

private theorem observeWalk_sublist {nested : List String} {walk : List (WalkEntry ν)} {seen : List (SeenFile ν)}
    (h : observeWalk nested walk = .ok seen) : (seen.map SeenFile.path).Sublist (walk.map WalkEntry.path) := by
  induction walk generalizing seen with
  | nil =>
    cases h
    exact List.Sublist.slnil
  | cons entry rest ih =>
    unfold observeWalk at h
    split at h
    · cases h
    · rename_i first hfirst
      split at h
      · cases h
      · rename_i later hlater
        cases h
        cases first with
        | none => exact (ih hlater).cons _
        | some file =>
          have hpath := observe_path hfirst
          simpa [hpath] using ih hlater

variable [DecidableEq ν]

theorem refresh_get_ne (cache : ExtractionCache ν) {file : SeenFile ν} {p : VaultPath} (h : file.path ≠ p) :
    (refresh cache file).get p = cache.get p ∧ (refresh cache file).mtime p = cache.mtime p := by
  unfold refresh storeAtMtime
  split_ifs
  · exact ⟨rfl, rfl⟩
  · cases file.result with
    | none => exact ⟨rfl, rfl⟩
    | some result => simp [ExtractionCache.get_set, ExtractionCache.mtime_set, h]

theorem refresh_get_self (cache : ExtractionCache ν) (file : SeenFile ν) :
    (refresh cache file).get file.path = keptResult cache file := by
  unfold refresh keptResult storeAtMtime
  split_ifs
  · rfl
  · cases file.result with
    | none => rfl
    | some result => simp [ExtractionCache.get_set]

/-- A file that is visited once has the result of its visit, and any other keeps its own. -/
theorem foldl_refresh_get {seen : List (SeenFile ν)} (hnodup : (seen.map SeenFile.path).Nodup) (cache : ExtractionCache ν) :
    (∀ file ∈ seen, (seen.foldl refresh cache).get file.path = keptResult cache file) ∧
      ∀ p, p ∉ seen.map SeenFile.path → (seen.foldl refresh cache).get p = cache.get p := by
  induction seen generalizing cache with
  | nil => simp
  | cons first rest ih =>
    obtain ⟨hfirst, hrest⟩ := List.nodup_cons.mp hnodup
    obtain ⟨hvisited, hothers⟩ := ih hrest (refresh cache first)
    refine ⟨fun file hfile => ?_, fun p hp => ?_⟩
    · rcases List.mem_cons.mp hfile with rfl | hlater
      · rw [List.foldl_cons, hothers _ hfirst, refresh_get_self]
      · have hne : first.path ≠ file.path := fun he => hfirst (he ▸ List.mem_map_of_mem hlater)
        obtain ⟨hget, hmtime⟩ := refresh_get_ne cache hne
        rw [List.foldl_cons, hvisited file hlater, keptResult, keptResult, hget, hmtime]
    · rw [List.map_cons, List.mem_cons, not_or] at hp
      rw [List.foldl_cons, hothers p hp.2, (refresh_get_ne cache (Ne.symm hp.1)).1]

/-- A file that was not seen has no entry any more; one that was has the result of its visit. -/
theorem indexed_iff_fits {d : Daemon ν γ τ} {loaded : ExtractionCache ν} {files : FilesTable ν} {seen : List (SeenFile ν)}
    (hnodup : (seen.map SeenFile.path).Nodup) (hfiles : d.files = files)
    (hcache : d.cache = dropUnobserved (seen.map SeenFile.path) (seen.foldl refresh loaded)) :
    Indexed d ↔ TableFits files loaded seen := by
  obtain ⟨hvisited, -⟩ := foldl_refresh_get hnodup loaded
  have hseen : ∀ file ∈ seen, d.cache.get file.path = keptResult loaded file := by
    intro file hfile
    rw [hcache, get_dropUnobserved, if_pos (List.mem_map_of_mem hfile), hvisited file hfile]
  have hunseen : ∀ p, p ∉ seen.map SeenFile.path → d.cache.get p = none := by
    intro p hp
    rw [hcache, get_dropUnobserved, if_neg hp]
  constructor
  · intro h
    refine ⟨fun file hfile => ?_, fun p hp => ?_⟩
    · rw [← hfiles, ← hseen file hfile]
      exact h file.path
    · have hmatches := h p
      rw [hunseen p hp, hfiles] at hmatches
      cases hrow : files.get p with
      | none => rfl
      | some row =>
        rw [hrow] at hmatches
        exact hmatches.elim
  · intro h p
    rw [hfiles]
    by_cases hp : p ∈ seen.map SeenFile.path
    · obtain ⟨file, hfile, rfl⟩ := List.mem_map.mp hp
      rw [hseen file hfile]
      exact h.visited file hfile
    · rw [hunseen p hp, h.others p hp]
      trivial

end Walk

section Lives
variable [Zero ν] [DecidableEq ν] (G : Graphify ν γ τ) (nested : List String)

/-- After a cold start that completes, the table is the index of the cache. -/
def IndexedAfter : LifetimeEvent ν → Lifetimes ν γ τ → Prop
  | .coldStart walk startedAt, s => ∀ s' d, Lifetimes.step G nested (.coldStart walk startedAt) s = some s' →
      s'.daemon = some d → Indexed d
  | .batch _ _, _ | .cadence _, _ | .shutdown, _ | .kill _, _ => True

/-- A cold start that completes has found the table as it should be. -/
def FitsBefore : LifetimeEvent ν → Lifetimes ν γ τ → Prop
  | .coldStart walk startedAt, s =>
      (∃ s' d, Lifetimes.step G nested (.coldStart walk startedAt) s = some s' ∧ s'.daemon = some d) →
        ∀ seen, observeWalk nested walk = .ok seen → TableFits s.files s.graphCache.loaded seen
  | .batch _ _, _ | .cadence _, _ | .shutdown, _ | .kill _, _ => True

variable {G nested}

/-- What a cold start that completes has done: the cache is the loaded one after the walk, and
the table is as it was. -/
theorem coldStart_step {walk : List (WalkEntry ν)} {startedAt : Nat} {s s' : Lifetimes ν γ τ} {d : Daemon ν γ τ}
    (hstep : Lifetimes.step G nested (.coldStart walk startedAt) s = some s') (hd : s'.daemon = some d) :
    ∃ seen, observeWalk nested walk = .ok seen ∧ (seen.map SeenFile.path).Nodup ∧ d.files = s.files ∧
      d.cache = dropUnobserved (seen.map SeenFile.path) (seen.foldl refresh s.graphCache.loaded) := by
  simp only [Lifetimes.step] at hstep
  split at hstep
  · cases hstep
  · rename_i hnone
    split_ifs at hstep with hnodup
    split at hstep
    · rename_i started hstarted
      cases hstep
      cases hd
      have hrun : ∃ start : Daemon ν γ τ, start.cache = s.graphCache.loaded ∧ start.files = s.files ∧
          runColdStart G nested walk start = .done d := by
        unfold Daemon.coldStart Lifetimes.newDaemon at hstarted
        cases hsaved : s.graphCache with
        | absent =>
          rw [hsaved] at hstarted
          exact ⟨_, rfl, rfl, hstarted⟩
        | intact cache =>
          rw [hsaved] at hstarted
          exact ⟨_, rfl, rfl, hstarted⟩
        | torn =>
          rw [hsaved] at hstarted
          cases hstarted
      obtain ⟨start, hcache, hfiles, hbuilt⟩ := hrun
      obtain ⟨seen, hseen, graph, -, holder, -, rfl⟩ := (runColdStart_built G).mp hbuilt
      exact ⟨seen, hseen, (observeWalk_sublist hseen).nodup hnodup, hfiles, by rw [← hcache]⟩
    · cases hstep
      rw [hnone] at hd
      cases hd

/-- In a run of lives every cold start leaves the table indexing the cache, exactly when every
cold start finds it so. -/
theorem index_rebuilt_iff (events : List (LifetimeEvent ν)) :
    Along (Lifetimes.step G nested) (IndexedAfter G nested) events .initial ↔
      Along (Lifetimes.step G nested) (FitsBefore G nested) events .initial := by
  have hevent : ∀ (e : LifetimeEvent ν) (s : Lifetimes ν γ τ), IndexedAfter G nested e s ↔ FitsBefore G nested e s := by
    intro e s
    cases e with
    | batch | cadence | shutdown | kill => exact Iff.rfl
    | coldStart walk startedAt =>
      constructor
      · rintro h ⟨s', d, hstep, hd⟩ seen hseen
        obtain ⟨seen', hseen', hnodup, hfiles, hcache⟩ := coldStart_step hstep hd
        obtain rfl : seen = seen' := Except.ok.inj (hseen.symm.trans hseen')
        exact (indexed_iff_fits hnodup hfiles hcache).mp (h s' d hstep hd)
      · intro h s' d hstep hd
        obtain ⟨seen, hseen, hnodup, hfiles, hcache⟩ := coldStart_step hstep hd
        exact (indexed_iff_fits hnodup hfiles hcache).mpr (h ⟨s', d, hstep, hd⟩ seen hseen)
  exact along_congr hevent events .initial

end Lives

def freshDirectory : List (LifetimeEvent Nat) := [.coldStart noteWalked 0]

/-- A note is compiled and deleted again once the daemon is down. -/
def deletedWhileDown : List (LifetimeEvent Nat) :=
  [.coldStart [] 0, .batch [(.created notePath, .calm (oneNode "a") 1)] .calm, .shutdown, .coldStart [] 100]

theorem index_not_rebuilt :
    (∃ d : Daemon Nat ReferenceGraph Unit,
      (exec (Lifetimes.step referenceGraphify []) freshDirectory .initial).map Lifetimes.daemon = some (some d) ∧
        d.cache.entries.keys = [notePath] ∧ d.files.keys = []) ∧
    (∃ d : Daemon Nat ReferenceGraph Unit,
      (exec (Lifetimes.step referenceGraphify []) deletedWhileDown .initial).map Lifetimes.daemon = some (some d) ∧
        d.cache.entries.keys = [] ∧ d.files.keys = [notePath]) ∧
    ¬ Along (Lifetimes.step referenceGraphify []) (IndexedAfter referenceGraphify []) freshDirectory .initial := by
  refine ⟨⟨_, rfl, rfl, rfl⟩, ⟨_, rfl, rfl, rfl⟩, fun h => ?_⟩
  have hindexed := h.1 _ _ rfl rfl notePath
  exact hindexed

end GraphifyDaemon
