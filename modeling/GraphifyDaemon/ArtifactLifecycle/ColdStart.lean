import GraphifyDaemon.Daemon.Compile

/-! Cold-start reconciliation: the walk over the vault, the mtime comparison and the
initial snapshot. -/
namespace GraphifyDaemon
open Library

variable {ν γ τ : Type}

/-- What `load` gives a new process. -/
def SavedCache.loaded : SavedCache ν → ExtractionCache ν
  | .intact cache => cache
  | .absent | .torn => .empty

/-- One path yielded by `rglob`, with what the calls on it answer: `is_dir`, whether
`resolve_within_vault` accepts it, `stat` and the extractor. -/
structure WalkEntry (ν : Type) where
  path : VaultPath
  isDir : Except PyError Bool
  confined : Except PyError Bool
  stat : StatOutcome ν
  extractor : Except PyError (Json ν)

/-- The cache being reconciled, and the set `observed`. -/
structure Reconciliation (ν : Type) where
  cache : ExtractionCache ν
  observed : List VaultPath

/-- `cache.set` with the modification time read before the file was, when the
extraction succeeded. -/
def storeAtMtime (p : VaultPath) (m : ν) (result : Option (PyDict ν)) (cache : ExtractionCache ν) :
    ExtractionCache ν :=
  match result with
  | none => cache
  | some r => cache.set p r (some m)

theorem get_storeAtMtime (p q : VaultPath) (m : ν) (result : Option (PyDict ν)) (cache : ExtractionCache ν) :
    (storeAtMtime p m result cache).get q = if p = q then result.or (cache.get q) else cache.get q := by
  cases result with
  | none => simp [storeAtMtime]
  | some r => simp [storeAtMtime, ExtractionCache.get_set]

theorem mtime_storeAtMtime_ne {p q : VaultPath} (h : p ≠ q) (m : ν) (result : Option (PyDict ν))
    (cache : ExtractionCache ν) : (storeAtMtime p m result cache).mtime q = cache.mtime q := by
  cases result with
  | none => rfl
  | some r => simp [storeAtMtime, ExtractionCache.mtime_set, h]

/-- One round of the walk. Only the extraction is isolated: any other call may raise. -/
def coldVisit [DecidableEq ν] (nested : List String) (entry : WalkEntry ν) (r : Reconciliation ν) :
    Outcome PyError (Reconciliation ν) :=
  match entry.isDir with
  | .error e => .raised e r
  | .ok isDir =>
    if isDir ∨ suffix entry.path ∉ OBSERVED_SUFFIXES then .done r
    else if isExcluded nested entry.path then .done r
    else match entry.confined with
      | .error e => .raised e r
      | .ok false => .done r
      | .ok true =>
        let r := { r with observed := r.observed ++ [entry.path] }
        match entry.stat with
        | .missing => .raised .fileNotFoundError r
        | .failed e => .raised e r
        | .found m _ =>
          if r.cache.mtime entry.path = some m then .done r
          else
            let result := extractFileWithFailureIsolation entry.extractor entry.path
            .done { r with cache := storeAtMtime entry.path m result r.cache }

def dropUnobserved (observed : List VaultPath) (cache : ExtractionCache ν) : ExtractionCache ν :=
  (cache.entries.keys.filter (fun p => p ∉ observed)).foldl ExtractionCache.delete cache

/-- The module's `cold_start`. -/
def runColdStart [DecidableEq ν] (G : Graphify ν γ τ) (nested : List String) (walk : List (WalkEntry ν))
    (d : Daemon ν γ τ) : Outcome PyError (Daemon ν γ τ) :=
  match Outcome.forEach (coldVisit nested) walk ⟨d.cache, []⟩ with
  | .raised e r => .raised e { d with cache := r.cache }
  | .done r =>
    let d := { d with cache := dropUnobserved r.observed r.cache }
    match buildGraph G d.cache with
    | .error e => .raised e d
    | .ok graph => (d.holder.publish G graph .empty).within (fun h => { d with holder := h })

def Daemon.coldStart [DecidableEq ν] (G : Graphify ν γ τ) (nested : List String)
    (walk : List (WalkEntry ν)) (d : Daemon ν γ τ) : Outcome PyError (Daemon ν γ τ) :=
  match d.graphCache with
  | .absent => runColdStart G nested walk d
  | .intact cache => runColdStart G nested walk { d with cache := cache }
  | .torn => .raised .valueError d

theorem dropUnobserved_at (observed : List VaultPath) (cache : ExtractionCache ν) (p : VaultPath) :
    (dropUnobserved observed cache).get p = (if p ∈ observed then cache.get p else none) ∧
    (dropUnobserved observed cache).mtime p =
      if p ∈ observed ∨ cache.get p = none then cache.mtime p else none := by
  have hdelete : ∀ (ks : List VaultPath) (c : ExtractionCache ν),
      (ks.foldl ExtractionCache.delete c).get p = (if p ∈ ks then none else c.get p) ∧
      (ks.foldl ExtractionCache.delete c).mtime p = if p ∈ ks then none else c.mtime p := by
    intro ks
    induction ks with
    | nil => simp
    | cons k ks ih =>
      intro c
      rw [List.foldl_cons, (ih _).1, (ih _).2, ExtractionCache.get_delete, ExtractionCache.mtime_delete]
      by_cases hk : k = p
      · simp [hk]
      · have hne : ¬ p = k := fun he => hk he.symm
        simp [hk, hne]
  have hkey : p ∈ cache.entries.keys ↔ (cache.get p).isSome = true := OrderedDict.mem_keys_iff cache.entries p
  rw [dropUnobserved, (hdelete _ _).1, (hdelete _ _).2]
  by_cases ho : p ∈ observed
  · simp [ho]
  · cases hg : cache.get p with
    | none => simp [ho, hkey, hg]
    | some result => simp [ho, hkey, hg]

theorem get_dropUnobserved (observed : List VaultPath) (cache : ExtractionCache ν) (p : VaultPath) :
    (dropUnobserved observed cache).get p = if p ∈ observed then cache.get p else none :=
  (dropUnobserved_at observed cache p).1

theorem coldStart_published [DecidableEq ν] {G : Graphify ν γ τ} {nested : List String}
    {walk : List (WalkEntry ν)} {d d' : Daemon ν γ τ} (h : d.coldStart G nested walk = .done d') :
    ∃ graph index, buildGraph G d'.cache = .ok graph ∧
      d'.holder = ⟨some ⟨graph, index, .empty, d.holder.nextVersion⟩, d.holder.nextVersion + 1⟩ := by
  have hrun : ∃ start : Daemon ν γ τ, start.holder = d.holder ∧ runColdStart G nested walk start = .done d' := by
    unfold Daemon.coldStart at h
    split at h
    · exact ⟨d, rfl, h⟩
    · rename_i cache _
      exact ⟨{ d with cache := cache }, rfl, h⟩
    · cases h
  obtain ⟨start, hholder, hstart⟩ := hrun
  unfold runColdStart at hstart
  split at hstart
  · cases hstart
  · rename_i r hr
    dsimp only at hstart
    split at hstart
    · cases hstart
    · rename_i graph hgraph
      cases hp : start.holder.publish G graph .empty with
      | raised e holder => simp [hp] at hstart
      | done holder =>
        obtain ⟨index, -, rfl⟩ := publish_eq_done.mp hp
        simp only [hp, Outcome.within_done, Outcome.done.injEq] at hstart
        subst hstart
        exact ⟨graph, index, hgraph, by rw [hholder]⟩

/-- A cold start that completes publishes a graph with no communities yet. -/
theorem coldStart_done [DecidableEq ν] {G : Graphify ν γ τ} {nested : List String}
    {walk : List (WalkEntry ν)} {d d' : Daemon ν γ τ} (h : d.coldStart G nested walk = .done d') :
    ∃ current, d'.holder.current = some current ∧ current.communityMap = .empty ∧
      buildGraph G d'.cache = .ok current.graph := by
  obtain ⟨graph, index, hgraph, hholder⟩ := coldStart_published h
  rw [hholder]
  exact ⟨_, rfl, rfl, hgraph⟩

end GraphifyDaemon
