import GraphifyDaemon.ArtifactLifecycle.VaultIndex

/-! What a batch means for one path. The two passes go change by change over all paths;
here each is a fold over the batch of its effect on a single path. -/
namespace GraphifyDaemon
open Library

variable {ν : Type}

/-- Whether a change removes the state of `p` first, and whether it goes on to `p`. -/
def FileChange.drops (c : FileChange) (p : VaultPath) : Prop := c.stalePath = some p

def FileChange.reaches (nested : List String) (c : FileChange) (p : VaultPath) : Prop :=
  c.reachesPath nested = true ∧ c.path = p

instance (c : FileChange) (p : VaultPath) : Decidable (c.drops p) := inferInstanceAs (Decidable (_ = _))

instance (nested : List String) (c : FileChange) (p : VaultPath) : Decidable (c.reaches nested p) :=
  inferInstanceAs (Decidable (_ ∧ _))

/-- The extraction a change brings, if it succeeds. -/
def extractionOf (b : FileChange × Observation ν) : Option (PyDict ν) :=
  extractFileWithFailureIsolation b.2.extractor b.1.path

/-- One round of the extract pass on the entry of `p`: a failed extraction keeps the
entry there is. -/
def entryAfter (nested : List String) (p : VaultPath) (entry : Option (PyDict ν))
    (b : FileChange × Observation ν) : Option (PyDict ν) :=
  let entry := if b.1.drops p then none else entry
  if b.1.reaches nested p then (extractionOf b).or entry else entry

/-- The entry of `p` after the extract pass. -/
def finalEntry (nested : List String) (batch : List (FileChange × Observation ν)) (p : VaultPath)
    (entry : Option (PyDict ν)) : Option (PyDict ν) :=
  batch.foldl (entryAfter nested p) entry

/-- One round of the index pass on the row of `p`, with the cache the extract pass left. -/
def rowAfter [Zero ν] (nested : List String) (cache : ExtractionCache ν) (p : VaultPath)
    (row : Option (Row ν)) (b : FileChange × Observation ν) : Option (Row ν) :=
  let row := if b.1.drops p then none else row
  if b.1.reaches nested p then (rowFor (cache.get p) b.2.syncStat).toOption else row

/-- The row of `p` after the index pass. -/
def finalRow [Zero ν] (nested : List String) (batch : List (FileChange × Observation ν))
    (cache : ExtractionCache ν) (p : VaultPath) (row : Option (Row ν)) : Option (Row ν) :=
  batch.foldl (rowAfter nested cache p) row

theorem get_dropStale (c : FileChange) (cache : ExtractionCache ν) (p : VaultPath) :
    (dropStale c cache).get p = if c.drops p then none else cache.get p := by
  unfold dropStale
  split
  · rename_i q hq
    simp [FileChange.drops, hq, ExtractionCache.get_delete]
  · rename_i hnone
    simp [FileChange.drops, hnone]

theorem mtime_dropStale (c : FileChange) (cache : ExtractionCache ν) (p : VaultPath) :
    (dropStale c cache).mtime p = if c.drops p then none else cache.mtime p := by
  unfold dropStale
  split
  · rename_i q hq
    simp [FileChange.drops, hq, ExtractionCache.mtime_delete]
  · rename_i hnone
    simp [FileChange.drops, hnone]

theorem storeResult_get {q : VaultPath} {result : Option (PyDict ν)} {stat : StatOutcome ν}
    {cache cache' : ExtractionCache ν} (h : storeResult q result stat cache = .done cache')
    (p : VaultPath) : cache'.get p = if q = p then result.or (cache.get p) else cache.get p := by
  unfold storeResult at h
  cases result with
  | none =>
    cases h
    simp
  | some r =>
    cases stat with
    | found m size =>
      cases h
      simp [ExtractionCache.get_set]
    | missing =>
      cases h
      simp [ExtractionCache.get_set]
    | failed e => cases h

theorem storeResult_mtime_ne {q : VaultPath} {result : Option (PyDict ν)} {stat : StatOutcome ν}
    {cache cache' : ExtractionCache ν} (h : storeResult q result stat cache = .done cache')
    {p : VaultPath} (hne : q ≠ p) : cache'.mtime p = cache.mtime p := by
  unfold storeResult at h
  split at h
  · cases h
    rfl
  · split at h
    · cases h
      simp [ExtractionCache.mtime_set, hne]
    · cases h
      simp [ExtractionCache.mtime_set, hne]
    · cases h

private theorem extractChange_get {nested : List String} {b : FileChange × Observation ν}
    {cache cache' : ExtractionCache ν} (h : extractChange nested b.1 b.2 cache = .done cache')
    (p : VaultPath) : cache'.get p = entryAfter nested p (cache.get p) b := by
  unfold extractChange at h
  unfold entryAfter FileChange.reaches
  split_ifs at h with hr
  · rw [storeResult_get h p, get_dropStale]
    by_cases hp : b.1.path = p
    · simp [hp, hr, extractionOf]
    · simp [hp]
  · cases h
    simp [hr, get_dropStale]

/-- The extract pass, path by path. -/
theorem extractBatch_get {nested : List String} {batch : List (FileChange × Observation ν)}
    {cache cache' : ExtractionCache ν} (h : extractBatch nested batch cache = .done cache')
    (p : VaultPath) : cache'.get p = finalEntry nested batch p (cache.get p) :=
  Outcome.forEach_part (fun c => c.get p)
    (fun _ _ _ _ hbody => extractChange_get hbody p) h

theorem syncChange_get [Zero ν] {nested : List String} {cache : ExtractionCache ν}
    {b : FileChange × Observation ν} {files files' : FilesTable ν}
    (h : syncChange nested cache b.1 b.2 files = .done files') (p : VaultPath) :
    files'.get p = rowAfter nested cache p (files.get p) b := by
  unfold syncChange at h
  obtain ⟨mid, hclean, hrest⟩ := Outcome.andThen_eq_done.mp h
  have hmid : mid.get p = if b.1.drops p then none else files.get p := by
    unfold deleteStaleRow at hclean
    split at hclean
    · rename_i q hq
      unfold deleteRow at hclean
      split at hclean
      · cases hclean
      · cases hclean
        simp [FileChange.drops, hq, OrderedDict.get_erase]
    · rename_i hnone
      cases hclean
      simp [FileChange.drops, hnone]
  unfold rowAfter FileChange.reaches
  split_ifs at hrest with hr
  · cases hrow : rowFor (cache.get b.1.path) b.2.syncStat with
    | error e => simp [hrow] at hrest
    | ok row =>
      simp only [hrow, upsertRow] at hrest
      split at hrest
      · cases hrest
      · cases hrest
        rw [OrderedDict.get_set, hmid]
        by_cases hp : b.1.path = p
        · subst hp
          simp [hr, hrow, Except.toOption]
        · simp [hp]
  · cases hrest
    simp [hr, hmid]

/-- A change that goes on to its own path writes the row computed for it. -/
theorem syncChange_row [Zero ν] {nested : List String} {cache : ExtractionCache ν} {c : FileChange}
    {seen : Observation ν} {files files' : FilesTable ν} (h : syncChange nested cache c seen files = .done files')
    (hreach : c.reachesPath nested = true) :
    ∃ row, rowFor (cache.get c.path) seen.syncStat = .ok row ∧ files'.get c.path = some row := by
  obtain ⟨mid, -, hrest⟩ := Outcome.andThen_eq_done.mp h
  cases hrow : rowFor (cache.get c.path) seen.syncStat with
  | error e => simp [hreach, hrow] at hrest
  | ok row =>
    simp only [hreach, hrow, if_true, upsertRow] at hrest
    split at hrest
    · cases hrest
    · cases hrest
      exact ⟨row, rfl, OrderedDict.get_set_self _ _ _⟩

/-- Whether `p` is stored after a change, given whether it was before. -/
def presentAfter (nested : List String) (p : VaultPath) (present : Bool) (c : FileChange) : Bool :=
  if c.reaches nested p then true else if c.drops p then false else present

/-- A row is written whatever the file system answers, if nothing is raised. -/
theorem syncChange_present [Zero ν] {nested : List String} {cache : ExtractionCache ν}
    {b : FileChange × Observation ν} {files files' : FilesTable ν}
    (h : syncChange nested cache b.1 b.2 files = .done files') (p : VaultPath) :
    (files'.get p).isSome = presentAfter nested p (files.get p).isSome b.1 := by
  by_cases hr : b.1.reaches nested p
  · obtain ⟨hreaches, rfl⟩ := hr
    obtain ⟨row, -, hrow⟩ := syncChange_row h hreaches
    simp [presentAfter, FileChange.reaches, hreaches, hrow]
  · rw [syncChange_get h p]
    by_cases hd : b.1.drops p <;> simp [rowAfter, presentAfter, hr, hd]

theorem syncBatch_present [Zero ν] {nested : List String} {batch : List (FileChange × Observation ν)}
    {cache : ExtractionCache ν} {commitFault : Option PyError} {files files' : FilesTable ν}
    (h : syncBatch nested batch cache commitFault files = .done files') (p : VaultPath) :
    (files'.get p).isSome = batch.foldl (fun present b => presentAfter nested p present b.1) (files.get p).isSome :=
  Outcome.forEach_part (fun f => (f.get p).isSome)
    (fun _ _ _ _ hbody => syncChange_present hbody p) (Outcome.transaction_eq_done.mp h).1

/-- The index pass, path by path. -/
theorem syncBatch_get [Zero ν] {nested : List String} {batch : List (FileChange × Observation ν)}
    {cache : ExtractionCache ν} {commitFault : Option PyError} {files files' : FilesTable ν}
    (h : syncBatch nested batch cache commitFault files = .done files') (p : VaultPath) :
    files'.get p = finalRow nested batch cache p (files.get p) :=
  Outcome.forEach_part (fun f => f.get p)
    (fun _ _ _ _ hbody => syncChange_get hbody p) (Outcome.transaction_eq_done.mp h).1

end GraphifyDaemon
