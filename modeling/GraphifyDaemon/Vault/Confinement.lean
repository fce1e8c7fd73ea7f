import GraphifyDaemon.ArtifactLifecycle.ColdStart
import GraphifyDaemon.Library.FileTree
import GraphifyDaemon.Library.Trace
import GraphifyDaemon.Vault.FileSystem

/-! Where the files lie that the daemon reads, in a file tree whose links may be moved and
replaced between any check and the read it is meant for. -/
namespace GraphifyDaemon
open Library Library.Trace

variable {ν κ : Type}

/-- `Path.resolve(strict=False)` -/
def resolve (tree : FileTree κ) (path : AbsolutePath) : Except PyError AbsolutePath :=
  match tree.realpath path with
  | some location => .ok location
  | none => .error .runtimeError

def VaultPath.within (vaultRoot : AbsolutePath) (p : VaultPath) : AbsolutePath := vaultRoot ++ p.parts

/-- A file that was read: its path, what the vault root and the path led to, its content. -/
structure ReadRecord (κ : Type) where
  path : VaultPath
  root : Option AbsolutePath
  location : AbsolutePath
  content : κ

def ReadRecord.Confined (record : ReadRecord κ) : Prop := ∃ root, record.root = some root ∧ root <+: record.location

/-- What reading a path would find. -/
def recordAt (tree : FileTree κ) (vaultRoot : AbsolutePath) (p : VaultPath) : Option (ReadRecord κ) :=
  (tree.fileAt (p.within vaultRoot)).map fun found => ⟨p, tree.realpath vaultRoot, found.1, found.2⟩

/-- A path that leads to no file outside the vault. -/
def ConfinedAt (tree : FileTree κ) (vaultRoot : AbsolutePath) (p : VaultPath) : Prop :=
  ∀ record ∈ recordAt tree vaultRoot p, record.Confined

instance (record : ReadRecord κ) : Decidable record.Confined :=
  match h : record.root with
  | some root => decidable_of_iff (root <+: record.location) (by simp [ReadRecord.Confined, h])
  | none => isFalse (by simp [ReadRecord.Confined, h])

instance (tree : FileTree κ) (vaultRoot : AbsolutePath) (p : VaultPath) : Decidable (ConfinedAt tree vaultRoot p) :=
  inferInstanceAs (Decidable (∀ record ∈ recordAt tree vaultRoot p, record.Confined))

/-- Where there are no links the check accepts every path. -/
theorem resolveWithinVault_of_plain {tree : FileTree κ} {vaultRoot : AbsolutePath} {p : VaultPath}
    (h : tree.Plain (p.within vaultRoot)) :
    resolveWithinVault (resolve tree) (p.within vaultRoot) vaultRoot = .ok (some (p.within vaultRoot)) := by
  have hbelow : vaultRoot <+: p.within vaultRoot := ⟨p.parts, rfl⟩
  obtain ⟨hup, hdot, hlinks⟩ := h
  have hroot : tree.Plain vaultRoot :=
    ⟨fun hin => hup (hbelow.subset hin), fun hin => hdot (hbelow.subset hin),
      fun above habove => hlinks above (habove.trans hbelow)⟩
  rw [resolveWithinVault, resolve, resolve, FileTree.realpath_of_plain hroot,
    FileTree.realpath_of_plain ⟨hup, hdot, hlinks⟩]
  simp [hbelow]

/-- There the handler queues what it queues for a vault of regular files. -/
theorem onAnyEvent_of_plain {nested : List String} {tree : FileTree κ} {vaultRoot : AbsolutePath} {event : FileSystemEvent}
    (h : tree.Plain (event.srcPath.within vaultRoot)) :
    onAnyEvent nested (fun p => resolveWithinVault (resolve tree) (p.within vaultRoot) vaultRoot) event =
      .ok (changeOf nested event) := by
  unfold changeOf onAnyEvent
  simp only [resolveWithinVault_of_plain h, regular]
  by_cases hdirectory : event.isDirectory = true
  · simp [hdirectory]
  · cases hkind : watchdogEventKind event.eventType with
    | none => simp [hdirectory]
    | some kind => by_cases hrenamed : kind = .renamed <;> by_cases hex : isExcluded nested event.srcPath = true <;>
        simp [hdirectory, hrenamed, hex]

/-- An operation on the tree: what is put may be a file, a directory or a link. -/
inductive TreeOp (κ : Type) where
  | put (place : AbsolutePath) (entry : Entry κ)
  | remove (place : AbsolutePath)
  | move (source destination : AbsolutePath)

def TreeOp.apply (op : TreeOp κ) (tree : FileTree κ) : FileTree κ :=
  match op with
  | .put place entry => tree.set place entry
  | .remove place => tree.remove place
  | .move source destination => if (tree.get source).isSome then tree.move source destination else tree

/-- The observer's thread: nothing catches what its handler raises. -/
inductive ObserverState where
  | notStarted
  | running
  | dead
  deriving DecidableEq

/-- The tree, the events and changes on their way, the batch in `extract_batch`, the file
it has read and not stat-ed, the file a cold start has checked and not read, the caches in
RAM, on disk and behind the published graph, and the files read so far. -/
structure Watch (κ ν : Type) where
  tree : FileTree κ
  observer : ObserverState
  undelivered : List FileSystemEvent
  pending : List FileChange
  flushed : List (List FileChange)
  extractTodo : List FileChange
  read : Option (FileChange × Option (PyDict ν))
  visiting : Option (VaultPath × ν)
  cache : ExtractionCache ν
  saved : ExtractionCache ν
  published : ExtractionCache ν
  reads : List (ReadRecord κ)

/-- An operation comes with the events that the observer reports of it; a read may fail for
reasons of its own, and a `stat` answers what it will. -/
inductive WatchEvent (κ ν : Type) where
  | operate (op : TreeOp κ) (reported : List FileSystemEvent)
  | coldCheck (p : VaultPath) (mtime : ν)
  | coldRead (fault : Option PyError)
  | coldDrop (observed : List VaultPath)
  | start
  | handle
  | flush
  | takeBatch (batch : List FileChange)
  | extractRead (fault : Option PyError)
  | extractStat (stat : StatOutcome ν)
  | publish
  | save
  | restart

namespace Watch

def initial (tree : FileTree κ) : Watch κ ν :=
  ⟨tree, .notStarted, [], [], [], [], none, none, .empty, .empty, .empty, []⟩

section Actions
variable (nested : List String) (vaultRoot : AbsolutePath) (extractor : VaultPath → κ → Json ν)

/-- Extract a path, and record the file if one is read. -/
def readPath (fault : Option PyError) (p : VaultPath) (s : Watch κ ν) : Option (PyDict ν) × List (ReadRecord κ) :=
  match fault, recordAt s.tree vaultRoot p with
  | none, some record =>
    (extractFileWithFailureIsolation (.ok (extractor p record.content)) p, s.reads ++ [record])
  | some e, _ => (extractFileWithFailureIsolation (.error e) p, s.reads)
  | none, none => (extractFileWithFailureIsolation (.error .fileNotFoundError) p, s.reads)

/-- `cold_start` on one path up to the read, where it goes on to read. -/
def coldCheck [DecidableEq ν] (p : VaultPath) (mtime : ν) (s : Watch κ ν) : Option (Watch κ ν) :=
  if s.observer = .notStarted ∧ s.visiting = none ∧ s.tree.isDir (p.within vaultRoot) = false ∧
      isExcluded nested p = false ∧ s.cache.mtime p ≠ some mtime then
    match resolveWithinVault (resolve s.tree) (p.within vaultRoot) vaultRoot with
    | .ok (some _) => some { s with visiting := some (p, mtime) }
    | _ => none
  else none

def coldRead (fault : Option PyError) (s : Watch κ ν) : Option (Watch κ ν) :=
  match s.visiting with
  | some (p, mtime) =>
    let read := s.readPath vaultRoot extractor fault p
    some { s with visiting := none, cache := storeAtMtime p mtime read.1 s.cache, reads := read.2 }
  | none => none

/-- `on_any_event` for the oldest event, with the check and the queueing of what it lets through
in one step: the tree does not change between the two. -/
def handle (s : Watch κ ν) : Option (Watch κ ν) :=
  match s.observer, s.undelivered with
  | .running, event :: rest =>
    match onAnyEvent nested (fun p => resolveWithinVault (resolve s.tree) (p.within vaultRoot) vaultRoot) event with
    | .ok change => some { s with undelivered := rest, pending := s.pending ++ change.toList }
    | .error _ => some { s with observer := .dead }
  | _, _ => none

def takeBatch (batch : List FileChange) (s : Watch κ ν) : Option (Watch κ ν) :=
  if batch ∈ s.flushed ∧ s.extractTodo = [] ∧ s.read = none then
    some { s with flushed := s.flushed.erase batch, extractTodo := batch }
  else none

/-- The loop body of `extract_batch` up to the read. -/
def extractRead (fault : Option PyError) (s : Watch κ ν) : Option (Watch κ ν) :=
  match s.extractTodo, s.read with
  | c :: rest, none =>
    let s := { s with extractTodo := rest, cache := dropStale c s.cache }
    if c.reachesPath nested then
      let read := s.readPath vaultRoot extractor fault c.path
      some { s with read := some (c, read.1), reads := read.2 }
    else some s
  | _, _ => none

/-- The loop body of `extract_batch` from the `stat` on; one that raises ends the batch. -/
def extractStat (stat : StatOutcome ν) (s : Watch κ ν) : Option (Watch κ ν) :=
  match s.read with
  | some (c, result) => match storeResult c.path result stat s.cache with
    | .done cache => some { s with read := none, cache := cache }
    | .raised _ cache => some { s with read := none, cache := cache, extractTodo := [] }
  | none => none

def step [DecidableEq ν] : WatchEvent κ ν → Watch κ ν → Option (Watch κ ν)
  | .operate op reported, s => some { s with
      tree := op.apply s.tree
      undelivered := if s.observer = .notStarted then [] else s.undelivered ++ reported }
  | .coldCheck p mtime, s => s.coldCheck nested vaultRoot p mtime
  | .coldRead fault, s => s.coldRead vaultRoot extractor fault
  | .coldDrop observed, s => some { s with cache := dropUnobserved observed s.cache }
  | .start, s => if s.observer = .notStarted ∧ s.visiting = none then some { s with observer := .running } else none
  | .handle, s => s.handle nested vaultRoot
  | .flush, s => some { s with pending := [], flushed := s.flushed ++ [s.pending] }
  | .takeBatch batch, s => s.takeBatch batch
  | .extractRead fault, s => s.extractRead nested vaultRoot extractor fault
  | .extractStat stat, s => s.extractStat stat
  | .publish, s => some { s with published := s.cache }
  | .save, s => some { s with saved := s.cache }
  | .restart, s => some { initial s.tree with cache := s.saved, saved := s.saved, reads := s.reads }

end Actions

/-- The changes whose path may still be read. -/
def underway (s : Watch κ ν) : List FileChange := s.pending ++ s.flushed.flatten ++ s.extractTodo

/-- The paths that were checked, or exempted from the check, and are still to be read. -/
def duePaths (nested : List String) (s : Watch κ ν) : List VaultPath :=
  (s.underway.filter (FileChange.reachesPath nested)).map FileChange.path ++ (s.visiting.map Prod.fst).toList

private theorem mem_duePaths {nested : List String} {s : Watch κ ν} {p : VaultPath} :
    p ∈ s.duePaths nested ↔
      (∃ c ∈ s.underway, c.reachesPath nested = true ∧ c.path = p) ∨ s.visiting.map Prod.fst = some p := by
  simp [duePaths, and_assoc]

end Watch

/-- A step lets a path in: by the check, at a cold start or in the handler, or unchecked,
as the destination of a move. -/
inductive Admits (nested : List String) (vaultRoot : AbsolutePath) (s : Watch κ ν) : WatchEvent κ ν → VaultPath → Prop where
  | checked (e : WatchEvent κ ν) (still : ∀ op reported, e ≠ .operate op reported) (p : VaultPath) (location : AbsolutePath)
      (within : resolveWithinVault (resolve s.tree) (p.within vaultRoot) vaultRoot = .ok (some location)) :
      Admits nested vaultRoot s e p
  | moved (event : FileSystemEvent) (oldest : s.undelivered.head? = some event) (file : event.isDirectory = false)
      (type : event.eventType = .moved) : Admits nested vaultRoot s .handle event.destPath

/-- What a step can do to the tree, to the paths that are due and to the files read. -/
structure StepEffect (nested : List String) (vaultRoot : AbsolutePath) (e : WatchEvent κ ν) (s s' : Watch κ ν) : Prop where
  tree : s'.tree = match e with | .operate op _ => op.apply s.tree | _ => s.tree
  due : ∀ p ∈ s'.duePaths nested,
    p ∈ s.duePaths nested ∨ isExcluded nested p = false ∧ Admits nested vaultRoot s e p
  reads : s'.reads = s.reads ∨
    ∃ p ∈ s.duePaths nested, ∃ record, recordAt s.tree vaultRoot p = some record ∧ s'.reads = s.reads ++ [record]

/-- What is read in a step is read under a path that was due. -/
theorem StepEffect.mem_reads {nested : List String} {vaultRoot : AbsolutePath} {e : WatchEvent κ ν} {s s' : Watch κ ν}
    (h : StepEffect nested vaultRoot e s s') {record : ReadRecord κ} (hrecord : record ∈ s'.reads) :
    record ∈ s.reads ∨ ∃ p ∈ s.duePaths nested, recordAt s.tree vaultRoot p = some record := by
  rcases h.reads with hsame | ⟨p, hp, new, hnew, hreads⟩
  · exact .inl (hsame ▸ hrecord)
  · rw [hreads, List.mem_append, List.mem_singleton] at hrecord
    rcases hrecord with hold | rfl
    · exact .inl hold
    · exact .inr ⟨p, hp, hnew⟩

section Steps
variable {nested : List String} {vaultRoot : AbsolutePath} {extractor : VaultPath → κ → Json ν} {s s' : Watch κ ν}

private theorem readPath_reads (fault : Option PyError) (p : VaultPath) :
    (s.readPath vaultRoot extractor fault p).2 = s.reads ∨
      ∃ record, recordAt s.tree vaultRoot p = some record ∧
        (s.readPath vaultRoot extractor fault p).2 = s.reads ++ [record] := by
  unfold Watch.readPath
  split
  · rename_i record hrecord
    exact .inr ⟨record, hrecord, rfl⟩
  · exact .inl rfl
  · exact .inl rfl

/-- Dropping work that is under way makes no path due. -/
theorem due_of_subset {p : VaultPath} (hp : p ∈ s'.duePaths nested) (hunderway : ∀ c ∈ s'.underway, c ∈ s.underway)
    (hvisiting : s'.visiting = s.visiting ∨ s'.visiting = none) : p ∈ s.duePaths nested := by
  rw [Watch.mem_duePaths] at hp ⊢
  rcases hp with ⟨c, hc, hreach, rfl⟩ | hvisit
  · exact .inl ⟨c, hunderway c hc, hreach, rfl⟩
  · rcases hvisiting with hsame | hnone
    · exact .inr (hsame ▸ hvisit)
    · simp [hnone] at hvisit

private theorem stepEffect_handle (h : s.handle nested vaultRoot = some s') :
    StepEffect nested vaultRoot .handle s s' := by
  unfold Watch.handle at h
  split at h
  · rename_i event rest _ hevents
    split at h
    · rename_i change hchange
      cases h
      refine ⟨rfl, fun p hp => ?_, .inl rfl⟩
      rw [Watch.mem_duePaths] at hp ⊢
      rcases hp with ⟨c, hc, hreach, rfl⟩ | hvisit
      · have hplace : c ∈ s.underway ∨ change = some c := by
          simp only [Watch.underway, List.mem_append, Option.mem_toList] at hc ⊢
          tauto
        rcases hplace with hold | rfl
        · exact .inl (.inl ⟨c, hold, hreach, rfl⟩)
        · right
          rcases onAnyEvent_admits hchange with hrenamed | ⟨hex, location, hwithin⟩
          · obtain ⟨hfile, htype, rfl⟩ := onAnyEvent_renamed hchange hrenamed
            refine ⟨by simpa using hreach, ?_⟩
            exact .moved event (by simp [hevents]) hfile htype
          · exact ⟨hex, .checked _ (by simp) _ location hwithin⟩
      · exact .inl (.inr hvisit)
    · cases h
      exact ⟨rfl, fun p hp => .inl hp, .inl rfl⟩
  · cases h

private theorem stepEffect_extractRead {fault : Option PyError}
    (h : s.extractRead nested vaultRoot extractor fault = some s') :
    StepEffect nested vaultRoot (.extractRead fault) s s' := by
  unfold Watch.extractRead at h
  split at h
  · rename_i c rest htodo _
    have hsubset : ∀ c' ∈ s.pending ++ s.flushed.flatten ++ rest, c' ∈ s.underway := by
      intro c' hc'
      simp only [Watch.underway, htodo, List.mem_append, List.mem_cons] at hc' ⊢
      tauto
    split_ifs at h with hreach
    · cases h
      refine ⟨rfl, fun p hp => .inl (due_of_subset hp hsubset (.inl rfl)), ?_⟩
      have hdue : c.path ∈ s.duePaths nested :=
        Watch.mem_duePaths.mpr (.inl ⟨c, by simp [Watch.underway, htodo], hreach, rfl⟩)
      rcases readPath_reads (s := { s with extractTodo := rest, cache := dropStale c s.cache }) fault c.path
        with hsame | ⟨record, hrecord, hreads⟩
      · exact .inl hsame
      · exact .inr ⟨c.path, hdue, record, hrecord, hreads⟩
    · cases h
      exact ⟨rfl, fun p hp => .inl (due_of_subset hp hsubset (.inl rfl)), .inl rfl⟩
  · cases h

/-- The path that a cold start goes on to read was checked. -/
theorem stepEffect_coldCheck [DecidableEq ν] {p : VaultPath} {mtime : ν}
    (h : s.coldCheck nested vaultRoot p mtime = some s') : StepEffect nested vaultRoot (.coldCheck p mtime) s s' := by
  unfold Watch.coldCheck at h
  split_ifs at h with hguard
  split at h
  · rename_i location hwithin
    cases h
    refine ⟨rfl, fun q hq => ?_, .inl rfl⟩
    rw [Watch.mem_duePaths] at hq ⊢
    rcases hq with hunderway | hvisit
    · exact .inl (.inl hunderway)
    · obtain rfl : p = q := by simpa using hvisit
      exact .inr ⟨hguard.2.2.2.1, .checked _ (by simp) _ location hwithin⟩
  · cases h

private theorem stepEffect_coldRead {fault : Option PyError} (h : s.coldRead vaultRoot extractor fault = some s') :
    StepEffect nested vaultRoot (.coldRead fault) s s' := by
  unfold Watch.coldRead at h
  split at h
  · rename_i p mtime hvisiting
    cases h
    refine ⟨rfl, fun q hq => .inl (due_of_subset hq (fun _ h => h) (.inr rfl)), ?_⟩
    rcases readPath_reads fault p with hsame | ⟨record, hrecord, hreads⟩
    · exact .inl hsame
    · exact .inr ⟨p, Watch.mem_duePaths.mpr (.inr (by simp [hvisiting])), record, hrecord, hreads⟩
  · cases h

private theorem stepEffect_flush : StepEffect nested vaultRoot .flush s
    { s with pending := [], flushed := s.flushed ++ [s.pending] } := by
  refine ⟨rfl, fun p hp => .inl (due_of_subset hp (fun c hc => ?_) (.inl rfl)), .inl rfl⟩
  simp only [Watch.underway, List.flatten_append, List.flatten_singleton, List.nil_append, List.mem_append] at hc ⊢
  tauto

private theorem stepEffect_takeBatch {batch : List FileChange} (h : s.takeBatch batch = some s') :
    StepEffect nested vaultRoot (.takeBatch batch) s s' := by
  unfold Watch.takeBatch at h
  split_ifs at h with hguard
  cases h
  refine ⟨rfl, fun p hp => .inl (due_of_subset hp (fun c hc => ?_) (.inl rfl)), .inl rfl⟩
  simp only [Watch.underway, List.mem_append, List.mem_flatten] at hc ⊢
  rcases hc with (hpending | ⟨other, hother, hc⟩) | hbatch
  · exact .inl (.inl hpending)
  · exact .inl (.inr ⟨other, List.mem_of_mem_erase hother, hc⟩)
  · exact .inl (.inr ⟨batch, hguard.1, hbatch⟩)

/-- A `stat` that raises drops the rest of its batch. -/
theorem stepEffect_extractStat {stat : StatOutcome ν} (h : s.extractStat stat = some s') :
    StepEffect nested vaultRoot (.extractStat stat) s s' := by
  unfold Watch.extractStat at h
  split at h
  · split at h
    · cases h
      exact ⟨rfl, fun p hp => .inl hp, .inl rfl⟩
    · cases h
      refine ⟨rfl, fun p hp => .inl (due_of_subset hp (fun c hc => ?_) (.inl rfl)), .inl rfl⟩
      simp only [Watch.underway, List.append_nil] at hc ⊢
      exact List.mem_append_left _ hc
  · cases h

private theorem stepEffect [DecidableEq ν] {e : WatchEvent κ ν}
    (h : Watch.step nested vaultRoot extractor e s = some s') :
    StepEffect nested vaultRoot e s s' := by
  cases e with
  | operate | coldDrop | publish | save =>
    cases h
    exact ⟨rfl, fun p hp => .inl hp, .inl rfl⟩
  | coldCheck p mtime => exact stepEffect_coldCheck h
  | coldRead fault => exact stepEffect_coldRead h
  | start =>
    simp only [Watch.step] at h
    split_ifs at h
    cases h
    exact ⟨rfl, fun p hp => .inl hp, .inl rfl⟩
  | handle => exact stepEffect_handle h
  | flush =>
    cases h
    exact stepEffect_flush
  | takeBatch batch => exact stepEffect_takeBatch h
  | extractRead fault => exact stepEffect_extractRead h
  | extractStat stat => exact stepEffect_extractStat h
  | restart =>
    cases h
    refine ⟨rfl, fun p hp => ?_, .inl rfl⟩
    simp [Watch.duePaths, Watch.underway, Watch.initial] at hp

end Steps

/-- No step brings an excluded path under way, and none is read. -/
structure AdmittedInvariant (nested : List String) (s : Watch κ ν) : Prop where
  due : ∀ p ∈ s.duePaths nested, isExcluded nested p = false
  reads : ∀ record ∈ s.reads, isExcluded nested record.path = false

private theorem admittedInvariant_step [DecidableEq ν] {nested : List String} {vaultRoot : AbsolutePath}
    {extractor : VaultPath → κ → Json ν} {e : WatchEvent κ ν} {s s' : Watch κ ν} (hs : AdmittedInvariant nested s)
    (h : Watch.step nested vaultRoot extractor e s = some s') : AdmittedInvariant nested s' := by
  have heffect := stepEffect h
  constructor
  · intro p hp
    rcases heffect.due p hp with hold | ⟨hex, -⟩
    · exact hs.due p hold
    · exact hex
  · intro record hrecord
    rcases heffect.mem_reads hrecord with hold | ⟨p, hp, hnew⟩
    · exact hs.reads record hold
    · obtain ⟨found, -, rfl⟩ := Option.map_eq_some_iff.mp hnew
      exact hs.due p hp

/-- An entry of a cache is the extraction of a file that was read under its path. -/
def FromRead (extractor : VaultPath → κ → Json ν) (reads : List (ReadRecord κ)) (p : VaultPath) (entry : PyDict ν) : Prop :=
  ∃ record ∈ reads, record.path = p ∧ extracted extractor p record.content = some entry

/-- Everything held comes from files that were read. -/
structure OriginInvariant (extractor : VaultPath → κ → Json ν) (s : Watch κ ν) : Prop where
  read : ∀ c entry, s.read = some (c, some entry) → FromRead extractor s.reads c.path entry
  cache : ∀ p entry, s.cache.get p = some entry → FromRead extractor s.reads p entry
  saved : ∀ p entry, s.saved.get p = some entry → FromRead extractor s.reads p entry
  published : ∀ p entry, s.published.get p = some entry → FromRead extractor s.reads p entry

section Origins
variable {nested : List String} {vaultRoot : AbsolutePath} {extractor : VaultPath → κ → Json ν} {s s' : Watch κ ν}

private theorem extract_error (e : PyError) (p : VaultPath) :
    extractFileWithFailureIsolation (.error e : Except PyError (Json ν)) p = none := by
  unfold extractFileWithFailureIsolation extractFile
  split_ifs <;> rfl

private theorem readPath_result {fault : Option PyError} {p : VaultPath} {entry : PyDict ν}
    (h : (s.readPath vaultRoot extractor fault p).1 = some entry) :
    FromRead extractor (s.readPath vaultRoot extractor fault p).2 p entry := by
  unfold Watch.readPath at h ⊢
  split at h
  · rename_i record hrecord
    obtain ⟨found, -, rfl⟩ := Option.map_eq_some_iff.mp hrecord
    exact ⟨_, by simp, rfl, h⟩
  · simp [extract_error] at h
  · simp [extract_error] at h

/-- Reading more takes no origin away. -/
theorem FromRead.readPath {q : VaultPath} {entry : PyDict ν} (h : FromRead extractor s.reads q entry)
    (fault : Option PyError) (p : VaultPath) : FromRead extractor (s.readPath vaultRoot extractor fault p).2 q entry := by
  obtain ⟨record, hrecord, horigin⟩ := h
  refine ⟨record, ?_, horigin⟩
  rcases readPath_reads (s := s) fault p with hsame | ⟨new, -, hreads⟩
  · exact hsame.symm ▸ hrecord
  · exact hreads.symm ▸ List.mem_append_left _ hrecord

theorem OriginInvariant.coldRead {fault : Option PyError} (hs : OriginInvariant extractor s)
    (h : s.coldRead vaultRoot extractor fault = some s') : OriginInvariant extractor s' := by
  unfold Watch.coldRead at h
  split at h
  · rename_i p mtime _
    cases h
    refine ⟨fun c entry hread => (hs.read c entry hread).readPath fault p, fun q entry hget => ?_,
      fun q entry hget => (hs.saved q entry hget).readPath fault p,
      fun q entry hget => (hs.published q entry hget).readPath fault p⟩
    cases hresult : (s.readPath vaultRoot extractor fault p).1 with
    | none =>
      simp only [hresult, storeAtMtime] at hget
      exact (hs.cache q entry hget).readPath fault p
    | some result =>
      simp only [hresult, storeAtMtime, ExtractionCache.get_set] at hget
      split_ifs at hget with hpq
      · cases hget
        subst hpq
        exact readPath_result hresult
      · exact (hs.cache q entry hget).readPath fault p
  · cases h

theorem OriginInvariant.extractRead {fault : Option PyError} (hs : OriginInvariant extractor s)
    (h : s.extractRead nested vaultRoot extractor fault = some s') : OriginInvariant extractor s' := by
  unfold Watch.extractRead at h
  split at h
  · rename_i c rest _ hread
    have hdropped : ∀ q entry, (dropStale c s.cache).get q = some entry → FromRead extractor s.reads q entry := by
      intro q entry hget
      rw [get_dropStale] at hget
      split_ifs at hget
      exact hs.cache q entry hget
    split_ifs at h
    · cases h
      refine ⟨fun c' entry hresult => ?_, fun q entry hget => (hdropped q entry hget).readPath fault c.path,
        fun q entry hget => (hs.saved q entry hget).readPath fault c.path,
        fun q entry hget => (hs.published q entry hget).readPath fault c.path⟩
      simp only [Option.some.injEq, Prod.mk.injEq] at hresult
      obtain ⟨rfl, hresult⟩ := hresult
      exact readPath_result hresult
    · cases h
      exact ⟨hs.read, hdropped, hs.saved, hs.published⟩
  · cases h

theorem OriginInvariant.extractStat {stat : StatOutcome ν} (hs : OriginInvariant extractor s)
    (h : s.extractStat stat = some s') : OriginInvariant extractor s' := by
  unfold Watch.extractStat at h
  split at h
  · rename_i c result hread
    split at h
    · rename_i cache hstore
      cases h
      refine ⟨fun _ _ h => by simp at h, fun q entry hget => ?_, hs.saved, hs.published⟩
      rw [storeResult_get hstore] at hget
      split_ifs at hget with hpq
      · rcases Option.or_eq_some_iff.mp hget with hnew | ⟨-, hold⟩
        · exact hpq ▸ hs.read c entry (hread.trans (by rw [hnew]))
        · exact hs.cache q entry hold
      · exact hs.cache q entry hget
    · rename_i e cache hstore
      cases h
      have hsame : cache = s.cache := by
        unfold storeResult at hstore
        split at hstore
        · cases hstore
        · split at hstore <;> cases hstore
          rfl
      subst hsame
      exact ⟨fun _ _ h => by simp at h, hs.cache, hs.saved, hs.published⟩
  · cases h

end Origins

private theorem originInvariant_step [DecidableEq ν] {nested : List String} {vaultRoot : AbsolutePath}
    {extractor : VaultPath → κ → Json ν} {e : WatchEvent κ ν} {s s' : Watch κ ν} (hs : OriginInvariant extractor s)
    (h : Watch.step nested vaultRoot extractor e s = some s') : OriginInvariant extractor s' := by
  cases e with
  | operate op reported =>
    simp only [Watch.step, Option.some.injEq] at h
    subst h
    exact ⟨hs.read, hs.cache, hs.saved, hs.published⟩
  | coldCheck p mtime =>
    simp only [Watch.step, Watch.coldCheck] at h
    split_ifs at h
    split at h
    · cases h
      exact ⟨hs.read, hs.cache, hs.saved, hs.published⟩
    · cases h
  | coldRead fault => exact hs.coldRead h
  | coldDrop observed =>
    simp only [Watch.step, Option.some.injEq] at h
    subst h
    refine ⟨hs.read, fun q entry hget => ?_, hs.saved, hs.published⟩
    rw [get_dropUnobserved] at hget
    split_ifs at hget
    exact hs.cache q entry hget
  | start =>
    simp only [Watch.step] at h
    split_ifs at h
    cases h
    exact ⟨hs.read, hs.cache, hs.saved, hs.published⟩
  | handle =>
    simp only [Watch.step, Watch.handle] at h
    split at h
    · split at h <;> cases h <;> exact ⟨hs.read, hs.cache, hs.saved, hs.published⟩
    · cases h
  | flush =>
    simp only [Watch.step, Option.some.injEq] at h
    subst h
    exact ⟨hs.read, hs.cache, hs.saved, hs.published⟩
  | takeBatch batch =>
    simp only [Watch.step, Watch.takeBatch] at h
    split_ifs at h
    cases h
    exact ⟨hs.read, hs.cache, hs.saved, hs.published⟩
  | extractRead fault => exact hs.extractRead h
  | extractStat stat => exact hs.extractStat h
  | publish =>
    simp only [Watch.step, Option.some.injEq] at h
    subst h
    exact ⟨hs.read, hs.cache, hs.saved, hs.cache⟩
  | save =>
    simp only [Watch.step, Option.some.injEq] at h
    subst h
    exact ⟨hs.read, hs.cache, hs.cache, hs.published⟩
  | restart =>
    simp only [Watch.step, Option.some.injEq] at h
    subst h
    exact ⟨fun _ _ h => by simp [Watch.initial] at h, hs.saved, hs.saved, fun q entry h => by cases h⟩

/-- No operation makes a path that is due lead out of the vault, and no move is handled
whose destination, unless it is excluded, leads out of the vault. -/
def StaysConfined (nested : List String) (vaultRoot : AbsolutePath) : WatchEvent κ ν → Watch κ ν → Prop
  | .operate op _, s => ∀ p ∈ s.duePaths nested, ConfinedAt s.tree vaultRoot p → ConfinedAt (op.apply s.tree) vaultRoot p
  | .handle, s => ∀ event ∈ s.undelivered.head?, event.isDirectory = false → event.eventType = .moved →
      isExcluded nested event.destPath = false → ConfinedAt s.tree vaultRoot event.destPath
  | _, _ => True

instance (nested : List String) (vaultRoot : AbsolutePath) (e : WatchEvent κ ν) (s : Watch κ ν) :
    Decidable (StaysConfined nested vaultRoot e s) :=
  match e with
  | .operate op _ => inferInstanceAs (Decidable (∀ p ∈ s.duePaths nested, _ → ConfinedAt (op.apply s.tree) vaultRoot p))
  | .handle => inferInstanceAs (Decidable (∀ event ∈ s.undelivered.head?, _ → _ → _ →
      ConfinedAt s.tree vaultRoot event.destPath))
  | .coldCheck _ _ | .coldRead _ | .coldDrop _ | .start | .flush | .takeBatch _ | .extractRead _ | .extractStat _
  | .publish | .save | .restart => instDecidableTrue

structure ConfinedInvariant (nested : List String) (vaultRoot : AbsolutePath) (s : Watch κ ν) : Prop where
  due : ∀ p ∈ s.duePaths nested, ConfinedAt s.tree vaultRoot p
  reads : ∀ record ∈ s.reads, record.Confined

/-- What the check accepts leads to no file outside the vault. -/
theorem confinedAt_of_resolveWithinVault {tree : FileTree κ} {vaultRoot : AbsolutePath} {p : VaultPath}
    {location : AbsolutePath}
    (h : resolveWithinVault (resolve tree) (p.within vaultRoot) vaultRoot = .ok (some location)) :
    ConfinedAt tree vaultRoot p := by
  unfold resolveWithinVault resolve at h
  cases hroot : tree.realpath vaultRoot with
  | none => simp [hroot] at h
  | some root => cases hpath : tree.realpath (p.within vaultRoot) with
    | none => simp [hroot, hpath] at h
    | some real =>
      simp only [hroot, hpath, Except.ok.injEq] at h
      split_ifs at h with hbelow
      intro record hrecord
      obtain ⟨found, hfound, rfl⟩ := Option.map_eq_some_iff.mp hrecord
      rw [FileTree.fileAt, hpath, Option.bind_some] at hfound
      split at hfound
      · cases hfound
        exact ⟨root, hroot, hbelow⟩
      · cases hfound

private theorem confinedInvariant_step [DecidableEq ν] {nested : List String} {vaultRoot : AbsolutePath}
    {extractor : VaultPath → κ → Json ν} {e : WatchEvent κ ν} {s s' : Watch κ ν} (hok : StaysConfined nested vaultRoot e s)
    (hs : ConfinedInvariant nested vaultRoot s) (h : Watch.step nested vaultRoot extractor e s = some s') :
    ConfinedInvariant nested vaultRoot s' := by
  have heffect := stepEffect h
  -- what is confined when the step begins is so when it ends
  have hkept : ∀ p, (p ∈ s.duePaths nested ∨ ∀ op reported, e ≠ .operate op reported) →
      ConfinedAt s.tree vaultRoot p → ConfinedAt s'.tree vaultRoot p := by
    intro p hp hconfined
    rw [heffect.tree]
    split
    · rename_i op reported
      exact hok p (hp.resolve_right (fun hno => hno op reported rfl)) hconfined
    · exact hconfined
  constructor
  · intro p hp
    rcases heffect.due p hp with hold | ⟨hex, hadmits⟩
    · exact hkept p (.inl hold) (hs.due p hold)
    · cases hadmits with
      | checked _ hstill _ location hwithin =>
        exact hkept p (.inr hstill) (confinedAt_of_resolveWithinVault hwithin)
      | moved event holdest hfile htype =>
        exact hkept _ (.inr (by simp)) (hok event (by simp [holdest]) hfile htype hex)
  · intro record hrecord
    rcases heffect.mem_reads hrecord with hold | ⟨p, hp, hnew⟩
    · exact hs.reads record hold
    · exact hs.due p hp record hnew

/-- In every run nothing excluded is read, and what the caches and the published graph hold
comes from files that were read; where the operations and the moves stay confined, these
files lay under the vault root when they were read. -/
theorem vault_confinement [DecidableEq ν] {nested : List String} {vaultRoot : AbsolutePath}
    {extractor : VaultPath → κ → Json ν} {tree : FileTree κ} {events : List (WatchEvent κ ν)} {s : Watch κ ν}
    (hstays : Along (Watch.step nested vaultRoot extractor) (StaysConfined nested vaultRoot) events (.initial tree))
    (hrun : exec (Watch.step nested vaultRoot extractor) events (.initial tree) = some s) :
    (∀ record ∈ s.reads, record.Confined ∧ isExcluded nested record.path = false) ∧
      ∀ cache ∈ [s.cache, s.saved, s.published], ∀ p entry, cache.get p = some entry →
        ∃ record ∈ s.reads, record.path = p ∧ record.Confined ∧ extracted extractor p record.content = some entry := by
  have hdue : ∀ p, p ∉ (Watch.initial tree : Watch κ ν).duePaths nested := by
    simp [Watch.duePaths, Watch.underway, Watch.initial]
  have hadmitted : AdmittedInvariant nested s :=
    exec_invariant_of_step (AdmittedInvariant nested) (fun _ _ _ hs hstep => admittedInvariant_step hs hstep)
      ⟨fun p hp => absurd hp (hdue p), fun _ h => by cases h⟩ hrun
  have horigin : OriginInvariant extractor s :=
    exec_invariant_of_step (OriginInvariant extractor) (fun _ _ _ hs hstep => originInvariant_step hs hstep)
      (by constructor <;> intro _ _ h <;> cases h) hrun
  have hconfined : ConfinedInvariant nested vaultRoot s :=
    exec_invariant (ConfinedInvariant nested vaultRoot) (fun _ _ _ hok hs hstep => confinedInvariant_step hok hs hstep)
      ⟨fun p hp => absurd hp (hdue p), fun _ h => by cases h⟩ hstays hrun
  have hfrom : ∀ p entry, FromRead extractor s.reads p entry →
      ∃ record ∈ s.reads, record.path = p ∧ record.Confined ∧ extracted extractor p record.content = some entry := by
    rintro p entry ⟨record, hrecord, hpath, hentry⟩
    exact ⟨record, hrecord, hpath, hconfined.reads record hrecord, hentry⟩
  refine ⟨fun record hrecord => ⟨hconfined.reads record hrecord, hadmitted.reads record hrecord⟩,
    fun cache hcache p entry hget => hfrom p entry ?_⟩
  simp only [List.mem_cons, List.not_mem_nil, or_false] at hcache
  rcases hcache with rfl | rfl | rfl
  · exact horigin.cache p entry hget
  · exact horigin.saved p entry hget
  · exact horigin.published p entry hget

/-- A vault with one note, and a file beside it. -/
def secretBeside : FileTree String :=
  ((OrderedDict.empty.set ["vault"] .directory).set ["vault", "other.md"] (.file "a")).set ["secret.md"] (.file "secret")

def draftPath : VaultPath := ⟨["note.tmp"], by decide⟩

def draftPlace : AbsolutePath := ["vault", "note.tmp"]

def notePlace : AbsolutePath := ["vault", "note.md"]

/-- A link to the file outside is rejected under its own name; a link to the other note is
renamed and read. -/
def linkedInside : List (WatchEvent String Nat) :=
  [.start, .operate (.put notePlace (.symlink true ["secret.md"])) [fileEvent .created notePath notePath], .handle,
    .operate (.put draftPlace (.symlink false ["other.md"])) [fileEvent .created draftPath draftPath], .handle,
    .operate (.move draftPlace notePlace) [fileEvent .moved draftPath notePath], .handle, .flush,
    .takeBatch [.renamed draftPath notePath], .extractRead none, .extractStat (.found 1 1), .publish]

theorem vault_confinement_linkedInside :
    ∃ s, exec (Watch.step [] ["vault"] titleExtractor) linkedInside (.initial secretBeside) = some s ∧
      s.reads.map ReadRecord.location = [["vault", "other.md"]] ∧ ∀ record ∈ s.reads, record.Confined := by
  have hend : (exec (Watch.step [] ["vault"] titleExtractor) linkedInside (.initial secretBeside)).map
      (fun s => s.reads.map ReadRecord.location) = some [["vault", "other.md"]] := rfl
  obtain ⟨s, hrun, hreads⟩ := Option.map_eq_some_iff.mp hend
  exact ⟨s, hrun, hreads, fun record hrecord => ((vault_confinement (by decide) hrun).1 record hrecord).1⟩

/-- A link out of the vault is made under an unobserved name and renamed to a note. -/
def renamedLink : List (WatchEvent String Nat) :=
  [.start, .operate (.put draftPlace (.symlink true ["secret.md"])) [fileEvent .created draftPath draftPath], .handle,
    .operate (.move draftPlace notePlace) [fileEvent .moved draftPath notePath], .handle, .flush,
    .takeBatch [.renamed draftPath notePath], .extractRead none, .extractStat (.found 1 1), .publish]

/-- A note that was checked is replaced by a link before its batch is compiled. -/
def replacedByLink : List (WatchEvent String Nat) :=
  [.start, .operate (.put notePlace (.file "a")) [fileEvent .created notePath notePath], .handle,
    .operate (.remove notePlace) [fileEvent .deleted notePath notePath],
    .operate (.put notePlace (.symlink true ["secret.md"])) [fileEvent .created notePath notePath], .flush,
    .takeBatch [.created notePath], .extractRead none, .extractStat (.found 1 1), .publish]

/-- After the run the content of the file outside the vault is published as a note. -/
def PublishesSecret (events : List (WatchEvent String Nat)) : Prop :=
  ∃ s, exec (Watch.step [] ["vault"] titleExtractor) events (.initial secretBeside) = some s ∧
    (∃ record ∈ s.reads, record.location = ["secret.md"] ∧ ¬ record.Confined) ∧
    s.published.get notePath = extracted titleExtractor notePath "secret"

private theorem publishesSecret_of_end {events : List (WatchEvent String Nat)}
    (hend : (exec (Watch.step [] ["vault"] titleExtractor) events (.initial secretBeside)).map
      (fun s => (s.reads, s.published.get notePath)) =
        some ([⟨notePath, some ["vault"], ["secret.md"], "secret"⟩], extracted titleExtractor notePath "secret")) :
    PublishesSecret events := by
  obtain ⟨s, hrun, hs⟩ := Option.map_eq_some_iff.mp hend
  simp only [Prod.mk.injEq] at hs
  obtain ⟨hreads, hpublished⟩ := hs
  refine ⟨s, hrun, ⟨⟨notePath, some ["vault"], ["secret.md"], "secret"⟩, ?_, rfl, by decide⟩, hpublished⟩
  rw [hreads]
  exact List.mem_singleton.mpr rfl

theorem reads_outside_vault : PublishesSecret renamedLink ∧ PublishesSecret replacedByLink :=
  ⟨publishesSecret_of_end rfl, publishesSecret_of_end rfl⟩

end GraphifyDaemon
