import GraphifyDaemon.Library.Trace
import GraphifyDaemon.Vault.FileSystem

/-! From file operations to compiled batches, one read or `stat` of the compile at a time. The
batches are compiled in the order in which they are flushed, and nothing raises. -/
namespace GraphifyDaemon
open Library Library.Trace

variable {ν κ : Type} {nested : List String}

/-- The vault, the events and changes on their way, and the batch being compiled: the
changes its extract pass still has to go through, the result of the file it has read
and not yet stat-ed, and the changes its index pass still has to go through. -/
structure Pipeline (κ ν : Type) where
  vault : Vault κ ν
  undelivered : List FileSystemEvent
  pending : List FileChange
  queued : List (List FileChange)
  compiling : Bool
  extractTodo : List FileChange
  read : Option (Option (PyDict ν))
  syncTodo : List FileChange
  cache : ExtractionCache ν
  files : FilesTable ν

inductive PipelineEvent (κ ν : Type) where
  | operate (op : VaultOp κ ν)
  | deliver
  | flush
  | startCompile
  | extractRead
  | extractStat
  | syncOne
  | finish

/-- A `stat` in the index pass, with statements that succeed. -/
def Observation.ofStat (stat : StatOutcome ν) : Observation ν := ⟨.error .runtimeError, stat, stat, none, none⟩

namespace Pipeline

/-- A daemon with nothing to do. -/
def idle (vault : Vault κ ν) (cache : ExtractionCache ν) (files : FilesTable ν) : Pipeline κ ν :=
  ⟨vault, [], [], [], false, [], none, [], cache, files⟩

/-- No event undelivered, no change pending, no compile queued or in progress. -/
def Quiescent (s : Pipeline κ ν) : Prop :=
  s.undelivered = [] ∧ s.pending = [] ∧ s.queued = [] ∧ s.compiling = false

/-- `on_any_event` for the oldest event. -/
def deliver (nested : List String) (s : Pipeline κ ν) : Option (Pipeline κ ν) :=
  match s.undelivered with
  | [] => none
  | event :: rest =>
    some { s with undelivered := rest, pending := s.pending ++ (changeOf nested event).toList }

def startCompile (s : Pipeline κ ν) : Option (Pipeline κ ν) :=
  match s.compiling, s.queued with
  | false, batch :: rest =>
    some { s with compiling := true, extractTodo := batch, syncTodo := batch, queued := rest }
  | _, _ => none

/-- The loop body of `extract_batch` up to the read of the file. -/
def extractRead (nested : List String) (extractor : VaultPath → κ → Json ν) (s : Pipeline κ ν) :
    Option (Pipeline κ ν) :=
  match s.extractTodo, s.read with
  | c :: rest, none =>
    let s := { s with cache := dropStale c s.cache }
    if c.reachesPath nested then
      some { s with read := some (extractFileWithFailureIsolation (readFile extractor s.vault c.path) c.path) }
    else some { s with extractTodo := rest }
  | _, _ => none

/-- The loop body of `extract_batch` from the `stat` on. -/
def extractStat (s : Pipeline κ ν) : Option (Pipeline κ ν) :=
  match s.extractTodo, s.read with
  | c :: rest, some result => match storeResult c.path result (statFile s.vault c.path) s.cache with
    | .done cache => some { s with cache := cache, extractTodo := rest, read := none }
    | .raised _ _ => none
  | _, _ => none

/-- The loop body of `sync_batch`. -/
def syncOne [Zero ν] (nested : List String) (s : Pipeline κ ν) : Option (Pipeline κ ν) :=
  match s.compiling, s.extractTodo, s.syncTodo with
  | true, [], c :: rest =>
    match syncChange nested s.cache c (Observation.ofStat (statFile s.vault c.path)) s.files with
    | .done files => some { s with files := files, syncTodo := rest }
    | .raised _ _ => none
  | _, _, _ => none

def finish (s : Pipeline κ ν) : Option (Pipeline κ ν) :=
  match s.compiling, s.extractTodo, s.syncTodo with
  | true, [], [] => some { s with compiling := false }
  | _, _, _ => none

/-- A step that raises is no step. -/
def step [Zero ν] (nested : List String) (extractor : VaultPath → κ → Json ν) :
    PipelineEvent κ ν → Pipeline κ ν → Option (Pipeline κ ν)
  | .operate op, s => match applyOp op s.vault with
    | some (vault, event) => some { s with vault := vault, undelivered := s.undelivered ++ [event] }
    | none => none
  | .deliver, s => s.deliver nested
  | .flush, s => if s.pending = [] then none else some { s with pending := [], queued := s.queued ++ [s.pending] }
  | .startCompile, s => s.startCompile
  | .extractRead, s => s.extractRead nested extractor
  | .extractStat, s => s.extractStat
  | .syncOne, s => s.syncOne nested
  | .finish, s => s.finish

/-- The changes that no compile has begun with yet. -/
def later (nested : List String) (s : Pipeline κ ν) : List FileChange :=
  s.queued.flatten ++ s.pending ++ s.undelivered.filterMap (changeOf nested)

/-- The changes of the batch whose file is still to be read. -/
def unread (s : Pipeline κ ν) : List FileChange := if s.read.isSome then s.extractTodo.tail else s.extractTodo

/-- The path that was read and not yet stat-ed. -/
def readingPath (s : Pipeline κ ν) : Option VaultPath :=
  if s.read.isSome then s.extractTodo.head?.map FileChange.path else none

/-- Only the place of the work under way changes, not the work. -/
structure SameWork (nested : List String) (s s' : Pipeline κ ν) : Prop where
  vault : s'.vault = s.vault
  cache : s'.cache = s.cache
  files : s'.files = s.files
  read : s'.read = s.read
  readingPath : s'.readingPath = s.readingPath
  unread : s'.unread ++ s'.later nested = s.unread ++ s.later nested
  unsynced : s'.syncTodo ++ s'.later nested = s.syncTodo ++ s.later nested

/-- What a step can do. -/
inductive Moves [Zero ν] (nested : List String) (extractor : VaultPath → κ → Json ν) (s : Pipeline κ ν) :
    Pipeline κ ν → Prop where
  | operated {op vault event} (h : applyOp op s.vault = some (vault, event)) :
      Moves nested extractor s { s with vault := vault, undelivered := s.undelivered ++ [event] }
  | shifted {s'} (h : SameWork nested s s') (ordered : s'.extractTodo <:+ s'.syncTodo)
      (idle : s'.compiling = false → s'.syncTodo = []) (reading : s'.read.isSome = true → s'.extractTodo = s.extractTodo) :
      Moves nested extractor s s'
  | read {c rest} (htodo : s.extractTodo = c :: rest) (hread : s.read = none) (hreach : c.reachesPath nested = true) :
      Moves nested extractor s { s with
        cache := dropStale c s.cache
        read := some (expectedEntry extractor s.vault c.path) }
  | dropped {c rest} (htodo : s.extractTodo = c :: rest) (hread : s.read = none) (hreach : c.reachesPath nested = false) :
      Moves nested extractor s { s with cache := dropStale c s.cache, extractTodo := rest }
  | stored {c rest result cache} (htodo : s.extractTodo = c :: rest) (hread : s.read = some result)
      (h : storeResult c.path result (statFile s.vault c.path) s.cache = .done cache) :
      Moves nested extractor s { s with cache := cache, extractTodo := rest, read := none }
  | synced {c rest files} (hextract : s.extractTodo = []) (hsync : s.syncTodo = c :: rest) (hbusy : s.compiling = true)
      (h : syncChange nested s.cache c (Observation.ofStat (statFile s.vault c.path)) s.files = .done files) :
      Moves nested extractor s { s with files := files, syncTodo := rest }

/-- The work under way is laid out as a compile leaves it. -/
structure WellOrdered (nested : List String) (s : Pipeline κ ν) : Prop where
  suffix : s.extractTodo <:+ s.syncTodo
  idle : s.compiling = false → s.syncTodo = []
  reading : s.read.isSome = true → ∃ c rest, s.extractTodo = c :: rest ∧ c.reachesPath nested = true

theorem WellOrdered.unread_nil {s : Pipeline κ ν} (hs : WellOrdered nested s) (h : s.extractTodo = []) :
    s.read = none := by
  cases hr : s.read with
  | none => rfl
  | some result =>
    obtain ⟨c, rest, htodo, -⟩ := hs.reading (by simp [hr])
    simp [h] at htodo

theorem moves_of_step [Zero ν] {nested : List String} {extractor : VaultPath → κ → Json ν} {e : PipelineEvent κ ν}
    {s s' : Pipeline κ ν} (hs : WellOrdered nested s) (h : step nested extractor e s = some s') :
    Moves nested extractor s s' := by
  cases e <;> simp only [step] at h
  case operate op =>
    split at h <;> cases h
    case h_1 hop => exact .operated hop
  case deliver =>
    unfold deliver at h
    split at h <;> cases h
    case h_2 event rest hundelivered =>
      refine .shifted ⟨rfl, rfl, rfl, rfl, rfl, ?_, ?_⟩ hs.suffix hs.idle (fun _ => rfl)
      · cases hc : changeOf nested event <;> simp [unread, later, hundelivered, hc]
      · cases hc : changeOf nested event <;> simp [later, hundelivered, hc]
  case flush =>
    split_ifs at h
    cases h
    exact .shifted ⟨rfl, rfl, rfl, rfl, rfl, by simp [unread, later], by simp [later]⟩ hs.suffix hs.idle (fun _ => rfl)
  case startCompile =>
    unfold startCompile at h
    split at h <;> cases h
    case h_1 batch rest hidle hqueued =>
      have hsync := hs.idle hidle
      have hextract : s.extractTodo = [] := by simpa [hsync] using hs.suffix
      have hread := hs.unread_nil hextract
      exact .shifted ⟨rfl, rfl, rfl, rfl, by simp [readingPath, hread], by simp [unread, later, hread, hextract, hqueued],
        by simp [later, hsync, hqueued]⟩ (List.suffix_refl _) (by simp) (by simp [hread])
  case extractRead =>
    unfold extractRead at h
    split at h
    · rename_i c rest htodo hread
      dsimp only at h
      split_ifs at h with hreach
      · rw [extract_readFile] at h
        cases h
        exact .read htodo hread hreach
      · cases h
        exact .dropped htodo hread (by simpa using hreach)
    · cases h
  case extractStat =>
    unfold extractStat at h
    split at h
    · rename_i c rest result htodo hread
      split at h
      · rename_i cache hstore
        cases h
        exact .stored htodo hread hstore
      · cases h
    · cases h
  case syncOne =>
    unfold syncOne at h
    split at h
    · rename_i c rest hbusy hextract hsync
      split at h
      · rename_i files hdone
        cases h
        exact .synced hextract hsync hbusy hdone
      · cases h
    · cases h
  case finish =>
    unfold finish at h
    split at h <;> cases h
    case h_1 hbusy hextract hsync =>
      exact .shifted ⟨rfl, rfl, rfl, rfl, rfl, rfl, rfl⟩ hs.suffix (fun _ => hsync) (fun _ => rfl)

theorem wellOrdered_move [Zero ν] {nested : List String} {extractor : VaultPath → κ → Json ν}
    {s s' : Pipeline κ ν} (hs : WellOrdered nested s) (h : Moves nested extractor s s') : WellOrdered nested s' := by
  cases h with
  | operated h => exact ⟨hs.suffix, hs.idle, hs.reading⟩
  | shifted h ordered idle reading =>
    refine ⟨ordered, idle, fun hr => ?_⟩
    rw [reading hr]
    rw [h.read] at hr
    exact hs.reading hr
  | read htodo hread hreach => exact ⟨hs.suffix, hs.idle, fun _ => ⟨_, _, htodo, hreach⟩⟩
  | dropped htodo hread hreach =>
    have hsuffix := hs.suffix
    rw [htodo] at hsuffix
    exact ⟨(List.suffix_cons _ _).trans hsuffix, hs.idle, by simp [hread]⟩
  | stored htodo hread h =>
    have hsuffix := hs.suffix
    rw [htodo] at hsuffix
    exact ⟨(List.suffix_cons _ _).trans hsuffix, hs.idle, by simp⟩
  | synced hextract hsync hbusy h =>
    exact ⟨by simp [hextract], by simp [hbusy], by simp [hs.unread_nil hextract]⟩

end Pipeline
end GraphifyDaemon
