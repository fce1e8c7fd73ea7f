import GraphifyDaemon.Library.Outcome
import GraphifyDaemon.VaultCompiler.Batching

/-! Extraction of vault files and the in-RAM cache of its results. What a third-party
extractor or a file-system call answers is an argument, so that each answer can be
taken from the file system of its own moment. -/
namespace GraphifyDaemon
open Library

variable {ν : Type}

/-- `for item in items: item["source_file"] = relative`, which changes the items in place. -/
def attributeItems (relative : String) : Json ν → Except PyError (Json ν)
  | .arr xs => (xs.mapM (Json.setItem "source_file" (.str relative))).map .arr
  | v => match v.iterate with
    | .ok [] => .ok v
    | .ok _ => .error .typeError
    | .error e => .error e

def attributeKey (key relative : String) (result : PyDict ν) : Except PyError (PyDict ν) :=
  match Json.lookup key result with
  | none => .ok result
  | some items => (attributeItems relative items).map (fun v => OrderedDict.setItem key v result)

/-- `extract_file`. There is an extractor for each observed suffix and no other; a result
that is not a dictionary has no `get`. -/
def extractFile (extractor : Except PyError (Json ν)) (relative : VaultPath) :
    Except PyError (PyDict ν) :=
  if suffix relative ∉ OBSERVED_SUFFIXES then .error (.keyError (suffix relative))
  else match extractor with
    | .error e => .error e
    | .ok (.obj result) => match attributeKey "nodes" relative.str result with
      | .error e => .error e
      | .ok result => attributeKey "edges" relative.str result
    | .ok _ => .error .attributeError

/-- `extract_file_with_failure_isolation`: never raises. -/
def extractFileWithFailureIsolation (extractor : Except PyError (Json ν)) (relative : VaultPath) :
    Option (PyDict ν) :=
  match extractFile extractor relative with
  | .error _ => none
  | .ok result => if Json.hasKey "error" result then none else some result

theorem attributeItems_cases {relative : String} {items items' : Json ν}
    (h : attributeItems relative items = .ok items') :
    (∃ xs ys, items = .arr xs ∧ xs.mapM (Json.setItem "source_file" (.str relative)) = .ok ys ∧ items' = .arr ys) ∨
      items.iterate = .ok [] ∧ items' = items := by
  unfold attributeItems at h
  split at h
  · rename_i xs
    cases hm : xs.mapM (Json.setItem "source_file" (.str relative)) with
    | error e => simp [hm, Except.map] at h
    | ok ys =>
      simp only [hm, Except.map, Except.ok.injEq] at h
      exact .inl ⟨xs, ys, rfl, hm, h.symm⟩
  · split at h
    · rename_i hnil
      cases h
      exact .inr ⟨hnil, rfl⟩
    · cases h
    · cases h

theorem attributeKey_cases {key relative : String} {result result' : PyDict ν}
    (h : attributeKey key relative result = .ok result') :
    Json.lookup key result = none ∧ result' = result ∨ ∃ items items', Json.lookup key result = some items ∧
      attributeItems relative items = .ok items' ∧ result' = OrderedDict.setItem key items' result := by
  unfold attributeKey at h
  split at h
  · rename_i hnone
    cases h
    exact .inl ⟨hnone, rfl⟩
  · rename_i items hlookup
    cases ha : attributeItems relative items with
    | error e => simp [ha, Except.map] at h
    | ok items' =>
      simp only [ha, Except.map, Except.ok.injEq] at h
      exact .inr ⟨items, items', hlookup, ha, h.symm⟩

theorem extractFile_cases {extractor : Except PyError (Json ν)} {relative : VaultPath} {result : PyDict ν}
    (h : extractFile extractor relative = .ok result) : ∃ raw mid, extractor = .ok (.obj raw) ∧
      attributeKey "nodes" relative.str raw = .ok mid ∧ attributeKey "edges" relative.str mid = .ok result := by
  unfold extractFile at h
  split_ifs at h
  split at h
  · cases h
  · rename_i raw
    split at h
    · cases h
    · rename_i mid hmid
      exact ⟨raw, mid, rfl, hmid, h⟩
  · cases h

theorem extractFileWithFailureIsolation_eq_some {extractor : Except PyError (Json ν)} {relative : VaultPath}
    {result : PyDict ν} : extractFileWithFailureIsolation extractor relative = some result ↔
      extractFile extractor relative = .ok result ∧ Json.hasKey "error" result = false := by
  unfold extractFileWithFailureIsolation
  cases extractFile extractor relative with
  | error e => simp
  | ok accepted =>
    simp only [Option.ite_none_left_eq_some, Option.some.injEq, Except.ok.injEq, Bool.not_eq_true]
    constructor
    · rintro ⟨hkey, rfl⟩
      exact ⟨rfl, hkey⟩
    · rintro ⟨rfl, hkey⟩
      exact ⟨hkey, rfl⟩

theorem extractFileWithFailureIsolation_error (e : PyError) (relative : VaultPath) :
    extractFileWithFailureIsolation (.error e : Except PyError (Json ν)) relative = none := by
  unfold extractFileWithFailureIsolation extractFile
  split_ifs <;> rfl

/-- The last extraction result and the modification time recorded with it, per path. -/
structure ExtractionCache (ν : Type) where
  entries : OrderedDict VaultPath (PyDict ν)
  mtimes : OrderedDict VaultPath ν

namespace ExtractionCache

def empty : ExtractionCache ν := ⟨.empty, .empty⟩

def get (cache : ExtractionCache ν) (p : VaultPath) : Option (PyDict ν) := cache.entries.get p

def mtime (cache : ExtractionCache ν) (p : VaultPath) : Option ν := cache.mtimes.get p

/-- An absent modification time leaves the recorded one in place. -/
def set (cache : ExtractionCache ν) (p : VaultPath) (result : PyDict ν) (mtime : Option ν) :
    ExtractionCache ν :=
  { entries := cache.entries.set p result
    mtimes := match mtime with
      | some m => cache.mtimes.set p m
      | none => cache.mtimes }

def delete (cache : ExtractionCache ν) (p : VaultPath) : ExtractionCache ν :=
  ⟨cache.entries.erase p, cache.mtimes.erase p⟩

@[simp] theorem get_empty (p : VaultPath) : (empty : ExtractionCache ν).get p = none := rfl

@[simp] theorem mtime_empty (p : VaultPath) : (empty : ExtractionCache ν).mtime p = none := rfl

theorem get_set (cache : ExtractionCache ν) (p q : VaultPath) (result : PyDict ν) (m : Option ν) :
    (cache.set p result m).get q = if p = q then some result else cache.get q :=
  OrderedDict.get_set _ _ _ _

theorem mtime_set (cache : ExtractionCache ν) (p q : VaultPath) (result : PyDict ν) (m : Option ν) :
    (cache.set p result m).mtime q = if p = q then m.or (cache.mtime q) else cache.mtime q := by
  cases m with
  | none => simp [set, mtime]
  | some m => simp [set, mtime, OrderedDict.get_set]

theorem get_delete (cache : ExtractionCache ν) (p q : VaultPath) :
    (cache.delete p).get q = if p = q then none else cache.get q :=
  OrderedDict.get_erase _ _ _

theorem mtime_delete (cache : ExtractionCache ν) (p q : VaultPath) :
    (cache.delete p).mtime q = if p = q then none else cache.mtime q :=
  OrderedDict.get_erase _ _ _

end ExtractionCache

/-- What `Path.stat` answers. -/
inductive StatOutcome (ν : Type) where
  | found (mtime : ν) (size : Nat)
  | missing
  | failed (error : PyError)
  deriving DecidableEq

/-- All that the outside world answers while one change of a batch is compiled: the
extractor and the `stat` of the extract pass, then the `stat` and the two statements
of the index pass. -/
structure Observation (ν : Type) where
  extractor : Except PyError (Json ν)
  extractStat : StatOutcome ν
  syncStat : StatOutcome ν
  deleteFault : Option PyError
  upsertFault : Option PyError

/-- The path whose state a change removes before anything else. -/
def FileChange.stalePath (c : FileChange) : Option VaultPath :=
  match c.kind with
  | .deleted => some c.path
  | .renamed => c.previousPath
  | .created | .modified => none

/-- Whether the loop body goes on to the change's own path: not for a deletion, and not
for a rename into an excluded place. -/
def FileChange.reachesPath (nested : List String) (c : FileChange) : Bool :=
  match c.kind with
  | .deleted => false
  | .renamed => !isExcluded nested c.path
  | .created | .modified => true

namespace FileChange
@[simp] theorem stalePath_created (p : VaultPath) : (created p).stalePath = none := rfl
@[simp] theorem stalePath_modified (p : VaultPath) : (modified p).stalePath = none := rfl
@[simp] theorem stalePath_deleted (p : VaultPath) : (deleted p).stalePath = some p := rfl
@[simp] theorem stalePath_renamed (p q : VaultPath) : (renamed p q).stalePath = some p := rfl
@[simp] theorem reachesPath_created (nested : List String) (p : VaultPath) :
    (created p).reachesPath nested = true := rfl
@[simp] theorem reachesPath_modified (nested : List String) (p : VaultPath) :
    (modified p).reachesPath nested = true := rfl
@[simp] theorem reachesPath_deleted (nested : List String) (p : VaultPath) :
    (deleted p).reachesPath nested = false := rfl
@[simp] theorem reachesPath_renamed (nested : List String) (p q : VaultPath) :
    (renamed p q).reachesPath nested = !isExcluded nested q := rfl
end FileChange

/-- The loop body of `extract_batch` before the file is read. -/
def dropStale (c : FileChange) (cache : ExtractionCache ν) : ExtractionCache ν :=
  match c.stalePath with
  | some p => cache.delete p
  | none => cache

/-- The loop body of `extract_batch` after the file is read: only a vanished file is
forgiven by its `stat`. -/
def storeResult (p : VaultPath) (result : Option (PyDict ν)) (stat : StatOutcome ν)
    (cache : ExtractionCache ν) : Outcome PyError (ExtractionCache ν) :=
  match result with
  | none => .done cache
  | some r => match stat with
    | .found m _ => .done (cache.set p r (some m))
    | .missing => .done (cache.set p r none)
    | .failed e => .raised e cache

/-- One round of `extract_batch`. -/
def extractChange (nested : List String) (c : FileChange) (seen : Observation ν)
    (cache : ExtractionCache ν) : Outcome PyError (ExtractionCache ν) :=
  if c.reachesPath nested then
    storeResult c.path (extractFileWithFailureIsolation seen.extractor c.path) seen.extractStat
      (dropStale c cache)
  else .done (dropStale c cache)

/-- `extract_batch`, as its effect on the cache: the compile ignores the results it returns. -/
def extractBatch (nested : List String) (batch : List (FileChange × Observation ν))
    (cache : ExtractionCache ν) : Outcome PyError (ExtractionCache ν) :=
  Outcome.forEach (fun b => extractChange nested b.1 b.2) batch cache

end GraphifyDaemon
