import GraphifyDaemon.VaultCompiler.Extraction

/-! The `files` table of `vault_index.db` and the pass that brings it up to date with a
batch. A statement's failure is part of what is observed. -/
namespace GraphifyDaemon
open Library

variable {ν : Type}

structure Row (ν : Type) where
  mtime : ν
  size : Nat
  nodeCount : Nat
  edgeCount : Nat
  deriving DecidableEq

abbrev FilesTable (ν : Type) := OrderedDict VaultPath (Row ν)

/-- `len(result[key]) if result else 0`: an empty dictionary counts as no result. -/
def itemCount (key : String) : Option (PyDict ν) → Except PyError Nat
  | none | some [] => .ok 0
  | some result => match Json.getItem key result with
    | .error e => .error e
    | .ok items => items.len

/-- `DELETE FROM files WHERE path = ?` -/
def deleteRow (fault : Option PyError) (p : VaultPath) (files : FilesTable ν) :
    Outcome PyError (FilesTable ν) :=
  match fault with
  | some e => .raised e files
  | none => .done (files.erase p)

/-- `INSERT INTO files … ON CONFLICT(path) DO UPDATE SET …` -/
def upsertRow (fault : Option PyError) (p : VaultPath) (row : Row ν) (files : FilesTable ν) :
    Outcome PyError (FilesTable ν) :=
  match fault with
  | some e => .raised e files
  | none => .done (files.set p row)

/-- The row written for a path: its counts come from the cache, the rest from `stat`,
and a vanished file gets zeros. -/
def rowFor [Zero ν] (result : Option (PyDict ν)) (stat : StatOutcome ν) : Except PyError (Row ν) :=
  match itemCount "nodes" result with
  | .error e => .error e
  | .ok nodeCount => match itemCount "edges" result with
    | .error e => .error e
    | .ok edgeCount => match stat with
      | .found m size => .ok ⟨m, size, nodeCount, edgeCount⟩
      | .missing => .ok ⟨0, 0, nodeCount, edgeCount⟩
      | .failed e => .error e

def deleteStaleRow (fault : Option PyError) (c : FileChange) (files : FilesTable ν) :
    Outcome PyError (FilesTable ν) :=
  match c.stalePath with
  | some p => deleteRow fault p files
  | none => .done files

def syncChange [Zero ν] (nested : List String) (cache : ExtractionCache ν) (c : FileChange)
    (seen : Observation ν) (files : FilesTable ν) : Outcome PyError (FilesTable ν) :=
  (deleteStaleRow seen.deleteFault c files).andThen fun files =>
    if c.reachesPath nested then
      match rowFor (cache.get c.path) seen.syncStat with
      | .error e => .raised e files
      | .ok row => upsertRow seen.upsertFault c.path row files
    else .done files

/-- `sync_batch`: one transaction around the whole batch. -/
def syncBatch [Zero ν] (nested : List String) (batch : List (FileChange × Observation ν))
    (cache : ExtractionCache ν) (commitFault : Option PyError) (files : FilesTable ν) :
    Outcome PyError (FilesTable ν) :=
  Outcome.transaction (Outcome.forEach (fun b => syncChange nested cache b.1 b.2) batch)
    commitFault files

end GraphifyDaemon
