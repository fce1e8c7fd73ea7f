import Mathlib.Data.List.Induction
import GraphifyDaemon.Daemon.FailureIsolation

/-! What a batch does to one path, read off from the changes that name it, when the files do
not change meanwhile. -/
namespace GraphifyDaemon
open Library

variable {ν : Type}

inductive PathOperation where
  | delete
  | extract
  deriving DecidableEq

/-- The operations of one change on `p`: a rename deletes its source before it extracts its
destination, unless that is excluded. -/
def FileChange.operationsOn (nested : List String) (p : VaultPath) (c : FileChange) : List PathOperation :=
  match c.kind with
  | .created | .modified => if c.path = p then [.extract] else []
  | .deleted => if c.path = p then [.delete] else []
  | .renamed => (if c.previousPath = some p then [.delete] else []) ++
    if isExcluded nested c.path = false ∧ c.path = p then [.extract] else []

/-- The operations on `p`, in the order of the batch. -/
def operationsOn (nested : List String) (p : VaultPath) (batch : List FileChange) : List PathOperation :=
  batch.flatMap (FileChange.operationsOn nested p)

/-- The result of `p` after these operations. -/
def finalResult (extraction : Option (PyDict ν)) (operations : List PathOperation) (entry : Option (PyDict ν)) :
    Option (PyDict ν) :=
  match operations.getLast? with
  | none => entry
  | some last => match extraction with
    | some result => if last = .extract then some result else none
    | none => if .delete ∈ operations then none else entry

/-- The row of `p` after these operations. -/
def finalFilesRow (row : Row ν) (operations : List PathOperation) (before : Option (Row ν)) : Option (Row ν) :=
  match operations.getLast? with
  | none => before
  | some .delete => none
  | some .extract => some row

/-- The vault while nothing in it changes: what each path's extraction gives, and its `stat` if
it has one. -/
structure FixedFiles (ν : Type) where
  extractor : VaultPath → Except PyError (Json ν)
  stat : VaultPath → Option (ν × Nat)

namespace FixedFiles

def statOutcome (files : FixedFiles ν) (p : VaultPath) : StatOutcome ν :=
  match files.stat p with
  | some (mtime, size) => .found mtime size
  | none => .missing

/-- What is answered while a change is compiled. -/
def observe (files : FixedFiles ν) (c : FileChange) : Observation ν :=
  ⟨files.extractor c.path, files.statOutcome c.path, files.statOutcome c.path, none, none⟩

def observed (files : FixedFiles ν) (batch : List FileChange) : List (FileChange × Observation ν) :=
  batch.map fun c => (c, files.observe c)

def extraction (files : FixedFiles ν) (p : VaultPath) : Option (PyDict ν) :=
  extractFileWithFailureIsolation (files.extractor p) p

end FixedFiles

/-- `len(result[key]) if result else 0` -/
def countOf (key : String) (result : Option (PyDict ν)) : Nat :=
  (((result.bind (Json.lookup key)).bind fun items => items.len.toOption)).getD 0

/-- The row that tells of this result, and of the file as it is. -/
def FixedFiles.row [Zero ν] (files : FixedFiles ν) (p : VaultPath) (result : Option (PyDict ν)) : Row ν where
  mtime := ((files.stat p).map Prod.fst).getD 0
  size := ((files.stat p).map Prod.snd).getD 0
  nodeCount := countOf "nodes" result
  edgeCount := countOf "edges" result

def extractAndSync [Zero ν] (nested : List String) (files : FixedFiles ν) (batch : List FileChange)
    (s : ExtractionCache ν × FilesTable ν) : Outcome PyError (ExtractionCache ν × FilesTable ν) :=
  match extractBatch nested (files.observed batch) s.1 with
  | .raised e cache => .raised e (cache, s.2)
  | .done cache => (syncBatch nested (files.observed batch) cache none s.2).within fun table => (cache, table)

/-- A result that `sync_batch` can count. -/
def HasNodesAndEdges (result : PyDict ν) : Prop := Json.hasKey "nodes" result = true ∧ Json.hasKey "edges" result = true

private theorem operationsOn_change (nested : List String) (p : VaultPath) (c : FileChange) :
    c.operationsOn nested p = (if c.drops p then [.delete] else []) ++ if c.reaches nested p then [.extract] else [] := by
  unfold FileChange.operationsOn FileChange.drops FileChange.reaches
  cases c using FileChange.byKind with
  | hc q | hm q =>
    by_cases hq : q = p <;>
      simp [FileChange.created, FileChange.modified, FileChange.stalePath, FileChange.reachesPath, hq]
  | hd q => by_cases hq : q = p <;> simp [FileChange.deleted, FileChange.stalePath, FileChange.reachesPath, hq]
  | hr source q => by_cases hq : q = p <;> simp [FileChange.renamed, FileChange.stalePath, FileChange.reachesPath, hq]

section Results

def PathOperation.onResult (extraction : Option (PyDict ν)) (entry : Option (PyDict ν)) :
    PathOperation → Option (PyDict ν)
  | .delete => none
  | .extract => extraction.or entry

def PathOperation.onRow (row : Row ν) (_ : Option (Row ν)) : PathOperation → Option (Row ν)
  | .delete => none
  | .extract => some row

private theorem foldl_onResult (extraction : Option (PyDict ν)) (operations : List PathOperation)
    (entry : Option (PyDict ν)) :
    operations.foldl (PathOperation.onResult extraction) entry = finalResult extraction operations entry := by
  induction operations using List.reverseRecOn with
  | nil => rfl
  | append_singleton operations last ih =>
    rw [List.foldl_append, List.foldl_cons, List.foldl_nil, ih]
    unfold finalResult
    rw [List.getLast?_append_of_ne_nil _ (List.cons_ne_nil last []), List.getLast?_singleton]
    cases last with
    | delete => cases extraction <;> simp [PathOperation.onResult]
    | extract =>
      cases extraction with
      | some result => simp [PathOperation.onResult]
      | none =>
        cases hlast : operations.getLast? with
        | none =>
          rw [List.getLast?_eq_none_iff] at hlast
          simp [PathOperation.onResult, hlast]
        | some before => simp [PathOperation.onResult]

private theorem foldl_onRow (row : Row ν) (operations : List PathOperation) (before : Option (Row ν)) :
    operations.foldl (PathOperation.onRow row) before = finalFilesRow row operations before := by
  induction operations using List.reverseRecOn with
  | nil => rfl
  | append_singleton operations last ih =>
    rw [List.foldl_append, List.foldl_cons, List.foldl_nil]
    unfold finalFilesRow
    rw [List.getLast?_append_of_ne_nil _ (List.cons_ne_nil last []), List.getLast?_singleton]
    cases last <;> rfl

end Results

section Passes

/-- The extract pass, operation by operation. -/
theorem finalEntry_observed (nested : List String) (files : FixedFiles ν) (p : VaultPath) (batch : List FileChange)
    (entry : Option (PyDict ν)) :
    finalEntry nested (files.observed batch) p entry =
      finalResult (files.extraction p) (operationsOn nested p batch) entry := by
  rw [← foldl_onResult]
  induction batch generalizing entry with
  | nil => rfl
  | cons c rest ih =>
    have hround : entryAfter nested p entry (c, files.observe c) =
        (c.operationsOn nested p).foldl (PathOperation.onResult (files.extraction p)) entry := by
      rw [operationsOn_change]
      unfold entryAfter
      by_cases hreaches : c.reaches nested p
      · have hextraction : extractionOf (c, files.observe c) = files.extraction p := by rw [← hreaches.2]; rfl
        by_cases hdrops : c.drops p <;> simp [hreaches, hdrops, hextraction, PathOperation.onResult]
      · by_cases hdrops : c.drops p <;> simp [hreaches, hdrops, PathOperation.onResult]
    rw [FixedFiles.observed, List.map_cons, finalEntry, List.foldl_cons, hround, operationsOn, List.flatMap_cons,
      List.foldl_append]
    exact ih _

private theorem itemCount_countOf {key : String} {result : Option (PyDict ν)} {n : Nat}
    (h : itemCount key result = .ok n) :
    n = countOf key result := by
  unfold itemCount at h
  unfold countOf
  split at h
  · cases h
    rfl
  · cases h
    rfl
  · rename_i result _
    simp only [Json.getItem] at h
    cases hlookup : Json.lookup key result with
    | none => simp [hlookup] at h
    | some items =>
      simp only [hlookup] at h
      simp [hlookup, h, Except.toOption]

/-- A row that can be computed tells of the result and of the file. -/
theorem rowFor_eq_row [Zero ν] {files : FixedFiles ν} {p : VaultPath} {result : Option (PyDict ν)} {row : Row ν}
    (h : rowFor result (files.statOutcome p) = .ok row) : row = files.row p result := by
  unfold rowFor at h
  cases hnodes : itemCount "nodes" result with
  | error e => simp [hnodes] at h
  | ok nodeCount => cases hedges : itemCount "edges" result with
    | error e => simp [hnodes, hedges] at h
    | ok edgeCount =>
      rw [hnodes, hedges] at h
      unfold FixedFiles.statOutcome at h
      unfold FixedFiles.row
      rw [← itemCount_countOf hnodes, ← itemCount_countOf hedges]
      cases hstat : files.stat p with
      | none =>
        simp only [hstat] at h
        cases h
        rfl
      | some found =>
        simp only [hstat] at h
        cases h
        rfl

/-- The index pass, operation by operation. -/
theorem finalRow_observed [Zero ν] (nested : List String) (files : FixedFiles ν) (cache : ExtractionCache ν)
    (p : VaultPath)
    {batch : List FileChange} (hrows : ∀ c ∈ batch, c.reachesPath nested = true →
      ∃ row, rowFor (cache.get c.path) (files.statOutcome c.path) = .ok row) (before : Option (Row ν)) :
    finalRow nested (files.observed batch) cache p before =
      finalFilesRow (files.row p (cache.get p)) (operationsOn nested p batch) before := by
  rw [← foldl_onRow]
  induction batch generalizing before with
  | nil => rfl
  | cons c rest ih =>
    have hround : rowAfter nested cache p before (c, files.observe c) =
        (c.operationsOn nested p).foldl (PathOperation.onRow (files.row p (cache.get p))) before := by
      rw [operationsOn_change]
      unfold rowAfter
      by_cases hreaches : c.reaches nested p
      · obtain ⟨row, hrow⟩ := hrows c List.mem_cons_self hreaches.1
        rw [hreaches.2] at hrow
        have hsync : rowFor (cache.get p) (files.observe c).syncStat = .ok row := by
          rw [FixedFiles.observe, hreaches.2]
          exact hrow
        have hsame := rowFor_eq_row hrow
        by_cases hdrops : c.drops p <;> simp [hreaches, hdrops, hsync, ← hsame, PathOperation.onRow, Except.toOption]
      · by_cases hdrops : c.drops p <;> simp [hreaches, hdrops, PathOperation.onRow]
    rw [FixedFiles.observed, List.map_cons, finalRow, List.foldl_cons, hround, operationsOn, List.flatMap_cons,
      List.foldl_append]
    exact ih (fun c hc => hrows c (List.mem_cons_of_mem _ hc)) _

private theorem statOutcome_forgiven (files : FixedFiles ν) (p : VaultPath) : (files.statOutcome p).Forgiven := by
  unfold FixedFiles.statOutcome
  split <;> trivial

theorem countable_of_hasNodesAndEdges {result : Option (PyDict ν)} (h : ∀ r, result = some r → HasNodesAndEdges r) :
    Countable result := by
  unfold Countable Counted
  cases result with
  | none => exact ⟨trivial, trivial⟩
  | some r => cases r with
    | nil => exact ⟨trivial, trivial⟩
    | cons member rest => exact h _ rfl


end Passes

/-- What the cache holds are results of extractions that succeeded, with nodes and edges. -/
structure ExtractionCache.Complete (cache : ExtractionCache ν) : Prop where
  iterable : cache.Iterable
  keys : ∀ p result, cache.get p = some result → HasNodesAndEdges result

section Batches
variable [Zero ν] (nested : List String) (files : FixedFiles ν)

omit [Zero ν] in
/-- The extract pass completes, and leaves a complete cache. -/
theorem extractBatch_observed (hfiles : ∀ p result, files.extraction p = some result → HasNodesAndEdges result)
    (batch : List FileChange) {cache : ExtractionCache ν} (hcache : cache.Complete) :
    ∃ cache', extractBatch nested (files.observed batch) cache = .done cache' ∧ cache'.Complete ∧
      ∀ p, cache'.get p = finalResult (files.extraction p) (operationsOn nested p batch) (cache.get p) := by
  have hcompletes : (extractBatch nested (files.observed batch) cache).completed = true := by
    rw [extractBatch_completed_iff]
    intro b hb _ _
    obtain ⟨c, -, rfl⟩ := List.mem_map.mp hb
    exact statOutcome_forgiven files c.path
  obtain ⟨cache', hdone⟩ := Outcome.completed_iff.mp hcompletes
  have hget : ∀ p, cache'.get p = finalResult (files.extraction p) (operationsOn nested p batch) (cache.get p) := by
    intro p
    rw [extractBatch_get hdone, finalEntry_observed]
  refine ⟨cache', hdone, ⟨extractBatch_iterable hcache.iterable hdone, fun p result hresult => ?_⟩, hget⟩
  rw [hget] at hresult
  unfold finalResult at hresult
  split at hresult
  · exact hcache.keys p result hresult
  · split at hresult
    · rename_i extracted hextracted
      split_ifs at hresult
      cases hresult
      exact hfiles p _ hextracted
    · split_ifs at hresult
      exact hcache.keys p result hresult

theorem syncBatch_observed (batch : List FileChange) {cache : ExtractionCache ν} (hcache : cache.Complete)
    (table : FilesTable ν) : ∃ table', syncBatch nested (files.observed batch) cache none table = .done table' ∧
      ∀ p, table'.get p = finalFilesRow (files.row p (cache.get p)) (operationsOn nested p batch) (table.get p) := by
  have hcountable : ∀ p, Countable (cache.get p) := fun p => countable_of_hasNodesAndEdges (hcache.keys p)
  have hcompletes : (syncBatch nested (files.observed batch) cache none table).completed = true := by
    rw [syncBatch_completed_iff nested hcache.iterable]
    · intro b hb _
      obtain ⟨c, -, rfl⟩ := List.mem_map.mp hb
      exact ⟨statOutcome_forgiven files c.path, hcountable c.path⟩
    · intro b hb
      obtain ⟨c, -, rfl⟩ := List.mem_map.mp hb
      exact ⟨rfl, rfl⟩
  obtain ⟨table', hdone⟩ := Outcome.completed_iff.mp hcompletes
  refine ⟨table', hdone, fun p => ?_⟩
  rw [syncBatch_get hdone, finalRow_observed]
  exact fun c _ _ => (rowFor_ok_iff (hcache.iterable c.path)).mpr ⟨statOutcome_forgiven files c.path, hcountable c.path⟩

theorem extractAndSync_observed (hfiles : ∀ p result, files.extraction p = some result → HasNodesAndEdges result)
    (batch : List FileChange) {cache : ExtractionCache ν} (hcache : cache.Complete) (table : FilesTable ν) :
    ∃ cache' table', extractBatch nested (files.observed batch) cache = .done cache' ∧
      extractAndSync nested files batch (cache, table) = .done (cache', table') ∧ cache'.Complete ∧
      (∀ p, cache'.get p = finalResult (files.extraction p) (operationsOn nested p batch) (cache.get p)) ∧
      ∀ p, table'.get p = finalFilesRow (files.row p (cache'.get p)) (operationsOn nested p batch) (table.get p) := by
  obtain ⟨cache', hcache', hcomplete, hentries⟩ := extractBatch_observed nested files hfiles batch hcache
  obtain ⟨table', htable', hrows⟩ := syncBatch_observed nested files batch hcomplete table
  refine ⟨cache', table', hcache', ?_, hcomplete, hentries, hrows⟩
  simp only [extractAndSync, hcache', htable', Outcome.within_done]

omit [Zero ν] in
/-- Later operations on a path have the last word. -/
theorem finalFilesRow_append (row row' : Row ν) (first later : List PathOperation) (before : Option (Row ν))
    (hsame : later = [] → row' = row) :
    finalFilesRow row later (finalFilesRow row' first before) = finalFilesRow row (first ++ later) before := by
  cases later with
  | nil => rw [List.append_nil, hsame rfl]; rfl
  | cons operation later =>
    unfold finalFilesRow
    rw [List.getLast?_append_of_ne_nil first (List.cons_ne_nil operation later)]
    cases hlast : (operation :: later).getLast? with
    | none => simp at hlast
    | some last => cases last <;> rfl

/-- Batches one after the other do what one batch of all their changes does. -/
theorem splitBatches_observed (hfiles : ∀ p result, files.extraction p = some result → HasNodesAndEdges result)
    (batches : List (List FileChange)) {cache : ExtractionCache ν} (hcache : cache.Complete) (table : FilesTable ν) :
    ∃ cache' table', extractBatch nested (files.observed batches.flatten) cache = .done cache' ∧
      Outcome.forEach (extractAndSync nested files) batches (cache, table) = .done (cache', table') ∧
      ∀ p, table'.get p =
        finalFilesRow (files.row p (cache'.get p)) (operationsOn nested p batches.flatten) (table.get p) := by
  induction batches generalizing cache table with
  | nil => exact ⟨cache, table, rfl, rfl, fun p => rfl⟩
  | cons batch rest ih =>
    obtain ⟨mid, midTable, hextract, hboth, hmid, hentries, hrows⟩ :=
      extractAndSync_observed nested files hfiles batch hcache table
    obtain ⟨cache', table', hextractRest, hrest, hrowsRest⟩ := ih hmid midTable
    refine ⟨cache', table', ?_, ?_, fun p => ?_⟩
    · rw [List.flatten_cons, FixedFiles.observed, List.map_append, extractBatch, Outcome.forEach_append]
      exact Outcome.andThen_eq_done.mpr ⟨mid, hextract, hextractRest⟩
    · rw [Outcome.forEach_cons]
      exact Outcome.andThen_eq_done.mpr ⟨(mid, midTable), hboth, hrest⟩
    · obtain ⟨last, hlast, -, hentriesRest⟩ := extractBatch_observed nested files hfiles rest.flatten hmid
      obtain rfl : last = cache' := Outcome.done.inj (hlast.symm.trans hextractRest)
      rw [hrowsRest, hrows, List.flatten_cons, operationsOn, operationsOn, operationsOn, List.flatMap_append]
      -- where no later batch names the path, its entry is what the first batch left
      refine finalFilesRow_append _ _ _ _ _ fun hnone => ?_
      rw [hentriesRest, operationsOn, hnone]
      rfl

/-- A batch, or any batches with the same changes in the same order, gives each path what its
operations say, if no file changes meanwhile. -/
theorem batch_meaning (hfiles : ∀ p result, files.extraction p = some result → HasNodesAndEdges result)
    {cache : ExtractionCache ν} (hcache : cache.Complete) (table : FilesTable ν) (batch : List FileChange) :
    ∃ cache' table', extractAndSync nested files batch (cache, table) = .done (cache', table') ∧
      (∀ p, cache'.get p = finalResult (files.extraction p) (operationsOn nested p batch) (cache.get p)) ∧
      (∀ p, table'.get p = finalFilesRow (files.row p (cache'.get p)) (operationsOn nested p batch) (table.get p)) ∧
      ∀ batches : List (List FileChange), batches.flatten = batch →
        ∃ table'', Outcome.forEach (extractAndSync nested files) batches (cache, table) = .done (cache', table'') ∧
          ∀ p, table''.get p = table'.get p := by
  obtain ⟨cache', table', hextract, hboth, -, hentries, hrows⟩ :=
    extractAndSync_observed nested files hfiles batch hcache table
  refine ⟨cache', table', hboth, hentries, hrows, fun batches hbatches => ?_⟩
  obtain ⟨last, table'', hsplit, hrun, hrowsSplit⟩ := splitBatches_observed nested files hfiles batches hcache table
  rw [hbatches] at hsplit hrowsSplit
  obtain rfl : last = cache' := Outcome.done.inj (hsplit.symm.trans hextract)
  exact ⟨table'', hrun, fun p => (hrowsSplit p).trans (hrows p).symm⟩

end Batches

/-- One note can be extracted, and no other. -/
def oneReadable : FixedFiles Nat where
  extractor p := if p = notePath then .ok (.obj (oneNode "a")) else .error .valueError
  stat p := if p = notePath then some (7, 1) else none

theorem batch_meaning_movedBack : ∃ cache' table',
    extractAndSync [] oneReadable [.renamed notePath otherPath, .renamed otherPath notePath] (.empty, .empty) =
      .done (cache', table') ∧ (cache'.get notePath).isSome ∧ table'.get notePath = some ⟨7, 1, 1, 0⟩ ∧
      cache'.get otherPath = none ∧ table'.get otherPath = none := by
  have hfiles : ∀ p result, oneReadable.extraction p = some result → HasNodesAndEdges result := by
    intro p result h
    by_cases hp : p = notePath
    · subst hp
      cases h
      exact ⟨rfl, rfl⟩
    · have hfails : oneReadable.extraction p = none := by
        unfold FixedFiles.extraction oneReadable
        simp only [hp, if_false]
        exact extractFileWithFailureIsolation_error _ p
      rw [hfails] at h
      cases h
  obtain ⟨cache', table', hboth, hentries, hrows, -⟩ := batch_meaning [] oneReadable hfiles
    ⟨ExtractionCache.iterable_empty, fun _ _ h => (nomatch h)⟩ .empty
    [.renamed notePath otherPath, .renamed otherPath notePath]
  refine ⟨cache', table', hboth, ?_, ?_, ?_, ?_⟩
  · rw [hentries]
    rfl
  · rw [hrows, hentries]
    rfl
  · rw [hentries]
    rfl
  · rw [hrows]
    rfl

end GraphifyDaemon
