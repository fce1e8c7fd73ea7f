import GraphifyDaemon.Library.PosixFiles
import GraphifyDaemon.Library.Trace

/-! The permission bits of the files that the daemon creates in its log and output directories,
through rotation of the log, artifact writes and index connections. -/
namespace GraphifyDaemon
open Library

inductive DaemonDirectory where
  | log
  | output
  deriving DecidableEq

inductive DaemonFile where
  | log
  | backup (number : Nat)
  | index
  | indexWal
  | indexShm
  | graphJson
  | knowledgeMd
  | graphCache
  deriving DecidableEq

/-- What later operations read of a file: the bytes of a log, the journal mode in the header of an index. -/
structure StoredContent where
  size : Nat
  wal : Bool
  deriving DecidableEq

abbrev DaemonTree := PosixFiles DaemonDirectory DaemonFile StoredContent

inductive DaemonPath where
  | directory (d : DaemonDirectory)
  | file (f : DaemonFile)

def DaemonPath.isDir : DaemonPath → Bool
  | .directory _ => true
  | .file _ => false

/-- `os.chmod`, whose path is there wherever it is called. -/
def chmod : DaemonPath → Permissions → DaemonTree → DaemonTree
  | .directory d, mode, tree => tree.chmodDirectory d mode
  | .file f, mode, tree => tree.chmodFile f mode

def ownerOnlyDirMode : Permissions := 0o700

def ownerOnlyFileMode : Permissions := 0o600

def restrictToOwner (osName : String) (path : DaemonPath) (tree : DaemonTree) : DaemonTree :=
  if osName ≠ "posix" then tree
  else chmod path (if path.isDir then ownerOnlyDirMode else ownerOnlyFileMode) tree

section Logging

/-- The rotation settings of the handler. Newer versions of the class never roll an empty file over. -/
structure RotatingFileHandler where
  maxBytes : Int
  backupCount : Int
  sparesEmpty : Bool

/-- A record as it is formatted, with its newline. -/
structure LogRecord where
  characters : Nat
  bytes : Nat

def configureLogging (osName : String) (umask : Permissions) (tree : DaemonTree) : DaemonTree :=
  let tree := restrictToOwner osName (.directory .log) (tree.makeDirectory umask .log)
  restrictToOwner osName (.file .log) (tree.openFile umask 0o666 ⟨0, false⟩ .log)

def logSize (tree : DaemonTree) : Nat := (tree.files .log).elim 0 fun file => file.content.size

/-- The size of the file is in bytes, that of the record in characters. -/
def shouldRollover (handler : RotatingFileHandler) (record : LogRecord) (tree : DaemonTree) : Bool :=
  0 < handler.maxBytes && !(handler.sparesEmpty && logSize tree == 0) &&
    decide (handler.maxBytes ≤ logSize tree + record.characters)

/-- Each backup takes the next number, the last one is replaced. -/
def shiftBackups (count : Nat) (tree : DaemonTree) : DaemonTree :=
  (List.range' 1 (count - 1)).reverse.foldl (fun tree i => tree.rename (.backup i) (.backup (i + 1))) tree

def doRollover (umask : Permissions) (handler : RotatingFileHandler) (tree : DaemonTree) : DaemonTree :=
  let rotated := if 0 < handler.backupCount then
      ((shiftBackups handler.backupCount.toNat tree).remove (.backup 1)).rename .log (.backup 1)
    else tree
  rotated.openFile umask 0o666 ⟨0, false⟩ .log

def emit (umask : Permissions) (handler : RotatingFileHandler) (record : LogRecord) (tree : DaemonTree) : DaemonTree :=
  let tree := if shouldRollover handler record tree then doRollover umask handler tree else tree
  tree.write .log fun content => { content with size := content.size + record.bytes }

end Logging

section Artifacts

/-- `Path.write_text`, then the permissions. -/
def writeText (osName : String) (umask : Permissions) (f : DaemonFile) (tree : DaemonTree) : DaemonTree :=
  restrictToOwner osName (.file f) (tree.openFile umask 0o666 ⟨0, false⟩ f)

def writeKnowledgeMd (osName : String) (umask : Permissions) : DaemonTree → DaemonTree :=
  writeText osName umask .knowledgeMd

def saveExtractionCache (osName : String) (umask : Permissions) : DaemonTree → DaemonTree :=
  writeText osName umask .graphCache

/-- `to_json` replaces its target by a new file, of whatever mode. -/
def writeGraphJson (osName : String) (fresh : Permissions) (tree : DaemonTree) : DaemonTree :=
  restrictToOwner osName (.file .graphJson) (tree.put .graphJson (some ⟨fresh, true, ⟨0, false⟩⟩))

end Artifacts

section Index

/-- SQLite gives a side file of the database the mode of the database. -/
def openSide (side : DaemonFile) (tree : DaemonTree) : DaemonTree :=
  if (tree.files side).isSome then tree
  else tree.put side ((tree.files .index).map fun index => ⟨index.mode, true, ⟨0, false⟩⟩)

/-- The first transaction on a database in WAL mode. -/
def openWal (tree : DaemonTree) : DaemonTree := openSide .indexShm (openSide .indexWal tree)

def inWalMode (tree : DaemonTree) : Bool := (tree.files .index).any fun index => index.content.wal

/-- `PRAGMA journal_mode=WAL`. It reads the header, which opens the side files of a database that is in WAL
mode already; one that is not changes its mode and opens them later. -/
def journalModeWal (tree : DaemonTree) : DaemonTree :=
  if inWalMode tree then openWal tree else tree.write .index fun content => { content with wal := true }

/-- `vault_index.connect` -/
def connect (osName : String) (umask : Permissions) (tree : DaemonTree) : DaemonTree :=
  let tree := restrictToOwner osName (.directory .output) (tree.makeDirectory umask .output)
  restrictToOwner osName (.file .index) (journalModeWal (tree.openFile umask 0o644 ⟨0, false⟩ .index))

/-- The last connection removes the side files. -/
def closeIndex (tree : DaemonTree) : DaemonTree := (tree.remove .indexWal).remove .indexShm

end Index

/-- The file system, and the umask and log handler of the process that runs. -/
structure DaemonRun where
  tree : DaemonTree
  process : Option (Permissions × RotatingFileHandler)

namespace DaemonRun

inductive Event where
  | startUp (umask : Permissions) (handler : RotatingFileHandler)
  | record (record : LogRecord)
  | saveCache
  | graphJson (fresh : Permissions)
  | knowledgeMd
  | connect
  | syncBatch
  | closeIndex

/-- `main` up to the constructed `Daemon`: logging, the output directory, the index and its schema. -/
def launch (osName : String) (umask : Permissions) (tree : DaemonTree) : DaemonTree :=
  let tree := configureLogging osName umask tree
  let tree := restrictToOwner osName (.directory .output) (tree.makeDirectory umask .output)
  openWal (GraphifyDaemon.connect osName umask tree)

/-- One completed operation of the process. -/
def operate (osName : String) (umask : Permissions) (handler : RotatingFileHandler) : Event → DaemonTree → DaemonTree
  | .startUp umask _ => launch osName umask
  | .record record => emit umask handler record
  | .saveCache => saveExtractionCache osName umask
  | .graphJson fresh => writeGraphJson osName fresh
  | .knowledgeMd => writeKnowledgeMd osName umask
  | .connect => GraphifyDaemon.connect osName umask
  | .syncBatch => openWal
  | .closeIndex => GraphifyDaemon.closeIndex

/-- A process may stop at any time and another one start on what it left. Nothing runs before the first start. -/
def step (osName : String) : Event → DaemonRun → Option DaemonRun
  | .startUp umask handler, s => some ⟨launch osName umask s.tree, some (umask, handler)⟩
  | e, s => s.process.map fun (umask, handler) => ⟨operate osName umask handler e s.tree, s.process⟩

/-- What the files and directories are to be after every operation. -/
def OwnerOnly (tree : DaemonTree) : Prop :=
  tree.CreatedWith ownerOnlyFileMode ∧ ∀ d, tree.directories d = some ownerOnlyDirMode

/-- A side file is missing that the database in WAL mode opens at once. -/
def OpensSide (tree : DaemonTree) : Prop :=
  inWalMode tree = true ∧ (tree.files .indexWal = none ∨ tree.files .indexShm = none)

/-- The umask alone restricts the log that a rollover opens, and the old mode of the index its side files. -/
def KeepsToOwner : Event → DaemonRun → Prop
  | .startUp _ _, s => ∀ index ∈ s.tree.files .index, OpensSide s.tree → index.mode = ownerOnlyFileMode
  | .record record, s => ∀ process ∈ s.process, shouldRollover process.2 record s.tree = true →
      0 < process.2.backupCount → masked process.1 0o666 = ownerOnlyFileMode
  | _, _ => True

instance (tree : DaemonTree) : Decidable (OpensSide tree) :=
  inferInstanceAs (Decidable (inWalMode tree = true ∧ (tree.files .indexWal = none ∨ tree.files .indexShm = none)))

instance decidableKeepsToOwner : (e : Event) → (s : DaemonRun) → Decidable (KeepsToOwner e s)
  | .startUp _ _, s => inferInstanceAs
      (Decidable (∀ index ∈ s.tree.files .index, OpensSide s.tree → index.mode = ownerOnlyFileMode))
  | .record record, s => inferInstanceAs (Decidable (∀ process ∈ s.process,
      shouldRollover process.2 record s.tree = true → 0 < process.2.backupCount →
        masked process.1 0o666 = ownerOnlyFileMode))
  | .saveCache, _ | .graphJson _, _ | .knowledgeMd, _ | .connect, _ | .syncBatch, _ | .closeIndex, _ =>
      inferInstanceAs (Decidable True)

section Operations
variable {umask : Permissions} {tree : DaemonTree}

@[simp] theorem restrictToOwner_file (f : DaemonFile) :
    restrictToOwner "posix" (.file f) tree = tree.chmodFile f ownerOnlyFileMode := by
  simp [restrictToOwner, chmod, DaemonPath.isDir]

@[simp] theorem restrictToOwner_directory (d : DaemonDirectory) :
    restrictToOwner "posix" (.directory d) tree = tree.chmodDirectory d ownerOnlyDirMode := by
  simp [restrictToOwner, chmod, DaemonPath.isDir]

/-- Making a directory and restricting it leaves the files as they are. -/
theorem createdWith_of_files_eq {tree' : DaemonTree} (h : tree.CreatedWith ownerOnlyFileMode)
    (hfiles : tree'.files = tree.files) : tree'.CreatedWith ownerOnlyFileMode := by
  intro f file hfile
  exact h f file (hfiles ▸ hfile)

private theorem created_writeText (h : tree.CreatedWith ownerOnlyFileMode) (f : DaemonFile) :
    (writeText "posix" umask f tree).CreatedWith ownerOnlyFileMode := by
  rw [writeText, restrictToOwner_file]
  exact (h.openFile_but umask 0o666 _ f).chmodFile

private theorem created_writeGraphJson (h : tree.CreatedWith ownerOnlyFileMode) (fresh : Permissions) :
    (writeGraphJson "posix" fresh tree).CreatedWith ownerOnlyFileMode := by
  rw [writeGraphJson, restrictToOwner_file]
  exact ((h.but _).put_same _).chmodFile

private theorem created_closeIndex (h : tree.CreatedWith ownerOnlyFileMode) :
    (closeIndex tree).CreatedWith ownerOnlyFileMode := (h.remove _).remove _

private theorem created_configureLogging (umask : Permissions) (h : tree.CreatedWith ownerOnlyFileMode) :
    (configureLogging "posix" umask tree).CreatedWith ownerOnlyFileMode := by
  simp only [configureLogging, restrictToOwner_file, restrictToOwner_directory]
  exact ((createdWith_of_files_eq h (by simp)).openFile_but umask 0o666 _ _).chmodFile

private theorem files_configureLogging {f : DaemonFile} (h : f ≠ .log) :
    (configureLogging "posix" umask tree).files f = tree.files f := by
  simp [configureLogging, h, PosixFiles.files_openFile_of_ne]

private theorem exists_log_configureLogging : ∃ file, (configureLogging "posix" umask tree).files .log = some file := by
  simp only [configureLogging, restrictToOwner_file, restrictToOwner_directory]
  obtain ⟨file, hfile⟩ := PosixFiles.exists_openFile (t := (tree.makeDirectory umask .log).chmodDirectory .log
    ownerOnlyDirMode) umask 0o666 ⟨0, false⟩ DaemonFile.log
  exact ⟨_, PosixFiles.files_chmodFile_of_some hfile _⟩

private theorem directories_configureLogging : (configureLogging "posix" umask tree).directories =
    Function.update tree.directories .log (some ownerOnlyDirMode) := by
  simp [configureLogging, PosixFiles.directories_makeDirectory_chmod]

end Operations

section Rollover
variable {umask : Permissions} {handler : RotatingFileHandler} {record : LogRecord} {tree : DaemonTree}

/-- What each rename of a backup keeps, shifting the backups keeps. -/
theorem shiftBackups_invariant (Keeps : DaemonTree → Prop)
    (keep : ∀ tree i, Keeps tree → Keeps (tree.rename (.backup i) (.backup (i + 1)))) (h : Keeps tree) (count : Nat) :
    Keeps (shiftBackups count tree) := by
  unfold shiftBackups
  induction (List.range' 1 (count - 1)).reverse generalizing tree with
  | nil => exact h
  | cons i rest ih => exact ih (keep tree i h)

private theorem created_shiftBackups (h : tree.CreatedWith ownerOnlyFileMode) (count : Nat) :
    (shiftBackups count tree).CreatedWith ownerOnlyFileMode :=
  shiftBackups_invariant _ (fun _ _ h => h.rename _ _) h count

private theorem files_shiftBackups (count : Nat) {f : DaemonFile} (hf : ∀ number, f ≠ .backup number) :
    (shiftBackups count tree).files f = tree.files f := by
  apply shiftBackups_invariant (fun tree' => tree'.files f = tree.files f) _ rfl
  intro tree' i h
  rw [PosixFiles.files_rename_of_ne (hf i) (hf (i + 1)), h]

private theorem directories_shiftBackups (count : Nat) : (shiftBackups count tree).directories = tree.directories := by
  apply shiftBackups_invariant (fun tree' => tree'.directories = tree.directories) _ rfl
  intro tree' i h
  rw [PosixFiles.directories_rename, h]

/-- Where the log is renamed, what the rollover opens is a new file. -/
theorem files_log_doRollover (h : 0 < handler.backupCount) :
    (doRollover umask handler tree).files .log = some ⟨masked umask 0o666, true, ⟨0, false⟩⟩ := by
  simp only [doRollover, if_pos h]
  exact PosixFiles.files_openFile_of_none umask 0o666 _ (PosixFiles.files_rename_source (by simp))

private theorem created_doRollover (h : tree.CreatedWith ownerOnlyFileMode) (hlog : ∃ file, tree.files .log = some file)
    (hmask : 0 < handler.backupCount → masked umask 0o666 = ownerOnlyFileMode) :
    (doRollover umask handler tree).CreatedWith ownerOnlyFileMode := by
  unfold doRollover
  by_cases hcount : 0 < handler.backupCount
  · rw [if_pos hcount]
    exact (((created_shiftBackups h _).remove _).rename _ _).openFile _ fun _ => hmask hcount
  · rw [if_neg hcount]
    obtain ⟨file, hfile⟩ := hlog
    rwa [PosixFiles.openFile_of_some umask 0o666 _ hfile]

private theorem files_doRollover {f : DaemonFile} (hlog : f ≠ .log) (hbackup : ∀ number, f ≠ .backup number) :
    (doRollover umask handler tree).files f = tree.files f := by
  unfold doRollover
  rw [PosixFiles.files_openFile_of_ne umask 0o666 _ hlog]
  split_ifs
  · rw [PosixFiles.files_rename_of_ne hlog (hbackup 1), PosixFiles.files_remove, Function.update_of_ne (hbackup 1),
      files_shiftBackups _ hbackup]
  · rfl

private theorem directories_doRollover : (doRollover umask handler tree).directories = tree.directories := by
  unfold doRollover
  rw [PosixFiles.directories_openFile]
  split_ifs
  · rw [PosixFiles.directories_rename, PosixFiles.directories_remove, directories_shiftBackups]
  · rfl

end Rollover

section Index
variable {umask : Permissions} {tree : DaemonTree} {index : PosixFile StoredContent}

private theorem files_openSide {side f : DaemonFile} (h : f ≠ side) : (openSide side tree).files f = tree.files f := by
  unfold openSide
  split_ifs
  · rfl
  · exact Function.update_of_ne h _ _

private theorem directories_openSide (side : DaemonFile) : (openSide side tree).directories = tree.directories := by
  unfold openSide
  split_ifs <;> rfl

private theorem created_openSide (h : tree.CreatedWith ownerOnlyFileMode) {side : DaemonFile}
    (hindex : ∀ index, tree.files .index = some index → tree.files side = none → index.mode = ownerOnlyFileMode) :
    (openSide side tree).CreatedWith ownerOnlyFileMode := by
  unfold openSide
  split_ifs with hside
  · exact h
  · apply (h.but side).put
    intro new hnew _
    obtain ⟨index, hthere, rfl⟩ := Option.map_eq_some_iff.mp hnew
    exact hindex index hthere (by simpa using hside)

/-- A side file that is missing gets the mode of the index. -/
theorem files_openSide_of_none {side : DaemonFile} (hindex : tree.files .index = some index)
    (h : tree.files side = none) : (openSide side tree).files side = some ⟨index.mode, true, ⟨0, false⟩⟩ := by
  simp [openSide, h, hindex]

/-- What is there stays as it is. -/
theorem files_openSide_of_some {side f : DaemonFile} {file : PosixFile StoredContent} (h : tree.files f = some file) :
    (openSide side tree).files f = some file := by
  by_cases hf : f = side
  · simp [openSide, ← hf, h]
  · rw [files_openSide hf, h]

private theorem files_openWal {f : DaemonFile} (hwal : f ≠ .indexWal) (hshm : f ≠ .indexShm) :
    (openWal tree).files f = tree.files f := by
  rw [openWal, files_openSide hshm, files_openSide hwal]

private theorem directories_openWal : (openWal tree).directories = tree.directories := by
  rw [openWal, directories_openSide, directories_openSide]

private theorem created_openWal (h : tree.CreatedWith ownerOnlyFileMode)
    (hindex : ∀ index, tree.files .index = some index → (tree.files .indexWal = none ∨ tree.files .indexShm = none) →
      index.mode = ownerOnlyFileMode) : (openWal tree).CreatedWith ownerOnlyFileMode := by
  refine created_openSide (created_openSide h fun index hthere hwal => hindex index hthere (.inl hwal)) ?_
  intro index hthere hshm
  rw [files_openSide (by simp)] at hthere hshm
  exact hindex index hthere (.inr hshm)

/-- Either side file that was missing has the mode of the index afterwards. -/
theorem exists_openWal (hindex : tree.files .index = some index)
    (hside : tree.files .indexWal = none ∨ tree.files .indexShm = none) :
    ∃ side, side ≠ .index ∧ (openWal tree).files side = some ⟨index.mode, true, ⟨0, false⟩⟩ := by
  have hthere : (openSide .indexWal tree).files .index = some index := by rw [files_openSide (by simp), hindex]
  rcases hside with hwal | hshm
  · refine ⟨.indexWal, by simp, ?_⟩
    rw [openWal, files_openSide (by simp), files_openSide_of_none hindex hwal]
  · refine ⟨.indexShm, by simp, ?_⟩
    exact files_openSide_of_none hthere (by rw [files_openSide (by simp), hshm])

private theorem journalModeWal_of_wal (h : inWalMode tree = true) : journalModeWal tree = openWal tree := if_pos h

private theorem journalModeWal_of_not_wal (h : inWalMode tree = false) :
    journalModeWal tree = tree.write .index fun content => { content with wal := true } := by
  rw [journalModeWal, h, if_neg Bool.false_ne_true]

/-- `PRAGMA journal_mode=WAL` leaves the index itself in its mode. -/
theorem files_index_journalModeWal (h : tree.files .index = some index) :
    ∃ content, (journalModeWal tree).files .index = some { index with content } := by
  cases hmode : inWalMode tree with
  | true =>
    rw [journalModeWal_of_wal hmode, files_openWal (by simp) (by simp)]
    exact ⟨index.content, h⟩
  | false =>
    rw [journalModeWal_of_not_wal hmode]
    exact ⟨{ index.content with wal := true }, PosixFiles.files_write_of_some h _⟩

private theorem directories_journalModeWal : (journalModeWal tree).directories = tree.directories := by
  cases hmode : inWalMode tree with
  | true => rw [journalModeWal_of_wal hmode, directories_openWal]
  | false => rw [journalModeWal_of_not_wal hmode, PosixFiles.directories_write]

private theorem files_journalModeWal {f : DaemonFile} (hindex : f ≠ .index) (hwal : f ≠ .indexWal)
    (hshm : f ≠ .indexShm) :
    (journalModeWal tree).files f = tree.files f := by
  cases hmode : inWalMode tree with
  | true => rw [journalModeWal_of_wal hmode, files_openWal hwal hshm]
  | false => rw [journalModeWal_of_not_wal hmode, PosixFiles.files_write, Function.update_of_ne hindex]

/-- The database file is the only one left to restrict when the journal mode is set. -/
theorem created_journalModeWal_openFile (h : tree.CreatedWith ownerOnlyFileMode)
    (hindex : ∀ index, tree.files .index = some index → OpensSide tree → index.mode = ownerOnlyFileMode) :
    (journalModeWal (tree.openFile umask 0o644 ⟨0, false⟩ .index)).CreatedBut .index ownerOnlyFileMode := by
  cases hthere : tree.files .index with
  | none =>
    have hnew := PosixFiles.files_openFile_of_none umask 0o644 ⟨0, false⟩ hthere
    have hmode : inWalMode (tree.openFile umask 0o644 ⟨0, false⟩ .index) = false := by
      rw [inWalMode, hnew]
      rfl
    rw [journalModeWal_of_not_wal hmode]
    exact (h.openFile_but umask 0o644 _ .index).write _
  | some index =>
    rw [PosixFiles.openFile_of_some umask 0o644 _ hthere]
    cases hmode : inWalMode tree with
    | true =>
      rw [journalModeWal_of_wal hmode]
      apply PosixFiles.CreatedWith.but
      apply created_openWal h
      intro index hindex' hside
      exact hindex index hindex' ⟨hmode, hside⟩
    | false =>
      rw [journalModeWal_of_not_wal hmode]
      exact (h.but .index).write _

private theorem created_connect (h : tree.CreatedWith ownerOnlyFileMode)
    (hindex : ∀ index, tree.files .index = some index → OpensSide tree → index.mode = ownerOnlyFileMode) :
    (connect "posix" umask tree).CreatedWith ownerOnlyFileMode := by
  simp only [connect, restrictToOwner_file, restrictToOwner_directory]
  apply PosixFiles.CreatedBut.chmodFile
  apply created_journalModeWal_openFile (createdWith_of_files_eq h (by simp))
  simpa [OpensSide, inWalMode] using hindex

private theorem files_index_connect : ∃ file, (connect "posix" umask tree).files .index = some file ∧
    file.mode = ownerOnlyFileMode := by
  simp only [connect, restrictToOwner_file, restrictToOwner_directory]
  obtain ⟨file, hfile⟩ := PosixFiles.exists_openFile (t := (tree.makeDirectory umask .output).chmodDirectory .output
    ownerOnlyDirMode) umask 0o644 ⟨0, false⟩ DaemonFile.index
  obtain ⟨content, hwal⟩ := files_index_journalModeWal hfile
  exact ⟨_, PosixFiles.files_chmodFile_of_some hwal _, rfl⟩

private theorem files_connect {f : DaemonFile} (hindex : f ≠ .index) (hwal : f ≠ .indexWal) (hshm : f ≠ .indexShm) :
    (connect "posix" umask tree).files f = tree.files f := by
  simp only [connect, restrictToOwner_file, restrictToOwner_directory, PosixFiles.files_chmodFile]
  rw [Function.update_of_ne hindex, files_journalModeWal hindex hwal hshm,
    PosixFiles.files_openFile_of_ne umask 0o644 _ hindex, PosixFiles.files_chmodDirectory,
    PosixFiles.files_makeDirectory]

private theorem directories_connect : (connect "posix" umask tree).directories =
    Function.update tree.directories .output (some ownerOnlyDirMode) := by
  simp [connect, directories_journalModeWal, PosixFiles.directories_makeDirectory_chmod]

/-- Connecting to an index in WAL mode opens what side file is missing before the index is restricted. -/
theorem exists_connect (umask : Permissions) (hindex : tree.files .index = some index) (hopens : OpensSide tree) :
    ∃ side, side ≠ .index ∧ (connect "posix" umask tree).files side = some ⟨index.mode, true, ⟨0, false⟩⟩ := by
  obtain ⟨hmode, hside⟩ := hopens
  set made := (tree.makeDirectory umask .output).chmodDirectory .output ownerOnlyDirMode with hmade
  have hfiles : made.files = tree.files := by simp [hmade]
  have hthere : made.files .index = some index := by rw [hfiles, hindex]
  have hwal : inWalMode made = true := by rw [inWalMode, hfiles]; exact hmode
  obtain ⟨side, hne, hnew⟩ := exists_openWal hthere (by rw [hfiles]; exact hside)
  refine ⟨side, hne, ?_⟩
  simp only [connect, restrictToOwner_file, restrictToOwner_directory, ← hmade]
  rw [PosixFiles.openFile_of_some umask 0o644 _ hthere, journalModeWal_of_wal hwal, PosixFiles.files_chmodFile,
    Function.update_of_ne hne, hnew]

end Index

section Runs

/-- What a running process keeps: it holds the log open, and its index is restricted. -/
structure Settled (tree : DaemonTree) : Prop where
  created : tree.CreatedWith ownerOnlyFileMode
  directories : ∀ d, tree.directories d = some ownerOnlyDirMode
  log : ∃ file, tree.files .log = some file
  index : ∃ file, tree.files .index = some file ∧ file.mode = ownerOnlyFileMode

variable {umask : Permissions} {handler : RotatingFileHandler} {record : LogRecord} {tree tree' : DaemonTree}

theorem Settled.index_mode (hs : Settled tree) {index : PosixFile StoredContent}
    (h : tree.files .index = some index) : index.mode = ownerOnlyFileMode := by
  obtain ⟨file, hfile, hmode⟩ := hs.index
  rw [hfile] at h
  exact Option.some.inj h ▸ hmode

/-- An operation that touches neither the directories nor the log and the index. -/
theorem Settled.frame (hs : Settled tree) (hcreated : tree'.CreatedWith ownerOnlyFileMode)
    (hdirectories : tree'.directories = tree.directories) (hlog : tree'.files .log = tree.files .log)
    (hindex : tree'.files .index = tree.files .index) : Settled tree' where
  created := hcreated
  directories d := by rw [hdirectories, hs.directories]
  log := by rw [hlog]; exact hs.log
  index := by rw [hindex]; exact hs.index

theorem Settled.openWal (hs : Settled tree) : Settled (openWal tree) :=
  hs.frame (created_openWal hs.created fun _ hindex _ => hs.index_mode hindex) directories_openWal
    (files_openWal (by simp) (by simp)) (files_openWal (by simp) (by simp))

theorem Settled.closeIndex (hs : Settled tree) : Settled (closeIndex tree) :=
  hs.frame (created_closeIndex hs.created) rfl rfl rfl

theorem Settled.writeGraphJson (hs : Settled tree) (fresh : Permissions) :
    Settled (writeGraphJson "posix" fresh tree) := by
  apply hs.frame (created_writeGraphJson hs.created fresh) <;> simp [GraphifyDaemon.writeGraphJson]

theorem Settled.writeText (hs : Settled tree) {f : DaemonFile} (hlog : .log ≠ f) (hindex : .index ≠ f) :
    Settled (writeText "posix" umask f tree) := by
  apply hs.frame (created_writeText hs.created f)
  · simp [GraphifyDaemon.writeText]
  · simp [GraphifyDaemon.writeText, hlog, PosixFiles.files_openFile_of_ne]
  · simp [GraphifyDaemon.writeText, hindex, PosixFiles.files_openFile_of_ne]

theorem Settled.connect (hs : Settled tree) : Settled (connect "posix" umask tree) where
  created := created_connect hs.created fun _ hindex _ => hs.index_mode hindex
  directories d := by
    rw [directories_connect, Function.update_apply, hs.directories]
    split_ifs <;> rfl
  log := by
    rw [files_connect (by simp) (by simp) (by simp)]
    exact hs.log
  index := files_index_connect

/-- A rollover keeps to the owner what the umask does. -/
theorem Settled.doRollover (hs : Settled tree)
    (hmask : 0 < handler.backupCount → masked umask 0o666 = ownerOnlyFileMode) :
    Settled (doRollover umask handler tree) where
  created := created_doRollover hs.created hs.log hmask
  directories d := by rw [directories_doRollover, hs.directories]
  log := PosixFiles.exists_openFile umask 0o666 _ _
  index := by
    rw [files_doRollover (by simp) (by simp)]
    exact hs.index

theorem Settled.emit (hs : Settled tree) (hmask : shouldRollover handler record tree = true → 0 < handler.backupCount →
    masked umask 0o666 = ownerOnlyFileMode) : Settled (emit umask handler record tree) := by
  have write : ∀ {tree : DaemonTree}, Settled tree → ∀ change, Settled (tree.write .log change) := by
    intro tree hs change
    obtain ⟨file, hfile⟩ := hs.log
    exact ⟨hs.created.write _ _, hs.directories, ⟨_, PosixFiles.files_write_of_some hfile change⟩, hs.index⟩
  unfold GraphifyDaemon.emit
  split_ifs with hroll
  · exact write (hs.doRollover (hmask hroll)) _
  · exact write hs _

/-- The log that a rollover opened has what the umask leaves. -/
theorem files_log_emit (hroll : shouldRollover handler record tree = true) (hcount : 0 < handler.backupCount) :
    ∃ content, (GraphifyDaemon.emit umask handler record tree).files .log = some ⟨masked umask 0o666, true, content⟩ := by
  simp only [GraphifyDaemon.emit, if_pos hroll]
  exact ⟨_, PosixFiles.files_write_of_some (files_log_doRollover hcount) _⟩

/-- The start restricts what it finds. Only the side files of an old index keep their mode. -/
theorem settled_launch (h : tree.CreatedWith ownerOnlyFileMode)
    (hindex : ∀ index, tree.files .index = some index → OpensSide tree → index.mode = ownerOnlyFileMode) :
    Settled (launch "posix" umask tree) := by
  unfold launch
  apply Settled.openWal
  constructor
  · apply created_connect
    · exact createdWith_of_files_eq (created_configureLogging umask h) (by simp)
    · simpa [OpensSide, inWalMode, files_configureLogging] using hindex
  · intro d
    cases d <;> simp [directories_connect, directories_configureLogging, PosixFiles.directories_makeDirectory_chmod]
  · rw [files_connect (by simp) (by simp) (by simp)]
    simpa using exists_log_configureLogging
  · exact files_index_connect

/-- The side file that the start opens keeps the mode that the index had. -/
theorem exists_launch (umask : Permissions) {index : PosixFile StoredContent} (hindex : tree.files .index = some index)
    (hopens : OpensSide tree) :
    ∃ side content, (launch "posix" umask tree).files side = some ⟨index.mode, true, content⟩ := by
  unfold launch
  set made := restrictToOwner "posix" (.directory .output)
    ((configureLogging "posix" umask tree).makeDirectory umask .output) with hmade
  have hfiles : ∀ f, f ≠ .log → made.files f = tree.files f := by
    intro f hf
    simp [hmade, files_configureLogging hf]
  have hstill : OpensSide made := by simpa [OpensSide, inWalMode, hfiles] using hopens
  obtain ⟨side, -, hnew⟩ := exists_connect umask ((hfiles .index (by simp)).trans hindex) hstill
  exact ⟨side, _, files_openSide_of_some (files_openSide_of_some hnew)⟩

/-- Before a start the daemon has created nothing that is not restricted, and while it runs all is settled. -/
structure Guarded (s : DaemonRun) : Prop where
  created : s.tree.CreatedWith ownerOnlyFileMode
  running : ∀ process, s.process = some process → Settled s.tree

/-- What a step is: a start, or an operation of the process that runs. -/
theorem step_cases {osName : String} {e : Event} {s s' : DaemonRun} (h : step osName e s = some s') :
    (∃ umask handler, e = .startUp umask handler ∧ s' = ⟨launch osName umask s.tree, some (umask, handler)⟩) ∨
      ∃ umask handler, s.process = some (umask, handler) ∧ (∀ umask handler, e ≠ .startUp umask handler) ∧
        s' = ⟨operate osName umask handler e s.tree, s.process⟩ := by
  cases e with
  | startUp umask handler => exact .inl ⟨umask, handler, rfl, (Option.some.inj h).symm⟩
  | _ =>
    obtain ⟨⟨umask, handler⟩, hprocess, hs'⟩ := Option.map_eq_some_iff.mp h
    exact .inr ⟨umask, handler, hprocess, by simp, hs'.symm⟩

private theorem settled_operate {e : Event} {s : DaemonRun} (hs : Settled s.tree)
    (hprocess : s.process = some (umask, handler))
    (hrunning : ∀ umask handler, e ≠ .startUp umask handler) (hok : KeepsToOwner e s) :
    Settled (operate "posix" umask handler e s.tree) := by
  cases e with
  | startUp umask handler => exact absurd rfl (hrunning umask handler)
  | record record => exact hs.emit (hok (umask, handler) hprocess)
  | saveCache => exact hs.writeText (by simp) (by simp)
  | graphJson fresh => exact hs.writeGraphJson fresh
  | knowledgeMd => exact hs.writeText (by simp) (by simp)
  | connect => exact hs.connect
  | syncBatch => exact hs.openWal
  | closeIndex => exact hs.closeIndex

private theorem settled_step {e : Event} {s s' : DaemonRun} (hok : KeepsToOwner e s) (hs : Guarded s)
    (h : step "posix" e s = some s') : Settled s'.tree := by
  obtain ⟨umask, handler, rfl, rfl⟩ | ⟨umask, handler, hprocess, hrunning, rfl⟩ := step_cases h
  · exact settled_launch hs.created hok
  · exact settled_operate (hs.running _ hprocess) hprocess hrunning hok

/-- A rollover that the umask does not restrict, and a start on a loose index, leave a file that others can read. -/
theorem keepsToOwner_of_ownerOnly {e : Event} {s s' : DaemonRun} (h : step "posix" e s = some s')
    (howner : OwnerOnly s'.tree) : KeepsToOwner e s := by
  obtain ⟨umask, handler, rfl, rfl⟩ | ⟨umask, handler, hprocess, hrunning, rfl⟩ := step_cases h
  · intro index hindex hopens
    obtain ⟨side, content, hside⟩ := exists_launch umask hindex hopens
    have hmode := howner.1 side _ hside rfl
    exact hmode
  · cases e with
    | record record =>
      intro process hprocess' hroll hcount
      obtain rfl : (umask, handler) = process := Option.some.inj (hprocess.symm.trans hprocess')
      obtain ⟨content, hlog⟩ := files_log_emit hroll hcount
      exact howner.1 .log _ hlog rfl
    | startUp umask' handler' => exact absurd rfl (hrunning umask' handler')
    | _ => trivial

theorem guarded_step {e : Event} {s s' : DaemonRun} (hok : KeepsToOwner e s) (hs : Guarded s)
    (h : step "posix" e s = some s') : Guarded s' :=
  ⟨(settled_step hok hs h).created, fun _ _ => settled_step hok hs h⟩

end Runs

/-- From any tree in which the daemon has created nothing yet: after each operation of a run every file that it
created is owner-only, and both directories are, exactly when the umask makes every log that a rollover opens so
and no start finds a loose index whose side files it opens. -/
theorem owner_only_iff {tree : DaemonTree} (hnew : ∀ f file, tree.files f = some file → file.created = false)
    {es : List Event} {s : DaemonRun} (run : Trace.exec (step "posix") es ⟨tree, none⟩ = some s) :
    Trace.Along (step "posix") (fun e s => ∀ s', step "posix" e s = some s' → OwnerOnly s'.tree) es ⟨tree, none⟩ ↔
      Trace.Along (step "posix") KeepsToOwner es ⟨tree, none⟩ := by
  have hstart : Guarded ⟨tree, none⟩ := by
    refine ⟨fun f file hfile hcreated => ?_, fun process hprocess => by cases hprocess⟩
    rw [hnew f file hfile] at hcreated
    cases hcreated
  refine Trace.along_iff_of_step Guarded (fun _ _ _ _ => guarded_step) ?_ hstart
    (Trace.along_of_forall (fun _ _ _ => trivial) _) run
  intro e s s' _ hs h
  constructor
  · intro howner
    exact keepsToOwner_of_ownerOnly h (howner s' h)
  · intro hok t ht
    have hsettled := settled_step hok hs ht
    exact ⟨hsettled.created, hsettled.directories⟩

def emptyTree : DaemonTree := ⟨fun _ => none, fun _ => none⟩

/-- Two rollovers, every kind of write and a second start, under a umask that leaves the owner's bits only. -/
theorem owner_only_strict_umask :
    ∃ es s, es = [.startUp 0o077 ⟨20, 2, true⟩, .record ⟨15, 15⟩, .record ⟨15, 15⟩, .saveCache, .syncBatch,
        .graphJson 0o644, .knowledgeMd, .record ⟨15, 15⟩, .closeIndex, .startUp 0o077 ⟨20, 2, true⟩] ∧
      Trace.exec (step "posix") es ⟨emptyTree, none⟩ = some s ∧ s.tree.files (.backup 2) ≠ none ∧
      Trace.Along (step "posix") (fun e s => ∀ s', step "posix" e s = some s' → OwnerOnly s'.tree) es
        ⟨emptyTree, none⟩ := by
  refine ⟨_, _, rfl, rfl, by decide, (owner_only_iff (fun f file hfile => ?_) rfl).mpr ?_⟩
  · cases hfile
  · decide

/-- An index in WAL mode that others can read, as a copy of the database leaves it. -/
def looseIndex : DaemonTree :=
  ⟨fun _ => none, fun f => if f = .index then some ⟨0o644, false, ⟨4096, true⟩⟩ else none⟩

/-- Under the usual umask the second record rolls the log over, and a start on the loose index opens side files:
either leaves a file that the daemon created readable by all. -/
theorem rollover_not_owner_only :
    (∃ s, Trace.exec (step "posix") [.startUp 0o022 ⟨20, 1, true⟩, .record ⟨15, 15⟩, .record ⟨15, 15⟩]
        ⟨emptyTree, none⟩ = some s ∧ s.tree.files .log = some ⟨0o644, true, ⟨15, false⟩⟩ ∧ ¬ OwnerOnly s.tree) ∧
      ∃ s, Trace.exec (step "posix") [.startUp 0o022 ⟨20, 1, true⟩] ⟨looseIndex, none⟩ = some s ∧
        s.tree.files .indexWal = some ⟨0o644, true, ⟨0, false⟩⟩ ∧ ¬ OwnerOnly s.tree := by
  constructor
  · refine ⟨_, rfl, rfl, fun howner => ?_⟩
    have hmode := howner.1 .log _ rfl rfl
    revert hmode
    decide
  · refine ⟨_, rfl, rfl, fun howner => ?_⟩
    have hmode := howner.1 .indexWal _ rfl rfl
    revert hmode
    decide

end DaemonRun
end GraphifyDaemon
