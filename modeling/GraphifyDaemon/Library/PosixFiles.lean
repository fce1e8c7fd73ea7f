import Mathlib.Logic.Function.Basic
import Mathlib.Tactic.SplitIfs

/-! Files and directories with their permission bits. A file is created with what the umask leaves
of a requested mode; later writes and renames leave its mode as it is. -/
namespace Library

/-- The permission bits of user, group and others. -/
abbrev Permissions := BitVec 9

def masked (umask requested : Permissions) : Permissions := requested &&& ~~~umask

/-- A file, and whether it is the program's own work that it exists. -/
structure PosixFile (κ : Type) where
  mode : Permissions
  created : Bool
  content : κ

structure PosixFiles (δ φ κ : Type) where
  directories : δ → Option Permissions
  files : φ → Option (PosixFile κ)

namespace PosixFiles
variable {δ φ κ : Type} [DecidableEq δ] [DecidableEq φ]

/-- `mkdir`, which may find the directory there. -/
def makeDirectory (umask : Permissions) (d : δ) (t : PosixFiles δ φ κ) : PosixFiles δ φ κ :=
  if (t.directories d).isSome then t
  else { t with directories := Function.update t.directories d (some (masked umask 0o777)) }

def chmodDirectory (d : δ) (mode : Permissions) (t : PosixFiles δ φ κ) : PosixFiles δ φ κ :=
  { t with directories := Function.update t.directories d ((t.directories d).map fun _ => mode) }

def put (f : φ) (file : Option (PosixFile κ)) (t : PosixFiles δ φ κ) : PosixFiles δ φ κ :=
  { t with files := Function.update t.files f file }

/-- `open` for writing, which creates the file with this content where there is none. -/
def openFile (umask requested : Permissions) (content : κ) (f : φ) (t : PosixFiles δ φ κ) : PosixFiles δ φ κ :=
  if (t.files f).isSome then t else t.put f (some ⟨masked umask requested, true, content⟩)

def write (f : φ) (change : κ → κ) (t : PosixFiles δ φ κ) : PosixFiles δ φ κ :=
  t.put f ((t.files f).map fun file => { file with content := change file.content })

def chmodFile (f : φ) (mode : Permissions) (t : PosixFiles δ φ κ) : PosixFiles δ φ κ :=
  t.put f ((t.files f).map fun file => { file with mode := mode })

def remove (f : φ) (t : PosixFiles δ φ κ) : PosixFiles δ φ κ := t.put f none

/-- `rename`, where there is a source; a target is replaced. -/
def rename (source target : φ) (t : PosixFiles δ φ κ) : PosixFiles δ φ κ :=
  if (t.files source).isSome then (t.remove source).put target (t.files source) else t

section Modes
omit [DecidableEq δ] [DecidableEq φ]

/-- Each file that the program created has this mode. -/
def CreatedWith (mode : Permissions) (t : PosixFiles δ φ κ) : Prop :=
  ∀ f file, t.files f = some file → file.created = true → file.mode = mode

/-- The same of all files but one, whose mode is still to be set. -/
def CreatedBut (apart : φ) (mode : Permissions) (t : PosixFiles δ φ κ) : Prop :=
  ∀ f file, f ≠ apart → t.files f = some file → file.created = true → file.mode = mode

end Modes

section Frames
variable {t : PosixFiles δ φ κ}

omit [DecidableEq φ] in
@[simp] theorem files_makeDirectory (umask : Permissions) (d : δ) : (t.makeDirectory umask d).files = t.files := by
  unfold makeDirectory
  split_ifs <;> rfl

omit [DecidableEq φ] in
@[simp] theorem files_chmodDirectory (d : δ) (mode : Permissions) : (t.chmodDirectory d mode).files = t.files := rfl

omit [DecidableEq δ]

@[simp] theorem files_put (f : φ) (file : Option (PosixFile κ)) :
    (t.put f file).files = Function.update t.files f file := rfl

@[simp] theorem files_write (f : φ) (change : κ → κ) : (t.write f change).files =
    Function.update t.files f ((t.files f).map fun file => { file with content := change file.content }) := rfl

@[simp] theorem files_chmodFile (f : φ) (mode : Permissions) : (t.chmodFile f mode).files =
    Function.update t.files f ((t.files f).map fun file => { file with mode := mode }) := rfl

@[simp] theorem files_remove (f : φ) : (t.remove f).files = Function.update t.files f none := rfl

theorem files_openFile_of_ne (umask requested : Permissions) (content : κ) {f g : φ} (h : g ≠ f) :
    (t.openFile umask requested content f).files g = t.files g := by
  unfold openFile
  split_ifs
  · rfl
  · exact Function.update_of_ne h _ _

/-- Where there is a file, `open` leaves it. -/
theorem openFile_of_some (umask requested : Permissions) (content : κ) {f : φ} {file : PosixFile κ}
    (h : t.files f = some file) : t.openFile umask requested content f = t := by
  simp [openFile, h]

/-- Where there is none, the new file has what the umask leaves. -/
theorem files_openFile_of_none (umask requested : Permissions) (content : κ) {f : φ} (h : t.files f = none) :
    (t.openFile umask requested content f).files f = some ⟨masked umask requested, true, content⟩ := by
  simp [openFile, h]

theorem exists_openFile (umask requested : Permissions) (content : κ) (f : φ) :
    ∃ file, (t.openFile umask requested content f).files f = some file := by
  cases h : t.files f with
  | none => exact ⟨_, files_openFile_of_none umask requested content h⟩
  | some file => exact ⟨file, by rw [openFile_of_some umask requested content h, h]⟩

/-- After a rename nothing has the old name. -/
theorem files_rename_source {source target : φ} (h : source ≠ target) : (t.rename source target).files source = none := by
  unfold rename
  split_ifs with hthere
  · simp [h]
  · simpa using hthere

theorem files_rename_of_ne {source target f : φ} (hsource : f ≠ source) (htarget : f ≠ target) :
    (t.rename source target).files f = t.files f := by
  unfold rename
  split_ifs
  · simp [hsource, htarget]
  · rfl

theorem files_write_of_some {f : φ} {file : PosixFile κ} (h : t.files f = some file) (change : κ → κ) :
    (t.write f change).files f = some { file with content := change file.content } := by
  rw [files_write, Function.update_self, h, Option.map_some]

theorem files_chmodFile_of_some {f : φ} {file : PosixFile κ} (h : t.files f = some file) (mode : Permissions) :
    (t.chmodFile f mode).files f = some { file with mode := mode } := by
  rw [files_chmodFile, Function.update_self, h, Option.map_some]

@[simp] theorem directories_put (f : φ) (file : Option (PosixFile κ)) : (t.put f file).directories = t.directories :=
  rfl

@[simp] theorem directories_openFile (umask requested : Permissions) (content : κ) (f : φ) :
    (t.openFile umask requested content f).directories = t.directories := by
  unfold openFile
  split_ifs <;> rfl

@[simp] theorem directories_write (f : φ) (change : κ → κ) : (t.write f change).directories = t.directories := rfl

@[simp] theorem directories_chmodFile (f : φ) (mode : Permissions) :
    (t.chmodFile f mode).directories = t.directories := rfl

@[simp] theorem directories_remove (f : φ) : (t.remove f).directories = t.directories := rfl

@[simp] theorem directories_rename (source target : φ) : (t.rename source target).directories = t.directories := by
  unfold rename
  split_ifs <;> rfl

omit [DecidableEq φ] in
/-- A directory that is made where there is none has its mode set afterwards, and one that was there too. -/
theorem directories_makeDirectory_chmod [DecidableEq δ] (umask mode : Permissions) (d : δ) :
    ((t.makeDirectory umask d).chmodDirectory d mode).directories = Function.update t.directories d (some mode) := by
  unfold makeDirectory chmodDirectory
  split_ifs with hthere
  · obtain ⟨old, hold⟩ := Option.isSome_iff_exists.mp hthere
    simp [hold]
  · simp

end Frames

section Created
omit [DecidableEq δ]
variable {mode : Permissions} {t : PosixFiles δ φ κ} {f : φ}

theorem CreatedBut.put (h : t.CreatedBut f mode) {file : Option (PosixFile κ)}
    (hfile : ∀ new, file = some new → new.created = true → new.mode = mode) : (t.put f file).CreatedWith mode := by
  intro g there hthere
  rw [files_put, Function.update_apply] at hthere
  split_ifs at hthere with hg
  · exact hfile there hthere
  · exact h g there hg hthere

theorem CreatedBut.put_same (h : t.CreatedBut f mode) (file : Option (PosixFile κ)) : (t.put f file).CreatedBut f mode := by
  intro g there hg hthere
  rw [files_put, Function.update_of_ne hg] at hthere
  exact h g there hg hthere

omit [DecidableEq φ] in
theorem CreatedWith.but (h : t.CreatedWith mode) (f : φ) : t.CreatedBut f mode := fun g file _ => h g file

/-- What has no mode of its own yet gets it. -/
theorem CreatedBut.chmodFile (h : t.CreatedBut f mode) : (t.chmodFile f mode).CreatedWith mode := by
  apply h.put
  intro new hnew _
  obtain ⟨file, -, rfl⟩ := Option.map_eq_some_iff.mp hnew
  rfl

theorem CreatedBut.write (h : t.CreatedBut f mode) (change : κ → κ) : (t.write f change).CreatedBut f mode :=
  h.put_same _

theorem CreatedWith.write (h : t.CreatedWith mode) (f : φ) (change : κ → κ) : (t.write f change).CreatedWith mode := by
  apply (h.but f).put
  intro new hnew hcreated
  obtain ⟨file, hfile, rfl⟩ := Option.map_eq_some_iff.mp hnew
  exact h f file hfile hcreated

theorem CreatedWith.remove (h : t.CreatedWith mode) (f : φ) : (t.remove f).CreatedWith mode := by
  apply (h.but f).put
  intro new hnew
  cases hnew

theorem CreatedWith.rename (h : t.CreatedWith mode) (source target : φ) : (t.rename source target).CreatedWith mode := by
  unfold PosixFiles.rename
  split_ifs
  · exact ((h.remove source).but target).put fun new hnew => h source new hnew
  · exact h

/-- `open` may give the file any mode. -/
theorem CreatedWith.openFile_but (h : t.CreatedWith mode) (umask requested : Permissions) (content : κ) (f : φ) :
    (t.openFile umask requested content f).CreatedBut f mode := by
  unfold openFile
  split_ifs
  · exact h.but f
  · exact (h.but f).put_same _

/-- A file that is there is opened as it is. A new one has the mode if the umask leaves it. -/
theorem CreatedWith.openFile (h : t.CreatedWith mode) {umask requested : Permissions} (content : κ) {f : φ}
    (hmask : t.files f = none → masked umask requested = mode) :
    (t.openFile umask requested content f).CreatedWith mode := by
  unfold PosixFiles.openFile
  split_ifs with hthere
  · exact h
  · apply (h.but f).put
    intro new hnew _
    cases hnew
    exact hmask (by simpa using hthere)

end Created

end PosixFiles
end Library
