import GraphifyDaemon.Library.PyValue

/-! Vault paths, the exclusion rules and the confinement check. A vault path is kept
relative to `vault_root`: every use of one in the source takes `relative_to` first. -/
namespace GraphifyDaemon
open Library

/-- A path component as `pathlib` keeps it. -/
def IsName (n : String) : Prop := n ≠ "" ∧ n ≠ "." ∧ '/' ∉ n.toList

instance (n : String) : Decidable (IsName n) := inferInstanceAs (Decidable (_ ∧ _ ∧ _))

/-- The parts of a path relative to the vault root. -/
structure VaultPath where
  parts : List String
  names : ∀ n ∈ parts, IsName n
  deriving DecidableEq

/-- `str(path)` -/
def VaultPath.str (p : VaultPath) : String :=
  if p.parts = [] then "." else String.ofList (['/'].intercalate (p.parts.map String.toList))

/-- Two notes at the root of a vault, and one in a folder. -/
def notePath : VaultPath := ⟨["note.md"], by decide⟩
def otherPath : VaultPath := ⟨["other.md"], by decide⟩
def folderNotePath : VaultPath := ⟨["folder", "note.md"], by decide⟩

/-- The parts of an absolute path, the anchor left out. -/
abbrev AbsolutePath := List String

def EXCLUDED_DIR_NAMES : List String := [".obsidian", ".trash", "node_modules", ".git", "__pycache__"]

def OBSERVED_SUFFIXES : List String := [".md", ".py"]

/-- `Path.suffix`: from the last dot on, unless that dot begins or ends the name. -/
def suffix (p : VaultPath) : String :=
  let name := (p.parts.getLast?.getD "").toList
  let after := (name.reverse.takeWhile (· ≠ '.')).reverse
  let i := name.length - after.length - 1
  if '.' ∈ name ∧ 0 < i ∧ i < name.length - 1 then String.ofList ('.' :: after) else ""

/-- `is_excluded`: such a path must never enter a batch. -/
def isExcluded (nestedRepoNames : List String) (p : VaultPath) : Bool :=
  if suffix p ∉ OBSERVED_SUFFIXES then true
  else p.parts.any (fun part => part ∈ EXCLUDED_DIR_NAMES ++ nestedRepoNames)

/-- `resolve_within_vault`. The argument stands for `Path.resolve(strict=False)` on the
file system of that moment, which raises on a symlink loop. -/
def resolveWithinVault (resolve : AbsolutePath → Except PyError AbsolutePath)
    (path vaultRoot : AbsolutePath) : Except PyError (Option AbsolutePath) :=
  match resolve vaultRoot with
  | .error e => .error e
  | .ok resolvedRoot => match resolve path with
    | .error e => .error e
    | .ok resolvedPath =>
      .ok (if resolvedRoot <+: resolvedPath then some resolvedPath else none)

example : suffix ⟨["notes", "a.b.md"], by decide⟩ = ".md" := by decide
example : suffix ⟨[".md"], by decide⟩ = "" := by decide
example : isExcluded [] ⟨["notes", ".git", "a.md"], by decide⟩ = true := by decide

theorem suffix_of_not_excluded {nested : List String} {p : VaultPath} (h : isExcluded nested p = false) :
    suffix p ∈ OBSERVED_SUFFIXES := by
  unfold isExcluded at h
  split_ifs at h with hsuffix
  simpa using hsuffix

end GraphifyDaemon
