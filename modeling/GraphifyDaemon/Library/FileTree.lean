import GraphifyDaemon.Library.OrderedDict

/-! File trees with symbolic links. A path is the list of its components below the root
directory. -/
namespace Library

inductive Entry (φ : Type) where
  | directory
  | file (f : φ)
  | symlink (absolute : Bool) (target : List String)
  deriving DecidableEq

abbrev FileTree (φ : Type) := OrderedDict (List String) (Entry φ)

namespace FileTree
variable {φ : Type}

/-- Go through the components from a directory that is already resolved; `follow` resolves
the target of a link met on the way. -/
def walk (follow : List String → List String → Option (List String)) (tree : FileTree φ) :
    List String → List String → Option (List String)
  | here, [] => some here
  | here, name :: rest =>
    if name = "." then walk follow tree here rest
    else if name = ".." then walk follow tree here.dropLast rest
    else match tree.get (here ++ [name]) with
      | some (.symlink absolute target) =>
        (follow (if absolute then [] else here) target).bind (fun real => walk follow tree real rest)
      | _ => walk follow tree (here ++ [name]) rest

/-- Resolution with at most so many links inside each other. -/
def realpathWithin : Nat → FileTree φ → List String → List String → Option (List String)
  | 0, _ => fun _ _ => none
  | depth + 1, tree => walk (realpathWithin depth tree) tree

/-- The real location of a path, which need not exist; none when it runs into a loop of
links. Without a loop no link is met inside itself, so the number of entries bounds the depth. -/
def realpath (tree : FileTree φ) (path : List String) : Option (List String) :=
  realpathWithin (tree.items.length + 1) tree [] path

/-- The file that a path leads to, with its real location. -/
def fileAt (tree : FileTree φ) (path : List String) : Option (List String × φ) :=
  (realpath tree path).bind fun location => match tree.get location with
    | some (.file f) => some (location, f)
    | _ => none

def isDir (tree : FileTree φ) (path : List String) : Bool :=
  match (realpath tree path).bind (OrderedDict.get tree) with
  | some .directory => true
  | _ => false

/-- Why a path leads to no entry. -/
inductive PathError where
  | notFound
  | notDirectory
  | loop
  deriving DecidableEq

/-- Go through the components as the operating system does: each must be there, and all but
the last must be directories. -/
def locateFrom (follow : List String → List String → Except PathError (List String)) (tree : FileTree φ) :
    List String → List String → Except PathError (List String)
  | here, [] => .ok here
  | here, name :: rest =>
    if name = "." then locateFrom follow tree here rest
    else if name = ".." then locateFrom follow tree here.dropLast rest
    else match tree.get (here ++ [name]) with
      | none => .error .notFound
      | some .directory => locateFrom follow tree (here ++ [name]) rest
      | some (.file _) => if rest = [] then .ok (here ++ [name]) else .error .notDirectory
      | some (.symlink absolute target) =>
        match follow (if absolute then [] else here) target with
        | .error e => .error e
        | .ok real => match tree.get real, rest with
          | some (.file _), _ :: _ => .error .notDirectory
          | _, _ => locateFrom follow tree real rest

def locateWithin : Nat → FileTree φ → List String → List String → Except PathError (List String)
  | 0, _ => fun _ _ => .error .loop
  | depth + 1, tree => locateFrom (locateWithin depth tree) tree

/-- Where the entry stands that a path leads to. -/
def locate (tree : FileTree φ) (path : List String) : Except PathError (List String) :=
  locateWithin (tree.items.length + 1) tree [] path

/-- An entry goes with all that is below it. -/
def remove (place : List String) (tree : FileTree φ) : FileTree φ :=
  OrderedDict.eraseAll tree (tree.keys.filter (fun path => place <+: path))

/-- An entry is moved with all that is below it, over what stood at the destination. -/
def move (source destination : List String) (tree : FileTree φ) : FileTree φ :=
  (tree.items.filter (fun item => source <+: item.1)).foldl
    (fun moved item => moved.set (destination ++ item.1.drop source.length) item.2)
    (remove destination (remove source tree))

/-- No link stands at a path or above it. -/
def Plain (tree : FileTree φ) (path : List String) : Prop :=
  ".." ∉ path ∧ "." ∉ path ∧ ∀ above, above <+: path → ∀ absolute target, tree.get above ≠ some (.symlink absolute target)

theorem walk_of_plain {tree : FileTree φ} (follow : List String → List String → Option (List String))
    (rest : List String) : ∀ here, Plain tree (here ++ rest) → walk follow tree here rest = some (here ++ rest) := by
  induction rest with
  | nil => simp [walk]
  | cons name rest ih =>
    intro here hplain
    obtain ⟨hup, hdot, hlinks⟩ := hplain
    have hnext : Plain tree ((here ++ [name]) ++ rest) := by
      rw [List.append_assoc]
      exact ⟨hup, hdot, hlinks⟩
    have hname : name ≠ "." ∧ name ≠ ".." := by
      constructor <;> rintro rfl <;> simp at hup hdot
    have hplace : ∀ absolute target, tree.get (here ++ [name]) ≠ some (.symlink absolute target) :=
      hlinks _ ⟨rest, by simp⟩
    rw [walk, if_neg hname.1, if_neg hname.2]
    split
    · rename_i absolute target hlink
      exact absurd hlink (hplace absolute target)
    · rw [ih _ hnext, List.append_assoc, List.singleton_append]

/-- Where there are no links, every path is its own location. -/
theorem realpath_of_plain {tree : FileTree φ} {path : List String} (h : Plain tree path) :
    realpath tree path = some path :=
  walk_of_plain _ path [] h

end FileTree
end Library
