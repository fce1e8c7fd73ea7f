import GraphifyDaemon.Library.OrderedDict

/-! Python values that have a JSON form, with the dynamic operations Python applies to
them. Numbers are a parameter `ν`: nothing here computes with them. -/
namespace Library

/-- The exceptions the modelled code can raise or let through. -/
inductive PyError where
  | keyError (key : String)
  | typeError
  | attributeError
  | valueError
  | runtimeError
  | fileNotFoundError
  | otherOSError (errno : Nat)
  | sqliteError
  deriving DecidableEq, Repr

/-- A block that goes on with the value of another. -/
theorem bind_eq_ok {α β : Type} {x : Except PyError α} {f : α → Except PyError β} {b : β} :
    x.bind f = .ok b ↔ ∃ a, x = .ok a ∧ f a = .ok b := by
  cases x <;> simp [Except.bind]

/-- The block ends with a value. -/
def Returns {α : Type} (x : Except PyError α) : Prop := ∃ a, x = .ok a

theorem Returns.bind {α β : Type} {x : Except PyError α} {f : α → Except PyError β} (hx : Returns x)
    (hf : ∀ a, x = .ok a → Returns (f a)) : Returns (x.bind f) := by
  obtain ⟨a, ha⟩ := hx
  obtain ⟨b, hb⟩ := hf a ha
  exact ⟨b, bind_eq_ok.mpr ⟨a, ha, hb⟩⟩

theorem returns_map {α β : Type} {x : Except PyError α} {f : α → β} : Returns (x.map f) ↔ Returns x := by
  cases x <;> simp [Returns, Except.map]

/-- A loop that collects values ends with a list of them if every round ends with one. -/
theorem returns_mapM {α β : Type} {f : α → Except PyError β} {xs : List α} :
    Returns (xs.mapM f) ↔ ∀ x ∈ xs, Returns (f x) := by
  induction xs with
  | nil => exact iff_of_true ⟨[], rfl⟩ (by simp)
  | cons x rest ih =>
    rw [List.mapM_cons, List.forall_mem_cons, ← ih]
    constructor
    · rintro ⟨ys, h⟩
      obtain ⟨y, hy, h⟩ := bind_eq_ok.mp h
      obtain ⟨more, hmore, -⟩ := bind_eq_ok.mp h
      exact ⟨⟨y, hy⟩, more, hmore⟩
    · rintro ⟨hfirst, hrest⟩
      exact Returns.bind hfirst fun _ _ => Returns.bind hrest fun _ _ => ⟨_, rfl⟩

inductive Json (ν : Type) where
  | null
  | bool (b : Bool)
  | num (n : ν)
  | str (s : String)
  | arr (xs : List (Json ν))
  | obj (members : List (String × Json ν))

/-- The contents of a `dict` with string keys, in insertion order. -/
abbrev PyDict (ν : Type) := List (String × Json ν)

namespace Json
variable {ν : Type}

mutual
def decEq [DecidableEq ν] : (a b : Json ν) → Decidable (a = b)
  | .null, .null => isTrue rfl
  | .bool a, .bool b => decidable_of_iff (a = b) (by simp)
  | .num a, .num b => decidable_of_iff (a = b) (by simp)
  | .str a, .str b => decidable_of_iff (a = b) (by simp)
  | .arr xs, .arr ys => match decEqList xs ys with
    | isTrue h => isTrue (by rw [h])
    | isFalse h => isFalse (fun he => h (by injection he))
  | .obj xs, .obj ys => match decEqMembers xs ys with
    | isTrue h => isTrue (by rw [h])
    | isFalse h => isFalse (fun he => h (by injection he))
  | .null, .bool _ | .null, .num _ | .null, .str _ | .null, .arr _ | .null, .obj _
  | .bool _, .null | .bool _, .num _ | .bool _, .str _ | .bool _, .arr _ | .bool _, .obj _
  | .num _, .null | .num _, .bool _ | .num _, .str _ | .num _, .arr _ | .num _, .obj _
  | .str _, .null | .str _, .bool _ | .str _, .num _ | .str _, .arr _ | .str _, .obj _
  | .arr _, .null | .arr _, .bool _ | .arr _, .num _ | .arr _, .str _ | .arr _, .obj _
  | .obj _, .null | .obj _, .bool _ | .obj _, .num _ | .obj _, .str _ | .obj _, .arr _ =>
    isFalse (fun he => by injection he)

def decEqList [DecidableEq ν] : (xs ys : List (Json ν)) → Decidable (xs = ys)
  | [], [] => isTrue rfl
  | x :: xs, y :: ys => match decEq x y, decEqList xs ys with
    | isTrue hx, isTrue hxs => isTrue (by rw [hx, hxs])
    | isFalse h, _ => isFalse (fun he => h (by injection he))
    | _, isFalse h => isFalse (fun he => h (by injection he))
  | [], _ :: _ | _ :: _, [] => isFalse (fun he => by injection he)

def decEqMembers [DecidableEq ν] : (xs ys : List (String × Json ν)) → Decidable (xs = ys)
  | [], [] => isTrue rfl
  | (k, x) :: xs, (l, y) :: ys => match decEq x y, decEqMembers xs ys with
    | isTrue hx, isTrue hxs => decidable_of_iff (k = l) (by rw [hx, hxs]; simp)
    | isFalse h, _ => isFalse (fun he => h (by injection he with h1 _; injection h1))
    | _, isFalse h => isFalse (fun he => h (by injection he))
  | [], _ :: _ | _ :: _, [] => isFalse (fun he => by injection he)
end

instance [DecidableEq ν] : DecidableEq (Json ν) := decEq

/-- `d.get(key)` of a dictionary. -/
def lookup (key : String) (d : PyDict ν) : Option (Json ν) := OrderedDict.lookup key d

/-- `key in d` -/
def hasKey (key : String) (d : PyDict ν) : Bool := (lookup key d).isSome

/-- `d[key]` of a dictionary. -/
def getItem (key : String) (d : PyDict ν) : Except PyError (Json ν) :=
  match lookup key d with
  | some v => .ok v
  | none => .error (.keyError key)

/-- `d.get(key, [])` of a dictionary. -/
def getList (key : String) (d : PyDict ν) : Json ν := (lookup key d).getD (.arr [])

/-- What a `for` loop over the value, or `list.extend`, goes through. -/
def iterate : Json ν → Except PyError (List (Json ν))
  | .arr xs => .ok xs
  | .obj members => .ok (members.map (fun m => .str m.1))
  | .str s => .ok (s.toList.map (fun c => .str (String.singleton c)))
  | .null | .bool _ | .num _ => .error .typeError

/-- `len(v)` -/
def len : Json ν → Except PyError Nat
  | .arr xs => .ok xs.length
  | .obj members => .ok members.length
  | .str s => .ok s.length
  | .null | .bool _ | .num _ => .error .typeError

/-- `bool(v)` -/
def truthy [Zero ν] [DecidableEq ν] : Json ν → Bool
  | .null => false
  | .bool b => b
  | .num n => n ≠ 0
  | .str s => s ≠ ""
  | .arr xs => !xs.isEmpty
  | .obj members => !members.isEmpty

/-- `v[key] = value`, for a string key. -/
def setItem (key : String) (value : Json ν) : Json ν → Except PyError (Json ν)
  | .obj members => .ok (.obj (OrderedDict.setItem key value members))
  | .null | .bool _ | .num _ | .str _ | .arr _ => .error .typeError

end Json
end Library
