import Mathlib.Data.List.Induction
import Mathlib.Tactic.Common

/-! A sequence of items cut into stretches: one between every two cuts, and the open one
after the last. -/
namespace Library.Stretches
variable {α : Type}

inductive Mark (α : Type) where
  | item (a : α)
  | cut
  deriving DecidableEq

def add (s : List (List α) × List α) : Mark α → List (List α) × List α
  | .item a => (s.1, s.2 ++ [a])
  | .cut => (s.1 ++ [s.2], [])

/-- The stretches that a cut has ended. -/
def closed (marks : List (Mark α)) : List (List α) := (marks.foldl add ([], [])).1

/-- The stretch since the last cut. -/
def current (marks : List (Mark α)) : List α := (marks.foldl add ([], [])).2

def all (marks : List (Mark α)) : List (List α) := closed marks ++ [current marks]

/-- The items, without the cuts. -/
def items (marks : List (Mark α)) : List α :=
  marks.filterMap fun mark => match mark with
    | .item a => some a
    | .cut => none


@[simp] theorem closed_item (marks : List (Mark α)) (a : α) : closed (marks ++ [.item a]) = closed marks := by
  simp [closed, add]

@[simp] theorem current_item (marks : List (Mark α)) (a : α) : current (marks ++ [.item a]) = current marks ++ [a] := by
  simp [current, add]

@[simp] theorem closed_cut (marks : List (Mark α)) : closed (marks ++ [.cut]) = closed marks ++ [current marks] := by
  simp [closed, current, add]

@[simp] theorem current_cut (marks : List (Mark α)) : current (marks ++ [.cut]) = [] := by
  simp [current, add]

/-- Cutting loses nothing and keeps the order. -/
theorem items_eq (marks : List (Mark α)) : items marks = (closed marks).flatten ++ current marks := by
  induction marks using List.reverseRecOn with
  | nil => rfl
  | append_singleton marks mark ih =>
    cases mark with
    | item a =>
      rw [closed_item, current_item, ← List.append_assoc, ← ih]
      simp [items]
    | cut =>
      rw [closed_cut, current_cut, List.flatten_append, List.append_nil]
      simpa [items] using ih

end Library.Stretches
