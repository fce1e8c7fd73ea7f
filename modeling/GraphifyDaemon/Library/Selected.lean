import Mathlib.Data.List.Basic

/-! The part of a list that a function selects, where items are changed or taken out by position. -/
namespace Library.Selected
variable {α β : Type} {f : α → Option β} {xs : List α} {i : Nat} {x y : α} {b c : β}

/-- Where the selected part has what is selected at a position. -/
def place (f : α → Option β) (xs : List α) (i : Nat) : Nat := ((xs.take i).filterMap f).length

theorem split_at (h : xs[i]? = some x) : xs = xs.take i ++ x :: xs.drop (i + 1) ∧ (xs.take i).length = i := by
  obtain ⟨hi, rfl⟩ := List.getElem?_eq_some_iff.mp h
  refine ⟨?_, List.length_take_of_le (Nat.le_of_lt hi)⟩
  rw [List.getElem_cons_drop, List.take_append_drop]

theorem filterMap_of_selected (h : xs[i]? = some x) (hx : f x = some b) :
    xs.filterMap f = (xs.take i).filterMap f ++ b :: (xs.drop (i + 1)).filterMap f := by
  conv_lhs => rw [(split_at h).1]
  rw [List.filterMap_append, List.filterMap_cons_some hx]

theorem getElem?_of_selected (h : xs[i]? = some x) (hx : f x = some b) : (xs.filterMap f)[place f xs i]? = some b := by
  rw [filterMap_of_selected h hx, place, List.getElem?_append_right (Nat.le_refl _), Nat.sub_self]
  rfl

/-- Taking out a selected item takes it out of the selected part. -/
theorem eraseIdx_of_selected (h : xs[i]? = some x) (hx : f x = some b) :
    (xs.eraseIdx i).filterMap f = (xs.filterMap f).eraseIdx (place f xs i) := by
  rw [filterMap_of_selected h hx, place, List.eraseIdx_append_of_length_le (Nat.le_refl _), Nat.sub_self,
    List.eraseIdx_cons_zero, List.eraseIdx_eq_take_drop_succ, List.filterMap_append]

/-- Taking out any other item leaves the selected part. -/
theorem eraseIdx_of_not_selected (h : xs[i]? = some x) (hx : f x = none) :
    (xs.eraseIdx i).filterMap f = xs.filterMap f := by
  conv_rhs => rw [(split_at h).1]
  rw [List.filterMap_append, List.filterMap_cons_none hx, List.eraseIdx_eq_take_drop_succ, List.filterMap_append]

/-- A change that what is selected does not show. -/
theorem set_of_same (h : xs[i]? = some x) (hsame : f y = f x) : (xs.set i y).filterMap f = xs.filterMap f := by
  obtain ⟨hi, -⟩ := List.getElem?_eq_some_iff.mp h
  conv_rhs => rw [(split_at h).1]
  rw [List.set_eq_take_append_cons_drop, if_pos hi, List.filterMap_append, List.filterMap_append, List.filterMap_cons,
    List.filterMap_cons, hsame]

end Library.Selected
