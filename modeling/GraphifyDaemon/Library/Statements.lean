import Mathlib.Data.List.Basic

/-! A sequential program, one statement at a time, in a state that others change as well. What a
statement is executed for has to outlast everything that happens later. -/
namespace Library
variable {S σ : Type}

/-- What is left of the program is `todo`, and what each statement before it was for holds. -/
structure Past (program : List S) (Post : S → σ → Prop) (todo : List S) (s : σ) : Prop where
  split : ∃ done, program = done ++ todo ∧ ∀ st ∈ done, Post st s

namespace Past
variable {program todo : List S} {Post : S → σ → Prop} {s s' : σ} {st : S}

theorem start : Past program Post program s := ⟨[], rfl, by simp⟩

theorem keep (h : Past program Post todo s) (kept : ∀ x, Post x s → Post x s') : Past program Post todo s' := by
  obtain ⟨done, hsplit, hdone⟩ := h.split
  exact ⟨done, hsplit, fun x hx => kept x (hdone x hx)⟩

theorem advance (h : Past program Post (st :: todo) s) (new : Post st s') (kept : ∀ x, x ≠ st → Post x s → Post x s') :
    Past program Post todo s' := by
  obtain ⟨done, hsplit, hdone⟩ := h.split
  refine ⟨done ++ [st], by simp [hsplit], fun x hx => ?_⟩
  by_cases hst : x = st
  · exact hst ▸ new
  · exact kept x hst (hdone x (by simpa [hst] using hx))

/-- A statement that is not left has been executed. -/
theorem post (h : Past program Post todo s) (hmem : st ∈ program) (hnot : st ∉ todo) : Post st s := by
  obtain ⟨done, hsplit, hdone⟩ := h.split
  rw [hsplit] at hmem
  rcases List.mem_append.mp hmem with hin | hleft
  · exact hdone st hin
  · exact absurd hleft hnot

theorem suffix (h : Past program Post todo s) : todo <:+ program := by
  obtain ⟨done, hsplit, -⟩ := h.split
  exact ⟨done, hsplit.symm⟩

end Past
end Library
