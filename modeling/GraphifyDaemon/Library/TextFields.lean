import Mathlib.Data.List.Basic
import Mathlib.Tactic.Common

/-! Texts made of numbers, separators and lines: what was put in can be read off again. -/
namespace Library.TextFields

theorem toList_toString_nat (n : Nat) : (toString n).toList = Nat.toDigits 10 n := Nat.toList_repr

theorem isDigit_of_mem_nat {n : Nat} {c : Char} (h : c ∈ (toString n).toList) : c.isDigit = true := by
  rw [toList_toString_nat] at h
  exact Nat.isDigit_of_mem_toDigits (by decide) (by decide) h

theorem nat_injective {m n : Nat} (h : (toString m).toList = (toString n).toList) : m = n := by
  rw [toList_toString_nat, toList_toString_nat] at h
  rw [← Nat.ofDigitChars_ten_toDigits (n := m), h, Nat.ofDigitChars_ten_toDigits]

theorem toList_toString_negSucc (n : Nat) : (toString (Int.negSucc n)).toList = '-' :: (toString (n + 1)).toList := by
  change ("-" ++ (n + 1).repr).toList = _
  rw [String.toList_append]
  rfl

theorem mem_int {i : Int} {c : Char} (h : c ∈ (toString i).toList) : c = '-' ∨ c.isDigit = true := by
  cases i with
  | ofNat n => exact .inr (isDigit_of_mem_nat h)
  | negSucc n =>
    rw [toList_toString_negSucc] at h
    rcases List.mem_cons.mp h with hminus | hdigit
    · exact .inl hminus
    · exact .inr (isDigit_of_mem_nat hdigit)

/-- A number does not begin with a minus sign. -/
theorem nat_ne_minus (n : Nat) (rest : List Char) : (toString n).toList ≠ '-' :: rest := by
  intro h
  have hminus : '-' ∈ (toString n).toList := by
    rw [h]
    exact List.mem_cons_self
  exact absurd (isDigit_of_mem_nat hminus) (by decide)

theorem int_injective {i j : Int} (h : (toString i).toList = (toString j).toList) : i = j := by
  cases i with
  | ofNat m => cases j with
    | ofNat n => exact congrArg Int.ofNat (nat_injective h)
    | negSucc n =>
      rw [toList_toString_negSucc] at h
      exact absurd h (nat_ne_minus m _)
  | negSucc m => cases j with
    | ofNat n =>
      rw [toList_toString_negSucc] at h
      exact absurd h.symm (nat_ne_minus n _)
    | negSucc n =>
      rw [toList_toString_negSucc, toList_toString_negSucc] at h
      exact congrArg Int.negSucc (Nat.succ.inj (nat_injective (List.cons.inj h).2))

variable {α : Type} {c : α} {xs ys us vs : List α}

/-- The parts before and after the first separator. -/
theorem split_first (hx : c ∉ xs) (hy : c ∉ ys) (h : xs ++ c :: us = ys ++ c :: vs) : xs = ys ∧ us = vs := by
  rcases List.append_eq_append_iff.mp h with ⟨more, rfl, hmore⟩ | ⟨more, rfl, hmore⟩
  · cases more with
    | nil => simpa using hmore
    | cons d more =>
      obtain ⟨rfl, -⟩ := List.cons.inj hmore
      simp at hy
  · cases more with
    | nil => simpa [eq_comm] using hmore
    | cons d more =>
      obtain ⟨rfl, -⟩ := List.cons.inj hmore
      simp at hx

/-- The parts before and after the last separator. -/
theorem split_last (hu : c ∉ us) (hv : c ∉ vs) (h : xs ++ c :: us = ys ++ c :: vs) : xs = ys ∧ us = vs := by
  have hreversed : us.reverse ++ c :: xs.reverse = vs.reverse ++ c :: ys.reverse := by
    simpa using congrArg List.reverse h
  obtain ⟨hafter, hbefore⟩ := split_first (by simpa using hu) (by simpa using hv) hreversed
  exact ⟨List.reverse_injective hbefore, List.reverse_injective hafter⟩

/-- Lines can be told apart in the text that they are joined to. -/
theorem joined_injective {lines lines' : List (List Char)} (hlines : ∀ line ∈ lines, '\n' ∉ line)
    (hlines' : ∀ line ∈ lines', '\n' ∉ line) (hne : lines ≠ []) (hne' : lines' ≠ [])
    (h : ['\n'].intercalate lines = ['\n'].intercalate lines') : lines = lines' := by
  rw [← List.splitOn_intercalate '\n' hlines hne, h, List.splitOn_intercalate '\n' hlines' hne']

end Library.TextFields
