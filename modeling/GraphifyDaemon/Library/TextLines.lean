import Mathlib.Data.List.Basic
import Mathlib.Data.List.Count

/-! Lines joined by newlines, and where a prefix of the joined text ends. -/
namespace Library.TextLines

theorem joined_cons {line : List Char} {rest : List (List Char)} (h : rest ≠ []) :
    ['\n'].intercalate (line :: rest) = line ++ '\n' :: ['\n'].intercalate rest := by
  rw [List.intercalate_cons_of_ne_nil h]
  simp

/-- What stands before a newline is the lines that came before it, each in full. -/
theorem lines_before_newline {lines : List (List Char)} (hlines : ∀ line ∈ lines, '\n' ∉ line)
    {before after : List Char} (h : ['\n'].intercalate lines = before ++ '\n' :: after) :
    before.count '\n' + 1 < lines.length ∧ before = ['\n'].intercalate (lines.take (before.count '\n' + 1)) := by
  induction lines generalizing before with
  | nil => simp [List.intercalate] at h
  | cons line rest ih =>
    have hline : '\n' ∉ line := hlines line List.mem_cons_self
    cases rest with
    | nil =>
      rw [List.intercalate_singleton] at h
      exact absurd (by simp [h]) hline
    | cons next rest =>
      rw [joined_cons (List.cons_ne_nil next rest)] at h
      have hfirst : before = line → before.count '\n' + 1 < (line :: next :: rest).length ∧
          before = ['\n'].intercalate ((line :: next :: rest).take (before.count '\n' + 1)) := by
        rintro rfl
        simp [List.count_eq_zero.mpr hline]
      rcases List.append_eq_append_iff.mp h with ⟨more, hbefore, hmore⟩ | ⟨more, hsplit, hmore⟩
      · cases more with
        | nil => exact hfirst (by simpa using hbefore)
        | cons c more =>
          obtain ⟨rfl, hrest⟩ := List.cons.inj hmore
          obtain ⟨hcount, hfull⟩ := ih (fun l hl => hlines l (List.mem_cons_of_mem _ hl)) hrest
          have hnewlines : before.count '\n' = more.count '\n' + 1 := by
            rw [hbefore, List.count_append, List.count_eq_zero.mpr hline, List.count_cons_self, Nat.zero_add]
          refine ⟨by rw [hnewlines, List.length_cons]; omega, ?_⟩
          rw [hnewlines, List.take_succ_cons, joined_cons (by simp), ← hfull]
          exact hbefore
      · cases more with
        | nil => exact hfirst (by simpa using hsplit.symm)
        | cons c more =>
          obtain ⟨rfl, -⟩ := List.cons.inj hmore
          exact absurd (by simp [hsplit]) hline

/-- A part of the text without a newline is a part of the first line. -/
theorem take_of_no_newline {line : List Char} {rest : List (List Char)} {n : Nat}
    (hlength : n ≤ (['\n'].intercalate (line :: rest)).length) (h : '\n' ∉ (['\n'].intercalate (line :: rest)).take n) :
    n ≤ line.length ∧ (['\n'].intercalate (line :: rest)).take n = line.take n := by
  cases rest with
  | nil =>
    rw [List.intercalate_singleton] at hlength ⊢
    exact ⟨hlength, rfl⟩
  | cons next rest =>
    rw [joined_cons (List.cons_ne_nil next rest)] at h ⊢
    have hn : n ≤ line.length := by
      by_contra hlong
      refine h ?_
      rw [List.take_append, List.take_of_length_le (by omega)]
      have hmore : n - line.length = (n - line.length - 1) + 1 := by omega
      rw [hmore, List.take_succ_cons]
      simp
    exact ⟨hn, List.take_append_of_le_length hn⟩

end Library.TextLines
