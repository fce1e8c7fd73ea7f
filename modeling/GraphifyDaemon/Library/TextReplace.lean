import Mathlib.Data.List.Infix

/-! `str.replace`: from left to right, occurrences that do not overlap. A marker that a
pattern can neither begin inside nor run into does not bring the pattern about. -/
namespace Library.TextReplace
variable {α : Type} [DecidableEq α]

/-- `text.replace(old, new)` for an `old` that is not empty, past the first `skip` characters. -/
def replaceFrom (old new : List α) : Nat → List α → List α
  | _, [] => []
  | skip + 1, _ :: rest => replaceFrom old new skip rest
  | 0, c :: rest =>
    if old <+: c :: rest then new ++ replaceFrom old new (old.length - 1) rest
    else c :: replaceFrom old new 0 rest

def replace (old new text : List α) : List α := replaceFrom old new 0 text

example : replace [1, 1] [0] [1, 1, 1, 2, 1, 1] = [0, 1, 2, 0] := by decide

/-- No occurrence of the pattern begins in the marker, and none includes its first character. -/
structure Foreign (marker pattern : List α) : Prop where
  begins : ∃ first rest, pattern = first :: rest ∧ first ∉ marker
  includes : ∃ first rest, marker = first :: rest ∧ first ∉ pattern

omit [DecidableEq α] in
theorem infix_of_infix_append {first : α} {rest before after : List α} (hfirst : first ∉ before)
    (h : first :: rest <:+: before ++ after) : first :: rest <:+: after := by
  induction before with
  | nil => exact h
  | cons c before ih =>
    rw [List.mem_cons, not_or] at hfirst
    rcases List.infix_cons_iff.mp h with hprefix | hinfix
    · exact absurd (List.cons_prefix_cons.mp hprefix).1 hfirst.1
    · exact ih hfirst.2 hinfix

/-- What the result begins with, the text begins with. -/
theorem prefix_of_prefix_replace {old new : List α} {first : α} {rest : List α} (hnew : new = first :: rest)
    {pattern text : List α} (hpattern : first ∉ pattern) (h : pattern <+: replaceFrom old new 0 text) :
    pattern <+: text := by
  induction text generalizing pattern with
  | nil => exact h
  | cons c text ih =>
    unfold replaceFrom at h
    cases pattern with
    | nil => exact List.nil_prefix
    | cons p pattern =>
      rw [List.mem_cons, not_or] at hpattern
      split_ifs at h
      · rw [hnew] at h
        exact absurd (List.cons_prefix_cons.mp h).1.symm hpattern.1
      · obtain ⟨rfl, hrest⟩ := List.cons_prefix_cons.mp h
        exact List.cons_prefix_cons.mpr ⟨rfl, ih hpattern.2 hrest⟩

/-- A replacement brings no pattern about that the marker is foreign to. -/
theorem infix_of_infix_replace {old new pattern : List α} (hforeign : Foreign new pattern) {skip : Nat} {text : List α}
    (h : pattern <:+: replaceFrom old new skip text) : pattern <:+: text := by
  obtain ⟨first, rest, rfl, hfirst⟩ := hforeign.begins
  obtain ⟨marked, markedRest, hnew, hmarked⟩ := hforeign.includes
  induction text generalizing skip with
  | nil => simp [replaceFrom] at h
  | cons c text ih =>
    cases skip with
    | succ skip => exact List.infix_cons (ih h)
    | zero =>
      unfold replaceFrom at h
      split_ifs at h
      · exact List.infix_cons (ih (infix_of_infix_append hfirst h))
      · rcases List.infix_cons_iff.mp h with hprefix | hinfix
        · obtain ⟨rfl, htail⟩ := List.cons_prefix_cons.mp hprefix
          rw [List.mem_cons, not_or] at hmarked
          exact (List.cons_prefix_cons.mpr ⟨rfl, prefix_of_prefix_replace hnew hmarked.2 htail⟩).isInfix
        · exact List.infix_cons (ih hinfix)

/-- No occurrence of the replaced pattern is left. -/
theorem not_infix_replace {old new : List α} (hforeign : Foreign new old) (skip : Nat) (text : List α) :
    ¬ old <:+: replaceFrom old new skip text := by
  obtain ⟨first, rest, hold, hfirst⟩ := hforeign.begins
  obtain ⟨marked, markedRest, hnew, hmarked⟩ := hforeign.includes
  induction text generalizing skip with
  | nil => simp [replaceFrom, hold]
  | cons c text ih =>
    intro h
    cases skip with
    | succ skip => exact ih skip h
    | zero =>
      unfold replaceFrom at h
      split_ifs at h with hhere
      · rw [hold] at h
        refine ih (old.length - 1) ?_
        rw [hold]
        exact infix_of_infix_append hfirst h
      · rcases List.infix_cons_iff.mp h with hprefix | hinfix
        · refine hhere ?_
          rw [hold] at hprefix hmarked ⊢
          obtain ⟨rfl, htail⟩ := List.cons_prefix_cons.mp hprefix
          rw [List.mem_cons, not_or] at hmarked
          exact List.cons_prefix_cons.mpr ⟨rfl, prefix_of_prefix_replace hnew hmarked.2 htail⟩
        · exact ih 0 hinfix

end Library.TextReplace
