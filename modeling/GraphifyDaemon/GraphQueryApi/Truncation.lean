import Mathlib.Data.List.TakeDrop
import GraphifyDaemon.Library.TextLines
import GraphifyDaemon.GraphQueryApi.Tools

/-! `_cut_lines_to_budget`: where the text of a tool is cut, and what the notice says about it. -/
namespace GraphifyDaemon
open Library.TextLines

/-- What `_cut_lines_to_budget` decides: the whole text, or the part it keeps under one of its
two notices. -/
inductive Truncation where
  | whole (text : Text)
  | midLine (kept : Text)
  | counted (shown : Nat) (cutCount : Int) (kept : Text)
  deriving DecidableEq

/-- Where the text is cut: at the last newline of the budget's window, unless the window has none
or only one that it begins with. -/
def cutAt (output : Text) (charBudget : Nat) : Nat :=
  match rfind '\n' (output.take charBudget) with
  | some i => if 0 < i then i else charBudget
  | none => charBudget

def truncationOf (lines : List Text) (tokenBudget : Nat) : Truncation :=
  let output := joinLines lines
  let charBudget := tokenBudget * 3
  if lines = [] ∨ output.length ≤ charBudget then .whole output
  else
    let kept := output.take (cutAt output charBudget)
    let shown := kept.count '\n' + 1
    let cutCount : Int := lines.length - shown
    if cutCount = 0 ∧ kept ≠ joinLines (lines.take shown) then .midLine kept
    else .counted shown cutCount kept

/-- The notice above a text that was cut inside its only line. -/
def midLineNotice (tokenBudget : Nat) (narrowHint kept : Text) : Text :=
  "[!] TRUNCATED: this line exceeds the ~".toList ++ natText tokenBudget ++
    "-token budget on its own. ".toList ++ narrowHint ++ "\n\n".toList ++ kept

/-- The notices above and below a text of which whole lines were cut. -/
def countedNotice (shown total tokenBudget : Nat) (cutCount : Int) (narrowHint kept : Text) : Text :=
  "[!] TRUNCATED: showing ".toList ++ natText shown ++ " of ".toList ++ natText total ++
    " lines (~".toList ++ natText tokenBudget ++ "-token budget). ".toList ++ narrowHint ++
    "\n\n".toList ++ kept ++ "\n... (truncated — ".toList ++ intText cutCount ++
    " more lines cut by ~".toList ++ natText tokenBudget ++ "-token budget. ".toList ++ narrowHint ++
    ")".toList

/-- The text that is returned, of `total` lines. -/
def Truncation.render (total tokenBudget : Nat) (narrowHint : Text) : Truncation → Text
  | .whole text => text
  | .midLine kept => midLineNotice tokenBudget narrowHint kept
  | .counted shown cutCount kept => countedNotice shown total tokenBudget cutCount narrowHint kept

/-- The text is what was decided, rendered. -/
theorem cutLinesToBudget_eq (lines : List Text) (tokenBudget : Nat) (narrowHint : Text) :
    cutLinesToBudget lines tokenBudget narrowHint =
      (truncationOf lines tokenBudget).render lines.length tokenBudget narrowHint := by
  unfold cutLinesToBudget truncationOf
  by_cases hfits : lines = [] ∨ (joinLines lines).length ≤ tokenBudget * 3
  · simp only [if_pos hfits, Truncation.render]
  · simp only [if_neg hfits]
    have hnotice : ∀ kept : Text, (if (lines.length : Int) - (kept.count '\n' + 1 : Nat) = 0 ∧
        kept ≠ joinLines (lines.take (kept.count '\n' + 1)) then midLineNotice tokenBudget narrowHint kept
        else countedNotice (kept.count '\n' + 1) lines.length tokenBudget (lines.length - (kept.count '\n' + 1 : Nat))
          narrowHint kept) = Truncation.render lines.length tokenBudget narrowHint
            (if (lines.length : Int) - (kept.count '\n' + 1 : Nat) = 0 ∧
              kept ≠ joinLines (lines.take (kept.count '\n' + 1)) then .midLine kept
            else .counted (kept.count '\n' + 1) (lines.length - (kept.count '\n' + 1 : Nat)) kept) := by
      intro kept
      split_ifs <;> rfl
    exact hnotice ((joinLines lines).take (cutAt (joinLines lines) (tokenBudget * 3)))

private theorem joinLines_cons {line : Text} {rest : List Text} (h : rest ≠ []) :
    joinLines (line :: rest) = line ++ '\n' :: joinLines rest :=
  joined_cons h

private theorem joinLines_singleton (line : Text) : joinLines [line] = line := List.intercalate_singleton

private theorem joinLines_blank (line : Text) : joinLines [[], line] = '\n' :: line := by
  rw [joinLines_cons (List.cons_ne_nil line []), joinLines_singleton, List.nil_append]

private theorem rfind_eq_none {c : Char} {text : Text} (h : rfind c text = none) : c ∉ text := by
  induction text with
  | nil => simp
  | cons x rest ih =>
    unfold rfind at h
    split at h
    · cases h
    · rename_i hrest
      split_ifs at h with hx
      exact fun hmem => (List.mem_cons.mp hmem).elim (fun he => hx he.symm) (ih hrest)

private theorem rfind_eq_some {c : Char} {text : Text} {i : Nat} (h : rfind c text = some i) :
    ∃ before after, text = before ++ c :: after ∧ before.length = i ∧ c ∉ after := by
  induction text generalizing i with
  | nil => cases h
  | cons x rest ih =>
    unfold rfind at h
    split at h
    · rename_i j hj
      cases h
      obtain ⟨before, after, rfl, rfl, hafter⟩ := ih hj
      exact ⟨x :: before, after, rfl, rfl, hafter⟩
    · rename_i hrest
      split_ifs at h with hx
      cases h
      exact ⟨[], rest, by rw [hx]; rfl, rfl, rfind_eq_none hrest⟩

/-- The part kept of a text that was cut. -/
def Truncation.kept : Truncation → Option (Text)
  | .whole _ => none
  | .midLine kept | .counted _ _ kept => some kept

/-- The text is cut only if it is too long, to a prefix that is not, and the notice counts lines
only if it is those lines that are shown. A text that is too long may be its own report by chance,
so that it is unchanged is said of what is decided. -/
structure ReportsAccurately (lines : List Text) (tokenBudget : Nat) : Prop where
  unchanged : truncationOf lines tokenBudget = .whole (joinLines lines) ↔
    (joinLines lines).length ≤ tokenBudget * 3
  returned : (joinLines lines).length ≤ tokenBudget * 3 →
    ∀ narrowHint, cutLinesToBudget lines tokenBudget narrowHint = joinLines lines
  bounded : ∀ kept, (truncationOf lines tokenBudget).kept = some kept →
    kept <+: joinLines lines ∧ kept.length ≤ tokenBudget * 3
  counted : ∀ shown cutCount kept, truncationOf lines tokenBudget = .counted shown cutCount kept →
    shown ≤ lines.length ∧ cutCount = lines.length - shown ∧ kept = joinLines (lines.take shown)
  midLine : ∀ kept, (truncationOf lines tokenBudget).kept = some kept →
    (∀ k, kept ≠ joinLines (lines.take k)) → truncationOf lines tokenBudget = .midLine kept

/-- The first line, or the second after an empty one, does not fit into the budget, and it is
not the last. -/
def LongLineFirst (tokenBudget : Nat) : List Text → Prop
  | first :: second :: rest =>
    tokenBudget * 3 < first.length ∨ (first = [] ∧ rest ≠ [] ∧ tokenBudget * 3 ≤ second.length)
  | [] | [_] => False

section Long
variable {lines : List Text} {tokenBudget : Nat} {n : Nat}

/-- What a notice has to meet, for a text that is too long. -/
theorem reportsAccurately_of_counted (hn : tokenBudget * 3 = n) (hlong : n < (joinLines lines).length) {shown : Nat}
    {kept : Text} (hreport : truncationOf lines tokenBudget = .counted shown (lines.length - shown) kept)
    (hkept : kept <+: joinLines lines) (hlength : kept.length ≤ n) :
    ReportsAccurately lines tokenBudget ↔ shown ≤ lines.length ∧ kept = joinLines (lines.take shown) := by
  constructor
  · intro h
    obtain ⟨hshown, -, hfull⟩ := h.counted _ _ _ hreport
    exact ⟨hshown, hfull⟩
  · rintro ⟨hshown, hfull⟩
    refine ⟨?_, fun hfits => absurd hfits (by omega), ?_, ?_, ?_⟩
    · rw [hreport]
      simp only [reduceCtorEq, false_iff]
      omega
    · rw [hreport]
      rintro _ ⟨⟩
      exact ⟨hkept, by omega⟩
    · rw [hreport]
      rintro _ _ _ ⟨⟩
      exact ⟨hshown, rfl, hfull⟩
    · rw [hreport]
      rintro _ ⟨⟩ hinside
      exact absurd hfull (hinside shown)

private theorem reportsAccurately_of_midLine (hn : tokenBudget * 3 = n) (hlong : n < (joinLines lines).length)
    {kept : Text}
    (hreport : truncationOf lines tokenBudget = .midLine kept) (hkept : kept <+: joinLines lines)
    (hlength : kept.length ≤ n) : ReportsAccurately lines tokenBudget := by
  refine ⟨?_, fun hfits => absurd hfits (by omega), ?_, ?_, ?_⟩
  · rw [hreport]
    simp only [reduceCtorEq, false_iff]
    omega
  · rw [hreport]
    rintro _ ⟨⟩
    exact ⟨hkept, by omega⟩
  · rw [hreport]
    nofun
  · rw [hreport]
    rintro _ ⟨⟩ -
    rfl

/-- A text that is too long, and what is kept of it. -/
theorem truncationOf_long (hne : lines ≠ []) (hn : tokenBudget * 3 = n) (hlong : n < (joinLines lines).length)
    {kept : Text} (hkept : (joinLines lines).take (cutAt (joinLines lines) n) = kept) :
    truncationOf lines tokenBudget =
      if (lines.length : Int) - (kept.count '\n' + 1 : Nat) = 0 ∧ kept ≠ joinLines (lines.take (kept.count '\n' + 1)) then
        .midLine kept
      else .counted (kept.count '\n' + 1) (lines.length - (kept.count '\n' + 1 : Nat)) kept := by
  have hwhole : ¬ (lines = [] ∨ (joinLines lines).length ≤ tokenBudget * 3) := by
    rintro (hnil | hshort)
    · exact hne hnil
    · omega
  unfold truncationOf
  rw [if_neg hwhole, hn, hkept]

/-- The text is cut after its first line, at the last newline that fits. -/
theorem reportsAccurately_of_newline (hlines : ∀ line ∈ lines, '\n' ∉ line) (hn : tokenBudget * 3 = n)
    (hlong : n < (joinLines lines).length) {i : Nat} (hfind : rfind '\n' ((joinLines lines).take n) = some (i + 1)) :
    ReportsAccurately lines tokenBudget := by
  have hne : lines ≠ [] := by
    rintro rfl
    simp [joinLines] at hlong
  obtain ⟨kept, after, hwindow, hi, -⟩ := rfind_eq_some hfind
  have htext : joinLines lines = kept ++ '\n' :: (after ++ (joinLines lines).drop n) := by
    rw [← List.cons_append, ← List.append_assoc, ← hwindow, List.take_append_drop]
  have hcut : (joinLines lines).take (cutAt (joinLines lines) n) = kept := by
    have hat : cutAt (joinLines lines) n = i + 1 := by
      unfold cutAt
      rw [hfind]
      exact if_pos (Nat.succ_pos i)
    rw [hat, htext, ← hi, List.take_left']
    rfl
  have hfit : kept.length ≤ n := by
    have := congrArg List.length hwindow
    rw [List.length_take, List.length_append] at this
    omega
  obtain ⟨hshown, hfull⟩ := lines_before_newline hlines htext
  have hreport := truncationOf_long hne hn hlong hcut
  rw [if_neg (fun h => by omega)] at hreport
  exact (reportsAccurately_of_counted hn hlong hreport ⟨_, htext.symm⟩ hfit).mpr ⟨Nat.le_of_lt hshown, hfull⟩

/-- Without a newline to cut at, the budget's window is kept. -/
theorem cutAt_window (hfind : ∀ i, rfind '\n' ((joinLines lines).take n) ≠ some (i + 1)) :
    (joinLines lines).take (cutAt (joinLines lines) n) = (joinLines lines).take n := by
  have hat : cutAt (joinLines lines) n = n := by
    unfold cutAt
    split
    · rename_i i hi
      split_ifs with hpos
      · obtain ⟨j, rfl⟩ := Nat.exists_eq_succ_of_ne_zero (Nat.ne_of_gt hpos)
        exact absurd hi (hfind j)
      · rfl
    · rfl
  rw [hat]

/-- The window holds a part of the first line only. -/
theorem reportsAccurately_of_first {line : Text} {rest : List Text} (hlines : '\n' ∉ line) (hpos : 0 < n)
    (hn : tokenBudget * 3 = n) (hlong : n < (joinLines (line :: rest)).length)
    (hwindow : '\n' ∉ (joinLines (line :: rest)).take n) :
    ReportsAccurately (line :: rest) tokenBudget ↔ ¬ LongLineFirst tokenBudget (line :: rest) := by
  have hfind : ∀ i, rfind '\n' ((joinLines (line :: rest)).take n) ≠ some (i + 1) := by
    intro i hi
    obtain ⟨before, after, hsplit, -, -⟩ := rfind_eq_some hi
    exact hwindow (by simp [hsplit])
  obtain ⟨hfits, htake⟩ := take_of_no_newline (Nat.le_of_lt hlong) hwindow
  have hcut := (cutAt_window hfind).trans htake
  have hcount : (line.take n).count '\n' = 0 := List.count_eq_zero.mpr (fun hmem => hlines (List.mem_of_mem_take hmem))
  have hprefix : line.take n <+: joinLines (line :: rest) := htake ▸ List.take_prefix n _
  have hlength : (line.take n).length ≤ n := List.length_take_le n line
  have hfull : line.take n = line ↔ line.length ≤ n := List.take_eq_self_iff line
  have hreport := truncationOf_long (List.cons_ne_nil line rest) hn hlong hcut
  rw [hcount] at hreport
  cases rest with
  | nil =>
    have hcutShort : line.take n ≠ line := fun he => by
      have := hfull.mp he
      rw [joinLines_singleton] at hlong
      omega
    rw [if_pos ⟨by simp, by simpa [joinLines_singleton] using hcutShort⟩] at hreport
    exact iff_of_true (reportsAccurately_of_midLine hn hlong hreport hprefix hlength) id
  | cons second rest =>
    have hmore : ((line :: second :: rest).length : Int) - (0 + 1 : Nat) ≠ 0 := by
      simp only [List.length_cons]
      omega
    rw [if_neg (fun h => hmore h.1)] at hreport
    rw [reportsAccurately_of_counted hn hlong hreport hprefix hlength]
    have hline : line ≠ [] := fun he => by
      rw [he, List.length_nil] at hfits
      omega
    have honly : LongLineFirst tokenBudget (line :: second :: rest) ↔ n < line.length := by
      simp only [LongLineFirst, hline, false_and, or_false, hn]
    simp only [Nat.zero_add, List.take_succ_cons, List.take_zero, joinLines_singleton, hfull, honly, List.length_cons]
    omega

/-- The first line is empty, and the window holds a part of the second only. -/
theorem reportsAccurately_of_second {second : Text} {rest : List Text} (hlines : '\n' ∉ second)
    (hn : tokenBudget * 3 = (n + 1 : Nat)) (hlong : n < (joinLines (second :: rest)).length)
    (hwindow : '\n' ∉ (joinLines (second :: rest)).take n) :
    ReportsAccurately ([] :: second :: rest) tokenBudget ↔ ¬ LongLineFirst tokenBudget ([] :: second :: rest) := by
  have htext : joinLines ([] :: second :: rest) = '\n' :: joinLines (second :: rest) :=
    joinLines_cons (List.cons_ne_nil second rest)
  have hlong' : n + 1 < (joinLines ([] :: second :: rest)).length := by
    rw [htext, List.length_cons]
    omega
  obtain ⟨hfits, htake⟩ : n ≤ second.length ∧ (joinLines (second :: rest)).take n = second.take n :=
    take_of_no_newline (Nat.le_of_lt hlong) hwindow
  have hkept : (joinLines ([] :: second :: rest)).take (n + 1) = '\n' :: second.take n := by
    rw [htext, List.take_succ_cons, htake]
  have hnone : '\n' ∉ second.take n := fun hmem => hlines (List.mem_of_mem_take hmem)
  have hfind : ∀ i, rfind '\n' ((joinLines ([] :: second :: rest)).take (n + 1)) ≠ some (i + 1) := by
    intro i hi
    rw [hkept] at hi
    obtain ⟨before, after, hsplit, hbefore, -⟩ := rfind_eq_some hi
    cases before with
    | nil => cases hbefore
    | cons c before => exact hnone (by simp [(List.cons.inj hsplit).2])
  have hcut := (cutAt_window hfind).trans hkept
  have hcount : ('\n' :: second.take n).count '\n' = 1 := by
    rw [List.count_cons_self, List.count_eq_zero.mpr hnone]
  have hprefix : '\n' :: second.take n <+: joinLines ([] :: second :: rest) := hkept ▸ List.take_prefix (n + 1) _
  have hlength : ('\n' :: second.take n).length ≤ n + 1 := by
    rw [List.length_cons]
    exact Nat.succ_le_succ (List.length_take_le n second)
  have hfull : '\n' :: second.take n = '\n' :: second ↔ second.length ≤ n := by
    rw [List.cons_inj_right, List.take_eq_self_iff]
  have hreport := truncationOf_long (List.cons_ne_nil [] (second :: rest)) hn hlong' hcut
  rw [hcount] at hreport
  cases rest with
  | nil =>
    have hcutShort : '\n' :: second.take n ≠ '\n' :: second := fun he => by
      have := hfull.mp he
      rw [joinLines_singleton] at hlong
      omega
    have hshown : joinLines (([[], second] : List Text).take (1 + 1)) = '\n' :: second := joinLines_blank second
    rw [if_pos ⟨by simp, hshown ▸ hcutShort⟩] at hreport
    refine iff_of_true (reportsAccurately_of_midLine hn hlong' hreport hprefix hlength) ?_
    rintro (hfirst | ⟨-, hmore, -⟩)
    · rw [hn, List.length_nil] at hfirst
      omega
    · exact hmore rfl
  | cons third rest =>
    have hmore : (([] :: second :: third :: rest : List Text).length : Int) - (1 + 1 : Nat) ≠ 0 := by
      simp only [List.length_cons]
      omega
    rw [if_neg (fun h => hmore h.1)] at hreport
    rw [reportsAccurately_of_counted hn hlong' hreport hprefix hlength]
    have honly : LongLineFirst tokenBudget ([] :: second :: third :: rest) ↔ n < second.length := by
      simp only [LongLineFirst, hn, List.length_nil, ne_eq, reduceCtorEq, not_false_eq_true, true_and]
      omega
    have hshown : joinLines (([] :: second :: third :: rest).take (1 + 1)) = '\n' :: second := joinLines_blank second
    rw [hshown, hfull, honly]
    simp only [List.length_cons]
    omega

/-- A newline to cut at leaves no line too long. -/
theorem not_longLineFirst_of_newline (hlines : ∀ line ∈ lines, '\n' ∉ line) (hn : tokenBudget * 3 = n) {i : Nat}
    (hfind : rfind '\n' ((joinLines lines).take n) = some (i + 1)) : ¬ LongLineFirst tokenBudget lines := by
  obtain ⟨before, after, hwindow, hi, -⟩ := rfind_eq_some hfind
  intro hfirst
  cases lines with
  | nil => exact hfirst
  | cons first rest => cases rest with
    | nil => exact hfirst
    | cons second rest =>
      obtain ⟨hnoFirst, hnoRest⟩ := List.forall_mem_cons.mp hlines
      rw [joinLines_cons (List.cons_ne_nil second rest)] at hwindow
      rcases hfirst with hlong | ⟨rfl, hmore, hlong⟩
      · rw [List.take_append_of_le_length (by omega)] at hwindow
        refine hnoFirst (List.mem_of_mem_take (i := n) ?_)
        simp [hwindow]
      · cases before with
        | nil => cases hi
        | cons c before =>
          cases n with
          | zero => simp at hwindow
          | succ m =>
            rw [List.nil_append, List.take_succ_cons, joinLines_cons hmore,
              List.take_append_of_le_length (by omega)] at hwindow
            refine hnoRest second List.mem_cons_self (List.mem_of_mem_take (i := m) ?_)
            simp [(List.cons.inj hwindow).2]

end Long

/-- A text that fits is returned as it is. -/
theorem reportsAccurately_of_fits {lines : List Text} {tokenBudget : Nat}
    (hfits : (joinLines lines).length ≤ tokenBudget * 3) : ReportsAccurately lines tokenBudget := by
  have hreport : truncationOf lines tokenBudget = .whole (joinLines lines) := by
    unfold truncationOf
    rw [if_pos (.inr hfits)]
  refine ⟨iff_of_true hreport hfits, fun _ narrowHint => ?_, ?_, ?_, ?_⟩
  · rw [cutLinesToBudget_eq, hreport]
    rfl
  · rw [hreport]
    nofun
  · rw [hreport]
    nofun
  · rw [hreport]
    nofun

/-- A first line longer than the text is no part of it. -/
theorem not_longLineFirst_of_fits {lines : List Text} {tokenBudget : Nat}
    (hfits : (joinLines lines).length ≤ tokenBudget * 3) : ¬ LongLineFirst tokenBudget lines := by
  intro hfirst
  cases lines with
  | nil => exact hfirst
  | cons first rest => cases rest with
    | nil => exact hfirst
    | cons second rest =>
      rw [joinLines_cons (List.cons_ne_nil second rest), List.length_append, List.length_cons] at hfits
      rcases hfirst with hlong | ⟨-, hmore, hlong⟩
      · omega
      · rw [joinLines_cons hmore, List.length_append] at hfits
        omega

/-- The notices are accurate exactly when no over-long line, but for an empty one before it, comes
first of several. -/
theorem truncation_accurate_iff {lines : List Text} {tokenBudget : Nat} (hne : lines ≠ [])
    (hlines : ∀ line ∈ lines, '\n' ∉ line) (hbudget : 1 ≤ tokenBudget) :
    ReportsAccurately lines tokenBudget ↔ ¬ LongLineFirst tokenBudget lines := by
  by_cases hfits : (joinLines lines).length ≤ tokenBudget * 3
  · exact iff_of_true (reportsAccurately_of_fits hfits) (not_longLineFirst_of_fits hfits)
  obtain ⟨n, hn⟩ : ∃ n, tokenBudget * 3 = n := ⟨_, rfl⟩
  have hlong : n < (joinLines lines).length := by omega
  cases hfind : rfind '\n' ((joinLines lines).take n) with
  | none =>
    obtain ⟨line, rest, rfl⟩ := List.exists_cons_of_ne_nil hne
    exact reportsAccurately_of_first (hlines line List.mem_cons_self) (by omega) hn hlong (rfind_eq_none hfind)
  | some i => cases i with
    | succ i =>
      exact iff_of_true (reportsAccurately_of_newline hlines hn hlong hfind) (not_longLineFirst_of_newline hlines hn hfind)
    | zero =>
      obtain ⟨before, after, hwindow, hbefore, hafter⟩ := rfind_eq_some hfind
      obtain rfl := List.length_eq_zero_iff.mp hbefore
      obtain ⟨m, rfl⟩ : ∃ m, n = m + 1 := ⟨n - 1, by omega⟩
      obtain ⟨line, rest, rfl⟩ := List.exists_cons_of_ne_nil hne
      obtain ⟨hline, hrest⟩ := List.forall_mem_cons.mp hlines
      -- the text begins with a newline: its first line is empty, and another follows
      cases line with
      | cons c line =>
        cases rest with
        | nil =>
          rw [joinLines_singleton, List.take_succ_cons] at hwindow
          exact absurd (by simp [(List.cons.inj hwindow).1]) hline
        | cons second rest =>
          rw [joinLines_cons (List.cons_ne_nil second rest), List.cons_append, List.take_succ_cons] at hwindow
          exact absurd (by simp [(List.cons.inj hwindow).1]) hline
      | nil =>
        cases rest with
        | nil => simp [joinLines] at hlong
        | cons second rest =>
          rw [joinLines_cons (List.cons_ne_nil second rest), List.nil_append, List.take_succ_cons] at hwindow
          rw [joinLines_cons (List.cons_ne_nil second rest), List.nil_append, List.length_cons] at hlong
          refine reportsAccurately_of_second (hrest second List.mem_cons_self) hn (by omega) ?_
          rw [(List.cons.inj hwindow).2]
          exact hafter

theorem truncation_accurate_iff_secondCut :
    ReportsAccurately ["ab".toList, "cdef".toList] 1 ↔ ¬ LongLineFirst 1 ["ab".toList, "cdef".toList] :=
  truncation_accurate_iff (by decide) (by decide) (by decide)

/-- One of two lines is said to be shown, and only its first three characters are. -/
theorem long_first_line_misreported :
    cutLinesToBudget ["abcdef".toList, "g".toList] 1 "hint".toList = countedNotice 1 2 1 1 "hint".toList "abc".toList ∧
      ¬ ReportsAccurately ["abcdef".toList, "g".toList] 1 := by
  have hreport : truncationOf ["abcdef".toList, "g".toList] 1 = .counted 1 1 "abc".toList := by decide
  refine ⟨?_, fun h => ?_⟩
  · rw [cutLinesToBudget_eq, hreport]
    rfl
  · obtain ⟨-, -, hfull⟩ := h.counted 1 1 "abc".toList hreport
    exact absurd hfull (by decide)

end GraphifyDaemon
