import Mathlib.Data.List.Sort

/-! The values at the ranks of a list of samples. -/
namespace Library.OrderStatistic
variable {α : Type} [LinearOrder α]

/-- `sorted(samples)` -/
def sorted (samples : List α) : List α := samples.insertionSort (· ≤ ·)

/-- A sample at rank `i`, from 0: more than `i` of the samples are not above it, and no fewer
than the rest are not below it. -/
structure AtRank (samples : List α) (i : Nat) (v : α) : Prop where
  mem : v ∈ samples
  notAbove : i < samples.countP fun x => x ≤ v
  notBelow : samples.length ≤ samples.countP (fun x => v ≤ x) + i

theorem sorted_perm (samples : List α) : (sorted samples).Perm samples := List.perm_insertionSort _ _

theorem length_sorted (samples : List α) : (sorted samples).length = samples.length :=
  (sorted_perm samples).length_eq

theorem pairwise_sorted (samples : List α) : (sorted samples).Pairwise (· ≤ ·) := List.pairwise_insertionSort _ _

theorem atRank_sorted {samples : List α} {i : Nat} {v : α} (h : (sorted samples)[i]? = some v) : AtRank samples i v := by
  obtain ⟨hi, rfl⟩ := List.getElem?_eq_some_iff.mp h
  have hsplit : sorted samples = (sorted samples).take i ++ (sorted samples)[i] :: (sorted samples).drop (i + 1) := by
    rw [List.getElem_cons_drop, List.take_append_drop]
  obtain ⟨-, hrest, hfront⟩ := List.pairwise_append.mp (hsplit ▸ pairwise_sorted samples)
  have hbefore : ∀ x ∈ (sorted samples).take i, x ≤ (sorted samples)[i] :=
    fun x hx => hfront x hx _ List.mem_cons_self
  have hafter : ∀ x ∈ (sorted samples).drop (i + 1), (sorted samples)[i] ≤ x :=
    (List.pairwise_cons.mp hrest).1
  have hcount : ∀ p : α → Bool, samples.countP p = ((sorted samples).take i).countP p +
      (((sorted samples).drop (i + 1)).countP p + if p (sorted samples)[i] then 1 else 0) := by
    intro p
    rw [← (sorted_perm samples).countP_eq p, ← List.countP_cons, ← List.countP_append, ← hsplit]
  have hlow : ((sorted samples).take i).countP (fun x => x ≤ (sorted samples)[i]) = ((sorted samples).take i).length :=
    List.countP_eq_length.mpr (by simpa using hbefore)
  have hhigh : ((sorted samples).drop (i + 1)).countP (fun x => (sorted samples)[i] ≤ x) =
      ((sorted samples).drop (i + 1)).length := List.countP_eq_length.mpr (by simpa using hafter)
  refine ⟨(sorted_perm samples).subset (List.getElem_mem hi), ?_, ?_⟩
  · rw [hcount, hlow, List.length_take, if_pos (by simp)]
    omega
  · rw [hcount, hhigh, List.length_drop, if_pos (by simp), ← length_sorted samples]
    omega

/-- A sample at a lower rank is no greater. -/
theorem AtRank.mono {samples : List α} {i j : Nat} {v w : α} (hv : AtRank samples i v) (hw : AtRank samples j w)
    (hij : i ≤ j) : v ≤ w := by
  by_contra hlt
  have hlt : w < v := lt_of_not_ge hlt
  have hapart : samples.countP (fun x => v ≤ x) ≤ samples.countP fun x => ¬ x ≤ w := by
    apply List.countP_mono_left
    intro x _ hx
    simpa using lt_of_lt_of_le hlt (by simpa using hx)
  have hall : samples.length = samples.countP (fun x => x ≤ w) + samples.countP fun x => ¬ x ≤ w := by
    rw [List.length_eq_countP_add_countP fun x => decide (x ≤ w)]
    simp
  have hnotAbove := hw.notAbove
  have hnotBelow := hv.notBelow
  omega

end Library.OrderStatistic
