import Mathlib.Data.List.Basic

/-! Slots that are written one after the other, each write overwriting the one before. When
several writers have written, their order matters only where they disagree. -/
namespace Library.LastWriter
variable {ρ κ α : Type} [DecidableEq κ]

/-- What the last write of a slot left there. -/
def lastWrite (slot : κ) : List (κ × α) → Option α
  | [] => none
  | (k, v) :: rest => match lastWrite slot rest with
    | some w => some w
    | none => if k = slot then some v else none

theorem lastWrite_append (slot : κ) (writes later : List (κ × α)) :
    lastWrite slot (writes ++ later) = (lastWrite slot later).or (lastWrite slot writes) := by
  induction writes with
  | nil => simp [lastWrite]
  | cons write rest ih =>
    obtain ⟨k, v⟩ := write
    rw [List.cons_append, lastWrite, ih, lastWrite]
    cases lastWrite slot later with
    | some w => rfl
    | none => simp

variable (writesOf : ρ → List (κ × α))

/-- Two writers agree on each slot that both write. -/
def Agree (r s : ρ) : Prop :=
  ∀ slot v w, lastWrite slot (writesOf r) = some v → lastWrite slot (writesOf s) = some w → v = w

variable {writesOf}

/-- What some writer left in a slot, all of them leave there, whoever comes last. -/
theorem lastWrite_of_agree {writers : List ρ} (hagree : ∀ r ∈ writers, ∀ s ∈ writers, Agree writesOf r s)
    {slot : κ} {v : α} :
    lastWrite slot (writers.flatMap writesOf) = some v ↔ ∃ r ∈ writers, lastWrite slot (writesOf r) = some v := by
  induction writers generalizing v with
  | nil => simp [lastWrite]
  | cons r rest ih =>
    have hrest : ∀ u, lastWrite slot (rest.flatMap writesOf) = some u ↔ ∃ s ∈ rest, lastWrite slot (writesOf s) = some u :=
      fun u => ih fun s hs t ht => hagree s (List.mem_cons_of_mem _ hs) t (List.mem_cons_of_mem _ ht)
    rw [List.flatMap_cons, lastWrite_append]
    cases hlater : lastWrite slot (rest.flatMap writesOf) with
    | none =>
      rw [Option.none_or, List.exists_mem_cons_iff]
      refine (or_iff_left fun hlate => ?_).symm
      exact absurd (hlater.symm.trans ((hrest v).mpr hlate)) (by simp)
    | some w =>
      rw [Option.some_or]
      constructor
      · intro h
        obtain ⟨s, hs, hwrote⟩ := (hrest v).mp (hlater.trans h)
        exact ⟨s, List.mem_cons_of_mem _ hs, hwrote⟩
      · rintro ⟨s, hs, hwrote⟩
        obtain ⟨t, ht, hlast⟩ := (hrest w).mp hlater
        rw [hagree t (List.mem_cons_of_mem _ ht) s hs slot w v hlast hwrote]

/-- The order of writers that agree makes no difference. -/
theorem lastWrite_perm {writers writers' : List ρ} (hagree : ∀ r ∈ writers, ∀ s ∈ writers, Agree writesOf r s)
    (hperm : writers.Perm writers') (slot : κ) :
    lastWrite slot (writers.flatMap writesOf) = lastWrite slot (writers'.flatMap writesOf) := by
  have hagree' : ∀ r ∈ writers', ∀ s ∈ writers', Agree writesOf r s :=
    fun r hr s hs => hagree r (hperm.mem_iff.mpr hr) s (hperm.mem_iff.mpr hs)
  refine Option.ext fun v => ?_
  rw [lastWrite_of_agree hagree, lastWrite_of_agree hagree']
  simp only [hperm.mem_iff]

theorem lastWrite_last {writers : List ρ} {r : ρ} {slot : κ} {v : α} (h : lastWrite slot (writesOf r) = some v) :
    lastWrite slot ((writers ++ [r]).flatMap writesOf) = some v := by
  rw [List.flatMap_append, List.flatMap_singleton, lastWrite_append, h]
  rfl

end Library.LastWriter
