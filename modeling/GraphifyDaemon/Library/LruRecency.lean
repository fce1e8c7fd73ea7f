import Mathlib.Data.List.Dedup
import Mathlib.Data.List.Perm.Basic
import GraphifyDaemon.Library.LruCache

/-! What an `LruCache` has kept of its history. Its keys are those that were used last, and
how many others were used since decides whether a key is still there. -/
namespace Library

section Recency
variable {κ : Type} [DecidableEq κ]

/-- The distinct keys of a list of uses, both with the most recent first. -/
def recency : List κ → List κ
  | [] => []
  | k :: earlier => k :: (recency earlier).filter (· ≠ k)

theorem mem_recency (k : κ) (uses : List κ) : k ∈ recency uses ↔ k ∈ uses := by
  induction uses with
  | nil => exact Iff.rfl
  | cons l earlier ih =>
    by_cases hl : k = l
    · simp [recency, hl]
    · simp [recency, hl, ih]

theorem nodup_recency (uses : List κ) : (recency uses).Nodup := by
  induction uses with
  | nil => exact List.nodup_nil
  | cons l earlier ih => exact List.nodup_cons.mpr ⟨by simp, ih.filter _⟩

theorem length_recency (uses : List κ) : (recency uses).length = uses.dedup.length := by
  refine List.Perm.length_eq ((List.perm_ext_iff_of_nodup (nodup_recency uses) uses.nodup_dedup).mpr fun k => ?_)
  rw [mem_recency, List.mem_dedup]

/-- How many distinct other keys were used since the last use of `k`. -/
def othersSince (k : κ) (uses : List κ) : Nat := (uses.takeWhile (· ≠ k)).dedup.length

theorem takeWhile_recency (k : κ) (uses : List κ) :
    (recency uses).takeWhile (· ≠ k) = recency (uses.takeWhile (· ≠ k)) := by
  induction uses with
  | nil => rfl
  | cons l earlier ih =>
    by_cases hl : l = k
    · simp [recency, hl]
    · have hkeeps : ∀ a : κ, (!decide (a ≠ l) || decide (a ≠ k)) = decide (a ≠ k) := by
        intro a
        by_cases ha : a = l
        · simp [ha, hl]
        · simp [ha]
      rw [recency, List.takeWhile_cons_of_pos (by simpa using hl), List.takeWhile_cons_of_pos (by simpa using hl),
        List.takeWhile_filter, recency, ← ih]
      simp only [hkeeps]

theorem idxOf_eq_length_takeWhile (k : κ) (l : List κ) : l.idxOf k = (l.takeWhile (· ≠ k)).length := by
  induction l with
  | nil => rfl
  | cons x l ih =>
    by_cases hx : x = k
    · simp [hx]
    · simp [hx, List.idxOf_cons_ne, ih]

/-- A key is among the last `n` used if fewer than `n` others were used since. -/
theorem mem_take_recency (k : κ) (n : Nat) (uses : List κ) :
    k ∈ (recency uses).take n ↔ k ∈ uses ∧ othersSince k uses < n := by
  by_cases hk : k ∈ recency uses
  · rw [List.mem_take_iff_idxOf_lt hk, idxOf_eq_length_takeWhile, takeWhile_recency, length_recency]
    simp [othersSince, (mem_recency k uses).mp hk]
  · have hunused : k ∉ uses := fun hmem => hk ((mem_recency k uses).mpr hmem)
    have hnot : k ∉ (recency uses).take n := fun hmem => hk (List.mem_of_mem_take hmem)
    simp [hunused, hnot]

/-- Using a key again, and keeping the last `n`: those that were already dropped make no
difference. -/
theorem take_use (k : κ) (n : Nat) {l : List κ} (h : l.Nodup) :
    (k :: (l.take n).filter (· ≠ k)).take n = (k :: l.filter (· ≠ k)).take n := by
  cases n with
  | zero => rfl
  | succ n =>
    rw [List.take_succ_cons, List.take_succ_cons]
    congr 1
    induction l generalizing n with
    | nil => rfl
    | cons x l ih =>
      obtain ⟨hx, hl⟩ := List.nodup_cons.mp h
      by_cases hk : x = k
      · subst hk
        have hkept : ∀ m, (l.take m).filter (· ≠ x) = l.take m := fun m =>
          List.filter_eq_self.mpr fun a ha => by
            have hne : a ≠ x := fun he => hx (he ▸ List.mem_of_mem_take ha)
            simpa using hne
        have hall : l.filter (· ≠ x) = l := List.filter_eq_self.mpr fun a ha => by
          have hne : a ≠ x := fun he => hx (he ▸ ha)
          simpa using hne
        rw [List.take_succ_cons, List.filter_cons_of_neg (by simp), List.filter_cons_of_neg (by simp), hkept, hall,
          List.take_take, Nat.min_self]
      · rw [List.take_succ_cons, List.filter_cons_of_pos (by simpa using hk), List.filter_cons_of_pos (by simpa using hk)]
        cases n with
        | zero => rfl
        | succ n => rw [List.take_succ_cons, List.take_succ_cons, ih hl n]

end Recency

namespace OrderedDict
variable {κ α : Type} [DecidableEq κ]

theorem keys_erase (d : OrderedDict κ α) (k : κ) : (d.erase k).keys = d.keys.filter (· ≠ k) := by
  simp [keys, erase, List.filter_map, Function.comp_def]

theorem keys_set (d : OrderedDict κ α) (k : κ) (v : α) :
    (d.set k v).keys = if k ∈ d.keys then d.keys else d.keys ++ [k] :=
  keys_setItem k v d.items

theorem keys_moveToEnd {d : OrderedDict κ α} {k : κ} (h : k ∈ d.keys) :
    (d.moveToEnd k).keys = d.keys.filter (· ≠ k) ++ [k] := by
  obtain ⟨v, hv⟩ := Option.isSome_iff_exists.mp ((d.mem_keys_iff k).mp h)
  have hgone : k ∉ (d.erase k).keys := by simp [keys_erase]
  unfold moveToEnd
  rw [hv]
  dsimp only
  rw [keys_set, if_neg hgone, keys_erase]

theorem mem_keys_set (d : OrderedDict κ α) (k : κ) (v : α) : k ∈ (d.set k v).keys := by
  rw [mem_keys_iff, get_set_self]
  rfl

theorem filter_keys_set (d : OrderedDict κ α) (k : κ) (v : α) :
    (d.set k v).keys.filter (· ≠ k) = d.keys.filter (· ≠ k) := by
  rw [keys_set]
  split_ifs
  · rfl
  · simp

end OrderedDict

inductive CacheCall (κ α : Type) where
  | get (k : κ)
  | set (k : κ) (v : α)
  deriving DecidableEq

namespace LruCache
variable {κ α : Type} [DecidableEq κ]

/-- The keys, the most recent first. -/
def recent (c : LruCache κ α) : List κ := c.entries.keys.reverse

theorem recent_set {c : LruCache κ α} {maxsize : Nat} (hsize : c.maxsize = maxsize) (hlength : c.recent.length ≤ maxsize)
    (k : κ) (v : α) : (c.set k v).recent = (k :: c.recent.filter (· ≠ k)).take maxsize := by
  have hmoved : ((c.entries.set k v).moveToEnd k).keys = c.entries.keys.filter (· ≠ k) ++ [k] := by
    rw [OrderedDict.keys_moveToEnd (OrderedDict.mem_keys_set _ _ _), OrderedDict.filter_keys_set]
  have hreverse : ((c.entries.set k v).moveToEnd k).keys.reverse = k :: c.recent.filter (· ≠ k) := by
    rw [hmoved, List.reverse_append, recent, List.filter_reverse]
    rfl
  have hitems : ((c.entries.set k v).moveToEnd k).items.length = (k :: c.recent.filter (· ≠ k)).length := by
    rw [← hreverse, List.length_reverse, OrderedDict.keys, List.length_map]
  unfold LruCache.set
  dsimp only
  split_ifs with hfull
  · -- one too many: the oldest goes
    rw [hsize, hitems, Int.ofNat_lt] at hfull
    have hone : (k :: c.recent.filter (· ≠ k)).length - 1 = maxsize := by
      have := List.length_filter_le (· ≠ k) c.recent
      rw [List.length_cons] at hfull ⊢
      omega
    show (((c.entries.set k v).moveToEnd k).items.tail.map Prod.fst).reverse = _
    rw [List.map_tail, ← hone, ← List.dropLast_eq_take, ← hreverse, List.dropLast_reverse]
    rfl
  · rw [hsize, hitems, Int.ofNat_lt, Nat.not_lt] at hfull
    rw [List.take_of_length_le hfull, ← hreverse]
    rfl

theorem get_fst (k : κ) (c : LruCache κ α) : (c.get k).1 = c.entries.get k := by
  unfold LruCache.get
  cases c.entries.get k with
  | none => rfl
  | some v => rfl

theorem mem_recent_iff (k : κ) (c : LruCache κ α) : k ∈ c.recent ↔ ((c.get k).1).isSome := by
  rw [recent, List.mem_reverse, OrderedDict.mem_keys_iff, get_fst]

theorem get_of_none {k : κ} {c : LruCache κ α} (h : (c.get k).1 = none) : (c.get k).2 = c := by
  rw [get_fst] at h
  simp [LruCache.get, h]

/-- A look-up changes the order only. -/
theorem get_entries (k l : κ) (c : LruCache κ α) : (c.get k).2.entries.get l = c.entries.get l := by
  unfold LruCache.get
  cases c.entries.get k with
  | none => rfl
  | some v => exact OrderedDict.get_moveToEnd c.entries k l

theorem get_of_get_set {c : LruCache κ α} {k l : κ} {v w : α} (h : (c.set k v).entries.get l = some w) :
    (if k = l then some v else c.entries.get l) = some w := by
  rw [← OrderedDict.get_set, ← OrderedDict.get_moveToEnd (c.entries.set k v) k]
  unfold LruCache.set at h
  dsimp only at h
  split_ifs at h
  · exact OrderedDict.get_of_get_popFirst h
  · exact h

theorem recent_get {c : LruCache κ α} {k : κ} {v : α} (h : (c.get k).1 = some v) :
    (c.get k).2.recent = k :: c.recent.filter (· ≠ k) := by
  rw [get_fst] at h
  have hmem : k ∈ c.entries.keys := by simp [OrderedDict.mem_keys_iff, h]
  have hmoved : (c.get k).2 = { c with entries := c.entries.moveToEnd k } := by simp [LruCache.get, h]
  rw [hmoved]
  show (c.entries.moveToEnd k).keys.reverse = _
  rw [OrderedDict.keys_moveToEnd hmem, List.reverse_append, recent, List.filter_reverse]
  rfl

end LruCache

namespace CacheCall
variable {κ α : Type} [DecidableEq κ]

/-- What the call leaves of the cache. -/
def run (c : LruCache κ α) : CacheCall κ α → LruCache κ α
  | get k => (c.get k).2
  | set k v => c.set k v

/-- The cache after these calls, the most recent first. -/
def after (maxsize : Int) : List (CacheCall κ α) → LruCache κ α
  | [] => .empty maxsize
  | call :: earlier => call.run (after maxsize earlier)

/-- The keys that were set or hit, the most recent first. -/
def uses (maxsize : Int) : List (CacheCall κ α) → List κ
  | [] => []
  | get k :: earlier => if ((after maxsize earlier).get k).1.isSome then k :: uses maxsize earlier else uses maxsize earlier
  | set k _ :: earlier => k :: uses maxsize earlier

/-- What the most recent `set` of the key stored. -/
def lastSet (k : κ) : List (CacheCall κ α) → Option α
  | [] => none
  | get _ :: earlier => lastSet k earlier
  | set l v :: earlier => if l = k then some v else lastSet k earlier

@[simp] theorem maxsize_after (maxsize : Int) (calls : List (CacheCall κ α)) : (after maxsize calls).maxsize = maxsize := by
  induction calls with
  | nil => rfl
  | cons call earlier ih =>
    cases call with
    | get k =>
      refine Eq.trans ?_ ih
      simp only [after, run, LruCache.get]
      split
      · rfl
      · rfl
    | set k v =>
      refine Eq.trans ?_ ih
      simp only [after, run, LruCache.set]
      split_ifs
      · rfl
      · rfl

/-- The keys are the last `maxsize` that were used, in the order of their last use. -/
theorem recent_after (maxsize : Nat) (calls : List (CacheCall κ α)) :
    (after maxsize calls).recent = (recency (uses maxsize calls)).take maxsize := by
  induction calls with
  | nil => simp [after, uses, recency, LruCache.recent, LruCache.empty, OrderedDict.keys, OrderedDict.empty]
  | cons call earlier ih =>
    have hlength : (after maxsize earlier).recent.length ≤ maxsize := by
      rw [ih]
      exact List.length_take_le _ _
    have huse : ∀ k, (k :: (after maxsize earlier).recent.filter (· ≠ k)).take maxsize =
        (recency (k :: uses maxsize earlier)).take maxsize := by
      intro k
      rw [ih, take_use k maxsize (nodup_recency _)]
      rfl
    cases call with
    | set k v => exact (LruCache.recent_set (maxsize_after _ _) hlength k v).trans (huse k)
    | get k =>
      cases hget : ((after maxsize earlier).get k).1 with
      | none =>
        simp only [after, run, uses, hget, Option.isSome_none, Bool.false_eq_true, if_false, LruCache.get_of_none hget]
        exact ih
      | some v =>
        have hmem : k ∈ (after maxsize earlier).recent := by simp [LruCache.mem_recent_iff, hget]
        have hshort : (k :: (after maxsize earlier).recent.filter (· ≠ k)).length ≤ maxsize := by
          have hfewer : ((after maxsize earlier).recent.filter (· ≠ k)).length < (after maxsize earlier).recent.length :=
            List.length_filter_lt_length_iff_exists.mpr ⟨k, hmem, by simp⟩
          rw [List.length_cons]
          omega
        simp only [after, run, uses, hget, Option.isSome_some, if_true]
        rw [LruCache.recent_get hget, ← huse k, List.take_of_length_le hshort]

/-- What is found is what was stored last. -/
theorem lastSet_of_get {maxsize : Int} {calls : List (CacheCall κ α)} {k : κ} {v : α}
    (h : (after maxsize calls).entries.get k = some v) : lastSet k calls = some v := by
  induction calls with
  | nil => simp [after, LruCache.empty] at h
  | cons call earlier ih =>
    cases call with
    | get l => exact ih (LruCache.get_entries l k _ ▸ h)
    | set l w =>
      have hkept := LruCache.get_of_get_set h
      unfold lastSet
      split_ifs at hkept ⊢
      · exact hkept
      · exact ih hkept

theorem mem_uses_of_lastSet {maxsize : Int} {calls : List (CacheCall κ α)} {k : κ} {v : α} (h : lastSet k calls = some v) :
    k ∈ uses maxsize calls := by
  induction calls with
  | nil => cases h
  | cons call earlier ih =>
    cases call with
    | get l =>
      unfold uses
      split_ifs
      · exact List.mem_cons_of_mem _ (ih h)
      · exact ih h
    | set l w =>
      unfold lastSet at h
      split_ifs at h with hl
      · exact hl ▸ List.mem_cons_self
      · exact List.mem_cons_of_mem _ (ih h)

/-- A look-up finds what was stored last, if fewer than `maxsize` other keys were used since
the key was. -/
theorem get_after_iff (maxsize : Nat) (calls : List (CacheCall κ α)) (k : κ) (v : α) :
    ((after maxsize calls).get k).1 = some v ↔
      lastSet k calls = some v ∧ othersSince k (uses maxsize calls) < maxsize := by
  have hpresent : ((after maxsize calls).get k).1.isSome ↔
      k ∈ uses maxsize calls ∧ othersSince k (uses maxsize calls) < maxsize := by
    rw [← LruCache.mem_recent_iff, recent_after, mem_take_recency]
  constructor
  · intro h
    exact ⟨lastSet_of_get (LruCache.get_fst k _ ▸ h), (hpresent.mp (by rw [h]; rfl)).2⟩
  · rintro ⟨hlast, hfew⟩
    obtain ⟨w, hw⟩ := Option.isSome_iff_exists.mp (hpresent.mpr ⟨mem_uses_of_lastSet hlast, hfew⟩)
    have hsame := lastSet_of_get (LruCache.get_fst k _ ▸ hw)
    rw [hw, ← hsame, hlast]

theorem length_after (maxsize : Nat) (calls : List (CacheCall κ α)) :
    (after maxsize calls).entries.items.length ≤ maxsize := by
  have hrecent : (after maxsize calls).recent.length ≤ maxsize := by
    rw [recent_after]
    exact List.length_take_le _ _
  simpa [LruCache.recent, OrderedDict.keys] using hrecent

end CacheCall
end Library
