import Mathlib.Data.List.Nodup
import Mathlib.Data.List.Basic
import Mathlib.Data.List.Sort

/-! Insertion-ordered dictionaries. Storing under a present key keeps that key's
position, a new key goes to the end, and a deleted key that comes back is new. -/
namespace Library

/-- An association list whose keys are pairwise distinct. -/
structure OrderedDict (κ α : Type) where
  items : List (κ × α)
  nodup : (items.map Prod.fst).Nodup
  deriving DecidableEq

namespace OrderedDict
variable {κ α β : Type} [DecidableEq κ]

/-- Overwrite in place, or append. -/
def setItem (k : κ) (v : α) : List (κ × α) → List (κ × α)
  | [] => [(k, v)]
  | (k', v') :: rest => if k' = k then (k, v) :: rest else (k', v') :: setItem k v rest

def lookup (k : κ) : List (κ × α) → Option α
  | [] => none
  | (k', v) :: rest => if k' = k then some v else lookup k rest

theorem keys_setItem (k : κ) (v : α) (xs : List (κ × α)) :
    (setItem k v xs).map Prod.fst =
      if k ∈ xs.map Prod.fst then xs.map Prod.fst else xs.map Prod.fst ++ [k] := by
  induction xs with
  | nil => simp [setItem]
  | cons x xs ih =>
    obtain ⟨k', v'⟩ := x
    by_cases h : k' = k
    · simp [setItem, h]
    · have hne : ¬ k = k' := fun he => h he.symm
      simp only [setItem, if_neg h, List.map_cons, ih, List.mem_cons, hne, false_or]
      split_ifs <;> simp

theorem nodup_setItem (k : κ) (v : α) (xs : List (κ × α)) (h : (xs.map Prod.fst).Nodup) :
    ((setItem k v xs).map Prod.fst).Nodup := by
  rw [keys_setItem]
  split_ifs with hk
  · exact h
  · simpa [List.nodup_append] using ⟨h, fun a b hab he => hk (by simpa using ⟨b, he ▸ hab⟩)⟩

def empty : OrderedDict κ α := ⟨[], List.nodup_nil⟩

def get (d : OrderedDict κ α) (k : κ) : Option α := lookup k d.items

def set (d : OrderedDict κ α) (k : κ) (v : α) : OrderedDict κ α :=
  ⟨setItem k v d.items, nodup_setItem k v d.items d.nodup⟩

def erase (d : OrderedDict κ α) (k : κ) : OrderedDict κ α :=
  ⟨d.items.filter (fun item => item.1 ≠ k),
    d.nodup.sublist (List.Sublist.map Prod.fst List.filter_sublist)⟩

def keys (d : OrderedDict κ α) : List κ := d.items.map Prod.fst

def values (d : OrderedDict κ α) : List α := d.items.map Prod.snd

theorem lookup_setItem (k q : κ) (v : α) (xs : List (κ × α)) :
    lookup q (setItem k v xs) = if k = q then some v else lookup q xs := by
  induction xs with
  | nil => simp [setItem, lookup]
  | cons x xs ih =>
    obtain ⟨k', v'⟩ := x
    by_cases hk : k' = k
    · subst hk
      by_cases hq : k' = q <;> simp [setItem, lookup, hq]
    · simp only [setItem, if_neg hk, lookup, ih]
      by_cases hq : k' = q
      · have hne : ¬ k = q := fun he => hk (hq.trans he.symm)
        simp [hq, hne]
      · simp [hq]

theorem lookup_filter_ne (k q : κ) (xs : List (κ × α)) :
    lookup q (xs.filter (fun item => item.1 ≠ k)) = if k = q then none else lookup q xs := by
  induction xs with
  | nil => simp [lookup]
  | cons x xs ih =>
    obtain ⟨k', v'⟩ := x
    by_cases hk : k' = k
    · subst hk
      rw [List.filter_cons_of_neg (by simp), ih]
      by_cases hq : k' = q <;> simp [lookup, hq]
    · rw [List.filter_cons_of_pos (by simpa using hk)]
      simp only [lookup, ih]
      by_cases hq : k' = q
      · have hne : ¬ k = q := fun he => hk (hq.trans he.symm)
        simp [hq, hne]
      · simp [hq]

@[simp] theorem get_empty (k : κ) : (empty : OrderedDict κ α).get k = none := rfl

@[simp] theorem get_set_self (d : OrderedDict κ α) (k : κ) (v : α) :
    (d.set k v).get k = some v := by
  simp [get, set, lookup_setItem]

theorem get_set (d : OrderedDict κ α) (k q : κ) (v : α) :
    (d.set k v).get q = if k = q then some v else d.get q :=
  lookup_setItem k q v d.items

theorem get_set_ne (d : OrderedDict κ α) {k q : κ} (v : α) (h : k ≠ q) :
    (d.set k v).get q = d.get q := by
  rw [get_set, if_neg h]

@[simp] theorem get_erase_self (d : OrderedDict κ α) (k : κ) : (d.erase k).get k = none := by
  simp only [get, erase, lookup_filter_ne, if_true]

theorem get_erase (d : OrderedDict κ α) (k q : κ) :
    (d.erase k).get q = if k = q then none else d.get q :=
  lookup_filter_ne k q d.items

theorem get_erase_ne (d : OrderedDict κ α) {k q : κ} (h : k ≠ q) :
    (d.erase k).get q = d.get q := by
  rw [get_erase, if_neg h]

theorem lookup_eq_some_iff (k : κ) (v : α) (xs : List (κ × α)) (h : (xs.map Prod.fst).Nodup) :
    lookup k xs = some v ↔ (k, v) ∈ xs := by
  induction xs with
  | nil => simp [lookup]
  | cons x xs ih =>
    obtain ⟨k', v'⟩ := x
    obtain ⟨hx, hxs⟩ := List.nodup_cons.mp h
    by_cases hk : k' = k
    · subst hk
      have hnot : (k', v) ∉ xs := fun hm => hx (List.mem_map.mpr ⟨_, hm, rfl⟩)
      simp [lookup, hnot, eq_comm]
    · have hne : ¬ k = k' := fun he => hk he.symm
      simp [lookup, hk, hne, ih hxs]

/-- A key is looked up successfully exactly when its item is stored. -/
theorem get_eq_some_iff (d : OrderedDict κ α) (k : κ) (v : α) :
    d.get k = some v ↔ (k, v) ∈ d.items :=
  lookup_eq_some_iff k v d.items d.nodup

theorem mem_keys_iff (d : OrderedDict κ α) (k : κ) : k ∈ d.keys ↔ (d.get k).isSome := by
  rw [Option.isSome_iff_exists]
  simp only [keys, List.mem_map, Prod.exists, exists_and_right, exists_eq_right, get_eq_some_iff]

theorem mem_keys_set_iff {d : OrderedDict κ α} {k q : κ} {v : α} : q ∈ (d.set k v).keys ↔ q = k ∨ q ∈ d.keys := by
  rw [mem_keys_iff, mem_keys_iff, get_set]
  split_ifs with h
  · simp [h]
  · simp [Ne.symm h]

theorem mem_values_iff (d : OrderedDict κ α) (v : α) :
    v ∈ d.values ↔ ∃ k, d.get k = some v := by
  simp only [values, List.mem_map, Prod.exists, exists_eq_right, get_eq_some_iff]

/-- Storing again what is there. -/
theorem setItem_of_lookup {k : κ} {v : α} {xs : List (κ × α)} (h : lookup k xs = some v) : setItem k v xs = xs := by
  induction xs with
  | nil => cases h
  | cons x xs ih =>
    rw [lookup] at h
    rw [setItem]
    split_ifs at h ⊢ with hk
    · cases h
      rw [← hk]
    · rw [ih h]

theorem setItem_of_not_mem {k : κ} {v : α} {xs : List (κ × α)} (h : k ∉ xs.map Prod.fst) :
    setItem k v xs = xs ++ [(k, v)] := by
  induction xs with
  | nil => rfl
  | cons x xs ih =>
    simp only [List.map_cons, List.mem_cons, not_or] at h
    rw [setItem, if_neg (Ne.symm h.1), ih h.2]
    rfl

/-- Deleted and stored again, a value comes last. -/
theorem values_set_erase (d : OrderedDict κ α) (k : κ) (v : α) :
    ((d.erase k).set k v).values = (d.erase k).values ++ [v] := by
  have hgone : k ∉ (d.erase k).items.map Prod.fst := fun hmem => by
    have hsome := (mem_keys_iff (d.erase k) k).mp hmem
    simp at hsome
  show (setItem k v (d.erase k).items).map Prod.snd = _
  rw [setItem_of_not_mem hgone, List.map_append]
  rfl

/-- Dictionaries with the same entries have them in some order each. -/
theorem values_perm {d d' : OrderedDict κ α} (h : ∀ k, d.get k = d'.get k) : d.values.Perm d'.values := by
  refine ((List.perm_ext_iff_of_nodup d.nodup.of_map d'.nodup.of_map).mpr fun item => ?_).map Prod.snd
  rw [← get_eq_some_iff, ← get_eq_some_iff, h]

/-- Storing pairs with distinct keys one after the other lists them. -/
theorem foldl_setItem_of_nodup {xs : List (κ × α)} (h : (xs.map Prod.fst).Nodup) :
    xs.foldl (fun d x => setItem x.1 x.2 d) [] = xs := by
  have happend : ∀ (rest d : List (κ × α)), ((d ++ rest).map Prod.fst).Nodup →
      rest.foldl (fun d x => setItem x.1 x.2 d) d = d ++ rest := by
    intro rest
    induction rest with
    | nil => simp
    | cons x rest ih =>
      intro d hd
      have hx : x.1 ∉ d.map Prod.fst := by
        rw [List.map_append, List.nodup_append] at hd
        exact fun hx => hd.2.2 x.1 hx x.1 (by simp) rfl
      rw [List.foldl_cons, setItem_of_not_mem hx, ih _ (by simpa using hd)]
      simp
  exact happend xs [] h

section Renaming
variable {κ' β' : Type} [DecidableEq κ'] {f : κ → κ'}

/-- Looking up commutes with renaming the keys. -/
theorem lookup_map (hf : Function.Injective f) (g : α → β') (k : κ) (xs : List (κ × α)) :
    lookup (f k) (xs.map fun item => (f item.1, g item.2)) = (lookup k xs).map g := by
  induction xs with
  | nil => rfl
  | cons x xs ih =>
    simp only [List.map_cons, lookup, hf.eq_iff]
    split_ifs
    · rfl
    · exact ih

theorem setItem_map (hf : Function.Injective f) (g : α → β') (k : κ) (v : α) (xs : List (κ × α)) :
    setItem (f k) (g v) (xs.map fun item => (f item.1, g item.2)) =
      (setItem k v xs).map fun item => (f item.1, g item.2) := by
  induction xs with
  | nil => rfl
  | cons x xs ih =>
    simp only [List.map_cons, setItem, hf.eq_iff]
    split_ifs
    · rfl
    · rw [ih, List.map_cons]

end Renaming

def mapValues (f : α → β) (d : OrderedDict κ α) : OrderedDict κ β where
  items := d.items.map fun item => (item.1, f item.2)
  nodup := by
    rw [List.map_map]
    exact d.nodup

@[simp] theorem get_mapValues (f : α → β) (d : OrderedDict κ α) (k : κ) : (d.mapValues f).get k = (d.get k).map f :=
  lookup_map Function.injective_id f k d.items

/-- The value under each key by a function of both. -/
def mapEntries (f : κ → α → β) (d : OrderedDict κ α) : OrderedDict κ β where
  items := d.items.map fun item => (item.1, f item.1 item.2)
  nodup := by
    rw [List.map_map]
    exact d.nodup

theorem get_mapEntries (f : κ → α → β) (d : OrderedDict κ α) (k : κ) : (d.mapEntries f).get k = (d.get k).map (f k) := by
  have hlookup : ∀ xs : List (κ × α),
      lookup k (xs.map fun item => (item.1, f item.1 item.2)) = (lookup k xs).map (f k) := by
    intro xs
    induction xs with
    | nil => rfl
    | cons x xs ih =>
      by_cases hk : x.1 = k
      · simp [lookup, hk]
      · simpa [lookup, hk] using ih
  exact hlookup d.items

omit [DecidableEq κ] in
theorem mapEntries_eq_self {f : κ → α → α} {d : OrderedDict κ α}
    (h : ∀ entry ∈ d.items, f entry.1 entry.2 = entry.2) : d.mapEntries f = d := by
  have hitems : d.items.map (fun entry => (entry.1, f entry.1 entry.2)) = d.items :=
    (List.map_congr_left fun entry hentry => by rw [h entry hentry]).trans (List.map_id' _)
  cases d
  simpa [mapEntries] using hitems

/-- `sorted(d.items())`; the keys are distinct, so the values are not compared. -/
def sortedItems {κ : Type} [LinearOrder κ] (d : OrderedDict κ α) : List (κ × α) :=
  d.items.insertionSort fun a b => a.1 ≤ b.1

theorem sortedItems_perm {κ : Type} [LinearOrder κ] (d : OrderedDict κ α) : d.sortedItems.Perm d.items :=
  List.perm_insertionSort _ _

theorem pairwise_sortedItems {κ : Type} [LinearOrder κ] (d : OrderedDict κ α) :
    d.sortedItems.Pairwise fun a b => a.1 ≤ b.1 := by
  have : Std.Total fun a b : κ × α => a.1 ≤ b.1 := ⟨fun a b => le_total a.1 b.1⟩
  have : IsTrans (κ × α) fun a b => a.1 ≤ b.1 := ⟨fun _ _ _ hab hbc => le_trans hab hbc⟩
  exact List.pairwise_insertionSort _ _

/-- The sorted items do not tell in which order they were stored, and nothing else is lost. -/
theorem sortedItems_eq_iff [LinearOrder κ] {d e : OrderedDict κ α} :
    d.sortedItems = e.sortedItems ↔ ∀ k, d.get k = e.get k := by
  constructor
  · intro hsorted k
    refine Option.ext fun v => ?_
    rw [get_eq_some_iff, get_eq_some_iff, ← d.sortedItems_perm.mem_iff, ← e.sortedItems_perm.mem_iff, hsorted]
  · intro hget
    have hperm : d.items.Perm e.items := by
      refine (List.perm_ext_iff_of_nodup d.nodup.of_map e.nodup.of_map).mpr fun item => ?_
      rw [← get_eq_some_iff, ← get_eq_some_iff, hget]
    have hsorted : d.sortedItems.Perm e.sortedItems :=
      d.sortedItems_perm.trans (hperm.trans e.sortedItems_perm.symm)
    refine hsorted.eq_of_pairwise ?_ d.pairwise_sortedItems e.pairwise_sortedItems
    intro a b ha hb hab hba
    have hmemA : a ∈ d.items := d.sortedItems_perm.subset ha
    have hmemB : b ∈ d.items := hperm.symm.subset (e.sortedItems_perm.subset hb)
    have hkey : a.1 = b.1 := le_antisymm hab hba
    have hvalue := (get_eq_some_iff d a.1 a.2).mpr hmemA
    rw [hkey, (get_eq_some_iff d b.1 b.2).mpr hmemB] at hvalue
    exact Prod.ext hkey (Option.some.inj hvalue.symm)

/-- Delete every key of a list. -/
def eraseAll (d : OrderedDict κ α) (ks : List κ) : OrderedDict κ α := ks.foldl erase d

end OrderedDict
end Library
