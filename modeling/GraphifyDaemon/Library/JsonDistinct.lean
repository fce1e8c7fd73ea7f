import GraphifyDaemon.Library.JsonTextLaws

/-! Values that JSON can represent as they are: no dictionary in them has a key twice. -/
namespace Library.JsonText
variable {ν : Type}

/-- Writing and reading changes nothing. -/
def Representable (v : Json ν) : Prop := deduped v = v

theorem keys_dedupedMembers (members : List (String × Json ν)) :
    (dedupedMembers members).map Prod.fst = members.map Prod.fst := by
  induction members with
  | nil => rfl
  | cons member rest ih =>
    obtain ⟨key, value⟩ := member
    rw [dedupedMembers, List.map_cons, List.map_cons, ih]

theorem nodup_dictOf (pairs : List (String × Json ν)) : ((dictOf pairs).map Prod.fst).Nodup := by
  have hfold : ∀ (rest d : List (String × Json ν)), (d.map Prod.fst).Nodup →
      ((rest.foldl (fun d pair => OrderedDict.setItem pair.1 pair.2 d) d).map Prod.fst).Nodup := by
    intro rest
    induction rest with
    | nil => exact fun d hd => hd
    | cons pair rest ih => exact fun d hd => ih _ (OrderedDict.nodup_setItem pair.1 pair.2 d hd)
  exact hfold pairs [] List.nodup_nil

theorem dedupedMembers_eq_self {members : List (String × Json ν)} :
    dedupedMembers members = members ↔ ∀ member ∈ members, Representable member.2 := by
  induction members with
  | nil => simp [dedupedMembers]
  | cons member rest ih =>
    obtain ⟨key, value⟩ := member
    rw [dedupedMembers, List.cons_eq_cons, ih, List.forall_mem_cons]
    simp [Representable]

theorem dedupedAll_eq_self {items : List (Json ν)} : dedupedAll items = items ↔ ∀ item ∈ items, Representable item := by
  induction items with
  | nil => simp [dedupedAll]
  | cons item rest ih =>
    rw [dedupedAll, List.cons_eq_cons, ih, List.forall_mem_cons]
    rfl

theorem representable_obj_iff {members : PyDict ν} :
    Representable (.obj members) ↔ (members.map Prod.fst).Nodup ∧ ∀ member ∈ members, Representable member.2 := by
  constructor
  · intro h
    have hdict : dictOf (dedupedMembers members) = members := by
      simpa [Representable, deduped] using h
    have hkeys : (members.map Prod.fst).Nodup := hdict ▸ nodup_dictOf (dedupedMembers members)
    refine ⟨hkeys, dedupedMembers_eq_self.mp ?_⟩
    rw [dictOf, OrderedDict.foldl_setItem_of_nodup (keys_dedupedMembers members ▸ hkeys)] at hdict
    exact hdict
  · rintro ⟨hkeys, hvalues⟩
    exact deduped_obj hkeys hvalues

theorem representable_arr_iff {items : List (Json ν)} :
    Representable (.arr items) ↔ ∀ item ∈ items, Representable item := by
  rw [← dedupedAll_eq_self]
  simp [Representable, deduped]

theorem mem_setItem {κ α : Type} [DecidableEq κ] {k : κ} {v : α} {xs : List (κ × α)} {item : κ × α}
    (h : item ∈ OrderedDict.setItem k v xs) : item = (k, v) ∨ item ∈ xs := by
  induction xs with
  | nil => exact .inl (List.mem_singleton.mp h)
  | cons x xs ih =>
    obtain ⟨k', v'⟩ := x
    unfold OrderedDict.setItem at h
    split_ifs at h with hk
    · rcases List.mem_cons.mp h with hitem | hrest
      · exact .inl hitem
      · exact .inr (List.mem_cons_of_mem _ hrest)
    · rcases List.mem_cons.mp h with hitem | hrest
      · exact .inr (hitem ▸ List.mem_cons_self)
      · exact (ih hrest).imp id (List.mem_cons_of_mem _)

/-- A dictionary stays representable when a representable value is stored in it. -/
theorem Representable.setItem {members : PyDict ν} (h : Representable (.obj members)) (key : String) {value : Json ν}
    (hvalue : Representable value) : Representable (.obj (OrderedDict.setItem key value members)) := by
  obtain ⟨hkeys, hvalues⟩ := representable_obj_iff.mp h
  refine representable_obj_iff.mpr ⟨OrderedDict.nodup_setItem key value members hkeys, fun member hmember => ?_⟩
  rcases mem_setItem hmember with rfl | hold
  · exact hvalue
  · exact hvalues member hold

theorem Representable.lookup {members : PyDict ν} (h : Representable (.obj members)) {key : String} {value : Json ν}
    (hvalue : Json.lookup key members = some value) : Representable value := by
  obtain ⟨hkeys, hvalues⟩ := representable_obj_iff.mp h
  exact hvalues (key, value) ((OrderedDict.lookup_eq_some_iff key value members hkeys).mp hvalue)

end Library.JsonText
