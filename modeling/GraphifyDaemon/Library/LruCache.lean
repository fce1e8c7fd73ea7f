import GraphifyDaemon.Library.OrderedDict

/-! A dictionary of bounded size that drops what was used least recently. It never makes
up an entry: whatever is true of everything stored is true of everything found. -/
namespace Library

namespace OrderedDict
variable {κ α : Type} [DecidableEq κ]

/-- `move_to_end(key)` -/
def moveToEnd (d : OrderedDict κ α) (k : κ) : OrderedDict κ α :=
  match d.get k with
  | some v => (d.erase k).set k v
  | none => d

/-- `popitem(last=False)` of a dictionary that is not empty. -/
def popFirst (d : OrderedDict κ α) : OrderedDict κ α :=
  ⟨d.items.tail, d.nodup.sublist (List.Sublist.map Prod.fst (List.tail_sublist d.items))⟩

@[simp] theorem get_moveToEnd (d : OrderedDict κ α) (k q : κ) : (d.moveToEnd k).get q = d.get q := by
  unfold moveToEnd
  cases hk : d.get k with
  | none => rfl
  | some v =>
    dsimp only
    rw [get_set]
    split_ifs with hq
    · rw [← hq, hk]
    · exact get_erase_ne d hq

theorem get_of_get_popFirst {d : OrderedDict κ α} {k : κ} {v : α} (h : d.popFirst.get k = some v) :
    d.get k = some v := by
  rw [get_eq_some_iff] at h ⊢
  exact List.mem_of_mem_tail h

end OrderedDict

structure LruCache (κ α : Type) where
  maxsize : Int
  entries : OrderedDict κ α

namespace LruCache
variable {κ α : Type} [DecidableEq κ]

def empty (maxsize : Int) : LruCache κ α := ⟨maxsize, .empty⟩

/-- A hit makes the key the most recent one. -/
def get (k : κ) (c : LruCache κ α) : Option α × LruCache κ α :=
  match c.entries.get k with
  | none => (none, c)
  | some v => (some v, { c with entries := c.entries.moveToEnd k })

def set (k : κ) (v : α) (c : LruCache κ α) : LruCache κ α :=
  let entries := (c.entries.set k v).moveToEnd k
  if c.maxsize < entries.items.length then { c with entries := entries.popFirst }
  else { c with entries := entries }

/-- Every entry is one of these. -/
def Only (p : κ → α → Prop) (c : LruCache κ α) : Prop := ∀ k v, c.entries.get k = some v → p k v

variable {p q : κ → α → Prop} {c : LruCache κ α}

theorem only_empty (p : κ → α → Prop) (maxsize : Int) : Only p (empty maxsize) := by
  intro k v h
  simp [empty] at h

theorem Only.mono (h : Only p c) (hpq : ∀ k v, p k v → q k v) : Only q c :=
  fun k v hget => hpq k v (h k v hget)

theorem Only.get (h : Only p c) (k : κ) : Only p (c.get k).2 ∧ ∀ v, (c.get k).1 = some v → p k v := by
  unfold LruCache.get
  cases hk : c.entries.get k with
  | none => exact ⟨h, by simp⟩
  | some v =>
    refine ⟨fun l w hget => h l w (by simpa using hget), fun w hw => ?_⟩
    cases hw
    exact h k v hk

theorem Only.set (h : Only p c) {k : κ} {v : α} (hnew : p k v) : Only p (c.set k v) := by
  have hstored : ∀ l w, ((c.entries.set k v).moveToEnd k).get l = some w → p l w := by
    intro l w hget
    rw [OrderedDict.get_moveToEnd, OrderedDict.get_set] at hget
    split_ifs at hget with hkey
    · cases hget
      exact hkey ▸ hnew
    · exact h l w hget
  unfold LruCache.set
  dsimp only
  split_ifs
  · exact fun l w hget => hstored l w (OrderedDict.get_of_get_popFirst hget)
  · exact hstored

end LruCache
end Library
