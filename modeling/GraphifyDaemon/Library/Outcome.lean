import Mathlib.Tactic.Common

/-! Sequential programs over a store that may raise. A raise keeps the writes made
before it: only an enclosing transaction takes them back. -/
namespace Library

/-- How a block ends: it falls through, or it raises and abandons the rest. -/
inductive Outcome (ε σ : Type) where
  | done (store : σ)
  | raised (error : ε) (store : σ)
  deriving DecidableEq

namespace Outcome
variable {ε σ τ β : Type}

def store : Outcome ε σ → σ
  | .done s => s
  | .raised _ s => s

def completed : Outcome ε σ → Bool
  | .done _ => true
  | .raised _ _ => false

def andThen (o : Outcome ε σ) (next : σ → Outcome ε σ) : Outcome ε σ :=
  match o with
  | .done s => next s
  | .raised e s => .raised e s

/-- Run a block on a component of a larger store. -/
def within (put : τ → σ) : Outcome ε τ → Outcome ε σ
  | .done t => .done (put t)
  | .raised e t => .raised e (put t)

/-- A `for` loop whose body may raise. -/
def forEach (body : β → σ → Outcome ε σ) : List β → σ → Outcome ε σ
  | [], s => .done s
  | b :: rest, s => (body b s).andThen (forEach body rest)

/-- A transaction: a raise inside, or on commit, restores the store it began with. -/
def transaction (block : σ → Outcome ε σ) (commitFault : Option ε) (s : σ) : Outcome ε σ :=
  match block s with
  | .raised e _ => .raised e s
  | .done s' => match commitFault with
    | some e => .raised e s
    | none => .done s'

@[simp] theorem store_done (s : σ) : (done s : Outcome ε σ).store = s := rfl
@[simp] theorem store_raised (e : ε) (s : σ) : (raised e s).store = s := rfl
@[simp] theorem completed_done (s : σ) : (done s : Outcome ε σ).completed = true := rfl
@[simp] theorem completed_raised (e : ε) (s : σ) : (raised e s).completed = false := rfl
@[simp] theorem andThen_done (s : σ) (next : σ → Outcome ε σ) :
    (done s : Outcome ε σ).andThen next = next s := rfl
@[simp] theorem andThen_raised (e : ε) (s : σ) (next : σ → Outcome ε σ) :
    (raised e s).andThen next = .raised e s := rfl
@[simp] theorem within_done (put : τ → σ) (t : τ) :
    within put (done t : Outcome ε τ) = .done (put t) := rfl
@[simp] theorem within_raised (put : τ → σ) (e : ε) (t : τ) :
    within put (raised e t) = .raised e (put t) := rfl
@[simp] theorem forEach_nil (body : β → σ → Outcome ε σ) (s : σ) : forEach body [] s = .done s := rfl
@[simp] theorem forEach_cons (body : β → σ → Outcome ε σ) (b : β) (rest : List β) (s : σ) :
    forEach body (b :: rest) s = (body b s).andThen (forEach body rest) := rfl

theorem completed_iff {o : Outcome ε σ} : o.completed = true ↔ ∃ s, o = .done s := by
  cases o with
  | done s => simp
  | raised e s => simp

theorem andThen_eq_done {o : Outcome ε σ} {next : σ → Outcome ε σ} {s' : σ} :
    o.andThen next = .done s' ↔ ∃ s, o = .done s ∧ next s = .done s' := by
  cases o with
  | done s => simp
  | raised e s => simp

@[simp] theorem store_within (put : τ → σ) (o : Outcome ε τ) :
    (within put o).store = put o.store := by
  cases o <;> rfl

theorem forEach_append (body : β → σ → Outcome ε σ) (xs ys : List β) (s : σ) :
    forEach body (xs ++ ys) s = (forEach body xs s).andThen (forEach body ys) := by
  induction xs generalizing s with
  | nil => rfl
  | cons x rest ih =>
    rw [List.cons_append, forEach_cons, forEach_cons]
    cases body x s with
    | done mid => exact ih mid
    | raised e mid => rfl

/-- What a loop that falls through does to a part of the store, when each round's effect
on that part is a function of the part and the element. -/
theorem forEach_part {α : Type} (part : σ → α) {effect : α → β → α} {body : β → σ → Outcome ε σ}
    {xs : List β} {s s' : σ}
    (hbody : ∀ b ∈ xs, ∀ s s', body b s = .done s' → part s' = effect (part s) b)
    (h : forEach body xs s = .done s') : part s' = xs.foldl effect (part s) := by
  induction xs generalizing s with
  | nil =>
    cases h
    rfl
  | cons x rest ih =>
    obtain ⟨mid, hx, hrest⟩ := andThen_eq_done.mp h
    rw [List.foldl_cons, ← hbody x (by simp) s mid hx]
    exact ih (fun b hb => hbody b (by simp [hb])) hrest

/-- What each round keeps, a loop keeps, however it ends. -/
theorem forEach_store_invariant (Inv : σ → Prop) {body : β → σ → Outcome ε σ} {xs : List β}
    (keep : ∀ b ∈ xs, ∀ s, Inv s → Inv (body b s).store) {s : σ} (start : Inv s) :
    Inv (forEach body xs s).store := by
  induction xs generalizing s with
  | nil => exact start
  | cons x rest ih =>
    have hx := keep x List.mem_cons_self s start
    rw [forEach_cons]
    cases hb : body x s with
    | raised e t =>
      rw [hb] at hx
      exact hx
    | done t =>
      rw [hb] at hx
      exact ih (fun b hmem => keep b (List.mem_cons_of_mem _ hmem)) hx

/-- A loop raises at the first element whose body raises, on the store of those before it. -/
theorem forEach_eq_raised {body : β → σ → Outcome ε σ} {xs : List β} {s t : σ} {e : ε}
    (h : forEach body xs s = .raised e t) :
    ∃ before b after mid, xs = before ++ b :: after ∧ forEach body before s = .done mid ∧
      body b mid = .raised e t := by
  induction xs generalizing s with
  | nil => cases h
  | cons x rest ih =>
    rw [forEach_cons] at h
    cases hx : body x s with
    | raised e' t' =>
      rw [hx, andThen_raised] at h
      exact ⟨[], x, rest, s, rfl, rfl, hx.trans h⟩
    | done mid =>
      rw [hx, andThen_done] at h
      obtain ⟨before, b, after, last, rfl, hbefore, hb⟩ := ih h
      refine ⟨x :: before, b, after, last, rfl, ?_, hb⟩
      rw [forEach_cons, hx, andThen_done, hbefore]

/-- Where the body's raising does not depend on the store, the loop falls through
exactly when every element does. -/
theorem forEach_completed_iff {body : β → σ → Outcome ε σ} {ok : β → Prop} {xs : List β}
    (hok : ∀ b ∈ xs, ∀ s, (body b s).completed = true ↔ ok b) (s : σ) :
    (forEach body xs s).completed = true ↔ ∀ b ∈ xs, ok b := by
  induction xs generalizing s with
  | nil => simp
  | cons x rest ih =>
    have hx := hok x (by simp) s
    rw [forEach_cons]
    cases hb : body x s with
    | raised e t =>
      rw [hb] at hx
      have hnot : ¬ ok x := fun h => by simpa using hx.mpr h
      simp [hnot]
    | done t =>
      rw [hb] at hx
      have hyes : ok x := hx.mp rfl
      rw [andThen_done, ih (fun b hm => hok b (by simp [hm])) t]
      simp [hyes]

/-- A raise leaves the transaction's store untouched. -/
theorem transaction_raised {block : σ → Outcome ε σ} {commitFault : Option ε} {s t : σ} {e : ε}
    (h : transaction block commitFault s = .raised e t) : t = s := by
  unfold transaction at h
  split at h
  · cases h; rfl
  · split at h
    · cases h; rfl
    · cases h

theorem transaction_eq_done {block : σ → Outcome ε σ} {commitFault : Option ε} {s t : σ} :
    transaction block commitFault s = .done t ↔ block s = .done t ∧ commitFault = none := by
  unfold transaction
  cases h : block s with
  | raised e u => simp
  | done u => cases commitFault <;> simp

end Outcome
end Library
