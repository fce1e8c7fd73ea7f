import Mathlib.Tactic.Common

/-! Runs of a partial, labelled step function. A label that is not enabled has no
successor, so a run through it does not exist. -/
namespace Library.Trace
variable {σ ε : Type} (step : ε → σ → Option σ)

/-- The state after a whole list of labels. -/
def exec : List ε → σ → Option σ
  | [], s => some s
  | e :: es, s => (step e s).bind (exec es)

/-- `ok` holds at each step of the run, of the label and the state it leaves. -/
def Along (ok : ε → σ → Prop) : List ε → σ → Prop
  | [], _ => True
  | e :: es, s => ok e s ∧ ∀ s', step e s = some s' → Along ok es s'

/-- The machine and its specification, which answers the same labels. -/
def beside {α : Type} (spec : ε → α → α) (e : ε) (s : σ × α) : Option (σ × α) :=
  (step e s.1).map fun t => (t, spec e s.2)

variable {step}

@[simp] theorem exec_nil (s : σ) : exec step [] s = some s := rfl

@[simp] theorem exec_cons (e : ε) (es : List ε) (s : σ) :
    exec step (e :: es) s = (step e s).bind (exec step es) := rfl

theorem beside_eq_some {α : Type} {spec : ε → α → α} {e : ε} {s s' : σ × α} :
    beside step spec e s = some s' ↔ ∃ t, step e s.1 = some t ∧ s' = (t, spec e s.2) := by
  rw [beside, Option.map_eq_some_iff]
  simp only [eq_comm]

theorem exec_cons_eq_some {e : ε} {es : List ε} {s s' : σ} :
    exec step (e :: es) s = some s' ↔ ∃ mid, step e s = some mid ∧ exec step es mid = some s' := by
  rw [exec_cons, Option.bind_eq_some_iff]

theorem exec_append (es fs : List ε) (s : σ) :
    exec step (es ++ fs) s = (exec step es s).bind (exec step fs) := by
  induction es generalizing s with
  | nil => rfl
  | cons e es ih =>
    simp only [List.cons_append, exec_cons]
    cases step e s with
    | none => rfl
    | some mid => exact ih mid

/-- Two runs, one after the other. -/
theorem exec_append_of {es fs : List ε} {s mid s' : σ} (first : exec step es s = some mid)
    (second : exec step fs mid = some s') : exec step (es ++ fs) s = some s' := by
  rw [exec_append, first, Option.bind_some, second]

instance decidableAlong {ok : ε → σ → Prop} [∀ e s, Decidable (ok e s)] :
    (es : List ε) → (s : σ) → Decidable (Along step ok es s)
  | [], _ => isTrue trivial
  | e :: es, s => match h : step e s with
    | none => decidable_of_iff (ok e s) (by simp [Along, h])
    | some s' =>
      have : Decidable (Along step ok es s') := decidableAlong es s'
      decidable_of_iff (ok e s ∧ Along step ok es s') (by simp [Along, h])

theorem Along.and {p q : ε → σ → Prop} {es : List ε} {s : σ} (hp : Along step p es s)
    (hq : Along step q es s) : Along step (fun e s => p e s ∧ q e s) es s := by
  induction es generalizing s with
  | nil => trivial
  | cons e es ih =>
    exact ⟨⟨hp.1, hq.1⟩, fun s' hs' => ih (hp.2 s' hs') (hq.2 s' hs')⟩

/-- A condition on labels alone holds along every run of labels that meet it. -/
theorem along_of_forall {ok : ε → σ → Prop} {es : List ε} (h : ∀ e ∈ es, ∀ s, ok e s) (s : σ) : Along step ok es s := by
  induction es generalizing s with
  | nil => trivial
  | cons e es ih =>
    exact ⟨h e List.mem_cons_self s, fun s' _ => ih (fun e' he' => h e' (List.mem_cons_of_mem _ he')) s'⟩

/-- Two conditions that agree everywhere hold along the same runs. -/
theorem along_congr {p q : ε → σ → Prop} (h : ∀ e s, p e s ↔ q e s) (es : List ε) (s : σ) :
    Along step p es s ↔ Along step q es s := by
  induction es generalizing s with
  | nil => exact Iff.rfl
  | cons e es ih => exact and_congr (h e s) (forall_congr' fun s' => imp_congr_right fun _ => ih s')

/-- The invariant rule: what holds at the start and is kept by each permitted
step holds at the end. -/
theorem exec_invariant (Inv : σ → Prop) {ok : ε → σ → Prop}
    (keep : ∀ e s s', ok e s → Inv s → step e s = some s' → Inv s')
    {es : List ε} {s s' : σ} (start : Inv s) (along : Along step ok es s)
    (run : exec step es s = some s') : Inv s' := by
  induction es generalizing s with
  | nil =>
    cases run
    exact start
  | cons e es ih =>
    obtain ⟨mid, hstep, hrest⟩ := exec_cons_eq_some.mp run
    exact ih (keep e s mid along.1 start hstep) (along.2 mid hstep) hrest

/-- The same rule when every step is permitted. -/
theorem exec_invariant_of_step (Inv : σ → Prop)
    (keep : ∀ e s s', Inv s → step e s = some s' → Inv s')
    {es : List ε} {s s' : σ} (start : Inv s) (run : exec step es s = some s') : Inv s' := by
  have along : Along step (fun _ _ => True) es s := along_of_forall (fun _ _ _ => trivial) s
  exact exec_invariant Inv (fun e s s' _ => keep e s s') start along run

/-- A machine whose every step another one answers with some steps of its own: any run of it is
answered by a run. -/
theorem exec_simulation {σ' ε' : Type} {step' : ε' → σ' → Option σ'} (R : σ → σ' → Prop)
    (answer : ∀ e s s' t, R s t → step e s = some s' → ∃ es t', exec step' es t = some t' ∧ R s' t')
    {es : List ε} {s s' : σ} {t : σ'} (start : R s t) (run : exec step es s = some s') :
    ∃ es' t', exec step' es' t = some t' ∧ R s' t' := by
  induction es generalizing s t with
  | nil =>
    cases run
    exact ⟨[], t, rfl, start⟩
  | cons e es ih =>
    obtain ⟨mid, hstep, hrest⟩ := exec_cons_eq_some.mp run
    obtain ⟨first, tmid, hfirst, hmid⟩ := answer e s mid t start hstep
    obtain ⟨rest, t', hthen, hend⟩ := ih hmid hrest
    exact ⟨first ++ rest, t', exec_append_of hfirst hthen, hend⟩

/-- A run is no longer than what its steps have to spend, and what they gain on the way. -/
theorem exec_length_le (left gain : σ → Nat)
    (spend : ∀ e s s', step e s = some s' → left s' + gain s < left s + gain s')
    {es : List ε} {s s' : σ} (run : exec step es s = some s') :
    es.length + left s' + gain s ≤ left s + gain s' := by
  induction es generalizing s with
  | nil =>
    cases run
    simp
  | cons e es ih =>
    obtain ⟨mid, hstep, hrest⟩ := exec_cons_eq_some.mp run
    have hspent := spend e s mid hstep
    have := ih hrest
    simp only [List.length_cons]
    omega

/-- Along a run that keeps an invariant one condition gives another. -/
theorem Along.of_invariant (Inv : σ → Prop) {ok ok' : ε → σ → Prop}
    (keep : ∀ e s s', ok e s → Inv s → step e s = some s' → Inv s')
    (give : ∀ e s s', ok e s → Inv s → step e s = some s' → ok' e s)
    {es : List ε} {s s' : σ} (start : Inv s) (along : Along step ok es s)
    (run : exec step es s = some s') : Along step ok' es s := by
  induction es generalizing s with
  | nil => trivial
  | cons e es ih =>
    obtain ⟨mid, hstep, hrest⟩ := exec_cons_eq_some.mp run
    refine ⟨give e s mid along.1 start hstep, fun t ht => ?_⟩
    obtain rfl : mid = t := Option.some.inj (hstep.symm.trans ht)
    exact ih (keep e s mid along.1 start hstep) (along.2 mid hstep) hrest

/-- Two conditions that agree at each step from a state with the invariant hold along the same runs, where the
one keeps the invariant. -/
theorem along_iff_of_step (Inv : σ → Prop) {permit ok ok' : ε → σ → Prop}
    (keep : ∀ e s s', permit e s → ok e s → Inv s → step e s = some s' → Inv s')
    (same : ∀ e s s', permit e s → Inv s → step e s = some s' → (ok' e s ↔ ok e s))
    {es : List ε} {s s' : σ} (start : Inv s) (permitted : Along step permit es s) (run : exec step es s = some s') :
    Along step ok' es s ↔ Along step ok es s := by
  induction es generalizing s with
  | nil => exact Iff.rfl
  | cons e es ih =>
    obtain ⟨mid, hstep, hrest⟩ := exec_cons_eq_some.mp run
    have hsame := same e s mid permitted.1 start hstep
    have honly : ∀ ok : ε → σ → Prop, Along step ok (e :: es) s ↔ ok e s ∧ Along step ok es mid := by
      intro ok
      simp [Along, hstep]
    rw [honly, honly, hsame]
    refine and_congr_right fun hok => ?_
    exact ih (keep e s mid permitted.1 hok start hstep) (permitted.2 mid hstep) hrest

/-- A run that leaves `ok` has a first step that does so. What that step establishes and
every step keeps holds at the end. -/
theorem exec_of_not_along (Before After : σ → Prop) {ok : ε → σ → Prop}
    (before : ∀ e s s', Before s → step e s = some s' → Before s')
    (enter : ∀ e s s', Before s → ¬ ok e s → step e s = some s' → After s')
    (keep : ∀ e s s', After s → step e s = some s' → After s')
    {es : List ε} {s s' : σ} (start : Before s) (leaves : ¬ Along step ok es s)
    (run : exec step es s = some s') : After s' := by
  induction es generalizing s with
  | nil => exact absurd trivial leaves
  | cons e es ih =>
    obtain ⟨mid, hstep, hrest⟩ := exec_cons_eq_some.mp run
    by_cases he : ok e s
    · refine ih (before e s mid start hstep) (fun halong => leaves ⟨he, fun s' hs' => ?_⟩) hrest
      rw [hstep] at hs'
      exact Option.some.inj hs' ▸ halong
    · exact exec_invariant_of_step After keep (enter e s mid start he hstep) hrest

end Library.Trace
