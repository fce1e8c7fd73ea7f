import GraphifyDaemon.Library.Trace

/-! The potential method for runs of a partial step function: a step may cost more than its
credit where the potential pays for the rest. -/
namespace Library.Trace
variable {σ ε : Type} (step : ε → σ → Option σ)

/-- What the steps of a run are charged, added up. -/
def total (charge : ε → σ → Nat) : List ε → σ → Nat
  | [], _ => 0
  | e :: es, s => charge e s + ((step e s).map (total charge es)).getD 0

variable {step}

theorem total_cons {charge : ε → σ → Nat} {e : ε} {s mid : σ} (hstep : step e s = some mid) (es : List ε) :
    total step charge (e :: es) s = charge e s + total step charge es mid := by
  simp [total, hstep]

/-- Charges that are each the sum of two add up to the two sums. -/
theorem total_add {charge first second : ε → σ → Nat} (h : ∀ e s, charge e s = first e s + second e s)
    {es : List ε} {s s' : σ} (run : exec step es s = some s') :
    total step charge es s = total step first es s + total step second es s := by
  induction es generalizing s with
  | nil => rfl
  | cons e es ih =>
    obtain ⟨mid, hstep, hrest⟩ := exec_cons_eq_some.mp run
    rw [total_cons hstep, total_cons hstep, total_cons hstep, ih hrest, h]
    omega

theorem total_mul (k : Nat) (charge : ε → σ → Nat) (es : List ε) (s : σ) :
    total step (fun e s => k * charge e s) es s = k * total step charge es s := by
  induction es generalizing s with
  | nil => rfl
  | cons e es ih =>
    simp only [total, Nat.mul_add]
    cases step e s with
    | none => rfl
    | some mid => exact congrArg _ (ih mid)

/-- A fixed charge for the labels of one kind. -/
theorem total_kind (k : Nat) (kind : ε → Bool) {es : List ε} {s s' : σ} (run : exec step es s = some s') :
    total step (fun e _ => if kind e then k else 0) es s = k * es.countP kind := by
  induction es generalizing s with
  | nil => rfl
  | cons e es ih =>
    obtain ⟨mid, hstep, hrest⟩ := exec_cons_eq_some.mp run
    rw [total_cons hstep, ih hrest, List.countP_cons, Nat.mul_add, Nat.add_comm]
    cases kind e <;> simp

/-- The cost of a run is covered by its credit and the potential it starts with; what potential
is left at the end was not needed. -/
theorem total_le_of_potential (Inv : σ → Prop) (keep : ∀ e s s', Inv s → step e s = some s' → Inv s')
    {cost credit : ε → σ → Nat} (potential : σ → Nat)
    (pays : ∀ e s s', Inv s → step e s = some s' → cost e s + potential s' ≤ credit e s + potential s)
    {es : List ε} {s s' : σ} (start : Inv s) (run : exec step es s = some s') :
    total step cost es s + potential s' ≤ total step credit es s + potential s := by
  induction es generalizing s with
  | nil =>
    cases run
    exact Nat.le_refl _
  | cons e es ih =>
    obtain ⟨mid, hstep, hrest⟩ := exec_cons_eq_some.mp run
    have hpaid := pays e s mid start hstep
    have hlater := ih (keep e s mid start hstep) hrest
    rw [total_cons hstep, total_cons hstep]
    omega

end Library.Trace
