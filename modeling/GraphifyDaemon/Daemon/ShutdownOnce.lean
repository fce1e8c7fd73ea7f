import Mathlib.Logic.Function.Basic
import GraphifyDaemon.Daemon.Bookkeeping

/-! `Daemon.shutdown`, called by the main thread when `transport.run` is left and by any other
threads, with signals that make the main thread raise `SystemExit` wherever it is. One flag
decides which call does the work, and nobody takes over from a call that is cut short. -/
namespace GraphifyDaemon
open Library Library.Trace

/-- The next stage of a call that is in charge, when `pending` is what it drains. -/
def ShutdownStage.next (pending : List Ticket) : ShutdownStage → Option ShutdownStage
  | .running => some .stopping
  | .stopping => some .rejected
  | .rejected => some (if pending = [] then .drained else .draining pending)
  | .draining _ => some .compilingDrained
  | .compilingDrained => some .drained
  | .drained => some .timersStopped
  | .timersStopped => some .joined
  | .joined => some .persisting
  | .persisting => some .stopped
  | .stopped => none

theorem ShutdownStage.next_between {pending : List Ticket} {stage next : ShutdownStage}
    (h : stage.next pending = some next) (hstage : stage ≠ .persisting) : next ∉ [.running, .stopped] := by
  cases stage with
  | persisting => exact absurd rfl hstage
  | stopped => cases h
  | rejected =>
    cases h
    split_ifs <;> simp
  | running | stopping | draining | compilingDrained | drained | timersStopped | joined =>
    cases h
    simp

/-- The thread in `shutdown` of `Threads` goes through these stages. -/
theorem threads_shutdown_next {e : ThreadEvent} {s s' : Threads} (hbooks : Bookkeeping s)
    (h : Threads.step e s = some s') :
    s'.shutdown = s.shutdown ∨ s.shutdown.next s.pending = some s'.shutdown := by
  cases Threads.move_of_step h with
  | leaveDrained hholder => exact .inr (by rw [hbooks.drainedHolder (.inr hholder)]; rfl)
  | leavePersisting hholder => exact .inr (by rw [hbooks.persistingHolder hholder]; rfl)
  | stop hstage | reject hstage | drain hstage | acquireDrained hstage | stopTimers hstage | join hstage
  | persist hstage => exact .inr (by rw [hstage]; rfl)
  | _ => exact .inl rfl

/-- How far a call of `shutdown` is. `reached .running` is a call that has not looked at the
state yet, `reached .stopped` one that has only the state left to set. -/
inductive CallStage where
  | notCalled
  | reached (stage : ShutdownStage)
  | returned
  | raised
  deriving DecidableEq

namespace CallStage

/-- The call found the daemon running, and has not set `STOPPED` yet. -/
def InCharge : CallStage → Prop
  | .reached .running | .notCalled | .returned | .raised => False
  | .reached _ => True

def Ended (stage : CallStage) : Prop := stage = .returned ∨ stage = .raised

end CallStage

inductive DaemonState where
  | running
  | stopping
  | stopped
  deriving DecidableEq

def DaemonState.rank : DaemonState → Nat
  | .running => 0
  | .stopping => 1
  | .stopped => 2

/-- How `transport.run` is left. -/
inductive LeaveTransport where
  | returned
  | sigterm
  | sigint
  | otherException
  deriving DecidableEq

/-- The daemon's state, the calls of `shutdown`, of which number 0 is `run_forever`'s, and
how often `persist_on_shutdown` ran to completion. -/
structure ShutdownCalls where
  state : DaemonState
  calls : Nat → CallStage
  persisted : Nat

inductive ShutdownEvent where
  | leave (how : LeaveTransport)
  | call (i : Nat)
  | advance (i : Nat) (pending : List Ticket)
  | fail (i : Nat)
  | signal
  deriving DecidableEq

/-- The drained compile, the stopping and joining of the observer, and the writing of
artifacts may raise. -/
def ShutdownStage.MayRaise : ShutdownStage → Prop
  | .compilingDrained | .drained | .timersStopped | .persisting => True
  | .running | .stopping | .rejected | .draining _ | .joined | .stopped => False

instance : (stage : ShutdownStage) → Decidable stage.MayRaise
  | .compilingDrained | .drained | .timersStopped | .persisting => isTrue trivial
  | .running | .stopping | .rejected | .draining _ | .joined | .stopped => isFalse id

namespace ShutdownCalls

/-- `run_forever` is in `transport.run`. -/
def initial : ShutdownCalls := ⟨.running, fun _ => .notCalled, 0⟩

def goTo (i : Nat) (stage : CallStage) (s : ShutdownCalls) : ShutdownCalls :=
  { s with calls := Function.update s.calls i stage }

/-- One step of call `i`. -/
def advance (i : Nat) (pending : List Ticket) (s : ShutdownCalls) : Option ShutdownCalls :=
  match s.calls i with
  | .notCalled | .returned | .raised => none
  | .reached .running =>
    if s.state = .running then some ({ s with state := .stopping }.goTo i (.reached .stopping))
    else some (s.goTo i .returned)
  | .reached .persisting => some ({ s with persisted := s.persisted + 1 }.goTo i (.reached .stopped))
  | .reached .stopped => some ({ s with state := .stopped }.goTo i .returned)
  | .reached stage => (stage.next pending).map fun stage => s.goTo i (.reached stage)

/-- The step of call `i` raises instead. -/
def fail (i : Nat) (s : ShutdownCalls) : Option ShutdownCalls :=
  match s.calls i with
  | .reached stage => if stage.MayRaise then some (s.goTo i .raised) else none
  | .notCalled | .returned | .raised => none

/-- The handler raises `SystemExit` in the main thread, which by now is past `transport.run`. -/
def signal (s : ShutdownCalls) : Option ShutdownCalls :=
  match s.calls 0 with
  | .notCalled => none
  | .reached _ => some (s.goTo 0 .raised)
  | .returned | .raised => some s

/-- Another thread's number is its own for one call. -/
def step : ShutdownEvent → ShutdownCalls → Option ShutdownCalls
  | .leave _, s => if s.calls 0 = .notCalled then some (s.goTo 0 (.reached .running)) else none
  | .call i, s => if i ≠ 0 ∧ s.calls i = .notCalled then some (s.goTo i (.reached .running)) else none
  | .advance i pending, s => s.advance i pending
  | .fail i, s => s.fail i
  | .signal, s => s.signal

/-- `run_forever` and every call are through. -/
def Finished (s : ShutdownCalls) : Prop :=
  (s.calls 0).Ended ∧ ∀ i, s.calls i = .notCalled ∨ (s.calls i).Ended

end ShutdownCalls

namespace CallStage

@[simp] theorem inCharge_reached (stage : ShutdownStage) : (reached stage).InCharge ↔ stage ≠ .running := by
  cases stage <;> simp [InCharge]

@[simp] theorem not_inCharge_notCalled : ¬ notCalled.InCharge := id
@[simp] theorem not_inCharge_returned : ¬ returned.InCharge := id
@[simp] theorem not_inCharge_raised : ¬ raised.InCharge := id

theorem Ended.not_inCharge {stage : CallStage} (h : stage.Ended) : ¬ stage.InCharge := by
  rcases h with rfl | rfl
  · exact id
  · exact id

end CallStage

/-- No signal reaches the main thread while its call is in charge, and no step of the call in
charge raises. -/
def Spared : ShutdownEvent → ShutdownCalls → Prop
  | .signal, s => ¬ (s.calls 0).InCharge
  | .fail _, _ => False
  | .leave _, _ | .call _, _ | .advance _ _, _ => True

/-- A call looks at the state of the daemon. -/
def Checks : ShutdownEvent → ShutdownCalls → Prop
  | .advance i _, s => s.calls i = .reached .running
  | .signal, _ | .fail _, _ | .leave _, _ | .call _, _ => False

/-- The state does not move backward. -/
def NeverBack (e : ShutdownEvent) (s : ShutdownCalls) : Prop :=
  ∀ s', ShutdownCalls.step e s = some s' → s.state.rank ≤ s'.state.rank

namespace ShutdownCalls

@[simp] theorem goTo_state (i : Nat) (stage : CallStage) (s : ShutdownCalls) : (s.goTo i stage).state = s.state := rfl
@[simp] theorem goTo_persisted (i : Nat) (stage : CallStage) (s : ShutdownCalls) :
    (s.goTo i stage).persisted = s.persisted := rfl

theorem goTo_calls (i j : Nat) (stage : CallStage) (s : ShutdownCalls) :
    (s.goTo i stage).calls j = if j = i then stage else s.calls j := Function.update_apply _ _ _ _

/-- All that one step of a call can do. -/
theorem advance_cases {i : Nat} {pending : List Ticket} {s s' : ShutdownCalls} (h : s.advance i pending = some s') :
    (s.calls i = .reached .running ∧ s.state = .running ∧
      s' = { s with state := .stopping }.goTo i (.reached .stopping)) ∨
    (s.calls i = .reached .running ∧ s.state ≠ .running ∧ s' = s.goTo i .returned) ∨
    (s.calls i = .reached .persisting ∧ s' = { s with persisted := s.persisted + 1 }.goTo i (.reached .stopped)) ∨
    (s.calls i = .reached .stopped ∧ s' = { s with state := .stopped }.goTo i .returned) ∨
    ∃ stage next, s.calls i = .reached stage ∧ stage ∉ [.running, .persisting, .stopped] ∧
      next ∉ [.running, .stopped] ∧ s' = s.goTo i (.reached next) := by
  unfold advance at h
  split at h
  · cases h
  · cases h
  · cases h
  · rename_i hstage
    split_ifs at h with hrunning
    · cases h
      exact .inl ⟨hstage, hrunning, rfl⟩
    · cases h
      exact .inr (.inl ⟨hstage, hrunning, rfl⟩)
  · rename_i hstage
    cases h
    exact .inr (.inr (.inl ⟨hstage, rfl⟩))
  · rename_i hstage
    cases h
    exact .inr (.inr (.inr (.inl ⟨hstage, rfl⟩)))
  · rename_i stage hrunning hpersisting hstopped hstage
    obtain ⟨next, hnext, rfl⟩ := Option.map_eq_some_iff.mp h
    refine .inr (.inr (.inr (.inr ⟨stage, next, hstage, ?_, ?_, rfl⟩)))
    · simpa using ⟨hrunning, hpersisting, hstopped⟩
    · exact ShutdownStage.next_between hnext hpersisting

/-- Only a call in charge raises. -/
theorem fail_cases {i : Nat} {s s' : ShutdownCalls} (h : s.fail i = some s') :
    (s.calls i).InCharge ∧ s' = s.goTo i .raised := by
  unfold fail at h
  split at h
  · rename_i stage hi
    split_ifs at h with hraises
    have hne : stage ≠ .running := fun he => by
      subst he
      exact hraises
    exact ⟨by simpa [hi] using hne, (Option.some.inj h).symm⟩
  all_goals cases h

/-- A signal cuts the main thread's call short, if there is anything left of it. -/
theorem signal_cases {s s' : ShutdownCalls} (h : s.signal = some s') :
    s' = s.goTo 0 .raised ∨ ¬ (s.calls 0).InCharge ∧ s' = s := by
  unfold signal at h
  split at h
  · cases h
  · exact .inl (Option.some.inj h).symm
  all_goals
    rename_i hended
    exact .inr ⟨by simp [hended], (Option.some.inj h).symm⟩

/-- Where nobody else is in charge before a call moves, nobody else is afterwards. -/
theorem inCharge_goTo {i : Nat} {stage : CallStage} {s : ShutdownCalls} (h : ∀ j, (s.calls j).InCharge → j = i)
    {j : Nat} (hj : ((s.goTo i stage).calls j).InCharge) : j = i := by
  rw [goTo_calls] at hj
  split_ifs at hj with hji
  · exact hji
  · exact h j hj

end ShutdownCalls

/-- At most one call is in charge, and what it has done so far is done once. -/
structure OneLeader (s : ShutdownCalls) : Prop where
  leader : ∀ i, (s.calls i).InCharge → s.state = .stopping
  unique : ∀ i j, (s.calls i).InCharge → (s.calls j).InCharge → i = j
  fresh : s.state = .running → s.persisted = 0
  done : s.state = .stopped → s.persisted = 1
  early : ∀ i, (s.calls i).InCharge → s.calls i ≠ .reached .stopped → s.persisted = 0
  late : ∀ i, s.calls i = .reached .stopped → s.persisted = 1

private theorem oneLeader_initial : OneLeader .initial where
  leader i h := h.elim
  unique i j h := h.elim
  fresh _ := rfl
  done h := by cases h
  early i h := h.elim
  late i h := by cases h

namespace OneLeader
variable {s : ShutdownCalls}

/-- A call ends, or begins. -/
theorem goTo_idle (h : OneLeader s) (i : Nat) {stage : CallStage} (hidle : ¬ stage.InCharge) :
    OneLeader (s.goTo i stage) := by
  have hold : ∀ j, ((s.goTo i stage).calls j).InCharge → (s.calls j).InCharge ∧ (s.goTo i stage).calls j = s.calls j := by
    intro j hj
    rw [ShutdownCalls.goTo_calls] at hj ⊢
    split_ifs at hj ⊢ with hji
    · exact absurd hj hidle
    · exact ⟨hj, rfl⟩
  refine ⟨fun j hj => h.leader j (hold j hj).1, fun j k hj hk => h.unique j k (hold j hj).1 (hold k hk).1, h.fresh,
    h.done, fun j hj hne => ?_, fun j hj => ?_⟩
  · obtain ⟨hcharge, hsame⟩ := hold j hj
    exact h.early j hcharge (hsame ▸ hne)
  · have hcharge : ((s.goTo i stage).calls j).InCharge := by simp [hj]
    exact h.late j ((hold j hcharge).2 ▸ hj)

/-- The leader's call goes to a stage that is not its last. -/
theorem goTo_next (h : OneLeader s) {i : Nat} {stage next : ShutdownStage} (hi : s.calls i = .reached stage)
    (hstage : stage ∉ [.running, .persisting, .stopped]) (hnext : next ∉ [.running, .stopped]) :
    OneLeader (s.goTo i (.reached next)) := by
  simp only [List.mem_cons, List.not_mem_nil, or_false, not_or] at hstage hnext
  have hcharge : (s.calls i).InCharge := by simp [hi, hstage.1]
  have hold : ∀ j, ((s.goTo i (.reached next)).calls j).InCharge → j = i :=
    fun _ => ShutdownCalls.inCharge_goTo fun j hj => h.unique j i hj hcharge
  have hunpersisted : s.persisted = 0 := h.early i hcharge (by simp [hi, hstage.2.2])
  refine ⟨fun _ _ => h.leader i hcharge, fun j k hj hk => (hold j hj).trans (hold k hk).symm, h.fresh, h.done,
    fun _ _ _ => hunpersisted, fun j hj => ?_⟩
  have hji : j = i := hold j (by simp [hj])
  rw [ShutdownCalls.goTo_calls, if_pos hji] at hj
  exact absurd (CallStage.reached.inj hj) hnext.2

end OneLeader

private theorem oneLeader_advance {i : Nat} {pending : List Ticket} {s s' : ShutdownCalls} (h : OneLeader s)
    (hadvance : s.advance i pending = some s') : OneLeader s' := by
  obtain ⟨-, hrunning, rfl⟩ | ⟨-, -, rfl⟩ | ⟨hi, rfl⟩ | ⟨hi, rfl⟩ | ⟨stage, next, hi, hstage, hnext, rfl⟩ :=
    ShutdownCalls.advance_cases hadvance
  · -- the check: nobody was in charge of a running daemon
    have hnobody : ∀ j, ¬ (s.calls j).InCharge := fun j hj => by simp [h.leader j hj] at hrunning
    have honly : ∀ j,
        (({ s with state := .stopping }.goTo i (.reached .stopping) : ShutdownCalls).calls j).InCharge → j = i :=
      fun _ => ShutdownCalls.inCharge_goTo fun j hj => absurd hj (hnobody j)
    refine ⟨fun _ _ => rfl, fun j k hj hk => (honly j hj).trans (honly k hk).symm, (fun hstate => by cases hstate),
      (fun hstate => by cases hstate), fun _ _ _ => h.fresh hrunning, fun j hj => ?_⟩
    have hcharge : (({ s with state := .stopping }.goTo i (.reached .stopping) : ShutdownCalls).calls j).InCharge := by
      rw [hj]
      trivial
    rw [ShutdownCalls.goTo_calls, if_pos (honly j hcharge)] at hj
    cases hj
  · exact h.goTo_idle i id
  · have hcharge : (s.calls i).InCharge := by simp [hi]
    have honce : s.persisted + 1 = 1 := by rw [h.early i hcharge (by simp [hi])]
    have honly : ∀ j,
        (({ s with persisted := s.persisted + 1 }.goTo i (.reached .stopped) : ShutdownCalls).calls j).InCharge →
        j = i := fun _ => ShutdownCalls.inCharge_goTo fun j hj => h.unique j i hj hcharge
    refine ⟨fun _ _ => h.leader i hcharge, fun j k hj hk => (honly j hj).trans (honly k hk).symm, fun hstate => ?_,
      fun _ => honce, fun j hj hne => ?_, fun _ _ => honce⟩
    · exact absurd hstate (by simp [h.leader i hcharge])
    · rw [ShutdownCalls.goTo_calls, if_pos (honly j hj)] at hne
      exact absurd rfl hne
  · have hcharge : (s.calls i).InCharge := by simp [hi]
    have hnobody : ∀ j, ¬ (({ s with state := .stopped }.goTo i .returned : ShutdownCalls).calls j).InCharge := by
      intro j hj
      rw [ShutdownCalls.goTo_calls] at hj
      split_ifs at hj with hji
      · exact hj
      · exact hji (h.unique j i hj hcharge)
    refine ⟨fun j hj => absurd hj (hnobody j), fun j _ hj => absurd hj (hnobody j), (fun hstate => by cases hstate),
      fun _ => h.late i hi, fun j hj => absurd hj (hnobody j), fun _ _ => h.late i hi⟩
  · exact h.goTo_next hi hstage hnext

private theorem oneLeader_step {e : ShutdownEvent} {s s' : ShutdownCalls} (h : OneLeader s)
    (hstep : ShutdownCalls.step e s = some s') : OneLeader s' := by
  cases e <;> simp only [ShutdownCalls.step] at hstep
  case leave | call =>
    split_ifs at hstep
    cases hstep
    exact h.goTo_idle _ (by simp)
  case advance i pending => exact oneLeader_advance h hstep
  case fail i =>
    obtain ⟨-, rfl⟩ := ShutdownCalls.fail_cases hstep
    exact h.goTo_idle i id
  case signal =>
    obtain rfl | ⟨-, rfl⟩ := ShutdownCalls.signal_cases hstep
    · exact h.goTo_idle 0 id
    · exact h

/-- All that a step can do to the state of the daemon. -/
theorem step_state {e : ShutdownEvent} {s s' : ShutdownCalls} (h : OneLeader s)
    (hstep : ShutdownCalls.step e s = some s') :
    s'.state = s.state ∨ (Checks e s ∧ s.state = .running ∧ s'.state = .stopping) ∨
      (s.state = .stopping ∧ s'.state = .stopped) := by
  cases e <;> simp only [ShutdownCalls.step] at hstep
  case leave | call =>
    split_ifs at hstep
    cases hstep
    exact .inl rfl
  case advance i pending =>
    obtain ⟨hi, hrunning, rfl⟩ | ⟨-, -, rfl⟩ | ⟨-, rfl⟩ | ⟨hi, rfl⟩ | ⟨-, -, -, -, -, rfl⟩ :=
      ShutdownCalls.advance_cases hstep
    · exact .inr (.inl ⟨hi, hrunning, rfl⟩)
    · exact .inl rfl
    · exact .inl rfl
    · exact .inr (.inr ⟨h.leader i (by simp [hi]), rfl⟩)
    · exact .inl rfl
  case fail i =>
    obtain ⟨-, rfl⟩ := ShutdownCalls.fail_cases hstep
    exact .inl rfl
  case signal =>
    obtain rfl | ⟨-, rfl⟩ := ShutdownCalls.signal_cases hstep
    · exact .inl rfl
    · exact .inl rfl

private theorem neverBack {e : ShutdownEvent} {s : ShutdownCalls} (h : OneLeader s) : NeverBack e s := by
  intro s' hstep
  obtain hsame | ⟨-, hold, hnew⟩ | ⟨hold, hnew⟩ := step_state h hstep
  · exact Nat.le_of_eq (by rw [hsame])
  · rw [hold, hnew]
    decide
  · rw [hold, hnew]
    decide

private theorem neverBack_along (es : List ShutdownEvent) {s : ShutdownCalls} (h : OneLeader s) :
    Along ShutdownCalls.step NeverBack es s := by
  induction es generalizing s with
  | nil => trivial
  | cons e es ih => exact ⟨neverBack h, fun s' hstep => ih (oneLeader_step h hstep)⟩

/-- A daemon that has left `RUNNING` does not come back to it. -/
theorem left_running_step {e : ShutdownEvent} {s s' : ShutdownCalls} (h : OneLeader s ∧ s.state ≠ .running)
    (hstep : ShutdownCalls.step e s = some s') : OneLeader s' ∧ s'.state ≠ .running := by
  refine ⟨oneLeader_step h.1 hstep, ?_⟩
  obtain hsame | ⟨-, hold, -⟩ | ⟨-, hnew⟩ := step_state h.1 hstep
  · exact hsame ▸ h.2
  · exact absurd hold h.2
  · rw [hnew]
    decide

private theorem left_running_of_checks {e : ShutdownEvent} {s s' : ShutdownCalls} (hchecks : Checks e s)
    (hstep : ShutdownCalls.step e s = some s') : s'.state ≠ .running := by
  cases e with
  | leave | call | fail | signal => exact hchecks.elim
  | advance i pending =>
    have hi : s.calls i = .reached .running := hchecks
    obtain ⟨-, -, rfl⟩ | ⟨-, hleft, rfl⟩ | ⟨hlate, -⟩ | ⟨hlate, -⟩ | ⟨stage, next, hlate, hstage, -, -⟩ :=
      ShutdownCalls.advance_cases hstep
    · exact (fun hstate => by cases hstate)
    · exact hleft
    · simp [hi] at hlate
    · simp [hi] at hlate
    · rw [hi] at hlate
      cases hlate
      simp at hstage

private theorem unchecked_step (e : ShutdownEvent) (s s' : ShutdownCalls) (hunchecked : ¬ Checks e s)
    (h : OneLeader s ∧ s.state = .running) (hstep : ShutdownCalls.step e s = some s') :
    OneLeader s' ∧ s'.state = .running := by
  refine ⟨oneLeader_step h.1 hstep, ?_⟩
  obtain hsame | ⟨hchecks, -, -⟩ | ⟨hstopping, -⟩ := step_state h.1 hstep
  · exact hsame.trans h.2
  · exact absurd hchecks hunchecked
  · exact absurd (hstopping.symm.trans h.2) (by decide)

/-- Nobody is in charge, and nobody will be. -/
def Wedged (s : ShutdownCalls) : Prop := s.state = .stopping ∧ ∀ i, ¬ (s.calls i).InCharge

/-- While the daemon stops, some call sees to it. -/
def Led (s : ShutdownCalls) : Prop := s.state = .stopping → ∃ i, (s.calls i).InCharge

theorem Wedged.goTo {s : ShutdownCalls} (h : Wedged s) (i : Nat) {stage : CallStage} (hidle : ¬ stage.InCharge) :
    Wedged (s.goTo i stage) := by
  refine ⟨h.1, fun j hj => ?_⟩
  rw [ShutdownCalls.goTo_calls] at hj
  split_ifs at hj
  · exact hidle hj
  · exact h.2 j hj

private theorem wedged_step {e : ShutdownEvent} {s s' : ShutdownCalls} (h : Wedged s)
    (hstep : ShutdownCalls.step e s = some s') : Wedged s' := by
  cases e <;> simp only [ShutdownCalls.step] at hstep
  case leave | call =>
    split_ifs at hstep
    cases hstep
    exact h.goTo _ (by simp)
  case advance i pending =>
    obtain ⟨-, hrunning, -⟩ | ⟨-, -, rfl⟩ | ⟨hi, -⟩ | ⟨hi, -⟩ | ⟨stage, next, hi, hstage, -, -⟩ :=
      ShutdownCalls.advance_cases hstep
    · exact absurd (h.1.symm.trans hrunning) (by decide)
    · exact h.goTo i id
    · exact absurd (by simp [hi]) (h.2 i)
    · exact absurd (by simp [hi]) (h.2 i)
    · have hne : stage ≠ .running := fun he => by simp [he] at hstage
      exact absurd (by simpa [hi] using hne) (h.2 i)
  case fail i =>
    obtain ⟨-, rfl⟩ := ShutdownCalls.fail_cases hstep
    exact h.goTo i id
  case signal =>
    obtain rfl | ⟨-, rfl⟩ := ShutdownCalls.signal_cases hstep
    · exact h.goTo 0 id
    · exact h

/-- The call in charge is cut short. -/
theorem wedged_of_cut {s : ShutdownCalls} (h : OneLeader s) {i : Nat} (hi : (s.calls i).InCharge) :
    Wedged (s.goTo i .raised) := by
  refine ⟨h.leader i hi, fun j hj => ?_⟩
  rw [ShutdownCalls.goTo_calls] at hj
  split_ifs at hj with hji
  · exact hj
  · exact hji (h.unique j i hj hi)

private theorem wedged_of_not_spared {e : ShutdownEvent} {s s' : ShutdownCalls} (h : OneLeader s) (hcut : ¬ Spared e s)
    (hstep : ShutdownCalls.step e s = some s') : Wedged s' := by
  cases e <;> simp only [ShutdownCalls.step] at hstep
  case leave | call | advance => exact absurd trivial hcut
  case fail i =>
    obtain ⟨hcharge, rfl⟩ := ShutdownCalls.fail_cases hstep
    exact wedged_of_cut h hcharge
  case signal =>
    have hcharge : (s.calls 0).InCharge := not_not.mp hcut
    obtain rfl | ⟨hidle, -⟩ := ShutdownCalls.signal_cases hstep
    · exact wedged_of_cut h hcharge
    · exact absurd hcharge hidle

/-- A call that is not in charge makes a move. -/
theorem Led.goTo {s : ShutdownCalls} (h : Led s) {i : Nat} (hi : ¬ (s.calls i).InCharge) (stage : CallStage) :
    Led (s.goTo i stage) := by
  intro hstopping
  obtain ⟨j, hj⟩ := h hstopping
  refine ⟨j, ?_⟩
  have hji : j ≠ i := fun he => hi (he ▸ hj)
  rw [ShutdownCalls.goTo_calls, if_neg hji]
  exact hj

theorem Led.of_inCharge {s : ShutdownCalls} (i : Nat) {stage : CallStage} (h : stage.InCharge) : Led (s.goTo i stage) :=
  fun _ => ⟨i, by rw [ShutdownCalls.goTo_calls, if_pos rfl]; exact h⟩

private theorem led_step {e : ShutdownEvent} {s s' : ShutdownCalls} (h : Led s) (hspared : Spared e s)
    (hstep : ShutdownCalls.step e s = some s') : Led s' := by
  cases e <;> simp only [ShutdownCalls.step] at hstep
  case leave =>
    split_ifs at hstep with hnew
    cases hstep
    exact h.goTo (by simp [hnew]) _
  case call i =>
    split_ifs at hstep with hnew
    cases hstep
    exact h.goTo (by simp [hnew.2]) _
  case advance i pending =>
    obtain ⟨-, -, rfl⟩ | ⟨hi, -, rfl⟩ | ⟨-, rfl⟩ | ⟨-, rfl⟩ | ⟨stage, next, -, -, hnext, rfl⟩ :=
      ShutdownCalls.advance_cases hstep
    · exact Led.of_inCharge i trivial
    · exact h.goTo (by simp [hi]) _
    · exact Led.of_inCharge i trivial
    · exact (fun hstopping => by cases hstopping)
    · have hne : next ≠ .running := fun he => by simp [he] at hnext
      exact Led.of_inCharge i (by simpa using hne)
  case fail => exact hspared.elim
  case signal =>
    obtain rfl | ⟨-, rfl⟩ := ShutdownCalls.signal_cases hstep
    · exact h.goTo hspared _
    · exact h

/-- For every run of any number of calls until all of them, and `run_forever`, are through:
artifacts are persisted once, the daemon is stopped and its state never moved backward if and
only if some call looked at the state and the call in charge was spared. -/
theorem persists_once_iff (run : List ShutdownEvent) (s : ShutdownCalls)
    (hrun : exec ShutdownCalls.step run .initial = some s) (hfinished : s.Finished) :
    (s.persisted = 1 ∧ s.state = .stopped ∧ Along ShutdownCalls.step NeverBack run .initial) ↔
      Along ShutdownCalls.step Spared run .initial ∧
        ¬ Along ShutdownCalls.step (fun e s => ¬ Checks e s) run .initial := by
  have hleader : OneLeader s :=
    exec_invariant_of_step OneLeader (fun _ _ _ => oneLeader_step) oneLeader_initial hrun
  have hnobody : ∀ i, ¬ (s.calls i).InCharge := by
    intro i
    obtain hi | hi := hfinished.2 i
    · rw [hi]
      exact id
    · exact hi.not_inCharge
  constructor
  · rintro ⟨-, hstopped, -⟩
    constructor
    · by_contra hcut
      have hwedged : Wedged s := exec_of_not_along OneLeader Wedged (fun _ _ _ => oneLeader_step)
        (fun _ _ _ => wedged_of_not_spared) (fun _ _ _ => wedged_step) oneLeader_initial hcut hrun
      exact absurd (hwedged.1.symm.trans hstopped) (by decide)
    · intro hunchecked
      have hstill : OneLeader s ∧ s.state = .running :=
        exec_invariant (fun s => OneLeader s ∧ s.state = .running) unchecked_step ⟨oneLeader_initial, rfl⟩ hunchecked hrun
      exact absurd (hstill.2.symm.trans hstopped) (by decide)
  · rintro ⟨hspared, hchecked⟩
    have hled : Led s :=
      exec_invariant Led (fun _ _ _ hok hled hstep => led_step hled hok hstep) (fun h => by cases h) hspared hrun
    have hleft : OneLeader s ∧ s.state ≠ .running := exec_of_not_along OneLeader (fun s => OneLeader s ∧ s.state ≠ .running)
      (fun _ _ _ => oneLeader_step)
      (fun _ _ _ h hchecks hstep => ⟨oneLeader_step h hstep, left_running_of_checks (not_not.mp hchecks) hstep⟩)
      (fun _ _ _ => left_running_step) oneLeader_initial hchecked hrun
    have hstopped : s.state = .stopped := by
      cases hstate : s.state with
      | running => exact absurd hstate hleft.2
      | stopping =>
        obtain ⟨i, hi⟩ := hled hstate
        exact absurd hi (hnobody i)
      | stopped => rfl
    exact ⟨hleader.done hstopped, hstopped, neverBack_along run oneLeader_initial⟩

/-- The transport is left by SIGTERM while a pending batch waits. A second call finds nothing
to do, and a second signal comes when `run_forever` is through. -/
def sparedRun : List ShutdownEvent :=
  [.leave .sigterm, .call 1, .advance 0 [], .advance 1 [], .advance 0 [], .advance 0 [⟨0, .created notePath⟩],
    .advance 0 [], .advance 0 [],
    .advance 0 [], .advance 0 [], .advance 0 [], .advance 0 [], .advance 0 [], .signal]

theorem persists_once_iff_secondCall :
    ∃ s, exec ShutdownCalls.step sparedRun .initial = some s ∧ s.Finished ∧
      (s.persisted = 1 ∧ s.state = .stopped ∧ Along ShutdownCalls.step NeverBack sparedRun .initial ↔
        Along ShutdownCalls.step Spared sparedRun .initial ∧
          ¬ Along ShutdownCalls.step (fun e s => ¬ Checks e s) sparedRun .initial) := by
  obtain ⟨s, hrun, hfinished⟩ : ∃ s, exec ShutdownCalls.step sparedRun .initial = some s ∧ s.Finished := by
    refine ⟨_, rfl, .inl rfl, fun i => ?_⟩
    match i with
    | 0 | 1 => exact .inr (.inl rfl)
    | _ + 2 => exact .inl rfl
  exact ⟨s, hrun, hfinished, persists_once_iff sparedRun s hrun hfinished⟩

/-- The drained batch's compile raises out of the first call, and a second call returns
without doing anything. Or a second SIGTERM arrives while the first call drains. -/
theorem shutdown_cut_short :
    ∃ raising signalled : List ShutdownEvent,
      raising = [.leave .sigterm, .advance 0 [], .advance 0 [], .advance 0 [⟨0, .created notePath⟩],
        .advance 0 [], .fail 0, .call 1, .advance 1 []] ∧
      signalled = [.leave .sigterm, .advance 0 [], .advance 0 [], .signal, .call 1, .advance 1 []] ∧
      ∀ run ∈ [raising, signalled], ∃ s, exec ShutdownCalls.step run .initial = some s ∧ s.Finished ∧
        s.persisted = 0 ∧ s.state = .stopping := by
  refine ⟨_, _, rfl, rfl, List.forall_mem_cons.mpr ⟨?_, List.forall_mem_singleton.mpr ?_⟩⟩
  all_goals
    refine ⟨_, rfl, ⟨.inr rfl, fun i => ?_⟩, rfl, rfl⟩
    match i with
    | 0 => exact .inr (.inr rfl)
    | 1 => exact .inr (.inl rfl)
    | _ + 2 => exact .inl rfl

end GraphifyDaemon
