import GraphifyDaemon.Daemon.WatcherQueue

/-! The debounce timer. `_queue_change` replaces it, but a timer whose callback has begun
cannot be cancelled, and `_flush` does not ask which timer it runs for. -/
namespace GraphifyDaemon
open Library Library.Trace

/-- A callback that has begun: its timer, and how many changes were accepted before it began. -/
structure Callback where
  timer : Nat
  seen : Nat
  deriving DecidableEq

/-- The watcher in time. The `i`-th accepted change arms the timer `i`, so that `acceptedAt`
tells when each was accepted and each timer started. -/
structure DebounceRun where
  run : WatcherRun
  clock : Nat
  acceptedAt : List Nat
  /-- The numbers of the pending changes. -/
  waiting : List Nat
  callbacks : List Callback
  deriving DecidableEq

inductive DebounceEvent where
  | elapse (duration : Nat)
  | queueChange (c : FileChange)
  | timerFires (i : Nat)
  | flush (callback : Callback)
  | rejectNewEvents
  | drainPendingBatch
  | stop
  deriving DecidableEq

namespace DebounceRun

/-- The attribute `_timer`, and the timers started for it. -/
def timer (s : DebounceRun) : Timers := s.run.watcher.timer

def start (measured : Bool) (threshold : Int) (clock : Nat) : DebounceRun :=
  ⟨.start measured threshold, clock, [], [], []⟩

def queueChange (c : FileChange) (s : DebounceRun) : DebounceRun :=
  if s.run.watcher.rejectingEvents then { s with run := s.run.queueChange c }
  else
    { s with
      run := s.run.queueChange c
      acceptedAt := s.acceptedAt ++ [s.clock]
      waiting := s.waiting ++ [s.timer.next] }

/-- A timer runs out no sooner than `debounce` after its start. -/
def step (debounce : Nat) : DebounceEvent → DebounceRun → Option DebounceRun
  | .elapse duration, s => some { s with clock := s.clock + duration }
  | .queueChange c, s => some (s.queueChange c)
  | .timerFires i, s =>
    if i ∈ s.timer.armed ∧ ∀ startedAt ∈ s.acceptedAt[i]?, startedAt + debounce ≤ s.clock then
      some { s with
        run := { s.run with watcher := { s.run.watcher with timer := s.timer.fire i } }
        callbacks := ⟨i, s.timer.next⟩ :: s.callbacks }
    else none
  | .flush callback, s =>
    if callback ∈ s.callbacks then
      some { s with
        run := s.run.take s.run.watcher.flush
        waiting := []
        callbacks := s.callbacks.erase callback }
    else none
  | .rejectNewEvents, s => some { s with run := { s.run with watcher := s.run.watcher.rejectNewEvents } }
  | .drainPendingBatch, s => some { s with run := s.run.take s.run.watcher.drainPendingBatch, waiting := [] }
  | .stop, s => some { s with run := { s.run with watcher := s.run.watcher.stop } }

end DebounceRun

/-- At most one timer counts down, and it is the one in `_timer`. -/
def Timers.Single (t : Timers) : Prop := t.armed.length ≤ 1 ∧ ∀ i ∈ t.armed, t.current = some i

/-- A batch is emitted by a timer that was armed after all of its changes were accepted, and
after a whole interval in which no change was accepted. -/
def EmitsAfterQuiet (debounce : Nat) : DebounceEvent → DebounceRun → Prop
  | .flush callback, s => s.run.watcher.pending ≠ [] →
    (∀ k ∈ s.waiting, k ≤ callback.timer) ∧ ∀ accepted ∈ s.acceptedAt, accepted + debounce ≤ s.clock
  | _, _ => True

/-- No change that was accepted after a callback had begun is still pending when the callback
gets the lock. -/
def NotOvertaken : DebounceEvent → DebounceRun → Prop
  | .flush callback, s => ∀ k ∈ s.waiting, k < callback.seen
  | _, _ => True

instance (t : Timers) : Decidable t.Single := inferInstanceAs (Decidable (_ ∧ _))

instance (debounce : Nat) : (e : DebounceEvent) → (s : DebounceRun) → Decidable (EmitsAfterQuiet debounce e s)
  | .flush _, _ => inferInstanceAs (Decidable (_ → _ ∧ _))
  | .elapse _, _ | .queueChange _, _ | .timerFires _, _ | .rejectNewEvents, _ | .drainPendingBatch, _ | .stop, _ =>
    isTrue trivial

namespace Timers

theorem Single.cancel {t : Timers} (h : t.Single) : t.cancel.armed = [] := by
  unfold Timers.cancel
  cases hcurrent : t.current with
  | none => exact List.eq_nil_iff_forall_not_mem.mpr fun i hi => by simpa [hcurrent] using h.2 i hi
  | some j =>
    apply List.filter_eq_nil_iff.mpr
    intro i hi
    have hij := h.2 i hi
    rw [hcurrent] at hij
    simpa using (Option.some.inj hij).symm

@[simp] theorem next_cancel (t : Timers) : t.cancel.next = t.next := by
  unfold Timers.cancel
  split <;> rfl

@[simp] theorem begun_cancel (t : Timers) : t.cancel.begun = t.begun := by
  unfold Timers.cancel
  split <;> rfl

private theorem mem_cancel {t : Timers} {i : Nat} (h : i ∈ t.cancel.armed) : i ∈ t.armed := by
  unfold Timers.cancel at h
  split at h
  · exact List.mem_of_mem_filter h
  · exact h

end Timers

@[simp] theorem watcher_take (s : WatcherRun) (result : Option (List FileChange) × VaultWatcher) :
    (s.take result).watcher = result.2 := by
  unfold WatcherRun.take
  split <;> rfl

private theorem flush_watcher (w : VaultWatcher) : w.flush.2.pending = [] ∧
    w.flush.2.timer = if w.pending = [] then w.timer.goOn else { w.timer.goOn with current := none } := by
  unfold VaultWatcher.flush
  split_ifs with hpending
  · exact ⟨hpending, rfl⟩
  · exact ⟨rfl, rfl⟩

private theorem drain_watcher (w : VaultWatcher) : w.drainPendingBatch.2.pending = [] ∧
    w.drainPendingBatch.2.timer = w.timer.clear := by
  unfold VaultWatcher.drainPendingBatch
  dsimp only
  split_ifs with hpending
  · exact ⟨hpending, rfl⟩
  · exact ⟨rfl, rfl⟩

/-- What every run keeps true of its record. -/
structure Stamped (s : DebounceRun) : Prop where
  numbered : s.acceptedAt.length = s.timer.next
  sorted : s.acceptedAt.Pairwise (· ≤ ·)
  past : ∀ accepted ∈ s.acceptedAt, accepted ≤ s.clock
  /-- The last accepted change is pending as long as any is. -/
  last : s.run.watcher.pending ≠ [] → ∃ n ∈ s.waiting, s.timer.next = n + 1
  empty : s.run.watcher.pending = [] → s.waiting = []
  armed : ∀ i ∈ s.timer.armed, i < s.timer.next
  seen : ∀ callback ∈ s.callbacks, callback.timer < callback.seen ∧ callback.seen ≤ s.timer.next
  begun : s.timer.begun = s.callbacks.length

private theorem stamped_start (measured : Bool) (threshold : Int) (clock : Nat) : Stamped
    (.start measured threshold clock) where
  numbered := rfl
  sorted := List.Pairwise.nil
  past := by simp [DebounceRun.start]
  last h := absurd rfl h
  empty _ := rfl
  armed := by simp [DebounceRun.start, DebounceRun.timer, WatcherRun.start, VaultWatcher.initial, Timers.initial]
  seen := by simp [DebounceRun.start]
  begun := rfl

/-- An accepted change is pending, and its timer is the one that counts. -/
theorem queueChange_run {s : WatcherRun} (h : s.watcher.rejectingEvents = false) (c : FileChange) :
    (s.queueChange c).watcher.pending = s.watcher.pending ++ [c] ∧
      (s.queueChange c).watcher.timer = s.watcher.timer.arm := by
  obtain ⟨-, hpending, -⟩ := queueChange_accepted h c
  obtain ⟨htimer, -⟩ := queueChange_timers h c
  exact ⟨hpending, htimer⟩

private theorem queueChange_ignored {s : DebounceRun} (h : s.run.watcher.rejectingEvents = true) (c : FileChange) :
    s.queueChange c = s := by
  have hrun : s.run.queueChange c = s.run := by
    simp [WatcherRun.queueChange, queueChange_rejected h, h]
  rw [DebounceRun.queueChange, if_pos h, hrun]

private theorem stamped_queueChange {s : DebounceRun} (h : Stamped s) (c : FileChange) : Stamped (s.queueChange c) := by
  by_cases hrejecting : s.run.watcher.rejectingEvents = true
  · rwa [queueChange_ignored hrejecting]
  · obtain ⟨hpending, htimer⟩ := queueChange_run (by simpa using hrejecting) c
    have hnext : (s.run.queueChange c).watcher.timer.next = s.timer.next + 1 := by
      rw [htimer]
      rfl
    rw [DebounceRun.queueChange, if_neg hrejecting]
    constructor
    · have hlength : (s.acceptedAt ++ [s.clock]).length = s.timer.next + 1 := by
        rw [List.length_append, h.numbered]
        rfl
      exact hlength.trans hnext.symm
    · refine List.pairwise_append.mpr ⟨h.sorted, List.pairwise_singleton _ _, fun accepted haccepted now hnow => ?_⟩
      rw [List.mem_singleton.mp hnow]
      exact h.past accepted haccepted
    · intro accepted haccepted
      rcases List.mem_append.mp haccepted with hold | hnow
      · exact h.past accepted hold
      · exact Nat.le_of_eq (List.mem_singleton.mp hnow)
    · exact fun _ => ⟨s.timer.next, by simp, hnext⟩
    · exact fun hnone => by simp [hpending] at hnone
    · intro i hi
      have harm : i ∈ s.timer.arm.armed := htimer ▸ hi
      refine Nat.lt_of_lt_of_eq ?_ hnext.symm
      rcases List.mem_append.mp harm with hold | hnew
      · exact Nat.lt_succ_of_lt (h.armed i (Timers.mem_cancel hold))
      · rw [List.mem_singleton.mp hnew]
        exact Nat.lt_succ_self _
    · intro callback hcallback
      obtain ⟨htimer, hseen⟩ := h.seen callback hcallback
      exact ⟨htimer, le_of_le_of_eq (Nat.le_succ_of_le hseen) hnext.symm⟩
    · have hbegun : s.timer.arm.begun = s.callbacks.length := (Timers.begun_cancel _).trans h.begun
      exact (congrArg Timers.begun htimer).trans hbegun

/-- Taking the queue leaves no change waiting. -/
theorem stamped_taken {s : DebounceRun} (h : Stamped s) {watcher : VaultWatcher} {run : WatcherRun}
    {callbacks : List Callback}
    (hrun : run.watcher = watcher) (hpending : watcher.pending = []) (hnext : watcher.timer.next = s.timer.next)
    (harmed : ∀ i ∈ watcher.timer.armed, i ∈ s.timer.armed) (hcallbacks : ∀ callback ∈ callbacks, callback ∈ s.callbacks)
    (hbegun : watcher.timer.begun = callbacks.length) :
    Stamped { s with run := run, waiting := [], callbacks := callbacks } := by
  subst hrun
  exact {
    numbered := h.numbered.trans hnext.symm
    sorted := h.sorted
    past := h.past
    last := fun hne => absurd hpending hne
    empty := fun _ => rfl
    armed := fun i hi => hnext ▸ h.armed i (harmed i hi)
    seen := fun callback hmem => hnext ▸ h.seen callback (hcallbacks callback hmem)
    begun := hbegun }

private theorem stamped_step {debounce : Nat} {e : DebounceEvent} {s s' : DebounceRun} (h : Stamped s)
    (hstep : DebounceRun.step debounce e s = some s') : Stamped s' := by
  cases e with
  | elapse duration =>
    cases hstep
    exact { h with past := fun accepted haccepted => Nat.le_add_right_of_le (h.past accepted haccepted) }
  | queueChange c =>
    cases hstep
    exact stamped_queueChange h c
  | timerFires i =>
    simp only [DebounceRun.step] at hstep
    split_ifs at hstep with hfires
    cases hstep
    refine { h with armed := fun j hj => h.armed j (List.mem_of_mem_filter hj), seen := ?_, begun := ?_ }
    · intro callback hcallback
      rcases List.mem_cons.mp hcallback with rfl | hold
      · exact ⟨h.armed i hfires.1, Nat.le_refl _⟩
      · exact h.seen callback hold
    · exact congrArg (· + 1) h.begun
  | flush callback =>
    simp only [DebounceRun.step] at hstep
    split_ifs at hstep with hbegun
    cases hstep
    obtain ⟨hpending, htimer⟩ := flush_watcher s.run.watcher
    refine stamped_taken h (watcher_take _ _) hpending ?_ ?_ (fun cb hcb => List.mem_of_mem_erase hcb) ?_
    · rw [htimer]
      split_ifs <;> rfl
    · rw [htimer]
      split_ifs <;> exact fun i hi => hi
    · have hless : s.timer.begun - 1 = (s.callbacks.erase callback).length := by
        rw [List.length_erase_of_mem hbegun, h.begun]
      rw [htimer]
      split_ifs <;> exact hless
  | drainPendingBatch =>
    cases hstep
    obtain ⟨hpending, htimer⟩ := drain_watcher s.run.watcher
    refine stamped_taken h (watcher_take _ _) hpending ?_ ?_ (fun cb hcb => hcb) ?_
    · rw [htimer]
      exact Timers.next_cancel _
    · rw [htimer]
      exact fun i hi => Timers.mem_cancel hi
    · rw [htimer]
      exact (Timers.begun_cancel _).trans h.begun
  | rejectNewEvents =>
    cases hstep
    exact { h with }
  | stop =>
    cases hstep
    have hnext : s.run.watcher.timer.clear.next = s.timer.next := Timers.next_cancel _
    exact {
      numbered := h.numbered.trans hnext.symm
      sorted := h.sorted
      past := h.past
      last := fun hne => hnext ▸ h.last hne
      empty := h.empty
      armed := fun i hi => hnext ▸ h.armed i (Timers.mem_cancel hi)
      seen := fun callback hmem => hnext ▸ h.seen callback hmem
      begun := (Timers.begun_cancel _).trans h.begun }

/-- What holds as long as no callback is overtaken: the timer in `_timer` is the latest, and a
callback began when its timer was. -/
structure Disciplined (debounce : Nat) (s : DebounceRun) : Prop where
  single : s.timer.Single
  latest : ∀ i, s.timer.current = some i → s.timer.next = i + 1
  callbacks : ∀ callback ∈ s.callbacks, callback.seen = callback.timer + 1 ∧ callback.timer ∉ s.timer.armed ∧
    ∀ accepted ∈ s.acceptedAt.take callback.seen, accepted + debounce ≤ s.clock

theorem disciplined_start (debounce : Nat) (measured : Bool) (threshold : Int) (clock : Nat) :
    Disciplined debounce (.start measured threshold clock) where
  single := ⟨Nat.zero_le _, fun _ hi => (nomatch hi)⟩
  latest := fun _ hi => (nomatch hi)
  callbacks := fun _ hcallback => (nomatch hcallback)

/-- The last of the accepted changes was accepted last. -/
theorem accepted_le {s : DebounceRun} (h : Stamped s) {i : Nat} (hlatest : s.timer.next = i + 1) :
    ∃ startedAt, s.acceptedAt[i]? = some startedAt ∧ ∀ accepted ∈ s.acceptedAt, accepted ≤ startedAt := by
  have hlt : i < s.acceptedAt.length := by
    rw [h.numbered, hlatest]
    exact Nat.lt_succ_self i
  refine ⟨s.acceptedAt[i], List.getElem?_eq_getElem hlt, fun accepted haccepted => ?_⟩
  obtain ⟨j, hj, rfl⟩ := List.getElem_of_mem haccepted
  have hji : j ≤ i := by
    have := h.numbered
    omega
  rcases Nat.lt_or_eq_of_le hji with hless | rfl
  · exact List.pairwise_iff_getElem.mp h.sorted j i hj hlt hless
  · exact Nat.le_refl _

/-- With the latest change pending, a callback that was not overtaken is the latest one. -/
theorem latest_of_notOvertaken {s : DebounceRun} (hs : Stamped s)
    {callback : Callback} (hcallback : callback ∈ s.callbacks) (hpending : s.run.watcher.pending ≠ [])
    (hok : NotOvertaken (.flush callback) s) : callback.seen = s.timer.next := by
  obtain ⟨n, hn, hnext⟩ := hs.last hpending
  have hseen := (hs.seen callback hcallback).2
  have hbefore := hok n hn
  omega

/-- So it emits its own changes only, and late enough. -/
theorem emitsAfterQuiet_of_notOvertaken {debounce : Nat} {e : DebounceEvent} {s s' : DebounceRun} (hs : Stamped s)
    (h : Disciplined debounce s) (hok : NotOvertaken e s) (hstep : DebounceRun.step debounce e s = some s') :
    EmitsAfterQuiet debounce e s := by
  cases e with
  | flush callback =>
    simp only [DebounceRun.step] at hstep
    split_ifs at hstep with hcallback
    intro hpending
    obtain ⟨htimer, -, hquiet⟩ := h.callbacks callback hcallback
    refine ⟨fun k hk => Nat.le_of_lt_succ (Nat.lt_of_lt_of_eq (hok k hk) htimer),
      fun accepted haccepted => hquiet accepted ?_⟩
    rw [latest_of_notOvertaken hs hcallback hpending hok, ← hs.numbered, List.take_length]
    exact haccepted
  | elapse | queueChange | timerFires | rejectNewEvents | drainPendingBatch | stop => trivial

/-- Callbacks that have begun before keep what they have while no timer is armed. -/
theorem callbacks_kept {debounce : Nat} {s s' : DebounceRun} (h : Disciplined debounce s)
    (harmed : ∀ i ∈ s'.timer.armed, i ∈ s.timer.armed) (hcallbacks : ∀ callback ∈ s'.callbacks, callback ∈ s.callbacks)
    (haccepted : s'.acceptedAt = s.acceptedAt) (hclock : s.clock ≤ s'.clock) :
    ∀ callback ∈ s'.callbacks, callback.seen = callback.timer + 1 ∧ callback.timer ∉ s'.timer.armed ∧
      ∀ accepted ∈ s'.acceptedAt.take callback.seen, accepted + debounce ≤ s'.clock := by
  intro callback hmem
  obtain ⟨hseen, hfired, hquiet⟩ := h.callbacks callback (hcallbacks callback hmem)
  refine ⟨hseen, fun hi => hfired (harmed _ hi), fun accepted htaken => ?_⟩
  rw [haccepted] at htaken
  exact Nat.le_trans (hquiet accepted htaken) hclock

/-- A step that leaves `_timer` and the armed timers alone. -/
theorem Disciplined.frame {debounce : Nat} {s s' : DebounceRun} (h : Disciplined debounce s)
    (harmed : s'.timer.armed = s.timer.armed) (hcurrent : s'.timer.current = s.timer.current)
    (hnext : s'.timer.next = s.timer.next) (hcallbacks : ∀ callback ∈ s'.callbacks, callback ∈ s.callbacks)
    (haccepted : s'.acceptedAt = s.acceptedAt) (hclock : s.clock ≤ s'.clock) : Disciplined debounce s' where
  single := by
    rw [Timers.Single, harmed, hcurrent]
    exact h.single
  latest i hi := hnext.trans (h.latest i (hcurrent.symm.trans hi))
  callbacks := callbacks_kept h (fun _ hi => harmed ▸ hi) hcallbacks haccepted hclock

/-- A step after which no timer is armed, and `_timer` is `None`. -/
theorem Disciplined.cleared {debounce : Nat} {s s' : DebounceRun} (h : Disciplined debounce s)
    (harmed : s'.timer.armed = []) (hcurrent : s'.timer.current = none)
    (hcallbacks : ∀ callback ∈ s'.callbacks, callback ∈ s.callbacks) (haccepted : s'.acceptedAt = s.acceptedAt)
    (hclock : s.clock ≤ s'.clock) : Disciplined debounce s' where
  single := by
    rw [Timers.Single, harmed]
    exact ⟨Nat.zero_le _, fun _ hi => (nomatch hi)⟩
  latest i hi := by
    rw [hcurrent] at hi
    cases hi
  callbacks := callbacks_kept h (fun _ hi => by simp [harmed] at hi) hcallbacks haccepted hclock

private theorem disciplined_queueChange {debounce : Nat} {s : DebounceRun} (hs : Stamped s) (h : Disciplined debounce s)
    (c : FileChange) : Disciplined debounce (s.queueChange c) := by
  by_cases hrejecting : s.run.watcher.rejectingEvents = true
  · rwa [queueChange_ignored hrejecting]
  · obtain ⟨-, htimer⟩ := queueChange_run (by simpa using hrejecting) c
    have harm : s.timer.arm.armed = [s.timer.next] := by
      simp [Timers.arm, h.single.cancel]
    rw [DebounceRun.queueChange, if_neg hrejecting]
    constructor
    · have hsingle : s.timer.arm.Single := by
        rw [Timers.Single, harm]
        exact ⟨Nat.le_refl 1, fun i hi => congrArg some (List.mem_singleton.mp hi).symm⟩
      exact (congrArg Timers.Single htimer).mpr hsingle
    · intro i hi
      have hcurrent : s.timer.arm.current = some i := htimer ▸ hi
      have hnext : s.timer.arm.next = i + 1 := congrArg (· + 1) (Option.some.inj hcurrent)
      exact (congrArg Timers.next htimer).trans hnext
    · intro callback hcallback
      obtain ⟨hseen, -, hquiet⟩ := h.callbacks callback hcallback
      obtain ⟨hbefore, hle⟩ := hs.seen callback hcallback
      refine ⟨hseen, fun hi => ?_, fun accepted htaken => hquiet accepted ?_⟩
      · have hnew : callback.timer ∈ s.timer.arm.armed := htimer ▸ hi
        rw [harm, List.mem_singleton] at hnew
        omega
      · rwa [List.take_append_of_le_length (hs.numbered ▸ hle)] at htaken

theorem disciplined_step {debounce : Nat} {e : DebounceEvent} {s s' : DebounceRun} (hs : Stamped s)
    (h : Disciplined debounce s) (hok : NotOvertaken e s) (hstep : DebounceRun.step debounce e s = some s') :
    Disciplined debounce s' := by
  cases e with
  | elapse duration =>
    cases hstep
    exact h.frame rfl rfl rfl (fun cb hcb => hcb) rfl (Nat.le_add_right _ _)
  | queueChange c =>
    cases hstep
    exact disciplined_queueChange hs h c
  | timerFires i =>
    simp only [DebounceRun.step] at hstep
    split_ifs at hstep with hfires
    obtain ⟨harmed, hdue⟩ := hfires
    cases hstep
    have hnext := h.latest i (h.single.2 i harmed)
    constructor
    · refine ⟨Nat.le_trans (List.length_filter_le _ _) h.single.1, fun j hj => h.single.2 j (List.mem_of_mem_filter hj)⟩
    · exact h.latest
    · intro callback hcallback
      rcases List.mem_cons.mp hcallback with rfl | hold
      · refine ⟨hnext, fun hi => by simpa using (List.mem_filter.mp hi).2, fun accepted htaken => ?_⟩
        -- the timer that ran out is the latest, so the latest change is old enough
        obtain ⟨startedAt, hstarted, hlast⟩ := accepted_le hs hnext
        have hold := hlast accepted (List.mem_of_mem_take htaken)
        have hlate := hdue startedAt hstarted
        exact Nat.le_trans (Nat.add_le_add_right hold debounce) hlate
      · obtain ⟨hseen, hfired, hquiet⟩ := h.callbacks callback hold
        exact ⟨hseen, fun hi => hfired (List.mem_of_mem_filter hi), hquiet⟩
  | flush callback =>
    simp only [DebounceRun.step] at hstep
    split_ifs at hstep with hcallback
    cases hstep
    obtain ⟨-, htimer⟩ := flush_watcher s.run.watcher
    have hrun : (s.run.take s.run.watcher.flush).watcher.timer = _ := (congrArg _ (watcher_take _ _)).trans htimer
    by_cases hpending : s.run.watcher.pending = []
    · rw [if_pos hpending] at hrun
      exact h.frame ((congrArg Timers.armed hrun).trans rfl) ((congrArg Timers.current hrun).trans rfl)
        ((congrArg Timers.next hrun).trans rfl)
        (fun cb hcb => List.mem_of_mem_erase hcb) rfl (Nat.le_refl _)
    · rw [if_neg hpending] at hrun
      -- a timer that is armed would be the latest, which is the one that has fired
      have hnone : s.timer.armed = [] := by
        obtain ⟨hseen, hfired, -⟩ := h.callbacks callback hcallback
        have hlatest := latest_of_notOvertaken hs hcallback hpending hok
        apply List.eq_nil_iff_forall_not_mem.mpr
        intro i hi
        have hnext := h.latest i (h.single.2 i hi)
        have hsame : i = callback.timer := by omega
        exact hfired (hsame ▸ hi)
      exact h.cleared ((congrArg Timers.armed hrun).trans hnone) (congrArg Timers.current hrun)
        (fun cb hcb => List.mem_of_mem_erase hcb) rfl (Nat.le_refl _)
  | drainPendingBatch =>
    cases hstep
    obtain ⟨-, htimer⟩ := drain_watcher s.run.watcher
    have hrun : (s.run.take s.run.watcher.drainPendingBatch).watcher.timer = s.timer.clear :=
      (congrArg _ (watcher_take _ _)).trans htimer
    exact h.cleared ((congrArg Timers.armed hrun).trans h.single.cancel) (congrArg Timers.current hrun)
      (fun cb hcb => hcb) rfl (Nat.le_refl _)
  | rejectNewEvents =>
    cases hstep
    exact h.frame rfl rfl rfl (fun cb hcb => hcb) rfl (Nat.le_refl _)
  | stop =>
    cases hstep
    exact h.cleared h.single.cancel rfl (fun cb hcb => hcb) rfl (Nat.le_refl _)

section Runs
variable {debounce : Nat} {measured : Bool} {threshold : Int} {clock : Nat} {events : List DebounceEvent}
  {s : DebounceRun}

/-- A run here is a run of the watcher, with its clock and its record left out. -/
theorem watcher_run (hrun : exec (DebounceRun.step debounce) events (.start measured threshold clock) = some s) :
    ∃ events', exec WatcherRun.step events' (.start measured threshold) = some s.run := by
  have hsimulated := exec_invariant_of_step
    (fun s : DebounceRun => Stamped s ∧ ∃ events', exec WatcherRun.step events' (.start measured threshold) = some s.run)
    (fun e s s' hs hstep => ?_) ⟨stamped_start measured threshold clock, [], rfl⟩ hrun
  · exact hsimulated.2
  · obtain ⟨hstamped, events', hbefore⟩ := hs
    refine ⟨stamped_step hstamped hstep, ?_⟩
    have hgo : ∀ e' r, WatcherRun.step e' s.run = some r →
        ∃ events', exec WatcherRun.step events' (.start measured threshold) = some r := fun e' r hr =>
      ⟨events' ++ [e'], exec_append_of hbefore (exec_cons_eq_some.mpr ⟨r, hr, rfl⟩)⟩
    cases e with
    | elapse duration =>
      cases hstep
      exact ⟨events', hbefore⟩
    | queueChange c =>
      cases hstep
      refine hgo (.queueChange c) _ ?_
      unfold DebounceRun.queueChange
      split_ifs <;> rfl
    | timerFires i =>
      simp only [DebounceRun.step] at hstep
      split_ifs at hstep with hfires
      cases hstep
      exact hgo (.timerFires i) _ (if_pos hfires.1)
    | flush callback =>
      simp only [DebounceRun.step] at hstep
      split_ifs at hstep with hcallback
      cases hstep
      have hbegun : s.run.watcher.timer.begun ≠ 0 := by
        have hcount : s.run.watcher.timer.begun = s.callbacks.length := hstamped.begun
        rw [hcount]
        exact Nat.ne_of_gt (List.length_pos_of_mem hcallback)
      exact hgo .flush _ (if_neg hbegun)
    | rejectNewEvents =>
      cases hstep
      exact hgo .rejectNewEvents _ rfl
    | drainPendingBatch =>
      cases hstep
      exact hgo .drainPendingBatch _ rfl
    | stop =>
      cases hstep
      exact hgo .stop _ rfl

/-- At most one timer is ever armed, it is the one in `_timer`, and each batch is emitted by a
timer of its own and after a whole quiet interval, exactly when no change that is accepted
behind a callback's back is still pending when the callback gets the lock. -/
theorem debounce_discipline_iff
    (hrun : exec (DebounceRun.step debounce) events (.start measured threshold clock) = some s) :
    (Along (DebounceRun.step debounce) (fun e t => t.timer.Single ∧ EmitsAfterQuiet debounce e t) events
        (.start measured threshold clock) ∧ s.timer.Single) ↔
      Along (DebounceRun.step debounce) NotOvertaken events (.start measured threshold clock) := by
  constructor
  · rintro ⟨halong, -⟩
    refine Along.of_invariant Stamped (fun e t t' _ ht hstep => stamped_step ht hstep) (fun e t t' hok ht hstep => ?_)
      (stamped_start measured threshold clock) halong hrun
    cases e with
    | flush callback =>
      simp only [DebounceRun.step] at hstep
      split_ifs at hstep with hcallback
      intro k hk
      have hpending : t.run.watcher.pending ≠ [] := fun hnone => by simp [ht.empty hnone] at hk
      have hown := (hok.2 hpending).1 k hk
      exact Nat.lt_of_le_of_lt hown (ht.seen callback hcallback).1
    | elapse | queueChange | timerFires | rejectNewEvents | drainPendingBatch | stop => trivial
  · intro halong
    have hstart : Stamped (.start measured threshold clock) ∧ Disciplined debounce (.start measured threshold clock) :=
      ⟨stamped_start measured threshold clock, disciplined_start debounce measured threshold clock⟩
    refine ⟨Along.of_invariant (fun t => Stamped t ∧ Disciplined debounce t)
      (fun e t t' hok ht hstep => ⟨stamped_step ht.1 hstep, disciplined_step ht.1 ht.2 hok hstep⟩)
      (fun e t t' hok ht hstep => ⟨ht.2.single, emitsAfterQuiet_of_notOvertaken ht.1 ht.2 hok hstep⟩) hstart halong hrun, ?_⟩
    exact (exec_invariant (fun t => Stamped t ∧ Disciplined debounce t)
      (fun e t t' hok ht hstep => ⟨stamped_step ht.1 hstep, disciplined_step ht.1 ht.2 hok hstep⟩) hstart halong hrun).2.single

end Runs

/-- A change that comes in time replaces the timer, and both are emitted by the second one. -/
def replacedInTime : List DebounceEvent :=
  [.queueChange (.created notePath), .elapse 200, .queueChange (.modified notePath), .elapse 300, .timerFires 1,
    .flush ⟨1, 2⟩]

theorem debounce_discipline_iff_replacedInTime :
    ∃ s, exec (DebounceRun.step 300) replacedInTime (.start true 200 0) = some s ∧
      s.run.taken = [[.created notePath, .modified notePath]] ∧
      ((Along (DebounceRun.step 300) (fun e t => t.timer.Single ∧ EmitsAfterQuiet 300 e t) replacedInTime
          (.start true 200 0) ∧ s.timer.Single) ↔
        Along (DebounceRun.step 300) NotOvertaken replacedInTime (.start true 200 0)) := by
  obtain ⟨s, hrun, htaken⟩ : ∃ s, exec (DebounceRun.step 300) replacedInTime (.start true 200 0) = some s ∧
      s.run.taken = [[.created notePath, .modified notePath]] := ⟨_, rfl, rfl⟩
  exact ⟨s, hrun, htaken, debounce_discipline_iff hrun⟩

/-- The timer of the first change has run out when the second change comes, which arms another. -/
def overtaken : List DebounceEvent :=
  [.queueChange (.created notePath), .elapse 300, .timerFires 0, .queueChange (.modified notePath), .flush ⟨0, 1⟩,
    .queueChange (.deleted notePath)]

/-- The first timer emits the second change at once; the second timer is left armed, and is not
the one that the next change cancels. -/
theorem overtaken_leaves_timer :
    ∃ s, exec (DebounceRun.step 300) overtaken (.start true 200 0) = some s ∧
      s.run.taken = [[.created notePath, .modified notePath]] ∧ s.acceptedAt = [0, 300, 300] ∧ s.clock = 300 ∧
      s.timer.armed = [1, 2] ∧ s.timer.current = some 2 ∧ ¬ s.timer.Single ∧
      ¬ Along (DebounceRun.step 300) (EmitsAfterQuiet 300) overtaken (.start true 200 0) := by
  exact ⟨_, rfl, rfl, rfl, rfl, rfl, rfl, by decide, by decide⟩

end GraphifyDaemon
