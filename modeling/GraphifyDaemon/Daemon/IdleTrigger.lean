import Mathlib.Data.List.Perm.Basic
import GraphifyDaemon.Daemon.FreshSnapshots

/-! The idle trigger. A batch that does not trigger the slow cadence leaves it to a timer,
which other threads may replace, or whose callback they may keep waiting. -/
namespace GraphifyDaemon
open Library Library.Trace

variable {ν γ τ : Type}

namespace WriterState

/-- The timer counts down, or it has fired and its callback waits for the lock. -/
def Scheduled (s : WriterState ν γ τ) (timer : IdleTimer) : Prop :=
  timer ∈ s.armed ∨ .idle timer ∈ s.waiting

/-- The time at which the quiet since the last batch is long enough. -/
def quietAt (s : WriterState ν γ τ) : Nat := s.daemon.tracker.lastBatchAt + s.daemon.tracker.quietSeconds

/-- Some scheduled timer will find that it was quiet for long enough. -/
def Covered (s : WriterState ν γ τ) : Prop := ∃ timer, s.quietAt ≤ timer.deadline ∧ s.Scheduled timer

def Unclustered (s : WriterState ν γ τ) : Prop := 0 < s.daemon.tracker.accumulatedChanges

end WriterState

open WriterState

/-- What accumulated changes can count on. While a batch is on its way to `schedule_idle`
that is nothing; an idle callback may itself be the one they wait for. -/
def StageCovered (s : WriterState ν γ τ) : Option (WriterStage ν γ τ) → Prop
  | none | some .leaving | some .persisting => s.Unclustered → s.Covered
  | some (.deciding (some _)) => s.Unclustered → s.Covered ∨ s.quietAt ≤ s.clock
  | some .cancellingIdle => ¬ s.Unclustered
  | some (.extracting _) | some (.syncing _) | some (.building _) | some (.publishing _ _ _) | some (.recording _)
  | some (.deciding none) | some (.capturing _) | some (.clustering _ _) | some (.writing _) | some (.saving _)
  | some (.resetting _) | some .schedulingIdle => True

/-- What a stage can count on stays so while less is counted, what was scheduled stays
scheduled, and time only goes on. -/
theorem StageCovered.mono {s s' : WriterState ν γ τ} {stage : Option (WriterStage ν γ τ)} (h : StageCovered s stage)
    (hcounted : s'.Unclustered → s.Unclustered) (hcovered : s.Covered → s'.Covered)
    (hquiet : s.quietAt ≤ s.clock → s'.quietAt ≤ s'.clock) : StageCovered s' stage := by
  cases stage with
  | none => exact fun hsome => hcovered (h (hcounted hsome))
  | some stage =>
    cases stage with
    | leaving => exact fun hsome => hcovered (h (hcounted hsome))
    | persisting => exact fun hsome => hcovered (h (hcounted hsome))
    | cancellingIdle => exact fun hsome => h (hcounted hsome)
    | deciding origin => cases origin with
      | none => trivial
      | some timer => exact fun hsome => (h (hcounted hsome)).imp hcovered hquiet
    | extracting | syncing | building | publishing | recording | capturing | clustering | writing | saving
    | resetting | schedulingIdle => trivial

/-- Time stamps, deadlines and waiting callbacks together. -/
structure IdleInvariant (s : WriterState ν γ τ) : Prop where
  past : s.daemon.tracker.lastBatchAt ≤ s.clock
  fired : ∀ timer, .idle timer ∈ s.waiting → timer.deadline ≤ s.clock
  begun : ∀ timer, s.stage = some (.deciding (some timer)) → timer.deadline ≤ s.clock
  covered : s.running = true → StageCovered s s.stage

private theorem idleInvariant_start {d : Daemon ν γ τ} {quietSeconds startedAt clock : Nat} {changeThreshold : Int}
    (htracker : d.tracker = .initial quietSeconds changeThreshold startedAt) (hclock : startedAt ≤ clock) :
    IdleInvariant (.start d clock) where
  past := by simpa [WriterState.start, htracker, SlowCadenceTracker.initial] using hclock
  fired := by simp [WriterState.start]
  begun := by simp [WriterState.start]
  covered _ h := by simp [WriterState.start, WriterState.Unclustered, htracker, SlowCadenceTracker.initial] at h

/-- Of two jobs that wait, the one that is not taken still waits. -/
theorem mem_eraseIdx_or {α : Type} {l : List α} {k : Nat} {x y : α} (hx : x ∈ l) (hk : l[k]? = some y) :
    x = y ∨ x ∈ l.eraseIdx k := by
  obtain ⟨hlt, rfl⟩ := List.getElem?_eq_some_iff.mp hk
  have hperm := (List.getElem_cons_eraseIdx_perm hlt).mem_iff.mpr hx
  simpa using hperm

/-- A step that leaves the tracker and the stage alone, and takes no timer away. -/
theorem IdleInvariant.frame {s s' : WriterState ν γ τ} (h : IdleInvariant s)
    (htracker : s'.daemon.tracker = s.daemon.tracker) (hstage : s'.stage = s.stage) (hclock : s.clock ≤ s'.clock)
    (hrunning : s'.running = true → s.running = true)
    (hfired : ∀ timer, .idle timer ∈ s'.waiting → .idle timer ∈ s.waiting ∨ timer.deadline ≤ s'.clock)
    (hkept : s'.running = true → ∀ timer, s.Scheduled timer → s'.Scheduled timer) : IdleInvariant s' where
  past := by
    rw [htracker]
    exact h.past.trans hclock
  fired timer hmem := (hfired timer hmem).elim (fun hold => (h.fired timer hold).trans hclock) id
  begun timer hdeciding := (h.begun timer (hstage ▸ hdeciding)).trans hclock
  covered hrun := by
    rw [hstage]
    refine (h.covered (hrunning hrun)).mono ?_ ?_ ?_
    · unfold Unclustered
      rw [htracker]
      exact id
    · rintro ⟨timer, hdue, hscheduled⟩
      refine ⟨timer, ?_, hkept hrun timer hscheduled⟩
      unfold quietAt at hdue ⊢
      rw [htracker]
      exact hdue
    · unfold quietAt
      rw [htracker]
      exact fun hdue => hdue.trans hclock

/-- The thread with the lock goes on to another stage. -/
theorem IdleInvariant.goTo {s s' : WriterState ν γ τ} (h : IdleInvariant s)
    (htracker : s'.daemon.tracker = s.daemon.tracker)
    (hclock : s'.clock = s.clock) (hwaiting : s'.waiting = s.waiting) {stage : WriterStage ν γ τ}
    (hstage : s'.stage = some stage) (hbegun : ∀ timer, stage ≠ .deciding (some timer))
    (hcovered : s'.running = true → StageCovered s' (some stage)) : IdleInvariant s' where
  past := by
    rw [htracker, hclock]
    exact h.past
  fired timer hmem := by
    rw [hclock]
    exact h.fired timer (hwaiting ▸ hmem)
  begun timer hdeciding := by
    rw [hstage] at hdeciding
    exact absurd (Option.some.inj hdeciding) (hbegun timer)
  covered hrun := by
    rw [hstage]
    exact hcovered hrun

private theorem not_triggered {tracker : SlowCadenceTracker} {now : Nat} (h : tracker.shouldTrigger now = false) :
    now < tracker.lastBatchAt + tracker.quietSeconds := by
  unfold SlowCadenceTracker.shouldTrigger at h
  split_ifs at h
  simpa using h

private theorem triggered_of_quiet {tracker : SlowCadenceTracker} {now : Nat}
    (h : tracker.lastBatchAt + tracker.quietSeconds ≤ now) : tracker.shouldTrigger now = true := by
  unfold SlowCadenceTracker.shouldTrigger
  split_ifs
  · rfl
  · simpa using h

private theorem idleInvariant_work [Zero ν] {G : Graphify ν γ τ} {nested : List String} {s s' : WriterState ν γ τ}
    (h : IdleInvariant s) (hwork : s.work G nested = some s') : IdleInvariant s' := by
  have hcovered := h.covered
  cases works_of_work hwork with
  | extract | sync | build | trigger | captureNothing | capture | write | save =>
    exact h.goTo rfl rfl rfl rfl (by simp) (fun _ => trivial)
  | publish _ hpublish =>
    obtain ⟨index, rfl⟩ := publish_eq_some hpublish
    exact h.goTo rfl rfl rfl rfl (by simp) (fun _ => trivial)
  | record => exact ⟨Nat.le_refl _, h.fired, by simp [goTo], fun _ => trivial⟩
  | @skip origin hstage htrigger =>
    rw [hstage] at hcovered
    cases origin with
    | none => exact h.goTo rfl rfl rfl rfl (by simp [afterNoCycle]) (fun _ => trivial)
    | some timer =>
      refine h.goTo rfl rfl rfl rfl (by simp [afterNoCycle]) (fun hrun hsome => ?_)
      -- this callback was not the one the changes count on: it was not quiet for long enough
      refine (hcovered hrun hsome).resolve_right (fun hquiet => ?_)
      exact absurd (not_triggered htrigger) (Nat.not_lt.mpr hquiet)
  | @reset origin hstage =>
    have hreset : ∀ t : WriterState ν γ τ, t.daemon.tracker = s.daemon.tracker.reset s.clock → ¬ t.Unclustered := by
      intro t ht
      simp [Unclustered, ht, SlowCadenceTracker.reset]
    cases origin with
    | none => exact ⟨Nat.le_refl _, h.fired, by simp [goTo, afterCycle], fun _ => hreset _ rfl⟩
    | some timer =>
      exact ⟨Nat.le_refl _, h.fired, by simp [goTo, afterCycle], fun _ hsome => absurd hsome (hreset _ rfl)⟩
  | cancelIdle hstage =>
    rw [hstage] at hcovered
    refine h.goTo rfl (cancelIdle_clock s) (cancelIdle_waiting s) rfl (by simp) (fun hrun hsome => ?_)
    exact absurd hsome (hcovered (cancelIdle_running s ▸ hrun))
  | scheduleIdle =>
    refine h.goTo rfl (cancelIdle_clock s) (cancelIdle_waiting s) rfl (by simp) (fun _ _ => ?_)
    -- the new timer runs from now on, and the batch was recorded before
    refine ⟨⟨s.nextIdle, s.clock + s.daemon.tracker.quietSeconds⟩, ?_, ?_⟩
    · exact Nat.add_le_add_right h.past _
    · exact .inl (List.mem_append_right _ (List.mem_singleton.mpr rfl))
  | persist hstage =>
    rw [hstage] at hcovered
    exact h.goTo rfl rfl rfl rfl (by simp) hcovered
  | leave hstage =>
    rw [hstage] at hcovered
    exact ⟨h.past, h.fired, by simp, hcovered⟩

private theorem idleInvariant_acquire {k : Nat} {s s' : WriterState ν γ τ} (h : IdleInvariant s)
    (hacquire : s.acquire k = some s') : IdleInvariant s' := by
  have hcovered := h.covered
  obtain ⟨job, hfree, hjob, rfl⟩ := acquire_eq_some hacquire
  rw [hfree] at hcovered
  have hfired : ∀ timer, .idle timer ∈ s.waiting.eraseIdx k → timer.deadline ≤ s.clock :=
    fun timer hmem => h.fired timer (List.mem_of_mem_eraseIdx hmem)
  cases job with
  | batch changes => exact ⟨h.past, hfired, by simp [goTo, firstStage], fun _ => trivial⟩
  | persist =>
    refine ⟨h.past, hfired, by simp [goTo, firstStage], fun hrun hsome => ?_⟩
    obtain ⟨timer, hdue, harmed | hwaiting⟩ := hcovered hrun hsome
    · exact ⟨timer, hdue, .inl harmed⟩
    · obtain hsame | hstays := mem_eraseIdx_or hwaiting hjob
      · cases hsame
      · exact ⟨timer, hdue, .inr hstays⟩
  | idle timer =>
    have hbegun := h.fired timer (List.mem_of_getElem? hjob)
    refine ⟨h.past, hfired, ?_, fun hrun hsome => ?_⟩
    · intro other hother
      cases hother
      exact hbegun
    · obtain ⟨covering, hdue, harmed | hwaiting⟩ := hcovered hrun hsome
      · exact .inl ⟨covering, hdue, .inl harmed⟩
      · obtain hsame | hstays := mem_eraseIdx_or hwaiting hjob
        · cases hsame
          exact .inr (hdue.trans hbegun)
        · exact .inl ⟨covering, hdue, .inr hstays⟩

private theorem idleInvariant_step [Zero ν] {G : Graphify ν γ τ} {nested : List String} {e : StageEvent ν}
    {s s' : WriterState ν γ τ} (h : IdleInvariant s) (hstep : WriterState.step G nested e s = some s') :
    IdleInvariant s' := by
  cases e <;> simp only [WriterState.step] at hstep
  case tick elapsed =>
    cases hstep
    exact h.frame rfl rfl (Nat.le_add_right _ _) id (fun _ hmem => .inl hmem) (fun _ _ hscheduled => hscheduled)
  case batchTaken changes =>
    cases hstep
    refine h.frame rfl rfl (Nat.le_refl _) id (fun timer hmem => ?_) (fun _ timer hscheduled => ?_)
    · exact .inl (by simpa using hmem)
    · exact hscheduled.imp id (List.mem_append_left _)
  case idleFires timer =>
    split_ifs at hstep with hdue
    cases hstep
    refine h.frame rfl rfl (Nat.le_refl _) id (fun other hmem => ?_) (fun _ other hscheduled => ?_)
    · rcases List.mem_append.mp hmem with hold | hnew
      · exact .inl hold
      · cases List.mem_singleton.mp hnew
        exact .inr hdue.2
    · by_cases hsame : other = timer
      · exact .inr (List.mem_append_right _ (by simp [hsame]))
      · exact hscheduled.imp (fun harmed => List.mem_filter.mpr ⟨harmed, by simpa using hsame⟩)
          (List.mem_append_left _)
  case acquire k => exact idleInvariant_acquire h hstep
  case work => exact idleInvariant_work h hstep
  case clusteringEnds outcome =>
    obtain ⟨origin, captured, -, ⟨-, rfl⟩ | ⟨raw, mid, -, rfl, hmid⟩⟩ := clusteringEnds_cases hstep
    · exact h.goTo rfl rfl rfl rfl (by simp) (fun _ => trivial)
    · obtain ⟨index, rfl⟩ := publish_eq_some hmid
      exact h.goTo rfl rfl rfl rfl (by simp) (fun _ => trivial)
  case shutdown =>
    split_ifs at hstep
    cases hstep
    exact ⟨h.past, h.fired, h.begun, by simp⟩
  case clearTimers =>
    split_ifs at hstep with hrunning
    cases hstep
    refine h.frame (by rw [cancelIdle_daemon]) s.cancelIdle_stage s.cancelIdle_clock.ge (fun hrun => ?_)
      (fun timer hmem => .inl (s.cancelIdle_waiting ▸ hmem)) (fun hrun => ?_)
    · exact s.cancelIdle_running ▸ hrun
    · exact absurd (s.cancelIdle_running ▸ hrun) hrunning
  case persist =>
    split_ifs at hstep with hrunning
    cases hstep
    exact h.frame rfl rfl (Nat.le_refl _) id (fun timer hmem => .inl (by simpa using hmem))
      (fun _ _ hscheduled => hscheduled.imp id (List.mem_append_left _))

/-- While nobody takes the free lock, nothing happens to the tracker. -/
theorem free_step [Zero ν] {G : Graphify ν γ τ} {nested : List String} {e : StageEvent ν} {s s' : WriterState ν γ τ}
    (hfree : s.stage = none) (he : e.acquires = false) (hstep : WriterState.step G nested e s = some s') :
    s'.stage = none ∧ s'.daemon.tracker = s.daemon.tracker := by
  cases e <;> simp only [WriterState.step] at hstep
  case acquire k => cases he
  case work => simp [WriterState.work, hfree] at hstep
  case clusteringEnds outcome => simp [WriterState.clusteringEnds, hfree] at hstep
  case tick | batchTaken =>
    cases hstep
    exact ⟨hfree, rfl⟩
  case clearTimers =>
    split_ifs at hstep
    cases hstep
    exact ⟨by rw [cancelIdle_stage, hfree], by rw [cancelIdle_daemon]⟩
  case idleFires | shutdown | persist =>
    split_ifs at hstep
    cases hstep
    exact ⟨hfree, rfl⟩

/-- An idle callback comes to its check of the tracker only by taking the lock, and until then it
changes nothing. -/
theorem deciding_step [Zero ν] {G : Graphify ν γ τ} {nested : List String} {e : StageEvent ν} {s s' : WriterState ν γ τ}
    {timer : IdleTimer} (he : e.acquires = false) (hstep : WriterState.step G nested e s = some s')
    (hdeciding : s'.stage = some (.deciding (some timer))) :
    s.stage = some (.deciding (some timer)) ∧ s'.daemon.tracker = s.daemon.tracker := by
  cases e <;> simp only [WriterState.step] at hstep
  case acquire k => cases he
  case work =>
    cases works_of_work hstep with
    | @skip origin => cases origin <;> simp [goTo, afterNoCycle] at hdeciding
    | @reset origin => cases origin <;> simp [goTo, afterCycle] at hdeciding
    | _ => simp [goTo] at hdeciding
  case clusteringEnds outcome =>
    obtain ⟨origin, captured, -, ⟨-, rfl⟩ | ⟨raw, mid, -, rfl, -⟩⟩ := clusteringEnds_cases hstep
    · simp [goTo] at hdeciding
    · simp [goTo] at hdeciding
  case tick | batchTaken =>
    cases hstep
    exact ⟨hdeciding, rfl⟩
  case clearTimers =>
    split_ifs at hstep
    cases hstep
    exact ⟨by rw [← cancelIdle_stage, hdeciding], by rw [cancelIdle_daemon]⟩
  case idleFires | shutdown | persist =>
    split_ifs at hstep
    cases hstep
    exact ⟨hdeciding, rfl⟩

private theorem free_run [Zero ν] {G : Graphify ν γ τ} {nested : List String} {events : List (StageEvent ν)}
    {s s' : WriterState ν γ τ} (hfree : s.stage = none) (hevents : ∀ e ∈ events, e.acquires = false)
    (hrun : exec (WriterState.step G nested) events s = some s') :
    s'.stage = none ∧ s'.daemon.tracker = s.daemon.tracker := by
  induction events generalizing s with
  | nil =>
    cases hrun
    exact ⟨hfree, rfl⟩
  | cons e events ih =>
    obtain ⟨mid, hstep, hrest⟩ := exec_cons_eq_some.mp hrun
    obtain ⟨hmid, htracker⟩ := free_step hfree (hevents e (by simp)) hstep
    obtain ⟨hlast, hkept⟩ := ih hmid (fun e' he' => hevents e' (by simp [he'])) hrest
    exact ⟨hlast, hkept.trans htracker⟩

private theorem deciding_run [Zero ν] {G : Graphify ν γ τ} {nested : List String} {events : List (StageEvent ν)}
    {s s' : WriterState ν γ τ} {timer : IdleTimer} (hevents : ∀ e ∈ events, e.acquires = false)
    (hrun : exec (WriterState.step G nested) events s = some s')
    (hdeciding : s'.stage = some (.deciding (some timer))) :
    s.stage = some (.deciding (some timer)) ∧ s'.daemon.tracker = s.daemon.tracker := by
  induction events generalizing s with
  | nil =>
    cases hrun
    exact ⟨hdeciding, rfl⟩
  | cons e events ih =>
    obtain ⟨mid, hstep, hrest⟩ := exec_cons_eq_some.mp hrun
    obtain ⟨hmid, hkept⟩ := ih (fun e' he' => hevents e' (by simp [he'])) hrest
    obtain ⟨hfirst, htracker⟩ := deciding_step (hevents e (by simp)) hstep hmid
    exact ⟨hfirst, hkept.trans htracker⟩

private theorem acquire_tracker {k : Nat} {s s' : WriterState ν γ τ} (h : s.acquire k = some s') :
    s'.daemon.tracker = s.daemon.tracker := by
  obtain ⟨job, -, -, rfl⟩ := acquire_eq_some h
  rfl

/-- While the daemon runs and the lock is free, changes that no cycle has taken up have a
timer. Its callback, once it has the lock, and nobody else had it meanwhile, finds that the
cycle is due and runs it. -/
theorem idle_trigger_not_lost [Zero ν] {G : Graphify ν γ τ} {nested : List String} {d : Daemon ν γ τ}
    {quietSeconds startedAt clock : Nat} {changeThreshold : Int}
    (htracker : d.tracker = .initial quietSeconds changeThreshold startedAt) (hclock : startedAt ≤ clock)
    {events : List (StageEvent ν)} {s : WriterState ν γ τ}
    (hrun : exec (WriterState.step G nested) events (.start d clock) = some s) (hrunning : s.running = true)
    (hfree : s.stage = none) (hcounted : 0 < s.daemon.tracker.accumulatedChanges) :
    ∃ timer, (timer ∈ s.armed ∨ .idle timer ∈ s.waiting) ∧
      ∀ before k after s', (∀ e ∈ before ++ after, e.acquires = false) →
        exec (WriterState.step G nested) (before ++ .acquire k :: after) s = some s' →
        s'.stage = some (.deciding (some timer)) →
        s'.daemon.tracker.shouldTrigger s'.clock = true ∧
          WriterState.step G nested .work s' = some (s'.goTo (.capturing (some timer))) := by
  have h : IdleInvariant s :=
    exec_invariant_of_step IdleInvariant (fun _ _ _ hs hstep => idleInvariant_step hs hstep)
      (idleInvariant_start htracker hclock) hrun
  have hcovered := h.covered hrunning
  rw [hfree] at hcovered
  obtain ⟨timer, hdue, hscheduled⟩ := hcovered hcounted
  refine ⟨timer, hscheduled, fun before k after s' hothers hlater hdeciding => ?_⟩
  have hs' : IdleInvariant s' :=
    exec_invariant_of_step IdleInvariant (fun _ _ _ hs hstep => idleInvariant_step hs hstep) h hlater
  obtain ⟨waiting, hbefore, hrest⟩ : ∃ mid, exec (WriterState.step G nested) before s = some mid ∧
      exec (WriterState.step G nested) (.acquire k :: after) mid = some s' := by
    rw [exec_append, Option.bind_eq_some_iff] at hlater
    exact hlater
  obtain ⟨taken, hacquire, hafter⟩ := exec_cons_eq_some.mp hrest
  have hsame : s'.daemon.tracker = s.daemon.tracker := by
    calc s'.daemon.tracker = taken.daemon.tracker :=
          (deciding_run (fun e he => hothers e (List.mem_append_right _ he)) hafter hdeciding).2
      _ = waiting.daemon.tracker := acquire_tracker hacquire
      _ = s.daemon.tracker := (free_run hfree (fun e he => hothers e (List.mem_append_left _ he)) hbefore).2
  have htrigger : s'.daemon.tracker.shouldTrigger s'.clock = true := by
    refine triggered_of_quiet ?_
    rw [hsame]
    exact hdue.trans (hs'.begun timer hdeciding)
  exact ⟨htrigger, by simp [WriterState.step, WriterState.work, hdeciding, htrigger]⟩

/-- The timer of a first batch fires, but a second batch gets the lock before its callback. -/
def staleCallback : List (StageEvent Nat) :=
  [.batchTaken [(.created notePath, .calm (oneNode "a") 1)], .acquire 0, .work, .work, .work, .work, .work, .work,
    .work, .work, .tick 60, .idleFires ⟨0, 60⟩, .batchTaken [(.modified notePath, .calm (oneNode "b") 2)],
    .acquire 1, .work, .work, .work, .work, .work, .work, .work, .work]

theorem idle_trigger_not_lost_staleCallback :
    ∃ s : WriterState Nat ReferenceGraph Unit,
      exec (WriterState.step referenceGraphify []) staleCallback (.start (.initial 0) 0) = some s ∧
        ∃ timer, timer ∈ s.armed ∨ .idle timer ∈ s.waiting := by
  obtain ⟨s, hrun, hrunning, hfree, hcounted⟩ : ∃ s : WriterState Nat ReferenceGraph Unit,
      exec (WriterState.step referenceGraphify []) staleCallback (.start (.initial 0) 0) = some s ∧
        s.running = true ∧ s.stage = none ∧ 0 < s.daemon.tracker.accumulatedChanges :=
    ⟨_, rfl, rfl, rfl, Nat.zero_lt_succ 1⟩
  obtain ⟨timer, hscheduled, -⟩ := idle_trigger_not_lost rfl (Nat.le_refl 0) hrun hrunning hfree hcounted
  exact ⟨s, hrun, timer, hscheduled⟩

end GraphifyDaemon
