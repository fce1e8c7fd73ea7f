import GraphifyDaemon.Daemon.FreshSnapshots
import GraphifyDaemon.Library.Amortized

/-! How often the daemon clusters. A cycle that the change threshold starts uses up the changes
it waited for, and one that quiet starts uses up the time. -/
namespace GraphifyDaemon
open Library Library.Trace

variable {ν γ τ : Type}

/-- The stages of a cycle from its decision to its reset. -/
def WriterStage.inCycle : WriterStage ν γ τ → Bool
  | .capturing _ | .clustering _ _ | .writing _ | .saving _ | .resetting _ => true
  | .extracting _ | .syncing _ | .building _ | .publishing _ _ _ | .recording _ | .deciding _ | .cancellingIdle
  | .schedulingIdle | .persisting | .leaving => false

namespace SlowCadenceTracker

/-- `should_trigger` answers in its first branch. -/
def isFull (tracker : SlowCadenceTracker) : Bool := tracker.changeThreshold ≤ tracker.accumulatedChanges

private theorem shouldTrigger_of_isFull {tracker : SlowCadenceTracker} (h : tracker.isFull = true) (now : Nat) :
    tracker.shouldTrigger now = true := by
  have hfull : tracker.changeThreshold ≤ tracker.accumulatedChanges := by simpa [isFull] using h
  rw [shouldTrigger, if_pos hfull]

private theorem shouldTrigger_of_not_isFull {tracker : SlowCadenceTracker} (h : tracker.isFull = false) (now : Nat) :
    tracker.shouldTrigger now = true ↔ tracker.lastBatchAt + tracker.quietSeconds ≤ now := by
  have hroom : ¬ tracker.changeThreshold ≤ tracker.accumulatedChanges := by simpa [isFull] using h
  rw [shouldTrigger, if_neg hroom, decide_eq_true_iff]

end SlowCadenceTracker

namespace WriterState

def inCycle (s : WriterState ν γ τ) : Bool := (s.stage.map WriterStage.inCycle).getD false

/-- The thread with the lock goes on, and it is about to ask `should_trigger`. -/
def decides (e : StageEvent ν) (s : WriterState ν γ τ) : Bool :=
  match e, s.stage with
  | .work, some (.deciding _) => true
  | _, _ => false

/-- A cycle begins because of the changes that have accumulated. -/
def fullCycle (e : StageEvent ν) (s : WriterState ν γ τ) : Nat :=
  if s.decides e ∧ s.daemon.tracker.isFull then 1 else 0

/-- A cycle begins because it has been quiet. -/
def quietCycle (e : StageEvent ν) (s : WriterState ν γ τ) : Nat :=
  if s.decides e ∧ s.daemon.tracker.isFull = false ∧ s.daemon.tracker.shouldTrigger s.clock then 1 else 0

/-- A cycle begins. -/
def cycleBegins (e : StageEvent ν) (s : WriterState ν γ τ) : Nat :=
  if s.decides e ∧ s.daemon.tracker.shouldTrigger s.clock then 1 else 0

/-- The changes that `record_batch` counts. -/
def recordedChanges (e : StageEvent ν) (s : WriterState ν γ τ) : Nat :=
  match e, s.stage with
  | .work, some (.recording batch) => batch.length
  | _, _ => 0

/-- The time that passes. -/
def elapsed (e : StageEvent ν) (_ : WriterState ν γ τ) : Nat :=
  match e with
  | .tick elapsed => elapsed
  | _ => 0

private theorem cycleBegins_eq (e : StageEvent ν) (s : WriterState ν γ τ) : s.cycleBegins e =
    s.fullCycle e + s.quietCycle e := by
  unfold cycleBegins fullCycle quietCycle
  cases hfull : s.daemon.tracker.isFull with
  | true => simp [SlowCadenceTracker.shouldTrigger_of_isFull hfull]
  | false => simp

/-- The changes that no cycle has been begun for. -/
def unspentChanges (threshold : Nat) (s : WriterState ν γ τ) : Nat :=
  if s.inCycle ∧ s.daemon.tracker.isFull then s.daemon.tracker.accumulatedChanges - threshold
  else s.daemon.tracker.accumulatedChanges

/-- The time since the last batch or reset, less what a quiet cycle under way waited for. -/
def unspentTime (quietSeconds : Nat) (s : WriterState ν γ τ) : Nat :=
  if s.inCycle ∧ s.daemon.tracker.isFull = false then s.clock - s.daemon.tracker.lastBatchAt - quietSeconds
  else s.clock - s.daemon.tracker.lastBatchAt

/-- What the tracker was configured with. -/
def Configured (quietSeconds : Nat) (threshold : Int) (s : WriterState ν γ τ) : Prop :=
  s.daemon.tracker.quietSeconds = quietSeconds ∧ s.daemon.tracker.changeThreshold = threshold

/-- What a step can do that matters to the accounts: count a batch, begin a cycle, reset the
tracker, let time pass, or none of these. -/
inductive Accounts : StageEvent ν → WriterState ν γ τ → WriterState ν γ τ → Prop
  | record {s s' : WriterState ν γ τ} {batch : List (FileChange × Observation ν)}
      (hstage : s.stage = some (.recording batch)) (hcycle : s'.inCycle = false) (hclock : s'.clock = s.clock)
      (htracker : s'.daemon.tracker = s.daemon.tracker.recordBatch batch.length s.clock) : Accounts .work s s'
  | begin {s s' : WriterState ν γ τ} {origin : Option IdleTimer} (hstage : s.stage = some (.deciding origin))
      (htrigger : s.daemon.tracker.shouldTrigger s.clock = true) (hcycle : s'.inCycle = true)
      (hclock : s'.clock = s.clock) (htracker : s'.daemon.tracker = s.daemon.tracker) : Accounts .work s s'
  | reset {s s' : WriterState ν γ τ} {origin : Option IdleTimer} (hstage : s.stage = some (.resetting origin))
      (hcycle : s'.inCycle = false) (hclock : s'.clock = s.clock)
      (htracker : s'.daemon.tracker = s.daemon.tracker.reset s.clock) : Accounts .work s s'
  | tick {s : WriterState ν γ τ} (elapsed : Nat) : Accounts (.tick elapsed) s { s with clock := s.clock + elapsed }
  | keep {e : StageEvent ν} {s s' : WriterState ν γ τ} (hidle : s.cycleBegins e = 0) (hcounts : s.recordedChanges e = 0)
      (htime : s.elapsed e = 0) (hcycle : s'.inCycle = s.inCycle) (hclock : s'.clock = s.clock)
      (htracker : s'.daemon.tracker = s.daemon.tracker) : Accounts e s s'

section Accounts
variable [Zero ν] {G : Graphify ν γ τ} {nested : List String}

private theorem accounts_of_work {s s' : WriterState ν γ τ} (h : s.work G nested = some s') : Accounts .work s s' := by
  cases works_of_work h with
  | record hstage => exact .record hstage rfl rfl rfl
  | trigger hstage htrigger => exact .begin hstage htrigger rfl rfl rfl
  | @skip origin hstage htrigger =>
    refine .keep (by simp [cycleBegins, htrigger]) (by simp [recordedChanges, hstage]) rfl ?_ rfl rfl
    cases origin <;> simp [inCycle, goTo, afterNoCycle, hstage, WriterStage.inCycle]
  | @reset origin hstage =>
    refine .reset hstage ?_ rfl rfl
    cases origin <;> rfl
  | publish hstage hpublish =>
    obtain ⟨index, rfl⟩ := publish_eq_some hpublish
    exact .keep (by simp [cycleBegins, decides, hstage]) (by simp [recordedChanges, hstage]) rfl
      (by simp [inCycle, goTo, hstage, WriterStage.inCycle]) rfl rfl
  | cancelIdle hstage | scheduleIdle hstage =>
    exact .keep (by simp [cycleBegins, decides, hstage]) (by simp [recordedChanges, hstage]) rfl
      (by simp [inCycle, goTo, hstage, WriterStage.inCycle]) s.cancelIdle_clock rfl
  | extract hstage | sync hstage | build hstage | captureNothing hstage | capture hstage | write hstage | save hstage
  | persist hstage | leave hstage =>
    exact .keep (by simp [cycleBegins, decides, hstage]) (by simp [recordedChanges, hstage]) rfl
      (by simp [inCycle, goTo, hstage, WriterStage.inCycle]) rfl rfl

private theorem accounts_of_step {e : StageEvent ν} {s s' : WriterState ν γ τ} (h : step G nested e s = some s') :
    Accounts e s s' := by
  cases e <;> simp only [step] at h
  case work => exact accounts_of_work h
  case tick elapsed =>
    cases h
    exact .tick elapsed
  case clusteringEnds outcome =>
    obtain ⟨origin, captured, hstage, ⟨-, rfl⟩ | ⟨raw, mid, -, rfl, hmid⟩⟩ := clusteringEnds_cases h
    · exact .keep rfl rfl rfl (by simp [inCycle, goTo, hstage, WriterStage.inCycle]) rfl rfl
    · obtain ⟨index, rfl⟩ := publish_eq_some hmid
      exact .keep rfl rfl rfl (by simp [inCycle, goTo, hstage, WriterStage.inCycle]) rfl rfl
  case acquire k =>
    obtain ⟨job, hfree, -, rfl⟩ := acquire_eq_some h
    refine .keep rfl rfl rfl ?_ rfl rfl
    cases job <;> simp [inCycle, goTo, firstStage, hfree, WriterStage.inCycle]
  case clearTimers =>
    split_ifs at h
    cases h
    exact .keep rfl rfl rfl (by simp [inCycle]) s.cancelIdle_clock (by rw [cancelIdle_daemon])
  case batchTaken =>
    cases h
    exact .keep rfl rfl rfl rfl rfl rfl
  case idleFires | shutdown | persist =>
    split_ifs at h
    cases h
    exact .keep rfl rfl rfl rfl rfl rfl

end Accounts

private theorem configured_of_accounts {quietSeconds : Nat} {threshold : Int} {e : StageEvent ν}
    {s s' : WriterState ν γ τ}
    (hs : Configured quietSeconds threshold s) (h : Accounts e s s') : Configured quietSeconds threshold s' := by
  unfold Configured at hs ⊢
  cases h with
  | record _ _ _ htracker => rw [htracker]; exact hs
  | reset _ _ _ htracker => rw [htracker]; exact hs
  | begin _ _ _ _ htracker => rw [htracker]; exact hs
  | tick => exact hs
  | keep _ _ _ _ _ htracker => rw [htracker]; exact hs

private theorem fullCycle_le (e : StageEvent ν) (s : WriterState ν γ τ) : s.fullCycle e ≤ s.cycleBegins e := by
  rw [cycleBegins_eq]
  exact Nat.le_add_right _ _

private theorem quietCycle_le (e : StageEvent ν) (s : WriterState ν γ τ) : s.quietCycle e ≤ s.cycleBegins e := by
  rw [cycleBegins_eq]
  exact Nat.le_add_left _ _

/-- A cycle that the threshold begins takes as many changes as the threshold says. -/
theorem fullCycle_paid {threshold : Nat} {e : StageEvent ν} {s s' : WriterState ν γ τ}
    (hthreshold : s.daemon.tracker.changeThreshold = threshold) (h : Accounts e s s') :
    threshold * s.fullCycle e + s'.unspentChanges threshold ≤ s.recordedChanges e + s.unspentChanges threshold := by
  cases h with
  | @record s s' batch hstage hcycle hclock htracker =>
    have hidle : s.inCycle = false := by simp [inCycle, hstage, WriterStage.inCycle]
    have hnone : s.fullCycle .work = 0 := by simp [fullCycle, decides, hstage]
    have hcounts : s.recordedChanges .work = batch.length := by simp [recordedChanges, hstage]
    rw [hnone, hcounts]
    simp only [unspentChanges, hcycle, hidle, htracker, SlowCadenceTracker.recordBatch]
    simp [Nat.add_comm]
  | @begin s s' origin hstage htrigger hcycle hclock htracker =>
    have hidle : s.inCycle = false := by simp [inCycle, hstage, WriterStage.inCycle]
    have hcounts : s.recordedChanges .work = 0 := by simp [recordedChanges, hstage]
    rw [hcounts]
    simp only [unspentChanges, hcycle, hidle, htracker]
    cases hfull : s.daemon.tracker.isFull with
    | true =>
      have hone : s.fullCycle .work = 1 := by simp [fullCycle, decides, hstage, hfull]
      have hreached : threshold ≤ s.daemon.tracker.accumulatedChanges := by
        simpa [SlowCadenceTracker.isFull, hthreshold] using hfull
      simp only [hone, and_self, if_true, Bool.false_eq_true, false_and, if_false]
      omega
    | false =>
      have hnone : s.fullCycle .work = 0 := by simp [fullCycle, hfull]
      simp [hnone]
  | @reset s s' origin hstage hcycle hclock htracker =>
    have hnone : s.fullCycle .work = 0 := by simp [fullCycle, decides, hstage]
    rw [hnone]
    simp [unspentChanges, hcycle, htracker, SlowCadenceTracker.reset]
  | tick elapsed =>
    have hnone : s.fullCycle (.tick elapsed) = 0 := by simp [fullCycle, decides]
    rw [hnone, Nat.mul_zero, Nat.zero_add]
    exact Nat.le_add_left _ _
  | keep hidle hcounts htime hcycle hclock htracker =>
    have hnone : s.fullCycle e = 0 := Nat.le_zero.mp (hidle ▸ fullCycle_le e s)
    rw [hnone]
    simp [unspentChanges, hcycle, htracker]

/-- A cycle that quiet begins takes the time that was waited for. -/
theorem quietCycle_paid {quietSeconds : Nat} {e : StageEvent ν} {s s' : WriterState ν γ τ}
    (hquiet : s.daemon.tracker.quietSeconds = quietSeconds) (h : Accounts e s s') :
    quietSeconds * s.quietCycle e + s'.unspentTime quietSeconds ≤ s.elapsed e + s.unspentTime quietSeconds := by
  cases h with
  | @record s s' batch hstage hcycle hclock htracker =>
    have hnone : s.quietCycle .work = 0 := by simp [quietCycle, decides, hstage]
    rw [hnone]
    simp [unspentTime, hcycle, hclock, htracker, SlowCadenceTracker.recordBatch]
  | @begin s s' origin hstage htrigger hcycle hclock htracker =>
    have hidle : s.inCycle = false := by simp [inCycle, hstage, WriterStage.inCycle]
    simp only [unspentTime, hcycle, hidle, hclock, htracker, elapsed]
    cases hfull : s.daemon.tracker.isFull with
    | true =>
      have hnone : s.quietCycle .work = 0 := by simp [quietCycle, hfull]
      simp [hnone]
    | false =>
      have hone : s.quietCycle .work = 1 := by simp [quietCycle, decides, hstage, hfull, htrigger]
      have hwaited := (SlowCadenceTracker.shouldTrigger_of_not_isFull hfull s.clock).mp htrigger
      rw [hquiet] at hwaited
      simp only [hone, and_self, if_true, Bool.false_eq_true, false_and, if_false]
      omega
  | @reset s s' origin hstage hcycle hclock htracker =>
    have hnone : s.quietCycle .work = 0 := by simp [quietCycle, decides, hstage]
    rw [hnone]
    simp [unspentTime, hcycle, hclock, htracker, SlowCadenceTracker.reset]
  | tick elapsed =>
    have hnone : s.quietCycle (.tick elapsed) = 0 := by simp [quietCycle, decides]
    have hsame : ({ s with clock := s.clock + elapsed } : WriterState ν γ τ).inCycle = s.inCycle := rfl
    rw [hnone]
    simp only [unspentTime, hsame, WriterState.elapsed]
    split_ifs
    · omega
    · omega
  | keep hidle hcounts htime hcycle hclock htracker =>
    have hnone : s.quietCycle e = 0 := Nat.le_zero.mp (hidle ▸ quietCycle_le e s)
    rw [hnone]
    simp [unspentTime, hcycle, hclock, htracker]

/-- The clock tells the time that passed. -/
theorem total_elapsed [Zero ν] {G : Graphify ν γ τ} {nested : List String} {events : List (StageEvent ν)}
    {s s' : WriterState ν γ τ} (hrun : exec (step G nested) events s = some s') :
    total (step G nested) elapsed events s + s.clock = s'.clock := by
  induction events generalizing s with
  | nil =>
    cases hrun
    exact Nat.zero_add _
  | cons e events ih =>
    obtain ⟨mid, hstep, hrest⟩ := exec_cons_eq_some.mp hrun
    have hlater := ih hrest
    have hpassed : s.clock + s.elapsed e = mid.clock := by
      cases accounts_of_step hstep with
      | tick elapsed => rfl
      | record _ _ hclock | begin _ _ _ hclock | reset _ _ hclock => exact hclock.symm
      | keep _ _ htime _ hclock => rw [htime, hclock, Nat.add_zero]
    rw [total_cons hstep]
    omega

end WriterState

section Rate
variable [Zero ν] {G : Graphify ν γ τ} {nested : List String} {d : Daemon ν γ τ} {quietSeconds startedAt clock : Nat}
  {events : List (StageEvent ν)} {s : WriterState ν γ τ}

omit [Zero ν] in
private theorem configured_start {threshold : Int} (htracker : d.tracker = .initial quietSeconds threshold startedAt)
    (clock : Nat) : WriterState.Configured quietSeconds threshold (.start d clock) := by
  simp [WriterState.Configured, WriterState.start, htracker, SlowCadenceTracker.initial]

private theorem configured_step {threshold : Int} {e : StageEvent ν} {s s' : WriterState ν γ τ}
    (hs : WriterState.Configured quietSeconds threshold s) (hstep : WriterState.step G nested e s = some s') :
    WriterState.Configured quietSeconds threshold s' :=
  WriterState.configured_of_accounts hs (WriterState.accounts_of_step hstep)

private theorem fullCycles_le {threshold : Nat} (htracker : d.tracker = .initial quietSeconds threshold startedAt)
    (hrun : exec (WriterState.step G nested) events (.start d clock) = some s) :
    threshold * total (WriterState.step G nested) WriterState.fullCycle events (.start d clock) ≤
      total (WriterState.step G nested) WriterState.recordedChanges events (.start d clock) := by
  have hpaid : total (WriterState.step G nested) (fun e s => threshold * s.fullCycle e) events (.start d clock) +
      s.unspentChanges threshold ≤
        total (WriterState.step G nested) WriterState.recordedChanges events (.start d clock) +
          (WriterState.start d clock).unspentChanges threshold :=
    total_le_of_potential (WriterState.Configured quietSeconds threshold)
      (fun _ _ _ hs hstep => configured_step hs hstep) (WriterState.unspentChanges threshold)
      (fun _ _ _ hs hstep => WriterState.fullCycle_paid hs.2 (WriterState.accounts_of_step hstep))
      (configured_start htracker clock) hrun
  rw [total_mul] at hpaid
  have hnothing : (WriterState.start d clock).unspentChanges threshold = 0 := by
    simp [WriterState.unspentChanges, WriterState.inCycle, WriterState.start, htracker, SlowCadenceTracker.initial]
  omega

private theorem quietCycles_le {threshold : Int} (htracker : d.tracker = .initial quietSeconds threshold startedAt)
    (hclock : startedAt ≤ clock) (hrun : exec (WriterState.step G nested) events (.start d clock) = some s) :
    quietSeconds * total (WriterState.step G nested) WriterState.quietCycle events (.start d clock) ≤
      s.clock - startedAt := by
  have hpaid : total (WriterState.step G nested) (fun e s => quietSeconds * s.quietCycle e) events (.start d clock) +
      s.unspentTime quietSeconds ≤
        total (WriterState.step G nested) WriterState.elapsed events (.start d clock) +
          (WriterState.start d clock).unspentTime quietSeconds :=
    total_le_of_potential (WriterState.Configured quietSeconds threshold)
      (fun _ _ _ hs hstep => configured_step hs hstep) (WriterState.unspentTime quietSeconds)
      (fun _ _ _ hs hstep => WriterState.quietCycle_paid hs.1 (WriterState.accounts_of_step hstep))
      (configured_start htracker clock) hrun
  rw [total_mul] at hpaid
  have hpassed : total (WriterState.step G nested) WriterState.elapsed events (.start d clock) + clock = s.clock :=
    WriterState.total_elapsed hrun
  have hwaited : (WriterState.start d clock).unspentTime quietSeconds = clock - startedAt := by
    simp [WriterState.unspentTime, WriterState.inCycle, WriterState.start, htracker, SlowCadenceTracker.initial]
  omega

/-- Clustering is rate-limited, however batches, idle callbacks and cycles interleave: there are
no more cycles than thresholds fit into the changes that were recorded, and quiet intervals into
the time since start-up. -/
theorem cadence_rate_limited {threshold : Nat} (htracker : d.tracker = .initial quietSeconds threshold startedAt)
    (hclock : startedAt ≤ clock) (hthreshold : 0 < threshold) (hquiet : 0 < quietSeconds)
    (hrun : exec (WriterState.step G nested) events (.start d clock) = some s) :
    total (WriterState.step G nested) WriterState.cycleBegins events (.start d clock) ≤
      total (WriterState.step G nested) WriterState.recordedChanges events (.start d clock) / threshold +
        (s.clock - startedAt) / quietSeconds := by
  rw [total_add WriterState.cycleBegins_eq hrun]
  apply Nat.add_le_add
  · apply (Nat.le_div_iff_mul_le hthreshold).mpr
    rw [Nat.mul_comm]
    exact fullCycles_le htracker hrun
  · apply (Nat.le_div_iff_mul_le hquiet).mpr
    rw [Nat.mul_comm]
    exact quietCycles_le htracker hclock hrun

end Rate

/-- One note, and the minute of quiet that lets its cycle begin: the bound is met. -/
theorem cadence_rate_limited_compiledThenIdle :
    ∃ s : WriterState Nat ReferenceGraph Unit,
      exec (WriterState.step referenceGraphify []) compiledThenIdle (.start (.initial 0) 0) = some s ∧ s.clock = 60 ∧
        total (WriterState.step referenceGraphify []) WriterState.cycleBegins compiledThenIdle (.start (.initial 0) 0) = 1 ∧
        total (WriterState.step referenceGraphify []) WriterState.cycleBegins compiledThenIdle (.start (.initial 0) 0) ≤
          total (WriterState.step referenceGraphify []) WriterState.recordedChanges compiledThenIdle
            (.start (.initial 0) 0) / 25 + (s.clock - 0) / 60 :=
  have hrun : exec (WriterState.step referenceGraphify []) compiledThenIdle (.start (.initial 0) 0) = some _ := rfl
  ⟨_, hrun, rfl, rfl, cadence_rate_limited rfl (Nat.le_refl 0) (by decide) (by decide) hrun⟩

end GraphifyDaemon
