import GraphifyDaemon.Daemon.WriterLock
import GraphifyDaemon.Library.Stretches

/-! `VaultWatcher` as a whole: its queue, its two timers, its warning flag and the metrics
it keeps. Every method does its work under the watcher lock, so a step is one method. -/
namespace GraphifyDaemon
open Library Library.Trace Library.Stretches

/-- What the watcher keeps in `Metrics`: the gauge `queue_depth` and the counter
`queue_depth_warnings`. -/
structure QueueMetrics where
  queueDepth : Option Nat
  queueDepthWarnings : Nat
  deriving DecidableEq

def QueueMetrics.fresh : QueueMetrics := ⟨none, 0⟩

structure VaultWatcher where
  pending : List FileChange
  warnedThisEpisode : Bool
  timer : Timers
  idleTimer : Timers
  rejectingEvents : Bool
  metrics : Option QueueMetrics
  pendingWarnThreshold : Int
  deriving DecidableEq

namespace VaultWatcher

/-- `VaultWatcher.__init__` -/
def initial (metrics : Option QueueMetrics) (pendingWarnThreshold : Int) : VaultWatcher where
  pending := []
  warnedThisEpisode := false
  timer := .initial
  idleTimer := .initial
  rejectingEvents := false
  metrics := metrics
  pendingWarnThreshold := pendingWarnThreshold

def setGauge (depth : Nat) (w : VaultWatcher) : VaultWatcher :=
  { w with metrics := w.metrics.map fun m => { m with queueDepth := some depth } }

/-- The warning that the queue has grown past the threshold, once an episode. -/
def warnIfDeep (w : VaultWatcher) : VaultWatcher :=
  if w.pendingWarnThreshold ≤ w.pending.length ∧ w.warnedThisEpisode = false then
    { w with
      metrics := w.metrics.map fun m => { m with queueDepthWarnings := m.queueDepthWarnings + 1 }
      warnedThisEpisode := true }
  else w

def queueChange (c : FileChange) (w : VaultWatcher) : VaultWatcher :=
  if w.rejectingEvents then w
  else
    let w := warnIfDeep (setGauge (w.pending.length + 1) { w with pending := w.pending ++ [c] })
    { w with timer := w.timer.arm }

/-- What `_flush` and `drain_pending_batch` both do to a queue that is not empty. -/
def takePending (w : VaultWatcher) : VaultWatcher :=
  setGauge 0 { w with pending := [], warnedThisEpisode := false }

/-- `_flush`: the batch handed to `on_batch`, if any. -/
def flush (w : VaultWatcher) : Option (List FileChange) × VaultWatcher :=
  if w.pending = [] then (none, { w with timer := w.timer.goOn })
  else (some w.pending, { w.takePending with timer := { w.timer.goOn with current := none } })

def drainPendingBatch (w : VaultWatcher) : Option (List FileChange) × VaultWatcher :=
  let w := { w with timer := w.timer.clear, idleTimer := w.idleTimer.clear }
  if w.pending = [] then (none, w) else (some w.pending, w.takePending)

def rejectNewEvents (w : VaultWatcher) : VaultWatcher := { w with rejectingEvents := true }

/-- `stop`, up to stopping the observer. -/
def stop (w : VaultWatcher) : VaultWatcher :=
  { w with timer := w.timer.clear, idleTimer := w.idleTimer.clear }

def scheduleIdle (w : VaultWatcher) : VaultWatcher := { w with idleTimer := w.idleTimer.arm }

def cancelIdle (w : VaultWatcher) : VaultWatcher := { w with idleTimer := w.idleTimer.clear }

end VaultWatcher

/-- The watcher, the batches taken from it so far, and a record of what it accepted and
when its queue was taken. -/
structure WatcherRun where
  watcher : VaultWatcher
  taken : List (List FileChange)
  history : List (Mark FileChange)
  deriving DecidableEq

inductive WatcherEvent where
  | queueChange (c : FileChange)
  | timerFires (i : Nat)
  | flush
  | rejectNewEvents
  | drainPendingBatch
  | stop
  | scheduleIdle
  | cancelIdle
  | idleFires (i : Nat)
  | idleRuns
  deriving DecidableEq

namespace WatcherRun

/-- A new watcher, with metrics or without. -/
def start (measured : Bool) (threshold : Int) : WatcherRun :=
  ⟨.initial (if measured then some .fresh else none) threshold, [], []⟩

def queueChange (c : FileChange) (s : WatcherRun) : WatcherRun :=
  { s with
    watcher := s.watcher.queueChange c
    history := if s.watcher.rejectingEvents then s.history else s.history ++ [.item c] }

def take (result : Option (List FileChange) × VaultWatcher) (s : WatcherRun) : WatcherRun :=
  match result.1 with
  | none => { s with watcher := result.2 }
  | some batch => ⟨result.2, s.taken ++ [batch], s.history ++ [.cut]⟩

/-- A timer's callback runs `_flush` once, however late: whether or not another timer has
replaced it, and also if its cancellation came when it had begun. -/
def step : WatcherEvent → WatcherRun → Option WatcherRun
  | .queueChange c, s => some (s.queueChange c)
  | .timerFires i, s =>
    if i ∈ s.watcher.timer.armed then some { s with watcher := { s.watcher with timer := s.watcher.timer.fire i } }
    else none
  | .flush, s => if s.watcher.timer.begun = 0 then none else some (s.take s.watcher.flush)
  | .rejectNewEvents, s => some { s with watcher := s.watcher.rejectNewEvents }
  | .drainPendingBatch, s => some (s.take s.watcher.drainPendingBatch)
  | .stop, s => some { s with watcher := s.watcher.stop }
  | .scheduleIdle, s => some { s with watcher := s.watcher.scheduleIdle }
  | .cancelIdle, s => some { s with watcher := s.watcher.cancelIdle }
  | .idleFires i, s =>
    if i ∈ s.watcher.idleTimer.armed then
      some { s with watcher := { s.watcher with idleTimer := s.watcher.idleTimer.fire i } }
    else none
  | .idleRuns, s =>
    if s.watcher.idleTimer.begun = 0 then none
    else some { s with watcher := { s.watcher with idleTimer := s.watcher.idleTimer.goOn } }

end WatcherRun

/-- The stretch has a change, and grew to the threshold. -/
def IsDeep (threshold : Int) (episode : List FileChange) : Prop := episode ≠ [] ∧ threshold ≤ episode.length

instance (threshold : Int) (episode : List FileChange) : Decidable (IsDeep threshold episode) :=
  inferInstanceAs (Decidable (_ ∧ _))

/-- The accumulation episodes that grew to the threshold: stretches of accepted changes
between two takings of the queue. -/
def deepEpisodes (threshold : Int) (history : List (Mark FileChange)) : List (List FileChange) :=
  (Stretches.all history).filter fun episode => IsDeep threshold episode

/-- What every interleaving keeps true of the queue and its record. -/
structure Accounted (threshold : Int) (s : WatcherRun) : Prop where
  configured : s.watcher.pendingWarnThreshold = threshold
  taken : s.taken = closed s.history
  pending : s.watcher.pending = current s.history
  nonempty : [] ∉ s.taken
  warned : s.watcher.warnedThisEpisode = true ↔ IsDeep threshold s.watcher.pending
  gauge : ∀ m, s.watcher.metrics = some m →
    m.queueDepth = some s.watcher.pending.length ∨ (m.queueDepth = none ∧ s.history = [])
  warnings : ∀ m, s.watcher.metrics = some m → m.queueDepthWarnings = (deepEpisodes threshold s.history).length

private theorem accounted_start (measured : Bool) (threshold : Int) : Accounted threshold
    (.start measured threshold) where
  configured := rfl
  taken := rfl
  pending := rfl
  nonempty := by simp [WatcherRun.start]
  warned := by simp [WatcherRun.start, VaultWatcher.initial, IsDeep]
  gauge m hm := by
    cases measured with
    | true =>
      cases hm
      exact .inr ⟨rfl, rfl⟩
    | false => cases hm
  warnings m hm := by
    cases measured with
    | true =>
      cases hm
      rfl
    | false => cases hm

/-- A step that leaves queue, flag and metrics alone. -/
theorem Accounted.frame {threshold : Int} {s : WatcherRun} (h : Accounted threshold s) (timer idleTimer : Timers)
    (rejectingEvents : Bool) :
    Accounted threshold { s with watcher := { s.watcher with
      timer := timer, idleTimer := idleTimer, rejectingEvents := rejectingEvents } } :=
  ⟨h.configured, h.taken, h.pending, h.nonempty, h.warned, h.gauge, h.warnings⟩

private theorem length_filter_deep (threshold : Int) (episode : List FileChange) :
    ([episode].filter fun other => IsDeep threshold other).length = if IsDeep threshold episode then 1 else 0 := by
  split_ifs with hdeep
  · rw [List.filter_cons_of_pos (by simpa using hdeep)]
    rfl
  · rw [List.filter_cons_of_neg (by simpa using hdeep)]
    rfl

/-- The open episode counts among the others. -/
theorem length_deepEpisodes (threshold : Int) (history : List (Mark FileChange)) :
    (deepEpisodes threshold history).length =
      ((closed history).filter fun episode => IsDeep threshold episode).length +
        if IsDeep threshold (current history) then 1 else 0 := by
  rw [deepEpisodes, Stretches.all, List.filter_append, List.length_append, length_filter_deep]

/-- Taking the queue ends an episode and opens an empty one. -/
theorem deepEpisodes_cut (threshold : Int) (history : List (Mark FileChange)) :
    (deepEpisodes threshold (history ++ [.cut])).length = (deepEpisodes threshold history).length := by
  have hempty : ¬ IsDeep threshold [] := fun h => h.1 rfl
  rw [length_deepEpisodes, length_deepEpisodes, closed_cut, current_cut, if_neg hempty, List.filter_append,
    List.length_append, length_filter_deep, Nat.add_zero]

/-- A change makes the open episode deep when it reaches the threshold. -/
theorem deepEpisodes_item (threshold : Int) (history : List (Mark FileChange)) (c : FileChange) :
    (deepEpisodes threshold (history ++ [.item c])).length = (deepEpisodes threshold history).length +
      if threshold ≤ (current history ++ [c]).length ∧ ¬ IsDeep threshold (current history) then 1 else 0 := by
  rw [length_deepEpisodes, length_deepEpisodes, closed_item, current_item]
  have hgrown : IsDeep threshold (current history ++ [c]) ↔ threshold ≤ (current history ++ [c]).length := by
    simp [IsDeep]
  by_cases hdeep : IsDeep threshold (current history)
  · have hstays : threshold ≤ (current history ++ [c]).length := by
      have := hdeep.2
      simp only [List.length_append, List.length_cons, List.length_nil]
      omega
    rw [if_pos hdeep, if_pos (hgrown.mpr hstays), if_neg (fun h => h.2 hdeep)]
  · rw [if_neg hdeep]
    by_cases hreaches : threshold ≤ (current history ++ [c]).length
    · rw [if_pos (hgrown.mpr hreaches), if_pos ⟨hreaches, hdeep⟩]
    · rw [if_neg (fun h => hreaches (hgrown.mp h)), if_neg (fun h => hreaches h.1)]

/-- What `_queue_change` does with a change that it accepts. -/
theorem queueChange_accepted {w : VaultWatcher} (h : w.rejectingEvents = false) (c : FileChange) :
    let deep := w.pendingWarnThreshold ≤ (w.pending ++ [c]).length
    (w.queueChange c).pendingWarnThreshold = w.pendingWarnThreshold ∧ (w.queueChange c).pending = w.pending ++ [c] ∧
    ((w.queueChange c).warnedThisEpisode = true ↔ w.warnedThisEpisode = true ∨ deep) ∧
    (w.queueChange c).metrics = w.metrics.map fun m => ⟨some (w.pending ++ [c]).length,
      m.queueDepthWarnings + if deep ∧ w.warnedThisEpisode = false then 1 else 0⟩ := by
  simp only [VaultWatcher.queueChange, h, Bool.false_eq_true, if_false, VaultWatcher.warnIfDeep, VaultWatcher.setGauge]
  split_ifs with hwarns
  · refine ⟨rfl, rfl, ⟨fun _ => .inr hwarns.1, fun _ => rfl⟩, ?_⟩
    cases w.metrics <;> simp
  · refine ⟨rfl, rfl, ⟨.inl, fun hw => ?_⟩, ?_⟩
    · refine hw.elim id fun hdeep => ?_
      simpa using fun hflag => hwarns ⟨hdeep, hflag⟩
    · cases w.metrics <;> simp

theorem queueChange_rejected {w : VaultWatcher} (h : w.rejectingEvents = true) (c : FileChange) : w.queueChange c = w := by
  rw [VaultWatcher.queueChange, if_pos h]

/-- An accepted change restarts the debounce timer and no other. -/
theorem queueChange_timers {w : VaultWatcher} (h : w.rejectingEvents = false) (c : FileChange) :
    (w.queueChange c).timer = w.timer.arm ∧ (w.queueChange c).idleTimer = w.idleTimer ∧
      (w.queueChange c).rejectingEvents = false := by
  simp only [VaultWatcher.queueChange, h, Bool.false_eq_true, if_false, VaultWatcher.warnIfDeep, VaultWatcher.setGauge]
  split_ifs <;> exact ⟨rfl, rfl, rfl⟩

private theorem accounted_queueChange {threshold : Int} {s : WatcherRun} (h : Accounted threshold s) (c : FileChange) :
    Accounted threshold (s.queueChange c) := by
  unfold WatcherRun.queueChange
  by_cases hrejecting : s.watcher.rejectingEvents = true
  · simpa only [queueChange_rejected hrejecting, if_pos hrejecting] using h
  · obtain ⟨hthreshold, hpending, hwarned, hmetrics⟩ := queueChange_accepted (by simpa using hrejecting) c
    rw [h.configured] at hthreshold hwarned hmetrics
    have hgrown : IsDeep threshold (s.watcher.pending ++ [c]) ↔ threshold ≤ (s.watcher.pending ++ [c]).length := by
      simp [IsDeep]
    rw [if_neg hrejecting]
    refine ⟨hthreshold, ?_, ?_, h.nonempty, ?_, fun m hm => ?_, fun m hm => ?_⟩
    · rw [closed_item, h.taken]
    · rw [hpending, current_item, h.pending]
    · rw [hwarned, hpending, hgrown, h.warned]
      refine ⟨fun hd => hd.elim (fun hwas => ?_) id, .inr⟩
      have hreached := hwas.2
      simp only [List.length_append, List.length_cons, List.length_nil]
      omega
    · rw [hmetrics] at hm
      obtain ⟨before, -, rfl⟩ := Option.map_eq_some_iff.mp hm
      rw [hpending]
      exact .inl rfl
    · rw [hmetrics] at hm
      obtain ⟨before, hbefore, rfl⟩ := Option.map_eq_some_iff.mp hm
      rw [deepEpisodes_item, ← h.pending, ← h.warnings before hbefore]
      simp only [← h.warned, Bool.not_eq_true]

/-- Taking the queue, whichever route does it: the batch is what was pending, and queue,
flag and gauge are reset. -/
theorem accounted_take {threshold : Int} {s : WatcherRun} (h : Accounted threshold s) (timer idleTimer : Timers) :
    Accounted threshold (s.take
      (if s.watcher.pending = [] then (none, { s.watcher with timer := timer, idleTimer := idleTimer })
        else (some s.watcher.pending, { s.watcher.takePending with timer := timer, idleTimer := idleTimer }))) := by
  unfold WatcherRun.take
  by_cases hempty : s.watcher.pending = []
  · simp only [hempty, if_true]
    simpa [hempty] using h.frame timer idleTimer s.watcher.rejectingEvents
  · simp only [hempty, if_false, VaultWatcher.takePending, VaultWatcher.setGauge]
    refine ⟨h.configured, ?_, ?_, ?_, ?_, fun m hm => ?_, fun m hm => ?_⟩
    · dsimp only
      rw [closed_cut, h.taken, h.pending]
    · exact (current_cut _).symm
    · simpa [h.nonempty] using Ne.symm hempty
    · simp [IsDeep]
    · obtain ⟨before, -, rfl⟩ : ∃ before, s.watcher.metrics = some before ∧ _ = m := by simpa using hm
      exact .inl rfl
    · obtain ⟨before, hbefore, rfl⟩ : ∃ before, s.watcher.metrics = some before ∧ _ = m := by simpa using hm
      exact (h.warnings before hbefore).trans (deepEpisodes_cut threshold s.history).symm

private theorem accounted_step {threshold : Int} {e : WatcherEvent} {s s' : WatcherRun} (h : Accounted threshold s)
    (hstep : WatcherRun.step e s = some s') : Accounted threshold s' := by
  cases e with
  | queueChange c =>
    cases hstep
    exact accounted_queueChange h c
  | flush =>
    simp only [WatcherRun.step] at hstep
    split_ifs at hstep
    cases hstep
    have hflush : s.watcher.flush = if s.watcher.pending = [] then (none, { s.watcher with timer := s.watcher.timer.goOn })
        else (some s.watcher.pending, { s.watcher.takePending with
          timer := { s.watcher.timer.goOn with current := none } }) := rfl
    by_cases hempty : s.watcher.pending = []
    · have htake := accounted_take h s.watcher.timer.goOn s.watcher.idleTimer
      rw [if_pos hempty] at htake
      rwa [hflush, if_pos hempty]
    · have htake := accounted_take h { s.watcher.timer.goOn with current := none } s.watcher.idleTimer
      rw [if_neg hempty] at htake
      rwa [hflush, if_neg hempty]
  | drainPendingBatch =>
    cases hstep
    exact accounted_take h s.watcher.timer.clear s.watcher.idleTimer.clear
  | timerFires i | idleFires i | idleRuns =>
    simp only [WatcherRun.step] at hstep
    split_ifs at hstep
    cases hstep
    exact h.frame _ _ _
  | rejectNewEvents | stop | scheduleIdle | cancelIdle =>
    cases hstep
    exact h.frame _ _ _

/-- A watcher that rejects events goes on rejecting them. -/
theorem rejecting_step {e : WatcherEvent} {s s' : WatcherRun} (hrejecting : s.watcher.rejectingEvents = true)
    (hstep : WatcherRun.step e s = some s') :
    s'.watcher.rejectingEvents = true ∧ items s'.history = items s.history := by
  have htake : ∀ result : Option (List FileChange) × VaultWatcher, result.2.rejectingEvents = true →
      (s.take result).watcher.rejectingEvents = true ∧ items (s.take result).history = items s.history := by
    intro result hresult
    unfold WatcherRun.take
    split
    · exact ⟨hresult, rfl⟩
    · exact ⟨hresult, by simp [items]⟩
  cases e with
  | queueChange c =>
    cases hstep
    simp [WatcherRun.queueChange, queueChange_rejected, hrejecting]
  | flush =>
    simp only [WatcherRun.step] at hstep
    split_ifs at hstep
    cases hstep
    refine htake _ ?_
    unfold VaultWatcher.flush
    split_ifs <;> exact hrejecting
  | drainPendingBatch =>
    cases hstep
    refine htake _ ?_
    unfold VaultWatcher.drainPendingBatch
    dsimp only
    split_ifs <;> exact hrejecting
  | timerFires i | idleFires i | idleRuns =>
    simp only [WatcherRun.step] at hstep
    split_ifs at hstep
    cases hstep
    exact ⟨hrejecting, rfl⟩
  | rejectNewEvents =>
    cases hstep
    exact ⟨rfl, rfl⟩
  | stop | scheduleIdle | cancelIdle =>
    cases hstep
    exact ⟨hrejecting, rfl⟩

/-- In every interleaving the accepted changes are those of the batches taken, in order, and
the pending ones; gauge and warnings tell the depth and the episodes that got deep; and
nothing is accepted once events are rejected. -/
theorem watcher_queue_accounted {measured : Bool} {threshold : Int} {events : List WatcherEvent} {s : WatcherRun}
    (hrun : exec WatcherRun.step events (.start measured threshold) = some s) :
    items s.history = s.taken.flatten ++ s.watcher.pending ∧ [] ∉ s.taken ∧
    (∀ m, s.watcher.metrics = some m →
      (m.queueDepth = some s.watcher.pending.length ∨ (m.queueDepth = none ∧ items s.history = [])) ∧
      m.queueDepthWarnings = (deepEpisodes threshold s.history).length) ∧
    (s.watcher.rejectingEvents = true → ∀ later s', exec WatcherRun.step later s = some s' →
      items s'.history = items s.history) := by
  have h : Accounted threshold s :=
    exec_invariant_of_step (Accounted threshold) (fun _ _ _ hs hstep => accounted_step hs hstep)
      (accounted_start measured threshold) hrun
  refine ⟨?_, h.nonempty, fun m hm => ⟨?_, h.warnings m hm⟩, fun hrejecting later s' hlater => ?_⟩
  · rw [items_eq, h.taken, h.pending]
  · exact (h.gauge m hm).imp_right fun hunset => ⟨hunset.1, by rw [hunset.2]; rfl⟩
  · have hkept := exec_invariant_of_step
      (fun t : WatcherRun => t.watcher.rejectingEvents = true ∧ items t.history = items s.history)
      (fun _ _ _ ht hstep => ⟨(rejecting_step ht.1 hstep).1, (rejecting_step ht.1 hstep).2.trans ht.2⟩)
      ⟨hrejecting, rfl⟩ hlater
    exact hkept.2

/-- Two changes reach the threshold, a superseded timer flushes them, and a third is drained. -/
def deepThenDrained : List WatcherEvent :=
  [.queueChange (.created notePath), .timerFires 0, .queueChange (.deleted notePath), .flush,
    .queueChange (.created notePath), .rejectNewEvents, .drainPendingBatch, .queueChange (.deleted notePath), .stop]

theorem watcher_queue_accounted_deepThenDrained :
    ∃ s, exec WatcherRun.step deepThenDrained (.start true 2) = some s ∧
      items s.history = [.created notePath, .deleted notePath] ++ [.created notePath] ∧ [] ∉ s.taken := by
  obtain ⟨s, hrun⟩ : ∃ s, exec WatcherRun.step deepThenDrained (.start true 2) = some s := ⟨_, rfl⟩
  obtain ⟨hitems, hnonempty, -⟩ := watcher_queue_accounted hrun
  refine ⟨s, hrun, ?_, hnonempty⟩
  rw [hitems]
  cases hrun
  rfl

/-- What the threads around a compile see of the watcher. -/
structure Threads.Views (s : Threads) (w : VaultWatcher) : Prop where
  pending : w.pending = s.pending.map Ticket.change
  timer : w.timer = s.timer
  idleTimer : w.idleTimer = s.idleTimer
  rejectingEvents : w.rejectingEvents = s.rejectingEvents

/-- The method of the watcher that a step of a thread runs, if any. -/
def watcherEvents (s : Threads) : ThreadEvent → List WatcherEvent
  | .queueChange c => [.queueChange c]
  | .timerFires i => [.timerFires i]
  | .flush => [.flush]
  | .endCompile triggered => [if triggered then .cancelIdle else .scheduleIdle]
  | .idleFires i => [.idleFires i]
  | .acquireIdle => [.idleRuns]
  | .shutdown => match s.shutdown with
    | .stopping => [.rejectNewEvents]
    | .rejected => [.drainPendingBatch]
    | .drained => [.stop]
    | _ => []
  | .acquireBatch _ | .release => []

/-- A step of the threads moves the watcher as its methods do. -/
theorem views_step {e : ThreadEvent} {s s' : Threads} {r : WatcherRun} (hviews : s.Views r.watcher)
    (hstep : Threads.step e s = some s') :
    ∃ r', exec WatcherRun.step (watcherEvents s e) r = some r' ∧ s'.Views r'.watcher := by
  obtain ⟨hpending, htimer, hidle, hrejecting⟩ := hviews
  have hnone : r.watcher.pending = [] ↔ s.pending = [] := by simp [hpending]
  cases Threads.move_of_step hstep with
  | ignored c _ hreject =>
    refine ⟨_, rfl, ?_⟩
    simp only [WatcherRun.queueChange]
    rw [queueChange_rejected (hrejecting.trans hreject)]
    exact ⟨hpending, htimer, hidle, hrejecting⟩
  | accepted c _ haccept =>
    have haccepting : r.watcher.rejectingEvents = false := hrejecting.trans haccept
    refine ⟨_, rfl, ?_⟩
    obtain ⟨harm, hkept, hstill⟩ := queueChange_timers haccepting c
    obtain ⟨-, hqueue, -⟩ := queueChange_accepted haccepting c
    exact ⟨by simp [WatcherRun.queueChange, hqueue, hpending], harm.trans (congrArg Timers.arm htimer),
      hkept.trans hidle, hstill.trans (haccepting.symm.trans hrejecting)⟩
  | timerFires harmed =>
    refine ⟨_, by simp only [watcherEvents, exec_cons, WatcherRun.step, htimer, if_pos harmed]; rfl, ?_⟩
    exact ⟨hpending, rfl, hidle, hrejecting⟩
  | flushNothing hbegun hempty =>
    refine ⟨_, by simp only [watcherEvents, exec_cons, WatcherRun.step, htimer, if_neg hbegun]; rfl, ?_⟩
    simp only [VaultWatcher.flush, if_pos (hnone.mpr hempty)]
    exact ⟨hpending, congrArg Timers.goOn htimer, hidle, hrejecting⟩
  | flushBatch hbegun hsome =>
    refine ⟨_, by simp only [watcherEvents, exec_cons, WatcherRun.step, htimer, if_neg hbegun]; rfl, ?_⟩
    simp only [VaultWatcher.flush, if_neg (fun h => hsome (hnone.mp h))]
    exact ⟨rfl, congrArg (fun timer : Timers => { timer.goOn with current := none }) htimer, hidle, hrejecting⟩
  | acquireBatch => exact ⟨r, rfl, hpending, htimer, hidle, hrejecting⟩
  | endCompile triggered =>
    cases triggered with
    | true => exact ⟨_, rfl, hpending, htimer, congrArg Timers.clear hidle, hrejecting⟩
    | false => exact ⟨_, rfl, hpending, htimer, congrArg Timers.arm hidle, hrejecting⟩
  | leave | leaveDrained | leavePersisting => exact ⟨r, rfl, hpending, htimer, hidle, hrejecting⟩
  | idleFires harmed =>
    refine ⟨_, by simp only [watcherEvents, exec_cons, WatcherRun.step, hidle, if_pos harmed]; rfl, ?_⟩
    exact ⟨hpending, htimer, rfl, hrejecting⟩
  | acquireIdle _ hbegun =>
    refine ⟨_, by simp only [watcherEvents, exec_cons, WatcherRun.step, hidle, if_neg hbegun]; rfl, ?_⟩
    exact ⟨hpending, htimer, rfl, hrejecting⟩
  | reject hstage =>
    exact ⟨{ r with watcher := r.watcher.rejectNewEvents }, by rw [watcherEvents, hstage]; rfl, hpending, htimer,
      hidle, rfl⟩
  | drain hstage =>
    refine ⟨_, by rw [watcherEvents, hstage]; rfl, ?_⟩
    unfold VaultWatcher.drainPendingBatch Threads.drain
    dsimp only
    by_cases hempty : s.pending = []
    · rw [if_pos (hnone.mpr hempty)]
      exact ⟨hnone.mpr hempty, congrArg Timers.clear htimer, congrArg Timers.clear hidle, hrejecting⟩
    · rw [if_neg (fun h => hempty (hnone.mp h))]
      exact ⟨rfl, congrArg Timers.clear htimer, congrArg Timers.clear hidle, hrejecting⟩
  | stopTimers hstage =>
    exact ⟨{ r with watcher := r.watcher.stop }, by rw [watcherEvents, hstage]; rfl, hpending,
      congrArg Timers.clear htimer, congrArg Timers.clear hidle, hrejecting⟩
  | stop hstage | acquireDrained hstage | join hstage | persist hstage =>
    exact ⟨r, by rw [watcherEvents, hstage]; rfl, hpending, htimer, hidle, hrejecting⟩

/-- Every run of the threads is a run of the watcher. -/
theorem threads_run_watcher {events : List ThreadEvent} {s : Threads} (measured : Bool) (threshold : Int)
    (hrun : exec Threads.step events .initial = some s) :
    ∃ watched r, exec WatcherRun.step watched (.start measured threshold) = some r ∧ s.Views r.watcher := by
  have hinitial : (Threads.initial).Views (WatcherRun.start measured threshold).watcher := ⟨rfl, rfl, rfl, rfl⟩
  refine exec_invariant_of_step (fun s : Threads =>
    ∃ watched r, exec WatcherRun.step watched (.start measured threshold) = some r ∧ s.Views r.watcher)
    ?_ ⟨[], _, rfl, hinitial⟩ hrun
  rintro e s s' ⟨watched, r, hwatched, hviews⟩ hstep
  obtain ⟨r', hr', hviews'⟩ := views_step hviews hstep
  exact ⟨watched ++ watcherEvents s e, r', by rw [exec_append, hwatched]; exact hr', hviews'⟩

end GraphifyDaemon
