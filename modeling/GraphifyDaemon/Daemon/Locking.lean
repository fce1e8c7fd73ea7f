import GraphifyDaemon.Library.LockOrder

/-! The daemon's locks: what each of its threads takes, joins and releases, whatever the data. A
branch may always be taken, and an exception may leave anything, so that there are more runs here
than the daemon has. What the standard library locks and releases within one call is left out. -/
namespace GraphifyDaemon
open Library Library.Trace

/-- `observer` is a lock of watchdog's own, which its thread holds while it dispatches an event
and which `stop` takes. -/
inductive DaemonLock where
  | shutdown
  | coordinator
  | observer
  | watcher
  | queryCache
  | metrics
  deriving DecidableEq

/-- The order in which the daemon nests its locks. -/
def DaemonLock.level : DaemonLock → Nat
  | .shutdown => 0
  | .coordinator => 1
  | .observer => 1
  | .watcher => 2
  | .queryCache => 3
  | .metrics => 3

instance : Preorder DaemonLock := Preorder.lift DaemonLock.level

instance : DecidableLT DaemonLock := fun a b => inferInstanceAs (Decidable (a.level < b.level))

theorem DaemonLock.level_le (lock : DaemonLock) : lock.level ≤ 3 := by
  cases lock <;> decide

instance : WellFoundedGT DaemonLock where
  wf := by
    refine Subrelation.wf (fun {a b} h => ?_) (measure fun lock : DaemonLock => 3 - lock.level).wf
    have hlevels : b.level < a.level := h
    have := a.level_le
    exact show 3 - a.level < 3 - b.level by omega

/-- The thread of the observer, those of timers, and those of callers. -/
inductive DaemonThread where
  | observer
  | timer (number : Nat)
  | caller (number : Nat)
  deriving DecidableEq

abbrev LockRoute := LockProgram DaemonLock DaemonThread

namespace Locking

/-- A branch without an `else`. -/
def optional (body : LockRoute) : LockRoute := .either body .skip

/-- Any method of `Metrics`. -/
def metrics : LockRoute := .withLock .metrics .skip

/-- Any method of `QueryCache`. -/
def queryCache : LockRoute := .withLock .queryCache .skip

/-- `VaultWatcher._queue_change` -/
def queueChange : LockRoute := .withLock .watcher (.seq (optional metrics) (optional metrics))

/-- What the observer's thread does: it dispatches events, each of which may queue a few changes. -/
def observe : LockRoute := .many (.withLock .observer (.many queueChange))

/-- `ShutdownCoordinator.run_batch` -/
def runBatch (fn : LockRoute) : LockRoute := .withLock .coordinator fn

/-- `VaultWatcher.schedule_idle` -/
def scheduleIdle : LockRoute := .withLock .watcher .skip

/-- `VaultWatcher.cancel_idle` -/
def cancelIdle : LockRoute := .withLock .watcher .skip

/-- `run_slow_cadence_cycle`: the clustering cycle records its success. -/
def runSlowCadenceCycle : LockRoute := optional metrics

/-- `Daemon._compile_batch`: each extraction may count an error. -/
def compileBatch : LockRoute :=
  .seq (.many metrics) (.seq runSlowCadenceCycle (.either cancelIdle scheduleIdle))

/-- `Daemon._on_batch` -/
def onBatch : LockRoute := runBatch compileBatch

/-- `VaultWatcher._flush`, on its timer's thread. -/
def flush : LockRoute := .seq (.withLock .watcher (optional metrics)) (optional onBatch)

/-- `Daemon._on_idle_cadence`, on its timer's thread. -/
def onIdleCadence : LockRoute := runBatch runSlowCadenceCycle

/-- `VaultWatcher.reject_new_events` -/
def rejectNewEvents : LockRoute := .withLock .watcher .skip

/-- `VaultWatcher.drain_pending_batch` -/
def drainPendingBatch : LockRoute := .withLock .watcher (optional metrics)

/-- `VaultWatcher.stop` -/
def stop : LockRoute :=
  .seq (.withLock .watcher .skip) (.seq (.withLock .observer .skip) (.join .observer))

/-- `ShutdownCoordinator.shutdown` -/
def coordinatorShutdown (persist : LockRoute) : LockRoute := .withLock .coordinator persist

/-- `Daemon.shutdown` -/
def shutdown : LockRoute :=
  .seq (.withLock .shutdown .skip) (optional
    (.seq rejectNewEvents (.seq drainPendingBatch (.seq (optional (runBatch compileBatch))
      (.seq stop (.seq (coordinatorShutdown .skip) (.withLock .shutdown .skip)))))))

/-- `on_call_tool`: the query may look up and store its result. -/
def onCallTool : LockRoute := .seq (optional (.seq queryCache (optional queryCache))) (optional metrics)

/-- `collect_metrics` -/
def collectMetrics : LockRoute := .seq metrics (.seq queryCache (.seq metrics (.seq metrics metrics)))

/-- `Daemon.cold_start` -/
def coldStart : LockRoute := .many metrics

end Locking

inductive DaemonRoute where
  | observe
  | flush
  | onIdleCadence
  | shutdown
  | onBatch
  | metrics
  | onCallTool
  | collectMetrics
  | coldStart
  deriving DecidableEq

def DaemonRoute.program : DaemonRoute → LockRoute
  | .observe => Locking.observe
  | .flush => Locking.flush
  | .onIdleCadence => Locking.onIdleCadence
  | .shutdown => Locking.shutdown
  | .onBatch => Locking.onBatch
  | .metrics => Locking.metrics
  | .onCallTool => Locking.onCallTool
  | .collectMetrics => Locking.collectMetrics
  | .coldStart => Locking.coldStart

/-- The observer's thread runs the observer, and a timer's thread its callback. -/
def DaemonThread.mayRun : DaemonThread → DaemonRoute → Bool
  | .observer, route => route = .observe
  | .timer _, route => route = .flush ∨ route = .onIdleCadence
  | .caller _, route => route ≠ .observe

/-- Only the observer's thread is joined, and not by itself. -/
def DaemonThread.joins (thread awaited : DaemonThread) : Prop := thread ≠ .observer ∧ awaited = .observer

instance (thread : DaemonThread) : DecidablePred thread.joins := fun awaited =>
  inferInstanceAs (Decidable (thread ≠ .observer ∧ awaited = .observer))

private theorem joins_wellFounded : WellFounded fun awaited thread : DaemonThread => thread.joins awaited := by
  have hobserver : Acc (fun awaited thread : DaemonThread => thread.joins awaited) .observer :=
    ⟨_, fun _ h => absurd rfl h.1⟩
  exact ⟨fun thread => ⟨_, fun _ h => h.2 ▸ hobserver⟩⟩

/-- Every lock is taken above those held, and the observer is joined with none held. -/
theorem program_ordered (route : DaemonRoute) : route.program.Ordered (· = DaemonThread.observer) [] := by
  cases route <;> decide

private theorem observe_ordered : Locking.observe.Ordered (fun _ : DaemonThread => False) [] := by decide

/-- With the observer joined while the watcher's lock is held, it would not be in order: the
observer's thread takes that lock. -/
example : ¬ (LockProgram.withLock DaemonLock.watcher (.join DaemonThread.observer)).Ordered
    (· = DaemonThread.observer) [] := by decide

private theorem mayRun_ordered (thread : DaemonThread) (route : DaemonRoute) (h : thread.mayRun route = true) :
    route.program.Ordered thread.joins [] := by
  cases thread with
  | observer =>
    obtain rfl : route = .observe := of_decide_eq_true h
    exact observe_ordered.mono fun _ => False.elim
  | timer n => exact (program_ordered route).mono fun _ h => ⟨by simp, h⟩
  | caller n => exact (program_ordered route).mono fun _ h => ⟨by simp, h⟩

/-- However the daemon's threads take turns, no set of them waits for its own members: for a lock
that one of them holds, or for the end of one. -/
theorem daemon_never_deadlocks (events : List (LockEvent DaemonThread DaemonRoute))
    (s : LockThreads DaemonLock DaemonThread)
    (run : exec (LockThreads.step DaemonRoute.program DaemonThread.mayRun) events .start = some s)
    (threads : Set DaemonThread) : ¬ s.Deadlocked threads :=
  LockThreads.not_deadlocked_of_run joins_wellFounded mayRun_ordered run threads

/-- A timer's flush has the watcher's lock when a shutdown stops the observer, which is about to
queue a change. -/
theorem daemon_never_deadlocks_stopping : ∃ s : LockThreads DaemonLock DaemonThread,
    s.WaitsFor (.caller 0) .observer ∧ s.WaitsFor .observer (.timer 0) ∧ ∀ threads, ¬ s.Deadlocked threads := by
  obtain ⟨s, run, ⟨rest, hcaller⟩, ⟨rest', hobserver⟩, howner, howner'⟩ :
      ∃ s, exec (LockThreads.step DaemonRoute.program DaemonThread.mayRun)
        (.start (.caller 0) .shutdown :: List.replicate 17 (.next (.caller 0)) ++
          .leave (.caller 0) :: List.replicate 6 (.next (.caller 0)) ++
          .start .observer .observe :: List.replicate 3 (.next .observer) ++
          .start (.timer 0) .flush :: List.replicate 2 (.next (.timer 0))) .start = some s ∧
        (∃ rest, s.frames (.caller 0) = .run (.withLock .observer .skip) :: rest) ∧
        (∃ rest, s.frames .observer = .run Locking.queueChange :: rest) ∧
        s.owner .observer = some .observer ∧ s.owner .watcher = some (.timer 0) :=
    ⟨_, rfl, ⟨_, rfl⟩, ⟨_, rfl⟩, rfl, rfl⟩
  exact ⟨s, .inl ⟨.observer, .skip, rest, hcaller, howner⟩, .inl ⟨.watcher, _, rest', hobserver, howner'⟩,
    daemon_never_deadlocks _ s run⟩

end GraphifyDaemon
