import GraphifyDaemon.Library.Trace
import GraphifyDaemon.VaultCompiler.Batching

/-! The threads around a compile: the observer, the debounce and idle timers and one call
of `shutdown`, over the watcher lock and the coordinator lock. A step is what one thread
does while it holds the watcher lock, or its taking or leaving the coordinator lock,
which any waiting thread may get next. -/
namespace GraphifyDaemon
open Library Library.Trace

/-- One timer attribute of `VaultWatcher`, with the `threading.Timer` threads started for
it: those still counting down, and the callbacks that have begun. -/
structure Timers where
  current : Option Nat
  armed : List Nat
  begun : Nat
  next : Nat
  deriving DecidableEq

namespace Timers

def initial : Timers := ⟨none, [], 0, 0⟩

/-- `Timer.cancel` on the current timer: without effect once its callback has begun. -/
def cancel (t : Timers) : Timers :=
  match t.current with
  | some i => { t with armed := t.armed.filter (· ≠ i) }
  | none => t

/-- Cancel and forget. -/
def clear (t : Timers) : Timers := { t.cancel with current := none }

/-- Cancel, and start a new timer. -/
def arm (t : Timers) : Timers :=
  { t.cancel with current := some t.next, armed := t.cancel.armed ++ [t.next], next := t.next + 1 }

/-- A timer runs out and its callback begins. -/
def fire (i : Nat) (t : Timers) : Timers :=
  { t with armed := t.armed.filter (· ≠ i), begun := t.begun + 1 }

def goOn (t : Timers) : Timers := { t with begun := t.begun - 1 }

end Timers

/-- A change with its place in the order of acceptance. -/
structure Ticket where
  number : Nat
  change : FileChange
  deriving DecidableEq

/-- What runs under the coordinator lock. -/
inductive Section where
  | batch (changes : List Ticket)
  | cadence
  | persist
  deriving DecidableEq

/-- How far the holder of the coordinator lock is; `drained` tells the shutdown thread
from a debounce thread. -/
inductive LockHolder where
  | compiling (drained : Bool)
  | leaving (drained : Bool)
  | cadence
  | persisting
  deriving DecidableEq

/-- How far `Daemon.shutdown` is. -/
inductive ShutdownStage where
  | running
  | stopping
  | rejected
  | draining (pending : List Ticket)
  | compilingDrained
  | drained
  | timersStopped
  | joined
  | persisting
  | stopped
  deriving DecidableEq

/-- The shared state, the batches taken by a `_flush` that waits for the coordinator
lock, and a record of what was accepted and of what ran under the lock. -/
structure Threads where
  pending : List Ticket
  rejectingEvents : Bool
  timer : Timers
  idleTimer : Timers
  waiting : List (List Ticket)
  holder : Option LockHolder
  shutdown : ShutdownStage
  accepted : List Ticket
  log : List Section
  deriving DecidableEq

inductive ThreadEvent where
  | queueChange (c : FileChange)
  | timerFires (i : Nat)
  | flush
  | acquireBatch (k : Nat)
  | endCompile (triggered : Bool)
  | release
  | idleFires (i : Nat)
  | acquireIdle
  | shutdown
  deriving DecidableEq

namespace Threads

def initial : Threads := ⟨[], false, .initial, .initial, [], none, .running, [], []⟩

/-- The observer is joined before artifacts are persisted. -/
def observing (s : Threads) : Bool :=
  match s.shutdown with
  | .joined | .persisting | .stopped => false
  | _ => true

/-- `_queue_change` -/
def queueChange (c : FileChange) (s : Threads) : Threads :=
  if s.rejectingEvents then s
  else
    let ticket : Ticket := ⟨s.accepted.length, c⟩
    { s with pending := s.pending ++ [ticket], accepted := s.accepted ++ [ticket], timer := s.timer.arm }

/-- `_flush`, up to its call of `_on_batch`. -/
def flush (s : Threads) : Threads :=
  if s.pending = [] then { s with timer := s.timer.goOn }
  else { s with
    pending := []
    waiting := s.waiting ++ [s.pending]
    timer := { s.timer.goOn with current := none } }

def enter (holder : LockHolder) (ran : Section) (s : Threads) : Threads :=
  { s with holder := some holder, log := s.log ++ [ran] }

/-- The end of `_compile_batch`: `cancel_idle` after an inline cadence cycle, else
`schedule_idle`. -/
def endCompile (triggered drained : Bool) (s : Threads) : Threads :=
  { s with holder := some (.leaving drained), idleTimer := if triggered then s.idleTimer.clear else s.idleTimer.arm }

/-- `drain_pending_batch` -/
def drain (s : Threads) : Threads :=
  { s with
    timer := s.timer.clear
    idleTimer := s.idleTimer.clear
    pending := []
    shutdown := if s.pending = [] then .drained else .draining s.pending }

/-- The next step of the thread in `Daemon.shutdown`, if it is not waiting. -/
def shutdownStep (s : Threads) : Option Threads :=
  match s.shutdown, s.holder with
  | .running, _ => some { s with shutdown := .stopping }
  | .stopping, _ => some { s with rejectingEvents := true, shutdown := .rejected }
  | .rejected, _ => some s.drain
  | .draining pending, none => some ({ s with shutdown := .compilingDrained }.enter (.compiling true) (.batch pending))
  | .drained, _ =>
    some { s with timer := s.timer.clear, idleTimer := s.idleTimer.clear, shutdown := .timersStopped }
  | .timersStopped, _ => some { s with shutdown := .joined }
  | .joined, none => some ({ s with shutdown := .persisting }.enter .persisting .persist)
  | _, _ => none

def release (s : Threads) : Option Threads :=
  match s.holder with
  | some (.leaving false) | some .cadence => some { s with holder := none }
  | some (.leaving true) => some { s with holder := none, shutdown := .drained }
  | some .persisting => some { s with holder := none, shutdown := .stopped }
  | some (.compiling _) | none => none

def step : ThreadEvent → Threads → Option Threads
  | .queueChange c, s => if s.observing then some (s.queueChange c) else none
  | .timerFires i, s => if i ∈ s.timer.armed then some { s with timer := s.timer.fire i } else none
  | .flush, s => if s.timer.begun = 0 then none else some s.flush
  | .acquireBatch k, s => match s.holder, s.waiting[k]? with
    | none, some batch => some ({ s with waiting := s.waiting.eraseIdx k }.enter (.compiling false) (.batch batch))
    | _, _ => none
  | .endCompile triggered, s => match s.holder with
    | some (.compiling drained) => some (s.endCompile triggered drained)
    | _ => none
  | .release, s => s.release
  | .idleFires i, s => if i ∈ s.idleTimer.armed then some { s with idleTimer := s.idleTimer.fire i } else none
  | .acquireIdle, s =>
    if s.holder = none ∧ s.idleTimer.begun ≠ 0 then
      some ({ s with idleTimer := s.idleTimer.goOn }.enter .cadence .cadence)
    else none
  | .shutdown, s => s.shutdownStep

/-- All that a step can do, each with the guard that it passed. -/
inductive Move : ThreadEvent → Threads → Threads → Prop
  | ignored {s : Threads} (c : FileChange) (hobserving : s.observing = true) (hrejecting : s.rejectingEvents = true) :
    Move (.queueChange c) s s
  | accepted {s : Threads} (c : FileChange) (hobserving : s.observing = true) (haccepting : s.rejectingEvents = false) :
    Move (.queueChange c) s { s with
      pending := s.pending ++ [⟨s.accepted.length, c⟩]
      accepted := s.accepted ++ [⟨s.accepted.length, c⟩]
      timer := s.timer.arm }
  | timerFires {s : Threads} {i : Nat} (harmed : i ∈ s.timer.armed) :
    Move (.timerFires i) s { s with timer := s.timer.fire i }
  | flushNothing {s : Threads} (hbegun : s.timer.begun ≠ 0) (hempty : s.pending = []) :
    Move .flush s { s with timer := s.timer.goOn }
  | flushBatch {s : Threads} (hbegun : s.timer.begun ≠ 0) (hpending : s.pending ≠ []) :
    Move .flush s { s with
      pending := []
      waiting := s.waiting ++ [s.pending]
      timer := { s.timer.goOn with current := none } }
  | acquireBatch {s : Threads} {k : Nat} {batch : List Ticket} (hfree : s.holder = none)
      (hk : s.waiting[k]? = some batch) :
    Move (.acquireBatch k) s ({ s with waiting := s.waiting.eraseIdx k }.enter (.compiling false) (.batch batch))
  | endCompile {s : Threads} {drained : Bool} (triggered : Bool) (hholder : s.holder = some (.compiling drained)) :
    Move (.endCompile triggered) s (s.endCompile triggered drained)
  | leave {s : Threads} (hholder : s.holder = some (.leaving false) ∨ s.holder = some .cadence) :
    Move .release s { s with holder := none }
  | leaveDrained {s : Threads} (hholder : s.holder = some (.leaving true)) :
    Move .release s { s with holder := none, shutdown := .drained }
  | leavePersisting {s : Threads} (hholder : s.holder = some .persisting) :
    Move .release s { s with holder := none, shutdown := .stopped }
  | idleFires {s : Threads} {i : Nat} (harmed : i ∈ s.idleTimer.armed) :
    Move (.idleFires i) s { s with idleTimer := s.idleTimer.fire i }
  | acquireIdle {s : Threads} (hfree : s.holder = none) (hbegun : s.idleTimer.begun ≠ 0) :
    Move .acquireIdle s ({ s with idleTimer := s.idleTimer.goOn }.enter .cadence .cadence)
  | stop {s : Threads} (hstage : s.shutdown = .running) : Move .shutdown s { s with shutdown := .stopping }
  | reject {s : Threads} (hstage : s.shutdown = .stopping) :
    Move .shutdown s { s with rejectingEvents := true, shutdown := .rejected }
  | drain {s : Threads} (hstage : s.shutdown = .rejected) : Move .shutdown s s.drain
  | acquireDrained {s : Threads} {pending : List Ticket} (hstage : s.shutdown = .draining pending)
      (hfree : s.holder = none) :
    Move .shutdown s ({ s with shutdown := .compilingDrained }.enter (.compiling true) (.batch pending))
  | stopTimers {s : Threads} (hstage : s.shutdown = .drained) :
    Move .shutdown s { s with timer := s.timer.clear, idleTimer := s.idleTimer.clear, shutdown := .timersStopped }
  | join {s : Threads} (hstage : s.shutdown = .timersStopped) : Move .shutdown s { s with shutdown := .joined }
  | persist {s : Threads} (hstage : s.shutdown = .joined) (hfree : s.holder = none) :
    Move .shutdown s ({ s with shutdown := .persisting }.enter .persisting .persist)

private theorem move_of_queueChange {c : FileChange} {s s' : Threads} (h : step (.queueChange c) s = some s') :
    Move (.queueChange c) s s' := by
  simp only [step, queueChange] at h
  split_ifs at h with hobserving hrejecting
  · cases h
    exact .ignored c hobserving hrejecting
  · cases h
    exact .accepted c hobserving (by simpa using hrejecting)

private theorem move_of_flush {s s' : Threads} (h : step .flush s = some s') : Move .flush s s' := by
  simp only [step, flush] at h
  split_ifs at h with hbegun hempty
  · cases h
    exact .flushNothing hbegun hempty
  · cases h
    exact .flushBatch hbegun hempty

private theorem move_of_release {s s' : Threads} (h : step .release s = some s') : Move .release s s' := by
  simp only [step, release] at h
  split at h <;> cases h
  case h_1 hholder => exact .leave (.inl hholder)
  case h_2 hholder => exact .leave (.inr hholder)
  case h_3 hholder => exact .leaveDrained hholder
  case h_4 hholder => exact .leavePersisting hholder

private theorem move_of_shutdown {s s' : Threads} (h : step .shutdown s = some s') : Move .shutdown s s' := by
  simp only [step, shutdownStep] at h
  split at h <;> cases h
  case h_1 hstage => exact .stop hstage
  case h_2 hstage => exact .reject hstage
  case h_3 hstage => exact .drain hstage
  case h_4 hstage hfree => exact .acquireDrained hstage hfree
  case h_5 hstage => exact .stopTimers hstage
  case h_6 hstage => exact .join hstage
  case h_7 hstage hfree => exact .persist hstage hfree

/-- Invariants are proved of the moves, and only here is the step function taken apart. -/
theorem move_of_step {e : ThreadEvent} {s s' : Threads} (h : step e s = some s') : Move e s s' := by
  cases e with
  | queueChange c => exact move_of_queueChange h
  | timerFires i =>
    simp only [step] at h
    split_ifs at h with harmed
    cases h
    exact .timerFires harmed
  | flush => exact move_of_flush h
  | acquireBatch k =>
    simp only [step] at h
    split at h <;> cases h
    case h_1 hfree hk => exact .acquireBatch hfree hk
  | endCompile triggered =>
    simp only [step] at h
    split at h <;> cases h
    case h_1 hholder => exact .endCompile triggered hholder
  | release => exact move_of_release h
  | idleFires i =>
    simp only [step] at h
    split_ifs at h with harmed
    cases h
    exact .idleFires harmed
  | acquireIdle =>
    simp only [step] at h
    split_ifs at h with hready
    cases h
    exact .acquireIdle hready.1 hready.2
  | shutdown => exact move_of_shutdown h

end Threads

end GraphifyDaemon
