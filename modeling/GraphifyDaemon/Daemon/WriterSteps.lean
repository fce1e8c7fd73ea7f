import GraphifyDaemon.ArtifactLifecycle.ColdStart
import GraphifyDaemon.Library.Trace

/-! The threads that write, one access to the shared state at a time: batch compiles, their
inline slow-cadence cycles, and the cycles of idle timers, all under the coordinator lock.
A clustering may give no result, but a compile, a write or a save that raises, with the lock
released and the rest of its stages skipped, is no step here: `FailedCompile` has these. -/
namespace GraphifyDaemon
open Library Library.Trace

variable {ν γ τ : Type}

/-- A `threading.Timer` that `schedule_idle` started; it does not fire before its deadline. -/
structure IdleTimer where
  id : Nat
  deadline : Nat
  deriving DecidableEq

/-- What a thread that waits for the coordinator lock is about to run under it. A batch may
be flushed or drained. -/
inductive WriterJob (ν : Type) where
  | batch (changes : List (FileChange × Observation ν))
  | idle (timer : IdleTimer)
  | persist

/-- What the thread that has the coordinator lock does next. `origin` is the idle timer
whose callback runs the cycle, and `none` at the end of a batch. -/
inductive WriterStage (ν γ τ : Type) where
  | extracting (batch : List (FileChange × Observation ν))
  | syncing (batch : List (FileChange × Observation ν))
  | building (batch : List (FileChange × Observation ν))
  | publishing (batch : List (FileChange × Observation ν)) (graph : γ) (communityMap : CommunityMap)
  | recording (batch : List (FileChange × Observation ν))
  | deciding (origin : Option IdleTimer)
  | capturing (origin : Option IdleTimer)
  | clustering (origin : Option IdleTimer) (captured : GraphSnapshot γ τ)
  | writing (origin : Option IdleTimer)
  | saving (origin : Option IdleTimer)
  | resetting (origin : Option IdleTimer)
  | cancellingIdle
  | schedulingIdle
  | persisting
  | leaving

/-- The shared state, with a record of the snapshots published so far. -/
structure WriterState (ν γ τ : Type) where
  clock : Nat
  daemon : Daemon ν γ τ
  stage : Option (WriterStage ν γ τ)
  waiting : List (WriterJob ν)
  idleTimer : Option Nat
  armed : List IdleTimer
  nextIdle : Nat
  running : Bool
  published : List (GraphSnapshot γ τ)

inductive StageEvent (ν : Type) where
  | tick (elapsed : Nat)
  | batchTaken (changes : List (FileChange × Observation ν))
  | idleFires (timer : IdleTimer)
  | acquire (k : Nat)
  | work
  | clusteringEnds (outcome : ClusteringOutcome)
  | shutdown
  | clearTimers
  | persist

/-- A waiting thread gets the coordinator lock. -/
def StageEvent.acquires : StageEvent ν → Bool
  | .acquire _ => true
  | .tick _ | .batchTaken _ | .idleFires _ | .work | .clusteringEnds _ | .shutdown | .clearTimers | .persist => false

namespace WriterState

/-- Once the cold start is through. -/
def start (d : Daemon ν γ τ) (clock : Nat) : WriterState ν γ τ where
  clock := clock
  daemon := d
  stage := none
  waiting := []
  idleTimer := none
  armed := []
  nextIdle := 0
  running := true
  published := d.holder.current.toList

def goTo (stage : WriterStage ν γ τ) (s : WriterState ν γ τ) : WriterState ν γ τ := { s with stage := some stage }

/-- The publish of a batch or of a clustering cycle. -/
def publish (G : Graphify ν γ τ) (graph : γ) (communityMap : CommunityMap) (s : WriterState ν γ τ) :
    Option (WriterState ν γ τ) :=
  match s.daemon.holder.publish G graph communityMap with
  | .raised _ _ => none
  | .done holder => some { s with
      daemon := { s.daemon with holder := holder }, published := s.published ++ holder.current.toList }

/-- `cancel_idle`, and how `schedule_idle` begins: without effect on a timer that has fired. -/
def cancelIdle (s : WriterState ν γ τ) : WriterState ν γ τ :=
  match s.idleTimer with
  | some i => { s with armed := s.armed.filter (fun timer => timer.id ≠ i), idleTimer := none }
  | none => s

def scheduleIdle (s : WriterState ν γ τ) : WriterState ν γ τ :=
  let timer : IdleTimer := ⟨s.nextIdle, s.clock + s.daemon.tracker.quietSeconds⟩
  { s.cancelIdle with armed := s.cancelIdle.armed ++ [timer], idleTimer := some timer.id, nextIdle := s.nextIdle + 1 }

/-- After the cycle of a batch comes `cancel_idle`; an idle callback is through. -/
def afterCycle : Option IdleTimer → WriterStage ν γ τ
  | none => .cancellingIdle
  | some _ => .leaving

def afterNoCycle : Option IdleTimer → WriterStage ν γ τ
  | none => .schedulingIdle
  | some _ => .leaving

/-- The next step of the thread that has the lock, if it can take one. -/
def work [Zero ν] (G : Graphify ν γ τ) (nested : List String) (s : WriterState ν γ τ) : Option (WriterState ν γ τ) :=
  match s.stage with
  | none | some (.clustering _ _) => none
  | some (.extracting batch) => match extractBatch nested batch s.daemon.cache with
    | .raised _ _ => none
    | .done cache => some ({ s with daemon := { s.daemon with cache := cache } }.goTo (.syncing batch))
  | some (.syncing batch) => match syncBatch nested batch s.daemon.cache none s.daemon.files with
    | .raised _ _ => none
    | .done files => some ({ s with daemon := { s.daemon with files := files } }.goTo (.building batch))
  | some (.building batch) => match buildGraph G s.daemon.cache with
    | .error _ => none
    | .ok graph => some (s.goTo (.publishing batch graph (carriedMap s.daemon.holder)))
  | some (.publishing batch graph communityMap) => (s.publish G graph communityMap).map (goTo (.recording batch))
  | some (.recording batch) =>
    some ({ s with daemon := { s.daemon with tracker := s.daemon.tracker.recordBatch batch.length s.clock } }.goTo
      (.deciding none))
  | some (.deciding origin) =>
    some (s.goTo (if s.daemon.tracker.shouldTrigger s.clock then .capturing origin else afterNoCycle origin))
  | some (.capturing origin) => some (s.goTo (match s.daemon.holder.current with
      | none => .writing origin
      | some captured => .clustering origin captured))
  | some (.writing origin) => some (s.goTo (.saving origin))
  | some (.saving origin) =>
    some ({ s with daemon := { s.daemon with graphCache := .intact s.daemon.cache } }.goTo (.resetting origin))
  | some (.resetting origin) =>
    some ({ s with daemon := { s.daemon with tracker := s.daemon.tracker.reset s.clock } }.goTo (afterCycle origin))
  | some .cancellingIdle =>
    some ({ s.cancelIdle with daemon := { s.daemon with idleScheduled := false } }.goTo .leaving)
  | some .schedulingIdle =>
    some ({ s.scheduleIdle with daemon := { s.daemon with idleScheduled := true } }.goTo .leaving)
  | some .persisting => some ({ s with daemon := { s.daemon with graphCache := .intact s.daemon.cache } }.goTo .leaving)
  | some .leaving => some { s with stage := none }

/-- The clustering subprocess has ended, however it did. -/
def clusteringEnds (G : Graphify ν γ τ) (outcome : ClusteringOutcome) (s : WriterState ν γ τ) :
    Option (WriterState ν γ τ) :=
  match s.stage with
  | some (.clustering origin captured) => match outcome.result with
    | none => some (s.goTo (.writing origin))
    | some raw => (s.publish G captured.graph
        (G.remapCommunitiesToPrevious raw (buildPreviousNodeCommunity captured.communityMap))).map (goTo (.writing origin))
  | _ => none

/-- The lock is free, and one of those that wait gets it. -/
def acquire (k : Nat) (s : WriterState ν γ τ) : Option (WriterState ν γ τ) :=
  match s.stage, s.waiting[k]? with
  | none, some job => some ({ s with waiting := s.waiting.eraseIdx k }.goTo (match job with
      | .batch changes => .extracting changes
      | .idle timer => .deciding (some timer)
      | .persist => .persisting))
  | _, _ => none

def step [Zero ν] (G : Graphify ν γ τ) (nested : List String) :
    StageEvent ν → WriterState ν γ τ → Option (WriterState ν γ τ)
  | .tick elapsed, s => some { s with clock := s.clock + elapsed }
  | .batchTaken changes, s => some { s with waiting := s.waiting ++ [.batch changes] }
  | .idleFires timer, s =>
    if timer ∈ s.armed ∧ timer.deadline ≤ s.clock then
      some { s with armed := s.armed.filter (· ≠ timer), waiting := s.waiting ++ [.idle timer] }
    else none
  | .acquire k, s => s.acquire k
  | .work, s => s.work G nested
  | .clusteringEnds outcome, s => s.clusteringEnds G outcome
  | .shutdown, s => if s.running then some { s with running := false } else none
  | .clearTimers, s => if s.running then none else some s.cancelIdle
  | .persist, s => if s.running then none else some { s with waiting := s.waiting ++ [.persist] }

section Idle
variable (s : WriterState ν γ τ)

/-- Only the idle timer and what is armed change. -/
theorem cancelIdle_frame : ∃ armed idleTimer, s.cancelIdle = { s with armed := armed, idleTimer := idleTimer } := by
  unfold cancelIdle
  split
  · exact ⟨_, _, rfl⟩
  · exact ⟨s.armed, s.idleTimer, rfl⟩

@[simp] theorem cancelIdle_daemon : s.cancelIdle.daemon = s.daemon := by
  obtain ⟨armed, idleTimer, h⟩ := s.cancelIdle_frame
  rw [h]

@[simp] theorem cancelIdle_stage : s.cancelIdle.stage = s.stage := by
  obtain ⟨armed, idleTimer, h⟩ := s.cancelIdle_frame
  rw [h]

@[simp] theorem cancelIdle_published : s.cancelIdle.published = s.published := by
  obtain ⟨armed, idleTimer, h⟩ := s.cancelIdle_frame
  rw [h]

@[simp] theorem cancelIdle_clock : s.cancelIdle.clock = s.clock := by
  obtain ⟨armed, idleTimer, h⟩ := s.cancelIdle_frame
  rw [h]

@[simp] theorem cancelIdle_waiting : s.cancelIdle.waiting = s.waiting := by
  obtain ⟨armed, idleTimer, h⟩ := s.cancelIdle_frame
  rw [h]

@[simp] theorem cancelIdle_running : s.cancelIdle.running = s.running := by
  obtain ⟨armed, idleTimer, h⟩ := s.cancelIdle_frame
  rw [h]

end Idle

section Moves
variable {G : Graphify ν γ τ} {nested : List String}

/-- What the thread that gets the lock begins with. -/
def firstStage : WriterJob ν → WriterStage ν γ τ
  | .batch changes => .extracting changes
  | .idle timer => .deciding (some timer)
  | .persist => .persisting

/-- What the thread with the lock can do next. -/
inductive Works [Zero ν] (G : Graphify ν γ τ) (nested : List String) : WriterState ν γ τ → WriterState ν γ τ → Prop
  | extract {s : WriterState ν γ τ} {batch : List (FileChange × Observation ν)} {cache : ExtractionCache ν}
      (hstage : s.stage = some (.extracting batch)) (hcache : extractBatch nested batch s.daemon.cache = .done cache) :
    Works G nested s ({ s with daemon := { s.daemon with cache := cache } }.goTo (.syncing batch))
  | sync {s : WriterState ν γ τ} {batch : List (FileChange × Observation ν)} {files : FilesTable ν}
      (hstage : s.stage = some (.syncing batch))
      (hfiles : syncBatch nested batch s.daemon.cache none s.daemon.files = .done files) :
    Works G nested s ({ s with daemon := { s.daemon with files := files } }.goTo (.building batch))
  | build {s : WriterState ν γ τ} {batch : List (FileChange × Observation ν)} {graph : γ}
      (hstage : s.stage = some (.building batch)) (hgraph : buildGraph G s.daemon.cache = .ok graph) :
    Works G nested s (s.goTo (.publishing batch graph (carriedMap s.daemon.holder)))
  | publish {s mid : WriterState ν γ τ} {batch : List (FileChange × Observation ν)} {graph : γ}
      {communityMap : CommunityMap} (hstage : s.stage = some (.publishing batch graph communityMap))
      (hpublish : s.publish G graph communityMap = some mid) : Works G nested s (mid.goTo (.recording batch))
  | record {s : WriterState ν γ τ} {batch : List (FileChange × Observation ν)}
      (hstage : s.stage = some (.recording batch)) :
    Works G nested s ({ s with
      daemon := { s.daemon with tracker := s.daemon.tracker.recordBatch batch.length s.clock } }.goTo (.deciding none))
  | trigger {s : WriterState ν γ τ} {origin : Option IdleTimer} (hstage : s.stage = some (.deciding origin))
      (htrigger : s.daemon.tracker.shouldTrigger s.clock = true) : Works G nested s (s.goTo (.capturing origin))
  | skip {s : WriterState ν γ τ} {origin : Option IdleTimer} (hstage : s.stage = some (.deciding origin))
      (htrigger : s.daemon.tracker.shouldTrigger s.clock = false) : Works G nested s (s.goTo (afterNoCycle origin))
  | captureNothing {s : WriterState ν γ τ} {origin : Option IdleTimer} (hstage : s.stage = some (.capturing origin))
      (hcurrent : s.daemon.holder.current = none) : Works G nested s (s.goTo (.writing origin))
  | capture {s : WriterState ν γ τ} {origin : Option IdleTimer} {captured : GraphSnapshot γ τ}
      (hstage : s.stage = some (.capturing origin)) (hcurrent : s.daemon.holder.current = some captured) :
    Works G nested s (s.goTo (.clustering origin captured))
  | write {s : WriterState ν γ τ} {origin : Option IdleTimer} (hstage : s.stage = some (.writing origin)) :
    Works G nested s (s.goTo (.saving origin))
  | save {s : WriterState ν γ τ} {origin : Option IdleTimer} (hstage : s.stage = some (.saving origin)) :
    Works G nested s ({ s with
      daemon := { s.daemon with graphCache := .intact s.daemon.cache } }.goTo (.resetting origin))
  | reset {s : WriterState ν γ τ} {origin : Option IdleTimer} (hstage : s.stage = some (.resetting origin)) :
    Works G nested s ({ s with
      daemon := { s.daemon with tracker := s.daemon.tracker.reset s.clock } }.goTo (afterCycle origin))
  | cancelIdle {s : WriterState ν γ τ} (hstage : s.stage = some .cancellingIdle) :
    Works G nested s ({ s.cancelIdle with daemon := { s.daemon with idleScheduled := false } }.goTo .leaving)
  | scheduleIdle {s : WriterState ν γ τ} (hstage : s.stage = some .schedulingIdle) :
    Works G nested s ({ s.scheduleIdle with daemon := { s.daemon with idleScheduled := true } }.goTo .leaving)
  | persist {s : WriterState ν γ τ} (hstage : s.stage = some .persisting) :
    Works G nested s ({ s with daemon := { s.daemon with graphCache := .intact s.daemon.cache } }.goTo .leaving)
  | leave {s : WriterState ν γ τ} (hstage : s.stage = some .leaving) : Works G nested s { s with stage := none }

/-- Invariants are proved of what the thread does, and only here is `work` taken apart. -/
theorem works_of_work [Zero ν] {s s' : WriterState ν γ τ} (h : s.work G nested = some s') : Works G nested s s' := by
  unfold work at h
  cases hstage : s.stage with
  | none => simp [hstage] at h
  | some stage =>
    cases stage <;> simp only [hstage] at h
    case extracting batch =>
      split at h <;> cases h
      case h_2 cache hcache => exact .extract hstage hcache
    case syncing batch =>
      split at h <;> cases h
      case h_2 files hfiles => exact .sync hstage hfiles
    case building batch =>
      split at h <;> cases h
      case h_2 graph hgraph => exact .build hstage hgraph
    case publishing batch graph communityMap =>
      obtain ⟨mid, hmid, rfl⟩ := Option.map_eq_some_iff.mp h
      exact .publish hstage hmid
    case recording batch =>
      cases h
      exact .record hstage
    case deciding origin =>
      cases h
      cases htrigger : s.daemon.tracker.shouldTrigger s.clock with
      | true => exact .trigger hstage htrigger
      | false => exact .skip hstage htrigger
    case capturing origin =>
      cases h
      cases hcurrent : s.daemon.holder.current with
      | none => exact .captureNothing hstage hcurrent
      | some captured => exact .capture hstage hcurrent
    case clustering => cases h
    case writing =>
      cases h
      exact .write hstage
    case saving =>
      cases h
      exact .save hstage
    case resetting =>
      cases h
      exact .reset hstage
    case cancellingIdle =>
      cases h
      exact .cancelIdle hstage
    case schedulingIdle =>
      cases h
      exact .scheduleIdle hstage
    case persisting =>
      cases h
      exact .persist hstage
    case leaving =>
      cases h
      exact .leave hstage

/-- Taking the lock changes nothing yet. -/
theorem acquire_eq_some {k : Nat} {s s' : WriterState ν γ τ} (h : s.acquire k = some s') : ∃ job, s.stage = none ∧
    s.waiting[k]? = some job ∧ s' = { s with waiting := s.waiting.eraseIdx k }.goTo (firstStage job) := by
  unfold acquire at h
  split at h
  · rename_i job hfree hjob
    refine ⟨job, hfree, hjob, ?_⟩
    cases h
    cases job <;> rfl
  · cases h

end Moves

/-- Artifacts that are written without a fault leave the state alone. -/
theorem writeArtifacts_calm {seen : CadenceObservation} {d : Daemon ν γ τ} (hgraph : seen.graphJsonFault = none)
    (hknowledge : seen.knowledgeMdFault = none) : writeArtifacts seen d = .done d := by
  unfold writeArtifacts writeArtifact
  rw [hgraph, hknowledge]
  cases d.holder.current <;> rfl

section Compile
variable [Zero ν] (G : Graphify ν γ τ) (nested : List String)

/-- What follows a clustering, whatever it gave. -/
theorem finish_cycle {s : WriterState ν γ τ} {origin : Option IdleTimer} (hstage : s.stage = some (.writing origin))
    (untilReset : Nat) : exec (step G nested) [.work, .work, .tick untilReset, .work] s = some ({ s with
      clock := s.clock + untilReset
      daemon := { s.daemon with
        graphCache := .intact s.daemon.cache, tracker := s.daemon.tracker.reset (s.clock + untilReset) }
      }.goTo (afterCycle origin)) := by
  simp [step, work, goTo, hstage]

/-- The clustering of the current snapshot, from its capture to its end. -/
theorem cluster_by_stages {s : WriterState ν γ τ} {origin : Option IdleTimer} {outcome : ClusteringOutcome}
    {holder : SnapshotHolder γ τ} (hstage : s.stage = some (.capturing origin))
    (hcycle : runClusteringCycle G outcome s.daemon.holder = .done holder) :
    ∃ events s', exec (step G nested) events s = some s' ∧ s'.stage = some (.writing origin) ∧ s'.clock = s.clock ∧
      s'.daemon = { s.daemon with holder := holder } := by
  unfold runClusteringCycle at hcycle
  cases hcurrent : s.daemon.holder.current with
  | none =>
    rw [hcurrent] at hcycle
    cases hcycle
    exact ⟨[.work], s.goTo (.writing origin), by simp [step, work, hstage, hcurrent], rfl, rfl, rfl⟩
  | some captured =>
    simp only [hcurrent] at hcycle
    cases hresult : outcome.result with
    | none =>
      rw [hresult] at hcycle
      cases hcycle
      exact ⟨[.work, .clusteringEnds outcome], s.goTo (.writing origin),
        by simp [step, work, clusteringEnds, goTo, hstage, hcurrent, hresult], rfl, rfl, rfl⟩
    | some raw =>
      rw [hresult] at hcycle
      refine ⟨[.work, .clusteringEnds outcome], { s with
        daemon := { s.daemon with holder := holder }
        published := s.published ++ holder.current.toList }.goTo (.writing origin), ?_, rfl, rfl, rfl⟩
      simp [step, work, clusteringEnds, publish, goTo, hstage, hcurrent, hresult, hcycle]

/-- `run_slow_cadence_cycle` as a whole is a run of its steps. -/
theorem cycle_by_stages {s : WriterState ν γ τ} {origin : Option IdleTimer} {outcome : ClusteringOutcome}
    {untilReset : Nat} {d : Daemon ν γ τ} (hstage : s.stage = some (.deciding origin))
    (hcycle : runSlowCadenceCycle G ⟨s.clock, outcome, none, none, none, s.clock + untilReset⟩ s.daemon = .done d) :
    ∃ events s', exec (step G nested) events s = some s' ∧ s'.daemon = d ∧ s'.stage = some
      (if s.daemon.tracker.shouldTrigger s.clock then afterCycle origin else afterNoCycle origin) := by
  unfold runSlowCadenceCycle at hcycle
  split_ifs at hcycle with htrigger
  · obtain ⟨clustered, hclustered, hrest⟩ := Outcome.andThen_eq_done.mp hcycle
    obtain ⟨mid, hmid, hwritten⟩ := Outcome.andThen_eq_done.mp hclustered
    cases hholder : runClusteringCycle G outcome s.daemon.holder with
    | raised e holder => simp [hholder] at hmid
    | done holder =>
      have hdecide : step G nested .work s = some (s.goTo (.capturing origin)) := by
        simp [step, work, hstage, htrigger]
      obtain ⟨events, s₁, hrun, hwriting, hclock, hdaemon⟩ :=
        cluster_by_stages G nested (s := s.goTo (.capturing origin)) rfl hholder
      have hfinish := finish_cycle G nested hwriting untilReset
      have hwhole := exec_cons_eq_some.mpr ⟨_, hdecide, exec_append_of hrun hfinish⟩
      refine ⟨_, _, hwhole, ?_, ?_⟩
      · simp only [hholder, Outcome.within_done, Outcome.done.injEq] at hmid
        subst hmid
        rw [writeArtifacts_calm rfl rfl] at hwritten
        cases hwritten
        cases hrest
        simp [goTo, hclock, hdaemon]
      · rw [if_pos htrigger]
        rfl
  · cases hcycle
    exact ⟨[.work], s.goTo (afterNoCycle origin), by simp [step, work, hstage, htrigger], rfl, by simp [goTo, htrigger]⟩

/-- `_compile_batch` up to the slow cadence is a run of its steps. -/
theorem publish_by_stages {s : WriterState ν γ τ} {batch : List (FileChange × Observation ν)} {untilRecord : Nat}
    {cadence : CadenceObservation} {published : Daemon ν γ τ} (hstage : s.stage = some (.extracting batch))
    (hpublish : publishBatch G nested batch ⟨none, s.clock + untilRecord, cadence⟩ s.daemon = .done published) :
    ∃ events s', exec (step G nested) events s = some s' ∧ s'.daemon = published ∧ s'.stage = some (.deciding none) ∧
      s'.clock = s.clock + untilRecord := by
  unfold publishBatch at hpublish
  cases hextract : extractBatch nested batch s.daemon.cache with
  | raised e cache => simp [hextract] at hpublish
  | done cache =>
    simp only [hextract, Outcome.within_done, Outcome.andThen_done] at hpublish
    cases hsync : syncBatch nested batch cache none s.daemon.files with
    | raised e files => simp [hsync] at hpublish
    | done files =>
      simp only [hsync, Outcome.within_done, Outcome.andThen_done] at hpublish
      cases hgraph : buildGraph G cache with
      | error e => simp [hgraph] at hpublish
      | ok graph =>
        simp only [hgraph] at hpublish
        cases hholder : s.daemon.holder.publish G graph (carriedMap s.daemon.holder) with
        | raised e holder => simp [hholder] at hpublish
        | done holder =>
          simp only [hholder, Outcome.within_done, Outcome.andThen_done, Outcome.done.injEq] at hpublish
          have hwhole : exec (step G nested) [.work, .work, .work, .work, .tick untilRecord, .work] s = some { s with
              clock := s.clock + untilRecord
              daemon := published
              stage := some (.deciding none)
              published := s.published ++ holder.current.toList } := by
            simp [step, work, WriterState.publish, goTo, hstage, hextract, hsync, hgraph, hholder, ← hpublish]
          exact ⟨_, _, hwhole, rfl, rfl, rfl⟩

/-- `_compile_batch` as a whole is a run of its steps: what `compileBatch` does in one go
the threads of this module do one access at a time. -/
theorem compile_by_stages {s : WriterState ν γ τ} {batch : List (FileChange × Observation ν)}
    {outcome : ClusteringOutcome} {untilRecord untilDecide untilReset : Nat} {d : Daemon ν γ τ}
    (hstage : s.stage = some (.extracting batch))
    (hcompile : compileBatch G nested batch ⟨none, s.clock + untilRecord, ⟨s.clock + untilRecord + untilDecide, outcome,
      none, none, none, s.clock + untilRecord + untilDecide + untilReset⟩⟩ s.daemon = .done d) :
    ∃ events s', exec (step G nested) events s = some s' ∧ s'.daemon = d ∧ s'.stage = some .leaving := by
  obtain ⟨published, hpublished, hrest⟩ := Outcome.andThen_eq_done.mp hcompile
  obtain ⟨cycled, hcycled, hend⟩ := Outcome.andThen_eq_done.mp hrest
  obtain ⟨events₁, s₁, hrun₁, rfl, hdeciding, hclock⟩ := publish_by_stages G nested hstage hpublished
  rw [← hclock] at hcycled
  obtain ⟨events₂, s₂, hrun₂, rfl, hcycle⟩ :=
    cycle_by_stages G nested (s := { s₁ with clock := s₁.clock + untilDecide }) hdeciding hcycled
  have hsofar : exec (step G nested) (events₁ ++ .tick untilDecide :: events₂) s = some s₂ :=
    exec_append_of hrun₁ (exec_cons_eq_some.mpr ⟨_, rfl, hrun₂⟩)
  cases hend
  dsimp only at hcycle
  rw [← hclock]
  split_ifs at hcycle with htrigger
  · have hlast : step G nested .work s₂ = some ({ s₂.cancelIdle with
        daemon := { s₂.daemon with idleScheduled := false } }.goTo .leaving) := by
      simp [step, work, hcycle, afterCycle]
    have hwhole := exec_append_of hsofar (exec_cons_eq_some.mpr ⟨_, hlast, exec_nil _⟩)
    exact ⟨_, _, hwhole, by simp [goTo, htrigger], rfl⟩
  · have hlast : step G nested .work s₂ = some ({ s₂.scheduleIdle with
        daemon := { s₂.daemon with idleScheduled := true } }.goTo .leaving) := by
      simp [step, work, hcycle, afterNoCycle]
    have hwhole := exec_append_of hsofar (exec_cons_eq_some.mpr ⟨_, hlast, exec_nil _⟩)
    exact ⟨_, _, hwhole, by simp [goTo, htrigger], rfl⟩

end Compile
end WriterState
end GraphifyDaemon
