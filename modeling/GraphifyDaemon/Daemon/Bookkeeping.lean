import GraphifyDaemon.Daemon.WriterLock

/-! What every interleaving of the threads keeps true. -/
namespace GraphifyDaemon
open Library Library.Trace

/-- The changes of the batches that ran. -/
def compiledTickets (log : List Section) : List Ticket :=
  log.flatMap fun ran => match ran with
    | .batch changes => changes
    | .cadence | .persist => []

theorem compiledTickets_append (log : List Section) (ran : Section) :
    compiledTickets (log ++ [ran]) = compiledTickets log ++ compiledTickets [ran] := by
  simp [compiledTickets]

@[simp] theorem compiledTickets_batch (changes : List Ticket) : compiledTickets [.batch changes] = changes := by
  simp [compiledTickets]

@[simp] theorem compiledTickets_cadence : compiledTickets [.cadence] = [] := rfl

@[simp] theorem compiledTickets_persist : compiledTickets [.persist] = [] := rfl

namespace ShutdownStage

/-- The batch the shutdown thread has drained and not yet taken to the lock. -/
def taken : ShutdownStage → List Ticket
  | .draining pending => pending
  | _ => []

def rejects : ShutdownStage → Bool
  | .running | .stopping => false
  | _ => true

def emptied : ShutdownStage → Bool
  | .running | .stopping | .rejected => false
  | _ => true

def persists : ShutdownStage → Bool
  | .persisting | .stopped => true
  | _ => false

theorem rejects_of_emptied {stage : ShutdownStage} (h : stage.emptied = true) : stage.rejects = true := by
  cases stage <;> simp_all [emptied, rejects]

theorem emptied_of_persists {stage : ShutdownStage} (h : stage.persists = true) : stage.emptied = true := by
  cases stage <;> simp_all [emptied, persists]

end ShutdownStage

/-- What holds in every run: an accepted change is somewhere, and who holds the lock
agrees with how far the shutdown is. -/
structure Bookkeeping (s : Threads) : Prop where
  rejecting : s.shutdown.rejects = true → s.rejectingEvents = true
  emptied : s.shutdown.emptied = true → s.pending = []
  kept : ∀ t ∈ s.accepted,
    t ∈ compiledTickets s.log ∨ t ∈ s.waiting.flatten ∨ t ∈ s.shutdown.taken ∨ t ∈ s.pending
  drainedHolder : s.holder = some (.compiling true) ∨ s.holder = some (.leaving true) →
    s.shutdown = .compilingDrained
  persistingHolder : s.holder = some .persisting → s.shutdown = .persisting
  persisted : .persist ∈ s.log → s.shutdown.persists = true

theorem bookkeeping_initial : Bookkeeping Threads.initial := by
  constructor <;> simp [Threads.initial, ShutdownStage.rejects, ShutdownStage.emptied]

private theorem mem_flatten_eraseIdx {t : Ticket} {waiting : List (List Ticket)} {k : Nat} {batch : List Ticket}
    (hk : waiting[k]? = some batch) (ht : t ∈ waiting.flatten) :
    t ∈ batch ∨ t ∈ (waiting.eraseIdx k).flatten := by
  induction waiting generalizing k with
  | nil => simp at hk
  | cons first rest ih =>
    cases k with
    | zero =>
      simp only [List.getElem?_cons_zero, Option.some.injEq] at hk
      simpa [hk] using ht
    | succ k =>
      simp only [List.flatten_cons, List.mem_append, List.eraseIdx_cons_succ] at ht ⊢
      rcases ht with hfirst | hrest
      · exact .inr (.inl hfirst)
      · rcases ih (by simpa using hk) hrest with hb | hr
        · exact .inl hb
        · exact .inr (.inr hr)

namespace Bookkeeping
variable {s : Threads}

private theorem not_emptied (hs : Bookkeeping s) (h : s.rejectingEvents = false) : s.shutdown.emptied = false := by
  rw [Bool.eq_false_iff]
  intro he
  simp [hs.rejecting (ShutdownStage.rejects_of_emptied he)] at h

private theorem accept (hs : Bookkeeping s) (hr : s.rejectingEvents = false) (ticket : Ticket) (timer : Timers) :
    Bookkeeping { s with pending := s.pending ++ [ticket], accepted := s.accepted ++ [ticket], timer := timer } := by
  have hemptied := hs.not_emptied hr
  refine ⟨hs.rejecting, by simp [hemptied], fun t ht => ?_, hs.drainedHolder, hs.persistingHolder, hs.persisted⟩
  rcases List.mem_append.mp ht with hold | hnew
  · have hkept := hs.kept t hold
    simp only [List.mem_append]
    tauto
  · exact .inr (.inr (.inr (List.mem_append_right _ hnew)))

theorem take (hs : Bookkeeping s) (timer : Timers) :
    Bookkeeping { s with pending := [], waiting := s.waiting ++ [s.pending], timer := timer } := by
  refine ⟨hs.rejecting, fun _ => rfl, fun t ht => ?_, hs.drainedHolder, hs.persistingHolder, hs.persisted⟩
  have hkept := hs.kept t ht
  simp only [List.flatten_append, List.flatten_singleton, List.mem_append, List.not_mem_nil]
  tauto

theorem acquireBatch (hs : Bookkeeping s) {k : Nat} {batch : List Ticket} (hk : s.waiting[k]? = some batch) :
    Bookkeeping ({ s with waiting := s.waiting.eraseIdx k }.enter (.compiling false) (.batch batch)) := by
  refine ⟨hs.rejecting, hs.emptied, fun t ht => ?_, by simp [Threads.enter], by simp [Threads.enter],
    fun h => hs.persisted (by simpa [Threads.enter] using h)⟩
  simp only [Threads.enter, compiledTickets_append, compiledTickets_batch, List.mem_append]
  rcases hs.kept t ht with hold | hwaiting | hrest
  · exact .inl (.inl hold)
  · rcases mem_flatten_eraseIdx hk hwaiting with hbatch | hleft
    · exact .inl (.inr hbatch)
    · exact .inr (.inl hleft)
  · exact .inr (.inr hrest)

theorem acquireIdle (hs : Bookkeeping s) :
    Bookkeeping ({ s with idleTimer := s.idleTimer.goOn }.enter .cadence .cadence) := by
  refine ⟨hs.rejecting, hs.emptied, fun t ht => ?_, by simp [Threads.enter], by simp [Threads.enter],
    fun h => hs.persisted (by simpa [Threads.enter] using h)⟩
  simpa [Threads.enter, compiledTickets_append] using hs.kept t ht

theorem endCompile (hs : Bookkeeping s) {drained : Bool} (hholder : s.holder = some (.compiling drained))
    (triggered : Bool) : Bookkeeping (s.endCompile triggered drained) := by
  refine ⟨hs.rejecting, hs.emptied, hs.kept, fun h => ?_, by simp [Threads.endCompile], hs.persisted⟩
  have hdrained : drained = true := by simpa [Threads.endCompile] using h
  subst hdrained
  exact hs.drainedHolder (.inl hholder)

theorem leave (hs : Bookkeeping s) : Bookkeeping { s with holder := none } :=
  ⟨hs.rejecting, hs.emptied, hs.kept, by simp, by simp, hs.persisted⟩

theorem leaveDrained (hs : Bookkeeping s) (hholder : s.holder = some (.leaving true)) :
    Bookkeeping { s with holder := none, shutdown := .drained } := by
  have hstage := hs.drainedHolder (.inr hholder)
  refine ⟨fun _ => hs.rejecting (by simp [hstage, ShutdownStage.rejects]),
    fun _ => hs.emptied (by simp [hstage, ShutdownStage.emptied]), fun t ht => ?_, by simp, by simp, fun hp => ?_⟩
  · simpa [hstage, ShutdownStage.taken] using hs.kept t ht
  · simpa [hstage, ShutdownStage.persists] using hs.persisted hp

theorem leavePersisting (hs : Bookkeeping s) (hholder : s.holder = some .persisting) :
    Bookkeeping { s with holder := none, shutdown := .stopped } := by
  have hstage := hs.persistingHolder hholder
  refine ⟨fun _ => hs.rejecting (by simp [hstage, ShutdownStage.rejects]),
    fun _ => hs.emptied (by simp [hstage, ShutdownStage.emptied]), fun t ht => ?_, by simp, by simp, fun _ => rfl⟩
  simpa [hstage, ShutdownStage.taken] using hs.kept t ht

/-- While the shutdown thread is elsewhere, it does not hold the lock. -/
theorem holder_ne (hs : Bookkeeping s) (hdrained : s.shutdown ≠ .compilingDrained)
    (hpersisting : s.shutdown ≠ .persisting) :
    s.holder ≠ some (.compiling true) ∧ s.holder ≠ some (.leaving true) ∧ s.holder ≠ some .persisting :=
  ⟨fun h => hdrained (hs.drainedHolder (.inl h)), fun h => hdrained (hs.drainedHolder (.inr h)),
    fun h => hpersisting (hs.persistingHolder h)⟩

theorem drain (hs : Bookkeeping s) (hstage : s.shutdown = .rejected) : Bookkeeping s.drain := by
  have hholder := hs.holder_ne (by simp [hstage]) (by simp [hstage])
  refine ⟨fun _ => hs.rejecting (by simp [hstage, ShutdownStage.rejects]), fun _ => rfl, fun t ht => ?_,
    by simp [Threads.drain, hholder], by simp [Threads.drain, hholder], fun hp => ?_⟩
  · have hkept := hs.kept t ht
    simp only [hstage, ShutdownStage.taken] at hkept
    by_cases hpending : s.pending = [] <;> simpa [Threads.drain, hpending, ShutdownStage.taken] using hkept
  · simpa [hstage, ShutdownStage.persists] using hs.persisted hp

/-- The shutdown thread moves on without the lock and without touching the queue. -/
theorem advance (hs : Bookkeeping s) {stage : ShutdownStage} (timer idleTimer : Timers)
    (hdrained : s.shutdown ≠ .compilingDrained) (hpersisting : s.shutdown.persists = false)
    (htaken : s.shutdown.taken = []) (hrejects : stage.rejects = true → s.rejectingEvents = true)
    (hemptied : stage.emptied = s.shutdown.emptied) :
    Bookkeeping { s with timer := timer, idleTimer := idleTimer, shutdown := stage } := by
  have hholder := hs.holder_ne hdrained (fun h => by simp [h, ShutdownStage.persists] at hpersisting)
  refine ⟨hrejects, fun h => hs.emptied (hemptied ▸ h), fun t ht => ?_, by simp [hholder], by simp [hholder], fun hp => ?_⟩
  · have hkept := hs.kept t ht
    simp only [htaken, List.not_mem_nil, false_or] at hkept
    tauto
  · simp [hs.persisted hp] at hpersisting

theorem acquireDrained (hs : Bookkeeping s) {pending : List Ticket} (hstage : s.shutdown = .draining pending) :
    Bookkeeping ({ s with shutdown := .compilingDrained }.enter (.compiling true) (.batch pending)) := by
  refine ⟨fun _ => hs.rejecting (by simp [hstage, ShutdownStage.rejects]),
    fun _ => hs.emptied (by simp [hstage, ShutdownStage.emptied]), fun t ht => ?_, fun _ => rfl,
    by simp [Threads.enter], fun hp => ?_⟩
  · have hkept := hs.kept t ht
    simp only [hstage, ShutdownStage.taken] at hkept
    simp only [Threads.enter, compiledTickets_append, compiledTickets_batch, List.mem_append]
    tauto
  · simpa [hstage, ShutdownStage.persists] using hs.persisted (by simpa [Threads.enter] using hp)

theorem persist (hs : Bookkeeping s) (hstage : s.shutdown = .joined) :
    Bookkeeping ({ s with shutdown := .persisting }.enter .persisting .persist) := by
  refine ⟨fun _ => hs.rejecting (by simp [hstage, ShutdownStage.rejects]),
    fun _ => hs.emptied (by simp [hstage, ShutdownStage.emptied]), fun t ht => ?_, by simp [Threads.enter],
    fun _ => rfl, fun _ => rfl⟩
  simpa [Threads.enter, compiledTickets_append, hstage, ShutdownStage.taken] using hs.kept t ht

end Bookkeeping

/-- The step lemma, move by move. -/
theorem bookkeeping_step {e : ThreadEvent} {s s' : Threads} (hs : Bookkeeping s) (h : Threads.step e s = some s') :
    Bookkeeping s' := by
  cases Threads.move_of_step h with
  | ignored => exact hs
  | accepted c _ haccepting => exact hs.accept haccepting _ _
  | flushBatch => exact hs.take _
  | acquireBatch _ hk => exact hs.acquireBatch hk
  | endCompile triggered hholder => exact hs.endCompile hholder triggered
  | leave => exact hs.leave
  | leaveDrained hholder => exact hs.leaveDrained hholder
  | leavePersisting hholder => exact hs.leavePersisting hholder
  | acquireIdle => exact hs.acquireIdle
  | timerFires | flushNothing | idleFires =>
    exact ⟨hs.rejecting, hs.emptied, hs.kept, hs.drainedHolder, hs.persistingHolder, hs.persisted⟩
  | stop hstage =>
    exact hs.advance s.timer s.idleTimer (by simp [hstage]) (by simp [hstage, ShutdownStage.persists])
      (by simp [hstage, ShutdownStage.taken]) (by simp [ShutdownStage.rejects]) (by simp [hstage, ShutdownStage.emptied])
  | reject hstage =>
    have hrejecting : Bookkeeping { s with rejectingEvents := true } :=
      ⟨fun _ => rfl, hs.emptied, hs.kept, hs.drainedHolder, hs.persistingHolder, hs.persisted⟩
    exact hrejecting.advance s.timer s.idleTimer (by simp [hstage]) (by simp [hstage, ShutdownStage.persists])
      (by simp [hstage, ShutdownStage.taken]) (fun _ => rfl) (by simp [hstage, ShutdownStage.emptied])
  | drain hstage => exact hs.drain hstage
  | acquireDrained hstage => exact hs.acquireDrained hstage
  | stopTimers hstage =>
    exact hs.advance s.timer.clear s.idleTimer.clear (by simp [hstage]) (by simp [hstage, ShutdownStage.persists])
      (by simp [hstage, ShutdownStage.taken]) (fun _ => hs.rejecting (by simp [hstage, ShutdownStage.rejects]))
      (by simp [hstage, ShutdownStage.emptied])
  | join hstage =>
    exact hs.advance s.timer s.idleTimer (by simp [hstage]) (by simp [hstage, ShutdownStage.persists])
      (by simp [hstage, ShutdownStage.taken]) (fun _ => hs.rejecting (by simp [hstage, ShutdownStage.rejects]))
      (by simp [hstage, ShutdownStage.emptied])
  | persist hstage => exact hs.persist hstage

/-- Only `_queue_change` accepts, one change at a time. -/
theorem accepted_step {e : ThreadEvent} {s s' : Threads} (h : Threads.step e s = some s') :
    s'.accepted = s.accepted ∨ ∃ c, s'.accepted = s.accepted ++ [⟨s.accepted.length, c⟩] := by
  cases Threads.move_of_step h with
  | accepted c => exact .inr ⟨c, rfl⟩
  | _ => exact .inl rfl

end GraphifyDaemon
