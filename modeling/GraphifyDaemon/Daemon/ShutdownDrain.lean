import GraphifyDaemon.Daemon.Bookkeeping

/-! What `shutdown` promises: everything accepted is compiled before artifacts are
persisted, and nothing runs after. -/
namespace GraphifyDaemon
open Library Library.Trace

/-- When artifacts are about to be persisted, no debounce thread still holds a batch it
took, and no idle timer is counting down or has its callback waiting. -/
def DrainsCleanly : ThreadEvent → Threads → Prop
  | .shutdown, s => s.shutdown = .joined →
      s.waiting = [] ∧ s.idleTimer.armed = [] ∧ s.idleTimer.begun = 0
  | _, _ => True

instance (e : ThreadEvent) (s : Threads) : Decidable (DrainsCleanly e s) :=
  match e with
  | .shutdown => inferInstanceAs (Decidable (_ → _ ∧ _ ∧ _))
  | .queueChange _ | .timerFires _ | .flush | .acquireBatch _ | .endCompile _ | .release | .idleFires _ | .acquireIdle =>
    instDecidableTrue

/-- Whenever artifacts were persisted, all that was accepted had been compiled by then and
nothing has run since. -/
def Drained (s : Threads) : Prop :=
  ∀ before after, s.log = before ++ .persist :: after →
    after = [] ∧ ∀ t ∈ s.accepted, t ∈ compiledTickets before

/-- Artifacts are being persisted, or were, and nothing is left to do. -/
structure Quiet (s : Threads) : Prop where
  persists : s.shutdown.persists = true
  waiting : s.waiting = []
  armed : s.idleTimer.armed = []
  begun : s.idleTimer.begun = 0
  holder : s.holder = none ∨ s.holder = some .persisting
  log : ∃ before, s.log = before ++ [.persist] ∧ .persist ∉ before ∧ ∀ t ∈ s.accepted, t ∈ compiledTickets before

/-- Persisting begins: this is where the condition is needed. -/
theorem Bookkeeping.quiet {s : Threads} (hs : Bookkeeping s) (hstage : s.shutdown = .joined) (hwaiting : s.waiting = [])
    (harmed : s.idleTimer.armed = []) (hbegun : s.idleTimer.begun = 0) :
    Quiet ({ s with shutdown := .persisting }.enter .persisting .persist) := by
  have hemptied := hs.emptied (by simp [hstage, ShutdownStage.emptied])
  refine ⟨rfl, hwaiting, harmed, hbegun, .inr rfl, s.log, rfl, fun hp => ?_, fun t ht => ?_⟩
  · simpa [hstage, ShutdownStage.persists] using hs.persisted hp
  · simpa [hwaiting, hstage, ShutdownStage.taken, hemptied] using hs.kept t ht

/-- From then on no action but the end of persisting does anything. -/
theorem quiet_step {e : ThreadEvent} {s s' : Threads} (hs : Bookkeeping s) (hquiet : Quiet s)
    (h : Threads.step e s = some s') : Quiet s' := by
  have hpending := hs.emptied (ShutdownStage.emptied_of_persists hquiet.persists)
  have hrejects := hs.rejecting (ShutdownStage.rejects_of_emptied (ShutdownStage.emptied_of_persists hquiet.persists))
  obtain ⟨persists, waiting, armed, begun, holder, log⟩ := hquiet
  cases Threads.move_of_step h with
  | ignored => exact ⟨persists, waiting, armed, begun, holder, log⟩
  | accepted c _ haccepting => simp [hrejects] at haccepting
  | timerFires => exact ⟨persists, waiting, armed, begun, holder, log⟩
  | flushNothing => exact ⟨persists, waiting, armed, begun, holder, log⟩
  | flushBatch _ hsome => exact absurd hpending hsome
  | acquireBatch _ hk => simp [waiting] at hk
  | endCompile _ hcompiling => simp [hcompiling] at holder
  | leave hheld => exact ⟨persists, waiting, armed, begun, .inl rfl, log⟩
  | leaveDrained hheld => simp [hheld] at holder
  | leavePersisting => exact ⟨rfl, waiting, armed, begun, .inl rfl, log⟩
  | idleFires harmed => simp [armed] at harmed
  | acquireIdle _ hbegun => exact absurd begun hbegun
  | stop hstage | reject hstage | drain hstage | acquireDrained hstage | stopTimers hstage | join hstage
  | persist hstage => simp [hstage, ShutdownStage.persists] at persists

/-- Only the shutdown thread, once the observer is joined, begins to persist. -/
theorem begins_persisting {e : ThreadEvent} {s s' : Threads} (hs : Bookkeeping s)
    (hbefore : s.shutdown.persists = false) (h : Threads.step e s = some s') (hp : s'.shutdown.persists = true) :
    e = .shutdown ∧ s.shutdown = .joined ∧ s' = { s with shutdown := .persisting }.enter .persisting .persist := by
  cases Threads.move_of_step h with
  | leavePersisting hholder => simp [hs.persistingHolder hholder, ShutdownStage.persists] at hbefore
  | drain =>
    simp only [Threads.drain] at hp
    split_ifs at hp <;> simp [ShutdownStage.persists] at hp
  | persist hstage => exact ⟨rfl, hstage, rfl⟩
  | leaveDrained | stop | reject | acquireDrained | stopTimers | join =>
    simp [Threads.enter, ShutdownStage.persists] at hp
  | _ => simp [Threads.enter, Threads.endCompile, hbefore] at hp

private theorem drain_step {e : ThreadEvent} {s s' : Threads} (hok : DrainsCleanly e s) (hs : Bookkeeping s)
    (hquiet : s.shutdown.persists = true → Quiet s) (h : Threads.step e s = some s') :
    s'.shutdown.persists = true → Quiet s' := by
  intro hp
  cases hbefore : s.shutdown.persists with
  | true => exact quiet_step hs (hquiet hbefore) h
  | false =>
    obtain ⟨rfl, hstage, rfl⟩ := begins_persisting hs hbefore h hp
    obtain ⟨hwaiting, harmed, hbegun⟩ := hok hstage
    exact hs.quiet hstage hwaiting harmed hbegun

theorem Quiet.drained {s : Threads} (h : Quiet s) : Drained s := by
  intro before after hlog
  obtain ⟨compiled, hcompiled, hfirst, hall⟩ := h.log
  rw [hlog] at hcompiled
  rcases List.eq_nil_or_concat after with rfl | ⟨rest, last, rfl⟩
  · obtain ⟨rfl, -⟩ := List.append_inj' hcompiled rfl
    exact ⟨rfl, hall⟩
  · have hends : (before ++ .persist :: rest) ++ [last] = compiled ++ [.persist] := by simpa using hcompiled
    obtain ⟨rfl, -⟩ := List.append_inj' hends rfl
    exact absurd (by simp) hfirst

/-- In every run in which persisting begins with no batch taken and waiting and no idle
timer left, shutdown keeps its promise. -/
theorem shutdown_drains {events : List ThreadEvent} {s : Threads}
    (hclean : Along Threads.step DrainsCleanly events .initial)
    (hrun : exec Threads.step events .initial = some s) : Drained s := by
  have hinvariant : Bookkeeping s ∧ (s.shutdown.persists = true → Quiet s) := by
    refine exec_invariant (fun s => Bookkeeping s ∧ (s.shutdown.persists = true → Quiet s))
      (fun e s s' hok hs hstep => ?_) ?_ hclean hrun
    · exact ⟨bookkeeping_step hs.1 hstep, drain_step hok hs.1 hs.2 hstep⟩
    · exact ⟨bookkeeping_initial, by simp [Threads.initial, ShutdownStage.persists]⟩
  intro before after hlog
  exact (hinvariant.2 (hinvariant.1.persisted (by simp [hlog]))).drained before after hlog

/-- A change still in its debounce window when shutdown begins. -/
def drainedAtShutdown : List ThreadEvent :=
  [.queueChange (.created notePath), .shutdown, .shutdown, .shutdown, .shutdown,
    .endCompile true, .release, .shutdown, .shutdown, .shutdown, .release]

theorem shutdown_drains_drainedAtShutdown :
    ∃ s, exec Threads.step drainedAtShutdown .initial = some s ∧ s.shutdown = .stopped ∧ Drained s :=
  have hclean : Along Threads.step DrainsCleanly drainedAtShutdown .initial := by decide
  ⟨_, rfl, rfl, shutdown_drains hclean rfl⟩

/-- A change whose debounce thread has just taken it. -/
def takenBeforeShutdown : List ThreadEvent :=
  [.queueChange (.created notePath), .timerFires 0, .flush, .shutdown, .shutdown, .shutdown,
    .shutdown, .shutdown, .shutdown, .release, .acquireBatch 0]

/-- It is compiled only after the artifacts were persisted. -/
theorem taken_batch_runs_after_persist :
    ∃ s, exec Threads.step takenBeforeShutdown .initial = some s ∧
      s.log = [.persist, .batch s.accepted] ∧ ¬ Drained s :=
  ⟨_, rfl, rfl, fun h => by simpa using (h [] _ rfl).1⟩

end GraphifyDaemon
