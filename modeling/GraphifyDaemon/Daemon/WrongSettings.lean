import GraphifyDaemon.Daemon.Startup

/-! What becomes of `main()` where nothing disturbs it: the first statement that fails decides. -/
namespace GraphifyDaemon
open Library Library.Trace

variable {ν γ τ : Type}

/-- Events that come from outside of the main thread's own statements. -/
def MainEvent.disturbs : MainEvent γ → Bool
  | .raise _ | .signal _ => true
  | .advance | .publish _ _ | .health _ | .shutdown _ => false

def errorOf {ε α : Type} : Except ε α → Option ε
  | .error e => some e
  | .ok _ => none

private theorem errorOf_map {ε α β : Type} (f : α → β) (x : Except ε α) : errorOf (x.map f) = errorOf x := by
  cases x <;> rfl

/-- What a statement fails with. It does not depend on how far the daemon has got. -/
def failure [DecidableEq ν] (P : PyStrings) (G : Graphify ν γ τ) (nested : List String) (L : Launch ν) :
    Statement → Option StartError
  | .readLogFile => errorOf (readLogFile L.platform L.environ.logFile)
  | .resolveLogLevel => errorOf (resolveLogLevel P L.environ.logLevel)
  | .resolveRotationSettings => errorOf (resolveRotationSettings P L.environ.logMaxBytes L.environ.logBackupCount)
  | .configureLogging => errorOf (L.platform.openLog.mapError .python)
  | .readVaultRoot => errorOf (readVaultRoot L.platform L.environ.vaultRoot)
  | .readOutputDir => errorOf (readOutputDir L.platform L.environ.outDir)
  | .readLruSize => errorOf (resolveInt P L.environ.lruSize DEFAULT_LRU_SIZE)
  | .readPendingWarnThreshold => errorOf (resolveInt P L.environ.pendingWarnThreshold DEFAULT_PENDING_WARN_THRESHOLD)
  | .construct => errorOf (L.platform.openOutput.mapError .python)
  | .coldStart => match (Daemon.restarted L.startedAt L.saved).coldStart G nested L.walk with
    | .raised e _ => some (.python e)
    | .done _ => none
  | .start => errorOf (L.platform.startObserver.mapError .python)
  | .readPort => errorOf (resolveInt P L.environ.port DEFAULT_PORT)
  | .validateHost => errorOf (validateHost P (L.environ.host.getD DEFAULT_HOST))
  | .validateApiKey => errorOf (validateApiKey L.environ.apiKey)
  | .buildMcpServer | .handleSigterm | .handleSigint | .enterTry | .buildApp | .serve => none

def firstFailure [DecidableEq ν] (P : PyStrings) (G : Graphify ν γ τ) (nested : List String) (L : Launch ν) :
    Option (Statement × StartError) :=
  mainStatements.findSome? fun st => (failure P G nested L st).map fun e => (st, e)

namespace MainProcess
variable [DecidableEq ν] {P : PyStrings} {G : Graphify ν γ τ} {nested : List String} {L : Launch ν}
variable {s s' : MainProcess γ τ}

/-- How main is left. A setting that is checked in the `try` lets the daemon shut down; any other
ends the process as it is, and the port is the only one of these that is read when the observer
runs already. -/
def LeftAfter (failed : Option (Statement × StartError)) (s : MainProcess γ τ) : Prop :=
  match failed with
  | none => s.ending = none ∧ s.server.isSome = true ∧ s.calls.calls 0 ≠ .notCalled
  | some (st, e) =>
    if st ∈ tryBody then s.ending = none ∧ s.server = none ∧ s.calls.calls 0 ≠ .notCalled
    else s.ending = some (.raised e) ∧ s.server = none ∧ s.calls = .initial ∧ (s.observing = true ↔ st = .readPort)

private theorem failure_eq_errorOf (s : MainProcess γ τ) (st : Statement) :
    failure P G nested L st = errorOf (s.execute P G nested L st) := by
  cases st <;> simp only [failure, execute, errorOf_map]
  case coldStart => cases (Daemon.restarted L.startedAt L.saved).coldStart G nested L.walk <;> rfl
  case buildApp => split <;> rfl
  all_goals rfl

/-- What an undisturbed run keeps. -/
structure Undisturbed (P : PyStrings) (G : Graphify ν γ τ) (nested : List String) (L : Launch ν)
    (s : MainProcess γ τ) : Prop where
  guarded : Guarded P G nested L s
  past : s.todo ≠ [] → Past mainStatements (fun st _ => failure P G nested L st = none) s.todo s
  observing : s.todo ≠ [] → (s.observing = true ↔ .start ∉ s.todo)
  built : s.todo ≠ [] → (s.server.isSome = true ↔ .buildApp ∉ s.todo)
  fate : s.todo = [] → LeftAfter (firstFailure P G nested L) s

private theorem undisturbed_initial : Undisturbed P G nested L (initial : MainProcess γ τ) where
  guarded := guarded_initial
  past _ := .start
  observing _ := by simp [initial, mainStatements, beforeTry]
  built _ := by simp [initial, mainStatements, beforeTry, tryBody]
  fate h := by cases h

private theorem firstFailure_of_past {st : Statement} {rest : List Statement} {e : StartError}
    (hpast : Past mainStatements (fun st _ => failure P G nested L st = none) (st :: rest) s)
    (hfails : failure P G nested L st = some e) : firstFailure P G nested L = some (st, e) := by
  obtain ⟨done, hsplit, hdone⟩ := hpast.split
  have hbefore : done.findSome? (fun st => (failure P G nested L st).map fun e => (st, e)) = none := by
    rw [List.findSome?_eq_none_iff]
    intro x hx
    rw [hdone x hx]
    rfl
  rw [firstFailure, hsplit, List.findSome?_append, hbefore, List.findSome?_cons, hfails]
  rfl

private theorem firstFailure_of_past_serve
    (hpast : Past mainStatements (fun st _ => failure P G nested L st = none) [.serve] s) :
    firstFailure P G nested L = none := by
  obtain ⟨done, hsplit, hdone⟩ := hpast.split
  rw [firstFailure, hsplit, List.findSome?_eq_none_iff]
  intro x hx
  rcases List.mem_append.mp hx with hin | hlast
  · rw [hdone x hin]
    rfl
  · rw [List.mem_singleton.mp hlast]
    rfl

private theorem observing_execute {st : Statement} (h : s.execute P G nested L st = .ok s') :
    s'.observing = true ↔ s.observing = true ∨ st = .start := by
  cases st <;> simp only [execute, map_eq_ok] at h
  case readLogFile | resolveLogLevel | resolveRotationSettings | configureLogging | readVaultRoot | readOutputDir |
      readLruSize | readPendingWarnThreshold | construct | start | readPort | validateHost | validateApiKey =>
    obtain ⟨a, -, rfl⟩ := h
    simp
  case coldStart | buildApp => split at h <;> cases h <;> simp
  case handleSigterm | handleSigint | buildMcpServer | enterTry | serve =>
    cases h
    simp

/-- Where the statements of `main()` stand to each other. -/
theorem order_of_past {Post : Statement → MainProcess γ τ → Prop} {st : Statement} {rest : List Statement}
    (hpast : Past mainStatements Post (st :: rest) s) :
    st ∉ rest ∧ (.enterTry ∉ st :: rest ↔ st ∈ tryBody) ∧
      (st = .readPort → .start ∉ st :: rest) ∧ (.start ∉ st :: rest → .enterTry ∈ st :: rest →
        st ∈ [.buildMcpServer, .readPort, .handleSigterm, .handleSigint, .enterTry]) ∧
      (st ∈ tryBody → st ≠ .serve → .buildApp ∈ st :: rest) := by
  have hmain : ∀ todo ∈ mainStatements.tails, ∀ st ∈ todo.head?, st ∉ todo.tail ∧ (.enterTry ∉ todo ↔ st ∈ tryBody) ∧
      (st = .readPort → .start ∉ todo) ∧ (.start ∉ todo → .enterTry ∈ todo →
        st ∈ [.buildMcpServer, .readPort, .handleSigterm, .handleSigint, .enterTry]) ∧
      (st ∈ tryBody → st ≠ .serve → .buildApp ∈ todo) := by decide
  exact hmain (st :: rest) ((List.mem_tails _ _).mpr hpast.suffix) st rfl

/-- A statement that fails decides how main is left. -/
theorem leftAfter_raise (h : Undisturbed P G nested L s) {st : Statement} {rest : List Statement} {e : StartError}
    (htodo : s.todo = st :: rest) (hfails : failure P G nested L st = some e)
    (hraise : s.raise (.raised e) .otherException = some s') : LeftAfter (firstFailure P G nested L) s' := by
  have hne : s.todo ≠ [] := by simp [htodo]
  have hpast := h.past hne
  rw [htodo] at hpast
  obtain ⟨-, htry, hport, hlate, hbuild⟩ := order_of_past hpast
  have hguarded := guarded_raise h.guarded hne hraise
  rw [firstFailure_of_past hpast hfails]
  simp only [LeftAfter]
  unfold MainProcess.raise at hraise
  split_ifs at hraise with hintry
  · have hst : st ∈ tryBody := htry.mp (by simpa [htodo] using hintry.2)
    obtain ⟨calls, hcalls, rfl⟩ := Option.map_eq_some_iff.mp hraise
    have hserve : st ≠ .serve := by
      rintro rfl
      cases hfails
    have hunbuilt : s.server = none := by
      have hbuilt := h.built hne
      rw [htodo] at hbuilt
      cases hserver : s.server with
      | none => rfl
      | some server => exact absurd (hbuild hst hserve) (hbuilt.mp (by simp [hserver]))
    rw [if_pos hst]
    exact ⟨h.guarded.running hne, hunbuilt, hguarded.left rfl (h.guarded.running hne)⟩
  · cases hraise
    have henter : .enterTry ∈ st :: rest := by
      by_contra hnot
      exact hintry ⟨hne, by rwa [htodo]⟩
    rw [if_neg fun hst => htry.mpr hst henter]
    refine ⟨rfl, (hguarded.unserved (.inr rfl)).1, hguarded.calm (.inr rfl), ?_⟩
    have hobserving : s.observing = true ↔ .start ∉ st :: rest := by
      rw [← htodo]
      exact h.observing hne
    refine hobserving.trans ⟨fun hstart => ?_, hport⟩
    have hmem := hlate hstart henter
    simp only [List.mem_cons, List.not_mem_nil, or_false] at hmem
    rcases hmem with rfl | rfl | rfl | rfl | rfl
    · cases hfails
    · rfl
    all_goals cases hfails

private theorem undisturbed_execute (h : Undisturbed P G nested L s) {st : Statement} {rest : List Statement}
    (htodo : s.todo = st :: rest) (hserve : st ≠ .serve) (hexecute : s.execute P G nested L st = .ok s') :
    Undisturbed P G nested L { s' with todo := rest } := by
  have hne : s.todo ≠ [] := by simp [htodo]
  have hguarded := guarded_execute h.guarded htodo hserve hexecute
  have hpast := h.past hne
  have hestablished := h.guarded.past hne
  have hobserving := h.observing hne
  have hbuilt := h.built hne
  rw [htodo] at hpast hestablished hobserving hbuilt
  obtain ⟨honce, -⟩ := order_of_past hpast
  have hpasses : failure P G nested L st = none := by
    rw [failure_eq_errorOf s, hexecute]
    rfl
  refine ⟨hguarded, fun _ => hpast.advance hpasses fun _ _ hx => hx, fun _ => ?_, fun _ => ?_, fun hnil => ?_⟩
  · refine (observing_execute hexecute).trans ?_
    rw [hobserving, List.mem_cons, not_or]
    by_cases hst : st = .start
    · subst hst
      simp [honce]
    · simp [hst, Ne.symm hst]
  · by_cases hst : st = .buildApp
    · subst hst
      obtain rfl : rest = [.serve] := (rest_of_past hestablished).2 rfl
      obtain ⟨-, ⟨server, rfl, -⟩, -⟩ := startable_of_past hestablished hexecute
      simp
    · simp only [(execute_frame hexecute hst).1, hbuilt, List.mem_cons, not_or, Ne.symm hst, not_false_eq_true, true_and]
  · have hlast : ∀ todo ∈ mainStatements.tails, ∀ st ∈ todo.head?, st ≠ .serve → todo.tail ≠ [] := by decide
    exact absurd hnil (hlast (st :: rest) ((List.mem_tails _ _).mpr hpast.suffix) st rfl hserve)

private theorem undisturbed_advance (h : Undisturbed P G nested L s) (hadvance : s.advance P G nested L = some s') :
    Undisturbed P G nested L s' := by
  have hguarded := guarded_advance h.guarded hadvance
  unfold advance at hadvance
  split at hadvance
  · cases hadvance
  · rename_i rest htodo
    have hne : s.todo ≠ [] := by simp [htodo]
    have hpast := h.past hne
    rw [htodo] at hpast
    obtain rfl : rest = [] := (rest_of_past (by simpa [htodo] using h.guarded.past hne)).1 rfl
    obtain ⟨calls, hcalls, rfl⟩ := Option.map_eq_some_iff.mp hadvance
    refine ⟨hguarded, fun hnil => absurd rfl hnil, fun hnil => absurd rfl hnil, fun hnil => absurd rfl hnil, fun _ => ?_⟩
    rw [firstFailure_of_past_serve hpast]
    have hending := h.guarded.running hne
    exact ⟨hending, (h.built hne).mpr (by simp [htodo]), hguarded.left rfl hending⟩
  · rename_i st rest hserve htodo
    split at hadvance
    · rename_i e hexecute
      have hfails : failure P G nested L st = some e := by
        rw [failure_eq_errorOf s, hexecute]
        rfl
      have hnil : s'.todo = [] := by
        unfold MainProcess.raise at hadvance
        split_ifs at hadvance
        · obtain ⟨calls, -, rfl⟩ := Option.map_eq_some_iff.mp hadvance
          rfl
        · cases hadvance
          rfl
      exact ⟨hguarded, fun hne => absurd hnil hne, fun hne => absurd hnil hne, fun hne => absurd hnil hne,
        fun _ => leftAfter_raise h htodo hfails hadvance⟩
    · rename_i done hexecute
      cases hadvance
      exact undisturbed_execute h htodo (fun hst => hserve hst) hexecute

/-- The daemon shuts down where it is left to. -/
theorem leftAfter_shutdown {failed : Option (Statement × StartError)} (hleft : LeftAfter failed s)
    (hending : s.ending = none) {calls : ShutdownCalls} (hcalled : calls.calls 0 ≠ .notCalled) :
    LeftAfter failed { s with calls := calls } := by
  cases failed with
  | none => exact ⟨hending, hleft.2.1, hcalled⟩
  | some failed =>
    simp only [LeftAfter] at hleft ⊢
    split_ifs at hleft ⊢
    · exact ⟨hending, hleft.2.1, hcalled⟩
    · rw [hending] at hleft
      cases hleft.1

private theorem undisturbed_step (h : Undisturbed P G nested L s) {e : MainEvent γ} (hcalm : e.disturbs = false)
    (hstep : step P G nested L e s = some s') : Undisturbed P G nested L s' := by
  have hguarded := guarded_step h.guarded hstep
  unfold step at hstep
  split at hstep
  · exact undisturbed_advance h hstep
  · cases hcalm
  · cases hcalm
  · split_ifs at hstep
    cases hstep
    exact ⟨hguarded, fun hne => (h.past hne).keep fun _ hx => hx, h.observing, h.built, h.fate⟩
  · split at hstep <;> cases hstep
    exact ⟨hguarded, fun hne => (h.past hne).keep fun _ hx => hx, h.observing, h.built, h.fate⟩
  · cases hstep
  · cases hstep
  · split_ifs at hstep with hleft
    obtain ⟨calls, hcalls, rfl⟩ := Option.map_eq_some_iff.mp hstep
    have hcalled := called_of_step hcalls (h.guarded.left hleft.1 hleft.2)
    exact ⟨hguarded, fun hne => absurd hleft.1 hne, fun hne => absurd hleft.1 hne, fun hne => absurd hleft.1 hne,
      fun _ => leftAfter_shutdown (h.fate hleft.1) hleft.2 hcalled⟩

/-- Where nothing raises by itself and no signal arrives, the first statement of `main()` whose
setting is wrong decides how it ends, whatever is published and asked meanwhile. -/
theorem wrong_setting_decides {events : List (MainEvent γ)} (hcalm : ∀ e ∈ events, e.disturbs = false)
    (hrun : exec (step P G nested L) events initial = some s) (hover : s.todo = []) :
    LeftAfter (firstFailure P G nested L) s := by
  have halong : Along (step P G nested L) (fun e _ => e.disturbs = false) events initial :=
    along_of_forall (fun e he _ => hcalm e he) initial
  have h : Undisturbed P G nested L s :=
    exec_invariant (Undisturbed P G nested L) (fun _ _ _ hcalm hs hstep => undisturbed_step hs hcalm hstep)
      undisturbed_initial halong hrun
  exact h.fate hover

/-- Neither the port nor the host is right: it is the port that ends the process, while the
observer runs. With the host alone, the daemon is shut down. -/
def wrongEnviron (port : Option String) : Launch Nat :=
  { keyedLaunch with environ := { keyedLaunch.environ with port := port, host := some "0.0.0.0" } }

omit [DecidableEq ν] in
theorem wrong_setting_decides_portAndHost :
    (∃ s, exec (step plainStrings referenceGraphify [] (wrongEnviron (some "eighty"))) (List.replicate 13 .advance)
        initial = some s ∧ s.ending = some (.raised (.python .valueError)) ∧ s.observing = true ∧ s.calls = .initial) ∧
      ∃ s, exec (step plainStrings referenceGraphify [] (wrongEnviron none)) (List.replicate 17 .advance) initial =
        some s ∧ s.ending = none ∧ s.server = none ∧ s.calls.calls 0 ≠ .notCalled := by
  have hport : ((exec (step plainStrings referenceGraphify [] (wrongEnviron (some "eighty"))) (List.replicate 13 .advance)
      initial).map fun s => decide (s.todo = [])) = some true := by decide +kernel
  have hhost : ((exec (step plainStrings referenceGraphify [] (wrongEnviron none)) (List.replicate 17 .advance)
      initial).map fun s => decide (s.todo = [])) = some true := by decide +kernel
  have hfirst : firstFailure plainStrings referenceGraphify [] (wrongEnviron (some "eighty")) =
      some (.readPort, .python .valueError) := by decide +kernel
  have hsecond : (firstFailure plainStrings referenceGraphify [] (wrongEnviron none)).map Prod.fst =
      some .validateHost := by decide +kernel
  have hcalm : ∀ n : Nat, ∀ e ∈ List.replicate n (.advance : MainEvent ReferenceGraph), e.disturbs = false := by
    intro n e he
    rw [List.eq_of_mem_replicate he]
    rfl
  obtain ⟨s, hrun, hover⟩ := Option.map_eq_some_iff.mp hport
  obtain ⟨t, hrun', hover'⟩ := Option.map_eq_some_iff.mp hhost
  have hleft := wrong_setting_decides (hcalm 13) hrun (by simpa using hover)
  have hleft' := wrong_setting_decides (hcalm 17) hrun' (by simpa using hover')
  rw [hfirst] at hleft
  obtain ⟨⟨st, e⟩, hfailed, rfl⟩ := Option.map_eq_some_iff.mp hsecond
  rw [hfailed] at hleft'
  exact ⟨⟨s, hrun, hleft.1, hleft.2.2.2.mpr rfl, hleft.2.2.1⟩, t, hrun', hleft'⟩

end MainProcess
end GraphifyDaemon
