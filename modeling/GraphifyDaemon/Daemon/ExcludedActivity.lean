import GraphifyDaemon.Daemon.Compile
import GraphifyDaemon.VaultCompiler.ReferenceGraph

/-! What activity in excluded places shows of itself: two runs of the handler, the queue
and the compiles, with and without the events whose every path is excluded. -/
namespace GraphifyDaemon
open Library

variable {ν γ τ : Type}

/-- All that a flush depends on besides the pending changes. -/
structure FlushEnvironment (ν : Type) where
  observe : Nat → FileChange → Observation ν
  seen : CompileObservation

/-- An event as the handler gets it, a debounce flush, or an idle cadence cycle. -/
inductive WatcherInput (ν : Type) where
  | event (event : FileSystemEvent) (confine : VaultPath → Except PyError (Option AbsolutePath))
  | flush (environment : FlushEnvironment ν)
  | idle (seen : CadenceObservation)

/-- What one compile or cycle shows: its batch, the version that is published after it and
the slow-cadence change counter. -/
structure Emission where
  changes : List FileChange
  version : Option Nat
  accumulatedChanges : Nat
  deriving DecidableEq

structure Watching (ν γ τ : Type) where
  pending : List FileChange
  daemon : Daemon ν γ τ
  log : List Emission

namespace Watching

def start (d : Daemon ν γ τ) : Watching ν γ τ := ⟨[], d, []⟩

/-- The handler and `_queue_change`. A handler that raises queues nothing. -/
def handle (nested : List String) (event : FileSystemEvent)
    (confine : VaultPath → Except PyError (Option AbsolutePath)) (s : Watching ν γ τ) : Watching ν γ τ :=
  match onAnyEvent nested confine event with
  | .ok (some c) => { s with pending := s.pending ++ [c] }
  | .ok none | .error _ => s

def record (changes : List FileChange) (d : Daemon ν γ τ) (s : Watching ν γ τ) : Watching ν γ τ :=
  { s with daemon := d, log := s.log ++
      [⟨changes, d.holder.current.map GraphSnapshot.version, d.tracker.accumulatedChanges⟩] }

/-- `_flush`, with the compile of what was pending. -/
def flush [Zero ν] (G : Graphify ν γ τ) (nested : List String) (environment : FlushEnvironment ν)
    (s : Watching ν γ τ) : Watching ν γ τ :=
  if s.pending = [] then s
  else
    let batch := s.pending.mapIdx fun i c => (c, environment.observe i c)
    { s with pending := [] }.record s.pending (compileBatch G nested batch environment.seen s.daemon).store

def step [Zero ν] (G : Graphify ν γ τ) (nested : List String) (s : Watching ν γ τ) :
    WatcherInput ν → Watching ν γ τ
  | .event event confine => s.handle nested event confine
  | .flush environment => s.flush G nested environment
  | .idle seen => s.record [] (runSlowCadenceCycle G seen s.daemon).store

def run [Zero ν] (G : Graphify ν γ τ) (nested : List String) (inputs : List (WatcherInput ν))
    (s : Watching ν γ τ) : Watching ν γ τ := inputs.foldl (step G nested) s

end Watching

/-- Every path of the event is excluded. -/
def FileSystemEvent.Hidden (nested : List String) (event : FileSystemEvent) : Prop :=
  isExcluded nested event.srcPath = true ∧ (event.eventType = .moved → isExcluded nested event.destPath = true)

instance (nested : List String) (event : FileSystemEvent) : Decidable (event.Hidden nested) :=
  inferInstanceAs (Decidable (_ ∧ (_ → _)))

def WatcherInput.visible (nested : List String) : WatcherInput ν → Bool
  | .event reported _ => ¬ reported.Hidden nested
  | .flush _ | .idle _ => true

/-- Every path of the change is excluded. -/
def FileChange.Hidden (nested : List String) (c : FileChange) : Prop :=
  isExcluded nested c.path = true ∧ ∀ p ∈ c.previousPath, isExcluded nested p = true

instance (nested : List String) (c : FileChange) : Decidable (c.Hidden nested) :=
  inferInstanceAs (Decidable (_ ∧ ∀ p ∈ c.previousPath, _))

private theorem onAnyEvent_path {nested : List String} {confine : VaultPath → Except PyError (Option AbsolutePath)}
    {event : FileSystemEvent} {c : FileChange} (h : onAnyEvent nested confine event = .ok (some c))
    (hc : c.kind ≠ .renamed) : c.path = event.srcPath := by
  obtain ⟨-, ⟨-, rfl⟩ | ⟨-, hpath, -⟩⟩ := onAnyEvent_cases h
  · exact absurd rfl hc
  · exact hpath

/-- A hidden event that is queued is the move of a file, and its change is hidden. -/
theorem onAnyEvent_of_hidden {nested : List String} {confine : VaultPath → Except PyError (Option AbsolutePath)}
    {event : FileSystemEvent} {c : FileChange} (hhidden : event.Hidden nested)
    (h : onAnyEvent nested confine event = .ok (some c)) :
    event.isDirectory = false ∧ event.eventType = .moved ∧ c.Hidden nested := by
  by_cases hc : c.kind = .renamed
  · obtain ⟨hfile, hmoved, rfl⟩ := onAnyEvent_renamed h hc
    exact ⟨hfile, hmoved, hhidden.2 hmoved, by simpa [FileChange.renamed] using hhidden.1⟩
  · obtain ⟨hkept, -⟩ := (onAnyEvent_admits h).resolve_left hc
    rw [onAnyEvent_path h hc, hhidden.1] at hkept
    cases hkept

/-- A change queued for an event that is not hidden is not hidden. -/
theorem onAnyEvent_of_visible {nested : List String} {confine : VaultPath → Except PyError (Option AbsolutePath)}
    {event : FileSystemEvent} {c : FileChange} (hvisible : ¬ event.Hidden nested)
    (h : onAnyEvent nested confine event = .ok (some c)) : ¬ c.Hidden nested := by
  rintro ⟨hpath, hprevious⟩
  by_cases hc : c.kind = .renamed
  · obtain ⟨-, -, rfl⟩ := onAnyEvent_renamed h hc
    exact hvisible ⟨hprevious event.srcPath rfl, fun _ => hpath⟩
  · obtain ⟨hkept, -⟩ := (onAnyEvent_admits h).resolve_left hc
    rw [hpath] at hkept
    cases hkept

/-- A file moved from one excluded place to another always is queued. -/
theorem onAnyEvent_moved {nested : List String} {confine : VaultPath → Except PyError (Option AbsolutePath)}
    {event : FileSystemEvent} (hfile : event.isDirectory = false) (hmoved : event.eventType = .moved) :
    onAnyEvent nested confine event = .ok (some (.renamed event.srcPath event.destPath)) := by
  simp [onAnyEvent, hfile, hmoved, watchdogEventKind]

/-- The changes of all batches so far. -/
def Watching.emitted (s : Watching ν γ τ) : List FileChange := s.log.flatMap Emission.changes

section Run
variable [Zero ν] {G : Graphify ν γ τ} {nested : List String}

omit [Zero ν] in
private theorem emitted_record (changes : List FileChange) (d : Daemon ν γ τ) (s : Watching ν γ τ) :
    (s.record changes d).emitted = s.emitted ++ changes := by
  simp [Watching.record, Watching.emitted]

/-- The second run has queued and emitted what is not hidden of the first. -/
structure Sifted (nested : List String) (s t : Watching ν γ τ) : Prop where
  pending : t.pending = s.pending.filter fun c => ¬ c.Hidden nested
  emitted : t.emitted = s.emitted.filter fun c => ¬ c.Hidden nested

omit [Zero ν] in
private theorem handle_of_hidden {event : FileSystemEvent} (hhidden : event.Hidden nested)
    (confine : VaultPath → Except PyError (Option AbsolutePath)) (s : Watching ν γ τ) :
    ∃ queued : List FileChange, (∀ c ∈ queued, c.Hidden nested) ∧
      s.handle nested event confine = { s with pending := s.pending ++ queued } ∧
      (queued = [] ∨ event.isDirectory = false ∧ event.eventType = .moved) := by
  unfold Watching.handle
  split
  · rename_i c hc
    obtain ⟨hfile, hmoved, hc⟩ := onAnyEvent_of_hidden hhidden hc
    exact ⟨[c], by simpa using hc, rfl, .inr ⟨hfile, hmoved⟩⟩
  · exact ⟨[], by simp, by simp, .inl rfl⟩
  · exact ⟨[], by simp, by simp, .inl rfl⟩

private theorem filter_of_hidden {queued : List FileChange} (h : ∀ c ∈ queued, c.Hidden nested) :
    queued.filter (fun c => ¬ c.Hidden nested) = [] :=
  List.filter_eq_nil_iff.mpr fun c hc => by simpa using h c hc

private theorem filter_of_visible {queued : List FileChange} (h : ∀ c ∈ queued, ¬ c.Hidden nested) :
    queued.filter (fun c => ¬ c.Hidden nested) = queued :=
  List.filter_eq_self.mpr fun c hc => by simpa using h c hc

/-- A flush leaves nothing queued. -/
theorem pending_flush (environment : FlushEnvironment ν) (s : Watching ν γ τ) :
    (s.step G nested (.flush environment)).pending = [] := by
  simp only [Watching.step, Watching.flush]
  split_ifs with hempty
  · exact hempty
  · rfl

/-- It emits what was queued. -/
theorem emitted_flush (environment : FlushEnvironment ν) (s : Watching ν γ τ) :
    (s.step G nested (.flush environment)).emitted = s.emitted ++ s.pending := by
  simp only [Watching.step, Watching.flush]
  split_ifs with hempty
  · simp [hempty]
  · exact emitted_record _ _ _

omit [Zero ν] in
private theorem handle_of_visible {event : FileSystemEvent} (hvisible : ¬ event.Hidden nested)
    (confine : VaultPath → Except PyError (Option AbsolutePath)) (s t : Watching ν γ τ) :
    ∃ queued : List FileChange, (∀ c ∈ queued, ¬ c.Hidden nested) ∧
      s.handle nested event confine = { s with pending := s.pending ++ queued } ∧
      t.handle nested event confine = { t with pending := t.pending ++ queued } := by
  unfold Watching.handle
  split
  · rename_i c hc
    exact ⟨[c], by simpa using onAnyEvent_of_visible hvisible hc, rfl, rfl⟩
  · exact ⟨[], by simp, by simp, by simp⟩
  · exact ⟨[], by simp, by simp, by simp⟩

private theorem sifted_run {inputs : List (WatcherInput ν)} {s t : Watching ν γ τ} (h : Sifted nested s t) :
    Sifted nested (s.run G nested inputs) (t.run G nested (inputs.filter (WatcherInput.visible nested))) := by
  induction inputs generalizing s t with
  | nil => exact h
  | cons input rest ih =>
    cases input with
    | event event confine =>
      by_cases hhidden : event.Hidden nested
      · rw [List.filter_cons_of_neg (by simpa [WatcherInput.visible] using hhidden)]
        refine ih ?_
        obtain ⟨queued, hqueued, hstep, -⟩ := handle_of_hidden hhidden confine s
        rw [Watching.step, hstep]
        refine ⟨?_, h.emitted⟩
        dsimp only
        rw [List.filter_append, filter_of_hidden hqueued, List.append_nil]
        exact h.pending
      · rw [List.filter_cons_of_pos (by simpa [WatcherInput.visible] using hhidden)]
        refine ih ?_
        obtain ⟨queued, hqueued, hs, ht⟩ := handle_of_visible hhidden confine s t
        rw [Watching.step, Watching.step, hs, ht]
        refine ⟨?_, h.emitted⟩
        dsimp only
        rw [List.filter_append, filter_of_visible hqueued, h.pending]
    | flush environment =>
      rw [List.filter_cons_of_pos rfl]
      refine ih (s := s.step G nested (.flush environment)) (t := t.step G nested (.flush environment)) ?_
      refine ⟨?_, ?_⟩
      · rw [pending_flush, pending_flush, List.filter_nil]
      · rw [emitted_flush, emitted_flush, List.filter_append, h.emitted, h.pending]
    | idle seen =>
      rw [List.filter_cons_of_pos rfl]
      refine ih (s := s.step G nested (.idle seen)) (t := t.step G nested (.idle seen)) ⟨h.pending, ?_⟩
      rw [Watching.step, Watching.step, emitted_record, emitted_record, List.append_nil, List.append_nil, h.emitted]

/-- Whatever is queued is emitted by the next flush, and stays so. -/
theorem emitted_run {inputs : List (WatcherInput ν)} {c : FileChange} {s : Watching ν γ τ}
    (h : c ∈ s.emitted ∨ (c ∈ s.pending ∧ ∃ environment, .flush environment ∈ inputs)) :
    c ∈ (s.run G nested inputs).emitted := by
  induction inputs generalizing s with
  | nil =>
    rcases h with hemitted | ⟨-, environment, hflush⟩
    · exact hemitted
    · cases hflush
  | cons input rest ih =>
    refine ih ?_
    cases input with
    | event event confine =>
      have hkept : (s.step G nested (.event event confine)).emitted = s.emitted ∧
          s.pending ⊆ (s.step G nested (.event event confine)).pending := by
        simp only [Watching.step, Watching.handle]
        split
        · exact ⟨rfl, by simp⟩
        · exact ⟨rfl, List.Subset.refl _⟩
        · exact ⟨rfl, List.Subset.refl _⟩
      rw [hkept.1]
      exact h.imp_right fun ⟨hpending, environment, hflush⟩ =>
        ⟨hkept.2 hpending, environment, by simpa using hflush⟩
    | flush environment =>
      left
      rw [emitted_flush]
      exact List.mem_append.mpr (h.imp_right And.left)
    | idle seen =>
      rw [Watching.step, emitted_record, List.append_nil]
      exact h.imp_right fun ⟨hpending, environment, hflush⟩ => ⟨hpending, environment, by simpa using hflush⟩

/-- No file is moved from one excluded place to another before a flush. -/
def NeverFlushed (nested : List String) (inputs : List (WatcherInput ν)) : Prop :=
  ∀ before event confine after, inputs = before ++ .event event confine :: after → event.isDirectory = false →
    event.eventType = .moved → isExcluded nested event.srcPath = true → isExcluded nested event.destPath = true →
    ∀ environment, .flush environment ∉ after

/-- Without such a move the two runs differ at most in hidden changes that no flush takes. -/
theorem run_of_neverFlushed {inputs : List (WatcherInput ν)} (hmoves : NeverFlushed nested inputs) {s t : Watching ν γ τ}
    (hpending : t.pending = s.pending.filter fun c => ¬ c.Hidden nested) (hdaemon : t.daemon = s.daemon)
    (hlog : t.log = s.log) (hhidden : (∀ c ∈ s.pending, ¬ c.Hidden nested) ∨ ∀ environment, .flush environment ∉ inputs) :
    (t.run G nested (inputs.filter (WatcherInput.visible nested))).log = (s.run G nested inputs).log := by
  induction inputs generalizing s t with
  | nil => exact hlog
  | cons input rest ih =>
    have hrest : NeverFlushed nested rest := fun before event confine after hsplit =>
      hmoves (input :: before) event confine after (by rw [hsplit, List.cons_append])
    have hlater : (∀ environment, .flush environment ∉ input :: rest) → ∀ environment, .flush environment ∉ rest :=
      fun h environment hflush => h environment (List.mem_cons_of_mem _ hflush)
    cases input with
    | event event confine =>
      by_cases hevent : event.Hidden nested
      · rw [List.filter_cons_of_neg (by simpa [WatcherInput.visible] using hevent)]
        obtain ⟨queued, hqueued, hstep, hmoved⟩ := handle_of_hidden hevent confine s
        refine ih hrest ?_ ?_ ?_ ?_ <;> rw [Watching.step, hstep] <;> try assumption
        · dsimp only
          rw [List.filter_append, filter_of_hidden hqueued, List.append_nil, hpending]
        · rcases hmoved with rfl | ⟨hfile, hmoved⟩
          · simpa using hhidden.imp_right hlater
          · exact .inr (hmoves [] event confine rest rfl hfile hmoved hevent.1 (hevent.2 hmoved))
      · rw [List.filter_cons_of_pos (by simpa [WatcherInput.visible] using hevent)]
        obtain ⟨queued, hqueued, hs, ht⟩ := handle_of_visible hevent confine s t
        refine ih hrest ?_ ?_ ?_ ?_ <;> simp only [Watching.step, hs, ht]
        · rw [List.filter_append, filter_of_visible hqueued, hpending]
        · exact hdaemon
        · exact hlog
        · refine hhidden.imp (fun h c hc => ?_) hlater
          exact (List.mem_append.mp hc).elim (h c) (hqueued c)
    | flush environment =>
      rw [List.filter_cons_of_pos rfl]
      have hvisible : ∀ c ∈ s.pending, ¬ c.Hidden nested :=
        hhidden.resolve_right fun h => h environment (List.mem_cons_self ..)
      have hsame : t.pending = s.pending := by rw [hpending, filter_of_visible hvisible]
      have heq : t = s := by
        cases s
        cases t
        cases hsame
        cases hdaemon
        cases hlog
        rfl
      subst heq
      refine ih (s := t.step G nested (.flush environment)) (t := t.step G nested (.flush environment)) hrest ?_ rfl rfl
        (.inl ?_)
      · rw [pending_flush, List.filter_nil]
      · simp [pending_flush]
    | idle seen =>
      rw [List.filter_cons_of_pos rfl]
      refine ih (s := s.step G nested (.idle seen)) (t := t.step G nested (.idle seen)) hrest hpending ?_ ?_
        (hhidden.imp_right hlater) <;>
        simp only [Watching.step, Watching.record, hdaemon, hlog]

/-- Hidden activity shows nothing of itself exactly when no file is moved from one excluded
place to another before a flush. -/
theorem excluded_activity_invisible_iff (G : Graphify ν γ τ) (nested : List String) (inputs : List (WatcherInput ν))
    (d : Daemon ν γ τ) :
    ((Watching.start d).run G nested (inputs.filter (WatcherInput.visible nested))).log =
        ((Watching.start d).run G nested inputs).log ↔ NeverFlushed nested inputs := by
  constructor
  · intro h before event confine after hsplit hfile hmoved hsource hdestination environment hflush
    have hsifted : Sifted nested ((Watching.start d).run G nested inputs)
        ((Watching.start d).run G nested (inputs.filter (WatcherInput.visible nested))) := sifted_run ⟨rfl, rfl⟩
    have hemitted : .renamed event.srcPath event.destPath ∈ ((Watching.start d).run G nested inputs).emitted := by
      rw [hsplit, Watching.run, List.foldl_append, List.foldl_cons]
      refine emitted_run (.inr ⟨?_, environment, hflush⟩)
      simp [Watching.step, Watching.handle, onAnyEvent_moved hfile hmoved]
    have hsame := hsifted.emitted
    rw [Watching.emitted, h, ← Watching.emitted] at hsame
    rw [hsame] at hemitted
    have hhidden : (FileChange.renamed event.srcPath event.destPath).Hidden nested :=
      ⟨hdestination, by simpa [FileChange.renamed] using hsource⟩
    exact absurd hhidden (by simpa using (List.mem_filter.mp hemitted).2)
  · intro h
    exact run_of_neverFlushed h rfl rfl rfl (.inl (by simp [Watching.start]))

end Run

def trackedPath : VaultPath := ⟨[".git", "a.md"], by decide⟩
def renamedPath : VaultPath := ⟨[".git", "b.md"], by decide⟩

/-- Git renames one of its files, and the debounce window ends. -/
def movedWithinGit : List (WatcherInput Nat) :=
  [.event ⟨.moved, false, trackedPath, renamedPath⟩ fun _ => .ok none,
    .flush ⟨fun _ _ => .calm (oneNode "a") 1, .calm⟩]

/-- What `main` starts with, on an empty vault. -/
def watchingEmpty : Watching Nat ReferenceGraph Unit := .start (Daemon.initial 0)

/-- The one change is compiled and a snapshot published. -/
theorem excluded_move_visible :
    (watchingEmpty.run referenceGraphify [] movedWithinGit).log =
      [⟨[.renamed trackedPath renamedPath], some 1, 1⟩] ∧
    (watchingEmpty.run referenceGraphify [] (movedWithinGit.filter (WatcherInput.visible []))).log = [] := by
  constructor <;> rfl

end GraphifyDaemon
