import GraphifyDaemon.VaultCompiler.Exclusions

/-! File changes, batches and the handler that turns a file-system event into a change.
The threads around them are in `GraphifyDaemon.Daemon.WriterLock`. -/
namespace GraphifyDaemon
open Library

inductive ChangeKind where
  | created
  | modified
  | deleted
  | renamed
  deriving DecidableEq

/-- One file's change. The field is what `__post_init__` enforces: a previous path is
required of a rename and forbidden to every other kind. -/
structure FileChange where
  path : VaultPath
  kind : ChangeKind
  previousPath : Option VaultPath
  postInit : previousPath.isSome = decide (kind = .renamed)
  deriving DecidableEq

namespace FileChange

def created (p : VaultPath) : FileChange := ⟨p, .created, none, rfl⟩
def modified (p : VaultPath) : FileChange := ⟨p, .modified, none, rfl⟩
def deleted (p : VaultPath) : FileChange := ⟨p, .deleted, none, rfl⟩
def renamed (source destination : VaultPath) : FileChange := ⟨destination, .renamed, some source, rfl⟩

@[simp] theorem created_path (p : VaultPath) : (created p).path = p := rfl
@[simp] theorem modified_path (p : VaultPath) : (modified p).path = p := rfl
@[simp] theorem deleted_path (p : VaultPath) : (deleted p).path = p := rfl
@[simp] theorem renamed_path (p q : VaultPath) : (renamed p q).path = q := rfl

/-- Every change is one of the four. -/
@[elab_as_elim]
theorem byKind {motive : FileChange → Prop} (hc : ∀ p, motive (created p))
    (hm : ∀ p, motive (modified p)) (hd : ∀ p, motive (deleted p))
    (hr : ∀ source destination, motive (renamed source destination)) (c : FileChange) : motive c := by
  obtain ⟨p, kind, previous, h⟩ := c
  cases kind with
  | created | modified | deleted =>
    have hnone : previous = none := by simpa using h
    subst hnone
    first
      | exact hc p
      | exact hm p
      | exact hd p
  | renamed =>
    obtain ⟨source, rfl⟩ := Option.isSome_iff_exists.mp (by simpa using h)
    exact hr source p

end FileChange

/-- What `watchdog` calls an event. -/
inductive EventType where
  | created
  | modified
  | deleted
  | moved
  | opened
  | closed
  | closedNoWrite
  deriving DecidableEq

structure FileSystemEvent where
  eventType : EventType
  isDirectory : Bool
  srcPath : VaultPath
  destPath : VaultPath
  deriving DecidableEq

/-- `_WATCHDOG_EVENT_KIND.get` -/
def watchdogEventKind : EventType → Option ChangeKind
  | .created => some .created
  | .modified => some .modified
  | .deleted => some .deleted
  | .moved => some .renamed
  | .opened | .closed | .closedNoWrite => none

/-- `on_any_event`: the change handed to `_queue_change`, if any. A move is never
dropped, so that its source is still cleaned up; `confine` is `resolve_within_vault`
of the path at the moment the handler runs. -/
def onAnyEvent (nested : List String) (confine : VaultPath → Except PyError (Option AbsolutePath))
    (event : FileSystemEvent) : Except PyError (Option FileChange) :=
  if event.isDirectory then .ok none
  else match watchdogEventKind event.eventType with
    | none => .ok none
    | some kind =>
      if hk : kind = .renamed then .ok (some (.renamed event.srcPath event.destPath))
      else if isExcluded nested event.srcPath then .ok none
      else match confine event.srcPath with
        | .error e => .error e
        | .ok none => .ok none
        | .ok (some _) => .ok (some ⟨event.srcPath, kind, none, by simp [hk]⟩)

/-- What the handler queues is a move, or the change of a path that passed both checks. -/
theorem onAnyEvent_cases {nested : List String} {confine : VaultPath → Except PyError (Option AbsolutePath)}
    {event : FileSystemEvent} {c : FileChange} (h : onAnyEvent nested confine event = .ok (some c)) :
    event.isDirectory = false ∧ (event.eventType = .moved ∧ c = .renamed event.srcPath event.destPath ∨
      c.kind ≠ .renamed ∧ c.path = event.srcPath ∧ isExcluded nested event.srcPath = false ∧
        ∃ r, confine event.srcPath = .ok (some r)) := by
  unfold onAnyEvent at h
  split at h
  · cases h
  · rename_i hfile
    refine ⟨by simpa using hfile, ?_⟩
    split at h
    · cases h
    · rename_i kind hkind
      split_ifs at h with hk hex
      · cases h
        subst hk
        refine .inl ⟨?_, rfl⟩
        cases htype : event.eventType <;> simp [htype, watchdogEventKind] at hkind
        rfl
      · cases h
      · split at h
        · cases h
        · cases h
        · rename_i r hr
          cases h
          exact .inr ⟨hk, rfl, by simpa using hex, r, hr⟩

/-- Whatever the handler queues, unless it is a move, names a path that is observed
and that was confined when the handler looked. -/
theorem onAnyEvent_admits {nested : List String} {confine : VaultPath → Except PyError (Option AbsolutePath)}
    {event : FileSystemEvent} {c : FileChange} (h : onAnyEvent nested confine event = .ok (some c)) :
    c.kind = .renamed ∨ (isExcluded nested c.path = false ∧ ∃ r, confine c.path = .ok (some r)) := by
  obtain ⟨-, ⟨-, rfl⟩ | ⟨-, hpath, hex, hconfined⟩⟩ := onAnyEvent_cases h
  · exact .inl rfl
  · rw [hpath]
    exact .inr ⟨hex, hconfined⟩

/-- A rename that is queued names the two paths of a move. -/
theorem onAnyEvent_renamed {nested : List String} {confine : VaultPath → Except PyError (Option AbsolutePath)}
    {event : FileSystemEvent} {c : FileChange} (h : onAnyEvent nested confine event = .ok (some c))
    (hc : c.kind = .renamed) :
    event.isDirectory = false ∧ event.eventType = .moved ∧ c = .renamed event.srcPath event.destPath := by
  obtain ⟨hfile, ⟨hmoved, rfl⟩ | ⟨hk, -⟩⟩ := onAnyEvent_cases h
  · exact ⟨hfile, hmoved, rfl⟩
  · exact absurd hc hk

end GraphifyDaemon
