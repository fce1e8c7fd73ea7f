import GraphifyDaemon.Vault.Confinement
import GraphifyDaemon.VaultCompiler.ReferenceGraph

/-! What the handler makes of an event, on whatever the file system has become by then. -/
namespace GraphifyDaemon
open Library

variable {κ ν : Type}

/-- `on_any_event`, called when the file system is this. -/
def handleAt (nested : List String) (vaultRoot : AbsolutePath) (tree : FileTree κ) (event : FileSystemEvent) :
    Except PyError (Option FileChange) :=
  onAnyEvent nested (fun p => resolveWithinVault (resolve tree) (p.within vaultRoot) vaultRoot) event

/-- The change is of the event's kind and names its paths. -/
structure FileChange.Tells (c : FileChange) (event : FileSystemEvent) : Prop where
  kind : watchdogEventKind event.eventType = some c.kind
  path : c.path = if c.kind = .renamed then event.destPath else event.srcPath
  previousPath : c.previousPath = if c.kind = .renamed then some event.srcPath else none

def FileSystemEvent.Owed (nested : List String) (cache : ExtractionCache ν) (event : FileSystemEvent) : Prop :=
  event.eventType = .deleted ∧ (cache.get event.srcPath).isSome = true ∧ isExcluded nested event.srcPath = false

/-- The handler returns, with one fitting change or none, and follows up each deletion of a
cached file. -/
structure HandledWell (nested : List String) (vaultRoot : AbsolutePath) (tree : FileTree κ) (cache : ExtractionCache ν)
    (event : FileSystemEvent) : Prop where
  returns : ∃ answer, handleAt nested vaultRoot tree event = .ok answer
  tells : ∀ c, handleAt nested vaultRoot tree event = .ok (some c) → c.Tells event
  owed : event.Owed nested cache → handleAt nested vaultRoot tree event = .ok (some (.deleted event.srcPath))

def FileSystemEvent.LookedUp (nested : List String) (event : FileSystemEvent) : Prop :=
  event.isDirectory = false ∧ event.eventType ∈ [.created, .modified, .deleted] ∧ isExcluded nested event.srcPath = false

def Loopless (vaultRoot : AbsolutePath) (tree : FileTree κ) (p : VaultPath) : Prop :=
  (tree.realpath vaultRoot).isSome = true ∧ (tree.realpath (p.within vaultRoot)).isSome = true

/-- The path leads to a place inside the vault, whether or not anything is there. -/
def LeadsInside (vaultRoot : AbsolutePath) (tree : FileTree κ) (p : VaultPath) : Prop :=
  ∃ root location, tree.realpath vaultRoot = some root ∧ tree.realpath (p.within vaultRoot) = some location ∧
    root <+: location

section Handler
variable {nested : List String} {vaultRoot : AbsolutePath} {tree : FileTree κ} {event : FileSystemEvent}

private theorem resolveWithinVault_ok_iff {p : VaultPath} :
    (∃ answer, resolveWithinVault (resolve tree) (p.within vaultRoot) vaultRoot = .ok answer) ↔
      Loopless vaultRoot tree p := by
  unfold resolveWithinVault resolve Loopless
  cases tree.realpath vaultRoot with
  | none => simp
  | some root => cases tree.realpath (p.within vaultRoot) <;> simp

private theorem resolveWithinVault_some_iff {p : VaultPath} :
    (∃ location, resolveWithinVault (resolve tree) (p.within vaultRoot) vaultRoot = .ok (some location)) ↔
      LeadsInside vaultRoot tree p := by
  unfold resolveWithinVault resolve LeadsInside
  cases tree.realpath vaultRoot with
  | none => simp
  | some root => cases tree.realpath (p.within vaultRoot) <;> simp

theorem handleAt_of_not_lookedUp (h : ¬ event.LookedUp nested) : handleAt nested vaultRoot tree event =
    .ok (if event.isDirectory = false ∧ event.eventType = .moved then some (.renamed event.srcPath event.destPath)
      else none) := by
  unfold handleAt onAnyEvent
  unfold FileSystemEvent.LookedUp at h
  by_cases hdirectory : event.isDirectory = true
  · simp [hdirectory]
  · have hfile : event.isDirectory = false := by simpa using hdirectory
    cases htype : event.eventType with
    | created | modified | deleted =>
      have hexcluded : isExcluded nested event.srcPath = true := by
        simpa [hfile, htype] using h
      simp [hfile, watchdogEventKind, hexcluded]
    | moved | opened | closed | closedNoWrite => simp [hfile, watchdogEventKind]

theorem handleAt_of_lookedUp (h : event.LookedUp nested) :
    ∃ kind, ∃ hkind : kind ≠ .renamed, watchdogEventKind event.eventType = some kind ∧
      handleAt nested vaultRoot tree event =
        match resolveWithinVault (resolve tree) (event.srcPath.within vaultRoot) vaultRoot with
        | .error e => .error e
        | .ok none => .ok none
        | .ok (some _) => .ok (some ⟨event.srcPath, kind, none, by simp [hkind]⟩) := by
  obtain ⟨hfile, htype, hincluded⟩ := h
  have hevent : ∃ kind, kind ≠ .renamed ∧ watchdogEventKind event.eventType = some kind := by
    simp only [List.mem_cons, List.not_mem_nil, or_false] at htype
    rcases htype with htype | htype | htype
    · exact ⟨.created, by decide, by rw [htype]; rfl⟩
    · exact ⟨.modified, by decide, by rw [htype]; rfl⟩
    · exact ⟨.deleted, by decide, by rw [htype]; rfl⟩
  obtain ⟨kind, hkind, hevent⟩ := hevent
  refine ⟨kind, hkind, hevent, ?_⟩
  unfold handleAt onAnyEvent
  cases hanswer : resolveWithinVault (resolve tree) (event.srcPath.within vaultRoot) vaultRoot with
  | error e => simp [hfile, hevent, hincluded, hkind, hanswer]
  | ok location => cases location <;> simp [hfile, hevent, hincluded, hkind, hanswer]

/-- Whatever the handler queues fits the event. -/
theorem handleAt_tells {c : FileChange} (h : handleAt nested vaultRoot tree event = .ok (some c)) : c.Tells event := by
  by_cases hlooked : event.LookedUp nested
  · obtain ⟨kind, hkind, hevent, hhandle⟩ := handleAt_of_lookedUp hlooked
    rw [hhandle] at h
    split at h
    · cases h
    · cases h
    · cases h
      exact ⟨hevent, by simp [hkind], by simp [hkind]⟩
  · rw [handleAt_of_not_lookedUp hlooked] at h
    split_ifs at h with hmoved
    · cases h
      exact ⟨by rw [hmoved.2]; rfl, rfl, rfl⟩
    · cases h

theorem handleAt_returns_iff : (∃ answer, handleAt nested vaultRoot tree event = .ok answer) ↔
    (event.LookedUp nested → Loopless vaultRoot tree event.srcPath) := by
  by_cases hlooked : event.LookedUp nested
  · obtain ⟨kind, hkind, hevent, hhandle⟩ := handleAt_of_lookedUp hlooked
    rw [hhandle, ← resolveWithinVault_ok_iff]
    cases resolveWithinVault (resolve tree) (event.srcPath.within vaultRoot) vaultRoot with
    | error e => simp [hlooked]
    | ok location => cases location <;> simp
  · rw [handleAt_of_not_lookedUp hlooked]
    exact iff_of_true ⟨_, rfl⟩ fun h => absurd h hlooked

/-- A deletion that is owed is queued if it is of a file whose path still leads inside. -/
theorem handleAt_owed_iff {cache : ExtractionCache ν} (h : event.Owed nested cache) :
    handleAt nested vaultRoot tree event = .ok (some (.deleted event.srcPath)) ↔
      event.isDirectory = false ∧ LeadsInside vaultRoot tree event.srcPath := by
  obtain ⟨htype, -, hincluded⟩ := h
  by_cases hfile : event.isDirectory = false
  · have hlooked : event.LookedUp nested := ⟨hfile, by simp [htype], hincluded⟩
    obtain ⟨kind, hkind, hevent, hhandle⟩ := handleAt_of_lookedUp hlooked
    obtain rfl : kind = .deleted := by
      rw [htype] at hevent
      exact (Option.some.inj hevent).symm
    rw [hhandle, ← resolveWithinVault_some_iff]
    cases resolveWithinVault (resolve tree) (event.srcPath.within vaultRoot) vaultRoot with
    | error e => simp
    | ok location => cases location <;> simp [hfile, FileChange.deleted]
  · have hlooked : ¬ event.LookedUp nested := fun hlooked => hfile hlooked.1
    rw [handleAt_of_not_lookedUp hlooked]
    simp [hfile]

/-- The handler is as it should be exactly when the path it looks up runs into no loop and, if it
is a cached file's that was deleted, still leads to a place inside the vault. -/
theorem on_any_event_iff (nested : List String) (vaultRoot : AbsolutePath) (tree : FileTree κ) (cache : ExtractionCache ν)
    (event : FileSystemEvent) : HandledWell nested vaultRoot tree cache event ↔
      (event.LookedUp nested → Loopless vaultRoot tree event.srcPath) ∧
      (event.Owed nested cache → event.isDirectory = false ∧ LeadsInside vaultRoot tree event.srcPath) := by
  constructor
  · intro h
    exact ⟨handleAt_returns_iff.mp h.returns, fun howed => (handleAt_owed_iff howed).mp (h.owed howed)⟩
  · rintro ⟨hloopless, hinside⟩
    exact {
      returns := handleAt_returns_iff.mpr hloopless
      tells := fun c hc => handleAt_tells hc
      owed := fun howed => (handleAt_owed_iff howed).mpr (hinside howed) }

end Handler

/-- A vault whose folder is a link, or whose note is one. -/
def relinked (place : AbsolutePath) (absolute : Bool) (target : List String) : FileTree Nat :=
  (OrderedDict.empty.set ["vault"] .directory).set place (.symlink absolute target)

def folderCached : ExtractionCache Nat := ExtractionCache.empty.set folderNotePath (oneNode "a") none

/-- A note that links to itself makes the handler raise, and the deletion of a cached note is
dropped when its folder has become a link to outside. -/
theorem handler_raises_and_drops :
    handleAt [] ["vault"] (relinked ["vault", "note.md"] false ["note.md"]) ⟨.created, false, notePath, notePath⟩ =
      .error .runtimeError ∧
    ¬ HandledWell [] ["vault"] (relinked ["vault", "note.md"] false ["note.md"]) folderCached
      ⟨.created, false, notePath, notePath⟩ ∧
    handleAt [] ["vault"] (relinked ["vault", "folder"] true ["outside"])
      ⟨.deleted, false, folderNotePath, folderNotePath⟩ = .ok none ∧
    ¬ HandledWell [] ["vault"] (relinked ["vault", "folder"] true ["outside"]) folderCached
      ⟨.deleted, false, folderNotePath, folderNotePath⟩ := by
  refine ⟨rfl, fun h => ?_, rfl, fun h => ?_⟩
  · obtain ⟨answer, hanswer⟩ := h.returns
    cases hanswer
  · cases h.owed ⟨rfl, rfl, rfl⟩

end GraphifyDaemon
