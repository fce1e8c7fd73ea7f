import GraphifyDaemon.ArtifactLifecycle.BatchMeaning
import GraphifyDaemon.VaultCompiler.ReferenceGraph

/-! A vault of regular files, its operations with the events they deliver, and what the
daemon's reads and `stat` calls answer there. -/
namespace GraphifyDaemon
open Library

variable {ν κ : Type}

structure File (κ ν : Type) where
  content : κ
  mtime : ν
  size : Nat
  deriving DecidableEq

abbrev Vault (κ ν : Type) := OrderedDict VaultPath (File κ ν)

inductive VaultOp (κ ν : Type) where
  | write (p : VaultPath) (file : File κ ν)
  | delete (p : VaultPath)
  | rename (source destination : VaultPath)
  deriving DecidableEq

def fileEvent (type : EventType) (source destination : VaultPath) : FileSystemEvent :=
  ⟨type, false, source, destination⟩

/-- The vault after an operation that is possible there, and the event it delivers. -/
def applyOp (op : VaultOp κ ν) (vault : Vault κ ν) : Option (Vault κ ν × FileSystemEvent) :=
  match op with
  | .write p file =>
    some (vault.set p file, fileEvent (if (vault.get p).isSome then .modified else .created) p p)
  | .delete p => if (vault.get p).isSome then some (vault.erase p, fileEvent .deleted p p) else none
  | .rename source destination => match vault.get source with
    | some file =>
      if source = destination then none
      else some ((vault.erase source).set destination file, fileEvent .moved source destination)
    | none => none

/-- What the extractor answers for a file of the vault, or for none. -/
def readFile (extractor : VaultPath → κ → Json ν) (vault : Vault κ ν) (p : VaultPath) : Except PyError (Json ν) :=
  match vault.get p with
  | some file => .ok (extractor p file.content)
  | none => .error .fileNotFoundError

/-- `Path.stat` -/
def statFile (vault : Vault κ ν) (p : VaultPath) : StatOutcome ν :=
  match vault.get p with
  | some file => .found file.mtime file.size
  | none => .missing

/-- The extraction of a content. -/
def extracted (extractor : VaultPath → κ → Json ν) (p : VaultPath) (content : κ) : Option (PyDict ν) :=
  extractFileWithFailureIsolation (.ok (extractor p content)) p

/-- The entry that `p` has in a cache that is up to date. -/
def expectedEntry (extractor : VaultPath → κ → Json ν) (vault : Vault κ ν) (p : VaultPath) : Option (PyDict ν) :=
  (vault.get p).bind (fun file => extracted extractor p file.content)

/-- The extractor succeeds on every file that is not excluded. -/
def Succeeds (nested : List String) (extractor : VaultPath → κ → Json ν) : Prop :=
  ∀ p content, isExcluded nested p = false → (extracted extractor p content).isSome = true

theorem extract_readFile (extractor : VaultPath → κ → Json ν) (vault : Vault κ ν) (p : VaultPath) :
    extractFileWithFailureIsolation (readFile extractor vault p) p = expectedEntry extractor vault p := by
  unfold readFile expectedEntry
  cases vault.get p with
  | some file => rfl
  | none => exact extractFileWithFailureIsolation_error _ p

theorem expectedEntry_isSome {nested : List String} {extractor : VaultPath → κ → Json ν}
    (hsucceeds : Succeeds nested extractor) {vault : Vault κ ν} {p : VaultPath} (hp : isExcluded nested p = false)
    (h : (vault.get p).isSome = true) : (expectedEntry extractor vault p).isSome = true := by
  obtain ⟨file, hfile⟩ := Option.isSome_iff_exists.mp h
  rw [expectedEntry, hfile]
  exact hsucceeds p file.content hp

/-- The content that `p` has, if any, is one that the extractor succeeds on. -/
def ExtractsAt (extractor : VaultPath → κ → Json ν) (vault : Vault κ ν) (p : VaultPath) : Prop :=
  (vault.get p).isSome = true → (expectedEntry extractor vault p).isSome = true

theorem expectedEntry_congr (extractor : VaultPath → κ → Json ν) {vault vault' : Vault κ ν} {p : VaultPath}
    (h : vault'.get p = vault.get p) : expectedEntry extractor vault' p = expectedEntry extractor vault p := by
  rw [expectedEntry, h, expectedEntry]

theorem ExtractsAt.congr {extractor : VaultPath → κ → Json ν} {vault vault' : Vault κ ν} {p : VaultPath}
    (hp : ExtractsAt extractor vault p) (h : vault'.get p = vault.get p) : ExtractsAt extractor vault' p := by
  rw [ExtractsAt, h, expectedEntry_congr extractor h]
  exact hp

theorem expectedEntry_eq_none (extractor : VaultPath → κ → Json ν) {vault : Vault κ ν} {p : VaultPath}
    (h : (vault.get p).isSome = false) : expectedEntry extractor vault p = none := by
  have hnone : vault.get p = none := by simpa using h
  rw [expectedEntry, hnone]
  rfl

/-- The content of a note names its one node. -/
def titleExtractor (_ : VaultPath) (title : String) : Json Nat := .obj (oneNode title)

theorem titleExtractor_succeeds (nested : List String) : Succeeds nested titleExtractor := by
  intro p title hp
  have hsuffix : suffix p ∈ OBSERVED_SUFFIXES := by
    by_contra hnot
    simp [isExcluded, hnot] at hp
  unfold extracted extractFileWithFailureIsolation extractFile
  rw [if_neg (not_not.mpr hsuffix)]
  rfl

/-- Regular files resolve to themselves. -/
def regular (p : VaultPath) : Except PyError (Option AbsolutePath) := .ok (some p.parts)

/-- The change the handler queues for an event on regular files. -/
def changeOf (nested : List String) (event : FileSystemEvent) : Option FileChange :=
  match onAnyEvent nested regular event with
  | .ok c => c
  | .error _ => none

/-- What a change says of `p`: that it is there, that it is gone, or nothing. -/
def effectOn (nested : List String) (p : VaultPath) (c : FileChange) : Option Bool :=
  if c.reaches nested p then some true else if c.drops p then some false else none

/-- What the last change that says something of `p` says. -/
def lastEffect (nested : List String) (p : VaultPath) : List FileChange → Option Bool
  | [] => none
  | c :: rest => (lastEffect nested p rest).or (effectOn nested p c)

@[simp] theorem lastEffect_nil (nested : List String) (p : VaultPath) : lastEffect nested p [] = none := rfl

theorem lastEffect_cons (nested : List String) (p : VaultPath) (c : FileChange) (rest : List FileChange) :
    lastEffect nested p (c :: rest) = (lastEffect nested p rest).or (effectOn nested p c) := rfl

theorem lastEffect_append (nested : List String) (p : VaultPath) (xs ys : List FileChange) :
    lastEffect nested p (xs ++ ys) = (lastEffect nested p ys).or (lastEffect nested p xs) := by
  induction xs with
  | nil => simp
  | cons c xs ih => rw [List.cons_append, lastEffect_cons, ih, lastEffect_cons, Option.or_assoc]

theorem effectOn_eq_none_iff (nested : List String) (p : VaultPath) (c : FileChange) :
    effectOn nested p c = none ↔ ¬ c.reaches nested p ∧ ¬ c.drops p := by
  unfold effectOn
  split_ifs <;> simp_all

private theorem changeOf_created (nested : List String) (p q : VaultPath) :
    changeOf nested (fileEvent .created p q) = if isExcluded nested p then none else some (.created p) := by
  cases h : isExcluded nested p <;>
    simp [changeOf, onAnyEvent, fileEvent, watchdogEventKind, regular, h, FileChange.created]

private theorem changeOf_modified (nested : List String) (p q : VaultPath) :
    changeOf nested (fileEvent .modified p q) = if isExcluded nested p then none else some (.modified p) := by
  cases h : isExcluded nested p <;>
    simp [changeOf, onAnyEvent, fileEvent, watchdogEventKind, regular, h, FileChange.modified]

private theorem changeOf_deleted (nested : List String) (p q : VaultPath) :
    changeOf nested (fileEvent .deleted p q) = if isExcluded nested p then none else some (.deleted p) := by
  cases h : isExcluded nested p <;>
    simp [changeOf, onAnyEvent, fileEvent, watchdogEventKind, regular, h, FileChange.deleted]

private theorem changeOf_moved (nested : List String) (p q : VaultPath) :
    changeOf nested (fileEvent .moved p q) = some (.renamed p q) := by
  simp [changeOf, onAnyEvent, fileEvent, watchdogEventKind]

private theorem effectOn_created (nested : List String) (p q : VaultPath) :
    effectOn nested p (.created q) = if q = p then some true else none := by
  simp [effectOn, FileChange.reaches, FileChange.drops]

private theorem effectOn_modified (nested : List String) (p q : VaultPath) :
    effectOn nested p (.modified q) = if q = p then some true else none := by
  simp [effectOn, FileChange.reaches, FileChange.drops]

private theorem effectOn_deleted (nested : List String) (p q : VaultPath) :
    effectOn nested p (.deleted q) = if q = p then some false else none := by
  simp [effectOn, FileChange.reaches, FileChange.drops]

private theorem effectOn_renamed (nested : List String) (p source destination : VaultPath)
    (hp : isExcluded nested p = false) :
    effectOn nested p (.renamed source destination) =
      if destination = p then some true else if source = p then some false else none := by
  by_cases hd : destination = p
  · subst hd
    simp [effectOn, FileChange.reaches, hp]
  · simp [effectOn, FileChange.reaches, FileChange.drops, hd]

/-- An operation on `p` delivers a change that tells what became of `p`, and one that
tells nothing of `p` leaves it alone. -/
theorem applyOp_effect {nested : List String} {op : VaultOp κ ν} {vault vault' : Vault κ ν} {event : FileSystemEvent}
    (h : applyOp op vault = some (vault', event)) {p : VaultPath} (hp : isExcluded nested p = false) :
    match lastEffect nested p (changeOf nested event).toList with
    | some there => (vault'.get p).isSome = there
    | none => vault'.get p = vault.get p := by
  cases op with
  | write q file =>
    simp only [applyOp, Option.some.injEq, Prod.mk.injEq] at h
    obtain ⟨rfl, rfl⟩ := h
    rw [OrderedDict.get_set]
    by_cases hq : q = p
    · subst hq
      rw [if_pos rfl]
      split_ifs <;> simp [changeOf_created, changeOf_modified, hp, lastEffect_cons, effectOn_created, effectOn_modified]
    · split_ifs <;> cases hex : isExcluded nested q <;>
        simp [changeOf_created, changeOf_modified, hex, lastEffect_cons, effectOn_created, effectOn_modified, hq]
  | delete q =>
    simp only [applyOp] at h
    split_ifs at h
    simp only [Option.some.injEq, Prod.mk.injEq] at h
    obtain ⟨rfl, rfl⟩ := h
    rw [OrderedDict.get_erase, changeOf_deleted]
    by_cases hq : q = p
    · subst hq
      simp [hp, lastEffect_cons, effectOn_deleted]
    · cases hex : isExcluded nested q <;> simp [lastEffect_cons, effectOn_deleted, hq]
  | rename source destination =>
    simp only [applyOp] at h
    split at h
    · split_ifs at h with hne
      simp only [Option.some.injEq, Prod.mk.injEq] at h
      obtain ⟨rfl, rfl⟩ := h
      rw [OrderedDict.get_set, OrderedDict.get_erase, changeOf_moved]
      simp only [Option.toList_some, lastEffect_cons, lastEffect_nil, Option.none_or, effectOn_renamed _ _ _ _ hp]
      by_cases hd : destination = p
      · simp [hd]
      · by_cases hs : source = p <;> simp [hd, hs]
    · cases h

/-- The handler queues nothing that goes on to an excluded path. -/
theorem changeOf_admitted {nested : List String} {event : FileSystemEvent} {c : FileChange}
    (h : changeOf nested event = some c) (hreach : c.reachesPath nested = true) : isExcluded nested c.path = false := by
  have hevent : onAnyEvent nested regular event = .ok (some c) := by
    unfold changeOf at h
    split at h
    · rename_i hok
      rw [hok, h]
    · cases h
  rcases onAnyEvent_admits hevent with hrenamed | ⟨hadmitted, -⟩
  · simpa [FileChange.reachesPath, hrenamed] using hreach
  · exact hadmitted

end GraphifyDaemon
