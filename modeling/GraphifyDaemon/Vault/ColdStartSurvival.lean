import GraphifyDaemon.ArtifactLifecycle.IndexRebuild
import GraphifyDaemon.ArtifactLifecycle.ResultShape
import GraphifyDaemon.VaultCompiler.ReferenceGraph
import GraphifyDaemon.Vault.Confinement

/-! Which vaults a cold start gets through, when links may dangle or loop and files may vanish
between any two calls of its walk. -/
namespace GraphifyDaemon
open Library

variable {ν γ τ : Type}

/-- The vault on disk: of each file, its modification time and size. -/
abbrev VaultTree (ν : Type) := FileTree (ν × Nat)

/-- `Path.is_dir`. What can fail in a tree, a missing place or a loop of links, it takes for a no;
permissions and the length of names, where it raises, are no part of these trees. -/
def isDirAt (tree : VaultTree ν) (path : AbsolutePath) : Bool :=
  match tree.locate path with
  | .ok place => match tree.get place with
    | some .directory => true
    | _ => place = []
  | .error _ => false

/-- `Path.stat`; `directory` is what it tells of a directory. -/
def statAt (directory : ν × Nat) (tree : VaultTree ν) (path : AbsolutePath) : StatOutcome ν :=
  match tree.locate path with
  | .error .notFound => .missing
  | .error .notDirectory => .failed (.otherOSError 20)
  | .error .loop => .failed (.otherOSError 40)
  | .ok place => match tree.get place with
    | some (.file (mtime, size)) => .found mtime size
    | _ => .found directory.1 directory.2

/-- One path that the walk yields: what vanishes before `is_dir`, before each of the two calls of
`resolve` and before `stat`, and what the extraction then meets. -/
structure Visit (ν : Type) where
  path : VaultPath
  beforeIsDir : List AbsolutePath
  beforeRoot : List AbsolutePath
  beforeResolve : List AbsolutePath
  beforeStat : List AbsolutePath
  extractor : Except PyError (Json ν)

/-- A visit, with the vault as each of its calls finds it. -/
structure VisitedVault (ν : Type) where
  visit : Visit ν
  atIsDir : VaultTree ν
  atRoot : VaultTree ν
  atResolve : VaultTree ν
  atStat : VaultTree ν

def vanished (places : List AbsolutePath) (tree : VaultTree ν) : VaultTree ν :=
  places.foldl (fun tree place => tree.remove place) tree

def Visit.inVault (v : Visit ν) (tree : VaultTree ν) : VisitedVault ν :=
  let atIsDir := vanished v.beforeIsDir tree
  let atRoot := vanished v.beforeRoot atIsDir
  let atResolve := vanished v.beforeResolve atRoot
  ⟨v, atIsDir, atRoot, atResolve, vanished v.beforeStat atResolve⟩

/-- The visits of a walk, each in the vault that the one before left. -/
def visitedIn : VaultTree ν → List (Visit ν) → List (VisitedVault ν)
  | _, [] => []
  | tree, v :: rest => v.inVault tree :: visitedIn (v.inVault tree).atStat rest

namespace VisitedVault
variable (vaultRoot : AbsolutePath) (directory : ν × Nat)

/-- `resolve`, called on the root first. -/
def resolved (v : VisitedVault ν) (path : AbsolutePath) : Except PyError AbsolutePath :=
  if path = vaultRoot then resolve v.atRoot path else resolve v.atResolve path

/-- What the calls of the visit answer. -/
def entry (v : VisitedVault ν) : WalkEntry ν where
  path := v.visit.path
  isDir := .ok (isDirAt v.atIsDir (v.visit.path.within vaultRoot))
  confined := match resolveWithinVault (v.resolved vaultRoot) (v.visit.path.within vaultRoot) vaultRoot with
    | .error e => .error e
    | .ok location => .ok location.isSome
  stat := statAt directory v.atStat (v.visit.path.within vaultRoot)
  extractor := v.visit.extractor

/-- No directory, and nothing that the rules exclude. -/
def Admissible (nested : List String) (v : VisitedVault ν) : Prop :=
  isDirAt v.atIsDir (v.visit.path.within vaultRoot) = false ∧ isExcluded nested v.visit.path = false

/-- Neither the vault root nor the path runs into a loop of links. -/
def Resolves (v : VisitedVault ν) : Prop :=
  ∀ path ∈ [vaultRoot, v.visit.path.within vaultRoot], ∃ location, v.resolved vaultRoot path = .ok location

def Inside (v : VisitedVault ν) : Prop :=
  ∃ location, resolveWithinVault (v.resolved vaultRoot) (v.visit.path.within vaultRoot) vaultRoot = .ok (some location)

/-- There is something where the path leads when `stat` is called. -/
def Exists (v : VisitedVault ν) : Prop := ∃ place, v.atStat.locate (v.visit.path.within vaultRoot) = .ok place

/-- The walk takes the path for a file of the vault. -/
def Observed (nested : List String) (v : VisitedVault ν) : Prop :=
  v.Admissible vaultRoot nested ∧ v.Inside vaultRoot ∧ v.Exists vaultRoot

/-- The path raises in none of the walk's calls. -/
def Survives (nested : List String) (v : VisitedVault ν) : Prop :=
  v.Admissible vaultRoot nested → v.Resolves vaultRoot ∧ (v.Inside vaultRoot → v.Exists vaultRoot)

def extraction (v : VisitedVault ν) : Option (PyDict ν) := extractFileWithFailureIsolation v.visit.extractor v.visit.path

end VisitedVault

/-- The walk of a cold start over a vault. -/
def walkOf (vaultRoot : AbsolutePath) (directory : ν × Nat) (tree : VaultTree ν) (visits : List (Visit ν)) :
    List (WalkEntry ν) :=
  (visitedIn tree visits).map (VisitedVault.entry vaultRoot directory)

section Calls
variable {vaultRoot : AbsolutePath} {directory : ν × Nat} {nested : List String} {v : VisitedVault ν}

variable (directory) in
private theorem statAt_found_iff :
    (∃ mtime size, statAt directory v.atStat (v.visit.path.within vaultRoot) = .found mtime size) ↔
    v.Exists vaultRoot := by
  unfold statAt VisitedVault.Exists
  cases v.atStat.locate (v.visit.path.within vaultRoot) with
  | error e => cases e <;> simp
  | ok place =>
    refine iff_of_true ?_ ⟨place, rfl⟩
    dsimp only
    split
    · exact ⟨_, _, rfl⟩
    · exact ⟨_, _, rfl⟩

private theorem resolves_iff : v.Resolves vaultRoot ↔
    ∃ answer, resolveWithinVault (v.resolved vaultRoot) (v.visit.path.within vaultRoot) vaultRoot = .ok answer := by
  unfold VisitedVault.Resolves resolveWithinVault
  cases hroot : v.resolved vaultRoot vaultRoot with
  | error e => simp [hroot]
  | ok root => cases hpath : v.resolved vaultRoot (v.visit.path.within vaultRoot) <;> simp [hroot, hpath]

/-- A visit that is not admissible is passed over. -/
theorem observe_of_not_admissible (h : ¬ v.Admissible vaultRoot nested) :
    observe nested (v.entry vaultRoot directory) = .ok none := by
  unfold observe VisitedVault.entry
  dsimp only
  split_ifs with hskip hexcluded
  · rfl
  · rfl
  · rw [not_or] at hskip
    exact absurd ⟨by simpa using hskip.1, by simpa using hexcluded⟩ h

/-- An admissible one is resolved, and inside the vault it is stat-ed. -/
theorem observe_of_admissible (h : v.Admissible vaultRoot nested) :
    observe nested (v.entry vaultRoot directory) =
      match resolveWithinVault (v.resolved vaultRoot) (v.visit.path.within vaultRoot) vaultRoot with
      | .error e => .error e
      | .ok none => .ok none
      | .ok (some _) => match statAt directory v.atStat (v.visit.path.within vaultRoot) with
        | .missing => .error .fileNotFoundError
        | .failed e => .error e
        | .found mtime _ => .ok (some ⟨v.visit.path, mtime, v.extraction⟩) := by
  obtain ⟨hfile, hincluded⟩ := h
  have hsuffix := suffix_of_not_excluded hincluded
  unfold observe VisitedVault.entry
  simp only [hfile, hincluded, hsuffix, not_true_eq_false, or_self, Bool.false_eq_true, if_false]
  cases resolveWithinVault (v.resolved vaultRoot) (v.visit.path.within vaultRoot) vaultRoot with
  | error e => rfl
  | ok location => cases location <;> rfl

/-- A visit raises nothing exactly when it survives. -/
theorem observe_completes_iff :
    (∃ answer, observe nested (v.entry vaultRoot directory) = .ok answer) ↔ v.Survives vaultRoot nested := by
  unfold VisitedVault.Survives
  by_cases hadmissible : v.Admissible vaultRoot nested
  · rw [observe_of_admissible hadmissible, resolves_iff, VisitedVault.Inside, ← statAt_found_iff directory]
    cases resolveWithinVault (v.resolved vaultRoot) (v.visit.path.within vaultRoot) vaultRoot with
    | error e => simp [hadmissible]
    | ok location => cases location with
      | none => simp
      | some location =>
        cases statAt directory v.atStat (v.visit.path.within vaultRoot) <;> simp [hadmissible]
  · exact iff_of_true ⟨none, observe_of_not_admissible hadmissible⟩ fun h => absurd h hadmissible

/-- It observes its path as a file of the vault, or none. -/
theorem observe_file_iff {file : SeenFile ν} (h : observe nested (v.entry vaultRoot directory) = .ok (some file)) :
    v.Observed vaultRoot nested ∧ file.path = v.visit.path ∧ file.result = v.extraction := by
  by_cases hadmissible : v.Admissible vaultRoot nested
  · rw [observe_of_admissible hadmissible] at h
    split at h
    · cases h
    · cases h
    · rename_i location hinside
      split at h
      · cases h
      · cases h
      · rename_i mtime size hstat
        cases h
        exact ⟨⟨hadmissible, ⟨location, hinside⟩, (statAt_found_iff directory).mp ⟨mtime, size, hstat⟩⟩, rfl, rfl⟩
  · rw [observe_of_not_admissible hadmissible] at h
    cases h

variable (directory) in
private theorem observe_of_observed (h : v.Observed vaultRoot nested) :
    ∃ mtime, observe nested (v.entry vaultRoot directory) = .ok (some ⟨v.visit.path, mtime, v.extraction⟩) := by
  obtain ⟨hadmissible, ⟨location, hinside⟩, hexists⟩ := h
  obtain ⟨mtime, size, hstat⟩ := (statAt_found_iff directory).mpr hexists
  refine ⟨mtime, ?_⟩
  rw [observe_of_admissible hadmissible]
  simp only [hinside, hstat]

end Calls

/-- A walk completes when each of its rounds does, and has seen what they saw. -/
theorem observeWalk_completes_iff {nested : List String} {walk : List (WalkEntry ν)} :
    (∃ seen, observeWalk nested walk = .ok seen) ↔ ∀ entry ∈ walk, ∃ answer, observe nested entry = .ok answer := by
  induction walk with
  | nil => simp [observeWalk]
  | cons entry rest ih =>
    rw [List.forall_mem_cons, ← ih, observeWalk]
    cases observe nested entry with
    | error e => simp
    | ok answer => cases observeWalk nested rest <;> simp

private theorem mem_observeWalk {nested : List String} {walk : List (WalkEntry ν)} {seen : List (SeenFile ν)}
    (h : observeWalk nested walk = .ok seen) (file : SeenFile ν) :
    file ∈ seen ↔ ∃ entry ∈ walk, observe nested entry = .ok (some file) := by
  induction walk generalizing seen with
  | nil =>
    cases h
    simp
  | cons entry rest ih =>
    unfold observeWalk at h
    split at h
    · cases h
    · rename_i answer hanswer
      split at h
      · cases h
      · rename_i later hlater
        cases h
        rw [List.mem_append, ih hlater]
        simp [hanswer, Option.mem_toList]

/-- A cache that only `set` and `delete` made, with results that extraction accepted. -/
inductive ExtractionCache.Built : ExtractionCache ν → Prop where
  | empty : Built .empty
  | set {cache : ExtractionCache ν} {p : VaultPath} {result : PyDict ν} (built : Built cache)
    (extractor : Except PyError (Json ν)) (accepted : extractFileWithFailureIsolation extractor p = some result)
    (mtime : Option ν) : Built (cache.set p result mtime)
  | delete {cache : ExtractionCache ν} (built : Built cache) (p : VaultPath) : Built (cache.delete p)

/-- In such a cache a recorded modification time is that of an entry. -/
theorem ExtractionCache.Built.get_of_mtime {cache : ExtractionCache ν} (h : cache.Built) {p : VaultPath} {m : ν}
    (hm : cache.mtime p = some m) : (cache.get p).isSome = true := by
  induction h with
  | empty => cases hm
  | set built extractor accepted mtime ih =>
    rw [ExtractionCache.mtime_set] at hm
    rw [ExtractionCache.get_set]
    split_ifs at hm ⊢ with hp
    · rfl
    · exact ih hm
  | delete built q ih =>
    rw [ExtractionCache.mtime_delete] at hm
    rw [ExtractionCache.get_delete]
    split_ifs at hm ⊢ with hp
    exact ih hm

theorem ExtractionCache.Built.iterable {cache : ExtractionCache ν} (h : cache.Built) : cache.Iterable := by
  induction h with
  | empty => exact ExtractionCache.iterable_empty
  | set built extractor accepted mtime ih =>
    intro q stored hq
    rw [ExtractionCache.get_set] at hq
    split_ifs at hq
    · exact Option.some.inj hq ▸ accepted_iterable accepted
    · exact ih q stored hq
  | delete built p ih =>
    intro q stored hq
    rw [ExtractionCache.get_delete] at hq
    split_ifs at hq
    exact ih q stored hq

private theorem built_dropUnobserved {cache : ExtractionCache ν} (h : cache.Built) (observed : List VaultPath) :
    (dropUnobserved observed cache).Built := by
  unfold dropUnobserved
  induction cache.entries.keys.filter (fun p => p ∉ observed) generalizing cache with
  | nil => exact h
  | cons p rest ih => exact ih (h.delete p)

section Reconciled
variable [DecidableEq ν]

private theorem built_refresh {cache : ExtractionCache ν} (h : cache.Built) {file : SeenFile ν}
    (extractor : Except PyError (Json ν))
    (hresult : file.result = extractFileWithFailureIsolation extractor file.path) : (refresh cache file).Built := by
  unfold refresh storeAtMtime
  split_ifs
  · exact h
  · cases hfile : file.result with
    | none => exact h
    | some result => exact h.set extractor (hresult.symm.trans hfile) (some file.mtime)

/-- After the walk there is an entry where there was one, and where an extraction succeeded. -/
theorem built_foldl_refresh {seen : List (SeenFile ν)} {cache : ExtractionCache ν} (h : cache.Built)
    (hseen : ∀ file ∈ seen, ∃ extractor, file.result = extractFileWithFailureIsolation extractor file.path) :
    (seen.foldl refresh cache).Built ∧ ∀ p, ((seen.foldl refresh cache).get p).isSome = true ↔
      (cache.get p).isSome = true ∨ ∃ file ∈ seen, file.path = p ∧ file.result.isSome = true := by
  induction seen generalizing cache with
  | nil => exact ⟨h, by simp⟩
  | cons file rest ih =>
    obtain ⟨⟨extractor, hresult⟩, hrest⟩ := List.forall_mem_cons.mp hseen
    obtain ⟨hbuilt, hget⟩ := ih (built_refresh h extractor hresult) hrest
    refine ⟨hbuilt, fun p => ?_⟩
    rw [List.foldl_cons, hget]
    have hround : ((refresh cache file).get p).isSome = true ↔
        (cache.get p).isSome = true ∨ (file.path = p ∧ file.result.isSome = true) := by
      by_cases hp : file.path = p
      · subst hp
        rw [refresh_get_self]
        unfold keptResult
        split_ifs with hm
        · simp [h.get_of_mtime hm]
        · cases file.result <;> simp
      · rw [(refresh_get_ne cache hp).1]
        simp [hp]
    rw [hround, or_assoc]
    simp only [List.mem_cons, exists_eq_or_imp]

/-- A cold start gets through, publishes, and keeps exactly the observed files that could be
extracted or were cached, if and only if no path that it looks into loops, dangles or vanishes. -/
theorem cold_start_survives_iff {G : Graphify ν γ τ}
    (hbuild : ∀ nodes edges, ∃ graph, G.buildFromJson nodes edges = .ok graph)
    (hindex : ∀ graph, ∃ index, G.getTrigramIndex graph = .ok index) (nested : List String) (vaultRoot : AbsolutePath)
    (directory : ν × Nat) (tree : VaultTree ν) (visits : List (Visit ν)) (start : Daemon ν γ τ)
    (hcache : start.cache.Built) :
    (∃ d, runColdStart G nested (walkOf vaultRoot directory tree visits) start = .done d ∧
      (∃ graph index, buildGraph G d.cache = .ok graph ∧
        d.holder.current = some ⟨graph, index, .empty, start.holder.nextVersion⟩) ∧
      ∀ p, (d.cache.get p).isSome = true ↔ ∃ v ∈ visitedIn tree visits, v.visit.path = p ∧ v.Observed vaultRoot nested ∧
        (v.extraction.isSome = true ∨ (start.cache.get p).isSome = true)) ↔
      ∀ v ∈ visitedIn tree visits, v.Survives vaultRoot nested := by
  have hwalk : (∀ v ∈ visitedIn tree visits, v.Survives vaultRoot nested) ↔
      ∃ seen, observeWalk nested (walkOf vaultRoot directory tree visits) = .ok seen := by
    rw [observeWalk_completes_iff, walkOf, List.forall_mem_map]
    exact forall₂_congr fun v _ => observe_completes_iff.symm
  rw [hwalk]
  constructor
  · rintro ⟨d, hdone, -⟩
    obtain ⟨seen, hseen, -⟩ := (runColdStart_built G).mp hdone
    exact ⟨seen, hseen⟩
  · rintro ⟨seen, hseen⟩
    have hfiles : ∀ file, file ∈ seen ↔
        ∃ v ∈ visitedIn tree visits, observe nested (v.entry vaultRoot directory) = .ok (some file) := by
      intro file
      rw [mem_observeWalk hseen, walkOf]
      simp
    have hextracted : ∀ file ∈ seen, ∃ extractor, file.result = extractFileWithFailureIsolation extractor file.path := by
      intro file hfile
      obtain ⟨v, -, hv⟩ := (hfiles file).mp hfile
      obtain ⟨-, hpath, hresult⟩ := observe_file_iff hv
      exact ⟨v.visit.extractor, by rw [hresult, hpath]; rfl⟩
    obtain ⟨hbuilt, hget⟩ := built_foldl_refresh hcache hextracted
    have hleft := built_dropUnobserved hbuilt (seen.map SeenFile.path)
    obtain ⟨graph, hgraph⟩ := buildGraph_ok hbuild hleft.iterable
    obtain ⟨index, hpublish⟩ := hindex graph
    refine ⟨_, (runColdStart_built G).mpr ⟨seen, hseen, graph, hgraph, _, publish_eq_done.mpr ⟨index, hpublish, rfl⟩, rfl⟩,
      ⟨graph, index, hgraph, rfl⟩, fun p => ?_⟩
    dsimp only
    rw [get_dropUnobserved]
    constructor
    · intro hp
      split_ifs at hp with hobserved
      · obtain ⟨file, hfile, rfl⟩ := List.mem_map.mp hobserved
        rcases (hget file.path).mp hp with hcached | ⟨other, hother, hpath, hresult⟩
        · obtain ⟨v, hv, hvisit⟩ := (hfiles file).mp hfile
          obtain ⟨hv', hpath, -⟩ := observe_file_iff hvisit
          exact ⟨v, hv, hpath.symm, hv', .inr hcached⟩
        · obtain ⟨v, hv, hvisit⟩ := (hfiles other).mp hother
          obtain ⟨hv', hvpath, hvresult⟩ := observe_file_iff hvisit
          exact ⟨v, hv, hvpath.symm.trans hpath, hv', .inl (hvresult ▸ hresult)⟩
      · cases hp
    · rintro ⟨v, hv, rfl, hobserved, hkept⟩
      obtain ⟨mtime, hvisit⟩ := observe_of_observed directory hobserved
      have hfile := (hfiles _).mpr ⟨v, hv, hvisit⟩
      rw [if_pos (List.mem_map.mpr ⟨_, hfile, rfl⟩), hget]
      exact hkept.elim (fun hnew => .inr ⟨_, hfile, rfl, hnew⟩) .inl

end Reconciled

/-- A vault in which `note.md` is this. -/
def vaultWith (note : Entry (Nat × Nat)) : VaultTree Nat :=
  (OrderedDict.empty.set ["vault"] .directory).set ["vault", "note.md"] note

def innerPath : VaultPath := ⟨["inner.md"], by decide⟩

def outerPath : VaultPath := ⟨["outer.md"], by decide⟩

/-- Beside the note a link to it, and a link to a file outside the vault. -/
def linkedVault : VaultTree Nat :=
  (((vaultWith (.file (7, 1))).set ["vault", "inner.md"] (.symlink false ["note.md"])).set ["vault", "outer.md"]
    (.symlink true ["secret.md"])).set ["secret.md"] (.file (9, 1))

/-- The note was modified since it was cached, and its extraction fails; the links are walked too. -/
def linkedVisits : List (Visit Nat) :=
  [⟨notePath, [], [], [], [], .error .runtimeError⟩, ⟨innerPath, [], [], [], [], .ok (.obj (oneNode "b"))⟩,
    ⟨outerPath, [], [], [], [], .ok (.obj (oneNode "secret"))⟩]

/-- A daemon that cached the note under an older modification time. -/
def onceCached : Daemon Nat ReferenceGraph Unit :=
  { Daemon.initial 0 with cache := storeAtMtime notePath 3 (extracted titleExtractor notePath "a") .empty }

/-- The cached note and the link inside the vault are kept, the link out of it is passed over. -/
theorem cold_start_survives_iff_linkedVault :
    ∃ d, runColdStart referenceGraphify [] (walkOf ["vault"] (0, 0) linkedVault linkedVisits) onceCached = .done d ∧
      (d.cache.get notePath).isSome = true ∧ (d.cache.get innerPath).isSome = true ∧ d.cache.get outerPath = none := by
  have hsurvives : ∀ v ∈ visitedIn linkedVault linkedVisits, v.Survives ["vault"] [] := by
    intro v hv
    simp only [linkedVisits, visitedIn, List.mem_cons, List.not_mem_nil, or_false] at hv
    rcases hv with rfl | rfl | rfl
    · exact fun _ => ⟨List.forall_mem_cons.mpr ⟨⟨_, rfl⟩, List.forall_mem_singleton.mpr ⟨_, rfl⟩⟩, fun _ => ⟨_, rfl⟩⟩
    · exact fun _ => ⟨List.forall_mem_cons.mpr ⟨⟨_, rfl⟩, List.forall_mem_singleton.mpr ⟨_, rfl⟩⟩, fun _ => ⟨_, rfl⟩⟩
    · exact fun _ => ⟨List.forall_mem_cons.mpr ⟨⟨_, rfl⟩, List.forall_mem_singleton.mpr ⟨_, rfl⟩⟩, fun _ => ⟨_, rfl⟩⟩
  have hbuilt : onceCached.cache.Built := .set .empty (.ok (titleExtractor notePath "a")) rfl (some 3)
  obtain ⟨d, hdone, -, hkeys⟩ := (cold_start_survives_iff (G := referenceGraphify) (fun _ _ => ⟨_, rfl⟩) (fun _ => ⟨_, rfl⟩)
    [] ["vault"] (0, 0) linkedVault linkedVisits onceCached hbuilt).mpr hsurvives
  refine ⟨d, hdone, (hkeys notePath).mpr ⟨_, .head _, rfl, ?_, .inr rfl⟩,
    (hkeys innerPath).mpr ⟨_, .tail _ (.head _), rfl, ?_, .inl rfl⟩, ?_⟩
  · exact ⟨⟨rfl, by decide⟩, ⟨_, rfl⟩, ⟨_, rfl⟩⟩
  · exact ⟨⟨rfl, by decide⟩, ⟨_, rfl⟩, ⟨_, rfl⟩⟩
  · rw [← Option.not_isSome_iff_eq_none, hkeys outerPath]
    rintro ⟨v, hv, hpath, ⟨-, ⟨location, hinside⟩, -⟩, -⟩
    simp only [linkedVisits, visitedIn, List.mem_cons, List.not_mem_nil, or_false] at hv
    rcases hv with rfl | rfl | rfl
    · exact absurd hpath (by decide)
    · exact absurd hpath (by decide)
    · cases hinside

/-- A visit in which these places vanish before `stat`. -/
def noteVisit (gone : List AbsolutePath) : Visit Nat := ⟨notePath, [], [], [], gone, .ok (.obj (oneNode "a"))⟩

/-- A link that dangles, one that loops, and a file that vanishes after it was listed each keep the
daemon from starting. -/
theorem cold_start_aborts :
    (∀ d, runColdStart referenceGraphify [] (walkOf ["vault"] (0, 0) (vaultWith (.symlink false ["missing.md"])) [noteVisit []])
        (.initial 0) ≠ .done d) ∧
    (∀ d, runColdStart referenceGraphify [] (walkOf ["vault"] (0, 0) (vaultWith (.symlink false ["note.md"])) [noteVisit []])
        (.initial 0) ≠ .done d) ∧
    ∀ d, runColdStart referenceGraphify []
        (walkOf ["vault"] (0, 0) (vaultWith (.file (7, 1))) [noteVisit [["vault", "note.md"]]])
        (.initial 0) ≠ .done d := by
  refine ⟨fun d h => ?_, fun d h => ?_, fun d h => ?_⟩
  · cases h
  · cases h
  · cases h

end GraphifyDaemon
