import GraphifyDaemon.ArtifactLifecycle.Provenance
import GraphifyDaemon.Vault.Convergence
import GraphifyDaemon.Vault.Restart

/-! Start-up: a walk over a vault that goes on changing, then the observer. No event tells
of a change made before the observer runs, and after it the coordinator lock gives the batches
no order, and a compile may raise anywhere. -/
namespace GraphifyDaemon
open Library Library.Trace Pipeline

variable {ν κ : Type}

/-- `cold_start` while it walks. `passed` are the paths whose listing `rglob` has made,
whether they existed then or not; `todo` are those that did and wait for their visit;
`reading` is the one that was stat-ed and is about to be extracted. -/
structure Walk (κ ν : Type) where
  vault : Vault κ ν
  cache : ExtractionCache ν
  passed : List VaultPath
  todo : List VaultPath
  reading : Option (VaultPath × ν)
  observed : List VaultPath
  walked : Bool
  published : Bool

inductive WalkEvent (κ ν : Type) where
  | write (p : VaultPath) (file : File κ ν)
  | delete (p : VaultPath)
  | pass (p : VaultPath)
  | stat
  | read
  | endWalk
  /-- `build_graph`, with what `build_from_json` leaves of each item, and the publication. -/
  | publish (leaves : VaultPath → String → Nat → Json ν → Json ν)

namespace Walk
variable [DecidableEq ν]

def initial (vault : Vault κ ν) (cache : ExtractionCache ν) : Walk κ ν := ⟨vault, cache, [], [], none, [], false, false⟩

/-- The listing of `p`: a path that exists and is not excluded will be visited. -/
def pass (nested : List String) (p : VaultPath) (s : Walk κ ν) : Option (Walk κ ν) :=
  if s.walked ∨ p ∈ s.passed then none
  else some { s with
    passed := s.passed ++ [p]
    todo := if (s.vault.get p).isSome ∧ isExcluded nested p = false then s.todo ++ [p] else s.todo }

/-- The visit up to the comparison of modification times. A file that has vanished makes
`stat` raise, which nothing catches. -/
def stat (s : Walk κ ν) : Option (Walk κ ν) :=
  match s.todo, s.reading with
  | p :: rest, none => match s.vault.get p with
    | none => none
    | some file => some { s with
        todo := rest
        observed := s.observed ++ [p]
        reading := if s.cache.mtime p = some file.mtime then none else some (p, file.mtime) }
  | _, _ => none

def read (extractor : VaultPath → κ → Json ν) (s : Walk κ ν) : Option (Walk κ ν) :=
  match s.reading with
  | some (p, m) => some { s with
      cache := storeAtMtime p m (extractFileWithFailureIsolation (readFile extractor s.vault p) p) s.cache
      reading := none }
  | none => none

/-- The walk ends when every path was listed and visited; stale entries are dropped. -/
def endWalk (nested : List String) (s : Walk κ ν) : Option (Walk κ ν) :=
  if s.todo = [] ∧ s.reading = none ∧ s.walked = false ∧
      ∀ p ∈ s.vault.keys, isExcluded nested p = false → p ∈ s.passed then
    some { s with cache := dropUnobserved s.observed s.cache, walked := true }
  else none

def publish (leaves : VaultPath → String → Nat → Json ν → Json ν) (s : Walk κ ν) : Option (Walk κ ν) :=
  if s.walked = true ∧ s.published = false then some { s with cache := s.cache.rewritten leaves, published := true }
  else none

def step (nested : List String) (extractor : VaultPath → κ → Json ν) : WalkEvent κ ν → Walk κ ν → Option (Walk κ ν)
  | .write p file, s => some { s with vault := s.vault.set p file }
  | .delete p, s => if (s.vault.get p).isSome then some { s with vault := s.vault.erase p } else none
  | .pass p, s => s.pass nested p
  | .stat, s => s.stat
  | .read, s => s.read extractor
  | .endWalk, s => s.endWalk nested
  | .publish leaves, s => s.publish leaves

/-- A visit is one round of `cold_start`, with the vault of its `stat` and the vault of its
read. -/
theorem visit_eq_coldVisit {nested : List String} {extractor : VaultPath → κ → Json ν} {s s₁ s₂ : Walk κ ν}
    {p : VaultPath} {rest : List VaultPath} {later : Vault κ ν} (htodo : s.todo = p :: rest)
    (hp : isExcluded nested p = false) (hstat : s.stat = some s₁)
    (hread : if s₁.reading = none then s₂ = s₁ else { s₁ with vault := later }.read extractor = some s₂) :
    coldVisit nested ⟨p, .ok false, .ok true, statFile s.vault p, readFile extractor later p⟩ ⟨s.cache, s.observed⟩ =
      .done ⟨s₂.cache, s₂.observed⟩ := by
  have hsuffix : suffix p ∈ OBSERVED_SUFFIXES := by
    by_contra hnot
    simp [isExcluded, hnot] at hp
  unfold stat at hstat
  rw [htodo] at hstat
  cases hr : s.reading with
  | some current => simp [hr] at hstat
  | none => cases hfile : s.vault.get p with
    | none => simp [hr, hfile] at hstat
    | some file =>
      simp only [hr, hfile, Option.some.injEq] at hstat
      subst hstat
      by_cases hm : s.cache.mtime p = some file.mtime
      · simp only [hm, if_true] at hread
        subst hread
        simp [coldVisit, hsuffix, hp, statFile, hfile, hm]
      · simp only [if_neg hm, reduceCtorEq, if_false, read, Option.some.injEq] at hread
        subst hread
        simp [coldVisit, hsuffix, hp, statFile, hfile, hm]

end Walk

/-- Before the observer runs, a file is written only until the walk reads it, and not if
the walk has listed its place while it was not there; the write gives it a modification
time other than the cached one. It is deleted only before the walk has listed it. Where the
graph is built, no file is named with a backslash. -/
def ChangesInTime (nested : List String) : WalkEvent κ ν → Walk κ ν → Prop
  | .write p file, s => isExcluded nested p = true ∨ (s.walked = false ∧ s.cache.mtime p ≠ some file.mtime ∧
      (p ∉ s.passed ∨ p ∈ s.todo ∨ s.reading.map Prod.fst = some p))
  | .delete p, s => isExcluded nested p = true ∨ p ∉ s.passed
  | .publish _, s => s.cache.Plain
  | .pass _, _ | .stat, _ | .read, _ | .endWalk, _ => True

/-- What `build_from_json` does to the items it is passed. -/
def WalkEvent.Builds : WalkEvent κ ν → Prop
  | .publish leaves => LeavesPlain leaves
  | .write _ _ | .delete _ | .pass _ | .stat | .read | .endWalk => True

instance [DecidableEq ν] (nested : List String) (e : WalkEvent κ ν) (s : Walk κ ν) : Decidable (ChangesInTime nested e s) :=
  match e with
  | .write _ _ => inferInstanceAs (Decidable (_ ∨ _ ∧ _ ∧ (_ ∨ _ ∨ _)))
  | .delete _ => inferInstanceAs (Decidable (_ ∨ _))
  | .publish _ => inferInstanceAs (Decidable s.cache.Plain)
  | .pass _ | .stat | .read | .endWalk => instDecidableTrue

structure WalkInvariant (nested : List String) (extractor : VaultPath → κ → Json ν) (s : Walk κ ν) : Prop where
  sound : ∀ p, isExcluded nested p = false → p ∉ s.observed → s.walked = false → SoundAt extractor s.vault s.cache p
  missed : ∀ p, isExcluded nested p = false → p ∈ s.passed → p ∉ s.todo → p ∉ s.observed → s.vault.get p = none
  listed : ∀ p ∈ s.todo, isExcluded nested p = false ∧ p ∈ s.passed ∧ p ∉ s.observed ∧ (s.vault.get p).isSome = true
  distinct : s.todo.Nodup
  reading : ∀ p m, s.reading = some (p, m) → p ∈ s.observed
  visited : ∀ p ∈ s.observed, isExcluded nested p = false ∧ p ∈ s.passed ∧ (s.vault.get p).isSome = true ∧
    (s.reading.map Prod.fst ≠ some p → ExtractsAt extractor s.vault p →
      s.cache.get p = expectedEntry extractor s.vault p)
  finished : s.walked = true → s.todo = [] ∧ s.reading = none ∧
    (∀ p, isExcluded nested p = false → (s.vault.get p).isSome = true → p ∈ s.passed) ∧
    ∀ p, p ∉ s.observed → s.cache.get p = none
  ended : s.published = true → s.walked = true

section Steps
variable {nested : List String} {extractor : VaultPath → κ → Json ν} {s s' : Walk κ ν}

private theorem walkInvariant_initial {vault : Vault κ ν} {cache : ExtractionCache ν}
    (hloaded : ∀ p, isExcluded nested p = false → SoundAt extractor vault cache p) :
    WalkInvariant nested extractor (.initial vault cache) := by
  constructor <;> simp [Walk.initial]
  exact hloaded

/-- A change of the vault at one path whose content the walk has not taken yet. -/
theorem WalkInvariant.change (hs : WalkInvariant nested extractor s) {p : VaultPath} {vault : Vault κ ν}
    (hother : ∀ q, q ≠ p → vault.get q = s.vault.get q)
    (hchange : isExcluded nested p = true ∨
      (SoundAt extractor vault s.cache p ∧ ((p ∉ s.passed ∧ ((vault.get p).isSome = true → s.walked = false)) ∨
        ((p ∈ s.todo ∨ s.reading.map Prod.fst = some p) ∧ (vault.get p).isSome = true)))) :
    WalkInvariant nested extractor { s with vault := vault } := by
  constructor
  case sound =>
    intro q hq hobserved hwalked
    by_cases hqp : q = p
    · subst hqp
      rcases hchange with hex | ⟨hsound, -⟩
      · simp [hq] at hex
      · exact hsound
    · intro file hfile
      exact hs.sound q hq hobserved hwalked file ((hother q hqp).symm.trans hfile)
  case missed =>
    intro q hq hpassed htodo hobserved
    by_cases hqp : q = p
    · subst hqp
      rcases hchange with hex | ⟨-, ⟨hfresh, -⟩ | ⟨hlisted | hreading, -⟩⟩
      · simp [hq] at hex
      · exact absurd hpassed hfresh
      · exact absurd hlisted htodo
      · obtain ⟨⟨r, m⟩, hr, rfl⟩ := Option.map_eq_some_iff.mp hreading
        exact absurd (hs.reading r m hr) hobserved
    · exact (hother q hqp).trans (hs.missed q hq hpassed htodo hobserved)
  case listed =>
    intro q htodo
    obtain ⟨hq, hpassed, hobserved, hthere⟩ := hs.listed q htodo
    refine ⟨hq, hpassed, hobserved, ?_⟩
    by_cases hqp : q = p
    · subst hqp
      rcases hchange with hex | ⟨-, ⟨hfresh, -⟩ | ⟨-, hnew⟩⟩
      · simp [hq] at hex
      · exact absurd hpassed hfresh
      · exact hnew
    · exact (congrArg Option.isSome (hother q hqp)).trans hthere
  case distinct => exact hs.distinct
  case reading => exact hs.reading
  case visited =>
    intro q hobserved
    obtain ⟨hq, hpassed, hthere, hentry⟩ := hs.visited q hobserved
    by_cases hqp : q = p
    · subst hqp
      rcases hchange with hex | ⟨-, ⟨hfresh, -⟩ | ⟨hlisted | hreading, hnew⟩⟩
      · simp [hq] at hex
      · exact absurd hpassed hfresh
      · exact absurd hobserved (hs.listed q hlisted).2.2.1
      · exact ⟨hq, hpassed, hnew, fun hnot => absurd hreading hnot⟩
    · refine ⟨hq, hpassed, (congrArg Option.isSome (hother q hqp)).trans hthere, fun hnot hextracts => ?_⟩
      have hbefore := hentry hnot (hextracts.congr (hother q hqp).symm)
      exact hbefore.trans (expectedEntry_congr extractor (hother q hqp)).symm
  case finished =>
    intro hwalked
    obtain ⟨htodo, hreading, hall, hdropped⟩ := hs.finished hwalked
    refine ⟨htodo, hreading, fun q hq hthere => ?_, hdropped⟩
    by_cases hqp : q = p
    · subst hqp
      rcases hchange with hex | ⟨-, ⟨-, hnew⟩ | ⟨hlisted | hread, -⟩⟩
      · simp [hq] at hex
      · exact absurd hwalked (by simp [hnew hthere])
      · simp [htodo] at hlisted
      · simp [hreading] at hread
    · exact hall q hq ((congrArg Option.isSome (hother q hqp)).symm.trans hthere)
  case ended => exact hs.ended

theorem WalkInvariant.pass (hs : WalkInvariant nested extractor s) {p : VaultPath} (h : s.pass nested p = some s') :
    WalkInvariant nested extractor s' := by
  unfold Walk.pass at h
  by_cases hnot : s.walked = true ∨ p ∈ s.passed
  · rw [if_pos hnot] at h
    cases h
  rw [if_neg hnot] at h
  cases h
  obtain ⟨hwalked, hfresh⟩ : s.walked = false ∧ p ∉ s.passed := by simpa using hnot
  have hobserved : p ∉ s.observed := fun hp => hfresh (hs.visited p hp).2.1
  have htodo : p ∉ s.todo := fun hp => hfresh (hs.listed p hp).2.1
  constructor
  case sound => exact hs.sound
  case missed =>
    intro q hq hpassed hlisted hnew
    by_cases hqp : q = p
    · subst hqp
      by_contra hthere
      rw [if_pos ⟨Option.isSome_iff_ne_none.mpr hthere, hq⟩] at hlisted
      simp at hlisted
    · refine hs.missed q hq (by simpa [hqp] using hpassed) (fun hold => hlisted ?_) hnew
      split_ifs
      · exact List.mem_append_left _ hold
      · exact hold
  case listed =>
    intro q hlisted
    have hold : q ∈ s.todo ∨ q = p ∧ (s.vault.get p).isSome = true ∧ isExcluded nested p = false := by
      split_ifs at hlisted with hthere
      · rcases List.mem_append.mp hlisted with hold | hnew
        · exact .inl hold
        · exact .inr ⟨List.mem_singleton.mp hnew, hthere⟩
      · exact .inl hlisted
    rcases hold with hold | ⟨rfl, hthere, hq⟩
    · obtain ⟨hq, hpassed, hnew, hthere⟩ := hs.listed q hold
      exact ⟨hq, List.mem_append_left _ hpassed, hnew, hthere⟩
    · exact ⟨hq, by simp, hobserved, hthere⟩
  case distinct =>
    dsimp only
    split_ifs
    · refine List.nodup_append.mpr ⟨hs.distinct, List.nodup_singleton p, fun q hq r hr he => htodo ?_⟩
      rw [← List.mem_singleton.mp hr, ← he]
      exact hq
    · exact hs.distinct
  case reading => exact hs.reading
  case visited =>
    intro q hq
    obtain ⟨hex, hpassed, hthere, hentry⟩ := hs.visited q hq
    exact ⟨hex, List.mem_append_left _ hpassed, hthere, hentry⟩
  case finished => exact fun h => absurd h (by simp [hwalked])
  case ended => exact hs.ended

theorem WalkInvariant.stat [DecidableEq ν] (hs : WalkInvariant nested extractor s) (h : s.stat = some s') :
    WalkInvariant nested extractor s' := by
  unfold Walk.stat at h
  split at h
  · rename_i p rest htodo hreading
    split at h
    · cases h
    · rename_i file hfile
      cases h
      obtain ⟨hp, hpassed, hobserved, hthere⟩ := hs.listed p (by simp [htodo])
      have hdistinct := hs.distinct
      rw [htodo] at hdistinct
      obtain ⟨hrest, hnodup⟩ := List.nodup_cons.mp hdistinct
      have hwalked : s.walked = false := by
        by_contra hw
        simp [(hs.finished (by simpa using hw)).1] at htodo
      constructor
      case sound => exact fun q hq hnew => hs.sound q hq (fun hold => hnew (List.mem_append_left _ hold))
      case missed =>
        intro q hq hpassed hlisted hnew
        have hqp : q ≠ p := fun he => hnew (by simp [he])
        exact hs.missed q hq hpassed (by simp [htodo, hqp, hlisted]) (fun hold => hnew (List.mem_append_left _ hold))
      case listed =>
        intro q hlisted
        obtain ⟨hq, hqpassed, hqobserved, hqthere⟩ := hs.listed q (by simp [htodo, hlisted])
        have hqp : q ≠ p := fun he => hrest (he ▸ hlisted)
        exact ⟨hq, hqpassed, by simp [hqobserved, hqp], hqthere⟩
      case distinct => exact hnodup
      case reading =>
        intro q m hq
        dsimp only at hq
        split_ifs at hq
        obtain ⟨rfl, -⟩ := Prod.mk.inj (Option.some.inj hq)
        simp
      case visited =>
        intro q hq
        rcases List.mem_append.mp hq with hold | hnew
        · obtain ⟨hex, hqpassed, hqthere, hentry⟩ := hs.visited q hold
          exact ⟨hex, hqpassed, hqthere, fun _ => hentry (by simp [hreading])⟩
        · obtain rfl := List.mem_singleton.mp hnew
          refine ⟨hp, hpassed, hthere, fun hnot _ => ?_⟩
          by_cases hm : s.cache.mtime q = some file.mtime
          · rw [expectedEntry, hfile]
            exact hs.sound q hp hobserved hwalked file hfile hm
          · simp [hm] at hnot
      case finished => exact fun hw => absurd hw (by simp [hwalked])
      case ended => exact hs.ended
  · cases h

theorem WalkInvariant.read (hs : WalkInvariant nested extractor s) (h : s.read extractor = some s') :
    WalkInvariant nested extractor s' := by
  unfold Walk.read at h
  split at h
  · rename_i p m hreading
    cases h
    have hobserved := hs.reading p m hreading
    rw [extract_readFile]
    constructor
    case sound =>
      intro q hq hnew hwalked file hfile hm
      have hqp : p ≠ q := fun he => hnew (he ▸ hobserved)
      dsimp only at hm ⊢
      rw [mtime_storeAtMtime_ne hqp] at hm
      rw [get_storeAtMtime, if_neg hqp]
      exact hs.sound q hq hnew hwalked file hfile hm
    case missed => exact hs.missed
    case listed => exact hs.listed
    case distinct => exact hs.distinct
    case reading => simp
    case visited =>
      intro q hq
      obtain ⟨hex, hqpassed, hqthere, hqentry⟩ := hs.visited q hq
      refine ⟨hex, hqpassed, hqthere, fun _ hextracts => ?_⟩
      dsimp only
      rw [get_storeAtMtime]
      by_cases hqp : p = q
      · subst hqp
        obtain ⟨entry, hentry⟩ := Option.isSome_iff_exists.mp (hextracts hqthere)
        rw [if_pos rfl, hentry, Option.some_or]
      · rw [if_neg hqp]
        exact hqentry (by simp [hreading, hqp]) hextracts
    case finished =>
      intro hwalked
      have hnone := (hs.finished hwalked).2.1
      simp [hreading] at hnone
    case ended => exact hs.ended
  · cases h

theorem WalkInvariant.endWalk (hs : WalkInvariant nested extractor s) (h : s.endWalk nested = some s') :
    WalkInvariant nested extractor s' := by
  unfold Walk.endWalk at h
  split_ifs at h with hend
  cases h
  obtain ⟨htodo, hreading, -, hall⟩ := hend
  constructor
  case sound => exact fun _ _ _ hw => by simp at hw
  case missed => exact hs.missed
  case listed => exact hs.listed
  case distinct => exact hs.distinct
  case reading => exact hs.reading
  case visited =>
    intro q hq
    obtain ⟨hex, hpassed, hthere, hentry⟩ := hs.visited q hq
    refine ⟨hex, hpassed, hthere, fun hnot hextracts => ?_⟩
    dsimp only
    rw [get_dropUnobserved, if_pos hq]
    exact hentry hnot hextracts
  case finished =>
    refine fun _ => ⟨htodo, hreading, fun q hq hthere => hall q ?_ hq, fun q hq => ?_⟩
    · exact (OrderedDict.mem_keys_iff _ _).mpr hthere
    · dsimp only
      rw [get_dropUnobserved, if_neg hq]
  case ended => exact fun _ => rfl

theorem WalkInvariant.publish (hs : WalkInvariant nested extractor s)
    {leaves : VaultPath → String → Nat → Json ν → Json ν} (hleaves : LeavesPlain leaves) (hplain : s.cache.Plain)
    (h : s.publish leaves = some s') : WalkInvariant nested extractor s' := by
  unfold Walk.publish at h
  split_ifs at h with hnow
  cases h
  rw [ExtractionCache.rewritten_of_plain hleaves hplain]
  exact { hs with ended := fun _ => hnow.1 }

end Steps

private theorem walkInvariant_step [DecidableEq ν] {nested : List String} {extractor : VaultPath → κ → Json ν}
    {e : WalkEvent κ ν} {s s' : Walk κ ν} (hbuilds : e.Builds) (hok : ChangesInTime nested e s)
    (hs : WalkInvariant nested extractor s) (h : Walk.step nested extractor e s = some s') :
    WalkInvariant nested extractor s' := by
  cases e with
  | write p file =>
    simp only [Walk.step, Option.some.injEq] at h
    subst h
    refine hs.change (p := p) (fun q hq => OrderedDict.get_set_ne _ _ hq.symm) ?_
    rcases hok with hex | ⟨hwalked, hm, hplace⟩
    · exact .inl hex
    · refine .inr ⟨fun f hf hmf => ?_, ?_⟩
      · rw [OrderedDict.get_set_self] at hf
        cases hf
        exact absurd hmf hm
      · rcases hplace with hfresh | htodo | hreading
        · exact .inl ⟨hfresh, fun _ => hwalked⟩
        · exact .inr ⟨.inl htodo, by simp⟩
        · exact .inr ⟨.inr hreading, by simp⟩
  | delete p =>
    simp only [Walk.step] at h
    split_ifs at h
    cases h
    refine hs.change (p := p) (fun q hq => OrderedDict.get_erase_ne _ hq.symm) ?_
    rcases hok with hex | hfresh
    · exact .inl hex
    · exact .inr ⟨fun f hf => by simp at hf, .inl ⟨hfresh, by simp⟩⟩
  | pass p => exact hs.pass h
  | stat => exact hs.stat h
  | read => exact hs.read h
  | endWalk => exact hs.endWalk h
  | publish leaves => exact hs.publish hbuilds hok h

/-- When the walk is over, the cache has the entries of the vault as it is. -/
theorem WalkInvariant.entries {nested : List String} {extractor : VaultPath → κ → Json ν} {s : Walk κ ν}
    (hs : WalkInvariant nested extractor s) (hwalked : s.walked = true) {p : VaultPath}
    (hp : isExcluded nested p = false) (hextracts : ExtractsAt extractor s.vault p) :
    s.cache.get p = expectedEntry extractor s.vault p := by
  obtain ⟨htodo, hreading, hall, hdropped⟩ := hs.finished hwalked
  by_cases hobserved : p ∈ s.observed
  · exact (hs.visited p hobserved).2.2.2 (by simp [hreading]) hextracts
  · have hgone : (s.vault.get p).isSome = false := by
      rw [Bool.eq_false_iff]
      intro hthere
      have hgone := hs.missed p hp (hall p hp hthere) (by simp [htodo]) hobserved
      simp [hgone] at hthere
    rw [hdropped p hobserved, expectedEntry_eq_none extractor hgone]

theorem WalkInvariant.excluded {nested : List String} {extractor : VaultPath → κ → Json ν} {s : Walk κ ν}
    (hs : WalkInvariant nested extractor s) (hwalked : s.walked = true) {p : VaultPath}
    (hp : isExcluded nested p = true) : s.cache.get p = none := by
  refine (hs.finished hwalked).2.2.2 p fun hobserved => ?_
  simp [(hs.visited p hobserved).1] at hp

/-- The life of the daemon after `start()`. Any batch that waits for the coordinator lock may get
it, a compile builds its graph before it ends, and it may raise at any point, which leaves the rest
of it undone. -/
inductive RunningEvent (κ ν : Type) where
  | orderly (e : PipelineEvent κ ν)
  | acquire (i : Nat)
  | build (leaves : VaultPath → String → Nat → Json ν → Json ν)
  | abandon

/-- What `build_from_json` does to the items it is passed. -/
def RunningEvent.Builds : RunningEvent κ ν → Prop
  | .build leaves => LeavesPlain leaves
  | .orderly _ | .acquire _ | .abandon => True

namespace Pipeline

def acquire (i : Nat) (s : Pipeline κ ν) : Option (Pipeline κ ν) :=
  match s.compiling, s.queued[i]? with
  | false, some batch =>
    some { s with compiling := true, extractTodo := batch, syncTodo := batch, queued := s.queued.eraseIdx i }
  | _, _ => none

/-- `build_graph`, after the index pass. -/
def build (leaves : VaultPath → String → Nat → Json ν → Json ν) (s : Pipeline κ ν) : Option (Pipeline κ ν) :=
  match s.compiling, s.extractTodo, s.syncTodo with
  | true, [], [] => some { s with cache := s.cache.rewritten leaves }
  | _, _, _ => none

def abandon (s : Pipeline κ ν) : Option (Pipeline κ ν) :=
  if s.compiling = true then some { s with compiling := false, extractTodo := [], read := none, syncTodo := [] } else none

def runningStep [Zero ν] (nested : List String) (extractor : VaultPath → κ → Json ν) :
    RunningEvent κ ν → Pipeline κ ν → Option (Pipeline κ ν)
  | .orderly e, s => step nested extractor e s
  | .acquire i, s => s.acquire i
  | .build leaves, s => s.build leaves
  | .abandon, s => s.abandon

theorem acquire_zero (s : Pipeline κ ν) : s.acquire 0 = s.startCompile := by
  unfold acquire startCompile
  cases s.compiling <;> cases s.queued <;> rfl

/-- Of the batches that wait for the coordinator lock the one flushed first gets it, no compile
raises, and where a graph is built no file is named with a backslash. -/
def CompilesInTurn : RunningEvent κ ν → Pipeline κ ν → Prop
  | .orderly _, _ => True
  | .acquire i, _ => i = 0
  | .build _, s => s.cache.Plain
  | .abandon, _ => False

instance (e : RunningEvent κ ν) (s : Pipeline κ ν) : Decidable (CompilesInTurn e s) :=
  match e with
  | .orderly _ => instDecidableTrue
  | .acquire i => inferInstanceAs (Decidable (i = 0))
  | .build _ => inferInstanceAs (Decidable s.cache.Plain)
  | .abandon => instDecidableFalse

end Pipeline

private theorem entriesInvariant_runningStep [Zero ν] {nested : List String} {extractor : VaultPath → κ → Json ν}
    {e : RunningEvent κ ν} {s s' : Pipeline κ ν} (hbuilds : e.Builds) (hok : CompilesInTurn e s)
    (hs : EntriesInvariant nested extractor s) (h : runningStep nested extractor e s = some s') :
    EntriesInvariant nested extractor s' := by
  cases e with
  | orderly e => exact entriesInvariant_step hs h
  | acquire i =>
    obtain rfl := hok
    rw [runningStep, acquire_zero] at h
    exact entriesInvariant_step (e := .startCompile) hs h
  | build leaves =>
    rw [runningStep, Pipeline.build] at h
    split at h
    · cases h
      rw [ExtractionCache.rewritten_of_plain hbuilds hok]
      exact hs
    · cases h
  | abandon => exact hok.elim

/-- From a loaded cache that is sound, through a walk during which files change in time only, and
any life of the daemon after it that compiles its batches in turn, with no graph built of a file
that is named with a backslash: no path that is excluded or gone has an entry, and a path whose
content the extractor succeeds on has that extraction. -/
theorem handover_loses_nothing [DecidableEq ν] [Zero ν] {nested : List String} {extractor : VaultPath → κ → Json ν}
    {vault : Vault κ ν} {cache : ExtractionCache ν}
    (hloaded : ∀ p, isExcluded nested p = false → SoundAt extractor vault cache p)
    {walk : List (WalkEvent κ ν)} {w : Walk κ ν} (hwalkBuilds : ∀ e ∈ walk, e.Builds)
    (hintime : Along (Walk.step nested extractor) (ChangesInTime nested) walk (.initial vault cache))
    (hwalk : exec (Walk.step nested extractor) walk (.initial vault cache) = some w) (hpublished : w.published = true)
    {files : FilesTable ν} {events : List (RunningEvent κ ν)} {s : Pipeline κ ν} (hbuilds : ∀ e ∈ events, e.Builds)
    (hinturn : Along (runningStep nested extractor) CompilesInTurn events (.idle w.vault w.cache files))
    (hrun : exec (runningStep nested extractor) events (.idle w.vault w.cache files) = some s)
    (hquiet : s.Quiescent) (p : VaultPath) :
    (isExcluded nested p = true ∨ s.vault.get p = none → s.cache.get p = none) ∧
      ∀ file, s.vault.get p = some file → isExcluded nested p = false →
        ∀ result, extracted extractor p file.content = some result → s.cache.get p = some result := by
  have hwalkInvariant : WalkInvariant nested extractor w :=
    exec_invariant (WalkInvariant nested extractor)
      (fun _ _ _ hok hs hstep => walkInvariant_step hok.1 hok.2 hs hstep) (walkInvariant_initial hloaded)
      ((along_of_forall (fun e he _ => hwalkBuilds e he) _).and hintime) hwalk
  have hwalked := hwalkInvariant.ended hpublished
  have hentries : EntriesInvariant nested extractor s :=
    exec_invariant (EntriesInvariant nested extractor)
      (fun _ _ _ hok hs hstep => entriesInvariant_runningStep hok.1 hok.2 hs hstep)
      (entriesInvariant_idle (fun _ hp hextracts => hwalkInvariant.entries hwalked hp hextracts)
        (fun _ hp => hwalkInvariant.excluded hwalked hp))
      ((along_of_forall (fun e he _ => hbuilds e he) _).and hinturn) hrun
  refine ⟨?_, fun file hfile hp result hresult => ?_⟩
  · rintro (hp | hgone)
    · exact hentries.entries.excluded p hp
    · have hnone : expectedEntry extractor s.vault p = none := expectedEntry_eq_none extractor (by simp [hgone])
      simpa [hnone] using hentries.converged hquiet (p := p) fun _ hthere => by simp [hgone] at hthere
  · have hentry : expectedEntry extractor s.vault p = some result := by simpa [expectedEntry, hfile] using hresult
    simpa [hp, hentry] using hentries.converged hquiet (p := p) fun _ _ => by simp [hentry]

/-- A build that slashes each `source_file`. -/
def slashing (_ : VaultPath) (_ : String) (_ : Nat) : Json Nat → Json Nat := slashItem

private theorem leavesPlain_slashing : LeavesPlain slashing := by
  intro _ _ _ item h
  unfold PlainSource at h
  split at h
  · rename_i text hsource
    cases item with
    | obj members =>
      simp only [sourceFile] at hsource
      simp only [slashing, slashItem, hsource, slashed_of_not_mem h, Json.obj.injEq]
      exact OrderedDict.setItem_of_lookup hsource
    | null | bool | num | str | arr => cases hsource
  · exact h.elim

/-- A note is written while it waits for its visit, and another is written before its
folder is listed. -/
def writtenBeforeVisit : List (WalkEvent String Nat) :=
  [.pass notePath, .write notePath ⟨"b", 2, 1⟩, .write otherPath ⟨"c", 3, 1⟩, .pass otherPath, .stat, .read, .stat,
    .read, .endWalk, .publish slashing]

/-- A note is written after its visit and before the observer starts. -/
def writtenAfterVisit : List (WalkEvent String Nat) :=
  [.pass notePath, .stat, .read, .write notePath ⟨"b", 2, 1⟩, .endWalk, .publish slashing]

def oneNote : Vault String Nat := OrderedDict.empty.set notePath ⟨"a", 1, 1⟩

/-- A batch that gets the lock first of those that wait, with one change to a file that is there or
not. -/
def compiledInTurn (there : Bool) : List (RunningEvent String Nat) :=
  [.acquire 0, .orderly .extractRead] ++ (if there then [.orderly .extractStat] else []) ++
    [.orderly .syncOne, .build slashing, .orderly .finish]

/-- Then the note is deleted and written again, in two batches that wait for the lock together. -/
def deletedAndRecreated : List (RunningEvent String Nat) :=
  [.orderly (.operate (.delete notePath)), .orderly .deliver, .orderly .flush,
    .orderly (.operate (.write notePath ⟨"d", 4, 1⟩)), .orderly .deliver, .orderly .flush] ++
      compiledInTurn false ++ compiledInTurn true

theorem handover_loses_nothing_recreated :
    ∃ w s, exec (Walk.step [] titleExtractor) writtenBeforeVisit (.initial oneNote .empty) = some w ∧
      exec (runningStep [] titleExtractor) deletedAndRecreated (.idle w.vault w.cache .empty) = some s ∧
      s.cache.get notePath = extracted titleExtractor notePath "d" := by
  obtain ⟨w, hwalk, hw⟩ : ∃ w, exec (Walk.step [] titleExtractor) writtenBeforeVisit (.initial oneNote .empty) =
      some w ∧ w.published = true := ⟨_, rfl, rfl⟩
  have hend : (exec (Walk.step [] titleExtractor) writtenBeforeVisit (.initial oneNote .empty)).bind (fun w =>
      (exec (runningStep [] titleExtractor) deletedAndRecreated (.idle w.vault w.cache .empty)).map fun s =>
        (s.vault.get notePath, s.undelivered, s.pending, s.queued, s.compiling)) =
          some (some ⟨"d", 4, 1⟩, [], [], [], false) := rfl
  rw [hwalk, Option.bind_some] at hend
  obtain ⟨s, hrun, hs⟩ := Option.map_eq_some_iff.mp hend
  obtain ⟨hnote, hquiet⟩ := Prod.mk.injEq .. ▸ hs
  have hinturn : Along (runningStep [] titleExtractor) CompilesInTurn deletedAndRecreated
      (.idle w.vault w.cache .empty) := by
    cases hwalk
    decide
  have hentry := (handover_loses_nothing (fun p _ file _ hm => by cases hm)
    (by simp [writtenBeforeVisit, WalkEvent.Builds, leavesPlain_slashing]) (by decide) hwalk hw
    (by simp [deletedAndRecreated, compiledInTurn, RunningEvent.Builds, leavesPlain_slashing]) hinturn hrun
    (by simpa [Quiescent] using hquiet) notePath).2 _ hnote (by decide) _ rfl
  exact ⟨w, s, hwalk, hrun, hentry⟩

/-- No event tells of it, and the cache keeps the old content. -/
theorem handover_loses_a_write :
    ∃ w s, exec (Walk.step [] titleExtractor) writtenAfterVisit (.initial oneNote .empty) = some w ∧
      w.published = true ∧ exec (runningStep [] titleExtractor) [] (.idle w.vault w.cache .empty) = some s ∧
      s.Quiescent ∧ s.vault.get notePath = some ⟨"b", 2, 1⟩ ∧
      s.cache.get notePath = extracted titleExtractor notePath "a" ∧
      s.cache.get notePath ≠ expectedEntry titleExtractor s.vault notePath := by
  have hend : (exec (Walk.step [] titleExtractor) writtenAfterVisit (.initial oneNote .empty)).map
      (fun w => (w.published, w.vault.get notePath, w.cache.get notePath)) =
        some (true, some ⟨"b", 2, 1⟩, extracted titleExtractor notePath "a") := rfl
  obtain ⟨w, hwalk, hw⟩ := Option.map_eq_some_iff.mp hend
  simp only [Prod.mk.injEq] at hw
  obtain ⟨hpublished, hnote, hentry⟩ := hw
  refine ⟨w, _, hwalk, hpublished, rfl, ⟨rfl, rfl, rfl, rfl⟩, hnote, hentry, ?_⟩
  simp only [Pipeline.idle, hentry, expectedEntry, hnote]
  decide

end GraphifyDaemon
