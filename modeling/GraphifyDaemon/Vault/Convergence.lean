import GraphifyDaemon.Vault.Pipeline

/-! Convergence of the running daemon. For each path, either some change still under way
tells the last thing that happened to it, or what is stored for it is up to date. -/
namespace GraphifyDaemon
open Library Library.Trace Pipeline

variable {ν κ : Type} [Zero ν] {nested : List String} {extractor : VaultPath → κ → Json ν}

/-- Of each path, the last change under way tells what became of it. -/
def Announced (nested : List String) (s : Pipeline κ ν) : Prop :=
  ∀ p, isExcluded nested p = false → ∀ there,
    lastEffect nested p (s.syncTodo ++ s.later nested) = some there → (s.vault.get p).isSome = there

/-- No change under way goes on to an excluded path. -/
def Admitted (nested : List String) (s : Pipeline κ ν) : Prop :=
  ∀ c ∈ s.syncTodo ++ s.later nested, c.reachesPath nested = true → isExcluded nested c.path = false

/-- A path of which nothing is left to be read has its entry, in the cache or just read, if its
content is one that the extractor succeeds on. -/
structure EntriesSettled (nested : List String) (extractor : VaultPath → κ → Json ν) (s : Pipeline κ ν) : Prop where
  settled : ∀ p, isExcluded nested p = false → ExtractsAt extractor s.vault p →
    lastEffect nested p (s.unread ++ s.later nested) = none →
    if s.readingPath = some p then s.read = some (expectedEntry extractor s.vault p)
    else s.cache.get p = expectedEntry extractor s.vault p
  excluded : ∀ p, isExcluded nested p = true → s.cache.get p = none

structure MtimesSettled (nested : List String) (s : Pipeline κ ν) : Prop where
  settled : ∀ p, isExcluded nested p = false → lastEffect nested p (s.unread ++ s.later nested) = none →
    s.readingPath ≠ some p → s.cache.mtime p = (s.vault.get p).map File.mtime
  excluded : ∀ p, isExcluded nested p = true → s.cache.mtime p = none

/-- The row of `p` tells of the file that is there. -/
def RowAgrees (extractor : VaultPath → κ → Json ν) (vault : Vault κ ν) (files : FilesTable ν) (p : VaultPath) : Prop :=
  match vault.get p with
  | none => files.get p = none
  | some file => ∃ row, files.get p = some row ∧ row.mtime = file.mtime ∧ row.size = file.size ∧
      itemCount "nodes" (extracted extractor p file.content) = .ok row.nodeCount ∧
      itemCount "edges" (extracted extractor p file.content) = .ok row.edgeCount

structure RowsSettled (nested : List String) (extractor : VaultPath → κ → Json ν) (s : Pipeline κ ν) : Prop where
  settled : ∀ p, isExcluded nested p = false → lastEffect nested p (s.syncTodo ++ s.later nested) = none →
    RowAgrees extractor s.vault s.files p
  excluded : ∀ p, isExcluded nested p = true → s.files.get p = none

section Steps
variable {s s' : Pipeline κ ν}

omit [Zero ν] in
theorem later_operated (s : Pipeline κ ν) (vault : Vault κ ν) (event : FileSystemEvent) :
    { s with vault := vault, undelivered := s.undelivered ++ [event] }.later nested =
      s.later nested ++ (changeOf nested event).toList := by
  cases hc : changeOf nested event <;> simp [later, hc]

omit [Zero ν] in
/-- An operation either is announced for `p`, or says nothing of `p` and leaves it alone. -/
theorem operated_cases {op : VaultOp κ ν} {vault : Vault κ ν} {event : FileSystemEvent}
    (h : applyOp op s.vault = some (vault, event)) {p : VaultPath} (hp : isExcluded nested p = false)
    (before : List FileChange) :
    (∃ there, lastEffect nested p (before ++ (s.later nested ++ (changeOf nested event).toList)) = some there ∧
      (vault.get p).isSome = there) ∨
    (lastEffect nested p (before ++ (s.later nested ++ (changeOf nested event).toList)) =
      lastEffect nested p (before ++ s.later nested) ∧ vault.get p = s.vault.get p) := by
  have heffect := applyOp_effect h hp
  rw [← List.append_assoc, lastEffect_append]
  cases hlast : lastEffect nested p (changeOf nested event).toList with
  | some there =>
    rw [hlast] at heffect
    exact .inl ⟨there, rfl, heffect⟩
  | none =>
    rw [hlast] at heffect
    exact .inr ⟨rfl, heffect⟩

private theorem announced_move (hs : Announced nested s) (h : Moves nested extractor s s') : Announced nested s' := by
  cases h with
  | @operated op vault event h =>
    intro p hp there hlast
    rw [later_operated] at hlast
    rcases operated_cases h hp s.syncTodo with ⟨t, ht, hthere⟩ | ⟨hsame, hvault⟩
    · rw [ht, Option.some.injEq] at hlast
      exact hthere.trans hlast
    · rw [hsame] at hlast
      exact (congrArg Option.isSome hvault).trans (hs p hp there hlast)
  | shifted h =>
    intro p hp there hlast
    rw [h.unsynced] at hlast
    rw [h.vault]
    exact hs p hp there hlast
  | read | dropped | stored => exact hs
  | @synced c rest files hextract hsync hbusy h =>
    intro p hp there hlast
    have hrest : lastEffect nested p (rest ++ s.later nested) = some there := hlast
    refine hs p hp there ?_
    rw [hsync, List.cons_append, lastEffect_cons, hrest]
    rfl

omit [Zero ν] in
/-- What the file to be read next, and all after it, tell of `p` last is true. -/
theorem Announced.unread (hs : Announced nested s) (hordered : WellOrdered nested s) {p : VaultPath}
    (hp : isExcluded nested p = false) {there : Bool}
    (h : lastEffect nested p (s.extractTodo ++ s.later nested) = some there) : (s.vault.get p).isSome = there := by
  obtain ⟨done, hdone⟩ := hordered.suffix
  refine hs p hp there ?_
  rw [← hdone, List.append_assoc, lastEffect_append, h]
  rfl

omit [Zero ν] in
theorem Announced.there (hs : Announced nested s) (hordered : WellOrdered nested s) {c : FileChange}
    {rest : List FileChange} (htodo : s.extractTodo = c :: rest) (hreach : c.reachesPath nested = true)
    (hp : isExcluded nested c.path = false) (hrest : lastEffect nested c.path (rest ++ s.later nested) = none) :
    (s.vault.get c.path).isSome = true := by
  refine hs.unread hordered hp ?_
  rw [htodo, List.cons_append, lastEffect_cons, hrest]
  simp [effectOn, FileChange.reaches, hreach]

private theorem admitted_move (hs : Admitted nested s) (h : Moves nested extractor s s') : Admitted nested s' := by
  cases h with
  | @operated op vault event h =>
    intro c hc hreach
    rw [later_operated, ← List.append_assoc] at hc
    rcases List.mem_append.mp hc with hold | hnew
    · exact hs c hold hreach
    · exact changeOf_admitted (Option.mem_toList.mp hnew) hreach
  | shifted h =>
    unfold Admitted
    rw [h.unsynced]
    exact hs
  | read | dropped | stored => exact hs
  | @synced c rest files hextract hsync hbusy h =>
    intro d hd hreach
    refine hs d ?_ hreach
    rw [hsync]
    exact List.mem_cons_of_mem c hd

omit [Zero ν] in
/-- The change whose file is being read is not of an excluded path. -/
theorem Admitted.path_ne (hs : Admitted nested s) (hordered : WellOrdered nested s) {c : FileChange}
    {rest : List FileChange} (htodo : s.extractTodo = c :: rest) (hreach : c.reachesPath nested = true) {p : VaultPath}
    (hp : isExcluded nested p = true) : c.path ≠ p := by
  rintro rfl
  have hmem : c ∈ s.syncTodo ++ s.later nested :=
    List.mem_append_left _ (hordered.suffix.subset (by simp [htodo]))
  simp [hs c hmem hreach] at hp

omit [Zero ν] in
/-- A path that nothing unread tells of, once the next change has dropped its stale state. -/
theorem EntriesSettled.dropStale (hs : EntriesSettled nested extractor s) (hordered : WellOrdered nested s)
    (hannounced : Announced nested s) {c : FileChange} {rest : List FileChange} (htodo : s.extractTodo = c :: rest)
    (hread : s.read = none) {p : VaultPath} (hp : isExcluded nested p = false)
    (hextracts : ExtractsAt extractor s.vault p) (hreach : ¬ c.reaches nested p)
    (hlast : lastEffect nested p (rest ++ s.later nested) = none) :
    (dropStale c s.cache).get p = expectedEntry extractor s.vault p := by
  have heffect : lastEffect nested p (s.extractTodo ++ s.later nested) = effectOn nested p c := by
    rw [htodo, List.cons_append, lastEffect_cons, hlast, Option.none_or]
  rw [get_dropStale]
  split_ifs with hdrop
  · have hgone : effectOn nested p c = some false := by simp [effectOn, hreach, hdrop]
    exact (expectedEntry_eq_none extractor (hannounced.unread hordered hp (heffect.trans hgone))).symm
  · have hnone := (effectOn_eq_none_iff nested p c).mpr ⟨hreach, hdrop⟩
    have hsettled := hs.settled p hp hextracts (by simpa [Pipeline.unread, hread] using heffect.trans hnone)
    rwa [if_neg (by simp [readingPath, hread])] at hsettled

/-- Entries stay settled, one case per kind of step. -/
theorem entriesSettled_move (hordered : WellOrdered nested s)
    (hannounced : Announced nested s) (hadmitted : Admitted nested s) (hs : EntriesSettled nested extractor s)
    (h : Moves nested extractor s s') : EntriesSettled nested extractor s' := by
  cases h with
  | @operated op vault event h =>
    refine ⟨fun p hp hextracts hlast => ?_, hs.excluded⟩
    rw [later_operated] at hlast
    rcases operated_cases h hp s.unread with ⟨there, hsome, -⟩ | ⟨hsame, hvault⟩
    · exact absurd (hsome.symm.trans hlast) (by simp)
    · have hsettled := hs.settled p hp (hextracts.congr hvault.symm) (hsame.symm.trans hlast)
      rw [← expectedEntry_congr extractor hvault] at hsettled
      exact hsettled
  | shifted h =>
    refine ⟨fun p hp hextracts hlast => ?_, ?_⟩
    · rw [h.unread] at hlast
      rw [h.vault] at hextracts
      rw [h.readingPath, h.read, h.cache, h.vault]
      exact hs.settled p hp hextracts hlast
    · rw [h.cache]
      exact hs.excluded
  | @read c rest htodo hread hreach =>
    refine ⟨fun p hp hextracts hlast => ?_, fun p hp => ?_⟩
    · have hrest : lastEffect nested p (rest ++ s.later nested) = none := by
        simpa [Pipeline.unread, later, htodo] using hlast
      by_cases hc : c.path = p
      · simp [readingPath, htodo, hc]
      · rw [if_neg (by simp [readingPath, htodo, hc])]
        exact hs.dropStale hordered hannounced htodo hread hp hextracts (fun hr => hc hr.2) hrest
    · rw [get_dropStale, hs.excluded p hp, ite_self]
  | @dropped c rest htodo hread hreach =>
    refine ⟨fun p hp hextracts hlast => ?_, fun p hp => ?_⟩
    · have hrest : lastEffect nested p (rest ++ s.later nested) = none := by
        simpa [Pipeline.unread, later, hread] using hlast
      rw [if_neg (by simp [readingPath, hread])]
      exact hs.dropStale hordered hannounced htodo hread hp hextracts (fun hr => by simp [hr.1] at hreach) hrest
    · rw [get_dropStale, hs.excluded p hp, ite_self]
  | @stored c rest result cache htodo hread h =>
    obtain ⟨_, _, hcons, hreach⟩ := hordered.reading (by simp [hread])
    rw [htodo] at hcons
    cases hcons
    refine ⟨fun p hp hextracts hlast => ?_, fun p hp => ?_⟩
    · have hrest : lastEffect nested p (rest ++ s.later nested) = none := hlast
      have hsettled := hs.settled p hp hextracts (by simpa [Pipeline.unread, hread, htodo] using hrest)
      rw [if_neg (by simp [readingPath])]
      rw [storeResult_get h p]
      by_cases hc : c.path = p
      · subst hc
        rw [if_pos (by simp [readingPath, hread, htodo]), hread, Option.some.injEq] at hsettled
        have hthere := hannounced.there hordered htodo hreach hp hrest
        obtain ⟨entry, hentry⟩ := Option.isSome_iff_exists.mp (hextracts hthere)
        rw [if_pos rfl, hsettled, hentry, Option.some_or]
      · rw [if_neg hc]
        rwa [if_neg (by simp [readingPath, hread, htodo, hc])] at hsettled
    · have hne := hadmitted.path_ne hordered htodo hreach hp
      rw [storeResult_get h p, if_neg hne, hs.excluded p hp]
  | synced hextract hsync hbusy h => exact ⟨hs.settled, hs.excluded⟩

omit [Zero ν] in
theorem MtimesSettled.dropStale (hs : MtimesSettled nested s) (hordered : WellOrdered nested s)
    (hannounced : Announced nested s) {c : FileChange} {rest : List FileChange} (htodo : s.extractTodo = c :: rest)
    (hread : s.read = none) {p : VaultPath} (hp : isExcluded nested p = false) (hreach : ¬ c.reaches nested p)
    (hlast : lastEffect nested p (rest ++ s.later nested) = none) :
    (dropStale c s.cache).mtime p = (s.vault.get p).map File.mtime := by
  have heffect : lastEffect nested p (s.extractTodo ++ s.later nested) = effectOn nested p c := by
    rw [htodo, List.cons_append, lastEffect_cons, hlast, Option.none_or]
  rw [mtime_dropStale]
  split_ifs with hdrop
  · have hgone : effectOn nested p c = some false := by simp [effectOn, hreach, hdrop]
    have hnone : s.vault.get p = none := by simpa using hannounced.unread hordered hp (heffect.trans hgone)
    rw [hnone, Option.map_none]
  · have hnone := (effectOn_eq_none_iff nested p c).mpr ⟨hreach, hdrop⟩
    exact hs.settled p hp (by simpa [Pipeline.unread, hread] using heffect.trans hnone) (by simp [readingPath, hread])

theorem mtimesSettled_move (hsucceeds : Succeeds nested extractor) (hordered : WellOrdered nested s)
    (hannounced : Announced nested s) (hadmitted : Admitted nested s) (hentries : EntriesSettled nested extractor s)
    (hs : MtimesSettled nested s) (h : Moves nested extractor s s') : MtimesSettled nested s' := by
  cases h with
  | @operated op vault event h =>
    refine ⟨fun p hp hlast hreading => ?_, hs.excluded⟩
    rw [later_operated] at hlast
    rcases operated_cases h hp s.unread with ⟨there, hsome, -⟩ | ⟨hsame, hvault⟩
    · exact absurd (hsome.symm.trans hlast) (by simp)
    · exact (hs.settled p hp (hsame.symm.trans hlast) hreading).trans (congrArg (Option.map File.mtime) hvault.symm)
  | shifted h =>
    refine ⟨fun p hp hlast hreading => ?_, ?_⟩
    · rw [h.unread] at hlast
      rw [h.readingPath] at hreading
      rw [h.cache, h.vault]
      exact hs.settled p hp hlast hreading
    · rw [h.cache]
      exact hs.excluded
  | @read c rest htodo hread hreach =>
    refine ⟨fun p hp hlast hreading => ?_, fun p hp => ?_⟩
    · have hrest : lastEffect nested p (rest ++ s.later nested) = none := by
        simpa [Pipeline.unread, later, htodo] using hlast
      have hc : c.path ≠ p := by simpa [readingPath, htodo] using hreading
      exact hs.dropStale hordered hannounced htodo hread hp (fun hr => hc hr.2) hrest
    · rw [mtime_dropStale, hs.excluded p hp, ite_self]
  | @dropped c rest htodo hread hreach =>
    refine ⟨fun p hp hlast hreading => ?_, fun p hp => ?_⟩
    · have hrest : lastEffect nested p (rest ++ s.later nested) = none := by
        simpa [Pipeline.unread, later, hread] using hlast
      exact hs.dropStale hordered hannounced htodo hread hp (fun hr => by simp [hr.1] at hreach) hrest
    · rw [mtime_dropStale, hs.excluded p hp, ite_self]
  | @stored c rest result cache htodo hread h =>
    obtain ⟨_, _, hcons, hreach⟩ := hordered.reading (by simp [hread])
    rw [htodo] at hcons
    cases hcons
    refine ⟨fun p hp hlast hreading => ?_, fun p hp => ?_⟩
    · have hrest : lastEffect nested p (rest ++ s.later nested) = none := hlast
      by_cases hc : c.path = p
      · subst hc
        have hthere := hannounced.there hordered htodo hreach hp hrest
        have hextracts : ExtractsAt extractor s.vault c.path := expectedEntry_isSome hsucceeds hp
        have hsettled := hentries.settled c.path hp hextracts (by simpa [Pipeline.unread, hread, htodo] using hrest)
        rw [if_pos (by simp [readingPath, hread, htodo]), hread, Option.some.injEq] at hsettled
        obtain ⟨entry, hentry⟩ := Option.isSome_iff_exists.mp (expectedEntry_isSome hsucceeds hp hthere)
        obtain ⟨file, hfile⟩ := Option.isSome_iff_exists.mp hthere
        rw [hsettled, hentry] at h
        simp only [storeResult, statFile, hfile, Outcome.done.injEq] at h
        simp [← h, ExtractionCache.mtime_set, hfile]
      · rw [storeResult_mtime_ne h hc]
        exact hs.settled p hp (by simpa [Pipeline.unread, hread, htodo] using hrest) (by simp [readingPath, hread, htodo, hc])
    · have hne := hadmitted.path_ne hordered htodo hreach hp
      rw [storeResult_mtime_ne h hne, hs.excluded p hp]
  | synced hextract hsync hbusy h => exact ⟨hs.settled, hs.excluded⟩

omit [Zero ν] in
theorem RowAgrees.congr {vault vault' : Vault κ ν} {files : FilesTable ν} {p : VaultPath}
    (h : RowAgrees extractor vault files p) (hvault : vault'.get p = vault.get p) : RowAgrees extractor vault' files p := by
  rw [RowAgrees, hvault]
  exact h

private theorem rowFor_found {result : Option (PyDict ν)} {m : ν} {size : Nat} {row : Row ν}
    (h : rowFor result (.found m size) = .ok row) : row.mtime = m ∧ row.size = size ∧
      itemCount "nodes" result = .ok row.nodeCount ∧ itemCount "edges" result = .ok row.edgeCount := by
  unfold rowFor at h
  split at h
  · cases h
  · split at h
    · cases h
    · rename_i hnodes _ _ hedges
      cases h
      exact ⟨rfl, rfl, hnodes, hedges⟩

private theorem rowsSettled_move (hsucceeds : Succeeds nested extractor) (hordered : WellOrdered nested s)
    (hannounced : Announced nested s)
    (hadmitted : Admitted nested s) (hentries : EntriesSettled nested extractor s)
    (hs : RowsSettled nested extractor s) (h : Moves nested extractor s s') : RowsSettled nested extractor s' := by
  cases h with
  | @operated op vault event h =>
    refine ⟨fun p hp hlast => ?_, hs.excluded⟩
    rw [later_operated] at hlast
    rcases operated_cases h hp s.syncTodo with ⟨there, hsome, -⟩ | ⟨hsame, hvault⟩
    · exact absurd (hsome.symm.trans hlast) (by simp)
    · exact (hs.settled p hp (hsame.symm.trans hlast)).congr hvault
  | shifted h =>
    refine ⟨fun p hp hlast => ?_, ?_⟩
    · rw [h.unsynced] at hlast
      rw [h.files, h.vault]
      exact hs.settled p hp hlast
    · rw [h.files]
      exact hs.excluded
  | read | dropped | stored => exact ⟨hs.settled, hs.excluded⟩
  | @synced c rest files hextract hsync hbusy h =>
    have hget := syncChange_get (b := (c, Observation.ofStat (statFile s.vault c.path))) h
    refine ⟨fun p hp hlast => ?_, fun p hp => ?_⟩
    · have hrest : lastEffect nested p (rest ++ s.later nested) = none := hlast
      have heffect : lastEffect nested p (s.syncTodo ++ s.later nested) = effectOn nested p c := by
        rw [hsync, List.cons_append, lastEffect_cons, hrest, Option.none_or]
      by_cases hreach : c.reaches nested p
      · obtain ⟨hreachPath, rfl⟩ := hreach
        have hthere := hannounced c.path hp true (heffect.trans (by simp [effectOn, FileChange.reaches, hreachPath]))
        obtain ⟨file, hfile⟩ := Option.isSome_iff_exists.mp hthere
        have hread := hordered.unread_nil hextract
        have hextracts : ExtractsAt extractor s.vault c.path := expectedEntry_isSome hsucceeds hp
        have hentry := hentries.settled c.path hp hextracts (by
          rw [lastEffect_append, Option.or_eq_none_iff] at hrest
          simpa [Pipeline.unread, hread, hextract] using hrest.1)
        rw [if_neg (by simp [readingPath, hread]), expectedEntry, hfile] at hentry
        obtain ⟨row, hrow, hstored⟩ := syncChange_row h hreachPath
        rw [hentry] at hrow
        have hfound : statFile s.vault c.path = .found file.mtime file.size := by simp [statFile, hfile]
        simp only [Observation.ofStat, hfound] at hrow
        simp only [RowAgrees, hfile]
        exact ⟨row, hstored, rowFor_found hrow⟩
      · by_cases hdrop : c.drops p
        · have hgone : effectOn nested p c = some false := by simp [effectOn, hreach, hdrop]
          have hnone : s.vault.get p = none := by simpa using hannounced p hp false (heffect.trans hgone)
          simp [RowAgrees, hnone, hget, rowAfter, hreach, hdrop]
        · have hnone := (effectOn_eq_none_iff nested p c).mpr ⟨hreach, hdrop⟩
          have hbefore := hs.settled p hp (heffect.trans hnone)
          have hsame : files.get p = s.files.get p := by simp [hget, rowAfter, hreach, hdrop]
          simpa [RowAgrees, hsame] using hbefore
    · have hnot : ¬ c.reaches nested p := by
        rintro ⟨hreach, rfl⟩
        simp [hadmitted c (List.mem_append_left _ (by simp [hsync])) hreach] at hp
      by_cases hdrop : c.drops p <;> simp [hget, rowAfter, hnot, hdrop, hs.excluded p hp]

end Steps

/-- What every run keeps of the entries. -/
structure EntriesInvariant (nested : List String) (extractor : VaultPath → κ → Json ν) (s : Pipeline κ ν) : Prop where
  ordered : WellOrdered nested s
  announced : Announced nested s
  admitted : Admitted nested s
  entries : EntriesSettled nested extractor s

theorem entriesInvariant_step {e : PipelineEvent κ ν} {s s' : Pipeline κ ν}
    (hs : EntriesInvariant nested extractor s) (h : Pipeline.step nested extractor e s = some s') :
    EntriesInvariant nested extractor s' := by
  have hmove := moves_of_step hs.ordered h
  exact ⟨wellOrdered_move hs.ordered hmove, announced_move hs.announced hmove, admitted_move hs.admitted hmove,
    entriesSettled_move hs.ordered hs.announced hs.admitted hs.entries hmove⟩

omit [Zero ν] in
theorem entriesInvariant_idle {vault : Vault κ ν} {cache : ExtractionCache ν} {files : FilesTable ν}
    (hentries : ∀ p, isExcluded nested p = false → ExtractsAt extractor vault p →
      cache.get p = expectedEntry extractor vault p)
    (hexcluded : ∀ p, isExcluded nested p = true → cache.get p = none) :
    EntriesInvariant nested extractor (.idle vault cache files) where
  ordered := ⟨List.suffix_refl _, fun _ => rfl, fun h => by simp [Pipeline.idle] at h⟩
  announced := fun p _ there h => by simp [Pipeline.idle, later] at h
  admitted := fun c hc => by simp [Pipeline.idle, later] at hc
  entries := {
    settled := fun p hp hextracts _ => by simpa [Pipeline.idle, readingPath, hp] using hentries p hp hextracts
    excluded := hexcluded }

omit [Zero ν] in
/-- Once nothing is under way, no path has anything left to be read or synced. -/
theorem Pipeline.Quiescent.settled {s : Pipeline κ ν} (hquiet : s.Quiescent) (hordered : WellOrdered nested s) :
    s.read = none ∧ s.unread ++ s.later nested = [] ∧ s.syncTodo ++ s.later nested = [] := by
  obtain ⟨hundelivered, hpending, hqueued, hidle⟩ := hquiet
  have hsync := hordered.idle hidle
  have hextract : s.extractTodo = [] := by simpa [hsync] using hordered.suffix
  have hread := hordered.unread_nil hextract
  simp [Pipeline.unread, later, hundelivered, hpending, hqueued, hsync, hextract, hread]

omit [Zero ν] in
theorem EntriesInvariant.converged {s : Pipeline κ ν} (hs : EntriesInvariant nested extractor s)
    (hquiet : s.Quiescent) {p : VaultPath} (hextracts : isExcluded nested p = false → ExtractsAt extractor s.vault p) :
    s.cache.get p = if isExcluded nested p then none else expectedEntry extractor s.vault p := by
  obtain ⟨hread, hunread, -⟩ := hquiet.settled hs.ordered
  cases hp : isExcluded nested p with
  | true => simpa using hs.entries.excluded p hp
  | false => simpa [readingPath, hread] using hs.entries.settled p hp (hextracts hp) (by rw [hunread]; rfl)

/-- Cache and table tell exactly of the files that are there and not excluded. -/
structure Agrees (nested : List String) (extractor : VaultPath → κ → Json ν) (vault : Vault κ ν)
    (cache : ExtractionCache ν) (files : FilesTable ν) : Prop where
  entries : ∀ p, cache.get p = if isExcluded nested p then none else expectedEntry extractor vault p
  mtimes : ∀ p, cache.mtime p = if isExcluded nested p then none else (vault.get p).map File.mtime
  rows : ∀ p, if isExcluded nested p then files.get p = none else RowAgrees extractor vault files p

/-- A note is written, and written again between the read and the `stat` of its compile. -/
def writtenWhileCompiled : List (PipelineEvent String Nat) :=
  [.operate (.write notePath ⟨"a", 1, 1⟩), .deliver, .flush, .startCompile, .extractRead,
    .operate (.write notePath ⟨"b", 2, 1⟩), .extractStat, .syncOne, .finish, .deliver, .flush, .startCompile,
    .extractRead, .extractStat, .syncOne, .finish]

end GraphifyDaemon
