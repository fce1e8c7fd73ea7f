import GraphifyDaemon.Daemon.ArtifactDisk
import GraphifyDaemon.Vault.LiveVault

/-! What the next process has to read of a vault that this one has caught up with: the files that
were modified in between. -/
namespace GraphifyDaemon
open Library Library.Trace Pipeline

variable {κ ν γ τ : Type} {nested : List String} {extractor : VaultPath → κ → Json ν} {vault : Vault κ ν}

/-- No modification time is recorded of a path without an entry. -/
def Paired (cache : ExtractionCache ν) : Prop := ∀ p, cache.get p = none → cache.mtime p = none

/-- The walk so far: what was observed has its modification time. -/
structure Recorded (nested : List String) (vault : Vault κ ν) (r : Reconciliation ν) : Prop where
  paired : Paired r.cache
  observed : ∀ p ∈ r.observed, isExcluded nested p = false ∧ (vault.get p).isSome = true ∧
    r.cache.mtime p = (vault.get p).map File.mtime

private theorem paired_empty : Paired (.empty : ExtractionCache ν) := fun _ _ => rfl

section Walk
variable [DecidableEq ν]

theorem Recorded.visit (hsucceeds : Succeeds nested extractor) {r : Reconciliation ν} (hr : Recorded nested vault r)
    {p : VaultPath} (hp : (vault.get p).isSome = true) :
    Recorded nested vault (coldVisit nested (walkEntry extractor vault p) r).store := by
  obtain ⟨file, hfile⟩ := Option.isSome_iff_exists.mp hp
  cases hex : isExcluded nested p with
  | true =>
    have hpassed : (walkEntry extractor vault p).PassedOver nested := .inr ⟨rfl, .inl hex⟩
    rw [coldVisit_of_passedOver hpassed]
    exact hr
  | false =>
    obtain ⟨result, hresult⟩ := Option.isSome_iff_exists.mp (hsucceeds p file.content hex)
    have hextract : extractFileWithFailureIsolation (readFile extractor vault p) p = some result := by
      rw [extract_readFile, expectedEntry, hfile]
      exact hresult
    have hstat : (walkEntry extractor vault p).stat = .found file.mtime file.size := by
      simp only [walkEntry, statFile, hfile]
    have hadmitted : (walkEntry extractor vault p).Admitted nested := ⟨rfl, hex, rfl⟩
    rw [coldVisit_of_admitted hadmitted hstat]
    simp only [walkEntry, hextract, storeAtMtime, Outcome.store_done]
    split_ifs with hm
    · refine ⟨hr.paired, fun q hq => ?_⟩
      rcases List.mem_append.mp hq with hold | hnew
      · exact hr.observed q hold
      · obtain rfl := List.mem_singleton.mp hnew
        exact ⟨hex, hp, by rw [hm, hfile]; rfl⟩
    · refine ⟨fun q hq => ?_, fun q hq => ?_⟩
      · dsimp only at hq ⊢
        by_cases hpq : p = q
        · simp [ExtractionCache.get_set, hpq] at hq
        · rw [ExtractionCache.get_set, if_neg hpq] at hq
          rw [ExtractionCache.mtime_set, if_neg hpq]
          exact hr.paired q hq
      · dsimp only
        by_cases hpq : p = q
        · subst hpq
          exact ⟨hex, hp, by simp [ExtractionCache.mtime_set, hfile]⟩
        · rw [ExtractionCache.mtime_set, if_neg hpq]
          rcases List.mem_append.mp hq with hold | hnew
          · exact hr.observed q hold
          · exact absurd (List.mem_singleton.mp hnew).symm hpq

/-- A cold start over a vault at rest leaves the modification times of its files. -/
theorem mtimes_of_coldStart (hsucceeds : Succeeds nested extractor) {G : Graphify ν γ τ} {walk : List (WalkEntry ν)}
    (hwalk : WalksOver extractor vault walk) {saved : SavedCache ν} {startedAt : Nat}
    (hsound : ∀ p, isExcluded nested p = false → SoundAt extractor vault saved.loaded p) (hpaired : Paired saved.loaded)
    {d : Daemon ν γ τ} (hcold : (Daemon.restarted startedAt saved).coldStart G nested walk = .done d) (p : VaultPath) :
    d.cache.mtime p = if isExcluded nested p then none else (vault.get p).map File.mtime := by
  have hwhole : saved ≠ .torn := by
    rintro rfl
    cases hcold
  have hstart : ReconcileInvariant nested extractor vault ⟨saved.loaded, []⟩ := ⟨hsound, fun _ h => by cases h⟩
  obtain ⟨r, hloop, -, -, hall⟩ := hstart.walk hsucceeds hwalk.only
  have hrecorded : Recorded nested vault (Outcome.forEach (coldVisit nested) walk ⟨saved.loaded, []⟩).store := by
    apply Outcome.forEach_store_invariant (Recorded nested vault) _ ⟨hpaired, fun _ h => by cases h⟩
    intro entry hentry r hr
    rcases hwalk.only entry hentry with hdir | ⟨q, hq, rfl⟩
    · rw [coldVisit_of_passedOver (.inl hdir)]
      exact hr
    · exact hr.visit hsucceeds hq
  rw [hloop, Outcome.store_done] at hrecorded
  have hcache : d.cache = dropUnobserved r.observed r.cache := by
    have hstore := congrArg (fun o => (Outcome.store o).cache) hcold
    rw [coldStart_restarted G hwhole, runColdStart, hloop] at hstore
    dsimp only at hstore
    split at hstore
    · exact hstore.symm
    · rw [Outcome.store_within] at hstore
      exact hstore.symm
  rw [hcache, (dropUnobserved_at _ _ _).2]
  by_cases ho : p ∈ r.observed
  · obtain ⟨hp, -, hmtime⟩ := hrecorded.observed p ho
    rw [if_pos (.inl ho), hmtime, hp]
    rfl
  · have hnone : (if p ∈ r.observed ∨ r.cache.get p = none then r.cache.mtime p else none) = none := by
      split_ifs with h
      · exact hrecorded.paired p (h.resolve_left ho)
      · rfl
    rw [hnone]
    cases hp : isExcluded nested p with
    | true => rfl
    | false =>
      cases hfile : vault.get p with
      | none => rfl
      | some file => exact absurd (hall p hp (by simp [hfile]) (hwalk.every p (by simp [hfile]))) ho

end Walk

namespace LiveDaemon
variable [Zero ν] [DecidableEq ν] {T : Toolbox ν γ τ} {s s' : LiveDaemon κ ν γ τ}

/-- What a run keeps for the next process: besides the entries, their modification times, and the
index of the graph that is served. -/
structure Recallable (nested : List String) (extractor : VaultPath → κ → Json ν) (T : Toolbox ν γ τ)
    (s : LiveDaemon κ ν γ τ) : Prop where
  kept : ∃ snapshots, Invariant nested extractor T snapshots s
  mtimes : MtimesSettled nested s.pipeline
  indexed : ∀ snapshot, s.server.holder.current = some snapshot → CarriesIndex T.graphify snapshot

omit [Zero ν] [DecidableEq ν] in
private theorem carriesIndex_of_publish {graph : γ} {communityMap : CommunityMap} {holder holder' : SnapshotHolder γ τ}
    (h : holder.publish T.graphify graph communityMap = .done holder') :
    ∀ snapshot, holder'.current = some snapshot → CarriesIndex T.graphify snapshot := by
  obtain ⟨index, hindex, rfl⟩ := publish_eq_done.mp h
  rintro _ ⟨⟩
  exact hindex

theorem Recallable.step (hs : Recallable nested extractor T s) (hsucceeds : Succeeds nested extractor)
    (hempty : T.engine.EmptyFiltersAreNone) {e : LiveEvent κ ν γ} (h : LiveDaemon.step nested extractor T e s = some s') :
    Recallable nested extractor T s' := by
  obtain ⟨snapshots, hkept⟩ := hs.kept
  have hinvariant := hkept.step hsucceeds hempty h
  cases e with
  | vault e =>
    obtain ⟨hstep, hmoves⟩ := vaultMoves_of_step h
    have hentries := hkept.entries
    have hmtimes := mtimesSettled_move hsucceeds hentries.ordered hentries.announced hentries.admitted hentries.entries
      hs.mtimes (moves_of_step hentries.ordered hstep)
    refine ⟨hinvariant, hmtimes, ?_⟩
    cases hmoves <;> exact hs.indexed
  | publish =>
    simp only [LiveDaemon.step, LiveDaemon.publish] at h
    split at h
    · split at h
      · cases h
      · split at h <;> cases h
        rename_i hpublish
        exact ⟨hinvariant, hs.mtimes, carriesIndex_of_publish hpublish⟩
    · cases h
  | cluster clustering =>
    simp only [LiveDaemon.step, LiveDaemon.cluster] at h
    split at h <;> cases h
    rename_i holder hunpublished hcycle
    refine ⟨hinvariant, hs.mtimes, ?_⟩
    unfold runClusteringCycle at hcycle
    split at hcycle
    · cases hcycle
      exact hs.indexed
    · split at hcycle
      · cases hcycle
        exact hs.indexed
      · exact carriesIndex_of_publish hcycle
  | serve e =>
    obtain ⟨hother, server, hserver, rfl⟩ := serve_of_step h
    refine ⟨hinvariant, hs.mtimes, ?_⟩
    rw [holder_of_step hserver hother]
    exact hs.indexed

theorem Recallable.started (hsucceeds : Succeeds nested extractor) {d : Daemon ν γ τ} {walk : List (WalkEntry ν)}
    (hwalk : WalksOver extractor vault walk) {saved : SavedCache ν} {startedAt : Nat}
    (hsound : ∀ p, isExcluded nested p = false → SoundAt extractor vault saved.loaded p) (hpaired : Paired saved.loaded)
    (hcold : (Daemon.restarted startedAt saved).coldStart T.graphify nested walk = .done d) (cacheSize : Int)
    (latencyWindow : Nat) : Recallable nested extractor T (.started vault d cacheSize latencyWindow) := by
  have hmtimes := mtimes_of_coldStart hsucceeds hwalk hsound hpaired hcold
  have hstarted : ColdStarted nested extractor T vault d := ⟨saved, startedAt, walk, hwalk, hsound, hcold⟩
  refine ⟨Invariant.started hsucceeds hstarted cacheSize latencyWindow, ⟨?_, ?_⟩, ?_⟩
  · intro p hp _ _
    simpa [LiveDaemon.started, Pipeline.idle, hp] using hmtimes p
  · intro p hp
    simpa [LiveDaemon.started, Pipeline.idle, hp] using hmtimes p
  · exact fun snapshot hcurrent => indexed_of_coldStart hcold hcurrent

theorem Recallable.mtime_of_quiescent (hs : Recallable nested extractor T s) (hquiet : s.pipeline.Quiescent)
    {p : VaultPath} (hp : isExcluded nested p = false) :
    s.pipeline.cache.mtime p = (s.pipeline.vault.get p).map File.mtime := by
  obtain ⟨snapshots, hkept⟩ := hs.kept
  obtain ⟨hread, hunread, -⟩ := hquiet.settled hkept.entries.ordered
  exact hs.mtimes.settled p hp (by rw [hunread]; rfl) (by simp [readingPath, hread])

/-- What a process that has caught up saves is what a process may start from. -/
theorem Recallable.saved (hs : Recallable nested extractor T s) (hsucceeds : Succeeds nested extractor)
    (hquiet : s.pipeline.Quiescent) : Paired s.pipeline.cache ∧
      ∀ p, isExcluded nested p = false → SoundAt extractor s.pipeline.vault s.pipeline.cache p := by
  obtain ⟨snapshots, hkept⟩ := hs.kept
  have hentries := fun p => hkept.entries.converged hquiet (p := p) (expectedEntry_isSome hsucceeds)
  constructor
  · intro p hnone
    cases hp : isExcluded nested p with
    | true => exact hs.mtimes.excluded p hp
    | false =>
      have hgone : s.pipeline.vault.get p = none := by
        by_contra hthere
        have hsome := expectedEntry_isSome hsucceeds hp (Option.isSome_iff_ne_none.mpr hthere)
        have hentry := hentries p
        rw [hnone, hp, if_neg (by simp)] at hentry
        rw [← hentry] at hsome
        cases hsome
      rw [hs.mtime_of_quiescent hquiet hp, hgone]
      rfl
  · intro p hp file hfile _
    rw [hentries p, hp, expectedEntry, hfile]
    rfl

end LiveDaemon

section Restart

/-- Two walks see the same, but for the contents of files that have the modification time which
they have in the vault. -/
structure DiffersInUnmodified (nested : List String) (vault : Vault κ ν) (entry other : WalkEntry ν) : Prop where
  path : entry.path = other.path
  isDir : entry.isDir = other.isDir
  confined : entry.confined = other.confined
  stat : entry.stat = other.stat
  extractor : entry.extractor = other.extractor ∨ isExcluded nested entry.path = false ∧
    ∃ file size, vault.get entry.path = some file ∧ entry.stat = .found file.mtime size

/-- A walk over the files of a vault, whatever is in them. -/
structure Revisits (vault : Vault κ ν) (walk : List (WalkEntry ν)) : Prop where
  only : ∀ entry ∈ walk, entry.isDir = .ok true ∨ entry.isDir = .ok false ∧ entry.confined = .ok true ∧
    ∃ file, vault.get entry.path = some file ∧ entry.stat = .found file.mtime file.size
  every : ∀ p file, vault.get p = some file → ∃ entry ∈ walk, entry.path = p ∧ entry.isDir = .ok false

variable [Zero ν] [DecidableEq ν] {T : Toolbox ν γ τ} {s : LiveDaemon κ ν γ τ}

private theorem upToDate_of_quiescent (hs : LiveDaemon.Recallable nested extractor T s) (hquiet : s.pipeline.Quiescent)
    {entry : WalkEntry ν} (hp : isExcluded nested entry.path = false) {file : File κ ν} {size : Nat}
    (hfile : s.pipeline.vault.get entry.path = some file) (hstat : entry.stat = .found file.mtime size) :
    entry.UpToDate s.pipeline.cache := by
  refine ⟨file.mtime, size, hstat, ?_⟩
  rw [hs.mtime_of_quiescent hquiet hp, hfile]
  rfl

private theorem seesSame_of_quiescent (hs : LiveDaemon.Recallable nested extractor T s) (hquiet : s.pipeline.Quiescent)
    {entry other : WalkEntry ν} (h : DiffersInUnmodified nested s.pipeline.vault entry other) :
    entry.SeesSame s.pipeline.cache other := by
  refine ⟨h.path, h.isDir, h.confined, h.stat, ?_⟩
  rcases h.extractor with heq | ⟨hp, file, size, hfile, hstat⟩
  · exact .inr heq
  · exact .inl (upToDate_of_quiescent hs hquiet hp hfile hstat)

/-- Going through the vault again, the next process has nothing to do at any path. -/
theorem Revisits.unmodified {later : List (WalkEntry ν)} (hlater : Revisits s.pipeline.vault later)
    (hs : LiveDaemon.Recallable nested extractor T s) (hquiet : s.pipeline.Quiescent) :
    ∀ entry ∈ later, entry.Unmodified nested s.pipeline.cache := by
  intro entry hentry
  rcases hlater.only entry hentry with hdir | ⟨hdir, hconfined, file, hfile, hstat⟩
  · exact .inl (.inl hdir)
  · cases hp : isExcluded nested entry.path with
    | true => exact .inl (.inr ⟨hdir, .inl hp⟩)
    | false => exact .inr ⟨⟨hdir, hp, hconfined⟩, .inl (upToDate_of_quiescent hs hquiet hp hfile hstat)⟩

omit [Zero ν] [DecidableEq ν] in
/-- It comes by every file that has an entry. -/
theorem Revisits.admits {later : List (WalkEntry ν)} (hlater : Revisits s.pipeline.vault later)
    (hentries : ∀ p, s.pipeline.cache.get p =
      if isExcluded nested p then none else expectedEntry extractor s.pipeline.vault p) :
    ∀ p ∈ s.pipeline.cache.entries.keys, ∃ entry ∈ later, entry.path = p ∧ entry.Admitted nested := by
  intro p hp
  have hsome : (s.pipeline.cache.get p).isSome = true := (OrderedDict.mem_keys_iff s.pipeline.cache.entries p).mp hp
  rw [hentries p] at hsome
  cases hex : isExcluded nested p with
  | true => simp [hex] at hsome
  | false =>
    have hfile : (s.pipeline.vault.get p).isSome = true := by
      by_contra hgone
      simp [hex, expectedEntry_eq_none extractor (Bool.eq_false_iff.mpr hgone)] at hsome
    obtain ⟨file, hfile⟩ := Option.isSome_iff_exists.mp hfile
    obtain ⟨entry, hentry, rfl, hdir⟩ := hlater.every p file hfile
    rcases hlater.only entry hentry with hdir' | ⟨-, hconfined, -⟩
    · simp [hdir] at hdir'
    · exact ⟨entry, hentry, rfl, hdir, hex, hconfined⟩

/-- Once the daemon has caught up, its cache is worth a restart: the next process reads no file
that still has its modification time then, and where all have, it serves the same graph from the
same cache. So may the process after it. -/
theorem restart_reads_modified_only (hempty : T.engine.EmptyFiltersAreNone) (hsucceeds : Succeeds nested extractor)
    {d : Daemon ν γ τ} {walk : List (WalkEntry ν)} (hwalk : WalksOver extractor vault walk) {saved : SavedCache ν}
    {startedAt : Nat} (hsound : ∀ p, isExcluded nested p = false → SoundAt extractor vault saved.loaded p)
    (hpaired : Paired saved.loaded)
    (hcold : (Daemon.restarted startedAt saved).coldStart T.graphify nested walk = .done d)
    {cacheSize : Int} {latencyWindow : Nat} {events : List (LiveEvent κ ν γ)}
    (hrun : exec (LiveDaemon.step nested extractor T) events (.started vault d cacheSize latencyWindow) = some s)
    (hquiet : s.pipeline.Quiescent) (restartedAt : Nat) :
    let next : Daemon ν γ τ := Daemon.restarted restartedAt (.intact s.pipeline.cache)
    (Paired s.pipeline.cache ∧ ∀ p, isExcluded nested p = false → SoundAt extractor s.pipeline.vault s.pipeline.cache p) ∧
    (∀ later later', List.Forall₂ (DiffersInUnmodified nested s.pipeline.vault) later later' →
      (later.map WalkEntry.path).Nodup → next.coldStart T.graphify nested later = next.coldStart T.graphify nested later') ∧
    ∃ snapshot, s.server.holder.current = some snapshot ∧ ∀ later, Revisits s.pipeline.vault later →
      ∃ d', next.coldStart T.graphify nested later = .done d' ∧ d'.cache = s.pipeline.cache ∧
        d'.holder.current = some ⟨snapshot.graph, snapshot.trigramIndex, .empty, 1⟩ := by
  intro next
  have hs : LiveDaemon.Recallable nested extractor T s :=
    exec_invariant_of_step (LiveDaemon.Recallable nested extractor T)
      (fun _ _ _ hs hstep => hs.step hsucceeds hempty hstep)
      (LiveDaemon.Recallable.started hsucceeds hwalk hsound hpaired hcold cacheSize latencyWindow) hrun
  obtain ⟨snapshots, hkept⟩ := hs.kept
  have hnext : ∀ later, next.coldStart T.graphify nested later =
      runColdStart T.graphify nested later { next with cache := s.pipeline.cache } := fun _ => rfl
  refine ⟨hs.saved hsucceeds hquiet, ?_, ?_⟩
  · intro later later' hsame hdistinct
    have hsees : List.Forall₂ (WalkEntry.SeesSame s.pipeline.cache) later later' :=
      hsame.imp fun _ _ h => seesSame_of_quiescent hs hquiet h
    rw [hnext, hnext, runColdStart, runColdStart]
    dsimp only
    rw [walk_congr (r := ⟨s.pipeline.cache, []⟩) hsees hdistinct (fun _ _ => rfl)]
  · obtain ⟨snapshot, hcurrent, hgraph⟩ := hkept.current
    rw [← hkept.published_of_quiescent hquiet] at hgraph
    have hentries := fun p => hkept.entries.converged hquiet (p := p) (expectedEntry_isSome hsucceeds)
    refine ⟨snapshot, hcurrent, fun later hlater => ?_⟩
    have hrestart := runColdStart_unmodified (d := { next with cache := s.pipeline.cache })
      (hlater.unmodified hs hquiet) (hlater.admits hentries) hgraph (hs.indexed snapshot hcurrent)
    exact ⟨_, (hnext later).trans hrestart, rfl, rfl⟩

end Restart

/-- The note as the next process finds it, were it to read it in vain. -/
def unreadableNote : WalkEntry Int := ⟨notePath, .ok false, .ok true, .found 1 1, .error .runtimeError⟩

theorem restart_reads_modified_only_unreadableNote :
    ∃ s, exec (LiveDaemon.step [] namedNote notesToolbox) askedWhileCompiled (.started .empty emptyStart 512 1000) =
        some s ∧
      ∃ snapshot d', s.server.holder.current = some snapshot ∧
        (Daemon.restarted 9 (.intact s.pipeline.cache)).coldStart notesToolbox.graphify [] [unreadableNote] = .done d' ∧
        d'.cache.get notePath = s.pipeline.cache.get notePath ∧
        d'.holder.current = some ⟨snapshot.graph, snapshot.trigramIndex, .empty, 1⟩ := by
  have hend : (exec (LiveDaemon.step [] namedNote notesToolbox) askedWhileCompiled
      (.started .empty emptyStart 512 1000)).map (fun s => (s.pipeline.vault.items, s.pipeline.undelivered.isEmpty,
        s.pipeline.pending.isEmpty, s.pipeline.queued.isEmpty, s.pipeline.compiling)) =
      some ([(notePath, ⟨"alpha", 1, 1⟩)], true, true, true, false) := by decide +kernel
  obtain ⟨s, hrun, hs⟩ := Option.map_eq_some_iff.mp hend
  simp only [Prod.mk.injEq] at hs
  obtain ⟨hvault, hquiet⟩ := hs
  have hnote : s.pipeline.vault.get notePath = some ⟨"alpha", 1, 1⟩ := by
    rw [OrderedDict.get_eq_some_iff, hvault]
    exact List.mem_singleton.mpr rfl
  have hrevisits : Revisits s.pipeline.vault [unreadableNote] := by
    refine ⟨fun entry hentry => ?_, fun p file hfile => ⟨unreadableNote, List.mem_singleton.mpr rfl, ?_, rfl⟩⟩
    · rw [List.mem_singleton.mp hentry]
      exact .inr ⟨rfl, rfl, _, hnote, rfl⟩
    · rw [OrderedDict.get_eq_some_iff, hvault] at hfile
      exact (congrArg Prod.fst (List.mem_singleton.mp hfile)).symm
  have hwalk : WalksOver namedNote (.empty : Vault String Int) [] := ⟨by simp, fun p hp => by cases hp⟩
  have hpaired : Paired (SavedCache.absent : SavedCache Int).loaded := paired_empty
  obtain ⟨-, -, snapshot, hcurrent, hrestart⟩ := restart_reads_modified_only (fun _ _ _ _ _ => rfl) (namedNote_succeeds [])
    hwalk (trusted_empty .empty []).sound hpaired rfl hrun (by simpa [Pipeline.Quiescent] using hquiet) 9
  obtain ⟨d', hcold, hcache, hholder⟩ := hrestart [unreadableNote] hrevisits
  exact ⟨s, hrun, snapshot, d', hcurrent, hcold, by rw [hcache], hholder⟩

end GraphifyDaemon
