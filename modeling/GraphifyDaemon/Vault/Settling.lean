import GraphifyDaemon.Daemon.PathOperations
import GraphifyDaemon.Library.Amortized
import GraphifyDaemon.Vault.LiveVault

/-! The daemon catches up. Each file operation costs it a bounded number of steps, and as long
as something is under way some step can be taken, whatever its callers do meanwhile. -/
namespace GraphifyDaemon
open Library Library.Trace Pipeline

variable {κ ν γ τ : Type}

/-- The graph library builds and indexes whatever it is given. -/
structure Graphify.Total (G : Graphify ν γ τ) : Prop where
  build : ∀ nodes edges, ∃ graph, G.buildFromJson nodes edges = .ok graph
  index : ∀ graph, ∃ index, G.getTrigramIndex graph = .ok index

/-- A step of the daemon's own towards a graph that tells of the vault. -/
def LiveEvent.isWork : LiveEvent κ ν γ → Bool
  | .vault (.operate _) | .cluster _ | .serve _ => false
  | .vault _ | .publish => true

def LiveEvent.isOperation : LiveEvent κ ν γ → Bool
  | .vault (.operate _) => true
  | .vault _ | .publish | .cluster _ | .serve _ => false

/-- The steps that a compile has before it, from the flush on. -/
def compileWork (batch : List FileChange) : Nat := 3 * batch.length + 3

/-- Every extraction that is accepted has both its keys. -/
def GivesNodesAndEdges (extractor : VaultPath → κ → Json ν) : Prop :=
  ∀ p content result, extracted extractor p content = some result → HasNodesAndEdges result

private theorem expectedEntry_indexable {extractor : VaultPath → κ → Json ν} (hshape : GivesNodesAndEdges extractor)
    {vault : Vault κ ν} {p : VaultPath} {result : PyDict ν} (h : expectedEntry extractor vault p = some result) :
    Iterable result ∧ HasNodesAndEdges result := by
  obtain ⟨file, -, hfile⟩ := Option.bind_eq_some_iff.mp h
  exact ⟨accepted_iterable hfile, hshape p file.content result hfile⟩

namespace Pipeline

/-- What is in the cache, and what has just been read, can be indexed and built into a graph. -/
structure Indexable (s : Pipeline κ ν) : Prop where
  cache : s.cache.Complete
  read : ∀ result, s.read = some (some result) → Iterable result ∧ HasNodesAndEdges result

private theorem complete_dropStale {cache : ExtractionCache ν} (h : cache.Complete) (c : FileChange) :
    (dropStale c cache).Complete := by
  have hkept : ∀ p result, (dropStale c cache).get p = some result → cache.get p = some result := by
    intro p result hresult
    rw [get_dropStale] at hresult
    split_ifs at hresult
    exact hresult
  exact ⟨fun p result hr => h.iterable p result (hkept p result hr), fun p result hr => h.keys p result (hkept p result hr)⟩

theorem Indexable.stored {s : Pipeline κ ν} (hs : Indexable s) {q : VaultPath} {result : Option (PyDict ν)}
    {stat : StatOutcome ν} {cache : ExtractionCache ν} (hread : s.read = some result)
    (h : storeResult q result stat s.cache = .done cache) : cache.Complete := by
  have hentry : ∀ p r, cache.get p = some r → s.cache.get p = some r ∨ s.read = some (some r) := by
    intro p r hr
    rw [storeResult_get h p] at hr
    split_ifs at hr
    · rcases Option.or_eq_some_iff.mp hr with hnew | ⟨-, hold⟩
      · exact .inr (hnew ▸ hread)
      · exact .inl hold
    · exact .inl hr
  refine ⟨fun p r hr => ?_, fun p r hr => ?_⟩
  · rcases hentry p r hr with hold | hnew
    · exact hs.cache.iterable p r hold
    · exact (hs.read r hnew).1
  · rcases hentry p r hr with hold | hnew
    · exact hs.cache.keys p r hold
    · exact (hs.read r hnew).2

theorem Indexable.move [Zero ν] {nested : List String} {extractor : VaultPath → κ → Json ν} {s s' : Pipeline κ ν}
    (hs : Indexable s) (hshape : GivesNodesAndEdges extractor) (h : Moves nested extractor s s') : Indexable s' := by
  cases h with
  | operated => exact ⟨hs.cache, hs.read⟩
  | shifted h =>
    constructor
    · rw [h.cache]
      exact hs.cache
    · rw [h.read]
      exact hs.read
  | @read c rest htodo hread hreach =>
    refine ⟨complete_dropStale hs.cache c, fun result hresult => ?_⟩
    exact expectedEntry_indexable hshape (Option.some.inj hresult)
  | @dropped c rest => exact ⟨complete_dropStale hs.cache c, hs.read⟩
  | stored htodo hread h => exact ⟨hs.stored hread h, by simp⟩
  | synced => exact ⟨hs.cache, hs.read⟩

/-- A bound on the steps before the pipeline: each undelivered event may be one change, and each
pending change a batch of its own. -/
def workLeft (s : Pipeline κ ν) : Nat :=
  8 * s.undelivered.length + 7 * s.pending.length + (s.queued.map compileWork).sum + 2 * s.unread.length +
    (if s.read.isSome then 1 else 0) + s.syncTodo.length + (if s.compiling then 1 else 0)

section Work
variable {nested : List String} {extractor : VaultPath → κ → Json ν} {s s' : Pipeline κ ν}

private theorem workLeft_deliver (h : s.deliver nested = some s') : s'.workLeft + 1 ≤ s.workLeft := by
  unfold deliver at h
  split at h <;> cases h
  case h_2 event rest hundelivered =>
    cases hc : changeOf nested event <;> simp [workLeft, unread, hundelivered] <;> omega

private theorem workLeft_flush (hpending : s.pending ≠ []) :
    ({ s with pending := [], queued := s.queued ++ [s.pending] } : Pipeline κ ν).workLeft + 1 ≤ s.workLeft := by
  have := List.length_pos_iff.mpr hpending
  simp [workLeft, unread, compileWork]
  omega

/-- Of the three steps that a batch pays for beside its changes, one is for its publication. -/
theorem workLeft_startCompile (hordered : WellOrdered nested s) (h : s.startCompile = some s') :
    s'.workLeft + 2 ≤ s.workLeft := by
  unfold startCompile at h
  split at h <;> cases h
  case h_1 batch rest hidle hqueued =>
    have hsync := hordered.idle hidle
    have hextract : s.extractTodo = [] := by simpa [hsync] using hordered.suffix
    have hread := hordered.unread_nil hextract
    simp [workLeft, unread, hqueued, hidle, hsync, hextract, hread, compileWork]
    omega

private theorem workLeft_extractRead (h : s.extractRead nested extractor = some s') : s'.workLeft + 1 ≤ s.workLeft := by
  unfold extractRead at h
  split at h
  · rename_i c rest htodo hread
    dsimp only at h
    split_ifs at h <;> cases h <;> simp [workLeft, unread, htodo, hread] <;> omega
  · cases h

private theorem workLeft_extractStat (h : s.extractStat = some s') : s'.workLeft + 1 ≤ s.workLeft := by
  unfold extractStat at h
  split at h
  · rename_i c rest result htodo hread
    split at h <;> cases h
    simp only [workLeft, unread, htodo, hread, Option.isSome_none, Option.isSome_some, Bool.false_eq_true, if_false,
      if_true, List.tail_cons]
    omega
  · cases h

private theorem workLeft_syncOne [Zero ν] (h : s.syncOne nested = some s') : s'.workLeft + 1 ≤ s.workLeft := by
  unfold syncOne at h
  split at h
  · rename_i c rest hcompiling hextract hsync
    split at h <;> cases h
    simp only [workLeft, unread, hsync, List.length_cons]
    omega
  · cases h

private theorem workLeft_finish (h : s.finish = some s') : s'.workLeft + 1 ≤ s.workLeft := by
  unfold finish at h
  split at h <;> cases h
  case h_1 hcompiling hextract hsync =>
    simp [workLeft, unread, hcompiling]

end Work

end Pipeline

namespace LiveDaemon

/-- A bound on the steps before the daemon. -/
def workLeft (s : LiveDaemon κ ν γ τ) : Nat := s.pipeline.workLeft + if s.unpublished.isSome then 1 else 0

section Work
variable [Zero ν] {nested : List String} {extractor : VaultPath → κ → Json ν} {s s' : LiveDaemon κ ν γ τ}

omit [Zero ν] in
/-- A step of the pipeline's own is one step less before the daemon. -/
theorem workLeft_worked {e : PipelineEvent κ ν} {pipeline : Pipeline κ ν} (hworks : ∀ op, e ≠ .operate op)
    (h : pipeline.workLeft + 1 ≤ s.pipeline.workLeft) :
    (if (LiveEvent.vault e : LiveEvent κ ν γ).isWork then 1 else 0) + ({ s with pipeline := pipeline }).workLeft ≤
      (if (LiveEvent.vault e : LiveEvent κ ν γ).isOperation then 8 else 0) + s.workLeft := by
  have hkind : (LiveEvent.vault e : LiveEvent κ ν γ).isWork = true := by
    cases e with
    | operate op => exact absurd rfl (hworks op)
    | _ => rfl
  rw [hkind, if_pos rfl]
  simp only [workLeft]
  omega

private theorem workLeft_vaultStep {e : PipelineEvent κ ν} (hordered : WellOrdered nested s.pipeline)
    (h : s.vaultStep nested extractor e = some s') :
    (if (LiveEvent.vault e : LiveEvent κ ν γ).isWork then 1 else 0) + s'.workLeft ≤
      (if (LiveEvent.vault e : LiveEvent κ ν γ).isOperation then 8 else 0) + s.workLeft := by
  unfold vaultStep at h
  split at h
  · cases h
  · rename_i pipeline hstep
    cases e with
    | operate op =>
      cases h
      simp only [Pipeline.step] at hstep
      split at hstep <;> cases hstep
      simp [workLeft, Pipeline.workLeft, Pipeline.unread, LiveEvent.isWork, LiveEvent.isOperation]
      omega
    | deliver =>
      cases h
      exact workLeft_worked (by simp) (Pipeline.workLeft_deliver hstep)
    | flush =>
      cases h
      simp only [Pipeline.step] at hstep
      split_ifs at hstep with hpending
      cases hstep
      exact workLeft_worked (by simp) (Pipeline.workLeft_flush hpending)
    | startCompile =>
      cases h
      have := Pipeline.workLeft_startCompile hordered hstep
      simp only [workLeft, LiveEvent.isWork, LiveEvent.isOperation, if_true, Option.isSome_some]
      omega
    | extractRead =>
      cases h
      exact workLeft_worked (by simp) (Pipeline.workLeft_extractRead hstep)
    | extractStat =>
      cases h
      exact workLeft_worked (by simp) (Pipeline.workLeft_extractStat hstep)
    | syncOne =>
      cases h
      exact workLeft_worked (by simp) (Pipeline.workLeft_syncOne hstep)
    | finish =>
      dsimp only at h
      split_ifs at h
      cases h
      exact workLeft_worked (by simp) (Pipeline.workLeft_finish hstep)

private theorem exists_vaultStep {e : PipelineEvent κ ν} {pipeline : Pipeline κ ν} (he : e ≠ .finish)
    (h : Pipeline.step nested extractor e s.pipeline = some pipeline) : ∃ s', s.vaultStep nested extractor e = some s' := by
  unfold LiveDaemon.vaultStep
  rw [h]
  cases e with
  | finish => exact absurd rfl he
  | _ => exact ⟨_, rfl⟩

section Progress
variable [DecidableEq ν] {T : Toolbox ν γ τ}

private theorem exists_work_of_step {e : PipelineEvent κ ν} (he : (LiveEvent.vault e : LiveEvent κ ν γ).isWork = true)
    (hfinish : e ≠ .finish) (h : (Pipeline.step nested extractor e s.pipeline).isSome = true) :
    ∃ e s', LiveEvent.isWork e = true ∧ LiveDaemon.step nested extractor T e s = some s' := by
  obtain ⟨pipeline, hstep⟩ := Option.isSome_iff_exists.mp h
  obtain ⟨s', hs'⟩ := exists_vaultStep hfinish hstep
  exact ⟨.vault e, s', he, hs'⟩

omit [Zero ν] [DecidableEq ν] in
/-- A `stat` of a regular file finds it or finds nothing. -/
theorem statFile_forgiven (vault : Vault κ ν) (p : VaultPath) : (statFile vault p).Forgiven := by
  unfold statFile
  split <;> trivial

omit [DecidableEq ν] in
private theorem extractStat_isSome {c : FileChange} {rest : List FileChange} {result : Option (PyDict ν)}
    (htodo : s.pipeline.extractTodo = c :: rest) (hread : s.pipeline.read = some result) :
    (Pipeline.step nested extractor .extractStat s.pipeline).isSome = true := by
  have hforgiven := statFile_forgiven s.pipeline.vault c.path
  simp only [Pipeline.step, Pipeline.extractStat, htodo, hread]
  unfold storeResult
  cases result with
  | none => rfl
  | some r => cases hstat : statFile s.pipeline.vault c.path with
    | found | missing => rfl
    | failed e => simp [hstat, StatOutcome.Forgiven] at hforgiven

omit [DecidableEq ν] in
private theorem syncOne_isSome (hs : s.pipeline.Indexable) (hcompiling : s.pipeline.compiling = true) {c : FileChange}
    {rest : List FileChange} (hextract : s.pipeline.extractTodo = []) (hsync : s.pipeline.syncTodo = c :: rest) :
    (Pipeline.step nested extractor .syncOne s.pipeline).isSome = true := by
  have hcompletes := (syncChange_completed_iff nested hs.cache.iterable
    (c, Observation.ofStat (statFile s.pipeline.vault c.path)) rfl rfl s.pipeline.files).mpr fun _ =>
      ⟨statFile_forgiven _ _, countable_of_hasNodesAndEdges (hs.cache.keys c.path)⟩
  obtain ⟨files, hfiles⟩ := Outcome.completed_iff.mp hcompletes
  simp only [Pipeline.step, Pipeline.syncOne, hcompiling, hextract, hsync]
  dsimp only at hfiles
  rw [hfiles]
  rfl

omit [Zero ν] [DecidableEq ν] in
private theorem publish_isSome {G : Graphify ν γ τ} (hgraphify : G.Total) (hs : s.pipeline.Indexable)
    (hextract : s.pipeline.extractTodo = []) (hsync : s.pipeline.syncTodo = []) {batch : List FileChange}
    (hunpublished : s.unpublished = some batch) : (s.publish G).isSome = true := by
  obtain ⟨graph, hgraph⟩ := buildGraph_ok hgraphify.build hs.cache.iterable
  obtain ⟨index, hindex⟩ := hgraphify.index graph
  simp only [LiveDaemon.publish, hunpublished, hextract, hsync, hgraph, SnapshotHolder.publish, hindex]
  rfl

/-- A compile in progress can take its next step. -/
theorem exists_work_of_compiling (hgraphify : T.graphify.Total) (hs : s.pipeline.Indexable)
    (hcompiling : s.pipeline.compiling = true) :
    ∃ e s', LiveEvent.isWork e = true ∧ LiveDaemon.step nested extractor T e s = some s' := by
  cases hextract : s.pipeline.extractTodo with
  | cons c rest => cases hread : s.pipeline.read with
    | none =>
      apply exists_work_of_step (e := .extractRead) rfl (by simp)
      simp only [Pipeline.step, Pipeline.extractRead, hextract, hread]
      split_ifs <;> rfl
    | some result => exact exists_work_of_step rfl (by simp) (extractStat_isSome hextract hread)
  | nil => cases hsync : s.pipeline.syncTodo with
    | cons c rest => exact exists_work_of_step rfl (by simp) (syncOne_isSome hs hcompiling hextract hsync)
    | nil => cases hunpublished : s.unpublished with
      | some batch =>
        obtain ⟨s', hs'⟩ := Option.isSome_iff_exists.mp (publish_isSome hgraphify hs hextract hsync hunpublished)
        exact ⟨.publish, s', rfl, hs'⟩
      | none =>
        refine ⟨.vault .finish, { s with pipeline := { s.pipeline with compiling := false } }, rfl, ?_⟩
        simp only [LiveDaemon.step, LiveDaemon.vaultStep, Pipeline.step, Pipeline.finish, hcompiling, hextract, hsync,
          hunpublished]
        rfl

/-- Where something is under way, there is a step to take. -/
theorem exists_work (hgraphify : T.graphify.Total) (hs : s.pipeline.Indexable) (hbusy : ¬ s.pipeline.Quiescent) :
    ∃ e s', LiveEvent.isWork e = true ∧ LiveDaemon.step nested extractor T e s = some s' := by
  cases hcompiling : s.pipeline.compiling with
  | true => exact exists_work_of_compiling hgraphify hs hcompiling
  | false => cases hundelivered : s.pipeline.undelivered with
    | cons event rest =>
      apply exists_work_of_step (e := .deliver) rfl (by simp)
      simp [Pipeline.step, Pipeline.deliver, hundelivered]
    | nil => cases hpending : s.pipeline.pending with
      | cons c rest =>
        apply exists_work_of_step (e := .flush) rfl (by simp)
        simp [Pipeline.step, hpending]
      | nil => cases hqueued : s.pipeline.queued with
        | cons batch rest =>
          apply exists_work_of_step (e := .startCompile) rfl (by simp)
          simp [Pipeline.step, Pipeline.startCompile, hcompiling, hqueued]
        | nil => exact absurd ⟨hundelivered, hpending, hqueued, hcompiling⟩ hbusy

end Progress
end Work

/-- What every run keeps, for the daemon to be able to go on. -/
structure CanGoOn [Zero ν] [DecidableEq ν] (nested : List String) (extractor : VaultPath → κ → Json ν)
    (T : Toolbox ν γ τ) (s : LiveDaemon κ ν γ τ) : Prop where
  kept : ∃ snapshots, Invariant nested extractor T snapshots s
  indexable : s.pipeline.Indexable

section Settled
variable [Zero ν] [DecidableEq ν] {nested : List String} {extractor : VaultPath → κ → Json ν} {T : Toolbox ν γ τ}
  {s s' : LiveDaemon κ ν γ τ}

theorem CanGoOn.ordered (hs : CanGoOn nested extractor T s) : WellOrdered nested s.pipeline := by
  obtain ⟨snapshots, hkept⟩ := hs.kept
  exact hkept.entries.ordered

omit [Zero ν] [DecidableEq ν] in
private theorem publish_frame {G : Graphify ν γ τ} (h : s.publish G = some s') :
    s'.pipeline = s.pipeline ∧ s.unpublished.isSome = true ∧ s'.unpublished = none := by
  unfold LiveDaemon.publish at h
  split at h
  · rename_i hunpublished _ _
    split at h
    · cases h
    · split at h <;> cases h
      exact ⟨rfl, by simp [hunpublished], rfl⟩
  · cases h

omit [Zero ν] [DecidableEq ν] in
private theorem cluster_frame {G : Graphify ν γ τ} {clustering : ClusteringOutcome}
    (h : s.cluster G clustering = some s') :
    s'.pipeline = s.pipeline ∧ s'.unpublished = s.unpublished := by
  unfold LiveDaemon.cluster at h
  split at h <;> cases h
  exact ⟨rfl, rfl⟩

private theorem workLeft_step (hordered : WellOrdered nested s.pipeline) {e : LiveEvent κ ν γ}
    (h : LiveDaemon.step nested extractor T e s = some s') :
    (if e.isWork then 1 else 0) + s'.workLeft ≤ (if e.isOperation then 8 else 0) + s.workLeft := by
  cases e with
  | vault e => exact workLeft_vaultStep hordered h
  | publish =>
    obtain ⟨hpipeline, hbefore, hafter⟩ := publish_frame h
    simp only [workLeft, hpipeline, hbefore, hafter, LiveEvent.isWork, LiveEvent.isOperation]
    simp
    omega
  | cluster clustering =>
    obtain ⟨hpipeline, hunpublished⟩ := cluster_frame h
    simp [workLeft, hpipeline, hunpublished, LiveEvent.isWork, LiveEvent.isOperation]
  | serve e =>
    obtain ⟨-, server, -, rfl⟩ := serve_of_step h
    simp [workLeft, LiveEvent.isWork, LiveEvent.isOperation]

theorem CanGoOn.step (hs : CanGoOn nested extractor T s) (hempty : T.engine.EmptyFiltersAreNone)
    (hsucceeds : Succeeds nested extractor) (hshape : GivesNodesAndEdges extractor) {e : LiveEvent κ ν γ}
    (h : LiveDaemon.step nested extractor T e s = some s') : CanGoOn nested extractor T s' := by
  obtain ⟨snapshots, hkept⟩ := hs.kept
  refine ⟨hkept.step hsucceeds hempty h, ?_⟩
  cases e with
  | vault e =>
    have hmoves := moves_of_step hkept.entries.ordered (vaultMoves_of_step h).1
    exact hs.indexable.move hshape hmoves
  | publish => exact (publish_frame h).1 ▸ hs.indexable
  | cluster clustering => exact (cluster_frame h).1 ▸ hs.indexable
  | serve e =>
    obtain ⟨-, server, -, rfl⟩ := serve_of_step h
    exact hs.indexable

theorem CanGoOn.started (hsucceeds : Succeeds nested extractor) (hshape : GivesNodesAndEdges extractor)
    {vault : Vault κ ν} {d : Daemon ν γ τ} (h : ColdStarted nested extractor T vault d) (cacheSize : Int)
    (latencyWindow : Nat) : CanGoOn nested extractor T (.started vault d cacheSize latencyWindow) := by
  refine ⟨Invariant.started hsucceeds h cacheSize latencyWindow, ⟨?_, by simp [LiveDaemon.started, Pipeline.idle]⟩⟩
  have hentry : ∀ p result, d.cache.get p = some result → Iterable result ∧ HasNodesAndEdges result := by
    intro p result hresult
    rw [h.entries hsucceeds p] at hresult
    split_ifs at hresult
    exact expectedEntry_indexable hshape hresult
  exact ⟨fun p result hresult => (hentry p result hresult).1, fun p result hresult => (hentry p result hresult).2⟩

/-- What is served tells of the vault as it is. -/
structure CaughtUp (nested : List String) (extractor : VaultPath → κ → Json ν) (T : Toolbox ν γ τ)
    (s : LiveDaemon κ ν γ τ) : Prop where
  quiescent : s.pipeline.Quiescent
  entries : ∀ p, s.pipeline.cache.get p = if isExcluded nested p then none else expectedEntry extractor s.pipeline.vault p
  graph : ∃ snapshot, s.server.holder.current = some snapshot ∧
    buildGraph T.graphify s.pipeline.cache = .ok snapshot.graph

theorem CanGoOn.caughtUp (hs : CanGoOn nested extractor T s) (hsucceeds : Succeeds nested extractor)
    (hquiet : s.pipeline.Quiescent) : CaughtUp nested extractor T s := by
  obtain ⟨snapshots, hkept⟩ := hs.kept
  refine ⟨hquiet, fun _ => hkept.entries.converged hquiet (expectedEntry_isSome hsucceeds), ?_⟩
  rw [hkept.published_of_quiescent hquiet]
  exact hkept.current

end Settled
end LiveDaemon

section Notes

private theorem namedNote_givesNodesAndEdges : GivesNodesAndEdges namedNote := by
  intro p name result h
  obtain ⟨hextract, -⟩ := extractFileWithFailureIsolation_eq_some.mp h
  unfold extractFile at hextract
  split_ifs at hextract
  cases hextract
  exact ⟨rfl, rfl⟩

private theorem notesToolbox_total : notesToolbox.graphify.Total := ⟨fun _ _ => ⟨_, rfl⟩, fun _ => ⟨_, rfl⟩⟩

end Notes
end GraphifyDaemon
