import GraphifyDaemon.GraphQueryApi.ServerAccounts
import GraphifyDaemon.Vault.Convergence
import GraphifyDaemon.Vault.Restart

/-! The whole daemon at work: the vault changes, its changes are compiled and published, and
calls are answered meanwhile. What a call is told lags behind the vault only where a change is
still under way, as long as the batches get the coordinator lock in the order in which they were
flushed, no step raises, and `build_from_json` leaves the cached dictionaries alone. -/
namespace GraphifyDaemon
open Library Library.Trace Pipeline

variable {κ ν γ τ : Type}

/-- The pipeline and the server, the batch whose graph is not published yet, and the cache
as it was when the last graph was built. -/
structure LiveDaemon (κ ν γ τ : Type) where
  pipeline : Pipeline κ ν
  server : ToolServer ν γ τ
  unpublished : Option (List FileChange)
  published : ExtractionCache ν

inductive LiveEvent (κ ν γ : Type) where
  | vault (e : PipelineEvent κ ν)
  | publish
  | cluster (clustering : ClusteringOutcome)
  | serve (e : ServerEvent ν γ)

namespace LiveDaemon

/-- The daemon `d`, once its observer and its server have been started. -/
def started (vault : Vault κ ν) (d : Daemon ν γ τ) (cacheSize : Int) (latencyWindow : Nat) : LiveDaemon κ ν γ τ where
  pipeline := .idle vault d.cache d.files
  server := { ToolServer.initial cacheSize latencyWindow with holder := d.holder }
  unpublished := none
  published := d.cache

def withHolder (holder : SnapshotHolder γ τ) (s : LiveDaemon κ ν γ τ) : LiveDaemon κ ν γ τ :=
  { s with server := { s.server with holder := holder } }

/-- The changes that no published graph tells of yet. -/
def underWay (nested : List String) (s : LiveDaemon κ ν γ τ) : List FileChange :=
  s.unpublished.getD [] ++ s.pipeline.later nested

/-- The compile takes the writer lock, and only leaves it once its graph is published. -/
def vaultStep [Zero ν] (nested : List String) (extractor : VaultPath → κ → Json ν) (e : PipelineEvent κ ν)
    (s : LiveDaemon κ ν γ τ) : Option (LiveDaemon κ ν γ τ) :=
  match Pipeline.step nested extractor e s.pipeline with
  | none => none
  | some pipeline => match e with
    | .startCompile => some { s with pipeline := pipeline, unpublished := some pipeline.syncTodo }
    | .finish => if s.unpublished.isSome then none else some { s with pipeline := pipeline }
    | _ => some { s with pipeline := pipeline }

/-- `build_graph` and `SnapshotHolder.publish` in `_compile_batch`. -/
def publish (G : Graphify ν γ τ) (s : LiveDaemon κ ν γ τ) : Option (LiveDaemon κ ν γ τ) :=
  match s.unpublished, s.pipeline.extractTodo, s.pipeline.syncTodo with
  | some _, [], [] => match buildGraph G s.pipeline.cache with
    | .error _ => none
    | .ok graph => match s.server.holder.publish G graph (carriedMap s.server.holder) with
      | .raised _ _ => none
      | .done holder =>
        some { s.withHolder holder with unpublished := none, published := s.pipeline.cache }
  | _, _, _ => none

/-- The clustering of a slow-cadence cycle, which holds the writer lock as a compile does. -/
def cluster (G : Graphify ν γ τ) (clustering : ClusteringOutcome) (s : LiveDaemon κ ν γ τ) :
    Option (LiveDaemon κ ν γ τ) :=
  match s.unpublished, runClusteringCycle G clustering s.server.holder with
  | none, .done holder => some (s.withHolder holder)
  | _, _ => none

variable [Zero ν] [DecidableEq ν]

/-- A step that raises is no step. -/
def step (nested : List String) (extractor : VaultPath → κ → Json ν) (T : Toolbox ν γ τ) :
    LiveEvent κ ν γ → LiveDaemon κ ν γ τ → Option (LiveDaemon κ ν γ τ)
  | .vault e, s => s.vaultStep nested extractor e
  | .publish, s => s.publish T.graphify
  | .cluster clustering, s => s.cluster T.graphify clustering
  | .serve (.publish _ _), _ => none
  | .serve e, s => (ToolServer.step T e s.server).map fun server => { s with server := server }

end LiveDaemon

/-- Of a path that no change under way tells of, the cache has what its file now gives. -/
structure UpToDate (nested : List String) (extractor : VaultPath → κ → Json ν) (vault : Vault κ ν)
    (underWay : List FileChange) (cache : ExtractionCache ν) : Prop where
  settled : ∀ p, isExcluded nested p = false → lastEffect nested p underWay = none →
    cache.get p = expectedEntry extractor vault p
  excluded : ∀ p, isExcluded nested p = true → cache.get p = none

namespace Pipeline
variable [Zero ν] {nested : List String} {extractor : VaultPath → κ → Json ν} {s s' : Pipeline κ ν}

/-- A step that leaves the vault and the queue of changes alone. Nothing is extracted or indexed
where nothing is left to do. -/
structure Quietly (nested : List String) (s s' : Pipeline κ ν) : Prop where
  vault : s'.vault = s.vault
  later : s'.later nested = s.later nested
  cache : s.extractTodo = [] → s'.cache = s.cache
  syncTodo : s.syncTodo = [] → s'.syncTodo = []

private theorem quietly_of_step {e : PipelineEvent κ ν} (hop : ∀ op, e ≠ .operate op) (hstart : e ≠ .startCompile)
    (h : step nested extractor e s = some s') : Quietly nested s s' ∧ (e ≠ .finish → s'.compiling = s.compiling) := by
  cases e <;> simp only [step] at h
  case operate op => exact absurd rfl (hop op)
  case startCompile => exact absurd rfl hstart
  case deliver =>
    unfold deliver at h
    split at h <;> cases h
    case h_2 event rest hundelivered =>
      refine ⟨⟨rfl, ?_, fun _ => rfl, id⟩, fun _ => rfl⟩
      cases hc : changeOf nested event <;> simp [later, hundelivered, hc]
  case flush =>
    split_ifs at h
    cases h
    exact ⟨⟨rfl, by simp [later], fun _ => rfl, id⟩, fun _ => rfl⟩
  case extractRead =>
    unfold extractRead at h
    split at h
    · rename_i c rest htodo hread
      dsimp only at h
      split_ifs at h <;> cases h <;> exact ⟨⟨rfl, rfl, by simp [htodo], id⟩, fun _ => rfl⟩
    · cases h
  case extractStat =>
    unfold extractStat at h
    split at h
    · rename_i c rest result htodo hread
      split at h <;> cases h
      exact ⟨⟨rfl, rfl, by simp [htodo], id⟩, fun _ => rfl⟩
    · cases h
  case syncOne =>
    unfold syncOne at h
    split at h
    · rename_i c rest hbusy hextract hsync
      split at h <;> cases h
      exact ⟨⟨rfl, rfl, fun _ => rfl, by simp [hsync]⟩, fun _ => rfl⟩
    · cases h
  case finish =>
    unfold finish at h
    split at h <;> cases h
    exact ⟨⟨rfl, rfl, fun _ => rfl, id⟩, fun hfinish => absurd rfl hfinish⟩

end Pipeline

section Steps
variable [Zero ν] {nested : List String} {extractor : VaultPath → κ → Json ν} {s s' : LiveDaemon κ ν γ τ}

namespace LiveDaemon

/-- What a step of the pipeline does to the daemon. -/
inductive VaultMoves (nested : List String) (s : LiveDaemon κ ν γ τ) : LiveDaemon κ ν γ τ → Prop where
  | operated {op vault event} (h : applyOp op s.pipeline.vault = some (vault, event)) :
    VaultMoves nested s
      { s with pipeline := { s.pipeline with vault := vault, undelivered := s.pipeline.undelivered ++ [event] } }
  | began {batch rest} (hidle : s.pipeline.compiling = false) (hqueued : s.pipeline.queued = batch :: rest) :
    VaultMoves nested s { s with
      pipeline := { s.pipeline with compiling := true, extractTodo := batch, syncTodo := batch, queued := rest }
      unpublished := some batch }
  | worked {pipeline} (hsame : Quietly nested s.pipeline pipeline)
    (hbusy : s.unpublished.isSome = true → pipeline.compiling = s.pipeline.compiling) :
    VaultMoves nested s { s with pipeline := pipeline }

theorem vaultMoves_of_step {e : PipelineEvent κ ν} (h : s.vaultStep nested extractor e = some s') :
    Pipeline.step nested extractor e s.pipeline = some s'.pipeline ∧ VaultMoves nested s s' := by
  unfold vaultStep at h
  split at h
  · cases h
  · rename_i pipeline hstep
    split at h
    · cases h
      refine ⟨hstep, ?_⟩
      simp only [Pipeline.step, Pipeline.startCompile] at hstep
      split at hstep <;> cases hstep
      case h_1 batch rest hidle hqueued => exact .began hidle hqueued
    · split_ifs at h with hpublished
      cases h
      exact ⟨hstep, .worked (quietly_of_step (by simp) (by simp) hstep).1 fun hsome => absurd hsome hpublished⟩
    · rename_i hstart hfinish
      cases h
      refine ⟨hstep, ?_⟩
      by_cases hop : ∃ op, e = .operate op
      · obtain ⟨op, rfl⟩ := hop
        simp only [Pipeline.step] at hstep
        split at hstep <;> cases hstep
        case h_1 happly => exact .operated happly
      · obtain ⟨hsame, hbusy⟩ := quietly_of_step (fun op he => hop ⟨op, he⟩) (fun he => hstart he) hstep
        exact .worked hsame fun _ => hbusy fun he => hfinish he

/-- What every run keeps, with the snapshots published so far. -/
structure Invariant [DecidableEq ν] (nested : List String) (extractor : VaultPath → κ → Json ν) (T : Toolbox ν γ τ)
    (snapshots : List (GraphSnapshot γ τ)) (s : LiveDaemon κ ν γ τ) : Prop where
  entries : EntriesInvariant nested extractor s.pipeline
  upToDate : UpToDate nested extractor s.pipeline.vault (s.underWay nested) s.published
  rested : s.unpublished = none → s.pipeline.syncTodo = [] ∧ s.pipeline.cache = s.published
  busy : s.unpublished.isSome = true → s.pipeline.compiling = true
  current : ∃ snapshot, s.server.holder.current = some snapshot ∧ buildGraph T.graphify s.published = .ok snapshot.graph
  served : Served T snapshots s.server

omit [Zero ν] in
private theorem underWay_operated (nested : List String) (vault : Vault κ ν) (event : FileSystemEvent) :
    ({ s with pipeline := { s.pipeline with vault := vault, undelivered := s.pipeline.undelivered ++ [event] } } :
      LiveDaemon κ ν γ τ).underWay nested = s.unpublished.getD [] ++
        (s.pipeline.later nested ++ (changeOf nested event).toList) := by
  rw [underWay, later_operated]

omit [Zero ν] in
/-- Until its events are delivered and its batch is compiled and published, an operation is under way. -/
theorem UpToDate.operated {op : VaultOp κ ν} {vault : Vault κ ν} {event : FileSystemEvent}
    (hs : UpToDate nested extractor s.pipeline.vault (s.underWay nested) s.published)
    (h : applyOp op s.pipeline.vault = some (vault, event)) :
    UpToDate nested extractor vault (s.unpublished.getD [] ++ (s.pipeline.later nested ++ (changeOf nested event).toList))
      s.published := by
  refine ⟨fun p hp hlast => ?_, hs.excluded⟩
  rcases operated_cases h hp (s.unpublished.getD []) with ⟨there, hsome, -⟩ | ⟨hsame, hvault⟩
  · exact absurd (hsome.symm.trans hlast) (by simp)
  · rw [expectedEntry_congr extractor hvault]
    exact hs.settled p hp (hsame.symm.trans hlast)

variable [DecidableEq ν] {T : Toolbox ν γ τ} {snapshots : List (GraphSnapshot γ τ)} {vault : Vault κ ν}
  {d : Daemon ν γ τ}

theorem Invariant.vaultStep (hs : Invariant nested extractor T snapshots s) {e : PipelineEvent κ ν}
    (h : s.vaultStep nested extractor e = some s') : Invariant nested extractor T snapshots s' := by
  obtain ⟨hstep, hmoves⟩ := vaultMoves_of_step h
  have hentries := entriesInvariant_step hs.entries hstep
  cases hmoves with
  | @operated op vault event happly =>
    refine ⟨hentries, ?_, hs.rested, hs.busy, hs.current, hs.served⟩
    rw [underWay_operated]
    exact UpToDate.operated hs.upToDate happly
  | @began batch rest hidle hqueued =>
    have hnone : s.unpublished = none := by
      cases hsome : s.unpublished with
      | none => rfl
      | some batch => simp [hs.busy (by simp [hsome])] at hidle
    refine ⟨hentries, ?_, by simp, fun _ => rfl, hs.current, hs.served⟩
    have hsame : batch ++ Pipeline.later nested
        { s.pipeline with compiling := true, extractTodo := batch, syncTodo := batch, queued := rest } =
          s.underWay nested := by
      simp [underWay, hnone, later, hqueued]
    have hupToDate := hs.upToDate
    rw [← hsame] at hupToDate
    exact hupToDate
  | @worked pipeline hsame hbusy =>
    refine ⟨hentries, ?_, fun hnone => ?_, fun hsome => (hbusy hsome).trans (hs.busy hsome), hs.current, hs.served⟩
    · have hupToDate := hs.upToDate
      rw [← hsame.vault] at hupToDate
      unfold underWay at hupToDate ⊢
      rw [← hsame.later] at hupToDate
      exact hupToDate
    · obtain ⟨hsync, hcache⟩ := hs.rested hnone
      have hextract : s.pipeline.extractTodo = [] := by simpa [hsync] using hs.entries.ordered.suffix
      exact ⟨hsame.syncTodo hsync, (hsame.cache hextract).trans hcache⟩

omit [Zero ν] [DecidableEq ν] in
/-- Once everything is extracted, only what comes later may be missing from the cache. -/
theorem upToDate_of_extracted (hsucceeds : Succeeds nested extractor)
    (hs : EntriesInvariant nested extractor s.pipeline) (hextract : s.pipeline.extractTodo = []) :
    UpToDate nested extractor s.pipeline.vault (s.pipeline.later nested) s.pipeline.cache := by
  have hread := hs.ordered.unread_nil hextract
  refine ⟨fun p hp hlast => ?_, hs.entries.excluded⟩
  have hsettled := hs.entries.settled p hp (expectedEntry_isSome hsucceeds hp)
    (by simpa [Pipeline.unread, hread, hextract] using hlast)
  rwa [if_neg (by simp [readingPath, hread])] at hsettled

/-- A publication of the server is one of its steps. -/
theorem served_withHolder (hs : Served T snapshots s.server) (hempty : T.engine.EmptyFiltersAreNone) {graph : γ}
    {communityMap : CommunityMap} {holder : SnapshotHolder γ τ}
    (h : s.server.holder.publish T.graphify graph communityMap = .done holder) :
    ∃ snapshots, Served T snapshots (s.withHolder holder).server := by
  have hstep : ToolServer.step T (.publish graph communityMap) s.server = some (s.withHolder holder).server := by
    simp only [ToolServer.step, h]
    rfl
  exact hs.step hempty hstep

theorem Invariant.publish (hs : Invariant nested extractor T snapshots s) (hsucceeds : Succeeds nested extractor)
    (hempty : T.engine.EmptyFiltersAreNone) (h : s.publish T.graphify = some s') :
    ∃ snapshots, Invariant nested extractor T snapshots s' := by
  unfold LiveDaemon.publish at h
  split at h
  · rename_i batch hunpublished hextract hsync
    split at h
    · cases h
    · rename_i graph hgraph
      split at h <;> cases h
      rename_i holder hpublish
      obtain ⟨snapshots', hserved⟩ := served_withHolder hs.served hempty hpublish
      obtain ⟨index, -, rfl⟩ := publish_eq_done.mp hpublish
      exact ⟨snapshots', hs.entries, upToDate_of_extracted hsucceeds hs.entries hextract, fun _ => ⟨hsync, rfl⟩, by simp,
        ⟨_, rfl, hgraph⟩, hserved⟩
  · cases h

theorem Invariant.cluster (hs : Invariant nested extractor T snapshots s) (hempty : T.engine.EmptyFiltersAreNone)
    {clustering : ClusteringOutcome} (h : s.cluster T.graphify clustering = some s') :
    ∃ snapshots, Invariant nested extractor T snapshots s' := by
  obtain ⟨snapshot, hcurrent, hgraph⟩ := hs.current
  unfold LiveDaemon.cluster at h
  split at h
  · rename_i holder hunpublished hcycle
    cases h
    unfold runClusteringCycle at hcycle
    rw [hcurrent] at hcycle
    dsimp only at hcycle
    split at hcycle
    · cases hcycle
      exact ⟨snapshots, hs.entries, hs.upToDate, hs.rested, hs.busy, ⟨snapshot, hcurrent, hgraph⟩, hs.served⟩
    · obtain ⟨snapshots', hserved⟩ := served_withHolder hs.served hempty hcycle
      obtain ⟨index, -, rfl⟩ := publish_eq_done.mp hcycle
      exact ⟨snapshots', hs.entries, hs.upToDate, hs.rested, hs.busy, ⟨_, rfl, hgraph⟩, hserved⟩
  · cases h

theorem serve_of_step {e : ServerEvent ν γ} (h : LiveDaemon.step nested extractor T (.serve e) s = some s') :
    (∀ graph communityMap, e ≠ .publish graph communityMap) ∧
      ∃ server, ToolServer.step T e s.server = some server ∧ s' = { s with server := server } := by
  cases e with
  | publish => cases h
  | tick | call | compute | resume | cancel =>
    simp only [LiveDaemon.step] at h
    obtain ⟨server, hserver, rfl⟩ := Option.map_eq_some_iff.mp h
    exact ⟨by simp, server, hserver, rfl⟩

theorem Invariant.step (hs : Invariant nested extractor T snapshots s) (hsucceeds : Succeeds nested extractor)
    (hempty : T.engine.EmptyFiltersAreNone) {e : LiveEvent κ ν γ} (h : LiveDaemon.step nested extractor T e s = some s') :
    ∃ snapshots, Invariant nested extractor T snapshots s' := by
  cases e with
  | vault e => exact ⟨snapshots, hs.vaultStep h⟩
  | publish => exact hs.publish hsucceeds hempty h
  | cluster clustering => exact hs.cluster hempty h
  | serve e =>
    obtain ⟨hother, server, hserver, rfl⟩ := serve_of_step h
    obtain ⟨snapshots', hserved⟩ := hs.served.step hempty hserver
    refine ⟨snapshots', hs.entries, hs.upToDate, hs.rested, hs.busy, ?_, hserved⟩
    rw [holder_of_step hserver hother]
    exact hs.current

/-- A process that has started over a saved cache that is sound, on a vault at rest. -/
def ColdStarted (nested : List String) (extractor : VaultPath → κ → Json ν) (T : Toolbox ν γ τ) (vault : Vault κ ν)
    (d : Daemon ν γ τ) : Prop :=
  ∃ (saved : SavedCache ν) (startedAt : Nat) (walk : List (WalkEntry ν)), WalksOver extractor vault walk ∧
    (∀ p, isExcluded nested p = false → SoundAt extractor vault saved.loaded p) ∧
    (Daemon.restarted startedAt saved).coldStart T.graphify nested walk = .done d

omit [Zero ν] in
theorem ColdStarted.entries (h : ColdStarted nested extractor T vault d) (hsucceeds : Succeeds nested extractor)
    (p : VaultPath) : d.cache.get p = if isExcluded nested p then none else expectedEntry extractor vault p := by
  obtain ⟨saved, startedAt, walk, hwalk, hsaved, hcold⟩ := h
  have hwhole : saved ≠ .torn := by
    rintro rfl
    cases hcold
  have hrun := runColdStart_entries T.graphify hsucceeds hwalk
    (d := { Daemon.restarted startedAt saved with cache := saved.loaded }) hsaved p
  rw [← coldStart_restarted T.graphify hwhole, hcold] at hrun
  exact hrun

omit [Zero ν] in
theorem ColdStarted.published (h : ColdStarted nested extractor T vault d) :
    ∃ snapshot : GraphSnapshot γ τ, buildGraph T.graphify d.cache = .ok snapshot.graph ∧
      d.holder = ⟨some snapshot, snapshot.version + 1⟩ := by
  obtain ⟨saved, startedAt, walk, -, -, hcold⟩ := h
  obtain ⟨graph, index, hgraph, hholder⟩ := coldStart_published hcold
  exact ⟨_, hgraph, hholder⟩

theorem Invariant.started (hsucceeds : Succeeds nested extractor) (h : ColdStarted nested extractor T vault d)
    (cacheSize : Int) (latencyWindow : Nat) :
    ∃ snapshots, Invariant nested extractor T snapshots (.started vault d cacheSize latencyWindow) := by
  obtain ⟨snapshot, hgraph, hholder⟩ := h.published
  have hentries := h.entries hsucceeds
  have hthere : ∀ p, isExcluded nested p = false → d.cache.get p = expectedEntry extractor vault p :=
    fun p hp => by simpa [hp] using hentries p
  have hexcluded : ∀ p, isExcluded nested p = true → d.cache.get p = none := fun p hp => by simpa [hp] using hentries p
  refine ⟨[snapshot], entriesInvariant_idle (fun p hp _ => hthere p hp) hexcluded, ⟨fun p hp _ => hthere p hp, hexcluded⟩,
    fun _ => ⟨rfl, rfl⟩, ?_, ⟨snapshot, congrArg SnapshotHolder.current hholder, hgraph⟩, ⟨?_, ?_, ?_⟩,
    LruCache.only_empty _ _, ?_, ?_⟩
  all_goals simp [LiveDaemon.started, ToolServer.initial, hholder]

theorem Invariant.run (hempty : T.engine.EmptyFiltersAreNone) (hsucceeds : Succeeds nested extractor)
    (hs : ∃ snapshots, Invariant nested extractor T snapshots s) {events : List (LiveEvent κ ν γ)}
    (hrun : exec (LiveDaemon.step nested extractor T) events s = some s') :
    ∃ snapshots, Invariant nested extractor T snapshots s' :=
  exec_invariant_of_step (fun s => ∃ snapshots, Invariant nested extractor T snapshots s)
    (fun _ _ _ ⟨_, hs⟩ hstep => hs.step hsucceeds hempty hstep) hs hrun

/-- Where no compile is in progress, the graph that is served is built from the cache as it is. -/
theorem Invariant.published_of_quiescent (hs : Invariant nested extractor T snapshots s)
    (hquiet : s.pipeline.Quiescent) : s.pipeline.cache = s.published := by
  have hnone : s.unpublished = none := by
    cases hunpublished : s.unpublished with
    | none => rfl
    | some batch => exact absurd (hs.busy (by simp [hunpublished])) (by simp [hquiet.2.2.2])
  exact (hs.rested hnone).2

end LiveDaemon
end Steps

section Notes

/-- The nodes in list order, a later one overwriting, and the edges between them. -/
def graphOfLists (nodes edges : List (Json Int)) : PlainGraph :=
  let graph := nodes.foldl (fun (graph : PlainGraph) node => match nodeId node, node with
    | some id, .obj members => graph.addNode id members
    | _, _ => graph) .empty
  edges.foldl (fun (graph : PlainGraph) edge => match edgeEnds edge, edge with
    | some (source, target), .obj members =>
      if h : source ∈ graph.nodes.keys ∧ target ∈ graph.nodes.keys then graph.addEdge source target members h else graph
    | _, _ => graph) graph

def notesToolbox : Toolbox Int PlainGraph Unit :=
  { plainToolbox with graphify := { plainGraphify with buildFromJson := fun nodes edges => .ok (graphOfLists nodes edges) } }

/-- The content of a note names its one node. -/
def namedNote (_ : VaultPath) (name : String) : Json Int :=
  .obj [("nodes", .arr [.obj [("id", .str name)]]), ("edges", .arr [])]

theorem namedNote_succeeds (nested : List String) : Succeeds nested namedNote := by
  intro p name hp
  have hsuffix : suffix p ∈ OBSERVED_SUFFIXES := by
    by_contra hnot
    simp [isExcluded, hnot] at hp
  unfold extracted extractFileWithFailureIsolation extractFile
  rw [if_neg (not_not.mpr hsuffix)]
  rfl

/-- A daemon started over an empty vault. -/
def emptyStart : Daemon Int PlainGraph Unit :=
  ((Daemon.restarted 0 .absent).coldStart notesToolbox.graphify [] []).store

theorem coldStarted_emptyStart : LiveDaemon.ColdStarted (κ := String) [] namedNote notesToolbox .empty emptyStart :=
  ⟨.absent, 0, [], ⟨by simp, fun p hp => by cases hp⟩, (trusted_empty .empty []).sound, rfl⟩

/-- A question about a note that is only just being compiled, and the same one once more. -/
def askedWhileCompiled : List (LiveEvent String Int PlainGraph) :=
  let question : Option (PyDict Int) := some [("question", .str "alpha")]
  [.vault (.operate (.write notePath ⟨"alpha", 1, 1⟩)), .vault .deliver, .vault .flush, .vault .startCompile,
    .vault .extractRead, .serve (.call "query_graph" question), .vault .extractStat, .vault .syncOne,
    .serve (.compute 0), .publish, .serve (.resume 0), .vault .finish, .cluster (.communities .empty)]

def askedAgain : List (LiveEvent String Int PlainGraph) :=
  [.serve (.call "query_graph" (some [("question", .str "alpha")])), .vault (.operate (.delete notePath)),
    .serve (.compute 0), .serve (.resume 0)]

end Notes
end GraphifyDaemon
