import GraphifyDaemon.ArtifactLifecycle.BatchMeaning
import GraphifyDaemon.VaultCompiler.Clustering

/-! `Daemon._compile_batch` and the slow-cadence cycle at its end, over all the state one
writer owns. A raise keeps what the earlier steps wrote. -/
namespace GraphifyDaemon
open Library

variable {ν γ τ : Type}

/-- `graph_cache.json`: an interrupted `write_text` leaves it torn. -/
inductive SavedCache (ν : Type) where
  | absent
  | intact (cache : ExtractionCache ν)
  | torn

structure Daemon (ν γ τ : Type) where
  cache : ExtractionCache ν
  files : FilesTable ν
  holder : SnapshotHolder γ τ
  tracker : SlowCadenceTracker
  graphCache : SavedCache ν
  idleScheduled : Bool

/-- `Daemon.__init__`, with its default slow cadence and a new index. -/
def Daemon.initial (startedAt : Nat) : Daemon ν γ τ where
  cache := .empty
  files := .empty
  holder := .initial
  tracker := ⟨60, 25, 0, startedAt⟩
  graphCache := .absent
  idleScheduled := false

structure CadenceObservation where
  now : Nat
  clustering : ClusteringOutcome
  graphJsonFault : Option PyError
  knowledgeMdFault : Option PyError
  saveFault : Option PyError
  resetAt : Nat

/-- What is observed while a batch compiles, apart from its changes. -/
structure CompileObservation where
  commitFault : Option PyError
  recordedAt : Nat
  cadence : CadenceObservation

def CompileObservation.calm : CompileObservation where
  commitFault := none
  recordedAt := 0
  cadence := ⟨0, .failed, none, none, none, 0⟩

/-- A write whose target no later step reads. -/
def writeArtifact (fault : Option PyError) (d : Daemon ν γ τ) : Outcome PyError (Daemon ν γ τ) :=
  match fault with
  | some e => .raised e d
  | none => .done d

/-- `write_graph_json` and `write_knowledge_md`, when there is a snapshot. -/
def writeArtifacts (seen : CadenceObservation) (d : Daemon ν γ τ) : Outcome PyError (Daemon ν γ τ) :=
  match d.holder.current with
  | none => .done d
  | some _ => (writeArtifact seen.graphJsonFault d).andThen (writeArtifact seen.knowledgeMdFault)

/-- `ExtractionCache.save` -/
def saveCache (fault : Option PyError) (d : Daemon ν γ τ) : Outcome PyError (Daemon ν γ τ) :=
  match fault with
  | some e => .raised e { d with graphCache := .torn }
  | none => .done { d with graphCache := .intact d.cache }

def runSlowCadenceCycle (G : Graphify ν γ τ) (seen : CadenceObservation) (d : Daemon ν γ τ) :
    Outcome PyError (Daemon ν γ τ) :=
  if d.tracker.shouldTrigger seen.now then
    (((runClusteringCycle G seen.clustering d.holder).within (fun h => { d with holder := h })).andThen
      (writeArtifacts seen)).andThen fun d =>
    (saveCache seen.saveFault d).andThen fun d =>
    .done { d with tracker := d.tracker.reset seen.resetAt }
  else .done d

/-- The community map a new graph is published with: the current one, carried forward. -/
def carriedMap (holder : SnapshotHolder γ τ) : CommunityMap :=
  match holder.current with
  | some current => current.communityMap
  | none => .empty

/-- `_compile_batch` up to the slow cadence: extract, index, rebuild, publish, count. -/
def publishBatch [Zero ν] (G : Graphify ν γ τ) (nested : List String)
    (batch : List (FileChange × Observation ν)) (seen : CompileObservation) (d : Daemon ν γ τ) :
    Outcome PyError (Daemon ν γ τ) :=
  ((extractBatch nested batch d.cache).within (fun c => { d with cache := c })).andThen fun d =>
  ((syncBatch nested batch d.cache seen.commitFault d.files).within
    (fun f => { d with files := f })).andThen fun d =>
  match buildGraph G d.cache with
  | .error e => .raised e d
  | .ok graph =>
    ((d.holder.publish G graph (carriedMap d.holder)).within
      (fun h => { d with holder := h })).andThen fun d =>
    .done { d with tracker := d.tracker.recordBatch batch.length seen.recordedAt }

def compileBatch [Zero ν] (G : Graphify ν γ τ) (nested : List String)
    (batch : List (FileChange × Observation ν)) (seen : CompileObservation) (d : Daemon ν γ τ) :
    Outcome PyError (Daemon ν γ τ) :=
  (publishBatch G nested batch seen d).andThen fun d =>
  let triggered := d.tracker.shouldTrigger seen.cadence.now
  (runSlowCadenceCycle G seen.cadence d).andThen fun d =>
  .done { d with idleScheduled := !triggered }

/-- All of it: the four steps succeeded, and their results are the new state. -/
structure Published [Zero ν] (G : Graphify ν γ τ) (nested : List String)
    (batch : List (FileChange × Observation ν)) (seen : CompileObservation) (d d' : Daemon ν γ τ) : Prop where
  extracted : extractBatch nested batch d.cache = .done d'.cache
  synced : syncBatch nested batch d'.cache seen.commitFault d.files = .done d'.files
  published : ∃ graph index, buildGraph G d'.cache = .ok graph ∧ G.getTrigramIndex graph = .ok index ∧
    d'.holder = ⟨some ⟨graph, index, carriedMap d.holder, d.holder.nextVersion⟩, d.holder.nextVersion + 1⟩
  counted : d'.tracker = d.tracker.recordBatch batch.length seen.recordedAt
  savedKept : d'.graphCache = d.graphCache

theorem publishBatch_done [Zero ν] {G : Graphify ν γ τ} {nested : List String}
    {batch : List (FileChange × Observation ν)} {seen : CompileObservation} {d d' : Daemon ν γ τ}
    (h : publishBatch G nested batch seen d = .done d') : Published G nested batch seen d d' := by
  unfold publishBatch at h
  cases hx : extractBatch nested batch d.cache with
  | raised e c => simp [hx] at h
  | done c =>
    simp only [hx, Outcome.within_done, Outcome.andThen_done] at h
    cases hs : syncBatch nested batch c seen.commitFault d.files with
    | raised e f => simp [hs] at h
    | done f =>
      simp only [hs, Outcome.within_done, Outcome.andThen_done] at h
      cases hg : buildGraph G c with
      | error e => simp [hg] at h
      | ok graph =>
        simp only [hg] at h
        obtain ⟨mid, hmid, hend⟩ := Outcome.andThen_eq_done.mp h
        cases hp : d.holder.publish G graph (carriedMap d.holder) with
        | raised e holder => simp [hp] at hmid
        | done holder =>
          obtain ⟨index, hindex, rfl⟩ := publish_eq_done.mp hp
          simp only [hp, Outcome.within_done, Outcome.done.injEq] at hmid
          subst hmid
          cases hend
          exact ⟨hx, hs, ⟨graph, index, hg, hindex, rfl⟩, rfl, rfl⟩

/-- Where a raise before publishing leaves the state: the snapshot is the old one, the
table is the old one unless the index pass was through, and that only follows a
complete extract pass. -/
theorem publishBatch_raised [Zero ν] {G : Graphify ν γ τ} {nested : List String}
    {batch : List (FileChange × Observation ν)} {seen : CompileObservation} {d d' : Daemon ν γ τ}
    {e : PyError} (h : publishBatch G nested batch seen d = .raised e d') :
    d'.holder = d.holder ∧
    ((d'.files = d.files ∧ (extractBatch nested batch d.cache).store = d'.cache) ∨
      (extractBatch nested batch d.cache = .done d'.cache ∧
        syncBatch nested batch d'.cache seen.commitFault d.files = .done d'.files)) := by
  unfold publishBatch at h
  cases hx : extractBatch nested batch d.cache with
  | raised e' c =>
    simp only [hx, Outcome.within_raised, Outcome.andThen_raised, Outcome.raised.injEq] at h
    obtain ⟨-, rfl⟩ := h
    exact ⟨rfl, .inl ⟨rfl, rfl⟩⟩
  | done c =>
    simp only [hx, Outcome.within_done, Outcome.andThen_done] at h
    cases hs : syncBatch nested batch c seen.commitFault d.files with
    | raised e' f =>
      simp only [hs, Outcome.within_raised, Outcome.andThen_raised, Outcome.raised.injEq] at h
      obtain ⟨-, rfl⟩ := h
      exact ⟨rfl, .inl ⟨Outcome.transaction_raised hs, rfl⟩⟩
    | done f =>
      simp only [hs, Outcome.within_done, Outcome.andThen_done] at h
      cases hg : buildGraph G c with
      | error e' =>
        simp only [hg, Outcome.raised.injEq] at h
        obtain ⟨-, rfl⟩ := h
        exact ⟨rfl, .inr ⟨rfl, hs⟩⟩
      | ok graph =>
        simp only [hg] at h
        cases hp : d.holder.publish G graph (carriedMap d.holder) with
        | done holder => simp [hp] at h
        | raised e' holder =>
          have hkept := publish_raised hp
          simp only [hp, Outcome.within_raised, Outcome.andThen_raised, Outcome.raised.injEq] at h
          obtain ⟨-, rfl⟩ := h
          exact ⟨hkept, .inr ⟨rfl, hs⟩⟩

/-- What a slow-cadence cycle can do to the holder: nothing, or republish the current
graph under the remapped communities of a successful clustering. -/
def Recommunitied (G : Graphify ν γ τ) (clustering : ClusteringOutcome)
    (holder holder' : SnapshotHolder γ τ) : Prop :=
  holder' = holder ∨ ∃ current raw index, holder.current = some current ∧
    clustering.result = some raw ∧ G.getTrigramIndex current.graph = .ok index ∧
    holder' = ⟨some ⟨current.graph, index,
      G.remapCommunitiesToPrevious raw (buildPreviousNodeCommunity current.communityMap),
      holder.nextVersion⟩, holder.nextVersion + 1⟩

private theorem runClusteringCycle_store (G : Graphify ν γ τ) (clustering : ClusteringOutcome)
    (holder : SnapshotHolder γ τ) :
    Recommunitied G clustering holder (runClusteringCycle G clustering holder).store := by
  unfold runClusteringCycle
  cases hc : holder.current with
  | none => exact .inl rfl
  | some current =>
    cases hr : clustering.result with
    | none => exact .inl rfl
    | some raw =>
      dsimp only
      cases hp : holder.publish G current.graph
          (G.remapCommunitiesToPrevious raw (buildPreviousNodeCommunity current.communityMap)) with
      | raised e kept => exact .inl (publish_raised hp)
      | done next =>
        obtain ⟨index, hindex, rfl⟩ := publish_eq_done.mp hp
        exact .inr ⟨current, raw, index, hc, hr, hindex, rfl⟩

theorem runSlowCadenceCycle_store (G : Graphify ν γ τ) (seen : CadenceObservation) (d : Daemon ν γ τ) :
    (runSlowCadenceCycle G seen d).store.cache = d.cache ∧
    (runSlowCadenceCycle G seen d).store.files = d.files ∧
    Recommunitied G seen.clustering d.holder (runSlowCadenceCycle G seen d).store.holder := by
  unfold runSlowCadenceCycle
  split_ifs with ht
  · have hcycle := runClusteringCycle_store G seen.clustering d.holder
    cases hr : runClusteringCycle G seen.clustering d.holder with
    | raised e holder =>
      rw [hr] at hcycle
      exact ⟨rfl, rfl, hcycle⟩
    | done holder =>
      rw [hr] at hcycle
      simp only [Outcome.within_done, Outcome.andThen_done]
      have hwritten : (writeArtifacts seen { d with holder := holder }).store =
          { d with holder := holder } := by
        unfold writeArtifacts writeArtifact
        cases holder.current with
        | none => rfl
        | some current =>
          cases seen.graphJsonFault with
          | some e => rfl
          | none => cases seen.knowledgeMdFault <;> rfl
      cases hw : writeArtifacts seen { d with holder := holder } with
      | raised e d' =>
        rw [hw] at hwritten
        subst hwritten
        exact ⟨rfl, rfl, hcycle⟩
      | done d' =>
        rw [hw] at hwritten
        subst hwritten
        simp only [Outcome.andThen_done, saveCache]
        cases seen.saveFault <;> exact ⟨rfl, rfl, hcycle⟩
  · exact ⟨rfl, rfl, .inl rfl⟩

theorem compileBatch_done [Zero ν] {G : Graphify ν γ τ} {nested : List String}
    {batch : List (FileChange × Observation ν)} {seen : CompileObservation} {d d' : Daemon ν γ τ}
    (h : compileBatch G nested batch seen d = .done d') :
    extractBatch nested batch d.cache = .done d'.cache ∧
      syncBatch nested batch d'.cache seen.commitFault d.files = .done d'.files := by
  obtain ⟨mid, hmid, hrest⟩ := Outcome.andThen_eq_done.mp h
  obtain ⟨last, hlast, hend⟩ := Outcome.andThen_eq_done.mp hrest
  have hpub := publishBatch_done hmid
  obtain ⟨hcache, hfiles, -⟩ := runSlowCadenceCycle_store G seen.cadence mid
  rw [hlast, Outcome.store_done] at hcache hfiles
  cases hend
  dsimp only
  rw [hcache, hfiles]
  exact ⟨hpub.extracted, hpub.synced⟩

end GraphifyDaemon
