import GraphifyDaemon.ArtifactLifecycle.ResultShape
import GraphifyDaemon.Daemon.Compile
import GraphifyDaemon.VaultCompiler.ReferenceGraph

/-! When one file's failure stays that file's own. Extraction failures always do; the two
`stat` calls and the counting of a result's nodes and edges do not. -/
namespace GraphifyDaemon
open Library

variable {ν γ τ : Type}

def StatOutcome.Forgiven : StatOutcome ν → Prop
  | .found _ _ | .missing => True
  | .failed _ => False

instance : (stat : StatOutcome ν) → Decidable stat.Forgiven
  | .found _ _ | .missing => isTrue trivial
  | .failed _ => isFalse id

/-- No failure of the batch is of a kind that escapes its own file. -/
def Tolerated (nested : List String) (batch : List (FileChange × Observation ν)) (d : Daemon ν γ τ) : Prop :=
  ∀ b ∈ batch, b.1.reachesPath nested = true →
    ((extractionOf b).isSome → b.2.extractStat.Forgiven) ∧ b.2.syncStat.Forgiven ∧
      Countable (finalEntry nested batch b.1.path (d.cache.get b.1.path))

instance (nested : List String) (batch : List (FileChange × Observation ν)) (d : Daemon ν γ τ) :
    Decidable (Tolerated nested batch d) := inferInstanceAs (Decidable (∀ b ∈ batch, _))

/-- Everything but the files of the batch behaves. -/
structure NoOtherFailure (G : Graphify ν γ τ) (batch : List (FileChange × Observation ν))
    (seen : CompileObservation) : Prop where
  build : ∀ nodes edges, ∃ graph, G.buildFromJson nodes edges = .ok graph
  index : ∀ graph, ∃ index, G.getTrigramIndex graph = .ok index
  statements : ∀ b ∈ batch, b.2.deleteFault = none ∧ b.2.upsertFault = none
  commit : seen.commitFault = none
  artifacts : seen.cadence.graphJsonFault = none ∧ seen.cadence.knowledgeMdFault = none ∧
    seen.cadence.saveFault = none

/-- Every change has its effect on the cache and on the table, and a new snapshot has the
graph of that cache. -/
structure Reflected [Zero ν] (G : Graphify ν γ τ) (nested : List String)
    (batch : List (FileChange × Observation ν)) (d d' : Daemon ν γ τ) : Prop where
  cache : ∀ p, d'.cache.get p = finalEntry nested batch p (d.cache.get p)
  files : ∀ p, d'.files.get p = finalRow nested batch d'.cache p (d.files.get p)
  snapshot : ∃ current, d'.holder.current = some current ∧ buildGraph G d'.cache = .ok current.graph ∧
    d.holder.nextVersion ≤ current.version

private theorem extractChange_completed_iff (nested : List String) (b : FileChange × Observation ν)
    (cache : ExtractionCache ν) : (extractChange nested b.1 b.2 cache).completed = true ↔
      (b.1.reachesPath nested = true → (extractionOf b).isSome → b.2.extractStat.Forgiven) := by
  unfold extractChange
  split_ifs with hr
  · unfold storeResult extractionOf
    cases hx : extractFileWithFailureIsolation b.2.extractor b.1.path with
    | none => simp [hr]
    | some r => cases hs : b.2.extractStat <;> simp [hr, StatOutcome.Forgiven]
  · simp [hr]

theorem rowFor_ok_iff [Zero ν] {result : Option (PyDict ν)} {stat : StatOutcome ν}
    (hiterable : ∀ r, result = some r → Iterable r) :
    (∃ row, rowFor result stat = .ok row) ↔ stat.Forgiven ∧ Countable result := by
  have hnodes := itemCount_ok_iff "nodes" (by simp) hiterable
  have hedges := itemCount_ok_iff "edges" (by simp) hiterable
  unfold rowFor Countable
  rw [← hnodes, ← hedges]
  cases itemCount "nodes" result with
  | error e => simp
  | ok nodeCount => cases itemCount "edges" result with
    | error e => simp
    | ok edgeCount => cases stat <;> simp [StatOutcome.Forgiven]

theorem syncChange_completed_iff [Zero ν] (nested : List String) {cache : ExtractionCache ν}
    (hcache : cache.Iterable) (b : FileChange × Observation ν) (hdelete : b.2.deleteFault = none)
    (hupsert : b.2.upsertFault = none) (files : FilesTable ν) :
    (syncChange nested cache b.1 b.2 files).completed = true ↔
      (b.1.reachesPath nested = true → b.2.syncStat.Forgiven ∧ Countable (cache.get b.1.path)) := by
  have hclean : ∃ cleaned, deleteStaleRow b.2.deleteFault b.1 files = .done cleaned := by
    unfold deleteStaleRow
    cases b.1.stalePath with
    | none => exact ⟨files, rfl⟩
    | some p => exact ⟨files.erase p, by simp [deleteRow, hdelete]⟩
  obtain ⟨cleaned, hcleaned⟩ := hclean
  unfold syncChange
  simp only [hcleaned, Outcome.andThen_done]
  split_ifs with hr
  · rw [← rowFor_ok_iff (hcache b.1.path)]
    cases rowFor (cache.get b.1.path) b.2.syncStat with
    | error e => simp [hr]
    | ok row => simp [hr, upsertRow, hupsert]
  · simp [hr]

theorem extractBatch_completed_iff (nested : List String) (batch : List (FileChange × Observation ν))
    (cache : ExtractionCache ν) : (extractBatch nested batch cache).completed = true ↔
      ∀ b ∈ batch, b.1.reachesPath nested = true → (extractionOf b).isSome → b.2.extractStat.Forgiven :=
  Outcome.forEach_completed_iff (fun b _ => extractChange_completed_iff nested b) cache

theorem syncBatch_completed_iff [Zero ν] (nested : List String) {batch : List (FileChange × Observation ν)}
    {cache : ExtractionCache ν} (hcache : cache.Iterable)
    (hstatements : ∀ b ∈ batch, b.2.deleteFault = none ∧ b.2.upsertFault = none) (files : FilesTable ν) :
    (syncBatch nested batch cache none files).completed = true ↔
      ∀ b ∈ batch, b.1.reachesPath nested = true → b.2.syncStat.Forgiven ∧ Countable (cache.get b.1.path) := by
  rw [← Outcome.forEach_completed_iff (fun b hb => syncChange_completed_iff nested hcache b
    (hstatements b hb).1 (hstatements b hb).2) files, Outcome.completed_iff, Outcome.completed_iff]
  simp only [syncBatch, Outcome.transaction_eq_done, and_true]

section Compile
variable [Zero ν] {G : Graphify ν γ τ} {nested : List String} {batch : List (FileChange × Observation ν)}
  {seen : CompileObservation} {d : Daemon ν γ τ}

/-- With nothing else failing, a publish completes exactly on a tolerated batch. -/
theorem publishBatch_completed_iff (hother : NoOtherFailure G batch seen) (hcache : d.cache.Iterable) :
    (publishBatch G nested batch seen d).completed = true ↔ Tolerated nested batch d := by
  constructor
  · intro h
    obtain ⟨d', hd'⟩ := Outcome.completed_iff.mp h
    have hpub := publishBatch_done hd'
    have hextract := (extractBatch_completed_iff nested batch d.cache).mp
      (Outcome.completed_iff.mpr ⟨_, hpub.extracted⟩)
    have hsynced := hpub.synced
    rw [hother.commit] at hsynced
    have hsync := (syncBatch_completed_iff nested (extractBatch_iterable hcache hpub.extracted)
      hother.statements d.files).mp (Outcome.completed_iff.mpr ⟨_, hsynced⟩)
    intro b hb hr
    rw [← extractBatch_get hpub.extracted b.1.path]
    exact ⟨hextract b hb hr, hsync b hb hr⟩
  · intro h
    obtain ⟨cache, hextracted⟩ := Outcome.completed_iff.mp
      ((extractBatch_completed_iff nested batch d.cache).mpr fun b hb hr => (h b hb hr).1)
    have hiterable := extractBatch_iterable hcache hextracted
    obtain ⟨files, hsynced⟩ := Outcome.completed_iff.mp
      ((syncBatch_completed_iff nested hiterable hother.statements d.files).mpr fun b hb hr => by
        rw [extractBatch_get hextracted b.1.path]
        exact (h b hb hr).2)
    obtain ⟨graph, hgraph⟩ := buildGraph_ok hother.build hiterable
    obtain ⟨index, hindex⟩ := hother.index graph
    simp [publishBatch, hextracted, hother.commit, hsynced, hgraph, SnapshotHolder.publish, hindex]

omit [Zero ν] in
private theorem runSlowCadenceCycle_completed (hother : NoOtherFailure G batch seen) (d : Daemon ν γ τ) :
    (runSlowCadenceCycle G seen.cadence d).completed = true := by
  obtain ⟨hgraphJson, hknowledge, hsave⟩ := hother.artifacts
  have hcycle : (runClusteringCycle G seen.cadence.clustering d.holder).completed = true := by
    unfold runClusteringCycle
    cases d.holder.current with
    | none => rfl
    | some current => cases seen.cadence.clustering.result with
      | none => rfl
      | some raw =>
        obtain ⟨index, hindex⟩ := hother.index current.graph
        simp [SnapshotHolder.publish, hindex]
  obtain ⟨holder, hholder⟩ := Outcome.completed_iff.mp hcycle
  unfold runSlowCadenceCycle
  split_ifs
  · simp only [hholder, Outcome.within_done, Outcome.andThen_done, writeArtifacts, writeArtifact, saveCache,
      hgraphJson, hknowledge, hsave]
    cases holder.current <;> rfl
  · rfl

theorem Published.reflected {mid d' : Daemon ν γ τ} (h : Published G nested batch seen d mid)
    (hcache : d'.cache = mid.cache) (hfiles : d'.files = mid.files)
    (hholder : Recommunitied G seen.cadence.clustering mid.holder d'.holder) :
    Reflected G nested batch d d' := by
  obtain ⟨graph, index, hgraph, -, hmid⟩ := h.published
  refine ⟨fun p => ?_, fun p => ?_, ?_⟩
  · rw [hcache]
    exact extractBatch_get h.extracted p
  · rw [hcache, hfiles]
    exact syncBatch_get h.synced p
  · rw [hcache]
    rcases hholder with hsame | ⟨current, raw, index', hcurrent, -, -, hnew⟩
    · exact ⟨_, by rw [hsame, hmid], hgraph, Nat.le_refl _⟩
    · rw [hmid] at hcurrent hnew
      cases hcurrent
      exact ⟨_, by rw [hnew], hgraph, Nat.le_succ _⟩

end Compile

/-- One note cannot be parsed, another is fine. -/
def unparsableNote : List (FileChange × Observation Nat) :=
  [(.created notePath, { Observation.calm (oneNode "a") 1 with extractor := .error .valueError }),
    (.created otherPath, .calm (oneNode "b") 1)]

/-- A note is read, and before its `stat` its folder is replaced by a file; another note
of the batch is fine. -/
def folderReplaced : List (FileChange × Observation Nat) :=
  [(.created folderNotePath, { Observation.calm (oneNode "a") 1 with extractStat := .failed (.otherOSError 20) }),
    (.created otherPath, .calm (oneNode "b") 1)]

end GraphifyDaemon
