import GraphifyDaemon.Daemon.Compile
import GraphifyDaemon.VaultCompiler.ReferenceGraph

/-! What a compile that raises leaves behind. The cache, the table and the snapshot are
written in this order and only the table rolls back. -/
namespace GraphifyDaemon
open Library

variable {ν γ τ : Type} [Zero ν]

section Stores
variable (G : Graphify ν γ τ) (nested : List String) (batch : List (FileChange × Observation ν))
  (seen : CompileObservation)

/-- The cache is what a complete extract pass over the batch leaves. -/
def CacheIncludes (d d' : Daemon ν γ τ) : Prop := extractBatch nested batch d.cache = .done d'.cache

/-- The table is what a complete index pass over the batch leaves. -/
def TableIncludes (d d' : Daemon ν γ τ) : Prop :=
  syncBatch nested batch d'.cache seen.commitFault d.files = .done d'.files

/-- The published snapshot is a new one, with the graph of the cache. -/
def SnapshotIncludes (d d' : Daemon ν γ τ) : Prop :=
  d.holder.nextVersion < d'.holder.nextVersion ∧
    ∃ current, d'.holder.current = some current ∧ buildGraph G d'.cache = .ok current.graph

def AsBefore (d d' : Daemon ν γ τ) : Prop :=
  d'.cache = d.cache ∧ d'.files = d.files ∧ d'.holder = d.holder

/-- The extract pass stopped at one change: those before it are in the cache, and its own
old state is dropped. -/
def CacheStopped (d d' : Daemon ν γ τ) : Prop :=
  ∃ before failing after mid, batch = before ++ failing :: after ∧
    extractBatch nested before d.cache = .done mid ∧ d'.cache = dropStale failing.1 mid

/-- The three stores follow one another: the table and the snapshot are each untouched or
include the whole batch, the snapshot never ahead of the table nor the table of the
cache, and the cache keeps what the extract pass wrote. -/
inductive LeftBehind (d d' : Daemon ν γ τ) : Prop where
  | extracting (cache : CacheIncludes nested batch d d' ∨ CacheStopped nested batch d d')
      (files : d'.files = d.files) (holder : d'.holder = d.holder)
  | building (cache : CacheIncludes nested batch d d') (files : TableIncludes nested batch seen d d')
      (holder : d'.holder = d.holder)
  | persisting (cache : CacheIncludes nested batch d d') (files : TableIncludes nested batch seen d d')
      (holder : SnapshotIncludes G d d')

end Stores

omit [Zero ν] in
private theorem extractChange_raised {nested : List String} {c : FileChange} {seen : Observation ν}
    {cache cache' : ExtractionCache ν} {e : PyError}
    (h : extractChange nested c seen cache = .raised e cache') : cache' = dropStale c cache := by
  unfold extractChange storeResult at h
  split_ifs at h
  split at h
  · cases h
  · split at h
    · cases h
    · cases h
    · cases h
      rfl

omit [Zero ν] in
/-- A raising extract pass has compiled exactly the changes before the one it stops at,
whose old state it has already dropped. -/
theorem extractBatch_raised {nested : List String} {batch : List (FileChange × Observation ν)}
    {cache cache' : ExtractionCache ν} {e : PyError}
    (h : extractBatch nested batch cache = .raised e cache') :
    ∃ before failing after mid, batch = before ++ failing :: after ∧
      extractBatch nested before cache = .done mid ∧ cache' = dropStale failing.1 mid := by
  obtain ⟨before, failing, after, mid, hbatch, hbefore, hfail⟩ := Outcome.forEach_eq_raised h
  exact ⟨before, failing, after, mid, hbatch, hbefore, extractChange_raised hfail⟩

omit [Zero ν] in
theorem Recommunitied.snapshotIncludes {G : Graphify ν γ τ} {clustering : ClusteringOutcome}
    {d mid d' : Daemon ν γ τ} (h : Recommunitied G clustering mid.holder d'.holder)
    (hmid : SnapshotIncludes G d mid) (hcache : d'.cache = mid.cache) : SnapshotIncludes G d d' := by
  obtain ⟨hversion, current, hcurrent, hgraph⟩ := hmid
  rcases h with hsame | ⟨clustered, raw, index, hclustered, -, -, hnew⟩
  · rw [SnapshotIncludes, hsame, hcache]
    exact ⟨hversion, current, hcurrent, hgraph⟩
  · have hsame : clustered = current := Option.some.inj (hclustered.symm.trans hcurrent)
    subst hsame
    rw [SnapshotIncludes, hnew, hcache]
    exact ⟨by dsimp only; omega, _, rfl, hgraph⟩

theorem Published.snapshotIncludes {G : Graphify ν γ τ} {nested : List String}
    {batch : List (FileChange × Observation ν)} {seen : CompileObservation} {d d' : Daemon ν γ τ}
    (h : Published G nested batch seen d d') : SnapshotIncludes G d d' := by
  obtain ⟨graph, index, hgraph, -, hholder⟩ := h.published
  rw [SnapshotIncludes, hholder]
  exact ⟨Nat.lt_succ_self _, _, rfl, hgraph⟩

theorem failed_compile_stores {G : Graphify ν γ τ} {nested : List String}
    {batch : List (FileChange × Observation ν)} {seen : CompileObservation} {d d' : Daemon ν γ τ}
    {e : PyError} (h : compileBatch G nested batch seen d = .raised e d') :
    LeftBehind G nested batch seen d d' := by
  unfold compileBatch at h
  cases hp : publishBatch G nested batch seen d with
  | raised e' mid =>
    rw [hp, Outcome.andThen_raised] at h
    cases h
    obtain ⟨hholder, ⟨hfiles, hcache⟩ | ⟨hextract, hsync⟩⟩ := publishBatch_raised hp
    · refine .extracting ?_ hfiles hholder
      cases hx : extractBatch nested batch d.cache with
      | done c =>
        rw [hx] at hcache
        exact .inl (hx.trans (congrArg Outcome.done hcache))
      | raised e' c =>
        rw [hx] at hcache
        obtain ⟨before, failing, after, last, hbatch, hbefore, hlast⟩ := extractBatch_raised hx
        exact .inr ⟨before, failing, after, last, hbatch, hbefore, hcache ▸ hlast⟩
    · exact .building hextract hsync hholder
  | done mid =>
    have hpub := publishBatch_done hp
    rw [hp, Outcome.andThen_done] at h
    obtain ⟨hcache, hfiles, hholder⟩ := runSlowCadenceCycle_store G seen.cadence mid
    cases hc : runSlowCadenceCycle G seen.cadence mid with
    | done last => simp [hc] at h
    | raised e' last =>
      simp only [hc, Outcome.andThen_raised, Outcome.raised.injEq] at h
      obtain ⟨-, rfl⟩ := h
      rw [hc, Outcome.store_raised] at hcache hfiles hholder
      refine .persisting ?_ ?_ (hholder.snapshotIncludes hpub.snapshotIncludes hcache)
      · rw [CacheIncludes, hcache]
        exact hpub.extracted
      · rw [TableIncludes, hcache, hfiles]
        exact hpub.synced

/-- A note is created and the upsert of its row fails. -/
def failingUpsert : List (FileChange × Observation Nat) :=
  [(.created notePath, { Observation.calm (oneNode "a") 1 with upsertFault := some .sqliteError })]

/-- The cache keeps the note, of which the table and the snapshot know nothing. -/
theorem failed_compile_not_atomic :
    ∃ d' : Daemon Nat ReferenceGraph Unit,
      compileBatch referenceGraphify [] failingUpsert .calm (.initial 0) = .raised .sqliteError d' ∧
      ¬ (AsBefore (.initial 0) d' ∨ (CacheIncludes [] failingUpsert (.initial 0) d' ∧
        TableIncludes [] failingUpsert .calm (.initial 0) d' ∧
        SnapshotIncludes referenceGraphify (.initial 0) d')) := by
  refine ⟨_, rfl, ?_⟩
  rintro (⟨hcache, -, -⟩ | ⟨-, hsync, -⟩)
  · exact absurd (congrArg (fun c => c.get notePath) hcache) (by decide)
  · cases hsync

theorem failed_compile_stores_failing_upsert :
    ∃ d' : Daemon Nat ReferenceGraph Unit,
      compileBatch referenceGraphify [] failingUpsert .calm (.initial 0) = .raised .sqliteError d' ∧
      LeftBehind referenceGraphify [] failingUpsert .calm (.initial 0) d' :=
  ⟨_, rfl, failed_compile_stores rfl⟩

end GraphifyDaemon
