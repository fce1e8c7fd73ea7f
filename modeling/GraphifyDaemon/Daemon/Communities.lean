import GraphifyDaemon.ArtifactLifecycle.ColdStart
import GraphifyDaemon.GraphQueryApi.Tools
import GraphifyDaemon.Library.Trace
import GraphifyDaemon.VaultCompiler.ReferenceGraph

/-! The community map against the graph it is published with. A batch carries the map
forward onto a new graph; only a clustering cycle replaces it. -/
namespace GraphifyDaemon
open Library Library.Trace

variable {ν γ τ : Type} [Zero ν]

/-- What the writer does to the snapshot. Readers see it between any two of these. -/
inductive WriterEvent (ν : Type) where
  | publish (batch : List (FileChange × Observation ν)) (seen : CompileObservation)
  | cadence (seen : CadenceObservation)

def writerStep (G : Graphify ν γ τ) (nested : List String) :
    WriterEvent ν → Daemon ν γ τ → Option (Daemon ν γ τ)
  | .publish batch seen, d => some (publishBatch G nested batch seen d).store
  | .cadence seen, d => some (runSlowCadenceCycle G seen d).store

/-- A batch compile is a publish and, unless that raised, a cadence cycle. -/
theorem compileBatch_writerStep (G : Graphify ν γ τ) (nested : List String)
    (batch : List (FileChange × Observation ν)) (seen : CompileObservation) (d : Daemon ν γ τ) :
    ∃ events d', (events = [.publish batch seen] ∨ events = [.publish batch seen, .cadence seen.cadence]) ∧
      exec (writerStep G nested) events d = some d' ∧
      (compileBatch G nested batch seen d).store =
        { d' with idleScheduled := (compileBatch G nested batch seen d).store.idleScheduled } := by
  unfold compileBatch
  cases hp : publishBatch G nested batch seen d with
  | raised e mid => exact ⟨_, mid, .inl rfl, by simp [writerStep, hp], rfl⟩
  | done mid =>
    refine ⟨_, (runSlowCadenceCycle G seen.cadence mid).store, .inr rfl, by simp [writerStep, hp], ?_⟩
    rw [Outcome.andThen_done]
    cases runSlowCadenceCycle G seen.cadence mid <;> rfl

section Closed
variable (G : Graphify ν γ τ) (nested : List String)

omit [Zero ν] in
/-- Every listed member is a node of the same snapshot's graph. -/
def Closed (snapshot : GraphSnapshot γ τ) : Prop :=
  ∀ n ∈ snapshot.communityMap.memberIds, (G.nodes snapshot.graph n).isSome

/-- A clustering returns only nodes of the graph it is given. -/
def ClustersWithin : WriterEvent ν → Daemon ν γ τ → Prop
  | .publish _ _, _ => True
  | .cadence seen, d => match d.holder.current, seen.clustering.result with
    | some current, some raw => ∀ n ∈ raw.memberIds, (G.nodes current.graph n).isSome
    | _, _ => True

omit [Zero ν] in
instance (e : WriterEvent ν) (d : Daemon ν γ τ) : Decidable (ClustersWithin G e d) := by
  unfold ClustersWithin
  split
  · infer_instance
  · split <;> infer_instance

/-- Some file's extraction has this node once the batch is through. -/
def ListedAfter (batch : List (FileChange × Observation ν)) (d : Daemon ν γ τ) (node : Json ν) : Prop :=
  ∃ p result, finalEntry nested batch p (d.cache.get p) = some result ∧ Lists result node

/-- Each published community member is still listed by some file's extraction once the batch is
through: none is deleted, renamed away or re-extracted without it. Nor is a node that has its id
a twin of one that has another. -/
def Retains (twins : Json ν → Json ν → Prop) : WriterEvent ν → Daemon ν γ τ → Prop
  | .cadence _, _ => True
  | .publish batch _, d => ∀ current, d.holder.current = some current →
      ∀ n ∈ current.communityMap.memberIds, (∃ node, ListedAfter nested batch d node ∧ nodeId node = some n) ∧
        ∀ node other, ListedAfter nested batch d node → ListedAfter nested batch d other →
          nodeId node = some n → nodeId other ≠ some n → ¬ twins node other

end Closed

/-- The invariant: a published snapshot is closed. -/
def HolderClosed (G : Graphify ν γ τ) (d : Daemon ν γ τ) : Prop :=
  ∀ current, d.holder.current = some current → Closed G current

private theorem publish_keeps_closed {G : Graphify ν γ τ} {twins : Json ν → Json ν → Prop}
    (hkeeps : G.KeepsUnlike twins) {nested : List String} {batch : List (FileChange × Observation ν)}
    {seen : CompileObservation} {d : Daemon ν γ τ} (hclosed : HolderClosed G d)
    (hretains : Retains nested twins (.publish batch seen) d) :
    HolderClosed G (publishBatch G nested batch seen d).store := by
  intro current hcurrent
  cases hp : publishBatch G nested batch seen d with
  | raised e d' =>
    rw [hp, Outcome.store_raised, (publishBatch_raised hp).1] at hcurrent
    exact hclosed current hcurrent
  | done d' =>
    rw [hp, Outcome.store_done] at hcurrent
    have hpub := publishBatch_done hp
    obtain ⟨graph, index, hgraph, -, hholder⟩ := hpub.published
    have hlisted : ∀ node, d'.cache.Lists node ↔ ListedAfter nested batch d node := by
      intro node
      simp only [ExtractionCache.Lists, ListedAfter, extractBatch_get hpub.extracted]
    rw [hholder] at hcurrent
    cases hcurrent
    intro n hn
    unfold carriedMap at hn
    split at hn
    · rename_i before hbefore
      obtain ⟨⟨node, hnode, hid⟩, hunlike⟩ := hretains before hbefore n hn
      exact buildGraph_keeps hkeeps hgraph ((hlisted node).mpr hnode) hid fun like other hlike hother =>
        hunlike like other ((hlisted like).mp hlike) ((hlisted other).mp hother)
    · cases hn

omit [Zero ν] in
private theorem cadence_keeps_closed {G : Graphify ν γ τ} (hremap : G.RemapsWithin) {seen : CadenceObservation}
    {d : Daemon ν γ τ} (hclosed : HolderClosed G d) (hwithin : ClustersWithin G (.cadence seen) d) :
    HolderClosed G (runSlowCadenceCycle G seen d).store := by
  intro current hcurrent
  obtain ⟨-, -, hsame | ⟨clustered, raw, index, hclustered, hraw, -, hnew⟩⟩ :=
    runSlowCadenceCycle_store G seen d
  · rw [hsame] at hcurrent
    exact hclosed current hcurrent
  · rw [hnew] at hcurrent
    cases hcurrent
    intro n hn
    simp only [ClustersWithin, hclustered, hraw] at hwithin
    exact hwithin n (hremap raw _ n hn)

/-- From a cold start, through batches that retain the published members, every
snapshot is closed and `get_community` lists the members. -/
theorem community_members_are_nodes [DecidableEq ν] {G : Graphify ν γ τ} {twins : Json ν → Json ν → Prop}
    (hkeeps : G.KeepsUnlike twins) (hremap : G.RemapsWithin) {nested : List String} {walk : List (WalkEntry ν)}
    {d₀ d d' : Daemon ν γ τ} {events : List (WriterEvent ν)}
    (hstart : d₀.coldStart G nested walk = .done d)
    (hwithin : Along (writerStep G nested) (ClustersWithin G) events d)
    (hretains : Along (writerStep G nested) (Retains nested twins) events d)
    (hrun : exec (writerStep G nested) events d = some d') {current : GraphSnapshot γ τ}
    (hcurrent : d'.holder.current = some current) :
    Closed G current ∧ ∀ communityId first rest, current.communityMap.get communityId = some (first :: rest) →
      ∀ tokenBudget, ∃ header lines, (first :: rest).mapM (memberLine G current.graph) = .ok lines ∧
        toolGetCommunity G communityId tokenBudget current =
          .ok (cutLinesToBudget (header :: lines) tokenBudget communityHint) := by
  have hclosed : HolderClosed G d' := by
    refine exec_invariant (HolderClosed G) ?_ ?_
      (hwithin.and hretains) hrun
    · rintro (⟨batch, seen⟩ | seen) s s' ⟨hw, hr⟩ hs hstep
      · cases hstep
        exact publish_keeps_closed hkeeps hs hr
      · cases hstep
        exact cadence_keeps_closed hremap hs hw
    · intro first hfirst n hn
      obtain ⟨published, hpublished, hempty, -⟩ := coldStart_done hstart
      rw [hpublished] at hfirst
      cases hfirst
      rw [hempty] at hn
      cases hn
  refine ⟨hclosed current hcurrent, fun communityId first rest hget tokenBudget => ?_⟩
  refine toolGetCommunity_of_mem hget (fun n hn => hclosed current hcurrent n ?_) tokenBudget
  exact List.mem_flatten.mpr ⟨_, (OrderedDict.mem_values_iff _ _).mpr ⟨communityId, hget⟩, hn⟩

def coldStarted : Daemon Nat ReferenceGraph Unit :=
  ((Daemon.initial 0).coldStart referenceGraphify [] []).store

/-- A note is compiled and its one node clustered. -/
def compiledAndClustered : List (WriterEvent Nat) :=
  [.publish [(.created notePath, .calm (oneNode "a") 1)] .calm,
    .cadence ⟨60, .communities (OrderedDict.empty.set 0 ["a"]), none, none, none, 60⟩]

/-- Then the note is written again. -/
def modifiedAfterClustering : List (WriterEvent Nat) :=
  compiledAndClustered ++ [.publish [(.modified notePath, .calm (oneNode "a") 2)] .calm]

/-- Then the note is deleted. -/
def deletedAfterClustering : List (WriterEvent Nat) :=
  compiledAndClustered ++ [.publish [(.deleted notePath, .calm (oneNode "a") 1)] .calm]

/-- The node as it is stored under the note. -/
def storedNode : Json Nat := .obj [("id", .str "a"), ("source_file", .str "note.md")]

private theorem retains_modified {d : Daemon Nat ReferenceGraph Unit}
    (hcache : ∀ p, p ≠ notePath → d.cache.get p = none)
    (hmembers : ∀ current, d.holder.current = some current → ∀ n ∈ current.communityMap.memberIds, n = "a") :
    Retains [] SameSourceAndLabel (.publish [(.modified notePath, .calm (oneNode "a") 2)] .calm) d := by
  have hlisted : ∀ node, ListedAfter [] [(.modified notePath, .calm (oneNode "a") 2)] d node ↔ node = storedNode := by
    intro node
    constructor
    · rintro ⟨p, result, hentry, nodes, hnodes, hnode⟩
      by_cases hp : p = notePath
      · subst hp
        cases hentry
        cases hnodes
        exact List.mem_singleton.mp hnode
      · have hkept : finalEntry [] [(.modified notePath, .calm (oneNode "a") 2)] p (d.cache.get p) = d.cache.get p :=
          if_neg fun h => hp h.2.symm
        rw [hkept, hcache p hp] at hentry
        cases hentry
    · rintro rfl
      exact ⟨notePath, _, rfl, _, rfl, List.mem_singleton.mpr rfl⟩
  intro current hcurrent n hn
  rw [hmembers current hcurrent n hn]
  refine ⟨⟨storedNode, (hlisted _).mpr rfl, rfl⟩, fun node other _ hother _ hne => absurd ?_ hne⟩
  rw [(hlisted other).mp hother]
  rfl

theorem community_members_are_nodes_modified :
    ∃ d' : Daemon Nat ReferenceGraph Unit, ∃ current, d'.holder.current = some current ∧
      Closed referenceGraphify current := by
  have hstarted : (Daemon.initial 0).coldStart referenceGraphify [] [] = .done coldStarted := rfl
  have hretains : Along (writerStep referenceGraphify []) (Retains [] SameSourceAndLabel)
      modifiedAfterClustering coldStarted := by
    refine ⟨?_, fun d hd => ⟨trivial, fun d' hd' => ⟨?_, fun _ _ => trivial⟩⟩⟩
    · intro current hcurrent n hn
      cases hcurrent
      cases hn
    · cases hd
      cases hd'
      refine retains_modified (fun p hp => ?_) fun current hcurrent n hn => ?_
      · exact (ExtractionCache.get_set .empty notePath p _ _).trans (if_neg fun h => hp h.symm)
      · cases hcurrent
        exact List.mem_singleton.mp hn
  obtain ⟨d', hd'⟩ : ∃ d', exec (writerStep referenceGraphify []) modifiedAfterClustering coldStarted = some d' :=
    ⟨_, rfl⟩
  obtain ⟨current, hcurrent⟩ : ∃ current, d'.holder.current = some current := by
    cases hd'
    exact ⟨_, rfl⟩
  exact ⟨d', current, hcurrent, (community_members_are_nodes referenceGraphify_keepsUnlike
    referenceGraphify_remapsWithin hstarted (by decide) hretains hd' hcurrent).1⟩

theorem deleted_member_stays_listed :
    ∃ d d' : Daemon Nat ReferenceGraph Unit, ∃ current,
      (Daemon.initial 0).coldStart referenceGraphify [] [] = .done d ∧
      Along (writerStep referenceGraphify []) (ClustersWithin referenceGraphify) deletedAfterClustering d ∧
      exec (writerStep referenceGraphify []) deletedAfterClustering d = some d' ∧
      d'.holder.current = some current ∧ ¬ Closed referenceGraphify current ∧
      toolGetCommunity referenceGraphify 0 2000 current = .error (.keyError "a") := by
  refine ⟨coldStarted, _, _, rfl, by decide, rfl, rfl, ?_, rfl⟩
  intro h
  exact absurd (h "a" (by decide)) (by decide)

end GraphifyDaemon
