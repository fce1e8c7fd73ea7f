import Mathlib.Data.List.Range
import GraphifyDaemon.Daemon.WriterSteps
import GraphifyDaemon.VaultCompiler.ReferenceGraph

/-! The published snapshot against the cache. A clustering cycle republishes a graph that
it took long before; that this is never an old one is the coordinator lock's doing. -/
namespace GraphifyDaemon
open Library Library.Trace

variable {ν γ τ : Type}

/-- The published graph is the one of the current cache. -/
def Fresh (G : Graphify ν γ τ) (d : Daemon ν γ τ) : Prop :=
  ∃ snapshot, d.holder.current = some snapshot ∧ buildGraph G d.cache = .ok snapshot.graph

/-- Between extracting and publishing the cache is ahead of the snapshot; at any other stage
the snapshot is fresh, and one that is being clustered is still the current one. -/
def StageFresh (G : Graphify ν γ τ) (d : Daemon ν γ τ) : Option (WriterStage ν γ τ) → Prop
  | some (.syncing _) | some (.building _) => True
  | some (.publishing _ graph _) => buildGraph G d.cache = .ok graph
  | some (.clustering _ captured) => d.holder.current = some captured ∧ Fresh G d
  | none | some (.extracting _) | some (.recording _) | some (.deciding _) | some (.capturing _)
  | some (.writing _) | some (.saving _) | some (.resetting _) | some .cancellingIdle | some .schedulingIdle
  | some .persisting | some .leaving => Fresh G d

/-- The snapshots published so far have the versions 1, 2, 3, …, and the last is current. -/
structure Numbered (s : WriterState ν γ τ) : Prop where
  versions : s.published.map GraphSnapshot.version = List.range' 1 s.published.length
  next : s.daemon.holder.nextVersion = s.published.length + 1
  current : s.daemon.holder.current = s.published.getLast?

/-- A step that publishes nothing. -/
theorem Numbered.frame {s s' : WriterState ν γ τ} (h : Numbered s) (hpublished : s'.published = s.published)
    (hholder : s'.daemon.holder = s.daemon.holder) : Numbered s' := by
  obtain ⟨versions, next, current⟩ := h
  constructor
  · rw [hpublished]
    exact versions
  · rw [hpublished, hholder]
    exact next
  · rw [hpublished, hholder]
    exact current

theorem publish_eq_some {G : Graphify ν γ τ} {graph : γ} {communityMap : CommunityMap} {s s' : WriterState ν γ τ}
    (h : s.publish G graph communityMap = some s') : ∃ index,
      let new : GraphSnapshot γ τ := ⟨graph, index, communityMap, s.daemon.holder.nextVersion⟩
      s' = { s with
        daemon := { s.daemon with holder := ⟨some new, s.daemon.holder.nextVersion + 1⟩ }
        published := s.published ++ [new] } := by
  unfold WriterState.publish at h
  cases hp : s.daemon.holder.publish G graph communityMap with
  | raised e holder => simp [hp] at h
  | done holder =>
    obtain ⟨index, -, rfl⟩ := publish_eq_done.mp hp
    simp only [hp, Option.some.injEq] at h
    exact ⟨index, h.symm⟩

theorem Numbered.publish {G : Graphify ν γ τ} {graph : γ} {communityMap : CommunityMap} {s s' : WriterState ν γ τ}
    (h : Numbered s) (hpublish : s.publish G graph communityMap = some s') : Numbered s' := by
  obtain ⟨index, rfl⟩ := publish_eq_some hpublish
  constructor
  · simp [h.versions, h.next, List.range'_concat, Nat.add_comm]
  · simp [h.next]
  · simp

/-- All that a step does to the cache, the snapshot and the stage. -/
structure WriterInvariant (G : Graphify ν γ τ) (s : WriterState ν γ τ) : Prop where
  fresh : StageFresh G s.daemon s.stage
  numbered : Numbered s

/-- A step that leaves cache and snapshot alone. -/
theorem WriterInvariant.frame {G : Graphify ν γ τ} {s s' : WriterState ν γ τ} (h : WriterInvariant G s)
    (hcache : s'.daemon.cache = s.daemon.cache) (hholder : s'.daemon.holder = s.daemon.holder)
    (hpublished : s'.published = s.published) (hstage : StageFresh G s.daemon s.stage → StageFresh G s.daemon s'.stage) :
    WriterInvariant G s' := by
  refine ⟨?_, h.numbered.frame hpublished hholder⟩
  have hfresh := hstage h.fresh
  have hsame : ∀ stage, StageFresh G s.daemon stage → StageFresh G s'.daemon stage := by
    intro stage hold
    unfold StageFresh Fresh at hold ⊢
    rw [hcache, hholder]
    exact hold
  exact hsame _ hfresh

private theorem fresh_publish {G : Graphify ν γ τ} {graph : γ} {communityMap : CommunityMap} {s s' : WriterState ν γ τ}
    (hgraph : buildGraph G s.daemon.cache = .ok graph) (hpublish : s.publish G graph communityMap = some s') :
    Fresh G s'.daemon := by
  obtain ⟨index, rfl⟩ := publish_eq_some hpublish
  exact ⟨_, rfl, hgraph⟩

private theorem stageFresh_afterCycle {G : Graphify ν γ τ} {d : Daemon ν γ τ} (h : Fresh G d)
    (origin : Option IdleTimer) :
    StageFresh G d (some (WriterState.afterCycle origin)) := by
  cases origin with
  | none => exact h
  | some timer => exact h

private theorem stageFresh_afterNoCycle {G : Graphify ν γ τ} {d : Daemon ν γ τ} (h : Fresh G d)
    (origin : Option IdleTimer) :
    StageFresh G d (some (WriterState.afterNoCycle origin)) := by
  cases origin with
  | none => exact h
  | some timer => exact h

private theorem invariant_work [Zero ν] {G : Graphify ν γ τ} {nested : List String} {s s' : WriterState ν γ τ}
    (h : WriterInvariant G s) (hwork : s.work G nested = some s') : WriterInvariant G s' := by
  have hfresh := h.fresh
  cases WriterState.works_of_work hwork with
  | extract hstage hcache => exact ⟨trivial, h.numbered.frame rfl rfl⟩
  | sync hstage hfiles => exact h.frame rfl rfl rfl (fun _ => trivial)
  | build hstage hgraph => exact ⟨hgraph, h.numbered.frame rfl rfl⟩
  | publish hstage hpublish =>
    rw [hstage] at hfresh
    have hnew := fresh_publish hfresh hpublish
    exact ⟨hnew, (h.numbered.publish hpublish).frame rfl rfl⟩
  | skip hstage =>
    rw [hstage] at hfresh
    exact h.frame rfl rfl rfl (fun _ => stageFresh_afterNoCycle hfresh _)
  | capture hstage hcurrent =>
    rw [hstage] at hfresh
    exact h.frame rfl rfl rfl (fun _ => ⟨hcurrent, hfresh⟩)
  | reset hstage =>
    rw [hstage] at hfresh
    exact h.frame rfl rfl rfl (fun _ => stageFresh_afterCycle hfresh _)
  | cancelIdle hstage | scheduleIdle hstage =>
    rw [hstage] at hfresh
    exact h.frame rfl rfl s.cancelIdle_published (fun _ => hfresh)
  | record hstage | trigger hstage | captureNothing hstage | write hstage | save hstage | persist hstage
  | leave hstage =>
    rw [hstage] at hfresh
    exact h.frame rfl rfl rfl (fun _ => hfresh)

/-- What a clustering can do: nothing, or publish once more the graph that is current. -/
theorem clusteringEnds_cases {G : Graphify ν γ τ} {outcome : ClusteringOutcome} {s s' : WriterState ν γ τ}
    (h : s.clusteringEnds G outcome = some s') : ∃ origin captured, s.stage = some (.clustering origin captured) ∧
      ((outcome.result = none ∧ s' = s.goTo (.writing origin)) ∨
        ∃ raw mid, outcome.result = some raw ∧ s' = mid.goTo (.writing origin) ∧
          s.publish G captured.graph
            (G.remapCommunitiesToPrevious raw (buildPreviousNodeCommunity captured.communityMap)) = some mid) := by
  unfold WriterState.clusteringEnds at h
  split at h
  · rename_i origin captured hstage
    refine ⟨origin, captured, hstage, ?_⟩
    split at h
    · rename_i hresult
      cases h
      exact .inl ⟨hresult, rfl⟩
    · rename_i raw hresult
      obtain ⟨mid, hmid, rfl⟩ := Option.map_eq_some_iff.mp h
      exact .inr ⟨raw, mid, hresult, rfl, hmid⟩
  · cases h

private theorem invariant_clusteringEnds {G : Graphify ν γ τ} {outcome : ClusteringOutcome} {s s' : WriterState ν γ τ}
    (h : WriterInvariant G s) (hends : s.clusteringEnds G outcome = some s') : WriterInvariant G s' := by
  obtain ⟨origin, captured, hstage, ⟨-, rfl⟩ | ⟨raw, mid, -, rfl, hmid⟩⟩ := clusteringEnds_cases hends
  · have hfresh := h.fresh
    rw [hstage] at hfresh
    exact h.frame rfl rfl rfl (fun _ => hfresh.2)
  · have hfresh := h.fresh
    rw [hstage] at hfresh
    -- the lock kept every other writer out, so the captured snapshot is still the fresh one
    obtain ⟨hcurrent, snapshot, hsnapshot, hgraph⟩ := hfresh
    rw [hcurrent] at hsnapshot
    cases hsnapshot
    have hnew : Fresh G mid.daemon := fresh_publish hgraph hmid
    exact ⟨hnew, (h.numbered.publish hmid).frame rfl rfl⟩

theorem invariant_step [Zero ν] {G : Graphify ν γ τ} {nested : List String} {e : StageEvent ν} {s s' : WriterState ν γ τ}
    (h : WriterInvariant G s) (hstep : WriterState.step G nested e s = some s') : WriterInvariant G s' := by
  cases e <;> simp only [WriterState.step] at hstep
  case tick elapsed =>
    cases hstep
    exact h.frame rfl rfl rfl id
  case batchTaken changes =>
    cases hstep
    exact h.frame rfl rfl rfl id
  case idleFires timer =>
    split_ifs at hstep
    cases hstep
    exact h.frame rfl rfl rfl id
  case acquire k =>
    obtain ⟨job, hfree, -, rfl⟩ := WriterState.acquire_eq_some hstep
    refine h.frame rfl rfl rfl (fun hfresh => ?_)
    rw [hfree] at hfresh
    cases job with
    | batch changes => exact hfresh
    | idle timer => exact hfresh
    | persist => exact hfresh
  case work => exact invariant_work h hstep
  case clusteringEnds outcome => exact invariant_clusteringEnds h hstep
  case shutdown =>
    split_ifs at hstep
    cases hstep
    exact h.frame rfl rfl rfl id
  case clearTimers =>
    split_ifs at hstep
    cases hstep
    exact h.frame (by rw [WriterState.cancelIdle_daemon]) (by rw [WriterState.cancelIdle_daemon])
      s.cancelIdle_published (by rw [WriterState.cancelIdle_stage]; exact id)
  case persist =>
    split_ifs at hstep
    cases hstep
    exact h.frame rfl rfl rfl id

/-- The first snapshot is the cold start's. -/
theorem invariant_start [DecidableEq ν] {G : Graphify ν γ τ} {nested : List String} {walk : List (WalkEntry ν)}
    {d₀ d : Daemon ν γ τ} (hnew : d₀.holder = .initial) (hstart : d₀.coldStart G nested walk = .done d) (clock : Nat) :
    WriterInvariant G (.start d clock) := by
  obtain ⟨graph, index, hgraph, hholder⟩ := coldStart_published hstart
  rw [hnew] at hholder
  have hfresh : Fresh G d := ⟨⟨graph, index, .empty, 1⟩, by rw [hholder]; rfl, hgraph⟩
  refine ⟨hfresh, ?_, ?_, ?_⟩
  · simp [WriterState.start, hholder, SnapshotHolder.initial]
  · simp [WriterState.start, hholder, SnapshotHolder.initial]
  · simp [WriterState.start, hholder]

/-- Only a batch and a successful clustering publish. -/
theorem step_holder [Zero ν] {G : Graphify ν γ τ} {nested : List String} {e : StageEvent ν} {s s' : WriterState ν γ τ}
    (hstep : WriterState.step G nested e s = some s') :
    s'.daemon.holder = s.daemon.holder ∨
      (e = .work ∧ ∃ batch graph communityMap, s.stage = some (.publishing batch graph communityMap)) ∨
      ∃ outcome raw, e = .clusteringEnds outcome ∧ outcome.result = some raw := by
  cases e <;> simp only [WriterState.step] at hstep
  case work =>
    cases WriterState.works_of_work hstep with
    | publish hstage => exact .inr (.inl ⟨rfl, _, _, _, hstage⟩)
    | _ => exact .inl rfl
  case clusteringEnds outcome =>
    obtain ⟨origin, captured, -, ⟨-, rfl⟩ | ⟨raw, mid, hresult, -, -⟩⟩ := clusteringEnds_cases hstep
    · exact .inl rfl
    · exact .inr (.inr ⟨outcome, raw, rfl, hresult⟩)
  case acquire k =>
    obtain ⟨job, -, -, rfl⟩ := WriterState.acquire_eq_some hstep
    exact .inl rfl
  case clearTimers =>
    split_ifs at hstep
    cases hstep
    exact .inl (by rw [WriterState.cancelIdle_daemon])
  case idleFires | shutdown | persist =>
    split_ifs at hstep
    cases hstep
    exact .inl rfl
  case tick | batchTaken =>
    cases hstep
    exact .inl rfl

/-- Whenever no thread has the coordinator lock the snapshot is fresh, versions count up from
1, and a clustering leaves the graph that is current by then in place. -/
theorem snapshots_stay_fresh [Zero ν] [DecidableEq ν] {G : Graphify ν γ τ} {nested : List String}
    {walk : List (WalkEntry ν)} {d₀ d : Daemon ν γ τ} (hnew : d₀.holder = .initial)
    (hstart : d₀.coldStart G nested walk = .done d) {clock : Nat} {events : List (StageEvent ν)}
    {s : WriterState ν γ τ} (hrun : exec (WriterState.step G nested) events (.start d clock) = some s) :
    (s.stage = none → ∃ snapshot, s.daemon.holder.current = some snapshot ∧
      buildGraph G s.daemon.cache = .ok snapshot.graph) ∧
    s.published.map GraphSnapshot.version = List.range' 1 s.published.length ∧
    s.daemon.holder.current = s.published.getLast? ∧
    (∀ outcome s', WriterState.step G nested (.clusteringEnds outcome) s = some s' →
      s'.daemon.holder.current.map GraphSnapshot.graph = s.daemon.holder.current.map GraphSnapshot.graph) ∧
    ∀ e s', WriterState.step G nested e s = some s' → s'.daemon.holder = s.daemon.holder ∨
      (e = .work ∧ ∃ batch graph communityMap, s.stage = some (.publishing batch graph communityMap)) ∨
      ∃ outcome raw, e = .clusteringEnds outcome ∧ outcome.result = some raw := by
  have h : WriterInvariant G s :=
    exec_invariant_of_step (WriterInvariant G) (fun _ _ _ hs hstep => invariant_step hs hstep)
      (invariant_start hnew hstart clock) hrun
  refine ⟨fun hfree => ?_, h.numbered.versions, h.numbered.current, fun outcome s' hends => ?_,
    fun e s' hstep => step_holder hstep⟩
  · have hfresh := h.fresh
    rw [hfree] at hfresh
    exact hfresh
  · obtain ⟨origin, captured, hstage, ⟨-, rfl⟩ | ⟨raw, mid, -, rfl, hmid⟩⟩ := clusteringEnds_cases hends
    · rfl
    · have hfresh := h.fresh
      rw [hstage] at hfresh
      obtain ⟨index, rfl⟩ := publish_eq_some hmid
      rw [hfresh.1]
      rfl

/-- A note is compiled, and when it has been quiet for long enough its node is clustered. -/
def compiledThenIdle : List (StageEvent Nat) :=
  [.batchTaken [(.created notePath, .calm (oneNode "a") 1)], .acquire 0, .work, .work, .work, .work, .work, .work,
    .work, .work, .tick 60, .idleFires ⟨0, 60⟩, .acquire 0, .work, .work,
    .clusteringEnds (.communities (OrderedDict.empty.set 0 ["a"])), .work, .work, .work, .work]

theorem snapshots_stay_fresh_compiledThenIdle :
    ∃ d s, (Daemon.initial 0).coldStart referenceGraphify [] [] = .done d ∧
      exec (WriterState.step referenceGraphify []) compiledThenIdle (.start d 0) = some s ∧ s.stage.isNone ∧
      s.published.map GraphSnapshot.version = [1, 2, 3] ∧ ∃ snapshot, s.daemon.holder.current = some snapshot ∧
        buildGraph referenceGraphify s.daemon.cache = .ok snapshot.graph :=
  have hstart : (Daemon.initial 0).coldStart referenceGraphify [] [] = .done _ := rfl
  have hrun : exec (WriterState.step referenceGraphify []) compiledThenIdle (.start _ 0) = some _ := rfl
  ⟨_, _, hstart, hrun, rfl, rfl, (snapshots_stay_fresh rfl hstart hrun).1 rfl⟩

end GraphifyDaemon
