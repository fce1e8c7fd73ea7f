import GraphifyDaemon.ArtifactLifecycle.WarmRestart
import GraphifyDaemon.Daemon.FreshSnapshots
import GraphifyDaemon.Vault.Restart

/-! The slow-cadence artifacts on disk, over kills and restarts. The thread that has the
coordinator lock writes them one file operation at a time, and the process may be killed
between any two. -/
namespace GraphifyDaemon
open Library Library.Trace

variable {ν γ τ : Type}

/-- A file of `write_text`: opening it empties it, and it is torn until the text is all there. -/
inductive WrittenText (α : Type) where
  | absent
  | torn
  | whole (source : α)

/-- What each artifact was last written from. -/
structure ArtifactDisk (ν γ τ : Type) where
  graphJson : Option (GraphSnapshot γ τ)
  knowledgeMd : WrittenText (GraphSnapshot γ τ)
  graphCache : SavedCache ν

/-- The file operations of `write_graph_json`, of `write_knowledge_md` and of
`ExtractionCache.save`. Of graphify's `to_json` it is assumed that it replaces the file in one:
`graph.json` is never seen half written. -/
inductive DiskWrite (ν γ τ : Type) where
  | replaceGraphJson (snapshot : GraphSnapshot γ τ)
  | openKnowledgeMd
  | fillKnowledgeMd (snapshot : GraphSnapshot γ τ)
  | openGraphCache
  | fillGraphCache (cache : ExtractionCache ν)

namespace ArtifactDisk

/-- An output directory without artifacts. -/
def empty : ArtifactDisk ν γ τ := ⟨none, .absent, .absent⟩

def write (disk : ArtifactDisk ν γ τ) : DiskWrite ν γ τ → ArtifactDisk ν γ τ
  | .replaceGraphJson snapshot => { disk with graphJson := some snapshot }
  | .openKnowledgeMd => { disk with knowledgeMd := .torn }
  | .fillKnowledgeMd snapshot => { disk with knowledgeMd := .whole snapshot }
  | .openGraphCache => { disk with graphCache := .torn }
  | .fillGraphCache cache => { disk with graphCache := .intact cache }

/-- The three artifacts tell of one moment of the daemon, or there is none of them yet. -/
def Settled (G : Graphify ν γ τ) (disk : ArtifactDisk ν γ τ) : Prop :=
  disk = empty ∨ ∃ snapshot cache, disk = ⟨some snapshot, .whole snapshot, .intact cache⟩ ∧
    buildGraph G cache = .ok snapshot.graph

end ArtifactDisk

/-- `write_graph_json` and `write_knowledge_md`, when there is a snapshot. -/
def snapshotWrites : Option (GraphSnapshot γ τ) → List (DiskWrite ν γ τ)
  | none => []
  | some snapshot => [.replaceGraphJson snapshot, .openKnowledgeMd, .fillKnowledgeMd snapshot]

/-- `ExtractionCache.save` -/
def cacheWrites (cache : ExtractionCache ν) : List (DiskWrite ν γ τ) := [.openGraphCache, .fillGraphCache cache]

/-- What the thread with the lock writes at a stage: in `run_slow_cadence_cycle`, or in
`persist_on_shutdown`. -/
def stageWrites (d : Daemon ν γ τ) : Option (WriterStage ν γ τ) → List (DiskWrite ν γ τ)
  | some (.writing _) => snapshotWrites d.holder.current
  | some (.saving _) => cacheWrites d.cache
  | some .persisting => snapshotWrites d.holder.current ++ cacheWrites d.cache
  | none | some (.extracting _) | some (.syncing _) | some (.building _) | some (.publishing _ _ _)
  | some (.recording _) | some (.deciding _) | some (.capturing _) | some (.clustering _ _) | some (.resetting _)
  | some .cancellingIdle | some .schedulingIdle | some .leaving => []

/-- The thread with the lock is between the first and the last of its writes. -/
def WriterStage.writes : WriterStage ν γ τ → Bool
  | .writing _ | .saving _ | .persisting => true
  | .extracting _ | .syncing _ | .building _ | .publishing _ _ _ | .recording _ | .deciding _ | .capturing _
  | .clustering _ _ | .resetting _ | .cancellingIdle | .schedulingIdle | .leaving => false

def WriterState.writes (s : WriterState ν γ τ) : Bool := (s.stage.map WriterStage.writes).getD false

/-- The last stage of a sequence of writes. -/
def WriterState.endsWrites (s : WriterState ν γ τ) : Bool :=
  match s.stage with
  | some (.saving _) | some .persisting => true
  | _ => false

/-- The thread with the lock goes on to another stage, or one gets the lock. -/
def StageEvent.advances : StageEvent ν → Bool
  | .work | .clusteringEnds _ | .acquire _ => true
  | .tick _ | .batchTaken _ | .idleFires _ | .shutdown | .clearTimers | .persist => false

/-- A daemon process, with the writes that remain of its stage. -/
structure Process (ν γ τ : Type) where
  writer : WriterState ν γ τ
  todo : List (DiskWrite ν γ τ)

/-- The process that runs, if one does, the disk, the snapshots that ended processes published,
and whether a kill cut a sequence of writes short that none has made good since. -/
structure Lifespans (ν γ τ : Type) where
  process : Option (Process ν γ τ)
  disk : ArtifactDisk ν γ τ
  past : List (GraphSnapshot γ τ)
  cutShort : Bool

inductive ProcessEvent (ν : Type) where
  | thread (e : StageEvent ν)
  | write
  | kill
  | start (startedAt clock : Nat) (walk : List (WalkEntry ν))

namespace Lifespans

def initial : Lifespans ν γ τ := ⟨none, .empty, [], false⟩

/-- All snapshots that were ever published. -/
def published (s : Lifespans ν γ τ) : List (GraphSnapshot γ τ) :=
  s.past ++ (s.process.map fun p => p.writer.published).getD []

/-- The running process is in the middle of a sequence of writes. -/
def writing (s : Lifespans ν γ τ) : Bool := (s.process.map fun p => p.writer.writes).getD false

section Steps
variable [Zero ν] (G : Graphify ν γ τ) (nested : List String)

/-- A thread takes a step. The one with the lock goes on when its stage is written. -/
def thread (e : StageEvent ν) (p : Process ν γ τ) (s : Lifespans ν γ τ) : Option (Lifespans ν γ τ) :=
  if e.advances then
    if p.todo.isEmpty then
      (WriterState.step G nested e p.writer).map fun w =>
        { s with process := some ⟨w, stageWrites w.daemon w.stage⟩, cutShort := s.cutShort && !p.writer.endsWrites }
    else none
  else (WriterState.step G nested e p.writer).map fun w => { s with process := some ⟨w, p.todo⟩ }

def kill (p : Process ν γ τ) (s : Lifespans ν γ τ) : Lifespans ν γ τ :=
  { s with process := none, past := s.past ++ p.writer.published, cutShort := s.cutShort || p.writer.writes }

/-- A new process over what is on disk. One whose cold start raises ends with that. -/
def start [DecidableEq ν] (startedAt clock : Nat) (walk : List (WalkEntry ν)) (s : Lifespans ν γ τ) : Lifespans ν γ τ :=
  match (Daemon.restarted startedAt s.disk.graphCache).coldStart G nested walk with
  | .raised _ _ => s
  | .done d => { s with process := some ⟨.start d clock, []⟩ }

def step [DecidableEq ν] : ProcessEvent ν → Lifespans ν γ τ → Option (Lifespans ν γ τ)
  | .thread e, s => s.process.bind fun p => s.thread G nested e p
  | .write, s => match s.process with
    | some ⟨w, op :: todo⟩ => some { s with process := some ⟨w, todo⟩, disk := s.disk.write op }
    | _ => none
  | .kill, s => s.process.map fun p => s.kill p
  | .start startedAt clock walk, s => match s.process with
    | none => some (s.start G nested startedAt clock walk)
    | some _ => none

end Steps
end Lifespans

/-- The write is one of the cache's file, and not of the two that are made from the snapshot. -/
def DiskWrite.ofCache : DiskWrite ν γ τ → Bool
  | .openGraphCache | .fillGraphCache _ => true
  | .replaceGraphJson _ | .openKnowledgeMd | .fillKnowledgeMd _ => false

section Writes
variable {writes : List (DiskWrite ν γ τ)}

private theorem graphCache_foldl (h : ∀ op ∈ writes, op.ofCache = false) (disk : ArtifactDisk ν γ τ) :
    (writes.foldl ArtifactDisk.write disk).graphCache = disk.graphCache := by
  induction writes generalizing disk with
  | nil => rfl
  | cons op rest ih =>
    rw [List.foldl_cons, ih (fun op' hop' => h op' (List.mem_cons_of_mem _ hop'))]
    have hop := h op List.mem_cons_self
    cases op with
    | openGraphCache | fillGraphCache => cases hop
    | replaceGraphJson | openKnowledgeMd | fillKnowledgeMd => rfl

private theorem snapshotFiles_foldl (h : ∀ op ∈ writes, op.ofCache = true) (disk : ArtifactDisk ν γ τ) :
    (writes.foldl ArtifactDisk.write disk).graphJson = disk.graphJson ∧
      (writes.foldl ArtifactDisk.write disk).knowledgeMd = disk.knowledgeMd := by
  induction writes generalizing disk with
  | nil => exact ⟨rfl, rfl⟩
  | cons op rest ih =>
    obtain ⟨hgraph, hknowledge⟩ := ih (fun op' hop' => h op' (List.mem_cons_of_mem _ hop')) (disk.write op)
    rw [List.foldl_cons, hgraph, hknowledge]
    have hop := h op List.mem_cons_self
    cases op with
    | openGraphCache | fillGraphCache => exact ⟨rfl, rfl⟩
    | replaceGraphJson | openKnowledgeMd | fillKnowledgeMd => cases hop

private theorem ofCache_snapshotWrites {current : Option (GraphSnapshot γ τ)} {op : DiskWrite ν γ τ}
    (h : op ∈ snapshotWrites current) : op.ofCache = false := by
  cases current with
  | none => cases h
  | some snapshot =>
    simp only [snapshotWrites, List.mem_cons, List.not_mem_nil, or_false] at h
    rcases h with rfl | rfl | rfl <;> rfl

private theorem ofCache_cacheWrites {cache : ExtractionCache ν} {op : DiskWrite ν γ τ} (h : op ∈ cacheWrites cache) :
    op.ofCache = true := by
  simp only [cacheWrites, List.mem_cons, List.not_mem_nil, or_false] at h
  rcases h with rfl | rfl <;> rfl

/-- All that a shutdown writes. -/
theorem foldl_persistWrites (snapshot : GraphSnapshot γ τ) (cache : ExtractionCache ν) (disk : ArtifactDisk ν γ τ) :
    (snapshotWrites (some snapshot) ++ cacheWrites cache).foldl ArtifactDisk.write disk =
      ⟨some snapshot, .whole snapshot, .intact cache⟩ := rfl

/-- `KNOWLEDGE.md` is whole before the cache's file is opened. -/
theorem knowledge_whole_of_torn {snapshot : GraphSnapshot γ τ} {cache : ExtractionCache ν}
    {done todo : List (DiskWrite ν γ τ)} (h : snapshotWrites (some snapshot) ++ cacheWrites cache = done ++ todo)
    {disk : ArtifactDisk ν γ τ} (hwhole : disk.graphCache ≠ .torn)
    (htorn : (done.foldl ArtifactDisk.write disk).graphCache = .torn) :
    (done.foldl ArtifactDisk.write disk).knowledgeMd = .whole snapshot := by
  rcases List.append_eq_append_iff.mp h with ⟨more, rfl, hmore⟩ | ⟨more, hfirst, -⟩
  · have hcache : ∀ op ∈ more, op.ofCache = true := by
      intro op hop
      exact ofCache_cacheWrites (hmore ▸ List.mem_append_left _ hop)
    rw [List.foldl_append, (snapshotFiles_foldl hcache _).2]
    rfl
  · have hnone : ∀ op ∈ done, op.ofCache = false := by
      intro op hop
      exact ofCache_snapshotWrites (hfirst ▸ List.mem_append_left _ hop)
    rw [graphCache_foldl hnone] at htorn
    exact absurd htorn hwhole

end Writes

/-- What the disk told when the thread with the lock came to its stage. Before the cache is saved
the other two files have just been written. -/
def StageSettled (G : Graphify ν γ τ) (cutShort : Bool) (d : Daemon ν γ τ) (disk : ArtifactDisk ν γ τ) :
    Option (WriterStage ν γ τ) → Prop
  | some (.saving _) => ∃ snapshot, d.holder.current = some snapshot ∧ disk.graphJson = some snapshot ∧
      disk.knowledgeMd = .whole snapshot
  | none | some (.extracting _) | some (.syncing _) | some (.building _) | some (.publishing _ _ _)
  | some (.recording _) | some (.deciding _) | some (.capturing _) | some (.clustering _ _) | some (.writing _)
  | some (.resetting _) | some .cancellingIdle | some .schedulingIdle | some .persisting | some .leaving =>
    cutShort = false → disk.Settled G

/-- Of the writes of its stage a process has made the first few. -/
def Process.Tells (G : Graphify ν γ τ) (cutShort : Bool) (disk : ArtifactDisk ν γ τ) (p : Process ν γ τ) : Prop :=
  ∃ before done, stageWrites p.writer.daemon p.writer.stage = done ++ p.todo ∧
    done.foldl ArtifactDisk.write before = disk ∧ before.graphCache ≠ .torn ∧
    StageSettled G cutShort p.writer.daemon before p.writer.stage

section Tells
variable {G : Graphify ν γ τ} {cutShort : Bool} {disk : ArtifactDisk ν γ τ} {p : Process ν γ τ}

/-- While nothing is written the disk is as it was. -/
theorem Process.Tells.calm (h : p.Tells G cutShort disk) (hcalm : p.writer.writes = false) :
    disk.graphCache ≠ .torn ∧ (cutShort = false → disk.Settled G) := by
  obtain ⟨before, done, hwrites, rfl, hwhole, hsettled⟩ := h
  obtain ⟨w, todo⟩ := p
  dsimp only at hwrites hsettled hcalm
  have hnothing : stageWrites w.daemon w.stage = [] ∧ (cutShort = false → before.Settled G) := by
    unfold WriterState.writes at hcalm
    cases hstage : w.stage with
    | none =>
      rw [hstage] at hsettled
      exact ⟨rfl, hsettled⟩
    | some stage =>
      rw [hstage] at hsettled hcalm
      cases stage with
      | writing | saving | persisting => cases hcalm
      | _ => exact ⟨rfl, hsettled⟩
  rw [hnothing.1] at hwrites
  obtain ⟨rfl, -⟩ := List.append_eq_nil_iff.mp hwrites.symm
  exact ⟨hwhole, hnothing.2⟩

/-- A stage but the save begins on a disk that is settled. -/
theorem tells_of_settled {w : WriterState ν γ τ} (hwhole : disk.graphCache ≠ .torn)
    (hsettled : cutShort = false → disk.Settled G) (hstage : ∀ origin, w.stage ≠ some (.saving origin)) :
    Process.Tells G cutShort disk ⟨w, stageWrites w.daemon w.stage⟩ := by
  refine ⟨disk, [], rfl, rfl, hwhole, ?_⟩
  dsimp only
  cases h : w.stage with
  | none => exact hsettled
  | some stage =>
    cases stage with
    | saving origin => exact absurd h (hstage origin)
    | _ => exact hsettled

private theorem tells_of_persisting {snapshot : GraphSnapshot γ τ} (h : p.Tells G cutShort disk)
    (hstage : p.writer.stage = some .persisting) (hcurrent : p.writer.daemon.holder.current = some snapshot) :
    (p.todo = [] → disk = ⟨some snapshot, .whole snapshot, .intact p.writer.daemon.cache⟩) ∧
      (disk.graphCache = .torn → disk.knowledgeMd = .whole snapshot) := by
  obtain ⟨before, done, hwrites, rfl, hwhole, -⟩ := h
  rw [hstage, stageWrites, hcurrent] at hwrites
  refine ⟨fun htodo => ?_, knowledge_whole_of_torn hwrites hwhole⟩
  rw [htodo, List.append_nil] at hwrites
  rw [← hwrites, foldl_persistWrites]

private theorem tells_of_writing {snapshot : GraphSnapshot γ τ} {origin : Option IdleTimer}
    (h : p.Tells G cutShort disk)
    (hstage : p.writer.stage = some (.writing origin)) (hcurrent : p.writer.daemon.holder.current = some snapshot) :
    disk.graphCache ≠ .torn ∧
      (p.todo = [] → disk.graphJson = some snapshot ∧ disk.knowledgeMd = .whole snapshot) := by
  obtain ⟨before, done, hwrites, rfl, hwhole, -⟩ := h
  rw [hstage, stageWrites, hcurrent] at hwrites
  have hnone : ∀ op ∈ done, op.ofCache = false := by
    intro op hop
    exact ofCache_snapshotWrites (hwrites ▸ List.mem_append_left _ hop)
  refine ⟨by rw [graphCache_foldl hnone]; exact hwhole, fun htodo => ?_⟩
  rw [htodo, List.append_nil] at hwrites
  rw [← hwrites]
  exact ⟨rfl, rfl⟩

private theorem tells_of_saving {origin : Option IdleTimer} (h : p.Tells G cutShort disk)
    (hstage : p.writer.stage = some (.saving origin)) :
    ∃ snapshot, p.writer.daemon.holder.current = some snapshot ∧ disk.knowledgeMd = .whole snapshot ∧
      (p.todo = [] → disk = ⟨some snapshot, .whole snapshot, .intact p.writer.daemon.cache⟩) := by
  obtain ⟨before, done, hwrites, rfl, -, hsettled⟩ := h
  rw [hstage] at hsettled hwrites
  rw [stageWrites] at hwrites
  obtain ⟨snapshot, hcurrent, hgraph, hknowledge⟩ := hsettled
  have hcache : ∀ op ∈ done, op.ofCache = true := by
    intro op hop
    exact ofCache_cacheWrites (hwrites ▸ List.mem_append_left _ hop)
  refine ⟨snapshot, hcurrent, by rw [(snapshotFiles_foldl hcache before).2, hknowledge], fun htodo => ?_⟩
  rw [htodo, List.append_nil] at hwrites
  rw [← hwrites, ← hgraph, ← hknowledge]
  rfl

end Tells

section Advance
variable [Zero ν] {G : Graphify ν γ τ} {nested : List String} {cutShort : Bool} {disk : ArtifactDisk ν γ τ}
  {w w' : WriterState ν γ τ}

omit [Zero ν] in
/-- From a stage that writes nothing to one that is not the save. -/
theorem tells_calm_advance (h : Process.Tells G cutShort disk ⟨w, []⟩) (hcalm : w.writes = false)
    (hstage : ∀ origin, w'.stage ≠ some (.saving origin)) :
    Process.Tells G (cutShort && !w.endsWrites) disk ⟨w', stageWrites w'.daemon w'.stage⟩ := by
  obtain ⟨hwhole, hsettled⟩ := h.calm hcalm
  have hgoes : w.endsWrites = false := by
    unfold WriterState.writes at hcalm
    unfold WriterState.endsWrites
    cases hw : w.stage with
    | none => rfl
    | some stage =>
      rw [hw] at hcalm
      cases stage with
      | saving | persisting => cases hcalm
      | _ => rfl
  rw [hgoes, Bool.not_false, Bool.and_true]
  exact tells_of_settled hwhole hsettled hstage

private theorem tells_work (hinvariant : WriterInvariant G w) (h : Process.Tells G cutShort disk ⟨w, []⟩)
    (hwork : w.work G nested = some w') :
    Process.Tells G (cutShort && !w.endsWrites) disk ⟨w', stageWrites w'.daemon w'.stage⟩ := by
  have hfresh := hinvariant.fresh
  cases WriterState.works_of_work hwork with
  | write hstage =>
    rw [hstage] at hfresh
    obtain ⟨snapshot, hcurrent, -⟩ := hfresh
    obtain ⟨hwhole, hwritten⟩ := tells_of_writing h hstage hcurrent
    obtain ⟨hgraph, hknowledge⟩ := hwritten rfl
    exact ⟨disk, [], rfl, rfl, hwhole, snapshot, hcurrent, hgraph, hknowledge⟩
  | save hstage =>
    rw [hstage] at hfresh
    obtain ⟨snapshot, hcurrent, -, hwritten⟩ := tells_of_saving h hstage
    obtain ⟨fresh, hsame, hgraph⟩ := hfresh
    -- the lock kept snapshot and cache as they were when the cycle began to write
    obtain rfl : snapshot = fresh := Option.some.inj (hcurrent.symm.trans hsame)
    refine tells_of_settled ?_ (fun _ => .inr ⟨snapshot, _, hwritten rfl, hgraph⟩) (by simp [WriterState.goTo])
    rw [hwritten rfl]
    simp
  | persist hstage =>
    rw [hstage] at hfresh
    obtain ⟨snapshot, hcurrent, hgraph⟩ := hfresh
    have hwritten := (tells_of_persisting h hstage hcurrent).1 rfl
    refine tells_of_settled ?_ (fun _ => .inr ⟨snapshot, _, hwritten, hgraph⟩) (by simp [WriterState.goTo])
    rw [hwritten]
    simp
  | @skip origin hstage =>
    refine tells_calm_advance h (by simp [WriterState.writes, hstage, WriterStage.writes]) ?_
    cases origin <;> simp [WriterState.goTo, WriterState.afterNoCycle]
  | @reset origin hstage =>
    refine tells_calm_advance h (by simp [WriterState.writes, hstage, WriterStage.writes]) ?_
    cases origin <;> simp [WriterState.goTo, WriterState.afterCycle]
  | extract hstage | sync hstage | build hstage | publish hstage | record hstage | trigger hstage
  | captureNothing hstage | capture hstage | cancelIdle hstage | scheduleIdle hstage | leave hstage =>
    exact tells_calm_advance h (by simp [WriterState.writes, hstage, WriterStage.writes]) (by simp [WriterState.goTo])

private theorem tells_advance {e : StageEvent ν} (hinvariant : WriterInvariant G w)
    (h : Process.Tells G cutShort disk ⟨w, []⟩) (he : e.advances = true)
    (hstep : WriterState.step G nested e w = some w') :
    Process.Tells G (cutShort && !w.endsWrites) disk ⟨w', stageWrites w'.daemon w'.stage⟩ := by
  cases e <;> simp only [WriterState.step] at hstep
  case work => exact tells_work hinvariant h hstep
  case acquire k =>
    obtain ⟨job, hfree, -, rfl⟩ := WriterState.acquire_eq_some hstep
    refine tells_calm_advance h (by simp [WriterState.writes, hfree]) ?_
    cases job <;> simp [WriterState.goTo, WriterState.firstStage]
  case clusteringEnds outcome =>
    obtain ⟨origin, captured, hstage, ⟨-, rfl⟩ | ⟨raw, mid, -, rfl, -⟩⟩ := clusteringEnds_cases hstep
    · exact tells_calm_advance h (by simp [WriterState.writes, hstage, WriterStage.writes]) (by simp [WriterState.goTo])
    · exact tells_calm_advance h (by simp [WriterState.writes, hstage, WriterStage.writes]) (by simp [WriterState.goTo])
  all_goals cases he

/-- Every other step leaves stage and daemon alone. -/
theorem step_aside {e : StageEvent ν} (he : e.advances = false) (hstep : WriterState.step G nested e w = some w') :
    w'.stage = w.stage ∧ w'.daemon = w.daemon ∧ w'.published = w.published := by
  cases e <;> simp only [WriterState.step] at hstep
  case work | acquire | clusteringEnds => cases he
  case tick | batchTaken =>
    cases hstep
    exact ⟨rfl, rfl, rfl⟩
  case idleFires | shutdown | persist =>
    split_ifs at hstep
    cases hstep
    exact ⟨rfl, rfl, rfl⟩
  case clearTimers =>
    split_ifs at hstep
    cases hstep
    exact ⟨w.cancelIdle_stage, w.cancelIdle_daemon, w.cancelIdle_published⟩

/-- A snapshot that is published has the index of its graph. -/
def CarriesIndex (G : Graphify ν γ τ) (snapshot : GraphSnapshot γ τ) : Prop :=
  G.getTrigramIndex snapshot.graph = .ok snapshot.trigramIndex

omit [Zero ν] in
private theorem indexed_of_publish {graph : γ} {communityMap : CommunityMap}
    (h : w.publish G graph communityMap = some w') :
    ∃ snapshot, CarriesIndex G snapshot ∧ w'.published = w.published ++ [snapshot] := by
  unfold WriterState.publish at h
  cases hp : w.daemon.holder.publish G graph communityMap with
  | raised e holder => simp [hp] at h
  | done holder =>
    obtain ⟨index, hindex, rfl⟩ := publish_eq_done.mp hp
    simp only [hp, Option.some.injEq] at h
    exact ⟨⟨graph, index, communityMap, w.daemon.holder.nextVersion⟩, hindex, by rw [← h]; rfl⟩

/-- A step publishes nothing, or one snapshot with its index. -/
theorem published_step {e : StageEvent ν} (hstep : WriterState.step G nested e w = some w') :
    w'.published = w.published ∨ ∃ snapshot, CarriesIndex G snapshot ∧ w'.published = w.published ++ [snapshot] := by
  cases he : e.advances with
  | false => exact .inl (step_aside he hstep).2.2
  | true =>
    cases e <;> simp only [WriterState.step] at hstep
    case work =>
      cases WriterState.works_of_work hstep with
      | publish _ hpublish =>
        obtain ⟨snapshot, hindexed, hmore⟩ := indexed_of_publish hpublish
        exact .inr ⟨snapshot, hindexed, hmore⟩
      | cancelIdle | scheduleIdle => exact .inl w.cancelIdle_published
      | _ => exact .inl rfl
    case acquire k =>
      obtain ⟨job, -, -, rfl⟩ := WriterState.acquire_eq_some hstep
      exact .inl rfl
    case clusteringEnds outcome =>
      obtain ⟨origin, captured, -, ⟨-, rfl⟩ | ⟨raw, mid, -, rfl, hmid⟩⟩ := clusteringEnds_cases hstep
      · exact .inl rfl
      · obtain ⟨snapshot, hindexed, hmore⟩ := indexed_of_publish hmid
        exact .inr ⟨snapshot, hindexed, hmore⟩
    all_goals cases he

end Advance

/-- The snapshot that a write is made from. -/
def DiskWrite.source : DiskWrite ν γ τ → Option (GraphSnapshot γ τ)
  | .replaceGraphJson snapshot | .fillKnowledgeMd snapshot => some snapshot
  | .openKnowledgeMd | .openGraphCache | .fillGraphCache _ => none

/-- What is on disk was made from snapshots that were published. -/
structure Sourced (published : List (GraphSnapshot γ τ)) (disk : ArtifactDisk ν γ τ) : Prop where
  graphJson : ∀ snapshot, disk.graphJson = some snapshot → snapshot ∈ published
  knowledgeMd : ∀ snapshot, disk.knowledgeMd = .whole snapshot → snapshot ∈ published

theorem Sourced.mono {published more : List (GraphSnapshot γ τ)} {disk : ArtifactDisk ν γ τ}
    (h : Sourced published disk) (hmore : published ⊆ more) : Sourced more disk :=
  ⟨fun snapshot hs => hmore (h.graphJson snapshot hs), fun snapshot hs => hmore (h.knowledgeMd snapshot hs)⟩

theorem Sourced.write {published : List (GraphSnapshot γ τ)} {disk : ArtifactDisk ν γ τ} (h : Sourced published disk)
    {op : DiskWrite ν γ τ} (hop : ∀ snapshot, op.source = some snapshot → snapshot ∈ published) :
    Sourced published (disk.write op) := by
  obtain ⟨hgraph, hknowledge⟩ := h
  cases op with
  | replaceGraphJson snapshot =>
    refine ⟨fun other hother => ?_, hknowledge⟩
    cases hother
    exact hop snapshot rfl
  | fillKnowledgeMd snapshot =>
    refine ⟨hgraph, fun other hother => ?_⟩
    cases hother
    exact hop snapshot rfl
  | openKnowledgeMd => exact ⟨hgraph, fun _ hother => by cases hother⟩
  | openGraphCache | fillGraphCache => exact ⟨hgraph, hknowledge⟩

/-- Only the current snapshot is written. -/
theorem source_of_stageWrites {d : Daemon ν γ τ} {stage : Option (WriterStage ν γ τ)} {op : DiskWrite ν γ τ}
    (h : op ∈ stageWrites d stage) {snapshot : GraphSnapshot γ τ} (hsource : op.source = some snapshot) :
    d.holder.current = some snapshot := by
  have hsnapshot : ∀ current, op ∈ snapshotWrites current → current = some snapshot := by
    intro current hop
    cases current with
    | none => cases hop
    | some written =>
      simp only [snapshotWrites, List.mem_cons, List.not_mem_nil, or_false] at hop
      rcases hop with rfl | rfl | rfl
      · exact hsource
      · cases hsource
      · exact hsource
  have hcache : ∀ cache, op ∉ cacheWrites cache := by
    intro cache hop
    simp only [cacheWrites, List.mem_cons, List.not_mem_nil, or_false] at hop
    rcases hop with rfl | rfl <;> cases hsource
  cases stage with
  | none => cases h
  | some stage =>
    cases stage with
    | writing => exact hsnapshot _ h
    | saving => exact absurd h (hcache _)
    | persisting =>
      rcases List.mem_append.mp h with hop | hop
      · exact hsnapshot _ hop
      · exact absurd hop (hcache _)
    | _ => cases h

structure LifespansInvariant (G : Graphify ν γ τ) (s : Lifespans ν γ τ) : Prop where
  running : ∀ p, s.process = some p → WriterInvariant G p.writer ∧ p.Tells G s.cutShort s.disk
  ended : s.process = none →
    (s.cutShort = false → s.disk.Settled G) ∧ (s.disk.graphCache = .torn → ∃ snapshot, s.disk.knowledgeMd = .whole snapshot)
  sourced : Sourced s.published s.disk
  indexed : ∀ snapshot ∈ s.published, CarriesIndex G snapshot

/-- The first snapshot comes with its index, too. -/
theorem indexed_of_coldStart [DecidableEq ν] {G : Graphify ν γ τ} {nested : List String} {walk : List (WalkEntry ν)}
    {d d' : Daemon ν γ τ} (h : d.coldStart G nested walk = .done d') {snapshot : GraphSnapshot γ τ}
    (hcurrent : d'.holder.current = some snapshot) : CarriesIndex G snapshot := by
  have hrun : ∀ start : Daemon ν γ τ, runColdStart G nested walk start = .done d' → CarriesIndex G snapshot := by
    intro start hstart
    unfold runColdStart at hstart
    split at hstart
    · cases hstart
    · dsimp only at hstart
      split at hstart
      · cases hstart
      · rename_i graph _
        cases hp : start.holder.publish G graph .empty with
        | raised e holder => simp [hp] at hstart
        | done holder =>
          obtain ⟨index, hindex, rfl⟩ := publish_eq_done.mp hp
          simp only [hp, Outcome.within_done, Outcome.done.injEq] at hstart
          subst hstart
          cases hcurrent
          exact hindex
  unfold Daemon.coldStart at h
  split at h
  · exact hrun _ h
  · exact hrun _ h
  · cases h

namespace LifespansInvariant
variable {G : Graphify ν γ τ} {s : Lifespans ν γ τ}

theorem initial : LifespansInvariant G (.initial : Lifespans ν γ τ) where
  indexed _ h := by cases h
  running p hp := by cases hp
  ended _ := ⟨fun _ => .inl rfl, fun htorn => by cases htorn⟩
  sourced := ⟨fun _ h => (by cases h), fun _ h => (by cases h)⟩

/-- At no moment is the cache's file torn and `KNOWLEDGE.md` not whole. -/
theorem whole_of_torn (h : LifespansInvariant G s) (htorn : s.disk.graphCache = .torn) :
    ∃ snapshot, s.disk.knowledgeMd = .whole snapshot := by
  cases hp : s.process with
  | none => exact (h.ended hp).2 htorn
  | some p =>
    obtain ⟨⟨hfresh, -⟩, htells⟩ := h.running p hp
    cases hw : p.writer.writes with
    | false => exact absurd htorn (htells.calm hw).1
    | true =>
      unfold WriterState.writes at hw
      cases hstage : p.writer.stage with
      | none =>
        rw [hstage] at hw
        cases hw
      | some stage =>
        rw [hstage] at hw hfresh
        cases stage with
        | writing origin =>
          obtain ⟨snapshot, hcurrent, -⟩ := hfresh
          exact absurd htorn (tells_of_writing htells hstage hcurrent).1
        | saving origin =>
          obtain ⟨snapshot, -, hknowledge, -⟩ := tells_of_saving htells hstage
          exact ⟨snapshot, hknowledge⟩
        | persisting =>
          obtain ⟨snapshot, hcurrent, -⟩ := hfresh
          exact ⟨snapshot, (tells_of_persisting htells hstage hcurrent).2 htorn⟩
        | _ => cases hw

theorem thread [Zero ν] {nested : List String} (h : LifespansInvariant G s) {e : StageEvent ν} {p : Process ν γ τ}
    (hp : s.process = some p) {s' : Lifespans ν γ τ} (hstep : s.thread G nested e p = some s') :
    LifespansInvariant G s' := by
  obtain ⟨hinvariant, htells⟩ := h.running p hp
  obtain ⟨writer, todo⟩ := p
  have hsourced := h.sourced
  have hindexed := h.indexed
  rw [Lifespans.published, hp] at hsourced hindexed
  have hmore : ∀ w', WriterState.step G nested e writer = some w' →
      Sourced (s.past ++ w'.published) s.disk ∧ ∀ snapshot ∈ s.past ++ w'.published, CarriesIndex G snapshot := by
    intro w' hw
    rcases published_step hw with hsame | ⟨new, hnew, hgrown⟩
    · rw [hsame]
      exact ⟨hsourced, hindexed⟩
    · rw [hgrown, ← List.append_assoc]
      refine ⟨hsourced.mono (List.subset_append_left _ _), fun snapshot hs => ?_⟩
      rcases List.mem_append.mp hs with hold | hlast
      · exact hindexed snapshot hold
      · exact List.mem_singleton.mp hlast ▸ hnew
  unfold Lifespans.thread at hstep
  split_ifs at hstep with he htodo
  · obtain ⟨w', hw, rfl⟩ := Option.map_eq_some_iff.mp hstep
    obtain rfl : todo = [] := List.isEmpty_iff.mp htodo
    refine ⟨fun q hq => ?_, (fun hnone => by cases hnone), (hmore w' hw).1, (hmore w' hw).2⟩
    cases hq
    exact ⟨invariant_step hinvariant hw, tells_advance hinvariant htells he hw⟩
  · obtain ⟨w', hw, rfl⟩ := Option.map_eq_some_iff.mp hstep
    obtain ⟨hstage, hdaemon, -⟩ := step_aside (by simpa using he) hw
    refine ⟨fun q hq => ?_, (fun hnone => by cases hnone), (hmore w' hw).1, (hmore w' hw).2⟩
    cases hq
    refine ⟨invariant_step hinvariant hw, ?_⟩
    unfold Process.Tells at htells ⊢
    rw [hstage, hdaemon]
    exact htells

theorem write (h : LifespansInvariant G s) {w : WriterState ν γ τ} {op : DiskWrite ν γ τ}
    {todo : List (DiskWrite ν γ τ)} (hp : s.process = some ⟨w, op :: todo⟩) :
    LifespansInvariant G { s with process := some ⟨w, todo⟩, disk := s.disk.write op } := by
  obtain ⟨hinvariant, before, done, hwrites, hdone, hwhole, hsettled⟩ := h.running _ hp
  have hindexed := h.indexed
  rw [Lifespans.published, hp] at hindexed
  refine ⟨fun q hq => ?_, (fun hnone => by cases hnone), ?_, hindexed⟩
  · cases hq
    refine ⟨hinvariant, before, done ++ [op], by rw [hwrites, List.append_assoc]; rfl, ?_, hwhole, hsettled⟩
    rw [List.foldl_append, hdone]
    rfl
  · have hsourced := h.sourced
    rw [Lifespans.published, hp] at hsourced
    refine hsourced.write fun snapshot hsource => ?_
    have hcurrent := source_of_stageWrites (hwrites ▸ List.mem_append_right _ List.mem_cons_self) hsource
    rw [hinvariant.numbered.current] at hcurrent
    exact List.mem_append_right _ (List.mem_of_getLast? hcurrent)

theorem kill (h : LifespansInvariant G s) {p : Process ν γ τ} (hp : s.process = some p) :
    LifespansInvariant G (s.kill p) := by
  have hsame : (s.kill p).published = s.published := by
    simp [Lifespans.kill, Lifespans.published, hp]
  refine ⟨fun q hq => (by cases hq), fun _ => ⟨fun hcut => ?_, h.whole_of_torn⟩, ?_, ?_⟩
  · obtain ⟨hcut, hwrites⟩ := Bool.or_eq_false_iff.mp hcut
    exact ((h.running p hp).2.calm hwrites).2 hcut
  · rw [hsame]
    exact h.sourced
  · rw [hsame]
    exact h.indexed

/-- A process that gets through its cold start found the cache's file absent or whole. -/
theorem start [Zero ν] [DecidableEq ν] {nested : List String} (h : LifespansInvariant G s) (hnone : s.process = none)
    (startedAt clock : Nat) (walk : List (WalkEntry ν)) :
    LifespansInvariant G (s.start G nested startedAt clock walk) := by
  unfold Lifespans.start
  cases hcold : (Daemon.restarted startedAt s.disk.graphCache).coldStart G nested walk with
  | raised e d => exact h
  | done d =>
    have hwhole : s.disk.graphCache ≠ .torn := by
      intro htorn
      rw [htorn] at hcold
      cases hcold
    have hpast : s.published = s.past := by
      simp [Lifespans.published, hnone]
    refine ⟨fun q hq => ?_, (fun hnone => by cases hnone), ?_, fun snapshot hs => ?_⟩
    · cases hq
      refine ⟨invariant_start rfl hcold clock, s.disk, [], rfl, rfl, hwhole, ?_⟩
      exact (h.ended hnone).1
    · refine h.sourced.mono ?_
      rw [hpast]
      exact List.subset_append_left _ _
    · rcases List.mem_append.mp hs with hold | hnew
      · exact h.indexed snapshot (hpast ▸ hold)
      · exact indexed_of_coldStart hcold (by simpa [WriterState.start] using hnew)

theorem step [Zero ν] [DecidableEq ν] {nested : List String} (h : LifespansInvariant G s) {e : ProcessEvent ν}
    {s' : Lifespans ν γ τ} (hstep : Lifespans.step G nested e s = some s') : LifespansInvariant G s' := by
  cases e with
  | thread e =>
    obtain ⟨p, hp, hthread⟩ := Option.bind_eq_some_iff.mp hstep
    exact h.thread hp hthread
  | write =>
    simp only [Lifespans.step] at hstep
    split at hstep <;> cases hstep
    case h_1 hp => exact h.write hp
  | kill =>
    obtain ⟨p, hp, rfl⟩ := Option.map_eq_some_iff.mp hstep
    exact h.kill hp
  | start startedAt clock walk =>
    simp only [Lifespans.step] at hstep
    split at hstep <;> cases hstep
    case h_1 hnone => exact h.start hnone startedAt clock walk

end LifespansInvariant

section Runs
variable [Zero ν] [DecidableEq ν] {G : Graphify ν γ τ} {nested : List String} {events : List (ProcessEvent ν)}
  {s : Lifespans ν γ τ}

private theorem lifetimesInvariant_run (hrun : exec (Lifespans.step G nested) events .initial = some s) :
    LifespansInvariant G s :=
  exec_invariant_of_step (LifespansInvariant G) (fun _ _ _ hs hstep => hs.step hstep) .initial hrun

/-- Whatever batches, cycles, idle callbacks, shutdowns, kills and restarts there were: when no
write is under way and the last one was not cut short, the three artifacts tell of one moment,
and `graph.json` has the graph of the cache that was saved with it. -/
theorem artifacts_settled (hrun : exec (Lifespans.step G nested) events .initial = some s) (hwriting : s.writing = false)
    (hcut : s.cutShort = false) : s.disk.Settled G := by
  have h := lifetimesInvariant_run hrun
  cases hp : s.process with
  | none => exact (h.ended hp).1 hcut
  | some p =>
    have hcalm : p.writer.writes = false := by simpa [Lifespans.writing, hp] using hwriting
    exact ((h.running p hp).2.calm hcalm).2 hcut

/-- However the process is killed, `graph.json` is absent or the whole of a snapshot that was
published, and so is `KNOWLEDGE.md` unless it is torn; the cache's file and `KNOWLEDGE.md` are
never both torn. -/
theorem artifacts_survive_kills (hrun : exec (Lifespans.step G nested) events .initial = some s) :
    (∀ snapshot, s.disk.graphJson = some snapshot → snapshot ∈ s.published) ∧
      (∀ snapshot, s.disk.knowledgeMd = .whole snapshot → snapshot ∈ s.published) ∧
      (s.disk.graphCache = .torn → ∃ snapshot, s.disk.knowledgeMd = .whole snapshot) := by
  have h := lifetimesInvariant_run hrun
  exact ⟨h.sourced.graphJson, h.sourced.knowledgeMd, h.whole_of_torn⟩

/-- A shutdown that gets through its writes leaves the last snapshot and the last cache on disk. -/
theorem shutdown_writes_last_state (hrun : exec (Lifespans.step G nested) events .initial = some s)
    {p : Process ν γ τ} (hp : s.process = some p) (hstage : p.writer.stage = some .persisting) {s' : Lifespans ν γ τ}
    (hstep : Lifespans.step G nested (.thread .work) s = some s') :
    s'.cutShort = false ∧ s'.writing = false ∧ ∃ snapshot, p.writer.daemon.holder.current = some snapshot ∧
      s'.disk = ⟨some snapshot, .whole snapshot, .intact p.writer.daemon.cache⟩ := by
  obtain ⟨⟨hfresh, -⟩, htells⟩ := (lifetimesInvariant_run hrun).running p hp
  rw [hstage] at hfresh
  obtain ⟨snapshot, hcurrent, -⟩ := hfresh
  simp only [Lifespans.step, hp, Option.bind_some, Lifespans.thread, StageEvent.advances, if_true] at hstep
  split_ifs at hstep with htodo
  obtain ⟨w, hw, rfl⟩ := Option.map_eq_some_iff.mp hstep
  simp only [WriterState.step, WriterState.work, hstage, Option.some.injEq] at hw
  subst hw
  refine ⟨by simp [WriterState.endsWrites, hstage], rfl, snapshot, hcurrent, ?_⟩
  exact (tells_of_persisting htells hstage hcurrent).1 (List.isEmpty_iff.mp htodo)

/-- A restart after a run whose last writes were completed, over files that still have their
recorded modification times: the new process has the saved cache, whatever is in those files, and
serves the graph that is in `graph.json`, with the same index and without communities. -/
theorem restart_serves_graph_json (hrun : exec (Lifespans.step G nested) events .initial = some s)
    (hnone : s.process = none) (hcut : s.cutShort = false) {snapshot : GraphSnapshot γ τ} {cache : ExtractionCache ν}
    (hjson : s.disk.graphJson = some snapshot) (hcache : s.disk.graphCache = .intact cache)
    {walk : List (WalkEntry ν)} (hwalk : ∀ entry ∈ walk, entry.Unmodified nested cache)
    (hthere : ∀ p ∈ cache.entries.keys, ∃ entry ∈ walk, entry.path = p ∧ entry.Admitted nested)
    (startedAt clock : Nat) :
    ∃ p, (s.start G nested startedAt clock walk).process = some p ∧ p.writer.daemon.cache = cache ∧
      p.writer.daemon.holder.current = some ⟨snapshot.graph, snapshot.trigramIndex, .empty, 1⟩ := by
  have h := lifetimesInvariant_run hrun
  have hgraph : buildGraph G cache = .ok snapshot.graph := by
    rcases (h.ended hnone).1 hcut with hempty | ⟨written, saved, hdisk, hbuilt⟩
    · rw [hempty] at hjson
      cases hjson
    · rw [hdisk] at hjson hcache
      cases hjson
      cases hcache
      exact hbuilt
  have hindex : CarriesIndex G snapshot := h.indexed snapshot (h.sourced.graphJson snapshot hjson)
  have hcold : (Daemon.restarted startedAt s.disk.graphCache).coldStart G nested walk =
      runColdStart G nested walk { Daemon.restarted startedAt (.intact cache) with cache := cache } := by
    rw [hcache]
    rfl
  rw [Lifespans.start, hcold, runColdStart_unmodified hwalk hthere hgraph hindex]
  exact ⟨_, rfl, rfl, rfl⟩

end Runs

/-- A note is compiled, and after a quiet minute the idle callback clusters and begins to write. -/
def untilWriting : List (ProcessEvent Nat) :=
  .start 0 0 [] :: (compiledThenIdle.take 16).map .thread

/-- The writes of the cycle, with a kill at their end. -/
def cycleThenKilled : List (ProcessEvent Nat) :=
  untilWriting ++ [.write, .write, .write, .thread .work, .write, .write, .thread .work, .thread .work, .thread .work,
    .kill]

/-- The kill hits the save of the cache between its opening and its text. -/
def killedInSave : List (ProcessEvent Nat) :=
  untilWriting ++ [.write, .write, .write, .thread .work, .write, .kill]

/-- The daemon is shut down, and is through with its last writes. -/
def untilPersisted : List (ProcessEvent Nat) :=
  [.start 0 0 [], .thread .shutdown, .thread .persist, .thread (.acquire 0), .write, .write, .write, .write, .write]

/-- What a run of the reference daemon comes to. -/
def reached (events : List (ProcessEvent Nat)) : Lifespans Nat ReferenceGraph Unit :=
  (exec (Lifespans.step referenceGraphify []) events .initial).getD .initial

/-- What a walk finds of the note while it keeps its modification time; reading it would fail. -/
def keptNote : WalkEntry Nat := ⟨notePath, .ok false, .ok true, .found 1 1, .error .runtimeError⟩

theorem artifacts_settled_cycleThenKilled :
    (reached cycleThenKilled).disk.graphJson.isSome ∧ (reached cycleThenKilled).disk.Settled referenceGraphify := by
  have hrun : exec (Lifespans.step referenceGraphify []) cycleThenKilled .initial = some (reached cycleThenKilled) := rfl
  exact ⟨rfl, artifacts_settled hrun rfl rfl⟩

theorem artifacts_survive_kills_killedInSave :
    (reached killedInSave).disk.graphCache = .torn ∧
      ∃ snapshot, (reached killedInSave).disk.knowledgeMd = .whole snapshot := by
  have hrun : exec (Lifespans.step referenceGraphify []) killedInSave .initial = some (reached killedInSave) := rfl
  exact ⟨rfl, (artifacts_survive_kills hrun).2.2 rfl⟩

theorem shutdown_writes_last_state_untilPersisted :
    ∃ s, Lifespans.step referenceGraphify [] (.thread .work) (reached untilPersisted) = some s ∧ s.cutShort = false := by
  have hrun : exec (Lifespans.step referenceGraphify []) untilPersisted .initial = some (reached untilPersisted) := rfl
  have hstep : Lifespans.step referenceGraphify [] (.thread .work) (reached untilPersisted) = some _ := rfl
  exact ⟨_, hstep, (shutdown_writes_last_state hrun rfl rfl hstep).1⟩

theorem restart_serves_graph_json_cycleThenKilled :
    ∃ p graph, ((reached cycleThenKilled).start referenceGraphify [] 90 90 [keptNote]).process = some p ∧
      p.writer.daemon.holder.current = some ⟨graph, (), .empty, 1⟩ ∧ graph.nodes.keys = ["a"] := by
  have hrun : exec (Lifespans.step referenceGraphify []) cycleThenKilled .initial = some (reached cycleThenKilled) := rfl
  have hadmitted : keptNote.Admitted [] := ⟨rfl, by decide, rfl⟩
  have hwalk : ∀ entry ∈ [keptNote], entry.Unmodified [] (reached cycleThenKilled).disk.graphCache.loaded := by
    intro entry hentry
    obtain rfl := List.mem_singleton.mp hentry
    exact .inr ⟨hadmitted, .inl ⟨1, 1, rfl, rfl⟩⟩
  have hthere : ∀ p ∈ (reached cycleThenKilled).disk.graphCache.loaded.entries.keys,
      ∃ entry ∈ [keptNote], entry.path = p ∧ entry.Admitted [] := by
    intro p hp
    obtain rfl : p = notePath := List.mem_singleton.mp hp
    exact ⟨keptNote, List.mem_singleton.mpr rfl, rfl, hadmitted⟩
  obtain ⟨p, hp, -, hcurrent⟩ := restart_serves_graph_json hrun rfl rfl rfl rfl hwalk hthere 90 90
  exact ⟨p, _, hp, hcurrent, rfl⟩

end GraphifyDaemon
