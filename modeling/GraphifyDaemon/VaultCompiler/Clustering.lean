import GraphifyDaemon.VaultCompiler.Snapshot

/-! The clustering cycle and the slow-cadence trigger that starts it. -/
namespace GraphifyDaemon
open Library

variable {ν γ τ : Type}

/-- How `run_clustering_subprocess` ends: with the communities, or with `None` after a
failure or a timeout. -/
inductive ClusteringOutcome where
  | communities (raw : CommunityMap)
  | failed
  | timedOut

def ClusteringOutcome.result : ClusteringOutcome → Option CommunityMap
  | .communities raw => some raw
  | .failed | .timedOut => none

/-- `build_previous_node_community`: node to community, a later membership overriding. -/
def buildPreviousNodeCommunity (communityMap : CommunityMap) : OrderedDict String Int :=
  (communityMap.items.flatMap (fun item => item.2.map (fun node => (node, item.1)))).foldl
    (fun inverted pair => inverted.set pair.1 pair.2) .empty

/-- `run_clustering_cycle`: republishes the graph it clustered. -/
def runClusteringCycle (G : Graphify ν γ τ) (clustering : ClusteringOutcome)
    (holder : SnapshotHolder γ τ) : Outcome PyError (SnapshotHolder γ τ) :=
  match holder.current with
  | none => .done holder
  | some current => match clustering.result with
    | none => .done holder
    | some raw => holder.publish G current.graph
        (G.remapCommunitiesToPrevious raw (buildPreviousNodeCommunity current.communityMap))

/-- `SlowCadenceTracker`; times are readings of one monotonic clock. -/
structure SlowCadenceTracker where
  quietSeconds : Nat
  changeThreshold : Int
  accumulatedChanges : Nat
  lastBatchAt : Nat

namespace SlowCadenceTracker

/-- `SlowCadenceTracker.__init__` -/
def initial (quietSeconds : Nat) (changeThreshold : Int) (now : Nat) : SlowCadenceTracker :=
  ⟨quietSeconds, changeThreshold, 0, now⟩

def recordBatch (changeCount now : Nat) (tracker : SlowCadenceTracker) : SlowCadenceTracker :=
  { tracker with accumulatedChanges := tracker.accumulatedChanges + changeCount, lastBatchAt := now }

def shouldTrigger (now : Nat) (tracker : SlowCadenceTracker) : Bool :=
  if tracker.changeThreshold ≤ tracker.accumulatedChanges then true
  else tracker.lastBatchAt + tracker.quietSeconds ≤ now

def reset (now : Nat) (tracker : SlowCadenceTracker) : SlowCadenceTracker :=
  { tracker with accumulatedChanges := 0, lastBatchAt := now }

end SlowCadenceTracker
end GraphifyDaemon
