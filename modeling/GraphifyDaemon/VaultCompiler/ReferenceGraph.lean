import Mathlib.Algebra.GroupWithZero.Nat
import GraphifyDaemon.VaultCompiler.Snapshot

/-! A concrete graph library with the documented behaviour of graphify: nodes are
inserted in list order and a later occurrence of an id overwrites the earlier one. -/
namespace GraphifyDaemon
open Library

variable {ν : Type}

structure ReferenceGraph where
  nodes : OrderedDict String NodeAttributes
  edges : List (String × String)
  deriving DecidableEq

def attributesOf : Json ν → NodeAttributes
  | .obj members => ⟨textOf (Json.lookup "label" members), textOf (Json.lookup "source_file" members),
      textOf (Json.lookup "community_name" members)⟩
  | _ => ⟨none, none, none⟩

def edgeEnds : Json ν → Option (String × String)
  | .obj members => match textOf (Json.lookup "source" members), textOf (Json.lookup "target" members) with
    | some source, some target => some (source, target)
    | _, _ => none
  | _ => none

def insertNode (nodes : OrderedDict String NodeAttributes) (node : Json ν) :
    OrderedDict String NodeAttributes :=
  match nodeId node with
  | some id => nodes.set id (attributesOf node)
  | none => nodes

def referenceGraphify : Graphify Nat ReferenceGraph Unit where
  buildFromJson nodes edges := .ok ⟨nodes.foldl insertNode .empty, edges.filterMap edgeEnds⟩
  getTrigramIndex _ := .ok ()
  nodes graph id := graph.nodes.get id
  remapCommunitiesToPrevious raw _ := raw
  sanitizeLabel := id

private theorem foldl_insertNode_keeps {id : String} {nodes : List (Json ν)} :
    ∀ inserted : OrderedDict String NodeAttributes,
      ((inserted.get id).isSome ∨ ∃ node ∈ nodes, nodeId node = some id) →
        ((nodes.foldl insertNode inserted).get id).isSome := by
  induction nodes with
  | nil => simp
  | cons node rest ih =>
    intro inserted h
    refine ih (insertNode inserted node) ?_
    unfold insertNode
    rcases h with hold | ⟨n, hn, hid⟩
    · left
      split
      · rw [OrderedDict.get_set]
        split_ifs <;> simp [hold]
      · exact hold
    · rcases List.mem_cons.mp hn with rfl | hmem
      · left
        simp [hid]
      · exact .inr ⟨n, hmem, hid⟩

/-- Two nodes with one source file and one label. -/
def SameSourceAndLabel (node other : Json ν) : Prop :=
  (attributesOf node).sourceFile = (attributesOf other).sourceFile ∧
    (attributesOf node).label = (attributesOf other).label

theorem referenceGraphify_keepsUnlike : referenceGraphify.KeepsUnlike SameSourceAndLabel := by
  intro nodes edges graph h node hnode id hid _
  cases h
  exact foldl_insertNode_keeps .empty (.inr ⟨node, hnode, hid⟩)

theorem referenceGraphify_remapsWithin : referenceGraphify.RemapsWithin :=
  fun _ _ _ hn => hn

/-- What extracting a note with one node gives. -/
def oneNode (id : String) : PyDict Nat := [("nodes", .arr [.obj [("id", .str id)]]), ("edges", .arr [])]

/-- A file that is extracted, stat-ed and indexed with nothing going wrong. -/
def Observation.calm (result : PyDict Nat) (mtime : Nat) : Observation Nat where
  extractor := .ok (.obj result)
  extractStat := .found mtime 1
  syncStat := .found mtime 1
  deleteFault := none
  upsertFault := none

end GraphifyDaemon
