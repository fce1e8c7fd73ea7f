import Mathlib.Algebra.Ring.Int.Defs
import Mathlib.Data.List.Infix
import GraphifyDaemon.Library.DiGraph
import GraphifyDaemon.Library.ToolSchema
import GraphifyDaemon.GraphQueryApi.QueryCache
import GraphifyDaemon.GraphQueryApi.Tools

/-! The seven tools of `TOOL_DEFINITIONS`, over one snapshot: what each accepts and what it
makes of the graph. -/
namespace GraphifyDaemon
open Library Library.JsonSchema

variable {ν γ τ : Type}

inductive Tool where
  | queryGraph
  | getNode
  | getNeighbors
  | getCommunity
  | godNodes
  | graphStats
  | shortestPath
  deriving DecidableEq

namespace Tool

def name : Tool → String
  | queryGraph => "query_graph"
  | getNode => "get_node"
  | getNeighbors => "get_neighbors"
  | getCommunity => "get_community"
  | godNodes => "god_nodes"
  | graphStats => "graph_stats"
  | shortestPath => "shortest_path"

/-- `TOOL_DEFINITIONS` -/
def all : List Tool := [queryGraph, getNode, getNeighbors, getCommunity, godNodes, graphStats, shortestPath]

/-- `_TOOL_DEFINITIONS_BY_NAME.get(name)` -/
def ofName (name : String) : Option Tool := all.find? fun tool => tool.name = name

def tokenBudgetSchema : ArgumentSchema := ⟨"token_budget", .property (.integer 1 20000), some (.number 2000)⟩

/-- `input_schema` -/
def schema : Tool → ToolSchema
  | queryGraph =>
    ⟨[⟨"question", .property .string, none⟩, ⟨"mode", .property (.choice ["bfs", "dfs"]), some (.text "bfs")⟩,
      ⟨"depth", .property (.integer 1 6), some (.number 3)⟩, tokenBudgetSchema,
      ⟨"context_filter", .property (.strings 50), none⟩], ["question"]⟩
  | getNode => ⟨[⟨"label", .property .string, none⟩], ["label"]⟩
  | getNeighbors =>
    ⟨[⟨"label", .property .string, none⟩, ⟨"relation_filter", .property .string, none⟩, tokenBudgetSchema], ["label"]⟩
  | getCommunity => ⟨[⟨"community_id", .atLeast 0, none⟩, tokenBudgetSchema], ["community_id"]⟩
  | godNodes => ⟨[⟨"top_n", .property (.integer 1 500), some (.number 10)⟩], []⟩
  | graphStats => ⟨[], []⟩
  | shortestPath =>
    ⟨[⟨"source", .property .string, none⟩, ⟨"target", .property .string, none⟩,
      ⟨"max_hops", .property (.integer 1 50), some (.number 8)⟩, ⟨"undirected", .boolean, some (.flag false)⟩],
      ["source", "target"]⟩

end Tool

/-- Python's operations on texts: `str(v)`, `str.lower`, `repr(s)` and
`round(count / total * 100)` in an f-string. -/
structure PyText (ν : Type) where
  str : Json ν → String
  lower : Text → Text
  repr : String → String
  percent : (count total : Nat) → Text
  str_str : ∀ s, str (.str s) = s

/-- An entry of `god_nodes`. -/
structure GodNode where
  label : String
  degree : Nat

/-- What the read tools use of graphify and networkx: the graph as its readers see it, and
graphify's own functions on it. -/
structure ReadEngine (ν γ : Type) where
  view : γ → DiGraph String (PyDict ν) (PyDict ν)
  edgeData : γ → String → String → Except PyError (PyDict ν)
  findNode : γ → Text → Except PyError (List String)
  godNodes : γ → Int → Except PyError (List GodNode)
  shortestPathText : γ → PyDict ν → Except PyError String
  sanitizeLabel : Json ν → Except PyError Text
  validationMessage : Tool → PyDict ν → String

/-- `edge_data` of an edge is what the graph keeps for it. -/
def ReadEngine.ReadsEdges (R : ReadEngine ν γ) : Prop :=
  ∀ graph source target d, (R.view graph).edges.get (source, target) = some d → R.edgeData graph source target = .ok d

/-- `d.get(name, default)` -/
def getOr (name : String) (default : Json ν) (d : PyDict ν) : Json ν := (Json.lookup name d).getD default

/-- `v.lower()` -/
def lowered (P : PyText ν) : Json ν → Except PyError Text
  | .str s => .ok (P.lower s.toList)
  | .null | .bool _ | .num _ | .arr _ | .obj _ => .error .attributeError

section Handlers
variable (R : ReadEngine ν γ) (P : PyText ν)

/-- `sanitize_label(str(v))` -/
def sanitizedText (v : Json ν) : Except PyError Text := R.sanitizeLabel (.str (P.str v))

/-- `graph.nodes[n]` -/
def nodeData (graph : γ) (n : String) : Except PyError (PyDict ν) :=
  match (R.view graph).nodes.get n with
  | some d => .ok d
  | none => .error (.keyError n)

/-- `sanitize_label(graph.nodes[n].get("label", n))` -/
def nodeLabel (graph : γ) (n : String) : Except PyError Text := do
  let d ← nodeData R graph n
  R.sanitizeLabel (getOr "label" (.str n) d)

section Conditions
variable [Zero ν] [DecidableEq ν]

/-- `v or w` -/
def orElse (v w : Json ν) : Json ν := if v.truthy then v else w

/-- The test that `get_node` makes of each node. -/
def nodeMatches (label : Text) (node : String × PyDict ν) : Except PyError Bool := do
  let text ← lowered P (orElse (getOr "label" .null node.2) (.str ""))
  pure (decide (label <:+: text) || decide (label = P.lower node.1.toList))

/-- The list comprehension of `get_node`. -/
def matchingNodes (label : Text) : List (String × PyDict ν) → Except PyError (List (String × PyDict ν))
  | [] => .ok []
  | node :: rest => do
    let found ← nodeMatches P label node
    let more ← matchingNodes label rest
    pure (if found then node :: more else more)

def noNodeMatching (label : Text) : Text := "No node matching '".toList ++ label ++ "' found.".toList

/-- The lines of `get_node` for the node it takes. -/
def nodeReport (graph : γ) (nid : String) (d : PyDict ν) : Except PyError (List Text) := do
  let label ← R.sanitizeLabel (getOr "label" (.str nid) d)
  let id ← R.sanitizeLabel (.str nid)
  let sourceFile ← sanitizedText R P (getOr "source_file" (.str "") d)
  let sourceLocation ← sanitizedText R P (getOr "source_location" (.str "") d)
  let fileType ← sanitizedText R P (getOr "file_type" (.str "") d)
  let community ← sanitizedText R P (orElse (getOr "community_name" .null d) (getOr "community" (.str "") d))
  pure ["Node: ".toList ++ label, "  ID: ".toList ++ id,
    "  Source: ".toList ++ sourceFile ++ " ".toList ++ sourceLocation, "  Type: ".toList ++ fileType,
    "  Community: ".toList ++ community, "  Degree: ".toList ++ natText ((R.view graph).degree nid)]

/-- `_tool_get_node` -/
def toolGetNode (arguments : PyDict ν) (snapshot : GraphSnapshot γ τ) : Except PyError Text := do
  let label ← (Json.getItem "label" arguments).bind (lowered P)
  match ← matchingNodes P label (R.view snapshot.graph).nodes.items with
  | [] => pure (noNodeMatching label)
  | (nid, d) :: _ => (nodeReport R P snapshot.graph nid d).map joinLines

/-- `_edge_at` -/
def edgeAt (d : PyDict ν) : Except PyError Text :=
  let location := P.str (orElse (getOr "source_location" .null d) (.str ""))
  if location = "" then pure []
  else do
    let sourceFile ← sanitizedText R P (orElse (getOr "source_file" .null d) (.str ""))
    let location ← R.sanitizeLabel (.str location)
    pure (" at=".toList ++ sourceFile ++ ":".toList ++ location)

/-- What a line tells of the edge. -/
def edgeText (d : PyDict ν) : Except PyError Text := do
  let relation ← sanitizedText R P (getOr "relation" (.str "") d)
  let confidence ← sanitizedText R P (getOr "confidence" (.str "") d)
  let location ← edgeAt R P d
  pure (" [".toList ++ relation ++ "] [".toList ++ confidence ++ "]".toList ++ location)

def neighborLine (arrow : Text) (graph : γ) (neighbor : String) (d : PyDict ν) : Except PyError Text := do
  let label ← nodeLabel R graph neighbor
  let edge ← edgeText R P d
  pure ("  ".toList ++ arrow ++ " ".toList ++ label ++ edge)

/-- The filter that `get_neighbors` puts on an edge: none, if it is empty. -/
def passesFilter (relationFilter : Text) (d : PyDict ν) : Except PyError Bool :=
  if relationFilter = [] then .ok true
  else (lowered P (getOr "relation" (.str "") d)).map fun relation => decide (relationFilter <:+: relation)

/-- The loop over the successors, or over the predecessors. -/
def neighborLines (arrow : Text) (graph : γ) (edge : String → Except PyError (PyDict ν)) (relationFilter : Text) :
    List String → Except PyError (List Text)
  | [] => .ok []
  | neighbor :: rest => do
    let d ← edge neighbor
    if ← passesFilter P relationFilter d then
      let line ← neighborLine R P arrow graph neighbor d
      let more ← neighborLines arrow graph edge relationFilter rest
      pure (line :: more)
    else neighborLines arrow graph edge relationFilter rest

def outgoingLines (graph : γ) (relationFilter : Text) (nid : String) : Except PyError (List Text) :=
  neighborLines R P "-->".toList graph (R.edgeData graph nid) relationFilter ((R.view graph).successors nid)

def incomingLines (graph : γ) (relationFilter : Text) (nid : String) : Except PyError (List Text) :=
  neighborLines R P "<--".toList graph (fun neighbor => R.edgeData graph neighbor nid) relationFilter
    ((R.view graph).predecessors nid)

def neighborsHint : Text := "Narrow with relation_filter or use get_node for a specific symbol".toList

/-- The lines of `get_neighbors` for the node it takes, before they are cut. -/
def neighborsReport (graph : γ) (relationFilter : Text) (nid : String) : Except PyError (List Text) := do
  let label ← nodeLabel R graph nid
  let outgoing ← outgoingLines R P graph relationFilter nid
  let incoming ← incomingLines R P graph relationFilter nid
  pure (("Neighbors of ".toList ++ label ++ ":".toList) :: (outgoing ++ incoming))

/-- `_tool_get_neighbors` -/
def toolGetNeighbors (reading : IntReading ν) (arguments : PyDict ν) (snapshot : GraphSnapshot γ τ) :
    Except PyError Text := do
  let label ← (Json.getItem "label" arguments).bind (lowered P)
  let relationFilter ← lowered P (getOr "relation_filter" (.str "") arguments)
  match ← R.findNode snapshot.graph label with
  | [] => pure (noNodeMatching label)
  | nid :: _ => do
    let lines ← neighborsReport R P snapshot.graph relationFilter nid
    let budget ← intArgument reading "token_budget" 2000 arguments
    pure (cutLinesToBudget lines budget.toNat neighborsHint)

end Conditions

def godNodeLines : Nat → List GodNode → List Text
  | _, [] => []
  | i, node :: rest =>
    ("  ".toList ++ natText i ++ ". ".toList ++ node.label.toList ++ " - ".toList ++ natText node.degree ++
      " edges".toList) :: godNodeLines (i + 1) rest

/-- `_tool_god_nodes` -/
def toolGodNodes (reading : IntReading ν) (arguments : PyDict ν) (snapshot : GraphSnapshot γ τ) :
    Except PyError Text := do
  let topN ← intArgument reading "top_n" 10 arguments
  let nodes ← R.godNodes snapshot.graph topN
  pure (joinLines ("God nodes (most connected):".toList :: godNodeLines 1 nodes))

/-- `confs` of `_tool_graph_stats` -/
def confidences (graph : γ) : List (Json ν) :=
  (R.view graph).adjacency.map fun e => getOr "confidence" (.str "EXTRACTED") e.2

/-- `confs.count(level)` -/
def confidenceCount [DecidableEq ν] (graph : γ) (level : String) : Nat := (confidences R graph).count (.str level)

/-- `len(confs) or 1` -/
def confidenceTotal (graph : γ) : Nat := if (confidences R graph).length = 0 then 1 else (confidences R graph).length

/-- `_tool_graph_stats` -/
def toolGraphStats [DecidableEq ν] (snapshot : GraphSnapshot γ τ) : Except PyError Text :=
  let graph := snapshot.graph
  let total := confidenceTotal R graph
  .ok ("Nodes: ".toList ++ natText (R.view graph).nodes.keys.length ++
    "\nEdges: ".toList ++ natText (R.view graph).size ++
    "\nCommunities: ".toList ++ natText snapshot.communityMap.keys.length ++
    "\nEXTRACTED: ".toList ++ P.percent (confidenceCount R graph "EXTRACTED") total ++
    "%\nINFERRED: ".toList ++ P.percent (confidenceCount R graph "INFERRED") total ++
    "%\nAMBIGUOUS: ".toList ++ P.percent (confidenceCount R graph "AMBIGUOUS") total ++ "%\n".toList)

end Handlers

/-- `_tool_get_community`, with its arguments read. -/
def toolGetCommunityOf (G : Graphify ν γ τ) (reading : IntReading ν) (arguments : PyDict ν)
    (snapshot : GraphSnapshot γ τ) : Except PyError Text := do
  let communityId ← (Json.getItem "community_id" arguments).bind (toInt reading)
  match (snapshot.communityMap.get communityId).getD [] with
  | [] => toolGetCommunity G communityId 1 snapshot
  | _ :: _ => do
    let budget ← intArgument reading "token_budget" 2000 arguments
    toolGetCommunity G communityId budget.toNat snapshot

/-- All that the seven handlers are given: graphify, its query engine, Python's own texts and
integers. -/
structure Toolbox (ν γ τ : Type) where
  graphify : Graphify ν γ τ
  engine : QueryEngine ν γ
  reader : ReadEngine ν γ
  text : PyText ν
  reading : IntReading ν

/-- `_TOOL_HANDLERS[tool.name]` -/
def Toolbox.handler [Zero ν] [DecidableEq ν] (T : Toolbox ν γ τ) (arguments : PyDict ν)
    (snapshot : GraphSnapshot γ τ) : Tool → Except PyError String
  | .queryGraph => toolQueryGraph T.engine T.reading arguments snapshot
  | .getNode => (toolGetNode T.reader T.text arguments snapshot).map String.ofList
  | .getNeighbors => (toolGetNeighbors T.reader T.text T.reading arguments snapshot).map String.ofList
  | .getCommunity => (toolGetCommunityOf T.graphify T.reading arguments snapshot).map String.ofList
  | .godNodes => (toolGodNodes T.reader T.reading arguments snapshot).map String.ofList
  | .graphStats => (toolGraphStats T.reader T.text snapshot).map String.ofList
  | .shortestPath => T.reader.shortestPathText snapshot.graph arguments

/-- `execute_tool` -/
def executeTool [Zero ν] [DecidableEq ν] (T : Toolbox ν γ τ) (name : String) (arguments : PyDict ν)
    (snapshot : GraphSnapshot γ τ) : Except PyError String :=
  match Tool.ofName name with
  | some tool => T.handler arguments snapshot tool
  | none => .error (.keyError name)

section Plain

/-- A graph that is what its readers see. -/
abbrev PlainGraph := DiGraph String (PyDict Int) (PyDict Int)

def plainIntegers : IntReading Int where
  whole i := some i
  truncate i := .ok i
  parse s := match s.toInt? with
    | some i => .ok i
    | none => .error .valueError
  truncate_whole n i h := by
    cases h
    rfl

/-- `round(count / total * 100)`: a half goes to the even one of its neighbours. -/
def roundedPercent (count total : Nat) : Nat :=
  let floor := count * 100 / total
  let twice := count * 100 % total * 2
  if twice < total ∨ twice = total ∧ floor % 2 = 0 then floor else floor + 1

example : roundedPercent 1 8 = 12 ∧ roundedPercent 3 8 = 38 := by decide

/-- Python's texts, of values that are texts. -/
def plainText : PyText Int where
  str
    | .str s => s
    | .null | .bool _ | .num _ | .arr _ | .obj _ => ""
  lower := List.map Char.toLower
  repr s := "'" ++ s ++ "'"
  percent count total := natText (roundedPercent count total)
  str_str _ := rfl

def plainReader : ReadEngine Int PlainGraph where
  view graph := graph
  edgeData graph source target := match graph.edges.get (source, target) with
    | some d => .ok d
    | none => .error (.keyError target)
  findNode graph label := .ok (graph.nodes.keys.filter fun id => plainText.lower id.toList = label)
  godNodes graph topN := .ok ((graph.nodes.keys.map fun id => ⟨id, graph.degree id⟩).take topN.toNat)
  shortestPathText _ _ := .ok "No path found."
  sanitizeLabel v := .ok (plainText.str v).toList
  validationMessage _ _ := "is not valid under the given schema"

theorem plainReader_readsEdges : plainReader.ReadsEdges := by
  intro graph source target d h
  have hget : graph.edges.get (source, target) = some d := h
  simp only [plainReader, hget]

def plainGraphify : Graphify Int PlainGraph Unit where
  buildFromJson _ _ := .ok .empty
  getTrigramIndex _ := .ok ()
  nodes graph id := (graph.nodes.get id).map fun d =>
    ⟨textOf (Json.lookup "label" d), textOf (Json.lookup "source_file" d), textOf (Json.lookup "community_name" d)⟩
  remapCommunitiesToPrevious raw _ := raw
  sanitizeLabel := id

def plainEngine : QueryEngine Int PlainGraph where
  queryGraphText graph question _ _ _ _ := match question with
    | .str id => .ok (if (graph.nodes.get id).isSome then "NODE " ++ id else "No matching nodes found.")
    | .null | .bool _ | .num _ | .arr _ | .obj _ => .error .attributeError
  validationMessage _ := "is not valid under the given schema"

def plainToolbox : Toolbox Int PlainGraph Unit := ⟨plainGraphify, plainEngine, plainReader, plainText, plainIntegers⟩

/-- A note that refers to another, and to itself. -/
def linkedNotes : PlainGraph :=
  let notes : PlainGraph := (DiGraph.empty.addNode "alpha" [("label", .str "Alpha")]).addNode "beta" [("label", .str "Beta")]
  (notes.addEdge "alpha" "beta" [("relation", .str "links_to")] (by decide)).addEdge "alpha" "alpha"
    [("relation", .str "mentions")] (by decide)

end Plain
end GraphifyDaemon
