import GraphifyDaemon.Library.Trace
import GraphifyDaemon.ArtifactLifecycle.Metrics
import GraphifyDaemon.GraphQueryApi.QueryRequests
import GraphifyDaemon.GraphQueryApi.ReadTools

/-! `on_call_tool` for all seven tools, over any number of calls and the snapshots that are
published meanwhile, with the cache and the metrics that the calls share. A call runs without
a break up to `asyncio.to_thread`, and from there on once the thread has returned. -/
namespace GraphifyDaemon
open Library Library.Trace Library.JsonSchema

variable {ν γ τ : Type}

/-- A call, with the snapshot and the time at which it came in. -/
structure ToolRequest (ν γ τ : Type) where
  name : String
  arguments : PyDict ν
  snapshot : Option (GraphSnapshot γ τ)
  start : Nat

/-- A call whose tool is executed in a thread, or has been. Only `query_graph` has a key. -/
structure RunningCall (ν γ τ : Type) where
  request : ToolRequest ν γ τ
  tool : Tool
  snapshot : GraphSnapshot γ τ
  key : Option (CacheKey ν)
  returned : Option (Except PyError String)

/-- A call that is over, without a result if it was cancelled. -/
structure EndedCall (ν γ τ : Type) where
  request : ToolRequest ν γ τ
  result : Option CallToolResult
  duration : Nat

structure ToolServer (ν γ τ : Type) where
  holder : SnapshotHolder γ τ
  cache : QueryCache ν
  metrics : Metrics Nat
  clock : Nat
  arrived : List (ToolRequest ν γ τ)
  running : List (RunningCall ν γ τ)
  ended : List (EndedCall ν γ τ)

/-- A snapshot is published, time passes, or a call comes in; the thread of running call `i`
returns, the call goes on, or it is cancelled because its client is gone. -/
inductive ServerEvent (ν γ : Type) where
  | publish (graph : γ) (communityMap : CommunityMap)
  | tick (ticks : Nat)
  | call (name : String) (arguments : Option (PyDict ν))
  | compute (i : Nat)
  | resume (i : Nat)
  | cancel (i : Nat)

def toolFailedResult (name : String) : CallToolResult :=
  .isError ("Tool " ++ name ++ " failed. See daemon logs for detail.")

def unknownTool (T : Toolbox ν γ τ) (name : String) : CallToolResult := .isError ("Unknown tool: " ++ T.text.repr name)

def notReady : CallToolResult := .isError "Graph not ready yet"

/-- The message of a `jsonschema.ValidationError`. -/
def Toolbox.validationMessage (T : Toolbox ν γ τ) (arguments : PyDict ν) : Tool → String
  | .queryGraph => T.engine.validationMessage arguments
  | tool => T.reader.validationMessage tool arguments

def invalidArguments (T : Toolbox ν γ τ) (tool : Tool) (arguments : PyDict ν) : CallToolResult :=
  .isError ("Invalid arguments for " ++ tool.name ++ ": " ++ T.validationMessage arguments tool)

/-- What a tool that has run gives its caller. -/
def resultOf (name : String) : Except PyError String → CallToolResult
  | .error _ => toolFailedResult name
  | .ok text => .content text

section Calls
variable [Zero ν] [DecidableEq ν]

namespace ToolServer

def initial (cacheSize : Int) (latencyWindow : Nat) : ToolServer ν γ τ where
  holder := .initial
  cache := .initial cacheSize
  metrics := .initial latencyWindow
  clock := 0
  arrived := []
  running := []
  ended := []

/-- The call is over, and its time is recorded. -/
def finish (request : ToolRequest ν γ τ) (result : Option CallToolResult) (s : ToolServer ν γ τ) : ToolServer ν γ τ :=
  { s with
    metrics := s.metrics.recordLatency "query" (s.clock - request.start)
    ended := s.ended ++ [⟨request, result, s.clock - request.start⟩] }

def start (call : RunningCall ν γ τ) (s : ToolServer ν γ τ) : ToolServer ν γ τ :=
  { s with running := s.running ++ [call] }

variable (T : Toolbox ν γ τ)

/-- `_dispatch` for a tool and a snapshot that are there, up to the thread. -/
def dispatchTool (request : ToolRequest ν γ τ) (tool : Tool) (snapshot : GraphSnapshot γ τ) (s : ToolServer ν γ τ) :
    ToolServer ν γ τ :=
  if tool.schema.accepts T.reading request.arguments then
    if tool = .queryGraph then
      match cacheKwargs T.reading request.arguments snapshot.version with
      | .error _ => s.finish request (some (toolFailedResult tool.name))
      | .ok key => match s.cache.get key with
        | (some text, cache) => { s with cache := cache }.finish request (some (.content text))
        | (none, cache) => { s with cache := cache }.start ⟨request, tool, snapshot, some key, none⟩
    else s.start ⟨request, tool, snapshot, none, none⟩
  else s.finish request (some (invalidArguments T tool request.arguments))

/-- `_dispatch`, up to the thread. -/
def dispatch (request : ToolRequest ν γ τ) (s : ToolServer ν γ τ) : ToolServer ν γ τ :=
  match Tool.ofName request.name with
  | none => s.finish request (some (unknownTool T request.name))
  | some tool => match request.snapshot with
    | none => s.finish request (some notReady)
    | some snapshot => s.dispatchTool T request tool snapshot

/-- `on_call_tool`: the snapshot is taken once. -/
def call (name : String) (arguments : Option (PyDict ν)) (s : ToolServer ν γ τ) : ToolServer ν γ τ :=
  let request : ToolRequest ν γ τ := ⟨name, arguments.getD [], s.holder.current, s.clock⟩
  { s with arrived := s.arrived ++ [request] }.dispatch T request

/-- `query_cache.set(**cache_kwargs, result=text)`, for a query. -/
def storeText (key : Option (CacheKey ν)) (text : String) (s : ToolServer ν γ τ) : ToolServer ν γ τ :=
  match key with
  | some key => { s with cache := s.cache.set key text }
  | none => s

/-- The rest of `_dispatch`, once the thread has returned. -/
def resume (call : RunningCall ν γ τ) (returned : Except PyError String) (s : ToolServer ν γ τ) : ToolServer ν γ τ :=
  match returned with
  | .error e => s.finish call.request (some (resultOf call.tool.name (.error e)))
  | .ok text => (s.storeText call.key text).finish call.request (some (resultOf call.tool.name (.ok text)))

def step : ServerEvent ν γ → ToolServer ν γ τ → Option (ToolServer ν γ τ)
  | .publish graph communityMap, s =>
    some { s with holder := (s.holder.publish T.graphify graph communityMap).store }
  | .tick ticks, s => some { s with clock := s.clock + ticks }
  | .call name arguments, s => some (s.call T name arguments)
  | .compute i, s => match s.running[i]? with
    | some ⟨request, tool, snapshot, key, none⟩ =>
      some { s with running := s.running.set i ⟨request, tool, snapshot, key,
        some (executeTool T request.name request.arguments snapshot)⟩ }
    | _ => none
  | .resume i, s => match s.running[i]? with
    | some ⟨request, tool, snapshot, key, some returned⟩ =>
      some ({ s with running := s.running.eraseIdx i }.resume ⟨request, tool, snapshot, key, some returned⟩ returned)
    | _ => none
  | .cancel i, s => (s.running[i]?).map fun call => { s with running := s.running.eraseIdx i }.finish call.request none

end ToolServer

/-- What the call gets where it runs alone and nothing is cached. -/
def sequentialAnswer (T : Toolbox ν γ τ) (request : ToolRequest ν γ τ) : CallToolResult :=
  match Tool.ofName request.name, request.snapshot with
  | none, _ => unknownTool T request.name
  | some _, none => notReady
  | some tool, some snapshot =>
    if tool.schema.accepts T.reading request.arguments then
      resultOf tool.name (T.handler request.arguments snapshot tool)
    else invalidArguments T tool request.arguments

/-- The call asks the cache. -/
def AsksCache (T : Toolbox ν γ τ) (request : ToolRequest ν γ τ) : Prop :=
  Tool.ofName request.name = some .queryGraph ∧ request.snapshot.isSome ∧
    Tool.queryGraph.schema.accepts T.reading request.arguments = true

instance (T : Toolbox ν γ τ) (request : ToolRequest ν γ τ) : Decidable (AsksCache T request) :=
  inferInstanceAs (Decidable (_ ∧ _ ∧ _))

end Calls
end GraphifyDaemon
