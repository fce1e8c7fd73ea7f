import GraphifyDaemon.Library.Trace
import GraphifyDaemon.GraphQueryApi.QueryCache
import GraphifyDaemon.VaultCompiler.ReferenceGraph

/-! `on_call_tool` for `query_graph`, over any number of requests and the snapshots that are
published meanwhile. A step is what a request does between two points where another may run. -/
namespace GraphifyDaemon
open Library Library.Trace

variable {ν γ τ : Type}

inductive CallToolResult where
  | content (text : String)
  | isError (message : String)
  deriving DecidableEq

/-- A request, with the snapshot it took. -/
structure ToolCall (ν γ τ : Type) where
  arguments : PyDict ν
  snapshot : Option (GraphSnapshot γ τ)

/-- How far a request is: it has its snapshot, it found nothing in the cache and computes in
a thread of its own, or it has its text and is about to store it. -/
inductive CallProgress (ν γ τ : Type) where
  | taken
  | computing (snapshot : GraphSnapshot γ τ) (key : CacheKey ν)
  | storing (key : CacheKey ν) (text : String)

structure QueryPlane (ν γ τ : Type) where
  holder : SnapshotHolder γ τ
  cache : QueryCache ν
  running : List (ToolCall ν γ τ × CallProgress ν γ τ)
  answered : List (ToolCall ν γ τ × CallToolResult)

/-- A batch or a clustering cycle publishes, a request comes in, or request `i` goes on. The
event loop may also give up a request whose client is gone. -/
inductive QueryEvent (ν γ : Type) where
  | publish (graph : γ) (communityMap : CommunityMap)
  | call (arguments : Option (PyDict ν))
  | lookUp (i : Nat)
  | compute (i : Nat)
  | store (i : Nat)
  | cancel (i : Nat)

def toolFailed : CallToolResult := .isError "Tool query_graph failed. See daemon logs for detail."

section Requests
variable [DecidableEq ν]

namespace QueryPlane

def initial (cacheSize : Int) : QueryPlane ν γ τ := ⟨.initial, .initial cacheSize, [], []⟩

/-- `on_call_tool`: the snapshot is taken once. -/
def call (arguments : Option (PyDict ν)) (s : QueryPlane ν γ τ) : QueryPlane ν γ τ :=
  { s with running := s.running ++ [(⟨arguments.getD [], s.holder.current⟩, .taken)] }

/-- The request goes on. -/
def goOn (i : Nat) (request : ToolCall ν γ τ) (progress : CallProgress ν γ τ) (s : QueryPlane ν γ τ) :
    QueryPlane ν γ τ :=
  { s with running := s.running.set i (request, progress) }

/-- The request ends. -/
def answer (i : Nat) (request : ToolCall ν γ τ) (result : CallToolResult) (s : QueryPlane ν γ τ) :
    QueryPlane ν γ τ :=
  { s with running := s.running.eraseIdx i, answered := s.answered ++ [(request, result)] }

variable (G : Graphify ν γ τ) (E : QueryEngine ν γ) (reading : IntReading ν)

/-- `_dispatch` up to its lookup in the cache. -/
def lookUp [Zero ν] (i : Nat) (request : ToolCall ν γ τ) (s : QueryPlane ν γ τ) : QueryPlane ν γ τ :=
  match request.snapshot with
  | none => s.answer i request (.isError "Graph not ready yet")
  | some snapshot =>
    if queryGraphSchema.accepts reading request.arguments then
      match cacheKwargs reading request.arguments snapshot.version with
      | .error _ => s.answer i request toolFailed
      | .ok key => match s.cache.get key with
        | (some text, cache) => { s with cache := cache }.answer i request (.content text)
        | (none, cache) => { s with cache := cache }.goOn i request (.computing snapshot key)
    else s.answer i request
      (.isError ("Invalid arguments for query_graph: " ++ E.validationMessage request.arguments))

/-- `execute_tool`, off the event loop. -/
def compute (i : Nat) (request : ToolCall ν γ τ) (snapshot : GraphSnapshot γ τ) (key : CacheKey ν)
    (s : QueryPlane ν γ τ) : QueryPlane ν γ τ :=
  match toolQueryGraph E reading request.arguments snapshot with
  | .error _ => s.answer i request toolFailed
  | .ok text => s.goOn i request (.storing key text)

/-- The rest of `_dispatch`, once the text is there. -/
def store (i : Nat) (request : ToolCall ν γ τ) (key : CacheKey ν) (text : String) (s : QueryPlane ν γ τ) :
    QueryPlane ν γ τ :=
  { s with cache := s.cache.set key text }.answer i request (.content text)

def step [Zero ν] : QueryEvent ν γ → QueryPlane ν γ τ → Option (QueryPlane ν γ τ)
  | .publish graph communityMap, s => some { s with holder := (s.holder.publish G graph communityMap).store }
  | .call arguments, s => some (s.call arguments)
  | .lookUp i, s => match s.running[i]? with
    | some (request, .taken) => some (s.lookUp E reading i request)
    | _ => none
  | .compute i, s => match s.running[i]? with
    | some (request, .computing snapshot key) => some (s.compute E reading i request snapshot key)
    | _ => none
  | .store i, s => match s.running[i]? with
    | some (request, .storing key text) => some (s.store i request key text)
    | _ => none
  | .cancel i, s => match s.running[i]? with
    | some (_, .computing _ _) => some { s with running := s.running.eraseIdx i }
    | _ => none

end QueryPlane

variable (E : QueryEngine ν γ) (reading : IntReading ν)

/-- A cached answer is the answer for the snapshot with the version in its key. -/
def Genuine (published : List (GraphSnapshot γ τ)) (key : CacheKey ν) (text : String) : Prop :=
  ∃ snapshot ∈ published, snapshot.version = key.version ∧ key.answer E snapshot.graph = .ok text

/-- What a request knows by now is about its own arguments and its own snapshot. -/
def OnTrack [Zero ν] (request : ToolCall ν γ τ) : CallProgress ν γ τ → Prop
  | .taken => True
  | .computing snapshot key => request.snapshot = some snapshot ∧
      queryGraphSchema.accepts reading request.arguments ∧
      cacheKwargs reading request.arguments snapshot.version = .ok key
  | .storing key text => ∃ snapshot, request.snapshot = some snapshot ∧
      queryGraphSchema.accepts reading request.arguments ∧
      cacheKwargs reading request.arguments snapshot.version = .ok key ∧
      toolQueryGraph E reading request.arguments snapshot = .ok text

/-- A text that is returned is what the query gives for the request's own arguments on the
graph of the snapshot that it took. -/
def Truthful (request : ToolCall ν γ τ) (result : CallToolResult) : Prop :=
  ∀ text, result = .content text → ∃ snapshot, request.snapshot = some snapshot ∧
    toolQueryGraph E reading request.arguments snapshot = .ok text

/-- What every interleaving keeps, with the snapshots published so far. -/
structure Transparent [Zero ν] (published : List (GraphSnapshot γ τ)) (s : QueryPlane ν γ τ) : Prop where
  numbered : ∀ snapshot ∈ published, snapshot.version < s.holder.nextVersion
  unique : ∀ a ∈ published, ∀ b ∈ published, a.version = b.version → a = b
  current : ∀ snapshot, s.holder.current = some snapshot → snapshot ∈ published
  taken : ∀ r ∈ s.running, ∀ snapshot, r.1.snapshot = some snapshot → snapshot ∈ published
  entries : s.cache.Only (Genuine E published)
  onTrack : ∀ r ∈ s.running, OnTrack E reading r.1 r.2
  truthful : ∀ a ∈ s.answered, Truthful E reading a.1 a.2

variable {E reading}

omit [DecidableEq ν] in
private theorem toolFailed_truthful (request : ToolCall ν γ τ) : Truthful E reading request toolFailed := by
  intro text h
  cases h

omit [DecidableEq ν] in
private theorem isError_truthful (request : ToolCall ν γ τ) (message : String) :
    Truthful E reading request (.isError message) := by
  intro text h
  cases h

namespace Transparent
variable [Zero ν] {published : List (GraphSnapshot γ τ)} {s : QueryPlane ν γ τ}

theorem initial (cacheSize : Int) : Transparent (τ := τ) E reading [] (.initial cacheSize) where
  numbered := by simp
  unique := by simp
  current := by simp [QueryPlane.initial, SnapshotHolder.initial]
  taken := by simp [QueryPlane.initial]
  entries := LruCache.only_empty _ _
  onTrack := by simp [QueryPlane.initial]
  truthful := by simp [QueryPlane.initial]

theorem withCache (h : Transparent E reading published s) {cache : QueryCache ν}
    (hcache : cache.Only (Genuine E published)) : Transparent E reading published { s with cache := cache } :=
  ⟨h.numbered, h.unique, h.current, h.taken, hcache, h.onTrack, h.truthful⟩

theorem answer (h : Transparent E reading published s) (i : Nat) {request : ToolCall ν γ τ} {result : CallToolResult}
    (hresult : Truthful E reading request result) : Transparent E reading published (s.answer i request result) where
  numbered := h.numbered
  unique := h.unique
  current := h.current
  taken r hr := h.taken r (List.mem_of_mem_eraseIdx hr)
  entries := h.entries
  onTrack r hr := h.onTrack r (List.mem_of_mem_eraseIdx hr)
  truthful a ha := by
    rcases List.mem_append.mp ha with hold | hnew
    · exact h.truthful a hold
    · rw [List.mem_singleton.mp hnew]
      exact hresult

theorem goOn (h : Transparent E reading published s) {i : Nat} {request : ToolCall ν γ τ}
    {before after : CallProgress ν γ τ} (hi : s.running[i]? = some (request, before))
    (hafter : OnTrack E reading request after) : Transparent E reading published (s.goOn i request after) where
  numbered := h.numbered
  unique := h.unique
  current := h.current
  taken r hr := by
    rcases List.mem_or_eq_of_mem_set hr with hold | rfl
    · exact h.taken r hold
    · have hbefore := h.taken _ (List.mem_of_getElem? hi)
      exact hbefore
  entries := h.entries
  onTrack r hr := by
    rcases List.mem_or_eq_of_mem_set hr with hold | rfl
    · exact h.onTrack r hold
    · exact hafter
  truthful := h.truthful

theorem call (h : Transparent E reading published s) (arguments : Option (PyDict ν)) :
    Transparent E reading published (s.call arguments) where
  numbered := h.numbered
  unique := h.unique
  current := h.current
  taken r hr := by
    rcases List.mem_append.mp hr with hold | hnew
    · exact h.taken r hold
    · rw [List.mem_singleton.mp hnew]
      exact h.current
  entries := h.entries
  onTrack r hr := by
    rcases List.mem_append.mp hr with hold | hnew
    · exact h.onTrack r hold
    · rw [List.mem_singleton.mp hnew]
      trivial
  truthful := h.truthful

/-- A new snapshot gets a version that no snapshot had, so no entry is about it. -/
theorem publish (h : Transparent E reading published s) (graph : γ) (index : τ) (communityMap : CommunityMap) :
    let new : GraphSnapshot γ τ := ⟨graph, index, communityMap, s.holder.nextVersion⟩
    Transparent E reading (new :: published) { s with holder := ⟨some new, s.holder.nextVersion + 1⟩ } where
  numbered snapshot hs := by
    rcases List.mem_cons.mp hs with rfl | hold
    · exact Nat.lt_succ_self _
    · exact Nat.lt_succ_of_lt (h.numbered snapshot hold)
  unique a ha b hb hab := by
    rcases List.mem_cons.mp ha with rfl | hold
    · rcases List.mem_cons.mp hb with rfl | hold'
      · rfl
      · exact absurd hab.symm (Nat.ne_of_lt (h.numbered b hold'))
    · rcases List.mem_cons.mp hb with rfl | hold'
      · exact absurd hab (Nat.ne_of_lt (h.numbered a hold))
      · exact h.unique a hold b hold' hab
  current snapshot hs := by
    cases hs
    simp
  taken r hr snapshot hs := List.mem_cons_of_mem _ (h.taken r hr snapshot hs)
  entries := h.entries.mono fun key text hgenuine => by
    obtain ⟨snapshot, hmem, hanswer⟩ := hgenuine
    exact ⟨snapshot, List.mem_cons_of_mem _ hmem, hanswer⟩
  onTrack := h.onTrack
  truthful := h.truthful

theorem lookUp (h : Transparent E reading published s) (hempty : E.EmptyFiltersAreNone) {i : Nat}
    {request : ToolCall ν γ τ} (hi : s.running[i]? = some (request, .taken)) :
    Transparent E reading published (s.lookUp E reading i request) := by
  unfold QueryPlane.lookUp
  cases hsnapshot : request.snapshot with
  | none => exact h.answer i (isError_truthful request _)
  | some snapshot =>
    dsimp only
    split_ifs with haccepts
    · cases hkey : cacheKwargs reading request.arguments snapshot.version with
      | error e => exact h.answer i (toolFailed_truthful request)
      | ok key =>
        obtain ⟨hcache, hhit⟩ := h.entries.get key
        dsimp only
        split
        · rename_i text cache hget
          rw [hget] at hcache hhit
          refine (h.withCache hcache).answer i fun found hfound => ?_
          cases hfound
          obtain ⟨source, hsource, hversion, hanswer⟩ := hhit text rfl
          -- the entry's snapshot is the one that the request took: versions are unique
          have hsame : source = snapshot :=
            h.unique source hsource snapshot (h.taken _ (List.mem_of_getElem? hi) snapshot hsnapshot)
              (hversion.trans (cacheKwargs_eq_ok hkey).1)
          rw [hsame] at hanswer
          exact ⟨snapshot, hsnapshot, (toolQueryGraph_eq_answer hempty haccepts hkey snapshot).trans hanswer⟩
        · rename_i cache hget
          rw [hget] at hcache
          exact (h.withCache hcache).goOn hi ⟨hsnapshot, haccepts, hkey⟩
    · exact h.answer i (isError_truthful request _)

theorem compute (h : Transparent E reading published s) {i : Nat} {request : ToolCall ν γ τ}
    {snapshot : GraphSnapshot γ τ} {key : CacheKey ν} (hi : s.running[i]? = some (request, .computing snapshot key)) :
    Transparent E reading published (s.compute E reading i request snapshot key) := by
  obtain ⟨hsnapshot, haccepts, hkey⟩ := h.onTrack _ (List.mem_of_getElem? hi)
  unfold QueryPlane.compute
  split
  · exact h.answer i (toolFailed_truthful request)
  · rename_i text htext
    exact h.goOn hi ⟨snapshot, hsnapshot, haccepts, hkey, htext⟩

theorem store (h : Transparent E reading published s) (hempty : E.EmptyFiltersAreNone) {i : Nat}
    {request : ToolCall ν γ τ} {key : CacheKey ν} {text : String}
    (hi : s.running[i]? = some (request, .storing key text)) :
    Transparent E reading published (s.store i request key text) := by
  obtain ⟨snapshot, hsnapshot, haccepts, hkey, htext⟩ := h.onTrack _ (List.mem_of_getElem? hi)
  have hpublished := h.taken _ (List.mem_of_getElem? hi) snapshot hsnapshot
  have hgenuine : Genuine E published key text :=
    ⟨snapshot, hpublished, (cacheKwargs_eq_ok hkey).1.symm,
      (toolQueryGraph_eq_answer hempty haccepts hkey snapshot).symm.trans htext⟩
  refine (h.withCache (h.entries.set hgenuine)).answer i fun found hfound => ?_
  cases hfound
  exact ⟨snapshot, hsnapshot, htext⟩

theorem cancel (h : Transparent E reading published s) (i : Nat) :
    Transparent E reading published { s with running := s.running.eraseIdx i } :=
  ⟨h.numbered, h.unique, h.current, fun r hr => h.taken r (List.mem_of_mem_eraseIdx hr), h.entries,
    fun r hr => h.onTrack r (List.mem_of_mem_eraseIdx hr), h.truthful⟩

theorem step (h : Transparent E reading published s) (hempty : E.EmptyFiltersAreNone) {G : Graphify ν γ τ}
    {e : QueryEvent ν γ} {s' : QueryPlane ν γ τ} (hstep : QueryPlane.step G E reading e s = some s') :
    ∃ published', Transparent E reading published' s' := by
  cases e <;> simp only [QueryPlane.step] at hstep
  case publish graph communityMap =>
    cases hstep
    cases hpublish : s.holder.publish G graph communityMap with
    | raised e kept =>
      rw [Outcome.store_raised, publish_raised hpublish]
      exact ⟨published, h⟩
    | done next =>
      obtain ⟨index, -, rfl⟩ := publish_eq_done.mp hpublish
      exact ⟨_, h.publish graph index communityMap⟩
  case call arguments =>
    cases hstep
    exact ⟨published, h.call arguments⟩
  case lookUp i =>
    split at hstep <;> cases hstep
    case h_1 hi => exact ⟨published, h.lookUp hempty hi⟩
  case compute i =>
    split at hstep <;> cases hstep
    case h_1 hi => exact ⟨published, h.compute hi⟩
  case store i =>
    split at hstep <;> cases hstep
    case h_1 hi => exact ⟨published, h.store hempty hi⟩
  case cancel i =>
    split at hstep <;> cases hstep
    exact ⟨published, h.cancel i⟩

end Transparent

/-- Whatever is published while requests run, and however late they store their answers:
each text that is returned is the uncached answer to that request on its own snapshot. -/
theorem query_cache_transparent [Zero ν] {G : Graphify ν γ τ} (hempty : E.EmptyFiltersAreNone) {cacheSize : Int}
    {events : List (QueryEvent ν γ)} {s : QueryPlane ν γ τ}
    (hrun : exec (QueryPlane.step G E reading) events (.initial cacheSize) = some s) :
    ∀ answered ∈ s.answered, ∀ text, answered.2 = .content text →
      ∃ snapshot, answered.1.snapshot = some snapshot ∧
        toolQueryGraph E reading answered.1.arguments snapshot = .ok text := by
  obtain ⟨published, h⟩ : ∃ published, Transparent E reading published s :=
    exec_invariant_of_step (fun s => ∃ published, Transparent E reading published s)
      (fun _ _ _ ⟨_, hs⟩ hstep => hs.step hempty hstep) ⟨[], .initial cacheSize⟩ hrun
  exact h.truthful

end Requests

/-- Python's whole numbers, when they are all there is. -/
def naturals : IntReading Nat where
  whole n := some n
  truncate n := .ok n
  parse s := match s.toInt? with
    | some i => .ok i
    | none => .error .valueError
  truncate_whole n i h := by
    cases h
    rfl

/-- A query that finds the node it is asked for. -/
def nodeQuery : QueryEngine Nat ReferenceGraph where
  queryGraphText graph question _ _ _ _ := match question with
    | .str id => .ok (if (graph.nodes.get id).isSome then "NODE " ++ id else "No matching nodes found.")
    | _ => .error .attributeError
  validationMessage _ := "'question' is a required property"

private theorem nodeQuery_emptyFiltersAreNone : nodeQuery.EmptyFiltersAreNone :=
  fun _ _ _ _ _ => rfl

/-- Two requests with the same arguments on both sides of a publication, of which the older
stores last, and a third one that finds the answer in the cache. -/
def lateStore : List (QueryEvent Nat ReferenceGraph) :=
  let question : Option (PyDict Nat) := some [("question", .str "alpha")]
  [.publish ⟨.empty, []⟩ .empty, .call question, .lookUp 0,
    .publish ⟨OrderedDict.empty.set "alpha" ⟨none, none, none⟩, []⟩ .empty, .call question, .lookUp 1,
    .compute 1, .store 1, .compute 0, .store 0, .call question, .lookUp 0]

theorem query_cache_transparent_lateStore :
    ∃ s, exec (QueryPlane.step referenceGraphify nodeQuery naturals) lateStore (.initial 512) = some s ∧
      s.answered.map Prod.snd =
        [.content "NODE alpha", .content "No matching nodes found.", .content "NODE alpha"] ∧
      ∀ answered ∈ s.answered, ∀ text, answered.2 = .content text →
        ∃ snapshot, answered.1.snapshot = some snapshot ∧
          toolQueryGraph nodeQuery naturals answered.1.arguments snapshot = .ok text :=
  have hrun : exec (QueryPlane.step referenceGraphify nodeQuery naturals) lateStore (.initial 512) = some _ := rfl
  ⟨_, hrun, by decide, query_cache_transparent nodeQuery_emptyFiltersAreNone hrun⟩

end GraphifyDaemon
