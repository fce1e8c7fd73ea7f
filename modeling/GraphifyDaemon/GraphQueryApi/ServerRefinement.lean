import GraphifyDaemon.Library.Selected
import GraphifyDaemon.GraphQueryApi.ServedCalls

/-! The `query_graph` calls of the tool server, by themselves, are a run of the query plane: the
other tools touch neither its cache nor its answers. -/
namespace GraphifyDaemon
open Library Library.Trace Library.Selected Library.JsonSchema

variable {ν γ τ : Type}

/-- A call as the query plane has it. -/
def ToolRequest.toolCall (request : ToolRequest ν γ τ) : ToolCall ν γ τ := ⟨request.arguments, request.snapshot⟩

/-- A running call that has a key is a query. To the query plane it computes until it resumes. -/
def RunningCall.asQuery (call : RunningCall ν γ τ) : Option (ToolCall ν γ τ × CallProgress ν γ τ) :=
  call.key.map fun key => (call.request.toolCall, .computing call.snapshot key)

/-- A call of `query_graph` that was not cancelled. -/
def EndedCall.asQuery (call : EndedCall ν γ τ) : Option (ToolCall ν γ τ × CallToolResult) :=
  if Tool.ofName call.request.name = some .queryGraph then
    call.result.map fun result => (call.request.toolCall, result)
  else none

section Calls
variable [Zero ν] [DecidableEq ν] {T : Toolbox ν γ τ}

/-- A running call has a key if it is a query, and its thread returns what its tool does. -/
structure FollowsThread (T : Toolbox ν γ τ) (call : RunningCall ν γ τ) : Prop where
  key : call.key.isSome ↔ Tool.ofName call.request.name = some .queryGraph
  named : Tool.ofName call.request.name = some call.tool
  returned : ∀ r, call.returned = some r → r = executeTool T call.request.name call.request.arguments call.snapshot

/-- The query plane is where the server is with its queries. -/
structure QueryPart (T : Toolbox ν γ τ) (s : ToolServer ν γ τ) (p : QueryPlane ν γ τ) : Prop where
  holder : p.holder = s.holder
  cache : p.cache = s.cache
  running : p.running = s.running.filterMap RunningCall.asQuery
  answered : p.answered = s.ended.filterMap EndedCall.asQuery
  follows : ∀ call ∈ s.running, FollowsThread T call

namespace QueryPart
variable {s : ToolServer ν γ τ} {p : QueryPlane ν γ τ} {request : ToolRequest ν γ τ}

private theorem finish_other (h : QueryPart T s p) (hname : Tool.ofName request.name ≠ some .queryGraph)
    (result : Option CallToolResult) : QueryPart T (s.finish request result) p where
  holder := h.holder
  cache := h.cache
  running := h.running
  answered := by
    rw [h.answered, ToolServer.finish, List.filterMap_append]
    simp [EndedCall.asQuery, hname]
  follows := h.follows

/-- A query that ends without a place in the list of those that run. -/
theorem finish_query (h : QueryPart T s p) (hname : Tool.ofName request.name = some .queryGraph) (result : CallToolResult) :
    QueryPart T (s.finish request (some result)) { p with answered := p.answered ++ [(request.toolCall, result)] } where
  holder := h.holder
  cache := h.cache
  running := h.running
  answered := by
    rw [h.answered, ToolServer.finish, List.filterMap_append]
    simp [EndedCall.asQuery, hname]
  follows := h.follows

private theorem finish_cancelled (h : QueryPart T s p) : QueryPart T (s.finish request none) p where
  holder := h.holder
  cache := h.cache
  running := h.running
  answered := by
    rw [h.answered, ToolServer.finish, List.filterMap_append]
    simp [EndedCall.asQuery]
  follows := h.follows

theorem start {call : RunningCall ν γ τ} (h : QueryPart T s p) (hcall : FollowsThread T call) :
    QueryPart T (s.start call) { p with running := p.running ++ call.asQuery.toList } where
  holder := h.holder
  cache := h.cache
  running := by
    rw [h.running, ToolServer.start, List.filterMap_append]
    cases hquery : call.asQuery <;> simp [hquery]
  answered := h.answered
  follows c hc := by
    rcases List.mem_append.mp hc with hold | hnew
    · exact h.follows c hold
    · rw [List.mem_singleton.mp hnew]
      exact hcall

theorem withCache (h : QueryPart T s p) (cache : QueryCache ν) :
    QueryPart T { s with cache := cache } { p with cache := cache } :=
  ⟨h.holder, rfl, h.running, h.answered, h.follows⟩

/-- A call of another tool does not show. -/
theorem dispatch_other (h : QueryPart T s p) (hname : Tool.ofName request.name ≠ some .queryGraph) :
    QueryPart T (s.dispatch T request) p := by
  have hdispatched := dispatched T request s
  generalize s.dispatch T request = s' at hdispatched ⊢
  cases hdispatched with
  | answered => exact h.finish_other hname _
  | @started tool snapshot _ htool =>
    have hfollows : FollowsThread T (⟨request, tool, snapshot, none, none⟩ : RunningCall ν γ τ) :=
      ⟨by simp [hname], htool, by simp⟩
    simpa [RunningCall.asQuery] using h.start hfollows
  | hit hquery => exact absurd hquery hname
  | missed hquery => exact absurd hquery hname

omit [Zero ν] [DecidableEq ν] in
/-- The last of a list of requests ends. -/
theorem answer_last (p : QueryPlane ν γ τ) (entry : ToolCall ν γ τ × CallProgress ν γ τ) (result : CallToolResult) :
    ({ p with running := p.running ++ [entry] } : QueryPlane ν γ τ).answer p.running.length entry.1 result =
      { p with answered := p.answered ++ [(entry.1, result)] } := by
  simp only [QueryPlane.answer]
  rw [List.eraseIdx_append_of_length_le (Nat.le_refl _), Nat.sub_self]
  simp

omit [Zero ν] [DecidableEq ν] in
/-- The last of a list of requests goes on. -/
theorem goOn_last (p : QueryPlane ν γ τ) (request : ToolCall ν γ τ) (before after : CallProgress ν γ τ) :
    ({ p with running := p.running ++ [(request, before)] } : QueryPlane ν γ τ).goOn p.running.length request after =
      { p with running := p.running ++ [(request, after)] } := by
  simp only [QueryPlane.goOn]
  rw [List.set_append_right _ _ (Nat.le_refl _), Nat.sub_self]
  rfl

/-- The query plane refuses what the server refuses. -/
theorem lookUp_refused (p : QueryPlane ν γ τ) (i : Nat) (hname : Tool.ofName request.name = some .queryGraph)
    (hasks : ¬ AsksCache T request) : p.lookUp T.engine T.reading i request.toolCall =
      p.answer i request.toolCall (sequentialAnswer T request) := by
  have hcall : request.toolCall = ⟨request.arguments, request.snapshot⟩ := rfl
  cases hsnapshot : request.snapshot with
  | none => simp only [QueryPlane.lookUp, sequentialAnswer, hname, hcall, hsnapshot, notReady]
  | some snapshot =>
    have hrefused : ¬ Tool.queryGraph.schema.accepts T.reading request.arguments = true :=
      fun haccepts => hasks ⟨hname, by rw [hsnapshot]; rfl, haccepts⟩
    have hrefused' : ¬ queryGraphSchema.accepts T.reading request.arguments = true := by
      rwa [Tool.queryGraph_accepts] at hrefused
    simp only [QueryPlane.lookUp, sequentialAnswer, hname, hcall, hsnapshot, if_neg hrefused, if_neg hrefused']
    rfl

/-- And it asks its cache for what the server asks for. -/
theorem lookUp_asks (p : QueryPlane ν γ τ) (i : Nat) {snapshot : GraphSnapshot γ τ} {key : CacheKey ν}
    (hsnapshot : request.snapshot = some snapshot)
    (haccepts : Tool.queryGraph.schema.accepts T.reading request.arguments = true)
    (hkey : cacheKwargs T.reading request.arguments snapshot.version = .ok key) :
    p.lookUp T.engine T.reading i request.toolCall = match p.cache.get key with
      | (some text, cache) => { p with cache := cache }.answer i request.toolCall (.content text)
      | (none, cache) => { p with cache := cache }.goOn i request.toolCall (.computing snapshot key) := by
  rw [Tool.queryGraph_accepts] at haccepts
  have hcall : request.toolCall = ⟨request.arguments, request.snapshot⟩ := rfl
  rcases hget : p.cache.get key with ⟨found, cache⟩
  cases found with
  | none => simp only [QueryPlane.lookUp, hcall, hsnapshot, if_pos haccepts, hkey, hget]
  | some text => simp only [QueryPlane.lookUp, hcall, hsnapshot, if_pos haccepts, hkey, hget]

/-- A query comes in and looks into the cache, both in one. -/
theorem dispatch_query (h : QueryPart T s p) (hname : Tool.ofName request.name = some .queryGraph) :
    QueryPart T (s.dispatch T request)
      (({ p with running := p.running ++ [(request.toolCall, .taken)] } : QueryPlane ν γ τ).lookUp T.engine T.reading
        p.running.length request.toolCall) := by
  have hdispatched := dispatched T request s
  generalize s.dispatch T request = s' at hdispatched ⊢
  cases hdispatched with
  | answered hasks =>
    rw [lookUp_refused _ _ hname hasks, answer_last p (request.toolCall, .taken)]
    exact h.finish_query hname _
  | @started tool snapshot hasks htool hsnapshot haccepts =>
    cases hname.symm.trans htool
    exact absurd ⟨hname, by rw [hsnapshot]; rfl, haccepts⟩ hasks
  | @hit snapshot key text cache _ hsnapshot haccepts hkey hget =>
    rw [lookUp_asks _ _ hsnapshot haccepts hkey]
    simp only [h.cache, hget]
    have hlast := answer_last { p with cache := cache } (request.toolCall, .taken) (.content text)
    rw [hlast]
    exact (h.withCache cache).finish_query hname _
  | @missed snapshot key cache _ hsnapshot haccepts hkey hget =>
    rw [lookUp_asks _ _ hsnapshot haccepts hkey]
    simp only [h.cache, hget]
    have hlast := goOn_last { p with cache := cache } request.toolCall .taken (.computing snapshot key)
    rw [hlast]
    have hfollows : FollowsThread T (⟨request, .queryGraph, snapshot, some key, none⟩ : RunningCall ν γ τ) :=
      ⟨by simp [hname], hname, by simp⟩
    exact (h.withCache cache).start hfollows

/-- A call of another tool is taken off the list of those that run. -/
theorem withoutOther (h : QueryPart T s p) {i : Nat} {call : RunningCall ν γ τ} (hi : s.running[i]? = some call)
    (hkey : call.key = none) : QueryPart T { s with running := s.running.eraseIdx i } p where
  holder := h.holder
  cache := h.cache
  running := by
    rw [h.running]
    exact (eraseIdx_of_not_selected hi (by rw [RunningCall.asQuery, hkey]; rfl)).symm
  answered := h.answered
  follows c hc := h.follows c (List.mem_of_mem_eraseIdx hc)

private theorem withoutQuery (h : QueryPart T s p) {i : Nat} {call : RunningCall ν γ τ} (hi : s.running[i]? = some call)
    {key : CacheKey ν} (hkey : call.key = some key) : QueryPart T { s with running := s.running.eraseIdx i }
      { p with running := p.running.eraseIdx (place RunningCall.asQuery s.running i) } where
  holder := h.holder
  cache := h.cache
  running := by
    rw [h.running]
    exact (eraseIdx_of_selected hi (by rw [RunningCall.asQuery, hkey]; rfl)).symm
  answered := h.answered
  follows c hc := h.follows c (List.mem_of_mem_eraseIdx hc)

/-- Where the query plane has a running query of the server. -/
theorem running_query (h : QueryPart T s p) {i : Nat} {call : RunningCall ν γ τ} (hi : s.running[i]? = some call)
    {key : CacheKey ν} (hkey : call.key = some key) :
    p.running[place RunningCall.asQuery s.running i]? = some (call.request.toolCall, .computing call.snapshot key) := by
  rw [h.running]
  exact getElem?_of_selected hi (by rw [RunningCall.asQuery, hkey]; rfl)

private theorem handler_query {call : RunningCall ν γ τ} (hfollows : FollowsThread T call) {key : CacheKey ν}
    (hkey : call.key = some key)
    {r : Except PyError String} (hreturned : call.returned = some r) :
    call.tool = .queryGraph ∧ r = toolQueryGraph T.engine T.reading call.request.arguments call.snapshot := by
  have hname : Tool.ofName call.request.name = some .queryGraph := hfollows.key.mp (by rw [hkey]; rfl)
  refine ⟨Option.some.inj (hfollows.named.symm.trans hname), ?_⟩
  rw [hfollows.returned r hreturned, executeTool_of_ofName hname]
  rfl

/-- The thread of call `i` has returned, and the call goes on: to the query plane it computes
and stores, if it is a query. -/
theorem resume (h : QueryPart T s p) {i : Nat} {call : RunningCall ν γ τ} (hi : s.running[i]? = some call)
    {r : Except PyError String} (hreturned : call.returned = some r) :
    ∃ es p', exec (QueryPlane.step T.graphify T.engine T.reading) es p = some p' ∧
      QueryPart T ({ s with running := s.running.eraseIdx i }.resume call r) p' := by
  have hfollows := h.follows call (List.mem_of_getElem? hi)
  cases hkey : call.key with
  | none =>
    have htaken := h.withoutOther hi hkey
    have hother : Tool.ofName call.request.name ≠ some .queryGraph := by
      intro hname
      have hsome := hfollows.key.mpr hname
      simp [hkey] at hsome
    refine ⟨[], p, rfl, ?_⟩
    cases r with
    | error e => exact htaken.finish_other hother _
    | ok text =>
      simp only [ToolServer.resume, ToolServer.storeText, hkey]
      exact htaken.finish_other hother _
  | some key =>
    have hname : Tool.ofName call.request.name = some .queryGraph := hfollows.key.mp (by rw [hkey]; rfl)
    obtain ⟨htool, rfl⟩ := handler_query hfollows hkey hreturned
    have hplace := h.running_query hi hkey
    have htaken := h.withoutQuery hi hkey
    cases hanswer : toolQueryGraph T.engine T.reading call.request.arguments call.snapshot with
    | error e =>
      refine ⟨[.compute (place RunningCall.asQuery s.running i)],
        p.answer (place RunningCall.asQuery s.running i) call.request.toolCall toolFailed, ?_, ?_⟩
      · simp only [exec_cons, QueryPlane.step, hplace, Option.bind_some, QueryPlane.compute]
        simp only [ToolRequest.toolCall, hanswer]
        rfl
      · have hfinished := htaken.finish_query hname (resultOf call.tool.name (.error e))
        rw [htool] at hfinished
        simp only [ToolServer.resume, htool]
        exact hfinished
    | ok text =>
      refine ⟨[.compute (place RunningCall.asQuery s.running i), .store (place RunningCall.asQuery s.running i)],
        { p with cache := p.cache.set key text }.answer (place RunningCall.asQuery s.running i) call.request.toolCall
          (.content text), ?_, ?_⟩
      · have hlt : place RunningCall.asQuery s.running i < p.running.length := (List.getElem?_eq_some_iff.mp hplace).1
        have hcomputed : (p.goOn (place RunningCall.asQuery s.running i) call.request.toolCall
            (.storing key text)).running[place RunningCall.asQuery s.running i]? =
              some (call.request.toolCall, .storing key text) := List.getElem?_set_self hlt
        have hcompute : QueryPlane.step T.graphify T.engine T.reading
            (.compute (place RunningCall.asQuery s.running i)) p =
              some (p.goOn (place RunningCall.asQuery s.running i) call.request.toolCall (.storing key text)) := by
          simp only [QueryPlane.step, hplace, QueryPlane.compute]
          simp only [ToolRequest.toolCall, hanswer]
        rw [exec_cons, hcompute, Option.bind_some, exec_cons, QueryPlane.step, hcomputed]
        simp only [Option.bind_some, exec_nil, QueryPlane.store, QueryPlane.answer, QueryPlane.goOn,
          List.eraseIdx_set_eq]
      · have hfinished := (htaken.withCache (s.cache.set key text)).finish_query hname (.content text)
        simp only [ToolServer.resume, ToolServer.storeText, hkey, resultOf]
        rw [← h.cache] at hfinished ⊢
        exact hfinished

/-- A query looks in while nothing else happens. -/
theorem call_query (h : QueryPart T s p) {name : String} (hname : Tool.ofName name = some .queryGraph)
    (arguments : Option (PyDict ν)) :
    ∃ es p', exec (QueryPlane.step T.graphify T.engine T.reading) es p = some p' ∧
      QueryPart T (s.call T name arguments) p' := by
  let request : ToolRequest ν γ τ := ⟨name, arguments.getD [], s.holder.current, s.clock⟩
  have harrived : QueryPart T { s with arrived := s.arrived ++ [request] } p :=
    ⟨h.holder, h.cache, h.running, h.answered, h.follows⟩
  have hquery : QueryPart T (s.call T name arguments) _ := dispatch_query harrived hname
  refine ⟨[.call arguments, .lookUp p.running.length], _, ?_, hquery⟩
  have hcall : p.call arguments = { p with running := p.running ++ [(request.toolCall, .taken)] } := by
    rw [QueryPlane.call, h.holder]
    rfl
  have hlast : (p.running ++ [(request.toolCall, (.taken : CallProgress ν γ τ))])[p.running.length]? =
      some (request.toolCall, .taken) := by
    rw [List.getElem?_append_right (Nat.le_refl _), Nat.sub_self]
    rfl
  simp only [exec_cons, QueryPlane.step, Option.bind_some, hcall, hlast, exec_nil]
  rfl

theorem step (h : QueryPart T s p) {e : ServerEvent ν γ} {s' : ToolServer ν γ τ} (hstep : ToolServer.step T e s = some s') :
    ∃ es p', exec (QueryPlane.step T.graphify T.engine T.reading) es p = some p' ∧ QueryPart T s' p' := by
  cases e <;> simp only [ToolServer.step] at hstep
  case publish graph communityMap =>
    cases hstep
    refine ⟨[.publish graph communityMap],
      { p with holder := (p.holder.publish T.graphify graph communityMap).store }, rfl, ?_⟩
    exact ⟨by rw [h.holder], h.cache, h.running, h.answered, h.follows⟩
  case tick ticks =>
    cases hstep
    exact ⟨[], p, rfl, h.holder, h.cache, h.running, h.answered, h.follows⟩
  case call name arguments =>
    cases hstep
    by_cases hname : Tool.ofName name = some .queryGraph
    · exact h.call_query hname arguments
    · refine ⟨[], p, rfl, dispatch_other ?_ hname⟩
      exact ⟨h.holder, h.cache, h.running, h.answered, h.follows⟩
  case compute i =>
    split at hstep <;> cases hstep
    case h_1 request tool snapshot key hi =>
      have hfollows := h.follows _ (List.mem_of_getElem? hi)
      refine ⟨[], p, rfl, h.holder, h.cache, ?_, h.answered, ?_⟩
      · have hsame : RunningCall.asQuery ⟨request, tool, snapshot, key,
            some (executeTool T request.name request.arguments snapshot)⟩ =
              RunningCall.asQuery ⟨request, tool, snapshot, key, none⟩ := rfl
        rw [h.running]
        exact (set_of_same hi hsame).symm
      · intro call hcall
        rcases List.mem_or_eq_of_mem_set hcall with hold | rfl
        · exact h.follows call hold
        · refine ⟨hfollows.key, hfollows.named, ?_⟩
          rintro r ⟨⟩
          rfl
  case resume i =>
    split at hstep <;> cases hstep
    case h_1 hi => exact h.resume hi rfl
  case cancel i =>
    obtain ⟨call, hi, rfl⟩ := Option.map_eq_some_iff.mp hstep
    cases hkey : call.key with
    | none => exact ⟨[], p, rfl, (h.withoutOther hi hkey).finish_cancelled⟩
    | some key =>
      refine ⟨[.cancel (place RunningCall.asQuery s.running i)], _, ?_, (h.withoutQuery hi hkey).finish_cancelled⟩
      simp only [exec_cons, QueryPlane.step, h.running_query hi hkey, Option.bind_some, exec_nil]

end QueryPart

/-- Every run of the server, whatever its tools are called for, is a run of the query plane on
its queries: the same snapshots, the same cache with the same hits and misses, and the same
answers in the same order. -/
theorem query_plane_of_tool_server {cacheSize : Int} {latencyWindow : Nat} {events : List (ServerEvent ν γ)}
    {s : ToolServer ν γ τ} (hrun : exec (ToolServer.step T) events (.initial cacheSize latencyWindow) = some s) :
    ∃ queries p, exec (QueryPlane.step T.graphify T.engine T.reading) queries (.initial cacheSize) = some p ∧
      p.holder = s.holder ∧ p.cache = s.cache ∧ p.running = s.running.filterMap RunningCall.asQuery ∧
      p.answered = s.ended.filterMap EndedCall.asQuery := by
  have hinitial : QueryPart T (.initial cacheSize latencyWindow : ToolServer ν γ τ) (.initial cacheSize) :=
    ⟨rfl, rfl, rfl, rfl, by simp [ToolServer.initial]⟩
  obtain ⟨queries, p, hqueries, hpart⟩ :=
    exec_simulation (QueryPart T) (fun _ _ _ _ h hstep => h.step hstep) hinitial hrun
  exact ⟨queries, p, hqueries, hpart.holder, hpart.cache, hpart.running, hpart.answered⟩

omit [Zero ν] [DecidableEq ν] in
theorem query_plane_of_tool_server_mixedCalls :
    ∃ queries p, exec (QueryPlane.step plainGraphify plainEngine plainIntegers) queries (.initial 512) = some p ∧
      p.cache.hits = 1 ∧ p.cache.misses = 2 ∧
      p.answered.map Prod.snd = [.content "NODE alpha", .content "NODE alpha"] := by
  have hrun : exec (ToolServer.step plainToolbox) mixedCalls (.initial 512 1000) = some _ := rfl
  obtain ⟨queries, p, hqueries, -, hcache, -, hanswered⟩ := query_plane_of_tool_server hrun
  refine ⟨queries, p, hqueries, ?_, ?_, ?_⟩
  · rw [hcache]
    rfl
  · rw [hcache]
    rfl
  · rw [hanswered]
    decide

end Calls
end GraphifyDaemon
