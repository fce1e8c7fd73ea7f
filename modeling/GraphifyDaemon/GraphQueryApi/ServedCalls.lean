import Mathlib.Data.List.Perm.Basic
import GraphifyDaemon.GraphQueryApi.ToolServer

/-! What the tool server keeps through every interleaving: its answers are those of calls that
run alone, its counts add up, and what calls read never goes back. -/
namespace GraphifyDaemon
open Library Library.Trace Library.JsonSchema

variable {ν γ τ : Type}

theorem Tool.queryGraph_accepts (reading : IntReading ν) (arguments : PyDict ν) :
    Tool.queryGraph.schema.accepts reading arguments = queryGraphSchema.accepts reading arguments :=
  rfl

section Calls
variable [Zero ν] [DecidableEq ν] {T : Toolbox ν γ τ} {s : ToolServer ν γ τ}

theorem executeTool_of_ofName {name : String} {tool : Tool} (h : Tool.ofName name = some tool) (arguments : PyDict ν)
    (snapshot : GraphSnapshot γ τ) : executeTool T name arguments snapshot = T.handler arguments snapshot tool := by
  rw [executeTool, h]

/-- What becomes of a call before its thread starts. -/
inductive Dispatched (T : Toolbox ν γ τ) (request : ToolRequest ν γ τ) (s : ToolServer ν γ τ) :
    ToolServer ν γ τ → Prop where
  | answered (hasks : ¬ AsksCache T request) :
    Dispatched T request s (s.finish request (some (sequentialAnswer T request)))
  | started {tool : Tool} {snapshot : GraphSnapshot γ τ} (hasks : ¬ AsksCache T request)
    (hname : Tool.ofName request.name = some tool) (hsnapshot : request.snapshot = some snapshot)
    (haccepts : tool.schema.accepts T.reading request.arguments = true) :
    Dispatched T request s (s.start ⟨request, tool, snapshot, none, none⟩)
  | hit {snapshot : GraphSnapshot γ τ} {key : CacheKey ν} {text : String} {cache : QueryCache ν}
    (hname : Tool.ofName request.name = some .queryGraph) (hsnapshot : request.snapshot = some snapshot)
    (haccepts : Tool.queryGraph.schema.accepts T.reading request.arguments = true)
    (hkey : cacheKwargs T.reading request.arguments snapshot.version = .ok key)
    (hget : s.cache.get key = (some text, cache)) :
    Dispatched T request s ({ s with cache := cache }.finish request (some (.content text)))
  | missed {snapshot : GraphSnapshot γ τ} {key : CacheKey ν} {cache : QueryCache ν}
    (hname : Tool.ofName request.name = some .queryGraph) (hsnapshot : request.snapshot = some snapshot)
    (haccepts : Tool.queryGraph.schema.accepts T.reading request.arguments = true)
    (hkey : cacheKwargs T.reading request.arguments snapshot.version = .ok key)
    (hget : s.cache.get key = (none, cache)) :
    Dispatched T request s ({ s with cache := cache }.start ⟨request, .queryGraph, snapshot, some key, none⟩)

theorem dispatched (T : Toolbox ν γ τ) (request : ToolRequest ν γ τ) (s : ToolServer ν γ τ) :
    Dispatched T request s (s.dispatch T request) := by
  unfold ToolServer.dispatch
  cases hname : Tool.ofName request.name with
  | none =>
    have hanswer : sequentialAnswer T request = unknownTool T request.name := by
      simp only [sequentialAnswer, hname]
    rw [← hanswer]
    exact .answered (by simp [AsksCache, hname])
  | some tool =>
    cases hsnapshot : request.snapshot with
    | none =>
      have hanswer : sequentialAnswer T request = notReady := by
        simp only [sequentialAnswer, hname, hsnapshot]
      rw [← hanswer]
      exact .answered (by simp [AsksCache, hsnapshot])
    | some snapshot =>
      dsimp only [ToolServer.dispatchTool]
      by_cases haccepts : tool.schema.accepts T.reading request.arguments = true
      · rw [if_pos haccepts]
        by_cases hquery : tool = .queryGraph
        · subst hquery
          obtain ⟨key, hkey⟩ := exists_cacheKwargs ((Tool.queryGraph_accepts _ _).symm.trans haccepts) snapshot.version
          rw [if_pos rfl, hkey]
          dsimp only
          split
          · rename_i hget
            exact .hit hname hsnapshot haccepts hkey hget
          · rename_i hget
            exact .missed hname hsnapshot haccepts hkey hget
        · rw [if_neg hquery]
          exact .started (by simp [AsksCache, hname, hquery]) hname hsnapshot haccepts
      · rw [if_neg haccepts]
        have hanswer : sequentialAnswer T request = invalidArguments T tool request.arguments := by
          simp only [sequentialAnswer, hname, hsnapshot, if_neg haccepts]
        have hasks : ¬ AsksCache T request := by
          rintro ⟨hquery, -, hfits⟩
          cases hname.symm.trans hquery
          exact haccepts hfits
        rw [← hanswer]
        exact .answered hasks

/-- The snapshots published so far have distinct versions, below the next one. -/
structure VersionedBy (published : List (GraphSnapshot γ τ)) (holder : SnapshotHolder γ τ) : Prop where
  numbered : ∀ snapshot ∈ published, snapshot.version < holder.nextVersion
  unique : ∀ a ∈ published, ∀ b ∈ published, a.version = b.version → a = b
  current : ∀ snapshot, holder.current = some snapshot → snapshot ∈ published

omit [Zero ν] [DecidableEq ν] in
theorem VersionedBy.publish {G : Graphify ν γ τ} {published : List (GraphSnapshot γ τ)} {holder : SnapshotHolder γ τ}
    (h : VersionedBy published holder) (graph : γ) (communityMap : CommunityMap) :
    ∃ published', published ⊆ published' ∧ VersionedBy published' (holder.publish G graph communityMap).store := by
  cases hpublish : holder.publish G graph communityMap with
  | raised e kept =>
    rw [Outcome.store_raised, publish_raised hpublish]
    exact ⟨published, List.Subset.refl _, h⟩
  | done next =>
    obtain ⟨index, -, rfl⟩ := publish_eq_done.mp hpublish
    rw [Outcome.store_done]
    refine ⟨⟨graph, index, communityMap, holder.nextVersion⟩ :: published, List.subset_cons_self _ _, ?_, ?_, ?_⟩
    · intro snapshot hsnapshot
      rcases List.mem_cons.mp hsnapshot with rfl | hold
      · exact Nat.lt_succ_self _
      · exact Nat.lt_succ_of_lt (h.numbered snapshot hold)
    · intro a ha b hb hab
      rcases List.mem_cons.mp ha with rfl | hold
      · rcases List.mem_cons.mp hb with rfl | hold'
        · rfl
        · exact absurd hab.symm (Nat.ne_of_lt (h.numbered b hold'))
      · rcases List.mem_cons.mp hb with rfl | hold'
        · exact absurd hab (Nat.ne_of_lt (h.numbered a hold))
        · exact h.unique a hold b hold' hab
    · intro snapshot hsnapshot
      cases hsnapshot
      exact List.mem_cons_self

/-- What a running call knows is about its own arguments and its own snapshot. -/
structure Underway (T : Toolbox ν γ τ) (published : List (GraphSnapshot γ τ)) (call : RunningCall ν γ τ) : Prop where
  named : Tool.ofName call.request.name = some call.tool
  taken : call.request.snapshot = some call.snapshot
  published : call.snapshot ∈ published
  accepted : call.tool.schema.accepts T.reading call.request.arguments = true
  key : ∀ key, call.key = some key →
    call.tool = .queryGraph ∧ cacheKwargs T.reading call.request.arguments call.snapshot.version = .ok key
  returned : ∀ r, call.returned = some r → r = T.handler call.request.arguments call.snapshot call.tool

theorem Underway.sequentialAnswer_eq {published : List (GraphSnapshot γ τ)} {call : RunningCall ν γ τ}
    (h : Underway T published call) : sequentialAnswer T call.request =
      resultOf call.tool.name (T.handler call.request.arguments call.snapshot call.tool) := by
  simp only [sequentialAnswer, h.named, h.taken, if_pos h.accepted]

/-- What every interleaving keeps, with the snapshots published so far. -/
structure Served (T : Toolbox ν γ τ) (published : List (GraphSnapshot γ τ)) (s : ToolServer ν γ τ) : Prop where
  versions : VersionedBy published s.holder
  entries : s.cache.Only (Genuine T.engine published)
  running : ∀ call ∈ s.running, Underway T published call
  ended : ∀ call ∈ s.ended, ∀ result, call.result = some result → result = sequentialAnswer T call.request

namespace Served
variable {published : List (GraphSnapshot γ τ)}

theorem initial (cacheSize : Int) (latencyWindow : Nat) :
    Served T ([] : List (GraphSnapshot γ τ)) (.initial cacheSize latencyWindow) where
  versions := ⟨by simp, by simp, by simp [ToolServer.initial, SnapshotHolder.initial]⟩
  entries := LruCache.only_empty _ _
  running := by simp [ToolServer.initial]
  ended := by simp [ToolServer.initial]

theorem withCache (h : Served T published s) {cache : QueryCache ν} (hcache : cache.Only (Genuine T.engine published)) :
    Served T published { s with cache := cache } :=
  ⟨h.versions, hcache, h.running, h.ended⟩

theorem withoutCall (h : Served T published s) (i : Nat) :
    Served T published { s with running := s.running.eraseIdx i } :=
  ⟨h.versions, h.entries, fun call hcall => h.running call (List.mem_of_mem_eraseIdx hcall), h.ended⟩

theorem finish (h : Served T published s) {request : ToolRequest ν γ τ} {result : Option CallToolResult}
    (hresult : ∀ r, result = some r → r = sequentialAnswer T request) : Served T published (s.finish request result) where
  versions := h.versions
  entries := h.entries
  running := h.running
  ended call hcall := by
    rcases List.mem_append.mp hcall with hold | hnew
    · exact h.ended call hold
    · rw [List.mem_singleton.mp hnew]
      exact hresult

theorem start (h : Served T published s) {call : RunningCall ν γ τ} (hcall : Underway T published call) :
    Served T published (s.start call) where
  versions := h.versions
  entries := h.entries
  running c hc := by
    rcases List.mem_append.mp hc with hold | hnew
    · exact h.running c hold
    · rw [List.mem_singleton.mp hnew]
      exact hcall
  ended := h.ended

/-- An entry under the key of a call is the answer to that call: the entry's snapshot is the
one that the call took, since versions are unique. -/
theorem handler_of_genuine (h : Served T published s) (hempty : T.engine.EmptyFiltersAreNone)
    {snapshot : GraphSnapshot γ τ} (hsnapshot : snapshot ∈ published) {arguments : PyDict ν} {key : CacheKey ν}
    {text : String} (haccepts : Tool.queryGraph.schema.accepts T.reading arguments = true)
    (hkey : cacheKwargs T.reading arguments snapshot.version = .ok key) (hgenuine : Genuine T.engine published key text) :
    T.handler arguments snapshot .queryGraph = .ok text := by
  obtain ⟨source, hsource, hversion, hanswer⟩ := hgenuine
  have hsame : source = snapshot :=
    h.versions.unique source hsource snapshot hsnapshot (hversion.trans (cacheKwargs_eq_ok hkey).1)
  rw [hsame] at hanswer
  have hfits : queryGraphSchema.accepts T.reading arguments = true := (Tool.queryGraph_accepts _ _).symm.trans haccepts
  exact (toolQueryGraph_eq_answer hempty hfits hkey snapshot).trans hanswer

theorem dispatch (h : Served T published s) (hempty : T.engine.EmptyFiltersAreNone) {request : ToolRequest ν γ τ}
    (hrequest : request.snapshot = s.holder.current) : Served T published (s.dispatch T request) := by
  have hpublished : ∀ snapshot, request.snapshot = some snapshot → snapshot ∈ published :=
    fun snapshot hs => h.versions.current snapshot (hrequest.symm.trans hs)
  have hdispatched := dispatched T request s
  generalize s.dispatch T request = s' at hdispatched ⊢
  cases hdispatched with
  | answered =>
    apply h.finish
    rintro r ⟨⟩
    rfl
  | started _ hname hsnapshot haccepts =>
    exact h.start ⟨hname, hsnapshot, hpublished _ hsnapshot, haccepts, by simp, by simp⟩
  | @hit snapshot key text cache hname hsnapshot haccepts hkey hget =>
    obtain ⟨hcache, hhit⟩ := h.entries.get key
    rw [hget] at hcache hhit
    apply (h.withCache hcache).finish
    rintro r ⟨⟩
    have hanswer : T.handler request.arguments snapshot .queryGraph = .ok text :=
      h.handler_of_genuine hempty (hpublished _ hsnapshot) haccepts hkey (hhit text rfl)
    simp only [sequentialAnswer, hname, hsnapshot, if_pos haccepts, hanswer]
    rfl
  | @missed snapshot key cache hname hsnapshot haccepts hkey hget =>
    obtain ⟨hcache, -⟩ := h.entries.get key
    rw [hget] at hcache
    apply (h.withCache hcache).start
    refine ⟨hname, hsnapshot, hpublished _ hsnapshot, haccepts, ?_, by simp⟩
    rintro _ ⟨⟩
    exact ⟨rfl, hkey⟩

theorem storeText (h : Served T published s) (hempty : T.engine.EmptyFiltersAreNone) {call : RunningCall ν γ τ}
    (hcall : Underway T published call) {text : String} (hreturned : call.returned = some (.ok text)) :
    Served T published (s.storeText call.key text) := by
  unfold ToolServer.storeText
  cases hkey : call.key with
  | none => exact h
  | some key =>
    obtain ⟨htool, hkwargs⟩ := hcall.key key hkey
    have hfits : queryGraphSchema.accepts T.reading call.request.arguments = true := by
      rw [← Tool.queryGraph_accepts, ← htool]
      exact hcall.accepted
    have hanswer : toolQueryGraph T.engine T.reading call.request.arguments call.snapshot = .ok text := by
      have hhandler := (hcall.returned _ hreturned).symm
      rwa [htool] at hhandler
    apply h.withCache
    apply h.entries.set
    exact ⟨call.snapshot, hcall.published, (cacheKwargs_eq_ok hkwargs).1.symm,
      (toolQueryGraph_eq_answer hempty hfits hkwargs call.snapshot).symm.trans hanswer⟩

theorem resume (h : Served T published s) (hempty : T.engine.EmptyFiltersAreNone) {call : RunningCall ν γ τ}
    (hcall : Underway T published call) {returned : Except PyError String} (hreturned : call.returned = some returned) :
    Served T published (s.resume call returned) := by
  have hresult : ∀ r, some (resultOf call.tool.name returned) = some r → r = sequentialAnswer T call.request := by
    rintro r ⟨⟩
    rw [hcall.sequentialAnswer_eq, ← hcall.returned _ hreturned]
  cases returned with
  | error e => exact h.finish hresult
  | ok text => exact (h.storeText hempty hcall hreturned).finish hresult

theorem compute (h : Served T published s) {i : Nat} {request : ToolRequest ν γ τ} {tool : Tool}
    {snapshot : GraphSnapshot γ τ} {key : Option (CacheKey ν)}
    (hi : s.running[i]? = some ⟨request, tool, snapshot, key, none⟩) :
    Served T published { s with running := s.running.set i ⟨request, tool, snapshot, key,
      some (executeTool T request.name request.arguments snapshot)⟩ } where
  versions := h.versions
  entries := h.entries
  running call hcall := by
    have hbefore := h.running _ (List.mem_of_getElem? hi)
    rcases List.mem_or_eq_of_mem_set hcall with hold | rfl
    · exact h.running call hold
    · refine ⟨hbefore.named, hbefore.taken, hbefore.published, hbefore.accepted, hbefore.key, ?_⟩
      rintro r ⟨⟩
      exact executeTool_of_ofName hbefore.named _ _
  ended := h.ended

theorem step (h : Served T published s) (hempty : T.engine.EmptyFiltersAreNone) {e : ServerEvent ν γ}
    {s' : ToolServer ν γ τ} (hstep : ToolServer.step T e s = some s') : ∃ published', Served T published' s' := by
  cases e <;> simp only [ToolServer.step] at hstep
  case publish graph communityMap =>
    cases hstep
    obtain ⟨published', hmore, hversions⟩ := h.versions.publish (G := T.graphify) graph communityMap
    refine ⟨published', hversions, h.entries.mono ?_, fun call hcall => ?_, h.ended⟩
    · rintro key text ⟨snapshot, hmem, hanswer⟩
      exact ⟨snapshot, hmore hmem, hanswer⟩
    · have hbefore := h.running call hcall
      exact { hbefore with published := hmore hbefore.published }
  case tick ticks =>
    cases hstep
    exact ⟨published, h.versions, h.entries, h.running, h.ended⟩
  case call name arguments =>
    cases hstep
    refine ⟨published, dispatch ?_ hempty rfl⟩
    exact ⟨h.versions, h.entries, h.running, h.ended⟩
  case compute i =>
    split at hstep <;> cases hstep
    case h_1 hi => exact ⟨published, h.compute hi⟩
  case resume i =>
    split at hstep <;> cases hstep
    case h_1 hi => exact ⟨published, (h.withoutCall i).resume hempty (h.running _ (List.mem_of_getElem? hi)) rfl⟩
  case cancel i =>
    obtain ⟨call, hi, rfl⟩ := Option.map_eq_some_iff.mp hstep
    exact ⟨published, (h.withoutCall i).finish (by simp)⟩

end Served

/-- However calls, publications and cancellations interleave, and whatever the cache holds: a
call that gets a result gets the one that it would get alone, on the snapshot it came in
with, be it a text or an error. -/
theorem calls_answered_as_alone (hempty : T.engine.EmptyFiltersAreNone) {cacheSize : Int} {latencyWindow : Nat}
    {events : List (ServerEvent ν γ)} (hrun : exec (ToolServer.step T) events (.initial cacheSize latencyWindow) = some s) :
    ∀ call ∈ s.ended, ∀ result, call.result = some result → result = sequentialAnswer T call.request := by
  obtain ⟨published, h⟩ : ∃ published, Served T published s :=
    exec_invariant_of_step (fun s => ∃ published, Served T published s)
      (fun _ _ _ ⟨_, hs⟩ hstep => hs.step hempty hstep) ⟨[], .initial cacheSize latencyWindow⟩ hrun
  exact h.ended

end Calls
theorem plainToolbox_emptyFiltersAreNone : plainToolbox.engine.EmptyFiltersAreNone :=
  fun _ _ _ _ _ => rfl

/-- A call before the first graph, two on it that a publication overtakes, a repeated query on
each side of it, and calls that are refused or cancelled. -/
def mixedCalls : List (ServerEvent Int PlainGraph) :=
  let question : Option (PyDict Int) := some [("question", .str "alpha")]
  [.call "graph_stats" none, .publish linkedNotes .empty, .call "query_graph" question,
    .call "get_neighbors" (some [("label", .str "alpha"), ("relation_filter", .str "link")]), .tick 3, .compute 0,
    .resume 0,
    .call "query_graph" question, .publish .empty .empty, .call "query_graph" question, .tick 1, .compute 0, .resume 0,
    .cancel 0, .call "get_node" none, .call "delete_node" none]

theorem calls_answered_as_alone_mixedCalls :
    ∃ s, exec (ToolServer.step plainToolbox) mixedCalls (.initial 512 1000) = some s ∧
      s.ended.map EndedCall.result = [some notReady, some (.content "NODE alpha"), some (.content "NODE alpha"),
        some (.content "Neighbors of Alpha:\n  --> Beta [links_to] []"), none,
        some (.isError "Invalid arguments for get_node: is not valid under the given schema"),
        some (.isError "Unknown tool: 'delete_node'")] ∧
      ∀ call ∈ s.ended, ∀ result, call.result = some result → result = sequentialAnswer plainToolbox call.request :=
  have hrun : exec (ToolServer.step plainToolbox) mixedCalls (.initial 512 1000) = some _ := rfl
  ⟨_, hrun, by decide, calls_answered_as_alone plainToolbox_emptyFiltersAreNone hrun⟩

end GraphifyDaemon
