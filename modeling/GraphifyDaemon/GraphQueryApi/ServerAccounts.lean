import GraphifyDaemon.GraphQueryApi.ServedCalls

/-! What the tool server's books say over a whole run, and in which order its calls see the
published snapshots. -/
namespace GraphifyDaemon
open Library Library.Trace Library.OrderStatistic

variable {ν γ τ : Type} [Zero ν] [DecidableEq ν] {T : Toolbox ν γ τ} {s : ToolServer ν γ τ} {latencyWindow : Nat}

omit [Zero ν] in
/-- A lookup counts once, as a hit or as a miss. -/
theorem QueryCache.get_counts (key : CacheKey ν) (cache : QueryCache ν) :
    (cache.get key).2.hits + (cache.get key).2.misses = cache.hits + cache.misses + 1 := by
  unfold QueryCache.get
  split
  · exact (Nat.add_assoc _ _ _).symm
  · dsimp only
    omega

/-- Setting an item to itself. -/
theorem set_of_getElem? {α : Type} {xs : List α} {i : Nat} {x : α} (h : xs[i]? = some x) : xs.set i x = xs := by
  obtain ⟨hi, rfl⟩ := List.getElem?_eq_some_iff.mp h
  exact List.set_getElem_self hi

/-- Every call that came in is running or over, but for those that are pending, and the times of
those that are over are recorded. -/
structure AccountedBut (latencyWindow : Nat) (pending : List (ToolRequest ν γ τ)) (s : ToolServer ν γ τ) : Prop where
  calls : s.arrived.Perm (pending ++ (s.running.map RunningCall.request ++ s.ended.map EndedCall.request))
  window : s.metrics.latencyWindow = latencyWindow
  samples : s.metrics.samples "query" = (s.ended.map EndedCall.duration).rtake latencyWindow

namespace AccountedBut
variable {pending : List (ToolRequest ν γ τ)} {request : ToolRequest ν γ τ}

omit [Zero ν] [DecidableEq ν] in
theorem finish (h : AccountedBut latencyWindow (request :: pending) s) (result : Option CallToolResult) :
    AccountedBut latencyWindow pending (s.finish request result) where
  calls := by
    apply h.calls.trans
    simp only [ToolServer.finish, List.map_append, List.map_cons, List.map_nil, ← List.append_assoc]
    exact (List.perm_append_singleton request _).symm
  window := h.window
  samples := by
    have hrecord : (s.finish request result).metrics.samples "query" =
        (s.metrics.samples "query" ++ [s.clock - request.start]).rtake s.metrics.latencyWindow :=
      apply_samples (.recordLatency "query" _)
    rw [hrecord, h.samples, h.window, rtake_append_singleton]
    simp [ToolServer.finish]

omit [Zero ν] [DecidableEq ν] in
theorem start {call : RunningCall ν γ τ} (h : AccountedBut latencyWindow (call.request :: pending) s) :
    AccountedBut latencyWindow pending (s.start call) where
  calls := by
    apply h.calls.trans
    simp only [ToolServer.start, List.map_append, List.map_cons, List.map_nil, List.cons_append]
    rw [← List.append_assoc, ← List.append_assoc]
    apply (List.perm_append_singleton call.request _).symm.trans
    simp only [List.append_assoc]
    exact ((List.perm_append_comm.append_left _).append_left _)
  window := h.window
  samples := h.samples

omit [Zero ν] [DecidableEq ν] in
theorem withCache (h : AccountedBut latencyWindow pending s) (cache : QueryCache ν) :
    AccountedBut latencyWindow pending { s with cache := cache } :=
  ⟨h.calls, h.window, h.samples⟩

omit [Zero ν] [DecidableEq ν] in
/-- A running call that is taken off the list is pending again. -/
theorem withoutCall (h : AccountedBut latencyWindow pending s) {i : Nat} {call : RunningCall ν γ τ}
    (hi : s.running[i]? = some call) :
    AccountedBut latencyWindow (call.request :: pending) { s with running := s.running.eraseIdx i } where
  calls := by
    apply h.calls.trans
    obtain ⟨hlt, rfl⟩ := List.getElem?_eq_some_iff.mp hi
    have hperm : (s.running.map RunningCall.request).Perm
        (s.running[i].request :: (s.running.eraseIdx i).map RunningCall.request) :=
      ((List.getElem_cons_eraseIdx_perm hlt).symm.map RunningCall.request)
    apply ((hperm.append_right _).append_left pending).trans
    exact List.perm_middle
  window := h.window
  samples := h.samples

theorem dispatch (h : AccountedBut latencyWindow [request] s) : AccountedBut latencyWindow [] (s.dispatch T request) := by
  have hdispatched := dispatched T request s
  generalize s.dispatch T request = s' at hdispatched ⊢
  cases hdispatched with
  | answered => exact h.finish _
  | started => exact h.start
  | hit => exact (h.withCache _).finish _
  | missed => exact (h.withCache _).start

omit [Zero ν] in
theorem resume {call : RunningCall ν γ τ} (h : AccountedBut latencyWindow [call.request] s)
    (returned : Except PyError String) : AccountedBut latencyWindow [] (s.resume call returned) := by
  cases returned with
  | error e => exact h.finish _
  | ok text =>
    cases hkey : call.key with
    | none =>
      simp only [ToolServer.resume, ToolServer.storeText, hkey]
      exact h.finish _
    | some key =>
      simp only [ToolServer.resume, ToolServer.storeText, hkey]
      exact (h.withCache _).finish _

theorem step (h : AccountedBut latencyWindow [] s) {e : ServerEvent ν γ} {s' : ToolServer ν γ τ}
    (hstep : ToolServer.step T e s = some s') : AccountedBut latencyWindow [] s' := by
  cases e <;> simp only [ToolServer.step] at hstep
  case publish graph communityMap =>
    cases hstep
    exact ⟨h.calls, h.window, h.samples⟩
  case tick ticks =>
    cases hstep
    exact ⟨h.calls, h.window, h.samples⟩
  case call name arguments =>
    cases hstep
    apply dispatch
    exact ⟨(List.perm_append_singleton _ _).trans (h.calls.cons _), h.window, h.samples⟩
  case compute i =>
    split at hstep <;> cases hstep
    case h_1 request tool snapshot key hi =>
      refine ⟨?_, h.window, h.samples⟩
      have hsame : (s.running.map RunningCall.request)[i]? = some request := by
        rw [List.getElem?_map, hi]
        rfl
      simp only [List.map_set]
      rw [set_of_getElem? hsame]
      exact h.calls
  case resume i =>
    split at hstep <;> cases hstep
    case h_1 hi => exact (h.withoutCall hi).resume _
  case cancel i =>
    obtain ⟨call, hi, rfl⟩ := Option.map_eq_some_iff.mp hstep
    exact (h.withoutCall hi).finish _

end AccountedBut
/-- The lookups of a server, by the calls that came in. -/
def LookupsCounted (T : Toolbox ν γ τ) (s : ToolServer ν γ τ) : Prop :=
  s.cache.hits + s.cache.misses = s.arrived.countP fun request => AsksCache T request

private theorem lookupsCounted_dispatch {request : ToolRequest ν γ τ}
    (h : s.cache.hits + s.cache.misses + (if AsksCache T request then 1 else 0) =
      s.arrived.countP fun request => AsksCache T request) : LookupsCounted T (s.dispatch T request) := by
  have hdispatched := dispatched T request s
  generalize s.dispatch T request = s' at hdispatched ⊢
  have hlookup : ∀ {snapshot key found cache}, Tool.ofName request.name = some .queryGraph →
      request.snapshot = some snapshot → Tool.queryGraph.schema.accepts T.reading request.arguments = true →
      s.cache.get key = (found, cache) → cache.hits + cache.misses = s.arrived.countP fun request => AsksCache T request := by
    intro snapshot key found cache hname hsnapshot haccepts hget
    have hcounts := QueryCache.get_counts key s.cache
    rw [hget] at hcounts
    rw [hcounts, ← h, if_pos ⟨hname, by rw [hsnapshot]; rfl, haccepts⟩]
  cases hdispatched with
  | answered hasks | started hasks =>
    rw [if_neg hasks] at h
    exact h
  | hit hname hsnapshot haccepts _ hget => exact hlookup hname hsnapshot haccepts hget
  | missed hname hsnapshot haccepts _ hget => exact hlookup hname hsnapshot haccepts hget

private theorem lookupsCounted_step (h : LookupsCounted T s) {e : ServerEvent ν γ} {s' : ToolServer ν γ τ}
    (hstep : ToolServer.step T e s = some s') : LookupsCounted T s' := by
  cases e <;> simp only [ToolServer.step] at hstep
  case publish | tick =>
    cases hstep
    exact h
  case call name arguments =>
    cases hstep
    apply lookupsCounted_dispatch
    rw [List.countP_append, List.countP_singleton, ← h]
    simp
  case compute i =>
    split at hstep <;> cases hstep
    exact h
  case resume i =>
    split at hstep <;> cases hstep
    case h_1 request tool snapshot key returned hi =>
      cases returned with
      | error => exact h
      | ok text => cases key <;> exact h
  case cancel i =>
    obtain ⟨call, hi, rfl⟩ := Option.map_eq_some_iff.mp hstep
    exact h

/-- In every reachable state each call that came in is either running or over, each that is over
has its time among the samples of which the last make the percentiles, and each `query_graph`
call that was accepted on a snapshot is one hit or one miss. -/
theorem server_accounts_add_up {cacheSize : Int} {events : List (ServerEvent ν γ)}
    (hrun : exec (ToolServer.step T) events (.initial cacheSize latencyWindow) = some s) :
    let recent := (s.ended.map EndedCall.duration).rtake latencyWindow
    let percentiles := s.metrics.latencyPercentiles "query"
    s.arrived.Perm (s.running.map RunningCall.request ++ s.ended.map EndedCall.request) ∧
      s.cache.hits + s.cache.misses = s.arrived.countP (fun request => AsksCache T request) ∧
      (recent = [] → percentiles = ⟨0, 0, 0⟩) ∧
      (recent ≠ [] → AtRank recent (percentileRank 50 recent.length) percentiles.p50 ∧
        AtRank recent (percentileRank 95 recent.length) percentiles.p95 ∧
        AtRank recent (percentileRank 99 recent.length) percentiles.p99) := by
  intro recent percentiles
  have haccounted : AccountedBut latencyWindow [] s := by
    apply exec_invariant_of_step (AccountedBut latencyWindow []) (fun _ _ _ hs hstep => hs.step hstep) _ hrun
    exact ⟨List.Perm.refl _, rfl, (List.rtake_nil _).symm⟩
  have hlookups : LookupsCounted T s :=
    exec_invariant_of_step (LookupsCounted T) (fun _ _ _ hs hstep => lookupsCounted_step hs hstep)
      (show LookupsCounted T (.initial cacheSize latencyWindow) from rfl) hrun
  have hsamples : s.metrics.samples "query" = recent := haccounted.samples
  refine ⟨haccounted.calls, hlookups, ?_, ?_⟩
  · intro hnone
    exact latencyPercentiles_of_none (hsamples.trans hnone)
  · intro hsome
    have hpercentiles : percentiles = _ := latencyPercentiles_of_some hsamples hsome
    rw [hpercentiles]
    exact ⟨atRank_pct hsome 50, atRank_pct hsome 95, atRank_pct hsome 99⟩

omit [Zero ν] [DecidableEq ν] in
theorem server_accounts_add_up_mixedCalls :
    ∃ s, exec (ToolServer.step plainToolbox) mixedCalls (.initial 512 1000) = some s ∧
      s.ended.map EndedCall.duration = [0, 3, 0, 4, 1, 0, 0] ∧
      s.arrived.Perm (s.running.map RunningCall.request ++ s.ended.map EndedCall.request) ∧
      s.cache.hits + s.cache.misses = s.arrived.countP (fun request => AsksCache plainToolbox request) ∧
      AtRank [0, 3, 0, 4, 1, 0, 0] 3 (s.metrics.latencyPercentiles "query").p50 ∧
      AtRank [0, 3, 0, 4, 1, 0, 0] 6 (s.metrics.latencyPercentiles "query").p95 := by
  obtain ⟨s, hrun, hdurations⟩ : ∃ s, exec (ToolServer.step plainToolbox) mixedCalls (.initial 512 1000) = some s ∧
      s.ended.map EndedCall.duration = [0, 3, 0, 4, 1, 0, 0] := ⟨_, rfl, by decide⟩
  obtain ⟨hcalls, hlookups, -, hranks⟩ := server_accounts_add_up hrun
  rw [hdurations] at hranks
  obtain ⟨hmedian, htail, -⟩ := hranks (by decide)
  exact ⟨s, hrun, hdurations, hcalls, hlookups, hmedian, htail⟩

section Reads

/-- Where there is a snapshot, there is the same one later, or a newer one. -/
def NoOlder (before after : Option (GraphSnapshot γ τ)) : Prop :=
  ∀ a, before = some a → ∃ b, after = some b ∧ (a = b ∨ a.version < b.version)

omit [Zero ν] [DecidableEq ν] in
theorem NoOlder.trans {a b c : Option (GraphSnapshot γ τ)} (hab : NoOlder a b) (hbc : NoOlder b c) : NoOlder a c := by
  intro x hx
  obtain ⟨y, hy, hxy⟩ := hab x hx
  obtain ⟨z, hz, hyz⟩ := hbc y hy
  refine ⟨z, hz, ?_⟩
  rcases hxy with rfl | hxy
  · exact hyz
  · rcases hyz with rfl | hyz
    · exact .inr hxy
    · exact .inr (hxy.trans hyz)

omit [Zero ν] [DecidableEq ν] in
theorem NoOlder.refl (a : Option (GraphSnapshot γ τ)) : NoOlder a a := fun x hx => ⟨x, hx, .inl rfl⟩

/-- What calls read, in the order in which they came in. -/
structure ReadsForward (s : ToolServer ν γ τ) : Prop where
  numbered : ∀ snapshot, s.holder.current = some snapshot → snapshot.version < s.holder.nextVersion
  pairwise : s.arrived.Pairwise fun a b => NoOlder a.snapshot b.snapshot
  upToNow : ∀ request ∈ s.arrived, NoOlder request.snapshot s.holder.current

private theorem dispatch_frame (request : ToolRequest ν γ τ) (s : ToolServer ν γ τ) :
    (s.dispatch T request).holder = s.holder ∧ (s.dispatch T request).arrived = s.arrived := by
  have hdispatched := dispatched T request s
  generalize s.dispatch T request = s' at hdispatched ⊢
  cases hdispatched <;> exact ⟨rfl, rfl⟩

/-- Only a publication changes what is published. -/
theorem holder_of_step {e : ServerEvent ν γ} {s' : ToolServer ν γ τ} (hstep : ToolServer.step T e s = some s')
    (hnone : ∀ graph communityMap, e ≠ .publish graph communityMap) : s'.holder = s.holder := by
  cases e <;> simp only [ToolServer.step] at hstep
  case publish graph communityMap => exact absurd rfl (hnone graph communityMap)
  case tick ticks =>
    cases hstep
    rfl
  case call name arguments =>
    cases hstep
    exact (dispatch_frame _ _).1
  case compute i =>
    split at hstep <;> cases hstep
    rfl
  case resume i =>
    split at hstep <;> cases hstep
    case h_1 request tool snapshot key returned hi =>
      cases returned with
      | error => rfl
      | ok text => cases key <;> rfl
  case cancel i =>
    obtain ⟨call, hi, rfl⟩ := Option.map_eq_some_iff.mp hstep
    rfl

theorem ReadsForward.step (h : ReadsForward s) {e : ServerEvent ν γ} {s' : ToolServer ν γ τ}
    (hstep : ToolServer.step T e s = some s') : ReadsForward s' := by
  cases e <;> simp only [ToolServer.step] at hstep
  case publish graph communityMap =>
    cases hstep
    cases hpublish : s.holder.publish T.graphify graph communityMap with
    | raised e kept =>
      rw [Outcome.store_raised, publish_raised hpublish]
      exact h
    | done next =>
      obtain ⟨index, -, rfl⟩ := publish_eq_done.mp hpublish
      rw [Outcome.store_done]
      have hnewer : NoOlder s.holder.current (some ⟨graph, index, communityMap, s.holder.nextVersion⟩) :=
        fun a ha => ⟨_, rfl, .inr (h.numbered a ha)⟩
      refine ⟨?_, h.pairwise, fun request hrequest => (h.upToNow request hrequest).trans hnewer⟩
      rintro snapshot ⟨⟩
      exact Nat.lt_succ_self _
  case tick ticks =>
    cases hstep
    exact ⟨h.numbered, h.pairwise, h.upToNow⟩
  case call name arguments =>
    cases hstep
    unfold ToolServer.call
    obtain ⟨hholder, harrived⟩ := dispatch_frame (T := T) ⟨name, arguments.getD [], s.holder.current, s.clock⟩
      { s with arrived := s.arrived ++ [⟨name, arguments.getD [], s.holder.current, s.clock⟩] }
    refine ⟨?_, ?_, ?_⟩
    · rw [hholder]
      exact h.numbered
    · rw [harrived]
      apply List.pairwise_append.mpr
      refine ⟨h.pairwise, List.pairwise_singleton _ _, ?_⟩
      intro before hbefore after hafter
      rw [List.mem_singleton.mp hafter]
      exact h.upToNow before hbefore
    · rw [harrived, hholder]
      intro request hrequest
      rcases List.mem_append.mp hrequest with hold | hnew
      · exact h.upToNow request hold
      · rw [List.mem_singleton.mp hnew]
        exact NoOlder.refl _
  case compute i =>
    split at hstep <;> cases hstep
    exact ⟨h.numbered, h.pairwise, h.upToNow⟩
  case resume i =>
    split at hstep <;> cases hstep
    case h_1 request tool snapshot key returned hi =>
      cases returned with
      | error => exact ⟨h.numbered, h.pairwise, h.upToNow⟩
      | ok text => cases key <;> exact ⟨h.numbered, h.pairwise, h.upToNow⟩
  case cancel i =>
    obtain ⟨call, hi, rfl⟩ := Option.map_eq_some_iff.mp hstep
    exact ⟨h.numbered, h.pairwise, h.upToNow⟩

/-- Of two calls the later one reads the same snapshot or a newer one, and it is never told that
the graph is not ready where the earlier one had a graph. -/
theorem reads_never_go_back {cacheSize : Int} {events : List (ServerEvent ν γ)}
    (hrun : exec (ToolServer.step T) events (.initial cacheSize latencyWindow) = some s) :
    s.arrived.Pairwise fun earlier later => NoOlder earlier.snapshot later.snapshot := by
  have hforward : ReadsForward s := by
    apply exec_invariant_of_step ReadsForward (fun _ _ _ hs hstep => hs.step hstep) _ hrun
    exact ⟨by simp [ToolServer.initial, SnapshotHolder.initial], List.Pairwise.nil, by simp [ToolServer.initial]⟩
  exact hforward.pairwise

omit [Zero ν] [DecidableEq ν] in
theorem reads_never_go_back_mixedCalls :
    ∃ s, exec (ToolServer.step plainToolbox) mixedCalls (.initial 512 1000) = some s ∧
      s.arrived.map (fun request => request.snapshot.map GraphSnapshot.version) =
        [none, some 1, some 1, some 1, some 2, some 2, some 2] ∧
      s.arrived.Pairwise fun earlier later => NoOlder earlier.snapshot later.snapshot :=
  have hrun : exec (ToolServer.step plainToolbox) mixedCalls (.initial 512 1000) = some _ := rfl
  ⟨_, hrun, by decide, reads_never_go_back hrun⟩

end Reads
end GraphifyDaemon
