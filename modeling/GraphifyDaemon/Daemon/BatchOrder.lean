import GraphifyDaemon.Daemon.Bookkeeping
import GraphifyDaemon.Daemon.Compile
import GraphifyDaemon.VaultCompiler.ReferenceGraph

/-! The order in which accepted changes are compiled. Nothing but luck keeps two batches
that wait for the coordinator lock in order. -/
namespace GraphifyDaemon
open Library Library.Trace

/-- A batch is taken from the queue only when no batch taken before still waits for the
coordinator lock. -/
def TakesInTurn : ThreadEvent → Threads → Prop
  | .flush, s => s.pending ≠ [] → s.waiting = []
  | .shutdown, s => s.shutdown = .rejected → s.pending ≠ [] → s.waiting = []
  | _, _ => True

instance (e : ThreadEvent) (s : Threads) : Decidable (TakesInTurn e s) :=
  match e with
  | .flush => inferInstanceAs (Decidable (s.pending ≠ [] → s.waiting = []))
  | .shutdown => inferInstanceAs (Decidable (s.shutdown = .rejected → s.pending ≠ [] → s.waiting = []))
  | .queueChange _ | .timerFires _ | .acquireBatch _ | .endCompile _ | .release | .idleFires _ | .acquireIdle =>
    instDecidableTrue

/-- Compiled, waiting and pending changes are together the accepted ones, in order. -/
structure InOrder (s : Threads) : Prop where
  whole : compiledTickets s.log ++ s.waiting.flatten ++ s.shutdown.taken ++ s.pending = s.accepted
  single : s.waiting.length ≤ 1
  turn : s.shutdown.taken ≠ [] → s.waiting = []

private theorem inOrder_initial : InOrder Threads.initial := by
  constructor <;> simp [Threads.initial, compiledTickets, ShutdownStage.taken]

/-- A step that touches none of the five lists. -/
theorem InOrder.frame {s s' : Threads} (hs : InOrder s) (hlog : compiledTickets s'.log = compiledTickets s.log)
    (hwaiting : s'.waiting = s.waiting) (htaken : s'.shutdown.taken = s.shutdown.taken)
    (hpending : s'.pending = s.pending) (haccepted : s'.accepted = s.accepted) : InOrder s' := by
  obtain ⟨whole, single, turn⟩ := hs
  constructor
  · rw [hlog, hwaiting, htaken, hpending, haccepted, whole]
  · rw [hwaiting]
    exact single
  · rw [hwaiting, htaken]
    exact turn

theorem InOrder.flushBatch {s : Threads} (hs : InOrder s) (hbooks : Bookkeeping s) (hp : s.pending ≠ [])
    (hwaiting : s.waiting = []) (timer : Timers) :
    InOrder { s with pending := [], waiting := s.waiting ++ [s.pending], timer := timer } := by
  have htaken : s.shutdown.taken = [] := by
    cases hstage : s.shutdown with
    | draining pending => exact absurd (hbooks.emptied (by simp [hstage, ShutdownStage.emptied])) hp
    | _ => rfl
  refine ⟨?_, by simp [hwaiting], by simp [htaken]⟩
  simpa [hwaiting, htaken] using hs.whole

theorem InOrder.acquireBatch {s : Threads} (hs : InOrder s) {k : Nat} {batch : List Ticket}
    (hk : s.waiting[k]? = some batch) :
    InOrder ({ s with waiting := s.waiting.eraseIdx k }.enter (.compiling false) (.batch batch)) := by
  obtain ⟨hlt, hbatch⟩ := List.getElem?_eq_some_iff.mp hk
  have hsingle := hs.single
  have hzero : k = 0 := by omega
  subst hzero
  have hwaiting : s.waiting = [batch] := by
    obtain ⟨first, hfirst⟩ := List.length_eq_one_iff.mp (show s.waiting.length = 1 by omega)
    simp [hfirst] at hk
    rw [hfirst, hk]
  have htaken : s.shutdown.taken = [] := by
    by_contra hne
    simp [hs.turn hne] at hwaiting
  refine ⟨?_, by simp [Threads.enter, hwaiting], fun _ => by simp [Threads.enter, hwaiting]⟩
  have hwhole := hs.whole
  simp only [hwaiting, htaken] at hwhole
  simpa [Threads.enter, hwaiting, htaken, compiledTickets_append] using hwhole

theorem InOrder.drain {s : Threads} (hs : InOrder s) (hstage : s.shutdown = .rejected)
    (hok : s.pending ≠ [] → s.waiting = []) : InOrder s.drain := by
  have hwhole := hs.whole
  simp only [hstage, ShutdownStage.taken] at hwhole
  by_cases hp : s.pending = []
  · exact ⟨by simpa [Threads.drain, hp, ShutdownStage.taken] using hwhole, hs.single,
      by simp [Threads.drain, hp, ShutdownStage.taken]⟩
  · exact ⟨by simpa [Threads.drain, hp, hok hp, ShutdownStage.taken] using hwhole, hs.single, fun _ => hok hp⟩

theorem InOrder.acquireDrained {s : Threads} (hs : InOrder s) {pending : List Ticket}
    (hstage : s.shutdown = .draining pending) :
    InOrder ({ s with shutdown := .compilingDrained }.enter (.compiling true) (.batch pending)) := by
  have hwhole := hs.whole
  have hturn := hs.turn
  simp only [hstage, ShutdownStage.taken] at hwhole hturn
  refine ⟨?_, hs.single, by simp [Threads.enter, ShutdownStage.taken]⟩
  by_cases hp : pending = []
  · simpa [Threads.enter, compiledTickets_append, hp, ShutdownStage.taken] using hwhole
  · simpa [Threads.enter, compiledTickets_append, hturn hp, ShutdownStage.taken] using hwhole

private theorem inOrder_step {e : ThreadEvent} {s s' : Threads} (hok : TakesInTurn e s) (hbooks : Bookkeeping s)
    (hs : InOrder s) (h : Threads.step e s = some s') : InOrder s' := by
  cases Threads.move_of_step h with
  | ignored => exact hs
  | accepted c => exact ⟨by simp [← hs.whole], hs.single, hs.turn⟩
  | flushBatch _ hpending => exact hs.flushBatch hbooks hpending (hok hpending) _
  | acquireBatch _ hk => exact hs.acquireBatch hk
  | leaveDrained hholder =>
    exact hs.frame rfl rfl (by simp [hbooks.drainedHolder (.inr hholder), ShutdownStage.taken]) rfl rfl
  | leavePersisting hholder =>
    exact hs.frame rfl rfl (by simp [hbooks.persistingHolder hholder, ShutdownStage.taken]) rfl rfl
  | acquireIdle => exact hs.frame (by simp [Threads.enter, compiledTickets_append]) rfl rfl rfl rfl
  | timerFires | flushNothing | endCompile | leave | idleFires => exact hs.frame rfl rfl rfl rfl rfl
  | drain hstage => exact hs.drain hstage (hok hstage)
  | acquireDrained hstage => exact hs.acquireDrained hstage
  | stop hstage | reject hstage | stopTimers hstage | join hstage =>
    exact hs.frame rfl rfl (by simp [hstage, ShutdownStage.taken]) rfl rfl
  | persist hstage =>
    exact hs.frame (by simp [Threads.enter, compiledTickets_append]) rfl
      (by simp [Threads.enter, hstage, ShutdownStage.taken]) rfl rfl

/-- What was compiled is a first part of what was accepted, in that order. -/
theorem compiled_prefix {events : List ThreadEvent} {s : Threads}
    (hturn : Along Threads.step TakesInTurn events .initial) (hrun : exec Threads.step events .initial = some s) :
    compiledTickets s.log <+: s.accepted := by
  have hinvariant : Bookkeeping s ∧ InOrder s :=
    exec_invariant (fun s => Bookkeeping s ∧ InOrder s)
      (fun _ _ _ hok hs hstep => ⟨bookkeeping_step hs.1 hstep, inOrder_step hok hs.1 hs.2 hstep⟩)
      ⟨bookkeeping_initial, inOrder_initial⟩ hturn hrun
  rw [← hinvariant.2.whole, List.append_assoc, List.append_assoc]
  exact List.prefix_append _ _

section Replay
variable {ν γ τ : Type} [Zero ν] (G : Graphify ν γ τ) (nested : List String) (see : Ticket → Observation ν)

/-- What a section under the lock does to the daemon. -/
def runSection (ran : Section × CompileObservation) (d : Daemon ν γ τ) : Outcome PyError (Daemon ν γ τ) :=
  match ran.1 with
  | .batch changes => compileBatch G nested (changes.map fun t => (t.change, see t)) ran.2 d
  | .cadence => runSlowCadenceCycle G ran.2.cadence d
  | .persist => saveCache ran.2.cadence.saveFault d

variable {G nested see}

private theorem runSection_done {ran : Section × CompileObservation} {d d' : Daemon ν γ τ}
    (h : runSection G nested see ran d = .done d') (p : VaultPath) :
    d'.cache.get p = (compiledTickets [ran.1]).foldl
        (fun entry t => entryAfter nested p entry (t.change, see t)) (d.cache.get p) ∧
    (d'.files.get p).isSome = (compiledTickets [ran.1]).foldl
        (fun present t => presentAfter nested p present t.change) (d.files.get p).isSome := by
  unfold runSection at h
  split at h
  · rename_i changes hran
    obtain ⟨hextract, hsync⟩ := compileBatch_done h
    have hentry := extractBatch_get hextract p
    have hrow := syncBatch_present hsync p
    rw [finalEntry, List.foldl_map] at hentry
    rw [List.foldl_map] at hrow
    simpa [hran] using ⟨hentry, hrow⟩
  · rename_i hran
    obtain ⟨hcache, hfiles, -⟩ := runSlowCadenceCycle_store G ran.2.cadence d
    rw [h, Outcome.store_done] at hcache hfiles
    simp [hran, hcache, hfiles]
  · rename_i hran
    unfold saveCache at h
    split at h <;> cases h
    simp [hran]

/-- A whole run of the lock's sections, as the compiled changes one after the other. -/
theorem runSections_done {ran : List (Section × CompileObservation)} {d d' : Daemon ν γ τ}
    (h : Outcome.forEach (runSection G nested see) ran d = .done d') (p : VaultPath) :
    d'.cache.get p = (compiledTickets (ran.map Prod.fst)).foldl
        (fun entry t => entryAfter nested p entry (t.change, see t)) (d.cache.get p) ∧
    (d'.files.get p).isSome = (compiledTickets (ran.map Prod.fst)).foldl
        (fun present t => presentAfter nested p present t.change) (d.files.get p).isSome := by
  have hentry : d'.cache.get p = ran.foldl (fun entry r => (compiledTickets [r.1]).foldl
      (fun entry t => entryAfter nested p entry (t.change, see t)) entry) (d.cache.get p) :=
    Outcome.forEach_part (fun d => d.cache.get p) (fun _ _ _ _ hbody => (runSection_done hbody p).1) h
  have hrow : (d'.files.get p).isSome = ran.foldl (fun present r => (compiledTickets [r.1]).foldl
      (fun present t => presentAfter nested p present t.change) present) (d.files.get p).isSome :=
    Outcome.forEach_part (fun d => (d.files.get p).isSome) (fun _ _ _ _ hbody => (runSection_done hbody p).2) h
  have hflat : compiledTickets (ran.map Prod.fst) = ran.flatMap (fun r => compiledTickets [r.1]) := by
    simp [compiledTickets, List.flatMap_map]
  rw [hflat, List.foldl_flatMap, List.foldl_flatMap]
  exact ⟨hentry, hrow⟩

omit [Zero ν] in
private theorem foldl_entryAfter_isSome {p : VaultPath} {tickets : List Ticket}
    (hkept : ∀ t ∈ tickets, ¬ t.change.drops p) :
    ∀ entry : Option (PyDict ν), entry.isSome = true →
      (tickets.foldl (fun entry t => entryAfter nested p entry (t.change, see t)) entry).isSome = true := by
  induction tickets with
  | nil => exact fun _ h => h
  | cons t rest ih =>
    intro entry h
    have hdrop := hkept t (by simp)
    have hstep : (entryAfter nested p entry (t.change, see t)).isSome = true := by
      by_cases hr : t.change.reaches nested p <;> simp [entryAfter, hdrop, hr, h]
    rw [List.foldl_cons]
    exact ih (fun u hu => hkept u (by simp [hu])) _ hstep

private theorem foldl_presentAfter {p : VaultPath} {tickets : List Ticket} (hkept : ∀ t ∈ tickets, ¬ t.change.drops p) :
    tickets.foldl (fun present t => presentAfter nested p present t.change) true = true := by
  induction tickets with
  | nil => rfl
  | cons t rest ih =>
    have hdrop := hkept t (by simp)
    have hstep : presentAfter nested p true t.change = true := by simp [presentAfter, hdrop]
    rw [List.foldl_cons, hstep]
    exact ih (fun u hu => hkept u (by simp [hu]))

end Replay

private theorem accepted_nodup {events : List ThreadEvent} {s : Threads}
    (hrun : exec Threads.step events .initial = some s) : s.accepted.Nodup := by
  have hnumbered : s.accepted.map Ticket.number = List.range s.accepted.length := by
    refine exec_invariant_of_step (fun s => s.accepted.map Ticket.number = List.range s.accepted.length) ?_ rfl hrun
    intro e s s' hs hstep
    rcases accepted_step hstep with hsame | ⟨c, hnew⟩
    · rw [hsame, hs]
    · rw [hnew, List.map_append, hs, List.length_append, List.length_singleton, List.range_succ]
      rfl
  exact List.Nodup.of_map Ticket.number (hnumbered ▸ List.nodup_range)

private theorem prefix_of_mem {α : Type} {taken before after : List α} {t : α} (hnodup : (before ++ t :: after).Nodup)
    (hbefore : taken <+: before ++ t :: after) (hmem : t ∈ taken) :
    ∃ rest, rest <+: after ∧ taken = before ++ t :: rest := by
  have hfresh : t ∉ before := fun hb => (List.nodup_append.mp hnodup).2.2 t hb t (by simp) rfl
  obtain ⟨left, hleft⟩ := hbefore
  rcases List.append_eq_append_iff.mp hleft with ⟨more, hbefore, -⟩ | ⟨more, htaken, hrest⟩
  · exact absurd (by simp [hbefore, hmem]) hfresh
  · cases more with
    | nil => exact absurd (by simpa [htaken] using hmem) hfresh
    | cons u rest =>
      obtain ⟨rfl, rfl⟩ := List.cons_eq_cons.mp hrest
      exact ⟨rest, List.prefix_append _ _, htaken⟩

/-- In every run that takes batches in turn, changes are compiled in the order of their
acceptance. So a file created, or created again, and not removed since is in the cache
and in the table once that change is compiled. -/
theorem batches_compiled_in_order {ν γ τ : Type} [Zero ν] {events : List ThreadEvent} {s : Threads}
    (hturn : Along Threads.step TakesInTurn events .initial) (hrun : exec Threads.step events .initial = some s) :
    compiledTickets s.log <+: s.accepted ∧
    ∀ (G : Graphify ν γ τ) (nested : List String) (see : Ticket → Observation ν)
      (ran : List (Section × CompileObservation)) (d d' : Daemon ν γ τ) (before after : List Ticket) (t : Ticket)
      (p : VaultPath), ran.map Prod.fst = s.log → Outcome.forEach (runSection G nested see) ran d = .done d' →
      s.accepted = before ++ t :: after → t ∈ compiledTickets s.log → t.change = .created p →
      (extractionOf (t.change, see t)).isSome = true → (∀ u ∈ after, ¬ u.change.drops p) →
      (d'.cache.get p).isSome = true ∧ (d'.files.get p).isSome = true := by
  have hbefore := compiled_prefix hturn hrun
  refine ⟨hbefore, ?_⟩
  intro G nested see ran d d' before after t p hran hdone haccepted hmem ht hextract hkept
  obtain ⟨hentry, hrow⟩ := runSections_done hdone p
  have hnodup := accepted_nodup hrun
  rw [haccepted] at hnodup hbefore
  obtain ⟨rest, hrest, hcompiled⟩ := prefix_of_mem hnodup hbefore hmem
  rw [hran, hcompiled, List.foldl_append, List.foldl_cons] at hentry hrow
  have hreaches : t.change.reaches nested p := by
    rw [ht]
    exact ⟨rfl, rfl⟩
  rw [hentry, hrow]
  constructor
  · refine foldl_entryAfter_isSome (fun u hu => hkept u (hrest.subset hu)) _ ?_
    simp [entryAfter, hreaches, hextract]
  · rw [presentAfter, if_pos hreaches]
    exact foldl_presentAfter (fun u hu => hkept u (hrest.subset hu))

/-- A note is deleted, and created again before the first batch gets the lock; the two
batches then get it the other way round. -/
def swappedBatches : List ThreadEvent :=
  [.queueChange (.deleted notePath), .timerFires 0, .flush, .queueChange (.created notePath), .timerFires 1, .flush,
    .acquireBatch 1, .endCompile false, .release, .acquireBatch 0, .endCompile false, .release]

theorem batches_compiled_swapped :
    ∃ s, exec Threads.step swappedBatches .initial = some s ∧ ¬ compiledTickets s.log <+: s.accepted ∧
      ∃ d' : Daemon Nat ReferenceGraph Unit,
        Outcome.forEach (runSection referenceGraphify [] fun _ => .calm (oneNode "a") 1)
          (s.log.map fun ran => (ran, .calm)) (.initial 0) = .done d' ∧
        d'.cache.get notePath = none ∧ d'.files.get notePath = none :=
  ⟨_, rfl, by decide, _, rfl, rfl, rfl⟩

/-- The same events in turn. -/
def batchesInTurn : List ThreadEvent :=
  [.queueChange (.deleted notePath), .timerFires 0, .flush, .acquireBatch 0, .queueChange (.created notePath),
    .timerFires 1, .flush, .endCompile false, .release, .acquireBatch 0]

theorem batches_compiled_in_turn :
    ∃ s, exec Threads.step batchesInTurn .initial = some s ∧ compiledTickets s.log <+: s.accepted ∧
      s.accepted = [⟨0, .deleted notePath⟩, ⟨1, .created notePath⟩] := by
  have hturn : Along Threads.step TakesInTurn batchesInTurn .initial := by decide
  exact ⟨_, rfl, (@batches_compiled_in_order Nat ReferenceGraph Unit _ _ _ hturn rfl).1, rfl⟩

end GraphifyDaemon
