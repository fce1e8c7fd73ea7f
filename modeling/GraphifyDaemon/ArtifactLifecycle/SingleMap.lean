import GraphifyDaemon.ArtifactLifecycle.Provenance

/-! The extraction cache beside the one map that it stands for: under each path the result of the last
`set` together with the modification time that came with it. -/
namespace GraphifyDaemon
open Library Library.Trace JsonText

variable {ν : Type}

/-- What an extraction cache is called with. -/
inductive ExtractionCall (ν : Type) where
  | set (p : VaultPath) (result : PyDict ν) (mtime : Option ν)
  | delete (p : VaultPath)
  | save
  /-- `load`, which gives this cache. -/
  | load (loaded : ExtractionCache ν)

namespace ExtractionCall

/-- What is stored can be written as JSON. -/
def Stores : ExtractionCall ν → Prop
  | .set _ result _ => Representable (.obj result)
  | .delete _ | .save | .load _ => True

def step [DecidableEq ν] (format : NumberFormat ν) : ExtractionCall ν → CacheLife ν → Option (CacheLife ν)
  | .set p result mtime, s => some { s with cache := s.cache.set p result mtime }
  | .delete p, s => some { s with cache := s.cache.delete p }
  | .save, s => CacheLife.step format [] .save s
  | .load loaded, s => CacheLife.step format [] (.load loaded) s

end ExtractionCall

/-- A result and the modification time of the call that stored it, and the copy that was last saved. -/
structure SingleMap (ν : Type) where
  current : VaultPath → Option (PyDict ν × Option ν)
  saved : VaultPath → Option (PyDict ν × Option ν)

namespace SingleMap

def empty : SingleMap ν := ⟨fun _ => none, fun _ => none⟩

def call : ExtractionCall ν → SingleMap ν → SingleMap ν
  | .set p result mtime, m => { m with current := Function.update m.current p (some (result, mtime)) }
  | .delete p, m => { m with current := Function.update m.current p none }
  | .save, m => { m with saved := m.current }
  | .load _, m => { m with current := m.saved }

end SingleMap

/-- The two dictionaries answer as the one map does. -/
def AnswersAs (cache : ExtractionCache ν) (map : VaultPath → Option (PyDict ν × Option ν)) : Prop :=
  ∀ p, cache.get p = (map p).map Prod.fst ∧ cache.mtime p = (map p).bind Prod.snd

/-- A `set` without a modification time is not made of a path whose last `set` gave one. -/
def KeepsTogether : ExtractionCall ν → SingleMap ν → Prop
  | .set p _ none, m => (m.current p).bind Prod.snd = none
  | .set _ _ (some _), _ | .delete _, _ | .save, _ | .load _, _ => True

section Calls
variable {cache : ExtractionCache ν} {map : VaultPath → Option (PyDict ν × Option ν)}

private theorem answersAs_set_some (h : AnswersAs cache map) (p : VaultPath) (result : PyDict ν) (m : ν) :
    AnswersAs (cache.set p result (some m)) (Function.update map p (some (result, some m))) := by
  intro q
  rw [ExtractionCache.get_set, ExtractionCache.mtime_set, Function.update_apply]
  by_cases hpq : p = q
  · simp [hpq]
  · simpa [hpq, Ne.symm hpq] using h q

/-- Without a modification time the old one stays, which is right when there is none. -/
theorem answersAs_set_none (h : AnswersAs cache map) (p : VaultPath) (result : PyDict ν) :
    AnswersAs (cache.set p result none) (Function.update map p (some (result, none))) ↔
      (map p).bind Prod.snd = none := by
  rw [← (h p).2]
  constructor
  · intro hset
    have hmtime := (hset p).2
    simpa [ExtractionCache.mtime_set] using hmtime
  · intro hnone q
    rw [ExtractionCache.get_set, ExtractionCache.mtime_set, Function.update_apply]
    by_cases hpq : p = q
    · subst hpq
      simp [hnone]
    · simpa [hpq, Ne.symm hpq] using h q

private theorem answersAs_delete (h : AnswersAs cache map) (p : VaultPath) :
    AnswersAs (cache.delete p) (Function.update map p none) := by
  intro q
  rw [ExtractionCache.get_delete, ExtractionCache.mtime_delete, Function.update_apply]
  by_cases hpq : p = q
  · simp [hpq]
  · simpa [hpq, Ne.symm hpq] using h q

/-- The text determines the cache. -/
theorem saveText_injective {format : NumberFormat ν} {cache' : ExtractionCache ν} (h : Distinct cache)
    (h' : Distinct cache') (htext : saveText format cache = saveText format cache') : cache = cache' := by
  have hload := load_saveText format h
  rw [htext, load_saveText format h'] at hload
  cases hpair : encoded cache
  cases hpair' : encoded cache'
  rw [hpair, hpair'] at hload
  cases hload
  exact encoded_injective (hpair.trans hpair'.symm)

end Calls

section Runs
variable [DecidableEq ν] {format : NumberFormat ν}

/-- What is cached, and what the file was written from, can be read back. -/
structure ReadsBack (format : NumberFormat ν) (s : CacheLife ν) : Prop where
  cache : Distinct s.cache
  file : ∀ text, s.file = some text → ∃ saved : ExtractionCache ν, Distinct saved ∧ text = saveText format saved

/-- The cache answers as the map, and so does the cache that the file was written from. -/
structure Follows (format : NumberFormat ν) (s : CacheLife ν × SingleMap ν) : Prop where
  cache : AnswersAs s.1.cache s.2.current
  file : ∀ saved : ExtractionCache ν, Distinct saved → s.1.file = some (saveText format saved) →
    AnswersAs saved s.2.saved

/-- A load gives the cache that was saved. -/
theorem ReadsBack.load {loaded : ExtractionCache ν} {s s' : CacheLife ν} (hs : ReadsBack format s)
    (h : ExtractionCall.step format (.load loaded) s = some s') :
    Distinct loaded ∧ s.file = some (saveText format loaded) ∧ s' = { s with cache := loaded } := by
  cases hfile : s.file with
  | none => simp [ExtractionCall.step, CacheLife.step, hfile] at h
  | some text =>
    obtain ⟨saved, hsaved, rfl⟩ := hs.file text hfile
    rw [ExtractionCall.step, CacheLife.step_load_eq_some hfile hsaved] at h
    obtain ⟨rfl, rfl⟩ := h
    exact ⟨hsaved, rfl, by rw [hfile]⟩

private theorem readsBack_step {c : ExtractionCall ν} {s s' : CacheLife ν} (hstores : c.Stores)
    (hs : ReadsBack format s)
    (h : c.step format s = some s') : ReadsBack format s' := by
  cases c with
  | set p result m =>
    cases h
    exact ⟨distinct_set hs.cache p hstores m, hs.file⟩
  | delete p =>
    cases h
    exact ⟨distinct_delete hs.cache p, hs.file⟩
  | save =>
    cases h
    exact ⟨hs.cache, fun text htext => ⟨s.cache, hs.cache, (Option.some.inj htext).symm⟩⟩
  | load loaded =>
    obtain ⟨hloaded, -, rfl⟩ := hs.load h
    exact ⟨hloaded, hs.file⟩

/-- From a cache that follows the map a call leaves one that does, unless it is a `set` that keeps an old
modification time. -/
theorem answersAs_step {c : ExtractionCall ν} {s : CacheLife ν × SingleMap ν} {t : CacheLife ν}
    (hread : ReadsBack format s.1) (hs : Follows format s) (h : c.step format s.1 = some t) :
    AnswersAs t.cache (SingleMap.call c s.2).current ↔ KeepsTogether c s.2 := by
  cases c with
  | set p result m =>
    cases h
    cases m with
    | none => exact answersAs_set_none hs.cache p result
    | some m => exact iff_of_true (answersAs_set_some hs.cache p result m) trivial
  | delete p =>
    cases h
    exact iff_of_true (answersAs_delete hs.cache p) trivial
  | save =>
    cases h
    exact iff_of_true hs.cache trivial
  | load loaded =>
    obtain ⟨hloaded, hfile, rfl⟩ := hread.load h
    exact iff_of_true (hs.file loaded hloaded hfile) trivial

private theorem follows_step {c : ExtractionCall ν} {s : CacheLife ν × SingleMap ν} {t : CacheLife ν}
    (hread : ReadsBack format s.1) (hok : KeepsTogether c s.2) (hs : Follows format s)
    (h : c.step format s.1 = some t) : Follows format (t, SingleMap.call c s.2) := by
  refine ⟨(answersAs_step hread hs h).mpr hok, fun saved hsaved hfile => ?_⟩
  cases c with
  | set p result m =>
    cases h
    exact hs.file saved hsaved hfile
  | delete p =>
    cases h
    exact hs.file saved hsaved hfile
  | save =>
    cases h
    obtain rfl := saveText_injective hsaved hread.cache (Option.some.inj hfile).symm
    exact hs.cache
  | load loaded =>
    obtain ⟨-, -, rfl⟩ := hread.load h
    exact hs.file saved hsaved hfile

private theorem file_step {c : ExtractionCall ν} {s s' : CacheLife ν} (hsave : c ≠ .save)
    (h : c.step format s = some s') :
    s'.file = s.file := by
  cases c with
  | set p result m =>
    cases h
    rfl
  | delete p =>
    cases h
    rfl
  | save => exact absurd rfl hsave
  | load loaded =>
    simp only [ExtractionCall.step, CacheLife.step] at h
    split at h
    · split_ifs at h
      cases h
      rfl
    · cases h

/-- Whatever is called between, a load gives the cache that was last saved. -/
theorem load_after_save {s kept : CacheLife ν} (hs : ReadsBack format s) {between : List (ExtractionCall ν)}
    (hbetween : .save ∉ between) (run : exec (ExtractionCall.step format) (.save :: between) s = some kept)
    {loaded : ExtractionCache ν} {s' : CacheLife ν} :
    ExtractionCall.step format (.load loaded) kept = some s' ↔
      loaded = s.cache ∧ s' = { kept with cache := s.cache } := by
  obtain ⟨mid, hsave, hrest⟩ := exec_cons_eq_some.mp run
  have hfile : kept.file = some (saveText format s.cache) := by
    have hno : Along (ExtractionCall.step format) (fun c _ => c ≠ .save) between mid :=
      along_of_forall (fun c hc _ => ne_of_mem_of_not_mem hc hbetween) mid
    refine exec_invariant (fun t : CacheLife ν => t.file = some (saveText format s.cache)) (fun c t t' hc ht hstep => ?_)
      ?_ hno hrest
    · rw [file_step hc hstep, ht]
    · cases hsave
      rfl
  rw [ExtractionCall.step, CacheLife.step_load_eq_some hfile hs.cache]

end Runs

/-- For every run of calls with representable results: after each call the cache answers as the one map does
exactly when no `set` without a modification time is made of a path whose last `set` gave one. Whatever came before, a load of
what was saved is possible and gives every path the result and the modification time that it had. -/
theorem single_map_iff [DecidableEq ν] (format : NumberFormat ν) {calls : List (ExtractionCall ν)}
    {s : CacheLife ν × SingleMap ν} (hstores : ∀ c ∈ calls, c.Stores)
    (run : exec (beside (ExtractionCall.step format) SingleMap.call) calls (.initial, .empty) = some s) :
    (Along (beside (ExtractionCall.step format) SingleMap.call)
        (fun c s => ∀ s', beside (ExtractionCall.step format) SingleMap.call c s = some s' →
          AnswersAs s'.1.cache s'.2.current) calls (.initial, .empty) ↔
      Along (beside (ExtractionCall.step format) SingleMap.call) (fun c s => KeepsTogether c s.2) calls
        (.initial, .empty)) ∧
    ∀ between kept, .save ∉ between → exec (ExtractionCall.step format) (.save :: between) s.1 = some kept →
      (∃ loaded s', ExtractionCall.step format (.load loaded) kept = some s') ∧
      ∀ loaded s', ExtractionCall.step format (.load loaded) kept = some s' →
        ∀ p, s'.cache.get p = s.1.cache.get p ∧ s'.cache.mtime p = s.1.cache.mtime p := by
  have hpermitted : Along (beside (ExtractionCall.step format) SingleMap.call) (fun c _ => c.Stores) calls
      (.initial, .empty) := along_of_forall (fun c hc _ => hstores c hc) _
  have hread : ReadsBack format (CacheLife.initial : CacheLife ν) := ⟨fun _ _ h => (nomatch h), fun _ h => (nomatch h)⟩
  constructor
  · refine along_iff_of_step (fun s => ReadsBack format s.1 ∧ Follows format s) ?_ ?_
      ⟨hread, fun _ => ⟨rfl, rfl⟩, fun _ _ h => (nomatch h)⟩ hpermitted run
    · rintro c s s' hc hok ⟨hread, hs⟩ h
      obtain ⟨t, ht, rfl⟩ := beside_eq_some.mp h
      exact ⟨readsBack_step hc hread ht, follows_step hread hok hs ht⟩
    · rintro c s s' - ⟨hread, hs⟩ h
      obtain ⟨t, ht, rfl⟩ := beside_eq_some.mp h
      rw [← answersAs_step hread hs ht]
      constructor
      · intro hanswers
        exact hanswers _ h
      · intro hanswers s' hs'
        obtain rfl : (t, SingleMap.call c s.2) = s' := Option.some.inj (h.symm.trans hs')
        exact hanswers
  · intro between kept hbetween hkept
    have hreads : ReadsBack format s.1 := by
      refine exec_invariant (fun s => ReadsBack format s.1) (fun c s s' hc hs h => ?_) hread hpermitted run
      obtain ⟨t, ht, rfl⟩ := beside_eq_some.mp h
      exact readsBack_step hc hs ht
    refine ⟨⟨_, _, (load_after_save hreads hbetween hkept).mpr ⟨rfl, rfl⟩⟩, fun loaded s' hload p => ?_⟩
    obtain ⟨-, rfl⟩ := (load_after_save hreads hbetween hkept).mp hload
    exact ⟨rfl, rfl⟩

/-- A note with a modification time, and one that was gone before its `stat`. -/
def foundNotes : ExtractionCache Nat := foundNote.set otherPath (attributedNode "b" otherPath) none

def notesSaved : List (ExtractionCall Nat) :=
  [.set notePath (attributedNode "a" notePath) (some 7), .set otherPath (attributedNode "b" otherPath) none, .save,
    .delete notePath]

/-- Both notes are saved, the first is deleted, and the load brings it back. -/
theorem single_map_saved :
    ∃ s, exec (beside (ExtractionCall.step decimal) SingleMap.call) (notesSaved ++ [.load foundNotes])
        (.initial, .empty) = some s ∧
      s.1.cache.mtime notePath = some 7 ∧ s.1.cache.mtime otherPath = none ∧
      Along (beside (ExtractionCall.step decimal) SingleMap.call)
        (fun c s => ∀ s', beside (ExtractionCall.step decimal) SingleMap.call c s = some s' →
          AnswersAs s'.1.cache s'.2.current) (notesSaved ++ [.load foundNotes]) (.initial, .empty) ∧
      ∃ loaded s', exec (ExtractionCall.step decimal) [.save, .delete notePath, .load loaded] s.1 = some s' ∧
        s'.cache.get notePath = s.1.cache.get notePath ∧ s'.cache.mtime notePath = s.1.cache.mtime notePath := by
  obtain ⟨mid, hsaved, hfile⟩ : ∃ mid, exec (beside (ExtractionCall.step decimal) SingleMap.call) notesSaved
      (.initial, .empty) = some mid ∧ mid.1.file = some (saveText decimal foundNotes) := ⟨_, rfl, rfl⟩
  have hdistinct : Distinct foundNotes := by
    apply distinct_set distinct_foundNote
    rfl
  have hload : exec (beside (ExtractionCall.step decimal) SingleMap.call) [.load foundNotes] mid =
      some ({ mid.1 with cache := foundNotes }, { mid.2 with current := mid.2.saved }) := by
    refine exec_cons_eq_some.mpr ⟨_, beside_eq_some.mpr ⟨{ mid.1 with cache := foundNotes }, ?_, rfl⟩, rfl⟩
    rw [ExtractionCall.step, CacheLife.step_load_eq_some hfile hdistinct]
    exact ⟨rfl, rfl⟩
  have hrun := exec_append_of hsaved hload
  have hstores : ∀ c ∈ notesSaved ++ [.load foundNotes], c.Stores := by
    simp only [notesSaved, List.cons_append, List.nil_append, List.forall_mem_cons, ExtractionCall.Stores]
    exact ⟨rfl, rfl, trivial, trivial, trivial, by simp⟩
  obtain ⟨hanswers, hrestored⟩ := single_map_iff decimal hstores hrun
  refine ⟨_, hrun, rfl, rfl, hanswers.mpr ?_, ?_⟩
  · refine ⟨trivial, fun s h => ?_⟩
    obtain rfl := Option.some.inj h
    exact ⟨rfl, fun _ _ => ⟨trivial, fun _ _ => ⟨trivial, fun _ _ => ⟨trivial, fun _ _ => trivial⟩⟩⟩⟩
  · obtain ⟨kept, hkept⟩ : ∃ kept, exec (ExtractionCall.step decimal) [.save, .delete notePath]
        { mid.1 with cache := foundNotes } = some kept := ⟨_, rfl⟩
    obtain ⟨⟨loaded, s', hs'⟩, hsame⟩ := hrestored [.delete notePath] kept (by simp) hkept
    exact ⟨loaded, s', exec_append_of hkept (exec_cons_eq_some.mpr ⟨s', hs', rfl⟩), hsame loaded s' hs' notePath⟩

/-- A batch extracts the note again, which is gone before its `stat`: the new result keeps the old modification
time. -/
theorem vanished_keeps_mtime :
    ∃ s, exec (beside (ExtractionCall.step decimal) SingleMap.call)
        [.set notePath (attributedNode "a" notePath) (some 7), .set notePath (attributedNode "b" notePath) none]
        (.initial, .empty) = some s ∧
      (extractBatch [] [(.modified notePath, ⟨.ok (.obj (oneNode "b")), .missing, .missing, none, none⟩)]
        foundNote).store = s.1.cache ∧
      s.1.cache.get notePath = some (attributedNode "b" notePath) ∧ s.1.cache.mtime notePath = some 7 ∧
      s.2.current notePath = some (attributedNode "b" notePath, none) ∧ ¬ AnswersAs s.1.cache s.2.current := by
  refine ⟨_, rfl, rfl, rfl, rfl, rfl, fun hanswers => ?_⟩
  have hmtime := (hanswers notePath).2
  revert hmtime
  decide

end GraphifyDaemon
