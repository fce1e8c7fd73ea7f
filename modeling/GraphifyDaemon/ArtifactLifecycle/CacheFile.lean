import GraphifyDaemon.ArtifactLifecycle.ColdStart
import GraphifyDaemon.Library.JsonTextLaws
import GraphifyDaemon.VaultCompiler.ReferenceGraph
import Mathlib.Data.Nat.Cast.Defs

/-! A cold start from whatever `graph_cache.json` holds. `load` takes the two fields of the
cache as they come, so each use of them may raise. -/
namespace GraphifyDaemon
open Library JsonText

variable {ν γ τ : Type}

/-- The file: a text, if its bytes can be decoded. -/
inductive CacheFile where
  | absent
  | undecodable
  | text (chars : List Char)

/-- The two fields of a cache, whatever they hold. -/
structure LoadedCache (ν : Type) where
  entries : Json ν
  mtimes : Json ν

/-- The two dictionaries of a cache, under the texts of its paths. -/
def encoded (cache : ExtractionCache ν) : PyDict ν × PyDict ν :=
  (cache.entries.items.map fun item => (item.1.str, .obj item.2),
    cache.mtimes.items.map fun item => (item.1.str, .num item.2))

/-- `json.dumps({"entries": self._entries, "mtimes": self._mtimes})` -/
def saveText (format : NumberFormat ν) (cache : ExtractionCache ν) : List Char :=
  dumps format (.obj [("entries", .obj (encoded cache).1), ("mtimes", .obj (encoded cache).2)])

/-- `data[key]` -/
def subscript (key : String) : Json ν → Except PyError (Json ν)
  | .obj members => Json.getItem key members
  | .null | .bool _ | .num _ | .str _ | .arr _ => .error .typeError

/-- `ExtractionCache.load` -/
def load (format : NumberFormat ν) (chars : List Char) : Except PyError (LoadedCache ν) :=
  match loads format chars with
  | none => .error .valueError
  | some data => (subscript "entries" data).bind fun entries =>
      (subscript "mtimes" data).bind fun mtimes => .ok ⟨entries, mtimes⟩

/-- `str(Path(key))`: empty and `.` components go, and so do repeated slashes. -/
def pathStr (key : String) : String :=
  let chars := key.toList
  let root := if ['/', '/'] <+: chars ∧ ¬ ['/', '/', '/'] <+: chars then ['/', '/']
    else if ['/'] <+: chars then ['/'] else []
  let parts := (chars.splitOn '/').filter (fun part => part ≠ [] ∧ part ≠ ['.'])
  if root ++ ['/'].intercalate parts = [] then "." else String.ofList (root ++ ['/'].intercalate parts)

namespace LoadedCache

/-- The fields of a cache that nothing was loaded into. -/
def empty : LoadedCache ν := ⟨.obj [], .obj []⟩

/-- `self._mtimes.get(str(relative_path))` -/
def mtime (cache : LoadedCache ν) (p : VaultPath) : Except PyError (Option (Json ν)) :=
  match cache.mtimes with
  | .obj mtimes => .ok (Json.lookup p.str mtimes)
  | .null | .bool _ | .num _ | .str _ | .arr _ => .error .attributeError

def set (cache : LoadedCache ν) (p : VaultPath) (result : PyDict ν) (mtime : ν) : Except PyError (LoadedCache ν) :=
  (Json.setItem p.str (.obj result) cache.entries).bind fun entries =>
    (Json.setItem p.str (.num mtime) cache.mtimes).bind fun mtimes => .ok ⟨entries, mtimes⟩

/-- `v.pop(key, None)`: the `pop` of a list takes no second argument. -/
def pop (key : String) : Json ν → Except PyError (Json ν)
  | .obj members => .ok (.obj (members.filter fun member => member.1 ≠ key))
  | .arr _ => .error .typeError
  | .null | .bool _ | .num _ | .str _ => .error .attributeError

/-- `delete`, of a path given as its text. -/
def delete (cache : LoadedCache ν) (key : String) : Except PyError (LoadedCache ν) :=
  (pop key cache.entries).bind fun entries => (pop key cache.mtimes).bind fun mtimes => .ok ⟨entries, mtimes⟩

/-- `{Path(key): value for ...}`, with each path given as its text. -/
def byPath (entries : PyDict ν) : PyDict ν :=
  entries.foldl (fun d entry => OrderedDict.setItem (pathStr entry.1) entry.2 d) []

/-- `ExtractionCache.entries` -/
def results (cache : LoadedCache ν) : Except PyError (PyDict ν) :=
  match cache.entries with
  | .obj entries => .ok (byPath entries)
  | .null | .bool _ | .num _ | .str _ | .arr _ => .error .attributeError

end LoadedCache

/-- `result.get("nodes", [])` and `result.get("edges", [])` of every result, merged. -/
def mergeResults (results : PyDict ν) : Except PyError (List (Json ν) × List (Json ν)) :=
  results.foldlM (fun merged result => match result.2 with
    | .obj members => extendWith merged members
    | .null | .bool _ | .num _ | .str _ | .arr _ => .error .attributeError) ([], [])

/-- What the walk sees of a file that is in the vault: its modification time, and what its
extraction would give. -/
structure SeenFile (ν : Type) where
  path : VaultPath
  mtime : ν
  result : Option (PyDict ν)

/-- A round of the walk up to `stat`. -/
def observe (nested : List String) (entry : WalkEntry ν) : Except PyError (Option (SeenFile ν)) :=
  match entry.isDir with
  | .error e => .error e
  | .ok isDir =>
    if isDir ∨ suffix entry.path ∉ OBSERVED_SUFFIXES then .ok none
    else if isExcluded nested entry.path then .ok none
    else match entry.confined with
      | .error e => .error e
      | .ok false => .ok none
      | .ok true => match entry.stat with
        | .missing => .error .fileNotFoundError
        | .failed e => .error e
        | .found m _ => .ok (some ⟨entry.path, m, extractFileWithFailureIsolation entry.extractor entry.path⟩)

/-- `cache.mtime(relative) == current_mtime`, for a recorded value of any kind: a boolean
equals the number it stands for. -/
def sameMtime [DecidableEq ν] [NatCast ν] (recorded : Option (Json ν)) (current : ν) : Bool :=
  match recorded with
  | some (.num n) => n = current
  | some (.bool b) => (b.toNat : ν) = current
  | _ => false

section Run
variable [DecidableEq ν] [NatCast ν]

/-- A round of the walk from the comparison of modification times on. -/
def reconcile (cache : LoadedCache ν) (seen : SeenFile ν) : Except PyError (LoadedCache ν) :=
  (cache.mtime seen.path).bind fun recorded =>
    if sameMtime recorded seen.mtime then .ok cache
    else match seen.result with
      | none => .ok cache
      | some result => cache.set seen.path result seen.mtime

/-- The walk over the vault, with what it has observed. -/
def walkVault (nested : List String) : List (WalkEntry ν) → LoadedCache ν × List String →
    Except PyError (LoadedCache ν × List String)
  | [], r => .ok r
  | entry :: rest, r => match observe nested entry with
    | .error e => .error e
    | .ok none => walkVault nested rest r
    | .ok (some seen) => (reconcile r.1 seen).bind fun cache =>
        walkVault nested rest (cache, r.2 ++ [seen.path.str])

/-- Entries whose file was not observed are deleted. -/
def dropUnseen (observed : List String) (cache : LoadedCache ν) : Except PyError (LoadedCache ν) :=
  cache.results.bind fun results =>
    ((results.map Prod.fst).filter fun key => key ∉ observed).foldlM LoadedCache.delete cache

/-- `build_from_json` on the merged lists, and the first `publish`. -/
def publishMerged (G : Graphify ν γ τ) (merged : List (Json ν) × List (Json ν)) : Except PyError (GraphSnapshot γ τ) :=
  (G.buildFromJson merged.1 merged.2).bind fun graph =>
    (G.getTrigramIndex graph).bind fun index => .ok ⟨graph, index, .empty, 1⟩

/-- The module's `cold_start`, on a cache that was loaded. -/
def coldStartOn (G : Graphify ν γ τ) (nested : List String) (walk : List (WalkEntry ν)) (cache : LoadedCache ν) :
    Except PyError (GraphSnapshot γ τ) :=
  (walkVault nested walk (cache, [])).bind fun walked =>
    (dropUnseen walked.2 walked.1).bind fun cache =>
      cache.results.bind fun results => (mergeResults results).bind (publishMerged G)

/-- The cache of a new process, after the file was loaded if there is one. -/
def CacheFile.content (format : NumberFormat ν) : CacheFile → Except PyError (LoadedCache ν)
  | .absent => .ok .empty
  | .undecodable => .error .valueError
  | .text chars => load format chars

/-- `Daemon.cold_start` of a new process. -/
def coldStartFrom (format : NumberFormat ν) (G : Graphify ν γ τ) (nested : List String) (walk : List (WalkEntry ν))
    (file : CacheFile) : Except PyError (GraphSnapshot γ τ) :=
  (file.content format).bind (coldStartOn G nested walk)

end Run

/-- All that the walk sees, if nothing it asks for fails. -/
def observeWalk (nested : List String) : List (WalkEntry ν) → Except PyError (List (SeenFile ν))
  | [] => .ok []
  | entry :: rest => match observe nested entry with
    | .error e => .error e
    | .ok seen => match observeWalk nested rest with
      | .error e => .error e
      | .ok later => .ok (seen.toList ++ later)

private theorem foldlM_delete (keys : List String) (entries mtimes : PyDict ν) :
    ∃ mtimes', keys.foldlM LoadedCache.delete (⟨.obj entries, .obj mtimes⟩ : LoadedCache ν) =
      .ok ⟨.obj (entries.filter fun entry => entry.1 ∉ keys), .obj mtimes'⟩ := by
  induction keys generalizing entries mtimes with
  | nil => exact ⟨mtimes, by simp [pure, Except.pure]⟩
  | cons key rest ih =>
    obtain ⟨mtimes', hrest⟩ := ih (entries.filter fun entry => entry.1 ≠ key) (mtimes.filter fun entry => entry.1 ≠ key)
    refine ⟨mtimes', ?_⟩
    rw [List.foldlM_cons]
    refine Eq.trans hrest ?_
    simp [List.filter_filter, Bool.and_comm]

private theorem byPath_eq_nil {entries : PyDict ν} (h : LoadedCache.byPath entries = []) : entries = [] := by
  have hkeeps : ∀ (rest d : PyDict ν), d ≠ [] →
      rest.foldl (fun d entry => OrderedDict.setItem (pathStr entry.1) entry.2 d) d ≠ [] := by
    intro rest
    induction rest with
    | nil => exact fun _ hd => hd
    | cons entry rest ih =>
      intro d hd
      apply ih
      cases d with
      | nil => exact absurd rfl hd
      | cons first d =>
        simp only [OrderedDict.setItem]
        split_ifs <;> simp
  cases entries with
  | nil => rfl
  | cons entry rest => exact absurd h (hkeeps rest _ (by simp [OrderedDict.setItem]))

private theorem setItem_eq_ok {key : String} {value v v' : Json ν} (h : Json.setItem key value v = .ok v') :
    ∃ members, v = .obj members := by
  cases v with
  | obj members => exact ⟨members, rfl⟩
  | null | bool _ | num _ | str _ | arr _ => cases h

private theorem pop_eq_ok {key : String} {v v' : Json ν} (h : LoadedCache.pop key v = .ok v') : ∃ members, v =
    .obj members := by
  cases v with
  | obj members => exact ⟨members, rfl⟩
  | null | bool _ | num _ | str _ | arr _ => cases h

private theorem mtime_eq_ok {cache : LoadedCache ν} {p : VaultPath} {recorded : Option (Json ν)}
    (h : cache.mtime p = .ok recorded) : ∃ mtimes, cache.mtimes = .obj mtimes := by
  unfold LoadedCache.mtime at h
  split at h
  · rename_i mtimes hmtimes
    exact ⟨mtimes, hmtimes⟩
  all_goals cases h

private theorem results_eq_ok {cache : LoadedCache ν} {results : PyDict ν} (h : cache.results = .ok results) :
    ∃ entries, cache.entries = .obj entries ∧ results = LoadedCache.byPath entries := by
  unfold LoadedCache.results at h
  split at h
  · rename_i entries hentries
    cases h
    exact ⟨entries, hentries, rfl⟩
  all_goals cases h

section Standing
variable [DecidableEq ν] [NatCast ν]

/-- The two dictionaries after the walk: a file keeps what is recorded where its recorded
modification time is its own or its extraction fails. -/
def refreshed (recorded : PyDict ν × PyDict ν) (seen : List (SeenFile ν)) : PyDict ν × PyDict ν :=
  seen.foldl (fun d file =>
    if sameMtime (Json.lookup file.path.str d.2) file.mtime then d
    else match file.result with
      | none => d
      | some result => (OrderedDict.setItem file.path.str (.obj result) d.1,
          OrderedDict.setItem file.path.str (.num file.mtime) d.2)) recorded

/-- The results that stand after the walk: what belongs to a file that was not seen is gone,
unless it was recorded under a text that is not the text of its path. -/
def standing (recorded : PyDict ν × PyDict ν) (seen : List (SeenFile ν)) : PyDict ν :=
  let kept := (refreshed recorded seen).1
  let gone := ((LoadedCache.byPath kept).map Prod.fst).filter fun key => key ∉ seen.map fun file => file.path.str
  LoadedCache.byPath (kept.filter fun entry => entry.1 ∉ gone)

/-- Two dictionaries, or an empty one for no file at all and anything beside it. -/
structure Usable (seen : List (SeenFile ν)) (cache : LoadedCache ν) (recorded : PyDict ν × PyDict ν) : Prop where
  entries : cache.entries = .obj recorded.1
  mtimes : cache.mtimes = .obj recorded.2 ∨ seen = [] ∧ recorded = ([], [])

private theorem walkVault_eq_ok {nested : List String} {walk : List (WalkEntry ν)}
    {r r' : LoadedCache ν × List String} :
    walkVault nested walk r = .ok r' ↔ ∃ seen, observeWalk nested walk = .ok seen ∧
      seen.foldlM reconcile r.1 = .ok r'.1 ∧ r'.2 = r.2 ++ seen.map fun file => file.path.str := by
  induction walk generalizing r with
  | nil =>
    constructor
    · intro h
      cases h
      exact ⟨[], rfl, rfl, by simp⟩
    · rintro ⟨seen, hseen, hcache, hobserved⟩
      cases hseen
      have hsame : r.1 = r'.1 := Except.ok.inj hcache
      exact congrArg Except.ok (Prod.ext hsame (by simpa using hobserved.symm))
  | cons entry rest ih =>
    cases hentry : observe nested entry with
    | error e => simp [walkVault, observeWalk, hentry]
    | ok first => cases first with
      | none =>
        rw [walkVault, hentry]
        dsimp only
        rw [ih]
        cases hrest : observeWalk nested rest <;> simp [observeWalk, hentry, hrest]
      | some file =>
        rw [walkVault, hentry]
        dsimp only
        rw [bind_eq_ok]
        cases hrest : observeWalk nested rest with
        | error e => simp [observeWalk, hentry, hrest, ih]
        | ok later =>
          have hwalk : observeWalk nested (entry :: rest) = .ok (file :: later) := by
            simp [observeWalk, hentry, hrest]
          simp only [ih, hrest, hwalk, Except.ok.injEq, exists_eq_left', List.foldlM_cons, List.map_cons]
          constructor
          · rintro ⟨cache, hcache, hlater, hobserved⟩
            refine ⟨?_, by simpa using hobserved⟩
            rw [hcache]
            exact hlater
          · rintro ⟨hcache, hobserved⟩
            obtain ⟨cache, hfirst, hlater⟩ := bind_eq_ok.mp hcache
            exact ⟨cache, hfirst, hlater, by simpa using hobserved⟩

private theorem foldlM_reconcile (seen : List (SeenFile ν)) (d : PyDict ν × PyDict ν) :
    seen.foldlM reconcile (⟨.obj d.1, .obj d.2⟩ : LoadedCache ν) =
      .ok ⟨.obj (refreshed d seen).1, .obj (refreshed d seen).2⟩ := by
  induction seen generalizing d with
  | nil => rfl
  | cons file rest ih =>
    have hround : reconcile (⟨.obj d.1, .obj d.2⟩ : LoadedCache ν) file =
        .ok ⟨.obj (refreshed d [file]).1, .obj (refreshed d [file]).2⟩ := by
      simp only [reconcile, LoadedCache.mtime, refreshed, List.foldl_cons, List.foldl_nil, Except.bind]
      split_ifs
      · rfl
      · cases file.result <;> rfl
    rw [List.foldlM_cons, hround]
    exact ih (refreshed d [file])

/-- A round of the walk needs a dictionary of modification times, and one of entries to
store in. -/
theorem reconcile_eq_ok {cache cache' : LoadedCache ν} {file : SeenFile ν} (h : reconcile cache file = .ok cache') :
    (∃ mtimes, cache.mtimes = .obj mtimes) ∧ ((∃ entries, cache.entries = .obj entries) ∨ cache' = cache) := by
  obtain ⟨recorded, hrecorded, h⟩ := bind_eq_ok.mp h
  refine ⟨mtime_eq_ok hrecorded, ?_⟩
  split_ifs at h
  · cases h
    exact .inr rfl
  · split at h
    · cases h
      exact .inr rfl
    · obtain ⟨entries, hentries, -⟩ := bind_eq_ok.mp h
      exact .inl (setItem_eq_ok hentries)

private theorem foldlM_reconcile_kind {seen : List (SeenFile ν)} {cache cache' : LoadedCache ν}
    (h : seen.foldlM reconcile cache = .ok cache') :
    (seen = [] ∨ ∃ mtimes, cache.mtimes = .obj mtimes) ∧ ((∃ entries, cache.entries = .obj entries) ∨ cache' = cache) := by
  induction seen generalizing cache with
  | nil => exact ⟨.inl rfl, .inr (Except.ok.inj h).symm⟩
  | cons file rest ih =>
    obtain ⟨mid, hfirst, hrest⟩ := bind_eq_ok.mp h
    obtain ⟨hmtimes, hentries⟩ := reconcile_eq_ok hfirst
    refine ⟨.inr hmtimes, ?_⟩
    rcases hentries with hdict | rfl
    · exact .inl hdict
    · exact (ih hrest).2

/-- The walk and the clean-up go through exactly on a cache that can be used. -/
theorem reconciled_eq_ok {seen : List (SeenFile ν)} {cache : LoadedCache ν} {results : PyDict ν} :
    ((seen.foldlM reconcile cache).bind fun walked =>
      (dropUnseen (seen.map fun file => file.path.str) walked).bind LoadedCache.results) = .ok results ↔
        ∃ recorded, Usable seen cache recorded ∧ results = standing recorded seen := by
  have hdict : ∀ recorded : PyDict ν × PyDict ν,
      ((seen.foldlM reconcile (⟨.obj recorded.1, .obj recorded.2⟩ : LoadedCache ν)).bind fun walked =>
        (dropUnseen (seen.map fun file => file.path.str) walked).bind LoadedCache.results) =
          .ok (standing recorded seen) := by
    intro recorded
    obtain ⟨mtimes, hdelete⟩ := foldlM_delete
      (((LoadedCache.byPath (refreshed recorded seen).1).map Prod.fst).filter
        fun key => key ∉ seen.map fun file => file.path.str)
      (refreshed recorded seen).1 (refreshed recorded seen).2
    rw [foldlM_reconcile]
    simp only [Except.bind, dropUnseen, LoadedCache.results]
    rw [hdelete]
    rfl
  constructor
  · intro h
    obtain ⟨walked, hwalked, hrest⟩ := bind_eq_ok.mp h
    obtain ⟨dropped, hdropped, hresults⟩ := bind_eq_ok.mp hrest
    obtain ⟨results', hresults', hdeleted⟩ := bind_eq_ok.mp hdropped
    obtain ⟨entries', hentries', rfl⟩ := results_eq_ok hresults'
    obtain ⟨hmtimes, hentries⟩ := foldlM_reconcile_kind hwalked
    have hes : ∃ entries, cache.entries = .obj entries := by
      rcases hentries with hdict | rfl
      · exact hdict
      · exact ⟨entries', hentries'⟩
    obtain ⟨entries, hes⟩ := hes
    by_cases hms : ∃ mtimes, cache.mtimes = .obj mtimes
    · obtain ⟨mtimes, hms⟩ := hms
      refine ⟨(entries, mtimes), ⟨hes, .inl hms⟩, ?_⟩
      obtain ⟨e, m⟩ := cache
      cases hes
      cases hms
      exact (Except.ok.inj ((hdict (entries, mtimes)).symm.trans h)).symm
    · -- nothing was seen, so any entry would have to be deleted from both fields
      obtain rfl := hmtimes.resolve_right hms
      obtain rfl : cache = walked := Except.ok.inj hwalked
      obtain rfl : entries = entries' := Json.obj.inj (hes.symm.trans hentries')
      cases hkeys : LoadedCache.byPath entries with
      | nil =>
        obtain rfl := byPath_eq_nil hkeys
        refine ⟨([], []), ⟨hes, .inr ⟨rfl, rfl⟩⟩, ?_⟩
        have hsame : cache = dropped := by simpa [hkeys, pure, Except.pure] using hdeleted
        subst hsame
        rw [LoadedCache.results, hes] at hresults
        exact (Except.ok.inj hresults).symm
      | cons first rest =>
        rw [hkeys] at hdeleted
        simp only [List.map_cons, List.map_nil, List.not_mem_nil, not_false_eq_true, decide_true, List.filter_cons_of_pos,
          List.foldlM_cons] at hdeleted
        obtain ⟨mid, hdelete, -⟩ := bind_eq_ok.mp hdeleted
        obtain ⟨_, -, hpop⟩ := bind_eq_ok.mp hdelete
        obtain ⟨_, hmtimes, -⟩ := bind_eq_ok.mp hpop
        exact absurd (pop_eq_ok hmtimes) hms
  · rintro ⟨recorded, ⟨hes, hms⟩, rfl⟩
    obtain ⟨e, m⟩ := cache
    cases hes
    rcases hms with hms | ⟨rfl, rfl⟩
    · cases hms
      exact hdict recorded
    · rfl

theorem coldStartOn_eq_ok {G : Graphify ν γ τ} {nested : List String} {walk : List (WalkEntry ν)}
    {cache : LoadedCache ν} {published : GraphSnapshot γ τ} :
    coldStartOn G nested walk cache = .ok published ↔ ∃ seen, observeWalk nested walk = .ok seen ∧
      ∃ recorded, Usable seen cache recorded ∧
        ∃ merged, mergeResults (standing recorded seen) = .ok merged ∧ publishMerged G merged = .ok published := by
  constructor
  · intro h
    obtain ⟨walked, hwalked, h⟩ := bind_eq_ok.mp h
    obtain ⟨dropped, hdropped, h⟩ := bind_eq_ok.mp h
    obtain ⟨results, hresults, h⟩ := bind_eq_ok.mp h
    obtain ⟨merged, hmerged, hpublished⟩ := bind_eq_ok.mp h
    obtain ⟨seen, hseen, hcache, hobserved⟩ := walkVault_eq_ok.mp hwalked
    rw [hobserved, List.nil_append] at hdropped
    have hall : ((seen.foldlM reconcile cache).bind fun walked =>
        (dropUnseen (seen.map fun file => file.path.str) walked).bind LoadedCache.results) = .ok results :=
      bind_eq_ok.mpr ⟨walked.1, hcache, bind_eq_ok.mpr ⟨dropped, hdropped, hresults⟩⟩
    obtain ⟨recorded, husable, rfl⟩ := reconciled_eq_ok.mp hall
    exact ⟨seen, hseen, recorded, husable, merged, hmerged, hpublished⟩
  · rintro ⟨seen, hseen, recorded, husable, merged, hmerged, hpublished⟩
    obtain ⟨walked, hcache, hrest⟩ := bind_eq_ok.mp (reconciled_eq_ok.mpr ⟨recorded, husable, rfl⟩)
    obtain ⟨dropped, hdropped, hresults⟩ := bind_eq_ok.mp hrest
    have hwalked : walkVault nested walk (cache, []) = .ok (walked, seen.map fun file => file.path.str) :=
      walkVault_eq_ok.mpr ⟨seen, hseen, hcache, rfl⟩
    refine bind_eq_ok.mpr ⟨_, hwalked, bind_eq_ok.mpr ⟨dropped, hdropped, ?_⟩⟩
    exact bind_eq_ok.mpr ⟨_, hresults, bind_eq_ok.mpr ⟨merged, hmerged, hpublished⟩⟩

/-- The file can be loaded and used, and these are the nodes and edges of the results that
stand. -/
def Leaves (format : NumberFormat ν) (seen : List (SeenFile ν)) (file : CacheFile)
    (merged : List (Json ν) × List (Json ν)) : Prop :=
  ∃ cache, file.content format = .ok cache ∧
    ∃ recorded, Usable seen cache recorded ∧ mergeResults (standing recorded seen) = .ok merged

private theorem coldStartFrom_eq_ok {format : NumberFormat ν} {G : Graphify ν γ τ} {nested : List String}
    {walk : List (WalkEntry ν)} {file : CacheFile} {published : GraphSnapshot γ τ} :
    coldStartFrom format G nested walk file = .ok published ↔ ∃ seen, observeWalk nested walk = .ok seen ∧
      ∃ merged, Leaves format seen file merged ∧ publishMerged G merged = .ok published := by
  rw [coldStartFrom, bind_eq_ok]
  constructor
  · rintro ⟨cache, hcache, h⟩
    obtain ⟨seen, hseen, recorded, husable, merged, hmerged, hpublished⟩ := coldStartOn_eq_ok.mp h
    exact ⟨seen, hseen, merged, ⟨cache, hcache, recorded, husable, hmerged⟩, hpublished⟩
  · rintro ⟨seen, hseen, merged, ⟨cache, hcache, recorded, husable, hmerged⟩, hpublished⟩
    exact ⟨cache, hcache, coldStartOn_eq_ok.mpr ⟨seen, hseen, recorded, husable, merged, hmerged, hpublished⟩⟩

/-- A cold start with this file publishes what one without it would, or what one with the
saved cache would. -/
def Recovers (format : NumberFormat ν) (G : Graphify ν γ τ) (nested : List String) (walk : List (WalkEntry ν))
    (saved : ExtractionCache ν) (file : CacheFile) : Prop :=
  ∀ fresh intact, coldStartFrom format G nested walk .absent = .ok fresh →
    coldStartFrom format G nested walk (.text (saveText format saved)) = .ok intact →
    ∃ published, coldStartFrom format G nested walk file = .ok published ∧ (published = fresh ∨ published = intact)

/-- The graph library that keeps the two lists as they are, and so tells apart whatever is
given to it. -/
def verbatim : Graphify ν (List (Json ν) × List (Json ν)) Unit where
  buildFromJson nodes edges := .ok (nodes, edges)
  getTrigramIndex _ := .ok ()
  nodes _ _ := none
  remapCommunitiesToPrevious communities _ := communities
  sanitizeLabel label := label

omit [DecidableEq ν] [NatCast ν] in
private theorem publishMerged_verbatim (merged : List (Json ν) × List (Json ν)) :
    publishMerged verbatim merged = .ok ⟨merged, (), .empty, 1⟩ := rfl

/-- With every graph library a cold start recovers from a file, exactly when the file can be
loaded and used and leaves the nodes and edges of the vault's extractions, or those that the
saved cache leaves. -/
theorem cold_start_recovers_iff (format : NumberFormat ν) (nested : List String) (walk : List (WalkEntry ν))
    (saved : ExtractionCache ν) (file : CacheFile) :
    (∀ (γ τ : Type) (G : Graphify ν γ τ), Recovers format G nested walk saved file) ↔
      ∀ seen fresh intact, observeWalk nested walk = .ok seen → Leaves format seen .absent fresh →
        Leaves format seen (.text (saveText format saved)) intact →
        Leaves format seen file fresh ∨ Leaves format seen file intact := by
  constructor
  · intro h seen fresh intact hseen hfresh hintact
    obtain ⟨published, hfile, hsame⟩ := h _ _ verbatim _ _
      (coldStartFrom_eq_ok.mpr ⟨seen, hseen, fresh, hfresh, publishMerged_verbatim fresh⟩)
      (coldStartFrom_eq_ok.mpr ⟨seen, hseen, intact, hintact, publishMerged_verbatim intact⟩)
    obtain ⟨seen', hseen', merged, hmerged, hpublished⟩ := coldStartFrom_eq_ok.mp hfile
    obtain rfl : seen = seen' := Except.ok.inj (hseen.symm.trans hseen')
    rw [publishMerged_verbatim] at hpublished
    obtain rfl := Except.ok.inj hpublished
    rcases hsame with hsame | hsame
    · have hmerged' : merged = fresh := congrArg GraphSnapshot.graph hsame
      exact .inl (hmerged' ▸ hmerged)
    · have hmerged' : merged = intact := congrArg GraphSnapshot.graph hsame
      exact .inr (hmerged' ▸ hmerged)
  · intro h γ τ G freshPublished intactPublished habsent hsaved
    obtain ⟨seen, hseen, fresh, hfresh, hpublishFresh⟩ := coldStartFrom_eq_ok.mp habsent
    obtain ⟨seen', hseen', intact, hintact, hpublishIntact⟩ := coldStartFrom_eq_ok.mp hsaved
    obtain rfl : seen = seen' := Except.ok.inj (hseen.symm.trans hseen')
    rcases h seen fresh intact hseen hfresh hintact with hleft | hleft
    · exact ⟨freshPublished, coldStartFrom_eq_ok.mpr ⟨seen, hseen, fresh, hleft, hpublishFresh⟩, .inl rfl⟩
    · exact ⟨intactPublished, coldStartFrom_eq_ok.mpr ⟨seen, hseen, intact, hleft, hpublishIntact⟩, .inr rfl⟩

/-- A file that was cut off while it was written stops every cold start. -/
theorem coldStartFrom_cut {format : NumberFormat ν} (G : Graphify ν γ τ) (nested : List String)
    (walk : List (WalkEntry ν)) {saved : ExtractionCache ν} {kept lost : List Char}
    (hcut : kept ++ lost = saveText format saved) (hlost : lost ≠ []) :
    coldStartFrom format G nested walk (.text kept) = .error .valueError := by
  rw [coldStartFrom, CacheFile.content, load, loads_cut hcut hlost]
  rfl

end Standing

private theorem isTokenChar_of_isDigit {c : Char} (h : c.isDigit = true) : isTokenChar c = true := by
  have hnot : c ∉ [' ', '\t', '\n', '\r', ',', ':', '[', ']', '\x7b', '\x7d', '"'] := by
    intro hc
    simp only [List.mem_cons, List.not_mem_nil, or_false] at hc
    rcases hc with rfl | rfl | rfl | rfl | rfl | rfl | rfl | rfl | rfl | rfl | rfl <;> revert h <;> decide
  simp only [List.mem_cons, List.not_mem_nil, or_false, not_or] at hnot
  simp [isTokenChar, isSpace, hnot]

private theorem all_isDigit (n : Nat) : (Nat.toDigits 10 n).all Char.isDigit = true :=
  List.all_eq_true.mpr fun _ hc => Nat.isDigit_of_mem_toDigits (by decide) (by decide) hc

/-- Natural numbers in decimal. -/
def decimal : NumberFormat Nat where
  print n := Nat.toDigits 10 n
  read token := if token ≠ [] ∧ token.all Char.isDigit then some (Nat.ofDigitChars 10 token 0) else none
  read_print n := by rw [if_pos ⟨Nat.toDigits_ne_nil, all_isDigit n⟩, Nat.ofDigitChars_ten_toDigits]
  print_token n := ⟨Nat.toDigits_ne_nil, fun c hc => isTokenChar_of_isDigit (List.all_eq_true.mp (all_isDigit n) c hc)⟩
  print_word n := by
    have hdigits := all_isDigit n
    intro hword
    simp only [List.mem_cons, List.not_mem_nil, or_false] at hword
    rcases hword with hword | hword | hword <;> rw [hword] at hdigits <;> revert hdigits <;> decide
  read_nil := rfl

/-- A vault with one note. -/
def noteWalked : List (WalkEntry Nat) := [⟨notePath, .ok false, .ok true, .found 1 1, .ok (.obj (oneNode "a"))⟩]

/-- What a cold start on it saves. -/
def noteSaved : ExtractionCache Nat := storeAtMtime notePath 1 (some (oneNode "a")) .empty

/-- The file was cut off after twenty characters. -/
def tornFile : CacheFile := .text ((saveText decimal noteSaved).take 20)

/-- The modification time of the note is recorded, and no entry. -/
def skippingFile : CacheFile := .text "\x7b\"entries\": \x7b\x7d, \"mtimes\": \x7b\"note.md\": 1\x7d\x7d".toList

theorem cold_start_does_not_recover :
    coldStartFrom decimal referenceGraphify [] noteWalked tornFile = .error .valueError ∧
      ¬ Recovers decimal referenceGraphify [] noteWalked noteSaved tornFile ∧
      ¬ Recovers decimal referenceGraphify [] noteWalked noteSaved skippingFile := by
  have habsent : ∃ fresh, coldStartFrom decimal referenceGraphify [] noteWalked .absent = .ok fresh ∧
      fresh.graph.nodes.keys = ["a"] := ⟨_, rfl, rfl⟩
  have hintact : ∃ intact, coldStartFrom decimal referenceGraphify [] noteWalked (.text (saveText decimal noteSaved)) =
      .ok intact ∧ intact.graph.nodes.keys = ["a"] := ⟨_, rfl, rfl⟩
  have htorn : coldStartFrom decimal referenceGraphify [] noteWalked tornFile = .error .valueError :=
    coldStartFrom_cut referenceGraphify [] noteWalked (List.take_append_drop 20 (saveText decimal noteSaved)) (by decide)
  have hskipped : ∃ published, coldStartFrom decimal referenceGraphify [] noteWalked skippingFile = .ok published ∧
      published.graph.nodes.keys = [] := ⟨_, rfl, rfl⟩
  obtain ⟨fresh, hfresh, hfreshKeys⟩ := habsent
  obtain ⟨intact, hintact, hintactKeys⟩ := hintact
  obtain ⟨skipped, hskipped, hskippedKeys⟩ := hskipped
  refine ⟨htorn, fun h => ?_, fun h => ?_⟩
  · obtain ⟨published, hpublished, -⟩ := h fresh intact hfresh hintact
    rw [htorn] at hpublished
    cases hpublished
  · obtain ⟨published, hpublished, hsame⟩ := h fresh intact hfresh hintact
    obtain rfl : skipped = published := Except.ok.inj (hskipped.symm.trans hpublished)
    rcases hsame with rfl | rfl
    · simp [hfreshKeys] at hskippedKeys
    · simp [hintactKeys] at hskippedKeys

end GraphifyDaemon
