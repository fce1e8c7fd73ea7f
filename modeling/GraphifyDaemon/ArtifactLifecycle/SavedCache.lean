import GraphifyDaemon.ArtifactLifecycle.CacheFile

/-! A cold start from the text that `save` wrote is one from the cache that was saved. -/
namespace GraphifyDaemon
open Library JsonText

variable {ν γ τ : Type}

section Paths

/-- The components of a path are found again in its text. -/
theorem splitOn_str (p : VaultPath) :
    (p.str.toList.splitOn '/').filter (fun part => part ≠ [] ∧ part ≠ ['.']) = p.parts.map String.toList := by
  have hname : ∀ part ∈ p.parts.map String.toList, part ≠ [] ∧ part ≠ ['.'] ∧ '/' ∉ part := by
    intro part hpart
    obtain ⟨name, hname, rfl⟩ := List.mem_map.mp hpart
    obtain ⟨hempty, hdot, hslash⟩ := p.names name hname
    refine ⟨fun h => hempty ?_, fun h => hdot ?_, hslash⟩
    · exact String.toList_inj.mp h
    · exact String.toList_inj.mp h
  unfold VaultPath.str
  split_ifs with hparts
  · rw [hparts]
    rfl
  · rw [String.toList_ofList,
      List.splitOn_intercalate '/' (fun part hpart => (hname part hpart).2.2) (by simpa using hparts)]
    apply List.filter_eq_self.mpr
    intro part hpart
    simpa using ⟨(hname part hpart).1, (hname part hpart).2.1⟩

theorem str_injective : Function.Injective VaultPath.str := by
  intro p q h
  have hparts : p.parts.map String.toList = q.parts.map String.toList := by
    rw [← splitOn_str, ← splitOn_str, h]
  obtain ⟨parts, _⟩ := p
  obtain ⟨parts', _⟩ := q
  have hsame : parts = parts' := (List.map_injective_iff.mpr fun _ _ => String.toList_inj.mp) hparts
  subst hsame
  rfl

private theorem str_toList_head (p : VaultPath) : ∃ c rest, p.str.toList = c :: rest ∧ c ≠ '/' := by
  unfold VaultPath.str
  obtain ⟨parts, names⟩ := p
  cases parts with
  | nil =>
    rw [if_pos rfl]
    exact ⟨'.', [], rfl, by decide⟩
  | cons name rest =>
    obtain ⟨hempty, -, hslash⟩ := names name List.mem_cons_self
    cases hchars : name.toList with
    | nil => exact absurd (String.toList_inj.mp hchars) hempty
    | cons c body =>
      rw [hchars] at hslash
      refine ⟨c, body ++ (['/'].intercalate (name.toList :: rest.map String.toList)).drop name.toList.length, ?_,
        fun h => hslash (h ▸ List.mem_cons_self)⟩
      rw [if_neg (by simp), String.toList_ofList, List.map_cons]
      cases rest <;> simp [List.intercalate, hchars]

/-- The text of a vault path is the text of the path it denotes. -/
theorem pathStr_str (p : VaultPath) : pathStr p.str = p.str := by
  obtain ⟨c, rest, hhead, hc⟩ := str_toList_head p
  have hroot : ¬ ['/'] <+: p.str.toList := by
    rw [hhead]
    rintro ⟨_, h⟩
    exact hc (List.cons.inj h).1.symm
  have hdouble : ¬ ['/', '/'] <+: p.str.toList := fun h => hroot ((List.prefix_append ['/'] ['/']).trans h)
  have hparts := splitOn_str p
  unfold pathStr
  simp only [hroot, hdouble, false_and, if_false, hparts, List.nil_append]
  unfold VaultPath.str
  obtain ⟨parts, names⟩ := p
  cases parts with
  | nil => rfl
  | cons name rest =>
    have hne : ['/'].intercalate ((name :: rest).map String.toList) ≠ [] := by
      intro hnil
      rw [VaultPath.str, if_neg (by simp), hnil] at hhead
      cases hhead
    rw [if_neg hne, if_neg (by simp)]

end Paths

section Encoding

private theorem keys_nodup {α : Type} (d : OrderedDict VaultPath α) (g : α → Json ν) :
    ((d.items.map fun item => (item.1.str, g item.2)).map Prod.fst).Nodup := by
  have hkeys : (d.items.map fun item => (item.1.str, g item.2)).map Prod.fst =
      (d.items.map Prod.fst).map VaultPath.str := by
    simp
  rw [hkeys]
  exact d.nodup.map str_injective

private theorem entries_of_encoded {cache cache' : ExtractionCache ν} (h : (encoded cache).1 = (encoded cache').1) :
    cache.entries.items = cache'.entries.items := by
  have hinjective : Function.Injective fun item : VaultPath × PyDict ν => (item.1.str, Json.obj item.2) := by
    rintro ⟨p, result⟩ ⟨q, result'⟩ hpair
    rw [Prod.mk.injEq] at hpair
    exact Prod.ext (str_injective hpair.1) (Json.obj.inj hpair.2)
  exact List.map_injective_iff.mpr hinjective h

private theorem mtimes_of_encoded {cache cache' : ExtractionCache ν} (h : (encoded cache).2 = (encoded cache').2) :
    cache.mtimes.items = cache'.mtimes.items := by
  have hinjective : Function.Injective fun item : VaultPath × ν => (item.1.str, (Json.num item.2 : Json ν)) := by
    rintro ⟨p, m⟩ ⟨q, m'⟩ hpair
    rw [Prod.mk.injEq] at hpair
    exact Prod.ext (str_injective hpair.1) (Json.num.inj hpair.2)
  exact List.map_injective_iff.mpr hinjective h

/-- The two dictionaries determine the cache. -/
theorem encoded_injective : Function.Injective (encoded : ExtractionCache ν → PyDict ν × PyDict ν) := by
  rintro ⟨⟨entries, _⟩, ⟨mtimes, _⟩⟩ ⟨⟨entries', _⟩, ⟨mtimes', _⟩⟩ h
  obtain rfl : entries = entries' := entries_of_encoded (congrArg Prod.fst h)
  obtain rfl : mtimes = mtimes' := mtimes_of_encoded (congrArg Prod.snd h)
  rfl

/-- Every result is a dictionary that has no key twice, at any depth. -/
def Distinct (cache : ExtractionCache ν) : Prop :=
  ∀ p result, cache.get p = some result → deduped (.obj result) = .obj result

theorem load_saveText (format : NumberFormat ν) {cache : ExtractionCache ν} (h : Distinct cache) :
    load format (saveText format cache) = .ok ⟨.obj (encoded cache).1, .obj (encoded cache).2⟩ := by
  have hentries : deduped (.obj (encoded cache).1) = .obj (encoded cache).1 := by
    apply deduped_obj (keys_nodup cache.entries Json.obj)
    intro member hmember
    obtain ⟨item, hitem, rfl⟩ := List.mem_map.mp hmember
    exact h item.1 item.2 ((OrderedDict.get_eq_some_iff _ _ _).mpr hitem)
  have hmtimes : deduped (.obj (encoded cache).2) = .obj (encoded cache).2 := by
    apply deduped_obj (keys_nodup cache.mtimes Json.num)
    intro member hmember
    obtain ⟨item, -, rfl⟩ := List.mem_map.mp hmember
    rfl
  have hdata : deduped (.obj [("entries", .obj (encoded cache).1), ("mtimes", .obj (encoded cache).2)]) =
      .obj [("entries", .obj (encoded cache).1), ("mtimes", .obj (encoded cache).2)] := by
    apply deduped_obj (by simp)
    intro member hmember
    simp only [List.mem_cons, List.not_mem_nil, or_false] at hmember
    rcases hmember with rfl | rfl
    · exact hentries
    · exact hmtimes
  rw [load, saveText, loads_dumps, hdata]
  rfl

private theorem lookup_mtimes (cache : ExtractionCache ν) (p : VaultPath) :
    Json.lookup p.str (encoded cache).2 = (cache.mtime p).map Json.num :=
  OrderedDict.lookup_map str_injective Json.num p cache.mtimes.items

private theorem byPath_of_normal {entries : PyDict ν} (hkeys : (entries.map Prod.fst).Nodup)
    (hnormal : ∀ entry ∈ entries, pathStr entry.1 = entry.1) : LoadedCache.byPath entries = entries := by
  have hsame : LoadedCache.byPath entries = entries.foldl (fun d entry => OrderedDict.setItem entry.1 entry.2 d) [] := by
    apply List.foldl_ext
    intro d entry hentry
    rw [hnormal entry hentry]
  rw [hsame, OrderedDict.foldl_setItem_of_nodup hkeys]

private theorem byPath_encoded (cache : ExtractionCache ν) : LoadedCache.byPath (encoded cache).1 =
    (encoded cache).1 := by
  apply byPath_of_normal (keys_nodup cache.entries Json.obj)
  intro entry hentry
  obtain ⟨item, -, rfl⟩ := List.mem_map.mp hentry
  exact pathStr_str item.1

private theorem items_dropUnobserved (observed : List VaultPath) (cache : ExtractionCache ν) :
    (dropUnobserved observed cache).entries.items =
      cache.entries.items.filter fun item => item.1 ∉ cache.entries.keys.filter fun p => p ∉ observed := by
  have hdelete : ∀ (ks : List VaultPath) (c : ExtractionCache ν),
      (ks.foldl ExtractionCache.delete c).entries.items = c.entries.items.filter fun item => item.1 ∉ ks := by
    intro ks
    induction ks with
    | nil => simp
    | cons k ks ih =>
      intro c
      rw [List.foldl_cons, ih]
      simp [ExtractionCache.delete, OrderedDict.erase, List.filter_filter, Bool.and_comm]
  exact hdelete _ cache

private theorem mergeResults_encoded (cache : ExtractionCache ν) :
    mergeResults (encoded cache).1 = cache.entries.values.foldlM extendWith ([], []) := by
  simp [mergeResults, encoded, OrderedDict.values, List.foldlM_map]

end Encoding

/-- A first `publish`. -/
theorem publish_initial {G : Graphify ν γ τ} {graph : γ} {published : GraphSnapshot γ τ} :
    (∃ holder, SnapshotHolder.initial.publish G graph .empty = .done holder ∧ holder.current = some published) ↔
      ((G.getTrigramIndex graph).bind fun index => .ok ⟨graph, index, .empty, 1⟩) = .ok published := by
  rw [bind_eq_ok]
  constructor
  · rintro ⟨holder, hholder, hcurrent⟩
    obtain ⟨index, hindex, rfl⟩ := publish_eq_done.mp hholder
    exact ⟨index, hindex, congrArg Except.ok (Option.some.inj hcurrent)⟩
  · rintro ⟨index, hindex, hpublished⟩
    cases hpublished
    exact ⟨_, publish_eq_done.mpr ⟨index, hindex, rfl⟩, rfl⟩

section Simulation
variable [DecidableEq ν] [NatCast ν]

/-- What the walk does to a cache, file by file. -/
def refresh (cache : ExtractionCache ν) (seen : SeenFile ν) : ExtractionCache ν :=
  if cache.mtime seen.path = some seen.mtime then cache else storeAtMtime seen.path seen.mtime seen.result cache

private theorem refreshed_encoded (seen : List (SeenFile ν)) (cache : ExtractionCache ν) :
    refreshed (encoded cache) seen = encoded (seen.foldl refresh cache) := by
  induction seen generalizing cache with
  | nil => rfl
  | cons file rest ih =>
    have hsame : sameMtime (Json.lookup file.path.str (encoded cache).2) file.mtime = true ↔
        cache.mtime file.path = some file.mtime := by
      rw [lookup_mtimes]
      cases cache.mtime file.path <;> simp [sameMtime]
    have hround : refreshed (encoded cache) [file] = encoded (refresh cache file) := by
      by_cases hm : cache.mtime file.path = some file.mtime
      · simp [refreshed, refresh, hm, hsame.mpr hm]
      · have hnot : sameMtime (Json.lookup file.path.str (encoded cache).2) file.mtime = false := by
          rw [Bool.eq_false_iff]
          exact fun h => hm (hsame.mp h)
        cases hresult : file.result with
        | none => simp [refreshed, refresh, hm, hnot, hresult, storeAtMtime]
        | some result =>
          have hentries := OrderedDict.setItem_map str_injective Json.obj file.path result cache.entries.items
          have hmtimes := OrderedDict.setItem_map str_injective Json.num file.path file.mtime cache.mtimes.items
          simp only [refreshed, List.foldl_cons, List.foldl_nil, hnot, Bool.false_eq_true, if_false, hresult, refresh,
            if_neg hm,
            storeAtMtime]
          exact Prod.ext hentries hmtimes
    rw [List.foldl_cons, ← ih, ← hround]
    rfl

/-- The results that stand are those of the cache after the walk and the clean-up. -/
theorem standing_encoded (cache : ExtractionCache ν) (seen : List (SeenFile ν)) :
    standing (encoded cache) seen = (encoded (dropUnobserved (seen.map SeenFile.path) (seen.foldl refresh cache))).1 := by
  have hkeys : (encoded (seen.foldl refresh cache)).1.map Prod.fst =
      (seen.foldl refresh cache).entries.keys.map VaultPath.str := by
    simp [encoded, OrderedDict.keys]
  have hpaths : (seen.map fun file => file.path.str) = (seen.map SeenFile.path).map VaultPath.str := by
    simp
  have hgone : ∀ p : VaultPath, p.str ∈ ((encoded (seen.foldl refresh cache)).1.map Prod.fst).filter
      (fun key => key ∉ seen.map fun file => file.path.str) ↔
        p ∈ (seen.foldl refresh cache).entries.keys.filter fun q => q ∉ seen.map SeenFile.path := by
    intro p
    rw [hkeys, hpaths, List.mem_filter, List.mem_filter, List.mem_map_of_injective str_injective]
    simp only [List.mem_map_of_injective str_injective]
  have hkept : ((encoded (seen.foldl refresh cache)).1.filter fun entry => entry.1 ∉
      ((encoded (seen.foldl refresh cache)).1.map Prod.fst).filter fun key => key ∉ seen.map fun file => file.path.str) =
        (encoded (dropUnobserved (seen.map SeenFile.path) (seen.foldl refresh cache))).1 := by
    rw [show (encoded (dropUnobserved (seen.map SeenFile.path) (seen.foldl refresh cache))).1 =
      (dropUnobserved (seen.map SeenFile.path) (seen.foldl refresh cache)).entries.items.map
        (fun item => (item.1.str, Json.obj item.2)) from rfl, items_dropUnobserved]
    refine (List.filter_map).trans (congrArg _ (List.filter_congr fun item _ => ?_))
    exact decide_eq_decide.mpr (not_congr (hgone item.1))
  unfold standing
  simp only [refreshed_encoded, byPath_encoded]
  rw [hkept, byPath_encoded]

omit [NatCast ν] in
/-- A round of the typed walk is the walk's answer, then the comparison. -/
theorem coldVisit_eq_done {nested : List String} {entry : WalkEntry ν} {r r' : Reconciliation ν} :
    coldVisit nested entry r = .done r' ↔ ∃ seen, observe nested entry = .ok seen ∧
      r' = match seen with
        | none => r
        | some file => ⟨refresh r.cache file, r.observed ++ [file.path]⟩ := by
  unfold coldVisit observe
  cases entry.isDir with
  | error e => simp
  | ok isDir =>
    dsimp only
    by_cases hskip : isDir = true ∨ suffix entry.path ∉ OBSERVED_SUFFIXES
    · simp [hskip, eq_comm]
    · rw [if_neg hskip, if_neg hskip]
      by_cases hex : isExcluded nested entry.path = true
      · simp [hex, eq_comm]
      · rw [if_neg hex, if_neg hex]
        cases entry.confined with
        | error e => simp
        | ok confined => cases confined with
          | false => simp [eq_comm]
          | true => cases entry.stat with
            | missing => simp
            | failed e => simp
            | found m size =>
              by_cases hm : r.cache.mtime entry.path = some m
              · simp [refresh, hm, eq_comm]
              · simp [refresh, Ne.symm hm, hm, eq_comm]

omit [NatCast ν] in
private theorem forEach_coldVisit_eq_done {nested : List String} {walk : List (WalkEntry ν)} {r r' : Reconciliation ν} :
    Outcome.forEach (coldVisit nested) walk r = .done r' ↔ ∃ seen, observeWalk nested walk = .ok seen ∧
      r' = ⟨seen.foldl refresh r.cache, r.observed ++ seen.map SeenFile.path⟩ := by
  induction walk generalizing r with
  | nil => simp [observeWalk, eq_comm]
  | cons entry rest ih =>
    rw [Outcome.forEach_cons, Outcome.andThen_eq_done]
    simp only [ih, coldVisit_eq_done]
    cases hentry : observe nested entry with
    | error e => simp [observeWalk, hentry]
    | ok seen =>
      cases hrest : observeWalk nested rest with
      | error e => simp [observeWalk, hentry, hrest]
      | ok later =>
        have hwalk : observeWalk nested (entry :: rest) = .ok (seen.toList ++ later) := by
          simp [observeWalk, hentry, hrest]
        cases seen with
        | none => simp [hwalk]
        | some file => simp [hwalk]

private theorem standing_of_usable {seen : List (SeenFile ν)} {cache : ExtractionCache ν}
    {recorded : PyDict ν × PyDict ν}
    (h : Usable seen ⟨.obj (encoded cache).1, .obj (encoded cache).2⟩ recorded) :
    standing recorded seen = standing (encoded cache) seen := by
  have hentries : (encoded cache).1 = recorded.1 := Json.obj.inj h.entries
  rcases h.mtimes with hmtimes | ⟨rfl, rfl⟩
  · have hsame : encoded cache = recorded := Prod.ext hentries (Json.obj.inj hmtimes)
    rw [hsame]
  · simp [standing, refreshed, hentries]

omit [NatCast ν] in
/-- A cold start that completes has walked the vault, built a graph of the cache that the
walk leaves, and published it. -/
theorem runColdStart_built (G : Graphify ν γ τ) {nested : List String} {walk : List (WalkEntry ν)}
    {start d : Daemon ν γ τ} :
    runColdStart G nested walk start = .done d ↔
    ∃ seen, observeWalk nested walk = .ok seen ∧
      ∃ graph, buildGraph G (dropUnobserved (seen.map SeenFile.path) (seen.foldl refresh start.cache)) = .ok graph ∧
      ∃ holder, start.holder.publish G graph .empty = .done holder ∧
        d = { start with
          cache := dropUnobserved (seen.map SeenFile.path) (seen.foldl refresh start.cache), holder := holder } := by
  unfold runColdStart
  cases hloop : Outcome.forEach (coldVisit nested) walk (⟨start.cache, []⟩ : Reconciliation ν) with
  | raised e r =>
    simp only [reduceCtorEq, false_iff]
    rintro ⟨seen, hseen, -⟩
    have hdone := (forEach_coldVisit_eq_done (r := ⟨start.cache, []⟩)).mpr ⟨seen, hseen, rfl⟩
    rw [hloop] at hdone
    cases hdone
  | done r =>
    obtain ⟨seen, hseen, rfl⟩ := forEach_coldVisit_eq_done.mp hloop
    have honly : ∀ seen', observeWalk nested walk = .ok seen' ↔ seen' = seen := by simp [hseen, eq_comm]
    simp only [honly, exists_eq_left, List.nil_append]
    cases hgraph : buildGraph G (dropUnobserved (seen.map SeenFile.path) (seen.foldl refresh start.cache)) with
    | error e => simp
    | ok graph =>
      cases hpublish : start.holder.publish G graph .empty with
      | raised e holder => simp [hpublish, Outcome.within]
      | done holder => simp [hpublish, Outcome.within, eq_comm]

omit [NatCast ν] in
/-- What a new process publishes is made of the results of the cache its cold start leaves. -/
theorem runColdStart_eq_done (G : Graphify ν γ τ) {nested : List String} {walk : List (WalkEntry ν)}
    {start : Daemon ν γ τ} (hstart : start.holder = .initial) {published : GraphSnapshot γ τ} :
    (∃ d, runColdStart G nested walk start = .done d ∧ d.holder.current = some published) ↔
    ∃ seen, observeWalk nested walk = .ok seen ∧ ∃ merged,
      (dropUnobserved (seen.map SeenFile.path) (seen.foldl refresh start.cache)).entries.values.foldlM extendWith ([], []) =
        .ok merged ∧ publishMerged G merged = .ok published := by
  constructor
  · rintro ⟨d, hd, hcurrent⟩
    obtain ⟨seen, hseen, graph, hgraph, holder, hholder, rfl⟩ := (runColdStart_built G).mp hd
    refine ⟨seen, hseen, ?_⟩
    unfold buildGraph at hgraph
    split at hgraph
    · cases hgraph
    · rename_i merged hmerged
      rw [hstart] at hholder
      have hindex := publish_initial.mp ⟨holder, hholder, hcurrent⟩
      exact ⟨merged, hmerged, bind_eq_ok.mpr ⟨graph, hgraph, hindex⟩⟩
  · rintro ⟨seen, hseen, merged, hmerged, hpublished⟩
    obtain ⟨graph, hgraph, hindex⟩ := bind_eq_ok.mp hpublished
    obtain ⟨holder, hholder, hcurrent⟩ := publish_initial.mpr hindex
    have hresult : buildGraph G (dropUnobserved (seen.map SeenFile.path) (seen.foldl refresh start.cache)) = .ok graph := by
      rw [buildGraph, hmerged]
      exact hgraph
    rw [← hstart] at hholder
    exact ⟨_, (runColdStart_built G).mpr ⟨seen, hseen, graph, hresult, holder, hholder, rfl⟩, hcurrent⟩

/-- On the dictionaries of a cache, the cold start of any content publishes what that of the
cache does. -/
theorem coldStartOn_encoded (G : Graphify ν γ τ) (nested : List String) (walk : List (WalkEntry ν))
    (start : Daemon ν γ τ) (hstart : start.holder = .initial) {published : GraphSnapshot γ τ} :
    coldStartOn G nested walk ⟨.obj (encoded start.cache).1, .obj (encoded start.cache).2⟩ = .ok published ↔
      ∃ d, runColdStart G nested walk start = .done d ∧ d.holder.current = some published := by
  rw [coldStartOn_eq_ok, runColdStart_eq_done G hstart]
  constructor
  · rintro ⟨seen, hseen, recorded, husable, merged, hmerged, hpublished⟩
    rw [standing_of_usable husable, standing_encoded, mergeResults_encoded] at hmerged
    exact ⟨seen, hseen, merged, hmerged, hpublished⟩
  · rintro ⟨seen, hseen, merged, hmerged, hpublished⟩
    refine ⟨seen, hseen, encoded start.cache, ⟨rfl, .inl rfl⟩, merged, ?_, hpublished⟩
    rw [standing_encoded, mergeResults_encoded]
    exact hmerged

/-- The saved text stands for the saved cache. -/
theorem coldStartFrom_saveText (format : NumberFormat ν) (G : Graphify ν γ τ) {nested : List String}
    {walk : List (WalkEntry ν)} {start : Daemon ν γ τ} (hstart : start.holder = .initial) {cache : ExtractionCache ν}
    (h : Distinct cache) {published : GraphSnapshot γ τ} :
    coldStartFrom format G nested walk (.text (saveText format cache)) = .ok published ↔
      ∃ d, ({ start with graphCache := .intact cache }).coldStart G nested walk = .done d ∧
        d.holder.current = some published := by
  rw [coldStartFrom, CacheFile.content, load_saveText format h]
  exact coldStartOn_encoded G nested walk { start with graphCache := .intact cache, cache := cache } hstart

/-- No file stands for an empty cache. -/
theorem coldStartFrom_absent (format : NumberFormat ν) (G : Graphify ν γ τ) {nested : List String}
    {walk : List (WalkEntry ν)} {start : Daemon ν γ τ} (hstart : start.holder = .initial) (hempty : start.cache = .empty)
    {published : GraphSnapshot γ τ} :
    coldStartFrom format G nested walk .absent = .ok published ↔
      ∃ d, ({ start with graphCache := .absent }).coldStart G nested walk = .done d ∧
        d.holder.current = some published := by
  have hcache : coldStartFrom format G nested walk .absent =
      coldStartOn G nested walk ⟨.obj (encoded start.cache).1, .obj (encoded start.cache).2⟩ := by
    rw [hempty]
    rfl
  rw [hcache]
  exact coldStartOn_encoded G nested walk { start with graphCache := .absent } hstart

end Simulation

end GraphifyDaemon
