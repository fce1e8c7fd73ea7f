import GraphifyDaemon.Library.LruCache
import GraphifyDaemon.Library.JsonSchema
import GraphifyDaemon.VaultCompiler.Snapshot

/-! The `query_graph` tool: what it accepts, what it asks graphify, and the key under which
its answers are cached. -/
namespace GraphifyDaemon
open Library Library.JsonSchema

variable {ν γ τ : Type}

/-- The query of graphify, on argument values as a request gave them, and the message of a
`jsonschema.ValidationError`. -/
structure QueryEngine (ν γ : Type) where
  queryGraphText : (graph : γ) → (question mode : Json ν) → (depth tokenBudget : Int) →
    (contextFilters : Json ν) → Except PyError String
  validationMessage : PyDict ν → String

/-- An empty list of filters asks for what no filters ask for. -/
def QueryEngine.EmptyFiltersAreNone (E : QueryEngine ν γ) : Prop :=
  ∀ graph question mode depth tokenBudget,
    E.queryGraphText graph question mode depth tokenBudget (.arr []) =
      E.queryGraphText graph question mode depth tokenBudget .null

/-- The schema of `query_graph` in `TOOL_DEFINITIONS`. -/
def queryGraphSchema : ObjectSchema where
  properties := [("question", .string), ("mode", .choice ["bfs", "dfs"]), ("depth", .integer 1 6),
    ("token_budget", .integer 1 20000), ("context_filter", .strings 50)]
  required := ["question"]

/-- `int(arguments.get(name, default))` -/
def intArgument (reading : IntReading ν) (name : String) (default : Int) (arguments : PyDict ν) :
    Except PyError Int :=
  match Json.lookup name arguments with
  | some v => toInt reading v
  | none => .ok default

def modeArgument (arguments : PyDict ν) : Json ν := (Json.lookup "mode" arguments).getD (.str "bfs")

def contextFilterArgument (arguments : PyDict ν) : Json ν := (Json.lookup "context_filter" arguments).getD .null

def toolQueryGraph (E : QueryEngine ν γ) (reading : IntReading ν) (arguments : PyDict ν)
    (snapshot : GraphSnapshot γ τ) : Except PyError String := do
  let question ← Json.getItem "question" arguments
  let depth ← intArgument reading "depth" 3 arguments
  let tokenBudget ← intArgument reading "token_budget" 2000 arguments
  E.queryGraphText snapshot.graph question (modeArgument arguments) depth tokenBudget
    (contextFilterArgument arguments)

/-- The filters of a request that was let through are a list of strings, if it has any. -/
theorem contextFilterArgument_of_accepts {reading : IntReading ν} {arguments : PyDict ν}
    (h : queryGraphSchema.accepts reading arguments) :
    contextFilterArgument arguments = .null ∨ ∃ filters, contextFilterArgument arguments = .arr filters := by
  unfold contextFilterArgument
  cases hfilter : Json.lookup "context_filter" arguments with
  | none => exact .inl rfl
  | some v =>
    have hproperty : ("context_filter", PropertySchema.strings 50) ∈ queryGraphSchema.properties := by
      simp [queryGraphSchema]
    exact .inr (PropertySchema.accepts_strings (ObjectSchema.accepts_property h hproperty hfilter))

/-- What `query_graph` answers are cached under. A request that was let through has strings
here, on which equality is Python's. -/
structure CacheKey (ν : Type) where
  version : Nat
  question : Json ν
  mode : Json ν
  depth : Int
  tokenBudget : Int
  contextFilters : Option (List (Json ν))
  deriving DecidableEq

section Keys
variable [Zero ν] [DecidableEq ν]

/-- `tuple(context_filter) if context_filter else None` -/
def filterTuple (contextFilter : Json ν) : Except PyError (Option (List (Json ν))) :=
  if contextFilter.truthy then contextFilter.iterate.map some else .ok none

/-- `cache_kwargs` of `_dispatch` -/
def cacheKwargs (reading : IntReading ν) (arguments : PyDict ν) (version : Nat) : Except PyError (CacheKey ν) := do
  let question ← Json.getItem "question" arguments
  let depth ← intArgument reading "depth" 3 arguments
  let tokenBudget ← intArgument reading "token_budget" 2000 arguments
  let contextFilters ← filterTuple (contextFilterArgument arguments)
  pure ⟨version, question, modeArgument arguments, depth, tokenBudget, contextFilters⟩

/-- The query that a key stands for. -/
def CacheKey.answer (E : QueryEngine ν γ) (key : CacheKey ν) (graph : γ) : Except PyError String :=
  E.queryGraphText graph key.question key.mode key.depth key.tokenBudget
    (match key.contextFilters with
      | some filters => .arr filters
      | none => .null)

theorem cacheKwargs_eq_ok {reading : IntReading ν} {arguments : PyDict ν} {version : Nat} {key : CacheKey ν}
    (h : cacheKwargs reading arguments version = .ok key) :
    key.version = version ∧ key.mode = modeArgument arguments ∧
      Json.getItem "question" arguments = .ok key.question ∧
      intArgument reading "depth" 3 arguments = .ok key.depth ∧
      intArgument reading "token_budget" 2000 arguments = .ok key.tokenBudget ∧
      filterTuple (contextFilterArgument arguments) = .ok key.contextFilters := by
  obtain ⟨question, hquestion, h⟩ := bind_eq_ok.mp h
  obtain ⟨depth, hdepth, h⟩ := bind_eq_ok.mp h
  obtain ⟨tokenBudget, htokenBudget, h⟩ := bind_eq_ok.mp h
  obtain ⟨contextFilters, hcontextFilters, h⟩ := bind_eq_ok.mp h
  cases h
  exact ⟨rfl, rfl, hquestion, hdepth, htokenBudget, hcontextFilters⟩

/-- The key says all that the query depends on, apart from the graph. -/
theorem toolQueryGraph_eq_answer {E : QueryEngine ν γ} (hempty : E.EmptyFiltersAreNone) {reading : IntReading ν}
    {arguments : PyDict ν} (haccepts : queryGraphSchema.accepts reading arguments) {version : Nat} {key : CacheKey ν}
    (hkey : cacheKwargs reading arguments version = .ok key) (snapshot : GraphSnapshot γ τ) :
    toolQueryGraph E reading arguments snapshot = key.answer E snapshot.graph := by
  obtain ⟨-, hmode, hquestion, hdepth, htokenBudget, hfilters⟩ := cacheKwargs_eq_ok hkey
  unfold toolQueryGraph CacheKey.answer
  rw [hquestion, hdepth, htokenBudget, ← hmode]
  rcases contextFilterArgument_of_accepts haccepts with hnone | ⟨filters, hsome⟩
  · rw [hnone] at hfilters ⊢
    have hkeyed : key.contextFilters = none := (Except.ok.inj hfilters).symm
    rw [hkeyed]
    rfl
  · rw [hsome] at hfilters ⊢
    cases filters with
    | nil =>
      have hkeyed : key.contextFilters = none := (Except.ok.inj hfilters).symm
      rw [hkeyed]
      exact hempty _ _ _ _ _
    | cons first rest =>
      have hkeyed : key.contextFilters = some (first :: rest) := (Except.ok.inj hfilters).symm
      rw [hkeyed]
      rfl

/-- A request that was let through always has a key. -/
theorem exists_cacheKwargs {reading : IntReading ν} {arguments : PyDict ν}
    (h : queryGraphSchema.accepts reading arguments) (version : Nat) :
    ∃ key, cacheKwargs reading arguments version = .ok key := by
  have hint : ∀ name minimum maximum default, (name, .integer minimum maximum) ∈ queryGraphSchema.properties →
      ∃ i, intArgument reading name default arguments = .ok i := by
    intro name minimum maximum default hproperty
    unfold intArgument
    cases hv : Json.lookup name arguments with
    | none => exact ⟨default, rfl⟩
    | some v =>
      obtain ⟨i, hi, -⟩ := PropertySchema.accepts_integer (ObjectSchema.accepts_property h hproperty hv)
      exact ⟨i, hi⟩
  obtain ⟨question, hquestion⟩ := ObjectSchema.accepts_required h (show "question" ∈ queryGraphSchema.required by decide)
  obtain ⟨depth, hdepth⟩ := hint "depth" 1 6 3 (by simp [queryGraphSchema])
  obtain ⟨tokenBudget, htokenBudget⟩ := hint "token_budget" 1 20000 2000 (by simp [queryGraphSchema])
  have hitem : Json.getItem "question" arguments = .ok question := by
    simp [Json.getItem, hquestion]
  obtain ⟨contextFilters, hfilters⟩ : ∃ contextFilters,
      filterTuple (contextFilterArgument arguments) = .ok contextFilters := by
    rcases contextFilterArgument_of_accepts h with hnone | ⟨filters, hsome⟩
    · exact ⟨none, by simp [hnone, filterTuple, Json.truthy]⟩
    · rw [hsome, filterTuple]
      split_ifs
      · exact ⟨some filters, rfl⟩
      · exact ⟨none, rfl⟩
  refine ⟨⟨version, question, modeArgument arguments, depth, tokenBudget, contextFilters⟩, ?_⟩
  unfold cacheKwargs
  rw [hitem, hdepth, htokenBudget, hfilters]
  rfl

end Keys

structure QueryCache (ν : Type) where
  lru : LruCache (CacheKey ν) String
  hits : Nat
  misses : Nat

namespace QueryCache

variable [DecidableEq ν]

def initial (maxsize : Int) : QueryCache ν := ⟨.empty maxsize, 0, 0⟩

def get (key : CacheKey ν) (cache : QueryCache ν) : Option String × QueryCache ν :=
  match cache.lru.get key with
  | (none, lru) => (none, { cache with lru := lru, misses := cache.misses + 1 })
  | (some text, lru) => (some text, { cache with lru := lru, hits := cache.hits + 1 })

def set (key : CacheKey ν) (result : String) (cache : QueryCache ν) : QueryCache ν :=
  { cache with lru := cache.lru.set key result }

/-- Every cached answer is one of these. -/
def Only (p : CacheKey ν → String → Prop) (cache : QueryCache ν) : Prop := cache.lru.Only p

theorem Only.get {p : CacheKey ν → String → Prop} {cache : QueryCache ν} (h : Only p cache) (key : CacheKey ν) :
    Only p (cache.get key).2 ∧ ∀ text, (cache.get key).1 = some text → p key text := by
  have hlru := LruCache.Only.get h key
  unfold QueryCache.get
  split
  · rename_i lru hget
    rw [hget] at hlru
    exact ⟨hlru.1, by simp⟩
  · rename_i text lru hget
    rw [hget] at hlru
    exact hlru

theorem Only.set {p : CacheKey ν → String → Prop} {cache : QueryCache ν} (h : Only p cache) {key : CacheKey ν}
    {result : String} (hnew : p key result) : Only p (cache.set key result) :=
  LruCache.Only.set h hnew

end QueryCache
end GraphifyDaemon
