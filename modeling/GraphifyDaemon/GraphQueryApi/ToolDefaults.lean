import GraphifyDaemon.GraphQueryApi.ReadTools

/-! The defaults in the schemas of the tools, against what the handlers do without an argument. -/
namespace GraphifyDaemon
open Library Library.JsonSchema

variable {ν γ τ : Type} {reading : IntReading ν} {number : Int → ν}

/-- `number` writes an integer so that it is read back. -/
def WritesIntegers (reading : IntReading ν) (number : Int → ν) : Prop := ∀ i, reading.whole (number i) = some i

namespace Tool

private theorem wellFormed (hnumber : WritesIntegers reading number) (tool : Tool) :
    tool.schema.WellFormed reading number where
  nodup := by cases tool <;> decide
  admits := by
    have hread : ∀ i, reading.whole (number i) = some i := hnumber
    cases tool <;>
      simp [schema, tokenBudgetSchema, Default.value, ValueSchema.accepts, PropertySchema.accepts, hread]

end Tool

section Readings
variable {tool : Tool} {arguments : PyDict ν}

/-- An argument without a default reads the same. -/
theorem lookup_withDefaults_of_none (hnumber : WritesIntegers reading number) {name : String} {schema : ValueSchema}
    (hargument : ⟨name, schema, none⟩ ∈ tool.schema.arguments) :
    Json.lookup name (tool.schema.withDefaults number arguments) = Json.lookup name arguments := by
  have hlookup : Json.lookup name (tool.schema.withDefaults number arguments) = _ :=
    ToolSchema.lookup_withDefaults (tool.wellFormed hnumber) hargument
  rw [hlookup, Option.map_none, Option.or_none]

private theorem getItem_withDefaults (hnumber : WritesIntegers reading number) {name : String} {schema : ValueSchema}
    (hargument : ⟨name, schema, none⟩ ∈ tool.schema.arguments) :
    Json.getItem name (tool.schema.withDefaults number arguments) = Json.getItem name arguments := by
  rw [Json.getItem, Json.getItem, lookup_withDefaults_of_none hnumber hargument]

/-- An integer reads the same, whether its default is spelled out or not. -/
theorem intArgument_withDefaults (hnumber : WritesIntegers reading number) {name : String} {schema : ValueSchema} {i : Int}
    (hargument : ⟨name, schema, some (.number i)⟩ ∈ tool.schema.arguments) :
    intArgument reading name i (tool.schema.withDefaults number arguments) = intArgument reading name i arguments := by
  have hlookup : Json.lookup name (tool.schema.withDefaults number arguments) = _ :=
    ToolSchema.lookup_withDefaults (tool.wellFormed hnumber) hargument
  rw [intArgument, intArgument, hlookup]
  cases Json.lookup name arguments with
  | some v => rfl
  | none => exact reading.truncate_whole (number i) i (hnumber i)

private theorem modeArgument_withDefaults (hnumber : WritesIntegers reading number) :
    modeArgument (Tool.queryGraph.schema.withDefaults number arguments) = modeArgument arguments := by
  have hlookup : Json.lookup "mode" (Tool.queryGraph.schema.withDefaults number arguments) =
      (Json.lookup "mode" arguments).or (some (.str "bfs")) :=
    ToolSchema.lookup_withDefaults (Tool.queryGraph.wellFormed hnumber) (.tail _ (.head _))
  rw [modeArgument, modeArgument, hlookup]
  cases Json.lookup "mode" arguments <;> rfl

private theorem contextFilterArgument_withDefaults (hnumber : WritesIntegers reading number) :
    contextFilterArgument (Tool.queryGraph.schema.withDefaults number arguments) = contextFilterArgument arguments := by
  rw [contextFilterArgument, contextFilterArgument,
    lookup_withDefaults_of_none hnumber (.tail _ (.tail _ (.tail _ (.tail _ (.head _)))))]

end Readings

section Handlers
variable {T : Toolbox ν γ τ} {snapshot : GraphSnapshot γ τ} {arguments : PyDict ν}

private theorem toolGetCommunityOf_withDefaults (hnumber : WritesIntegers T.reading number) :
    toolGetCommunityOf T.graphify T.reading (Tool.getCommunity.schema.withDefaults number arguments) snapshot =
      toolGetCommunityOf T.graphify T.reading arguments snapshot := by
  unfold toolGetCommunityOf
  rw [getItem_withDefaults hnumber (.head _), intArgument_withDefaults hnumber (.tail _ (.head _))]

private theorem toolGodNodes_withDefaults (hnumber : WritesIntegers T.reading number) :
    toolGodNodes T.reader T.reading (Tool.godNodes.schema.withDefaults number arguments) snapshot =
      toolGodNodes T.reader T.reading arguments snapshot := by
  unfold toolGodNodes
  rw [intArgument_withDefaults hnumber (.head _)]

/-- The query and the key that its answer is cached under read the same arguments. -/
theorem queryReadings_withDefaults (hnumber : WritesIntegers reading number) (arguments : PyDict ν) :
    let filled := Tool.queryGraph.schema.withDefaults number arguments
    Json.getItem "question" filled = Json.getItem "question" arguments ∧
      intArgument reading "depth" 3 filled = intArgument reading "depth" 3 arguments ∧
      intArgument reading "token_budget" 2000 filled = intArgument reading "token_budget" 2000 arguments :=
  ⟨getItem_withDefaults hnumber (.head _), intArgument_withDefaults hnumber (.tail _ (.tail _ (.head _))),
    intArgument_withDefaults hnumber (.tail _ (.tail _ (.tail _ (.head _))))⟩

private theorem toolQueryGraph_withDefaults (hnumber : WritesIntegers T.reading number) :
    toolQueryGraph T.engine T.reading (Tool.queryGraph.schema.withDefaults number arguments) snapshot =
      toolQueryGraph T.engine T.reading arguments snapshot := by
  obtain ⟨hquestion, hdepth, hbudget⟩ := queryReadings_withDefaults hnumber arguments
  unfold toolQueryGraph
  rw [hquestion, hdepth, hbudget, modeArgument_withDefaults hnumber, contextFilterArgument_withDefaults hnumber]

variable [Zero ν] [DecidableEq ν]

private theorem toolGetNode_withDefaults (hnumber : WritesIntegers reading number) :
    toolGetNode T.reader T.text (Tool.getNode.schema.withDefaults number arguments) snapshot =
      toolGetNode T.reader T.text arguments snapshot := by
  unfold toolGetNode
  rw [getItem_withDefaults hnumber (.head _)]

private theorem toolGetNeighbors_withDefaults (hnumber : WritesIntegers T.reading number) :
    toolGetNeighbors T.reader T.text T.reading (Tool.getNeighbors.schema.withDefaults number arguments) snapshot =
      toolGetNeighbors T.reader T.text T.reading arguments snapshot := by
  have hfilter : getOr "relation_filter" (.str "") (Tool.getNeighbors.schema.withDefaults number arguments) =
      getOr "relation_filter" (.str "") arguments := by
    rw [getOr, getOr, lookup_withDefaults_of_none hnumber (.tail _ (.head _))]
  unfold toolGetNeighbors
  rw [getItem_withDefaults hnumber (.head _), hfilter,
    intArgument_withDefaults hnumber (.tail _ (.tail _ (.head _)))]

private theorem cacheKwargs_withDefaults (hnumber : WritesIntegers reading number) (version : Nat) :
    cacheKwargs reading (Tool.queryGraph.schema.withDefaults number arguments) version =
      cacheKwargs reading arguments version := by
  obtain ⟨hquestion, hdepth, hbudget⟩ := queryReadings_withDefaults hnumber arguments
  unfold cacheKwargs
  rw [hquestion, hdepth, hbudget, modeArgument_withDefaults hnumber, contextFilterArgument_withDefaults hnumber]

/-- A request that spells out the defaults of the schema is accepted if the bare one is, gets
the same answer, and is cached under the same key. What `shortest_path` takes for an absent
argument is graphify's. -/
theorem advertised_defaults_are_used {tool : Tool} (hnumber : WritesIntegers T.reading number)
    (haccepts : tool.schema.accepts T.reading arguments = true) :
    let filled := tool.schema.withDefaults number arguments
    tool.schema.accepts T.reading filled = true ∧
      (tool ≠ .shortestPath → T.handler filled snapshot tool = T.handler arguments snapshot tool) ∧
      (tool = .queryGraph → ∀ version, cacheKwargs T.reading filled version = cacheKwargs T.reading arguments version) := by
  refine ⟨ToolSchema.accepts_withDefaults (tool.wellFormed hnumber) haccepts, ?_, ?_⟩
  · intro hpath
    cases tool with
    | queryGraph => exact toolQueryGraph_withDefaults hnumber
    | getNode => exact congrArg (Except.map String.ofList) (toolGetNode_withDefaults hnumber)
    | getNeighbors => exact congrArg (Except.map String.ofList) (toolGetNeighbors_withDefaults hnumber)
    | getCommunity => exact congrArg (Except.map String.ofList) (toolGetCommunityOf_withDefaults hnumber)
    | godNodes => exact congrArg (Except.map String.ofList) (toolGodNodes_withDefaults hnumber)
    | graphStats => rfl
    | shortestPath => exact absurd rfl hpath
  · rintro rfl version
    exact cacheKwargs_withDefaults hnumber version

end Handlers

theorem advertised_defaults_are_used_bareLabel :
    let bare : PyDict Int := [("label", .str "alpha")]
    let snapshot : GraphSnapshot PlainGraph Unit := ⟨linkedNotes, (), .empty, 1⟩
    plainToolbox.handler (Tool.getNeighbors.schema.withDefaults id bare) snapshot .getNeighbors =
      plainToolbox.handler bare snapshot .getNeighbors :=
  (advertised_defaults_are_used (fun _ => rfl) (by decide)).2.1 (by decide)

end GraphifyDaemon
