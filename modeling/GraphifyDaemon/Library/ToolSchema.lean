import GraphifyDaemon.Library.JsonSchema

/-! Schemas that say for each argument of a tool what may be given for it, and what is taken
when nothing is given. -/
namespace Library.JsonSchema
variable {ν : Type}

inductive ValueSchema where
  | property (schema : PropertySchema)
  | atLeast (minimum : Int)
  | boolean

def ValueSchema.accepts (reading : IntReading ν) : ValueSchema → Json ν → Bool
  | .property schema, v => schema.accepts reading v
  | .atLeast minimum, .num n => match reading.whole n with
    | some i => minimum ≤ i
    | none => false
  | .boolean, .bool _ => true
  | .atLeast _, _ | .boolean, _ => false

theorem ValueSchema.accepts_atLeast {reading : IntReading ν} {minimum : Int} {v : Json ν}
    (h : (ValueSchema.atLeast minimum).accepts reading v = true) : ∃ i, toInt reading v = .ok i ∧ minimum ≤ i := by
  cases v with
  | num n =>
    simp only [ValueSchema.accepts] at h
    cases hi : reading.whole n with
    | none => simp [hi] at h
    | some i => exact ⟨i, reading.truncate_whole n i hi, by simpa [hi] using h⟩
  | _ => simp [ValueSchema.accepts] at h

/-- A default, which a schema writes with Python's own numbers. -/
inductive Default where
  | text (s : String)
  | number (i : Int)
  | flag (b : Bool)

def Default.value (number : Int → ν) : Default → Json ν
  | .text s => .str s
  | .number i => .num (number i)
  | .flag b => .bool b

structure ArgumentSchema where
  name : String
  schema : ValueSchema
  default : Option Default

structure ToolSchema where
  arguments : List ArgumentSchema
  required : List String

namespace ToolSchema

def accepts (reading : IntReading ν) (schema : ToolSchema) (members : PyDict ν) : Bool :=
  schema.required.all (fun name => Json.hasKey name members) &&
    schema.arguments.all fun argument => match Json.lookup argument.name members with
      | some v => argument.schema.accepts reading v
      | none => true

/-- The advertised defaults of those arguments that are absent. -/
def missing (number : Int → ν) (members : PyDict ν) (arguments : List ArgumentSchema) : PyDict ν :=
  arguments.filterMap fun argument =>
    if Json.hasKey argument.name members then none
    else argument.default.map fun default => (argument.name, default.value number)

/-- A request that spells the defaults out. -/
def withDefaults (number : Int → ν) (schema : ToolSchema) (members : PyDict ν) : PyDict ν :=
  members ++ missing number members schema.arguments

/-- No argument is described twice, and every default is accepted where it stands. -/
structure WellFormed (reading : IntReading ν) (number : Int → ν) (schema : ToolSchema) : Prop where
  nodup : (schema.arguments.map ArgumentSchema.name).Nodup
  admits : ∀ argument ∈ schema.arguments, ∀ default, argument.default = some default →
    argument.schema.accepts reading (default.value number) = true

variable {reading : IntReading ν} {number : Int → ν} {schema : ToolSchema} {members : PyDict ν}

theorem lookup_append (name : String) (more : PyDict ν) :
    Json.lookup name (members ++ more) = (Json.lookup name members).or (Json.lookup name more) := by
  induction members with
  | nil => rfl
  | cons member rest ih =>
    simp only [Json.lookup] at ih
    simp only [Json.lookup, List.cons_append, OrderedDict.lookup]
    split_ifs
    · rfl
    · exact ih

theorem lookup_missing_cons (name : String) (first : ArgumentSchema) (rest : List ArgumentSchema) :
    Json.lookup name (missing number members (first :: rest)) =
      if first.name = name ∧ Json.hasKey name members = false then
        (first.default.map (Default.value number)).or (Json.lookup name (missing number members rest))
      else Json.lookup name (missing number members rest) := by
  have hcons : missing number members (first :: rest) =
      (if Json.hasKey first.name members then none
        else first.default.map fun default => (first.name, default.value number)).toList ++
          missing number members rest := by
    rw [missing, List.filterMap_cons]
    split <;> rename_i hitem <;> simp only [hitem, Option.toList_none, Option.toList_some, missing] <;> rfl
  rw [hcons, lookup_append]
  by_cases hname : first.name = name
  · subst hname
    cases Json.hasKey first.name members with
    | true => simp [Json.lookup, OrderedDict.lookup]
    | false => cases first.default <;> simp [Json.lookup, OrderedDict.lookup]
  · have hother : ¬ (first.name = name ∧ Json.hasKey name members = false) := fun h => hname h.1
    rw [if_neg hother]
    cases Json.hasKey first.name members with
    | true => rfl
    | false => cases first.default <;> simp [Json.lookup, OrderedDict.lookup, hname]

theorem lookup_missing_of_not_named {arguments : List ArgumentSchema} {name : String}
    (h : name ∉ arguments.map ArgumentSchema.name) : Json.lookup name (missing number members arguments) = none := by
  induction arguments with
  | nil => rfl
  | cons first rest ih =>
    simp only [List.map_cons, List.mem_cons, not_or] at h
    rw [lookup_missing_cons, if_neg (fun he => h.1 he.1.symm)]
    exact ih h.2

/-- An absent argument is made up for by its own default. -/
theorem lookup_missing {arguments : List ArgumentSchema} (hnodup : (arguments.map ArgumentSchema.name).Nodup)
    {argument : ArgumentSchema} (hargument : argument ∈ arguments) (habsent : Json.hasKey argument.name members = false) :
    Json.lookup argument.name (missing number members arguments) = argument.default.map (Default.value number) := by
  induction arguments with
  | nil => cases hargument
  | cons first rest ih =>
    obtain ⟨hfirst, hrest⟩ := List.nodup_cons.mp hnodup
    rw [lookup_missing_cons]
    rcases List.mem_cons.mp hargument with rfl | hmem
    · rw [if_pos ⟨rfl, habsent⟩, lookup_missing_of_not_named hfirst, Option.or_none]
    · have hne : first.name ≠ argument.name := fun he => hfirst (he ▸ List.mem_map_of_mem hmem)
      rw [if_neg (fun he => hne he.1)]
      exact ih hrest hmem

/-- Spelled out, an argument is what was given for it, or its default. -/
theorem lookup_withDefaults (hwell : schema.WellFormed reading number) {argument : ArgumentSchema}
    (hargument : argument ∈ schema.arguments) :
    Json.lookup argument.name (schema.withDefaults number members) =
      (Json.lookup argument.name members).or (argument.default.map (Default.value number)) := by
  rw [withDefaults, lookup_append]
  cases hgiven : Json.lookup argument.name members with
  | some v => rfl
  | none =>
    have habsent : Json.hasKey argument.name members = false := by
      simp [Json.hasKey, hgiven]
    exact lookup_missing hwell.nodup hargument habsent

theorem accepts_argument (h : schema.accepts reading members = true) {argument : ArgumentSchema}
    (hargument : argument ∈ schema.arguments) {v : Json ν} (hv : Json.lookup argument.name members = some v) :
    argument.schema.accepts reading v = true := by
  have hall := List.all_eq_true.mp (Bool.and_eq_true_iff.mp h).2 argument hargument
  simpa only [hv] using hall

theorem accepts_required (h : schema.accepts reading members = true) {name : String} (hname : name ∈ schema.required) :
    ∃ v, Json.lookup name members = some v := by
  apply Option.isSome_iff_exists.mp
  exact List.all_eq_true.mp (Bool.and_eq_true_iff.mp h).1 name hname

/-- A request that is accepted is still accepted with the defaults spelled out. -/
theorem accepts_withDefaults (hwell : schema.WellFormed reading number) (h : schema.accepts reading members = true) :
    schema.accepts reading (schema.withDefaults number members) = true := by
  apply Bool.and_eq_true_iff.mpr
  constructor
  · apply List.all_eq_true.mpr
    intro name hname
    obtain ⟨v, hv⟩ := accepts_required h hname
    rw [Json.hasKey, withDefaults, lookup_append, hv]
    rfl
  · apply List.all_eq_true.mpr
    intro argument hargument
    rw [lookup_withDefaults hwell hargument]
    cases hgiven : Json.lookup argument.name members with
    | some v => exact accepts_argument h hargument hgiven
    | none =>
      cases hdefault : argument.default with
      | none => rfl
      | some default => exact hwell.admits argument hargument default hdefault

end ToolSchema
end Library.JsonSchema
