import GraphifyDaemon.Library.PyValue

/-! The part of JSON Schema that describes the arguments of a tool: an object with typed
properties, of which some are required and others may come along. -/
namespace Library

/-- How Python reads an integer off a number or a string. -/
structure IntReading (ν : Type) where
  /-- The integer that a number equals: `3` and `3.0` are both integers to a schema. -/
  whole : ν → Option Int
  /-- `int(n)` -/
  truncate : ν → Except PyError Int
  /-- `int(s)` -/
  parse : String → Except PyError Int
  truncate_whole : ∀ n i, whole n = some i → truncate n = .ok i

namespace JsonSchema
variable {ν : Type}

/-- `int(v)` -/
def toInt (reading : IntReading ν) : Json ν → Except PyError Int
  | .num n => reading.truncate n
  | .bool b => .ok (if b then 1 else 0)
  | .str s => reading.parse s
  | .null | .arr _ | .obj _ => .error .typeError

inductive PropertySchema where
  | string
  | choice (values : List String)
  | integer (minimum maximum : Int)
  | strings (maxItems : Nat)

def isString : Json ν → Bool
  | .str _ => true
  | _ => false

def PropertySchema.accepts (reading : IntReading ν) : PropertySchema → Json ν → Bool
  | .string, v => isString v
  | .choice values, .str s => s ∈ values
  | .integer minimum maximum, .num n => match reading.whole n with
    | some i => minimum ≤ i ∧ i ≤ maximum
    | none => false
  | .strings maxItems, .arr xs => xs.length ≤ maxItems ∧ xs.all isString
  | _, _ => false

structure ObjectSchema where
  properties : List (String × PropertySchema)
  required : List String

def ObjectSchema.accepts (reading : IntReading ν) (schema : ObjectSchema) (members : PyDict ν) : Bool :=
  schema.required.all (fun name => Json.hasKey name members) &&
    schema.properties.all fun property => match Json.lookup property.1 members with
      | some v => property.2.accepts reading v
      | none => true

variable {reading : IntReading ν}

theorem ObjectSchema.accepts_property {schema : ObjectSchema} {members : PyDict ν} (h : schema.accepts reading members)
    {name : String} {property : PropertySchema} (hproperty : (name, property) ∈ schema.properties) {v : Json ν}
    (hv : Json.lookup name members = some v) : property.accepts reading v = true := by
  have hall := List.all_eq_true.mp (Bool.and_eq_true_iff.mp h).2 _ hproperty
  simpa only [hv] using hall

theorem ObjectSchema.accepts_required {schema : ObjectSchema} {members : PyDict ν} (h : schema.accepts reading members)
    {name : String} (hname : name ∈ schema.required) : ∃ v, Json.lookup name members = some v :=
  Option.isSome_iff_exists.mp (List.all_eq_true.mp (Bool.and_eq_true_iff.mp h).1 name hname)

theorem PropertySchema.accepts_string {v : Json ν} (h : PropertySchema.string.accepts reading v = true) :
    ∃ s, v = .str s := by
  cases v with
  | str s => exact ⟨s, rfl⟩
  | _ => cases h

theorem PropertySchema.accepts_integer {minimum maximum : Int} {v : Json ν}
    (h : (PropertySchema.integer minimum maximum).accepts reading v = true) :
    ∃ i, toInt reading v = .ok i ∧ minimum ≤ i ∧ i ≤ maximum := by
  cases v with
  | num n =>
    simp only [PropertySchema.accepts] at h
    cases hi : reading.whole n with
    | none => simp [hi] at h
    | some i => exact ⟨i, reading.truncate_whole n i hi, by simpa [hi] using h⟩
  | _ => simp [PropertySchema.accepts] at h

theorem PropertySchema.accepts_strings {maxItems : Nat} {v : Json ν}
    (h : (PropertySchema.strings maxItems).accepts reading v = true) : ∃ xs, v = .arr xs := by
  cases v with
  | arr xs => exact ⟨xs, rfl⟩
  | _ => simp [PropertySchema.accepts] at h

end JsonSchema
end Library
