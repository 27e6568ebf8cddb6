import AgentProtocols.MCP.Schema

/-!
What the keywords of draft-07 mean: `Valid`, with numbers compared as numbers. `Asks` is the step
to the parts that a keyword compares next, `Visits` its closure; `ExactAt` says that comparisons
come out as those of numbers do.
-/

namespace AgentProtocols.MCP.Schema

open Lib
open AgentProtocols.Json (Number F64)

theorem sizeOf_lt_of_get : ∀ {obj : JsonDict} {key : String} {v : Json}, obj.get key = some v →
    sizeOf v < sizeOf (Json.obj obj)
  | (k, w) :: rest, key, v, found => by
    rw [JsonDict.get, List.lookup_cons] at found
    cases same : key == k with
    | true =>
      rw [same] at found
      cases found
      simp only [Json.obj.sizeOf_spec, List.cons.sizeOf_spec, Prod.mk.sizeOf_spec]
      omega
    | false =>
      rw [same] at found
      have later : JsonDict.get rest key = some v := found
      have := sizeOf_lt_of_get later
      simp only [Json.obj.sizeOf_spec, List.cons.sizeOf_spec] at this ⊢
      omega

theorem sizeOf_getElem_lt {subs : List Json} (i : Fin subs.length) :
    sizeOf (subs.get i) < sizeOf (Json.arr subs) := by
  have := List.sizeOf_lt_of_mem (List.get_mem subs i)
  simp only [Json.arr.sizeOf_spec]
  omega

/-! ### The meaning of the keywords -/

/-- Equality of values as draft-07 has it: numbers are equal when they stand for
the same number. -/
def Same (a b : Json) : Prop :=
  Json.eqWith (fun n m => n.toRat = m.toRat) a b = true

/-- The names that `type` may hold. -/
inductive SimpleType where
  | null
  | boolean
  | object
  | array
  | string
  | number
  | integer
deriving DecidableEq

namespace SimpleType

def name : SimpleType → String
  | null => "null"
  | boolean => "boolean"
  | object => "object"
  | array => "array"
  | string => "string"
  | number => "number"
  | integer => "integer"

/-- An integer is a number without a fractional part, however it is written. -/
def Holds : SimpleType → Json → Prop
  | null, x => x = .null
  | boolean, x => ∃ b, x = .bool b
  | object, x => ∃ fields, x = .obj fields
  | array, x => ∃ items, x = .arr items
  | string, x => ∃ s, x = .str s
  | number, x => ∃ n, x = .num n
  | integer, x => ∃ n, x = .num n ∧ n.Integral

end SimpleType

/-- The value of `type` is a name or a list of names. -/
def HasType (t x : Json) : Prop :=
  (∃ simple : SimpleType, t = .str simple.name ∧ simple.Holds x) ∨
    ∃ names, t = .arr names ∧
      ∃ simple : SimpleType, .str simple.name ∈ names ∧ simple.Holds x

/-- A bound on a number, met as `meets` says. -/
def BoundMet (obj : JsonDict) (keyword : String) (meets : Rat → Rat → Prop) (x : Json) : Prop :=
  ∀ bound n, obj.get keyword = some (.num bound) → x = .num n → meets n.toRat bound.toRat

/-- A bound on a length, met as `meets` says. -/
def LengthMet (obj : JsonDict) (keyword : String) (meets : Rat → Rat → Prop) (len : Nat) : Prop :=
  ∀ bound, obj.get keyword = some (.num bound) → meets len bound.toRat

/-- The keywords that compare the instance itself with a value of the schema. -/
inductive Comparison where
  | enum
  | const
  | minimum
  | maximum
  | exclusiveMinimum
  | exclusiveMaximum
  | minLength
  | maxLength
  | minItems
  | maxItems
deriving DecidableEq

namespace Comparison

def keyword : Comparison → String
  | enum => "enum"
  | const => "const"
  | minimum => "minimum"
  | maximum => "maximum"
  | exclusiveMinimum => "exclusiveMinimum"
  | exclusiveMaximum => "exclusiveMaximum"
  | minLength => "minLength"
  | maxLength => "maxLength"
  | minItems => "minItems"
  | maxItems => "maxItems"

/-- The instance has the meaning of the keyword. -/
def Meant (obj : JsonDict) (x : Json) : Comparison → Prop
  | enum => ∀ values, obj.get "enum" = some (.arr values) → ∃ v ∈ values, Same v x
  | const => ∀ c, obj.get "const" = some c → Same c x
  | minimum => BoundMet obj "minimum" (fun value min => min ≤ value) x
  | maximum => BoundMet obj "maximum" (fun value max => value ≤ max) x
  | exclusiveMinimum => BoundMet obj "exclusiveMinimum" (fun value min => min < value) x
  | exclusiveMaximum => BoundMet obj "exclusiveMaximum" (fun value max => value < max) x
  | minLength => ∀ s, x = .str s → LengthMet obj "minLength" (fun len min => min ≤ len) s.length
  | maxLength => ∀ s, x = .str s → LengthMet obj "maxLength" (fun len max => len ≤ max) s.length
  | minItems => ∀ items, x = .arr items →
      LengthMet obj "minItems" (fun len min => min ≤ len) items.length
  | maxItems => ∀ items, x = .arr items →
      LengthMet obj "maxItems" (fun len max => len ≤ max) items.length

end Comparison

/-- The keywords that say something of the instance as a whole. -/
structure Asserted (obj : JsonDict) (x : Json) : Prop where
  type : ∀ t, obj.get "type" = some t → HasType t x
  compared : ∀ c : Comparison, c.Meant obj x
  required : ∀ (names : List Json) (fields : JsonDict), obj.get "required" = some (.arr names) →
    x = .obj fields → ∀ name, .str name ∈ names → ∃ v, fields.get name = some v

/-- `properties` does not name the member. -/
def Undeclared (obj : JsonDict) (name : String) : Prop :=
  ∀ props : JsonDict, obj.get "properties" = some (.obj props) → props.get name = none

/-- The meaning of a schema: what the keywords say of the instance and of its parts. -/
def Valid (schema x : Json) : Prop :=
  match schema with
  | .bool b => b = true
  | .obj (obj : JsonDict) =>
    Asserted obj x ∧
    (∀ sub, obj.get "items" = some sub → ∀ items, x = .arr items →
      ∀ item ∈ items, Valid sub item) ∧
    (∀ props : JsonDict, obj.get "properties" = some (.obj props) → ∀ fields : JsonDict, x = .obj fields →
      ∀ name sub, props.get name = some sub → ∀ v, fields.get name = some v → Valid sub v) ∧
    (∀ sub, obj.get "additionalProperties" = some sub → ∀ fields : JsonDict, x = .obj fields →
      ∀ name v, fields.get name = some v → Undeclared obj name → Valid sub v) ∧
    (∀ subs, obj.get "allOf" = some (.arr subs) → ∀ i : Fin subs.length, Valid (subs.get i) x) ∧
    (∀ subs, obj.get "anyOf" = some (.arr subs) → ∃ i : Fin subs.length, Valid (subs.get i) x) ∧
    (∀ subs, obj.get "oneOf" = some (.arr subs) → ∃! i : Fin subs.length, Valid (subs.get i) x) ∧
    (∀ sub, obj.get "not" = some sub → ¬ Valid sub x)
  | _ => True
termination_by sizeOf schema
decreasing_by
  · exact sizeOf_lt_of_get ‹_›
  · exact (sizeOf_lt_of_get ‹props.get name = some sub›).trans (sizeOf_lt_of_get ‹_›)
  · exact sizeOf_lt_of_get ‹_›
  · exact (sizeOf_getElem_lt i).trans (sizeOf_lt_of_get ‹_›)
  · exact (sizeOf_getElem_lt i).trans (sizeOf_lt_of_get ‹_›)
  · exact (sizeOf_getElem_lt i).trans (sizeOf_lt_of_get ‹_›)
  · exact sizeOf_lt_of_get ‹_›

/-! ### The inputs -/

/-- The listed keywords except `pattern`. -/
def keywords : List String :=
  ["type", "properties", "required", "additionalProperties", "items", "enum", "const", "minimum",
    "maximum", "exclusiveMinimum", "exclusiveMaximum", "minLength", "maxLength", "minItems",
    "maxItems", "anyOf", "oneOf", "allOf", "not"]

/-- Well-formed values of `type`. -/
def TypeWritten (t : Json) : Prop :=
  (∃ simple : SimpleType, t = .str simple.name) ∨
    ∃ names, t = .arr names ∧ ∀ name ∈ names, ∃ simple : SimpleType, name = .str simple.name

/-- A draft-07 schema of the listed keywords, with a single schema in `items`. -/
inductive WellFormedSchema : Json → Prop where
  | bool (b : Bool) : WellFormedSchema (.bool b)
  | obj {obj : JsonDict}
      (known : ∀ entry ∈ obj, entry.1 ∈ keywords)
      (type : ∀ t, obj.get "type" = some t → TypeWritten t)
      (enum : ∀ v, obj.get "enum" = some v → ∃ values, v = .arr values)
      (bounds : ∀ keyword ∈ ["minimum", "maximum", "exclusiveMinimum", "exclusiveMaximum"], ∀ v,
        obj.get keyword = some v → ∃ n : Number, v = .num n ∧ n.Integral)
      (lengths : ∀ keyword ∈ ["minLength", "maxLength", "minItems", "maxItems"], ∀ v,
        obj.get keyword = some v → ∃ n : Number, v = .num n ∧ n.Integral ∧ 0 ≤ n.toRat)
      (required : ∀ v, obj.get "required" = some v →
        ∃ names, v = .arr names ∧ ∀ name ∈ names, ∃ s, name = .str s)
      (properties_written : ∀ v, obj.get "properties" = some v → ∃ props, v = .obj props)
      (properties : ∀ props : JsonDict, obj.get "properties" = some (.obj props) → ∀ name sub,
        props.get name = some sub → WellFormedSchema sub)
      (single : ∀ keyword ∈ ["items", "additionalProperties", "not"], ∀ sub,
        obj.get keyword = some sub → WellFormedSchema sub)
      (combined_written : ∀ keyword ∈ ["allOf", "anyOf", "oneOf"], ∀ v,
        obj.get keyword = some v → ∃ subs, v = .arr subs)
      (combined : ∀ keyword ∈ ["allOf", "anyOf", "oneOf"], ∀ subs,
        obj.get keyword = some (.arr subs) → ∀ sub ∈ subs, WellFormedSchema sub) :
      WellFormedSchema (.obj obj)

/-- An instance whose numbers are integers of 64 bits. -/
inductive IntegersOnly : Json → Prop where
  | null : IntegersOnly .null
  | bool (b : Bool) : IntegersOnly (.bool b)
  | num {n : Number} (int : n.isInt = true) : IntegersOnly (.num n)
  | str (s : String) : IntegersOnly (.str s)
  | arr {items : List Json} (all : ∀ x ∈ items, IntegersOnly x) : IntegersOnly (.arr items)
  | obj {fields : JsonDict} (all : ∀ name x, fields.get name = some x → IntegersOnly x) :
      IntegersOnly (.obj fields)

/-! ### The parts that are compared -/

/-- A keyword of the schema asks for the sub-schema to hold of a part of the
instance. -/
inductive Asks : Json × Json → Json × Json → Prop where
  | items {obj : JsonDict} {sub items item} (found : obj.get "items" = some sub)
      (mem : item ∈ items) : Asks (.obj obj, .arr items) (sub, item)
  | properties {obj props fields : JsonDict} {name sub v}
      (found : obj.get "properties" = some (.obj props)) (named : props.get name = some sub)
      (member : fields.get name = some v) : Asks (.obj obj, .obj fields) (sub, v)
  | additionalProperties {obj fields : JsonDict} {sub name v}
      (found : obj.get "additionalProperties" = some sub) (member : fields.get name = some v)
      (undeclared : Undeclared obj name) : Asks (.obj obj, .obj fields) (sub, v)
  | combined {obj : JsonDict} {keyword subs sub x}
      (combines : keyword ∈ ["allOf", "anyOf", "oneOf"])
      (found : obj.get keyword = some (.arr subs)) (mem : sub ∈ subs) : Asks (.obj obj, x) (sub, x)
  | not {obj : JsonDict} {sub x} (found : obj.get "not" = some sub) : Asks (.obj obj, x) (sub, x)

/-- The pairs that are compared when the schema is checked against the instance. -/
def Visits (schema x : Json) : Json × Json → Prop := Relation.ReflTransGen Asks (schema, x)

/-! ### Exact comparisons -/

/-- A number that lies `off` a bound does not become the same double as it. -/
def BoundKept (obj : JsonDict) (keyword : String) (off : Rat → Rat → Prop) (x : Json) : Prop :=
  ∀ bound n, obj.get keyword = some (.num bound) → x = .num n → off n.toRat bound.toRat →
    n.asF64 ≠ bound.asF64

/-- A bound on a length is held as an integer, or it is met. -/
def LengthRead (obj : JsonDict) (keyword : String) (meets : Rat → Rat → Prop) (len : Nat) :
    Prop :=
  ∀ bound, obj.get keyword = some (.num bound) → bound.isInt = true ∨ meets len bound.toRat

/-- The comparison of the keyword comes out as it does for numbers. -/
def Comparison.Exact (obj : JsonDict) (x : Json) : Comparison → Prop
  | enum => ∀ values, obj.get "enum" = some (.arr values) → (∃ v ∈ values, Same v x) →
      ∃ v ∈ values, Json.beq v x = true
  | const => ∀ c, obj.get "const" = some c → Same c x → Json.beq c x = true
  | minimum => BoundKept obj "minimum" (fun value min => value < min) x
  | maximum => BoundKept obj "maximum" (fun value max => max < value) x
  | exclusiveMinimum => BoundKept obj "exclusiveMinimum" (fun value min => min < value) x
  | exclusiveMaximum => BoundKept obj "exclusiveMaximum" (fun value max => value < max) x
  | minLength => ∀ s, x = .str s → LengthRead obj "minLength" (fun len min => min ≤ len) s.length
  | maxLength => ∀ s, x = .str s → LengthRead obj "maxLength" (fun len max => len ≤ max) s.length
  | minItems => ∀ items, x = .arr items →
      LengthRead obj "minItems" (fun len min => min ≤ len) items.length
  | maxItems => ∀ items, x = .arr items →
      LengthRead obj "maxItems" (fun len max => len ≤ max) items.length

/-- The comparisons that the schema object makes with the instance are exact. -/
def ComparedExactly (obj : JsonDict) (x : Json) : Prop := ∀ c : Comparison, c.Exact obj x

/-- A well-formed schema with an instance whose numbers are integers; the
objects of both are maps. -/
structure Input (pair : Json × Json) : Prop where
  schema : WellFormedSchema pair.1
  schema_keys : pair.1.WellFormed
  instance_keys : pair.2.WellFormed
  integers : IntegersOnly pair.2

/-- The comparisons at a pair come out as they do for numbers. -/
def ExactAt (pair : Json × Json) : Prop :=
  ∀ obj : JsonDict, pair.1 = .obj obj → ComparedExactly obj pair.2

end AgentProtocols.MCP.Schema
