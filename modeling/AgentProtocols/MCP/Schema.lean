import AgentProtocols.Json.Double
import AgentProtocols.Json.Text
import AgentProtocols.Lib.Checks

/-!
The JSON Schema validator behind tool inputs and outputs. `validateBody` is the body of
`validate_at` with its recursive calls as a parameter; the levels of the schema bound the calls
(`validateAt`), and `validateFrom_eq` says that they never run out.
-/

namespace AgentProtocols.MCP.Schema

open Lib
open AgentProtocols.Json (Number F64)

/-- What the validator takes from its crates: float texts and regular expressions. -/
structure Platform where
  doubleText : Number → String
  floatText : F64 → String
  regex : String → Except String (String → Bool)

/-- The recursive calls: schema, instance and path. -/
abbrev Validator : Type := Json → Json → String → Except String Unit

def pathOrRoot (path : String) : String :=
  if path.isEmpty then "<root>" else path

def typeName : Json → String
  | .null => "null"
  | .bool _ => "boolean"
  | .num n => if n.isInt then "integer" else "number"
  | .str _ => "string"
  | .arr _ => "array"
  | .obj _ => "object"

/-- `n.is_i64() || n.is_u64()`, or a double without a fractional part. -/
def isInteger (n : Number) : Bool := n.isInt || n.asF64.isInt

/-- An unknown name of a type matches every value. -/
def matchesType (expected : String) (v : Json) : Bool :=
  if expected = "null" then match v with | .null => true | _ => false
  else if expected = "boolean" then match v with | .bool _ => true | _ => false
  else if expected = "object" then match v with | .obj _ => true | _ => false
  else if expected = "array" then match v with | .arr _ => true | _ => false
  else if expected = "string" then match v with | .str _ => true | _ => false
  else if expected = "number" then match v with | .num _ => true | _ => false
  else if expected = "integer" then match v with | .num n => isInteger n | _ => false
  else true

section Keywords

variable (platform : Platform) (obj : JsonDict) (instance_ : Json) (path : String)

/-! ### Keywords for every value -/

/-- Does the value of `type` admit the instance? -/
def admitsType (t instance_ : Json) : Bool :=
  match t with
  | .str s => matchesType s instance_
  | .arr list => list.any fun x =>
    match x with
    | .str s => matchesType s instance_
    | _ => false
  | _ => true

def checkType : Except String Unit :=
  match obj.get "type" with
  | some t =>
    if admitsType t instance_ = false then
      .error (pathOrRoot path ++ ": expected type " ++
        String.ofList (Json.compact platform.floatText t) ++ " but found " ++ typeName instance_)
    else .ok ()
  | none => .ok ()

def checkEnum : Except String Unit :=
  match obj.get "enum" with
  | some (.arr values) =>
    if (values.any fun v => Json.beq v instance_) = false then
      .error (pathOrRoot path ++ ": value is not one of the allowed values")
    else .ok ()
  | _ => .ok ()

def checkConst : Except String Unit :=
  match obj.get "const" with
  | some c =>
    if Json.beq c instance_ = false then
      .error (pathOrRoot path ++ ": value does not match the constant")
    else .ok ()
  | none => .ok ()

/-! ### Numbers -/

/-- A bound on a number: both sides are compared as doubles. -/
def checkBound (keyword : String) (violated : Rat → Rat → Bool)
    (message : String → String → String) (n : Number) : Except String Unit :=
  match obj.get keyword with
  | some (.num bound) =>
    if violated n.asF64 bound.asF64 = true then
      .error (pathOrRoot path ++ ": " ++
        message (platform.doubleText n) (platform.doubleText bound))
    else .ok ()
  | _ => .ok ()

def checkMinimum : Number → Except String Unit :=
  checkBound platform obj path "minimum" (fun value min => value < min)
    fun value min => value ++ " is below minimum " ++ min

def checkMaximum : Number → Except String Unit :=
  checkBound platform obj path "maximum" (fun value max => max < value)
    fun value max => value ++ " exceeds maximum " ++ max

def checkExclusiveMinimum : Number → Except String Unit :=
  checkBound platform obj path "exclusiveMinimum" (fun value min => value ≤ min)
    fun value min => value ++ " is not above " ++ min

def checkExclusiveMaximum : Number → Except String Unit :=
  checkBound platform obj path "exclusiveMaximum" (fun value max => max ≤ value)
    fun value max => value ++ " is not below " ++ max

def checkNumber : Except String Unit :=
  match instance_ with
  | .num n => do
    checkMinimum platform obj path n
    checkMaximum platform obj path n
    checkExclusiveMinimum platform obj path n
    checkExclusiveMaximum platform obj path n
  | _ => .ok ()

/-! ### Lengths -/

/-- A bound on a length, read with `Value::as_u64`. -/
def checkLength (keyword : String) (violated : Nat → Nat → Bool) (message : String → String)
    (len : Nat) : Except String Unit :=
  match obj.get keyword with
  | some (.num bound) =>
    match bound.asU64 with
    | some bound =>
      if violated len bound = true then
        .error (pathOrRoot path ++ ": " ++ message (toString bound))
      else .ok ()
    | none => .ok ()
  | _ => .ok ()

def checkMinLength : Nat → Except String Unit :=
  checkLength obj path "minLength" (fun len min => len < min)
    fun min => "string shorter than " ++ min

def checkMaxLength : Nat → Except String Unit :=
  checkLength obj path "maxLength" (fun len max => max < len)
    fun max => "string longer than " ++ max

def checkMinItems : Nat → Except String Unit :=
  checkLength obj path "minItems" (fun len min => len < min)
    fun min => "array has fewer than " ++ min ++ " items"

def checkMaxItems : Nat → Except String Unit :=
  checkLength obj path "maxItems" (fun len max => max < len)
    fun max => "array has more than " ++ max ++ " items"

def checkPattern (s : String) : Except String Unit :=
  match obj.get "pattern" with
  | some (.str pattern) =>
    match platform.regex pattern with
    | .ok isMatch =>
      if isMatch s = false then
        .error (pathOrRoot path ++ ": string does not match pattern " ++ pattern)
      else .ok ()
    | .error e => .error (pathOrRoot path ++ ": invalid pattern " ++ pattern ++ ": " ++ e)
  | _ => .ok ()

def checkString : Except String Unit :=
  match instance_ with
  | .str s => do
    checkMinLength obj path s.length
    checkMaxLength obj path s.length
    checkPattern platform obj path s
  | _ => .ok ()

/-! ### Arrays and objects -/

variable (recur : Validator)

def checkItems (items : List Json) : Except String Unit :=
  match obj.get "items" with
  | some itemSchema =>
    items.zipIdx.forM fun entry => recur itemSchema entry.1 (path ++ "/" ++ toString entry.2)
  | none => .ok ()

def checkArray : Except String Unit :=
  match instance_ with
  | .arr items => do
    checkMinItems obj path items.length
    checkMaxItems obj path items.length
    checkItems obj path recur items
  | _ => .ok ()

def checkRequired (fields : JsonDict) : Except String Unit :=
  match obj.get "required" with
  | some (.arr required) =>
    (required.filterMap Json.asStr).forM fun name =>
      if fields.containsKey name = false then
        .error (pathOrRoot path ++ ": required property '" ++ name ++ "' not found")
      else .ok ()
  | _ => .ok ()

/-- `obj.get("properties").and_then(Value::as_object)`. -/
def properties : Option JsonDict := (obj.get "properties").bind Json.asObject

def checkProperties (fields : JsonDict) : Except String Unit :=
  match properties obj with
  | some props =>
    props.forM fun entry =>
      match fields.get entry.1 with
      | some v => recur entry.2 v (path ++ "/" ++ entry.1)
      | none => .ok ()
  | none => .ok ()

/-- `properties` names the member. -/
def declared (name : String) : Bool :=
  match properties obj with
  | some props => props.containsKey name
  | none => false

/-- What `additionalProperties` asks of one member. -/
def checkAdditional (additional : Json) (entry : String × Json) : Except String Unit :=
  if declared obj entry.1 = true then .ok ()
  else
    match additional with
    | .bool false =>
      .error (pathOrRoot path ++ ": additional property '" ++ entry.1 ++ "' is not allowed")
    | .obj _ => recur additional entry.2 (path ++ "/" ++ entry.1)
    | _ => .ok ()

def checkAdditionalProperties (fields : JsonDict) : Except String Unit :=
  match obj.get "additionalProperties" with
  | some additional => fields.forM (checkAdditional obj path recur additional)
  | none => .ok ()

def checkObject : Except String Unit :=
  match instance_ with
  | .obj fields => do
    checkRequired obj path fields
    checkProperties obj path recur fields
    checkAdditionalProperties obj path recur fields
  | _ => .ok ()

/-! ### Combinations of schemas -/

def checkAllOf : Except String Unit :=
  match obj.get "allOf" with
  | some (.arr all) => all.forM fun sub => recur sub instance_ path
  | _ => .ok ()

def checkAnyOf : Except String Unit :=
  match obj.get "anyOf" with
  | some (.arr any) =>
    if (any.any fun sub => (recur sub instance_ path).isOk) = false then
      .error (pathOrRoot path ++ ": value does not match any schema in anyOf")
    else .ok ()
  | _ => .ok ()

/-- The number of schemas of `oneOf` that accept the instance. -/
def accepting (one : List Json) : Nat :=
  (one.filter fun sub => (recur sub instance_ path).isOk).length

def checkOneOf : Except String Unit :=
  match obj.get "oneOf" with
  | some (.arr one) =>
    if accepting instance_ path recur one ≠ 1 then
      .error (pathOrRoot path ++ ": value matches " ++
        toString (accepting instance_ path recur one) ++ " schemas in oneOf")
    else .ok ()
  | _ => .ok ()

def checkNot : Except String Unit :=
  match obj.get "not" with
  | some sub =>
    if (recur sub instance_ path).isOk = true then
      .error (pathOrRoot path ++ ": value matches the forbidden schema")
    else .ok ()
  | none => .ok ()

end Keywords

/-! ### The validator -/

def validateBody (platform : Platform) (recur : Validator) : Validator :=
  fun schema instance_ path =>
    match schema with
    | .bool true => .ok ()
    | .bool false => .error (pathOrRoot path ++ ": schema forbids any value")
    | .obj obj => do
      checkType platform obj instance_ path
      checkEnum obj instance_ path
      checkConst obj instance_ path
      checkNumber platform obj instance_ path
      checkString platform obj instance_ path
      checkArray obj instance_ path recur
      checkObject obj instance_ path recur
      checkAllOf obj instance_ path recur
      checkAnyOf obj instance_ path recur
      checkOneOf obj instance_ path recur
      checkNot obj instance_ path recur
    | _ => .ok ()

mutual

def levels : Json → Nat
  | .arr items => levelsItems items + 1
  | .obj fields => levelsFields fields + 1
  | _ => 1

def levelsItems : List Json → Nat
  | [] => 0
  | x :: xs => max (levels x) (levelsItems xs)

def levelsFields : JsonDict → Nat
  | [] => 0
  | (_, v) :: rest => max (levels v) (levelsFields rest)

end

/-- `validate_at` with the number of nested calls it may make. -/
def validateAt (platform : Platform) : Nat → Validator
  | 0 => fun _ _ _ => .error "the calls have run out"
  | calls + 1 => validateBody platform (validateAt platform calls)

/-- `validate`: the first violation found. -/
def validate (platform : Platform) (schema instance_ : Json) : Except String Unit :=
  validateAt platform (levels schema) schema instance_ ""

/-! ### The count of calls never runs out -/

theorem levels_lt_of_mem : ∀ {items : List Json} {x : Json}, x ∈ items →
    levels x < levels (.arr items)
  | y :: rest, x, mem => by
    rw [levels, levelsItems]
    rcases List.mem_cons.mp mem with rfl | later
    · omega
    · have := levels_lt_of_mem later
      rw [levels] at this
      omega

theorem levels_lt_of_get : ∀ {obj : JsonDict} {key : String} {v : Json}, obj.get key = some v →
    levels v < levels (.obj obj)
  | (k, w) :: rest, key, v, found => by
    rw [levels, levelsFields]
    rw [JsonDict.get, List.lookup_cons] at found
    cases same : key == k with
    | true =>
      rw [same] at found
      cases found
      omega
    | false =>
      rw [same] at found
      have later : JsonDict.get rest key = some v := found
      have := levels_lt_of_get later
      rw [levels] at this
      omega

theorem levels_lt_of_mem_fields : ∀ {fields : JsonDict} {e : String × Json}, e ∈ fields →
    levels e.2 < levels (.obj fields)
  | (k, w) :: rest, e, mem => by
    rw [levels, levelsFields]
    rcases List.mem_cons.mp mem with rfl | later
    · simp only
      omega
    · have := levels_lt_of_mem_fields later
      rw [levels] at this
      omega

theorem levels_pos (v : Json) : 0 < levels v := by
  cases v <;> simp [levels]

section Congruence

variable {platform : Platform} {obj : JsonDict} {recur recur' : Validator}

/-- The two validators agree on everything smaller than the schema object. -/
def AgreeBelow (obj : JsonDict) (recur recur' : Validator) : Prop :=
  ∀ sub, levels sub < levels (.obj obj) → recur sub = recur' sub

variable (agree : AgreeBelow obj recur recur')

include agree

theorem AgreeBelow.get {key : String} {sub : Json}
    (found : obj.get key = some sub) : recur sub = recur' sub :=
  agree sub (levels_lt_of_get found)

theorem AgreeBelow.get_mem {key : String}
    {subs : List Json} (found : obj.get key = some (.arr subs)) {sub : Json} (mem : sub ∈ subs) :
    recur sub = recur' sub :=
  agree sub ((levels_lt_of_mem mem).trans (levels_lt_of_get found))

omit agree

theorem properties_eq_some {props : JsonDict} :
    properties obj = some props ↔ obj.get "properties" = some (.obj props) := by
  unfold properties
  cases obj.get "properties" with
  | none => simp
  | some v => cases v <;> simp [Json.asObject]

include agree

theorem checkArray_congr (x : Json) (path : String) :
    checkArray obj x path recur = checkArray obj x path recur' := by
  have items : checkItems obj path recur = checkItems obj path recur' := by
    funext items
    unfold checkItems
    cases found : obj.get "items" with
    | none => rfl
    | some sub => simp only [agree.get found]
  unfold checkArray
  rw [items]

theorem checkObject_congr (x : Json) (path : String) :
    checkObject obj x path recur = checkObject obj x path recur' := by
  have props : checkProperties obj path recur = checkProperties obj path recur' := by
    funext fields
    unfold checkProperties
    cases found : properties obj with
    | none => rfl
    | some props =>
      refine check_each_congr fun entry mem => ?_
      rw [agree entry.2 ((levels_lt_of_mem_fields mem).trans
        (levels_lt_of_get (properties_eq_some.mp found)))]
  have additional :
      checkAdditionalProperties obj path recur = checkAdditionalProperties obj path recur' := by
    funext fields
    unfold checkAdditionalProperties
    cases found : obj.get "additionalProperties" with
    | none => rfl
    | some sub =>
      refine check_each_congr fun entry _ => ?_
      simp only [checkAdditional, agree.get found]
  unfold checkObject
  rw [props, additional]

theorem checkAllOf_congr (x : Json) (path : String) :
    checkAllOf obj x path recur = checkAllOf obj x path recur' := by
  unfold checkAllOf
  split
  · rename_i subs found
    exact check_each_congr fun sub mem => by rw [agree.get_mem found mem]
  · rfl

theorem checkAnyOf_congr (x : Json) (path : String) :
    checkAnyOf obj x path recur = checkAnyOf obj x path recur' := by
  unfold checkAnyOf
  split
  · rename_i subs found
    have same : subs.any (fun sub => (recur sub x path).isOk) =
        subs.any fun sub => (recur' sub x path).isOk :=
      any_congr_of_mem fun sub mem => by rw [agree.get_mem found mem]
    rw [same]
  · rfl

theorem checkOneOf_congr (x : Json) (path : String) :
    checkOneOf obj x path recur = checkOneOf obj x path recur' := by
  unfold checkOneOf
  split
  · rename_i subs found
    have same : accepting x path recur subs = accepting x path recur' subs := by
      unfold accepting
      rw [List.filter_congr fun sub mem => by rw [agree.get_mem found mem]]
    rw [same]
  · rfl

theorem checkNot_congr (x : Json) (path : String) :
    checkNot obj x path recur = checkNot obj x path recur' := by
  unfold checkNot
  cases found : obj.get "not" with
  | none => rfl
  | some sub => simp only [agree.get found]

theorem validateBody_congr :
    validateBody platform recur (.obj obj) = validateBody platform recur' (.obj obj) := by
  funext x path
  simp only [validateBody, checkArray_congr agree, checkObject_congr agree, checkAllOf_congr agree,
    checkAnyOf_congr agree, checkOneOf_congr agree, checkNot_congr agree]

omit agree

theorem validateBody_congr_of_not_obj {schema : Json} (leaf : ∀ obj, schema ≠ .obj obj) :
    validateBody platform recur schema = validateBody platform recur' schema := by
  funext x path
  cases schema with
  | obj obj => exact absurd rfl (leaf obj)
  | bool b => cases b <;> rfl
  | null => rfl
  | num n => rfl
  | str s => rfl
  | arr items => rfl

end Congruence

theorem validateAt_stable (platform : Platform) : ∀ (calls : Nat) {calls' : Nat} {schema : Json},
    levels schema ≤ calls → calls ≤ calls' →
      validateAt platform calls schema = validateAt platform calls' schema
  | 0, _, schema, enough, _ => absurd enough (Nat.not_le_of_lt (levels_pos schema))
  | calls + 1, 0, _, _, le => absurd le (Nat.not_succ_le_zero calls)
  | calls + 1, calls' + 1, schema, enough, le => by
    rw [validateAt, validateAt]
    cases schema with
    | obj obj =>
      refine validateBody_congr fun sub below => ?_
      exact validateAt_stable platform calls (by omega) (by omega)
    | _ => exact validateBody_congr_of_not_obj fun obj => Json.noConfusion

/-- `validate_at` as the source writes it, a function that calls itself. -/
def validateFrom (platform : Platform) : Validator := fun schema =>
  validateAt platform (levels schema) schema

/-- The validator satisfies the recursion of the source. -/
theorem validateFrom_eq (platform : Platform) (schema : Json) :
    validateFrom platform schema = validateBody platform (validateFrom platform) schema := by
  obtain ⟨calls, count⟩ := Nat.exists_eq_succ_of_ne_zero (levels_pos schema).ne'
  rw [validateFrom, count]
  cases schema with
  | obj obj =>
    refine validateBody_congr fun sub below => ?_
    exact (validateAt_stable platform (levels sub) le_rfl (by omega)).symm
  | _ => exact validateBody_congr_of_not_obj fun obj => Json.noConfusion

end AgentProtocols.MCP.Schema
