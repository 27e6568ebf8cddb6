import Mathlib.Data.List.Sort
import AgentProtocols.A4P.Util

/-!
Intent scopes: the actions an intent allows, and the matcher. `normalizeIntentScope` is a projection
(`normalizeIntentScope_idem`); `paramsMatchIntentScope` decides whether a call falls under a scope,
with Python's `fnmatchcase` for texts.
-/

namespace AgentProtocols.A4P

open Json Lib

section

variable (P : Platform)

/-! ### Normalisation -/

def normalizeParamsConstraint : Option Json → Except A4PError Json
  | none => .ok (.obj [])
  | some .null => .ok (.obj [])
  | some (.str s) =>
    if s = "*" then .ok (.str "*")
    else .error (.value "Action params must be an object or '*'")
  | some (.obj fields) => .ok (.obj fields)
  | some _ => .error (.value "Action params must be an object or '*'")

/-- The flag of an action, `false` by default. -/
def allowExtraParams (action : JsonDict) : Except A4PError Bool :=
  match action.get "allowExtraParams" with
  | none => .ok false
  | some (.bool flag) => .ok flag
  | some _ => .error (.value "Intent action allowExtraParams must be a boolean")

def normalizeActionSpec : Json → Except A4PError JsonDict
  | .obj action =>
    let name := strTrimmed P action "name"
    if name = "" then .error (.value "Intent action name missing")
    else do
      let allowExtra ← allowExtraParams action
      let params ← normalizeParamsConstraint (JsonDict.get action "params")
      .ok [("name", .str name), ("params", params), ("allowExtraParams", .bool allowExtra)]
  | _ => .error (.value "Intent actions must be objects with name and params")

def normalizeActionSpecs : Option Json → Except A4PError (List JsonDict)
  | some (.arr items) => do
    let normalized ← items.mapM (normalizeActionSpec P)
    if normalized.isEmpty then .error (.value "Intent actions must not be empty")
    else .ok normalized
  | _ => .error (.value "Intent actions must be a list")

def positiveInt (value : Option Json) (fieldName : String) : Except A4PError Int :=
  match value.bind asInt with
  | some number =>
    if number > 0 then .ok number
    else .error (.value (fieldName ++ " must be a positive integer"))
  | none => .error (.value (fieldName ++ " must be a positive integer"))

def normalizeExecutionPolicy : Option Json → Except A4PError (Option JsonDict)
  | none => .ok none
  | some .null => .ok none
  | some (.obj policy) =>
    match JsonDict.get policy "maxExecutions" with
    | none => .error (.value "executionPolicy must include maxExecutions")
    | some .null => .error (.value "executionPolicy must include maxExecutions")
    | some maxExecutions => do
      let n ← positiveInt (some maxExecutions) "executionPolicy.maxExecutions"
      .ok (some [("maxExecutions", .num (.ofI64 n))])
  | some _ => .error (.value "Intent executionPolicy must be an object")

/-- The fields of a scope that may carry an `executionPolicy`. -/
def normalizeIntentScope (intent : Option Json) : Except A4PError JsonDict :=
  let raw : JsonDict := match intent with
    | some (.obj fields) => fields
    | _ => []
  do
    let actions ← normalizeActionSpecs P (raw.get "actions")
    let normalized : JsonDict := [("actions", .arr (actions.map .obj))]
    if raw.containsKey "executionPolicy" then
      match ← normalizeExecutionPolicy (raw.get "executionPolicy") with
      | some policy => .ok (normalized.insert "executionPolicy" (.obj policy))
      | none => .error (.value "executionPolicy must include maxExecutions")
    else .ok normalized

/-! ### Normalising twice is normalising once -/

theorem normalizeParamsConstraint_idem {value : Option Json} {params : Json}
    (normalized : normalizeParamsConstraint value = .ok params) :
    normalizeParamsConstraint (some params) = .ok params := by
  unfold normalizeParamsConstraint at normalized
  split at normalized
  · cases normalized; rfl
  · cases normalized; rfl
  · split at normalized
    · cases normalized; rfl
    · cases normalized
  · cases normalized; rfl
  · cases normalized

theorem normalizeActionSpec_eq {value : Json} {action : JsonDict}
    (normalized : normalizeActionSpec P value = .ok action) :
    ∃ name params allowExtra,
      action = [("name", .str name), ("params", params), ("allowExtraParams", .bool allowExtra)] ∧
        name ≠ "" ∧ trim name = name ∧ normalizeParamsConstraint (some params) = .ok params := by
  cases value with
  | obj fields =>
    simp only [normalizeActionSpec] at normalized
    split at normalized
    · cases normalized
    · rename_i nonempty
      cases hextra : allowExtraParams fields with
      | error e => simp [hextra, bind, Except.bind] at normalized
      | ok allowExtra =>
        cases hparams : normalizeParamsConstraint (JsonDict.get fields "params") with
        | error e => simp [hextra, hparams, bind, Except.bind] at normalized
        | ok params =>
          simp only [hextra, hparams, bind, Except.bind, Except.ok.injEq] at normalized
          exact ⟨_, params, allowExtra, normalized.symm, nonempty,
            trim_strTrimmed P fields "name", normalizeParamsConstraint_idem hparams⟩
  | _ => cases normalized

theorem normalizeActionSpec_idem {value : Json} {action : JsonDict}
    (normalized : normalizeActionSpec P value = .ok action) :
    normalizeActionSpec P (.obj action) = .ok action := by
  obtain ⟨name, params, allowExtra, rfl, nonempty, trimmed, again⟩ :=
    normalizeActionSpec_eq P normalized
  have hname : strTrimmed P [("name", .str name), ("params", params),
      ("allowExtraParams", .bool allowExtra)] "name" = name := by
    rw [strTrimmed_str P (s := name) rfl, trimmed]
  have hparams : JsonDict.get [("name", Json.str name), ("params", params),
      ("allowExtraParams", Json.bool allowExtra)] "params" = some params := rfl
  simp only [normalizeActionSpec, hname, nonempty, hparams, again]
  rfl

private theorem mapM_normalizeActionSpec_idem : ∀ {items : List Json} {actions : List JsonDict},
    items.mapM (normalizeActionSpec P) = .ok actions →
      (actions.map Json.obj).mapM (normalizeActionSpec P) = .ok actions
  | [], actions, normalized => by
    cases normalized
    rfl
  | item :: items, actions, normalized => by
    rw [List.mapM_cons] at normalized
    cases hitem : normalizeActionSpec P item with
    | error e => simp [hitem, bind, Except.bind] at normalized
    | ok action =>
      cases hitems : items.mapM (normalizeActionSpec P) with
      | error e => simp [hitem, hitems, bind, Except.bind] at normalized
      | ok rest =>
        simp only [hitem, hitems, bind, Except.bind, pure, Except.pure,
          Except.ok.injEq] at normalized
        subst normalized
        rw [List.map_cons, List.mapM_cons, normalizeActionSpec_idem P hitem,
          mapM_normalizeActionSpec_idem hitems]
        rfl

theorem normalizeActionSpecs_idem {value : Option Json} {actions : List JsonDict}
    (normalized : normalizeActionSpecs P value = .ok actions) :
    normalizeActionSpecs P (some (.arr (actions.map .obj))) = .ok actions := by
  unfold normalizeActionSpecs at normalized
  split at normalized
  · rename_i items
    cases hitems : items.mapM (normalizeActionSpec P) with
    | error e => simp [hitems, bind, Except.bind] at normalized
    | ok found =>
      simp only [hitems, bind, Except.bind] at normalized
      split at normalized
      · cases normalized
      · rename_i nonempty
        cases normalized
        simp [normalizeActionSpecs, mapM_normalizeActionSpec_idem P hitems, bind, Except.bind,
          nonempty]
  · cases normalized

theorem normalizeExecutionPolicy_eq {value : Option Json} {policy : JsonDict}
    (normalized : normalizeExecutionPolicy value = .ok (some policy)) :
    ∃ n : Int, policy = [("maxExecutions", .num (.ofI64 n))] ∧ 0 < n ∧ n < 2 ^ 63 := by
  unfold normalizeExecutionPolicy at normalized
  split at normalized
  · cases normalized
  · cases normalized
  · split at normalized
    · cases normalized
    · cases normalized
    · rename_i maxExecutions _ _
      cases hn : asInt maxExecutions with
      | none => simp [positiveInt, hn, bind, Except.bind] at normalized
      | some n =>
        by_cases positive : n > 0
        · simp only [positiveInt, Option.bind_some, hn, if_pos positive, bind, Except.bind,
            Except.ok.injEq, Option.some.injEq] at normalized
          refine ⟨n, normalized.symm, positive, ?_⟩
          cases maxExecutions with
          | num number => exact (Number.asI64_range hn).2
          | _ => cases hn
        · simp [positiveInt, hn, positive, bind, Except.bind] at normalized
  · cases normalized

theorem normalizeExecutionPolicy_limit {n : Int} (positive : 0 < n) (bound : n < 2 ^ 63) :
    normalizeExecutionPolicy (some (.obj [("maxExecutions", .num (.ofI64 n))])) =
      .ok (some [("maxExecutions", .num (.ofI64 n))]) := by
  have fits := Number.asI64_ofI64 (i := n) (by omega) bound
  simp [normalizeExecutionPolicy, JsonDict.get, positiveInt, asInt, fits, positive, bind,
    Except.bind]

theorem normalizeIntentScope_eq {intent : Option Json} {scope : JsonDict}
    (normalized : normalizeIntentScope P intent = .ok scope) :
    ∃ actions, normalizeActionSpecs P (some (.arr (List.map Json.obj actions))) = .ok actions ∧
      (scope = [("actions", .arr (actions.map .obj))] ∨ ∃ n : Int, 0 < n ∧ n < 2 ^ 63 ∧
          scope = [("actions", .arr (actions.map .obj)),
            ("executionPolicy", .obj [("maxExecutions", .num (.ofI64 n))])]) := by
  unfold normalizeIntentScope at normalized
  extract_lets raw at normalized
  cases hactions : normalizeActionSpecs P (raw.get "actions") with
  | error e => simp [hactions, bind, Except.bind] at normalized
  | ok actions =>
    refine ⟨actions, normalizeActionSpecs_idem P hactions, ?_⟩
    by_cases present : raw.containsKey "executionPolicy" = true
    · cases hpolicy : normalizeExecutionPolicy (raw.get "executionPolicy") with
      | error e => simp [hactions, present, hpolicy, bind, Except.bind] at normalized
      | ok found =>
        cases found with
        | none => simp [hactions, present, hpolicy, bind, Except.bind] at normalized
        | some policy =>
          obtain ⟨n, rfl, positive, bound⟩ := normalizeExecutionPolicy_eq hpolicy
          simp only [hactions, present, hpolicy, bind, Except.bind, if_true,
            Except.ok.injEq] at normalized
          exact .inr ⟨n, positive, bound, normalized.symm⟩
    · simp only [hactions, present, bind, Except.bind] at normalized
      exact .inl (by simpa using normalized.symm)

theorem normalizeIntentScope_idem {intent : Option Json} {scope : JsonDict}
    (normalized : normalizeIntentScope P intent = .ok scope) :
    normalizeIntentScope P (some (.obj scope)) = .ok scope := by
  obtain ⟨actions, again, rfl | ⟨n, positive, bound, rfl⟩⟩ :=
    normalizeIntentScope_eq P normalized
  · simp [normalizeIntentScope, JsonDict.get, JsonDict.containsKey, again, bind, Except.bind]
  · have policy := normalizeExecutionPolicy_limit positive bound
    exact bind_eq_ok.mpr ⟨actions, again, bind_eq_ok.mpr ⟨_, policy, rfl⟩⟩

end

/-! ### Python's `fnmatchcase` -/

/-- The set of characters a bracket expression matches. -/
structure Bracket where
  negate : Bool
  singles : List Char
  ranges : List (Char × Char)

def Bracket.hits (b : Bracket) (c : Char) : Bool :=
  (b.singles.contains c || b.ranges.any fun r => decide (r.1 ≤ c) && decide (c ≤ r.2)) != b.negate

/-- The singles and the ranges of a bracket body; a reversed range matches
nothing. -/
def bracketItems : List Char → List Char × List (Char × Char)
  | start :: '-' :: stop :: rest =>
    let (singles, ranges) := bracketItems rest
    (singles, if start ≤ stop then (start, stop) :: ranges else ranges)
  | c :: rest =>
    let (singles, ranges) := bracketItems rest
    (c :: singles, ranges)
  | [] => ([], [])

/-- `parse_bracket` on what follows the opening bracket. -/
def parseBracket (rest : List Char) : Option (Bracket × List Char) :=
  let j := if rest.head? = some '!' then 1 else 0
  let j := if rest[j]? = some ']' then j + 1 else j
  let j := j + ((rest.drop j).takeWhile (· ≠ ']')).length
  if j ≥ rest.length then none
  else
    let body := rest.take j
    let negate := body.head? == some '!'
    let (singles, ranges) := bracketItems (if negate then body.drop 1 else body)
    some (⟨negate, singles, ranges⟩, rest.drop (j + 1))

theorem parseBracket_length {rest tail : List Char} {b : Bracket}
    (parsed : parseBracket rest = some (b, tail)) : tail.length ≤ rest.length := by
  unfold parseBracket at parsed
  extract_lets j k l body negate at parsed
  by_cases unclosed : l ≥ rest.length
  · rw [if_pos unclosed] at parsed
    cases parsed
  · rw [if_neg unclosed] at parsed
    simp only [Option.some.injEq, Prod.mk.injEq] at parsed
    rw [← parsed.2, List.length_drop]
    exact Nat.sub_le _ _

def matchHere (name pattern : List Char) : Bool :=
  match pattern with
  | [] => name.isEmpty
  | '*' :: rest => (List.range (name.length + 1)).any fun skip => matchHere (name.drop skip) rest
  | '?' :: rest => !name.isEmpty && matchHere (name.drop 1) rest
  | '[' :: rest =>
    match _h : parseBracket rest with
    | some (bracket, tail) =>
      (match name.head? with
        | some c => bracket.hits c
        | none => false) && matchHere (name.drop 1) tail
    | none => name.head? == some '[' && matchHere (name.drop 1) rest
  | literal :: rest => name.head? == some literal && matchHere (name.drop 1) rest
termination_by pattern.length
decreasing_by
  all_goals simp only [List.length_cons]
  all_goals first
    | omega
    | (have shorter := parseBracket_length _h
       omega)

def fnmatchcase (name pattern : String) : Bool := matchHere name.toList pattern.toList

def paramValueMatches (actualValue expectedValue : Json) : Bool :=
  if expectedValue.beq (.str "*") then true
  else
    match actualValue, expectedValue with
    | .str actual, .str expected => fnmatchcase actual expected
    | actual, expected => actual.beq expected

/-! ### Matching a call against a scope -/

/-- `['a', 'b']`. -/
def quotedList (names : List String) : String :=
  "[" ++ ", ".intercalate (names.map fun n => "'" ++ n ++ "'") ++ "]"

/-- The first member of the constraint that the parameters do not meet. -/
def constraintMismatch (expectedAction : String) (actualParams : JsonDict) :
    JsonDict → Option String
  | [] => none
  | (key, expectedValue) :: rest =>
    match actualParams.get key with
    | none =>
      some ("Required param '" ++ key ++ "' missing for action '" ++ expectedAction ++ "'")
    | some actualValue =>
      if paramValueMatches actualValue expectedValue then
        constraintMismatch expectedAction actualParams rest
      else some ("Param '" ++ key ++ "' mismatch for action '" ++ expectedAction ++ "'")

/-- Why an allowed action of the expected name does not cover the parameters;
nothing when it does. -/
def actionMismatch (expectedAction : String) (actualParams allowed : JsonDict) : Option String :=
  match allowed.get "params" with
  | some (.str "*") => none
  | some (.obj constraint) =>
    let allowExtra := match allowed.get "allowExtraParams" with
      | some (.bool flag) => flag
      | _ => false
    let extra := (actualParams.map Prod.fst).filter fun key => !JsonDict.containsKey constraint key
    if !allowExtra && !extra.isEmpty then
      some ("Unexpected params for action '" ++ expectedAction ++ "': " ++
        quotedList (extra.insertionSort (· ≤ ·)))
    else constraintMismatch expectedAction actualParams constraint
  | _ => some "Intent params constraint invalid"

/-- The loop over the allowed actions, with the first mismatch seen so far. -/
def matchActions (expectedAction : String) (actualParams : JsonDict) :
    List JsonDict → Option String → Except (Option String) Unit
  | [], firstMismatch => .error firstMismatch
  | allowed :: rest, firstMismatch =>
    if (allowed.get "name").bind Json.asStr ≠ some expectedAction then
      matchActions expectedAction actualParams rest firstMismatch
    else
      match actionMismatch expectedAction actualParams allowed with
      | none => .ok ()
      | some reason =>
        matchActions expectedAction actualParams rest (some (firstMismatch.getD reason))

def paramsMatchIntentScope (P : Platform) (intent : JsonDict) (action : String)
    (params : Option JsonDict) : Except String Unit :=
  let expectedAction := trim action
  if expectedAction = "" then .error "Expected action missing"
  else
    match normalizeActionSpecs P (intent.get "actions") with
    | .error e => .error e.text
    | .ok actions =>
      match matchActions expectedAction (params.getD []) actions none with
      | .ok () => .ok ()
      | .error (some reason) => .error reason
      | .error none =>
        let names := actions.map fun item => ((item.get "name").bind Json.asStr).getD ""
        .error ("Action '" ++ expectedAction ++ "' not in token actions: " ++ quotedList names)

end AgentProtocols.A4P
