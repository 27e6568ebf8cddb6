import AgentProtocols.A4P.Intent.Scope
import AgentProtocols.Lib.Glob

/-!
What an intent scope allows. `Covers` says when one action spec allows a call, and
`scope_matching_exact` that the matcher accepts exactly the calls that some spec covers.
-/

namespace AgentProtocols.A4P

open Json Lib

/-! ### Globs -/

/-- The tokens of an `fnmatch` pattern. -/
def globTokens (pattern : List Char) : List (Glob.Token Char) :=
  match pattern with
  | [] => []
  | '*' :: rest => .star :: globTokens rest
  | '?' :: rest => .one (fun _ => true) :: globTokens rest
  | '[' :: rest =>
    match _h : parseBracket rest with
    | some (bracket, tail) => .one bracket.hits :: globTokens tail
    | none => .one (fun c => c == '[') :: globTokens rest
  | literal :: rest => .one (fun c => c == literal) :: globTokens rest
termination_by pattern.length
decreasing_by
  all_goals simp only [List.length_cons]
  all_goals first
    | omega
    | (have shorter := parseBracket_length _h
       omega)

theorem matchHere_iff {name pattern : List Char} :
    matchHere name pattern = true ↔ Glob.Matches (globTokens pattern) name := by
  induction name, pattern using matchHere.induct with
  | case1 name =>
    rw [matchHere, globTokens, Glob.matches_nil_iff, List.isEmpty_iff]
  | case2 name rest ih =>
    rw [matchHere, globTokens, Glob.matches_star_iff, List.any_eq_true]
    simp only [List.mem_range, ih]
  | case3 name rest ih =>
    rw [matchHere, globTokens, Glob.matches_one_iff, Bool.and_eq_true, ih]
    cases name <;> simp
  | case4 name rest bracket tail parsed ih =>
    rw [matchHere, globTokens, parsed]
    rw [Glob.matches_one_iff, Bool.and_eq_true, ih]
    cases name <;> simp
  | case5 name rest unclosed ih =>
    rw [matchHere, globTokens, unclosed]
    rw [Glob.matches_one_iff, Bool.and_eq_true, ih]
    cases name <;> simp
  | case6 name literal rest notStar notAny notBracket ih =>
    rw [matchHere, globTokens, Glob.matches_one_iff, Bool.and_eq_true, ih]
    · cases name <;> simp
    · exact notStar
    · exact notAny
    · exact notBracket
    all_goals assumption

/-! ### What covers a call -/

/-- By `"*"`, as a glob when both are texts, and by JSON equality otherwise. -/
def ValueMatched (actual expected : Json) : Prop :=
  expected = .str "*" ∨
    (∃ text pattern, actual = .str text ∧ expected = .str pattern ∧
      Glob.Matches (globTokens pattern.toList) text.toList) ∨
    ((¬ ∃ text pattern, actual = .str text ∧ expected = .str pattern) ∧
      actual.beq expected = true)

/-- Every key of the constraint is among the parameters with a matched value. -/
def Meets (params constraint : JsonDict) : Prop :=
  ∀ key expected, (key, expected) ∈ constraint →
    ∃ actual, params.get key = some actual ∧ ValueMatched actual expected

/-- The object constraint of an action spec; the empty object stands for a missing
or a null one. -/
def ObjectConstraint (value : Option Json) (constraint : JsonDict) : Prop :=
  value = some (.obj constraint) ∨ ((value = none ∨ value = some .null) ∧ constraint = [])

/-- The action spec allows the action with these parameters. -/
def Covers (P : Platform) (action : String) (params : JsonDict) (spec : Json) : Prop :=
  ∃ fields : JsonDict, spec = .obj fields ∧ strTrimmed P fields "name" = trim action ∧
    (fields.get "params" = some (.str "*") ∨
      ∃ constraint, ObjectConstraint (fields.get "params") constraint ∧ Meets params constraint ∧
        (fields.get "allowExtraParams" = some (.bool true) ∨
          ∀ key ∈ params.map Prod.fst, constraint.containsKey key = true))

theorem str_beq_iff {value : Json} {s : String} : value.beq (.str s) = true ↔ value = .str s := by
  cases value with
  | str t => simp only [beq, eqWith, beq_iff_eq, Json.str.injEq]
  | _ => simp [beq, eqWith]

theorem paramValueMatches_iff {actual expected : Json} :
    paramValueMatches actual expected = true ↔ ValueMatched actual expected := by
  unfold paramValueMatches ValueMatched
  by_cases star : expected = .str "*"
  · rw [if_pos (str_beq_iff.mpr star)]
    exact iff_of_true rfl (.inl star)
  · rw [if_neg (mt str_beq_iff.mp star), or_iff_right star]
    split
    · rename_i text pattern
      rw [fnmatchcase, matchHere_iff]
      constructor
      · exact fun matched => .inl ⟨text, pattern, rfl, rfl, matched⟩
      · rintro (⟨_, _, sameText, samePattern, matched⟩ | ⟨notTexts, -⟩)
        · cases sameText
          cases samePattern
          exact matched
        · exact absurd ⟨text, pattern, rfl, rfl⟩ notTexts
    · rename_i notTexts
      have neither : ¬ ∃ text pattern, actual = .str text ∧ expected = .str pattern := by
        rintro ⟨text, pattern, isText, isPattern⟩
        exact notTexts text pattern isText isPattern
      constructor
      · exact fun equal => .inr ⟨neither, equal⟩
      · rintro (⟨text, pattern, isText, isPattern, -⟩ | ⟨-, equal⟩)
        · exact absurd ⟨text, pattern, isText, isPattern⟩ neither
        · exact equal

theorem constraintMismatch_eq_none_iff {expectedAction : String} {params : JsonDict} :
    ∀ {constraint : JsonDict},
      constraintMismatch expectedAction params constraint = none ↔ Meets params constraint
  | [] => iff_of_true rfl fun _ _ mem => absurd mem List.not_mem_nil
  | (key, expected) :: rest => by
    have tail := @constraintMismatch_eq_none_iff expectedAction params rest
    have split_first : Meets params ((key, expected) :: rest) ↔
        (∃ actual, params.get key = some actual ∧ ValueMatched actual expected) ∧
          Meets params rest := by
      constructor
      · exact fun meets => ⟨meets key expected List.mem_cons_self,
          fun k e mem => meets k e (List.mem_cons_of_mem _ mem)⟩
      · rintro ⟨first, others⟩ k e mem
        rcases List.mem_cons.mp mem with same | mem
        · cases same
          exact first
        · exact others k e mem
    rw [constraintMismatch, split_first, ← tail]
    cases found : params.get key with
    | none => simp only [reduceCtorEq, false_and, exists_false]
    | some actual =>
      simp only [Option.some.injEq, exists_eq_left', ← paramValueMatches_iff]
      split
      · rename_i matched
        simp only [matched, true_and]
      · rename_i mismatched
        simp only [reduceCtorEq, mismatched, false_and]

/-! ### The loop over the specs -/

variable {params : JsonDict} {expectedAction : String}

theorem actionMismatch_eq_none_iff {name : String} {constraint : Json} {allowExtra : Bool} :
    actionMismatch expectedAction params [("name", .str name), ("params", constraint),
        ("allowExtraParams", .bool allowExtra)] = none ↔ constraint = .str "*" ∨
        ∃ fields : JsonDict, constraint = .obj fields ∧ Meets params fields ∧
          (allowExtra = true ∨ ∀ key ∈ params.map Prod.fst, fields.containsKey key = true) := by
  have params_eq : JsonDict.get [("name", .str name), ("params", constraint),
      ("allowExtraParams", .bool allowExtra)] "params" = some constraint := rfl
  have extra_eq : JsonDict.get [("name", .str name), ("params", constraint),
      ("allowExtraParams", .bool allowExtra)] "allowExtraParams" = some (.bool allowExtra) := rfl
  unfold actionMismatch
  rw [extra_eq]
  split
  · rename_i star
    cases star
    exact iff_of_true rfl (.inl rfl)
  · rename_i fields isObject
    cases isObject
    have no_extra : ((params.map Prod.fst).filter
          fun key => !JsonDict.containsKey fields key).isEmpty = true ↔
        ∀ key ∈ params.map Prod.fst, JsonDict.containsKey fields key = true := by
      rw [List.isEmpty_iff, List.filter_eq_nil_iff]
      simp only [Bool.not_eq_true', Bool.not_eq_false]
    simp only [reduceCtorEq, false_or, Json.obj.injEq, exists_eq_left']
    split
    · rename_i unexpected
      rw [Bool.and_eq_true, Bool.not_eq_true'] at unexpected
      refine iff_of_false nofun ?_
      rintro ⟨-, allowed | known⟩
      · rw [unexpected.1] at allowed
        cases allowed
      · rw [no_extra.mpr known] at unexpected
        cases unexpected.2
    · rename_i expected
      rw [constraintMismatch_eq_none_iff]
      refine (and_iff_left ?_).symm
      cases allowExtra with
      | true => exact .inl rfl
      | false =>
        refine .inr (no_extra.mp ?_)
        simpa using expected
  · rename_i notStar notObject
    refine iff_of_false nofun ?_
    rintro (star | ⟨fields, isObject, -⟩)
    · exact notStar (congrArg some star)
    · exact notObject fields (congrArg some isObject)

theorem matchActions_eq_ok_iff {expectedAction : String} {params : JsonDict} :
    ∀ {actions : List JsonDict} {firstMismatch : Option String},
      matchActions expectedAction params actions firstMismatch = .ok () ↔
        ∃ allowed ∈ actions, (allowed.get "name").bind Json.asStr = some expectedAction ∧
          actionMismatch expectedAction params allowed = none
  | [], _ => by simp only [matchActions, reduceCtorEq, List.not_mem_nil, false_and, exists_false]
  | allowed :: rest, firstMismatch => by
    have tail := fun first => @matchActions_eq_ok_iff expectedAction params rest first
    rw [matchActions, List.exists_mem_cons_iff]
    by_cases sameName : (allowed.get "name").bind Json.asStr = some expectedAction
    · rw [if_neg (not_not_intro sameName)]
      cases mismatch : actionMismatch expectedAction params allowed with
      | none => exact iff_of_true rfl (.inl ⟨sameName, rfl⟩)
      | some reason =>
        simp only [tail, reduceCtorEq, and_false, false_or]
    · rw [if_pos sameName, tail]
      simp only [sameName, false_and, false_or]

/-! ### Normalised specs and the specs they come from -/

section

variable (P : Platform)

theorem normalizeActionSpec_eq_ok {value : Json} {action : JsonDict}
    (normalized : normalizeActionSpec P value = .ok action) :
    ∃ fields : JsonDict, ∃ params allowExtra, value = .obj fields ∧
      strTrimmed P fields "name" ≠ "" ∧
      normalizeParamsConstraint (fields.get "params") = .ok params ∧
      allowExtraParams fields = .ok allowExtra ∧
      action = [("name", .str (strTrimmed P fields "name")), ("params", params),
        ("allowExtraParams", .bool allowExtra)] := by
  cases value with
  | obj fields =>
    simp only [normalizeActionSpec] at normalized
    split at normalized
    · cases normalized
    · rename_i nonempty
      obtain ⟨allowExtra, hextra, params, hparams, built⟩ := bind₂_eq_ok.mp normalized
      cases built
      exact ⟨fields, params, allowExtra, rfl, nonempty, hparams, hextra, rfl⟩
  | _ => cases normalized

theorem allowExtraParams_eq_true_iff {action : JsonDict} :
    allowExtraParams action = .ok true ↔ action.get "allowExtraParams" = some (.bool true) := by
  unfold allowExtraParams
  split
  · rename_i missing
    simp [missing]
  · rename_i flag given
    simp [given]
  · rename_i other notBool given
    refine iff_of_false nofun ?_
    intro isTrue
    rw [given, Option.some.injEq] at isTrue
    exact notBool true isTrue

variable {value : Option Json} {intent : JsonDict} {action : String} {params : Option JsonDict}

theorem normalizeParamsConstraint_star_iff {params : Json}
    (normalized : normalizeParamsConstraint value = .ok params) :
    params = .str "*" ↔ value = some (.str "*") := by
  unfold normalizeParamsConstraint at normalized
  split at normalized
  · cases normalized
    simp
  · cases normalized
    simp
  · split at normalized
    · rename_i star
      cases normalized
      simp [star]
    · cases normalized
  · cases normalized
    simp
  · cases normalized

theorem normalizeParamsConstraint_object_iff {params : Json}
    {constraint : JsonDict} (normalized : normalizeParamsConstraint value = .ok params) :
    params = .obj constraint ↔ ObjectConstraint value constraint := by
  unfold normalizeParamsConstraint at normalized
  unfold ObjectConstraint
  split at normalized
  · cases normalized
    simp [eq_comm]
  · cases normalized
    simp [eq_comm]
  · split at normalized
    · cases normalized
      simp
    · cases normalized
  · cases normalized
    simp
  · cases normalized

theorem covers_iff {params allowed : JsonDict} {spec : Json}
    (normalized : normalizeActionSpec P spec = .ok allowed) : Covers P action params spec ↔
      (allowed.get "name").bind Json.asStr = some (trim action) ∧
        actionMismatch (trim action) params allowed = none := by
  obtain ⟨fields, constraint, allowExtra, rfl, -, hparams, hextra, rfl⟩ :=
    normalizeActionSpec_eq_ok P normalized
  have name_eq : (JsonDict.get [("name", .str (strTrimmed P fields "name")), ("params", constraint),
      ("allowExtraParams", .bool allowExtra)] "name").bind Json.asStr =
        some (strTrimmed P fields "name") := rfl
  have extra_iff : allowExtra = true ↔ fields.get "allowExtraParams" = some (.bool true) := by
    rw [← allowExtraParams_eq_true_iff, hextra, Except.ok.injEq]
  rw [name_eq, actionMismatch_eq_none_iff, normalizeParamsConstraint_star_iff hparams,
    Option.some.injEq]
  simp only [normalizeParamsConstraint_object_iff hparams, extra_iff]
  constructor
  · rintro ⟨_, isObject, named, covered⟩
    cases isObject
    exact ⟨named, covered⟩
  · rintro ⟨named, covered⟩
    exact ⟨fields, rfl, named, covered⟩

/-- A list of action specs normalises when it is not empty and each of its specs
does. -/
def Normalises (intent : JsonDict) (items : List Json) : Prop :=
  intent.get "actions" = some (.arr items) ∧ items ≠ [] ∧
    ∀ spec ∈ items, ∃ allowed, normalizeActionSpec P spec = .ok allowed

theorem normalizeActionSpecs_eq_ok_iff {actions : List JsonDict} :
    normalizeActionSpecs P value = .ok actions ↔ ∃ items, value = some (.arr items) ∧ items ≠ [] ∧
        items.mapM (normalizeActionSpec P) = .ok actions := by
  unfold normalizeActionSpecs
  split
  · simp only [Option.some.injEq, Json.arr.injEq, exists_eq_left']
    rw [bind_eq_ok]
    constructor
    · rintro ⟨found, read, rest⟩
      split at rest
      · cases rest
      · rename_i nonempty
        cases rest
        refine ⟨?_, read⟩
        rintro rfl
        cases read
        exact nonempty rfl
    · rintro ⟨nonempty, read⟩
      refine ⟨actions, read, if_neg ?_⟩
      rw [List.isEmpty_iff]
      rintro rfl
      obtain ⟨item, rest, rfl⟩ := List.exists_cons_of_ne_nil nonempty
      obtain ⟨_, mem, -⟩ := read_of_mapM read (List.mem_cons_self (a := item) (l := rest))
      exact List.not_mem_nil mem
  · rename_i notList
    refine iff_of_false nofun ?_
    rintro ⟨items, isList, -⟩
    exact notList items isList

/-- The matcher accepts a call exactly when some spec of a valid list covers it. -/
theorem paramsMatchIntentScope_eq_ok_iff : paramsMatchIntentScope P intent action params = .ok () ↔
      ∃ items, Normalises P intent items ∧
        ∃ spec ∈ items, Covers P action (params.getD []) spec := by
  unfold paramsMatchIntentScope
  extract_lets expectedAction
  constructor
  · intro accepted
    split at accepted
    · cases accepted
    · split at accepted
      · cases accepted
      · rename_i actions normalized
        obtain ⟨items, given, nonempty, read⟩ := (normalizeActionSpecs_eq_ok_iff P).mp normalized
        split at accepted
        · rename_i matched
          obtain ⟨allowed, mem, covers⟩ := matchActions_eq_ok_iff.mp matched
          obtain ⟨spec, inItems, isAllowed⟩ := mem_of_mapM read mem
          exact ⟨items, ⟨given, nonempty, exists_mapM_iff.mp ⟨actions, read⟩⟩, spec, inItems,
            (covers_iff P isAllowed).mpr covers⟩
        · cases accepted
        · cases accepted
  · rintro ⟨items, ⟨given, nonempty, each⟩, spec, inItems, covers⟩
    obtain ⟨actions, read⟩ := exists_mapM_iff.mpr each
    obtain ⟨allowed, mem, isAllowed⟩ := read_of_mapM read inItems
    have normalized := (normalizeActionSpecs_eq_ok_iff P).mpr ⟨items, given, nonempty, read⟩
    have matched := (@matchActions_eq_ok_iff (trim action) (params.getD []) actions none).mpr
      ⟨allowed, mem, (covers_iff P isAllowed).mp covers⟩
    have named : expectedAction ≠ "" := by
      obtain ⟨fields, _, _, rfl, nonempty, -⟩ := normalizeActionSpec_eq_ok P isAllowed
      obtain ⟨_, isObject, name_eq, -⟩ := covers
      cases isObject
      rwa [name_eq] at nonempty
    rw [if_neg named, normalized]
    dsimp only
    rw [matched]

theorem paramsMatchIntentScope_perm {intent' : JsonDict} {items items' : List Json}
    (given : intent.get "actions" = some (.arr items))
    (given' : intent'.get "actions" = some (.arr items')) (reordered : items.Perm items') :
    paramsMatchIntentScope P intent action params = .ok () ↔
      paramsMatchIntentScope P intent' action params = .ok () := by
  simp only [paramsMatchIntentScope_eq_ok_iff, Normalises, given, given', Option.some.injEq,
    Json.arr.injEq, and_assoc, exists_eq_left', ne_eq]
  refine and_congr (not_congr ?_) (and_congr ?_ ?_)
  · exact ⟨fun empty => (empty ▸ reordered).symm.eq_nil, fun empty => (empty ▸ reordered).eq_nil⟩
  · exact forall_congr' fun spec => imp_congr_left reordered.mem_iff
  · exact exists_congr fun spec => and_congr_left' reordered.mem_iff

theorem paramsMatchIntentScope_add {intent' : JsonDict} {before after : List Json}
    {added : Json} {allowed : JsonDict}
    (given : intent.get "actions" = some (.arr (before ++ after)))
    (given' : intent'.get "actions" = some (.arr (before ++ added :: after)))
    (wellFormed : normalizeActionSpec P added = .ok allowed)
    (accepted : paramsMatchIntentScope P intent action params = .ok ()) :
    paramsMatchIntentScope P intent' action params = .ok () := by
  rw [paramsMatchIntentScope_eq_ok_iff] at accepted ⊢
  obtain ⟨items, ⟨found, -, each⟩, spec, mem, covers⟩ := accepted
  rw [given] at found
  cases found
  have one_more : ∀ spec, spec ∈ before ++ added :: after ↔ spec = added ∨ spec ∈ before ++ after := by
    intro spec
    rw [List.mem_append, List.mem_cons, List.mem_append, or_left_comm]
  refine ⟨_, ⟨given', ?_, ?_⟩, spec, (one_more spec).mpr (.inr mem), covers⟩
  · exact List.append_ne_nil_of_right_ne_nil _ (List.cons_ne_nil _ _)
  · intro spec' mem'
    rcases (one_more spec').mp mem' with rfl | old
    · exact ⟨allowed, wellFormed⟩
    · exact each spec' old

/-- The matcher accepts a call exactly when some spec of a scope that normalises covers it. -/
theorem scope_matching_exact :
    (∀ (intent : JsonDict) (action : String) (params : Option JsonDict),
      paramsMatchIntentScope P intent action params = .ok () ↔
        ∃ items, Normalises P intent items ∧
          ∃ spec ∈ items, Covers P action (params.getD []) spec) ∧
    (∀ (intent intent' : JsonDict) (items items' : List Json) (action : String)
        (params : Option JsonDict),
      intent.get "actions" = some (.arr items) → intent'.get "actions" = some (.arr items') →
        items.Perm items' →
          (paramsMatchIntentScope P intent action params = .ok () ↔
            paramsMatchIntentScope P intent' action params = .ok ())) ∧
    ∀ (intent intent' : JsonDict) (before after : List Json) (added : Json) (allowed : JsonDict)
        (action : String) (params : Option JsonDict),
      intent.get "actions" = some (.arr (before ++ after)) →
        intent'.get "actions" = some (.arr (before ++ added :: after)) →
          normalizeActionSpec P added = .ok allowed →
            paramsMatchIntentScope P intent action params = .ok () →
              paramsMatchIntentScope P intent' action params = .ok () :=
  ⟨fun _ _ _ => paramsMatchIntentScope_eq_ok_iff P,
    fun _ _ _ _ _ _ given given' reordered => paramsMatchIntentScope_perm P given given' reordered,
    fun _ _ _ _ _ _ _ _ given given' wellFormed accepted =>
      paramsMatchIntentScope_add P given given' wellFormed accepted⟩

end

end AgentProtocols.A4P
