import AgentProtocols.A4P.CanonicalText
import AgentProtocols.A4P.Intent.Token

/-!
What a signature covers: the canonical text of an object with a scope of its own and a core.
`signing_input_determines_object` says that it determines the kind of the object and its core, and
`same_core_same_input` that the core determines it.
-/

namespace AgentProtocols.A4P

open Json Lib JsonDict

/-! ### The builders keep objects well formed -/

theorem wellFormed_getD {v : Option Json} {default : Json}
    (wf : ∀ w, v = some w → w.WellFormed) (wfDefault : default.WellFormed) :
    (v.getD default).WellFormed := by
  cases v with
  | none => exact wfDefault
  | some w => exact wf w rfl

theorem wellFormed_fieldOr {d : JsonDict} (wf : d.WellFormed) (key : String) {default : Json}
    (wfDefault : default.WellFormed) : (fieldOr d key default).WellFormed :=
  wellFormed_getD (fun _ found => wf.of_get found) wfDefault

theorem wellFormed_getObject {d fields : JsonDict} (wf : d.WellFormed) {key : String}
    (found : getObject d key = some fields) : fields.WellFormed := by
  obtain ⟨v, member, object⟩ := Option.bind_eq_some_iff.mp found
  have wfValue := wf.of_get member
  cases v with
  | obj members =>
    cases object
    exact wfValue
  | _ => cases object

theorem wellFormed_objectOrEmpty {d : JsonDict} (wf : d.WellFormed) (key : String) :
    (objectOrEmpty d key).WellFormed := by
  rw [objectOrEmpty]
  cases found : getObject d key with
  | none => exact wellFormed_nil
  | some fields => exact wellFormed_getObject wf found

theorem wellFormed_paramsConstraint {value : Option Json} {params : Json}
    (wf : ∀ w, value = some w → w.WellFormed)
    (normalized : normalizeParamsConstraint value = .ok params) : params.WellFormed := by
  unfold normalizeParamsConstraint at normalized
  split at normalized
  · cases normalized
    exact wellFormed_nil
  · cases normalized
    exact wellFormed_nil
  · split at normalized
    · cases normalized
      exact wellFormed_str _
    · cases normalized
  · cases normalized
    exact wf _ rfl
  · cases normalized

section

variable {P : Platform}

theorem wellFormed_actionSpec {value : Json} {action : JsonDict} (wf : value.WellFormed)
    (normalized : normalizeActionSpec P value = .ok action) : action.WellFormed := by
  cases value with
  | obj fields =>
    simp only [normalizeActionSpec] at normalized
    split at normalized
    · cases normalized
    · obtain ⟨allowExtra, -, params, found, normalized⟩ := bind₂_eq_ok.mp normalized
      cases normalized
      have wfParams : params.WellFormed := by
        apply wellFormed_paramsConstraint _ found
        exact fun w member => JsonDict.WellFormed.of_get wf member
      apply wellFormed_obj.mpr
      simp [wfParams]
  | _ => cases normalized

theorem wellFormed_mapM_actionSpec : ∀ {items : List Json} {actions : List JsonDict},
    (∀ x ∈ items, x.WellFormed) → items.mapM (normalizeActionSpec P) = .ok actions →
      ∀ action ∈ actions, JsonDict.WellFormed action
  | [], actions, _, each => by
    cases each
    exact fun action mem => (List.not_mem_nil mem).elim
  | item :: items, actions, wf, each => by
    rw [List.mapM_cons] at each
    obtain ⟨action, first, rest, others, each⟩ := bind₂_eq_ok.mp each
    cases each
    intro a mem
    rcases List.mem_cons.mp mem with rfl | mem
    · exact wellFormed_actionSpec (wf item (.head _)) first
    · exact wellFormed_mapM_actionSpec (fun x mem => wf x (.tail _ mem)) others a mem

theorem wellFormed_actionSpecs {value : Option Json} {actions : List JsonDict}
    (wf : ∀ w, value = some w → w.WellFormed)
    (normalized : normalizeActionSpecs P value = .ok actions) :
    ∀ action ∈ actions, JsonDict.WellFormed action := by
  unfold normalizeActionSpecs at normalized
  split at normalized
  · obtain ⟨found, each, normalized⟩ := bind_eq_ok.mp normalized
    split at normalized
    · cases normalized
    · cases normalized
      exact wellFormed_mapM_actionSpec (wellFormed_arr.mp (wf _ rfl)) each
  · cases normalized

theorem wellFormed_intentScope {intent : Option Json} {scope : JsonDict}
    (wf : ∀ w, intent = some w → w.WellFormed)
    (normalized : normalizeIntentScope P intent = .ok scope) : scope.WellFormed := by
  unfold normalizeIntentScope at normalized
  extract_lets raw at normalized
  have wfRaw : raw.WellFormed := by
    simp only [raw]
    split
    · exact wf _ rfl
    · exact wellFormed_nil
  obtain ⟨actions, found, normalized⟩ := bind_eq_ok.mp normalized
  have wfActions := wellFormed_actionSpecs (fun w member => wfRaw.of_get member) found
  have listed : JsonDict.WellFormed [("actions", Json.arr (actions.map .obj))] := by
    apply wellFormed_obj.mpr
    simpa [JsonDict.WellFormed] using wfActions
  split at normalized
  · obtain ⟨policy, limited, normalized⟩ := bind_eq_ok.mp normalized
    split at normalized
    · cases normalized
      obtain ⟨n, rfl, -, -⟩ := normalizeExecutionPolicy_eq limited
      exact listed.insert _ (wellFormed_obj.mpr (by simp))
    · cases normalized
  · cases normalized
    exact listed

theorem wellFormed_signatureContainer {mandate : JsonDict} (wf : mandate.WellFormed) :
    (Json.obj (signatureContainer mandate)).WellFormed := by
  have signatures := wellFormed_objectOrEmpty wf "signatures"
  have server : (Json.obj _).WellFormed := wellFormed_objectOrEmpty signatures "server"
  have user : (Json.obj _).WellFormed := wellFormed_objectOrEmpty signatures "user"
  apply wellFormed_obj.mpr
  simp only [signatureContainer, List.map_cons, List.map_nil, List.forall_mem_cons, List.not_mem_nil, IsEmpty.forall_iff,
    implies_true, and_true]
  exact ⟨by decide, server, user⟩

theorem wellFormed_intentMandate {mandate d : JsonDict} (wf : mandate.WellFormed)
    (normalized : normalizeIntentMandate P mandate = .ok d) : d.WellFormed := by
  obtain ⟨scope, found, normalized⟩ := bind_eq_ok.mp normalized
  cases normalized
  apply JsonDict.WellFormed.insert _ _ (wellFormed_objectOrEmpty wf _)
  apply JsonDict.WellFormed.insert _ _ (wellFormed_signatureContainer wf)
  apply JsonDict.WellFormed.insert _ _ (wellFormed_intentScope (fun w member => wf.of_get member) found)
  exact wf.insert _ (wellFormed_str _)

theorem wellFormed_operation {operation d : JsonDict} (wf : operation.WellFormed)
    (normalized : normalizeOperationObject P operation = .ok d) : d.WellFormed := by
  unfold normalizeOperationObject at normalized
  extract_lets action at normalized
  split at normalized
  · cases normalized
  · obtain ⟨params, found, normalized⟩ := bind_eq_ok.mp normalized
    cases normalized
    have wfParams : (Json.obj params).WellFormed := by
      unfold operationParams at found
      split at found
      · cases found
        exact wellFormed_nil
      · cases found
        exact wellFormed_nil
      · rename_i member
        cases found
        exact wf.of_get member
      · cases found
    apply wellFormed_obj.mpr
    simp only [List.map_cons, List.map_nil, List.forall_mem_cons, List.not_mem_nil,
      IsEmpty.forall_iff, implies_true, and_true]
    exact ⟨by decide, wellFormed_str _, wfParams⟩

theorem wellFormed_operationMandate {mandate d : JsonDict} (wf : mandate.WellFormed)
    (normalized : normalizeOperationMandate P mandate = .ok d) : d.WellFormed := by
  obtain ⟨operation, found, normalized⟩ := bind_eq_ok.mp normalized
  cases normalized
  apply JsonDict.WellFormed.insert _ _ (wellFormed_str _)
  apply JsonDict.WellFormed.insert _ _ (wellFormed_objectOrEmpty wf _)
  apply JsonDict.WellFormed.insert _ _ (wellFormed_signatureContainer wf)
  exact wf.insert _ (wellFormed_operation (wellFormed_objectOrEmpty wf _) found)

theorem wellFormed_fields {d : JsonDict} (wf : d.WellFormed) {fields : List (String × Json)}
    (distinct : (fields.map Prod.fst).Nodup) (defaults : ∀ e ∈ fields, e.2.WellFormed) :
    JsonDict.WellFormed (fields.map fun e => (e.1, fieldOr d e.1 e.2)) := by
  apply wellFormed_obj.mpr
  constructor
  · rw [List.map_map]
    exact distinct
  · intro e mem
    obtain ⟨field, inFields, rfl⟩ := List.mem_map.mp mem
    exact wellFormed_fieldOr wf field.1 (defaults field inFields)

theorem wellFormed_intentCore {mandate core : JsonDict} (wf : mandate.WellFormed)
    (built : intentMandateCorePayload P mandate = .ok core) : core.WellFormed := by
  obtain ⟨normalized, found, built⟩ := bind_eq_ok.mp built
  cases built
  exact @wellFormed_fields normalized (wellFormed_intentMandate wf found)
    [("type", .str ""), ("mandateId", .str ""), ("server", .str ""), ("subject", .obj []),
      ("intent", .obj []), ("validTime", .obj []), ("userAuthorization", .obj []),
      ("displayText", .str "")] (by decide) (by decide)

theorem wellFormed_operationCore {mandate core : JsonDict} (wf : mandate.WellFormed)
    (built : operationMandateCorePayload P mandate = .ok core) : core.WellFormed := by
  obtain ⟨normalized, found, built⟩ := bind_eq_ok.mp built
  cases built
  exact @wellFormed_fields normalized (wellFormed_operationMandate wf found)
    [("type", .str ""), ("operationId", .str ""), ("server", .str ""), ("subject", .obj []),
      ("operation", .obj []), ("validTime", .obj []), ("userAuthorization", .obj []),
      ("displayText", .str "")] (by decide) (by decide)

theorem wellFormed_tokenCore {token core : JsonDict} (wf : token.WellFormed)
    (built : intentTokenCorePayload P token = .ok core) : core.WellFormed := by
  obtain ⟨scope, found, built⟩ := bind_eq_ok.mp built
  cases built
  have wfScope : (Json.obj scope).WellFormed :=
    wellFormed_intentScope (fun w member => wf.of_get member) found
  have field : ∀ key, ∀ default : Json, default.WellFormed → (fieldOr token key default).WellFormed :=
    fun key default wfDefault => wellFormed_fieldOr wf key wfDefault
  have empty : (Json.obj []).WellFormed := wellFormed_nil
  apply wellFormed_obj.mpr
  simp only [List.map_cons, List.map_nil, List.forall_mem_cons, List.not_mem_nil, IsEmpty.forall_iff,
    implies_true, and_true, field, wellFormed_str, empty, wfScope]
  decide

end

/-! ### Signed objects -/

/-- What is signed: by the server, or by the user. -/
inductive Form where
  | intentMandate
  | operationMandate
  | intentToken
  | userAuthorization
deriving DecidableEq

/-- An object to be signed, as the map it is on the wire. -/
structure SignedObject where
  form : Form
  fields : JsonDict
  wellFormed : fields.WellFormed

namespace SignedObject

variable (P : Platform) (x : SignedObject)

/-- The normalised core that the signature covers. -/
def core : Except A4PError JsonDict :=
  match x.form with
  | .intentMandate => intentMandateCorePayload P x.fields
  | .operationMandate => operationMandateCorePayload P x.fields
  | .intentToken => intentTokenCorePayload P x.fields
  | .userAuthorization => serverSignedMandateWithoutUserSignature P x.fields

/-- The text that is signed. -/
def input : Except A4PError String :=
  match x.form with
  | .intentMandate => (intentMandateCorePayload P x.fields).map (serverSignaturePayload P)
  | .operationMandate => (operationMandateCorePayload P x.fields).map (serverSignaturePayload P)
  | .intentToken => intentTokenSigningInput P x.fields
  | .userAuthorization => canonicalUserAuthorizationPayload P x.fields

/-- The form, and for a user's signature also the type of the mandate. -/
def kind : Form × Option String :=
  (x.form, if x.form = .userAuthorization then (x.fields.get "type").bind Json.asStr else none)

/-- The scope of the signing input, and the key of the core in it. -/
def scopeAndKey : Form → String × String
  | .intentMandate => ("server", "mandate")
  | .operationMandate => ("server", "mandate")
  | .intentToken => ("server.intent_token", "token")
  | .userAuthorization => (userAuthorizationScope, "mandate")

variable {P} {x}

theorem map_eq_ok {ε α β : Type} {r : Except ε α} {f : α → β} {b : β} :
    r.map f = .ok b ↔ ∃ a, r = .ok a ∧ f a = b := by
  cases r <;> simp [Except.map]

theorem input_eq_ok {text : String} (signed : x.input P = .ok text) : ∃ core, x.core P = .ok core ∧
    text = canonicalJson P [("scope", .str (scopeAndKey x.form).1),
      ((scopeAndKey x.form).2, .obj core)] := by
  obtain ⟨form, fields, wf⟩ := x
  cases form with
  | intentMandate =>
    obtain ⟨core, built, text⟩ := map_eq_ok.mp signed
    exact ⟨core, built, text.symm⟩
  | operationMandate =>
    obtain ⟨core, built, text⟩ := map_eq_ok.mp signed
    exact ⟨core, built, text.symm⟩
  | intentToken =>
    obtain ⟨core, built, text⟩ := bind_eq_ok.mp signed
    cases text
    exact ⟨core, built, rfl⟩
  | userAuthorization =>
    obtain ⟨core, built, text⟩ := bind_eq_ok.mp signed
    cases text
    exact ⟨core, built, rfl⟩

theorem mandateCorePayload_ok {mandate core : JsonDict}
    (built : mandateCorePayload P mandate = .ok core) :
    ((mandate.get "type").bind Json.asStr = some intentMandateType ∧
      intentMandateCorePayload P mandate = .ok core) ∨
    ((mandate.get "type").bind Json.asStr = some operationMandateType ∧
      operationMandateCorePayload P mandate = .ok core) := by
  unfold mandateCorePayload at built
  extract_lets invalid type at built
  split at built
  · rename_i intent
    exact .inl ⟨intent, mapError_eq_ok.mp built⟩
  · split at built
    · rename_i operation
      exact .inr ⟨operation, mapError_eq_ok.mp built⟩
    · cases built

theorem intentCore_type {mandate core : JsonDict}
    (built : intentMandateCorePayload P mandate = .ok core) :
    core.get "type" = some (.str intentMandateType) := by
  obtain ⟨normalized, found, built⟩ := bind_eq_ok.mp built
  cases built
  have type := (normalizeIntentMandate_ok found).1.type
  simp [JsonDict.get, fieldOr, show normalized.lookup "type" = _ from type]

theorem operationCore_type {mandate core : JsonDict}
    (built : operationMandateCorePayload P mandate = .ok core) :
    core.get "type" = some (.str operationMandateType) := by
  obtain ⟨normalized, found, built⟩ := bind_eq_ok.mp built
  cases built
  have type := (normalizeOperationMandate_ok found).1.type
  simp [JsonDict.get, fieldOr, show normalized.lookup "type" = _ from type]

theorem serverSigned_ok {mandate signed : JsonDict}
    (built : serverSignedMandateWithoutUserSignature P mandate = .ok signed) :
    ∃ core signatures server, mandateCorePayload P mandate = .ok core ∧
      getObject mandate "signatures" = some signatures ∧
      getObject signatures "server" = some server ∧
      signed = core.insert "signatures" (.obj [("server", .obj server)]) := by
  obtain ⟨core, found, built⟩ := bind_eq_ok.mp built
  split at built
  · cases built
  · rename_i server member
    obtain ⟨signatures, container, member⟩ := Option.bind_eq_some_iff.mp member
    cases built
    exact ⟨core, signatures, server, found, container, member, rfl⟩

theorem core_wellFormed {core : JsonDict} (built : x.core P = .ok core) : core.WellFormed := by
  obtain ⟨form, fields, wf⟩ := x
  cases form with
  | intentMandate => exact wellFormed_intentCore wf built
  | operationMandate => exact wellFormed_operationCore wf built
  | intentToken => exact wellFormed_tokenCore wf built
  | userAuthorization =>
    obtain ⟨core, signatures, server, found, container, member, rfl⟩ := serverSigned_ok built
    have wfCore : core.WellFormed := by
      rcases mandateCorePayload_ok found with ⟨-, built⟩ | ⟨-, built⟩
      · exact wellFormed_intentCore wf built
      · exact wellFormed_operationCore wf built
    have wfServer : (Json.obj server).WellFormed :=
      wellFormed_getObject (wellFormed_getObject wf container) member
    exact wfCore.insert _ (wellFormed_obj.mpr (by simpa using wfServer))

theorem core_type {core : JsonDict} (built : x.core P = .ok core) :
    (x.form = .intentMandate → core.get "type" = some (.str intentMandateType)) ∧
      (x.form = .operationMandate → core.get "type" = some (.str operationMandateType)) ∧
      (x.form = .userAuthorization → ∃ type, (x.fields.get "type").bind Json.asStr = some type ∧
        core.get "type" = some (.str type)) := by
  obtain ⟨form, fields, wf⟩ := x
  cases form with
  | intentMandate =>
    refine ⟨fun _ => intentCore_type built, ?_, ?_⟩
    · rintro ⟨⟩
    · rintro ⟨⟩
  | operationMandate =>
    refine ⟨?_, fun _ => operationCore_type built, ?_⟩
    · rintro ⟨⟩
    · rintro ⟨⟩
  | intentToken =>
    refine ⟨?_, ?_, ?_⟩
    · rintro ⟨⟩
    · rintro ⟨⟩
    · rintro ⟨⟩
  | userAuthorization =>
    refine ⟨?_, ?_, fun _ => ?_⟩
    · rintro ⟨⟩
    · rintro ⟨⟩
    · obtain ⟨core, signatures, server, found, -, -, rfl⟩ := serverSigned_ok built
      rw [get_insert_of_ne _ (by decide)]
      rcases mandateCorePayload_ok found with ⟨type, built⟩ | ⟨type, built⟩
      · exact ⟨_, type, intentCore_type built⟩
      · exact ⟨_, type, operationCore_type built⟩

theorem same_get {a b : JsonDict} (wf : a.WellFormed) (same : Json.same (.obj a) (.obj b) = true)
    {key : String} {v : Json} (found : a.get key = some v) :
    ∃ w, b.get key = some w ∧ Json.same v w = true := by
  rw [Json.same, Json.eqWith, Bool.and_eq_true, Json.eqFields_iff] at same
  exact same.2 (key, v) ((lookup_eq_some_iff_mem wf.nodup).mp found)

theorem same_get_str {a b : JsonDict} (wf : a.WellFormed)
    (same : Json.same (.obj a) (.obj b) = true) {key s t : String}
    (found : a.get key = some (.str s)) (found' : b.get key = some (.str t)) : s = t := by
  obtain ⟨w, member, equal⟩ := same_get wf same found
  rw [found'] at member
  cases member
  simpa [Json.same, Json.eqWith] using equal

theorem envelope_wellFormed {scope key : String} (other : key ≠ "scope") {core : JsonDict}
    (wf : core.WellFormed) : JsonDict.WellFormed [("scope", .str scope), (key, .obj core)] := by
  have member : ∀ e ∈ [("scope", Json.str scope), (key, .obj core)], e.2.WellFormed := by
    intro e mem
    rcases List.mem_cons.mp mem with rfl | mem
    · exact wellFormed_str scope
    · rw [List.mem_singleton.mp mem]
      exact wf
  apply wellFormed_obj.mpr
  refine ⟨?_, member⟩
  simpa using Ne.symm other

theorem key_ne_scope (form : Form) : (scopeAndKey form).2 ≠ "scope" := by
  cases form <;> decide

theorem scope_and_core_of_input (exp : LowerExp P) {x y : SignedObject} {text : String}
    (signed : x.input P = .ok text) (signed' : y.input P = .ok text) :
    scopeAndKey x.form = scopeAndKey y.form ∧
      ∃ core core', x.core P = .ok core ∧ y.core P = .ok core' ∧
        Json.same (.obj core) (.obj core') = true := by
  obtain ⟨core, built, eq⟩ := input_eq_ok signed
  obtain ⟨core', built', eq'⟩ := input_eq_ok signed'
  have wf := @envelope_wellFormed (scopeAndKey x.form).1 _ (key_ne_scope x.form) core
    (core_wellFormed built)
  have wf' := @envelope_wellFormed (scopeAndKey y.form).1 _ (key_ne_scope y.form) core'
    (core_wellFormed built')
  have same := canonicalJsonValue_inj exp wf wf' (eq.symm.trans eq')
  have scopes : (scopeAndKey x.form).1 = (scopeAndKey y.form).1 :=
    @same_get_str _ _ wf same "scope" _ _ rfl rfl
  have keys : scopeAndKey x.form = scopeAndKey y.form := by
    revert scopes
    cases x.form <;> cases y.form <;> decide
  refine ⟨keys, core, core', built, built', ?_⟩
  have member : ∀ {scope key : String} {core : JsonDict}, key ≠ "scope" →
      JsonDict.get [("scope", .str scope), (key, .obj core)] key = some (.obj core) := by
    intro scope key core other
    simp [JsonDict.get, List.lookup_cons, beq_eq_false_iff_ne.mpr other]
  obtain ⟨w, found, equal⟩ := same_get wf same (member (key_ne_scope x.form))
  rw [keys, member (key_ne_scope y.form)] at found
  cases found
  exact equal

/-- A signing input determines the kind of the signed object and its core. -/
theorem signing_input_determines_object (exp : LowerExp P) :
    (∀ a b : Value, canonicalJsonValue P a.val = canonicalJsonValue P b.val →
      Json.same a.val b.val = true) ∧
    ∀ (x y : SignedObject) (text : String), x.input P = .ok text → y.input P = .ok text →
      x.kind = y.kind ∧ ∃ core core', x.core P = .ok core ∧ y.core P = .ok core' ∧
        Json.same (.obj core) (.obj core') = true := by
  refine ⟨fun a b => canonicalJsonValue_inj exp a.property b.property, ?_⟩
  intro x y text signed signed'
  obtain ⟨scopes, core, core', built, built', same⟩ := scope_and_core_of_input exp signed signed'
  refine ⟨?_, core, core', built, built', same⟩
  have wf := core_wellFormed built
  obtain ⟨intent, operation, user⟩ := core_type built
  obtain ⟨intent', operation', user'⟩ := core_type built'
  -- mandates of the two types share the scope and differ in the type of the core
  have forms : x.form = y.form := by
    cases form : x.form <;> cases form' : y.form <;> rw [form, form'] at scopes <;> first
      | rfl
      | exact absurd (same_get_str wf same (intent form) (operation' form')) (by decide)
      | exact absurd (same_get_str wf same (operation form) (intent' form')) (by decide)
      | exact absurd scopes (by decide)
  rw [kind, kind, ← forms]
  split
  · rename_i authorization
    obtain ⟨type, found, shown⟩ := user authorization
    obtain ⟨type', found', shown'⟩ := user' (forms.symm.trans authorization)
    rw [found, found', same_get_str wf same shown shown']
  · rfl

/-! ### Two orders of one token -/

/-- A number for the digits of a positive float. -/
def floatCode (f : F64) : Nat := f.exponent.val * 2 ^ 52 + f.fraction.val

theorem floatCode_injective {f g : F64} (same : floatCode f.abs = floatCode g.abs) :
    f.abs = g.abs := by
  have apart : ∀ {m a b c d : Nat}, b < m → d < m → a * m + b = c * m + d → a = c ∧ b = d := by
    intro m a b c d bound bound' same
    have quotient : ∀ {a b : Nat}, b < m → (a * m + b) / m = a := by
      intro a b bound
      rw [Nat.mul_comm, Nat.mul_add_div (by omega), Nat.div_eq_of_lt bound, Nat.add_zero]
    have quotients : a = c := by
      rw [← @quotient a b bound, same, quotient bound']
    subst quotients
    exact ⟨rfl, Nat.add_left_cancel same⟩
  obtain ⟨exponents, fractions⟩ := apart f.fraction.isLt g.fraction.isLt same
  simp only [F64.abs, F64.mk.injEq, true_and]
  exact ⟨Fin.ext exponents, Fin.ext fractions⟩

/-- A platform whose floats print digits that tell them apart; the tokens below have no
floats. -/
def codePlatform : Platform where
  floatDisplay _ := ""
  floatLowerExp f := String.ofList ('1' :: '.' :: (natText (floatCode f) ++ ['1', 'e', '0']))
  toLowercase s := String.ofList (s.toList.map Char.toLower)
  parseIsoZ _ := none
  formatIsoZ _ := ""
  formatBeijingDisplayTime s := s
  sha256 _ := []
  isVerifyingKey _ := false
  verifyingKey _ := []
  ed25519Sign _ _ := []
  ed25519Verify _ _ _ := false
  intentServerSigningKey := .error (.runtime "")
  operationServerSigningKey := .error (.runtime "")

theorem mantissa_text (code : List Char) :
    '1' :: '.' :: (code ++ ['1', 'e', '0']) = ('1' :: (code ++ ['1'])).take 1 ++
      (if ('1' :: (code ++ ['1'])).length > 1 then '.' :: ('1' :: (code ++ ['1'])).drop 1 else []) ++
        'e' :: intText 0 := by
  have zero : intText 0 = ['0'] := rfl
  rw [zero]
  simp

theorem codePlatform_lowerExp : LowerExp codePlatform where
  shape f _ := by
    refine ⟨'1' :: (natText (floatCode f.abs) ++ ['1']), 0, ⟨?_, ⟨'1', _, rfl, by decide⟩, ?_⟩,
      by decide, by decide, ?_⟩
    · intro c mem
      rcases List.mem_cons.mp mem with rfl | mem
      · rfl
      · rcases List.mem_append.mp mem with mem | mem
        · exact isDigit_of_mem_natText mem
        · rw [List.mem_singleton.mp mem]
          rfl
    · rw [← List.cons_append, List.getLast?_concat]
      decide
    · simp only [codePlatform, String.toList_ofList]
      exact mantissa_text _
  injective f g _ _ same := by
    have texts := String.ofList_injective same
    simp only [List.cons.injEq, true_and] at texts
    exact floatCode_injective (natText_injective (List.append_cancel_right texts))

def orderedToken : SignedObject where
  form := .intentToken
  fields := [("tokenId", .str "t1"),
    ("intent", .obj [("actions", .arr [.obj [("name", .str "pay")]])])]
  wellFormed := by decide

/-- The same token with its members the other way round and a default written out. -/
def reorderedToken : SignedObject where
  form := .intentToken
  fields := [("intent", .obj [("actions", .arr [.obj [("params", .null), ("name", .str " pay ")]])]),
    ("tokenId", .str "t1")]
  wellFormed := by decide

theorem reordered_token_same_core : ∃ text, orderedToken.input codePlatform = .ok text ∧
    reorderedToken.input codePlatform = .ok text ∧ orderedToken.kind = reorderedToken.kind ∧
      ∃ core core', orderedToken.core codePlatform = .ok core ∧
        reorderedToken.core codePlatform = .ok core' ∧
          Json.same (.obj core) (.obj core') = true := by
  have signed : ∃ text, orderedToken.input codePlatform = .ok text ∧
      reorderedToken.input codePlatform = .ok text := ⟨_, rfl, rfl⟩
  obtain ⟨text, signed, signed'⟩ := signed
  exact ⟨text, signed, signed', (signing_input_determines_object codePlatform_lowerExp).2
    orderedToken reorderedToken text signed signed'⟩

/-- A text does not depend on the order of members: values that are the same up to it have one
canonical text, and objects of one form with the same core have one signing input. -/
theorem same_core_same_input {P : Platform} :
    (∀ a b : Value, Json.same a.val b.val = true →
      canonicalJsonValue P a.val = canonicalJsonValue P b.val) ∧
    ∀ (x y : SignedObject) (text text' : String) (core core' : JsonDict), x.form = y.form →
      x.input P = .ok text → y.input P = .ok text' → x.core P = .ok core → y.core P = .ok core' →
        Json.same (.obj core) (.obj core') = true → text = text' := by
  have texts : ∀ a b : Value, Json.same a.val b.val = true →
      canonicalJsonValue P a.val = canonicalJsonValue P b.val := fun a b same =>
    congrArg String.ofList (writeValue_of_same a.val a.property b.property same)
  refine ⟨texts, fun x y text text' core core' form signed signed' built built' same => ?_⟩
  obtain ⟨c, found, rfl⟩ := input_eq_ok signed
  obtain ⟨c', found', rfl⟩ := input_eq_ok signed'
  cases built.symm.trans found
  cases built'.symm.trans found'
  have other := key_ne_scope y.form
  rw [form]
  refine texts ⟨_, envelope_wellFormed other (core_wellFormed built)⟩
    ⟨_, envelope_wellFormed other (core_wellFormed built')⟩ ?_
  simpa [Json.same, eqWith, eqFields, List.lookup_cons, beq_eq_false_iff_ne.mpr other] using same

theorem reordered_token_same_input : ∃ text text', orderedToken.input codePlatform = .ok text ∧
    reorderedToken.input codePlatform = .ok text' ∧ text = text' := by
  obtain ⟨text, text', core, core', signed, signed', built, built', same⟩ : ∃ text text' core core',
    orderedToken.input codePlatform = .ok text ∧ reorderedToken.input codePlatform = .ok text' ∧
    orderedToken.core codePlatform = .ok core ∧ reorderedToken.core codePlatform = .ok core' ∧
      Json.same (.obj core) (.obj core') = true := ⟨_, _, _, _, rfl, rfl, rfl, rfl, rfl⟩
  exact ⟨text, text', signed, signed',
    same_core_same_input.2 _ _ _ _ core core' rfl signed signed' built built' same⟩

end SignedObject

end AgentProtocols.A4P
