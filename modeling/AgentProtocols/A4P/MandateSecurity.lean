import AgentProtocols.A4P.Canonical
import AgentProtocols.A4P.Intent.Scope

/-!
The signed core of a mandate and the texts that signatures cover: `serverSignaturePayload` for the
server, `canonicalUserAuthorizationPayload` for the user. Both normalisers return normal mandates
(`normalizeIntentMandate_ok`, `normalizeOperationMandate_ok`).
-/

namespace AgentProtocols.A4P

open Json Lib JsonDict

def userAuthorizationScope : String := "a4p/v1/user-authorization"

def intentMandateType : String := "a4p/v1/intent-mandate"

def operationMandateType : String := "a4p/v1/operation-mandate"

/-- A field of a wire object, or a default. -/
def fieldOr (d : JsonDict) (key : String) (default : Json) : Json := (d.get key).getD default

/-- The two signature containers of a mandate, empty when absent. -/
def signatureContainer (mandate : JsonDict) : JsonDict :=
  let signatures := objectOrEmpty mandate "signatures"
  [("server", .obj (objectOrEmpty signatures "server")),
    ("user", .obj (objectOrEmpty signatures "user"))]

section

variable (P : Platform)

/-! ### Intent mandates -/

def normalizeIntentMandate (mandate : JsonDict) : Except A4PError JsonDict := do
  let scope ← normalizeIntentScope P (mandate.get "intent")
  .ok ((((mandate.insert "type" (.str intentMandateType)).insert "intent" (.obj scope)).insert
    "signatures" (.obj (signatureContainer mandate))).insert
    "userAuthorization" (.obj (objectOrEmpty mandate "userAuthorization")))

def intentMandateCorePayload (mandate : JsonDict) : Except A4PError JsonDict := do
  let normalized ← normalizeIntentMandate P mandate
  .ok [("type", fieldOr normalized "type" (.str "")),
    ("mandateId", fieldOr normalized "mandateId" (.str "")),
    ("server", fieldOr normalized "server" (.str "")),
    ("subject", fieldOr normalized "subject" (.obj [])),
    ("intent", fieldOr normalized "intent" (.obj [])),
    ("validTime", fieldOr normalized "validTime" (.obj [])),
    ("userAuthorization", fieldOr normalized "userAuthorization" (.obj [])),
    ("displayText", fieldOr normalized "displayText" (.str ""))]

/-! ### Operation mandates -/

/-- The parameters of an operation, empty when absent. -/
def operationParams : Option Json → Except A4PError JsonDict
  | none => .ok []
  | some .null => .ok []
  | some (.obj params) => .ok params
  | some _ => .error (.value "Operation params must be an object")

def normalizeOperationObject (operation : JsonDict) : Except A4PError JsonDict :=
  let action := strTrimmed P operation "action"
  if action = "" then .error (.value "Operation action missing")
  else do
    let params ← operationParams (operation.get "params")
    .ok [("action", .str action), ("params", .obj params)]

def normalizeOperation : Option Json → Except A4PError JsonDict
  | some (.obj operation) => normalizeOperationObject P operation
  | _ => .error (.value "Operation must be an object")

def normalizeOperationMandate (mandate : JsonDict) : Except A4PError JsonDict := do
  let operation ← normalizeOperationObject P (objectOrEmpty mandate "operation")
  .ok ((((mandate.insert "operation" (.obj operation)).insert
    "signatures" (.obj (signatureContainer mandate))).insert
    "userAuthorization" (.obj (objectOrEmpty mandate "userAuthorization"))).insert
    "type" (.str operationMandateType))

def operationMandateCorePayload (mandate : JsonDict) : Except A4PError JsonDict := do
  let normalized ← normalizeOperationMandate P mandate
  .ok [("type", fieldOr normalized "type" (.str "")),
    ("operationId", fieldOr normalized "operationId" (.str "")),
    ("server", fieldOr normalized "server" (.str "")),
    ("subject", fieldOr normalized "subject" (.obj [])),
    ("operation", fieldOr normalized "operation" (.obj [])),
    ("validTime", fieldOr normalized "validTime" (.obj [])),
    ("userAuthorization", fieldOr normalized "userAuthorization" (.obj [])),
    ("displayText", fieldOr normalized "displayText" (.str ""))]

/-! ### Either mandate type -/

def mandateCorePayload (mandate : JsonDict) : Except A4PError JsonDict :=
  let invalid (e : A4PError) : A4PError := .mandateSecurity ⟨"SERVER_SIGNATURE_INVALID", e.text⟩
  let type := (mandate.get "type").bind Json.asStr
  if type = some intentMandateType then (intentMandateCorePayload P mandate).mapError invalid
  else if type = some operationMandateType then
    (operationMandateCorePayload P mandate).mapError invalid
  else
    .error (.mandateSecurity ⟨"SERVER_SIGNATURE_INVALID",
      "Unsupported A4P mandate type: " ++ pythonRepr P (mandate.get "type")⟩)

def mandateIdentifier (mandate : JsonDict) : Except A4PError String :=
  let identifier (fieldName : String) : Except A4PError String :=
    nonBlank (strTrimmed P mandate fieldName) (fieldName ++ " missing")
  let type := (mandate.get "type").bind Json.asStr
  if type = some intentMandateType then identifier "mandateId"
  else if type = some operationMandateType then identifier "operationId"
  else
    .error (.value ("Unsupported A4P mandate type: " ++ pythonRepr P (mandate.get "type")))

def serverSignedMandateWithoutUserSignature (mandate : JsonDict) : Except A4PError JsonDict := do
  let core ← mandateCorePayload P mandate
  match (getObject mandate "signatures").bind fun signatures => getObject signatures "server" with
  | none => .error (.value "Server signature missing")
  | some serverSignature =>
    .ok (core.insert "signatures" (.obj [("server", .obj serverSignature)]))

def canonicalUserAuthorizationPayload (mandate : JsonDict) : Except A4PError String := do
  let signed ← serverSignedMandateWithoutUserSignature P mandate
  .ok (canonicalJson P [("scope", .str userAuthorizationScope), ("mandate", .obj signed)])

def serverSignaturePayload (core : JsonDict) : String :=
  canonicalJson P [("scope", .str "server"), ("mandate", .obj core)]

end

/-! ### Normal forms -/

theorem objectOrEmpty_of_get {d fields : JsonDict} {key : String}
    (found : d.get key = some (.obj fields)) : objectOrEmpty d key = fields := by
  simp [objectOrEmpty, getObject, found, Json.asObject]

theorem signatureContainer_of_get {d server user : JsonDict}
    (found : d.get "signatures" = some (.obj [("server", .obj server), ("user", .obj user)])) :
    signatureContainer d = [("server", .obj server), ("user", .obj user)] := by
  simp only [signatureContainer, objectOrEmpty_of_get found]
  rfl

/-- A mandate whose members are as a normaliser sets them. -/
structure NormalMandate (type bodyKey : String) (Normal : JsonDict → Prop) (d : JsonDict) :
    Prop where
  type : d.get "type" = some (.str type)
  body : ∃ body, d.get bodyKey = some (.obj body) ∧ Normal body
  signatures : ∃ server user,
    d.get "signatures" = some (.obj [("server", .obj server), ("user", .obj user)])
  userAuthorization : ∃ policy, d.get "userAuthorization" = some (.obj policy)

theorem NormalMandate.typeText {type bodyKey : String} {Normal : JsonDict → Prop} {d : JsonDict}
    (normal : NormalMandate type bodyKey Normal d) :
    (d.get "type").bind Json.asStr = some type := by
  rw [normal.type]
  rfl

section

variable (P : Platform)

def NormalIntentMandate : JsonDict → Prop :=
  NormalMandate intentMandateType "intent" fun scope =>
    normalizeIntentScope P (some (.obj scope)) = .ok scope

def NormalOperationMandate : JsonDict → Prop :=
  NormalMandate operationMandateType "operation" fun operation =>
    normalizeOperationObject P operation = .ok operation

variable {P}

theorem NormalIntentMandate.fixed {d : JsonDict} (normal : NormalIntentMandate P d) :
    normalizeIntentMandate P d = .ok d := by
  obtain ⟨type, ⟨scope, intent, fixed⟩, ⟨server, user, signatures⟩, policy, authorization⟩ := normal
  rw [normalizeIntentMandate, intent, fixed, signatureContainer_of_get signatures,
    objectOrEmpty_of_get authorization]
  refine congrArg Except.ok ?_
  rw [insert_of_get type, insert_of_get intent, insert_of_get signatures,
    insert_of_get authorization]

theorem NormalOperationMandate.fixed {d : JsonDict} (normal : NormalOperationMandate P d) :
    normalizeOperationMandate P d = .ok d := by
  obtain ⟨type, ⟨operation, found, fixed⟩, ⟨server, user, signatures⟩, policy, authorization⟩ :=
    normal
  rw [normalizeOperationMandate, objectOrEmpty_of_get found, fixed,
    signatureContainer_of_get signatures, objectOrEmpty_of_get authorization]
  refine congrArg Except.ok ?_
  rw [insert_of_get found, insert_of_get signatures,
    insert_of_get authorization, insert_of_get type]

/-- What the intent normaliser returns: a normal mandate, with every other
member as it was. -/
theorem normalizeIntentMandate_ok {mandate d : JsonDict}
    (normalized : normalizeIntentMandate P mandate = .ok d) :
    NormalIntentMandate P d ∧ ∀ key, key ∉ ["type", "intent", "signatures", "userAuthorization"] →
        d.get key = mandate.get key := by
  obtain ⟨scope, found, eq⟩ := bind_eq_ok.mp normalized
  cases eq
  refine ⟨⟨?_, ⟨scope, ?_, normalizeIntentScope_idem P found⟩,
    ⟨objectOrEmpty (objectOrEmpty mandate "signatures") "server",
      objectOrEmpty (objectOrEmpty mandate "signatures") "user", ?_⟩,
    ⟨objectOrEmpty mandate "userAuthorization", ?_⟩⟩, ?_⟩
  · rw [get_insert_of_ne _ (by decide), get_insert_of_ne _ (by decide),
      get_insert_of_ne _ (by decide), get_insert_self]
  · rw [get_insert_of_ne _ (by decide), get_insert_of_ne _ (by decide), get_insert_self]
  · rw [get_insert_of_ne _ (by decide), get_insert_self, signatureContainer]
  · rw [get_insert_self]
  · intro key other
    simp only [List.mem_cons, List.not_mem_nil, or_false, not_or] at other
    rw [get_insert_of_ne _ other.2.2.2, get_insert_of_ne _ other.2.2.1,
      get_insert_of_ne _ other.2.1, get_insert_of_ne _ other.1]

theorem normalizeOperationObject_ok {operation normal : JsonDict}
    (normalized : normalizeOperationObject P operation = .ok normal) :
    ∃ params, strTrimmed P operation "action" ≠ "" ∧
      normal = [("action", .str (strTrimmed P operation "action")), ("params", .obj params)] := by
  unfold normalizeOperationObject at normalized
  extract_lets action at normalized
  split at normalized
  · cases normalized
  · rename_i nonempty
    obtain ⟨params, _, eq⟩ := bind_eq_ok.mp normalized
    cases eq
    exact ⟨params, nonempty, rfl⟩

theorem normalizeOperationObject_idem {operation normal : JsonDict}
    (normalized : normalizeOperationObject P operation = .ok normal) :
    normalizeOperationObject P normal = .ok normal := by
  obtain ⟨params, nonempty, rfl⟩ := normalizeOperationObject_ok normalized
  have action : strTrimmed P [("action", .str (strTrimmed P operation "action")),
      ("params", .obj params)] "action" = strTrimmed P operation "action" := by
    rw [strTrimmed_str P rfl, trim_strTrimmed]
  simp only [normalizeOperationObject, action, if_neg nonempty]
  rfl

theorem normalizeOperationMandate_ok {mandate d : JsonDict}
    (normalized : normalizeOperationMandate P mandate = .ok d) :
    NormalOperationMandate P d ∧
      ∀ key, key ∉ ["operation", "signatures", "userAuthorization", "type"] →
        d.get key = mandate.get key := by
  obtain ⟨operation, found, eq⟩ := bind_eq_ok.mp normalized
  cases eq
  refine ⟨⟨?_, ⟨operation, ?_, normalizeOperationObject_idem found⟩,
    ⟨objectOrEmpty (objectOrEmpty mandate "signatures") "server",
      objectOrEmpty (objectOrEmpty mandate "signatures") "user", ?_⟩,
    ⟨objectOrEmpty mandate "userAuthorization", ?_⟩⟩, ?_⟩
  · rw [get_insert_self]
  · rw [get_insert_of_ne _ (by decide), get_insert_of_ne _ (by decide),
      get_insert_of_ne _ (by decide), get_insert_self]
  · rw [get_insert_of_ne _ (by decide), get_insert_of_ne _ (by decide),
      get_insert_self, signatureContainer]
  · rw [get_insert_of_ne _ (by decide), get_insert_self]
  · intro key other
    simp only [List.mem_cons, List.not_mem_nil, or_false, not_or] at other
    rw [get_insert_of_ne _ other.2.2.2, get_insert_of_ne _ other.2.2.1,
      get_insert_of_ne _ other.2.1, get_insert_of_ne _ other.1]

end

end AgentProtocols.A4P
