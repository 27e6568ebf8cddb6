import AgentProtocols.A4P.UserSignature.Contracts

/-!
Intent mandates: `createIntentMandate` builds and signs one; `verifyIntentMandate` checks both
signatures, the validity window and the server.
-/

namespace AgentProtocols.A4P

open Json Lib JsonDict

def intentServerSignAlgorithm : String := "EdDSA"

def intentMandateServerKeyId : String := "server#intent-mandate-k1"

section

variable (P : Platform)

/-! ### Display text -/

def formatParams : Json → String
  | .str s => if s = "*" then "任意参数" else "无参数"
  | .obj fields =>
    if fields.isEmpty then "无参数"
    else
      ", ".intercalate ((sortMembers fields).map fun e =>
        if e.2.beq (.str "*") then e.1 ++ "=任意"
        else e.1 ++ "=" ++ pythonJsonDumps P e.2)
  | _ => "无参数"

def formatActionCall (action : JsonDict) : String :=
  let name := ((action.get "name").bind Json.asStr).getD ""
  name ++ "(" ++ formatParams P (fieldOr action "params" .null) ++ ")"

def buildIntentDisplayText (agentId : String) (actions : List JsonDict) (startIso endIso : String)
    (executionPolicy : Option JsonDict) : String :=
  let actionText := "；".intercalate (actions.map (formatActionCall P))
  let policyText := match executionPolicy with
    | none => ""
    | some policy =>
      "，最多 " ++ ((policy.get "maxExecutions").map (pyStr P)).getD "" ++ " 次"
  "授权 agent:" ++ agentId ++ " 在 " ++ P.formatBeijingDisplayTime startIso ++ " 至 " ++
    P.formatBeijingDisplayTime endIso ++ " 期间调用 " ++ actionText ++ policyText

/-! ### Creation and server signature -/

/-- The `userAuthorization` policy of both mandate types. -/
def userAuthorizationPolicy (requireUserSignature : Bool) (signatureMethod : String)
    (methodPolicy : Option JsonDict) : JsonDict :=
  if requireUserSignature then
    [("required", .bool true), ("signatureMethod", .str signatureMethod),
      ("methodPolicy", .obj (methodPolicy.getD []))]
  else [("required", .bool false)]

def serverSignatureEntry (algorithm keyId signature : String) : JsonDict :=
  [("alg", .str algorithm), ("keyId", .str keyId), ("signature", .str signature)]

/-- Replace `signatures.server` of a mandate whose `signatures` is an object. -/
def withServerSignature (mandate : JsonDict) (entry : JsonDict) : JsonDict :=
  match mandate.get "signatures" with
  | some (.obj signatures) =>
    mandate.insert "signatures" (.obj (JsonDict.insert signatures "server" (.obj entry)))
  | _ => mandate

variable {d normalized : JsonDict} {now : Int}

theorem NormalMandate.withServerSignature {type bodyKey : String} {Normal : JsonDict → Prop}
    (normal : NormalMandate type bodyKey Normal d) (other : bodyKey ≠ "signatures")
    (entry : JsonDict) : NormalMandate type bodyKey Normal (withServerSignature d entry) := by
  obtain ⟨type, ⟨body, found, fixed⟩, ⟨server, user, signatures⟩, policy, authorization⟩ := normal
  have signed : A4P.withServerSignature d entry =
      d.insert "signatures" (.obj [("server", .obj entry), ("user", .obj user)]) := by
    rw [A4P.withServerSignature, signatures]
    rfl
  rw [signed]
  refine ⟨?_, ⟨body, ?_, fixed⟩, ⟨entry, user, ?_⟩, ⟨policy, ?_⟩⟩
  · rw [get_insert_of_ne _ (by decide), type]
  · rw [get_insert_of_ne _ other, found]
  · rw [get_insert_self]
  · rw [get_insert_of_ne _ (by decide), authorization]

/-- `sign_server_mandate` for intent mandates. -/
def signIntentMandate (mandate : JsonDict) : Except A4PError JsonDict := do
  let signed ← normalizeIntentMandate P mandate
  let core ← intentMandateCorePayload P signed
  let key ← P.intentServerSigningKey
  .ok (withServerSignature signed (serverSignatureEntry intentServerSignAlgorithm
    intentMandateServerKeyId (ed25519SignText P (serverSignaturePayload P core) key)))

def mandateSubject (subjectType agentId : String) (agentPublicKey : Option JsonDict) : JsonDict :=
  let subject : JsonDict := [("type", .str subjectType), ("id", .str (subjectType ++ ":" ++ agentId))]
  match agentPublicKey with
  | some key => subject.insert "agentKey" (.obj key)
  | none => subject

structure CreateIntentMandate where
  server : String
  agentId : String
  actions : Option Json
  executionPolicy : Option Json
  validitySeconds : Int
  subjectType : String
  agentPublicKey : Option JsonDict
  requireUserSignature : Bool
  userSignatureMethod : Option String
  userSignatureMethodPolicy : Option JsonDict
  displayTextRenderer : Option (JsonDict → String)

/-- `create_intent_mandate` at the clock value `now`, with the 32 random bytes
of the mandate id. -/
def createIntentMandate (params : CreateIntentMandate) (now : Int) (random : Bytes) :
    Except A4PError JsonDict :=
  let signatureMethod := trim (params.userSignatureMethod.getD "")
  if params.requireUserSignature && signatureMethod == "" then
    .error (.value "userSignatureMethod missing")
  else do
    let startIso := P.formatIsoZ now
    let endIso := P.formatIsoZ (addI64 now params.validitySeconds)
    let actions ← normalizeActionSpecs P params.actions
    let policy ← normalizeExecutionPolicy params.executionPolicy
    let scope : JsonDict := [("actions", .arr (actions.map .obj))]
    let scope := match policy with
      | some policy => scope.insert "executionPolicy" (.obj policy)
      | none => scope
    let mandate : JsonDict :=
      [("type", .str intentMandateType),
        ("mandateId", .str ("mdt_" ++ b64urlEncode random)),
        ("server", .str params.server),
        ("subject", .obj (mandateSubject params.subjectType params.agentId params.agentPublicKey)),
        ("intent", .obj scope),
        ("validTime", .obj [("start", .str startIso), ("end", .str endIso)]),
        ("userAuthorization", .obj (userAuthorizationPolicy params.requireUserSignature
          signatureMethod params.userSignatureMethodPolicy)),
        ("displayText", .str (buildIntentDisplayText P params.agentId actions startIso endIso policy)),
        ("signatures", .obj [("server", .obj (serverSignatureEntry intentServerSignAlgorithm
          intentMandateServerKeyId "")), ("user", .obj [])])]
    let mandate := match params.displayTextRenderer with
      | some renderer => mandate.insert "displayText" (.str (renderer mandate))
      | none => mandate
    signIntentMandate P mandate

/-! ### Verification -/

structure VerifyIntentMandate where
  expectedServer : Option String
  expectedUserId : Option String
  requireUserSignature : Bool
  userSignatureMethod : Option UserSignatureMethod

/-- The server-signature check of both mandate types. -/
def verifyServerSignature (normalized : JsonDict) (algorithm : String)
    (core : Except A4PError JsonDict) (signingKey : Except A4PError Bytes) : Except String Unit :=
  let serverSig := objectOrEmpty (objectOrEmpty normalized "signatures") "server"
  let serverAlg := strTrimmed P serverSig "alg"
  if serverAlg ≠ algorithm then
    .error ("Server signature alg mismatch: expected '" ++ algorithm ++ "', got '" ++
      serverAlg ++ "'")
  else
    let serverSignature := strTrimmed P serverSig "signature"
    if serverSignature = "" then .error "Server signature missing"
    else
      match core with
      | .error e => .error e.text
      | .ok core =>
        match signingKey with
        | .error e => .error ("Server signing key unavailable: " ++ e.text)
        | .ok key =>
          if ed25519VerifyText P (serverSignaturePayload P core) serverSignature
              (P.verifyingKey key) then .ok ()
          else .error "Server signature invalid"

def truthyText (d : JsonDict) (key : String) : Option String :=
  ((d.get key).filter isTruthy).map (pyStr P)

/-- The validity window of an intent mandate at the clock value `now`. -/
def verifyIntentValidTime (normalized : JsonDict) (now : Int) : Except String Unit :=
  let validTime := objectOrEmpty normalized "validTime"
  match truthyText P validTime "start", truthyText P validTime "end" with
  | some startStr, some endStr =>
    match P.parseIsoZ startStr, P.parseIsoZ endStr with
    | some startTs, some endTs =>
      if now < startTs then .error "Mandate not yet valid"
      else if now > endTs then .error "Mandate has expired"
      else .ok ()
    | _, _ => .error "Mandate validTime format invalid"
  | _, _ => .error "Mandate has no validTime"

def verifyExpectedServer (normalized : JsonDict) : Option String → Except String Unit
  | none => .ok ()
  | some expectedServer =>
    let mandateServer := strTrimmed P normalized "server"
    let normalizedExpected := trim expectedServer
    if mandateServer ≠ normalizedExpected then
      .error ("Mandate server mismatch: expected '" ++ normalizedExpected ++ "', got '" ++
        mandateServer ++ "'")
    else .ok ()

/-- `verify_intent_mandate` at the clock value `now`. -/
def verifyIntentMandate (mandate : JsonDict) (options : VerifyIntentMandate) (now : Int) :
    Except String Unit :=
  if (mandate.get "type").bind Json.asStr ≠ some intentMandateType then
    .error "Invalid mandate type"
  else
    match normalizeIntentMandate P mandate with
    | .error e => .error e.text
    | .ok normalized => do
      verifyServerSignature P normalized intentServerSignAlgorithm
        (intentMandateCorePayload P normalized) P.intentServerSigningKey
      let userSig := objectOrEmpty (objectOrEmpty normalized "signatures") "user"
      let context ← (intentUserSignatureContext P normalized options.expectedUserId).mapError
        A4PError.text
      verifyUserSignature P context userSig options.userSignatureMethod
        options.requireUserSignature
      verifyIntentValidTime P normalized now
      verifyExpectedServer P normalized options.expectedServer

/-! ### Verified mandates -/

/-- `signatures.server` or `signatures.user` of a mandate. -/
def signatureOf (mandate : JsonDict) (signer : String) : JsonDict :=
  objectOrEmpty (objectOrEmpty mandate "signatures") signer

/-- The server signature of a mandate verifies over its core. -/
def ServerSigned (normalized : JsonDict) (core : Except A4PError JsonDict)
    (signingKey : Except A4PError Bytes) : Prop :=
  ∃ payload key, core = .ok payload ∧ signingKey = .ok key ∧
    ed25519VerifyText P (serverSignaturePayload P payload)
      (strTrimmed P (signatureOf normalized "server") "signature") (P.verifyingKey key) = true

/-- The user signature verifies for the expected user, where one is required. -/
def UserSigned (normalized : JsonDict) (context : Except A4PError UserSignatureContext)
    (expectedUserId : Option String) (method : Option UserSignatureMethod) (required : Bool) :
    Prop :=
  if required then
    ∃ c m, context = .ok c ∧ c.expectedUserId = expectedUserId ∧ method = some m ∧
      m.verify c (signatureOf normalized "user") = .ok ()
  else signatureOf normalized "user" = []

variable {P}

theorem verifyServerSignature_ok {algorithm : String}
    {core : Except A4PError JsonDict} {signingKey : Except A4PError Bytes}
    (verified : verifyServerSignature P normalized algorithm core signingKey = .ok ()) :
    ServerSigned P normalized core signingKey := by
  unfold verifyServerSignature at verified
  extract_lets serverSig serverAlg serverSignature at verified
  split at verified
  · cases verified
  · split at verified
    · cases verified
    · cases core with
      | error e => cases verified
      | ok payload =>
        cases signingKey with
        | error e => cases verified
        | ok key =>
          simp only at verified
          split at verified
          · rename_i valid
            exact ⟨payload, key, rfl, rfl, valid⟩
          · cases verified

theorem userSignatureContext_expected {mandateType : String}
    {expectedUserId : Option String} {context : UserSignatureContext}
    (built : userSignatureContext P mandateType normalized expectedUserId = .ok context) :
    context.expectedUserId = expectedUserId := by
  unfold userSignatureContext at built
  extract_lets userAuthorization at built
  split at built
  · split at built
    · cases built
    · obtain ⟨signed, _, eq⟩ := bind_eq_ok.mp built
      cases eq
      rfl
  · cases built

theorem userSigned_of_verify {context : UserSignatureContext}
    {built : Except A4PError UserSignatureContext} {expectedUserId : Option String}
    {method : Option UserSignatureMethod} {required : Bool} (eq : built = .ok context)
    (expected : context.expectedUserId = expectedUserId)
    (accepted : verifyUserSignature P context (signatureOf normalized "user") method required =
      .ok ()) : UserSigned normalized built expectedUserId method required := by
  have verified := verifyUserSignature_ok P accepted
  cases required with
  | true =>
    obtain ⟨m, found, _, ok⟩ := verified
    exact ⟨context, m, eq, expected, found, ok⟩
  | false => exact verified

theorem verifyIntentMandate_ok {mandate : JsonDict} {options : VerifyIntentMandate}
    (verified : verifyIntentMandate P mandate options now = .ok ()) :
    (mandate.get "type").bind Json.asStr = some intentMandateType ∧
      ∃ normalized, normalizeIntentMandate P mandate = .ok normalized ∧
        ServerSigned P normalized (intentMandateCorePayload P normalized) P.intentServerSigningKey ∧
        UserSigned normalized (intentUserSignatureContext P normalized options.expectedUserId)
          options.expectedUserId options.userSignatureMethod options.requireUserSignature ∧
        verifyIntentValidTime P normalized now = .ok () := by
  unfold verifyIntentMandate at verified
  split at verified
  · cases verified
  · rename_i type
    split at verified
    · cases verified
    · rename_i normalized found
      obtain ⟨_, server, context, built, _, user, _, time, _⟩ := bind₄_eq_ok.mp verified
      have built := mapError_eq_ok.mp built
      obtain ⟨renormalized, again, contextBuilt⟩ := bind_eq_ok.mp built
      refine ⟨by simpa using type, normalized, found, verifyServerSignature_ok server,
        userSigned_of_verify built (userSignatureContext_expected contextBuilt) user, time⟩

theorem signIntentMandate_normal {mandate : JsonDict} (signed : signIntentMandate P mandate = .ok d) :
    NormalIntentMandate P d := by
  obtain ⟨normalized, found, core, _, key, _, eq⟩ := bind₃_eq_ok.mp signed
  cases eq
  exact (normalizeIntentMandate_ok found).1.withServerSignature (by decide) _

theorem createIntentMandate_normal {params : CreateIntentMandate} {random : Bytes}
    (created : createIntentMandate P params now random = .ok d) : NormalIntentMandate P d := by
  unfold createIntentMandate at created
  extract_lets signatureMethod at created
  split at created
  · cases created
  · obtain ⟨actions, _, policy, _, created⟩ := bind₂_eq_ok.mp created
    exact signIntentMandate_normal created

theorem strTrimmed_of_truthyText {key text : String}
    (found : truthyText P d key = some text) : strTrimmed P d key = trim text := by
  unfold truthyText at found
  cases member : d.get key with
  | none => simp [member] at found
  | some v =>
    by_cases truthy : isTruthy v = true
    · simp only [member, Option.filter_some, truthy, if_true, Option.map_some,
        Option.some.injEq] at found
      simp [strTrimmed, strOrEmpty, member, truthy, found]
    · simp [member, truthy] at found

theorem validTime_end_nonempty (blank : ∀ text, trim text = "" → P.parseIsoZ text = none)
    (valid : verifyIntentValidTime P normalized now = .ok ()) :
    strTrimmed P (objectOrEmpty normalized "validTime") "end" ≠ "" := by
  unfold verifyIntentValidTime at valid
  extract_lets validTime at valid
  split at valid
  · rename_i startStr endStr _ found
    split at valid
    · rename_i startTs endTs _ parsed
      rw [strTrimmed_of_truthyText found]
      intro empty
      rw [blank endStr empty] at parsed
      cases parsed
    · cases valid
  · cases valid

end

end AgentProtocols.A4P
