import AgentProtocols.A4P.Intent.Mandate

/-!
Intent tokens: issuance and stateless verification. `verifyIntentToken` checks type, algorithm, key
id and signature, then expiry, identity binding and scope.
-/

namespace AgentProtocols.A4P

open Json Lib

def intentTokenType : String := "a4p/v1/intent-token"

def tokenSignAlg : String := "EdDSA"

def tokenKeyId : String := "server#intent-token-v1"

def intentTokenKeyId (mandateId : String) : String :=
  let normalized := trim mandateId
  if normalized = "" then tokenKeyId else tokenKeyId ++ ":" ++ normalized

section

variable (P : Platform)

def intentTokenCorePayload (token : JsonDict) : Except A4PError JsonDict := do
  let scope ← normalizeIntentScope P (token.get "intent")
  .ok [("type", fieldOr token "type" (.str "")),
    ("tokenId", fieldOr token "tokenId" (.str "")),
    ("mandateId", fieldOr token "mandateId" (.str "")),
    ("subject", fieldOr token "subject" (.obj [])),
    ("user", fieldOr token "user" (.obj [])),
    ("intent", .obj scope),
    ("issuedAt", fieldOr token "issuedAt" (.str "")),
    ("expireAt", fieldOr token "expireAt" (.str "")),
    ("nonce", fieldOr token "nonce" (.str ""))]

def intentTokenSigningInput (token : JsonDict) : Except A4PError String := do
  let core ← intentTokenCorePayload P token
  .ok (canonicalJson P [("scope", .str "server.intent_token"), ("token", .obj core)])

/-! ### Issuance -/

structure IssueIntentToken where
  userId : String
  verifiedMandate : Bool
  requireUserSignature : Bool
  userSignatureMethod : Option UserSignatureMethod

structure TokenRandom where
  /-- `token_hex(16)`. -/
  tokenId : String
  /-- `token_urlsafe(16)`. -/
  nonce : String

/-- The subject of a token, taken from the mandate's. -/
def tokenSubject (subject : JsonDict) : JsonDict :=
  let subjectType := strTrimmed P subject "type"
  let tokenSubject : JsonDict :=
    [("type", .str (if subjectType = "" then "agent" else subjectType)),
      ("id", .str (strTrimmed P subject "id"))]
  match getObject subject "agentKey" with
  | some agentKey => tokenSubject.insert "agentKey" (.obj agentKey)
  | none => tokenSubject

/-- The check of a mandate that the caller has not verified. -/
def verifyForIssue (mandate : JsonDict) (options : IssueIntentToken) (now : Int) :
    Except A4PError Unit :=
  if options.verifiedMandate then .ok ()
  else
    (verifyIntentMandate P mandate
      ⟨none, none, options.requireUserSignature, options.userSignatureMethod⟩ now).mapError
      fun reason => .value ("invalid intent mandate: " ++ reason)

/-- `issue_intent_token` at the clock value `now`. -/
def issueIntentToken (mandate : JsonDict) (options : IssueIntentToken) (now : Int)
    (random : TokenRandom) : Except A4PError JsonDict := do
  verifyForIssue P mandate options now
  let normalized ← normalizeIntentMandate P mandate
  let mandateId ← nonBlank (strTrimmed P normalized "mandateId") "mandateId missing"
  let expireAt ← nonBlank (strTrimmed P (objectOrEmpty normalized "validTime") "end")
    "mandate validTime.end missing"
  let userId := trim options.userId
  let scope ← normalizeIntentScope P (some (.obj (objectOrEmpty normalized "intent")))
  let token : JsonDict :=
    [("type", .str intentTokenType),
      ("tokenId", .str random.tokenId),
      ("mandateId", .str mandateId),
      ("subject", .obj (tokenSubject P (objectOrEmpty normalized "subject"))),
      ("user", .obj [("id", .str (if userId = "" then "user:unknown" else userId))]),
      ("intent", .obj scope),
      ("issuedAt", .str (P.formatIsoZ now)),
      ("expireAt", .str expireAt),
      ("nonce", .str random.nonce),
      ("signature", .str ""),
      ("alg", .str tokenSignAlg),
      ("keyId", .str (intentTokenKeyId mandateId))]
  let input ← intentTokenSigningInput P token
  let key ← P.intentServerSigningKey
  .ok (token.insert "signature" (.str (ed25519SignText P input key)))

section

variable {P}

theorem intentTokenSigningInput_ok {token scope : JsonDict}
    (found : token.get "intent" = some (.obj scope))
    (fixed : normalizeIntentScope P (some (.obj scope)) = .ok scope) :
    ∃ input, intentTokenSigningInput P token = .ok input := by
  rw [← found] at fixed
  exact ⟨_, bind_eq_ok.mpr ⟨_, bind_eq_ok.mpr ⟨_, fixed, rfl⟩, rfl⟩⟩

theorem issueIntentToken_ok (blank : ∀ text, trim text = "" → P.parseIsoZ text = none)
    {mandate : JsonDict} {options : VerifyIntentMandate} {issue : IssueIntentToken}
    {now issuedAt : Int} {random : TokenRandom} {id : String}
    (verified : verifyIntentMandate P mandate options now = .ok ())
    (identified : mandateIdentifier P mandate = .ok id) (trusted : issue.verifiedMandate = true) :
    ∃ token, issueIntentToken P mandate issue issuedAt random = .ok token := by
  obtain ⟨type, normalized, found, ⟨payload, key, _, signingKey, _⟩, _, time⟩ :=
    verifyIntentMandate_ok verified
  obtain ⟨normal, others⟩ := normalizeIntentMandate_ok found
  obtain ⟨-, ⟨scope, intent, fixed⟩, -, -⟩ := normal
  have sameId : strTrimmed P normalized "mandateId" = strTrimmed P mandate "mandateId" :=
    strTrimmed_congr P (others "mandateId" (by decide))
  have idNonempty : strTrimmed P normalized "mandateId" ≠ "" := by
    rw [sameId]
    intro empty
    simp only [mandateIdentifier, type, empty] at identified
    cases identified
  have endNonempty := validTime_end_nonempty blank time
  have trust : verifyForIssue P mandate issue issuedAt = .ok () := if_pos trusted
  have issued : normalizeIntentScope P 
      (some (.obj (objectOrEmpty normalized "intent"))) = .ok scope := by
    rw [objectOrEmpty_of_get intent, fixed]
  refine ⟨_, bind_eq_ok.mpr ⟨_, trust, bind_eq_ok.mpr ⟨_, found, bind_eq_ok.mpr
    ⟨_, nonBlank_ok idNonempty, bind_eq_ok.mpr ⟨_, nonBlank_ok endNonempty, bind_eq_ok.mpr
    ⟨_, issued, bind_eq_ok.mpr ⟨_, (intentTokenSigningInput_ok rfl fixed).choose_spec, bind_eq_ok.mpr ⟨_, signingKey, rfl⟩⟩⟩⟩⟩⟩⟩⟩

end

/-! ### Verification -/

structure VerifyIntentToken where
  action : String
  params : Option JsonDict
  expectedAgentId : Option String
  expectedUserId : Option String
  expectedAgentKeyId : Option String

def paramsMatchIntentToken (token : JsonDict) (action : String) (params : Option JsonDict) :
    Except String Unit :=
  paramsMatchIntentScope P (objectOrEmpty token "intent") action params

/-- An identity check that applies only to a non-empty expectation. -/
def verifyExpectedId (what : String) (expected : Option String) (actual : String) :
    Except String Unit :=
  match expected.filter (· ≠ "") with
  | none => .ok ()
  | some expected =>
    if actual ≠ expected then
      .error ("Token " ++ what ++ " mismatch: expected '" ++ expected ++ "', got '" ++
        actual ++ "'")
    else .ok ()

/-- The key id of an agent key: `kid`, or `keyId` when that is missing. -/
def agentKeyId (agentKey : JsonDict) : String :=
  trim (match (agentKey.get "kid").filter isTruthy with
    | some v => pyStr P v
    | none => strOrEmpty P agentKey "keyId")

/-- The checks after the signature, at the clock value `now`. -/
def verifyIntentTokenAfterSignature (token : JsonDict) (options : VerifyIntentToken) (now : Int) :
    Except String Unit :=
  let expireAt := strTrimmed P token "expireAt"
  if expireAt = "" then .error "Token expireAt missing"
  else
    match P.parseIsoZ expireAt with
    | none => .error "Token expireAt format invalid"
    | some expireTs =>
      if now > expireTs then .error "Token expired"
      else do
        let subject := objectOrEmpty token "subject"
        verifyExpectedId "subject" options.expectedAgentId (strTrimmed P subject "id")
        verifyExpectedId "agent key" options.expectedAgentKeyId
          (agentKeyId P (objectOrEmpty subject "agentKey"))
        verifyExpectedId "user" options.expectedUserId
          (strTrimmed P (objectOrEmpty token "user") "id")
        paramsMatchIntentToken P token options.action options.params

/-- `verify_intent_token` at the clock value `now`. -/
def verifyIntentToken (token : JsonDict) (options : VerifyIntentToken) (now : Int) :
    Except String Unit :=
  let tokenAlg := strTrimmed P token "alg"
  let signature := strTrimmed P token "signature"
  let mandateId := strTrimmed P token "mandateId"
  let keyId := strTrimmed P token "keyId"
  let expectedKeyId := intentTokenKeyId mandateId
  if (token.get "type").bind Json.asStr ≠ some intentTokenType then .error "Invalid token type"
  else if tokenAlg ≠ tokenSignAlg then
    .error ("Token alg mismatch: expected '" ++ tokenSignAlg ++ "', got '" ++ tokenAlg ++ "'")
  else if signature = "" then .error "Token signature missing"
  else if mandateId = "" then .error "Token mandateId missing"
  else if keyId ≠ expectedKeyId then
    .error ("Token keyId mismatch: expected '" ++ expectedKeyId ++ "', got '" ++ keyId ++ "'")
  else
    match intentTokenSigningInput P token with
    | .error e => .error e.text
    | .ok payload =>
      match P.intentServerSigningKey with
      | .error e => .error ("Server signing key unavailable: " ++ e.text)
      | .ok key =>
        if ed25519VerifyText P payload signature (P.verifyingKey key) then
          verifyIntentTokenAfterSignature P token options now
        else .error "Token signature invalid"

end

end AgentProtocols.A4P
