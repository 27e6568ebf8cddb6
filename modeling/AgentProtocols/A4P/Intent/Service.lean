import AgentProtocols.A4P.AuthorizationCommon
import AgentProtocols.A4P.Intent.Token
import AgentProtocols.A4P.Intent.UsageStore

/-!
The intent authorization service. Every call touches shared state in one section: `prepare` inserts,
`complete` compares, verifies and removes, and `verifyToken` consumes after a stateless check. The
functions take the shared state before that section and return it after.
-/

namespace AgentProtocols.A4P

open Json Lib

structure PendingIntent where
  request : JsonDict
  mandate : JsonDict

structure IntentAuthorizationService where
  serverId : String
  displayTextRenderer : Option (JsonDict → String)
  requireUserSignature : Bool

structure IntentAuthorizationResponse where
  mandate : Option JsonDict := none
  signingOptions : JsonDict := []
  intentToken : Option JsonDict := none
  verificationResult : Option VerificationResult := none
  approved : Bool := false
  rejectReason : Option String := none

abbrev PendingIntents := OrderedMap String PendingIntent

def rejectedIntent (mandate : Option JsonDict) (reason code : String) :
    IntentAuthorizationResponse where
  mandate := mandate
  rejectReason := some reason
  verificationResult := some (.fail reason code)

section

variable (P : Platform)

/-- The `validitySeconds` of a prepare request. -/
def validitySeconds (request : JsonDict) (default : Int) : Except A4PError Int :=
  match request.get "validitySeconds" with
  | none => .ok default
  | some .null => .ok default
  | some value =>
    match asInt value with
    | some number =>
      if number > 0 then .ok number
      else .error (.value "validitySeconds must be a positive integer")
    | none => .error (.value "validitySeconds must be a positive integer")

/-- The server a request names, or the configured one. -/
def requestServer (request : JsonDict) (serverId : String) : String :=
  (truthyText P request "server").getD serverId

/-- A trimmed field that must not be empty. -/
def requiredField (request : JsonDict) (key : String) : Except A4PError String :=
  nonBlank (strTrimmed P request key) (key ++ " missing")

variable {P} in
theorem requiredField_eq_ok {request : JsonDict} {key text : String}
    (found : requiredField P request key = .ok text) : text = strTrimmed P request key := by
  unfold requiredField nonBlank at found
  split at found
  · cases found
  · cases found
    rfl

def signingOptionsFor (requireUserSignature : Bool) (method : Option UserSignatureMethod)
    (userId : String) (mandate : JsonDict) : Except A4PError JsonDict :=
  match method with
  | some method => if requireUserSignature then method.signingOptions userId mandate else .ok []
  | none => .ok []

def checkPolicyGiven : Option Json → Except A4PError Unit
  | some .null => .error (.value "executionPolicy must include maxExecutions")
  | _ => .ok ()

namespace IntentAuthorizationService

variable (S : IntentAuthorizationService)

/-! ### Prepare -/

/-- `prepare_inner`: the mandate id, the signed mandate and the signing
options. -/
def prepareInner (request intent : JsonDict) (method : Option UserSignatureMethod) (now : Int)
    (random : Bytes) : Except A4PError (String × JsonDict × JsonDict) := do
  let agentId ← requiredField P request "agentId"
  let userId ← requiredField P request "userId"
  let validity ← validitySeconds request 3600
  checkPolicyGiven (intent.get "executionPolicy")
  let mandate ← createIntentMandate P
    { server := requestServer P request S.serverId
      agentId := agentId
      actions := intent.get "actions"
      executionPolicy := intent.get "executionPolicy"
      validitySeconds := validity
      subjectType := "agent"
      agentPublicKey := getObject request "agentPublicKey"
      requireUserSignature := S.requireUserSignature
      userSignatureMethod := method.map UserSignatureMethod.signatureMethod
      userSignatureMethodPolicy := method.map UserSignatureMethod.methodPolicy
      displayTextRenderer := S.displayTextRenderer } now random
  let mandateId ← mandateIdentifier P mandate
  let signingOptions ← signingOptionsFor S.requireUserSignature method userId mandate
  .ok (mandateId, mandate, signingOptions)

def prepare (pending : PendingIntents) (request : JsonDict) (method : Option UserSignatureMethod)
    (now : Int) (random : Bytes) :
    Except A4PError IntentAuthorizationResponse × PendingIntents :=
  match S.prepareInner P request (objectOrEmpty request "intent") method now random with
  | .ok (mandateId, mandate, signingOptions) =>
    (.ok { mandate := some mandate, signingOptions }, pending.insert mandateId ⟨request, mandate⟩)
  | .error e =>
    match e with
    | .protocol error =>
      if error.isUserCredentialNotRegistered then
        (.ok (rejectedIntent none error.message error.code), pending)
      else (.ok (rejectedIntent none e.text "MANDATE_INVALID"), pending)
    | e =>
      if e.isValueError then (.ok (rejectedIntent none e.text "MANDATE_INVALID"), pending)
      else (.error e, pending)

/-! ### Complete -/

/-- The checks of `complete` under the lock, for the pending entry found. -/
def checkCompletion (entry : PendingIntent) (signedMandate : JsonDict)
    (method : Option UserSignatureMethod) (now : Int) :
    Except IntentAuthorizationResponse Unit :=
  if mandateMatchesPending signedMandate entry.mandate (normalizeIntentMandate P) then
    match verifyIntentMandate P signedMandate
        { expectedServer := some (requestServer P entry.request S.serverId)
          expectedUserId := some (strOrEmpty P entry.request "userId")
          requireUserSignature := S.requireUserSignature
          userSignatureMethod := method } now with
    | .ok () => .ok ()
    | .error reason =>
      .error (rejectedIntent (some entry.mandate) reason (errorCode P reason "MANDATE"))
  else
    .error (rejectedIntent (some entry.mandate)
      "Signed mandate does not match pending intent authorization" "MANDATE_PENDING_MISMATCH")

/-- `complete`: verification reads the clock at `now`, issuance at `issuedAt`. -/
def complete (pending : PendingIntents) (request : JsonDict) (method : Option UserSignatureMethod)
    (now issuedAt : Int) (random : TokenRandom) :
    Except A4PError IntentAuthorizationResponse × PendingIntents :=
  match getObject request "signedMandate" with
  | none => (.ok (rejectedIntent none "signedMandate missing" "MANDATE_INVALID"), pending)
  | some signedMandate =>
    match mandateIdentifier P signedMandate with
    | .error e => (.ok (rejectedIntent none e.text "MANDATE_INVALID"), pending)
    | .ok mandateId =>
      match pending.get? mandateId with
      | none =>
        (.ok { rejectReason := some ("No pending intent authorization: " ++ mandateId)
               verificationResult := some (.fail "No pending intent authorization"
                 "AUTHORIZATION_NOT_PENDING") }, pending)
      | some entry =>
        match S.checkCompletion P entry signedMandate method now with
        | .error response => (.ok response, pending)
        | .ok () =>
          let userId := (truthyText P entry.request "userId").getD "user:unknown"
          (issueIntentToken P signedMandate
            ⟨userId, true, S.requireUserSignature, none⟩ issuedAt random |>.map fun token =>
              { mandate := some signedMandate
                intentToken := some token
                approved := true
                verificationResult := some (.ok none) },
            pending.erase mandateId)

end IntentAuthorizationService

/-! ### Token verification -/

structure TokenVerificationResponse where
  valid : Bool
  reason : Option String
  code : Option String
  matchedScope : Option JsonDict

/-- What one token may still be used for: its id, its limit and its expiry. -/
structure TokenAllowance where
  tokenId : String
  maxExecutions : Int
  expireAtEpoch : Int
deriving DecidableEq

/-- The arguments of `consume_token_usage`; `ok (ok none)` is a token without an execution policy.
-/
def tokenAllowance (token : JsonDict) : Except String (Except String (Option TokenAllowance)) :=
  let tokenId := strTrimmed P token "tokenId"
  if tokenId = "" then .ok (.error "Token tokenId missing")
  else
    match normalizeIntentScope P (token.get "intent") with
    | .error e => .ok (.error e.text)
    | .ok intent =>
      match getObject intent "executionPolicy" with
      | none => .ok (.ok none)
      | some policy =>
        let maxExecutions := ((policy.get "maxExecutions").bind asInt).getD 0
        match P.parseIsoZ (strTrimmed P token "expireAt") with
        | none => .error "Intent token expiration is invalid"
        | some expireAtEpoch => .ok (.ok (some ⟨tokenId, maxExecutions, expireAtEpoch⟩))

/-- `consume_token_usage` over a store, at the clock value `now` the store
reads. -/
def consumeTokenUsage {σ : Type} (consume : σ → ConsumeCall → ConsumeResult × σ) (store : σ)
    (token : JsonDict) (now : Int) : Except String (Except String JsonDict) × σ :=
  match tokenAllowance P token with
  | .error e => (.error e, store)
  | .ok (.error reason) => (.ok (.error reason), store)
  | .ok (.ok none) => (.ok (.ok []), store)
  | .ok (.ok (some allowance)) =>
    match consume store
        ⟨allowance.tokenId, allowance.maxExecutions, allowance.expireAtEpoch, now⟩ with
    | (.error e, store) => (.error e, store)
    | (.ok (consumed, executionsUsed), store) =>
      if consumed then
        (.ok (.ok [("usage", .obj [("executionsUsed", .num (.ofI64 executionsUsed)),
          ("executionsLimit", .num (.ofI64 allowance.maxExecutions))])]), store)
      else (.ok (.error "Token execution usage exceeded"), store)

/-- An expectation that is neither missing nor null, as text. -/
def expectedText (expected : JsonDict) (key : String) : Option String :=
  match expected.get key with
  | none => none
  | some .null => none
  | some v => some (pyStr P v)

def tokenExpectation (request : JsonDict) : VerifyIntentToken :=
  let expected := objectOrEmpty request "expected"
  { action := strOrEmpty P expected "action"
    params := some (objectOrEmpty expected "params")
    expectedAgentId := expectedText P expected "agentId"
    expectedUserId := expectedText P expected "userId"
    expectedAgentKeyId := expectedText P expected "agentKeyId" }

/-- `verify_token`: the stateless check reads the clock at `now`, the usage
store at `nowStore`. -/
def verifyToken {σ : Type} (consume : σ → ConsumeCall → ConsumeResult × σ) (store : σ)
    (request : JsonDict) (now nowStore : Int) : TokenVerificationResponse × σ :=
  let token := objectOrEmpty request "token"
  match verifyIntentToken P token (tokenExpectation P request) now with
  | .error reason => (⟨false, some reason, some (errorCode P reason "TOKEN"), none⟩, store)
  | .ok () =>
    match consumeTokenUsage P consume store token nowStore with
    | (.error _, store) =>
      (⟨false, some "Intent token usage store unavailable", some "TOKEN_USAGE_STORE_ERROR",
        none⟩, store)
    | (.ok (.error reason), store) =>
      (⟨false, some reason, some "TOKEN_USAGE_EXCEEDED", none⟩, store)
    | (.ok (.ok usage), store) =>
      let expected := objectOrEmpty request "expected"
      let matchedScope : JsonDict :=
        [("action", fieldOr expected "action" .null),
          ("params", .obj (objectOrEmpty expected "params"))]
      (⟨true, none, none, some (usage.foldl (fun d e => JsonDict.insert d e.1 e.2) matchedScope)⟩,
        store)

end

end AgentProtocols.A4P
