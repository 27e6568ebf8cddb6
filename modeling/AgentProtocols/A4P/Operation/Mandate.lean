import AgentProtocols.A4P.Intent.Mandate

/-!
Operation mandates: creation, server signature and verification, which compares the operation with
the one the caller rebuilt.
-/

namespace AgentProtocols.A4P

open Json Lib

def operationServerSignAlgorithm : String := "EdDSA"

def operationMandateServerKeyId : String := "server#operation-mandate-k1"

section

variable (P : Platform)

/-! ### Display text -/

def operationCallText (operation : JsonDict) : String :=
  let action := ((operation.get "action").bind Json.asStr).getD ""
  let params := objectOrEmpty operation "params"
  if params.isEmpty then action ++ "(无参数)"
  else
    action ++ "(" ++ ", ".intercalate ((sortMembers params).map fun e =>
      e.1 ++ "=" ++ pythonJsonDumps P e.2) ++ ")"

def operationDisplayText (operation : JsonDict) (untilIso : String) : String :=
  "授权执行 " ++ operationCallText P operation ++ "（有效期至 " ++
    P.formatBeijingDisplayTime untilIso ++ "）"

/-! ### Creation and server signature -/

/-- `sign_server_mandate` for operation mandates. -/
def signOperationMandate (mandate : JsonDict) : Except A4PError JsonDict := do
  let signed ← normalizeOperationMandate P mandate
  let core ← operationMandateCorePayload P signed
  let key ← P.operationServerSigningKey
  .ok (withServerSignature signed (serverSignatureEntry operationServerSignAlgorithm
    operationMandateServerKeyId (ed25519SignText P (serverSignaturePayload P core) key)))

structure CreateOperationMandate where
  operation : JsonDict
  serverUrl : String
  agentId : String
  validitySeconds : Int
  agentPublicKey : Option JsonDict
  requireUserSignature : Bool
  userSignatureMethod : Option String
  userSignatureMethodPolicy : Option JsonDict
  displayTextRenderer : Option (JsonDict → String)

/-- `create_operation_mandate` at `now`, with the random bytes of the id. -/
def createOperationMandate (params : CreateOperationMandate) (now : Int) (random : Bytes) :
    Except A4PError JsonDict :=
  let signatureMethod := trim (params.userSignatureMethod.getD "")
  if params.requireUserSignature && signatureMethod == "" then
    .error (.value "userSignatureMethod missing")
  else do
    let untilIso := P.formatIsoZ (addI64 now params.validitySeconds)
    let operation ← normalizeOperationObject P params.operation
    let mandate : JsonDict :=
      [("type", .str operationMandateType),
        ("operationId", .str ("op_" ++ b64urlEncode random)),
        ("server", .str params.serverUrl),
        ("subject", .obj (mandateSubject "agent" params.agentId params.agentPublicKey)),
        ("operation", .obj operation),
        ("validTime", .obj [("until", .str untilIso),
          ("displayUntil", .str (P.formatBeijingDisplayTime untilIso)),
          ("timezone", .str "Asia/Shanghai")]),
        ("userAuthorization", .obj (userAuthorizationPolicy params.requireUserSignature
          signatureMethod params.userSignatureMethodPolicy)),
        ("displayText", .str (operationDisplayText P operation untilIso)),
        ("signatures", .obj [("server", .obj (serverSignatureEntry operationServerSignAlgorithm
          operationMandateServerKeyId "")), ("user", .obj [])])]
    let mandate := match params.displayTextRenderer with
      | some renderer => mandate.insert "displayText" (.str (renderer mandate))
      | none => mandate
    signOperationMandate P mandate

/-! ### Verification -/

structure VerifyOperationMandate where
  expected : Option JsonDict
  expectedUserId : Option String
  requireUserSignature : Bool
  userSignatureMethod : Option UserSignatureMethod

def memberEq (a b : Option Json) : Bool :=
  match a, b with
  | some a, some b => a.beq b
  | none, none => true
  | _, _ => false

/-- The comparison of the mandate's operation with the expected one. -/
def verifyExpectedOperation (normalized : JsonDict) (expected : Option JsonDict) :
    Except String Unit :=
  match normalizeOperationObject P (expected.getD []) with
  | .error e => .error e.text
  | .ok expectedOperation =>
    let operation := objectOrEmpty normalized "operation"
    if memberEq (operation.get "action") (expectedOperation.get "action") then
      if memberEq (operation.get "params") (expectedOperation.get "params") then .ok ()
      else .error "Operation params mismatch"
    else .error "Operation action mismatch"

/-- The validity window of an operation mandate at the clock value `now`. -/
def verifyOperationValidTime (normalized : JsonDict) (now : Int) : Except String Unit :=
  match truthyText P (objectOrEmpty normalized "validTime") "until" with
  | none => .error "Mandate has no validTime"
  | some untilStr =>
    match P.parseIsoZ untilStr with
    | none => .error "Mandate validTime format invalid"
    | some untilTs =>
      if now > untilTs then .error ("Mandate has expired (expired at " ++ untilStr ++ ")")
      else .ok ()

/-- `verify_operation_mandate_for_completion` at the clock value `now`. -/
def verifyOperationMandateForCompletion (mandate : JsonDict) (options : VerifyOperationMandate)
    (now : Int) : Except String Unit :=
  if (mandate.get "type").bind Json.asStr ≠ some operationMandateType then
    .error "Invalid mandate type"
  else
    match normalizeOperationMandate P mandate with
    | .error e => .error e.text
    | .ok normalized => do
      verifyExpectedOperation P normalized options.expected
      verifyServerSignature P normalized operationServerSignAlgorithm
        (operationMandateCorePayload P normalized) P.operationServerSigningKey
      let userSig := objectOrEmpty (objectOrEmpty normalized "signatures") "user"
      let context ← (operationUserSignatureContext P normalized options.expectedUserId).mapError
        A4PError.text
      verifyUserSignature P context userSig options.userSignatureMethod
        options.requireUserSignature
      verifyOperationValidTime P normalized now

variable {P}

theorem verifyOperationMandate_ok {mandate : JsonDict} {options : VerifyOperationMandate}
    {now : Int} (verified : verifyOperationMandateForCompletion P mandate options now = .ok ()) :
    ∃ normalized, normalizeOperationMandate P mandate = .ok normalized ∧
      ServerSigned P normalized (operationMandateCorePayload P normalized)
        P.operationServerSigningKey ∧
      UserSigned normalized (operationUserSignatureContext P normalized options.expectedUserId)
        options.expectedUserId options.userSignatureMethod options.requireUserSignature := by
  unfold verifyOperationMandateForCompletion at verified
  split at verified
  · cases verified
  · split at verified
    · cases verified
    · rename_i normalized found
      obtain ⟨_, _, _, server, context, built, _, user, _⟩ := bind₄_eq_ok.mp verified
      have built := mapError_eq_ok.mp built
      obtain ⟨renormalized, again, contextBuilt⟩ := bind_eq_ok.mp built
      exact ⟨normalized, found, verifyServerSignature_ok server,
        userSigned_of_verify built (userSignatureContext_expected contextBuilt) user⟩

theorem signOperationMandate_normal {mandate d : JsonDict}
    (signed : signOperationMandate P mandate = .ok d) : NormalOperationMandate P d := by
  obtain ⟨normalized, found, core, _, key, _, eq⟩ := bind₃_eq_ok.mp signed
  cases eq
  exact (normalizeOperationMandate_ok found).1.withServerSignature (by decide) _

theorem createOperationMandate_normal {params : CreateOperationMandate} {now : Int} {random : Bytes}
    {d : JsonDict} (created : createOperationMandate P params now random = .ok d) :
    NormalOperationMandate P d := by
  unfold createOperationMandate at created
  extract_lets signatureMethod at created
  split at created
  · cases created
  · obtain ⟨operation, _, created⟩ := bind_eq_ok.mp created
    exact signOperationMandate_normal created

end

end AgentProtocols.A4P
