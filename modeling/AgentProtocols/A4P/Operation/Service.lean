import AgentProtocols.A4P.Intent.Service
import AgentProtocols.A4P.Operation.Mandate

/-!
The operation authorization service. `prepare` and `complete` take the lock twice, first to drop
expired entries (`pruneExpired`); the functions named after them are the second sections.
-/

namespace AgentProtocols.A4P

open Json Lib

structure PendingOperation where
  request : JsonDict
  operation : JsonDict
  mandate : JsonDict
  expireAtEpoch : Int

structure OperationAuthorizationService where
  serverId : String
  displayTextRenderer : Option (JsonDict → String)
  requireUserSignature : Bool

structure OperationAuthorizationChallenge where
  mandate : Option JsonDict := none
  signingOptions : JsonDict := []
  rejectReason : Option String := none
  verificationResult : Option VerificationResult := none

structure OperationAuthorizationResult where
  operationId : Option String := none
  approved : Bool := false
  verificationResult : Option VerificationResult := none
  rejectReason : Option String := none

abbrev PendingOperations := OrderedMap String PendingOperation

def rejectedOperation (reason code : String) : OperationAuthorizationResult where
  rejectReason := some reason
  verificationResult := some (.fail reason code)

/-- The challenge of a prepare request that is refused. -/
def refusedChallenge (reason code : String) : OperationAuthorizationChallenge where
  rejectReason := some reason
  verificationResult := some (.fail reason code)

/-- `prune_expired` at the clock value `now`. -/
def pruneExpired (pending : PendingOperations) (now : Int) : PendingOperations :=
  pending.retain fun _ entry => decide (entry.expireAtEpoch > now)

namespace OperationAuthorizationService

variable (P : Platform) (S : OperationAuthorizationService)

/-! ### Prepare -/

/-- `prepare_inner`: the id, the operation, the signed mandate and the signing options. -/
def prepareInner (request : JsonDict) (method : Option UserSignatureMethod) (now : Int)
    (random : Bytes) : Except A4PError (String × JsonDict × JsonDict × JsonDict) := do
  let agentId ← requiredField P request "agentId"
  let userId ← requiredField P request "userId"
  let validity ← validitySeconds request 300
  let operation ← normalizeOperation P (request.get "operation")
  let mandate ← createOperationMandate P
    { operation := operation
      serverUrl := requestServer P request S.serverId
      agentId := agentId
      validitySeconds := validity
      agentPublicKey := getObject request "agentPublicKey"
      requireUserSignature := S.requireUserSignature
      userSignatureMethod := method.map UserSignatureMethod.signatureMethod
      userSignatureMethodPolicy := method.map UserSignatureMethod.methodPolicy
      displayTextRenderer := S.displayTextRenderer } now random
  let operationId ← mandateIdentifier P mandate
  let signingOptions ← signingOptionsFor S.requireUserSignature method userId mandate
  .ok (operationId, operation, mandate, signingOptions)

/-- When a prepared operation expires. -/
def pendingExpiry (mandate : JsonDict) : Int :=
  let untilIso := ((getObject mandate "validTime").map fun validTime =>
    strOrEmpty P validTime "until").getD ""
  (P.parseIsoZ untilIso).getD 0

/-- `prepare` after its prune. -/
def prepare (pending : PendingOperations) (request : JsonDict)
    (method : Option UserSignatureMethod) (now : Int) (random : Bytes) :
    Except A4PError OperationAuthorizationChallenge × PendingOperations :=
  match S.prepareInner P request method now random with
  | .ok (operationId, operation, mandate, signingOptions) =>
    (.ok { mandate := some mandate, signingOptions },
      pending.insert operationId ⟨request, operation, mandate, pendingExpiry P mandate⟩)
  | .error e =>
    match e with
    | .protocol error =>
      if error.isUserCredentialNotRegistered then
        (.ok (refusedChallenge error.message error.code), pending)
      else (.ok (refusedChallenge e.text "MANDATE_INVALID"), pending)
    | e =>
      if e.isValueError then (.ok (refusedChallenge e.text "MANDATE_INVALID"), pending)
      else (.error e, pending)

/-! ### Complete -/

/-- The checks of `complete` under the lock, for the pending entry found. -/
def checkCompletion (entry : PendingOperation) (request signedMandate : JsonDict)
    (method : Option UserSignatureMethod) (now : Int) :
    Except OperationAuthorizationResult Unit :=
  match normalizeOperation P (request.get "operation") with
  | .error e => .error (rejectedOperation e.text "OPERATION_INVALID")
  | .ok currentOperation =>
    if !(Json.obj currentOperation).beq (.obj entry.operation) then
      .error (rejectedOperation
        "Current operation does not match pending operation authorization"
        "OPERATION_PENDING_MISMATCH")
    else if !mandateMatchesPending signedMandate entry.mandate (normalizeOperationMandate P) then
      .error (rejectedOperation
        "Signed mandate does not match pending operation authorization"
        "MANDATE_PENDING_MISMATCH")
    else
      match normalizeOperation P (signedMandate.get "operation") with
      | .error e => .error (rejectedOperation e.text "MANDATE_INVALID")
      | .ok signedOperation =>
        if !(Json.obj signedOperation).beq (.obj currentOperation) then
          .error (rejectedOperation
            "Signed mandate operation does not match current operation"
            "OPERATION_MANDATE_MISMATCH")
        else
          match verifyOperationMandateForCompletion P signedMandate
              { expected := some currentOperation
                expectedUserId := some (strOrEmpty P entry.request "userId")
                requireUserSignature := S.requireUserSignature
                userSignatureMethod := method } now with
          | .ok () => .ok ()
          | .error reason =>
            .error (rejectedOperation reason (errorCode P reason "MANDATE"))

/-- `complete` after its prune. -/
def complete (pending : PendingOperations) (request : JsonDict)
    (method : Option UserSignatureMethod) (now : Int) :
    OperationAuthorizationResult × PendingOperations :=
  match getObject request "signedMandate" with
  | none => (rejectedOperation "signedMandate missing" "MANDATE_INVALID", pending)
  | some signedMandate =>
    match mandateIdentifier P signedMandate with
    | .error e => (rejectedOperation e.text "MANDATE_INVALID", pending)
    | .ok operationId =>
      match pending.get? operationId with
      | none =>
        ({ rejectReason := some ("No pending operation authorization: " ++ operationId)
           verificationResult := some (.fail "No pending operation authorization"
             "AUTHORIZATION_NOT_PENDING") }, pending)
      | some entry =>
        match S.checkCompletion P entry request signedMandate method now with
        | .error result => (result, pending)
        | .ok () =>
          ({ operationId := some operationId
             approved := true
             verificationResult := some (.ok none) }, pending.erase operationId)

end OperationAuthorizationService

end AgentProtocols.A4P
