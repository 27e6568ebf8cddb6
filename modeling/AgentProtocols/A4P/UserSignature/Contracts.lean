import AgentProtocols.A4P.MandateSecurity

/-!
The contract between the authorization services and a user-signature method. `UserSignatureMethod`
is a method as it stands at one moment.
-/

namespace AgentProtocols.A4P

open Json

/-- The server-signed mandate a user signs, and the user it was prepared for. -/
structure UserSignatureContext where
  mandateType : String
  /-- The mandate core with `signatures.server` and no `signatures.user`. -/
  serverSignedMandate : JsonDict
  signatureMethod : String
  expectedUserId : Option String

structure UserSignatureMethod where
  signatureMethod : String
  methodPolicy : JsonDict
  signingOptions : String → JsonDict → Except A4PError JsonDict
  verify : UserSignatureContext → JsonDict → Except String Unit

section

variable (P : Platform)

/-- The signature context of a normalised mandate of the given type. -/
def userSignatureContext (mandateType : String) (normalized : JsonDict)
    (expectedUserId : Option String) : Except A4PError UserSignatureContext :=
  let userAuthorization := objectOrEmpty normalized "userAuthorization"
  match userAuthorization.get "required" with
  | some (.bool required) =>
    let signatureMethod := strTrimmed P userAuthorization "signatureMethod"
    if required && signatureMethod == "" then
      .error (.value "userAuthorization.signatureMethod missing")
    else do
      let signed ← serverSignedMandateWithoutUserSignature P normalized
      .ok ⟨mandateType, signed, signatureMethod, expectedUserId⟩
  | _ => .error (.value "userAuthorization.required missing")

def intentUserSignatureContext (mandate : JsonDict) (expectedUserId : Option String) :
    Except A4PError UserSignatureContext := do
  let normalized ← normalizeIntentMandate P mandate
  userSignatureContext P intentMandateType normalized expectedUserId

def operationUserSignatureContext (mandate : JsonDict) (expectedUserId : Option String) :
    Except A4PError UserSignatureContext := do
  let normalized ← normalizeOperationMandate P mandate
  userSignatureContext P operationMandateType normalized expectedUserId

def verifyUserSignature (context : UserSignatureContext) (signature : JsonDict)
    (method : Option UserSignatureMethod) (requireUserSignature : Bool) : Except String Unit :=
  if !requireUserSignature then
    if signature.isEmpty then .ok () else .error "User signature must be empty"
  else
    match method with
    | none => .error "User signature method missing"
    | some method =>
      let signatureMethod := strTrimmed P signature "signatureMethod"
      if signatureMethod = "" then .error "User signature missing"
      else if signatureMethod ≠ context.signatureMethod then
        .error ("User signature method mismatch: mandate requires '" ++
          context.signatureMethod ++ "', got '" ++ signatureMethod ++ "'")
      else if method.signatureMethod ≠ context.signatureMethod then
        .error ("Configured user signature method mismatch: mandate requires '" ++
          context.signatureMethod ++ "', configured method is '" ++
          method.signatureMethod ++ "'")
      else method.verify context signature

theorem verifyUserSignature_ok {context : UserSignatureContext} {signature : JsonDict}
    {method : Option UserSignatureMethod} {required : Bool}
    (accepted : verifyUserSignature P context signature method required = .ok ()) :
    if required then ∃ m, method = some m ∧ m.signatureMethod = context.signatureMethod ∧
      m.verify context signature = .ok ()
    else signature = [] := by
  unfold verifyUserSignature at accepted
  cases required with
  | false =>
    simp only [Bool.not_false, if_true] at accepted
    split at accepted
    · rename_i empty
      simpa using List.isEmpty_iff.mp empty
    · cases accepted
  | true =>
    simp only [Bool.not_true, Bool.false_eq_true, if_false] at accepted
    cases method with
    | none => cases accepted
    | some m =>
      simp only at accepted
      split_ifs at accepted with missing mismatch configured
      exact ⟨m, rfl, by simpa using configured, accepted⟩

end

end AgentProtocols.A4P
