import AgentProtocols.A4P.AuthorizationCommon
import AgentProtocols.A4P.Intent.Mandate
import AgentProtocols.A4P.UserSignature.Ed25519

/-!
The user's side of an authorization. `signUserMandateWithSigner` signs a mandate and attaches the
signature, which changes nothing that was signed (`NormalMandate.context_attach`,
`mandateMatchesPending_attach`, `verifyUserSignature_sign`).
-/

namespace AgentProtocols.A4P

open Json Lib JsonDict

def attachUserSignature (mandate signature : JsonDict) : JsonDict :=
  mandate.insert "signatures"
    (.obj (JsonDict.insert (objectOrEmpty mandate "signatures") "user" (.obj signature)))

/-- `A4PUserSigner`. -/
structure UserSigner where
  signatureMethod : String
  sign : UserSignatureContext → Except A4PError JsonDict

def signUserSignature (context : UserSignatureContext) (userSigner : UserSigner) :
    Except A4PError JsonDict :=
  if userSigner.signatureMethod ≠ context.signatureMethod then
    .error (.value ("User signer method mismatch: mandate requires '" ++
      context.signatureMethod ++ "', got '" ++ userSigner.signatureMethod ++ "'"))
  else do
    let signature ← userSigner.sign context
    if (signature.get "signatureMethod").bind Json.asStr ≠ some context.signatureMethod then
      .error (.value "User signer returned a mismatched signatureMethod")
    else .ok signature

section

variable (P : Platform)

def signUserMandateWithSigner (mandate : JsonDict) (userSigner : UserSigner) :
    Except A4PError JsonDict :=
  let type := (mandate.get "type").bind Json.asStr
  if type = some intentMandateType then do
    let normalized ← normalizeIntentMandate P mandate
    let context ← intentUserSignatureContext P normalized none
    let signature ← signUserSignature context userSigner
    .ok (attachUserSignature normalized signature)
  else if type = some operationMandateType then do
    let normalized ← normalizeOperationMandate P mandate
    let context ← operationUserSignatureContext P normalized none
    let signature ← signUserSignature context userSigner
    .ok (attachUserSignature normalized signature)
  else
    .error (.value ("Unsupported A4P mandate type: " ++ pythonRepr P (mandate.get "type")))

/-- The signer as a user authorizer sees it. -/
def Ed25519UserSigner.toUserSigner (signer : Ed25519UserSigner) : UserSigner where
  signatureMethod := ed25519SignatureMethod
  sign := signer.sign P

variable {P}

/-! ### Attached signatures -/

section

variable {type bodyKey : String} {Normal : JsonDict → Prop} {d : JsonDict}

theorem NormalMandate.attach_eq (normal : NormalMandate type bodyKey Normal d)
    (signature : JsonDict) :
    attachUserSignature d signature = d.insert "signatures"
      (.obj [("server", .obj (signatureOf d "server")), ("user", .obj signature)]) := by
  obtain ⟨server, user, signatures⟩ := normal.signatures
  rw [attachUserSignature, signatureOf, objectOrEmpty_of_get signatures]
  rfl

theorem get_attachUserSignature {key : String} (other : key ≠ "signatures") (signature : JsonDict) :
    (attachUserSignature d signature).get key = d.get key :=
  get_insert_of_ne _ other

variable (normal : NormalMandate type bodyKey Normal d)

include normal

theorem NormalMandate.attach (other : bodyKey ≠ "signatures") (signature : JsonDict) :
    NormalMandate type bodyKey Normal (attachUserSignature d signature) where
  type := (get_attachUserSignature (by decide) signature).trans normal.type
  body := by
    obtain ⟨body, found, fixed⟩ := normal.body
    exact ⟨body, (get_attachUserSignature other signature).trans found, fixed⟩
  signatures := ⟨signatureOf d "server", signature, by
    rw [normal.attach_eq, get_insert_self]⟩
  userAuthorization := by
    obtain ⟨policy, found⟩ := normal.userAuthorization
    exact ⟨policy, (get_attachUserSignature (by decide) signature).trans found⟩

theorem NormalMandate.signatureOf_attach (signature : JsonDict) :
    signatureOf (attachUserSignature d signature) "server" = signatureOf d "server" ∧
      signatureOf (attachUserSignature d signature) "user" = signature := by
  have signatures := @get_insert_self d "signatures"
    (.obj [("server", .obj (signatureOf d "server")), ("user", .obj signature)])
  rw [← normal.attach_eq] at signatures
  constructor
  · rw [signatureOf, objectOrEmpty_of_get signatures]
    rfl
  · rw [signatureOf, objectOrEmpty_of_get signatures]
    rfl

theorem NormalMandate.clear_attach (signature : JsonDict) :
    clearUserSignature (attachUserSignature d signature) = clearUserSignature d := by
  obtain ⟨server, user, signatures⟩ := normal.signatures
  have same : signatureOf d "server" = server := by
    rw [signatureOf, objectOrEmpty_of_get signatures]
    rfl
  rw [normal.attach_eq, clearUserSignature, get_insert_self, clearUserSignature, signatures, same]
  exact JsonDict.insert_insert _ _ _ _

omit normal

theorem wellFormed_clearUserSignature (wf : d.WellFormed) : (clearUserSignature d).WellFormed := by
  have empty : (Json.obj []).WellFormed := wellFormed_nil
  unfold clearUserSignature
  split
  · exact wf.insert _ (wellFormed_obj.mpr (by simp [empty]))
  · rename_i signatures found
    exact wf.insert _ (JsonDict.WellFormed.insert (wf.of_get found) _ empty)
  · exact wf

/-- A signed mandate matches the pending one. -/
theorem mandateMatchesPending_attach {normalize : JsonDict → Except A4PError JsonDict}
    (normal : NormalMandate type bodyKey Normal d) (wf : d.WellFormed) {signature : JsonDict}
    (fixed : normalize d = .ok d)
    (attachedFixed : normalize (attachUserSignature d signature) =
      .ok (attachUserSignature d signature)) :
    mandateMatchesPending (attachUserSignature d signature) d normalize = true := by
  rw [mandateMatchesPending, fixed, attachedFixed]
  dsimp only
  rw [normal.clear_attach]
  exact Json.beq_refl (wellFormed_clearUserSignature wf)

end

/-! ### What is signed -/

section

variable {d d' : JsonDict}

theorem intentMandateCorePayload_congr (normal : NormalIntentMandate P d)
    (normal' : NormalIntentMandate P d')
    (same : ∀ key, key ≠ "signatures" → d'.get key = d.get key) :
    intentMandateCorePayload P d' = intentMandateCorePayload P d := by
  rw [intentMandateCorePayload, intentMandateCorePayload, normal.fixed, normal'.fixed]
  have field : ∀ key default, key ≠ "signatures" → fieldOr d' key default = fieldOr d key default :=
    fun key default other => by rw [fieldOr, fieldOr, same key other]
  refine congrArg Except.ok ?_
  rw [field "type" _ (by decide), field "mandateId" _ (by decide), field "server" _ (by decide),
    field "subject" _ (by decide), field "intent" _ (by decide), field "validTime" _ (by decide),
    field "userAuthorization" _ (by decide), field "displayText" _ (by decide)]

theorem operationMandateCorePayload_congr (normal : NormalOperationMandate P d)
    (normal' : NormalOperationMandate P d')
    (same : ∀ key, key ≠ "signatures" → d'.get key = d.get key) :
    operationMandateCorePayload P d' = operationMandateCorePayload P d := by
  rw [operationMandateCorePayload, operationMandateCorePayload, normal.fixed, normal'.fixed]
  have field : ∀ key default, key ≠ "signatures" → fieldOr d' key default = fieldOr d key default :=
    fun key default other => by rw [fieldOr, fieldOr, same key other]
  refine congrArg Except.ok ?_
  rw [field "type" _ (by decide), field "operationId" _ (by decide), field "server" _ (by decide),
    field "subject" _ (by decide), field "operation" _ (by decide), field "validTime" _ (by decide),
    field "userAuthorization" _ (by decide), field "displayText" _ (by decide)]

end

section

variable {type bodyKey : String} {Normal : JsonDict → Prop} {d : JsonDict}

theorem NormalMandate.serverSigned_attach (normal : NormalMandate type bodyKey Normal d)
    {signature : JsonDict}
    (core : mandateCorePayload P (attachUserSignature d signature) = mandateCorePayload P d) :
    serverSignedMandateWithoutUserSignature P (attachUserSignature d signature) =
      serverSignedMandateWithoutUserSignature P d := by
  obtain ⟨server, user, signatures⟩ := normal.signatures
  have same : signatureOf d "server" = server := by
    rw [signatureOf, objectOrEmpty_of_get signatures]
    rfl
  have before : (getObject d "signatures").bind (fun s => getObject s "server") = some server := by
    rw [getObject, signatures]
    rfl
  have after : (getObject (attachUserSignature d signature) "signatures").bind
      (fun s => getObject s "server") = some server := by
    rw [normal.attach_eq, same, getObject, get_insert_self]
    rfl
  rw [serverSignedMandateWithoutUserSignature, serverSignedMandateWithoutUserSignature, core,
    before, after]

/-- The context of a signed mandate is that of the unsigned one. -/
theorem NormalMandate.context_attach (normal : NormalMandate type bodyKey Normal d)
    {signature : JsonDict}
    (core : mandateCorePayload P (attachUserSignature d signature) = mandateCorePayload P d)
    {mandateType : String} {context : UserSignatureContext}
    (built : userSignatureContext P mandateType d none = .ok context) (expected : Option String) :
    userSignatureContext P mandateType (attachUserSignature d signature) expected =
      .ok { context with expectedUserId := expected } := by
  have authorization : objectOrEmpty (attachUserSignature d signature) "userAuthorization" =
      objectOrEmpty d "userAuthorization" := by
    rw [objectOrEmpty, objectOrEmpty, getObject, getObject, get_attachUserSignature (by decide)]
  unfold userSignatureContext at built ⊢
  rw [authorization, normal.serverSigned_attach core]
  extract_lets at built ⊢
  split at built
  · split at built
    · cases built
    · rename_i given
      obtain ⟨signed, isSigned, eq⟩ := bind_eq_ok.mp built
      cases eq
      rw [if_neg given, isSigned]
      rfl
  · cases built

end

theorem signUserSignature_ok {context : UserSignatureContext} {signer : UserSigner}
    {signature : JsonDict} (signed : signUserSignature context signer = .ok signature) :
    signer.signatureMethod = context.signatureMethod ∧ signer.sign context = .ok signature := by
  unfold signUserSignature at signed
  split at signed
  · cases signed
  · rename_i method
    obtain ⟨made, isMade, signed⟩ := bind_eq_ok.mp signed
    split at signed
    · cases signed
    · cases signed
      exact ⟨not_not.mp method, isMade⟩

/-- The signature of the owner of a credential is accepted exactly for the user of
the credential. -/
theorem verifyUserSignature_sign (sound : Ed25519Sound P) {store : InMemoryCredentialStore}
    {signer : Ed25519UserSigner} {record : UserCredentialRecord}
    (found : store.get signer.credentialId = some record) (owns : signer.Owns P record)
    {context : UserSignatureContext} {signature : JsonDict}
    (signed : signUserSignature context (signer.toUserSigner P) = .ok signature) (userId : String) :
    verifyUserSignature P { context with expectedUserId := some userId } signature
        (some (registeredEd25519Method P store)) true = .ok () ↔
      record.userId = userId := by
  obtain ⟨method, made⟩ := signUserSignature_ok signed
  have named : strTrimmed P signature "signatureMethod" = ed25519SignatureMethod := by
    obtain ⟨payload, -, eq⟩ := bind_eq_ok.mp made
    cases eq
    rw [strTrimmed_str P (s := ed25519SignatureMethod) rfl]
    rfl
  have configured : (registeredEd25519Method P store).signatureMethod = ed25519SignatureMethod := rfl
  generalize eq : { context with expectedUserId := some userId } = asked
  have same : asked.serverSignedMandate = context.serverSignedMandate := by rw [← eq]
  have expected : asked.expectedUserId = some userId := by rw [← eq]
  have asks : asked.signatureMethod = ed25519SignatureMethod := by
    rw [← eq]
    exact method.symm
  rw [verifyUserSignature, if_neg (by decide)]
  dsimp only
  rw [named, asks, if_neg (by decide), if_neg (not_not.mpr rfl), if_neg (not_not.mpr configured)]
  exact ed25519Verify_sign sound found owns made same expected

end

end AgentProtocols.A4P
