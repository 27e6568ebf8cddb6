import AgentProtocols.A4P.Intent.Service
import AgentProtocols.A4P.Operation.Mandate
import AgentProtocols.A4P.SigningInput
import AgentProtocols.A4P.UserAuthorizer

/-!
Mandates with the signatures of the server (`ServerSignedMandate`, `verifyServerSignature_signed`)
and of a user (`SignedByUser`), and their windows: `Calendar` is what the calendar library promises,
and a wrapped end is one it does not hold (`Calendar.formatIsoZ_addI64`).
-/

namespace AgentProtocols.A4P

open Json Lib JsonDict

/-! ### The server signature -/

section

variable {P : Platform}

/-- A mandate that the server has signed over its core, for a user authorization
policy. -/
structure ServerSignedMandate (P : Platform) (core : Except A4PError JsonDict)
    (signingKey : Except A4PError Bytes) (algorithm keyId : String) (policy d : JsonDict) :
    Prop where
  signature : ∃ payload key, core = .ok payload ∧ signingKey = .ok key ∧
    signatureOf d "server" = serverSignatureEntry algorithm keyId
      (ed25519SignText P (serverSignaturePayload P payload) key)
  userAuthorization : d.get "userAuthorization" = some (.obj policy)

theorem withServerSignature_of_normal {type bodyKey : String} {Normal : JsonDict → Prop}
    {d : JsonDict} (normal : NormalMandate type bodyKey Normal d) (entry : JsonDict) :
    (∀ key, key ≠ "signatures" → (withServerSignature d entry).get key = d.get key) ∧
      signatureOf (withServerSignature d entry) "server" = entry := by
  obtain ⟨server, user, signatures⟩ := normal.signatures
  have eq : withServerSignature d entry =
      d.insert "signatures" (.obj [("server", .obj entry), ("user", .obj user)]) := by
    rw [withServerSignature, signatures]
    rfl
  rw [eq]
  refine ⟨fun key other => get_insert_of_ne _ other, ?_⟩
  have inserted := @get_insert_self d "signatures"
    (.obj [("server", .obj entry), ("user", .obj user)])
  rw [signatureOf, objectOrEmpty_of_get inserted]
  rfl

/-- The signature of the server verifies over the core that was signed. -/
theorem verifyServerSignature_signed (sound : Ed25519Sound P) {core : Except A4PError JsonDict}
    {signingKey : Except A4PError Bytes} {algorithm keyId : String} {policy d d' : JsonDict}
    (signed : ServerSignedMandate P core signingKey algorithm keyId policy d)
    (trimmed : trim algorithm = algorithm)
    (same : signatureOf d' "server" = signatureOf d "server") :
    verifyServerSignature P d' algorithm core signingKey = .ok () := by
  obtain ⟨payload, key, rfl, rfl, entry⟩ := signed.signature
  have server : objectOrEmpty (objectOrEmpty d' "signatures") "server" =
      serverSignatureEntry algorithm keyId
        (ed25519SignText P (serverSignaturePayload P payload) key) := same.trans entry
  have alg : strTrimmed P (serverSignatureEntry algorithm keyId
      (ed25519SignText P (serverSignaturePayload P payload) key)) "alg" = algorithm := by
    rw [strTrimmed_str P (s := algorithm) rfl, trimmed]
  have text : strTrimmed P (serverSignatureEntry algorithm keyId
      (ed25519SignText P (serverSignaturePayload P payload) key)) "signature" =
        ed25519SignText P (serverSignaturePayload P payload) key := by
    rw [strTrimmed_str P (s := ed25519SignText P (serverSignaturePayload P payload) key) rfl,
      trim_ed25519SignText]
  dsimp only [verifyServerSignature]
  rw [server, alg, text, if_neg (not_not.mpr rfl), if_neg (sound.signText_ne_empty _ _)]
  exact if_pos (sound.verifyText_signText _ _)

/-! ### Well-formed mandates -/

theorem wellFormed_serverSignatureEntry (algorithm keyId signature : String) :
    (Json.obj (serverSignatureEntry algorithm keyId signature)).WellFormed := by
  apply wellFormed_obj.mpr
  simp [serverSignatureEntry]

theorem wellFormed_signatureContainers (algorithm keyId : String) :
    (Json.obj [("server", .obj (serverSignatureEntry algorithm keyId "")),
      ("user", .obj [])]).WellFormed := by
  have empty : (Json.obj []).WellFormed := wellFormed_nil
  apply wellFormed_obj.mpr
  simp only [List.map_cons, List.map_nil, List.forall_mem_cons, List.not_mem_nil,
    IsEmpty.forall_iff, implies_true, and_true]
  exact ⟨by decide, wellFormed_serverSignatureEntry _ _ _, empty⟩

theorem wellFormed_withServerSignature {d entry : JsonDict} (wf : d.WellFormed)
    (wfEntry : (Json.obj entry).WellFormed) : (withServerSignature d entry).WellFormed := by
  unfold withServerSignature
  split
  · rename_i signatures found
    exact wf.insert _ (JsonDict.WellFormed.insert (wf.of_get found) _ wfEntry)
  · exact wf

theorem wellFormed_mandateSubject (subjectType agentId : String) {agentPublicKey : Option JsonDict}
    (wf : ∀ key, agentPublicKey = some key → (Json.obj key).WellFormed) :
    (Json.obj (mandateSubject subjectType agentId agentPublicKey)).WellFormed := by
  have subject : JsonDict.WellFormed
      [("type", .str subjectType), ("id", .str (subjectType ++ ":" ++ agentId))] := by
    apply wellFormed_obj.mpr
    simp
  unfold mandateSubject
  extract_lets subjectFields
  cases agentPublicKey with
  | none => exact subject
  | some key => exact subject.insert _ (wf key rfl)

theorem wellFormed_userAuthorizationPolicy (required : Bool) (method : String)
    {methodPolicy : Option JsonDict}
    (wf : ∀ policy, methodPolicy = some policy → (Json.obj policy).WellFormed) :
    (Json.obj (userAuthorizationPolicy required method methodPolicy)).WellFormed := by
  have policy : (Json.obj (methodPolicy.getD [])).WellFormed := by
    cases methodPolicy with
    | none => exact wellFormed_nil
    | some policy => exact wf policy rfl
  unfold userAuthorizationPolicy
  split
  · apply wellFormed_obj.mpr
    simp only [List.map_cons, List.map_nil, List.forall_mem_cons, List.not_mem_nil,
      IsEmpty.forall_iff, implies_true, and_true]
    exact ⟨by decide, wellFormed_bool _, wellFormed_str _, policy⟩
  · apply wellFormed_obj.mpr
    simp

theorem get_rendered {mandate : JsonDict} (renderer : Option (JsonDict → String)) {key : String}
    (other : key ≠ "displayText") :
    (match renderer with
      | some renderer => mandate.insert "displayText" (.str (renderer mandate))
      | none => mandate).get key = mandate.get key := by
  cases renderer with
  | none => rfl
  | some renderer => exact get_insert_of_ne _ other

theorem wellFormed_rendered {mandate : JsonDict} (wf : mandate.WellFormed)
    (renderer : Option (JsonDict → String)) :
    JsonDict.WellFormed (match renderer with
      | some renderer => mandate.insert "displayText" (.str (renderer mandate))
      | none => mandate) := by
  cases renderer with
  | none => exact wf
  | some renderer => exact wf.insert _ (wellFormed_str _)

/-! ### The user signature -/

def allowedCredentialIds (options : JsonDict) : List String :=
  match (objectOrEmpty options "methodOptions").get "allowedCredentialIds" with
  | some (.arr ids) => ids.filterMap Json.asStr
  | _ => []

theorem get_of_allowed {store : InMemoryCredentialStore} {userId id : String} {options : JsonDict}
    (listed : ed25519SigningOptions store userId = .ok options)
    (allowed : id ∈ allowedCredentialIds options) :
    ∃ record, store.get id = some record ∧ record.userId = userId ∧
      record.signatureMethod = ed25519SignatureMethod := by
  rw [ed25519SigningOptions_ok listed] at allowed
  obtain ⟨value, mem, isText⟩ := List.mem_filterMap.mp allowed
  obtain ⟨record, ofMethod, rfl⟩ := List.mem_map.mp mem
  obtain ⟨ofUser, method⟩ := List.mem_filter.mp ofMethod
  obtain ⟨stored, user⟩ := List.mem_filter.mp ofUser
  refine ⟨record, ?_, by simpa using user, by simpa using method⟩
  exact InMemoryCredentialStore.get_eq_some_iff.mpr ⟨stored, Option.some.inj isText⟩

theorem signingOptionsFor_allowed {required : Bool} {store : InMemoryCredentialStore}
    {userId id : String} {mandate options : JsonDict}
    (made : signingOptionsFor required (some (registeredEd25519Method P store)) userId mandate =
      .ok options)
    (allowed : id ∈ allowedCredentialIds options) :
    required = true ∧ ∃ record, store.get id = some record ∧ record.userId = userId ∧
      record.signatureMethod = ed25519SignatureMethod := by
  cases required with
  | false =>
    cases made
    cases allowed
  | true => exact ⟨rfl, get_of_allowed made allowed⟩

/-- The mandate with the signature that a signer makes for it. -/
def SignedByUser (P : Platform) (mandateType : String) (mandate : JsonDict) (signer : UserSigner)
    (signedMandate : JsonDict) : Prop :=
  ∃ context signature, userSignatureContext P mandateType mandate none = .ok context ∧
    signUserSignature context signer = .ok signature ∧
    signedMandate = attachUserSignature mandate signature

theorem signUserMandate_intent {mandate signedMandate : JsonDict} {signer : UserSigner}
    (normal : NormalIntentMandate P mandate)
    (signed : signUserMandateWithSigner P mandate signer = .ok signedMandate) :
    SignedByUser P intentMandateType mandate signer signedMandate := by
  unfold signUserMandateWithSigner at signed
  rw [normal.typeText] at signed
  rw [normal.fixed] at signed
  obtain ⟨_, eq, signed⟩ := bind_eq_ok.mp signed
  cases eq
  obtain ⟨context, built, signature, made, eq⟩ := bind₂_eq_ok.mp signed
  cases eq
  rw [intentUserSignatureContext, normal.fixed] at built
  exact ⟨context, signature, built, made, rfl⟩

theorem signUserMandate_operation {mandate signedMandate : JsonDict} {signer : UserSigner}
    (normal : NormalOperationMandate P mandate)
    (signed : signUserMandateWithSigner P mandate signer = .ok signedMandate) :
    SignedByUser P operationMandateType mandate signer signedMandate := by
  have other : some operationMandateType ≠ some intentMandateType := by decide
  unfold signUserMandateWithSigner at signed
  rw [normal.typeText] at signed
  rw [normal.fixed] at signed
  obtain ⟨_, eq, signed⟩ := bind_eq_ok.mp signed
  cases eq
  obtain ⟨context, built, signature, made, eq⟩ := bind₂_eq_ok.mp signed
  cases eq
  rw [operationUserSignatureContext, normal.fixed] at built
  exact ⟨context, signature, built, made, rfl⟩

/-! ### Windows -/

/-- What the calendar library promises: a written time is read back and lies far within an `i64`. -/
structure Calendar (P : Platform) : Prop where
  blank : ∀ text, trim text = "" → P.parseIsoZ text = none
  round : ∀ time, P.formatIsoZ time ≠ "" → P.parseIsoZ (P.formatIsoZ time) = some time
  range : ∀ time, P.formatIsoZ time ≠ "" → -2 ^ 62 < time ∧ time < 2 ^ 62

/-- The end of a window is written as if times did not wrap. -/
theorem Calendar.formatIsoZ_addI64 (calendar : Calendar P) {now validity : Int}
    (held : P.formatIsoZ now ≠ "") (positive : 0 < validity) (bound : validity < 2 ^ 63) :
    P.formatIsoZ (addI64 now validity) = P.formatIsoZ (now + validity) := by
  obtain ⟨lower, upper⟩ := calendar.range now held
  by_cases fits : now + validity < 2 ^ 63
  · rw [addI64, Int.bmod_eq_of_le (by omega) (by omega)]
  · have wrapped : addI64 now validity = now + validity - 2 ^ 64 := by
      rw [addI64, ← Int.sub_bmod_right]
      exact Int.bmod_eq_of_le (by omega) (by omega)
    have below : P.formatIsoZ (addI64 now validity) = "" := by
      by_contra written
      have := (calendar.range _ written).1
      omega
    have above : P.formatIsoZ (now + validity) = "" := by
      by_contra written
      have := (calendar.range _ written).2
      omega
    rw [below, above]

theorem truthyText_str {d : JsonDict} {key text : String} (found : d.get key = some (.str text)) :
    truthyText P d key = if text = "" then none else some text := by
  rw [truthyText, found, Option.filter_some]
  by_cases empty : text = ""
  · simp [isTruthy, empty]
  · simp [isTruthy, empty, pyStr]

theorem validitySeconds_ok {request : JsonDict} {default validity : Int} (positive : 0 < default)
    (bound : default < 2 ^ 63) (given : validitySeconds request default = .ok validity) :
    0 < validity ∧ validity < 2 ^ 63 := by
  unfold validitySeconds at given
  split at given
  · cases given
    exact ⟨positive, bound⟩
  · cases given
    exact ⟨positive, bound⟩
  · rename_i value _ _
    split at given
    · rename_i number isNumber
      split at given
      · rename_i positive
        cases given
        cases value with
        | num n => exact ⟨positive, (Number.asI64_range isNumber).2⟩
        | _ => cases isNumber
      · cases given
    · cases given

theorem mandateIdentifier_attach (mandate signature : JsonDict) :
    mandateIdentifier P (attachUserSignature mandate signature) = mandateIdentifier P mandate := by
  have member : ∀ key, key ≠ "signatures" →
      (attachUserSignature mandate signature).get key = mandate.get key :=
    fun key other => get_attachUserSignature other signature
  simp only [mandateIdentifier, member "type" (by decide),
    strTrimmed_congr P (member "mandateId" (by decide)),
    strTrimmed_congr P (member "operationId" (by decide))]

theorem SignedByUser.identifier {type : String} {mandate signedMandate : JsonDict}
    {signer : UserSigner} (signed : SignedByUser P type mandate signer signedMandate) :
    mandateIdentifier P signedMandate = mandateIdentifier P mandate := by
  obtain ⟨context, signature, -, -, rfl⟩ := signed
  exact mandateIdentifier_attach mandate signature

end

/-! ### Flows -/

/-- What passes between a service and a user, with the credential stores that they find. -/
structure AuthorizationFlow where
  request : JsonDict
  store : InMemoryCredentialStore
  preparedAt : Int
  random : Bytes
  mandate : JsonDict
  options : JsonDict
  id : String
  signer : Ed25519UserSigner
  signedMandate : JsonDict
  completion : JsonDict
  laterStore : InMemoryCredentialStore
  completedAt : Int

namespace AuthorizationFlow

variable (P : Platform) (defaultValidity : Int) (f : AuthorizationFlow)

/-- The mandate is signed with an allowed credential and submitted in time. -/
structure Honest : Prop where
  wellFormed : f.request.WellFormed
  clock : P.formatIsoZ f.preparedAt ≠ ""
  allowed : f.signer.credentialId ∈ allowedCredentialIds f.options
  key : ∀ record, f.store.get f.signer.credentialId = some record →
    ed25519PublicKeyFromBase64url P (strTrimmed P record.publicKey "x") =
      .ok (P.verifyingKey f.signer.privateKey)
  registered : f.laterStore.get f.signer.credentialId = f.store.get f.signer.credentialId
  signed : signUserMandateWithSigner P f.mandate (f.signer.toUserSigner P) = .ok f.signedMandate
  submitted : f.completion.get "signedMandate" = some (.obj f.signedMandate)
  timely : ∀ validity, validitySeconds f.request defaultValidity = .ok validity →
    f.completedAt < f.preparedAt + validity

/-- The user id has no outer whitespace, and the calendar can write the end. -/
structure Fits : Prop where
  userId : strOrEmpty P f.request "userId" = strTrimmed P f.request "userId"
  window : ∀ validity, validitySeconds f.request defaultValidity = .ok validity →
    P.formatIsoZ (f.preparedAt + validity) ≠ ""

variable {P defaultValidity f} (honest : f.Honest P defaultValidity)

include honest

/-- The credential of the signer is still stored when the completion comes. -/
theorem Honest.owner {required : Bool} {userId : String}
    (made : signingOptionsFor required (some (registeredEd25519Method P f.store)) userId
      f.mandate = .ok f.options) :
    required = true ∧ ∃ record, f.laterStore.get f.signer.credentialId = some record ∧
      f.signer.Owns P record ∧ record.userId = userId := by
  obtain ⟨required, record, registered, user, method⟩ :=
    signingOptionsFor_allowed made honest.allowed
  exact ⟨required, record, honest.registered.trans registered,
    ⟨method, honest.key record registered⟩, user⟩

theorem Honest.getObject_completion :
    getObject f.completion "signedMandate" = some f.signedMandate := by
  rw [getObject, honest.submitted]
  rfl

end AuthorizationFlow

end AgentProtocols.A4P
