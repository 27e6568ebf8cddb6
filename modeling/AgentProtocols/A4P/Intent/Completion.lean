import AgentProtocols.A4P.Intent.Approval
import AgentProtocols.A4P.SignedMandates

/-!
Honest authorization flows of the intent service. An `IntentFlow` is a prepare request, the calls of
others and a completion with the signed mandate. `IntentFlow.Honest.approved_iff` says that it ends
in an approval exactly when its request fits and the clock was not set back.
-/

namespace AgentProtocols.A4P

open Json Lib IntentAuthorizationService

section

variable {P : Platform}

/-! ### Created mandates -/

variable {d : JsonDict}

theorem signIntentMandate_ok {mandate policy : JsonDict}
    (authorization : mandate.get "userAuthorization" = some (.obj policy))
    (signed : signIntentMandate P mandate = .ok d) :
    ServerSignedMandate P (intentMandateCorePayload P d) P.intentServerSigningKey
        intentServerSignAlgorithm intentMandateServerKeyId policy d ∧
      ∀ key, key ∉ ["type", "intent", "signatures", "userAuthorization"] →
        d.get key = mandate.get key := by
  have normal := signIntentMandate_normal signed
  obtain ⟨normalized, found, core, built, key, signingKey, eq⟩ := bind₃_eq_ok.mp signed
  cases eq
  obtain ⟨before, others⟩ := normalizeIntentMandate_ok found
  obtain ⟨same, entry⟩ := withServerSignature_of_normal before
    (serverSignatureEntry intentServerSignAlgorithm intentMandateServerKeyId
      (ed25519SignText P (serverSignaturePayload P core) key))
  refine ⟨⟨⟨core, key, ?_, signingKey, entry⟩, ?_⟩, fun k other => ?_⟩
  · rw [intentMandateCorePayload_congr before normal same, built]
  · rw [same "userAuthorization" (by decide)]
    obtain ⟨scope, -, eq⟩ := bind_eq_ok.mp found
    cases eq
    rw [JsonDict.get_insert_self, objectOrEmpty_of_get authorization]
  · have notSignatures : k ≠ "signatures" := by
      rintro rfl
      exact other (by decide)
    rw [same k notSignatures, others k other]

theorem createIntentMandate_ok {params : CreateIntentMandate} {now : Int} {random : Bytes}
    (created : createIntentMandate P params now random = .ok d) :
    ServerSignedMandate P (intentMandateCorePayload P d) P.intentServerSigningKey
        intentServerSignAlgorithm intentMandateServerKeyId
        (userAuthorizationPolicy params.requireUserSignature
          (trim (params.userSignatureMethod.getD "")) params.userSignatureMethodPolicy) d ∧
      d.get "server" = some (.str params.server) ∧
      d.get "validTime" = some (.obj [("start", .str (P.formatIsoZ now)),
        ("end", .str (P.formatIsoZ (addI64 now params.validitySeconds)))]) := by
  unfold createIntentMandate at created
  extract_lets signatureMethod startIso endIso at created
  split at created
  · cases created
  obtain ⟨actions, -, policy, -, created⟩ := bind₂_eq_ok.mp created
  extract_lets scope fullScope mandate rendered at created
  have member : ∀ key, key ≠ "displayText" → rendered.get key = mandate.get key :=
    fun key other => get_rendered params.displayTextRenderer other
  obtain ⟨signed, others⟩ := signIntentMandate_ok (member "userAuthorization" (by decide)) created
  refine ⟨signed, ?_, ?_⟩
  · rw [others "server" (by decide), member "server" (by decide)]
    rfl
  · rw [others "validTime" (by decide), member "validTime" (by decide)]
    rfl

/-! ### Signed mandates -/

theorem mandateCorePayload_intent (normal : NormalIntentMandate P d) : mandateCorePayload P d =
      (intentMandateCorePayload P d).mapError fun e =>
        .mandateSecurity ⟨"SERVER_SIGNATURE_INVALID", e.text⟩ := by
  rw [mandateCorePayload, normal.typeText]
  exact if_pos rfl

theorem verifyIntentMandate_iff (normal : NormalIntentMandate P d)
    {options : VerifyIntentMandate} {context : UserSignatureContext}
    (server : verifyServerSignature P d intentServerSignAlgorithm (intentMandateCorePayload P d)
      P.intentServerSigningKey = .ok ())
    (built : intentUserSignatureContext P d options.expectedUserId = .ok context) (now : Int) :
    verifyIntentMandate P d options now = .ok () ↔
      verifyUserSignature P context (signatureOf d "user") options.userSignatureMethod
          options.requireUserSignature = .ok () ∧ verifyIntentValidTime P d now = .ok () ∧
        verifyExpectedServer P d options.expectedServer = .ok () := by
  rw [verifyIntentMandate, if_neg (not_not.mpr normal.typeText), normal.fixed,
    ← check_and_then, ← check_and_then]
  dsimp only
  rw [server, built]
  rfl

theorem verifyIntentMandate_signed (sound : Ed25519Sound P) {mandate signedMandate policy : JsonDict}
    (normal : NormalIntentMandate P mandate)
    (serverSigned : ServerSignedMandate P (intentMandateCorePayload P mandate)
      P.intentServerSigningKey intentServerSignAlgorithm intentMandateServerKeyId policy mandate)
    {store : InMemoryCredentialStore} {signer : Ed25519UserSigner} {record : UserCredentialRecord}
    (found : store.get signer.credentialId = some record) (owns : signer.Owns P record)
    (signed : SignedByUser P intentMandateType mandate (signer.toUserSigner P) signedMandate)
    (expectedServer : Option String) (userId : String) (now : Int) :
    verifyIntentMandate P signedMandate
        { expectedServer := expectedServer
          expectedUserId := some userId
          requireUserSignature := true
          userSignatureMethod := some (registeredEd25519Method P store) } now = .ok () ↔
      record.userId = userId ∧ verifyIntentValidTime P mandate now = .ok () ∧
        verifyExpectedServer P mandate expectedServer = .ok () := by
  obtain ⟨context, signature, built, made, rfl⟩ := signed
  have attached : NormalIntentMandate P (attachUserSignature mandate signature) :=
    normal.attach (by decide) signature
  have same : ∀ key, key ≠ "signatures" →
      (attachUserSignature mandate signature).get key = mandate.get key :=
    fun key other => get_attachUserSignature other signature
  have core := intentMandateCorePayload_congr normal attached same
  obtain ⟨serverSignature, userSignature⟩ := normal.signatureOf_attach signature
  have server : verifyServerSignature P (attachUserSignature mandate signature)
      intentServerSignAlgorithm
      (intentMandateCorePayload P (attachUserSignature mandate signature))
      P.intentServerSigningKey = .ok () := by
    rw [core]
    exact verifyServerSignature_signed sound serverSigned (by decide) serverSignature
  have asked : intentUserSignatureContext P (attachUserSignature mandate signature) (some userId) =
      .ok { context with expectedUserId := some userId } := by
    rw [intentUserSignatureContext, attached.fixed]
    refine normal.context_attach ?_ built (some userId)
    rw [mandateCorePayload_intent normal, mandateCorePayload_intent attached, core]
  have user := verifyUserSignature_sign sound found owns made userId
  have time : verifyIntentValidTime P (attachUserSignature mandate signature) now =
      verifyIntentValidTime P mandate now := by
    rw [verifyIntentValidTime, verifyIntentValidTime, objectOrEmpty, objectOrEmpty, getObject,
      getObject, same "validTime" (by decide)]
  have expected : verifyExpectedServer P (attachUserSignature mandate signature) expectedServer =
      verifyExpectedServer P mandate expectedServer := by
    cases expectedServer with
    | none => rfl
    | some text =>
      rw [verifyExpectedServer, verifyExpectedServer,
        strTrimmed_congr P (same "server" (by decide))]
  rw [verifyIntentMandate_iff attached server asked, time, expected, ← user, userSignature]

theorem verifyIntentValidTime_iff (calendar : Calendar P) {start stop : Int}
    (found : d.get "validTime" = some (.obj [("start", .str (P.formatIsoZ start)),
      ("end", .str (P.formatIsoZ stop))])) (now : Int) : verifyIntentValidTime P d now = .ok () ↔
      P.formatIsoZ start ≠ "" ∧ P.formatIsoZ stop ≠ "" ∧ start ≤ now ∧ now ≤ stop := by
  let window : JsonDict := [("start", .str (P.formatIsoZ start)), ("end", .str (P.formatIsoZ stop))]
  have startText : truthyText P window "start" = _ := truthyText_str rfl
  have stopText : truthyText P window "end" = _ := truthyText_str rfl
  rw [verifyIntentValidTime, objectOrEmpty_of_get found]
  rw [startText, stopText]
  by_cases noStart : P.formatIsoZ start = ""
  · rw [if_pos noStart]
    exact iff_of_false (by simp) fun fits => fits.1 noStart
  by_cases noStop : P.formatIsoZ stop = ""
  · rw [if_pos noStop]
    exact iff_of_false (by simp) fun fits => fits.2.1 noStop
  rw [if_neg noStart, if_neg noStop]
  dsimp only
  rw [calendar.round start noStart, calendar.round stop noStop]
  dsimp only
  split_ifs with early late
  · exact iff_of_false (by simp) fun fits => absurd fits.2.2.1 (not_le.mpr early)
  · exact iff_of_false (by simp) fun fits => absurd fits.2.2.2 (not_le.mpr late)
  · exact iff_of_true rfl ⟨noStart, noStop, not_lt.mp early, not_lt.mp late⟩

theorem verifyExpectedServer_self {server : String} (found : d.get "server" = some (.str server)) :
    verifyExpectedServer P d (some server) = .ok () := by
  rw [verifyExpectedServer, strTrimmed_str P found]
  exact if_neg (not_not.mpr rfl)

/-! ### Prepared mandates -/

theorem wellFormed_createIntentMandate {params : CreateIntentMandate} {now : Int} {random : Bytes}
    (wfActions : ∀ w, params.actions = some w → w.WellFormed)
    (wfKey : ∀ key, params.agentPublicKey = some key → (Json.obj key).WellFormed)
    (wfPolicy : ∀ policy, params.userSignatureMethodPolicy = some policy →
      (Json.obj policy).WellFormed)
    (created : createIntentMandate P params now random = .ok d) : d.WellFormed := by
  unfold createIntentMandate at created
  extract_lets signatureMethod startIso endIso at created
  split at created
  · cases created
  obtain ⟨actions, areActions, policy, isPolicy, created⟩ := bind₂_eq_ok.mp created
  extract_lets scope fullScope mandate rendered at created
  have listed : JsonDict.WellFormed [("actions", Json.arr (actions.map .obj))] := by
    apply wellFormed_obj.mpr
    simpa [JsonDict.WellFormed] using wellFormed_actionSpecs wfActions areActions
  have wfScope : (Json.obj fullScope).WellFormed := by
    cases policy with
    | none => exact listed
    | some policy =>
      obtain ⟨n, rfl, -, -⟩ := normalizeExecutionPolicy_eq isPolicy
      exact listed.insert _ (wellFormed_obj.mpr (by simp))
  have wfSubject := wellFormed_mandateSubject params.subjectType params.agentId wfKey
  have wfAuthorization :=
    wellFormed_userAuthorizationPolicy params.requireUserSignature signatureMethod wfPolicy
  have wfTime : (Json.obj [("start", .str startIso), ("end", .str endIso)]).WellFormed := by
    apply wellFormed_obj.mpr
    simp
  have wfSignatures :=
    wellFormed_signatureContainers intentServerSignAlgorithm intentMandateServerKeyId
  have wfMandate : mandate.WellFormed := by
    apply wellFormed_obj.mpr
    simp only [mandate, List.map_cons, List.map_nil, List.forall_mem_cons, List.not_mem_nil,
      IsEmpty.forall_iff, implies_true, and_true]
    exact ⟨by decide, wellFormed_str _, wellFormed_str _, wellFormed_str _, wfSubject, wfScope,
      wfTime, wfAuthorization, wellFormed_str _, wfSignatures⟩
  have wfRendered : rendered.WellFormed := wellFormed_rendered wfMandate params.displayTextRenderer
  obtain ⟨normalized, found, core, -, key, -, eq⟩ := bind₃_eq_ok.mp created
  cases eq
  exact wellFormed_withServerSignature (wellFormed_intentMandate wfRendered found)
    (wellFormed_serverSignatureEntry _ _ _)

structure PreparedIntent (P : Platform) (S : IntentAuthorizationService)
    (store : InMemoryCredentialStore) (request : JsonDict) (now validity : Int)
    (mandate options : JsonDict) : Prop where
  isValidity : validitySeconds request 3600 = .ok validity
  normal : NormalIntentMandate P mandate
  wellFormed : mandate.WellFormed
  serverSigned : ∃ policy, ServerSignedMandate P (intentMandateCorePayload P mandate)
    P.intentServerSigningKey intentServerSignAlgorithm intentMandateServerKeyId policy mandate
  server : mandate.get "server" = some (.str (requestServer P request S.serverId))
  validTime : mandate.get "validTime" = some (.obj [("start", .str (P.formatIsoZ now)),
    ("end", .str (P.formatIsoZ (now + validity)))])
  options : signingOptionsFor S.requireUserSignature (some (registeredEd25519Method P store))
    (strTrimmed P request "userId") mandate = .ok options

namespace IntentAuthorizationService

variable {S : IntentAuthorizationService}

variable {now : Int} {mandate request : JsonDict}

theorem prepareInner_prepared (calendar : Calendar P)
    {store : InMemoryCredentialStore} {random : Bytes} {id : String}
    {options : JsonDict} (wf : request.WellFormed) (held : P.formatIsoZ now ≠ "")
    (prepared : S.prepareInner P request (objectOrEmpty request "intent")
      (some (registeredEd25519Method P store)) now random = .ok (id, mandate, options)) :
    ∃ validity, PreparedIntent P S store request now validity mandate options := by
  obtain ⟨normal, -⟩ := prepareInner_ok prepared
  obtain ⟨agentId, -, userId, isUser, validity, isValidity, _, -, prepared⟩ :=
    bind₄_eq_ok.mp prepared
  obtain ⟨created, isCreated, identifier, -, signingOptions, areOptions, eq⟩ :=
    bind₃_eq_ok.mp prepared
  cases eq
  obtain ⟨serverSigned, server, validTime⟩ := createIntentMandate_ok isCreated
  obtain ⟨positive, bound⟩ := validitySeconds_ok (by decide) (by decide) isValidity
  have wfIntent := wellFormed_objectOrEmpty wf "intent"
  cases requiredField_eq_ok isUser
  refine ⟨validity, isValidity, normal, ?_, ⟨_, serverSigned⟩, server, ?_, ?_⟩
  · refine wellFormed_createIntentMandate (fun w found => wfIntent.of_get found)
      (fun key found => wellFormed_getObject wf found) (fun policy found => ?_) isCreated
    cases found
    exact JsonDict.wellFormed_nil
  · rw [validTime, calendar.formatIsoZ_addI64 held positive bound]
  · exact areOptions

theorem prepare_accepted {pending pending' : PendingIntents}
    {method : Option UserSignatureMethod} {random : Bytes} {response : IntentAuthorizationResponse}
    (accepted : S.prepare P pending request method now random = (.ok response, pending'))
    (answered : response.mandate = some mandate) :
    ∃ id, S.prepareInner P request (objectOrEmpty request "intent") method now random =
        .ok (id, mandate, response.signingOptions) ∧
      pending' = pending.insert id ⟨request, mandate⟩ := by
  unfold prepare at accepted
  split at accepted
  · rename_i id made options inner
    cases accepted
    cases answered
    exact ⟨id, inner, rfl⟩
  · split at accepted
    · split at accepted
      · cases accepted
        cases answered
      · cases accepted
        cases answered
    · split at accepted
      · cases accepted
        cases answered
      · cases accepted

theorem checkCompletion_iff (sound : Ed25519Sound P) (calendar : Calendar P)
    (required : S.requireUserSignature = true) {store laterStore : InMemoryCredentialStore}
    {options signedMandate : JsonDict} {validity : Int}
    (prepared : PreparedIntent P S store request now validity mandate options)
    {signer : Ed25519UserSigner} {record : UserCredentialRecord}
    (found : laterStore.get signer.credentialId = some record) (owns : signer.Owns P record)
    (signed : SignedByUser P intentMandateType mandate (signer.toUserSigner P) signedMandate)
    (completedAt : Int) : S.checkCompletion P ⟨request, mandate⟩ signedMandate
        (some (registeredEd25519Method P laterStore)) completedAt = .ok () ↔
      record.userId = strOrEmpty P request "userId" ∧ P.formatIsoZ now ≠ "" ∧
        P.formatIsoZ (now + validity) ≠ "" ∧ now ≤ completedAt ∧ completedAt ≤ now + validity := by
  obtain ⟨policy, serverSigned⟩ := prepared.serverSigned
  have verified := verifyIntentMandate_signed sound prepared.normal serverSigned found owns signed
    (some (requestServer P request S.serverId)) (strOrEmpty P request "userId") completedAt
  rw [verifyIntentValidTime_iff calendar prepared.validTime completedAt,
    verifyExpectedServer_self prepared.server] at verified
  have same : mandateMatchesPending signedMandate mandate (normalizeIntentMandate P) = true := by
    obtain ⟨context, signature, -, -, rfl⟩ := signed
    have attached : NormalIntentMandate P (attachUserSignature mandate signature) :=
      prepared.normal.attach (by decide) signature
    exact mandateMatchesPending_attach prepared.normal prepared.wellFormed prepared.normal.fixed
      attached.fixed
  constructor
  · intro checked
    have accepted := (checkCompletion_ok checked).2
    rw [required] at accepted
    obtain ⟨user, time, -⟩ := verified.mp accepted
    exact ⟨user, time⟩
  · rintro ⟨user, time⟩
    have accepted := verified.mpr ⟨user, time, rfl⟩
    rw [checkCompletion, if_pos same, required]
    rw [accepted]

/-- A completion is approved exactly when its checks pass. -/
theorem approved_iff (calendar : Calendar P) {pending : PendingIntents}
    {method : Option UserSignatureMethod} {issuedAt : Int} {random : TokenRandom}
    {signedMandate : JsonDict} {id : String} {entry : PendingIntent}
    (found : getObject request "signedMandate" = some signedMandate)
    (identified : mandateIdentifier P signedMandate = .ok id)
    (there : pending.get? id = some entry) :
    (∃ response, (S.complete P pending request method now issuedAt random).1 = .ok response ∧
        response.approved = true) ↔
      S.checkCompletion P entry signedMandate method now = .ok () := by
  constructor
  · rintro ⟨response, answered, approved⟩
    rcases complete_cases (S := S) calendar.blank
        (Prod.ext answered rfl : S.complete P pending request method now issuedAt random =
          (.ok response, (S.complete P pending request method now issuedAt random).2)) with
      ⟨_, signed, id', entry', eq, -, found', identified', there', checked, -⟩ | ⟨-, refused⟩
    · rw [found] at found'
      cases found'
      rw [identified] at identified'
      cases identified'
      rw [there] at there'
      cases there'
      exact checked
    · rw [refused response rfl] at approved
      cases approved
  · intro checked
    obtain ⟨token, issued⟩ : ∃ token, issueIntentToken P signedMandate
        ⟨(truthyText P entry.request "userId").getD "user:unknown", true,
          S.requireUserSignature, none⟩ issuedAt random = .ok token :=
      issueIntentToken_ok calendar.blank (checkCompletion_ok checked).2 identified rfl
    rw [complete, found]
    dsimp only
    rw [identified]
    dsimp only
    rw [there]
    dsimp only
    rw [checked]
    rw [issued]
    exact ⟨_, rfl, rfl⟩

end IntentAuthorizationService

end

/-! ### Flows -/

/-- A flow: its prepare leaves `prepared`, and its completion meets `found`. -/
structure IntentFlow extends AuthorizationFlow where
  pending : PendingIntents
  prepared : PendingIntents
  others : List (IntentCall × IntentReply)
  found : PendingIntents
  issuedAt : Int
  tokenRandom : TokenRandom

namespace IntentFlow

variable (P : Platform) (S : IntentAuthorizationService) (f : IntentFlow)

/-- A call that neither prepares nor approves the mandate of the flow. -/
def Foreign (_ : PendingIntents) (l : IntentCall × IntentReply) : Prop :=
  issuedKey (prepares P) l ≠ some f.id ∧
    approves P l ≠ some f.id

/-- The service accepts the prepare request and then answers others. -/
structure Served : Prop where
  accepted : ∃ response, S.prepare P f.pending f.request
      (some (registeredEd25519Method P f.store)) f.preparedAt f.random =
        (.ok response, f.prepared) ∧
    response.mandate = some f.mandate ∧ response.signingOptions = f.options
  identified : mandateIdentifier P f.mandate = .ok f.id
  others : Run (Under (f.Foreign P) (S.Serves P)) f.prepared f.others f.found

def Approved : Prop :=
  ∃ response, (S.complete P f.found f.completion (some (registeredEd25519Method P f.laterStore))
      f.completedAt f.issuedAt f.tokenRandom).1 = .ok response ∧ response.approved = true

variable {P S f}

theorem foreign_kept (calendar : Calendar P) {pending pending' : PendingIntents}
    {l : IntentCall × IntentReply} (foreign : f.Foreign P pending l)
    (step : S.Serves P pending l pending') : pending'.get? f.id = pending.get? f.id := by
  refine (intent_oneShot calendar.blank).step_other step foreign.1
    foreign.2 fun unprepared unapproved => ?_
  rw [serves_kept calendar.blank step unprepared unapproved]

theorem Served.pending (calendar : Calendar P) (served : f.Served P S)
    (honest : f.Honest P 3600) :
    (∃ validity, PreparedIntent P S f.store f.request f.preparedAt validity f.mandate f.options) ∧
      f.found.get? f.id = some ⟨f.request, f.mandate⟩ := by
  obtain ⟨response, accepted, answered, options⟩ := served.accepted
  obtain ⟨id, inner, after⟩ := prepare_accepted accepted answered
  rw [options] at inner
  have same : f.id = id := by
    have identified := (prepareInner_ok inner).2
    rw [served.identified] at identified
    cases identified
    rfl
  refine ⟨prepareInner_prepared calendar honest.wellFormed honest.clock inner, ?_⟩
  have before : f.prepared.get? f.id = some ⟨f.request, f.mandate⟩ := by
    rw [after, same, OrderedMap.get?_insert_self]
  have kept : ∀ pending l pending', pending.get? f.id = some ⟨f.request, f.mandate⟩ →
      f.Foreign P pending l → S.Serves P pending l pending' →
        pending'.get? f.id = some ⟨f.request, f.mandate⟩ := by
    intro pending l pending' there foreign step
    rw [foreign_kept calendar foreign step, there]
  exact @Run.invariant_under _ _ _ _ _ _ _
    (fun pending => pending.get? f.id = some ⟨f.request, f.mandate⟩) kept served.others before

/-- An honest flow is approved exactly when its request fits and the clock goes on. -/
theorem Honest.approved_iff (sound : Ed25519Sound P) (calendar : Calendar P)
    (served : f.Served P S) (honest : f.Honest P 3600) :
    f.Approved P S ↔ f.Fits P 3600 ∧ f.preparedAt ≤ f.completedAt := by
  obtain ⟨⟨validity, prepared⟩, there⟩ := served.pending calendar honest
  obtain ⟨required, record, later, owns, user⟩ := honest.owner prepared.options
  have signed := signUserMandate_intent prepared.normal honest.signed
  have identified := signed.identifier.trans served.identified
  have timely := honest.timely validity prepared.isValidity
  rw [Approved, IntentAuthorizationService.approved_iff calendar honest.getObject_completion
    identified there,
    checkCompletion_iff sound calendar required prepared later owns signed, user]
  constructor
  · rintro ⟨same, -, window, started, -⟩
    refine ⟨⟨same.symm, fun given isGiven => ?_⟩, started⟩
    rw [prepared.isValidity] at isGiven
    cases isGiven
    exact window
  · rintro ⟨fits, started⟩
    exact ⟨fits.userId.symm, honest.clock, fits.window validity prepared.isValidity, started,
      timely.le⟩

end IntentFlow

end AgentProtocols.A4P
