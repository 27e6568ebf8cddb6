import AgentProtocols.A4P.Operation.Approval
import AgentProtocols.A4P.SignedMandates

/-!
Honest authorization flows of the operation service. Unlike the intent service, a completion names
the operation again, and an entry is dropped once its window has ended, at once where the calendar
does not hold the end (`pendingExpiry_window`).
-/

namespace AgentProtocols.A4P

open Json Lib OperationAuthorizationService JsonDict

section

variable {P : Platform}

/-! ### Created mandates -/

variable {d operation : JsonDict}

theorem signOperationMandate_ok {mandate policy : JsonDict}
    (authorization : mandate.get "userAuthorization" = some (.obj policy))
    (body : mandate.get "operation" = some (.obj operation))
    (fixed : normalizeOperationObject P operation = .ok operation)
    (signed : signOperationMandate P mandate = .ok d) :
    ServerSignedMandate P (operationMandateCorePayload P d) P.operationServerSigningKey
        operationServerSignAlgorithm operationMandateServerKeyId policy d ∧
      d.get "operation" = some (.obj operation) ∧
      ∀ key, key ∉ ["operation", "signatures", "userAuthorization", "type"] →
        d.get key = mandate.get key := by
  have normal := signOperationMandate_normal signed
  obtain ⟨normalized, found, core, built, key, signingKey, eq⟩ := bind₃_eq_ok.mp signed
  cases eq
  obtain ⟨before, others⟩ := normalizeOperationMandate_ok found
  obtain ⟨same, entry⟩ := withServerSignature_of_normal before
    (serverSignatureEntry operationServerSignAlgorithm operationMandateServerKeyId
      (ed25519SignText P (serverSignaturePayload P core) key))
  obtain ⟨normalOperation, isNormal, eq⟩ := bind_eq_ok.mp found
  cases eq
  rw [objectOrEmpty_of_get body, fixed] at isNormal
  cases isNormal
  refine ⟨⟨⟨core, key, ?_, signingKey, entry⟩, ?_⟩, ?_, fun k other => ?_⟩
  · rw [operationMandateCorePayload_congr before normal same, built]
  · rw [same "userAuthorization" (by decide), get_insert_of_ne _ (by decide),
      get_insert_self, objectOrEmpty_of_get authorization]
  · rw [same "operation" (by decide), get_insert_of_ne _ (by decide),
      get_insert_of_ne _ (by decide), get_insert_of_ne _ (by decide),
      get_insert_self]
  · have notSignatures : k ≠ "signatures" := by
      rintro rfl
      exact other (by decide)
    rw [same k notSignatures, others k other]

theorem createOperationMandate_ok {params : CreateOperationMandate} {now : Int} {random : Bytes}
    (created : createOperationMandate P params now random = .ok d) :
    ∃ operation policy display, normalizeOperationObject P params.operation = .ok operation ∧
      ServerSignedMandate P (operationMandateCorePayload P d) P.operationServerSigningKey
        operationServerSignAlgorithm operationMandateServerKeyId policy d ∧
      d.get "operation" = some (.obj operation) ∧ d.get "validTime" = some (.obj [
        ("until", .str (P.formatIsoZ (addI64 now params.validitySeconds))),
        ("displayUntil", .str display), ("timezone", .str "Asia/Shanghai")]) := by
  unfold createOperationMandate at created
  extract_lets signatureMethod untilIso at created
  split at created
  · cases created
  obtain ⟨operation, isOperation, created⟩ := bind_eq_ok.mp created
  extract_lets mandate rendered at created
  have member : ∀ key, key ≠ "displayText" → rendered.get key = mandate.get key :=
    fun key other => get_rendered params.displayTextRenderer other
  obtain ⟨signed, body, others⟩ := signOperationMandate_ok
    (member "userAuthorization" (by decide)) (member "operation" (by decide))
    (normalizeOperationObject_idem isOperation) created
  refine ⟨operation, _, P.formatBeijingDisplayTime untilIso, isOperation, signed, body, ?_⟩
  rw [others "validTime" (by decide), member "validTime" (by decide)]
  rfl

theorem wellFormed_createOperationMandate {params : CreateOperationMandate} {now : Int}
    {random : Bytes} (wfOperation : params.operation.WellFormed)
    (wfKey : ∀ key, params.agentPublicKey = some key → (Json.obj key).WellFormed)
    (wfPolicy : ∀ policy, params.userSignatureMethodPolicy = some policy →
      (Json.obj policy).WellFormed)
    (created : createOperationMandate P params now random = .ok d) : d.WellFormed := by
  unfold createOperationMandate at created
  extract_lets signatureMethod untilIso at created
  split at created
  · cases created
  obtain ⟨operation, isOperation, created⟩ := bind_eq_ok.mp created
  extract_lets mandate rendered at created
  have wfBody : (Json.obj operation).WellFormed := wellFormed_operation wfOperation isOperation
  have wfSubject := wellFormed_mandateSubject "agent" params.agentId wfKey
  have wfAuthorization :=
    wellFormed_userAuthorizationPolicy params.requireUserSignature signatureMethod wfPolicy
  have wfTime : (Json.obj [("until", .str untilIso),
      ("displayUntil", .str (P.formatBeijingDisplayTime untilIso)),
      ("timezone", .str "Asia/Shanghai")]).WellFormed := by
    apply wellFormed_obj.mpr
    simp
  have wfSignatures :=
    wellFormed_signatureContainers operationServerSignAlgorithm operationMandateServerKeyId
  have wfMandate : mandate.WellFormed := by
    apply wellFormed_obj.mpr
    simp only [mandate, List.map_cons, List.map_nil, List.forall_mem_cons, List.not_mem_nil,
      IsEmpty.forall_iff, implies_true, and_true]
    exact ⟨by decide, wellFormed_str _, wellFormed_str _, wellFormed_str _, wfSubject, wfBody,
      wfTime, wfAuthorization, wellFormed_str _, wfSignatures⟩
  have wfRendered : rendered.WellFormed := wellFormed_rendered wfMandate params.displayTextRenderer
  obtain ⟨normalized, found, core, -, key, -, eq⟩ := bind₃_eq_ok.mp created
  cases eq
  exact wellFormed_withServerSignature (wellFormed_operationMandate wfRendered found)
    (wellFormed_serverSignatureEntry _ _ _)

/-! ### Signed mandates -/

theorem mandateCorePayload_operation (normal : NormalOperationMandate P d) :
    mandateCorePayload P d = (operationMandateCorePayload P d).mapError fun e =>
        .mandateSecurity ⟨"SERVER_SIGNATURE_INVALID", e.text⟩ := by
  have other : some operationMandateType ≠ some intentMandateType := by decide
  rw [mandateCorePayload, normal.typeText, if_neg other]
  exact if_pos rfl

theorem memberEq_self {value : Option Json} (wf : ∀ w, value = some w → w.WellFormed) :
    memberEq value value = true := by
  cases value with
  | none => rfl
  | some w => exact Json.beq_refl (wf w rfl)

theorem verifyExpectedOperation_self (wf : operation.WellFormed)
    (body : d.get "operation" = some (.obj operation))
    (fixed : normalizeOperationObject P operation = .ok operation) :
    verifyExpectedOperation P d (some operation) = .ok () := by
  have member : ∀ key, memberEq (operation.get key) (operation.get key) = true :=
    fun key => memberEq_self fun w found => wf.of_get found
  rw [verifyExpectedOperation, Option.getD_some, fixed]
  dsimp only
  rw [objectOrEmpty_of_get body, if_pos (member "action"), if_pos (member "params")]

theorem verifyOperationMandate_iff (normal : NormalOperationMandate P d)
    {options : VerifyOperationMandate} {context : UserSignatureContext}
    (expected : verifyExpectedOperation P d options.expected = .ok ())
    (server : verifyServerSignature P d operationServerSignAlgorithm
      (operationMandateCorePayload P d) P.operationServerSigningKey = .ok ())
    (built : operationUserSignatureContext P d options.expectedUserId = .ok context) (now : Int) :
    verifyOperationMandateForCompletion P d options now = .ok () ↔
      verifyUserSignature P context (signatureOf d "user") options.userSignatureMethod
          options.requireUserSignature = .ok () ∧ verifyOperationValidTime P d now = .ok () := by
  rw [verifyOperationMandateForCompletion, if_neg (not_not.mpr normal.typeText),
    normal.fixed, ← check_and_then]
  dsimp only
  rw [expected, server, built]
  rfl

theorem verifyOperationMandate_signed (sound : Ed25519Sound P)
    {mandate signedMandate policy : JsonDict} (normal : NormalOperationMandate P mandate)
    (serverSigned : ServerSignedMandate P (operationMandateCorePayload P mandate)
      P.operationServerSigningKey operationServerSignAlgorithm operationMandateServerKeyId policy
      mandate) (wf : operation.WellFormed) (body : mandate.get "operation" = some (.obj operation))
    (fixed : normalizeOperationObject P operation = .ok operation)
    {store : InMemoryCredentialStore} {signer : Ed25519UserSigner} {record : UserCredentialRecord}
    (found : store.get signer.credentialId = some record) (owns : signer.Owns P record)
    (signed : SignedByUser P operationMandateType mandate (signer.toUserSigner P) signedMandate)
    (userId : String) (now : Int) : verifyOperationMandateForCompletion P signedMandate
        { expected := some operation
          expectedUserId := some userId
          requireUserSignature := true
          userSignatureMethod := some (registeredEd25519Method P store) } now = .ok () ↔
      record.userId = userId ∧ verifyOperationValidTime P mandate now = .ok () := by
  obtain ⟨context, signature, built, made, rfl⟩ := signed
  have attached : NormalOperationMandate P (attachUserSignature mandate signature) :=
    normal.attach (by decide) signature
  have same : ∀ key, key ≠ "signatures" →
      (attachUserSignature mandate signature).get key = mandate.get key :=
    fun key other => get_attachUserSignature other signature
  have core := operationMandateCorePayload_congr normal attached same
  obtain ⟨serverSignature, userSignature⟩ := normal.signatureOf_attach signature
  have expected : verifyExpectedOperation P (attachUserSignature mandate signature)
      (some operation) = .ok () :=
    verifyExpectedOperation_self wf ((same "operation" (by decide)).trans body) fixed
  have server : verifyServerSignature P (attachUserSignature mandate signature)
      operationServerSignAlgorithm
      (operationMandateCorePayload P (attachUserSignature mandate signature))
      P.operationServerSigningKey = .ok () := by
    rw [core]
    exact verifyServerSignature_signed sound serverSigned (by decide) serverSignature
  have asked : operationUserSignatureContext P (attachUserSignature mandate signature)
      (some userId) = .ok { context with expectedUserId := some userId } := by
    rw [operationUserSignatureContext, attached.fixed]
    refine normal.context_attach ?_ built (some userId)
    rw [mandateCorePayload_operation normal, mandateCorePayload_operation attached, core]
  have user := verifyUserSignature_sign sound found owns made userId
  have time : verifyOperationValidTime P (attachUserSignature mandate signature) now =
      verifyOperationValidTime P mandate now := by
    rw [verifyOperationValidTime, verifyOperationValidTime, objectOrEmpty, objectOrEmpty, getObject,
      getObject, same "validTime" (by decide)]
  have left := @verifyOperationMandate_iff P _ attached
    ⟨some operation, some userId, true, some (registeredEd25519Method P store)⟩ _ expected server
    asked now
  rw [left, time, ← user, userSignature]

theorem verifyOperationValidTime_iff (calendar : Calendar P) {stop : Int} {display : String}
    (found : d.get "validTime" = some (.obj [("until", .str (P.formatIsoZ stop)),
      ("displayUntil", .str display), ("timezone", .str "Asia/Shanghai")])) (now : Int) :
    verifyOperationValidTime P d now = .ok () ↔ P.formatIsoZ stop ≠ "" ∧ now ≤ stop := by
  let window : JsonDict := [("until", .str (P.formatIsoZ stop)), ("displayUntil", .str display),
    ("timezone", .str "Asia/Shanghai")]
  have stopText : truthyText P window "until" = _ := truthyText_str rfl
  rw [verifyOperationValidTime, objectOrEmpty_of_get found, stopText]
  by_cases noStop : P.formatIsoZ stop = ""
  · rw [if_pos noStop]
    exact iff_of_false (by simp) fun fits => fits.1 noStop
  rw [if_neg noStop]
  dsimp only
  rw [calendar.round stop noStop]
  dsimp only
  split_ifs with late
  · exact iff_of_false (by simp) fun fits => absurd fits.2 (not_le.mpr late)
  · exact iff_of_true rfl ⟨noStop, not_lt.mp late⟩

/-- A pending operation expires at the end of its window, or at once if the
calendar does not hold that. -/
theorem pendingExpiry_window (calendar : Calendar P) {stop : Int} {display : String}
    (found : d.get "validTime" = some (.obj [("until", .str (P.formatIsoZ stop)),
      ("displayUntil", .str display), ("timezone", .str "Asia/Shanghai")]))
    (held : P.formatIsoZ stop ≠ "") : pendingExpiry P d = stop := by
  have text : strOrEmpty P [("until", .str (P.formatIsoZ stop)), ("displayUntil", .str display),
      ("timezone", .str "Asia/Shanghai")] "until" = P.formatIsoZ stop := strOrEmpty_str P rfl
  have window : getObject d "validTime" = some [("until", .str (P.formatIsoZ stop)),
      ("displayUntil", .str display), ("timezone", .str "Asia/Shanghai")] := by
    rw [getObject, found]
    rfl
  rw [pendingExpiry, window, Option.map_some, text,
    Option.getD_some, calendar.round stop held, Option.getD_some]

/-! ### Prepared mandates -/

structure PreparedOperation (P : Platform) (S : OperationAuthorizationService)
    (store : InMemoryCredentialStore) (request : JsonDict) (now validity : Int)
    (operation mandate options : JsonDict) : Prop where
  isValidity : validitySeconds request 300 = .ok validity
  normal : NormalOperationMandate P mandate
  wellFormed : mandate.WellFormed
  serverSigned : ∃ policy, ServerSignedMandate P (operationMandateCorePayload P mandate)
    P.operationServerSigningKey operationServerSignAlgorithm operationMandateServerKeyId policy
    mandate
  requested : normalizeOperation P (request.get "operation") = .ok operation
  operationWellFormed : operation.WellFormed
  fixed : normalizeOperationObject P operation = .ok operation
  body : mandate.get "operation" = some (.obj operation)
  validTime : ∃ display, mandate.get "validTime" = some (.obj [
    ("until", .str (P.formatIsoZ (now + validity))), ("displayUntil", .str display),
    ("timezone", .str "Asia/Shanghai")])
  options : signingOptionsFor S.requireUserSignature (some (registeredEd25519Method P store))
    (strTrimmed P request "userId") mandate = .ok options

namespace OperationAuthorizationService

variable {S : OperationAuthorizationService}

variable {mandate request : JsonDict} {now : Int}

theorem prepareInner_prepared (calendar : Calendar P)
    {store : InMemoryCredentialStore} {random : Bytes} {id : String}
    {operation options : JsonDict} (wf : request.WellFormed) (held : P.formatIsoZ now ≠ "")
    (prepared : S.prepareInner P request (some (registeredEd25519Method P store)) now random =
      .ok (id, operation, mandate, options)) :
    ∃ validity, PreparedOperation P S store request now validity operation mandate options := by
  obtain ⟨normal, -, requested⟩ := prepareInner_ok prepared
  obtain ⟨agentId, -, userId, isUser, validity, isValidity, normalized, -, prepared⟩ :=
    bind₄_eq_ok.mp prepared
  obtain ⟨created, isCreated, identifier, -, signingOptions, areOptions, eq⟩ :=
    bind₃_eq_ok.mp prepared
  cases eq
  obtain ⟨given, givenFound, givenNormal⟩ : ∃ given, request.get "operation" = some (.obj given) ∧
      normalizeOperationObject P given = .ok operation := by
    unfold normalizeOperation at requested
    split at requested
    · rename_i given found
      exact ⟨given, found, requested⟩
    · cases requested
  have operationWellFormed : operation.WellFormed :=
    wellFormed_operation (wf.of_get givenFound) givenNormal
  have fixed := normalizeOperationObject_idem givenNormal
  obtain ⟨body, policy, display, again, serverSigned, isBody, validTime⟩ :=
    createOperationMandate_ok isCreated
  rw [fixed] at again
  cases again
  obtain ⟨positive, bound⟩ := validitySeconds_ok (by decide) (by decide) isValidity
  cases requiredField_eq_ok isUser
  refine ⟨validity, isValidity, normal, ?_, ⟨_, serverSigned⟩, requested, operationWellFormed,
    fixed, isBody, ⟨display, ?_⟩, ?_⟩
  · refine wellFormed_createOperationMandate operationWellFormed
      (fun key found => wellFormed_getObject wf found) (fun policy found => ?_) isCreated
    cases found
    exact wellFormed_nil
  · rw [validTime, calendar.formatIsoZ_addI64 held positive bound]
  · exact areOptions

theorem prepare_accepted {pending pending' : PendingOperations}
    {method : Option UserSignatureMethod} {random : Bytes}
    {challenge : OperationAuthorizationChallenge}
    (accepted : S.prepare P pending request method now random = (.ok challenge, pending'))
    (answered : challenge.mandate = some mandate) :
    ∃ id operation, S.prepareInner P request method now random =
        .ok (id, operation, mandate, challenge.signingOptions) ∧
      pending' = pending.insert id ⟨request, operation, mandate, pendingExpiry P mandate⟩ := by
  unfold prepare at accepted
  split at accepted
  · rename_i id operation made options inner
    cases accepted
    cases answered
    exact ⟨id, operation, inner, rfl⟩
  · split at accepted
    · split at accepted
      · cases accepted
        cases answered
      · cases accepted
        cases answered
    · split at accepted
      · cases accepted
        cases answered
      · cases accepted

theorem checkCompletion_iff (sound : Ed25519Sound P) (calendar : Calendar P)
    (required : S.requireUserSignature = true) {store laterStore : InMemoryCredentialStore}
    {completion operation options signedMandate : JsonDict} {validity : Int}
    (prepared : PreparedOperation P S store request now validity operation mandate options)
    (same : completion.get "operation" = request.get "operation")
    {signer : Ed25519UserSigner} {record : UserCredentialRecord}
    (found : laterStore.get signer.credentialId = some record) (owns : signer.Owns P record)
    (signed : SignedByUser P operationMandateType mandate (signer.toUserSigner P) signedMandate)
    (expiry completedAt : Int) :
    S.checkCompletion P ⟨request, operation, mandate, expiry⟩ completion signedMandate
        (some (registeredEd25519Method P laterStore)) completedAt = .ok () ↔
      record.userId = strOrEmpty P request "userId" ∧ P.formatIsoZ (now + validity) ≠ "" ∧
        completedAt ≤ now + validity := by
  obtain ⟨policy, serverSigned⟩ := prepared.serverSigned
  obtain ⟨display, validTime⟩ := prepared.validTime
  have verified := verifyOperationMandate_signed sound prepared.normal serverSigned
    prepared.operationWellFormed prepared.body prepared.fixed found owns signed
    (strOrEmpty P request "userId") completedAt
  rw [verifyOperationValidTime_iff calendar validTime completedAt] at verified
  have current : normalizeOperation P (completion.get "operation") = .ok operation := by
    rw [same, prepared.requested]
  have equal : (Json.obj operation).beq (.obj operation) = true :=
    Json.beq_refl prepared.operationWellFormed
  have unchanged : mandateMatchesPending signedMandate mandate (normalizeOperationMandate P) = true ∧
      normalizeOperation P (signedMandate.get "operation") = .ok operation := by
    obtain ⟨context, signature, -, -, rfl⟩ := signed
    have attached : NormalOperationMandate P (attachUserSignature mandate signature) :=
      prepared.normal.attach (by decide) signature
    refine ⟨mandateMatchesPending_attach prepared.normal prepared.wellFormed prepared.normal.fixed
      attached.fixed, ?_⟩
    rw [get_attachUserSignature (by decide), prepared.body]
    exact prepared.fixed
  constructor
  · intro checked
    obtain ⟨operation', again, -, -, accepted⟩ := checkCompletion_ok checked
    rw [current] at again
    cases again
    rw [required] at accepted
    exact verified.mp accepted
  · intro fits
    have accepted := verified.mpr fits
    rw [checkCompletion, current]
    dsimp only
    rw [unchanged.1, unchanged.2]
    dsimp only
    rw [equal, required, accepted]
    rfl

theorem approved_iff {pending : PendingOperations}
    {method : Option UserSignatureMethod} {signedMandate : JsonDict} {id : String}
    (found : getObject request "signedMandate" = some signedMandate)
    (identified : mandateIdentifier P signedMandate = .ok id) :
    (S.complete P pending request method now).1.approved = true ↔
      ∃ entry, pending.get? id = some entry ∧
        S.checkCompletion P entry request signedMandate method now = .ok () := by
  constructor
  · intro approved
    cases served : S.complete P pending request method now with
    | mk result after =>
      rw [served] at approved
      rcases complete_cases served with
        ⟨signed, id', entry, -, found', identified', there, checked, -⟩ | ⟨-, refused⟩
      · rw [found] at found'
        cases found'
        rw [identified] at identified'
        cases identified'
        exact ⟨entry, there, checked⟩
      · rw [refused] at approved
        cases approved
  · rintro ⟨entry, there, checked⟩
    rw [complete_of_checked found identified there checked]

end OperationAuthorizationService

end

/-! ### Flows -/

/-- A flow: its prepare leaves `prepared`, and its completion meets `found`. -/
structure OperationFlow extends AuthorizationFlow where
  pending : PendingOperations
  prepared : PendingOperations
  others : List (OperationSection × OperationReply)
  found : PendingOperations

namespace OperationFlow

variable (P : Platform) (S : OperationAuthorizationService) (f : OperationFlow)

/-- A section of another mandate, which prunes before the window ends only. -/
structure Foreign (_ : PendingOperations) (l : OperationSection × OperationReply) : Prop where
  unprepared : issuedKey (prepares P) l ≠ some f.id
  unapproved : approves P l ≠ some f.id
  early : ∀ time, l.1 = .prune time → ∀ validity,
    validitySeconds f.request 300 = .ok validity → time < f.preparedAt + validity

/-- The service accepts the prepare request and then goes through other sections. -/
structure Served : Prop where
  accepted : ∃ challenge, S.prepare P f.pending f.request
      (some (registeredEd25519Method P f.store)) f.preparedAt f.random =
        (.ok challenge, f.prepared) ∧
    challenge.mandate = some f.mandate ∧ challenge.signingOptions = f.options
  identified : mandateIdentifier P f.mandate = .ok f.id
  others : Run (Under (f.Foreign P) (S.Serves P)) f.prepared f.others f.found

/-- The completion names the operation of the prepare request. -/
def SameOperation : Prop := f.completion.get "operation" = f.request.get "operation"

def Approved : Prop :=
  (S.complete P f.found f.completion (some (registeredEd25519Method P f.laterStore))
    f.completedAt).1.approved = true

variable {P S f}

theorem foreign_kept {pending pending' : PendingOperations}
    {l : OperationSection × OperationReply} (foreign : f.Foreign P pending l)
    (step : S.Serves P pending l pending') {validity : Int}
    (isValidity : validitySeconds f.request 300 = .ok validity) :
    (∀ entry, pending'.get? f.id = some entry → pending.get? f.id = some entry) ∧
      ∀ entry, pending.get? f.id = some entry →
        entry.expireAtEpoch = f.preparedAt + validity → pending'.get? f.id = some entry := by
  have shape := @OperationAuthorizationService.operation_oneShot P S
  by_cases pruned : ∃ time, l.1 = .prune time
  · obtain ⟨time, isPrune⟩ := pruned
    obtain ⟨call, reply⟩ := l
    cases isPrune
    cases step
    refine ⟨fun entry there => (get?_pruneExpired.mp there).1, fun entry there expires => ?_⟩
    have early := foreign.early time rfl validity isValidity
    exact get?_pruneExpired.mpr ⟨there, by omega⟩
  · have same : pending'.get? f.id = pending.get? f.id := by
      refine shape.step_other step foreign.unprepared foreign.unapproved
        fun unprepared unapproved => ?_
      rcases serves_kept step unprepared unapproved with
        kept | ⟨time, isPrune, -⟩
      · rw [kept]
      · exact absurd ⟨time, isPrune⟩ pruned
    exact ⟨fun entry there => same ▸ there, fun entry there _ => same.trans there⟩

/-- Nothing else is pending under the id, and the entry itself if the calendar holds the end. -/
theorem Served.pending (calendar : Calendar P) (served : f.Served P S)
    (honest : f.Honest P 300) :
    ∃ validity operation, PreparedOperation P S f.store f.request f.preparedAt validity operation
        f.mandate f.options ∧
      (∀ entry, f.found.get? f.id = some entry → entry = ⟨f.request, operation, f.mandate,
          pendingExpiry P f.mandate⟩) ∧
      (P.formatIsoZ (f.preparedAt + validity) ≠ "" →
        f.found.get? f.id = some ⟨f.request, operation, f.mandate, pendingExpiry P f.mandate⟩) := by
  obtain ⟨challenge, accepted, answered, options⟩ := served.accepted
  obtain ⟨id, operation, inner, after⟩ :=
    prepare_accepted accepted answered
  rw [options] at inner
  have same : f.id = id := by
    have identified := (prepareInner_ok inner).2.1
    rw [served.identified] at identified
    cases identified
    rfl
  obtain ⟨validity, prepared⟩ := prepareInner_prepared calendar honest.wellFormed honest.clock inner
  have before : f.prepared.get? f.id = some ⟨f.request, operation, f.mandate,
      pendingExpiry P f.mandate⟩ := by
    rw [after, same, OrderedMap.get?_insert_self]
  have only : ∀ entry, f.prepared.get? f.id = some entry → entry = ⟨f.request, operation, f.mandate,
      pendingExpiry P f.mandate⟩ := by
    intro entry there
    rw [before] at there
    exact (Option.some.inj there).symm
  refine ⟨validity, operation, prepared, ?_, fun held => ?_⟩
  · exact @Run.invariant_under _ _ _ _ _ _ _
      (fun pending => ∀ entry, pending.get? f.id = some entry → entry = _)
      (fun _ _ _ origin foreign step entry there =>
        origin entry ((foreign_kept foreign step prepared.isValidity).1 entry there))
      served.others only
  · obtain ⟨display, validTime⟩ := prepared.validTime
    have expiry := pendingExpiry_window calendar validTime held
    exact @Run.invariant_under _ _ _ _ _ _ _ (fun pending => pending.get? f.id = some _)
      (fun _ _ _ there foreign step =>
        (foreign_kept foreign step prepared.isValidity).2 _ there expiry)
      served.others before

theorem Honest.approved_iff (sound : Ed25519Sound P) (calendar : Calendar P)
    (served : f.Served P S) (honest : f.Honest P 300) (same : f.SameOperation) :
    f.Approved P S ↔ f.Fits P 300 := by
  obtain ⟨validity, operation, prepared, only, there⟩ := served.pending calendar honest
  obtain ⟨required, record, later, owns, user⟩ := honest.owner prepared.options
  have signed := signUserMandate_operation prepared.normal honest.signed
  have identified := signed.identifier.trans served.identified
  have timely := honest.timely validity prepared.isValidity
  have checks := checkCompletion_iff sound calendar required prepared
    same later owns signed (pendingExpiry P f.mandate) f.completedAt
  rw [Approved, OperationAuthorizationService.approved_iff honest.getObject_completion identified]
  constructor
  · rintro ⟨entry, isPending, checked⟩
    rw [only entry isPending, checks, user] at checked
    refine ⟨checked.1.symm, fun given isGiven => ?_⟩
    rw [prepared.isValidity] at isGiven
    cases isGiven
    exact checked.2.1
  · intro fits
    have held := fits.window validity prepared.isValidity
    refine ⟨_, there held, checks.mpr ⟨?_, held, timely.le⟩⟩
    rw [user, fits.userId]

end OperationFlow

end AgentProtocols.A4P
