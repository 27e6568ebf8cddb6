import AgentProtocols.A4P.Operation.Service
import AgentProtocols.Lib.OneShot

/-!
Approvals of prepared operation mandates. A call is two sections of its lock; `operation_oneShot`
says that the sections only issue, take and drop entries.
-/

namespace AgentProtocols.A4P

open Json Lib

/-- One section of a call, with the values it takes from its environment. -/
inductive OperationSection where
  | prune (now : Int)
  | prepare (request : JsonDict) (method : Option UserSignatureMethod) (now : Int)
      (random : Bytes)
  | complete (request : JsonDict) (method : Option UserSignatureMethod) (now : Int)

/-- What a section leads its call to answer. -/
inductive OperationReply where
  | pruned
  | challenge (reply : Except A4PError OperationAuthorizationChallenge)
  | result (reply : OperationAuthorizationResult)

namespace OperationAuthorizationService

variable (P : Platform) (S : OperationAuthorizationService)

def serve (pending : PendingOperations) : OperationSection → OperationReply × PendingOperations
  | .prune now => (.pruned, pruneExpired pending now)
  | .prepare request method now random =>
    (S.prepare P pending request method now random).map .challenge id
  | .complete request method now => (S.complete P pending request method now).map .result id

/-- The service answers the section so. -/
def Serves (pending : PendingOperations) (l : OperationSection × OperationReply)
    (pending' : PendingOperations) : Prop :=
  S.serve P pending l.1 = (l.2, pending')

/-- The entry a section prepares, with its id. -/
def prepares : OperationSection × OperationReply → Option (String × PendingOperation)
  | (.prepare request _ _ _, .challenge (.ok challenge)) =>
    challenge.mandate.bind fun mandate =>
      (mandateIdentifier P mandate).toOption.bind fun id =>
        (normalizeOperation P (request.get "operation")).toOption.map fun operation =>
          (id, ⟨request, operation, mandate, pendingExpiry P mandate⟩)
  | _ => none

def approves : OperationSection × OperationReply → Option String
  | (.complete request _ _, .result result) =>
    if result.approved then
      (getObject request "signedMandate").bind fun mandate =>
        (mandateIdentifier P mandate).toOption
    else none
  | _ => none

/-- The operation and the signed mandate are the prepared ones, and both signatures verify. -/
def MayApprove (entry : PendingOperation) (l : OperationSection × OperationReply) : Prop :=
  ∃ request method now signedMandate operation normalized,
    l.1 = .complete request method now ∧
    getObject request "signedMandate" = some signedMandate ∧
    normalizeOperation P (request.get "operation") = .ok operation ∧
    (Json.obj operation).beq (.obj entry.operation) = true ∧
    normalizeOperationMandate P signedMandate = .ok normalized ∧
    (Json.obj (clearUserSignature normalized)).beq (.obj (clearUserSignature entry.mandate)) =
      true ∧
    ServerSigned P normalized (operationMandateCorePayload P normalized)
      P.operationServerSigningKey ∧
    UserSigned normalized
      (operationUserSignatureContext P normalized (some (strOrEmpty P entry.request "userId")))
      (some (strOrEmpty P entry.request "userId")) method S.requireUserSignature

variable {P S}

variable {request signedMandate : JsonDict} {l : OperationSection × OperationReply}
  {entry : PendingOperation} {id : String} {pending pending' : PendingOperations} {now : Int}
  {method : Option UserSignatureMethod}

theorem prepareInner_ok {random : Bytes} {operation mandate options : JsonDict}
    (prepared : S.prepareInner P request method now random =
      .ok (id, operation, mandate, options)) :
    NormalOperationMandate P mandate ∧ mandateIdentifier P mandate = .ok id ∧
      normalizeOperation P (request.get "operation") = .ok operation := by
  obtain ⟨agentId, _, userId, _, validity, _, normalized, normalizes, prepared⟩ :=
    bind₄_eq_ok.mp prepared
  obtain ⟨created, normal, identifier, identified, signingOptions, _, eq⟩ := bind₃_eq_ok.mp prepared
  cases eq
  exact ⟨createOperationMandate_normal normal, identified, normalizes⟩

theorem prepare_cases {random : Bytes} {reply : Except A4PError OperationAuthorizationChallenge}
    (step : S.prepare P pending request method now random = (reply, pending')) :
    (∃ id operation mandate options,
        reply = .ok { mandate := some mandate, signingOptions := options } ∧
        NormalOperationMandate P mandate ∧ mandateIdentifier P mandate = .ok id ∧
        normalizeOperation P (request.get "operation") = .ok operation ∧
        pending' = pending.insert id ⟨request, operation, mandate, pendingExpiry P mandate⟩) ∨
      pending' = pending ∧ ∀ challenge, reply = .ok challenge → challenge.mandate = none := by
  unfold prepare at step
  split at step
  · rename_i id operation mandate options prepared
    cases step
    obtain ⟨normal, identified, normalizes⟩ := prepareInner_ok prepared
    exact .inl ⟨id, operation, mandate, options, rfl, normal, identified, normalizes, rfl⟩
  · right
    split at step
    · split at step
      · cases step
        exact ⟨rfl, fun _ eq => by cases eq; rfl⟩
      · cases step
        exact ⟨rfl, fun _ eq => by cases eq; rfl⟩
    · split at step
      · cases step
        exact ⟨rfl, fun _ eq => by cases eq; rfl⟩
      · cases step
        exact ⟨rfl, nofun⟩

theorem checkCompletion_error {result : OperationAuthorizationResult}
    (refused : S.checkCompletion P entry request signedMandate method now = .error result) :
    result.approved = false := by
  unfold checkCompletion at refused
  split at refused
  · cases refused
    rfl
  · split_ifs at refused
    · cases refused
      rfl
    · cases refused
      rfl
    · split at refused
      · cases refused
        rfl
      · split_ifs at refused
        · cases refused
          rfl
        · split at refused
          · cases refused
          · cases refused
            rfl

theorem checkCompletion_ok {entry : PendingOperation} {request signedMandate : JsonDict}
    {method : Option UserSignatureMethod} {now : Int}
    (checked : S.checkCompletion P entry request signedMandate method now = .ok ()) :
    ∃ operation, normalizeOperation P (request.get "operation") = .ok operation ∧
      (Json.obj operation).beq (.obj entry.operation) = true ∧
      mandateMatchesPending signedMandate entry.mandate (normalizeOperationMandate P) = true ∧
      verifyOperationMandateForCompletion P signedMandate
        { expected := some operation
          expectedUserId := some (strOrEmpty P entry.request "userId")
          requireUserSignature := S.requireUserSignature
          userSignatureMethod := method } now = .ok () := by
  unfold checkCompletion at checked
  split at checked
  · cases checked
  · rename_i operation normalizes
    split_ifs at checked with mismatch differs
    split at checked
    · cases checked
    · split_ifs at checked
      split at checked
      · rename_i verified
        exact ⟨operation, normalizes, by simpa using mismatch, by simpa using differs, verified⟩
      · cases checked

theorem complete_cases {result : OperationAuthorizationResult}
    (step : S.complete P pending request method now = (result, pending')) :
    (∃ signedMandate id entry, result.approved = true ∧
        getObject request "signedMandate" = some signedMandate ∧
        mandateIdentifier P signedMandate = .ok id ∧ pending.get? id = some entry ∧
        S.checkCompletion P entry request signedMandate method now = .ok () ∧
        pending' = pending.erase id) ∨ pending' = pending ∧ result.approved = false := by
  unfold complete at step
  split at step
  · cases step
    exact .inr ⟨rfl, rfl⟩
  · rename_i signedMandate found
    split at step
    · cases step
      exact .inr ⟨rfl, rfl⟩
    · rename_i id identified
      split at step
      · cases step
        exact .inr ⟨rfl, rfl⟩
      · rename_i entry there
        split at step
        · rename_i refused
          cases step
          exact .inr ⟨rfl, checkCompletion_error refused⟩
        · rename_i checked
          cases step
          exact .inl ⟨signedMandate, id, entry, rfl, found, identified, there, checked, rfl⟩

theorem complete_of_checked (found : getObject request "signedMandate" = some signedMandate)
    (identified : mandateIdentifier P signedMandate = .ok id) (there : pending.get? id = some entry)
    (checked : S.checkCompletion P entry request signedMandate method now = .ok ()) :
    S.complete P pending request method now =
      ({ operationId := some id, approved := true, verificationResult := some (.ok none) },
        pending.erase id) := by
  simp only [complete, found, identified, there, checked]

variable (step : S.Serves P pending l pending')

include step

theorem prepares_some (issued : prepares P l = some (id, entry)) :
    approves P l = none ∧ NormalOperationMandate P entry.mandate ∧
      pending' = pending.insert id entry := by
  obtain ⟨call, reply⟩ := l
  cases call with
  | prune now => cases issued
  | complete request method now => cases issued
  | prepare request method now random =>
    cases served : S.prepare P pending request method now random with
    | mk answer after =>
      rw [Serves, serve, served] at step
      cases step
      rcases prepare_cases served with
        ⟨id', operation, mandate, options, rfl, normal, identified, normalizes, rfl⟩ | ⟨_, none⟩
      · simp only [prepares, Option.bind_some, identified, normalizes, Except.toOption,
          Option.map_some, Option.some.injEq, Prod.mk.injEq] at issued
        obtain ⟨rfl, rfl⟩ := issued
        exact ⟨rfl, normal, rfl⟩
      · cases answer with
        | error e => cases issued
        | ok challenge =>
          simp only [prepares, none challenge rfl] at issued
          cases issued

theorem approves_some (taken : approves P l = some id) :
    prepares P l = none ∧ ∃ request method now signedMandate entry,
      l.1 = .complete request method now ∧
      getObject request "signedMandate" = some signedMandate ∧ pending.get? id = some entry ∧
      S.checkCompletion P entry request signedMandate method now = .ok () ∧
      pending' = pending.erase id := by
  obtain ⟨call, reply⟩ := l
  cases call with
  | prune now => cases taken
  | prepare request method now random => cases taken
  | complete request method now =>
    cases served : S.complete P pending request method now with
    | mk result after =>
      rw [Serves, serve, served] at step
      cases step
      rcases complete_cases served with
        ⟨signedMandate, id', entry, approved, found, identified, there, checked, rfl⟩ |
        ⟨_, refused⟩
      · simp only [approves, approved, if_true, found, Option.bind_some, identified,
          Except.toOption, Option.some.injEq] at taken
        subst taken
        exact ⟨rfl, request, method, now, signedMandate, entry, rfl, found, there, checked, rfl⟩
      · simp only [approves, refused] at taken
        cases taken

theorem serves_kept (unprepared : prepares P l = none) (unapproved : approves P l = none) :
    pending' = pending ∨ ∃ now, l.1 = .prune now ∧ pending' = pruneExpired pending now := by
  obtain ⟨call, reply⟩ := l
  cases call with
  | prune now =>
    cases step
    exact .inr ⟨now, rfl, rfl⟩
  | prepare request method now random =>
    left
    cases served : S.prepare P pending request method now random with
    | mk answer after =>
      rw [Serves, serve, served] at step
      cases step
      rcases prepare_cases served with
        ⟨id, operation, mandate, options, rfl, _, identified, normalizes, _⟩ | ⟨kept, _⟩
      · simp [prepares, identified, normalizes, Except.toOption] at unprepared
      · exact kept
  | complete request method now =>
    left
    cases served : S.complete P pending request method now with
    | mk result after =>
      rw [Serves, serve, served] at step
      cases step
      rcases complete_cases served with
        ⟨signedMandate, id, entry, approved, found, identified, _⟩ | ⟨kept, _⟩
      · simp [approves, approved, found, identified, Except.toOption] at unapproved
      · exact kept

omit step

theorem get?_pruneExpired : (pruneExpired pending now).get? id = some entry ↔
      pending.get? id = some entry ∧ now < entry.expireAtEpoch := by
  rw [pruneExpired, OrderedMap.get?_retain]
  simp

/-- The sections of the service issue, take and drop pending operations. -/
theorem operation_oneShot : OneShot (S.Serves P) (prepares P) (approves P) where
  issue := by
    intro pending l pending' id entry step issued
    obtain ⟨unapproved, _, inserted⟩ := prepares_some step issued
    exact ⟨unapproved, inserted⟩
  take := by
    intro pending l pending' id step taken
    obtain ⟨unprepared, _, _, _, _, entry, _, _, there, _, erased⟩ := approves_some step taken
    exact ⟨unprepared, ⟨entry, there⟩, erased⟩
  keep := by
    intro pending l pending' step unprepared unapproved id entry there
    rcases serves_kept step unprepared unapproved with rfl | ⟨now, _, rfl⟩
    · exact there
    · exact (get?_pruneExpired.mp there).1

theorem approves_mayApprove (step : S.Serves P pending l pending') (taken : approves P l = some id)
    (there : pending.get? id = some entry) (normal : NormalOperationMandate P entry.mandate) :
    S.MayApprove P entry l := by
  obtain ⟨_, request, method, now, signedMandate, entry', call, found, there', checked, _⟩ :=
    approves_some step taken
  rw [there, Option.some.injEq] at there'
  subst there'
  obtain ⟨operation, normalizes, current, same, verified⟩ := checkCompletion_ok checked
  obtain ⟨normalized, normalizes', server, user⟩ := verifyOperationMandate_ok verified
  rw [mandateMatchesPending, normalizes', normal.fixed] at same
  exact ⟨request, method, now, signedMandate, operation, normalized, call, found, normalizes,
    current, normalizes', same, server, user⟩

theorem operation_takenOnce : TakenOnce (S.Serves P) (prepares P) (approves P) (S.MayApprove P) :=
  operation_oneShot.takenOnce (fun step issued => (prepares_some step issued).2.1)
    approves_mayApprove

end OperationAuthorizationService

end AgentProtocols.A4P
