import AgentProtocols.A4P.Intent.Service
import AgentProtocols.Lib.OneShot

/-!
Approvals of prepared intent mandates. Each call meets the map of pending mandates in one section;
`intent_oneShot` says that the sections only issue, take and keep entries, and a completion that
verifies is issued its token (`issueIntentToken_ok`).
-/

namespace AgentProtocols.A4P

open Json Lib

/-- A call, with the signature method, the clock and the random bytes that it finds. -/
inductive IntentCall where
  | prepare (request : JsonDict) (method : Option UserSignatureMethod) (now : Int)
      (random : Bytes)
  | complete (request : JsonDict) (method : Option UserSignatureMethod) (now issuedAt : Int)
      (random : TokenRandom)

abbrev IntentReply := Except A4PError IntentAuthorizationResponse

namespace IntentAuthorizationService

variable (P : Platform) (S : IntentAuthorizationService)

def serve (pending : PendingIntents) : IntentCall → IntentReply × PendingIntents
  | .prepare request method now random => S.prepare P pending request method now random
  | .complete request method now issuedAt random =>
    S.complete P pending request method now issuedAt random

/-- The service answers the call so. -/
def Serves (pending : PendingIntents) (l : IntentCall × IntentReply) (pending' : PendingIntents) :
    Prop :=
  S.serve P pending l.1 = (l.2, pending')

/-- The mandate a call prepares, with its id and its request. -/
def prepares : IntentCall × IntentReply → Option (String × PendingIntent)
  | (.prepare request _ _ _, .ok response) =>
    response.mandate.bind fun mandate =>
      (mandateIdentifier P mandate).toOption.map fun id => (id, ⟨request, mandate⟩)
  | _ => none

/-- The id of the mandate a call approves. -/
def approves : IntentCall × IntentReply → Option String
  | (.complete request _ _ _ _, .ok response) =>
    if response.approved then
      (getObject request "signedMandate").bind fun mandate =>
        (mandateIdentifier P mandate).toOption
    else none
  | _ => none

/-- The signed mandate is the prepared one, and both signatures verify. -/
def MayApprove (entry : PendingIntent) (l : IntentCall × IntentReply) : Prop :=
  ∃ request method now issuedAt random signedMandate normalized,
    l.1 = .complete request method now issuedAt random ∧
    getObject request "signedMandate" = some signedMandate ∧
    normalizeIntentMandate P signedMandate = .ok normalized ∧
    (Json.obj (clearUserSignature normalized)).beq (.obj (clearUserSignature entry.mandate)) =
      true ∧
    ServerSigned P normalized (intentMandateCorePayload P normalized) P.intentServerSigningKey ∧
    UserSigned normalized
      (intentUserSignatureContext P normalized (some (strOrEmpty P entry.request "userId")))
      (some (strOrEmpty P entry.request "userId")) method S.requireUserSignature

variable {P S}

variable {pending' : PendingIntents} {now : Int} {entry : PendingIntent}
  {method : Option UserSignatureMethod}

theorem prepareInner_ok {request intent : JsonDict}
    {random : Bytes} {id : String} {mandate options : JsonDict}
    (prepared : S.prepareInner P request intent method now random = .ok (id, mandate, options)) :
    NormalIntentMandate P mandate ∧ mandateIdentifier P mandate = .ok id := by
  obtain ⟨agentId, _, userId, _, validity, _, _, _, prepared⟩ := bind₄_eq_ok.mp prepared
  obtain ⟨created, normal, identifier, identified, signingOptions, _, eq⟩ := bind₃_eq_ok.mp prepared
  cases eq
  exact ⟨createIntentMandate_normal normal, identified⟩

theorem prepare_cases {pending : PendingIntents} {request : JsonDict}
    {random : Bytes} {reply : IntentReply}
    (step : S.prepare P pending request method now random = (reply, pending')) :
    (∃ id mandate options, reply = .ok { mandate := some mandate, signingOptions := options } ∧
        NormalIntentMandate P mandate ∧ mandateIdentifier P mandate = .ok id ∧
        pending' = pending.insert id ⟨request, mandate⟩) ∨
      pending' = pending ∧ ∀ response, reply = .ok response → response.mandate = none := by
  unfold prepare at step
  split at step
  · rename_i id mandate options prepared
    cases step
    obtain ⟨normal, identified⟩ := prepareInner_ok prepared
    exact .inl ⟨id, mandate, options, rfl, normal, identified, rfl⟩
  · right
    split at step
    · split at step
      · cases step
        exact ⟨rfl, fun _ eq => by cases eq; rfl⟩
      · cases step
        exact ⟨rfl, fun _ eq => by cases eq; rfl⟩
    · split at step
      · cases step
        exact ⟨rfl, fun _ eq => by cases eq; rfl⟩
      · cases step
        exact ⟨rfl, nofun⟩

theorem checkCompletion_error {signedMandate : JsonDict} {response : IntentAuthorizationResponse}
    (refused : S.checkCompletion P entry signedMandate method now = .error response) :
    response.approved = false := by
  unfold checkCompletion at refused
  split at refused
  · split at refused
    · cases refused
    · cases refused
      rfl
  · cases refused
    rfl

theorem checkCompletion_ok {signedMandate : JsonDict}
    (checked : S.checkCompletion P entry signedMandate method now = .ok ()) :
    mandateMatchesPending signedMandate entry.mandate (normalizeIntentMandate P) = true ∧
      verifyIntentMandate P signedMandate
        { expectedServer := some (requestServer P entry.request S.serverId)
          expectedUserId := some (strOrEmpty P entry.request "userId")
          requireUserSignature := S.requireUserSignature
          userSignatureMethod := method } now = .ok () := by
  unfold checkCompletion at checked
  split at checked
  · rename_i same
    split at checked
    · rename_i verified
      exact ⟨same, verified⟩
    · cases checked
  · cases checked

theorem complete_cases (blank : ∀ text, trim text = "" → P.parseIsoZ text = none)
    {pending : PendingIntents} {request : JsonDict} {issuedAt : Int} {random : TokenRandom}
    {reply : IntentReply}
    (step : S.complete P pending request method now issuedAt random = (reply, pending')) :
    (∃ response signedMandate id entry, reply = .ok response ∧ response.approved = true ∧
        getObject request "signedMandate" = some signedMandate ∧
        mandateIdentifier P signedMandate = .ok id ∧ pending.get? id = some entry ∧
        S.checkCompletion P entry signedMandate method now = .ok () ∧ pending' = pending.erase id) ∨
      pending' = pending ∧ ∀ response, reply = .ok response → response.approved = false := by
  unfold complete at step
  split at step
  · cases step
    exact .inr ⟨rfl, fun _ eq => by cases eq; rfl⟩
  · rename_i signedMandate found
    split at step
    · cases step
      exact .inr ⟨rfl, fun _ eq => by cases eq; rfl⟩
    · rename_i id identified
      split at step
      · cases step
        exact .inr ⟨rfl, fun _ eq => by cases eq; rfl⟩
      · rename_i entry there
        split at step
        · rename_i response refused
          cases step
          exact .inr ⟨rfl, fun _ eq => by cases eq; exact checkCompletion_error refused⟩
        · rename_i checked
          obtain ⟨token, issued⟩ : ∃ token, issueIntentToken P signedMandate
              ⟨(truthyText P entry.request "userId").getD "user:unknown", true,
                S.requireUserSignature, none⟩ issuedAt random = .ok token :=
            issueIntentToken_ok blank (checkCompletion_ok checked).2 identified rfl
          simp only [issued] at step
          cases step
          exact .inl ⟨_, signedMandate, id, entry, rfl, rfl, found, identified, there, checked, rfl⟩

theorem prepares_some {pending : PendingIntents} {l : IntentCall × IntentReply}
    {id : String} (step : S.Serves P pending l pending')
    (issued : prepares P l = some (id, entry)) :
    approves P l = none ∧ NormalIntentMandate P entry.mandate ∧
      pending' = pending.insert id entry := by
  obtain ⟨call, reply⟩ := l
  cases call with
  | complete request method now issuedAt random => cases reply <;> cases issued
  | prepare request method now random =>
    rcases prepare_cases step with ⟨id', mandate, options, rfl, normal, identified, rfl⟩ | ⟨_, none⟩
    · simp only [prepares, Option.bind_some, identified, Except.toOption, Option.map_some,
        Option.some.injEq, Prod.mk.injEq] at issued
      obtain ⟨rfl, rfl⟩ := issued
      exact ⟨rfl, normal, rfl⟩
    · cases reply with
      | error e => cases issued
      | ok response =>
        simp only [prepares, none response rfl] at issued
        cases issued

variable (blank : ∀ text, trim text = "" → P.parseIsoZ text = none)

include blank

theorem approves_some {pending : PendingIntents} {l : IntentCall × IntentReply} {id : String}
    (step : S.Serves P pending l pending') (taken : approves P l = some id) :
    prepares P l = none ∧ ∃ request method now issuedAt random signedMandate entry,
      l.1 = .complete request method now issuedAt random ∧
      getObject request "signedMandate" = some signedMandate ∧ pending.get? id = some entry ∧
      S.checkCompletion P entry signedMandate method now = .ok () ∧
      pending' = pending.erase id := by
  obtain ⟨call, reply⟩ := l
  cases call with
  | prepare request method now random => cases reply <;> cases taken
  | complete request method now issuedAt random =>
    rcases complete_cases blank step with
      ⟨response, signedMandate, id', entry, rfl, approved, found, identified, there, checked,
        rfl⟩ | ⟨_, refused⟩
    · simp only [approves, approved, if_true, found, Option.bind_some, identified,
        Except.toOption, Option.some.injEq] at taken
      subst taken
      exact ⟨rfl, request, method, now, issuedAt, random, signedMandate, entry, rfl, found,
        there, checked, rfl⟩
    · cases reply with
      | error e => cases taken
      | ok response =>
        simp only [approves, refused response rfl] at taken
        cases taken

theorem serves_kept {pending : PendingIntents} {l : IntentCall × IntentReply}
    (step : S.Serves P pending l pending') (unprepared : prepares P l = none)
    (unapproved : approves P l = none) : pending' = pending := by
  obtain ⟨call, reply⟩ := l
  cases call with
  | prepare request method now random =>
    rcases prepare_cases step with ⟨id, mandate, options, rfl, _, identified, _⟩ | ⟨kept, _⟩
    · simp [prepares, identified, Except.toOption] at unprepared
    · exact kept
  | complete request method now issuedAt random =>
    rcases complete_cases blank step with
      ⟨response, signedMandate, id, entry, rfl, approved, found, identified, _⟩ | ⟨kept, _⟩
    · simp [approves, approved, found, identified, Except.toOption] at unapproved
    · exact kept

theorem intent_oneShot : OneShot (S.Serves P) (prepares P) (approves P) where
  issue := by
    intro pending l pending' id entry step issued
    obtain ⟨unapproved, _, inserted⟩ := prepares_some step issued
    exact ⟨unapproved, inserted⟩
  take := by
    intro pending l pending' id step taken
    obtain ⟨unprepared, _, _, _, _, _, _, entry, _, _, there, _, erased⟩ :=
      approves_some blank step taken
    exact ⟨unprepared, ⟨entry, there⟩, erased⟩
  keep := by
    intro pending l pending' step unprepared unapproved id entry there
    rwa [serves_kept blank step unprepared unapproved] at there

theorem approves_mayApprove {pending : PendingIntents} {l : IntentCall × IntentReply} {id : String}
    (step : S.Serves P pending l pending')
    (taken : approves P l = some id) (there : pending.get? id = some entry)
    (normal : NormalIntentMandate P entry.mandate) : S.MayApprove P entry l := by
  obtain ⟨_, request, method, now, issuedAt, random, signedMandate, entry', call, found, there',
    checked, _⟩ := approves_some blank step taken
  rw [there, Option.some.injEq] at there'
  subst there'
  obtain ⟨same, verified⟩ := checkCompletion_ok checked
  obtain ⟨_, normalized, normalizes, server, user, _⟩ := verifyIntentMandate_ok verified
  rw [mandateMatchesPending, normalizes, normal.fixed] at same
  exact ⟨request, method, now, issuedAt, random, signedMandate, normalized, call, found,
    normalizes, same, server, user⟩

theorem intent_takenOnce : TakenOnce (S.Serves P) (prepares P) (approves P) (S.MayApprove P) :=
  (intent_oneShot blank).takenOnce (fun step issued => (prepares_some step issued).2.1)
    (approves_mayApprove blank)

omit blank

end IntentAuthorizationService

end AgentProtocols.A4P
