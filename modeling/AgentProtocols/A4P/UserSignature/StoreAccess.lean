import AgentProtocols.A4P.UserSignature.Ed25519
import AgentProtocols.A4P.UserSignature.WebAuthn
import AgentProtocols.Lib.Runs

/-!
Concurrent calls of the user-signature methods on one credential store. An `Access` is one atomic
access, and a state keeps what each call is about to write. The results about runs use only
`save_step` and `lookup_step`.
-/

namespace AgentProtocols.A4P

open Json Lib

/-- What a call is about to save. -/
inductive PendingSave where
  /-- `register` found no record of the key. -/
  | registered (record : UserCredentialRecord)
  /-- `verify_registration` accepted the response. -/
  | attested (record : UserCredentialRecord)
  /-- `verify` accepted the assertion over the record it read. -/
  | asserted (read updated : UserCredentialRecord)

def PendingSave.record : PendingSave → UserCredentialRecord
  | registered record => record
  | attested record => record
  | asserted _ updated => updated

/-- The store, the challenges, the calls between two accesses, and the accepted assertions. -/
structure CallState where
  store : InMemoryCredentialStore
  challenges : RegistrationChallenges
  calls : OrderedMap Nat PendingSave
  accepted : List (String × Nat)

def CallState.idle (store : InMemoryCredentialStore) (challenges : RegistrationChallenges) :
    CallState :=
  ⟨store, challenges, .empty, []⟩

/-- One atomic access of a call. -/
inductive Access where
  /-- `register` up to its save. -/
  | register (call : Nat) (request : JsonDict) (now : Int) (random : Bytes)
  | registrationOptions (userId : String) (userName userDisplayName : Option String)
      (challenge random : Bytes)
  | verifyRegistration (call : Nat) (payload : JsonDict) (now : Int)
  /-- `verify` up to its save. -/
  | verify (call : Nat) (context : UserSignatureContext) (signature : JsonDict)
  /-- The save of a call, with which it succeeds. -/
  | save (call : Nat)

/-- An access of a `verify` call, or a save. -/
def Access.ofVerify : Access → Bool
  | verify _ _ _ => true
  | save _ => true
  | _ => false

/-- What an accepted assertion adds to the record of assertions. -/
def acceptedBy : PendingSave → List (String × Nat)
  | .asserted _ updated => [(updated.credentialId, currentSignCount updated)]
  | _ => []

variable (W : WebAuthnPlatform) (M : WebAuthnSignatureMethod)

/-- `register` over the store: the save it asks for, if it gets that far. -/
def registerSave (store : InMemoryCredentialStore) (request : JsonDict) (now : Int)
    (random : Bytes) : Option PendingSave :=
  match registerRecord W.toPlatform store.listAll request now random with
  | .ok (.created record) => some (.registered record)
  | _ => none

/-- `verify_registration` after it took its challenge. -/
def registrationSave (taken : Except A4PError (String × Bytes)) (payload : JsonDict) (now : Int) :
    Option PendingSave :=
  match taken with
  | .error _ => none
  | .ok (userId, challenge) =>
    match registrationRecord W M userId challenge payload now with
    | .error _ => none
    | .ok record => some (.attested record)

/-- `verify` over the store. -/
def assertionSave (store : InMemoryCredentialStore) (context : UserSignatureContext)
    (signature : JsonDict) : Option PendingSave :=
  let credentialId := strTrimmed W.toPlatform signature "credentialId"
  if credentialId = "" then none
  else
    match store.get credentialId with
    | none => none
    | some record =>
      match assertedRecord W M (some record) context signature with
      | .error _ => none
      | .ok updated => some (.asserted record updated)

/-- A call that is not yet between its accesses gets there, or ends without a
save. -/
def CallState.enter (s : CallState) (call : Nat) (pending : Option PendingSave) :
    Option CallState :=
  match s.calls.get? call, pending with
  | some _, _ => none
  | none, none => some s
  | none, some p => some { s with calls := s.calls.insert call p }

/-- One access; undefined where the call is not at that access. -/
def CallState.step (s : CallState) : Access → Option CallState
  | .register call request now random =>
    s.enter call (registerSave W s.store request now random)
  | .registrationOptions userId userName userDisplayName challenge random =>
    some { s with
      challenges := (A4P.registrationOptions M s.challenges (s.store.listForUser userId) userId
        userName userDisplayName challenge random).2 }
  | .verifyRegistration call payload now =>
    let (taken, challenges) := takeChallenge W s.challenges payload
    CallState.enter { s with challenges := challenges } call
      (registrationSave W M taken payload now)
  | .verify call context signature =>
    s.enter call (assertionSave W M s.store context signature)
  | .save call =>
    match s.calls.get? call with
    | none => none
    | some p =>
      some { s with
        store := s.store.save p.record
        calls := s.calls.erase call
        accepted := acceptedBy p ++ s.accepted }

variable {W M}

theorem save_step {s t : CallState} {call : Nat} (step : s.step W M (.save call) = some t) :
    ∃ p, s.calls.get? call = some p ∧ t.store = s.store.save p.record ∧
      t.calls = s.calls.erase call ∧ t.accepted = acceptedBy p ++ s.accepted := by
  simp only [CallState.step] at step
  cases pending : s.calls.get? call with
  | none => rw [pending] at step; cases step
  | some p =>
    rw [pending] at step
    cases step
    exact ⟨p, rfl, rfl, rfl, rfl⟩

/-- An assertion saves the record it read with another sign count. -/
def PendingSave.FromStore (store : InMemoryCredentialStore) : PendingSave → Prop
  | .registered record => record.signatureMethod = ed25519SignatureMethod
  | .attested record => record.signatureMethod = webauthnSignatureMethod
  | .asserted read updated => store.get read.credentialId = some read ∧
      ∃ new < 2 ^ 32, signCountAccepted new (currentSignCount read) = true ∧
        updated = { read with
          details := read.details.insert "signCount" (.num (.ofI64 (Int.ofNat new))) }

theorem enter_cases {s t : CallState} {call : Nat} {pending : Option PendingSave}
    (step : s.enter call pending = some t) :
    t = s ∨ ∃ p, pending = some p ∧ t = { s with calls := s.calls.insert call p } := by
  unfold CallState.enter at step
  split at step
  · cases step
  · cases step
    exact .inl rfl
  · cases step
    exact .inr ⟨_, rfl, rfl⟩

variable {p : PendingSave} {now : Int} {random : Bytes} {request : JsonDict}

theorem registerSave_fromStore {store : InMemoryCredentialStore}
    (asked : registerSave W store request now random = some p) : p.FromStore store := by
  unfold registerSave at asked
  split at asked
  · rename_i record created
    cases asked
    exact registerRecord_created W.toPlatform created
  · cases asked

theorem registrationSave_fromStore {taken : Except A4PError (String × Bytes)} {payload : JsonDict}
    (store : InMemoryCredentialStore)
    (asked : registrationSave W M taken payload now = some p) : p.FromStore store := by
  unfold registrationSave at asked
  split at asked
  · cases asked
  · split at asked
    · cases asked
    · rename_i record accepted
      cases asked
      exact registrationRecord_method W accepted

theorem assertionSave_fromStore {store : InMemoryCredentialStore} {context : UserSignatureContext}
    {signature : JsonDict}
    (asked : assertionSave W M store context signature = some p) : p.FromStore store := by
  unfold assertionSave at asked
  extract_lets credentialId at asked
  split at asked
  · cases asked
  · split at asked
    · cases asked
    · rename_i record found
      split at asked
      · cases asked
      · rename_i updated accepted
        cases asked
        obtain ⟨record', new, same, bound, counted, eq⟩ := assertedRecord_eq W accepted
        cases same
        refine ⟨?_, new, bound, counted, eq⟩
        rw [(InMemoryCredentialStore.get_eq_some_iff.mp found).2]
        exact found

theorem lookup_step {s t : CallState} {a : Access} (notSave : ∀ call, a ≠ .save call)
    (step : s.step W M a = some t) :
    t.store = s.store ∧ t.accepted = s.accepted ∧
      (t.calls = s.calls ∨ ∃ call p, p.FromStore s.store ∧ t.calls = s.calls.insert call p) := by
  cases a with
  | register call request now random =>
    rcases enter_cases step with rfl | ⟨p, asked, rfl⟩
    · exact ⟨rfl, rfl, .inl rfl⟩
    · exact ⟨rfl, rfl, .inr ⟨call, p, registerSave_fromStore asked, rfl⟩⟩
  | registrationOptions userId userName userDisplayName challenge random =>
    cases step
    exact ⟨rfl, rfl, .inl rfl⟩
  | verifyRegistration call payload now =>
    rcases enter_cases step with rfl | ⟨p, asked, rfl⟩
    · exact ⟨rfl, rfl, .inl rfl⟩
    · exact ⟨rfl, rfl, .inr ⟨call, p, registrationSave_fromStore s.store asked, rfl⟩⟩
  | verify call context signature =>
    rcases enter_cases step with rfl | ⟨p, asked, rfl⟩
    · exact ⟨rfl, rfl, .inl rfl⟩
    · exact ⟨rfl, rfl, .inr ⟨call, p, assertionSave_fromStore asked, rfl⟩⟩
  | save call => exact absurd rfl (notSave call)

end AgentProtocols.A4P
