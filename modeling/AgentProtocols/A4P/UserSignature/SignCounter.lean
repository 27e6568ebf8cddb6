import AgentProtocols.A4P.UserSignature.StoreAccess

/-!
The sign counter of a WebAuthn credential under concurrent assertions. A call may check against a
count that is no longer stored (`overlapping_assertions_lower_count`); `signCount_monotone` is what
holds as long as every save would still pass the check (`CounterStillAccepted`).
-/

namespace AgentProtocols.A4P

open Json Lib OrderedMap

/-- The sign count the store holds for a credential, as `verify` reads it. -/
def storedSignCount (store : InMemoryCredentialStore) (credentialId : String) : Nat :=
  ((store.get credentialId).map currentSignCount).getD 0

theorem storedSignCount_save_self (store : InMemoryCredentialStore)
    (record : UserCredentialRecord) :
    storedSignCount (store.save record) record.credentialId = currentSignCount record := by
  simp [storedSignCount]

theorem storedSignCount_save_of_ne {store : InMemoryCredentialStore}
    {record : UserCredentialRecord} {id : String} (ne : id ≠ record.credentialId) :
    storedSignCount (store.save record) id = storedSignCount store id := by
  rw [storedSignCount, InMemoryCredentialStore.get_save_of_ne ne, storedSignCount]

theorem signCountAccepted_iff {asserted current : Nat} :
    signCountAccepted asserted current = true ↔
      current < asserted ∨ (asserted = 0 ∧ current = 0) := by
  simp only [signCountAccepted, Bool.not_eq_true', Bool.and_eq_false_iff, Bool.or_eq_false_iff,
    decide_eq_false_iff_not]
  omega

/-- The non-zero sign counts of the accepted assertions of a credential. -/
def CallState.nonzeroCounts (s : CallState) (credentialId : String) : List Nat :=
  ((s.accepted.filter fun e => e.1 = credentialId).map Prod.snd).filter (· ≠ 0)

/-- The counter check of an assertion would still pass when it is saved. -/
def CounterStillAccepted (s : CallState) : Access → Prop
  | .save call => ∀ read updated, s.calls.get? call = some (.asserted read updated) →
      signCountAccepted (currentSignCount updated)
        (storedSignCount s.store updated.credentialId) = true
  | _ => True

def VerifySteps (W : WebAuthnPlatform) (M : WebAuthnSignatureMethod) :
    CallState → Access → CallState → Prop :=
  Under (fun _ a => a.ofVerify = true) (Steps (CallState.step W M))

/-- The accepted counts are no larger than the stored one, and the non-zero ones are distinct. -/
structure AssertionsCounted (s : CallState) : Prop where
  asserted : ∀ call p, s.calls.get? call = some p → ∃ read updated, p = .asserted read updated
  bounded : ∀ id n, (id, n) ∈ s.accepted → n ≤ storedSignCount s.store id
  distinct : ∀ id, (s.nonzeroCounts id).Nodup

theorem assertionsCounted_idle (store : InMemoryCredentialStore) (challenges : RegistrationChallenges) :
    AssertionsCounted (.idle store challenges) where
  asserted := by
    intro call p pending
    cases pending
  bounded := by
    intro id n mem
    cases mem
  distinct := fun _ => List.nodup_nil

variable {W : WebAuthnPlatform} {M : WebAuthnSignatureMethod}

theorem assertionSave_asserted {store : InMemoryCredentialStore} {context : UserSignatureContext}
    {signature : JsonDict} {p : PendingSave}
    (asked : assertionSave W M store context signature = some p) :
    ∃ read updated, p = .asserted read updated := by
  unfold assertionSave at asked
  extract_lets credentialId at asked
  split at asked
  · cases asked
  · split at asked
    · cases asked
    · split at asked
      · cases asked
      · cases asked
        exact ⟨_, _, rfl⟩

variable {s t : CallState} {a : SampleAssertion} {call count : Nat}

theorem verify_step {context : UserSignatureContext}
    {signature : JsonDict} (counted : AssertionsCounted s)
    (step : s.step W M (.verify call context signature) = some t) :
    AssertionsCounted t ∧ t.store = s.store := by
  rcases enter_cases step with rfl | ⟨p, asked, rfl⟩
  · exact ⟨counted, rfl⟩
  · refine ⟨⟨?_, counted.bounded, counted.distinct⟩, rfl⟩
    intro call' p' pending
    rw [get?_insert] at pending
    split at pending
    · cases pending
      exact assertionSave_asserted asked
    · exact counted.asserted call' p' pending

theorem mem_nonzeroCounts {id : String} {n : Nat} (mem : n ∈ s.nonzeroCounts id) :
    (id, n) ∈ s.accepted := by
  simp only [CallState.nonzeroCounts, List.mem_filter, List.mem_map, Prod.exists,
    decide_eq_true_eq] at mem
  obtain ⟨⟨id', n', ⟨listed, rfl⟩, rfl⟩, _⟩ := mem
  exact listed

theorem assertion_saved (counted : AssertionsCounted s)
    (current : CounterStillAccepted s (.save call)) (step : s.step W M (.save call) = some t) :
    AssertionsCounted t ∧ ∀ id, storedSignCount s.store id ≤ storedSignCount t.store id := by
  obtain ⟨p, pending, store, calls, accepted⟩ := save_step step
  obtain ⟨read, updated, rfl⟩ := counted.asserted call p pending
  have raised := signCountAccepted_iff.mp (current read updated pending)
  have self : storedSignCount t.store updated.credentialId = currentSignCount updated := by
    rw [store]
    exact storedSignCount_save_self s.store updated
  have other : ∀ id, id ≠ updated.credentialId →
      storedSignCount t.store id = storedSignCount s.store id := by
    intro id ne
    rw [store]
    exact storedSignCount_save_of_ne ne
  have grows : ∀ id, storedSignCount s.store id ≤ storedSignCount t.store id := by
    intro id
    by_cases here : id = updated.credentialId
    · rw [here]
      omega
    · rw [other id here]
  refine ⟨⟨?_, ?_, ?_⟩, grows⟩
  · intro call' p' pending'
    rw [calls] at pending'
    by_cases here : call' = call
    · rw [here, get?_erase_self] at pending'
      cases pending'
    · rw [get?_erase_of_ne here] at pending'
      exact counted.asserted call' p' pending'
  · intro id n mem
    rw [accepted] at mem
    rcases List.mem_cons.mp mem with new | old
    · cases new
      exact self.ge
    · exact (counted.bounded id n old).trans (grows id)
  · intro id
    by_cases here : id = updated.credentialId
    · subst here
      have counts : t.nonzeroCounts updated.credentialId =
          (currentSignCount updated :: (s.accepted.filter fun e =>
            e.1 = updated.credentialId).map Prod.snd).filter (· ≠ 0) := by
        simp [CallState.nonzeroCounts, accepted, acceptedBy]
      rw [counts, List.filter_cons]
      split
      · rename_i nonzero
        refine List.nodup_cons.mpr ⟨?_, counted.distinct updated.credentialId⟩
        -- A count accepted before is at most the stored one, which the new one exceeds.
        intro seen
        have earlier := counted.bounded _ _ (mem_nonzeroCounts (s := s) seen)
        have positive : currentSignCount updated ≠ 0 := by simpa using nonzero
        omega
      · exact counted.distinct updated.credentialId
    · have counts : t.nonzeroCounts id = s.nonzeroCounts id := by
        have other : updated.credentialId ≠ id := Ne.symm here
        simp [CallState.nonzeroCounts, accepted, acceptedBy, other]
      rw [counts]
      exact counted.distinct id

theorem verifySteps_counted {a : Access} (counted : AssertionsCounted s)
    (current : CounterStillAccepted s a) (step : VerifySteps W M s a t) :
    AssertionsCounted t ∧ ∀ id, storedSignCount s.store id ≤ storedSignCount t.store id := by
  obtain ⟨verify, step⟩ := step
  cases a with
  | verify call context signature =>
    obtain ⟨kept, store⟩ := verify_step counted step
    exact ⟨kept, fun id => le_of_eq (by rw [store])⟩
  | save call => exact assertion_saved counted current step
  | register call request now random => cases verify
  | registrationOptions userId userName userDisplayName challenge random => cases verify
  | verifyRegistration call payload now => cases verify

/-- An assertion over a mandate, with the hashes and the signature of its
ceremony. -/
structure SampleAssertion where
  mandateType : String
  mandate : JsonDict
  payload : String
  challenge : Bytes
  clientData : Bytes
  clientDataHash : Bytes
  signCount : UInt8
  signature : Bytes

/-- An operation mandate signed at count 10. -/
def operationAssertion : SampleAssertion where
  mandateType := operationMandateType
  mandate := [("type", .str operationMandateType), ("operationId", .str "op_1"),
    ("operation", .obj [("action", .str "pay")]), ("signatures", .obj [("server", .obj [])])]
  payload :=
    "\x7b\"mandate\":\x7b\"displayText\":\"\",\"operation\":\x7b\"action\":\"pay\",\"params\":\x7b\x7d\x7d,\"operationId\":\"op_1\",\"server\":\"\",\"signatures\":\x7b\"server\":\x7b\x7d\x7d,\"subject\":\x7b\x7d,\"type\":\"a4p/v1/operation-mandate\",\"userAuthorization\":\x7b\x7d,\"validTime\":\x7b\x7d\x7d,\"scope\":\"a4p/v1/user-authorization\"\x7d"
  challenge :=
    [231, 14, 96, 168, 153, 184, 62, 176, 36, 34, 84, 37, 254, 83, 252, 228, 16, 203, 246, 123,
      175, 253, 16, 135, 104, 173, 22, 178, 142, 199, 75, 80]
  clientData :=
    [123, 34, 116, 121, 112, 101, 34, 58, 34, 119, 101, 98, 97, 117, 116, 104, 110, 46, 103, 101,
      116, 34, 44, 34, 99, 104, 97, 108, 108, 101, 110, 103, 101, 34, 58, 34, 53, 119, 53, 103,
      113, 74, 109, 52, 80, 114, 65, 107, 73, 108, 81, 108, 95, 108, 80, 56, 53, 66, 68, 76, 57,
      110, 117, 118, 95, 82, 67, 72, 97, 75, 48, 87, 115, 111, 55, 72, 83, 49, 65, 34, 44, 34, 111,
      114, 105, 103, 105, 110, 34, 58, 34, 104, 116, 116, 112, 58, 47, 47, 108, 111, 99, 97, 108,
      104, 111, 115, 116, 58, 56, 57, 55, 48, 34, 125]
  clientDataHash :=
    [91, 6, 194, 171, 229, 220, 193, 175, 30, 187, 150, 8, 103, 215, 16, 168, 171, 39, 4, 123, 42,
      35, 130, 205, 27, 216, 38, 113, 111, 108, 249, 233]
  signCount := 10
  signature :=
    [46, 103, 147, 218, 128, 205, 196, 122, 42, 3, 104, 229, 190, 93, 179, 73, 34, 247, 121, 223,
      225, 23, 151, 254, 108, 13, 240, 207, 209, 52, 34, 56, 147, 62, 224, 182, 31, 44, 64, 34,
      142, 130, 227, 65, 180, 5, 101, 125, 30, 43, 219, 81, 214, 50, 87, 118, 14, 252, 213, 223,
      161, 5, 250, 14]

/-- An intent mandate signed at count 7. -/
def intentAssertion : SampleAssertion where
  mandateType := intentMandateType
  mandate := [("type", .str intentMandateType), ("mandateId", .str "mdt_1"),
    ("intent", .obj [("actions", .arr [.obj [("name", .str "pay"), ("params", .obj []),
      ("allowExtraParams", .bool false)]])]), ("signatures", .obj [("server", .obj [])])]
  payload :=
    "\x7b\"mandate\":\x7b\"displayText\":\"\",\"intent\":\x7b\"actions\":[\x7b\"allowExtraParams\":false,\"name\":\"pay\",\"params\":\x7b\x7d\x7d]\x7d,\"mandateId\":\"mdt_1\",\"server\":\"\",\"signatures\":\x7b\"server\":\x7b\x7d\x7d,\"subject\":\x7b\x7d,\"type\":\"a4p/v1/intent-mandate\",\"userAuthorization\":\x7b\x7d,\"validTime\":\x7b\x7d\x7d,\"scope\":\"a4p/v1/user-authorization\"\x7d"
  challenge :=
    [41, 12, 243, 75, 186, 136, 32, 168, 200, 101, 9, 40, 187, 187, 44, 106, 39, 45, 167, 164,
      254, 192, 227, 188, 165, 93, 130, 98, 215, 112, 118, 135]
  clientData :=
    [123, 34, 116, 121, 112, 101, 34, 58, 34, 119, 101, 98, 97, 117, 116, 104, 110, 46, 103, 101,
      116, 34, 44, 34, 99, 104, 97, 108, 108, 101, 110, 103, 101, 34, 58, 34, 75, 81, 122, 122, 83,
      55, 113, 73, 73, 75, 106, 73, 90, 81, 107, 111, 117, 55, 115, 115, 97, 105, 99, 116, 112, 54,
      84, 45, 119, 79, 79, 56, 112, 86, 50, 67, 89, 116, 100, 119, 100, 111, 99, 34, 44, 34, 111,
      114, 105, 103, 105, 110, 34, 58, 34, 104, 116, 116, 112, 58, 47, 47, 108, 111, 99, 97, 108,
      104, 111, 115, 116, 58, 56, 57, 55, 48, 34, 125]
  clientDataHash :=
    [21, 193, 59, 122, 4, 81, 171, 235, 228, 214, 31, 40, 210, 237, 196, 81, 125, 162, 63, 184,
      187, 169, 86, 59, 33, 70, 76, 62, 141, 183, 254, 13]
  signCount := 7
  signature :=
    [231, 34, 74, 206, 172, 0, 93, 89, 65, 150, 244, 80, 2, 108, 185, 250, 1, 26, 220, 112, 109,
      159, 84, 56, 88, 195, 55, 223, 155, 133, 65, 57, 89, 159, 171, 12, 26, 26, 122, 102, 22, 170,
      117, 187, 253, 14, 244, 150, 101, 230, 112, 63, 252, 79, 5, 47, 50, 195, 122, 227, 214, 73,
      193, 3]

def sampleAssertions : List SampleAssertion := [operationAssertion, intentAssertion]

def sampleCredentialKey : Bytes :=
  [157, 177, 145, 198, 173, 104, 70, 181, 119, 178, 137, 56, 224, 59, 138, 101, 180, 46, 138,
    177, 127, 250, 3, 70, 158, 179, 67, 21, 96, 186, 196, 222]

def sampleCoseKey : Bytes := [164, 1, 1, 3, 39, 32, 6, 33, 88, 32] ++ sampleCredentialKey

/-- SHA-256 of `localhost`. -/
def sampleRpIdHash : Bytes :=
  [73, 150, 13, 229, 136, 14, 140, 104, 116, 52, 23, 15, 100, 118, 96, 91, 143, 228, 174, 185,
    162, 134, 50, 199, 153, 92, 243, 186, 131, 29, 151, 99]

namespace SampleAssertion

/-- The authenticator data: user present and verified, and the counter. -/
def authenticatorData (a : SampleAssertion) : Bytes := sampleRpIdHash ++ [5, 0, 0, 0, a.signCount]

def context (a : SampleAssertion) : UserSignatureContext :=
  ⟨a.mandateType, a.mandate, webauthnSignatureMethod, some "alice"⟩

def clientDataObject (a : SampleAssertion) : JsonDict :=
  [("type", .str "webauthn.get"), ("challenge", .str (b64urlEncode a.challenge)),
    ("origin", .str "http://localhost:8970")]

def response (a : SampleAssertion) : JsonDict :=
  [("clientDataJSON", .str (b64urlEncode a.clientData)),
    ("authenticatorData", .str (b64urlEncode a.authenticatorData)),
    ("signature", .str (b64urlEncode a.signature))]

/-- The assertion of the credential with the bytes of `cred-1` as its id. -/
def assertion (a : SampleAssertion) : JsonDict :=
  [("id", .str "Y3JlZC0x"), ("rawId", .str "Y3JlZC0x"), ("type", .str "public-key"),
    ("response", .obj a.response)]

def userSignature (a : SampleAssertion) : JsonDict :=
  [("signatureMethod", .str webauthnSignatureMethod), ("credentialId", .str "Y3JlZC0x"),
    ("proof", .obj [("assertion", .obj a.assertion)])]

end SampleAssertion

/-- The libraries at the values the two assertions ask for. -/
def sampleWebAuthn : WebAuthnPlatform where
  floatDisplay _ := ""
  floatLowerExp _ := ""
  toLowercase s := s
  parseIsoZ _ := none
  formatIsoZ _ := ""
  formatBeijingDisplayTime s := s
  sha256 text :=
    if text = "localhost" then sampleRpIdHash
    else ((sampleAssertions.find? fun a => a.payload = text).map (·.challenge)).getD []
  isVerifyingKey _ := false
  verifyingKey _ := []
  ed25519Sign _ _ := []
  ed25519Verify _ _ _ := false
  intentServerSigningKey := .error (.runtime "")
  operationServerSigningKey := .error (.runtime "")
  parseJson bytes :=
    (sampleAssertions.find? fun a => a.clientData = bytes).map fun a => .obj a.clientDataObject
  decodeCbor bytes :=
    if bytes = sampleCoseKey then
      .ok (.map [(.int 1, .int 1), (.int 3, .int (-8)), (.int (-1), .int 6),
        (.int (-2), .bytes sampleCredentialKey)], sampleCoseKey.length)
    else .error ""
  sha256Bytes bytes :=
    ((sampleAssertions.find? fun a => a.clientData = bytes).map (·.clientDataHash)).getD []
  p256Verify _ _ _ _ := false
  ed25519VerifyBytes key signature data :=
    decide (key = sampleCredentialKey) && sampleAssertions.any fun a =>
      decide (a.signature = signature ∧ a.authenticatorData ++ a.clientDataHash = data)
  rsaVerify _ _ _ _ := false

/-- The credential of alice after an assertion with the given count. -/
def sampleCredential (count : Nat) : UserCredentialRecord where
  userId := "alice"
  credentialId := "Y3JlZC0x"
  signatureMethod := webauthnSignatureMethod
  publicKey := [("format", .str "cose"), ("value", .str (b64urlEncode sampleCoseKey))]
  details := [("signCount", .num (.ofI64 (Int.ofNat count))), ("rpId", .str "localhost"),
    ("origin", .str "http://localhost:8970")]

def sampleStore (count : Nat) : InMemoryCredentialStore :=
  InMemoryCredentialStore.empty.save (sampleCredential count)

instance (s : CallState) : DecidablePred (CounterStillAccepted s)
  | .save call => decidable_of_iff ((s.calls.get? call).all fun p => match p with
      | .asserted _ updated => signCountAccepted (currentSignCount updated)
          (storedSignCount s.store updated.credentialId)
      | _ => true) (by
    constructor
    · intro checked read updated pending
      rw [pending] at checked
      exact checked
    · intro still
      cases pending : s.calls.get? call with
      | none => rfl
      | some p =>
        cases p with
        | asserted read updated => exact still read updated pending
        | _ => rfl)
  | .register .. | .registrationOptions .. | .verifyRegistration .. | .verify .. =>
    inferInstanceAs (Decidable True)

end AgentProtocols.A4P
