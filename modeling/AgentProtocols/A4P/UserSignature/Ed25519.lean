import AgentProtocols.A4P.CredentialStore
import AgentProtocols.A4P.UserSignature.Contracts

/-!
The registered Ed25519 signature method. `registerRecord` is `register` up to its save, which is
another access to the store.
-/

namespace AgentProtocols.A4P

open Json Lib

def ed25519SignatureMethod : String := "ed25519"

section

variable (P : Platform)

def normalizePublicJwk (value : Option Json) : Except A4PError JsonDict :=
  match value with
  | some (.obj jwk) =>
    if JsonDict.containsKey jwk "d" then
      .error (.value "publicKey must not contain private key material")
    else if (JsonDict.get jwk "kty").bind Json.asStr ≠ some "OKP" then
      .error (.value "publicKey.kty must be 'OKP'")
    else if (JsonDict.get jwk "crv").bind Json.asStr ≠ some "Ed25519" then
      .error (.value "publicKey.crv must be 'Ed25519'")
    else if JsonDict.containsKey jwk "alg" ∧
        (JsonDict.get jwk "alg").bind Json.asStr ≠ some "EdDSA" then
      .error (.value "publicKey.alg must be 'EdDSA'")
    else
      let encodedKey := strTrimmed P jwk "x"
      match ed25519PublicKeyFromBase64url P encodedKey with
      | .error e => .error e
      | .ok _ =>
        .ok [("kty", .str "OKP"), ("crv", .str "Ed25519"), ("x", .str encodedKey),
          ("alg", .str "EdDSA")]
  | _ => .error (.value "publicKey must be an OKP JWK object")

/-- What `register` finds out before it saves. -/
inductive RegisterOutcome where
  | existing (record : UserCredentialRecord)
  | created (record : UserCredentialRecord)

def registrationMetadata (request : JsonDict) : Except A4PError JsonDict :=
  match request.get "metadata" with
  | none => .ok []
  | some .null => .ok []
  | some (.obj metadata) => .ok metadata
  | some _ => .error (.value "metadata must be an object")

/-- `register` over all records, with the random bytes of the credential id. -/
def registerRecord (records : List UserCredentialRecord) (request : JsonDict) (now : Int)
    (random : Bytes) : Except A4PError RegisterOutcome :=
  let userId := strTrimmed P request "userId"
  if userId = "" then .error (.value "userId missing")
  else do
    let publicKey ← normalizePublicJwk P (request.get "publicKey")
    let metadata ← registrationMetadata request
    match records.find? fun record => record.signatureMethod = ed25519SignatureMethod ∧
        (Json.obj record.publicKey).beq (.obj publicKey) = true with
    | some found =>
      if found.userId ≠ userId then .error (.protocol .credentialKeyConflict)
      else .ok (.existing found)
    | none =>
      .ok (.created
        { userId := userId
          credentialId := "cred_" ++ b64urlEncode random
          signatureMethod := ed25519SignatureMethod
          publicKey := publicKey
          metadata := metadata
          createdAt := P.formatIsoZ now })

theorem registerRecord_created {records : List UserCredentialRecord} {request : JsonDict}
    {now : Int} {random : Bytes} {record : UserCredentialRecord}
    (h : registerRecord P records request now random = .ok (.created record)) :
    record.signatureMethod = ed25519SignatureMethod := by
  unfold registerRecord at h
  extract_lets userId at h
  split_ifs at h with missing
  obtain ⟨publicKey, _, metadata, _, h⟩ := bind₂_eq_ok.mp h
  split at h
  · split_ifs at h
    cases h
  · cases h
    rfl

/-! ### Signing options and verification -/

/-- `signing_options`, over what the store holds. -/
def ed25519SigningOptions (store : InMemoryCredentialStore) (userId : String) :
    Except A4PError JsonDict :=
  let credentialIds := ((store.listForUser userId).filter fun record =>
    record.signatureMethod = ed25519SignatureMethod).map fun record => Json.str record.credentialId
  if credentialIds.isEmpty then
    .error (.protocol (.userCredentialNotRegistered userId ed25519SignatureMethod))
  else
    .ok [("signatureMethod", .str ed25519SignatureMethod),
      ("methodOptions", .obj [("allowedCredentialIds", .arr credentialIds)])]

/-- The owner of the credential must be the expected user, when one is. -/
def checkCredentialUser (record : UserCredentialRecord) : Option String → Except String Unit
  | none => .ok ()
  | some expectedUserId =>
    if record.userId ≠ expectedUserId then
      .error ("User credential user mismatch: expected '" ++ expectedUserId ++ "', got '" ++
        record.userId ++ "'")
    else .ok ()

/-- The proof of a signature under the key of the record. -/
def checkEd25519Proof (record : UserCredentialRecord) (context : UserSignatureContext)
    (signature : JsonDict) : Except String Unit :=
  match getObject signature "proof" with
  | none => .error "User signature proof missing"
  | some proof =>
    if (proof.get "alg").bind Json.asStr ≠ some "EdDSA" then
      .error "User signature proof alg must be 'EdDSA'"
    else if strTrimmed P proof "signature" = "" then .error "User signature missing"
    else do
      let publicKey ← (ed25519PublicKeyFromBase64url P (strTrimmed P record.publicKey "x")).mapError
        fun e => "Registered Ed25519 public key invalid: " ++ e.text
      let payload ← (canonicalUserAuthorizationPayload P context.serverSignedMandate).mapError
        A4PError.text
      if ed25519VerifyText P payload (strTrimmed P proof "signature") publicKey then .ok ()
      else .error "User signature invalid"

/-- `verify`, over what the store holds. -/
def ed25519Verify (store : InMemoryCredentialStore) (context : UserSignatureContext)
    (signature : JsonDict) : Except String Unit :=
  let credentialId := strTrimmed P signature "credentialId"
  if credentialId = "" then .error "User credentialId missing"
  else
    match store.get credentialId with
    | none => .error ("User credential not registered: " ++ credentialId)
    | some record =>
      if record.signatureMethod ≠ ed25519SignatureMethod then
        .error "User credential signature method mismatch"
      else do
        checkCredentialUser record context.expectedUserId
        checkEd25519Proof P record context signature

/-- `RegisteredEd25519Method` on top of a store, as it stands. -/
def registeredEd25519Method (store : InMemoryCredentialStore) : UserSignatureMethod where
  signatureMethod := ed25519SignatureMethod
  methodPolicy := []
  signingOptions userId _ := ed25519SigningOptions store userId
  verify := ed25519Verify P store

/-! ### The signer -/

/-- A signer with a registered private key. Its credential id is trimmed. -/
structure Ed25519UserSigner where
  credentialId : String
  privateKey : Bytes
  trimmed : trim credentialId = credentialId
  nonempty : credentialId ≠ ""

def ed25519Envelope (credentialId encodedSignature : String) : JsonDict :=
  [("signatureMethod", .str ed25519SignatureMethod), ("credentialId", .str credentialId),
    ("proof", .obj [("alg", .str "EdDSA"), ("signature", .str encodedSignature)])]

def Ed25519UserSigner.sign (signer : Ed25519UserSigner) (context : UserSignatureContext) :
    Except A4PError JsonDict := do
  let payload ← canonicalUserAuthorizationPayload P context.serverSignedMandate
  .ok (ed25519Envelope signer.credentialId (ed25519SignText P payload signer.privateKey))

variable {P}

structure Ed25519UserSigner.Owns (P : Platform) (signer : Ed25519UserSigner)
    (record : UserCredentialRecord) : Prop where
  method : record.signatureMethod = ed25519SignatureMethod
  key : ed25519PublicKeyFromBase64url P (strTrimmed P record.publicKey "x") =
    .ok (P.verifyingKey signer.privateKey)

theorem ed25519SigningOptions_ok {store : InMemoryCredentialStore} {userId : String}
    {options : JsonDict} (listed : ed25519SigningOptions store userId = .ok options) :
    options = [("signatureMethod", .str ed25519SignatureMethod),
      ("methodOptions", .obj [("allowedCredentialIds",
        .arr (((store.listForUser userId).filter fun record =>
          record.signatureMethod = ed25519SignatureMethod).map fun record =>
            Json.str record.credentialId))])] := by
  unfold ed25519SigningOptions at listed
  extract_lets credentialIds at listed
  split at listed
  · cases listed
  · cases listed
    rfl

theorem checkEd25519Proof_sign (sound : Ed25519Sound P) {signer : Ed25519UserSigner}
    {record : UserCredentialRecord} (owns : signer.Owns P record) {context : UserSignatureContext}
    {payload : String}
    (built : canonicalUserAuthorizationPayload P context.serverSignedMandate = .ok payload) :
    checkEd25519Proof P record context
      (ed25519Envelope signer.credentialId (ed25519SignText P payload signer.privateKey)) =
        .ok () := by
  let encoded := ed25519SignText P payload signer.privateKey
  have proof : getObject (ed25519Envelope signer.credentialId encoded) "proof" =
      some [("alg", .str "EdDSA"), ("signature", .str encoded)] := rfl
  have text : strTrimmed P [("alg", .str "EdDSA"), ("signature", .str encoded)] "signature" =
      encoded := by
    rw [strTrimmed_str P (s := encoded) rfl, trim_ed25519SignText]
  have alg : (JsonDict.get [("alg", .str "EdDSA"), ("signature", .str encoded)] "alg").bind
      Json.asStr = some "EdDSA" := rfl
  rw [checkEd25519Proof, proof]
  dsimp only
  rw [if_neg (not_not.mpr alg), text, if_neg (sound.signText_ne_empty payload signer.privateKey),
    owns.key, built]
  exact if_pos (sound.verifyText_signText payload signer.privateKey)

theorem ed25519Verify_sign (sound : Ed25519Sound P) {store : InMemoryCredentialStore}
    {signer : Ed25519UserSigner} {record : UserCredentialRecord}
    (found : store.get signer.credentialId = some record) (owns : signer.Owns P record)
    {context signedContext : UserSignatureContext} {signature : JsonDict}
    (signed : signer.sign P signedContext = .ok signature)
    (same : context.serverSignedMandate = signedContext.serverSignedMandate) {userId : String}
    (expected : context.expectedUserId = some userId) :
    ed25519Verify P store context signature = .ok () ↔ record.userId = userId := by
  obtain ⟨payload, built, eq⟩ := bind_eq_ok.mp signed
  cases eq
  rw [← same] at built
  have credentialId : strTrimmed P (ed25519Envelope signer.credentialId
      (ed25519SignText P payload signer.privateKey)) "credentialId" = signer.credentialId := by
    rw [strTrimmed_str P (s := signer.credentialId) rfl, signer.trimmed]
  dsimp only [ed25519Verify]
  rw [credentialId, if_neg signer.nonempty, found]
  dsimp only
  rw [if_neg (not_not.mpr owns.method), bind_eq_ok]
  simp only [checkEd25519Proof_sign sound owns built, and_true, expected, checkCredentialUser]
  split
  · rename_i other
    exact iff_of_false (by simp) other
  · rename_i same
    exact iff_of_true ⟨(), rfl⟩ (not_not.mp same)

end

end AgentProtocols.A4P
