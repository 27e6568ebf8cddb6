import AgentProtocols.A4P.CredentialStore
import AgentProtocols.A4P.UserSignature.Contracts

/-!
The WebAuthn signature method: ceremony data, registration (`registrationRecord`) and assertion
(`assertedRecord`, `assertedRecord_eq`) up to their saves. JSON, CBOR and cryptography come in
through `WebAuthnPlatform`.
-/

namespace AgentProtocols.A4P

open Json Lib

/-- The CBOR values the crate looks into. -/
inductive Cbor where
  | int (i : Int)
  | bytes (b : Bytes)
  | text (s : String)
  | map (entries : List (Cbor × Cbor))
  | other

/-- The libraries behind the ceremony parsers. -/
structure WebAuthnPlatform extends Platform where
  /-- `serde_json::from_slice`. -/
  parseJson : Bytes → Option Json
  /-- The CBOR item at the front of the bytes and its length, or an error text. -/
  decodeCbor : Bytes → Except String (Cbor × Nat)
  sha256Bytes : Bytes → Bytes
  /-- ECDSA over P-256: coordinates, DER signature, data. -/
  p256Verify : Bytes → Bytes → Bytes → Bytes → Bool
  /-- Ed25519: key, signature, data. -/
  ed25519VerifyBytes : Bytes → Bytes → Bytes → Bool
  /-- RSA PKCS#1 v1.5 with SHA-256: modulus, exponent, signature, data. -/
  rsaVerify : Bytes → Bytes → Bytes → Bytes → Bool

def webauthnSignatureMethod : String := "webauthn"

def supportedCoseAlgorithms : List Int := [-7, -8, -257]

/-- The configuration of a `WebAuthnSignatureMethod`. -/
structure WebAuthnSignatureMethod where
  rpId : String := "localhost"
  rpName : String := "A4P"
  expectedOrigin : String := "http://localhost:8970"

/-! ### Authenticator data -/

structure AuthenticatorDataFlags where
  up : Bool
  uv : Bool
  be : Bool
  bs : Bool
  at_ : Bool
  ed : Bool

structure AttestedCredentialData where
  aaguid : Bytes
  credentialId : Bytes
  credentialPublicKey : Bytes

structure AuthenticatorData where
  rpIdHash : Bytes
  flags : AuthenticatorDataFlags
  signCount : Nat
  attestedCredentialData : Option AttestedCredentialData

def bigEndian (bytes : Bytes) : Nat := bytes.foldl (fun n b => n * 256 + b.toNat) 0

theorem bigEndian_lt (bytes : Bytes) : bigEndian bytes < 256 ^ bytes.length := by
  have go : ∀ (bytes : Bytes) (n : Nat),
      bytes.foldl (fun n b => n * 256 + b.toNat) n < (n + 1) * 256 ^ bytes.length := by
    intro bytes
    induction bytes with
    | nil => intro n; simp
    | cons b bytes ih =>
      intro n
      have small : b.toNat < 256 := b.toNat_lt
      calc (b :: bytes).foldl (fun n b => n * 256 + b.toNat) n
          < (n * 256 + b.toNat + 1) * 256 ^ bytes.length := ih _
        _ ≤ ((n + 1) * 256) * 256 ^ bytes.length := Nat.mul_le_mul_right _ (by omega)
        _ = (n + 1) * 256 ^ (b :: bytes).length := by
          rw [List.length_cons, Nat.pow_succ, Nat.mul_assoc, Nat.mul_comm 256]
  simpa [bigEndian] using go bytes 0

def decodeFlags (byte : Nat) : AuthenticatorDataFlags :=
  ⟨byte.testBit 0, byte.testBit 2, byte.testBit 3, byte.testBit 4, byte.testBit 6, byte.testBit 7⟩

section

variable (W : WebAuthnPlatform)

def decodeCborPrefix (bytes : Bytes) : Except String (Cbor × Nat) :=
  (W.decodeCbor bytes).mapError ("Invalid CBOR: " ++ ·)

/-- The attested credential data at the front of the bytes, and what follows. -/
def parseAttestedCredentialData (rest : Bytes) :
    Except String (AttestedCredentialData × Bytes) :=
  if rest.length < 18 then .error "Attested credential data truncated"
  else
    let credentialIdLen := bigEndian ((rest.drop 16).take 2)
    let body := rest.drop 18
    if body.length < credentialIdLen then .error "Credential id truncated"
    else do
      let keyBytes := body.drop credentialIdLen
      let (_, keyLen) ← decodeCborPrefix W keyBytes
      .ok (⟨rest.take 16, body.take credentialIdLen, keyBytes.take keyLen⟩, keyBytes.drop keyLen)

/-- The attested data when the flag announces it. -/
def parseAttested (present : Bool) (rest : Bytes) :
    Except String (Option AttestedCredentialData × Bytes) :=
  if present then (parseAttestedCredentialData W rest).map fun e => (some e.1, e.2)
  else .ok (none, rest)

/-- What follows the extensions when the flag announces them. -/
def skipExtensions (present : Bool) (rest : Bytes) : Except String Bytes :=
  if present then (decodeCborPrefix W rest).map fun e => rest.drop e.2 else .ok rest

def parseAuthenticatorData (val : Bytes) : Except String AuthenticatorData :=
  if val.length < 37 then
    .error ("Authenticator data was " ++ toString val.length ++
      " bytes, expected at least 37 bytes")
  else do
    let flags := decodeFlags (bigEndian ((val.drop 32).take 1))
    let (attested, rest) ← parseAttested W flags.at_ (val.drop 37)
    let rest ← skipExtensions W flags.ed rest
    if rest.isEmpty then
      .ok ⟨val.take 32, flags, bigEndian ((val.drop 33).take 4), attested⟩
    else .error "Leftover bytes detected while parsing authenticator data"

/-! ### Client data -/

structure CollectedClientData where
  ceremonyType : String
  challenge : Bytes
  origin : String

def parseClientDataJson (val : Bytes) : Except String CollectedClientData :=
  match W.parseJson val with
  | none => .error "Unable to decode clientDataJSON bytes as JSON"
  | some (.obj fields) =>
    let fields : JsonDict := fields
    match fields.get "type", fields.get "challenge", fields.get "origin" with
    | none, _, _ => .error "clientDataJSON missing required property \"type\""
    | some _, none, _ => .error "clientDataJSON missing required property \"challenge\""
    | some _, some _, none => .error "clientDataJSON missing required property \"origin\""
    | some type, some challenge, some origin =>
      match b64urlDecode (pyStr W.toPlatform challenge) with
      | none => .error "clientDataJSON challenge is not base64url"
      | some challenge =>
        .ok ⟨pyStr W.toPlatform type, challenge, pyStr W.toPlatform origin⟩
  | some _ => .error "clientDataJSON was not a dict"

variable {M : WebAuthnSignatureMethod} {challenge : Bytes} {origin : String} {credential : JsonDict}

/-! ### Public keys and signatures -/

inductive CosePublicKey where
  | ec2 (alg crv : Int) (x y : Bytes)
  | okp (alg crv : Int) (x : Bytes)
  | rsa (alg : Int) (n e : Bytes)

def CosePublicKey.alg : CosePublicKey → Int
  | ec2 alg _ _ _ => alg
  | okp alg _ _ => alg
  | rsa alg _ _ => alg

/-- `cbor_int`: an integer that fits an `i64`. -/
def cborInt : Cbor → Option Int
  | .int i => if -2 ^ 63 ≤ i ∧ i < 2 ^ 63 then some i else none
  | _ => none

def coseEntry (entries : List (Cbor × Cbor)) (key : Int) : Option Cbor :=
  (entries.find? fun e => cborInt e.1 == some key).map Prod.snd

/-- An integer entry that is not zero. -/
def coseInt (entries : List (Cbor × Cbor)) (key : Int) : Option Int :=
  ((coseEntry entries key).bind cborInt).filter (· ≠ 0)

/-- A byte string entry that is not empty. -/
def coseBytes (entries : List (Cbor × Cbor)) (key : Int) : Option Bytes :=
  match coseEntry entries key with
  | some (.bytes b) => if b.isEmpty then none else some b
  | _ => none

def decodeCredentialPublicKey (key : Bytes) : Except String CosePublicKey :=
  if key.head? = some 4 ∧ key.length = 65 then
    .ok (.ec2 (-7) 1 ((key.drop 1).take 32) (key.drop 33))
  else do
    let (value, _) ← decodeCborPrefix W key
    match value with
    | .map entries =>
      match coseInt entries 1, coseInt entries 3 with
      | none, _ => .error "Credential public key missing kty"
      | some _, none => .error "Credential public key missing alg"
      | some 1, some alg =>
        match coseInt entries (-1), coseBytes entries (-2) with
        | none, _ => .error "OKP credential public key missing crv"
        | some _, none => .error "OKP credential public key missing x"
        | some crv, some x => .ok (.okp alg crv x)
      | some 2, some alg =>
        match coseInt entries (-1), coseBytes entries (-2), coseBytes entries (-3) with
        | none, _, _ => .error "EC2 credential public key missing crv"
        | some _, none, _ => .error "EC2 credential public key missing x"
        | some _, some _, none => .error "EC2 credential public key missing y"
        | some crv, some x, some y => .ok (.ec2 alg crv x y)
      | some 3, some alg =>
        match coseBytes entries (-1), coseBytes entries (-2) with
        | none, _ => .error "RSA credential public key missing n"
        | some _, none => .error "RSA credential public key missing e"
        | some n, some e => .ok (.rsa alg n e)
      | some kty, some _ =>
        .error ("Unsupported credential public key type \"" ++ toString kty ++ "\"")
    | _ => .error "Credential public key is not a CBOR map"

/-- `verify_signature`; its callers drop the reason of a refusal. -/
def verifySignature (publicKey : CosePublicKey) (signature data : Bytes) : Bool :=
  match publicKey with
  | .ec2 alg crv x y =>
    alg == -7 && crv == 1 && x.length == 32 && y.length == 32 && W.p256Verify x y signature data
  | .okp alg crv x =>
    alg == -8 && crv == 6 && x.length == 32 && signature.length == 64 &&
      W.ed25519VerifyBytes x signature data
  | .rsa alg n e => alg == -257 && W.rsaVerify n e signature data

/-! ### Ceremonies -/

/-- A check of a ceremony. -/
def require (condition : Bool) (message : String) : Except String Unit :=
  if condition then .ok () else .error message

theorem require_ok {condition : Bool} {message : String} :
    require condition message = .ok () ↔ condition = true := by
  unfold require
  split_ifs with h <;> simp [h]

def aaguidToString (val : Bytes) : Except String String :=
  if val.length ≠ 16 then
    .error ("AAGUID was " ++ toString val.length ++ " bytes, expected 16 bytes")
  else
    let hex := val.flatMap fun b => [Nat.digitChar (b.toNat / 16), Nat.digitChar (b.toNat % 16)]
    .ok (String.ofList (hex.take 8 ++ '-' :: (hex.drop 8).take 4 ++ '-' :: (hex.drop 12).take 4 ++
      '-' :: (hex.drop 16).take 4 ++ '-' :: hex.drop 20))

def parseBackupFlags (flags : AuthenticatorDataFlags) : Except String (String × Bool) :=
  if !flags.be && flags.bs then
    .error ("Single-device credential indicated that it was backed up, " ++
      "which should be impossible.")
  else .ok (if flags.be then "multi_device" else "single_device", flags.bs)

def responseBytes (response : JsonDict) (field : String) : Except String Bytes :=
  match response.get field with
  | some (.str text) =>
    match b64urlDecode text with
    | some bytes => .ok bytes
    | none => .error ("Credential response " ++ field ++ " is not base64url")
  | _ => .error ("Credential response missing required " ++ field)

/-- `check_credential_shape`: the response object and the raw id. -/
def checkCredentialShape (credential : JsonDict) : Except String (JsonDict × Bytes) :=
  match credential.get "id", credential.get "rawId", credential.get "response" with
  | some (.str id), some (.str rawId), some (.obj response) => do
    require ((credential.get "type").bind Json.asStr == some "public-key")
      "Credential had unexpected type"
    match b64urlDecode rawId with
    | none => .error "Credential rawId is not base64url"
    | some raw => do
      require (b64urlEncode raw == id) "id and raw_id were not equivalent"
      .ok (response, raw)
  | some (.str _), some (.str _), _ => .error "Credential missing required response"
  | some (.str _), _, _ => .error "Credential missing required rawId"
  | _, _, _ => .error "Credential missing required id"

/-- The checks of type, challenge and origin that both ceremonies make. -/
def checkClientData (clientData : CollectedClientData) (ceremony : String)
    (expectedChallenge : Bytes) (expectedOrigin : String) : Except String Unit := do
  require (clientData.ceremonyType == ceremony)
    ("Unexpected client data type \"" ++ clientData.ceremonyType ++ "\", expected \"" ++
      ceremony ++ "\"")
  require (expectedChallenge == clientData.challenge)
    "Client data challenge was not expected challenge"
  require (expectedOrigin == clientData.origin)
    ("Unexpected client data origin \"" ++ clientData.origin ++ "\", expected \"" ++
      expectedOrigin ++ "\"")

structure VerifiedRegistration where
  credentialId : Bytes
  credentialPublicKey : Bytes
  signCount : Nat
  aaguid : String
  fmt : String
  credentialDeviceType : String
  credentialBackedUp : Bool

/-- The entry of a CBOR map under a text key. -/
def textEntry (entries : List (Cbor × Cbor)) (name : String) : Option Cbor :=
  (entries.find? fun e => match e.1 with
    | .text text => text == name
    | _ => false).map Prod.snd

/-- The parts of an attestation object: format, authenticator data, statement. -/
def attestationParts (attestation : Cbor) : Except String (String × Bytes × List (Cbor × Cbor)) :=
  match attestation with
  | .map entries =>
    match textEntry entries "fmt", textEntry entries "authData", textEntry entries "attStmt" with
    | some (.text fmt), some (.bytes authData), some (.map attStmt) => .ok (fmt, authData, attStmt)
    | some (.text fmt), some (.bytes authData), none => .ok (fmt, authData, [])
    | _, _, _ => .error "attestationObject was malformed"
  | _ => .error "attestationObject was malformed"

/-- The check of the attestation statement: none, or a self signature. -/
def checkAttestation (fmt : String) (attStmt : List (Cbor × Cbor)) (publicKey : CosePublicKey)
    (authDataBytes clientDataBytes : Bytes) : Except String Unit :=
  if fmt = "none" then
    require (["sig", "x5c", "response", "alg", "ver", "certInfo", "pubArea"].all fun name =>
      (textEntry attStmt name).isNone) "None attestation had unexpected attestation statement"
  else if fmt = "packed" then
    match textEntry attStmt "sig" with
    | some (.bytes sig) =>
      if sig.isEmpty then .error "Attestation statement was missing signature (Packed)"
      else
        match ((textEntry attStmt "alg").bind cborInt).filter (· ≠ 0) with
        | none => .error "Attestation statement was missing algorithm (Packed)"
        | some alg => do
          require (textEntry attStmt "x5c").isNone
            ("Packed attestation with a certificate chain is not supported; " ++
              "use attestation 'none'")
          require (publicKey.alg == alg)
            ("Credential public key alg " ++ toString publicKey.alg ++
              " did not equal attestation statement alg " ++ toString alg)
          require (verifySignature W publicKey sig
            (authDataBytes ++ W.sha256Bytes clientDataBytes))
            "Could not verify attestation statement signature (Packed|Self)"
    | _ => .error "Attestation statement was missing signature (Packed)"
  else .error ("Unsupported attestation type \"" ++ fmt ++ "\"")

/-- `verify_registration_response`, with user presence and user verification
required. -/
def verifyRegistrationResponse (credential : JsonDict) (expectedChallenge : Bytes)
    (expectedRpId expectedOrigin : String) : Except String VerifiedRegistration := do
  let (response, _) ← checkCredentialShape credential
  let clientDataBytes ← responseBytes response "clientDataJSON"
  let attestationObjectBytes ← responseBytes response "attestationObject"
  let clientData ← parseClientDataJson W clientDataBytes
  checkClientData clientData "webauthn.create" expectedChallenge expectedOrigin
  let (attestation, _) ← (decodeCborPrefix W attestationObjectBytes).mapError fun _ =>
    "attestationObject was malformed"
  let (fmt, authDataBytes, attStmt) ← attestationParts attestation
  let authData ← parseAuthenticatorData W authDataBytes
  require (authData.rpIdHash == W.sha256 expectedRpId) "Unexpected RP ID hash"
  require authData.flags.up "User presence was required, but was not present during attestation"
  require authData.flags.uv
    "User verification is required but user was not verified during attestation"
  match authData.attestedCredentialData with
  | none => .error "Authenticator did not provide attested credential data"
  | some attested => do
    require (!attested.credentialId.isEmpty) "Authenticator did not provide a credential ID"
    require (!attested.credentialPublicKey.isEmpty)
      "Authenticator did not provide a credential public key"
    require (!attested.aaguid.isEmpty) "Authenticator did not provide an AAGUID"
    let publicKey ← decodeCredentialPublicKey W attested.credentialPublicKey
    require (supportedCoseAlgorithms.contains publicKey.alg)
      ("Unsupported credential public key alg \"" ++ toString publicKey.alg ++
        "\", expected one of: [-7, -8, -257]")
    checkAttestation W fmt attStmt publicKey authDataBytes clientDataBytes
    let (deviceType, backedUp) ← parseBackupFlags authData.flags
    let aaguid ← aaguidToString attested.aaguid
    .ok ⟨attested.credentialId, attested.credentialPublicKey, authData.signCount, aaguid, fmt,
      deviceType, backedUp⟩

/-- The sign counter must grow, unless neither side counts. -/
def signCountAccepted (asserted current : Nat) : Bool :=
  !((decide (asserted > 0) || decide (current > 0)) && decide (asserted ≤ current))

/-- `verify_authentication_response`, with user verification required: the new
sign count. -/
def verifyAuthenticationResponse (credential : JsonDict) (expectedChallenge : Bytes)
    (expectedRpId expectedOrigin : String) (credentialPublicKey : Bytes)
    (credentialCurrentSignCount : Nat) : Except String Nat := do
  let (response, _) ← checkCredentialShape credential
  let clientDataBytes ← responseBytes response "clientDataJSON"
  let authenticatorDataBytes ← responseBytes response "authenticatorData"
  let signatureBytes ← responseBytes response "signature"
  let clientData ← parseClientDataJson W clientDataBytes
  checkClientData clientData "webauthn.get" expectedChallenge expectedOrigin
  let authData ← (parseAuthenticatorData W authenticatorDataBytes).mapError
    ("authenticatorData was malformed: " ++ ·)
  require (authData.rpIdHash == W.sha256 expectedRpId) "Unexpected RP ID hash"
  require authData.flags.up "User was not present during authentication"
  require authData.flags.uv
    "User verification is required but user was not verified during authentication"
  require (signCountAccepted authData.signCount credentialCurrentSignCount)
    ("Response sign count of " ++ toString authData.signCount ++
      " was not greater than current count of " ++ toString credentialCurrentSignCount)
  let publicKey ← decodeCredentialPublicKey W credentialPublicKey
  require (verifySignature W publicKey signatureBytes
    (authenticatorDataBytes ++ W.sha256Bytes clientDataBytes))
    "Could not verify authentication signature"
  let _ ← parseBackupFlags authData.flags
  .ok authData.signCount

/-! ### Registration -/

/-- The challenges by request id: the user and the challenge bytes. -/
abbrev RegistrationChallenges := OrderedMap String (String × Bytes)

def defaultTimeoutMs : Int := 60000

def credentialDescriptor (credentialId : String) : Json :=
  .obj [("id", .str credentialId), ("type", .str "public-key")]

/-- `registration_options` with its random bytes: the response and the challenges after it. -/
def registrationOptions (M : WebAuthnSignatureMethod) (challenges : RegistrationChallenges)
    (records : List UserCredentialRecord) (userId : String)
    (userName userDisplayName : Option String) (challenge random : Bytes) :
    JsonDict × RegistrationChallenges :=
  let requestId := "webauthn_registration_" ++ b64urlEncode random
  let existing := (records.filter fun r => r.signatureMethod = webauthnSignatureMethod).map
    fun r => credentialDescriptor r.credentialId
  let userName := (userName.filter (· ≠ "")).getD userId
  let userDisplayName := (userDisplayName.filter (· ≠ "")).getD userName
  let options : JsonDict :=
    [("rp", .obj [("name", .str M.rpName), ("id", .str M.rpId)]),
      ("user", .obj [("id", .str (b64urlEncode userId.toUTF8.toList)), ("name", .str userName),
        ("displayName", .str userDisplayName)]),
      ("challenge", .str (b64urlEncode challenge)),
      ("pubKeyCredParams", .arr (supportedCoseAlgorithms.map fun alg =>
        .obj [("type", .str "public-key"), ("alg", .num (.ofI64 alg))])),
      ("timeout", .num (.ofI64 defaultTimeoutMs)), ("excludeCredentials", .arr existing),
      ("authenticatorSelection", .obj [("residentKey", .str "required"),
        ("requireResidentKey", .bool true), ("userVerification", .str "required")]),
      ("attestation", .str "none")]
  ([("registrationRequestId", .str requestId), ("userId", .str userId), ("options", .obj options)],
    challenges.insert requestId (userId, challenge))

/-- The one-shot challenge is taken out before anything else is checked. -/
def takeChallenge (challenges : RegistrationChallenges) (payload : JsonDict) :
    Except A4PError (String × Bytes) × RegistrationChallenges :=
  let userId := strTrimmed W.toPlatform payload "userId"
  let requestId := strTrimmed W.toPlatform payload "registrationRequestId"
  if userId = "" then (.error (.value "userId missing"), challenges)
  else if requestId = "" then (.error (.value "registrationRequestId missing"), challenges)
  else
    match challenges.get? requestId with
    | none =>
      (.error (.value ("No WebAuthn registration challenge: " ++ requestId)), challenges)
    | some (pendingUserId, challenge) =>
      if pendingUserId ≠ userId then
        (.error (.value ("WebAuthn registration user mismatch: expected '" ++ pendingUserId ++
          "', got '" ++ userId ++ "'")), challenges.erase requestId)
      else (.ok (userId, challenge), challenges.erase requestId)

/-- The transports of a registration response, as texts. -/
def transports (credential : JsonDict) : List Json :=
  let items := ((getObject credential "response").bind fun response =>
    (response.get "transports").bind Json.asArray).getD []
  items.map fun item => .str (pyStr W.toPlatform item)

/-- The second part of `verify_registration`: the record to save. -/
def registrationRecord (M : WebAuthnSignatureMethod) (userId : String) (challenge : Bytes)
    (payload : JsonDict) (now : Int) : Except A4PError UserCredentialRecord :=
  match getObject payload "credential" with
  | none => .error (.value "credential missing")
  | some credential => do
    let verified ← (verifyRegistrationResponse W credential challenge M.rpId
      M.expectedOrigin).mapError fun e => .value ("WebAuthn registration invalid: " ++ e)
    .ok
      { userId := userId
        credentialId := b64urlEncode verified.credentialId
        signatureMethod := webauthnSignatureMethod
        publicKey := [("format", .str "cose"),
          ("value", .str (b64urlEncode verified.credentialPublicKey))]
        details := [("signCount", .num (.ofI64 verified.signCount)), ("rpId", .str M.rpId),
          ("origin", .str M.expectedOrigin), ("transports", .arr (transports W credential)),
          ("aaguid", .str verified.aaguid), ("fmt", .str verified.fmt),
          ("credentialDeviceType", .str verified.credentialDeviceType),
          ("credentialBackedUp", .bool verified.credentialBackedUp)]
        createdAt := W.formatIsoZ now }

theorem registrationRecord_method {userId : String}
    {payload : JsonDict} {now : Int} {record : UserCredentialRecord}
    (accepted : registrationRecord W M userId challenge payload now = .ok record) :
    record.signatureMethod = webauthnSignatureMethod := by
  unfold registrationRecord at accepted
  split at accepted
  · cases accepted
  · obtain ⟨verified, _, eq⟩ := bind_eq_ok.mp accepted
    cases eq
    rfl

/-! ### Assertion -/

/-- The sign count of a record as an assertion reads it, clamped to 32 bits. -/
def currentSignCount (record : UserCredentialRecord) : Nat :=
  min (((record.details.get "signCount").bind fun v => match v with
    | .num n => n.asU64
    | _ => none).getD 0) 4294967295

/-- A detail of the record that must agree with the method when it is there. -/
def checkRecordDetail (record : UserCredentialRecord) (key what expected : String) :
    Except String Unit :=
  let actual := strOrEmpty W.toPlatform record.details key
  require (actual == "" || actual == expected)
    ("WebAuthn credential " ++ what ++ " mismatch: expected '" ++ expected ++ "', got '" ++
      actual ++ "'")

/-- The owner of the credential must be the expected user, when one is. -/
def checkExpectedUser (record : UserCredentialRecord) : Option String → Except String Unit
  | none => .ok ()
  | some expectedUserId =>
    require (record.userId == expectedUserId)
      ("WebAuthn credential user mismatch: expected '" ++ expectedUserId ++ "', got '" ++
        record.userId ++ "'")

/-- `verify` up to its save, over the record that the store returned. -/
def assertedRecord (M : WebAuthnSignatureMethod) (stored : Option UserCredentialRecord)
    (context : UserSignatureContext) (signature : JsonDict) :
    Except String UserCredentialRecord :=
  match stored with
  | none => .error ("WebAuthn credential not registered: " ++
      strTrimmed W.toPlatform signature "credentialId")
  | some record => do
    require (record.signatureMethod == webauthnSignatureMethod)
      "WebAuthn credential signature method mismatch"
    checkExpectedUser record context.expectedUserId
    checkRecordDetail W record "rpId" "RP ID" M.rpId
    checkRecordDetail W record "origin" "origin" M.expectedOrigin
    match (getObject signature "proof").bind fun proof => getObject proof "assertion" with
    | none => .error "WebAuthn assertion missing"
    | some assertion => do
      let payload ← (canonicalUserAuthorizationPayload W.toPlatform
        context.serverSignedMandate).mapError fun e => "WebAuthn signature invalid: " ++ e.text
      match b64urlDecode (strOrEmpty W.toPlatform record.publicKey "value") with
      | none => .error "WebAuthn signature invalid: registered public key is not base64url"
      | some publicKey => do
        let newSignCount ← (verifyAuthenticationResponse W assertion (W.sha256 payload) M.rpId
          M.expectedOrigin publicKey (currentSignCount record)).mapError
          ("WebAuthn signature invalid: " ++ ·)
        .ok { record with
          details := record.details.insert "signCount" (.num (.ofI64 newSignCount)) }

theorem parseAuthenticatorData_signCount {val : Bytes} {data : AuthenticatorData}
    (ok : parseAuthenticatorData W val = .ok data) : data.signCount < 2 ^ 32 := by
  unfold parseAuthenticatorData at ok
  split at ok
  · cases ok
  · obtain ⟨⟨attested, rest⟩, _, ok⟩ := bind_eq_ok.mp ok
    obtain ⟨rest, _, ok⟩ := bind_eq_ok.mp ok
    split at ok
    · cases ok
      have bound := bigEndian_lt ((val.drop 33).take 4)
      have short : ((val.drop 33).take 4).length ≤ 4 := List.length_take_le _ _
      exact bound.trans_le (Nat.pow_le_pow_right (by decide) short)
    · cases ok

theorem verifyAuthenticationResponse_ok {rpId : String} {key : Bytes} {current new : Nat}
    (ok : verifyAuthenticationResponse W credential challenge rpId origin key current = .ok new) :
    new < 2 ^ 32 ∧ signCountAccepted new current = true := by
  obtain ⟨⟨response, _⟩, _, ok⟩ := bind_eq_ok.mp ok
  obtain ⟨clientDataBytes, _, authenticatorDataBytes, _, signatureBytes, _, clientData, _, ok⟩ :=
    bind₄_eq_ok.mp ok
  obtain ⟨_, _, authData, parsed, _, _, _, _, ok⟩ := bind₄_eq_ok.mp ok
  obtain ⟨_, _, _, counted, publicKey, _, ok⟩ := bind₃_eq_ok.mp ok
  obtain ⟨_, _, _, _, ok⟩ := bind₂_eq_ok.mp ok
  cases ok
  exact ⟨parseAuthenticatorData_signCount W (mapError_eq_ok.mp parsed), require_ok.mp counted⟩

/-- An accepted assertion writes the record it read, with a checked sign count. -/
theorem assertedRecord_eq {stored : Option UserCredentialRecord}
    {context : UserSignatureContext} {signature : JsonDict} {updated : UserCredentialRecord}
    (ok : assertedRecord W M stored context signature = .ok updated) :
    ∃ record new, stored = some record ∧ new < 2 ^ 32 ∧
      signCountAccepted new (currentSignCount record) = true ∧ updated = { record with
        details := record.details.insert "signCount" (.num (.ofI64 (Int.ofNat new))) } := by
  cases stored with
  | none => cases ok
  | some record =>
    obtain ⟨_, _, _, _, _, _, _, _, ok⟩ := bind₄_eq_ok.mp ok
    split at ok
    · cases ok
    · obtain ⟨payload, _, ok⟩ := bind_eq_ok.mp ok
      split at ok
      · cases ok
      · obtain ⟨new, verified, ok⟩ := bind_eq_ok.mp ok
        cases ok
        obtain ⟨bound, counted⟩ := verifyAuthenticationResponse_ok W (mapError_eq_ok.mp verified)
        exact ⟨record, new, rfl, bound, counted, rfl⟩

end

end AgentProtocols.A4P
