import AgentProtocols.A4P.HonestFlow

/-!
Server signatures and the servers a client trusts. `server_signature_stable` says that the signer,
the service and a client with trust anchors (`verifyTrustedServerMandate`) rebuild the same core, and
`accepted_key_configured` that the key of what is accepted is configured.
-/

namespace AgentProtocols.A4P

open Json Lib JsonDict

def serverSignatureAlgorithm : String := "EdDSA"

/-! ### Trust anchors -/

/-- Trusted keys by server id and key id. Neither id is empty. -/
structure StaticA4PServerTrustStore where
  trusted : OrderedMap (String × String) (String × Bytes)
  named : ∀ server key entry, trusted.get? (server, key) = some entry → server ≠ "" ∧ key ≠ ""

namespace StaticA4PServerTrustStore

theorem named_empty (server key : String) (entry : String × Bytes)
    (found : (OrderedMap.empty : OrderedMap (String × String) (String × Bytes)).get?
      (server, key) = some entry) : server ≠ "" ∧ key ≠ "" := by
  cases found

def empty : StaticA4PServerTrustStore := ⟨OrderedMap.empty, named_empty⟩

theorem named_insert (store : StaticA4PServerTrustStore) {serverId keyId : String}
    (isServer : serverId ≠ "") (isKey : keyId ≠ "") (trustedKey : String × Bytes)
    (server key : String) (entry : String × Bytes)
    (found : (store.trusted.insert (serverId, keyId) trustedKey).get? (server, key) = some entry) :
    server ≠ "" ∧ key ≠ "" := by
  rw [OrderedMap.get?_insert] at found
  split at found
  · rename_i same
    cases same
    exact ⟨isServer, isKey⟩
  · exact store.named server key entry found

def trust (store : StaticA4PServerTrustStore) {serverId keyId : String} (isServer : serverId ≠ "")
    (isKey : keyId ≠ "") (trustedKey : String × Bytes) : StaticA4PServerTrustStore :=
  ⟨store.trusted.insert (serverId, keyId) trustedKey,
    store.named_insert isServer isKey trustedKey⟩

section

variable (P : Platform)

def addKey {serverId : String} (isServer : serverId ≠ "") (store : StaticA4PServerTrustStore)
    (e : String × Json) : Except A4PError StaticA4PServerTrustStore :=
  if blank : trim e.1 = "" then .error (.value "Trusted A4P keyId must be a non-empty string")
  else
    match e.2 with
    | .obj key =>
      let alg := strTrimmed P key "alg"
      if alg ≠ serverSignatureAlgorithm then
        .error (.value ("Trusted A4P key '" ++ e.1 ++ "' must use '" ++
          serverSignatureAlgorithm ++ "'"))
      else do
        let publicKey ← ed25519PublicKeyFromBase64url P (strTrimmed P key "publicKey")
        .ok (store.trust isServer blank (alg, publicKey))
    | _ => .error (.value ("Trusted A4P key '" ++ e.1 ++ "' must be an object"))

def addServer (store : StaticA4PServerTrustStore) (e : String × Json) :
    Except A4PError StaticA4PServerTrustStore :=
  if blank : trim e.1 = "" then
    .error (.value "Trusted A4P serverId must be a non-empty string")
  else
    match e.2 with
    | .obj keys =>
      if keys.isEmpty then
        .error (.value ("Trusted A4P server '" ++ e.1 ++ "' must contain keys"))
      else keys.foldlM (addKey P blank) store
    | _ => .error (.value ("Trusted A4P server '" ++ e.1 ++ "' must contain keys"))

def new (config : JsonDict) : Except A4PError StaticA4PServerTrustStore := do
  let store ← config.foldlM (addServer P) empty
  if store.trusted.entries.isEmpty then
    .error (.value "Trusted A4P server key configuration must not be empty")
  else .ok store

end

def resolve (store : StaticA4PServerTrustStore) (serverId keyId alg : String) :
    Except A4PError Bytes :=
  match store.trusted.get? (serverId, keyId) with
  | none => .error (.mandateSecurity ⟨"SERVER_KEY_UNTRUSTED",
      "A4P Server key is not trusted: server='" ++ serverId ++ "', keyId='" ++ keyId ++ "'"⟩)
  | some (trustedAlg, publicKey) =>
    if alg ≠ trustedAlg then
      .error (.mandateSecurity ⟨"SERVER_KEY_UNTRUSTED",
        "A4P Server signature algorithm is not trusted: '" ++ alg ++ "'"⟩)
    else .ok publicKey

theorem resolve_named {store : StaticA4PServerTrustStore} {serverId keyId alg : String}
    {publicKey : Bytes} (resolved : store.resolve serverId keyId alg = .ok publicKey) :
    serverId ≠ "" := by
  unfold resolve at resolved
  split at resolved
  · cases resolved
  · rename_i found
    exact (store.named _ _ _ found).1

end StaticA4PServerTrustStore

section

variable (P : Platform)

/-- `verify_trusted_server_mandate`: the core of a mandate that a trusted server has
signed. -/
def verifyTrustedServerMandate (mandate : JsonDict) (store : StaticA4PServerTrustStore) :
    Except A4PError JsonDict := do
  let core ← mandateCorePayload P mandate
  match (getObject mandate "signatures").bind fun signatures => getObject signatures "server" with
  | none => .error (.mandateSecurity ⟨"SERVER_SIGNATURE_INVALID", "Server signature missing"⟩)
  | some serverSignature =>
    let serverId := strTrimmed P core "server"
    let alg := strTrimmed P serverSignature "alg"
    let keyId := strTrimmed P serverSignature "keyId"
    let signature := strTrimmed P serverSignature "signature"
    if serverId = "" ∨ alg = "" ∨ keyId = "" ∨ signature = "" then
      .error (.mandateSecurity ⟨"SERVER_SIGNATURE_INVALID", "Server signature metadata missing"⟩)
    else do
      let publicKey ← store.resolve serverId keyId alg
      if ed25519VerifyText P (serverSignaturePayload P core) signature publicKey then .ok core
      else .error (.mandateSecurity ⟨"SERVER_SIGNATURE_INVALID", "Server signature invalid"⟩)

end

/-! ### Both types of mandates -/

/-- The two types of mandates, which have one shape. -/
inductive MandateType where
  | intent
  | operation
deriving DecidableEq

namespace MandateType

def wireType : MandateType → String
  | intent => intentMandateType
  | operation => operationMandateType

def algorithm : MandateType → String
  | intent => intentServerSignAlgorithm
  | operation => operationServerSignAlgorithm

def keyId : MandateType → String
  | intent => intentMandateServerKeyId
  | operation => operationMandateServerKeyId

section

variable (P : Platform)

def signingKey : MandateType → Except A4PError Bytes
  | intent => P.intentServerSigningKey
  | operation => P.operationServerSigningKey

def normalize : MandateType → JsonDict → Except A4PError JsonDict
  | intent => normalizeIntentMandate P
  | operation => normalizeOperationMandate P

def corePayload : MandateType → JsonDict → Except A4PError JsonDict
  | intent => intentMandateCorePayload P
  | operation => operationMandateCorePayload P

/-- `sign_server_mandate`. -/
def sign : MandateType → JsonDict → Except A4PError JsonDict
  | intent => signIntentMandate P
  | operation => signOperationMandate P

/-- The type and server-signature checks of a service for a mandate that comes back
signed. -/
def checkServerSignature (t : MandateType) (mandate : JsonDict) : Except String Unit :=
  if (mandate.get "type").bind Json.asStr ≠ some t.wireType then .error "Invalid mandate type"
  else
    match t.normalize P mandate with
    | .error e => .error e.text
    | .ok normalized =>
      verifyServerSignature P normalized t.algorithm (t.corePayload P normalized) (t.signingKey P)

/-- The anchor for the key that the server signs mandates of this type with. -/
def MatchingAnchor (t : MandateType) (mandate : JsonDict) (store : StaticA4PServerTrustStore) :
    Prop :=
  ∃ key, t.signingKey P = .ok key ∧
    store.resolve (strTrimmed P mandate "server") t.keyId t.algorithm = .ok (P.verifyingKey key)

/-- Accepted by the service and by every client with the matching anchor. -/
structure Accepted (t : MandateType) (mandate : JsonDict) : Prop where
  service : t.checkServerSignature P mandate = .ok ()
  client : ∀ store, t.MatchingAnchor P mandate store →
    ∃ core, t.corePayload P mandate = .ok core ∧
      verifyTrustedServerMandate P mandate store = .ok core

end

variable {P : Platform} {t : MandateType} {mandate d : JsonDict}

/-- A mandate as its normaliser leaves it. -/
def Normal (P : Platform) : MandateType → JsonDict → Prop
  | intent => NormalIntentMandate P
  | operation => NormalOperationMandate P

variable (normal : t.Normal P d)

include normal

theorem Normal.fixed : t.normalize P d = .ok d := by
  cases t with
  | intent => exact NormalIntentMandate.fixed normal
  | operation => exact NormalOperationMandate.fixed normal

theorem Normal.type : (d.get "type").bind Json.asStr = some t.wireType := by
  cases t with
  | intent =>
    rw [NormalMandate.type normal]
    rfl
  | operation =>
    rw [NormalMandate.type normal]
    rfl

theorem Normal.attach (signature : JsonDict) : t.Normal P (attachUserSignature d signature) ∧
      t.corePayload P (attachUserSignature d signature) = t.corePayload P d ∧
      signatureOf (attachUserSignature d signature) "server" = signatureOf d "server" := by
  have same : ∀ key, key ≠ "signatures" → (attachUserSignature d signature).get key = d.get key :=
    fun key other => get_attachUserSignature other signature
  cases t with
  | intent =>
    have attached := NormalMandate.attach normal (by decide) signature
    exact ⟨attached, intentMandateCorePayload_congr normal attached same,
      (NormalMandate.signatureOf_attach normal signature).1⟩
  | operation =>
    have attached := NormalMandate.attach normal (by decide) signature
    exact ⟨attached, operationMandateCorePayload_congr normal attached same,
      (NormalMandate.signatureOf_attach normal signature).1⟩

theorem Normal.signature_found :
    (getObject d "signatures").bind (fun signatures => getObject signatures "server") =
      some (signatureOf d "server") := by
  obtain ⟨server, user, found⟩ : ∃ server user,
      d.get "signatures" = some (.obj [("server", .obj server), ("user", .obj user)]) := by
    cases t with
    | intent => exact NormalMandate.signatures normal
    | operation => exact NormalMandate.signatures normal
  rw [signatureOf, objectOrEmpty_of_get found, getObject, found]
  rfl

omit normal

variable {core payload : JsonDict} {key : Bytes}

include normal

theorem Normal.mandateCorePayload
    (built : t.corePayload P d = .ok core) : A4P.mandateCorePayload P d = .ok core := by
  cases t with
  | intent =>
    rw [mandateCorePayload_intent normal, mapError_eq_ok]
    exact built
  | operation =>
    rw [mandateCorePayload_operation normal, mapError_eq_ok]
    exact built

theorem Normal.core_server (built : t.corePayload P d = .ok core) :
    strTrimmed P core "server" = strTrimmed P d "server" := by
  have member : core.get "server" = some (fieldOr d "server" (.str "")) := by
    cases t with
    | intent =>
      obtain ⟨normalized, eq, built⟩ := bind_eq_ok.mp built
      rw [NormalIntentMandate.fixed normal] at eq
      cases eq
      cases built
      rfl
    | operation =>
      obtain ⟨normalized, eq, built⟩ := bind_eq_ok.mp built
      rw [NormalOperationMandate.fixed normal] at eq
      cases eq
      cases built
      rfl
  cases found : d.get "server" with
  | some value =>
    rw [fieldOr, found] at member
    exact strTrimmed_congr P (member.trans found.symm)
  | none =>
    rw [fieldOr, found] at member
    rw [strTrimmed_str P member, strTrimmed, strOrEmpty, found]

omit normal

/-- The signature that a signed mandate carries. -/
structure Signed (P : Platform) (t : MandateType) (d payload : JsonDict) (key : Bytes) : Prop where
  normal : t.Normal P d
  core : t.corePayload P d = .ok payload
  signingKey : t.signingKey P = .ok key
  signature : signatureOf d "server" = serverSignatureEntry t.algorithm t.keyId
    (ed25519SignText P (serverSignaturePayload P payload) key)

theorem sign_ok (isSigned : t.sign P mandate = .ok d) : ∃ payload key, Signed P t d payload key := by
  cases t with
  | intent =>
    have normal := signIntentMandate_normal isSigned
    obtain ⟨normalized, found, core, built, key, signingKey, eq⟩ := bind₃_eq_ok.mp isSigned
    cases eq
    obtain ⟨before, -⟩ := normalizeIntentMandate_ok found
    obtain ⟨same, entry⟩ := withServerSignature_of_normal before
      (serverSignatureEntry intentServerSignAlgorithm intentMandateServerKeyId
        (ed25519SignText P (serverSignaturePayload P core) key))
    exact ⟨core, key, normal, (intentMandateCorePayload_congr before normal same).trans built,
      signingKey, entry⟩
  | operation =>
    have normal := signOperationMandate_normal isSigned
    obtain ⟨normalized, found, core, built, key, signingKey, eq⟩ := bind₃_eq_ok.mp isSigned
    cases eq
    obtain ⟨before, -⟩ := normalizeOperationMandate_ok found
    obtain ⟨same, entry⟩ := withServerSignature_of_normal before
      (serverSignatureEntry operationServerSignAlgorithm operationMandateServerKeyId
        (ed25519SignText P (serverSignaturePayload P core) key))
    exact ⟨core, key, normal, (operationMandateCorePayload_congr before normal same).trans built,
      signingKey, entry⟩

theorem Signed.attach (signed : Signed P t d payload key)
    (signature : JsonDict) : Signed P t (attachUserSignature d signature) payload key := by
  obtain ⟨normal, core, server⟩ := signed.normal.attach signature
  exact ⟨normal, core.trans signed.core, signed.signingKey, server.trans signed.signature⟩

/-- A signed mandate is accepted on both sides. -/
theorem Signed.accepted (sound : Ed25519Sound P)
    (signed : Signed P t d payload key) : t.Accepted P d := by
  have trimmedAlg : trim t.algorithm = t.algorithm ∧ t.algorithm ≠ "" := by
    cases t <;> decide
  have trimmedKey : trim t.keyId = t.keyId ∧ t.keyId ≠ "" := by
    cases t <;> decide
  have entry := signed.signature
  have alg : strTrimmed P (signatureOf d "server") "alg" = t.algorithm := by
    rw [entry, strTrimmed_str P (s := t.algorithm) rfl, trimmedAlg.1]
  have keyId : strTrimmed P (signatureOf d "server") "keyId" = t.keyId := by
    rw [entry, strTrimmed_str P (s := t.keyId) rfl, trimmedKey.1]
  have text : strTrimmed P (signatureOf d "server") "signature" =
      ed25519SignText P (serverSignaturePayload P payload) key := by
    rw [entry, strTrimmed_str P (s := ed25519SignText P (serverSignaturePayload P payload) key) rfl,
      trim_ed25519SignText]
  constructor
  · rw [checkServerSignature, if_neg (not_not.mpr signed.normal.type), signed.normal.fixed]
    dsimp only [verifyServerSignature]
    rw [← signatureOf, alg, text, if_neg (not_not.mpr rfl), if_neg (sound.signText_ne_empty _ _),
      signed.core, signed.signingKey]
    exact if_pos (sound.verifyText_signText _ _)
  · rintro store ⟨key', signingKey, resolved⟩
    rw [signed.signingKey] at signingKey
    cases signingKey
    have server := signed.normal.core_server signed.core
    have named := StaticA4PServerTrustStore.resolve_named resolved
    refine ⟨payload, signed.core, ?_⟩
    rw [verifyTrustedServerMandate, signed.normal.mandateCorePayload signed.core]
    refine bind_eq_ok.mpr ⟨payload, rfl, ?_⟩
    rw [signed.normal.signature_found]
    dsimp only
    have given : ¬(strTrimmed P d "server" = "" ∨ t.algorithm = "" ∨ t.keyId = "" ∨
        ed25519SignText P (serverSignaturePayload P payload) key = "") := by
      rintro (blank | blank | blank | blank)
      · exact named blank
      · exact trimmedAlg.2 blank
      · exact trimmedKey.2 blank
      · exact sound.signText_ne_empty _ _ blank
    rw [server, alg, keyId, text, if_neg given, resolved]
    exact if_pos (sound.verifyText_signText _ _)

/-! ### What an accepted signature covers -/

theorem normalize_ok (normalized : t.normalize P mandate = .ok d) :
    t.corePayload P d = t.corePayload P mandate ∧
      signatureOf d "server" = signatureOf mandate "server" := by
  cases t with
  | intent =>
    have fixed := (normalizeIntentMandate_ok normalized).1.fixed
    refine ⟨?_, ?_⟩
    · rw [corePayload, intentMandateCorePayload, intentMandateCorePayload, fixed]
      rw [show normalizeIntentMandate P mandate = .ok d from normalized]
    · have container : d.get "signatures" = some (.obj (signatureContainer mandate)) := by
        obtain ⟨scope, -, eq⟩ := bind_eq_ok.mp normalized
        cases eq
        rw [get_insert_of_ne _ (by decide), get_insert_self]
      rw [signatureOf, objectOrEmpty_of_get container]
      rfl
  | operation =>
    have fixed := (normalizeOperationMandate_ok normalized).1.fixed
    refine ⟨?_, ?_⟩
    · rw [corePayload, operationMandateCorePayload, operationMandateCorePayload, fixed]
      rw [show normalizeOperationMandate P mandate = .ok d from normalized]
    · have container : d.get "signatures" = some (.obj (signatureContainer mandate)) := by
        obtain ⟨operation, -, eq⟩ := bind_eq_ok.mp normalized
        cases eq
        rw [get_insert_of_ne _ (by decide), get_insert_of_ne _ (by decide), get_insert_self]
      rw [signatureOf, objectOrEmpty_of_get container]
      rfl

/-- The core of the mandate verifies with the server signature it carries. -/
def CoreVerified (P : Platform) (mandate core : JsonDict) : Prop :=
  A4P.mandateCorePayload P mandate = .ok core ∧
    ∃ publicKey, ed25519VerifyText P (serverSignaturePayload P core)
      (strTrimmed P (signatureOf mandate "server") "signature") publicKey = true

theorem coreVerified_of_service (checked : t.checkServerSignature P mandate = .ok ()) :
    ∃ core, CoreVerified P mandate core := by
  unfold checkServerSignature at checked
  split at checked
  · cases checked
  · rename_i type
    have type := not_not.mp type
    split at checked
    · cases checked
    · rename_i normalized found
      obtain ⟨sameCore, sameSignature⟩ := normalize_ok found
      obtain ⟨core, key, built, -, verified⟩ := verifyServerSignature_ok checked
      rw [sameSignature] at verified
      refine ⟨core, ?_, P.verifyingKey key, verified⟩
      have core := sameCore.symm.trans built
      cases t with
      | intent =>
        have pos : (mandate.get "type").bind Json.asStr = some intentMandateType := type
        rw [A4P.mandateCorePayload, pos]
        exact mapError_eq_ok.mpr core
      | operation =>
        have pos : (mandate.get "type").bind Json.asStr = some operationMandateType := type
        rw [A4P.mandateCorePayload, pos]
        exact mapError_eq_ok.mpr core

theorem coreVerified_of_client {store : StaticA4PServerTrustStore}
    (verified : verifyTrustedServerMandate P mandate store = .ok core) :
    CoreVerified P mandate core := by
  obtain ⟨built, isCore, verified⟩ := bind_eq_ok.mp verified
  split at verified
  · cases verified
  · rename_i serverSignature found
    dsimp only at verified
    split at verified
    · cases verified
    · obtain ⟨publicKey, -, verified⟩ := bind_eq_ok.mp verified
      split at verified
      · rename_i valid
        cases verified
        have entry : signatureOf mandate "server" = serverSignature := by
          obtain ⟨signatures, isObject, server⟩ := Option.bind_eq_some_iff.mp found
          rw [signatureOf, objectOrEmpty, objectOrEmpty, isObject, Option.getD_some, server,
            Option.getD_some]
        exact ⟨isCore, publicKey, entry ▸ valid⟩
      · cases verified

theorem wellFormed_mandateCore (wf : mandate.WellFormed)
    (built : A4P.mandateCorePayload P mandate = .ok core) : core.WellFormed := by
  rcases SignedObject.mandateCorePayload_ok built with ⟨-, intent⟩ | ⟨-, operation⟩
  · exact wellFormed_intentCore wf intent
  · exact wellFormed_operationCore wf operation

theorem wellFormed_sign (wf : mandate.WellFormed) (isSigned : t.sign P mandate = .ok d) :
    d.WellFormed := by
  cases t with
  | intent =>
    obtain ⟨normalized, found, core, -, key, -, eq⟩ := bind₃_eq_ok.mp isSigned
    cases eq
    exact wellFormed_withServerSignature (wellFormed_intentMandate wf found)
      (wellFormed_serverSignatureEntry _ _ _)
  | operation =>
    obtain ⟨normalized, found, core, -, key, -, eq⟩ := bind₃_eq_ok.mp isSigned
    cases eq
    exact wellFormed_withServerSignature (wellFormed_operationMandate wf found)
      (wellFormed_serverSignatureEntry _ _ _)

/-- No public key accepts the signature for another text. -/
def Binds (P : Platform) (key : Bytes) (text : String) : Prop :=
  ∀ publicKey text', P.ed25519Verify publicKey text' (P.ed25519Sign key text) = true → text' = text

theorem same_core_of_verified (exp : LowerExp P) {other : JsonDict}
    (wf : payload.WellFormed) (wfOther : other.WellFormed)
    (ideal : Binds P key (serverSignaturePayload P payload))
    (carried : strTrimmed P (signatureOf other "server") "signature" =
      ed25519SignText P (serverSignaturePayload P payload) key)
    (verified : CoreVerified P other core) : Json.same (.obj payload) (.obj core) = true := by
  obtain ⟨built, publicKey, accepted⟩ := verified
  have wfCore := wellFormed_mandateCore wfOther built
  rw [carried, ed25519VerifyText, ed25519SignText, b64urlDecode_b64urlEncode] at accepted
  have texts := ideal publicKey _ (Bool.and_eq_true_iff.mp accepted).2
  have wfLeft := @SignedObject.envelope_wellFormed "server" "mandate" (by decide) payload wf
  have wfRight := @SignedObject.envelope_wellFormed "server" "mandate" (by decide) core wfCore
  have envelopes := canonicalJsonValue_inj exp wfLeft wfRight texts.symm
  obtain ⟨value, found, same⟩ := SignedObject.same_get wfLeft envelopes
    (rfl : JsonDict.get [("scope", .str "server"), ("mandate", .obj payload)] "mandate" = _)
  cases found
  exact same

end MandateType

/-- Service and clients accept a signed mandate, and no other core goes with its server signature.
-/
theorem server_signature_stable (P : Platform) (sound : Ed25519Sound P) (exp : LowerExp P)
    (t : MandateType) (mandate signed : JsonDict) (wf : mandate.WellFormed)
    (isSigned : t.sign P mandate = .ok signed) :
    t.normalize P signed = .ok signed ∧ t.Accepted P signed ∧
      (∀ signature, t.Accepted P (attachUserSignature signed signature)) ∧
      ∃ core key, mandateCorePayload P signed = .ok core ∧ t.signingKey P = .ok key ∧
        (MandateType.Binds P key (serverSignaturePayload P core) →
          ∀ other : JsonDict, other.WellFormed →
            strTrimmed P (signatureOf other "server") "signature" =
              strTrimmed P (signatureOf signed "server") "signature" →
            ((∃ t' : MandateType, t'.checkServerSignature P other = .ok ()) ∨
              ∃ store core', verifyTrustedServerMandate P other store = .ok core') →
            ∃ core', mandateCorePayload P other = .ok core' ∧
              Json.same (.obj core) (.obj core') = true) := by
  obtain ⟨payload, key, isOk⟩ := MandateType.sign_ok isSigned
  have core := isOk.normal.mandateCorePayload isOk.core
  refine ⟨isOk.normal.fixed, isOk.accepted sound,
    fun signature => (isOk.attach signature).accepted sound, payload, key, core, isOk.signingKey, ?_⟩
  intro ideal other wfOther carried accepted
  have text : strTrimmed P (signatureOf signed "server") "signature" =
      ed25519SignText P (serverSignaturePayload P payload) key := by
    rw [isOk.signature,
      strTrimmed_str P (s := ed25519SignText P (serverSignaturePayload P payload) key) rfl,
      trim_ed25519SignText]
  obtain ⟨core', verified⟩ : ∃ core', MandateType.CoreVerified P other core' := by
    rcases accepted with ⟨t', checked⟩ | ⟨store, core', verified⟩
    · exact MandateType.coreVerified_of_service checked
    · exact ⟨core', MandateType.coreVerified_of_client verified⟩
  have wfPayload := MandateType.wellFormed_mandateCore (MandateType.wellFormed_sign wf isSigned) core
  exact ⟨core', verified.1, MandateType.same_core_of_verified exp wfPayload wfOther ideal
    (carried.trans text) verified⟩

/-! ### A changed display text -/

namespace TrustSample

open HonestSample

/-- The server signing input of the sample mandate. -/
def signedText : String :=
  "\x7b\"mandate\":\x7b\"displayText\":\"pay\",\"operation\":\x7b\"action\":\"pay\",\"params\":\x7b\x7d\x7d,\"operationId\":\"op_AAAAAAAAAAAAAAAAAAAAAAAAAAAAAAAAAAAAAAAAAAA\",\"server\":\"server\",\"subject\":\x7b\"id\":\"agent:a1\",\"type\":\"agent\"\x7d,\"type\":\"a4p/v1/operation-mandate\",\"userAuthorization\":\x7b\"methodPolicy\":\x7b\x7d,\"required\":true,\"signatureMethod\":\"ed25519\"\x7d,\"validTime\":\x7b\"displayUntil\":\"2026-07-22 12:00:00 北京时间\",\"timezone\":\"Asia/Shanghai\",\"until\":\"2026-07-22T04:00:00Z\"\x7d\x7d,\"scope\":\"server\"\x7d"

/-- The platform of the sample flow, where signatures tell texts apart. -/
def trustPlatform : Platform :=
  { platform with
    floatLowerExp := SignedObject.codePlatform.floatLowerExp
    ed25519Sign := fun key text =>
      if key = serverKey ∧ text = signedText then serverSignature else List.replicate 64 0
    ed25519Verify := fun key text signature =>
      if key = serverPublicKey ∧ text = signedText then decide (signature = serverSignature)
      else decide (signature = List.replicate 64 0) }

theorem trustPlatform_sign (key : Bytes) (text : String) :
    trustPlatform.ed25519Sign key text =
      if key = serverKey ∧ text = signedText then serverSignature else List.replicate 64 0 := rfl

theorem trustPlatform_verify (key : Bytes) (text : String) (signature : Bytes) :
    trustPlatform.ed25519Verify key text signature =
      if key = serverPublicKey ∧ text = signedText then decide (signature = serverSignature)
      else decide (signature = List.replicate 64 0) := rfl

theorem trustPlatform_lowerExp : LowerExp trustPlatform :=
  ⟨SignedObject.codePlatform_lowerExp.shape, SignedObject.codePlatform_lowerExp.injective⟩

theorem trustPlatform_sound : Ed25519Sound trustPlatform where
  length key text := by
    simp only [trustPlatform]
    split_ifs
    · rfl
    · rfl
  verifies key text := by
    have others : userPublicKey ≠ serverPublicKey ∧ ([] : Bytes) ≠ serverPublicKey := by decide
    have same : (platform.verifyingKey key = serverPublicKey ∧ text = signedText) ↔
        (key = serverKey ∧ text = signedText) := by
      refine and_congr_left fun _ => ⟨fun isKey => ?_, fun isKey => if_pos isKey⟩
      by_contra other
      simp only [platform] at isKey
      split_ifs at isKey
      · exact others.1 isKey
      · exact others.2 isKey
    have keyOf : trustPlatform.verifyingKey key = platform.verifyingKey key := rfl
    rw [trustPlatform_verify, trustPlatform_sign, keyOf]
    by_cases signs : key = serverKey ∧ text = signedText
    · rw [if_pos (same.mpr signs), if_pos signs, decide_eq_true rfl]
    · rw [if_neg (mt same.mp signs), if_neg signs, decide_eq_true rfl]

theorem signedText_binds : MandateType.Binds trustPlatform serverKey signedText := by
  intro publicKey text accepted
  have other : serverSignature ≠ List.replicate 64 0 := by decide
  rw [trustPlatform_sign, if_pos ⟨rfl, rfl⟩] at accepted
  by_contra different
  rw [trustPlatform_verify, if_neg fun both => different both.2, decide_eq_true_eq] at accepted
  exact other accepted

set_option maxRecDepth 20000 in
theorem sample_text :
    (operationMandateCorePayload trustPlatform mandate).map (serverSignaturePayload trustPlatform) =
      .ok signedText := rfl

theorem sample_core : ∃ core, operationMandateCorePayload trustPlatform mandate = .ok core ∧
    serverSignaturePayload trustPlatform core = signedText ∧
      core.get "displayText" = some (.str "pay") := by
  have text := sample_text
  obtain ⟨core, built, member⟩ : ∃ core,
      operationMandateCorePayload trustPlatform mandate = .ok core ∧
        core.get "displayText" = some (.str "pay") := ⟨_, rfl, rfl⟩
  rw [built] at text
  exact ⟨core, built, Except.ok.inj text, member⟩

theorem sample_signed : signOperationMandate trustPlatform mandate = .ok mandate := by
  have normalized : normalizeOperationMandate trustPlatform mandate = .ok mandate :=
    NormalOperationMandate.fixed ⟨rfl, ⟨_, rfl, rfl⟩, ⟨_, _, rfl⟩, ⟨_, rfl⟩⟩
  obtain ⟨core, built, text, -⟩ := sample_core
  have made : ed25519SignText trustPlatform signedText serverKey = b64urlEncode serverSignature := by
    rw [ed25519SignText, trustPlatform_sign, if_pos ⟨rfl, rfl⟩]
  refine bind_eq_ok.mpr ⟨mandate, normalized, bind_eq_ok.mpr ⟨core, built, bind_eq_ok.mpr
    ⟨serverKey, rfl, ?_⟩⟩⟩
  rw [text, made]
  rfl

/-- The sample mandate with another display text and the same server signature. -/
def changedMandate : JsonDict := mandate.insert "displayText" (.str "pay nothing")

/-- The sample mandate is accepted and stays so, but not with another display text. -/
theorem changed_mandate_refused :
    MandateType.operation.checkServerSignature trustPlatform mandate = .ok () ∧
      MandateType.operation.checkServerSignature trustPlatform changedMandate ≠ .ok () := by
  obtain ⟨-, accepted, -, core, key, built, isKey, unique⟩ := server_signature_stable trustPlatform
    trustPlatform_sound trustPlatform_lowerExp .operation mandate mandate (by decide) sample_signed
  refine ⟨accepted.service, fun checked => ?_⟩
  obtain ⟨core', built', text, member⟩ := sample_core
  have normal : MandateType.operation.Normal trustPlatform mandate :=
    ⟨rfl, ⟨_, rfl, rfl⟩, ⟨_, _, rfl⟩, ⟨_, rfl⟩⟩
  have same : core = core' := by
    rw [normal.mandateCorePayload built'] at built
    exact (Except.ok.inj built).symm
  subst same
  cases isKey
  rw [text] at unique
  obtain ⟨changed, builtChanged, equal⟩ := unique signedText_binds changedMandate (by decide) rfl
    (.inl ⟨.operation, checked⟩)
  have shown : changed.get "displayText" = some (.str "pay nothing") := by
    obtain rfl := Except.ok.inj builtChanged
    rfl
  have wf : core.WellFormed := MandateType.wellFormed_mandateCore (by decide) built
  exact absurd (SignedObject.same_get_str wf equal member shown) (by decide)

end TrustSample

/-! ### Configured keys -/

namespace StaticA4PServerTrustStore

variable {P : Platform} {config : JsonDict} {store store' : StaticA4PServerTrustStore}

/-- The configuration lists the key for the server. -/
def Configured (P : Platform) (config : JsonDict) (serverId keyId : String) (publicKey : Bytes) : Prop :=
  ∃ server ∈ config, trim server.1 = serverId ∧ ∃ keys, server.2 = .obj keys ∧
    ∃ key ∈ keys, trim key.1 = keyId ∧ ∃ fields, key.2 = .obj fields ∧
      strTrimmed P fields "alg" = serverSignatureAlgorithm ∧
        ed25519PublicKeyFromBase64url P (strTrimmed P fields "publicKey") = .ok publicKey

/-- Every anchor is configured. -/
def Anchored (P : Platform) (config : JsonDict) (store : StaticA4PServerTrustStore) : Prop :=
  ∀ serverId keyId entry, store.trusted.get? (serverId, keyId) = some entry →
    entry.1 = serverSignatureAlgorithm ∧ Configured P config serverId keyId entry.2

theorem Anchored.addKey {server key : String × Json} {keys : JsonDict} (anchored : Anchored P config store)
    (mem : server ∈ config) (isKeys : server.2 = .obj keys) (inKeys : key ∈ keys)
    {isServer : trim server.1 ≠ ""} (added : addKey P isServer store key = .ok store') :
    Anchored P config store' := by
  unfold StaticA4PServerTrustStore.addKey at added
  split at added
  · cases added
  split at added
  · rename_i fields isFields
    dsimp only at added
    split at added
    · cases added
    · rename_i alg
      obtain ⟨publicKey, decoded, same⟩ := bind_eq_ok.mp added
      cases same
      intro serverId keyId entry found
      rw [trust, OrderedMap.get?_insert] at found
      split at found
      · rename_i same
        cases same
        cases found
        exact ⟨not_not.mp alg, server, mem, rfl, keys, isKeys, key, inKeys, rfl, fields, isFields,
          not_not.mp alg, decoded⟩
      · exact anchored serverId keyId entry found
  · cases added

theorem anchored_new (built : new P config = .ok store) : Anchored P config store := by
  obtain ⟨store', loaded, built⟩ := bind_eq_ok.mp built
  split at built <;> cases built
  refine foldlM_keeps (fun server mem s t anchored added => ?_) (fun _ _ _ found => by cases found) loaded
  unfold addServer at added
  split at added
  · cases added
  split at added
  · rename_i keys isKeys
    split at added
    · cases added
    · exact foldlM_keeps (fun key inKeys _ _ anchored added => anchored.addKey mem isKeys inKeys added)
        anchored added
  · cases added

end StaticA4PServerTrustStore

open StaticA4PServerTrustStore in
/-- A client accepts a mandate only with a signature of a key that its configuration lists for the
mandate's own server. -/
theorem accepted_key_configured {P : Platform} {config mandate core : JsonDict}
    {store : StaticA4PServerTrustStore} (built : new P config = .ok store)
    (accepted : verifyTrustedServerMandate P mandate store = .ok core) :
    mandateCorePayload P mandate = .ok core ∧ ∃ serverSignature publicKey,
      (getObject mandate "signatures").bind (fun signatures => getObject signatures "server") =
          some serverSignature ∧
        strTrimmed P serverSignature "alg" = serverSignatureAlgorithm ∧
        Configured P config (strTrimmed P core "server") (strTrimmed P serverSignature "keyId") publicKey ∧
        ed25519VerifyText P (serverSignaturePayload P core) (strTrimmed P serverSignature "signature")
          publicKey = true := by
  obtain ⟨built', isCore, accepted⟩ := bind_eq_ok.mp accepted
  split at accepted
  · cases accepted
  · rename_i serverSignature found
    dsimp only at accepted
    split at accepted
    · cases accepted
    · obtain ⟨publicKey, resolved, accepted⟩ := bind_eq_ok.mp accepted
      split at accepted
      · rename_i valid
        cases accepted
        unfold resolve at resolved
        split at resolved
        · cases resolved
        · rename_i alg key trusted
          split at resolved
          · cases resolved
          · rename_i same
            cases resolved
            obtain ⟨isAlg, configured⟩ := anchored_new built _ _ _ trusted
            exact ⟨isCore, serverSignature, _, found, (not_not.mp same).trans isAlg, configured, valid⟩
      · cases accepted

namespace TrustSample

open HonestSample

/-- The sample platform with every key and every signature valid. -/
def credulous : Platform :=
  { platform with
    isVerifyingKey := fun _ => true
    ed25519Verify := fun _ _ _ => true }

def sampleConfig : JsonDict :=
  [(" server ", .obj [(operationMandateServerKeyId, .obj [("alg", .str "EdDSA"),
    ("publicKey", .str "6kpsY-KcUgq-9VB7Ey7F-ZVHdq6-vnuSQh7qaRRG0iw")])])]

theorem sample_key_configured : ∃ store core,
    StaticA4PServerTrustStore.new credulous sampleConfig = .ok store ∧
    verifyTrustedServerMandate credulous mandate store = .ok core ∧
      mandateCorePayload credulous mandate = .ok core := by
  obtain ⟨store, core, built, accepted⟩ : ∃ store core,
    StaticA4PServerTrustStore.new credulous sampleConfig = .ok store ∧
      verifyTrustedServerMandate credulous mandate store = .ok core := ⟨_, _, rfl, rfl⟩
  exact ⟨store, core, built, accepted, (accepted_key_configured built accepted).1⟩

end TrustSample

end AgentProtocols.A4P
