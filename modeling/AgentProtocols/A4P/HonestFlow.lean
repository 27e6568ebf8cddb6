import AgentProtocols.A4P.Intent.Completion
import AgentProtocols.A4P.Operation.Completion

/-!
Honest flows of both authorization services. `honest_flow_completes_iff` says that untrimmed user
ids, a window end beyond the calendar and a clock set back are all that keeps one from its approval.
-/

namespace AgentProtocols.A4P

open Json Lib

/-- An honest flow is approved exactly when user id, window end and clock fit. -/
theorem honest_flow_completes_iff (P : Platform) (sound : Ed25519Sound P) (calendar : Calendar P) :
    (∀ (S : IntentAuthorizationService) (f : IntentFlow), f.Served P S → f.Honest P 3600 →
      (f.Approved P S ↔ f.Fits P 3600 ∧ f.preparedAt ≤ f.completedAt)) ∧
    (∀ (S : OperationAuthorizationService) (f : OperationFlow), f.Served P S → f.Honest P 300 →
      f.SameOperation → (f.Approved P S ↔ f.Fits P 300)) :=
  ⟨fun _ _ served honest => IntentFlow.Honest.approved_iff sound calendar served honest,
    fun _ _ served honest same => OperationFlow.Honest.approved_iff sound calendar served honest same⟩

namespace HonestSample

/-! ### A flow with two spellings of its user -/

/-- The seed of the development operation key, SHA-256 of its label. -/
def serverKey : Bytes :=
  [60, 195, 88, 249, 130, 108, 55, 148, 14, 234, 55, 157, 213, 232, 173, 40, 42, 104, 3, 192, 113,
    77, 133, 49, 151, 130, 89, 22, 172, 228, 124, 208]

def serverPublicKey : Bytes :=
  [62, 196, 192, 230, 208, 233, 81, 42, 36, 15, 142, 72, 45, 34, 172, 237, 127, 178, 226, 145,
    169, 33, 53, 119, 15, 188, 93, 1, 87, 168, 108, 159]

def userKey : Bytes := List.replicate 32 7

def userPublicKey : Bytes :=
  [234, 74, 108, 99, 226, 156, 82, 10, 190, 245, 80, 123, 19, 46, 197, 249, 149, 71, 118, 174,
    190, 190, 123, 146, 66, 30, 234, 105, 20, 70, 210, 44]

/-- The server's signature on the core of the mandate below. -/
def serverSignature : Bytes :=
  [190, 30, 235, 43, 103, 246, 89, 99, 242, 148, 90, 22, 131, 131, 165, 49, 197, 205, 137, 193,
    117, 79, 243, 94, 194, 82, 120, 167, 234, 81, 203, 2, 3, 225, 181, 144, 188, 209, 170, 253,
    38, 19, 175, 159, 46, 54, 136, 99, 29, 97, 24, 156, 125, 1, 146, 50, 54, 4, 178, 40, 17,
    126, 246, 10]

/-- The user's signature on the mandate below with the server's. -/
def userSignature : Bytes :=
  [239, 23, 117, 54, 127, 216, 244, 139, 188, 32, 44, 60, 67, 33, 92, 224, 112, 125, 243, 251,
    164, 107, 150, 255, 58, 78, 200, 108, 180, 163, 30, 102, 69, 64, 34, 186, 96, 237, 78, 45,
    250, 50, 92, 8, 140, 186, 33, 109, 247, 66, 178, 216, 219, 58, 23, 242, 52, 121, 124, 97,
    156, 200, 208, 14]

/-- The platform at the two texts that are signed in the flow and at the two ends
of its window. -/
def platform : Platform where
  floatDisplay _ := ""
  floatLowerExp _ := ""
  toLowercase s := s
  parseIsoZ s :=
    if s = "2026-07-22T03:55:00Z" then some 1784692500
    else if s = "2026-07-22T04:00:00Z" then some 1784692800
    else none
  formatIsoZ t :=
    if t = 1784692500 then "2026-07-22T03:55:00Z"
    else if t = 1784692800 then "2026-07-22T04:00:00Z"
    else ""
  formatBeijingDisplayTime _ := "2026-07-22 12:00:00 北京时间"
  sha256 _ := []
  isVerifyingKey raw := decide (raw = userPublicKey)
  verifyingKey key :=
    if key = serverKey then serverPublicKey else if key = userKey then userPublicKey else []
  ed25519Sign key _ :=
    if key = serverKey then serverSignature
    else if key = userKey then userSignature
    else List.replicate 64 0
  ed25519Verify key _ signature :=
    if key = serverPublicKey then decide (signature = serverSignature)
    else if key = userPublicKey then decide (signature = userSignature)
    else decide (signature = List.replicate 64 0)
  intentServerSigningKey := .error (.runtime "")
  operationServerSigningKey := .ok serverKey

theorem platform_sound : Ed25519Sound platform where
  length key text := by
    simp only [platform]
    split_ifs
    · rfl
    · rfl
    · rfl
  verifies key text := by
    have other : userPublicKey ≠ serverPublicKey := by decide
    have neither : ([] : Bytes) ≠ serverPublicKey ∧ ([] : Bytes) ≠ userPublicKey := by decide
    simp only [platform]
    by_cases server : key = serverKey
    · simp only [if_pos server, if_true, decide_true]
    by_cases user : key = userKey
    · simp only [if_neg server, if_pos user, if_neg other, if_true, decide_true]
    · simp only [if_neg server, if_neg user, if_neg neither.1, if_neg neither.2, decide_true]

theorem platform_calendar : Calendar platform where
  blank text empty := by
    have start : text ≠ "2026-07-22T03:55:00Z" := by
      rintro rfl
      exact absurd empty (by decide)
    have stop : text ≠ "2026-07-22T04:00:00Z" := by
      rintro rfl
      exact absurd empty (by decide)
    simp [platform, start, stop]
  round time held := by
    simp only [platform] at held ⊢
    by_cases start : time = 1784692500
    · simp [start]
    by_cases stop : time = 1784692800
    · simp [stop]
    · simp [start, stop] at held
  range time held := by
    simp only [platform] at held
    split_ifs at held
    · omega
    · omega
    · exact absurd rfl held

def service : OperationAuthorizationService := ⟨"server", some fun _ => "pay", true⟩

def record : UserCredentialRecord where
  userId := "alice"
  credentialId := "c1"
  signatureMethod := ed25519SignatureMethod
  publicKey := [("x", .str "6kpsY-KcUgq-9VB7Ey7F-ZVHdq6-vnuSQh7qaRRG0iw")]

def store : InMemoryCredentialStore := InMemoryCredentialStore.empty.save record

def signer : Ed25519UserSigner := ⟨"c1", userKey, by decide, by decide⟩

/-- The prepare request under a spelling of the user id. -/
def request (userId : String) : JsonDict :=
  [("agentId", .str "a1"), ("userId", .str userId), ("operation", .obj [("action", .str "pay")])]

/-- The mandate prepared for it, which does not name the user. -/
def mandate : JsonDict :=
  [("type", .str operationMandateType),
    ("operationId", .str "op_AAAAAAAAAAAAAAAAAAAAAAAAAAAAAAAAAAAAAAAAAAA"),
    ("server", .str "server"),
    ("subject", .obj [("type", .str "agent"), ("id", .str "agent:a1")]),
    ("operation", .obj [("action", .str "pay"), ("params", .obj [])]),
    ("validTime", .obj [("until", .str "2026-07-22T04:00:00Z"),
      ("displayUntil", .str "2026-07-22 12:00:00 北京时间"), ("timezone", .str "Asia/Shanghai")]),
    ("userAuthorization", .obj [("required", .bool true),
      ("signatureMethod", .str "ed25519"), ("methodPolicy", .obj [])]),
    ("displayText", .str "pay"),
    ("signatures", .obj [("server", .obj (serverSignatureEntry operationServerSignAlgorithm
      operationMandateServerKeyId (b64urlEncode serverSignature))), ("user", .obj [])])]

def signedMandate : JsonDict :=
  attachUserSignature mandate (ed25519Envelope "c1" (b64urlEncode userSignature))

def entry (userId : String) : PendingOperation :=
  ⟨request userId, [("action", .str "pay"), ("params", .obj [])], mandate, 1784692800⟩

def pending (userId : String) : PendingOperations :=
  OrderedMap.empty.insert "op_AAAAAAAAAAAAAAAAAAAAAAAAAAAAAAAAAAAAAAAAAAA" (entry userId)

/-- The flow under a spelling of the user id, with the prune of its completion. -/
def flow (userId : String) : OperationFlow where
  request := request userId
  store := store
  preparedAt := 1784692500
  random := List.replicate 32 0
  mandate := mandate
  options := [("signatureMethod", .str ed25519SignatureMethod),
    ("methodOptions", .obj [("allowedCredentialIds", .arr [.str "c1"])])]
  id := "op_AAAAAAAAAAAAAAAAAAAAAAAAAAAAAAAAAAAAAAAAAAA"
  signer := signer
  signedMandate := signedMandate
  completion := [("signedMandate", .obj signedMandate),
    ("operation", .obj [("action", .str "pay")])]
  laterStore := store
  completedAt := 1784692600
  pending := OrderedMap.empty
  prepared := pending userId
  others := [(.prune 1784692600, .pruned)]
  found := pending userId

theorem prepared {userId : String} (spelled : userId = "alice" ∨ userId = " alice") :
    service.prepareInner platform (request userId) (some (registeredEd25519Method platform store))
        1784692500 (List.replicate 32 0) =
      .ok ("op_AAAAAAAAAAAAAAAAAAAAAAAAAAAAAAAAAAAAAAAAAAA",
        [("action", .str "pay"), ("params", .obj [])], mandate,
        [("signatureMethod", .str ed25519SignatureMethod),
          ("methodOptions", .obj [("allowedCredentialIds", .arr [.str "c1"])])]) := by
  rcases spelled with rfl | rfl
  · exact rfl
  · exact rfl

theorem signed :
    signUserMandateWithSigner platform mandate (signer.toUserSigner platform) =
      .ok signedMandate := rfl

theorem registeredKey :
    ed25519PublicKeyFromBase64url platform (strTrimmed platform record.publicKey "x") =
      .ok (platform.verifyingKey signer.privateKey) := rfl

theorem expiry : OperationAuthorizationService.pendingExpiry platform mandate = 1784692800 := by
  decide +kernel

theorem identified : mandateIdentifier platform mandate =
    .ok "op_AAAAAAAAAAAAAAAAAAAAAAAAAAAAAAAAAAAAAAAAAAA" := rfl

theorem pruned (userId : String) : pruneExpired (pending userId) 1784692600 = pending userId := rfl

theorem accepted {userId : String} (spelled : userId = "alice" ∨ userId = " alice") :
    service.prepare platform OrderedMap.empty (request userId)
        (some (registeredEd25519Method platform store)) 1784692500 (List.replicate 32 0) =
      (.ok { mandate := some mandate
             signingOptions := [("signatureMethod", .str ed25519SignatureMethod),
               ("methodOptions", .obj [("allowedCredentialIds", .arr [.str "c1"])])] },
        pending userId) := by
  rw [OperationAuthorizationService.prepare, prepared spelled]
  dsimp only
  rfl

theorem pruning_foreign (userId : String) : (flow userId).Foreign platform (pending userId)
    (.prune 1784692600, .pruned) := by
  refine ⟨nofun, nofun, ?_⟩
  intro time isPrune validity isValidity
  cases isPrune
  cases isValidity
  show (1784692600 : Int) < 1784692500 + 300
  decide

theorem served {userId : String} (spelled : userId = "alice" ∨ userId = " alice") :
    (flow userId).Served platform service where
  accepted := ⟨_, accepted spelled, rfl, rfl⟩
  identified := identified
  others := by
    have kept : service.Serves platform (pending userId) (.prune 1784692600, .pruned)
        (pending userId) := by
      rw [OperationAuthorizationService.Serves, OperationAuthorizationService.serve, pruned]
    exact .cons ⟨pruning_foreign userId, kept⟩ (.nil _)

theorem honest (userId : String) : (flow userId).Honest platform 300 where
  wellFormed := by
    apply wellFormed_obj.mpr
    simp [flow, request]
  clock := by
    show platform.formatIsoZ 1784692500 ≠ ""
    decide
  allowed := List.mem_singleton_self "c1"
  key := by
    intro found isFound
    cases isFound
    exact registeredKey
  registered := rfl
  signed := signed
  submitted := rfl
  timely := by
    intro validity isValidity
    cases isValidity
    show (1784692600 : Int) < 1784692500 + 300
    decide

theorem fits : (flow "alice").Fits platform 300 where
  userId := rfl
  window := by
    intro validity isValidity
    cases isValidity
    show platform.formatIsoZ (1784692500 + 300) ≠ ""
    decide

/-- The flow of alice is approved. -/
theorem alice_approved : (flow "alice").Served platform service ∧
    (flow "alice").Honest platform 300 ∧ (flow "alice").Approved platform service := by
  have both := honest_flow_completes_iff platform platform_sound platform_calendar
  have approved := both.2 service (flow "alice") (served (.inl rfl)) (honest "alice") rfl
  exact ⟨served (.inl rfl), honest "alice", approved.mpr fits⟩

/-- With a blank before the user id the flow is refused by `complete`. -/
theorem padded_alice_refused : (flow " alice").Served platform service ∧
    (flow " alice").Honest platform 300 ∧ (flow " alice").SameOperation ∧
      ¬(flow " alice").Approved platform service := by
  have approved := OperationFlow.Honest.approved_iff platform_sound platform_calendar
    (served (.inr rfl)) (honest " alice") rfl
  refine ⟨served (.inr rfl), honest " alice", rfl, fun isApproved => ?_⟩
  have same := (approved.mp isApproved).userId
  have padded : strOrEmpty platform (request " alice") "userId" ≠
      strTrimmed platform (request " alice") "userId" := by
    decide
  exact padded same

end HonestSample

end AgentProtocols.A4P
