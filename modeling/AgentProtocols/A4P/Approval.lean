import AgentProtocols.A4P.Intent.Approval
import AgentProtocols.A4P.Operation.Approval

/-!
One approval per prepared mandate, for both authorization services, by `TakenOnce`. The calendar
library has to contribute that a blank text is no date.
-/

namespace AgentProtocols.A4P

open Json Lib OperationAuthorizationService

/-- A prepared mandate is approved at most once, in every interleaving, and only as it may be. -/
theorem one_approval_per_mandate (P : Platform)
    (blank : ∀ text, trim text = "" → P.parseIsoZ text = none) :
    (∀ S : IntentAuthorizationService,
      TakenOnce (S.Serves P) (IntentAuthorizationService.prepares P)
        (IntentAuthorizationService.approves P) (S.MayApprove P) ∧
      ∀ pending l pending', S.Serves P pending l pending' →
        IntentAuthorizationService.prepares P l = none →
        IntentAuthorizationService.approves P l = none → pending' = pending) ∧
    (∀ S : OperationAuthorizationService,
      TakenOnce (S.Serves P) (prepares P)
        (approves P) (S.MayApprove P) ∧
      ∀ pending l pending', S.Serves P pending l pending' →
        prepares P l = none →
        approves P l = none →
        ∀ id entry, (pending'.get? id = some entry → pending.get? id = some entry) ∧
          (pending.get? id = some entry → pending'.get? id = some entry ∨
            ∃ now, l.1 = .prune now ∧ entry.expireAtEpoch ≤ now)) := by
  refine ⟨fun S => ⟨IntentAuthorizationService.intent_takenOnce blank, ?_⟩,
    fun S => ⟨operation_takenOnce, ?_⟩⟩
  · intro pending l pending' step unprepared unapproved
    exact IntentAuthorizationService.serves_kept blank step unprepared unapproved
  · intro pending l pending' step unprepared unapproved id entry
    rcases serves_kept step unprepared unapproved with
      rfl | ⟨now, call, rfl⟩
    · exact ⟨fun there => there, .inl⟩
    · rw [get?_pruneExpired]
      refine ⟨And.left, fun there => ?_⟩
      by_cases live : now < entry.expireAtEpoch
      · exact .inl ⟨there, live⟩
      · exact .inr ⟨now, call, not_lt.mp live⟩

/-! ### An approval -/

/-- The seed of the development operation key, SHA-256 of its label. -/
def approvalSigningKey : Bytes :=
  [60, 195, 88, 249, 130, 108, 55, 148, 14, 234, 55, 157, 213, 232, 173, 40, 42, 104, 3, 192, 113,
    77, 133, 49, 151, 130, 89, 22, 172, 228, 124, 208]

def approvalVerifyingKey : Bytes :=
  [62, 196, 192, 230, 208, 233, 81, 42, 36, 15, 142, 72, 45, 34, 172, 237, 127, 178, 226, 145, 169,
    33, 53, 119, 15, 188, 93, 1, 87, 168, 108, 159]

/-- The id of the prepared operation. -/
def approvalId : String := "op_AAAAAAAAAAAAAAAAAAAAAAAAAAAAAAAAAAAAAAAAAAA"

/-- The server signing input of `approvalMandate`. -/
def approvalPayload : String :=
  "\x7b\"mandate\":\x7b\"displayText\":\"pay\",\"operation\":\x7b\"action\":\"pay\",\"params\":\x7b\x7d\x7d,\"operationId\":\"op_AAAAAAAAAAAAAAAAAAAAAAAAAAAAAAAAAAAAAAAAAAA\",\"server\":\"server\",\"subject\":\x7b\"id\":\"agent:a1\",\"type\":\"agent\"\x7d,\"type\":\"a4p/v1/operation-mandate\",\"userAuthorization\":\x7b\"required\":false\x7d,\"validTime\":\x7b\"displayUntil\":\"2026-07-22 12:00:00 北京时间\",\"timezone\":\"Asia/Shanghai\",\"until\":\"2026-07-22T04:00:00Z\"\x7d\x7d,\"scope\":\"server\"\x7d"

/-- The Ed25519 signature of `approvalPayload` under that key. -/
def approvalSignature : Bytes :=
  [80, 229, 189, 137, 227, 34, 54, 222, 138, 1, 215, 175, 151, 114, 250, 114, 119, 12, 141, 110, 197,
    107, 183, 106, 251, 250, 15, 191, 75, 234, 109, 194, 125, 224, 178, 18, 13, 129, 3, 125, 24, 149,
    255, 76, 99, 6, 237, 220, 102, 195, 34, 212, 6, 243, 255, 211, 177, 180, 118, 9, 200, 76, 8, 15]

/-- The platform at the values one authorization asks for. -/
def approvalPlatform : Platform where
  floatDisplay _ := ""
  floatLowerExp _ := ""
  toLowercase s := s
  parseIsoZ s := if s = "2026-07-22T04:00:00Z" then some 1784692800 else none
  formatIsoZ _ := "2026-07-22T04:00:00Z"
  formatBeijingDisplayTime _ := "2026-07-22 12:00:00 北京时间"
  sha256 _ := []
  isVerifyingKey _ := false
  verifyingKey _ := approvalVerifyingKey
  ed25519Sign _ _ := approvalSignature
  ed25519Verify key text signature :=
    decide (key = approvalVerifyingKey ∧ text = approvalPayload ∧ signature = approvalSignature)
  intentServerSigningKey := .error (.runtime "")
  operationServerSigningKey := .ok approvalSigningKey

theorem approvalPlatform_blank (text : String) (empty : trim text = "") :
    approvalPlatform.parseIsoZ text = none := by
  have other : text ≠ "2026-07-22T04:00:00Z" := by
    rintro rfl
    exact absurd empty (by decide)
  exact if_neg other

/-- A service that asks for no user signature. -/
def approvalService : OperationAuthorizationService := ⟨"server", some fun _ => "pay", false⟩

def approvalRequest : JsonDict :=
  [("agentId", .str "a1"), ("userId", .str "u1"), ("operation", .obj [("action", .str "pay")])]

/-- The mandate prepared for it, at 2026-07-22T03:55:00Z. -/
def approvalMandate : JsonDict :=
  [("type", .str operationMandateType),
    ("operationId", .str approvalId),
    ("server", .str "server"),
    ("subject", .obj [("type", .str "agent"), ("id", .str "agent:a1")]),
    ("operation", .obj [("action", .str "pay"), ("params", .obj [])]),
    ("validTime", .obj [("until", .str "2026-07-22T04:00:00Z"),
      ("displayUntil", .str "2026-07-22 12:00:00 北京时间"), ("timezone", .str "Asia/Shanghai")]),
    ("userAuthorization", .obj [("required", .bool false)]),
    ("displayText", .str "pay"),
    ("signatures", .obj [("server", .obj (serverSignatureEntry "EdDSA" "server#operation-mandate-k1"
      (b64urlEncode approvalSignature))), ("user", .obj [])])]

def approvalEntry : PendingOperation :=
  ⟨approvalRequest, [("action", .str "pay"), ("params", .obj [])], approvalMandate, 1784692800⟩

theorem approval_prepared :
    approvalService.prepareInner approvalPlatform approvalRequest none 1784692500
      (List.replicate 32 0) =
      .ok (approvalId, [("action", .str "pay"), ("params", .obj [])], approvalMandate, []) := rfl

def approvalCompletion : JsonDict :=
  [("signedMandate", .obj approvalMandate), ("operation", .obj [("action", .str "pay")])]

theorem approval_checked :
    approvalService.checkCompletion approvalPlatform approvalEntry approvalCompletion
      approvalMandate none 1784692600 = .ok () :=
  isOk_iff.mp (by decide +kernel)

/-- The sections of a prepare and of a completion, with their replies. -/
def approvalTrace : List (OperationSection × OperationReply) :=
  [(.prune 1784692500, .pruned),
    (.prepare approvalRequest none 1784692500 (List.replicate 32 0),
      .challenge (.ok { mandate := some approvalMandate })),
    (.prune 1784692600, .pruned),
    (.complete approvalCompletion none 1784692600,
      .result
        { operationId := some approvalId
          approved := true
          verificationResult := some (.ok none) })]

def approvalPending : PendingOperations := OrderedMap.empty.insert approvalId approvalEntry

theorem approval_prepare : approvalService.prepare approvalPlatform OrderedMap.empty approvalRequest
    none 1784692500 (List.replicate 32 0) =
    (.ok { mandate := some approvalMandate }, approvalPending) := by
  rw [prepare, approval_prepared]
  rfl

theorem approval_complete : approvalService.complete approvalPlatform approvalPending
    approvalCompletion none 1784692600 =
    ({ operationId := some approvalId, approved := true, verificationResult := some (.ok none) },
      approvalPending.erase approvalId) := by
  have found : getObject approvalCompletion "signedMandate" = some approvalMandate := rfl
  have identified : mandateIdentifier approvalPlatform approvalMandate = .ok approvalId := rfl
  have there : approvalPending.get? approvalId = some approvalEntry := OrderedMap.get?_insert_self
  exact complete_of_checked found identified there approval_checked

theorem approval_pruned : pruneExpired approvalPending 1784692600 = approvalPending := rfl

theorem approval_run :
    ∃ pending, Run (approvalService.Serves approvalPlatform) OrderedMap.empty approvalTrace
      pending := by
  have pruned : approvalService.Serves approvalPlatform OrderedMap.empty
      (.prune 1784692500, .pruned) OrderedMap.empty := rfl
  have prepared : approvalService.Serves approvalPlatform OrderedMap.empty
      (.prepare approvalRequest none 1784692500 (List.replicate 32 0),
        .challenge (.ok { mandate := some approvalMandate })) approvalPending := by
    rw [OperationAuthorizationService.Serves, serve, approval_prepare]
    rfl
  have kept : approvalService.Serves approvalPlatform approvalPending
      (.prune 1784692600, .pruned) approvalPending := by
    rw [OperationAuthorizationService.Serves, serve, approval_pruned]
  have completed : approvalService.Serves approvalPlatform approvalPending
      (.complete approvalCompletion none 1784692600, .result
        { operationId := some approvalId, approved := true, verificationResult := some (.ok none) })
      (approvalPending.erase approvalId) := by
    rw [OperationAuthorizationService.Serves, serve, approval_complete]
    rfl
  exact ⟨_, .cons pruned (.cons prepared (.cons kept (.cons completed (.nil _))))⟩

/-- A prepared operation is approved, once. -/
theorem one_approval_of_sample :
    (approvalTrace.filterMap (approves approvalPlatform)).Nodup ∧
      approvalTrace.filterMap (approves approvalPlatform) =
        [approvalId] := by
  obtain ⟨pending, run⟩ := approval_run
  have issued : approvalTrace.filterMap
      (issuedKey (prepares approvalPlatform)) =
      [approvalId] := rfl
  have both := one_approval_per_mandate approvalPlatform approvalPlatform_blank
  refine ⟨((both.2 approvalService).1 approvalTrace pending run ?_).1, rfl⟩
  rw [issued]
  exact List.nodup_singleton _

end AgentProtocols.A4P
