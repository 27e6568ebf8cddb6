import AgentProtocols.A4P.HonestFlow

/-!
The end of a mandate's validity window, an `i64` sum that the calendar library may not write.
`window_end_exact_iff` says that the signed end is the exact sum precisely when it can.
-/

namespace AgentProtocols.A4P

open Json Lib

section

variable {P : Platform}

/-- The member `key` of the window of the mandate is read back as `time`, which an
`i64` holds. -/
def WindowEndsAt (P : Platform) (mandate : JsonDict) (key : String) (time : Int) : Prop :=
  (-2 ^ 63 ≤ time ∧ time < 2 ^ 63) ∧
    ∃ text, (objectOrEmpty mandate "validTime").get key = some (.str text) ∧
      P.parseIsoZ text = some time

theorem parse_formatIsoZ_addI64_iff (calendar : Calendar P) (now validity : Int) :
    (-2 ^ 63 ≤ now + validity ∧ now + validity < 2 ^ 63) ∧
        P.parseIsoZ (P.formatIsoZ (addI64 now validity)) = some (now + validity) ↔
      P.formatIsoZ (now + validity) ≠ "" := by
  constructor
  · rintro ⟨⟨lower, upper⟩, read⟩ unwritten
    rw [addI64, Int.bmod_eq_of_le (by omega) (by omega), unwritten, calendar.blank "" rfl] at read
    cases read
  · intro written
    obtain ⟨lower, upper⟩ := calendar.range _ written
    have exact' : addI64 now validity = now + validity := by
      rw [addI64, Int.bmod_eq_of_le (by omega) (by omega)]
    exact ⟨⟨by omega, by omega⟩, by rw [exact', calendar.round _ written]⟩

theorem windowEndsAt_iff {mandate window : JsonDict} {key text : String} {time : Int}
    (validTime : mandate.get "validTime" = some (.obj window))
    (member : window.get key = some (.str text)) :
    WindowEndsAt P mandate key time ↔
      (-2 ^ 63 ≤ time ∧ time < 2 ^ 63) ∧ P.parseIsoZ text = some time := by
  rw [WindowEndsAt, objectOrEmpty_of_get validTime, member]
  constructor
  · rintro ⟨fits, given, same, read⟩
    cases same
    exact ⟨fits, read⟩
  · rintro ⟨fits, read⟩
    exact ⟨fits, text, rfl, read⟩

theorem IntentAuthorizationService.prepareInner_window {S : IntentAuthorizationService}
    {request intent : JsonDict} {method : Option UserSignatureMethod} {now : Int} {random : Bytes}
    {id : String} {mandate options : JsonDict}
    (prepared : S.prepareInner P request intent method now random = .ok (id, mandate, options)) :
    ∃ validity, validitySeconds request 3600 = .ok validity ∧
      mandate.get "validTime" = some (.obj [("start", .str (P.formatIsoZ now)),
        ("end", .str (P.formatIsoZ (addI64 now validity)))]) := by
  obtain ⟨agentId, -, userId, -, validity, isValidity, _, -, prepared⟩ := bind₄_eq_ok.mp prepared
  obtain ⟨created, isCreated, identifier, -, signingOptions, -, eq⟩ := bind₃_eq_ok.mp prepared
  cases eq
  exact ⟨validity, isValidity, (createIntentMandate_ok isCreated).2.2⟩

theorem OperationAuthorizationService.prepareInner_window {S : OperationAuthorizationService}
    {request : JsonDict} {method : Option UserSignatureMethod} {now : Int} {random : Bytes}
    {id : String} {operation mandate options : JsonDict}
    (prepared : S.prepareInner P request method now random =
      .ok (id, operation, mandate, options)) :
    ∃ validity display, validitySeconds request 300 = .ok validity ∧
      mandate.get "validTime" = some (.obj [("until", .str (P.formatIsoZ (addI64 now validity))),
        ("displayUntil", .str display), ("timezone", .str "Asia/Shanghai")]) := by
  obtain ⟨agentId, -, userId, -, validity, isValidity, normalized, -, prepared⟩ :=
    bind₄_eq_ok.mp prepared
  obtain ⟨created, isCreated, identifier, -, signingOptions, -, eq⟩ := bind₃_eq_ok.mp prepared
  cases eq
  obtain ⟨_, _, display, _, _, _, validTime⟩ := createOperationMandate_ok isCreated
  exact ⟨validity, display, isValidity, validTime⟩

end

/-- The window ends exactly the validity after the clock if and only if the calendar can write that.
-/
theorem window_end_exact_iff (P : Platform) (calendar : Calendar P) (now : Int)
    (request : JsonDict) (method : Option UserSignatureMethod) (random : Bytes) :
    (∀ (S : IntentAuthorizationService) (pending pending' : PendingIntents)
        (response : IntentAuthorizationResponse) (mandate : JsonDict),
      S.prepare P pending request method now random = (.ok response, pending') →
      response.mandate = some mandate →
      ∃ validity, validitySeconds request 3600 = .ok validity ∧
        (WindowEndsAt P mandate "end" (now + validity) ↔ P.formatIsoZ (now + validity) ≠ "")) ∧
    (∀ (S : OperationAuthorizationService) (pending pending' : PendingOperations)
        (challenge : OperationAuthorizationChallenge) (mandate : JsonDict),
      S.prepare P pending request method now random = (.ok challenge, pending') →
      challenge.mandate = some mandate →
      ∃ validity, validitySeconds request 300 = .ok validity ∧
        (WindowEndsAt P mandate "until" (now + validity) ↔
          P.formatIsoZ (now + validity) ≠ "")) := by
  constructor
  · intro S pending pending' response mandate accepted answered
    obtain ⟨id, inner, -⟩ := IntentAuthorizationService.prepare_accepted accepted answered
    obtain ⟨validity, isValidity, validTime⟩ :=
      IntentAuthorizationService.prepareInner_window inner
    refine ⟨validity, isValidity, ?_⟩
    rw [windowEndsAt_iff validTime rfl]
    exact parse_formatIsoZ_addI64_iff calendar now validity
  · intro S pending pending' challenge mandate accepted answered
    obtain ⟨id, operation, inner, -⟩ :=
      OperationAuthorizationService.prepare_accepted accepted answered
    obtain ⟨validity, display, isValidity, validTime⟩ :=
      OperationAuthorizationService.prepareInner_window inner
    refine ⟨validity, isValidity, ?_⟩
    rw [windowEndsAt_iff validTime rfl]
    exact parse_formatIsoZ_addI64_iff calendar now validity

namespace HonestSample

/-- The window of the sample flow ends where it should. -/
theorem alice_window : ∃ validity, validitySeconds (request "alice") 300 = .ok validity ∧
    WindowEndsAt platform mandate "until" (1784692500 + validity) := by
  have both := window_end_exact_iff platform platform_calendar 1784692500
    (request "alice") (some (registeredEd25519Method platform store)) (List.replicate 32 0)
  obtain ⟨validity, isValidity, exact'⟩ :=
    both.2 service OrderedMap.empty _ _ mandate (accepted (.inl rfl)) rfl
  have written : platform.formatIsoZ (1784692500 + validity) ≠ "" :=
    fits.window validity isValidity
  exact ⟨validity, isValidity, exact'.mpr written⟩

end HonestSample

namespace FarWindow

open HonestSample

/-- The server's signature on the mandate below. -/
def farSignature : Bytes :=
  [233, 229, 127, 190, 78, 8, 211, 8, 229, 198, 146, 238, 152, 47, 233, 171, 240, 19, 254, 200,
    255, 181, 188, 100, 31, 11, 187, 8, 32, 27, 106, 227, 40, 171, 30, 157, 11, 124, 1, 85, 87,
    96, 184, 144, 15, 253, 114, 197, 226, 233, 122, 134, 156, 158, 146, 57, 49, 246, 204, 62,
    239, 237, 177, 6]

/-- The calendar of the sample flow, with the signature of the mandate below. -/
def farPlatform : Platform :=
  { platform with
    formatBeijingDisplayTime := fun text => text
    ed25519Sign := fun _ _ => farSignature }

theorem farPlatform_calendar : Calendar farPlatform :=
  ⟨platform_calendar.blank, platform_calendar.round, platform_calendar.range⟩

def farService : OperationAuthorizationService := ⟨"server", some fun _ => "pay", false⟩

/-- A request for some three hundred thousand years. -/
def farRequest : JsonDict :=
  [("agentId", .str "a1"), ("userId", .str "alice"), ("operation", .obj [("action", .str "pay")]),
    ("validitySeconds", .num (.ofI64 10000000000000))]

/-- The mandate signed for it, whose window ends at no time. -/
def farMandate : JsonDict :=
  [("type", .str operationMandateType),
    ("operationId", .str "op_AAAAAAAAAAAAAAAAAAAAAAAAAAAAAAAAAAAAAAAAAAA"),
    ("server", .str "server"),
    ("subject", .obj [("type", .str "agent"), ("id", .str "agent:a1")]),
    ("operation", .obj [("action", .str "pay"), ("params", .obj [])]),
    ("validTime", .obj [("until", .str ""), ("displayUntil", .str ""),
      ("timezone", .str "Asia/Shanghai")]),
    ("userAuthorization", .obj [("required", .bool false)]),
    ("displayText", .str "pay"),
    ("signatures", .obj [("server", .obj (serverSignatureEntry operationServerSignAlgorithm
      operationMandateServerKeyId (b64urlEncode farSignature))), ("user", .obj [])])]

theorem far_prepared : farService.prepareInner farPlatform farRequest none 1784692500
    (List.replicate 32 0) =
    .ok ("op_AAAAAAAAAAAAAAAAAAAAAAAAAAAAAAAAAAAAAAAAAAA",
      [("action", .str "pay"), ("params", .obj [])], farMandate, []) := rfl

/-- The request is accepted, and the window of its mandate ends at no time at all. -/
theorem far_window_lost : Calendar farPlatform ∧
    (∃ pending, farService.prepare farPlatform OrderedMap.empty farRequest none 1784692500
      (List.replicate 32 0) = (.ok { mandate := some farMandate }, pending)) ∧
    validitySeconds farRequest 300 = .ok 10000000000000 ∧
    ¬WindowEndsAt farPlatform farMandate "until" (1784692500 + 10000000000000) := by
  have accepted : ∃ pending, farService.prepare farPlatform OrderedMap.empty farRequest none
      1784692500 (List.replicate 32 0) = (.ok { mandate := some farMandate }, pending) := by
    rw [OperationAuthorizationService.prepare, far_prepared]
    exact ⟨_, rfl⟩
  refine ⟨farPlatform_calendar, accepted, rfl, ?_⟩
  rintro ⟨-, text, found, read⟩
  cases found
  cases read

end FarWindow

end AgentProtocols.A4P
