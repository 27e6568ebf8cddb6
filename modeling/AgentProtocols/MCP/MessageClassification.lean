import AgentProtocols.JsonRpc.Messages

/-!
How the MCP SDK tells incoming messages apart. `classify_toValue_iff` says which messages
`classifyMessage` gives back as they were, and `classify_id` which id an accepted one carries.
-/

namespace AgentProtocols.MCP.MessageClassification

open Json

/-! ### The classifier -/

/-- Why an incoming payload was rejected. -/
inductive MessageParseError where
  | invalidJson (message : String)
  | invalidMessage (id : JsonRpc.RequestId) (message : String) (hasMethod : Bool)
deriving DecidableEq

def idFromValue : Option Json → JsonRpc.RequestId
  | some (.str s) => .string s
  | some (.num n) => ((n.asI64.map fun i => .number (Int64.ofInt i)).getD (.number 0))
  | _ => .number 0

def invalid (obj : JsonDict) (detail : String) : MessageParseError :=
  .invalidMessage (idFromValue (obj.get "id")) ("Deserialization Failed: " ++ detail)
    (obj.containsKey "method")

def isInteger : Number → Bool
  | .float _ => false
  | _ => true

def validId : Option Json → Bool
  | some (.str _) => true
  | some (.num n) => isInteger n
  | _ => false

/-- The members of the error object, when `error` is an object. -/
def errorFields (obj : JsonDict) : Option JsonDict := (obj.get "error").bind Json.asObject

def hasCode (obj : JsonDict) : Bool :=
  ((errorFields obj).map fun e => e.containsKey "code").getD false

def badId (obj : JsonDict) : MessageParseError := invalid obj "id must be a string or an integer"

def asRequest (obj : JsonDict) : Except MessageParseError JsonRpc.Message :=
  if !validId (obj.get "id") then .error (badId obj)
  else
    match (obj.get "method").bind Json.asStr with
    | none => .error (invalid obj "method must be a string")
    | some method =>
      .ok (.request (.new (idFromValue (obj.get "id")) method (obj.get "params")))

def asResponse (obj : JsonDict) : Except MessageParseError JsonRpc.Message :=
  if !validId (obj.get "id") then .error (badId obj)
  else
    .ok (.response
      ⟨JsonRpc.jsonrpcVersion, some (idFromValue (obj.get "id")), obj.get "result", none⟩)

def asNotification (obj : JsonDict) : Except MessageParseError JsonRpc.Message :=
  match (obj.get "method").bind Json.asStr with
  | none => .error (invalid obj "method must be a string")
  | some method => .ok (.notification (.new method (obj.get "params")))

def asErrorResponse (obj : JsonDict) : Except MessageParseError JsonRpc.Message :=
  if !validId (obj.get "id") then .error (badId obj)
  else
    let error := (errorFields obj).getD []
    match (error.get "code").bind JsonRpc.decodeI64 with
    | none => .error (invalid obj "error.code must be an integer")
    | some code =>
      match (error.get "message").bind Json.asStr with
      | none => .error (invalid obj "error.message must be a string")
      | some message =>
        .ok (.response (.failure (some (idFromValue (obj.get "id")))
          ⟨code, message, error.get "data"⟩))

/-- The members of an object as a message. -/
def classifyFields (obj : JsonDict) : Except MessageParseError JsonRpc.Message :=
  if (obj.get "jsonrpc").bind Json.asStr ≠ some JsonRpc.jsonrpcVersion then
    .error (invalid obj "jsonrpc must be \"2.0\"")
  else if obj.containsKey "id" && obj.containsKey "method" then asRequest obj
  else if obj.containsKey "id" && !obj.containsKey "method" && !hasCode obj then asResponse obj
  else if !obj.containsKey "id" && obj.containsKey "method" then asNotification obj
  else if obj.containsKey "id" && hasCode obj then asErrorResponse obj
  else .error (invalid obj "No matching message type")

def classifyMessage : Json → Except MessageParseError JsonRpc.Message
  | .obj fields => classifyFields fields
  | _ => .error (.invalidMessage (.number 0) "Deserialization Failed: No matching message type" false)

/-! ### Ids -/

theorem ofI64_asI64 {n : Number} {i : Int} (read : n.asI64 = some i) : Number.ofI64 i = n := by
  obtain ⟨lower, upper⟩ := Number.asI64_range read
  have fixed : i.bmod (2 ^ 64) = i := by
    rw [Int.bmod_eq_iff (by decide)]
    omega
  unfold Number.ofI64
  cases n with
  | posInt n bound =>
    simp only [Number.asI64] at read
    split at read
    · cases read
      rw [dif_pos (by rw [fixed]; omega), Number.posInt.injEq, fixed, Int.toNat_natCast]
    · cases read
  | negInt j negative bound =>
    cases read
    rw [dif_neg (by rw [fixed]; omega), Number.negInt.injEq, fixed]
  | float f => cases read

/-- A member that a request id can hold: a string or an integer in range. -/
def Representable : Json → Prop
  | .str _ => True
  | .num n => n.asI64.isSome = true
  | _ => False

theorem toValue_idFromValue {v : Json} (representable : Representable v) :
    (idFromValue (some v)).toValue = v := by
  cases v with
  | str s => rfl
  | num n =>
    obtain ⟨i, read⟩ := Option.isSome_iff_exists.mp representable
    obtain ⟨lower, upper⟩ := Number.asI64_range read
    rw [idFromValue, read, Option.map_some, Option.getD_some, JsonRpc.RequestId.toValue,
      Int64.toInt_ofInt_of_le lower upper, ofI64_asI64 read]
  | null | bool | arr | obj => exact representable.elim

theorem isInteger_of_asI64 {n : Number} {i : Int} (read : n.asI64 = some i) :
    isInteger n = true := by
  cases n with
  | posInt | negInt => rfl
  | float f => cases read

theorem idFromValue_toValue (id : JsonRpc.RequestId) :
    validId (some id.toValue) = true ∧ idFromValue (some id.toValue) = id := by
  cases id with
  | number n =>
    have read := Number.asI64_ofI64 n.le_toInt n.toInt_lt
    refine ⟨isInteger_of_asI64 read, ?_⟩
    rw [JsonRpc.RequestId.toValue, idFromValue, read, Option.map_some, Option.getD_some,
      Int64.ofInt_toInt]
  | string s => exact ⟨rfl, rfl⟩

def idOf : JsonRpc.Message → Option JsonRpc.RequestId
  | .request r => some r.id
  | .notification _ => none
  | .response r => r.id

/-- Where the id of a message comes from: a valid member `id`. -/
def ReadsId (obj : JsonDict) (id : JsonRpc.RequestId) : Prop :=
  validId (obj.get "id") = true ∧ id = idFromValue (obj.get "id")

section

variable {obj : JsonDict} {m : JsonRpc.Message} {id : JsonRpc.RequestId}

theorem readsId_of_branch {accepted : Except MessageParseError JsonRpc.Message}
    (valid : validId (obj.get "id") = true) (isId : idOf m = some id)
    (gives : ∀ m', accepted = .ok m' → idOf m' = some (idFromValue (obj.get "id")))
    (isOk : accepted = .ok m) : ReadsId obj id :=
  ⟨valid, Option.some.inj (isId.symm.trans (gives m isOk))⟩

theorem readsId_of_asRequest (accepted : asRequest obj = .ok m) (isId : idOf m = some id) :
    ReadsId obj id := by
  unfold asRequest at accepted
  split at accepted
  · cases accepted
  · rename_i valid
    rw [Bool.not_eq_true, Bool.not_eq_false'] at valid
    refine readsId_of_branch valid isId (fun m' isOk => ?_) accepted
    split at isOk
    · cases isOk
    · cases isOk
      rfl

theorem readsId_of_asResponse (accepted : asResponse obj = .ok m) (isId : idOf m = some id) :
    ReadsId obj id := by
  unfold asResponse at accepted
  split at accepted
  · cases accepted
  · rename_i valid
    rw [Bool.not_eq_true, Bool.not_eq_false'] at valid
    refine readsId_of_branch valid isId (fun m' isOk => ?_) accepted
    cases isOk
    rfl

theorem readsId_of_asErrorResponse (accepted : asErrorResponse obj = .ok m)
    (isId : idOf m = some id) : ReadsId obj id := by
  unfold asErrorResponse at accepted
  split at accepted
  · cases accepted
  · rename_i valid
    rw [Bool.not_eq_true, Bool.not_eq_false'] at valid
    refine readsId_of_branch valid isId (fun m' isOk => ?_) accepted
    dsimp only at isOk
    split at isOk
    · cases isOk
    · split at isOk
      · cases isOk
      · cases isOk
        rfl

theorem idOf_asNotification (accepted : asNotification obj = .ok m) : idOf m = none := by
  unfold asNotification at accepted
  split at accepted
  · cases accepted
  · cases accepted
    rfl

theorem readsId_of_classifyFields (accepted : classifyFields obj = .ok m)
    (isId : idOf m = some id) : ReadsId obj id := by
  unfold classifyFields at accepted
  split at accepted
  · cases accepted
  · split at accepted
    · exact readsId_of_asRequest accepted isId
    · split at accepted
      · exact readsId_of_asResponse accepted isId
      · split at accepted
        · rw [idOf_asNotification accepted] at isId
          cases isId
        · split at accepted
          · exact readsId_of_asErrorResponse accepted isId
          · cases accepted

end

variable {m : JsonRpc.Message}

/-- An accepted request or response carries the id of its object when it is in range. -/
theorem classify_id {value : Json} {id : JsonRpc.RequestId}
    (accepted : classifyMessage value = .ok m) (isId : idOf m = some id) :
    ∃ (obj : JsonDict) (v : Json),
      value = .obj obj ∧ obj.get "id" = some v ∧ validId (some v) = true ∧
      (Representable v → id.toValue = v) := by
  cases value with
  | obj obj =>
    obtain ⟨valid, read⟩ := readsId_of_classifyFields accepted isId
    cases found : JsonDict.get obj "id" with
    | none =>
      rw [found] at valid
      cases valid
    | some v =>
      rw [found] at valid read
      refine ⟨obj, v, rfl, found, valid, fun representable => ?_⟩
      rw [read, toValue_idFromValue representable]
  | null | bool | num | str | arr => cases accepted

/-! ### Messages given back -/

theorem classifyFields_request {r : JsonRpc.Request} (version : r.jsonrpc = JsonRpc.jsonrpcVersion) :
    classifyFields r.fields = .ok (.request r) := by
  obtain ⟨isVersion, isId, isMethod, params⟩ := r.get_fields
  obtain ⟨valid, read⟩ := idFromValue_toValue r.id
  have present : (r.fields.containsKey "id" && r.fields.containsKey "method") = true := by
    rfl
  have checked : ¬ (r.fields.get "jsonrpc").bind Json.asStr ≠ some JsonRpc.jsonrpcVersion := by
    rw [isVersion, version]
    exact not_not_intro rfl
  rw [classifyFields, asRequest, isId, valid, read, params]
  obtain ⟨jsonrpc, id, method, params⟩ := r
  subst version
  rfl

theorem classifyFields_notification {n : JsonRpc.Notification}
    (version : n.jsonrpc = JsonRpc.jsonrpcVersion) :
    classifyFields n.fields = .ok (.notification n) := by
  obtain ⟨isVersion, noId, isMethod, params⟩ := n.get_fields
  have absent : n.fields.containsKey "id" = false := by
    rw [JsonDict.containsKey, noId, Option.isSome_none]
  have present : n.fields.containsKey "method" = true := by
    rw [JsonDict.containsKey, isMethod, Option.isSome_some]
  have checked : ¬ (n.fields.get "jsonrpc").bind Json.asStr ≠ some JsonRpc.jsonrpcVersion := by
    rw [isVersion, version]
    exact not_not_intro rfl
  rw [classifyFields, if_neg checked, absent, present, if_neg (by decide), if_neg (by simp),
    if_pos (by decide), asNotification, isMethod, params]
  obtain ⟨jsonrpc, method, params⟩ := n
  subst version
  rfl

theorem classifyFields_response {r : JsonRpc.Response} {id : JsonRpc.RequestId}
    (version : r.jsonrpc = JsonRpc.jsonrpcVersion) (isId : r.id = some id) :
    classifyFields r.fields =
      .ok (.response { r with result := if r.error.isSome then none else r.result }) := by
  obtain ⟨isVersion, idMember, noMethod, result, error⟩ := r.get_fields
  rw [isId, Option.map_some, Option.getD_some] at idMember
  obtain ⟨valid, read⟩ := idFromValue_toValue id
  have present : r.fields.containsKey "id" = true := by
    rw [JsonDict.containsKey, idMember, Option.isSome_some]
  have absent : r.fields.containsKey "method" = false := by
    rw [JsonDict.containsKey, noMethod, Option.isSome_none]
  have checked : ¬ (r.fields.get "jsonrpc").bind Json.asStr ≠ some JsonRpc.jsonrpcVersion := by
    rw [isVersion, version]
    exact not_not_intro rfl
  cases hasError : r.error with
  | none =>
    rw [hasError] at error
    have noCode : hasCode r.fields = false := by
      rw [hasCode, errorFields, error]
      rfl
    rw [classifyFields, if_neg checked, present, absent, noCode, if_neg (by decide),
      if_pos (by decide), asResponse, idMember, valid, read, result]
    obtain ⟨jsonrpc, id', result, error⟩ := r
    cases isId
    cases version
    rfl
  | some e =>
    rw [hasError, Option.map_some] at error
    obtain ⟨code, message, data⟩ := e.get_fields
    have members : errorFields r.fields = some e.fields := by
      rw [errorFields, error]
      rfl
    have withCode : hasCode r.fields = true := by
      rw [hasCode, members]
      rfl
    rw [classifyFields, if_neg checked, present, absent, withCode, if_neg (by decide),
      if_neg (by decide), if_neg (by decide), if_pos (by decide), asErrorResponse, idMember, valid,
      read, members, Option.getD_some]
    dsimp only
    rw [code, data, Option.bind_some, JsonRpc.decodeI64_ofI64]
    obtain ⟨jsonrpc, id', result, error⟩ := r
    cases isId
    cases version
    rfl

theorem classifyFields_no_id {r : JsonRpc.Response} (noId : r.id = none) (m : JsonRpc.Message) :
    classifyFields r.fields ≠ .ok m := by
  intro accepted
  obtain ⟨_, idMember, noMethod, _, _⟩ := r.get_fields
  rw [noId] at idMember
  have present : r.fields.containsKey "id" = true := by
    rw [JsonDict.containsKey, idMember, Option.isSome_some]
  have absent : r.fields.containsKey "method" = false := by
    rw [JsonDict.containsKey, noMethod, Option.isSome_none]
  have refused : asResponse r.fields = .error (badId r.fields) ∧
      asErrorResponse r.fields = .error (badId r.fields) := by
    rw [asResponse, asErrorResponse, idMember]
    exact ⟨rfl, rfl⟩
  rw [classifyFields, absent, refused.1, refused.2] at accepted
  split at accepted
  · cases accepted
  · cases coded : hasCode r.fields <;> rw [coded] at accepted <;> cases accepted

def GivenBack : JsonRpc.Message → Prop
  | .request r => r.jsonrpc = JsonRpc.jsonrpcVersion
  | .notification n => n.jsonrpc = JsonRpc.jsonrpcVersion
  | .response r =>
    r.jsonrpc = JsonRpc.jsonrpcVersion ∧ r.id.isSome = true ∧
      (r.result.isSome && r.error.isSome) = false

theorem classifyFields_version {obj : JsonDict} {text : String}
    (version : obj.get "jsonrpc" = some (.str text))
    (accepted : classifyFields obj = .ok m) : text = JsonRpc.jsonrpcVersion := by
  by_contra other
  have refused : (some (Json.str text)).bind Json.asStr ≠ some JsonRpc.jsonrpcVersion :=
    fun same => other (Option.some.inj same)
  rw [classifyFields, version, if_pos refused] at accepted
  cases accepted

theorem givenBack_of_classifyFields {obj : JsonDict}
    (accepted : classifyFields obj = .ok m) : GivenBack m := by
  unfold classifyFields at accepted
  split at accepted
  · cases accepted
  · split at accepted
    · unfold asRequest at accepted
      split at accepted
      · cases accepted
      · split at accepted <;> cases accepted
        rfl
    · split at accepted
      · unfold asResponse at accepted
        split at accepted <;> cases accepted
        exact ⟨rfl, rfl, Bool.and_false _⟩
      · split at accepted
        · unfold asNotification at accepted
          split at accepted <;> cases accepted
          rfl
        · split at accepted
          · unfold asErrorResponse at accepted
            split at accepted
            · cases accepted
            · dsimp only at accepted
              split at accepted
              · cases accepted
              · split at accepted <;> cases accepted
                exact ⟨rfl, rfl, rfl⟩
          · cases accepted

theorem givenBack_of_classify {value : Json}
    (accepted : classifyMessage value = .ok m) : GivenBack m := by
  cases value with
  | obj obj => exact givenBack_of_classifyFields accepted
  | null | bool | num | str | arr => cases accepted

/-- A message is given back as it was exactly when it is one of those. -/
theorem classify_toValue_iff (m : JsonRpc.Message) :
    classifyMessage m.toValue = .ok m ↔ GivenBack m := by
  constructor
  · intro accepted
    cases m with
    | request r => exact classifyFields_version r.get_fields.1 accepted
    | notification n => exact classifyFields_version n.get_fields.1 accepted
    | response r =>
      have version := classifyFields_version r.get_fields.1 accepted
      cases isId : r.id with
      | none => exact absurd accepted (classifyFields_no_id isId _)
      | some id =>
        have given := (classifyFields_response version isId).symm.trans accepted
        simp only [Except.ok.injEq, JsonRpc.Message.response.injEq] at given
        refine ⟨version, by rw [isId]; rfl, ?_⟩
        cases hasError : r.error with
        | none => rw [Option.isSome_none, Bool.and_false]
        | some e =>
          have result := congrArg JsonRpc.Response.result given
          rw [hasError] at result
          rw [← result]
          rfl
  · intro given
    cases m with
    | request r => exact classifyFields_request given
    | notification n => exact classifyFields_notification given
    | response r =>
      obtain ⟨version, hasId, notBoth⟩ := given
      obtain ⟨id, isId⟩ := Option.isSome_iff_exists.mp hasId
      have given := classifyFields_response version isId
      have kept : (if r.error.isSome then none else r.result) = r.result := by
        split
        · rename_i hasError
          rw [hasError, Bool.and_true, Option.isSome_eq_false_iff, Option.isNone_iff_eq_none]
            at notBoth
          exact notBoth.symm
        · rfl
      rw [kept] at given
      exact given

/-- Classification gives messages back and keeps ids. -/
theorem classification_faithful :
    (∀ m, classifyMessage m.toValue = .ok m ↔ GivenBack m) ∧
      ∀ (value : Json) (m : JsonRpc.Message) (id : JsonRpc.RequestId),
        classifyMessage value = .ok m → idOf m = some id →
          ∃ (obj : JsonDict) (v : Json),
            value = .obj obj ∧ obj.get "id" = some v ∧ validId (some v) = true ∧
              (Representable v → id.toValue = v) :=
  ⟨classify_toValue_iff, fun _ _ _ => classify_id⟩

namespace Ping

/-- A request with a text as its id. -/
def ping : Json := .obj [("jsonrpc", .str "2.0"), ("id", .str "7"), ("method", .str "ping")]

theorem ping_keeps_its_id :
    ∃ (obj : JsonDict) (v : Json), ping = .obj obj ∧ obj.get "id" = some v ∧
      validId (some v) = true ∧ (Representable v → (JsonRpc.RequestId.string "7").toValue = v) :=
  classification_faithful.2 ping (.request (.new (.string "7") "ping" none)) (.string "7") rfl rfl

/-- A response with a result and an error loses its result. -/
theorem not_given_back :
    classifyMessage (JsonRpc.Message.response
        ⟨"2.0", some (.number 1), some .null, some (.new 1 "m")⟩).toValue ≠
      .ok (.response ⟨"2.0", some (.number 1), some .null, some (.new 1 "m")⟩) ∧
    classifyMessage (JsonRpc.Message.request ⟨"1.0", .number 1, "ping", none⟩).toValue ≠
      .ok (.request ⟨"1.0", .number 1, "ping", none⟩) :=
  ⟨fun given => absurd ((classify_toValue_iff _).mp given).2.2 (by decide),
    fun given => absurd (show "1.0" = "2.0" from (classify_toValue_iff _).mp given) (by decide)⟩

end Ping

end AgentProtocols.MCP.MessageClassification
