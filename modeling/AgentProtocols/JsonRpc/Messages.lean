import AgentProtocols.Json.Value

/-!
JSON-RPC messages: the values, their JSON forms and the decoder. `null` payloads are lost:
`fromValue_toValue_iff` and `intoResult_iff` say that a message comes back exactly when its payload
is not `null`.
-/

namespace AgentProtocols.JsonRpc

open Json

/-! ### Identifiers and errors -/

def jsonrpcVersion : String := "2.0"

inductive RequestId where
  | number (n : Int64)
  | string (s : String)
deriving DecidableEq

namespace RequestId

def toValue : RequestId → Json
  | number n => .num (.ofI64 n.toInt)
  | string s => .str s

/-- `RequestId::from_value`, and the untagged decoder: an integer in range or a
string. -/
def fromValue : Json → Option RequestId
  | .num n => n.asI64.map fun i => number (Int64.ofInt i)
  | .str s => some (string s)
  | _ => none

end RequestId

/-- The JSON-RPC error object. -/
structure RpcError where
  code : Int64
  message : String
  data : Option Json := none
deriving DecidableEq

namespace RpcError

def internalErrorCode : Int64 := -32603

def new (code : Int64) (message : String) : RpcError := { code, message }

def withData (e : RpcError) (data : Json) : RpcError := { e with data := some data }

def internalError (message : String) : RpcError := new internalErrorCode message

end RpcError

/-! ### Messages -/

structure Request where
  jsonrpc : String
  id : RequestId
  method : String
  params : Option Json
deriving DecidableEq

structure Notification where
  jsonrpc : String
  method : String
  params : Option Json
deriving DecidableEq

structure Response where
  jsonrpc : String
  id : Option RequestId
  result : Option Json
  error : Option RpcError
deriving DecidableEq

inductive Message where
  | request (r : Request)
  | notification (n : Notification)
  | response (r : Response)
deriving DecidableEq

def Request.new (id : RequestId) (method : String) (params : Option Json) : Request :=
  ⟨jsonrpcVersion, id, method, params⟩

def Notification.new (method : String) (params : Option Json) : Notification :=
  ⟨jsonrpcVersion, method, params⟩

namespace Response

def success (id : RequestId) (result : Json) : Response :=
  ⟨jsonrpcVersion, some id, some result, none⟩

def failure (id : Option RequestId) (error : RpcError) : Response :=
  ⟨jsonrpcVersion, id, none, some error⟩

def intoResult (r : Response) : Except RpcError Json :=
  match r.error with
  | some error => .error error
  | none =>
    match r.result with
    | some v => .ok v
    | none => .error (.internalError "response carries neither result nor error")

end Response

/-! ### JSON forms -/

/-- A member that is left out when it is `None`. -/
def member (key : String) (value : Option Json) : JsonDict :=
  (value.map fun v => (key, v)).toList

def RpcError.fields (e : RpcError) : JsonDict :=
  [("code", .num (.ofI64 e.code.toInt)), ("message", .str e.message)] ++ member "data" e.data

def RpcError.toValue (e : RpcError) : Json := .obj e.fields

def Request.fields (r : Request) : JsonDict :=
  [("jsonrpc", .str r.jsonrpc), ("id", r.id.toValue), ("method", .str r.method)] ++
    member "params" r.params

def Notification.fields (n : Notification) : JsonDict :=
  [("jsonrpc", .str n.jsonrpc), ("method", .str n.method)] ++ member "params" n.params

def Response.fields (r : Response) : JsonDict :=
  [("jsonrpc", .str r.jsonrpc), ("id", (r.id.map RequestId.toValue).getD .null)] ++
    member "result" r.result ++ member "error" (r.error.map RpcError.toValue)

def Request.toValue (r : Request) : Json := .obj r.fields

def Notification.toValue (n : Notification) : Json := .obj n.fields

def Response.toValue (r : Response) : Json := .obj r.fields

def Message.toValue : Message → Json
  | request r => r.toValue
  | notification n => n.toValue
  | response r => r.toValue

/-! ### Decoding -/

/-- A value on one line, and the reason why a value does not decode. -/
structure Texts where
  display : Json → String
  decodeError : Json → String

/-- The error of a payload that is not a JSON-RPC message, `ParseError::Invalid`. -/
structure ParseError where
  message : String
deriving DecidableEq

/-- A member of type `Option<T>` with a default: absent and `null` are `None`. -/
def optionalMember {α : Type} (decode : Json → Option α) : Option Json → Option (Option α)
  | none => some none
  | some .null => some none
  | some v => (decode v).map some

def decodeI64 : Json → Option Int64
  | .num n => n.asI64.map Int64.ofInt
  | _ => none

def RpcError.decodeFields (fields : JsonDict) : Option RpcError := do
  let code ← (fields.get "code").bind decodeI64
  let message ← (fields.get "message").bind Json.asStr
  let data ← optionalMember some (fields.get "data")
  return ⟨code, message, data⟩

/-- The derived decoder of the error object, which also takes an array. -/
def RpcError.decode : Json → Option RpcError
  | .obj fields => decodeFields fields
  | .arr [code, message] => do return ⟨← decodeI64 code, ← message.asStr, none⟩
  | .arr [code, message, data] => do
    return ⟨← decodeI64 code, ← message.asStr, ← optionalMember some (some data)⟩
  | _ => none

def Request.decode (fields : JsonDict) : Option Request := do
  let jsonrpc ← (fields.get "jsonrpc").bind Json.asStr
  let id ← (fields.get "id").bind RequestId.fromValue
  let method ← (fields.get "method").bind Json.asStr
  let params ← optionalMember some (fields.get "params")
  return ⟨jsonrpc, id, method, params⟩

def Notification.decode (fields : JsonDict) : Option Notification := do
  let jsonrpc ← (fields.get "jsonrpc").bind Json.asStr
  let method ← (fields.get "method").bind Json.asStr
  let params ← optionalMember some (fields.get "params")
  return ⟨jsonrpc, method, params⟩

def Response.decode (fields : JsonDict) : Option Response := do
  let jsonrpc ← (fields.get "jsonrpc").bind Json.asStr
  let id ← optionalMember RequestId.fromValue (fields.get "id")
  let result ← optionalMember some (fields.get "result")
  let error ← optionalMember RpcError.decode (fields.get "error")
  return ⟨jsonrpc, id, result, error⟩

section

variable (texts : Texts)

/-- A decoded message, or the reason why it did not decode after `what`. -/
def orInvalid {α : Type} (what : String) (value : Json) : Option α → Except ParseError α
  | some a => .ok a
  | none => .error ⟨what ++ texts.decodeError value⟩

/-- The members of an object as a message, once the version has been checked. -/
def Message.ofMembers (fields : JsonDict) : Except ParseError Message :=
  if fields.containsKey "method" then
    if ((fields.get "method").bind Json.asStr).isNone then .error ⟨"method must be a string"⟩
    else if (fields.get "id").getD .null ≠ .null then
      (orInvalid texts "bad request: " (.obj fields) (Request.decode fields)).map request
    else
      (orInvalid texts "bad notification: " (.obj fields) (Notification.decode fields)).map
        notification
  else if fields.containsKey "result" || fields.containsKey "error" then
    match orInvalid texts "bad response: " (.obj fields) (Response.decode fields) with
    | .error e => .error e
    | .ok r =>
      if r.result.isSome && r.error.isSome then .error ⟨"response has both result and error"⟩
      else .ok (response r)
  else .error ⟨"object is neither a request, notification nor response"⟩

/-- The members of an object as a message. -/
def Message.ofFields (fields : JsonDict) : Except ParseError Message :=
  match fields.get "jsonrpc" with
  | none => ofMembers texts fields
  | some v =>
    if v.asStr ≠ some jsonrpcVersion then
      .error ⟨"unsupported jsonrpc version: " ++ texts.display v⟩
    else ofMembers texts fields

def Message.fromValue : Json → Except ParseError Message
  | .obj fields => ofFields texts fields
  | _ => .error ⟨"message must be a JSON object"⟩

end

/-! ### What decodes -/

theorem RequestId.fromValue_toValue (id : RequestId) : RequestId.fromValue id.toValue = some id := by
  cases id with
  | number n =>
    rw [toValue, RequestId.fromValue, Number.asI64_ofI64 n.le_toInt n.toInt_lt, Option.map_some,
      Int64.ofInt_toInt]
  | string s => rfl

theorem RequestId.toValue_ne_null (id : RequestId) : id.toValue ≠ .null := by
  cases id <;> simp [toValue]

theorem decodeI64_ofI64 (n : Int64) : decodeI64 (.num (.ofI64 n.toInt)) = some n := by
  rw [decodeI64, Number.asI64_ofI64 n.le_toInt n.toInt_lt, Option.map_some, Int64.ofInt_toInt]

theorem optionalMember_some (value : Option Json) :
    optionalMember some value = some (value.filter (· ≠ .null)) := by
  cases value with
  | none => rfl
  | some v => cases v <;> rfl

theorem filter_ne_null_eq_self {value : Option Json} :
    value.filter (· ≠ .null) = value ↔ value ≠ some .null := by
  cases value with
  | none => simp
  | some v => cases v <;> simp

/-! ### The members of a message -/

theorem get_member_self (key : String) (value : Option Json) : (member key value).get key = value := by
  cases value with
  | none => rfl
  | some v => simp [member, JsonDict.get]

theorem get_append_member (fields : JsonDict) {key other : String} (ne : other ≠ key)
    (value : Option Json) : JsonDict.get (fields ++ member key value) other = fields.get other := by
  have absent : List.lookup other (member key value) = none := by
    cases value with
    | none => rfl
    | some v =>
      have differs : (other == key) = false := by simpa using ne
      simp [member, List.lookup_cons, differs]
  rw [JsonDict.get, List.lookup_append, absent, Option.or_none]
  rfl

theorem get_append_member_self (fields : JsonDict) {key : String} (new : fields.get key = none)
    (value : Option Json) : JsonDict.get (fields ++ member key value) key = value := by
  have found := get_member_self key value
  unfold JsonDict.get at new found ⊢
  rw [List.lookup_append, new, found, Option.none_or]

theorem Request.get_fields (r : Request) :
    r.fields.get "jsonrpc" = some (.str r.jsonrpc) ∧ r.fields.get "id" = some r.id.toValue ∧
      r.fields.get "method" = some (.str r.method) ∧ r.fields.get "params" = r.params :=
  ⟨get_append_member _ (by decide) _, get_append_member _ (by decide) _,
    get_append_member _ (by decide) _, get_append_member_self _ rfl _⟩

theorem Notification.get_fields (n : Notification) :
    n.fields.get "jsonrpc" = some (.str n.jsonrpc) ∧ n.fields.get "id" = none ∧
      n.fields.get "method" = some (.str n.method) ∧ n.fields.get "params" = n.params :=
  ⟨get_append_member _ (by decide) _, get_append_member _ (by decide) _,
    get_append_member _ (by decide) _, get_append_member_self _ rfl _⟩

theorem Response.get_fields (r : Response) :
    r.fields.get "jsonrpc" = some (.str r.jsonrpc) ∧
      r.fields.get "id" = some ((r.id.map RequestId.toValue).getD .null) ∧
      r.fields.get "method" = none ∧ r.fields.get "result" = r.result ∧
      r.fields.get "error" = r.error.map RpcError.toValue := by
  refine ⟨?_, ?_, ?_, ?_, ?_⟩
  · exact (get_append_member _ (by decide) _).trans (get_append_member _ (by decide) _)
  · exact (get_append_member _ (by decide) _).trans (get_append_member _ (by decide) _)
  · exact (get_append_member _ (by decide) _).trans (get_append_member _ (by decide) _)
  · exact (get_append_member _ (by decide) _).trans (get_append_member_self _ rfl _)
  · exact get_append_member_self _ (get_append_member _ (by decide) _) _

theorem RpcError.get_fields (e : RpcError) :
    e.fields.get "code" = some (.num (.ofI64 e.code.toInt)) ∧
      e.fields.get "message" = some (.str e.message) ∧ e.fields.get "data" = e.data :=
  ⟨get_append_member _ (by decide) _, get_append_member _ (by decide) _,
    get_append_member_self _ rfl _⟩

/-! ### Every built message, decoded -/

/-- A payload as the decoder gives it back. -/
def withoutNull (payload : Option Json) : Option Json := payload.filter (· ≠ .null)

theorem RpcError.decode_toValue (e : RpcError) :
    decode e.toValue = some { e with data := withoutNull e.data } := by
  obtain ⟨code, message, data⟩ := e.get_fields
  simp only [decode, toValue, decodeFields, code, message, data, Option.bind_some,
    decodeI64_ofI64, Json.asStr, optionalMember_some, Option.bind_eq_bind, Option.pure_def]
  rfl

theorem Request.decode_fields (r : Request) :
    decode r.fields = some { r with params := withoutNull r.params } := by
  obtain ⟨version, id, method, params⟩ := r.get_fields
  simp only [decode, version, id, method, params, Option.bind_some, Json.asStr,
    optionalMember_some, Option.bind_eq_bind, Option.pure_def, RequestId.fromValue_toValue]
  rfl

theorem Notification.decode_fields (n : Notification) :
    decode n.fields = some { n with params := withoutNull n.params } := by
  obtain ⟨version, _, method, params⟩ := n.get_fields
  simp only [decode, version, method, params, Option.bind_some, Json.asStr,
    optionalMember_some, Option.bind_eq_bind, Option.pure_def]
  rfl

theorem optionalMember_of_ne_null {α : Type} {decode : Json → Option α} {v : Json}
    (ne : v ≠ .null) : optionalMember decode (some v) = (decode v).map some := by
  cases v with
  | null => exact absurd rfl ne
  | bool | num | str | arr | obj => rfl

theorem Response.decode_fields (r : Response) :
    decode r.fields = some { r with
        result := withoutNull r.result
        error := r.error.map fun e => { e with data := withoutNull e.data } } := by
  obtain ⟨version, isId, _, result, isError⟩ := r.get_fields
  have id : optionalMember RequestId.fromValue (some ((r.id.map RequestId.toValue).getD .null)) =
      some r.id := by
    cases r.id with
    | none => rfl
    | some id =>
      rw [Option.map_some, Option.getD_some, optionalMember_of_ne_null id.toValue_ne_null,
        id.fromValue_toValue, Option.map_some]
  have error : optionalMember RpcError.decode (r.error.map RpcError.toValue) =
      some (r.error.map fun e => { e with data := withoutNull e.data }) := by
    cases r.error with
    | none => rfl
    | some e =>
      rw [Option.map_some, optionalMember_of_ne_null (by simp [RpcError.toValue]), e.decode_toValue]
      rfl
  simp only [decode, version, isId, result, isError, Option.bind_some, Json.asStr, id, error,
    optionalMember_some, Option.bind_eq_bind, Option.pure_def]
  rfl

section

variable (texts : Texts)

theorem Message.ofFields_current {fields : JsonDict}
    (version : fields.get "jsonrpc" = some (.str jsonrpcVersion)) :
    ofFields texts fields = ofMembers texts fields := by
  rw [ofFields, version]
  exact if_neg (not_not_intro rfl)

open Message

theorem Request.fromValue_toValue (id : RequestId) (method : String) (params : Option Json) :
    fromValue texts (Request.new id method params).toValue =
      .ok (.request (Request.new id method (withoutNull params))) := by
  obtain ⟨version, isId, isMethod, _⟩ := (Request.new id method params).get_fields
  have present : (Request.new id method params).fields.containsKey "method" = true := by
    rw [JsonDict.containsKey, isMethod, Option.isSome_some]
  rw [toValue, fromValue, ofFields_current texts version, ofMembers,
    if_pos present, isMethod, isId, decode_fields]
  simp [Json.asStr, RequestId.toValue_ne_null, orInvalid, Except.map, Request.new]

theorem Notification.fromValue_toValue (method : String) (params : Option Json) :
    fromValue texts (Notification.new method params).toValue =
      .ok (.notification (Notification.new method (withoutNull params))) := by
  obtain ⟨version, noId, isMethod, _⟩ := (Notification.new method params).get_fields
  have present : (Notification.new method params).fields.containsKey "method" = true := by
    rw [JsonDict.containsKey, isMethod, Option.isSome_some]
  rw [toValue, fromValue, ofFields_current texts version, ofMembers,
    if_pos present, isMethod, noId, decode_fields]
  simp [Json.asStr, orInvalid, Except.map, Notification.new]

/-- A response in the current version with a result or an error, not both. -/
theorem Response.fromValue_toValue (r : Response) (version : r.jsonrpc = jsonrpcVersion)
    (some_ : (r.result.isSome || r.error.isSome) = true)
    (notBoth : (r.result.isSome && r.error.isSome) = false) :
    fromValue texts r.toValue = .ok (.response { r with
        result := withoutNull r.result
        error := r.error.map fun e => { e with data := withoutNull e.data } }) := by
  obtain ⟨isVersion, _, noMethod, isResult, isError⟩ := r.get_fields
  rw [version] at isVersion
  have absent : r.fields.containsKey "method" = false := by
    rw [JsonDict.containsKey, noMethod, Option.isSome_none]
  have present : (r.fields.containsKey "result" || r.fields.containsKey "error") = true := by
    rwa [JsonDict.containsKey, JsonDict.containsKey, isResult, isError, Option.isSome_map]
  have single : ((withoutNull r.result).isSome &&
      (r.error.map fun e => { e with data := withoutNull e.data }).isSome) = false := by
    rw [Option.isSome_map]
    cases has : r.error.isSome with
    | false => rw [Bool.and_false]
    | true =>
      rw [has, Bool.and_true, Option.isSome_eq_false_iff, Option.isNone_iff_eq_none] at notBoth
      rw [notBoth]
      rfl
  rw [toValue, fromValue, ofFields_current texts isVersion, ofMembers,
    absent, if_neg Bool.false_ne_true, if_pos present, decode_fields]
  dsimp only [orInvalid]
  rw [single, if_neg Bool.false_ne_true]

/-- The payload that a message carries: parameters, a result or error data. -/
def Message.payload : Message → Option Json
  | request r => r.params
  | notification n => n.params
  | response r => r.result.or (r.error.bind RpcError.data)

theorem withoutNull_eq_self {payload : Option Json} :
    withoutNull payload = payload ↔ payload ≠ some .null :=
  filter_ne_null_eq_self

/-- What the constructors build. -/
inductive Built : Message → Prop where
  | request (id : RequestId) (method : String) (params : Option Json) :
      Built (.request (Request.new id method params))
  | notification (method : String) (params : Option Json) :
      Built (.notification (Notification.new method params))
  | success (id : RequestId) (result : Json) : Built (.response (Response.success id result))
  | failure (id : Option RequestId) (error : RpcError) :
      Built (.response (Response.failure id error))

/-- A message comes back exactly when its payload is not `null`. -/
theorem Message.fromValue_toValue_iff {m : Message} (built : Built m) :
    fromValue texts m.toValue = .ok m ↔ m.payload ≠ some .null := by
  cases built with
  | request id method params =>
    rw [toValue, Request.fromValue_toValue, payload]
    simp [Request.new, withoutNull_eq_self]
  | notification method params =>
    rw [toValue, Notification.fromValue_toValue, payload]
    simp [Notification.new, withoutNull_eq_self]
  | success id result =>
    rw [toValue, Response.fromValue_toValue texts _ rfl rfl rfl, payload]
    simp [Response.success, withoutNull_eq_self]
  | failure id error =>
    rw [toValue, Response.fromValue_toValue texts _ rfl rfl rfl, payload]
    obtain ⟨code, message, data⟩ := error
    simp [Response.failure, withoutNull_eq_self]

/-- The result taken out is the one that was sent exactly when that is not `null`. -/
theorem Response.intoResult_iff (id : RequestId) (result : Json) :
    (∃ r, fromValue texts (success id result).toValue = .ok (.response r) ∧
      r.intoResult = .ok result) ↔ result ≠ .null := by
  have decoded := fromValue_toValue texts (success id result) rfl rfl rfl
  constructor
  · rintro ⟨r, isDecoded, out⟩ rfl
    rw [decoded] at isDecoded
    cases isDecoded
    cases out
  · intro ne
    have kept : withoutNull (some result) = some result :=
      withoutNull_eq_self.mpr fun null => ne (Option.some.inj null)
    refine ⟨_, decoded, ?_⟩
    dsimp only [success, intoResult]
    rw [Option.map_none, kept]

/-- Messages and results come back exactly when they are not `null`. -/
theorem codec_iff :
    (∀ m, Built m → (fromValue texts m.toValue = .ok m ↔ m.payload ≠ some .null)) ∧
      ∀ (id : RequestId) (result : Json),
        (∃ r, fromValue texts (Response.success id result).toValue = .ok (.response r) ∧
          r.intoResult = .ok result) ↔ result ≠ .null :=
  ⟨fun _ built => fromValue_toValue_iff texts built, Response.intoResult_iff texts⟩

end

namespace NullPayload

/-- No text is written where a message decodes. -/
def texts : Texts := ⟨fun _ => "", fun _ => ""⟩

theorem error_with_data_comes_back :
    Message.fromValue texts (Message.response
        (.failure none ((RpcError.new (-32700) "bad").withData (.bool false)))).toValue =
      .ok (.response (.failure none ((RpcError.new (-32700) "bad").withData (.bool false)))) :=
  ((codec_iff texts).1 _ (.failure _ _)).mpr (by decide)

/-- A success response with the result `null` comes back without a result. -/
theorem null_result_is_lost :
    Message.fromValue texts (Response.success (.number 1) .null).toValue =
        .ok (.response ⟨"2.0", some (.number 1), none, none⟩) ∧
      Message.response ⟨"2.0", some (.number 1), none, none⟩ ≠
        .response (Response.success (.number 1) .null) ∧
      Response.intoResult ⟨"2.0", some (.number 1), none, none⟩ =
        .error (.internalError "response carries neither result nor error") :=
  ⟨Response.fromValue_toValue texts _ rfl rfl rfl, by decide, rfl⟩

end NullPayload

end AgentProtocols.JsonRpc
