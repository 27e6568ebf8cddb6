import AgentProtocols.MCP.Error
import AgentProtocols.MCP.MessageClassification
import Mathlib.Data.List.Infix

/-!
The server side of the streamable HTTP transport of one session.

* `handleRequest_delivered`: a request only adds to what was `delivered`.
* `handleRequest_fresh`: what becomes of a request that opens a session (`Admitted`).
* `answerPayload_fresh`: the payload decides whether the reply is an error.
-/

namespace AgentProtocols.MCP.StreamableHttp

open Lib
open MessageClassification

/-! ### HTTP messages -/

/-- An HTTP request as the transport sees it. Header names are in lower case. -/
structure HttpRequest where
  method : String
  headers : OrderedMap String String
  body : String

def HttpRequest.header (request : HttpRequest) (name : String) : Option String :=
  request.headers.get? name

/-- The body of a response: a text, or a JSON value that is written compactly. -/
inductive Body where
  | text (s : String)
  | json (value : Json)

abbrev Headers := List (String × String)

structure HttpResponse where
  status : Nat
  headers : Headers
  body : Body

/-- Where a session writes the responses to one HTTP request. -/
inductive ResponseSink where
  | json (expected : Nat) (batch : Bool) (headers : Headers)
  | sse (expected : Nat)

/-- What the transport answers. A deferred reply comes out of its sink. -/
inductive HttpReply where
  | full (response : HttpResponse)
  | deferred (sink : ResponseSink)
  | stream (status : Nat) (headers : Headers)

/-- A complete response with an error status. -/
def HttpReply.rejected : HttpReply → Bool
  | .full response => decide (400 ≤ response.status)
  | .deferred _ => false
  | .stream _ _ => false

/-- Per request context passed from the transport to the session. -/
structure RequestContext where
  connectionId : Int64
  sessionId : String
  method : String
  isGetStream : Bool
  isCancelled : Bool
  sink : Option ResponseSink

def mcpSessionId : String := "mcp-session-id"
def mcpProtocolVersion : String := "mcp-protocol-version"
def contentType : String := "content-type"
def contentTypeJson : String := "application/json"
def contentTypeSse : String := "text/event-stream"
def contentTypeTextPlain : String := "text/plain"

/-! ### Bodies -/

def isSupportedProtocolVersion (version : String) : Bool :=
  ["2025-03-26", "2025-06-18"].contains version

def defaultProtocolVersion : String := "2025-03-26"

/-- A parsed POST body: one message or a batch. -/
inductive IncomingPayload where
  | single (m : JsonRpc.Message)
  | batch (list : List JsonRpc.Message)

def IncomingPayload.messages : IncomingPayload → List JsonRpc.Message
  | .single m => [m]
  | .batch list => list

def IncomingPayload.isBatch : IncomingPayload → Bool
  | .single _ => false
  | .batch _ => true

def payloadOfValue : Json → Except MessageParseError IncomingPayload
  | .arr items =>
    if items.isEmpty then
      .error (.invalidMessage (.number 0) "Deserialization Failed: empty batch" false)
    else (items.mapM classifyMessage).map .batch
  | other => (classifyMessage other).map .single

/-- `parse_payload`. `fromStr` reads JSON text. -/
def parsePayload (fromStr : String → Except String Json) (text : String) :
    Except MessageParseError IncomingPayload :=
  match fromStr text with
  | .error e => .error (.invalidJson e)
  | .ok value => payloadOfValue value

def hasMethod : MessageParseError → Bool
  | .invalidJson _ => false
  | .invalidMessage _ _ named => named

def toErrorResponse : MessageParseError → JsonRpc.Response
  | .invalidJson message => .failure (some (.number 0)) (.new (-32700) message)
  | .invalidMessage id message _ => .failure (some id) (.new (-32600) message)

/-- `value.get("method").and_then(Value::as_str) == Some("initialize")`. -/
def namesInitialize : Json → Bool
  | .obj fields => (JsonDict.get fields "method").bind Json.asStr == some "initialize"
  | _ => false

/-- The `is_initialization` of `handle_post`. -/
def isInitialization : Json → Bool
  | .arr items => items.any namesInitialize
  | other => namesInitialize other

def isRequest : JsonRpc.Message → Bool
  | .request _ => true
  | _ => false

def methodOf : JsonRpc.Message → String
  | .request r => r.method
  | .notification n => n.method
  | .response _ => ""

/-! ### The transport -/

structure Transport where
  /-- Empty once the session was terminated. -/
  sessionId : String
  isJsonResponseEnabled : Bool
  stateless : Bool
  getStream : Bool
  isTerminated : Bool
  callback : Bool
  connectionCounter : Int64
  /-- Every message handed to the session, in order. -/
  delivered : List (JsonRpc.Message × RequestContext)

/-- True when every byte is visible ASCII. -/
def isVisibleAscii (text : String) : Bool :=
  text.toList.all fun c => decide (0x21 ≤ c.toNat) && decide (c.toNat ≤ 0x7E)

/-- What a `POST` accepts and sends, as its headers say. -/
def accepts (request : HttpRequest) (kind : String) : Bool :=
  decide (kind.toList <:+: ((request.header "accept").getD "").toList)

def sends (request : HttpRequest) (kind : String) : Bool :=
  decide (kind.toList <:+: ((request.header contentType).getD "").toList)

def protocolVersion (request : HttpRequest) : String :=
  (request.header mcpProtocolVersion).getD defaultProtocolVersion

/-- The session id of a request, empty when it has none. -/
def requestSessionId (request : HttpRequest) : String := (request.header mcpSessionId).getD ""

namespace Transport

/-- `StreamableHttpServerTransport::new`. -/
def new (sessionId : String) (isJsonResponseEnabled stateless : Bool) :
    Except McpError Transport :=
  if sessionId ≠ "" && !isVisibleAscii sessionId then
    .error (.argument "Session ID must only contain visible ASCII characters (0x21-0x7E)")
  else
    .ok { sessionId, isJsonResponseEnabled, stateless, getStream := false, isTerminated := false,
          callback := false, connectionCounter := 1, delivered := [] }

variable (t : Transport)

def sessionHeader : Headers := if t.sessionId = "" then [] else [(mcpSessionId, t.sessionId)]

def errorResponse (message : String) (status : Nat) (code : Int64) (extra : Headers) :
    HttpResponse where
  status := status
  headers := extra ++ [(contentType, contentTypeJson)] ++ t.sessionHeader
  body := .json <| .obj
    [("jsonrpc", .str JsonRpc.jsonrpcVersion), ("id", .str "server-error"),
      ("error", .obj [("code", .num (.ofI64 code.toInt)), ("message", .str message)])]

def invalidRequest (message : String) (status : Nat) : HttpReply :=
  .full (t.errorResponse message status (-32600) [])

def jsonResponse (body : Option Json) (status : Nat) : HttpResponse where
  status := status
  headers := (contentType, contentTypeJson) :: t.sessionHeader
  body := (body.map .json).getD (.text "")

def sseHeaders (withAccel : Bool) : Headers :=
  [(contentType, contentTypeSse), ("cache-control", "no-cache, no-transform"),
      ("connection", "keep-alive")] ++
    (if withAccel then [("x-accel-buffering", "no")] else []) ++ t.sessionHeader

def validateProtocolVersion (request : HttpRequest) : Option HttpReply :=
  if isSupportedProtocolVersion (protocolVersion request) then none
  else
    some (t.invalidRequest
      ("Bad Request: Unsupported protocol version: " ++ protocolVersion request ++
        ". Supported versions: 2025-03-26, 2025-06-18") 400)

def validatePostHeaders (request : HttpRequest) : Option HttpReply :=
  if t.isJsonResponseEnabled && !accepts request contentTypeJson then
    some (t.invalidRequest "Not Acceptable: Client must accept application/json" 406)
  else if !t.isJsonResponseEnabled &&
      (!accepts request contentTypeJson || !accepts request contentTypeSse) then
    some (t.invalidRequest
      "Not Acceptable: Client must accept both application/json and text/event-stream" 406)
  else if !sends request contentTypeJson then
    some (t.invalidRequest "Unsupported Media Type: Content-Type must be application/json" 415)
  else none

def validateSessionId (request : HttpRequest) (isInit : Bool) : Option HttpReply :=
  if isInit || t.sessionId = "" then none
  else if requestSessionId request = "" then
    some (t.invalidRequest "Bad Request: Missing session ID" 400)
  else if requestSessionId request ≠ t.sessionId then
    some (t.invalidRequest "Not Found: Invalid or expired session ID" 404)
  else none

def newContext (sink : Option ResponseSink) : RequestContext :=
  ⟨t.connectionCounter, t.sessionId, "", false, false, sink⟩

/-- The transport after `new_context`. -/
def counted : Transport := { t with connectionCounter := t.connectionCounter + 1 }

/-- `deliver`: the task that is spawned hands the messages over in order. -/
def deliver (messages : List (JsonRpc.Message × RequestContext)) : Transport :=
  if t.callback then { t with delivered := t.delivered ++ messages } else t

/-- `handle_post` from a payload that could not be parsed. -/
def refusePayload (e : MessageParseError) : HttpReply × Transport :=
  if hasMethod e then
    (.full (t.jsonResponse (some (toErrorResponse e).toValue)
      (if t.isJsonResponseEnabled then 200 else 400)), t)
  else
    (.full (t.jsonResponse none 202),
      t.counted.deliver [(.response (toErrorResponse e), t.newContext none)])

/-- `handle_post` from a parsed payload. -/
def takePayload (messages : List JsonRpc.Message) (isBatch : Bool) : HttpReply × Transport :=
  let requestCount := messages.countP isRequest
  let withMethod := fun (ctx : RequestContext) m => (m, { ctx with method := methodOf m })
  if requestCount = 0 then
    (.full (t.jsonResponse none 202),
      t.counted.deliver (messages.map fun m => (m, t.newContext none)))
  else if t.isJsonResponseEnabled then
    let sink := ResponseSink.json requestCount isBatch
      ((contentType, contentTypeJson) :: t.sessionHeader)
    (.deferred sink, t.counted.deliver (messages.map (withMethod (t.newContext (some sink)))))
  else
    let sink := ResponseSink.sse requestCount
    (.stream 200 (t.sseHeaders true),
      t.counted.deliver (messages.map (withMethod (t.newContext (some sink)))))

/-- `handle_post` from the result of parsing the payload. -/
def answerPayload : Except MessageParseError IncomingPayload → HttpReply × Transport
  | .error e => t.refusePayload e
  | .ok payload => t.takePayload payload.messages payload.isBatch

variable (fromStr : String → Except String Json)

def handlePost (request : HttpRequest) : HttpReply × Transport :=
  if !t.callback then
    (.full ⟨500, [(contentType, contentTypeTextPlain)], .text "Callbacks not set"⟩, t)
  else
    match t.validatePostHeaders request with
    | some reply => (reply, t)
    | none =>
      match fromStr request.body with
      | .error e => (.full (t.errorResponse ("Parse error: " ++ e) 400 (-32700) []), t)
      | .ok raw =>
        match t.validateSessionId request (isInitialization raw) with
        | some reply => (reply, t)
        | none =>
          match t.validateProtocolVersion request with
          | some reply => (reply, t)
          | none => t.answerPayload (parsePayload fromStr request.body)

/-- `handle_get`. `closed` says that the client of the stream in the slot is gone. -/
def handleGet (request : HttpRequest) (closed : Bool) : HttpReply × Transport :=
  if !accepts request contentTypeSse then
    (t.invalidRequest "Not Acceptable: Client must accept text/event-stream" 406, t)
  else if t.sessionId ≠ "" ∧
      (requestSessionId request = "" ∨ requestSessionId request ≠ t.sessionId) then
    (t.invalidRequest "Bad Request: Invalid session ID" 400, t)
  else
    match t.validateProtocolVersion request with
    | some reply => (reply, t)
    | none =>
      if t.getStream && !closed then
        (t.invalidRequest "Conflict: Only one SSE stream is allowed per session" 409, t)
      else (.stream 200 (t.sseHeaders false), { t with getStream := true })

def terminate : Transport := { t with isTerminated := true, getStream := false, sessionId := "" }

def handleDelete (request : HttpRequest) : HttpReply × Transport :=
  if t.sessionId = "" then
    (.full (t.errorResponse "Method Not Allowed: Session termination not supported" 405
      (-32600) []), t)
  else if requestSessionId request = "" ∨ requestSessionId request ≠ t.sessionId then
    (t.invalidRequest "Bad Request: Invalid session ID" 400, t)
  else (.full (t.jsonResponse none 200), t.terminate)

/-- `StreamableHttpServerTransport::handle_request`. -/
def handleRequest (request : HttpRequest) (closed : Bool) : HttpReply × Transport :=
  if t.stateless && request.method ≠ "POST" then
    (.full (t.errorResponse "Method Not Allowed" 405 (-32600) [("allow", "POST")]), t)
  else if t.isTerminated then
    (t.invalidRequest "Not Found: Session has been terminated" 404, t)
  else if request.method = "POST" then t.handlePost fromStr request
  else if request.method = "GET" then t.handleGet request closed
  else if request.method = "DELETE" then t.handleDelete request
  else
    (.full (t.errorResponse "Method Not Allowed" 405 (-32600) [("allow", "GET, POST, DELETE")]), t)

/-! ### What a request delivers -/

variable {t : Transport} {fromStr : String → Except String Json} {request : HttpRequest}

theorem deliver_delivered (messages : List (JsonRpc.Message × RequestContext)) :
    t.delivered <+: (t.deliver messages).delivered := by
  unfold deliver
  split
  · exact List.prefix_append _ _
  · exact List.prefix_refl _

theorem counted_deliver_delivered (messages : List (JsonRpc.Message × RequestContext)) :
    t.delivered <+: (t.counted.deliver messages).delivered :=
  t.counted.deliver_delivered messages

theorem refusePayload_delivered (e : MessageParseError) :
    t.delivered <+: (t.refusePayload e).2.delivered := by
  unfold refusePayload
  split
  · exact List.prefix_refl _
  · exact counted_deliver_delivered _

theorem takePayload_delivered (messages : List JsonRpc.Message) (isBatch : Bool) :
    t.delivered <+: (t.takePayload messages isBatch).2.delivered := by
  dsimp only [takePayload]
  split
  · exact counted_deliver_delivered _
  · split
    · exact counted_deliver_delivered _
    · exact counted_deliver_delivered _

theorem answerPayload_delivered (payload : Except MessageParseError IncomingPayload) :
    t.delivered <+: (t.answerPayload payload).2.delivered := by
  cases payload with
  | error e => exact refusePayload_delivered e
  | ok payload => exact takePayload_delivered _ _

theorem handlePost_delivered : t.delivered <+: (t.handlePost fromStr request).2.delivered := by
  unfold handlePost
  split
  · exact List.prefix_refl _
  split
  · exact List.prefix_refl _
  split
  · exact List.prefix_refl _
  split
  · exact List.prefix_refl _
  split
  · exact List.prefix_refl _
  · exact answerPayload_delivered _

theorem handleGet_delivered (closed : Bool) :
    (t.handleGet request closed).2.delivered = t.delivered := by
  unfold handleGet
  split
  · rfl
  split
  · rfl
  split
  · rfl
  split
  · rfl
  · rfl

theorem handleDelete_delivered : (t.handleDelete request).2.delivered = t.delivered := by
  unfold handleDelete
  split
  · rfl
  split
  · rfl
  · rfl

variable (t fromStr request) in
theorem handleRequest_delivered (closed : Bool) :
    t.delivered <+: (t.handleRequest fromStr request closed).2.delivered := by
  unfold handleRequest
  split
  · exact List.prefix_refl _
  split
  · exact List.prefix_refl _
  split
  · exact handlePost_delivered
  split
  · rw [handleGet_delivered]
  split
  · rw [handleDelete_delivered]
  · exact List.prefix_refl _

/-! ### The request that opens a session -/

/-- A transport that no request has reached yet. -/
structure Fresh (t : Transport) (json : Bool) : Prop where
  sessionId : t.sessionId ≠ ""
  mode : t.isJsonResponseEnabled = json
  stateful : t.stateless = false
  live : t.isTerminated = false
  callback : t.callback = true
  delivered : t.delivered = []

end Transport

/-- A `POST` without a session id that names `initialize` and is accepted so far. -/
structure Admitted (fromStr : String → Except String Json) (json : Bool)
    (request : HttpRequest) : Prop where
  post : request.method = "POST"
  acceptsJson : accepts request contentTypeJson = true
  acceptsSse : json = true ∨ accepts request contentTypeSse = true
  sendsJson : sends request contentTypeJson = true
  body : ∃ raw, fromStr request.body = .ok raw ∧ isInitialization raw = true
  version : isSupportedProtocolVersion (protocolVersion request) = true

/-- A payload that names a method while the server answers with an SSE stream. -/
def Refused (json : Bool) : Except MessageParseError IncomingPayload → Prop
  | .error e => hasMethod e = true ∧ json = false
  | .ok _ => False

def HoldsInitialize (payload : Except MessageParseError IncomingPayload) : Prop :=
  ∃ p r, payload = .ok p ∧ .request r ∈ p.messages ∧ r.method = "initialize"

namespace Transport

variable {t : Transport} {fromStr : String → Except String Json} {request : HttpRequest}
  {json : Bool}

theorem invalidRequest_rejected (message : String) {status : Nat} (failure : 400 ≤ status) :
    (t.invalidRequest message status).rejected = true := decide_eq_true failure

theorem validatePostHeaders_eq (fresh : t.Fresh json) :
    t.validatePostHeaders request = none ↔ accepts request contentTypeJson = true ∧
        (json = true ∨ accepts request contentTypeSse = true) ∧
        sends request contentTypeJson = true := by
  unfold validatePostHeaders
  rw [fresh.mode]
  cases json <;> cases accepts request contentTypeJson <;>
    cases accepts request contentTypeSse <;> cases sends request contentTypeJson <;> simp

theorem validatePostHeaders_rejected {reply : HttpReply}
    (refused : t.validatePostHeaders request = some reply) : reply.rejected = true := by
  unfold validatePostHeaders at refused
  split at refused
  · cases refused
    exact t.invalidRequest_rejected _ (by decide)
  split at refused
  · cases refused
    exact t.invalidRequest_rejected _ (by decide)
  split at refused
  · cases refused
    exact t.invalidRequest_rejected _ (by decide)
  · cases refused

theorem validateSessionId_eq (fresh : t.Fresh json) (noId : requestSessionId request = "")
    (isInit : Bool) :
    t.validateSessionId request isInit =
      if isInit then none
      else some (t.invalidRequest "Bad Request: Missing session ID" 400) := by
  unfold validateSessionId
  cases isInit with
  | true => rfl
  | false => simp [fresh.sessionId, noId]

theorem validateProtocolVersion_eq :
    t.validateProtocolVersion request = none ↔
      isSupportedProtocolVersion (protocolVersion request) = true := by
  unfold validateProtocolVersion
  split
  · rename_i supported
    exact iff_of_true rfl supported
  · rename_i unsupported
    exact iff_of_false (by simp) unsupported

theorem validateProtocolVersion_rejected {reply : HttpReply}
    (refused : t.validateProtocolVersion request = some reply) : reply.rejected = true := by
  unfold validateProtocolVersion at refused
  split at refused
  · cases refused
  · cases refused
    exact t.invalidRequest_rejected _ (by decide)

variable (fresh : t.Fresh json)

include fresh

theorem handlePost_fresh (noId : requestSessionId request = "") (post : request.method = "POST") :
    (Admitted fromStr json request ∧ t.handlePost fromStr request =
      t.answerPayload (parsePayload fromStr request.body)) ∨
    (¬ Admitted fromStr json request ∧ (t.handlePost fromStr request).1.rejected = true) := by
  unfold handlePost
  rw [fresh.callback]
  cases headers : t.validatePostHeaders request with
  | some reply =>
    refine .inr ⟨fun admitted => ?_, validatePostHeaders_rejected headers⟩
    have passes := (validatePostHeaders_eq fresh).mpr
      ⟨admitted.acceptsJson, admitted.acceptsSse, admitted.sendsJson⟩
    rw [headers] at passes
    cases passes
  | none =>
    cases parsed : fromStr request.body with
    | error e =>
      refine .inr ⟨fun admitted => ?_, rfl⟩
      obtain ⟨raw, isRaw, -⟩ := admitted.body
      rw [parsed] at isRaw
      cases isRaw
    | ok raw =>
      dsimp only
      rw [validateSessionId_eq fresh noId]
      cases isInit : isInitialization raw with
      | false =>
        refine .inr ⟨fun admitted => ?_, rfl⟩
        obtain ⟨raw', isRaw, named⟩ := admitted.body
        rw [parsed] at isRaw
        cases isRaw
        rw [isInit] at named
        cases named
      | true =>
        rw [if_pos rfl]
        cases version : t.validateProtocolVersion request with
        | some reply =>
          refine .inr ⟨fun admitted => ?_, validateProtocolVersion_rejected version⟩
          rw [validateProtocolVersion_eq.mpr admitted.version] at version
          cases version
        | none =>
          obtain ⟨acceptsJson, acceptsSse, sendsJson⟩ := (validatePostHeaders_eq fresh).mp headers
          exact .inl ⟨⟨post, acceptsJson, acceptsSse, sendsJson, ⟨raw, parsed, isInit⟩,
            validateProtocolVersion_eq.mp version⟩, rfl⟩

theorem handleGet_fresh (noId : requestSessionId request = "")
    (closed : Bool) : (t.handleGet request closed).1.rejected = true := by
  unfold handleGet
  split
  · exact t.invalidRequest_rejected _ (by decide)
  · rw [if_pos ⟨fresh.sessionId, .inl noId⟩]
    exact t.invalidRequest_rejected _ (by decide)

theorem handleDelete_fresh (noId : requestSessionId request = "") :
    (t.handleDelete request).1.rejected = true := by
  unfold handleDelete
  rw [if_neg fresh.sessionId, if_pos (.inl noId)]
  exact t.invalidRequest_rejected _ (by decide)

omit fresh

include fresh

variable (fromStr) in
/-- A request that opens a session is rejected, or admitted and answered by its
payload. -/
theorem handleRequest_fresh (noId : requestSessionId request = "") (closed : Bool) :
    (Admitted fromStr json request ∧ t.handleRequest fromStr request closed =
      t.answerPayload (parsePayload fromStr request.body)) ∨ (¬ Admitted fromStr json request ∧
      (t.handleRequest fromStr request closed).1.rejected = true) := by
  unfold handleRequest
  rw [fresh.stateful, fresh.live, Bool.false_and, if_neg (by decide), if_neg (by decide)]
  split
  · rename_i post
    exact handlePost_fresh fresh noId post
  · rename_i other
    refine .inr ⟨fun admitted => other admitted.post, ?_⟩
    split
    · exact handleGet_fresh fresh noId closed
    split
    · exact handleDelete_fresh fresh noId
    · rfl

/-! ### What the payload leaves behind -/

theorem Fresh.deliver (messages : List (JsonRpc.Message × RequestContext)) :
    (t.counted.deliver messages).delivered = messages ∧
      (t.counted.deliver messages).isTerminated = false := by
  have called : t.counted.callback = true := fresh.callback
  have none_yet : t.counted.delivered = [] := fresh.delivered
  rw [Transport.deliver, if_pos called, none_yet]
  exact ⟨rfl, fresh.live⟩

theorem refusePayload_fresh (e : MessageParseError) :
    ((t.refusePayload e).1.rejected = true ↔ Refused json (.error e)) ∧
      (t.refusePayload e).2.isTerminated = false ∧
      ∀ r, .request r ∉ (t.refusePayload e).2.delivered.map Prod.fst := by
  unfold refusePayload
  cases named : hasMethod e with
  | true =>
    rw [if_pos rfl, fresh.mode]
    refine ⟨?_, fresh.live, fun r mem => ?_⟩
    · cases json with
      | true => exact iff_of_false Bool.false_ne_true fun refused => by cases refused.2
      | false => exact iff_of_true rfl ⟨named, rfl⟩
    · rw [fresh.delivered] at mem
      cases mem
  | false =>
    rw [if_neg (by decide)]
    obtain ⟨delivered, live⟩ := fresh.deliver [(.response (toErrorResponse e), t.newContext none)]
    refine ⟨iff_of_false Bool.false_ne_true fun refused => ?_, live, fun r mem => ?_⟩
    · rw [Refused, named] at refused
      cases refused.1
    · rw [delivered, List.map_singleton, List.mem_singleton] at mem
      cases mem

theorem takePayload_fresh (messages : List JsonRpc.Message) (isBatch : Bool) :
    (t.takePayload messages isBatch).1.rejected = false ∧
      (t.takePayload messages isBatch).2.isTerminated = false ∧
      (t.takePayload messages isBatch).2.delivered.map Prod.fst = messages := by
  have handed : ∀ ctx : JsonRpc.Message → RequestContext,
      (t.counted.deliver (messages.map fun m => (m, ctx m))).isTerminated = false ∧
        (t.counted.deliver (messages.map fun m => (m, ctx m))).delivered.map Prod.fst =
          messages := by
    intro ctx
    obtain ⟨delivered, live⟩ := fresh.deliver (messages.map fun m => (m, ctx m))
    refine ⟨live, ?_⟩
    rw [delivered, List.map_map]
    exact List.map_id _
  dsimp only [takePayload]
  split
  · exact ⟨rfl, handed _⟩
  split
  · exact ⟨rfl, handed _⟩
  · exact ⟨rfl, handed _⟩

/-- The payload decides whether the reply is an error and which requests reach the
session. -/
theorem answerPayload_fresh (payload : Except MessageParseError IncomingPayload) :
    ((t.answerPayload payload).1.rejected = true ↔ Refused json payload) ∧
      (t.answerPayload payload).2.isTerminated = false ∧
      ∀ r, .request r ∈ (t.answerPayload payload).2.delivered.map Prod.fst ↔
        ∃ p, payload = .ok p ∧ .request r ∈ p.messages := by
  cases payload with
  | error e =>
    obtain ⟨rejected, live, absent⟩ := refusePayload_fresh fresh e
    exact ⟨rejected, live, fun r => iff_of_false (absent r) fun ⟨p, isOk, _⟩ => by cases isOk⟩
  | ok p =>
    obtain ⟨accepted, live, handed⟩ := takePayload_fresh fresh p.messages p.isBatch
    refine ⟨iff_of_false (by rw [answerPayload, accepted]; decide) id, live, fun r => ?_⟩
    rw [answerPayload, handed]
    exact ⟨fun mem => ⟨p, rfl, mem⟩, fun ⟨q, isOk, mem⟩ => by cases isOk; exact mem⟩

omit fresh

end Transport

end AgentProtocols.MCP.StreamableHttp
