import AgentProtocols.Json.Value

/-!
A server session on the Streamable HTTP transport. A `ResponseSink` collects or streams the answers
to a POST; a delivery task hands its messages to the session.

`Session.step` is the code cut at its lock sections and atomic operations: `Place` says where a task
is. What the code drops stays visible in `Post`.
-/

namespace AgentProtocols.MCP

open Lib

/-! ### Messages -/

/-- A JSON-RPC request identifier. -/
inductive RequestId where
  | number (n : Int)
  | string (s : String)
deriving DecidableEq

def RequestId.toValue : RequestId → Json
  | number n => .num (.ofI64 n)
  | string s => .str s

/-- The JSON-RPC error object. -/
structure RpcError where
  code : Int
  message : String
  data : Option Json := none

def RpcError.new (code : Int) (message : String) : RpcError := { code, message }

def RpcError.toValue (e : RpcError) : Json :=
  .obj ([("code", .num (.ofI64 e.code)), ("message", .str e.message)] ++
    (e.data.map fun data => ("data", data)).toList)

structure Response where
  id : Option RequestId
  result : Option Json
  error : Option RpcError

def Response.success (id : RequestId) (result : Json) : Response := ⟨some id, some result, none⟩

def Response.failure (id : Option RequestId) (error : RpcError) : Response := ⟨id, none, some error⟩

def Response.toValue (r : Response) : Json :=
  .obj ([("jsonrpc", .str "2.0"), ("id", (r.id.map RequestId.toValue).getD .null)] ++
    (r.result.map fun result => ("result", result)).toList ++
    (r.error.map fun error => ("error", error.toValue)).toList)

/-- The method of a request, as far as the session tells methods apart. -/
inductive RequestMethod where
  /-- `initialize`. -/
  | init
  | named (name : String)

structure Request where
  id : RequestId
  method : RequestMethod
  params : Option Json

structure CancelledNotificationParams where
  requestId : RequestId
  reason : String

/-- A notification, by its method and what matters of its parameters. -/
inductive Notification where
  | initialized
  | cancelled (params : Option CancelledNotificationParams)
  | rootsListChanged
  | other (method : String)

inductive Message where
  | request (r : Request)
  | notification (n : Notification)
  | response (r : Response)

def Message.requestId? : Message → Option RequestId
  | request r => some r.id
  | _ => none

/-! ### Response sinks -/

/-- What a sink does with responses; `sender` is there until it is taken. -/
inductive SinkKind where
  | json (sender : Bool) (collected : List Json) (batch : Bool)
  | sse

structure ResponseSink where
  kind : SinkKind
  /-- Responses still expected, an `AtomicUsize`. -/
  expected : Nat

/-- `AtomicUsize::fetch_sub(1)` wraps around at zero. -/
def wrappingPred (n : Nat) : Nat := if n = 0 then 2 ^ 64 - 1 else n - 1

def ResponseSink.ofJson (expected : Nat) (batch : Bool) : ResponseSink :=
  ⟨.json true [] batch, expected⟩

def ResponseSink.ofSse (expected : Nat) : ResponseSink := ⟨.sse, expected⟩

def ResponseSink.isJson (sink : ResponseSink) : Bool :=
  match sink.kind with
  | .json _ _ _ => true
  | .sse => false

/-- A POST with requests: the ids it asks for, its sink, and what has come out of
the sink. -/
structure Post where
  requests : List RequestId
  sink : ResponseSink
  /-- Every response the sink was given, in order. -/
  received : List Response
  /-- The client still reads. -/
  reading : Bool
  reply : Option Json
  /-- The SSE stream was ended. -/
  ended : Bool

/-- The JSON reply is completed or the SSE stream ended. -/
def Post.Closed (p : Post) : Prop := p.reply.isSome ∨ p.ended = true

instance (p : Post) : Decidable p.Closed := inferInstanceAs (Decidable (_ ∨ _))

/-- What the transport passes to the session, with the number of its POST. -/
structure RequestContext where
  connectionId : Nat
  isGetStream : Bool
  isCancelled : Bool
  sink : Option Nat
deriving DecidableEq

/-! ### Sessions -/

/-- What a handler answers. -/
inductive Outcome where
  | result (value : Json)
  | error (e : RpcError)

/-- Where a delivery task is. -/
inductive Place where
  /-- About to take its next message. -/
  | between
  /-- `received_request`, about to insert the request. -/
  | registering (id : RequestId) (ctx : RequestContext)
  /-- In the handler of the request. -/
  | handling (id : RequestId) (ctx : RequestContext)
  /-- About to call `send_response` or `send_error_response`. -/
  | answering (id : RequestId) (outcome : Outcome) (ctx : RequestContext)
  /-- In `send_message`, about to write to the sink. -/
  | sending (response : Response) (ctx : RequestContext)
  /-- Written, about to call `response_delivered`. -/
  | counting (post : Nat)
  /-- Counted as the last response. -/
  | closing (post : Nat)
  /-- `deliver_json` has taken the collected responses. -/
  | replying (post : Nat) (items : List Json)

/-- A delivery task; `handle_initialize` may have yet to set `is_initialized`. -/
structure Task where
  place : Place
  queue : List (Message × RequestContext)
  initializing : Bool

/-- The settings of a session and its transport. -/
structure SessionConfig where
  isJsonResponseEnabled : Bool
  stateless : Bool
  initializeResult : Option Json → Json

structure Session where
  config : SessionConfig
  isInitialized : Bool
  hasHandler : Bool
  sessionRequests : OrderedMap RequestId RequestContext
  connectionCounter : Nat
  posts : List Post
  tasks : List Task

/-- `ServerSession::new`. -/
def Session.new (config : SessionConfig) : Session :=
  { config, isInitialized := false, hasHandler := false, sessionRequests := .empty,
    connectionCounter := 1, posts := [], tasks := [] }

/-- One atomic section, or an event from outside. -/
inductive Label where
  /-- `set_incoming_request_handler`. -/
  | setHandler
  /-- A POST is accepted: a batch or a single message. -/
  | post (messages : List Message) (batch : Bool)
  /-- The next section of a task. -/
  | run (task : Nat)
  /-- The handler of a task's request has its outcome. -/
  | handled (task : Nat) (outcome : Outcome)
  /-- The client of a POST stops reading. -/
  | disconnect (post : Nat)

namespace Session

variable (s : Session)

def setTask (i : Nat) (t : Task) : Session := { s with tasks := s.tasks.set i t }

def setPost (k : Nat) (p : Post) : Session := { s with posts := s.posts.set k p }

def isMarked (id : RequestId) : Bool :=
  (s.sessionRequests.get? id).elim false RequestContext.isCancelled

/-! `StreamableHttpServerTransport` -/

def newContext (sink : Option Nat) : RequestContext :=
  { connectionId := s.connectionCounter, isGetStream := false, isCancelled := false, sink }

/-- The part of `handle_post` after parsing. -/
def handlePost (messages : List Message) (batch : Bool) : Session :=
  let requests := messages.filterMap Message.requestId?
  let deliver (sink : Option Nat) : Task :=
    ⟨.between, messages.map fun m => (m, s.newContext sink), false⟩
  if requests = [] then
    { s with connectionCounter := s.connectionCounter + 1, tasks := s.tasks ++ [deliver none] }
  else
    let sink :=
      if s.config.isJsonResponseEnabled then ResponseSink.ofJson requests.length batch
      else ResponseSink.ofSse requests.length
    { s with
      connectionCounter := s.connectionCounter + 1
      posts := s.posts ++ [⟨requests, sink, [], true, none, false⟩]
      tasks := s.tasks ++ [deliver (some s.posts.length)] }

/-- The write of `send_message`, undefined where it fails. -/
def writeSink (p : Post) (r : Response) : Option Post :=
  match p.sink.kind with
  | .json sender collected batch =>
    if s.config.isJsonResponseEnabled then
      some { p with
        sink := { p.sink with kind := .json sender (collected ++ [r.toValue]) batch }
        received := p.received ++ [r] }
    else none
  | .sse =>
    if p.reading then some { p with received := p.received ++ [r] } else none

/-- `send_message` of a response. The GET stream is no sink of a POST. -/
def sendMessage (i : Nat) (t : Task) (r : Response) (ctx : RequestContext) : Session :=
  let done := s.setTask i { t with place := .between }
  if ctx.isGetStream || ctx.connectionId == 0 then done
  else
    match ctx.sink with
    | none => done
    | some k =>
      match s.posts[k]? with
      | none => done
      | some p =>
        match s.writeSink p r with
        | none => done
        | some p' => (s.setPost k p').setTask i { t with place := .counting k }

/-- `response_delivered`, and what its answer leads to. -/
def responseDelivered (i : Nat) (t : Task) (k : Nat) (p : Post) : Session :=
  let sink := { p.sink with expected := wrappingPred p.sink.expected }
  (s.setPost k { p with sink }).setTask i
    { t with place := if p.sink.expected ≤ 1 then .closing k else .between }

/-- `deliver_json` takes the collected responses; `finish` ends an SSE stream. -/
def closeSink (i : Nat) (t : Task) (k : Nat) (p : Post) : Session :=
  match p.sink.kind with
  | .json sender collected batch =>
    (s.setPost k { p with sink := { p.sink with kind := .json sender [] batch } }).setTask i
      { t with place := .replying k collected }
  | .sse => (s.setPost k { p with ended := true }).setTask i { t with place := .between }

def replyBody (batch : Bool) (items : List Json) : Json :=
  if batch then .arr items else items.head?.getD .null

/-- The end of `deliver_json`: the sender is taken once and sends the reply. -/
def sendReply (i : Nat) (t : Task) (k : Nat) (items : List Json) (p : Post) : Session :=
  let done := s.setTask i { t with place := .between }
  match p.sink.kind with
  | .json true collected batch =>
    let sink := { p.sink with kind := .json false collected batch }
    (s.setPost k { p with
      sink
      reply := if p.reading then some (replyBody batch items) else p.reply }).setTask i
        { t with place := .between }
  | _ => done

/-! `ServerSession` -/

/-- The map access of an answer. Only `send_response` looks at the mark. -/
def answer (i : Nat) (t : Task) (id : RequestId) (outcome : Outcome) (ctx : RequestContext) :
    Session :=
  let s' := { s with sessionRequests := s.sessionRequests.erase id }
  match outcome with
  | .result value =>
    if s.isMarked id || ctx.isCancelled then s'.setTask i { t with place := .between }
    else s'.setTask i { t with place := .sending (.success id value) ctx }
  | .error e => s'.setTask i { t with place := .sending (.failure (some id) e) ctx }

/-- `handle_cancelled`: the entry is marked, and a copy of it gets the error. -/
def handleCancelled (i : Nat) (t : Task) (params : Option CancelledNotificationParams) : Session :=
  match params with
  | none => s.setTask i t
  | some params =>
    match s.sessionRequests.get? params.requestId with
    | none => s.setTask i t
    | some entry =>
      let entry := { entry with isCancelled := true }
      let error := RpcError.new 0 "Request cancelled"
      ({ s with
        sessionRequests := s.sessionRequests.insert params.requestId entry }).setTask i
          { t with place := .sending (.failure (some params.requestId) error) entry }

def receivedNotification (i : Nat) (t : Task) : Notification → Session
  | .initialized => { s with isInitialized := true }.setTask i t
  | .cancelled params => s.handleCancelled i t params
  | .rootsListChanged => s.setTask i t
  | .other _ => s.setTask i t

/-- `received_request` up to its first access to the request map. -/
def receivedRequest (i : Nat) (t : Task) (r : Request) (ctx : RequestContext) : Session :=
  match r.method with
  | .init =>
    s.setTask i { t with
      place := .answering r.id (.result (s.config.initializeResult r.params)) ctx
      initializing := true }
  | .named name =>
    if !s.config.stateless && !s.isInitialized then
      let error := RpcError.new (-32600) ("Received request before initialization: " ++ name)
      s.setTask i { t with place := .answering r.id (.error error) ctx }
    else if s.hasHandler then s.setTask i { t with place := .registering r.id ctx }
    else s.setTask i t

/-- `on_message_received`. A response from the client touches no sink. -/
def onMessageReceived (i : Nat) (t : Task) (ctx : RequestContext) : Message → Session
  | .request r => s.receivedRequest i t r ctx
  | .notification n => s.receivedNotification i t n
  | .response _ => s.setTask i t

/-- The next section of a task, if it is not in a handler and not at its end. -/
def runTask (i : Nat) (t : Task) : Option Session :=
  match t.place with
  | .between =>
    if t.initializing then
      some ({ s with isInitialized := true }.setTask i { t with initializing := false })
    else
      match t.queue with
      | [] => none
      | (m, ctx) :: rest => some (s.onMessageReceived i { t with queue := rest } ctx m)
  | .registering id ctx =>
    some ({ s with sessionRequests := s.sessionRequests.insert id ctx }.setTask i
      { t with place := .handling id ctx })
  | .handling _ _ => none
  | .answering id outcome ctx => some (s.answer i t id outcome ctx)
  | .sending r ctx => some (s.sendMessage i t r ctx)
  | .counting k => s.posts[k]?.map fun p => s.responseDelivered i t k p
  | .closing k => s.posts[k]?.map fun p => s.closeSink i t k p
  | .replying k items => s.posts[k]?.map fun p => s.sendReply i t k items p

/-- One step; undefined where the label names nothing that can happen. -/
def step : Label → Option Session
  | .setHandler => some { s with hasHandler := true }
  | .post messages batch => some (s.handlePost messages batch)
  | .run i => s.tasks[i]?.bind fun t => s.runTask i t
  | .handled i outcome =>
    s.tasks[i]?.bind fun t =>
      match t.place with
      | .handling id ctx => some (s.setTask i { t with place := .answering id outcome ctx })
      | _ => none
  | .disconnect k => s.posts[k]?.map fun p => s.setPost k { p with reading := false }

end Session

end AgentProtocols.MCP
