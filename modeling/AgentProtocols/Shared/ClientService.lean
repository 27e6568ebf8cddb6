import AgentProtocols.Shared.HttpRequests

/-!
The C++ HTTP clients: `LibcurlConn` of the A2A SDK and `HttpClientService` of the MCP SDK.

Both have the same code but for what a request is filed under, the treatment of an empty response,
the callbacks of a failure and the cancellation (`Sdk`). libcurl is the outcome of the calls to it.
-/

namespace AgentProtocols.Shared

open Lib

/-! ### Server-sent events -/

structure ServerSentEvent where
  event : Text := "message".toList
  id : Text := []
  data : Text := []
  retry : Nat := 0
deriving DecidableEq

/-- A value without its leading blanks; one of blanks only stays as it is. -/
def trimLeading (value : Text) : Text :=
  if value.dropWhile isBlank = [] then value else value.dropWhile isBlank

/-- `ParseSseLine`: whether the event ends here, and the event. -/
def parseSseLine (sdk : Sdk) (line : Text) (e : ServerSentEvent) : Bool × ServerSentEvent :=
  if line = [] then
    (decide ¬(e.event = [] ∧ e.id = [] ∧ e.data = [] ∧ e.retry = 0), e)
  else if "event:".toList <+: line then (false, { e with event := trimLeading (line.drop 6) })
  else if "id:".toList <+: line then (false, { e with id := trimLeading (line.drop 3) })
  else if "data:".toList <+: line then
    let value := trimLeading (line.drop 5)
    (false, { e with data := if sdk = .a2a ∧ e.data ≠ [] then e.data ++ '\n' :: value else value })
  else (false, e)

/-! ### Requests -/

/-- The `HttpResponse` that the callbacks of a request are called with. -/
structure ClientResponse (Id : Type) where
  success : Bool := false
  requestId : Id
  statusCode : Nat := 200
  errorMessage : String := ""
  headers : List (Text × Text) := []
  body : Text := []
  sseEvent : ServerSentEvent := {}
deriving DecidableEq

/-- A call made for a request. The MCP SDK asks whether the header callback took the response. -/
inductive Callback (Id : Type) where
  | header (response : ClientResponse Id) (taken : Bool)
  | body (response : ClientResponse Id)
  | sendError (errorMsg : String) (errorCode : Int)
deriving DecidableEq

/-- A call for a request, or its end. -/
inductive Entry (Id : Type) where
  | callback (c : Callback Id)
  | ended
deriving DecidableEq

/-- Where a call of `Send` is: past the check of the state, past the push, returned. -/
inductive SendCall where
  | checked
  | pushed
  | accepted
  | refused
deriving DecidableEq

/-- `RequestContext`, with the call of `Send` and what has happened. -/
structure RequestContext (Id : Type) where
  requestId : Id
  isStream : Bool
  hasHeaderCallback : Bool
  response : ClientResponse Id
  easyHandle : Option Nat := none
  responseData : Text := []
  call : SendCall := .checked
  log : List (Entry Id) := []

namespace RequestContext

variable {Id : Type} [DecidableEq Id] (sdk : Sdk) (ctx : RequestContext Id)

def called (c : Callback Id) : RequestContext Id :=
  { ctx with log := ctx.log ++ [.callback c] }

/-- The transfer is over, or there will be none: the handle is gone. -/
def finish : RequestContext Id :=
  { ctx with easyHandle := none, log := ctx.log ++ [.ended] }

/-- `ExecuteCallback`, where the header callback returns `answer`, or throws. -/
def executeCallback (response : ClientResponse Id) (answer : Option Bool) : RequestContext Id :=
  if ctx.hasHeaderCallback then
    match sdk, answer with
    | .mcp, none => ctx.called (.header response false)
    | .mcp, some true => ctx.called (.header response true)
    | _, _ => (ctx.called (.header response false)).called (.body response)
  else ctx.called (.body response)

/-- The `HttpResponse` of a request that failed. -/
def errorResponse (errorMessage : String) : ClientResponse Id where
  requestId := ctx.requestId
  statusCode := 0
  errorMessage

def handleErrorResponse (errorMessage : String) (answer : Option Bool) : RequestContext Id :=
  ctx.executeCallback sdk (ctx.errorResponse errorMessage) answer

def httpParseError : Int := -1

def handleFinishedResponse : RequestContext Id :=
  if ctx.responseData = [] then
    match sdk with
    | .a2a =>
      if ctx.isStream then ctx
      else ctx.called (.sendError "Empty non-streaming response" httpParseError)
    | .mcp => ctx
  else if sdk = .a2a ∧ ctx.response.requestId ≠ ctx.requestId then
    ctx.called (.sendError "RequestId in response data does not match with requestId in request"
      httpParseError)
  else ctx.called (.body { ctx.response with body := ctx.responseData })

/-- The end of `HeaderCallback`: the header is complete. -/
def headerCallback (statusCode : Nat) (headers : List (Text × Text)) (close : Bool) :
    RequestContext Id :=
  let response := { ctx.response with
    success := true, requestId := ctx.requestId, statusCode, headers }
  let ctx := { ctx with response }
  if ctx.hasHeaderCallback then ctx.called (.header response close) else ctx

/-- The value of the `Content-Type` header. -/
def contentType : Text :=
  match sdk with
  | .a2a => (findHeaderCaseInsensitive ctx.response.headers "Content-Type".toList).getD []
  | .mcp => (ctx.response.headers.lookup "content-type".toList).getD []

/-- A line of a stream of events has been read. -/
def endOfLine (line : Text) : RequestContext Id :=
  let (isSseEnd, sseEvent) := parseSseLine sdk line ctx.response.sseEvent
  let response := { ctx.response with sseEvent }
  if isSseEnd then
    { ctx.called (.body response) with
      responseData := [], response := { response with sseEvent := {} } }
  else { ctx with responseData := [], response }

/-- One byte of a stream of events. -/
def receive (ctx : RequestContext Id) (c : Char) : RequestContext Id :=
  if c ≠ '\n' then { ctx with responseData := ctx.responseData ++ [c] }
  else ctx.endOfLine sdk (if ctx.responseData.getLast? = some '\r' then
    ctx.responseData.dropLast else ctx.responseData)

def writeCallback (contents : Text) : RequestContext Id :=
  if "text/event-stream".toList <:+: ctx.contentType sdk then contents.foldl (receive sdk) ctx
  else { ctx with responseData := ctx.responseData ++ contents }

end RequestContext

/-! ### The client -/

/-- `ConnState`, `ServiceState`. -/
inductive ConnState where
  | running
  | stopping
  | stopped
deriving DecidableEq

/-- Where the I/O thread is: its event loop, `HandleNotify`, or `HandleStopRequestInIOThread`. -/
inductive IoThread where
  | idle
  | popping (localMessages : List Nat)
  | handling (localMessages : List Nat)
  | rejecting (processed : Nat)
  | waiting
  | cancelling (requestsToCancel : List Nat)
  | ended
deriving DecidableEq

/-- What `activeRequests_` files a request under: the A2A SDK its id, the MCP SDK its
handle. -/
abbrev Sdk.activeKey {Id : Type} (sdk : Sdk) (requestId : Id) (easyHandle : Nat) : Id ⊕ Nat :=
  match sdk with
  | .a2a => .inl requestId
  | .mcp => .inr easyHandle

/-- `LibcurlConn`, `HttpClientService`. A request is the number of its context. -/
structure ClientService (Id : Type) where
  sdk : Sdk
  state : ConnState
  requestQueue : List Nat
  activeRequests : OrderedMap (Id ⊕ Nat) Nat
  requests : List (RequestContext Id)
  io : IoThread
  /-- The call of `Stop` that stopped the client has returned. -/
  stopReturned : Bool

/-- What libcurl makes of a request: no handle, a handle that is not added, or one that
is. -/
inductive CurlOutcome where
  | noHandle
  | notAdded (easyHandle : Nat) (strerror : String)
  | added (easyHandle : Nat)
deriving DecidableEq

/-- A step of a caller, of the I/O thread, or of libcurl; `none` is a callback that throws. -/
inductive ClientEvent (Id : Type) where
  /-- `Send` finds the client running. -/
  | send (requestId : Id) (isStream hasHeaderCallback : Bool)
  /-- The queue takes the request, or it has no room. -/
  | push (r : Nat) (room : Bool)
  /-- `Send` returns: the I/O thread could be notified, or not. -/
  | sent (r : Nat) (notified : Bool)
  | stop
  /-- `HandleNotify` begins. -/
  | notify
  /-- `TryPop` gives a message, or sees none. -/
  | tryPop (seen : Bool)
  | handle (outcome : CurlOutcome) (answer : Option Bool)
  | batchDone
  | header (r statusCode : Nat) (headers : List (Text × Text)) (close : Bool)
  | write (r : Nat) (contents : Text)
  /-- libcurl reports a transfer as done, with an error or without one. -/
  | done (r : Nat) (strerror : Option String) (answer : Option Bool)
  /-- `HandleStopRequestInIOThread` begins. -/
  | stopRequest
  | reject (answer : Option Bool)
  | drained
  /-- No transfer is left, or the time to wait for them is over; they are cancelled in
  this order. -/
  | cancelAll (requestsToCancel : List Nat)
  | cancel (answer : Option Bool)
  | eventLoopEnds
  | stopReturns

def maxProcessedRequestWhenStop : Nat := 1000

def defaultQueueMaxBatchSize : Nat := 16

namespace ClientService

variable {Id : Type} [DecidableEq Id] [Inhabited Id] (s : ClientService Id)

def update (r : Nat) (f : RequestContext Id → RequestContext Id) : ClientService Id :=
  { s with requests := s.requests.modify r f }

/-- The request is filed in place of one under the same key. -/
def file (key : Id ⊕ Nat) (r easyHandle : Nat) : ClientService Id :=
  let s := match s.activeRequests.get? key with
    | some old => s.update old .finish
    | none => s
  { s.update r fun ctx => { ctx with easyHandle := some easyHandle } with
    activeRequests := s.activeRequests.insert key r }

/-- `HandleRequestInIOThread`. The MCP SDK files the request before it adds the handle. -/
def handleRequestInIOThread (r : Nat) (ctx : RequestContext Id) (answer : Option Bool) :
    CurlOutcome → ClientService Id
  | .noHandle =>
    s.update r fun ctx =>
      ctx.finish.handleErrorResponse s.sdk "Failed to create CURL handle" answer
  | .notAdded _ strerror =>
    s.update r fun ctx => ctx.finish.handleErrorResponse s.sdk
      ("Failed to add CURL handle to multi handle: " ++ strerror) answer
  | .added easyHandle => s.file (s.sdk.activeKey ctx.requestId easyHandle) r easyHandle

/-- The handle of a new request is that of no other. -/
def FreshHandle : CurlOutcome → Prop
  | .added easyHandle => ∀ ctx ∈ s.requests, ctx.easyHandle ≠ some easyHandle
  | _ => True

instance : DecidablePred s.FreshHandle := fun outcome => by
  cases outcome <;> unfold FreshHandle <;> infer_instance

/-- What `CheckMultiInfo` finds: by the context (A2A) or by the handle (MCP). -/
def findActive (r easyHandle : Nat) : Option (Id ⊕ Nat) :=
  match s.sdk with
  | .a2a => (s.activeRequests.entries.find? fun pair => pair.2 = r).map Prod.fst
  | .mcp => (s.activeRequests.get? (.inr easyHandle)).map fun _ => .inr easyHandle

/-- `CheckMultiInfo`, for a transfer that is done. -/
def checkMultiInfo (r easyHandle : Nat) (strerror : Option String) (answer : Option Bool) :
    ClientService Id :=
  match s.findActive r easyHandle with
  | none => s.update r .finish
  | some key =>
    { s with activeRequests := s.activeRequests.erase key }.update r fun ctx =>
      match strerror with
      | none => ctx.finish.handleFinishedResponse s.sdk
      | some message => ctx.finish.handleErrorResponse s.sdk message answer

/-- `CancelRequest`, for a request with a handle. -/
def cancelRequest (r : Nat) (answer : Option Bool) : ClientService Id :=
  match s.sdk with
  | .a2a => s.update r fun ctx => ctx.finish.executeCallback .a2a
      (ctx.errorResponse "Request cancelled during shutdown") answer
  | .mcp => s.update r .finish

/-- libcurl runs: in the event loop, and while the client waits for the transfers. -/
def CurlRuns : Prop := s.io = .idle ∨ s.io = .waiting

instance : Decidable s.CurlRuns := inferInstanceAs (Decidable (_ ∨ _))

/-- What an event does, where it can happen. -/
def step : ClientEvent Id → Option (ClientService Id)
  | .send requestId isStream hasHeaderCallback =>
    if s.state = .running then
      some { s with
        requests := s.requests ++ [{
          requestId, isStream, hasHeaderCallback, response := { requestId := default } }] }
    else none
  | .push r room => do
    let ctx ← s.requests[r]?
    guard (ctx.call = .checked)
    if room then
      some { s.update r fun ctx => { ctx with call := .pushed } with
        requestQueue := s.requestQueue ++ [r] }
    else some (s.update r fun ctx => { ctx with call := .refused })
  | .sent r notified => do
    let ctx ← s.requests[r]?
    guard (ctx.call = .pushed)
    some (s.update r fun ctx => { ctx with call := if notified then .accepted else .refused })
  | .stop => some (if s.state = .running then { s with state := .stopping } else s)
  | .notify => if s.io = .idle then some { s with io := .popping [] } else none
  | .tryPop seen =>
    match s.io, seen, s.requestQueue with
    | .popping localMessages, true, r :: rest =>
      some { s with
        requestQueue := rest
        io := if localMessages.length < defaultQueueMaxBatchSize then
          .popping (localMessages ++ [r]) else .handling localMessages }
    | .popping localMessages, false, _ => some { s with io := .handling localMessages }
    | _, _, _ => none
  | .handle outcome answer =>
    match s.io with
    | .handling (r :: rest) => do
      let ctx ← s.requests[r]?
      guard (s.FreshHandle outcome)
      let s := { s with io := .handling rest }
      some (if s.state = .running then s.handleRequestInIOThread r ctx answer outcome
        else s.update r fun ctx =>
          ctx.finish.handleErrorResponse s.sdk "Service is stopping" answer)
    | _ => none
  | .batchDone => if s.io = .handling [] then some { s with io := .idle } else none
  | .header r statusCode headers close => do
    let ctx ← s.requests[r]?
    guard (s.CurlRuns ∧ ctx.easyHandle.isSome)
    some (s.update r fun ctx => ctx.headerCallback statusCode headers close)
  | .write r contents => do
    let ctx ← s.requests[r]?
    guard (s.CurlRuns ∧ ctx.easyHandle.isSome)
    some (s.update r fun ctx => ctx.writeCallback s.sdk contents)
  | .done r strerror answer => do
    let ctx ← s.requests[r]?
    guard s.CurlRuns
    let easyHandle ← ctx.easyHandle
    some (s.checkMultiInfo r easyHandle strerror answer)
  | .stopRequest =>
    if s.io = .idle ∧ s.state = .stopping then some { s with io := .rejecting 0 } else none
  | .reject answer =>
    match s.io, s.requestQueue with
    | .rejecting processed, r :: rest =>
      if processed < maxProcessedRequestWhenStop then
        let s := { s with requestQueue := rest, io := .rejecting (processed + 1) }
        some (s.update r fun ctx =>
          ctx.finish.handleErrorResponse s.sdk "Service is stopping" answer)
      else none
    | _, _ => none
  | .drained =>
    match s.io with
    | .rejecting _ => some { s with io := .waiting }
    | _ => none
  | .cancelAll requestsToCancel =>
    if s.io = .waiting ∧ requestsToCancel.Perm s.activeRequests.values then
      some { s with io := .cancelling requestsToCancel }
    else none
  | .cancel answer =>
    match s.io with
    | .cancelling (r :: rest) => do
      let ctx ← s.requests[r]?
      let s := { s with io := .cancelling rest }
      some (if ctx.easyHandle.isSome then s.cancelRequest r answer else s)
    | _ => none
  | .eventLoopEnds =>
    if s.io = .cancelling [] then
      some { s with activeRequests := .empty, state := .stopped, io := .ended }
    else none
  | .stopReturns => if s.io = .ended then some { s with stopReturned := true } else none

/-- `Start` has just returned. -/
structure Started : Prop where
  running : s.state = .running
  requestQueue : s.requestQueue = []
  activeRequests : s.activeRequests = .empty
  requests : s.requests = []
  idle : s.io = .idle
  stopReturned : s.stopReturned = false

end ClientService

end AgentProtocols.Shared
