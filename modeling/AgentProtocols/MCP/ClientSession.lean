import AgentProtocols.Lib.Runs
import AgentProtocols.MCP.ServerSession
import Mathlib.Data.List.Infix

/-!
The MCP client: `McpClient`, its `ClientSession`s and the Streamable HTTP transport.

`State.step` is the code cut at its lock sections and atomic operations: the calls, the `do_post`
tasks and the calls of `McpClient` are threads. What HTTP brings is in the events, with what
`parse_message` makes of a text. `recent_progress` is left out: nothing here reads it.
-/

namespace AgentProtocols.MCP.Client

open Lib

/-! ### Pending requests -/

/-- A completion channel and a progress callback are the number of their call. -/
structure PendingRequests where
  nextId : Int
  map : OrderedMap RequestId Nat
  progress : OrderedMap RequestId Nat

def PendingRequests.new : PendingRequests := ⟨1, .empty, .empty⟩

/-- `AtomicI64::fetch_add(1)` wraps around. -/
def fetchAdd (n : Int) : Int := if n + 1 < 2 ^ 63 then n + 1 else n + 1 - 2 ^ 64

/-- A response with its id and the session it answers, or the error of a disconnect. -/
inductive Completion where
  | response (id : RequestId) (session : Nat) (result : Except RpcError Json)
  | disconnected (error : RpcError)

/-- What `await_response` and `send_request_raw` return. -/
inductive Outcome where
  | value (v : Json)
  | rpc (e : RpcError)
  | closed
  | timeout

def Completion.outcome : Completion → Outcome
  | response _ _ (.ok v) => .value v
  | response _ _ (.error e) => .rpc e
  | disconnected e => .rpc e

/-- Where a call of `send_request_raw` is, from its first table entry to its return or drop. -/
inductive CallPlace where
  | allocated
  | progressed
  | registered
  | awaiting
  | removing (outcome : Outcome)
  | erasing (outcome : Outcome)
  | returned
  | dropped

namespace CallPlace

/-- `register` has returned. -/
def isRegistered : CallPlace → Bool
  | allocated | progressed => false
  | _ => true

def isOver : CallPlace → Bool
  | returned | dropped => true
  | _ => false

end CallPlace

/-- A call of `send_request_raw`, with what its channel and caller have got. -/
structure Call where
  session : Nat
  id : RequestId
  hasProgress : Bool
  place : CallPlace := .allocated
  channel : List Completion := []
  /-- The sending half was dropped. -/
  closed : Bool := false
  outcomes : List Outcome := []

/-! ### The tasks of the transport -/

/-- Where a task goes after a message. -/
inductive Next where
  | ends
  | streams
deriving DecidableEq

/-- Where a task is: before its look-up, in `PendingRequests::complete`, or in `fail_all`. -/
inductive TaskPlace where
  | posting
  | streaming
  | delivering (message : Message) (next : Next)
  | retiring (session : Nat) (id : RequestId) (result : Except RpcError Json) (next : Next)
  | taking (session : Nat) (id : RequestId) (result : Except RpcError Json) (next : Next)
  | sending (call : Nat) (completion : Completion) (next : Next)
  | draining (session : Nat) (error : RpcError)
  | clearing (session : Nat) (error : RpcError) (calls : List Nat)
  | failing (error : RpcError) (calls : List Nat)
  | ended

def Next.place : Next → TaskPlace
  | ends => .ended
  | streams => .streaming

/-- A `do_post` task, the task of a GET stream, or a disconnect. -/
inductive TaskKind where
  | post
  | get
  | disconnect
deriving DecidableEq

/-- A task: the session whose message it posts, and the id of the request it posts. -/
structure Task where
  kind : TaskKind
  session : Nat
  request : Option RequestId
  place : TaskPlace

/-- What becomes of an HTTP request: no client, no answer, or an answer with its body. -/
inductive HttpOutcome where
  | notRunning
  | failed (e : String)
  | answer (code : Nat) (contentType : Option String)
      (body : Except String (Except String Message))

def internalError : Int := -32603

def invalidRequest : Int := -32600

def reportError (request : Option RequestId) (code : Int) (message : String) : TaskPlace :=
  match request with
  | none => .ended
  | some id =>
    if id = .number 0 then .ended
    else .delivering (.response (.failure (some id) (.new code message))) .ends

def isJson (contentType : String) : Bool := "application/json".toList <:+: contentType.toList

def isSse (contentType : String) : Bool := "text/event-stream".toList <:+: contentType.toList

def isSuccess (code : Nat) : Bool := 200 ≤ code ∧ code < 300

/-- `do_post`, after the request has been sent. -/
def doPost (request : Option RequestId) : HttpOutcome → TaskPlace
  | .notRunning =>
    reportError request internalError "HTTP request failed: HttpClientService is not running"
  | .failed e => reportError request internalError ("HTTP request failed: " ++ e)
  | .answer code contentType body =>
    if code = 202 then .ended
    else if code = 404 then reportError request invalidRequest "Session terminated"
    else if !isSuccess code then
      reportError request invalidRequest ("HTTP error: " ++ toString code)
    else match contentType with
      | none => reportError request internalError "Unexpected content type: <missing>"
      | some ct =>
        if isJson ct then
          match body with
          | .error e => reportError request internalError ("HTTP request failed: " ++ e)
          | .ok (.error e) =>
            reportError request internalError ("Failed to parse response: " ++ e)
          | .ok (.ok message) => .delivering message .ends
        else if isSse ct then .streaming
        else reportError request internalError ("Unexpected content type: " ++ ct)

/-- The task of `start_get_stream`, after the request has been sent. -/
def getStream : HttpOutcome → TaskPlace
  | .answer code _ _ => if isSuccess code then .streaming else .ended
  | _ => .ended

/-- An event of a stream: its name and what `parse_message` makes of its data. -/
structure SseEvent where
  event : Option String
  data : Except String Message

def SseEvent.message? (e : SseEvent) : Option Message :=
  if e.event.getD "message" = "message" then e.data.toOption else none

def isResponse : Message → Bool
  | .response _ => true
  | _ => false

/-- `handle_sse_event` in `consume_sse`: the stream of a POST is dropped after a response. -/
def handleSseEvent (kind : TaskKind) (e : SseEvent) : TaskPlace :=
  match e.message? with
  | none => .streaming
  | some message =>
    .delivering message (if isResponse message ∧ kind = .post then .ends else .streams)

/-- The end of a stream: `parser.finish` may still give an event. -/
def finishStream (last : Option SseEvent) : TaskPlace :=
  match last.bind SseEvent.message? with
  | none => .ended
  | some message => .delivering message .ends

/-! ### The client -/

/-- A call of `McpClient`: past its check of `initialized`, or further on. -/
inductive ClientThread where
  | initializing
  | connected (session : Nat)
  | stored (session : Nat)
  | opened (session : Nat)
  | requesting (hasProgress : Bool)
  | closing
  | stopped
  | silenced
  | forgotten
  | done
deriving DecidableEq

/-- The session that the call holds. -/
def ClientThread.holds : ClientThread → Option Nat
  | connected σ | stored σ | opened σ => some σ
  | _ => none

inductive Operation where
  | init
  | request (hasProgress : Bool)
  | close

/-- `McpClient`, its sessions and its transport. Sessions are numbered. -/
structure State where
  session : Nat → PendingRequests
  sessions : Nat
  /-- The callback of the transport, a weak handle. -/
  callback : Option Nat
  running : Bool
  /-- The session of the client. -/
  current : Option Nat
  initialized : Bool
  threads : List ClientThread
  calls : List Call
  tasks : List Task

inductive Event where
  | begin (op : Operation)
  | client (thread : Nat)
  /-- `connect` fails, or the future of an `initialize` or `close_gracefully` is dropped. -/
  | abandon (thread : Nat)
  | call (c : Nat)
  /-- The timeout of a call is over. -/
  | expire (c : Nat)
  /-- The future of a call is dropped. -/
  | drop (c : Nat)
  /-- A session sends a notification or a response, and opens the GET stream with it or
  not. -/
  | post (session : Nat) (stream : Bool)
  | answered (k : Nat) (outcome : HttpOutcome)
  | sse (k : Nat) (e : SseEvent)
  | streamEnds (k : Nat) (last : Option SseEvent)
  /-- The stream breaks, or the task of a GET stream is aborted. -/
  | cut (k : Nat)
  | task (k : Nat)
  | disconnect (reason : String)

namespace State

variable (s : State)

/-- No session has been made. -/
def new : State := ⟨fun _ => .new, 0, none, true, none, false, [], [], []⟩

def setSession (σ : Nat) (p : PendingRequests) : State :=
  { s with session := Function.update s.session σ p }

def setCall (c : Nat) (call : Call) : State := { s with calls := s.calls.set c call }

def setTask (k : Nat) (t : Task) : State := { s with tasks := s.tasks.set k t }

/-- Someone holds the session, so that the weak handle can be upgraded. -/
def alive (σ : Nat) : Bool :=
  decide (s.current = some σ) || s.threads.any (fun t => decide (t.holds = some σ)) ||
    s.calls.any fun call => decide (call.session = σ) && !call.place.isOver

/-- `next_id`, at the beginning of `register`. -/
def allocate (σ : Nat) (hasProgress : Bool) : State :=
  let p := s.session σ
  { s.setSession σ { p with nextId := fetchAdd p.nextId } with
    calls := s.calls ++ [{ session := σ, id := .number p.nextId, hasProgress }] }

/-- `PendingRequests::retire_progress`. -/
def retireProgress (σ : Nat) (id : RequestId) : State :=
  s.setSession σ { s.session σ with progress := (s.session σ).progress.erase id }

def takeChannel (σ : Nat) (id : RequestId) : State :=
  s.setSession σ { s.session σ with map := (s.session σ).map.erase id }

/-- A check of `initialized`. -/
def begin : Operation → State
  | .init => if s.initialized then s else { s with threads := s.threads ++ [.initializing] }
  | .request hasProgress =>
    if s.initialized then { s with threads := s.threads ++ [.requesting hasProgress] } else s
  | .close => if s.initialized then { s with threads := s.threads ++ [.closing] } else s

/-- The next section of a call of `McpClient`. -/
def clientStep (j : Nat) : ClientThread → Option State
  | .initializing => some { s with
      -- `ClientSession::new` installs the session as the callback of the transport
      sessions := s.sessions + 1
      callback := some s.sessions
      threads := s.threads.set j (.connected s.sessions) }
  | .connected σ => some { s with current := some σ, threads := s.threads.set j (.stored σ) }
  | .stored σ => some { s with initialized := true, threads := s.threads.set j (.opened σ) }
  | .opened σ => some { s.allocate σ false with threads := s.threads.set j .done }
  | .requesting hasProgress =>
    match s.current with
    | none => some { s with threads := s.threads.set j .done }
    | some σ => some { s.allocate σ hasProgress with threads := s.threads.set j .done }
  | .closing => some { s with running := false, threads := s.threads.set j .stopped }
  | .stopped => some { s with callback := none, threads := s.threads.set j .silenced }
  | .silenced => some { s with current := none, threads := s.threads.set j .forgotten }
  | .forgotten => some { s with initialized := false, threads := s.threads.set j .done }
  | .done => none

/-- The channel of a request is entered; one that was under its id is dropped. -/
def enterChannel (c : Nat) (call : Call) : State :=
  let p := s.session call.session
  let s := match p.map.get? call.id with
    | some old => { s with calls := s.calls.modify old fun call => { call with closed := true } }
    | none => s
  s.setSession call.session { p with map := p.map.insert call.id c }

/-- The next section of a call of `send_request_raw`. -/
def callStep (c : Nat) (call : Call) : Option State :=
  match call.place with
  | .allocated =>
    let p := s.session call.session
    let s := if call.hasProgress then
      s.setSession call.session { p with progress := p.progress.insert call.id c } else s
    some (s.setCall c { call with place := .progressed })
  | .progressed => some ((s.enterChannel c call).setCall c { call with place := .registered })
  | .registered =>
    -- `send_message` of the transport
    if s.running then
      some { s.setCall c { call with place := .awaiting } with
        tasks := s.tasks ++ [⟨.post, call.session, some call.id, .posting⟩] }
    else some (s.setCall c { call with
      place := .removing (.rpc (.new internalError
        "Transport error: transport error: HttpClientService is not running")) })
  | .awaiting =>
    match call.channel with
    | completion :: _ => some (s.setCall c { call with
        place := .returned, outcomes := call.outcomes ++ [completion.outcome] })
    | [] =>
      if call.closed then some (s.setCall c { call with place := .removing .closed }) else none
  | .removing outcome =>
    some ((s.retireProgress call.session call.id).setCall c { call with
      place := .erasing outcome })
  | .erasing outcome =>
    some ((s.takeChannel call.session call.id).setCall c { call with
      place := .returned, outcomes := call.outcomes ++ [outcome] })
  | .returned | .dropped => none

/-- `tx.send`; nobody receives what is sent to a call that is over. -/
def send (c : Nat) (completion : Completion) : State :=
  { s with calls := s.calls.modify c fun call =>
      { call with channel := call.channel ++ [completion] } }

/-- `ClientSession::on_message_received`, as far as the tables are concerned. -/
def receive (σ : Nat) (next : Next) : Message → TaskPlace
  | .response r =>
    match r.id with
    | none => next.place
    | some id =>
      .retiring σ id (match r.error with
        | some e => .error e
        | none => .ok (r.result.getD .null)) next
  | _ => next.place

/-- The next section of a task. -/
def taskStep (k : Nat) (t : Task) : Option State :=
  match t.place with
  | .delivering message next =>
    match s.callback with
    | none => some (s.setTask k { t with place := next.place })
    | some σ => some (s.setTask k { t with
        place := if s.alive σ then receive σ next message else next.place })
  | .retiring σ id result next =>
    some ((s.retireProgress σ id).setTask k { t with place := .taking σ id result next })
  | .taking σ id result next =>
    some ((s.takeChannel σ id).setTask k { t with
      place := match (s.session σ).map.get? id with
        | none => next.place
        | some c => .sending c (.response id t.session result) next })
  | .sending c completion next =>
    some ((s.send c completion).setTask k { t with place := next.place })
  | .draining σ error =>
    some ((s.setSession σ { s.session σ with map := .empty }).setTask k { t with
      place := .clearing σ error (s.session σ).map.values })
  | .clearing σ error calls =>
    some ((s.setSession σ { s.session σ with progress := .empty }).setTask k { t with
      place := .failing error calls })
  | .failing error (c :: rest) =>
    some ((s.send c (.disconnected error)).setTask k { t with place := .failing error rest })
  | .failing _ [] => some (s.setTask k { t with place := .ended })
  | .posting | .streaming | .ended => none

/-- What an event does, where it can happen. -/
def step : Event → Option State
  | .begin op => some (s.begin op)
  | .client j => do
    let thread ← s.threads[j]?
    s.clientStep j thread
  | .abandon j => do
    let thread ← s.threads[j]?
    guard (thread = .initializing ∨ thread = .closing)
    some { s with threads := s.threads.set j .done }
  | .call c => do
    let call ← s.calls[c]?
    s.callStep c call
  | .expire c => do
    let call ← s.calls[c]?
    match call.place, call.channel with
    | .awaiting, [] => some (s.setCall c { call with place := .removing .timeout })
    | _, _ => none
  | .drop c => do
    let call ← s.calls[c]?
    match call.place with
    | .awaiting => some (s.setCall c { call with place := .dropped })
    | _ => none
  | .post σ stream =>
    if σ < s.sessions ∧ s.running then
      some { s with tasks := s.tasks ++ ⟨.post, σ, none, .posting⟩ ::
        if stream then [⟨.get, σ, none, .posting⟩] else [] }
    else none
  | .answered k outcome => do
    let t ← s.tasks[k]?
    match t.place with
    | .posting => some (s.setTask k { t with
        place := if t.kind = .get then getStream outcome else doPost t.request outcome })
    | _ => none
  | .sse k e => do
    let t ← s.tasks[k]?
    match t.place with
    | .streaming => some (s.setTask k { t with place := handleSseEvent t.kind e })
    | _ => none
  | .streamEnds k last => do
    let t ← s.tasks[k]?
    match t.place with
    | .streaming => some (s.setTask k { t with place := finishStream last })
    | _ => none
  | .cut k => do
    let t ← s.tasks[k]?
    match t.place with
    | .streaming => some (s.setTask k { t with place := .ended })
    | _ => none
  | .task k => do
    let t ← s.tasks[k]?
    s.taskStep k t
  | .disconnect reason => do
    let σ ← s.callback
    guard (s.alive σ)
    some { s with tasks := s.tasks ++
      [⟨.disconnect, σ, none, .draining σ
        (.new internalError ("Transport disconnected: " ++ reason))⟩] }

end State

end AgentProtocols.MCP.Client
