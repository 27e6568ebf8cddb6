import AgentProtocols.Json.Text
import AgentProtocols.A2A.ClientTaskManager

/-!
What the JSON-RPC transport of the client makes of an HTTP response: the decisions between taking
the request out of `request_data` (`Step.finish`) and passing an event on (`Step.pass`). Reading
JSON is a parameter (`Decoder`).
-/

namespace AgentProtocols.A2A

open Json

/-! ### Methods, events and results -/

inductive Method where
  | messageSend
  | messageStream
  | taskGet
  | taskCancel
  | pushConfigSet
  | pushConfigGet
  | pushConfigList
  | pushConfigDelete
  | taskResubscribe
  | agentCardGet
deriving DecidableEq

/-- `UserData::is_stream`. -/
def Method.isStream : Method → Bool
  | messageStream | taskResubscribe => true
  | _ => false

/-- The methods whose callers give a handler. -/
def Method.hasHandler : Method → Bool
  | messageSend | messageStream | taskResubscribe => true
  | _ => false

/-- `TransportEvent`. A push notification config and an agent card are passed on
unread. -/
inductive TransportEvent where
  | error (errorCode : Int) (errInfo : String)
  | message (m : Message)
  | task (t : Task)
  | statusUpdate (u : TaskStatusUpdateEvent)
  | artifactUpdate (a : TaskArtifactUpdateEvent)
  | pushNotificationConfig (c : Json)
  | pushNotificationConfigs (cs : List Json)
  | none
  | agentCard (c : Json)

namespace TransportEvent

def isError : TransportEvent → Bool
  | error _ _ => true
  | _ => false

def streamEnd : TransportEvent := error 0 ""

def ofStreamEvent : StreamEvent → TransportEvent
  | .task t => task t
  | .message m => message m
  | .statusUpdate u => statusUpdate u
  | .artifactUpdate a => artifactUpdate a

/-- A status update after which the stream is over. -/
def isFinalStatus : TransportEvent → Bool
  | statusUpdate u => isFinalOrInterrupted u.status.state
  | _ => false

end TransportEvent

structure ClientError where
  code : Int
  message : String

/-- What a call of the client returns. -/
inductive CallResult where
  | unit
  | task (t : Task)
  | pushConfig (c : Json)
  | pushConfigs (cs : List Json)
  | card (c : Json)

abbrev Reply := Except ClientError CallResult

/-- `serde_json::from_value` at the types of the protocol, with code and message of an error. -/
structure Decoder where
  streamEvent : Json → Except String StreamEvent
  sendMessageResult : Json → Except String SendMessageResult
  task : Json → Except String Task
  pushConfig : Json → Except String Json
  pushConfigs : Json → Except String (List Json)
  agentCard : Json → Except String Json
  error : Json → Int × String
  floatText : F64 → String

/-! ### Bodies -/

/-- A text as `serde_json::from_str` reads it. -/
inductive Body where
  | empty
  | invalid (message : String)
  | json (value : Json)

/-- What the transport does with a response. -/
inductive Step where
  /-- `finish`, and the event if the request was there. -/
  | finish (event : TransportEvent)
  | pass (event : TransportEvent)

/-- `Value::get`. -/
def field (data : Json) (key : String) : Option Json := data.asObject.bind (JsonDict.get · key)

namespace Decoder

variable (d : Decoder) (method : Method) (requestId : String)

def idMatches (data : Json) : Bool :=
  match field data "id" with
  | none => true
  | some (.str s) => s == requestId
  | some (.num n) => String.ofList (n.text d.floatText) == requestId
  | some _ => false

def mismatch : TransportEvent :=
  .error (-32006) "RequestId in response data does not match with requestId in request"

def onStreamResp (data : Json) : Step :=
  match field data "error" with
  | some err => .finish (.error (d.error err).1 (d.error err).2)
  | none =>
    if d.idMatches requestId data then
      match d.streamEvent ((field data "result").getD .null) with
      | .error e => .finish (.error (-32700) e)
      | .ok event =>
        let event := TransportEvent.ofStreamEvent event
        if event.isFinalStatus then .finish event else .pass event
    else .finish mismatch

/-- The `result` of `parse_result`. -/
def result {α : Type} (decode : Json → Except String α) (data : Json) : Except String α :=
  match field data "result" with
  | none => .error "Response missing 'result' field"
  | some r => decode r

def parseResult (data : Json) : Except String TransportEvent :=
  match method with
  | .messageSend =>
    (result d.sendMessageResult data).map fun
      | .task t => .task t
      | .message m => .message m
  | .taskGet | .taskCancel => (result d.task data).map .task
  | .pushConfigSet | .pushConfigGet => (result d.pushConfig data).map .pushNotificationConfig
  | .pushConfigList => (result d.pushConfigs data).map .pushNotificationConfigs
  | .pushConfigDelete => .ok .none
  | .agentCardGet =>
    match field data "result" with
    | some r => (d.agentCard r).map .agentCard
    | none => (d.agentCard data).map .agentCard
  | .messageStream | .taskResubscribe =>
    .ok (.error (-32601) "Method not found in response data")

def onNonStreamResp (data : Json) : TransportEvent :=
  if d.idMatches requestId data then
    match field data "error" with
    | some err => .error (d.error err).1 (d.error err).2
    | none =>
      match d.parseResult method data with
      | .ok event => event
      | .error e => .error (-32106) e
  else mismatch

/-- `handle_json_body`; nothing is done for a stream request with an empty body. -/
def handleJsonBody : Body → Option Step
  | .empty =>
    if method.isStream then none else some (.finish (.error (-1) "Empty non-streaming response"))
  | .invalid e => some (.finish (.error (-32700) e))
  | .json data =>
    if method.isStream then some (d.onStreamResp requestId data)
    else some (.finish (d.onNonStreamResp method requestId data))

def deliverSseEvent : Body → Step
  | .empty => .finish .streamEnd
  | .invalid e => .finish (.error (-32700) e)
  | .json data => d.onStreamResp requestId data

end Decoder

/-! ### Responses -/

def containsText (s part : String) : Bool := s.toList.tails.any part.toList.isPrefixOf

/-- The result of `send().await`. -/
inductive Sent where
  | error (timeout : Bool) (e : String)
  | response (status : Nat) (contentType : Option String)

/-- How the body of a response is read. -/
inductive Reading where
  | text
  | stream

def httpFailure (timeout : Bool) (e : String) : TransportEvent :=
  .error (if timeout then -32101 else -32102) ("HTTP request failed: " ++ e)

/-- `run_request` up to the body of the response. -/
def Sent.body : Sent → Except TransportEvent Reading
  | error timeout e => .error (httpFailure timeout e)
  | response status contentType =>
    if status = 404 then .error (.error 404 "Session not found or expired")
    else if status ≠ 200 then .error (.error status "Http status not ok")
    else
      match contentType with
      | none => .error (.error (-1) "Content-Type not found in header")
      | some type =>
        if containsText type "application/json" then .ok .text
        else if containsText type "text/event-stream" then .ok .stream
        else
          .error (.error (-1) "application/json or text/event-stream not found in header")

/-! ### Events that end a request -/

section Finish

variable {d : Decoder} {method : Method} {requestId : String} {body : Body} {event : TransportEvent}

theorem Sent.body_error {s : Sent} (failed : s.body = .error event) : event.isError = true := by
  cases s with
  | error timeout e =>
    cases failed
    rfl
  | response status contentType =>
    simp only [Sent.body] at failed
    repeat' split at failed
    all_goals first
      | (cases failed
         rfl)
      | cases failed

theorem Decoder.onStreamResp_finish {data : Json} (ends : d.onStreamResp requestId data = .finish event) :
    (event.isError || event.isFinalStatus) = true := by
  simp only [Decoder.onStreamResp] at ends
  repeat' split at ends
  all_goals first
    | (cases ends
       done)
    | (rename_i final
       cases ends
       rw [final, Bool.or_true])
    | (cases ends
       rfl)

theorem Decoder.deliverSseEvent_finish (ends : d.deliverSseEvent requestId body = .finish event) :
    (event.isError || event.isFinalStatus) = true := by
  cases body with
  | empty =>
    cases ends
    rfl
  | invalid e =>
    cases ends
    rfl
  | json data => exact onStreamResp_finish ends

theorem Decoder.handleJsonBody_finish
    (ends : d.handleJsonBody method requestId body = some (.finish event)) :
    (event.isError || !method.isStream || event.isFinalStatus) = true := by
  cases body with
  | empty =>
    simp only [Decoder.handleJsonBody] at ends
    split at ends
    · cases ends
    · cases ends
      rfl
  | invalid e =>
    cases ends
    rfl
  | json data =>
    simp only [Decoder.handleJsonBody] at ends
    split at ends
    · have isOver := onStreamResp_finish (Option.some.inj ends)
      rcases Bool.or_eq_true_iff.mp isOver with error | final
      · rw [error, Bool.true_or, Bool.true_or]
      · rw [final, Bool.or_true]
    · rename_i single
      rw [(Bool.not_eq_true _).mp single, Bool.not_false, Bool.or_true, Bool.true_or]

end Finish

/-! ### The client -/

/-- What a successful event does to a call. -/
structure Handled where
  /-- The handler of the caller and the consumers are called. -/
  called : Bool := false
  /-- What the completion is given. -/
  reply : Option Reply := none
  /-- The call is over: it leaves `callback_info`. -/
  ended : Bool := false

/-- The stream branch of `handler_success_resp`, with the task manager after it. -/
def handleStreamEvent (mgr : ClientTaskManager) :
    TransportEvent → ClientTaskManager × Except String Handled
  | .message _ => (mgr, .ok { called := true })
  | .task t =>
    match mgr.saveTaskEvent (.task t) with
    | .error e => (mgr, .error e)
    | .ok mgr' => (mgr', .ok { called := true })
  | .statusUpdate u =>
    match mgr.saveTaskEvent (.statusUpdate u) with
    | .error e => (mgr, .error e)
    | .ok mgr' =>
      let isOver := isFinalOrInterrupted u.status.state
      (mgr', .ok { called := true, reply := if isOver then some (.ok .unit) else none, ended := isOver })
  | .artifactUpdate a =>
    match mgr.saveTaskEvent (.artifactUpdate a) with
    | .error e => (mgr, .error e)
    | .ok mgr' => (mgr', .ok { called := true })
  | _ => (mgr, .error "unexpected transport event for stream")

/-- The other branches of `handler_success_resp`. -/
def handleResult : Method → TransportEvent → Except String Handled
  | .messageSend, .message _ => .ok { called := true, reply := some (.ok .unit) }
  | .messageSend, .task _ => .ok { called := true, reply := some (.ok .unit) }
  | .messageSend, _ => .error "unexpected transport event for SendMessage"
  | .taskGet, .task t => .ok { reply := some (.ok (.task t)) }
  | .taskGet, _ => .error "expected Task result"
  | .taskCancel, .task t => .ok { reply := some (.ok (.task t)) }
  | .taskCancel, _ => .error "expected Task result"
  | .pushConfigSet, .pushNotificationConfig c => .ok { reply := some (.ok (.pushConfig c)) }
  | .pushConfigSet, _ => .error "expected TaskPushNotificationConfig result"
  | .pushConfigGet, .pushNotificationConfig c => .ok { reply := some (.ok (.pushConfig c)) }
  | .pushConfigGet, _ => .error "expected TaskPushNotificationConfig result"
  | .pushConfigList, .pushNotificationConfigs cs => .ok { reply := some (.ok (.pushConfigs cs)) }
  | .pushConfigList, _ => .error "expected list result"
  | .pushConfigDelete, _ => .ok { reply := some (.ok .unit) }
  | .agentCardGet, .agentCard c => .ok { reply := some (.ok (.card c)) }
  | .agentCardGet, _ => .error "expected AgentCard result"
  | .messageStream, _ => .ok {}
  | .taskResubscribe, _ => .ok {}

def handlerSuccessResp (method : Method) (mgr : Option ClientTaskManager) (event : TransportEvent) :
    Option ClientTaskManager × Except String Handled :=
  if method.isStream then
    let handled := handleStreamEvent (mgr.getD .new) event
    (some handled.1, handled.2)
  else (mgr, handleResult method event)

/-- What the completion is given at the end of a stream. -/
def Method.streamEndReply : Method → Reply
  | messageSend | messageStream | taskResubscribe | pushConfigDelete => .ok .unit
  | _ => .error ⟨0, ""⟩

/-- `abandoned`: the completion is dropped. -/
def abandoned : Reply := .error ⟨-32108, "Request abandoned"⟩

section Handled

variable {method : Method} {mgr : Option ClientTaskManager} {event : TransportEvent}
  {handled : Handled}

theorem reply_of_handlerSuccessResp (single : method.isStream = false)
    (success : (handlerSuccessResp method mgr event).2 = .ok handled) : handled.reply.isSome = true := by
  simp only [handlerSuccessResp, single, Bool.false_eq_true, if_false] at success
  unfold handleResult at success
  split at success
  all_goals first
    | (cases success
       rfl)
    | (cases success
       done)
    | cases single

theorem ended_of_handlerSuccessResp (stream : method.isStream = true)
    (final : event.isFinalStatus = true)
    (success : (handlerSuccessResp method mgr event).2 = .ok handled) :
    handled.ended = true ∧ handled.reply.isSome = true := by
  cases event with
  | statusUpdate u =>
    have isOver : isFinalOrInterrupted u.status.state = true := final
    simp only [handlerSuccessResp, stream, if_true, handleStreamEvent] at success
    split at success
    · cases success
    · cases success
      simp only [isOver]
      exact ⟨trivial, rfl⟩
  | _ => cases final

theorem reply_of_ended (success : (handlerSuccessResp method mgr event).2 = .ok handled)
    (ended : handled.ended = true) : handled.reply.isSome = true := by
  cases stream : method.isStream with
  | false => exact reply_of_handlerSuccessResp stream success
  | true =>
    have final : event.isFinalStatus = true := by
      simp only [handlerSuccessResp] at success
      unfold handleStreamEvent at success
      repeat' split at success
      all_goals first
        | (cases success
           done)
        | (cases success
           exact ended)
    exact (ended_of_handlerSuccessResp stream final success).2

end Handled

end AgentProtocols.A2A
