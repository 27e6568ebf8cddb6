import AgentProtocols.Json.Value

/-!
The A2A data types and their wire format.

A task carries its status, its message history and its artifacts; a stream event
is a task snapshot, a message, a status update or an artifact update. Writing a
value to the wire fails where an identifier that the format requires is empty.
-/

namespace AgentProtocols.A2A

open Lib

inductive Role where
  | agent
  | user
  | unspecified
deriving DecidableEq

/-- A single content part within a message or artifact. -/
structure Part where
  text : Option String := none
  raw : Option String := none
  url : Option String := none
  data : Option Json := none
  metadata : Option Json := none
  filename : Option String := none
  mediaType : Option String := none
deriving DecidableEq

structure Artifact where
  artifactId : String
  description : Option String := none
  extensions : Option (List String) := none
  metadata : Option Json := none
  name : Option String := none
  parts : List Part
deriving DecidableEq

structure Message where
  contextId : Option String := none
  extensions : Option (List String) := none
  messageId : String
  metadata : Option Json := none
  parts : List Part := []
  referenceTaskIds : Option (List String) := none
  role : Role := .user
  taskId : Option String := none
deriving DecidableEq

inductive TaskState where
  | submitted
  | working
  | inputRequired
  | completed
  | canceled
  | failed
  | rejected
  | authRequired
  | unspecified
deriving DecidableEq

structure TaskStatus where
  message : Option Message := none
  state : TaskState
  timestamp : Option String := none
deriving DecidableEq

def TaskStatus.new (state : TaskState) : TaskStatus := { state }

structure Task where
  artifacts : Option (List Artifact) := none
  contextId : String
  history : Option (List Message) := none
  id : String
  metadata : Option Json := none
  status : TaskStatus
  creatAt : Option String := none
  lastModified : Option String := none
deriving DecidableEq

structure TaskArtifactUpdateEvent where
  append : Option Bool := none
  artifact : Artifact
  contextId : String
  lastChunk : Option Bool := none
  metadata : Option Json := none
  taskId : String
  index : Option Int := none
deriving DecidableEq

structure TaskStatusUpdateEvent where
  contextId : String
  metadata : Option Json := none
  status : TaskStatus
  taskId : String
deriving DecidableEq

/-- One event of a streaming response, also used by the task manager. -/
inductive StreamEvent where
  | task (t : Task)
  | message (m : Message)
  | artifactUpdate (e : TaskArtifactUpdateEvent)
  | statusUpdate (e : TaskStatusUpdateEvent)
deriving DecidableEq

/-- `SendMessageResult`, the result of a `message/send` response. -/
inductive SendMessageResult where
  | task (t : Task)
  | message (m : Message)
deriving DecidableEq

structure PushNotificationAuthenticationInfo where
  credentials : Option String := none
  schemes : List String := []
deriving DecidableEq

/-- Push-notification webhook configuration. -/
structure PushNotificationConfig where
  authentication : Option PushNotificationAuthenticationInfo := none
  configId : Option String := none
  id : Option String := none
  token : Option String := none
  url : String := ""
  createdAt : Option String := none
deriving DecidableEq

/-- Client configuration for `message/send` requests. -/
structure MessageSendConfiguration where
  acceptedOutputModes : Option (List String) := none
  historyLength : Option Int32 := none
  pushNotificationConfig : Option PushNotificationConfig := none
  returnImmediately : Option Bool := none
deriving DecidableEq

structure MessageSendParams where
  configuration : Option MessageSendConfiguration := none
  message : Message
  metadata : Option Json := none
deriving DecidableEq

/-! ### States -/

def isFinal : TaskState → Bool
  | .completed | .canceled | .failed | .rejected => true
  | _ => false

def isInterrupted : TaskState → Bool
  | .inputRequired | .authRequired => true
  | _ => false

def isFinalOrInterrupted (state : TaskState) : Bool := isFinal state || isInterrupted state

/-- `is_final_event`: whether an event ends a streaming exchange. -/
def isFinalEvent : StreamEvent → Bool
  | .task t => isFinalOrInterrupted t.status.state || t.status.state == .unspecified
  | .message _ => true
  | .statusUpdate e => isFinalOrInterrupted e.status.state
  | .artifactUpdate _ => false

/-! ### The wire -/

def stringVecJson (items : List String) : Json := .arr (items.map .str)

/-- `insert_opt_str`. -/
def optStr (key : String) (value : Option String) : JsonDict :=
  (value.map fun v => (key, Json.str v)).toList

/-- `insert_opt_bool`. -/
def optBool (key : String) (value : Option Bool) : JsonDict :=
  (value.map fun v => (key, Json.bool v)).toList

/-- `insert_opt_metadata`. -/
def optMetadata (value : Option Json) : JsonDict := (value.map fun v => ("metadata", v)).toList

def Role.asWire : Role → String
  | agent => "ROLE_AGENT"
  | user => "ROLE_USER"
  | unspecified => "ROLE_UNSPECIFIED"

def TaskState.asWire : TaskState → String
  | submitted => "TASK_STATE_SUBMITTED"
  | working => "TASK_STATE_WORKING"
  | inputRequired => "TASK_STATE_INPUT_REQUIRED"
  | completed => "TASK_STATE_COMPLETED"
  | canceled => "TASK_STATE_CANCELED"
  | failed => "TASK_STATE_FAILED"
  | rejected => "TASK_STATE_REJECTED"
  | authRequired => "TASK_STATE_AUTH_REQUIRED"
  | unspecified => "TASK_STATE_UNSPECIFIED"

/-- The first of `text`, `raw`, `url` and `data` that is set. -/
def Part.content (p : Part) : JsonDict :=
  match p.text, p.raw, p.url, p.data with
  | some t, _, _, _ => [("text", .str t)]
  | none, some r, _, _ => [("raw", .str r)]
  | none, none, some u, _ => [("url", .str u)]
  | none, none, none, some d => [("data", d)]
  | none, none, none, none => []

def Part.toJsonValue (p : Part) : Json :=
  .obj (p.content ++ optMetadata p.metadata ++ optStr "filename" p.filename ++
    optStr "mediaType" p.mediaType)

def Artifact.toJsonValue (a : Artifact) : Except String Json :=
  if a.artifactId = "" then .error "Artifact.artifactId cannot be empty"
  else .ok (.obj ([("artifactId", .str a.artifactId),
    ("parts", .arr (a.parts.map Part.toJsonValue))] ++ optStr "description" a.description ++
    (a.extensions.map fun e => ("extensions", stringVecJson e)).toList ++ optMetadata a.metadata ++
    optStr "name" a.name))

def Message.toJsonValue (m : Message) : Except String Json :=
  if m.messageId = "" then .error "Message.messageId cannot be empty"
  else .ok (.obj ([("messageId", .str m.messageId),
    ("parts", .arr (m.parts.map Part.toJsonValue)), ("role", .str m.role.asWire)] ++
    optStr "contextId" m.contextId ++
    (m.extensions.map fun e => ("extensions", stringVecJson e)).toList ++ optMetadata m.metadata ++
    (m.referenceTaskIds.map fun r => ("referenceTaskIds", stringVecJson r)).toList ++
    optStr "taskId" m.taskId))

def TaskStatus.toJsonValue (s : TaskStatus) : Except String Json := do
  let message ← s.message.mapM Message.toJsonValue
  return .obj ([("state", .str s.state.asWire)] ++
    (message.map fun m => ("message", m)).toList ++ optStr "timestamp" s.timestamp)

def Task.toJsonValue (t : Task) : Except String Json := do
  if t.id = "" then throw "Task.id cannot be empty"
  let status ← t.status.toJsonValue
  let artifacts ← t.artifacts.mapM fun a => a.mapM Artifact.toJsonValue
  let history ← t.history.mapM fun h => h.mapM Message.toJsonValue
  return .obj ([("contextId", .str t.contextId), ("id", .str t.id), ("status", status)] ++
    (artifacts.map fun a => ("artifacts", .arr a)).toList ++
    (history.map fun h => ("history", .arr h)).toList ++ optMetadata t.metadata)

def TaskArtifactUpdateEvent.toJsonValue (e : TaskArtifactUpdateEvent) : Except String Json := do
  let artifact ← e.artifact.toJsonValue
  return .obj ([("artifact", artifact), ("contextId", .str e.contextId),
    ("taskId", .str e.taskId)] ++ optBool "append" e.append ++ optBool "lastChunk" e.lastChunk ++
    optMetadata e.metadata)

def TaskStatusUpdateEvent.toJsonValue (e : TaskStatusUpdateEvent) : Except String Json := do
  let status ← e.status.toJsonValue
  return .obj ([("contextId", .str e.contextId), ("status", status), ("taskId", .str e.taskId)] ++
    optMetadata e.metadata)

def StreamEvent.toJsonValue : StreamEvent → Except String Json
  | statusUpdate e => return .obj [("statusUpdate", ← e.toJsonValue)]
  | artifactUpdate e => return .obj [("artifactUpdate", ← e.toJsonValue)]
  | task t => return .obj [("task", ← t.toJsonValue)]
  | message m => return .obj [("message", ← m.toJsonValue)]

def SendMessageResult.toJsonValue : SendMessageResult → Except String Json
  | task t => return .obj [("task", ← t.toJsonValue)]
  | message m => return .obj [("message", ← m.toJsonValue)]

/-- The event can be written to the wire. -/
def StreamEvent.Sendable (e : StreamEvent) : Prop := ∃ v, e.toJsonValue = .ok v

end AgentProtocols.A2A
