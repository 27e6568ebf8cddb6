import AgentProtocols.Lib.Codecs
import AgentProtocols.A2A.Types

/-!
Reading the A2A data types and the request parameters from the wire. The helpers of `Wire` read one
member of an object; their errors name the type and the member.
-/

namespace AgentProtocols.A2A

open Lib

/-! ### Members -/

namespace Wire

def asObject (typeName : String) : Json → Except String JsonDict
  | .obj fields => .ok fields
  | _ => .error (typeName ++ " must be a JSON object")

/-- `as_str`, with the error for another value. -/
def asString (message : String) : Json → Except String String
  | .str s => .ok s
  | _ => .error message

def getString (obj : JsonDict) (key typeName : String) : Except String String :=
  match obj.get key with
  | some v => asString (typeName ++ "." ++ key ++ " must be a string") v
  | none => .error (typeName ++ " must contain '" ++ key ++ "' field")

def optString (obj : JsonDict) (key typeName : String) : Except String (Option String) :=
  (obj.get key).mapM (asString (typeName ++ "." ++ key ++ " must be a string"))

def optStringNullable (obj : JsonDict) (key typeName : String) : Except String (Option String) :=
  ((obj.get key).filter (· ≠ .null)).mapM (asString (typeName ++ "." ++ key ++ " must be a string"))

def asBool (message : String) : Json → Except String Bool
  | .bool b => .ok b
  | _ => .error message

def optBool (obj : JsonDict) (key typeName : String) : Except String (Option Bool) :=
  (obj.get key).mapM (asBool (typeName ++ "." ++ key ++ " must be a boolean"))

/-- `as_i64`, and the cast to `i32`. -/
def asI32 (message : String) : Json → Except String Int32
  | .num n =>
    match n.asI64 with
    | some i => .ok (Int32.ofInt i)
    | none => .error message
  | _ => .error message

def optI32 (obj : JsonDict) (key typeName : String) : Except String (Option Int32) :=
  (obj.get key).mapM (asI32 (typeName ++ "." ++ key ++ " must be an integer"))

def vecOf {α : Type} (read : Json → Except String α) (what : String) : Json → Except String (List α)
  | .arr items => items.mapM read
  | _ => .error (what ++ " must be an array")

def stringVec (what : String) : Json → Except String (List String) :=
  vecOf (asString (what ++ " must contain only strings")) what

def optStringVec (obj : JsonDict) (key typeName : String) : Except String (Option (List String)) :=
  (obj.get key).mapM (stringVec (typeName ++ "." ++ key))

def optMetadata (obj : JsonDict) : Option Json := (obj.get "metadata").filter (· ≠ .null)

/-- The value of a member that is known to be there. -/
def index (obj : JsonDict) (key : String) : Json := (obj.get key).getD .null

/-- An early return of an error. -/
def refuseIf (failed : Bool) (message : String) : Except String Unit :=
  if failed then .error message else .ok ()

end Wire

open Wire (asObject asString getString refuseIf vecOf)

/-! ### Messages, artifacts and tasks -/

/-- The loop over the members of a part: the first content that is not null. -/
def Part.readContent : JsonDict → Except String Part
  | [] => .error "Part must contain one of: text, raw, url, data"
  | (key, v) :: rest =>
    if v = .null then readContent rest
    else if key = "text" then return { text := some (← asString "Part.text must be a string" v) }
    else if key = "raw" then return { raw := some (← asString "Part.raw must be a string" v) }
    else if key = "url" then return { url := some (← asString "Part.url must be a string" v) }
    else if key = "data" then
      match v with
      | .arr _ => .error "data field must be a string, bool, integer double or JSON object"
      | _ => .ok { data := some v }
    else readContent rest

open Wire

def Part.fromJsonValue (value : Json) : Except String Part := do
  let obj ← asObject "Part" value
  let part ← readContent obj
  let filename ← optStringNullable obj "filename" "Part"
  let mediaType ← optStringNullable obj "mediaType" "Part"
  return { part with metadata := Wire.optMetadata obj, filename, mediaType }

def Artifact.fromJsonValue (value : Json) : Except String Artifact := do
  let obj ← asObject "Artifact" value
  refuseIf (!obj.containsKey "artifactId" || !obj.containsKey "parts")
    "Artifact missing required fields"
  let artifactId ← getString obj "artifactId" "Artifact"
  refuseIf (artifactId == "") "Artifact.artifactId cannot be empty"
  let description ← optString obj "description" "Artifact"
  let extensions ← optStringVec obj "extensions" "Artifact"
  let name ← optString obj "name" "Artifact"
  let parts ← vecOf Part.fromJsonValue "Artifact.parts" (index obj "parts")
  return { artifactId, description, extensions, metadata := Wire.optMetadata obj, name, parts }

def Role.fromWire (s : String) : Except String Role :=
  if s = "ROLE_AGENT" then .ok .agent
  else if s = "ROLE_USER" then .ok .user
  else if s = "ROLE_UNSPECIFIED" then .ok .unspecified
  else .error ("Invalid Role value: " ++ s)

/-- The role of a message is `user` unless it is given. -/
def Message.readRole (obj : JsonDict) : Except String Role :=
  match obj.get "role" with
  | some v => do Role.fromWire (← asString "Message.role must be a string" v)
  | none => .ok .user

def Message.fromJsonValue (value : Json) : Except String Message := do
  let obj ← asObject "Message" value
  refuseIf (!obj.containsKey "messageId" || !obj.containsKey "parts")
    "Message missing required fields"
  let messageId ← getString obj "messageId" "Message"
  refuseIf (messageId == "") "Message.messageId cannot be empty"
  let role ← readRole obj
  let contextId ← optString obj "contextId" "Message"
  let extensions ← optStringVec obj "extensions" "Message"
  let parts ← vecOf Part.fromJsonValue "Message.parts" (index obj "parts")
  let referenceTaskIds ← optStringVec obj "referenceTaskIds" "Message"
  let taskId ← optString obj "taskId" "Message"
  return { contextId, extensions, messageId, metadata := Wire.optMetadata obj, parts,
           referenceTaskIds, role, taskId }

def TaskState.fromWire (s : String) : TaskState :=
  if s = "TASK_STATE_SUBMITTED" then .submitted
  else if s = "TASK_STATE_WORKING" then .working
  else if s = "TASK_STATE_INPUT_REQUIRED" then .inputRequired
  else if s = "TASK_STATE_COMPLETED" then .completed
  else if s = "TASK_STATE_CANCELED" then .canceled
  else if s = "TASK_STATE_FAILED" then .failed
  else if s = "TASK_STATE_REJECTED" then .rejected
  else if s = "TASK_STATE_AUTH_REQUIRED" then .authRequired
  else .unspecified

/-- Anything but a string is an unspecified state. -/
def TaskStatus.readState (obj : JsonDict) : TaskState :=
  match obj.get "state" with
  | some (.str s) => .fromWire s
  | _ => .unspecified

def TaskStatus.fromJsonValue (value : Json) : Except String TaskStatus := do
  let obj ← asObject "TaskStatus" value
  let message ← (obj.get "message").mapM Message.fromJsonValue
  let timestamp ← optString obj "timestamp" "TaskStatus"
  return { message, state := readState obj, timestamp }

def Task.fromJsonValue (value : Json) : Except String Task := do
  let obj ← asObject "Task" value
  refuseIf (!obj.containsKey "contextId" || !obj.containsKey "id" || !obj.containsKey "status")
    "Task missing required fields"
  let id ← getString obj "id" "Task"
  refuseIf (id == "") "Task.id cannot be empty"
  let artifacts ← (obj.get "artifacts").mapM (vecOf Artifact.fromJsonValue "Task.artifacts")
  let history ← (obj.get "history").mapM (vecOf Message.fromJsonValue "Task.history")
  let contextId ← getString obj "contextId" "Task"
  let status ← TaskStatus.fromJsonValue (index obj "status")
  return { artifacts, contextId, history, id, metadata := Wire.optMetadata obj, status }

/-! ### Events -/

def TaskArtifactUpdateEvent.fromJsonValue (value : Json) : Except String TaskArtifactUpdateEvent := do
  let obj ← asObject "TaskArtifactUpdateEvent" value
  refuseIf (!obj.containsKey "artifact" || !obj.containsKey "contextId" || !obj.containsKey "taskId")
    "TaskArtifactUpdateEvent missing required fields"
  let taskId ← getString obj "taskId" "TaskArtifactUpdateEvent"
  refuseIf (taskId == "") "TaskArtifactUpdateEvent.taskId cannot be empty"
  let append ← Wire.optBool obj "append" "TaskArtifactUpdateEvent"
  let artifact ← Artifact.fromJsonValue (Wire.index obj "artifact")
  let contextId ← getString obj "contextId" "TaskArtifactUpdateEvent"
  let lastChunk ← Wire.optBool obj "lastChunk" "TaskArtifactUpdateEvent"
  return { append, artifact, contextId, lastChunk, metadata := Wire.optMetadata obj, taskId }

def TaskStatusUpdateEvent.fromJsonValue (value : Json) : Except String TaskStatusUpdateEvent := do
  let obj ← asObject "TaskStatusUpdateEvent" value
  refuseIf (!obj.containsKey "contextId" || !obj.containsKey "status" || !obj.containsKey "taskId")
    "TaskStatusUpdateEvent missing required fields"
  let taskId ← getString obj "taskId" "TaskStatusUpdateEvent"
  refuseIf (taskId == "") "TaskStatusUpdateEvent.taskId cannot be empty"
  let contextId ← getString obj "contextId" "TaskStatusUpdateEvent"
  let status ← TaskStatus.fromJsonValue (index obj "status")
  return { contextId, metadata := Wire.optMetadata obj, status, taskId }

/-- The first of the four keys that is there says what the event is. -/
def StreamEvent.fromJsonValue (value : Json) : Except String StreamEvent := do
  let obj ← asObject "SendStreamingMessage result" value
  match obj.get "task", obj.get "message", obj.get "statusUpdate", obj.get "artifactUpdate" with
  | some v, _, _, _ => return .task (← Task.fromJsonValue v)
  | none, some v, _, _ => return .message (← Message.fromJsonValue v)
  | none, none, some v, _ => return .statusUpdate (← TaskStatusUpdateEvent.fromJsonValue v)
  | none, none, none, some v => return .artifactUpdate (← TaskArtifactUpdateEvent.fromJsonValue v)
  | none, none, none, none => throw "result deserialize field"

def SendMessageResult.fromJsonValue (value : Json) : Except String SendMessageResult := do
  let obj ← asObject "SendMessage result" value
  match obj.get "message", obj.get "task" with
  | some _, some _ => throw "Response must contain either 'message' or 'task', not both"
  | some v, none => return .message (← Message.fromJsonValue v)
  | none, some v => return .task (← Task.fromJsonValue v)
  | none, none => throw "Response must contain either 'message' or 'task' field"

/-! ### Request parameters -/

def PushNotificationAuthenticationInfo.toJsonValue (a : PushNotificationAuthenticationInfo) : Json :=
  .obj ([("schemes", stringVecJson a.schemes)] ++ optStr "credentials" a.credentials)

def PushNotificationAuthenticationInfo.fromJsonValue (value : Json) :
    Except String PushNotificationAuthenticationInfo := do
  let obj ← asObject "PushNotificationAuthenticationInfo" value
  refuseIf (!obj.containsKey "schemes")
    "PushNotificationAuthenticationInfo must contain 'schemes' field"
  let schemes ← stringVec "PushNotificationAuthenticationInfo.schemes" (index obj "schemes")
  let credentials ← optString obj "credentials" "PushNotificationAuthenticationInfo"
  return { credentials, schemes }

def PushNotificationConfig.toJsonValue (c : PushNotificationConfig) : Except String Json :=
  if c.url = "" then .error "PushNotificationConfig.url cannot be empty"
  else .ok (.obj ([("url", .str c.url)] ++
    (c.authentication.map fun a => ("authentication", a.toJsonValue)).toList ++
    optStr "configId" c.configId ++ optStr "id" c.id ++ optStr "token" c.token))

/-- `configId` overrides `id` when both are present. -/
def PushNotificationConfig.fromJsonValue (value : Json) : Except String PushNotificationConfig := do
  let obj ← asObject "PushNotificationConfig" value
  refuseIf (!obj.containsKey "url") "PushNotificationConfig must contain 'url' field"
  let url ← getString obj "url" "PushNotificationConfig"
  refuseIf (url == "") "PushNotificationConfig.url cannot be empty"
  let authentication ←
    (obj.get "authentication").mapM PushNotificationAuthenticationInfo.fromJsonValue
  let id ← optString obj "id" "PushNotificationConfig"
  let configId ← optString obj "configId" "PushNotificationConfig"
  let token ← optString obj "token" "PushNotificationConfig"
  return { authentication, id := configId.or id, token, url }

/-- `Value::from` of an `i32`. -/
def i32Json (i : Int32) : Json := .num (.ofI64 i.toInt)

def MessageSendConfiguration.toJsonValue (c : MessageSendConfiguration) : Except String Json := do
  let push ← c.pushNotificationConfig.mapM PushNotificationConfig.toJsonValue
  return .obj ((c.acceptedOutputModes.map fun m => ("acceptedOutputModes", stringVecJson m)).toList ++
    (c.historyLength.map fun h => ("historyLength", i32Json h)).toList ++
    (push.map fun p => ("pushNotificationConfig", p)).toList ++
    optBool "returnImmediately" c.returnImmediately)

def MessageSendConfiguration.fromJsonValue (value : Json) :
    Except String MessageSendConfiguration := do
  let obj ← asObject "MessageSendConfiguration" value
  let acceptedOutputModes ← ((obj.get "acceptedOutputModes").filter (· ≠ .null)).mapM
    (stringVec "acceptedOutputModes")
  let pushNotificationConfig ←
    (obj.get "pushNotificationConfig").mapM PushNotificationConfig.fromJsonValue
  let historyLength ← optI32 obj "historyLength" "MessageSendConfiguration"
  let returnImmediately ← Wire.optBool obj "returnImmediately" "MessageSendConfiguration"
  return { acceptedOutputModes, historyLength, pushNotificationConfig, returnImmediately }

def MessageSendParams.toJsonValue (p : MessageSendParams) : Except String Json := do
  let message ← p.message.toJsonValue
  let configuration ← p.configuration.mapM MessageSendConfiguration.toJsonValue
  return .obj ([("message", message)] ++
    (configuration.map fun c => ("configuration", c)).toList ++ optMetadata p.metadata)

def MessageSendParams.fromJsonValue (value : Json) : Except String MessageSendParams := do
  let obj ← asObject "MessageSendParams" value
  refuseIf (!obj.containsKey "message") "MessageSendParams must contain 'message' field"
  let configuration ← (obj.get "configuration").mapM MessageSendConfiguration.fromJsonValue
  let message ← Message.fromJsonValue (index obj "message")
  return { configuration, message, metadata := Wire.optMetadata obj }

end AgentProtocols.A2A
