import AgentProtocols.A2A.Types
import AgentProtocols.MCP.ServerSession

/-!
The task manager of the A2A server, its task store and its emitters. Registrations are numbers into
`infos`, and `emitters` holds what was written for each request. The functions are the atomic
sections of the source and the calls that are made of them.
-/

namespace AgentProtocols.A2A

open Lib
open AgentProtocols.MCP (RequestId RpcError Response)

structure A2aServerError where
  code : Int
  message : String

def A2aServerError.new (message : String) : A2aServerError := ⟨-32603, message⟩

/-! ### Changes of a task -/

namespace Task

def pushHistory (t : Task) (m : Message) : Task := { t with history := some (t.history.getD [] ++ [m]) }

/-- Move the status message into the history. -/
def takeStatusMessage (t : Task) : Task :=
  match t.status.message with
  | none => t
  | some m => { t.pushHistory m with status := { t.status with message := none } }

/-- The task that `update_with_message` saves. -/
def withMessage (t : Task) (m : Message) : Task := t.takeStatusMessage.pushHistory m

/-- The task that the callback of `message/send` saves for a response message. -/
def completed (t : Task) : Task := { t with status := { t.status with state := .completed } }

/-- The task that `cancel_task` saves. -/
def canceled (t : Task) : Task := { t with status := { t.status with state := .canceled } }

end Task

/-- The task of `create_new_task`. -/
def newTask (id contextId : String) (message : Message) : Task :=
  { id, contextId, status := .new .submitted, history := some [message] }

/-- How a status update changes the metadata of a task. -/
def mergeMetadata : Option Json → Option Json → Option Json
  | none, incoming => incoming
  | some (.obj existing), some (.obj incoming) =>
    some (.obj (incoming.foldl (fun d kv => JsonDict.insert d kv.1 kv.2) existing))
  | some _, some incoming => some incoming
  | some existing, none => some existing

/-- The status branch of `save_task_event`. -/
def Task.applyStatus (t : Task) (e : TaskStatusUpdateEvent) : Task :=
  { t.takeStatusMessage with metadata := mergeMetadata t.metadata e.metadata, status := e.status }

/-- Change the first artifact with the id; undefined where there is none. -/
def modifyArtifact (id : String) (f : Artifact → Artifact) : List Artifact → Option (List Artifact)
  | [] => none
  | a :: rest =>
    if a.artifactId = id then some (f a :: rest)
    else (modifyArtifact id f rest).map (a :: ·)

def Artifact.extend (slot new : Artifact) : Artifact := { slot with parts := slot.parts ++ new.parts }

/-- `append_artifact_to_task` of the server: a chunk for an unknown artifact is
ignored. -/
def appendArtifactToTask (t : Task) (e : TaskArtifactUpdateEvent) : Task :=
  let list := t.artifacts.getD []
  if e.append.getD false then
    { t with
      artifacts := some ((modifyArtifact e.artifact.artifactId (·.extend e.artifact) list).getD list) }
  else
    { t with
      artifacts := some ((modifyArtifact e.artifact.artifactId (fun _ => e.artifact) list).getD
        (list ++ [e.artifact])) }

/-! ### Emitters -/

/-- `success_response` of a wire value. -/
def successResponse (id : Option RequestId) (result : Except String Json) : Except String Response :=
  result.map fun value => ⟨id, some value, none⟩

inductive EmitterKind where
  /-- The SSE channel is open. -/
  | streaming (isOpen : Bool)
  /-- `response_sent`. -/
  | nonStreaming (responseSent : Bool)

structure Emitter where
  id : Option RequestId
  kind : EmitterKind
  written : List Response

namespace Emitter

def writeStreamingData (e : Emitter) (data : Response) : Emitter :=
  match e.kind with
  | .streaming true => { e with written := e.written ++ [data] }
  | _ => e

/-- `write_non_streaming_data`: later calls are ignored. -/
def writeNonStreamingData (e : Emitter) (data : Response) : Emitter :=
  match e.kind with
  | .nonStreaming false => { e with kind := .nonStreaming true, written := e.written ++ [data] }
  | _ => e

def writeDone (e : Emitter) : Emitter :=
  match e.kind with
  | .streaming _ => { e with kind := .streaming false }
  | .nonStreaming _ => e

/-- The closure of `create_stream_emitter`. -/
def emitStream (e : Emitter) (event : StreamEvent) : Emitter :=
  let e' :=
    match successResponse e.id event.toJsonValue with
    | .ok resp => e.writeStreamingData resp
    | .error _ => e
  if isFinalEvent event then e'.writeDone else e'

/-- The closure of `create_non_stream_emitter`. -/
def emitResult (e : Emitter) (result : SendMessageResult) : Emitter :=
  match successResponse e.id result.toJsonValue with
  | .ok resp => e.writeNonStreamingData resp
  | .error _ => e

end Emitter

/-! ### The manager -/

/-- A callback of a task: of `execute_agent_and_get_result` or of the streaming set-up. -/
inductive EventCb where
  | send (taskId : String) (blocking : Bool) (emitter : Nat)
  | stream (emitter : Nat)
deriving DecidableEq

structure TaskExecuteInfo where
  messageSent : Bool
  eventCb : List EventCb

def TaskExecuteInfo.new : TaskExecuteInfo := ⟨false, []⟩

structure TaskManager where
  taskStore : OrderedMap String Task
  taskExecuteMap : OrderedMap String Nat
  infos : List TaskExecuteInfo
  emitters : List Emitter

namespace TaskManager

variable (m : TaskManager)

def info (taskId : String) : Option Nat := m.taskExecuteMap.get? taskId

def getTask (taskId : String) : Option Task := m.taskStore.get? taskId

def saveTask (t : Task) : TaskManager := { m with taskStore := m.taskStore.insert t.id t }

/-- The insertion of `register_task`, with a new `TaskExecuteInfo`. -/
def insertInfo (taskId : String) : TaskManager :=
  { m with
    taskExecuteMap := m.taskExecuteMap.insert taskId m.infos.length
    infos := m.infos ++ [.new] }

def registerTask (taskId : String) : Except A2aServerError TaskManager :=
  if taskId = "" then .error (.new "Task ID must be a non-empty string")
  else .ok (m.insertInfo taskId)

/-- The end of `process` and of `cancel_task`. -/
def deregister (taskId : String) : TaskManager :=
  { m with taskExecuteMap := m.taskExecuteMap.erase taskId }

def callbacks (i : Nat) : List EventCb := (m.infos[i]?.map TaskExecuteInfo.eventCb).getD []

def addEventCallback (taskId : String) (cb : EventCb) : TaskManager :=
  match m.info taskId with
  | none => m
  | some i => { m with infos := m.infos.modify i fun info => { info with eventCb := info.eventCb ++ [cb] } }

/-- The previous value that `exchange_message_sent` returns. -/
def messageSent (taskId : String) : Bool :=
  match m.info taskId with
  | none => false
  | some i => (m.infos[i]?.map TaskExecuteInfo.messageSent).getD false

def exchangeMessageSent (taskId : String) (value : Bool) : TaskManager :=
  match m.info taskId with
  | none => m
  | some i => { m with infos := m.infos.modify i fun info => { info with messageSent := value } }

/-- Change the emitter of a request. -/
def emit (emitter : Nat) (f : Emitter → Emitter) : TaskManager :=
  { m with emitters := m.emitters.modify emitter f }

/-- `ensure_task_for_event`, where the task of the event is not stored. -/
def ensureTask (taskId contextId : String) : TaskManager × Task :=
  let t : Task := { id := taskId, contextId, status := .new .submitted }
  ((m.registerTask taskId).toOption.getD m |>.saveTask t, t)

/-- `save_task_event`. The check of the context only logs. -/
def saveTaskEvent : StreamEvent → TaskManager
  | .task t => m.saveTask t
  | .message _ => m
  | .statusUpdate e =>
    match m.getTask e.taskId with
    | some t => m.saveTask (t.applyStatus e)
    | none =>
      let (m', t) := m.ensureTask e.taskId e.contextId
      m'.saveTask (t.applyStatus e)
  | .artifactUpdate e =>
    match m.getTask e.taskId with
    | some t => m.saveTask (appendArtifactToTask t e)
    | none =>
      let (m', t) := m.ensureTask e.taskId e.contextId
      m'.saveTask (appendArtifactToTask t e)

/-- Exchange the flag of the registration, and emit if it was not set. -/
def answerOnce (taskId : String) (emitter : Nat) (result : SendMessageResult) : TaskManager :=
  if m.messageSent taskId then m
  else (m.exchangeMessageSent taskId true).emit emitter (·.emitResult result)

/-- The callback of `message/send` once it has the task. -/
def answerWith (taskId : String) (blocking : Bool) (emitter : Nat) (t : Task) (event : StreamEvent) :
    TaskManager :=
  match event with
  | .message msg => (m.saveTask t.completed).answerOnce taskId emitter (.message msg)
  | _ =>
    if isFinalEvent event || !blocking then m.answerOnce taskId emitter (.task t) else m

def call (event : StreamEvent) : EventCb → TaskManager
  | .send taskId blocking emitter =>
    match m.getTask taskId with
    | none => m
    | some t => m.answerWith taskId blocking emitter t event
  | .stream emitter => m.emit emitter (·.emitStream event)

def process (taskId : String) (event : StreamEvent) : TaskManager :=
  match m.info taskId with
  | none => m
  | some i =>
    let saved := m.saveTaskEvent event
    let called := (saved.callbacks i).foldl (fun m cb => m.call event cb) saved
    if isFinalEvent event then called.deregister taskId else called

/-! ### What a section leaves alone -/

section Frame

variable {m : TaskManager} {taskId : String}

theorem getTask_saveTask (t : Task) : (m.saveTask t).getTask t.id = some t := by
  rw [getTask, saveTask, OrderedMap.get?_insert, if_pos rfl]

theorem exchangeMessageSent_taskStore {value : Bool} :
    (m.exchangeMessageSent taskId value).taskStore = m.taskStore := by
  rw [exchangeMessageSent]
  split <;> rfl

@[simp] theorem exchangeMessageSent_taskExecuteMap {value : Bool} :
    (m.exchangeMessageSent taskId value).taskExecuteMap = m.taskExecuteMap := by
  rw [exchangeMessageSent]
  split <;> rfl

@[simp] theorem addEventCallback_emitters (cb : EventCb) :
    (m.addEventCallback taskId cb).emitters = m.emitters := by
  rw [addEventCallback]
  split <;> rfl

@[simp] theorem exchangeMessageSent_infos_length {value : Bool} :
    (m.exchangeMessageSent taskId value).infos.length = m.infos.length := by
  rw [exchangeMessageSent]
  split
  · rfl
  · exact List.length_modify _ _ _

@[simp] theorem exchangeMessageSent_callbacks {value : Bool} {i : Nat} :
    (m.exchangeMessageSent taskId value).callbacks i = m.callbacks i := by
  rw [exchangeMessageSent]
  split
  · rfl
  · rename_i k _
    rw [callbacks, callbacks]
    by_cases same : k = i
    · subst same
      rw [List.getElem?_modify_eq]
      cases m.infos[k]? <;> rfl
    · rw [List.getElem?_modify_ne _ _ same]

/-! An answer changes the flag of the registration and the emitter. -/

variable {k : Nat} {result : SendMessageResult}

theorem answerOnce_taskStore : (m.answerOnce taskId k result).taskStore = m.taskStore := by
  rw [answerOnce]
  split
  · rfl
  · exact exchangeMessageSent_taskStore

theorem answerOnce_taskExecuteMap :
    (m.answerOnce taskId k result).taskExecuteMap = m.taskExecuteMap := by
  rw [answerOnce]
  split
  · rfl
  · exact exchangeMessageSent_taskExecuteMap

theorem answerOnce_infos_length :
    (m.answerOnce taskId k result).infos.length = m.infos.length := by
  rw [answerOnce]
  split
  · rfl
  · exact exchangeMessageSent_infos_length

theorem answerOnce_callbacks {i : Nat} :
    (m.answerOnce taskId k result).callbacks i = m.callbacks i := by
  rw [answerOnce]
  split
  · rfl
  · exact exchangeMessageSent_callbacks

end Frame

end TaskManager

end AgentProtocols.A2A
