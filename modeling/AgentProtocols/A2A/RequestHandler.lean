import AgentProtocols.A2A.TaskManager

/-!
The request handler of the A2A server and the updater it gives to an executor: `onSendMessage` and
`onSendMessageStreaming` up to the point at which the executor runs, and `execute`. Identifiers
drawn at random are arguments.
-/

namespace AgentProtocols.A2A

open Lib OrderedMap
open AgentProtocols.MCP (RequestId RpcError Response)

/-! ### The updater -/

structure TaskArtifactParam where
  parts : List Part
  artifactId : Option String
  name : Option String
  metadata : Option Json
  append : Bool
  lastChunk : Bool
  extensions : List String

structure TaskUpdater where
  taskId : String
  contextId : String
  terminalStateReached : Bool

/-- `TaskUpdaterImpl::new`. -/
def TaskUpdater.new (taskId contextId : String) : TaskUpdater := ⟨taskId, contextId, false⟩

/-- A call of the updater. `generated` is the artifact id where the call gives none. -/
inductive UpdaterCall where
  | updateStatus (state : TaskState) (message : Option Message) (timestamp : Option String)
      (metadata : Option Json) (now : String)
  | addArtifact (param : TaskArtifactParam) (generated : String)
  | sendResponseMessage (message : Message)

namespace TaskUpdater

def event (u : TaskUpdater) : UpdaterCall → StreamEvent
  | .updateStatus state message timestamp metadata now =>
    .statusUpdate
      { contextId := u.contextId, metadata, taskId := u.taskId
        status := { message, state, timestamp := some (timestamp.getD now) } }
  | .addArtifact p generated =>
    .artifactUpdate
      { artifact :=
          { artifactId := p.artifactId.getD generated, parts := p.parts, name := p.name
            metadata := p.metadata, extensions := some p.extensions }
        contextId := u.contextId, taskId := u.taskId, append := some p.append
        lastChunk := some p.lastChunk, metadata := p.metadata }
  | .sendResponseMessage m => .message m

/-- The call is ignored: only `send_response_message` does not look at the flag. -/
def ignores (u : TaskUpdater) : UpdaterCall → Bool
  | .sendResponseMessage _ => false
  | _ => u.terminalStateReached

/-- The flag after a call that is not ignored. -/
def reached (u : TaskUpdater) : UpdaterCall → TaskUpdater
  | .updateStatus state _ _ _ _ =>
    if isFinal state then { u with terminalStateReached := true } else u
  | .addArtifact _ _ => u
  | .sendResponseMessage _ => { u with terminalStateReached := true }

end TaskUpdater

/-- A manager and the updater of one request. -/
structure Execution where
  manager : TaskManager
  updater : TaskUpdater

def Execution.publish (x : Execution) (c : UpdaterCall) : Execution :=
  if x.updater.ignores c then x
  else ⟨x.manager.process x.updater.taskId (x.updater.event c), x.updater.reached c⟩

/-- Calls of the updater, one after the other. -/
def Execution.execute (x : Execution) (calls : List UpdaterCall) : Execution :=
  calls.foldl Execution.publish x

/-! ### The handler -/

/-- The random identifiers of a request. -/
structure FreshIds where
  taskUuid : String
  contextUuid : String

/-- `make_error` of a server error. -/
def errorResponse (id : Option RequestId) (e : A2aServerError) : Response :=
  .failure id (.new e.code e.message)

/-- `message/send` blocks unless the configuration says otherwise. -/
def MessageSendParams.blocking (params : MessageSendParams) : Bool :=
  (params.configuration.map fun c => !c.returnImmediately.getD false).getD true

namespace TaskManager

variable (m : TaskManager) (executor : Bool) (params : MessageSendParams) (fresh : FreshIds)

def generateTaskId : String := "task-" ++ fresh.taskUuid

/-- The lookup of a task that a message names. -/
def existingTask (taskId : String) : Except A2aServerError (String × Option Task) :=
  match m.getTask taskId with
  | none => .error ⟨-32001, "Task id not found"⟩
  | some task =>
    match params.message.contextId with
    | none => .ok (taskId, some task)
    | some cid =>
      if cid ≠ "" ∧ task.contextId ≠ cid then
        .error ⟨-32600, "Existing task contextId does not match requested contextId"⟩
      else .ok (taskId, some task)

def determineTaskId : Except A2aServerError (String × Option Task) :=
  match params.message.taskId with
  | none => .ok (generateTaskId fresh, none)
  | some id => if id = "" then .ok (generateTaskId fresh, none) else m.existingTask params id

def createdTask : Task :=
  newTask (generateTaskId fresh) (params.message.contextId.getD fresh.contextUuid) params.message

/-- The common part of `on_send_message` and `initialize_streaming_task`, with the task before. -/
def beginTask : Except A2aServerError (TaskManager × String × Task) :=
  match m.determineTaskId params fresh with
  | .error e => .error e
  | .ok (taskId, some existing) =>
    if isFinal existing.status.state then .error ⟨-32004, "Cannot execute task in final state"⟩
    else
      (m.registerTask taskId).map fun m' =>
        (m'.saveTask (existing.withMessage params.message), taskId, existing)
  | .ok (taskId, none) =>
    let created := createdTask params fresh
    ((m.saveTask created).registerTask taskId).map fun m' => (m', taskId, created)

def getContextId (taskId : String) : String := ((m.getTask taskId).map Task.contextId).getD ""

/-- `executor` and the start of the execution, after the callback was added. -/
def startExecution (taskId : String) : Except A2aServerError Execution :=
  if executor then .ok ⟨m, .new taskId (m.getContextId taskId)⟩
  else .error (.new "Agent executor not available")

/-- `on_send_message` up to the executor. -/
def onSendMessage (emitter : Nat) : Except A2aServerError Execution :=
  match m.beginTask params fresh with
  | .error e => .error e
  | .ok (m', taskId, _) =>
    ((m'.exchangeMessageSent taskId false).addEventCallback taskId
      (.send taskId params.blocking emitter)).startExecution executor taskId

/-- `on_send_message_streaming` up to the executor. -/
def onSendMessageStreaming (emitter : Nat) : Except A2aServerError Execution :=
  match m.beginTask params fresh with
  | .error e => .error e
  | .ok (m', taskId, task) =>
    ((m'.emit emitter (·.emitStream (.task task))).addEventCallback taskId
      (.stream emitter)).startExecution executor taskId

/-! The server around the handler -/

/-- The transport makes an emitter for a request. -/
def withEmitter (e : Emitter) : TaskManager := { m with emitters := m.emitters ++ [e] }

/-- `message/stream`: the handler runs with the emitter of the request. -/
def handleStreaming (id : Option RequestId) : Except A2aServerError Execution :=
  (m.withEmitter ⟨id, .streaming true, []⟩).onSendMessageStreaming executor params fresh
    m.emitters.length

def handleSend (id : Option RequestId) : Except A2aServerError Execution :=
  (m.withEmitter ⟨id, .nonStreaming false, []⟩).onSendMessage executor params fresh
    m.emitters.length

/-- The end of `message/send`: an error of the executor is a response body. -/
def finishSend (id : Option RequestId) (emitter : Nat) : Except A2aServerError Unit → TaskManager
  | .ok () => m
  | .error e => m.emit emitter (·.writeNonStreamingData (errorResponse id e))

/-- The end of `message/stream`. -/
def finishStreaming (id : Option RequestId) (emitter : Nat) :
    Except A2aServerError Unit → TaskManager
  | .ok () => m
  | .error e => m.emit emitter fun em => (em.writeStreamingData (errorResponse id e)).writeDone

/-- The task that the handler has before it adds the message, or the new one. -/
def snapshot : Option Task :=
  match m.determineTaskId params fresh with
  | .error _ => none
  | .ok (_, some existing) => some existing
  | .ok (_, none) => some (createdTask params fresh)

end TaskManager

/-- A `message/send` request: calls of the updater, the result of the executor, and
calls after it. -/
def Execution.serveSend (x : Execution) (id : Option RequestId) (emitter : Nat)
    (before : List UpdaterCall) (result : Except A2aServerError Unit) (after : List UpdaterCall) :
    Execution :=
  let returned := x.execute before
  ({ returned with manager := returned.manager.finishSend id emitter result }).execute after

/-- A `message/stream` request. -/
def Execution.serveStreaming (x : Execution) (id : Option RequestId) (emitter : Nat)
    (before : List UpdaterCall) (result : Except A2aServerError Unit) (after : List UpdaterCall) :
    Execution :=
  let returned := x.execute before
  ({ returned with manager := returned.manager.finishStreaming id emitter result }).execute after

/-! ### One request alone -/

/-- An event of the task that an updater can publish. -/
def PublishedFor (taskId : String) : StreamEvent → Prop
  | .statusUpdate e => e.taskId = taskId
  | .artifactUpdate e => e.taskId = taskId
  | .message _ => True
  | .task _ => False

theorem TaskUpdater.reached_taskId (u : TaskUpdater) (c : UpdaterCall) :
    (u.reached c).taskId = u.taskId := by
  cases c with
  | updateStatus state message timestamp metadata now =>
    rw [TaskUpdater.reached]
    split <;> rfl
  | addArtifact param generated => rfl
  | sendResponseMessage message => rfl

theorem TaskUpdater.reached_of_open {u : TaskUpdater} {c : UpdaterCall}
    (open_ : isFinalEvent (u.event c) = false) : u.reached c = u := by
  cases c with
  | updateStatus state message timestamp metadata now =>
    have running : isFinal state = false := (Bool.or_eq_false_iff.mp open_).1
    rw [TaskUpdater.reached, running]
    rfl
  | addArtifact param generated => rfl
  | sendResponseMessage message => cases open_

theorem TaskUpdater.ignores_of_fresh {u : TaskUpdater} {c : UpdaterCall}
    (fresh : u.terminalStateReached = false) : u.ignores c = false := by
  cases c with
  | sendResponseMessage message => rfl
  | _ => exact fresh

theorem TaskUpdater.event_published (u : TaskUpdater) (c : UpdaterCall) :
    PublishedFor u.taskId (u.event c) := by
  cases c with
  | updateStatus state message timestamp metadata now => exact rfl
  | addArtifact param generated => exact rfl
  | sendResponseMessage message => trivial

namespace TaskManager

/-- The task is stored and registered with one callback and this value of
`message_sent`. -/
structure Serving (m : TaskManager) (taskId : String) (cb : EventCb) (sent : Bool) : Prop where
  registered : ∃ i, m.info taskId = some i ∧ m.infos[i]? = some ⟨sent, [cb]⟩
  stored : (m.getTask taskId).isSome

variable {m m' : TaskManager} {taskId : String} {cb : EventCb} {sent : Bool} {event : StreamEvent}

theorem getTask_saveTask_isSome {t : Task} (stored : (m.getTask taskId).isSome) :
    ((m.saveTask t).getTask taskId).isSome := by
  rw [getTask, saveTask, get?_insert]
  split
  · rfl
  · exact stored

theorem registerTask_map_eq_ok {α : Type} {f : TaskManager → α} {r : α}
    (done : (m.registerTask taskId).map f = .ok r) : taskId ≠ "" ∧ r = f (m.insertInfo taskId) := by
  rw [registerTask] at done
  split at done
  · cases done
  · rename_i nonempty
    cases done
    exact ⟨nonempty, rfl⟩

theorem insertInfo_registered (m : TaskManager) (taskId : String) :
    ∃ i, (m.insertInfo taskId).info taskId = some i ∧ (m.insertInfo taskId).infos[i]? = some .new := by
  refine ⟨m.infos.length, ?_, List.getElem?_concat_length⟩
  rw [info, insertInfo, get?_insert, if_pos rfl]

theorem determineTaskId_spec {params : MessageSendParams} {fresh : FreshIds} {found : Option Task}
    (determined : m.determineTaskId params fresh = .ok (taskId, found)) :
    match found with
    | some t => m.getTask taskId = some t
    | none => taskId = generateTaskId fresh := by
  rw [determineTaskId] at determined
  split at determined
  · cases determined
    rfl
  · split at determined
    · cases determined
      rfl
    · rw [existingTask] at determined
      split at determined
      · cases determined
      · rename_i task stored
        split at determined
        · cases determined
          exact stored
        · split at determined
          · cases determined
          · cases determined
            exact stored

theorem beginTask_spec {params : MessageSendParams} {fresh : FreshIds} {task : Task}
    (begun : m.beginTask params fresh = .ok (m', taskId, task)) :
    (∃ i, m'.info taskId = some i ∧ m'.infos[i]? = some .new) ∧ (m'.getTask taskId).isSome ∧
      m'.emitters = m.emitters ∧ m.snapshot params fresh = some task ∧
        isFinal task.status.state = false := by
  rw [beginTask] at begun
  split at begun
  · cases begun
  · rename_i id existing determined
    split at begun
    · cases begun
    · rename_i running
      obtain ⟨-, same⟩ := registerTask_map_eq_ok begun
      cases same
      have there : (m.getTask taskId).isSome := by
        rw [determineTaskId_spec determined]
        rfl
      rw [Bool.not_eq_true] at running
      refine ⟨insertInfo_registered m taskId, getTask_saveTask_isSome there, rfl, ?_, running⟩
      rw [snapshot, determined]
  · rename_i id determined
    obtain ⟨-, same⟩ := registerTask_map_eq_ok begun
    cases same
    refine ⟨insertInfo_registered _ taskId, ?_, rfl, ?_, rfl⟩
    · rw [determineTaskId_spec determined]
      exact Option.isSome_iff_exists.mpr ⟨_, getTask_saveTask (m := m) (createdTask params fresh)⟩
    · rw [snapshot, determined]

theorem Serving.start (registered : ∃ i, m.info taskId = some i ∧ m.infos[i]? = some ⟨sent, []⟩)
    (stored : (m.getTask taskId).isSome) (cb : EventCb) :
    (m.addEventCallback taskId cb).Serving taskId cb sent := by
  obtain ⟨i, found, at_i⟩ := registered
  have added : m.addEventCallback taskId cb = { m with
      infos := m.infos.modify i fun info => { info with eventCb := info.eventCb ++ [cb] } } := by
    rw [addEventCallback, found]
  rw [added]
  refine ⟨⟨i, found, ?_⟩, stored⟩
  rw [List.getElem?_modify_eq, at_i]
  rfl

theorem saveTaskEvent_frame (stored : (m.getTask taskId).isSome)
    (published : PublishedFor taskId event) :
    ((m.saveTaskEvent event).getTask taskId).isSome ∧
      (m.saveTaskEvent event).taskExecuteMap = m.taskExecuteMap ∧
        (m.saveTaskEvent event).infos = m.infos ∧
          (m.saveTaskEvent event).emitters = m.emitters := by
  obtain ⟨t, found⟩ := Option.isSome_iff_exists.mp stored
  cases event with
  | task t => exact published.elim
  | message msg => exact ⟨stored, rfl, rfl, rfl⟩
  | statusUpdate e =>
    cases published
    rw [saveTaskEvent, found]
    exact ⟨getTask_saveTask_isSome stored, rfl, rfl, rfl⟩
  | artifactUpdate e =>
    cases published
    rw [saveTaskEvent, found]
    exact ⟨getTask_saveTask_isSome stored, rfl, rfl, rfl⟩

theorem Serving.saved (serving : m.Serving taskId cb sent) (published : PublishedFor taskId event) :
    (m.saveTaskEvent event).Serving taskId cb sent := by
  obtain ⟨stored, map, infos, -⟩ := saveTaskEvent_frame serving.stored published
  refine ⟨?_, stored⟩
  rw [info, map, infos]
  exact serving.registered

theorem Serving.process (serving : m.Serving taskId cb sent) (published : PublishedFor taskId event) :
    m.process taskId event =
      if isFinalEvent event then ((m.saveTaskEvent event).call event cb).deregister taskId
      else (m.saveTaskEvent event).call event cb := by
  obtain ⟨i, found, at_i⟩ := serving.registered
  have callbacks : (m.saveTaskEvent event).callbacks i = [cb] := by
    rw [TaskManager.callbacks, (saveTaskEvent_frame serving.stored published).2.2.1, at_i]
    rfl
  rw [TaskManager.process, found]
  dsimp only
  rw [callbacks]
  rfl

theorem deregister_info (m : TaskManager) (taskId : String) : (m.deregister taskId).info taskId = none := by
  rw [info, deregister, get?_erase_self]

end TaskManager

end AgentProtocols.A2A
