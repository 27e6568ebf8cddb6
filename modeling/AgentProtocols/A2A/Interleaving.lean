import AgentProtocols.Lib.Runs
import AgentProtocols.A2A.ClientTaskManager
import AgentProtocols.A2A.RequestHandler

/-!
Concurrent calls of one request handler. A `Thread` is a call at a place of its code; `runThread`
says which `Action` its next section takes. The guard of `callback_mutex` is held from `lock` to
the end of `process` or `cancel_task`.
-/

namespace AgentProtocols.A2A

open Lib OrderedMap
open AgentProtocols.MCP (RequestId RpcError Response)

/-- A `message/send` or `message/stream` call. -/
structure Call where
  params : MessageSendParams
  streaming : Bool
  fresh : FreshIds
  emitter : Nat

def Call.callback (c : Call) (taskId : String) : EventCb :=
  if c.streaming then .stream c.emitter else .send taskId c.params.blocking c.emitter

/-- An event on its way through `process`. -/
structure Publication where
  taskId : String
  event : StreamEvent
  flagAfter : Option Nat

def StreamEvent.contextId : StreamEvent → String
  | task t => t.contextId
  | message m => m.contextId.getD ""
  | artifactUpdate e => e.contextId
  | statusUpdate e => e.contextId

def Task.cancelEvent (t : Task) : Publication :=
  ⟨t.id, .statusUpdate ⟨t.contextId, none, .new .canceled, t.id⟩, none⟩

/-- A thread, by the section it is about to enter. -/
inductive Thread where
  /-- `determine_task_id`. -/
  | looking (c : Call)
  /-- `create_new_task`, and the read of the new task by `initialize_streaming_task`. -/
  | creating (c : Call) (taskId : String)
  | rereading (c : Call) (taskId : String)
  /-- `register_task`, for a stored task and for a new one. -/
  | registering (c : Call) (taskId : String) (existing : Task)
  | registeringNew (c : Call) (taskId : String) (created : Option Task)
  /-- `update_with_message`. -/
  | appending (c : Call) (taskId : String) (existing : Task)
  /-- `exchange_message_sent`, or the snapshot of a stream. -/
  | opening (c : Call) (taskId : String) (snapshot : Option Task)
  /-- `add_event_callback`, the lookup and the insertion. -/
  | subscribing (c : Call) (taskId : String)
  | pushing (c : Call) (taskId : String) (i : Nat)
  /-- The updater is created. -/
  | starting (c : Call) (taskId : String)
  /-- The executor runs. -/
  | executing (c : Call) (taskId : String) (updater : Nat)
  /-- `on_cancel_task`, its first read and the read after the executor's `cancel`. -/
  | cancelLooking (taskId : String)
  | canceling (t : Task)
  /-- `cancel_task`: the lookup of the registration, the lock and the save. -/
  | cancelFinding (t : Task)
  | cancelLocking (t : Task) (i : Nat)
  | cancelSaving (t : Task) (info : Option Nat)
  /-- The save of `on_cancel_task` without an executor. -/
  | cancelDirectly (t : Task)
  /-- A call of an updater loads the flag, and sets it for a final state. -/
  | checking (updater : Nat) (call : UpdaterCall)
  | flagging (updater : Nat) (p : Publication)
  /-- `process`: the lookup of the registration and the lock. -/
  | processing (p : Publication)
  | locking (p : Publication) (i : Nat)
  /-- `ensure_task_for_event`. -/
  | reading (p : Publication) (i : Nat)
  | ensuring (p : Publication) (i : Nat)
  | ensureSaving (p : Publication) (i : Nat)
  | saving (p : Publication) (i : Nat) (t : Task)
  /-- The callbacks are copied and called; a final event then removes the registration. -/
  | cloning (p : Publication) (i : Nat)
  | calling (p : Publication) (i : Nat) (cbs : List EventCb)
  | completing (p : Publication) (i : Nat) (taskId : String) (emitter : Nat) (t : Task)
      (msg : Message) (rest : List EventCb)
  | answering (p : Publication) (i : Nat) (taskId : String) (emitter : Nat)
      (result : SendMessageResult) (rest : List EventCb)
  /-- The guard is dropped. -/
  | releasing (p : Publication) (i : Nat)
  | leaving (p : Publication)
  | ended

/-- The info whose `callback_mutex` a thread holds. -/
def Thread.holds : Thread → Option Nat
  | cancelSaving _ info => info
  | reading _ i => some i
  | ensuring _ i => some i
  | ensureSaving _ i => some i
  | saving _ i _ => some i
  | cloning _ i => some i
  | calling _ i _ => some i
  | completing _ i _ _ _ _ _ => some i
  | answering _ i _ _ _ _ => some i
  | releasing _ i => some i
  | _ => none

/-- A handler with its threads. `owners` is the task under which each info was
registered. -/
structure Handler where
  executor : Bool
  manager : TaskManager
  owners : List String
  updaters : List TaskUpdater
  threads : List Thread

/-- What a section does to the shared state. -/
inductive Action where
  | look
  | save (t : Task)
  | register (taskId : String)
  | remove (taskId : String)
  | push (i : Nat) (cb : EventCb)
  | exchange (taskId : String) (value : Bool)
  | answer (taskId : String) (emitter : Nat) (result : SendMessageResult)
  | emit (emitter : Nat) (event : StreamEvent)
  | create (taskId contextId : String)
  | flag (updater : Nat)

inductive Label where
  | send (params : MessageSendParams) (streaming : Bool) (fresh : FreshIds) (id : Option RequestId)
  /-- A `tasks/cancel` request arrives. -/
  | cancel (taskId : String)
  | publish (updater : Nat) (call : UpdaterCall)
  /-- The next section of a thread. -/
  | run (thread : Nat)

namespace Handler

variable (h : Handler)

/-- A handler without threads, over a store. -/
def new (executor : Bool) (taskStore : OrderedMap String Task) : Handler :=
  ⟨executor, ⟨taskStore, .empty, [], []⟩, [], [], []⟩

/-- Some thread holds the `callback_mutex` of the info. -/
def held (i : Nat) : Bool := h.threads.any fun t => t.holds == some i

def perform : Action → Handler
  | .look => h
  | .save t => { h with manager := h.manager.saveTask t }
  | .register taskId =>
    { h with manager := h.manager.insertInfo taskId, owners := h.owners ++ [taskId] }
  | .remove taskId => { h with manager := h.manager.deregister taskId }
  | .push i cb =>
    { h with manager := { h.manager with
        infos := h.manager.infos.modify i fun info => { info with eventCb := info.eventCb ++ [cb] } } }
  | .exchange taskId value => { h with manager := h.manager.exchangeMessageSent taskId value }
  | .answer taskId k result => { h with manager := h.manager.answerOnce taskId k result }
  | .emit k event => { h with manager := h.manager.emit k (·.emitStream event) }
  | .create taskId contextId => { h with updaters := h.updaters ++ [.new taskId contextId] }
  | .flag u =>
    { h with updaters := h.updaters.modify u fun up => { up with terminalStateReached := true } }

/-- The publication of a call, and the flag that is set before it. -/
def published (u : Nat) (up : TaskUpdater) (call : UpdaterCall) : Thread :=
  let event := up.event call
  match call with
  | .updateStatus state _ _ _ _ =>
    if isFinal state then .flagging u ⟨up.taskId, event, none⟩ else .processing ⟨up.taskId, event, none⟩
  | .addArtifact _ _ => .processing ⟨up.taskId, event, none⟩
  | .sendResponseMessage _ => .processing ⟨up.taskId, event, some u⟩

/-- The next section of a thread, if it has not to wait and is not at its end. -/
def runThread : Thread → Option (Action × Thread)
  | .looking c =>
    match h.manager.determineTaskId c.params c.fresh with
    | .error _ => some (.look, .ended)
    | .ok (taskId, some t) =>
      if isFinal t.status.state then some (.look, .ended)
      else some (.look, .registering c taskId t)
    | .ok (taskId, none) => some (.look, .creating c taskId)
  | .creating c taskId =>
    if (h.manager.getTask taskId).isSome then none
    else
      some (.save (newTask taskId (c.params.message.contextId.getD c.fresh.contextUuid)
        c.params.message),
        if c.streaming then .rereading c taskId else .registeringNew c taskId none)
  | .rereading c taskId => some (.look, .registeringNew c taskId (h.manager.getTask taskId))
  | .registering c taskId t => some (.register taskId, .appending c taskId t)
  | .registeringNew c taskId created => some (.register taskId, .opening c taskId created)
  | .appending c taskId t => some (.save (t.withMessage c.params.message), .opening c taskId (some t))
  | .opening c taskId snapshot =>
    if c.streaming then
      match snapshot with
      | none => some (.look, .ended)
      | some t => some (.emit c.emitter (.task t), .subscribing c taskId)
    else some (.exchange taskId false, .subscribing c taskId)
  | .subscribing c taskId =>
    match h.manager.info taskId with
    | none => some (.look, .starting c taskId)
    | some i => some (.look, .pushing c taskId i)
  | .pushing c taskId i => some (.push i (c.callback taskId), .starting c taskId)
  | .starting c taskId =>
    if h.executor then
      some (.create taskId (h.manager.getContextId taskId), .executing c taskId h.updaters.length)
    else some (.look, .ended)
  | .executing _ _ _ => some (.look, .ended)
  | .cancelLooking taskId =>
    match h.manager.getTask taskId with
    | none => some (.look, .ended)
    | some t =>
      if isFinal t.status.state then some (.look, .ended)
      else if h.executor then some (.create t.id t.contextId, .canceling t)
      else some (.look, .cancelDirectly t)
  | .canceling t =>
    some (.look, .cancelFinding ((h.manager.getTask t.id).getD t))
  | .cancelFinding t =>
    if isFinal t.status.state then some (.look, .ended)
    else
      match h.manager.info t.id with
      | none => some (.look, .cancelSaving t none)
      | some i => some (.look, .cancelLocking t i)
  | .cancelLocking t i => if h.held i then none else some (.look, .cancelSaving t (some i))
  | .cancelSaving t none => some (.save t.canceled, .ended)
  | .cancelSaving t (some i) => some (.save t.canceled, .cloning t.cancelEvent i)
  | .cancelDirectly t => some (.save t.canceled, .ended)
  | .checking u call =>
    h.updaters[u]?.map fun up => (.look, if up.ignores call then .ended else published u up call)
  | .flagging u p => some (.flag u, .processing p)
  | .processing p =>
    match h.manager.info p.taskId with
    | none => some (.look, .leaving p)
    | some i => some (.look, .locking p i)
  | .locking p i =>
    if h.held i then none
    else
      match p.event with
      | .message _ => some (.look, .cloning p i)
      | _ => some (.look, .reading p i)
  | .reading p i =>
    match h.manager.getTask p.taskId with
    | some t => some (.look, .saving p i t)
    | none => some (.look, .ensuring p i)
  | .ensuring p i => some (.register p.taskId, .ensureSaving p i)
  | .ensureSaving p i =>
    let t : Task := { id := p.taskId, contextId := p.event.contextId, status := .new .submitted }
    some (.save t, .saving p i t)
  | .saving p i t => some (.save (t.applyUpdate p.event), .cloning p i)
  | .cloning p i => some (.look, .calling p i (h.manager.callbacks i))
  | .calling p i [] =>
    if isFinalEvent p.event then some (.remove p.taskId, .releasing p i)
    else some (.look, .releasing p i)
  | .calling p i (.stream k :: rest) => some (.emit k p.event, .calling p i rest)
  | .calling p i (.send taskId blocking k :: rest) =>
    match h.manager.getTask taskId with
    | none => some (.look, .calling p i rest)
    | some t =>
      match p.event with
      | .message msg => some (.look, .completing p i taskId k t msg rest)
      | event =>
        if isFinalEvent event || !blocking then
          some (.look, .answering p i taskId k (.task t) rest)
        else some (.look, .calling p i rest)
  | .completing p i taskId k t msg rest =>
    some (.save t.completed, .answering p i taskId k (.message msg) rest)
  | .answering p i taskId k result rest => some (.answer taskId k result, .calling p i rest)
  | .releasing p _ => some (.look, .leaving p)
  | .leaving p =>
    match p.flagAfter with
    | none => some (.look, .ended)
    | some u => some (.flag u, .ended)
  | .ended => none

/-- One step; undefined where the label names nothing that can happen. -/
def step : Label → Option Handler
  | .send params streaming fresh id =>
    let kind : EmitterKind := if streaming then .streaming true else .nonStreaming false
    some { h with
      manager := h.manager.withEmitter ⟨id, kind, []⟩
      threads := h.threads ++ [.looking ⟨params, streaming, fresh, h.manager.emitters.length⟩] }
  | .cancel taskId => some { h with threads := h.threads ++ [.cancelLooking taskId] }
  | .publish u call =>
    if u < h.updaters.length then some { h with threads := h.threads ++ [.checking u call] }
    else none
  | .run j =>
    h.threads[j]?.bind fun t =>
      (h.runThread t).map fun section_ =>
        { h.perform section_.1 with threads := h.threads.set j section_.2 }

/-! ### What an action changes -/

section Frame

variable {h : Handler} {id : String} {i : Nat}

open TaskManager

theorem perform_getTask (a : Action) : (h.perform a).manager.getTask id =
    match a with
    | .save t => if id = t.id then some t else h.manager.getTask id
    | _ => h.manager.getTask id := by
  cases a with
  | save t => exact get?_insert
  | exchange taskId value =>
    exact congrArg (·.get? id) exchangeMessageSent_taskStore
  | answer taskId k result => exact congrArg (·.get? id) answerOnce_taskStore
  | _ => rfl

theorem perform_info (a : Action) : (h.perform a).manager.info id =
    match a with
    | .register taskId => if id = taskId then some h.manager.infos.length else h.manager.info id
    | .remove taskId => if id = taskId then none else h.manager.info id
    | _ => h.manager.info id := by
  cases a with
  | register taskId => exact get?_insert
  | remove taskId =>
    rw [perform, info, deregister]
    dsimp only
    split
    · rename_i same
      rw [same, get?_erase_self]
    · rename_i other
      exact get?_erase_of_ne other
  | exchange taskId value =>
    exact congrArg (·.get? id) exchangeMessageSent_taskExecuteMap
  | answer taskId k result => exact congrArg (·.get? id) answerOnce_taskExecuteMap
  | _ => rfl

theorem perform_owners (a : Action) : (h.perform a).owners =
    match a with
    | .register taskId => h.owners ++ [taskId]
    | _ => h.owners := by
  cases a <;> rfl

theorem perform_infos_length (a : Action) : (h.perform a).manager.infos.length =
    match a with
    | .register _ => h.manager.infos.length + 1
    | _ => h.manager.infos.length := by
  cases a with
  | register taskId => exact List.length_append
  | push i cb => exact List.length_modify _ _ _
  | exchange taskId value => exact exchangeMessageSent_infos_length
  | answer taskId k result => exact answerOnce_infos_length
  | _ => rfl

theorem perform_callbacks (a : Action) {cb : EventCb}
    (mem : cb ∈ (h.perform a).manager.callbacks i) :
    cb ∈ h.manager.callbacks i ∨ a = .push i cb := by
  cases a with
  | register taskId =>
    left
    rw [perform, callbacks, insertInfo] at mem
    by_cases below : i < h.manager.infos.length
    · rw [List.getElem?_append_left below] at mem
      exact mem
    · rw [List.getElem?_append_right (Nat.le_of_not_lt below), List.getElem?_singleton] at mem
      split at mem <;> cases mem
  | push k new =>
    rw [perform, callbacks] at mem
    by_cases same : k = i
    · subst same
      rw [List.getElem?_modify_eq] at mem
      cases found : h.manager.infos[k]? with
      | none =>
        rw [found] at mem
        cases mem
      | some info =>
        rw [found] at mem
        rcases List.mem_append.mp mem with old | new_
        · left
          rw [callbacks, found]
          exact old
        · right
          rw [List.mem_singleton.mp new_]
    · left
      rw [List.getElem?_modify_ne _ _ same] at mem
      exact mem
  | exchange taskId value =>
    left
    rw [perform, exchangeMessageSent_callbacks] at mem
    exact mem
  | answer taskId k result =>
    left
    rw [perform, answerOnce_callbacks] at mem
    exact mem
  | _ => exact .inl mem

end Frame

end Handler

end AgentProtocols.A2A
