import AgentProtocols.Lib.KeyedLists
import AgentProtocols.Lib.Runs
import AgentProtocols.A2A.RequestHandler

/-!
The push-notification configs of the tasks. `ConfigMap` is what the requests mean: for each task
and identifier the config set last and not deleted since. `push_configs_follow_the_map` says what
the handler answers of it; a get ignores the identifier it names.
-/

namespace AgentProtocols.A2A

open Lib OrderedMap

/-! ### The store -/

/-- `InMemoryPushNotificationConfigStore`. -/
abbrev PushNotificationConfigStore := OrderedMap String (List PushNotificationConfig)

/-- A missing identifier defaults to the task id. -/
def PushNotificationConfig.withId (config : PushNotificationConfig) (taskId : String) :
    PushNotificationConfig :=
  { config with id := some (config.id.getD taskId) }

namespace PushNotificationConfigStore

variable (store : PushNotificationConfigStore)

def getInfo (taskId : String) : List PushNotificationConfig := (store.get? taskId).getD []

def setInfo (taskId : String) (config : PushNotificationConfig) : PushNotificationConfigStore :=
  let config := config.withId taskId
  store.insert taskId (((getInfo store taskId).eraseP fun c => c.id == config.id) ++ [config])

def deleteInfo (taskId : String) (configId : Option String) : PushNotificationConfigStore :=
  match store.get? taskId with
  | none => store
  | some configs =>
    let rest := configs.eraseP fun c => c.id == some (configId.getD taskId)
    if rest.isEmpty then store.erase taskId else store.insert taskId rest

end PushNotificationConfigStore

/-! ### The handlers -/

/-- Push-notification config bound to a specific task. -/
structure TaskPushNotificationConfig where
  pushNotificationConfig : PushNotificationConfig
  taskId : String
deriving DecidableEq

structure GetTaskPushNotificationConfigParams where
  id : String
  metadata : Option Json := none
  pushNotificationConfigId : Option String := none

structure ListTaskPushNotificationConfigParams where
  id : String
  metadata : Option Json := none

structure DeleteTaskPushNotificationConfigParams where
  id : String
  metadata : Option Json := none
  pushNotificationConfigId : String

/-- The request handler with its store of configs, if it has one. -/
structure PushHandler where
  manager : TaskManager
  pushConfigStore : Option PushNotificationConfigStore

namespace PushHandler

variable (h : PushHandler)

/-- `push_config_store_or_err` and `require_task`. -/
def storeFor (taskId : String) : Except A2aServerError PushNotificationConfigStore :=
  match h.pushConfigStore with
  | none => .error ⟨-32003, "Push notification config is not set"⟩
  | some store =>
    match h.manager.getTask taskId with
    | none => .error ⟨-32001, "Task id not found"⟩
    | some _ => .ok store

open PushNotificationConfigStore

def onSet (cfg : TaskPushNotificationConfig) : Except A2aServerError PushHandler :=
  (h.storeFor cfg.taskId).map fun store =>
    { h with pushConfigStore := some (setInfo store cfg.taskId
        cfg.pushNotificationConfig) }

/-- `on_get_task_push_notification_config`: the first config, or the default. -/
def onGet (params : GetTaskPushNotificationConfigParams) :
    Except A2aServerError TaskPushNotificationConfig :=
  (h.storeFor params.id).map fun store =>
    ⟨(getInfo store params.id).headD {}, params.id⟩

def onList (params : ListTaskPushNotificationConfigParams) :
    Except A2aServerError (List TaskPushNotificationConfig) :=
  (h.storeFor params.id).map fun store =>
    (getInfo store params.id).map fun config => ⟨config, params.id⟩

def onDelete (params : DeleteTaskPushNotificationConfigParams) : Except A2aServerError PushHandler :=
  (h.storeFor params.id).map fun store =>
    { h with pushConfigStore := some (deleteInfo store params.id
        (some params.pushNotificationConfigId)) }

def updatePushNotificationConfig (params : MessageSendParams) (taskId : String) : PushHandler :=
  match h.pushConfigStore, params.configuration.bind (·.pushNotificationConfig) with
  | some store, some push =>
    { h with pushConfigStore := some (setInfo store taskId push) }
  | _, _ => h

/-- The part before the executor, with the config of the message where the task is created. -/
def beginTask (params : MessageSendParams) (fresh : FreshIds) : Except A2aServerError PushHandler :=
  (h.manager.beginTask params fresh).map fun (manager, taskId, _) =>
    let h' := { h with manager }
    match h.manager.determineTaskId params fresh with
    | .ok (_, none) => h'.updatePushNotificationConfig params taskId
    | _ => h'

end PushHandler

/-! ### The requests -/

/-- A request, or what else the task manager goes through. -/
inductive PushRequest where
  | set (cfg : TaskPushNotificationConfig)
  | get (params : GetTaskPushNotificationConfigParams)
  | list (params : ListTaskPushNotificationConfigParams)
  | delete (params : DeleteTaskPushNotificationConfigParams)
  | send (params : MessageSendParams) (fresh : FreshIds)
  | work (manager : TaskManager)

/-- The handler after a request; a request that fails changes nothing. -/
def PushHandler.serve (h : PushHandler) : PushRequest → PushHandler
  | .set cfg => (h.onSet cfg).toOption.getD h
  | .get _ => h
  | .list _ => h
  | .delete params => (h.onDelete params).toOption.getD h
  | .send params fresh => (h.beginTask params fresh).toOption.getD h
  | .work manager => { h with manager }

/-- Tasks stay stored. -/
def PushRequest.Keeps (h : PushHandler) : PushRequest → Prop
  | work manager => ∀ id, (h.manager.getTask id).isSome → (manager.getTask id).isSome
  | _ => True

/-! ### The map -/

/-- The configs by task and identifier. -/
abbrev ConfigMap := String → Option String → Option PushNotificationConfig

/-- What a request that succeeds does to the configs. -/
inductive ConfigChange where
  | put (taskId : String) (config : PushNotificationConfig)
  | drop (taskId : String) (configId : String)

namespace ConfigChange

def key : ConfigChange → String × Option String
  | put taskId config => (taskId, some (config.id.getD taskId))
  | drop taskId configId => (taskId, some configId)

def value : ConfigChange → Option PushNotificationConfig
  | put taskId config => some (config.withId taskId)
  | drop _ _ => none

def apply (c : ConfigChange) (configs : ConfigMap) : ConfigMap :=
  Function.update configs c.key.1 (Function.update (configs c.key.1) c.key.2 c.value)

theorem apply_self (c : ConfigChange) (configs : ConfigMap) :
    c.apply configs c.key.1 = Function.update (configs c.key.1) c.key.2 c.value :=
  Function.update_self _ _ _

theorem apply_of_ne (c : ConfigChange) (configs : ConfigMap) {taskId : String}
    (other : taskId ≠ c.key.1) : c.apply configs taskId = configs taskId :=
  Function.update_of_ne other _ _

end ConfigChange

/-- The change that a request asks for: a set, a delete, or a message that creates a task. -/
def PushRequest.change (h : PushHandler) : PushRequest → Option ConfigChange
  | set cfg =>
    match h.storeFor cfg.taskId with
    | .ok _ => some (.put cfg.taskId cfg.pushNotificationConfig)
    | .error _ => none
  | delete params =>
    match h.storeFor params.id with
    | .ok _ => some (.drop params.id params.pushNotificationConfigId)
    | .error _ => none
  | send params fresh =>
    match h.pushConfigStore, h.manager.determineTaskId params fresh,
      params.configuration.bind (·.pushNotificationConfig) with
    | some _, .ok (taskId, none), some push => some (.put taskId push)
    | _, _, _ => none
  | _ => none

/-- A handler with the map of what was set. -/
structure PushSystem where
  handler : PushHandler
  configs : ConfigMap

namespace PushSystem

/-- A handler over any tasks, with an empty store of configs or without one. -/
def start (manager : TaskManager) (supported : Bool) : PushSystem :=
  ⟨⟨manager, if supported then some .empty else none⟩, fun _ _ => none⟩

def step (s : PushSystem) (r : PushRequest) : Option PushSystem :=
  some ⟨s.handler.serve r, match r.change s.handler with
    | some c => c.apply s.configs
    | none => s.configs⟩

end PushSystem

/-! ### What a request does -/

namespace TaskManager

variable {m m' : TaskManager} {params : MessageSendParams} {fresh : FreshIds} {taskId : String}
  {task : Task}

theorem beginTask_keeps (begun : m.beginTask params fresh = .ok (m', taskId, task)) {id : String}
    (stored : (m.getTask id).isSome) : (m'.getTask id).isSome := by
  rw [beginTask] at begun
  split at begun
  · cases begun
  · split at begun
    · cases begun
    · obtain ⟨-, same⟩ := registerTask_map_eq_ok begun
      cases same
      exact getTask_saveTask_isSome (m := m.insertInfo _) stored
  · obtain ⟨-, same⟩ := registerTask_map_eq_ok begun
    cases same
    exact getTask_saveTask_isSome stored

theorem beginTask_of_new (new : m.determineTaskId params fresh = .ok (taskId, none)) :
    ∃ m' task, m.beginTask params fresh = .ok (m', taskId, task) := by
  have named : generateTaskId fresh ≠ "" := by
    intro empty
    have letters := congrArg String.length empty
    rw [generateTaskId, String.length_append] at letters
    have five : "task-".length = 5 := rfl
    have zero : "".length = 0 := rfl
    omega
  have id : taskId = generateTaskId fresh := determineTaskId_spec new
  rw [beginTask, new]
  dsimp only
  rw [registerTask, if_neg (id ▸ named)]
  exact ⟨_, _, rfl⟩

end TaskManager

namespace PushHandler

variable {h : PushHandler} {store : PushNotificationConfigStore} {taskId : String}

theorem storeFor_eq_ok : h.storeFor taskId = .ok store ↔
    h.pushConfigStore = some store ∧ (h.manager.getTask taskId).isSome := by
  rw [storeFor]
  cases h.pushConfigStore with
  | none => simp
  | some store' =>
    cases h.manager.getTask taskId with
    | none => simp
    | some t => simp

/-! The store after a change -/

def changed (store : PushNotificationConfigStore) : ConfigChange → PushNotificationConfigStore
  | .put taskId config => PushNotificationConfigStore.setInfo store taskId config
  | .drop taskId configId => PushNotificationConfigStore.deleteInfo store taskId (some configId)

open PushNotificationConfigStore (getInfo setInfo deleteInfo)

theorem getInfo_changed_of_ne (c : ConfigChange) (other : taskId ≠ c.key.1) :
    getInfo (changed store c) taskId = getInfo store taskId := by
  cases c with
  | put taskId' config =>
    replace other : taskId ≠ taskId' := other
    rw [changed, setInfo, getInfo, get?_insert_of_ne other, getInfo]
  | drop taskId' configId =>
    replace other : taskId ≠ taskId' := other
    rw [changed, deleteInfo]
    cases store.get? taskId' with
    | none => rfl
    | some configs =>
      dsimp only
      split
      · rw [getInfo, get?_erase_of_ne other, getInfo]
      · rw [getInfo, get?_insert_of_ne other, getInfo]

theorem getInfo_changed (c : ConfigChange) :
    getInfo (changed store c) c.key.1 =
      (getInfo store c.key.1).eraseP (fun config => config.id == c.key.2) ++ c.value.toList := by
  cases c with
  | put taskId' config =>
    rw [changed, setInfo, getInfo, ConfigChange.key, get?_insert_self]
    rfl
  | drop taskId' configId =>
    simp only [changed, deleteInfo, getInfo, ConfigChange.key, ConfigChange.value,
      Option.toList_none, List.append_nil]
    cases found : store.get? taskId' with
    | none =>
      rw [found]
      rfl
    | some configs =>
      dsimp only [Option.getD_some]
      split
      · rename_i empty
        rw [get?_erase_self, List.isEmpty_iff.mp empty]
        rfl
      · rw [get?_insert_self]
        rfl

theorem represents_changed {configs : ConfigMap}
    (rep : ∀ taskId, Represents PushNotificationConfig.id (getInfo store taskId) (configs taskId))
    (c : ConfigChange) (taskId : String) :
    Represents PushNotificationConfig.id (getInfo (changed store c) taskId)
      (c.apply configs taskId) := by
  by_cases same : taskId = c.key.1
  · subst same
    rw [getInfo_changed, c.apply_self]
    cases c with
    | put taskId' config => exact (rep taskId').replace (config.withId taskId')
    | drop taskId' configId =>
      rw [ConfigChange.value, Option.toList_none, List.append_nil]
      exact (rep taskId').remove (some configId)
  · rw [getInfo_changed_of_ne c same, c.apply_of_ne configs same]
    exact rep taskId

/-- A request keeps the stored tasks and makes its change, to a task that is stored. -/
structure Does (h h' : PushHandler) (change : Option ConfigChange) : Prop where
  keeps : ∀ id, (h.manager.getTask id).isSome → (h'.manager.getTask id).isSome
  changes : match change with
    | none => h'.pushConfigStore = h.pushConfigStore
    | some c => ∃ store, h.pushConfigStore = some store ∧
        h'.pushConfigStore = some (changed store c) ∧ (h'.manager.getTask c.key.1).isSome

theorem serve_send (params : MessageSendParams) (fresh : FreshIds) :
    h.Does (h.serve (.send params fresh)) (PushRequest.change h (.send params fresh)) := by
  obtain ⟨manager, configs⟩ := h
  rw [serve, beginTask, PushRequest.change]
  cases determined : manager.determineTaskId params fresh with
  | error e =>
    have refused : manager.beginTask params fresh = .error e := by
      rw [TaskManager.beginTask, determined]
    rw [refused]
    cases configs <;> exact ⟨fun id stored => stored, rfl⟩
  | ok found =>
    obtain ⟨taskId, existing⟩ := found
    cases existing with
    | some existing =>
      cases begun : manager.beginTask params fresh with
      | error e => cases configs <;> exact ⟨fun id stored => stored, rfl⟩
      | ok result =>
        have keeps := fun id => @TaskManager.beginTask_keeps _ _ _ _ _ _ begun id
        cases configs <;> exact ⟨keeps, rfl⟩
    | none =>
      obtain ⟨manager', task, begun⟩ := TaskManager.beginTask_of_new determined
      have keeps := fun id => @TaskManager.beginTask_keeps _ _ _ _ _ _ begun id
      have created := (TaskManager.beginTask_spec begun).2.1
      rw [begun]
      simp only [updatePushNotificationConfig]
      cases params.configuration.bind (·.pushNotificationConfig) with
      | none => cases configs <;> exact ⟨keeps, rfl⟩
      | some push =>
        cases configs with
        | none => exact ⟨keeps, rfl⟩
        | some store => exact ⟨keeps, store, rfl, rfl, created⟩

theorem serve_does (r : PushRequest) (keeps : r.Keeps h) : h.Does (h.serve r) (r.change h) := by
  cases r with
  | set cfg =>
    rw [PushRequest.change, serve, onSet]
    cases accepted : h.storeFor cfg.taskId with
    | error e => exact ⟨fun id stored => stored, rfl⟩
    | ok store =>
      obtain ⟨there, stored⟩ := storeFor_eq_ok.mp accepted
      exact ⟨fun id stored => stored, store, there, rfl, stored⟩
  | get params => exact ⟨fun id stored => stored, rfl⟩
  | list params => exact ⟨fun id stored => stored, rfl⟩
  | delete params =>
    rw [PushRequest.change, serve, onDelete]
    cases accepted : h.storeFor params.id with
    | error e => exact ⟨fun id stored => stored, rfl⟩
    | ok store =>
      obtain ⟨there, stored⟩ := storeFor_eq_ok.mp accepted
      exact ⟨fun id stored => stored, store, there, rfl, stored⟩
  | send params fresh => exact serve_send params fresh
  | work manager => exact ⟨keeps, rfl⟩

end PushHandler

/-! ### Runs -/

namespace PushSystem

open PushNotificationConfigStore (getInfo)

variable {s s' : PushSystem}

structure Sound (s : PushSystem) : Prop where
  represented : ∀ store, s.handler.pushConfigStore = some store → ∀ taskId,
    Represents PushNotificationConfig.id (getInfo store taskId) (s.configs taskId)
  unsupported : s.handler.pushConfigStore = none → ∀ taskId configId, s.configs taskId configId = none
  named : ∀ taskId, s.configs taskId none = none
  stored : ∀ taskId configId config, s.configs taskId configId = some config →
    (s.handler.manager.getTask taskId).isSome

theorem sound_start (manager : TaskManager) (supported : Bool) : (start manager supported).Sound where
  represented := by
    intro store there taskId
    cases supported with
    | false => cases there
    | true =>
      cases there
      exact represents_nil _
  unsupported _ _ _ := rfl
  named _ := rfl
  stored taskId configId config found := by cases found

theorem apply_eq_some {c : ConfigChange} {configs : ConfigMap} {taskId : String}
    {configId : Option String} {config : PushNotificationConfig}
    (found : c.apply configs taskId configId = some config) :
    configs taskId configId = some config ∨ taskId = c.key.1 ∧ configId = c.key.2 := by
  by_cases same : taskId = c.key.1
  · subst same
    rw [c.apply_self, Function.update_apply] at found
    split at found
    · rename_i same
      exact .inr ⟨rfl, same⟩
    · exact .inl found
  · rw [c.apply_of_ne configs same] at found
    exact .inl found

theorem Sound.step (sound : s.Sound) {r : PushRequest} (keeps : r.Keeps s.handler)
    (stepped : s.step r = some s') : s'.Sound := by
  cases stepped
  obtain ⟨kept, changes⟩ := PushHandler.serve_does r keeps
  cases asked : r.change s.handler with
  | none =>
    rw [asked] at changes
    refine ⟨?_, ?_, sound.named, ?_⟩
    · intro store there
      exact sound.represented store (changes ▸ there)
    · intro none_
      exact sound.unsupported (changes ▸ none_)
    · intro taskId configId config found
      exact kept taskId (sound.stored taskId configId config found)
  | some c =>
    rw [asked] at changes
    obtain ⟨store, there, after, created⟩ := changes
    refine ⟨?_, ?_, ?_, ?_⟩
    · intro store' there' taskId
      cases after.symm.trans there'
      exact PushHandler.represents_changed (sound.represented store there) c taskId
    · intro none_
      cases after.symm.trans none_
    · intro taskId
      cases found : c.apply s.configs taskId none with
      | none => exact found
      | some config =>
        rcases apply_eq_some found with before | ⟨-, clash⟩
        · cases (sound.named taskId).symm.trans before
        · cases c <;> cases clash
    · intro taskId configId config found
      rcases apply_eq_some found with before | ⟨rfl, -⟩
      · exact kept taskId (sound.stored taskId configId config before)
      · exact created

structure AnswersFrom (s : PushSystem) (taskId : String) : Prop where
  /-- A list answers with the configs of the task, each identifier once. -/
  listed : ∀ metadata answer, s.handler.onList ⟨taskId, metadata⟩ = .ok answer →
    ∃ configs : List PushNotificationConfig, answer = configs.map (⟨·, taskId⟩) ∧
      Represents PushNotificationConfig.id configs (s.configs taskId)
  /-- A get answers with the first of them, or with an empty config. -/
  got : ∀ params answer, params.id = taskId → s.handler.onList ⟨taskId, params.metadata⟩ = .ok answer →
    s.handler.onGet params = .ok (answer.headD ⟨{}, taskId⟩)
  refused : ∀ params e, params.id = taskId → s.handler.onList ⟨taskId, params.metadata⟩ = .error e →
    s.handler.onGet params = .error e ∧ ∀ configId, s.configs taskId configId = none

theorem Sound.answersFrom (sound : s.Sound) (taskId : String) : s.AnswersFrom taskId where
  listed := by
    intro metadata answer listed
    rw [PushHandler.onList] at listed
    cases accepted : s.handler.storeFor taskId with
    | error e =>
      rw [accepted] at listed
      cases listed
    | ok store =>
      rw [accepted] at listed
      cases listed
      exact ⟨_, rfl, sound.represented store (PushHandler.storeFor_eq_ok.mp accepted).1 taskId⟩
  got := by
    rintro params answer rfl listed
    rw [PushHandler.onList] at listed
    rw [PushHandler.onGet]
    cases accepted : s.handler.storeFor params.id with
    | error e =>
      rw [accepted] at listed
      cases listed
    | ok store =>
      rw [accepted] at listed
      cases listed
      dsimp only [Except.map]
      cases getInfo store params.id <;> rfl
  refused := by
    rintro params e rfl listed
    rw [PushHandler.onList] at listed
    rw [PushHandler.onGet]
    cases accepted : s.handler.storeFor params.id with
    | ok store =>
      rw [accepted] at listed
      cases listed
    | error e' =>
      rw [accepted] at listed
      cases listed
      refine ⟨rfl, fun configId => ?_⟩
      cases found : s.configs params.id configId with
      | none => rfl
      | some config =>
        have stored := sound.stored params.id configId config found
        cases there : s.handler.pushConfigStore with
        | none => cases (sound.unsupported there params.id configId).symm.trans found
        | some store => cases (PushHandler.storeFor_eq_ok.mpr ⟨there, stored⟩).symm.trans accepted

/-- The config that the store has for a task and an identifier. -/
def config (s : PushSystem) (taskId : String) (configId : Option String) :
    Option PushNotificationConfig :=
  s.handler.pushConfigStore.bind fun store =>
    (getInfo store taskId).find? fun c => c.id == configId

theorem Sound.config_eq (sound : s.Sound) (taskId : String) (configId : Option String) :
    s.config taskId configId = s.configs taskId configId := by
  rw [config]
  cases there : s.handler.pushConfigStore with
  | none => exact (sound.unsupported there taskId configId).symm
  | some store => exact (sound.represented store there taskId).find?_eq configId

/-- Lists and gets answer from the map of what was set and not deleted since. -/
theorem push_configs_follow_the_map {manager : TaskManager} {supported : Bool}
    {rs : List PushRequest}
    (run : Run (Under (fun s r => r.Keeps s.handler) (Steps step)) (start manager supported) rs s) :
    (∀ taskId, s.AnswersFrom taskId) ∧
      ∀ r s', r.Keeps s.handler → s.step r = some s' → ∀ taskId configId,
        (∀ c, r.change s.handler = some c → c.key ≠ (taskId, configId)) →
          s'.config taskId configId = s.config taskId configId := by
  have sound : s.Sound :=
    run.invariant_under (fun _ _ _ inv keeps stepped => inv.step keeps stepped)
      (sound_start manager supported)
  refine ⟨sound.answersFrom, fun r s' keeps stepped taskId configId other => ?_⟩
  rw [(sound.step keeps stepped).config_eq, sound.config_eq]
  cases stepped
  cases asked : r.change s.handler with
  | none => rfl
  | some c =>
    have elsewhere := other c asked
    dsimp only
    by_cases same : taskId = c.key.1
    · subst same
      rw [c.apply_self, Function.update_of_ne]
      rintro rfl
      exact elsewhere rfl
    · rw [c.apply_of_ne _ same]

/-! ### Two configs of one task -/

namespace Sample

def manager : TaskManager :=
  ⟨OrderedMap.empty.insert "t" { id := "t", contextId := "c", status := .new .working }, .empty, [], []⟩

def first : PushNotificationConfig := { id := some "c1", url := "http://a" }

def second : PushNotificationConfig := { id := some "c2", url := "http://b" }

def requests : List PushRequest := [.set ⟨first, "t"⟩, .set ⟨second, "t"⟩]

/-- The system after the two requests. -/
def after : PushSystem :=
  ⟨((start manager true).handler.serve (.set ⟨first, "t"⟩)).serve (.set ⟨second, "t"⟩),
    (ConfigChange.put "t" second).apply ((ConfigChange.put "t" first).apply fun _ _ => none)⟩

theorem run_requests :
    Run (Under (fun s r => r.Keeps s.handler) (Steps step)) (start manager true) requests after :=
  .cons ⟨trivial, rfl⟩ (.cons ⟨trivial, rfl⟩ (.nil _))

theorem two_configs_answered : after.AnswersFrom "t" :=
  (push_configs_follow_the_map run_requests).1 "t"

/-- The second config was set last, and a get that names it is answered with the first. -/
theorem get_answers_another_config :
    ∃ s, Run (Under (fun s r => r.Keeps s.handler) (Steps step)) (start manager true) requests s ∧
      s.config "t" (some "c2") = some second ∧
        s.handler.onGet ⟨"t", none, some "c2"⟩ = .ok ⟨first, "t"⟩ :=
  ⟨after, run_requests, rfl, rfl⟩

end Sample

end PushSystem

end AgentProtocols.A2A
