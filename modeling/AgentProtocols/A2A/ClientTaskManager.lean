import AgentProtocols.A2A.TaskManager

/-!
The client's view of a streamed task. `client_follows_server` compares the task that
`ClientTaskManager` folds the events into with the one that `process` keeps: status and history
agree, the artifacts unless a chunk is appended to one that is not there, the metadata may differ.
-/

namespace AgentProtocols.A2A

open Lib List

/-! ### The client -/

/-- `append_artifact_to_task` of the client: a chunk for an unknown artifact is a new
artifact. -/
def clientAppendArtifactToTask (t : Task) (e : TaskArtifactUpdateEvent) : Task :=
  let list := t.artifacts.getD []
  let change : Artifact → Artifact :=
    if e.append.getD false then (·.extend e.artifact) else fun _ => e.artifact
  { t with
    artifacts := some ((modifyArtifact e.artifact.artifactId change list).getD
      (list ++ [e.artifact])) }

/-- The status branch of the client's `save_task_event`. -/
def Task.clientApplyStatus (t : Task) (e : TaskStatusUpdateEvent) : Task :=
  let t' := e.status.message.elim t t.pushHistory
  { t' with metadata := t.metadata <|> e.metadata, status := e.status }

structure ClientTaskManager where
  currentTask : Option Task

def ClientTaskManager.new : ClientTaskManager := ⟨none⟩

def ClientTaskManager.saveTaskEvent (c : ClientTaskManager) :
    StreamEvent → Except String ClientTaskManager
  | .task t =>
    if c.currentTask.isSome then
      .error "Task is already set, create new manager for new tasks."
    else .ok ⟨some t⟩
  | .message _ => .ok c
  | .statusUpdate u =>
    let shell : Task := { id := u.taskId, contextId := u.contextId, status := u.status }
    .ok ⟨some ((c.currentTask.getD shell).clientApplyStatus u)⟩
  | .artifactUpdate u =>
    let shell : Task := { id := u.taskId, contextId := u.contextId, status := .new .unspecified }
    .ok ⟨some (clientAppendArtifactToTask (c.currentTask.getD shell) u)⟩

/-! ### Updates -/

def IsUpdate (taskId : String) : StreamEvent → Prop
  | .statusUpdate e => e.taskId = taskId
  | .artifactUpdate e => e.taskId = taskId
  | _ => False

/-- How the server applies an update to its task. -/
def Task.applyUpdate (t : Task) : StreamEvent → Task
  | .statusUpdate e => t.applyStatus e
  | .artifactUpdate e => appendArtifactToTask t e
  | _ => t

def Task.clientApplyUpdate (t : Task) : StreamEvent → Task
  | .statusUpdate e => t.clientApplyStatus e
  | .artifactUpdate e => clientAppendArtifactToTask t e
  | _ => t

def statusMetadata : StreamEvent → Option Json
  | .statusUpdate e => e.metadata
  | _ => none

/-- Every appended chunk names an artifact that is there. -/
def ChunksKnown (ids : List String) : List StreamEvent → Prop
  | [] => True
  | .artifactUpdate e :: rest =>
    if e.append.getD false then e.artifact.artifactId ∈ ids ∧ ChunksKnown ids rest
    else ChunksKnown (e.artifact.artifactId :: ids) rest
  | _ :: rest => ChunksKnown ids rest

/-- The metadata of the first update that carries one. -/
def firstMetadata (events : List StreamEvent) : Option Json := (events.filterMap statusMetadata).head?

def mergedMetadata (events : List StreamEvent) : Option Json :=
  (events.map statusMetadata).foldl mergeMetadata none

section Folds

variable {taskId : String} {events : List StreamEvent} {s c : Task}

/-! ### The two folds -/

variable (t : Task)

include t

@[simp] theorem takeStatusMessage_artifacts : t.takeStatusMessage.artifacts = t.artifacts := by
  rw [Task.takeStatusMessage]
  split <;> rfl

theorem takeStatusMessage_history :
    t.takeStatusMessage.history.getD [] = t.history.getD [] ++ t.status.message.toList := by
  rw [Task.takeStatusMessage]
  split
  · rename_i none_
    rw [none_, Option.toList_none, append_nil]
  · rename_i m some_
    rw [some_]
    rfl

@[simp] theorem appendArtifactToTask_status (e : TaskArtifactUpdateEvent) :
    (appendArtifactToTask t e).status = t.status := by
  simp only [appendArtifactToTask]
  split <;> rfl

@[simp] theorem appendArtifactToTask_history (e : TaskArtifactUpdateEvent) :
    (appendArtifactToTask t e).history = t.history := by
  simp only [appendArtifactToTask]
  split <;> rfl

@[simp] theorem appendArtifactToTask_metadata (e : TaskArtifactUpdateEvent) :
    (appendArtifactToTask t e).metadata = t.metadata := by
  simp only [appendArtifactToTask]
  split <;> rfl

@[simp] theorem clientApplyStatus_artifacts (e : TaskStatusUpdateEvent) :
    (t.clientApplyStatus e).artifacts = t.artifacts := by
  rw [Task.clientApplyStatus]
  cases e.status.message <;> rfl

theorem clientApplyStatus_history (e : TaskStatusUpdateEvent) :
    (t.clientApplyStatus e).history.getD [] = t.history.getD [] ++ e.status.message.toList := by
  rw [Task.clientApplyStatus]
  cases e.status.message with
  | none => exact (append_nil _).symm
  | some m => rfl

omit t

/-- The status agrees, and the history up to the current status message. -/
structure SameProgress (s c : Task) : Prop where
  status : c.status = s.status
  history : c.history.getD [] = s.history.getD [] ++ s.status.message.toList

theorem SameProgress.update (same : SameProgress s c) (event : StreamEvent) :
    SameProgress (s.applyUpdate event) (c.clientApplyUpdate event) := by
  cases event with
  | task t => exact same
  | message m => exact same
  | statusUpdate e =>
    refine ⟨rfl, ?_⟩
    calc (c.clientApplyStatus e).history.getD []
        = c.history.getD [] ++ e.status.message.toList := clientApplyStatus_history c e
      _ = s.takeStatusMessage.history.getD [] ++ e.status.message.toList := by
        rw [same.history, takeStatusMessage_history]
  | artifactUpdate e =>
    refine ⟨?_, ?_⟩
    · exact same.status.trans (appendArtifactToTask_status s e).symm
    · calc (clientAppendArtifactToTask c e).history.getD []
          = s.history.getD [] ++ s.status.message.toList := same.history
        _ = _ := by rw [Task.applyUpdate, appendArtifactToTask_history, appendArtifactToTask_status]

theorem SameProgress.fold (same : SameProgress s c) :
    SameProgress (events.foldl Task.applyUpdate s) (events.foldl Task.clientApplyUpdate c) := by
  induction events generalizing s c with
  | nil => exact same
  | cons event rest ih => exact ih (same.update event)

/-! ### Artifacts -/

def Task.artifactIds (t : Task) : List String := (t.artifacts.getD []).map Artifact.artifactId

theorem modifyArtifact_isSome {id : String} (f : Artifact → Artifact) :
    ∀ {list : List Artifact}, id ∈ list.map Artifact.artifactId →
      ∃ list', modifyArtifact id f list = some list'
  | a :: rest, mem => by
    rw [modifyArtifact]
    split
    · exact ⟨_, rfl⟩
    · rename_i other
      rcases mem_cons.mp mem with same | mem
      · exact absurd same.symm other
      · obtain ⟨list', found⟩ := modifyArtifact_isSome f mem
        exact ⟨a :: list', by rw [found]; rfl⟩

theorem modifyArtifact_ids {id : String} {f : Artifact → Artifact}
    (keeps : ∀ a, a.artifactId = id → (f a).artifactId = id) :
    ∀ {list list' : List Artifact}, modifyArtifact id f list = some list' →
      list'.map Artifact.artifactId = list.map Artifact.artifactId ∧
        id ∈ list.map Artifact.artifactId
  | a :: rest, list', found => by
    rw [modifyArtifact] at found
    split at found
    · rename_i same
      cases found
      rw [map_cons, map_cons, keeps a same, same]
      exact ⟨rfl, mem_cons_self⟩
    · obtain ⟨rest', tail, rfl⟩ := Option.map_eq_some_iff.mp found
      obtain ⟨ids, mem⟩ := modifyArtifact_ids keeps tail
      rw [map_cons, map_cons, ids]
      exact ⟨rfl, mem_cons_of_mem _ mem⟩

theorem artifactIds_chunk (t : Task) {e : TaskArtifactUpdateEvent} (chunk : e.append.getD false = true) :
    (appendArtifactToTask t e).artifactIds = t.artifactIds := by
  rw [appendArtifactToTask, if_pos chunk]
  cases found : modifyArtifact e.artifact.artifactId (·.extend e.artifact) (t.artifacts.getD []) with
  | none => rfl
  | some list' =>
    have keeps : ∀ a : Artifact, a.artifactId = e.artifact.artifactId →
        (a.extend e.artifact).artifactId = e.artifact.artifactId := fun a same => same
    exact (modifyArtifact_ids keeps found).1

theorem artifactIds_whole (t : Task) {e : TaskArtifactUpdateEvent} (whole : ¬e.append.getD false = true)
    {id : String} (known : id ∈ e.artifact.artifactId :: t.artifactIds) :
    id ∈ (appendArtifactToTask t e).artifactIds := by
  rw [appendArtifactToTask, if_neg whole, Task.artifactIds, Option.getD_some]
  cases found : modifyArtifact e.artifact.artifactId (fun _ => e.artifact) (t.artifacts.getD []) with
  | none =>
    rw [Option.getD_none, map_append, mem_append]
    rcases mem_cons.mp known with rfl | there
    · exact .inr (mem_singleton.mpr rfl)
    · exact .inl there
  | some list' =>
    obtain ⟨ids, mem⟩ := modifyArtifact_ids (fun a _ => rfl) found
    rw [Option.getD_some, ids]
    rcases mem_cons.mp known with rfl | there
    · exact mem
    · exact there

theorem append_artifacts_eq (artifacts : c.artifacts = s.artifacts) (e : TaskArtifactUpdateEvent)
    (known : e.append.getD false = true → e.artifact.artifactId ∈ s.artifactIds) :
    (clientAppendArtifactToTask c e).artifacts = (appendArtifactToTask s e).artifacts := by
  simp only [clientAppendArtifactToTask, appendArtifactToTask, artifacts]
  split
  · rename_i chunk
    obtain ⟨list', found⟩ := modifyArtifact_isSome (·.extend e.artifact) (known chunk)
    rw [found, Option.getD_some, Option.getD_some]
  · rfl

theorem fold_artifacts {ids : List String} (artifacts : c.artifacts = s.artifacts)
    (there : ∀ id ∈ ids, id ∈ s.artifactIds) (known : ChunksKnown ids events) :
    (events.foldl Task.clientApplyUpdate c).artifacts =
      (events.foldl Task.applyUpdate s).artifacts := by
  induction events generalizing s c ids with
  | nil => exact artifacts
  | cons event rest ih =>
    cases event with
    | task t => exact ih artifacts there known
    | message m => exact ih artifacts there known
    | statusUpdate e =>
      have kept : (s.applyStatus e).artifacts = s.artifacts := takeStatusMessage_artifacts s
      refine @ih (s.applyStatus e) (c.clientApplyStatus e) ids ?_ ?_ known
      · rw [clientApplyStatus_artifacts, artifacts, kept]
      · intro id mem
        rw [Task.artifactIds, kept]
        exact there id mem
    | artifactUpdate e =>
      rw [ChunksKnown] at known
      split at known
      · rename_i chunk
        refine @ih (appendArtifactToTask s e) (clientAppendArtifactToTask c e) ids ?_ ?_ known.2
        · exact append_artifacts_eq artifacts e fun _ => there _ known.1
        · intro id mem
          rw [artifactIds_chunk s chunk]
          exact there id mem
      · rename_i whole
        refine @ih (appendArtifactToTask s e) (clientAppendArtifactToTask c e)
          (e.artifact.artifactId :: ids) ?_ ?_ known
        · exact append_artifacts_eq artifacts e fun chunk => absurd chunk whole
        · intro id mem
          refine artifactIds_whole s whole ?_
          rcases mem_cons.mp mem with rfl | mem
          · exact mem_cons_self
          · exact mem_cons_of_mem _ (there id mem)

/-! ### Metadata -/

theorem mergeMetadata_none (existing : Option Json) : mergeMetadata existing none = existing := by
  cases existing with
  | none => rfl
  | some v => cases v <;> rfl

theorem fold_metadata : (events.foldl Task.applyUpdate s).metadata =
    (events.map statusMetadata).foldl mergeMetadata s.metadata := by
  induction events generalizing s with
  | nil => rfl
  | cons event rest ih =>
    have step : (s.applyUpdate event).metadata =
        mergeMetadata s.metadata (statusMetadata event) := by
      cases event with
      | task t => exact (mergeMetadata_none _).symm
      | message m => exact (mergeMetadata_none _).symm
      | statusUpdate e => rfl
      | artifactUpdate e =>
        exact (appendArtifactToTask_metadata s e).trans (mergeMetadata_none _).symm
    rw [foldl_cons, ih, step, map_cons, foldl_cons]

theorem fold_client_metadata : (events.foldl Task.clientApplyUpdate c).metadata =
    (c.metadata <|> firstMetadata events) := by
  induction events generalizing c with
  | nil => cases found : c.metadata <;> exact found
  | cons event rest ih =>
    have step : (c.clientApplyUpdate event).metadata = (c.metadata <|> statusMetadata event) := by
      cases event with
      | statusUpdate e => rfl
      | _ => cases found : c.metadata <;> exact found
    rw [foldl_cons, ih, step, firstMetadata, firstMetadata, filterMap_cons]
    cases c.metadata with
    | some v => rfl
    | none => cases statusMetadata event <;> rfl

end Folds

/-! ### The server's fold is `process` -/

namespace TaskManager

variable {m : TaskManager} {taskId : String} {event : StreamEvent} {t : Task}

theorem call_taskStore (update : IsUpdate taskId event) (cb : EventCb) :
    (m.call event cb).taskStore = m.taskStore := by
  cases cb with
  | stream emitter => rfl
  | send tid blocking emitter =>
    rw [call]
    split
    · rfl
    · cases event with
      | statusUpdate e =>
        simp only [answerWith]
        split
        · exact answerOnce_taskStore
        · rfl
      | artifactUpdate e =>
        simp only [answerWith]
        split
        · exact answerOnce_taskStore
        · rfl
      | task t => exact update.elim
      | message msg => exact update.elim

theorem calls_taskStore (update : IsUpdate taskId event) (cbs : List EventCb) :
    (cbs.foldl (fun m cb => m.call event cb) m).taskStore = m.taskStore := by
  induction cbs generalizing m with
  | nil => rfl
  | cons cb rest ih => exact ih.trans (call_taskStore update cb)

theorem applyUpdate_id (t : Task) (event : StreamEvent) : (t.applyUpdate event).id = t.id := by
  cases event with
  | statusUpdate e =>
    rw [Task.applyUpdate, Task.applyStatus, Task.takeStatusMessage]
    split <;> rfl
  | artifactUpdate e =>
    simp only [Task.applyUpdate, appendArtifactToTask]
    split <;> rfl
  | _ => rfl

theorem saveTaskEvent_update (stored : m.getTask taskId = some t) (update : IsUpdate taskId event) :
    m.saveTaskEvent event = m.saveTask (t.applyUpdate event) := by
  cases event with
  | statusUpdate e =>
    cases update
    rw [saveTaskEvent, stored]
    rfl
  | artifactUpdate e =>
    cases update
    rw [saveTaskEvent, stored]
    rfl
  | task t => exact update.elim
  | message msg => exact update.elim

theorem process_update (registered : (m.info taskId).isSome) (stored : m.getTask taskId = some t)
    (own : t.id = taskId) (update : IsUpdate taskId event) :
    (m.process taskId event).getTask taskId = some (t.applyUpdate event) := by
  obtain ⟨i, found⟩ := Option.isSome_iff_exists.mp registered
  have saved : (m.saveTask (t.applyUpdate event)).getTask taskId = some (t.applyUpdate event) := by
    rw [← own, ← applyUpdate_id t event]
    exact getTask_saveTask _
  rw [process, found, saveTaskEvent_update stored update]
  have called : ∀ cbs : List EventCb, (cbs.foldl (fun m cb => m.call event cb)
      (m.saveTask (t.applyUpdate event))).getTask taskId = some (t.applyUpdate event) := by
    intro cbs
    rw [getTask, calls_taskStore update]
    exact saved
  dsimp only
  split
  · exact called _
  · exact called _

theorem process_unregistered (unregistered : ¬(m.info taskId).isSome) :
    m.process taskId event = m := by
  rw [process, Option.not_isSome_iff_eq_none.mp unregistered]

/-- The events that `process` applies, one after the other. -/
def applied (m : TaskManager) (taskId : String) : List StreamEvent → List StreamEvent
  | [] => []
  | event :: rest =>
    if (m.info taskId).isSome then event :: (m.process taskId event).applied taskId rest
    else (m.process taskId event).applied taskId rest

def processAll (m : TaskManager) (taskId : String) (events : List StreamEvent) : TaskManager :=
  events.foldl (fun m event => m.process taskId event) m

theorem processAll_getTask {events : List StreamEvent} (stored : m.getTask taskId = some t)
    (own : t.id = taskId) (updates : ∀ event ∈ events, IsUpdate taskId event) :
    (m.processAll taskId events).getTask taskId =
      some ((m.applied taskId events).foldl Task.applyUpdate t) := by
  induction events generalizing m t with
  | nil => exact stored
  | cons event rest ih =>
    have later : ∀ event ∈ rest, IsUpdate taskId event := fun e mem =>
      updates e (mem_cons_of_mem _ mem)
    rw [applied]
    split
    · rename_i registered
      exact ih (process_update registered stored own (updates event mem_cons_self))
        ((applyUpdate_id t event).trans own) later
    · rename_i unregistered
      rw [processAll, foldl_cons, process_unregistered unregistered]
      exact ih stored own later

theorem applied_subset {events : List StreamEvent} : ∀ event ∈ m.applied taskId events,
    event ∈ events := by
  induction events generalizing m with
  | nil => exact fun _ mem => mem
  | cons event rest ih =>
    intro e mem
    rw [applied] at mem
    split at mem
    · rcases mem_cons.mp mem with rfl | mem
      · exact mem_cons_self
      · exact mem_cons_of_mem _ (ih e mem)
    · exact mem_cons_of_mem _ (ih e mem)

end TaskManager

/-! ### The client follows -/

open ClientTaskManager

theorem ClientTaskManager.saveTaskEvent_update {taskId : String} {event : StreamEvent} {c : Task}
    (update : IsUpdate taskId event) :
    saveTaskEvent ⟨some c⟩ event = .ok ⟨some (c.clientApplyUpdate event)⟩ := by
  cases event with
  | statusUpdate e => rfl
  | artifactUpdate e => rfl
  | task t => exact update.elim
  | message msg => exact update.elim

theorem ClientTaskManager.foldlM_updates {taskId : String} {events : List StreamEvent} {c : Task}
    (updates : ∀ event ∈ events, IsUpdate taskId event) :
    events.foldlM saveTaskEvent ⟨some c⟩ = .ok ⟨some (events.foldl Task.clientApplyUpdate c)⟩ := by
  induction events generalizing c with
  | nil => rfl
  | cons event rest ih =>
    rw [foldlM_cons, saveTaskEvent_update (updates event mem_cons_self)]
    exact ih fun e mem => updates e (mem_cons_of_mem _ mem)

/-- The client's task after the updates that `process` applied, next to the server's. -/
theorem client_follows_server (m : TaskManager) (id contextId : String) (message : Message)
    (stored : m.getTask id = some (newTask id contextId message)) (events : List StreamEvent)
    (updates : ∀ event ∈ events, IsUpdate id event) :
    let applied := m.applied id events
    ∃ server client, (m.processAll id events).getTask id = some server ∧
      (StreamEvent.task (newTask id contextId message) :: applied).foldlM
        saveTaskEvent .new = .ok ⟨some client⟩ ∧
      client.status = server.status ∧
      client.history.getD [] = server.history.getD [] ++ server.status.message.toList ∧
      (ChunksKnown [] applied → client.artifacts = server.artifacts) ∧
      client.metadata = firstMetadata applied ∧ server.metadata = mergedMetadata applied := by
  intro applied
  have progress : SameProgress (newTask id contextId message) (newTask id contextId message) :=
    ⟨rfl, rfl⟩
  have sub : ∀ event ∈ applied, IsUpdate id event := fun e mem =>
    updates e (TaskManager.applied_subset e mem)
  refine ⟨_, _, TaskManager.processAll_getTask stored rfl updates,
    foldlM_updates sub, ?_⟩
  refine ⟨progress.fold.status, progress.fold.history, fun known => ?_, ?_, ?_⟩
  · exact fold_artifacts rfl (fun id mem => absurd mem List.not_mem_nil) known
  · exact fold_client_metadata
  · exact fold_metadata

/-! A task in progress, and updates of it. -/

def greeting : Message := { messageId := "m1" }

def sampleManager : TaskManager :=
  ((⟨.empty, .empty, [], []⟩ : TaskManager).saveTask (newTask "t" "c" greeting)).insertInfo "t"

def working (metadata : Option Json) : StreamEvent :=
  .statusUpdate ⟨"c", metadata, ⟨some greeting, .working, none⟩, "t"⟩

def chunk (append : Bool) : StreamEvent :=
  .artifactUpdate
    { append := some append, contextId := "c", taskId := "t"
      artifact := { artifactId := "a", parts := [{ text := some "x" }] } }

/-- A whole artifact, a chunk of it and a status with a message. -/
theorem client_follows_sample : ∃ server client,
    (sampleManager.processAll "t" [chunk false, chunk true, working none]).getTask "t" = some server ∧
      [StreamEvent.task (newTask "t" "c" greeting), chunk false, chunk true, working none].foldlM
        saveTaskEvent .new = .ok ⟨some client⟩ ∧
      client.artifacts = server.artifacts ∧ client.status = server.status := by
  have updates : ∀ event ∈ [chunk false, chunk true, working none], IsUpdate "t" event := by
    intro event mem
    simp only [List.mem_cons, List.not_mem_nil, or_false] at mem
    rcases mem with rfl | rfl | rfl <;> rfl
  obtain ⟨server, client, stored, folded, status, -, artifacts, -, -⟩ :=
    client_follows_server sampleManager "t" "c" greeting rfl _ updates
  exact ⟨server, client, stored, folded, artifacts ⟨List.mem_cons_self, trivial⟩, status⟩

/-- A chunk for an unknown artifact, and a second metadata. -/
theorem client_departs_from_server :
    (∃ server client, (sampleManager.processAll "t" [chunk true]).getTask "t" = some server ∧
      [StreamEvent.task (newTask "t" "c" greeting), chunk true].foldlM
        saveTaskEvent .new = .ok ⟨some client⟩ ∧
      client.artifacts ≠ server.artifacts) ∧
    (∃ server client, (sampleManager.processAll "t"
        [working (some (.obj [("a", .null)])), working (some (.obj [("b", .null)]))]).getTask "t" =
          some server ∧
      [StreamEvent.task (newTask "t" "c" greeting), working (some (.obj [("a", .null)])),
        working (some (.obj [("b", .null)]))].foldlM saveTaskEvent .new =
          .ok ⟨some client⟩ ∧
      client.metadata ≠ server.metadata) := by
  refine ⟨⟨_, _, rfl, rfl, ?_⟩, ⟨_, _, rfl, rfl, ?_⟩⟩
  · decide
  · decide

end AgentProtocols.A2A
