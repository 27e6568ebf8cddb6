import AgentProtocols.A2A.RequestHandler

/-!
What is written for a `message/stream` request. The stream ends after an event that
`is_final_event` holds of, which may be the snapshot before the executor runs;
`stream_complete_iff` says when it carries what was published.
-/

namespace AgentProtocols.A2A

open Lib List
open AgentProtocols.MCP (RequestId RpcError Response)

/-- The events up to and including the first final one. -/
def upToFinal : List StreamEvent → List StreamEvent
  | [] => []
  | event :: rest => if isFinalEvent event then [event] else event :: upToFinal rest

def Carries (id : Option RequestId) (event : StreamEvent) (r : Response) : Prop :=
  successResponse id event.toJsonValue = .ok r

def Emitter.isOpen (e : Emitter) : Bool :=
  match e.kind with
  | .streaming isOpen => isOpen
  | .nonStreaming _ => false

/-- The snapshot and the events up to the first final one are written, and the stream ends. -/
def StreamComplete (snapshot : Task) (events : List StreamEvent) (e : Emitter) : Prop :=
  List.Forall₂ (Carries e.id) (.task snapshot :: upToFinal events) e.written ∧
    e.isOpen = !events.any isFinalEvent

section Lists

variable {events : List StreamEvent} {event : StreamEvent}

theorem upToFinal_idem : upToFinal (upToFinal events) = upToFinal events := by
  induction events with
  | nil => rfl
  | cons event rest ih =>
    rw [upToFinal]
    split
    · rename_i final
      rw [upToFinal, if_pos final]
    · rename_i open_
      rw [upToFinal, if_neg open_, ih]

theorem any_upToFinal : (upToFinal events).any isFinalEvent = events.any isFinalEvent := by
  induction events with
  | nil => rfl
  | cons event rest ih =>
    rw [upToFinal]
    split
    · rename_i final
      rw [any_cons, any_cons, final, Bool.true_or, Bool.true_or]
    · rw [any_cons, any_cons, ih]

end Lists

/-! ### The emitter -/

namespace Emitter

variable {e : Emitter} {events : List StreamEvent}

/-- The responses that carry the events that can be sent. -/
def responses (id : Option RequestId) (events : List StreamEvent) : List Response :=
  events.filterMap fun event => (successResponse id event.toJsonValue).toOption

theorem fold_emitStream_closed (closed : e.kind = .streaming false) :
    events.foldl emitStream e = e := by
  induction events with
  | nil => rfl
  | cons event rest ih =>
    have same : e.emitStream event = e := by
      obtain ⟨id, kind, written⟩ := e
      cases closed
      rw [emitStream]
      cases successResponse id event.toJsonValue <;> cases isFinalEvent event <;> rfl
    rw [foldl_cons, same, ih]

theorem emitStream_open (id : Option RequestId) (written : List Response) (event : StreamEvent) :
    (⟨id, .streaming true, written⟩ : Emitter).emitStream event =
      ⟨id, .streaming (!isFinalEvent event), written ++ responses id [event]⟩ := by
  simp only [emitStream, responses, filterMap_cons]
  cases successResponse id event.toJsonValue with
  | ok r => cases isFinalEvent event <;> rfl
  | error message => cases isFinalEvent event <;> simp [writeDone, Except.toOption]

theorem fold_emitStream_open (id : Option RequestId) (written : List Response) :
    events.foldl emitStream ⟨id, .streaming true, written⟩ =
      ⟨id, .streaming (!events.any isFinalEvent), written ++ responses id (upToFinal events)⟩ := by
  induction events generalizing written with
  | nil => simp [responses, upToFinal]
  | cons event rest ih =>
    rw [foldl_cons, emitStream_open, upToFinal, any_cons]
    split
    · rename_i final
      rw [final, fold_emitStream_closed rfl, Bool.true_or]
    · rename_i open_
      rw [Bool.not_eq_true] at open_
      rw [open_, Bool.not_false, ih, append_assoc]
      congr 2
      rw [responses, responses, ← filterMap_append]
      rfl

end Emitter

/-! ### The execution -/

namespace Execution

variable {x : Execution} {calls : List UpdaterCall} {e : Emitter} {sent : Bool} {k : Nat}

theorem execute_unregistered (unregistered : x.manager.info x.updater.taskId = none) :
    (x.execute calls).manager = x.manager := by
  induction calls generalizing x with
  | nil => rfl
  | cons c rest ih =>
    have kept : (x.publish c).manager = x.manager ∧
        (x.publish c).updater.taskId = x.updater.taskId := by
      rw [publish]
      split
      · exact ⟨rfl, rfl⟩
      · refine ⟨?_, TaskUpdater.reached_taskId _ c⟩
        rw [TaskManager.process, unregistered]
    refine (ih ?_).trans kept.1
    rw [kept.1, kept.2]
    exact unregistered

theorem execute_stream (serving : x.manager.Serving x.updater.taskId (.stream k) sent)
    (fresh : x.updater.terminalStateReached = false) (at_k : x.manager.emitters[k]? = some e) :
    (x.execute calls).manager.emitters[k]? =
      some ((upToFinal (calls.map x.updater.event)).foldl Emitter.emitStream e) := by
  induction calls generalizing x e with
  | nil => exact at_k
  | cons c rest ih =>
    have published := x.updater.event_published c
    obtain ⟨-, -, -, emitters⟩ := TaskManager.saveTaskEvent_frame serving.stored published
    -- the emitter after the callback
    have emitted : ((x.manager.saveTaskEvent (x.updater.event c)).call (x.updater.event c)
        (.stream k)).emitters[k]? = some (e.emitStream (x.updater.event c)) := by
      rw [TaskManager.call, TaskManager.emit, getElem?_modify_eq, emitters, at_k]
      rfl
    have step : x.publish c = ⟨x.manager.process x.updater.taskId (x.updater.event c),
        x.updater.reached c⟩ := by
      rw [publish, TaskUpdater.ignores_of_fresh fresh]
      rfl
    rw [execute, foldl_cons, ← execute, step, serving.process published, map_cons,
      upToFinal]
    split
    · rw [execute_unregistered]
      · exact emitted
      · rw [TaskUpdater.reached_taskId]
        exact TaskManager.deregister_info _ _
    · rename_i open_
      rw [TaskUpdater.reached_of_open (Bool.not_eq_true _ ▸ open_)]
      have served := serving.saved published
      exact @ih _ _ ⟨served.registered, served.stored⟩ fresh emitted

end Execution

/-! ### The request -/

section Request

variable {m : TaskManager} {executor : Bool} {params : MessageSendParams} {fresh : FreshIds}
  {id : Option RequestId} {x : Execution}

theorem handleStreaming_spec (accepted : m.handleStreaming executor params fresh id = .ok x) :
    ∃ snapshot, m.snapshot params fresh = some snapshot ∧ isFinal snapshot.status.state = false ∧
      x.manager.Serving x.updater.taskId (.stream m.emitters.length) false ∧
      x.updater.terminalStateReached = false ∧
      x.manager.emitters[m.emitters.length]? =
        some ((⟨id, .streaming true, []⟩ : Emitter).emitStream (.task snapshot)) := by
  rw [TaskManager.handleStreaming, TaskManager.onSendMessageStreaming] at accepted
  split at accepted
  · cases accepted
  · rename_i m' taskId task begun
    obtain ⟨registered, stored, emitters, snapshot, running⟩ := TaskManager.beginTask_spec begun
    rw [TaskManager.startExecution] at accepted
    split at accepted
    · cases accepted
      refine ⟨task, snapshot, running, ?_, rfl, ?_⟩
      · exact TaskManager.Serving.start
          (m := m'.emit m.emitters.length (·.emitStream (.task task))) registered stored _
      · rw [TaskManager.addEventCallback_emitters, TaskManager.emit, getElem?_modify_eq,
          emitters, TaskManager.withEmitter, getElem?_concat_length]
        rfl
    · cases accepted

variable {events : List StreamEvent}

theorem sendable_of_forall₂ {rs : List Response}
    (related : List.Forall₂ (Carries id) events rs) : ∀ event ∈ events, event.Sendable := by
  induction related with
  | nil => exact fun _ mem => absurd mem not_mem_nil
  | @cons event r rest rs carried _ ih =>
    intro e mem
    rcases mem_cons.mp mem with rfl | mem
    · rw [Carries] at carried
      cases sent : e.toJsonValue with
      | ok v => exact ⟨v, sent⟩
      | error message =>
        rw [sent] at carried
        cases carried
    · exact ih e mem

theorem forall₂_responses (sendable : ∀ event ∈ events, event.Sendable) :
    List.Forall₂ (Carries id) events (Emitter.responses id events) := by
  induction events with
  | nil => exact .nil
  | cons event rest ih =>
    obtain ⟨v, sent⟩ := sendable event mem_cons_self
    have carried : successResponse id event.toJsonValue = .ok ⟨id, some v, none⟩ := by
      rw [sent]
      rfl
    have head : Emitter.responses id (event :: rest) =
        ⟨id, some v, none⟩ :: Emitter.responses id rest := by
      rw [Emitter.responses, filterMap_cons, carried]
      rfl
    rw [head]
    exact .cons carried (ih fun e mem => sendable e (mem_cons_of_mem _ mem))

theorem streamComplete_iff {snapshot : Task} :
    StreamComplete snapshot events ((upToFinal events).foldl Emitter.emitStream
        ((⟨id, .streaming true, []⟩ : Emitter).emitStream (.task snapshot))) ↔
      isFinalEvent (.task snapshot) = false ∧
        ∀ event ∈ StreamEvent.task snapshot :: upToFinal events, event.Sendable := by
  rw [← foldl_cons, Emitter.fold_emitStream_open, nil_append, StreamComplete,
    Emitter.isOpen, any_cons, any_upToFinal, upToFinal, upToFinal_idem]
  cases waits : isFinalEvent (.task snapshot) with
  | false =>
    constructor
    · exact fun complete => ⟨rfl, sendable_of_forall₂ complete.1⟩
    · exact fun sendable => ⟨forall₂_responses sendable.2, rfl⟩
  | true =>
    refine iff_of_false ?_ fun holds => Bool.noConfusion holds.1
    rintro ⟨related, closed⟩
    -- an end that is due comes with an event, for which nothing was written
    have final : events.any isFinalEvent = true := by
      exact (Bool.not_eq_false' _).mp closed.symm
    have length := related.length_eq
    have written : (Emitter.responses id [.task snapshot]).length ≤ 1 :=
      length_filterMap_le _ _
    rw [if_pos rfl, length_cons] at length
    dsimp only at length
    have none_ : upToFinal events = [] := length_eq_zero_iff.mp (by omega)
    rw [← any_upToFinal, none_] at final
    cases final

theorem isFinalEvent_task {t : Task} (running : isFinal t.status.state = false) :
    isFinalEvent (.task t) = false ↔ t.status.state = .submitted ∨ t.status.state = .working := by
  rw [isFinalEvent]
  cases state : t.status.state <;> rw [state] at running <;>
    first
    | exact absurd running (by decide)
    | decide

/-- A stream is complete exactly if the task was submitted or working and all can be written. -/
theorem stream_complete_iff (accepted : m.handleStreaming executor params fresh id = .ok x)
    (before after : List UpdaterCall) :
    ∃ snapshot e, m.snapshot params fresh = some snapshot ∧
      (x.serveStreaming id m.emitters.length before (.ok ()) after).manager.emitters[
        m.emitters.length]? = some e ∧
      (StreamComplete snapshot ((before ++ after).map x.updater.event) e ↔
        (snapshot.status.state = .submitted ∨ snapshot.status.state = .working) ∧
          ∀ event ∈ StreamEvent.task snapshot :: upToFinal ((before ++ after).map x.updater.event),
            event.Sendable) := by
  obtain ⟨snapshot, taken, running, serving, unreached, at_k⟩ := handleStreaming_spec accepted
  have served : x.serveStreaming id m.emitters.length before (.ok ()) after =
      x.execute (before ++ after) := List.foldl_append.symm
  have emitted := @Execution.execute_stream _ (before ++ after) _ _ _ serving unreached at_k
  refine ⟨snapshot, _, taken, served ▸ emitted, ?_⟩
  rw [streamComplete_iff, isFinalEvent_task running]

end Request

/-! A task that waits for input, and one that works. -/

/-- A manager whose store holds a task in a state. -/
def managerWith (state : TaskState) : TaskManager :=
  (⟨.empty, .empty, [], []⟩ : TaskManager).saveTask { id := "t", contextId := "c", status := .new state }

def answerParams : MessageSendParams := { message := { messageId := "m2", taskId := some "t" } }

def completion : List UpdaterCall := [.updateStatus .completed none none none "now"]

theorem stream_of_working_task : ∃ x snapshot e,
    (managerWith .working).handleStreaming true answerParams ⟨"", ""⟩ none = .ok x ∧
      (x.serveStreaming none 0 completion (.ok ()) []).manager.emitters[0]? = some e ∧
      StreamComplete snapshot (completion.map x.updater.event) e := by
  have accepted : ∃ x, (managerWith .working).handleStreaming true answerParams ⟨"", ""⟩ none = .ok x :=
    ⟨_, rfl⟩
  obtain ⟨x, accepted⟩ := accepted
  obtain ⟨snapshot, e, taken, emitted, complete⟩ := stream_complete_iff accepted completion []
  refine ⟨x, snapshot, e, accepted, emitted, complete.mpr ?_⟩
  cases taken
  refine ⟨.inr rfl, fun event mem => ?_⟩
  rcases List.mem_cons.mp mem with rfl | mem
  · exact ⟨_, rfl⟩
  · cases List.mem_singleton.mp mem
    exact ⟨_, rfl⟩

/-- The stream of a task that waits for input ends with the snapshot. -/
theorem stream_of_waiting_task_ends : ∃ x snapshot e,
    (managerWith .inputRequired).handleStreaming true answerParams ⟨"", ""⟩ none = .ok x ∧
      (managerWith .inputRequired).snapshot answerParams ⟨"", ""⟩ = some snapshot ∧
      (x.serveStreaming none 0 completion (.ok ()) []).manager.emitters[0]? = some e ∧
      e.written.length = 1 ∧ ¬StreamComplete snapshot (completion.map x.updater.event) e := by
  refine ⟨_, _, _, rfl, rfl, rfl, rfl, ?_⟩
  rintro ⟨related, -⟩
  have length := related.length_eq
  exact absurd length (by decide)

end AgentProtocols.A2A
