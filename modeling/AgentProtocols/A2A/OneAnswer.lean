import AgentProtocols.A2A.RequestHandler

/-!
The answer to a `message/send` request. Two flags keep it single: `message_sent` of the
registration and `response_sent` of the emitter. `one_answer_per_send` says what the answer is;
where it cannot be written to the wire, the flag is spent and nothing is written.
-/

namespace AgentProtocols.A2A

open Lib
open AgentProtocols.MCP (RequestId RpcError Response)

/-- A request answers this event, if it has not answered another. -/
def Answered (blocking : Bool) (event : StreamEvent) : Bool := isFinalEvent event || !blocking

/-- The result that answers an event, in the state after it. -/
def AnswerTo (m : TaskManager) (taskId : String) : StreamEvent → SendMessageResult → Prop
  | .message msg, result => result = .message msg
  | _, result => ∃ t, m.getTask taskId = some t ∧ result = .task t

/-- The bodies that are written for a `message/send` request. -/
def TaskManager.sendBodies (m : TaskManager) (executor : Bool) (params : MessageSendParams)
    (fresh : FreshIds) (id : Option RequestId) (before : List UpdaterCall)
    (result : Except A2aServerError Unit) (after : List UpdaterCall) : List Response :=
  match m.handleSend executor params fresh id with
  | .error e =>
    ((⟨id, .nonStreaming false, []⟩ : Emitter).writeNonStreamingData (errorResponse id e)).written
  | .ok x =>
    let served := x.serveSend id m.emitters.length before result after
    (served.manager.emitters[m.emitters.length]?.map Emitter.written).getD []

/-! ### The emitter -/

namespace Emitter

/-- Nothing was written, or one body and the flag is set. -/
def Once (e : Emitter) : Prop :=
  (e.kind = .nonStreaming false ∧ e.written = []) ∨
    (e.kind = .nonStreaming true ∧ e.written.length = 1)

variable {e : Emitter}

theorem Once.write (once : e.Once) (r : Response) : (e.writeNonStreamingData r).Once := by
  rcases once with ⟨kind, written⟩ | ⟨kind, written⟩
  · rw [writeNonStreamingData, kind, written]
    exact .inr ⟨rfl, rfl⟩
  · rw [writeNonStreamingData, kind]
    exact .inr ⟨kind, written⟩

theorem Once.emitResult (once : e.Once) (result : SendMessageResult) : (e.emitResult result).Once := by
  rw [Emitter.emitResult]
  split
  · exact once.write _
  · exact once

theorem Once.length_le (once : e.Once) : e.written.length ≤ 1 := by
  rcases once with ⟨-, written⟩ | ⟨-, written⟩
  · rw [written]
    exact Nat.zero_le 1
  · exact Nat.le_of_eq written

end Emitter

/-! ### The callback -/

namespace TaskManager

variable {m : TaskManager} {taskId : String} {cb : EventCb} {sent blocking : Bool} {k : Nat}
  {event : StreamEvent} {e : Emitter}

variable (serving : m.Serving taskId cb sent)

include serving

theorem Serving.saveTask (t : Task) : (m.saveTask t).Serving taskId cb sent :=
  ⟨serving.registered, getTask_saveTask_isSome serving.stored⟩

theorem Serving.emit (emitter : Nat) (f : Emitter → Emitter) :
    (m.emit emitter f).Serving taskId cb sent :=
  ⟨serving.registered, serving.stored⟩

theorem Serving.messageSent : m.messageSent taskId = sent := by
  obtain ⟨i, found, at_i⟩ := serving.registered
  rw [TaskManager.messageSent, found]
  dsimp only
  rw [at_i]
  rfl

theorem Serving.exchange (value : Bool) :
    (m.exchangeMessageSent taskId value).Serving taskId cb value := by
  obtain ⟨i, found, at_i⟩ := serving.registered
  have changed : m.exchangeMessageSent taskId value = { m with
      infos := m.infos.modify i fun info => { info with messageSent := value } } := by
    rw [exchangeMessageSent, found]
  rw [changed]
  refine ⟨⟨i, found, ?_⟩, serving.stored⟩
  rw [List.getElem?_modify_eq, at_i]
  rfl

omit serving

@[simp] theorem exchangeMessageSent_emitters (value : Bool) :
    (m.exchangeMessageSent taskId value).emitters = m.emitters := by
  rw [exchangeMessageSent]
  split <;> rfl

theorem call_send {t : Task} (stored : m.getTask taskId = some t)
    (other : ∀ msg, event ≠ .message msg) :
    m.call event (.send taskId blocking k) =
      if Answered blocking event then
        m.answerOnce taskId k (.task t)
      else m := by
  rw [call, stored]
  cases event with
  | message msg => exact absurd rfl (other msg)
  | _ => rfl

theorem call_send_message {t : Task} (stored : m.getTask taskId = some t) (msg : Message) :
    m.call (.message msg) (.send taskId blocking k) =
      (m.saveTask t.completed).answerOnce taskId k (.message msg) := by
  rw [call, stored]
  rfl

theorem Serving.answerOnce_sent (serving : m.Serving taskId cb true) (emitter : Nat)
    (result : SendMessageResult) : m.answerOnce taskId emitter result = m := by
  rw [answerOnce, serving.messageSent]
  rfl

theorem Serving.answerOnce_first (serving : m.Serving taskId cb false) (emitter : Nat)
    (result : SendMessageResult) :
    (m.answerOnce taskId emitter result).Serving taskId cb true ∧
      (m.answerOnce taskId emitter result).emitters =
        m.emitters.modify emitter (·.emitResult result) ∧
      (m.answerOnce taskId emitter result).taskStore = m.taskStore := by
  rw [answerOnce, serving.messageSent, if_neg Bool.false_ne_true]
  refine ⟨(serving.exchange true).emit emitter _, ?_, ?_⟩
  · rw [TaskManager.emit, exchangeMessageSent_emitters]
  · rw [TaskManager.emit, exchangeMessageSent_taskStore]

theorem Serving.call_sent (serving : m.Serving taskId (.send taskId blocking k) true)
    (event : StreamEvent) :
    (m.call event (.send taskId blocking k)).Serving taskId (.send taskId blocking k) true ∧
      (m.call event (.send taskId blocking k)).emitters = m.emitters := by
  obtain ⟨t, stored⟩ := Option.isSome_iff_exists.mp serving.stored
  by_cases message : ∃ msg, event = .message msg
  · obtain ⟨msg, rfl⟩ := message
    have saved := serving.saveTask t.completed
    rw [call_send_message stored msg, saved.answerOnce_sent]
    exact ⟨saved, rfl⟩
  · rw [call_send stored fun msg same => message ⟨msg, same⟩, serving.answerOnce_sent]
    split
    · exact ⟨serving, rfl⟩
    · exact ⟨serving, rfl⟩

theorem Serving.call_unanswered (serving : m.Serving taskId (.send taskId blocking k) sent)
    (unanswered : Answered blocking event = false) :
    m.call event (.send taskId blocking k) = m := by
  obtain ⟨t, stored⟩ := Option.isSome_iff_exists.mp serving.stored
  have other : ∀ msg, event ≠ .message msg := by
    rintro msg rfl
    cases unanswered
  rw [call_send stored other, unanswered]
  rfl

theorem Serving.call_first (serving : m.Serving taskId (.send taskId blocking k) false)
    (answered : Answered blocking event = true) :
    ∃ result, AnswerTo (m.call event (.send taskId blocking k)) taskId event result ∧
      (m.call event (.send taskId blocking k)).Serving taskId (.send taskId blocking k) true ∧
      (m.call event (.send taskId blocking k)).emitters =
        m.emitters.modify k (·.emitResult result) := by
  obtain ⟨t, stored⟩ := Option.isSome_iff_exists.mp serving.stored
  by_cases message : ∃ msg, event = .message msg
  · obtain ⟨msg, rfl⟩ := message
    have saved := serving.saveTask t.completed
    obtain ⟨served, emitters, -⟩ := saved.answerOnce_first k (.message msg)
    refine ⟨.message msg, rfl, ?_⟩
    rw [call_send_message stored msg]
    exact ⟨served, emitters⟩
  · have called := @call_send m taskId blocking k event t stored fun msg same => message ⟨msg, same⟩
    rw [answered] at called
    obtain ⟨served, emitters, kept⟩ := serving.answerOnce_first k (.task t)
    rw [called]
    refine ⟨.task t, ?_, served, emitters⟩
    have still : (m.answerOnce taskId k (.task t)).getTask taskId = some t := by
      rw [getTask, kept]
      exact stored
    cases event with
    | message msg => exact absurd ⟨msg, rfl⟩ message
    | _ => exact ⟨t, still, rfl⟩

end TaskManager

/-! ### The execution -/

namespace Execution

variable {x : Execution} {blocking : Bool} {k : Nat} {e : Emitter} {c : UpdaterCall}

/-- No event was answered yet. -/
structure Pending (x : Execution) (blocking : Bool) (k : Nat) (e : Emitter) : Prop where
  serving : x.manager.Serving x.updater.taskId (.send x.updater.taskId blocking k) false
  unreached : x.updater.terminalStateReached = false
  emitter : x.manager.emitters[k]? = some e

/-- No event will be answered any more. -/
structure Settled (x : Execution) (blocking : Bool) (k : Nat) (e : Emitter) : Prop where
  silent : x.manager.info x.updater.taskId = none ∨
    x.manager.Serving x.updater.taskId (.send x.updater.taskId blocking k) true
  emitter : x.manager.emitters[k]? = some e

theorem publish_of_unreached (unreached : x.updater.terminalStateReached = false) :
    x.publish c = ⟨x.manager.process x.updater.taskId (x.updater.event c), x.updater.reached c⟩ := by
  rw [publish, TaskUpdater.ignores_of_fresh unreached]
  rfl

/-- After the answer, a call leaves the emitter as it is. -/
theorem Settled.publish (settled : x.Settled blocking k e) : (x.publish c).Settled blocking k e := by
  rw [Execution.publish]
  split
  · exact settled
  · rcases settled.silent with unregistered | serving
    · have same : x.manager.process x.updater.taskId (x.updater.event c) = x.manager := by
        rw [TaskManager.process, unregistered]
      rw [same]
      refine ⟨.inl ?_, settled.emitter⟩
      rw [TaskUpdater.reached_taskId]
      exact unregistered
    · have published := x.updater.event_published c
      obtain ⟨served, emitters⟩ := (serving.saved published).call_sent (x.updater.event c)
      have kept := emitters.trans (TaskManager.saveTaskEvent_frame serving.stored published).2.2.2
      rw [serving.process published]
      split
      · refine ⟨.inl ?_, ?_⟩
        · rw [TaskUpdater.reached_taskId]
          exact TaskManager.deregister_info _ _
        · exact (congrArg (·[k]?) kept).trans settled.emitter
      · refine ⟨.inr ?_, ?_⟩
        · rw [TaskUpdater.reached_taskId]
          exact served
        · exact (congrArg (·[k]?) kept).trans settled.emitter

theorem Settled.execute (settled : x.Settled blocking k e) (calls : List UpdaterCall) :
    (x.execute calls).Settled blocking k e := by
  induction calls generalizing x with
  | nil => exact settled
  | cons c rest ih => exact ih settled.publish

variable (pending : x.Pending blocking k e)

include pending

theorem Pending.publish_unanswered (unanswered : Answered blocking (x.updater.event c) = false) :
    (x.publish c).Pending blocking k e ∧ (x.publish c).updater = x.updater := by
  have published := x.updater.event_published c
  have open_ : isFinalEvent (x.updater.event c) = false := (Bool.or_eq_false_iff.mp unanswered).1
  have saved := pending.serving.saved published
  rw [publish_of_unreached pending.unreached, TaskUpdater.reached_of_open open_,
    pending.serving.process published, open_, saved.call_unanswered unanswered]
  refine ⟨⟨saved, pending.unreached, ?_⟩, rfl⟩
  exact (congrArg (·[k]?) (TaskManager.saveTaskEvent_frame pending.serving.stored
    published).2.2.2).trans pending.emitter

theorem Pending.publish_answered (answered : Answered blocking (x.updater.event c) = true) :
    ∃ result, AnswerTo (x.publish c).manager x.updater.taskId (x.updater.event c) result ∧
      (x.publish c).Settled blocking k (e.emitResult result) := by
  have published := x.updater.event_published c
  obtain ⟨result, answer, served, emitters⟩ :=
    (pending.serving.saved published).call_first answered
  rw [(TaskManager.saveTaskEvent_frame pending.serving.stored published).2.2.2] at emitters
  have emitted : ((x.manager.saveTaskEvent (x.updater.event c)).call (x.updater.event c)
      (.send x.updater.taskId blocking k)).emitters[k]? = some (e.emitResult result) := by
    rw [emitters, List.getElem?_modify_eq, pending.emitter]
    rfl
  refine ⟨result, ?_⟩
  rw [publish_of_unreached pending.unreached, pending.serving.process published]
  split
  · refine ⟨?_, .inl ?_, emitted⟩
    · cases event : x.updater.event c <;> rw [event] at answer <;> exact answer
    · rw [TaskUpdater.reached_taskId]
      exact TaskManager.deregister_info _ _
  · refine ⟨answer, .inr ?_, emitted⟩
    rw [TaskUpdater.reached_taskId]
    exact served

theorem Pending.execute_unanswered {calls : List UpdaterCall}
    (unanswered : ∀ c ∈ calls, Answered blocking (x.updater.event c) = false) :
    (x.execute calls).Pending blocking k e ∧ (x.execute calls).updater = x.updater := by
  induction calls generalizing x with
  | nil => exact ⟨pending, rfl⟩
  | cons c rest ih =>
    obtain ⟨next, same⟩ := pending.publish_unanswered (unanswered c List.mem_cons_self)
    have later : ∀ d ∈ rest, Answered blocking ((x.publish c).updater.event d) = false := by
      intro d mem
      rw [same]
      exact unanswered d (List.mem_cons_of_mem _ mem)
    obtain ⟨last, same'⟩ := ih next later
    exact ⟨last, same'.trans same⟩

omit pending

/-- The request is pending or settled, and its emitter wrote at most once. -/
def Attended (x : Execution) (blocking : Bool) (k : Nat) : Prop :=
  ∃ e, (x.Pending blocking k e ∨ x.Settled blocking k e) ∧ e.Once

theorem Attended.publish (attended : x.Attended blocking k) : (x.publish c).Attended blocking k := by
  obtain ⟨e, pending | settled, once⟩ := attended
  · cases answered : Answered blocking (x.updater.event c) with
    | false => exact ⟨e, .inl (pending.publish_unanswered answered).1, once⟩
    | true =>
      obtain ⟨result, -, settled⟩ := pending.publish_answered answered
      exact ⟨_, .inr settled, once.emitResult result⟩
  · exact ⟨e, .inr settled.publish, once⟩

theorem Attended.execute (attended : x.Attended blocking k) (calls : List UpdaterCall) :
    (x.execute calls).Attended blocking k := by
  induction calls generalizing x with
  | nil => exact attended
  | cons c rest ih => exact ih attended.publish

theorem emit_getElem {m : TaskManager} (at_k : m.emitters[k]? = some e) (f : Emitter → Emitter) :
    (m.emit k f).emitters[k]? = some (f e) := by
  rw [TaskManager.emit, List.getElem?_modify_eq, at_k]
  rfl

theorem Attended.finish (attended : x.Attended blocking k) (id : Option RequestId)
    (result : Except A2aServerError Unit) :
    (⟨x.manager.finishSend id k result, x.updater⟩ : Execution).Attended blocking k := by
  cases result with
  | ok _ => exact attended
  | error err =>
    obtain ⟨e, pending | settled, once⟩ := attended
    · exact ⟨_, .inl ⟨pending.serving.emit k _, pending.unreached,
        emit_getElem pending.emitter _⟩, once.write _⟩
    · refine ⟨_, .inr ⟨?_, emit_getElem settled.emitter _⟩, once.write _⟩
      exact settled.silent.imp_right fun serving => serving.emit k _

theorem Settled.finish (settled : x.Settled blocking k e) (written : e.kind = .nonStreaming true)
    (id : Option RequestId) (result : Except A2aServerError Unit) :
    (⟨x.manager.finishSend id k result, x.updater⟩ : Execution).Settled blocking k e := by
  cases result with
  | ok _ => exact settled
  | error err =>
    have same : e.writeNonStreamingData (errorResponse id err) = e := by
      rw [Emitter.writeNonStreamingData, written]
    refine ⟨settled.silent.imp_right fun serving => serving.emit k _, ?_⟩
    exact (emit_getElem settled.emitter _).trans (congrArg some same)

end Execution

/-! ### The request -/

section Request

variable {m : TaskManager} {executor : Bool} {params : MessageSendParams} {fresh : FreshIds}
  {id : Option RequestId} {x : Execution}

theorem handleSend_spec (accepted : m.handleSend executor params fresh id = .ok x) :
    x.Pending params.blocking m.emitters.length ⟨id, .nonStreaming false, []⟩ := by
  rw [TaskManager.handleSend, TaskManager.onSendMessage] at accepted
  split at accepted
  · cases accepted
  · rename_i m' taskId task begun
    obtain ⟨⟨i, found, at_i⟩, stored, emitters, -, -⟩ := TaskManager.beginTask_spec begun
    rw [TaskManager.startExecution] at accepted
    split at accepted
    · cases accepted
      have registered : ∃ i, (m'.exchangeMessageSent taskId false).info taskId = some i ∧
          (m'.exchangeMessageSent taskId false).infos[i]? = some ⟨false, []⟩ := by
        refine ⟨i, ?_, ?_⟩
        · rw [TaskManager.info, TaskManager.exchangeMessageSent_taskExecuteMap]
          exact found
        · rw [TaskManager.exchangeMessageSent, found]
          rw [List.getElem?_modify_eq, at_i]
          rfl
      have kept : ((m'.exchangeMessageSent taskId false).getTask taskId).isSome := by
        rw [TaskManager.getTask, TaskManager.exchangeMessageSent_taskStore]
        exact stored
      refine ⟨.start registered kept _, rfl, ?_⟩
      rw [TaskManager.addEventCallback_emitters, TaskManager.exchangeMessageSent_emitters, emitters,
        TaskManager.withEmitter, List.getElem?_concat_length]
    · cases accepted

/-- At most one body is written, with what the first answering event has stored. -/
theorem one_answer_per_send (m : TaskManager) (executor : Bool) (params : MessageSendParams)
    (fresh : FreshIds) (id : Option RequestId) (before : List UpdaterCall)
    (result : Except A2aServerError Unit) (after : List UpdaterCall) :
    (m.sendBodies executor params fresh id before result after).length ≤ 1 ∧
    ∀ x first c rest, m.handleSend executor params fresh id = .ok x →
      before = first ++ c :: rest →
      (∀ c ∈ first, Answered params.blocking (x.updater.event c) = false) →
      Answered params.blocking (x.updater.event c) = true →
      ∃ answer, AnswerTo (x.execute (first ++ [c])).manager x.updater.taskId (x.updater.event c)
          answer ∧
        ∀ r, successResponse id answer.toJsonValue = .ok r →
          m.sendBodies executor params fresh id before result after = [r] := by
  constructor
  · rw [TaskManager.sendBodies]
    split
    · exact Nat.le_refl 1
    · rename_i x accepted
      have start : x.Attended params.blocking m.emitters.length :=
        ⟨_, .inl (handleSend_spec accepted), .inl ⟨rfl, rfl⟩⟩
      obtain ⟨e, state, once⟩ := ((start.execute before).finish id result).execute
        after
      have at_k : (x.serveSend id m.emitters.length before result after).manager.emitters[
          m.emitters.length]? = some e := state.elim (·.emitter) (·.emitter)
      dsimp only
      rw [at_k]
      exact once.length_le
  · rintro x first c rest accepted rfl unanswered answered
    obtain ⟨pending, same⟩ := (handleSend_spec accepted).execute_unanswered unanswered
    rw [← same] at answered
    obtain ⟨answer, answers, settled⟩ := pending.publish_answered answered
    have upTo : x.execute (first ++ [c]) = (x.execute first).publish c := List.foldl_append
    refine ⟨answer, ?_, ?_⟩
    · rw [upTo]
      rw [same] at answers
      exact answers
    · intro r carried
      have written : (⟨id, .nonStreaming false, []⟩ : Emitter).emitResult answer =
          ⟨id, .nonStreaming true, [r]⟩ := by
        rw [Emitter.emitResult, carried]
        rfl
      rw [written] at settled
      have last := ((settled.execute rest).finish rfl id result).execute after
      have whole : ((x.execute first).publish c).execute rest = x.execute (first ++ c :: rest) := by
        rw [Execution.execute, Execution.execute, Execution.execute, List.foldl_append,
          List.foldl_cons]
      rw [whole] at last
      rw [TaskManager.sendBodies, accepted]
      dsimp only
      rw [Execution.serveSend, last.emitter]
      rfl

end Request

/-! A request of a new task. -/

def hello : MessageSendParams := { message := { messageId := "m1" } }

def idle : TaskManager := ⟨.empty, .empty, [], []⟩

def finish (message : Option Message) : UpdaterCall :=
  .updateStatus .completed message none none "now"

def start : UpdaterCall := .updateStatus .working none none none "now"

/-- The executor completes the task and then fails: the one body is the task. -/
theorem one_answer_before_error : ∃ (answer : SendMessageResult) (r : Response),
    successResponse none answer.toJsonValue = .ok r ∧
    idle.sendBodies true hello ⟨"u", "c"⟩ none [start, finish none] (.error (.new "failed")) [] =
      [r] := by
  have accepted : ∃ x, idle.handleSend true hello ⟨"u", "c"⟩ none = .ok x := ⟨_, rfl⟩
  obtain ⟨x, accepted⟩ := accepted
  have unanswered : ∀ c ∈ [start], Answered true (x.updater.event c) = false := by
    intro c mem
    cases List.mem_singleton.mp mem
    rfl
  obtain ⟨answer, answers, written⟩ :=
    (one_answer_per_send idle true hello ⟨"u", "c"⟩ none [start, finish none]
      (.error (.new "failed")) []).2 x [start] (finish none) [] accepted rfl unanswered rfl
  cases accepted
  obtain ⟨t, stored, rfl⟩ := answers
  have sendable : ∃ r, successResponse none (SendMessageResult.task t).toJsonValue = .ok r := by
    cases stored
    exact ⟨_, rfl⟩
  obtain ⟨r, carried⟩ := sendable
  exact ⟨.task t, r, carried, written r carried⟩

/-- A completion whose message has no id cannot be written to the wire, and nothing is. -/
theorem no_answer_without_message_id :
    idle.sendBodies true hello ⟨"u", "c"⟩ none [finish (some { messageId := "" })] (.ok ()) [] =
      [] :=
  rfl

end AgentProtocols.A2A
