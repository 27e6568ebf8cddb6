import AgentProtocols.A2A.Publishing
import AgentProtocols.A2A.Streaming
import Mathlib.Data.List.Infix

/-!
`tasks/resubscribe` beside the events of an executor.

A `Subscriber` is a call of `on_resubscribe_to_task` at a place of its code, and `Server.step` takes
one section of it or of the handler. Two histories go with the state: the `changes` of stored tasks,
and what was written to each stream (`Mirrored`). `Subscriber.Sound` says where the callback is.
-/

namespace AgentProtocols.A2A

open Lib List
open AgentProtocols.MCP (RequestId RpcError Response)

/-! ### The subscribers -/

/-- A subscriber, by the section it is about to enter. -/
inductive Place where
  /-- The read of the task. -/
  | looking
  | emitting (t : Task)
  /-- `add_event_callback`, the lookup and the insertion. -/
  | finding (taskId : String)
  | pushing (i : Nat)
  /-- The callback is registered. -/
  | listening (i : Nat)
  /-- The snapshot was of a final or interrupted task. -/
  | returned
  /-- There was no registration, and the callback was dropped. -/
  | dropped
  /-- There was no task. -/
  | refused

structure Subscriber where
  taskId : String
  emitter : Nat
  place : Place
  seen : Nat
  snapshot : Option Task
  isOpen : Bool
  received : List StreamEvent

/-- A new call of `on_resubscribe_to_task`. -/
def Subscriber.new (taskId : String) (emitter : Nat) : Subscriber :=
  ⟨taskId, emitter, .looking, 0, none, true, []⟩

def Subscriber.isListening (r : Subscriber) : Bool :=
  match r.place with
  | .listening _ => true
  | _ => false

/-- A change of a stored task by an event. -/
inductive Change where
  /-- A status or artifact update was saved. -/
  | updated (e : StreamEvent)
  /-- The task was saved as completed for a response message. -/
  | completed (m : Message)

/-- The change that the next section of a thread makes. -/
def Thread.change : Thread → List (String × Change)
  | saving p _ _ => [(p.taskId, .updated p.event)]
  | completing _ _ taskId _ _ msg _ => [(taskId, .completed msg)]
  | _ => []

/-- The event can be written to the wire. -/
def StreamEvent.isSendable (e : StreamEvent) : Bool := e.toJsonValue.isOk

/-- An event to the stream of a subscriber; a final event closes it. -/
def Subscriber.write (r : Subscriber) (event : StreamEvent) : Subscriber :=
  if r.isOpen then
    { r with
      isOpen := !isFinalEvent event
      received := if event.isSendable then r.received ++ [event] else r.received }
  else r

/-- What an action is to a subscriber: its callback may be called. -/
def Subscriber.hear (a : Action) (r : Subscriber) : Subscriber :=
  match a with
  | .emit k event => if r.emitter = k then r.write event else r
  | _ => r

structure Server where
  handler : Handler
  subscribers : List Subscriber
  changes : List (String × Change)

namespace Server

variable (s : Server)

/-- The next section of a subscriber. -/
def advance (r : Subscriber) : Option (Action × Subscriber) :=
  match r.place with
  | .looking =>
    match s.handler.manager.getTask r.taskId with
    | none => some (.look, { r with place := .refused })
    | some t =>
      some (.look, { r with place := .emitting t, seen := s.changes.length, snapshot := some t })
  | .emitting t =>
    some (.emit r.emitter (.task t),
      { r.write (.task t) with
        place := if isFinalOrInterrupted t.status.state then .returned else .finding t.id })
  | .finding taskId =>
    match s.handler.manager.info taskId with
    | none => some (.look, { r with place := .dropped })
    | some i => some (.look, { r with place := .pushing i })
  | .pushing i => some (.push i (.stream r.emitter), { r with place := .listening i })
  | _ => none

inductive Label where
  | publish (updater : Nat) (call : UpdaterCall)
  /-- The next section of a thread of the handler. -/
  | run (thread : Nat)
  /-- A `tasks/resubscribe` request arrives. -/
  | resubscribe (taskId : String) (id : Option RequestId)
  /-- The next section of a subscriber. -/
  | advance (subscriber : Nat)

/-- One step; undefined where the label names nothing that can happen. -/
def step : Label → Option Server
  | .publish u call => (s.handler.step (.publish u call)).map fun h => { s with handler := h }
  | .run j =>
    s.handler.threads[j]?.bind fun t =>
      (s.handler.runThread t).map fun section_ =>
        { handler :=
            { s.handler.perform section_.1 with threads := s.handler.threads.set j section_.2 }
          subscribers := s.subscribers.map (Subscriber.hear section_.1)
          changes := s.changes ++ t.change }
  | .resubscribe taskId id =>
    some { s with
      handler := { s.handler with
        manager := s.handler.manager.withEmitter ⟨id, .streaming true, []⟩ }
      subscribers := s.subscribers ++ [.new taskId s.handler.manager.emitters.length] }
  | .advance n =>
    s.subscribers[n]?.bind fun r =>
      (s.advance r).map fun section_ =>
        { s with
          handler := s.handler.perform section_.1
          subscribers := s.subscribers.set n section_.2 }

/-- A handler without subscribers. -/
def start (h : Handler) : Server := ⟨h, [], []⟩

def since (r : Subscriber) : List Change :=
  ((s.changes.drop r.seen).filter fun c => c.1 == r.taskId).map Prod.snd

end Server

def Change.update : Change → Option StreamEvent
  | updated e => some e
  | completed _ => none

def Change.next (state : TaskState) : Change → TaskState
  | updated (.statusUpdate e) => e.status.state
  | updated _ => state
  | completed _ => .completed

def StreamEvent.isUpdate : StreamEvent → Bool
  | statusUpdate _ => true
  | artifactUpdate _ => true
  | _ => false

def StreamEvent.tells (state : TaskState) : StreamEvent → Bool
  | task t => t.status.state == state
  | message _ => state == .completed
  | statusUpdate e => e.status.state == state
  | artifactUpdate _ => false

/-! ### What a subscriber has received -/

namespace Subscriber

variable {r : Subscriber} {h : Handler} {a : Action} {event : StreamEvent}

def Mirrored (m : TaskManager) (r : Subscriber) : Prop :=
  ∃ id, m.emitters[r.emitter]? = some ⟨id, .streaming r.isOpen, Emitter.responses id r.received⟩

@[simp] theorem write_emitter : (r.write event).emitter = r.emitter := by
  rw [write]
  split <;> rfl

@[simp] theorem write_taskId : (r.write event).taskId = r.taskId := by
  rw [write]
  split <;> rfl

@[simp] theorem write_seen : (r.write event).seen = r.seen := by
  rw [write]
  split <;> rfl

@[simp] theorem write_snapshot : (r.write event).snapshot = r.snapshot := by
  rw [write]
  split <;> rfl

@[simp] theorem write_place : (r.write event).place = r.place := by
  rw [write]
  split <;> rfl

theorem write_received (isOpen : r.isOpen = true) (sendable : event.isSendable = true) :
    (r.write event).received = r.received ++ [event] := by
  rw [write, if_pos isOpen, if_pos sendable]

theorem received_prefix_write : r.received <+: (r.write event).received := by
  rw [write]
  split
  · split
    · exact prefix_append _ _
    · exact prefix_rfl
  · exact prefix_rfl

theorem hear_cases (a : Action) (r : Subscriber) :
    r.hear a = r ∨ ∃ event, a = .emit r.emitter event ∧ r.hear a = r.write event := by
  cases a with
  | emit k event =>
    rw [hear]
    split
    · rename_i same
      exact .inr ⟨event, by rw [same], rfl⟩
    · exact .inl rfl
  | _ => exact .inl rfl

@[simp] theorem hear_emitter : (r.hear a).emitter = r.emitter := by
  rcases hear_cases a r with same | ⟨event, -, same⟩
  · rw [same]
  · rw [same, write_emitter]

@[simp] theorem hear_taskId : (r.hear a).taskId = r.taskId := by
  rcases hear_cases a r with same | ⟨event, -, same⟩
  · rw [same]
  · rw [same, write_taskId]

@[simp] theorem hear_seen : (r.hear a).seen = r.seen := by
  rcases hear_cases a r with same | ⟨event, -, same⟩
  · rw [same]
  · rw [same, write_seen]

@[simp] theorem hear_snapshot : (r.hear a).snapshot = r.snapshot := by
  rcases hear_cases a r with same | ⟨event, -, same⟩
  · rw [same]
  · rw [same, write_snapshot]

@[simp] theorem hear_place : (r.hear a).place = r.place := by
  rcases hear_cases a r with same | ⟨event, -, same⟩
  · rw [same]
  · rw [same, write_place]

theorem received_prefix_hear : r.received <+: (r.hear a).received := by
  rcases hear_cases a r with same | ⟨event, -, same⟩
  · rw [same]
  · rw [same]
    exact received_prefix_write

theorem emitStream_write (id : Option RequestId) :
    (⟨id, .streaming r.isOpen, Emitter.responses id r.received⟩ : Emitter).emitStream event =
      ⟨id, .streaming (r.write event).isOpen, Emitter.responses id (r.write event).received⟩ := by
  rw [write]
  by_cases isOpen : r.isOpen = true
  · rw [if_pos isOpen, isOpen, Emitter.emitStream_open]
    congr 1
    by_cases sendable : event.isSendable = true
    · rw [if_pos sendable, Emitter.responses, Emitter.responses, Emitter.responses, filterMap_append]
    · rw [if_neg sendable]
      rw [StreamEvent.isSendable] at sendable
      cases found : event.toJsonValue with
      | ok value =>
        rw [found] at sendable
        exact absurd rfl sendable
      | error message => simp [Emitter.responses, found, successResponse, Except.map, Except.toOption]
  · rw [if_neg isOpen]
    rw [Bool.not_eq_true] at isOpen
    rw [isOpen]
    exact @Emitter.fold_emitStream_closed ⟨id, .streaming false, Emitter.responses id r.received⟩ [event]
      rfl

theorem emitResult_streaming {id : Option RequestId} {isOpen : Bool} {written : List Response}
    (result : SendMessageResult) :
    (⟨id, .streaming isOpen, written⟩ : Emitter).emitResult result = ⟨id, .streaming isOpen, written⟩ := by
  rw [Emitter.emitResult]
  split <;> rfl

/-- What an action does to the emitter, the subscriber hears. -/
theorem Mirrored.perform (mirrored : r.Mirrored h.manager) :
    (r.hear a).Mirrored (h.perform a).manager := by
  obtain ⟨id, found⟩ := mirrored
  have exchange : ∀ taskId value,
      (h.manager.exchangeMessageSent taskId value).emitters = h.manager.emitters := by
    intro taskId value
    rw [TaskManager.exchangeMessageSent]
    split <;> rfl
  cases a with
  | emit k event =>
    refine ⟨id, ?_⟩
    rw [hear_emitter]
    change (h.manager.emitters.modify k (·.emitStream event))[r.emitter]? = _
    rw [hear]
    by_cases same : r.emitter = k
    · rw [if_pos same, ← same, getElem?_modify_self found, emitStream_write]
    · rw [if_neg same, getElem?_modify_of_ne (Ne.symm same) found]
  | exchange taskId value => exact ⟨id, (congrArg (·[r.emitter]?) (exchange taskId value)).trans found⟩
  | answer taskId k result =>
    refine ⟨id, ?_⟩
    change (h.manager.answerOnce taskId k result).emitters[r.emitter]? = _
    rw [TaskManager.answerOnce]
    split
    · exact found
    · change ((h.manager.exchangeMessageSent taskId true).emitters.modify k
        (·.emitResult result))[r.emitter]? = _
      rw [exchange]
      by_cases same : r.emitter = k
      · rw [← same, getElem?_modify_self found, emitResult_streaming]
        rfl
      · rw [getElem?_modify_of_ne (Ne.symm same) found]
        rfl
  | _ => exact ⟨id, found⟩

end Subscriber

/-! ### Events on their way -/

/-- The thread will call the callback of the subscriber with the publication. -/
def Thread.Reaching (t : Thread) (r : Subscriber) (p : Publication) : Prop :=
  ∃ cbs, t.remaining = some (p, cbs) ∧ .stream r.emitter ∈ cbs ∧ r.isOpen = true ∧
    p.event.isSendable = true

/-- A saved update whose callbacks are still to be copied, or one on its way to the subscriber. -/
def Thread.Bringing (t : Thread) (r : Subscriber) (p : Publication) : Prop :=
  (∃ i, t = .cloning p i ∧ p.taskId = r.taskId ∧ p.event.isUpdate = true) ∨ t.Reaching r p

theorem Thread.under_of_remaining {t : Thread} {p : Publication} {cbs : List EventCb}
    (copied : t.remaining = some (p, cbs)) : ∃ i, t.under = some (p, i) ∧ t.holds = some i := by
  cases t with
  | calling p' i cbs' =>
    cases copied
    exact ⟨i, rfl, rfl⟩
  | completing p' i id k task msg rest =>
    cases copied
    exact ⟨i, rfl, rfl⟩
  | answering p' i id k result rest =>
    cases copied
    exact ⟨i, rfl, rfl⟩
  | _ => cases copied

namespace Subscriber

variable {r : Subscriber} {reg : String → Option Nat} {h : Handler} {t t' u : Thread} {a : Action}
  {p : Publication} {j k : Nat}

def Placed (reg : String → Option Nat) (h : Handler) (r : Subscriber) : Prop :=
  match r.place with
  | .looking => r.snapshot = none ∧ r.isOpen = true
  | .refused => r.snapshot = none
  | .emitting t => r.snapshot = some t ∧ t.id = r.taskId ∧ r.isOpen = true
  | .finding taskId => taskId = r.taskId
  | .pushing i => reg r.taskId = some i ∧ h.Owner i r.taskId
  | .listening i =>
    reg r.taskId = some i ∧ h.Owner i r.taskId ∧ .stream r.emitter ∈ h.manager.callbacks i
  | _ => True

/-- The callback of a subscriber is where it was registered, and only there. -/
structure Sound (reg : String → Option Nat) (h : Handler) (r : Subscriber) : Prop where
  mirrored : r.Mirrored h.manager
  placed : r.Placed reg h
  callbacks : ∀ i, .stream r.emitter ∈ h.manager.callbacks i → r.place = .listening i
  copied : ∀ t ∈ h.threads, ∀ p cbs, t.remaining = some (p, cbs) → .stream r.emitter ∈ cbs →
    p.taskId = r.taskId ∧ r.isListening = true

theorem Sound.below (sound : r.Sound reg h) : r.emitter < h.manager.emitters.length := by
  obtain ⟨id, found⟩ := sound.mirrored
  exact (List.getElem?_eq_some_iff.mp found).1

theorem isListening_iff : r.isListening = true ↔ ∃ i, r.place = .listening i := by
  constructor
  · intro listening
    rw [isListening] at listening
    split at listening
    · exact ⟨_, ‹_›⟩
    · cases listening
  · rintro ⟨i, place⟩
    rw [isListening, place]

variable (sound : r.Sound reg h)

include sound

theorem Sound.listening (listening : r.isListening = true) :
    ∃ i, r.place = .listening i ∧ reg r.taskId = some i ∧ h.Owner i r.taskId ∧
      .stream r.emitter ∈ h.manager.callbacks i := by
  obtain ⟨i, place⟩ := isListening_iff.mp listening
  have placed := sound.placed
  rw [Placed, place] at placed
  exact ⟨i, place, placed⟩

theorem Sound.under (mem : t ∈ h.threads) (bringing : t.Bringing r p) :
    ∃ i, t.under = some (p, i) ∧ t.holds = some i ∧ p.taskId = r.taskId := by
  rcases bringing with ⟨i, rfl, own, -⟩ | ⟨cbs, copied, there, -⟩
  · exact ⟨i, rfl, rfl, own⟩
  · obtain ⟨i, under, holds⟩ := Thread.under_of_remaining copied
    exact ⟨i, under, holds, (sound.copied t mem p cbs copied there).1⟩

theorem Sound.emits (mem : t ∈ h.threads) {event : StreamEvent}
    (sec : h.Section_ t (.emit r.emitter event) t') :
    ∃ p i rest, t = .calling p i (.stream r.emitter :: rest) ∧ t' = .calling p i rest ∧
      event = p.event ∧ p.taskId = r.taskId ∧ r.isListening = true := by
  obtain ⟨p, i, rest, rfl, rfl, rfl⟩ := sec.emits
  obtain ⟨own, listening⟩ := sound.copied _ mem p _ rfl mem_cons_self
  exact ⟨p, i, rest, rfl, rfl, rfl, own, listening⟩

theorem Sound.hear_of_other (working : h.Working reg)
    (at_j : h.threads[j]? = some t) (sec : h.Section_ t a t') (at_k : h.threads[k]? = some u)
    (other : k ≠ j) (bringing : u.Bringing r p) : r.hear a = r := by
  rcases hear_cases a r with same | ⟨event, rfl, -⟩
  · exact same
  · obtain ⟨q, l, rest, rfl, -, -, own, -⟩ := sound.emits (mem_of_getElem? at_j) sec
    obtain ⟨i, under, holds, own'⟩ := sound.under (mem_of_getElem? at_k) bringing
    exact absurd (working.alone at_k at_j under holds rfl rfl (own'.trans own.symm)) other

theorem Sound.reaching_section (mem : t ∈ h.threads) (sec : h.Section_ t a t')
    (reaching : t.Reaching r p) :
    t'.Reaching (r.hear a) p ∨ (r.hear a).received = r.received ++ [p.event] := by
  obtain ⟨cbs, copied, there, isOpen, sendable⟩ := reaching
  rcases hear_cases a r with same | ⟨event, rfl, heard⟩
  · rcases sec.remaining_of_mem copied there with ⟨cbs', left, there'⟩ | rfl
    · left
      rw [same]
      exact ⟨cbs', left, there', isOpen, sendable⟩
    · right
      rw [hear, if_pos rfl, write_received isOpen sendable]
  · obtain ⟨q, i, rest, rfl, -, rfl, -⟩ := sound.emits mem sec
    cases copied
    right
    rw [heard, write_received isOpen sendable]

theorem Sound.reaching_run (working : h.Working reg)
    (at_j : h.threads[j]? = some t) (sec : h.Section_ t a t') (mem : u ∈ h.threads)
    (reaching : u.Reaching r p) : (∃ v ∈ h.threads.set j t', v.Reaching (r.hear a) p) ∨
      (r.hear a).received = r.received ++ [p.event] := by
  obtain ⟨k, at_k⟩ := getElem?_of_mem mem
  by_cases same : k = j
  · subst same
    cases at_j.symm.trans at_k
    rcases sound.reaching_section mem sec reaching with next | arrived
    · exact .inl ⟨t', mem_set_of_getElem? at_j, next⟩
    · exact .inr arrived
  · left
    refine ⟨u, mem_of_getElem? ((getElem?_set_ne (Ne.symm same)).trans at_k), ?_⟩
    rw [sound.hear_of_other working at_j sec at_k same (.inr reaching)]
    exact reaching

theorem Sound.bringing_run (working : h.Working reg)
    (at_j : h.threads[j]? = some t) (sec : h.Section_ t a t')
    (covered : ∀ i, t = .cloning p i → p.taskId = r.taskId → p.event.isUpdate = true →
      r.isListening = true ∧ r.isOpen = true ∧ p.event.isSendable = true)
    (mem : u ∈ h.threads) (bringing : u.Bringing r p) :
    (∃ v ∈ h.threads.set j t', v.Bringing (r.hear a) p) ∨
      (r.hear a).received = r.received ++ [p.event] := by
  rcases bringing with ⟨i, rfl, own, update⟩ | reaching
  · obtain ⟨k, at_k⟩ := getElem?_of_mem mem
    by_cases same : k = j
    · subst same
      cases at_j.symm.trans at_k
      obtain ⟨listening, isOpen, sendable⟩ := covered i rfl own update
      obtain ⟨l, -, registered, -, there⟩ := sound.listening listening
      -- the info of the publication is the one of the subscriber
      have info := working.under _ mem p i rfl
      rw [own, registered] at info
      cases info
      cases sec with
      | outside before => cases before
      | copy =>
        left
        exact ⟨_, mem_set_of_getElem? at_j, .inr ⟨_, rfl, there, isOpen, sendable⟩⟩
    · left
      refine ⟨.cloning p i,
        mem_of_getElem? ((getElem?_set_ne (Ne.symm same)).trans at_k), .inl ⟨i, rfl, ?_⟩⟩
      rw [hear_taskId]
      exact ⟨own, update⟩
  · rcases sound.reaching_run working at_j sec mem reaching with ⟨v, there, next⟩ | arrived
    · exact .inl ⟨v, there, .inr next⟩
    · exact .inr arrived

theorem Sound.run (working : h.Working reg) (at_j : h.threads[j]? = some t)
    (sec : h.Section_ t a t') :
    (r.hear a).Sound reg { h.perform a with threads := h.threads.set j t' } where
  mirrored := sound.mirrored.perform
  placed := by
    have there := mem_of_getElem? at_j
    -- who is yet to register is not called
    have quiet : r.isListening = false → r.hear a = r := by
      intro idle
      rcases hear_cases a r with same | ⟨event, rfl, -⟩
      · exact same
      · obtain ⟨-, -, -, -, -, -, -, listening⟩ := sound.emits there sec
        cases idle.symm.trans listening
    have ext := Handler.extends_perform h a
    have placed := sound.placed
    rw [Placed] at placed ⊢
    rw [hear_place, hear_snapshot, hear_taskId, hear_emitter]
    cases place : r.place with
    | looking =>
      rw [place] at placed
      rw [quiet (by rw [isListening, place])]
      exact placed
    | emitting task =>
      rw [place] at placed
      rw [quiet (by rw [isListening, place])]
      exact placed
    | pushing i =>
      rw [place] at placed
      exact ⟨placed.1, ext.owner _ _ placed.2⟩
    | listening i =>
      rw [place] at placed
      refine ⟨placed.1, ext.owner _ _ placed.2.1, ?_⟩
      change _ ∈ (h.perform a).manager.callbacks i
      rw [sec.callbacks]
      exact placed.2.2
    | _ =>
      rw [place] at placed
      exact placed
  callbacks i mem := by
    rw [hear_emitter] at mem
    change _ ∈ (h.perform a).manager.callbacks i at mem
    rw [sec.callbacks] at mem
    rw [hear_place]
    exact sound.callbacks i mem
  copied u mem q cbs copied there := by
    rw [hear_emitter] at there
    rw [hear_taskId, isListening, hear_place]
    rcases mem_or_eq_of_mem_set mem with old | rfl
    · exact sound.copied u old q cbs copied there
    · have was := mem_of_getElem? at_j
      rcases sec.remaining copied with ⟨cbs', before, sub⟩ | ⟨i, rfl, rfl⟩
      · exact sound.copied t was q cbs' before (sub _ there)
      · have place := sound.callbacks i there
        have listening := isListening_iff.mpr ⟨i, place⟩
        obtain ⟨l, place', -, owner, -⟩ := sound.listening listening
        cases place.symm.trans place'
        obtain ⟨-, -, owner'⟩ := working.sound.threads _ was
        exact ⟨Option.some.inj (owner'.symm.trans owner), listening⟩

omit sound

/-! #### A section of a subscriber -/

theorem callbacks_of_subscribes {i : Nat} {cb : EventCb} (sub : Handler.Subscribes k a)
    (mem : cb ∈ h.manager.callbacks i) : cb ∈ (h.perform a).manager.callbacks i := by
  cases sub with
  | push l =>
    rw [TaskManager.callbacks] at mem ⊢
    cases found : h.manager.infos[i]? with
    | none =>
      rw [found] at mem
      cases mem
    | some info =>
      rw [found] at mem
      change cb ∈ ((h.manager.infos.modify l _)[i]?.map TaskExecuteInfo.eventCb).getD []
      by_cases same : l = i
      · rw [same, getElem?_modify_self found]
        exact mem_append_left _ mem
      · rw [getElem?_modify_of_ne same found]
        exact mem
  | _ => exact mem

theorem callbacks_push {i : Nat} {cb : EventCb} (below : i < h.manager.infos.length) :
    cb ∈ (h.perform (.push i cb)).manager.callbacks i := by
  change cb ∈ ((h.manager.infos.modify i _)[i]?.map TaskExecuteInfo.eventCb).getD []
  rw [getElem?_modify_self (getElem?_eq_getElem below)]
  exact mem_append_right _ mem_cons_self

include sound

theorem Sound.of_subscribes (sub : Handler.Subscribes k a)
    (other : r.emitter ≠ k) : r.Sound reg (h.perform a) where
  mirrored := by
    have heard := sound.mirrored.perform (a := a)
    rcases hear_cases a r with same | ⟨event, rfl, -⟩
    · rw [same] at heard
      exact heard
    · cases sub
      exact absurd rfl other
  placed := by
    have placed := sound.placed
    rw [Placed] at placed ⊢
    cases place : r.place with
    | pushing i =>
      rw [place] at placed
      exact ⟨placed.1, (Handler.extends_perform h a).owner _ _ placed.2⟩
    | listening i =>
      rw [place] at placed
      exact ⟨placed.1, (Handler.extends_perform h a).owner _ _ placed.2.1,
        callbacks_of_subscribes sub placed.2.2⟩
    | _ =>
      rw [place] at placed
      exact placed
  callbacks i mem := by
    rcases Handler.perform_callbacks a mem with old | rfl
    · exact sound.callbacks i old
    · cases sub
      exact absurd rfl other
  copied t mem := by
    have there : t ∈ h.threads := by
      cases sub <;> exact mem
    exact sound.copied t there

theorem Sound.not_copied (idle : r.isListening = false) {t : Thread}
    (mem : t ∈ h.threads) {p : Publication} {cbs : List EventCb} (copied : t.remaining = some (p, cbs)) :
    .stream r.emitter ∉ cbs := by
  intro there
  cases idle.symm.trans (sound.copied t mem p cbs copied there).2

theorem Sound.not_reaching (idle : r.isListening = false) {t : Thread}
    (mem : t ∈ h.threads) {p : Publication} : ¬ t.Reaching r p := by
  rintro ⟨cbs, copied, there, -⟩
  exact sound.not_copied idle mem copied there

omit sound

end Subscriber

namespace Server

variable {s : Server} {r r' : Subscriber} {reg : String → Option Nat} {a : Action}

/-- The sections of a subscriber: the subscriber before, the action, the subscriber after. -/
inductive Advances (s : Server) (r : Subscriber) : Action → Subscriber → Prop where
  | refuse (place : r.place = .looking) : Advances s r .look { r with place := .refused }
  | read (t : Task) (place : r.place = .looking)
      (found : s.handler.manager.getTask r.taskId = some t) :
      Advances s r .look
        { r with place := .emitting t, seen := s.changes.length, snapshot := some t }
  | emit (t : Task) (next : Place) (place : r.place = .emitting t)
      (later : next = .returned ∨ next = .finding t.id) :
      Advances s r (.emit r.emitter (.task t)) { r.write (.task t) with place := next }
  | drop (taskId : String) (place : r.place = .finding taskId) :
      Advances s r .look { r with place := .dropped }
  | find (taskId : String) (i : Nat) (place : r.place = .finding taskId)
      (found : s.handler.manager.info taskId = some i) :
      Advances s r .look { r with place := .pushing i }
  | push (i : Nat) (place : r.place = .pushing i) :
      Advances s r (.push i (.stream r.emitter)) { r with place := .listening i }

theorem advances_of_advance {r' : Subscriber} (advanced : s.advance r = some (a, r')) :
    s.Advances r a r' := by
  rw [advance] at advanced
  split at advanced
  · rename_i place
    split at advanced
    · cases advanced
      exact .refuse place
    · cases advanced
      exact .read _ place ‹_›
  · rename_i t place
    cases advanced
    refine .emit t _ place ?_
    split
    · exact .inl rfl
    · exact .inr rfl
  · rename_i place
    split at advanced
    · cases advanced
      exact .drop _ place
    · cases advanced
      exact .find _ _ place ‹_›
  · rename_i place
    cases advanced
    exact .push _ place
  · cases advanced

namespace Advances

variable (adv : s.Advances r a r')

include adv

theorem subscribes : Handler.Subscribes r.emitter a := by
  cases adv with
  | emit t next place later => exact .emit _
  | push i place => exact .push i
  | _ => exact .look

theorem emitter_eq : r'.emitter = r.emitter := by
  cases adv with
  | emit t next place later => exact Subscriber.write_emitter
  | _ => rfl

theorem mirrored (mirrored : r.Mirrored s.handler.manager) :
    r'.Mirrored (s.handler.perform a).manager := by
  cases adv with
  | emit t next place later =>
    have heard := mirrored.perform (a := .emit r.emitter (.task t))
    rw [Subscriber.hear, if_pos rfl] at heard
    exact heard
  | push i place => exact mirrored.perform (a := .push i (.stream r.emitter))
  | _ => exact mirrored

theorem idle : r.isListening = false := by
  rw [Subscriber.isListening]
  cases adv with
  | refuse place => rw [place]
  | read t place found => rw [place]
  | emit t next place later => rw [place]
  | drop taskId place => rw [place]
  | find taskId i place found => rw [place]
  | push i place => rw [place]

omit adv

end Advances

theorem Advances.sound (adv : s.Advances r a r') (sound : r.Sound reg s.handler)
    (working : s.handler.Working reg) : r'.Sound reg (s.handler.perform a) where
  mirrored := adv.mirrored sound.mirrored
  placed := by
    have placed := sound.placed
    rw [Subscriber.Placed] at placed
    cases adv with
    | refuse place =>
      rw [place] at placed
      exact placed.1
    | read t place found =>
      rw [place] at placed
      exact ⟨rfl, working.sound.keyed _ _ found, placed.2⟩
    | emit t next place later =>
      rw [place] at placed
      rcases later with rfl | rfl
      · trivial
      · exact placed.2.1.trans Subscriber.write_taskId.symm
    | drop taskId place => trivial
    | find taskId i place found =>
      rw [place] at placed
      cases show taskId = r.taskId from placed
      exact ⟨working.registered _ _ found, working.sound.owner _ _ found⟩
    | push i place =>
      rw [place] at placed
      exact ⟨placed.1, placed.2, Subscriber.callbacks_push (Handler.Owner.lt working.sound placed.2)⟩
  callbacks i mem := by
    rw [adv.emitter_eq] at mem
    rcases Handler.perform_callbacks a mem with old | rfl
    · have listening := Subscriber.isListening_iff.mpr ⟨i, sound.callbacks i old⟩
      cases adv.idle.symm.trans listening
    · cases adv with
      | push i place => rfl
  copied t mem p cbs copied there := by
    have mem' : t ∈ s.handler.threads := by
      cases adv.subscribes <;> exact mem
    rw [adv.emitter_eq] at there
    exact absurd there (sound.not_copied adv.idle mem' copied)

end Server

end AgentProtocols.A2A
