import AgentProtocols.A2A.Resubscription

/-!
What a subscriber misses: events between its read of the snapshot and its registration, events
after a final one, and events that cannot be written.

`Server.covered` says that a step does none of this, and then nothing is missed
(`Server.nothing_missed`; the invariant is `Server.Informed`). `Sample.completion_missed` is a run
that misses the last event.
-/

namespace AgentProtocols.A2A

open Lib List
open AgentProtocols.MCP (RequestId RpcError Response)

namespace Handler

variable {h : Handler} {t t' : Thread} {a : Action}

/-- A section changes the stored task for an event, for a response message, or not at all. -/
theorem Section_.change (sec : h.Section_ t a t') (ok : t.Ok h) :
    (t.change = [] ∧ ∀ task, a ≠ .save task) ∨
      (∃ p i task, t = .saving p i task ∧ a = .save (task.applyUpdate p.event) ∧ t' = .cloning p i ∧
        IsUpdate p.taskId p.event ∧ task.id = p.taskId) ∨
      ∃ p i k task msg rest, t = .completing p i p.taskId k task msg rest ∧
        a = .save task.completed ∧ t' = .answering p i p.taskId k (.message msg) rest ∧
        p.event = .message msg ∧ task.id = p.taskId := by
  cases sec with
  | outside before free after registered copied harmless =>
    left
    constructor
    · cases t with
      | saving p i task => cases free
      | completing p i id k task msg rest => cases free
      | _ => rfl
    · rintro task rfl
      rcases harmless with clash | ⟨u, clash⟩ <;> cases clash
  | save p i task =>
    obtain ⟨-, -, -, update, own⟩ := ok
    exact .inr (.inl ⟨p, i, task, rfl, rfl, rfl, update, own⟩)
  | saveCompleted p i id k task msg rest =>
    obtain ⟨-, -, -, -, rfl, own, event⟩ := ok
    exact .inr (.inr ⟨p, i, k, task, msg, rest, rfl, rfl, rfl, event, own⟩)
  | finish p i a leaves =>
    refine .inl ⟨rfl, ?_⟩
    rintro task rfl
    rcases leaves with clash | clash <;> cases clash
  | _ => exact .inl ⟨rfl, fun task clash => by cases clash⟩

end Handler

theorem applyUpdate_state {id : String} {event : StreamEvent} (task : Task) (update : IsUpdate id event) :
    (task.applyUpdate event).status.state = Change.next task.status.state (.updated event) := by
  cases event with
  | statusUpdate e => rfl
  | artifactUpdate e => exact congrArg TaskStatus.state (appendArtifactToTask_status task e)
  | message m => exact update.elim
  | task t => exact update.elim

theorem IsUpdate.isUpdate {id : String} {event : StreamEvent} (update : IsUpdate id event) :
    event.isUpdate = true := by
  cases event with
  | statusUpdate e => rfl
  | artifactUpdate e => rfl
  | message m => exact update.elim
  | task t => exact update.elim

/-! ### What a subscriber knows -/

namespace Server

variable {s s' : Server} {r : Subscriber} {snap : Task} {reg : String → Option Nat} {t t' : Thread}
  {a : Action} {j : Nat}

/-- The updates of its task since a subscriber read it. -/
def updatesSince (s : Server) (r : Subscriber) : List StreamEvent := (s.since r).filterMap Change.update

/-- What the next section of a thread does reaches the subscribers that have read the task. -/
def reaches (s : Server) : Thread → Bool
  | .cloning p _ =>
    !p.event.isUpdate || s.subscribers.all fun r =>
      r.taskId != p.taskId || r.snapshot.isNone || (s.since r).isEmpty ||
        (r.isListening && r.isOpen && p.event.isSendable)
  | .completing p _ taskId _ _ _ rest =>
    s.subscribers.all fun r =>
      r.taskId != taskId || r.snapshot.isNone || r.snapshot.any (·.status.state == .completed) ||
        r.received.any (·.tells .completed) ||
        (rest.contains (.stream r.emitter) && r.isOpen && p.event.isSendable)
  | _ => true

/-- What a step does reaches the subscribers, snapshots included. -/
def covered (s : Server) : Label → Bool
  | .run j => s.handler.threads[j]?.all s.reaches
  | .advance n => s.subscribers[n]?.all fun r =>
    match r.place with
    | .emitting t => (StreamEvent.task t).isSendable
    | _ => true
  | _ => true

theorem reaches_cloning {p : Publication} {i : Nat} (reaches : s.reaches (.cloning p i) = true)
    (mem : r ∈ s.subscribers) (own : p.taskId = r.taskId) (update : p.event.isUpdate = true)
    (snapshot : r.snapshot = some snap) (changed : s.since r ≠ []) :
    r.isListening = true ∧ r.isOpen = true ∧ p.event.isSendable = true := by
  rw [Server.reaches, update, Bool.not_true, Bool.false_or, all_eq_true] at reaches
  have here := reaches r mem
  simpa [own, snapshot, changed, and_assoc] using here

theorem reaches_completing {p : Publication} {i k : Nat} {task : Task} {msg : Message}
    {rest : List EventCb} (reaches : s.reaches (.completing p i r.taskId k task msg rest) = true)
    (mem : r ∈ s.subscribers) (snapshot : r.snapshot = some snap) :
    snap.status.state = .completed ∨ (∃ e ∈ r.received, e.tells .completed = true) ∨
      (.stream r.emitter ∈ rest ∧ r.isOpen = true ∧ p.event.isSendable = true) := by
  rw [Server.reaches, all_eq_true] at reaches
  have here := reaches r mem
  simpa [snapshot, and_assoc, or_assoc] using here

theorem since_congr {r' : Subscriber} (changes : s'.changes = s.changes) (seen : r'.seen = r.seen)
    (taskId : r'.taskId = r.taskId) : s'.since r' = s.since r := by
  rw [since, since, changes, seen, taskId]

theorem since_append {r' : Subscriber} {cs : List (String × Change)}
    (changes : s'.changes = s.changes ++ cs) (seen : r'.seen = r.seen) (taskId : r'.taskId = r.taskId)
    (read : r.seen ≤ s.changes.length) :
    s'.since r' = s.since r ++ (cs.filter fun c => c.1 == r.taskId).map Prod.snd := by
  rw [since, since, changes, seen, taskId, drop_append_of_le_length read, filter_append,
    map_append]

/-- A subscriber has received every update since its read, up to one that is on its way. -/
structure Informed (s : Server) (r : Subscriber) (snap : Task) : Prop where
  seen : r.seen ≤ s.changes.length
  emitted : r.place = .emitting snap ∨ .task snap ∈ r.received
  state : ∃ t, s.handler.manager.getTask r.taskId = some t ∧
    t.status.state = (s.since r).foldl Change.next snap.status.state
  updates : (s.updatesSince r).Sublist r.received ∨
    ∃ t ∈ s.handler.threads, ∃ p, t.Bringing r p ∧ (s.updatesSince r).Sublist (r.received ++ [p.event])
  completed : ∀ msg, .completed msg ∈ s.since r → snap.status.state = .completed ∨
    (∃ e ∈ r.received, e.tells .completed = true) ∨
    ∃ t ∈ s.handler.threads, ∃ p msg', t.Reaching r p ∧ p.event = .message msg'

theorem Informed.mono (informed : s.Informed r snap) (changes : s'.changes = s.changes)
    (getTask : ∀ id, s'.handler.manager.getTask id = s.handler.manager.getTask id)
    (threads : ∀ t ∈ s.handler.threads, t ∈ s'.handler.threads) : s'.Informed r snap := by
  have same : s'.since r = s.since r := since_congr changes rfl rfl
  refine ⟨?_, informed.emitted, ?_, ?_, ?_⟩
  · rw [changes]
    exact informed.seen
  · rw [getTask, same]
    exact informed.state
  · rw [updatesSince, same]
    rcases informed.updates with sub | ⟨t, mem, bringing⟩
    · exact .inl sub
    · exact .inr ⟨t, threads t mem, bringing⟩
  · intro msg mem
    rw [same] at mem
    rcases informed.completed msg mem with known | told | ⟨t, there, reaching⟩
    · exact .inl known
    · exact .inr (.inl told)
    · exact .inr (.inr ⟨t, threads t there, reaching⟩)

/-! #### A section of a thread -/

open Subscriber

def after (s : Server) (j : Nat) (t : Thread) (a : Action) (t' : Thread) : Server where
  handler := { s.handler.perform a with threads := s.handler.threads.set j t' }
  subscribers := s.subscribers.map (hear a)
  changes := s.changes ++ t.change

variable {h : Handler}

theorem getTask_of_no_save {id : String} (noSave : ∀ task, a ≠ .save task) :
    (h.perform a).manager.getTask id = h.manager.getTask id := by
  rw [Handler.perform_getTask]
  split
  · exact absurd rfl (noSave _)
  · rfl

theorem getTask_of_save {id : String} (task : Task) : (h.perform (.save task)).manager.getTask id =
      if id = task.id then some task else h.manager.getTask id :=
  Handler.perform_getTask (.save task)

theorem since_after (read : r.seen ≤ s.changes.length) :
    (s.after j t a t').since (r.hear a) =
      s.since r ++ (t.change.filter fun c => c.1 == r.taskId).map Prod.snd :=
  since_append rfl hear_seen hear_taskId read

theorem Informed.state_after (informed : s.Informed r snap) (working : s.handler.Working reg)
    (at_j : s.handler.threads[j]? = some t) (sec : s.handler.Section_ t a t') :
    ∃ task, (s.after j t a t').handler.manager.getTask r.taskId = some task ∧
      task.status.state = ((s.after j t a t').since (r.hear a)).foldl Change.next snap.status.state := by
  have mem := mem_of_getElem? at_j
  have current := working.current t mem
  obtain ⟨before, found, state⟩ := informed.state
  rw [since_after informed.seen]
  change ∃ task, (s.handler.perform a).manager.getTask r.taskId = some task ∧ _
  rcases sec.change (working.sound.threads t mem) with ⟨none_, noSave⟩ |
    ⟨p, i, task, rfl, rfl, -, update, own⟩ | ⟨p, i, k, task, msg, rest, rfl, rfl, -, -, own⟩
  · refine ⟨before, (getTask_of_no_save noSave).trans found, ?_⟩
    rw [none_, filter_nil, map_nil, append_nil, state]
  · rw [getTask_of_save, TaskManager.applyUpdate_id, own]
    by_cases same : r.taskId = p.taskId
    · rw [if_pos same]
      rw [same, show s.handler.manager.getTask p.taskId = some task from current] at found
      cases found
      refine ⟨_, rfl, ?_⟩
      rw [applyUpdate_state before update, state, Thread.change, same]
      simp
    · rw [if_neg same]
      refine ⟨before, found, ?_⟩
      rw [Thread.change, filter_singleton, beq_eq_false_iff_ne.mpr (Ne.symm same), state]
      simp
  · rw [getTask_of_save, show task.completed.id = p.taskId from own]
    by_cases same : r.taskId = p.taskId
    · rw [if_pos same]
      refine ⟨_, rfl, ?_⟩
      rw [Thread.change, same]
      simp [Change.next, Task.completed]
    · rw [if_neg same]
      refine ⟨before, found, ?_⟩
      rw [Thread.change, filter_singleton, beq_eq_false_iff_ne.mpr (Ne.symm same), state]
      simp

theorem updates_remain (informed : s.Informed r snap) (sound : r.Sound reg s.handler)
    (working : s.handler.Working reg) (at_j : s.handler.threads[j]? = some t)
    (sec : s.handler.Section_ t a t') (mem : r ∈ s.subscribers) (snapshot : r.snapshot = some snap)
    (reaches : s.reaches t = true) :
    (s.updatesSince r).Sublist (r.hear a).received ∨
      ∃ u ∈ s.handler.threads.set j t', ∃ p, u.Bringing (r.hear a) p ∧
        (s.updatesSince r).Sublist ((r.hear a).received ++ [p.event]) := by
  have more : r.received.Sublist (r.hear a).received := received_prefix_hear.sublist
  by_cases unchanged : s.since r = []
  · left
    rw [updatesSince, unchanged]
    exact nil_sublist _
  · rcases informed.updates with sub | ⟨u, there, p, bringing, sub⟩
    · exact .inl (sub.trans more)
    · have copied : ∀ i, t = .cloning p i → p.taskId = r.taskId → p.event.isUpdate = true →
          r.isListening = true ∧ r.isOpen = true ∧ p.event.isSendable = true := by
        rintro i rfl own update
        exact reaches_cloning reaches mem own update snapshot unchanged
      rcases sound.bringing_run working at_j sec copied there bringing with ⟨v, there', next⟩ | arrived
      · exact .inr ⟨v, there', p, next, sub.trans (more.append (List.Sublist.refl _))⟩
      · left
        rw [arrived]
        exact sub

theorem Informed.updates_after (informed : s.Informed r snap) (sound : r.Sound reg s.handler)
    (working : s.handler.Working reg) (at_j : s.handler.threads[j]? = some t)
    (sec : s.handler.Section_ t a t') (mem : r ∈ s.subscribers) (snapshot : r.snapshot = some snap)
    (reaches : s.reaches t = true) :
    ((s.after j t a t').updatesSince (r.hear a)).Sublist (r.hear a).received ∨
      ∃ u ∈ (s.after j t a t').handler.threads, ∃ p, u.Bringing (r.hear a) p ∧
        ((s.after j t a t').updatesSince (r.hear a)).Sublist ((r.hear a).received ++ [p.event]) := by
  have there := mem_of_getElem? at_j
  have kept := updates_remain informed sound working at_j sec mem snapshot reaches
  rw [updatesSince, since_after informed.seen, filterMap_append]
  rcases sec.change (working.sound.threads t there) with ⟨none_, -⟩ |
    ⟨p, i, task, rfl, rfl, rfl, update, own⟩ | ⟨p, i, k, task, msg, rest, rfl, rfl, -, -, own⟩
  · rw [none_, filter_nil, map_nil, filterMap_nil, append_nil]
    exact kept
  · rw [Thread.change, filter_singleton]
    by_cases same : p.taskId = r.taskId
    · -- nothing else is on its way, so the subscriber has everything up to this update
      have all : (s.updatesSince r).Sublist r.received := by
        rcases informed.updates with sub | ⟨u, there', q, bringing, -⟩
        · exact sub
        · obtain ⟨k, at_k⟩ := getElem?_of_mem there'
          obtain ⟨l, under, holds, own'⟩ := sound.under there' bringing
          have here := working.alone at_k at_j under holds rfl rfl (own'.trans same.symm)
          subst here
          cases at_j.symm.trans at_k
          rcases bringing with ⟨l, clash, -⟩ | ⟨cbs, clash, -⟩ <;> cases clash
      right
      refine ⟨.cloning p i, mem_set_of_getElem? at_j, p, .inl ⟨i, rfl, same, update.isUpdate⟩, ?_⟩
      rw [same, beq_self_eq_true]
      exact all.append (List.Sublist.refl _)
    · rw [beq_eq_false_iff_ne.mpr same, cond_false, map_nil, filterMap_nil, append_nil]
      exact kept
  · have none_ : (((Thread.completing p i p.taskId k task msg rest).change.filter
        fun c => c.1 == r.taskId).map Prod.snd).filterMap Change.update = [] := by
      rw [Thread.change, filter_singleton]
      cases p.taskId == r.taskId <;> rfl
    rw [none_, append_nil]
    exact kept

theorem Informed.completed_after (informed : s.Informed r snap) (sound : r.Sound reg s.handler)
    (working : s.handler.Working reg) (at_j : s.handler.threads[j]? = some t)
    (sec : s.handler.Section_ t a t') (mem : r ∈ s.subscribers) (snapshot : r.snapshot = some snap)
    (reaches : s.reaches t = true) (msg : Message)
    (saved : .completed msg ∈ (s.after j t a t').since (r.hear a)) :
    snap.status.state = .completed ∨ (∃ e ∈ (r.hear a).received, e.tells .completed = true) ∨
      ∃ u ∈ (s.after j t a t').handler.threads, ∃ p msg', u.Reaching (r.hear a) p ∧
        p.event = .message msg' := by
  have there := mem_of_getElem? at_j
  have more : ∀ e ∈ r.received, e ∈ (r.hear a).received :=
    fun e => received_prefix_hear.sublist.subset (a := e)
  rw [since_after informed.seen, mem_append] at saved
  rcases saved with before | now
  · rcases informed.completed msg before with known | ⟨e, received, tells⟩ |
      ⟨u, there', p, msg', reaching, event⟩
    · exact .inl known
    · exact .inr (.inl ⟨e, more e received, tells⟩)
    · rcases sound.reaching_run working at_j sec there' reaching with ⟨v, there'', next⟩ | arrived
      · exact .inr (.inr ⟨v, there'', p, msg', next, event⟩)
      · refine .inr (.inl ⟨p.event, ?_, ?_⟩)
        · rw [arrived]
          exact mem_append_right _ mem_cons_self
        · rw [event]
          rfl
  · rcases sec.change (working.sound.threads t there) with ⟨none_, -⟩ |
      ⟨p, i, task, rfl, rfl, rfl, update, own⟩ | ⟨p, i, k, task, msg', rest, rfl, rfl, rfl, event, own⟩
    · rw [none_] at now
      cases now
    · obtain ⟨c, kept, clash⟩ := mem_map.mp now
      cases mem_singleton.mp (mem_filter.mp kept).1
      cases clash
    · obtain ⟨c, kept, -⟩ := mem_map.mp now
      obtain ⟨single, same⟩ := mem_filter.mp kept
      cases mem_singleton.mp single
      replace same : p.taskId = r.taskId := beq_iff_eq.mp same
      rw [same] at reaches
      rcases reaches_completing reaches mem snapshot with known | told | ⟨copied, isOpen, sendable⟩
      · exact .inl known
      · exact .inr (.inl told)
      · exact .inr (.inr ⟨_, mem_set_of_getElem? at_j, p, msg', ⟨rest, rfl, copied, isOpen, sendable⟩,
          event⟩)

theorem Informed.run (informed : s.Informed r snap) (sound : r.Sound reg s.handler)
    (working : s.handler.Working reg) (at_j : s.handler.threads[j]? = some t)
    (sec : s.handler.Section_ t a t') (mem : r ∈ s.subscribers) (snapshot : r.snapshot = some snap)
    (reaches : s.reaches t = true) : (s.after j t a t').Informed (r.hear a) snap where
  seen := by
    rw [hear_seen]
    refine Nat.le_trans informed.seen ?_
    rw [after, length_append]
    exact Nat.le_add_right _ _
  emitted := by
    rw [hear_place]
    exact informed.emitted.imp_right fun received =>
      received_prefix_hear.sublist.subset received
  state := by
    rw [hear_taskId]
    exact informed.state_after working at_j sec
  updates := informed.updates_after sound working at_j sec mem snapshot reaches
  completed := informed.completed_after sound working at_j sec mem snapshot reaches

/-! #### A section of a subscriber -/

theorem Advances.informed (adv : s.Advances r a r') (sound : r.Sound reg s.handler)
    (informed : ∀ t, r.snapshot = some t → s.Informed r t)
    (sendable : ∀ t, r.place = .emitting t → (StreamEvent.task t).isSendable = true)
    (changes : s'.changes = s.changes) (handler : s'.handler = s.handler.perform a)
    (snapshot : r'.snapshot = some snap) : s'.Informed r' snap := by
  have threads : ∀ t ∈ s.handler.threads, t ∈ s'.handler.threads := by
    rw [handler]
    cases adv.subscribes <;> exact fun t mem => mem
  have getTask : ∀ id, s'.handler.manager.getTask id = s.handler.manager.getTask id := by
    rw [handler]
    exact fun id => adv.subscribes.getTask
  -- a subscriber that moves on without an event
  have moved : ∀ next, (∀ t, r.place ≠ .emitting t) → r.snapshot = some snap →
      s'.Informed { r with place := next } snap := by
    intro next past snapshot
    have same := (informed snap snapshot).mono changes getTask threads
    exact ⟨same.seen, .inr (same.emitted.resolve_left (past snap)), same.state, same.updates,
      same.completed⟩
  cases adv with
  | refuse place =>
    have placed := sound.placed
    rw [Subscriber.Placed, place] at placed
    cases placed.1.symm.trans snapshot
  | read t place found =>
    obtain rfl : t = snap := Option.some.inj snapshot
    have nothing : s'.since { r with place := .emitting t, seen := s.changes.length, snapshot := some t }
        = [] := by
      rw [since, changes, drop_length]
      rfl
    refine ⟨?_, .inl rfl, ⟨t, (getTask _).trans found, ?_⟩, .inl ?_, ?_⟩
    · rw [changes]
    · rw [nothing]
      rfl
    · rw [updatesSince, nothing]
      exact nil_sublist _
    · intro msg mem
      rw [nothing] at mem
      cases mem
  | emit t next place later =>
    have placed := sound.placed
    rw [Subscriber.Placed, place] at placed
    obtain ⟨held, own, isOpen⟩ := placed
    obtain rfl : t = snap :=
      Option.some.inj (held.symm.trans (write_snapshot.symm.trans snapshot))
    have before := informed t held
    have received : (r.write (.task t)).received = r.received ++ [.task t] :=
      write_received isOpen (sendable t place)
    have same : s'.since { r.write (.task t) with place := next } = s.since r :=
      since_congr changes write_seen write_taskId
    have idle : r.isListening = false := by
      rw [isListening, place]
    refine ⟨?_, .inr ?_, ?_, ?_, ?_⟩
    · rw [show ({ r.write (.task t) with place := next } : Subscriber).seen = r.seen from
        write_seen, changes]
      exact before.seen
    · rw [received]
      exact mem_append_right _ mem_cons_self
    · rw [same, show ({ r.write (.task t) with place := next } : Subscriber).taskId = r.taskId from
        write_taskId, getTask]
      exact before.state
    · rw [updatesSince, same, received]
      have more : r.received.Sublist (r.received ++ [.task t]) := sublist_append_left _ _
      rcases before.updates with sub | ⟨u, mem, p, ⟨i, rfl, own', update⟩ | reaching, sub⟩
      · exact .inl (sub.trans more)
      · refine .inr ⟨_, threads _ mem, p, .inl ⟨i, rfl, ?_, update⟩,
          sub.trans (more.append (List.Sublist.refl _))⟩
        exact own'.trans write_taskId.symm
      · exact absurd reaching (sound.not_reaching idle mem)
    · intro msg mem
      rw [same] at mem
      rw [received]
      rcases before.completed msg mem with known | ⟨e, there, tells⟩ | ⟨u, there, p, msg', reaching, -⟩
      · exact .inl known
      · exact .inr (.inl ⟨e, mem_append_left _ there, tells⟩)
      · exact absurd reaching (sound.not_reaching idle there)
  | drop taskId place =>
    exact moved _ (fun t clash => by cases place.symm.trans clash) snapshot
  | find taskId i place found =>
    exact moved _ (fun t clash => by cases place.symm.trans clash) snapshot
  | push i place =>
    exact moved _ (fun t clash => by cases place.symm.trans clash) snapshot

/-! ### Runs -/

/-- The handler works, and every subscriber has an emitter and is informed. -/
structure Inv (reg : String → Option Nat) (s : Server) : Prop where
  working : s.handler.Working reg
  distinct : ∀ (n m : Nat) (r r' : Subscriber), s.subscribers[n]? = some r →
    s.subscribers[m]? = some r' → r.emitter = r'.emitter → n = m
  sound : ∀ r ∈ s.subscribers, r.Sound reg s.handler
  informed : ∀ r ∈ s.subscribers, ∀ snap, r.snapshot = some snap → s.Informed r snap

theorem inv_start (working : h.Working reg) : (start h).Inv reg where
  working := working
  distinct n m r r' at_n := by cases at_n
  sound r mem := by cases mem
  informed r mem := by cases mem

theorem Inv.publish (inv : s.Inv reg) {u : Nat} {call : UpdaterCall}
    (stepped : s.step (.publish u call) = some s') : s'.Inv reg := by
  obtain ⟨h', published, rfl⟩ := Option.map_eq_some_iff.mp stepped
  have working := inv.working.publish published
  have kept : h' = { s.handler with threads := s.handler.threads ++ [.checking u call] } := by
    simp only [Handler.step] at published
    split at published
    · exact (Option.some.inj published).symm
    · cases published
  subst kept
  refine ⟨working, inv.distinct, fun r mem => ?_, fun r mem snap snapshot => ?_⟩
  · have sound := inv.sound r mem
    exact ⟨sound.mirrored, sound.placed, sound.callbacks,
      forall_mem_concat sound.copied fun p cbs copied => (by cases copied)⟩
  · exact (inv.informed r mem snap snapshot).mono rfl (fun _ => rfl)
      fun t there => mem_append_left _ there

theorem Inv.run (inv : s.Inv reg) {j : Nat} (covered : s.covered (.run j) = true)
    (stepped : s.step (.run j) = some s') : s'.Inv reg := by
  obtain ⟨t, at_j, stepped⟩ := Option.bind_eq_some_iff.mp stepped
  obtain ⟨⟨a, t'⟩, ran, rfl⟩ := Option.map_eq_some_iff.mp stepped
  have there := mem_of_getElem? at_j
  have reaches : s.reaches t = true := by
    rw [Server.covered, at_j] at covered
    exact covered
  obtain ⟨sec, -⟩ := Handler.section_of_run (inv.working.sound.threads t there)
    (inv.working.publishing t there) ran
  refine ⟨inv.working.run at_j ran, ?_, ?_, ?_⟩
  · intro n m r r' at_n at_m same
    obtain ⟨q, was_n, rfl⟩ := Option.map_eq_some_iff.mp (getElem?_map.symm.trans at_n)
    obtain ⟨q', was_m, rfl⟩ := Option.map_eq_some_iff.mp (getElem?_map.symm.trans at_m)
    rw [hear_emitter, hear_emitter] at same
    exact inv.distinct n m q q' was_n was_m same
  · intro r mem
    obtain ⟨q, was, rfl⟩ := mem_map.mp mem
    exact (inv.sound q was).run inv.working at_j sec
  · intro r mem snap snapshot
    obtain ⟨q, was, rfl⟩ := mem_map.mp mem
    rw [hear_snapshot] at snapshot
    exact (inv.informed q was snap snapshot).run (inv.sound q was) inv.working at_j sec was snapshot
      reaches

theorem Inv.resubscribe (inv : s.Inv reg) {taskId : String} {id : Option RequestId}
    (stepped : s.step (.resubscribe taskId id) = some s') : s'.Inv reg := by
  cases stepped
  have working := inv.working.resubscribe ⟨id, .streaming true, []⟩
  have known := inv.working.known
  refine ⟨working, ?_, ?_, ?_⟩
  · intro n m r r' at_n at_m same
    have below : ∀ {k : Nat} {q : Subscriber}, s.subscribers[k]? = some q →
        q.emitter < s.handler.manager.emitters.length := fun at_k =>
      (inv.sound _ (mem_of_getElem? at_k)).below
    rcases getElem?_concat_cases at_n with old_n | ⟨rfl, rfl⟩
    · rcases getElem?_concat_cases at_m with old_m | ⟨rfl, rfl⟩
      · exact inv.distinct n m r r' old_n old_m same
      · exact absurd same (Nat.ne_of_lt (below old_n))
    · rcases getElem?_concat_cases at_m with old_m | ⟨rfl, rfl⟩
      · exact absurd same (Nat.ne_of_gt (below old_m))
      · rfl
  · intro r mem
    rcases mem_append.mp mem with old | new_
    · have sound := inv.sound r old
      obtain ⟨id', found⟩ := sound.mirrored
      refine ⟨⟨id', ?_⟩, sound.placed, sound.callbacks, sound.copied⟩
      exact (getElem?_append_left sound.below).trans found
    · cases mem_singleton.mp new_
      refine ⟨⟨id, getElem?_concat_length⟩, ⟨rfl, rfl⟩, ?_, ?_⟩
      · intro i there
        exact absurd (known.callbacks i _ there) (Nat.lt_irrefl _)
      · intro t there p cbs copied there'
        exact absurd (known.copied t there p cbs copied _ there') (Nat.lt_irrefl _)
  · intro r mem snap snapshot
    rcases mem_append.mp mem with old | new_
    · exact (inv.informed r old snap snapshot).mono rfl (fun _ => rfl) fun t there => there
    · cases mem_singleton.mp new_
      cases snapshot

theorem Inv.advance (inv : s.Inv reg) {n : Nat} (covered : s.covered (.advance n) = true)
    (stepped : s.step (.advance n) = some s') : s'.Inv reg := by
  obtain ⟨r, at_n, stepped⟩ := Option.bind_eq_some_iff.mp stepped
  obtain ⟨⟨a, r'⟩, advanced, rfl⟩ := Option.map_eq_some_iff.mp stepped
  have adv := advances_of_advance advanced
  have there := mem_of_getElem? at_n
  have sound := inv.sound r there
  have sendable : ∀ t, r.place = .emitting t → (StreamEvent.task t).isSendable = true := by
    intro t place
    rw [Server.covered, at_n, Option.all_some, place] at covered
    exact covered
  refine ⟨inv.working.subscribe adv.subscribes sound.below, ?_, ?_, ?_⟩
  · intro m l q q' at_m at_l same
    have back : ∀ {k : Nat} {q : Subscriber}, (s.subscribers.set n r')[k]? = some q →
        ∃ p, s.subscribers[k]? = some p ∧ p.emitter = q.emitter := by
      intro k q at_k
      rcases getElem?_set_cases at_k with ⟨rfl, rfl⟩ | ⟨-, was⟩
      · exact ⟨r, at_n, adv.emitter_eq.symm⟩
      · exact ⟨q, was, rfl⟩
    obtain ⟨p, was_m, same_m⟩ := back at_m
    obtain ⟨p', was_l, same_l⟩ := back at_l
    exact inv.distinct m l p p' was_m was_l (same_m.trans (same.trans same_l.symm))
  · intro q mem
    obtain ⟨m, at_m⟩ := getElem?_of_mem mem
    rcases getElem?_set_cases at_m with ⟨rfl, rfl⟩ | ⟨other, was⟩
    · exact adv.sound sound inv.working
    · exact (inv.sound q (mem_of_getElem? was)).of_subscribes adv.subscribes
        fun same => other (inv.distinct m n q r was at_n same)
  · intro q mem snap snapshot
    obtain ⟨m, at_m⟩ := getElem?_of_mem mem
    rcases getElem?_set_cases at_m with ⟨rfl, rfl⟩ | ⟨-, was⟩
    · exact adv.informed sound (inv.informed r there) sendable rfl rfl snapshot
    · refine (inv.informed q (mem_of_getElem? was) snap snapshot).mono rfl
        (fun id => adv.subscribes.getTask) ?_
      cases adv.subscribes <;> exact fun t there => there

theorem Inv.step (inv : s.Inv reg) {l : Label} (covered : s.covered l = true)
    (stepped : s.step l = some s') : s'.Inv reg := by
  cases l with
  | publish u call => exact inv.publish stepped
  | run j => exact inv.run covered stepped
  | resubscribe taskId id => exact inv.resubscribe stepped
  | advance n => exact inv.advance covered stepped

/-! ### Nothing is missed -/

theorem foldl_next_cases (cs : List Change) (state : TaskState) :
    cs.foldl Change.next state = state ∨
      (∃ e, .updated (.statusUpdate e) ∈ cs ∧ cs.foldl Change.next state = e.status.state) ∨
      ∃ msg, .completed msg ∈ cs ∧ cs.foldl Change.next state = .completed := by
  induction cs generalizing state with
  | nil => exact .inl rfl
  | cons c cs ih =>
    rw [foldl_cons]
    rcases ih (Change.next state c) with start | ⟨e, mem, there⟩ | ⟨msg, mem, there⟩
    · rw [start]
      cases c with
      | completed msg => exact .inr (.inr ⟨msg, mem_cons_self, rfl⟩)
      | updated e =>
        cases e with
        | statusUpdate e => exact .inr (.inl ⟨e, mem_cons_self, rfl⟩)
        | _ => exact .inl rfl
    · exact .inr (.inl ⟨e, mem_cons_of_mem _ mem, there⟩)
    · exact .inr (.inr ⟨msg, mem_cons_of_mem _ mem, there⟩)

/-- No thread is about to tell the callbacks of an event of the task. -/
def settled (s : Server) (taskId : String) : Prop :=
  ∀ t ∈ s.handler.threads, ∀ p i, t.notifying = some (p, i) → p.taskId ≠ taskId

/-- A subscriber got the snapshot and every update since. -/
structure Served (s : Server) (r : Subscriber) (snap : Task) : Prop where
  written : r.Mirrored s.handler.manager
  snapshot : .task snap ∈ r.received
  updates : (s.updatesSince r).Sublist r.received
  state : ∃ t, s.handler.manager.getTask r.taskId = some t ∧
    t.status.state = (s.since r).foldl Change.next snap.status.state
  told : ∀ cs, cs <+: s.since r →
    ∃ e ∈ r.received, e.tells (cs.foldl Change.next snap.status.state) = true

theorem Inv.served (inv : s.Inv reg) (mem : r ∈ s.subscribers) (snapshot : r.snapshot = some snap)
    (emitted : ∀ t, r.place ≠ .emitting t) (settled : s.settled r.taskId) : s.Served r snap := by
  have sound := inv.sound r mem
  have informed := inv.informed r mem snap snapshot
  have received := informed.emitted.resolve_left (emitted snap)
  -- a thread that brings an event is about to tell the callbacks
  have nothing : ∀ t ∈ s.handler.threads, ∀ p, ¬ t.Bringing r p := by
    intro t there p bringing
    obtain ⟨i, -, -, own⟩ := sound.under there bringing
    have notifying : ∃ i, t.notifying = some (p, i) := by
      rcases bringing with ⟨i, rfl, -⟩ | ⟨cbs, copied, -⟩
      · exact ⟨i, rfl⟩
      · cases t with
        | calling q i cbs =>
          cases copied
          exact ⟨i, rfl⟩
        | completing q i id k task msg rest =>
          cases copied
          exact ⟨i, rfl⟩
        | answering q i id k result rest =>
          cases copied
          exact ⟨i, rfl⟩
        | _ => cases copied
    obtain ⟨i, notifying⟩ := notifying
    exact settled t there p i notifying own
  have updates : (s.updatesSince r).Sublist r.received := by
    rcases informed.updates with sub | ⟨t, there, p, bringing, -⟩
    · exact sub
    · exact absurd bringing (nothing t there p)
  refine ⟨sound.mirrored, received, updates, informed.state, fun cs pre => ?_⟩
  rcases foldl_next_cases cs snap.status.state with same | ⟨e, there, same⟩ | ⟨msg, there, same⟩
  · rw [same]
    exact ⟨_, received, beq_self_eq_true _⟩
  · rw [same]
    refine ⟨.statusUpdate e, updates.subset ?_, beq_self_eq_true _⟩
    exact mem_filterMap.mpr ⟨_, pre.subset there, rfl⟩
  · rw [same]
    rcases informed.completed msg (pre.subset there) with known | told | ⟨t, there, p, -, reaching, -⟩
    · refine ⟨_, received, ?_⟩
      rw [StreamEvent.tells, known]
      rfl
    · exact told
    · exact absurd (.inr reaching) (nothing t there p)

namespace Sample

def completing (j n : Nat) : List Label :=
  .publish 0 (.updateStatus .completed none none none "now") :: List.replicate n (.run j)

/-- The callback is registered before the executor completes the task. -/
def inTime : List Label :=
  .resubscribe "task-u" none :: List.replicate 4 (.advance 0) ++ completing 1 13

/-- The executor completes the task between the snapshot and the registration. -/
def tooLate : List Label :=
  .resubscribe "task-u" none :: List.replicate 2 (.advance 0) ++ completing 1 12 ++ [.advance 0]

theorem settled_of_all {id : String} (idle : s.handler.threads.all (·.notifying.isNone) = true) :
    s.settled id := by
  intro t mem p i notifying
  have none_ := all_eq_true.mp idle t mem
  rw [notifying] at none_
  cases none_

theorem quiet_of_executing {h : Handler} {c : Call} {id : String} {u : Nat}
    (threads : h.threads = [.executing c id u]) : h.Quiet := by
  intro t mem
  rw [threads] at mem
  exact .inr ⟨c, id, u, mem_singleton.mp mem⟩

end Sample

end Server

end AgentProtocols.A2A
