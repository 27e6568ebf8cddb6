import AgentProtocols.A2A.Soundness

/-!
Whether a final task stays as it is.

Each guard looks before a write. Where what it saw still holds at the write (`Handler.checked`), a
final state is final (`terminal_states_final`, with the invariant `Guarded`);
`cancel_overwrites_completed` is a run in which it is not. In any run a stored task stays
stored.
-/

namespace AgentProtocols.A2A

open Lib
open AgentProtocols.MCP (RequestId RpcError Response)

/-! ### The state of a saved task -/

@[simp] theorem withMessage_id (t : Task) (m : Message) : (t.withMessage m).id = t.id := by
  rw [Task.withMessage, Task.takeStatusMessage]
  split <;> rfl

@[simp] theorem withMessage_state (t : Task) (m : Message) :
    (t.withMessage m).status.state = t.status.state := by
  rw [Task.withMessage, Task.takeStatusMessage]
  split <;> rfl

theorem isFinalEvent_of_applyUpdate {t : Task} {id : String} {event : StreamEvent}
    (update : IsUpdate id event) (running : isFinal t.status.state = false)
    (final : isFinal (t.applyUpdate event).status.state = true) : isFinalEvent event = true := by
  cases event with
  | statusUpdate e => exact Bool.or_eq_true_iff.mpr (.inl final)
  | artifactUpdate e =>
    rw [Task.applyUpdate, appendArtifactToTask_status, running] at final
    cases final
  | message m => exact update.elim
  | task t => exact update.elim

theorem IsUpdate.not_message {id : String} {event : StreamEvent} (update : IsUpdate id event)
    (msg : Message) : event ≠ .message msg := by
  rintro rfl
  exact update

/-! ### What a section relies on -/

namespace Handler

def finished (h : Handler) (id : String) : Bool :=
  (h.manager.getTask id).any fun t => isFinal t.status.state

/-- What a thread has read of its task and registration still holds. -/
def upToDate (h : Handler) : Thread → Bool
  | .registering _ id _ => !h.finished id
  | .registeringNew _ id _ => !h.finished id
  | .appending _ id _ => !h.finished id
  | .cancelSaving t info => !h.finished t.id && h.manager.info t.id == info
  | .cancelDirectly t => !h.finished t.id
  | .saving p i _ => h.manager.info p.taskId == some i
  | .completing p i _ _ _ _ _ => h.manager.info p.taskId == some i
  | _ => true

/-- The step is not one of a section that relies on something past. -/
def checked (h : Handler) : Label → Bool
  | .run j => h.threads[j]?.all h.upToDate
  | _ => true

/-! ### Sections that write -/

variable {h h' : Handler} {id : String} {i : Nat} {t t' : Thread} {a : Action} {l : Label}
  {task : Task}

/-- The sections that save a task: the thread before, the task, the thread after. -/
inductive Saves (h : Handler) : Thread → Task → Thread → Prop where
  | creating {c : Call} {id : String} {t' : Thread} (absent : h.manager.getTask id = none) :
      Saves h (.creating c id) (newTask id (c.params.message.contextId.getD c.fresh.contextUuid)
        c.params.message) t'
  | appending (c : Call) (id : String) (old : Task) :
      Saves h (.appending c id old) (old.withMessage c.params.message) (.opening c id (some old))
  | canceling (old : Task) : Saves h (.cancelSaving old none) old.canceled .ended
  | cancelingRegistered (old : Task) (i : Nat) :
      Saves h (.cancelSaving old (some i)) old.canceled (.cloning old.cancelEvent i)
  | cancelingDirectly (old : Task) : Saves h (.cancelDirectly old) old.canceled .ended
  | ensuring {p : Publication} {i : Nat} {task : Task} {t' : Thread} :
      Saves h (.ensureSaving p i) task t'
  | event (p : Publication) (i : Nat) (old : Task) :
      Saves h (.saving p i old) (old.applyUpdate p.event) (.cloning p i)
  | completing (p : Publication) (i : Nat) (id : String) (k : Nat) (old : Task) (msg : Message)
      (rest : List EventCb) :
      Saves h (.completing p i id k old msg rest) old.completed
        (.answering p i id k (.message msg) rest)

theorem runThread_save (ran : h.runThread t = some (.save task, t')) : h.Saves t task t' := by
  unfold runThread at ran
  repeat' split at ran
  all_goals first
    | cases ran
    | (obtain ⟨up, -, same⟩ := Option.map_eq_some_iff.mp ran
       cases same)
  all_goals first
    | exact .creating (Option.not_isSome_iff_eq_none.mp ‹_›)
    | constructor

theorem runThread_register (ran : h.runThread t = some (.register id, t')) :
    (∃ c old, t = .registering c id old) ∨ (∃ c created, t = .registeringNew c id created) ∨
      ∃ p i, t = .ensuring p i := by
  unfold runThread at ran
  repeat' split at ran
  all_goals first
    | cases ran
    | (obtain ⟨up, -, same⟩ := Option.map_eq_some_iff.mp ran
       cases same)
  · exact .inl ⟨_, _, rfl⟩
  · exact .inr (.inl ⟨_, _, rfl⟩)
  · exact .inr (.inr ⟨_, _, rfl⟩)

theorem runThread_checking {u : Nat} {call : UpdaterCall}
    (ran : h.runThread (.checking u call) = some (a, t')) :
    t' = .ended ∨ (∃ p, t' = .flagging u p) ∨ ∃ p, t' = .processing p := by
  obtain ⟨up, -, same⟩ := Option.map_eq_some_iff.mp ran
  replace same := congrArg Prod.snd same
  split at same
  · exact .inl same.symm
  · right
    subst same
    cases call with
    | updateStatus state message timestamp metadata now =>
      simp only [published]
      split
      · exact .inl ⟨_, rfl⟩
      · exact .inr ⟨_, rfl⟩
    | addArtifact param generated => exact .inr ⟨_, rfl⟩
    | sendResponseMessage message => exact .inr ⟨_, rfl⟩

theorem runThread_holds (ran : h.runThread t = some (a, t')) (holds : t'.holds = some i) :
    t.holds = some i ∨ h.held i = false := by
  unfold runThread at ran
  repeat' split at ran
  all_goals first
    | cases ran
    | (obtain rfl | ⟨p, rfl⟩ | ⟨p, rfl⟩ := runThread_checking ran <;> cases holds)
  all_goals first
    | exact .inl holds
    | (cases holds
       done)
    | (cases holds
       exact .inr ((Bool.not_eq_true _).mp ‹_›))

end Handler

/-! ### The thread that finishes a task -/

/-- What a thread has saved and now tells the callbacks of the info. -/
def Thread.notifying : Thread → Option (Publication × Nat)
  | cloning p i => some (p, i)
  | calling p i _ => some (p, i)
  | completing p i _ _ _ _ _ => some (p, i)
  | answering p i _ _ _ _ => some (p, i)
  | _ => none

/-- The thread is about to remove the registration of a task that is now in the state. -/
def Thread.Closing (t : Thread) (id : String) (i : Nat) (state : TaskState) : Prop :=
  ∃ p, t.notifying = some (p, i) ∧ p.taskId = id ∧ isFinalEvent p.event = true ∧
    ∀ msg, p.event = .message msg → state = .completed

theorem Thread.Closing.holds {t : Thread} {id : String} {i : Nat} {state : TaskState}
    (closing : t.Closing id i state) : t.holds = some i := by
  obtain ⟨p, notifying, -⟩ := closing
  cases t with
  | cloning p k =>
    cases notifying
    rfl
  | calling p k cbs =>
    cases notifying
    rfl
  | completing p k id k' old msg rest =>
    cases notifying
    rfl
  | answering p k id k' result rest =>
    cases notifying
    rfl
  | _ => cases notifying

namespace Handler

variable {h h' : Handler} {id : String} {i : Nat} {t t' : Thread} {a : Action} {l : Label}
  {task : Task} {state : TaskState}

theorem runThread_closing (ran : h.runThread t = some (a, t')) (closing : t.Closing id i state) :
    t'.Closing id i state ∨ a = .remove id := by
  obtain ⟨p, notifying, same, final, message⟩ := closing
  have go : ∀ {u : Thread}, u.notifying = some (p, i) → u.Closing id i state ∨ a = .remove id :=
    fun next => .inl ⟨p, next, same, final, message⟩
  cases t with
  | cloning p k =>
    cases notifying
    cases ran
    exact go rfl
  | calling p k cbs =>
    cases notifying
    cases cbs with
    | nil =>
      simp only [runThread, final] at ran
      cases ran
      right
      rw [same]
    | cons cb rest =>
      cases cb with
      | stream k' =>
        cases ran
        exact go rfl
      | send taskId blocking k' =>
        simp only [runThread] at ran
        repeat' split at ran
        all_goals
          cases ran
          exact go rfl
  | completing p k taskId k' old msg rest =>
    cases notifying
    cases ran
    exact go rfl
  | answering p k taskId k' result rest =>
    cases notifying
    cases ran
    exact go rfl
  | _ => cases notifying

/-! ### The mutex of an info -/

/-- No two threads hold the mutex of one info. -/
def Exclusive (h : Handler) : Prop :=
  ∀ (j k : Nat) (t u : Thread) (i : Nat), h.threads[j]? = some t → h.threads[k]? = some u →
    t.holds = some i → u.holds = some i → j = k

theorem Exclusive.step (exclusive : h.Exclusive) (stepped : h.step l = some h') : h'.Exclusive := by
  rcases step_cases stepped with ⟨t, emitters, rfl, -, free, -⟩ | ⟨m, t, a, t', -, at_m, ran, rfl⟩
  · -- a thread that holds a lock is an old one
    have old : ∀ {k : Nat} {u : Thread} {i : Nat}, (h.threads ++ [t])[k]? = some u →
        u.holds = some i → h.threads[k]? = some u := by
      intro k u i at_k holds
      rcases getElem?_concat_cases at_k with there | ⟨-, rfl⟩
      · exact there
      · cases free.symm.trans holds
    exact fun j k u v i at_j at_k holds holds' =>
      exclusive j k u v i (old at_j holds) (old at_k holds') holds holds'
  · -- a thread that holds what the section takes
    have holder : ∀ {k : Nat} {u : Thread} {i : Nat}, k ≠ m → h.threads[k]? = some u →
        u.holds = some i → t'.holds ≠ some i := by
      intro k u i other at_k holds_u holds
      rcases runThread_holds ran holds with before | free
      · exact other (exclusive k m u t i at_k at_m holds_u before)
      · have held : h.held i = true :=
          List.any_eq_true.mpr ⟨u, List.mem_of_getElem? at_k, beq_iff_eq.mpr holds_u⟩
        cases held.symm.trans free
    intro j k u v i at_j at_k holds_u holds_v
    rcases getElem?_set_cases at_j with ⟨rfl, rfl⟩ | ⟨other, was_j⟩
    · rcases getElem?_set_cases at_k with ⟨rfl, rfl⟩ | ⟨other, was_k⟩
      · rfl
      · exact absurd holds_u (holder other was_k holds_v)
    · rcases getElem?_set_cases at_k with ⟨rfl, rfl⟩ | ⟨other', was_k⟩
      · exact absurd holds_v (holder other was_j holds_u)
      · exact exclusive j k u v i was_j was_k holds_u holds_v

/-! ### The invariant -/

/-- One thread holds the lock of an info, and the one that finished a task removes its registration.
-/
structure Guarded (h : Handler) : Prop where
  sound : h.Sound
  exclusive : ∀ (j k : Nat) (t u : Thread) (i : Nat), h.threads[j]? = some t →
    h.threads[k]? = some u → t.holds = some i → u.holds = some i → j = k
  fresh : ∀ (j : Nat) (p : Publication) (i : Nat) (t : Task),
    h.threads[j]? = some (.saving p i t) → h.manager.info p.taskId = some i →
    isFinal t.status.state = false
  final : h.executor = true → ∀ (id : String) (t : Task) (i : Nat),
    h.manager.getTask id = some t → isFinal t.status.state = true → h.manager.info id = some i →
    ∃ (j : Nat) (u : Thread), h.threads[j]? = some u ∧ u.Closing id i t.status.state

theorem guarded_new {executor : Bool} {taskStore : OrderedMap String Task}
    (keyed : ∀ id t, taskStore.get? id = some t → t.id = id) :
    (new executor taskStore).Guarded where
  sound := sound_new keyed
  exclusive j k t u i at_j := by cases at_j
  fresh j p i t at_j := by cases at_j
  final _ id t i _ _ found := by cases found

theorem finished_of_getTask (found : h.manager.getTask id = some task) :
    h.finished id = isFinal task.status.state := by
  rw [finished, found]
  rfl

theorem Guarded.open_of_holds {j : Nat} (guarded : h.Guarded) (executor : h.executor = true)
    (at_j : h.threads[j]? = some t) (holds : t.holds = some i) (idle : t.notifying = none)
    (found : h.manager.getTask id = some task) (registered : h.manager.info id = some i) :
    isFinal task.status.state = false := by
  by_contra final
  obtain ⟨k, u, at_k, closing⟩ :=
    guarded.final executor id task i found ((Bool.not_eq_false _).mp final) registered
  have same : k = j := guarded.exclusive k j u t i at_k at_j closing.holds holds
  subst same
  cases at_j.symm.trans at_k
  obtain ⟨p, notifying, -⟩ := closing
  rw [idle] at notifying
  cases notifying

/-! ### One section -/

section Section

variable {j : Nat}

theorem Guarded.save_state (guarded : h.Guarded) (at_j : h.threads[j]? = some t)
    (upToDate : h.upToDate t = true) {new : Task} (saves : h.Saves t new t')
    (found : h.manager.getTask new.id = some task) (final : isFinal task.status.state = true) :
    new.status.state = task.status.state := by
  have finished : ∀ id, id = new.id → h.finished id = true := by
    rintro id rfl
    rw [finished_of_getTask found, final]
  have ok := guarded.sound.threads t (List.mem_of_getElem? at_j)
  cases saves with
  | creating absent =>
    cases absent.symm.trans found
  | appending c id old =>
    have same : id = (old.withMessage c.params.message).id := by
      rw [withMessage_id]
      exact ok.2.1.symm
    rw [Handler.upToDate, finished id same] at upToDate
    cases upToDate
  | canceling old =>
    rw [Handler.upToDate, finished old.id rfl] at upToDate
    cases upToDate
  | cancelingRegistered old i =>
    rw [Handler.upToDate, finished old.id rfl] at upToDate
    cases upToDate
  | cancelingDirectly old =>
    rw [Handler.upToDate, finished old.id rfl] at upToDate
    cases upToDate
  | ensuring => exact ok.elim
  | event p i old =>
    obtain ⟨executor, -, -, update, own⟩ := ok
    rw [TaskManager.applyUpdate_id, own] at found
    have open_ := guarded.open_of_holds executor at_j rfl rfl found (beq_iff_eq.mp upToDate)
    cases open_.symm.trans final
  | completing p i id k old msg rest =>
    obtain ⟨executor, -, -, -, -, own, event⟩ := ok
    obtain ⟨k, u, at_k, closing⟩ := guarded.final executor old.id task i found final
      (own ▸ beq_iff_eq.mp upToDate)
    have same : k = j := guarded.exclusive k j u _ i at_k at_j closing.holds rfl
    subst same
    cases at_j.symm.trans at_k
    obtain ⟨q, notifying, -, -, message⟩ := closing
    cases notifying
    exact (message msg event).symm

theorem Guarded.save_closing (guarded : h.Guarded) (executor : h.executor = true)
    (at_j : h.threads[j]? = some t) (upToDate : h.upToDate t = true) {new : Task}
    (saves : h.Saves t new t') (final : isFinal new.status.state = true)
    (registered : h.manager.info new.id = some i) : t'.Closing new.id i new.status.state := by
  have ok := guarded.sound.threads t (List.mem_of_getElem? at_j)
  cases saves with
  | creating absent => cases final
  | appending c id old =>
    rw [withMessage_state, ok.2.2] at final
    cases final
  | canceling old =>
    have gone : h.manager.info old.id = none :=
      beq_iff_eq.mp (Bool.and_eq_true_iff.mp upToDate).2
    cases gone.symm.trans registered
  | cancelingRegistered old k =>
    have there : h.manager.info old.id = some k :=
      beq_iff_eq.mp (Bool.and_eq_true_iff.mp upToDate).2
    cases there.symm.trans registered
    exact ⟨_, rfl, rfl, rfl, nofun⟩
  | cancelingDirectly old => cases executor.symm.trans ok
  | ensuring => exact ok.elim
  | event p k old =>
    obtain ⟨-, -, -, update, own⟩ := ok
    have there : h.manager.info p.taskId = some k := beq_iff_eq.mp upToDate
    rw [TaskManager.applyUpdate_id, own] at registered
    cases there.symm.trans registered
    have running := guarded.fresh j p _ old at_j there
    refine ⟨p, rfl, ?_, isFinalEvent_of_applyUpdate update running final, fun msg message => ?_⟩
    · rw [TaskManager.applyUpdate_id, own]
    · exact absurd message (update.not_message msg)
  | completing p k id e old msg rest =>
    obtain ⟨-, -, -, -, -, own, event⟩ := ok
    have there : h.manager.info p.taskId = some k := beq_iff_eq.mp upToDate
    cases (own ▸ there).symm.trans registered
    refine ⟨p, rfl, own.symm, ?_, fun msg message => rfl⟩
    rw [event]
    rfl

theorem info_of_perform (found : (h.perform a).manager.info id = some i) :
    h.manager.info id = some i ∨ (a = .register id ∧ i = h.manager.infos.length) := by
  rw [perform_info] at found
  split at found
  · split at found
    · rename_i same
      cases found
      exact .inr ⟨by rw [same], rfl⟩
    · exact .inl found
  · split at found
    · cases found
    · exact .inl found
  · exact .inl found

theorem getTask_of_perform (found : (h.perform a).manager.getTask id = some task) :
    h.manager.getTask id = some task ∨ (a = .save task ∧ id = task.id) := by
  rw [perform_getTask] at found
  split at found
  · split at found
    · rename_i same
      cases found
      exact .inr ⟨rfl, same⟩
    · exact .inl found
  · exact .inl found

theorem deregister_info (h : Handler) (id : String) : (h.perform (.remove id)).manager.info id = none := by
  rw [perform_info]
  exact if_pos rfl

theorem runThread_saving {p : Publication} (ok : t.Ok h)
    (ran : h.runThread t = some (a, .saving p i task)) :
    t = .reading p i ∧ a = .look ∧ h.manager.getTask p.taskId = some task := by
  unfold runThread at ran
  repeat' split at ran
  all_goals first
    | cases ran
    | (obtain none_ | ⟨p, none_⟩ | ⟨p, none_⟩ := runThread_checking ran <;> cases none_)
  · exact ⟨rfl, rfl, ‹_›⟩
  · exact ok.elim

theorem Owner.lt {h : Handler} (sound : h.Sound) (owner : h.Owner i id) :
    i < h.manager.infos.length := by
  rw [← sound.owned]
  exact (List.getElem?_eq_some_iff.mp owner).1

theorem Guarded.register_open (guarded : h.Guarded) (at_j : h.threads[j]? = some t)
    (upToDate : h.upToDate t = true) (ran : h.runThread t = some (.register id, t')) :
    h.finished id = false := by
  rcases runThread_register ran with ⟨c, old, rfl⟩ | ⟨c, created, rfl⟩ | ⟨p, k, rfl⟩
  · exact Bool.not_eq_true' _ ▸ upToDate
  · exact Bool.not_eq_true' _ ▸ upToDate
  · exact (guarded.sound.threads _ (List.mem_of_getElem? at_j)).elim

end Section

/-! ### Steps and runs -/

variable (guarded : h.Guarded)

include guarded

theorem Guarded.spawn {emitters : List Emitter} (ok : t.Ok h) (free : t.holds = none)
    (exclusive : ({ h with
      manager := { h.manager with emitters }
      threads := h.threads ++ [t] } : Handler).Exclusive) : ({ h with
      manager := { h.manager with emitters }
      threads := h.threads ++ [t] } : Handler).Guarded := by
  refine ⟨guarded.sound.spawn ok, exclusive, ?_, ?_⟩
  · intro j p i task at_j registered
    rcases getElem?_concat_cases at_j with there | ⟨-, rfl⟩
    · exact guarded.fresh j p i task there registered
    · cases free
  · intro executor id task i found final registered
    obtain ⟨k, u, at_k, closing⟩ := guarded.final executor id task i found final registered
    refine ⟨k, u, ?_, closing⟩
    exact (List.getElem?_append_left (List.getElem?_eq_some_iff.mp at_k).1).trans at_k

theorem Guarded.section_ {j : Nat} (at_j : h.threads[j]? = some t)
    (upToDate : h.upToDate t = true) (ran : h.runThread t = some (a, t'))
    (sound : ({ h.perform a with threads := h.threads.set j t' } : Handler).Sound)
    (exclusive : ({ h.perform a with threads := h.threads.set j t' } : Handler).Exclusive) :
    ({ h.perform a with threads := h.threads.set j t' } : Handler).Guarded := by
  have below : j < h.threads.length := (List.getElem?_eq_some_iff.mp at_j).1
  have ok := guarded.sound.threads t (List.mem_of_getElem? at_j)
  refine ⟨sound, exclusive, ?_, ?_⟩
  · intro k p i task at_k registered
    rcases getElem?_set_cases at_k with ⟨rfl, rfl⟩ | ⟨other, was_k⟩
    · obtain ⟨rfl, rfl, found⟩ := runThread_saving ok ran
      exact guarded.open_of_holds ok.1 at_j rfl rfl found registered
    · have owner : h.Owner i p.taskId :=
        (guarded.sound.threads _ (List.mem_of_getElem? was_k)).2.2.1
      rcases info_of_perform registered with before | ⟨-, new⟩
      · exact guarded.fresh k p i task was_k before
      · exact absurd new (Nat.ne_of_lt (owner.lt guarded.sound))
  · intro executor id task i found final registered
    replace executor : h.executor = true := (extends_perform h a).executor ▸ executor
    rcases getTask_of_perform found with before | ⟨rfl, rfl⟩
    · rcases info_of_perform registered with was | ⟨rfl, -⟩
      · obtain ⟨k, u, at_k, closing⟩ := guarded.final executor id task i before final was
        by_cases same : k = j
        · subst same
          cases at_j.symm.trans at_k
          rcases runThread_closing ran closing with next | rfl
          · exact ⟨k, t', List.getElem?_set_self below, next⟩
          · cases (deregister_info _ _).symm.trans registered
        · exact ⟨k, u, (List.getElem?_set_ne (Ne.symm same)).trans at_k, closing⟩
      · have open_ := guarded.register_open at_j upToDate ran
        rw [finished_of_getTask before, final] at open_
        cases open_
    · have closing := guarded.save_closing executor at_j upToDate (runThread_save ran) final registered
      exact ⟨j, t', List.getElem?_set_self below, closing⟩

theorem Guarded.step (checked : h.checked l = true)
    (stepped : h.step l = some h') : h'.Guarded := by
  have sound := guarded.sound.step stepped
  have exclusive := Exclusive.step guarded.exclusive stepped
  rcases step_cases stepped with ⟨t, emitters, rfl, ok, free, -⟩ | ⟨j, t, a, t', rfl, at_j, ran, rfl⟩
  · exact guarded.spawn (ok guarded.sound) free exclusive
  · rw [Handler.checked, at_j] at checked
    exact guarded.section_ at_j checked ran sound exclusive

theorem Guarded.step_state (checked : h.checked l = true)
    (stepped : h.step l = some h') (found : h.manager.getTask id = some task)
    (final : isFinal task.status.state = true) :
    ∃ task', h'.manager.getTask id = some task' ∧ task'.status.state = task.status.state := by
  rcases step_cases stepped with ⟨t, emitters, rfl, -⟩ | ⟨j, t, a, t', rfl, at_j, ran, rfl⟩
  · exact ⟨task, found, rfl⟩
  · rw [Handler.checked, at_j] at checked
    have later : (h.perform a).Stored id := (extends_perform h a).stored id (stored_of_getTask found)
    obtain ⟨task', found'⟩ := Option.isSome_iff_exists.mp later
    refine ⟨task', found', ?_⟩
    rcases getTask_of_perform found' with before | ⟨rfl, rfl⟩
    · cases found.symm.trans before
      rfl
    · exact guarded.save_state at_j checked (runThread_save ran) found final

omit guarded

def requested : List Label :=
  .send { message := { messageId := "m" } } false ⟨"u", "c"⟩ none :: List.replicate 7 (.run 0)

/-- All sections of the completion, as the thread `j`. -/
def completing (j : Nat) : List Label :=
  .publish 0 (.updateStatus .completed none none none "now") :: List.replicate 12 (.run j)

section

variable {executor : Bool} {taskStore : OrderedMap String Task} {ls ms : List Label}

theorem extends_step (stepped : h.step l = some h') : h.Extends h' := by
  rcases step_cases stepped with ⟨t, emitters, rfl, -⟩ | ⟨j, t, a, t', -, -, -, rfl⟩
  · exact ⟨rfl, fun _ stored => stored, fun _ _ owner => owner⟩
  · exact ⟨(extends_perform h a).executor, (extends_perform h a).stored, (extends_perform h a).owner⟩

/-- In every run a stored task stays stored, under its id, and no event is published for a task
that is gone. -/
theorem stored_tasks_stay (keyed : ∀ id t, taskStore.get? id = some t → t.id = id)
    (run : Run (Steps Handler.step) (new executor taskStore) ls h)
    (later : Run (Steps Handler.step) h ms h') :
    (∀ id t, h.manager.getTask id = some t →
      t.id = id ∧ ∃ t', h'.manager.getTask id = some t' ∧ t'.id = id) ∧
    ∀ t ∈ h.threads, ∀ p i, t ≠ .ensuring p i ∧ t ≠ .ensureSaving p i := by
  have kept : ∀ h l h', Handler.Sound h → Steps Handler.step h l h' → h'.Sound :=
    fun _ _ _ sound stepped => sound.step stepped
  have sound := run.invariant kept (sound_new keyed)
  refine ⟨fun id t found => ⟨sound.keyed id t found, ?_⟩, fun t mem p i => ⟨?_, ?_⟩⟩
  · have stored : h'.Stored id := @Run.invariant _ _ _ _ _ _ (·.Stored id)
      (fun _ _ _ stored stepped => (extends_step stepped).stored id stored) later
      (stored_of_getTask found)
    obtain ⟨t', found'⟩ := Option.isSome_iff_exists.mp stored
    exact ⟨t', found', (later.invariant kept sound).keyed id t' found'⟩
  · rintro rfl
    exact (sound.threads _ mem).elim
  · rintro rfl
    exact (sound.threads _ mem).elim

/-- A requested task stays while it is completed. -/
theorem requested_task_stays : ∃ h h', Run (Steps Handler.step) (new true .empty) requested h ∧
    Run (Steps Handler.step) h (completing 1) h' ∧
    (∃ t, h.manager.getTask "task-u" = some t ∧ t.id = "task-u" ∧
      ∃ t', h'.manager.getTask "task-u" = some t' ∧ t'.id = "task-u") := by
  obtain ⟨h, h', run, later, t, found⟩ : ∃ h h', Run (Steps Handler.step) (new true .empty) requested h ∧
    Run (Steps Handler.step) h (completing 1) h' ∧ ∃ t, h.manager.getTask "task-u" = some t :=
    ⟨_, _, run_of_foldlM rfl, run_of_foldlM rfl, _, rfl⟩
  exact ⟨h, h', run, later, t, found,
    (stored_tasks_stay (fun _ _ found => by cases found) run later).1 _ _ found⟩

end

end Handler

end AgentProtocols.A2A
