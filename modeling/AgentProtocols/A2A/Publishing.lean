import AgentProtocols.A2A.TerminalStates

/-!
A handler of which only updaters are called. In such a handler (`Working`) one thread at a time is
under way with a task (`Working.alone`); calls of updaters, sections of threads (`section_of_run`)
and those of a `tasks/resubscribe` call (`Subscribes`) keep it so.
-/

namespace AgentProtocols.A2A

open Lib List
open AgentProtocols.MCP (RequestId RpcError Response)

/-! ### Threads that publish -/

/-- The calls of updaters, and executors that run. -/
def Thread.publishing : Thread → Bool
  | executing _ _ _ => true
  | checking _ _ => true
  | flagging _ _ => true
  | processing _ => true
  | locking _ _ => true
  | reading _ _ => true
  | saving _ _ _ => true
  | cloning _ _ => true
  | calling _ _ _ => true
  | completing _ _ _ _ _ _ _ => true
  | answering _ _ _ _ _ _ => true
  | releasing _ _ => true
  | leaving _ => true
  | ended => true
  | _ => false

/-- The callbacks that a thread has copied and has yet to call. -/
def Thread.remaining : Thread → Option (Publication × List EventCb)
  | calling p _ cbs => some (p, cbs)
  | completing p _ _ _ _ _ rest => some (p, rest)
  | answering p _ _ _ _ rest => some (p, rest)
  | _ => none

/-- The registration under which a thread publishes an event. -/
def Thread.under : Thread → Option (Publication × Nat)
  | locking p i => some (p, i)
  | reading p i => some (p, i)
  | saving p i _ => some (p, i)
  | cloning p i => some (p, i)
  | calling p i _ => some (p, i)
  | completing p i _ _ _ _ _ => some (p, i)
  | answering p i _ _ _ _ => some (p, i)
  | _ => none

namespace Handler

variable {h : Handler} {t t' : Thread} {a : Action}

inductive Section_ (h : Handler) : Thread → Action → Thread → Prop where
  /-- Before the lock is asked for, and after it is released. -/
  | outside {t t' : Thread} {a : Action} (before : t.under = none) (free : t.holds = none)
      (after : t'.holds = none) (registered : ∀ p i, t'.under = some (p, i) →
        h.manager.info p.taskId = some i)
      (copied : t'.remaining = none) (harmless : a = .look ∨ ∃ u, a = .flag u) : Section_ h t a t'
  | lockMessage (p : Publication) (i : Nat) (msg : Message) (free : h.held i = false)
      (event : p.event = .message msg) : Section_ h (.locking p i) .look (.cloning p i)
  | lock (p : Publication) (i : Nat) (free : h.held i = false) :
      Section_ h (.locking p i) .look (.reading p i)
  | read (p : Publication) (i : Nat) (task : Task) (found : h.manager.getTask p.taskId = some task) :
      Section_ h (.reading p i) .look (.saving p i task)
  | save (p : Publication) (i : Nat) (task : Task) :
      Section_ h (.saving p i task) (.save (task.applyUpdate p.event)) (.cloning p i)
  | copy (p : Publication) (i : Nat) :
      Section_ h (.cloning p i) .look (.calling p i (h.manager.callbacks i))
  | stream (p : Publication) (i k : Nat) (rest : List EventCb) :
      Section_ h (.calling p i (.stream k :: rest)) (.emit k p.event) (.calling p i rest)
  | skip (p : Publication) (i : Nat) (id : String) (blocking : Bool) (k : Nat) (rest : List EventCb) :
      Section_ h (.calling p i (.send id blocking k :: rest)) .look (.calling p i rest)
  | complete (p : Publication) (i : Nat) (id : String) (blocking : Bool) (k : Nat) (task : Task)
      (msg : Message) (rest : List EventCb) (found : h.manager.getTask id = some task)
      (event : p.event = .message msg) :
      Section_ h (.calling p i (.send id blocking k :: rest)) .look (.completing p i id k task msg rest)
  | answer (p : Publication) (i : Nat) (id : String) (blocking : Bool) (k : Nat) (rest : List EventCb)
      (result : SendMessageResult) :
      Section_ h (.calling p i (.send id blocking k :: rest)) .look (.answering p i id k result rest)
  | saveCompleted (p : Publication) (i : Nat) (id : String) (k : Nat) (task : Task) (msg : Message)
      (rest : List EventCb) :
      Section_ h (.completing p i id k task msg rest) (.save task.completed)
        (.answering p i id k (.message msg) rest)
  | answered (p : Publication) (i : Nat) (id : String) (k : Nat) (result : SendMessageResult)
      (rest : List EventCb) :
      Section_ h (.answering p i id k result rest) (.answer id k result) (.calling p i rest)
  | finish (p : Publication) (i : Nat) (a : Action) (leaves : a = .look ∨ a = .remove p.taskId) :
      Section_ h (.calling p i []) a (.releasing p i)
  | release (p : Publication) (i : Nat) : Section_ h (.releasing p i) .look (.leaving p)

/-- A thread that publishes takes no other sections, and goes on publishing. -/
theorem section_of_run (ok : t.Ok h) (publishing : t.publishing = true)
    (ran : h.runThread t = some (a, t')) : h.Section_ t a t' ∧ t'.publishing = true := by
  have idle : ∀ {u : Thread}, u.under = none → ∀ p i, u.under = some (p, i) →
      h.manager.info p.taskId = some i := by
    intro u none_ p i some_
    rw [none_] at some_
    cases some_
  cases t with
  | executing c id u =>
    cases ran
    exact ⟨.outside rfl rfl rfl (idle rfl) rfl (.inl rfl), rfl⟩
  | checking u call =>
    obtain ⟨up, -, same⟩ := Option.map_eq_some_iff.mp ran
    have look := congrArg Prod.fst same
    subst look
    rcases runThread_checking ran with rfl | ⟨p, rfl⟩ | ⟨p, rfl⟩
    · exact ⟨.outside rfl rfl rfl (idle rfl) rfl (.inl rfl), rfl⟩
    · exact ⟨.outside rfl rfl rfl (idle rfl) rfl (.inl rfl), rfl⟩
    · exact ⟨.outside rfl rfl rfl (idle rfl) rfl (.inl rfl), rfl⟩
  | flagging u p =>
    cases ran
    exact ⟨.outside rfl rfl rfl (idle rfl) rfl (.inr ⟨u, rfl⟩), rfl⟩
  | processing p =>
    simp only [runThread] at ran
    split at ran
    · cases ran
      exact ⟨.outside rfl rfl rfl (idle rfl) rfl (.inl rfl), rfl⟩
    · rename_i i found
      cases ran
      refine ⟨.outside rfl rfl rfl ?_ rfl (.inl rfl), rfl⟩
      rintro p i ⟨⟩
      exact found
  | locking p i =>
    simp only [runThread] at ran
    split at ran
    · cases ran
    · rename_i free
      rw [Bool.not_eq_true] at free
      split at ran
      · rename_i msg event
        cases ran
        exact ⟨.lockMessage p i msg free event, rfl⟩
      · cases ran
        exact ⟨.lock p i free, rfl⟩
  | reading p i =>
    obtain ⟨task, found⟩ := Option.isSome_iff_exists.mp ok.2.1.1
    simp only [runThread, found] at ran
    cases ran
    exact ⟨.read p i task found, rfl⟩
  | saving p i task =>
    cases ran
    exact ⟨.save p i task, rfl⟩
  | cloning p i =>
    cases ran
    exact ⟨.copy p i, rfl⟩
  | calling p i cbs =>
    cases cbs with
    | nil =>
      simp only [runThread] at ran
      split at ran
      · cases ran
        exact ⟨.finish p i _ (.inr rfl), rfl⟩
      · cases ran
        exact ⟨.finish p i _ (.inl rfl), rfl⟩
    | cons cb rest =>
      cases cb with
      | stream k =>
        cases ran
        exact ⟨.stream p i k rest, rfl⟩
      | send id blocking k =>
        simp only [runThread] at ran
        split at ran
        · cases ran
          exact ⟨.skip p i id blocking k rest, rfl⟩
        · rename_i task found
          split at ran
          · rename_i msg event
            cases ran
            exact ⟨.complete p i id blocking k task msg rest found event, rfl⟩
          · split at ran
            · cases ran
              exact ⟨.answer p i id blocking k rest (.task task), rfl⟩
            · cases ran
              exact ⟨.skip p i id blocking k rest, rfl⟩
  | completing p i id k task msg rest =>
    cases ran
    exact ⟨.saveCompleted p i id k task msg rest, rfl⟩
  | answering p i id k result rest =>
    cases ran
    exact ⟨.answered p i id k result rest, rfl⟩
  | releasing p i =>
    cases ran
    exact ⟨.release p i, rfl⟩
  | leaving p =>
    simp only [runThread] at ran
    split at ran
    · cases ran
      exact ⟨.outside rfl rfl rfl (idle rfl) rfl (.inl rfl), rfl⟩
    · rename_i u _
      cases ran
      exact ⟨.outside rfl rfl rfl (idle rfl) rfl (.inr ⟨u, rfl⟩), rfl⟩
  | ended => cases ran
  | _ => cases publishing

end Handler

/-! ### Emitters -/

/-- The emitter that a callback closes over. -/
def EventCb.emitter : EventCb → Nat
  | send _ _ k => k
  | stream k => k

def Thread.call : Thread → Option Call
  | looking c => some c
  | creating c _ => some c
  | rereading c _ => some c
  | registering c _ _ => some c
  | registeringNew c _ _ => some c
  | appending c _ _ => some c
  | opening c _ _ => some c
  | subscribing c _ => some c
  | pushing c _ _ => some c
  | starting c _ => some c
  | executing c _ _ => some c
  | _ => none

namespace Handler

variable {h h' : Handler} {t t' : Thread} {a : Action} {l : Label}

structure Known (h : Handler) : Prop where
  calls : ∀ t ∈ h.threads, ∀ c, t.call = some c → c.emitter < h.manager.emitters.length
  copied : ∀ t ∈ h.threads, ∀ p cbs, t.remaining = some (p, cbs) →
    ∀ cb ∈ cbs, cb.emitter < h.manager.emitters.length
  callbacks : ∀ i, ∀ cb ∈ h.manager.callbacks i, cb.emitter < h.manager.emitters.length

theorem known_new {executor : Bool} {taskStore : OrderedMap String Task} :
    (new executor taskStore).Known :=
  ⟨fun _ mem => absurd mem not_mem_nil, fun _ mem => absurd mem not_mem_nil,
    fun _ _ mem => absurd mem not_mem_nil⟩

@[simp] theorem perform_emitters_length (a : Action) :
    (h.perform a).manager.emitters.length = h.manager.emitters.length := by
  have exchange : ∀ taskId value,
      (h.manager.exchangeMessageSent taskId value).emitters = h.manager.emitters := by
    intro taskId value
    rw [TaskManager.exchangeMessageSent]
    split <;> rfl
  cases a with
  | exchange taskId value => exact congrArg length (exchange taskId value)
  | answer taskId k result =>
    change (h.manager.answerOnce taskId k result).emitters.length = _
    rw [TaskManager.answerOnce]
    split
    · rfl
    · rw [TaskManager.emit, length_modify, exchange]
  | emit k event => exact length_modify _ _ _
  | _ => rfl

theorem runThread_call {c : Call} (ran : h.runThread t = some (a, t')) (call : t'.call = some c) :
    t.call = some c := by
  unfold runThread at ran
  repeat' split at ran
  all_goals first
    | cases ran
    | (obtain rfl | ⟨p, rfl⟩ | ⟨p, rfl⟩ := runThread_checking ran <;> cases call)
  all_goals first
    | exact call
    | cases call

theorem runThread_remaining {p : Publication} {cbs : List EventCb} {cb : EventCb}
    (ran : h.runThread t = some (a, t')) (copied : t'.remaining = some (p, cbs)) (mem : cb ∈ cbs) :
    (∃ cbs', t.remaining = some (p, cbs') ∧ cb ∈ cbs') ∨ ∃ i, cb ∈ h.manager.callbacks i := by
  unfold runThread at ran
  repeat' split at ran
  all_goals first
    | cases ran
    | (obtain rfl | ⟨p, rfl⟩ | ⟨p, rfl⟩ := runThread_checking ran <;> cases copied)
  all_goals first
    | (cases copied
       done)
    | (cases copied
       exact .inl ⟨_, rfl, mem⟩)
    | (cases copied
       exact .inl ⟨_, rfl, mem_cons_of_mem _ mem⟩)
    | (cases copied
       exact .inr ⟨_, mem⟩)

theorem Known.step (known : h.Known) (stepped : h.step l = some h') : h'.Known := by
  have spawn : ∀ {t : Thread} {emitters : List Emitter},
      h.manager.emitters.length ≤ emitters.length → t.remaining = none →
        (∀ c, t.call = some c → c.emitter < emitters.length) → ({ h with
            manager := { h.manager with emitters }
            threads := h.threads ++ [t] } : Handler).Known := by
    intro t emitters longer none_ fresh
    refine ⟨?_, ?_, fun i cb mem => lt_of_lt_of_le (known.callbacks i cb mem) longer⟩
    · intro u mem c call
      rcases mem_append.mp mem with old | new_
      · exact lt_of_lt_of_le (known.calls u old c call) longer
      · cases mem_singleton.mp new_
        exact fresh c call
    · intro u mem p cbs copied
      rcases mem_append.mp mem with old | new_
      · exact fun cb there => lt_of_lt_of_le (known.copied u old p cbs copied cb there) longer
      · cases mem_singleton.mp new_
        cases none_.symm.trans copied
  cases l with
  | send params streaming fresh id =>
    cases stepped
    refine spawn (by simp) rfl ?_
    rintro c ⟨⟩
    simp
  | cancel taskId =>
    cases stepped
    exact @spawn _ h.manager.emitters (Nat.le_refl _) rfl fun c call => by cases call
  | publish u call =>
    simp only [Handler.step] at stepped
    split at stepped
    · cases stepped
      exact @spawn _ h.manager.emitters (Nat.le_refl _) rfl fun c call => by cases call
    · cases stepped
  | run j =>
    obtain ⟨t, at_j, stepped⟩ := Option.bind_eq_some_iff.mp stepped
    obtain ⟨⟨a, t'⟩, ran, rfl⟩ := Option.map_eq_some_iff.mp stepped
    have there := mem_of_getElem? at_j
    refine ⟨?_, ?_, ?_⟩
    · intro u mem c call
      rw [perform_emitters_length]
      rcases mem_or_eq_of_mem_set mem with old | rfl
      · exact known.calls u old c call
      · exact known.calls t there c (runThread_call ran call)
    · intro u mem p cbs copied cb there'
      rw [perform_emitters_length]
      rcases mem_or_eq_of_mem_set mem with old | rfl
      · exact known.copied u old p cbs copied cb there'
      · rcases runThread_remaining ran copied there' with ⟨cbs', before, was⟩ | ⟨i, was⟩
        · exact known.copied t there p cbs' before cb was
        · exact known.callbacks i cb was
    · intro i cb mem
      rw [perform_emitters_length]
      rcases perform_callbacks a mem with old | rfl
      · exact known.callbacks i cb old
      · obtain ⟨c, id, rfl, rfl⟩ := runThread_push ran
        have below := known.calls _ there c rfl
        rw [Call.callback]
        split
        · exact below
        · exact below

end Handler

/-! ### The handler -/

/-- The task that a thread is about to change is the stored one. -/
def Thread.Current (m : TaskManager) : Thread → Prop
  | saving p _ task => m.getTask p.taskId = some task
  | completing p _ _ _ task _ _ => m.getTask p.taskId = some task
  | _ => True

namespace Handler

variable {h : Handler} {reg : String → Option Nat} {t t' : Thread} {a : Action} {id : String} {i j : Nat}

/-- Tasks are registered under `reg` or not at all, and what the threads carry is current. -/
structure Working (reg : String → Option Nat) (h : Handler) : Prop where
  sound : h.Sound
  known : h.Known
  publishing : ∀ t ∈ h.threads, t.publishing = true
  exclusive : ∀ (j k : Nat) (t u : Thread) (i : Nat), h.threads[j]? = some t →
    h.threads[k]? = some u → t.holds = some i → u.holds = some i → j = k
  registered : ∀ id i, h.manager.info id = some i → reg id = some i
  under : ∀ t ∈ h.threads, ∀ p i, t.under = some (p, i) → reg p.taskId = some i
  current : ∀ t ∈ h.threads, t.Current h.manager

/-- A handler without threads that run. -/
def Quiet (h : Handler) : Prop := ∀ t ∈ h.threads, t = .ended ∨ ∃ c id u, t = .executing c id u

theorem Quiet.working (quiet : h.Quiet) (sound : h.Sound) (known : h.Known) :
    h.Working h.manager.info where
  sound := sound
  known := known
  publishing t mem := by
    rcases quiet t mem with rfl | ⟨c, id, u, rfl⟩ <;> rfl
  exclusive j k t u i at_j at_k holds := by
    rcases quiet t (mem_of_getElem? at_j) with rfl | ⟨c, id, v, rfl⟩ <;> cases holds
  registered id i found := found
  under t mem p i under := by
    rcases quiet t mem with rfl | ⟨c, id, u, rfl⟩ <;> cases under
  current t mem := by
    rcases quiet t mem with rfl | ⟨c, id, u, rfl⟩ <;> trivial

/-! #### Sections -/

variable (sec : h.Section_ t a t')

include sec

theorem Section_.callbacks (i : Nat) :
    (h.perform a).manager.callbacks i = h.manager.callbacks i := by
  cases sec with
  | outside before free after registered copied harmless =>
    rcases harmless with rfl | ⟨u, rfl⟩ <;> rfl
  | answered p i id k result rest => exact TaskManager.answerOnce_callbacks
  | finish p i a leaves => rcases leaves with rfl | rfl <;> rfl
  | _ => rfl

theorem Section_.info (found : (h.perform a).manager.info id = some i) :
    h.manager.info id = some i := by
  rcases info_of_perform found with before | ⟨rfl, -⟩
  · exact before
  · cases sec with
    | outside before free after registered copied harmless =>
      rcases harmless with clash | ⟨u, clash⟩ <;> cases clash
    | finish p i a leaves => rcases leaves with clash | clash <;> cases clash

omit sec

variable {k : Nat} {p : Publication}

theorem Section_.under (sec : h.Section_ t a t') (under : t'.under = some (p, i)) :
    t.under = some (p, i) ∨ h.manager.info p.taskId = some i := by
  cases sec with
  | outside before free after registered copied harmless => exact .inr (registered p i under)
  | release p i => cases under
  | finish p i a leaves => cases under
  | _ => exact .inl under

theorem Section_.saves {task : Task} (sec : h.Section_ t (.save task) t') (ok : t.Ok h) :
    ∃ p i, t.under = some (p, i) ∧ t.holds = some i ∧ task.id = p.taskId := by
  cases sec with
  | outside before free after registered copied harmless =>
    rcases harmless with clash | ⟨u, clash⟩ <;> cases clash
  | finish p i a leaves => rcases leaves with clash | clash <;> cases clash
  | save p i task =>
    obtain ⟨-, -, -, -, own⟩ := ok
    exact ⟨p, i, rfl, rfl, (TaskManager.applyUpdate_id task p.event).trans own⟩
  | saveCompleted p i id k task msg rest =>
    obtain ⟨-, -, -, -, -, own, -⟩ := ok
    exact ⟨p, i, rfl, rfl, own⟩

theorem Working.alone (working : h.Working reg) {q : Publication} {u : Thread}
    (at_j : h.threads[j]? = some t) (at_k : h.threads[k]? = some u) (under : t.under = some (p, i))
    (holds : t.holds = some i) {l : Nat} (under' : u.under = some (q, l)) (holds' : u.holds = some l)
    (same : p.taskId = q.taskId) : j = k := by
  have first := working.under t (mem_of_getElem? at_j) p i under
  have second := working.under u (mem_of_getElem? at_k) q l under'
  rw [same, second] at first
  cases first
  exact working.exclusive j k t u _ at_j at_k holds holds'

theorem Section_.emits {event : StreamEvent} (sec : h.Section_ t (.emit k event) t') :
    ∃ p i rest, t = .calling p i (.stream k :: rest) ∧ t' = .calling p i rest ∧ event = p.event := by
  cases sec with
  | outside before free after registered copied harmless =>
    rcases harmless with clash | ⟨u, clash⟩ <;> cases clash
  | finish p i a leaves => rcases leaves with clash | clash <;> cases clash
  | stream p i k rest => exact ⟨p, i, rest, rfl, rfl, rfl⟩

include sec

/-- The callbacks left were to be called before, or are those of the registration. -/
theorem Section_.remaining {cbs : List EventCb} (copied : t'.remaining = some (p, cbs)) :
    (∃ cbs', t.remaining = some (p, cbs') ∧ ∀ cb ∈ cbs, cb ∈ cbs') ∨
      ∃ i, t = .cloning p i ∧ cbs = h.manager.callbacks i := by
  cases sec with
  | outside before free after registered none_ harmless => cases none_.symm.trans copied
  | copy p i =>
    cases copied
    exact .inr ⟨i, rfl, rfl⟩
  | stream p i k rest =>
    cases copied
    exact .inl ⟨_, rfl, fun cb mem => mem_cons_of_mem _ mem⟩
  | skip p i id blocking k rest =>
    cases copied
    exact .inl ⟨_, rfl, fun cb mem => mem_cons_of_mem _ mem⟩
  | complete p i id blocking k task msg rest found event =>
    cases copied
    exact .inl ⟨_, rfl, fun cb mem => mem_cons_of_mem _ mem⟩
  | answer p i id blocking k rest result =>
    cases copied
    exact .inl ⟨_, rfl, fun cb mem => mem_cons_of_mem _ mem⟩
  | saveCompleted p i id k task msg rest =>
    cases copied
    exact .inl ⟨_, rfl, fun cb mem => mem⟩
  | answered p i id k result rest =>
    cases copied
    exact .inl ⟨_, rfl, fun cb mem => mem⟩
  | _ => cases copied

theorem Section_.remaining_of_mem {cbs : List EventCb}
    (copied : t.remaining = some (p, cbs)) (mem : .stream k ∈ cbs) :
    (∃ cbs', t'.remaining = some (p, cbs') ∧ .stream k ∈ cbs') ∨ a = .emit k p.event := by
  cases sec with
  | outside before free after registered none_ harmless =>
    cases t with
    | calling p i cbs => cases before
    | completing p i id k task msg rest => cases before
    | answering p i id k result rest => cases before
    | _ => cases copied
  | stream p i k' rest =>
    cases copied
    rcases mem_cons.mp mem with same | later
    · cases same
      exact .inr rfl
    · exact .inl ⟨_, rfl, later⟩
  | skip p i id blocking k' rest =>
    cases copied
    exact .inl ⟨_, rfl, (mem_cons.mp mem).resolve_left nofun⟩
  | complete p i id blocking k' task msg rest found event =>
    cases copied
    exact .inl ⟨_, rfl, (mem_cons.mp mem).resolve_left fun clash => by cases clash⟩
  | answer p i id blocking k' rest result =>
    cases copied
    exact .inl ⟨_, rfl, (mem_cons.mp mem).resolve_left fun clash => by cases clash⟩
  | saveCompleted p i id k' task msg rest =>
    cases copied
    exact .inl ⟨_, rfl, mem⟩
  | answered p i id k' result rest =>
    cases copied
    exact .inl ⟨_, rfl, mem⟩
  | finish p i a leaves =>
    cases copied
    cases mem
  | _ => cases copied

/-! #### Steps -/

theorem Section_.current (ok : t.Ok h) : t'.Current (h.perform a).manager := by
  cases sec with
  | outside before free after registered copied harmless =>
    cases t' with
    | saving p i task => cases after
    | completing p i id k task msg rest => cases after
    | _ => trivial
  | read p i task found => exact found
  | complete p i id blocking k task msg rest found event =>
    have own : id = p.taskId := ok.2.2.2 _ mem_cons_self
    exact own ▸ found
  | _ => trivial

omit sec

theorem Working.current_of_ne (working : h.Working reg) (at_j : h.threads[j]? = some t)
    (sec : h.Section_ t a t') {u : Thread} (at_k : h.threads[k]? = some u) (other : k ≠ j) :
    u.Current (h.perform a).manager := by
  have before := working.current u (mem_of_getElem? at_k)
  have keep : ∀ {q : Publication} {l : Nat} {task : Task}, u.under = some (q, l) → u.holds = some l →
      h.manager.getTask q.taskId = some task → (h.perform a).manager.getTask q.taskId = some task := by
    intro q l task under holds found
    rw [perform_getTask]
    split
    · split
      · rename_i same
        have ok' := working.sound.threads t (mem_of_getElem? at_j)
        obtain ⟨p, i, under', holds', own⟩ := sec.saves ok'
        exact absurd (working.alone at_k at_j under holds under' holds' (same.trans own)) other
      · exact found
    · exact found
  cases u with
  | saving q l task => exact keep rfl rfl before
  | completing q l id e task msg rest => exact keep rfl rfl before
  | _ => trivial

theorem Working.publish (working : h.Working reg) {u : Nat} {call : UpdaterCall} {h' : Handler}
    (stepped : h.step (.publish u call) = some h') : h'.Working reg := by
  have sound := working.sound.step stepped
  have known := working.known.step stepped
  have exclusive := Exclusive.step working.exclusive stepped
  simp only [Handler.step] at stepped
  split at stepped
  · cases stepped
    exact ⟨sound, known, forall_mem_concat working.publishing rfl, exclusive, working.registered,
      forall_mem_concat working.under fun p i under => (by cases under),
      forall_mem_concat working.current trivial⟩
  · cases stepped

theorem Working.run (working : h.Working reg) (at_j : h.threads[j]? = some t)
    (ran : h.runThread t = some (a, t')) :
    ({ h.perform a with threads := h.threads.set j t' } : Handler).Working reg := by
  have there := mem_of_getElem? at_j
  have ok := working.sound.threads t there
  obtain ⟨sec, publishing⟩ := section_of_run ok (working.publishing t there) ran
  have stepped : h.step (.run j) = some { h.perform a with threads := h.threads.set j t' } := by
    rw [Handler.step, at_j, Option.bind_some, ran, Option.map_some]
  refine ⟨working.sound.step stepped, working.known.step stepped,
    forall_mem_set working.publishing publishing, Exclusive.step working.exclusive stepped,
    fun id i found => working.registered id i (sec.info found),
    forall_mem_set working.under fun p i under => ?_, ?_⟩
  · rcases sec.under under with before | found
    · exact working.under t there p i before
    · exact working.registered _ _ found
  · intro u mem
    obtain ⟨k, at_k⟩ := getElem?_of_mem mem
    rcases getElem?_set_cases at_k with ⟨rfl, rfl⟩ | ⟨other, was_k⟩
    · exact sec.current ok
    · exact working.current_of_ne at_j sec was_k other

/-- A section of a subscriber, which only adds its callback or writes to its emitter. -/
inductive Subscribes (k : Nat) : Action → Prop where
  | look : Subscribes k .look
  | push (i : Nat) : Subscribes k (.push i (.stream k))
  | emit (event : StreamEvent) : Subscribes k (.emit k event)

variable (sub : Subscribes k a)

include sub

theorem Subscribes.info : (h.perform a).manager.info id = h.manager.info id := by
  cases sub <;> rfl

theorem Subscribes.getTask : (h.perform a).manager.getTask id = h.manager.getTask id := by
  cases sub <;> rfl

theorem Subscribes.sound (sound : h.Sound) : (h.perform a).Sound where
  keyed id task found := sound.keyed id task (sub.getTask.symm.trans found)
  owned := by
    have owned := sound.owned
    rw [perform_infos_length]
    cases sub <;> exact owned
  owner id i found := (extends_perform h a).owner i id (sound.owner id i (sub.info.symm.trans found))
  callbacks i id owner cb mem := by
    rcases perform_callbacks a mem with old | rfl
    · refine sound.callbacks i id ?_ cb old
      cases sub <;> exact owner
    · cases sub
      trivial
  updaters up mem := by
    have there : up ∈ h.updaters := by
      cases sub <;> exact mem
    obtain ⟨executor, stored⟩ := sound.updaters up there
    exact ⟨(extends_perform h a).executor.trans executor, (extends_perform h a).stored _ stored⟩
  threads t mem := by
    have there : t ∈ h.threads := by
      cases sub <;> exact mem
    exact (sound.threads t there).mono (extends_perform h a)

theorem Subscribes.known (known : h.Known)
    (below : k < h.manager.emitters.length) : (h.perform a).Known where
  calls t mem := by
    have there : t ∈ h.threads := by
      cases sub <;> exact mem
    rw [perform_emitters_length]
    exact known.calls t there
  copied t mem := by
    have there : t ∈ h.threads := by
      cases sub <;> exact mem
    rw [perform_emitters_length]
    exact known.copied t there
  callbacks i cb mem := by
    rw [perform_emitters_length]
    rcases perform_callbacks a mem with old | rfl
    · exact known.callbacks i cb old
    · cases sub
      exact below

omit sub

theorem Working.subscribe (working : h.Working reg) (sub : Subscribes k a)
    (below : k < h.manager.emitters.length) : (h.perform a).Working reg := by
  have threads : (h.perform a).threads = h.threads := by
    cases sub <;> rfl
  refine ⟨sub.sound working.sound, sub.known working.known below, ?_, ?_, ?_, ?_, ?_⟩
  · rw [threads]
    exact working.publishing
  · rw [threads]
    exact working.exclusive
  · intro id i found
    exact working.registered id i (sub.info.symm.trans found)
  · rw [threads]
    exact working.under
  · rw [threads]
    intro t mem
    have kept := working.current t mem
    cases t with
    | saving p i task => exact sub.getTask.trans kept
    | completing p i id k task msg rest => exact sub.getTask.trans kept
    | _ => trivial

theorem Working.resubscribe (working : h.Working reg) (e : Emitter) :
    ({ h with manager := h.manager.withEmitter e } : Handler).Working reg where
  sound := by
    have sound := working.sound
    refine ⟨sound.keyed, sound.owned, sound.owner, sound.callbacks, sound.updaters, fun t mem => ?_⟩
    exact (sound.threads t mem).mono ⟨rfl, fun _ stored => stored, fun _ _ owner => owner⟩
  known := by
    have longer : h.manager.emitters.length ≤ (h.manager.withEmitter e).emitters.length := by
      simp [TaskManager.withEmitter]
    have known := working.known
    refine ⟨fun t mem c call => ?_, fun t mem p cbs copied cb there => ?_, fun i cb mem => ?_⟩
    · exact lt_of_lt_of_le (known.calls t mem c call) longer
    · exact lt_of_lt_of_le (known.copied t mem p cbs copied cb there) longer
    · exact lt_of_lt_of_le (known.callbacks i cb mem) longer
  publishing := working.publishing
  exclusive := working.exclusive
  registered := working.registered
  under := working.under
  current t mem := by
    have kept := working.current t mem
    cases t with
    | saving p i task => exact kept
    | completing p i id k task msg rest => exact kept
    | _ => trivial

end Handler

end AgentProtocols.A2A
