import AgentProtocols.Lib.Runs
import AgentProtocols.MCP.ServerSession

/-!
The initialization gate. `notifications/initialized` opens it too early, and `initialize` only after
its response has gone out. It is exact in every interleaving that avoids both (`gate_exact`,
`Orderly`); `gate_opens_early_and_late` gives a run for each.
-/

namespace AgentProtocols.MCP

open Lib Session

namespace Task

/-- The message that the next section of the task takes from its queue. -/
def takes (t : Task) : Option Message :=
  match t.place, t.initializing, t.queue with
  | .between, false, (m, _) :: _ => some m
  | _, _, _ => none

/-- The task is not in a handler, and its last response has gone to the transport. -/
def past (t : Task) : Bool :=
  match t.place with
  | .between => true
  | .counting _ => true
  | .closing _ => true
  | .replying _ _ => true
  | _ => false

/-- In `handle_initialize`, after the response and before the flag is set. -/
def handed (t : Task) : Bool := t.initializing && t.past

/-- In `handle_initialize`, about to hand the response to the transport. -/
def hands (t : Task) : Bool :=
  match t.place with
  | .sending _ _ => t.initializing
  | _ => false

end Task

def Message.isInitialize : Message → Bool
  | .request ⟨_, .init, _⟩ => true
  | _ => false

/-- A session, and whether an `initialize` request came and its response was handed over. -/
structure Gate where
  session : Session
  initReceived : Bool
  initHanded : Bool

namespace Gate

def task (g : Gate) : Label → Option Task
  | .run i => g.session.tasks[i]?
  | _ => none

def takes (g : Gate) (l : Label) : Option Message := (g.task l).bind Task.takes

def step (g : Gate) (l : Label) : Option Gate :=
  (g.session.step l).map fun session =>
    { session
      initReceived := g.initReceived || (g.takes l).any Message.isInitialize
      initHanded := g.initHanded || (g.task l).any Task.hands }

/-- A new session, of which nothing was seen. -/
def new (config : SessionConfig) : Gate := ⟨.new config, false, false⟩

/-- The flag is set neither before an `initialize` request nor late after its response. -/
def Orderly (g : Gate) (l : Label) : Prop :=
  match g.takes l with
  | some (.notification .initialized) => g.initReceived = true
  | some (.request ⟨_, .named _, _⟩) =>
    g.session.isInitialized = true ∨ ∀ t ∈ g.session.tasks, t.handed = false
  | _ => True

instance (g : Gate) (l : Label) : Decidable (g.Orderly l) := by
  unfold Orderly
  split <;> infer_instance

/-- The task has passed the gate with a request, and goes on to the handler. -/
def Passed (s : Session) (i : Nat) : Prop :=
  ∃ t id ctx, s.tasks[i]? = some t ∧ t.place = .registering id ctx

/-- The task answers a request of the method with the error of the gate. -/
def Rejected (s : Session) (i : Nat) (name : String) : Prop :=
  ∃ t id ctx, s.tasks[i]? = some t ∧ t.place = .answering id
    (.error (.new (-32600) ("Received request before initialization: " ++ name))) ctx

/-- A request passes only after an `initialize`, and is rejected only before its response. -/
def Exact (g : Gate) (l : Label) (g' : Gate) : Prop :=
  ∀ i id name params, l = .run i → g.takes l = some (.request ⟨id, .named name, params⟩) →
    (Passed g'.session i → g.initReceived = true) ∧
      (g.initHanded = true → ¬Rejected g'.session i name)

/-! ### What a section does to the gate -/

/-- What one section of a task can do to the flag and to the task. -/
structure Effect (s s' : Session) (i : Nat) (t t' : Task) : Prop where
  tasks : s'.tasks = s.tasks.set i t'
  config : s'.config = s.config
  kept : s.isInitialized = true → s'.isInitialized = true
  /-- Who sets the flag. -/
  opened : s'.isInitialized = true → s.isInitialized = true ∨ t.initializing = true ∨
    t.takes = some (.notification .initialized)
  /-- Who comes to set the flag. -/
  began : t'.initializing = true → t.initializing = true ∨ t.takes.any Message.isInitialize = true
  /-- A response that was handed over stays so until the flag is set. -/
  handed : t.handed = true ∨ t.hands = true → t'.handed = true ∨ s'.isInitialized = true

variable {s s' : Session} {i : Nat} {t : Task}

theorem effect_of_place {t' : Task} (tasks : s'.tasks = s.tasks.set i t')
    (config : s'.config = s.config) (flag : s'.isInitialized = s.isInitialized)
    (initializing : t'.initializing = t.initializing)
    (stays : t.past = true ∨ t.hands = true → t'.past = true) : Effect s s' i t t' where
  tasks := tasks
  config := config
  kept open_ := flag.trans open_
  opened open_ := .inl (flag.symm.trans open_)
  began now := .inl (initializing.symm.trans now)
  handed := by
    rintro (handed | hands)
    · rw [Task.handed, Bool.and_eq_true] at handed
      left
      rw [Task.handed, initializing, handed.1, stays (.inl handed.2)]
      rfl
    · have now : t.initializing = true := by
        rw [Task.hands] at hands
        split at hands
        · exact hands
        · cases hands
      left
      rw [Task.handed, initializing, now, stays (.inr hands)]
      rfl

theorem effect_of_message {t' : Task} (tasks : s'.tasks = s.tasks.set i t')
    (config : s'.config = s.config) (idle : t.initializing = false)
    (kept : s.isInitialized = true → s'.isInitialized = true)
    (opened : s'.isInitialized = true → s.isInitialized = true ∨
      t.takes = some (.notification .initialized))
    (began : t'.initializing = true → t.takes.any Message.isInitialize = true) :
    Effect s s' i t t' where
  tasks := tasks
  config := config
  kept := kept
  opened open_ := (opened open_).imp_right .inr
  began now := .inr (began now)
  handed := by
    rintro (handed | hands)
    · rw [Task.handed, idle] at handed
      cases handed
    · rw [Task.hands, idle] at hands
      split at hands <;> cases hands

variable {ctx : RequestContext} {m : Message} {rest : List (Message × RequestContext)}

theorem takes_of_queue
    (place : t.place = .between) (idle : t.initializing = false) (queue : t.queue = (m, ctx) :: rest) :
    t.takes = some m := by
  rw [Task.takes, place, idle, queue]

theorem queue_of_takes (taken : t.takes = some m) :
    ∃ ctx rest, t.place = .between ∧ t.initializing = false ∧ t.queue = (m, ctx) :: rest := by
  rw [Task.takes] at taken
  split at taken
  · rename_i ctx rest place idle queue
    cases taken
    exact ⟨ctx, rest, place, idle, queue⟩
  · cases taken

theorem runTask_of_queue (place : t.place = .between)
    (idle : t.initializing = false) (queue : t.queue = (m, ctx) :: rest) :
    s.runTask i t = some (s.onMessageReceived i { t with queue := rest } ctx m) := by
  simp only [runTask, place, idle, queue, Bool.false_eq_true, if_false]

theorem onMessageReceived_effect (place : t.place = .between)
    (idle : t.initializing = false) (queue : t.queue = (m, ctx) :: rest) :
    ∃ t', Effect s (s.onMessageReceived i { t with queue := rest } ctx m) i t t' := by
  have taken := takes_of_queue place idle queue
  have quiet : ∀ {s' : Session} {t' : Task}, s'.tasks = s.tasks.set i t' → s'.config = s.config →
      s'.isInitialized = s.isInitialized → t'.initializing = false → Effect s s' i t t' := by
    intro s' t' tasks config flag initializing
    apply effect_of_message tasks config idle flag.trans fun open_ => .inl (flag.symm.trans open_)
    intro now
    rw [initializing] at now
    cases now
  cases m with
  | request r =>
    obtain ⟨id, method, params⟩ := r
    cases method with
    | init =>
      refine ⟨_, effect_of_message rfl rfl idle (fun open_ => open_) .inl fun _ => ?_⟩
      rw [taken]
      rfl
    | named name =>
      simp only [onMessageReceived, receivedRequest]
      split
      · exact ⟨_, quiet rfl rfl rfl idle⟩
      · split
        · exact ⟨_, quiet rfl rfl rfl idle⟩
        · exact ⟨_, quiet rfl rfl rfl idle⟩
  | notification n =>
    cases n with
    | initialized =>
      refine ⟨{ t with queue := rest }, effect_of_message rfl rfl idle (fun _ => rfl)
        (fun _ => .inr taken) fun now => ?_⟩
      rw [show ({ t with queue := rest } : Task).initializing = false from idle] at now
      cases now
    | cancelled params =>
      simp only [onMessageReceived, receivedNotification, handleCancelled]
      split
      · exact ⟨_, quiet rfl rfl rfl idle⟩
      · split
        · exact ⟨_, quiet rfl rfl rfl idle⟩
        · exact ⟨_, quiet rfl rfl rfl idle⟩
    | rootsListChanged => exact ⟨_, quiet rfl rfl rfl idle⟩
    | other method => exact ⟨_, quiet rfl rfl rfl idle⟩
  | response r => exact ⟨_, quiet rfl rfl rfl idle⟩

theorem sendMessage_effect (r : Response) (ctx : RequestContext) :
    ∃ t', Effect s (s.sendMessage i t r ctx) i t t' := by
  have sent : ∀ {s' : Session} {p : Place}, s'.tasks = s.tasks.set i { t with place := p } →
      s'.config = s.config → s'.isInitialized = s.isInitialized →
        ({ t with place := p } : Task).past = true → ∃ t', Effect s s' i t t' := by
    intro s' p tasks config flag past
    exact ⟨_, effect_of_place tasks config flag rfl fun _ => past⟩
  simp only [sendMessage]
  split
  · exact sent rfl rfl rfl rfl
  · split
    · exact sent rfl rfl rfl rfl
    · split
      · exact sent rfl rfl rfl rfl
      · split
        · exact sent rfl rfl rfl rfl
        · exact sent rfl rfl rfl rfl

theorem runTask_effect (ran : s.runTask i t = some s') : ∃ t', Effect s s' i t t' := by
  have moved : ∀ {s' : Session} {p : Place}, s'.tasks = s.tasks.set i { t with place := p } →
      s'.config = s.config → s'.isInitialized = s.isInitialized →
        ({ t with place := p } : Task).past = true → ∃ t', Effect s s' i t t' := by
    intro s' p tasks config flag past
    exact ⟨_, effect_of_place tasks config flag rfl fun _ => past⟩
  -- a place before the response is neither past it nor about to hand it over
  have before : ∀ {s' : Session} {p : Place}, t.past = false → t.hands = false →
      s'.tasks = s.tasks.set i { t with place := p } → s'.config = s.config →
        s'.isInitialized = s.isInitialized → ∃ t', Effect s s' i t t' := by
    intro s' p past hands tasks config flag
    refine ⟨_, effect_of_place tasks config flag rfl ?_⟩
    rw [past, hands]
    rintro (now | now) <;> cases now
  rw [runTask] at ran
  split at ran
  · rename_i place
    split at ran
    · rename_i initializing
      cases ran
      exact ⟨_, ⟨rfl, rfl, fun _ => rfl, fun _ => .inr (.inl initializing),
        nofun, fun _ => .inr rfl⟩⟩
    · rename_i idle
      rw [Bool.not_eq_true] at idle
      split at ran
      · cases ran
      · rename_i m ctx rest queue
        cases ran
        exact onMessageReceived_effect place idle queue
  · rename_i id ctx place
    cases ran
    exact before (by rw [Task.past, place]) (by rw [Task.hands, place]) rfl rfl rfl
  · cases ran
  · rename_i id outcome ctx place
    cases ran
    have past : t.past = false := by rw [Task.past, place]
    have hands : t.hands = false := by rw [Task.hands, place]
    simp only [answer]
    split
    · split
      · exact before past hands rfl rfl rfl
      · exact before past hands rfl rfl rfl
    · exact before past hands rfl rfl rfl
  · rename_i r ctx place
    cases ran
    exact sendMessage_effect r ctx
  · obtain ⟨p, -, rfl⟩ := Option.map_eq_some_iff.mp ran
    refine @moved (s.responseDelivered i t _ p) _ rfl rfl rfl ?_
    split <;> rfl
  · obtain ⟨p, -, rfl⟩ := Option.map_eq_some_iff.mp ran
    rw [closeSink]
    split
    · exact moved rfl rfl rfl rfl
    · exact moved rfl rfl rfl rfl
  · obtain ⟨p, -, rfl⟩ := Option.map_eq_some_iff.mp ran
    rw [sendReply]
    split
    · exact moved rfl rfl rfl rfl
    · exact moved rfl rfl rfl rfl

/-! ### The invariant -/

/-- The flag comes from an `initialize` request, and is about to be set after its response. -/
structure Sound (g : Gate) : Prop where
  flag : g.session.isInitialized = true → g.initReceived = true
  begun : ∀ t ∈ g.session.tasks, t.initializing = true → g.initReceived = true
  handed : g.initHanded = true → g.session.isInitialized = true ∨
    ∃ t ∈ g.session.tasks, t.handed = true

theorem sound_new (config : SessionConfig) : (new config).Sound where
  flag := nofun
  begun := by rintro t ⟨⟩
  handed := nofun

variable {g g' : Gate} {l : Label}

theorem Sound.quiet (sound : g.Sound) (flag : g'.session.isInitialized = g.session.isInitialized)
    (received : g'.initReceived = g.initReceived) (handed : g'.initHanded = g.initHanded)
    (begun : ∀ t ∈ g'.session.tasks, t.initializing = true →
      ∃ u ∈ g.session.tasks, u.initializing = true)
    (kept : ∀ t ∈ g.session.tasks, t.handed = true → t ∈ g'.session.tasks) : g'.Sound where
  flag open_ := by
    rw [received]
    exact sound.flag (flag.symm.trans open_)
  begun t mem now := by
    rw [received]
    obtain ⟨u, there, now⟩ := begun t mem now
    exact sound.begun u there now
  handed seen := by
    rw [handed] at seen
    rw [flag]
    rcases sound.handed seen with open_ | ⟨t, mem, handed⟩
    · exact .inl open_
    · exact .inr ⟨t, kept t mem handed, handed⟩

theorem Sound.run (sound : g.Sound) {i : Nat} {t : Task} (at_i : g.session.tasks[i]? = some t)
    (orderly : g.Orderly (.run i)) {session : Session}
    (ran : g.session.runTask i t = some session) :
    Sound ⟨session, g.initReceived || (g.takes (.run i)).any Message.isInitialize,
      g.initHanded || (g.task (.run i)).any Task.hands⟩ := by
  obtain ⟨t', effect⟩ := runTask_effect ran
  have here : t ∈ g.session.tasks := List.mem_of_getElem? at_i
  have taken : g.takes (.run i) = t.takes := by rw [takes, task, at_i]; rfl
  have hands : (g.task (.run i)).any Task.hands = t.hands := by rw [task, at_i]; rfl
  have place : t' ∈ session.tasks := by
    rw [effect.tasks]
    exact List.mem_set (List.getElem?_eq_some_iff.mp at_i).1 t'
  refine ⟨?_, ?_, ?_⟩
  · intro open_
    rw [Bool.or_eq_true]
    rcases effect.opened open_ with open_ | now | initialized
    · exact .inl (sound.flag open_)
    · exact .inl (sound.begun t here now)
    · left
      rw [Orderly, taken, initialized] at orderly
      exact orderly
  · intro u mem now
    rw [Bool.or_eq_true, taken]
    rw [effect.tasks] at mem
    rcases List.mem_or_eq_of_mem_set mem with old | rfl
    · exact .inl (sound.begun u old now)
    · rcases effect.began now with now | first
      · exact .inl (sound.begun t here now)
      · exact .inr first
  · intro seen
    rw [hands, Bool.or_eq_true] at seen
    have stays : t.handed = true ∨ t.hands = true →
        session.isInitialized = true ∨ ∃ u ∈ session.tasks, u.handed = true := by
      intro now
      rcases effect.handed now with handed | open_
      · exact .inr ⟨t', place, handed⟩
      · exact .inl open_
    rcases seen with seen | now
    · rcases sound.handed seen with open_ | ⟨u, mem, handed⟩
      · exact .inl (effect.kept open_)
      · obtain ⟨j, at_j⟩ := List.mem_iff_getElem?.mp mem
        by_cases same : i = j
        · rw [← same, at_i] at at_j
          cases at_j
          exact stays (.inl handed)
        · refine .inr ⟨u, ?_, handed⟩
          rw [effect.tasks]
          exact List.mem_iff_getElem?.mpr ⟨j, by rw [List.getElem?_set_ne same, at_j]⟩
    · exact stays (.inr now)

theorem handlePost_tasks (s : Session) (messages : List Message) (batch : Bool) :
    ∃ t : Task, t.initializing = false ∧ (s.handlePost messages batch).tasks = s.tasks ++ [t] := by
  rw [handlePost]
  split
  · exact ⟨_, rfl, rfl⟩
  · exact ⟨_, rfl, rfl⟩

theorem handlePost_isInitialized (s : Session) (messages : List Message) (batch : Bool) :
    (s.handlePost messages batch).isInitialized = s.isInitialized := by
  rw [handlePost]
  split <;> rfl

theorem handlePost_config (s : Session) (messages : List Message) (batch : Bool) :
    (s.handlePost messages batch).config = s.config := by
  rw [handlePost]
  split <;> rfl

theorem step_eq (stepped : g.step l = some g') :
    ∃ session, g.session.step l = some session ∧
      g' = ⟨session, g.initReceived || (g.takes l).any Message.isInitialize,
        g.initHanded || (g.task l).any Task.hands⟩ := by
  obtain ⟨session, ran, rfl⟩ := Option.map_eq_some_iff.mp stepped
  exact ⟨session, ran, rfl⟩

theorem Sound.step (sound : g.Sound) (orderly : g.Orderly l) (stepped : g.step l = some g') :
    g'.Sound := by
  obtain ⟨session, ran, rfl⟩ := step_eq stepped
  cases l with
  | setHandler =>
    cases ran
    exact sound.quiet rfl (Bool.or_false _) (Bool.or_false _) (fun t mem now => ⟨t, mem, now⟩)
      fun t mem _ => mem
  | post messages batch =>
    cases ran
    obtain ⟨t, idle, tasks⟩ := handlePost_tasks g.session messages batch
    refine sound.quiet (handlePost_isInitialized _ _ _) (Bool.or_false _) (Bool.or_false _) ?_ ?_
    · intro u mem now
      rw [tasks, List.mem_append, List.mem_singleton] at mem
      rcases mem with mem | rfl
      · exact ⟨u, mem, now⟩
      · rw [idle] at now
        cases now
    · intro u mem _
      rw [tasks]
      exact List.mem_append_left _ mem
  | run i =>
    obtain ⟨t, at_i, ran⟩ := Option.bind_eq_some_iff.mp ran
    exact sound.run at_i orderly ran
  | handled i outcome =>
    obtain ⟨t, at_i, moved⟩ := Option.bind_eq_some_iff.mp ran
    split at moved
    · rename_i id ctx place
      cases moved
      refine sound.quiet rfl (Bool.or_false _) (Bool.or_false _) ?_ ?_
      · intro u mem now
        rcases List.mem_or_eq_of_mem_set mem with old | rfl
        · exact ⟨u, old, now⟩
        · exact ⟨t, List.mem_of_getElem? at_i, now⟩
      · intro u mem handed
        obtain ⟨j, at_j⟩ := List.mem_iff_getElem?.mp mem
        -- the task in the handler is not past its response
        have other : i ≠ j := by
          rintro rfl
          rw [at_i] at at_j
          cases at_j
          rw [Task.handed, Task.past, place, Bool.and_false] at handed
          cases handed
        exact List.mem_iff_getElem?.mpr ⟨j, by
          rw [setTask, List.getElem?_set_ne other, at_j]⟩
    · cases moved
  | disconnect k =>
    obtain ⟨p, -, rfl⟩ := Option.map_eq_some_iff.mp ran
    exact sound.quiet rfl (Bool.or_false _) (Bool.or_false _) (fun t mem now => ⟨t, mem, now⟩)
      fun t mem _ => mem

theorem step_config (stepped : g.step l = some g') : g'.session.config = g.session.config := by
  obtain ⟨session, ran, rfl⟩ := step_eq stepped
  cases l with
  | setHandler =>
    cases ran
    rfl
  | post messages batch =>
    cases ran
    exact handlePost_config _ _ _
  | run i =>
    obtain ⟨t, -, ran⟩ := Option.bind_eq_some_iff.mp ran
    obtain ⟨t', effect⟩ := runTask_effect ran
    exact effect.config
  | handled i outcome =>
    obtain ⟨t, -, moved⟩ := Option.bind_eq_some_iff.mp ran
    split at moved
    · cases moved
      rfl
    · cases moved
  | disconnect k =>
    obtain ⟨p, -, rfl⟩ := Option.map_eq_some_iff.mp ran
    rfl

/-! ### The gate -/

theorem receivedRequest_at_gate (stateful : s.config.stateless = false) {id : RequestId}
    {name : String} {params : Option Json} (ctx : RequestContext) (at_i : i < s.tasks.length)
    (place : t.place = .between) :
    let s' := s.receivedRequest i t ⟨id, .named name, params⟩ ctx
    (Passed s' i → s.isInitialized = true) ∧ (s.isInitialized = true → ¬Rejected s' i name) := by
  have there : ∀ u : Task, (s.tasks.set i u)[i]? = some u := fun u =>
    List.getElem?_set_self at_i
  cases flag : s.isInitialized with
  | true =>
    refine ⟨fun _ => rfl, fun _ => ?_⟩
    rintro ⟨u, id', ctx', at_u, rejected⟩
    simp only [receivedRequest, stateful, flag, Bool.not_true, Bool.and_false,
      Bool.false_eq_true, if_false] at at_u
    split at at_u
    · rw [setTask, there] at at_u
      cases at_u
      cases rejected
    · rw [setTask, there] at at_u
      cases at_u
      rw [place] at rejected
      cases rejected
  | false =>
    refine ⟨?_, nofun⟩
    rintro ⟨u, id', ctx', at_u, passed⟩
    simp only [receivedRequest, stateful, flag, Bool.not_false, Bool.and_self, if_true,
      setTask, there] at at_u
    cases at_u
    cases passed

/-- In every interleaving in order, on a stateful session, the gate is exact. -/
theorem gate_exact (config : SessionConfig) (stateful : config.stateless = false) {ls : List Label}
    (run : Run (Under Orderly (Steps Gate.step)) (new config) ls g) (orderly : g.Orderly l)
    (stepped : g.step l = some g') : Exact g l g' := by
  have inv : g.Sound ∧ g.session.config = config := by
    refine @Run.invariant_under _ _ _ _ _ _ _ (fun g : Gate => g.Sound ∧ g.session.config = config)
      ?_ run ⟨sound_new config, rfl⟩
    rintro g l g' ⟨sound, same⟩ orderly stepped
    exact ⟨sound.step orderly stepped, (step_config stepped).trans same⟩
  obtain ⟨sound, rfl⟩ := inv
  rintro i id name params rfl taken
  obtain ⟨session, ran, rfl⟩ := step_eq stepped
  obtain ⟨t, at_i, ran⟩ := Option.bind_eq_some_iff.mp ran
  rw [Orderly, taken] at orderly
  rw [takes, task, at_i] at taken
  obtain ⟨ctx, rest, place, idle, queue⟩ := queue_of_takes taken
  rw [runTask_of_queue place idle queue] at ran
  cases ran
  have gate := @receivedRequest_at_gate g.session i { t with queue := rest } stateful id name params
    ctx (List.getElem?_eq_some_iff.mp at_i).1 place
  refine ⟨fun passed => sound.flag (gate.1 passed), fun seen => gate.2 ?_⟩
  rcases orderly with open_ | none_
  · exact open_
  · rcases sound.handed seen with open_ | ⟨u, mem, handed⟩
    · exact open_
    · rw [none_ u mem] at handed
      cases handed

/-! Three runs of a session that replies in JSON. -/

def exampleConfig : SessionConfig :=
  { isJsonResponseEnabled := true, stateless := false, initializeResult := fun _ => .null }

def toolsList : Message := .request ⟨.number 2, .named "tools/list", none⟩

/-- `initialize` is answered in full, and then `tools/list` is posted. -/
def inTurn : List Label :=
  [.setHandler, .post [.request ⟨.number 1, .init, none⟩] false,
    .run 0, .run 0, .run 0, .run 0, .run 0, .run 0, .run 0, .post [toolsList] false]

theorem gate_exact_in_turn : ∃ g g', Run (Under Orderly (Steps step)) (new exampleConfig) inTurn g ∧
    g.step (.run 1) = some g' ∧ Passed g'.session 1 ∧ Exact g (.run 1) g' := by
  have run : ∃ g g', Run (Under Orderly (Steps step)) (new exampleConfig) inTurn g ∧
      g.Orderly (.run 1) ∧ g.step (.run 1) = some g' ∧ Passed g'.session 1 :=
    ⟨_, _, run_under_of_foldlM rfl, by exact .inl rfl, rfl, _, _, _, rfl, rfl⟩
  obtain ⟨g, g', run, orderly, stepped, passed⟩ := run
  exact ⟨g, g', run, stepped, passed, gate_exact exampleConfig rfl run orderly stepped⟩

/-- `notifications/initialized` comes without `initialize`. -/
def early : List Label :=
  [.setHandler, .post [.notification .initialized] false, .run 0, .post [toolsList] false]

/-- The response to `initialize` has been sent, and the flag is not set. -/
def late : List Label :=
  [.setHandler, .post [.request ⟨.number 1, .init, none⟩] false,
    .run 0, .run 0, .run 0, .run 0, .run 0, .run 0, .post [toolsList] false]

/-- The gate opens early for the first run and late for the second. -/
theorem gate_opens_early_and_late :
    (∃ g g', Run (Steps step) (new exampleConfig) early g ∧ g.step (.run 1) = some g' ∧
      Passed g'.session 1 ∧ g.initReceived = false ∧ ¬Exact g (.run 1) g') ∧
    (∃ g g', Run (Steps step) (new exampleConfig) late g ∧ g.step (.run 1) = some g' ∧
      Rejected g'.session 1 "tools/list" ∧ g.initHanded = true ∧ ¬Exact g (.run 1) g') := by
  have opens_early : ∃ g g', Run (Steps step) (new exampleConfig) early g ∧
      g.step (.run 1) = some g' ∧ g.takes (.run 1) = some toolsList ∧
        Passed g'.session 1 ∧ g.initReceived = false :=
    ⟨_, _, run_of_foldlM rfl, rfl, rfl, ⟨_, _, _, rfl, rfl⟩, rfl⟩
  have opens_late : ∃ g g', Run (Steps step) (new exampleConfig) late g ∧
      g.step (.run 1) = some g' ∧ g.takes (.run 1) = some toolsList ∧
        Rejected g'.session 1 "tools/list" ∧ g.initHanded = true :=
    ⟨_, _, run_of_foldlM rfl, rfl, rfl, ⟨_, _, _, rfl, rfl⟩, rfl⟩
  constructor
  · obtain ⟨g, g', run, stepped, taken, passed, unseen⟩ := opens_early
    refine ⟨g, g', run, stepped, passed, unseen, fun exact_ => ?_⟩
    have seen := (exact_ 1 _ _ _ rfl taken).1 passed
    rw [unseen] at seen
    cases seen
  · obtain ⟨g, g', run, stepped, taken, rejected, handed⟩ := opens_late
    refine ⟨g, g', run, stepped, rejected, handed, fun exact_ => ?_⟩
    exact (exact_ 1 _ _ _ rfl taken).2 handed rejected

end Gate

end AgentProtocols.MCP
