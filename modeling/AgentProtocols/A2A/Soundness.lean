import AgentProtocols.A2A.Interleaving

/-!
What a thread may rely on: tasks are stored under their own id and never removed, and an info
serves one task for ever. `Thread.Ok` is what this makes of the data of a thread; it can only grow
true (`Thread.Ok.mono`, `Sound.step`).
-/

namespace AgentProtocols.A2A

open Lib
open AgentProtocols.MCP (RequestId RpcError Response)

namespace Handler

def Stored (h : Handler) (id : String) : Prop := (h.manager.getTask id).isSome

/-- The info was registered for the task. -/
def Owner (h : Handler) (i : Nat) (id : String) : Prop := h.owners[i]? = some id

end Handler

def EventCb.For (id : String) : EventCb → Prop
  | send taskId _ _ => taskId = id
  | stream _ => True

def Publication.Ok (h : Handler) (p : Publication) : Prop :=
  h.Stored p.taskId ∧ PublishedFor p.taskId p.event

/-- What holds of the data of a thread. -/
def Thread.Ok (h : Handler) : Thread → Prop
  | rereading _ id => h.Stored id
  | registering _ id t => h.Stored id ∧ t.id = id ∧ isFinal t.status.state = false
  | registeringNew _ id _ => h.Stored id
  | appending _ id t => h.Stored id ∧ t.id = id ∧ isFinal t.status.state = false
  | opening _ id _ => h.Stored id
  | subscribing _ id => h.Stored id
  | pushing _ id i => h.Stored id ∧ h.Owner i id
  | starting _ id => h.Stored id
  | canceling t => h.Stored t.id ∧ h.executor = true
  | cancelFinding t => h.Stored t.id ∧ h.executor = true
  | cancelLocking t i => h.Stored t.id ∧ h.executor = true ∧ h.Owner i t.id
  | cancelSaving t info => h.Stored t.id ∧ h.executor = true ∧ ∀ i, info = some i → h.Owner i t.id
  | cancelDirectly _ => h.executor = false
  | checking _ _ => h.executor = true
  | flagging _ p => h.executor = true ∧ p.Ok h
  | processing p => h.executor = true ∧ p.Ok h
  | locking p i => h.executor = true ∧ p.Ok h ∧ h.Owner i p.taskId
  | reading p i =>
    h.executor = true ∧ p.Ok h ∧ h.Owner i p.taskId ∧ IsUpdate p.taskId p.event
  | ensuring _ _ => False
  | ensureSaving _ _ => False
  | saving p i t =>
    h.executor = true ∧ p.Ok h ∧ h.Owner i p.taskId ∧ IsUpdate p.taskId p.event ∧ t.id = p.taskId
  | cloning p i => h.executor = true ∧ p.Ok h ∧ h.Owner i p.taskId
  | calling p i cbs => h.executor = true ∧ p.Ok h ∧ h.Owner i p.taskId ∧ ∀ cb ∈ cbs, cb.For p.taskId
  | completing p i id _ t msg rest =>
    h.executor = true ∧ p.Ok h ∧ h.Owner i p.taskId ∧ (∀ cb ∈ rest, cb.For p.taskId) ∧
      id = p.taskId ∧ t.id = p.taskId ∧ p.event = .message msg
  | answering p i _ _ _ rest =>
    h.executor = true ∧ p.Ok h ∧ h.Owner i p.taskId ∧ ∀ cb ∈ rest, cb.For p.taskId
  | _ => True

namespace Handler

/-- What holds of a handler besides its threads. -/
structure Sound (h : Handler) : Prop where
  keyed : ∀ id t, h.manager.getTask id = some t → t.id = id
  owned : h.owners.length = h.manager.infos.length
  owner : ∀ id i, h.manager.info id = some i → h.Owner i id
  callbacks : ∀ i id, h.Owner i id → ∀ cb ∈ h.manager.callbacks i, cb.For id
  updaters : ∀ up ∈ h.updaters, h.executor = true ∧ h.Stored up.taskId
  threads : ∀ t ∈ h.threads, t.Ok h

theorem sound_new {executor : Bool} {taskStore : OrderedMap String Task}
    (keyed : ∀ id t, taskStore.get? id = some t → t.id = id) : (new executor taskStore).Sound where
  keyed := keyed
  owned := rfl
  owner id i found := by cases found
  callbacks i id owner cb mem := by cases owner
  updaters up mem := by cases mem
  threads t mem := by cases mem

/-! ### Facts that stay true -/

/-- The second handler has what the first one had. -/
structure Extends (h h' : Handler) : Prop where
  executor : h'.executor = h.executor
  stored : ∀ id, h.Stored id → h'.Stored id
  owner : ∀ i id, h.Owner i id → h'.Owner i id

variable {h h' : Handler} {id : String} {i : Nat}

theorem extends_perform (h : Handler) (a : Action) : h.Extends (h.perform a) where
  executor := by cases a <;> rfl
  stored id stored := by
    rw [Stored, perform_getTask]
    split
    · split
      · rfl
      · exact stored
    · exact stored
  owner i id owner := by
    rw [Owner, perform_owners]
    split
    · rw [List.getElem?_append_left (List.getElem?_eq_some_iff.mp owner).1]
      exact owner
    · exact owner

end Handler

theorem Publication.Ok.mono {h h' : Handler} (ext : h.Extends h') {p : Publication} (ok : p.Ok h) :
    p.Ok h' :=
  ⟨ext.stored _ ok.1, ok.2⟩

theorem Thread.Ok.mono {h h' : Handler} (ext : h.Extends h') {t : Thread} (ok : t.Ok h) : t.Ok h' := by
  have exec := ext.executor
  cases t with
  | rereading c id => exact ext.stored _ ok
  | registering c id t => exact ⟨ext.stored _ ok.1, ok.2⟩
  | registeringNew c id created => exact ext.stored _ ok
  | appending c id t => exact ⟨ext.stored _ ok.1, ok.2⟩
  | opening c id s => exact ext.stored _ ok
  | subscribing c id => exact ext.stored _ ok
  | pushing c id i => exact ⟨ext.stored _ ok.1, ext.owner _ _ ok.2⟩
  | starting c id => exact ext.stored _ ok
  | canceling t => exact ⟨ext.stored _ ok.1, exec.trans ok.2⟩
  | cancelFinding t => exact ⟨ext.stored _ ok.1, exec.trans ok.2⟩
  | cancelLocking t i => exact ⟨ext.stored _ ok.1, exec.trans ok.2.1, ext.owner _ _ ok.2.2⟩
  | cancelSaving t info =>
    exact ⟨ext.stored _ ok.1, exec.trans ok.2.1, fun i same => ext.owner _ _ (ok.2.2 i same)⟩
  | cancelDirectly t => exact exec.trans ok
  | checking u c => exact exec.trans ok
  | flagging u p => exact ⟨exec.trans ok.1, ok.2.mono ext⟩
  | processing p => exact ⟨exec.trans ok.1, ok.2.mono ext⟩
  | locking p i => exact ⟨exec.trans ok.1, ok.2.1.mono ext, ext.owner _ _ ok.2.2⟩
  | reading p i => exact ⟨exec.trans ok.1, ok.2.1.mono ext, ext.owner _ _ ok.2.2.1, ok.2.2.2⟩
  | ensuring p i => exact ok
  | ensureSaving p i => exact ok
  | saving p i t => exact ⟨exec.trans ok.1, ok.2.1.mono ext, ext.owner _ _ ok.2.2.1, ok.2.2.2⟩
  | cloning p i => exact ⟨exec.trans ok.1, ok.2.1.mono ext, ext.owner _ _ ok.2.2⟩
  | calling p i cbs => exact ⟨exec.trans ok.1, ok.2.1.mono ext, ext.owner _ _ ok.2.2.1, ok.2.2.2⟩
  | completing p i id k t msg rest =>
    exact ⟨exec.trans ok.1, ok.2.1.mono ext, ext.owner _ _ ok.2.2.1, ok.2.2.2⟩
  | answering p i id k r rest =>
    exact ⟨exec.trans ok.1, ok.2.1.mono ext, ext.owner _ _ ok.2.2.1, ok.2.2.2⟩
  | _ => trivial

/-! ### Every section keeps it -/

namespace Handler

variable {h h' : Handler} {id : String} {i : Nat} {t t' : Thread} {a : Action} {l : Label}

theorem stored_of_getTask {task : Task} (found : h.manager.getTask id = some task) : h.Stored id :=
  Option.isSome_iff_exists.mpr ⟨task, found⟩

theorem published_ok {u : Nat} {up : TaskUpdater} {call : UpdaterCall} (executor : h.executor = true)
    (stored : h.Stored up.taskId) : (published u up call).Ok h := by
  have ok : ∀ flag, (⟨up.taskId, up.event call, flag⟩ : Publication).Ok h := fun flag =>
    ⟨stored, up.event_published call⟩
  cases call with
  | updateStatus state message timestamp metadata now =>
    simp only [published]
    split
    · exact ⟨executor, ok none⟩
    · exact ⟨executor, ok none⟩
  | addArtifact param generated => exact ⟨executor, ok none⟩
  | sendResponseMessage message => exact ⟨executor, ok (some u)⟩

theorem runThread_ok (sound : h.Sound) (ok : t.Ok h) (ran : h.runThread t = some (a, t')) :
    t'.Ok (h.perform a) := by
  have later : ∀ {u : Thread}, u.Ok h → u.Ok (h.perform a) := fun ok =>
    ok.mono (extends_perform h a)
  cases t with
  | looking c =>
    simp only [runThread] at ran
    split at ran
    · cases ran
      trivial
    · rename_i id task determined
      have found : h.manager.getTask id = some task := TaskManager.determineTaskId_spec determined
      split at ran
      · cases ran
        trivial
      · rename_i running
        cases ran
        exact later ⟨stored_of_getTask found, sound.keyed _ _ found, (Bool.not_eq_true _).mp running⟩
    · cases ran
      trivial
  | creating c id =>
    simp only [runThread] at ran
    split at ran
    · cases ran
    · cases ran
      have stored : (h.perform (.save (newTask id (c.params.message.contextId.getD
          c.fresh.contextUuid) c.params.message))).Stored id := by
        rw [Stored, perform_getTask]
        dsimp only
        rw [if_pos (show id = (newTask id _ _).id from rfl)]
        rfl
      split
      · exact stored
      · exact stored
  | rereading c id =>
    cases ran
    exact later (u := .registeringNew _ _ _) ok
  | registering c id task =>
    cases ran
    exact later (u := .appending _ _ _) ok
  | registeringNew c id created =>
    cases ran
    exact later (u := .opening _ _ _) ok
  | appending c id task =>
    cases ran
    exact later (u := .opening _ _ _) ok.1
  | opening c id snapshot =>
    simp only [runThread] at ran
    split at ran
    · split at ran
      · cases ran
        trivial
      · cases ran
        exact later (u := .subscribing _ _) ok
    · cases ran
      exact later (u := .subscribing _ _) ok
  | subscribing c id =>
    simp only [runThread] at ran
    split at ran
    · cases ran
      exact later (u := .starting _ _) ok
    · rename_i i found
      cases ran
      exact later (u := .pushing _ _ _) ⟨ok, sound.owner _ _ found⟩
  | pushing c id i =>
    cases ran
    exact later (u := .starting _ _) ok.1
  | starting c id =>
    simp only [runThread] at ran
    split at ran
    · cases ran
      trivial
    · cases ran
      trivial
  | executing c id u =>
    cases ran
    trivial
  | cancelLooking id =>
    simp only [runThread] at ran
    split at ran
    · cases ran
      trivial
    · rename_i task found
      split at ran
      · cases ran
        trivial
      · split at ran
        · rename_i executor
          cases ran
          refine later (u := .canceling _) ⟨?_, executor⟩
          rw [sound.keyed _ _ found]
          exact stored_of_getTask found
        · rename_i executor
          cases ran
          exact later (u := .cancelDirectly _) ((Bool.not_eq_true _).mp executor)
  | canceling task =>
    cases ran
    refine later (u := .cancelFinding _) ⟨?_, ok.2⟩
    cases found : h.manager.getTask task.id with
    | none => exact ok.1
    | some latest =>
      rw [Option.getD_some, sound.keyed _ _ found]
      exact ok.1
  | cancelFinding task =>
    simp only [runThread] at ran
    split at ran
    · cases ran
      trivial
    · split at ran
      · cases ran
        exact later (u := .cancelSaving _ _) ⟨ok.1, ok.2, nofun⟩
      · rename_i i found
        cases ran
        exact later (u := .cancelLocking _ _) ⟨ok.1, ok.2, sound.owner _ _ found⟩
  | cancelLocking task i =>
    simp only [runThread] at ran
    split at ran
    · cases ran
    · cases ran
      exact later (u := .cancelSaving _ _) ⟨ok.1, ok.2.1, fun i same => by
        cases same
        exact ok.2.2⟩
  | cancelSaving task info =>
    cases info with
    | none =>
      cases ran
      trivial
    | some i =>
      cases ran
      exact later (u := .cloning _ _) ⟨ok.2.1, ⟨ok.1, rfl⟩, ok.2.2 i rfl⟩
  | cancelDirectly task =>
    cases ran
    trivial
  | checking u call =>
    obtain ⟨up, found, same⟩ := Option.map_eq_some_iff.mp ran
    cases same
    split
    · trivial
    · have there := sound.updaters up (List.mem_of_getElem? found)
      exact published_ok there.1 there.2
  | flagging u p =>
    cases ran
    exact later (u := .processing _) ok
  | processing p =>
    simp only [runThread] at ran
    split at ran
    · cases ran
      trivial
    · rename_i i found
      cases ran
      exact later (u := .locking _ _) ⟨ok.1, ok.2, sound.owner _ _ found⟩
  | locking p i =>
    simp only [runThread] at ran
    split at ran
    · cases ran
    · split at ran
      · cases ran
        exact later (u := .cloning _ _) ok
      · rename_i other
        cases ran
        refine later (u := .reading _ _) ⟨ok.1, ok.2.1, ok.2.2, ?_⟩
        have published := ok.2.1.2
        cases event : p.event with
        | message msg => exact absurd event (other msg)
        | _ =>
          rw [event] at published
          exact published
  | reading p i =>
    obtain ⟨executor, fine, owner, update⟩ := ok
    obtain ⟨task, found⟩ := Option.isSome_iff_exists.mp fine.1
    simp only [runThread, found] at ran
    cases ran
    exact later (u := .saving _ _ _) ⟨executor, fine, owner, update, sound.keyed _ _ found⟩
  | ensuring p i => exact ok.elim
  | ensureSaving p i => exact ok.elim
  | saving p i task =>
    cases ran
    exact later (u := .cloning _ _) ⟨ok.1, ok.2.1, ok.2.2.1⟩
  | cloning p i =>
    cases ran
    exact later (u := .calling _ _ _) ⟨ok.1, ok.2.1, ok.2.2, sound.callbacks _ _ ok.2.2⟩
  | calling p i cbs =>
    obtain ⟨executor, fine, owner, own⟩ := ok
    cases cbs with
    | nil =>
      simp only [runThread] at ran
      split at ran
      · cases ran
        trivial
      · cases ran
        trivial
    | cons cb rest =>
      have left_ : ∀ cb ∈ rest, cb.For p.taskId := fun cb mem =>
        own cb (List.mem_cons_of_mem _ mem)
      have next : (Thread.calling p i rest).Ok h := ⟨executor, fine, owner, left_⟩
      cases cb with
      | stream k =>
        cases ran
        exact later next
      | send id blocking k =>
        have same : id = p.taskId := own _ List.mem_cons_self
        simp only [runThread] at ran
        split at ran
        · cases ran
          exact later next
        · rename_i task found
          split at ran
          · rename_i msg event
            cases ran
            exact later (u := .completing _ _ _ _ _ _ _) ⟨executor, fine, owner, left_, same,
              (sound.keyed _ _ found).trans same, event⟩
          · split at ran
            · cases ran
              exact later (u := .answering _ _ _ _ _ _) ⟨executor, fine, owner, left_⟩
            · cases ran
              exact later next
  | completing p i id k task msg rest =>
    cases ran
    exact later (u := .answering _ _ _ _ _ _) ⟨ok.1, ok.2.1, ok.2.2.1, ok.2.2.2.1⟩
  | answering p i id k result rest =>
    cases ran
    exact later (u := .calling _ _ _) ok
  | releasing p i =>
    cases ran
    trivial
  | leaving p =>
    simp only [runThread] at ran
    split at ran
    · cases ran
      trivial
    · cases ran
      trivial
  | ended => cases ran

theorem runThread_push {cb : EventCb} (ran : h.runThread t = some (.push i cb, t')) :
    ∃ c id, t = .pushing c id i ∧ cb = c.callback id := by
  unfold runThread at ran
  repeat' split at ran
  all_goals first
    | cases ran
    | (obtain ⟨up, -, same⟩ := Option.map_eq_some_iff.mp ran
       cases same)
  exact ⟨_, _, rfl, rfl⟩

theorem runThread_create {contextId : String}
    (ran : h.runThread t = some (.create id contextId, t')) : h.executor = true ∧
      ((∃ c, t = .starting c id) ∨ ∃ taskId task, t = .cancelLooking taskId ∧
        h.manager.getTask taskId = some task ∧ id = task.id) := by
  unfold runThread at ran
  repeat' split at ran
  all_goals first
    | cases ran
    | (obtain ⟨up, -, same⟩ := Option.map_eq_some_iff.mp ran
       cases same)
  · exact ⟨‹_›, .inl ⟨_, rfl⟩⟩
  · exact ⟨‹_›, .inr ⟨_, _, rfl, ‹_›, rfl⟩⟩

theorem perform_updaters {up : TaskUpdater} (mem : up ∈ (h.perform a).updaters) :
    (∃ up' ∈ h.updaters, up'.taskId = up.taskId) ∨ ∃ contextId, a = .create up.taskId contextId := by
  cases a with
  | create id contextId =>
    rcases List.mem_append.mp mem with mem | mem
    · exact .inl ⟨up, mem, rfl⟩
    · cases List.mem_singleton.mp mem
      exact .inr ⟨contextId, rfl⟩
  | flag u =>
    left
    obtain ⟨j, found⟩ := List.mem_iff_getElem?.mp mem
    rw [perform, List.getElem?_modify] at found
    obtain ⟨up', there, same⟩ := Option.map_eq_some_iff.mp found
    refine ⟨up', List.mem_of_getElem? there, ?_⟩
    rw [← same]
    split <;> rfl
  | _ => exact .inl ⟨up, mem, rfl⟩

theorem perform_sound (sound : h.Sound) (ok : t.Ok h) (ran : h.runThread t = some (a, t'))
    (ts : List Thread) (oks : ∀ t ∈ ts, t.Ok (h.perform a)) :
    ({ h.perform a with threads := ts } : Handler).Sound where
  keyed id task found := by
    replace found : (h.perform a).manager.getTask id = some task := found
    rw [perform_getTask] at found
    split at found
    · split at found
      · rename_i same
        cases found
        exact same.symm
      · exact sound.keyed id task found
    · exact sound.keyed id task found
  owned := by
    have owned := sound.owned
    change (h.perform a).owners.length = (h.perform a).manager.infos.length
    rw [perform_owners, perform_infos_length]
    split
    · rw [List.length_append, owned]
      rfl
    · exact owned
  owner id i found := by
    replace found : (h.perform a).manager.info id = some i := found
    rw [perform_info] at found
    split at found
    · rename_i taskId
      split at found
      · rename_i same
        cases found
        change (h.owners ++ [taskId])[h.manager.infos.length]? = some id
        rw [← sound.owned, List.getElem?_concat_length, same]
      · exact (extends_perform h _).owner _ _ (sound.owner _ _ found)
    · split at found
      · cases found
      · exact (extends_perform h _).owner _ _ (sound.owner _ _ found)
    · exact (extends_perform h a).owner _ _ (sound.owner _ _ found)
  callbacks i id owner cb mem := by
    have ext := extends_perform h a
    -- an owner that was there before is the one that is there now
    have before : ∀ id', h.Owner i id' → id' = id := fun id' there =>
      Option.some.inj ((ext.owner _ _ there).symm.trans owner)
    rcases perform_callbacks a mem with old | rfl
    · have there : i < h.owners.length := by
        rw [sound.owned]
        by_contra above
        rw [TaskManager.callbacks, List.getElem?_eq_none (Nat.le_of_not_lt above)] at old
        cases old
      obtain ⟨id', there⟩ : ∃ id', h.Owner i id' := ⟨_, List.getElem?_eq_getElem there⟩
      rw [← before id' there]
      exact sound.callbacks i id' there cb old
    · obtain ⟨c, id', rfl, rfl⟩ := runThread_push ran
      rw [← before id' ok.2, Call.callback]
      split
      · trivial
      · exact rfl
  updaters up mem := by
    have ext := extends_perform h a
    rcases perform_updaters mem with ⟨up', old, same⟩ | ⟨contextId, rfl⟩
    · obtain ⟨executor, stored⟩ := sound.updaters up' old
      exact ⟨ext.executor.trans executor, ext.stored _ (same ▸ stored)⟩
    · obtain ⟨executor, origin⟩ := runThread_create ran
      refine ⟨executor, ext.stored _ ?_⟩
      rcases origin with ⟨c, rfl⟩ | ⟨taskId, task, -, found, same⟩
      · exact ok
      · rw [same, sound.keyed _ _ found]
        exact stored_of_getTask found
  threads t mem := (oks t mem).mono ⟨rfl, fun _ stored => stored, fun _ _ owner => owner⟩

theorem Sound.spawn (sound : h.Sound) {emitters : List Emitter} (ok : t.Ok h) :
    ({ h with
      manager := { h.manager with emitters }
      threads := h.threads ++ [t] } : Handler).Sound := by
  have ext : h.Extends { h with
      manager := { h.manager with emitters }
      threads := h.threads ++ [t] } := ⟨rfl, fun _ stored => stored, fun _ _ owner => owner⟩
  exact ⟨sound.keyed, sound.owned, sound.owner, sound.callbacks, sound.updaters,
    forall_mem_concat (fun u mem => (sound.threads u mem).mono ext) (ok.mono ext)⟩

theorem step_cases (stepped : h.step l = some h') :
    (∃ t emitters, h' = { h with
        manager := { h.manager with emitters }
        threads := h.threads ++ [t] } ∧
      (h.Sound → t.Ok h) ∧ t.holds = none ∧ ∀ j, l ≠ .run j) ∨
    ∃ j t a t', l = .run j ∧ h.threads[j]? = some t ∧ h.runThread t = some (a, t') ∧
      h' = { h.perform a with threads := h.threads.set j t' } := by
  cases l with
  | send params streaming fresh id =>
    cases stepped
    exact .inl ⟨_, _, rfl, fun _ => trivial, rfl, nofun⟩
  | cancel taskId =>
    cases stepped
    exact .inl ⟨_, _, rfl, fun _ => trivial, rfl, nofun⟩
  | publish u call =>
    simp only [step] at stepped
    split at stepped
    · rename_i below
      cases stepped
      refine .inl ⟨_, h.manager.emitters, rfl, fun sound => ?_, rfl, nofun⟩
      exact (sound.updaters _ (List.getElem_mem below)).1
    · cases stepped
  | run j =>
    obtain ⟨t, at_j, ran⟩ := Option.bind_eq_some_iff.mp stepped
    obtain ⟨⟨a, t'⟩, done, rfl⟩ := Option.map_eq_some_iff.mp ran
    exact .inr ⟨j, t, a, t', rfl, at_j, done, rfl⟩

theorem Sound.step (sound : h.Sound) (stepped : h.step l = some h') : h'.Sound := by
  rcases step_cases stepped with ⟨t, emitters, rfl, ok, -⟩ | ⟨j, t, a, t', -, at_j, ran, rfl⟩
  · exact sound.spawn (ok sound)
  · have ok := sound.threads t (List.mem_of_getElem? at_j)
    exact perform_sound sound ok ran _ (forall_mem_set
      (fun u mem => (sound.threads u mem).mono (extends_perform h a)) (runThread_ok sound ok ran))

end Handler

end AgentProtocols.A2A
