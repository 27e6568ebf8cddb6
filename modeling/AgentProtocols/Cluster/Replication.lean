import AgentProtocols.Cluster.Store
import AgentProtocols.Lib.Runs

/-!
Replication of one record by spawned tasks, whose sections interleave in any order. Where no task
stamps after the task of the latest call has (`InOrder`), the peer ends with what the registry holds
(`replica_follows_registry`); `late_stamp_revives_record` is a run in which one does.
-/

namespace AgentProtocols.Cluster

open Lib OrderedMap List

/-- A registry entry: the record itself, and its list row. -/
structure RegistryEntry where
  value : Json
  output : JsonDict

def RegistryEntry.payload (e : RegistryEntry) : Json :=
  .obj [("entry", e.value), ("wrapped", .obj e.output)]

inductive MutationOp where
  | register
  | update
  | deregister

/-- A task spawned by the hook, at the section it runs next. -/
inductive Task where
  /-- `on_local_upsert` with the payload captured at the call. -/
  | upsert (entry : RegistryEntry)
  | delete
  /-- `build_local_envelope`, before it takes the lock. -/
  | reading
  /-- `build_local_envelope`, before it asks the registry for the entry. -/
  | looking (version : Version)
  /-- Before the broadcast. -/
  | sending (env : SyncEnvelope)
  | done

namespace Task

/-- `on_mutation`: the task for an operation. -/
def onMutation (op : MutationOp) (entry : Option RegistryEntry) : Task :=
  match op, entry with
  | .deregister, _ => .delete
  | _, none => .delete
  | _, some e => .upsert e

/-- The task has run `stamp_local`. -/
def stamped : Task → Bool
  | upsert _ => false
  | delete => false
  | _ => true

def isDone : Task → Bool
  | done => true
  | _ => false

end Task

/-- The successful calls of the registry on the record. -/
inductive Mutation where
  | register (entry : RegistryEntry)
  | update (entry : RegistryEntry)
  | deregister

/-- The record's entry after the call and the task that the call spawns. -/
def Mutation.run (m : Mutation) (registry : Option RegistryEntry) :
    Option (Option RegistryEntry × Task) :=
  match m with
  | register entry =>
    let op := if registry.isSome then MutationOp.update else .register
    some (some entry, .onMutation op (some entry))
  | update entry =>
    if registry.isSome then some (some entry, .onMutation .update (some entry)) else none
  | deregister => if registry.isSome then some (none, .onMutation .deregister none) else none

/-- The task of a call that leaves the entry, or nothing, in the registry. -/
def Task.forEntry : Option RegistryEntry → Task
  | some entry => .upsert entry
  | none => .delete

theorem Task.stamped_forEntry (entry : Option RegistryEntry) :
    (Task.forEntry entry).stamped = false := by
  cases entry <;> rfl

theorem Mutation.spawned (m : Mutation) {registry entry : Option RegistryEntry} {t : Task}
    (called : m.run registry = some (entry, t)) : t = .forEntry entry := by
  cases m with
  | register e =>
    obtain ⟨rfl, rfl⟩ := called
    split <;> rfl
  | update e =>
    simp only [run, Option.ite_none_right_eq_some] at called
    obtain ⟨-, rfl, rfl⟩ := called
    rfl
  | deregister =>
    simp only [run, Option.ite_none_right_eq_some] at called
    obtain ⟨-, rfl, rfl⟩ := called
    rfl

/-- `stamp_local`: the new version and the state that has it. -/
def ClusterState.stampLocal (st : ClusterState) (dataset serviceId : String) (op : MutationOp)
    (nowMs : Int) : Version × ClusterState :=
  let ts := st.nextTs nowMs
  let version : Version := ⟨ts, st.nodeId⟩
  match op with
  | .deregister => (version, st.setTombstone ts dataset serviceId ⟨version, ts⟩)
  | _ => (version, st.setVersion ts (makeKey dataset serviceId) version)

/-- One record at its origin and at a connected peer. -/
structure Replication where
  registry : Option RegistryEntry
  state : ClusterState
  /-- The tasks in the order of the calls that spawned them. -/
  tasks : List Task
  inFlight : List SyncEnvelope
  peer : ClusterStore

namespace Replication

/-- What a scheduler picks: a call, the next section of a task, or a delivery. -/
inductive Label where
  | mutate (m : Mutation)
  | stamp (i : Nat) (nowMs : Int) (saved : Bool)
  | read (i : Nat)
  | lookup (i : Nat)
  | broadcast (i : Nat)
  | deliver (j : Nat) (now : Int)

variable (dataset serviceId : String)

/-- The envelope of the record with the entry, or a tombstone. -/
def envelope (s : Replication) (version : Version) (entry : Option RegistryEntry) : SyncEnvelope :=
  ⟨dataset, serviceId, s.state.nodeId, version, entry.isNone, entry.map RegistryEntry.payload⟩

def setTask (s : Replication) (i : Nat) (t : Task) : Replication :=
  { s with tasks := s.tasks.set i t }

/-- The stamp of a task; where saving fails, memory has the version all the same. -/
def stampTask (s : Replication) (i : Nat) (nowMs : Int) (saved : Bool) : Option Replication :=
  match s.tasks[i]? with
  | some (.upsert entry) =>
    let (version, state) := s.state.stampLocal dataset serviceId .update nowMs
    let env := s.envelope dataset serviceId version (some entry)
    some { s.setTask i (if saved then .sending env else .done) with state }
  | some .delete =>
    let (_, state) := s.state.stampLocal dataset serviceId .deregister nowMs
    some { s.setTask i (if saved then .reading else .done) with state }
  | _ => none

/-- The lock section of `build_local_envelope`. -/
def readTask (s : Replication) : Task :=
  match s.state.tombstones.get? (makeKey dataset serviceId) with
  | some t => .sending (s.envelope dataset serviceId t.version none)
  | none =>
    match s.state.localVersions.get? (makeKey dataset serviceId) with
    | some version => .looking version
    | none => .done

/-- The rest of `build_local_envelope`. -/
def lookupTask (s : Replication) (version : Version) : Task :=
  match s.registry with
  | some entry => .sending (s.envelope dataset serviceId version (some entry))
  | none => .done

def step (s : Replication) : Label → Option Replication
  | .mutate m =>
    (m.run s.registry).map fun (registry, t) => { s with registry, tasks := s.tasks ++ [t] }
  | .stamp i nowMs saved => s.stampTask dataset serviceId i nowMs saved
  | .read i =>
    match s.tasks[i]? with
    | some .reading => some (s.setTask i (s.readTask dataset serviceId))
    | _ => none
  | .lookup i =>
    match s.tasks[i]? with
    | some (.looking version) => some (s.setTask i (s.lookupTask dataset serviceId version))
    | _ => none
  | .broadcast i =>
    match s.tasks[i]? with
    | some (.sending env) => some { s.setTask i .done with inFlight := s.inFlight ++ [env] }
    | _ => none
  | .deliver j now =>
    match s.inFlight[j]? with
    | some env =>
      some { s with inFlight := s.inFlight.eraseIdx j, peer := (s.peer.applyInbound now env).1 }
    | none => none

/-- The task of the latest call has stamped. -/
def Caught (s : Replication) : Prop := ∀ t, s.tasks.getLast? = some t → t.stamped = true

/-- A task stamps before that of the latest call, and the state is saved. -/
def InOrder (s : Replication) : Label → Prop
  | .stamp i _ saved => saved = true ∧
      (i + 1 = s.tasks.length ∨ s.tasks.getLast?.all (fun t => !t.stamped) = true)
  | _ => True

instance (s : Replication) : (l : Label) → Decidable (s.InOrder l)
  | .stamp .. => inferInstanceAs (Decidable (_ ∧ _))
  | .mutate _ | .read _ | .lookup _ | .broadcast _ | .deliver .. => isTrue trivial

/-- The key of the record at the peer. -/
def key (s : Replication) : Key := ⟨dataset, s.state.nodeId, serviceId⟩

/-- The envelope shows what the registry holds: a tombstone where it holds nothing. -/
def Agrees (registry : Option RegistryEntry) (env : SyncEnvelope) : Prop :=
  match registry with
  | none => env.tombstone = true
  | some entry => env.tombstone = false ∧ env.payload = some entry.payload

/-- The peer shows a live record exactly if the registry has one, and the same
one. -/
def Follows (s : Replication) : Prop :=
  (∀ env, s.peer.foreign.get? (s.key dataset serviceId) = some env → Agrees s.registry env) ∧
    (s.registry.isSome → (s.peer.foreign.get? (s.key dataset serviceId)).isSome)

/-- Every task has run and every envelope has arrived. -/
def Finished (s : Replication) : Prop := (∀ t ∈ s.tasks, t.isDone = true) ∧ s.inFlight = []

/-- The peer is another node and does not suppress the origin. -/
def Connected (s : Replication) : Prop :=
  s.peer.nodeId ≠ s.state.nodeId ∧ s.peer.evictedUntil.get? s.state.nodeId = none

/-- Nothing is under way, and the peer follows the registry with versions of the
origin's clock. -/
structure Synced (s : Replication) : Prop where
  connected : s.Connected
  idle : s.tasks = [] ∧ s.inFlight = []
  follows : s.Follows dataset serviceId
  clock : ∀ env, s.peer.foreign.get? (s.key dataset serviceId) = some env →
    env.version.ms ≤ s.state.versionClock

variable {dataset serviceId} {s s' : Replication}

theorem agrees_envelope (version : Version) (entry : Option RegistryEntry) :
    Agrees entry (s.envelope dataset serviceId version entry) := by
  cases entry with
  | none => rfl
  | some entry => exact ⟨rfl, rfl⟩

/-! ### What holds of the envelopes -/

/-- An envelope of the record that is on its way or at the peer. -/
def Out (dataset serviceId : String) (s : Replication) (env : SyncEnvelope) : Prop :=
  env ∈ s.inFlight ∨ .sending env ∈ s.tasks ∨
    s.peer.foreign.get? (s.key dataset serviceId) = some env

/-- Something will bring the version to the peer, unless it is there. -/
def Carried (dataset serviceId : String) (s : Replication) (top : WithBot Version) : Prop :=
  s.peer.overlayVersion (s.key dataset serviceId) = top ∨
    (∃ env, (env ∈ s.inFlight ∨ .sending env ∈ s.tasks) ∧ (env.version : WithBot Version) = top) ∨
    .reading ∈ s.tasks ∧ ∃ t, s.state.tombstones.get? (makeKey dataset serviceId) = some t ∧
      (t.version : WithBot Version) = top

/-- The version is at most `top`, and the registry agrees with an envelope of it if it
is `top`. -/
def Below (s : Replication) (top : WithBot Version) (env : SyncEnvelope) : Prop :=
  (env.version : WithBot Version) ≤ top ∧
    ((env.version : WithBot Version) = top → Agrees s.registry env)

/-- `top` is the newest version, reaches the peer, and shows what the registry holds. -/
structure Settled (dataset serviceId : String) (s : Replication) (top : WithBot Version) : Prop where
  out : ∀ env, Out dataset serviceId s env → s.Below top env
  looking : ∀ v : Version, .looking v ∈ s.tasks → (v : WithBot Version) ≤ top
  tombstone : .reading ∈ s.tasks → ∀ t,
    s.state.tombstones.get? (makeKey dataset serviceId) = some t →
      s.Below top (s.envelope dataset serviceId t.version none)
  version : .reading ∈ s.tasks → ∀ v : Version,
    s.state.localVersions.get? (makeKey dataset serviceId) = some v → (v : WithBot Version) ≤ top
  carried : Carried dataset serviceId s top
  present : s.registry.isSome → top ≠ ⊥

/-- The invariant: the task of the latest call has what the registry holds. -/
structure Consistent (dataset serviceId : String) (s : Replication) : Prop where
  connected : s.Connected
  keyed : ∀ env, env ∈ s.inFlight ∨ .sending env ∈ s.tasks → env.key = s.key dataset serviceId
  out : ∀ env, Out dataset serviceId s env → env.version.ms ≤ s.state.versionClock
  looking : ∀ v, .looking v ∈ s.tasks → v.ms ≤ s.state.versionClock
  tombstone : .reading ∈ s.tasks → ∀ t,
    s.state.tombstones.get? (makeKey dataset serviceId) = some t →
      t.version.ms ≤ s.state.versionClock
  version : .reading ∈ s.tasks → ∀ v,
    s.state.localVersions.get? (makeKey dataset serviceId) = some v → v.ms ≤ s.state.versionClock
  upsert : ∀ e, s.tasks.getLast? = some (.upsert e) → s.registry = some e
  delete : s.tasks.getLast? = some .delete → s.registry = none
  settled : s.Caught → ∃ top, Settled dataset serviceId s top

theorem Synced.consistent (synced : s.Synced dataset serviceId) :
    Consistent dataset serviceId s := by
  obtain ⟨connected, ⟨tasks, inFlight⟩, ⟨agree, shown⟩, clock⟩ := synced
  have out : ∀ env, Out dataset serviceId s env →
      s.peer.foreign.get? (s.key dataset serviceId) = some env := by
    rintro env (mem | mem | there)
    · rw [inFlight] at mem
      cases mem
    · rw [tasks] at mem
      cases mem
    · exact there
  have idle : ∀ t, t ∉ s.tasks := by
    rw [tasks]
    exact fun t => not_mem_nil
  have last : s.tasks.getLast? = none := by rw [tasks]; rfl
  refine ⟨connected, ?_, fun env there => clock env (out env there), fun v mem => (idle _ mem).elim,
    fun mem => (idle _ mem).elim, fun mem => (idle _ mem).elim, ?_, ?_, ?_⟩
  · rintro env (mem | mem)
    · rw [inFlight] at mem
      cases mem
    · exact (idle _ mem).elim
  · intro e latest
    rw [last] at latest
    cases latest
  · intro latest
    rw [last] at latest
    cases latest
  · intro _
    refine ⟨s.peer.overlayVersion (s.key dataset serviceId), ?_, fun v mem => (idle _ mem).elim,
      fun mem => (idle _ mem).elim, fun mem => (idle _ mem).elim, .inl rfl, ?_⟩
    · intro env there
      have found := out env there
      constructor
      · rw [ClusterStore.overlayVersion, found]
        exact le_refl _
      · exact fun _ => agree env found
    · intro registered
      obtain ⟨env, found⟩ := Option.isSome_iff_exists.mp (shown registered)
      rw [ClusterStore.overlayVersion, found]
      exact WithBot.coe_ne_bot

/-- A settled record is followed once everything has arrived. -/
theorem Settled.follows {top : WithBot Version} (settled : Settled dataset serviceId s top)
    (finished : s.Finished) : s.Follows dataset serviceId := by
  obtain ⟨done, landed⟩ := finished
  have arrived : s.peer.overlayVersion (s.key dataset serviceId) = top := by
    rcases settled.carried with there | ⟨env, mem | mem, -⟩ | ⟨mem, -⟩
    · exact there
    · rw [landed] at mem
      cases mem
    · cases done _ mem
    · cases done _ mem
  constructor
  · intro env found
    apply (settled.out env (.inr (.inr found))).2
    rw [← arrived, ClusterStore.overlayVersion, found]
    rfl
  · intro registered
    have there := settled.present registered
    rw [← arrived, ClusterStore.overlayVersion] at there
    cases found : s.peer.foreign.get? (s.key dataset serviceId) with
    | none =>
      rw [found] at there
      exact (there rfl).elim
    | some env => rfl

/-! ### Steps that stamp nothing -/

theorem mem_set_of_ne {α : Type*} {l : List α} {i : Nat} {a b c : α} (at_i : l[i]? = some b)
    (mem : a ∈ l) (ne : a ≠ b) : a ∈ l.set i c := by
  obtain ⟨j, at_j⟩ := mem_iff_getElem?.mp mem
  have apart : i ≠ j := by
    rintro rfl
    rw [at_i] at at_j
    exact ne (Option.some.inj at_j).symm
  apply mem_iff_getElem?.mpr
  exact ⟨j, by rw [getElem?_set_ne apart, at_j]⟩

theorem getLast?_set {α : Type*} {l : List α} {i : Nat} {a b : α} (at_i : l[i]? = some b) :
    (l.set i a).getLast? = if i + 1 = l.length then some a else l.getLast? := by
  have bound := (List.getElem?_eq_some_iff.mp at_i).1
  rw [List.getLast?_eq_getElem?, List.getLast?_eq_getElem?, List.length_set, List.getElem?_set]
  by_cases last : i + 1 = l.length
  · rw [if_pos last, if_pos (by omega), if_pos bound]
  · rw [if_neg last, if_neg (by omega)]

theorem latest_setTask {i : Nat} {t t' : Task} (at_i : s.tasks[i]? = some t)
    (stamped : t.stamped = true) (stamped' : t'.stamped = true) :
    ((s.setTask i t').Caught → s.Caught) ∧
      ∀ u, (s.setTask i t').tasks.getLast? = some u → u.stamped = false →
        s.tasks.getLast? = some u := by
  have last := @getLast?_set _ s.tasks i t' t at_i
  constructor
  · intro caught u latest
    by_cases here : i + 1 = s.tasks.length
    · have same : s.tasks.getLast? = s.tasks[i]? := by
        rw [getLast?_eq_getElem?, ← here, Nat.add_sub_cancel]
      rw [same, at_i] at latest
      cases latest
      exact stamped
    · apply caught u
      rw [setTask, last, if_neg here]
      exact latest
  · intro u latest unstamped
    rw [setTask, last] at latest
    split at latest
    · cases latest
      rw [stamped'] at unstamped
      cases unstamped
    · exact latest

/-- A version that may appear in an envelope. -/
def Sound (dataset serviceId : String) (s : Replication) (version : Version)
    (P : WithBot Version → Prop) : Prop :=
  version.ms ≤ s.state.versionClock ∧ ∀ top, Settled dataset serviceId s top → P top

def afterStamp (dataset serviceId : String) (s : Replication) (v : Version) :
    Option RegistryEntry → Task
  | some entry => .sending (s.envelope dataset serviceId v (some entry))
  | none => .reading

/-- The state with a new version for the record: that of a tombstone if there is no
entry. -/
structure Stamped (dataset serviceId : String) (st : ClusterState) (v : Version)
    (entry : Option RegistryEntry) (st' : ClusterState) : Prop where
  nodeId : st'.nodeId = st.nodeId
  clock : st'.versionClock = v.ms
  tombstone : ∀ t, st'.tombstones.get? (makeKey dataset serviceId) = some t →
    t.version = v ∧ entry = none
  deleted : entry = none → ∃ t, st'.tombstones.get? (makeKey dataset serviceId) = some t
  version : ∀ w, st'.localVersions.get? (makeKey dataset serviceId) = some w → w = v

namespace Consistent

/-- A step that leaves registry and state keeps the invariant if what is new is sound. -/
theorem moved (c : Consistent dataset serviceId s) (registry : s'.registry = s.registry)
    (state : s'.state = s.state) (connected : s'.Connected)
    (keyed : ∀ env, env ∈ s'.inFlight ∨ .sending env ∈ s'.tasks →
      (env ∈ s.inFlight ∨ .sending env ∈ s.tasks) ∨ env.key = s.key dataset serviceId)
    (out : ∀ env, Out dataset serviceId s' env → Out dataset serviceId s env ∨
      Sound dataset serviceId s env.version fun top => s.Below top env)
    (looking : ∀ v : Version, .looking v ∈ s'.tasks → .looking v ∈ s.tasks ∨
      Sound dataset serviceId s v fun top => (v : WithBot Version) ≤ top)
    (reading : .reading ∈ s'.tasks → .reading ∈ s.tasks)
    (latest : (s'.Caught → s.Caught) ∧ ∀ t, s'.tasks.getLast? = some t → t.stamped = false →
      s.tasks.getLast? = some t)
    (carried : ∀ top, Settled dataset serviceId s top → Carried dataset serviceId s' top) :
    Consistent dataset serviceId s' := by
  have sameKey : s'.key dataset serviceId = s.key dataset serviceId := by rw [key, key, state]
  refine ⟨connected, ?_, ?_, ?_, ?_, ?_, ?_, ?_, ?_⟩
  · intro env mem
    rw [sameKey]
    rcases keyed env mem with old | new
    · exact c.keyed env old
    · exact new
  · intro env there
    rw [state]
    rcases out env there with old | new
    · exact c.out env old
    · exact new.1
  · intro v mem
    rw [state]
    rcases looking v mem with old | new
    · exact c.looking v old
    · exact new.1
  · rw [state]
    exact fun mem => c.tombstone (reading mem)
  · rw [state]
    exact fun mem => c.version (reading mem)
  · intro e last
    rw [registry]
    exact c.upsert e (latest.2 _ last rfl)
  · intro last
    rw [registry]
    exact c.delete (latest.2 _ last rfl)
  · intro caught
    obtain ⟨top, settled⟩ := c.settled (latest.1 caught)
    have below : ∀ {env}, s.Below top env → s'.Below top env := by
      intro env below
      rw [Below, registry]
      exact below
    refine ⟨top, ?_, ?_, ?_, ?_, carried top settled, ?_⟩
    · intro env there
      rcases out env there with old | new
      · exact below (settled.out env old)
      · exact below (new.2 top settled)
    · intro v mem
      rcases looking v mem with old | new
      · exact settled.looking v old
      · exact new.2 top settled
    · intro mem t found
      rw [state] at found
      exact below (settled.tombstone (reading mem) t found)
    · intro mem v found
      rw [state] at found
      exact settled.version (reading mem) v found
    · rw [registry]
      exact settled.present

variable {i : Nat} {env : SyncEnvelope}

variable (c : Consistent dataset serviceId s)

include c

/-- A task that has stamped goes on to build or send an envelope with sound versions. -/
theorem advanced {t t' : Task}
    (at_i : s.tasks[i]? = some t) (stamped : t.stamped = true) (stamped' : t'.stamped = true)
    (idle : ∀ env, t ≠ .sending env) (next : t' ≠ .reading)
    (sends : ∀ env, t' = .sending env → env.key = s.key dataset serviceId ∧
      Sound dataset serviceId s env.version fun top => s.Below top env)
    (looks : ∀ v : Version, t' = .looking v →
      Sound dataset serviceId s v fun top => (v : WithBot Version) ≤ top)
    (carries : t = .reading → ∀ u, s.state.tombstones.get? (makeKey dataset serviceId) = some u →
        t' = .sending (s.envelope dataset serviceId u.version none)) :
    Consistent dataset serviceId (s.setTask i t') := by
  have kept : ∀ {u : Task}, u ∈ (s.setTask i t').tasks → u ∈ s.tasks ∨ u = t' :=
    List.mem_or_eq_of_mem_set
  refine @moved dataset serviceId s (s.setTask i t') c rfl rfl c.connected ?_ ?_ ?_ ?_
    (latest_setTask at_i stamped stamped') ?_
  · rintro env (mem | mem)
    · exact .inl (.inl mem)
    · rcases kept mem with old | new
      · exact .inl (.inr old)
      · exact .inr (sends env new.symm).1
  · rintro env (mem | mem | there)
    · exact .inl (.inl mem)
    · rcases kept mem with old | new
      · exact .inl (.inr (.inl old))
      · exact .inr (sends env new.symm).2
    · exact .inl (.inr (.inr there))
  · intro v mem
    rcases kept mem with old | new
    · exact .inl old
    · exact .inr (looks v new.symm)
  · intro mem
    rcases kept mem with old | new
    · exact old
    · exact (next new.symm).elim
  · intro top settled
    rcases settled.carried with there | ⟨env, mem | mem, version⟩ | ⟨mem, u, found, version⟩
    · exact .inl there
    · exact .inr (.inl ⟨env, .inl mem, version⟩)
    · exact .inr (.inl ⟨env, .inr (mem_set_of_ne at_i mem (idle env).symm), version⟩)
    · by_cases reading : t = .reading
      · refine .inr (.inl ⟨s.envelope dataset serviceId u.version none, .inr ?_, version⟩)
        rw [← carries reading u found]
        exact List.mem_set (List.getElem?_eq_some_iff.mp at_i).1 t'
      · exact .inr (.inr ⟨mem_set_of_ne at_i mem (Ne.symm reading), u, found, version⟩)

theorem read (at_i : s.tasks[i]? = some .reading) :
    Consistent dataset serviceId (s.setTask i (s.readTask dataset serviceId)) := by
  have here : Task.reading ∈ s.tasks := mem_of_getElem? at_i
  rw [readTask]
  split
  · rename_i t found
    refine c.advanced at_i rfl rfl (by rintro env ⟨⟩) nofun ?_ (by rintro v ⟨⟩) ?_
    · rintro env ⟨⟩
      exact ⟨rfl, c.tombstone here t found, fun top settled => settled.tombstone here t found⟩
    · rintro - u same
      rw [found] at same
      cases same
      rfl
  · rename_i absent
    have none : Task.reading = .reading → ∀ {t' : Task} u,
        s.state.tombstones.get? (makeKey dataset serviceId) = some u →
          t' = .sending (s.envelope dataset serviceId u.version none) := by
      rintro - t' u same
      rw [absent] at same
      cases same
    split
    · rename_i version found
      refine c.advanced at_i rfl rfl (by rintro env ⟨⟩) nofun (by rintro env ⟨⟩) ?_
        fun same => none same
      rintro v ⟨⟩
      exact ⟨c.version here version found, fun top settled => settled.version here version found⟩
    · exact c.advanced at_i rfl rfl (by rintro env ⟨⟩) nofun (by rintro env ⟨⟩)
        (by rintro v ⟨⟩) fun same => none same

theorem lookup {v : Version} (at_i : s.tasks[i]? = some (.looking v)) :
    Consistent dataset serviceId (s.setTask i (s.lookupTask dataset serviceId v)) := by
  have here : Task.looking v ∈ s.tasks := mem_of_getElem? at_i
  rw [lookupTask]
  split
  · rename_i entry found
    refine c.advanced at_i rfl rfl (by rintro env ⟨⟩) nofun ?_ (by rintro w ⟨⟩) nofun
    rintro env ⟨⟩
    refine ⟨rfl, c.looking v here, fun top settled => ⟨settled.looking v here, fun _ => ?_⟩⟩
    rw [found]
    exact agrees_envelope v (some entry)
  · exact c.advanced at_i rfl rfl (by rintro env ⟨⟩) nofun (by rintro env ⟨⟩) (by rintro w ⟨⟩) nofun

theorem broadcast (at_i : s.tasks[i]? = some (.sending env)) :
    Consistent dataset serviceId { s.setTask i .done with inFlight := s.inFlight ++ [env] } := by
  have here : Task.sending env ∈ s.tasks := mem_of_getElem? at_i
  have kept : ∀ {u : Task}, u ∈ s.tasks.set i .done → u ∈ s.tasks ∨ u = .done :=
    mem_or_eq_of_mem_set
  have sent : ∀ e, e ∈ s.inFlight ++ [env] ∨ .sending e ∈ s.tasks.set i .done →
      e ∈ s.inFlight ∨ .sending e ∈ s.tasks := by
    rintro e (mem | mem)
    · rcases mem_append.mp mem with old | new
      · exact .inl old
      · rw [mem_singleton.mp new]
        exact .inr here
    · rcases kept mem with old | new
      · exact .inr old
      · cases new
  refine @moved dataset serviceId s _ c rfl rfl c.connected ?_ ?_ ?_ ?_
    (latest_setTask at_i rfl rfl) ?_
  · exact fun e mem => .inl (sent e mem)
  · rintro e (mem | mem | there)
    · exact .inl (or_assoc.mp (.inl (sent e (.inl mem))))
    · exact .inl (or_assoc.mp (.inl (sent e (.inr mem))))
    · exact .inl (.inr (.inr there))
  · intro v mem
    rcases kept mem with old | new
    · exact .inl old
    · cases new
  · intro mem
    rcases kept mem with old | new
    · exact old
    · cases new
  · intro top settled
    rcases settled.carried with there | ⟨e, mem | mem, version⟩ | ⟨mem, reads⟩
    · exact .inl there
    · exact .inr (.inl ⟨e, .inl (mem_append_left _ mem), version⟩)
    · by_cases same : e = env
      · rw [same] at version
        exact .inr (.inl ⟨env, .inl (mem_append_right _ (.head _)), version⟩)
      · refine .inr (.inl ⟨e, .inr (mem_set_of_ne at_i mem ?_), version⟩)
        rintro ⟨⟩
        exact same rfl
    · exact .inr (.inr ⟨mem_set_of_ne at_i mem nofun, reads⟩)

theorem delivered (now : Int) (mem : env ∈ s.inFlight) :
    (s.peer.applyInbound now env).1.overlayVersion (s.key dataset serviceId) =
        max (s.peer.overlayVersion (s.key dataset serviceId)) env.version ∧
      ∀ e, (s.peer.applyInbound now env).1.foreign.get? (s.key dataset serviceId) = some e →
        e = env ∨ s.peer.foreign.get? (s.key dataset serviceId) = some e := by
  have key := c.keyed env (.inl mem)
  have origin : env.originId = s.state.nodeId := congrArg Key.originId key
  have admitted : (s.peer.filing now).admits env = true := by
    rw [ClusterStore.admits_iff, origin, c.connected.2]
    exact ⟨c.connected.1.symm, by simp⟩
  have foreign := (@ClusterStore.applyInbound_eq s.peer now env).1
  constructor
  · rw [ClusterStore.overlayVersion, foreign, ← key]
    exact Filing.versionAt_offer_self admitted
  · intro e found
    rw [foreign, Filing.offer] at found
    split at found
    · rw [← key] at found
      left
      exact (Option.some.inj (get?_insert_self.symm.trans found)).symm
    · exact .inr found

theorem deliver {j : Nat} (now : Int)
    (at_j : s.inFlight[j]? = some env) : Consistent dataset serviceId
      { s with inFlight := s.inFlight.eraseIdx j, peer := (s.peer.applyInbound now env).1 } := by
  have here : env ∈ s.inFlight := mem_of_getElem? at_j
  have same := @ClusterStore.applyInbound_sameNode s.peer now env
  obtain ⟨overlay, found⟩ := c.delivered now here
  have connected : (s.peer.applyInbound now env).1.nodeId ≠ s.state.nodeId ∧
      (s.peer.applyInbound now env).1.evictedUntil.get? s.state.nodeId = none := by
    rw [ClusterStore.nodeId, same.state, same.evictedUntil]
    exact c.connected
  refine @moved dataset serviceId s _ c rfl rfl connected ?_ ?_ (fun v mem => .inl mem)
    (fun mem => mem) ⟨fun caught => caught, fun t last _ => last⟩ ?_
  · rintro e (mem | mem)
    · exact .inl (.inl (mem_of_mem_eraseIdx mem))
    · exact .inl (.inr mem)
  · rintro e (mem | mem | there)
    · exact .inl (.inl (mem_of_mem_eraseIdx mem))
    · exact .inl (.inr (.inl mem))
    · rcases found e there with rfl | old
      · exact .inl (.inl here)
      · exact .inl (.inr (.inr old))
  · intro top settled
    have below := (settled.out env (.inl here)).1
    rcases settled.carried with there | ⟨e, mem | mem, version⟩ | reads
    · exact .inl (overlay.trans (by rw [there, max_eq_left below]))
    · obtain ⟨i, at_i⟩ := mem_iff_getElem?.mp mem
      by_cases first : i = j
      · rw [first, at_j] at at_i
        cases at_i
        refine .inl (overlay.trans ?_)
        rw [version, max_eq_right]
        cases old : s.peer.foreign.get? (s.key dataset serviceId) with
        | none =>
          rw [ClusterStore.overlayVersion, old]
          exact bot_le
        | some e =>
          rw [ClusterStore.overlayVersion, old]
          exact (settled.out e (.inr (.inr old))).1
      · exact .inr (.inl ⟨e, .inl (mem_eraseIdx_iff_getElem?.mpr ⟨i, first, at_i⟩), version⟩)
    · exact .inr (.inl ⟨e, .inr mem, version⟩)
    · exact .inr (.inr reads)

/-! ### Calls and stamps -/

theorem mutate {m : Mutation} {entry : Option RegistryEntry}
    {t : Task} (called : m.run s.registry = some (entry, t)) :
    Consistent dataset serviceId { s with registry := entry, tasks := s.tasks ++ [t] } := by
  have spawned := m.spawned called
  have unstamped : t.stamped = false := by
    rw [spawned]
    exact Task.stamped_forEntry entry
  have kept : ∀ {u : Task}, u.stamped = true → u ∈ s.tasks ++ [t] → u ∈ s.tasks := by
    intro u stamped mem
    rcases mem_append.mp mem with old | new
    · exact old
    · rw [mem_singleton.mp new, unstamped] at stamped
      cases stamped
  have last : (s.tasks ++ [t]).getLast? = some t := getLast?_concat
  refine ⟨c.connected, ?_, ?_, ?_, ?_, ?_, ?_, ?_, ?_⟩
  · rintro env (mem | mem)
    · exact c.keyed env (.inl mem)
    · exact c.keyed env (.inr (kept rfl mem))
  · rintro env (mem | mem | there)
    · exact c.out env (.inl mem)
    · exact c.out env (.inr (.inl (kept rfl mem)))
    · exact c.out env (.inr (.inr there))
  · exact fun v mem => c.looking v (kept rfl mem)
  · exact fun mem => c.tombstone (kept rfl mem)
  · exact fun mem => c.version (kept rfl mem)
  · intro e latest
    rw [last, spawned] at latest
    cases entry with
    | none => cases latest
    | some entry =>
      cases latest
      rfl
  · intro latest
    rw [last, spawned] at latest
    cases entry with
    | none => rfl
    | some entry => cases latest
  · intro caught
    rw [caught t last] at unstamped
    cases unstamped

theorem stamp {entry : Option RegistryEntry}
    {v : Version} {state : ClusterState} (at_i : s.tasks[i]? = some (.forEntry entry))
    (inOrder : i + 1 = s.tasks.length ∨ s.tasks.getLast?.all (fun t => !t.stamped) = true)
    (newer : s.state.versionClock < v.ms) (stamped : Stamped dataset serviceId s.state v entry state) :
    Consistent dataset serviceId
      { s.setTask i (s.afterStamp dataset serviceId v entry) with state } := by
  have kept : ∀ {u : Task}, u ∈ s.tasks.set i (s.afterStamp dataset serviceId v entry) →
      u ∈ s.tasks ∨ u = s.afterStamp dataset serviceId v entry := List.mem_or_eq_of_mem_set
  have here : s.afterStamp dataset serviceId v entry ∈
      s.tasks.set i (s.afterStamp dataset serviceId v entry) :=
    List.mem_set (List.getElem?_eq_some_iff.mp at_i).1 _
  have sends : ∀ env, .sending env ∈ s.tasks.set i (s.afterStamp dataset serviceId v entry) →
      .sending env ∈ s.tasks ∨ entry.isSome ∧ env = s.envelope dataset serviceId v entry := by
    intro env mem
    rcases kept mem with old | new
    · exact .inl old
    · cases entry with
      | none => cases new
      | some e =>
        cases new
        exact .inr ⟨rfl, rfl⟩
  have looks : ∀ w, .looking w ∈ s.tasks.set i (s.afterStamp dataset serviceId v entry) →
      .looking w ∈ s.tasks := by
    intro w mem
    rcases kept mem with old | new
    · exact old
    · cases entry <;> cases new
  have sameKey : ∀ {s' : Replication}, s'.state = state →
      s'.key dataset serviceId = s.key dataset serviceId := by
    intro s' same
    rw [key, key, same, stamped.nodeId]
  have outs : ∀ env, Out dataset serviceId
      { s.setTask i (s.afterStamp dataset serviceId v entry) with state } env →
        Out dataset serviceId s env ∨ entry.isSome ∧ env = s.envelope dataset serviceId v entry := by
    rintro env (mem | mem | there)
    · exact .inl (.inl mem)
    · rcases sends env mem with old | new
      · exact .inl (.inr (.inl old))
      · exact .inr new
    · rw [sameKey rfl] at there
      exact .inl (.inr (.inr there))
  have last := @getLast?_set _ s.tasks i (s.afterStamp dataset serviceId v entry) _ at_i
  have past : ∀ {w : Version}, w.ms ≤ s.state.versionClock → w < v := by
    intro w bound
    exact Version.lt_of_ms (lt_of_le_of_lt bound newer)
  refine ⟨?_, ?_, ?_, ?_, ?_, ?_, ?_, ?_, ?_⟩
  · rw [Connected, stamped.nodeId]
    exact c.connected
  · intro env mem
    rw [sameKey rfl]
    rcases mem with mem | mem
    · exact c.keyed env (.inl mem)
    · rcases sends env mem with old | ⟨-, rfl⟩
      · exact c.keyed env (.inr old)
      · rfl
  · intro env there
    rw [stamped.clock]
    rcases outs env there with old | ⟨-, rfl⟩
    · exact (c.out env old).trans newer.le
    · exact le_refl _
  · intro w mem
    rw [stamped.clock]
    exact (c.looking w (looks w mem)).trans newer.le
  · intro _ t found
    rw [stamped.clock, (stamped.tombstone t found).1]
  · intro _ w found
    rw [stamped.clock, stamped.version w found]
  · intro e latest
    rw [setTask, last] at latest
    split at latest
    · cases entry <;> cases latest
    · exact c.upsert e latest
  · intro latest
    rw [setTask, last] at latest
    split at latest
    · cases entry <;> cases latest
    · exact c.delete latest
  · intro caught
    have final : i + 1 = s.tasks.length := by
      by_contra other
      have unstamped := inOrder.resolve_left other
      cases found : s.tasks.getLast? with
      | none =>
        rw [List.getLast?_eq_none_iff.mp found] at at_i
        cases at_i
      | some t =>
        have behind := caught t (by rw [setTask, last, if_neg other, found])
        rw [found, Option.all_some, behind] at unstamped
        cases unstamped
    have holds : s.registry = entry := by
      have latest : s.tasks.getLast? = some (.forEntry entry) := by
        rw [List.getLast?_eq_getElem?, ← final, Nat.add_sub_cancel, at_i]
      cases entry with
      | none => exact c.delete latest
      | some e => exact c.upsert e latest
    refine ⟨v, ?_, ?_, ?_, ?_, ?_, fun _ => WithBot.coe_ne_bot⟩
    · intro env there
      rcases outs env there with old | ⟨-, rfl⟩
      · have older := WithBot.coe_lt_coe.mpr (past (c.out env old))
        exact ⟨older.le, fun same => (older.ne same).elim⟩
      · refine ⟨le_refl _, fun _ => ?_⟩
        rw [setTask, holds]
        exact agrees_envelope v entry
    · intro w mem
      exact WithBot.coe_le_coe.mpr (past (c.looking w (looks w mem))).le
    · intro _ t found
      obtain ⟨version, deleted⟩ := stamped.tombstone t found
      rw [version]
      refine ⟨le_refl _, fun _ => ?_⟩
      rw [setTask, holds, deleted]
      exact agrees_envelope v none
    · intro _ w found
      rw [stamped.version w found]
    · cases entry with
      | none =>
        obtain ⟨t, found⟩ := stamped.deleted rfl
        refine .inr (.inr ⟨here, t, found, ?_⟩)
        rw [(stamped.tombstone t found).1]
      | some e => exact .inr (.inl ⟨_, .inr here, rfl⟩)

omit c

theorem stamped_update (st : ClusterState) (nowMs : Int) (entry : RegistryEntry) :
    Stamped dataset serviceId st ⟨st.nextTs nowMs, st.nodeId⟩ (some entry)
      (st.stampLocal dataset serviceId .update nowMs).2 where
  nodeId := rfl
  clock := rfl
  tombstone t found := by
    have gone : (st.tombstones.erase (makeKey dataset serviceId)).get? _ = some t := found
    rw [get?_erase_self] at gone
    cases gone
  deleted := nofun
  version w found := (Option.some.inj (get?_insert_self.symm.trans found)).symm

theorem stamped_deregister (st : ClusterState) (nowMs : Int) :
    Stamped dataset serviceId st ⟨st.nextTs nowMs, st.nodeId⟩ none
      (st.stampLocal dataset serviceId .deregister nowMs).2 where
  nodeId := rfl
  clock := rfl
  tombstone t found := by
    have there := get?_insert_self.symm.trans found
    cases there
    exact ⟨rfl, rfl⟩
  deleted _ := ⟨_, get?_insert_self⟩
  version w found := by
    have gone : (st.localVersions.erase (makeKey dataset serviceId)).get? _ = some w := found
    rw [get?_erase_self] at gone
    cases gone

include c

theorem stampTask {nowMs : Int}
    (inOrder : i + 1 = s.tasks.length ∨ s.tasks.getLast?.all (fun t => !t.stamped) = true)
    (stepped : s.stampTask dataset serviceId i nowMs true = some s') :
    Consistent dataset serviceId s' := by
  have newer : s.state.versionClock < s.state.nextTs nowMs := by
    rw [ClusterState.nextTs]
    omega
  rw [Replication.stampTask] at stepped
  split at stepped
  · rename_i entry at_i
    cases stepped
    exact c.stamp (show s.tasks[i]? = some (.forEntry (some entry)) from at_i) inOrder newer
      (stamped_update s.state nowMs entry)
  · rename_i at_i
    cases stepped
    exact c.stamp (show s.tasks[i]? = some (.forEntry none) from at_i) inOrder newer
      (stamped_deregister s.state nowMs)
  · cases stepped

theorem step {l : Label} (inOrder : s.InOrder l)
    (stepped : s.step dataset serviceId l = some s') : Consistent dataset serviceId s' := by
  cases l with
  | mutate m =>
    obtain ⟨⟨entry, t⟩, called, rfl⟩ := Option.map_eq_some_iff.mp stepped
    exact c.mutate called
  | stamp i nowMs saved =>
    obtain ⟨rfl, inOrder⟩ := inOrder
    exact c.stampTask inOrder stepped
  | read i =>
    rw [Replication.step] at stepped
    split at stepped
    · rename_i at_i
      cases stepped
      exact c.read at_i
    · cases stepped
  | lookup i =>
    rw [Replication.step] at stepped
    split at stepped
    · rename_i v at_i
      cases stepped
      exact c.lookup at_i
    · cases stepped
  | broadcast i =>
    rw [Replication.step] at stepped
    split at stepped
    · rename_i env at_i
      cases stepped
      exact c.broadcast at_i
    · cases stepped
  | deliver j now =>
    rw [Replication.step] at stepped
    split at stepped
    · rename_i env at_j
      cases stepped
      exact c.deliver now at_j
    · cases stepped

omit c

end Consistent

/-- A node that knows nothing yet. -/
def blank (nodeId : String) : ClusterStore where
  state := .new nodeId
  foreign := .empty
  sessions := .empty
  evictedUntil := .empty
  registry := none
  merkleBuckets := 256
  authEnabled := false
  keyed := foreign_empty_keyed
  notOwn := foreign_empty_notOwn nodeId

def firstRecord : Replication := ⟨none, (blank "A").state, [], [], blank "B"⟩

theorem firstRecord_synced : firstRecord.Synced "ds" "x" where
  connected := ⟨by decide, rfl⟩
  idle := ⟨rfl, rfl⟩
  follows := ⟨by rintro env ⟨⟩, nofun⟩
  clock := by rintro env ⟨⟩

def echo : RegistryEntry := ⟨.obj [("service_id", .str "x")], [("id", .str "x")]⟩

/-- Two calls with the tasks in order and the envelopes the other way round. -/
def inTurn : List Label :=
  [.mutate (.register echo), .stamp 0 10 true, .mutate .deregister, .stamp 1 11 true, .read 1,
    .broadcast 1, .broadcast 0, .deliver 0 0, .deliver 0 0]

/-- The same calls, but the task of the registration stamps last. -/
def late : List Label :=
  [.mutate (.register echo), .mutate .deregister, .stamp 1 10 true, .read 1, .broadcast 1,
    .stamp 0 11 true, .broadcast 0, .deliver 0 0, .deliver 0 0]

end Replication

end AgentProtocols.Cluster
