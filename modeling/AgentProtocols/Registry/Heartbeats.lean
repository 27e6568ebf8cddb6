import AgentProtocols.Lib.OrderedMap
import AgentProtocols.Lib.Runs

/-!
The renewers of the registry client and the registry of renewers. A renewer is a handle with a stop
flag and a slot for its task; a slot that is dropped with its last handle aborts the task.

* `Heartbeats.Sound.step` — as long as no renewer is started while it is being stopped, or stopped
  while it is in the map, each renewer in the map has its task, and every other task ends.
* `renewers_match` — in every such run exactly one task renews each key of the map in the end.
* `late_start_survives` — a run that leaves a task nobody can stop.
-/

namespace AgentProtocols.Registry

open Lib OrderedMap Function List

/-- The calls that stop renewers; `signal_stop_all` does not wait. -/
inductive StopMode where
  | remove
  | shutdown
  | signal
deriving DecidableEq

/-- Where a call is: `insert` to `leave` are the steps of `add`; the others begin with their section
and then stop one renewer after the other. -/
inductive RenewerCall (Key : Type*) where
  | insert (r : Nat)
  | replace (r old : Nat)
  | discard (r old : Nat)
  | start (r : Nat)
  | spawn (r : Nat)
  | leave (r : Nat)
  | lookUp (k : Key)
  | drain (mode : StopMode)
  | store (mode : StopMode) (r : Nat) (rest : List Nat)
  | take (mode : StopMode) (r : Nat) (rest : List Nat)
  | await (mode : StopMode) (r task : Nat) (rest : List Nat)
  | release (mode : StopMode) (r : Nat) (rest : List Nat)
  | returned
deriving DecidableEq

namespace RenewerCall

variable {Key : Type*}

def holds : RenewerCall Key → Nat → Bool
  | insert r, x | start r, x | spawn r, x | leave r, x => x = r
  | replace r old, x | discard r old, x => x = r || x = old
  | store _ r rest, x | take _ r rest, x | await _ r _ rest, x | release _ r rest, x =>
    x = r || rest.contains x
  | lookUp _, _ | drain _, _ | returned, _ => false

def starts : RenewerCall Key → Nat → Prop
  | replace r _, x | discard r _, x | start r, x => x = r
  | _, _ => False

/-- The call is going to set the flag of the renewer. -/
def stores : RenewerCall Key → Nat → Prop
  | replace _ old, x => x = old
  | store _ r rest, x => x = r ∨ x ∈ rest
  | take _ _ rest, x | await _ _ _ rest, x | release _ _ rest, x => x ∈ rest
  | _, _ => False

/-- The call is inside the section of `start`. -/
def isSpawn : RenewerCall Key → Bool
  | spawn _ => true
  | _ => false

/-- What the call goes on with when it has dropped a handle. -/
def next (mode : StopMode) : List Nat → RenewerCall Key
  | [] => returned
  | r :: rest => store mode r rest

end RenewerCall

/-- Where a task is: waiting, in the heartbeat call, or at its end. -/
inductive RenewerPlace where
  | waiting
  | calling
  | ended
deriving DecidableEq

/-- The map, the renewers with the handles that callers have kept, the tasks and the calls. -/
structure Heartbeats (Key : Type*) where
  registry : OrderedMap Key Nat := .empty
  stop : Nat → Bool := fun _ => false
  slot : Nat → Option Nat := fun _ => none
  outside : Nat → Nat := fun _ => 0
  spawned : Nat := 0
  owner : Nat → Nat := fun _ => 0
  place : Nat → RenewerPlace := fun _ => .ended
  calls : List (RenewerCall Key) := []

/-- A step of a caller, of a call or of a task. -/
inductive HeartbeatLabel (Key : Type*) where
  | clone (r : Nat)
  | drop (r : Nat)
  | add (r : Nat)
  | remove (k : Key)
  | shutdownAll
  | signalStopAll
  | go (c : Nat)
  | drained (c : Nat) (order : List Nat)
  | timeout (c : Nat)
  | wake (task : Nat)
  | called (task : Nat)

namespace Heartbeats

variable {Key : Type*} [DecidableEq Key] (key : Nat → Key)

/-- The renewer is in the map. -/
def listed (s : Heartbeats Key) (r : Nat) : Bool := s.registry.get? (key r) = some r

/-- Somebody has a handle of the renewer. -/
def held (s : Heartbeats Key) (r : Nat) : Bool :=
  0 < s.outside r || s.listed key r || s.calls.any (·.holds r)

/-- A handle has been dropped: if it was the last one, so is the slot, which aborts
the task in it. -/
def settle (s : Heartbeats Key) (r : Nat) : Heartbeats Key :=
  match s.slot r with
  | some t => if s.held key r then s else { s with place := Function.update s.place t .ended }
  | none => s

def setCall (s : Heartbeats Key) (c : Nat) (call : RenewerCall Key) : Heartbeats Key :=
  { s with calls := s.calls.set c call }

/-- The slot has a task that has not finished. -/
def busy (s : Heartbeats Key) (r : Nat) : Bool := (s.slot r).any fun t => s.place t ≠ .ended

/-- A call of `start` is in the section of the slot. -/
def locked (s : Heartbeats Key) (r : Nat) : Bool :=
  s.calls.any fun call => match call with | .spawn x => x = r | _ => false

/-- `HeartbeatRegistry::add`: the insertion into the map. -/
def insert (s : Heartbeats Key) (c r : Nat) : Heartbeats Key :=
  { s with
    registry := s.registry.insert (key r) r
    calls := s.calls.set c
      (match s.registry.get? (key r) with
        | some old => .replace r old
        | none => .start r) }

/-- `stop.store(true)`, the first step of `signal_stop` and of `stop`. -/
def setStop (s : Heartbeats Key) (r : Nat) : Heartbeats Key :=
  { s with stop := Function.update s.stop r true }

/-- `HeartbeatRenewer::start`, up to `stop.store(false)`. -/
def start (s : Heartbeats Key) (c r : Nat) : Heartbeats Key :=
  if s.busy r then s.setCall c (.leave r)
  else { s with stop := Function.update s.stop r false, calls := s.calls.set c (.spawn r) }

/-- The rest of `start`: the task is spawned and its join handle put into the slot. -/
def spawn (s : Heartbeats Key) (c r : Nat) : Heartbeats Key :=
  { s with
    slot := Function.update s.slot r (some s.spawned)
    owner := Function.update s.owner s.spawned r
    place := Function.update s.place s.spawned .waiting
    spawned := s.spawned + 1
    calls := s.calls.set c (.leave r) }

/-- `HeartbeatRegistry::remove`: the renewer is taken out of the map. -/
def lookUp (s : Heartbeats Key) (c : Nat) (k : Key) : Heartbeats Key :=
  match s.registry.get? k with
  | none => s.setCall c .returned
  | some r =>
    { s with
      registry := s.registry.erase k
      calls := s.calls.set c (.store .remove r []) }

/-- `stop`: the join handle is taken out of the slot. -/
def take (s : Heartbeats Key) (c : Nat) (mode : StopMode) (r : Nat) (rest : List Nat) :
    Heartbeats Key :=
  { s with
    slot := Function.update s.slot r none
    calls := s.calls.set c
      (match s.slot r with
        | some t => .await mode r t rest
        | none => .release mode r rest) }

/-- The next step of a call. -/
def go (s : Heartbeats Key) (c : Nat) : RenewerCall Key → Option (Heartbeats Key)
  | .insert r => some (s.insert key c r)
  | .replace r old => some ((s.setStop old).setCall c (.discard r old))
  | .discard r old => some ((s.setCall c (.start r)).settle key old)
  | .start r => if s.locked r then none else some (s.start c r)
  | .spawn r => some (s.spawn c r)
  | .leave r => some ((s.setCall c .returned).settle key r)
  | .lookUp k => some (s.lookUp c k)
  | .drain _ => none
  | .store mode r rest =>
    some ((s.setStop r).setCall c
      (if mode = .signal then .release mode r rest else .take mode r rest))
  | .take mode r rest => if s.locked r then none else some (s.take c mode r rest)
  | .await mode r t rest =>
    if s.place t = .ended then some (s.setCall c (.release mode r rest)) else none
  | .release mode r rest => some ((s.setCall c (.next mode rest)).settle key r)
  | .returned => none

/-- The next step of a caller, of a call or of a task. -/
def step (s : Heartbeats Key) : HeartbeatLabel Key → Option (Heartbeats Key)
  | .clone r =>
    if 0 < s.outside r then
      some { s with outside := Function.update s.outside r (s.outside r + 1) }
    else none
  | .drop r =>
    if 0 < s.outside r then
      some (({ s with outside := Function.update s.outside r (s.outside r - 1) } :
        Heartbeats Key).settle key r)
    else none
  | .add r =>
    if 0 < s.outside r then
      some { s with
        outside := Function.update s.outside r (s.outside r - 1)
        calls := s.calls ++ [.insert r] }
    else none
  | .remove k => some { s with calls := s.calls ++ [.lookUp k] }
  | .shutdownAll => some { s with calls := s.calls ++ [.drain .shutdown] }
  | .signalStopAll => some { s with calls := s.calls ++ [.drain .signal] }
  | .go c => s.calls[c]?.bind fun call => s.go key c call
  | .drained c order =>
    match s.calls[c]? with
    | some (.drain mode) =>
      if order.Perm s.registry.values then
        some { s with registry := .empty, calls := s.calls.set c (.next mode order) }
      else none
    | _ => none
  | .timeout c =>
    match s.calls[c]? with
    | some (.await .shutdown r _ rest) => some (s.setCall c (.release .shutdown r rest))
    | _ => none
  | .wake t =>
    if s.place t = .waiting then
      some { s with
        place := Function.update s.place t (if s.stop (s.owner t) then .ended else .calling) }
    else none
  | .called t =>
    if s.place t = .calling then some { s with place := Function.update s.place t .waiting }
    else none

/-- A renewer is stopped only while it is not in the map, and started only while nobody stops it. -/
def proper (s : Heartbeats Key) : HeartbeatLabel Key → Bool
  | .go c =>
    match s.calls[c]? with
    | some (.replace _ r) | some (.store _ r _) => !s.listed key r
    | some (.start r) =>
      if s.busy r then !s.listed key r || !s.stop r
      else
        (List.range s.spawned).all (fun t => s.place t = .ended || s.owner t ≠ r) &&
          s.calls.all (fun call => match call with | .take _ x _ => x ≠ r | _ => true) &&
          (s.listed key r || s.outside r = 0)
    | _ => true
  | _ => true

/-! ### The invariant -/

/-- What holds, with the exception of renewers of which a handle has just been dropped. -/
structure SoundBut (s : Heartbeats Key) (dropped : Nat → Prop) : Prop where
  keyed : ∀ k r, s.registry.get? k = some r → key r = k
  fresh : ∀ t, s.place t ≠ .ended → t < s.spawned
  slots : ∀ r t, s.slot r = some t → s.owner t = r ∧ t < s.spawned
  /-- a renewer in the map is going to be started, or has its task -/
  ready : ∀ r, s.listed key r = true → (∃ call ∈ s.calls, call.starts r) ∨
    (s.stop r = false ∧ (.spawn r ∈ s.calls ∨ s.busy r = true))
  /-- a task that is not in the slot has been told to stop -/
  inSlot : ∀ t, s.place t ≠ .ended → s.slot (s.owner t) = some t ∨ s.stop (s.owner t) = true
  lone : ∀ r t, .spawn r ∈ s.calls → s.place t ≠ .ended → s.owner t ≠ r
  /-- a renewer out of the map is going to be told to stop, or loses its last handle -/
  leaving : ∀ r, s.listed key r = false → s.stop r = false →
    (.spawn r ∈ s.calls ∨ ∃ t, s.place t ≠ .ended ∧ s.owner t = r) →
      (∃ call ∈ s.calls, call.stores r) ∨ s.outside r = 0
  awaited : ∀ mode r t rest, .await mode r t rest ∈ s.calls → t < s.spawned ∧
    (s.place t = .ended ∨ (s.stop r = true ∧ s.owner t = r))
  taking : ∀ mode r rest, .take mode r rest ∈ s.calls → s.stop r = true
  single : ∀ (c c' r : Nat), s.calls[c]? = some (.spawn r) → s.calls[c']? = some (.spawn r) → c = c'
  live : ∀ r t, s.slot r = some t → s.place t ≠ .ended → dropped r ∨ s.held key r = true

def Sound (s : Heartbeats Key) : Prop := s.SoundBut key fun _ => False

variable {key} {s s' : Heartbeats Key} {l : HeartbeatLabel Key} {ls : List (HeartbeatLabel Key)}
  {x y : Nat → Prop} {c r : Nat}

theorem sound_nil (handles : Nat → Nat) : ({ outside := handles } : Heartbeats Key).Sound key where
  keyed _ _ found := by cases found
  fresh _ running := absurd rfl running
  slots _ _ found := by cases found
  ready _ listed_ := by cases listed_
  inSlot _ running := absurd rfl running
  lone _ _ mem := by cases mem
  leaving _ _ _ some_ := by
    rcases some_ with mem | ⟨t, running, -⟩
    · cases mem
    · exact absurd rfl running
  awaited _ _ _ _ mem := by cases mem
  taking _ _ _ mem := by cases mem
  single _ _ _ found := by cases found
  live _ _ found := by cases found

variable {new call : RenewerCall Key} {t : Nat} {mode : StopMode} {s : Heartbeats Key}
  {rest : List Nat}

theorem held_iff : s.held key r = true ↔
    0 < s.outside r ∨ s.listed key r = true ∨ ∃ call ∈ s.calls, call.holds r = true := by
  simp only [held, Bool.or_eq_true, decide_eq_true_eq, any_eq_true, or_assoc]

omit [DecidableEq Key] in
theorem busy_iff : s.busy r = true ↔ ∃ t, s.slot r = some t ∧ s.place t ≠ .ended := by
  rw [busy]
  cases s.slot r with
  | none => simp
  | some t => simp

variable (sound : s.SoundBut key x)

include sound

theorem SoundBut.setCall {old : RenewerCall Key}
    (found : s.calls[c]? = some old) (quiet : old.isSpawn = false ∧ new.isSpawn = false)
    (starts : ∀ r, old.starts r → new.starts r ∨
      (s.listed key r = true → s.stop r = false ∧ s.busy r = true))
    (stores : ∀ r, old.stores r → new.stores r ∨ s.stop r = true)
    (await_ : ∀ mode r t rest, new = .await mode r t rest → t < s.spawned ∧
      (s.place t = .ended ∨ (s.stop r = true ∧ s.owner t = r)))
    (take_ : ∀ mode r rest, new = .take mode r rest → s.stop r = true)
    (holds : ∀ r, old.holds r = true → y r ∨ new.holds r = true) (more : ∀ r, x r → y r) :
    (s.setCall c new).SoundBut key y := by
  have here : new ∈ (s.setCall c new).calls := mem_set_of_getElem? found
  have kept : ∀ call ∈ s.calls, call ≠ old → call ∈ (s.setCall c new).calls :=
    fun call mem other => mem_set_of_ne found mem other
  have old_ : ∀ r, .spawn r ≠ old := by
    rintro r rfl
    cases quiet.1
  have new_ : ∀ r, .spawn r ≠ new := by
    rintro r rfl
    cases quiet.2
  have spawn_ : ∀ r, .spawn r ∈ (s.setCall c new).calls → .spawn r ∈ s.calls := by
    intro r mem
    exact (mem_or_eq_of_mem_set mem).elim id fun same => absurd same (new_ r)
  constructor
  · exact sound.keyed
  · exact sound.fresh
  · exact sound.slots
  · intro r listed_
    rcases sound.ready r listed_ with ⟨call, mem, starts_⟩ | ⟨cleared, some_⟩
    · by_cases same : call = old
      · subst same
        rcases starts r starts_ with still | done
        · exact .inl ⟨new, here, still⟩
        · exact .inr ⟨(done listed_).1, .inr (done listed_).2⟩
      · exact .inl ⟨call, kept call mem same, starts_⟩
    · refine .inr ⟨cleared, some_.imp (fun mem => ?_) id⟩
      exact kept _ mem (old_ r)
  · exact sound.inSlot
  · exact fun r t mem => sound.lone r t (spawn_ r mem)
  · intro r out cleared some_
    rcases sound.leaving r out cleared (some_.imp (spawn_ r) id) with ⟨call, mem, stores_⟩ | none_
    · by_cases same : call = old
      · subst same
        rcases stores r stores_ with still | told
        · exact .inl ⟨new, here, still⟩
        · rw [show s.stop r = false from cleared] at told
          cases told
      · exact .inl ⟨call, kept call mem same, stores_⟩
    · exact .inr none_
  · intro mode r t rest mem
    rcases mem_or_eq_of_mem_set mem with mem | same
    · exact sound.awaited mode r t rest mem
    · exact await_ mode r t rest same.symm
  · intro mode r rest mem
    rcases mem_or_eq_of_mem_set mem with mem | same
    · exact sound.taking mode r rest mem
    · exact take_ mode r rest same.symm
  · intro i j r at_i at_j
    rcases getElem?_set_cases at_i with ⟨-, same⟩ | ⟨-, at_i⟩
    · exact absurd same (new_ r)
    · rcases getElem?_set_cases at_j with ⟨-, same⟩ | ⟨-, at_j⟩
      · exact absurd same (new_ r)
      · exact sound.single i j r at_i at_j
  · intro r t slot running
    rcases sound.live r t slot running with dropped | held_
    · exact .inl (more r dropped)
    · rcases held_iff.mp held_ with outside | listed_ | ⟨call, mem, holds_⟩
      · exact .inr (held_iff.mpr (.inl outside))
      · exact .inr (held_iff.mpr (.inr (.inl listed_)))
      · by_cases same : call = old
        · subst same
          exact (holds r holds_).imp id fun still =>
            held_iff.mpr (.inr (.inr ⟨new, here, still⟩))
        · exact .inr (held_iff.mpr (.inr (.inr ⟨call, kept call mem same, holds_⟩)))

theorem SoundBut.setStop (out : s.listed key r = false) : (s.setStop r).SoundBut key x := by
  have told : ∀ r', s.stop r' = true → (s.setStop r).stop r' = true := by
    intro r' told
    by_cases same : r' = r
    · subst same
      exact update_self ..
    · exact (update_of_ne same ..).trans told
  have cleared : ∀ r', (s.setStop r).stop r' = false → s.stop r' = false := by
    intro r' untold
    by_contra other
    rw [told r' ((Bool.not_eq_false _).mp other)] at untold
    cases untold
  constructor
  · exact sound.keyed
  · exact sound.fresh
  · exact sound.slots
  · intro r' listed_
    refine (sound.ready r' listed_).imp id fun ⟨untold, some_⟩ => ⟨?_, some_⟩
    have other : r' ≠ r := by
      rintro rfl
      rw [show s.listed key r' = true from listed_] at out
      cases out
    exact (update_of_ne other ..).trans untold
  · exact fun t running => (sound.inSlot t running).imp id (told _)
  · exact sound.lone
  · exact fun r' out' untold some_ => sound.leaving r' out' (cleared r' untold) some_
  · exact fun mode r' t rest mem =>
      (sound.awaited mode r' t rest mem).imp id (Or.imp id fun ⟨told', same⟩ => ⟨told r' told', same⟩)
  · exact fun mode r' rest mem => told r' (sound.taking mode r' rest mem)
  · exact sound.single
  · exact sound.live

omit sound

open Heartbeats

/-- The handles of a renewer of which one has just been dropped are looked at. -/
theorem SoundBut.settle (sound : s.SoundBut key (· = r)) : (s.settle key r).Sound key := by
  -- where nothing happens, the exception is none
  have unchanged : (∀ t, s.slot r = some t → s.place t ≠ .ended → s.held key r = true) →
      s.Sound key := by
    intro still
    refine { sound with live := fun r' t slot running => .inr ?_ }
    by_cases same : r' = r
    · subst same
      exact still t slot running
    · exact (sound.live r' t slot running).resolve_left same
  rw [Heartbeats.settle]
  split
  · rename_i t slot
    split
    · rename_i held_
      exact unchanged fun _ _ _ => held_
    · rename_i unheld
      have fewer : ∀ u, Function.update s.place t .ended u ≠ .ended → s.place u ≠ .ended ∧ u ≠ t := by
        intro u running
        have other : u ≠ t := by
          rintro rfl
          exact running (update_self ..)
        rw [update_of_ne other] at running
        exact ⟨running, other⟩
      constructor
      · exact sound.keyed
      · exact fun u running => sound.fresh u (fewer u running).1
      · exact sound.slots
      · intro r' listed_
        refine (sound.ready r' listed_).imp id fun ⟨untold, some_⟩ => ⟨untold, some_.imp id ?_⟩
        intro busy_
        obtain ⟨u, slot', running⟩ := busy_iff.mp busy_
        refine busy_iff.mpr ⟨u, slot', ?_⟩
        have other : u ≠ t := by
          rintro rfl
          have first := (sound.slots r u slot).1
          have second := (sound.slots r' u slot').1
          have same : r' = r := second.symm.trans first
          subst same
          exact unheld (held_iff.mpr (.inr (.inl listed_)))
        exact fun ended => running ((update_of_ne other ..).symm.trans ended)
      · exact fun u running => sound.inSlot u (fewer u running).1
      · exact fun r' u mem running => sound.lone r' u mem (fewer u running).1
      · intro r' out untold some_
        refine sound.leaving r' out untold (some_.imp id ?_)
        rintro ⟨u, running, same⟩
        exact ⟨u, (fewer u running).1, same⟩
      · intro mode r' u rest mem
        refine (sound.awaited mode r' u rest mem).imp id (Or.imp (fun ended => ?_) id)
        by_contra running
        exact (fewer u running).1 ended
      · exact sound.taking
      · exact sound.single
      · intro r' u slot' running
        obtain ⟨running', other⟩ := fewer u running
        refine .inr ((sound.live r' u slot' running').resolve_left ?_)
        rintro rfl
        rw [slot] at slot'
        cases slot'
        exact other rfl
  · rename_i none_
    exact unchanged fun t slot => by rw [none_] at slot; cases slot

include sound

/-- Renewers come into the map before their start, and leave it before their stop. -/
theorem SoundBut.setRegistry {registry : OrderedMap Key Nat}
    (keyed : ∀ k r, registry.get? k = some r → key r = k)
    (comes : ∀ r, registry.get? (key r) = some r →
      s.listed key r = true ∨ ∃ call ∈ s.calls, call.starts r)
    (leaves : ∀ r, registry.get? (key r) ≠ some r → s.listed key r = false ∨
      ∃ call ∈ s.calls, call.stores r ∧ call.holds r = true) :
    ({ s with registry := registry } : Heartbeats Key).SoundBut key x where
  keyed := keyed
  fresh := sound.fresh
  slots := sound.slots
  ready r listed_ := by
    rcases comes r (decide_eq_true_eq.mp listed_) with before | some_
    · exact sound.ready r before
    · exact .inl some_
  inSlot := sound.inSlot
  lone := sound.lone
  leaving r out untold some_ := by
    rcases leaves r (decide_eq_false_iff_not.mp out) with before | ⟨call, mem, stores, -⟩
    · exact sound.leaving r before untold some_
    · exact .inl ⟨call, mem, stores⟩
  awaited := sound.awaited
  taking := sound.taking
  single := sound.single
  live r t slot running := by
    refine (sound.live r t slot running).imp id fun held_ => held_iff.mpr ?_
    rcases held_iff.mp held_ with outside | listed_ | some_
    · exact .inl outside
    · by_cases still : registry.get? (key r) = some r
      · exact .inr (.inl (decide_eq_true still))
      · rcases leaves r still with out | ⟨call, mem, -, holds⟩
        · rw [listed_] at out
          cases out
        · exact .inr (.inr ⟨call, mem, holds⟩)
    · exact .inr (.inr some_)

theorem SoundBut.begin (outside : Nat → Nat) (calls : List (RenewerCall Key))
    (quiet : ∀ call ∈ calls, (∃ r, call = .insert r) ∨ (∃ k, call = .lookUp k) ∨
      ∃ mode, call = .drain mode) (none_ : ∀ r, s.outside r = 0 → outside r = 0)
    (some_ : ∀ r, 0 < s.outside r → y r ∨ 0 < outside r ∨ ∃ call ∈ calls, call.holds r = true)
    (more : ∀ r, x r → y r) :
    ({ s with outside := outside, calls := s.calls ++ calls } : Heartbeats Key).SoundBut key y := by
  have old : ∀ call ∈ s.calls, call ∈ s.calls ++ calls := fun _ mem => mem_append_left _ mem
  have spawn_ : ∀ r, .spawn r ∈ s.calls ++ calls → .spawn r ∈ s.calls := by
    intro r mem
    refine (mem_append.mp mem).elim id fun new => ?_
    rcases quiet _ new with ⟨_, same⟩ | ⟨_, same⟩ | ⟨_, same⟩ <;> cases same
  constructor
  · exact sound.keyed
  · exact sound.fresh
  · exact sound.slots
  · intro r listed_
    rcases sound.ready r listed_ with ⟨call, mem, starts⟩ | ⟨untold, busy_⟩
    · exact .inl ⟨call, old call mem, starts⟩
    · exact .inr ⟨untold, busy_.imp (old _) id⟩
  · exact sound.inSlot
  · exact fun r t mem => sound.lone r t (spawn_ r mem)
  · intro r out untold running
    rcases sound.leaving r out untold (running.imp (spawn_ r) id) with ⟨call, mem, stores⟩ | zero
    · exact .inl ⟨call, old call mem, stores⟩
    · exact .inr (none_ r zero)
  · intro mode r t rest mem
    rcases mem_append.mp mem with mem | new
    · exact sound.awaited mode r t rest mem
    · rcases quiet _ new with ⟨_, same⟩ | ⟨_, same⟩ | ⟨_, same⟩ <;> cases same
  · intro mode r rest mem
    rcases mem_append.mp mem with mem | new
    · exact sound.taking mode r rest mem
    · rcases quiet _ new with ⟨_, same⟩ | ⟨_, same⟩ | ⟨_, same⟩ <;> cases same
  · have before : ∀ (i r : Nat), (s.calls ++ calls)[i]? = some (.spawn r) →
        s.calls[i]? = some (.spawn r) := by
      intro i r at_i
      by_cases below : i < s.calls.length
      · rw [getElem?_append_left below] at at_i
        exact at_i
      · rw [getElem?_append_right (Nat.le_of_not_lt below)] at at_i
        rcases quiet _ (mem_of_getElem? at_i) with ⟨_, same⟩ | ⟨_, same⟩ | ⟨_, same⟩ <;>
          cases same
    exact fun i j r at_i at_j => sound.single i j r (before i r at_i) (before j r at_j)
  · intro r t slot running
    rcases sound.live r t slot running with dropped | held_
    · exact .inl (more r dropped)
    · rcases held_iff.mp held_ with had | listed_ | ⟨call, mem, holds⟩
      · rcases some_ r had with dropped | still | ⟨call, mem, holds⟩
        · exact .inl dropped
        · exact .inr (held_iff.mpr (.inl still))
        · exact .inr (held_iff.mpr (.inr (.inr ⟨call, mem_append_right _ mem, holds⟩)))
      · exact .inr (held_iff.mpr (.inr (.inl listed_)))
      · exact .inr (held_iff.mpr (.inr (.inr ⟨call, old call mem, holds⟩)))

theorem SoundBut.setOutside (outside : Nat → Nat) (none_ : ∀ r, s.outside r = 0 → outside r = 0)
    (some_ : ∀ r, 0 < s.outside r → y r ∨ 0 < outside r) (more : ∀ r, x r → y r) :
    ({ s with outside := outside } : Heartbeats Key).SoundBut key y := by
  have kept := sound.begin outside [] nofun none_ (fun r had => (some_ r had).imp id .inl) more
  rw [append_nil] at kept
  exact kept

theorem SoundBut.setPlace {place : RenewerPlace}
    (running : s.place t ≠ .ended) (told : place = .ended → s.stop (s.owner t) = true) :
    ({ s with place := Function.update s.place t place } : Heartbeats Key).SoundBut key x := by
  have before : ∀ u, Function.update s.place t place u ≠ .ended → s.place u ≠ .ended := by
    intro u running'
    by_cases same : u = t
    · exact same ▸ running
    · rw [update_of_ne same] at running'
      exact running'
  constructor
  · exact sound.keyed
  · exact fun u running' => sound.fresh u (before u running')
  · exact sound.slots
  · intro r listed_
    refine (sound.ready r listed_).imp id fun ⟨untold, some_⟩ => ⟨untold, some_.imp id ?_⟩
    intro busy_
    obtain ⟨u, slot, running'⟩ := busy_iff.mp busy_
    refine busy_iff.mpr ⟨u, slot, ?_⟩
    by_cases same : u = t
    · subst same
      show Function.update s.place u place u ≠ .ended
      rw [update_self]
      intro ended
      have told' := told ended
      rw [(sound.slots r u slot).1, untold] at told'
      cases told'
    · exact fun ended => running' ((update_of_ne same ..).symm.trans ended)
  · exact fun u running' => sound.inSlot u (before u running')
  · exact fun r u mem running' => sound.lone r u mem (before u running')
  · intro r out untold some_
    refine sound.leaving r out untold (some_.imp id ?_)
    rintro ⟨u, running', same⟩
    exact ⟨u, before u running', same⟩
  · intro mode r u rest mem
    refine (sound.awaited mode r u rest mem).imp id (Or.imp (fun ended => ?_) id)
    by_contra running'
    exact before u running' ended
  · exact sound.taking
  · exact sound.single
  · exact fun r u slot running' => sound.live r u slot (before u running')

omit sound

omit [DecidableEq Key] in
theorem locked_iff {s : Heartbeats Key} : s.locked r = true ↔ .spawn r ∈ s.calls := by
  rw [locked, any_eq_true]
  constructor
  · rintro ⟨call, mem, same⟩
    cases call with
    | spawn x => exact of_decide_eq_true same ▸ mem
    | _ => cases same
  · exact fun mem => ⟨_, mem, decide_eq_true rfl⟩

include sound

theorem SoundBut.clear (found : s.calls[c]? = some (.start r))
    (unlocked : .spawn r ∉ s.calls) (idle : ∀ t, s.place t ≠ .ended → s.owner t ≠ r)
    (untaken : ∀ mode rest, .take mode r rest ∉ s.calls)
    (wanted : s.listed key r = true ∨ s.outside r = 0) :
    ({ s with stop := Function.update s.stop r false, calls := s.calls.set c (.spawn r) } :
      Heartbeats Key).SoundBut key x := by
  have here : .spawn r ∈ s.calls.set c (.spawn r) := mem_set_of_getElem? found
  have kept : ∀ call ∈ s.calls, call ≠ .start r → call ∈ s.calls.set c (.spawn r) :=
    fun call mem other => mem_set_of_ne found mem other
  have stop_ : ∀ r', r' ≠ r → Function.update s.stop r false r' = s.stop r' :=
    fun r' other => update_of_ne other ..
  have spawn_ : ∀ r', .spawn r' ∈ s.calls.set c (.spawn r) → r' = r ∨ .spawn r' ∈ s.calls := by
    intro r' mem
    rcases mem_or_eq_of_mem_set mem with mem | same
    · exact .inr mem
    · cases same
      exact .inl rfl
  constructor
  · exact sound.keyed
  · exact sound.fresh
  · exact sound.slots
  · intro r' listed_
    by_cases same : r' = r
    · subst same
      exact .inr ⟨update_self .., .inl here⟩
    · rcases sound.ready r' listed_ with ⟨call, mem, starts⟩ | ⟨untold, some_⟩
      · refine .inl ⟨call, kept call mem ?_, starts⟩
        rintro rfl
        exact same starts
      · refine .inr ⟨(stop_ r' same).trans untold, some_.imp (fun mem => kept _ mem ?_) id⟩
        exact nofun
  · intro t running
    exact (sound.inSlot t running).imp id fun told => (stop_ _ (idle t running)).trans told
  · intro r' t mem running
    rcases spawn_ r' mem with rfl | mem
    · exact idle t running
    · exact sound.lone r' t mem running
  · intro r' out untold some_
    by_cases same : r' = r
    · subst same
      refine .inr (wanted.resolve_left fun listed_ => ?_)
      rw [show s.listed key r' = false from out] at listed_
      cases listed_
    · have untold' : s.stop r' = false := (stop_ r' same).symm.trans untold
      have before : .spawn r' ∈ s.calls ∨ ∃ t, s.place t ≠ .ended ∧ s.owner t = r' :=
        some_.imp (fun mem => (spawn_ r' mem).resolve_left same) id
      refine (sound.leaving r' out untold' before).imp ?_ id
      rintro ⟨call, mem, stores⟩
      refine ⟨call, kept call mem ?_, stores⟩
      rintro rfl
      exact stores
  · intro mode r' t rest mem
    rcases mem_or_eq_of_mem_set mem with mem | same
    · obtain ⟨below, ended | ⟨told, owner⟩⟩ := sound.awaited mode r' t rest mem
      · exact ⟨below, .inl ended⟩
      · refine ⟨below, ?_⟩
        by_cases running : s.place t = .ended
        · exact .inl running
        · have other : r' ≠ r := fun same => idle t running (owner.trans same)
          exact .inr ⟨(stop_ r' other).trans told, owner⟩
    · cases same
  · intro mode r' rest mem
    rcases mem_or_eq_of_mem_set mem with before | same
    · have other : r' ≠ r := by
        rintro rfl
        exact untaken mode rest before
      exact (stop_ r' other).trans (sound.taking mode r' rest before)
    · cases same
  · intro i j r' at_i at_j
    rcases getElem?_set_cases at_i with ⟨rfl, same⟩ | ⟨-, at_i⟩
    · rcases getElem?_set_cases at_j with ⟨rfl, -⟩ | ⟨-, at_j⟩
      · rfl
      · cases same
        exact absurd (mem_of_getElem? at_j) unlocked
    · rcases getElem?_set_cases at_j with ⟨-, same⟩ | ⟨-, at_j⟩
      · cases same
        exact absurd (mem_of_getElem? at_i) unlocked
      · exact sound.single i j r' at_i at_j
  · intro r' t slot running
    refine (sound.live r' t slot running).imp id fun held_ => held_iff.mpr ?_
    refine (held_iff.mp held_).imp id (Or.imp id ?_)
    rintro ⟨call, mem, holds⟩
    by_cases same : call = .start r
    · subst same
      exact ⟨.spawn r, here, holds⟩
    · exact ⟨call, kept call mem same, holds⟩

open RenewerCall

/-- `start` spawns the task and leaves the section. -/
theorem SoundBut.spawn (found : s.calls[c]? = some (.spawn r)) : (s.spawn c r).SoundBut key x := by
  have mem_spawn : .spawn r ∈ s.calls := mem_of_getElem? found
  have here : leave r ∈ s.calls.set c (.leave r) := mem_set_of_getElem? found
  have kept : ∀ call ∈ s.calls, call ≠ .spawn r → call ∈ s.calls.set c (.leave r) :=
    fun call mem other => mem_set_of_ne found mem other
  have slot_ : (s.spawn c r).slot = Function.update s.slot r (some s.spawned) := rfl
  have owner_ : (s.spawn c r).owner = Function.update s.owner s.spawned r := rfl
  have place_ : (s.spawn c r).place = Function.update s.place s.spawned .waiting := rfl
  have old : ∀ t, t ≠ s.spawned → Function.update s.place s.spawned .waiting t = s.place t ∧
      Function.update s.owner s.spawned r t = s.owner t :=
    fun t other => ⟨update_of_ne other .., update_of_ne other ..⟩
  -- the other renewers keep their tasks and their places
  have spawn_ : ∀ r', .spawn r' ∈ s.calls.set c (.leave r) → r' ≠ r ∧ .spawn r' ∈ s.calls := by
    intro r' mem
    obtain ⟨i, at_i⟩ := getElem?_of_mem mem
    rcases getElem?_set_cases at_i with ⟨-, same⟩ | ⟨other, before⟩
    · cases same
    · refine ⟨?_, mem_of_getElem? before⟩
      rintro rfl
      exact other (sound.single i c r' before found)
  have running_ : ∀ t, Function.update s.place s.spawned .waiting t ≠ .ended → t ≠ s.spawned →
      s.place t ≠ .ended := by
    intro t running other
    rw [(old t other).1] at running
    exact running
  constructor
  · exact sound.keyed
  · intro t running
    by_cases same : t = s.spawned
    · exact same ▸ Nat.lt_succ_self _
    · exact Nat.lt_succ_of_lt (sound.fresh t (running_ t running same))
  · intro r' t slot
    by_cases same : r' = r
    · subst same
      rw [slot_, update_self] at slot
      cases slot
      exact ⟨update_self .., Nat.lt_succ_self _⟩
    · rw [slot_, update_of_ne same] at slot
      obtain ⟨owner, below⟩ := sound.slots r' t slot
      exact ⟨(old t (Nat.ne_of_lt below)).2.trans owner, Nat.lt_succ_of_lt below⟩
  · intro r' listed_
    by_cases same : r' = r
    · subst same
      rcases sound.ready r' listed_ with ⟨call, mem, starts⟩ | ⟨untold, -⟩
      · refine .inl ⟨call, kept call mem ?_, starts⟩
        rintro rfl
        exact starts
      · refine .inr ⟨untold, .inr (busy_iff.mpr ⟨s.spawned, update_self .., ?_⟩)⟩
        rw [place_, update_self]
        exact nofun
    · rcases sound.ready r' listed_ with ⟨call, mem, starts⟩ | ⟨untold, some_⟩
      · refine .inl ⟨call, kept call mem ?_, starts⟩
        rintro rfl
        exact starts
      · refine .inr ⟨untold, some_.imp (fun mem => kept _ mem ?_) fun busy_ => ?_⟩
        · intro eq
          cases eq
          exact same rfl
        · obtain ⟨t, slot, running⟩ := busy_iff.mp busy_
          have below := (sound.slots r' t slot).2
          refine busy_iff.mpr ⟨t, (update_of_ne same ..).trans slot, ?_⟩
          rw [place_, (old t (Nat.ne_of_lt below)).1]
          exact running
  · intro t running
    by_cases same : t = s.spawned
    · subst same
      rw [owner_, update_self]
      exact .inl (update_self ..)
    · have running' := running_ t running same
      have other : s.owner t ≠ r := sound.lone r t mem_spawn running'
      rw [owner_, (old t same).2, slot_, update_of_ne other]
      exact sound.inSlot t running'
  · intro r' t mem running
    obtain ⟨other, mem⟩ := spawn_ r' mem
    by_cases same : t = s.spawned
    · subst same
      rw [owner_, update_self]
      exact Ne.symm other
    · rw [owner_, (old t same).2]
      exact sound.lone r' t mem (running_ t running same)
  · intro r' out untold some_
    have before : .spawn r' ∈ s.calls ∨ ∃ t, s.place t ≠ .ended ∧ s.owner t = r' := by
      rcases some_ with mem | ⟨t, running, owner⟩
      · exact .inl (spawn_ r' mem).2
      · by_cases same : t = s.spawned
        · subst same
          rw [owner_, update_self] at owner
          subst owner
          exact .inl mem_spawn
        · rw [owner_, (old t same).2] at owner
          exact .inr ⟨t, running_ t running same, owner⟩
    refine (sound.leaving r' out untold before).imp ?_ id
    rintro ⟨call, mem, stores⟩
    refine ⟨call, kept call mem ?_, stores⟩
    rintro rfl
    exact stores
  · intro mode r' t rest mem
    rcases mem_or_eq_of_mem_set mem with mem | same
    · obtain ⟨below, state⟩ := sound.awaited mode r' t rest mem
      obtain ⟨samePlace, sameOwner⟩ := old t (Nat.ne_of_lt below)
      refine ⟨Nat.lt_succ_of_lt below, ?_⟩
      rw [place_, owner_, samePlace, sameOwner]
      exact state
    · cases same
  · intro mode r' rest mem
    rcases mem_or_eq_of_mem_set mem with mem | same
    · exact sound.taking mode r' rest mem
    · cases same
  · intro i j r' at_i at_j
    rcases getElem?_set_cases at_i with ⟨-, same⟩ | ⟨-, at_i⟩
    · cases same
    · rcases getElem?_set_cases at_j with ⟨-, same⟩ | ⟨-, at_j⟩
      · cases same
      · exact sound.single i j r' at_i at_j
  · intro r' t slot running
    have moved : (∃ call ∈ s.calls, call.holds r' = true) →
        ∃ call ∈ s.calls.set c (.leave r), call.holds r' = true := by
      rintro ⟨call, mem, holds⟩
      by_cases same : call = .spawn r
      · subst same
        exact ⟨.leave r, here, holds⟩
      · exact ⟨call, kept call mem same, holds⟩
    by_cases same : r' = r
    · subst same
      exact .inr (held_iff.mpr (.inr (.inr (moved ⟨_, mem_spawn, decide_eq_true rfl⟩))))
    · rw [slot_, update_of_ne same] at slot
      have below := (sound.slots r' t slot).2
      refine (sound.live r' t slot (running_ t running (Nat.ne_of_lt below))).imp id fun held_ => ?_
      exact held_iff.mpr ((held_iff.mp held_).imp id (Or.imp id moved))

theorem SoundBut.emptySlot (told : s.stop r = true) :
    ({ s with slot := Function.update s.slot r none } : Heartbeats Key).SoundBut key x := by
  have slot_ : ∀ r' t, Function.update s.slot r none r' = some t → s.slot r' = some t := by
    intro r' t slot
    by_cases same : r' = r
    · subst same
      rw [update_self] at slot
      cases slot
    · rw [update_of_ne same] at slot
      exact slot
  constructor
  · exact sound.keyed
  · exact sound.fresh
  · exact fun r' t slot => sound.slots r' t (slot_ r' t slot)
  · intro r' listed_
    refine (sound.ready r' listed_).imp id fun ⟨untold, some_⟩ => ⟨untold, some_.imp id ?_⟩
    have other : r' ≠ r := by
      rintro rfl
      rw [told] at untold
      cases untold
    intro busy_
    obtain ⟨t, slot, running⟩ := busy_iff.mp busy_
    exact busy_iff.mpr ⟨t, (update_of_ne other ..).trans slot, running⟩
  · intro t running
    by_cases same : s.owner t = r
    · exact .inr (same ▸ told)
    · exact (sound.inSlot t running).imp (update_of_ne same ..).trans id
  · exact sound.lone
  · exact sound.leaving
  · exact sound.awaited
  · exact sound.taking
  · exact sound.single
  · exact fun r' t slot running => sound.live r' t (slot_ r' t slot) running

/-! ### Calls keep the invariant -/

theorem SoundBut.insert (found : s.calls[c]? = some (.insert r)) :
    (s.insert key c r).SoundBut key x := by
  -- first the call goes on, then the map changes
  let new : RenewerCall Key := match s.registry.get? (key r) with
    | some old => .replace r old
    | none => .start r
  have new_ : (∃ old, s.registry.get? (key r) = some old ∧ new = .replace r old) ∨
      (s.registry.get? (key r) = none ∧ new = .start r) := by
    cases before : s.registry.get? (key r) with
    | some old => exact .inl ⟨old, rfl, by simp only [new, before]⟩
    | none => exact .inr ⟨rfl, by simp only [new, before]⟩
  have starts : new.starts r := by
    rcases new_ with ⟨old, -, same⟩ | ⟨-, same⟩ <;> rw [same] <;> rfl
  have holds : new.holds r = true := by
    rcases new_ with ⟨old, -, same⟩ | ⟨-, same⟩ <;> rw [same] <;> simp [holds]
  have moved : (s.setCall c new).SoundBut key x := by
    refine sound.setCall found ⟨rfl, ?_⟩ nofun
      nofun (fun _ _ _ _ same' => ?_) (fun _ _ _ same' => ?_)
      (fun r' mine => ?_) (fun _ => id)
    · rcases new_ with ⟨old, -, same⟩ | ⟨-, same⟩ <;> rw [same] <;> rfl
    · rcases new_ with ⟨old, -, same⟩ | ⟨-, same⟩ <;> rw [same] at same' <;> cases same'
    · rcases new_ with ⟨old, -, same⟩ | ⟨-, same⟩ <;> rw [same] at same' <;> cases same'
    · cases of_decide_eq_true mine
      exact .inr holds
  have here : new ∈ (s.setCall c new).calls := mem_set_of_getElem? found
  refine moved.setRegistry ?_ ?_ ?_
  · intro k r' at_k
    rw [get?_insert] at at_k
    split at at_k
    · rename_i same
      cases at_k
      exact same.symm
    · exact sound.keyed k r' at_k
  · intro r' at_
    rw [get?_insert] at at_
    split at at_
    · cases at_
      exact .inr ⟨new, here, starts⟩
    · exact .inl (decide_eq_true at_)
  · intro r' absent
    by_cases before : s.listed key r' = true
    · have at_ : s.registry.get? (key r') = some r' := decide_eq_true_eq.mp before
      by_cases same : key r' = key r
      · -- it was under the same key and has been replaced
        rw [same] at at_
        rcases new_ with ⟨old, at_old, eq⟩ | ⟨none_, -⟩
        · rw [at_] at at_old
          cases at_old
          refine .inr ⟨new, here, ?_, ?_⟩ <;> rw [eq]
          · rfl
          · simp [RenewerCall.holds]
        · rw [at_] at none_
          cases none_
      · exact absurd ((get?_insert_of_ne same).trans at_) absent
    · exact .inl (Bool.not_eq_true _ ▸ before)

theorem SoundBut.lookUp {k : Key}
    (found : s.calls[c]? = some (.lookUp k)) : (s.lookUp c k).SoundBut key x := by
  rw [Heartbeats.lookUp]
  split
  · exact sound.setCall found ⟨rfl, rfl⟩ nofun nofun nofun nofun nofun (fun _ => id)
  · rename_i r at_k
    have moved : (s.setCall c (.store .remove r [])).SoundBut key x :=
      sound.setCall found ⟨rfl, rfl⟩ nofun nofun nofun nofun nofun (fun _ => id)
    have here : store .remove r [] ∈ (s.setCall c (.store .remove r [])).calls :=
      mem_set_of_getElem? found
    refine moved.setRegistry ?_ ?_ ?_
    · intro k' r' at_k'
      by_cases same : k' = k
      · subst same
        rw [get?_erase_self] at at_k'
        cases at_k'
      · rw [get?_erase_of_ne same] at at_k'
        exact sound.keyed k' r' at_k'
    · intro r' at_
      by_cases same : key r' = k
      · rw [same, get?_erase_self] at at_
        cases at_
      · rw [get?_erase_of_ne same] at at_
        exact .inl (decide_eq_true at_)
    · intro r' absent
      by_cases same : key r' = k
      · by_cases mine : r' = r
        · subst mine
          exact .inr ⟨_, here, .inl rfl, by simp [holds]⟩
        · refine .inl (decide_eq_false fun at_ => mine ?_)
          have at_' : s.registry.get? (key r') = some r' := at_
          rw [same, at_k] at at_'
          cases at_'
          rfl
      · rw [get?_erase_of_ne same] at absent
        exact .inl (decide_eq_false absent)

theorem SoundBut.drained {order : List Nat}
    (found : s.calls[c]? = some (.drain mode)) (order_ : order.Perm s.registry.values) :
    ({ s with registry := .empty, calls := s.calls.set c (.next mode order) } :
      Heartbeats Key).SoundBut key x := by
  have next_ : ∀ rest, (∃ r' rest', (.next mode rest : RenewerCall Key) = .store mode r' rest') ∨
      (.next mode rest : RenewerCall Key) = .returned := by
    intro rest
    cases rest with
    | nil => exact .inr rfl
    | cons r' rest' => exact .inl ⟨r', rest', rfl⟩
  have moved : (s.setCall c (.next mode order)).SoundBut key x := by
    refine sound.setCall found ⟨rfl, ?_⟩ nofun nofun (fun _ _ _ _ eq => ?_) (fun _ _ _ eq => ?_)
      nofun (fun _ => id)
    · rcases next_ order with ⟨_, _, same⟩ | same <;> rw [same] <;> rfl
    · rcases next_ order with ⟨_, _, same⟩ | same <;> rw [same] at eq <;> cases eq
    · rcases next_ order with ⟨_, _, same⟩ | same <;> rw [same] at eq <;> cases eq
  refine moved.setRegistry nofun nofun ?_
  intro r' _
  by_cases before : s.listed key r' = true
  · have at_ : s.registry.get? (key r') = some r' := decide_eq_true_eq.mp before
    have mem : r' ∈ order := by
      rw [order_.mem_iff]
      exact mem_map.mpr ⟨_, get?_eq_some_iff.mp at_, rfl⟩
    refine .inr ⟨.next mode order, mem_set_of_getElem? found, ?_⟩
    cases order with
    | nil => cases mem
    | cons r'' rest =>
      refine ⟨mem_cons.mp mem, ?_⟩
      simpa [holds, RenewerCall.next] using mem
  · exact .inl (Bool.not_eq_true _ ▸ before)

omit sound

theorem Sound.go (sound : s.Sound key) (found : s.calls[c]? = some call)
    (proper : s.proper key (.go c) = true) (went : s.go key c call = some s') : s'.Sound key := by
  rw [Heartbeats.proper, found] at proper
  cases call with
  | insert r =>
    cases went
    exact sound.insert found
  | replace r old =>
    cases went
    have out : s.listed key old = false := by simpa using proper
    have told : (s.setStop old).stop old = true := update_self ..
    refine (sound.setStop out).setCall found ⟨rfl, rfl⟩ (fun _ => .inl)
      (fun r' same => .inr ?_) nofun nofun
      (fun _ => .inr) (fun _ => id)
    cases same
    exact told
  | discard r old =>
    cases went
    apply SoundBut.settle
    refine sound.setCall found ⟨rfl, rfl⟩ (fun _ => .inl) nofun nofun
      nofun (fun r' holds => ?_) nofun
    simp only [RenewerCall.holds, Bool.or_eq_true, decide_eq_true_eq] at holds ⊢
    exact holds.symm
  | start r =>
    simp only [go] at went
    split at went
    · cases went
    · rename_i unlocked
      cases went
      rw [start]
      split
      · rename_i busy_
        simp only [if_pos busy_, Bool.or_eq_true, Bool.not_eq_true'] at proper
        refine sound.setCall found ⟨rfl, rfl⟩ (fun r' same => .inr fun listed_ => ?_) nofun
          nofun nofun (fun _ => .inr)
          (fun _ => id)
        cases same
        refine ⟨proper.resolve_left fun out => ?_, busy_⟩
        rw [listed_] at out
        cases out
      · rename_i idle
        simp only [if_neg idle, Bool.and_eq_true, all_eq_true, Bool.or_eq_true,
          decide_eq_true_eq] at proper
        obtain ⟨⟨ended, untaken⟩, wanted⟩ := proper
        refine sound.clear found (fun mem => unlocked (locked_iff.mpr mem)) (fun t running => ?_)
          (fun mode rest mem => ?_) wanted
        · exact (ended t (mem_range.mpr (sound.fresh t running))).resolve_left running
        · exact absurd rfl (of_decide_eq_true (untaken _ mem))
  | spawn r =>
    cases went
    exact sound.spawn found
  | leave r =>
    cases went
    apply SoundBut.settle
    refine sound.setCall found ⟨rfl, rfl⟩ nofun nofun nofun nofun
      (fun r' holds => .inl (of_decide_eq_true holds)) nofun
  | lookUp k =>
    cases went
    exact sound.lookUp found
  | drain mode => cases went
  | store mode r rest =>
    cases went
    have out : s.listed key r = false := by simpa using proper
    have told : (s.setStop r).stop r = true := update_self ..
    have stores : ∀ r', (store mode r rest : RenewerCall Key).stores r' →
        r' ∈ rest ∨ (s.setStop r).stop r' = true := by
      rintro r' (rfl | mem)
      · exact .inr told
      · exact .inl mem
    split
    · exact (sound.setStop out).setCall found ⟨rfl, rfl⟩ nofun stores nofun
        nofun (fun _ => .inr) (fun _ => id)
    · refine (sound.setStop out).setCall found ⟨rfl, rfl⟩ nofun stores nofun
        (fun _ _ _ eq => ?_) (fun _ => .inr) (fun _ => id)
      cases eq
      exact told
  | take mode r rest =>
    simp only [go] at went
    split at went
    · cases went
    · cases went
      have told := sound.taking mode r rest (mem_of_getElem? found)
      have emptied := sound.emptySlot told
      rw [take]
      cases slot : s.slot r with
      | none =>
        exact emptied.setCall found ⟨rfl, rfl⟩ nofun (fun _ => .inl) nofun
          nofun (fun _ => .inr) (fun _ => id)
      | some t =>
        obtain ⟨owner, below⟩ := sound.slots r t slot
        refine emptied.setCall found ⟨rfl, rfl⟩ nofun (fun _ => .inl) (fun _ _ _ _ eq => ?_)
          nofun (fun _ => .inr) (fun _ => id)
        cases eq
        exact ⟨below, .inr ⟨told, owner⟩⟩
  | await mode r t rest =>
    simp only [go] at went
    split at went
    · cases went
      exact sound.setCall found ⟨rfl, rfl⟩ nofun (fun _ => .inl) nofun
        nofun (fun _ => .inr) (fun _ => id)
    · cases went
  | release mode r rest =>
    cases went
    apply SoundBut.settle
    cases rest with
    | nil =>
      refine sound.setCall found ⟨rfl, rfl⟩ nofun nofun nofun nofun (fun r' holds => ?_) nofun
      exact .inl (by simpa [RenewerCall.holds] using holds)
    | cons r' rest' =>
      refine sound.setCall found ⟨rfl, rfl⟩ nofun (fun x mem => .inl (mem_cons.mp mem))
        nofun nofun (fun x holds => ?_)
        nofun
      simpa [RenewerCall.holds, RenewerCall.next] using holds
  | returned => cases went

theorem Sound.step (sound : s.Sound key) (proper : s.proper key l = true)
    (stepped : s.step key l = some s') : s'.Sound key := by
  have new : ∀ call : RenewerCall Key, (∃ k, call = .lookUp k) ∨ (∃ mode, call = .drain mode) →
      ({ s with calls := s.calls ++ [call] } : Heartbeats Key).Sound key := by
    intro call kind
    refine SoundBut.begin sound s.outside [call] (fun call' mem => ?_) (fun _ => id)
      (fun _ some_ => .inr (.inl some_)) (fun _ => id)
    cases mem_singleton.mp mem
    exact .inr kind
  cases l with
  | clone r =>
    simp only [step] at stepped
    split at stepped
    · cases stepped
      refine SoundBut.setOutside sound _ (fun r' zero => ?_) (fun r' had => .inr ?_) (fun _ => id)
      · have other : r' ≠ r := by
          rintro rfl
          omega
        exact (update_of_ne other ..).trans zero
      · by_cases same : r' = r
        · subst same
          rw [update_self]
          exact Nat.succ_pos _
        · rw [update_of_ne same]
          exact had
    · cases stepped
  | drop r =>
    simp only [step] at stepped
    split at stepped
    · cases stepped
      apply SoundBut.settle
      refine SoundBut.setOutside sound _ (fun r' zero => ?_) (fun r' had => ?_) nofun
      · by_cases same : r' = r
        · subst same
          rw [update_self, zero]
        · exact (update_of_ne same ..).trans zero
      · by_cases same : r' = r
        · exact .inl same
        · rw [update_of_ne same]
          exact .inr had
    · cases stepped
  | add r =>
    simp only [step] at stepped
    split at stepped
    · cases stepped
      refine SoundBut.begin sound _ [.insert r] (fun call mem => ?_) (fun r' zero => ?_)
        (fun r' had => ?_) (fun _ => id)
      · cases mem_singleton.mp mem
        exact .inl ⟨r, rfl⟩
      · by_cases same : r' = r
        · subst same
          rw [update_self, zero]
        · exact (update_of_ne same ..).trans zero
      · by_cases same : r' = r
        · exact .inr (.inr ⟨_, mem_singleton.mpr rfl, decide_eq_true same⟩)
        · rw [update_of_ne same]
          exact .inr (.inl had)
    · cases stepped
  | remove k =>
    cases stepped
    exact new _ (.inl ⟨k, rfl⟩)
  | shutdownAll =>
    cases stepped
    exact new _ (.inr ⟨_, rfl⟩)
  | signalStopAll =>
    cases stepped
    exact new _ (.inr ⟨_, rfl⟩)
  | go c =>
    simp only [step, Option.bind_eq_some_iff] at stepped
    obtain ⟨call, found, went⟩ := stepped
    exact sound.go found proper went
  | drained c order =>
    simp only [step] at stepped
    split at stepped
    · rename_i mode found
      split at stepped
      · rename_i order_
        cases stepped
        exact sound.drained found order_
      · cases stepped
    · cases stepped
  | timeout c =>
    simp only [step] at stepped
    split at stepped
    · rename_i r t rest found
      cases stepped
      exact sound.setCall found ⟨rfl, rfl⟩ nofun (fun _ => .inl) nofun
        nofun (fun _ => .inr) (fun _ => id)
    · cases stepped
  | wake t =>
    simp only [step] at stepped
    split at stepped
    · rename_i waiting
      cases stepped
      refine sound.setPlace (fun ended => by rw [waiting] at ended; cases ended) fun ended => ?_
      split at ended
      · rename_i told
        exact told
      · cases ended
    · cases stepped
  | called t =>
    simp only [step] at stepped
    split at stepped
    · rename_i calling
      cases stepped
      exact sound.setPlace (fun ended => by rw [calling] at ended; cases ended) nofun
    · cases stepped

/-! ### When all calls have returned -/

/-- The task has neither been told to stop nor ended. -/
def Live (s : Heartbeats Key) (t : Nat) : Prop :=
  s.place t ≠ .ended ∧ s.stop (s.owner t) = false

variable (key) in
/-- Each key of the map is renewed by exactly one task, and no other key is. -/
def Matched (s : Heartbeats Key) : Prop :=
  (∀ k r, s.registry.get? k = some r →
    ∃ t, s.Live t ∧ key (s.owner t) = k ∧ ∀ u, s.Live u → key (s.owner u) = k → u = t) ∧
  ∀ t, s.Live t → ∃ r, s.registry.get? (key (s.owner t)) = some r

def Quiet (s : Heartbeats Key) : Prop := ∀ call ∈ s.calls, call = .returned

theorem Sound.listed_of_live (sound : s.Sound key) (quiet : s.Quiet) (live : s.Live t) :
    s.listed key (s.owner t) = true ∧ s.slot (s.owner t) = some t := by
  obtain ⟨running, untold⟩ := live
  have slot : s.slot (s.owner t) = some t := by
    refine (sound.inSlot t running).resolve_right fun told => ?_
    rw [untold] at told
    cases told
  refine ⟨?_, slot⟩
  by_contra out
  rw [Bool.not_eq_true] at out
  have kept : ∀ {call}, call ∈ s.calls → ¬ call.stores (s.owner t) ∧ call.holds (s.owner t) = false := by
    intro call mem
    rw [quiet call mem]
    exact ⟨id, rfl⟩
  rcases sound.leaving (s.owner t) out untold (.inr ⟨t, running, rfl⟩) with ⟨call, mem, stores⟩ | zero
  · exact (kept mem).1 stores
  · rcases sound.live _ t slot running with none_ | held_
    · exact none_
    · rcases held_iff.mp held_ with some_ | listed_ | ⟨call, mem, holds⟩
      · omega
      · rw [listed_] at out
        cases out
      · rw [(kept mem).2] at holds
        cases holds

theorem Sound.matched (sound : s.Sound key) (quiet : s.Quiet) : s.Matched key := by
  constructor
  · intro k r at_k
    have same := sound.keyed k r at_k
    subst same
    rcases sound.ready r (decide_eq_true at_k) with ⟨call, mem, starts⟩ | ⟨untold, mem | busy_⟩
    · rw [quiet call mem] at starts
      cases starts
    · cases quiet _ mem
    · obtain ⟨t, slot, running⟩ := busy_iff.mp busy_
      obtain rfl := (sound.slots r t slot).1
      refine ⟨t, ⟨running, untold⟩, rfl, fun u live same => ?_⟩
      obtain ⟨listed_, slot'⟩ := sound.listed_of_live quiet live
      have at_u : s.registry.get? (key (s.owner u)) = some (s.owner u) := decide_eq_true_eq.mp listed_
      rw [same, at_k] at at_u
      rw [← Option.some.inj at_u, slot] at slot'
      exact (Option.some.inj slot').symm
  · intro t live
    exact ⟨_, decide_eq_true_eq.mp (sound.listed_of_live quiet live).1⟩

/-! ### Calls that stop renewers return -/

/-- No call is in the section of `start` and no heartbeat call is in progress. -/
structure Calm (s : Heartbeats Key) : Prop where
  unlocked : ∀ r, s.locked r = false
  idle : ∀ t, s.place t ≠ .calling
  slots : ∀ r t, s.slot r = some t → s.owner t = r

/-- From the state the call comes to its end, without new calls or heartbeats. -/
def Ends (key : Nat → Key) (s : Heartbeats Key) (c : Nat) : Prop :=
  ∃ ls s', Run (Steps (step key)) s ls s' ∧ s'.calls[c]? = some .returned

theorem step_go (found : s.calls[c]? = some call) : s.step key (.go c) = s.go key c call := by
  rw [step, found]
  rfl

omit [DecidableEq Key] in
theorem Calm.setCall (calm : s.Calm) (quiet : new.isSpawn = false) : (s.setCall c new).Calm := by
  refine ⟨fun r => ?_, calm.idle, calm.slots⟩
  by_contra locked_
  rw [Bool.not_eq_false, locked_iff] at locked_
  rcases mem_or_eq_of_mem_set locked_ with mem | same
  · exact absurd (locked_iff.mpr mem) (by rw [calm.unlocked r]; exact Bool.false_ne_true)
  · rw [← same] at quiet
    cases quiet

theorem Calm.settle (calm : s.Calm) (r : Nat) : (s.settle key r).Calm := by
  rw [Heartbeats.settle]
  split
  · split
    · exact calm
    · refine ⟨calm.unlocked, fun t calling => ?_, calm.slots⟩
      simp only [update_apply] at calling
      split at calling
      · cases calling
      · exact calm.idle t calling
  · exact calm

theorem settle_calls (r : Nat) : (s.settle key r).calls = s.calls := by
  rw [settle]
  split
  · split <;> rfl
  · rfl

omit [DecidableEq Key] in
theorem setCall_at {old : RenewerCall Key} (found : s.calls[c]? = some old) :
    (s.setCall c new).calls[c]? = some new := by
  obtain ⟨below, -⟩ := List.getElem?_eq_some_iff.mp found
  exact List.getElem?_set_self below

variable (key) in
theorem Calm.await_released (calm : s.Calm) (found : s.calls[c]? = some (.await mode r t rest))
    (state : s.place t = .ended ∨ (s.stop r = true ∧ s.owner t = r)) :
    ∃ ls s', Run (Steps (step key)) s ls s' ∧ s'.Calm ∧
      s'.calls[c]? = some (.release mode r rest) := by
  have isOver : ∀ {u : Heartbeats Key}, u.Calm → u.calls[c]? = some (.await mode r t rest) →
      u.place t = .ended → ∃ ls s', Run (Steps (step key)) u ls s' ∧ s'.Calm ∧
        s'.calls[c]? = some (.release mode r rest) := by
    intro u calm found ended
    have went : u.step key (.go c) = some (u.setCall c (.release mode r rest)) := by
      rw [step_go found, go, if_pos ended]
    exact ⟨_, _, .cons went (.nil _), calm.setCall rfl, setCall_at found⟩
  by_cases ended : s.place t = .ended
  · exact isOver calm found ended
  · obtain ⟨told, owner⟩ := state.resolve_left ended
    have waiting : s.place t = .waiting := by
      cases place : s.place t with
      | waiting => rfl
      | calling => exact absurd place (calm.idle t)
      | ended => exact absurd place ended
    have woke : s.step key (.wake t) =
        some { s with place := Function.update s.place t .ended } := by
      rw [step, if_pos waiting, owner, told]
      rfl
    have calm' : ({ s with place := Function.update s.place t .ended } : Heartbeats Key).Calm := by
      refine ⟨calm.unlocked, fun u calling => ?_, calm.slots⟩
      simp only [update_apply] at calling
      split at calling
      · cases calling
      · exact calm.idle u calling
    obtain ⟨ls, s', run, rest_⟩ := isOver calm' found (update_self ..)
    exact ⟨_, s', .cons woke run, rest_⟩

variable (key) in
theorem Calm.take_released (calm : s.Calm)
    (found : s.calls[c]? = some (.take mode r rest)) (told : s.stop r = true) :
    ∃ ls s', Run (Steps (step key)) s ls s' ∧ s'.Calm ∧
      s'.calls[c]? = some (.release mode r rest) := by
  have went : s.step key (.go c) = some (s.take c mode r rest) := by
    rw [step_go found, go, calm.unlocked r]
    rfl
  have emptied : ({ s with slot := Function.update s.slot r none } : Heartbeats Key).Calm := by
    refine ⟨calm.unlocked, calm.idle, fun r' t slot => ?_⟩
    simp only [update_apply] at slot
    split at slot
    · cases slot
    · exact calm.slots r' t slot
  cases slot : s.slot r with
  | none =>
    have same : s.take c mode r rest =
        ({ s with slot := Function.update s.slot r none } : Heartbeats Key).setCall c
          (.release mode r rest) := by
      rw [take, slot]
      rfl
    rw [same] at went
    exact ⟨_, _, .cons went (.nil _), emptied.setCall rfl, setCall_at found⟩
  | some t =>
    have same : s.take c mode r rest =
        ({ s with slot := Function.update s.slot r none } : Heartbeats Key).setCall c
          (.await mode r t rest) := by
      rw [take, slot]
      rfl
    rw [same] at went
    obtain ⟨ls, s', run, rest_⟩ := (emptied.setCall rfl).await_released key
      (setCall_at found) (.inr ⟨told, calm.slots r t slot⟩)
    exact ⟨_, s', .cons went run, rest_⟩

variable (key) in
theorem Calm.store_released (calm : s.Calm) (found : s.calls[c]? = some (.store mode r rest)) :
    ∃ ls s', Run (Steps (step key)) s ls s' ∧ s'.Calm ∧
      s'.calls[c]? = some (.release mode r rest) := by
  have told : (s.setStop r).stop r = true := update_self ..
  have calm' : (s.setStop r).Calm := ⟨calm.unlocked, calm.idle, calm.slots⟩
  have found' : (s.setStop r).calls[c]? = some (.store mode r rest) := found
  by_cases signal : mode = .signal
  · have went : s.step key (.go c) = some ((s.setStop r).setCall c (.release mode r rest)) := by
      rw [step_go found, go, if_pos signal]
    exact ⟨_, _, .cons went (.nil _), calm'.setCall rfl, setCall_at found'⟩
  · have went : s.step key (.go c) = some ((s.setStop r).setCall c (.take mode r rest)) := by
      rw [step_go found, go, if_neg signal]
    obtain ⟨ls, s', run, rest_⟩ :=
      (calm'.setCall rfl).take_released key (setCall_at found') told
    exact ⟨_, s', .cons went run, rest_⟩

variable (key) in
theorem Calm.ends_of_release : ∀ {rest : List Nat} {s : Heartbeats Key} {r : Nat},
    s.Calm → s.calls[c]? = some (.release mode r rest) → Ends key s c
  | rest, s, r, calm, found => by
    have went : s.step key (.go c) =
        some ((s.setCall c (.next mode rest)).settle key r) := step_go found
    have at_ : ((s.setCall c (.next mode rest)).settle key r).calls[c]? =
        some (.next mode rest) := by
      rw [settle_calls]
      exact setCall_at found
    cases rest with
    | nil => exact ⟨_, _, .cons went (.nil _), at_⟩
    | cons r' rest' =>
      have calm' : ((s.setCall c (.next mode (r' :: rest'))).settle key r).Calm :=
        (calm.setCall rfl).settle r
      obtain ⟨ls, s', run, calm'', found'⟩ := calm'.store_released key at_
      obtain ⟨ms, s'', run', returned⟩ := calm''.ends_of_release found'
      exact ⟨_, s'', .cons went (run.append run'), returned⟩

theorem Sound.unlock (sound : s.Sound key) (idle : ∀ t, s.place t ≠ .calling) :
    ∃ ls s', Run (Steps (Heartbeats.step key)) s ls s' ∧ s'.Sound key ∧ s'.Calm ∧
      ∀ (c : Nat) (call : RenewerCall Key), s.calls[c]? = some call → call.isSpawn = false →
        s'.calls[c]? = some call := by
  -- one call after the other, in the order of their numbers
  have upTo : ∀ n, ∃ ls s', Run (Steps (Heartbeats.step key)) s ls s' ∧ s'.Sound key ∧
      (∀ t, s'.place t ≠ .calling) ∧ (∀ c r : Nat, c < n → s'.calls[c]? ≠ some (.spawn r)) ∧
      s'.calls.length = s.calls.length ∧
      ∀ (c : Nat) (call : RenewerCall Key), s.calls[c]? = some call → call.isSpawn = false →
        s'.calls[c]? = some call := by
    intro n
    induction n with
    | zero =>
      exact ⟨[], s, .nil s, sound, idle, fun c _ below => absurd below (Nat.not_lt_zero c), rfl,
        fun _ _ found _ => found⟩
    | succ n ih =>
      obtain ⟨ls, s', run, sound', idle', done, length, kept⟩ := ih
      by_cases inside : ∃ r, s'.calls[n]? = some (.spawn r)
      · obtain ⟨r, found⟩ := inside
        have went : Steps (Heartbeats.step key) s' (.go n) (s'.spawn n r) := step_go found
        refine ⟨ls ++ [.go n], s'.spawn n r, run.append (.cons went (.nil _)), sound'.spawn found,
          fun t => ?_, fun c r' below at_c => ?_, ?_, fun c call at_c other => ?_⟩
        · show Function.update s'.place s'.spawned .waiting t ≠ .calling
          rw [update_apply]
          split
          · exact nofun
          · exact idle' t
        · rcases getElem?_set_cases at_c with ⟨-, same⟩ | ⟨ne, at_c⟩
          · cases same
          · exact done c r' (by omega) at_c
        · exact (List.length_set ..).trans length
        · have ne : n ≠ c := by
            rintro rfl
            rw [kept n call at_c other] at found
            cases found
            cases other
          exact (List.getElem?_set_ne ne).trans (kept c call at_c other)
      · refine ⟨ls, s', run, sound', idle', fun c r below at_c => ?_, length, kept⟩
        rcases Nat.lt_or_eq_of_le (Nat.le_of_lt_succ below) with less | rfl
        · exact done c r less at_c
        · exact inside ⟨r, at_c⟩
  obtain ⟨ls, s', run, sound', idle', done, length, kept⟩ := upTo s.calls.length
  refine ⟨ls, s', run, sound', ⟨fun r => ?_, idle', fun r t slot => (sound'.slots r t slot).1⟩, kept⟩
  by_contra locked_
  rw [Bool.not_eq_false, locked_iff] at locked_
  obtain ⟨i, at_i⟩ := List.getElem?_of_mem locked_
  obtain ⟨below, -⟩ := List.getElem?_eq_some_iff.mp at_i
  exact done i r (length ▸ below) at_i

def isRemove : RenewerCall Key → Bool
  | .lookUp _ => true
  | .store .remove _ _ | .take .remove _ _ | .await .remove _ _ _ | .release .remove _ _ => true
  | _ => false

theorem Sound.remove_ends (sound : s.Sound key)
    (idle : ∀ t, s.place t ≠ .calling) (found : s.calls[c]? = some call)
    (removes : isRemove call = true) : Ends key s c := by
  obtain ⟨ls, s', run, sound', calm, kept⟩ := sound.unlock idle
  -- from there on only the call and the task that it awaits take steps
  have later : Ends key s' c → Ends key s c := by
    rintro ⟨ms, s'', run', returned⟩
    exact ⟨_, s'', run.append run', returned⟩
  have released : ∀ {mode r rest}, (∃ ls s'', Run (Steps (Heartbeats.step key)) s' ls s'' ∧ s''.Calm ∧
      s''.calls[c]? = some (.release mode r rest)) → Ends key s c := by
    rintro mode r rest ⟨ms, s'', run', calm', found'⟩
    obtain ⟨ms', s₃, run'', returned⟩ := calm'.ends_of_release key found'
    exact later ⟨_, s₃, run'.append run'', returned⟩
  cases call with
  | lookUp k =>
    have found' := kept c _ found rfl
    have went : s'.step key (.go c) = some (s'.lookUp c k) := step_go found'
    cases at_k : s'.registry.get? k with
    | none =>
      have same : s'.lookUp c k = s'.setCall c .returned := by rw [lookUp, at_k]
      rw [same] at went
      exact later ⟨_, _, .cons went (.nil _), setCall_at found'⟩
    | some r =>
      have same : s'.lookUp c k = ({ s' with registry := s'.registry.erase k } :
          Heartbeats Key).setCall c (.store .remove r []) := by
        rw [lookUp, at_k]
        rfl
      rw [same] at went
      have calm' : ({ s' with registry := s'.registry.erase k } : Heartbeats Key).Calm :=
        ⟨calm.unlocked, calm.idle, calm.slots⟩
      obtain ⟨ms, s'', run', rest_⟩ :=
        (calm'.setCall rfl).store_released key (setCall_at found')
      exact released ⟨_, s'', .cons went run', rest_⟩
  | store mode r rest => exact released (calm.store_released key (kept c _ found rfl))
  | take mode r rest =>
    have found' := kept c _ found rfl
    have told := sound'.taking mode r rest (mem_of_getElem? found')
    exact released (calm.take_released key found' told)
  | await mode r t rest =>
    have found' := kept c _ found rfl
    have state := (sound'.awaited mode r t rest (mem_of_getElem? found')).2
    exact released (calm.await_released key found' state)
  | release mode r rest => exact later (calm.ends_of_release key (kept c _ found rfl))
  | _ => cases removes

/-- In every proper run exactly one task renews each key in the end, and every `remove` ends. -/
theorem renewers_match {handles : Nat → Nat}
    (run : Run (Under (fun s l => s.proper key l = true) (Steps (step key)))
      { outside := handles } ls s) :
    (s.Quiet → s.Matched key) ∧
      ∀ (c : Nat) (call : RenewerCall Key), s.calls[c]? = some call → isRemove call = true →
        (∀ t, s.place t ≠ .calling) → Ends key s c := by
  have sound : s.Sound key :=
    run.invariant_under (fun _ _ _ inv proper stepped => inv.step proper stepped)
      (sound_nil handles)
  exact ⟨sound.matched, fun c call found removes idle => sound.remove_ends idle found removes⟩

/-! A renewer for one key: it is added; or `shutdown_all` comes between its
insertion into the map and its start. -/

def oneKey : Nat → Unit := fun _ => ()

def oneHandle : Heartbeats Unit := { outside := fun r => if r = 0 then 1 else 0 }

def addedOnce : List (HeartbeatLabel Unit) :=
  [.add 0, .go 0, .go 0, .go 0, .go 0, .wake 0, .called 0]

def ranProperly (ls : List (HeartbeatLabel Unit)) : Option (Heartbeats Unit) :=
  ls.foldlM (fun s l => if s.proper oneKey l = true then s.step oneKey l else none) oneHandle

/-- An added renewer has its task. -/
theorem added_renewer_matched : ∃ ls s,
    Run (Under (fun s l => s.proper oneKey l = true) (Steps (step oneKey))) oneHandle ls s ∧
      s.registry.get? () = some 0 ∧ s.calls = [.returned] ∧ s.place 0 = .waiting ∧
      s.Matched oneKey := by
  have ran : ranProperly addedOnce =
      some ((ranProperly addedOnce).get (by decide)) := (Option.some_get _).symm
  have run := run_under_of_foldlM ran
  refine ⟨_, _, run, by decide, by decide, by decide, (renewers_match run).1 ?_⟩
  unfold Quiet
  decide

/-- `shutdown_all` tells the renewer to stop, and `start` spawns the task again. -/
def startedLate : List (HeartbeatLabel Unit) :=
  [.add 0, .go 0, .shutdownAll, .drained 1 [0], .go 1, .go 0, .go 0, .go 1, .timeout 1, .go 1, .go 0]

/-- The same with `remove`, which waits. -/
def removedLate : List (HeartbeatLabel Unit) :=
  [.add 0, .go 0, .remove (), .go 1, .go 1, .go 0, .go 0, .go 0, .go 1]

/-- A task goes on renewing the key, and a `remove` awaits it for ever. -/
theorem late_start_survives : (∃ ls s, Run (Steps (step oneKey)) oneHandle ls s ∧ s.Quiet ∧
      s.registry.get? () = none ∧ s.Live 0 ∧ ¬ s.Matched oneKey) ∧
    ∃ ls s, Run (Steps (step oneKey)) oneHandle ls s ∧
      s.calls = [.returned, .await .remove 0 0 []] ∧ s.place 0 = .waiting ∧ s.Live 0 ∧
      s.registry.get? () = none ∧ s.outside 0 = 0 := by
  have ran : startedLate.foldlM (step oneKey) oneHandle =
      some ((startedLate.foldlM (step oneKey) oneHandle).get (by decide)) := (Option.some_get _).symm
  have ran' : removedLate.foldlM (step oneKey) oneHandle =
      some ((removedLate.foldlM (step oneKey) oneHandle).get (by decide)) := (Option.some_get _).symm
  constructor
  · have live : ((startedLate.foldlM (step oneKey) oneHandle).get (by decide)).Live 0 :=
      ⟨by decide, by decide⟩
    refine ⟨_, _, run_of_foldlM ran, ?_, by decide, live, fun matched => ?_⟩
    · unfold Quiet
      decide
    · obtain ⟨r, found⟩ := matched.2 0 live
      exact Option.some_ne_none r (found.symm.trans (by decide))
  · exact ⟨_, _, run_of_foldlM ran', by decide, by decide, ⟨by decide, by decide⟩, by decide,
      by decide⟩

end Heartbeats

end AgentProtocols.Registry
