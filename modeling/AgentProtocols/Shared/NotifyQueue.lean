import AgentProtocols.Shared.MPSCQueue

/-!
`MPSCNotifyQueue`, through which both C++ SDKs hand work to the thread of an event loop. The loop of
`HandleNotify` asks `TryPop` first, so a message popped with a full batch is lost.

* `NotifyQueue.Sound.step` — as long as none is, every message popped is in the batch or handled,
  and a consumer at rest is woken.
* `delivers` — in every such run the messages are handled in order, each once.
* `overfull_batch_loses_message` — a run in which a message is lost.
-/

namespace AgentProtocols.Shared

open Lib

/-- Where the event loop is. -/
inductive Consumer (T : Type*) where
  | idle
  | draining
  | popping (localMessages : List T)
  | handling (localMessages : List T)
  | checking
  | renotifying
deriving DecidableEq

/-- `MPSCNotifyQueue`, with its event loop. `handled` records the calls of the
message handler. -/
structure NotifyQueue (T : Type*) where
  channel : Channel T
  maxBatchSize : Nat
  consumer : Consumer T := .idle
  handled : List T := []

/-- A producer calls `Send`, a call of it goes on, or the event loop goes on. -/
inductive NotifyLabel (T : Type*) where
  | send (producer : Nat) (message : T)
  | produce (call : Nat)
  | consume
deriving DecidableEq

namespace NotifyQueue

variable {T : Type*}

/-- The constructor, for a capacity that the SDK's smallest capacity has been
applied to. -/
def new (q : MPSCQueue T) (maxBatchSize : Nat) : NotifyQueue T where
  channel := { queue := q }
  maxBatchSize := if maxBatchSize = 0 then 1 else maxBatchSize

/-- The next step of the event loop: `HandleNotify`. -/
def consume (s : NotifyQueue T) : Option (NotifyQueue T) :=
  match s.consumer with
  | .idle => if s.channel.eventFd ≠ 0 then some { s with consumer := .draining } else none
  | .draining =>
    if s.channel.eventFd ≠ 0 then some { s with channel := { s.channel with eventFd := 0 } }
    else some { s with consumer := .popping [], channel := { s.channel with pop := .looking } }
  | .popping batch =>
    match s.channel.pop with
    | .returned (some m) =>
      if batch.length < s.maxBatchSize then
        some { s with
          consumer := .popping (batch ++ [m]), channel := { s.channel with pop := .looking } }
      else
        some { s with consumer := .handling batch, channel := { s.channel with pop := .outside } }
    | .returned none =>
      some { s with consumer := .handling batch, channel := { s.channel with pop := .outside } }
    | _ => s.channel.popStep.map fun c => { s with channel := c }
  | .handling (m :: batch) =>
    some { s with consumer := .handling batch, handled := s.handled ++ [m] }
  | .handling [] => some { s with consumer := .checking }
  | .checking => some { s with consumer := if s.channel.queue.empty then .idle else .renotifying }
  | .renotifying =>
    some { s with
      consumer := .idle, channel := { s.channel with eventFd := s.channel.eventFd + 1 } }

def step (s : NotifyQueue T) : NotifyLabel T → Option (NotifyQueue T)
  | .send producer message =>
    (s.channel.call producer message).map fun c => { s with channel := c }
  | .produce i => (s.channel.produce i).map fun c => { s with channel := c }
  | .consume => s.consume

/-- A producer stores in its turn, and no message is popped with a full batch. -/
def proper (s : NotifyQueue T) : NotifyLabel T → Bool
  | .send _ _ => true
  | .produce i => s.channel.inTurn i
  | .consume =>
    match s.consumer, s.channel.pop with
    | .popping batch, .looking =>
      batch.length < s.maxBatchSize || !(s.channel.queue.node s.channel.queue.tail).ready
    | _, _ => true

/-- No call is under way, the eventfd is zero and the event loop waits for it. -/
def Resting (s : NotifyQueue T) : Prop :=
  s.channel.quiet = true ∧ s.channel.eventFd = 0 ∧ s.consumer = .idle

/-! ### The invariant -/

def batch (s : NotifyQueue T) : List T :=
  match s.consumer with
  | .popping batch | .handling batch => batch
  | _ => []

/-- The message that `TryPop` has returned to the loop. -/
def fetched (s : NotifyQueue T) : List T :=
  match s.channel.pop with
  | .returned (some m) => [m]
  | _ => []

/-- The event loop does not look into the queue before the eventfd is raised. -/
def Asleep (s : NotifyQueue T) : Prop :=
  match s.consumer with
  | .draining => False
  | .popping _ => s.channel.pop = .returned none
  | _ => True

/-- `TryPop` has found a message. -/
def found (s : NotifyQueue T) : Bool :=
  match s.channel.pop with
  | .exchanging | .clearing _ | .moving _ | .lowering _ | .returned (some _) => true
  | _ => false

/-- What holds as long as no message is popped with a full batch. -/
structure Sound (s : NotifyQueue T) : Prop where
  channel : s.channel.Sound
  delivered : s.handled ++ (s.batch ++ s.fetched) = s.channel.popped
  outside : (∀ batch, s.consumer ≠ .popping batch) → s.channel.pop = .outside
  inside : ∀ batch, s.consumer = .popping batch → s.channel.pop ≠ .outside
  room : s.found = true → s.batch.length < s.maxBatchSize
  awaited : s.Asleep → s.channel.Awaited

variable {s s' : NotifyQueue T} {l : NotifyLabel T} {ls : List (NotifyLabel T)}

theorem sound_new {minimum capacity : Nat} (positive : 0 < minimum)
    (small : MPSCQueue.roundCapacity minimum capacity < 2 ^ 64) (maxBatchSize : Nat) :
    (new (T := T) (.new minimum capacity positive small) maxBatchSize).Sound where
  channel := Channel.sound_new positive small
  delivered := rfl
  outside _ := rfl
  inside batch same := by cases same
  room found := by cases found
  awaited _ := .inr (.inl rfl)

variable {batch : List T} {c : Channel T}

theorem Sound.of_channel (sound : s.Sound) (channel : c.Sound)
    (pop : c.pop = s.channel.pop) (popped : c.popped = s.channel.popped)
    (awaited : s.channel.Awaited → c.Awaited) : ({ s with channel := c } : NotifyQueue T).Sound := by
  have fetched_ : ({ s with channel := c } : NotifyQueue T).fetched = s.fetched := by
    simp only [fetched, pop]
  have found_ : ({ s with channel := c } : NotifyQueue T).found = s.found := by
    simp only [found, pop]
  have asleep : ({ s with channel := c } : NotifyQueue T).Asleep → s.Asleep := by
    simp only [Asleep, pop]
    exact id
  constructor
  · exact channel
  · rw [fetched_]
    exact sound.delivered.trans popped.symm
  · exact fun none_ => pop.trans (sound.outside none_)
  · exact fun batch same => pop ▸ sound.inside batch same
  · rw [found_]
    exact sound.room
  · exact fun sleeps => awaited (sound.awaited (asleep sleeps))

/-- Outside the loop that pops the event loop has at most a batch in hand. -/
theorem Sound.of_outside (sound : s.Sound) (none_ : ∀ batch, s.consumer ≠ .popping batch)
    {consumer : Consumer T} (none_' : ∀ batch, consumer ≠ .popping batch) (n : Nat)
    {handled : List T}
    (delivered : handled ++ ({ s with consumer := consumer } : NotifyQueue T).batch =
      s.handled ++ s.batch)
    (awaited : consumer ≠ .draining → ({ s.channel with eventFd := n } : Channel T).Awaited) :
    ({ s with consumer := consumer, channel := { s.channel with eventFd := n }, handled := handled } :
      NotifyQueue T).Sound := by
  have out := sound.outside none_
  have fetched_ : s.fetched = [] := by rw [fetched, out]
  constructor
  · have kept : ({ s.channel with pop := .outside, eventFd := n } : Channel T).Sound :=
      sound.channel.repop (by rw [out]; rfl) rfl n
    rw [← out] at kept
    exact kept
  · show handled ++ (({ s with consumer := consumer } : NotifyQueue T).batch ++ s.fetched) = _
    rw [fetched_, List.append_nil, delivered, ← sound.delivered, fetched_, List.append_nil]
  · exact fun _ => out
  · exact fun batch same => absurd same (none_' batch)
  · intro found_
    simp only [out] at found_
    cases found_
  · intro asleep
    refine awaited ?_
    rintro rfl
    exact asleep

open NotifyQueue

theorem Sound.of_popping (channel : c.Sound)
    (popping : s.consumer = .popping batch) (inside : c.pop ≠ .outside)
    (delivered : s.handled ++ (batch ++ ({ s with channel := c } : NotifyQueue T).fetched) = c.popped)
    (room : ({ s with channel := c } : NotifyQueue T).found = true → batch.length < s.maxBatchSize)
    (awaited : c.pop = .returned none → c.Awaited) :
    ({ s with channel := c } : NotifyQueue T).Sound := by
  have batch_ : ({ s with channel := c } : NotifyQueue T).batch = batch := by
    simp only [NotifyQueue.batch, popping]
  constructor
  · exact channel
  · rw [batch_]
    exact delivered
  · exact fun none_ => absurd popping (none_ batch)
  · exact fun _ _ => inside
  · rw [batch_]
    exact room
  · intro asleep
    simp only [popping] at asleep
    exact awaited asleep

variable (sound : s.Sound)

include sound

theorem Sound.popStep (popping : s.consumer = .popping batch) (proper : s.proper .consume = true)
    (stepped : s.channel.popStep = some c) : ({ s with channel := c } : NotifyQueue T).Sound := by
  have channel := sound.channel.pop stepped
  have batch_ : s.batch = batch := by rw [NotifyQueue.batch, popping]
  have delivered := sound.delivered
  have room := sound.room
  rw [batch_] at delivered room
  cases sound.channel.tried stepped with
  | unready at_pop unready =>
    simp only [fetched, at_pop] at delivered
    exact of_popping channel popping nofun delivered nofun
      fun _ => .inr (sound.channel.awaited_of_looking at_pop unready)
  | ready at_pop ready =>
    simp only [NotifyQueue.proper, popping, at_pop, ready, Bool.not_true, Bool.or_false,
      decide_eq_true_eq] at proper
    simp only [fetched, at_pop] at delivered
    exact of_popping channel popping nofun delivered (fun _ => proper) nofun
  | lower at_pop =>
    simp only [fetched, at_pop, List.append_nil] at delivered
    refine of_popping channel popping nofun ?_ (fun _ => room (by rw [found, at_pop])) nofun
    show s.handled ++ (batch ++ [_]) = s.channel.popped ++ [_]
    rw [← delivered, List.append_assoc]
  | exchange at_pop | clear at_pop | move at_pop =>
    simp only [fetched, at_pop] at delivered
    exact of_popping channel popping nofun delivered (fun _ => room (by rw [found, at_pop])) nofun

theorem Sound.fetch {m : T}
    (popping : s.consumer = .popping batch) (at_pop : s.channel.pop = .returned (some m)) :
    ({ s with consumer := .popping (batch ++ [m]), channel := { s.channel with pop := .looking } } :
        NotifyQueue T).Sound := by
  have delivered := sound.delivered
  simp only [NotifyQueue.batch, fetched, popping, at_pop] at delivered
  constructor
  · exact sound.channel.repop (by rw [at_pop]; rfl) rfl s.channel.eventFd
  · show s.handled ++ ((batch ++ [m]) ++ []) = s.channel.popped
    rw [List.append_nil]
    exact delivered
  · exact fun none_ => absurd rfl (none_ _)
  · exact nofun
  · exact nofun
  · exact nofun

theorem Sound.emptied (popping : s.consumer = .popping batch)
    (at_pop : s.channel.pop = .returned none) :
    ({ s with consumer := .handling batch, channel := { s.channel with pop := .outside } } :
      NotifyQueue T).Sound := by
  have delivered := sound.delivered
  simp only [NotifyQueue.batch, fetched, popping, at_pop] at delivered
  constructor
  · exact sound.channel.repop (by rw [at_pop]; rfl) rfl s.channel.eventFd
  · exact delivered
  · exact fun _ => rfl
  · exact nofun
  · exact nofun
  · intro _
    exact sound.awaited (by simp only [Asleep, popping, at_pop])

theorem Sound.drained (draining : s.consumer = .draining) :
    ({ s with consumer := .popping [], channel := { s.channel with pop := .looking } } :
      NotifyQueue T).Sound := by
  have out := sound.outside (fun batch same => by rw [draining] at same; cases same)
  have delivered := sound.delivered
  simp only [batch, fetched, draining, out] at delivered
  constructor
  · exact sound.channel.repop (by rw [out]; rfl) rfl s.channel.eventFd
  · exact delivered
  · exact fun none_ => absurd rfl (none_ _)
  · exact nofun
  · exact nofun
  · exact nofun

omit sound

/-- The steps of the event loop. -/
inductive Consumed (s : NotifyQueue T) : NotifyQueue T → Prop where
  | wake : s.consumer = .idle → s.channel.eventFd ≠ 0 → Consumed s { s with consumer := .draining }
  | read : s.consumer = .draining → s.channel.eventFd ≠ 0 →
      Consumed s { s with channel := { s.channel with eventFd := 0 } }
  | drained : s.consumer = .draining → s.channel.eventFd = 0 →
      Consumed s
        { s with consumer := .popping [], channel := { s.channel with pop := .looking } }
  | pop {batch : List T} {c : Channel T} : s.consumer = .popping batch →
      s.channel.popStep = some c → Consumed s { s with channel := c }
  | fetch {batch : List T} {m : T} : s.consumer = .popping batch →
      s.channel.pop = .returned (some m) → batch.length < s.maxBatchSize →
      Consumed s
        { s with consumer := .popping (batch ++ [m]), channel := { s.channel with pop := .looking } }
  | drop {batch : List T} {m : T} : s.consumer = .popping batch →
      s.channel.pop = .returned (some m) → ¬ batch.length < s.maxBatchSize →
      Consumed s { s with consumer := .handling batch, channel := { s.channel with pop := .outside } }
  | emptied {batch : List T} : s.consumer = .popping batch → s.channel.pop = .returned none →
      Consumed s { s with consumer := .handling batch, channel := { s.channel with pop := .outside } }
  | handle {m : T} {batch : List T} : s.consumer = .handling (m :: batch) →
      Consumed s { s with consumer := .handling batch, handled := s.handled ++ [m] }
  | handled : s.consumer = .handling [] → Consumed s { s with consumer := .checking }
  | checked : s.consumer = .checking → s.channel.queue.empty = true →
      Consumed s { s with consumer := .idle }
  | unchecked : s.consumer = .checking → s.channel.queue.empty = false →
      Consumed s { s with consumer := .renotifying }
  | renotify : s.consumer = .renotifying →
      Consumed s { s with
        consumer := .idle, channel := { s.channel with eventFd := s.channel.eventFd + 1 } }

theorem consumed_of_consume (stepped : s.consume = some s') : Consumed s s' := by
  rw [consume] at stepped
  cases at_ : s.consumer with
  | idle =>
    rw [at_] at stepped
    dsimp only at stepped
    split at stepped
    · rename_i raised
      cases stepped
      exact .wake at_ raised
    · cases stepped
  | draining =>
    rw [at_] at stepped
    dsimp only at stepped
    split at stepped
    · rename_i raised
      cases stepped
      rw [← at_]
      exact .read at_ raised
    · rename_i zero
      cases stepped
      exact .drained at_ (not_not.mp zero)
  | popping batch =>
    rw [at_] at stepped
    dsimp only at stepped
    split at stepped
    · rename_i m at_pop
      split at stepped
      · rename_i room
        cases stepped
        exact .fetch at_ at_pop room
      · rename_i full
        cases stepped
        exact .drop at_ at_pop full
    · rename_i at_pop
      cases stepped
      exact .emptied at_ at_pop
    · obtain ⟨c, popped, rfl⟩ := Option.map_eq_some_iff.mp stepped
      rw [← at_]
      exact .pop at_ popped
  | handling batch =>
    rw [at_] at stepped
    cases batch with
    | nil =>
      cases stepped
      exact .handled at_
    | cons m batch =>
      cases stepped
      exact .handle at_
  | checking =>
    rw [at_] at stepped
    dsimp only at stepped
    split at stepped
    · rename_i empty
      cases stepped
      exact .checked at_ empty
    · rename_i more
      cases stepped
      exact .unchecked at_ (Bool.eq_false_iff.mpr more)
  | renotifying =>
    rw [at_] at stepped
    cases stepped
    exact .renotify at_

theorem Sound.consumed (sound : s.Sound) (proper : s.proper .consume = true)
    (ran : Consumed s s') : s'.Sound := by
  -- the steps outside the loop that pops
  have plain : ∀ {consumer : Consumer T}, s.consumer = consumer →
      (∀ batch, consumer ≠ .popping batch) → ∀ batch, s.consumer ≠ .popping batch :=
    fun same none_ batch => same ▸ none_ batch
  have keeps : ∀ {consumer : Consumer T} {handled : List T}, (∀ batch, s.consumer ≠ .popping batch) →
      (∀ batch, consumer ≠ .popping batch) → s.consumer ≠ .draining →
      handled ++ ({ s with consumer := consumer } : NotifyQueue T).batch = s.handled ++ s.batch →
      ({ s with consumer := consumer, handled := handled } : NotifyQueue T).Sound := by
    intro consumer handled none_ none_' awake delivered
    refine sound.of_outside none_ none_' s.channel.eventFd delivered fun _ => ?_
    apply sound.awaited
    rw [Asleep]
    split
    · rename_i draining
      exact awake draining
    · rename_i batch popping
      exact absurd popping (none_ batch)
    · trivial
  cases ran with
  | wake at_ raised =>
    refine keeps (plain at_ nofun) nofun (fun same => by rw [at_] at same; cases same) ?_
    simp only [batch, at_]
  | read at_ raised =>
    have none_ := plain at_ nofun
    refine sound.of_outside none_ none_ 0 rfl fun awake => absurd at_ awake
  | drained at_ _ => exact sound.drained at_
  | pop at_ popped => exact sound.popStep at_ proper popped
  | fetch at_ at_pop _ => exact sound.fetch at_ at_pop
  | drop at_ at_pop full =>
    have room := sound.room (by rw [found, at_pop])
    rw [batch, at_] at room
    exact absurd room full
  | emptied at_ at_pop => exact sound.emptied at_ at_pop
  | handle at_ =>
    refine keeps (plain at_ nofun) nofun (fun same => by rw [at_] at same; cases same) ?_
    simp only [batch, at_, List.append_assoc, List.singleton_append]
  | handled at_ =>
    refine keeps (plain at_ nofun) nofun (fun same => by rw [at_] at same; cases same) ?_
    simp only [batch, at_]
  | checked at_ _ =>
    refine keeps (plain at_ nofun) nofun (fun same => by rw [at_] at same; cases same) ?_
    simp only [batch, at_]
  | unchecked at_ _ =>
    refine keeps (plain at_ nofun) nofun (fun same => by rw [at_] at same; cases same) ?_
    simp only [batch, at_]
  | renotify at_ =>
    refine sound.of_outside (plain at_ (fun _ same => by cases same)) (fun _ same => by cases same)
      (s.channel.eventFd + 1) ?_ fun _ => .inl (Nat.succ_ne_zero _)
    simp only [batch, at_]

theorem Sound.step (sound : s.Sound) (proper : s.proper l = true) (stepped : s.step l = some s') :
    s'.Sound := by
  cases l with
  | send producer message =>
    obtain ⟨c, called, rfl⟩ := Option.map_eq_some_iff.mp stepped
    obtain ⟨pop, popped, -⟩ := Channel.call_frame called
    exact sound.of_channel (sound.channel.call called) pop popped fun awaited => awaited.call called
  | produce i =>
    obtain ⟨c, produced, rfl⟩ := Option.map_eq_some_iff.mp stepped
    obtain ⟨pop, popped, -⟩ := Channel.produce_frame produced
    exact sound.of_channel (sound.channel.produce proper produced) pop popped
      fun awaited => awaited.produce produced
  | consume => exact sound.consumed proper (consumed_of_consume stepped)

/-! ### The consumer comes to rest -/

/-- The steps that `TryPop` and the loop around it still take for one message. -/
def popWork : Popping T → Nat
  | .outside => 0
  | .looking => 5
  | .exchanging => 4
  | .clearing _ => 3
  | .moving _ => 2
  | .lowering _ => 8
  | .returned (some _) => 7
  | .returned none => 4

/-- A bound of the steps that the event loop still takes when no call is under way. -/
def work (s : NotifyQueue T) : Nat :=
  let rest := s.channel.queue.head - s.channel.queue.tail
  let again := if s.channel.eventFd = 0 then 0 else 30 + 8 * rest
  match s.consumer with
  | .idle => again
  | .draining => 28 + 8 * rest + (if s.channel.eventFd = 0 then 0 else 1)
  | .popping batch => again + 8 * rest + batch.length + 10 + popWork s.channel.pop
  | .handling batch => again + 8 * rest + batch.length + 3
  | .checking => again + 2
  | .renotifying => 31 + 8 * rest

include sound

theorem Sound.popStep_work
    (popping : s.consumer = .popping batch) (stepped : s.channel.popStep = some c) :
    ({ s with channel := c } : NotifyQueue T).work < s.work ∧ c.sends = s.channel.sends := by
  simp only [work, popping]
  cases sound.channel.tried stepped with
  | move at_pop =>
    have below := sound.channel.claimed_le
    rw [Channel.claimed] at below
    refine ⟨?_, rfl⟩
    simp only [at_pop, popWork] at below ⊢
    split <;> omega
  | unready at_pop | ready at_pop | exchange at_pop | clear at_pop | lower at_pop =>
    rw [at_pop]
    exact ⟨Nat.add_lt_add_left (by simp only [popWork]; omega) _, rfl⟩

theorem Sound.consumed_work (quiet : s.channel.quiet = true)
    (ran : Consumed s s') : s'.work < s.work ∧ s'.channel.sends = s.channel.sends := by
  cases ran with
  | wake at_ raised =>
    refine ⟨?_, rfl⟩
    simp only [work, at_, if_neg raised]
    omega
  | read at_ raised =>
    refine ⟨?_, rfl⟩
    simp only [work, at_, if_neg raised, if_true]
    omega
  | drained at_ zero =>
    refine ⟨?_, rfl⟩
    simp only [work, at_, zero, if_true, popWork, List.length_nil]
    omega
  | pop at_ popped => exact sound.popStep_work at_ popped
  | fetch at_ at_pop _ =>
    refine ⟨?_, rfl⟩
    simp only [work, at_, at_pop, popWork, List.length_append, List.length_singleton]
    omega
  | drop at_ at_pop full =>
    have room := sound.room (by rw [found, at_pop])
    rw [batch, at_] at room
    exact absurd room full
  | emptied at_ at_pop =>
    refine ⟨?_, rfl⟩
    simp only [work, at_]
    omega
  | handle at_ =>
    refine ⟨?_, rfl⟩
    simp only [work, at_, List.length_cons]
    omega
  | handled at_ =>
    refine ⟨?_, rfl⟩
    simp only [work, at_]
    omega
  | checked at_ _ =>
    refine ⟨?_, rfl⟩
    simp only [work, at_]
    omega
  | unchecked at_ more =>
    refine ⟨?_, rfl⟩
    -- the loop left a message behind only if the eventfd has been raised
    have raised : s.channel.eventFd ≠ 0 := by
      intro zero
      have out := sound.outside (fun batch same => by rw [at_] at same; cases same)
      have size := sound.channel.size_of_settled (Channel.not_pending_of_quiet quiet) out
      rcases sound.awaited (by simp only [Asleep, at_]) with raised | none_ | pending
      · exact raised zero
      · rw [MPSCQueue.empty, decide_eq_false_iff_not] at more
        omega
      · exact Channel.not_pending_of_quiet quiet pending
    simp only [work, at_, if_neg raised]
    omega
  | renotify at_ =>
    refine ⟨?_, rfl⟩
    simp only [work, at_, if_neg (Nat.succ_ne_zero _)]
    omega

theorem Sound.run_le_work {n : Nat} (quiet : s.channel.quiet = true)
    (run : Run (Under (fun s l => s.proper l = true) (Steps NotifyQueue.step)) s
      (List.replicate n .consume) s') : n ≤ s.work := by
  induction n generalizing s with
  | zero => exact Nat.zero_le _
  | succ n ih =>
    obtain ⟨t, ⟨proper, stepped⟩, rest⟩ := run.cons_inv
    have ran := consumed_of_consume stepped
    obtain ⟨less, sends⟩ := sound.consumed_work quiet ran
    have quiet' : t.channel.quiet = true := by
      rw [Channel.quiet, sends]
      exact quiet
    have bound := ih (sound.consumed proper ran) quiet' rest
    omega

theorem Sound.goes_on (quiet : s.channel.quiet = true) (busy : ¬ s.Resting) :
    ∃ s', s.step .consume = some s' := by
  show ∃ s', s.consume = some s'
  rw [consume]
  cases at_ : s.consumer with
  | idle =>
    have raised : s.channel.eventFd ≠ 0 := fun zero => busy ⟨quiet, zero, at_⟩
    exact ⟨_, if_pos raised⟩
  | draining =>
    dsimp only
    split
    · exact ⟨_, rfl⟩
    · exact ⟨_, rfl⟩
  | popping batch =>
    have inside := sound.inside batch at_
    rw [Channel.popStep]
    cases at_pop : s.channel.pop with
    | outside => exact absurd at_pop inside
    | looking =>
      dsimp only
      split <;> exact ⟨_, rfl⟩
    | returned result =>
      cases result with
      | none => exact ⟨_, rfl⟩
      | some m =>
        dsimp only
        split <;> exact ⟨_, rfl⟩
    | exchanging => exact ⟨_, rfl⟩
    | clearing data => exact ⟨_, rfl⟩
    | moving d => exact ⟨_, rfl⟩
    | lowering d => exact ⟨_, rfl⟩
  | handling batch => cases batch <;> exact ⟨_, rfl⟩
  | checking => exact ⟨_, rfl⟩
  | renotifying => exact ⟨_, rfl⟩

omit sound

/-! ### Delivery -/

/-- The message handler is given the messages in order, each once. -/
structure Delivers (s : NotifyQueue T) : Prop where
  handled : s.handled <+: s.channel.messages
  once : s.channel.order.Nodup
  accepted : ∀ (i : Nat) (send : Send T) (pos : Nat), s.channel.sends[i]? = some send →
    send.place = .sent pos → s.channel.order[pos]? = some i
  /-- the messages of one producer have positions in the order in which it sent them -/
  inOrder : ∀ (i j : Nat) (send send' : Send T) (p q : Nat), i < j →
    s.channel.sends[i]? = some send → s.channel.sends[j]? = some send' →
    send.producer = send'.producer → s.channel.order[p]? = some i → s.channel.order[q]? = some j →
      p < q
  /-- when nothing is under way, all messages have been handled -/
  complete : s.Resting → s.handled = s.channel.messages ∧
    s.channel.queue.tail = s.channel.queue.head ∧ s.channel.queue.empty = true
  /-- without new calls the event loop goes on until nothing is under way … -/
  goesOn : s.channel.quiet = true → ¬ s.Resting → ∃ s', s.step .consume = some s'
  /-- … and comes to that point -/
  settles : s.channel.quiet = true → ∀ (n : Nat) (s' : NotifyQueue T),
    Run (Under (fun s l => s.proper l = true) (Steps step)) s (List.replicate n .consume) s' →
      n ≤ s.work

theorem Sound.complete (sound : s.Sound) (resting : s.Resting) :
    s.handled = s.channel.messages ∧ s.channel.queue.tail = s.channel.queue.head ∧
      s.channel.queue.empty = true := by
  obtain ⟨quiet, zero, idle⟩ := resting
  have out := sound.outside (fun batch same => by rw [idle] at same; cases same)
  have delivered := sound.delivered
  simp only [batch, fetched, idle, out, List.append_nil] at delivered
  rw [delivered]
  exact sound.channel.all_popped (Channel.not_pending_of_quiet quiet) out zero
    (sound.awaited (by simp only [Asleep, idle]))

/-- Every message is delivered, where none is popped with a full batch. -/
theorem delivers {minimum capacity maxBatchSize : Nat} (positive : 0 < minimum)
    (small : MPSCQueue.roundCapacity minimum capacity < 2 ^ 64)
    (run : Run (Under (fun s l => s.proper l = true) (Steps step))
      (new (.new minimum capacity positive small) maxBatchSize) ls s) : s.Delivers := by
  have sound : s.Sound :=
    run.invariant_under (fun _ _ _ inv proper stepped => inv.step proper stepped)
      (sound_new positive small maxBatchSize)
  constructor
  · have start : s.handled <+: s.channel.popped := ⟨_, sound.delivered⟩
    exact start.trans sound.channel.popped_prefix
  · exact sound.channel.nodup_order
  · intro i send pos found sent
    exact (sound.channel.calls.holds pos i).mpr ⟨send, found, by rw [sent]; rfl⟩
  · intro i j send send' p q before found found' alike at_p at_q
    obtain ⟨t, found_t, pos⟩ := (sound.channel.calls.holds p i).mp at_p
    obtain ⟨t', found_t', pos'⟩ := (sound.channel.calls.holds q j).mp at_q
    rw [found] at found_t
    rw [found'] at found_t'
    cases found_t
    cases found_t'
    exact sound.channel.calls.ordered i j send send' p q before found found' alike pos pos'
  · exact sound.complete
  · exact sound.goes_on
  · exact fun quiet n s' later => sound.run_le_work quiet later

/-! Two messages of one producer, sent before `HandleNotify` runs: with a batch of
two both are handled, with a batch of one the second is popped and dropped. -/

def twoSends : List (NotifyLabel Nat) :=
  .send 0 7 :: List.replicate 7 (.produce 0) ++ .send 0 8 :: List.replicate 7 (.produce 1)

def smallQueue : MPSCQueue Nat := .new 16 16 (by decide) (by decide)

def ranWith (maxBatchSize steps : Nat) : Option (NotifyQueue Nat) :=
  (twoSends ++ List.replicate steps NotifyLabel.consume).foldlM
    (fun s l => if s.proper l = true then s.step l else none) (new smallQueue maxBatchSize)

theorem both_messages_delivered : ∃ ls s,
    Run (Under (fun s l => s.proper l = true) (Steps step)) (new smallQueue 2) ls s ∧ s.Resting ∧
      s.handled = [7, 8] ∧ s.Delivers := by
  have ran : ranWith 2 21 = some ((ranWith 2 21).get (by decide)) := (Option.some_get _).symm
  have run := run_under_of_foldlM ran
  exact ⟨_, _, run, ⟨by decide, by decide, by decide⟩, by decide, delivers (by decide) (by decide) run⟩

def droppedRun : Option (NotifyQueue Nat) :=
  (twoSends ++ List.replicate 18 NotifyLabel.consume).foldlM step (new smallQueue 1)

/-- Nothing is under way, but the second message was never handled. -/
theorem overfull_batch_loses_message : ∃ ls s,
    Run (Steps step) (new smallQueue 1) ls s ∧ s.Resting ∧
      s.channel.sends.map (fun send => (send.message, send.place)) = [(7, .sent 0), (8, .sent 1)] ∧
      s.handled = [7] ∧ ¬ s.Delivers := by
  have ran : droppedRun = some (droppedRun.get (by decide)) := (Option.some_get _).symm
  have resting : (droppedRun.get (by decide)).Resting := ⟨by decide, by decide, by decide⟩
  refine ⟨_, _, run_of_foldlM ran, resting, by decide, by decide, fun delivers => ?_⟩
  have all := (delivers.complete resting).1
  exact absurd all (by decide)

end NotifyQueue

end AgentProtocols.Shared
