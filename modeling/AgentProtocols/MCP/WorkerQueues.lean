import AgentProtocols.Shared.MPSCQueue

/-!
The worker threads of the C++ `ServerManager`. `HandleQueueNotification` stops at `MAX_BATCH_SIZE`
messages and then notifies with the descriptor of the eventfd in place of the id of the event.

* `Worker.Sound.step` — as long as a worker that stops at the limit is woken by something else, a
  worker at rest is going to be woken.
* `workers_deliver` — in every such run each worker processes its messages in order, each once.
* `full_batch_leaves_request` — a run in which a request stays in the queue.
-/

namespace AgentProtocols.MCP

open Lib Shared

/-- `WorkerMessage`: what `DispatchRequest` and `DispatchResponse` push. -/
inductive WorkerMessage (Request Response : Type*) where
  | request (r : Request)
  | response (r : Response)
deriving DecidableEq

/-- Where a worker is in `HandleQueueNotification`. -/
inductive WorkerPlace where
  | idle
  | draining
  | processing (processedCount : Nat)
  | checking (processedCount : Nat)
  | renotifying
deriving DecidableEq

/-- A worker thread: its queue, its eventfd and its event system. `processed` is what it has done.
-/
structure Worker (T : Type*) where
  channel : Channel T
  eventId : Int
  fd : Int
  events : List (Int × Int)
  place : WorkerPlace := .idle
  processed : List T := []

def maxBatchSize : Nat := 32

def queueCapacity : Nat := 4096

/-- `MCP_LFQ_MIN_CAPACITY`. -/
def minQueueCapacity : Nat := 128

/-- A dispatch call for the worker, a step of such a call, or a step of the worker. -/
inductive WorkerLabel (T : Type*) where
  | dispatch (producer : Nat) (message : T)
  | produce (call : Nat)
  | consume
deriving DecidableEq

namespace Worker

variable {T : Type*}

/-- What `Start` sets up: the event of the queue is the first one of its event system. -/
def start (fd : Int) : Worker T where
  channel := { queue := .new minQueueCapacity queueCapacity (by decide) (by decide) }
  eventId := 1
  fd := fd
  events := [(1, fd)]

/-- `NotifyEventId`, as far as the eventfd of the worker is concerned. -/
def notifyEventId (w : Worker T) (eventId : Int) : Worker T :=
  if w.events.lookup eventId = some w.fd then
    { w with channel := { w.channel with eventFd := w.channel.eventFd + 1 } }
  else w

/-- The next step of `HandleQueueNotification`. Errors of a handler are caught. -/
def consume (w : Worker T) : Option (Worker T) :=
  match w.place with
  | .idle => if w.channel.eventFd ≠ 0 then some { w with place := .draining } else none
  | .draining =>
    if w.channel.eventFd ≠ 0 then some { w with channel := { w.channel with eventFd := 0 } }
    else some { w with place := .processing 0 }
  | .processing n =>
    match w.channel.pop with
    | .outside =>
      if n < maxBatchSize then some { w with channel := { w.channel with pop := .looking } }
      else some { w with place := .checking n }
    | .returned (some m) =>
      some { w with
        place := .processing (n + 1)
        channel := { w.channel with pop := .outside }
        processed := w.processed ++ [m] }
    | .returned none =>
      some { w with place := .checking n, channel := { w.channel with pop := .outside } }
    | _ => w.channel.popStep.map fun c => { w with channel := c }
  | .checking n =>
    some { w with
      place := if maxBatchSize ≤ n ∧ w.channel.queue.empty = false then .renotifying else .idle }
  | .renotifying => some { w.notifyEventId w.fd with place := .idle }

def step (w : Worker T) : WorkerLabel T → Option (Worker T)
  | .dispatch producer message =>
    (w.channel.call producer message).map fun c => { w with channel := c }
  | .produce i => (w.channel.produce i).map fun c => { w with channel := c }
  | .consume => w.consume

/-- Something else is going to wake the worker, or the queue is empty. -/
def woken (w : Worker T) : Bool :=
  w.channel.eventFd ≠ 0 || w.channel.queue.tail = w.channel.queue.head ||
    w.channel.sends.any fun s => s.place.pos?.isSome && !s.place.done

/-- A call stores in its turn, and a worker that stops is going to be woken. -/
def proper (w : Worker T) : WorkerLabel T → Bool
  | .dispatch _ _ => true
  | .produce i => w.channel.inTurn i
  | .consume =>
    match w.place with
    | .renotifying => w.events.lookup w.fd = some w.fd || w.woken
    | _ => true

/-- No dispatch call is under way, the eventfd is zero and the worker waits for it. -/
def Resting (w : Worker T) : Prop :=
  w.channel.quiet = true ∧ w.channel.eventFd = 0 ∧ w.place = .idle

theorem awaited_iff_woken (w : Worker T) : w.channel.Awaited ↔ w.woken = true := by
  simp only [Channel.Awaited, Channel.Pending, woken, Bool.or_eq_true, decide_eq_true_eq,
    List.any_eq_true, Bool.and_eq_true, Bool.not_eq_true', or_assoc]
  refine or_congr_right (or_congr_right ⟨?_, ?_⟩)
  · rintro ⟨i, s, found, holds, undone⟩
    exact ⟨s, List.mem_of_getElem? found, holds, undone⟩
  · rintro ⟨s, mem, holds, undone⟩
    obtain ⟨i, found⟩ := List.getElem?_of_mem mem
    exact ⟨i, s, found, holds, undone⟩

/-! ### The invariant -/

/-- The message that `TryPop` has returned to the loop. -/
def fetched (w : Worker T) : List T :=
  match w.channel.pop with
  | .returned (some m) => [m]
  | _ => []

/-- The worker does not look into the queue before its eventfd is raised. -/
def Asleep (w : Worker T) : Prop :=
  match w.place with
  | .idle => True
  | .draining | .renotifying => False
  | .processing _ => w.channel.pop = .returned none
  | .checking n => n < maxBatchSize

/-- What holds of a worker that is woken. -/
structure Sound (w : Worker T) : Prop where
  channel : w.channel.Sound
  delivered : w.processed ++ w.fetched = w.channel.popped
  outside : (∀ n, w.place ≠ .processing n) → w.channel.pop = .outside
  awaited : w.Asleep → w.channel.Awaited

variable {w w' : Worker T} {l : WorkerLabel T} {ls : List (WorkerLabel T)}

theorem sound_start (fd : Int) : (start fd : Worker T).Sound where
  channel := Channel.sound_new (by decide) (by decide)
  delivered := rfl
  outside _ := rfl
  awaited _ := .inr (.inl rfl)

variable {n : Nat} {c : Channel T}

theorem Sound.of_channel (sound : w.Sound) (channel : c.Sound)
    (pop : c.pop = w.channel.pop) (popped : c.popped = w.channel.popped)
    (awaited : w.channel.Awaited → c.Awaited) : ({ w with channel := c } : Worker T).Sound := by
  have fetched_ : ({ w with channel := c } : Worker T).fetched = w.fetched := by
    simp only [fetched, pop]
  have asleep : ({ w with channel := c } : Worker T).Asleep → w.Asleep := by
    simp only [Asleep, pop]
    exact id
  constructor
  · exact channel
  · rw [fetched_]
    exact sound.delivered.trans popped.symm
  · exact fun none_ => pop.trans (sound.outside none_)
  · exact fun sleeps => awaited (sound.awaited (asleep sleeps))

inductive Consumed (w : Worker T) : Worker T → Prop where
  | wake : w.place = .idle → w.channel.eventFd ≠ 0 → Consumed w { w with place := .draining }
  | read : w.place = .draining → w.channel.eventFd ≠ 0 →
      Consumed w { w with channel := { w.channel with eventFd := 0 } }
  | drained : w.place = .draining → w.channel.eventFd = 0 →
      Consumed w { w with place := .processing 0 }
  | look {n : Nat} : w.place = .processing n → w.channel.pop = .outside → n < maxBatchSize →
      Consumed w { w with channel := { w.channel with pop := .looking } }
  | full {n : Nat} : w.place = .processing n → w.channel.pop = .outside → maxBatchSize ≤ n →
      Consumed w { w with place := .checking n }
  | pop {n : Nat} {c : Channel T} : w.place = .processing n → w.channel.popStep = some c →
      Consumed w { w with channel := c }
  | process {n : Nat} {m : T} : w.place = .processing n → w.channel.pop = .returned (some m) →
      Consumed w { w with
        place := .processing (n + 1)
        channel := { w.channel with pop := .outside }
        processed := w.processed ++ [m] }
  | emptied {n : Nat} : w.place = .processing n → w.channel.pop = .returned none →
      Consumed w { w with place := .checking n, channel := { w.channel with pop := .outside } }
  | stop {n : Nat} : w.place = .checking n → ¬ (maxBatchSize ≤ n ∧ w.channel.queue.empty = false) →
      Consumed w { w with place := .idle }
  | more {n : Nat} : w.place = .checking n → maxBatchSize ≤ n → w.channel.queue.empty = false →
      Consumed w { w with place := .renotifying }
  | renotify : w.place = .renotifying → Consumed w { w.notifyEventId w.fd with place := .idle }

theorem consumed_of_consume (stepped : w.consume = some w') : Consumed w w' := by
  rw [consume] at stepped
  cases at_ : w.place with
  | idle =>
    rw [at_] at stepped
    dsimp only at stepped
    split at stepped
    · rename_i raised
      cases stepped
      exact .wake at_ raised
    · cases stepped
  | draining =>
    rw [at_] at stepped
    dsimp only at stepped
    split at stepped
    · rename_i raised
      cases stepped
      rw [← at_]
      exact .read at_ raised
    · rename_i zero
      cases stepped
      exact .drained at_ (not_not.mp zero)
  | processing n =>
    rw [at_] at stepped
    dsimp only at stepped
    split at stepped
    · rename_i at_pop
      split at stepped
      · rename_i room
        cases stepped
        rw [← at_]
        exact .look at_ at_pop room
      · rename_i full
        cases stepped
        exact .full at_ at_pop (Nat.le_of_not_lt full)
    · rename_i m at_pop
      cases stepped
      exact .process at_ at_pop
    · rename_i at_pop
      cases stepped
      exact .emptied at_ at_pop
    · obtain ⟨c, popped, rfl⟩ := Option.map_eq_some_iff.mp stepped
      rw [← at_]
      exact .pop at_ popped
  | checking n =>
    rw [at_] at stepped
    dsimp only at stepped
    split at stepped
    · rename_i both
      cases stepped
      exact .more at_ both.1 both.2
    · rename_i other
      cases stepped
      exact .stop at_ other
  | renotifying =>
    rw [at_] at stepped
    cases stepped
    exact .renotify at_

variable (sound : w.Sound)

include sound

theorem Sound.popStep (at_ : w.place = .processing n)
    (stepped : w.channel.popStep = some c) : ({ w with channel := c } : Worker T).Sound := by
  have channel := sound.channel.pop stepped
  have delivered := sound.delivered
  have outside : (∀ m, w.place ≠ .processing m) → c.pop = .outside := fun none_ => absurd at_ (none_ n)
  -- what is left to say of the step
  have keeps : w.processed ++ ({ w with channel := c } : Worker T).fetched = c.popped →
      (c.pop = .returned none → c.Awaited) → ({ w with channel := c } : Worker T).Sound := by
    intro delivered' awaited
    refine ⟨channel, delivered', outside, fun asleep => awaited ?_⟩
    simpa only [Asleep, at_] using asleep
  cases sound.channel.tried stepped with
  | unready at_pop unready =>
    simp only [fetched, at_pop] at delivered
    exact keeps delivered fun _ => .inr (sound.channel.awaited_of_looking at_pop unready)
  | lower at_pop =>
    simp only [fetched, at_pop, List.append_nil] at delivered
    exact keeps (congrArg (· ++ [_]) delivered) nofun
  | ready at_pop | exchange at_pop | clear at_pop | move at_pop =>
    simp only [fetched, at_pop] at delivered
    exact keeps delivered nofun

theorem Sound.between (before : w.channel.pop.between = true)
    (place : WorkerPlace) {pop : Popping T} (n : Nat) {processed : List T}
    (after : pop = .looking ∨ pop = .outside) (delivered : processed = w.channel.popped)
    (outside : (∀ n, place ≠ .processing n) → pop = .outside)
    (awaited : ({ w with place := place, channel := { w.channel with pop := pop } } : Worker T).Asleep →
      ({ w.channel with eventFd := n } : Channel T).Awaited) :
    ({ w with
      place := place
      channel := { w.channel with pop := pop, eventFd := n }
      processed := processed } : Worker T).Sound := by
  have after_ : pop.between = true := by rcases after with rfl | rfl <;> rfl
  have nothing : ({ w with
      place := place
      channel := { w.channel with pop := pop, eventFd := n }
      processed := processed } : Worker T).fetched = [] := by
    rcases after with rfl | rfl <;> rfl
  refine ⟨sound.channel.repop before after_ n, ?_, outside, awaited⟩
  rw [nothing, List.append_nil]
  exact delivered

theorem Sound.consumed (proper : w.proper .consume = true) (ran : Consumed w w') : w'.Sound := by
  -- the steps outside the loop that processes
  have plain : ∀ {place : WorkerPlace}, w.place = place → (∀ n, place ≠ .processing n) →
      w.channel.pop = .outside ∧ w.processed = w.channel.popped := by
    intro place same none_
    have out := sound.outside fun n => same ▸ none_ n
    have delivered := sound.delivered
    simp only [fetched, out, List.append_nil] at delivered
    exact ⟨out, delivered⟩
  cases ran with
  | wake at_ raised =>
    obtain ⟨out, delivered⟩ := plain at_ nofun
    have kept := sound.between (by rw [out]; rfl) .draining w.channel.eventFd (.inr rfl) delivered
      (fun _ => rfl) nofun
    rw [← out] at kept
    exact kept
  | read at_ raised =>
    obtain ⟨out, delivered⟩ := plain at_ nofun
    have kept := sound.between (by rw [out]; rfl) .draining 0 (.inr rfl) delivered
      (fun _ => rfl) nofun
    rw [← out, ← at_] at kept
    exact kept
  | drained at_ zero =>
    obtain ⟨out, delivered⟩ := plain at_ nofun
    have kept := sound.between (by rw [out]; rfl) (.processing 0) w.channel.eventFd (.inr rfl)
      delivered (fun _ => rfl) nofun
    rw [← out] at kept
    exact kept
  | look at_ out room =>
    have delivered := sound.delivered
    simp only [fetched, out, List.append_nil] at delivered
    have kept := sound.between (by rw [out]; rfl) w.place w.channel.eventFd (.inl rfl)
      delivered (fun none_ => absurd at_ (none_ _)) (fun asleep => by
        simp only [at_] at asleep
        cases asleep)
    exact kept
  | full at_ out limit =>
    have delivered := sound.delivered
    simp only [fetched, out, List.append_nil] at delivered
    have kept := sound.between (by rw [out]; rfl) (.checking _) w.channel.eventFd (.inr rfl)
      delivered (fun _ => rfl) (fun asleep => absurd asleep (Nat.not_lt.mpr limit))
    rw [← out] at kept
    exact kept
  | pop at_ popped => exact sound.popStep at_ popped
  | process at_ at_pop =>
    have delivered := sound.delivered
    simp only [fetched, at_pop] at delivered
    exact sound.between (by rw [at_pop]; rfl) (.processing _) w.channel.eventFd (.inr rfl)
      delivered (fun _ => rfl) nofun
  | emptied at_ at_pop =>
    have delivered := sound.delivered
    simp only [fetched, at_pop, List.append_nil] at delivered
    exact sound.between (by rw [at_pop]; rfl) (.checking _) w.channel.eventFd (.inr rfl)
      delivered (fun _ => rfl)
      (fun _ => sound.awaited (by simp only [Asleep, at_, at_pop]))
  | @stop n at_ other =>
    obtain ⟨out, delivered⟩ := plain at_ nofun
    have awaited : w.channel.Awaited := by
      by_cases limit : maxBatchSize ≤ n
      · -- the queue looked empty after a full batch
        have empty : w.channel.queue.size = 0 := by
          have := fun unempty => other ⟨limit, unempty⟩
          simpa [MPSCQueue.empty] using this
        by_cases pending : w.channel.Pending
        · exact .inr (.inr pending)
        · have size := sound.channel.size_of_settled pending out
          exact .inr (.inl (by omega))
      · exact sound.awaited (by simp only [Asleep, at_]; omega)
    have kept := sound.between (by rw [out]; rfl) .idle w.channel.eventFd (.inr rfl) delivered
      (fun _ => rfl) (fun _ => awaited)
    rw [← out] at kept
    exact kept
  | more at_ _ _ =>
    obtain ⟨out, delivered⟩ := plain at_ nofun
    have kept := sound.between (by rw [out]; rfl) .renotifying w.channel.eventFd (.inr rfl)
      delivered (fun _ => rfl) nofun
    rw [← out] at kept
    exact kept
  | renotify at_ =>
    obtain ⟨out, delivered⟩ := plain at_ nofun
    simp only [Worker.proper, at_, Bool.or_eq_true, decide_eq_true_eq] at proper
    rw [notifyEventId]
    split
    · have kept := sound.between (by rw [out]; rfl) .idle (w.channel.eventFd + 1) (.inr rfl)
        delivered (fun _ => rfl) (fun _ => .inl (Nat.succ_ne_zero _))
      rw [← out] at kept
      exact kept
    · rename_i other
      have kept := sound.between (by rw [out]; rfl) .idle w.channel.eventFd (.inr rfl)
        delivered (fun _ => rfl)
        (fun _ => (awaited_iff_woken w).mpr (proper.resolve_left other))
      rw [← out] at kept
      exact kept

theorem Sound.step (proper : w.proper l = true) (stepped : w.step l = some w') : w'.Sound := by
  cases l with
  | dispatch producer message =>
    obtain ⟨c, called, rfl⟩ := Option.map_eq_some_iff.mp stepped
    obtain ⟨pop, popped, -⟩ := Channel.call_frame called
    exact sound.of_channel (sound.channel.call called) pop popped fun awaited => awaited.call called
  | produce i =>
    obtain ⟨c, produced, rfl⟩ := Option.map_eq_some_iff.mp stepped
    obtain ⟨pop, popped, -⟩ := Channel.produce_frame produced
    exact sound.of_channel (sound.channel.produce proper produced) pop popped
      fun awaited => awaited.produce produced
  | consume => exact sound.consumed proper (consumed_of_consume stepped)

omit sound

/-! ### A worker comes to rest -/

/-- The steps that `TryPop` and the loop around it still take for one message. -/
def popWork : Popping T → Nat
  | .outside => 6
  | .looking => 5
  | .exchanging => 4
  | .clearing _ => 3
  | .moving _ => 2
  | .lowering _ => 40
  | .returned (some _) => 39
  | .returned none => 4

/-- A bound of the steps that the worker still takes when no call is under way. -/
def work (w : Worker T) : Nat :=
  let rest := 40 * (w.channel.queue.head - w.channel.queue.tail)
  let due := if w.channel.eventFd = 0 then 0 else 31
  match w.place with
  | .idle => rest + due
  | .draining => rest + 29 + (if w.channel.eventFd = 0 then 0 else 1)
  | .processing n => rest + due + 10 + (if n = 0 then 0 else 32) + popWork w.channel.pop
  | .checking n => rest + due + 3 + (if n = 0 then 0 else 32)
  | .renotifying => rest + due + 34

include sound

theorem Sound.popStep_work (at_ : w.place = .processing n) (stepped : w.channel.popStep = some c) :
    ({ w with channel := c } : Worker T).work < w.work ∧ c.sends = w.channel.sends := by
  simp only [work, at_]
  cases sound.channel.tried stepped with
  | move at_pop =>
    have below := sound.channel.claimed_le
    rw [Channel.claimed] at below
    refine ⟨?_, rfl⟩
    simp only [at_pop, popWork] at below ⊢
    omega
  | unready at_pop | ready at_pop | exchange at_pop | clear at_pop | lower at_pop =>
    rw [at_pop]
    exact ⟨Nat.add_lt_add_left (by simp only [popWork]; omega) _, rfl⟩

theorem Sound.consumed_work (ran : Consumed w w') :
    w'.work < w.work ∧ w'.channel.sends = w.channel.sends := by
  cases ran with
  | wake at_ raised =>
    refine ⟨?_, rfl⟩
    simp only [work, at_, if_neg raised]
    omega
  | read at_ raised =>
    refine ⟨?_, rfl⟩
    simp only [work, at_, if_neg raised, if_true]
    omega
  | drained at_ zero =>
    have out := sound.outside (fun n same => by rw [at_] at same; cases same)
    refine ⟨?_, rfl⟩
    simp only [work, at_, zero, out, if_true, popWork]
    omega
  | look at_ out _ =>
    refine ⟨?_, rfl⟩
    simp only [work, at_, out, popWork]
    omega
  | full at_ out _ =>
    refine ⟨?_, rfl⟩
    simp only [work, at_]
    omega
  | pop at_ popped => exact sound.popStep_work at_ popped
  | process at_ at_pop =>
    refine ⟨?_, rfl⟩
    simp only [work, at_, at_pop, popWork, if_neg (Nat.succ_ne_zero _)]
    omega
  | emptied at_ at_pop =>
    refine ⟨?_, rfl⟩
    simp only [work, at_]
    omega
  | stop at_ _ =>
    refine ⟨?_, rfl⟩
    simp only [work, at_]
    omega
  | @more n at_ limit _ =>
    have some_ : n ≠ 0 := by
      rw [maxBatchSize] at limit
      omega
    refine ⟨?_, rfl⟩
    simp only [work, at_, if_neg some_]
    omega
  | renotify at_ =>
    rw [notifyEventId]
    split
    · refine ⟨?_, rfl⟩
      simp only [work, at_, if_neg (Nat.succ_ne_zero _)]
      omega
    · refine ⟨?_, rfl⟩
      simp only [work, at_]
      omega

theorem Sound.run_le_work (run : Run (Under (fun w l => w.proper l = true) (Steps Worker.step)) w
      (List.replicate n .consume) w') : n ≤ w.work := by
  induction n generalizing w with
  | zero => exact Nat.zero_le _
  | succ n ih =>
    obtain ⟨t, ⟨proper, stepped⟩, rest⟩ := run.cons_inv
    have ran := consumed_of_consume stepped
    have less := (sound.consumed_work ran).1
    have bound := ih (sound.consumed proper ran) rest
    omega

omit sound

theorem goes_on (quiet : w.channel.quiet = true) (busy : ¬ w.Resting) :
    ∃ w', w.step .consume = some w' := by
  show ∃ w', w.consume = some w'
  rw [consume]
  cases at_ : w.place with
  | idle =>
    have raised : w.channel.eventFd ≠ 0 := fun zero => busy ⟨quiet, zero, at_⟩
    exact ⟨_, if_pos raised⟩
  | draining =>
    dsimp only
    split <;> exact ⟨_, rfl⟩
  | processing n =>
    rw [Channel.popStep]
    cases at_pop : w.channel.pop with
    | outside | looking =>
      dsimp only
      split <;> exact ⟨_, rfl⟩
    | returned result => cases result <;> exact ⟨_, rfl⟩
    | exchanging => exact ⟨_, rfl⟩
    | clearing data => exact ⟨_, rfl⟩
    | moving d => exact ⟨_, rfl⟩
    | lowering d => exact ⟨_, rfl⟩
  | checking n => exact ⟨_, rfl⟩
  | renotifying => exact ⟨_, rfl⟩

/-! ### Delivery -/

/-- The worker processes the messages of its queue in order, each once. -/
structure Delivers (w : Worker T) : Prop where
  processed : w.processed <+: w.channel.messages
  once : w.channel.order.Nodup
  accepted : ∀ (i : Nat) (send : Send T) (pos : Nat), w.channel.sends[i]? = some send →
    send.place = .sent pos → w.channel.order[pos]? = some i
  /-- where nothing is under way, the queue is empty and all messages have been
  processed -/
  complete : w.Resting → w.processed = w.channel.messages ∧
    w.channel.queue.tail = w.channel.queue.head ∧ w.channel.queue.empty = true
  /-- without new calls the worker goes on until nothing is under way … -/
  goesOn : w.channel.quiet = true → ¬ w.Resting → ∃ w', w.step .consume = some w'
  /-- … and comes to that point -/
  settles : ∀ (n : Nat) (w' : Worker T),
    Run (Under (fun w l => w.proper l = true) (Steps step)) w (List.replicate n .consume) w' →
      n ≤ w.work

theorem Sound.complete (sound : w.Sound) (resting : w.Resting) :
    w.processed = w.channel.messages ∧ w.channel.queue.tail = w.channel.queue.head ∧
      w.channel.queue.empty = true := by
  obtain ⟨quiet, zero, idle⟩ := resting
  have out := sound.outside (fun n same => by rw [idle] at same; cases same)
  have delivered := sound.delivered
  simp only [fetched, out, List.append_nil] at delivered
  rw [delivered]
  exact sound.channel.all_popped (Channel.not_pending_of_quiet quiet) out zero
    (sound.awaited (by simp only [Asleep, idle]))

theorem Sound.all_delivered (sound : w.Sound) : w.Delivers where
  processed := (show w.processed <+: w.channel.popped from ⟨_, sound.delivered⟩).trans
    sound.channel.popped_prefix
  once := sound.channel.nodup_order
  accepted i send pos found sent :=
    (sound.channel.calls.holds pos i).mpr ⟨send, found, by rw [sent]; rfl⟩
  complete := sound.complete
  goesOn := goes_on
  settles _ _ := sound.run_le_work

end Worker

/-! ### The threads of the server -/

/-- `ServerManager`: its worker threads, and the hash of session ids. -/
structure ServerManager (Request Response : Type*) where
  hasher : String → Nat
  workers : List (Worker (WorkerMessage Request Response))

/-- A thread dispatches for a session, a call goes on, or a worker goes on. -/
inductive ManagerLabel (Request Response : Type*) where
  | dispatchRequest (caller : Nat) (sessionId : String) (request : Request)
  | dispatchResponse (caller : Nat) (sessionId : String) (response : Response)
  | produce (threadId call : Nat)
  | consume (threadId : Nat)
deriving DecidableEq

namespace ServerManager

variable {Request Response : Type*}

/-- `Start`: one worker for each of the descriptors. -/
def start (hasher : String → Nat) (fds : List Int) : ServerManager Request Response where
  hasher := hasher
  workers := fds.map Worker.start

def getThreadIdForSession (m : ServerManager Request Response) (sessionId : String) : Nat :=
  m.hasher sessionId % m.workers.length

/-- The worker that a step is about, and what the step is for it. -/
def target (m : ServerManager Request Response) :
    ManagerLabel Request Response → Nat × WorkerLabel (WorkerMessage Request Response)
  | .dispatchRequest caller sessionId request =>
    (m.getThreadIdForSession sessionId, .dispatch caller (.request request))
  | .dispatchResponse caller sessionId response =>
    (m.getThreadIdForSession sessionId, .dispatch caller (.response response))
  | .produce threadId call => (threadId, .produce call)
  | .consume threadId => (threadId, .consume)

def step (m : ServerManager Request Response) (l : ManagerLabel Request Response) :
    Option (ServerManager Request Response) := do
  let w ← m.workers[(m.target l).1]?
  let w' ← w.step (m.target l).2
  pure { m with workers := m.workers.set (m.target l).1 w' }

def proper (m : ServerManager Request Response) (l : ManagerLabel Request Response) : Bool :=
  m.workers[(m.target l).1]?.all fun w => w.proper (m.target l).2

/-- No dispatch call is under way, no eventfd is raised and every worker waits. -/
def Resting (m : ServerManager Request Response) : Prop := ∀ w ∈ m.workers, w.Resting

/-- Every worker is woken for what is in its queue. -/
def Sound (m : ServerManager Request Response) : Prop := ∀ w ∈ m.workers, w.Sound

/-- Every worker processes what is pushed to its queue. -/
def Delivers (m : ServerManager Request Response) : Prop := ∀ w ∈ m.workers, w.Delivers

variable {m m' : ServerManager Request Response} {l : ManagerLabel Request Response}
  {ls : List (ManagerLabel Request Response)}

theorem Sound.step (sound : m.Sound) (proper : m.proper l = true)
    (stepped : m.step l = some m') : m'.Sound := by
  simp only [ServerManager.step, bind_eq_some] at stepped
  obtain ⟨w, found, w', stepped, rest⟩ := stepped
  cases rest
  intro u mem
  obtain ⟨k, at_k⟩ := List.getElem?_of_mem mem
  rcases getElem?_set_cases at_k with ⟨-, rfl⟩ | ⟨-, old⟩
  · rw [ServerManager.proper, found] at proper
    exact (sound w (List.mem_of_getElem? found)).step proper stepped
  · exact sound u (List.mem_of_getElem? old)

/-- No message waits where every worker that stops at the limit is woken. -/
theorem workers_deliver {hasher : String → Nat} {fds : List Int}
    (run : Run (Under (fun m l => m.proper l = true) (Steps step)) (start hasher fds) ls m) :
    m.Delivers := by
  have first : (start hasher fds : ServerManager Request Response).Sound := by
    intro w mem
    obtain ⟨fd, -, rfl⟩ := List.mem_map.mp mem
    exact Worker.sound_start fd
  have sound : m.Sound :=
    run.invariant_under (fun _ _ _ inv proper stepped => inv.step proper stepped) first
  exact fun w mem => (sound w mem).all_delivered

/-! Two workers whose eventfds have the descriptors 7 and 9. The first session goes
to the first worker, every other one to the second. -/

def twoWorkers : ServerManager String String :=
  start (fun sessionId => if sessionId = "a" then 0 else 1) [7, 9]

/-- A thread dispatches `n` requests of a session to a worker, one after the other. -/
def requests (sessionId : String) (threadId n : Nat) : List (ManagerLabel String String) :=
  (List.range n).flatMap fun i =>
    .dispatchRequest 0 sessionId "ping" :: List.replicate 7 (.produce threadId i)

def ranProper (ls : List (ManagerLabel String String)) : Option (ServerManager String String) :=
  ls.foldlM (fun m l => if m.proper l = true then m.step l else none) twoWorkers

def servedRun : List (ManagerLabel String String) :=
  requests "a" 0 2 ++ List.replicate 21 (.consume 0)

theorem two_requests_processed : ∃ ls m,
    Run (Under (fun m l => m.proper l = true) (Steps step)) twoWorkers ls m ∧
      m.workers.map (fun w => w.processed.length) = [2, 0] ∧ m.Delivers := by
  have ran : ranProper servedRun = some ((ranProper servedRun).get (by decide)) :=
    (Option.some_get _).symm
  have run := run_under_of_foldlM ran
  exact ⟨_, _, run, by decide, workers_deliver run⟩

def overfullRun : Option (ServerManager String String) :=
  (requests "b" 1 33 ++ List.replicate 230 (ManagerLabel.consume 1)).foldlM step twoWorkers

/-- The second worker has stopped at its limit with one request in its queue. -/
theorem full_batch_leaves_request : ∃ ls m, Run (Steps step) twoWorkers ls m ∧ m.Resting ∧
    m.workers.map (fun w => (w.channel.messages.length, w.processed.length)) = [(0, 0), (33, 32)] ∧
      ¬ m.Delivers := by
  have ran : overfullRun = some (overfullRun.get (by decide +kernel)) := (Option.some_get _).symm
  have resting : (overfullRun.get (by decide +kernel)).Resting := by
    unfold Resting Worker.Resting
    decide +kernel
  have left_ : (overfullRun.get (by decide +kernel)).workers.map
      (fun w => (w.channel.messages.length, w.processed.length)) = [(0, 0), (33, 32)] := by
    decide +kernel
  refine ⟨_, _, run_of_foldlM ran, resting, left_, fun delivers => ?_⟩
  have last_ : ((overfullRun.get (by decide +kernel)).workers[1]?).isSome := by decide +kernel
  obtain ⟨w, found⟩ := Option.isSome_iff_exists.mp last_
  have mem := List.mem_of_getElem? found
  have all := ((delivers w mem).complete (resting w mem)).1
  have counted := congrArg (·[1]?) left_
  simp only [List.getElem?_map, found, Option.map_some, all, List.getElem?_cons_succ,
    List.getElem?_cons_zero, Option.some.injEq, Prod.mk.injEq] at counted
  omega

end ServerManager

end AgentProtocols.MCP
