import AgentProtocols.Shared.MPSCQueue
import Mathlib.Data.List.Perm.Subperm

/-!
When `MPSCQueue` refuses a message. A message is popped as soon as its slot is marked, which may be
before its push has raised `size_`: `TryPop` then takes the counter below zero, and an almost empty
ring refuses. `Settled` are the steps that keep the two in order.

* `Ordered.step` — under `Settled` every position that `TryPop` has claimed is counted.
* `ring_orderly` — the counter never wraps, a slot has one writer, only a full ring refuses.
* `stalled_push_disorders` — runs with a stalled producer in which all of this fails.
-/

namespace AgentProtocols.Shared

open Lib

/-- A producer calls `Push`, its call goes on, the consumer calls `TryPop`, or that call goes on. -/
inductive RingLabel (T : Type*) where
  | call (producer : Nat) (message : T)
  | produce (call : Nat)
  | look
  | pop
deriving DecidableEq

/-- The call is between seeing the flag of its slot clear and setting it. -/
def Place.writing? : Place → Option Nat
  | .storing pos | .readying pos => some pos
  | _ => none

/-- The call has passed the test of the capacity. -/
def Place.entered : Place → Bool
  | .sizing | .refused => false
  | _ => true

namespace Channel

variable {T : Type*}

def ringStep (c : Channel T) : RingLabel T → Option (Channel T)
  | .call producer message => c.call producer message
  | .produce i => c.produce i
  | .look =>
    match c.pop with
    | .outside | .returned _ => some { c with pop := .looking }
    | _ => none
  | .pop => c.popStep

/-- `Push` is about to read `size_` and to return false. -/
def refuses (c : Channel T) (i : Nat) : Bool :=
  match c.sends[i]? with
  | some ⟨_, _, .sizing⟩ => c.queue.capacity ≤ c.queue.size
  | _ => false

/-- The messages that have been pushed or are being pushed. -/
def underWay (c : Channel T) : Nat := tally (fun s => s.place.entered.toNat) c.sends

/-- What is asked of the counter, the slots and the refusals. -/
structure Orderly (c : Channel T) : Prop where
  lowers : ∀ d, c.pop = .lowering d → c.queue.size ≠ 0
  alone : ∀ (i j : Nat) (s t : Send T) (p q : Nat), c.sends[i]? = some s → c.sends[j]? = some t →
    s.place.writing? = some p → t.place.writing? = some q →
      p % c.queue.capacity = q % c.queue.capacity → i = j
  full : ∀ i, c.refuses i = true → c.queue.capacity + c.popped.length ≤ c.underWay

/-- A producer that sees its slot clear is in its turn, and the message that `TryPop` finds is
counted. -/
def settled (c : Channel T) : RingLabel T → Bool
  | .produce i => c.inTurn i
  | .pop =>
    match c.pop with
    | .looking => !(c.queue.node c.queue.tail).ready ||
        (c.holder c.queue.tail).any fun s => s.place.counted
    | _ => true
  | .call _ _ | .look => true

/-- What holds as long as the steps are settled. -/
structure Ordered (c : Channel T) : Prop where
  sound : c.Sound
  counted : ∀ p < c.claimed, ∃ s, c.holder p = some s ∧ s.place.counted = true

variable {c c' : Channel T} {i : Nat} {s : Send T}

/-! ### Counting -/

/-- The calls whose messages are counted. -/
def countedCalls (c : Channel T) : List Nat :=
  (List.range c.sends.length).filter fun i => c.sends[i]?.any fun s => s.place.counted

theorem mem_countedCalls :
    i ∈ c.countedCalls ↔ ∃ s, c.sends[i]? = some s ∧ s.place.counted = true := by
  rw [countedCalls, List.mem_filter, List.mem_range, Option.any_eq_true]
  constructor
  · exact fun both => both.2
  · rintro ⟨s, found, counted⟩
    exact ⟨(List.getElem?_eq_some_iff.mp found).1, s, found, counted⟩

theorem counted_eq_length (c : Channel T) : c.counted = c.countedCalls.length := tally_toNat

/-- What the consumer has claimed is counted. -/
theorem Ordered.claimed_le_counted (ordered : c.Ordered) : c.claimed ≤ c.counted := by
  have long := ordered.sound.claimed_le
  rw [← ordered.sound.length] at long
  have inside : c.order.take c.claimed ⊆ c.countedCalls := by
    intro i mem
    obtain ⟨p, at_p⟩ := List.getElem?_of_mem mem
    rw [List.getElem?_take] at at_p
    split at at_p
    · rename_i below
      obtain ⟨s, held, counted⟩ := ordered.counted p below
      rw [holder, at_p] at held
      exact mem_countedCalls.mpr ⟨s, held, counted⟩
    · cases at_p
  have sorted := (ordered.sound.nodup_order.sublist (List.take_sublist _ _)).subperm inside
  have le := sorted.length_le
  rw [List.length_take, Nat.min_eq_left long] at le
  exact counted_eq_length c ▸ le

/-- A counted message lies within the capacity from what the consumer has released. -/
theorem Sound.counted_le (sound : c.Sound) : c.counted ≤ c.released + c.queue.capacity := by
  have inside : c.countedCalls ⊆ c.order.take (c.released + c.queue.capacity) := by
    intro i mem
    obtain ⟨s, found, counted⟩ := mem_countedCalls.mp mem
    have placed : ∃ p, s.place.pos? = some p ∧ s.place ≠ .waiting p := by
      obtain ⟨producer, message, place⟩ := s
      cases place <;> first | (cases counted; done) | exact ⟨_, rfl, by simp⟩
    obtain ⟨p, pos, moved⟩ := placed
    have below := sound.ahead i s p found pos moved
    have at_p := (sound.calls.holds p i).mpr ⟨s, found, pos⟩
    refine List.mem_of_getElem? (i := p) ?_
    rw [List.getElem?_take, if_pos below]
    exact at_p
  have distinct : c.countedCalls.Nodup := List.nodup_range.filter _
  have le := (distinct.subperm inside).length_le
  rw [← counted_eq_length, List.length_take] at le
  omega

/-! ### The steps -/

/-- A counted message stays counted. -/
theorem Sound.produce_forward (sound : c.Sound) (stepped : c.produce i = some c') {p : Nat}
    (held : c.holder p = some s) (counted : s.place.counted = true) :
    ∃ s', c'.holder p = some s' ∧ s'.place.counted = true := by
  cases found : c.sends[i]? with
  | none =>
    simp only [Channel.produce, found] at stepped
    cases stepped
  | some t =>
    -- a call that keeps its position
    have goes_on : ∀ {place : Place}, (t.place.counted = true → place.counted = true) →
        ∃ s', (c.setPlace i t place).holder p = some s' ∧ s'.place.counted = true := by
      intro place kept
      rw [sound.holder_setPlace found]
      split
      · rename_i pos
        rw [sound.holder_eq found pos] at held
        cases held
        exact ⟨_, rfl, kept counted⟩
      · exact ⟨s, held, counted⟩
    obtain ⟨producer, message, place⟩ := t
    simp only [Channel.produce, found] at stepped
    cases place with
    | reserving =>
      cases stepped
      refine ⟨s, ?_, counted⟩
      rw [sound.holder_reserve found rfl, if_neg]
      · exact held
      · rintro rfl
        rw [sound.holder_none (Nat.le_refl _)] at held
        cases held
    | waiting pos =>
      dsimp only at stepped
      split at stepped
      · cases stepped
        exact ⟨s, held, counted⟩
      · cases stepped
        exact goes_on id
    | notifying pos =>
      cases stepped
      exact goes_on fun _ => rfl
    | sizing | storing pos | readying pos | counting pos =>
      cases stepped
      exact goes_on fun impossible => by cases impossible
    | sent pos | refused => cases stepped

theorem claimed_congr (pop : c'.pop = c.pop) (tail : c'.queue.tail = c.queue.tail) :
    c'.claimed = c.claimed := by
  simp only [claimed, pop, tail]

theorem Ordered.pop (ordered : c.Ordered) (settled : c.settled .pop = true)
    (stepped : c.popStep = some c') : c'.Ordered := by
  refine ⟨ordered.sound.pop stepped, ?_⟩
  have counted := ordered.counted
  cases ordered.sound.tried stepped with
  | ready at_pop ready =>
    simp only [Channel.settled, at_pop, ready, Bool.not_true, Bool.false_or,
      Option.any_eq_true] at settled
    intro p below
    rcases Nat.lt_or_eq_of_le (Nat.le_of_lt_succ below) with lower | here
    · exact counted p (by rw [claimed, at_pop]; exact lower)
    · exact here ▸ settled
  | unready at_pop | exchange at_pop | clear at_pop | move at_pop | lower at_pop =>
    rw [claimed, at_pop] at counted
    exact counted

theorem Ordered.step {l : RingLabel T} (ordered : c.Ordered) (settled : c.settled l = true)
    (stepped : c.ringStep l = some c') : c'.Ordered := by
  cases l with
  | call producer message =>
    obtain ⟨pop, -, queue, -⟩ := call_frame stepped
    refine ⟨ordered.sound.call stepped, fun p below => ?_⟩
    rw [claimed_congr pop (by rw [queue])] at below
    obtain ⟨s, held, counted⟩ := ordered.counted p below
    obtain ⟨j, at_p, found⟩ := Option.bind_eq_some_iff.mp held
    rw [ringStep, Channel.call] at stepped
    split at stepped
    · cases stepped
      refine ⟨s, ?_, counted⟩
      rw [holder]
      rw [show (c.order[p]?) = some j from at_p]
      exact (List.getElem?_append_left (List.getElem?_eq_some_iff.mp found).1).trans found
    · cases stepped
  | produce i =>
    obtain ⟨pop, -, tail⟩ := produce_frame stepped
    refine ⟨ordered.sound.produce settled stepped, fun p below => ?_⟩
    rw [claimed_congr pop tail] at below
    obtain ⟨s, held, counted⟩ := ordered.counted p below
    exact ordered.sound.produce_forward stepped held counted
  | look =>
    have between : c.pop.between = true ∧ c' = { c with pop := .looking } := by
      simp only [ringStep] at stepped
      split at stepped
      · rename_i at_pop
        exact ⟨by rw [at_pop]; rfl, (Option.some.inj stepped).symm⟩
      · rename_i at_pop
        exact ⟨by rw [at_pop]; rfl, (Option.some.inj stepped).symm⟩
      · cases stepped
    obtain ⟨before, rfl⟩ := between
    refine ⟨ordered.sound.repop before rfl c.eventFd, fun p below => ?_⟩
    exact ordered.counted p (Nat.lt_of_lt_of_le below (tail_le_claimed c))
  | pop => exact ordered.pop settled stepped

/-! ### What the invariant says -/

theorem counted_le_underWay (c : Channel T) : c.counted ≤ c.underWay := by
  refine tally_le fun s => ?_
  obtain ⟨producer, message, place⟩ := s
  cases place <;> simp [Place.counted, Place.entered]

theorem Ordered.orderly (ordered : c.Ordered) (small : c.queue.capacity + 1 < wordSize) :
    c.Orderly := by
  obtain ⟨k, size⟩ := ordered.sound.size
  have passed_ := ordered.sound.passed
  have least := ordered.claimed_le_counted
  have most := ordered.sound.counted_le
  have bounded := ordered.sound.bounded
  have word : wordSize = 2 ^ 64 := rfl
  rw [word] at small bounded size
  constructor
  · intro d at_pop zero
    rw [Channel.passed, at_pop] at passed_
    rw [claimed, at_pop] at least
    rw [released, at_pop] at most
    dsimp only at passed_ least most
    omega
  · intro i j s t p q found found' writes writes' slots
    have placed : ∀ {i : Nat} {s : Send T} {p : Nat}, c.sends[i]? = some s →
        s.place.writing? = some p →
          s.place.pos? = some p ∧ c.released ≤ p ∧ p < c.released + c.queue.capacity := by
      intro i s p found writes
      have pos : s.place.pos? = some p ∧ s.place.stored = false ∧ s.place ≠ .waiting p := by
        obtain ⟨producer, message, place⟩ := s
        cases place <;> first | exact ⟨writes, rfl, by simp⟩ | cases writes
      have beyond := ordered.sound.claimed_le_of_not_stored
        (ordered.sound.holder_eq found pos.1) pos.2.1
      exact ⟨pos.1, Nat.le_trans (released_le_claimed c) beyond,
        ordered.sound.ahead i s p found pos.1 pos.2.2⟩
    obtain ⟨pos, low, high⟩ := placed found writes
    obtain ⟨pos', low', high'⟩ := placed found' writes'
    have same := slots_differ low high low' high' slots
    subst same
    have at_p := (ordered.sound.calls.holds p i).mpr ⟨s, found, pos⟩
    rw [(ordered.sound.calls.holds p j).mpr ⟨t, found', pos'⟩] at at_p
    exact (Option.some.inj at_p).symm
  · intro i refuses
    have at_least : c.queue.capacity ≤ c.queue.size := by
      rw [Channel.refuses] at refuses
      split at refuses
      · exact of_decide_eq_true refuses
      · cases refuses
    have popped : c.popped.length ≤ c.queue.tail := by
      rw [← passed_, Channel.passed]
      split <;> omega
    have claimed_ := tail_le_claimed c
    have entered := counted_le_underWay c
    omega

theorem capacity_kept {l : RingLabel T} (stepped : c.ringStep l = some c') :
    c'.queue.capacity = c.queue.capacity := by
  cases l with
  | call producer message =>
    obtain ⟨-, -, queue, -⟩ := call_frame stepped
    rw [queue]
  | produce i =>
    simp only [ringStep, Channel.produce] at stepped
    repeat' split at stepped
    all_goals first
      | (cases stepped; done)
      | (cases stepped; rfl)
  | look | pop =>
    simp only [ringStep, popStep] at stepped
    split at stepped
    all_goals first
      | (cases stepped; done)
      | (cases stepped; rfl)
      | (split at stepped <;> cases stepped <;> rfl)

variable {ls : List (RingLabel T)}

theorem run_capacity (run : Run (Steps ringStep) c ls c') :
    c'.queue.capacity = c.queue.capacity := by
  induction run with
  | nil c => rfl
  | cons stepped rest ih => exact ih.trans (capacity_kept stepped)

/-- Where every step is settled the ring refuses a message only when it is full. -/
theorem ring_orderly {minimum capacity : Nat} (positive : 0 < minimum)
    (allocated : MPSCQueue.roundCapacity minimum capacity + 1 < 2 ^ 64)
    (run : Run (Under (fun c l => c.settled l = true) (Steps ringStep))
      { queue := .new minimum capacity positive (Nat.lt_of_succ_lt allocated) } ls c) :
    c.Orderly := by
  have ordered : c.Ordered := by
    refine run.invariant_under (fun _ _ _ inv settled stepped => inv.step settled stepped) ?_
    exact ⟨sound_new positive _, fun p below => absurd below (Nat.not_lt_zero p)⟩
  have same : c.queue.capacity = MPSCQueue.roundCapacity minimum capacity :=
    run_capacity run.of_under
  exact ordered.orderly (same ▸ allocated)

theorem roundCapacity_sixteen : MPSCQueue.roundCapacity 16 16 < 2 ^ 64 := by decide

/-! A push that has marked its slot but not raised `size_`, and 17 producers that have all read
`size_` before one of them stores. -/

def emptyRing : Channel Nat := { queue := .new 16 16 (Nat.succ_pos 15) roundCapacity_sixteen }

def poppedLate : List (RingLabel Nat) :=
  .call 0 7 :: List.replicate 6 (.produce 0) ++ .look :: List.replicate 5 .pop

def poppedEarly : List (RingLabel Nat) :=
  .call 0 7 :: List.replicate 5 (.produce 0) ++ .look :: List.replicate 5 .pop ++ [.call 1 8]

def crowded : List (RingLabel Nat) :=
  (List.range 17).flatMap (fun i => [.call i i, .produce i, .produce i]) ++ [.produce 0, .produce 16]

theorem ring_orderly_of_settled : ∃ ls c,
    Run (Under (fun c l => c.settled l = true) (Steps ringStep)) emptyRing ls c ∧
      c.popped = [7] ∧ c.Orderly := by
  have ran : poppedLate.foldlM
      (fun c l => if c.settled l = true then c.ringStep l else none) emptyRing = some _ := rfl
  have run := run_under_of_foldlM ran
  exact ⟨_, _, run, rfl, ring_orderly (by decide) (by decide) run⟩

/-- The counter wraps and a ring with one message refuses the next one; two producers write one
slot. -/
theorem stalled_push_disorders :
    (∃ c, Run (Steps ringStep) emptyRing poppedEarly c ∧ c.queue.size = wordSize - 1 ∧
      c.refuses 1 = true ∧ c.underWay = 1 ∧ c.popped = [7] ∧ ¬ c.Orderly) ∧
    ∃ c, Run (Steps ringStep) emptyRing crowded c ∧
      c.sends[0]? = some ⟨0, 0, .storing 0⟩ ∧ c.sends[16]? = some ⟨16, 16, .storing 16⟩ ∧
      ¬ c.Orderly := by
  constructor
  · have ran : poppedEarly.foldlM ringStep emptyRing = some _ := rfl
    refine ⟨_, run_of_foldlM ran, rfl, rfl, rfl, rfl, fun orderly => ?_⟩
    exact absurd (orderly.full 1 rfl) (by decide)
  · have ran : crowded.foldlM ringStep emptyRing = some _ := rfl
    refine ⟨_, run_of_foldlM ran, rfl, rfl, fun orderly => ?_⟩
    exact absurd (orderly.alone 0 16 _ _ 0 16 rfl rfl rfl rfl rfl) (by decide)

/-- What is popped was pushed, in the order of the positions, which is that of each producer. -/
theorem popped_in_order {T : Type*} {c : Channel T} {ls : List (RingLabel T)}
    {minimum capacity : Nat} (positive : 0 < minimum)
    (allocated : MPSCQueue.roundCapacity minimum capacity < 2 ^ 64)
    (run : Run (Under (fun c l => c.settled l = true) (Steps ringStep))
      { queue := .new minimum capacity positive allocated } ls c) :
    c.popped <+: c.messages ∧ c.order.Nodup ∧ ∀ (i j p q : Nat) (s t : Send T), i < j →
      c.sends[i]? = some s → c.sends[j]? = some t → s.producer = t.producer →
        c.order[p]? = some i → c.order[q]? = some j → p < q := by
  have ordered : c.Ordered := by
    refine run.invariant_under (fun _ _ _ inv settled stepped => inv.step settled stepped) ?_
    exact ⟨sound_new positive _, fun p below => absurd below (Nat.not_lt_zero p)⟩
  have sound := ordered.sound
  refine ⟨sound.popped_prefix, sound.nodup_order, fun i j p q s t before at_i at_j same at_p at_q => ?_⟩
  obtain ⟨s', found, pos⟩ := (sound.calls.holds p i).mp at_p
  obtain ⟨t', found', pos'⟩ := (sound.calls.holds q j).mp at_q
  cases at_i.symm.trans found
  cases at_j.symm.trans found'
  exact sound.calls.ordered i j s t p q before at_i at_j same pos pos'

theorem late_pop_in_order : ∃ c, Run (Under (fun c l => c.settled l = true) (Steps ringStep)) emptyRing
    poppedLate c ∧ c.popped = [7] ∧ c.popped <+: c.messages := by
  have ran : poppedLate.foldlM
      (fun c l => if c.settled l = true then c.ringStep l else none) emptyRing = some _ := rfl
  have run := run_under_of_foldlM ran
  exact ⟨_, run, rfl, (popped_in_order (by decide) (by decide) run).1⟩

end Channel

end AgentProtocols.Shared
