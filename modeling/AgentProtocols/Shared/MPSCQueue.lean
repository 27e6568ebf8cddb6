import AgentProtocols.Lib.Runs
import AgentProtocols.Lib.Tally
import Mathlib.Data.Nat.ModEq

/-!
The queue of many producers and one consumer that the C++ SDKs share, a ring of slots. Each atomic
operation is a step; producers keep to `Channel.inTurn`, and `Channel.Sound` is the invariant.

* `Sound.produce`, `Sound.pop`, `Sound.call` — every step keeps it.
* `Sound.popped_prefix` — `TryPop` returns the messages in the order of their positions.
* `Sound.looking_false` — where it finds nothing, the queue is empty or the slot is not marked.
* `Awaited.produce` — a call that holds a position raises the eventfd in the end.
-/

namespace AgentProtocols.Shared

open Lib List

/-! ### The queue -/

/-- `MPSCQueue::Node`. -/
structure Node (T : Type*) where
  data : Option T := none
  ready : Bool := false
deriving DecidableEq

/-- `MPSCQueue`. The capacity is a power of two, so `pos & mask_` is `pos % capacity_`. -/
structure MPSCQueue (T : Type*) where
  capacity : Nat
  positive : 0 < capacity
  small : capacity < 2 ^ 64
  buffer : Nat → Node T := fun _ => {}
  head : Nat := 0
  tail : Nat := 0
  size : Nat := 0

/-- The values of `size_t`. -/
def wordSize : Nat := 2 ^ 64

namespace MPSCQueue

variable {T : Type*}

/-- The slot of a position. -/
def node (q : MPSCQueue T) (pos : Nat) : Node T := q.buffer (pos % q.capacity)

def setNode (q : MPSCQueue T) (pos : Nat) (n : Node T) : MPSCQueue T :=
  { q with buffer := fun j => if j = pos % q.capacity then n else q.buffer j }

/-- `size_.fetch_add(1)`. -/
def raise (q : MPSCQueue T) : MPSCQueue T := { q with size := (q.size + 1) % wordSize }

/-- `size_.fetch_sub(1)`. -/
def lower (q : MPSCQueue T) : MPSCQueue T :=
  { q with size := if q.size = 0 then wordSize - 1 else q.size - 1 }

def empty (q : MPSCQueue T) : Bool := q.size = 0

/-- The capacity that the constructor makes of the one it is given. -/
def nextPower (capacity power : Nat) : Nat :=
  if 0 < power ∧ power < capacity then nextPower capacity (2 * power) else power
termination_by capacity - power

def roundCapacity (minimum capacity : Nat) : Nat :=
  if capacity < minimum then minimum
  else if capacity &&& (capacity - 1) ≠ 0 then nextPower capacity minimum
  else capacity

theorem nextPower_pos {capacity power : Nat} (positive : 0 < power) :
    0 < nextPower capacity power := by
  fun_induction nextPower with
  | case1 power more ih => exact ih (by omega)
  | case2 power done => exact positive

theorem roundCapacity_pos {minimum : Nat} (positive : 0 < minimum) (capacity : Nat) :
    0 < roundCapacity minimum capacity := by
  rw [roundCapacity]
  split
  · exact positive
  · split
    · exact nextPower_pos positive
    · omega

/-- The constructor, for the smallest capacity of the SDK. -/
def new (minimum capacity : Nat) (positive : 0 < minimum)
    (small : roundCapacity minimum capacity < 2 ^ 64) : MPSCQueue T where
  capacity := roundCapacity minimum capacity
  positive := roundCapacity_pos positive capacity
  small := small

end MPSCQueue

/-! ### The calls of the producers and the consumer -/

/-- Where a call that sends a message is, between two atomic operations. -/
inductive Place where
  | sizing
  | reserving
  | waiting (pos : Nat)
  | storing (pos : Nat)
  | readying (pos : Nat)
  | counting (pos : Nat)
  | notifying (pos : Nat)
  | sent (pos : Nat)
  | refused
deriving DecidableEq

namespace Place

/-- The position that the call has reserved. -/
def pos? : Place → Option Nat
  | waiting pos | storing pos | readying pos | counting pos | notifying pos | sent pos => some pos
  | sizing | reserving | refused => none

/-- The slot is marked ready. -/
def stored : Place → Bool
  | counting _ | notifying _ | sent _ => true
  | _ => false

/-- The message is counted in `size_`. -/
def counted : Place → Bool
  | notifying _ | sent _ => true
  | _ => false

/-- The call has returned. -/
def done : Place → Bool
  | sent _ | refused => true
  | _ => false

end Place

/-- A call of `Send` (or of `DispatchRequest` or `DispatchResponse`). -/
structure Send (T : Type*) where
  producer : Nat
  message : T
  place : Place := .sizing
deriving DecidableEq

/-- What the slot of the position holds for the call. -/
def Send.node {T : Type*} (s : Send T) : Node T :=
  match s.place with
  | .readying _ => ⟨some s.message, false⟩
  | .counting _ | .notifying _ | .sent _ => ⟨some s.message, true⟩
  | _ => {}

/-- Where the consumer is in `TryPop`. -/
inductive Popping (T : Type*) where
  | outside
  | looking
  | exchanging
  | clearing (data : Option T)
  | moving (data : T)
  | lowering (data : T)
  | returned (result : Option T)
deriving DecidableEq

/-- The consumer is before or after a call of `TryPop`. -/
def Popping.between {T : Type*} : Popping T → Bool
  | outside | looking | returned _ => true
  | _ => false

/-- The queue, the calls, the eventfd and the consumer, with the `order` of the positions. -/
structure Channel (T : Type*) where
  queue : MPSCQueue T
  sends : List (Send T) := []
  eventFd : Nat := 0
  pop : Popping T := .outside
  order : List Nat := []
  popped : List T := []

namespace Channel

variable {T : Type*}

/-- A producer starts a call when its last one has returned. -/
def call (c : Channel T) (producer : Nat) (message : T) : Option (Channel T) :=
  if c.sends.all fun s => s.producer != producer || s.place.done then
    some { c with sends := c.sends ++ [{ producer := producer, message := message }] }
  else none

def setPlace (c : Channel T) (i : Nat) (s : Send T) (place : Place) : Channel T :=
  { c with sends := c.sends.set i { s with place := place } }

/-- `head_.fetch_add(1)`. -/
def reserve (c : Channel T) (i : Nat) (s : Send T) : Channel T :=
  { c.setPlace i s (.waiting c.queue.head) with
    queue := { c.queue with head := c.queue.head + 1 }
    order := c.order ++ [i] }

/-- The next atomic operation of a call: `MPSCQueue::Push` and the notification. -/
def produce (c : Channel T) (i : Nat) : Option (Channel T) :=
  match c.sends[i]? with
  | none => none
  | some s =>
    match s.place with
    | .sizing =>
      some (c.setPlace i s (if c.queue.capacity ≤ c.queue.size then .refused else .reserving))
    | .reserving => some (c.reserve i s)
    | .waiting pos =>
      if (c.queue.node pos).ready then some c else some (c.setPlace i s (.storing pos))
    | .storing pos =>
      some { c.setPlace i s (.readying pos) with
        queue := c.queue.setNode pos { c.queue.node pos with data := some s.message } }
    | .readying pos =>
      some { c.setPlace i s (.counting pos) with
        queue := c.queue.setNode pos { c.queue.node pos with ready := true } }
    | .counting pos =>
      some { c.setPlace i s (.notifying pos) with queue := c.queue.raise }
    | .notifying pos => some { c.setPlace i s (.sent pos) with eventFd := c.eventFd + 1 }
    | .sent _ | .refused => none

/-- The next atomic operation of `MPSCQueue::TryPop`. -/
def popStep (c : Channel T) : Option (Channel T) :=
  match c.pop with
  | .looking =>
    if (c.queue.node c.queue.tail).ready then some { c with pop := .exchanging }
    else some { c with pop := .returned none }
  | .exchanging =>
    some { c with
      queue := c.queue.setNode c.queue.tail { c.queue.node c.queue.tail with data := none }
      pop := .clearing (c.queue.node c.queue.tail).data }
  | .clearing data =>
    some { c with
      queue := c.queue.setNode c.queue.tail { c.queue.node c.queue.tail with ready := false }
      pop := match data with
        | none => .returned none
        | some d => .moving d }
  | .moving d =>
    some { c with queue := { c.queue with tail := c.queue.tail + 1 }, pop := .lowering d }
  | .lowering d =>
    some { c with
      queue := c.queue.lower, pop := .returned (some d), popped := c.popped ++ [d] }
  | .outside | .returned _ => none

/-- The positions whose slots have been cleared. -/
def released (c : Channel T) : Nat :=
  match c.pop with
  | .moving _ => c.queue.tail + 1
  | _ => c.queue.tail

/-- A call that waits for its slot finds it free in its turn. -/
def inTurn (c : Channel T) (i : Nat) : Bool :=
  match c.sends[i]? with
  | some ⟨_, _, .waiting pos⟩ => (c.queue.node pos).ready || pos < c.released + c.queue.capacity
  | _ => true

/-- No call is under way. -/
def quiet (c : Channel T) : Bool := c.sends.all fun s => s.place.done

/-- The call that holds a position. -/
def holder (c : Channel T) (pos : Nat) : Option (Send T) :=
  (c.order[pos]?).bind fun i => c.sends[i]?

/-- The positions whose slots the consumer has found ready. -/
def claimed (c : Channel T) : Nat :=
  match c.pop with
  | .exchanging | .clearing _ | .moving _ => c.queue.tail + 1
  | _ => c.queue.tail

/-- What the slot of a position of the current round holds. -/
def expected (c : Channel T) (pos : Nat) : Node T :=
  match c.pop with
  | .clearing _ => if pos = c.queue.tail then ⟨none, true⟩ else (c.holder pos).elim {} Send.node
  | _ => (c.holder pos).elim {} Send.node

/-- The message that the consumer has in hand. -/
def inHand (c : Channel T) : Prop :=
  match c.pop with
  | .clearing d => ∃ s, c.holder c.queue.tail = some s ∧ d = some s.message
  | .moving d => ∃ s, c.holder c.queue.tail = some s ∧ d = s.message
  | .lowering d => ∃ s, c.holder c.popped.length = some s ∧ d = s.message
  | _ => True

/-- The messages that `tail_` has passed. -/
def passed (c : Channel T) : Nat :=
  match c.pop with
  | .lowering _ => c.popped.length + 1
  | _ => c.popped.length

/-- The calls whose messages are counted in `size_`. -/
def counted (c : Channel T) : Nat := tally (fun s => s.place.counted.toNat) c.sends

/-- A call that holds a position is going to raise the eventfd. -/
def Pending (c : Channel T) : Prop :=
  ∃ (i : Nat) (s : Send T), c.sends[i]? = some s ∧ s.place.pos?.isSome = true ∧ s.place.done = false

/-- The consumer is going to be woken, or there is nothing to wake it for. -/
def Awaited (c : Channel T) : Prop :=
  c.eventFd ≠ 0 ∨ c.queue.tail = c.queue.head ∨ c.Pending

/-- A producer sends one message after the other. -/
structure Calls (sends : List (Send T)) (order : List Nat) : Prop where
  holds : ∀ p i : Nat, order[p]? = some i ↔ ∃ s, sends[i]? = some s ∧ s.place.pos? = some p
  sequential : ∀ (i j : Nat) (s s' : Send T), i < j → sends[i]? = some s → sends[j]? = some s' →
    s.producer = s'.producer → s.place.done = true
  ordered : ∀ (i j : Nat) (s s' : Send T) (p q : Nat), i < j → sends[i]? = some s →
    sends[j]? = some s' → s.producer = s'.producer → s.place.pos? = some p →
      s'.place.pos? = some q → p < q
  count : tally (fun s => s.place.pos?.isSome.toNat) sends = order.length

/-- What holds of a queue whose producers store in their turn. -/
structure Sound (c : Channel T) : Prop where
  calls : Calls c.sends c.order
  length : c.order.length = c.queue.head
  claimed : ∀ p < c.claimed, ∃ s, c.holder p = some s ∧ s.place.stored = true
  /-- only a call that waits is a round ahead -/
  ahead : ∀ (i : Nat) (s : Send T) (p : Nat), c.sends[i]? = some s → s.place.pos? = some p →
    s.place ≠ .waiting p → p < c.released + c.queue.capacity
  slot : ∀ p, c.released ≤ p → p < c.released + c.queue.capacity → c.queue.node p = c.expected p
  inHand : c.inHand
  passed : c.passed = c.queue.tail
  popped : ∀ p < c.popped.length, ∃ s, c.holder p = some s ∧ c.popped[p]? = some s.message
  bounded : c.queue.size < wordSize
  size : ∃ k : Int, (c.queue.size : Int) + c.popped.length = c.counted + k * wordSize

/-! ### The calls -/

section Calls

variable {sends : List (Send T)} {order : List Nat} {s : Send T} {i : Nat} {place : Place}

variable (calls : Calls sends order)

include calls

/-- A call that has not returned goes on without a change of its position. -/
theorem Calls.set (found : sends[i]? = some s)
    (undone : s.place.done = false) (pos : place.pos? = s.place.pos?) :
    Calls (sends.set i { s with place := place }) order := by
  have self : (sends.set i { s with place := place })[i]? = some { s with place := place } :=
    List.getElem?_set_self (List.getElem?_eq_some_iff.mp found).1
  constructor
  · intro r j
    rw [calls.holds r j]
    constructor
    · rintro ⟨t, found', at_r⟩
      by_cases same : j = i
      · subst same
        rw [found] at found'
        cases found'
        exact ⟨_, self, pos.trans at_r⟩
      · exact ⟨t, (List.getElem?_set_ne (Ne.symm same)).trans found', at_r⟩
    · rintro ⟨t, found', at_r⟩
      rcases getElem?_set_cases found' with ⟨rfl, rfl⟩ | ⟨-, old⟩
      · exact ⟨s, found, pos.symm.trans at_r⟩
      · exact ⟨t, old, at_r⟩
  · intro j k t t' before found_j found_k alike
    rcases getElem?_set_cases found_j with ⟨rfl, rfl⟩ | ⟨-, old⟩ <;>
      rcases getElem?_set_cases found_k with ⟨rfl, rfl⟩ | ⟨-, old'⟩
    · omega
    · rw [calls.sequential j k s t' before found old' alike] at undone
      cases undone
    · exact calls.sequential j k t s before old found alike
    · exact calls.sequential j k t t' before old old' alike
  · intro j k t t' a b before found_j found_k alike pos_j pos_k
    rcases getElem?_set_cases found_j with ⟨rfl, rfl⟩ | ⟨-, old⟩ <;>
      rcases getElem?_set_cases found_k with ⟨rfl, rfl⟩ | ⟨-, old'⟩
    · omega
    · exact calls.ordered j k s t' a b before found old' alike (pos.symm.trans pos_j) pos_k
    · exact calls.ordered j k t s a b before old found alike pos_j (pos.symm.trans pos_k)
    · exact calls.ordered j k t t' a b before old old' alike pos_j pos_k
  · have moved : tally (fun s => s.place.pos?.isSome.toNat) (sends.set i { s with place := place }) +
        s.place.pos?.isSome.toNat =
        tally (fun s => s.place.pos?.isSome.toNat) sends + place.pos?.isSome.toNat := tally_set found
    rw [pos, calls.count] at moved
    omega

theorem Calls.reserve (found : sends[i]? = some s) (reserving : s.place = .reserving) :
    Calls (sends.set i { s with place := .waiting order.length }) (order ++ [i]) := by
  have self : (sends.set i { s with place := .waiting order.length })[i]? =
      some { s with place := .waiting order.length } :=
    List.getElem?_set_self (List.getElem?_eq_some_iff.mp found).1
  have unplaced : ∀ r : Nat, s.place.pos? ≠ some r := by
    rw [reserving]
    simp [Place.pos?]
  have below : ∀ {j : Nat} {t : Send T} {r : Nat}, sends[j]? = some t → t.place.pos? = some r →
      r < order.length := by
    intro j t r found' at_r
    exact (List.getElem?_eq_some_iff.mp ((calls.holds r j).mpr ⟨t, found', at_r⟩)).1
  constructor
  · intro r j
    constructor
    · intro at_r
      rcases getElem?_concat_cases at_r with old | ⟨rfl, rfl⟩
      · obtain ⟨t, found', pos⟩ := (calls.holds r j).mp old
        have other : j ≠ i := by
          rintro rfl
          rw [found] at found'
          cases found'
          exact unplaced r pos
        exact ⟨t, (List.getElem?_set_ne (Ne.symm other)).trans found', pos⟩
      · exact ⟨_, self, rfl⟩
    · rintro ⟨t, found', pos⟩
      rcases getElem?_set_cases found' with ⟨rfl, rfl⟩ | ⟨-, old⟩
      · cases pos
        exact List.getElem?_concat_length
      · rw [List.getElem?_append_left (below old pos)]
        exact (calls.holds r j).mpr ⟨t, old, pos⟩
  · intro j k t t' before found_j found_k alike
    rcases getElem?_set_cases found_j with ⟨rfl, rfl⟩ | ⟨-, old⟩ <;>
      rcases getElem?_set_cases found_k with ⟨rfl, rfl⟩ | ⟨-, old'⟩
    · omega
    · have returned := calls.sequential j k s t' before found old' alike
      rw [reserving] at returned
      cases returned
    · exact calls.sequential j k t s before old found alike
    · exact calls.sequential j k t t' before old old' alike
  · intro j k t t' a b before found_j found_k alike pos_j pos_k
    rcases getElem?_set_cases found_j with ⟨rfl, rfl⟩ | ⟨-, old⟩ <;>
      rcases getElem?_set_cases found_k with ⟨rfl, rfl⟩ | ⟨-, old'⟩
    · omega
    · have returned := calls.sequential j k s t' before found old' alike
      rw [reserving] at returned
      cases returned
    · cases pos_k
      exact below old pos_j
    · exact calls.ordered j k t t' a b before old old' alike pos_j pos_k
  · have moved : tally (fun s => s.place.pos?.isSome.toNat)
        (sends.set i { s with place := .waiting order.length }) + s.place.pos?.isSome.toNat =
        tally (fun s => s.place.pos?.isSome.toNat) sends + 1 := tally_set found
    rw [reserving, calls.count] at moved
    rw [List.length_append]
    exact moved

theorem Calls.call {producer : Nat} {message : T}
    (free : ∀ s ∈ sends, s.producer = producer → s.place.done = true) :
    Calls (sends ++ [{ producer := producer, message := message }]) order := by
  constructor
  · intro r j
    rw [calls.holds r j]
    constructor
    · rintro ⟨t, found, pos⟩
      have inside := (List.getElem?_eq_some_iff.mp found).1
      exact ⟨t, (List.getElem?_append_left inside).trans found, pos⟩
    · rintro ⟨t, found, pos⟩
      rcases getElem?_concat_cases found with old | ⟨-, rfl⟩
      · exact ⟨t, old, pos⟩
      · cases pos
  · intro j k t t' before found_j found_k alike
    rcases getElem?_concat_cases found_j with old | ⟨rfl, rfl⟩
    · rcases getElem?_concat_cases found_k with old' | ⟨-, rfl⟩
      · exact calls.sequential j k t t' before old old' alike
      · exact free t (List.mem_of_getElem? old) alike
    · have inside := (List.getElem?_eq_some_iff.mp found_k).1
      rw [List.length_append, List.length_singleton] at inside
      omega
  · intro j k t t' a b before found_j found_k alike pos_j pos_k
    rcases getElem?_concat_cases found_k with old' | ⟨-, rfl⟩
    · rcases getElem?_concat_cases found_j with old | ⟨-, rfl⟩
      · exact calls.ordered j k t t' a b before old old' alike pos_j pos_k
      · cases pos_j
    · cases pos_k
  · rw [tally_concat, calls.count]
    rfl

omit calls

end Calls

section Sound

variable {c c' : Channel T} {s : Send T} {i p : Nat} {place : Place}

theorem sound_new {minimum capacity : Nat} (positive : 0 < minimum)
    (small : MPSCQueue.roundCapacity minimum capacity < 2 ^ 64) :
    ({ queue := .new minimum capacity positive small } : Channel T).Sound where
  calls := by constructor <;> simp
  length := rfl
  claimed p below := absurd below (Nat.not_lt_zero p)
  ahead i s p found := by simp at found
  slot p _ _ := rfl
  inHand := trivial
  passed := rfl
  popped p below := by simp at below
  bounded := by
    show 0 < wordSize
    decide
  size := ⟨0, by simp [MPSCQueue.new, counted]⟩

/-! ### Positions and slots -/

theorem slots_differ {n p q cap : Nat} (low : n ≤ p) (high : p < n + cap) (low' : n ≤ q)
    (high' : q < n + cap) (same : p % cap = q % cap) : p = q := by
  have divides : ∀ {a b : Nat}, a ≤ b → b < a + cap → a % cap = b % cap → a = b := by
    intro a b le lt same
    have dvd : cap ∣ b - a := (Nat.modEq_iff_dvd' le).mp same
    rcases Nat.eq_zero_or_pos (b - a) with none_ | some_
    · omega
    · have := Nat.le_of_dvd some_ dvd
      omega
  rcases Nat.le_total p q with le | le
  · exact divides le (by omega) same
  · exact (divides le (by omega) same.symm).symm

theorem node_setNode_self (q : MPSCQueue T) (p : Nat) (n : Node T) :
    (q.setNode p n).node p = n := if_pos rfl

theorem node_setNode_ne (q : MPSCQueue T) {p r : Nat} (n : Node T)
    (other : r % q.capacity ≠ p % q.capacity) : (q.setNode p n).node r = q.node r := if_neg other

variable (sound : c.Sound)

include sound

theorem Sound.holder_eq (found : c.sends[i]? = some s)
    (pos : s.place.pos? = some p) : c.holder p = some s := by
  rw [holder, (sound.calls.holds p i).mpr ⟨s, found, pos⟩]
  exact found

theorem Sound.exists_of_holder (held : c.holder p = some s) :
    ∃ i, c.order[p]? = some i ∧ c.sends[i]? = some s ∧ s.place.pos? = some p := by
  obtain ⟨i, at_p, found⟩ := Option.bind_eq_some_iff.mp held
  obtain ⟨s', found', pos⟩ := (sound.calls.holds p i).mp at_p
  rw [found] at found'
  cases found'
  exact ⟨i, at_p, found, pos⟩

theorem Sound.holder_none (beyond : c.queue.head ≤ p) : c.holder p = none := by
  rw [holder, getElem?_eq_none (sound.length ▸ beyond)]
  rfl

theorem Sound.claimed_le : c.claimed ≤ c.queue.head := by
  by_contra beyond
  obtain ⟨s, held, -⟩ := sound.claimed c.queue.head (by omega)
  rw [sound.holder_none (Nat.le_refl _)] at held
  cases held

omit sound

theorem tail_le_claimed (c : Channel T) : c.queue.tail ≤ c.claimed := by
  unfold claimed
  split <;> omega

theorem released_le_claimed (c : Channel T) : c.released ≤ c.claimed := by
  unfold released claimed
  cases c.pop <;> simp

theorem Sound.claimed_le_of_not_stored (sound : c.Sound) (held : c.holder p = some s)
    (unstored : s.place.stored = false) : c.claimed ≤ p := by
  by_contra below
  obtain ⟨s', held', stored⟩ := sound.claimed p (by omega)
  rw [held] at held'
  cases held'
  rw [unstored] at stored
  cases stored

/-! ### A producer goes on -/

/-- What a producer may do to the calls: keep their messages, their positions and
what is stored. -/
def Keeps (c c' : Channel T) : Prop :=
  ∀ r t, c.holder r = some t → ∃ t', c'.holder r = some t' ∧ t'.message = t.message ∧
    (t.place.stored = true → t'.place.stored = true)

/-- A step of a producer keeps what concerns the consumer. -/
theorem Sound.of_keeps (sound : c.Sound) (keeps : c.Keeps c') (pop : c'.pop = c.pop)
    (popped : c'.popped = c.popped) (tail : c'.queue.tail = c.queue.tail)
    (calls : Calls c'.sends c'.order) (length : c'.order.length = c'.queue.head)
    (ahead : ∀ (i : Nat) (s : Send T) (p : Nat), c'.sends[i]? = some s → s.place.pos? = some p →
      s.place ≠ .waiting p → p < c.released + c'.queue.capacity)
    (slot : ∀ p, c.released ≤ p → p < c.released + c'.queue.capacity →
      c'.queue.node p = c'.expected p)
    (bounded : c'.queue.size < wordSize)
    (size : ∃ k : Int, (c'.queue.size : Int) + c.popped.length = c'.counted + k * wordSize) :
    c'.Sound := by
  have released_ : c'.released = c.released := by simp only [released, pop, tail]
  refine ⟨calls, length, ?_, released_ ▸ ahead, released_ ▸ slot, ?_, ?_, ?_, bounded, popped ▸ size⟩
  · intro p below
    have claimed_ : c'.claimed = c.claimed := by simp only [Channel.claimed, pop, tail]
    obtain ⟨t, held, stored⟩ := sound.claimed p (claimed_ ▸ below)
    obtain ⟨t', held', -, kept⟩ := keeps p t held
    exact ⟨t', held', kept stored⟩
  · have before := sound.inHand
    simp only [Channel.inHand, pop, tail, popped] at before ⊢
    cases at_pop : c.pop with
    | clearing d =>
      rw [at_pop] at before
      obtain ⟨t, held, rfl⟩ := before
      obtain ⟨t', held', same, -⟩ := keeps _ t held
      exact ⟨t', held', congrArg some same.symm⟩
    | moving d =>
      rw [at_pop] at before
      obtain ⟨t, held, rfl⟩ := before
      obtain ⟨t', held', same, -⟩ := keeps _ t held
      exact ⟨t', held', same.symm⟩
    | lowering d =>
      rw [at_pop] at before
      obtain ⟨t, held, rfl⟩ := before
      obtain ⟨t', held', same, -⟩ := keeps _ t held
      exact ⟨t', held', same.symm⟩
    | _ => trivial
  · have before := sound.passed
    simp only [Channel.passed, pop, tail, popped] at before ⊢
    exact before
  · intro p below
    rw [popped] at below ⊢
    obtain ⟨t, held, at_p⟩ := sound.popped p below
    obtain ⟨t', held', same, -⟩ := keeps p t held
    exact ⟨t', held', at_p.trans (congrArg some same.symm)⟩

theorem setPlace_self (found : c.sends[i]? = some s) :
    (c.setPlace i s place).sends[i]? = some { s with place := place } :=
  List.getElem?_set_self (List.getElem?_eq_some_iff.mp found).1

/-- Who holds a position when a call goes on that keeps its own. -/
theorem Sound.holder_setPlace (sound : c.Sound) (found : c.sends[i]? = some s) (r : Nat) :
    (c.setPlace i s place).holder r =
      if s.place.pos? = some r then some { s with place := place } else c.holder r := by
  show (c.order[r]?).bind _ = _
  split
  · rename_i pos
    rw [(sound.calls.holds r i).mpr ⟨s, found, pos⟩]
    exact setPlace_self found
  · rename_i other
    rw [holder]
    cases at_r : c.order[r]? with
    | none => rfl
    | some j =>
      have ne : j ≠ i := by
        rintro rfl
        obtain ⟨t, found', pos⟩ := (sound.calls.holds r j).mp at_r
        rw [found] at found'
        cases found'
        exact other pos
      exact getElem?_set_ne (Ne.symm ne)

theorem Sound.keeps_setPlace (sound : c.Sound) (found : c.sends[i]? = some s)
    (stored : s.place.stored = true → place.stored = true) :
    c.Keeps (c.setPlace i s place) := by
  intro r t held
  rw [sound.holder_setPlace found]
  split
  · rename_i pos
    rw [sound.holder_eq found pos] at held
    cases held
    exact ⟨_, rfl, rfl, stored⟩
  · exact ⟨t, held, rfl, id⟩

theorem counted_setPlace (place : Place) (found : c.sends[i]? = some s) :
    (c.setPlace i s place).counted + s.place.counted.toNat = c.counted + place.counted.toNat :=
  tally_set found

theorem Sound.size_setPlace (sound : c.Sound) (found : c.sends[i]? = some s)
    (counted : place.counted = s.place.counted) :
    ∃ k : Int, (c.queue.size : Int) + c.popped.length =
      (c.setPlace i s place).counted + k * wordSize := by
  obtain ⟨k, size⟩ := sound.size
  have count := counted_setPlace place found
  rw [counted] at count
  have same : (c.setPlace i s place).counted = c.counted := by omega
  exact ⟨k, same.symm ▸ size⟩

theorem Sound.size_raise (sound : c.Sound) (found : c.sends[i]? = some s)
    (uncounted : s.place.counted = false) (counted : place.counted = true) :
    ∃ k : Int, ((c.queue.raise.size : Nat) : Int) + c.popped.length =
      (c.setPlace i s place).counted + k * wordSize := by
  obtain ⟨k, size⟩ := sound.size
  have count := counted_setPlace place found
  rw [counted, uncounted] at count
  have one : (c.setPlace i s place).counted = c.counted + 1 := count
  have raised : ((c.queue.raise.size : Nat) : Int) = (c.queue.size + 1) % 2 ^ 64 := rfl
  have word : (wordSize : Int) = 2 ^ 64 := rfl
  refine ⟨k - (c.queue.size + 1) / 2 ^ 64, ?_⟩
  rw [word] at size ⊢
  omega

theorem expected_congr (c c' : Channel T) {r : Nat} (pop : c'.pop = c.pop)
    (tail : c'.queue.tail = c.queue.tail)
    (same : (c'.holder r).elim {} Send.node = (c.holder r).elim {} Send.node) :
    c.expected r = c'.expected r := by
  simp only [expected, pop, tail, same]

theorem expected_of_claimed_le (beyond : c.claimed ≤ p) :
    c.expected p = (c.holder p).elim {} Send.node := by
  rw [expected]
  split
  · rename_i at_pop
    have other : p ≠ c.queue.tail := by
      rw [Channel.claimed, at_pop] at beyond
      dsimp only at beyond
      omega
    rw [if_neg other]
  · rfl

include sound

theorem Sound.setPlace_unplaced (found : c.sends[i]? = some s)
    (unplaced : s.place.pos? = none) (unplaced' : place.pos? = none)
    (undone : s.place.done = false) (uncounted : place.counted = s.place.counted)
    (unstored : s.place.stored = false) : (c.setPlace i s place).Sound := by
  have held : ∀ r, (c.setPlace i s place).holder r = c.holder r := by
    intro r
    rw [sound.holder_setPlace found, unplaced, if_neg (by simp)]
  refine sound.of_keeps (sound.keeps_setPlace found ?_) rfl rfl rfl
    (sound.calls.set found undone (unplaced'.trans unplaced.symm)) sound.length ?_ ?_ sound.bounded ?_
  · intro stored
    rw [unstored] at stored
    cases stored
  · intro j t r found' pos moved
    rcases getElem?_set_cases found' with ⟨rfl, rfl⟩ | ⟨-, old⟩
    · rw [show place.pos? = some r from pos] at unplaced'
      cases unplaced'
    · exact sound.ahead j t r old pos moved
  · intro r low high
    exact (sound.slot r low high).trans (expected_congr c _ rfl rfl (by rw [held r]))
  · exact sound.size_setPlace found uncounted

theorem Sound.holder_reserve (found : c.sends[i]? = some s)
    (reserving : s.place = .reserving) (r : Nat) : (c.reserve i s).holder r =
      if r = c.queue.head then some { s with place := .waiting c.queue.head } else c.holder r := by
  show ((c.order ++ [i])[r]?).bind _ = _
  split
  · rename_i new
    rw [new, ← sound.length, getElem?_concat_length, sound.length]
    exact setPlace_self found
  · rename_i other
    have old : (c.setPlace i s (.waiting c.queue.head)).holder r = c.holder r := by
      rw [sound.holder_setPlace found, reserving, if_neg (by simp [Place.pos?])]
    have same : (c.order ++ [i])[r]? = c.order[r]? := by
      rcases Nat.lt_or_gt_of_ne (sound.length ▸ other) with below | beyond
      · exact getElem?_append_left below
      · rw [getElem?_eq_none, getElem?_eq_none (by omega)]
        rw [length_append, length_singleton]
        omega
    rw [same]
    exact old

/-- A call reserves the next position. -/
theorem Sound.reserve (found : c.sends[i]? = some s)
    (reserving : s.place = .reserving) : (c.reserve i s).Sound := by
  have held := sound.holder_reserve found reserving
  have calls := sound.calls.reserve found reserving
  rw [sound.length] at calls
  refine sound.of_keeps ?_ rfl rfl rfl calls ?_ ?_ ?_ sound.bounded ?_
  · intro r t old
    have other : r ≠ c.queue.head := by
      rintro rfl
      rw [sound.holder_none (Nat.le_refl _)] at old
      cases old
    exact ⟨t, by rw [held, if_neg other, old], rfl, id⟩
  · show (c.order ++ [i]).length = c.queue.head + 1
    rw [length_append, length_singleton, sound.length]
  · intro j t r found' pos moved
    rcases getElem?_set_cases found' with ⟨rfl, rfl⟩ | ⟨-, old⟩
    · cases pos
      exact absurd rfl moved
    · exact sound.ahead j t r old pos moved
  · intro r low high
    refine (sound.slot r low high).trans (expected_congr c (c.reserve i s) rfl rfl ?_)
    rw [held]
    split
    · -- the new position: its slot is free in either view
      rename_i new
      rw [new, sound.holder_none (Nat.le_refl _)]
      rfl
    · rfl
  · exact sound.size_setPlace found (by rw [reserving]; rfl)

omit sound

/-- A call that holds a position goes on, and changes at most the slot of its
position. -/
theorem Sound.move (place : Place) (q : MPSCQueue T) (n : Nat) (sound : c.Sound)
    (found : c.sends[i]? = some s) (pos : s.place.pos? = some p)
    (pos' : place.pos? = some p) (stored : s.place.stored = true → place.stored = true)
    (inside : p < c.released + c.queue.capacity) (undone : s.place.done = false)
    (head : q.head = c.queue.head) (tail : q.tail = c.queue.tail)
    (capacity : q.capacity = c.queue.capacity)
    (slot : ∀ r, c.released ≤ r → r < c.released + c.queue.capacity →
      q.node r = ({ c.setPlace i s place with queue := q } : Channel T).expected r)
    (bounded : q.size < wordSize)
    (size : ∃ k : Int, (q.size : Int) + c.popped.length =
      (c.setPlace i s place).counted + k * wordSize) :
    ({ c.setPlace i s place with queue := q, eventFd := n } : Channel T).Sound := by
  refine sound.of_keeps (sound.keeps_setPlace found stored) rfl rfl tail
    (sound.calls.set found undone (pos'.trans pos.symm)) (sound.length.trans head.symm) ?_ ?_
    bounded size
  · intro j t r found' pos_t moved
    rw [show ({ c.setPlace i s place with queue := q, eventFd := n } : Channel T).queue.capacity =
      c.queue.capacity from capacity]
    rcases getElem?_set_cases found' with ⟨rfl, rfl⟩ | ⟨-, old⟩
    · rw [pos'] at pos_t
      cases pos_t
      exact inside
    · exact sound.ahead j t r old pos_t moved
  · intro r low high
    exact slot r low (capacity ▸ high)

theorem Sound.move_same (place : Place) (size n : Nat) (sound : c.Sound) (found : c.sends[i]? = some s)
    (pos : s.place.pos? = some p) (pos' : place.pos? = some p)
    (stored : s.place.stored = true → place.stored = true)
    (inside : p < c.released + c.queue.capacity) (undone : s.place.done = false)
    (same : ({ s with place := place } : Send T).node = s.node)
    (bounded : size < wordSize)
    (sized : ∃ k : Int, (size : Int) + c.popped.length =
      (c.setPlace i s place).counted + k * wordSize) :
    ({ c.setPlace i s place with queue := { c.queue with size := size }, eventFd := n } :
      Channel T).Sound := by
  refine Sound.move place { c.queue with size := size } n sound found pos pos' stored inside undone rfl rfl
    rfl ?_ bounded sized
  intro r low high
  refine (sound.slot r low high).trans (expected_congr c _ rfl rfl ?_)
  show ((c.setPlace i s place).holder r).elim {} Send.node = _
  rw [sound.holder_setPlace found]
  split
  · rename_i at_r
    rw [sound.holder_eq found at_r]
    exact same
  · rfl

theorem Sound.move_slot (place : Place) (sound : c.Sound) (found : c.sends[i]? = some s)
    (pos : s.place.pos? = some p) (pos' : place.pos? = some p) (unstored : s.place.stored = false)
    (uncounted : place.counted = s.place.counted)
    (inside : p < c.released + c.queue.capacity) (undone : s.place.done = false) :
    ({ c.setPlace i s place with
      queue := c.queue.setNode p ({ s with place := place } : Send T).node } : Channel T).Sound := by
  have held := sound.holder_eq found pos
  have beyond := sound.claimed_le_of_not_stored held unstored
  have low_p : c.released ≤ p := Nat.le_trans (released_le_claimed c) beyond
  refine Sound.move place (c.queue.setNode p ({ s with place := place } : Send T).node) c.eventFd
    sound found pos pos' ?_ inside undone rfl rfl rfl ?_ sound.bounded ?_
  · intro stored
    rw [unstored] at stored
    cases stored
  · intro r low high
    by_cases here : r = p
    · subst here
      rw [node_setNode_self]
      refine Eq.trans ?_ (Eq.symm (expected_of_claimed_le ?_))
      · show _ = ((c.setPlace i s place).holder r).elim {} Send.node
        rw [sound.holder_setPlace found, if_pos pos]
        rfl
      · exact beyond
    · rw [node_setNode_ne _ _ fun slots => here (slots_differ low high low_p inside slots)]
      refine (sound.slot r low high).trans (expected_congr c _ rfl rfl ?_)
      show ((c.setPlace i s place).holder r).elim {} Send.node = _
      rw [sound.holder_setPlace found, pos, if_neg fun same => here (Option.some.inj same).symm]
  · exact sound.size_setPlace found uncounted

theorem Sound.node_eq (sound : c.Sound) (found : c.sends[i]? = some s)
    (pos : s.place.pos? = some p) (unstored : s.place.stored = false)
    (inside : p < c.released + c.queue.capacity) : c.queue.node p = s.node := by
  have held := sound.holder_eq found pos
  have beyond := sound.claimed_le_of_not_stored held unstored
  rw [sound.slot p (Nat.le_trans (released_le_claimed c) beyond) inside,
    expected_of_claimed_le beyond, held]
  rfl

/-- Every atomic operation of a call that stores in its turn keeps the invariant. -/
theorem Sound.produce (sound : c.Sound) (turn : c.inTurn i = true)
    (stepped : c.produce i = some c') : c'.Sound := by
  cases found : c.sends[i]? with
  | none =>
    simp only [Channel.produce, found] at stepped
    cases stepped
  | some s =>
    obtain ⟨producer, message, place⟩ := s
    simp only [Channel.produce, found] at stepped
    cases place with
    | sizing =>
      cases stepped
      split
      · exact sound.setPlace_unplaced found rfl rfl rfl rfl rfl
      · exact sound.setPlace_unplaced found rfl rfl rfl rfl rfl
    | reserving =>
      cases stepped
      exact sound.reserve found rfl
    | waiting pos =>
      simp only [inTurn, found] at turn
      dsimp only at stepped
      split at stepped
      · cases stepped
        exact sound
      · rename_i free
        cases stepped
        have inside : pos < c.released + c.queue.capacity := by
          simpa [free] using turn
        exact Sound.move_same (.storing pos) c.queue.size c.eventFd sound found rfl rfl id inside
          rfl rfl sound.bounded (sound.size_setPlace found rfl)
    | storing pos =>
      cases stepped
      have inside := sound.ahead i _ pos found rfl (by simp)
      have node := sound.node_eq found rfl rfl inside
      rw [node]
      exact Sound.move_slot (.readying pos) sound found rfl rfl rfl rfl inside rfl
    | readying pos =>
      cases stepped
      have inside := sound.ahead i _ pos found rfl (by simp)
      have node := sound.node_eq found rfl rfl inside
      rw [node]
      exact Sound.move_slot (.counting pos) sound found rfl rfl rfl rfl inside rfl
    | counting pos =>
      cases stepped
      have inside := sound.ahead i _ pos found rfl (by simp)
      exact Sound.move_same (.notifying pos) c.queue.raise.size c.eventFd sound found rfl rfl
        (fun _ => rfl) inside rfl rfl (Nat.mod_lt _ (by decide))
        (sound.size_raise found rfl rfl)
    | notifying pos =>
      cases stepped
      have inside := sound.ahead i _ pos found rfl (by simp)
      exact Sound.move_same (.sent pos) c.queue.size (c.eventFd + 1) sound found rfl rfl
        (fun _ => rfl) inside rfl rfl sound.bounded (sound.size_setPlace found rfl)
    | sent pos => cases stepped
    | refused => cases stepped

variable {producer : Nat} {d message : T}

include sound

theorem Sound.call (called : c.call producer message = some c') : c'.Sound := by
  rw [Channel.call] at called
  split at called
  · rename_i free
    cases called
    have free' : ∀ s ∈ c.sends, s.producer = producer → s.place.done = true := by
      intro s mem same
      have either := List.all_eq_true.mp free s mem
      simpa [same] using either
    have held : ∀ r, ({ c with
        sends := c.sends ++ [{ producer := producer, message := message }] } : Channel T).holder r =
          c.holder r := by
      intro r
      rw [holder, holder]
      cases at_r : c.order[r]? with
      | none => rfl
      | some j =>
        obtain ⟨t, found, -⟩ := (sound.calls.holds r j).mp at_r
        exact List.getElem?_append_left (List.getElem?_eq_some_iff.mp found).1
    refine sound.of_keeps ?_ rfl rfl rfl (sound.calls.call free') sound.length ?_ ?_ sound.bounded ?_
    · exact fun r t old => ⟨t, (held r).trans old, rfl, id⟩
    · intro j t r found pos moved
      rcases getElem?_concat_cases found with old | ⟨-, rfl⟩
      · exact sound.ahead j t r old pos moved
      · cases pos
    · intro r low high
      exact (sound.slot r low high).trans (expected_congr c _ rfl rfl (by rw [held r]))
    · obtain ⟨k, size⟩ := sound.size
      refine ⟨k, ?_⟩
      rw [counted, tally_concat]
      exact size
  · cases called

/-! ### The consumer goes on -/

theorem Sound.stored_of_ready (low : c.released ≤ p)
    (high : p < c.released + c.queue.capacity) (outside : ∀ d, c.pop ≠ .clearing d)
    (ready : (c.queue.node p).ready = true) :
    ∃ s, c.holder p = some s ∧ s.place.stored = true ∧ c.queue.node p = ⟨some s.message, true⟩ := by
  have plain : c.expected p = (c.holder p).elim {} Send.node := by
    rw [expected]
    split
    · rename_i d at_pop
      exact absurd at_pop (outside d)
    · rfl
  rw [sound.slot p low high, plain] at ready ⊢
  cases held : c.holder p with
  | none =>
    rw [held] at ready
    cases ready
  | some s =>
    rw [held] at ready
    obtain ⟨producer, message, place⟩ := s
    cases place <;> first | exact ⟨_, rfl, rfl, rfl⟩ | cases ready

theorem Sound.looking (at_pop : c.pop = .looking)
    (ready : (c.queue.node c.queue.tail).ready = true) :
    ({ c with pop := .exchanging } : Channel T).Sound := by
  have released_ : c.released = c.queue.tail := by rw [released, at_pop]
  have ahead := sound.ahead
  rw [released_] at ahead
  have passed_ := sound.passed
  rw [Channel.passed, at_pop] at passed_
  have claimed_ : c.claimed = c.queue.tail := by rw [Channel.claimed, at_pop]
  have positive := c.queue.positive
  obtain ⟨s, held, stored, -⟩ := sound.stored_of_ready (Nat.le_of_eq released_) (by omega)
    (fun d same => by rw [at_pop] at same; cases same) ready
  refine ⟨sound.calls, sound.length, ?_, ?_, ?_, trivial, ?_, sound.popped, sound.bounded, sound.size⟩
  · intro p below
    rcases Nat.lt_or_eq_of_le (Nat.le_of_lt_succ below) with lower | here
    · exact sound.claimed p (claimed_.symm ▸ lower)
    · subst here
      exact ⟨s, held, stored⟩
  · exact ahead
  · intro p low high
    have slot := sound.slot p (released_.symm ▸ low) (released_.symm ▸ high)
    rw [slot, expected, at_pop]
    rfl
  · exact passed_

theorem Sound.repop (before : c.pop.between = true) {pop : Popping T}
    (after : pop.between = true) (n : Nat) :
    ({ c with pop := pop, eventFd := n } : Channel T).Sound := by
  have released_ : c.released = c.queue.tail := by
    unfold released
    split
    · rename_i at_pop
      rw [at_pop] at before
      cases before
    · rfl
  have expected_ : ∀ p, c.expected p = (c.holder p).elim {} Send.node := by
    intro p
    unfold expected
    split
    · rename_i at_pop
      rw [at_pop] at before
      cases before
    · rfl
  have passed_ : c.popped.length = c.queue.tail := by
    rw [← sound.passed]
    unfold Channel.passed
    split
    · rename_i at_pop
      rw [at_pop] at before
      cases before
    · rfl
  have ahead := sound.ahead
  have slot := sound.slot
  rw [released_] at ahead slot
  simp only [expected_] at slot
  have claimed : ∀ p < c.queue.tail, ∃ s, c.holder p = some s ∧ s.place.stored = true :=
    fun p below => sound.claimed p (Nat.lt_of_lt_of_le below (tail_le_claimed c))
  cases pop <;> first
    | exact ⟨sound.calls, sound.length, claimed, ahead, slot, trivial, passed_, sound.popped,
        sound.bounded, sound.size⟩
    | cases after

theorem Sound.exchanging (at_pop : c.pop = .exchanging) : ({ c with
      queue := c.queue.setNode c.queue.tail { c.queue.node c.queue.tail with data := none }
      pop := .clearing (c.queue.node c.queue.tail).data } : Channel T).Sound := by
  have released_ : c.released = c.queue.tail := by rw [released, at_pop]
  have ahead := sound.ahead
  rw [released_] at ahead
  have passed_ := sound.passed
  rw [Channel.passed, at_pop] at passed_
  have claimed_ : c.claimed = c.queue.tail + 1 := by rw [Channel.claimed, at_pop]
  have positive := c.queue.positive
  obtain ⟨s, held, stored⟩ := sound.claimed c.queue.tail (by omega)
  have node : c.queue.node c.queue.tail = ⟨some s.message, true⟩ := by
    rw [sound.slot c.queue.tail (by omega) (by omega), expected, at_pop]
    rw [held]
    obtain ⟨producer, message, place⟩ := s
    cases place <;> first | rfl | cases stored
  refine ⟨sound.calls, sound.length, ?_, ?_, ?_, ?_, ?_, sound.popped, sound.bounded, sound.size⟩
  · exact fun p below => sound.claimed p (claimed_.symm ▸ below)
  · exact ahead
  · intro p low high
    have low : c.queue.tail ≤ p := low
    have high : p < c.queue.tail + c.queue.capacity := high
    by_cases here : p = c.queue.tail
    · subst here
      rw [node_setNode_self, node]
      exact (if_pos rfl).symm
    · rw [node_setNode_ne _ _ fun slots =>
        here (slots_differ low high (Nat.le_refl _) (by omega) slots)]
      have slot := sound.slot p (released_.symm ▸ low) (released_.symm ▸ high)
      rw [slot, expected, at_pop]
      exact (if_neg here).symm
  · exact ⟨s, held, by rw [node]⟩
  · exact passed_

theorem Sound.clearing (at_pop : c.pop = .clearing (some d)) : ({ c with
      queue := c.queue.setNode c.queue.tail { c.queue.node c.queue.tail with ready := false }
      pop := .moving d } : Channel T).Sound := by
  have released_ : c.released = c.queue.tail := by rw [released, at_pop]
  have passed_ := sound.passed
  rw [Channel.passed, at_pop] at passed_
  have claimed_ : c.claimed = c.queue.tail + 1 := by rw [Channel.claimed, at_pop]
  have positive := c.queue.positive
  have node : c.queue.node c.queue.tail = ⟨none, true⟩ := by
    rw [sound.slot c.queue.tail (by omega) (by omega), expected, at_pop]
    exact if_pos rfl
  have hand := sound.inHand
  rw [Channel.inHand, at_pop] at hand
  obtain ⟨s, held, same⟩ := hand
  cases same
  refine ⟨sound.calls, sound.length, ?_, ?_, ?_, ⟨s, held, rfl⟩, ?_, sound.popped, sound.bounded,
    sound.size⟩
  · exact fun p below => sound.claimed p (claimed_.symm ▸ below)
  · intro i t p found pos moved
    have before := sound.ahead i t p found pos moved
    show p < c.queue.tail + 1 + c.queue.capacity
    omega
  · intro p low high
    have low : c.queue.tail + 1 ≤ p := low
    have high : p < c.queue.tail + 1 + c.queue.capacity := high
    rcases Nat.lt_or_ge p (c.queue.tail + c.queue.capacity) with inside | last
    · have other : p ≠ c.queue.tail := by omega
      rw [node_setNode_ne _ _ fun slots =>
        other (slots_differ (by omega) inside (Nat.le_refl _) (by omega) slots)]
      rw [sound.slot p (by omega) (by omega), expected, at_pop]
      exact if_neg other
    · -- the slot that has been cleared is the last one of the next round
      have here : p = c.queue.tail + c.queue.capacity := by omega
      have slots : p % c.queue.capacity = c.queue.tail % c.queue.capacity := by
        rw [here, Nat.add_mod_right]
      have free : ({ c with
          queue := c.queue.setNode c.queue.tail { c.queue.node c.queue.tail with ready := false }
          pop := .moving s.message } : Channel T).queue.node p = {} := by
        show (c.queue.setNode c.queue.tail _).node p = {}
        rw [MPSCQueue.node, MPSCQueue.setNode]
        dsimp only
        rw [if_pos slots, node]
      rw [free]
      show {} = (c.holder p).elim {} Send.node
      cases holds : c.holder p with
      | none => rfl
      | some t =>
        obtain ⟨i, -, found, pos⟩ := sound.exists_of_holder holds
        have waits : t.place = .waiting p := by
          by_contra moved
          have := sound.ahead i t p found pos moved
          omega
        rw [Option.elim_some, Send.node, waits]
  · exact passed_

theorem Sound.moving (at_pop : c.pop = .moving d) :
    ({ c with queue := { c.queue with tail := c.queue.tail + 1 }, pop := .lowering d } :
      Channel T).Sound := by
  have released_ : c.released = c.queue.tail + 1 := by rw [released, at_pop]
  have ahead := sound.ahead
  rw [released_] at ahead
  have passed_ := sound.passed
  rw [Channel.passed, at_pop] at passed_
  have claimed_ : c.claimed = c.queue.tail + 1 := by rw [Channel.claimed, at_pop]
  have hand := sound.inHand
  rw [Channel.inHand, at_pop] at hand
  obtain ⟨s, held, same⟩ := hand
  refine ⟨sound.calls, sound.length, ?_, ?_, ?_, ?_, ?_, sound.popped, sound.bounded, sound.size⟩
  · exact fun p below => sound.claimed p (claimed_.symm ▸ below)
  · exact ahead
  · intro p low high
    have slot := sound.slot p (released_.symm ▸ low) (released_.symm ▸ high)
    rw [expected, at_pop] at slot
    exact slot
  · exact ⟨s, passed_.symm ▸ held, same⟩
  · exact congrArg (· + 1) passed_

theorem Sound.size_lower : c.queue.lower.size < wordSize ∧
    ∃ k : Int, ((c.queue.lower.size : Nat) : Int) + ((c.popped ++ [d]).length : Nat) =
      c.counted + k * wordSize := by
  obtain ⟨k, size⟩ := sound.size
  have bounded := sound.bounded
  have word : wordSize = 2 ^ 64 := rfl
  rw [length_append, length_singleton, MPSCQueue.lower]
  rw [word] at bounded size ⊢
  dsimp only
  split
  · rename_i zero
    refine ⟨by omega, k + 1, ?_⟩
    omega
  · refine ⟨by omega, k, ?_⟩
    omega

theorem Sound.lowering (at_pop : c.pop = .lowering d) :
    ({ c with queue := c.queue.lower, pop := .returned (some d), popped := c.popped ++ [d] } :
      Channel T).Sound := by
  have released_ : c.released = c.queue.tail := by rw [released, at_pop]
  have ahead := sound.ahead
  rw [released_] at ahead
  have passed_ := sound.passed
  rw [Channel.passed, at_pop] at passed_
  have hand := sound.inHand
  rw [Channel.inHand, at_pop] at hand
  obtain ⟨s, held, same⟩ := hand
  obtain ⟨bounded, size⟩ := sound.size_lower (d := d)
  refine ⟨sound.calls, sound.length, ?_, ahead, ?_, trivial, ?_, ?_, bounded, size⟩
  · intro p below
    exact sound.claimed p (by rw [Channel.claimed, at_pop]; exact below)
  · intro p low high
    have slot := sound.slot p (released_.symm ▸ low) (released_.symm ▸ high)
    rw [expected, at_pop] at slot
    exact slot
  · show (c.popped ++ [d]).length = c.queue.tail
    rw [length_append]
    exact passed_
  · intro p below
    show ∃ s, c.holder p = some s ∧ (c.popped ++ [d])[p]? = some s.message
    rw [length_append, length_singleton] at below
    rcases Nat.lt_or_eq_of_le (Nat.le_of_lt_succ below) with old | new
    · obtain ⟨t, holds, at_p⟩ := sound.popped p old
      exact ⟨t, holds, (getElem?_append_left old).trans at_p⟩
    · subst new
      exact ⟨s, held, by rw [getElem?_concat_length, same]⟩

omit sound

/-- The atomic operations of `TryPop`. -/
inductive Tried (c : Channel T) : Channel T → Prop where
  | unready : c.pop = .looking → (c.queue.node c.queue.tail).ready = false →
      Tried c { c with pop := .returned none }
  | ready : c.pop = .looking → (c.queue.node c.queue.tail).ready = true →
      Tried c { c with pop := .exchanging }
  | exchange : c.pop = .exchanging → Tried c { c with
      queue := c.queue.setNode c.queue.tail { c.queue.node c.queue.tail with data := none }
      pop := .clearing (c.queue.node c.queue.tail).data }
  | clear {d : T} : c.pop = .clearing (some d) → Tried c { c with
      queue := c.queue.setNode c.queue.tail { c.queue.node c.queue.tail with ready := false }
      pop := .moving d }
  | move {d : T} : c.pop = .moving d → Tried c { c with
      queue := { c.queue with tail := c.queue.tail + 1 }, pop := .lowering d }
  | lower {d : T} : c.pop = .lowering d → Tried c { c with
      queue := c.queue.lower, pop := .returned (some d), popped := c.popped ++ [d] }

include sound

theorem Sound.tried (stepped : c.popStep = some c') : c.Tried c' := by
  have hand := sound.inHand
  rw [popStep] at stepped
  rw [Channel.inHand] at hand
  cases at_pop : c.pop with
  | looking =>
    rw [at_pop] at stepped
    dsimp only at stepped
    split at stepped
    · rename_i ready
      cases stepped
      exact .ready at_pop ready
    · rename_i unready
      cases stepped
      exact .unready at_pop (Bool.eq_false_iff.mpr unready)
  | clearing data =>
    rw [at_pop] at stepped hand
    obtain ⟨s, -, rfl⟩ := hand
    cases stepped
    exact .clear at_pop
  | _ =>
    rw [at_pop] at stepped
    cases stepped <;> first | exact .exchange at_pop | exact .move at_pop | exact .lower at_pop

theorem Sound.pop (stepped : c.popStep = some c') : c'.Sound := by
  cases sound.tried stepped with
  | unready at_pop _ => exact sound.repop (by rw [at_pop]; rfl) rfl c.eventFd
  | ready at_pop ready => exact sound.looking at_pop ready
  | exchange at_pop => exact sound.exchanging at_pop
  | clear at_pop => exact sound.clearing at_pop
  | move at_pop => exact sound.moving at_pop
  | lower at_pop => exact sound.lowering at_pop

/-! ### What the invariant says -/

/-- `TryPop` finds nothing where nothing is marked. -/
theorem Sound.looking_false (at_pop : c.pop = .looking)
    (unready : (c.queue.node c.queue.tail).ready = false) :
    c.queue.tail = c.queue.head ∨ ∃ (i : Nat) (s : Send T), c.sends[i]? = some s ∧
      s.place.pos? = some c.queue.tail ∧ s.place.stored = false := by
  have released_ : c.released = c.queue.tail := by rw [released, at_pop]
  have positive := c.queue.positive
  rw [sound.slot c.queue.tail (by omega) (by omega), expected, at_pop] at unready
  cases held : c.holder c.queue.tail with
  | none =>
    left
    have at_least : c.queue.head ≤ c.queue.tail := by
      by_contra below
      have inside : c.queue.tail < c.order.length := by
        rw [sound.length]
        omega
      obtain ⟨s, found, -⟩ := (sound.calls.holds _ _).mp (getElem?_eq_getElem inside)
      rw [holder, getElem?_eq_getElem inside] at held
      rw [show (some c.order[c.queue.tail]).bind (fun i => c.sends[i]?) = some s from found] at held
      cases held
    have at_most := Nat.le_trans (tail_le_claimed c) sound.claimed_le
    omega
  | some s =>
    obtain ⟨i, -, found, pos⟩ := sound.exists_of_holder held
    refine .inr ⟨i, s, found, pos, ?_⟩
    rw [held] at unready
    obtain ⟨producer, message, place⟩ := s
    cases place <;> first | rfl | cases unready

theorem Sound.awaited_of_looking (at_pop : c.pop = .looking)
    (unready : (c.queue.node c.queue.tail).ready = false) :
    c.queue.tail = c.queue.head ∨ c.Pending := by
  rcases sound.looking_false at_pop unready with none_ | ⟨i, s, found, pos, unstored⟩
  · exact .inl none_
  · refine .inr ⟨i, s, found, by rw [pos]; rfl, ?_⟩
    obtain ⟨producer, message, place⟩ := s
    cases place <;> first | rfl | (cases pos; done) | cases unstored

theorem Sound.counted_of_settled (settled : ¬ c.Pending) : c.counted = c.queue.head := by
  rw [← sound.length, ← sound.calls.count, counted, tally]
  congr 1
  refine map_congr_left fun s mem => ?_
  obtain ⟨i, found⟩ := getElem?_of_mem mem
  obtain ⟨producer, message, place⟩ := s
  cases place <;> first | rfl | exact absurd ⟨i, _, found, rfl, rfl⟩ settled

theorem Sound.head_le_of_settled (settled : ¬ c.Pending) :
    c.queue.head ≤ c.released + c.queue.capacity := by
  rcases Nat.eq_zero_or_pos c.queue.head with zero | some_
  · omega
  · have inside : c.queue.head - 1 < c.order.length := by
      rw [sound.length]
      omega
    obtain ⟨s, found, pos⟩ := (sound.calls.holds _ _).mp (getElem?_eq_getElem inside)
    have moved : s.place ≠ .waiting (c.queue.head - 1) := by
      intro waits
      exact settled ⟨_, s, found, by rw [waits]; rfl, by rw [waits]; rfl⟩
    have := sound.ahead _ s _ found pos moved
    omega

theorem Sound.size_of_settled (settled : ¬ c.Pending)
    (outside : c.pop = .outside) : c.queue.size + c.queue.tail = c.queue.head := by
  obtain ⟨k, size⟩ := sound.size
  have passed_ := sound.passed
  rw [Channel.passed, outside] at passed_
  have long := sound.head_le_of_settled settled
  rw [released, outside] at long
  have small := c.queue.small
  have bounded := sound.bounded
  have at_most := Nat.le_trans (tail_le_claimed c) sound.claimed_le
  rw [sound.counted_of_settled settled] at size
  have word : wordSize = 2 ^ 64 := rfl
  rw [word] at bounded size
  dsimp only at passed_ long
  omega

omit sound

/-! ### The messages in the order of their positions -/

/-- The messages of the calls in the order of their positions. -/
def messages (c : Channel T) : List T :=
  c.order.filterMap fun i => (c.sends[i]?).map Send.message

include sound

theorem Sound.getElem?_messages (p : Nat) : c.messages[p]? = (c.holder p).map Send.message := by
  have all : ∀ i ∈ c.order, ∃ s, c.sends[i]? = some s := by
    intro i mem
    obtain ⟨p, at_p⟩ := getElem?_of_mem mem
    obtain ⟨s, found, -⟩ := (sound.calls.holds p i).mp at_p
    exact ⟨s, found⟩
  rw [messages, holder]
  generalize c.order = order at all
  induction order generalizing p with
  | nil => rfl
  | cons i order ih =>
    obtain ⟨s, found⟩ := all i mem_cons_self
    rw [filterMap_cons, found]
    cases p with
    | zero => simp [found]
    | succ p =>
      exact ih p fun j mem => all j (mem_cons_of_mem _ mem)

theorem Sound.length_messages : c.messages.length = c.queue.head := by
  apply Nat.le_antisymm
  · rw [← sound.length]
    exact length_filterMap_le _ _
  · by_contra less
    have inside : c.messages.length < c.order.length := by
      rw [sound.length]
      omega
    obtain ⟨s, found, pos⟩ := (sound.calls.holds _ _).mp (getElem?_eq_getElem inside)
    have at_end := sound.getElem?_messages c.messages.length
    rw [getElem?_eq_none (Nat.le_refl _), sound.holder_eq found pos] at at_end
    cases at_end

/-- What `TryPop` has returned are the messages in the order of their positions. -/
theorem Sound.popped_prefix : c.popped <+: c.messages := by
  rw [prefix_iff_getElem?]
  intro p below
  obtain ⟨s, held, at_p⟩ := sound.popped p below
  rw [sound.getElem?_messages, held, Option.map_some, ← at_p, getElem?_eq_getElem below]

theorem Sound.all_popped (settled : ¬ c.Pending) (outside : c.pop = .outside)
    (zero : c.eventFd = 0) (awaited : c.Awaited) :
    c.popped = c.messages ∧ c.queue.tail = c.queue.head ∧ c.queue.empty = true := by
  have none_ : c.queue.tail = c.queue.head :=
    (awaited.resolve_left (not_not_intro zero)).resolve_right settled
  have passed_ := sound.passed
  rw [Channel.passed, outside] at passed_
  have size := sound.size_of_settled settled outside
  refine ⟨sound.popped_prefix.eq_of_length ?_, none_, decide_eq_true (by omega)⟩
  rw [sound.length_messages, ← none_]
  exact passed_

theorem Sound.nodup_order : c.order.Nodup := by
  rw [nodup_iff_pairwise_ne, pairwise_iff_getElem]
  intro p q inside inside' lt same
  obtain ⟨s, found, pos⟩ := (sound.calls.holds _ _).mp (getElem?_eq_getElem inside)
  obtain ⟨t, found', pos'⟩ := (sound.calls.holds _ _).mp (getElem?_eq_getElem inside')
  rw [← same, found] at found'
  cases found'
  rw [pos] at pos'
  cases pos'
  omega

omit sound

/-! ### Waking the consumer -/

theorem not_pending_of_quiet (quiet : c.quiet = true) : ¬ c.Pending := by
  rintro ⟨i, s, found, -, undone⟩
  have done := all_eq_true.mp quiet s (mem_of_getElem? found)
  rw [undone] at done
  cases done

theorem produce_frame (stepped : c.produce i = some c') :
    c'.pop = c.pop ∧ c'.popped = c.popped ∧ c'.queue.tail = c.queue.tail := by
  unfold Channel.produce at stepped
  repeat' split at stepped
  all_goals first
    | (cases stepped; done)
    | (cases stepped; exact ⟨rfl, rfl, rfl⟩)

theorem call_frame (called : c.call producer message = some c') :
    c'.pop = c.pop ∧ c'.popped = c.popped ∧ c'.queue = c.queue ∧ c'.eventFd = c.eventFd := by
  unfold Channel.call at called
  split at called
  · cases called
    exact ⟨rfl, rfl, rfl, rfl⟩
  · cases called

theorem Pending.setPlace (pending : c.Pending) (found : c.sends[i]? = some s)
    (kept : s.place.pos?.isSome = true → place.pos?.isSome = true ∧ place.done = false)
    (sends : c'.sends = c.sends.set i { s with place := place }) : c'.Pending := by
  obtain ⟨j, t, found', holds, undone⟩ := pending
  by_cases same : j = i
  · subst same
    rw [found] at found'
    cases found'
    obtain ⟨holds', undone'⟩ := kept holds
    refine ⟨j, { s with place := place }, ?_, holds', undone'⟩
    rw [sends]
    exact setPlace_self found
  · refine ⟨j, t, ?_, holds, undone⟩
    rw [sends, getElem?_set_ne (Ne.symm same)]
    exact found'

/-- A producer that goes on leaves a consumer that is going to be woken. -/
theorem Awaited.produce (awaited : c.Awaited) (stepped : c.produce i = some c') : c'.Awaited := by
  cases found : c.sends[i]? with
  | none =>
    simp only [Channel.produce, found] at stepped
    cases stepped
  | some s =>
    obtain ⟨producer, message, place⟩ := s
    simp only [Channel.produce, found] at stepped
    -- a call that keeps the counters and its position, if it has one
    have goes_on : ∀ {place' : Place},
        (place.pos?.isSome = true → place'.pos?.isSome = true ∧ place'.done = false) →
        c'.eventFd = c.eventFd → c'.queue.tail = c.queue.tail → c'.queue.head = c.queue.head →
        c'.sends = c.sends.set i ⟨producer, message, place'⟩ → c'.Awaited := by
      intro place' kept fd tail head sends
      rcases awaited with raised | none_ | pending
      · exact .inl (fd ▸ raised)
      · exact .inr (.inl (tail.trans (none_.trans head.symm)))
      · exact .inr (.inr (pending.setPlace found kept sends))
    cases place with
    | sizing =>
      cases stepped
      exact goes_on nofun rfl rfl rfl rfl
    | reserving =>
      cases stepped
      exact .inr (.inr ⟨i, _, setPlace_self found, rfl, rfl⟩)
    | waiting pos =>
      dsimp only at stepped
      split at stepped
      · cases stepped
        exact awaited
      · cases stepped
        exact goes_on (fun _ => ⟨rfl, rfl⟩) rfl rfl rfl rfl
    | storing pos =>
      cases stepped
      exact goes_on (fun _ => ⟨rfl, rfl⟩) rfl rfl rfl rfl
    | readying pos =>
      cases stepped
      exact goes_on (fun _ => ⟨rfl, rfl⟩) rfl rfl rfl rfl
    | counting pos =>
      cases stepped
      exact goes_on (fun _ => ⟨rfl, rfl⟩) rfl rfl rfl rfl
    | notifying pos =>
      cases stepped
      exact .inl (Nat.succ_ne_zero _)
    | sent pos => cases stepped
    | refused => cases stepped

theorem Awaited.call (awaited : c.Awaited)
    (called : c.call producer message = some c') : c'.Awaited := by
  unfold Channel.call at called
  split at called
  · cases called
    rcases awaited with raised | none_ | ⟨j, t, found, holds, undone⟩
    · exact .inl raised
    · exact .inr (.inl none_)
    · have inside := (List.getElem?_eq_some_iff.mp found).1
      exact .inr (.inr ⟨j, t, (List.getElem?_append_left inside).trans found, holds, undone⟩)
  · cases called

end Sound

end Channel

end AgentProtocols.Shared
