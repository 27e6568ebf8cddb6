import AgentProtocols.A2A.DefaultClient

/-!
Whether the client can deadlock. The lock of an entry is taken under that of `callback_info` and
the other way round; where no two events of one request are delivered at a time
(`DefaultClient.apart`), no set of threads waits for itself (`no_deadlock`).
`handler_closes_itself` is a handler that calls `close`.
-/

namespace AgentProtocols.A2A

open Lib Op

/-! ### Threads and locks -/

inductive Lock where
  /-- `callback_info`. -/
  | map
  /-- The entry of a request. -/
  | entry (r : Nat)

/-- The lock that an operation waits for. -/
def Op.lock : Op → Option Lock
  | look _ _ => some .map
  | method r _ => some (.entry r)
  | enter r _ => some (.entry r)
  | unregister _ => some .map
  | count => some .map
  | _ => none

/-- The operations of a delivery from its lookup on. -/
def Op.inside (r : Nat) : Op → Bool
  | method r' _ => r' == r
  | enter r' _ => r' == r
  | leave r' => r' == r
  | _ => false

namespace DefaultClient

/-- The lock that a thread is about to take. -/
def wants (c : DefaultClient) : ThreadId → Option Lock
  | .call r =>
    match c.requests[r]?.map Request.call with
    | some .registering => some .map
    | some (.refusing _) => some .map
    | _ => none
  | id => (c.stackOf id).bind fun s => s.head?.bind lock

def Holds (c : DefaultClient) (id : ThreadId) : Lock → Prop
  | .map => ∃ r event rest, c.stackOf id = some (.method r event :: rest)
  | .entry r => ∃ s, c.stackOf id = some s ∧ leave r ∈ s

def Deadlocked (c : DefaultClient) (ids : Set ThreadId) : Prop :=
  ids.Nonempty ∧ ∀ id ∈ ids, ∃ lock, c.wants id = some lock ∧ ∃ id' ∈ ids, c.Holds id' lock

/-- No event of the request is being delivered. -/
def alone (c : DefaultClient) (r : Nat) : Bool := c.threads.all fun s => !s.any (inside r)

/-- The thread is not about to deliver an event of a request beside another one. -/
def startsAlone (c : DefaultClient) (id : ThreadId) : Bool :=
  match c.stackOf id with
  | some (.look r _ :: _) => c.alone r
  | _ => true

/-- Deliveries of the events of one request do not overlap. -/
def apart (c : DefaultClient) : ClientLabel → Bool
  | .taskStep r _ => c.startsAlone (.task r)
  | .closeStep k _ => c.startsAlone (.closer k)
  | _ => true

variable {d : Decoder} {c c' : DefaultClient} {id : ThreadId} {s rest new : List Op} {op : Op}
  {l : ClientLabel} {r : Nat}

theorem not_inside_of_alone (alone : c.alone r = true) (found : c.stackOf id = some s) :
    s.any (inside r) = false :=
  (Bool.not_eq_true' _).mp (List.all_eq_true.mp alone s (mem_threads found))

/-! ### One delivery of a request at a time -/

/-- No two deliveries of a request, on two threads or on one. -/
structure Separate (c : DefaultClient) : Prop where
  unique : ∀ r id id' s s', c.stackOf id = some s → c.stackOf id' = some s' →
    s.any (inside r) = true → s'.any (inside r) = true → id = id'
  single : ∀ r id s, c.stackOf id = some s → s.countP (inside r) ≤ 1

theorem Separate.not_held (separate : c.Separate) {op : Op} (found : c.stackOf id = some (op :: rest))
    (inside : op.inside r = true) (waits : op ≠ .leave r) (id' : ThreadId) :
    ¬c.Holds id' (.entry r) := by
  rintro ⟨s, found', mem⟩
  have left_ : (op :: rest).any (Op.inside r) = true :=
    List.any_eq_true.mpr ⟨op, List.mem_cons_self, inside⟩
  have leaves : (leave r).inside r = true := beq_self_eq_true r
  have right_ : s.any (Op.inside r) = true := List.any_eq_true.mpr ⟨_, mem, leaves⟩
  cases separate.unique r id id' _ s found found' left_ right_
  cases found.symm.trans found'
  have there : leave r ∈ rest := by
    rcases List.mem_cons.mp mem with same | there
    · exact absurd same.symm waits
    · exact there
  have one : 0 < rest.countP (Op.inside r) := List.countP_pos_iff.mpr ⟨_, there, leaves⟩
  have most := separate.single r id _ found
  rw [List.countP_cons_of_pos inside] at most
  omega

theorem Separate.not_deadlocked (separate : c.Separate) (ids : Set ThreadId) :
    ¬c.Deadlocked ids := by
  -- a thread of the set never waits for an entry
  have entry : ∀ id r, c.wants id = some (.entry r) → ∀ id', ¬c.Holds id' (.entry r) := by
    intro id r wants id'
    cases id with
    | call r' =>
      rw [DefaultClient.wants] at wants
      split at wants <;> cases wants
    | _ =>
      obtain ⟨s, found, head⟩ := Option.bind_eq_some_iff.mp wants
      obtain ⟨op, first, lock⟩ := Option.bind_eq_some_iff.mp head
      obtain ⟨rest, rfl⟩ := List.head?_eq_some_iff.mp first
      cases op with
      | method r' event =>
        cases lock
        exact separate.not_held found (beq_self_eq_true _) nofun id'
      | enter r' event =>
        cases lock
        exact separate.not_held found (beq_self_eq_true _) nofun id'
      | _ => cases lock
  rintro ⟨⟨id, mem⟩, waits⟩
  obtain ⟨lock, wants, id', mem', holds⟩ := waits id mem
  cases lock with
  | entry r => exact entry id r wants id' holds
  | map =>
    -- the holder of `callback_info` waits for an entry
    obtain ⟨r, event, rest, found⟩ := holds
    obtain ⟨lock', wants', id'', -, holds'⟩ := waits id' mem'
    have next : c.wants id' = some (.entry r) := by
      cases id' with
      | call r' => cases found
      | _ =>
        rw [DefaultClient.wants, found]
        · rfl
        · rintro r' ⟨⟩
    cases next.symm.trans wants'
    exact entry id' r next id'' holds'

/-! ### Steps and runs -/

theorem receive_inside (r r' : Nat) (q : Request) (event : TransportEvent) :
    (q.receive r event).2.countP (inside r') = [enter r event].countP (inside r') := by
  unfold Request.receive
  split
  · split
    · rfl
    · split <;> rfl
  · dsimp only
    split
    · rfl
    · rename_i handled _
      rw [List.countP_append, List.countP_append, List.countP_append]
      have users : (if handled.called = true then [user, user] else []).countP (inside r') = 0 := by
        split <;> rfl
      have resolves : (handled.reply.map (resolve r)).toList.countP (inside r') = 0 := by
        cases handled.reply <;> rfl
      have unregisters : (if handled.ended = true then [unregister r] else []).countP
          (inside r') = 0 := by
        split <;> rfl
      rw [users, resolves, unregisters, Nat.zero_add]
      rfl

theorem Ran.inside (ran : c.Ran op c' new) (r : Nat) (other : ∀ event, op ≠ .look r event) :
    new.countP (inside r) ≤ [op].countP (inside r) := by
  cases ran with
  | @found r' event q free at_r registered =>
    have apart : r' ≠ r := fun same => other event (by rw [same])
    have outside : (method r' event).inside r = false := beq_false_of_ne apart
    rw [List.countP_singleton, outside]
    exact Nat.zero_le _
  | remove => exact Nat.le_refl _
  | keep => exact Nat.le_refl _
  | enter => exact Nat.le_of_eq (receive_inside _ _ _ _)
  | user calls =>
    have none_ : (calls.flatMap UserCall.ops).countP (inside r) = 0 := by
      rw [List.countP_eq_zero]
      intro op mem
      obtain ⟨call, -, there⟩ := List.mem_flatMap.mp mem
      cases call with
      | close =>
        fin_cases there <;> exact Bool.false_ne_true
      | pendingRequests =>
        fin_cases there
        exact Bool.false_ne_true
    rw [none_]
    exact Nat.zero_le _
  | drain =>
    rw [List.countP_map]
    have none_ : ∀ rs : List Nat, rs.countP (inside r ∘ fun r => .look r closedEvent) = 0 :=
      fun rs => List.countP_eq_zero.mpr fun _ _ => Bool.false_ne_true
    rw [none_]
    exact Nat.zero_le _
  | _ => exact Nat.zero_le _

theorem any_inside_iff {s : List Op} : s.any (inside r) = true ↔ 0 < s.countP (inside r) := by
  rw [List.any_eq_true, List.countP_pos_iff]

theorem Ran.inside_stack (ran : c.Ran op c' new) (other : ∀ event, op ≠ .look r event) :
    (new ++ rest).countP (Op.inside r) ≤ (op :: rest).countP (Op.inside r) := by
  have grown := ran.inside r other
  rw [List.countP_append, ← List.singleton_append, List.countP_append]
  omega

theorem Separate.operation (separate : c.Separate) (found : c.stackOf id = some (op :: rest))
    (apart : c.startsAlone id = true) (ran : c.Ran op c' new) :
    (c'.setStack (new ++ rest) id).Separate := by
  have self : (c'.setStack (new ++ rest) id).stackOf id = some (new ++ rest) :=
    stackOf_setStack_self ((ran.stackOf id).trans found) _
  have others : ∀ id', id' ≠ id → (c'.setStack (new ++ rest) id).stackOf id' = c.stackOf id' :=
    fun id' other => (stackOf_setStack_ne other _).trans (ran.stackOf id')
  -- a lookup of the request comes where nobody delivers an event of it
  have lookup : ∀ r event, op = .look r event → c.alone r = true := by
    rintro r event rfl
    rw [startsAlone, found] at apart
    exact apart
  have count : ∀ r, (new ++ rest).countP (inside r) ≤ 1 := by
    intro r
    by_cases looks : ∃ event, op = .look r event
    · obtain ⟨event, rfl⟩ := looks
      have outside := not_inside_of_alone (lookup r event rfl) found
      rw [List.any_cons, Bool.or_eq_false_iff] at outside
      have none_ : rest.countP (inside r) = 0 := by
        by_contra some_
        exact absurd (any_inside_iff.mpr (Nat.pos_of_ne_zero some_)) (Bool.not_eq_true _ ▸ outside.2)
      rw [List.countP_append, none_]
      cases ran with
      | found => exact List.countP_le_length
      | missing => exact Nat.zero_le _
    · have kept : (new ++ rest).countP (Op.inside r) ≤ (op :: rest).countP (Op.inside r) :=
        ran.inside_stack fun event same => looks ⟨event, same⟩
      exact kept.trans (separate.single r id _ found)
  -- another thread that delivers an event of the request
  have other : ∀ r id' s, id' ≠ id → c.stackOf id' = some s → s.any (inside r) = true →
      (new ++ rest).any (inside r) = true → False := by
    intro r id' s different found' inside inside'
    by_cases looks : ∃ event, op = .look r event
    · obtain ⟨event, rfl⟩ := looks
      rw [not_inside_of_alone (lookup r event rfl) found'] at inside
      cases inside
    · have kept : (new ++ rest).countP (Op.inside r) ≤ (op :: rest).countP (Op.inside r) :=
        ran.inside_stack fun event same => looks ⟨event, same⟩
      have before : (op :: rest).any (Op.inside r) = true :=
        any_inside_iff.mpr (Nat.lt_of_lt_of_le (any_inside_iff.mp inside') kept)
      exact different (separate.unique r id' id s _ found' found inside before)
  constructor
  · intro r id₁ id₂ s₁ s₂ found₁ found₂ inside₁ inside₂
    by_cases first : id₁ = id
    · subst first
      cases self.symm.trans found₁
      by_contra different
      rw [others id₂ (Ne.symm different)] at found₂
      exact other r id₂ s₂ (Ne.symm different) found₂ inside₂ inside₁
    · rw [others id₁ first] at found₁
      by_cases second : id₂ = id
      · subst second
        cases self.symm.trans found₂
        exact (other r id₁ s₁ first found₁ inside₁ inside₂).elim
      · rw [others id₂ second] at found₂
        exact separate.unique r id₁ id₂ s₁ s₂ found₁ found₂ inside₁ inside₂
  · intro r id' s found'
    by_cases same : id' = id
    · subst same
      cases self.symm.trans found'
      exact count r
    · rw [others id' same] at found'
      exact separate.single r id' s found'

/-- A step after which every stack is an old one or delivers nothing. -/
theorem Separate.quiet (separate : c.Separate)
    (old : ∀ id s, c'.stackOf id = some s → c.stackOf id = some s ∨ ∀ r, s.any (inside r) = false) :
    c'.Separate := by
  have before : ∀ r id s, c'.stackOf id = some s → s.any (inside r) = true →
      c.stackOf id = some s := by
    intro r id s found inside
    rcases old id s found with found | outside
    · exact found
    · cases (outside r).symm.trans inside
  constructor
  · intro r id id' s s' found found' inside inside'
    exact separate.unique r id id' s s' (before r id s found inside)
      (before r id' s' found' inside') inside inside'
  · intro r id s found
    rcases old id s found with found | outside
    · exact separate.single r id s found
    · have none_ : s.countP (inside r) = 0 := by
        by_contra some_
        cases (outside r).symm.trans (any_inside_iff.mpr (Nat.pos_of_ne_zero some_))
      rw [none_]
      exact Nat.zero_le _

theorem runCall_stack {q q' : Request} {refused : Option ClientError}
    (ran : c.runCall q refused = some q') : q'.stack = q.stack := by
  unfold runCall at ran
  repeat' split at ran
  all_goals first
    | (cases ran
       rfl)
    | cases ran

theorem finish_stack (r : Nat) (q : Request) (event : TransportEvent) (idle : q.stack = []) (r' : Nat) :
    (q.finish r event).stack.any (inside r') = false := by
  rw [Request.finish]
  split
  · rfl
  · rw [idle]
    rfl

theorem advance_stack {q q' : Request} {choice : Choice} (idle : q.stack = [])
    (advanced : q.advance d c.cancelled r choice = some q') (r' : Nat) :
    q'.stack.any (inside r') = false := by
  have same : ∀ place, ({ q with task := place } : Request).stack.any (inside r') = false := by
    intro place
    rw [idle]
    rfl
  have taken : ∀ next step, (q.take r next step).stack.any (inside r') = false := by
    intro next step
    cases step with
    | finish event => exact finish_stack r q event idle r'
    | pass event => rfl
  unfold Request.advance at advanced
  repeat' split at advanced
  all_goals first
    | (cases advanced
       done)
    | (cases advanced
       exact same _)
    | (cases advanced
       exact finish_stack r q _ idle r')
    | (cases advanced
       exact taken _ _)

theorem Separate.step (separate : c.Separate) (apart : c.apart l = true)
    (stepped : c.step d l = some c') : c'.Separate := by
  rcases step_cases stepped with ⟨method, uuid, rfl, rfl⟩ | ⟨rfl, rfl⟩ |
    ⟨r, refused, q, q', rfl, at_r, ran, rfl⟩ | ⟨r, choice, q, q', rfl, at_r, idle, advanced, rfl⟩ |
    ⟨id, op, rest, c₁, new, thread, found, ran, rfl⟩
  · refine separate.quiet fun id s found => ?_
    cases id with
    | task r =>
      obtain ⟨q, at_r, rfl⟩ := Option.map_eq_some_iff.mp found
      rcases getElem?_concat_cases at_r with old | ⟨-, rfl⟩
      · exact .inl (by rw [stackOf, old]; rfl)
      · exact .inr fun _ => rfl
    | _ => exact .inl found
  · refine separate.quiet fun id s found => ?_
    cases id with
    | closer k =>
      rcases getElem?_concat_cases found with old | ⟨-, rfl⟩
      · exact .inl old
      · exact .inr fun _ => rfl
    | _ => exact .inl found
  · refine separate.quiet fun id s found => .inl ?_
    rw [← stackOf_replace at_r (runCall_stack ran) id]
    exact found
  · refine separate.quiet fun id s found => ?_
    by_cases same : id = .task r
    · subst same
      obtain ⟨q'', at_r', rfl⟩ := Option.map_eq_some_iff.mp found
      rw [getElem?_update, at_r] at at_r'
      simp only [Option.map_some, Option.some.injEq] at at_r'
      subst at_r'
      exact .inr (advance_stack idle advanced)
    · exact .inl (stackOf_update_ne same found)
  · refine separate.operation found ?_ ran
    cases l with
    | taskStep r choice =>
      cases thread
      exact apart
    | closeStep k choice =>
      cases thread
      exact apart
    | callStep r refused =>
      cases thread
      cases found
    | _ => cases thread

theorem separate_new : DefaultClient.new.Separate where
  unique r id id' s s' found := by
    cases id <;> cases found
  single r id s found := by
    cases id <;> cases found

/-- No set of threads waits for itself where the events of a request are delivered one by one. -/
theorem no_deadlock {ls : List ClientLabel}
    (run : Run (Under (apart · · = true) (Steps (step d))) .new ls c)
    (ids : Set ThreadId) : ¬c.Deadlocked ids := by
  have separate : c.Separate :=
    run.invariant_under (fun _ _ _ inv apart stepped => inv.step apart stepped) separate_new
  exact separate.not_deadlocked ids

/-! A stream with one event. -/

def working : StreamEvent :=
  .statusUpdate { contextId := "c", status := .new .working, taskId := "t" }

/-- The response that carries the event, as a server writes it. -/
def workingBody : Body :=
  .json (.obj [("jsonrpc", .str "2.0"), ("id", .str "u"),
    ("result", (working.toJsonValue.toOption).getD .null)])

def workingDecoder : Decoder where
  streamEvent _ := .ok working
  sendMessageResult _ := .error "data did not match any variant"
  task _ := .error "missing field"
  pushConfig := .ok
  pushConfigs v := .ok [v]
  agentCard := .ok
  error _ := (-1, "")
  floatText _ := ""

/-- A stream call, up to the handler of the caller. -/
def streamed : List ClientLabel :=
  [.call .messageStream "u", .callStep 0 none, .callStep 0 none, .callStep 0 none, .callStep 0 none,
    .taskStep 0 (.sent (.response 200 (some "text/event-stream"))),
    .taskStep 0 (.chunk [workingBody]), .taskStep 0 .go, .taskStep 0 .go, .taskStep 0 .go,
    .taskStep 0 .go]

/-- The handler and the consumers return, and then the client is closed. -/
theorem closed_after_event : ∃ c, Run (Under (apart · · = true) (Steps (step workingDecoder))) .new
      (streamed ++ [.taskStep 0 (.user []), .taskStep 0 (.user []), .taskStep 0 .go, .close,
        .closeStep 0 .go, .closeStep 0 .go, .closeStep 0 (.order [0]), .closeStep 0 .go,
        .closeStep 0 .go]) c ∧
    c.wants (.closer 0) = some (.entry 0) ∧ ∀ ids, ¬c.Deadlocked ids := by
  have run : ∃ c, Run (Under (apart · · = true) (Steps (step workingDecoder))) .new
      (streamed ++ [.taskStep 0 (.user []), .taskStep 0 (.user []), .taskStep 0 .go, .close,
        .closeStep 0 .go, .closeStep 0 .go, .closeStep 0 (.order [0]), .closeStep 0 .go,
        .closeStep 0 .go]) c ∧ c.wants (.closer 0) = some (.entry 0) :=
    ⟨_, run_under_of_foldlM rfl, rfl⟩
  obtain ⟨c, run, wants⟩ := run
  exact ⟨c, run, wants, no_deadlock run⟩

/-- The handler calls `close`, which waits for the entry that the thread itself holds. -/
theorem handler_closes_itself : ∃ c, Run (Steps (step workingDecoder)) .new
      (streamed ++ [.taskStep 0 (.user [.close]), .taskStep 0 .go, .taskStep 0 .go,
        .taskStep 0 (.order [0]), .taskStep 0 .go]) c ∧
    c.Deadlocked {.task 0} := by
  refine ⟨_, run_of_foldlM rfl, ⟨_, rfl⟩, ?_⟩
  rintro id rfl
  exact ⟨.entry 0, rfl, .task 0, rfl, _, rfl, by simp⟩

end DefaultClient

end AgentProtocols.A2A
