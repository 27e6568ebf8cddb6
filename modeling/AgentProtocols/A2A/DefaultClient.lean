import AgentProtocols.Lib.Runs
import AgentProtocols.A2A.ClientTransport

/-!
The A2A client with its transport: calls, request tasks and `close`.

What a thread still has to do in `transport_event_cb` and in `close` is a stack of operations, each
one critical section or a stretch of code without any. `generate_uuid` gives every call a request
of its own, so the two tables are two flags of a request.
-/

namespace AgentProtocols.A2A

open Lib

/-! ### Operations -/

/-- One operation of a thread; the number is that of the request. -/
inductive Op where
  /-- `transport_event_cb`: the lookup, with the lock of `callback_info`. -/
  | look (r : Nat) (event : TransportEvent)
  /-- The lock of the entry, under the lock of `callback_info`, for the method. -/
  | method (r : Nat) (event : TransportEvent)
  /-- The lock of the entry. -/
  | enter (r : Nat) (event : TransportEvent)
  /-- A handler or the consumers run. -/
  | user
  /-- `completion.take()`, with what it is given. -/
  | resolve (r : Nat) (reply : Reply)
  | unregister (r : Nat)
  /-- The guard of the entry is dropped. -/
  | leave (r : Nat)
  /-- `close`: the flag, the token, the drain of `request_data` and its return. -/
  | setClosed
  | cancel
  | drain
  | returned
  /-- `pending_requests`. -/
  | count

/-- What a handler may do with its client. -/
inductive UserCall where
  | close
  | pendingRequests

def UserCall.ops : UserCall → List Op
  | close => [.setClosed, .cancel, .drain, .returned]
  | pendingRequests => [.count]

inductive CallPlace where
  | registering
  /-- The checks of `send` and `submit`. -/
  | submitting
  | inserting
  | spawning
  /-- `send` has failed. -/
  | refusing (e : ClientError)
  | waiting

/-- Where the task of a request is, apart from its deliveries. -/
inductive TaskPlace where
  | unspawned
  | sending
  | readingText
  | readingStream
  /-- The events of a chunk, or the last one at the end of the stream. -/
  | delivering (events : List Body) (last : Bool)
  | ended

structure Request where
  id : String
  method : Method
  inRequestData : Bool := false
  inCallbackInfo : Bool := false
  /-- The `CallbackInfo`: whether its completion is there, and its task manager. -/
  completion : Bool := true
  mgr : Option ClientTaskManager := none
  /-- What the caller was given. -/
  replies : List Reply := []
  /-- `close` has drained the request. -/
  taken : Bool := false
  call : CallPlace := .registering
  task : TaskPlace := .unspawned
  stack : List Op := []

structure DefaultClient where
  closed : Bool
  cancelled : Bool
  requests : List Request
  /-- The calls of `close`. -/
  closers : List (List Op)

def DefaultClient.new : DefaultClient := ⟨false, false, [], []⟩

/-- What the surroundings decide in a step. -/
inductive Choice where
  | go
  /-- The token is seen. -/
  | cancelled
  | sent (s : Sent)
  | text (body : Body)
  | textFailed (timeout : Bool) (e : String)
  | chunk (events : List Body)
  | streamEnd (last : Option Body)
  | streamFailed (timeout : Bool) (e : String)
  | user (calls : List UserCall)
  /-- The order of a drained map. -/
  | order (rs : List Nat)

/-- The task of a request, a call of `close`, or the call of a request. -/
inductive ThreadId where
  | call (r : Nat)
  | task (r : Nat)
  | closer (k : Nat)
deriving DecidableEq

inductive ClientLabel where
  | call (method : Method) (id : String)
  | close
  /-- `send` may refuse the request. -/
  | callStep (r : Nat) (refused : Option ClientError)
  | taskStep (r : Nat) (choice : Choice)
  | closeStep (k : Nat) (choice : Choice)

def ClientLabel.thread : ClientLabel → Option ThreadId
  | callStep r _ => some (.call r)
  | taskStep r _ => some (.task r)
  | closeStep k _ => some (.closer k)
  | _ => none

/-! ### Requests -/

namespace Request

/-- `completion.take()`. -/
def resolve (q : Request) (reply : Reply) : Request :=
  if q.completion then { q with completion := false, replies := q.replies ++ [reply] } else q

/-- The request leaves `callback_info`. -/
def unregister (q : Request) : Request := { q with inCallbackInfo := false }

/-- The request leaves `request_data`, if it is there, in `close`. -/
def drain (q : Request) : Request :=
  if q.inRequestData then { q with inRequestData := false, taken := true } else q

/-- `transport_event_cb` after the lock of the entry was taken. -/
def receive (r : Nat) (q : Request) : TransportEvent → Request × List Op
  | .error code info =>
    if code = 0 then (q, [.resolve r q.method.streamEndReply, .leave r])
    else
      (q, (if q.method.hasHandler then [.user] else []) ++
        [.resolve r (.error ⟨code, info⟩), .leave r])
  | event =>
    let (mgr, result) := handlerSuccessResp q.method q.mgr event
    match result with
    | .error _ => ({ q with mgr }, [.unregister r, .resolve r abandoned, .leave r])
    | .ok handled =>
      ({ q with mgr }, (if handled.called then [.user, .user] else []) ++
        (handled.reply.map (Op.resolve r)).toList ++
        (if handled.ended then [.unregister r] else []) ++ [.leave r])

/-- `finish`, and the event if the request was there; the task is over. -/
def finish (r : Nat) (q : Request) (event : TransportEvent) : Request :=
  if q.inRequestData then
    { q with inRequestData := false, task := .ended, stack := [.look r event] }
  else { q with task := .ended }

/-- What the transport does with a response, and where the task goes on. -/
def take (r : Nat) (q : Request) (next : TaskPlace) : Step → Request
  | .finish event => q.finish r event
  | .pass event => { q with task := next, stack := [.look r event] }

/-- The task of a request between its deliveries. -/
def advance (d : Decoder) (cancelled : Bool) (r : Nat) (q : Request) : Choice → Option Request
  | .cancelled =>
    match q.task with
    | .sending | .readingText | .readingStream =>
      if cancelled then some { q with task := .ended } else none
    | _ => none
  | .sent s =>
    match q.task with
    | .sending =>
      match s.body with
      | .error event => some (q.finish r event)
      | .ok .text => some { q with task := .readingText }
      | .ok .stream => some { q with task := .readingStream }
    | _ => none
  | .text body =>
    match q.task with
    | .readingText =>
      match d.handleJsonBody q.method q.id body with
      | none => some { q with task := .ended }
      | some step => some (q.take r .ended step)
    | _ => none
  | .textFailed timeout e =>
    match q.task with
    | .readingText => some (q.finish r (httpFailure timeout e))
    | _ => none
  | .chunk events =>
    match q.task with
    | .readingStream => some { q with task := .delivering events false }
    | _ => none
  | .streamEnd last =>
    match q.task with
    | .readingStream => some { q with task := .delivering last.toList true }
    | _ => none
  | .streamFailed timeout e =>
    match q.task with
    | .readingStream =>
      some (q.finish r (if timeout then .error (-32101) "SSE read timeout" else httpFailure false e))
    | _ => none
  | .go =>
    match q.task with
    | .delivering [] false => some { q with task := .readingStream }
    | .delivering [] true => some (q.finish r .streamEnd)
    | .delivering (body :: rest) last =>
      some (q.take r (.delivering rest last) (d.deliverSseEvent q.id body))
    | _ => none
  | _ => none

end Request

/-! ### The client -/

namespace DefaultClient

variable (c : DefaultClient)

def threads : List (List Op) := c.requests.map Request.stack ++ c.closers

/-- Some thread holds the lock of `callback_info`. -/
def mapHeld : Bool :=
  c.threads.any fun s =>
    match s with
    | .method _ _ :: _ => true
    | _ => false

/-- Some thread holds the lock of the entry. -/
def entryHeld (r : Nat) : Bool :=
  c.threads.any fun s => s.any fun
    | .leave r' => r' == r
    | _ => false

def update (r : Nat) (f : Request → Request) : DefaultClient :=
  { c with requests := c.requests.modify r f }

def stackOf : ThreadId → Option (List Op)
  | .call _ => none
  | .task r => c.requests[r]?.map Request.stack
  | .closer k => c.closers[k]?

def setStack (s : List Op) : ThreadId → DefaultClient
  | .call _ => c
  | .task r => c.update r ({ · with stack := s })
  | .closer k => { c with closers := c.closers.set k s }

def pending : List Nat :=
  (List.range c.requests.length).filter fun r => (c.requests[r]?.map Request.inRequestData).getD false

def closedEvent : TransportEvent := .error (-32108) "Transport is closed"

/-- An operation, with those that take its place; undefined where it has to wait. -/
def runOp : Op → Choice → Option (DefaultClient × List Op)
  | .look r event, .go =>
    if c.mapHeld then none
    else c.requests[r]?.map fun q => (c, if q.inCallbackInfo then [.method r event] else [])
  | .method r event, .go =>
    if c.entryHeld r then none
    else
      c.requests[r]?.map fun q =>
        (if event.isError || !q.method.isStream then c.update r Request.unregister
          else c, [.enter r event])
  | .enter r event, .go =>
    if c.entryHeld r then none
    else
      c.requests[r]?.map fun q =>
        (c.update r fun q => (q.receive r event).1, (q.receive r event).2)
  | .user, .user calls => some (c, calls.flatMap UserCall.ops)
  | .resolve r reply, .go => some (c.update r (·.resolve reply), [])
  | .unregister r, .go =>
    if c.mapHeld then none else some (c.update r Request.unregister, [])
  | .leave _, .go => some (c, [])
  | .setClosed, .go => some ({ c with closed := true }, [])
  | .cancel, .go => some ({ c with cancelled := true }, [])
  | .drain, .order rs =>
    if rs.Perm c.pending then
      some ({ c with requests := c.requests.map Request.drain },
        rs.map fun r => .look r closedEvent)
    else none
  | .returned, .go => some (c, [])
  | .count, .go => if c.mapHeld then none else some (c, [])
  | _, _ => none

def runCall (q : Request) (refused : Option ClientError) : Option Request :=
  match q.call with
  | .registering =>
    if c.mapHeld then none else some { q with inCallbackInfo := true, call := .submitting }
  | .submitting =>
    match refused with
    | some e => some { q with call := .refusing e }
    | none =>
      if c.closed then some { q with call := .refusing ⟨-32102, "transport exception"⟩ }
      else some { q with call := .inserting }
  | .inserting => some { q with inRequestData := true, call := .spawning }
  | .spawning => some { q with task := .sending, call := .waiting }
  | .refusing e =>
    if c.mapHeld then none
    else
      some { q with
        inCallbackInfo := false
        completion := false
        replies := q.replies ++ [.error ⟨-32102, e.message⟩]
        call := .waiting }
  | .waiting => none

/-- One step; undefined where the label names nothing that can happen. -/
def step (d : Decoder) (c : DefaultClient) : ClientLabel → Option DefaultClient
  | .call method id =>
    some { c with requests := c.requests ++
      [{ id, method, mgr := if method.isStream then some .new else none }] }
  | .close => some { c with closers := c.closers ++ [UserCall.close.ops] }
  | .callStep r refused =>
    c.requests[r]?.bind fun q => (c.runCall q refused).map fun q' => c.update r fun _ => q'
  | .taskStep r choice =>
    c.requests[r]?.bind fun q =>
      match q.stack with
      | [] => (q.advance d c.cancelled r choice).map fun q' => c.update r fun _ => q'
      | op :: rest =>
        (c.runOp op choice).map fun done => done.1.setStack (done.2 ++ rest) (.task r)
  | .closeStep k choice =>
    c.closers[k]?.bind fun s =>
      match s with
      | [] => none
      | op :: rest =>
        (c.runOp op choice).map fun done => done.1.setStack (done.2 ++ rest) (.closer k)

/-! ### What an operation does -/

/-- An operation, the client after it and the operations in its place. -/
inductive Ran (c : DefaultClient) : Op → DefaultClient → List Op → Prop where
  | found {r : Nat} {event : TransportEvent} {q : Request} (free : c.mapHeld = false)
      (at_r : c.requests[r]? = some q) (registered : q.inCallbackInfo = true) :
      Ran c (.look r event) c [.method r event]
  | missing {r : Nat} {event : TransportEvent} {q : Request} (at_r : c.requests[r]? = some q)
      (gone : q.inCallbackInfo = false) : Ran c (.look r event) c []
  | remove {r : Nat} {event : TransportEvent} {q : Request} (at_r : c.requests[r]? = some q)
      (isOver : (event.isError || !q.method.isStream) = true) :
      Ran c (.method r event) (c.update r Request.unregister) [.enter r event]
  | keep {r : Nat} {event : TransportEvent} {q : Request} (at_r : c.requests[r]? = some q)
      (stream : (event.isError || !q.method.isStream) = false) :
      Ran c (.method r event) c [.enter r event]
  | enter {r : Nat} {event : TransportEvent} {q : Request} (at_r : c.requests[r]? = some q) :
      Ran c (.enter r event) (c.update r fun q => (q.receive r event).1) (q.receive r event).2
  | user (calls : List UserCall) : Ran c .user c (calls.flatMap UserCall.ops)
  | resolve (r : Nat) (reply : Reply) : Ran c (.resolve r reply) (c.update r (·.resolve reply)) []
  | unregister (r : Nat) :
      Ran c (.unregister r) (c.update r Request.unregister) []
  | leave (r : Nat) : Ran c (.leave r) c []
  | setClosed : Ran c .setClosed { c with closed := true } []
  | cancel : Ran c .cancel { c with cancelled := true } []
  | drain {rs : List Nat} (all : rs.Perm c.pending) :
      Ran c .drain { c with requests := c.requests.map Request.drain }
        (rs.map fun r => .look r closedEvent)
  | returned : Ran c .returned c []
  | count : Ran c .count c []

variable {c} {d : Decoder} {c' : DefaultClient} {op : Op} {new : List Op} {choice : Choice}
  {l : ClientLabel}

theorem runOp_ran (ran : c.runOp op choice = some (c', new)) : c.Ran op c' new := by
  unfold runOp at ran
  split at ran
  · split at ran
    · cases ran
    · rename_i free
      obtain ⟨q, at_r, same⟩ := Option.map_eq_some_iff.mp ran
      cases same
      split
      · rename_i registered
        exact .found ((Bool.not_eq_true _).mp free) at_r registered
      · rename_i gone
        exact .missing at_r ((Bool.not_eq_true _).mp gone)
  · split at ran
    · cases ran
    · obtain ⟨q, at_r, same⟩ := Option.map_eq_some_iff.mp ran
      cases same
      split
      · rename_i isOver
        exact .remove at_r isOver
      · rename_i stream
        exact .keep at_r ((Bool.not_eq_true _).mp stream)
  · split at ran
    · cases ran
    · obtain ⟨q, at_r, same⟩ := Option.map_eq_some_iff.mp ran
      cases same
      exact .enter at_r
  · cases ran
    exact .user _
  · cases ran
    exact .resolve _ _
  · split at ran
    · cases ran
    · cases ran
      exact .unregister _
  · cases ran
    exact .leave _
  · cases ran
    exact .setClosed
  · cases ran
    exact .cancel
  · split at ran
    · rename_i all
      cases ran
      exact .drain all
    · cases ran
  · cases ran
    exact .returned
  · split at ran
    · cases ran
    · cases ran
      exact .count
  · cases ran

theorem step_cases (stepped : c.step d l = some c') :
    (∃ method id, l = .call method id ∧ c' = { c with requests := c.requests ++
      [{ id, method, mgr := if method.isStream then some .new else none }] }) ∨
    (l = .close ∧ c' = { c with closers := c.closers ++ [UserCall.close.ops] }) ∨
    (∃ r refused q q', l = .callStep r refused ∧ c.requests[r]? = some q ∧
      c.runCall q refused = some q' ∧ c' = c.update r fun _ => q') ∨
    (∃ r choice q q', l = .taskStep r choice ∧ c.requests[r]? = some q ∧ q.stack = [] ∧
      q.advance d c.cancelled r choice = some q' ∧ c' = c.update r fun _ => q') ∨
    ∃ id op rest c₁ new, l.thread = some id ∧ c.stackOf id = some (op :: rest) ∧
      c.Ran op c₁ new ∧ c' = c₁.setStack (new ++ rest) id := by
  cases l with
  | call method id =>
    cases stepped
    exact .inl ⟨_, _, rfl, rfl⟩
  | close =>
    cases stepped
    exact .inr (.inl ⟨rfl, rfl⟩)
  | callStep r refused =>
    obtain ⟨q, at_r, moved⟩ := Option.bind_eq_some_iff.mp stepped
    obtain ⟨q', ran, rfl⟩ := Option.map_eq_some_iff.mp moved
    exact .inr (.inr (.inl ⟨r, refused, q, q', rfl, at_r, ran, rfl⟩))
  | taskStep r choice =>
    obtain ⟨q, at_r, moved⟩ := Option.bind_eq_some_iff.mp stepped
    split at moved
    · rename_i idle
      obtain ⟨q', advanced, rfl⟩ := Option.map_eq_some_iff.mp moved
      exact .inr (.inr (.inr (.inl ⟨r, choice, q, q', rfl, at_r, idle, advanced, rfl⟩)))
    · rename_i op rest busy
      obtain ⟨⟨c₁, new⟩, ran, rfl⟩ := Option.map_eq_some_iff.mp moved
      refine .inr (.inr (.inr (.inr ⟨.task r, op, rest, c₁, new, rfl, ?_, runOp_ran ran, rfl⟩)))
      rw [stackOf, at_r, ← busy]
      rfl
  | closeStep k choice =>
    obtain ⟨s, at_k, moved⟩ := Option.bind_eq_some_iff.mp stepped
    split at moved
    · cases moved
    · rename_i op rest
      obtain ⟨⟨c₁, new⟩, ran, rfl⟩ := Option.map_eq_some_iff.mp moved
      exact .inr (.inr (.inr (.inr ⟨.closer k, op, rest, c₁, new, rfl, at_k, runOp_ran ran, rfl⟩)))

/-! ### Stacks -/

variable {id id' : ThreadId} {s rest : List Op} {r : Nat}

theorem mem_threads (found : c.stackOf id = some s) : s ∈ c.threads := by
  cases id with
  | call r => cases found
  | task r =>
    obtain ⟨q, at_r, rfl⟩ := Option.map_eq_some_iff.mp found
    exact List.mem_append_left _ (List.mem_map_of_mem (List.mem_of_getElem? at_r))
  | closer k => exact List.mem_append_right _ (List.mem_of_getElem? found)

theorem stackOf_of_mem (mem : s ∈ c.threads) : ∃ id, c.stackOf id = some s := by
  rcases List.mem_append.mp mem with own | close
  · obtain ⟨q, there, rfl⟩ := List.mem_map.mp own
    obtain ⟨r, at_r⟩ := List.mem_iff_getElem?.mp there
    exact ⟨.task r, by rw [stackOf, at_r]; rfl⟩
  · obtain ⟨k, at_k⟩ := List.mem_iff_getElem?.mp close
    exact ⟨.closer k, at_k⟩

theorem getElem?_update (f : Request → Request) (r' : Nat) :
    (c.update r f).requests[r']? = (c.requests[r']?).map fun q => if r = r' then f q else q := by
  rw [update, List.getElem?_modify]
  rfl

theorem update_stackOf {f : Request → Request} (same : ∀ q, (f q).stack = q.stack) (id : ThreadId) :
    (c.update r f).stackOf id = c.stackOf id := by
  cases id with
  | call r => rfl
  | closer k => rfl
  | task r' =>
    rw [stackOf, getElem?_update, Option.map_map]
    congr 1
    funext q
    split
    · exact same q
    · rfl

theorem stackOf_update_ne {f : Request → Request} (other : id ≠ .task r)
    (found : (c.update r f).stackOf id = some s) : c.stackOf id = some s := by
  cases id with
  | call r => cases found
  | closer k => exact found
  | task r' =>
    have apart : r ≠ r' := fun same => other (by rw [same])
    rw [stackOf, getElem?_update] at found
    simp only [apart, if_false, Option.map_id'] at found
    exact found

theorem stackOf_replace {q q' : Request} (at_r : c.requests[r]? = some q) (same : q'.stack = q.stack)
    (id : ThreadId) : (c.update r fun _ => q').stackOf id = c.stackOf id := by
  cases id with
  | call r => rfl
  | closer k => rfl
  | task r' =>
    rw [stackOf, stackOf, getElem?_update]
    by_cases here : r = r'
    · subst here
      rw [at_r]
      simp only [Option.map_some, if_true, same]
    · simp only [here, if_false, Option.map_id']

theorem receive_stack (r : Nat) (q : Request) (event : TransportEvent) :
    (q.receive r event).1.stack = q.stack := by
  unfold Request.receive
  split
  · split <;> rfl
  · dsimp only
    split <;> rfl

theorem resolve_stack (q : Request) (reply : Reply) : (q.resolve reply).stack = q.stack := by
  rw [Request.resolve]
  split <;> rfl

theorem drain_stack (q : Request) : q.drain.stack = q.stack := by
  rw [Request.drain]
  split <;> rfl

theorem Ran.stackOf (ran : c.Ran op c' new) (id : ThreadId) : c'.stackOf id = c.stackOf id := by
  cases ran with
  | remove => exact update_stackOf (f := Request.unregister) (fun _ => rfl) id
  | enter => exact update_stackOf (fun q => receive_stack _ q _) id
  | resolve => exact update_stackOf (fun q => resolve_stack q _) id
  | unregister => exact update_stackOf (f := Request.unregister) (fun _ => rfl) id
  | drain =>
    cases id with
    | task r =>
      simp only [DefaultClient.stackOf, List.getElem?_map, Option.map_map]
      congr 1
      funext q
      exact drain_stack q
    | _ => rfl
  | _ => rfl

theorem stackOf_setStack_self (found : c.stackOf id = some s) (s' : List Op) :
    (c.setStack s' id).stackOf id = some s' := by
  cases id with
  | call r => cases found
  | task r =>
    obtain ⟨q, at_r, -⟩ := Option.map_eq_some_iff.mp found
    rw [setStack, stackOf, getElem?_update, at_r]
    simp only [Option.map_some, if_true]
  | closer k =>
    exact List.getElem?_set_self (List.getElem?_eq_some_iff.mp found).1

theorem stackOf_setStack_ne (other : id' ≠ id) (s' : List Op) :
    (c.setStack s' id).stackOf id' = c.stackOf id' := by
  cases id with
  | call r => rfl
  | task r =>
    cases id' with
    | task r' =>
      have apart : r ≠ r' := fun same => other (by rw [same])
      rw [setStack, stackOf, stackOf, getElem?_update]
      simp only [apart, if_false, Option.map_id']
    | _ => rfl
  | closer k =>
    cases id' with
    | closer k' =>
      have apart : k ≠ k' := fun same => other (by rw [same])
      exact List.getElem?_set_ne apart
    | _ => rfl

end DefaultClient

end AgentProtocols.A2A
