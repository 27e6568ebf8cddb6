import AgentProtocols.A2A.DefaultClient

/-!
Who owes the caller of a request an event. Whoever takes a request out of `request_data` owes its
caller an event that takes it out of `callback_info`; `Tracked` says on whose stack the debt is,
and a request that nobody has anything left to do about is settled (`Tracked.settled`).
-/

namespace AgentProtocols.A2A

open Lib List

/-! ### What a call owes -/

/-- The request has left both tables and its caller has one reply. -/
structure Request.Settled (q : Request) : Prop where
  data : q.inRequestData = false
  info : q.inCallbackInfo = false
  replied : q.replies.length = 1

/-- The call has not handed the request to the transport, or was refused. -/
def CallPlace.early : CallPlace → Bool
  | registering | submitting | inserting | refusing _ => true
  | spawning | waiting => false

def TaskPlace.isEnded : TaskPlace → Bool
  | ended => true
  | _ => false

def Op.isReturned : Op → Bool
  | returned => true
  | _ => false

def Op.isDrain : Op → Bool
  | drain => true
  | _ => false

/-- The operations of `close` before its deliveries. -/
def Op.closes : Op → Bool
  | setClosed | cancel | drain => true
  | _ => false

/-- The operations of the deliveries of a request. -/
def Op.about (r : Nat) : Op → Bool
  | look r' _ | method r' _ | enter r' _ | resolve r' _ | unregister r' | leave r' => r' == r
  | _ => false

/-- After the event the call is over. -/
def Request.over (q : Request) (event : TransportEvent) : Bool :=
  event.isError || !q.method.isStream || event.isFinalStatus

/-- The operation will take the request out of `callback_info`. -/
def Request.Removes (q : Request) (r : Nat) : Op → Prop
  | .look r' event => r' = r ∧ q.over event = true
  | .method r' event => r' = r ∧ q.over event = true
  | .enter r' event => r' = r ∧ q.method.isStream = true ∧ event.isFinalStatus = true
  | .unregister r' => r' = r
  | _ => False

/-- The operation will resolve the completion. -/
def Request.Resolves (q : Request) (r : Nat) : Op → Prop
  | .enter r' event => r' = r ∧ (event.isError || !q.method.isStream) = true
  | .resolve r' _ => r' = r
  | _ => False

namespace DefaultClient

/-- Some thread has yet to do such an operation. -/
def Has (c : DefaultClient) (P : Op → Prop) : Prop :=
  ∃ id s, c.stackOf id = some s ∧ ∃ op ∈ s, P op

/-- A call of `close` has not returned. -/
def closing (c : DefaultClient) : Bool := c.threads.any (·.any Op.isReturned)

/-- A call of `close` has yet to drain `request_data`. -/
def draining (c : DefaultClient) : Bool := c.threads.any (·.any Op.isDrain)

end DefaultClient

namespace DefaultClient

variable {d : Decoder} {c c' : DefaultClient} {id : ThreadId} {s rest new : List Op} {op : Op}
  {choice : Choice} {l : ClientLabel} {r : Nat} {q q' : Request} {P : Op → Prop}

theorem closing_of_mem (found : c.stackOf id = some s) (mem : Op.returned ∈ s) :
    c.closing = true :=
  any_eq_true.mpr ⟨s, mem_threads found, any_eq_true.mpr ⟨_, mem, rfl⟩⟩

theorem draining_of_mem (found : c.stackOf id = some s) (mem : Op.drain ∈ s) :
    c.draining = true :=
  any_eq_true.mpr ⟨s, mem_threads found, any_eq_true.mpr ⟨_, mem, rfl⟩⟩

/-! ### What an operation does to a request -/

/-- The operation takes the request out of `callback_info`. -/
def Clears (r : Nat) (op : Op) (q : Request) : Prop :=
  op = .unregister r ∨
    ∃ event, op = .method r event ∧ (event.isError || !q.method.isStream) = true

/-- How a request changes by an operation. -/
structure Effect (r : Nat) (op : Op) (q q' : Request) : Prop where
  call : q'.call = q.call
  task : q'.task = q.task
  method : q'.method = q.method
  info : (q'.inCallbackInfo = q.inCallbackInfo ∧ ¬Clears r op q) ∨
    (q'.inCallbackInfo = false ∧ Clears r op q)
  replied : (q'.completion = q.completion ∧ q'.replies = q.replies ∧
      ((∃ reply, op = .resolve r reply) → q.completion = false)) ∨
    (∃ reply, op = .resolve r reply ∧ q.completion = true ∧ q'.completion = false ∧
      q'.replies = q.replies ++ [reply])
  data : (q'.inRequestData = q.inRequestData ∧ q'.taken = q.taken ∧
      (op = .drain → q.inRequestData = false)) ∨
    (op = .drain ∧ q.inRequestData = true ∧ q'.inRequestData = false ∧ q'.taken = true)

theorem Effect.refl (q : Request) (clears : ¬Clears r op q)
    (resolves : ∀ reply, op ≠ .resolve r reply) (drains : op ≠ .drain) : Effect r op q q where
  call := rfl
  task := rfl
  method := rfl
  info := .inl ⟨rfl, clears⟩
  replied := .inl ⟨rfl, rfl, fun ⟨reply, same⟩ => absurd same (resolves reply)⟩
  data := .inl ⟨rfl, rfl, fun same => absurd same drains⟩

theorem update_cases {r₀ : Nat} {f : Request → Request} (at_r : (c.update r₀ f).requests[r]? = some q') :
    ∃ q, c.requests[r]? = some q ∧ ((r₀ = r ∧ q' = f q) ∨ (r₀ ≠ r ∧ q' = q)) := by
  rw [getElem?_update] at at_r
  obtain ⟨q, there, rfl⟩ := Option.map_eq_some_iff.mp at_r
  refine ⟨q, there, ?_⟩
  by_cases same : r₀ = r
  · exact .inl ⟨same, if_pos same⟩
  · exact .inr ⟨same, if_neg same⟩

theorem receive_effect (q : Request) (event : TransportEvent) :
    Effect r (.enter r event) q (q.receive r event).1 := by
  have clears : ¬Clears r (.enter r event) q := by
    rintro (same | ⟨_, same, -⟩) <;> cases same
  unfold Request.receive
  split
  · split
    · exact .refl q clears (fun _ same => by cases same) (fun same => by cases same)
    · exact .refl q clears (fun _ same => by cases same) (fun same => by cases same)
  · dsimp only
    split
    all_goals
      exact ⟨rfl, rfl, rfl, .inl ⟨rfl, clears⟩, .inl ⟨rfl, rfl, by rintro ⟨_, ⟨⟩⟩⟩,
        .inl ⟨rfl, rfl, nofun⟩⟩

theorem Ran.effect (ran : c.Ran op c' new) (at_r : c'.requests[r]? = some q') :
    ∃ q, c.requests[r]? = some q ∧ Effect r op q q' := by
  cases ran with
  | @remove r₀ event q₀ at₀ isOver =>
    obtain ⟨q, there, ⟨rfl, rfl⟩ | ⟨other, rfl⟩⟩ := update_cases at_r
    · cases at₀.symm.trans there
      exact ⟨q₀, there, rfl, rfl, rfl, .inr ⟨rfl, .inr ⟨event, rfl, isOver⟩⟩,
        .inl ⟨rfl, rfl, by rintro ⟨_, ⟨⟩⟩⟩,
        .inl ⟨rfl, rfl, (by simp)⟩⟩
    · refine ⟨q', there, .refl q' ?_ (fun _ same => by cases same) (fun same => by cases same)⟩
      rintro (same | ⟨_, same, -⟩) <;> cases same
      exact other rfl
  | @keep r₀ event q₀ at₀ stream =>
    refine ⟨q', at_r, .refl q' ?_ (fun _ same => by cases same) (fun same => by cases same)⟩
    rintro (same | ⟨_, same, isOver⟩) <;> cases same
    cases at₀.symm.trans at_r
    cases stream.symm.trans isOver
  | @enter r₀ event q₀ at₀ =>
    obtain ⟨q, there, ⟨rfl, rfl⟩ | ⟨other, rfl⟩⟩ := update_cases at_r
    · exact ⟨q, there, receive_effect q event⟩
    · refine ⟨q', there, .refl q' ?_ (fun _ same => by cases same) (fun same => by cases same)⟩
      rintro (same | ⟨_, same, -⟩) <;> cases same
  | resolve r₀ reply =>
    have clears : ∀ q, ¬Clears r (.resolve r₀ reply) q := by
      rintro q (same | ⟨_, same, -⟩) <;> cases same
    obtain ⟨q, there, ⟨rfl, rfl⟩ | ⟨other, rfl⟩⟩ := update_cases at_r
    · refine ⟨q, there, ?_⟩
      rw [Request.resolve]
      split
      · rename_i present
        exact ⟨rfl, rfl, rfl, .inl ⟨rfl, clears q⟩, .inr ⟨reply, rfl, present, rfl, rfl⟩,
          .inl ⟨rfl, rfl, fun same => by cases same⟩⟩
      · rename_i absent
        exact ⟨rfl, rfl, rfl, .inl ⟨rfl, clears q⟩,
          .inl ⟨rfl, rfl, fun _ => (Bool.not_eq_true _).mp absent⟩,
          .inl ⟨rfl, rfl, (by simp)⟩⟩
    · refine ⟨q', there, .refl q' (clears q') (fun _ same => ?_) (by simp)⟩
      cases same
      exact other rfl
  | unregister r₀ =>
    obtain ⟨q, there, ⟨rfl, rfl⟩ | ⟨other, rfl⟩⟩ := update_cases at_r
    · exact ⟨q, there, rfl, rfl, rfl, .inr ⟨rfl, .inl rfl⟩, .inl ⟨rfl, rfl, by rintro ⟨_, ⟨⟩⟩⟩,
        .inl ⟨rfl, rfl, fun same => by cases same⟩⟩
    · refine ⟨q', there, .refl q' ?_ (fun _ same => by cases same) (fun same => by cases same)⟩
      rintro (same | ⟨_, same, -⟩) <;> cases same
      exact other rfl
  | drain all =>
    have clears : ∀ q, ¬Clears r .drain q := by
      rintro q (same | ⟨_, same, -⟩) <;> cases same
    replace at_r : (c.requests.map Request.drain)[r]? = some q' := at_r
    rw [getElem?_map] at at_r
    obtain ⟨q, there, rfl⟩ := Option.map_eq_some_iff.mp at_r
    refine ⟨q, there, ?_⟩
    rw [Request.drain]
    split
    · rename_i pending
      exact ⟨rfl, rfl, rfl, .inl ⟨rfl, clears q⟩,
        .inl ⟨rfl, rfl, by rintro ⟨_, ⟨⟩⟩⟩, .inr ⟨rfl, pending, rfl, rfl⟩⟩
    · rename_i absent
      exact ⟨rfl, rfl, rfl, .inl ⟨rfl, clears q⟩, .inl ⟨rfl, rfl, by rintro ⟨_, ⟨⟩⟩⟩,
        .inl ⟨rfl, rfl, fun _ => (Bool.not_eq_true _).mp absent⟩⟩
  | _ =>
    refine ⟨q', at_r, .refl q' ?_ (fun _ same => by cases same) (fun same => by cases same)⟩
    rintro (same | ⟨_, same, -⟩) <;> cases same

/-! ### What a delivery still has to do -/

section Receive

variable {event : TransportEvent}

theorem receive_failed {e : String} (plain : event.isError = false)
    (failed : (handlerSuccessResp q.method q.mgr event).2 = .error e) :
    (q.receive r event).2 = [.unregister r, .resolve r abandoned, .leave r] := by
  cases event with
  | error code info => cases plain
  | _ =>
    simp only [Request.receive]
    rw [failed]

theorem receive_handled {handled : Handled} (plain : event.isError = false)
    (success : (handlerSuccessResp q.method q.mgr event).2 = .ok handled) :
    (q.receive r event).2 = (if handled.called then [.user, .user] else []) ++
      (handled.reply.map (Op.resolve r)).toList ++
      (if handled.ended then [.unregister r] else []) ++ [.leave r] := by
  cases event with
  | error code info => cases plain
  | _ =>
    simp only [Request.receive]
    rw [success]

/-- An error, an event that is abandoned and one that is handled. -/
theorem receive_cases (r : Nat) (q : Request) (event : TransportEvent) :
    (∃ reply users, event.isError = true ∧ (∀ op ∈ users, op = Op.user) ∧
      (q.receive r event).2 = users ++ [.resolve r reply, .leave r]) ∨
    (event.isError = false ∧
      (q.receive r event).2 = [.unregister r, .resolve r abandoned, .leave r]) ∨
    ∃ handled users, event.isError = false ∧
      (handlerSuccessResp q.method q.mgr event).2 = .ok handled ∧ (∀ op ∈ users, op = Op.user) ∧
      (q.receive r event).2 = users ++ (handled.reply.map (Op.resolve r)).toList ++
        (if handled.ended then [.unregister r] else []) ++ [.leave r] := by
  cases plain : event.isError with
  | true =>
    left
    cases event with
    | error code info =>
      rw [Request.receive]
      split
      · exact ⟨_, [], rfl, fun _ mem => (by cases mem), rfl⟩
      · refine ⟨_, _, rfl, fun op mem => ?_, rfl⟩
        split at mem
        · exact mem_singleton.mp mem
        · cases mem
    | _ => cases plain
  | false =>
    right
    cases handled : (handlerSuccessResp q.method q.mgr event).2 with
    | error e => exact .inl ⟨rfl, receive_failed plain handled⟩
    | ok value =>
      refine .inr ⟨value, _, rfl, rfl, fun op mem => ?_, receive_handled plain handled⟩
      split at mem
      · rcases mem_cons.mp mem with rfl | mem
        · rfl
        · exact mem_singleton.mp mem
      · cases mem

theorem mem_receive (mem : op ∈ (q.receive r event).2) :
    op = .user ∨ (∃ reply, op = .resolve r reply) ∨ op = .unregister r ∨ op = .leave r := by
  rcases receive_cases r q event with ⟨reply, users, -, user, ops⟩ | ⟨-, ops⟩ |
    ⟨handled, users, -, -, user, ops⟩
  · rw [ops] at mem
    rcases mem_append.mp mem with mem | mem
    · exact .inl (user op mem)
    · rcases mem_cons.mp mem with rfl | mem
      · exact .inr (.inl ⟨_, rfl⟩)
      · exact .inr (.inr (.inr (mem_singleton.mp mem)))
  · rw [ops] at mem
    rcases mem_cons.mp mem with rfl | mem
    · exact .inr (.inr (.inl rfl))
    · rcases mem_cons.mp mem with rfl | mem
      · exact .inr (.inl ⟨_, rfl⟩)
      · exact .inr (.inr (.inr (mem_singleton.mp mem)))
  · rw [ops, mem_append, mem_append, mem_append] at mem
    rcases mem with ((mem | mem) | mem) | mem
    · exact .inl (user op mem)
    · obtain ⟨reply, -, rfl⟩ := Option.map_eq_some_iff.mp (Option.mem_toList.mp mem)
      exact .inr (.inl ⟨reply, rfl⟩)
    · split at mem
      · exact .inr (.inr (.inl (mem_singleton.mp mem)))
      · cases mem
    · exact .inr (.inr (.inr (mem_singleton.mp mem)))

theorem resolve_mem_handled {handled : Handled} {users : List Op} {reply : Reply}
    (replied : handled.reply = some reply) :
    Op.resolve r reply ∈ users ++ (handled.reply.map (Op.resolve r)).toList ++
      (if handled.ended then [.unregister r] else []) ++ [.leave r] := by
  rw [replied]
  exact mem_append_left _ (mem_append_left _ (mem_append_right _ mem_cons_self))

theorem resolve_mem_receive (isOver : (event.isError || !q.method.isStream) = true) :
    ∃ reply, Op.resolve r reply ∈ (q.receive r event).2 := by
  rcases receive_cases r q event with ⟨reply, users, -, -, ops⟩ | ⟨-, ops⟩ |
    ⟨handled, users, plain, success, -, ops⟩
  · exact ⟨reply, by rw [ops]; exact mem_append_right _ mem_cons_self⟩
  · exact ⟨abandoned, by rw [ops]; exact mem_cons_of_mem _ mem_cons_self⟩
  · rw [plain, Bool.false_or, Bool.not_eq_true'] at isOver
    obtain ⟨reply, replied⟩ := Option.isSome_iff_exists.mp (reply_of_handlerSuccessResp isOver success)
    exact ⟨reply, by rw [ops]; exact resolve_mem_handled replied⟩

theorem unregister_mem_receive (stream : q.method.isStream = true)
    (final : event.isFinalStatus = true) : Op.unregister r ∈ (q.receive r event).2 := by
  rcases receive_cases r q event with ⟨reply, users, error, -⟩ | ⟨-, ops⟩ |
    ⟨handled, users, plain, success, -, ops⟩
  · cases event with
    | error code info => cases final
    | _ => cases error
  · rw [ops]
    exact mem_cons_self
  · rw [ops, (ended_of_handlerSuccessResp stream final success).1]
    exact mem_append_left _ (mem_append_right _ mem_cons_self)

theorem resolve_of_unregister (mem : Op.unregister r ∈ (q.receive r event).2) :
    ∃ reply, Op.resolve r reply ∈ (q.receive r event).2 := by
  rcases receive_cases r q event with ⟨reply, users, -, -, ops⟩ | ⟨-, ops⟩ |
    ⟨handled, users, -, success, user, ops⟩
  · exact ⟨reply, by rw [ops]; exact mem_append_right _ mem_cons_self⟩
  · exact ⟨abandoned, by rw [ops]; exact mem_cons_of_mem _ mem_cons_self⟩
  · have ended : handled.ended = true := by
      rw [ops, mem_append, mem_append, mem_append] at mem
      rcases mem with ((mem | mem) | mem) | mem
      · cases user _ mem
      · obtain ⟨reply, -, same⟩ := Option.map_eq_some_iff.mp (Option.mem_toList.mp mem)
        cases same
      · split at mem
        · assumption
        · cases mem
      · cases mem_singleton.mp mem
    obtain ⟨reply, replied⟩ := Option.isSome_iff_exists.mp (reply_of_ended success ended)
    exact ⟨reply, by rw [ops]; exact resolve_mem_handled replied⟩

end Receive

/-! ### The invariant -/

/-- The operations of a stack stand where they may. -/
def Placed (c : DefaultClient) (id : ThreadId) : List Op → Prop
  | [] => True
  | op :: rest =>
    (op = .setClosed ∨ op = .cancel → Op.drain ∈ rest) ∧ (op = .drain → Op.returned ∈ rest) ∧
      (∀ r, op.about r = true → id = .task r ∨
        ((∃ q, c.requests[r]? = some q ∧ q.taken = true) ∧ Op.returned ∈ rest)) ∧
      Placed c id rest

/-- Where the requests are and who owes their callers an event. -/
structure Tracked (c : DefaultClient) : Prop where
  replies : ∀ (r : Nat) (q : Request), c.requests[r]? = some q →
    q.replies.length = if q.completion then 0 else 1
  early : ∀ (r : Nat) (q : Request), c.requests[r]? = some q → q.call.early = true →
    q.inRequestData = false ∧ q.completion = true ∧ q.task = .unspawned ∧
      (q.call = .registering ∨ q.inCallbackInfo = true) ∧ ¬c.Has (·.about r = true)
  untaken : ∀ (r : Nat) (q : Request), c.requests[r]? = some q →
    q.call.early = true ∨ q.inRequestData = true → q.taken = false
  spawning : ∀ (r : Nat) (q : Request), c.requests[r]? = some q → q.call = .spawning →
    q.task = .unspawned ∧ (q.inRequestData = true ∨ q.taken = true)
  running : ∀ (r : Nat) (q : Request), c.requests[r]? = some q → q.task ≠ .unspawned →
    q.task ≠ .ended → q.inRequestData = true ∨ q.taken = true
  ended : ∀ (r : Nat) (q : Request), c.requests[r]? = some q → q.task = .ended →
    q.inRequestData = false ∧ (q.taken = false ∨ q.Settled)
  placed : ∀ (id : ThreadId) (s : List Op), c.stackOf id = some s → c.Placed id s
  unregisters : ∀ (r : Nat) (q : Request) (id : ThreadId) (s : List Op),
    c.requests[r]? = some q → c.stackOf id = some s → Op.unregister r ∈ s →
    q.completion = false ∨ ∃ reply, Op.resolve r reply ∈ s
  removes : ∀ (r : Nat) (q : Request), c.requests[r]? = some q → q.call.early = false →
    q.inCallbackInfo = true → q.inRequestData = false → c.Has (q.Removes r)
  resolves : ∀ (r : Nat) (q : Request), c.requests[r]? = some q → q.call.early = false →
    q.completion = true → q.inCallbackInfo = false → c.Has (q.Resolves r)
  drains : ∀ (r : Nat) (q : Request), c.requests[r]? = some q → q.inRequestData = true →
    (c.closed || c.cancelled) = true → c.draining = true

theorem Placed.returned_of_about (placed : c.Placed id s) (mem : op ∈ s) (about : op.about r = true) :
    id = .task r ∨ ((∃ q, c.requests[r]? = some q ∧ q.taken = true) ∧ Op.returned ∈ s) := by
  induction s with
  | nil => cases mem
  | cons first rest ih =>
    obtain ⟨-, -, here, below⟩ := placed
    rcases mem_cons.mp mem with rfl | mem
    · rcases here r about with own | ⟨taken, returned⟩
      · exact .inl own
      · exact .inr ⟨taken, mem_cons_of_mem _ returned⟩
    · rcases ih below mem with own | ⟨taken, returned⟩
      · exact .inl own
      · exact .inr ⟨taken, mem_cons_of_mem _ returned⟩

theorem Placed.returned_of_drain (placed : c.Placed id s) (mem : Op.drain ∈ s) : Op.returned ∈ s := by
  induction s with
  | nil => cases mem
  | cons first rest ih =>
    obtain ⟨-, here, -, below⟩ := placed
    rcases mem_cons.mp mem with rfl | mem
    · exact mem_cons_of_mem _ (here rfl)
    · exact mem_cons_of_mem _ (ih below mem)

theorem about_of_removes (removes : q.Removes r op) : op.about r = true := by
  cases op with
  | look r' event => exact beq_iff_eq.mpr removes.1
  | method r' event => exact beq_iff_eq.mpr removes.1
  | enter r' event => exact beq_iff_eq.mpr removes.1
  | unregister r' => exact beq_iff_eq.mpr removes
  | _ => exact removes.elim

theorem removes_congr (same : q'.method = q.method) : q'.Removes r = q.Removes r := by
  funext op
  cases op <;> simp only [Request.Removes, Request.over, same]

theorem resolves_congr (same : q'.method = q.method) : q'.Resolves r = q.Resolves r := by
  funext op
  cases op <;> simp only [Request.Resolves, same]

theorem about_of_resolves (resolves : q.Resolves r op) : op.about r = true := by
  cases op with
  | enter r' event => exact beq_iff_eq.mpr resolves.1
  | resolve r' reply => exact beq_iff_eq.mpr resolves
  | _ => exact resolves.elim

theorem Tracked.closing_of_draining (tracked : c.Tracked) (draining : c.draining = true) :
    c.closing = true := by
  obtain ⟨s, mem, drains⟩ := any_eq_true.mp draining
  obtain ⟨op, there, isDrain⟩ := any_eq_true.mp drains
  obtain ⟨id, found⟩ := stackOf_of_mem mem
  have same : op = .drain := by
    cases op with
    | drain => rfl
    | _ => cases isDrain
  subst same
  exact closing_of_mem found ((tracked.placed id s found).returned_of_drain there)

/-- Where nobody has anything to do for a request any more, its call is settled. -/
theorem Tracked.settled (tracked : c.Tracked) (at_r : c.requests[r]? = some q)
    (late : q.call.early = false) (gone : q.inRequestData = false)
    (done : ¬c.Has (·.about r = true)) : q.Settled := by
  have info : q.inCallbackInfo = false := by
    by_contra there
    obtain ⟨id, s, found, op, mem, removes⟩ :=
      tracked.removes r q at_r late ((Bool.not_eq_false _).mp there) gone
    exact done ⟨id, s, found, op, mem, about_of_removes removes⟩
  have completed : q.completion = false := by
    by_contra open_
    obtain ⟨id, s, found, op, mem, resolves⟩ :=
      tracked.resolves r q at_r late ((Bool.not_eq_false _).mp open_) info
    exact done ⟨id, s, found, op, mem, about_of_resolves resolves⟩
  refine ⟨gone, info, ?_⟩
  rw [tracked.replies r q at_r, completed]
  rfl

theorem Tracked.settled_of_ended (tracked : c.Tracked) (at_r : c.requests[r]? = some q)
    (ended : q.task = .ended) (idle : q.stack = []) : q.Settled := by
  obtain ⟨gone, own | settled⟩ := tracked.ended r q at_r ended
  · have late : q.call.early = false := by
      by_contra early
      obtain ⟨-, -, unspawned, -⟩ := tracked.early r q at_r ((Bool.not_eq_false _).mp early)
      cases ended.symm.trans unspawned
    refine tracked.settled at_r late gone ?_
    rintro ⟨id, s, found, op, mem, about⟩
    rcases (tracked.placed id s found).returned_of_about mem about with rfl | ⟨⟨q₀, at₀, taken⟩, -⟩
    · rw [stackOf, at_r, Option.map_some, idle] at found
      cases found
      cases mem
    · cases at_r.symm.trans at₀
      cases own.symm.trans taken
  · exact settled

/-! ### Operations keep it -/

theorem setStack_request (at_r : (c.setStack s id).requests[r]? = some q') :
    ∃ q stack, c.requests[r]? = some q ∧ q' = { q with stack } := by
  cases id with
  | task r₀ =>
    obtain ⟨q, there, ⟨-, rfl⟩ | ⟨-, rfl⟩⟩ := update_cases at_r
    · exact ⟨q, s, there, rfl⟩
    · exact ⟨q', q'.stack, there, rfl⟩
  | _ => exact ⟨q', q'.stack, at_r, rfl⟩

theorem Ran.effect_setStack (ran : c.Ran op c' new)
    (at_r : (c'.setStack s id).requests[r]? = some q') :
    ∃ q, c.requests[r]? = some q ∧ Effect r op q q' := by
  obtain ⟨q₁, stack, there, rfl⟩ := setStack_request at_r
  obtain ⟨q, before, effect⟩ := ran.effect there
  exact ⟨q, before, effect.call, effect.task, effect.method, effect.info, effect.replied, effect.data⟩

section Operation

variable (found : c.stackOf id = some (op :: rest)) (ran : c.Ran op c' new)

include found ran

theorem stackOf_operation (id' : ThreadId) : (c'.setStack (new ++ rest) id).stackOf id' =
    if id' = id then some (new ++ rest) else c.stackOf id' := by
  split
  · rename_i same
    subst same
    exact stackOf_setStack_self ((ran.stackOf id').trans found) _
  · rename_i other
    exact (stackOf_setStack_ne other _).trans (ran.stackOf id')

theorem has_new {x : Op} (mem : x ∈ new) (holds : P x) : (c'.setStack (new ++ rest) id).Has P := by
  refine ⟨id, new ++ rest, ?_, x, mem_append_left _ mem, holds⟩
  rw [stackOf_operation found ran, if_pos rfl]

theorem has_rest {x : Op} (mem : x ∈ rest) (holds : P x) : (c'.setStack (new ++ rest) id).Has P := by
  refine ⟨id, new ++ rest, ?_, x, mem_append_right _ mem, holds⟩
  rw [stackOf_operation found ran, if_pos rfl]

/-- What was to do is still to do, unless it is done now. -/
theorem Has.operation (has : c.Has P) : P op ∨ (c'.setStack (new ++ rest) id).Has P := by
  obtain ⟨id', s, there, x, mem, holds⟩ := has
  by_cases same : id' = id
  · subst same
    cases found.symm.trans there
    rcases mem_cons.mp mem with rfl | mem
    · exact .inl holds
    · exact .inr (has_rest found ran mem holds)
  · right
    refine ⟨id', s, ?_, x, mem, holds⟩
    rw [stackOf_operation found ran, if_neg same]
    exact there

theorem has_of_operation (has : (c'.setStack (new ++ rest) id).Has P) : c.Has P ∨ ∃ x ∈ new, P x := by
  obtain ⟨id', s, there, x, mem, holds⟩ := has
  rw [stackOf_operation found ran] at there
  split at there
  · cases there
    rcases mem_append.mp mem with mem | mem
    · exact .inr ⟨x, mem, holds⟩
    · exact .inl ⟨id, _, found, x, mem_cons_of_mem _ mem, holds⟩
  · exact .inl ⟨id', s, there, x, mem, holds⟩

end Operation

theorem draining_iff : c.draining = true ↔ c.Has (· = .drain) := by
  constructor
  · intro draining
    obtain ⟨s, mem, drains⟩ := any_eq_true.mp draining
    obtain ⟨op, there, isDrain⟩ := any_eq_true.mp drains
    obtain ⟨id, found⟩ := stackOf_of_mem mem
    refine ⟨id, s, found, op, there, ?_⟩
    cases op with
    | drain => rfl
    | _ => cases isDrain
  · rintro ⟨id, s, found, op, mem, rfl⟩
    exact draining_of_mem found mem

theorem mem_pending (at_r : c.requests[r]? = some q) (there : q.inRequestData = true) :
    r ∈ c.pending := by
  refine List.mem_filter.mpr ⟨List.mem_range.mpr (List.getElem?_eq_some_iff.mp at_r).1, ?_⟩
  rw [at_r]
  exact there

theorem of_mem_pending (mem : r ∈ c.pending) :
    ∃ q, c.requests[r]? = some q ∧ q.inRequestData = true := by
  obtain ⟨below, there⟩ := mem_filter.mp mem
  have at_r := getElem?_eq_getElem (mem_range.mp below)
  refine ⟨_, at_r, ?_⟩
  rw [at_r] at there
  exact there

/-- The new operations of a delivery are about its request, or about those a drain takes. -/
theorem Ran.about (ran : c.Ran op c' new) {x : Op} (mem : x ∈ new) (about : x.about r = true) :
    op.about r = true ∨ (op = .drain ∧ ∃ q, c.requests[r]? = some q ∧ q.inRequestData = true) := by
  cases ran with
  | found =>
    cases mem_singleton.mp mem
    exact .inl about
  | remove =>
    cases mem_singleton.mp mem
    exact .inl about
  | keep =>
    cases mem_singleton.mp mem
    exact .inl about
  | enter =>
    left
    rcases mem_receive mem with rfl | ⟨reply, rfl⟩ | rfl | rfl
    · cases about
    · exact about
    · exact about
    · exact about
  | user calls =>
    obtain ⟨call, -, there⟩ := mem_flatMap.mp mem
    cases call with
    | close => fin_cases there <;> cases about
    | pendingRequests =>
      fin_cases there
      cases about
  | drain all =>
    obtain ⟨r', there, rfl⟩ := mem_map.mp mem
    cases beq_iff_eq.mp about
    exact .inr ⟨rfl, of_mem_pending (all.mem_iff.mp there)⟩
  | _ => cases mem

theorem Placed.mono (placed : c.Placed id s)
    (kept : ∀ (r : Nat) (q : Request), c.requests[r]? = some q → q.taken = true →
      ∃ q', c'.requests[r]? = some q' ∧ q'.taken = true) : c'.Placed id s := by
  induction s with
  | nil => trivial
  | cons op rest ih =>
    obtain ⟨closes, drains, abouts, below⟩ := placed
    refine ⟨closes, drains, fun r about => ?_, ih below⟩
    rcases abouts r about with own | ⟨⟨q, at_r, taken⟩, returned⟩
    · exact .inl own
    · exact .inr ⟨kept r q at_r taken, returned⟩

variable (placed : c.Placed id rest)

include placed

theorem Placed.push {ops : List Op} (plain : ∀ x ∈ ops, x.closes = false)
    (abouts : ∀ x ∈ ops, ∀ r, x.about r = true → id = .task r ∨
      ((∃ q, c.requests[r]? = some q ∧ q.taken = true) ∧ Op.returned ∈ rest)) :
    c.Placed id (ops ++ rest) := by
  induction ops with
  | nil => exact placed
  | cons x ops ih =>
    have plain_ := plain x mem_cons_self
    refine ⟨?_, ?_, fun r about => ?_, ih (fun y mem => plain y (mem_cons_of_mem _ mem))
      (fun y mem => abouts y (mem_cons_of_mem _ mem))⟩
    · rintro (rfl | rfl) <;> cases plain_
    · rintro rfl
      cases plain_
    · rcases abouts x mem_cons_self r about with own | ⟨taken, returned⟩
      · exact .inl own
      · exact .inr ⟨taken, mem_append_right _ returned⟩

theorem Placed.push_close : c.Placed id (UserCall.close.ops ++ rest) := by
  refine ⟨fun _ => ?_, nofun, nofun, ?_⟩
  · exact mem_cons_of_mem _ mem_cons_self
  refine ⟨fun _ => ?_, nofun, nofun, ?_⟩
  · exact mem_cons_self
  refine ⟨fun same => ?_, fun _ => ?_, nofun, ?_⟩
  · rcases same with same | same <;> cases same
  · exact mem_cons_self
  refine ⟨fun same => ?_, nofun, nofun, placed⟩
  rcases same with same | same <;> cases same

theorem Placed.push_user (calls : List UserCall) :
    c.Placed id (calls.flatMap UserCall.ops ++ rest) := by
  induction calls with
  | nil => exact placed
  | cons call calls ih =>
    cases call with
    | close => exact ih.push_close
    | pendingRequests =>
      refine ⟨fun same => ?_, nofun, nofun, ih⟩
      rcases same with same | same <;> cases same

omit placed

theorem Ran.length (ran : c.Ran op c' new) : c'.requests.length = c.requests.length := by
  cases ran with
  | remove => exact length_modify _ _ _
  | enter => exact length_modify _ _ _
  | resolve => exact length_modify _ _ _
  | unregister => exact length_modify _ _ _
  | drain => exact length_map _
  | _ => rfl

theorem setStack_length (id : ThreadId) (s : List Op) :
    (c.setStack s id).requests.length = c.requests.length := by
  cases id with
  | task r => exact length_modify _ _ _
  | _ => rfl

theorem Tracked.settled_operation (tracked : c.Tracked) (at_r : c.requests[r]? = some q) (settled : q.Settled)
    (effect : Effect r op q q') : q'.Settled := by
  refine ⟨?_, ?_, ?_⟩
  · rcases effect.data with ⟨same, -⟩ | ⟨-, -, gone, -⟩
    · exact same.trans settled.data
    · exact gone
  · rcases effect.info with ⟨same, -⟩ | ⟨gone, -⟩
    · exact same.trans settled.info
    · exact gone
  · rcases effect.replied with ⟨-, same, -⟩ | ⟨reply, -, open_, -⟩
    · rw [same]
      exact settled.replied
    · have none_ := tracked.replies r q at_r
      rw [open_, settled.replied] at none_
      cases none_

theorem setStack_closed (id : ThreadId) (s : List Op) : (c.setStack s id).closed = c.closed := by
  cases id <;> rfl

theorem setStack_cancelled (id : ThreadId) (s : List Op) :
    (c.setStack s id).cancelled = c.cancelled := by
  cases id <;> rfl

theorem Ran.flags (ran : c.Ran op c' new) (other : ¬(op = .setClosed ∨ op = .cancel)) :
    c'.closed = c.closed ∧ c'.cancelled = c.cancelled := by
  cases ran with
  | setClosed => exact absurd (.inl rfl) other
  | cancel => exact absurd (.inr rfl) other
  | _ => exact ⟨rfl, rfl⟩

section Step

variable (tracked : c.Tracked) (found : c.stackOf id = some (op :: rest)) (ran : c.Ran op c' new)

omit tracked found in
include ran in
theorem Ran.request (at_r : c.requests[r]? = some q) :
    ∃ q', (c'.setStack s id).requests[r]? = some q' ∧ Effect r op q q' := by
  have below : r < (c'.setStack s id).requests.length := by
    rw [setStack_length, ran.length]
    exact (List.getElem?_eq_some_iff.mp at_r).1
  have there := List.getElem?_eq_getElem below
  obtain ⟨q₀, at₀, effect⟩ := ran.effect_setStack there
  cases at_r.symm.trans at₀
  exact ⟨_, there, effect⟩

omit tracked found in
include ran in
theorem Ran.taken (r : Nat) (q : Request) (at_r : c.requests[r]? = some q) (taken : q.taken = true) :
    ∃ q', (c'.setStack s id).requests[r]? = some q' ∧ q'.taken = true := by
  obtain ⟨q', there, effect⟩ := ran.request at_r
  refine ⟨q', there, ?_⟩
  rcases effect.data with ⟨-, same, -⟩ | ⟨-, -, -, now⟩
  · exact same.trans taken
  · exact now

include tracked found ran

theorem Tracked.placed_operation : (c'.setStack (new ++ rest) id).Placed id (new ++ rest) := by
  obtain ⟨closes, drains, abouts, below⟩ := tracked.placed id _ found
  have rest_ : (c'.setStack (new ++ rest) id).Placed id rest := below.mono ran.taken
  -- operations about the request that the head is about
  have same : (∀ x ∈ new, x.closes = false) → op.closes = false →
      (c'.setStack (new ++ rest) id).Placed id (new ++ rest) := by
    intro plain other
    refine rest_.push plain fun x mem r about => ?_
    rcases ran.about mem about with about_ | ⟨rfl, -⟩
    · rcases abouts r about_ with own | ⟨⟨q, at_r, taken⟩, returned⟩
      · exact .inl own
      · exact .inr ⟨ran.taken r q at_r taken, returned⟩
    · cases other
  have single : ∀ {x : Op}, x.closes = false → ∀ y ∈ [x], y.closes = false := by
    intro x plain y mem
    cases mem_singleton.mp mem
    exact plain
  have again := ran
  cases ran with
  | found => exact same (single rfl) rfl
  | remove => exact same (single rfl) rfl
  | keep => exact same (single rfl) rfl
  | enter =>
    refine same (fun x mem => ?_) rfl
    rcases mem_receive mem with rfl | ⟨reply, rfl⟩ | rfl | rfl
    all_goals rfl
  | user calls => exact rest_.push_user calls
  | drain all =>
    refine rest_.push (fun x mem => ?_) fun x mem r about => .inr ⟨?_, drains rfl⟩
    · obtain ⟨r, -, rfl⟩ := mem_map.mp mem
      rfl
    · rcases again.about mem about with none_ | ⟨-, q, at_r, pending⟩
      · cases none_
      · obtain ⟨q', there, effect⟩ := again.request at_r
        refine ⟨q', there, ?_⟩
        rcases effect.data with ⟨-, -, gone⟩ | ⟨-, -, -, taken⟩
        · cases (gone rfl).symm.trans pending
        · exact taken
  | _ => exact rest_

variable (at_r : c.requests[r]? = some q)

include at_r

theorem Tracked.removes_operation (late : q.call.early = false)
    (effect : Effect r op q q') (there : q'.inCallbackInfo = true) (gone : q'.inRequestData = false) :
    (c'.setStack (new ++ rest) id).Has (q.Removes r) := by
  obtain ⟨info, clears⟩ : q.inCallbackInfo = true ∧ ¬Clears r op q := by
    rcases effect.info with ⟨same, clears⟩ | ⟨cleared, -⟩
    · exact ⟨same.symm.trans there, clears⟩
    · cases cleared.symm.trans there
  rcases effect.data with ⟨data, -⟩ | ⟨rfl, pending, -⟩
  · rcases (tracked.removes r q at_r late info (data.symm.trans gone)).operation found ran with
      removes | has
    · have again := ran
      cases ran with
      | @found r₀ event q₀ free at₀ registered =>
        exact has_new found again (mem_singleton.mpr rfl) removes
      | @missing r₀ event q₀ at₀ absent =>
        obtain ⟨rfl, -⟩ := removes
        cases at_r.symm.trans at₀
        cases info.symm.trans absent
      | @remove r₀ event q₀ at₀ isOver =>
        obtain ⟨rfl, -⟩ := removes
        cases at_r.symm.trans at₀
        exact absurd (.inr ⟨event, rfl, isOver⟩) clears
      | @keep r₀ event q₀ at₀ stream =>
        obtain ⟨rfl, isOver⟩ := removes
        cases at_r.symm.trans at₀
        refine has_new found again (mem_singleton.mpr rfl) ⟨rfl, ?_, ?_⟩
        · exact (Bool.not_eq_false' _).mp (Bool.or_eq_false_iff.mp stream).2
        · rw [Request.over, stream] at isOver
          exact isOver
      | @enter r₀ event q₀ at₀ =>
        obtain ⟨rfl, stream, final⟩ := removes
        cases at_r.symm.trans at₀
        exact has_new found again (unregister_mem_receive stream final) rfl
      | unregister r₀ =>
        cases removes
        exact absurd (.inl rfl) clears
      | _ => exact removes.elim
    · exact has
  · have again := ran
    cases ran with
    | drain all =>
      have mem := all.mem_iff.mpr (mem_pending at_r pending)
      exact has_new found again (mem_map_of_mem mem) ⟨rfl, rfl⟩

theorem Tracked.resolves_operation (late : q.call.early = false)
    (effect : Effect r op q q') (open_ : q'.completion = true) (gone : q'.inCallbackInfo = false) :
    (c'.setStack (new ++ rest) id).Has (q.Resolves r) := by
  obtain ⟨completion, unresolved⟩ : q.completion = true ∧ ∀ reply, op ≠ .resolve r reply := by
    rcases effect.replied with ⟨same, -, used⟩ | ⟨reply, -, -, used, -⟩
    · have there := same.symm.trans open_
      refine ⟨there, fun reply resolves => ?_⟩
      cases (used ⟨reply, resolves⟩).symm.trans there
    · cases used.symm.trans open_
  have again := ran
  rcases effect.info with ⟨same, -⟩ | ⟨-, rfl | ⟨event, rfl, isOver⟩⟩
  · rcases (tracked.resolves r q at_r late completion (same.symm.trans gone)).operation found ran with
      resolves | has
    · cases ran with
      | @enter r₀ event q₀ at₀ =>
        obtain ⟨rfl, isOver⟩ := resolves
        cases at_r.symm.trans at₀
        obtain ⟨reply, mem⟩ := resolve_mem_receive (r := r₀) isOver
        exact has_new found again mem rfl
      | resolve r₀ reply =>
        cases resolves
        exact absurd rfl (unresolved reply)
      | _ => exact resolves.elim
    · exact has
  · rcases tracked.unregisters r q id _ at_r found mem_cons_self with used | ⟨reply, mem⟩
    · cases used.symm.trans completion
    · rcases mem_cons.mp mem with same | mem
      · cases same
      · exact has_rest found ran mem rfl
  · cases ran with
    | remove => exact has_new found again (mem_singleton.mpr rfl) ⟨rfl, isOver⟩
    | keep => exact has_new found again (mem_singleton.mpr rfl) ⟨rfl, isOver⟩

theorem Tracked.unregisters_operation {id' : ThreadId}
    (effect : Effect r op q q') (there : (c'.setStack (new ++ rest) id).stackOf id' = some s)
    (mem : Op.unregister r ∈ s) : q'.completion = false ∨ ∃ reply, Op.resolve r reply ∈ s := by
  -- a completion that is used stays used
  have used : q.completion = false → q'.completion = false := by
    intro used
    rcases effect.replied with ⟨same, -⟩ | ⟨-, -, -, now, -⟩
    · exact same.trans used
    · exact now
  rw [stackOf_operation found ran] at there
  split at there
  · cases there
    rcases mem_append.mp mem with mem | mem
    · cases ran with
      | user calls =>
        obtain ⟨call, -, there⟩ := mem_flatMap.mp mem
        cases call <;> simp [UserCall.ops] at there
      | drain =>
        obtain ⟨_, -, same⟩ := mem_map.mp mem
        cases same
      | @enter r₀ event q₀ at₀ =>
        rcases mem_receive mem with same | ⟨_, same⟩ | same | same
        all_goals cases same
        obtain ⟨reply, there⟩ := resolve_of_unregister mem
        exact .inr ⟨reply, mem_append_left _ there⟩
      | found => cases mem_singleton.mp mem
      | remove => cases mem_singleton.mp mem
      | keep => cases mem_singleton.mp mem
      | _ => cases mem
    · rcases tracked.unregisters r q id _ at_r found (mem_cons_of_mem _ mem) with now | ⟨reply, there⟩
      · exact .inl (used now)
      · rcases mem_cons.mp there with rfl | there
        · left
          rcases effect.replied with ⟨same, -, before⟩ | ⟨-, -, -, now, -⟩
          · exact same.trans (before ⟨reply, rfl⟩)
          · exact now
        · exact .inr ⟨reply, mem_append_right _ there⟩
  · rcases tracked.unregisters r q id' s at_r there mem with now | resolves
    · exact .inl (used now)
    · exact .inr resolves

omit at_r

theorem Tracked.operation : (c'.setStack (new ++ rest) id).Tracked where
  replies r q' at_r := by
    obtain ⟨q, before, effect⟩ := ran.effect_setStack at_r
    rcases effect.replied with ⟨same, replies, -⟩ | ⟨reply, -, open_, used, replies⟩
    · rw [replies, same]
      exact tracked.replies r q before
    · have none_ := tracked.replies r q before
      rw [open_] at none_
      rw [replies, used, length_append, none_]
      rfl
  early r q' at_r early := by
    obtain ⟨q, before, effect⟩ := ran.effect_setStack at_r
    rw [effect.call] at early
    obtain ⟨data, completion, task, place, done⟩ := tracked.early r q before early
    have other : op.about r = false := by
      by_contra about
      exact done ⟨id, _, found, op, mem_cons_self, (Bool.not_eq_false _).mp about⟩
    refine ⟨?_, ?_, effect.task.trans task, ?_, ?_⟩
    · rcases effect.data with ⟨same, -⟩ | ⟨-, -, gone, -⟩
      · exact same.trans data
      · exact gone
    · rcases effect.replied with ⟨same, -⟩ | ⟨reply, rfl, -⟩
      · exact same.trans completion
      · cases other.symm.trans (beq_self_eq_true r)
    · rw [effect.call]
      rcases effect.info with ⟨same, -⟩ | ⟨-, rfl | ⟨event, rfl, -⟩⟩
      · rw [same]
        exact place
      · cases other.symm.trans (beq_self_eq_true r)
      · cases other.symm.trans (beq_self_eq_true r)
    · intro has
      rcases has_of_operation found ran has with before_ | ⟨x, mem, about⟩
      · exact done before_
      · rcases ran.about mem about with about_ | ⟨-, q₀, at₀, pending⟩
        · cases other.symm.trans about_
        · cases before.symm.trans at₀
          cases data.symm.trans pending
  untaken r q' at_r place := by
    obtain ⟨q, before, effect⟩ := ran.effect_setStack at_r
    rw [effect.call] at place
    rcases effect.data with ⟨data, taken, -⟩ | ⟨-, pending, gone, -⟩
    · rw [data] at place
      exact taken.trans (tracked.untaken r q before place)
    · rcases place with early | there
      · cases (tracked.early r q before early).1.symm.trans pending
      · cases gone.symm.trans there
  spawning r q' at_r spawning := by
    obtain ⟨q, before, effect⟩ := ran.effect_setStack at_r
    obtain ⟨task, place⟩ := tracked.spawning r q before (effect.call.symm.trans spawning)
    refine ⟨effect.task.trans task, ?_⟩
    rcases effect.data with ⟨data, taken, -⟩ | ⟨-, -, -, taken⟩
    · rw [data, taken]
      exact place
    · exact .inr taken
  running r q' at_r spawned running := by
    obtain ⟨q, before, effect⟩ := ran.effect_setStack at_r
    rw [effect.task] at spawned running
    rcases effect.data with ⟨data, taken, -⟩ | ⟨-, -, -, taken⟩
    · rw [data, taken]
      exact tracked.running r q before spawned running
    · exact .inr taken
  ended r q' at_r ended := by
    obtain ⟨q, before, effect⟩ := ran.effect_setStack at_r
    obtain ⟨gone, place⟩ := tracked.ended r q before (effect.task.symm.trans ended)
    rcases effect.data with ⟨data, taken, -⟩ | ⟨-, pending, -⟩
    · refine ⟨data.trans gone, ?_⟩
      rcases place with own | settled
      · exact .inl (taken.trans own)
      · exact .inr (tracked.settled_operation before settled effect)
    · cases gone.symm.trans pending
  placed id' s there := by
    rw [stackOf_operation found ran] at there
    split at there
    · rename_i same
      cases there
      rw [same]
      exact tracked.placed_operation found ran
    · exact (tracked.placed id' s there).mono ran.taken
  unregisters r q' id' s at_r there mem := by
    obtain ⟨q, before, effect⟩ := ran.effect_setStack at_r
    exact tracked.unregisters_operation found ran before effect there mem
  removes r q' at_r late there gone := by
    obtain ⟨q, before, effect⟩ := ran.effect_setStack at_r
    rw [effect.call] at late
    have has := tracked.removes_operation found ran before late effect there gone
    rwa [removes_congr effect.method]
  resolves r q' at_r late open_ gone := by
    obtain ⟨q, before, effect⟩ := ran.effect_setStack at_r
    rw [effect.call] at late
    have has := tracked.resolves_operation found ran before late effect open_ gone
    rwa [resolves_congr effect.method]
  drains r q' at_r there closed := by
    obtain ⟨q, before, effect⟩ := ran.effect_setStack at_r
    obtain ⟨pending, other⟩ : q.inRequestData = true ∧ op ≠ .drain := by
      rcases effect.data with ⟨data, -, drains⟩ | ⟨-, -, gone, -⟩
      · refine ⟨data.symm.trans there, fun same => ?_⟩
        cases (drains same).symm.trans (data.symm.trans there)
      · cases gone.symm.trans there
    rw [draining_iff]
    have below := (tracked.placed id _ found).1
    by_cases closes : op = .setClosed ∨ op = .cancel
    · exact has_rest found ran (below closes) rfl
    · have before_ : (c.closed || c.cancelled) = true := by
        rw [← closed, setStack_closed, setStack_cancelled, (ran.flags closes).1, (ran.flags closes).2]
      rcases (draining_iff.mp (tracked.drains r q before pending before_)).operation found ran with
        same | has
      · exact absurd same other
      · exact has

end Step

end DefaultClient

end AgentProtocols.A2A
