import AgentProtocols.A2A.RequestTracking

/-!
Whether every call of the client ends, and ends once: under `DefaultClient.orderly` no call is
given two replies and every call whose task has ended is settled (`every_call_ends`);
`empty_body_leaves_caller` is a stream request answered with an empty JSON body.
-/

namespace AgentProtocols.A2A

open Lib

/-! ### Orderly steps -/

/-- The body of a response is JSON that does not end the request. -/
def Request.leftOpen (d : Decoder) (q : Request) : Choice → Bool
  | .text body =>
    match d.handleJsonBody q.method q.id body with
    | some (.finish _) => false
    | _ => true
  | _ => false

/-- The task ends in the step without an event for the caller. -/
def Request.endsSilently (d : Decoder) (cancelled : Bool) (r : Nat) (q : Request) (choice : Choice) :
    Bool :=
  (q.advance d cancelled r choice).any fun q' => q'.task.isEnded && q'.stack.isEmpty

/-- Requests are inserted before `close` drains, streams end, and no task ends by a pending `close`.
-/
def DefaultClient.orderly (d : Decoder) (c : DefaultClient) : ClientLabel → Bool
  | .callStep r _ =>
    c.requests[r]?.all fun q =>
      match q.call with
      | .inserting => !(c.closed || c.cancelled) || c.draining
      | _ => true
  | .taskStep r choice =>
    c.requests[r]?.all fun q =>
      !q.stack.isEmpty ||
        (!q.leftOpen d choice && (!q.endsSilently d c.cancelled r choice || !c.closing))
  | _ => true

namespace DefaultClient

variable {d : Decoder} {c c' : DefaultClient} {id : ThreadId} {s : List Op} {choice : Choice}
  {l : ClientLabel} {r : Nat} {q q' : Request} {P : Op → Prop}

/-! ### The other steps keep it -/

section Replace

variable (at_r : c.requests[r]? = some q)
  (stack : q'.stack = q.stack ∨ (q.stack = [] ∧ ∃ event, q'.stack = [.look r event]))

include at_r

theorem replace_self : (c.update r fun _ => q').requests[r]? = some q' := by
  rw [getElem?_update, at_r]
  simp only [Option.map_some, if_true]

omit at_r in
theorem replace_cases {r' : Nat} {q₁ : Request}
    (there : (c.update r fun _ => q').requests[r']? = some q₁) :
    (r' = r ∧ q₁ = q') ∨ (r' ≠ r ∧ c.requests[r']? = some q₁) := by
  obtain ⟨q₀, at₀, ⟨rfl, rfl⟩ | ⟨other, rfl⟩⟩ := update_cases there
  · exact .inl ⟨rfl, rfl⟩
  · exact .inr ⟨Ne.symm other, at₀⟩

include stack

theorem stackOf_replaced (there : (c.update r fun _ => q').stackOf id = some s) :
    c.stackOf id = some s ∨ (id = .task r ∧ ∃ event, s = [.look r event]) := by
  by_cases same : id = .task r
  · subst same
    rw [stackOf, replace_self at_r] at there
    cases there
    rcases stack with kept | ⟨-, event, starts⟩
    · left
      rw [stackOf, at_r, Option.map_some, kept]
    · exact .inr ⟨rfl, event, starts⟩
  · exact .inl (stackOf_update_ne same there)

theorem Has.replace (has : c.Has P) : (c.update r fun _ => q').Has P := by
  obtain ⟨id, s, there, op, mem, holds⟩ := has
  by_cases same : id = .task r
  · subst same
    rw [stackOf, at_r] at there
    cases there
    refine ⟨.task r, q'.stack, ?_, op, ?_, holds⟩
    · rw [stackOf, replace_self at_r]
      rfl
    · rcases stack with kept | ⟨idle, -⟩
      · rw [kept]
        exact mem
      · rw [idle] at mem
        cases mem
  · refine ⟨id, s, ?_, op, mem, holds⟩
    cases id with
    | task r' =>
      have apart : r ≠ r' := fun equal => same (by rw [equal])
      rw [stackOf, getElem?_update]
      simp only [apart, if_false, Option.map_id']
      exact there
    | _ => exact there

theorem has_of_replace (has : (c.update r fun _ => q').Has P) :
    c.Has P ∨ ∃ event, q'.stack = [.look r event] ∧ P (.look r event) := by
  obtain ⟨id, s, there, op, mem, holds⟩ := has
  rcases stackOf_replaced at_r stack there with before | ⟨rfl, event, rfl⟩
  · exact .inl ⟨id, s, before, op, mem, holds⟩
  · cases List.mem_singleton.mp mem
    rw [stackOf, replace_self at_r] at there
    exact .inr ⟨event, Option.some.inj there, holds⟩

theorem Tracked.replace (tracked : c.Tracked) (taken : q'.taken = q.taken)
    (used : q.completion = false → q'.completion = false)
    (replies : q'.replies.length = if q'.completion then 0 else 1)
    (early : q'.call.early = true → q'.inRequestData = false ∧ q'.completion = true ∧
      q'.task = .unspawned ∧ (q'.call = .registering ∨ q'.inCallbackInfo = true) ∧
      q.call.early = true ∧ q'.stack = q.stack)
    (untaken : q'.call.early = true ∨ q'.inRequestData = true → q.taken = false)
    (spawning : q'.call = .spawning → q'.task = .unspawned ∧
      (q'.inRequestData = true ∨ q'.taken = true))
    (running : q'.task ≠ .unspawned → q'.task ≠ .ended → q'.inRequestData = true ∨ q'.taken = true)
    (ended : q'.task = .ended → q'.inRequestData = false ∧ (q'.taken = false ∨ q'.Settled))
    (removes : q'.call.early = false → q'.inCallbackInfo = true → q'.inRequestData = false →
      (c.update r fun _ => q').Has (q'.Removes r))
    (resolves : q'.call.early = false → q'.completion = true → q'.inCallbackInfo = false →
      (c.update r fun _ => q').Has (q'.Resolves r))
    (drains : q'.inRequestData = true → (c.closed || c.cancelled) = true → c.draining = true) :
    (c.update r fun _ => q').Tracked where
  replies r' q₁ there := by
    rcases replace_cases there with ⟨rfl, rfl⟩ | ⟨other, before⟩
    · exact replies
    · exact tracked.replies r' q₁ before
  early r' q₁ there early_ := by
    rcases replace_cases there with ⟨rfl, rfl⟩ | ⟨other, before⟩
    · obtain ⟨data, completion, task, place, was, kept⟩ := early early_
      refine ⟨data, completion, task, place, fun has => ?_⟩
      obtain ⟨-, -, -, -, done⟩ := tracked.early r' q at_r was
      rcases has_of_replace at_r (.inl kept) has with before | ⟨event, starts, -⟩
      · exact done before
      · exact done ⟨.task r', q.stack, by rw [stackOf, at_r]; rfl, .look r' event,
          by rw [← kept, starts]; exact List.mem_cons_self, beq_self_eq_true r'⟩
    · obtain ⟨data, completion, task, place, done⟩ := tracked.early r' q₁ before early_
      refine ⟨data, completion, task, place, fun has => ?_⟩
      rcases has_of_replace at_r stack has with before_ | ⟨event, -, about⟩
      · exact done before_
      · exact other (beq_iff_eq.mp about).symm
  untaken r' q₁ there := by
    rcases replace_cases there with ⟨rfl, rfl⟩ | ⟨other, before⟩
    · exact fun place => taken.trans (untaken place)
    · exact tracked.untaken r' q₁ before
  spawning r' q₁ there := by
    rcases replace_cases there with ⟨rfl, rfl⟩ | ⟨other, before⟩
    · exact spawning
    · exact tracked.spawning r' q₁ before
  running r' q₁ there := by
    rcases replace_cases there with ⟨rfl, rfl⟩ | ⟨other, before⟩
    · exact running
    · exact tracked.running r' q₁ before
  ended r' q₁ there := by
    rcases replace_cases there with ⟨rfl, rfl⟩ | ⟨other, before⟩
    · exact ended
    · exact tracked.ended r' q₁ before
  placed id s there := by
    rcases stackOf_replaced at_r stack there with before | ⟨rfl, event, rfl⟩
    · refine (tracked.placed id s before).mono fun r' q₁ at₁ taken₁ => ?_
      by_cases same : r' = r
      · subst same
        cases at_r.symm.trans at₁
        exact ⟨q', replace_self at_r, taken.trans taken₁⟩
      · refine ⟨q₁, ?_, taken₁⟩
        rw [getElem?_update, at₁]
        simp only [Option.map_some, Ne.symm same, if_false]
    · refine ⟨?_, (by simp), fun r' about => .inl ?_, trivial⟩
      · rintro (same | same) <;> cases same
      · rw [beq_iff_eq.mp about]
  unregisters r' q₁ id s there found mem := by
    rcases stackOf_replaced at_r stack found with before_ | ⟨rfl, event, rfl⟩
    · rcases replace_cases there with ⟨rfl, rfl⟩ | ⟨other, before⟩
      · rcases tracked.unregisters r' q id s at_r before_ mem with now | resolves_
        · exact .inl (used now)
        · exact .inr resolves_
      · exact tracked.unregisters r' q₁ id s before before_ mem
    · cases List.mem_singleton.mp mem
  removes r' q₁ there := by
    rcases replace_cases there with ⟨rfl, rfl⟩ | ⟨other, before⟩
    · exact removes
    · intro late info gone
      exact (tracked.removes r' q₁ before late info gone).replace at_r stack
  resolves r' q₁ there := by
    rcases replace_cases there with ⟨rfl, rfl⟩ | ⟨other, before⟩
    · exact resolves
    · intro late open_ gone
      exact (tracked.resolves r' q₁ before late open_ gone).replace at_r stack
  drains r' q₁ there data closed := by
    have before_ : c.draining = true := by
      rcases replace_cases there with ⟨rfl, rfl⟩ | ⟨other, before⟩
      · exact drains data closed
      · exact tracked.drains r' q₁ before data closed
    rw [draining_iff] at before_ ⊢
    exact before_.replace at_r stack

end Replace

theorem Tracked.callStep (tracked : c.Tracked) (at_r : c.requests[r]? = some q)
    {refused : Option ClientError} (ran : c.runCall q refused = some q')
    (inTime : q.call = .inserting → (c.closed || c.cancelled) = true → c.draining = true) :
    (c.update r fun _ => q').Tracked := by
  have replies := tracked.replies r q at_r
  have drains := tracked.drains r q at_r
  have untaken := tracked.untaken r q at_r
  cases place : q.call with
  | waiting =>
    simp only [runCall, place] at ran
    cases ran
  | spawning =>
    simp only [runCall, place] at ran
    cases ran
    obtain ⟨-, held⟩ := tracked.spawning r q at_r place
    have late : q.call.early = false := by
      rw [place]
      rfl
    refine tracked.replace at_r (.inl rfl) rfl id replies nofun
      (fun there => untaken (.inr (there.resolve_left nofun)))
      nofun (fun _ _ => held) nofun
      (fun _ info gone => ?_) (fun _ open_ gone => ?_) drains
    · exact (tracked.removes r q at_r late info gone).replace at_r (.inl rfl)
    · exact (tracked.resolves r q at_r late open_ gone).replace at_r (.inl rfl)
  | registering =>
    obtain ⟨data, completion, task, -, -⟩ := tracked.early r q at_r (by rw [place]; rfl)
    simp only [runCall, place] at ran
    split at ran
    · cases ran
    · cases ran
      refine tracked.replace at_r (.inl rfl) rfl id replies
        (fun _ => ⟨data, completion, task, .inr rfl, by rw [place]; rfl, rfl⟩)
        (fun _ => untaken (.inl (by rw [place]; rfl))) nofun (fun spawned => absurd task spawned)
        (fun same => by cases task.symm.trans same) nofun
        nofun drains
  | submitting =>
    obtain ⟨data, completion, task, registered, -⟩ := tracked.early r q at_r (by rw [place]; rfl)
    rw [place] at registered
    have info : q.inCallbackInfo = true := registered.resolve_left nofun
    -- the call goes on, or it is refused
    have next : ∀ next : CallPlace, next.early = true →
        (c.update r fun _ => { q with call := next }).Tracked := by
      intro next early
      have notSpawning : next ≠ .spawning := by
        rintro rfl
        cases early
      exact tracked.replace at_r (.inl rfl) rfl id replies
        (fun _ => ⟨data, completion, task, .inr info, by rw [place]; rfl, rfl⟩)
        (fun _ => untaken (.inl (by rw [place]; rfl))) (fun same => absurd same notSpawning) (fun spawned => absurd task spawned)
        (fun same => by cases task.symm.trans same) (fun late => by cases early.symm.trans late)
        (fun late => by cases early.symm.trans late) drains
    simp only [runCall, place] at ran
    split at ran
    · cases ran
      exact next _ rfl
    · split at ran
      · cases ran
        exact next _ rfl
      · cases ran
        exact next _ rfl
  | inserting =>
    obtain ⟨data, completion, task, registered, -⟩ := tracked.early r q at_r (by rw [place]; rfl)
    have info : q.inCallbackInfo = true := by
      rw [place] at registered
      exact registered.resolve_left nofun
    simp only [runCall, place] at ran
    cases ran
    exact tracked.replace at_r (.inl rfl) rfl id replies nofun
      (fun _ => untaken (.inl (by rw [place]; rfl))) (fun _ => ⟨task, .inl rfl⟩) (fun spawned => absurd task spawned)
      (fun same => by cases task.symm.trans same) nofun
      (fun _ _ gone => by cases info.symm.trans gone) (fun _ => inTime place)
  | refusing e =>
    obtain ⟨data, completion, task, -, -⟩ := tracked.early r q at_r (by rw [place]; rfl)
    rw [completion] at replies
    simp only [runCall, place] at ran
    split at ran
    · cases ran
    · cases ran
      refine tracked.replace at_r (.inl rfl) rfl (fun _ => rfl) ?_ nofun
        (fun _ => untaken (.inl (by rw [place]; rfl))) nofun (fun spawned => absurd task spawned)
        (fun same => by cases task.symm.trans same) nofun
        nofun drains
      rw [List.length_append, replies]
      rfl

theorem over_of_error {event : TransportEvent} (error : event.isError = true) : q.over event = true := by
  rw [Request.over, error, Bool.true_or, Bool.true_or]

theorem over_of_last {event : TransportEvent} (last : (event.isError || event.isFinalStatus) = true) :
    q.over event = true := by
  rcases Bool.or_eq_true_iff.mp last with error | final
  · exact over_of_error error
  · rw [Request.over, final, Bool.or_true]

/-- What a task does between its deliveries. -/
inductive Advance (c : DefaultClient) (r : Nat) (q : Request) : Request → Prop where
  /-- It goes on. -/
  | move {place : TaskPlace} (spawned : place ≠ .unspawned) (running : place ≠ .ended) :
      Advance c r q { q with task := place }
  /-- It delivers an event that leaves the request open. -/
  | pass {place : TaskPlace} (event : TransportEvent) (spawned : place ≠ .unspawned)
      (running : place ≠ .ended) : Advance c r q { q with task := place, stack := [.look r event] }
  /-- It takes the request out of `request_data` with its last event. -/
  | finish {event : TransportEvent} (isOver : q.over event = true) (there : q.inRequestData = true) :
      Advance c r q { q with inRequestData := false, task := .ended, stack := [.look r event] }
  /-- It ends without an event. -/
  | silent (reason : c.cancelled = true ∨ q.inRequestData = false) :
      Advance c r q { q with task := .ended }

theorem Advance.of_finish {event : TransportEvent} (isOver : q.over event = true) :
    c.Advance r q (q.finish r event) := by
  rw [Request.finish]
  split
  · rename_i there
    exact .finish isOver there
  · rename_i gone
    exact .silent (.inr ((Bool.not_eq_true _).mp gone))

theorem advance_running (advanced : q.advance d c.cancelled r choice = some q') :
    q.task ≠ .unspawned ∧ q.task ≠ .ended := by
  constructor
  · intro place
    cases choice <;> simp only [Request.advance, place] at advanced <;> cases advanced
  · intro place
    cases choice <;> simp only [Request.advance, place] at advanced <;> cases advanced

theorem advance_cases (advanced : q.advance d c.cancelled r choice = some q')
    (closed : q.leftOpen d choice = false) : c.Advance r q q' := by
  cases choice with
  | cancelled =>
    simp only [Request.advance] at advanced
    have isOver : (if c.cancelled then some { q with task := .ended } else none) = some q' →
        c.Advance r q q' := by
      intro ends
      split at ends
      · rename_i seen
        cases ends
        exact .silent (.inl seen)
      · cases ends
    split at advanced
    · exact isOver advanced
    · exact isOver advanced
    · exact isOver advanced
    · cases advanced
  | sent s =>
    simp only [Request.advance] at advanced
    split at advanced
    · split at advanced
      · rename_i event failed
        cases advanced
        exact .of_finish (over_of_error (Sent.body_error failed))
      · cases advanced
        exact .move nofun nofun
      · cases advanced
        exact .move nofun nofun
    · cases advanced
  | text body =>
    simp only [Request.advance] at advanced
    simp only [Request.leftOpen] at closed
    split at advanced
    · split at advanced
      · rename_i nothing
        rw [nothing] at closed
        cases closed
      · rename_i step handled
        cases step with
        | pass event =>
          rw [handled] at closed
          cases closed
        | finish event =>
          cases advanced
          exact .of_finish (Decoder.handleJsonBody_finish handled)
    · cases advanced
  | textFailed timeout e =>
    simp only [Request.advance] at advanced
    split at advanced
    · cases advanced
      exact .of_finish (over_of_error rfl)
    · cases advanced
  | chunk events =>
    simp only [Request.advance] at advanced
    split at advanced
    · cases advanced
      exact .move nofun nofun
    · cases advanced
  | streamEnd last =>
    simp only [Request.advance] at advanced
    split at advanced
    · cases advanced
      exact .move nofun nofun
    · cases advanced
  | streamFailed timeout e =>
    simp only [Request.advance] at advanced
    split at advanced
    · cases advanced
      refine .of_finish (over_of_error ?_)
      split <;> rfl
    · cases advanced
  | go =>
    simp only [Request.advance] at advanced
    split at advanced
    · cases advanced
      exact .move nofun nofun
    · cases advanced
      exact .of_finish (over_of_error rfl)
    · rename_i body rest last _
      cases advanced
      cases delivered : d.deliverSseEvent q.id body with
      | finish event => exact .of_finish (over_of_last (Decoder.deliverSseEvent_finish delivered))
      | pass event => exact .pass event nofun nofun
    · cases advanced
  | user calls => cases advanced
  | order rs => cases advanced

theorem Tracked.advance (tracked : c.Tracked) (at_r : c.requests[r]? = some q) (idle : q.stack = [])
    (spawned : q.task ≠ .unspawned) (running : q.task ≠ .ended) (advance : c.Advance r q q')
    (silent : q'.task = .ended → q'.stack = [] → c.closing = false) :
    (c.update r fun _ => q').Tracked := by
  have replies := tracked.replies r q at_r
  have drains := tracked.drains r q at_r
  have untaken := tracked.untaken r q at_r
  have held := tracked.running r q at_r spawned running
  have late : q.call.early = false := by
    by_contra early
    exact spawned (tracked.early r q at_r ((Bool.not_eq_false _).mp early)).2.2.1
  have notSpawning : q.call ≠ .spawning := fun same => spawned (tracked.spawning r q at_r same).1
  cases advance with
  | move spawned' running' =>
    refine tracked.replace at_r (.inl rfl) rfl id replies
      (fun early => by cases late.symm.trans early) untaken (fun same => absurd same notSpawning)
      (fun _ _ => held) (fun same => absurd same running') (fun _ info gone => ?_)
      (fun _ open_ gone => ?_) drains
    · exact (tracked.removes r q at_r late info gone).replace at_r (.inl rfl)
    · exact (tracked.resolves r q at_r late open_ gone).replace at_r (.inl rfl)
  | pass event spawned' running' =>
    refine tracked.replace at_r (.inr ⟨idle, event, rfl⟩) rfl id replies
      (fun early => by cases late.symm.trans early) untaken (fun same => absurd same notSpawning)
      (fun _ _ => held) (fun same => absurd same running') (fun _ info gone => ?_)
      (fun _ open_ gone => ?_) drains
    · exact (tracked.removes r q at_r late info gone).replace at_r (.inr ⟨idle, event, rfl⟩)
    · exact (tracked.resolves r q at_r late open_ gone).replace at_r (.inr ⟨idle, event, rfl⟩)
  | @finish event isOver there =>
    have own := untaken (.inr there)
    refine tracked.replace at_r (.inr ⟨idle, event, rfl⟩) rfl id replies
      (fun early => by cases late.symm.trans early) (fun _ => own)
      (fun same => absurd same notSpawning)
      (fun _ same => absurd rfl same) (fun _ => ⟨rfl, .inl own⟩) (fun _ info gone => ?_)
      (fun _ open_ gone => ?_) nofun
    · refine ⟨.task r, [.look r event], ?_, _, List.mem_singleton.mpr rfl, rfl, isOver⟩
      rw [stackOf, replace_self at_r]
      rfl
    · exact (tracked.resolves r q at_r late open_ gone).replace at_r (.inr ⟨idle, event, rfl⟩)
  | silent reason =>
    have calm : c.closing = false := silent rfl idle
    have gone : q.inRequestData = false := by
      rcases reason with seen | gone
      · by_contra there
        have draining := drains ((Bool.not_eq_false _).mp there) (by rw [seen, Bool.or_true])
        cases calm.symm.trans (tracked.closing_of_draining draining)
      · exact gone
    -- nothing is left to do for the request
    have done : ¬c.Has (·.about r = true) := by
      rintro ⟨id, s, found, op, mem, about⟩
      rcases (tracked.placed id s found).returned_of_about mem about with rfl | ⟨-, returned⟩
      · rw [stackOf, at_r, Option.map_some, idle] at found
        cases found
        cases mem
      · cases calm.symm.trans (closing_of_mem found returned)
    have settled := tracked.settled at_r late gone done
    refine tracked.replace at_r (.inl rfl) rfl id replies
      (fun early => by cases late.symm.trans early) untaken (fun same => absurd same notSpawning)
      (fun _ same => absurd rfl same)
      (fun _ => ⟨gone, .inr ⟨settled.data, settled.info, settled.replied⟩⟩)
      (fun _ info gone => ?_) (fun _ open_ gone => ?_) drains
    · exact (tracked.removes r q at_r late info gone).replace at_r (.inl rfl)
    · exact (tracked.resolves r q at_r late open_ gone).replace at_r (.inl rfl)

section Grow

variable {new : Request}

theorem stackOf_call (found : c.stackOf id = some s) :
    ({ c with requests := c.requests ++ [new] } : DefaultClient).stackOf id = some s := by
  cases id with
  | task r =>
    obtain ⟨q, at_r, rfl⟩ := Option.map_eq_some_iff.mp found
    have below := (List.getElem?_eq_some_iff.mp at_r).1
    rw [stackOf, List.getElem?_append_left below, at_r]
    rfl
  | _ => exact found

theorem of_stackOf_call
    (found : ({ c with requests := c.requests ++ [new] } : DefaultClient).stackOf id = some s) :
    c.stackOf id = some s ∨ s = new.stack := by
  cases id with
  | task r =>
    obtain ⟨q, at_r, rfl⟩ := Option.map_eq_some_iff.mp found
    rcases getElem?_concat_cases at_r with old | ⟨-, rfl⟩
    · left
      rw [stackOf, old]
      rfl
    · exact .inr rfl
  | _ => exact .inl found

theorem Has.call (has : c.Has P) : ({ c with requests := c.requests ++ [new] } : DefaultClient).Has P := by
  obtain ⟨id, s, found, there⟩ := has
  exact ⟨id, s, stackOf_call found, there⟩

theorem Tracked.call (tracked : c.Tracked) (start : new.call = .registering)
    (unspawned : new.task = .unspawned) (idle : new.stack = []) (data : new.inRequestData = false)
    (completion : new.completion = true) (untaken : new.taken = false) (none_ : new.replies = []) :
    ({ c with requests := c.requests ++ [new] } : DefaultClient).Tracked := by
  have early : new.call.early = true := by
    rw [start]
    rfl
  have has : ∀ {P : Op → Prop}, ({ c with requests := c.requests ++ [new] } : DefaultClient).Has P →
      c.Has P := by
    rintro P ⟨id, s, found, op, mem, holds⟩
    rcases of_stackOf_call found with old | rfl
    · exact ⟨id, s, old, op, mem, holds⟩
    · rw [idle] at mem
      cases mem
  constructor
  case replies =>
    intro r q there
    rcases getElem?_concat_cases there with old | ⟨-, rfl⟩
    · exact tracked.replies r q old
    · rw [none_, completion]
      rfl
  case early =>
    intro r q there early_
    rcases getElem?_concat_cases there with old | ⟨rfl, rfl⟩
    · obtain ⟨data, completion, task, place, done⟩ := tracked.early r q old early_
      exact ⟨data, completion, task, place, fun h => done (has h)⟩
    · refine ⟨data, completion, unspawned, .inl start, fun h => ?_⟩
      -- no thread has an operation about a request that is not there
      obtain ⟨id, s, found, op, mem, about⟩ := has h
      have absent : c.requests[c.requests.length]? = none := List.getElem?_eq_none (Nat.le_refl _)
      rcases (tracked.placed id s found).returned_of_about mem about with rfl | ⟨⟨q₀, at₀, -⟩, -⟩
      · rw [stackOf, absent] at found
        cases found
      · cases absent.symm.trans at₀
  case untaken =>
    intro r q there
    rcases getElem?_concat_cases there with old | ⟨-, rfl⟩
    · exact tracked.untaken r q old
    · exact fun _ => untaken
  case spawning =>
    intro r q there spawning
    rcases getElem?_concat_cases there with old | ⟨-, rfl⟩
    · exact tracked.spawning r q old spawning
    · cases start.symm.trans spawning
  case running =>
    intro r q there spawned running
    rcases getElem?_concat_cases there with old | ⟨-, rfl⟩
    · exact tracked.running r q old spawned running
    · exact absurd unspawned spawned
  case ended =>
    intro r q there ended
    rcases getElem?_concat_cases there with old | ⟨-, rfl⟩
    · exact tracked.ended r q old ended
    · cases unspawned.symm.trans ended
  case placed =>
    intro id s found
    rcases of_stackOf_call found with old | rfl
    · refine (tracked.placed id s old).mono fun r q at_r taken => ⟨q, ?_, taken⟩
      rw [List.getElem?_append_left (List.getElem?_eq_some_iff.mp at_r).1]
      exact at_r
    · rw [idle]
      trivial
  case unregisters =>
    intro r q id s there found mem
    rcases of_stackOf_call found with old_ | rfl
    · rcases getElem?_concat_cases there with old | ⟨rfl, rfl⟩
      · exact tracked.unregisters r q id s old old_ mem
      · have absent : c.requests[c.requests.length]? = none :=
          List.getElem?_eq_none (Nat.le_refl _)
        have about : (Op.unregister c.requests.length).about c.requests.length = true :=
          beq_self_eq_true _
        rcases (tracked.placed id s old_).returned_of_about mem about with rfl | ⟨⟨q₀, at₀, -⟩, -⟩
        · rw [stackOf, absent] at old_
          cases old_
        · cases absent.symm.trans at₀
    · rw [idle] at mem
      cases mem
  case removes =>
    intro r q there late info gone
    rcases getElem?_concat_cases there with old | ⟨-, rfl⟩
    · exact (tracked.removes r q old late info gone).call
    · cases early.symm.trans late
  case resolves =>
    intro r q there late open_ gone
    rcases getElem?_concat_cases there with old | ⟨-, rfl⟩
    · exact (tracked.resolves r q old late open_ gone).call
    · cases early.symm.trans late
  case drains =>
    intro r q there pending closed
    rcases getElem?_concat_cases there with old | ⟨-, rfl⟩
    · have before := tracked.drains r q old pending closed
      rw [draining_iff] at before ⊢
      exact before.call
    · cases data.symm.trans pending

end Grow

theorem stackOf_close (found : c.stackOf id = some s) :
    ({ c with closers := c.closers ++ [UserCall.close.ops] } : DefaultClient).stackOf id = some s := by
  cases id with
  | closer k =>
    rw [stackOf, List.getElem?_append_left (List.getElem?_eq_some_iff.mp found).1]
    exact found
  | _ => exact found

theorem of_stackOf_close
    (found : ({ c with closers := c.closers ++ [UserCall.close.ops] } : DefaultClient).stackOf id =
      some s) : c.stackOf id = some s ∨ s = UserCall.close.ops := by
  cases id with
  | closer k =>
    rcases getElem?_concat_cases found with old | ⟨-, rfl⟩
    · exact .inl old
    · exact .inr rfl
  | _ => exact .inl found

theorem Has.close (has : c.Has P) :
    ({ c with closers := c.closers ++ [UserCall.close.ops] } : DefaultClient).Has P := by
  obtain ⟨id, s, found, there⟩ := has
  exact ⟨id, s, stackOf_close found, there⟩

theorem Tracked.close (tracked : c.Tracked) :
    ({ c with closers := c.closers ++ [UserCall.close.ops] } : DefaultClient).Tracked where
  replies := tracked.replies
  early r q at_r early := by
    obtain ⟨data, completion, task, place, done⟩ := tracked.early r q at_r early
    refine ⟨data, completion, task, place, ?_⟩
    rintro ⟨id, s, found, op, mem, about⟩
    rcases of_stackOf_close found with old | rfl
    · exact done ⟨id, s, old, op, mem, about⟩
    · fin_cases mem <;> cases about
  untaken := tracked.untaken
  spawning := tracked.spawning
  running := tracked.running
  ended := tracked.ended
  placed id s found := by
    rcases of_stackOf_close found with old | rfl
    · exact (tracked.placed id s old).mono fun r q at_r taken => ⟨q, at_r, taken⟩
    · have bottom : ({ c with closers := c.closers ++ [UserCall.close.ops] } : DefaultClient).Placed
          id [] := trivial
      exact bottom.push_close
  unregisters r q id s at_r found mem := by
    rcases of_stackOf_close found with old | rfl
    · exact tracked.unregisters r q id s at_r old mem
    · simp [UserCall.ops] at mem
  removes r q at_r late info gone := (tracked.removes r q at_r late info gone).close
  resolves r q at_r late open_ gone := (tracked.resolves r q at_r late open_ gone).close
  drains r q at_r pending closed := by
    have before := tracked.drains r q at_r pending closed
    rw [draining_iff] at before ⊢
    exact before.close

/-! ### Runs -/

theorem Tracked.step (tracked : c.Tracked) (orderly : c.orderly d l = true)
    (stepped : c.step d l = some c') : c'.Tracked := by
  rcases step_cases stepped with ⟨method, uuid, rfl, rfl⟩ | ⟨rfl, rfl⟩ |
    ⟨r, refused, q, q', rfl, at_r, ran, rfl⟩ | ⟨r, choice, q, q', rfl, at_r, idle, advanced, rfl⟩ |
    ⟨id, op, rest, c₁, new, thread, found, ran, rfl⟩
  · exact tracked.call rfl rfl rfl rfl rfl rfl rfl
  · exact tracked.close
  · refine tracked.callStep at_r ran fun inserting closed => ?_
    simp only [DefaultClient.orderly, at_r, Option.all_some, inserting, closed, Bool.not_true,
      Bool.false_or] at orderly
    exact orderly
  · simp only [DefaultClient.orderly, at_r, Option.all_some, idle, List.isEmpty_nil, Bool.not_true,
      Bool.false_or, Bool.and_eq_true, Bool.not_eq_true', Bool.or_eq_true] at orderly
    obtain ⟨spawned, running⟩ := advance_running advanced
    refine tracked.advance at_r idle spawned running (advance_cases advanced orderly.1)
      fun ended empty => ?_
    rcases orderly.2 with loud | calm
    · rw [Request.endsSilently, advanced, Option.any_some, ended, empty] at loud
      cases loud
    · exact calm
  · exact tracked.operation found ran

theorem tracked_new : DefaultClient.new.Tracked where
  replies r q at_r := by cases at_r
  early r q at_r := by cases at_r
  untaken r q at_r := by cases at_r
  spawning r q at_r := by cases at_r
  running r q at_r := by cases at_r
  ended r q at_r := by cases at_r
  placed id s found := by cases id <;> cases found
  unregisters r q id s at_r := by cases at_r
  removes r q at_r := by cases at_r
  resolves r q at_r := by cases at_r
  drains r q at_r := by cases at_r

/-- In every orderly run no call is given two replies, and a request whose task has ended is
settled. -/
theorem every_call_ends {ls : List ClientLabel}
    (run : Run (Under (orderly d · · = true) (Steps (DefaultClient.step d))) .new ls c) (q : Request)
    (mem : q ∈ c.requests) :
    q.replies.length ≤ 1 ∧ (q.task = .ended → q.stack = [] → q.Settled) := by
  have tracked : c.Tracked :=
    run.invariant_under (fun _ _ _ inv orderly stepped => inv.step orderly stepped) tracked_new
  obtain ⟨r, at_r⟩ := List.mem_iff_getElem?.mp mem
  refine ⟨?_, fun ended idle => tracked.settled_of_ended at_r ended idle⟩
  rw [tracked.replies r q at_r]
  split
  · exact Nat.zero_le 1
  · exact Nat.le_refl 1

/-! Two requests that the server answers at once. -/

/-- A decoder for which no JSON is well formed. -/
def strictDecoder : Decoder where
  streamEvent _ := .error "data did not match any variant"
  sendMessageResult _ := .error "data did not match any variant"
  task _ := .error "missing field"
  pushConfig _ := .error "missing field"
  pushConfigs _ := .error "missing field"
  agentCard _ := .error "missing field"
  error _ := (-1, "")
  floatText _ := ""

def sentRequest (method : Method) : List ClientLabel :=
  [.call method "u", .callStep 0 none, .callStep 0 none, .callStep 0 none, .callStep 0 none]

/-- A request that fails with a status. -/
theorem failed_request_ends : ∃ c q,
    Run (Under (orderly strictDecoder · · = true) (Steps (DefaultClient.step strictDecoder))) .new
      (sentRequest .taskGet ++ [.taskStep 0 (.sent (.response 500 none)), .taskStep 0 .go,
        .taskStep 0 .go, .taskStep 0 .go, .taskStep 0 .go, .taskStep 0 .go]) c ∧
    q ∈ c.requests ∧ q.task = .ended ∧ q.Settled := by
  have run : ∃ c q,
      Run (Under (orderly strictDecoder · · = true) (Steps (DefaultClient.step strictDecoder))) .new
        (sentRequest .taskGet ++ [.taskStep 0 (.sent (.response 500 none)), .taskStep 0 .go,
          .taskStep 0 .go, .taskStep 0 .go, .taskStep 0 .go, .taskStep 0 .go]) c ∧
      c.requests[0]? = some q ∧ q.task = .ended ∧ q.stack = [] :=
    ⟨_, _, run_under_of_foldlM rfl, rfl, rfl, rfl⟩
  obtain ⟨c, q, run, at_r, ended, idle⟩ := run
  have mem := List.mem_of_getElem? at_r
  exact ⟨c, q, run, mem, ended, (every_call_ends run q mem).2 ended idle⟩

/-- The task of the request has ended, and the caller waits for ever. -/
theorem empty_body_leaves_caller : ∃ c q, Run (Steps (DefaultClient.step strictDecoder)) .new
      (sentRequest .messageStream ++ [.taskStep 0 (.sent (.response 200 (some "application/json"))),
        .taskStep 0 (.text .empty)]) c ∧
    q ∈ c.requests ∧ q.task = .ended ∧ q.stack = [] ∧ q.inRequestData = true ∧
    q.inCallbackInfo = true ∧ q.replies = [] :=
  ⟨_, _, run_of_foldlM rfl, List.mem_cons_self, rfl, rfl, rfl, rfl, rfl⟩

end DefaultClient

end AgentProtocols.A2A
