import AgentProtocols.Lib.Runs
import AgentProtocols.MCP.Balance

/-!
One response per request. Two sections answer without a look at the mark of a request; every other
step keeps the balance (`Balanced.step`). `one_response_per_request` holds where those two meet no
marked request; `cancelled_error_answers_twice` is a run in which one does.
-/

namespace AgentProtocols.MCP

open Lib

/-- The request that a section answers without a look at its mark. -/
def Task.overlooks (t : Task) : Option RequestId :=
  match t.place with
  | .between =>
    match t.initializing, t.queue with
    | false, (.notification (.cancelled (some params)), _) :: _ => some params.requestId
    | _, _ => none
  | .answering id (.error _) _ => some id
  | _ => none

namespace Session

variable {s s' : Session} {i : Nat} {t t' : Task}

namespace Balanced

/-! ### Sections of a task -/

variable {ctx : RequestContext} {rest : List (Message × RequestContext)}

variable (b : s.Balanced)

include b

theorem sendMessage (at_i : s.tasks[i]? = some t) {r : Response}
    (place : t.place = .sending r ctx) : (s.sendMessage i t r ctx).Balanced := by
  have dropped : (s.setTask i { t with place := .between }).Balanced := by
    apply b.quiet at_i (show (s.setTask i { t with place := .between }).tasks = _ from rfl) rfl rfl
    · simp [Task.inFlight, Place.current]
    · simp [place, Place.called]
    · rfl
    · rw [place]
      rfl
    · rfl
  simp only [Session.sendMessage]
  split
  · exact dropped
  · split
    · exact dropped
    · rename_i k sink
      split
      · exact dropped
      · rename_i p found
        split
        · exact dropped
        · rename_i p' wrote
          exact b.written at_i place sink found rfl rfl rfl wrote

theorem closeSink (at_i : s.tasks[i]? = some t) {k : Nat} {p : Post}
    (place : t.place = .closing k) (found : s.posts[k]? = some p) :
    (s.closeSink i t k p).Balanced := by
  have about : t.place.completing = [k] := by
    rw [place]
    rfl
  rw [Session.closeSink]
  split
  · exact b.completed at_i about found rfl rfl rfl rfl rfl rfl rfl (.inr ⟨_, rfl⟩)
  · exact b.completed at_i about found rfl rfl rfl rfl rfl rfl rfl (.inl rfl)

theorem sendReply (at_i : s.tasks[i]? = some t) {k : Nat} {items : List Json}
    {p : Post} (place : t.place = .replying k items) (found : s.posts[k]? = some p) :
    (s.sendReply i t k items p).Balanced := by
  have about : t.place.completing = [k] := by
    rw [place]
    rfl
  simp only [Session.sendReply]
  split
  · exact b.completed at_i about found rfl rfl rfl rfl rfl rfl rfl (.inl rfl)
  · apply b.quiet at_i (show (s.setTask i { t with place := .between }).tasks = _ from rfl) rfl rfl
    · simp [Task.inFlight, Place.current]
    · simp [place, Place.called]
    · rfl
    · rw [place]
      rfl
    · rfl

theorem answer (at_i : s.tasks[i]? = some t) {id : RequestId}
    {outcome : Outcome} (place : t.place = .answering id outcome ctx)
    (marks : (∃ e, outcome = .error e) → s.isMarked id = false) :
    (s.answer i t id outcome ctx).Balanced := by
  cases outcome with
  | result value =>
    simp only [Session.answer]
    split
    · exact b.answered at_i place rfl rfl rfl rfl (.inl rfl)
    · rename_i unmarked
      simp only [Bool.or_eq_true, not_or, Bool.not_eq_true] at unmarked
      exact b.answered at_i place rfl rfl rfl rfl (.inr ⟨unmarked.1, _, rfl, rfl⟩)
  | error e =>
    exact b.answered at_i place rfl rfl rfl rfl (.inr ⟨marks ⟨e, rfl⟩, _, rfl, rfl⟩)

theorem taken (at_i : s.tasks[i]? = some t) (place : t.place = .between)
    {m : Message × RequestContext}
    (queue : t.queue = m :: rest) (tasks : s'.tasks = s.tasks.set i { t with queue := rest })
    (requests : s'.sessionRequests = s.sessionRequests) (posts : s'.posts = s.posts) :
    s'.Balanced := by
  apply b.quiet at_i tasks requests posts
  · simp only [Task.inFlight, place, queue]
    exact (List.sublist_cons_self _ _).filterMap _
  · rw [place]
  · rw [place]
    rfl
  · rw [place]
  · rw [place]
    rfl

theorem received (at_i : s.tasks[i]? = some t) (place : t.place = .between) {r : Request}
    (queue : t.queue = (.request r, ctx) :: rest) (tasks : s'.tasks = s.tasks.set i t')
    (requests : s'.sessionRequests = s.sessionRequests) (posts : s'.posts = s.posts)
    (left : t'.queue = rest) (current : (∃ outcome, t'.place = .answering r.id outcome ctx) ∨
      t'.place = .registering r.id ctx) : s'.Balanced := by
  apply b.quiet at_i tasks requests posts
  · rcases current with ⟨outcome, answering⟩ | registering
    · simp [Task.inFlight, place, answering, left, Place.current, queue, queuedRequest,
        Message.requestId?]
    · simp [Task.inFlight, place, registering, left, Place.current, queue, queuedRequest,
        Message.requestId?]
  · rw [place]
    exact List.nil_sublist _
  all_goals
    rcases current with ⟨outcome, answering⟩ | registering
    · rw [answering]
      first | rfl | (rw [place]; rfl)
    · rw [registering]
      first | rfl | (rw [place]; rfl)

theorem receivedRequest (at_i : s.tasks[i]? = some t) (place : t.place = .between)
    {r : Request} (queue : t.queue = (.request r, ctx) :: rest) :
    (s.receivedRequest i { t with queue := rest } r ctx).Balanced := by
  rw [Session.receivedRequest]
  split
  · exact b.received at_i place queue rfl rfl rfl rfl (.inl ⟨_, rfl⟩)
  · split
    · exact b.received at_i place queue rfl rfl rfl rfl (.inl ⟨_, rfl⟩)
    · split
      · exact b.received at_i place queue rfl rfl rfl rfl (.inr rfl)
      · exact b.taken at_i place queue rfl rfl rfl

theorem receivedNotification (at_i : s.tasks[i]? = some t)
    (place : t.place = .between) {n : Notification}
    (queue : t.queue = (.notification n, ctx) :: rest)
    (marks : ∀ params, n = .cancelled (some params) → s.isMarked params.requestId = false) :
    (s.receivedNotification i { t with queue := rest } n).Balanced := by
  cases n with
  | initialized => exact b.taken at_i place queue rfl rfl rfl
  | rootsListChanged => exact b.taken at_i place queue rfl rfl rfl
  | other method => exact b.taken at_i place queue rfl rfl rfl
  | cancelled params =>
    simp only [Session.receivedNotification, handleCancelled]
    split
    · exact b.taken at_i place queue rfl rfl rfl
    · rename_i params
      split
      · exact b.taken at_i place queue rfl rfl rfl
      · rename_i entry found
        refine b.cancel at_i place found (marks params rfl) ?_ rfl rfl rfl rfl rfl
        rw [Task.inFlight, Task.inFlight, place, queue]
        rfl

omit b

end Balanced

/-! ### Steps -/

/-- The ids of a new POST are distinct, and none of them is in flight. -/
def FreshIds (s : Session) : Label → Prop
  | .post messages _ =>
    (messages.filterMap Message.requestId?).Nodup ∧
      ∀ id ∈ messages.filterMap Message.requestId?, ∀ t ∈ s.tasks, id ∉ t.inFlight.map Prod.fst
  | _ => True

def HeedsMarks (s : Session) : Label → Prop
  | .run i => ∀ id ∈ s.tasks[i]?.bind Task.overlooks, s.isMarked id = false
  | _ => True

namespace Balanced

variable (b : s.Balanced)

include b

theorem runTask (at_i : s.tasks[i]? = some t) (ran : s.runTask i t = some s')
    (marks : ∀ id, t.overlooks = some id → s.isMarked id = false) : s'.Balanced := by
  rw [Session.runTask] at ran
  split at ran
  · rename_i place
    split at ran
    · cases ran
      refine b.quiet at_i rfl rfl rfl ?_ ?_ ?_ ?_ ?_
      · exact List.Sublist.refl _
      · exact List.Sublist.refl _
      · simp [place, Place.sent]
      · rfl
      · simp [place, Place.completing]
    · rename_i settled
      split at ran
      · cases ran
      · rename_i m ctx rest queue
        cases ran
        cases m with
        | request r => exact b.receivedRequest at_i place queue
        | response r => exact b.taken at_i place queue rfl rfl rfl
        | notification n =>
          apply b.receivedNotification at_i place queue
          intro params cancels
          apply marks
          rw [cancels] at queue
          simp [Task.overlooks, place, queue, settled]
  · rename_i id ctx place
    cases ran
    exact b.register at_i place rfl rfl rfl
  · cases ran
  · rename_i id outcome ctx place
    cases ran
    apply b.answer at_i place
    rintro ⟨e, rfl⟩
    apply marks
    rw [Task.overlooks, place]
  · rename_i r ctx place
    cases ran
    exact b.sendMessage at_i place
  all_goals
    rename_i place
    rw [Option.map_eq_some_iff] at ran
    obtain ⟨p, found, rfl⟩ := ran
  · exact b.delivered at_i place found
  · exact b.closeSink at_i place found
  · exact b.sendReply at_i place found

theorem disconnect {k : Nat} {p : Post} (found : s.posts[k]? = some p) :
    (s.setPost k { p with reading := false }).Balanced := by
  have view := @post_set s (s.setPost k { p with reading := false }) k p _ found rfl
  have old := post_of_get found
  have same : ∀ j, ∃ reading, (s.setPost k { p with reading := false }).post j =
      { s.post j with reading } := by
    intro j
    rw [view]
    split
    · rename_i here
      exact ⟨false, by rw [here, old]⟩
    · exact ⟨(s.post j).reading, rfl⟩
  constructor
  · exact b.distinct
  · exact b.registered
  · intro j
    obtain ⟨reading, same⟩ := same j
    rw [same]
    exact b.nodup j
  · intro j id
    obtain ⟨reading, same⟩ := same j
    rw [same]
    exact b.budget j id
  · intro j
    obtain ⟨reading, same⟩ := same j
    rw [same]
    exact b.counted j
  · intro j one
    obtain ⟨reading, same⟩ := same j
    rw [same, show (s.setPost k _).posts.length = s.posts.length from List.length_set]
    exact b.completing j one
  · intro j
    obtain ⟨reading, same⟩ := same j
    rw [same]
    exact b.closed j

theorem started {u : Task} (place : u.place = .between)
    (tasks : s'.tasks = s.tasks ++ [u]) (requests : s'.sessionRequests = s.sessionRequests)
    (fresh : ∀ id, tally (flights id) s.tasks + flights id u ≤ 1)
    (length : s.posts.length ≤ s'.posts.length)
    (kept : ∀ k, s'.post k = s.post k ∧ (∀ id, opens k id u = 0) ∨
      s.posts.length ≤ k ∧ (s'.post k).requests.Nodup ∧ (s'.post k).received = [] ∧
        (s'.post k).sink.expected = (s'.post k).requests.length ∧ ¬(s'.post k).Closed ∧
        ∀ id, opens k id u ≤ (s'.post k).asked (some id)) : s'.Balanced where
  distinct id := by
    rw [tasks, tally_concat]
    exact fresh id
  registered id e found := by
    rw [requests] at found
    have before := b.registered id e found
    rw [tasks, tally_concat]
    omega
  nodup k := by
    rcases kept k with ⟨same, -⟩ | ⟨-, nodup, -⟩
    · rw [same]
      exact b.nodup k
    · exact nodup
  budget k id := by
    have silent : sends k id u = 0 := by simp [sends, place, Place.sent]
    have before := b.budget k id
    have owes : s'.owed k id ≤ s.owed k id + id.elim 0 (opens k · u) := by
      cases id with
      | none => exact Nat.zero_le _
      | some id =>
        rw [owed, owed, isMarked_congr requests, tasks, tally_concat, Option.elim_some]
        split <;> omega
    rw [tasks, tally_concat]
    rcases kept k with ⟨same, none_open⟩ | ⟨beyond, -, received, -, -, covered⟩
    · have nothing : id.elim 0 (opens k · u) = 0 := by
        cases id with
        | none => rfl
        | some id => exact none_open id
      rw [same]
      omega
    · have none_got : (s'.post k).got id = 0 := by simp [Post.got, received]
      have within : id.elim 0 (opens k · u) ≤ (s'.post k).asked id := by
        cases id with
        | none => exact Nat.zero_le _
        | some id => exact covered id
      have none_asked : (s.post k).asked id = 0 := by
        rw [post_of_le beyond]
        rfl
      omega
  counted k := by
    have idle : counts k u = 0 := by simp [counts, place, Place.uncounted]
    have before := b.counted k
    rw [tasks, tally_concat, idle]
    rcases kept k with ⟨same, -⟩ | ⟨beyond, -, received, expected, -⟩
    · rw [same]
      exact before
    · rw [post_of_le beyond] at before
      simp only [Post.absent, ResponseSink.ofSse] at before
      rw [received, List.length_nil]
      omega
  completing k one := by
    have idle : completes k u = 0 := by simp [completes, place, Place.completing]
    rw [tasks, tally_concat, idle] at one
    obtain ⟨bound, complete⟩ := b.completing k one
    refine ⟨Nat.lt_of_lt_of_le bound length, ?_⟩
    rcases kept k with ⟨same, -⟩ | ⟨beyond, -⟩
    · rw [same]
      exact complete
    · exact absurd bound (Nat.not_lt.mpr beyond)
  closed k closes := by
    rcases kept k with ⟨same, -⟩ | ⟨-, -, -, -, isOpen, -⟩
    · rw [same] at closes ⊢
      exact b.closed k closes
    · exact absurd closes isOpen

theorem handlePost {messages : List Message} {batch : Bool}
    (fresh : s.FreshIds (.post messages batch)) : (s.handlePost messages batch).Balanced := by
  obtain ⟨nodup, absent⟩ := fresh
  have ids : ∀ ctx, (messages.map fun m => (m, ctx)).filterMap queuedRequest =
      (messages.filterMap Message.requestId?).map fun id => (id, ctx) := by
    intro ctx
    rw [List.filterMap_map, List.map_filterMap]
    rfl
  have once : ∀ ctx id, tally (flights id) s.tasks +
      flights id ⟨.between, messages.map fun m => (m, ctx), false⟩ ≤ 1 := by
    intro ctx id
    have count : flights id ⟨.between, messages.map fun m => (m, ctx), false⟩ =
        (messages.filterMap Message.requestId?).countP fun j => j = id := by
      simp only [flights, Task.inFlight, Place.current, List.nil_append, ids, List.countP_map]
      rfl
    by_cases mem : id ∈ messages.filterMap Message.requestId?
    · have none_yet : tally (flights id) s.tasks = 0 := by
        apply tally_eq_zero
        intro t task
        rw [flights, List.countP_eq_zero]
        intro e flying same
        simp only [decide_eq_true_eq] at same
        exact absent id mem t task (same ▸ List.mem_map_of_mem flying)
      have single := List.nodup_iff_count_le_one.mp nodup id
      rw [count, none_yet, Nat.zero_add]
      exact single
    · have none_new : ((messages.filterMap Message.requestId?).countP fun j => j = id) = 0 := by
        rw [List.countP_eq_zero]
        intro j asked same
        simp only [decide_eq_true_eq] at same
        exact mem (same ▸ asked)
      rw [count, none_new]
      exact b.distinct id
  rw [Session.handlePost]
  split
  · rename_i none_asked
    refine b.started rfl rfl rfl (once _) (Nat.le_refl _) ?_
    intro k
    left
    refine ⟨rfl, fun id => ?_⟩
    simp only [opens, Task.inFlight, ids, none_asked]
    rfl
  · refine b.started rfl rfl rfl (once _) (by simp) ?_
    intro k
    have opened : ∀ id, opens k id ⟨.between,
        messages.map fun m => (m, s.newContext (some s.posts.length)), false⟩ =
        (messages.filterMap Message.requestId?).countP fun j =>
          j = id ∧ s.posts.length = k := by
      intro id
      simp only [opens, Task.inFlight, Place.current, List.nil_append, ids, List.countP_map]
      apply List.countP_congr
      simp [newContext]
    simp only [opened]
    rcases Nat.lt_trichotomy k s.posts.length with below | here | beyond
    · left
      constructor
      · rw [post, List.getElem?_append_left below, post]
      · intro id
        rw [List.countP_eq_zero]
        intro j mem holds
        simp only [decide_eq_true_eq] at holds
        omega
    · right
      subst here
      have new := @List.getElem?_concat_length _ s.posts
      rw [post, new, Option.getD_some]
      refine ⟨Nat.le_refl _, nodup, rfl, ?_, ?_, ?_⟩
      · split <;> rfl
      · simp [Post.Closed]
      · intro id
        apply List.countP_mono_left
        intro j mem holds
        simp only [decide_eq_true_eq] at holds ⊢
        rw [holds.1]
    · left
      constructor
      · rw [post_of_le (by simp; omega), post_of_le (Nat.le_of_lt beyond)]
      · intro id
        rw [List.countP_eq_zero]
        intro j mem holds
        simp only [decide_eq_true_eq] at holds
        omega

theorem step {l : Label} (stepped : s.step l = some s') (fresh : s.FreshIds l)
    (heeds : s.HeedsMarks l) : s'.Balanced := by
  cases l with
  | setHandler =>
    cases stepped
    exact ⟨b.distinct, b.registered, b.nodup, b.budget, b.counted, b.completing, b.closed⟩
  | post messages batch =>
    cases stepped
    exact b.handlePost fresh
  | run i =>
    obtain ⟨t, at_i, ran⟩ := Option.bind_eq_some_iff.mp stepped
    apply b.runTask at_i ran
    intro id overlooked
    apply heeds
    rw [at_i]
    exact overlooked
  | handled i outcome =>
    obtain ⟨t, at_i, ran⟩ := Option.bind_eq_some_iff.mp stepped
    split at ran
    · rename_i id ctx place
      cases ran
      refine b.quiet at_i rfl rfl rfl ?_ ?_ ?_ ?_ ?_
      · simp [Task.inFlight, place, Place.current]
      · simp [place, Place.called]
      · rfl
      · rw [place]
        rfl
      · rfl
    · cases ran
  | disconnect k =>
    obtain ⟨p, found, rfl⟩ := Option.map_eq_some_iff.mp stepped
    exact b.disconnect found

omit b

end Balanced

instance (s : Session) (l : Label) : Decidable (s.FreshIds l) :=
  match l with
  | .post _ _ => inferInstanceAs (Decidable (_ ∧ _))
  | .setHandler | .run _ | .handled _ _ | .disconnect _ => inferInstanceAs (Decidable True)

instance (s : Session) (l : Label) : Decidable (s.HeedsMarks l) :=
  match l with
  | .run i =>
    match overlooked : s.tasks[i]?.bind Task.overlooks with
    | none => isTrue (by simp [HeedsMarks, overlooked])
    | some id => decidable_of_iff (s.isMarked id = false) (by simp [HeedsMarks, overlooked])
  | .setHandler | .post _ _ | .handled _ _ | .disconnect _ => inferInstanceAs (Decidable True)

theorem new_balanced (config : SessionConfig) : (new config).Balanced where
  distinct _ := Nat.zero_le _
  registered _ _ found := by cases found
  nodup _ := List.nodup_nil
  budget _ id := by cases id <;> exact Nat.le_refl _
  counted _ := rfl
  completing _ one := by cases one
  closed _ _ _ asked := by cases asked

/-- Every sink is given at most one response for an id, where the marks are heeded. -/
theorem one_response_per_request {config : SessionConfig} {labels : List Label} {t : Session}
    (run : Run (Under (fun s l => s.FreshIds l ∧ s.HeedsMarks l) (Steps Session.step))
      (new config) labels t) :
    ∀ p ∈ t.posts, p.receivedIds.Nodup ∧ (p.Closed → p.Complete) := by
  have balanced : t.Balanced := by
    apply run.invariant_under _ (new_balanced config)
    intro s l t balanced condition stepped
    exact balanced.step stepped condition.1 condition.2
  intro p mem
  obtain ⟨k, found⟩ := List.getElem?_of_mem mem
  have view := post_of_get found
  constructor
  · obtain ⟨within, perm, sub⟩ := balanced.received_subperm k
    rw [view] at perm sub
    have nodup := balanced.nodup k
    rw [view] at nodup
    exact perm.nodup_iff.mp ((nodup.map fun _ _ same => Option.some.inj same).sublist sub)
  · have closed := balanced.closed k
    rwa [view] at closed

/-! ### A cancelled request whose handler fails -/

/-- A stateful session that answers with JSON. -/
def sampleConfig : SessionConfig :=
  { isJsonResponseEnabled := true, stateless := false, initializeResult := fun _ => .obj [] }

def callOf (id : Int) : Message := .request ⟨.number id, .named "tools/call", some (.obj [])⟩

def cancellationOf (id : Int) : Message := .notification (.cancelled (some ⟨.number id, ""⟩))

/-- The handshake, then a batch of two calls; the first is cancelled while its
handler runs. -/
def cancelledBatch : List Label :=
  [.setHandler, .post [.request ⟨.number 0, .init, none⟩] false] ++
    List.replicate 7 (.run 0) ++
    [.post [callOf 1, callOf 2] true, .run 1, .run 1, .post [cancellationOf 1] false] ++
    List.replicate 3 (.run 2)

/-- The answer to the second call completes the reply. -/
def cancelledBatchResult : List Label :=
  cancelledBatch ++ [.handled 1 (.result .null), .run 1, .run 1, .run 1,
    .handled 1 (.result .null)] ++ List.replicate 5 (.run 1)

/-- The handler of the first call fails. -/
def cancelledBatchError : List Label :=
  cancelledBatch ++ [.handled 1 (.error (.new (-32602) "Unknown tool"))] ++
    List.replicate 5 (.run 1)

theorem one_response_of_cancelled_batch :
    ∃ t, Run (Under (fun s l => s.FreshIds l ∧ s.HeedsMarks l) (Steps Session.step))
        (new sampleConfig) cancelledBatchResult t ∧
      (∃ p ∈ t.posts, p.requests = [.number 1, .number 2] ∧ p.Closed) ∧
      ∀ p ∈ t.posts, p.receivedIds.Nodup ∧ (p.Closed → p.Complete) := by
  have run := @run_under_of_foldlM _ _ Session.step
    (fun s l => s.FreshIds l ∧ s.HeedsMarks l) _ cancelledBatchResult (new sampleConfig) _ rfl
  exact ⟨_, run, ⟨_, .tail _ (.head _), rfl, by decide⟩, one_response_per_request run⟩

/-- The sink gets two responses for the first call, and none for the second. -/
theorem cancelled_error_answers_twice :
    ∃ t, Run (Under FreshIds (Steps Session.step)) (new sampleConfig) cancelledBatchError t ∧
      ∃ p ∈ t.posts, p.requests = [.number 1, .number 2] ∧
        p.receivedIds = [some (.number 1), some (.number 1)] ∧ p.Closed ∧ ¬p.Complete := by
  have run := @run_under_of_foldlM _ _ Session.step FreshIds _ cancelledBatchError
    (new sampleConfig) _ rfl
  refine ⟨_, run, ⟨_, .tail _ (.head _), rfl, rfl, by decide, ?_⟩⟩
  intro complete
  have missing := complete (.number 2) (.tail _ (.head _))
  exact absurd missing (by decide)

end Session

end AgentProtocols.MCP
