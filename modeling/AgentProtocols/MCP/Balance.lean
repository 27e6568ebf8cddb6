import Mathlib.Data.List.Count
import Mathlib.Data.List.Perm.Subperm
import AgentProtocols.Lib.Tally
import AgentProtocols.MCP.ServerSession

/-!
The balance of a session: one answer for each request. `Balanced.budget` bounds the requests in
flight, the answers on their way and the answers in the sink by the number of times the POST asks
for the id; `Balanced.counted` ties the counter of the sink to the responses not yet counted.
-/

namespace AgentProtocols.MCP

open Lib Place OrderedMap List

/-! ### What a task holds -/

/-- The request whose answer the task is to produce. -/
def Place.current : Place → List (RequestId × RequestContext)
  | registering id ctx => [(id, ctx)]
  | handling id ctx => [(id, ctx)]
  | answering id _ ctx => [(id, ctx)]
  | _ => []

/-- The request the task may have registered. -/
def Place.called : Place → List (RequestId × RequestContext)
  | handling id ctx => [(id, ctx)]
  | answering id _ ctx => [(id, ctx)]
  | _ => []

/-- The response the task is about to write, and its POST. -/
def Place.sent : Place → List (Option RequestId × Option Nat)
  | sending r ctx => [(r.id, ctx.sink)]
  | _ => []

/-- The POST whose counter the task is about to decrease. -/
def Place.uncounted : Place → List Nat
  | counting k => [k]
  | _ => []

/-- The POST the task is about to complete. -/
def Place.completing : Place → List Nat
  | closing k => [k]
  | replying k _ => [k]
  | _ => []

def queuedRequest (m : Message × RequestContext) : Option (RequestId × RequestContext) :=
  m.1.requestId?.map fun id => (id, m.2)

/-- The requests of a task without an answer. -/
def Task.inFlight (t : Task) : List (RequestId × RequestContext) :=
  t.place.current ++ t.queue.filterMap queuedRequest

def flights (id : RequestId) (t : Task) : Nat :=
  t.inFlight.countP fun e => e.1 = id

def opens (k : Nat) (id : RequestId) (t : Task) : Nat :=
  t.inFlight.countP fun e => e.1 = id ∧ e.2.sink = some k

def calls (id : RequestId) (sink : Option Nat) (t : Task) : Nat :=
  t.place.called.countP fun e => e.1 = id ∧ e.2.sink = sink

def sends (k : Nat) (id : Option RequestId) (t : Task) : Nat :=
  t.place.sent.countP fun e => e.1 = id ∧ e.2 = some k

def counts (k : Nat) (t : Task) : Nat := t.place.uncounted.count k

def completes (k : Nat) (t : Task) : Nat := t.place.completing.count k

theorem opens_le_flights (k : Nat) (id : RequestId) (t : Task) : opens k id t ≤ flights id t := by
  apply countP_mono_left
  intro e mem holds
  simp only [decide_eq_true_eq] at holds ⊢
  exact holds.1

theorem called_sublist_inFlight (t : Task) : t.place.called.Sublist t.inFlight := by
  have : t.place.called.Sublist t.place.current := by
    cases t.place <;> simp [called, current]
  exact this.trans (sublist_append_left _ _)

theorem calls_le_opens (k : Nat) (id : RequestId) (t : Task) :
    calls id (some k) t ≤ opens k id t :=
  (called_sublist_inFlight t).countP_le

theorem calls_le_flights (id : RequestId) (sink : Option Nat) (t : Task) :
    calls id sink t ≤ flights id t := by
  refine Nat.le_trans ?_ (called_sublist_inFlight t).countP_le
  apply countP_mono_left
  intro e mem holds
  simp only [decide_eq_true_eq] at holds ⊢
  exact holds.1

/-! ### The balance -/

def Post.absent : Post := ⟨[], .ofSse 0, [], false, none, false⟩

/-- The ids of the responses the sink was given. -/
def Post.receivedIds (p : Post) : List (Option RequestId) := p.received.map Response.id

def Post.Complete (p : Post) : Prop := ∀ id ∈ p.requests, some id ∈ p.receivedIds

def Post.asked (p : Post) (id : Option RequestId) : Nat := p.requests.countP fun j => some j = id

def Post.got (p : Post) (id : Option RequestId) : Nat := p.received.countP fun r => r.id = id

namespace Session

def post (s : Session) (k : Nat) : Post := s.posts[k]?.getD .absent

/-- The answers to the id that are still to come. -/
def owed (s : Session) (k : Nat) : Option RequestId → Nat
  | none => 0
  | some id => if s.isMarked id then 0 else tally (opens k id) s.tasks

/-- What a session keeps about ids, the request map, its answers and its sinks. -/
structure Balanced (s : Session) : Prop where
  distinct : ∀ id, tally (flights id) s.tasks ≤ 1
  registered : ∀ id e, s.sessionRequests.get? id = some e → 1 ≤ tally (calls id e.sink) s.tasks
  nodup : ∀ k, (s.post k).requests.Nodup
  budget : ∀ k id, tally (sends k id) s.tasks + (s.post k).got id + s.owed k id ≤ (s.post k).asked id
  counted : ∀ k, (s.post k).sink.expected + (s.post k).received.length =
    (s.post k).requests.length + tally (counts k) s.tasks
  completing : ∀ k, 1 ≤ tally (completes k) s.tasks → k < s.posts.length ∧ (s.post k).Complete
  closed : ∀ k, (s.post k).Closed → (s.post k).Complete

variable {s s' : Session} {i : Nat} {t t' : Task}

theorem post_congr (posts : s'.posts = s.posts) (k : Nat) : s'.post k = s.post k := by
  rw [post, post, posts]

variable {id : RequestId} {k : Nat}

theorem post_of_get {p : Post} (found : s.posts[k]? = some p) : s.post k = p := by
  rw [post, found, Option.getD_some]

theorem post_of_le (beyond : s.posts.length ≤ k) : s.post k = .absent := by
  rw [post, getElem?_eq_none beyond, Option.getD_none]

theorem post_set {p p' : Post} (found : s.posts[k]? = some p)
    (posts : s'.posts = s.posts.set k p') (j : Nat) :
    s'.post j = if j = k then p' else s.post j := by
  have bound : k < s.posts.length := (List.getElem?_eq_some_iff.mp found).1
  rw [post, posts]
  by_cases same : j = k
  · rw [same, List.getElem?_set_self bound, if_pos rfl, Option.getD_some]
  · rw [List.getElem?_set_ne (Ne.symm same), if_neg same, post]

theorem isMarked_congr (requests : s'.sessionRequests = s.sessionRequests) (id : RequestId) :
    s'.isMarked id = s.isMarked id := by
  rw [isMarked, isMarked, requests]

theorem isMarked_insert {e : RequestContext}
    (requests : s'.sessionRequests = s.sessionRequests.insert id e) (j : RequestId) :
    s'.isMarked j = if j = id then e.isCancelled else s.isMarked j := by
  rw [isMarked, requests, get?_insert]
  split
  · rfl
  · rw [isMarked]

theorem isMarked_erase {j : RequestId}
    (requests : s'.sessionRequests = s.sessionRequests.erase id) (ne : j ≠ id) :
    s'.isMarked j = s.isMarked j := by
  rw [isMarked, requests, get?_erase_of_ne ne, isMarked]

theorem owed_le (at_i : s.tasks[i]? = some t) (tasks : s'.tasks = s.tasks.set i t')
    (marks : s.isMarked id = true → s'.isMarked id = true)
    (fewer : opens k id t' ≤ opens k id t) : s'.owed k (some id) ≤ s.owed k (some id) := by
  have moved := @tally_set _ (opens k id) _ _ t' _ at_i
  rw [owed, owed]
  by_cases before : s.isMarked id = true
  · rw [if_pos before, if_pos (marks before)]
  · rw [tasks]
    split <;> omega

namespace Balanced

variable (b : s.Balanced)

include b

theorem move (at_i : s.tasks[i]? = some t) (tasks : s'.tasks = s.tasks.set i t')
    (requests : s'.sessionRequests = s.sessionRequests) (length : s'.posts.length = s.posts.length)
    (inFlight : t'.inFlight.Sublist t.inFlight) (called : t.place.called.Sublist t'.place.called)
    (asks : ∀ k, (s'.post k).requests = (s.post k).requests)
    (budget : ∀ k id, sends k id t' + (s'.post k).got id ≤ sends k id t + (s.post k).got id)
    (counted : ∀ k, (s'.post k).sink.expected + (s'.post k).received.length + counts k t =
      (s.post k).sink.expected + (s.post k).received.length + counts k t')
    (kept : ∀ k, (s.post k).Complete → (s'.post k).Complete) (completing : ∀ k, 1 ≤ completes k t' →
      1 ≤ completes k t ∨ (k < s.posts.length ∧ (s'.post k).Complete))
    (closed : ∀ k, (s'.post k).Closed → (s.post k).Closed ∨ (s'.post k).Complete) :
    s'.Balanced where
  distinct id := by
    have moved := @tally_set _ (flights id) _ _ t' _ at_i
    have fewer : flights id t' ≤ flights id t := inFlight.countP_le
    have once := b.distinct id
    rw [tasks]
    omega
  registered id e found := by
    rw [requests] at found
    have moved := @tally_set _ (calls id e.sink) _ _ t' _ at_i
    have more : calls id e.sink t ≤ calls id e.sink t' := called.countP_le
    have here := b.registered id e found
    rw [tasks]
    omega
  nodup k := by
    rw [asks]
    exact b.nodup k
  budget k id := by
    have moved := @tally_set _ (sends k id) _ _ t' _ at_i
    have before := b.budget k id
    have exchanged := budget k id
    have owes : s'.owed k id ≤ s.owed k id := by
      cases id with
      | none => exact Nat.le_refl _
      | some id =>
        apply owed_le at_i tasks
        · intro marked
          rw [isMarked_congr requests, marked]
        · exact inFlight.countP_le
    have same : (s'.post k).asked id = (s.post k).asked id := by rw [Post.asked, asks, Post.asked]
    rw [tasks]
    omega
  counted k := by
    have moved := @tally_set _ (counts k) _ _ t' _ at_i
    have before := b.counted k
    have exchanged := counted k
    rw [tasks, asks]
    omega
  completing k one := by
    have moved := @tally_set _ (completes k) _ _ t' _ at_i
    rw [tasks] at one
    rw [length]
    by_cases now : 1 ≤ completes k t'
    · rcases completing k now with before | complete
      · have held := @weight_le_tally _ (completes k) _ _ _ at_i
        obtain ⟨bound, complete⟩ := b.completing k (by omega)
        exact ⟨bound, kept k complete⟩
      · exact complete
    · obtain ⟨bound, complete⟩ := b.completing k (by omega)
      exact ⟨bound, kept k complete⟩
  closed k closes := by
    rcases closed k closes with before | complete
    · exact kept k (b.closed k before)
    · exact complete

/-- A task moves and the POSTs stay: its requests are answered or marked. -/
theorem remap (at_i : s.tasks[i]? = some t) (tasks : s'.tasks = s.tasks.set i t')
    (posts : s'.posts = s.posts) (inFlight : t'.inFlight.Sublist t.inFlight)
    (uncounted : t'.place.uncounted = t.place.uncounted)
    (completing : t'.place.completing = t.place.completing)
    (registered : ∀ id e, s'.sessionRequests.get? id = some e →
      1 ≤ tally (calls id e.sink) s'.tasks)
    (budget : ∀ k id, tally (sends k id) s'.tasks + s'.owed k id ≤
      tally (sends k id) s.tasks + s.owed k id) : s'.Balanced where
  distinct id := by
    have moved := @tally_set _ (flights id) _ _ t' _ at_i
    have fewer : flights id t' ≤ flights id t := inFlight.countP_le
    have once := b.distinct id
    rw [tasks]
    omega
  registered := registered
  nodup k := by
    rw [post_congr posts]
    exact b.nodup k
  budget k id := by
    have before := b.budget k id
    have exchanged := budget k id
    rw [post_congr posts]
    omega
  counted k := by
    have moved := @tally_set _ (counts k) _ _ t' _ at_i
    have same : counts k t' = counts k t := by rw [counts, uncounted, counts]
    have before := b.counted k
    rw [post_congr posts, tasks]
    omega
  completing k one := by
    have moved := @tally_set _ (completes k) _ _ t' _ at_i
    have same : completes k t' = completes k t := by rw [completes, completing, completes]
    rw [tasks] at one
    rw [posts, post_congr posts]
    exact b.completing k (by omega)
  closed k closes := by
    rw [post_congr posts] at closes ⊢
    exact b.closed k closes

omit b

/-! ### Sections that touch the request map -/

variable {p p' : Post} {k : Nat} {id : RequestId} {r : Response} {ctx : RequestContext}

include b

theorem sole (at_i : s.tasks[i]? = some t)
    (holds : 1 ≤ flights id t) {weight : Task → Nat} (le : ∀ u, weight u ≤ flights id u) :
    tally weight s.tasks = weight t :=
  tally_eq_of_sole at_i (Nat.le_trans (b.distinct id) holds) le

theorem register (at_i : s.tasks[i]? = some t) (place : t.place = .registering id ctx)
    (tasks : s'.tasks = s.tasks.set i { t with place := .handling id ctx })
    (posts : s'.posts = s.posts)
    (requests : s'.sessionRequests = s.sessionRequests.insert id ctx) : s'.Balanced := by
  have holds : 1 ≤ flights id t := by
    simp [flights, Task.inFlight, place, current]
  have unmarked : s.isMarked id = false := by
    cases found : s.sessionRequests.get? id with
    | none => rw [isMarked, found, Option.elim_none]
    | some e =>
      have one := b.registered id e found
      have all := b.sole at_i holds (calls_le_flights id e.sink)
      have none_called : calls id e.sink t = 0 := by simp [calls, place, called]
      omega
  have inFlight : ({ t with place := .handling id ctx } : Task).inFlight = t.inFlight := by
    simp [Task.inFlight, place, current]
  apply b.remap at_i tasks posts
  · rw [inFlight]
  · rw [place]
    rfl
  · rw [place]
    rfl
  · intro j e found
    have moved := @tally_set _ (calls j e.sink) _ _ { t with place := .handling id ctx } _ at_i
    have before : calls j e.sink t = 0 := by simp [calls, place, called]
    rw [requests, get?_insert] at found
    rw [tasks]
    split at found
    · rename_i same
      cases found
      have after : calls j ctx.sink { t with place := .handling id ctx } = 1 := by
        simp [calls, called, same]
      omega
    · have registered := b.registered j e found
      omega
  · intro k j
    have moved := @tally_set _ (sends k j) _ _ { t with place := .handling id ctx } _ at_i
    have silent : sends k j { t with place := .handling id ctx } = 0 := by
      simp [sends, sent]
    have owes : s'.owed k j ≤ s.owed k j := by
      cases j with
      | none => exact Nat.le_refl _
      | some j =>
        apply owed_le at_i tasks
        · intro marked
          rw [isMarked_insert requests, if_neg, marked]
          intro same
          rw [same, unmarked] at marked
          cases marked
        · rw [opens, inFlight, opens]
    rw [tasks]
    omega

theorem answered (at_i : s.tasks[i]? = some t)
    {outcome : Outcome} (place : t.place = .answering id outcome ctx)
    (tasks : s'.tasks = s.tasks.set i t') (queue : t'.queue = t.queue) (posts : s'.posts = s.posts)
    (requests : s'.sessionRequests = s.sessionRequests.erase id) (answer : t'.place = .between ∨
      s.isMarked id = false ∧ ∃ r, r.id = some id ∧ t'.place = .sending r ctx) : s'.Balanced := by
  have holds : 1 ≤ flights id t := by
    simp [flights, Task.inFlight, place, current]
  have left : t'.inFlight = t.queue.filterMap queuedRequest := by
    rcases answer with idle | ⟨-, r, -, sending⟩
    · simp [Task.inFlight, idle, queue, current]
    · simp [Task.inFlight, sending, queue, current]
  have here : t.inFlight = (id, ctx) :: t'.inFlight := by
    rw [left, Task.inFlight, place]
    rfl
  apply b.remap at_i tasks posts
  · rw [here]
    exact sublist_cons_self _ _
  · rcases answer with idle | ⟨-, r, -, sending⟩
    · rw [idle, place]
      rfl
    · rw [sending, place]
      rfl
  · rcases answer with idle | ⟨-, r, -, sending⟩
    · rw [idle, place]
      rfl
    · rw [sending, place]
      rfl
  · intro j e found
    have ne : j ≠ id := by
      intro same
      rw [requests, same, get?_erase_self] at found
      cases found
    rw [requests, get?_erase_of_ne ne] at found
    have registered := b.registered j e found
    have moved := @tally_set _ (calls j e.sink) _ _ t' _ at_i
    have before : calls j e.sink t = 0 := by
      simp [calls, place, called, Ne.symm ne]
    rw [tasks]
    omega
  · intro k j
    have moved := @tally_set _ (sends k j) _ _ t' _ at_i
    rw [tasks]
    by_cases same : j = some id
    · subst same
      have once := b.distinct id
      have count : flights id t = flights id t' + 1 := by simp [flights, here]
      have held := @weight_le_tally _ (flights id) _ _ _ at_i
      have gone : s'.owed k (some id) = 0 := by
        have all := b.sole at_i holds (opens_le_flights k id)
        have change := @tally_set _ (opens k id) _ _ t' _ at_i
        have bound := opens_le_flights k id t'
        rw [owed, tasks]
        split <;> omega
      rcases answer with idle | ⟨unmarked, r, named, sending⟩
      · have quiet : sends k (some id) t' = 0 := by simp [sends, idle, sent]
        omega
      · have owing : s.owed k (some id) = opens k id t := by
          rw [owed, unmarked]
          exact b.sole at_i holds (opens_le_flights k id)
        have paid : sends k (some id) t' ≤ opens k id t := by
          rw [sends, opens, here, sending]
          by_cases sink : ctx.sink = some k
          · simp [sent, sink, named]
          · simp [sent, sink]
        omega
    · have other : sends k j t' = 0 := by
        rcases answer with idle | ⟨-, r, named, sending⟩
        · simp [sends, idle, sent]
        · simp [sends, sending, sent, named, Ne.symm same]
      have owes : s'.owed k j ≤ s.owed k j := by
        cases j with
        | none => exact Nat.le_refl _
        | some j =>
          apply owed_le at_i tasks
          · intro marked
            rw [isMarked_erase requests (by simpa using same), marked]
          · rw [opens, opens, here]
            exact (sublist_cons_self _ _).countP_le
      omega

theorem cancel (at_i : s.tasks[i]? = some t)
    {entry : RequestContext} (place : t.place = .between) (found : s.sessionRequests.get? id = some entry)
    (unmarked : s.isMarked id = false) (inFlight : t'.inFlight = t.inFlight)
    (tasks : s'.tasks = s.tasks.set i t') (posts : s'.posts = s.posts)
    (requests : s'.sessionRequests = s.sessionRequests.insert id { entry with isCancelled := true })
    (named : r.id = some id)
    (sending : t'.place = .sending r { entry with isCancelled := true }) : s'.Balanced := by
  apply b.remap at_i tasks posts
  · rw [inFlight]
  · rw [sending, place]
    rfl
  · rw [sending, place]
    rfl
  · intro j e found'
    have moved := @tally_set _ (calls j e.sink) _ _ t' _ at_i
    have before : calls j e.sink t = 0 := by simp [calls, place, called]
    rw [requests, get?_insert] at found'
    rw [tasks]
    split at found'
    · rename_i same
      cases found'
      have registered := b.registered id entry found
      rw [same] at moved before ⊢
      simp only at moved before ⊢
      omega
    · have registered := b.registered j e found'
      omega
  · intro k j
    have moved := @tally_set _ (sends k j) _ _ t' _ at_i
    rw [tasks]
    by_cases same : j = some id
    · subst same
      have gone : s'.owed k (some id) = 0 := by
        rw [owed, isMarked_insert requests, if_pos rfl, if_pos rfl]
      have owing : s.owed k (some id) = tally (opens k id) s.tasks := by
        rw [owed, unmarked, if_neg Bool.false_ne_true]
      by_cases sink : entry.sink = some k
      · have one : sends k (some id) t' = 1 := by simp [sends, sending, sent, named, sink]
        have registered := b.registered id entry found
        rw [sink] at registered
        have paid := @tally_le _ _ _ s.tasks (calls_le_opens k id)
        omega
      · have none_sent : sends k (some id) t' = 0 := by
          simp [sends, sending, sent, sink]
        omega
    · have other : sends k j t' = 0 := by
        simp [sends, sending, sent, named, Ne.symm same]
      have owes : s'.owed k j ≤ s.owed k j := by
        cases j with
        | none => exact Nat.le_refl _
        | some j =>
          apply owed_le at_i tasks
          · intro marked
            rw [isMarked_insert requests, if_neg (by simpa using same), marked]
          · rw [opens, inFlight, opens]
      omega

omit b

/-! ### Sections that touch a sink -/

theorem writeSink_eq (wrote : s.writeSink p r = some p') :
    p'.requests = p.requests ∧ p'.received = p.received ++ [r] ∧
      p'.sink.expected = p.sink.expected ∧ p'.reply = p.reply ∧ p'.ended = p.ended := by
  rw [writeSink] at wrote
  split at wrote
  · split at wrote
    · cases wrote
      exact ⟨rfl, rfl, rfl, rfl, rfl⟩
    · cases wrote
  · split at wrote
    · cases wrote
      exact ⟨rfl, rfl, rfl, rfl, rfl⟩
    · cases wrote

include b

theorem written (at_i : s.tasks[i]? = some t) (place : t.place = .sending r ctx)
    (sink : ctx.sink = some k) (found : s.posts[k]? = some p)
    (tasks : s'.tasks = s.tasks.set i { t with place := .counting k })
    (posts : s'.posts = s.posts.set k p') (requests : s'.sessionRequests = s.sessionRequests)
    (wrote : s.writeSink p r = some p') : s'.Balanced := by
  obtain ⟨asks, received, expected, reply, ended⟩ := writeSink_eq wrote
  have view := post_set found posts
  have old := post_of_get found
  apply b.move at_i tasks requests (by rw [posts, length_set])
  · simp [Task.inFlight, current]
  · simp [place, called]
  · intro j
    rw [view]
    split
    · rename_i same
      rw [same, old, asks]
    · rfl
  · intro j id
    have silent : sends j id { t with place := .counting k } = 0 := by simp [sends, sent]
    rw [view, silent]
    split
    · rename_i same
      have count : p'.got id = p.got id + (if r.id = id then 1 else 0) := by
        simp [Post.got, received]
      have moving : sends j id t = if r.id = id then 1 else 0 := by
        simp [sends, place, sent, sink, same]
      rw [same, old, ← same]
      omega
    · omega
  · intro j
    have before : counts j t = 0 := by simp [counts, place, uncounted]
    have after : counts j { t with place := .counting k } = if j = k then 1 else 0 := by
      simp [counts, uncounted, count_singleton, @eq_comm _ k j]
    rw [view, before, after]
    split
    · rename_i same
      rw [same, old, received, length_append, length_singleton]
      omega
    · rfl
  · intro j complete
    rw [view]
    split
    · rename_i same
      rw [same, old] at complete
      intro id asked
      rw [asks] at asked
      simp only [Post.receivedIds, received, map_append, mem_append]
      exact .inl (complete id asked)
    · exact complete
  · intro j one
    simp [completes, Place.completing] at one
  · intro j closes
    rw [view] at closes
    left
    split at closes
    · rename_i same
      rw [same, old]
      rwa [Post.Closed, reply, ended] at closes
    · exact closes

theorem received_subperm (k : Nat) :
    (s.post k).receivedIds.Subperm ((s.post k).requests.map some) := by
  rw [subperm_iff_count]
  intro id
  have budget := b.budget k id
  have within : (s.post k).got id ≤ (s.post k).asked id := by omega
  unfold count
  rw [Post.receivedIds, countP_map, countP_map]
  refine Nat.le_trans (Nat.le_of_eq ?_) (Nat.le_trans within (Nat.le_of_eq ?_))
  · exact countP_congr (by simp)
  · exact countP_congr (by simp)

theorem complete_of_length
    (enough : (s.post k).requests.length ≤ (s.post k).received.length) : (s.post k).Complete := by
  have perm := (b.received_subperm k).perm_of_length_le (by simpa [Post.receivedIds] using enough)
  intro id asked
  exact perm.mem_iff.mpr (mem_map_of_mem asked)

theorem received_le (k : Nat) : (s.post k).received.length ≤ (s.post k).requests.length := by
  simpa [Post.receivedIds] using (b.received_subperm k).length_le

theorem delivered (at_i : s.tasks[i]? = some t)
    (place : t.place = .counting k) (found : s.posts[k]? = some p) :
    (s.responseDelivered i t k p).Balanced := by
  have old := post_of_get found
  have held := @weight_le_tally _ (counts k) _ _ _ at_i
  have one : counts k t = 1 := by simp [counts, place, uncounted]
  have counted := b.counted k
  have bound := b.received_le k
  rw [old] at counted bound
  have pred : wrappingPred p.sink.expected = p.sink.expected - 1 := by
    rw [wrappingPred, if_neg (by omega)]
  have view := @post_set s (s.responseDelivered i t k p) k p _ found rfl
  apply b.move at_i (show (s.responseDelivered i t k p).tasks = _ from rfl) rfl
    (by simp [responseDelivered, setTask, setPost])
  · simp only [Task.inFlight, place]
    split <;> exact List.Sublist.refl _
  · rw [place]
    exact List.nil_sublist _
  · intro j
    rw [view]
    split
    · rename_i same
      rw [same, old]
    · rfl
  · intro j id
    have silent : sends j id { t with
        place := if p.sink.expected ≤ 1 then .closing k else .between } = 0 := by
      split <;> rfl
    rw [view, silent]
    split
    · rename_i same
      rw [same, old]
      exact Nat.add_le_add_right (Nat.zero_le _) (p.got id)
    · omega
  · intro j
    have after : counts j { t with
        place := if p.sink.expected ≤ 1 then .closing k else .between } = 0 := by
      split <;> rfl
    have before : counts j t = if j = k then 1 else 0 := by
      simp [counts, place, uncounted, List.count_singleton, @eq_comm _ k j]
    rw [view, after, before]
    split
    · rename_i same
      rw [same, old]
      simp only [pred]
      omega
    · rfl
  · intro j complete
    rw [view]
    split
    · rename_i same
      rw [same, old] at complete
      exact complete
    · exact complete
  · intro j closes
    right
    by_cases last : p.sink.expected ≤ 1
    · have same : j = k := by
        by_contra ne
        simp [completes, last, Place.completing, Ne.symm ne] at closes
      have complete : (s.post k).Complete := by
        apply b.complete_of_length
        rw [old]
        omega
      rw [old] at complete
      rw [view, if_pos same, same]
      exact ⟨(List.getElem?_eq_some_iff.mp found).1, complete⟩
    · simp [completes, last, Place.completing] at closes
  · intro j closes
    left
    rw [view] at closes
    split at closes
    · rename_i same
      rw [same, old]
      exact closes
    · exact closes

theorem quiet (at_i : s.tasks[i]? = some t) (tasks : s'.tasks = s.tasks.set i t')
    (requests : s'.sessionRequests = s.sessionRequests) (posts : s'.posts = s.posts)
    (inFlight : t'.inFlight.Sublist t.inFlight) (called : t.place.called.Sublist t'.place.called)
    (sent : t'.place.sent = []) (uncounted : t'.place.uncounted = t.place.uncounted)
    (completing : t'.place.completing = []) : s'.Balanced := by
  apply b.move at_i tasks requests (by rw [posts]) inFlight called
  · intro k
    rw [post_congr posts]
  · intro k id
    have silent : sends k id t' = 0 := by simp [sends, sent]
    rw [post_congr posts]
    omega
  · intro k
    rw [post_congr posts, counts, counts, uncounted]
  · intro k complete
    rwa [post_congr posts]
  · intro k one
    simp [completes, completing] at one
  · intro k closes
    rw [post_congr posts] at closes
    exact .inl closes

theorem completed (at_i : s.tasks[i]? = some t)
    (about : t.place.completing = [k]) (found : s.posts[k]? = some p)
    (tasks : s'.tasks = s.tasks.set i t') (posts : s'.posts = s.posts.set k p')
    (requests : s'.sessionRequests = s.sessionRequests)
    (asks : p'.requests = p.requests) (received : p'.received = p.received)
    (expected : p'.sink.expected = p.sink.expected) (queue : t'.queue = t.queue)
    (place : t'.place = .between ∨ ∃ items, t'.place = .replying k items) : s'.Balanced := by
  have view := post_set found posts
  have old := post_of_get found
  have one : completes k t = 1 := by simp [completes, about]
  have held := @weight_le_tally _ (completes k) _ _ _ at_i
  have complete : p.Complete := by
    rw [← old]
    exact (b.completing k (by omega)).2
  have complete' : p'.Complete := by
    intro id asked
    rw [asks] at asked
    rw [Post.receivedIds, received]
    exact complete id asked
  apply b.move at_i tasks requests (by rw [posts, length_set])
  · rcases place with idle | ⟨items, replying⟩
    · simp [Task.inFlight, idle, queue, Place.current]
    · simp [Task.inFlight, replying, queue, Place.current]
  · have uncalled : t.place.called = [] := by
      revert about
      cases t.place <;> simp [Place.called, Place.completing]
    rw [uncalled]
    exact nil_sublist _
  · intro j
    rw [view]
    split
    · rename_i same
      rw [same, old, asks]
    · rfl
  · intro j id
    have silent : sends j id t' = 0 := by
      rcases place with idle | ⟨items, replying⟩
      · simp [sends, idle, sent]
      · simp [sends, replying, sent]
    rw [view, silent]
    split
    · rename_i same
      rw [same, old, Post.got, received, Post.got]
      omega
    · omega
  · intro j
    have before : counts j t = 0 := by
      rw [counts]
      revert about
      cases t.place <;> simp [Place.uncounted, Place.completing]
    have after : counts j t' = 0 := by
      rcases place with idle | ⟨items, replying⟩
      · simp [counts, idle, uncounted]
      · simp [counts, replying, uncounted]
    rw [view, before, after]
    split
    · rename_i same
      rw [same, old, expected, received]
    · rfl
  · intro j complete
    rw [view]
    split
    · exact complete'
    · exact complete
  · intro j closes
    left
    rcases place with idle | ⟨items, replying⟩
    · simp [completes, idle, Place.completing] at closes
    · rw [completes, replying] at closes
      rw [completes, about]
      exact closes
  · intro j closes
    rw [view] at closes ⊢
    split
    · exact .inr complete'
    · rename_i other
      rw [if_neg other] at closes
      exact .inl closes

omit b

end Balanced

end Session

end AgentProtocols.MCP
