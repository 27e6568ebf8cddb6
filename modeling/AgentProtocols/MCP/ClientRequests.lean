import Mathlib.Data.Option.Basic
import AgentProtocols.MCP.ClientSession

/-!
Every request of the MCP client is answered exactly once.

* `Sound.step` — the invariant is kept by every step that meets `Kept`.
* `request_answered_once` — in every run of such steps, what completes a request carries its id and
  answers a message of its session; a call has one outcome, and no ended request is pending.
* `cut_stream_leaves_request` — a stream that breaks leaves its request pending.
-/

namespace AgentProtocols.MCP.Client

open Lib State OrderedMap List

/-! ### Places -/

/-- The channel may be in the map. -/
def CallPlace.inMap : CallPlace → Bool
  | .registered | .awaiting | .removing _ | .erasing _ => true
  | _ => false

/-- The callback may be in `progress`. -/
def CallPlace.inProgress : CallPlace → Bool
  | .progressed | .registered | .awaiting | .removing _ => true
  | _ => false

/-- The calls whose sending halves the task holds. -/
def TaskPlace.senders : TaskPlace → List Nat
  | .sending c _ _ => [c]
  | .clearing _ _ calls | .failing _ calls => calls
  | _ => []

/-- The task is neither in `complete` nor in `fail_all`. -/
def TaskPlace.isFree : TaskPlace → Bool
  | .posting | .streaming | .delivering _ _ | .ended => true
  | _ => false

/-- The task reads its stream on. -/
def Next.goesOn : Next → Bool
  | .ends => false
  | .streams => true

def RespondsTo (id : RequestId) : Message → Prop
  | .response r => r.id = some id
  | _ => False

instance (id : RequestId) : DecidablePred (RespondsTo id)
  | .response r => inferInstanceAs (Decidable (r.id = some id))
  | .request _ | .notification _ => inferInstanceAs (Decidable False)

/-- The task has not ended, and is on its way to complete the request before it does. -/
def TaskPlace.Covers (id : RequestId) : TaskPlace → Prop
  | .posting | .streaming => True
  | .delivering message next => next.goesOn ∨ RespondsTo id message
  | .retiring _ id' _ next | .taking _ id' _ next => next.goesOn ∨ id' = id
  | .sending _ _ next => next.goesOn
  | _ => False

/-- What is sent carries the id of the call and answers a message of its session. -/
def Completion.Fits (call : Call) : Completion → Prop
  | .response id σ _ => id = call.id ∧ σ = call.session
  | .disconnected _ => True

namespace State

def Past (s : State) (σ : Nat) (id : RequestId) : Prop :=
  (∀ call ∈ s.calls, call.session = σ → call.id = id → call.place.isRegistered) ∧
    ∀ n, id = .number n → n < (s.session σ).nextId

end State

instance (s : State) (σ : Nat) : DecidablePred (s.Past σ) := fun id =>
  match id with
  | .number m => decidable_of_iff
      ((∀ call ∈ s.calls, call.session = σ → call.id = .number m → call.place.isRegistered) ∧
        m < (s.session σ).nextId)
      (and_congr_right fun _ => ⟨fun below _ is_n => by cases is_n; exact below,
        fun below => below m rfl⟩)
  | .string w => decidable_of_iff
      (∀ call ∈ s.calls, call.session = σ → call.id = .string w → call.place.isRegistered)
      (iff_self_and.mpr fun _ _ is_n => by cases is_n)

/-! ### The condition -/

def State.Pending (s : State) (t : Task) (id : RequestId) : Prop :=
  (s.session t.session).map.get? id ≠ none

instance (s : State) (t : Task) : DecidablePred (s.Pending t) := fun id =>
  inferInstanceAs (Decidable ((s.session t.session).map.get? id ≠ none))

/-- The session that the callback of the transport upgrades to. -/
def State.listener (s : State) : Option Nat := s.callback.filter s.alive

/-- The session in which a call of `McpClient` allocates an id next. -/
def ClientThread.allocates (current : Option Nat) : ClientThread → Option Nat
  | .opened σ => some σ
  | .requesting _ => current
  | _ => none

/-- A POST that is answered with JSON is answered with its response. -/
def HttpOutcome.Answers (id : RequestId) : HttpOutcome → Prop
  | .answer code contentType (.ok (.ok message)) => code ≠ 202 ∧
      (isSuccess code → contentType.any isJson → RespondsTo id message)
  | .answer code _ _ => code ≠ 202
  | .notRunning | .failed _ => True

/-- A response with an id meets the session that has posted for it, or nothing pending. -/
def State.Delivers (s : State) (t : Task) (message : Message) (next : Next) : Option Nat → Prop
  | some σ => isResponse message → σ = t.session
  | none => next = .streams ∨ ∀ id ∈ t.request, ¬ s.Pending t id

def State.Advances (s : State) (t : Task) : TaskPlace → Prop
  | .delivering message next => s.Delivers t message next s.listener
  | .retiring σ id _ _ => s.Past σ id
  | _ => True

/-- What a step asks for: fresh ids, no early drop, and answers that come to the right session. -/
def Kept (s : State) : Event → Prop
  | .client j => ∀ thread ∈ s.threads[j]?, ∀ σ ∈ thread.allocates s.current,
      (s.session σ).nextId + 1 < 2 ^ 63
  | .drop c => ∀ call ∈ s.calls[c]?,
      (s.session call.session).map.get? call.id = none ∧
        (s.session call.session).progress.get? call.id = none
  | .answered k outcome => ∀ t ∈ s.tasks[k]?, ∀ id ∈ t.request, s.Pending t id →
      outcome.Answers id
  | .sse k e => ∀ t ∈ s.tasks[k]?, ∀ id ∈ t.request, s.Pending t id →
      ∀ message ∈ e.message?, isResponse message → RespondsTo id message
  | .streamEnds k last => ∀ t ∈ s.tasks[k]?, ∀ id ∈ t.request, s.Pending t id →
      ∃ message ∈ last.bind SseEvent.message?, RespondsTo id message
  | .cut k => ∀ t ∈ s.tasks[k]?, ∀ id ∈ t.request, ¬ s.Pending t id
  | .task k => ∀ t ∈ s.tasks[k]?, s.Advances t t.place
  | _ => True

instance (id : RequestId) : DecidablePred (HttpOutcome.Answers id)
  | .answer _ _ (.ok (.ok _)) => inferInstanceAs (Decidable (_ ∧ _))
  | .answer _ _ (.ok (.error _)) | .answer _ _ (.error _) => inferInstanceAs (Decidable (_ ≠ _))
  | .notRunning | .failed _ => inferInstanceAs (Decidable True)

instance (s : State) (t : Task) (message : Message) (next : Next) :
    DecidablePred (s.Delivers t message next)
  | some σ => inferInstanceAs (Decidable (isResponse message → σ = t.session))
  | none => inferInstanceAs (Decidable (next = .streams ∨ ∀ id ∈ t.request, ¬ s.Pending t id))

instance (s : State) (t : Task) : DecidablePred (s.Advances t) := fun place => by
  cases place <;> unfold State.Advances <;> infer_instance

instance (s : State) : DecidablePred (Kept s) := fun e => by
  cases e <;> unfold Kept <;> infer_instance

/-! ### The invariant -/

structure CallOk (s : State) (call : Call) : Prop where
  id : ∃ n, call.id = .number n ∧ 0 < n ∧ n < (s.session call.session).nextId
  early : call.place.isRegistered = false → call.channel = []
  once : call.channel.length ≤ 1
  fits : ∀ x ∈ call.channel, x.Fits call
  outcomes : call.place = .returned → call.outcomes.length = 1
  noOutcome : call.place ≠ .returned → call.outcomes = []

structure TaskOk (s : State) (t : Task) : Prop where
  request : ∀ id, t.request = some id → t.kind = .post ∧ ∃ (c : Nat) (call : Call),
    s.calls[c]? = some call ∧ call.session = t.session ∧ call.id = id ∧ call.place.isRegistered
  covers : ∀ id, t.request = some id →
    t.place.Covers id ∨ (s.session t.session).map.get? id = none
  retiring : ∀ σ id result next, t.place = .retiring σ id result next → σ = t.session
  taking : ∀ σ id result next, t.place = .taking σ id result next →
    σ = t.session ∧ (s.session σ).progress.get? id = none ∧ s.Past σ id
  senders : ∀ c ∈ t.place.senders, ∃ call, s.calls[c]? = some call ∧
    call.place.isRegistered ∧ call.channel = [] ∧
    (s.session call.session).map.get? call.id = none ∧
    ((s.session call.session).progress.get? call.id = none ∨
      ∃ error calls, t.place = .clearing call.session error calls)
  fits : ∀ c completion next, t.place = .sending c completion next →
    ∀ call, s.calls[c]? = some call → completion.Fits call
  nodup : t.place.senders.Nodup

structure Sound (s : State) : Prop where
  positive : ∀ σ, 0 < (s.session σ).nextId
  calls : ∀ (c : Nat) call, s.calls[c]? = some call → CallOk s call
  unique : ∀ (c c' : Nat) call call', s.calls[c]? = some call → s.calls[c']? = some call' →
    call.session = call'.session → call.id = call'.id → c = c'
  map : ∀ σ id c, (s.session σ).map.get? id = some c → ∃ call, s.calls[c]? = some call ∧
    call.session = σ ∧ call.id = id ∧ call.place.inMap ∧ call.channel = []
  progress : ∀ σ id c, (s.session σ).progress.get? id = some c → ∃ call,
    s.calls[c]? = some call ∧ call.session = σ ∧ call.id = id ∧ call.place.inProgress ∧
    call.channel = []
  tasks : ∀ (k : Nat) t, s.tasks[k]? = some t → TaskOk s t
  holders : ∀ (k k' : Nat) t t' c, s.tasks[k]? = some t → s.tasks[k']? = some t' →
    c ∈ t.place.senders → c ∈ t'.place.senders → k = k'

section

variable {s s' : State} {c k σ : Nat} {call call' : Call} {t t' : Task} {id : RequestId}

theorem CallPlace.isRegistered_of_inMap {place : CallPlace} (mem : place.inMap) :
    place.isRegistered := by
  cases place <;> first | rfl | cases mem

theorem Sound.past (sound : Sound s) (at_c : s.calls[c]? = some call)
    (registered : call.place.isRegistered) : s.Past call.session call.id := by
  constructor
  · intro other mem session id
    obtain ⟨c', at_c'⟩ := getElem?_of_mem mem
    cases sound.unique c' c other call at_c' at_c session id
    cases at_c.symm.trans at_c'
    exact registered
  · intro n is_n
    obtain ⟨m, is_m, -, below⟩ := (sound.calls c call at_c).id
    cases is_n.symm.trans is_m
    exact below

/-! ### The tables -/

section Tables

variable {g : PendingRequests → OrderedMap RequestId Nat} {inside : CallPlace → Bool}
  {p : PendingRequests} {x : Nat}

/-- The entries of a table are calls of its session that may be in it. -/
def Entries (s : State) (g : PendingRequests → OrderedMap RequestId Nat)
    (inside : CallPlace → Bool) : Prop :=
  ∀ σ id c, (g (s.session σ)).get? id = some c → ∃ call, s.calls[c]? = some call ∧
    call.session = σ ∧ call.id = id ∧ inside call.place ∧ call.channel = []

theorem Sound.absent (sound : Sound s) (entries : Entries s g inside)
    (at_c : s.calls[c]? = some call) (gone : inside call.place = false ∨ call.channel ≠ []) :
    (g (s.session call.session)).get? call.id = none := by
  refine Option.eq_none_iff_forall_ne_some.mpr fun c' found => ?_
  obtain ⟨call', at_c', session, id, mem, empty⟩ := entries _ _ _ found
  cases sound.unique c' c call' call at_c' at_c session id
  cases at_c.symm.trans at_c'
  rcases gone with gone | gone
  · rw [gone] at mem
    cases mem
  · exact gone empty

theorem Sound.not_in_map (sound : Sound s) (at_c : s.calls[c]? = some call)
    (gone : call.place.inMap = false ∨ call.channel ≠ []) :
    (s.session call.session).map.get? call.id = none :=
  sound.absent (g := PendingRequests.map) sound.map at_c gone

theorem Sound.not_in_progress (sound : Sound s) (at_c : s.calls[c]? = some call)
    (gone : call.place.inProgress = false ∨ call.channel ≠ []) :
    (s.session call.session).progress.get? call.id = none :=
  sound.absent (g := PendingRequests.progress) sound.progress at_c gone

theorem Entries.stays {place : CallPlace} (entries : Entries s g inside)
    (at_c : s.calls[c]? = some call)
    (kept : (g (s.session call.session)).get? call.id = some c → inside call.place →
      call.channel = [] → inside place)
    (found : (g (s.session call.session)).get? id = some x) :
    (g (s.session call.session)).get? id = some x ∧ (x = c → inside place) := by
  refine ⟨found, ?_⟩
  rintro rfl
  obtain ⟨other, at_x, -, rfl, mem, empty⟩ := entries _ _ _ found
  cases at_c.symm.trans at_x
  exact kept found mem empty

theorem Entries.erased (entries : Entries s g inside) (at_c : s.calls[c]? = some call)
    (found : ((g (s.session call.session)).erase call.id).get? id = some x) :
    (g (s.session call.session)).get? id = some x ∧ x ≠ c := by
  obtain ⟨found, ne⟩ := get?_of_get?_erase found
  refine ⟨found, ?_⟩
  rintro rfl
  obtain ⟨other, at_x, -, is_id, -⟩ := entries _ _ _ found
  cases at_c.symm.trans at_x
  exact ne is_id.symm

theorem get?_update {N : RequestId → Nat → Prop} {τ : Nat}
    (old : ∀ id x, (g p).get? id = some x → N id x ∨ (g (s.session σ)).get? id = some x)
    (found : (g (Function.update s.session σ p τ)).get? id = some x) :
    (τ = σ ∧ N id x) ∨ (g (s.session τ)).get? id = some x := by
  by_cases same : τ = σ
  · subst same
    rw [Function.update_self] at found
    exact (old id x found).imp_left fun isNew => ⟨rfl, isNew⟩
  · rw [Function.update_of_ne same] at found
    exact .inr found

theorem get?_of_shrink {τ : Nat}
    (old : ∀ id x, (g p).get? id = some x → (g (s.session σ)).get? id = some x)
    (found : (g (Function.update s.session σ p τ)).get? id = some x) :
    (g (s.session τ)).get? id = some x :=
  (get?_update (N := fun _ _ => False) (fun id x found => .inr (old id x found))
    found).resolve_left And.right

theorem nextId_update (nextId : p.nextId = (s.session σ).nextId) (τ : Nat) :
    (Function.update s.session σ p τ).nextId = (s.session τ).nextId := by
  by_cases same : τ = σ
  · subst same
    rw [Function.update_self, nextId]
  · rw [Function.update_of_ne same]

/-- An entry of the new table is the one that the call makes, or an old one that stays. -/
def Enters (s : State) (g : PendingRequests → OrderedMap RequestId Nat)
    (inside : CallPlace → Bool) (p : PendingRequests) (c : Nat) (call call' : Call) : Prop :=
  ∀ id x, (g p).get? id = some x →
    (x = c ∧ id = call.id ∧ call.place.isRegistered = false ∧ inside call'.place ∧
      call.channel = []) ∨
    ((g (s.session call.session)).get? id = some x ∧ (x = c → inside call'.place))

theorem Enters.absent (enters : Enters s g inside p c call call')
    (at_c : s.calls[c]? = some call) (past : s.Past σ id)
    (was : (g (s.session σ)).get? id = none) :
    (g (Function.update s.session call.session p σ)).get? id = none := by
  refine Option.eq_none_iff_forall_ne_some.mpr fun x found => ?_
  obtain ⟨rfl, -, rfl, early, -⟩ | old :=
    get?_update (fun id x found => (enters id x found).imp_right And.left) found
  · rw [past.1 call (mem_of_getElem? at_c) rfl rfl] at early
    cases early
  · cases was.symm.trans old

theorem Enters.entries (enters : Enters s g inside p c call call')
    (entries : Entries s g inside) (at_c : s.calls[c]? = some call)
    (session : call'.session = call.session) (is_id : call'.id = call.id)
    (channel : call'.channel = call.channel) :
    Entries ((s.setSession call.session p).setCall c call') g inside := by
  have at_self : (s.calls.set c call')[c]? = some call' :=
    List.getElem?_set_self (List.getElem?_eq_some_iff.mp at_c).1
  intro σ id x found
  by_cases isNew : σ = call.session ∧ x = c ∧ id = call.id ∧ call.place.isRegistered = false ∧
      inside call'.place ∧ call.channel = []
  · obtain ⟨rfl, rfl, rfl, -, mem, empty⟩ := isNew
    exact ⟨call', at_self, session, is_id, mem, channel.trans empty⟩
  · have old := (get?_update (fun id x found => (enters id x found).imp_right And.left)
      found).resolve_left isNew
    obtain ⟨other, at_x, in_session, has_id, mem, empty⟩ := entries σ id x old
    by_cases same : x = c
    · subst same
      cases at_c.symm.trans at_x
      subst in_session
      have found : (g (Function.update s.session call.session p call.session)).get? id = some x :=
        found
      rw [Function.update_self] at found
      have stays := ((enters id x found).resolve_left fun new => isNew ⟨rfl, new⟩).2 rfl
      exact ⟨call', at_self, session, is_id.trans has_id, stays, channel.trans empty⟩
    · exact ⟨other, (List.getElem?_set_ne (Ne.symm same)).trans at_x, in_session, has_id, mem,
        empty⟩

end Tables

theorem CallOk.mono (ok : CallOk s call)
    (grows : ∀ σ, (s.session σ).nextId ≤ (s'.session σ).nextId) : CallOk s' call := by
  obtain ⟨⟨n, is_n, low, high⟩, early, once, fits, out, noOut⟩ := ok
  exact ⟨⟨n, is_n, low, Int.lt_of_lt_of_le high (grows _)⟩, early, once, fits, out, noOut⟩

theorem Completion.Fits.of_same {x : Completion} (fits : x.Fits call)
    (session : call'.session = call.session) (is_id : call'.id = call.id) : x.Fits call' := by
  cases x with
  | response id σ result => exact ⟨fits.1.trans is_id.symm, fits.2.trans session.symm⟩
  | disconnected error => trivial

theorem Sound.unique_of (sound : Sound s) (old : ∀ (x : Nat) other, s'.calls[x]? = some other →
      ∃ was, s.calls[x]? = some was ∧ other.session = was.session ∧ other.id = was.id)
    (x y : Nat) (one two : Call) (at_x : s'.calls[x]? = some one)
    (at_y : s'.calls[y]? = some two) (session : one.session = two.session)
    (is_id : one.id = two.id) : x = y := by
  obtain ⟨was, at_x, session₁, id₁⟩ := old x one at_x
  obtain ⟨was', at_y, session₂, id₂⟩ := old y two at_y
  exact sound.unique x y was was' at_x at_y (session₁.symm.trans (session.trans session₂))
    (id₁.symm.trans (is_id.trans id₂))

theorem Sound.holders_set (sound : Sound s) (at_k : s.tasks[k]? = some t)
    (held : ∀ c ∈ t'.place.senders, c ∈ t.place.senders ∨
      ∀ (j : Nat) other, s.tasks[j]? = some other → c ∉ other.place.senders)
    (i j : Nat) (one two : Task) (c : Nat) (at_i : (s.tasks.set k t')[i]? = some one)
    (at_j : (s.tasks.set k t')[j]? = some two) (mem : c ∈ one.place.senders)
    (mem' : c ∈ two.place.senders) : i = j := by
  obtain ⟨rfl, rfl⟩ | ⟨ne, was⟩ := getElem?_set_cases at_i
  · obtain ⟨rfl, rfl⟩ | ⟨ne, was'⟩ := getElem?_set_cases at_j
    · rfl
    · rcases held c mem with had | free
      · exact sound.holders i j t two c at_k was' had mem'
      · exact absurd mem' (free j two was')
  · obtain ⟨rfl, rfl⟩ | ⟨ne, was'⟩ := getElem?_set_cases at_j
    · rcases held c mem' with had | free
      · exact sound.holders i j one t c was at_k mem had
      · exact absurd mem (free i one was)
    · exact sound.holders i j one two c was was' mem mem'

/-- What every step does to the calls and the tables. -/
structure Evolves (s s' : State) : Prop where
  nextId : ∀ σ, (s.session σ).nextId ≤ (s'.session σ).nextId
  calls : ∀ (c : Nat) call, s.calls[c]? = some call → ∃ call', s'.calls[c]? = some call' ∧
    call'.session = call.session ∧ call'.id = call.id ∧
    (call.place.isRegistered → call'.place.isRegistered)
  old : ∀ (c : Nat) call', s'.calls[c]? = some call' →
    (∃ call, s.calls[c]? = some call) ∨
      call'.id = .number (s.session call'.session).nextId
  map : ∀ σ id, s.Past σ id → (s.session σ).map.get? id = none →
    (s'.session σ).map.get? id = none
  progress : ∀ σ id, s.Past σ id → (s.session σ).progress.get? id = none →
    (s'.session σ).progress.get? id = none

theorem Evolves.past (evolves : Evolves s s') (past : s.Past σ id) : s'.Past σ id := by
  constructor
  · intro call' mem session is_id
    obtain ⟨c, at_c⟩ := getElem?_of_mem mem
    obtain ⟨call, was⟩ | isNew := evolves.old c call' at_c
    · obtain ⟨call'', at_c', session', id', registered⟩ := evolves.calls c call was
      cases at_c.symm.trans at_c'
      exact registered (past.1 call (mem_of_getElem? was) (session'.symm.trans session)
        (id'.symm.trans is_id))
    · subst session
      exact absurd (past.2 _ (is_id.symm.trans isNew)) (Int.lt_irrefl _)
  · exact fun n is_n => Int.lt_of_lt_of_le (past.2 n is_n) (evolves.nextId σ)

/-- A task that does not move stays as it should be, if its calls are sent nothing. -/
theorem TaskOk.mono (sound : Sound s) (evolves : Evolves s s') (ok : TaskOk s t)
    (channels : ∀ c ∈ t.place.senders, ∀ call call', s.calls[c]? = some call →
      s'.calls[c]? = some call' → call'.channel = call.channel) : TaskOk s' t where
  request id is_id := by
    obtain ⟨post, c, call, at_c, session, same, registered⟩ := ok.request id is_id
    obtain ⟨call', at_c', session', id', kept⟩ := evolves.calls c call at_c
    exact ⟨post, c, call', at_c', session'.trans session, id'.trans same, kept registered⟩
  covers id is_id := by
    refine (ok.covers id is_id).imp_right fun absent => ?_
    obtain ⟨-, c, call, at_c, session, same, registered⟩ := ok.request id is_id
    have past := sound.past at_c registered
    rw [session, same] at past
    exact evolves.map _ _ past absent
  retiring := ok.retiring
  taking σ id result next at_place := by
    obtain ⟨own, absent, past⟩ := ok.taking σ id result next at_place
    exact ⟨own, evolves.progress _ _ past absent, evolves.past past⟩
  senders c mem := by
    obtain ⟨call, at_c, registered, empty, noMap, noProgress⟩ := ok.senders c mem
    obtain ⟨call', at_c', session, id, kept⟩ := evolves.calls c call at_c
    have past := sound.past at_c registered
    refine ⟨call', at_c', kept registered, (channels c mem call call' at_c at_c').trans empty, ?_⟩
    rw [session, id]
    exact ⟨evolves.map _ _ past noMap, noProgress.imp_left (evolves.progress _ _ past)⟩
  fits c completion next at_place call' at_c' := by
    have mem : c ∈ t.place.senders := by
      rw [at_place]
      exact mem_singleton_self c
    obtain ⟨call, at_c, -⟩ := ok.senders c mem
    obtain ⟨call'', at_c'', session, id, -⟩ := evolves.calls c call at_c
    cases at_c'.symm.trans at_c''
    exact (ok.fits c completion next at_place call at_c).of_same session id
  nodup := ok.nodup

variable {p : PendingRequests} {next : Next} {place : TaskPlace}

theorem Sound.callMoves (sound : Sound s) (at_c : s.calls[c]? = some call)
    (session : call'.session = call.session) (is_id : call'.id = call.id)
    (channel : call'.channel = call.channel)
    (registered : call.place.isRegistered → call'.place.isRegistered)
    (outcomes : call'.place = .returned → call'.outcomes.length = 1)
    (noOutcome : call'.place ≠ .returned → call'.outcomes = [])
    (nextId : p.nextId = (s.session call.session).nextId)
    (map : Enters s PendingRequests.map CallPlace.inMap p c call call')
    (progress : Enters s PendingRequests.progress CallPlace.inProgress p c call call') :
    Sound ((s.setSession call.session p).setCall c call') := by
  have next := nextId_update nextId
  have at_new : ∀ {x : Nat} {other}, s.calls[x]? = some other → x ≠ c →
      (s.calls.set c call')[x]? = some other := fun at_x ne => by
    rw [List.getElem?_set_ne (Ne.symm ne), at_x]
  have at_self : (s.calls.set c call')[c]? = some call' :=
    List.getElem?_set_self (List.getElem?_eq_some_iff.mp at_c).1
  have old : ∀ (x : Nat) other, (s.calls.set c call')[x]? = some other → ∃ was,
      s.calls[x]? = some was ∧ other.session = was.session ∧ other.id = was.id := by
    intro x other at_x
    obtain ⟨rfl, rfl⟩ | ⟨-, was⟩ := getElem?_set_cases at_x
    · exact ⟨call, at_c, session, is_id⟩
    · exact ⟨other, was, rfl, rfl⟩
  have evolves : Evolves s ((s.setSession call.session p).setCall c call') := by
    refine ⟨fun σ => Int.le_of_eq (next σ).symm, ?_, ?_, ?_, ?_⟩
    · intro x other at_x
      by_cases same : x = c
      · subst same
        cases at_c.symm.trans at_x
        exact ⟨call', at_self, session, is_id, registered⟩
      · exact ⟨other, at_new at_x same, rfl, rfl, id⟩
    · exact fun x other at_x => .inl ((old x other at_x).imp fun _ was => was.1)
    · exact fun σ id past was => map.absent at_c past was
    · exact fun σ id past was => progress.absent at_c past was
  refine ⟨?_, ?_, sound.unique_of old, map.entries sound.map at_c session is_id channel,
    progress.entries sound.progress at_c session is_id channel, ?_, sound.holders⟩
  · intro σ
    exact (next σ).symm ▸ sound.positive σ
  · intro x other at_x
    obtain ⟨rfl, rfl⟩ | ⟨-, was⟩ := getElem?_set_cases at_x
    · obtain ⟨⟨n, is_n, low, high⟩, early, once, fits, -, -⟩ := sound.calls x call at_c
      refine ⟨⟨n, is_id.trans is_n, low, ?_⟩, ?_, channel ▸ once, ?_, outcomes, noOutcome⟩
      · exact lt_of_lt_of_eq high (session ▸ (next other.session).symm)
      · intro still
        refine channel.trans (early (Bool.eq_false_iff.mpr fun was => ?_))
        rw [registered was] at still
        cases still
      · exact fun y mem => (fits y (channel ▸ mem)).of_same session is_id
    · exact (sound.calls x other was).mono fun σ => Int.le_of_eq (next σ).symm
  · intro k t at_k
    refine (sound.tasks k t at_k).mono sound evolves ?_
    intro x _ one two at_x at_x'
    obtain ⟨rfl, rfl⟩ | ⟨-, was⟩ := getElem?_set_cases at_x'
    · cases at_c.symm.trans at_x
      exact channel
    · cases at_x.symm.trans was
      rfl

theorem setSession_self (s : State) (σ : Nat) : s.setSession σ (s.session σ) = s := by
  rw [setSession, Function.update_eq_self]

theorem evolves_of_shrink {tasks : List Task} (nextId : p.nextId = (s.session σ).nextId)
    (map : ∀ id x, p.map.get? id = some x → (s.session σ).map.get? id = some x)
    (progress : ∀ id x, p.progress.get? id = some x → (s.session σ).progress.get? id = some x) :
    Evolves s { s.setSession σ p with tasks := tasks } := by
  have absent : ∀ {τ id} {g : PendingRequests → OrderedMap RequestId Nat},
      (∀ id x, (g p).get? id = some x → (g (s.session σ)).get? id = some x) →
      (g (s.session τ)).get? id = none →
      (g (Function.update s.session σ p τ)).get? id = none := by
    intro τ id g old was
    refine Option.eq_none_iff_forall_ne_some.mpr fun x found => ?_
    cases was.symm.trans (get?_of_shrink old found)
  exact ⟨fun τ => Int.le_of_eq (nextId_update nextId τ).symm,
    fun c call at_c => ⟨call, at_c, rfl, rfl, id⟩, fun c call at_c => .inl ⟨call, at_c⟩,
    fun τ id _ was => absent (g := PendingRequests.map) map was,
    fun τ id _ was => absent (g := PendingRequests.progress) progress was⟩

/-- A task moves on and takes entries out of the tables of a session. -/
theorem Sound.taskMoves (sound : Sound s) (at_k : s.tasks[k]? = some t)
    (nextId : p.nextId = (s.session σ).nextId)
    (map : ∀ id x, p.map.get? id = some x → (s.session σ).map.get? id = some x)
    (progress : ∀ id x, p.progress.get? id = some x → (s.session σ).progress.get? id = some x)
    (held : ∀ c ∈ t'.place.senders, c ∈ t.place.senders ∨
      ∀ (j : Nat) other, s.tasks[j]? = some other → c ∉ other.place.senders)
    (ok : TaskOk ((s.setSession σ p).setTask k t') t') :
    Sound ((s.setSession σ p).setTask k t') := by
  have evolves : Evolves s ((s.setSession σ p).setTask k t') :=
    evolves_of_shrink nextId map progress
  refine ⟨fun τ => ?_, ?_, sound.unique, ?_, ?_, ?_, sound.holders_set at_k held⟩
  · exact Int.lt_of_lt_of_le (sound.positive τ) (evolves.nextId τ)
  · exact fun c call at_c => (sound.calls c call at_c).mono evolves.nextId
  · exact fun τ id c found => sound.map τ id c (get?_of_shrink (g := PendingRequests.map) map found)
  · exact fun τ id c found =>
      sound.progress τ id c (get?_of_shrink (g := PendingRequests.progress) progress found)
  · intro j other at_j
    obtain ⟨rfl, rfl⟩ | ⟨-, was⟩ := getElem?_set_cases at_j
    · exact ok
    · refine (sound.tasks j other was).mono sound evolves ?_
      intro x _ one two at_x at_x'
      cases at_x.symm.trans at_x'
      rfl

theorem evolves_send {completion : Completion} :
    Evolves s ((s.send c completion).setTask k t') := by
  refine ⟨fun τ => Int.le_refl _, ?_, ?_, fun _ _ _ was => was, fun _ _ _ was => was⟩
  · intro x other at_x
    by_cases same : c = x
    · subst same
      exact ⟨_, getElem?_modify_self at_x, rfl, rfl, id⟩
    · exact ⟨other, getElem?_modify_of_ne same at_x, rfl, rfl, id⟩
  · intro x other at_x
    obtain ⟨was, at_x, -⟩ := getElem?_modify_cases at_x
    exact .inl ⟨was, at_x⟩

theorem Sound.sends {completion : Completion} (sound : Sound s) (at_k : s.tasks[k]? = some t)
    (mem : c ∈ t.place.senders) (calm : ∀ σ error calls, t.place ≠ .clearing σ error calls)
    (fits : ∀ call, s.calls[c]? = some call → completion.Fits call)
    (held : ∀ x ∈ t'.place.senders, x ∈ t.place.senders)
    (ok : TaskOk ((s.send c completion).setTask k t') t') :
    Sound ((s.send c completion).setTask k t') := by
  obtain ⟨call, at_c, registered, empty, noMap, noProgress⟩ :=
    (sound.tasks k t at_k).senders c mem
  have noProgress := noProgress.resolve_right fun ⟨error, calls, at_place⟩ =>
    calm _ error calls at_place
  have evolves : Evolves s ((s.send c completion).setTask k t') := evolves_send
  have same_id : ∀ (x : Nat) other, (s.calls.modify c fun call =>
      { call with channel := call.channel ++ [completion] })[x]? = some other →
      ∃ was, s.calls[x]? = some was ∧ other.session = was.session ∧ other.id = was.id := by
    intro x other at_x
    obtain ⟨was, was_at, ⟨-, rfl⟩ | ⟨-, rfl⟩⟩ := getElem?_modify_cases at_x
    · exact ⟨was, was_at, rfl, rfl⟩
    · exact ⟨other, was_at, rfl, rfl⟩
  -- what is still in a table was not sent to
  have entries : ∀ {g : PendingRequests → OrderedMap RequestId Nat} {inside : CallPlace → Bool},
      Entries s g inside → (g (s.session call.session)).get? call.id = none →
      Entries ((s.send c completion).setTask k t') g inside := by
    intro g inside entries absent τ id x found
    obtain ⟨other, at_x, rfl, rfl, rest⟩ := entries τ id x found
    refine ⟨other, getElem?_modify_of_ne ?_ at_x, rfl, rfl, rest⟩
    rintro rfl
    cases at_c.symm.trans at_x
    cases absent.symm.trans found
  refine ⟨sound.positive, ?_, sound.unique_of same_id,
    entries (g := PendingRequests.map) sound.map noMap,
    entries (g := PendingRequests.progress) sound.progress noProgress, ?_,
    sound.holders_set at_k fun x mem => .inl (held x mem)⟩
  · intro x other at_x
    obtain ⟨was, was_at, ⟨rfl, rfl⟩ | ⟨-, rfl⟩⟩ := getElem?_modify_cases at_x
    · cases at_c.symm.trans was_at
      obtain ⟨bounds, -, -, -, out, noOut⟩ := sound.calls c call at_c
      refine ⟨bounds, fun still => ?_, ?_, ?_, out, noOut⟩
      · cases registered.symm.trans still
      · change (call.channel ++ [completion]).length ≤ 1
        rw [empty]
        exact Nat.le_refl 1
      · intro y within
        change y ∈ call.channel ++ [completion] at within
        rw [empty] at within
        cases mem_singleton.mp within
        have fit := fits call at_c
        cases completion with
        | response id' σ result => exact fit
        | disconnected error => trivial
    · exact (sound.calls x other was_at).mono fun _ => Int.le_refl _
  · intro j other at_j
    obtain ⟨rfl, rfl⟩ | ⟨ne, was⟩ := getElem?_set_cases at_j
    · exact ok
    · refine (sound.tasks j other was).mono sound evolves ?_
      intro x holds one two at_x at_x'
      have other_call : c ≠ x := by
        rintro rfl
        exact ne (sound.holders j k other t c was at_k holds mem)
      cases (getElem?_modify_of_ne other_call at_x).symm.trans at_x'
      rfl

theorem Sound.spawns {new : List Task} (sound : Sound s)
    (ok : ∀ t ∈ new, TaskOk s t ∧ t.place.senders = []) :
    Sound { s with tasks := s.tasks ++ new } := by
  have evolves : Evolves s { s with tasks := s.tasks ++ new } := by
    have grown : Evolves s { s.setSession 0 (s.session 0) with tasks := s.tasks ++ new } :=
      evolves_of_shrink rfl (fun _ _ found => found) fun _ _ found => found
    rwa [setSession_self] at grown
  have old : ∀ {k : Nat} {t}, (s.tasks ++ new)[k]? = some t → s.tasks[k]? = some t ∨ t ∈ new := by
    intro k t at_k
    by_cases below : k < s.tasks.length
    · exact .inl ((getElem?_append_left below).symm.trans at_k)
    · rw [getElem?_append_right (Nat.le_of_not_lt below)] at at_k
      exact .inr (mem_of_getElem? at_k)
  refine ⟨sound.positive, ?_, sound.unique, sound.map, sound.progress, ?_, ?_⟩
  · exact fun c call at_c => (sound.calls c call at_c).mono fun _ => Int.le_refl _
  · intro k t at_k
    have ok' : TaskOk s t := (old at_k).elim (sound.tasks k t) fun mem => (ok t mem).1
    refine ok'.mono sound evolves ?_
    intro x _ one two at_x at_x'
    cases at_x.symm.trans at_x'
    rfl
  · intro k j t t' c at_k at_j holds holds'
    have was : ∀ {k : Nat} {t : Task}, (s.tasks ++ new)[k]? = some t → c ∈ t.place.senders →
        s.tasks[k]? = some t := by
      intro k t at_k holds
      refine (old at_k).resolve_right fun mem => ?_
      rw [(ok t mem).2] at holds
      cases holds
    exact sound.holders k j t t' c (was at_k holds) (was at_j holds') holds holds'

theorem TaskOk.frame (ok : TaskOk s t) (session : s'.session = s.session)
    (calls : s'.calls = s.calls) : TaskOk s' t := by
  obtain ⟨tables, sessions, callback, running, current, initialized, threads, cs, ts⟩ := s'
  cases session
  cases calls
  obtain ⟨request, covers, retiring, taking, senders, fits, nodup⟩ := ok
  exact ⟨request, covers, retiring, taking, senders, fits, nodup⟩

variable (sound : Sound s)

include sound

theorem Sound.frame (session : s'.session = s.session)
    (calls : s'.calls = s.calls) (tasks : s'.tasks = s.tasks) : Sound s' := by
  obtain ⟨tables, sessions, callback, running, current, initialized, threads, cs, ts⟩ := s'
  cases session
  cases calls
  cases tasks
  refine ⟨sound.positive, ?_, sound.unique, sound.map, sound.progress, ?_, sound.holders⟩
  · exact fun c call at_c => (sound.calls c call at_c).mono fun _ => Int.le_refl _
  · exact fun k t at_k => (sound.tasks k t at_k).frame rfl rfl

/-- A new call has an id of its own. -/
theorem Sound.allocate {hasProgress : Bool}
    (room : (s.session σ).nextId + 1 < 2 ^ 63) : Sound (s.allocate σ hasProgress) := by
  have next : ∀ τ, ((s.allocate σ hasProgress).session τ).nextId =
      if τ = σ then (s.session σ).nextId + 1 else (s.session τ).nextId := by
    intro τ
    change (Function.update s.session σ _ τ).nextId = _
    by_cases same : τ = σ
    · subst same
      rw [Function.update_self, if_pos rfl]
      exact if_pos room
    · rw [Function.update_of_ne same, if_neg same]
  have grows : ∀ τ, (s.session τ).nextId ≤ ((s.allocate σ hasProgress).session τ).nextId := by
    intro τ
    rw [next]
    split
    · rename_i same
      rw [same]
      omega
    · exact Int.le_refl _
  have tables : ∀ τ, ((s.allocate σ hasProgress).session τ).map = (s.session τ).map ∧
      ((s.allocate σ hasProgress).session τ).progress = (s.session τ).progress := by
    intro τ
    change (Function.update s.session σ _ τ).map = _ ∧
      (Function.update s.session σ _ τ).progress = _
    by_cases same : τ = σ
    · subst same
      rw [Function.update_self]
      exact ⟨rfl, rfl⟩
    · rw [Function.update_of_ne same]
      exact ⟨rfl, rfl⟩
  have kept : ∀ {c : Nat} {call}, s.calls[c]? = some call →
      (s.allocate σ hasProgress).calls[c]? = some call := fun at_c =>
    (List.getElem?_append_left (List.getElem?_eq_some_iff.mp at_c).1).trans at_c
  have evolves : Evolves s (s.allocate σ hasProgress) := by
    refine ⟨grows, fun c call at_c => ⟨call, kept at_c, rfl, rfl, id⟩, ?_, ?_, ?_⟩
    · intro c call at_c
      obtain was | ⟨-, rfl⟩ := getElem?_concat_cases at_c
      · exact .inl ⟨call, was⟩
      · exact .inr rfl
    · exact fun τ id _ absent => (tables τ).1.symm ▸ absent
    · exact fun τ id _ absent => (tables τ).2.symm ▸ absent
  -- an old call has an older number
  have fresh : ∀ {c : Nat} {call}, s.calls[c]? = some call → call.session = σ →
      call.id ≠ .number (s.session σ).nextId := by
    rintro c call at_c rfl same
    obtain ⟨n, is_n, -, below⟩ := (sound.calls c call at_c).id
    cases is_n.symm.trans same
    exact Int.lt_irrefl _ below
  refine ⟨fun τ => Int.lt_of_lt_of_le (sound.positive τ) (grows τ), ?_, ?_, ?_, ?_, ?_,
    sound.holders⟩
  · intro c call at_c
    obtain was | ⟨-, rfl⟩ := getElem?_concat_cases at_c
    · exact (sound.calls c call was).mono grows
    · refine ⟨⟨_, rfl, sound.positive σ, ?_⟩, fun _ => rfl, Nat.zero_le 1, ?_, ?_, fun _ => rfl⟩
      · rw [next, if_pos rfl]
        omega
      · rintro x ⟨⟩
      · rintro ⟨⟩
  · intro c c' call call' at_c at_c' session is_id
    obtain was | ⟨rfl, rfl⟩ := getElem?_concat_cases at_c
    · obtain was' | ⟨rfl, rfl⟩ := getElem?_concat_cases at_c'
      · exact sound.unique c c' call call' was was' session is_id
      · exact absurd is_id (fresh was session)
    · obtain was' | ⟨rfl, rfl⟩ := getElem?_concat_cases at_c'
      · exact absurd is_id.symm (fresh was' session.symm)
      · rfl
  · intro τ id c found
    rw [(tables τ).1] at found
    obtain ⟨call, at_c, rest⟩ := sound.map τ id c found
    exact ⟨call, kept at_c, rest⟩
  · intro τ id c found
    rw [(tables τ).2] at found
    obtain ⟨call, at_c, rest⟩ := sound.progress τ id c found
    exact ⟨call, kept at_c, rest⟩
  · intro k t at_k
    refine (sound.tasks k t at_k).mono sound evolves ?_
    intro c _ call call' at_c at_c'
    cases (kept at_c).symm.trans at_c'
    rfl

/-! ### The steps -/

theorem Sound.stays_in_map {place : CallPlace} (at_c : s.calls[c]? = some call)
    (kept : call.place.inMap → call.channel = [] → place.inMap) (id : RequestId) (x : Nat)
    (found : (s.session call.session).map.get? id = some x) :
    (s.session call.session).map.get? id = some x ∧ (x = c → place.inMap) :=
  Entries.stays (g := PendingRequests.map) sound.map at_c (fun _ => kept) found

theorem Sound.stays_in_progress {place : CallPlace} (at_c : s.calls[c]? = some call)
    (kept : call.place.inProgress → call.channel = [] → place.inProgress) (id : RequestId)
    (x : Nat) (found : (s.session call.session).progress.get? id = some x) :
    (s.session call.session).progress.get? id = some x ∧ (x = c → place.inProgress) :=
  Entries.stays (g := PendingRequests.progress) sound.progress at_c (fun _ => kept) found

theorem Sound.goesTo {place : CallPlace} (at_c : s.calls[c]? = some call)
    (registered : call.place.isRegistered → place.isRegistered)
    (still : call.place ≠ .returned) (further : place ≠ .returned)
    (inMap : call.place.inMap → call.channel = [] → place.inMap)
    (inProgress : call.place.inProgress → call.channel = [] → place.inProgress) :
    Sound (s.setCall c { call with place := place }) := by
  have moved : Sound ((s.setSession call.session (s.session call.session)).setCall c
      { call with place := place }) := sound.callMoves at_c rfl rfl rfl registered
    (fun finished => absurd finished further) (fun _ => (sound.calls c call at_c).noOutcome still) rfl
    (fun id x found => .inr (sound.stays_in_map at_c inMap id x found))
    fun id x found => .inr (sound.stays_in_progress at_c inProgress id x found)
  rwa [setSession_self] at moved

theorem Sound.returns {outcome : Outcome}
    (at_c : s.calls[c]? = some call) (still : call.place ≠ .returned)
    (nextId : p.nextId = (s.session call.session).nextId) (map : ∀ id x, p.map.get? id = some x →
      (s.session call.session).map.get? id = some x ∧ x ≠ c)
    (progress : ∀ id x, p.progress.get? id = some x →
      (s.session call.session).progress.get? id = some x ∧ x ≠ c) :
    Sound ((s.setSession call.session p).setCall c
      { call with place := .returned, outcomes := call.outcomes ++ [outcome] }) := by
  refine sound.callMoves at_c rfl rfl rfl (fun _ => rfl) (fun _ => ?_)
    (fun ne => absurd rfl ne) nextId (fun id x found => .inr ?_) fun id x found => .inr ?_
  · change (call.outcomes ++ [outcome]).length = 1
    rw [(sound.calls c call at_c).noOutcome still]
    rfl
  · exact ⟨(map id x found).1, fun same => absurd same (map id x found).2⟩
  · exact ⟨(progress id x found).1, fun same => absurd same (progress id x found).2⟩

omit sound

theorem taskOk_posting (at_c : s.calls[c]? = some call) (registered : call.place.isRegistered) :
    TaskOk s ⟨.post, call.session, some call.id, .posting⟩ where
  request := by
    rintro id ⟨⟩
    exact ⟨rfl, c, call, at_c, rfl, rfl, registered⟩
  covers _ _ := .inl trivial
  retiring := nofun
  taking := nofun
  senders := nofun
  fits := nofun
  nodup := nodup_nil

include sound

theorem enterChannel_eq (at_c : s.calls[c]? = some call) (outside : call.place.inMap = false) :
    s.enterChannel c call = s.setSession call.session { s.session call.session with
      map := (s.session call.session).map.insert call.id c } := by
  rw [enterChannel, sound.not_in_map at_c (.inl outside)]

theorem Sound.callStep (at_c : s.calls[c]? = some call)
    (step : s.callStep c call = some s') : Sound s' := by
  have ok := sound.calls c call at_c
  obtain ⟨σ, id, hasProgress, place, channel, closed, outcomes⟩ := call
  cases place with
  | allocated =>
    cases step
    have empty : channel = [] := ok.early rfl
    have noMap := @Sound.stays_in_map _ _ _ sound .progressed at_c nofun
    have noProgress := @Sound.stays_in_progress _ _ _ sound .progressed at_c nofun
    split
    · refine sound.callMoves at_c rfl rfl rfl nofun nofun
        (fun _ => ok.noOutcome nofun) rfl (fun id x found => .inr (noMap id x found)) ?_
      intro id x found
      rw [get?_insert] at found
      split at found
      · rename_i same
        cases found
        exact .inl ⟨rfl, same, rfl, rfl, empty⟩
      · exact .inr (noProgress id x found)
    · exact sound.goesTo at_c nofun nofun nofun nofun nofun
  | progressed =>
    cases step
    have empty : channel = [] := ok.early rfl
    rw [enterChannel_eq sound at_c rfl]
    refine sound.callMoves at_c rfl rfl rfl nofun nofun
      (fun _ => ok.noOutcome nofun) rfl ?_ fun id x found => .inr
        (sound.stays_in_progress at_c (by intros; rfl) id x found)
    intro id x found
    rw [get?_insert] at found
    split at found
    · rename_i same
      cases found
      exact .inl ⟨rfl, same, rfl, rfl, empty⟩
    · exact .inr (sound.stays_in_map at_c (by intros; rfl) id x found)
  | registered =>
    simp only [callStep] at step
    split at step
    · cases step
      have moved := @Sound.goesTo _ _ _ sound .awaiting at_c (by intros; rfl) nofun
        nofun (by intros; rfl) (by intros; rfl)
      have at_new : (s.calls.set c ⟨σ, id, hasProgress, .awaiting, channel, closed, outcomes⟩)[c]? =
          some ⟨σ, id, hasProgress, .awaiting, channel, closed, outcomes⟩ :=
        List.getElem?_set_self (List.getElem?_eq_some_iff.mp at_c).1
      refine moved.spawns fun t mem => ?_
      cases List.mem_singleton.mp mem
      exact ⟨taskOk_posting (s := s.setCall c _) at_new rfl, rfl⟩
    · cases step
      exact sound.goesTo at_c (by intros; rfl) nofun nofun (by intros; rfl) (by intros; rfl)
  | awaiting =>
    simp only [callStep] at step
    split at step
    · rename_i completion rest
      cases step
      have moved := @Sound.returns _ _ _ _ sound completion.outcome at_c nofun rfl
        (fun id x found => (@Sound.stays_in_map _ _ _ sound .returned at_c nofun id x
          found).imp_right fun inside same => Bool.false_ne_true (inside same))
        fun id x found => (@Sound.stays_in_progress _ _ _ sound .returned at_c nofun id x
          found).imp_right fun inside same => Bool.false_ne_true (inside same)
      rwa [setSession_self] at moved
    · split at step
      · cases step
        exact sound.goesTo at_c (by intros; rfl) nofun nofun (by intros; rfl) (by intros; rfl)
      · cases step
  | removing outcome =>
    cases step
    refine sound.callMoves at_c rfl rfl rfl (by intros; rfl) nofun (fun _ => ok.noOutcome nofun) rfl
      (fun id x found => .inr (sound.stays_in_map at_c (by intros; rfl) id x found))
      fun id x found => .inr ?_
    have kept := Entries.erased (g := PendingRequests.progress) sound.progress at_c found
    exact ⟨kept.1, fun same => absurd same kept.2⟩
  | erasing outcome =>
    cases step
    exact sound.returns at_c nofun rfl
      (fun id x => Entries.erased (g := PendingRequests.map) sound.map at_c)
      fun id x found => (@Sound.stays_in_progress _ _ _ sound .returned at_c nofun id x
        found).imp_right fun inside same => Bool.false_ne_true (inside same)
  | returned => cases step
  | dropped => cases step

theorem Sound.taskGoes (at_k : s.tasks[k]? = some t)
    (free : t'.place.senders = []) (ok : TaskOk s t') : Sound (s.setTask k t') := by
  have moved : Sound ((s.setSession 0 (s.session 0)).setTask k t') := sound.taskMoves at_k rfl
    (fun _ _ found => found) (fun _ _ found => found)
    (fun c mem => by rw [free] at mem; cases mem)
    (ok.frame (Function.update_eq_self 0 s.session) rfl)
  rwa [setSession_self] at moved

omit sound

theorem TaskOk.goes (ok : TaskOk s t) (free : place.isFree)
    (covers : ∀ id, t.request = some id → s.Pending t id → place.Covers id) :
    TaskOk s { t with place := place } := by
  refine ⟨ok.request, fun id is_id => ?_, ?_, ?_, ?_, ?_, ?_⟩
  · by_cases pending : s.Pending t id
    · exact .inl (covers id is_id pending)
    · exact .inr (not_not.mp pending)
  all_goals cases place <;> first | exact nodup_nil | (intros; contradiction)

theorem TaskOk.covered (ok : TaskOk s t) (at_place : t.place = place)
    (id : RequestId) (is_id : t.request = some id) :
    place.Covers id ∨ (s.session t.session).map.get? id = none :=
  at_place ▸ ok.covers id is_id

theorem TaskPlace.senders_of_isFree (free : place.isFree) : place.senders = [] := by
  cases place <;> first | rfl | cases free

theorem Sound.taskGoesFree (sound : Sound s) (at_k : s.tasks[k]? = some t)
    (free : place.isFree) (covers : ∀ id, t.request = some id → s.Pending t id → place.Covers id) :
    Sound (s.setTask k { t with place := place }) :=
  sound.taskGoes at_k (TaskPlace.senders_of_isFree free) ((sound.tasks k t at_k).goes free covers)

theorem Next.isFree_place (next : Next) : next.place.isFree := by
  cases next <;> rfl

theorem TaskOk.settles (ok : TaskOk s t) (covers : ∀ id, t.request = some id →
      next.goesOn ∨ (s.session t.session).map.get? id = none) :
    TaskOk s { t with place := next.place } := by
  refine ok.goes next.isFree_place fun id is_id pending => ?_
  have on := (covers id is_id).resolve_right pending
  cases next with
  | ends => cases on
  | streams => trivial

theorem Sound.handsOver {message : Message} {next : Next} (sound : Sound s)
    (at_k : s.tasks[k]? = some t) (at_place : t.place = .delivering message next)
    (cond : s.Delivers t message next s.listener) (step : s.taskStep k t = some s') : Sound s' := by
  have ok := sound.tasks k t at_k
  have covered : ∀ id, t.request = some id →
      next.goesOn ∨ RespondsTo id message ∨ (s.session t.session).map.get? id = none := by
    exact fun id is_id => or_assoc.mp (ok.covered at_place id is_id)
  have goes : (∀ id, t.request = some id → RespondsTo id message →
      next.goesOn ∨ (s.session t.session).map.get? id = none) →
      Sound (s.setTask k { t with place := next.place }) := by
    intro lost
    refine sound.taskGoes at_k (by cases next <;> rfl) (ok.settles fun id is_id => ?_)
    rcases covered id is_id with on | responds | absent
    · exact .inl on
    · exact lost id is_id responds
    · exact .inr absent
  have dead : s.listener = none → Sound (s.setTask k { t with place := next.place }) := by
    intro silent
    rw [silent] at cond
    refine goes fun id is_id _ => ?_
    rcases cond with rfl | absent
    · exact .inl rfl
    · exact .inr (not_not.mp (absent id is_id))
  simp only [taskStep, at_place] at step
  cases heard : s.callback with
  | none =>
    simp only [heard, Option.some.injEq] at step
    subst step
    exact dead (by rw [listener, heard]; rfl)
  | some σ =>
    simp only [heard, Option.some.injEq] at step
    subst step
    by_cases alive : s.alive σ
    · rw [if_pos alive]
      have listener : s.listener = some σ := by
        rw [listener, heard]
        exact if_pos alive
      rw [listener] at cond
      -- only a response with an id goes further
      have past : (∀ id, ¬ RespondsTo id message) →
          Sound (s.setTask k { t with place := next.place }) := fun none =>
        goes fun id _ responds => absurd responds (none id)
      cases message with
      | request r => exact past fun _ => id
      | notification n => exact past fun _ => id
      | response r =>
        cases has : r.id with
        | none =>
          have same : receive σ next (.response r) = next.place := by
            simp only [receive, has]
          rw [same]
          refine past fun id responds => ?_
          cases has.symm.trans responds
        | some id =>
          simp only [receive, has]
          refine sound.taskGoes at_k rfl ⟨ok.request, ?_, ?_, ?_, ?_, ?_, nodup_nil⟩
          · intro id' is_id
            rcases covered id' is_id with on | responds | absent
            · exact .inl (.inl on)
            · exact .inl (.inr (Option.some.inj (has.symm.trans responds)))
            · exact .inr absent
          · rintro _ _ _ _ ⟨⟩
            exact cond rfl
          all_goals (intros; contradiction)
    · rw [if_neg alive]
      exact dead (by rw [listener, heard]; exact if_neg alive)

include sound

theorem Sound.retires {result : Except RpcError Json}
    (at_k : s.tasks[k]? = some t) (at_place : t.place = .retiring σ id result next)
    (past : s.Past σ id) :
    Sound ((s.retireProgress σ id).setTask k { t with place := .taking σ id result next }) := by
  have ok := sound.tasks k t at_k
  have own : σ = t.session := ok.retiring σ id result next at_place
  have shrinks : ∀ i x, ((s.session σ).progress.erase id).get? i = some x →
      (s.session σ).progress.get? i = some x :=
    fun i x found => (get?_of_get?_erase found).1
  have evolves : Evolves s
      ((s.retireProgress σ id).setTask k { t with place := .taking σ id result next }) :=
    @evolves_of_shrink _ σ _ _ rfl (fun _ _ found => found) shrinks
  have moved := ok.mono sound evolves (fun c mem => by rw [at_place] at mem; cases mem)
  refine sound.taskMoves (p := { s.session σ with progress := (s.session σ).progress.erase id })
    at_k rfl (fun _ _ found => found) shrinks nofun ?_
  refine ⟨moved.request, (moved.covered at_place :), nofun, ?_, nofun, nofun, nodup_nil⟩
  rintro _ _ _ _ ⟨⟩
  refine ⟨own, ?_, evolves.past past⟩
  change (Function.update s.session σ _ σ).progress.get? id = none
  rw [Function.update_self]
  exact get?_erase_self

theorem Sound.takes {result : Except RpcError Json}
    (at_k : s.tasks[k]? = some t) (at_place : t.place = .taking σ id result next) :
    Sound ((s.takeChannel σ id).setTask k { t with place := match (s.session σ).map.get? id with
        | none => next.place
        | some c => .sending c (.response id t.session result) next }) := by
  have ok := sound.tasks k t at_k
  obtain ⟨own, noProgress, past⟩ := ok.taking σ id result next at_place
  have shrinks : ∀ i x, ((s.session σ).map.erase id).get? i = some x →
      (s.session σ).map.get? i = some x :=
    fun i x found => (get?_of_get?_erase found).1
  have gone : ∀ {s' : State}, s'.session = (s.takeChannel σ id).session →
      (s'.session σ).map.get? id = none := by
    intro s' tables
    rw [tables]
    change (Function.update s.session σ _ σ).map.get? id = none
    rw [Function.update_self]
    exact get?_erase_self
  have evolves : ∀ t', Evolves s ((s.takeChannel σ id).setTask k t') := fun _ =>
    @evolves_of_shrink _ σ _ _ rfl shrinks fun _ _ found => found
  have moved : ∀ t', TaskOk ((s.takeChannel σ id).setTask k t') t := fun t' =>
    ok.mono sound (evolves t') fun c mem => by rw [at_place] at mem; cases mem
  -- the request of the task is the one that is taken, or the task goes on
  have covered : ∀ t' i, t.request = some i → next.goesOn ∨
      (((s.takeChannel σ id).setTask k t').session t.session).map.get? i = none := by
    intro t' i is_id
    rcases (moved t').covered at_place i is_id with (on | rfl) | absent
    · exact .inl on
    · exact .inr (own ▸ gone rfl)
    · exact .inr absent
  cases found : (s.session σ).map.get? id with
  | none =>
    exact sound.taskMoves (p := { s.session σ with map := (s.session σ).map.erase id })
      at_k rfl shrinks (fun _ _ found => found) (by cases next <;> rintro _ ⟨⟩)
      ((moved _).settles (covered _))
  | some c =>
    obtain ⟨call, at_c, session, is_id, inMap, empty⟩ := sound.map σ id c found
    refine sound.taskMoves (p := { s.session σ with map := (s.session σ).map.erase id })
      at_k rfl shrinks (fun _ _ found => found) ?_ ?_
    · intro x mem
      cases mem_singleton.mp mem
      refine .inr fun j other at_j holds => ?_
      obtain ⟨call', at_c', -, -, absent, -⟩ := (sound.tasks j other at_j).senders c holds
      cases at_c.symm.trans at_c'
      rw [session, is_id, found] at absent
      cases absent
    · refine ⟨(moved _).request, fun i has => (covered _ i has).imp_left fun on => on, ?_, ?_,
        ?_, ?_, nodup_singleton c⟩
      · rintro _ _ _ _ ⟨⟩
      · rintro _ _ _ _ ⟨⟩
      · intro x mem
        cases mem_singleton.mp mem
        refine ⟨call, at_c, CallPlace.isRegistered_of_inMap inMap, empty, ?_, .inl ?_⟩
        · rw [session, is_id]
          exact gone rfl
        · rw [session, is_id]
          exact (evolves _).progress σ id past noProgress
      · rintro x _ _ ⟨⟩ other at_x
        cases at_c.symm.trans at_x
        exact ⟨is_id.symm, own.symm.trans session.symm⟩

theorem Sound.drains {error : RpcError} (at_k : s.tasks[k]? = some t)
    (at_place : t.place = .draining σ error) :
    Sound ((s.setSession σ { s.session σ with map := .empty }).setTask k { t with
      place := .clearing σ error (s.session σ).map.values }) := by
  have ok := sound.tasks k t at_k
  have evolves : ∀ t', Evolves s
      ((s.setSession σ { s.session σ with map := .empty }).setTask k t') :=
    fun _ => @evolves_of_shrink _ σ _ _ rfl nofun fun _ _ found => found
  have moved : ∀ t', TaskOk ((s.setSession σ { s.session σ with map := .empty }).setTask k t') t :=
    fun t' => ok.mono sound (evolves t') fun c mem => by rw [at_place] at mem; cases mem
  have held : ∀ c ∈ (s.session σ).map.values, ∃ id, (s.session σ).map.get? id = some c := by
    intro c mem
    obtain ⟨⟨id, _⟩, inside, rfl⟩ := mem_map.mp mem
    exact ⟨id, get?_eq_some_iff.mpr inside⟩
  refine sound.taskMoves (p := { s.session σ with map := .empty }) at_k rfl nofun
    (fun _ _ found => found) ?_
    ⟨(moved t).request, ((moved t).covered at_place :), ?_, ?_, ?_, ?_, ?_⟩
  · intro c mem
    obtain ⟨id, found⟩ := held c mem
    obtain ⟨call, at_c, session, is_id, -, -⟩ := sound.map σ id c found
    refine .inr fun j other at_j holds => ?_
    obtain ⟨call', at_c', -, -, absent, -⟩ := (sound.tasks j other at_j).senders c holds
    cases at_c.symm.trans at_c'
    rw [session, is_id, found] at absent
    cases absent
  · rintro _ _ _ _ ⟨⟩
  · rintro _ _ _ _ ⟨⟩
  · intro c mem
    obtain ⟨id, found⟩ := held c mem
    obtain ⟨call, at_c, session, is_id, inMap, empty⟩ := sound.map σ id c found
    refine ⟨call, at_c, CallPlace.isRegistered_of_inMap inMap, empty, ?_, .inr ?_⟩
    · change (Function.update s.session σ _ call.session).map.get? call.id = none
      rw [session, Function.update_self]
      rfl
    · rw [session]
      exact ⟨error, _, rfl⟩
  · rintro _ _ _ ⟨⟩
  · -- two entries of one call have one id
    refine List.Nodup.map_on ?_ ((s.session σ).map.nodup.of_map)
    rintro ⟨id, c⟩ mem ⟨id', c'⟩ mem' same
    cases same
    obtain ⟨call, at_c, -, is_id, -⟩ := sound.map σ id c (get?_eq_some_iff.mpr mem)
    obtain ⟨call', at_c', -, is_id', -⟩ := sound.map σ id' c (get?_eq_some_iff.mpr mem')
    cases at_c.symm.trans at_c'
    rw [is_id.symm.trans is_id']

theorem Sound.clears {error : RpcError} {calls : List Nat}
    (at_k : s.tasks[k]? = some t) (at_place : t.place = .clearing σ error calls) :
    Sound ((s.setSession σ { s.session σ with progress := .empty }).setTask k { t with
      place := .failing error calls }) := by
  have ok := sound.tasks k t at_k
  have evolves : ∀ t', Evolves s
      ((s.setSession σ { s.session σ with progress := .empty }).setTask k t') := fun _ =>
    @evolves_of_shrink _ σ _ _ rfl (fun _ _ found => found) nofun
  have moved : ∀ t', TaskOk
      ((s.setSession σ { s.session σ with progress := .empty }).setTask k t') t := fun t' =>
    ok.mono sound (evolves t') fun c mem call call' at_c at_c' => by
      cases at_c.symm.trans at_c'
      rfl
  have same : t.place.senders = calls := by rw [at_place]; rfl
  refine sound.taskMoves (p := { s.session σ with progress := .empty }) at_k rfl
    (fun _ _ found => found) nofun (fun c mem => .inl (same.symm ▸ mem))
    ⟨(moved t).request, ((moved t).covered at_place :), ?_, ?_, ?_, ?_, same ▸ ok.nodup⟩
  · rintro _ _ _ _ ⟨⟩
  · rintro _ _ _ _ ⟨⟩
  · intro c mem
    obtain ⟨call, at_c, registered, empty, noMap, noProgress⟩ :=
      (moved { t with place := .failing error calls }).senders c (same.symm ▸ mem)
    refine ⟨call, at_c, registered, empty, noMap, .inl ?_⟩
    rcases noProgress with absent | ⟨_, _, was⟩
    · exact absent
    · cases at_place.symm.trans was
      change (Function.update s.session call.session _ call.session).progress.get? call.id = none
      rw [Function.update_self]
      rfl
  · rintro _ _ _ ⟨⟩

theorem Sound.taskStep (at_k : s.tasks[k]? = some t) (kept : Kept s (.task k))
    (step : s.taskStep k t = some s') : Sound s' := by
  have ok := sound.tasks k t at_k
  have cond := kept t at_k
  cases at_place : t.place with
  | delivering message next =>
    rw [at_place] at cond
    exact sound.handsOver at_k at_place cond step
  | retiring σ id result next =>
    rw [at_place] at cond
    rw [State.taskStep, at_place] at step
    cases step
    exact sound.retires at_k at_place cond
  | taking σ id result next =>
    rw [State.taskStep, at_place] at step
    cases step
    exact sound.takes at_k at_place
  | sending c completion next =>
    rw [State.taskStep, at_place] at step
    cases step
    have settled : TaskOk s { t with place := next.place } := ok.settles (ok.covered at_place)
    have free := TaskPlace.senders_of_isFree next.isFree_place
    refine sound.sends at_k ?_ ?_ (ok.fits c completion next at_place) ?_
      (settled.mono sound evolves_send ?_)
    · rw [at_place]
      exact mem_singleton_self c
    · rw [at_place]
      rintro _ _ _ ⟨⟩
    · intro x mem
      rw [free] at mem
      cases mem
    · intro x mem
      rw [free] at mem
      cases mem
  | draining σ error =>
    rw [State.taskStep, at_place] at step
    cases step
    exact sound.drains at_k at_place
  | clearing σ error calls =>
    rw [State.taskStep, at_place] at step
    cases step
    exact sound.clears at_k at_place
  | failing error calls =>
    have left : ∀ rest : List Nat, rest.Sublist calls →
        TaskOk s { t with place := .failing error rest } := by
      intro rest sub
      refine ⟨ok.request, (ok.covered at_place :), ?_, ?_, ?_, ?_, ?_⟩
      · rintro _ _ _ _ ⟨⟩
      · rintro _ _ _ _ ⟨⟩
      · intro x mem
        have held : x ∈ t.place.senders := by
          rw [at_place]
          exact sub.mem mem
        obtain ⟨call, at_x, registered, empty, noMap, noProgress⟩ := ok.senders x held
        refine ⟨call, at_x, registered, empty, noMap, .inl (noProgress.resolve_right ?_)⟩
        rintro ⟨_, _, was⟩
        cases at_place.symm.trans was
      · rintro _ _ _ ⟨⟩
      · have nodup := ok.nodup
        rw [at_place] at nodup
        exact nodup.sublist sub
    cases calls with
    | nil =>
      rw [State.taskStep, at_place] at step
      cases step
      have nothing := left [] (List.Sublist.refl _)
      refine sound.taskGoes at_k rfl ⟨ok.request, nothing.covers, ?_, ?_, ?_, ?_, nodup_nil⟩
      all_goals (intros; contradiction)
    | cons c rest =>
      rw [State.taskStep, at_place] at step
      cases step
      have nodup : (c :: rest).Nodup := by
        have nodup := ok.nodup
        rwa [at_place] at nodup
      refine sound.sends at_k ?_ ?_ (fun _ _ => trivial) ?_
        ((left rest (sublist_cons_self c rest)).mono sound evolves_send ?_)
      · rw [at_place]
        exact mem_cons_self
      · rw [at_place]
        rintro _ _ _ ⟨⟩
      · intro x mem
        rw [at_place]
        exact mem_cons_of_mem c mem
      · intro x mem call call' at_x at_x'
        have ne : c ≠ x := by
          rintro rfl
          exact (nodup_cons.mp nodup).1 mem
        cases (getElem?_modify_of_ne ne at_x).symm.trans at_x'
        rfl
  | posting | streaming | ended =>
    rw [State.taskStep, at_place] at step
    cases step

omit sound

/-! ### What HTTP brings -/

theorem isFree_reportError (request : Option RequestId) (code : Int) (message : String) :
    (reportError request code message).isFree := by
  unfold reportError
  repeat' split
  all_goals rfl

theorem isFree_doPost (request : Option RequestId) (outcome : HttpOutcome) :
    (doPost request outcome).isFree := by
  unfold doPost
  repeat' split
  all_goals first | rfl | exact isFree_reportError _ _ _

theorem isFree_getStream (outcome : HttpOutcome) : (getStream outcome).isFree := by
  unfold getStream
  repeat' split
  all_goals rfl

theorem isFree_handleSseEvent (kind : TaskKind) (e : SseEvent) :
    (handleSseEvent kind e).isFree := by
  unfold handleSseEvent
  split <;> rfl

theorem isFree_finishStream (last : Option SseEvent) : (finishStream last).isFree := by
  unfold finishStream
  split <;> rfl

theorem reportError_covers (positive : id ≠ .number 0) (code : Int) (message : String) :
    (reportError (some id) code message).Covers id := by
  simp only [reportError, if_neg positive]
  exact .inr rfl

theorem doPost_covers {outcome : HttpOutcome} (positive : id ≠ .number 0)
    (answers : outcome.Answers id) : (doPost (some id) outcome).Covers id := by
  cases outcome with
  | notRunning => exact reportError_covers positive _ _
  | failed e => exact reportError_covers positive _ _
  | answer code contentType body =>
    have accepted : code ≠ 202 := by
      rcases body with e | e | message
      · exact answers
      · exact answers
      · exact answers.1
    simp only [doPost, if_neg accepted]
    split
    · exact reportError_covers positive _ _
    · split
      · exact reportError_covers positive _ _
      · rename_i success
        rw [Bool.not_eq_true, Bool.not_eq_false'] at success
        cases contentType with
        | none => exact reportError_covers positive _ _
        | some ct =>
          simp only
          split
          · rename_i json
            rcases body with e | e | message
            · exact reportError_covers positive _ _
            · exact reportError_covers positive _ _
            · exact .inr (answers.2 success json)
          · split
            · trivial
            · exact reportError_covers positive _ _

theorem handleSseEvent_covers {kind : TaskKind} {e : SseEvent}
    (answers : ∀ message ∈ e.message?, isResponse message → RespondsTo id message) :
    (handleSseEvent kind e).Covers id := by
  unfold handleSseEvent
  split
  · trivial
  · rename_i message has
    by_cases last : isResponse message ∧ kind = .post
    · exact .inr (answers message has last.1)
    · rw [if_neg last]
      exact .inl rfl

theorem finishStream_covers {last : Option SseEvent}
    (answers : ∃ message ∈ last.bind SseEvent.message?, RespondsTo id message) :
    (finishStream last).Covers id := by
  obtain ⟨message, has, responds⟩ := answers
  rw [finishStream, has]
  exact .inr responds

/-! ### Every event -/

include sound

theorem Sound.clientStep {j : Nat} {thread : ClientThread}
    (at_j : s.threads[j]? = some thread) (kept : Kept s (.client j))
    (step : s.clientStep j thread = some s') : Sound s' := by
  have room := kept thread at_j
  cases thread with
  | opened σ =>
    cases step
    exact (sound.allocate (room σ rfl)).frame rfl rfl rfl
  | requesting hasProgress =>
    simp only [State.clientStep] at step
    split at step
    · cases step
      exact sound.frame rfl rfl rfl
    · rename_i σ current
      cases step
      exact (sound.allocate (room σ current)).frame rfl rfl rfl
  | done => cases step
  | _ =>
    cases step
    exact sound.frame rfl rfl rfl

theorem Sound.begins (op : Operation) : Sound (s.begin op) := by
  cases op <;> unfold begin <;> dsimp only <;> split <;>
    first | exact sound | exact sound.frame rfl rfl rfl

theorem Sound.drops (at_c : s.calls[c]? = some call) (at_place : call.place = .awaiting)
    (gone : (s.session call.session).map.get? call.id = none ∧
      (s.session call.session).progress.get? call.id = none) :
    Sound (s.setCall c { call with place := .dropped }) := by
  have moved : Sound ((s.setSession call.session (s.session call.session)).setCall c
      { call with place := .dropped }) := sound.callMoves at_c rfl rfl rfl
    (fun _ => rfl) nofun
    (fun _ => (sound.calls c call at_c).noOutcome (by rw [at_place]; rintro ⟨⟩)) rfl
    (fun id x found => .inr (Entries.stays (g := PendingRequests.map) sound.map at_c
      (fun mem => absurd (gone.1.symm.trans mem) nofun) found))
    fun id x found => .inr (Entries.stays (g := PendingRequests.progress) sound.progress at_c
      (fun mem => absurd (gone.2.symm.trans mem) nofun) found)
  rwa [setSession_self] at moved

omit sound

theorem taskOk_without_request {kind : TaskKind}
    (free : place.isFree ∨ ∃ error, place = .draining σ error) :
    TaskOk s ⟨kind, σ, none, place⟩ ∧ place.senders = [] := by
  rcases free with free | ⟨error, rfl⟩
  · have blank : TaskOk s ⟨kind, σ, none, .ended⟩ := by
      refine ⟨?_, ?_, ?_, ?_, ?_, ?_, nodup_nil⟩ <;> (intros; contradiction)
    exact ⟨blank.goes free (by rintro _ ⟨⟩), TaskPlace.senders_of_isFree free⟩
  · refine ⟨⟨?_, ?_, ?_, ?_, ?_, ?_, nodup_nil⟩, rfl⟩ <;> (intros; contradiction)

theorem Sound.positive_id (sound : Sound s) (at_k : s.tasks[k]? = some t)
    (is_id : t.request = some id) : id ≠ .number 0 := by
  obtain ⟨-, c, call, at_c, -, rfl, -⟩ := (sound.tasks k t at_k).request id is_id
  obtain ⟨n, is_n, positive, -⟩ := (sound.calls c call at_c).id
  rw [is_n]
  rintro ⟨⟩
  exact Int.lt_irrefl 0 positive

/-- **Every step that meets the condition keeps the invariant.** -/
theorem Sound.step {e : Event} (sound : Sound s) (kept : Kept s e) (step : s.step e = some s') :
    Sound s' := by
  cases e with
  | begin op =>
    cases step
    exact sound.begins op
  | client j =>
    simp only [State.step, bind_eq_some] at step
    obtain ⟨thread, at_j, step⟩ := step
    exact sound.clientStep at_j kept step
  | abandon j =>
    simp only [State.step, bind_eq_some] at step
    obtain ⟨thread, at_j, _, -, step⟩ := step
    cases step
    exact sound.frame rfl rfl rfl
  | call c =>
    simp only [State.step, bind_eq_some] at step
    obtain ⟨call, at_c, step⟩ := step
    exact sound.callStep at_c step
  | expire c =>
    simp only [State.step, bind_eq_some] at step
    obtain ⟨call, at_c, step⟩ := step
    split at step
    · rename_i at_place empty
      cases step
      exact sound.goesTo at_c (by intros; rfl) (by rw [at_place]; rintro ⟨⟩) (by rintro ⟨⟩)
        (by intros; rfl) (by intros; rfl)
    · cases step
  | drop c =>
    simp only [State.step, bind_eq_some] at step
    obtain ⟨call, at_c, step⟩ := step
    split at step
    · rename_i at_place
      cases step
      exact sound.drops at_c at_place (kept call at_c)
    · cases step
  | post σ stream =>
    simp only [State.step] at step
    split at step
    · cases step
      refine sound.spawns fun t mem => ?_
      rcases mem_cons.mp mem with rfl | mem
      · exact taskOk_without_request (.inl rfl)
      · split at mem
        · cases mem_singleton.mp mem
          exact taskOk_without_request (.inl rfl)
        · cases mem
    · cases step
  | answered k outcome =>
    simp only [State.step, bind_eq_some] at step
    obtain ⟨t, at_k, step⟩ := step
    split at step
    · cases step
      refine sound.taskGoesFree at_k ?_ fun id is_id pending => ?_
      · split
        · exact isFree_getStream outcome
        · exact isFree_doPost t.request outcome
      · have post := ((sound.tasks k t at_k).request id is_id).1
        rw [if_neg (by rw [post]; rintro ⟨⟩), is_id]
        exact doPost_covers (sound.positive_id at_k is_id) (kept t at_k id is_id pending)
    · cases step
  | sse k e =>
    simp only [State.step, bind_eq_some] at step
    obtain ⟨t, at_k, step⟩ := step
    split at step
    · cases step
      exact sound.taskGoesFree at_k (isFree_handleSseEvent t.kind e) fun id is_id pending =>
        handleSseEvent_covers (kept t at_k id is_id pending)
    · cases step
  | streamEnds k last =>
    simp only [State.step, bind_eq_some] at step
    obtain ⟨t, at_k, step⟩ := step
    split at step
    · cases step
      exact sound.taskGoesFree at_k (isFree_finishStream last) fun id is_id pending =>
        finishStream_covers (kept t at_k id is_id pending)
    · cases step
  | cut k =>
    simp only [State.step, bind_eq_some] at step
    obtain ⟨t, at_k, step⟩ := step
    split at step
    · cases step
      exact sound.taskGoesFree at_k rfl fun id is_id pending =>
        absurd pending (kept t at_k id is_id)
    · cases step
  | task k =>
    simp only [State.step, bind_eq_some] at step
    obtain ⟨t, at_k, step⟩ := step
    exact sound.taskStep at_k kept step
  | disconnect reason =>
    simp only [State.step, bind_eq_some] at step
    obtain ⟨σ, heard, _, -, step⟩ := step
    cases step
    refine sound.spawns fun t mem => ?_
    cases mem_singleton.mp mem
    exact taskOk_without_request (.inr ⟨_, rfl⟩)

end

theorem sound_new : Sound new where
  positive _ := Int.zero_lt_one
  calls := by rintro _ _ ⟨⟩
  unique := by rintro _ _ _ _ ⟨⟩
  map := nofun
  progress := nofun
  tasks := by rintro _ _ ⟨⟩
  holders := by rintro _ _ _ _ _ ⟨⟩

/-! ### Every run -/

/-- **The client's requests are answered once** in every run of such steps. -/
theorem request_answered_once {s : State} {es : List Event}
    (run : Run (Under Kept (Steps step)) .new es s) :
    (∀ call ∈ s.calls,
      (∀ x ∈ call.channel, x.Fits call) ∧ call.channel.length ≤ 1 ∧
      (call.place = .returned → call.outcomes.length = 1) ∧
      (call.place ≠ .returned → call.outcomes = []) ∧
      (call.place.isOver → (s.session call.session).map.get? call.id = none ∧
        (s.session call.session).progress.get? call.id = none)) ∧
    ∀ t ∈ s.tasks, t.place = .ended → ∀ id ∈ t.request, ¬ s.Pending t id := by
  have sound : Sound s :=
    run.invariant_under (fun _ _ _ sound kept step => sound.step kept step) sound_new
  constructor
  · intro call mem
    obtain ⟨c, at_c⟩ := List.getElem?_of_mem mem
    have ok := sound.calls c call at_c
    refine ⟨ok.fits, ok.once, ok.outcomes, ok.noOutcome, fun finished => ?_⟩
    have out : call.place.inMap = false ∧ call.place.inProgress = false := by
      cases at_place : call.place <;> rw [at_place] at finished <;>
        first | exact ⟨rfl, rfl⟩ | cases finished
    exact ⟨sound.not_in_map at_c (.inl out.1), sound.not_in_progress at_c (.inl out.2)⟩
  · intro t mem at_place id is_id pending
    obtain ⟨k, at_k⟩ := List.getElem?_of_mem mem
    have covers := ((sound.tasks k t at_k).covers id is_id).resolve_right pending
    rw [at_place] at covers
    exact covers

/-- The first call of `initialize`, until its request is posted. -/
def posting : List Event :=
  [.begin .init, .client 0, .client 0, .client 0, .client 0, .call 0, .call 0, .call 0]

/-- The POST is answered with 404, which is reported to the request. -/
def reporting : List Event :=
  [.answered 0 (.answer 404 none (.error "")), .task 0, .task 0, .task 0, .task 0, .call 0]

theorem reported_request_answered : ∃ (s : State) (call : Call),
    Run (Under Kept (Steps step)) .new (posting ++ reporting) s ∧ s.calls = [call] ∧
    call.place = .returned ∧ call.outcomes.length = 1 := by
  have ends : ((posting ++ reporting).foldlM (fun (s : State) e =>
      if Kept s e then s.step e else none) .new).isSome := by decide
  obtain ⟨s, computed⟩ := Option.isSome_iff_exists.mp ends
  have places : s.calls.map (fun call => call.place matches .returned) = [true] := by
    have seen : ((posting ++ reporting).foldlM (fun (s : State) e =>
        if Kept s e then s.step e else none) .new).map
          (fun s => s.calls.map fun call => call.place matches .returned) = some [true] := by decide
    rw [computed] at seen
    exact Option.some.inj seen
  obtain ⟨call, calls, finished⟩ := List.map_eq_singleton_iff.mp places
  have returned : call.place = .returned := by
    cases at_place : call.place <;> rw [at_place] at finished <;> first | rfl | cases finished
  have run := run_under_of_foldlM computed
  have facts := (request_answered_once run).1 call (calls ▸ List.mem_singleton_self call)
  exact ⟨s, call, run, calls, returned, facts.2.2.1 returned⟩

/-- The POST is answered with an event stream, which breaks. -/
def cutting : List Event :=
  [.answered 0 (.answer 200 (some "text/event-stream") (.error "")), .cut 0]

theorem isSse_eventStream : isSse "text/event-stream" = true := by
  unfold isSse
  exact decide_eq_true infix_rfl

theorem isJson_eventStream : isJson "text/event-stream" = false := by
  unfold isJson
  refine decide_eq_false fun inside => ?_
  have letter := inside.subset (show 'j' ∈ "application/json".toList by decide)
  simp at letter

theorem doPost_eventStream (request : Option RequestId)
    (body : Except String (Except String Message)) :
    doPost request (.answer 200 (some "text/event-stream") body) = .streaming := by
  simp [doPost, isSuccess, isJson_eventStream, isSse_eventStream]

/-- The task of a request whose stream breaks has ended, and the request is still pending. -/
theorem cut_stream_leaves_request : ∃ (s : State) (t : Task),
    Run (Steps step) .new (posting ++ cutting) s ∧ s.tasks = [t] ∧ t.place = .ended ∧
    t.request = some (.number 1) ∧ s.Pending t (.number 1) := by
  obtain ⟨s, posted, tasks, pending⟩ : ∃ s : State, Run (Steps step) .new posting s ∧
      s.tasks = [⟨.post, 0, some (.number 1), .posting⟩] ∧
      (s.session 0).map.get? (.number 1) = some 0 := ⟨_, run_of_foldlM rfl, rfl, rfl⟩
  have streams : s.step (.answered 0 (.answer 200 (some "text/event-stream") (.error ""))) =
      some (s.setTask 0 ⟨.post, 0, some (.number 1), .streaming⟩) := by
    simp [step, tasks, doPost_eventStream]
  have ends : (s.setTask 0 ⟨.post, 0, some (.number 1), .streaming⟩).step (.cut 0) =
      some (s.setTask 0 ⟨.post, 0, some (.number 1), .ended⟩) := by
    simp [step, setTask, tasks]
  refine ⟨_, ⟨.post, 0, some (.number 1), .ended⟩,
    posted.append (.cons streams (.cons ends (.nil _))), ?_, rfl, rfl, ?_⟩
  · simp [setTask, tasks]
  · change (s.session 0).map.get? (.number 1) ≠ none
    rw [pending]
    rintro ⟨⟩

end AgentProtocols.MCP.Client
