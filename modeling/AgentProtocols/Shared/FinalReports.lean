import Mathlib.Data.Option.Basic
import AgentProtocols.Shared.ClientService

/-!
Every request of the C++ HTTP clients ends with a report, the last call made for it.

* `Sound.step` — the invariant is kept by every step that meets `Kept`.
* `every_request_reported` — in every run of such steps, a request that `Send` has accepted has its
  report once its transfer has ended or `Stop` has returned.
* `cancelled_silently` — the MCP client cancels a request without a word.
-/

namespace AgentProtocols.Shared

open Lib OrderedMap List

variable {Id : Type}

/-! ### Reports -/

/-- The call says the response or the failure. -/
def Callback.Reports : Callback Id → Prop
  | .header response taken => taken = true ∧ response.success = false
  | .body response => response.success = false ∨ response.body ≠ []
  | .sendError _ _ => True

/-- The last call made for the request, header callbacks apart, is a report. -/
def Reported (log : List (Entry Id)) : Prop :=
  ∃ before headers final, log = before ++ .ended :: headers ++ [.callback final] ∧
    .ended ∉ before ∧ (∀ e ∈ headers, ∃ response, e = .callback (.header response false)) ∧
    final.Reports

namespace RequestContext

variable {sdk : Sdk} {ctx : RequestContext Id} {answer : Option Bool}

def Throws (sdk : Sdk) (ctx : RequestContext Id) (answer : Option Bool) : Prop :=
  sdk = .mcp ∧ ctx.hasHeaderCallback ∧ answer = none

instance : Decidable (ctx.Throws sdk answer) := inferInstanceAs (Decidable (_ ∧ _ ∧ _))

structure Settled (ctx ctx' : RequestContext Id) : Prop where
  call : ctx'.call = ctx.call
  easyHandle : ctx'.easyHandle = none
  reported : Reported ctx'.log

theorem settled_called {c : Callback Id} (fresh : .ended ∉ ctx.log) (reports : c.Reports) :
    ctx.Settled (ctx.finish.called c) where
  call := rfl
  easyHandle := rfl
  reported := ⟨ctx.log, [], c, by simp [called, finish], fresh, by simp, reports⟩

theorem settled_executeCallback {response : ClientResponse Id} (fresh : .ended ∉ ctx.log)
    (failed : response.success = false) (calm : ¬ctx.Throws sdk answer) :
    ctx.Settled (ctx.finish.executeCallback sdk response answer) := by
  have both : ctx.Settled
      ((ctx.finish.called (.header response false)).called (.body response)) := by
    refine ⟨rfl, rfl, ctx.log, [.callback (.header response false)], .body response, ?_, fresh,
      ?_, .inl failed⟩
    · simp [called, finish]
    · intro e mem
      exact ⟨response, mem_singleton.mp mem⟩
  unfold executeCallback
  split
  · rename_i has
    split
    · exact absurd ⟨rfl, has, rfl⟩ calm
    · exact settled_called fresh ⟨rfl, failed⟩
    · exact both
  · exact settled_called fresh (.inl failed)

theorem not_throws_a2a : ¬ctx.Throws .a2a answer := by
  rintro ⟨⟨⟩, -⟩

theorem settled_handleErrorResponse {errorMessage : String} (fresh : .ended ∉ ctx.log)
    (calm : ¬ctx.Throws sdk answer) :
    ctx.Settled (ctx.finish.handleErrorResponse sdk errorMessage answer) :=
  settled_executeCallback fresh rfl calm

/-- The context of a transfer under way after some calls. -/
structure Advanced (ctx ctx' : RequestContext Id) : Prop where
  requestId : ctx'.requestId = ctx.requestId
  call : ctx'.call = ctx.call
  easyHandle : ctx'.easyHandle = ctx.easyHandle
  notEnded : .ended ∉ ctx.log → .ended ∉ ctx'.log

theorem Advanced.refl : ctx.Advanced ctx := ⟨rfl, rfl, rfl, id⟩

theorem Advanced.trans {ctx₁ ctx₂ ctx₃ : RequestContext Id} (first : ctx₁.Advanced ctx₂)
    (second : ctx₂.Advanced ctx₃) : ctx₁.Advanced ctx₃ where
  requestId := second.requestId.trans first.requestId
  call := second.call.trans first.call
  easyHandle := second.easyHandle.trans first.easyHandle
  notEnded fresh := second.notEnded (first.notEnded fresh)

theorem not_ended_called {c : Callback Id} (fresh : .ended ∉ ctx.log) :
    .ended ∉ (ctx.called c).log := by
  rw [called, mem_append, mem_singleton]
  rintro (mem | same)
  · exact fresh mem
  · cases same

/-- The context after a call made for a transfer under way, or after a step of `Send`. -/
structure Adjusts (ctx ctx' : RequestContext Id) : Prop where
  requestId : ctx'.requestId = ctx.requestId
  easyHandle : ctx'.easyHandle = ctx.easyHandle
  checked : ctx'.call = .checked → ctx.call = .checked
  sent : ctx'.call = .pushed ∨ ctx'.call = .accepted → ctx.call = .pushed ∨ ctx.call = .accepted
  log : ctx.easyHandle = none → ctx'.log = ctx.log
  notEnded : .ended ∉ ctx.log → .ended ∉ ctx'.log

theorem Adjusts.of_advanced {ctx' : RequestContext Id} (handle : ctx.easyHandle ≠ none)
    (advanced : ctx.Advanced ctx') :
    ctx.Adjusts ctx' where
  requestId := advanced.requestId
  easyHandle := advanced.easyHandle
  checked := advanced.call.symm.trans
  sent accepted := advanced.call ▸ accepted
  log absent := absurd absent handle
  notEnded := advanced.notEnded

theorem advanced_headerCallback (statusCode : Nat) (headers : List (Text × Text)) (close : Bool) :
    ctx.Advanced (ctx.headerCallback statusCode headers close) := by
  unfold headerCallback
  dsimp only
  split
  · exact ⟨rfl, rfl, rfl, not_ended_called⟩
  · exact ⟨rfl, rfl, rfl, id⟩

theorem advanced_endOfLine (line : Text) : ctx.Advanced (ctx.endOfLine sdk line) := by
  unfold endOfLine
  dsimp only
  split
  · exact ⟨rfl, rfl, rfl, not_ended_called⟩
  · exact ⟨rfl, rfl, rfl, id⟩

theorem advanced_receive (c : Char) : ctx.Advanced (receive sdk ctx c) := by
  unfold receive
  split
  · exact ⟨rfl, rfl, rfl, id⟩
  · exact advanced_endOfLine _

theorem advanced_writeCallback (contents : Text) :
    ctx.Advanced (ctx.writeCallback sdk contents) := by
  unfold writeCallback
  split
  · clear * -
    induction contents generalizing ctx with
    | nil => exact .refl
    | cons c rest ih => exact (advanced_receive c).trans ih
  · exact ⟨rfl, rfl, rfl, id⟩

variable [DecidableEq Id]

theorem settled_handleFinishedResponse (fresh : .ended ∉ ctx.log)
    (speaks : ctx.responseData = [] → sdk = .a2a ∧ ctx.isStream = false) :
    ctx.Settled (ctx.finish.handleFinishedResponse sdk) := by
  unfold handleFinishedResponse
  by_cases empty : ctx.responseData = []
  · obtain ⟨rfl, unary⟩ := speaks empty
    rw [if_pos (by exact empty)]
    rw [if_neg (by rw [show ctx.finish.isStream = ctx.isStream from rfl, unary]; exact nofun)]
    exact settled_called fresh trivial
  · rw [if_neg (by exact empty)]
    split
    · exact settled_called fresh trivial
    · exact settled_called fresh (.inr empty)

end RequestContext

/-! ### The client -/

def IoThread.batch : IoThread → List Nat
  | .popping localMessages | .handling localMessages => localMessages
  | _ => []

def IoThread.next? : IoThread → Option Nat
  | .handling (r :: _) => some r
  | _ => none

def IoThread.PastQueue : IoThread → Prop
  | .waiting | .cancelling _ | .ended => True
  | _ => False

instance : DecidablePred IoThread.PastQueue := fun io => by
  cases io <;> unfold IoThread.PastQueue <;> infer_instance

/-- `activeRequests_` holds the transfers under way. -/
def IoThread.Serves : IoThread → Prop
  | .cancelling _ | .ended => False
  | _ => True

namespace ClientService

/-! ### The invariant -/

variable {s t : ClientService Id} {r : Nat}
variable {ctx ctx' : RequestContext Id} {f : RequestContext Id → RequestContext Id}

def queued (s : ClientService Id) : List Nat := s.requestQueue ++ s.io.batch

/-- The request's transfer is filed under its key. -/
def Filed (s : ClientService Id) (k : Id ⊕ Nat) (r : Nat) : Prop :=
  ∃ ctx h, s.requests[r]? = some ctx ∧ ctx.easyHandle = some h ∧
    k = s.sdk.activeKey ctx.requestId h

theorem Filed.unique {k k' : Id ⊕ Nat} (one : s.Filed k r) (other : s.Filed k' r) : k = k' := by
  obtain ⟨ctx, h, at_r, has, rfl⟩ := one
  obtain ⟨ctx', h', at_r', has', rfl⟩ := other
  cases at_r.symm.trans at_r'
  cases has.symm.trans has'
  rfl

theorem CurlRuns.serves (runs : s.CurlRuns) :
    s.io.Serves ∧ (∀ order, s.io ≠ .cancelling order) ∧ s.io ≠ .ended := by
  rcases runs with io | io <;> rw [io] <;> exact ⟨trivial, nofun, nofun⟩

variable [DecidableEq Id]

structure Sound (s : ClientService Id) : Prop where
  nodup : s.queued.Nodup
  queued : ∀ r ∈ s.queued, ∃ ctx, s.requests[r]? = some ctx ∧ ctx.call ≠ .checked ∧
    ctx.easyHandle = none ∧ ctx.log = []
  unsent : ∀ (r : Nat) ctx, s.requests[r]? = some ctx → ctx.call = .checked →
    ctx.easyHandle = none ∧ ctx.log = []
  underWay : ∀ (r : Nat) ctx, s.requests[r]? = some ctx → ctx.easyHandle ≠ none →
    ctx.call ≠ .checked ∧ .ended ∉ ctx.log
  active : s.io.Serves → ∀ k r, s.activeRequests.get? k = some r ↔ s.Filed k r
  settled : ∀ (r : Nat) ctx, s.requests[r]? = some ctx →
    ctx.call = .pushed ∨ ctx.call = .accepted →
    r ∈ s.queued ∨ ctx.easyHandle ≠ none ∨ Reported ctx.log
  drained : s.io.PastQueue → s.requestQueue = []
  cancelling : ∀ order, s.io = .cancelling order → (s.sdk = .mcp → order = []) ∧
    ∀ (r : Nat) ctx, s.requests[r]? = some ctx → ctx.easyHandle ≠ none → r ∈ order
  ended : s.io = .ended → ∀ (r : Nat) ctx, s.requests[r]? = some ctx → ctx.easyHandle = none
  returned : s.stopReturned → s.io = .ended

/-! ### The condition -/

/-- A handled request has a new key, and its header callback does not throw. -/
def Handles (s : ClientService Id) (ctx : RequestContext Id) (answer : Option Bool) :
    CurlOutcome → Prop
  | .added _ => s.sdk = .a2a → s.activeRequests.get? (.inl ctx.requestId) = none
  | _ => ¬ctx.Throws s.sdk answer

/-- A transfer has data to report, or its header callback does not throw. -/
def Finishes (s : ClientService Id) (ctx : RequestContext Id) (answer : Option Bool) :
    Option String → Prop
  | none => ctx.responseData = [] → s.sdk = .a2a ∧ ctx.isStream = false
  | some _ => ¬ctx.Throws s.sdk answer

/-- What a step asks for. -/
def Kept (s : ClientService Id) : ClientEvent Id → Prop
  | .push _ room => room = true → ¬s.io.PastQueue
  | .tryPop seen => seen = true → s.io.batch.length < defaultQueueMaxBatchSize
  | .handle outcome answer => ∀ r ∈ s.io.next?, ∀ ctx ∈ s.requests[r]?,
      s.Handles ctx answer (if s.state = .running then outcome else .noHandle)
  | .done r strerror answer => ∀ ctx ∈ s.requests[r]?, s.Finishes ctx answer strerror
  | .reject answer => ∀ r ∈ s.requestQueue.head?, ∀ ctx ∈ s.requests[r]?,
      ¬ctx.Throws s.sdk answer
  | .drained => s.requestQueue = []
  | .cancelAll requestsToCancel => s.sdk = .mcp → requestsToCancel = []
  | _ => True

theorem Sound.not_filed (sound : s.Sound) (waits : r ∈ s.queued) {k : Id ⊕ Nat} :
    ¬s.Filed k r := by
  rintro ⟨ctx, h, at_r, handle, -⟩
  obtain ⟨ctx', at_r', -, without, -⟩ := sound.queued r waits
  cases at_r.symm.trans at_r'
  rw [without] at handle
  cases handle

/-- What the invariant says of one request. -/
structure Placed (s : ClientService Id) (r : Nat) (ctx : RequestContext Id) : Prop where
  queued : r ∈ s.queued → ctx.call ≠ .checked ∧ ctx.easyHandle = none ∧ ctx.log = []
  unsent : ctx.call = .checked → ctx.easyHandle = none ∧ ctx.log = []
  underWay : ctx.easyHandle ≠ none → ctx.call ≠ .checked ∧ .ended ∉ ctx.log
  active : s.io.Serves → ∀ k, s.activeRequests.get? k = some r ↔
    ∃ h, ctx.easyHandle = some h ∧ k = s.sdk.activeKey ctx.requestId h
  settled : ctx.call = .pushed ∨ ctx.call = .accepted →
    r ∈ s.queued ∨ ctx.easyHandle ≠ none ∨ Reported ctx.log
  cancelling : ∀ order, s.io = .cancelling order → ctx.easyHandle ≠ none → r ∈ order
  ended : s.io = .ended → ctx.easyHandle = none

theorem Sound.placed (sound : s.Sound) (at_r : s.requests[r]? = some ctx) : s.Placed r ctx where
  queued waits := by
    obtain ⟨ctx', at_r', rest⟩ := sound.queued r waits
    cases at_r.symm.trans at_r'
    exact rest
  unsent := sound.unsent r ctx at_r
  underWay := sound.underWay r ctx at_r
  active serves k := by
    rw [sound.active serves k r]
    constructor
    · rintro ⟨ctx', h, at_r', filed⟩
      cases at_r.symm.trans at_r'
      exact ⟨h, filed⟩
    · exact fun ⟨h, filed⟩ => ⟨ctx, h, at_r, filed⟩
  settled := sound.settled r ctx at_r
  cancelling order at_io := (sound.cancelling order at_io).2 r ctx at_r
  ended at_io := sound.ended at_io r ctx at_r

/-- The request `r` changes and keeps its place, and the other requests do not see it. -/
theorem Sound.modify (sound : s.Sound) (at_r : s.requests[r]? = some ctx)
    (requests : t.requests = s.requests.modify r f) (sdk : t.sdk = s.sdk)
    (placed : t.Placed r (f ctx)) (nodup : t.queued.Nodup)
    (queued : ∀ j, j ≠ r → (j ∈ t.queued ↔ j ∈ s.queued)) (serves : t.io.Serves → s.io.Serves)
    (active : t.io.Serves → ∀ k j, j ≠ r →
      (t.activeRequests.get? k = some j ↔ s.activeRequests.get? k = some j))
    (drained : t.io.PastQueue → t.requestQueue = [])
    (cancelling : ∀ order, t.io = .cancelling order → ∃ before, s.io = .cancelling before ∧
      (before = [] → order = []) ∧ ∀ j ∈ before, j ∈ order ∨ j = r)
    (ended : t.io = .ended → s.io = .ended) (returned : t.stopReturned → t.io = .ended) :
    t.Sound := by
  have at_t : t.requests[r]? = some (f ctx) := by
    rw [requests]
    exact getElem?_modify_self at_r
  have other : ∀ {j : Nat}, j ≠ r → t.requests[j]? = s.requests[j]? := by
    intro j ne
    simp [requests, Ne.symm ne]
  have here : ∀ {j : Nat} {ctx'}, t.requests[j]? = some ctx' →
      (j = r ∧ ctx' = f ctx) ∨ (j ≠ r ∧ s.requests[j]? = some ctx') := by
    intro j ctx' at_j
    by_cases same : j = r
    · subst same
      exact .inl ⟨rfl, Option.some.inj (at_j.symm.trans at_t)⟩
    · exact .inr ⟨same, other same ▸ at_j⟩
  refine ⟨nodup, ?_, ?_, ?_, ?_, ?_, drained, ?_, ?_, returned⟩
  · intro j waits
    by_cases same : j = r
    · subst same
      exact ⟨f ctx, at_t, placed.queued waits⟩
    · rw [other same]
      exact sound.queued j ((queued j same).mp waits)
  · intro j ctx' at_j
    obtain ⟨rfl, rfl⟩ | ⟨-, was⟩ := here at_j
    · exact placed.unsent
    · exact sound.unsent j ctx' was
  · intro j ctx' at_j
    obtain ⟨rfl, rfl⟩ | ⟨-, was⟩ := here at_j
    · exact placed.underWay
    · exact sound.underWay j ctx' was
  · intro serves' k j
    by_cases same : j = r
    · subst same
      simp [placed.active serves', Filed, at_t]
    · rw [active serves' k j same, sound.active (serves serves'), Filed, Filed, other same, sdk]
  · intro j ctx' at_j accepted
    obtain ⟨rfl, rfl⟩ | ⟨ne, was⟩ := here at_j
    · exact placed.settled accepted
    · exact (sound.settled j ctx' was accepted).imp_left (queued j ne).mpr
  · intro order at_io
    obtain ⟨before, was_io, empty, covers⟩ := cancelling order at_io
    obtain ⟨none_mcp, all⟩ := sound.cancelling before was_io
    refine ⟨fun mcp => empty (none_mcp (sdk.symm.trans mcp)), ?_⟩
    intro j ctx' at_j has
    obtain ⟨rfl, rfl⟩ | ⟨ne, was⟩ := here at_j
    · exact placed.cancelling order at_io has
    · exact (covers j (all j ctx' was has)).resolve_right ne
  · intro at_io j ctx' at_j
    obtain ⟨rfl, rfl⟩ | ⟨-, was⟩ := here at_j
    · exact placed.ended at_io
    · exact sound.ended (ended at_io) j ctx' was

theorem Sound.adjust (sound : s.Sound) (at_r : s.requests[r]? = some ctx)
    (adjusts : ctx.Adjusts (f ctx)) : (s.update r f).Sound := by
  have placed := sound.placed at_r
  refine sound.modify at_r rfl rfl ⟨?_, ?_, ?_, ?_, ?_, ?_, ?_⟩ sound.nodup (fun _ _ => .rfl) id
    (fun _ _ _ _ => .rfl) sound.drained (fun order at_io => ⟨order, at_io, id, fun _ => .inl⟩) id
    sound.returned
  · intro waits
    obtain ⟨sent, without, empty⟩ := placed.queued waits
    exact ⟨fun checked => sent (adjusts.checked checked), adjusts.easyHandle.trans without,
      (adjusts.log without).trans empty⟩
  · intro checked
    obtain ⟨without, empty⟩ := placed.unsent (adjusts.checked checked)
    exact ⟨adjusts.easyHandle.trans without, (adjusts.log without).trans empty⟩
  · intro has
    obtain ⟨sent, fresh⟩ := placed.underWay (adjusts.easyHandle ▸ has)
    exact ⟨fun checked => sent (adjusts.checked checked), adjusts.notEnded fresh⟩
  · rw [adjusts.easyHandle, adjusts.requestId]
    exact placed.active
  · intro accepted
    obtain waits | has | reported := placed.settled (adjusts.sent accepted)
    · exact .inl waits
    · exact .inr (.inl (adjusts.easyHandle.symm ▸ has))
    · by_cases absent : ctx.easyHandle = none
      · exact .inr (.inr ((adjusts.log absent).symm ▸ reported))
      · exact .inr (.inl (adjusts.easyHandle.symm ▸ absent))
  · rw [adjusts.easyHandle]
    exact placed.cancelling
  · rw [adjusts.easyHandle]
    exact placed.ended

/-- The request `r` gets its report and leaves the queue, the batch or the filed transfers. -/
structure Leaves (s t : ClientService Id) (r : Nat) : Prop where
  sdk : t.sdk = s.sdk
  nodup : t.queued.Nodup
  queued : ∀ j, j ∈ t.queued ↔ j ∈ s.queued ∧ j ≠ r
  serves : t.io.Serves → s.io.Serves
  active : t.io.Serves → ∀ k j, t.activeRequests.get? k = some j ↔
    s.activeRequests.get? k = some j ∧ j ≠ r
  drained : t.io.PastQueue → t.requestQueue = []
  cancelling : ∀ order, t.io = .cancelling order → ∃ before, s.io = .cancelling before ∧
    (before = [] → order = []) ∧ ∀ j ∈ before, j ∈ order ∨ j = r
  notEnded : t.io ≠ .ended
  returned : t.stopReturned → False

theorem Sound.settle (sound : s.Sound) (at_r : s.requests[r]? = some ctx)
    (sent : ctx.call ≠ .checked) (settled : ctx.Settled (f ctx)) (leaves : s.Leaves t r)
    (requests : t.requests = s.requests.modify r f) : t.Sound := by
  have without := settled.easyHandle
  refine sound.modify at_r requests leaves.sdk ⟨?_, ?_, ?_, ?_, ?_, ?_, fun _ => without⟩
    leaves.nodup ?_ leaves.serves ?_ leaves.drained leaves.cancelling
    (fun at_io => absurd at_io leaves.notEnded) (fun returned => (leaves.returned returned).elim)
  · exact fun waits => absurd rfl ((leaves.queued r).mp waits).2
  · exact fun checked => absurd (settled.call.symm.trans checked) sent
  · exact fun has => absurd without has
  · intro serves k
    simp [leaves.active serves, without]
  · exact fun _ => .inr (.inr settled.reported)
  · exact fun _ _ has => absurd without has
  · intro j ne
    rw [leaves.queued, and_iff_left ne]
  · intro serves k j ne
    rw [leaves.active serves, and_iff_left ne]

/-- A change that leaves the requests as they are, and the queue and the batch as a whole. -/
theorem Sound.same_requests (sound : s.Sound) (sdk : t.sdk = s.sdk)
    (requests : t.requests = s.requests) (perm : t.queued.Perm s.queued)
    (active : t.io.Serves → s.io.Serves ∧ t.activeRequests = s.activeRequests)
    (drained : t.io.PastQueue → t.requestQueue = [])
    (cancelling : ∀ order, t.io = .cancelling order → (t.sdk = .mcp → order = []) ∧
      ∀ (r : Nat) ctx, s.requests[r]? = some ctx → ctx.easyHandle ≠ none → r ∈ order)
    (ended : t.io = .ended → ∀ (r : Nat) ctx, s.requests[r]? = some ctx → ctx.easyHandle = none)
    (returned : t.stopReturned → t.io = .ended) : t.Sound := by
  have filed : ∀ k j, t.Filed k j ↔ s.Filed k j := by
    intro k j
    rw [Filed, Filed, requests, sdk]
  refine ⟨perm.nodup_iff.mpr sound.nodup, ?_, ?_, ?_, ?_, ?_, drained, ?_, ?_, returned⟩
  · intro j waits
    rw [requests]
    exact sound.queued j (perm.mem_iff.mp waits)
  · rw [requests]
    exact sound.unsent
  · rw [requests]
    exact sound.underWay
  · intro serves k j
    obtain ⟨served, same⟩ := active serves
    rw [same, filed k j]
    exact sound.active served k j
  · intro j ctx' at_j accepted
    rw [requests] at at_j
    exact (sound.settled j ctx' at_j accepted).imp_left perm.mem_iff.mpr
  · rw [requests]
    exact cancelling
  · rw [requests]
    exact ended

theorem Sound.not_queued (sound : s.Sound) (at_r : s.requests[r]? = some ctx)
    (busy : ctx.call = .checked ∨ ctx.easyHandle ≠ none) : r ∉ s.queued := by
  intro waits
  obtain ⟨ctx', at_r', sent, without, -⟩ := sound.queued r waits
  cases at_r.symm.trans at_r'
  exact busy.elim sent fun has => has without

theorem Sound.push (sound : s.Sound) (at_r : s.requests[r]? = some ctx)
    (checked : ctx.call = .checked) (reading : ¬s.io.PastQueue) :
    { s.update r (fun ctx => { ctx with call := .pushed }) with
      requestQueue := s.requestQueue ++ [r] : ClientService Id }.Sound := by
  obtain ⟨without, empty⟩ := sound.unsent r ctx at_r checked
  have perm : (s.requestQueue ++ [r] ++ s.io.batch).Perm (r :: s.queued) :=
    (perm_append_singleton r s.requestQueue).append_right _
  have waits : r ∈ s.requestQueue ++ [r] ++ s.io.batch := perm.mem_iff.mpr mem_cons_self
  refine sound.modify at_r rfl rfl ⟨?_, nofun, ?_, ?_, fun _ => .inl waits, ?_, fun _ => without⟩ ?_
    ?_ id (fun _ _ _ _ => .rfl) (fun past => absurd past reading)
    (fun order at_io => absurd (at_io ▸ trivial) reading) id sound.returned
  · exact fun _ => ⟨nofun, without, empty⟩
  · exact fun has => absurd without has
  · exact (sound.placed at_r).active
  · exact fun _ _ has => absurd without has
  · exact perm.nodup_iff.mpr
      (nodup_cons.mpr ⟨sound.not_queued at_r (.inl checked), sound.nodup⟩)
  · intro j ne
    refine perm.mem_iff.trans ?_
    rw [mem_cons, or_iff_right ne]

variable {rest : List Nat} {answer : Option Bool} {h : Nat}

/-- The request that is handled next is filed under a key that is free. -/
theorem Sound.file {key : Id ⊕ Nat} (sound : s.Sound)
    (at_r : s.requests[r]? = some ctx) (at_io : s.io = .handling (r :: rest))
    (is_key : key = s.sdk.activeKey ctx.requestId h) (free : s.activeRequests.get? key = none) :
    ({ s with io := .handling rest }.file key r h).Sound := by
  have perm : s.queued.Perm (r :: (s.requestQueue ++ rest)) := by
    rw [ClientService.queued, at_io]
    exact perm_middle
  obtain ⟨ctx', at_r', sent, without, empty⟩ :=
    sound.queued r (perm.mem_iff.mpr mem_cons_self)
  cases at_r.symm.trans at_r'
  have nodup := nodup_cons.mp (perm.nodup_iff.mp sound.nodup)
  have serves : s.io.Serves := by
    rw [at_io]
    trivial
  have reduced : { s with io := .handling rest }.file key r h =
      { { s with io := .handling rest }.update r (fun ctx => { ctx with easyHandle := some h }) with
        activeRequests := s.activeRequests.insert key r } := by
    simp only [ClientService.file, free]
  have placed := sound.placed at_r
  have unfiled : ∀ k, s.activeRequests.get? k ≠ some r := fun k filed => by
    obtain ⟨h, has, -⟩ := (placed.active serves k).mp filed
    rw [without] at has
    cases has
  have queued : r ∉ s.requestQueue ++ rest := nodup.1
  rw [reduced]
  refine sound.modify at_r rfl rfl ⟨?_, ?_, ?_, ?_, fun _ => .inr (.inl nofun), nofun, nofun⟩ nodup.2
    ?_ (fun _ => serves) ?_ nofun nofun nofun ?_
  · exact fun waits => absurd waits queued
  · exact fun still => absurd still sent
  · exact fun _ => ⟨sent, by rw [empty]; exact nofun⟩
  · intro _ k
    rw [get?_insert]
    by_cases same : k = key
    · rw [if_pos same]
      exact iff_of_true rfl ⟨h, rfl, same.trans is_key⟩
    · rw [if_neg same]
      refine iff_of_false (unfiled k) ?_
      rintro ⟨h', ⟨⟩, other⟩
      exact same (other.trans is_key.symm)
  · intro j ne
    rw [perm.mem_iff, mem_cons, or_iff_right ne]
    exact .rfl
  · intro _ k j ne
    rw [get?_insert]
    by_cases same : k = key
    · rw [if_pos same, same, free]
      exact iff_of_false (fun eq => ne (Option.some.inj eq).symm) nofun
    · rw [if_neg same]
  · intro returned
    have ceased := sound.returned returned
    rw [at_io] at ceased
    cases ceased

theorem Sound.findActive (sound : s.Sound) (serves : s.io.Serves)
    (at_r : s.requests[r]? = some ctx) (has : ctx.easyHandle = some h) :
    ∃ key, s.findActive r h = some key ∧ s.activeRequests.get? key = some r := by
  have filed := (sound.active serves _ r).mpr ⟨ctx, h, at_r, has, rfl⟩
  unfold ClientService.findActive
  cases sdk : s.sdk with
  | a2a =>
    have mem := get?_eq_some_iff.mp filed
    have found : (s.activeRequests.entries.find? fun pair => pair.2 = r).isSome :=
      find?_isSome.mpr ⟨_, mem, decide_eq_true rfl⟩
    obtain ⟨pair, found⟩ := Option.isSome_iff_exists.mp found
    refine ⟨pair.1, congrArg (Option.map Prod.fst) found, ?_⟩
    have same : pair.2 = r := of_decide_eq_true (find?_some found :)
    exact get?_eq_some_iff.mpr (same ▸ mem_of_find?_eq_some found)
  | mcp =>
    rw [sdk] at filed
    exact ⟨.inr h, congrArg (Option.map fun _ => Sum.inr h) filed, filed⟩

theorem Sound.checkMultiInfo {strerror : Option String}
    (sound : s.Sound) (runs : s.CurlRuns) (at_r : s.requests[r]? = some ctx)
    (has : ctx.easyHandle = some h) (finishes : s.Finishes ctx answer strerror) :
    (s.checkMultiInfo r h strerror answer).Sound := by
  obtain ⟨serves, calm, going⟩ := runs.serves
  have handle : ctx.easyHandle ≠ none := by
    rw [has]
    exact nofun
  obtain ⟨sent, fresh⟩ := sound.underWay r ctx at_r handle
  obtain ⟨key, found, at_key⟩ := sound.findActive serves at_r has
  have not_queued := sound.not_queued at_r (.inr handle)
  simp only [ClientService.checkMultiInfo, found]
  refine sound.settle at_r sent ?_ ?_ rfl
  · cases strerror with
    | none => exact RequestContext.settled_handleFinishedResponse fresh finishes
    | some message => exact RequestContext.settled_handleErrorResponse fresh finishes
  · refine ⟨rfl, sound.nodup, ?_, fun _ => serves, ?_, sound.drained, ?_, going, ?_⟩
    · exact fun j => ⟨fun waits => ⟨waits, fun same => not_queued (same ▸ waits)⟩, And.left⟩
    · intro _ k j
      change (s.activeRequests.erase key).get? k = some j ↔ _
      by_cases same : k = key
      · subst same
        rw [get?_erase_self]
        refine ⟨nofun, ?_⟩
        rintro ⟨at_k, ne⟩
        cases at_k.symm.trans at_key
        exact absurd rfl ne
      · rw [get?_erase_of_ne same]
        refine ⟨fun at_k => ⟨at_k, ?_⟩, And.left⟩
        rintro rfl
        exact same (Filed.unique ((sound.active serves k j).mp at_k)
          ((sound.active serves key j).mp at_key))
    · exact fun order at_io => absurd at_io (calm order)
    · exact fun returned => going (sound.returned returned)

theorem Sound.turnAway {errorMessage : String}
    (sound : s.Sound) (at_r : s.requests[r]? = some ctx) (perm : s.queued.Perm (r :: t.queued))
    (calm : ¬ctx.Throws s.sdk answer) (sdk : t.sdk = s.sdk)
    (active : t.activeRequests = s.activeRequests) (serves : s.io.Serves) (reads : ¬t.io.PastQueue)
    (requests : t.requests = s.requests.modify r fun ctx =>
      ctx.finish.handleErrorResponse s.sdk errorMessage answer)
    (returned : t.stopReturned = s.stopReturned) : t.Sound := by
  have waits : r ∈ s.queued := perm.mem_iff.mpr mem_cons_self
  have nodup := nodup_cons.mp (perm.nodup_iff.mp sound.nodup)
  obtain ⟨ctx', at_r', sent, -, empty⟩ := sound.queued r waits
  cases at_r.symm.trans at_r'
  have fresh : .ended ∉ ctx.log := by
    rw [empty]
    exact nofun
  refine sound.settle at_r sent (RequestContext.settled_handleErrorResponse fresh calm) ?_ requests
  refine ⟨sdk, nodup.2, ?_, fun _ => serves, ?_, fun past => absurd past reads,
    fun order at_io => absurd (at_io ▸ trivial) reads, fun at_io => reads (at_io ▸ trivial), ?_⟩
  · intro j
    rw [perm.mem_iff, mem_cons]
    constructor
    · exact fun mem => ⟨.inr mem, fun same => nodup.1 (same ▸ mem)⟩
    · exact fun mem => mem.1.resolve_left mem.2
  · intro _ k j
    rw [active]
    refine ⟨fun at_k => ⟨at_k, ?_⟩, And.left⟩
    rintro rfl
    exact sound.not_filed waits ((sound.active serves k j).mp at_k)
  · intro back
    have ceased := sound.returned (returned.symm.trans back)
    rw [ceased] at serves
    exact serves

theorem Sound.cancelRequest (sound : s.Sound)
    (at_io : s.io = .cancelling (r :: rest)) (at_r : s.requests[r]? = some ctx)
    (has : ctx.easyHandle ≠ none) :
    ({ s with io := .cancelling rest }.cancelRequest r answer).Sound := by
  obtain ⟨none_mcp, -⟩ := sound.cancelling _ at_io
  obtain ⟨sent, fresh⟩ := sound.underWay r ctx at_r has
  have not_queued := sound.not_queued at_r (.inr has)
  have same : s.queued = s.requestQueue ++ [] := by
    rw [ClientService.queued, at_io]
    rfl
  have reduced : { s with io := .cancelling rest }.cancelRequest r answer =
      { s with io := .cancelling rest }.update r fun ctx => ctx.finish.executeCallback .a2a
        (ctx.errorResponse "Request cancelled during shutdown") answer := by
    cases sdk : s.sdk with
    | a2a => rfl
    | mcp => exact absurd (none_mcp sdk) (cons_ne_nil r rest)
  rw [reduced]
  refine sound.settle at_r sent 
    (RequestContext.settled_executeCallback fresh rfl RequestContext.not_throws_a2a) ?_ rfl
  have nodup := sound.nodup
  rw [same] at nodup not_queued
  refine ⟨rfl, nodup, ?_, nofun, nofun, ?_, ?_, nofun, ?_⟩
  · intro j
    rw [same]
    exact ⟨fun waits => ⟨waits, fun eq => not_queued (eq ▸ waits)⟩, And.left⟩
  · intro _
    exact sound.drained (at_io ▸ trivial)
  · rintro order ⟨⟩
    refine ⟨_, at_io, nofun, ?_⟩
    intro j mem
    exact (mem_cons.mp mem).symm
  · intro returned
    have ceased := sound.returned returned
    rw [at_io] at ceased
    cases ceased

theorem Sound.handle {outcome : CurlOutcome}
    (sound : s.Sound) (at_r : s.requests[r]? = some ctx) (at_io : s.io = .handling (r :: rest))
    (fresh : s.FreshHandle outcome) (handles : s.Handles ctx answer
      (if s.state = ConnState.running then outcome else .noHandle)) :
    (if s.state = ConnState.running then
        { s with io := .handling rest }.handleRequestInIOThread r ctx answer outcome
      else { s with io := .handling rest }.update r fun ctx =>
        ctx.finish.handleErrorResponse s.sdk "Service is stopping" answer).Sound := by
  have perm : s.queued.Perm (r :: (s.requestQueue ++ rest)) := by
    rw [ClientService.queued, at_io]
    exact perm_middle
  have serves : s.io.Serves := by
    rw [at_io]
    trivial
  have away : ∀ errorMessage, ¬ctx.Throws s.sdk answer →
      ({ s with io := .handling rest }.update r fun ctx =>
        ctx.finish.handleErrorResponse s.sdk errorMessage answer).Sound := fun _ calm =>
    sound.turnAway at_r perm calm rfl rfl serves id rfl rfl
  split
  · rename_i running
    rw [if_pos running] at handles
    cases outcome with
    | noHandle => exact away _ handles
    | notAdded h strerror => exact away _ handles
    | added h =>
      refine sound.file at_r at_io rfl ?_
      change s.sdk = .a2a → s.activeRequests.get? (.inl ctx.requestId) = none at handles
      cases sdk : s.sdk with
      | a2a => exact handles sdk
      | mcp =>
        -- the handle is new, and every key is the handle of its request
        refine Option.eq_none_iff_forall_ne_some.mpr fun j at_h => ?_
        obtain ⟨ctx', h', at_j, has, key⟩ := (sound.active serves _ j).mp at_h
        rw [sdk] at key
        cases key
        exact fresh ctx' (mem_of_getElem? at_j) has
  · rename_i stopping
    rw [if_neg stopping] at handles
    exact away _ handles

theorem Sound.send {new : RequestContext Id} (sound : s.Sound) (checked : new.call = .checked)
    (without : new.easyHandle = none) (empty : new.log = []) :
    { s with requests := s.requests ++ [new] : ClientService Id }.Sound := by
  have at_new : ∀ {j : Nat} {ctx}, s.requests[j]? = some ctx →
      (s.requests ++ [new])[j]? = some ctx := fun at_j => by
    rw [List.getElem?_append_left (List.getElem?_eq_some_iff.mp at_j).1]
    exact at_j
  refine ⟨sound.nodup, ?_, ?_, ?_, ?_, ?_, sound.drained, ?_, ?_, sound.returned⟩
  · intro j waits
    obtain ⟨ctx, at_j, rest⟩ := sound.queued j waits
    exact ⟨ctx, at_new at_j, rest⟩
  · intro j ctx at_j still
    obtain was | ⟨-, rfl⟩ := getElem?_concat_cases at_j
    · exact sound.unsent j ctx was still
    · exact ⟨without, empty⟩
  · intro j ctx at_j has
    obtain was | ⟨-, rfl⟩ := getElem?_concat_cases at_j
    · exact sound.underWay j ctx was has
    · exact absurd without has
  · intro serves k j
    refine (sound.active serves k j).trans ⟨?_, ?_⟩
    · rintro ⟨ctx, h, at_j, has, key⟩
      exact ⟨ctx, h, at_new at_j, has, key⟩
    · rintro ⟨ctx, h, at_j, has, key⟩
      obtain was | ⟨-, rfl⟩ := getElem?_concat_cases at_j
      · exact ⟨ctx, h, was, has, key⟩
      · rw [without] at has
        cases has
  · intro j ctx at_j accepted
    obtain was | ⟨-, rfl⟩ := getElem?_concat_cases at_j
    · exact sound.settled j ctx was accepted
    · rw [checked] at accepted
      rcases accepted with same | same <;> cases same
  · intro order at_io
    refine ⟨(sound.cancelling order at_io).1, ?_⟩
    intro j ctx at_j has
    obtain was | ⟨-, rfl⟩ := getElem?_concat_cases at_j
    · exact (sound.cancelling order at_io).2 j ctx was has
    · exact absurd without has
  · intro at_io j ctx at_j
    obtain was | ⟨-, rfl⟩ := getElem?_concat_cases at_j
    · exact sound.ended at_io j ctx was
    · exact without

theorem Sound.goOn {io : IoThread} {queue : List Nat} (sound : s.Sound) (serves : s.io.Serves)
    (perm : (queue ++ io.batch).Perm s.queued) (serves' : io.Serves)
    (drained : io.PastQueue → queue = []) :
    { s with requestQueue := queue, io := io : ClientService Id }.Sound := by
  refine sound.same_requests rfl rfl perm (fun _ => ⟨serves, rfl⟩) drained ?_ ?_ ?_
  · rintro order rfl
    exact serves'.elim
  · rintro rfl
    exact serves'.elim
  · intro returned
    have ended := sound.returned returned
    rw [ended] at serves
    exact serves.elim

theorem Started.sound (started : s.Started) : s.Sound := by
  have no_request : ∀ {r : Nat} {ctx}, s.requests[r]? ≠ some ctx := by
    rw [started.requests]
    exact nofun
  have none_queued : s.queued = [] := by
    rw [queued, started.requestQueue, started.idle]
    rfl
  refine ⟨none_queued ▸ nodup_nil, ?_, fun _ _ at_r => absurd at_r no_request,
    fun _ _ at_r => absurd at_r no_request, ?_, fun _ _ at_r => absurd at_r no_request, ?_, ?_,
    ?_, ?_⟩
  · rw [none_queued]
    exact nofun
  · intro _ k r
    rw [started.activeRequests]
    refine ⟨nofun, ?_⟩
    rintro ⟨ctx, h, at_r, -⟩
    exact absurd at_r no_request
  · exact fun _ => started.requestQueue
  · rw [started.idle]
    exact nofun
  · rw [started.idle]
    exact nofun
  · rw [started.stopReturned]
    exact nofun

variable [Inhabited Id]

theorem Sound.step {event : ClientEvent Id} (sound : s.Sound) (kept : s.Kept event)
    (step : s.step event = some t) : t.Sound := by
  cases event with
  | send requestId isStream hasHeaderCallback =>
    simp only [ClientService.step] at step
    split at step <;> cases step
    exact sound.send rfl rfl rfl
  | push r room =>
    simp only [ClientService.step, bind_eq_some] at step
    obtain ⟨ctx, at_r, _, checked, step⟩ := step
    rw [Option.guard_eq_some'] at checked
    cases room with
    | true =>
      cases step
      exact sound.push at_r checked (kept rfl)
    | false =>
      cases step
      refine sound.adjust at_r ⟨rfl, rfl, nofun, ?_, fun _ => rfl, id⟩
      rintro (same | same) <;> cases same
  | sent r notified =>
    simp only [ClientService.step, bind_eq_some] at step
    obtain ⟨ctx, at_r, _, pushed, step⟩ := step
    rw [Option.guard_eq_some'] at pushed
    cases step
    refine sound.adjust at_r ⟨rfl, rfl, ?_, fun _ => .inl pushed, fun _ => rfl, id⟩
    split <;> exact nofun
  | stop =>
    cases step
    split
    · exact sound.same_requests rfl rfl .rfl (fun serves => ⟨serves, rfl⟩) sound.drained
        sound.cancelling sound.ended sound.returned
    · exact sound
  | notify =>
    simp only [ClientService.step] at step
    split at step <;> cases step
    rename_i idle
    refine sound.goOn (idle ▸ trivial) ?_ trivial nofun
    rw [ClientService.queued, idle]
    exact .rfl
  | tryPop seen =>
    simp only [ClientService.step] at step
    split at step
    · rename_i localMessages r rest at_io at_queue
      have room := kept rfl
      rw [at_io] at room
      rw [if_pos (show localMessages.length < defaultQueueMaxBatchSize from room)] at step
      cases step
      refine sound.goOn (at_io ▸ trivial) ?_ trivial nofun
      rw [ClientService.queued, at_io, at_queue]
      exact (append_assoc ..) ▸ perm_append_singleton r (rest ++ localMessages)
    · rename_i localMessages at_io
      cases step
      refine sound.goOn (at_io ▸ trivial) ?_ trivial nofun
      rw [ClientService.queued, at_io]
      exact .rfl
    · cases step
  | handle outcome answer =>
    simp only [ClientService.step] at step
    split at step
    · rename_i r rest at_io
      simp only [bind_eq_some] at step
      obtain ⟨ctx, at_r, _, fresh, step⟩ := step
      rw [Option.guard_eq_some'] at fresh
      cases step
      have next : r ∈ s.io.next? := by
        rw [at_io]
        rfl
      exact sound.handle at_r at_io fresh (kept r next ctx at_r)
    · cases step
  | batchDone =>
    simp only [ClientService.step] at step
    split at step <;> cases step
    rename_i at_io
    refine sound.goOn (at_io ▸ trivial) ?_ trivial nofun
    rw [ClientService.queued, at_io]
    exact .rfl
  | header r statusCode headers close =>
    simp only [ClientService.step, bind_eq_some] at step
    obtain ⟨ctx, at_r, _, runs, step⟩ := step
    rw [Option.guard_eq_some'] at runs
    cases step
    exact sound.adjust at_r (.of_advanced (Option.isSome_iff_ne_none.mp runs.2)
      (RequestContext.advanced_headerCallback statusCode headers close))
  | write r contents =>
    simp only [ClientService.step, bind_eq_some] at step
    obtain ⟨ctx, at_r, _, runs, step⟩ := step
    rw [Option.guard_eq_some'] at runs
    cases step
    exact sound.adjust at_r (.of_advanced (Option.isSome_iff_ne_none.mp runs.2)
      (RequestContext.advanced_writeCallback contents))
  | done r strerror answer =>
    simp only [ClientService.step, bind_eq_some] at step
    obtain ⟨ctx, at_r, _, runs, h, has, step⟩ := step
    rw [Option.guard_eq_some'] at runs
    cases step
    exact sound.checkMultiInfo runs at_r has (kept ctx at_r)
  | stopRequest =>
    simp only [ClientService.step] at step
    split at step <;> cases step
    rename_i at_io
    refine sound.goOn (at_io.1 ▸ trivial) ?_ trivial nofun
    rw [ClientService.queued, at_io.1]
    exact .rfl
  | reject answer =>
    simp only [ClientService.step] at step
    split at step
    · rename_i processed r rest at_io at_queue
      split at step <;> cases step
      have perm : s.queued.Perm (r :: (rest ++ [])) := by
        rw [ClientService.queued, at_io, at_queue]
        exact .rfl
      obtain ⟨ctx, at_r, -⟩ := sound.queued r (perm.mem_iff.mpr mem_cons_self)
      have head : r ∈ s.requestQueue.head? := by
        rw [at_queue]
        rfl
      exact sound.turnAway at_r perm (kept r head ctx at_r) rfl rfl (at_io ▸ trivial) id rfl rfl
    · cases step
  | drained =>
    simp only [ClientService.step] at step
    split at step <;> cases step
    rename_i at_io
    refine sound.goOn (at_io ▸ trivial) ?_ trivial fun _ => kept
    rw [ClientService.queued, at_io]
    exact .rfl
  | cancelAll requestsToCancel =>
    simp only [ClientService.step] at step
    split at step <;> cases step
    rename_i enabled
    obtain ⟨at_io, perm⟩ := enabled
    refine sound.same_requests rfl rfl ?_ nofun (fun _ => sound.drained (at_io ▸ trivial)) ?_
      nofun ?_
    · rw [ClientService.queued, ClientService.queued, at_io]
      exact .rfl
    · rintro order ⟨⟩
      refine ⟨kept, ?_⟩
      intro r ctx at_r has
      obtain ⟨h, has⟩ := Option.ne_none_iff_exists'.mp has
      have filed := (sound.active (at_io ▸ trivial) _ r).mpr ⟨ctx, h, at_r, has, rfl⟩
      exact perm.mem_iff.mpr (mem_map_of_mem (f := Prod.snd) (get?_eq_some_iff.mp filed))
    · intro returned
      have ended := sound.returned returned
      rw [at_io] at ended
      cases ended
  | cancel answer =>
    simp only [ClientService.step] at step
    split at step
    · rename_i r rest at_io
      simp only [bind_eq_some] at step
      obtain ⟨ctx, at_r, step⟩ := step
      cases step
      split
      · rename_i has
        exact sound.cancelRequest at_io at_r (Option.isSome_iff_ne_none.mp has)
      · rename_i absent
        obtain ⟨none_mcp, all⟩ := sound.cancelling _ at_io
        refine sound.same_requests rfl rfl ?_ nofun
          (fun _ => sound.drained (at_io ▸ trivial)) ?_ nofun ?_
        · rw [ClientService.queued, ClientService.queued, at_io]
          exact .rfl
        · rintro order ⟨⟩
          refine ⟨fun mcp => absurd (none_mcp mcp) (cons_ne_nil r rest), ?_⟩
          intro j ctx' at_j has
          refine (mem_cons.mp (all j ctx' at_j has)).resolve_left ?_
          rintro rfl
          cases at_r.symm.trans at_j
          exact absent (Option.isSome_iff_ne_none.mpr has)
        · intro returned
          have ended := sound.returned returned
          rw [at_io] at ended
          cases ended
    · cases step
  | eventLoopEnds =>
    simp only [ClientService.step] at step
    split at step <;> cases step
    rename_i at_io
    refine sound.same_requests rfl rfl ?_ nofun (fun _ => sound.drained (at_io ▸ trivial)) nofun
      ?_ fun _ => rfl
    · rw [ClientService.queued, ClientService.queued, at_io]
      exact .rfl
    · intro _ r ctx at_r
      by_contra has
      exact not_mem_nil ((sound.cancelling [] at_io).2 r ctx at_r has)
  | stopReturns =>
    simp only [ClientService.step] at step
    split at step <;> cases step
    rename_i at_io
    exact sound.same_requests rfl rfl .rfl (fun serves => ⟨serves, rfl⟩) sound.drained
      sound.cancelling sound.ended fun _ => at_io

/-- An accepted request has its report once it is over or `Stop` has returned. -/
theorem every_request_reported {start : ClientService Id} {events : List (ClientEvent Id)}
    (started : start.Started)
    (run : Run (Under Kept (Steps (fun s event => ClientService.step s event))) start events s)
    (at_r : s.requests[r]? = some ctx) (accepted : ctx.call = .accepted)
    (isOver : .ended ∈ ctx.log ∨ s.stopReturned) : Reported ctx.log := by
  have sound : s.Sound :=
    run.invariant_under (fun _ _ _ sound kept step => sound.step kept step) started.sound
  obtain waits | has | reported := sound.settled r ctx at_r (.inr accepted)
  · rcases isOver with ended | returned
    · obtain ⟨ctx', at_r', -, -, empty⟩ := sound.queued r waits
      cases at_r.symm.trans at_r'
      rw [empty] at ended
      cases ended
    · have at_io := sound.returned returned
      rw [queued, at_io, sound.drained (at_io ▸ trivial)] at waits
      cases waits
  · rcases isOver with ended | returned
    · exact absurd ended (sound.underWay r ctx at_r has).2
    · exact absurd (sound.ended (sound.returned returned) r ctx at_r) has
  · exact reported

instance (s : ClientService Id) (ctx : RequestContext Id) (answer : Option Bool)
    (outcome : CurlOutcome) : Decidable (s.Handles ctx answer outcome) :=
  match outcome with
  | .added _ => inferInstanceAs
      (Decidable (s.sdk = .a2a → s.activeRequests.get? (.inl ctx.requestId) = none))
  | .noHandle | .notAdded .. => inferInstanceAs (Decidable ¬ctx.Throws s.sdk answer)

instance (s : ClientService Id) (ctx : RequestContext Id) (answer : Option Bool)
    (strerror : Option String) : Decidable (s.Finishes ctx answer strerror) := by
  cases strerror <;> unfold Finishes <;> infer_instance

instance (s : ClientService Id) (event : ClientEvent Id) : Decidable (s.Kept event) := by
  cases event <;> unfold Kept <;> infer_instance

/-- A client of the MCP SDK that has just been started. -/
def fresh : ClientService Int := ⟨.mcp, .running, [], .empty, [], .idle, false⟩

theorem fresh_started : fresh.Started := ⟨rfl, rfl, rfl, rfl, rfl, rfl⟩

/-- A request is sent and its transfer begins. -/
def sending : List (ClientEvent Int) :=
  [.send 1 false true, .push 0 true, .sent 0 true, .notify, .tryPop true, .tryPop false,
    .handle (.added 7) (some false), .batchDone]

/-- The transfer ends with a response. -/
def answering : List (ClientEvent Int) :=
  [.header 0 200 [("content-type".toList, "application/json".toList)] false,
    .write 0 "\x7b\x7d".toList, .done 0 none (some false)]

/-- `Stop` gives up waiting for the transfer. -/
def stopping : List (ClientEvent Int) :=
  [.stop, .stopRequest, .drained, .cancelAll [0], .cancel (some false), .eventLoopEnds,
    .stopReturns]

theorem answered_request_reported : ∃ (s : ClientService Int) (ctx : RequestContext Int),
    Run (Under Kept (Steps (fun s event => ClientService.step s event))) fresh
      (sending ++ answering) s ∧
    s.requests[0]? = some ctx ∧ Reported ctx.log := by
  have ends : ((sending ++ answering).foldlM (fun (s : ClientService Int) event =>
      if s.Kept event then s.step event else none) fresh).isSome := by decide
  obtain ⟨s, computed⟩ := Option.isSome_iff_exists.mp ends
  have at_end : (s.requests[0]?.map fun ctx => (ctx.call, ctx.log.any (· = .ended))) =
      some (.accepted, true) := by
    have seen : ((sending ++ answering).foldlM (fun (s : ClientService Int) event =>
        if s.Kept event then s.step event else none) fresh).map
          (fun s => s.requests[0]?.map fun ctx => (ctx.call, ctx.log.any (· = .ended))) =
        some (some (.accepted, true)) := by decide
    rw [computed] at seen
    exact Option.some.inj seen
  obtain ⟨ctx, at_0, facts⟩ := Option.map_eq_some_iff.mp at_end
  obtain ⟨accepted, ended⟩ := Prod.mk.inj facts
  have run := run_under_of_foldlM computed
  refine ⟨s, ctx, run, at_0, every_request_reported fresh_started run at_0 accepted (.inl ?_)⟩
  obtain ⟨e, mem, same⟩ := List.any_eq_true.mp ended
  exact of_decide_eq_true same ▸ mem

/-- A request that is cancelled by the `Stop` of the MCP client has no report. -/
theorem cancelled_silently : ∃ (s : ClientService Int) (ctx : RequestContext Int),
    Run (Steps (fun s event => ClientService.step s event)) fresh (sending ++ stopping) s ∧
    s.requests[0]? = some ctx ∧ ctx.call = .accepted ∧ .ended ∈ ctx.log ∧ s.stopReturned ∧
    ¬Reported ctx.log := by
  have seen : ((sending ++ stopping).foldlM (fun (s : ClientService Int) event => s.step event)
      fresh).map (fun s => (s.requests[0]?.map fun ctx => (ctx.call, ctx.log), s.stopReturned)) =
      some (some (.accepted, [.ended]), true) := by decide
  obtain ⟨s, computed, at_end⟩ := Option.map_eq_some_iff.mp seen
  obtain ⟨at_0, returned⟩ := Prod.mk.inj at_end
  obtain ⟨ctx, at_0, facts⟩ := Option.map_eq_some_iff.mp at_0
  obtain ⟨accepted, log⟩ := Prod.mk.inj facts
  refine ⟨s, ctx, run_of_foldlM computed, at_0, accepted, ?_, returned, ?_⟩
  · rw [log]
    exact List.mem_singleton_self _
  · rw [log]
    rintro ⟨before, headers, final, same, -⟩
    have lengths := congrArg List.length same
    simp only [List.length_append, List.length_cons] at lengths
    omega

end ClientService

end AgentProtocols.Shared
