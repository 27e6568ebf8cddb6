import AgentProtocols.Cluster.InboundGate

/-!
The OPEN handshake, and the sessions of two nodes that open towards each other. `Duo` is two nodes
with any number of opens under way. Once nothing is in flight the sessions agree exactly if the last
response met the slot that its own open wrote (`agreed_iff_straight`);
`Crossed.crossed_opens_disagree` is a run in which it does not.
-/

namespace AgentProtocols.Cluster

open Lib Function

/-! ### Authorization -/

inductive Role where
  | admin
  | provider
  | user
deriving DecidableEq

/-- What a namespace token stands for. -/
structure AuthContext where
  principalId : String
  role : Role
  namespaces : Option (List String)

def AuthContext.isAdmin (c : AuthContext) : Bool := c.role == .admin

/-- Result of `authorizeNamespaces`. -/
structure Authorized where
  accepted : List String
  ephemeral : List String

/-- `authorize_namespaces`: no auth needed, a token scoped to the namespace, or an admin. -/
def authorizeNamespaces (registry : Option LocalRegistryView) (authOn : Bool)
    (authenticate : String → Option AuthContext) (requested : List String)
    (token : Option String) : Authorized :=
  let ctx := match authOn, token with
    | true, some t => if t.isEmpty then none else authenticate t
    | _, _ => none
  let existing (ns : String) := registry.any fun reg => reg.listDatasets.contains ns
  let required (ns : String) := registry.any fun reg => reg.isAuthRequired ns
  let grants (c : AuthContext) (ns : String) := c.namespaces.any fun set => set.contains ns
  let hosted := !authOn || ctx.any AuthContext.isAdmin
  { accepted := requested.filter fun ns =>
      if existing ns then !authOn || !required ns || ctx.any fun c => c.isAdmin || grants c ns
      else hosted
    ephemeral := requested.filter fun ns => !existing ns && hosted }

/-! ### The handshake -/

/-- A `BTreeSet` of names. -/
def nameSet (names : List String) : List String := names.dedup.mergeSort fun a b => decide (a ≤ b)

structure OpenRequest where
  nodeId : String
  address : String
  namespaces : List String
  token : Option String

structure OpenResponse where
  nodeId : String
  accepted : List String
  ephemeral : List String
  sessionToken : Option String

namespace ClusterStore

variable (s : ClusterStore)

/-- Record a session, in the one slot of its peer; its records are no longer
suppressed. -/
def openSession (peer : Peer) : ClusterStore :=
  { s with
    sessions := s.sessions.insert peer.nodeId peer
    evictedUntil := s.evictedUntil.erase peer.nodeId }

def ownDatasets : List String := s.registry.elim [] LocalRegistryView.listDatasets

/-- `handle_open`; `secret` is the random token. -/
def handleOpen (authenticate : String → Option AuthContext) (req : OpenRequest) (secret : String)
    (now : Int) : OpenResponse × ClusterStore :=
  let out := authorizeNamespaces s.registry s.authEnabled authenticate
    (nameSet (req.namespaces ++ s.ownDatasets)) req.token
  let sessionToken := if s.authEnabled then some secret else none
  (⟨s.nodeId, out.accepted, out.ephemeral, sessionToken⟩,
    s.openSession ⟨req.nodeId, req.address, nameSet out.accepted, now, sessionToken⟩)

/-- The request of `connect_peer`. -/
def openRequest (advertise : String) (namespaces : Option (List String)) (token : Option String) :
    OpenRequest where
  nodeId := s.nodeId
  address := advertise
  namespaces := match namespaces with
    | some ns => if ns.isEmpty then s.ownDatasets else ns
    | none => s.ownDatasets
  token := token

/-- What `connect_peer` stores when the response arrives. -/
def connected (address : String) (resp : OpenResponse) (now : Int) : ClusterStore :=
  s.openSession ⟨resp.nodeId, address, nameSet resp.accepted, now, resp.sessionToken⟩

end ClusterStore

/-! ### Two nodes -/

inductive Side where
  | left
  | right
deriving DecidableEq

def Side.other : Side → Side
  | left => right
  | right => left

theorem Side.other_other (side : Side) : side.other.other = side := by
  cases side <;> rfl

theorem Side.other_ne (side : Side) : side.other ≠ side := by
  cases side <;> decide

theorem Side.eq_or_eq_other (side here : Side) : side = here ∨ side = here.other := by
  cases side <;> cases here <;> decide

/-- An open request in flight, from its initiator. -/
structure Requested where
  sender : Side
  request : OpenRequest

/-- A response in flight to the initiator, with the number of its open. -/
structure Responded where
  receiver : Side
  number : Nat
  response : OpenResponse

/-- Two nodes and the opens between them. -/
structure Duo where
  store : Side → ClusterStore
  requests : List Requested
  responses : List Responded
  /-- The secrets and the accepted namespaces of the opens handled so far. -/
  opened : List (String × List String)
  /-- The open that last wrote the slot. -/
  writer : Side → Option Nat

namespace Duo

/-- The sections of `connect_peer` and `handle_open`. -/
inductive Action where
  /-- A node sends an open. -/
  | send (sender : Side) (namespaces : Option (List String)) (token : Option String)
  /-- The request is handled, with this random secret. -/
  | handle (index : Nat) (secret : String) (now : Int)
  /-- The response arrives at the initiator. -/
  | receive (index : Nat) (now : Int)

variable (advertise : Side → String) (authenticate : Side → String → Option AuthContext)

/-- One section; the random secret is not one that was drawn before. -/
def step (d : Duo) : Action → Option Duo
  | .send sender namespaces token =>
    some { d with
      requests := d.requests ++
        [⟨sender, (d.store sender).openRequest (advertise sender) namespaces token⟩] }
  | .handle index secret now => do
    let req ← d.requests[index]?
    if secret ∈ d.opened.map Prod.fst then none
    else
      let here := req.sender.other
      let (response, store) := (d.store here).handleOpen (authenticate here) req.request secret now
      some { d with
        store := Function.update d.store here store
        requests := d.requests.eraseIdx index
        responses := d.responses ++ [⟨req.sender, d.opened.length, response⟩]
        opened := d.opened ++ [(secret, response.accepted)]
        writer := Function.update d.writer here (some d.opened.length) }
  | .receive index now => do
    let resp ← d.responses[index]?
    let here := resp.receiver
    some { d with
      store := Function.update d.store here
        ((d.store here).connected (advertise here.other) resp.response now)
      responses := d.responses.eraseIdx index
      writer := Function.update d.writer here (some resp.number) }

/-- Nothing is in flight. -/
def Settled (d : Duo) : Prop := d.requests = [] ∧ d.responses = []

def session (d : Duo) (side : Side) : Option Peer :=
  (d.store side).sessions.get? (d.store side.other).nodeId

/-- Both sides carry the same token and the same namespaces. -/
def Agreed (d : Duo) : Prop :=
  d.Settled → ∀ p q, d.session .left = some p → d.session .right = some q →
    p.token = q.token ∧ p.namespaces = q.namespaces ∧
      (d.store .right).isAuthed (d.store .left).nodeId p.token = true ∧
      (d.store .left).isAuthed (d.store .right).nodeId q.token = true

/-- Two nodes with auth enabled that have no session with each other. -/
structure Fresh (d : Duo) : Prop where
  distinct : (d.store .left).nodeId ≠ (d.store .right).nodeId
  auth : ∀ side, (d.store side).authEnabled = true
  sessions : ∀ side, d.session side = none
  settled : d.Settled
  opened : d.opened = []
  writer : ∀ side, d.writer side = none

/-- A response that arrives last meets the slot that its own open wrote. -/
def Straight (d : Duo) : Action → Prop
  | .receive index _ => ∀ resp, d.responses[index]? = some resp →
      d.requests = [] → d.responses.eraseIdx index = [] →
        d.writer resp.receiver.other = some resp.number
  | _ => True

/-! ### What the slots hold -/

/-- The token and the namespaces are those of the open with this number. -/
def Opened (d : Duo) (n : Nat) (token : Option String) (namespaces : List String) : Prop :=
  ∃ secret accepted, d.opened[n]? = some (secret, accepted) ∧ token = some secret ∧
    namespaces = nameSet accepted

/-- The slot of a side is empty, or holds the open that last wrote it. -/
def Slot (d : Duo) (side : Side) : Prop :=
  (d.writer side = none ∧ d.session side = none) ∨
    ∃ n p, d.writer side = some n ∧ d.session side = some p ∧ d.Opened n p.token p.namespaces

/-- The number, the token and the namespaces of an open that was handled. -/
def Carries (d : Duo) (resp : Responded) : Prop :=
  resp.response.nodeId = (d.store resp.receiver.other).nodeId ∧
    d.Opened resp.number resp.response.sessionToken (nameSet resp.response.accepted) ∧
    (d.writer resp.receiver.other).isSome

/-- The invariant of the handshake. -/
structure Sound (d : Duo) : Prop where
  distinct : (d.store .left).nodeId ≠ (d.store .right).nodeId
  auth : ∀ side, (d.store side).authEnabled = true
  nodup : (d.opened.map Prod.fst).Nodup
  requested : ∀ req ∈ d.requests, req.request.nodeId = (d.store req.sender).nodeId
  responded : ∀ resp ∈ d.responses, d.Carries resp
  slots : ∀ side, d.Slot side

variable {advertise authenticate} {d d' : Duo} {here side : Side} {store : ClusterStore}

theorem Fresh.sound (fresh : d.Fresh) : d.Sound where
  distinct := fresh.distinct
  auth := fresh.auth
  nodup := by
    rw [fresh.opened]
    exact List.nodup_nil
  requested := by
    rw [fresh.settled.1]
    rintro req ⟨⟩
  responded := by
    rw [fresh.settled.2]
    rintro resp ⟨⟩
  slots side := .inl ⟨fresh.writer side, fresh.sessions side⟩

/-- One store changes, and its node does not. -/
structure Rewrites (d d' : Duo) (here : Side) (store : ClusterStore) : Prop where
  stores : d'.store = Function.update d.store here store
  nodeId : store.nodeId = (d.store here).nodeId
  auth : store.authEnabled = (d.store here).authEnabled

namespace Rewrites

variable (rewrites : Rewrites d d' here store)
include rewrites

theorem store_here : d'.store here = store := by
  rw [rewrites.stores, update_self]

theorem store_other : d'.store here.other = d.store here.other := by
  rw [rewrites.stores, update_of_ne here.other_ne]

theorem nodeId_eq (side : Side) : (d'.store side).nodeId = (d.store side).nodeId := by
  rcases Side.eq_or_eq_other side here with rfl | rfl
  · rw [rewrites.store_here, rewrites.nodeId]
  · rw [rewrites.store_other]

theorem auth_eq (side : Side) : (d'.store side).authEnabled = (d.store side).authEnabled := by
  rcases Side.eq_or_eq_other side here with rfl | rfl
  · rw [rewrites.store_here, rewrites.auth]
  · rw [rewrites.store_other]

theorem session_here : d'.session here = store.sessions.get? (d.store here.other).nodeId := by
  rw [session, rewrites.store_here, rewrites.store_other]

theorem session_other : d'.session here.other = d.session here.other := by
  rw [session, session, rewrites.nodeId_eq, rewrites.store_other]

end Rewrites

variable {token : Option String} {now : Int} {n index : Nat}

theorem Opened.mono {namespaces : List String}
    (opened : d.Opened n token namespaces) (more : ∃ added, d'.opened = d.opened ++ added) :
    d'.Opened n token namespaces := by
  obtain ⟨secret, accepted, at_n, rest⟩ := opened
  obtain ⟨added, grown⟩ := more
  refine ⟨secret, accepted, ?_, rest⟩
  rw [grown, List.getElem?_append_left (List.getElem?_eq_some_iff.mp at_n).1, at_n]

theorem Rewrites.slot_other (rewrites : Rewrites d d' here store)
    (more : ∃ added, d'.opened = d.opened ++ added)
    (writer : d'.writer here.other = d.writer here.other) (slot : d.Slot here.other) :
    d'.Slot here.other := by
  rcases slot with ⟨unwritten, empty⟩ | ⟨n, p, written, found, opened⟩
  · exact .inl ⟨writer.trans unwritten, rewrites.session_other.trans empty⟩
  · exact .inr ⟨n, p, writer.trans written, rewrites.session_other.trans found, opened.mono more⟩

theorem Sound.of_rewrites (sound : d.Sound) (rewrites : Rewrites d d' here store)
    (more : ∃ added, d'.opened = d.opened ++ added) (nodup : (d'.opened.map Prod.fst).Nodup)
    (requests : ∀ req ∈ d'.requests, req ∈ d.requests)
    (responses : ∀ resp ∈ d'.responses, resp ∈ d.responses ∨ d'.Carries resp)
    (writer : ∃ n, d'.writer = Function.update d.writer here (some n)) (slot : d'.Slot here) :
    d'.Sound where
  distinct := by
    rw [rewrites.nodeId_eq, rewrites.nodeId_eq]
    exact sound.distinct
  auth side := (rewrites.auth_eq side).trans (sound.auth side)
  nodup := nodup
  requested := by
    intro req mem
    rw [rewrites.nodeId_eq]
    exact sound.requested req (requests req mem)
  responded := by
    intro resp mem
    rcases responses resp mem with before | carries
    · obtain ⟨sender, opened, written⟩ := sound.responded resp before
      refine ⟨sender.trans (rewrites.nodeId_eq _).symm, opened.mono more, ?_⟩
      obtain ⟨n, update⟩ := writer
      rw [update]
      by_cases same : resp.receiver.other = here
      · rw [same, update_self]
        rfl
      · rw [update_of_ne same]
        exact written
    · exact carries
  slots := by
    intro side
    rcases Side.eq_or_eq_other side here with rfl | rfl
    · exact slot
    · obtain ⟨n, update⟩ := writer
      apply rewrites.slot_other more _ (sound.slots here.other)
      rw [update, update_of_ne here.other_ne]

theorem mem_of_mem_eraseIdx {α : Type*} {l : List α} {i : Nat} {x : α} (mem : x ∈ l.eraseIdx i) :
    x ∈ l := (List.eraseIdx_sublist l i).mem mem

structure Handled (d d' : Duo) (index : Nat) (secret : String) (req : Requested)
    (answer : OpenResponse × ClusterStore) : Prop where
  found : d.requests[index]? = some req
  unused : secret ∉ d.opened.map Prod.fst
  stores : d'.store = Function.update d.store req.sender.other answer.2
  requests : d'.requests = d.requests.eraseIdx index
  responses : d'.responses = d.responses ++ [⟨req.sender, d.opened.length, answer.1⟩]
  opened : d'.opened = d.opened ++ [(secret, answer.1.accepted)]
  writer : d'.writer = Function.update d.writer req.sender.other (some d.opened.length)

theorem step_handle {secret : String}
    (step : d.step advertise authenticate (.handle index secret now) = some d') :
    ∃ req, Handled d d' index secret req ((d.store req.sender.other).handleOpen
      (authenticate req.sender.other) req.request secret now) := by
  simp only [Duo.step, bind_eq_some] at step
  obtain ⟨req, found, step⟩ := step
  split at step
  · cases step
  · rename_i unused
    cases step
    exact ⟨req, found, unused, rfl, rfl, rfl, rfl, rfl⟩

structure Received (d d' : Duo) (index : Nat) (resp : Responded) (store : ClusterStore) : Prop where
  found : d.responses[index]? = some resp
  stores : d'.store = Function.update d.store resp.receiver store
  requests : d'.requests = d.requests
  responses : d'.responses = d.responses.eraseIdx index
  opened : d'.opened = d.opened
  writer : d'.writer = Function.update d.writer resp.receiver (some resp.number)

theorem step_receive (step : d.step advertise authenticate (.receive index now) = some d') :
    ∃ resp, Received d d' index resp ((d.store resp.receiver).connected
      (advertise resp.receiver.other) resp.response now) := by
  simp only [Duo.step, bind_eq_some] at step
  obtain ⟨resp, found, step⟩ := step
  cases step
  exact ⟨resp, found, rfl, rfl, rfl, rfl, rfl⟩

/-- The handler writes its slot and answers with the same token and namespaces. -/
theorem Handled.sound {secret : String} {req : Requested}
    (sound : d.Sound) (handled : Handled d d' index secret req
      ((d.store req.sender.other).handleOpen (authenticate req.sender.other) req.request secret
        now)) : d'.Sound := by
  have rewrites : Rewrites d d' req.sender.other _ := ⟨handled.stores, rfl, rfl⟩
  have sender := sound.requested req (List.mem_of_getElem? handled.found)
  have issued : ((d.store req.sender.other).handleOpen (authenticate req.sender.other)
      req.request secret now).1.sessionToken = some secret := if_pos (sound.auth _)
  have newest : d'.opened[d.opened.length]? = some (secret, ((d.store req.sender.other).handleOpen
      (authenticate req.sender.other) req.request secret now).1.accepted) := by
    rw [handled.opened]
    exact List.getElem?_concat_length
  apply sound.of_rewrites rewrites ⟨_, handled.opened⟩
  · rw [handled.opened, List.map_append, List.nodup_append]
    refine ⟨sound.nodup, List.nodup_singleton _, ?_⟩
    rintro a mem b last rfl
    cases List.mem_singleton.mp last
    exact handled.unused mem
  · rw [handled.requests]
    exact fun _ => mem_of_mem_eraseIdx
  · rw [handled.responses]
    intro resp mem
    rcases List.mem_append.mp mem with mem | mem
    · exact .inl mem
    · cases List.mem_singleton.mp mem
      refine .inr ⟨(rewrites.nodeId_eq _).symm, ⟨secret, _, newest, issued, rfl⟩, ?_⟩
      rw [handled.writer, update_self]
      rfl
  · exact ⟨_, handled.writer⟩
  · have slot : ∃ p, d'.session req.sender.other = some p ∧ p.token = some secret ∧
        p.namespaces = nameSet ((d.store req.sender.other).handleOpen
          (authenticate req.sender.other) req.request secret now).1.accepted := by
      rw [rewrites.session_here, Side.other_other, ← sender, ← issued]
      exact ⟨_, OrderedMap.get?_insert_self, rfl, rfl⟩
    obtain ⟨p, found, token, namespaces⟩ := slot
    refine .inr ⟨d.opened.length, p, ?_, found, secret, _, newest, token, namespaces⟩
    rw [handled.writer, update_self]

/-- The initiator writes its slot with what the response carries. -/
theorem Received.sound {resp : Responded} (sound : d.Sound)
    (received : Received d d' index resp ((d.store resp.receiver).connected
      (advertise resp.receiver.other) resp.response now)) : d'.Sound := by
  have rewrites : Rewrites d d' resp.receiver _ := ⟨received.stores, rfl, rfl⟩
  obtain ⟨sender, opened, -⟩ := sound.responded resp (List.mem_of_getElem? received.found)
  have kept : ∃ added, d'.opened = d.opened ++ added :=
    ⟨[], received.opened.trans (List.append_nil _).symm⟩
  apply sound.of_rewrites rewrites kept
  · rw [received.opened]
    exact sound.nodup
  · rw [received.requests]
    exact fun _ mem => mem
  · rw [received.responses]
    exact fun _ mem => .inl (mem_of_mem_eraseIdx mem)
  · exact ⟨_, received.writer⟩
  · have slot : ∃ p, d'.session resp.receiver = some p ∧ p.token = resp.response.sessionToken ∧
        p.namespaces = nameSet resp.response.accepted := by
      rw [rewrites.session_here, ← sender]
      exact ⟨_, OrderedMap.get?_insert_self, rfl, rfl⟩
    obtain ⟨p, found, token, namespaces⟩ := slot
    refine .inr ⟨resp.number, p, ?_, found, ?_⟩
    · rw [received.writer, update_self]
    · rw [token, namespaces]
      exact opened.mono kept

theorem Sound.step {action : Action} (sound : d.Sound)
    (step : Duo.step advertise authenticate d action = some d') : d'.Sound := by
  cases action with
  | send sender namespaces token =>
    cases step
    exact ⟨sound.distinct, sound.auth, sound.nodup, forall_mem_concat sound.requested rfl,
      sound.responded, sound.slots⟩
  | handle index secret now =>
    obtain ⟨req, handled⟩ := step_handle step
    exact handled.sound sound
  | receive index now =>
    obtain ⟨resp, received⟩ := step_receive step
    exact received.sound sound

/-! ### When the sessions agree -/

theorem Opened.unique {token' : Option String} {names names' : List String}
    (opened : d.Opened n token names) (opened' : d.Opened n token' names') :
    token = token' ∧ names = names' := by
  obtain ⟨secret, accepted, at_n, rfl, rfl⟩ := opened
  obtain ⟨secret', accepted', at_n', rfl, rfl⟩ := opened'
  rw [at_n] at at_n'
  cases at_n'
  exact ⟨rfl, rfl⟩

variable (sound : d.Sound)

include sound

theorem Sound.number_unique {m : Nat} {names names' : List String} (opened : d.Opened n token names)
    (opened' : d.Opened m token names') : n = m := by
  obtain ⟨secret, accepted, at_n, rfl, -⟩ := opened
  obtain ⟨secret', accepted', at_m, same, -⟩ := opened'
  cases same
  obtain ⟨below, -⟩ := List.getElem?_eq_some_iff.mp at_n
  have at_n : (d.opened.map Prod.fst)[n]? = some secret := by rw [List.getElem?_map, at_n]; rfl
  have at_m : (d.opened.map Prod.fst)[m]? = some secret := by rw [List.getElem?_map, at_m]; rfl
  have below : n < (d.opened.map Prod.fst).length := by rwa [List.length_map]
  exact (List.getElem?_inj below sound.nodup).mp (at_n.trans at_m.symm)

theorem Sound.agreed_iff (settled : d.Settled) : d.Agreed ↔
    ∀ n m, d.writer .left = some n → d.writer .right = some m → n = m := by
  constructor
  · intro agreed n m written written'
    rcases sound.slots .left with ⟨unwritten, -⟩ | ⟨n', p, wrote, found, opened⟩
    · rw [unwritten] at written
      cases written
    rcases sound.slots .right with ⟨unwritten, -⟩ | ⟨m', q, wrote', found', opened'⟩
    · rw [unwritten] at written'
      cases written'
    rw [written] at wrote
    rw [written'] at wrote'
    cases wrote
    cases wrote'
    obtain ⟨token, -⟩ := agreed settled p q found found'
    rw [token] at opened
    exact sound.number_unique opened opened'
  · intro same settled p q found found'
    rcases sound.slots .left with ⟨-, empty⟩ | ⟨n, p', wrote, found_p, opened⟩
    · rw [empty] at found
      cases found
    rcases sound.slots .right with ⟨-, empty⟩ | ⟨m, q', wrote', found_q, opened'⟩
    · rw [empty] at found'
      cases found'
    rw [found] at found_p
    rw [found'] at found_q
    cases found_p
    cases found_q
    cases same n m wrote wrote'
    obtain ⟨token, namespaces⟩ := opened.unique opened'
    obtain ⟨secret, -, -, own, -⟩ := opened
    refine ⟨token, namespaces, ?_, ?_⟩
    · exact (ClusterStore.isAuthed_iff (sound.auth .right)).mpr
        ⟨q, secret, found', token.symm.trans own, own⟩
    · exact (ClusterStore.isAuthed_iff (sound.auth .left)).mpr
        ⟨p, secret, found, own, token.symm.trans own⟩

theorem Sound.agreed_iff_writers (settled : d.Settled) {m : Nat}
    (here : d.writer side = some n) (there : d.writer side.other = some m) : d.Agreed ↔ n = m := by
  rw [sound.agreed_iff settled]
  cases side with
  | left =>
    constructor
    · exact fun same => same n m here there
    · rintro rfl a b written written'
      exact Option.some.inj ((written.symm.trans here).trans (there.symm.trans written'))
  | right =>
    constructor
    · exact fun same => (same m n there here).symm
    · rintro rfl a b written written'
      exact Option.some.inj ((written.symm.trans there).trans (here.symm.trans written'))

/-- A section leaves the sessions agreed exactly if it is straight. -/
theorem agreed_iff_straight {action : Action}
    (step : Duo.step advertise authenticate d action = some d') : d'.Agreed ↔ d.Straight action := by
  cases action with
  | send sender namespaces token =>
    cases step
    refine iff_of_true (fun settled => ?_) trivial
    exact absurd settled.1 (by simp)
  | handle index secret now =>
    obtain ⟨req, handled⟩ := step_handle step
    refine iff_of_true (fun settled => ?_) trivial
    have answered := settled.2
    rw [handled.responses] at answered
    exact absurd answered (by simp)
  | receive index now =>
    have sound' := sound.step step
    obtain ⟨resp, received⟩ := step_receive step
    by_cases last : d.requests = [] ∧ d.responses.eraseIdx index = []
    · have settled : d'.Settled :=
        ⟨received.requests.trans last.1, received.responses.trans last.2⟩
      have straight : d.Straight (.receive index now) ↔
          d.writer resp.receiver.other = some resp.number := by
        constructor
        · exact fun straight => straight resp received.found last.1 last.2
        · intro written other found _ _
          rw [received.found] at found
          cases found
          exact written
      obtain ⟨-, -, written⟩ := sound.responded resp (List.mem_of_getElem? received.found)
      obtain ⟨m, written⟩ := Option.isSome_iff_exists.mp written
      have here : d'.writer resp.receiver = some resp.number := by
        rw [received.writer, update_self]
      have there : d'.writer resp.receiver.other = some m := by
        rw [received.writer, update_of_ne (Side.other_ne _), written]
      rw [sound'.agreed_iff_writers settled here there, straight, written, Option.some.injEq]
      exact eq_comm
    · refine iff_of_true (fun settled => ?_) ?_
      · have left := settled.2
        rw [received.responses] at left
        exact absurd ⟨received.requests.symm.trans settled.1, left⟩ last
      · intro other _ unrequested unanswered
        exact absurd ⟨unrequested, unanswered⟩ last

omit sound

variable (advertise authenticate) in
/-- The sessions agree when nothing is in flight, if the last response met its own open's slot. -/
theorem sessions_agree (fresh : d.Fresh) {actions : List Action}
    (run : Run (Under Straight (Steps (Duo.step advertise authenticate))) d actions d') :
    d'.Agreed := by
  have start : d.Sound ∧ d.Agreed := by
    refine ⟨fresh.sound, fun _ p q found _ => ?_⟩
    rw [fresh.sessions] at found
    cases found
  have kept : ∀ s action t, s.Sound ∧ s.Agreed → s.Straight action →
      Steps (Duo.step advertise authenticate) s action t → t.Sound ∧ t.Agreed := by
    rintro s action t ⟨sound, -⟩ straight step
    exact ⟨sound.step step, (agreed_iff_straight sound step).mpr straight⟩
  exact (run.invariant_under kept start).2

/-- Whatever crosses, a session is of one open that was handled, and the token tells which. -/
theorem session_of_open (advertise : Side → String) (authenticate : Side → String → Option AuthContext)
    {d d' : Duo} (fresh : d.Fresh) {actions : List Action}
    (run : Run (Steps (Duo.step advertise authenticate)) d actions d') :
    (∀ side p, d'.session side = some p → ∃ open_ ∈ d'.opened,
      p.token = some open_.1 ∧ p.namespaces = nameSet open_.2) ∧
    ∀ side side' p q, d'.session side = some p → d'.session side' = some q →
      p.token = q.token → p.namespaces = q.namespaces := by
  have sound : d'.Sound := run.invariant (fun _ _ _ sound step => sound.step step) fresh.sound
  have opened : ∀ side p, d'.session side = some p → ∃ open_ ∈ d'.opened,
      p.token = some open_.1 ∧ p.namespaces = nameSet open_.2 := by
    intro side p found
    rcases sound.slots side with ⟨-, none_⟩ | ⟨n, p', -, found', secret, accepted, at_n, carried⟩
    · cases none_.symm.trans found
    · cases found'.symm.trans found
      exact ⟨_, List.mem_of_getElem? at_n, carried⟩
  refine ⟨opened, fun side side' p q found found' same => ?_⟩
  obtain ⟨first, mem, token, names⟩ := opened side p found
  obtain ⟨second, mem', token', names'⟩ := opened side' q found'
  have secrets : first.1 = second.1 := Option.some.inj (token.symm.trans (same.trans token'))
  rw [names, names', List.inj_on_of_nodup_map sound.nodup mem mem' secrets]

end Duo

/-! ### Opens that cross -/

namespace Crossed

def blank (nodeId : String) : ClusterStore where
  state := .new nodeId
  foreign := .empty
  sessions := .empty
  evictedUntil := .empty
  registry := none
  merkleBuckets := 256
  authEnabled := true
  keyed := foreign_empty_keyed
  notOwn := foreign_empty_notOwn nodeId

def nodes : Duo where
  store
    | .left => blank "A"
    | .right => blank "B"
  requests := []
  responses := []
  opened := []
  writer _ := none

def address : Side → String
  | .left => "A"
  | .right => "B"

theorem fresh : nodes.Fresh where
  distinct := by decide
  auth side := by cases side <;> rfl
  sessions side := by cases side <;> rfl
  settled := ⟨rfl, rfl⟩
  opened := rfl
  writer _ := rfl

/-- Both sides open, both requests are handled, then both responses arrive. -/
def crossed : List Duo.Action :=
  [.send .left none none, .send .right none none, .handle 0 "s" 0, .handle 0 "t" 0,
    .receive 0 0, .receive 0 0]

def run (actions : List Duo.Action) : Option Duo :=
  actions.foldlM (Duo.step address fun _ _ => none) nodes

def tokens (d : Duo) : Option (Option String) × Option (Option String) :=
  ((d.session .left).map Peer.token, (d.session .right).map Peer.token)

/-- Each node ends up with the token of the open that it sent. -/
theorem crossed_opens_disagree : ∃ d,
    Run (Steps (Duo.step address fun _ _ => none)) nodes crossed d ∧ d.Settled ∧ ¬d.Agreed := by
  have ends : (run crossed).isSome := by decide
  obtain ⟨d, ended⟩ := Option.isSome_iff_exists.mp ends
  have quiet : (run crossed).map (fun d => (d.requests.isEmpty, d.responses.isEmpty)) =
      some (true, true) := by decide
  have left : (run crossed).map tokens = some (some (some "s"), some (some "t")) := by decide
  rw [ended] at quiet left
  simp only [Option.map_some, Option.some.injEq, Prod.mk.injEq, List.isEmpty_iff, tokens] at quiet left
  refine ⟨d, run_of_foldlM ended, quiet, fun agreed => ?_⟩
  obtain ⟨p, found, token⟩ := Option.map_eq_some_iff.mp left.1
  obtain ⟨q, found', token'⟩ := Option.map_eq_some_iff.mp left.2
  obtain ⟨same, -⟩ := agreed quiet p q found found'
  rw [token, token'] at same
  exact absurd same (by decide)

/-- One open after the other. -/
def ordered : List Duo.Action :=
  [.send .left none none, .handle 0 "s" 0, .receive 0 0, .send .right none none, .handle 0 "t" 0,
    .receive 0 0]

instance (d : Duo) : ∀ action, Decidable (d.Straight action)
  | .send .. => isTrue trivial
  | .handle .. => isTrue trivial
  | .receive index _ =>
    match found : d.responses[index]? with
    | none => isTrue fun resp at_index => by
      rw [found] at at_index
      cases at_index
    | some resp =>
      decidable_of_iff (d.requests.isEmpty = true → (d.responses.eraseIdx index).isEmpty = true →
        d.writer resp.receiver.other = some resp.number) <| by
          simp only [List.isEmpty_iff]
          constructor
          · intro straight other at_index
            rw [found] at at_index
            cases at_index
            exact straight
          · exact fun straight => straight resp found

def straightRun (actions : List Duo.Action) : Option Duo :=
  actions.foldlM (fun (d : Duo) action =>
    if d.Straight action then d.step address (fun _ _ => none) action else none) nodes

theorem ordered_opens_agree : ∃ d,
    tokens d = (some (some "t"), some (some "t")) ∧ d.Settled ∧ d.Agreed := by
  have ends : (straightRun ordered).isSome := by decide
  obtain ⟨d, ended⟩ := Option.isSome_iff_exists.mp ends
  have quiet : (straightRun ordered).map (fun d => (d.requests.isEmpty, d.responses.isEmpty)) =
      some (true, true) := by decide
  have left : (straightRun ordered).map tokens = some (some (some "t"), some (some "t")) := by
    decide
  rw [ended] at quiet left
  simp only [Option.map_some, Option.some.injEq, Prod.mk.injEq, List.isEmpty_iff] at quiet left
  exact ⟨d, left, quiet, Duo.sessions_agree address (fun _ _ => none) fresh
    (run_under_of_foldlM ended)⟩

/-- The tokens of crossed opens. -/
theorem crossed_sessions_opened : ∃ d, Run (Steps (Duo.step address fun _ _ => none)) nodes crossed d ∧
    ∀ side p, d.session side = some p → ∃ open_ ∈ d.opened,
      p.token = some open_.1 ∧ p.namespaces = nameSet open_.2 := by
  have ends : (run crossed).isSome := by decide
  obtain ⟨d, ended⟩ := Option.isSome_iff_exists.mp ends
  exact ⟨d, run_of_foldlM ended, (Duo.session_of_open _ _ fresh (run_of_foldlM ended)).1⟩

end Crossed

end AgentProtocols.Cluster
