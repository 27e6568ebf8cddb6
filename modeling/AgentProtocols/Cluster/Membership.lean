import AgentProtocols.Cluster.Envelope

/-!
The membership control plane. Each node holds a roster of membership records and merges incoming
ones by version. `Member` is one node, with the sections of the code between two awaits; `Network`
is any number of nodes with the messages in flight, which arrive in any order or are lost.
-/

namespace AgentProtocols.Cluster

open Lib

structure MembershipRecord where
  nodeId : String
  clusterId : Option String
  address : String
  version : Version
  removed : Bool

/-- The membership plane of one node, with the clock of its versions. -/
structure Member where
  nodeId : String
  advertise : String
  versionClock : Int
  roster : OrderedMap String MembershipRecord
  filed : ∀ id r, roster.get? id = some r → r.nodeId = id

theorem empty_filed :
    ∀ id r, (.empty : OrderedMap String MembershipRecord).get? id = some r → r.nodeId = id :=
  OrderedMap.forall_get?_empty

/-- The calls between nodes and their answers, and a push still to be made. -/
inductive Message where
  | setSync (address : String) (records : List MembershipRecord)
  | join (caller address : String) (clusterId : Option String) (roster : List MembershipRecord)
  | joined (caller address : String) (clusterId : Option String) (nodeId : String)
      (version : Version)
  | evict (address : String)
  | evictSelf (address fromNode : String)
  | setDigest (caller address : String)
  | digest (caller address : String) (versions : List (String × Version))
  | setPull (caller address : String) (want : List String)
  | pulled (caller : String) (records : List MembershipRecord)
  | pushing (caller : String) (records : List MembershipRecord)

namespace Member

variable (m : Member)

/-! ### Roster and versions -/

def own : Option MembershipRecord := m.roster.get? m.nodeId

def clusterId : Option String := m.own.bind MembershipRecord.clusterId

/-- File a record, whatever was there. -/
def put (r : MembershipRecord) : Member :=
  { m with
    roster := m.roster.insert r.nodeId r
    filed := by
      intro id r' found
      rw [OrderedMap.get?_insert] at found
      split at found
      · rename_i here
        cases found
        exact here.symm
      · exact m.filed id r' found }

/-- Keep the records that meet the condition. -/
def keep (p : String → MembershipRecord → Bool) : Member :=
  { m with
    roster := m.roster.retain p
    filed := by
      intro id r found
      rw [OrderedMap.get?_retain, Option.filter_eq_some_iff] at found
      exact m.filed id r found.1 }

/-- `next_version_after`: a fresh version above the floor. -/
def nextVersionAfter (now floor : Int) : Version × Member :=
  let ts := max (max now (m.versionClock + 1)) (floor + 1)
  (⟨ts, m.nodeId⟩, { m with versionClock := ts })

def nextVersion (now : Int) : Version × Member :=
  let ts := max now (m.versionClock + 1)
  (⟨ts, m.nodeId⟩, { m with versionClock := ts })

/-- `my_record`: created standalone on first access. -/
def myRecord (now : Int) : MembershipRecord × Member :=
  match m.own with
  | some own => (own, m)
  | none =>
    let (version, m) := m.nextVersion now
    let own := ⟨m.nodeId, none, m.advertise, version, false⟩
    (own, m.put own)

/-- `become_standalone`: the whole roster is forgotten. -/
def becomeStandalone : Member :=
  { m with
    roster := .empty
    filed := empty_filed }

/-! ### Merging -/

/-- The loop of `merge`; a newer tombstone of the node itself is only noted. -/
def mergeLoop : Member → List MembershipRecord → Member × Bool
  | m, [] => (m, false)
  | m, r :: rs =>
    if !versionNewer r.version ((m.roster.get? r.nodeId).map MembershipRecord.version) then
      mergeLoop m rs
    else if r.nodeId = m.nodeId then
      let (m', evicted) := mergeLoop m rs
      (m', r.removed || evicted)
    else mergeLoop (m.put r) rs

def merge (records : List MembershipRecord) : Member :=
  let (m', evicted) := mergeLoop m records
  if evicted then m'.becomeStandalone else m'

def versionMap : List (String × Version) := m.roster.entries.map fun e => (e.1, e.2.version)

def recordsFor (ids : List String) : List MembershipRecord := ids.filterMap m.roster.get?

/-- What `reconcile_with` pulls. -/
def want (remote : List (String × Version)) : List String :=
  (remote.filter fun e =>
    versionNewer e.2 ((m.roster.get? e.1).map MembershipRecord.version)).map Prod.fst

/-! ### Pushes -/

/-- `push_to_roster`: the records go to every live member of the own cluster. -/
def pushToRoster (records : List MembershipRecord) : List Message :=
  (m.roster.values.filter fun r => r.nodeId != m.nodeId && !r.removed &&
    r.clusterId == m.clusterId && !r.address.isEmpty).map fun r => .setSync r.address records

/-! ### The control plane -/

/-- The begin of `set_add`: every address gets the live part of the roster. -/
def setAdd (addresses : List String) (fresh : String) (now : Int) : Member × List Message :=
  let m := if m.clusterId.isSome then m
    else
      let (version, m) := m.nextVersion now
      m.put ⟨m.nodeId, some fresh, m.advertise, version, false⟩
  let snapshot := m.roster.values.filter fun r => !r.removed
  (m, (addresses.filter fun a => !a.isEmpty).map fun a =>
    .join m.nodeId a m.clusterId snapshot)

/-- The answer to a join is recorded, without a look at what is there. -/
def recordJoined (address : String) (clusterId : Option String) (nodeId : String)
    (version : Version) : Member := m.put ⟨nodeId, clusterId, address, version, false⟩

/-- Where the eviction notice of a removal goes. -/
def evictAddress (nodeId address : String) : String :=
  ((m.roster.get? nodeId).map MembershipRecord.address).getD address

/-- `set_remove`: a tombstone above the record, a notice, and a push later. -/
def setRemove (nodeId address : String) (now : Int) : Member × List Message :=
  if nodeId.isEmpty then (m, [])
  else
    let address := m.evictAddress nodeId address
    let floor := ((m.roster.get? nodeId).map fun r => r.version.ms).getD 0
    let (version, m') := m.nextVersionAfter now floor
    let grave := ⟨nodeId, m.clusterId, address, version, true⟩
    (m'.put grave, [.evict address, .pushing m.nodeId [grave]])

/-- `leave_old`: tell the old members, and drop the old cluster's records. -/
def leaveOld (old : String) : Member × List Message :=
  (m.keep fun id r => id == m.nodeId || r.clusterId != some old,
    (m.roster.values.filter fun r => r.nodeId != m.nodeId && r.clusterId == some old &&
      !r.removed).map fun r => .evictSelf r.address m.nodeId)

/-- `leave_old` where the node is in another cluster. -/
def leaveFor (clusterId : String) : Member × List Message :=
  match m.clusterId with
  | some old => if old = clusterId then (m, []) else m.leaveOld old
  | none => (m, [])

/-- The own record that `adopt` files, with a fresh version. -/
def enter (clusterId : String) (now : Int) : Version × Member :=
  let (version, m) := m.nextVersion now
  (version, m.put ⟨m.nodeId, some clusterId, m.advertise, version, false⟩)

/-- `adopt`: leave the old cluster, enter the new one, learn its roster, announce the
own record. -/
def adopt (clusterId : String) (roster : List MembershipRecord) (wall : Nat → Int) :
    Version × Member × List Message :=
  let (m, leaves) := m.leaveFor clusterId
  let (version, m) := m.enter clusterId (wall 0)
  let (own, m) := (m.merge roster).myRecord (wall 1)
  (version, m, leaves ++ m.pushToRoster [own])

/-- `handle_evict_self`: a peer leaves; a tombstone is filed and pushed. -/
def handleEvictSelf (fromNode : String) (now : Int) : Member × List Message :=
  if fromNode.isEmpty then (m, [])
  else
    let cur := m.roster.get? fromNode
    let (version, m') := m.nextVersionAfter now ((cur.map fun r => r.version.ms).getD 0)
    let clusterId := match cur with
      | some r => r.clusterId
      | none => m.clusterId
    let grave := ⟨fromNode, clusterId, (cur.map MembershipRecord.address).getD "", version, true⟩
    let m' := m'.put grave
    (m', m'.pushToRoster [grave])

def gcMembership (now retentionMs : Int) : Member :=
  m.keep fun _ r => !(r.removed && decide (retentionMs < now - r.version.ms))

def receive (wall : Nat → Int) : Message → Member × List Message
  | .setSync _ records => (m.merge records, [])
  | .join caller address clusterId roster =>
    match clusterId with
    | none => (m, [])
    | some c =>
      if c.isEmpty then (m, [])
      else
        let (version, m', out) := m.adopt c roster wall
        (m', out ++ [.joined caller address (some c) m.nodeId version])
  | .joined _ address clusterId nodeId version =>
    (m.recordJoined address clusterId nodeId version, [])
  | .evict _ => (m.becomeStandalone, [])
  | .evictSelf _ fromNode => m.handleEvictSelf fromNode (wall 0)
  | .setDigest caller address => (m, [.digest caller address m.versionMap])
  | .digest caller address versions =>
    (m, if m.want versions = [] then [] else [.setPull caller address (m.want versions)])
  | .setPull caller _ ids => (m, [.pulled caller (m.recordsFor ids)])
  | .pulled _ records => (m.merge records, [])
  | .pushing _ records => (m, m.pushToRoster records)

/-! ### No section changes the node -/

variable {m}

theorem mergeLoop_nodeId : ∀ (rs : List MembershipRecord) (m : Member),
    (mergeLoop m rs).1.nodeId = m.nodeId
  | [], _ => rfl
  | r :: rs, m => by
    rw [mergeLoop]
    split
    · exact mergeLoop_nodeId rs m
    · split
      · exact mergeLoop_nodeId rs m
      · exact mergeLoop_nodeId rs (m.put r)

@[simp] theorem merge_nodeId (records : List MembershipRecord) :
    (m.merge records).nodeId = m.nodeId := by
  simp only [merge]
  split
  · exact mergeLoop_nodeId records m
  · exact mergeLoop_nodeId records m

@[simp] theorem myRecord_nodeId (now : Int) : (m.myRecord now).2.nodeId = m.nodeId := by
  rw [myRecord]
  split <;> rfl

theorem setAdd_nodeId (addresses : List String) (fresh : String) (now : Int) :
    (m.setAdd addresses fresh now).1.nodeId = m.nodeId := by
  rw [setAdd]
  split <;> rfl

theorem setRemove_nodeId (nodeId address : String) (now : Int) :
    (m.setRemove nodeId address now).1.nodeId = m.nodeId := by
  rw [setRemove]
  split <;> rfl

@[simp] theorem leaveFor_nodeId (clusterId : String) :
    (m.leaveFor clusterId).1.nodeId = m.nodeId := by
  rw [leaveFor]
  split
  · split <;> rfl
  · rfl

theorem adopt_nodeId (clusterId : String) (roster : List MembershipRecord) (wall : Nat → Int) :
    (m.adopt clusterId roster wall).2.1.nodeId = m.nodeId := by
  simp only [adopt, myRecord_nodeId, merge_nodeId]
  exact leaveFor_nodeId clusterId

theorem handleEvictSelf_nodeId (fromNode : String) (now : Int) :
    (m.handleEvictSelf fromNode now).1.nodeId = m.nodeId := by
  rw [handleEvictSelf]
  split <;> rfl

theorem receive_nodeId (wall : Nat → Int) (msg : Message) :
    (m.receive wall msg).1.nodeId = m.nodeId := by
  cases msg with
  | setSync address records => exact merge_nodeId records
  | pulled caller records => exact merge_nodeId records
  | join caller address clusterId roster =>
    cases clusterId with
    | none => rfl
    | some c =>
      simp only [receive]
      split
      · rfl
      · exact adopt_nodeId c roster wall
  | evictSelf address fromNode => exact handleEvictSelf_nodeId fromNode (wall 0)
  | _ => rfl

theorem own_put (r : MembershipRecord) :
    (m.put r).own = if m.nodeId = r.nodeId then some r else m.own :=
  OrderedMap.get?_insert

theorem own_mergeLoop : ∀ (rs : List MembershipRecord) (m : Member),
    (mergeLoop m rs).1.own = m.own ∧ (mergeLoop m rs).1.versionClock = m.versionClock
  | [], _ => ⟨rfl, rfl⟩
  | r :: rs, m => by
    rw [mergeLoop]
    split
    · exact own_mergeLoop rs m
    · split
      · exact own_mergeLoop rs m
      · rename_i other
        obtain ⟨own, clock⟩ := own_mergeLoop rs (m.put r)
        rw [own_put, if_neg (Ne.symm other)] at own
        exact ⟨own, clock⟩

end Member

/-! ### The network -/

/-- Any number of nodes, each under its id, and the messages in flight. -/
structure Network where
  node : String → Member
  inFlight : List Message
  named : ∀ id, (node id).nodeId = id

/-- What happens next. -/
inductive MembershipEvent where
  | setAdd (id : String) (addresses : List String) (fresh : String) (now : Int)
  | setRemove (id nodeId address : String) (now : Int)
  /-- The push of the whole roster at the end of a `set_add`. -/
  | pushFull (id : String)
  | reconcileWith (id address : String)
  | gc (id : String) (now retentionMs : Int)
  | deliver (index : Nat) (wall : Nat → Int)
  | lose (index : Nat)

/-- The node that a message is for; `host` is the node behind an address. -/
def Message.receiver (host : String → String) : Message → String
  | setSync address _ | join _ address _ _ | evict address | evictSelf address _
  | setDigest _ address | setPull _ address _ => host address
  | joined caller .. | digest caller .. | pulled caller _ | pushing caller _ => caller

namespace Network

variable (host : String → String) (s : Network)

/-- One node takes a new state and sends messages. -/
def update (id : String) (next : Member × List Message)
    (same : next.1.nodeId = (s.node id).nodeId) (inFlight : List Message) : Network where
  node := Function.update s.node id next.1
  inFlight := inFlight ++ next.2
  named := by
    intro other
    by_cases here : other = id
    · subst here
      rw [Function.update_self, same]
      exact s.named other
    · rw [Function.update_of_ne here]
      exact s.named other

def step : MembershipEvent → Option Network
  | .setAdd id addresses fresh now =>
    some (s.update id ((s.node id).setAdd addresses fresh now)
      (Member.setAdd_nodeId addresses fresh now) s.inFlight)
  | .setRemove id nodeId address now =>
    some (s.update id ((s.node id).setRemove nodeId address now)
      (Member.setRemove_nodeId nodeId address now) s.inFlight)
  | .pushFull id =>
    some (s.update id (s.node id, (s.node id).pushToRoster (s.node id).roster.values) rfl
      s.inFlight)
  | .reconcileWith id address =>
    some (s.update id (s.node id,
      if (s.node id).clusterId.isSome then [.setDigest id address] else []) rfl s.inFlight)
  | .gc id now retentionMs =>
    some (s.update id ((s.node id).gcMembership now retentionMs, []) rfl s.inFlight)
  | .deliver index wall =>
    match s.inFlight[index]? with
    | none => none
    | some msg =>
      let id := msg.receiver host
      some (s.update id ((s.node id).receive wall msg) (Member.receive_nodeId wall msg)
        (s.inFlight.eraseIdx index))
  | .lose index => some { s with inFlight := s.inFlight.eraseIdx index }

/-- Nobody knows anybody, and nothing is in flight. -/
structure Blank (s : Network) : Prop where
  roster : ∀ id, (s.node id).roster = .empty
  inFlight : s.inFlight = []

end Network

end AgentProtocols.Cluster
