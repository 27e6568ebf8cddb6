import AgentProtocols.Cluster.Merkle
import AgentProtocols.Cluster.Store

/-!
The handlers that serve a peer, and reconciliation with a peer. The order in which rows are pulled
and pushed is a parameter, `HashOrder`.
-/

namespace AgentProtocols.Cluster

open Lib Merkle

/-- An order of iteration over an index. -/
structure HashOrder where
  entries : OrderedMap Key Version → List (Key × Version)
  perm : ∀ index, (entries index).Perm index.entries

/-- Answer to a push of envelopes. -/
structure UpdatesResponse where
  accepted : Nat
  received : Nat
  rejected : Nat

/-- Outcome of one `reconcile`. -/
structure ReconcileResult where
  pulled : Nat
  pushed : Nat
deriving DecidableEq

namespace ClusterStore

variable (H : Sha256) (s : ClusterStore)

/-! ### Handlers -/

/-- `touch_peer`: refresh the HOLD timer of a peer we just heard from. -/
def touchPeer (nodeId : String) (now : Int) : ClusterStore :=
  match s.sessions.get? nodeId with
  | none => s
  | some p => { s with sessions := s.sessions.insert nodeId { p with lastSeen := now } }

def publicNamespaces : List String :=
  match s.registry with
  | none => []
  | some reg => reg.listDatasets.filter fun ds => !s.authEnabled || !reg.isAuthRequired ds

/-- `is_authed`: always in an open cluster, else by the session's token. -/
def isAuthed (fromNode : String) (token : Option String) : Bool :=
  if !s.authEnabled then true
  else
    match s.sessions.get? fromNode with
    | none => false
    | some session =>
      match session.token, token with
      | some t, some given => t == given
      | _, _ => false

/-- `allowed_for`: the namespaces of the session, else the public ones. -/
def allowedFor (fromNode : String) (requested : Option (List String)) (token : Option String) :
    List String :=
  let base :=
    match s.isAuthed fromNode token, s.sessions.get? fromNode with
    | true, some session => session.namespaces
    | _, _ => s.publicNamespaces
  match requested with
  | none => base
  | some req => if req.isEmpty then base else base.filter req.contains

/-- The index that a peer may see. -/
def visibleIndex (allowed : List String) : OrderedMap Key Version :=
  (s.fullIndex (some allowed)).retain fun k _ => allowed.contains k.dataset

def serveMerkle (clocks : Clocks) (fromNode : String) (namespaces : Option (List String))
    (token : Option String) : OrderedMap String String × ClusterStore :=
  let s := s.touchPeer fromNode (clocks.monotonic 0)
  let allowed := s.allowedFor fromNode namespaces token
  let s := s.ensureLocalVersions clocks.wall
  (bucketHashes H (s.visibleIndex allowed) s.merkleBuckets, s)

/-- `serve_digest`: sorted rows, of the given buckets only. -/
def serveDigest (clocks : Clocks) (fromNode : String) (namespaces : Option (List String))
    (token : Option String) (buckets : Option (List Nat)) : List (Key × Version) × ClusterStore :=
  let s := s.touchPeer fromNode (clocks.monotonic 1)
  let allowed := s.allowedFor fromNode namespaces token
  let s := s.ensureLocalVersions clocks.wall
  let rows := (s.visibleIndex allowed).entries.filter fun e =>
    buckets.all fun b => b.contains (bucketOf H e.1 s.merkleBuckets)
  (rows.mergeSort entryLe, s)

def servePull (clocks : Clocks) (fromNode : String) (keys : List Key) (token : Option String) :
    List SyncEnvelope × ClusterStore :=
  let s := s.touchPeer fromNode (clocks.monotonic 2)
  let allowed := s.allowedFor fromNode none token
  ((keys.filter fun k => allowed.contains k.dataset).filterMap s.buildEnvelopeForKey, s)

/-- `may_accept`: inbound authorization for a record's namespace. -/
def mayAccept (fromNode dataset : String) (token : Option String) : Bool :=
  if !s.authEnabled then true
  else if s.isAuthed fromNode token &&
      (s.sessions.get? fromNode).any (fun session => session.namespaces.contains dataset) then true
  else
    match s.registry with
    | none => false
    | some reg => reg.listDatasets.contains dataset && !reg.isAuthRequired dataset

/-- The loop of `serve_updates`: accepted and rejected envelopes. -/
def serveEnvelopes (now : Int) (fromNode : String) (token : Option String) :
    ClusterStore → List SyncEnvelope → ClusterStore × Nat × Nat
  | s, [] => (s, 0, 0)
  | s, env :: envs =>
    if !s.mayAccept fromNode env.dataset token then
      let (s', accepted, rejected) := serveEnvelopes now fromNode token s envs
      (s', accepted, rejected + 1)
    else
      let (s', stored) := s.applyInbound now env
      let (s'', accepted, rejected) := serveEnvelopes now fromNode token s' envs
      (s'', (if stored then 1 else 0) + accepted, rejected)

def serveUpdates (clocks : Clocks) (fromNode : String) (envelopes : List SyncEnvelope)
    (token : Option String) : UpdatesResponse × ClusterStore :=
  let s := s.touchPeer fromNode (clocks.monotonic 3)
  let (s, accepted, rejected) := serveEnvelopes (clocks.monotonic 3) fromNode token s envelopes
  (⟨accepted, envelopes.length, rejected⟩, s)

/-! ### Reconciliation -/

variable (order : HashOrder)

def newerRows (index known : OrderedMap Key Version) : List Key :=
  ((order.entries index).filter fun e => versionNewer e.2 (known.get? e.1)).map Prod.fst

/-- The pull of `reconcile`: nothing is asked for where nothing is newer. -/
def pullFrom (peer : Peer) (clocks clocks' : Clocks) (toPull : List Key) (s t : ClusterStore) :
    Nat × ClusterStore × ClusterStore :=
  if toPull = [] then (0, s, t)
  else
    let (envs, t) := t.servePull clocks' s.nodeId toPull peer.token
    let (s, pulled) := applyAll (clocks.monotonic 0) s envs
    (pulled, s, t)

/-- The push of `reconcile`. -/
def pushTo (peer : Peer) (clocks' : Clocks) (toPush : List Key) (s t : ClusterStore) :
    Nat × ClusterStore :=
  let envs := toPush.filterMap s.buildEnvelopeForKey
  if envs = [] then (0, t)
  else
    let (response, t) := t.serveUpdates clocks' s.nodeId envs peer.token
    (response.accepted, t)

/-- `reconcile` of `s` with the peer whose store is `t`. The clocks are those of the
two nodes. -/
def reconcile (peer : Peer) (clocks clocks' : Clocks) (s t : ClusterStore) :
    ReconcileResult × ClusterStore × ClusterStore :=
  let ns := peer.namespaces
  let s := s.ensureLocalVersions clocks.wall
  let localIndex := s.fullIndex (some ns)
  let localBuckets := bucketHashes H localIndex s.merkleBuckets
  let (remoteBuckets, t) := t.serveMerkle H clocks' s.nodeId (some ns) peer.token
  let diff := differingBuckets localBuckets remoteBuckets
  if diff = [] then (⟨0, 0⟩, s, t)
  else
    let (remoteRows, t) := t.serveDigest H clocks' s.nodeId (some ns) peer.token (some diff)
    let remoteIndex := OrderedMap.empty.insertAll remoteRows
    let localSub := localIndex.retain fun k _ => diff.contains (bucketOf H k s.merkleBuckets)
    let toPush := newerRows order localSub remoteIndex
    let (pulled, s, t) := pullFrom peer clocks clocks' (newerRows order remoteIndex localSub) s t
    let (pushed, t) := pushTo peer clocks' toPush s t
    (⟨pulled, pushed⟩, s, t)

end ClusterStore

end AgentProtocols.Cluster
