import AgentProtocols.Cluster.Envelope

/-!
The cluster store of one node: its state, the overlay of foreign records, the sessions and the
suppressed origins. `fullIndex` is the version index that anti-entropy compares;
`built_of_fullIndex`, `fullIndex_foreign` and `fullIndex_own` say where its versions come from.
-/

namespace AgentProtocols.Cluster

open Lib OrderedMap

/-- One local record as the cluster module needs it. -/
structure LocalEntry where
  serviceId : String
  source : String
  entry : Json
  wrapped : Option Json

def LocalEntry.isEphemeral (e : LocalEntry) : Bool := e.source == "ephemeral"

/-- Read-only view of the local registry. An entry that is listed can be got. -/
structure LocalRegistryView where
  listDatasets : List String
  listEntries : String → List LocalEntry
  getEntry : String → String → Option LocalEntry
  isAuthRequired : String → Bool
  listed : ∀ dataset, ∀ e ∈ listEntries dataset, ∃ found,
    getEntry dataset e.serviceId = some found

/-- An established sync session with another node. -/
structure Peer where
  nodeId : String
  address : String
  /-- The namespaces both sides agreed to sync, sorted. -/
  namespaces : List String
  /-- Monotonic time of the last inbound contact. -/
  lastSeen : Int
  token : Option String

structure ClusterStore where
  state : ClusterState
  /-- Foreign records, live or tombstones. -/
  foreign : OrderedMap Key SyncEnvelope
  sessions : OrderedMap String Peer
  /-- Origin to the monotonic time until which its records are suppressed. -/
  evictedUntil : OrderedMap String Int
  registry : Option LocalRegistryView
  merkleBuckets : Nat
  authEnabled : Bool
  keyed : ∀ k e, foreign.get? k = some e → e.key = k
  notOwn : ∀ k e, foreign.get? k = some e → k.originId ≠ state.nodeId

theorem foreign_empty_keyed :
    ∀ k e, (.empty : OrderedMap Key SyncEnvelope).get? k = some e → e.key = k :=
  forall_get?_empty

theorem foreign_empty_notOwn (nodeId : String) :
    ∀ k e, (.empty : OrderedMap Key SyncEnvelope).get? k = some e → k.originId ≠ nodeId :=
  forall_get?_empty

/-- The readings of a node's clocks during a call. -/
structure Clocks where
  wall : Nat → Int
  monotonic : Nat → Int

/-! ### Versions of local records -/

namespace ClusterState

def isVersioned (st : ClusterState) (k : String) : Bool :=
  (st.localVersions.get? k).isSome || (st.tombstones.get? k).isSome

/-- Give the record a version if it has none. -/
def ensureVersion (st : ClusterState) (record : String × String) (nowMs : Int) : ClusterState :=
  let k := makeKey record.1 record.2
  if st.isVersioned k then st
  else st.setVersion (st.nextTs nowMs) k ⟨st.nextTs nowMs, st.nodeId⟩

/-- `ensureVersion` for each record in order, each with its own clock reading. -/
def ensureVersions (st : ClusterState) (wall : Nat → Int) (records : List (String × String)) :
    ClusterState :=
  records.zipIdx.foldl (fun st r => st.ensureVersion r.1 (wall r.2)) st

variable {st : ClusterState}

theorem ensureVersion_nodeId (record : String × String) (nowMs : Int) :
    (st.ensureVersion record nowMs).nodeId = st.nodeId := by
  rw [ensureVersion]
  split <;> rfl

variable {record : String × String}

theorem ensureVersion_of_versioned
    (versioned : st.isVersioned (makeKey record.1 record.2) = true) (nowMs : Int) :
    st.ensureVersion record nowMs = st := by
  rw [ensureVersion, if_pos versioned]

theorem isVersioned_ensureVersion {nowMs : Int} {k : String}
    (versioned : st.isVersioned k = true ∨ k = makeKey record.1 record.2) :
    (st.ensureVersion record nowMs).isVersioned k = true := by
  rw [ensureVersion]
  split
  · rename_i already
    rcases versioned with versioned | rfl
    · exact versioned
    · exact already
  · rw [isVersioned, setVersion]
    by_cases here : k = makeKey record.1 record.2
    · simp [here]
    · rcases versioned with versioned | same
      · rw [get?_insert_of_ne here, get?_erase_of_ne here]
        exact versioned
      · exact absurd same here

/-- The clock index of a fold over the records, made explicit. -/
def ensureFrom (wall : Nat → Int) : List (String × String) → Nat → ClusterState → ClusterState
  | [], _, st => st
  | record :: records, i, st => ensureFrom wall records (i + 1) (st.ensureVersion record (wall i))

variable (wall : Nat → Int)

include wall

theorem ensureVersions_eq (records : List (String × String)) :
    st.ensureVersions wall records = ensureFrom wall records 0 st := by
  have go : ∀ (records : List (String × String)) (i : Nat) (st : ClusterState),
      (records.zipIdx i).foldl (fun st r => st.ensureVersion r.1 (wall r.2)) st =
        ensureFrom wall records i st := by
    intro records
    induction records with
    | nil => exact fun _ _ => rfl
    | cons record records ih =>
      intro i st
      exact ih (i + 1) (st.ensureVersion record (wall i))
  exact go records 0 st

theorem ensureVersions_nodeId (records : List (String × String)) :
    (st.ensureVersions wall records).nodeId = st.nodeId := by
  rw [ensureVersions_eq]
  have go : ∀ (records : List (String × String)) (i : Nat) (st : ClusterState),
      (ensureFrom wall records i st).nodeId = st.nodeId := by
    intro records
    induction records with
    | nil => exact fun _ _ => rfl
    | cons record records ih =>
      intro i st
      exact (ih (i + 1) _).trans (ensureVersion_nodeId record (wall i))
  exact go records 0 st

theorem isVersioned_ensureVersions {records : List (String × String)} (mem : record ∈ records) :
    (st.ensureVersions wall records).isVersioned (makeKey record.1 record.2) = true := by
  rw [ensureVersions_eq]
  have go : ∀ (records : List (String × String)) (i : Nat) (st : ClusterState),
      st.isVersioned (makeKey record.1 record.2) = true ∨ record ∈ records →
        (ensureFrom wall records i st).isVersioned (makeKey record.1 record.2) = true := by
    intro records
    induction records with
    | nil =>
      rintro i st (versioned | mem)
      · exact versioned
      · cases mem
    | cons head records ih =>
      rintro i st (versioned | mem)
      · exact ih _ _ (.inl (isVersioned_ensureVersion (.inl versioned)))
      · rcases List.mem_cons.mp mem with rfl | mem
        · exact ih _ _ (.inl (isVersioned_ensureVersion (.inr rfl)))
        · exact ih _ _ (.inr mem)
  exact go records 0 st (.inr mem)

theorem ensureVersions_of_versioned {records : List (String × String)}
    (versioned : ∀ r ∈ records, st.isVersioned (makeKey r.1 r.2) = true) :
    st.ensureVersions wall records = st := by
  rw [ensureVersions_eq]
  have go : ∀ (records : List (String × String)) (i : Nat),
      (∀ r ∈ records, st.isVersioned (makeKey r.1 r.2) = true) →
        ensureFrom wall records i st = st := by
    intro records
    induction records with
    | nil => exact fun _ _ => rfl
    | cons record records ih =>
      intro i versioned
      rw [ensureFrom, ensureVersion_of_versioned (versioned record (.head _))]
      exact ih (i + 1) fun r mem => versioned r (.tail _ mem)
  exact go records 0 versioned

omit wall

end ClusterState

namespace ClusterStore

variable (s : ClusterStore)

def nodeId : String := s.state.nodeId

def withState (state : ClusterState) (same : state.nodeId = s.state.nodeId) : ClusterStore :=
  { s with
    state
    notOwn := by
      intro k e found
      rw [same]
      exact s.notOwn k e found }

/-- The local records that replicate. -/
def present : List (String × String) :=
  match s.registry with
  | none => []
  | some reg =>
    reg.listDatasets.flatMap fun dataset =>
      ((reg.listEntries dataset).filter fun e => !e.isEphemeral).map fun e =>
        (dataset, e.serviceId)

def ensureLocalVersions (wall : Nat → Int) : ClusterStore :=
  s.withState (s.state.ensureVersions wall s.present) (s.state.ensureVersions_nodeId wall s.present)

/-! ### Indices and envelopes -/

/-- The namespaces that a scope admits; no namespaces, or an empty list, admit
every dataset. -/
def inScope (namespaces : Option (List String)) (dataset : String) : Bool :=
  match namespaces with
  | none => true
  | some ns => ns.isEmpty || ns.contains dataset

/-- Versions of the local live records. -/
def liveRows (namespaces : Option (List String)) : List (Key × Version) :=
  match s.registry with
  | none => []
  | some reg =>
    (reg.listDatasets.filter (inScope namespaces)).flatMap fun dataset =>
      ((reg.listEntries dataset).filter fun e => !e.isEphemeral).filterMap fun e =>
        (s.state.localVersions.get? (makeKey dataset e.serviceId)).map fun v =>
          (⟨dataset, s.nodeId, e.serviceId⟩, v)

/-- Versions of the local tombstones. Without a registry there is no index. -/
def tombstoneRows (namespaces : Option (List String)) : List (Key × Version) :=
  match s.registry with
  | none => []
  | some _ =>
    s.state.tombstones.entries.filterMap fun t =>
      let record := splitKey t.1
      if inScope namespaces record.1 then
        some (⟨record.1, s.nodeId, record.2⟩, t.2.version)
      else none

def foreignRows (namespaces : Option (List String)) : List (Key × Version) :=
  (s.foreign.entries.filter fun e => inScope namespaces e.1.dataset).map fun e => (e.1, e.2.version)

/-- `local_index` of a store whose local records have their versions. -/
def localIndex (namespaces : Option (List String)) : OrderedMap Key Version :=
  (OrderedMap.empty.insertAll (s.liveRows namespaces)).insertAll (s.tombstoneRows namespaces)

/-- `full_index`, likewise. -/
def fullIndex (namespaces : Option (List String)) : OrderedMap Key Version :=
  (s.localIndex namespaces).insertAll (s.foreignRows namespaces)

/-- `build_local_envelope`: a tombstone comes first, else the entry is read back
from the registry. -/
def buildLocalEnvelope (dataset serviceId : String) : Option SyncEnvelope :=
  let k := makeKey dataset serviceId
  match s.state.tombstones.get? k with
  | some t => some ⟨dataset, serviceId, s.nodeId, t.version, true, none⟩
  | none =>
    match s.state.localVersions.get? k, s.registry with
    | some version, some reg =>
      (reg.getEntry dataset serviceId).map fun e =>
        ⟨dataset, serviceId, s.nodeId, version, false,
          some (.obj [("entry", e.entry), ("wrapped", e.wrapped.getD .null)])⟩
    | _, _ => none

def buildEnvelopeForKey (k : Key) : Option SyncEnvelope :=
  if k.originId = s.nodeId then s.buildLocalEnvelope k.dataset k.serviceId else s.foreign.get? k

/-! ### Inbound envelopes -/

/-- The store files none of its own envelopes, and none of a suppressed origin. -/
def filing (now : Int) : Filing Key Version SyncEnvelope where
  key := SyncEnvelope.key
  version := SyncEnvelope.version
  admits e :=
    decide (e.originId ≠ s.nodeId) &&
      (s.evictedUntil.get? e.originId).all fun deadline => !decide (now < deadline)

/-- `apply_inbound`: accept the envelope iff it is strictly newer than what is
there. -/
def applyInbound (now : Int) (env : SyncEnvelope) : ClusterStore × Bool :=
  if own : env.originId = s.nodeId then (s, false)
  else if (s.evictedUntil.get? env.originId).any (fun deadline => decide (now < deadline)) then
    (s, false)
  else if versionNewer env.version ((s.foreign.get? env.key).map SyncEnvelope.version) then
    ({ s with
      foreign := s.foreign.insert env.key env
      keyed := by
        intro k e found
        rw [OrderedMap.get?_insert] at found
        split at found
        · rename_i here
          cases found
          exact here.symm
        · exact s.keyed k e found
      notOwn := by
        intro k e found
        rw [OrderedMap.get?_insert] at found
        split at found
        · rename_i here
          rw [here]
          exact own
        · exact s.notOwn k e found }, true)
  else (s, false)

/-- Apply a list of envelopes; the second component counts those accepted. -/
def applyAll (now : Int) : ClusterStore → List SyncEnvelope → ClusterStore × Nat
  | s, [] => (s, 0)
  | s, env :: envs =>
    let (s', accepted) := s.applyInbound now env
    let (s'', count) := applyAll now s' envs
    (s'', (if accepted then 1 else 0) + count)

def overlayVersion (k : Key) : WithBot Version := (s.foreign.get? k).map SyncEnvelope.version

def suppressedOrigins : List String := s.evictedUntil.keys

/-- Two stores that differ at most in their overlays. -/
structure SameNode (s s' : ClusterStore) : Prop where
  state : s'.state = s.state
  sessions : s'.sessions = s.sessions
  evictedUntil : s'.evictedUntil = s.evictedUntil
  registry : s'.registry = s.registry
  merkleBuckets : s'.merkleBuckets = s.merkleBuckets
  authEnabled : s'.authEnabled = s.authEnabled

variable {s} {s' s'' : ClusterStore}

theorem SameNode.refl (s : ClusterStore) : SameNode s s := ⟨rfl, rfl, rfl, rfl, rfl, rfl⟩

theorem SameNode.trans (first : SameNode s s') (second : SameNode s' s'') : SameNode s s'' where
  state := second.state.trans first.state
  sessions := second.sessions.trans first.sessions
  evictedUntil := second.evictedUntil.trans first.evictedUntil
  registry := second.registry.trans first.registry
  merkleBuckets := second.merkleBuckets.trans first.merkleBuckets
  authEnabled := second.authEnabled.trans first.authEnabled

theorem SameNode.filing (same : SameNode s s') (now : Int) : s'.filing now = s.filing now := by
  rw [ClusterStore.filing, ClusterStore.filing, nodeId, nodeId, same.state, same.evictedUntil]

theorem applyInbound_sameNode (now : Int) (env : SyncEnvelope) :
    SameNode s (s.applyInbound now env).1 := by
  rw [applyInbound]
  split
  · exact .refl s
  · split
    · exact .refl s
    · split
      · exact ⟨rfl, rfl, rfl, rfl, rfl, rfl⟩
      · exact .refl s

theorem admits_iff {now : Int} {env : SyncEnvelope} : (s.filing now).admits env = true ↔
    env.originId ≠ s.nodeId ∧
      ¬(s.evictedUntil.get? env.originId).any (fun deadline => decide (now < deadline)) := by
  simp only [filing]
  cases s.evictedUntil.get? env.originId <;> simp

theorem applyInbound_eq (now : Int) (env : SyncEnvelope) :
    (s.applyInbound now env).1.foreign = (s.filing now).offer s.foreign env ∧
      ((s.applyInbound now env).2 = true ↔ (s.filing now).Wins s.foreign env) := by
  have newer : versionNewer env.version ((s.foreign.get? env.key).map SyncEnvelope.version) = true ↔
      (s.filing now).versionAt s.foreign env.key < (env.version : WithBot Version) :=
    versionNewer_iff
  rw [Filing.offer, applyInbound]
  split
  · rename_i own
    have loses : ¬(s.filing now).Wins s.foreign env := fun wins => (admits_iff.mp wins.1).1 own
    rw [if_neg loses]
    exact ⟨rfl, iff_of_false Bool.false_ne_true loses⟩
  · rename_i other
    split
    · rename_i suppressed
      have loses : ¬(s.filing now).Wins s.foreign env := fun wins =>
        (admits_iff.mp wins.1).2 suppressed
      rw [if_neg loses]
      exact ⟨rfl, iff_of_false Bool.false_ne_true loses⟩
    · rename_i unsuppressed
      split
      · rename_i wins
        have wins : (s.filing now).Wins s.foreign env :=
          ⟨admits_iff.mpr ⟨other, unsuppressed⟩, newer.mp wins⟩
        rw [if_pos wins]
        exact ⟨rfl, iff_of_true rfl wins⟩
      · rename_i old
        have loses : ¬(s.filing now).Wins s.foreign env := fun wins => old (newer.mpr wins.2)
        rw [if_neg loses]
        exact ⟨rfl, iff_of_false Bool.false_ne_true loses⟩

theorem applyAll_eq (now : Int) (envs : List SyncEnvelope) : ∀ s : ClusterStore,
    SameNode s (applyAll now s envs).1 ∧
      (applyAll now s envs).1.foreign = (s.filing now).offerAll s.foreign envs ∧
      (applyAll now s envs).2 = (s.filing now).winners s.foreign envs := by
  induction envs with
  | nil => exact fun s => ⟨.refl s, rfl, rfl⟩
  | cons env envs ih =>
    intro s
    obtain ⟨foreign, accepted⟩ := @applyInbound_eq s now env
    have same := @applyInbound_sameNode s now env
    obtain ⟨rest, overlay, count⟩ := ih (s.applyInbound now env).1
    rw [same.filing, foreign] at overlay count
    refine ⟨same.trans rest, overlay, ?_⟩
    rw [applyAll, Filing.winners]
    simp only [count, accepted]

/-! ### What the index shows -/

variable {namespaces : Option (List String)} {k : Key} {v : Version}

theorem mem_liveRows (mem : (k, v) ∈ s.liveRows namespaces) :
    k.originId = s.nodeId ∧ inScope namespaces k.dataset = true ∧
      s.state.localVersions.get? (makeKey k.dataset k.serviceId) = some v ∧
      ∃ reg found, s.registry = some reg ∧ reg.getEntry k.dataset k.serviceId = some found := by
  rw [liveRows] at mem
  split at mem
  · cases mem
  · rename_i reg registry
    simp only [List.mem_flatMap, List.mem_filter, List.mem_filterMap, Option.map_eq_some_iff] at mem
    obtain ⟨dataset, ⟨-, admitted⟩, e, ⟨listed, -⟩, version, found, row⟩ := mem
    cases row
    obtain ⟨entry, got⟩ := reg.listed dataset e listed
    exact ⟨rfl, admitted, found, reg, entry, registry, got⟩

theorem mem_tombstoneRows (mem : (k, v) ∈ s.tombstoneRows namespaces) :
    k.originId = s.nodeId ∧ inScope namespaces k.dataset = true ∧
      ∃ t, s.state.tombstones.get? (makeKey k.dataset k.serviceId) = some t ∧ t.version = v := by
  rw [tombstoneRows] at mem
  split at mem
  · cases mem
  · simp only [List.mem_filterMap] at mem
    obtain ⟨⟨composite, t⟩, stored, row⟩ := mem
    have found := get?_eq_some_iff.mpr stored
    have made := makeKey_splitKey (s.state.separated _ _ found)
    split at row
    · rename_i admitted
      cases row
      refine ⟨rfl, admitted, t, ?_, rfl⟩
      rw [made, found]
    · cases row

theorem mem_foreignRows : (k, v) ∈ s.foreignRows namespaces ↔
    inScope namespaces k.dataset = true ∧ ∃ e, s.foreign.get? k = some e ∧ e.version = v := by
  simp only [foreignRows, List.mem_map, List.mem_filter]
  constructor
  · rintro ⟨⟨j, e⟩, ⟨stored, admitted⟩, row⟩
    cases row
    exact ⟨admitted, e, get?_eq_some_iff.mpr stored, rfl⟩
  · rintro ⟨admitted, e, found, rfl⟩
    exact ⟨(k, e), ⟨get?_eq_some_iff.mp found, admitted⟩, rfl⟩

variable (found : (s.localIndex namespaces).get? k = some v)

include found

theorem mem_localIndex : (k, v) ∈ s.liveRows namespaces ∨ (k, v) ∈ s.tombstoneRows namespaces := by
  rcases mem_of_get?_insertAll found with tombstone | live
  · exact .inr tombstone
  · rcases mem_of_get?_insertAll live with live | nothing
    · exact .inl live
    · cases nothing

theorem localIndex_origin : k.originId = s.nodeId ∧ inScope namespaces k.dataset = true := by
  rcases mem_localIndex found with live | tombstone
  · obtain ⟨own, admitted, -⟩ := mem_liveRows live
    exact ⟨own, admitted⟩
  · obtain ⟨own, admitted, -⟩ := mem_tombstoneRows tombstone
    exact ⟨own, admitted⟩

omit found

/-- The index shows the local index for records of the node. -/
theorem fullIndex_own (own : k.originId = s.nodeId) :
    (s.fullIndex namespaces).get? k = (s.localIndex namespaces).get? k := by
  apply get?_insertAll_of_not_mem
  rintro ⟨j, w⟩ mem rfl
  obtain ⟨-, e, found, -⟩ := mem_foreignRows.mp mem
  exact s.notOwn j e found own

/-- The index shows the overlay for records of other nodes. -/
theorem fullIndex_foreign (other : k.originId ≠ s.nodeId)
    (admitted : inScope namespaces k.dataset = true) :
    (s.fullIndex namespaces).get? k = s.overlayVersion k := by
  rw [fullIndex, overlayVersion]
  cases found : s.foreign.get? k with
  | some e =>
    apply get?_insertAll_of_mem (mem_foreignRows.mpr ⟨admitted, e, found, rfl⟩)
    rintro ⟨j, w⟩ mem rfl
    obtain ⟨-, e', found', version⟩ := mem_foreignRows.mp mem
    rw [found] at found'
    cases found'
    exact version.symm
  | none =>
    rw [get?_insertAll_of_not_mem]
    · cases listed : (s.localIndex namespaces).get? k with
      | none => rfl
      | some v => exact absurd (localIndex_origin listed).1 other
    · rintro ⟨j, w⟩ mem rfl
      obtain ⟨-, e, found', -⟩ := mem_foreignRows.mp mem
      rw [found] at found'
      cases found'

theorem fullIndex_inScope (found : (s.fullIndex namespaces).get? k = some v) :
    inScope namespaces k.dataset = true := by
  rcases mem_of_get?_insertAll found with foreign | own
  · exact (mem_foreignRows.mp foreign).1
  · exact (localIndex_origin own).2

/-- The envelope of a record in the index has the version that the index shows. -/
theorem built_of_fullIndex (found : (s.fullIndex namespaces).get? k = some v) :
    ∃ env, s.buildEnvelopeForKey k = some env ∧ env.key = k ∧ env.version = v := by
  rw [buildEnvelopeForKey]
  split
  · rename_i own
    rw [fullIndex_own own] at found
    rw [buildLocalEnvelope]
    rcases mem_localIndex found with live | tombstone
    · obtain ⟨-, -, version, reg, entry, registry, got⟩ := mem_liveRows live
      simp only [s.state.exclusive _ _ version, version, registry, got]
      exact ⟨_, rfl, by rw [SyncEnvelope.key, ← own], rfl⟩
    · obtain ⟨-, -, t, stored, rfl⟩ := mem_tombstoneRows tombstone
      simp only [stored]
      exact ⟨_, rfl, by rw [SyncEnvelope.key, ← own], rfl⟩
  · rename_i other
    rw [fullIndex_foreign other (fullIndex_inScope found)] at found
    obtain ⟨env, stored, version⟩ := Option.map_eq_some_iff.mp found
    exact ⟨env, stored, s.keyed k env stored, version⟩

end ClusterStore

end AgentProtocols.Cluster
