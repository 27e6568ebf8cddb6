import AgentProtocols.Cluster.AntiEntropy

/-!
Reconciliation with a peer that answers what it likes. `reconcileWith` is `reconcile` against given
replies; `mem_sent` says what is sent, and `reconcile_sends` what an empty remote index draws. An
empty scope counts as all datasets, so what is sent stays inside the accepted namespaces exactly if
there are some or the store holds nothing (`sent_in_scope_iff`).
-/

namespace AgentProtocols.Cluster

open Lib Merkle OrderedMap List

/-- What a peer answers to the calls of a reconciliation; `none` is a transport
error. -/
structure Replies where
  merkle : Option (OrderedMap String String)
  digest : Option (List (Key × Version))
  pull : Option (List SyncEnvelope)
  updates : Option UpdatesResponse

/-- What other calls make of the store while each of the replies is awaited. -/
structure Meanwhile where
  merkle : ClusterStore → ClusterStore
  digest : ClusterStore → ClusterStore
  pull : ClusterStore → ClusterStore

/-- How a reconciliation leaves the store, what it sent, and its result. -/
structure Reconciled where
  store : ClusterStore
  sent : List SyncEnvelope
  result : Option ReconcileResult

/-- The replies of a peer that holds nothing. -/
def Replies.blank : Replies := ⟨some .empty, some [], none, none⟩

/-- Nothing else happens to the store. -/
def Meanwhile.quiet : Meanwhile := ⟨id, id, id⟩

namespace ClusterStore

variable (H : Sha256) (order : HashOrder) (s : ClusterStore) (peer : Peer) (clocks : Clocks)

/-- The push of `reconcile`: nothing is sent where nothing is newer. -/
def pushWith (replies : Replies) (toPush : List Key) (pulled : Nat) : Reconciled :=
  let envs := toPush.filterMap s.buildEnvelopeForKey
  if envs = [] then ⟨s, [], some ⟨pulled, 0⟩⟩
  else ⟨s, envs, replies.updates.map fun response => ⟨pulled, response.accepted⟩⟩

/-- The pull of `reconcile`, then the push. Whatever envelopes come back are
applied. -/
def pullWith (replies : Replies) (meanwhile : Meanwhile) (toPull toPush : List Key) : Reconciled :=
  if toPull = [] then s.pushWith replies toPush 0
  else
    let s := meanwhile.pull s
    match replies.pull with
    | none => ⟨s, [], none⟩
    | some envs =>
      let (s, pulled) := applyAll (clocks.monotonic 0) s envs
      s.pushWith replies toPush pulled

/-- `reconcile` with a peer that gives these replies. -/
def reconcileWith (replies : Replies) (meanwhile : Meanwhile) : Reconciled :=
  let n := s.merkleBuckets
  let s := s.ensureLocalVersions clocks.wall
  let localIndex := s.fullIndex (some peer.namespaces)
  let s := meanwhile.merkle s
  match replies.merkle with
  | none => ⟨s, [], none⟩
  | some remoteBuckets =>
    let diff := differingBuckets (bucketHashes H localIndex n) remoteBuckets
    if diff = [] then ⟨s, [], some ⟨0, 0⟩⟩
    else
      let s := meanwhile.digest s
      match replies.digest with
      | none => ⟨s, [], none⟩
      | some remoteRows =>
        let remoteIndex := OrderedMap.empty.insertAll remoteRows
        let localSub := localIndex.retain fun k _ => diff.contains (bucketOf H k n)
        s.pullWith clocks replies meanwhile (newerRows order remoteIndex localSub)
          (newerRows order localSub remoteIndex)

/-- The calls of `broadcast`: each session that syncs the dataset gets the
envelope. -/
def broadcast (env : SyncEnvelope) : List (Peer × List SyncEnvelope) :=
  ((s.sessions.entries.map Prod.snd).filter fun p => p.namespaces.contains env.dataset).map
    fun p => (p, [env])

variable {H order s peer clocks} {replies : Replies} {meanwhile : Meanwhile}

/-! ### What is sent -/

variable {env : SyncEnvelope}

theorem buildEnvelopeForKey_dataset {k : Key}
    (built : s.buildEnvelopeForKey k = some env) : env.dataset = k.dataset := by
  rw [buildEnvelopeForKey] at built
  split at built
  · rw [buildLocalEnvelope] at built
    split at built
    · cases built
      rfl
    · split at built
      · obtain ⟨e, -, rfl⟩ := Option.map_eq_some_iff.mp built
        rfl
      · cases built
  · rw [← s.keyed k env built]
    rfl

theorem sent_pushWith (toPush : List Key) (pulled : Nat) :
    (s.pushWith replies toPush pulled).sent = toPush.filterMap s.buildEnvelopeForKey := by
  rw [pushWith]
  split
  · rename_i nothing
    exact nothing.symm
  · rfl

theorem mem_pushWith {toPush : List Key} {pulled : Nat}
    (sent : env ∈ (s.pushWith replies toPush pulled).sent) :
    ∃ k ∈ toPush, env.dataset = k.dataset := by
  rw [sent_pushWith] at sent
  obtain ⟨k, mem, built⟩ := mem_filterMap.mp sent
  exact ⟨k, mem, buildEnvelopeForKey_dataset built⟩

theorem mem_pullWith {toPull toPush : List Key}
    (sent : env ∈ (s.pullWith clocks replies meanwhile toPull toPush).sent) :
    ∃ k ∈ toPush, env.dataset = k.dataset := by
  rw [pullWith] at sent
  split at sent
  · exact mem_pushWith sent
  · split at sent
    · cases sent
    · exact mem_pushWith sent

theorem mem_sent (sent : env ∈ (s.reconcileWith H order peer clocks replies meanwhile).sent) :
    ∃ k v, ((s.ensureLocalVersions clocks.wall).fullIndex (some peer.namespaces)).get? k = some v ∧
      env.dataset = k.dataset := by
  simp only [reconcileWith] at sent
  split at sent
  · cases sent
  · split at sent
    · cases sent
    · split at sent
      · cases sent
      · obtain ⟨k, mem, dataset⟩ := mem_pullWith sent
        obtain ⟨v, found, -⟩ := mem_newerRows.mp mem
        rw [get?_retain, Option.filter_eq_some_iff] at found
        exact ⟨k, v, found.1, dataset⟩

/-- No local record that replicates, no tombstone, no foreign record. -/
structure HoldsNothing (s : ClusterStore) : Prop where
  present : s.present = []
  tombstones : s.registry = none ∨ s.state.tombstones.entries = []
  foreign : s.foreign.entries = []

theorem mem_present {record : String × String} : record ∈ s.present ↔
    ∃ reg, s.registry = some reg ∧ record.1 ∈ reg.listDatasets ∧
      ∃ e ∈ reg.listEntries record.1, e.isEphemeral = false ∧ e.serviceId = record.2 := by
  rw [ClusterStore.present]
  cases s.registry with
  | none => simp
  | some reg =>
    simp only [mem_flatMap, mem_map, mem_filter, Bool.not_eq_true',
      Option.some.injEq, exists_eq_left']
    constructor
    · rintro ⟨dataset, listed, e, ⟨entry, lasting⟩, rfl⟩
      exact ⟨listed, e, entry, lasting, rfl⟩
    · rintro ⟨listed, e, entry, lasting, same⟩
      exact ⟨record.1, listed, e, ⟨entry, lasting⟩, by rw [same]⟩

theorem HoldsNothing.fullIndex (nothing : s.HoldsNothing) (scope : Option (List String))
    {k : Key} {v : Version} : (s.fullIndex scope).get? k ≠ some v := by
  intro found
  rcases mem_of_get?_insertAll found with foreign | own
  · rw [foreignRows, nothing.foreign] at foreign
    cases foreign
  rcases mem_localIndex own with live | tombstone
  · rw [liveRows] at live
    split at live
    · cases live
    · rename_i reg registry
      simp only [mem_flatMap, mem_filter, mem_filterMap, Bool.not_eq_true'] at live
      obtain ⟨dataset, ⟨listed, -⟩, e, ⟨entry, lasting⟩, -⟩ := live
      have record : (dataset, e.serviceId) ∈ s.present :=
        mem_present.mpr ⟨reg, registry, listed, e, entry, lasting, rfl⟩
      rw [nothing.present] at record
      cases record
  · rw [tombstoneRows] at tombstone
    rcases nothing.tombstones with unregistered | buried
    · rw [unregistered] at tombstone
      cases tombstone
    · rw [buried] at tombstone
      split at tombstone <;> cases tombstone

theorem ensureLocalVersions_of_unlisted (unlisted : s.present = []) (wall : Nat → Int) :
    s.ensureLocalVersions wall = s := by
  apply Ensured.ensureLocalVersions_eq
  intro r mem
  rw [unlisted] at mem
  cases mem

theorem isSome_fullIndex {scope : Option (List String)} {k : Key} {v : Version}
    (mem : (k, v) ∈ s.liveRows scope ∨ (k, v) ∈ s.tombstoneRows scope ∨
      (k, v) ∈ s.foreignRows scope) : ((s.fullIndex scope).get? k).isSome := by
  simp only [ClusterStore.fullIndex, ClusterStore.localIndex, isSome_get?_insertAll]
  rcases mem with live | tombstone | foreign
  · exact .inr (.inr (.inl (mem_map_of_mem live)))
  · exact .inr (.inl (mem_map_of_mem tombstone))
  · exact .inl (mem_map_of_mem foreign)

theorem tombstone_row {reg : LocalRegistryView} (registry : s.registry = some reg)
    {composite : String} {t : Tombstone} (stored : (composite, t) ∈ s.state.tombstones.entries) :
    (⟨(splitKey composite).1, s.nodeId, (splitKey composite).2⟩, t.version) ∈
      s.tombstoneRows none := by
  rw [tombstoneRows, registry]
  exact mem_filterMap.mpr ⟨(composite, t), stored, rfl⟩

theorem exists_row (ensured : Ensured s) (something : ¬s.HoldsNothing) :
    ∃ k v, (s.fullIndex none).get? k = some v := by
  by_contra empty
  have no_row : ∀ {k : Key} {v : Version}, ¬((k, v) ∈ s.liveRows none ∨
      (k, v) ∈ s.tombstoneRows none ∨ (k, v) ∈ s.foreignRows none) := by
    intro k v mem
    obtain ⟨w, found⟩ := Option.isSome_iff_exists.mp (isSome_fullIndex mem)
    exact empty ⟨k, w, found⟩
  apply something
  constructor
  · rw [eq_nil_iff_forall_not_mem]
    intro record mem
    have versioned := ensured record mem
    obtain ⟨reg, registry, listed, e, entry, lasting, same⟩ := mem_present.mp mem
    rw [ClusterState.isVersioned, Bool.or_eq_true, Option.isSome_iff_exists,
      Option.isSome_iff_exists] at versioned
    rcases versioned with ⟨v, version⟩ | ⟨t, buried⟩
    · apply no_row (k := ⟨record.1, s.nodeId, record.2⟩) (v := v)
      refine .inl ?_
      rw [liveRows, registry]
      simp only [mem_flatMap, mem_filter, mem_filterMap, Bool.not_eq_true']
      refine ⟨record.1, ⟨listed, rfl⟩, e, ⟨entry, lasting⟩, ?_⟩
      rw [same, version]
      rfl
    · exact no_row (.inr (.inl (tombstone_row registry (get?_eq_some_iff.mp buried))))
  · cases registry : s.registry with
    | none => exact .inl rfl
    | some reg =>
      refine .inr ?_
      rw [eq_nil_iff_forall_not_mem]
      rintro ⟨composite, t⟩ stored
      exact no_row (.inr (.inl (tombstone_row registry stored)))
  · rw [eq_nil_iff_forall_not_mem]
    rintro ⟨k, e⟩ stored
    apply no_row (k := k) (v := e.version)
    refine .inr (.inr (mem_foreignRows.mpr ⟨rfl, e, ?_, rfl⟩))
    exact get?_eq_some_iff.mpr stored

/-! ### A peer that knows nothing -/

theorem differs_from_empty {index : OrderedMap Key Version} {buckets : Nat} {k : Key} {v : Version}
    (found : index.get? k = some v) :
    bucketOf H k buckets ∈ differingBuckets (bucketHashes H index buckets) .empty := by
  by_contra agrees
  have same := get?_eq_of_not_differing (bucketOf_lt k buckets) agrees
  have mem : bucketOf H k buckets ∈ bucketsOf H index buckets :=
    mem_bucketsOf (e := (k, v)) found
  rw [bucketHashes_of_mem mem] at same
  cases same

variable (H order s peer clocks) in
/-- To a peer that knows nothing, an envelope of every row is sent. -/
theorem reconcile_sends {k : Key} {v : Version}
    (row : ((s.ensureLocalVersions clocks.wall).fullIndex (some peer.namespaces)).get? k = some v) :
    ∃ env ∈ (s.reconcileWith H order peer clocks .blank .quiet).sent, env.dataset = k.dataset := by
  generalize ensured : s.ensureLocalVersions clocks.wall = t at row
  generalize listed : t.fullIndex (some peer.namespaces) = index at row
  have differs := @differs_from_empty H index s.merkleBuckets k v row
  have some_differ : differingBuckets (bucketHashes H index s.merkleBuckets) .empty ≠ [] :=
    ne_nil_of_mem differs
  generalize differing : differingBuckets (bucketHashes H index s.merkleBuckets) .empty = diff
    at differs some_differ
  let localSub := index.retain fun k _ => diff.contains (bucketOf H k s.merkleBuckets)
  have nothing : newerRows order OrderedMap.empty localSub = [] := by
    rw [eq_nil_iff_forall_not_mem]
    intro j mem
    obtain ⟨w, found, -⟩ := mem_newerRows.mp mem
    cases found
  have newer : k ∈ newerRows order localSub OrderedMap.empty := by
    refine mem_newerRows.mpr ⟨v, ?_, rfl⟩
    rw [get?_retain_view, view_eq_some]
    exact ⟨row, differs⟩
  have built : ∃ env, t.buildEnvelopeForKey k = some env ∧ env.key = k := by
    rw [← listed] at row
    obtain ⟨env, built, here, -⟩ := built_of_fullIndex row
    exact ⟨env, built, here⟩
  obtain ⟨env, built, rfl⟩ := built
  have pushed : env ∈ (newerRows order localSub OrderedMap.empty).filterMap t.buildEnvelopeForKey :=
    mem_filterMap.mpr ⟨env.key, newer, built⟩
  have sent : (s.reconcileWith H order peer clocks .blank .quiet).sent =
      (newerRows order localSub OrderedMap.empty).filterMap t.buildEnvelopeForKey := by
    simp only [reconcileWith, Replies.blank, Meanwhile.quiet, id, ensured, listed, differing,
      if_neg some_differ]
    show (pullWith t clocks _ _ (newerRows order .empty localSub) _).sent = _
    rw [pullWith, if_pos nothing, sent_pushWith]
    rfl
  exact ⟨env, sent ▸ pushed, rfl⟩

variable (H order s peer clocks) in
/-- What is sent stays inside the accepted namespaces exactly if there are some, or nothing stored.
-/
theorem sent_in_scope_iff :
    ((∀ replies meanwhile, ∀ env ∈
        (s.reconcileWith H order peer clocks replies meanwhile).sent,
        env.dataset ∈ peer.namespaces) ↔ peer.namespaces ≠ [] ∨ s.HoldsNothing) ∧
      ∀ env, ∀ call ∈ s.broadcast env, ∀ sent ∈ call.2, sent.dataset ∈ call.1.namespaces := by
  refine ⟨⟨?_, ?_⟩, ?_⟩
  · intro inside
    by_contra neither
    obtain ⟨unaccepted, something⟩ := not_or.mp neither
    have unaccepted : peer.namespaces = [] := not_not.mp unaccepted
    have kept : ¬(s.ensureLocalVersions clocks.wall).HoldsNothing := by
      intro nothing
      have unlisted : s.present = [] := nothing.present
      rw [ensureLocalVersions_of_unlisted unlisted] at nothing
      exact something nothing
    obtain ⟨k, v, row⟩ := exists_row (ensured_ensureLocalVersions s clocks.wall) kept
    have row : ((s.ensureLocalVersions clocks.wall).fullIndex (some peer.namespaces)).get? k =
        some v := by
      rw [unaccepted]
      exact row
    obtain ⟨env, sent, -⟩ := reconcile_sends H order s peer clocks row
    have accepted := inside .blank .quiet env sent
    rw [unaccepted] at accepted
    cases accepted
  · rintro condition replies meanwhile env sent
    obtain ⟨k, v, row, dataset⟩ := mem_sent sent
    rcases condition with accepted | nothing
    · have inside := fullIndex_inScope row
      rw [dataset]
      simpa [inScope, accepted] using inside
    · rw [ensureLocalVersions_of_unlisted nothing.present] at row
      exact absurd row (nothing.fullIndex _)
  · intro env call mem sent inside
    obtain ⟨p, synced, rfl⟩ := List.mem_map.mp mem
    cases List.mem_singleton.mp inside
    simpa using (List.mem_filter.mp synced).2

end ClusterStore

/-! ### A peer that accepted nothing -/

namespace Unaccepted

def service : LocalEntry := ⟨"x", "user_config", .obj [], none⟩

def registry : LocalRegistryView where
  listDatasets := ["secure"]
  listEntries _ := [service]
  getEntry _ _ := some service
  isAuthRequired _ := true
  listed _ _ _ := ⟨service, rfl⟩

def home : ClusterStore where
  state := .new "A"
  foreign := .empty
  sessions := .empty
  evictedUntil := .empty
  registry := some registry
  merkleBuckets := 256
  authEnabled := true
  keyed := foreign_empty_keyed
  notOwn := foreign_empty_notOwn "A"

/-- The peer answered the handshake with no namespace. -/
def peer : Peer := ⟨"B", "B", [], 0, some "t"⟩

def zeros : Sha256 := ⟨fun _ => .replicate 32 0, fun _ => rfl⟩

def byKey : HashOrder := ClusterStore.FirstContact.byKey

/-- The record of the protected dataset is sent. -/
theorem everything_sent : ¬∀ replies meanwhile, ∀ env ∈
    (home.reconcileWith zeros byKey peer ⟨fun _ => 5, fun _ => 0⟩ replies meanwhile).sent,
      env.dataset ∈ peer.namespaces := by
  intro inside
  obtain ⟨env, sent, -⟩ := ClusterStore.reconcile_sends zeros byKey home peer
    ⟨fun _ => 5, fun _ => 0⟩ (k := ⟨"secure", "A", "x"⟩) (v := ⟨5, "A"⟩) rfl
  cases inside _ _ env sent

end Unaccepted

end AgentProtocols.Cluster
