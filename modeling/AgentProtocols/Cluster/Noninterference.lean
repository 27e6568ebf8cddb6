import AgentProtocols.Cluster.InboundGate
import Mathlib.Data.List.Sort

/-!
What a peer is served does not depend on datasets it may not see. `Agree` relates two states that
differ at most in datasets outside a list (`Agree.row_iff`); `served_agree` is the result for the
handlers. A pull may show a dataset that was not requested (`Narrowed.pull_sees_more`).
-/

namespace AgentProtocols.Cluster

open Lib OrderedMap List

/-! ### Rows in sorted order -/

namespace Merkle

theorem entryLe_trans (a b c : Key × Version) (first : entryLe a b = true)
    (second : entryLe b c = true) : entryLe a c = true := by
  rw [entryLe, decide_eq_true_iff] at first second ⊢
  exact first.trans second

theorem entryLe_total (a b : Key × Version) : (entryLe a b || entryLe b a) = true := by
  rw [Bool.or_eq_true, entryLe, entryLe, decide_eq_true_iff, decide_eq_true_iff]
  exact le_total _ _

theorem entryLe_antisymm {a b : Key × Version} (first : entryLe a b = true)
    (second : entryLe b a = true) : a = b := by
  rw [entryLe, decide_eq_true_iff] at first second
  obtain ⟨⟨dataset', origin', service'⟩, v'⟩ := b
  have same := le_antisymm first second
  obtain ⟨rfl, rfl, rfl, rfl⟩ := same
  rfl

theorem mergeSort_congr {rows rows' : List (Key × Version)} (nodup : rows.Nodup)
    (nodup' : rows'.Nodup) (same : ∀ row, row ∈ rows ↔ row ∈ rows') :
    rows.mergeSort entryLe = rows'.mergeSort entryLe := by
  have perm : rows.Perm rows' := (perm_ext_iff_of_nodup nodup nodup').mpr same
  have perm : (rows.mergeSort entryLe).Perm (rows'.mergeSort entryLe) :=
    (mergeSort_perm rows _).trans (perm.trans (mergeSort_perm rows' _).symm)
  apply perm.eq_of_pairwise (fun a b _ _ => entryLe_antisymm)
  · exact pairwise_mergeSort entryLe_trans entryLe_total rows
  · exact pairwise_mergeSort entryLe_trans entryLe_total rows'

variable {H : Sha256} {index index' : OrderedMap Key Version}

theorem nodup_entries (index : OrderedMap Key Version) : index.entries.Nodup :=
  index.nodup.of_map Prod.fst

theorem mem_entries_congr (same : ∀ k, index.get? k = index'.get? k) (row : Key × Version) :
    row ∈ index.entries ↔ row ∈ index'.entries := by
  rw [← get?_eq_some_iff (k := row.1), ← get?_eq_some_iff (k := row.1), same]

theorem bucketEntries_congr (same : ∀ k, index.get? k = index'.get? k) (buckets b : Nat) :
    bucketEntries H index buckets b = bucketEntries H index' buckets b := by
  apply mergeSort_congr
  · exact (nodup_entries index).filter _
  · exact (nodup_entries index').filter _
  · intro row
    rw [mem_filter, mem_filter, mem_entries_congr same]

theorem get?_bucketHashes {buckets : Nat} {l hash : String} :
    (bucketHashes H index buckets).get? l = some hash ↔
      ∃ b ∈ bucketsOf H index buckets, label b = l ∧
        hash = hexEncode (H.digest (bucketInput H index buckets b)) := by
  constructor
  · intro found
    rcases mem_of_get?_insertAll found with row | nothing
    · obtain ⟨b, mem, same⟩ := mem_map.mp row
      cases same
      exact ⟨b, mem, rfl, rfl⟩
    · cases nothing
  · rintro ⟨b, mem, rfl, rfl⟩
    exact bucketHashes_of_mem mem

theorem bucketHashes_congr (same : ∀ k, index.get? k = index'.get? k) (buckets : Nat)
    (l : String) : (bucketHashes H index buckets).get? l = (bucketHashes H index' buckets).get? l := by
  have mem : ∀ b, b ∈ bucketsOf H index buckets ↔ b ∈ bucketsOf H index' buckets := by
    intro b
    simp only [bucketsOf, mem_dedup, mem_map, mem_entries_congr same]
  have hash : ∀ b, bucketInput H index buckets b = bucketInput H index' buckets b := by
    intro b
    rw [bucketInput, bucketInput, bucketEntries_congr same]
  apply Option.ext
  intro text
  simp only [get?_bucketHashes, mem, hash]

end Merkle

namespace ClusterStore

open Merkle

variable {s s' : ClusterStore} {scope : Option (List String)} {k : Key} {v w : Version}

/-! ### The rows of an index -/

/-- A row of the index: of a live record, of a tombstone, or of the overlay. -/
def IsRow (s : ClusterStore) (scope : Option (List String)) (k : Key) (v : Version) : Prop :=
  (k, v) ∈ s.liveRows scope ∨ (k, v) ∈ s.tombstoneRows scope ∨ (k, v) ∈ s.foreignRows scope

theorem mem_liveRows_iff : (k, v) ∈ s.liveRows scope ↔
    inScope scope k.dataset = true ∧ k.originId = s.nodeId ∧ (k.dataset, k.serviceId) ∈ s.present ∧
      s.state.localVersions.get? (makeKey k.dataset k.serviceId) = some v := by
  simp only [mem_present, liveRows]
  cases s.registry with
  | none => simp
  | some reg =>
    simp only [mem_flatMap, mem_filter, mem_filterMap, Bool.not_eq_true',
      Option.map_eq_some_iff, Option.some.injEq, exists_eq_left']
    constructor
    · rintro ⟨dataset, ⟨listed, admitted⟩, e, ⟨entry, lasting⟩, version, found, row⟩
      cases row
      exact ⟨admitted, rfl, ⟨listed, e, entry, lasting, rfl⟩, found⟩
    · obtain ⟨dataset, origin, service⟩ := k
      rintro ⟨admitted, rfl, ⟨listed, e, entry, lasting, rfl⟩, found⟩
      exact ⟨dataset, ⟨listed, admitted⟩, e, ⟨entry, lasting⟩, v, found, rfl⟩

theorem mem_tombstoneRows_iff : (k, v) ∈ s.tombstoneRows scope ↔
    s.registry.isSome = true ∧ inScope scope k.dataset = true ∧ k.originId = s.nodeId ∧
      splitKey (makeKey k.dataset k.serviceId) = (k.dataset, k.serviceId) ∧
      ∃ t, s.state.tombstones.get? (makeKey k.dataset k.serviceId) = some t ∧ t.version = v := by
  rw [tombstoneRows]
  cases s.registry with
  | none => simp
  | some reg =>
    simp only [mem_filterMap, Option.isSome_some, true_and]
    constructor
    · rintro ⟨⟨composite, t⟩, stored, row⟩
      have found := get?_eq_some_iff.mpr stored
      have made := makeKey_splitKey (s.state.separated _ _ found)
      split at row
      · rename_i admitted
        cases row
        refine ⟨admitted, rfl, ?_, t, ?_, rfl⟩
        · rw [made]
        · rw [made, found]
      · cases row
    · obtain ⟨dataset, origin, service⟩ := k
      rintro ⟨admitted, rfl, split, t, found, rfl⟩
      refine ⟨(makeKey dataset service, t), get?_eq_some_iff.mp found, ?_⟩
      rw [split, if_pos admitted]

theorem IsRow.unique (row : s.IsRow scope k v) (row' : s.IsRow scope k w) : v = w := by
  have own_live : ∀ {v}, (k, v) ∈ s.liveRows scope → k.originId = s.nodeId :=
    fun live => (mem_liveRows live).1
  have own_buried : ∀ {v}, (k, v) ∈ s.tombstoneRows scope → k.originId = s.nodeId :=
    fun buried => (mem_tombstoneRows buried).1
  have alien : ∀ {v}, (k, v) ∈ s.foreignRows scope → k.originId ≠ s.nodeId := by
    intro v foreign
    obtain ⟨-, e, found, -⟩ := mem_foreignRows.mp foreign
    exact s.notOwn k e found
  rcases row with live | buried | foreign <;> rcases row' with live' | buried' | foreign'
  · obtain ⟨-, -, found, -⟩ := mem_liveRows live
    obtain ⟨-, -, found', -⟩ := mem_liveRows live'
    exact Option.some.inj (found.symm.trans found')
  · obtain ⟨-, -, found, -⟩ := mem_liveRows live
    obtain ⟨-, -, t, found', -⟩ := mem_tombstoneRows buried'
    rw [s.state.exclusive _ _ found] at found'
    cases found'
  · exact absurd (own_live live) (alien foreign')
  · obtain ⟨-, -, t, found, -⟩ := mem_tombstoneRows buried
    obtain ⟨-, -, found', -⟩ := mem_liveRows live'
    rw [s.state.exclusive _ _ found'] at found
    cases found
  · obtain ⟨-, -, t, found, rfl⟩ := mem_tombstoneRows buried
    obtain ⟨-, -, t', found', rfl⟩ := mem_tombstoneRows buried'
    rw [Option.some.inj (found.symm.trans found')]
  · exact absurd (own_buried buried) (alien foreign')
  · exact absurd (own_live live') (alien foreign)
  · exact absurd (own_buried buried') (alien foreign)
  · obtain ⟨-, e, found, rfl⟩ := mem_foreignRows.mp foreign
    obtain ⟨-, e', found', rfl⟩ := mem_foreignRows.mp foreign'
    rw [Option.some.inj (found.symm.trans found')]

theorem get?_fullIndex_iff : (s.fullIndex scope).get? k = some v ↔ s.IsRow scope k v := by
  have listed : ∀ {v}, (s.fullIndex scope).get? k = some v → s.IsRow scope k v := by
    intro v found
    rcases mem_of_get?_insertAll found with foreign | own
    · exact .inr (.inr foreign)
    · rcases mem_localIndex own with live | buried
      · exact .inl live
      · exact .inr (.inl buried)
  constructor
  · exact listed
  · intro row
    obtain ⟨w, found⟩ := Option.isSome_iff_exists.mp (isSome_fullIndex row)
    rw [found, row.unique (listed found)]

/-! ### States that agree on some datasets -/

/-- Registries with the same datasets and flags, and the same entries in the listed
datasets. -/
structure RegistriesAgree (allowed : List String) (reg reg' : LocalRegistryView) : Prop where
  listDatasets : reg'.listDatasets = reg.listDatasets
  isAuthRequired : ∀ dataset, reg'.isAuthRequired dataset = reg.isAuthRequired dataset
  listEntries : ∀ dataset ∈ allowed, ∀ e, e ∈ reg'.listEntries dataset ↔ e ∈ reg.listEntries dataset
  getEntry : ∀ dataset ∈ allowed, ∀ serviceId,
    reg'.getEntry dataset serviceId = reg.getEntry dataset serviceId

/-- Two states that differ at most in the records of datasets that are not listed. -/
structure Agree (allowed : List String) (s s' : ClusterStore) : Prop where
  nodeId : s'.nodeId = s.nodeId
  sessions : s'.sessions = s.sessions
  merkleBuckets : s'.merkleBuckets = s.merkleBuckets
  authEnabled : s'.authEnabled = s.authEnabled
  registry : Option.Rel (RegistriesAgree allowed) s.registry s'.registry
  localVersions : ∀ dataset ∈ allowed, ∀ serviceId,
    s'.state.localVersions.get? (makeKey dataset serviceId) =
      s.state.localVersions.get? (makeKey dataset serviceId)
  tombstones : ∀ dataset ∈ allowed, ∀ serviceId,
    s'.state.tombstones.get? (makeKey dataset serviceId) =
      s.state.tombstones.get? (makeKey dataset serviceId)
  foreign : ∀ k : Key, k.dataset ∈ allowed → s'.foreign.get? k = s.foreign.get? k

namespace Agree

variable {allowed : List String} (agree : Agree allowed s s')
include agree

theorem registries : (s.registry = none ∧ s'.registry = none) ∨ ∃ reg reg',
    s.registry = some reg ∧ s'.registry = some reg' ∧ RegistriesAgree allowed reg reg' := by
  have related := agree.registry
  generalize s.registry = here at related
  generalize s'.registry = there at related
  cases related with
  | none => exact .inl ⟨rfl, rfl⟩
  | some same => exact .inr ⟨_, _, rfl, rfl, same⟩

theorem mem_present_iff {dataset : String} (mem : dataset ∈ allowed) (serviceId : String) :
    (dataset, serviceId) ∈ s'.present ↔ (dataset, serviceId) ∈ s.present := by
  rw [mem_present, mem_present]
  rcases agree.registries with ⟨here, there⟩ | ⟨reg, reg', here, there, same⟩
  · rw [here, there]
  · simp only [here, there, Option.some.injEq, exists_eq_left', same.listDatasets,
      same.listEntries dataset mem]

theorem registry_isSome : s'.registry.isSome = s.registry.isSome := by
  rcases agree.registries with ⟨here, there⟩ | ⟨reg, reg', here, there, -⟩ <;> rw [here, there]
  rfl

/-- The states have the same rows in the listed datasets. -/
theorem row_iff (mem : k.dataset ∈ allowed) : s'.IsRow scope k v ↔ s.IsRow scope k v := by
  rw [IsRow, IsRow, mem_liveRows_iff, mem_liveRows_iff, mem_tombstoneRows_iff,
    mem_tombstoneRows_iff, mem_foreignRows, mem_foreignRows, agree.nodeId, agree.registry_isSome,
    agree.mem_present_iff mem, agree.localVersions _ mem, agree.tombstones _ mem,
    agree.foreign k mem]

theorem visibleIndex (k : Key) :
    (s'.visibleIndex allowed).get? k = (s.visibleIndex allowed).get? k := by
  apply Option.ext
  intro v
  rw [ClusterStore.visibleIndex, ClusterStore.visibleIndex, get?_retain,
    get?_retain, Option.filter_eq_some_iff, Option.filter_eq_some_iff,
    get?_fullIndex_iff, get?_fullIndex_iff, contains_iff_mem]
  exact and_congr_left fun mem => agree.row_iff mem

theorem buildEnvelopeForKey (mem : k.dataset ∈ allowed) :
    s'.buildEnvelopeForKey k = s.buildEnvelopeForKey k := by
  rw [ClusterStore.buildEnvelopeForKey, ClusterStore.buildEnvelopeForKey, agree.nodeId,
    agree.foreign k mem, buildLocalEnvelope, buildLocalEnvelope, agree.nodeId,
    agree.tombstones _ mem, agree.localVersions _ mem]
  rcases agree.registries with ⟨here, there⟩ | ⟨reg, reg', here, there, same⟩
  · rw [here, there]
  · rw [here, there]
    cases s.state.localVersions.get? (makeKey k.dataset k.serviceId) with
    | none => rfl
    | some version => simp only [same.getEntry _ mem]

theorem isAuthed (fromNode : String) (token : Option String) :
    s'.isAuthed fromNode token = s.isAuthed fromNode token := by
  rw [ClusterStore.isAuthed, ClusterStore.isAuthed, agree.authEnabled, agree.sessions]

theorem publicNamespaces : s'.publicNamespaces = s.publicNamespaces := by
  rw [ClusterStore.publicNamespaces, ClusterStore.publicNamespaces, agree.authEnabled]
  rcases agree.registries with ⟨here, there⟩ | ⟨reg, reg', here, there, same⟩
  · rw [here, there]
  · simp only [here, there, same.listDatasets, same.isAuthRequired]

theorem allowedFor (fromNode : String) (requested : Option (List String)) (token : Option String) :
    s'.allowedFor fromNode requested token = s.allowedFor fromNode requested token := by
  simp only [ClusterStore.allowedFor, agree.isAuthed, agree.sessions, agree.publicNamespaces]

end Agree

/-! ### What is served -/

theorem allowedFor_touchPeer (id fromNode : String) (now : Int) (requested : Option (List String))
    (token : Option String) : (s.touchPeer id now).allowedFor fromNode requested token =
      s.allowedFor fromNode requested token := by
  have heard := (touchPeer_heard s id now).1
  have shared : (s.touchPeer id now).publicNamespaces = s.publicNamespaces := by
    rw [publicNamespaces, publicNamespaces, heard.registry, heard.authEnabled]
  simp only [allowedFor, isAuthed_touchPeer, shared, get?_touchPeer]
  cases s.sessions.get? fromNode with
  | none => rfl
  | some session =>
    by_cases here : fromNode = id
    · simp only [if_pos here]
      cases s.isAuthed fromNode token <;> rfl
    · simp only [Option.map_some, if_neg here]

section Replies

variable {H : Sha256} (clocks : Clocks) (fromNode : String) (requested : Option (List String))
  (token : Option String)

theorem serveDigest_rows (ensured : Ensured s) (buckets : Option (List Nat)) :
    (s.serveDigest H clocks fromNode requested token buckets).1 =
      ((s.visibleIndex (s.allowedFor fromNode requested token)).entries.filter fun e =>
        buckets.all fun b => b.contains (bucketOf H e.1 s.merkleBuckets)).mergeSort entryLe := by
  have touched := touchPeer_heard s fromNode (clocks.monotonic 1)
  have nothing := (ensured.heard touched.1).ensureLocalVersions_eq clocks.wall
  simp only [serveDigest, nothing, allowedFor_touchPeer]
  rw [touched.1.visibleIndex touched.2, touched.1.merkleBuckets]

theorem serveMerkle_hashes (ensured : Ensured s) :
    (s.serveMerkle H clocks fromNode requested token).1 =
      bucketHashes H (s.visibleIndex (s.allowedFor fromNode requested token)) s.merkleBuckets := by
  have touched := touchPeer_heard s fromNode (clocks.monotonic 0)
  have nothing := (ensured.heard touched.1).ensureLocalVersions_eq clocks.wall
  simp only [serveMerkle, nothing, allowedFor_touchPeer]
  rw [touched.1.visibleIndex touched.2, touched.1.merkleBuckets]

theorem servePull_envelopes (keys : List Key) :
    (s.servePull clocks fromNode keys token).1 =
      (keys.filter fun k => (s.allowedFor fromNode none token).contains k.dataset).filterMap
        s.buildEnvelopeForKey := by
  have touched := touchPeer_heard s fromNode (clocks.monotonic 2)
  simp only [servePull, allowedFor_touchPeer]
  apply filterMap_congr
  intro k _
  exact touched.1.buildEnvelopeForKey (by rw [touched.2])

theorem allowedFor_unauthed (auth : s.authEnabled = true)
    (unmatched : ¬∃ session secret, s.sessions.get? fromNode = some session ∧
      session.token = some secret ∧ token = some secret)
    {dataset : String} (mem : dataset ∈ s.allowedFor fromNode requested token) :
    s.isPublic dataset = true := by
  have unauthed : s.isAuthed fromNode token = false := by
    rw [← Bool.not_eq_true, isAuthed_iff auth]
    exact unmatched
  have shared : dataset ∈ s.publicNamespaces := by
    simp only [allowedFor, unauthed] at mem
    split at mem
    · exact mem
    · split at mem
      · exact mem
      · exact mem_of_mem_filter mem
  rw [publicNamespaces] at shared
  rw [isPublic]
  cases registry : s.registry with
  | none =>
    rw [registry] at shared
    cases shared
  | some reg =>
    rw [registry] at shared
    simpa [auth] using shared

/-- States that agree on the allowed datasets serve the same to a caller. -/
theorem served_agree (auth : s.authEnabled = true) (ensured : Ensured s) (ensured' : Ensured s')
    (agree : Agree (s.allowedFor fromNode requested token) s s') (clocks' : Clocks) :
    (∀ buckets, (s'.serveDigest H clocks' fromNode requested token buckets).1 =
        (s.serveDigest H clocks fromNode requested token buckets).1) ∧
      (∀ bucket, (s'.serveMerkle H clocks' fromNode requested token).1.get? bucket =
        (s.serveMerkle H clocks fromNode requested token).1.get? bucket) ∧
      (∀ keys : List Key, (∀ k ∈ keys, k.dataset ∈ s.allowedFor fromNode none token →
          k.dataset ∈ s.allowedFor fromNode requested token) →
        (s'.servePull clocks' fromNode keys token).1 =
          (s.servePull clocks fromNode keys token).1) ∧
      ((¬∃ session secret, s.sessions.get? fromNode = some session ∧
          session.token = some secret ∧ token = some secret) →
        ∀ reg, s.registry = some reg → ∀ dataset ∈ s.allowedFor fromNode requested token,
          reg.isAuthRequired dataset = false) := by
  refine ⟨?_, ?_, ?_, ?_⟩
  · intro buckets
    rw [serveDigest_rows _ _ _ _ ensured', serveDigest_rows _ _ _ _ ensured, agree.allowedFor,
      agree.merkleBuckets]
    apply mergeSort_congr
    · exact (nodup_entries _).filter _
    · exact (nodup_entries _).filter _
    · intro row
      rw [List.mem_filter, List.mem_filter, mem_entries_congr agree.visibleIndex]
  · intro bucket
    rw [serveMerkle_hashes _ _ _ _ ensured', serveMerkle_hashes _ _ _ _ ensured, agree.allowedFor,
      agree.merkleBuckets]
    exact bucketHashes_congr agree.visibleIndex _ _
  · intro keys requestedOnly
    rw [servePull_envelopes, servePull_envelopes, agree.allowedFor]
    apply List.filterMap_congr
    intro k mem
    obtain ⟨mem, allowed⟩ := List.mem_filter.mp mem
    exact agree.buildEnvelopeForKey (requestedOnly k mem (List.contains_iff_mem.mp allowed))
  · intro unmatched reg registry dataset mem
    have shared := allowedFor_unauthed fromNode requested token auth unmatched mem
    rw [isPublic, registry] at shared
    simpa using (Bool.and_eq_true_iff.mp shared).2

end Replies

end ClusterStore

/-! ### A pull beyond the requested namespaces -/

namespace Narrowed

def record : SyncEnvelope := ⟨"b", "x", "C", ⟨1, "C"⟩, false, none⟩

/-- A node without records, whose session with `B` syncs two datasets. -/
def home : ClusterStore where
  state := .new "A"
  foreign := .empty
  sessions := OrderedMap.empty.insert "B" ⟨"B", "B", ["a", "b"], 0, some "t"⟩
  evictedUntil := .empty
  registry := none
  merkleBuckets := 256
  authEnabled := true
  keyed := foreign_empty_keyed
  notOwn := foreign_empty_notOwn "A"

/-- The same node with a foreign record. -/
def other : ClusterStore := (home.applyInbound 0 record).1

def clocks : Clocks := ⟨fun _ => 5, fun _ => 0⟩

theorem agree : ClusterStore.Agree (home.allowedFor "B" (some ["a"]) (some "t")) home other where
  nodeId := rfl
  sessions := rfl
  merkleBuckets := rfl
  authEnabled := rfl
  registry := .none
  localVersions _ _ _ := rfl
  tombstones _ _ _ := rfl
  foreign := by
    intro k mem
    have ne : k ≠ record.key := by
      rintro rfl
      exact absurd mem (by decide)
    have stored : other.foreign = OrderedMap.empty.insert record.key record := rfl
    rw [stored, get?_insert_of_ne ne]
    rfl

theorem ensured : ClusterStore.Ensured home := by rintro r ⟨⟩

theorem ensured_other : ClusterStore.Ensured other := by rintro r ⟨⟩

/-- Digests do not show the record, and neither do the bucket hashes. -/
theorem digest_sees_less :
    (other.serveDigest Unaccepted.zeros clocks "B" (some ["a"]) (some "t") none).1 =
        (home.serveDigest Unaccepted.zeros clocks "B" (some ["a"]) (some "t") none).1 ∧
      (other.serveMerkle Unaccepted.zeros clocks "B" (some ["a"]) (some "t")).1.get? "0" =
        (home.serveMerkle Unaccepted.zeros clocks "B" (some ["a"]) (some "t")).1.get? "0" := by
  obtain ⟨digest, merkle, -, -⟩ := ClusterStore.served_agree (H := Unaccepted.zeros) clocks "B"
    (some ["a"]) (some "t") rfl ensured ensured_other agree clocks
  exact ⟨digest none, merkle "0"⟩

/-- A pull of its key does. -/
theorem pull_sees_more :
    ClusterStore.Agree (home.allowedFor "B" (some ["a"]) (some "t")) home other ∧
      ClusterStore.Ensured home ∧ ClusterStore.Ensured other ∧
      (other.servePull clocks "B" [record.key] (some "t")).1 ≠
        (home.servePull clocks "B" [record.key] (some "t")).1 := by
  refine ⟨agree, ensured, ensured_other, ?_⟩
  exact List.cons_ne_nil _ _

end Narrowed

end AgentProtocols.Cluster
