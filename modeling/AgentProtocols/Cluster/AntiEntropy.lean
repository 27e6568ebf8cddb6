import AgentProtocols.Cluster.Reconcile

/-!
Anti-entropy between two nodes of an open cluster converges.

`reconcile_exchange` reads `reconcile`, with a peer that can answer (`Linked`), as two lists of
offers; the differing buckets suffice for that (`shown_of_differ`). `reconcile_converges`: each
overlay goes to the join of the two indices on the shared namespaces.
-/

namespace AgentProtocols.Cluster

open Lib Merkle OrderedMap

namespace ClusterStore

variable {s s' s'' t t' : ClusterStore} {me : String} {ns : List String}

/-! ### What a request leaves as it is -/

/-- `s'` is `s` up to its overlay and the times of last contact. -/
structure Heard (s s' : ClusterStore) : Prop where
  state : s'.state = s.state
  namespaces : ∀ id, (s'.sessions.get? id).map Peer.namespaces =
    (s.sessions.get? id).map Peer.namespaces
  evictedUntil : s'.evictedUntil = s.evictedUntil
  registry : s'.registry = s.registry
  merkleBuckets : s'.merkleBuckets = s.merkleBuckets
  authEnabled : s'.authEnabled = s.authEnabled

theorem Heard.trans (first : Heard s s') (second : Heard s' s'') : Heard s s'' where
  state := second.state.trans first.state
  namespaces id := (second.namespaces id).trans (first.namespaces id)
  evictedUntil := second.evictedUntil.trans first.evictedUntil
  registry := second.registry.trans first.registry
  merkleBuckets := second.merkleBuckets.trans first.merkleBuckets
  authEnabled := second.authEnabled.trans first.authEnabled

theorem SameNode.heard (same : SameNode s s') : Heard s s' where
  state := same.state
  namespaces id := by rw [same.sessions]
  evictedUntil := same.evictedUntil
  registry := same.registry
  merkleBuckets := same.merkleBuckets
  authEnabled := same.authEnabled

theorem Heard.refl (s : ClusterStore) : Heard s s := (SameNode.refl s).heard

theorem touchPeer_heard (s : ClusterStore) (id : String) (now : Int) :
    Heard s (s.touchPeer id now) ∧ (s.touchPeer id now).foreign = s.foreign := by
  rw [touchPeer]
  split
  · exact ⟨.refl s, rfl⟩
  · rename_i p found
    refine ⟨⟨rfl, ?_, rfl, rfl, rfl, rfl⟩, rfl⟩
    intro j
    simp only [get?_insert]
    split
    · rename_i here
      rw [here, found]
      rfl
    · rfl

section Heard

variable (heard : Heard s s')
include heard

theorem Heard.nodeId : s'.nodeId = s.nodeId := by rw [ClusterStore.nodeId, heard.state]; rfl

theorem Heard.present : s'.present = s.present := by
  rw [ClusterStore.present, ClusterStore.present, heard.registry]

theorem Heard.localIndex (scope : Option (List String)) :
    s'.localIndex scope = s.localIndex scope := by
  rw [ClusterStore.localIndex, ClusterStore.localIndex, liveRows, liveRows, tombstoneRows,
    tombstoneRows, ClusterStore.nodeId, ClusterStore.nodeId, heard.state, heard.registry]

theorem Heard.fullIndex (foreign : s'.foreign = s.foreign) (scope : Option (List String)) :
    s'.fullIndex scope = s.fullIndex scope := by
  rw [ClusterStore.fullIndex, ClusterStore.fullIndex, heard.localIndex, foreignRows, foreignRows,
    foreign]

theorem Heard.buildLocalEnvelope (dataset serviceId : String) :
    s'.buildLocalEnvelope dataset serviceId = s.buildLocalEnvelope dataset serviceId := by
  rw [ClusterStore.buildLocalEnvelope, ClusterStore.buildLocalEnvelope, heard.nodeId, heard.state,
    heard.registry]

theorem Heard.buildEnvelopeForKey {k : Key} (foreign : s'.foreign.get? k = s.foreign.get? k) :
    s'.buildEnvelopeForKey k = s.buildEnvelopeForKey k := by
  rw [ClusterStore.buildEnvelopeForKey, ClusterStore.buildEnvelopeForKey, heard.nodeId, foreign,
    heard.buildLocalEnvelope]

theorem Heard.filing (now : Int) : s'.filing now = s.filing now := by
  rw [ClusterStore.filing, ClusterStore.filing, heard.nodeId, heard.evictedUntil]

end Heard

/-- Every local record has a version or a tombstone. -/
def Ensured (s : ClusterStore) : Prop :=
  ∀ r ∈ s.present, s.state.isVersioned (makeKey r.1 r.2) = true

theorem ensured_ensureLocalVersions (s : ClusterStore) (wall : Nat → Int) :
    Ensured (s.ensureLocalVersions wall) := by
  intro r mem
  exact ClusterState.isVersioned_ensureVersions wall mem

theorem Ensured.heard (ensured : Ensured s) (heard : Heard s s') : Ensured s' := by
  intro r mem
  rw [heard.present] at mem
  rw [heard.state]
  exact ensured r mem

theorem Ensured.ensureLocalVersions_eq (ensured : Ensured s) (wall : Nat → Int) :
    s.ensureLocalVersions wall = s := by
  have same : s.state.ensureVersions wall s.present = s.state :=
    ClusterState.ensureVersions_of_versioned wall ensured
  simp only [ensureLocalVersions, withState, same]

/-! ### The handlers of a linked peer -/

/-- A node of an open cluster with a session with `me` for `ns`. -/
structure Linked (me : String) (ns : List String) (t : ClusterStore) : Prop where
  isOpen : t.authEnabled = false
  session : (t.sessions.get? me).map Peer.namespaces = some ns
  calm : t.suppressedOrigins = []

variable (linked : Linked me ns t)

include linked

theorem Linked.heard (heard : Heard t t') : Linked me ns t' where
  isOpen := heard.authEnabled.trans linked.isOpen
  session := (heard.namespaces me).trans linked.session
  calm := by rw [suppressedOrigins, heard.evictedUntil]; exact linked.calm

theorem Linked.ensureLocalVersions (wall : Nat → Int) :
    Linked me ns (t.ensureLocalVersions wall) := ⟨linked.isOpen, linked.session, linked.calm⟩

theorem Linked.admits_iff {now : Int} {e : SyncEnvelope} :
    (t.filing now).admits e = true ↔ e.originId ≠ t.nodeId := by
  have free : t.evictedUntil.get? e.originId = none := by
    rw [get?_eq_none_iff, ← suppressedOrigins, linked.calm]
    exact List.not_mem_nil
  rw [ClusterStore.admits_iff, free]
  simp

theorem Linked.allowedFor (token : Option String)
    {requested : Option (List String)} (whole : requested = none ∨ requested = some ns) :
    t.allowedFor me requested token = ns := by
  obtain ⟨p, found, rfl⟩ := Option.map_eq_some_iff.mp linked.session
  have authed : t.isAuthed me token = true := by simp [isAuthed, linked.isOpen]
  simp only [ClusterStore.allowedFor, authed, found]
  rcases whole with rfl | rfl
  · rfl
  · simp

theorem Linked.mayAccept (dataset : String) (token : Option String) :
    t.mayAccept me dataset token = true := by
  simp [ClusterStore.mayAccept, linked.isOpen]

omit linked

theorem get?_visibleIndex (nonempty : ns ≠ []) (k : Key) :
    (t.visibleIndex ns).get? k = (t.fullIndex (some ns)).get? k := by
  rw [visibleIndex, get?_retain]
  cases found : (t.fullIndex (some ns)).get? k with
  | none => rfl
  | some v =>
    have admitted := fullIndex_inScope found
    simp only [inScope, List.isEmpty_iff, nonempty, Bool.or_eq_true, false_or] at admitted
    rw [Option.filter_some, if_pos admitted]

theorem Heard.visibleIndex (heard : Heard t t') (foreign : t'.foreign = t.foreign) :
    t'.visibleIndex ns = t.visibleIndex ns := by
  rw [ClusterStore.visibleIndex, ClusterStore.visibleIndex, heard.fullIndex foreign]

variable {H : Sha256}

/-- `t` after one of its handlers ran: heard from its peer, with the same overlay. -/
def Served (t t' : ClusterStore) : Prop := Heard t t' ∧ t'.foreign = t.foreign

theorem Served.trans {t'' : ClusterStore} (first : Served t t') (second : Served t' t'') :
    Served t t'' := ⟨first.1.trans second.1, second.2.trans first.2⟩

theorem Served.ensureLocalVersions (served : Served t t') (wall : Nat → Int) :
    Served (t.ensureLocalVersions wall) (t'.ensureLocalVersions wall) := by
  obtain ⟨heard, foreign⟩ := served
  refine ⟨⟨?_, heard.namespaces, heard.evictedUntil, heard.registry, heard.merkleBuckets,
    heard.authEnabled⟩, foreign⟩
  simp only [ClusterStore.ensureLocalVersions, withState, heard.state, heard.present]

theorem serveMerkle_eq (linked : Linked me ns t) (clocks : Clocks) (token : Option String) :
    (t.serveMerkle H clocks me (some ns) token).1 =
        bucketHashes H ((t.ensureLocalVersions clocks.wall).visibleIndex ns) t.merkleBuckets ∧
      Served (t.ensureLocalVersions clocks.wall) (t.serveMerkle H clocks me (some ns) token).2 := by
  have touched : Served t (t.touchPeer me (clocks.monotonic 0)) := touchPeer_heard _ _ _
  have ensured := touched.ensureLocalVersions clocks.wall
  refine ⟨?_, ensured⟩
  simp only [serveMerkle, (linked.heard touched.1).allowedFor token (.inr rfl)]
  rw [ensured.1.visibleIndex ensured.2, ensured.1.merkleBuckets]
  rfl

theorem serveDigest_eq (linked : Linked me ns t) (ensured : Ensured t) (clocks : Clocks)
    (token : Option String) (diff : List Nat) :
    (∀ row, row ∈ (t.serveDigest H clocks me (some ns) token (some diff)).1 ↔
        (t.visibleIndex ns).get? row.1 = some row.2 ∧ bucketOf H row.1 t.merkleBuckets ∈ diff) ∧
      Served t (t.serveDigest H clocks me (some ns) token (some diff)).2 := by
  have touched : Served t (t.touchPeer me (clocks.monotonic 1)) := touchPeer_heard _ _ _
  have nothing := (ensured.heard touched.1).ensureLocalVersions_eq clocks.wall
  simp only [serveDigest, nothing, (linked.heard touched.1).allowedFor token (.inr rfl)]
  refine ⟨?_, touched⟩
  intro row
  rw [touched.1.visibleIndex touched.2, touched.1.merkleBuckets, List.mem_mergeSort,
    List.mem_filter, ← get?_eq_some_iff]
  simp

theorem servePull_eq (linked : Linked me ns t) (clocks : Clocks) (keys : List Key)
    (token : Option String) :
    (t.servePull clocks me keys token).1 =
        (keys.filter fun k => ns.contains k.dataset).filterMap t.buildEnvelopeForKey ∧
      Served t (t.servePull clocks me keys token).2 := by
  have touched : Served t (t.touchPeer me (clocks.monotonic 2)) := touchPeer_heard _ _ _
  simp only [servePull, (linked.heard touched.1).allowedFor token (.inl rfl)]
  refine ⟨?_, touched⟩
  apply List.filterMap_congr
  intro k _
  exact touched.1.buildEnvelopeForKey (by rw [touched.2])

theorem serveEnvelopes_eq (now : Int) (token : Option String) (envs : List SyncEnvelope) :
    ∀ {t : ClusterStore}, Linked me ns t →
      serveEnvelopes now me token t envs = ((applyAll now t envs).1, (applyAll now t envs).2, 0) := by
  induction envs with
  | nil => exact fun _ => rfl
  | cons env envs ih =>
    intro t linked
    have rest := ih (linked.heard (@applyInbound_sameNode t now env).heard)
    simp only [serveEnvelopes, applyAll, linked.mayAccept, rest, Bool.not_true, Bool.false_eq_true,
      if_false]

theorem serveUpdates_eq (linked : Linked me ns t) (clocks : Clocks) (envs : List SyncEnvelope)
    (token : Option String) :
    Heard t (t.serveUpdates clocks me envs token).2 ∧
      (t.serveUpdates clocks me envs token).2.foreign =
        (t.filing (clocks.monotonic 3)).offerAll t.foreign envs ∧
      (t.serveUpdates clocks me envs token).1.accepted =
        (t.filing (clocks.monotonic 3)).winners t.foreign envs := by
  have touched : Served t (t.touchPeer me (clocks.monotonic 3)) := touchPeer_heard _ _ _
  obtain ⟨same, foreign, count⟩ := applyAll_eq (clocks.monotonic 3) envs
    (t.touchPeer me (clocks.monotonic 3))
  rw [touched.1.filing, touched.2] at foreign count
  simp only [serveUpdates, serveEnvelopes_eq _ _ _ (linked.heard touched.1)]
  exact ⟨touched.1.trans same.heard, foreign, count⟩

/-! ### Reconciliation as an exchange of offers -/

/-- What an index shows in the given buckets. -/
def view (H : Sha256) (diff : List Nat) (buckets : Nat) (index : OrderedMap Key Version) (k : Key) :
    Option Version :=
  if bucketOf H k buckets ∈ diff then index.get? k else none

theorem view_eq_some {diff : List Nat} {buckets : Nat} {index : OrderedMap Key Version} {k : Key}
    {v : Version} : view H diff buckets index k = some v ↔
      index.get? k = some v ∧ bucketOf H k buckets ∈ diff := by
  rw [view]
  split
  · rename_i mem
    exact ⟨fun found => ⟨found, mem⟩, fun found => found.1⟩
  · rename_i absent
    exact ⟨fun found => (Option.some_ne_none v found.symm).elim, fun found => (absent found.2).elim⟩

theorem get?_retain_view {diff : List Nat} {buckets : Nat} {index : OrderedMap Key Version}
    (k : Key) : (index.retain fun k _ => diff.contains (bucketOf H k buckets)).get? k =
      view H diff buckets index k := by
  apply Option.ext
  intro v
  rw [get?_retain, view_eq_some]
  simp

theorem mem_newerRows {order : HashOrder} {index known : OrderedMap Key Version} {k : Key} :
    k ∈ newerRows order index known ↔
      ∃ v, index.get? k = some v ∧ versionNewer v (known.get? k) = true := by
  simp only [newerRows, List.mem_map, List.mem_filter, (order.perm index).mem_iff]
  constructor
  · rintro ⟨⟨j, v⟩, ⟨listed, newer⟩, rfl⟩
    exact ⟨v, get?_eq_some_iff.mpr listed, newer⟩
  · rintro ⟨v, found, newer⟩
    exact ⟨(k, v), ⟨get?_eq_some_iff.mp found, newer⟩, rfl⟩

theorem pullFrom_eq {peer : Peer} (linked : Linked s.nodeId ns t) (clocks clocks' : Clocks)
    (toPull : List Key) (pull : List SyncEnvelope)
    (built : (toPull.filter fun k => ns.contains k.dataset).filterMap t.buildEnvelopeForKey = pull) :
    SameNode s (pullFrom peer clocks clocks' toPull s t).2.1 ∧
      (pullFrom peer clocks clocks' toPull s t).2.1.foreign =
        (s.filing (clocks.monotonic 0)).offerAll s.foreign pull ∧
      (pullFrom peer clocks clocks' toPull s t).1 =
        (s.filing (clocks.monotonic 0)).winners s.foreign pull ∧
      Served t (pullFrom peer clocks clocks' toPull s t).2.2 := by
  rw [pullFrom]
  split
  · rename_i nothing
    rw [nothing] at built
    rw [← built]
    exact ⟨.refl s, rfl, rfl, .refl t, rfl⟩
  · obtain ⟨envs, served⟩ := servePull_eq linked clocks' toPull peer.token
    rw [built] at envs
    obtain ⟨same, foreign, count⟩ := applyAll_eq (clocks.monotonic 0) pull s
    simp only [envs]
    exact ⟨same, foreign, count, served⟩

theorem pushTo_eq {peer : Peer} (linked : Linked s.nodeId ns t) (clocks' : Clocks)
    (toPush : List Key) (push : List SyncEnvelope)
    (built : toPush.filterMap s.buildEnvelopeForKey = push) :
    Heard t (pushTo peer clocks' toPush s t).2 ∧ (pushTo peer clocks' toPush s t).2.foreign =
        (t.filing (clocks'.monotonic 3)).offerAll t.foreign push ∧
      (pushTo peer clocks' toPush s t).1 =
        (t.filing (clocks'.monotonic 3)).winners t.foreign push := by
  simp only [pushTo, built]
  split
  · rename_i nothing
    rw [nothing]
    exact ⟨.refl t, rfl, rfl⟩
  · exact serveUpdates_eq linked clocks' push peer.token

/-- Rows of the index, among them every row of a differing bucket that the other side lacks. -/
structure Offers (index : OrderedMap Key Version) (mine theirs : Key → Option Version)
    (offers : List SyncEnvelope) : Prop where
  indexed : ∀ e ∈ offers, index.get? e.key = some e.version
  newer : ∀ k v, mine k = some v → versionNewer v (theirs k) = true →
    ∃ e ∈ offers, e.key = k ∧ e.version = v

/-- A reconciliation of `s` with `t` that ends in `s'` and `t'`. -/
structure Exchange (H : Sha256) (ns : List String) (diff : List Nat) (s t s' t' : ClusterStore)
    (now now' : Int) (pull push : List SyncEnvelope) (result : ReconcileResult) : Prop where
  here : Heard s s'
  there : Heard t t'
  foreign : s'.foreign = (s.filing now).offerAll s.foreign pull
  foreign' : t'.foreign = (t.filing now').offerAll t.foreign push
  pulled : result.pulled = (s.filing now).winners s.foreign pull
  pushed : result.pushed = (t.filing now').winners t.foreign push
  pulls : Offers (t.fullIndex (some ns))
    (view H diff t.merkleBuckets (t.fullIndex (some ns)))
    (view H diff s.merkleBuckets (s.fullIndex (some ns))) pull
  pushes : Offers (s.fullIndex (some ns))
    (view H diff s.merkleBuckets (s.fullIndex (some ns)))
    (view H diff t.merkleBuckets (t.fullIndex (some ns))) push

theorem dataset_mem_of_fullIndex (nonempty : ns ≠ []) {k : Key} {v : Version}
    (found : (s.fullIndex (some ns)).get? k = some v) : k.dataset ∈ ns := by
  have admitted := fullIndex_inScope found
  simpa [inScope, nonempty] using admitted

variable {mine theirs : Key → Option Version} {offers : List SyncEnvelope}

theorem offers_of_keys {keys : List Key}
    (sub : ∀ k v, mine k = some v → (s.fullIndex (some ns)).get? k = some v)
    (listed : ∀ k, k ∈ keys ↔ ∃ v, mine k = some v ∧ versionNewer v (theirs k) = true) :
    Offers (s.fullIndex (some ns)) mine theirs (keys.filterMap s.buildEnvelopeForKey) where
  indexed := by
    intro e mem
    obtain ⟨k, inKeys, built⟩ := List.mem_filterMap.mp mem
    obtain ⟨v, shown, -⟩ := (listed k).mp inKeys
    obtain ⟨env, built', key, version⟩ := built_of_fullIndex (sub k v shown)
    rw [built] at built'
    cases built'
    rw [key, version]
    exact sub k v shown
  newer := by
    intro k v shown newer
    obtain ⟨env, built, key, version⟩ := built_of_fullIndex (sub k v shown)
    exact ⟨env, List.mem_filterMap.mpr ⟨k, (listed k).mpr ⟨v, shown, newer⟩, built⟩, key, version⟩

theorem not_mem_both {order : HashOrder} {mine theirs : OrderedMap Key Version} {k : Key}
    (pulled : k ∈ newerRows order theirs mine) : k ∉ newerRows order mine theirs := by
  intro pushed
  obtain ⟨v, found, newer⟩ := mem_newerRows.mp pulled
  obtain ⟨w, found', newer'⟩ := mem_newerRows.mp pushed
  rw [found'] at newer
  rw [found] at newer'
  exact lt_asymm (of_decide_eq_true newer) (of_decide_eq_true newer')

theorem exchange_of_rows {order : HashOrder} {peer : Peer} {diff : List Nat}
    {mine theirs : OrderedMap Key Version} (nonempty : ns ≠ []) (linked : Linked s.nodeId ns t)
    (served : Served t t') (clocks clocks' : Clocks)
    (rows : ∀ k, mine.get? k = view H diff s.merkleBuckets (s.fullIndex (some ns)) k)
    (rows' : ∀ k, theirs.get? k = view H diff t.merkleBuckets (t.fullIndex (some ns)) k)
    {afterPull : Nat × ClusterStore × ClusterStore} {afterPush : Nat × ClusterStore}
    (pull : pullFrom peer clocks clocks' (newerRows order theirs mine) s t' = afterPull)
    (push : pushTo peer clocks' (newerRows order mine theirs) afterPull.2.1 afterPull.2.2 =
      afterPush) :
    ∃ now now' pull push, Exchange H ns diff s t afterPull.2.1 afterPush.2 now now' pull push
      ⟨afterPull.1, afterPush.1⟩ := by
  have toPull : ∀ k, k ∈ newerRows order theirs mine ↔
      ∃ v, view H diff t.merkleBuckets (t.fullIndex (some ns)) k = some v ∧
        versionNewer v (view H diff s.merkleBuckets (s.fullIndex (some ns)) k) = true := by
    intro k
    rw [mem_newerRows, rows, rows']
  have toPush : ∀ k, k ∈ newerRows order mine theirs ↔
      ∃ v, view H diff s.merkleBuckets (s.fullIndex (some ns)) k = some v ∧
        versionNewer v (view H diff t.merkleBuckets (t.fullIndex (some ns)) k) = true := by
    intro k
    rw [mem_newerRows, rows, rows']
  have pulls := offers_of_keys (fun k v shown => (view_eq_some.mp shown).1) toPull
  have pushes := offers_of_keys (fun k v shown => (view_eq_some.mp shown).1) toPush
  -- every key that is asked for lies in the namespaces, and the peer built nothing else
  have built : ((newerRows order theirs mine).filter fun k => ns.contains k.dataset).filterMap
      t'.buildEnvelopeForKey = (newerRows order theirs mine).filterMap t.buildEnvelopeForKey := by
    rw [List.filter_eq_self.mpr]
    · apply List.filterMap_congr
      intro k _
      exact served.1.buildEnvelopeForKey (by rw [served.2])
    · intro k mem
      obtain ⟨v, shown, -⟩ := (toPull k).mp mem
      simpa using dataset_mem_of_fullIndex nonempty (view_eq_some.mp shown).1
  obtain ⟨same, foreign, pulled, served'⟩ :=
    pullFrom_eq (linked.heard served.1) clocks clocks' _ _ built
  rw [pull] at same foreign pulled served'
  -- what is pushed was not pulled, so it is what it was before the pull
  have built' : (newerRows order mine theirs).filterMap afterPull.2.1.buildEnvelopeForKey =
      (newerRows order mine theirs).filterMap s.buildEnvelopeForKey := by
    apply List.filterMap_congr
    intro k pushed
    apply same.heard.buildEnvelopeForKey
    rw [foreign]
    apply Filing.get?_offerAll
    rintro e mem - rfl
    obtain ⟨j, asked, made⟩ := List.mem_filterMap.mp mem
    obtain ⟨v, shown, -⟩ := (toPull j).mp asked
    obtain ⟨env, made', key, -⟩ := built_of_fullIndex (view_eq_some.mp shown).1
    rw [made] at made'
    cases made'
    rw [← key] at asked
    exact not_mem_both asked pushed
  have linked' : Linked afterPull.2.1.nodeId ns afterPull.2.2 := by
    rw [same.heard.nodeId]
    exact linked.heard (served.trans served').1
  obtain ⟨heard', foreign', pushed⟩ := pushTo_eq linked' clocks' _ _ built'
  rw [push] at heard' foreign' pushed
  have through := served.trans served'
  rw [through.1.filing, through.2] at foreign' pushed
  exact ⟨_, _, _, _, ⟨same.heard, through.1.trans heard', foreign, foreign', pulled, pushed, pulls,
    pushes⟩⟩

/-- The buckets in which `s` finds that `t` differs. -/
def differing (H : Sha256) (ns : List String) (s t : ClusterStore) : List Nat :=
  differingBuckets (bucketHashes H (s.fullIndex (some ns)) s.merkleBuckets)
    (bucketHashes H (t.visibleIndex ns) t.merkleBuckets)

/-- `reconcile` is an exchange between the two stores with their versions ensured. -/
theorem reconcile_exchange {peer : Peer} (order : HashOrder) (nonempty : peer.namespaces ≠ [])
    (linked : Linked s.nodeId peer.namespaces t) (clocks clocks' : Clocks)
    {after : ReconcileResult × ClusterStore × ClusterStore}
    (run : reconcile H order peer clocks clocks' s t = after) :
    ∃ now now' pull push, Exchange H peer.namespaces
      (differing H peer.namespaces (s.ensureLocalVersions clocks.wall)
        (t.ensureLocalVersions clocks'.wall))
      (s.ensureLocalVersions clocks.wall) (t.ensureLocalVersions clocks'.wall) after.2.1 after.2.2
      now now' pull push after.1 := by
  have same : (s.ensureLocalVersions clocks.wall).nodeId = s.nodeId :=
    s.state.ensureVersions_nodeId clocks.wall s.present
  have linked' := linked.ensureLocalVersions clocks'.wall
  obtain ⟨hashes, served⟩ := @serveMerkle_eq _ _ _ H linked clocks' peer.token
  rw [← same] at linked' hashes served
  have ensured := ensured_ensureLocalVersions t clocks'.wall
  obtain ⟨digest, served'⟩ := @serveDigest_eq _ _ _ H (linked'.heard served.1)
    (ensured.heard served.1) clocks' peer.token (differing H peer.namespaces
      (s.ensureLocalVersions clocks.wall) (t.ensureLocalVersions clocks'.wall))
  have found : differingBuckets
      (bucketHashes H ((s.ensureLocalVersions clocks.wall).fullIndex (some peer.namespaces))
        (s.ensureLocalVersions clocks.wall).merkleBuckets)
      (t.serveMerkle H clocks' (s.ensureLocalVersions clocks.wall).nodeId (some peer.namespaces)
        peer.token).1 =
      differing H peer.namespaces (s.ensureLocalVersions clocks.wall)
        (t.ensureLocalVersions clocks'.wall) := by
    rw [hashes]
    rfl
  simp only [reconcile, found] at run
  split at run
  · rename_i nothing
    rw [nothing, ← run]
    have empty : ∀ {a b : OrderedMap Key Version} {n m : Nat},
        Offers a (view H [] n a) (view H [] m b) [] := by
      refine ⟨fun e mem => (List.not_mem_nil mem).elim, fun k v shown => ?_⟩
      exact (List.not_mem_nil (view_eq_some.mp shown).2).elim
    exact ⟨0, 0, [], [], ⟨.refl _, served.1, rfl, served.2, rfl, rfl, empty, empty⟩⟩
  · rw [← run]
    apply exchange_of_rows nonempty linked' (served.trans served') clocks clocks' get?_retain_view
      _ rfl rfl
    intro k
    apply get?_insertAll_empty
    intro row
    rw [digest, view_eq_some, served.1.visibleIndex served.2, get?_visibleIndex nonempty,
      served.1.merkleBuckets]

/-! ### Convergence -/

/-- Two linked nodes of an open cluster, told apart by SHA-256, with ids without the separator. -/
structure Meeting (H : Sha256) (ns : List String) (s t : ClusterStore) : Prop where
  distinct : s.nodeId ≠ t.nodeId
  nonempty : ns ≠ []
  here : Linked t.nodeId ns s
  there : Linked s.nodeId ns t
  recognised : Set.InjOn H.digest {x | x ∈ fed H (s.fullIndex (some ns)) s.merkleBuckets ++
    fed H (t.visibleIndex ns) t.merkleBuckets}
  separable : ∀ k ∈ (s.fullIndex (some ns)).keys, Separable k
  separable' : ∀ k ∈ (t.visibleIndex ns).keys, Separable k

theorem Meeting.view_of_differ (meeting : Meeting H ns s t) {k : Key}
    (differ : (s.fullIndex (some ns)).get? k ≠ (t.fullIndex (some ns)).get? k) :
    view H (differing H ns s t) s.merkleBuckets (s.fullIndex (some ns)) k =
        (s.fullIndex (some ns)).get? k ∧
      view H (differing H ns s t) t.merkleBuckets (t.fullIndex (some ns)) k =
        (t.fullIndex (some ns)).get? k := by
  have shown : ∀ {diff : List Nat} {buckets : Nat} {index : OrderedMap Key Version},
      (∀ v, index.get? k = some v → bucketOf H k buckets ∈ diff) →
        view H diff buckets index k = index.get? k := by
    intro diff buckets index differs
    cases found : index.get? k with
    | none => rw [view, found, ite_self]
    | some v => exact view_eq_some.mpr ⟨found, differs v found⟩
  constructor
  · apply shown
    intro v found
    apply mem_differingBuckets meeting.recognised meeting.separable meeting.separable' found
    rw [get?_visibleIndex meeting.nonempty]
    exact fun same => differ (found.trans same.symm)
  · apply shown
    intro v found
    apply mem_differingBuckets_other meeting.recognised meeting.separable meeting.separable'
    · rw [get?_visibleIndex meeting.nonempty, found]
    · exact fun same => differ (same.trans found.symm)

/-- The version of a key in an index; a missing one is the lowest. -/
def versionIn (index : OrderedMap Key Version) (k : Key) : WithBot Version := index.get? k

theorem overlay_of_offers {now : Int} {index : OrderedMap Key Version}
    {k : Key} (offered : Offers index theirs mine offers)
    (linked : Linked me ns s) (foreign : s'.foreign = (s.filing now).offerAll s.foreign offers)
    (other : k.originId ≠ s.nodeId) (shown : s.overlayVersion k ≠ versionIn index k →
      mine k = s.overlayVersion k ∧ theirs k = index.get? k) :
    s'.overlayVersion k = max (s.overlayVersion k) (versionIn index k) := by
  have after : s'.overlayVersion k = (s.filing now).versionAt ((s.filing now).offerAll s.foreign
      offers) k := by rw [← foreign]; rfl
  rw [after]
  apply Filing.versionAt_offerAll_eq_max
  · rintro e mem - rfl
    have listed : versionIn index e.key = e.version := offered.indexed e mem
    exact listed.ge
  · by_cases newer : s.overlayVersion k < versionIn index k
    · right
      obtain ⟨views, views'⟩ := shown newer.ne
      cases found : index.get? k with
      | none =>
        rw [versionIn, found] at newer
        exact (not_lt_bot newer).elim
      | some v =>
        rw [found] at views'
        rw [versionIn, found] at newer ⊢
        obtain ⟨e, mem, rfl, rfl⟩ := offered.newer k v views' (by
          rw [views]
          exact versionNewer_iff.mpr newer)
        exact ⟨e, mem, linked.admits_iff.mpr other, rfl, rfl⟩
    · exact .inl (not_lt.mp newer)

theorem overlay_of_others {now : Int}
    {k : Key} (nonempty : ns ≠ []) (offered : Offers (t.fullIndex (some ns)) theirs mine offers)
    (linked : Linked me ns s) (foreign : s'.foreign = (s.filing now).offerAll s.foreign offers)
    (outside : k.dataset ∉ ns ∨ k.originId = s.nodeId) : s'.foreign.get? k = s.foreign.get? k := by
  rw [foreign]
  apply Filing.get?_offerAll
  rintro e mem admitted rfl
  rcases outside with outside | own
  · exact outside (dataset_mem_of_fullIndex nonempty (offered.indexed e mem))
  · exact linked.admits_iff.mp admitted own

theorem offers_lose {now : Int} {index : OrderedMap Key Version}
    (offered : Offers index theirs mine offers) (linked : Linked me ns s)
    (known : ∀ k, k.originId ≠ s.nodeId → versionIn index k ≤ s.overlayVersion k) :
    (s.filing now).offerAll s.foreign offers = s.foreign ∧
      (s.filing now).winners s.foreign offers = 0 := by
  apply Filing.offerAll_of_losers
  intro e mem admitted
  have listed : versionIn index e.key = e.version := offered.indexed e mem
  exact listed.ge.trans (known e.key (linked.admits_iff.mp admitted))

/-- On the namespaces, the overlay of `s'` is the join of that of `s` and of the index
of `t`. -/
def Joined (ns : List String) (s t s' : ClusterStore) : Prop :=
  ∀ k : Key, k.dataset ∈ ns → k.originId ≠ s.nodeId →
    s'.overlayVersion k = max (s.overlayVersion k) (versionIn (t.fullIndex (some ns)) k)

theorem versionIn_foreign {k : Key} (inside : k.dataset ∈ ns) (other : k.originId ≠ s.nodeId) :
    versionIn (s.fullIndex (some ns)) k = s.overlayVersion k :=
  fullIndex_foreign other (by simp [inScope, inside])

theorem Exchange.joined {now now' : Int} {pull push : List SyncEnvelope} {result : ReconcileResult}
    (meeting : Meeting H ns s t)
    (exchange : Exchange H ns (differing H ns s t) s t s' t' now now' pull push result) :
    Joined ns s t s' ∧ Joined ns t s t' := by
  constructor
  · intro k inside other
    apply overlay_of_offers exchange.pulls meeting.here exchange.foreign other
    rw [← versionIn_foreign inside other]
    exact meeting.view_of_differ
  · intro k inside other
    apply overlay_of_offers exchange.pushes meeting.there exchange.foreign' other
    rw [← versionIn_foreign inside other]
    intro differ
    obtain ⟨shown, shown'⟩ := meeting.view_of_differ (Ne.symm differ)
    exact ⟨shown', shown⟩

theorem Joined.settled (nonempty : ns ≠ []) (joined : Joined ns s t s') (joined' : Joined ns t s t')
    (heard : Heard t t') {k : Key} (other : k.originId ≠ s.nodeId) :
    versionIn (t'.fullIndex (some ns)) k ≤ s'.overlayVersion k := by
  cases found : (t'.fullIndex (some ns)).get? k with
  | none =>
    rw [versionIn, found]
    exact bot_le
  | some v =>
    have inside := dataset_mem_of_fullIndex nonempty found
    rw [joined k inside other]
    by_cases own : k.originId = t.nodeId
    · have kept : versionIn (t'.fullIndex (some ns)) k = versionIn (t.fullIndex (some ns)) k := by
        rw [versionIn, versionIn, fullIndex_own own, fullIndex_own (own.trans heard.nodeId.symm),
          heard.localIndex]
      rw [kept]
      exact le_max_right _ _
    · have own' : k.originId ≠ t'.nodeId := by rwa [heard.nodeId]
      rw [versionIn_foreign inside own', joined' k inside own, versionIn_foreign inside other,
        versionIn_foreign inside own, max_comm]

theorem Exchange.nothing {diff : List Nat} {now now' : Int} {pull push : List SyncEnvelope}
    {result : ReconcileResult} {me' : String}
    (exchange : Exchange H ns diff s t s' t' now now' pull push result)
    (here : Linked me ns s) (there : Linked me' ns t)
    (settled : ∀ k, k.originId ≠ s.nodeId → versionIn (t.fullIndex (some ns)) k ≤ s.overlayVersion k)
    (settled' : ∀ k, k.originId ≠ t.nodeId →
      versionIn (s.fullIndex (some ns)) k ≤ t.overlayVersion k) :
    result = ⟨0, 0⟩ ∧ s'.foreign = s.foreign ∧ t'.foreign = t.foreign := by
  obtain ⟨same, none_pulled⟩ := offers_lose exchange.pulls here settled
  obtain ⟨same', none_pushed⟩ := offers_lose exchange.pushes there settled'
  refine ⟨?_, exchange.foreign.trans same, exchange.foreign'.trans same'⟩
  rw [ReconcileResult.mk.injEq]
  exact ⟨exchange.pulled.trans none_pulled, exchange.pushed.trans none_pushed⟩

/-- Anti-entropy converges, for all numbers of buckets, and a second run changes nothing. -/
theorem reconcile_converges {peer : Peer} (order : HashOrder) (clocks clocks' : Clocks)
    (meeting : Meeting H peer.namespaces (s.ensureLocalVersions clocks.wall)
      (t.ensureLocalVersions clocks'.wall))
    {after : ReconcileResult × ClusterStore × ClusterStore}
    (run : reconcile H order peer clocks clocks' s t = after) :
    (∀ k : Key, k.dataset ∈ peer.namespaces → k.originId ≠ s.nodeId → k.originId ≠ t.nodeId →
      after.2.1.overlayVersion k = max (s.overlayVersion k) (t.overlayVersion k) ∧
        after.2.2.overlayVersion k = max (s.overlayVersion k) (t.overlayVersion k)) ∧
    (∀ k : Key, k.dataset ∈ peer.namespaces → k.originId = s.nodeId →
      after.2.2.overlayVersion k = max (t.overlayVersion k) (versionIn
        ((s.ensureLocalVersions clocks.wall).fullIndex (some peer.namespaces)) k)) ∧
    (∀ k : Key, k.dataset ∈ peer.namespaces → k.originId = t.nodeId →
      after.2.1.overlayVersion k = max (s.overlayVersion k) (versionIn
        ((t.ensureLocalVersions clocks'.wall).fullIndex (some peer.namespaces)) k)) ∧
    (∀ k : Key, k.dataset ∉ peer.namespaces ∨ k.originId = s.nodeId →
      after.2.1.foreign.get? k = s.foreign.get? k) ∧
    (∀ k : Key, k.dataset ∉ peer.namespaces ∨ k.originId = t.nodeId →
      after.2.2.foreign.get? k = t.foreign.get? k) ∧
    ∀ (order' : HashOrder) (later later' : Clocks)
      (again : ReconcileResult × ClusterStore × ClusterStore),
      reconcile H order' peer later later' after.2.1 after.2.2 = again →
        again.1 = ⟨0, 0⟩ ∧ again.2.1.foreign = after.2.1.foreign ∧
          again.2.2.foreign = after.2.2.foreign := by
  have node : (s.ensureLocalVersions clocks.wall).nodeId = s.nodeId :=
    s.state.ensureVersions_nodeId clocks.wall s.present
  have node' : (t.ensureLocalVersions clocks'.wall).nodeId = t.nodeId :=
    t.state.ensureVersions_nodeId clocks'.wall t.present
  have linked : Linked s.nodeId peer.namespaces t := by
    have there := meeting.there
    rw [node] at there
    exact ⟨there.isOpen, there.session, there.calm⟩
  obtain ⟨now, now', pull, push, exchange⟩ :=
    reconcile_exchange order meeting.nonempty linked clocks clocks' run
  obtain ⟨joined, joined'⟩ := exchange.joined meeting
  refine ⟨?_, ?_, ?_, ?_, ?_, ?_⟩
  · intro k inside other other'
    rw [← node] at other
    rw [← node'] at other'
    rw [joined k inside other, joined' k inside other', versionIn_foreign inside other,
      versionIn_foreign inside other']
    exact ⟨rfl, max_comm _ _⟩
  · intro k inside own
    have other' : k.originId ≠ (t.ensureLocalVersions clocks'.wall).nodeId := by
      rw [own, ← node]
      exact meeting.distinct
    exact joined' k inside other'
  · intro k inside own
    have other : k.originId ≠ (s.ensureLocalVersions clocks.wall).nodeId := by
      rw [own, ← node']
      exact meeting.distinct.symm
    exact joined k inside other
  · intro k outside
    rw [← node] at outside
    have kept := overlay_of_others meeting.nonempty exchange.pulls meeting.here exchange.foreign
      outside
    exact kept
  · intro k outside
    rw [← node'] at outside
    have kept := overlay_of_others meeting.nonempty exchange.pushes meeting.there exchange.foreign'
      outside
    exact kept
  · intro order' later later' again rerun
    have here := meeting.here.heard exchange.here
    have there := meeting.there.heard exchange.there
    have ensured := (ensured_ensureLocalVersions s clocks.wall).heard exchange.here
    have ensured' := (ensured_ensureLocalVersions t clocks'.wall).heard exchange.there
    have linked' : Linked after.2.1.nodeId peer.namespaces after.2.2 := by
      rw [exchange.here.nodeId]
      exact there
    obtain ⟨now₂, now₂', pull₂, push₂, exchange₂⟩ :=
      reconcile_exchange order' meeting.nonempty linked' later later' rerun
    rw [ensured.ensureLocalVersions_eq, ensured'.ensureLocalVersions_eq] at exchange₂
    apply exchange₂.nothing here there
    · intro k other
      rw [exchange.here.nodeId] at other
      exact joined.settled meeting.nonempty joined' exchange.there other
    · intro k other
      rw [exchange.there.nodeId] at other
      exact joined'.settled meeting.nonempty joined exchange.here other

/-! ### A first contact

Node `A` has one record and no versions yet, node `B` has nothing. `table` has the
SHA-256 digests of the key, of the entry and of the bucket.
-/

namespace FirstContact

def keyDigest : List UInt8 :=
  [196, 59, 166, 112, 98, 92, 44, 102, 130, 119, 47, 223, 201, 72, 99, 122,
    37, 153, 182, 78, 135, 35, 199, 235, 102, 249, 81, 139, 117, 128, 43, 130]

def entryDigest : List UInt8 :=
  [20, 49, 255, 62, 91, 209, 69, 174, 139, 40, 178, 109, 206, 86, 242, 219,
    58, 146, 33, 210, 220, 174, 1, 219, 36, 23, 140, 15, 156, 121, 174, 109]

def bucketDigest : List UInt8 :=
  [159, 248, 132, 168, 51, 70, 127, 118, 245, 25, 194, 245, 203, 243, 96, 220,
    118, 224, 189, 157, 128, 189, 214, 91, 72, 104, 232, 131, 230, 78, 107, 82]

def table : Sha256 where
  digest input :=
    if input = utf8 "ds\x1fA\x1fx" then keyDigest
    else if input = utf8 "ds\x1fA\x1fx\x1f5\x1fA" then entryDigest
    else if input = entryDigest then bucketDigest
    else List.replicate 32 0
  length_digest := by
    intro input
    split
    · rfl
    · split
      · rfl
      · split
        · rfl
        · exact List.length_replicate

def service : LocalEntry := ⟨"x", "user_config", .obj [], none⟩

def registry : LocalRegistryView where
  listDatasets := ["ds"]
  listEntries _ := [service]
  getEntry _ _ := some service
  isAuthRequired _ := false
  listed _ _ _ := ⟨service, rfl⟩

def node (nodeId peerId : String) (registry : Option LocalRegistryView) (buckets : Nat) :
    ClusterStore where
  state := .new nodeId
  foreign := .empty
  sessions := OrderedMap.empty.insert peerId ⟨peerId, "", ["ds"], 0, none⟩
  evictedUntil := .empty
  registry
  merkleBuckets := buckets
  authEnabled := false
  keyed := foreign_empty_keyed
  notOwn := foreign_empty_notOwn nodeId

def clocks : Clocks := ⟨fun _ => 5, fun _ => 0⟩

def a : ClusterStore := node "A" "B" (some registry) 1

def b : ClusterStore := node "B" "A" none 2

def peer : Peer := ⟨"B", "", ["ds"], 0, none⟩

def byKey : HashOrder := ⟨OrderedMap.entries, fun _ => .refl _⟩

theorem index_a : ((a.ensureLocalVersions clocks.wall).fullIndex (some ["ds"])).entries =
    [(⟨"ds", "A", "x"⟩, ⟨5, "A"⟩)] := by decide +kernel

theorem index_b : ((b.ensureLocalVersions clocks.wall).visibleIndex ["ds"]).entries = [] := rfl

theorem entryStr_record :
    entryStr (⟨"ds", "A", "x"⟩, ⟨5, "A"⟩) = "ds\x1fA\x1fx\x1f5\x1fA" := by decide +kernel

theorem digest_record : table.digest (utf8 "ds\x1fA\x1fx\x1f5\x1fA") = entryDigest := by
  decide +kernel

theorem digest_bucket : table.digest entryDigest = bucketDigest := by decide +kernel

theorem fed_a : fed table ((a.ensureLocalVersions clocks.wall).fullIndex (some ["ds"])) 1 =
    [utf8 "ds\x1fA\x1fx\x1f5\x1fA", entryDigest] := by
  have input : bucketInput table ((a.ensureLocalVersions clocks.wall).fullIndex (some ["ds"])) 1 0 =
      entryDigest := by
    rw [bucketInput, bucketEntries, index_a]
    simp [bucketOf, Nat.mod_one, Merkle.entryDigest, entryStr_record, digest_record]
  simp [fed, index_a, bucketsOf, bucketOf, Nat.mod_one, entryStr_record, input]

theorem fed_b : fed table ((b.ensureLocalVersions clocks.wall).visibleIndex ["ds"]) 2 = [] := rfl

theorem meeting : Meeting table ["ds"] (a.ensureLocalVersions clocks.wall)
    (b.ensureLocalVersions clocks.wall) where
  distinct := by decide
  nonempty := by decide
  here := ⟨rfl, rfl, rfl⟩
  there := ⟨rfl, rfl, rfl⟩
  recognised := by
    have inputs := fed_a
    have apart : entryDigest ≠ bucketDigest := by decide
    intro x mem y mem' same
    have mem : x ∈ [utf8 "ds\x1fA\x1fx\x1f5\x1fA", entryDigest] := inputs ▸ mem
    have mem' : y ∈ [utf8 "ds\x1fA\x1fx\x1f5\x1fA", entryDigest] := inputs ▸ mem'
    simp only [List.mem_cons, List.not_mem_nil, or_false] at mem mem'
    rcases mem with rfl | rfl <;> rcases mem' with rfl | rfl
    · rfl
    · exact (apart same).elim
    · exact (apart same.symm).elim
    · rfl
  separable := by
    rw [OrderedMap.keys]
    decide
  separable' := by
    decide

end FirstContact

open FirstContact in
/-- The record of `A` reaches `B`, although the two count different numbers of buckets. -/
theorem converges_on_first_contact :
    Meeting table ["ds"] (a.ensureLocalVersions clocks.wall) (b.ensureLocalVersions clocks.wall) ∧
      a.merkleBuckets ≠ b.merkleBuckets ∧
      (reconcile table byKey peer clocks clocks a b).2.2.overlayVersion ⟨"ds", "A", "x"⟩ =
        ((⟨5, "A"⟩ : Version) : WithBot Version) := by
  refine ⟨meeting, by decide, ?_⟩
  have pushed := (@reconcile_converges a b table peer byKey clocks clocks meeting _ rfl).2.1
    ⟨"ds", "A", "x"⟩ (.head _) rfl
  have version : versionIn ((a.ensureLocalVersions clocks.wall).fullIndex (some peer.namespaces))
      ⟨"ds", "A", "x"⟩ = ((⟨5, "A"⟩ : Version) : WithBot Version) := by
    apply OrderedMap.get?_eq_some_iff.mpr
    rw [peer, index_a]
    exact .head _
  rw [pushed, version]
  exact max_eq_right bot_le

end ClusterStore

end AgentProtocols.Cluster
