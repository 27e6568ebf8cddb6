import AgentProtocols.Cluster.Membership
import AgentProtocols.Cluster.VersionClock

/-!
The `i64` arithmetic on versions, beside the unbounded one of `Membership` and `Suppression`, with
which it agrees where sums are in range (`setRemoveI64_eq`, `handleEvictSelfI64_eq`).

* `total_iff` — when no operation leaves the range, minted tombstones win and ages are exact.
* `RemovalOfGreatest.removal_loses` — a record with the greatest version is not replaced.
-/

namespace AgentProtocols.Cluster

open Lib OrderedMap

/-- The number is an `i64`. -/
def Fits (n : Int) : Prop := -2 ^ 63 ≤ n ∧ n < 2 ^ 63

theorem Fits.i64_eq {n : Int} (fits : Fits n) : i64 n = n := i64_of_lt fits.1 fits.2

/-! ### The functions -/

namespace Member

variable (m : Member)

def nextVersionAfterI64 (now floor : Int) : Version × Member :=
  let ts := max (max now (i64 (m.versionClock + 1))) (i64 (floor + 1))
  (⟨ts, m.nodeId⟩, { m with versionClock := ts })

/-- The floor of the tombstone of a member. -/
def floorOf (nodeId : String) : Int := ((m.roster.get? nodeId).map fun r => r.version.ms).getD 0

/-- The tombstone of `set_remove` is filed. -/
def setRemoveI64 (nodeId address : String) (now : Int) : Member :=
  if nodeId.isEmpty then m
  else
    let (version, m') := m.nextVersionAfterI64 now (m.floorOf nodeId)
    m'.put ⟨nodeId, m.clusterId, m.evictAddress nodeId address, version, true⟩

/-- The tombstone of `handle_evict_self` is filed. -/
def handleEvictSelfI64 (fromNode : String) (now : Int) : Member :=
  if fromNode.isEmpty then m
  else
    let cur := m.roster.get? fromNode
    let (version, m') := m.nextVersionAfterI64 now (m.floorOf fromNode)
    let clusterId := match cur with
      | some r => r.clusterId
      | none => m.clusterId
    m'.put ⟨fromNode, clusterId, (cur.map MembershipRecord.address).getD "", version, true⟩

def gcMembershipI64 (now retentionMs : Int) : Member :=
  m.keep fun _ r => !(r.removed && decide (retentionMs < i64 (now - r.version.ms)))

end Member

/-- The local half of `gc_tombstones`. -/
def ClusterState.gcTombstonesI64 (st : ClusterState) (nowMs retentionMs : Int) : ClusterState :=
  { st with
    tombstones := st.tombstones.retain fun _ t => decide (i64 (nowMs - t.deletedAtMs) ≤ retentionMs)
    exclusive := by
      intro k v found
      rw [OrderedMap.get?_retain, st.exclusive k v found]
      rfl
    separated := by
      intro k t found
      rw [OrderedMap.get?_retain, Option.filter_eq_some_iff] at found
      exact st.separated k t found.1 }

def ClusterStore.gcTombstonesI64 (s : ClusterStore) (nowMs retentionMs : Int) : ClusterStore :=
  (s.withState (s.state.gcTombstonesI64 nowMs retentionMs) rfl).keepForeign fun _ env =>
    !(env.tombstone && decide (retentionMs < i64 (nowMs - env.version.ms)))

/-! ### In range they are those of the unbounded model -/

namespace Member

variable {m : Member} {id address : String} {now retentionMs : Int}

variable (clock : Fits (m.versionClock + 1))

include clock

theorem nextVersionAfterI64_eq {floor : Int} (above : Fits (floor + 1)) :
    m.nextVersionAfterI64 now floor = m.nextVersionAfter now floor := by
  rw [nextVersionAfterI64, nextVersionAfter, clock.i64_eq, above.i64_eq]

theorem setRemoveI64_eq (above : Fits (m.floorOf id + 1)) :
    m.setRemoveI64 id address now = (m.setRemove id address now).1 := by
  unfold setRemoveI64 setRemove
  rw [nextVersionAfterI64_eq clock above]
  split <;> rfl

theorem handleEvictSelfI64_eq (above : Fits (m.floorOf id + 1)) :
    m.handleEvictSelfI64 id now = (m.handleEvictSelf id now).1 := by
  unfold handleEvictSelfI64 handleEvictSelf
  rw [nextVersionAfterI64_eq clock above]
  split <;> rfl

omit clock

variable {r : MembershipRecord}

theorem floorOf_of_get? (found : m.roster.get? id = some r) : m.floorOf id = r.version.ms := by
  rw [floorOf, found]
  rfl

/-- The record is a tombstone that wins over the other record. -/
def Replaces (r t : MembershipRecord) : Prop := t.removed = true ∧ r.version < t.version

theorem lt_nextVersionAfter (r : MembershipRecord) :
    r.version < (m.nextVersionAfter now r.version.ms).1 :=
  Version.lt_of_ms (lt_max_of_lt_right (Int.lt_succ _))

theorem setRemove_replaces (found : m.roster.get? id = some r) (named : id ≠ "") :
    ∃ t, (m.setRemove id address now).1.roster.get? id = some t ∧ Replaces r t := by
  have newer := @lt_nextVersionAfter m now r
  rw [← floorOf_of_get? found] at newer
  unfold setRemove
  rw [if_neg (by simpa using named)]
  exact ⟨_, get?_insert_self, rfl, newer⟩

theorem handleEvictSelf_replaces (found : m.roster.get? id = some r) (named : id ≠ "") :
    ∃ t, (m.handleEvictSelf id now).1.roster.get? id = some t ∧ Replaces r t := by
  have newer := @lt_nextVersionAfter m now r
  rw [← floorOf_of_get? found] at newer
  unfold handleEvictSelf
  rw [if_neg (by simpa using named)]
  exact ⟨_, get?_insert_self, rfl, newer⟩

end Member

/-- What a collection leaves of a record that it has looked at the age of. -/
theorem get?_retain_of_age {K V : Type} [DecidableEq K] {rows : OrderedMap K V} {k : K} {v : V}
    {p : K → V → Bool} {retention age : Int} (found : rows.get? k = some v)
    (looked : p k v = !decide (retention < age)) :
    (rows.retain p).get? k = if retention < age then none else some v := by
  rw [get?_retain, found, Option.filter_some, looked]
  by_cases old : retention < age
  · rw [if_pos old, decide_eq_true old]
    rfl
  · rw [if_neg old, decide_eq_false old]
    rfl

/-! ### A node -/

/-- A node: its roster and its store, with one version clock of type `i64`. -/
structure ClusterNode where
  member : Member
  store : ClusterStore
  shared : member.versionClock = store.state.versionClock
  clock : Fits member.versionClock
  roster : ∀ id r, member.roster.get? id = some r → Fits r.version.ms
  foreign : ∀ k e, store.foreign.get? k = some e → Fits e.version.ms
  deleted : ∀ k t, store.state.tombstones.get? k = some t → Fits t.deletedAtMs

namespace ClusterNode

variable (n : ClusterNode) (now retentionMs : Int)

/-- The exact value of a sum or a difference that the calls compute. -/
inductive Computes : Int → Prop where
  | clock : Computes (n.member.versionClock + 1)
  | floor {id : String} : id ≠ "" → Computes (n.member.floorOf id + 1)
  | roster {id : String} {r : MembershipRecord} : n.member.roster.get? id = some r →
      r.removed = true → Computes (now - r.version.ms)
  | foreign {k : Key} {e : SyncEnvelope} : n.store.foreign.get? k = some e →
      e.tombstone = true → Computes (now - e.version.ms)
  | deleted {k : String} {t : Tombstone} : n.store.state.tombstones.get? k = some t →
      Computes (now - t.deletedAtMs)

/-- No operation overflows, minted tombstones win, and the collection goes by the age. -/
structure Total : Prop where
  inRange : ∀ x, n.Computes now x → Fits x
  removes : ∀ id address r, n.member.roster.get? id = some r → id ≠ "" →
    ∃ t, (n.member.setRemoveI64 id address now).roster.get? id = some t ∧ Member.Replaces r t
  leaves : ∀ id r, n.member.roster.get? id = some r → id ≠ "" →
    ∃ t, (n.member.handleEvictSelfI64 id now).roster.get? id = some t ∧ Member.Replaces r t
  roster : ∀ id r, n.member.roster.get? id = some r → r.removed = true →
    (n.member.gcMembershipI64 now retentionMs).roster.get? id =
      if retentionMs < now - r.version.ms then none else some r
  foreign : ∀ k e, n.store.foreign.get? k = some e → e.tombstone = true →
    (n.store.gcTombstonesI64 now retentionMs).foreign.get? k =
      if retentionMs < now - e.version.ms then none else some e
  deleted : ∀ k t, n.store.state.tombstones.get? k = some t →
    (n.store.gcTombstonesI64 now retentionMs).state.tombstones.get? k =
      if retentionMs < now - t.deletedAtMs then none else some t

/-- The time is less than 2^63 ms before the reading, and at most as much after it. -/
def Near (ms : Int) : Prop := now - 2 ^ 63 < ms ∧ ms ≤ now + 2 ^ 63

/-- Nothing that is counted up is the greatest `i64`, and every tombstone is near the reading. -/
structure Moderate : Prop where
  clock : n.member.versionClock < 2 ^ 63 - 1
  floor : ∀ id r, n.member.roster.get? id = some r → id ≠ "" → r.version.ms < 2 ^ 63 - 1
  roster : ∀ id r, n.member.roster.get? id = some r → r.removed = true → Near now r.version.ms
  foreign : ∀ k e, n.store.foreign.get? k = some e → e.tombstone = true → Near now e.version.ms
  deleted : ∀ k t, n.store.state.tombstones.get? k = some t → Near now t.deletedAtMs

variable {n now retentionMs}

theorem fits_age_iff {ms : Int} : Fits (now - ms) ↔ Near now ms := by
  unfold Fits Near
  omega

theorem fits_succ_iff {ms : Int} (fits : Fits ms) : Fits (ms + 1) ↔ ms < 2 ^ 63 - 1 := by
  unfold Fits at *
  omega

theorem Moderate.floor_fits (moderate : n.Moderate now) {id : String} (named : id ≠ "") :
    Fits (n.member.floorOf id + 1) := by
  cases found : n.member.roster.get? id with
  | none =>
    rw [Member.floorOf, found]
    exact ⟨by decide, by decide⟩
  | some r =>
    rw [Member.floorOf_of_get? found]
    exact (fits_succ_iff (n.roster id r found)).mpr (moderate.floor id r found named)

/-- **Version arithmetic is total exactly when nothing that is counted up is the greatest `i64`
and no tombstone is 2^63 ms or more before the reading of the clock, or more than that after
it.** -/
theorem total_iff (n : ClusterNode) (now retentionMs : Int) :
    n.Total now retentionMs ↔ n.Moderate now := by
  constructor
  · intro total
    refine ⟨(fits_succ_iff n.clock).mp (total.inRange _ .clock), fun id r found named => ?_,
      fun id r found removed => fits_age_iff.mp (total.inRange _ (.roster found removed)),
      fun k e found grave => fits_age_iff.mp (total.inRange _ (.foreign found grave)),
      fun k t found => fits_age_iff.mp (total.inRange _ (.deleted found))⟩
    have sum := total.inRange _ (.floor named)
    rw [Member.floorOf_of_get? found] at sum
    exact (fits_succ_iff (n.roster id r found)).mp sum
  · intro moderate
    have clock := (fits_succ_iff n.clock).mpr moderate.clock
    refine ⟨?_, fun id address r found named => ?_, fun id r found named => ?_,
      fun id r found removed => ?_, fun k e found grave => ?_, fun k t found => ?_⟩
    · rintro x (- | named | ⟨found, removed⟩ | ⟨found, grave⟩ | found)
      · exact clock
      · exact moderate.floor_fits named
      · exact fits_age_iff.mpr (moderate.roster _ _ found removed)
      · exact fits_age_iff.mpr (moderate.foreign _ _ found grave)
      · exact fits_age_iff.mpr (moderate.deleted _ _ found)
    · rw [Member.setRemoveI64_eq clock (moderate.floor_fits named)]
      exact Member.setRemove_replaces found named
    · rw [Member.handleEvictSelfI64_eq clock (moderate.floor_fits named)]
      exact Member.handleEvictSelf_replaces found named
    · have age := (fits_age_iff.mpr (moderate.roster id r found removed)).i64_eq
      exact get?_retain_of_age found (by rw [removed, age, Bool.true_and])
    · have age := (fits_age_iff.mpr (moderate.foreign k e found grave)).i64_eq
      exact get?_retain_of_age found (by rw [grave, age, Bool.true_and])
    · have age := (fits_age_iff.mpr (moderate.deleted k t found)).i64_eq
      refine get?_retain_of_age found ?_
      rw [age, ← decide_not]
      exact decide_eq_decide.mpr not_lt.symm

end ClusterNode

/-! ### The greatest version -/

namespace RemovalOfGreatest

open ClusterNode

/-- A live record and a tombstone with the versions at the two ends of the range. -/
def live : MembershipRecord := ⟨"z", some "c", "http://z", ⟨2 ^ 63 - 1, "z"⟩, false⟩

def grave : MembershipRecord := ⟨"y", some "c", "http://y", ⟨-2 ^ 63, "y"⟩, true⟩

/-- A new node has merged the two records. -/
def member : Member := (Member.mk "a" "http://a" 0 .empty empty_filed).merge [live, grave]

theorem roster_entries : member.roster.entries = [("z", live), ("y", grave)] := rfl

theorem fits_of_get? {id : String} {r : MembershipRecord} (found : member.roster.get? id = some r) :
    Fits r.version.ms := by
  have mem := get?_eq_some_iff.mp found
  rcases List.mem_pair.mp mem with same | same <;> cases same <;> exact ⟨by decide, by decide⟩

def node : ClusterNode where
  member := member
  store := Crossed.blank "a"
  shared := rfl
  clock := ⟨by decide, by decide⟩
  roster _ _ := fits_of_get?
  foreign _ _ found := by cases found
  deleted _ _ found := by cases found

/-- The tombstone of a removal is older than the record, and an old one stays. -/
theorem removal_loses :
    (node.member.setRemoveI64 "z" "" 0).roster.get? "z" =
      some ⟨"z", none, "http://z", ⟨1, "a"⟩, true⟩ ∧ (⟨1, "a"⟩ : Version) < live.version ∧
    (node.member.gcMembershipI64 0 1000).roster.get? "y" = some grave ∧
    (1000 : Int) < 0 - grave.version.ms ∧ ¬node.Total 0 1000 := by
  -- the age of the tombstone wraps
  have age : i64 (0 - grave.version.ms) = -2 ^ 63 := by decide
  refine ⟨rfl, Version.lt_of_ms (by decide), ?_, by decide, fun total => ?_⟩
  · change (member.roster.retain _).get? "y" = some grave
    rw [OrderedMap.get?_retain, show member.roster.get? "y" = some grave from rfl,
      Option.filter_some, age]
    rfl
  · have moderate := (total_iff node 0 1000).mp total
    exact absurd (moderate.floor "z" live rfl (by decide)) (by decide)

end RemovalOfGreatest

end AgentProtocols.Cluster
