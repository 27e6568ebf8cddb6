import AgentProtocols.Cluster.OwnRecord
import AgentProtocols.Cluster.VersionArithmetic

/-!
Membership over a restart.

* `membership_survives` — a restart gives back the own cluster, the own version and exactly the
  records that are not old tombstones, as far as ages do not wrap across the retention; and what is
  minted later below the greatest `i64` is newer than the own version.
* `Aged.old_tombstone_restored` — a tombstone whose age wraps comes back.
-/

namespace AgentProtocols.Cluster

open Lib OrderedMap

namespace Member

variable (m : Member)

def saved : SavedMembership :=
  ⟨m.versionClock, m.toPersist.1, m.toPersist.2.1.map .record, m.toPersist.2.2⟩

/-- `next_version`, with the arithmetic of an `i64`. -/
def nextVersionI64 (now : Int) : Version × Member :=
  let ts := max now (i64 (m.versionClock + 1))
  (⟨ts, m.nodeId⟩, { m with versionClock := ts })

/-- `init_from_state`, with the arithmetic of an `i64`. -/
def initFromStateI64 (nodeId advertise : String) (saved : SavedMembership) (now gcNow : Int)
    (retentionMs : Int) : Member :=
  let m : Member := ⟨nodeId, advertise, saved.versionClock, .empty, empty_filed⟩
  match saved.clusterId with
  | none => m
  | some c =>
    let (version, m) := match saved.version with
      | some v => (v, m.observeVersion v.ms)
      | none => m.nextVersionI64 now
    let m := m.put ⟨nodeId, some c, advertise, version, false⟩
    ((saved.lastRoster.filterMap (SavedMember.toRecord c)).foldl restoreRecord m).gcMembershipI64 gcNow
      retentionMs

/-- The node as it is after a restart at the reading `t`. -/
def restarted (now t retentionMs : Int) : Member :=
  initFromStateI64 m.nodeId m.advertise m.saved now t retentionMs

inductive ClockUse where
  | observe (ms : Int)
  | mint (now : Int)
  | mintAbove (now floor : Int)

def after : ClockUse → Member
  | .observe ms => m.observeVersion ms
  | .mint now => (m.nextVersionI64 now).2
  | .mintAbove now floor => (m.nextVersionAfterI64 now floor).2

def minted (m : Member) : List ClockUse → List Version
  | [] => []
  | .observe ms :: uses => minted (m.after (.observe ms)) uses
  | .mint now :: uses => (m.nextVersionI64 now).1 :: minted (m.after (.mint now)) uses
  | .mintAbove now floor :: uses =>
    (m.nextVersionAfterI64 now floor).1 :: minted (m.after (.mintAbove now floor)) uses

/-- No use finds the clock at the greatest `i64`. -/
def BelowGreatest (m : Member) : List ClockUse → Prop
  | [] => True
  | use :: uses => Fits (m.versionClock + 1) ∧ BelowGreatest (m.after use) uses

/-- The record is of the cluster, and no tombstone older than the retention at `t`. -/
def Current (c : String) (t retentionMs : Int) (r : MembershipRecord) : Bool :=
  r.clusterId == some c && !(r.removed && decide (retentionMs < t - r.version.ms))

variable {m} {c id : String} {r : MembershipRecord}

theorem get?_foldl_restoreRecord_of_filed (rs : List MembershipRecord) (found : m.roster.get? id = some r) :
    (rs.foldl restoreRecord m).roster.get? id = some r := by
  induction rs generalizing m with
  | nil => exact found
  | cons r' rs ih =>
    refine ih ?_
    rw [restoreRecord]
    split
    · exact found
    · rename_i files
      refine (get?_insert_of_ne fun same => files (.inr ?_)).trans found
      rw [← same, found]
      rfl

theorem get?_foldl_restoreRecord {rs : List MembershipRecord} (absent : m.roster.get? id = none)
    (other : id ≠ m.nodeId)
    (unique : ∀ r ∈ rs, ∀ r' ∈ rs, r.nodeId = r'.nodeId → r = r') :
    (rs.foldl restoreRecord m).roster.get? id = some r ↔ r ∈ rs ∧ r.nodeId = id := by
  induction rs generalizing m with
  | nil => simp [absent]
  | cons r' rs ih =>
    rw [List.foldl_cons, List.mem_cons]
    by_cases here : r'.nodeId = id
    · have found : (m.restoreRecord r').roster.get? id = some r' := by
        rw [restoreRecord, if_neg (by simp [here, other, absent]), ← here]
        exact get?_insert_self
      rw [get?_foldl_restoreRecord_of_filed rs found]
      constructor
      · rintro ⟨⟩
        exact ⟨.inl rfl, here⟩
      · rintro ⟨mem, named⟩
        exact congrArg some (unique r' (.head _) r (List.mem_cons.mpr mem) (here.trans named.symm))
    · have unfiled : (m.restoreRecord r').roster.get? id = none := by
        rw [restoreRecord]
        split
        · exact absent
        · exact (get?_insert_of_ne (Ne.symm here)).trans absent
      have rest := ih unfiled ((restoreRecord_nodeId m r').symm ▸ other)
        fun r mem r' mem' => unique r (.tail _ mem) r' (.tail _ mem')
      refine rest.trans (and_congr_left fun named => (or_iff_right fun same => ?_).symm)
      exact here (same ▸ named)

/-- What `persist` reads of the other members. -/
theorem mem_toPersist {own : MembershipRecord} (is_own : m.own = some own)
    (inside : own.clusterId = some c) (other : id ≠ m.nodeId) :
    r ∈ m.toPersist.2.1 ∧ r.nodeId = id ↔ m.roster.get? id = some r ∧ r.clusterId = some c := by
  have cluster : m.clusterId = some c := by rw [clusterId, is_own, Option.bind_some, inside]
  rw [toPersist, cluster, List.mem_filter, OrderedMap.values, List.mem_map]
  constructor
  · rintro ⟨⟨⟨e, mem, rfl⟩, kept⟩, rfl⟩
    have found := get?_eq_some_iff.mpr mem
    rw [m.filed e.1 e.2 found]
    exact ⟨found, by simpa using (Bool.and_eq_true_iff.mp kept).2⟩
  · rintro ⟨found, is_c⟩
    have named := m.filed id r found
    exact ⟨⟨⟨_, get?_eq_some_iff.mp found, rfl⟩, by simp [named, other, is_c]⟩, named⟩

/-- The ages that a restart at `t` computes are on the right side of the retention. -/
def AgesRead (m : Member) (c : String) (t retentionMs : Int) : Prop :=
  ∀ id r, id ≠ m.nodeId → m.roster.get? id = some r → r.clusterId = some c → r.removed = true →
    (retentionMs < i64 (t - r.version.ms) ↔ retentionMs < t - r.version.ms)

section Restart

variable {own : MembershipRecord} {now t retentionMs : Int} (is_own : m.own = some own)
  (inside : own.clusterId = some c)

include is_own inside

theorem restarted_eq : m.restarted now t retentionMs =
    (m.toPersist.2.1.foldl restoreRecord (((Member.mk m.nodeId m.advertise m.versionClock .empty
      empty_filed).observeVersion own.version.ms).put
        ⟨m.nodeId, some c, m.advertise, own.version, false⟩)).gcMembershipI64 t retentionMs := by
  have records : (m.toPersist.2.1.map SavedMember.record).filterMap (SavedMember.toRecord c) =
      m.toPersist.2.1 := by
    rw [List.filterMap_map]
    exact List.filterMap_some
  have cluster : m.clusterId = some c := by rw [clusterId, is_own, Option.bind_some, inside]
  rw [restarted, initFromStateI64, saved]
  simp only [show m.toPersist.1 = some c from cluster, records,
    show m.toPersist.2.2 = some own.version by rw [toPersist, is_own]; rfl]

theorem get?_restarted {other : id ≠ m.nodeId} :
    (m.restarted now t retentionMs).roster.get? id = (m.roster.get? id).filter fun r =>
      r.clusterId == some c && !(r.removed && decide (retentionMs < i64 (t - r.version.ms))) := by
  rw [restarted_eq is_own inside]
  change (OrderedMap.retain _ _).get? id = _
  refine Option.ext fun r => ?_
  have unique : ∀ r ∈ m.toPersist.2.1, ∀ r' ∈ m.toPersist.2.1, r.nodeId = r'.nodeId → r = r' := by
    intro r mem r' mem' same
    have named : ∀ r ∈ m.toPersist.2.1, r.nodeId ≠ m.nodeId := fun r mem => by
      have kept := (Bool.and_eq_true_iff.mp (List.mem_filter.mp mem).2).1
      simpa using kept
    have found := ((mem_toPersist is_own inside (named r mem)).mp ⟨mem, rfl⟩).1
    have found' := ((mem_toPersist is_own inside (named r' mem')).mp ⟨mem', rfl⟩).1
    exact Option.some.inj (found.symm.trans (same ▸ found'))
  have absent : (((Member.mk m.nodeId m.advertise m.versionClock .empty empty_filed).observeVersion
      own.version.ms).put ⟨m.nodeId, some c, m.advertise, own.version, false⟩).roster.get? id = none :=
    (get?_insert_of_ne other).trans rfl
  rw [get?_retain, Option.filter_eq_some_iff, Option.filter_eq_some_iff,
    get?_foldl_restoreRecord absent other unique,
    mem_toPersist is_own inside other, Bool.and_eq_true, beq_iff_eq, and_assoc]

theorem own_restarted : (m.restarted now t retentionMs).own =
    some ⟨m.nodeId, some c, m.advertise, own.version, false⟩ := by
  rw [restarted_eq is_own inside]
  change (OrderedMap.retain _ _).get? (List.foldl restoreRecord _ _).nodeId = _
  rw [foldl_restoreRecord_nodeId, get?_retain, get?_foldl_restoreRecord_of_filed _ get?_insert_self]
  rfl

theorem clock_restarted : own.version.ms ≤ (m.restarted now t retentionMs).versionClock := by
  have keeps : ∀ (rs : List MembershipRecord) (m : Member),
      (rs.foldl restoreRecord m).versionClock = m.versionClock := by
    intro rs
    induction rs with
    | nil => exact fun _ => rfl
    | cons r rs ih =>
      refine fun m => (ih _).trans ?_
      rw [restoreRecord]
      split <;> rfl
  rw [restarted_eq is_own inside]
  exact (le_max_right _ _).trans (keeps _ _).ge

end Restart

theorem lt_of_mem_minted {uses : List ClockUse} (below : m.BelowGreatest uses) {floor : Int}
    (clock : floor ≤ m.versionClock) {v : Version} (mem : v ∈ m.minted uses) : floor < v.ms := by
  induction uses generalizing m with
  | nil => cases mem
  | cons use uses ih =>
    obtain ⟨fits, later⟩ := below
    have wraps := fits.i64_eq
    cases use with
    | observe ms => exact ih later (clock.trans (le_max_left _ _)) mem
    | mint now =>
      have newer : floor < max now (i64 (m.versionClock + 1)) := by omega
      rcases List.mem_cons.mp mem with rfl | mem
      · exact newer
      · exact ih later newer.le mem
    | mintAbove now low =>
      have newer : floor < max (max now (i64 (m.versionClock + 1))) (i64 (low + 1)) := by omega
      rcases List.mem_cons.mp mem with rfl | mem
      · exact newer
      · exact ih later newer.le mem

end Member

/-- **A restart gives back the membership of a live member** as far as ages are read right. -/
theorem membership_survives (m : Member) {c : String} {own : MembershipRecord} (now t retentionMs : Int)
    (is_own : m.own = some own) (inside : own.clusterId = some c) :
    ((m.restarted now t retentionMs).clusterId = some c ∧
      (m.restarted now t retentionMs).own.map MembershipRecord.version = some own.version) ∧
    ((∀ id, id ≠ m.nodeId → (m.restarted now t retentionMs).roster.get? id =
        (m.roster.get? id).filter (Member.Current c t retentionMs)) ↔
      m.AgesRead c t retentionMs) ∧
    ∀ uses, (m.restarted now t retentionMs).BelowGreatest uses →
      ∀ v ∈ (m.restarted now t retentionMs).minted uses, own.version < v := by
  refine ⟨?_, ⟨fun same id r other found is_c removed => ?_, fun read id other => ?_⟩,
    fun uses below v mem => ?_⟩
  · rw [Member.clusterId, Member.own_restarted is_own inside]
    exact ⟨rfl, rfl⟩
  · have at_id := same id other
    rw [@Member.get?_restarted _ _ _ _ _ _ _ is_own inside other, found] at at_id
    simp only [Option.filter, Member.Current, is_c, removed, beq_self_eq_true, Bool.true_and] at at_id
    by_cases wrapped : retentionMs < i64 (t - r.version.ms) <;>
      by_cases old : retentionMs < t - r.version.ms <;> simp [wrapped, old] at at_id ⊢
  · rw [@Member.get?_restarted _ _ _ _ _ _ _ is_own inside other]
    cases found : m.roster.get? id with
    | none => rfl
    | some r =>
      simp only [Option.filter, Member.Current]
      by_cases is_c : r.clusterId = some c
      · by_cases removed : r.removed = true
        · simp [is_c, read id r other found is_c removed]
        · simp [removed]
      · simp [is_c]
  · exact Version.lt_of_ms (Member.lt_of_mem_minted below (Member.clock_restarted is_own inside) mem)

namespace Aged

open Member

/-- A live member with a removed member, whose tombstone has the least version. -/
def member : Member :=
  ((Member.mk "a" "http://a" 5 .empty empty_filed).put ⟨"a", some "c", "http://a", ⟨5, "a"⟩, false⟩).put
    ⟨"y", some "c", "http://y", ⟨-2 ^ 63, "y"⟩, true⟩

theorem version_restored : (member.restarted 0 0 1000).own.map MembershipRecord.version = some ⟨5, "a"⟩ :=
  (membership_survives member 0 0 1000 rfl rfl).1.2

/-- The tombstone is older than the retention, and a restart brings it back. -/
theorem old_tombstone_restored :
    (1000 : Int) < 0 - -2 ^ 63 ∧ ((member.restarted 0 0 1000).roster.get? "y").isSome = true := by
  have age : i64 (0 - -2 ^ 63) = -2 ^ 63 := by decide
  refine ⟨by decide, ?_⟩
  rw [@get?_restarted _ "c" _ ⟨"a", some "c", "http://a", ⟨5, "a"⟩, false⟩ _ _ _ rfl rfl
    (by decide)]
  change ((Option.some (⟨"y", some "c", "http://y", ⟨-2 ^ 63, "y"⟩, true⟩ : MembershipRecord)).filter
    _).isSome = true
  rw [Option.filter_some, age]
  rfl

end Aged

end AgentProtocols.Cluster
