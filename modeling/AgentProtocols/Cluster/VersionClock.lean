import AgentProtocols.Cluster.Suppression

/-!
The version clock of a node, which survives restarts. It is an `i64` and wraps at the greatest one.

* `VersionedNode.Sound.step` — a step that mints below the greatest clock keeps the invariant.
* `versions_increase` — in every run of such steps the versions of `stamp_local` increase strictly,
  and those in the state are distinct and not above the clock.
* `clock_wraps` — after a floor near the greatest `i64` a later stamp is below an earlier one.
-/

namespace AgentProtocols.Cluster

open Lib ClusterState OrderedMap

/-- The value of a sum of `i64` numbers in a release build. -/
def i64 (n : Int) : Int := n.bmod (2 ^ 64)

theorem i64_of_lt {n : Int} (low : -2 ^ 63 ≤ n) (high : n < 2 ^ 63) : i64 n = n := by
  have lower : -(((2 ^ 64 : Nat) : Int) / 2) = -2 ^ 63 := by decide
  have upper : (((2 ^ 64 : Nat) : Int) + 1) / 2 = 2 ^ 63 := by decide
  exact Int.bmod_eq_of_le (lower ▸ low) (upper ▸ high)

def MutationOp.isDeregister : MutationOp → Bool
  | deregister => true
  | register | update => false

namespace ClusterState

variable (st : ClusterState)

def nextTsLocked (nowMs : Int) : Int := max nowMs (i64 (st.versionClock + 1))

/-- The time stamp of `next_version_after`. -/
def nextTsAfter (nowMs floorMs : Int) : Int :=
  max (max nowMs (i64 (st.versionClock + 1))) (i64 (floorMs + 1))

def withClock (clock : Int) : ClusterState := { st with versionClock := clock }

def observeVersion (ms : Int) : ClusterState := st.withClock (max st.versionClock ms)

/-- A version filed for a record, or a tombstone with that version. -/
def file (dataset serviceId : String) (op : MutationOp) (ts : Int) : ClusterState :=
  match op with
  | .deregister => st.setTombstone ts dataset serviceId ⟨⟨ts, st.nodeId⟩, ts⟩
  | _ => st.setVersion ts (makeKey dataset serviceId) ⟨ts, st.nodeId⟩

/-- A record that has neither a version nor a tombstone gets one, in `ensure_local_versions`. -/
def ensureLocalVersion (dataset serviceId : String) (nowMs : Int) : ClusterState :=
  if st.isVersioned (makeKey dataset serviceId) then st
  else st.file dataset serviceId .register (st.nextTsLocked nowMs)

/-- A version of the state: of a record or of a tombstone. -/
inductive Holds : String → Bool → Version → Prop where
  | live {k : String} {v : Version} : st.localVersions.get? k = some v → Holds k false v
  | grave {k : String} {t : Tombstone} : st.tombstones.get? k = some t → Holds k true t.version

end ClusterState

/-! ### Runs -/

/-- A node in memory and in `cluster_state.json`, and the versions that calls have returned. -/
structure VersionedNode where
  state : ClusterState
  file : ClusterState
  stamped : List Version

/-- The next lock section. `ensure_local_versions` is an `ensure` for each record and a `save`. -/
inductive VersionSection where
  | stampLocal (dataset serviceId : String) (op : MutationOp) (nowMs : Int) (saved : Bool)
  | ensure (dataset serviceId : String) (nowMs : Int)
  | nextVersion (nowMs : Int)
  | nextVersionAfter (nowMs floorMs : Int)
  | observeVersion (ms : Int)
  | gcTombstones (nowMs retentionMs : Int)
  | save
  | restart

namespace VersionedNode

variable (s : VersionedNode)

def init (nodeId : String) : VersionedNode := ⟨.new nodeId, .new nodeId, []⟩

def step : VersionSection → Option VersionedNode
  | .stampLocal dataset serviceId op nowMs saved =>
    let ts := s.state.nextTsLocked nowMs
    let state := s.state.file dataset serviceId op ts
    some { state
           file := if saved then state else s.file
           stamped := if saved then s.stamped ++ [⟨ts, s.state.nodeId⟩] else s.stamped }
  | .ensure dataset serviceId nowMs =>
    some { s with state := s.state.ensureLocalVersion dataset serviceId nowMs }
  | .nextVersion nowMs => some { s with state := s.state.withClock (s.state.nextTsLocked nowMs) }
  | .nextVersionAfter nowMs floorMs =>
    some { s with state := s.state.withClock (s.state.nextTsAfter nowMs floorMs) }
  | .observeVersion ms => some { s with state := s.state.observeVersion ms }
  | .gcTombstones nowMs retentionMs =>
    some { s with state := s.state.gcTombstones nowMs retentionMs }
  | .save => some { s with file := s.state }
  | .restart => some { s with state := s.file }

/-- A section that mints a version finds a clock that can be incremented. -/
def InRange : VersionSection → Prop
  | .stampLocal .. | .ensure .. | .nextVersion _ | .nextVersionAfter .. =>
    s.state.versionClock + 1 < 2 ^ 63
  | _ => True

instance : DecidablePred s.InRange := fun l => by
  cases l <;> unfold InRange <;> infer_instance

end VersionedNode

/-! ### The invariant -/

namespace ClusterState

/-- The versions are the node's own, not above the clock, and distinct. -/
structure Clocked (nodeId : String) (st : ClusterState) : Prop where
  node : st.nodeId = nodeId
  clock : 0 ≤ st.versionClock
  own : ∀ k b v, st.Holds k b v → v.nodeId = nodeId ∧ v.ms ≤ st.versionClock
  distinct : ∀ k b k' b' v, st.Holds k b v → st.Holds k' b' v → k = k' ∧ b = b'

variable {st : ClusterState} {nodeId dataset serviceId k : String} {op : MutationOp} {ts : Int}
  {b : Bool} {v : Version}

theorem clocked_new (nodeId : String) : (new nodeId).Clocked nodeId where
  node := rfl
  clock := le_refl 0
  own := by rintro _ _ _ (⟨⟨⟩⟩ | ⟨⟨⟩⟩)
  distinct := by rintro _ _ _ _ _ (⟨⟨⟩⟩ | ⟨⟨⟩⟩)

theorem clock_lt_nextTsLocked (positive : 0 ≤ st.versionClock)
    (room : st.versionClock + 1 < 2 ^ 63) (nowMs : Int) :
    st.versionClock < st.nextTsLocked nowMs := by
  rw [nextTsLocked, i64_of_lt (by omega) room]
  exact lt_max_of_lt_right (Int.lt_succ _)

theorem clock_lt_nextTsAfter (positive : 0 ≤ st.versionClock)
    (room : st.versionClock + 1 < 2 ^ 63) (nowMs floorMs : Int) :
    st.versionClock < st.nextTsAfter nowMs floorMs := by
  rw [nextTsAfter, i64_of_lt (by omega) room]
  exact lt_max_of_lt_left (lt_max_of_lt_right (Int.lt_succ _))

theorem file_versionClock : (st.file dataset serviceId op ts).versionClock = ts := by
  cases op <;> rfl

theorem file_nodeId : (st.file dataset serviceId op ts).nodeId = st.nodeId := by
  cases op <;> rfl

theorem ensureLocalVersion_nodeId {nowMs : Int} :
    (st.ensureLocalVersion dataset serviceId nowMs).nodeId = st.nodeId := by
  unfold ensureLocalVersion
  split
  · rfl
  · exact file_nodeId

/-- A version of the state after filing is the filed one, or was there under another key. -/
theorem holds_file (holds : (st.file dataset serviceId op ts).Holds k b v) :
    (k = makeKey dataset serviceId ∧ b = op.isDeregister ∧ v = ⟨ts, st.nodeId⟩) ∨
      (k ≠ makeKey dataset serviceId ∧ st.Holds k b v) := by
  have live : ∀ {k v}, (st.localVersions.insert (makeKey dataset serviceId) ⟨ts, st.nodeId⟩).get? k =
      some v → (k = makeKey dataset serviceId ∧ v = ⟨ts, st.nodeId⟩) ∨
        (k ≠ makeKey dataset serviceId ∧ st.Holds k false v) := by
    intro k v found
    rw [get?_insert] at found
    split at found
    · cases found
      exact .inl ⟨‹_›, rfl⟩
    · exact .inr ⟨‹_›, .live found⟩
  cases holds with
  | live found =>
    cases op with
    | deregister =>
      have was := get?_of_get?_erase found
      exact .inr ⟨was.2, .live was.1⟩
    | register => exact (live found).imp_left fun new => ⟨new.1, rfl, new.2⟩
    | update => exact (live found).imp_left fun new => ⟨new.1, rfl, new.2⟩
  | grave found =>
    cases op with
    | deregister =>
      change (st.tombstones.insert _ _).get? k = some _ at found
      rw [get?_insert] at found
      split at found
      · cases found
        exact .inl ⟨‹_›, rfl, rfl⟩
      · exact .inr ⟨‹_›, .grave found⟩
    | register | update =>
      have was := get?_of_get?_erase found
      exact .inr ⟨was.2, .grave was.1⟩

variable (clocked : st.Clocked nodeId)

include clocked

theorem Clocked.file (above : st.versionClock < ts) :
    (st.file dataset serviceId op ts).Clocked nodeId := by
  refine ⟨file_nodeId.trans clocked.node, ?_, ?_, ?_⟩
  · rw [file_versionClock]
    exact clocked.clock.trans above.le
  · intro k b v holds
    rw [file_versionClock]
    rcases holds_file holds with ⟨-, -, rfl⟩ | ⟨-, was⟩
    · exact ⟨clocked.node, le_refl ts⟩
    · exact (clocked.own k b v was).imp_right fun below => below.trans above.le
  · intro k b k' b' v holds holds'
    have older : ∀ {k b}, ¬st.Holds k b ⟨ts, st.nodeId⟩ := fun was =>
      absurd (clocked.own _ _ _ was).2 (not_le.mpr above)
    rcases holds_file holds with ⟨rfl, rfl, rfl⟩ | ⟨-, was⟩
    · rcases holds_file holds' with ⟨rfl, rfl, -⟩ | ⟨-, was'⟩
      · exact ⟨rfl, rfl⟩
      · exact absurd was' older
    · rcases holds_file holds' with ⟨rfl, rfl, rfl⟩ | ⟨-, was'⟩
      · exact absurd was older
      · exact clocked.distinct k b k' b' v was was'

theorem Clocked.withClock {clock : Int}
    (later : st.versionClock ≤ clock) : (st.withClock clock).Clocked nodeId := by
  have was : ∀ {k b v}, (st.withClock clock).Holds k b v → st.Holds k b v := by
    rintro k b v (⟨found⟩ | ⟨found⟩)
    · exact .live found
    · exact .grave found
  exact ⟨clocked.node, clocked.clock.trans later,
    fun k b v holds => (clocked.own k b v (was holds)).imp_right fun below => below.trans later,
    fun k b k' b' v holds holds' => clocked.distinct k b k' b' v (was holds) (was holds')⟩

theorem Clocked.gcTombstones (nowMs retentionMs : Int) :
    (st.gcTombstones nowMs retentionMs).Clocked nodeId := by
  have was : ∀ {k b v}, (st.gcTombstones nowMs retentionMs).Holds k b v → st.Holds k b v := by
    rintro k b v (⟨found⟩ | ⟨found⟩)
    · exact .live found
    · change (st.tombstones.retain _).get? k = some _ at found
      rw [get?_retain, Option.filter_eq_some_iff] at found
      exact .grave found.1
  exact ⟨clocked.node, clocked.clock, fun k b v holds => clocked.own k b v (was holds),
    fun k b k' b' v holds holds' => clocked.distinct k b k' b' v (was holds) (was holds')⟩

omit clocked

end ClusterState

namespace VersionedNode

/-- Both states are clocked, and the saved clock covers the versions that were returned. -/
structure Sound (nodeId : String) (s : VersionedNode) : Prop where
  state : s.state.Clocked nodeId
  file : s.file.Clocked nodeId
  behind : s.file.versionClock ≤ s.state.versionClock
  increasing : s.stamped.Pairwise (· < ·)
  covered : ∀ v ∈ s.stamped, v.ms ≤ s.file.versionClock

variable {nodeId : String} {s s' : VersionedNode} {l : VersionSection}

theorem sound_init (nodeId : String) : (init nodeId).Sound nodeId where
  state := clocked_new nodeId
  file := clocked_new nodeId
  behind := le_refl _
  increasing := .nil
  covered := nofun

variable (sound : s.Sound nodeId)

include sound

theorem Sound.withState {state : ClusterState}
    (clocked : state.Clocked nodeId) (later : s.state.versionClock ≤ state.versionClock) :
    Sound nodeId { s with state } :=
  ⟨clocked, sound.file, sound.behind.trans later, sound.increasing, sound.covered⟩

theorem Sound.stamps {state : ClusterState}
    (clocked : state.Clocked nodeId) (above : s.state.versionClock < state.versionClock) :
    Sound nodeId ⟨state, state, s.stamped ++ [⟨state.versionClock, nodeId⟩]⟩ := by
  have older : ∀ v ∈ s.stamped, v.ms < state.versionClock := fun v mem =>
    ((sound.covered v mem).trans sound.behind).trans_lt above
  refine ⟨clocked, clocked, le_refl _, ?_,
    forall_mem_concat (fun v mem => (older v mem).le) (le_refl _)⟩
  refine List.pairwise_append.mpr ⟨sound.increasing, List.pairwise_singleton _ _, ?_⟩
  intro v mem w is_new
  cases List.mem_singleton.mp is_new
  exact Version.lt_of_ms (older v mem)

/-- **A section that mints in range keeps the invariant.** -/
theorem Sound.step (range : s.InRange l) (step : s.step l = some s') : s'.Sound nodeId := by
  cases l with
  | stampLocal dataset serviceId op nowMs saved =>
    have above := clock_lt_nextTsLocked sound.state.clock range nowMs
    have clocked : (s.state.file dataset serviceId op (s.state.nextTsLocked nowMs)).Clocked nodeId :=
      sound.state.file above
    have filed : (s.state.file dataset serviceId op (s.state.nextTsLocked nowMs)).versionClock =
        s.state.nextTsLocked nowMs := file_versionClock
    rw [← filed] at above
    cases saved with
    | false =>
      cases step
      exact sound.withState clocked above.le
    | true =>
      cases step
      have stamps := sound.stamps clocked above
      rw [filed] at stamps
      exact sound.state.node ▸ stamps
  | ensure dataset serviceId nowMs =>
    cases step
    refine sound.withState ?_ ?_
    · unfold ensureLocalVersion
      split
      · exact sound.state
      · exact sound.state.file (clock_lt_nextTsLocked sound.state.clock range nowMs)
    · unfold ensureLocalVersion
      split
      · exact le_refl _
      · exact (clock_lt_nextTsLocked sound.state.clock range nowMs).le
  | nextVersion nowMs =>
    cases step
    have above := (clock_lt_nextTsLocked sound.state.clock range nowMs).le
    exact sound.withState (sound.state.withClock above) above
  | nextVersionAfter nowMs floorMs =>
    cases step
    have above := (clock_lt_nextTsAfter sound.state.clock range nowMs floorMs).le
    exact sound.withState (sound.state.withClock above) above
  | observeVersion ms =>
    cases step
    exact sound.withState (sound.state.withClock (le_max_left _ _)) (le_max_left _ _)
  | gcTombstones nowMs retentionMs =>
    cases step
    exact sound.withState (sound.state.gcTombstones nowMs retentionMs) (le_refl _)
  | save =>
    cases step
    exact ⟨sound.state, sound.state, le_refl _, sound.increasing,
      fun v mem => (sound.covered v mem).trans sound.behind⟩
  | restart =>
    cases step
    exact ⟨sound.file, sound.file, le_refl _, sound.increasing, sound.covered⟩

omit sound

/-- **Versions increase, over restarts too**, where the clock can be incremented. -/
theorem versions_increase {ls : List VersionSection}
    (run : Run (Under InRange (Steps step)) (.init nodeId) ls s) :
    s.stamped.Pairwise (· < ·) ∧
    (∀ k v t, s.state.localVersions.get? k = some v → s.state.tombstones.get? k ≠ some t) ∧
    (∀ k b k' b' v, s.state.Holds k b v → s.state.Holds k' b' v → k = k' ∧ b = b') ∧
    ∀ k b v, s.state.Holds k b v → v.ms ≤ s.state.versionClock := by
  have sound : s.Sound nodeId :=
    run.invariant_under (fun _ _ _ sound range step => Sound.step sound range step)
      (sound_init nodeId)
  refine ⟨sound.increasing, fun k v t live grave => ?_, sound.state.distinct,
    fun k b v holds => (sound.state.own k b v holds).2⟩
  rw [s.state.exclusive k v live] at grave
  cases grave

end VersionedNode

/-! ### A clock at the end of its range -/

namespace WrappingClock

/-- The clock steps back, a stamp is not saved, and the node restarts. -/
def steppingBack : List VersionSection :=
  [.stampLocal "ds" "x" .register 100 true, .stampLocal "ds" "x" .update 90 false, .restart,
    .nextVersionAfter 80 500, .stampLocal "ds" "x" .deregister 70 true]

theorem stamps_increase : ∃ s,
    Run (Under VersionedNode.InRange (Steps VersionedNode.step)) (.init "A") steppingBack s ∧
    s.stamped = [⟨100, "A"⟩, ⟨502, "A"⟩] ∧ s.stamped.Pairwise (· < ·) := by
  have run : Run (Under VersionedNode.InRange (Steps VersionedNode.step)) (.init "A")
    steppingBack _ := run_under_of_foldlM rfl
  exact ⟨_, run, rfl, (VersionedNode.versions_increase run).1⟩

/-- A version close to the greatest `i64`, and two stamps after it. -/
def wrapping : List VersionSection :=
  [.nextVersionAfter 100 (2 ^ 63 - 3), .stampLocal "ds" "x" .register 100 true,
    .stampLocal "ds" "x" .update 100 true]

/-- The wall clock reads 100 throughout, and the second stamp is below the first. -/
theorem clock_wraps : ∃ s, Run (Steps VersionedNode.step) (.init "A") wrapping s ∧
    s.stamped = [⟨2 ^ 63 - 1, "A"⟩, ⟨100, "A"⟩] ∧ ¬s.stamped.Pairwise (· < ·) := by
  have run : Run (Steps VersionedNode.step) (.init "A") wrapping _ := run_of_foldlM rfl
  exact ⟨_, run, by decide, by decide⟩

end WrappingClock

end AgentProtocols.Cluster
