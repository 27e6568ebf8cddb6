import AgentProtocols.Cluster.Handshake
import AgentProtocols.Cluster.Replication

/-!
Eviction of a peer and the suppression of its records. The clock is read before the lock is taken.

* `suppression_holds` — in every run no record in the overlay has an origin whose cooldown is not
  over, and an evicted origin stays away until its cooldown is over or a session is opened.
* `stale_eviction_shortens` — a call that read the clock earlier cuts short a later cooldown.
-/

namespace AgentProtocols.Cluster

open Lib OrderedMap

/-! ### The sections -/

/-- Keep the tombstones that are not older than the retention. -/
def ClusterState.gcTombstones (st : ClusterState) (nowMs retentionMs : Int) : ClusterState :=
  { st with
    tombstones := st.tombstones.retain fun _ t => decide (nowMs - t.deletedAtMs ≤ retentionMs)
    exclusive := by
      intro k v found
      rw [OrderedMap.get?_retain, st.exclusive k v found]
      rfl
    separated := by
      intro k t found
      rw [OrderedMap.get?_retain, Option.filter_eq_some_iff] at found
      exact st.separated k t found.1 }

namespace ClusterStore

variable (s : ClusterStore)

def keepForeign (p : Key → SyncEnvelope → Bool) : ClusterStore :=
  { s with
    foreign := s.foreign.retain p
    keyed := by
      intro k e found
      rw [OrderedMap.get?_retain, Option.filter_eq_some_iff] at found
      exact s.keyed k e found.1
    notOwn := by
      intro k e found
      rw [OrderedMap.get?_retain, Option.filter_eq_some_iff] at found
      exact s.notOwn k e found.1 }

/-- `gc_tombstones`: local tombstones by the time of the deletion, foreign ones by their
version. -/
def gcTombstones (nowMs retentionMs : Int) : ClusterStore :=
  (s.withState (s.state.gcTombstones nowMs retentionMs) rfl).keepForeign fun _ env =>
    !(env.tombstone && decide (retentionMs < nowMs - env.version.ms))

/-- `disconnect_peer`, with the deadline made of an earlier reading of the clock. -/
def disconnectPeer (nodeId : String) (deadline : Int) : ClusterStore :=
  { s.keepForeign fun k _ => !decide (k.originId = nodeId) with
    sessions := s.sessions.erase nodeId
    evictedUntil := s.evictedUntil.insert nodeId deadline }

def pruneSuppression (now : Int) : ClusterStore :=
  { s with evictedUntil := s.evictedUntil.retain fun _ deadline => decide (now < deadline) }

variable {s} {k : Key} {e : SyncEnvelope}

theorem get?_keepForeign {p : Key → SyncEnvelope → Bool}
    (found : (s.keepForeign p).foreign.get? k = some e) :
    s.foreign.get? k = some e ∧ p k e = true := by
  change (s.foreign.retain p).get? k = some e at found
  rwa [get?_retain, Option.filter_eq_some_iff] at found

theorem applyInbound_cases (now : Int) (env : SyncEnvelope) :
    (s.applyInbound now env).1 = s ∨
      ((s.applyInbound now env).1.foreign = s.foreign.insert env.key env ∧
        (s.applyInbound now env).1.evictedUntil = s.evictedUntil ∧
        ∀ deadline, s.evictedUntil.get? env.originId = some deadline → deadline ≤ now) := by
  rw [applyInbound]
  split
  · exact .inl rfl
  · split
    · exact .inl rfl
    · rename_i unsuppressed
      split
      · refine .inr ⟨rfl, rfl, fun deadline found => ?_⟩
        rw [found, Option.any_some, decide_eq_true_eq] at unsuppressed
        exact not_lt.mp unsuppressed
      · exact .inl rfl

end ClusterStore

/-! ### Runs -/

/-- A store and the monotonic clock. -/
structure Suppression where
  store : ClusterStore
  clock : Int

/-- The next section; a drop of `check_hold` is a `disconnectPeer`. -/
inductive OverlaySection where
  | tick (later : Int)
  | applyInbound (now : Int) (env : SyncEnvelope)
  | handleOpen (authenticate : String → Option AuthContext) (req : OpenRequest) (secret : String)
      (now : Int)
  | connectPeer (address : String) (resp : OpenResponse) (now : Int)
  | disconnectPeer (nodeId : String) (now : Int)
  | pruneSuppression (now : Int)
  | gcTombstones (nowMs retentionMs : Int)

/-- The origin of which the section opens a session. -/
def OverlaySection.opens : OverlaySection → Option String
  | handleOpen _ req _ _ => some req.nodeId
  | connectPeer _ resp _ => some resp.nodeId
  | _ => none

def OverlaySection.evicts : OverlaySection → Option String
  | disconnectPeer nodeId _ => some nodeId
  | _ => none

namespace Suppression

variable (retention : Int)

/-- A section, with `retention` the `tombstone_retention` of the configuration. -/
def step (s : Suppression) : OverlaySection → Option Suppression
  | .tick later => if s.clock ≤ later then some { s with clock := later } else none
  | .applyInbound now env =>
    if now ≤ s.clock then some { s with store := (s.store.applyInbound now env).1 } else none
  | .handleOpen authenticate req secret now =>
    if now ≤ s.clock then
      some { s with store := (s.store.handleOpen authenticate req secret now).2 } else none
  | .connectPeer address resp now =>
    if now ≤ s.clock then some { s with store := s.store.connected address resp now } else none
  | .disconnectPeer nodeId now =>
    if now ≤ s.clock then
      some { s with store := s.store.disconnectPeer nodeId (now + retention) } else none
  | .pruneSuppression now =>
    if now ≤ s.clock then some { s with store := s.store.pruneSuppression now } else none
  | .gcTombstones nowMs retentionMs =>
    some { s with store := s.store.gcTombstones nowMs retentionMs }

/-- No record of the overlay has an origin whose deadline is still to come. -/
def Holds (s : Suppression) : Prop :=
  ∀ k e deadline, s.store.foreign.get? k = some e →
    s.store.evictedUntil.get? k.originId = some deadline → deadline ≤ s.clock

/-- No record of the origin is in the overlay. -/
def Hidden (s : Suppression) (origin : String) : Prop :=
  ∀ k e, s.store.foreign.get? k = some e → k.originId ≠ origin

/-- The deadline of the origin stands and its records are hidden, or the deadline is over. -/
def Cools (origin : String) (deadline : Int) (s : Suppression) : Prop :=
  deadline ≤ s.clock ∨
    (s.store.evictedUntil.get? origin = some deadline ∧ s.Hidden origin)

variable {retention} {s s' : Suppression} {l : OverlaySection} {origin : String} {deadline : Int}

structure Changes (l : OverlaySection) (s s' : Suppression) : Prop where
  clock : s.clock ≤ s'.clock
  /-- The key of a record was there, or its origin had no deadline to come. -/
  foreign : ∀ k e, s'.store.foreign.get? k = some e → (∃ e, s.store.foreign.get? k = some e) ∨
    ∀ deadline, s.store.evictedUntil.get? k.originId = some deadline → deadline ≤ s.clock
  deadlines : ∀ origin deadline, s'.store.evictedUntil.get? origin = some deadline →
    s.store.evictedUntil.get? origin = some deadline ∨ s'.Hidden origin
  /-- A deadline to come stays until a session is opened or the origin evicted again. -/
  stays : ∀ origin deadline, s.store.evictedUntil.get? origin = some deadline →
    s.clock < deadline → l.opens ≠ some origin → l.evicts ≠ some origin →
    s'.store.evictedUntil.get? origin = some deadline

theorem Changes.refl (later : s.clock ≤ s'.clock) (foreign : s'.store.foreign = s.store.foreign)
    (deadlines : s'.store.evictedUntil = s.store.evictedUntil) : Changes l s s' where
  clock := later
  foreign _ e found := .inl ⟨e, foreign ▸ found⟩
  deadlines _ _ found := .inl (deadlines ▸ found)
  stays _ _ found _ _ _ := deadlines ▸ found

theorem Changes.openSession {peer : Peer} (opens : l.opens = some peer.nodeId) :
    Changes l s { s with store := s.store.openSession peer } where
  clock := le_refl _
  foreign _ e found := .inl ⟨e, found⟩
  deadlines _ _ found := .inl (get?_of_get?_erase found).1
  stays origin _ found _ other _ := by
    have ne : origin ≠ peer.nodeId := by
      rintro rfl
      exact other opens
    exact (get?_erase_of_ne ne).trans found

theorem step_changes (step : s.step retention l = some s') : Changes l s s' := by
  cases l with
  | tick later =>
    simp only [Suppression.step, Option.ite_none_right_eq_some, Option.some.injEq] at step
    obtain ⟨later, rfl⟩ := step
    exact .refl later rfl rfl
  | applyInbound now env =>
    simp only [Suppression.step, Option.ite_none_right_eq_some, Option.some.injEq] at step
    obtain ⟨past, rfl⟩ := step
    rcases s.store.applyInbound_cases now env with same | ⟨foreign, deadlines, ceased⟩
    · exact .refl (le_refl _) (congrArg _ same) (congrArg _ same)
    · refine ⟨le_refl _, fun k e found => ?_, fun origin deadline found => .inl ?_,
        fun origin deadline found _ _ _ => ?_⟩
      · change (s.store.applyInbound now env).1.foreign.get? k = some e at found
        rw [foreign, get?_insert] at found
        split at found
        · rename_i here
          rw [here]
          exact .inr fun deadline until' => (ceased deadline until').trans past
        · exact .inl ⟨e, found⟩
      · exact deadlines ▸ found
      · exact deadlines ▸ found
  | handleOpen authenticate req secret now =>
    simp only [Suppression.step, Option.ite_none_right_eq_some, Option.some.injEq] at step
    obtain ⟨-, rfl⟩ := step
    exact .openSession rfl
  | connectPeer address resp now =>
    simp only [Suppression.step, Option.ite_none_right_eq_some, Option.some.injEq] at step
    obtain ⟨-, rfl⟩ := step
    exact .openSession rfl
  | disconnectPeer nodeId now =>
    simp only [Suppression.step, Option.ite_none_right_eq_some, Option.some.injEq] at step
    obtain ⟨-, rfl⟩ := step
    refine ⟨le_refl _, fun k e found => ?_, fun origin deadline found => ?_,
      fun origin deadline found _ _ other => ?_⟩
    · exact .inl ⟨e, (ClusterStore.get?_keepForeign found).1⟩
    · change (s.store.evictedUntil.insert nodeId _).get? origin = some deadline at found
      rw [get?_insert] at found
      split at found
      · rename_i here
        subst here
        refine .inr fun k e found => ?_
        have kept := (ClusterStore.get?_keepForeign found).2
        simpa using kept
      · exact .inl found
    · have ne : origin ≠ nodeId := by
        rintro rfl
        exact other rfl
      exact (get?_insert_of_ne ne).trans found
  | pruneSuppression now =>
    simp only [Suppression.step, Option.ite_none_right_eq_some, Option.some.injEq] at step
    obtain ⟨past, rfl⟩ := step
    refine ⟨le_refl _, fun k e found => .inl ⟨e, found⟩, fun origin deadline found => ?_,
      fun origin deadline found ahead _ _ => ?_⟩
    · change (s.store.evictedUntil.retain _).get? origin = some deadline at found
      rw [get?_retain, Option.filter_eq_some_iff] at found
      exact .inl found.1
    · change (s.store.evictedUntil.retain _).get? origin = some deadline
      rw [get?_retain, Option.filter_eq_some_iff]
      exact ⟨found, decide_eq_true (past.trans_lt ahead)⟩
  | gcTombstones nowMs retentionMs =>
    cases step
    refine ⟨le_refl _, fun k e found => .inl ⟨e, ?_⟩, fun origin deadline found => .inl found,
      fun origin deadline found _ _ _ => found⟩
    exact (ClusterStore.get?_keepForeign found).1

theorem Holds.step (holds : s.Holds) (step : s.step retention l = some s') : s'.Holds := by
  have changes := step_changes step
  intro k e deadline found until'
  rcases changes.deadlines _ _ until' with was | hidden
  · refine le_trans ?_ changes.clock
    rcases changes.foreign k e found with ⟨e', found⟩ | ceased
    · exact holds k e' deadline found was
    · exact ceased deadline was
  · exact absurd rfl (hidden k e found)

theorem Cools.step (cools : Cools origin deadline s) (opens : l.opens ≠ some origin)
    (evicts : l.evicts ≠ some origin) (step : s.step retention l = some s') :
    Cools origin deadline s' := by
  have changes := step_changes step
  rcases cools with ceased | ⟨until', hidden⟩
  · exact .inl (ceased.trans changes.clock)
  · by_cases ceased : deadline ≤ s.clock
    · exact .inl (ceased.trans changes.clock)
    · have ahead := not_le.mp ceased
      refine .inr ⟨changes.stays origin deadline until' ahead opens evicts, ?_⟩
      rintro k e found rfl
      rcases changes.foreign k e found with ⟨e', found⟩ | past
      · exact hidden k e' found rfl
      · exact ceased (past deadline until')

theorem Cools.evicted {now : Int}
    (step : s.step retention (.disconnectPeer origin now) = some s') :
    Cools origin (now + retention) s' := by
  have found : s'.store.evictedUntil.get? origin = some (now + retention) ∧ s'.Hidden origin := by
    simp only [Suppression.step, Option.ite_none_right_eq_some, Option.some.injEq] at step
    obtain ⟨-, rfl⟩ := step
    refine ⟨get?_insert_self, fun k e found => ?_⟩
    have kept := (ClusterStore.get?_keepForeign found).2
    simpa using kept
  exact .inr found

theorem Cools.run {ls : List OverlaySection} (cools : Cools origin deadline s)
    (calm : ∀ l ∈ ls, l.opens ≠ some origin ∧ l.evicts ≠ some origin)
    (run : Run (Steps (Suppression.step retention)) s ls s') : Cools origin deadline s' := by
  induction run with
  | nil => exact cools
  | cons step rest ih =>
    have first := calm _ (.head _)
    exact ih (cools.step first.1 first.2 step) fun l mem => calm l (.tail _ mem)

/-- **No record of a suppressed origin is in the overlay**, in any interleaving of the sections. -/
theorem suppression_holds {start : Suppression} {ls : List OverlaySection}
    (fresh : start.store.foreign = .empty) (run : Run (Steps (step retention)) start ls s) :
    s.Holds ∧ ∀ before after origin now, ls = before ++ .disconnectPeer origin now :: after →
      (∀ l ∈ after, l.opens ≠ some origin ∧ l.evicts ≠ some origin) →
      s.clock < now + retention → s.Hidden origin := by
  constructor
  · refine run.invariant (fun s l s' holds step => Holds.step holds step) ?_
    intro k e deadline found
    rw [fresh] at found
    cases found
  · rintro before after origin now rfl calm early
    obtain ⟨mid, -, rest⟩ := run.split
    obtain ⟨evicted, step, rest⟩ := rest.cons_inv
    rcases Cools.run (Cools.evicted step) calm rest with ceased | ⟨-, hidden⟩
    · exact absurd early (not_lt.mpr ceased)
    · exact hidden

end Suppression

/-! ### An eviction that acts on an old reading -/

namespace Cooldown

/-- A store of its own node, with nothing in it. -/
def home : ClusterStore where
  state := .new "A"
  foreign := .empty
  sessions := .empty
  evictedUntil := .empty
  registry := none
  merkleBuckets := 1
  authEnabled := false
  keyed := foreign_empty_keyed
  notOwn := foreign_empty_notOwn "A"

def start : Suppression := ⟨home, 0⟩

/-- A live record of the node B. -/
def record : SyncEnvelope := ⟨"ds", "x", "B", ⟨1, "B"⟩, false, none⟩

def evicting : List OverlaySection :=
  [.tick 10, .disconnectPeer "B" 10, .tick 45, .applyInbound 45 record]

theorem evicted_stays_hidden : ∃ s, Run (Steps (Suppression.step 40)) start evicting s ∧
    s.clock = 45 ∧ s.Holds ∧ s.Hidden "B" := by
  have run : Run (Steps (Suppression.step 40)) start evicting _ := run_of_foldlM rfl
  have facts := Suppression.suppression_holds rfl run
  exact ⟨_, run, rfl, facts.1, facts.2 [.tick 10] [.tick 45, .applyInbound 45 record] "B" 10 rfl
    (by decide) (by decide)⟩

/-- A second call has read the clock at 0 and takes the lock after the first. -/
def overtaking : List OverlaySection :=
  [.tick 10, .disconnectPeer "B" 10, .disconnectPeer "B" 0, .tick 45, .applyInbound 45 record]

/-- B is evicted at 10 with a retention of 40, and its record is back at 45. -/
theorem stale_eviction_shortens : ∃ s, Run (Steps (Suppression.step 40)) start overtaking s ∧
    (∀ l ∈ overtaking, l.opens ≠ some "B") ∧ s.clock < 10 + 40 ∧
    s.store.foreign.get? record.key = some record ∧ record.tombstone = false :=
  ⟨_, run_of_foldlM rfl, by decide, by decide, rfl, rfl⟩

end Cooldown

end AgentProtocols.Cluster
