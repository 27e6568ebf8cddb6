import AgentProtocols.Cluster.Suppression

/-!
The HOLD timer. `check_hold` collects the silent peers in one section and disconnects them in
sections of their own.

* `HoldTimer.Sound.step` — a peer that waits for its disconnection and is not heard from stays
  silent.
* `hold_expiry_drops_silent` — in every such run the sessions that are dropped were silent.
* `live_session_dropped` — a run in which a peer is dropped that has just sent a keepalive.
-/

namespace AgentProtocols.Cluster

open Lib OrderedMap

/-- A call of `check_hold` and the peers it has still to disconnect. -/
structure HoldCheck where
  now : Int
  stale : List String

/-- `removed` are the sessions that checks have dropped, each with the reading of its check. -/
structure HoldTimer where
  store : ClusterStore
  checks : List HoldCheck
  removed : List (Int × Peer)

/-- The next section. `touch` is `touch_peer`, with which the handlers begin. -/
inductive HoldSection where
  | touch (nodeId : String) (now : Int)
  | handleOpen (authenticate : String → Option AuthContext) (req : OpenRequest) (secret : String)
      (now : Int)
  | connectPeer (address : String) (resp : OpenResponse) (now : Int)
  | applyInbound (now : Int) (env : SyncEnvelope)
  | collect (now : Int)
  | disconnect (c : Nat) (now : Int)

namespace HoldTimer

variable (hold retention : Int) (s : HoldTimer)

/-- A section, with the `hold_timeout` and the `tombstone_retention` of the configuration. -/
def step : HoldSection → Option HoldTimer
  | .touch nodeId now => some { s with store := s.store.touchPeer nodeId now }
  | .handleOpen authenticate req secret now =>
    some { s with store := (s.store.handleOpen authenticate req secret now).2 }
  | .connectPeer address resp now => some { s with store := s.store.connected address resp now }
  | .applyInbound now env => some { s with store := (s.store.applyInbound now env).1 }
  | .collect now =>
    let silent := s.store.sessions.values.filter fun p => decide (hold < now - p.lastSeen)
    some { s with checks := s.checks ++ [⟨now, silent.map Peer.nodeId⟩] }
  | .disconnect c now => do
    let check ← s.checks[c]?
    match check.stale with
    | [] => none
    | nodeId :: rest =>
      some
        { store := s.store.disconnectPeer nodeId (now + retention)
          checks := s.checks.set c { check with stale := rest }
          removed := s.removed ++ ((s.store.sessions.get? nodeId).map fun p => (check.now, p)).toList }

/-- The peer whose session gets a new `last_seen`, and which. -/
def refreshes : HoldSection → Option (String × Int)
  | .touch nodeId now => if (s.store.sessions.get? nodeId).isSome then some (nodeId, now) else none
  | .handleOpen _ req _ now => some (req.nodeId, now)
  | .connectPeer _ resp now => some (resp.nodeId, now)
  | _ => none

/-- Nobody who waits for the disconnection is heard from, unless too long before the check. -/
def Silent (l : HoldSection) : Prop :=
  ∀ nodeId now, s.refreshes l = some (nodeId, now) →
    ∀ c ∈ s.checks, nodeId ∈ c.stale → hold < c.now - now

structure Sound : Prop where
  named : ∀ nodeId p, s.store.sessions.get? nodeId = some p → p.nodeId = nodeId
  pending : ∀ c ∈ s.checks, ∀ nodeId ∈ c.stale, ∀ p, s.store.sessions.get? nodeId = some p →
    hold < c.now - p.lastSeen
  removed : ∀ r ∈ s.removed, hold < r.1 - r.2.lastSeen

variable {hold retention s} {s' : HoldTimer} {l : HoldSection}

theorem step_sessions (step : s.step hold retention l = some s') {nodeId : String} {p : Peer}
    (found : s'.store.sessions.get? nodeId = some p) :
    s.store.sessions.get? nodeId = some p ∨ s.refreshes l = some (nodeId, p.lastSeen) ∧
      ((∀ nodeId p, s.store.sessions.get? nodeId = some p → p.nodeId = nodeId) →
        p.nodeId = nodeId) := by
  have opened : ∀ {peer : Peer}, (s.store.openSession peer).sessions.get? nodeId = some p →
      s.store.sessions.get? nodeId = some p ∨ nodeId = peer.nodeId ∧ p = peer := by
    intro peer found
    rw [ClusterStore.openSession, get?_insert] at found
    split at found
    · rename_i same
      exact .inr ⟨same, (Option.some.inj found).symm⟩
    · exact .inl found
  cases l with
  | touch id now =>
    cases step
    rw [ClusterStore.get?_touchPeer] at found
    obtain ⟨old, there, same⟩ := Option.map_eq_some_iff.mp found
    split at same
    · rename_i here
      subst here same
      exact .inr ⟨if_pos (Option.isSome_of_mem there), fun named => named nodeId old there⟩
    · exact .inl (there.trans (congrArg some same))
  | handleOpen authenticate req secret now =>
    cases step
    exact (opened found).imp_right fun ⟨same, is⟩ => by subst same is; exact ⟨rfl, fun _ => rfl⟩
  | connectPeer address resp now =>
    cases step
    exact (opened found).imp_right fun ⟨same, is⟩ => by subst same is; exact ⟨rfl, fun _ => rfl⟩
  | applyInbound now env =>
    cases step
    exact .inl ((ClusterStore.applyInbound_sameNode now env).sessions ▸ found)
  | collect now =>
    cases step
    exact .inl found
  | disconnect c now =>
    simp only [HoldTimer.step, bind_eq_some] at step
    obtain ⟨check, -, step⟩ := step
    split at step <;> cases step
    exact .inl (get?_of_get?_erase found).1

theorem Sound.step (sound : s.Sound hold) (silent : s.Silent hold l)
    (step : s.step hold retention l = some s') : s'.Sound hold := by
  have named : ∀ nodeId p, s'.store.sessions.get? nodeId = some p → p.nodeId = nodeId := by
    intro nodeId p found
    rcases step_sessions step found with old | ⟨-, named⟩
    · exact sound.named nodeId p old
    · exact named sound.named
  -- who waited before the section is as silent as before
  have waiting : ∀ c ∈ s.checks, ∀ nodeId ∈ c.stale, ∀ p,
      s'.store.sessions.get? nodeId = some p → hold < c.now - p.lastSeen := by
    intro c mem nodeId waits p found
    rcases step_sessions step found with old | ⟨heard, -⟩
    · exact sound.pending c mem nodeId waits p old
    · exact silent nodeId _ heard c mem waits
  refine ⟨named, ?_, ?_⟩
  · cases l with
    | collect now =>
      cases step
      intro c mem nodeId waits p found
      rcases List.mem_append.mp mem with old | new
      · exact waiting c old nodeId waits p found
      · cases List.mem_singleton.mp new
        obtain ⟨q, mem, rfl⟩ := List.mem_map.mp waits
        obtain ⟨inside, late⟩ := List.mem_filter.mp mem
        obtain ⟨⟨id, _⟩, entry, rfl⟩ := List.mem_map.mp inside
        have there := get?_eq_some_iff.mpr entry
        cases (sound.named id _ there ▸ found).symm.trans there
        exact of_decide_eq_true late
    | disconnect c now =>
      simp only [HoldTimer.step, bind_eq_some] at step
      obtain ⟨check, at_c, step⟩ := step
      split at step <;> cases step
      rename_i id rest stale
      intro c' mem nodeId waits p found
      rcases List.mem_or_eq_of_mem_set mem with old | rfl
      · exact waiting c' old nodeId waits p found
      · exact waiting check (List.mem_of_getElem? at_c) nodeId (stale ▸ .tail _ waits) p found
    | _ =>
      cases step
      exact waiting
  · cases l with
    | disconnect c now =>
      simp only [HoldTimer.step, bind_eq_some] at step
      obtain ⟨check, at_c, step⟩ := step
      split at step <;> cases step
      rename_i id rest stale
      intro r mem
      rcases List.mem_append.mp mem with old | new
      · exact sound.removed r old
      · obtain ⟨p, found, rfl⟩ := Option.map_eq_some_iff.mp (Option.mem_toList.mp new)
        exact sound.pending check (List.mem_of_getElem? at_c) id (stale ▸ .head _) p found
    | _ =>
      cases step
      exact sound.removed

end HoldTimer

/-- Where no collected peer is heard from, every session that is dropped was silent too long. -/
theorem hold_expiry_drops_silent {hold retention : Int} {start s : HoldTimer} {ls : List HoldSection}
    (named : ∀ nodeId p, start.store.sessions.get? nodeId = some p → p.nodeId = nodeId)
    (fresh : start.checks = [] ∧ start.removed = [])
    (run : Run (Under (HoldTimer.Silent hold) (Steps (HoldTimer.step hold retention))) start ls s) :
    (∀ r ∈ s.removed, hold < r.1 - r.2.lastSeen) ∧
    ∀ c ∈ s.checks, ∀ nodeId ∈ c.stale, ∀ p, s.store.sessions.get? nodeId = some p →
      hold < c.now - p.lastSeen := by
  have sound : s.Sound hold :=
    run.invariant_under (fun _ _ _ before silent step => before.step silent step)
      ⟨named, by simp [fresh.1], by simp [fresh.2]⟩
  exact ⟨sound.removed, sound.pending⟩

namespace HoldTimer

/-- A session with B, which was last seen at 0, and a record of B. -/
def paired : HoldTimer where
  store := ((Cooldown.home.openSession ⟨"B", "b", [], 0, none⟩).applyInbound 0 Cooldown.record).1
  checks := []
  removed := []

theorem named_paired (nodeId : String) (p : Peer)
    (found : paired.store.sessions.get? nodeId = some p) : p.nodeId = nodeId := by
  have mem := get?_eq_some_iff.mp found
  cases List.mem_singleton.mp (show (nodeId, p) ∈ [("B", (⟨"B", "b", [], 0, none⟩ : Peer))] from mem)
  rfl

theorem silent_session_dropped : ∃ s, Run (Under (Silent 30) (Steps (step 30 40))) paired
    [.collect 31, .disconnect 0 31] s ∧ s.removed ≠ [] ∧ ∀ r ∈ s.removed, 30 < r.1 - r.2.lastSeen := by
  have run : Run (Under (Silent 30) (Steps (step 30 40))) paired
      [.collect 31, .disconnect 0 31] _ :=
    .cons ⟨nofun, rfl⟩ (.cons ⟨nofun, rfl⟩ (.nil _))
  exact ⟨_, run, List.cons_ne_nil _ _,
    (hold_expiry_drops_silent named_paired ⟨rfl, rfl⟩ run).1⟩

/-- B sends a keepalive at 32 after it has been collected; its session and its record are gone. -/
theorem live_session_dropped : ∃ s, Run (Steps (step 30 40)) paired
    [.collect 31, .touch "B" 32, .disconnect 0 32] s ∧
    (∃ r ∈ s.removed, ¬30 < r.1 - r.2.lastSeen) ∧ s.store.sessions.get? "B" = none ∧
    s.store.foreign.get? Cooldown.record.key = none :=
  ⟨_, run_of_foldlM rfl, ⟨_, .head _, by decide⟩, rfl, rfl⟩

end HoldTimer

end AgentProtocols.Cluster
