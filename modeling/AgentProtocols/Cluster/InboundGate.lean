import AgentProtocols.Cluster.Overlay
import AgentProtocols.Cluster.OutboundScope
import AgentProtocols.Lib.Runs

/-!
Which envelopes reach the overlay of a node with auth enabled. Pushed ones pass `may_accept`
(`serveUpdates_covered`), pulled ones are applied as they come (`pulled_covered_iff`); `Inbound`
lists these sections. In a run whose pulls keep to their namespaces every envelope of the overlay
came in over a session that covers it: `overlay_from_sessions`.
-/

namespace AgentProtocols.Cluster

open Lib Merkle

namespace ClusterStore

variable {s s' : ClusterStore}

/-- The dataset is local and does not require auth. -/
def isPublic (s : ClusterStore) (dataset : String) : Bool :=
  match s.registry with
  | none => false
  | some reg => reg.listDatasets.contains dataset && !reg.isAuthRequired dataset

def SessionCovers (s : ClusterStore) (fromNode : String) (token : Option String)
    (dataset : String) : Prop :=
  ∃ session secret, s.sessions.get? fromNode = some session ∧ session.token = some secret ∧
    token = some secret ∧ dataset ∈ session.namespaces

/-! ### The gate of `serve_updates` -/

theorem get?_touchPeer (id j : String) (now : Int) :
    (s.touchPeer id now).sessions.get? j = (s.sessions.get? j).map fun p =>
      if j = id then { p with lastSeen := now } else p := by
  rw [touchPeer]
  split
  · rename_i absent
    split
    · rename_i here
      rw [here, absent]
      rfl
    · rw [Option.map_id']
  · rename_i p found
    simp only [OrderedMap.get?_insert]
    split
    · rename_i here
      rw [here, found]
      rfl
    · rw [Option.map_id']

theorem isAuthed_touchPeer (id fromNode : String) (now : Int) (token : Option String) :
    (s.touchPeer id now).isAuthed fromNode token = s.isAuthed fromNode token := by
  rw [isAuthed, isAuthed, (touchPeer_heard s id now).1.authEnabled, get?_touchPeer]
  cases s.sessions.get? fromNode with
  | none => rfl
  | some session =>
    simp only [Option.map_some]
    by_cases here : fromNode = id
    · rw [if_pos here]
    · rw [if_neg here]

theorem mayAccept_touchPeer (id fromNode dataset : String) (now : Int) (token : Option String) :
    (s.touchPeer id now).mayAccept fromNode dataset token = s.mayAccept fromNode dataset token := by
  have heard := (touchPeer_heard s id now).1
  have synced : ((s.touchPeer id now).sessions.get? fromNode).any
      (fun session => session.namespaces.contains dataset) =
        (s.sessions.get? fromNode).any fun session => session.namespaces.contains dataset := by
    rw [get?_touchPeer, Option.any_map]
    congr
    funext session
    by_cases here : fromNode = id
    · rw [if_pos here]
    · rw [if_neg here]
  rw [mayAccept, mayAccept, heard.authEnabled, heard.registry, isAuthed_touchPeer, synced]

variable {token : Option String} {envs : List SyncEnvelope} {fromNode : String}

theorem isAuthed_iff (auth : s.authEnabled = true) :
    s.isAuthed fromNode token = true ↔ ∃ session secret, s.sessions.get? fromNode = some session ∧
      session.token = some secret ∧ token = some secret := by
  rw [isAuthed, auth]
  cases s.sessions.get? fromNode with
  | none => simp
  | some session =>
    cases own : session.token with
    | none => simp [own]
    | some secret =>
      cases token with
      | none => simp [own]
      | some given =>
        simp only [own, Bool.not_true, Bool.false_eq_true, if_false, beq_iff_eq,
          Option.some.injEq, exists_and_left, exists_eq_left']
        exact eq_comm

theorem mayAccept_iff (auth : s.authEnabled = true) {dataset : String}
    : s.mayAccept fromNode dataset token = true ↔
      s.SessionCovers fromNode token dataset ∨ s.isPublic dataset = true := by
  have covers : (s.isAuthed fromNode token &&
      (s.sessions.get? fromNode).any fun session => session.namespaces.contains dataset) = true ↔
        s.SessionCovers fromNode token dataset := by
    rw [Bool.and_eq_true, isAuthed_iff auth]
    constructor
    · rintro ⟨⟨session, secret, found, own, given⟩, synced⟩
      rw [found] at synced
      exact ⟨session, secret, found, own, given, by simpa using synced⟩
    · rintro ⟨session, secret, found, own, given, synced⟩
      refine ⟨⟨session, secret, found, own, given⟩, ?_⟩
      rw [found]
      simpa using synced
  rw [mayAccept, auth, ← covers]
  split
  · rename_i disabled
    cases disabled
  · split
    · rename_i synced
      exact iff_of_true rfl (.inl synced)
    · rename_i unsynced
      exact (or_iff_right unsynced).symm

theorem SameNode.mayAccept (same : SameNode s s') (fromNode dataset : String)
    (token : Option String) :
    s'.mayAccept fromNode dataset token = s.mayAccept fromNode dataset token := by
  rw [ClusterStore.mayAccept, ClusterStore.mayAccept, isAuthed, isAuthed, same.authEnabled,
    same.sessions, same.registry]

theorem serveEnvelopes_filter (now : Int) (fromNode : String) (token : Option String)
    (envs : List SyncEnvelope) : ∀ s : ClusterStore,
    (serveEnvelopes now fromNode token s envs).1 =
      (applyAll now s (envs.filter fun e => s.mayAccept fromNode e.dataset token)).1 := by
  induction envs with
  | nil => exact fun _ => rfl
  | cons env envs ih =>
    intro s
    rw [serveEnvelopes, List.filter_cons]
    cases gate : s.mayAccept fromNode env.dataset token with
    | false => exact ih s
    | true =>
      have same := @applyInbound_sameNode s now env
      have rest := ih (s.applyInbound now env).1
      simp only [same.mayAccept] at rest
      exact rest

theorem mem_of_applyAll {now : Int} {k : Key} {e : SyncEnvelope}
    (found : (applyAll now s envs).1.foreign.get? k = some e) :
    s.foreign.get? k = some e ∨ e ∈ envs := by
  rw [(applyAll_eq now envs s).2.1] at found
  rcases Filing.candidate_of_offerAll found with stored | ⟨mem, -, -⟩
  · exact .inl stored
  · exact .inr mem

theorem serveUpdates_filter (clocks : Clocks) (fromNode : String) (envs : List SyncEnvelope)
    (token : Option String) : (s.serveUpdates clocks fromNode envs token).2 =
      (applyAll (clocks.monotonic 3) (s.touchPeer fromNode (clocks.monotonic 3))
        (envs.filter fun e => s.mayAccept fromNode e.dataset token)).1 := by
  have served : (s.serveUpdates clocks fromNode envs token).2 =
      (serveEnvelopes (clocks.monotonic 3) fromNode token
        (s.touchPeer fromNode (clocks.monotonic 3)) envs).1 := rfl
  rw [served, serveEnvelopes_filter]
  simp only [mayAccept_touchPeer]

/-- `serve_updates` adds envelopes of datasets that the session covers or that are public. -/
theorem serveUpdates_covered (auth : s.authEnabled = true) {clocks : Clocks}
    {k : Key} {e : SyncEnvelope}
    (found : (s.serveUpdates clocks fromNode envs token).2.foreign.get? k = some e) :
    s.foreign.get? k = some e ∨
      e ∈ envs ∧ (s.SessionCovers fromNode token e.dataset ∨ s.isPublic e.dataset = true) := by
  rw [serveUpdates_filter] at found
  rcases mem_of_applyAll found with stored | mem
  · rw [(touchPeer_heard s fromNode _).2] at stored
    exact .inl stored
  · obtain ⟨mem, gate⟩ := List.mem_filter.mp mem
    rw [mayAccept_iff auth] at gate
    exact .inr ⟨mem, gate⟩

/-! ### Runs -/

/-- The sections of the code in which envelopes come in, and all others. -/
inductive Inbound where
  /-- A call of `serve_updates`. -/
  | updates (clocks : Clocks) (fromNode : String) (envelopes : List SyncEnvelope)
      (token : Option String)
  /-- A reconciliation with this session applies the answer to its pull. -/
  | pulled (peer : Peer) (now : Int) (envelopes : List SyncEnvelope)
  /-- Anything else: sessions open and close, local records change, foreign records
  are dropped. -/
  | other

namespace Inbound

def Step (s : ClusterStore) : Inbound → ClusterStore → Prop
  | updates clocks fromNode envs token, s' => s' = (s.serveUpdates clocks fromNode envs token).2
  | pulled _ now envs, s' => s' = (applyAll now s envs).1
  | other, s' => s'.authEnabled = s.authEnabled ∧
      ∀ k e, s'.foreign.get? k = some e → s.foreign.get? k = some e

def envelopes : Inbound → List SyncEnvelope
  | updates _ _ envs _ => envs
  | pulled _ _ envs => envs
  | other => []

/-- The session over which the envelopes come in covers the dataset, or the dataset
is public. -/
def Covers (s : ClusterStore) : Inbound → String → Prop
  | updates _ fromNode _ token, dataset =>
    s.SessionCovers fromNode token dataset ∨ s.isPublic dataset = true
  | pulled peer _ _, dataset => dataset ∈ peer.namespaces ∨ s.isPublic dataset = true
  | other, _ => False

/-- What is new in the overlay came in over a session that covers it. -/
def AddsCovered (s : ClusterStore) (call : Inbound) (s' : ClusterStore) : Prop :=
  ∀ k e, s'.foreign.get? k = some e →
    s.foreign.get? k = some e ∨ e ∈ call.envelopes ∧ call.Covers s e.dataset

/-- The peer answers with no winning envelope outside the namespaces, public datasets apart. -/
def InScope (s : ClusterStore) : Inbound → Prop
  | pulled peer now envs => ∀ env ∈ envs, (s.filing now).Wins s.foreign env →
      env.dataset ∈ peer.namespaces ∨ s.isPublic env.dataset = true
  | _ => True

end Inbound

/-- A pull adds covered envelopes exactly if the peer answers within scope. -/
theorem pulled_covered_iff {peer : Peer} {now : Int} :
    (Inbound.pulled peer now envs).AddsCovered s (applyAll now s envs).1 ↔
      (Inbound.pulled peer now envs).InScope s := by
  have overlay := (applyAll_eq now envs s).2.1
  constructor
  · intro covered env mem wins
    have above : (env.version : WithBot Version) ≤
        (s.filing now).versionAt (applyAll now s envs).1.foreign env.key := by
      rw [overlay]
      exact Filing.version_le_offerAll mem wins.1
    cases found : (applyAll now s envs).1.foreign.get? env.key with
    | none =>
      rw [Filing.versionAt, found] at above
      exact absurd (le_bot_iff.mp above) WithBot.coe_ne_bot
    | some e =>
      have here := (applyAll now s envs).1.keyed env.key e found
      have dataset : e.dataset = env.dataset := congrArg Key.dataset here
      rw [← dataset]
      rcases covered env.key e found with stored | ⟨-, covers⟩
      · -- What was stored is older than the envelope, and what is found is not.
        have same : (s.filing now).versionAt (applyAll now s envs).1.foreign env.key =
            (s.filing now).versionAt s.foreign env.key :=
          Filing.versionAt_congr (found.trans stored.symm)
        rw [same] at above
        exact absurd wins.2 (not_lt.mpr above)
      · exact covers
  · intro within k e found
    rw [overlay] at found
    by_cases stored : s.foreign.get? k = some e
    · exact .inl stored
    · obtain ⟨mem, -, wins⟩ := Filing.wins_of_get?_offerAll found stored
      exact .inr ⟨mem, within e mem wins⟩

theorem step_covered {call : Inbound} (auth : s.authEnabled = true) (within : call.InScope s)
    (step : call.Step s s') : call.AddsCovered s s' ∧ s'.authEnabled = true := by
  cases call with
  | updates clocks fromNode envs token =>
    cases step
    refine ⟨fun k e found => serveUpdates_covered auth found, ?_⟩
    rw [serveUpdates_filter, (applyAll_eq _ _ _).1.authEnabled,
      (touchPeer_heard s fromNode _).1.authEnabled]
    exact auth
  | pulled peer now envs =>
    cases step
    exact ⟨pulled_covered_iff.mpr within, (applyAll_eq now envs s).1.authEnabled.trans auth⟩
  | other => exact ⟨fun k e found => .inl (step.2 k e found), step.1.trans auth⟩

/-- Every envelope of the overlay came in over a session that covered its dataset. -/
theorem overlay_from_sessions {calls : List Inbound} (auth : s.authEnabled = true)
    (run : Run (Under (fun s call => call.InScope s) fun s call => call.Step s) s calls s') :
    ∀ k e, s'.foreign.get? k = some e → s.foreign.get? k = some e ∨
      ∃ before call after store, calls = before ++ call :: after ∧
        Run (fun s call => Inbound.Step s call) s before store ∧
        e ∈ call.envelopes ∧ call.Covers store e.dataset := by
  induction run with
  | nil s => exact fun k e found => .inl found
  | @cons s t u call calls step rest ih =>
    intro k e found
    obtain ⟨adds, stays⟩ := step_covered auth step.1 step.2
    rcases ih stays k e found with stored | ⟨before, later, after, store, rfl, reach, mem, covers⟩
    · rcases adds k e stored with start | ⟨mem, covers⟩
      · exact .inl start
      · exact .inr ⟨[], call, calls, s, rfl, .nil s, mem, covers⟩
    · exact .inr ⟨call :: before, later, after, store, rfl, .cons step.2 reach, mem, covers⟩

end ClusterStore

/-! ### A pushed record and a forged answer -/

namespace Forged

/-- The session with the peer: one namespace, and the token the peer was given. -/
def peer : Peer := ⟨"B", "B", ["open"], 0, some "t"⟩

def home : ClusterStore where
  state := .new "A"
  foreign := .empty
  sessions := OrderedMap.empty.insert "B" peer
  evictedUntil := .empty
  registry := none
  merkleBuckets := 256
  authEnabled := true
  keyed := foreign_empty_keyed
  notOwn := foreign_empty_notOwn "A"

def clocks : Clocks := ⟨fun _ => 5, fun _ => 0⟩

def pushed : SyncEnvelope := ⟨"open", "x", "B", ⟨1, "B"⟩, false, none⟩

def forged : SyncEnvelope := ⟨"secure", "x", "B", ⟨1, "B"⟩, false, none⟩

/-- The overlay after a push of both records: the covered one came in, over the
session. -/
theorem push_covered :
    ∃ before call after store,
      [ClusterStore.Inbound.updates clocks "B" [forged, pushed] (some "t")] =
        before ++ call :: after ∧
      Run (fun s call => ClusterStore.Inbound.Step s call) home before store ∧
        pushed ∈ call.envelopes ∧ call.Covers store "open" := by
  have run : Run (Under (fun s call => ClusterStore.Inbound.InScope s call) fun s call =>
      ClusterStore.Inbound.Step s call) home
      [.updates clocks "B" [forged, pushed] (some "t")]
      (home.serveUpdates clocks "B" [forged, pushed] (some "t")).2 :=
    .cons ⟨trivial, rfl⟩ (.nil _)
  rcases ClusterStore.overlay_from_sessions rfl run pushed.key pushed rfl with stored | covered
  · cases stored
  · exact covered

/-- The peer answers with a row and an envelope of a dataset that the session does
not sync. -/
def replies : Replies where
  merkle := some (OrderedMap.empty.insert "0" "")
  digest := some [(forged.key, forged.version)]
  pull := some [forged]
  updates := none

theorem forged_answer_stored : ¬∀ replies k e,
    (home.reconcileWith Unaccepted.zeros Unaccepted.byKey peer clocks replies
      .quiet).store.foreign.get? k = some e →
    home.foreign.get? k = some e ∨ e.dataset ∈ peer.namespaces ∨
      home.isPublic e.dataset = true := by
  intro covered
  rcases covered replies forged.key forged (by rfl) with stored | synced | anonymous
  · cases stored
  · exact absurd synced (by decide)
  · cases anonymous

end Forged

end AgentProtocols.Cluster
