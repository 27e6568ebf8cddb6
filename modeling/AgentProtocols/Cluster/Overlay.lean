import AgentProtocols.Cluster.Store

/-!
The overlay as the join of what was received: `receive_foreign` reads `receive` as offers, so the
order, the repetition and the clock do not matter (`overlay_is_join`).
-/

namespace AgentProtocols.Cluster

open Lib

namespace ClusterStore

/-- An envelope and the reading of the clock at which it is applied. -/
abbrev Receipt := SyncEnvelope × Int

/-- Apply the envelopes in the order in which they are received. -/
def receive (s : ClusterStore) (receipts : List Receipt) : ClusterStore :=
  receipts.foldl (fun s r => (s.applyInbound r.2 r.1).1) s

/-- The origin's records are suppressed at the time. -/
def suppressed (s : ClusterStore) (origin : String) (now : Int) : Bool :=
  (s.evictedUntil.get? origin).any fun deadline => decide (now < deadline)

/-- How the overlay files envelopes of origins that it does not suppress. -/
def overlayFiling (s : ClusterStore) : Filing Key Version SyncEnvelope where
  key := SyncEnvelope.key
  version := SyncEnvelope.version
  admits e := decide (e.originId ≠ s.nodeId)

/-- The envelope is in the overlay or among those received. -/
def StoredOrReceived (s : ClusterStore) (envs : List SyncEnvelope) (env : SyncEnvelope) : Prop :=
  s.foreign.get? env.key = some env ∨ env ∈ envs

variable {s : ClusterStore} {receipts : List Receipt} {envs : List SyncEnvelope}

theorem applyInbound_foreign {env : SyncEnvelope} {now : Int}
    (free : s.suppressed env.originId now = false) :
    (s.applyInbound now env).1.foreign = s.overlayFiling.offer s.foreign env := by
  have admits : (s.filing now).admits env = s.overlayFiling.admits env := by
    rw [Bool.eq_iff_iff, admits_iff]
    show _ ↔ decide (env.originId ≠ s.nodeId) = true
    rw [decide_eq_true_iff]
    refine and_iff_left ?_
    intro suppressed
    exact Bool.false_ne_true (free.symm.trans suppressed)
  have wins : (s.filing now).Wins s.foreign env ↔ s.overlayFiling.Wins s.foreign env := by
    rw [Filing.Wins, admits]
    rfl
  rw [(applyInbound_eq now env).1, Filing.offer, Filing.offer]
  by_cases newer : s.overlayFiling.Wins s.foreign env
  · rw [if_pos (wins.mpr newer), if_pos newer]
    rfl
  · rw [if_neg fun w => newer (wins.mp w), if_neg newer]

theorem receive_foreign (free : ∀ r ∈ receipts, s.suppressed r.1.originId r.2 = false) :
    (s.receive receipts).foreign = s.overlayFiling.offerAll s.foreign (receipts.map Prod.fst) := by
  induction receipts generalizing s with
  | nil => rfl
  | cons r receipts ih =>
    have same := applyInbound_sameNode (s := s) r.2 r.1
    have later : ∀ r' ∈ receipts,
        (s.applyInbound r.2 r.1).1.suppressed r'.1.originId r'.2 = false := by
      intro r' mem
      rw [suppressed, same.evictedUntil]
      exact free r' (.tail _ mem)
    have filed : (s.applyInbound r.2 r.1).1.overlayFiling = s.overlayFiling := by
      rw [overlayFiling, overlayFiling, nodeId, nodeId, same.state]
    have rest := ih later
    rw [filed, applyInbound_foreign (free r (.head _))] at rest
    exact rest

theorem candidate_iff {k : Key} {env : SyncEnvelope}
    (foreign : ∀ env ∈ envs, env.originId ≠ s.nodeId) :
    s.overlayFiling.Candidate s.foreign envs k env ↔ env.key = k ∧ s.StoredOrReceived envs env := by
  constructor
  · rintro (stored | ⟨mem, -, here⟩)
    · have here := s.keyed k env stored
      refine ⟨here, .inl ?_⟩
      rw [here]
      exact stored
    · exact ⟨here, .inr mem⟩
  · rintro ⟨rfl, stored | mem⟩
    · exact .inl stored
    · exact .inr ⟨mem, decide_eq_true (foreign env mem), rfl⟩

variable (s envs receipts) in
/-- The overlay is at the newest envelope of each key, whatever order they came in. -/
theorem overlay_is_join
    (foreign : ∀ env ∈ envs, env.originId ≠ s.nodeId)
    (consistent : ∀ a b, s.StoredOrReceived envs a → s.StoredOrReceived envs b →
      a.key = b.key → a.version = b.version → a = b)
    (received : ∀ env, env ∈ receipts.map Prod.fst ↔ env ∈ envs)
    (free : ∀ r ∈ receipts, s.suppressed r.1.originId r.2 = false) :
    (∀ k env, (s.receive receipts).foreign.get? k = some env ↔
      env.key = k ∧ s.StoredOrReceived envs env ∧
        ∀ other, s.StoredOrReceived envs other → other.key = k → other.version ≤ env.version) ∧
    (∀ receipts' : List Receipt, (∀ env, env ∈ receipts'.map Prod.fst ↔ env ∈ envs) →
      (∀ r ∈ receipts', s.suppressed r.1.originId r.2 = false) →
      ∀ k, (s.receive receipts').foreign.get? k = (s.receive receipts).foreign.get? k) ∧
    ∀ grave, s.StoredOrReceived envs grave → grave.tombstone = true →
      ∀ live, live.version < grave.version →
        (s.receive receipts).foreign.get? grave.key ≠ some live := by
  have shown : ∀ {receipts : List Receipt},
      (∀ env, env ∈ receipts.map Prod.fst ↔ env ∈ envs) →
      (∀ r ∈ receipts, s.suppressed r.1.originId r.2 = false) →
      ∀ k env, (s.receive receipts).foreign.get? k = some env ↔
        env.key = k ∧ s.StoredOrReceived envs env ∧
          ∀ other, s.StoredOrReceived envs other → other.key = k →
            other.version ≤ env.version := by
    intro receipts received free k env
    have unambiguous : s.overlayFiling.Consistent s.foreign (receipts.map Prod.fst) := by
      intro k a b candA candB version
      rw [Filing.Candidate.congr received, candidate_iff foreign] at candA candB
      exact consistent a b candA.2 candB.2 (candA.1.trans candB.1.symm) version
    rw [receive_foreign free, Filing.get?_offerAll_iff unambiguous, Filing.Newest.congr received]
    simp only [Filing.Newest, candidate_iff foreign, and_assoc, and_imp]
    refine and_congr_right fun here => and_congr_right fun mem => ?_
    exact ⟨fun newest other mem key => newest other key mem,
      fun newest other key mem => newest other mem key⟩
  refine ⟨shown received free, ?_, ?_⟩
  · intro receipts' received' free' k
    apply Option.ext
    intro env
    rw [shown received' free', shown received free]
  · intro grave mem _ live older found
    obtain ⟨-, -, newest⟩ := (shown received free grave.key live).mp found
    exact absurd (newest grave mem rfl) (not_le.mpr older)

end ClusterStore

/-! ### A deletion that overtakes its record -/

namespace Overtaken

def home : ClusterStore where
  state := .new "A"
  foreign := .empty
  sessions := .empty
  evictedUntil := .empty
  registry := none
  merkleBuckets := 256
  authEnabled := false
  keyed := foreign_empty_keyed
  notOwn := foreign_empty_notOwn "A"

def live : SyncEnvelope := ⟨"ds", "x", "B", ⟨1, "B"⟩, false, none⟩

def grave : SyncEnvelope := ⟨"ds", "x", "B", ⟨2, "B"⟩, true, none⟩

/-- The deletion comes first, and the record twice after it. -/
theorem deletion_overtakes :
    (home.receive [(grave, 0), (live, 1), (live, 2)]).foreign.get? live.key = some grave ∧
      ∀ k, (home.receive [(live, 5), (grave, 3)]).foreign.get? k =
        (home.receive [(grave, 0), (live, 1), (live, 2)]).foreign.get? k := by
  have only : ∀ env, home.StoredOrReceived [live, grave] env → env = live ∨ env = grave := by
    rintro env (stored | mem)
    · cases stored
    · simpa using mem
  have consistent : ∀ a b, home.StoredOrReceived [live, grave] a →
      home.StoredOrReceived [live, grave] b → a.key = b.key → a.version = b.version → a = b := by
    intro a b memA memB _ version
    rcases only a memA with rfl | rfl <;> rcases only b memB with rfl | rfl
    · rfl
    · exact absurd version (by decide)
    · exact absurd version (by decide)
    · rfl
  obtain ⟨-, ordered, -⟩ := ClusterStore.overlay_is_join home
    [(grave, 0), (live, 1), (live, 2)] [live, grave]
    (by simp [home, live, grave, ClusterStore.nodeId]) consistent
    (by intro env; simp; tauto) (fun _ _ => rfl)
  refine ⟨rfl, ?_⟩
  exact ordered [(live, 5), (grave, 3)] (by intro env; simp) (fun _ _ => rfl)

end Overtaken

end AgentProtocols.Cluster
