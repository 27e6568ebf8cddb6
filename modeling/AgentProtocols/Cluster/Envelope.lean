import Mathlib.Data.List.TakeWhile
import Mathlib.Data.Prod.Lex
import Mathlib.Data.String.Basic
import AgentProtocols.Json.Value
import AgentProtocols.Lib.LastWriter

/-!
Sync envelopes, versions and the persisted state of a node. Versions are pairs of a time and a node
id in lexicographic order. The state files its own records under a composite text, which `splitKey`
takes apart again (`makeKey_splitKey`).
-/

namespace AgentProtocols.Cluster

open Lib

/-! ### Versions and envelopes -/

/-- LWW version `(updated_at_ms, node_id)`. -/
structure Version where
  ms : Int
  nodeId : String
deriving DecidableEq

namespace Version

def toPair (v : Version) : Int ×ₗ String := toLex (v.ms, v.nodeId)

theorem toPair_injective : Function.Injective toPair := by
  rintro ⟨ms, nodeId⟩ ⟨ms', nodeId'⟩ same
  simpa [toPair] using same

instance : LinearOrder Version := LinearOrder.lift' toPair toPair_injective

theorem lt_iff {a b : Version} : a < b ↔ a.ms < b.ms ∨ a.ms = b.ms ∧ a.nodeId < b.nodeId :=
  Prod.Lex.lt_iff

theorem lt_of_ms {a b : Version} (less : a.ms < b.ms) : a < b := lt_iff.mpr (.inl less)

end Version

/-- `version_newer`: a missing version always loses. -/
def versionNewer (a : Version) : Option Version → Bool
  | none => true
  | some b => decide (b < a)

theorem versionNewer_iff {a : Version} {b : WithBot Version} :
    versionNewer a b = true ↔ b < (a : WithBot Version) := by
  cases b with
  | bot => exact iff_of_true rfl (WithBot.bot_lt_coe a)
  | coe b => exact decide_eq_true_iff.trans WithBot.coe_lt_coe.symm

/-- Global identity key `(dataset, origin_id, service_id)`. -/
structure Key where
  dataset : String
  originId : String
  serviceId : String
deriving DecidableEq

/-- One replicated record or tombstone on the wire. -/
structure SyncEnvelope where
  dataset : String
  serviceId : String
  originId : String
  version : Version
  tombstone : Bool
  payload : Option Json

namespace SyncEnvelope

def key (e : SyncEnvelope) : Key := ⟨e.dataset, e.originId, e.serviceId⟩

def payloadMember (e : SyncEnvelope) (name : String) : Option Json :=
  e.payload.bind fun payload => payload.asObject.bind fun fields => fields.get name

/-- The `wrapped` list row inside the payload, if present and an object. -/
def wrapped (e : SyncEnvelope) : Option JsonDict := (e.payloadMember "wrapped").bind Json.asObject

/-- The `entry` record inside the payload, if present. -/
def entry (e : SyncEnvelope) : Option Json := e.payloadMember "entry"

end SyncEnvelope

/-! ### The persisted state -/

/-- Composite key for `local_versions` and `tombstones`. -/
def makeKey (dataset serviceId : String) : String := dataset ++ "\x00" ++ serviceId

/-- Split at the first separator. -/
def splitKey (key : String) : String × String :=
  match key.toList.dropWhile (· ≠ '\x00') with
  | [] => (key, "")
  | _ :: serviceId => (.ofList (key.toList.takeWhile (· ≠ '\x00')), .ofList serviceId)

/-- A key with the separator in it is made from its two parts. -/
theorem makeKey_splitKey {key : String} (separated : '\x00' ∈ key.toList) :
    makeKey (splitKey key).1 (splitKey key).2 = key := by
  have whole := @List.takeWhile_append_dropWhile _ (· ≠ '\x00') key.toList
  rw [splitKey]
  split
  · rename_i nothing
    have all := List.dropWhile_eq_nil_iff.mp nothing
    simpa using all _ separated
  · rename_i head tail found
    have stops : head = '\x00' := by
      have fails := @List.head?_dropWhile_not _ (· ≠ '\x00') key.toList
      rw [found] at fails
      simpa using fails
    rw [found, stops] at whole
    rw [makeKey]
    apply String.toList_injective
    simpa using whole

/-- A local deletion: the version of the deletion and when it happened. -/
structure Tombstone where
  version : Version
  deletedAtMs : Int

/-- The part of `cluster_state.json` that replication uses. -/
structure ClusterState where
  nodeId : String
  versionClock : Int
  localVersions : OrderedMap String Version
  /-- Composite key to tombstone. -/
  tombstones : OrderedMap String Tombstone
  exclusive : ∀ k v, localVersions.get? k = some v → tombstones.get? k = none
  separated : ∀ k t, tombstones.get? k = some t → '\x00' ∈ k.toList

theorem separator_mem_makeKey (dataset serviceId : String) :
    '\x00' ∈ (makeKey dataset serviceId).toList := by
  simp [makeKey]

namespace ClusterState

variable (s : ClusterState)

def new (nodeId : String) : ClusterState where
  nodeId
  versionClock := 0
  localVersions := .empty
  tombstones := .empty
  exclusive := OrderedMap.forall_get?_empty
  separated := OrderedMap.forall_get?_empty

@[simp] theorem nodeId_new (nodeId : String) : (new nodeId).nodeId = nodeId := rfl

/-- `next_ts_locked`: the next time stamp, which is also the new clock. -/
def nextTs (nowMs : Int) : Int := max nowMs (s.versionClock + 1)

/-- File a version under the key, and drop its tombstone. -/
def setVersion (clock : Int) (k : String) (v : Version) : ClusterState :=
  { s with
    versionClock := clock
    localVersions := s.localVersions.insert k v
    tombstones := s.tombstones.erase k
    exclusive := by
      intro j w found
      by_cases here : j = k
      · rw [here, OrderedMap.get?_erase_self]
      · rw [OrderedMap.get?_insert_of_ne here] at found
        rw [OrderedMap.get?_erase_of_ne here]
        exact s.exclusive j w found
    separated := by
      intro j t found
      have ne : j ≠ k := by
        rintro rfl
        rw [OrderedMap.get?_erase_self] at found
        cases found
      rw [OrderedMap.get?_erase_of_ne ne] at found
      exact s.separated j t found }

/-- File a tombstone for the record, and drop its version. -/
def setTombstone (clock : Int) (dataset serviceId : String) (t : Tombstone) : ClusterState :=
  { s with
    versionClock := clock
    localVersions := s.localVersions.erase (makeKey dataset serviceId)
    tombstones := s.tombstones.insert (makeKey dataset serviceId) t
    exclusive := by
      intro j w found
      have ne : j ≠ makeKey dataset serviceId := by
        rintro rfl
        rw [OrderedMap.get?_erase_self] at found
        cases found
      rw [OrderedMap.get?_erase_of_ne ne] at found
      rw [OrderedMap.get?_insert_of_ne ne]
      exact s.exclusive j w found
    separated := by
      intro j u found
      by_cases here : j = makeKey dataset serviceId
      · rw [here]
        exact separator_mem_makeKey dataset serviceId
      · rw [OrderedMap.get?_insert_of_ne here] at found
        exact s.separated j u found }

end ClusterState

end AgentProtocols.Cluster
