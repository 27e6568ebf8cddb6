import AgentProtocols.A4P.Util
import AgentProtocols.Registry.OwnershipStore

/-!
The registry client: what its calls do to the services it owns, the endpoints it has blanked and its
renewers. The registry is a parameter (`Server`), with a state of its own.

* `Client.contains_ownedAdd`, `Client.contains_ownedRemove`,
  `Client.contains_ownedRemoveDataset` — what is owned after each change.
* `Client.assertOwned_eq_ok` — a call about a service goes on only if the service is owned.
-/

namespace AgentProtocols.Registry.RegistryClient

open Lib
open A4P (trim)

/-- A dataset and a service id. -/
abbrev ServiceKey := String × String

/-! ### Errors and answers -/

/-- What the calls of the client fail with. -/
inductive ClientError where
  | connection (message : String)
  | timeout (message : String)
  | http (status : Nat) (message : String)
  | authentication (status : Nat) (message : String)
  | authorization (status : Nat) (message : String)
  | notFound (status : Nat) (message : String)
  | validation (status : Nat) (message : String)
  | userConfigServiceImmutable (status : Nat) (message : String)
  | heartbeatNotSupported (status : Nat) (message : String)
  | ttlRequired (status : Nat) (message : String) (minTtl maxTtl : Option Int)
  | ttlOutOfRange (status : Nat) (message : String) (minTtl maxTtl : Option Int)
  | unexpectedServiceType (status : Nat) (message : String)
  | server (status : Nat) (message : String)
  | notOwned (dataset serviceId : String)
  | invalidArgument (message : String)
  | decode (message : String)
  | io (message : String)
deriving DecidableEq, Repr

namespace ClientError

def isConnection : ClientError → Bool
  | connection _ | timeout _ => true
  | _ => false

def isServer : ClientError → Bool
  | server _ _ => true
  | _ => false

def isNotFound : ClientError → Bool
  | notFound _ _ => true
  | _ => false

def isValidation : ClientError → Bool
  | validation _ _ | userConfigServiceImmutable _ _ | heartbeatNotSupported _ _ => true
  | ttlRequired _ _ _ _ | ttlOutOfRange _ _ _ _ => true
  | _ => false

end ClientError

/-- What comes of a request: it fails, its body does not decode, or the value it decodes to. -/
inductive Answer (α : Type) where
  | failed (error : ClientError)
  | undecodable (error : ClientError)
  | ok (value : α)
deriving DecidableEq, Repr

namespace Answer

variable {α : Type}

def isNotFound : Answer α → Bool
  | failed error => error.isNotFound
  | _ => false

/-- The request fails as invalid. -/
def isValidation : Answer α → Bool
  | failed error => error.isValidation
  | _ => false

def isOk : Answer α → Bool
  | ok _ => true
  | _ => false

end Answer

/-- The body of `POST /services/a2a`. -/
structure RegisterBody where
  agentCard : JsonDict
  persistent : Bool
  serviceId : Option String
  leaseTtl : Option Int

structure RegisterResponse where
  serviceId : String
  leaseTtl : Option Int
deriving DecidableEq, Repr

/-- Where the time limit of a shutdown cuts a call off. -/
inductive Cut where
  | request
  | removal
deriving DecidableEq, Repr

/-- The registry as its clients see it: a request is answered and may change its state. -/
structure Server (W : Type) where
  registerAgent : String → RegisterBody → W → Answer RegisterResponse × W
  updateAgent : String → String → JsonDict → W → Answer Unit × W
  getAgent : String → String → W → Answer JsonDict × W
  deregisterAgent : String → String → W → Answer Unit × W
  deleteDataset : String → W → Answer Unit × W
  heartbeat : String → String → Option String → W → Answer Json × W
  revokeLease : String → String → W → Answer Unit × W
  releaseMyLease : String → String → W → Answer Bool × W
  elapsed : W → Option Cut × W

/-! ### The tables of the client -/

structure Client where
  owned : OwnershipStore
  /-- The last known endpoints of blank agents. -/
  blankEndpoints : ServiceKey → Option String
  renewers : Finset ServiceKey

def Client.new (file : Document) (baseUrl : String) : Client :=
  ⟨OwnershipStore.opened file baseUrl, fun _ => none, ∅⟩

namespace Client

def assertOwned (client : Client) (dataset serviceId : String) : Except ClientError Unit :=
  if client.owned.contains dataset serviceId then .ok ()
  else .error (.notOwned dataset serviceId)

def ownedAdd (client : Client) (dataset serviceId : String) : Client :=
  { client with owned := client.owned.add dataset serviceId }

def ownedRemove (client : Client) (dataset serviceId : String) : Client :=
  { client with owned := (client.owned.remove dataset serviceId).getD client.owned }

def ownedRemoveDataset (client : Client) (dataset : String) : Client :=
  { client with owned := (client.owned.removeDataset dataset).getD client.owned }

def cacheEndpoint (client : Client) (dataset serviceId endpoint : String) : Client :=
  { client with blankEndpoints := Function.update client.blankEndpoints (dataset, serviceId) (some endpoint) }

def forgetEndpoint (client : Client) (dataset serviceId : String) : Client :=
  { client with blankEndpoints := Function.update client.blankEndpoints (dataset, serviceId) none }

/-- `HeartbeatRenewer::new` checks the lifetime of the lease. -/
def installRenewer (client : Client) (dataset serviceId : String) (ttl : Int) : Except ClientError Client :=
  if ttl < 1 then .error (.invalidArgument ("ttl_seconds must be >= 1, got " ++ toString ttl))
  else .ok { client with renewers := insert (dataset, serviceId) client.renewers }

def removeRenewer (client : Client) (dataset serviceId : String) : Client :=
  { client with renewers := client.renewers.erase (dataset, serviceId) }

/-- `OwnershipStore::list`, in the order of the ids. -/
def ownedList (client : Client) (dataset : String) : List String :=
  ((client.owned.data.get? dataset).getD []).mergeSort (· ≤ ·)

/-- `OwnershipStore::datasets`. -/
def ownedDatasets (client : Client) : List String := client.owned.data.keys.mergeSort (· ≤ ·)

end Client

theorem Client.blankEndpoints_cacheEndpoint (client : Client) (dataset serviceId endpoint : String) :
    (client.cacheEndpoint dataset serviceId endpoint).blankEndpoints =
      Function.update client.blankEndpoints (dataset, serviceId) (some endpoint) := rfl

theorem Client.blankEndpoints_forgetEndpoint (client : Client) (dataset serviceId : String) :
    (client.forgetEndpoint dataset serviceId).blankEndpoints =
      Function.update client.blankEndpoints (dataset, serviceId) none := rfl

/-! ### What is owned after a change -/

section Owned

variable {client : Client} {dataset serviceId other id : String}

theorem Client.contains_ownedAdd : (client.ownedAdd dataset serviceId).owned.contains other id = true ↔
    (other = dataset ∧ id = serviceId) ∨ client.owned.contains other id = true :=
  OwnershipStore.contains_add

theorem Client.contains_ownedRemove : (client.ownedRemove dataset serviceId).owned.contains other id = true ↔
    ¬ (other = dataset ∧ id = serviceId) ∧ client.owned.contains other id = true := by
  rw [ownedRemove]
  cases removed : client.owned.remove dataset serviceId with
  | some store => exact OwnershipStore.contains_remove removed
  | none =>
    -- nothing of the dataset is owned
    rw [Option.getD_none, OwnershipStore.contains_iff]
    rw [OwnershipStore.remove] at removed
    split at removed
    · rename_i absent
      constructor
      · rintro ⟨ids, found, mem⟩
        refine ⟨?_, ids, found, mem⟩
        rintro ⟨rfl, -⟩
        rw [absent] at found
        cases found
      · exact And.right
    · cases removed

theorem Client.contains_ownedRemoveDataset :
    (client.ownedRemoveDataset dataset).owned.contains other id = true ↔
      other ≠ dataset ∧ client.owned.contains other id = true := by
  rw [ownedRemoveDataset]
  cases removed : client.owned.removeDataset dataset with
  | some store => exact OwnershipStore.contains_removeDataset removed
  | none =>
    rw [Option.getD_none, OwnershipStore.contains_iff]
    rw [OwnershipStore.removeDataset] at removed
    split at removed
    · rename_i absent
      constructor
      · rintro ⟨ids, found, mem⟩
        refine ⟨?_, ids, found, mem⟩
        rintro rfl
        rw [absent] at found
        cases found
      · exact And.right
    · cases removed

/-- A call about a service goes on only if the service is owned. -/
theorem Client.assertOwned_eq_ok : client.assertOwned dataset serviceId = .ok () ↔
    client.owned.contains dataset serviceId = true := by
  rw [assertOwned]
  split
  · exact iff_of_true rfl ‹_›
  · exact iff_of_false nofun ‹_›

end Owned

/-! ### Cards -/

def statusField : String := "status"
def statusOnline : String := "online"
def statusBusy : String := "busy"
def statusOffline : String := "offline"
def blankAgentNamePrefix : String := "_BlankAgent_"
def blankDescriptionSentinel : String := "__BLANK__"
def endpointField : String := "endpoint"

/-- The body of `set_status`. -/
def buildStatusBody (status : String) : Except ClientError JsonDict :=
  if [statusBusy, statusOffline, statusOnline].contains status then .ok [(statusField, .str status)]
  else .error (.invalidArgument ("status must be one of [\"busy\", \"offline\", \"online\"], got " ++ status.quote))

def buildBlankAgentCard (endpoint : String) : Except ClientError JsonDict :=
  if (trim endpoint).isEmpty then
    .error (.invalidArgument ("endpoint must be a non-empty string, got " ++ endpoint.quote))
  else
    .ok [("name", .str (blankAgentNamePrefix ++ endpoint)), ("description", .str blankDescriptionSentinel),
      (endpointField, .str endpoint), (statusField, .str statusOnline)]

/-- The endpoint of a card, if it is a text that is not blank. -/
def extractEndpoint (card : JsonDict) : Option String :=
  match card.get endpointField with
  | some (.str s) => if (trim s).isEmpty then none else some s
  | _ => none

/-! ### The calls -/

/-- A client and the registry behind its transport. -/
structure Session (W : Type) where
  client : Client
  world : W

/-- What a call returns, and where it leaves the client and the registry. -/
abbrev Outcome (W α : Type) := Except ClientError α × Session W

structure RegisterOptions where
  serviceId : Option String
  persistent : Bool
  leaseTtl : Option Int
  autoRenew : Bool

structure ShutdownOptions where
  sids : Option (List ServiceKey)
  dataset : Option String
  permanent : Bool
  raiseOnError : Bool

structure ShutdownReport where
  revoked : List ServiceKey
  errors : List (ServiceKey × ClientError)

namespace Session

variable {W : Type} (server : Server W)

def deleteDataset (name : String) (s : Session W) : Outcome W Unit :=
  match server.deleteDataset name s.world with
  | (.failed e, w) => (.error e, ⟨if e.isValidation then s.client.ownedRemoveDataset name else s.client, w⟩)
  | (.undecodable e, w) => (.error e, ⟨s.client, w⟩)
  | (.ok _, w) => (.ok (), ⟨s.client.ownedRemoveDataset name, w⟩)

def registerAgent (dataset : String) (agentCard : JsonDict) (opts : RegisterOptions) (s : Session W) :
    Outcome W RegisterResponse :=
  match server.registerAgent dataset ⟨agentCard, opts.persistent, opts.serviceId, opts.leaseTtl⟩ s.world with
  | (.failed e, w) => (.error e, ⟨s.client, w⟩)
  | (.undecodable e, w) => (.error e, ⟨s.client, w⟩)
  | (.ok result, w) =>
    let client := if opts.persistent then s.client.ownedAdd dataset result.serviceId else s.client
    if opts.autoRenew then
      match result.leaseTtl with
      | none => (.ok result, ⟨client, w⟩)
      | some ttl =>
        match client.installRenewer dataset result.serviceId ttl with
        | .error e => (.error e, ⟨client, w⟩)
        | .ok client => (.ok result, ⟨client, w⟩)
    else (.ok result, ⟨client, w⟩)

/-- A heartbeat of a renewer, or of the caller. -/
def heartbeat (dataset serviceId : String) (status : Option String) (s : Session W) : Outcome W Json :=
  match s.client.assertOwned dataset serviceId with
  | .error e => (.error e, s)
  | .ok _ =>
    match server.heartbeat dataset serviceId status s.world with
    | (.failed e, w) => (.error e, ⟨s.client, w⟩)
    | (.undecodable e, w) => (.error e, ⟨s.client, w⟩)
    | (.ok lease, w) => (.ok lease, ⟨s.client, w⟩)

def updateAgent (dataset serviceId : String) (fields : JsonDict) (s : Session W) : Outcome W Unit :=
  match s.client.assertOwned dataset serviceId with
  | .error e => (.error e, s)
  | .ok _ =>
    match server.updateAgent dataset serviceId fields s.world with
    | (.failed e, w) => (.error e, ⟨if e.isNotFound then s.client.ownedRemove dataset serviceId else s.client, w⟩)
    | (.undecodable e, w) => (.error e, ⟨s.client, w⟩)
    | (.ok _, w) => (.ok (), ⟨s.client, w⟩)

/-- `set_status` sends the same request, with a body that is checked first. -/
def setStatus (dataset serviceId status : String) (s : Session W) : Outcome W Unit :=
  match buildStatusBody status with
  | .error e => (.error e, s)
  | .ok body => updateAgent server dataset serviceId body s

def deregisterAgent (dataset serviceId : String) (s : Session W) : Outcome W Unit :=
  match s.client.assertOwned dataset serviceId with
  | .error e => (.error e, s)
  | .ok _ =>
    let removed := (s.client.ownedRemove dataset serviceId).forgetEndpoint dataset serviceId
    match server.deregisterAgent dataset serviceId s.world with
    | (.failed e, w) => (.error e, ⟨if e.isNotFound then removed else s.client, w⟩)
    | (.undecodable e, w) => (.error e, ⟨s.client, w⟩)
    | (.ok _, w) => (.ok (), ⟨removed, w⟩)

def registerBlankAgent (dataset endpoint : String) (serviceId : Option String) (persistent : Bool)
    (s : Session W) : Outcome W RegisterResponse :=
  match buildBlankAgentCard endpoint with
  | .error e => (.error e, s)
  | .ok card =>
    match registerAgent server dataset card ⟨serviceId, persistent, none, false⟩ s with
    | (.error e, s) => (.error e, s)
    | (.ok result, s) => (.ok result, ⟨s.client.cacheEndpoint dataset result.serviceId endpoint, s.world⟩)

/-- The cached endpoint, then the one of the card at the registry. -/
def resolveEndpoint (dataset serviceId : String) (s : Session W) : Outcome W String :=
  match (s.client.blankEndpoints (dataset, serviceId)).filter (· ≠ "") with
  | some endpoint => (.ok endpoint, s)
  | none =>
    match server.getAgent dataset serviceId s.world with
    | (.failed e, w) => (.error e, ⟨s.client, w⟩)
    | (.undecodable e, w) => (.error e, ⟨s.client, w⟩)
    | (.ok metadata, w) =>
      match extractEndpoint metadata with
      | some endpoint => (.ok endpoint, ⟨s.client, w⟩)
      | none =>
        (.error (.invalidArgument ("No 'endpoint' available for service " ++ serviceId.quote ++ " in dataset "
          ++ dataset.quote ++ ": not in local L1 cache and not in current Agent Card. Provide 'endpoint' "
          ++ "explicitly, or call register_blank_agent first to seed the cache.")), ⟨s.client, w⟩)

/-- The card that `replace_agent_card` posts, with its endpoint. -/
def fillEndpoint (dataset serviceId : String) (agentCard : JsonDict) (s : Session W) :
    Outcome W (JsonDict × String) :=
  match extractEndpoint agentCard with
  | some endpoint => (.ok (agentCard, endpoint), s)
  | none =>
    match resolveEndpoint server dataset serviceId s with
    | (.error e, s) => (.error e, s)
    | (.ok endpoint, s) => (.ok (agentCard.insert endpointField (.str endpoint), endpoint), s)

def releaseMyLease (dataset serviceId : String) (s : Session W) : Outcome W Bool :=
  match s.client.assertOwned dataset serviceId with
  | .error e => (.error e, s)
  | .ok _ =>
    match server.releaseMyLease dataset serviceId s.world with
    | (.failed e, w) => (.error e, ⟨s.client, w⟩)
    | (.undecodable e, w) => (.error e, ⟨s.client, w⟩)
    | (.ok released, w) => (.ok released, ⟨s.client, w⟩)

/-- What `replace_agent_card` does with a card that has its endpoint. -/
def postCard (dataset serviceId : String) (card : JsonDict) (endpoint : String) (releaseLease : Bool)
    (s : Session W) : Outcome W RegisterResponse :=
  match server.registerAgent dataset ⟨card, true, some serviceId, none⟩ s.world with
  | (.failed e, w) =>
    (.error e, ⟨if e.isNotFound then (s.client.ownedRemove dataset serviceId).forgetEndpoint dataset serviceId
      else s.client, w⟩)
  | (.undecodable e, w) => (.error e, ⟨s.client, w⟩)
  | (.ok result, w) =>
    let s := ⟨(s.client.ownedAdd dataset result.serviceId).cacheEndpoint dataset result.serviceId endpoint, w⟩
    if releaseLease then
      match releaseMyLease server dataset result.serviceId s with
      | (.ok _, s) => (.ok result, s)
      | (.error e, s) =>
        -- the lease ends by itself
        if e.isConnection || e.isServer || e.isNotFound then (.ok result, s) else (.error e, s)
    else (.ok result, s)

def replaceAgentCard (dataset serviceId : String) (agentCard : JsonDict) (releaseLease : Bool) (s : Session W) :
    Outcome W RegisterResponse :=
  match s.client.assertOwned dataset serviceId with
  | .error e => (.error e, s)
  | .ok _ =>
    match fillEndpoint server dataset serviceId agentCard s with
    | (.error e, s) => (.error e, s)
    | (.ok (card, endpoint), s) => postCard server dataset serviceId card endpoint releaseLease s

def restoreToBlank (dataset serviceId : String) (s : Session W) : Outcome W RegisterResponse :=
  match s.client.assertOwned dataset serviceId with
  | .error e => (.error e, s)
  | .ok _ =>
    match resolveEndpoint server dataset serviceId s with
    | (.error e, s) => (.error e, s)
    | (.ok endpoint, s) =>
      match buildBlankAgentCard endpoint with
      | .error e => (.error e, s)
      | .ok card => replaceAgentCard server dataset serviceId card true s

/-! ### What leaves the tables alone -/

section Frames

variable {server : Server W} {s : Session W} {dataset serviceId : String}

theorem client_resolveEndpoint {outcome : Except ClientError String} {t : Session W}
    (resolved : s.resolveEndpoint server dataset serviceId = (outcome, t)) : t.client = s.client := by
  have kept : (s.resolveEndpoint server dataset serviceId).2.client = s.client := by
    rw [resolveEndpoint]
    split
    · rfl
    · split
      · rfl
      · rfl
      · split <;> rfl
  rw [resolved] at kept
  exact kept

theorem client_fillEndpoint {agentCard : JsonDict} {outcome : Except ClientError (JsonDict × String)} {t : Session W}
    (filled : s.fillEndpoint server dataset serviceId agentCard = (outcome, t)) : t.client = s.client := by
  rw [fillEndpoint] at filled
  split at filled
  · cases filled
    rfl
  · split at filled
    · rename_i resolved
      cases filled
      exact client_resolveEndpoint resolved
    · rename_i resolved
      cases filled
      exact client_resolveEndpoint resolved

theorem client_releaseMyLease {outcome : Except ClientError Bool} {t : Session W}
    (released : s.releaseMyLease server dataset serviceId = (outcome, t)) : t.client = s.client := by
  have kept : (s.releaseMyLease server dataset serviceId).2.client = s.client := by
    rw [releaseMyLease]
    split
    · rfl
    · split <;> rfl
  rw [released] at kept
  exact kept

end Frames

/-! ### Shutdown -/

def shutdownTargets (opts : ShutdownOptions) (client : Client) : List ServiceKey :=
  match opts.sids, opts.dataset with
  | some sids, _ => sids
  | none, some dataset => (client.ownedList dataset).map fun id => (dataset, id)
  | none, none => client.ownedDatasets.flatMap fun dataset => (client.ownedList dataset).map fun id => (dataset, id)

def shutdownTimeout (target : ServiceKey) : ClientError :=
  .timeout ("shutdown call for " ++ target.1 ++ "/" ++ target.2 ++ " exceeded the timeout")

def shutdownCall (permanent : Bool) (target : ServiceKey) (s : Session W) : Outcome W Unit :=
  if permanent then deregisterAgent server target.1 target.2 s
  else
    match server.revokeLease target.1 target.2 s.world with
    | (.failed e, w) => (.error e, ⟨s.client, w⟩)
    | (.undecodable _, w) => (.ok (), ⟨s.client, w⟩)
    | (.ok _, w) => (.ok (), ⟨s.client, w⟩)

/-- The call for one target within its time limit; a cut one may have changed no table. -/
def shutdownOne (permanent : Bool) (target : ServiceKey) (s : Session W) : Outcome W Unit :=
  match server.elapsed s.world with
  | (none, w) => shutdownCall server permanent target ⟨s.client, w⟩
  | (some .request, w) =>
    (.error (shutdownTimeout target), ⟨s.client, (shutdownCall server permanent target ⟨s.client, w⟩).2.world⟩)
  | (some .removal, w) =>
    match shutdownCall server permanent target ⟨s.client, w⟩ with
    | (.error e, t) =>
      if e.isNotFound then
        (.error (shutdownTimeout target), ⟨{ t.client with blankEndpoints := s.client.blankEndpoints }, t.world⟩)
      else (.error e, t)
    | (.ok _, t) =>
      (.error (shutdownTimeout target), ⟨{ t.client with blankEndpoints := s.client.blankEndpoints }, t.world⟩)

/-- The loop over the targets, with the report so far. -/
def shutdownLoop (opts : ShutdownOptions) : List ServiceKey → ShutdownReport → Session W → Outcome W ShutdownReport
  | [], report, s => (.ok report, s)
  | target :: rest, report, s =>
    match shutdownOne server opts.permanent target s with
    | (.ok _, s) => shutdownLoop opts rest { report with revoked := report.revoked ++ [target] } s
    | (.error e, s) =>
      if opts.raiseOnError then (.error e, s)
      else shutdownLoop opts rest { report with errors := report.errors ++ [(target, e)] } s

/-- The renewers of the targets are stopped first. -/
def shutdown (opts : ShutdownOptions) (s : Session W) : Outcome W ShutdownReport :=
  let targets := shutdownTargets opts s.client
  let client := targets.foldl (fun client target => client.removeRenewer target.1 target.2) s.client
  shutdownLoop server opts targets ⟨[], []⟩ ⟨client, s.world⟩

/-- `HeartbeatRegistry::shutdown_all`. -/
def close (s : Session W) : Session W := { s with client := { s.client with renewers := ∅ } }

end Session

inductive Call where
  | registerAgent (dataset : String) (agentCard : JsonDict) (opts : RegisterOptions)
  | registerBlankAgent (dataset endpoint : String) (serviceId : Option String) (persistent : Bool)
  | updateAgent (dataset serviceId : String) (fields : JsonDict)
  | setStatus (dataset serviceId status : String)
  | deregisterAgent (dataset serviceId : String)
  | deleteDataset (name : String)
  | replaceAgentCard (dataset serviceId : String) (agentCard : JsonDict) (releaseLease : Bool)
  | restoreToBlank (dataset serviceId : String)
  | shutdown (opts : ShutdownOptions)
  | close

/-- Where a call leaves the client and the registry. -/
def Call.run {W : Type} (server : Server W) : Call → Session W → Session W
  | .registerAgent dataset agentCard opts, s => (s.registerAgent server dataset agentCard opts).2
  | .registerBlankAgent dataset endpoint serviceId persistent, s =>
    (s.registerBlankAgent server dataset endpoint serviceId persistent).2
  | .updateAgent dataset serviceId fields, s => (s.updateAgent server dataset serviceId fields).2
  | .setStatus dataset serviceId status, s => (s.setStatus server dataset serviceId status).2
  | .deregisterAgent dataset serviceId, s => (s.deregisterAgent server dataset serviceId).2
  | .deleteDataset name, s => (s.deleteDataset server name).2
  | .replaceAgentCard dataset serviceId agentCard releaseLease, s =>
    (s.replaceAgentCard server dataset serviceId agentCard releaseLease).2
  | .restoreToBlank dataset serviceId, s => (s.restoreToBlank server dataset serviceId).2
  | .shutdown opts, s => (s.shutdown server opts).2
  | .close, s => s.close

end AgentProtocols.Registry.RegistryClient
