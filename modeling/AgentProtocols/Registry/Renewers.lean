import AgentProtocols.Registry.RegistryClient

/-!
The renewers of a registry client and the services it owns, which are two tables.

* `Client.renewable_ownedRemove`, `Client.renewable_installRenewer`, `Call.step_iff` — what a call
  needs, so that every renewer still can renew.
* `renewers_owned` — in every run of calls that meet this, every renewer can renew.
-/

namespace AgentProtocols.Registry.RegistryClient

open Lib Client

/-- No heartbeat of a renewer is refused by the client itself. -/
def Client.Renewable (client : Client) : Prop :=
  ∀ key ∈ client.renewers, client.owned.contains key.1 key.2 = true

namespace Client

variable {client : Client} {dataset serviceId : String}

variable (renewable : client.Renewable)

include renewable

theorem renewable_ownedAdd : (client.ownedAdd dataset serviceId).Renewable :=
  fun key mem => contains_ownedAdd.mpr (.inr (renewable key mem))

/-- What is no longer owned must have no renewer. -/
theorem renewable_ownedRemove :
    (client.ownedRemove dataset serviceId).Renewable ↔ (dataset, serviceId) ∉ client.renewers := by
  constructor
  · intro after mem
    exact (contains_ownedRemove.mp (after _ mem)).1 ⟨rfl, rfl⟩
  · intro absent key mem
    refine contains_ownedRemove.mpr ⟨?_, renewable key mem⟩
    rintro ⟨rfl, rfl⟩
    exact absent mem

theorem renewable_ownedRemoveDataset :
    (client.ownedRemoveDataset dataset).Renewable ↔ ∀ key ∈ client.renewers, key.1 ≠ dataset := by
  constructor
  · intro after key mem
    exact (contains_ownedRemoveDataset.mp (after _ mem)).1
  · intro absent key mem
    exact contains_ownedRemoveDataset.mpr ⟨absent key mem, renewable key mem⟩

/-- A new renewer must be for a service that is owned. -/
theorem renewable_installRenewer {ttl : Int} {client' : Client}
    (installed : client.installRenewer dataset serviceId ttl = .ok client') :
    client'.Renewable ↔ client.owned.contains dataset serviceId = true := by
  rw [installRenewer] at installed
  split at installed
  · cases installed
  · cases installed
    constructor
    · intro after
      exact after (dataset, serviceId) (Finset.mem_insert_self _ _)
    · intro owned key mem
      rcases Finset.mem_insert.mp mem with rfl | mem
      · exact owned
      · exact renewable key mem

theorem renewable_removeRenewer : (client.removeRenewer dataset serviceId).Renewable :=
  fun key mem => renewable key (Finset.mem_of_mem_erase mem)

omit renewable

end Client

/-! ### The calls -/

variable {W : Type} (server : Server W)

namespace Session

variable {server} {s : Session W} {dataset serviceId : String}

/-- A registration that starts a renewer records the service, or it is owned already. -/
def RecordsRenewed (server : Server W) (dataset : String) (agentCard : JsonDict) (opts : RegisterOptions)
    (s : Session W) : Prop :=
  ∀ result ttl,
    (server.registerAgent dataset ⟨agentCard, opts.persistent, opts.serviceId, opts.leaseTtl⟩ s.world).1 = .ok result →
      opts.autoRenew = true → result.leaseTtl = some ttl → 1 ≤ ttl →
        opts.persistent = true ∨ s.client.owned.contains dataset result.serviceId = true

variable (renewable : s.client.Renewable)

include renewable

theorem renewable_registerAgent {agentCard : JsonDict} {opts : RegisterOptions} :
    (s.registerAgent server dataset agentCard opts).2.client.Renewable ↔
      RecordsRenewed server dataset agentCard opts s := by
  rw [registerAgent]
  have recorded : ∀ id : String,
      (if opts.persistent then s.client.ownedAdd dataset id else s.client).Renewable := by
    intro id
    split
    · exact renewable_ownedAdd renewable
    · exact renewable
  split
  · rename_i answer
    refine iff_of_true renewable ?_
    rintro result ttl same
    rw [answer] at same
    cases same
  · rename_i answer
    refine iff_of_true renewable ?_
    rintro result ttl same
    rw [answer] at same
    cases same
  · rename_i result w answer
    dsimp only
    split
    · rename_i renews
      split
      · rename_i none_
        refine iff_of_true (recorded _) ?_
        rintro result' ttl same - granted
        rw [answer] at same
        cases same
        rw [none_] at granted
        cases granted
      · rename_i ttl granted
        split
        · rename_i e refused
          refine iff_of_true (recorded _) ?_
          rintro result' ttl' same - granted' positive
          rw [answer] at same
          cases same
          rw [granted] at granted'
          cases granted'
          rw [installRenewer, if_neg (by omega)] at refused
          cases refused
        · rename_i client installed
          rw [renewable_installRenewer (recorded _) installed]
          have positive : 1 ≤ ttl := by
            by_contra low
            rw [installRenewer, if_pos (by omega)] at installed
            cases installed
          constructor
          · intro owned result' ttl' same _ _ _
            rw [answer] at same
            cases same
            by_cases persistent : opts.persistent = true
            · exact .inl persistent
            · rw [if_neg persistent] at owned
              exact .inr owned
          · intro records
            rcases records result ttl (by rw [answer]) renews granted positive with persistent | owned
            · rw [if_pos persistent]
              exact contains_ownedAdd.mpr (.inl ⟨rfl, rfl⟩)
            · split
              · exact contains_ownedAdd.mpr (.inr owned)
              · exact owned
    · rename_i quiet
      refine iff_of_true (recorded _) ?_
      rintro result' ttl - renews
      exact absurd renews quiet

theorem renewable_registerBlankAgent {endpoint : String} {serviceId : Option String} {persistent : Bool}
    : (s.registerBlankAgent server dataset endpoint serviceId persistent).2.client.Renewable := by
  rw [registerBlankAgent]
  split
  · exact renewable
  · rename_i card _
    have after : (s.registerAgent server dataset card ⟨serviceId, persistent, none, false⟩).2.client.Renewable :=
      (renewable_registerAgent renewable).mpr (by rintro result ttl - ⟨⟩)
    split
    · rename_i same
      rw [same] at after
      exact after
    · rename_i same
      rw [same] at after
      exact after

omit renewable

def UnknownNotRenewed {α : Type} (answer : Answer α) (dataset serviceId : String) (client : Client) : Prop :=
  answer.isNotFound = true → (dataset, serviceId) ∉ client.renewers

include renewable

theorem notMem_of_assertOwned {e : ClientError}
    (refused : s.client.assertOwned dataset serviceId = .error e) : (dataset, serviceId) ∉ s.client.renewers := by
  intro mem
  rw [assertOwned_eq_ok.mpr (renewable _ mem)] at refused
  cases refused

theorem renewable_updateAgent {fields : JsonDict} :
    (s.updateAgent server dataset serviceId fields).2.client.Renewable ↔
      UnknownNotRenewed (server.updateAgent dataset serviceId fields s.world).1 dataset serviceId s.client := by
  rw [updateAgent]
  split
  · exact iff_of_true renewable fun _ => notMem_of_assertOwned renewable ‹_›
  · split
    · rename_i e w answer
      rw [answer]
      by_cases notFound : e.isNotFound = true
      · rw [if_pos notFound, renewable_ownedRemove renewable]
        exact ⟨fun absent _ => absent, fun absent => absent notFound⟩
      · rw [if_neg notFound]
        exact iff_of_true renewable fun found => absurd found notFound
    · rename_i answer
      rw [answer]
      exact iff_of_true renewable nofun
    · rename_i answer
      rw [answer]
      exact iff_of_true renewable nofun

theorem renewable_setStatus {status : String} :
    (s.setStatus server dataset serviceId status).2.client.Renewable ↔
      ∀ body, buildStatusBody status = .ok body →
        UnknownNotRenewed (server.updateAgent dataset serviceId body s.world).1 dataset serviceId s.client := by
  rw [setStatus]
  split
  · rename_i e refused
    refine iff_of_true renewable fun body built => ?_
    rw [refused] at built
    cases built
  · rename_i body built
    rw [renewable_updateAgent renewable]
    constructor
    · intro known body' built'
      rw [built] at built'
      cases built'
      exact known
    · intro known
      exact known body built

omit renewable

theorem renewers_deregisterAgent :
    (s.deregisterAgent server dataset serviceId).2.client.renewers = s.client.renewers := by
  rw [deregisterAgent]
  split
  · rfl
  · split
    · split <;> rfl
    · rfl
    · rfl

theorem renewable_deregisterAgent (renewable : s.client.Renewable) :
    (s.deregisterAgent server dataset serviceId).2.client.Renewable ↔
      ((server.deregisterAgent dataset serviceId s.world).1.isOk = true ∨
          (server.deregisterAgent dataset serviceId s.world).1.isNotFound = true →
        (dataset, serviceId) ∉ s.client.renewers) := by
  rw [deregisterAgent]
  split
  · exact iff_of_true renewable fun _ => notMem_of_assertOwned renewable ‹_›
  · dsimp only
    have removed : ((s.client.ownedRemove dataset serviceId).forgetEndpoint dataset serviceId).Renewable ↔
        (dataset, serviceId) ∉ s.client.renewers := renewable_ownedRemove renewable
    split
    · rename_i e w answer
      rw [answer]
      by_cases notFound : e.isNotFound = true
      · rw [if_pos notFound, removed]
        exact ⟨fun absent _ => absent, fun absent => absent (.inr notFound)⟩
      · rw [if_neg notFound]
        refine iff_of_true renewable ?_
        rintro (found | found)
        · cases found
        · exact absurd found notFound
    · rename_i answer
      rw [answer]
      refine iff_of_true renewable ?_
      rintro (found | found) <;> cases found
    · rename_i answer
      rw [answer, removed]
      exact ⟨fun absent _ => absent, fun absent => absent (.inl rfl)⟩

theorem not_contains_of_deregistered {t : Session W} (removed : s.deregisterAgent server dataset serviceId = (.ok (), t)) :
    ¬ t.client.owned.contains dataset serviceId = true := by
  rw [deregisterAgent] at removed
  split at removed
  · cases removed
  · split at removed
    · cases removed
    · cases removed
    · cases removed
      exact fun owned => (contains_ownedRemove.mp owned).1 ⟨rfl, rfl⟩

theorem not_contains_of_deleted {name : String} {t : Session W} (removed : s.deleteDataset server name = (.ok (), t)) :
    ¬ t.client.owned.contains name serviceId = true := by
  rw [deleteDataset] at removed
  split at removed
  · cases removed
  · cases removed
  · cases removed
    exact fun owned => (contains_ownedRemoveDataset.mp owned).1 rfl

include renewable

theorem renewable_deleteDataset {name : String} : (s.deleteDataset server name).2.client.Renewable ↔
      ((server.deleteDataset name s.world).1.isOk = true ∨ (server.deleteDataset name s.world).1.isValidation = true →
        ∀ key ∈ s.client.renewers, key.1 ≠ name) := by
  have removed : (s.client.ownedRemoveDataset name).Renewable ↔ ∀ key ∈ s.client.renewers, key.1 ≠ name :=
    renewable_ownedRemoveDataset renewable
  rw [deleteDataset]
  split
  · rename_i e w answer
    rw [answer]
    by_cases invalid : e.isValidation = true
    · rw [if_pos invalid, removed]
      exact ⟨fun absent _ => absent, fun absent => absent (.inr invalid)⟩
    · rw [if_neg invalid]
      refine iff_of_true renewable ?_
      rintro (found | found)
      · cases found
      · exact absurd found invalid
  · rename_i answer
    rw [answer]
    refine iff_of_true renewable ?_
    rintro (found | found) <;> cases found
  · rename_i answer
    rw [answer, removed]
    exact ⟨fun absent _ => absent, fun absent => absent (.inl rfl)⟩

theorem renewable_postCard {card : JsonDict} {endpoint : String} {releaseLease : Bool} :
    (s.postCard server dataset serviceId card endpoint releaseLease).2.client.Renewable ↔
      UnknownNotRenewed (server.registerAgent dataset ⟨card, true, some serviceId, none⟩ s.world).1 dataset serviceId
        s.client := by
  rw [postCard]
  split
  · rename_i e w answer
    rw [answer]
    by_cases notFound : e.isNotFound = true
    · rw [if_pos notFound]
      have removed : ((s.client.ownedRemove dataset serviceId).forgetEndpoint dataset serviceId).Renewable ↔
          (dataset, serviceId) ∉ s.client.renewers := renewable_ownedRemove renewable
      rw [removed]
      exact ⟨fun absent _ => absent, fun absent => absent notFound⟩
    · rw [if_neg notFound]
      exact iff_of_true renewable fun found => absurd found notFound
  · rename_i answer
    rw [answer]
    exact iff_of_true renewable nofun
  · rename_i result w answer
    rw [answer]
    refine iff_of_true ?_ nofun
    dsimp only
    have added : ((s.client.ownedAdd dataset result.serviceId).cacheEndpoint dataset result.serviceId
        endpoint).Renewable := renewable_ownedAdd renewable
    split
    · split
      · rename_i released
        exact client_releaseMyLease released ▸ added
      · rename_i released
        split <;> exact client_releaseMyLease released ▸ added
    · exact added

omit renewable

/-- The registry knows the service whose card is replaced, or it has no renewer. -/
def KnownOnReplace (server : Server W) (dataset serviceId : String) (agentCard : JsonDict) (s : Session W) : Prop :=
  ∀ card endpoint t, s.fillEndpoint server dataset serviceId agentCard = (.ok (card, endpoint), t) →
    UnknownNotRenewed (server.registerAgent dataset ⟨card, true, some serviceId, none⟩ t.world).1 dataset serviceId
      s.client

theorem renewable_replaceAgentCard {agentCard : JsonDict} {releaseLease : Bool} (renewable : s.client.Renewable) :
    (s.replaceAgentCard server dataset serviceId agentCard releaseLease).2.client.Renewable ↔
      KnownOnReplace server dataset serviceId agentCard s := by
  rw [replaceAgentCard]
  split
  · exact iff_of_true renewable fun _ _ _ _ _ => notMem_of_assertOwned renewable ‹_›
  · split
    · rename_i e t failed
      refine iff_of_true (client_fillEndpoint failed ▸ renewable) ?_
      rintro card endpoint t' filled
      rw [failed] at filled
      cases filled
    · rename_i card endpoint t filled
      have same := client_fillEndpoint filled
      rw [renewable_postCard (same ▸ renewable), same]
      constructor
      · intro known card' endpoint' t' filled'
        rw [filled] at filled'
        cases filled'
        exact known
      · intro known
        exact known card endpoint t filled

/-- As `KnownOnReplace`, for the blank card. -/
def KnownOnRestore (server : Server W) (dataset serviceId : String) (s : Session W) : Prop :=
  ∀ endpoint t card, s.resolveEndpoint server dataset serviceId = (.ok endpoint, t) →
    buildBlankAgentCard endpoint = .ok card → KnownOnReplace server dataset serviceId card t

include renewable

theorem renewable_restoreToBlank :
    (s.restoreToBlank server dataset serviceId).2.client.Renewable ↔ KnownOnRestore server dataset serviceId s := by
  rw [restoreToBlank]
  split
  · rename_i e refused
    refine iff_of_true renewable ?_
    intro endpoint t card resolved _ card' endpoint' t' _ _
    exact client_resolveEndpoint resolved ▸ notMem_of_assertOwned renewable refused
  · split
    · rename_i e t failed
      refine iff_of_true (client_resolveEndpoint failed ▸ renewable) ?_
      rintro endpoint t' card resolved
      rw [failed] at resolved
      cases resolved
    · rename_i endpoint t resolved
      have same := client_resolveEndpoint resolved
      split
      · rename_i blank
        refine iff_of_true (same ▸ renewable) ?_
        rintro endpoint' t' card resolved' built
        rw [resolved] at resolved'
        cases resolved'
        rw [blank] at built
        cases built
      · rename_i card built
        rw [renewable_replaceAgentCard (same ▸ renewable)]
        constructor
        · intro known endpoint' t' card' resolved' built'
          rw [resolved] at resolved'
          cases resolved'
          rw [built] at built'
          cases built'
          exact known
        · intro known
          exact known endpoint t card resolved built

/-! ### Shutdown -/

theorem renewable_shutdownCall {permanent : Bool} {target : ServiceKey}
    (stopped : target ∉ s.client.renewers) :
    (s.shutdownCall server permanent target).2.client.Renewable ∧
      (s.shutdownCall server permanent target).2.client.renewers = s.client.renewers := by
  rw [shutdownCall]
  split
  · exact ⟨(renewable_deregisterAgent renewable).mpr fun _ => stopped, renewers_deregisterAgent⟩
  · split <;> exact ⟨renewable, rfl⟩

theorem renewable_shutdownOne {permanent : Bool} {target : ServiceKey}
    (stopped : target ∉ s.client.renewers) :
    (s.shutdownOne server permanent target).2.client.Renewable ∧
      (s.shutdownOne server permanent target).2.client.renewers = s.client.renewers := by
  have called : ∀ w, (shutdownCall server permanent target ⟨s.client, w⟩).2.client.Renewable ∧
      (shutdownCall server permanent target ⟨s.client, w⟩).2.client.renewers = s.client.renewers :=
    fun w => renewable_shutdownCall (s := ⟨s.client, w⟩) renewable stopped
  rw [shutdownOne]
  split
  · exact called _
  · exact ⟨renewable, rfl⟩
  · rename_i w _
    have after := called w
    split
    · rename_i same
      rw [same] at after
      split <;> exact after
    · rename_i same
      rw [same] at after
      exact after

theorem renewable_shutdownLoop {opts : ShutdownOptions} {targets : List ServiceKey} {report : ShutdownReport}
    (stopped : ∀ target ∈ targets, target ∉ s.client.renewers) :
    (s.shutdownLoop server opts targets report).2.client.Renewable := by
  induction targets generalizing s report with
  | nil => exact renewable
  | cons target rest ih =>
    have one : (s.shutdownOne server opts.permanent target).2.client.Renewable ∧
        (s.shutdownOne server opts.permanent target).2.client.renewers = s.client.renewers :=
      renewable_shutdownOne renewable (stopped target List.mem_cons_self)
    obtain ⟨after, same⟩ := one
    rw [shutdownLoop]
    split
    · rename_i t called
      rw [called] at after same
      exact ih after fun target mem => same ▸ stopped target (List.mem_cons_of_mem _ mem)
    · rename_i t called
      rw [called] at after same
      split
      · exact after
      · exact ih after fun target mem => same ▸ stopped target (List.mem_cons_of_mem _ mem)

omit renewable

theorem renewers_removed {client : Client} (targets : List ServiceKey) (renewable : client.Renewable) :
    (targets.foldl (fun client target => client.removeRenewer target.1 target.2) client).Renewable ∧
      (targets.foldl (fun client target => client.removeRenewer target.1 target.2) client).renewers ⊆
        client.renewers ∧
      ∀ target ∈ targets,
        target ∉ (targets.foldl (fun client target => client.removeRenewer target.1 target.2) client).renewers := by
  induction targets generalizing client with
  | nil => exact ⟨renewable, fun _ mem => mem, fun _ mem => absurd mem List.not_mem_nil⟩
  | cons target rest ih =>
    have removed : (client.removeRenewer target.1 target.2).Renewable := renewable_removeRenewer renewable
    obtain ⟨after, sub, stopped⟩ := ih removed
    refine ⟨after, fun key mem => Finset.mem_of_mem_erase (sub mem), ?_⟩
    intro other mem
    rcases List.mem_cons.mp mem with rfl | mem
    · exact fun left => absurd (sub left) (Finset.notMem_erase _ _)
    · exact stopped other mem

theorem renewable_shutdown {opts : ShutdownOptions} (renewable : s.client.Renewable) :
    (s.shutdown server opts).2.client.Renewable := by
  obtain ⟨after, -, stopped⟩ := renewers_removed (shutdownTargets opts s.client) renewable
  exact renewable_shutdownLoop (s := ⟨_, s.world⟩) after stopped

end Session

/-! ### Runs -/

/-- What a call needs, so that every renewer can renew after it. -/
def Call.Careful (server : Server W) (s : Session W) : Call → Prop
  | registerAgent dataset agentCard opts => Session.RecordsRenewed server dataset agentCard opts s
  | updateAgent dataset serviceId fields =>
    Session.UnknownNotRenewed (server.updateAgent dataset serviceId fields s.world).1 dataset serviceId s.client
  | setStatus dataset serviceId status =>
    ∀ body, buildStatusBody status = .ok body →
      Session.UnknownNotRenewed (server.updateAgent dataset serviceId body s.world).1 dataset serviceId s.client
  | deregisterAgent dataset serviceId =>
    (server.deregisterAgent dataset serviceId s.world).1.isOk = true ∨
        (server.deregisterAgent dataset serviceId s.world).1.isNotFound = true →
      (dataset, serviceId) ∉ s.client.renewers
  | deleteDataset name =>
    (server.deleteDataset name s.world).1.isOk = true ∨ (server.deleteDataset name s.world).1.isValidation = true →
      ∀ key ∈ s.client.renewers, key.1 ≠ name
  | replaceAgentCard dataset serviceId agentCard _ => Session.KnownOnReplace server dataset serviceId agentCard s
  | restoreToBlank dataset serviceId => Session.KnownOnRestore server dataset serviceId s
  | registerBlankAgent _ _ _ _ | shutdown _ | close => True

/-- A call keeps every renewer going exactly if it is careful. -/
theorem Call.step_iff {s : Session W} (renewable : s.client.Renewable) (call : Call) :
    (call.run server s).client.Renewable ↔ call.Careful server s := by
  cases call with
  | registerAgent dataset agentCard opts => exact Session.renewable_registerAgent renewable
  | registerBlankAgent dataset endpoint serviceId persistent =>
    exact iff_of_true (Session.renewable_registerBlankAgent renewable) trivial
  | updateAgent dataset serviceId fields => exact Session.renewable_updateAgent renewable
  | setStatus dataset serviceId status => exact Session.renewable_setStatus renewable
  | deregisterAgent dataset serviceId => exact Session.renewable_deregisterAgent renewable
  | deleteDataset name => exact Session.renewable_deleteDataset renewable
  | replaceAgentCard dataset serviceId agentCard releaseLease => exact Session.renewable_replaceAgentCard renewable
  | restoreToBlank dataset serviceId => exact Session.renewable_restoreToBlank renewable
  | shutdown opts => exact iff_of_true (Session.renewable_shutdown renewable) trivial
  | close => exact iff_of_true (fun key mem => absurd mem (Finset.notMem_empty key)) trivial

/-- One call after the other. -/
def Moves (server : Server W) (s : Session W) (call : Call) (t : Session W) : Prop := call.run server s = t

/-- In every run of careful calls every renewer can renew. -/
theorem renewers_owned {file : Document} {baseUrl : String} {w : W} {calls : List Call} {s : Session W}
    (run : Run (Under (fun s call => call.Careful server s) (Moves server)) ⟨new file baseUrl, w⟩ calls s) :
    (∀ key ∈ s.client.renewers, s.client.assertOwned key.1 key.2 = .ok ()) ∧
      (∀ dataset serviceId t, (Call.deregisterAgent dataset serviceId).Careful server s →
        s.deregisterAgent server dataset serviceId = (.ok (), t) → (dataset, serviceId) ∉ t.client.renewers) ∧
      ∀ name t, (Call.deleteDataset name).Careful server s → s.deleteDataset server name = (.ok (), t) →
        ∀ key ∈ t.client.renewers, key.1 ≠ name := by
  have kept : ∀ (s : Session W) (call : Call) (t : Session W), s.client.Renewable → call.Careful server s →
      Moves server s call t → t.client.Renewable := by
    rintro s call t renewable careful rfl
    exact (call.step_iff server renewable).mpr careful
  have start : (new file baseUrl).Renewable := fun key mem => absurd mem (Finset.notMem_empty key)
  have renewable : s.client.Renewable :=
    @Run.invariant_under _ _ _ _ _ _ _ (fun s : Session W => s.client.Renewable) kept run start
  refine ⟨fun key mem => assertOwned_eq_ok.mpr (renewable key mem), ?_, ?_⟩
  · intro dataset serviceId t careful removed mem
    have after := ((Call.deregisterAgent dataset serviceId).step_iff server renewable).mpr careful
    rw [Call.run, removed] at after
    exact Session.not_contains_of_deregistered removed (after _ mem)
  · rintro name t careful removed key mem rfl
    have after := ((Call.deleteDataset key.1).step_iff server renewable).mpr careful
    rw [Call.run, removed] at after
    exact Session.not_contains_of_deleted removed (after _ mem)

/-! ### A service that is removed while it is renewed -/

namespace RenewersSample

/-- A registry that grants and does what it is asked. -/
def willing : Server Unit where
  registerAgent _ body w := (.ok ⟨body.serviceId.getD "generated", body.leaseTtl⟩, w)
  updateAgent _ _ _ w := (.ok (), w)
  getAgent _ _ w := (.ok [], w)
  deregisterAgent _ _ w := (.ok (), w)
  deleteDataset _ w := (.ok (), w)
  heartbeat _ _ _ w := (.ok .null, w)
  revokeLease _ _ w := (.ok (), w)
  releaseMyLease _ _ w := (.ok true, w)
  elapsed w := (none, w)

def start : Session Unit := ⟨new none "u", ()⟩

/-- A service with a lease that is renewed, recorded as owned or not. -/
def renewed (persistent : Bool) : Call := .registerAgent "ds" [] ⟨some "s", persistent, some 30, true⟩

/-- Two ways to a renewer that cannot renew: its service is deregistered, or was never recorded. -/
theorem renewer_left :
    (∃ s, Run (Moves willing) start [renewed true, .deregisterAgent "ds" "s"] s ∧ ("ds", "s") ∈ s.client.renewers ∧
      s.client.assertOwned "ds" "s" = .error (.notOwned "ds" "s")) ∧
    ∃ s, Run (Moves willing) start [renewed false] s ∧ ("ds", "s") ∈ s.client.renewers ∧
      s.client.assertOwned "ds" "s" = .error (.notOwned "ds" "s") := by
  refine ⟨⟨_, .cons rfl (.cons rfl (.nil _)), by decide, by rfl⟩, ⟨_, .cons rfl (.nil _), by decide, by rfl⟩⟩

/-- A recorded service is renewed, until a shutdown deregisters it. -/
theorem recorded_renewed : ∃ s, s.client.assertOwned "ds" "s" = .ok () ∧
    ("ds", "s") ∉ ((Call.shutdown ⟨some [("ds", "s")], none, true, false⟩).run willing s).client.renewers := by
  refine ⟨(renewed true).run willing start, ?_, by decide⟩
  have run : Run (Under (fun s call => call.Careful willing s) (Moves willing)) start [renewed true]
      ((renewed true).run willing start) :=
    .cons ⟨fun _ _ _ _ _ _ => .inl rfl, rfl⟩ (.nil _)
  exact (renewers_owned willing run).1 ("ds", "s") (by decide)

end RenewersSample

end AgentProtocols.Registry.RegistryClient
