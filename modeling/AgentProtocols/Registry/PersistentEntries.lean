import AgentProtocols.Registry.ApiStore
import AgentProtocols.Registry.ConcurrentUpdates

/-!
The entries of a dataset and its `api_config.json`, call after call. `step` is a successful call.

* `StoredDataset.Mirrors.step` — a call that meets `Orderly` keeps memory and file in agreement.
* `disk_agrees` — in every run of such calls a restart loads the ids of the persistent entries.
* `ephemeral_returns` — a persistent service registered again as an ephemeral one comes back.
-/

namespace AgentProtocols.Registry

open Lib RegistryService

/-! ### The calls -/

/-- Ids are made of the type and a digest of the name. -/
def Naming.hashed (naming : Naming AgentCard) (digest : String → String) : Naming AgentCard :=
  { naming with generateServiceId := fun typePrefix name => typePrefix ++ "_" ++ digest name }

theorem Naming.hashed_ne (naming : Naming AgentCard) (digest : String → String)
    (typePrefix name : String) : (naming.hashed digest).generateServiceId typePrefix name ≠ "" := by
  intro empty
  have chars := congrArg String.toList empty
  simp [Naming.hashed] at chars

def Outside.validating (o : Outside AgentCard) (config : RegisterConfig) : Outside AgentCard :=
  { o with
    requireValid := fun dataset type payload =>
      Registry.requireValid config dataset
        (if type = "generic" then .generic else if type = "a2a" then .a2a else .skill) payload }

/-- `register_batch` in memory. -/
def RegistryService.insertBatch (s : RegistryService AgentCard) (dataset : String)
    (entries : List (RegistryEntry AgentCard)) (source : Source) : RegistryService AgentCard :=
  entries.foldl (fun s e => s.insertEntry dataset e.serviceId { e with source }) s

/-- A dataset with its entries, and the store of its `api_config.json`. -/
structure StoredDataset where
  service : RegistryService AgentCard
  store : ApiStore

inductive DatasetCall where
  | registerGeneric (req : RegisterGenericRequest) (caller : Option AuthContext)
  | registerA2a (req : RegisterA2ARequest) (card : AgentCard) (cardUrl : Option String)
      (caller : Option AuthContext)
  | registerBatch (entries : List (RegistryEntry AgentCard)) (persistent : Bool)
  | updateService (serviceId : String) (updates : JsonDict) (caller : Option AuthContext)
  | deregister (serviceId : String) (caller : Option AuthContext)

namespace StoredDataset

section Calls

variable (dataset : String) (naming : Naming AgentCard) (o : Outside AgentCard)
  (s : StoredDataset)

/-- `save_api_entry` of the entry that a call has put into memory. -/
def saved (service : RegistryService AgentCard) (serviceId : String) : ApiStore :=
  match service.getEntry dataset serviceId with
  | none => s.store
  | some e => s.store.saveApiEntry e

def registered (persistent : Bool) :
    Except RegistryError Answer × RegistryService AgentCard → Option StoredDataset
  | (.ok (.register serviceId _ _), service) =>
    some ⟨service, if persistent then s.saved dataset service serviceId else s.store⟩
  | _ => none

def step : DatasetCall → Option StoredDataset
  | .registerGeneric req caller =>
    if req.dataset = dataset then
      s.registered dataset req.persistent (s.service.registerGeneric naming o req caller)
    else none
  | .registerA2a req card cardUrl caller =>
    if req.dataset = dataset then
      s.registered dataset req.persistent
        (s.service.registerA2aResolved naming o req card cardUrl caller)
    else none
  | .registerBatch entries persistent =>
    let service := s.service.insertBatch dataset entries
      (if persistent then .apiConfig else .ephemeral)
    let allApi := (service.dataset dataset).values.filter fun e => e.source = .apiConfig
    some ⟨service,
      if persistent && !allApi.isEmpty then .saveApiBatch allApi else s.store⟩
  | .updateService serviceId updates caller =>
    match s.service.updateService naming o dataset serviceId updates caller with
    | (.ok _, service) => some ⟨service,
        if (service.getEntry dataset serviceId).any fun e => e.source = .apiConfig then
          s.saved dataset service serviceId else s.store⟩
    | (.error _, _) => none
  | .deregister serviceId caller =>
    match s.service.deregister o dataset serviceId caller with
    | (.ok _, service) => some ⟨service,
        if (s.service.getEntry dataset serviceId).any fun e => e.source = .apiConfig then
          s.store.removeApiEntry serviceId else s.store⟩
    | (.error _, _) => none

end Calls

section Start

variable (naming : Naming AgentCard) (cardError : Json → String) (config : RegisterConfig)

def skillEntry (skill : SkillData) : RegistryEntry AgentCard where
  serviceId := naming.generateServiceId "skill" skill.name
  type := .skill
  source := .skillFolder
  skillData := some skill
  ownerId := none
  leaseTtl := none

/-- A skill is added unless its id is taken or it is not valid. -/
def addSkill (entries : OrderedMap String (RegistryEntry AgentCard)) (skill : SkillData) :
    OrderedMap String (RegistryEntry AgentCard) :=
  let e := skillEntry naming skill
  if (entries.get? e.serviceId).isSome || !keptAtStartup config e then entries
  else entries.insert e.serviceId e

/-- The entries of the start: those of the file that are kept, and the skills. -/
def startEntries (file : List Json) (skills : List SkillData) :
    OrderedMap String (RegistryEntry AgentCard) :=
  skills.foldl (addSkill naming config) (OrderedMap.empty.insertAll
    ((((ApiStore.loadApiConfig naming cardError file).loads naming cardError config).map fun e =>
      (e.serviceId, e))))

/-- The start of the process, before cards are fetched. -/
def start (dataset : String) (file : List Json) (skills : List SkillData) : StoredDataset :=
  let entries := startEntries naming cardError config file skills
  let allApi := entries.values.filter fun e => e.source = .apiConfig
  ⟨⟨OrderedMap.empty.insert dataset entries⟩,
    if allApi.isEmpty then .loadApiConfig naming cardError file else .saveApiBatch allApi⟩

end Start

/-! ### Agreement -/

section Agreement

variable (dataset : String) (naming : Naming AgentCard) (cardError : Json → String)
  (config : RegisterConfig) (s : StoredDataset)

/-- The persistent entries in memory are those that the store keeps and a start would load. -/
structure Mirrors : Prop where
  keyed : ∀ id e, s.service.getEntry dataset id = some e → e.serviceId = id
  listed : ApiStore.Listed s.store.apiEntries
  written : ∀ id, id ∈ (s.store.loads naming cardError config).map RegistryEntry.serviceId ↔
    ∃ e, s.store.apiEntries.get? id = some e ∧ keptAtStartup config e = true
  same : ∀ id e, s.store.apiEntries.get? id = some e ∧ keptAtStartup config e = true ↔
    s.service.getEntry dataset id = some e ∧ e.source = .apiConfig

/-- No persistent entry is in memory under the id. -/
def NotPersistent (id : String) : Prop :=
  ∀ e, s.service.getEntry dataset id = some e → e.source ≠ .apiConfig

/-- The entry is the last one of a batch under its id. -/
def IsLast (entries : List (RegistryEntry AgentCard)) (e : RegistryEntry AgentCard) : Prop :=
  ∃ before after, entries = before ++ e :: after ∧ ∀ e' ∈ after, e'.serviceId ≠ e.serviceId

/-- A start loads what the file lists of the entry. -/
def Storable (e : RegistryEntry AgentCard) : Prop :=
  e.serviceId ≠ "" ∧ e.type ≠ .skill ∧ keptAtStartup config e = true

/-- The start accepts the service that the updates make of an entry. -/
def StaysValid (e : RegistryEntry AgentCard) (updates : JsonDict) : Prop :=
  match e.type with
  | .generic =>
    let merged := mergeUpdates
      ((e.serviceData.map GenericServiceData.toJson).getD []) updates
    hasText (merged.get "name") = true ∧ hasText (merged.get "description") = true
  | .a2a => ∀ card updated, e.agentCard = some card →
      AgentCard.fromValue (mergeUpdates (card.toJson .full) updates) =
        some updated →
      keptAtStartup config { e with agentCard := some updated } = true
  | .skill => True

/-- No ephemeral service takes a persistent id, and what is stored can be loaded. -/
def Orderly : DatasetCall → Prop
  | .registerGeneric req _ => req.persistent = false → s.NotPersistent dataset
      (chosenId req.serviceId (naming.generateServiceId "generic" req.name))
  | .registerA2a req card _ _ => req.persistent = false → s.NotPersistent dataset
      (chosenId req.serviceId (naming.generateServiceId "agent" card.name))
  | .registerBatch entries true => ∀ e, IsLast entries e → Storable config e
  | .registerBatch entries false => ∀ e ∈ entries, s.NotPersistent dataset e.serviceId
  | .updateService serviceId updates _ => ∀ e, s.service.getEntry dataset serviceId = some e →
      e.source = .apiConfig → StaysValid config e updates
  | .deregister _ _ => True

end Agreement

variable {dataset : String} {naming : Naming AgentCard} {cardError : Json → String}
  {config : RegisterConfig} {s s' : StoredDataset} {entry : RegistryEntry AgentCard} {id : String}
  {entries : List (RegistryEntry AgentCard)}

theorem Mirrors.loads_iff (mirrors : Mirrors dataset naming cardError config s) :
    id ∈ (s.store.loads naming cardError config).map RegistryEntry.serviceId ↔
      ∃ e, s.service.getEntry dataset id = some e ∧ e.source = .apiConfig :=
  (mirrors.written id).trans (exists_congr fun e => mirrors.same id e)

variable {service : RegistryService AgentCard}

theorem Mirrors.of_flush {m : OrderedMap String (RegistryEntry AgentCard)}
    (keyed : ∀ id e, service.getEntry dataset id = some e → e.serviceId = id)
    (listed : ApiStore.Listed m)
    (same : ∀ id e, m.get? id = some e ∧ keptAtStartup config e = true ↔
      service.getEntry dataset id = some e ∧ e.source = .apiConfig) :
    Mirrors dataset naming cardError config ⟨service, .flush m⟩ where
  keyed := keyed
  listed := listed
  written _ := ApiStore.mem_loads_flush listed
  same := same

theorem persistent_iff : ((service.getEntry dataset id).any fun e => e.source = .apiConfig) = true ↔
      ∃ e, service.getEntry dataset id = some e ∧ e.source = .apiConfig := by
  cases service.getEntry dataset id <;> simp

theorem getEntry_insertEntry_here {j : String} :
    (service.insertEntry dataset id entry).getEntry dataset j =
      if j = id then some entry else service.getEntry dataset j := by
  rw [getEntry_insertEntry]
  simp only [true_and]

variable (mirrors : Mirrors dataset naming cardError config s)

include mirrors

theorem Mirrors.saves (readable : Readable entry) (kept : keptAtStartup config entry = true)
    (persistent : entry.source = .apiConfig) : Mirrors dataset naming cardError config
      ⟨s.service.insertEntry dataset entry.serviceId entry, s.store.saveApiEntry entry⟩ := by
  refine .of_flush (fun id e found => ?_) (mirrors.listed.insert readable) fun id e => ?_
  · rw [getEntry_insertEntry_here] at found
    split at found
    · rename_i here
      cases found
      exact here.symm
    · exact mirrors.keyed id e found
  · rw [getEntry_insertEntry_here, OrderedMap.get?_insert]
    by_cases here : id = entry.serviceId
    · rw [if_pos here, if_pos here]
      constructor
      · rintro ⟨⟨⟩, -⟩
        exact ⟨rfl, persistent⟩
      · rintro ⟨⟨⟩, -⟩
        exact ⟨rfl, kept⟩
    · rw [if_neg here, if_neg here]
      exact mirrors.same id e

/-- An ephemeral entry is put into memory where no persistent one is. -/
theorem Mirrors.inserts
    (free : s.NotPersistent dataset entry.serviceId) (ephemeral : entry.source ≠ .apiConfig) :
    Mirrors dataset naming cardError config
      ⟨s.service.insertEntry dataset entry.serviceId entry, s.store⟩ where
  keyed id e found := by
    rw [getEntry_insertEntry_here] at found
    split at found
    · rename_i here
      cases found
      exact here.symm
    · exact mirrors.keyed id e found
  listed := mirrors.listed
  written := mirrors.written
  same id e := by
    rw [mirrors.same id e, getEntry_insertEntry_here]
    split
    · rename_i here
      subst here
      constructor
      · rintro ⟨found, persistent⟩
        exact absurd persistent (free e found)
      · rintro ⟨⟨⟩, persistent⟩
        exact absurd persistent ephemeral
    · rfl

theorem Mirrors.removes : Mirrors dataset naming cardError config ⟨s.service.removeEntry dataset id,
        if (s.service.getEntry dataset id).any fun e => e.source = .apiConfig then
          s.store.removeApiEntry id else s.store⟩ := by
  have gone : (s.service.removeEntry dataset id).getEntry dataset id = none := by
    rw [getEntry, removeEntry, OrderedMap.get?_insert_self,
      Option.bind_some, OrderedMap.get?_erase_self]
  have others : ∀ {j}, j ≠ id → (s.service.removeEntry dataset id).getEntry dataset j =
      s.service.getEntry dataset j := fun ne =>
    getEntry_removeEntry_of_ne fun both => ne both.2
  have keyed : ∀ j e, (s.service.removeEntry dataset id).getEntry dataset j = some e →
      e.serviceId = j := fun j e found =>
    mirrors.keyed j e (getEntry_of_removeEntry found)
  split
  · rename_i persistent
    obtain ⟨e, found, source⟩ := persistent_iff.mp persistent
    have cached := ((mirrors.same id e).mpr ⟨found, source⟩).1
    have there : ¬(s.store.apiEntries.get? id).isNone := by simp [cached]
    rw [ApiStore.removeApiEntry, if_neg there]
    refine .of_flush keyed (mirrors.listed.erase id) fun j e' => ?_
    by_cases here : j = id
    · subst here
      rw [gone, OrderedMap.get?_erase_self]
      constructor <;> rintro ⟨⟨⟩, -⟩
    · rw [others here, OrderedMap.get?_erase_of_ne here]
      exact mirrors.same j e'
  · rename_i ephemeral
    refine ⟨keyed, mirrors.listed, mirrors.written, fun j e => ?_⟩
    rw [mirrors.same j e]
    by_cases here : j = id
    · subst here
      rw [gone]
      constructor
      · rintro ⟨found, persistent⟩
        exact absurd (persistent_iff.mpr ⟨e, found, persistent⟩) ephemeral
      · rintro ⟨⟨⟩, -⟩
    · rw [others here]

omit mirrors

/-! ### What the calls of the service do -/

section Service

variable {o : Outside AgentCard} {service service' : RegistryService AgentCard} {answer : Answer}
  {caller : Option AuthContext}

theorem doRegister_ok {persistent : Bool}
    (done : service.doRegister o dataset entry persistent = (.ok answer, service')) :
    service' = service.insertEntry dataset entry.serviceId entry ∧
      ∃ status, answer = .register entry.serviceId dataset status := by
  unfold doRegister at done
  split at done
  · cases done
  · obtain ⟨answered, rfl⟩ := Prod.mk.inj done
    refine ⟨rfl, service.statusOf dataset entry.serviceId, ?_⟩
    cases persistent with
    | false =>
      obtain ⟨_, -, answered⟩ := bind_eq_ok.mp answered
      exact (Except.ok.inj answered).symm
    | true =>
      obtain ⟨_, -, _, -, answered⟩ := bind₂_eq_ok.mp answered
      exact (Except.ok.inj answered).symm

def genericEntry (naming : Naming AgentCard) (req : RegisterGenericRequest)
    (caller : Option AuthContext) : RegistryEntry AgentCard where
  serviceId := chosenId req.serviceId (naming.generateServiceId "generic" req.name)
  type := .generic
  source := if req.persistent then .apiConfig else .ephemeral
  serviceData := some ⟨req.name, req.description, req.inputSchema, some req.url⟩
  ownerId := caller.map AuthContext.principalId
  leaseTtl := req.leaseTtl

def a2aEntry (naming : Naming AgentCard) (req : RegisterA2ARequest) (card : AgentCard)
    (cardUrl : Option String) (caller : Option AuthContext) : RegistryEntry AgentCard where
  serviceId := chosenId req.serviceId
    (naming.generateServiceId "agent" (naming.cardName card))
  type := .a2a
  source := if req.persistent then .apiConfig else .ephemeral
  agentCard := some card
  agentCardUrl := cardUrl
  ownerId := caller.map AuthContext.principalId
  leaseTtl := req.leaseTtl

theorem chosenId_ne {given : Option String} {made : String} (nonempty : made ≠ "") :
    chosenId given made ≠ "" := by
  unfold chosenId
  cases given with
  | none => exact nonempty
  | some id =>
    by_cases empty : id.isEmpty
    · simpa [Option.filter, empty] using nonempty
    · simpa [Option.filter, empty] using fun same => empty (String.isEmpty_iff.mpr same)

theorem registerGeneric_ok {req : RegisterGenericRequest}
    (done : service.registerGeneric naming o req caller = (.ok answer, service')) :
    (∃ u, o.requireValid req.dataset "generic" [("name", .str req.name),
      ("description", .str req.description), ("url", .str req.url),
      ("inputSchema", .obj req.inputSchema)] = .ok u) ∧
    service' = service.insertEntry req.dataset (genericEntry naming req caller).serviceId
      (genericEntry naming req caller) ∧
    ∃ status, answer = .register (genericEntry naming req caller).serviceId req.dataset status := by
  unfold registerGeneric at done
  split at done
  · cases done
  · dsimp only at done
    split at done
    · cases done
    · rename_i valid
      exact ⟨⟨_, valid⟩, doRegister_ok done⟩

theorem registerA2a_ok {req : RegisterA2ARequest} {card : AgentCard} {cardUrl : Option String}
    (done : service.registerA2aResolved naming o req card cardUrl caller = (.ok answer, service')) :
    (∃ u, o.requireValid req.dataset "a2a" (naming.cardJson card) = .ok u) ∧
    service' = service.insertEntry req.dataset (a2aEntry naming req card cardUrl caller).serviceId
      (a2aEntry naming req card cardUrl caller) ∧
    ∃ status, answer =
      .register (a2aEntry naming req card cardUrl caller).serviceId req.dataset status := by
  unfold registerA2aResolved at done
  split at done
  · cases done
  · split at done
    · cases done
    · rename_i valid
      exact ⟨⟨_, valid⟩, doRegister_ok done⟩

theorem kept_genericEntry {req : RegisterGenericRequest} {u : Unit}
    (valid : (o.validating config).requireValid req.dataset "generic" [("name", .str req.name),
      ("description", .str req.description), ("url", .str req.url),
      ("inputSchema", .obj req.inputSchema)] = .ok u) :
    keptAtStartup config (genericEntry naming req caller) = true := by
  obtain ⟨min, accepted, passes⟩ := requireValid_eq_ok.mp valid
  obtain ⟨oldest, name, description⟩ := validateGeneric_iff.mp passes
  have accepted : config .generic = some min := accepted
  unfold keptAtStartup
  rw [show (genericEntry naming req caller).type = .generic from rfl, accepted]
  exact List.isEmpty_iff.mpr (validateGeneric_iff.mpr ⟨oldest, name, description⟩)

theorem kept_a2aEntry {req : RegisterA2ARequest} {card : AgentCard} {cardUrl : Option String}
    {u : Unit} (valid : (o.validating config).requireValid req.dataset "a2a"
      (naming.ofCards.cardJson card) = .ok u) :
    keptAtStartup config (a2aEntry naming.ofCards req card cardUrl caller) = true := by
  obtain ⟨min, accepted, passes⟩ := requireValid_eq_ok.mp valid
  have accepted : config .a2a = some min := accepted
  unfold keptAtStartup
  rw [show (a2aEntry naming.ofCards req card cardUrl caller).type = .a2a from rfl, accepted]
  exact List.isEmpty_iff.mpr passes

variable {serviceId : String}

theorem getEntry_of_entryToUpdate
    (reads : service.entryToUpdate dataset serviceId caller = .ok entry) :
    service.getEntry dataset serviceId = some entry := by
  unfold entryToUpdate at reads
  split at reads
  · cases reads
  · rename_i found
    split at reads
    · cases reads
    · obtain ⟨_, -, same⟩ := bind_eq_ok.mp reads
      cases same
      exact found

theorem getEntry_of_entryToRemove
    (reads : service.entryToRemove dataset serviceId caller = .ok entry) :
    service.getEntry dataset serviceId = some entry := by
  unfold entryToRemove at reads
  split at reads
  · cases reads
  · rename_i found
    split at reads
    · cases reads
    · cases reads
    · obtain ⟨_, -, same⟩ := bind_eq_ok.mp reads
      cases same
      exact found

theorem updateService_ok {updates : JsonDict}
    (done : service.updateService naming o dataset serviceId updates caller =
      (.ok answer, service')) :
    ∃ entry newEntry changed, service.getEntry dataset serviceId = some entry ∧
      applyUpdates naming o dataset entry updates = .ok (newEntry, changed) ∧
      service' = service.insertEntry dataset serviceId newEntry := by
  unfold updateService at done
  split at done
  · cases done
  · rename_i entry reads
    split at done
    · cases done
    · rename_i newEntry changed applied
      split at done
      · cases done
      · exact ⟨entry, newEntry, changed, getEntry_of_entryToUpdate reads, applied,
          (Prod.mk.inj done).2.symm⟩

theorem deregister_ok
    (done : service.deregister o dataset serviceId caller = (.ok answer, service')) :
    service' = service.removeEntry dataset serviceId := by
  unfold deregister at done
  split at done
  · cases done
  · exact (Prod.mk.inj done).2.symm

end Service

/-! ### Batches -/

theorem getEntry_insertBatch {source : Source} : ∀ {entries : List (RegistryEntry AgentCard)},
    (service.insertBatch dataset entries source).getEntry dataset id = some entry →
    (∃ e, IsLast entries e ∧ e.serviceId = id ∧ entry = { e with source }) ∨
      service.getEntry dataset id = some entry ∧ ∀ e ∈ entries, e.serviceId ≠ id := by
  intro entries
  induction entries generalizing service with
  | nil => exact fun found => .inr ⟨found, fun e mem => absurd mem List.not_mem_nil⟩
  | cons e rest ih =>
    intro found
    rcases ih found with ⟨e', ⟨before, after, split, last⟩, at_id, same⟩ | ⟨found, others⟩
    · refine .inl ⟨e', ⟨e :: before, after, ?_, last⟩, at_id, same⟩
      rw [split, List.cons_append]
    · rw [getEntry_insertEntry_here] at found
      split at found
      · rename_i here
        cases found
        exact .inl ⟨e, ⟨[], rest, rfl, fun e' mem => here ▸ others e' mem⟩, here.symm, rfl⟩
      · rename_i other
        refine .inr ⟨found, fun e' mem => ?_⟩
        rcases List.mem_cons.mp mem with rfl | mem
        · exact Ne.symm other
        · exact others e' mem

theorem Mirrors.of_batch (keyed : ∀ id e, service.getEntry dataset id = some e → e.serviceId = id)
    (sound : ∀ id e, service.getEntry dataset id = some e → e.source = .apiConfig →
      Readable e ∧ keptAtStartup config e = true) :
    Mirrors dataset naming cardError config ⟨service,
      .saveApiBatch ((service.dataset dataset).values.filter fun e => e.source = .apiConfig)⟩ := by
  have batch : ∀ id, (OrderedMap.empty.insertAll
      (((service.dataset dataset).values.filter fun e => e.source = .apiConfig).map fun e =>
        (e.serviceId, e))).get? id =
      (service.getEntry dataset id).filter fun e => e.source = .apiConfig := by
    intro id
    apply OrderedMap.get?_insertAll_empty
      (f := fun id => (service.getEntry dataset id).filter fun e => e.source = .apiConfig)
    rintro ⟨j, e⟩
    rw [Option.filter_eq_some_iff, List.mem_map]
    constructor
    · rintro ⟨e', mem, same⟩
      obtain ⟨rfl, rfl⟩ := Prod.mk.inj same
      obtain ⟨inside, persistent⟩ := List.mem_filter.mp mem
      obtain ⟨⟨id', e''⟩, at_id, rfl⟩ := List.mem_map.mp inside
      have found := OrderedMap.get?_eq_some_iff.mpr at_id
      rw [getEntry_dataset] at found
      exact ⟨by rwa [keyed id' e'' found], persistent⟩
    · rintro ⟨found, persistent⟩
      refine ⟨e, List.mem_filter.mpr ⟨?_, persistent⟩, Prod.ext (keyed j e found) rfl⟩
      rw [← getEntry_dataset] at found
      exact List.mem_map.mpr ⟨_, OrderedMap.get?_eq_some_iff.mp found, rfl⟩
  refine .of_flush keyed (fun id e found => ?_) fun id e => ?_
  · rw [batch, Option.filter_eq_some_iff] at found
    exact ⟨keyed id e found.1, (sound id e found.1 (of_decide_eq_true found.2)).1⟩
  · rw [batch, Option.filter_eq_some_iff, decide_eq_true_eq]
    exact ⟨fun both => both.1, fun both => ⟨both, (sound id e both.1 both.2).2⟩⟩

/-! ### A call -/

section Step

variable {digest : String → String} {o : Outside AgentCard} {errorText : JsonDict → String}

theorem get_of_field_asStr {d : JsonDict} {key text : String}
    (read : field Json.asStr d key = some text) : d.get key = some (.str text) := by
  obtain ⟨v, found, is⟩ := Option.bind_eq_some_iff.mp read
  rw [found, asStr_eq_some.mp is]

theorem kept_of_staysValid {newEntry : RegistryEntry AgentCard} {updates : JsonDict}
    {changed : List String} (kept : keptAtStartup config entry = true)
    (noSkill : entry.type ≠ .skill) (valid : StaysValid config entry updates)
    (applied : applyUpdates naming.ofCards (o.serde errorText) dataset entry
      updates = .ok (newEntry, changed)) : keptAtStartup config newEntry = true := by
  unfold applyUpdates at applied
  unfold StaysValid at valid
  cases type : entry.type with
  | generic =>
    rw [type] at applied valid
    obtain ⟨_, -, applied⟩ := bind_eq_ok.mp applied
    dsimp only at applied
    split at applied
    · cases applied
    · rename_i data read
      cases applied
      have read := readAs_eq_ok.mp read
      simp only [GenericServiceData.fromJson, Option.pure_def, bind_eq_some, Option.some.injEq] at read
      obtain ⟨name, named, description, described, _, -, _, -, rfl⟩ := read
      dsimp only at valid
      rw [get_of_field_asStr named, get_of_field_asStr described] at valid
      obtain ⟨sd, has, -⟩ := texts_of_kept kept type
      refine (kept_generic_iff (by exact type) rfl).mpr ?_
      exact ⟨((kept_generic_iff type has).mp kept).1, valid⟩
  | a2a =>
    rw [type] at applied valid
    dsimp only at applied
    unfold applyA2aUpdates at applied
    split at applied
    · cases applied
    · rename_i card has
      dsimp only at applied
      split at applied
      · cases applied
      · rename_i updated read
        cases applied
        rw [type]
        exact valid card updated has (readAs_eq_ok.mp read)
  | skill => exact absurd type noSkill

theorem registered_eq_some {persistent : Bool}
    {result : Except RegistryError Answer × RegistryService AgentCard}
    (done : s.registered dataset persistent result = some s') :
    ∃ serviceId dataset' status service,
      result = (.ok (.register serviceId dataset' status), service) ∧
      s' = ⟨service, if persistent then s.saved dataset service serviceId else s.store⟩ := by
  unfold registered at done
  split at done
  · exact ⟨_, _, _, _, rfl, (Option.some.inj done).symm⟩
  · cases done

theorem Mirrors.registers {persistent : Bool}
    (mirrors : Mirrors dataset naming cardError config s) (named : entry.serviceId ≠ "")
    (noSkill : entry.type ≠ .skill) (kept : keptAtStartup config entry = true)
    (source : entry.source = if persistent then .apiConfig else .ephemeral)
    (free : persistent = false → s.NotPersistent dataset entry.serviceId) :
    Mirrors dataset naming cardError config ⟨s.service.insertEntry dataset entry.serviceId entry,
        if persistent then
          s.saved dataset (s.service.insertEntry dataset entry.serviceId entry) entry.serviceId
        else s.store⟩ := by
  cases persistent with
  | false =>
    refine mirrors.inserts (free rfl) ?_
    rw [source]
    decide
  | true =>
    have here : (s.service.insertEntry dataset entry.serviceId entry).getEntry dataset
        entry.serviceId = some entry := by
      rw [getEntry_insertEntry_here, if_pos rfl]
    rw [saved, here]
    exact mirrors.saves (.of_kept named noSkill kept) kept source

variable {entries : List (RegistryEntry AgentCard)}

variable (mirrors : Mirrors dataset naming cardError config s)

include mirrors

theorem Mirrors.inserts_batch (free : ∀ e ∈ entries, s.NotPersistent dataset e.serviceId) :
    Mirrors dataset naming cardError config
      ⟨s.service.insertBatch dataset entries .ephemeral, s.store⟩ := by
  induction entries generalizing s with
  | nil => exact mirrors
  | cons e rest ih =>
    let copy : RegistryEntry AgentCard := { e with source := .ephemeral }
    have ephemeral : copy.source ≠ .apiConfig := show Source.ephemeral ≠ .apiConfig by decide
    have first : Mirrors dataset naming cardError config
        ⟨s.service.insertEntry dataset copy.serviceId copy, s.store⟩ :=
      mirrors.inserts (free e (.head _)) ephemeral
    refine ih first fun e' mem found there => ?_
    rw [getEntry_insertEntry_here] at there
    split at there
    · cases there
      exact ephemeral
    · exact free e' (.tail _ mem) found there

theorem Mirrors.saves_batch (storable : ∀ e, IsLast entries e → Storable config e) :
    let service := s.service.insertBatch dataset entries .apiConfig
    Mirrors dataset naming cardError config ⟨service,
      .saveApiBatch ((service.dataset dataset).values.filter fun e => e.source = .apiConfig)⟩ := by
  refine .of_batch (fun id e found => ?_) fun id e found persistent => ?_
  · rcases getEntry_insertBatch found with ⟨e', -, at_id, rfl⟩ | ⟨found, -⟩
    · exact at_id
    · exact mirrors.keyed id e found
  · rcases getEntry_insertBatch found with ⟨e', last, -, rfl⟩ | ⟨found, -⟩
    · obtain ⟨named, noSkill, kept⟩ := storable e' last
      exact ⟨.of_kept named noSkill kept, kept⟩
    · obtain ⟨stored, kept⟩ := (mirrors.same id e).mpr ⟨found, persistent⟩
      exact ⟨(mirrors.listed id e stored).2, kept⟩

omit mirrors

theorem eq_nil_of_insertBatch {service : RegistryService AgentCard}
    (none : (((service.insertBatch dataset entries .apiConfig).dataset dataset).values.filter
      fun e => e.source = .apiConfig).isEmpty = true) : entries = [] := by
  rcases List.eq_nil_or_concat entries with rfl | ⟨before, e, rfl⟩
  · rfl
  · have stored : (service.insertBatch dataset (before ++ [e]) .apiConfig).getEntry dataset
        e.serviceId = some { e with source := .apiConfig } := by
      rw [insertBatch, List.foldl_concat, getEntry_insertEntry_here, if_pos rfl]
    rw [← getEntry_dataset] at stored
    have listed := List.mem_map_of_mem (f := Prod.snd) (OrderedMap.get?_eq_some_iff.mp stored)
    exact absurd none (by simpa [List.isEmpty_iff] using ⟨_, listed, rfl⟩)

/-- An updated entry is put into memory, and saved if it is persistent. -/
theorem Mirrors.updates {newEntry : RegistryEntry AgentCard} {updates : JsonDict}
    {changed : List String} (mirrors : Mirrors dataset naming cardError config s)
    (found : s.service.getEntry dataset id = some entry)
    (applied : applyUpdates naming.ofCards (o.serde errorText) dataset entry
      updates = .ok (newEntry, changed))
    (valid : entry.source = .apiConfig → StaysValid config entry updates) :
    Mirrors dataset naming cardError config ⟨s.service.insertEntry dataset id newEntry,
        if ((s.service.insertEntry dataset id newEntry).getEntry dataset id).any
            fun e => e.source = .apiConfig then
          s.saved dataset (s.service.insertEntry dataset id newEntry) id
        else s.store⟩ := by
  have here : (s.service.insertEntry dataset id newEntry).getEntry dataset id = some newEntry := by
    rw [getEntry_insertEntry_here, if_pos rfl]
  have same : newEntry.serviceId = entry.serviceId ∧ newEntry.type = entry.type ∧
      newEntry.source = entry.source := by
    rcases applyUpdates_eq applied with ⟨-, _, rfl⟩ | ⟨-, _, rfl⟩ | ⟨-, _, rfl⟩ <;>
      exact ⟨rfl, rfl, rfl⟩
  obtain ⟨same_id, same_type, same_source⟩ := same
  have at_id : newEntry.serviceId = id := same_id.trans (mirrors.keyed id entry found)
  subst at_id
  rw [saved, here]
  by_cases persistent : newEntry.source = .apiConfig
  · rw [if_pos (by simpa using persistent)]
    rw [same_source] at persistent
    obtain ⟨stored, kept⟩ := (mirrors.same _ entry).mpr ⟨found, persistent⟩
    obtain ⟨-, named, noSkill, -⟩ := mirrors.listed _ entry stored
    have stays := kept_of_staysValid kept noSkill (valid persistent) applied
    exact mirrors.saves (.of_kept (same_id ▸ named) (same_type ▸ noSkill) stays) stays
      (same_source.trans persistent)
  · rw [if_neg (by simpa using persistent)]
    refine mirrors.inserts (fun e there => ?_) persistent
    cases found.symm.trans there
    exact same_source ▸ persistent

/-- **A call that is orderly keeps memory and file in agreement.** -/
theorem Mirrors.step {call : DatasetCall}
    (mirrors : Mirrors dataset (naming.hashed digest).ofCards cardError config s)
    (orderly : Orderly dataset (naming.hashed digest) config s call)
    (step : s.step dataset (naming.hashed digest).ofCards ((o.serde errorText).validating config)
      call = some s') :
    Mirrors dataset (naming.hashed digest).ofCards cardError config s' := by
  cases call with
  | registerGeneric req caller =>
    dsimp only [StoredDataset.step] at step
    split at step
    · rename_i here
      obtain ⟨id, dataset', status, service, done, rfl⟩ := registered_eq_some step
      obtain ⟨⟨_, valid⟩, rfl, status, same⟩ := registerGeneric_ok done
      cases same
      rw [here]
      exact mirrors.registers (chosenId_ne (naming.hashed_ne digest _ _))
        (show ServiceType.generic ≠ .skill by decide) (kept_genericEntry valid) rfl orderly
    · cases step
  | registerA2a req card cardUrl caller =>
    dsimp only [StoredDataset.step] at step
    split at step
    · rename_i here
      obtain ⟨id, dataset', status, service, done, rfl⟩ := registered_eq_some step
      obtain ⟨⟨_, valid⟩, rfl, status, same⟩ := registerA2a_ok done
      cases same
      rw [here]
      exact mirrors.registers (chosenId_ne (naming.hashed_ne digest _ _))
        (show ServiceType.a2a ≠ .skill by decide) (kept_a2aEntry valid) rfl orderly
    · cases step
  | registerBatch entries persistent =>
    cases step
    cases persistent with
    | false => exact mirrors.inserts_batch orderly
    | true =>
      by_cases none : (((s.service.insertBatch dataset entries .apiConfig).dataset
          dataset).values.filter fun e => e.source = .apiConfig).isEmpty
      · cases eq_nil_of_insertBatch none
        simp only [if_true, none]
        exact mirrors
      · simpa [none] using mirrors.saves_batch orderly
  | updateService serviceId updates caller =>
    dsimp only [StoredDataset.step] at step
    split at step
    · rename_i answer service done
      cases step
      obtain ⟨e, newEntry, changed, found, applied, rfl⟩ := updateService_ok done
      exact mirrors.updates found applied (orderly e found)
    · cases step
  | deregister serviceId caller =>
    dsimp only [StoredDataset.step] at step
    split at step
    · rename_i answer service done
      cases step
      cases deregister_ok done
      exact mirrors.removes
    · cases step

end Step

/-! ### The start -/

section Start

variable {file : List Json} {skills : List SkillData} {skill : SkillData}
  {m : OrderedMap String (RegistryEntry AgentCard)}

theorem of_mem_loads (makes : ∀ type name, naming.generateServiceId type name ≠ "")
    (mem : entry ∈ (ApiStore.loadApiConfig naming cardError file).loads naming cardError config) :
    Readable entry ∧ entry.source = .apiConfig ∧ keptAtStartup config entry = true := by
  obtain ⟨read, kept⟩ := List.mem_filter.mp mem
  obtain ⟨svc, -, parsed⟩ := mem_loadConfigFile read
  obtain ⟨readable, source⟩ := readable_of_parse makes parsed
  exact ⟨readable, source, kept⟩

theorem get?_addSkill (found : m.get? id = some entry) :
    (addSkill naming config m skill).get? id = some entry := by
  unfold addSkill
  dsimp only
  split
  · exact found
  · rename_i free
    rw [OrderedMap.get?_insert_of_ne, found]
    rintro rfl
    simp [found] at free

theorem of_get?_addSkill (found : (addSkill naming config m skill).get? id = some entry) :
    m.get? id = some entry ∨ entry = skillEntry naming skill ∧ id = entry.serviceId := by
  unfold addSkill at found
  dsimp only at found
  split at found
  · exact .inl found
  · rw [OrderedMap.get?_insert] at found
    split at found
    · rename_i here
      cases found
      exact .inr ⟨rfl, here⟩
    · exact .inl found

theorem of_get?_startEntries :
    (startEntries naming cardError config file skills).get? id = some entry →
    entry.serviceId = id ∧ (entry.source = .apiConfig →
      entry ∈ (ApiStore.loadApiConfig naming cardError file).loads naming cardError config) := by
  refine List.foldlRecOn (motive := fun (m : OrderedMap String (RegistryEntry AgentCard)) =>
    m.get? id = some entry → _) skills _ ?_ ?_
  · intro found
    rcases OrderedMap.mem_of_get?_insertAll found with mem | ⟨⟨⟩⟩
    obtain ⟨e, loaded, same⟩ := List.mem_map.mp mem
    obtain ⟨rfl, rfl⟩ := Prod.mk.inj same
    exact ⟨rfl, fun _ => loaded⟩
  · intro m before skill _ found
    rcases of_get?_addSkill found with found | ⟨rfl, rfl⟩
    · exact before found
    · exact ⟨rfl, nofun⟩

theorem startEntries_of_mem_loads (makes : ∀ type name, naming.generateServiceId type name ≠ "")
    (mem : entry ∈ (ApiStore.loadApiConfig naming cardError file).loads naming cardError config) :
    ∃ e, (startEntries naming cardError config file skills).get? entry.serviceId = some e ∧
      e.source = .apiConfig := by
  refine List.foldlRecOn (motive := fun (m : OrderedMap String (RegistryEntry AgentCard)) =>
    ∃ e, m.get? entry.serviceId = some e ∧ e.source = .apiConfig) skills _ ?_ ?_
  · have listed : entry.serviceId ∈ (((ApiStore.loadApiConfig naming cardError file).loads naming
        cardError config).map fun e => (e.serviceId, e)).map Prod.fst :=
      List.mem_map.mpr ⟨_, List.mem_map_of_mem mem, rfl⟩
    obtain ⟨e, found⟩ := Option.isSome_iff_exists.mp
      (OrderedMap.isSome_get?_insertAll.mpr (.inl listed))
    refine ⟨e, found, ?_⟩
    rcases OrderedMap.mem_of_get?_insertAll found with inserted | ⟨⟨⟩⟩
    obtain ⟨e', mem', same⟩ := List.mem_map.mp inserted
    obtain ⟨-, rfl⟩ := Prod.mk.inj same
    exact (of_mem_loads makes mem').2.1
  · rintro m ⟨e, found, persistent⟩ skill -
    exact ⟨e, get?_addSkill found, persistent⟩

theorem dataset_insert_empty :
    (⟨OrderedMap.empty.insert dataset m⟩ : RegistryService AgentCard).dataset dataset = m := by
  rw [RegistryService.dataset, OrderedMap.get?_insert_self, Option.getD_some]

theorem getEntry_insert_empty :
    (⟨OrderedMap.empty.insert dataset m⟩ : RegistryService AgentCard).getEntry dataset id =
      m.get? id := by
  rw [← getEntry_dataset, dataset_insert_empty]

variable (makes : ∀ type name, naming.generateServiceId type name ≠ "")

include makes

theorem mirrors_of_no_loads {service : RegistryService AgentCard}
    (none : (ApiStore.loadApiConfig naming cardError file).loads naming cardError config = [])
    (keyed : ∀ id e, service.getEntry dataset id = some e → e.serviceId = id)
    (absent : ∀ id e, service.getEntry dataset id = some e → e.source ≠ .apiConfig) :
    Mirrors dataset naming cardError config ⟨service, .loadApiConfig naming cardError file⟩ := by
  have read : ∀ id e, (ApiStore.loadApiConfig naming cardError file).apiEntries.get? id = some e →
      e.serviceId = id ∧ e ∈ loadConfigFile naming cardError file .apiConfig := by
    intro id e found
    rcases OrderedMap.mem_of_get?_insertAll found with mem | ⟨⟨⟩⟩
    obtain ⟨e, loaded, same⟩ := List.mem_map.mp mem
    obtain ⟨rfl, rfl⟩ := Prod.mk.inj same
    exact ⟨rfl, loaded⟩
  have dropped : ∀ id e,
      (ApiStore.loadApiConfig naming cardError file).apiEntries.get? id = some e →
      keptAtStartup config e ≠ true := by
    intro id e found kept
    have mem : e ∈ (ApiStore.loadApiConfig naming cardError file).loads naming cardError config :=
      List.mem_filter.mpr ⟨(read id e found).2, kept⟩
    rw [none] at mem
    cases mem
  refine ⟨keyed, fun id e found => ?_, fun id => ?_, fun id e => ?_⟩
  · obtain ⟨at_id, mem⟩ := read id e found
    obtain ⟨svc, -, parsed⟩ := mem_loadConfigFile mem
    exact ⟨at_id, (readable_of_parse makes parsed).1⟩
  · rw [none]
    refine iff_of_false List.not_mem_nil ?_
    rintro ⟨e, found, kept⟩
    exact dropped id e found kept
  · refine iff_of_false ?_ ?_
    · rintro ⟨found, kept⟩
      exact dropped id e found kept
    · rintro ⟨found, persistent⟩
      exact absent id e found persistent

/-- **Memory and file agree from the start on.** -/
theorem mirrors_start : Mirrors dataset naming cardError config
      (start naming cardError config dataset file skills) := by
  unfold start
  dsimp only
  have keyed : ∀ id e, (⟨OrderedMap.empty.insert dataset
      (startEntries naming cardError config file skills)⟩ : RegistryService AgentCard).getEntry
      dataset id = some e → e.serviceId = id := fun id e found =>
    (of_get?_startEntries (getEntry_insert_empty.symm.trans found)).1
  split
  · rename_i none
    have absent : ∀ id e, (startEntries naming cardError config file skills).get? id = some e →
        e.source ≠ .apiConfig := by
      intro id e found persistent
      have listed := List.mem_map_of_mem (f := Prod.snd) (OrderedMap.get?_eq_some_iff.mp found)
      exact absurd none (by simpa [List.isEmpty_iff] using ⟨_, listed, persistent⟩)
    refine mirrors_of_no_loads makes (List.eq_nil_iff_forall_not_mem.mpr fun e mem => ?_) keyed
      fun id e found => absent id e (getEntry_insert_empty.symm.trans found)
    obtain ⟨e', found, persistent⟩ : ∃ e',
        (startEntries naming cardError config file skills).get? e.serviceId = some e' ∧
          e'.source = .apiConfig := startEntries_of_mem_loads makes mem
    exact absent _ e' found persistent
  · have batch : Mirrors dataset naming cardError config ⟨_, .saveApiBatch _⟩ :=
      .of_batch keyed fun id e found persistent => by
        obtain ⟨readable, -, kept⟩ := of_mem_loads makes
          ((of_get?_startEntries (getEntry_insert_empty.symm.trans found)).2 persistent)
        exact ⟨readable, kept⟩
    rwa [dataset_insert_empty] at batch

omit makes

end Start

/-- A call in a run, and what the outside says to it. -/
def callStep (dataset : String) (naming : Naming AgentCard) (config : RegisterConfig)
    (errorText : JsonDict → String) (s : StoredDataset) (l : Outside AgentCard × DatasetCall) :
    Option StoredDataset :=
  s.step dataset naming.ofCards ((l.1.serde errorText).validating config) l.2

/-- **In every run of orderly calls the ids that a restart loads are those of the persistent
entries in memory.** -/
theorem disk_agrees {digest : String → String} {errorText : JsonDict → String} {file : List Json}
    {skills : List SkillData} {ls : List (Outside AgentCard × DatasetCall)}
    (run : Run
      (Under (fun s l => Orderly dataset (naming.hashed digest) config s l.2)
        (Steps (callStep dataset (naming.hashed digest) config errorText)))
      (start (naming.hashed digest).ofCards cardError config dataset file skills) ls s)
    (id : String) :
    id ∈ (s.store.loads (naming.hashed digest).ofCards cardError config).map
        RegistryEntry.serviceId ↔
      ∃ e, s.service.getEntry dataset id = some e ∧ e.source = .apiConfig :=
  (run.invariant_under (fun _ _ _ mirrors orderly step => Mirrors.step mirrors orderly step)
    (mirrors_start (naming.hashed_ne digest))).loads_iff

end StoredDataset

/-! ### A service that comes back and one that is lost -/

namespace EphemeralAgain

open StoredDataset
open LostUpdate (willing errorText)

def naming : Naming AgentCard := LostUpdate.naming.hashed id

/-- The dataset accepts generic services. -/
def config : RegisterConfig
  | .generic => some .v0_0
  | _ => none

def cardError (_ : Json) : String := "invalid"

def request (persistent : Bool) : RegisterGenericRequest where
  serviceId := some "x"
  dataset := "ds"
  name := "n"
  description := "d"
  inputSchema := []
  url := "u"
  persistent
  leaseTtl := none

def empty : StoredDataset := start naming.ofCards cardError config "ds" [] []

def register (persistent : Bool) : Outside AgentCard × DatasetCall :=
  (willing, .registerGeneric (request persistent) none)

def describe (text : String) : Outside AgentCard × DatasetCall :=
  (willing, .updateService "x" [("description", .str text)] none)

def remove : Outside AgentCard × DatasetCall := (willing, .deregister "x" none)

def restarted (s : StoredDataset) : List String :=
  (s.store.loads naming.ofCards cardError config).map RegistryEntry.serviceId

/-- An ephemeral entry comes back with a restart, and one without a description is lost. -/
theorem ephemeral_returns :
    (∃ s, Run (Steps (callStep "ds" naming config errorText)) empty
        [register true, register false, remove] s ∧
      restarted s = ["x"] ∧ (s.service.getEntry "ds" "x").isNone = true) ∧
    ∃ s, Run (Steps (callStep "ds" naming config errorText)) empty
        [register true, describe " "] s ∧
      restarted s = [] ∧
      (s.service.getEntry "ds" "x").any (fun e => e.source = .apiConfig) = true := by
  refine ⟨⟨_, run_of_foldlM rfl, ?_, ?_⟩, _, run_of_foldlM rfl, ?_, ?_⟩ <;> rfl

/-- A service that is described again, with a text, and deregistered. -/
theorem described_again : ∃ s,
    Run (Under (fun s l => Orderly "ds" naming config s l.2)
      (Steps (callStep "ds" naming config errorText))) empty
      [register true, describe "new", remove, register false] s ∧
    ∀ id, id ∈ restarted s ↔
      ∃ e, s.service.getEntry "ds" id = some e ∧ e.source = .apiConfig := by
  have valid : StaysValid config (genericEntry naming.ofCards (request true) none)
      [("description", .str "new")] := ⟨rfl, rfl⟩
  have run : Run (Under (fun s l => Orderly "ds" naming config s l.2)
      (Steps (callStep "ds" naming config errorText))) empty
      [register true, describe "new", remove, register false] _ :=
    .cons ⟨fun ephemeral => absurd ephemeral (by decide), rfl⟩
      (.cons ⟨fun e found _ => Option.some.inj found ▸ valid, rfl⟩
        (.cons ⟨trivial, rfl⟩
          (.cons ⟨fun _ e found => absurd found nofun, rfl⟩ (.nil _))))
  exact ⟨_, run, disk_agrees run⟩

end EphemeralAgain

end AgentProtocols.Registry
