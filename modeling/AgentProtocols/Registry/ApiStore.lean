import AgentProtocols.Registry.Validation

/-!
The store of a dataset and its `api_config.json`, written at each change and read at a start.

* `parse_entryToConfigDict`, `readable_of_parse` — what is read back of what was written.
-/

namespace AgentProtocols.Registry

open Lib OrderedMap
open AgentProtocols.A4P (trim isTruthy)
open AgentProtocols.Json (F64 Number)

/-! ### Numbers -/

def truncate (f : F64) : Int :=
  let mantissa := if f.exponent.val = 0 then f.fraction.val else 2 ^ 52 + f.fraction.val
  let magnitude : Nat :=
    if 1075 ≤ f.exponent.val then mantissa * 2 ^ (f.exponent.val - 1075)
    else mantissa / 2 ^ (1075 - f.exponent.val)
  max (-2 ^ 63) (min (2 ^ 63 - 1) (if f.negative then -magnitude else magnitude))

/-- `as_i64`, or else the truncated float. -/
def wholeNumber (n : Number) : Int :=
  match n.asI64, n with
  | some i, _ => i
  | none, .posInt _ _ => 2 ^ 63 - 1
  | none, .negInt i _ _ => i
  | none, .float f => truncate f

/-- `lease_ttl` of a config file. -/
def leaseTtlOf (v : Option Json) : Option Int :=
  (v.bind fun v => match v with
    | .num n => some (wholeNumber n)
    | _ => none).filter fun t => 0 < t

/-! ### Entries in the file -/

def nonEmptyText (v : Option Json) : Option String := (v.bind Json.asStr).filter fun s => !s.isEmpty

def parseSchema : Option Json → Except String JsonDict
  | none => .ok []
  | some (.obj o) => .ok o
  | some _ => .error "inputSchema must be an object"

def parseUrl : Option Json → Except String (Option String)
  | none | some .null => .ok none
  | some (.str s) => .ok (some s)
  | some _ => .error "url must be a string"

section

variable (naming : Naming AgentCard) (cardError : Json → String)

def parseGeneric (map : JsonDict) (serviceId : String) (source : Source) (ownerId : Option String)
    (leaseTtl : Option Int) : Except String (Option (RegistryEntry AgentCard)) :=
  let name := trim (((map.get "name").bind Json.asStr).getD "")
  let desc := trim (((map.get "description").bind Json.asStr).getD "")
  if name.isEmpty || desc.isEmpty then .ok none
  else do
    let inputSchema ← parseSchema (map.get "inputSchema")
    let url ← parseUrl (map.get "url")
    return some
      { serviceId := if serviceId.isEmpty then naming.generateServiceId "generic" name else serviceId
        type := .generic
        source
        serviceData := some ⟨name, desc, inputSchema, url⟩
        ownerId
        leaseTtl }

def parseCard (v : Option Json) : Except String (Option AgentCard) :=
  match v.filter isTruthy with
  | none => .ok none
  | some v =>
    match v.asObject.bind AgentCard.fromValue with
    | none => .error (cardError v)
    | some card => .ok (some card)

def parseA2a (map : JsonDict) (serviceId : String) (source : Source) (ownerId : Option String)
    (leaseTtl : Option Int) : Except String (Option (RegistryEntry AgentCard)) := do
  let cardUrl := nonEmptyText (map.get "agent_card_url")
  let agentCard ← parseCard cardError (map.get "agent_card")
  let name := (agentCard.map AgentCard.name).getD (cardUrl.getD "unknown")
  return some
    { serviceId := if serviceId.isEmpty then naming.generateServiceId "agent" name else serviceId
      type := .a2a
      source
      agentCard
      agentCardUrl := cardUrl
      ownerId
      leaseTtl }

def parseServiceEntry (svc : Json) (source : Source) :
    Except String (Option (RegistryEntry AgentCard)) :=
  match svc.asObject with
  | none => .error "entry is not an object"
  | some map =>
    let serviceId := ((map.get "service_id").bind Json.asStr).getD ""
    let ownerId := nonEmptyText (map.get "owner_id")
    let leaseTtl := leaseTtlOf (map.get "lease_ttl")
    match ((map.get "type").bind Json.asStr).getD "generic" with
    | "generic" => parseGeneric naming map serviceId source ownerId leaseTtl
    | "a2a" => parseA2a naming cardError map serviceId source ownerId leaseTtl
    | _ => .ok none

/-- `load_config_file`, given the services that the file lists. -/
def loadConfigFile (services : List Json) (source : Source) : List (RegistryEntry AgentCard) :=
  services.filterMap fun svc =>
    match parseServiceEntry naming cardError svc source with
    | .ok entry => entry
    | .error _ => none

end

def serviceMembers (entry : RegistryEntry AgentCard) : List (String × Option Json) :=
  match entry.type with
  | .generic =>
    [("name", entry.serviceData.map fun sd => .str sd.name),
      ("description", entry.serviceData.map fun sd => .str sd.description),
      ("inputSchema", entry.serviceData.bind fun sd =>
        put true sd.inputSchema.isEmpty (.obj sd.inputSchema)),
      ("url", entry.serviceData.bind fun sd =>
        (sd.url.filter fun u => !u.isEmpty).map .str)]
  | .a2a =>
    [("agent_card_url", (entry.agentCardUrl.filter fun u => !u.isEmpty).map .str),
      ("agent_card", entry.agentCard.map fun c => .obj (c.toJson .excludeDefaults))]
  | .skill => []

def configMembers (entry : RegistryEntry AgentCard) : List (String × Option Json) :=
  [("type", some (.str entry.type.asStr)), ("service_id", some (.str entry.serviceId))] ++
    serviceMembers entry ++
    [("owner_id", (entry.ownerId.filter fun o => !o.isEmpty).map .str),
      ("lease_ttl", (entry.leaseTtl.filter fun t => t ≠ 0).map fun t => .num (.ofI64 t))]

def entryToConfigDict (entry : RegistryEntry AgentCard) : JsonDict := present (configMembers entry)

/-- The entry that is read from what was written of an entry. -/
def reloaded (entry : RegistryEntry AgentCard) : RegistryEntry AgentCard where
  serviceId := entry.serviceId
  type := entry.type
  source := .apiConfig
  serviceData := if entry.type = .generic then entry.serviceData.map fun sd =>
    ⟨trim sd.name, trim sd.description, sd.inputSchema, sd.url.filter fun u => !u.isEmpty⟩ else none
  agentCard := if entry.type = .a2a then entry.agentCard else none
  agentCardUrl := if entry.type = .a2a then entry.agentCardUrl.filter fun u => !u.isEmpty else none
  ownerId := entry.ownerId.filter fun o => !o.isEmpty
  leaseTtl := leaseTtlOf ((entry.leaseTtl.filter fun t => t ≠ 0).map fun t => .num (.ofI64 t))

/-- The entry is one that the config file can list. -/
structure Readable (entry : RegistryEntry AgentCard) : Prop where
  named : entry.serviceId ≠ ""
  noSkill : entry.type ≠ .skill
  texts : entry.type = .generic → ∃ sd, entry.serviceData = some sd ∧
    hasText (some (.str sd.name)) = true ∧ hasText (some (.str sd.description)) = true

/-! ### Reading what was written -/

variable {naming : Naming AgentCard} {cardError : Json → String} {entry : RegistryEntry AgentCard}
  {config : RegisterConfig}

/-- The members that are written of an entry. -/
def configKeys (type : ServiceType) : List String :=
  ["type", "service_id"] ++ (match type with
    | .generic => ["name", "description", "inputSchema", "url"]
    | .a2a => ["agent_card_url", "agent_card"]
    | .skill => []) ++ ["owner_id", "lease_ttl"]

theorem configMembers_keys : (configMembers entry).map Prod.fst = configKeys entry.type := by
  rw [configMembers, serviceMembers]
  cases entry.type <;> rfl

theorem get_entryToConfigDict (key : String) :
    (entryToConfigDict entry).get key = ((configMembers entry).lookup key).join := by
  apply get_present
  rw [configMembers_keys]
  cases entry.type <;> decide

theorem nonEmptyText_of_get {d : JsonDict} {key : String} {text : Option String}
    (found : d.get key = (text.filter fun s => !s.isEmpty).map Json.str) :
    nonEmptyText (d.get key) = text.filter fun s => !s.isEmpty := by
  rw [found, nonEmptyText]
  cases text with
  | none => rfl
  | some s =>
    by_cases empty : s.isEmpty <;> simp [Option.filter, empty, Json.asStr]

theorem trim_isEmpty_of_hasText {s : String} (text : hasText (some (.str s)) = true) :
    (trim s).isEmpty = false := by
  simpa [hasText] using text

theorem parseGeneric_entryToConfigDict (readable : Readable entry)
    (generic : entry.type = .generic) :
    parseGeneric naming (entryToConfigDict entry) entry.serviceId .apiConfig
      (entry.ownerId.filter fun o => !o.isEmpty) (reloaded entry).leaseTtl =
      .ok (some (reloaded entry)) := by
  obtain ⟨sd, has, name, description⟩ := readable.texts generic
  have members : serviceMembers entry =
      [("name", some (.str sd.name)), ("description", some (.str sd.description)),
        ("inputSchema", put true sd.inputSchema.isEmpty (.obj sd.inputSchema)),
        ("url", (sd.url.filter fun u => !u.isEmpty).map .str)] := by
    rw [serviceMembers, generic, has]
    rfl
  have get : ∀ key, (entryToConfigDict entry).get key =
      ((configMembers entry).lookup key).join := get_entryToConfigDict
  rw [configMembers, members] at get
  have at_name : (entryToConfigDict entry).get "name" = some (.str sd.name) := get "name"
  have at_description : (entryToConfigDict entry).get "description" = some (.str sd.description) :=
    get "description"
  have at_schema : (entryToConfigDict entry).get "inputSchema" =
      put true sd.inputSchema.isEmpty (.obj sd.inputSchema) := get "inputSchema"
  have at_url : (entryToConfigDict entry).get "url" =
      (sd.url.filter fun u => !u.isEmpty).map .str := get "url"
  have schema : parseSchema (put true sd.inputSchema.isEmpty (.obj sd.inputSchema)) =
      .ok sd.inputSchema := by
    cases sd.inputSchema <;> rfl
  have url : parseUrl ((sd.url.filter fun u => !u.isEmpty).map .str) =
      .ok (sd.url.filter fun u => !u.isEmpty) := by
    cases sd.url.filter fun u => !u.isEmpty <;> rfl
  unfold parseGeneric
  rw [at_name, at_description, at_schema, at_url, schema, url]
  simp only [Option.bind_some, Json.asStr, Option.getD_some, trim_isEmpty_of_hasText name,
    trim_isEmpty_of_hasText description, Bool.or_self, Bool.false_eq_true, if_false,
    String.isEmpty_iff, if_neg readable.named, reloaded, generic, has, Option.map_some]
  rfl

theorem parseCard_of_card (card : Option AgentCard) :
    parseCard cardError (card.map fun c => .obj (c.toJson .excludeDefaults)) = .ok card := by
  cases card with
  | none => rfl
  | some c =>
    have read : AgentCard.fromValue (c.toJson .excludeDefaults) = some c :=
      AgentCard.fromValue_toJson (by decide)
    have full : isTruthy (.obj (c.toJson .excludeDefaults)) = true := rfl
    unfold parseCard
    rw [Option.map_some, Option.filter_some_pos full]
    simp only [Json.asObject, Option.bind_some, read]

theorem parseA2a_entryToConfigDict (readable : Readable entry) (a2a : entry.type = .a2a) :
    parseA2a naming cardError (entryToConfigDict entry) entry.serviceId .apiConfig
      (entry.ownerId.filter fun o => !o.isEmpty) (reloaded entry).leaseTtl =
      .ok (some (reloaded entry)) := by
  have members : serviceMembers entry =
      [("agent_card_url", (entry.agentCardUrl.filter fun u => !u.isEmpty).map .str),
        ("agent_card", entry.agentCard.map fun c => .obj (c.toJson .excludeDefaults))] := by
    rw [serviceMembers, a2a]
  have get : ∀ key, (entryToConfigDict entry).get key =
      ((configMembers entry).lookup key).join := get_entryToConfigDict
  rw [configMembers, members] at get
  have at_url : nonEmptyText ((entryToConfigDict entry).get "agent_card_url") =
      entry.agentCardUrl.filter fun u => !u.isEmpty := nonEmptyText_of_get (get "agent_card_url")
  have at_card : (entryToConfigDict entry).get "agent_card" =
      entry.agentCard.map fun c => .obj (c.toJson .excludeDefaults) := get "agent_card"
  unfold parseA2a
  rw [at_url, at_card, parseCard_of_card]
  simp only [String.isEmpty_iff, if_neg readable.named, reloaded, a2a]
  rfl

/-- **A readable entry is read back from what was written of it.** -/
theorem parse_entryToConfigDict (readable : Readable entry) :
    parseServiceEntry naming cardError (.obj (entryToConfigDict entry)) .apiConfig =
      .ok (some (reloaded entry)) := by
  have at_type : (entryToConfigDict entry).get "type" = some (.str entry.type.asStr) :=
    get_entryToConfigDict "type"
  have at_id : (entryToConfigDict entry).get "service_id" = some (.str entry.serviceId) :=
    get_entryToConfigDict "service_id"
  have at_owner : nonEmptyText ((entryToConfigDict entry).get "owner_id") =
      entry.ownerId.filter fun o => !o.isEmpty := by
    refine nonEmptyText_of_get ((get_entryToConfigDict "owner_id").trans ?_)
    rw [configMembers, serviceMembers]
    cases entry.type <;> rfl
  have at_ttl : leaseTtlOf ((entryToConfigDict entry).get "lease_ttl") =
      (reloaded entry).leaseTtl := by
    refine congrArg leaseTtlOf ((get_entryToConfigDict "lease_ttl").trans ?_)
    rw [configMembers, serviceMembers]
    cases entry.type <;> rfl
  unfold parseServiceEntry
  simp only [Json.asObject, at_type, at_id, at_owner, at_ttl, Option.bind_some, Json.asStr,
    Option.getD_some]
  cases type : entry.type with
  | generic => exact parseGeneric_entryToConfigDict readable type
  | a2a => exact parseA2a_entryToConfigDict readable type
  | skill => exact absurd type readable.noSkill

theorem texts_of_kept (kept : keptAtStartup config entry = true) (generic : entry.type = .generic) :
    ∃ sd, entry.serviceData = some sd ∧ hasText (some (.str sd.name)) = true ∧
      hasText (some (.str sd.description)) = true := by
  cases has : entry.serviceData with
  | none =>
    unfold keptAtStartup startupPayload at kept
    rw [generic, has] at kept
    cases accepted : config .generic <;> rw [accepted] at kept <;> cases kept
  | some sd => exact ⟨sd, rfl, ((kept_generic_iff generic has).mp kept).2⟩

theorem Readable.of_kept (named : entry.serviceId ≠ "") (noSkill : entry.type ≠ .skill)
    (kept : keptAtStartup config entry = true) : Readable entry :=
  ⟨named, noSkill, texts_of_kept kept⟩

theorem kept_reloaded (noSkill : entry.type ≠ .skill) :
    keptAtStartup config (reloaded entry) = keptAtStartup config entry := by
  have type : (reloaded entry).type = entry.type := rfl
  cases is : entry.type with
  | generic =>
    cases has : entry.serviceData with
    | none => simp [keptAtStartup, startupPayload, reloaded, is, has]
    | some sd =>
      have kept_sd : (reloaded entry).serviceData = some ⟨trim sd.name, trim sd.description,
          sd.inputSchema, sd.url.filter fun u => !u.isEmpty⟩ := by
        simp [reloaded, is, has]
      rw [Bool.eq_iff_iff, kept_generic_iff (type.trans is) kept_sd, kept_generic_iff is has,
        hasText_trim, hasText_trim]
  | a2a => simp [keptAtStartup, startupPayload, reloaded, is]
  | skill => exact absurd is noSkill

/-! ### What is read -/

variable {map : JsonDict} {serviceId : String} {source : Source} {ownerId : Option String}
  {leaseTtl : Option Int}

theorem given_or_made {made : String} (nonempty : made ≠ "") :
    (if serviceId.isEmpty then made else serviceId) ≠ "" := by
  split
  · exact nonempty
  · rename_i given
    exact fun none => given (String.isEmpty_iff.mpr none)

variable (makes : ∀ type name, naming.generateServiceId type name ≠ "")

include makes

theorem readable_of_parseGeneric
    (read : parseGeneric naming map serviceId source ownerId leaseTtl = .ok (some entry)) :
    Readable entry ∧ entry.source = source := by
  unfold parseGeneric at read
  dsimp only at read
  split at read
  · cases read
  · rename_i texts
    rw [Bool.or_eq_true, not_or, Bool.not_eq_true, Bool.not_eq_true] at texts
    cases schema : parseSchema (map.get "inputSchema") with
    | error e =>
      rw [schema] at read
      cases read
    | ok inputSchema =>
      cases at_url : parseUrl (map.get "url") with
      | error e =>
        rw [schema, at_url] at read
        cases read
      | ok url =>
        rw [schema, at_url] at read
        cases read
        refine ⟨⟨given_or_made (makes _ _), fun skill => (by cases skill), fun _ => ?_⟩, rfl⟩
        refine ⟨_, rfl, ?_, ?_⟩
        · rw [hasText_trim, hasText, texts.1]
          rfl
        · rw [hasText_trim, hasText, texts.2]
          rfl

theorem readable_of_parseA2a
    (read : parseA2a naming cardError map serviceId source ownerId leaseTtl = .ok (some entry)) :
    Readable entry ∧ entry.source = source := by
  unfold parseA2a at read
  cases card : parseCard cardError (map.get "agent_card") with
  | error e =>
    rw [card] at read
    cases read
  | ok agentCard =>
    rw [card] at read
    cases read
    exact ⟨⟨given_or_made (makes _ _), fun skill => (by cases skill), fun generic => (by cases generic)⟩,
      rfl⟩

/-- What is read is an entry that the file can list. -/
theorem readable_of_parse {svc : Json}
    (read : parseServiceEntry naming cardError svc source = .ok (some entry)) :
    Readable entry ∧ entry.source = source := by
  unfold parseServiceEntry at read
  split at read
  · cases read
  · split at read
    · exact readable_of_parseGeneric makes read
    · exact readable_of_parseA2a makes read
    · cases read

omit makes

theorem mem_loadConfigFile {services : List Json}
    (mem : entry ∈ loadConfigFile naming cardError services source) :
    ∃ svc ∈ services, parseServiceEntry naming cardError svc source = .ok (some entry) := by
  obtain ⟨svc, inside, read⟩ := List.mem_filterMap.mp mem
  refine ⟨svc, inside, ?_⟩
  split at read
  · rename_i parsed
    rw [parsed, read]
  · cases read

/-! ### The store -/

/-- The entries of `api_config.json` in memory, and the services that the file lists. -/
structure ApiStore where
  apiEntries : OrderedMap String (RegistryEntry AgentCard)
  file : List Json

namespace ApiStore

variable (s : ApiStore)

/-- `flush_api_config`. -/
def flush (entries : OrderedMap String (RegistryEntry AgentCard)) : ApiStore where
  apiEntries := entries
  file := entries.values.map fun e => .obj (entryToConfigDict e)

def saveApiEntry (entry : RegistryEntry AgentCard) : ApiStore :=
  flush (s.apiEntries.insert entry.serviceId entry)

def removeApiEntry (serviceId : String) : ApiStore :=
  if (s.apiEntries.get? serviceId).isNone then s else flush (s.apiEntries.erase serviceId)

def saveApiBatch (entries : List (RegistryEntry AgentCard)) : ApiStore :=
  flush (OrderedMap.empty.insertAll (entries.map fun e => (e.serviceId, e)))

section Reload

variable (naming : Naming AgentCard) (cardError : Json → String) (config : RegisterConfig)

def loadApiConfig (file : List Json) : ApiStore where
  apiEntries := OrderedMap.empty.insertAll
    ((loadConfigFile naming cardError file .apiConfig).map fun e => (e.serviceId, e))
  file := file

def loads : List (RegistryEntry AgentCard) :=
  (loadConfigFile naming cardError s.file .apiConfig).filter (keptAtStartup config)

end Reload

/-- The entries of a map are filed under their ids, and the config file can list them. -/
def Listed (m : OrderedMap String (RegistryEntry AgentCard)) : Prop :=
  ∀ id e, m.get? id = some e → e.serviceId = id ∧ Readable e

variable {s} {m : OrderedMap String (RegistryEntry AgentCard)} {id : String}

variable (listed : Listed m)

include listed

theorem Listed.insert (readable : Readable entry) : Listed (m.insert entry.serviceId entry) := by
  intro id e found
  rw [get?_insert] at found
  split at found
  · rename_i here
    cases found
    exact ⟨here.symm, readable⟩
  · exact listed id e found

theorem Listed.erase (id : String) : Listed (m.erase id) :=
  fun j e found => listed j e (get?_of_get?_erase found).1

theorem mem_values_iff : entry ∈ m.values ↔ m.get? entry.serviceId = some entry := by
  constructor
  · intro mem
    obtain ⟨⟨id, e⟩, inside, rfl⟩ := List.mem_map.mp mem
    have found := get?_eq_some_iff.mpr inside
    rwa [(listed id e found).1]
  · intro found
    exact List.mem_map.mpr ⟨_, get?_eq_some_iff.mp found, rfl⟩

theorem loadConfigFile_flush :
    loadConfigFile naming cardError (flush m).file .apiConfig = m.values.map reloaded := by
  have reads : ∀ e ∈ m.values, parseServiceEntry naming cardError (.obj (entryToConfigDict e))
      .apiConfig = .ok (some (reloaded e)) := fun e mem =>
    parse_entryToConfigDict (listed _ e ((mem_values_iff listed).mp mem)).2
  change (m.values.map fun e => Json.obj (entryToConfigDict e)).filterMap _ = _
  rw [List.filterMap_map, ← List.filterMap_eq_map]
  refine List.filterMap_congr fun e mem => ?_
  rw [Function.comp_apply, reads e mem]
  rfl

theorem mem_loads_flush :
    id ∈ ((flush m).loads naming cardError config).map RegistryEntry.serviceId ↔
      ∃ e, m.get? id = some e ∧ keptAtStartup config e = true := by
  rw [loads, loadConfigFile_flush listed]
  simp only [List.mem_map, List.mem_filter]
  constructor
  · rintro ⟨_, ⟨⟨e, mem, rfl⟩, kept⟩, rfl⟩
    have found := (mem_values_iff listed).mp mem
    exact ⟨e, found, by rwa [kept_reloaded (listed _ e found).2.noSkill] at kept⟩
  · rintro ⟨e, found, kept⟩
    obtain ⟨rfl, readable⟩ := listed id e found
    refine ⟨_, ⟨⟨e, (mem_values_iff listed).mpr found, rfl⟩, ?_⟩, rfl⟩
    rwa [kept_reloaded readable.noSkill]

omit listed

end ApiStore

end AgentProtocols.Registry
