import AgentProtocols.Json.Value

/-!
The registration service of the registry: the calls that register, update and deregister. What a
call asks of the outside is answered by an `Outside`, another one for each call.
-/

namespace AgentProtocols.Registry

open Lib OrderedMap

inductive RegistryError where
  | notFound (text : String)
  | invalid (text : String)
  | permission (text : String)
  | fileNotFound (text : String)
  | fetch (text : String)
  | io (text : String)
deriving DecidableEq

/-! ### Data -/

inductive Role where
  | admin
  | provider
  | user
deriving DecidableEq

def Role.asStr : Role → String
  | admin => "admin"
  | provider => "provider"
  | user => "user"

structure AuthContext where
  principalId : String
  role : Role

def AuthContext.isAdmin (c : AuthContext) : Bool := c.role == .admin

inductive ServiceType where
  | generic
  | a2a
  | skill
deriving DecidableEq

/-- Where an entry came from. -/
inductive Source where
  | userConfig
  | apiConfig
  | ephemeral
  | skillFolder
deriving DecidableEq

structure GenericServiceData where
  name : String
  description : String
  inputSchema : JsonDict
  url : Option String

def GenericServiceData.toJson (d : GenericServiceData) : JsonDict :=
  [("name", .str d.name), ("description", .str d.description), ("inputSchema", .obj d.inputSchema),
    ("url", (d.url.map Json.str).getD .null)]

structure SkillData where
  name : String
  description : String
  license : String
  skillPath : String
  files : List String

def SkillData.toJson (d : SkillData) : JsonDict :=
  [("name", .str d.name), ("description", .str d.description), ("license", .str d.license),
    ("skill_path", .str d.skillPath), ("files", .arr (d.files.map .str))]

structure RegistryEntry (Card : Type) where
  serviceId : String
  type : ServiceType
  source : Source
  serviceData : Option GenericServiceData := none
  agentCard : Option Card := none
  agentCardUrl : Option String := none
  skillData : Option SkillData := none
  ownerId : Option String
  leaseTtl : Option Int

structure RegisterGenericRequest where
  serviceId : Option String
  dataset : String
  name : String
  description : String
  inputSchema : JsonDict
  url : String
  persistent : Bool
  leaseTtl : Option Int

/-- The request without the card and its URL, which are resolved by the caller. -/
structure RegisterA2ARequest where
  serviceId : Option String
  dataset : String
  persistent : Bool
  leaseTtl : Option Int

inductive Answer where
  | register (serviceId dataset status : String)
  | skill (name dataset serviceId status : String)
  | update (serviceId dataset : String) (changedFields : List String) (taxonomyAffected : Bool)
  | deregister (serviceId : String)

/-- The id made from a name, the text of a JSON value, and what is asked of a card. -/
structure Naming (Card : Type) where
  generateServiceId : String → String → String
  pyStr : Json → String
  cardName : Card → String
  cardJson : Card → JsonDict

/-- What the files, the validators and the decoders say during a call. -/
structure Outside (Card : Type) where
  ensureDatasetInitialized : String → Except RegistryError Unit
  requireTypeAllowed : String → String → Except RegistryError Unit
  requireValid : String → String → JsonDict → Except RegistryError Unit
  saveSkillZip : String → List UInt8 → Except RegistryError SkillData
  removeSkill : String → String → Except RegistryError Unit
  renameSkill : String → String → String → Except RegistryError Unit
  updateSkillMd : String → String → List (String × String) → Except RegistryError Unit
  saveApiEntry : String → RegistryEntry Card → Except RegistryError Unit
  removeApiEntry : String → String → Except RegistryError Unit
  regenerateOutput : String → Except RegistryError Unit
  genericOfJson : JsonDict → Except String GenericServiceData
  cardOfJson : JsonDict → Except String Card
  skillOfJson : JsonDict → Except String SkillData

/-! ### The entries -/

variable {Card : Type}

structure RegistryService (Card : Type) where
  entries : OrderedMap String (OrderedMap String (RegistryEntry Card))

namespace RegistryService

variable (s : RegistryService Card)

def getEntry (dataset serviceId : String) : Option (RegistryEntry Card) :=
  (s.entries.get? dataset).bind (·.get? serviceId)

/-- `entries.entry(dataset).or_default()`. -/
def dataset (dataset : String) : OrderedMap String (RegistryEntry Card) :=
  (s.entries.get? dataset).getD .empty

def insertEntry (dataset serviceId : String) (entry : RegistryEntry Card) :
    RegistryService Card :=
  ⟨s.entries.insert dataset ((s.dataset dataset).insert serviceId entry)⟩

def removeEntry (dataset serviceId : String) : RegistryService Card :=
  ⟨s.entries.insert dataset ((s.dataset dataset).erase serviceId)⟩

/-! ### Authorization -/

def assertCanRegister (caller : Option AuthContext) : Except RegistryError Unit :=
  match caller with
  | none => .ok ()
  | some c =>
    if c.isAdmin || c.role == .provider then .ok ()
    else .error (.permission ("Role '" ++ c.role.asStr ++
      "' cannot register services; need admin or provider"))

def assertOwner (entry : RegistryEntry Card) (caller : AuthContext) : Except RegistryError Unit :=
  if caller.isAdmin then .ok ()
  else
    match entry.ownerId with
    | none => .error (.permission "System / unclaimed service: admin role required to mutate")
    | some o =>
      if o ≠ caller.principalId then
        .error (.permission ("Service '" ++ entry.serviceId ++ "' is owned by another principal"))
      else .ok ()

/-- `assert_owner` where a caller is given. -/
def assertCaller (entry : RegistryEntry Card) (caller : Option AuthContext) :
    Except RegistryError Unit :=
  match caller with
  | none => .ok ()
  | some c => assertOwner entry c

/-! ### Register -/

variable (naming : Naming Card) (o : Outside Card)

def statusOf (dataset serviceId : String) : String :=
  if (s.getEntry dataset serviceId).isSome then "updated" else "registered"

def doRegister (dataset : String) (entry : RegistryEntry Card) (persistent : Bool) :
    Except RegistryError Answer × RegistryService Card :=
  match o.ensureDatasetInitialized dataset with
  | .error e => (.error e, s)
  | .ok _ =>
    let status := s.statusOf dataset entry.serviceId
    (do
      if persistent then o.saveApiEntry dataset entry
      o.regenerateOutput dataset
      return .register entry.serviceId dataset status,
      s.insertEntry dataset entry.serviceId entry)

def chosenId (serviceId : Option String) (generated : String) : String :=
  (serviceId.filter fun id => !id.isEmpty).getD generated

def registerGeneric (req : RegisterGenericRequest) (caller : Option AuthContext) :
    Except RegistryError Answer × RegistryService Card :=
  match assertCanRegister caller with
  | .error e => (.error e, s)
  | .ok _ =>
    let payload := [("name", Json.str req.name), ("description", .str req.description),
      ("url", .str req.url), ("inputSchema", .obj req.inputSchema)]
    match o.requireValid req.dataset "generic" payload with
    | .error e => (.error e, s)
    | .ok _ =>
      let serviceId :=
        chosenId req.serviceId (naming.generateServiceId "generic" req.name)
      s.doRegister o req.dataset
        { serviceId
          type := .generic
          source := if req.persistent then .apiConfig else .ephemeral
          serviceData := some ⟨req.name, req.description, req.inputSchema, some req.url⟩
          ownerId := caller.map AuthContext.principalId
          leaseTtl := req.leaseTtl } req.persistent

def registerA2aResolved (req : RegisterA2ARequest) (card : Card) (cardUrl : Option String)
    (caller : Option AuthContext) : Except RegistryError Answer × RegistryService Card :=
  match assertCanRegister caller with
  | .error e => (.error e, s)
  | .ok _ =>
    match o.requireValid req.dataset "a2a" (naming.cardJson card) with
    | .error e => (.error e, s)
    | .ok _ =>
      let serviceId :=
        chosenId req.serviceId (naming.generateServiceId "agent" (naming.cardName card))
      s.doRegister o req.dataset
        { serviceId
          type := .a2a
          source := if req.persistent then .apiConfig else .ephemeral
          agentCard := some card
          agentCardUrl := cardUrl
          ownerId := caller.map AuthContext.principalId
          leaseTtl := req.leaseTtl } req.persistent

/-- The part of `register_skill` before its lock. -/
def uploadedSkill (dataset : String) (zip : List UInt8) : Except RegistryError SkillData := do
  o.ensureDatasetInitialized dataset
  o.requireTypeAllowed dataset "skill"
  let skill ← o.saveSkillZip dataset zip
  o.requireValid dataset "skill" skill.toJson
  return skill

def registerSkill (dataset : String) (zip : List UInt8) (caller : Option AuthContext) :
    Except RegistryError Answer × RegistryService Card :=
  match assertCanRegister caller with
  | .error e => (.error e, s)
  | .ok _ =>
    match uploadedSkill o dataset zip with
    | .error e => (.error e, s)
    | .ok skill =>
      let serviceId := naming.generateServiceId "skill" skill.name
      let check : Except RegistryError Unit := match s.getEntry dataset serviceId with
        | none => .ok ()
        | some existing => assertCaller existing caller
      match check with
      | .error e => (.error e, s)
      | .ok _ =>
        let status := s.statusOf dataset serviceId
        (do
          o.regenerateOutput dataset
          return .skill skill.name dataset serviceId status,
          s.insertEntry dataset serviceId
            { serviceId
              type := .skill
              source := .skillFolder
              skillData := some skill
              ownerId := caller.map AuthContext.principalId
              leaseTtl := none })

/-! ### Update -/

def pyList (items : List String) : String :=
  "[" ++ ", ".intercalate (items.map fun s => "'" ++ s ++ "'") ++ "]"

def sorted (texts : List String) : List String := texts.mergeSort

def checkUnknown (updates : JsonDict) (allowed : List String) (kind : String) :
    Except RegistryError Unit :=
  let unknown := (updates.map Prod.fst).filter fun k => !allowed.contains k
  if unknown.isEmpty then .ok ()
  else .error (.invalid ("Unknown " ++ kind ++ " fields: " ++ pyList (sorted unknown) ++
    ". Allowed: " ++ pyList (sorted allowed)))

/-- The keys whose value differs from the current one. -/
def changedKeys (current updates : JsonDict) : List String :=
  (updates.filter fun e => !((current.get e.1).elim false fun v => v.beq e.2)).map Prod.fst

def mergeUpdates (current updates : JsonDict) : JsonDict :=
  updates.foldl (fun merged e => merged.insert e.1 e.2) current

def genericUpdateFields : List String := ["name", "description", "inputSchema", "url"]

def skillUpdateFields : List String := ["name", "description", "license"]

def applyGenericUpdates (entry : RegistryEntry Card) (updates : JsonDict) :
    Except RegistryError (RegistryEntry Card × List String) := do
  checkUnknown updates genericUpdateFields "generic"
  let current := (entry.serviceData.map GenericServiceData.toJson).getD []
  match o.genericOfJson (mergeUpdates current updates) with
  | .error e => throw (.invalid ("invalid generic update: " ++ e))
  | .ok data => return ({ entry with serviceData := some data }, changedKeys current updates)

def applyA2aUpdates (entry : RegistryEntry Card) (updates : JsonDict) :
    Except RegistryError (RegistryEntry Card × List String) :=
  match entry.agentCard with
  | none => throw (.invalid "Cannot update a2a entry with no resolved agent_card")
  | some card =>
    let current := naming.cardJson card
    match o.cardOfJson (mergeUpdates current updates) with
    | .error e => throw (.invalid ("invalid agent card update: " ++ e))
    | .ok card => return ({ entry with agentCard := some card }, changedKeys current updates)

/-- The front matter fields of `SKILL.md` that an update writes. -/
def mdUpdates (changed : List String) (merged : JsonDict) : List (String × String) :=
  ["name", "description", "license"].filterMap fun k =>
    if changed.contains k then
      match merged.get k with
      | none | some .null => none
      | some v => some (k, naming.pyStr v)
    else none

def applySkillUpdates (dataset : String) (entry : RegistryEntry Card) (updates : JsonDict) :
    Except RegistryError (RegistryEntry Card × List String) := do
  checkUnknown updates skillUpdateFields "skill"
  match entry.skillData with
  | none => throw (.invalid "skill entry has no skill_data")
  | some skill =>
    let changed := changedKeys skill.toJson updates
    let merged := mergeUpdates skill.toJson updates
    let newName := naming.pyStr ((merged.get "name").getD .null)
    let merged ← if newName ≠ skill.name then do
        o.renameSkill dataset skill.name newName
        pure (merged.insert "skill_path" (.str ("skills/" ++ newName)))
      else pure merged
    let fields := mdUpdates naming changed merged
    if !fields.isEmpty then o.updateSkillMd dataset newName fields
    match o.skillOfJson merged with
    | .error e => throw (.invalid ("invalid skill update: " ++ e))
    | .ok data => return ({ entry with skillData := some data }, changed)

def applyUpdates (dataset : String) (entry : RegistryEntry Card) (updates : JsonDict) :
    Except RegistryError (RegistryEntry Card × List String) :=
  match entry.type with
  | .generic => applyGenericUpdates o entry updates
  | .a2a => applyA2aUpdates naming o entry updates
  | .skill => applySkillUpdates naming o dataset entry updates

/-- The first section of `update_service`. -/
def entryToUpdate (dataset serviceId : String) (caller : Option AuthContext) :
    Except RegistryError (RegistryEntry Card) :=
  match s.getEntry dataset serviceId with
  | none => .error (.notFound
      ("Service '" ++ serviceId ++ "' not found in dataset '" ++ dataset ++ "'"))
  | some entry =>
    if entry.source = .userConfig then
      .error (.invalid ("Cannot update user_config entries via API. " ++
        "Edit user_config.json directly and restart."))
    else do
      assertCaller entry caller
      return entry

def updateService (dataset serviceId : String) (updates : JsonDict) (caller : Option AuthContext) :
    Except RegistryError Answer × RegistryService Card :=
  match s.entryToUpdate dataset serviceId caller with
  | .error e => (.error e, s)
  | .ok entry =>
    match applyUpdates naming o dataset entry updates with
    | .error e => (.error e, s)
    | .ok (newEntry, changed) =>
      if (s.getEntry dataset serviceId).isNone then
        (.error (.notFound ("Service '" ++ serviceId ++
          "' was removed during update in dataset '" ++ dataset ++ "'")), s)
      else
        (do
          if newEntry.source = .apiConfig then o.saveApiEntry dataset newEntry
          o.regenerateOutput dataset
          return .update serviceId dataset (sorted changed)
            (changed.contains "name" || changed.contains "description"),
          s.insertEntry dataset serviceId newEntry)

/-! ### Deregister -/

/-- The checks of `deregister` before it removes the entry. -/
def entryToRemove (dataset serviceId : String) (caller : Option AuthContext) :
    Except RegistryError (RegistryEntry Card) :=
  match s.getEntry dataset serviceId with
  | none => .error (.notFound
      ("Service '" ++ serviceId ++ "' not found in dataset '" ++ dataset ++ "'"))
  | some entry =>
    match entry.source with
    | .userConfig => .error (.invalid ("Cannot deregister user_config entries via API. " ++
        "Edit user_config.json instead."))
    | .skillFolder => .error (.invalid ("Cannot deregister skill entries via generic API. " ++
        "Use DELETE /skills/\x7bname\x7d instead."))
    | _ => do
      assertCaller entry caller
      return entry

def deregister (dataset serviceId : String) (caller : Option AuthContext) :
    Except RegistryError Answer × RegistryService Card :=
  match s.entryToRemove dataset serviceId caller with
  | .error e => (.error e, s)
  | .ok entry =>
    (do
      if entry.source = .apiConfig then o.removeApiEntry dataset serviceId
      o.regenerateOutput dataset
      return .deregister serviceId,
      s.removeEntry dataset serviceId)

def deregisterSkill (dataset name : String) (caller : Option AuthContext) :
    Except RegistryError Answer × RegistryService Card :=
  let serviceId := naming.generateServiceId "skill" name
  match s.getEntry dataset serviceId with
  | none => (.ok (.skill name dataset "" "not_found"), s)
  | some existing =>
    match assertCaller existing caller with
    | .error e => (.error e, s)
    | .ok _ =>
      (do
        o.removeSkill dataset name
        o.regenerateOutput dataset
        return .skill name dataset serviceId "deleted",
        s.removeEntry dataset serviceId)

/-! ### What the entries are after a change -/

variable {s} {dataset serviceId : String} {entry : RegistryEntry Card}

theorem getEntry_dataset : ((s.dataset dataset).get? serviceId) = s.getEntry dataset serviceId := by
  rw [RegistryService.dataset, getEntry]
  cases s.entries.get? dataset <;> rfl

variable {dataset' serviceId' : String}

theorem getEntry_insertEntry :
    (s.insertEntry dataset serviceId entry).getEntry dataset' serviceId' =
      if dataset' = dataset ∧ serviceId' = serviceId then some entry
      else s.getEntry dataset' serviceId' := by
  rw [getEntry, insertEntry, get?_insert]
  by_cases here : dataset' = dataset
  · subst here
    rw [if_pos rfl, Option.bind_some, get?_insert, getEntry_dataset]
    simp
  · rw [if_neg here, if_neg fun both => here both.1, getEntry]

theorem getEntry_removeEntry_of_ne (other : ¬(dataset' = dataset ∧ serviceId' = serviceId)) :
    (s.removeEntry dataset serviceId).getEntry dataset' serviceId' =
      s.getEntry dataset' serviceId' := by
  rw [getEntry, removeEntry, get?_insert]
  by_cases here : dataset' = dataset
  · subst here
    rw [if_pos rfl, Option.bind_some,
      get?_erase_of_ne fun same => other ⟨rfl, same⟩, getEntry_dataset]
  · rw [if_neg here, getEntry]

theorem getEntry_of_removeEntry
    (found : (s.removeEntry dataset serviceId).getEntry dataset' serviceId' = some entry) :
    s.getEntry dataset' serviceId' = some entry := by
  by_cases here : dataset' = dataset ∧ serviceId' = serviceId
  · obtain ⟨rfl, rfl⟩ := here
    rw [getEntry, removeEntry, get?_insert_self, Option.bind_some, get?_erase_self] at found
    cases found
  · rwa [getEntry_removeEntry_of_ne here] at found

end RegistryService

end AgentProtocols.Registry
