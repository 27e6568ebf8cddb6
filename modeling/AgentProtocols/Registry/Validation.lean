import AgentProtocols.Registry.AgentCard

/-!
Format validation of services, from the version that a dataset accepts for a type on.

* `hasText_trim` — trimming a text does not change whether it counts as one.
* `validateGeneric_iff` — a generic service is valid where its name and its description are texts.
-/

namespace AgentProtocols.Registry

open Lib
open AgentProtocols.A4P (trim trim_trim isTruthy)

def ServiceType.asStr : ServiceType → String
  | generic => "generic"
  | a2a => "a2a"
  | skill => "skill"

/-- A version of the format of a service type, as `register_config.json` names it. -/
inductive FormatVersion where
  | v0_0
  | v1_0
deriving DecidableEq

def FormatVersion.asStr : FormatVersion → String
  | v0_0 => "v0.0"
  | v1_0 => "v1.0"

/-- The dataset's `register_config.json`: the oldest accepted version of each type. -/
abbrev RegisterConfig := ServiceType → Option FormatVersion

def hasText : Option Json → Bool
  | some (.str s) => !(trim s).isEmpty
  | _ => false

def truthy (v : Option Json) : Bool := v.any isTruthy

def missingTexts (payload : JsonDict) (required : List (String × String)) : List String :=
  (required.filter fun m => !hasText (payload.get m.1)).map Prod.snd

def checkNameDescription (payload : JsonDict) : List String :=
  missingTexts payload [("name", "name is required"), ("description", "description is required")]

def toMap (v : Json) : JsonDict := v.asObject.getD []

def checkSkill (i : Nat) (skill : Json) : List String :=
  let s := toMap skill
  let p := "skills[" ++ toString i ++ "]"
  missingTexts s [("id", p ++ ".id is required"), ("name", p ++ ".name is required"),
      ("description", p ++ ".description is required")] ++
    if truthy (s.get "tags") then [] else [p ++ ".tags is required (at least one tag)"]

def checkSkills : Option Json → List String
  | some (.arr (s :: rest)) => ((s :: rest).zipIdx.map fun e => checkSkill e.2 e.1).flatten
  | _ => ["skills is required (at least one skill)"]

def checkProvider (provider : Option Json) : List String :=
  let prov := ((provider.filter isTruthy).map toMap).getD []
  if prov.isEmpty then []
  else missingTexts prov
    [("organization", "provider.organization is required when provider is present"),
      ("url", "provider.url is required when provider is present")]

def missingCapabilities : Option Json → List String
  | none | some .null => ["capabilities is required (can be empty object)"]
  | _ => []

/-- The whole specification of an agent card. -/
def checkAgentCard (payload : JsonDict) : List String :=
  missingTexts payload [("name", "name is required"), ("description", "description is required"),
      ("version", "version is required"), ("url", "url (or supported_interfaces) is required")] ++
    missingCapabilities (payload.get "capabilities") ++
    (if truthy (payload.get "defaultInputModes") then []
      else ["defaultInputModes is required (e.g. [\"text/plain\"])"]) ++
    (if truthy (payload.get "defaultOutputModes") then []
      else ["defaultOutputModes is required (e.g. [\"text/plain\"])"]) ++
    checkSkills (payload.get "skills") ++ checkProvider (payload.get "provider")

/-- The versions of a type from a version on, the oldest one first. -/
def versionsFrom (type : ServiceType) (min : FormatVersion) : List FormatVersion :=
  match type, min with
  | .a2a, .v0_0 => [.v0_0, .v1_0]
  | .a2a, .v1_0 => [.v1_0]
  | _, .v0_0 => [.v0_0]
  | _, .v1_0 => []

def checkVersion (type : ServiceType) (payload : JsonDict) : FormatVersion → List String
  | .v0_0 => checkNameDescription payload
  | .v1_0 =>
    if type = .a2a then checkAgentCard payload
    else ["Unknown " ++ type.asStr ++ " version v1.0"]

def quotedList (items : List String) : String :=
  "[" ++ ", ".intercalate (items.map fun s => "'" ++ s ++ "'") ++ "]"

/-- `validate_service`: the errors of a payload, none where it is valid. -/
def validateService (type : ServiceType) (payload : JsonDict) (min : FormatVersion) :
    List String :=
  let versions := versionsFrom type min
  if versions.isEmpty then
    ["No " ++ type.asStr ++ " version >= " ++ min.asStr ++ ". Supported: " ++
      quotedList ((versionsFrom type .v0_0).map FormatVersion.asStr)]
  else if versions.any fun v => (checkVersion type payload v).isEmpty then []
  else
    ["No allowed " ++ type.asStr ++ " version matched " ++
      quotedList (versions.map FormatVersion.asStr) ++ ". Latest errors: " ++
      "; ".intercalate ((versions.getLast?.map (checkVersion type payload)).getD [])]

def requireValid (config : RegisterConfig) (dataset : String) (type : ServiceType)
    (payload : JsonDict) : Except RegistryError Unit :=
  match config type with
  | none =>
    let allowed := [ServiceType.a2a, .generic, .skill].filter fun t => (config t).isSome
    .error (.invalid ("Service type '" ++ type.asStr ++ "' is not allowed for dataset '" ++
      dataset ++ "'. Allowed: " ++ quotedList (allowed.map ServiceType.asStr)))
  | some min =>
    let errors := validateService type payload min
    if errors.isEmpty then .ok ()
    else .error (.invalid (type.asStr ++ " payload failed validation for dataset '" ++ dataset ++
      "': " ++ "; ".intercalate errors))

/-- The payload that the start of the process validates. -/
def startupPayload (entry : RegistryEntry AgentCard) : Option JsonDict :=
  match entry.type with
  | .a2a => entry.agentCard.map fun c => c.toJson .full
  | .generic => entry.serviceData.map fun sd =>
    [("name", .str sd.name), ("description", .str sd.description)]
  | .skill => entry.skillData.map fun sk =>
    [("name", .str sk.name), ("description", .str sk.description)]

/-- `validate_entry` before cards are fetched: an a2a entry with no card yet is let through. -/
def keptAtStartup (config : RegisterConfig) (entry : RegistryEntry AgentCard) : Bool :=
  match config entry.type with
  | none => false
  | some min =>
    match startupPayload entry with
    | some payload => (validateService entry.type payload min).isEmpty
    | none => entry.type == .a2a

/-! ### What is valid -/

variable {payload : JsonDict} {min : FormatVersion} {config : RegisterConfig}

theorem hasText_trim (s : String) : hasText (some (.str (trim s))) = hasText (some (.str s)) := by
  rw [hasText, hasText, trim_trim]

theorem missingTexts_eq_nil {required : List (String × String)} :
    missingTexts payload required = [] ↔ ∀ m ∈ required, hasText (payload.get m.1) = true := by
  rw [missingTexts]
  simp

theorem checkNameDescription_eq_nil : checkNameDescription payload = [] ↔
    hasText (payload.get "name") = true ∧ hasText (payload.get "description") = true := by
  rw [checkNameDescription, missingTexts_eq_nil]
  simp

theorem validateService_eq_nil {type : ServiceType} : validateService type payload min = [] ↔
    ∃ v ∈ versionsFrom type min, checkVersion type payload v = [] := by
  unfold validateService
  dsimp only
  split
  · rename_i none
    rw [List.isEmpty_iff] at none
    refine iff_of_false (List.cons_ne_nil _ _) ?_
    rintro ⟨v, mem, -⟩
    rw [none] at mem
    cases mem
  · split
    · rename_i some
      obtain ⟨v, mem, passes⟩ := List.any_eq_true.mp some
      exact iff_of_true rfl ⟨v, mem, List.isEmpty_iff.mp passes⟩
    · rename_i fails
      refine iff_of_false (List.cons_ne_nil _ _) ?_
      rintro ⟨v, mem, passes⟩
      exact fails (List.any_eq_true.mpr ⟨v, mem, List.isEmpty_iff.mpr passes⟩)

theorem validateGeneric_iff : validateService .generic payload min = [] ↔
    min = .v0_0 ∧ hasText (payload.get "name") = true ∧
      hasText (payload.get "description") = true := by
  rw [validateService_eq_nil, ← checkNameDescription_eq_nil]
  constructor
  · rintro ⟨v, mem, passes⟩
    cases min with
    | v1_0 => cases mem
    | v0_0 =>
      cases List.mem_singleton.mp mem
      exact ⟨rfl, passes⟩
  · rintro ⟨rfl, passes⟩
    exact ⟨.v0_0, .head _, passes⟩

theorem kept_generic_iff {entry : RegistryEntry AgentCard} {sd : GenericServiceData}
    (generic : entry.type = .generic) (has : entry.serviceData = some sd) :
    keptAtStartup config entry = true ↔ config .generic = some .v0_0 ∧
      hasText (some (.str sd.name)) = true ∧ hasText (some (.str sd.description)) = true := by
  unfold keptAtStartup startupPayload
  rw [generic, has]
  cases config .generic with
  | none => simp
  | some min =>
    refine List.isEmpty_iff.trans (validateGeneric_iff.trans ?_)
    rw [Option.some.injEq]
    rfl

theorem requireValid_eq_ok {dataset : String} {type : ServiceType} {u : Unit} :
    requireValid config dataset type payload = .ok u ↔
      ∃ min, config type = some min ∧ validateService type payload min = [] := by
  unfold requireValid
  cases config type with
  | none => simp
  | some min =>
    dsimp only
    split
    · rename_i none
      simpa using List.isEmpty_iff.mp none
    · rename_i some
      simpa using fun none => some (List.isEmpty_iff.mpr none)

end AgentProtocols.Registry
