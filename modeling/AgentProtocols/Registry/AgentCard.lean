import AgentProtocols.A4P.Util
import AgentProtocols.Registry.RegistryService

/-!
The data of services and their JSON. A card keeps the members it does not know in `extra`.

* `AgentCard.fromValue_toJson` — a card that is dumped in full is read back as it was.
* `AgentCard.get_toJson`, `GenericServiceData.get_toJson` — a member of the object read is a member
  of the dump, with the value made of it.
-/

namespace AgentProtocols.Registry

open Lib List
open AgentProtocols.A4P (trim)

/-! ### Members of objects -/

/-- A member with a `#[serde(default)]`. -/
def fieldOr {α : Type} (decode : Json → Option α) (default : α) (d : JsonDict) (key : String) :
    Option α :=
  match d.get key with
  | none => some default
  | some v => decode v

def field {α : Type} (decode : Json → Option α) (d : JsonDict) (key : String) : Option α :=
  (d.get key).bind decode

/-- The members that are put into a dump. -/
def present (members : List (String × Option Json)) : JsonDict :=
  members.filterMap fun m => m.2.map (Prod.mk m.1)

/-- A member that is left out when it has its default value. -/
def put (excludeDefaults isDefault : Bool) (v : Json) : Option Json :=
  if excludeDefaults && isDefault then none else some v

def strings (items : List String) : Json := .arr (items.map .str)

def stringList : Json → Option (List String)
  | .arr items => items.mapM Json.asStr
  | _ => none

def optionalStr : Json → Option (Option String)
  | .null => some none
  | .str s => some (some s)
  | _ => none

section Members

variable {α : Type} {decode : Json → Option α} {d : JsonDict} {key : String} {default : α}

variable {v : Json}

theorem fieldOr_some (found : d.get key = some v) : fieldOr decode default d key = decode v := by
  rw [fieldOr, found]

theorem fieldOr_none (absent : d.get key = none) : fieldOr decode default d key = some default := by
  rw [fieldOr, absent]

theorem field_some (found : d.get key = some v) : field decode d key = decode v := by
  rw [field, found, Option.bind_some]

theorem fieldOr_put {a : α} {excludeDefaults isDefault : Bool}
    (found : d.get key = put excludeDefaults isDefault v) (decodes : decode v = some a)
    (unless_default : isDefault = true → a = default) : fieldOr decode default d key = some a := by
  unfold put at found
  split at found
  · rename_i out
    rw [fieldOr_none found, unless_default (Bool.and_eq_true_iff.mp out).2]
  · rw [fieldOr_some found, decodes]

theorem get_present {members : List (String × Option Json)}
    (distinct : (members.map Prod.fst).Nodup) (key : String) :
    (present members).get key = (members.lookup key).join := by
  induction members with
  | nil => rfl
  | cons m rest ih =>
    obtain ⟨k, v⟩ := m
    rw [map_cons, nodup_cons] at distinct
    rw [lookup_cons]
    by_cases here : key = k
    · subst here
      have absent : rest.lookup key = none :=
        lookup_eq_none_iff.mpr fun p mem => bne_iff_ne.mpr fun same =>
          distinct.1 (mem_map.mpr ⟨p, mem, same.symm⟩)
      cases v with
      | none =>
        have after := ih distinct.2
        rw [absent] at after
        simpa [present] using after
      | some v => simp [present, JsonDict.get]
    · have other : (key == k) = false := beq_eq_false_iff_ne.mpr here
      rw [other]
      cases v with
      | none => simpa [present] using ih distinct.2
      | some v =>
        have after := ih distinct.2
        simp only [JsonDict.get, present, filterMap_cons, Option.map_some,
          lookup_cons, other] at after ⊢
        exact after

end Members

theorem asStr_eq_some {v : Json} {s : String} : v.asStr = some s ↔ v = .str s := by
  cases v <;> simp [Json.asStr]

theorem mapM_asStr (items : List String) : (items.map Json.str).mapM Json.asStr = some items := by
  induction items with
  | nil => rfl
  | cons s rest ih =>
    rw [map_cons, mapM_cons, ih]
    rfl

theorem stringList_strings (items : List String) : stringList (strings items) = some items :=
  mapM_asStr items

theorem stringList_eq_some {v : Json} {items : List String} :
    stringList v = some items ↔ v = strings items := by
  constructor
  · intro read
    cases v with
    | arr values =>
      refine congrArg Json.arr ?_
      change values.mapM Json.asStr = some items at read
      induction values generalizing items with
      | nil =>
        cases read
        rfl
      | cons v rest ih =>
        simp only [mapM_cons, Option.bind_eq_bind, Option.bind_eq_some_iff,
          asStr_eq_some] at read
        obtain ⟨s, rfl, others, more, pure⟩ := read
        cases pure
        rw [map_cons, ih more]
    | _ => cases read
  · rintro rfl
    exact stringList_strings items

/-! ### Skills of a card -/

structure AgentSkill where
  id : String
  name : String
  description : String
  tags : List String
  examples : List String
  inputModes : List String
  outputModes : List String

namespace AgentSkill

def members (s : AgentSkill) (excludeDefaults : Bool) : List (String × Option Json) :=
  [("id", put excludeDefaults s.id.isEmpty (.str s.id)),
    ("name", some (.str s.name)),
    ("description", put excludeDefaults s.description.isEmpty (.str s.description)),
    ("tags", put excludeDefaults s.tags.isEmpty (strings s.tags)),
    ("examples", put excludeDefaults s.examples.isEmpty (strings s.examples)),
    ("inputModes", put excludeDefaults s.inputModes.isEmpty (strings s.inputModes)),
    ("outputModes", put excludeDefaults s.outputModes.isEmpty (strings s.outputModes))]

def toJson (s : AgentSkill) (excludeDefaults : Bool) : JsonDict :=
  present (s.members excludeDefaults)

def ofMembers (d : JsonDict) : Option AgentSkill := do
  return {
    id := ← fieldOr Json.asStr "" d "id"
    name := ← field Json.asStr d "name"
    description := ← fieldOr Json.asStr "" d "description"
    tags := ← fieldOr stringList [] d "tags"
    examples := ← fieldOr stringList [] d "examples"
    inputModes := ← fieldOr stringList [] d "inputModes"
    outputModes := ← fieldOr stringList [] d "outputModes" }

def fields : List String :=
  ["id", "name", "description", "tags", "examples", "inputModes", "outputModes"]

/-- `serde` reads a struct from an array too, member by member. -/
def fromJson : Json → Option AgentSkill
  | .obj d => ofMembers d
  | .arr items => if items.length ≤ fields.length then ofMembers (fields.zip items) else none
  | _ => none

theorem fromJson_toJson (s : AgentSkill) (excludeDefaults : Bool) :
    fromJson (.obj (s.toJson excludeDefaults)) = some s := by
  have distinct : ((s.members excludeDefaults).map Prod.fst).Nodup := by
    change fields.Nodup
    decide
  have get : ∀ key, (s.toJson excludeDefaults).get key =
      ((s.members excludeDefaults).lookup key).join := get_present distinct
  have id : fieldOr Json.asStr "" (s.toJson excludeDefaults) "id" = some s.id :=
    fieldOr_put (get _) rfl String.isEmpty_iff.mp
  have description : fieldOr Json.asStr "" (s.toJson excludeDefaults) "description" =
      some s.description := fieldOr_put (get _) rfl String.isEmpty_iff.mp
  have tags : fieldOr stringList [] (s.toJson excludeDefaults) "tags" = some s.tags :=
    fieldOr_put (get _) (stringList_strings _) isEmpty_iff.mp
  have examples : fieldOr stringList [] (s.toJson excludeDefaults) "examples" = some s.examples :=
    fieldOr_put (get _) (stringList_strings _) isEmpty_iff.mp
  have inputModes : fieldOr stringList [] (s.toJson excludeDefaults) "inputModes" =
      some s.inputModes := fieldOr_put (get _) (stringList_strings _) isEmpty_iff.mp
  have outputModes : fieldOr stringList [] (s.toJson excludeDefaults) "outputModes" =
      some s.outputModes := fieldOr_put (get _) (stringList_strings _) isEmpty_iff.mp
  have name : field Json.asStr (s.toJson excludeDefaults) "name" = some s.name :=
    field_some (v := .str s.name) (get _)
  simp [fromJson, ofMembers, id, name, description, tags, examples, inputModes, outputModes]

end AgentSkill

def skillList : Json → Option (List AgentSkill)
  | .arr items => items.mapM AgentSkill.fromJson
  | _ => none

def skillsJson (excludeDefaults : Bool) (skills : List AgentSkill) : Json :=
  .arr (skills.map fun s => .obj (s.toJson excludeDefaults))

theorem skillList_skillsJson (excludeDefaults : Bool) (skills : List AgentSkill) :
    skillList (skillsJson excludeDefaults skills) = some skills := by
  change (skills.map _).mapM AgentSkill.fromJson = some skills
  induction skills with
  | nil => rfl
  | cons s rest ih =>
    rw [map_cons, mapM_cons, ih, AgentSkill.fromJson_toJson]
    rfl

/-! ### Cards -/

/-- The members of an object that a card knows. -/
def cardFields : List String :=
  ["name", "description", "version", "protocolVersion", "url", "preferredTransport", "provider",
    "capabilities", "skills", "defaultInputModes", "defaultOutputModes", "documentationUrl",
    "iconUrl"]

/-- An agent card. A null value is absent; `extra` has the other members. -/
@[ext]
structure AgentCard where
  name : String
  description : String
  version : String
  protocolVersion : String
  url : String
  preferredTransport : String
  provider : Option Json
  capabilities : Option Json
  skills : List AgentSkill
  defaultInputModes : List String
  defaultOutputModes : List String
  documentationUrl : String
  iconUrl : String
  extra : JsonDict
  providerSet : provider ≠ some .null
  capabilitiesSet : capabilities ≠ some .null
  unknown : ∀ e ∈ extra, e.1 ∉ cardFields

inductive DumpMode where
  | full
  | excludeNone
  | excludeDefaults
deriving DecidableEq

def DumpMode.excludesDefaults (mode : DumpMode) : Bool := mode == .excludeDefaults

def presentValue : Json → Option Json
  | .null => none
  | v => some v

theorem presentValue_ne (v : Json) : presentValue v ≠ some .null := by
  cases v <;> rintro ⟨⟩

def unknownMembers (d : JsonDict) : JsonDict := d.filter fun e => !cardFields.contains e.1

theorem not_known_of_mem {d : JsonDict} {e : String × Json} (mem : e ∈ unknownMembers d) :
    e.1 ∉ cardFields := by
  intro known
  have kept := (mem_filter.mp mem).2
  rw [contains_iff_mem.mpr known] at kept
  cases kept

theorem get_unknownMembers {d : JsonDict} {key : String} (unknown : key ∉ cardFields) :
    (unknownMembers d).get key = d.get key := by
  induction d with
  | nil => rfl
  | cons e rest ih =>
    obtain ⟨k, v⟩ := e
    by_cases here : key = k
    · subst here
      simp [unknownMembers, JsonDict.get, unknown]
    · have other : (key == k) = false := beq_eq_false_iff_ne.mpr here
      simp only [unknownMembers, JsonDict.get, filter_cons, lookup_cons, other] at ih ⊢
      split
      · simp only [lookup_cons, other]
        exact ih
      · exact ih

/-- An `Option<Value>` with a default. -/
def valueOr (d : JsonDict) (key : String) : Option Json := (d.get key).bind presentValue

theorem valueOr_ne (d : JsonDict) (key : String) : valueOr d key ≠ some .null := by
  unfold valueOr
  cases d.get key with
  | none => rintro ⟨⟩
  | some v => exact presentValue_ne v

namespace AgentCard

/-- An absent value is dumped as null in the full projection. -/
def putValue (mode : DumpMode) : Option Json → Option Json
  | some v => some v
  | none => if mode = .full then some .null else none

def members (c : AgentCard) (mode : DumpMode) : List (String × Option Json) :=
  let put := put mode.excludesDefaults
  [("name", some (.str c.name)),
    ("description", some (.str c.description)),
    ("version", put c.version.isEmpty (.str c.version)),
    ("protocolVersion", put c.protocolVersion.isEmpty (.str c.protocolVersion)),
    ("url", put c.url.isEmpty (.str c.url)),
    ("preferredTransport", put c.preferredTransport.isEmpty (.str c.preferredTransport)),
    ("provider", putValue mode c.provider),
    ("capabilities", putValue mode c.capabilities),
    ("skills", put c.skills.isEmpty (skillsJson mode.excludesDefaults c.skills)),
    ("defaultInputModes", put c.defaultInputModes.isEmpty (strings c.defaultInputModes)),
    ("defaultOutputModes", put c.defaultOutputModes.isEmpty (strings c.defaultOutputModes)),
    ("documentationUrl", put c.documentationUrl.isEmpty (.str c.documentationUrl)),
    ("iconUrl", put c.iconUrl.isEmpty (.str c.iconUrl))]

def putExtra (c : AgentCard) (mode : DumpMode) : JsonDict :=
  if mode = .excludeNone then c.extra.filter fun e => (presentValue e.2).isSome else c.extra

/-- The known members, and behind them those in `extra`, none of which is known. -/
def toJson (c : AgentCard) (mode : DumpMode) : JsonDict :=
  present (c.members mode) ++ c.putExtra mode

def fromValue (d : JsonDict) : Option AgentCard := do
  return {
    name := ← field Json.asStr d "name"
    description := ← field Json.asStr d "description"
    version := ← fieldOr Json.asStr "" d "version"
    protocolVersion := ← fieldOr Json.asStr "" d "protocolVersion"
    url := ← fieldOr Json.asStr "" d "url"
    preferredTransport := ← fieldOr Json.asStr "" d "preferredTransport"
    provider := valueOr d "provider"
    capabilities := valueOr d "capabilities"
    skills := ← fieldOr skillList [] d "skills"
    defaultInputModes := ← fieldOr stringList [] d "defaultInputModes"
    defaultOutputModes := ← fieldOr stringList [] d "defaultOutputModes"
    documentationUrl := ← fieldOr Json.asStr "" d "documentationUrl"
    iconUrl := ← fieldOr Json.asStr "" d "iconUrl"
    extra := unknownMembers d
    providerSet := valueOr_ne d "provider"
    capabilitiesSet := valueOr_ne d "capabilities"
    unknown := fun _ => not_known_of_mem }

/-! ### Cards that are dumped and read -/

variable {c : AgentCard} {mode : DumpMode} {d : JsonDict} {key : String}

theorem members_keys (c : AgentCard) (mode : DumpMode) :
    (c.members mode).map Prod.fst = cardFields := rfl

theorem putExtra_subset : c.putExtra mode ⊆ c.extra := by
  unfold putExtra
  split
  · exact filter_subset_self _
  · exact List.Subset.refl _

theorem putExtra_of_ne (whole : mode ≠ .excludeNone) : c.putExtra mode = c.extra := if_neg whole

theorem get_toJson_of_known (known : key ∈ cardFields) :
    (c.toJson mode).get key = ((c.members mode).lookup key).join := by
  have absent : (c.putExtra mode).lookup key = none := lookup_eq_none_iff.mpr fun e mem =>
    bne_iff_ne.mpr fun same => c.unknown e (putExtra_subset mem) (same ▸ known)
  have distinct : ((c.members mode).map Prod.fst).Nodup := by
    rw [members_keys]
    decide
  rw [← get_present distinct, toJson, JsonDict.get, lookup_append, absent, Option.or_none]
  rfl

theorem key_of_mem_present {members : List (String × Option Json)} {e : String × Json}
    (mem : e ∈ present members) : e.1 ∈ members.map Prod.fst := by
  obtain ⟨m, member, made⟩ := mem_filterMap.mp mem
  obtain ⟨v, -, rfl⟩ := Option.map_eq_some_iff.mp made
  exact mem_map.mpr ⟨m, member, rfl⟩

theorem get_toJson_of_unknown (unknown : key ∉ cardFields) :
    (c.toJson mode).get key = (c.putExtra mode).get key := by
  have absent : (present (c.members mode)).lookup key = none :=
    lookup_eq_none_iff.mpr fun e mem => bne_iff_ne.mpr fun same =>
      unknown (same ▸ members_keys c mode ▸ key_of_mem_present mem)
  rw [toJson, JsonDict.get, lookup_append, absent]
  rfl

theorem unknownMembers_toJson (whole : mode ≠ .excludeNone) :
    unknownMembers (c.toJson mode) = c.extra := by
  have known : (present (c.members mode)).filter (fun e => !cardFields.contains e.1) = [] :=
    filter_eq_nil_iff.mpr fun e mem => by
      have inside := members_keys c mode ▸ key_of_mem_present mem
      simpa using inside
  have others : c.extra.filter (fun e => !cardFields.contains e.1) = c.extra :=
    filter_eq_self.mpr fun e mem => by
      simpa using c.unknown e mem
  rw [unknownMembers, toJson, putExtra_of_ne whole, filter_append, known, others,
    nil_append]

theorem valueOr_of_put {v : Option Json} (found : d.get key = putValue mode v)
    (set : v ≠ some .null) : valueOr d key = v := by
  unfold valueOr
  rw [found]
  cases v with
  | none => cases mode <;> rfl
  | some v =>
    cases v with
    | null => exact absurd rfl set
    | _ => rfl

/-- **A card that is dumped is read back.** -/
theorem fromValue_toJson (whole : mode ≠ .excludeNone) :
    fromValue (c.toJson mode) = some c := by
  have get : ∀ {key}, key ∈ cardFields →
      (c.toJson mode).get key = ((c.members mode).lookup key).join := get_toJson_of_known
  have name : field Json.asStr (c.toJson mode) "name" = some c.name :=
    field_some (v := .str c.name) (get (by decide))
  have description : field Json.asStr (c.toJson mode) "description" = some c.description :=
    field_some (v := .str c.description) (get (by decide))
  have version : fieldOr Json.asStr "" (c.toJson mode) "version" = some c.version :=
    fieldOr_put (get (by decide)) rfl String.isEmpty_iff.mp
  have protocolVersion : fieldOr Json.asStr "" (c.toJson mode) "protocolVersion" =
      some c.protocolVersion := fieldOr_put (get (by decide)) rfl String.isEmpty_iff.mp
  have url : fieldOr Json.asStr "" (c.toJson mode) "url" = some c.url :=
    fieldOr_put (get (by decide)) rfl String.isEmpty_iff.mp
  have preferredTransport : fieldOr Json.asStr "" (c.toJson mode) "preferredTransport" =
      some c.preferredTransport := fieldOr_put (get (by decide)) rfl String.isEmpty_iff.mp
  have provider : valueOr (c.toJson mode) "provider" = c.provider :=
    valueOr_of_put (get (by decide)) c.providerSet
  have capabilities : valueOr (c.toJson mode) "capabilities" = c.capabilities :=
    valueOr_of_put (get (by decide)) c.capabilitiesSet
  have skills : fieldOr skillList [] (c.toJson mode) "skills" = some c.skills :=
    fieldOr_put (get (by decide)) (skillList_skillsJson _ _) isEmpty_iff.mp
  have inputModes : fieldOr stringList [] (c.toJson mode) "defaultInputModes" =
      some c.defaultInputModes :=
    fieldOr_put (get (by decide)) (stringList_strings _) isEmpty_iff.mp
  have outputModes : fieldOr stringList [] (c.toJson mode) "defaultOutputModes" =
      some c.defaultOutputModes :=
    fieldOr_put (get (by decide)) (stringList_strings _) isEmpty_iff.mp
  have documentationUrl : fieldOr Json.asStr "" (c.toJson mode) "documentationUrl" =
      some c.documentationUrl := fieldOr_put (get (by decide)) rfl String.isEmpty_iff.mp
  have iconUrl : fieldOr Json.asStr "" (c.toJson mode) "iconUrl" = some c.iconUrl :=
    fieldOr_put (get (by decide)) rfl String.isEmpty_iff.mp
  simp only [fromValue, name, description, version, protocolVersion, url, preferredTransport,
    skills, inputModes, outputModes, documentationUrl, iconUrl, Option.pure_def,
    Option.bind_eq_bind, Option.bind_some]
  exact congrArg some (AgentCard.ext rfl rfl rfl rfl rfl rfl provider capabilities rfl rfl rfl rfl
    rfl (unknownMembers_toJson whole))

/-- The value of a member as a card keeps it: a skill loses the members it does not know. -/
def keptValue (key : String) (v : Json) : Json :=
  if key = "skills" then (skillList v).elim v (skillsJson false) else v

/-- **A member of the object that a card is read from is a member of the dump.** -/
theorem get_toJson {v : Json} (read : fromValue d = some c) (found : d.get key = some v) :
    (c.toJson .full).get key = some (keptValue key v) := by
  simp only [fromValue, Option.pure_def, Option.bind_eq_bind, Option.bind_eq_some_iff,
    Option.some.injEq] at read
  obtain ⟨name, hname, description, hdescription, version, hversion, protocolVersion,
    hprotocolVersion, url, hurl, preferredTransport, hpreferredTransport, skills, hskills,
    inputModes, hinputModes, outputModes, houtputModes, documentationUrl, hdocumentationUrl,
    iconUrl, hiconUrl, rfl⟩ := read
  have text : ∀ {key s}, field Json.asStr d key = some s → d.get key = some v → v = .str s :=
    fun read found => asStr_eq_some.mp ((field_some found).symm.trans read)
  have textOr : ∀ {key s}, fieldOr Json.asStr "" d key = some s → d.get key = some v →
      v = .str s := fun read found => asStr_eq_some.mp ((fieldOr_some found).symm.trans read)
  have listOr : ∀ {key l}, fieldOr stringList [] d key = some l → d.get key = some v →
      v = strings l := fun read found => stringList_eq_some.mp ((fieldOr_some found).symm.trans read)
  have value : ∀ {key}, d.get key = some v → putValue .full (valueOr d key) = some v := by
    intro key found
    rw [valueOr, found]
    cases v <;> rfl
  by_cases known : key ∈ cardFields
  · rw [get_toJson_of_known known]
    simp only [cardFields, mem_cons, not_mem_nil, or_false] at known
    rcases known with rfl | rfl | rfl | rfl | rfl | rfl | rfl | rfl | rfl | rfl | rfl | rfl | rfl
    · rw [text hname found]; rfl
    · rw [text hdescription found]; rfl
    · rw [textOr hversion found]; rfl
    · rw [textOr hprotocolVersion found]; rfl
    · rw [textOr hurl found]; rfl
    · rw [textOr hpreferredTransport found]; rfl
    · exact value found
    · exact value found
    · have read := (fieldOr_some found).symm.trans hskills
      rw [keptValue, read]
      rfl
    · rw [listOr hinputModes found]; rfl
    · rw [listOr houtputModes found]; rfl
    · rw [textOr hdocumentationUrl found]; rfl
    · rw [textOr hiconUrl found]; rfl
  · have other : key ≠ "skills" := by
      rintro rfl
      exact known (by decide)
    rw [get_toJson_of_unknown known, keptValue, if_neg other, ← found]
    exact get_unknownMembers known

theorem keptValue_get_toJson {v : Json} (found : (c.toJson .full).get key = some v) :
    keptValue key v = v := by
  have kept := get_toJson (fromValue_toJson (by decide)) found
  exact (Option.some.inj (found.symm.trans kept)).symm

/-! ### The description of a card -/

def skillText (s : AgentSkill) : String :=
  let label := if s.name.isEmpty then "" else "[" ++ s.name ++ "]"
  trim (label ++ " " ++ s.description)

/-- `trim_end_matches('.')`. -/
def trimDots (text : String) : String := String.ofList (text.toList.rdropWhile (· == '.'))

def buildDescription (c : AgentCard) : String :=
  let described := if c.description.isEmpty then [] else [trimDots c.description ++ "."]
  let skilled := if c.skills.isEmpty then []
    else ["Skills: " ++ "; ".intercalate (c.skills.map skillText)]
  " ".intercalate (described ++ skilled)

end AgentCard

/-! ### Generic services -/

namespace GenericServiceData

def fields : List String := ["name", "description", "inputSchema", "url"]

def fromJson (d : JsonDict) : Option GenericServiceData := do
  return {
    name := ← field Json.asStr d "name"
    description := ← field Json.asStr d "description"
    inputSchema := ← fieldOr Json.asObject [] d "inputSchema"
    url := ← fieldOr optionalStr none d "url" }

variable {g : GenericServiceData} {d : JsonDict} {key : String} {v : Json}

theorem asObject_eq_some {o : JsonDict} : v.asObject = some o ↔ v = .obj o := by
  cases v <;> simp [Json.asObject]

/-- **A member of the object that the data is read from is a member of the dump.** -/
theorem get_toJson (read : fromJson d = some g) (known : key ∈ fields)
    (found : d.get key = some v) : g.toJson.get key = some v := by
  simp only [fromJson, Option.pure_def, Option.bind_eq_bind, Option.bind_eq_some_iff,
    Option.some.injEq] at read
  obtain ⟨name, hname, description, hdescription, inputSchema, hinputSchema, url, hurl, rfl⟩ := read
  simp only [fields, mem_cons, not_mem_nil, or_false] at known
  rcases known with rfl | rfl | rfl | rfl
  · rw [asStr_eq_some.mp ((field_some found).symm.trans hname)]; rfl
  · rw [asStr_eq_some.mp ((field_some found).symm.trans hdescription)]; rfl
  · rw [asObject_eq_some.mp ((fieldOr_some found).symm.trans hinputSchema)]; rfl
  · have read := (fieldOr_some found).symm.trans hurl
    cases v with
    | null => cases read; rfl
    | str s => cases read; rfl
    | _ => cases read

theorem get_toJson_of_unknown (unknown : key ∉ fields) : g.toJson.get key = none :=
  lookup_eq_none_iff.mpr fun _ mem => bne_iff_ne.mpr fun same =>
    unknown (same ▸ mem_map_of_mem mem)

end GenericServiceData

/-! ### What an entry shows -/

def shownOwner (ownerId : Option String) : JsonDict :=
  match ownerId.filter fun o => !o.isEmpty with
  | none => []
  | some o => [("owner_id", .str o)]

def shownService (entry : RegistryEntry AgentCard) : JsonDict :=
  match entry.type, entry.skillData, entry.serviceData, entry.agentCard with
  | .skill, some sd, _, _ =>
    [("type", .str "skill"), ("name", .str sd.name), ("description", .str sd.description),
      ("metadata", .obj [("skill_path", .str sd.skillPath), ("license", .str sd.license),
        ("files", strings sd.files)])]
  | .generic, _, some sd, _ =>
    [("type", .str "generic"), ("name", .str sd.name), ("description", .str sd.description),
      ("metadata", .obj (present
        [("inputSchema", put true sd.inputSchema.isEmpty (.obj sd.inputSchema)),
          ("url", (sd.url.filter fun u => !u.isEmpty).map .str)]))]
  | .a2a, _, _, some card =>
    [("type", .str "a2a"), ("name", .str card.name), ("description", .str card.buildDescription),
      ("metadata", .obj (card.toJson .excludeNone))]
  | _, _, _, _ =>
    [("type", .str "a2a"), ("name", .str entry.serviceId),
      ("description", .str ("Unresolved agent card: " ++ entry.agentCardUrl.getD "unknown")),
      ("metadata", .obj [])]

/-- The row of an entry in `service.json`. -/
def entryToOutput (entry : RegistryEntry AgentCard) : JsonDict :=
  [("id", .str entry.serviceId)] ++ shownService entry ++ shownOwner entry.ownerId

/-- The members that filters are matched against. -/
def entryFilterDict (entry : RegistryEntry AgentCard) : Option JsonDict :=
  match entry.type with
  | .a2a => entry.agentCard.map fun c => c.toJson .excludeNone
  | .generic => entry.serviceData.map GenericServiceData.toJson
  | .skill => entry.skillData.map SkillData.toJson

/-- Every filter matches; `status = online` also where there is no status. -/
def filterMatches (pyStr : Json → String) (filters raw : JsonDict) : Bool :=
  filters.all fun f =>
    (f.1 == "status" && pyStr f.2 == "online" && !raw.containsKey "status") ||
      (raw.get f.1).any fun actual => pyStr actual == pyStr f.2

def entryMatchesFilters (pyStr : Json → String) (entry : RegistryEntry AgentCard)
    (filters : JsonDict) : Bool :=
  (entryFilterDict entry).any (filterMatches pyStr filters)

/-- `get("id")` of a row, as a text. -/
def rowId (row : JsonDict) : Option String := (row.get "id").bind Json.asStr

end AgentProtocols.Registry
