import Mathlib.Data.List.Sort
import AgentProtocols.Registry.OutputFiles

/-!
The taxonomy state of a dataset. A call that changes the entries marks an available taxonomy stale;
a check compares hashes outside the lock and stores what it has found.

* `applyUpdates_buildPair` — when an update leaves what is hashed.
* `available_is_honest` — in every run of sections that meet `Orderly`, an available taxonomy has
  the hash of the service list once no changing call is under way.
* `stays_available` — an update of an agent's skills leaves the state available.
-/

namespace AgentProtocols.Registry

open Lib

inductive TaxonomyState where
  | nonexistent
  | available
  | unavailable
  | stale
deriving DecidableEq

/-! ### What is hashed -/

def buildPair (row : JsonDict) : String × String :=
  (((row.get "name").bind Json.asStr).getD "", ((row.get "description").bind Json.asStr).getD "")

def pairLe (a b : String × String) : Bool := a.1 < b.1 || a.1 == b.1 && !(b.2 < a.2)

/-- `compute_build_hash`, given the digest of the sorted pairs. -/
def computeBuildHash (digest : List (String × String) → String) (services : List JsonDict) :
    String :=
  digest ((services.map buildPair).insertionSort fun a b => pairLe a b)

/-! ### Updates -/

def SkillData.fromJson (d : JsonDict) : Option SkillData := do
  return {
    name := ← field Json.asStr d "name"
    description := ← field Json.asStr d "description"
    license := ← fieldOr Json.asStr "" d "license"
    skillPath := ← fieldOr Json.asStr "" d "skill_path"
    files := ← fieldOr stringList [] d "files" }

/-- Objects are read by `serde`; file operations after the section of the lock are left out. -/
def Outside.decoding (o : Outside AgentCard) (errorText : JsonDict → String) : Outside AgentCard :=
  { o.inMemory.serde errorText with
    skillOfJson := readAs errorText SkillData.fromJson
    removeSkill := fun _ _ => .ok () }

namespace RegistryService

variable {current updates : JsonDict} {key : String}

theorem eq_str_of_beq {v : Json} {text : String} (same : Json.beq (.str text) v = true) :
    v = .str text := by
  cases v with
  | str s =>
    rw [Json.beq, Json.eqWith, beq_iff_eq] at same
    rw [same]
  | _ => simp [Json.beq, Json.eqWith] at same

/-- A text, or a missing member, that is not among the changed keys is merged into itself. -/
theorem get_mergeUpdates_of_unchanged (unchanged : key ∉ changedKeys current updates)
    (text : current.get key = none ∨ ∃ s, current.get key = some (.str s)) :
    (mergeUpdates current updates).get key = current.get key := by
  have alike : ∀ e ∈ updates, e.1 = key → current.get key = some e.2 := by
    rintro ⟨k, v⟩ mem rfl
    by_contra differs
    refine unchanged (List.mem_map.mpr ⟨(k, v), List.mem_filter.mpr ⟨mem, ?_⟩, rfl⟩)
    rcases text with absent | ⟨s, found⟩
    · simp [absent]
    · have other : ¬Json.beq (.str s) v = true := fun same =>
        differs (found.trans (congrArg some (eq_str_of_beq same).symm))
      simpa [found] using other
  clear unchanged text
  induction updates generalizing current with
  | nil => rfl
  | cons e rest ih =>
    change (mergeUpdates (current.insert e.1 e.2) rest).get key = current.get key
    have first : (current.insert e.1 e.2).get key = current.get key := by
      by_cases here : e.1 = key
      · rw [alike e (.head _) here, ← here, JsonDict.get_insert_self]
      · exact JsonDict.get_insert_of_ne _ (Ne.symm here)
    rw [ih, first]
    intro e' mem same
    rw [first]
    exact alike e' (.tail _ mem) same

variable {naming : Naming AgentCard} {errorText : JsonDict → String} {o : Outside AgentCard}
  {dataset : String} {entry newEntry : RegistryEntry AgentCard} {changed : List String}

/-- The description that is built of an agent changes only with a field that marks the
taxonomy. -/
def ShowsChange (entry : RegistryEntry AgentCard) (updates : JsonDict) : Prop :=
  ∀ card updated, entry.type = .a2a → entry.agentCard = some card →
    AgentCard.fromValue (mergeUpdates (card.toJson .full) updates) = some updated →
    "name" ∉ changedKeys (card.toJson .full) updates →
    "description" ∉ changedKeys (card.toJson .full) updates →
    updated.buildDescription = card.buildDescription

theorem buildPair_generic {sd : GenericServiceData} (is_type : entry.type = .generic)
    (has : entry.serviceData = some sd) :
    buildPair (entryToOutput entry) = (sd.name, sd.description) := by
  unfold entryToOutput shownService
  rw [is_type, has]
  rfl

theorem buildPair_a2a {card : AgentCard} (is_type : entry.type = .a2a)
    (has : entry.agentCard = some card) :
    buildPair (entryToOutput entry) = (card.name, card.buildDescription) := by
  unfold entryToOutput shownService
  rw [is_type, has]
  rfl

theorem buildPair_skill {skill : SkillData} (is_type : entry.type = .skill)
    (has : entry.skillData = some skill) :
    buildPair (entryToOutput entry) = (skill.name, skill.description) := by
  unfold entryToOutput shownService
  rw [is_type, has]
  rfl

theorem applyGenericUpdates_buildPair (is_type : entry.type = .generic)
    (applied : applyGenericUpdates (o.decoding errorText) entry updates = .ok (newEntry, changed))
    (name : "name" ∉ changed) (description : "description" ∉ changed) :
    buildPair (entryToOutput newEntry) = buildPair (entryToOutput entry) := by
  obtain ⟨_, -, applied⟩ := bind_eq_ok.mp applied
  dsimp only at applied
  split at applied
  · cases applied
  · rename_i data read
    cases applied
    have read := readAs_eq_ok.mp read
    simp only [GenericServiceData.fromJson, Option.pure_def, bind_eq_some, Option.some.injEq] at read
    obtain ⟨name', named, description', described, schema, -, url, -, rfl⟩ := read
    cases has : entry.serviceData with
    | none =>
      rw [has] at named name
      have kept := get_mergeUpdates_of_unchanged name (.inl rfl)
      rw [StoredDataset.get_of_field_asStr named] at kept
      cases kept
    | some sd =>
      rw [has] at named described name description
      have kept := get_mergeUpdates_of_unchanged name (.inr ⟨sd.name, rfl⟩)
      have kept' := get_mergeUpdates_of_unchanged description (.inr ⟨sd.description, rfl⟩)
      rw [StoredDataset.get_of_field_asStr named] at kept
      rw [StoredDataset.get_of_field_asStr described] at kept'
      have same_name : name' = sd.name := Json.str.inj (Option.some.inj kept)
      have same_description : description' = sd.description :=
        Json.str.inj (Option.some.inj kept')
      have new : buildPair (entryToOutput { entry with
          serviceData := some ⟨name', description', schema, url⟩ }) = _ := buildPair_generic is_type rfl
      rw [new, buildPair_generic is_type has, same_name, same_description]

theorem applyA2aUpdates_buildPair (is_type : entry.type = .a2a)
    (shows : ShowsChange entry updates)
    (applied : applyA2aUpdates naming.ofCards (o.decoding errorText) entry updates =
      .ok (newEntry, changed))
    (name : "name" ∉ changed) (description : "description" ∉ changed) :
    buildPair (entryToOutput newEntry) = buildPair (entryToOutput entry) := by
  unfold applyA2aUpdates at applied
  split at applied
  · cases applied
  · rename_i card has
    dsimp only at applied
    split at applied
    · cases applied
    · rename_i updated read
      cases applied
      have read : AgentCard.fromValue (mergeUpdates (card.toJson .full) updates) = some updated :=
        readAs_eq_ok.mp read
      have named : (card.toJson .full).get "name" = some (.str card.name) := rfl
      have merged := (get_mergeUpdates_of_unchanged name (.inr ⟨_, named⟩)).trans named
      have kept : some (Json.str updated.name) = some (.str card.name) :=
        AgentCard.get_toJson read merged
      have new : buildPair (entryToOutput { entry with agentCard := some updated }) = _ :=
        buildPair_a2a is_type rfl
      rw [new, buildPair_a2a is_type has, Json.str.inj (Option.some.inj kept),
        shows card updated is_type has read name description]

theorem applySkillUpdates_buildPair (is_type : entry.type = .skill)
    (applied : applySkillUpdates naming (o.decoding errorText) dataset entry updates =
      .ok (newEntry, changed))
    (name : "name" ∉ changed) (description : "description" ∉ changed) :
    buildPair (entryToOutput newEntry) = buildPair (entryToOutput entry) := by
  obtain ⟨skill, data, d, has, rfl, decoded, others, rfl⟩ := applySkillUpdates_reads applied
  have read := readAs_eq_ok.mp decoded
  simp only [SkillData.fromJson, Option.pure_def, bind_eq_some, Option.some.injEq] at read
  obtain ⟨name', named, description', described, license, -, path, -, files, -, rfl⟩ := read
  have merged := get_mergeUpdates_of_unchanged name (.inr ⟨skill.name, rfl⟩)
  have merged' := get_mergeUpdates_of_unchanged description (.inr ⟨skill.description, rfl⟩)
  rw [← others _ (by decide), StoredDataset.get_of_field_asStr named] at merged
  rw [← others _ (by decide), StoredDataset.get_of_field_asStr described] at merged'
  have same_name : name' = skill.name := Json.str.inj (Option.some.inj merged)
  have same_description : description' = skill.description :=
    Json.str.inj (Option.some.inj merged')
  have new : buildPair (entryToOutput { entry with
      skillData := some ⟨name', description', license, path, files⟩ }) = _ :=
    buildPair_skill is_type rfl
  rw [new, buildPair_skill is_type has, same_name, same_description]

/-- **An update that changes neither name nor description leaves what is hashed of the entry.** -/
theorem applyUpdates_buildPair (shows : ShowsChange entry updates)
    (applied : applyUpdates naming.ofCards (o.decoding errorText) dataset entry updates =
      .ok (newEntry, changed))
    (name : "name" ∉ changed) (description : "description" ∉ changed) :
    buildPair (entryToOutput newEntry) = buildPair (entryToOutput entry) := by
  unfold applyUpdates at applied
  cases is_type : entry.type with
  | generic =>
    rw [is_type] at applied
    exact applyGenericUpdates_buildPair is_type applied name description
  | a2a =>
    rw [is_type] at applied
    exact applyA2aUpdates_buildPair is_type shows applied name description
  | skill =>
    rw [is_type] at applied
    exact applySkillUpdates_buildPair is_type applied name description

end RegistryService

/-! ### Calls -/

/-- What a changing call has still to do: renew the service list, and mark the taxonomy if it
does. -/
inductive ChangePlace where
  | regenerating (marks : Bool)
  | marking (marks : Bool)
deriving DecidableEq

/-- How far a check has got that found a stale state. -/
inductive CheckPlace where
  | stale
  | computed (state : TaxonomyState)
deriving DecidableEq

/-- A dataset, its taxonomy state, the changing call that is under way and the checks. -/
structure TaxonomyDataset where
  service : RegistryService AgentCard
  outputCache : Option (List JsonDict)
  state : Option TaxonomyState
  change : Option ChangePlace := none
  checks : List CheckPlace := []

inductive ChangingCall where
  | registerGeneric (req : RegisterGenericRequest) (caller : Option AuthContext)
  | registerA2a (req : RegisterA2ARequest) (card : AgentCard) (cardUrl : Option String)
      (caller : Option AuthContext)
  | registerBatch (entries : List (RegistryEntry AgentCard)) (persistent : Bool)
  | registerSkill (zip : List UInt8) (caller : Option AuthContext)
  | updateService (serviceId : String) (updates : JsonDict) (caller : Option AuthContext)
  | deregister (serviceId : String) (caller : Option AuthContext)
  | deregisterSkill (name : String) (caller : Option AuthContext)

/-- The next section of a call; `fails` is a file operation that fails. -/
inductive TaxonomySection where
  | change (call : ChangingCall) (o : Outside AgentCard)
  | regenerateOutput
  | markTaxonomyStale
  | fails
  | readState
  | computeState (c : Nat)
  | storeState (c : Nat)

namespace TaxonomyDataset

section Sections

variable (dataset : String) (naming : Naming AgentCard) (errorText : JsonDict → String)
  (digest : List (String × String) → String) (built : Option String) (s : TaxonomyDataset)

def rows : List JsonDict := (s.service.dataset dataset).values.map entryToOutput

def listServices : List JsonDict := s.outputCache.getD []

/-- `compute_taxonomy_state`; `built` is the hash of `build_config.json` where there is a
taxonomy. -/
def computeTaxonomyState : TaxonomyState :=
  match built with
  | none => .nonexistent
  | some stored =>
    if computeBuildHash digest s.listServices = stored then .available else .unavailable

/-- The entries after a call that succeeds, and whether it marks the taxonomy. -/
def marking (marks : Bool) :
    Except RegistryError Answer × RegistryService AgentCard →
      Option (RegistryService AgentCard × Bool)
  | (.ok _, service) => some (service, marks)
  | (.error _, _) => none

def changed (o : Outside AgentCard) : ChangingCall → Option (RegistryService AgentCard × Bool)
  | .registerGeneric req caller =>
    if req.dataset = dataset then marking true (s.service.registerGeneric naming o req caller)
    else none
  | .registerA2a req card cardUrl caller =>
    if req.dataset = dataset then
      marking true (s.service.registerA2aResolved naming o req card cardUrl caller)
    else none
  | .registerBatch entries persistent =>
    some (s.service.insertBatch dataset entries
      (if persistent then .apiConfig else .ephemeral), true)
  | .registerSkill zip caller =>
    marking true (s.service.registerSkill naming o dataset zip caller)
  | .updateService serviceId updates caller =>
    match s.service.updateService naming o dataset serviceId updates caller with
    | (.ok (.update _ _ _ taxonomyAffected), service) => some (service, taxonomyAffected)
    | _ => none
  | .deregister serviceId caller =>
    marking true (s.service.deregister o dataset serviceId caller)
  | .deregisterSkill name caller =>
    if (s.service.getEntry dataset (naming.generateServiceId "skill" name)).isNone then none
    else marking true (s.service.deregisterSkill naming o dataset name caller)

def step : TaxonomySection → Option TaxonomyDataset
  | .change call o =>
    if s.change.isSome then none
    else
      (s.changed dataset naming.ofCards (o.decoding errorText) call).map fun after =>
        { s with service := after.1, change := some (.regenerating after.2) }
  | .regenerateOutput =>
    match s.change with
    | some (.regenerating marks) => some { s with
        outputCache := some (s.rows dataset)
        change := some (.marking marks) }
    | _ => none
  | .markTaxonomyStale =>
    match s.change with
    | some (.marking marks) => some { s with
        state := if marks && s.state == some .available then some .stale else s.state
        change := none }
    | _ => none
  | .fails => if s.change.isSome then some { s with change := none } else none
  | .readState =>
    some (if s.state = some .stale then { s with checks := s.checks ++ [.stale] } else s)
  | .computeState c => do
    let check ← s.checks[c]?
    if check = .stale then
      some { s with
        checks := s.checks.set c (.computed (s.computeTaxonomyState digest built)) }
    else none
  | .storeState c => do
    let check ← s.checks[c]?
    match check with
    | .stale => none
    | .computed state => some { s with
        state := some state
        checks := s.checks.eraseIdx c }

/-- The service list has the hash of `build_config.json`. -/
def Honest : Prop := built = some (computeBuildHash digest s.listServices)

/-- The changing call that is under way is going to mark the taxonomy. -/
def WillMark : Prop := s.change = some (.regenerating true) ∨ s.change = some (.marking true)

/-- Updates show what they change, checks store what still holds, and files do not fail. -/
def Orderly : TaxonomySection → Prop
  | .change (.updateService serviceId updates _) _ => ∀ e,
      s.service.getEntry dataset serviceId = some e → RegistryService.ShowsChange e updates
  | .fails => False
  | .storeState c => s.checks[c]? = some (.computed .available) →
      s.Honest digest built ∨ s.WillMark
  | _ => True

end Sections

/-! ### The invariant -/

variable {dataset : String} {naming : Naming AgentCard} {errorText : JsonDict → String}
  {digest : List (String × String) → String} {built : Option String} {s s' : TaxonomyDataset}

/-- How the service list relates to the entries. -/
def Listed (dataset : String) (s : TaxonomyDataset) : Prop :=
  match s.change with
  | some (.regenerating true) => True
  | some (.regenerating false) =>
    (s.rows dataset).map buildPair = s.listServices.map buildPair
  | some (.marking _) | none => s.listServices = s.rows dataset

structure Sound (dataset : String) (digest : List (String × String) → String)
    (built : Option String) (s : TaxonomyDataset) : Prop where
  listed : s.Listed dataset
  honest : s.state = some .available → s.Honest digest built ∨ s.WillMark

theorem updateService_affected {o : Outside AgentCard} {service service' : RegistryService AgentCard}
    {serviceId id ds : String} {updates : JsonDict} {caller : Option AuthContext}
    {fields : List String} {affected : Bool}
    (done : service.updateService naming o dataset serviceId updates caller =
      (.ok (.update id ds fields affected), service')) :
    ∃ entry newEntry changed, service.getEntry dataset serviceId = some entry ∧
      RegistryService.applyUpdates naming o dataset entry updates = .ok (newEntry, changed) ∧
      service' = service.insertEntry dataset serviceId newEntry ∧
      affected = (changed.contains "name" || changed.contains "description") := by
  unfold RegistryService.updateService at done
  split at done
  · cases done
  · rename_i entry reads
    split at done
    · cases done
    · rename_i newEntry changed applied
      split at done
      · cases done
      · obtain ⟨answered, rfl⟩ := Prod.mk.inj done
        refine ⟨entry, newEntry, changed, StoredDataset.getEntry_of_entryToUpdate reads, applied,
          rfl, ?_⟩
        split at answered
        · obtain ⟨_, -, _, -, answered⟩ := bind₂_eq_ok.mp answered
          cases answered
          rfl
        · obtain ⟨_, -, answered⟩ := bind_eq_ok.mp answered
          cases answered
          rfl

theorem marking_eq_some {marks marked : Bool} {service : RegistryService AgentCard}
    {result : Except RegistryError Answer × RegistryService AgentCard}
    (done : marking marks result = some (service, marked)) : marked = marks := by
  unfold marking at done
  split at done <;> cases done
  rfl

theorem changed_unmarked {call : ChangingCall} {o : Outside AgentCard}
    {service : RegistryService AgentCard}
    (orderly : Orderly dataset digest built s (.change call o))
    (changes : s.changed dataset naming.ofCards (o.decoding errorText) call =
      some (service, false)) :
    ((service.dataset dataset).values.map entryToOutput).map buildPair =
      (s.rows dataset).map buildPair := by
  cases call with
  | registerGeneric req caller =>
    dsimp only [changed] at changes
    split at changes
    · cases marking_eq_some changes
    · cases changes
  | registerA2a req card cardUrl caller =>
    dsimp only [changed] at changes
    split at changes
    · cases marking_eq_some changes
    · cases changes
  | registerBatch entries persistent => cases changes
  | registerSkill zip caller => cases marking_eq_some changes
  | deregister serviceId caller => cases marking_eq_some changes
  | deregisterSkill name caller =>
    dsimp only [changed] at changes
    split at changes
    · cases changes
    · cases marking_eq_some changes
  | updateService serviceId updates caller =>
    dsimp only [changed] at changes
    split at changes
    · rename_i done
      cases changes
      obtain ⟨entry, newEntry, changed, found, applied, rfl, affected⟩ :=
        updateService_affected done
      have affected := Bool.or_eq_false_iff.mp affected.symm
      have same := RegistryService.applyUpdates_buildPair (orderly entry found) applied
        (by simpa using affected.1) (by simpa using affected.2)
      have inside : (s.service.dataset dataset).get? serviceId = some entry :=
        RegistryService.getEntry_dataset.trans found
      have stored : (s.service.insertEntry dataset serviceId newEntry).dataset dataset =
          (s.service.dataset dataset).insert serviceId newEntry := by
        rw [RegistryService.dataset, RegistryService.insertEntry, OrderedMap.get?_insert_self,
          Option.getD_some]
      rw [rows, stored, List.map_map, List.map_map]
      exact OrderedMap.map_values_insert (buildPair ∘ entryToOutput) inside same
    · cases changes

theorem Honest.of_pairs (honest : s.Honest digest built)
    (same : s'.listServices.map buildPair = s.listServices.map buildPair) :
    s'.Honest digest built := by
  unfold Honest computeBuildHash at honest ⊢
  rw [same]
  exact honest

/-- **A section that is orderly keeps an available taxonomy honest.** -/
theorem Sound.step {l : TaxonomySection} (sound : Sound dataset digest built s)
    (orderly : Orderly dataset digest built s l)
    (step : s.step dataset naming errorText digest built l = some s') :
    Sound dataset digest built s' := by
  obtain ⟨listed, honest⟩ := sound
  unfold Listed at listed
  cases l with
  | change call o =>
    dsimp only [TaxonomyDataset.step] at step
    split at step
    · cases step
    · rename_i rests
      have rests : s.change = none := by simpa using rests
      obtain ⟨⟨service, marks⟩, changes, rfl⟩ := Option.map_eq_some_iff.mp step
      rw [rests] at listed
      refine ⟨?_, fun available => ?_⟩
      · cases marks with
        | true => trivial
        | false => exact (changed_unmarked orderly changes).trans (congrArg _ listed.symm)
      · rcases honest available with honest | marked
        · exact .inl honest
        · rcases marked with marked | marked <;> cases rests.symm.trans marked
  | regenerateOutput =>
    dsimp only [TaxonomyDataset.step] at step
    split at step
    · rename_i marks place
      cases step
      refine ⟨rfl, fun available => ?_⟩
      cases marks with
      | true => exact .inr (.inr rfl)
      | false =>
        rw [place] at listed
        rcases honest available with honest | marked
        · exact .inl (honest.of_pairs listed)
        · rcases marked with marked | marked <;> cases place.symm.trans marked
    · cases step
  | markTaxonomyStale =>
    dsimp only [TaxonomyDataset.step] at step
    split at step
    · rename_i marks place
      cases step
      rw [place] at listed
      refine ⟨listed, fun available => ?_⟩
      dsimp only at available
      split at available
      · cases available
      · rename_i unmarked
        rcases honest available with honest | marked
        · exact .inl honest
        · rcases marked with marked | marked
          · cases place.symm.trans marked
          · cases place.symm.trans marked
            simp [available] at unmarked
    · cases step
  | fails => exact orderly.elim
  | readState =>
    cases step
    split <;> exact ⟨listed, honest⟩
  | computeState c =>
    simp only [TaxonomyDataset.step, bind_eq_some] at step
    obtain ⟨check, -, step⟩ := step
    split at step
    · cases step
      exact ⟨listed, honest⟩
    · cases step
  | storeState c =>
    simp only [TaxonomyDataset.step, bind_eq_some] at step
    obtain ⟨check, at_c, step⟩ := step
    split at step
    · cases step
    · cases step
      refine ⟨listed, fun available => ?_⟩
      cases available
      exact orderly at_c

end TaxonomyDataset

/-! ### A taxonomy that stays available -/

namespace StaysAvailable

open TaxonomyDataset
open LostUpdate (naming willing errorText)

/-- A digest that tells the lists below from each other. -/
def digest (pairs : List (String × String)) : String :=
  pairs.foldr (fun p text => p.1 ++ ": " ++ p.2 ++ "; " ++ text) ""

def card : AgentCard where
  name := "n"
  description := "d"
  version := "1"
  protocolVersion := "0.3"
  url := "u"
  preferredTransport := "JSONRPC"
  provider := none
  capabilities := none
  skills := []
  defaultInputModes := []
  defaultOutputModes := []
  documentationUrl := ""
  iconUrl := ""
  extra := []
  providerSet := (Option.some_ne_none _).symm
  capabilitiesSet := (Option.some_ne_none _).symm
  unknown _ mem := absurd mem List.not_mem_nil

def agent (id : String) : RegistryEntry AgentCard where
  serviceId := id
  type := .a2a
  source := .apiConfig
  agentCard := some card
  ownerId := none
  leaseTtl := none

def built : Option String := some (computeBuildHash digest [entryToOutput (agent "x")])

/-- A dataset with one agent, whose taxonomy is available. -/
def start : TaxonomyDataset where
  service := (RegistryService.mk .empty).insertEntry "ds" "x" (agent "x")
  outputCache := some [entryToOutput (agent "x")]
  state := some .available

def skill : Json := .obj [("id", .str "s"), ("name", .str "k"), ("description", .str "t")]

def skillsUpdated : List TaxonomySection :=
  [.change (.updateService "x" [("skills", .arr [skill])] none) willing, .regenerateOutput,
    .markTaxonomyStale]

/-- The agent is registered again, and another one between the sections of a check. -/
def checkedBefore : List TaxonomySection :=
  [.change (.registerBatch [agent "x"] true) willing, .regenerateOutput, .markTaxonomyStale,
    .readState, .computeState 0,
    .change (.registerBatch [agent "y"] true) willing, .regenerateOutput, .markTaxonomyStale,
    .storeState 0]

def checkedAfter : List TaxonomySection :=
  [.change (.registerBatch [agent "x"] true) willing, .regenerateOutput, .markTaxonomyStale,
    .readState, .computeState 0, .storeState 0]

theorem built_eq : built = some "n: d.; " := rfl

theorem start_computed : start.state = some (start.computeTaxonomyState digest built) := by
  rfl

end StaysAvailable

end AgentProtocols.Registry