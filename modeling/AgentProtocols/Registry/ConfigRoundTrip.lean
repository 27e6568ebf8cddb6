import AgentProtocols.Registry.PersistentEntries

/-!
What a restart makes of the entries in memory.

`reloads_iff` says for which of the entries that calls leave in memory the config file gives the
same entry back, and `padded_name_trimmed` is one that a restart alters.
-/

namespace AgentProtocols.Registry

open Lib
open AgentProtocols.A4P (trim trim_trim)
open AgentProtocols.Json (Number)
open StoredDataset (genericEntry a2aEntry chosenId_ne getEntry_of_entryToUpdate)

/-- The range of the type of `lease_ttl`. -/
def InI64 (ttl : Option Int) : Prop := ∀ t, ttl = some t → -2 ^ 63 ≤ t ∧ t < 2 ^ 63

/-- The registry after calls: entries are loaded, registered, updated and removed. -/
inductive Reached (naming : Naming AgentCard) (cardError : Json → String) :
    RegistryService AgentCard → Prop
  | empty : Reached naming cardError ⟨.empty⟩
  | load {s svc source entry} (dataset : String) : Reached naming cardError s →
      parseServiceEntry naming cardError svc source = .ok (some entry) →
      Reached naming cardError (s.insertEntry dataset entry.serviceId entry)
  | skill {s} {entry : RegistryEntry AgentCard} (dataset : String) : Reached naming cardError s →
      entry.type = .skill → Reached naming cardError (s.insertEntry dataset entry.serviceId entry)
  | registerGeneric {s} (o : Outside AgentCard) (req : RegisterGenericRequest)
      (caller : Option AuthContext) : Reached naming cardError s → InI64 req.leaseTtl →
      Reached naming cardError (s.registerGeneric naming o req caller).2
  | registerA2a {s} (o : Outside AgentCard) (req : RegisterA2ARequest) (card : AgentCard)
      (cardUrl : Option String) (caller : Option AuthContext) : Reached naming cardError s →
      InI64 req.leaseTtl → Reached naming cardError (s.registerA2aResolved naming o req card cardUrl caller).2
  | update {s} (o : Outside AgentCard) (dataset serviceId : String) (updates : JsonDict)
      (caller : Option AuthContext) : Reached naming cardError s →
      Reached naming cardError (s.updateService naming o dataset serviceId updates caller).2
  | deregister {s} (o : Outside AgentCard) (dataset serviceId : String)
      (caller : Option AuthContext) : Reached naming cardError s →
      Reached naming cardError (s.deregister o dataset serviceId caller).2

structure Shaped (entry : RegistryEntry AgentCard) : Prop where
  named : entry.type ≠ .skill → entry.serviceId ≠ ""
  ttl : entry.type ≠ .skill → InI64 entry.leaseTtl
  noSkill : entry.type ≠ .skill → entry.skillData = none
  generic : entry.type = .generic →
    (∃ sd, entry.serviceData = some sd) ∧ entry.agentCard = none ∧ entry.agentCardUrl = none
  a2a : entry.type = .a2a → entry.serviceData = none

/-- The entry with absent for empty members. -/
def withoutBlanks (entry : RegistryEntry AgentCard) : RegistryEntry AgentCard :=
  { entry with
    source := .apiConfig
    serviceData := entry.serviceData.map fun sd => { sd with url := sd.url.filter fun u => !u.isEmpty }
    agentCardUrl := entry.agentCardUrl.filter fun u => !u.isEmpty
    ownerId := entry.ownerId.filter fun o => !o.isEmpty }

/-- Nothing of the entry is lost when it is read again. -/
structure Kept (entry : RegistryEntry AgentCard) : Prop where
  texts : ∀ sd, entry.serviceData = some sd → trim sd.name = sd.name ∧ sd.name ≠ "" ∧
    trim sd.description = sd.description ∧ sd.description ≠ ""
  ttl : ∀ t, entry.leaseTtl = some t → 0 < t

section

variable {naming : Naming AgentCard} {cardError : Json → String} {entry : RegistryEntry AgentCard}
  {s : RegistryService AgentCard} {dataset id : String}

/-! ### The entries in memory -/

theorem wholeNumber_lt (n : Number) : wholeNumber n < 2 ^ 63 := by
  unfold wholeNumber
  split
  · rename_i i small
    exact (Number.asI64_range small).2
  · decide
  · rename_i i negative _ _
    omega
  · unfold truncate
    dsimp only
    omega

theorem inI64_leaseTtlOf (v : Option Json) : InI64 (leaseTtlOf v) := by
  intro t found
  obtain ⟨read, positive⟩ := Option.filter_eq_some_iff.mp found
  obtain ⟨v, -, read⟩ := Option.bind_eq_some_iff.mp read
  have positive : 0 < t := of_decide_eq_true positive
  split at read
  · cases read
    exact ⟨by omega, wholeNumber_lt _⟩
  · cases read

theorem shaped_of_parse {svc : Json} {source : Source}
    (makes : ∀ type name, naming.generateServiceId type name ≠ "")
    (read : parseServiceEntry naming cardError svc source = .ok (some entry)) : Shaped entry := by
  obtain ⟨readable, -⟩ := readable_of_parse makes read
  unfold parseServiceEntry at read
  split at read
  · cases read
  · dsimp only at read
    split at read
    · unfold parseGeneric at read
      dsimp only at read
      split at read
      · cases read
      · obtain ⟨schema, -, url, -, read⟩ := bind₂_eq_ok.mp read
        cases read
        exact ⟨fun _ => readable.named, fun _ => inI64_leaseTtlOf _, fun _ => rfl,
          fun _ => ⟨⟨_, rfl⟩, rfl, rfl⟩, nofun⟩
    · obtain ⟨card, -, read⟩ := bind_eq_ok.mp read
      cases read
      exact ⟨fun _ => readable.named, fun _ => inI64_leaseTtlOf _, fun _ => rfl, nofun, fun _ => rfl⟩
    · cases read

open RegistryService

theorem Shaped.updated {o : Outside AgentCard} {updates : JsonDict} {changed : List String}
    {newEntry : RegistryEntry AgentCard} (shaped : Shaped entry)
    (applied : applyUpdates naming o dataset entry updates = .ok (newEntry, changed)) :
    Shaped newEntry := by
  rcases applyUpdates_eq applied with
    ⟨type, data, rfl⟩ | ⟨type, card, rfl⟩ | ⟨type, data, rfl⟩
  · exact { shaped with
      generic := fun _ => ⟨⟨_, rfl⟩, (shaped.generic type).2⟩
      a2a := fun a2a => absurd (type.symm.trans a2a) nofun }
  · exact { shaped with generic := fun generic => absurd (type.symm.trans generic) nofun }
  · exact { shaped with noSkill := fun other => absurd type other }

theorem shaped_insertEntry (shaped : ∀ dataset id e, s.getEntry dataset id = some e → Shaped e)
    {serviceId : String} (new : Shaped entry) :
    ∀ dataset' id e, (s.insertEntry dataset serviceId entry).getEntry dataset' id = some e →
      Shaped e := by
  intro dataset' id e found
  rw [getEntry_insertEntry] at found
  split at found
  · exact Option.some.inj found ▸ new
  · exact shaped dataset' id e found

theorem doRegister_after {o : Outside AgentCard} {persistent : Bool} :
    (s.doRegister o dataset entry persistent).2 = s ∨
      (s.doRegister o dataset entry persistent).2 = s.insertEntry dataset entry.serviceId entry := by
  rw [doRegister]
  split
  · exact .inl rfl
  · exact .inr rfl

section

variable (makes : ∀ type name, naming.generateServiceId type name ≠ "")

include makes

theorem shaped_genericEntry {req : RegisterGenericRequest} (ttl : InI64 req.leaseTtl)
    (caller : Option AuthContext) : Shaped (genericEntry naming req caller) :=
  ⟨fun _ => chosenId_ne (makes _ _), fun _ => ttl, fun _ => rfl, fun _ => ⟨⟨_, rfl⟩, rfl, rfl⟩, nofun⟩

theorem shaped_a2aEntry {req : RegisterA2ARequest} (ttl : InI64 req.leaseTtl) (card : AgentCard)
    (cardUrl : Option String) (caller : Option AuthContext) :
    Shaped (a2aEntry naming req card cardUrl caller) :=
  ⟨fun _ => chosenId_ne (makes _ _), fun _ => ttl, fun _ => rfl, nofun, fun _ => rfl⟩

end

theorem Reached.shaped (reached : Reached naming cardError s)
    (makes : ∀ type name, naming.generateServiceId type name ≠ "") :
    ∀ dataset id e, s.getEntry dataset id = some e → Shaped e := by
  induction reached with
  | empty => exact fun dataset id e found => absurd found (by simp [getEntry])
  | load dataset _ read ih => exact shaped_insertEntry ih (shaped_of_parse makes read)
  | skill dataset _ type ih =>
    exact shaped_insertEntry ih
      ⟨fun other => absurd type other, fun other => absurd type other, fun other => absurd type other,
        fun generic => absurd (type.symm.trans generic) (by decide),
        fun a2a => absurd (type.symm.trans a2a) (by decide)⟩
  | registerGeneric o req caller _ ttl ih =>
    have new := shaped_genericEntry makes ttl caller
    unfold RegistryService.registerGeneric
    split
    · exact ih
    · dsimp only
      split
      · exact ih
      · rcases doRegister_after with same | same <;> rw [same]
        · exact ih
        · exact shaped_insertEntry ih new
  | registerA2a o req card cardUrl caller _ ttl ih =>
    have new := shaped_a2aEntry makes ttl card cardUrl caller
    unfold registerA2aResolved
    split
    · exact ih
    · split
      · exact ih
      · rcases doRegister_after with same | same <;> rw [same]
        · exact ih
        · exact shaped_insertEntry ih new
  | update o dataset serviceId updates caller _ ih =>
    unfold updateService
    split
    · exact ih
    · rename_i entry reads
      split
      · exact ih
      · rename_i newEntry changed applied
        split
        · exact ih
        · exact shaped_insertEntry ih ((ih _ _ _ (getEntry_of_entryToUpdate reads)).updated applied)
  | deregister o dataset serviceId caller _ ih =>
    unfold RegistryService.deregister
    split
    · exact ih
    · exact fun dataset id e found => ih dataset id e (getEntry_of_removeEntry found)

/-! ### Reading them again -/

theorem leaseTtl_reloaded (range : InI64 entry.leaseTtl) :
    (reloaded entry).leaseTtl = entry.leaseTtl.filter fun t => 0 < t := by
  rw [reloaded]
  cases ttl : entry.leaseTtl with
  | none => rfl
  | some t =>
    by_cases zero : t = 0
    · subst zero
      rfl
    · have whole : wholeNumber (.ofI64 t) = t := by
        unfold wholeNumber
        rw [Number.asI64_ofI64 (range t ttl).1 (range t ttl).2]
      simp [leaseTtlOf, Option.filter, zero, whole]

theorem hasText_iff {text : String} (trimmed : trim text = text) :
    hasText (some (.str text)) = true ↔ text ≠ "" := by
  simp [hasText, trimmed]

theorem reloaded_eq_iff (shaped : Shaped entry) (noSkill : entry.type ≠ .skill) :
    reloaded entry = withoutBlanks entry ↔
      (∀ sd, entry.serviceData = some sd → trim sd.name = sd.name ∧ trim sd.description = sd.description) ∧
      ∀ t, entry.leaseTtl = some t → 0 < t := by
  have ttl : (reloaded entry).leaseTtl = entry.leaseTtl ↔ ∀ t, entry.leaseTtl = some t → 0 < t := by
    rw [leaseTtl_reloaded (shaped.ttl noSkill)]
    cases entry.leaseTtl <;> simp [Option.filter]
  have data : (reloaded entry).serviceData = (withoutBlanks entry).serviceData ↔
      ∀ sd, entry.serviceData = some sd → trim sd.name = sd.name ∧ trim sd.description = sd.description := by
    rw [reloaded, withoutBlanks]
    cases type : entry.type with
    | generic =>
      obtain ⟨⟨sd, has⟩, -⟩ := shaped.generic type
      simp [has]
    | a2a => simp [shaped.a2a type]
    | skill => exact absurd type noSkill
  rw [← ttl, ← data]
  constructor
  · intro same
    rw [same]
    exact ⟨rfl, rfl⟩
  · rintro ⟨sameData, sameTtl⟩
    have skill : (reloaded entry).skillData = entry.skillData := (shaped.noSkill noSkill).symm
    have card : (reloaded entry).agentCard = entry.agentCard ∧
        (reloaded entry).agentCardUrl = (withoutBlanks entry).agentCardUrl := by
      rw [reloaded, withoutBlanks]
      cases type : entry.type with
      | generic => simp [(shaped.generic type).2]
      | a2a => simp
      | skill => exact absurd type noSkill
    calc reloaded entry = ⟨entry.serviceId, entry.type, .apiConfig, (reloaded entry).serviceData,
          (reloaded entry).agentCard, (reloaded entry).agentCardUrl, (reloaded entry).skillData,
          (reloaded entry).ownerId, (reloaded entry).leaseTtl⟩ := rfl
      _ = withoutBlanks entry := by
        rw [sameData, sameTtl, skill, card.1, card.2]
        rfl

/-- An entry is read back exactly if its texts are trimmed and its ttl is positive. -/
theorem reloads_iff {digest : String → String}
    (reached : Reached (naming.hashed digest) cardError s) (found : s.getEntry dataset id = some entry)
    (noSkill : entry.type ≠ .skill) :
    parseServiceEntry (naming.hashed digest) cardError (.obj (entryToConfigDict entry)) .apiConfig =
      .ok (some (withoutBlanks entry)) ↔ Kept entry := by
  have shaped := reached.shaped (naming.hashed_ne digest) dataset id entry found
  have reads := fun readable : Readable entry =>
    @parse_entryToConfigDict (naming.hashed digest) cardError _ readable
  constructor
  · intro read
    obtain ⟨blank, -⟩ := readable_of_parse (naming.hashed_ne digest) read
    have readable : Readable entry := by
      refine ⟨blank.named, noSkill, fun generic => ?_⟩
      obtain ⟨sd, has, texts⟩ := blank.texts generic
      obtain ⟨old, had, rfl⟩ := Option.map_eq_some_iff.mp has
      exact ⟨old, had, texts⟩
    obtain ⟨trimmed, positive⟩ := (reloaded_eq_iff shaped noSkill).mp
      (Option.some.inj (Except.ok.inj ((reads readable).symm.trans read)))
    refine ⟨fun sd has => ?_, positive⟩
    have generic : entry.type = .generic := by
      cases type : entry.type with
      | generic => rfl
      | a2a => cases has.symm.trans (shaped.a2a type)
      | skill => exact absurd type noSkill
    obtain ⟨_, has', name, description⟩ := readable.texts generic
    cases has.symm.trans has'
    obtain ⟨trimName, trimDescription⟩ := trimmed sd has
    exact ⟨trimName, (hasText_iff trimName).mp name, trimDescription,
      (hasText_iff trimDescription).mp description⟩
  · rintro ⟨texts, positive⟩
    have readable : Readable entry := by
      refine ⟨shaped.named noSkill, noSkill, fun generic => ?_⟩
      obtain ⟨⟨sd, has⟩, -⟩ := shaped.generic generic
      obtain ⟨trimName, name, trimDescription, description⟩ := texts sd has
      exact ⟨sd, has, (hasText_iff trimName).mpr name, (hasText_iff trimDescription).mpr description⟩
    rw [reads readable, (reloaded_eq_iff shaped noSkill).mpr
      ⟨fun sd has => ⟨(texts sd has).1, (texts sd has).2.2.1⟩, positive⟩]

end

namespace EphemeralAgain

open LostUpdate (willing)

def named (name : String) : RegistryService AgentCard :=
  ((RegistryService.mk .empty).registerGeneric naming (willing.validating config)
    { request true with name } none).2

theorem reached_named (name : String) : Reached naming cardError (named name) :=
  .registerGeneric _ _ _ .empty nofun

theorem plain_name_reloads : parseServiceEntry naming cardError
    (.obj (entryToConfigDict (genericEntry naming (request true) none))) .apiConfig =
      .ok (some (withoutBlanks (genericEntry naming (request true) none))) :=
  (@reloads_iff _ _ _ _ "ds" "x" _ (reached_named "n") rfl nofun).mpr
    ⟨fun _ has => Option.some.inj has ▸ ⟨rfl, by decide, rfl, by decide⟩, nofun⟩

/-- The service " x" is registered, and a restart knows it as "x". -/
theorem padded_name_trimmed : ∃ e e', (named " x").getEntry "ds" "x" = some e ∧
    parseServiceEntry naming cardError (.obj (entryToConfigDict e)) .apiConfig = .ok (some e') ∧
    e.serviceData.map GenericServiceData.name = some " x" ∧
    e'.serviceData.map GenericServiceData.name = some "x" :=
  ⟨_, _, rfl, rfl, rfl, rfl⟩

end EphemeralAgain

end AgentProtocols.Registry
