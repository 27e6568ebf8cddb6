import AgentProtocols.Registry.RegistryService
import AgentProtocols.Lib.Runs

/-!
Who may change a registered service. A `ServiceCall` of somebody who is neither an admin nor the
owner (`Permitted`) leaves an entry as it is, unless it registers over it (`owner_protected`,
`entry_survives`), and is refused (`refusal`). `Hijack.registered_over` is such a registration.
-/

namespace AgentProtocols.Registry

open Lib RegistryService

variable {Card : Type}

/-! ### Calls -/

inductive ServiceCall (Card : Type) where
  | registerGeneric (req : RegisterGenericRequest)
  | registerA2aResolved (req : RegisterA2ARequest) (card : Card) (cardUrl : Option String)
  | registerSkill (dataset : String) (zip : List UInt8)
  | updateService (dataset serviceId : String) (updates : JsonDict)
  | deregister (dataset serviceId : String)
  | deregisterSkill (dataset name : String)

namespace ServiceCall

variable (naming : Naming Card) (o : Outside Card) (caller : AuthContext)
  (s : RegistryService Card)

def run : ServiceCall Card → Except RegistryError Answer × RegistryService Card
  | registerGeneric req => s.registerGeneric naming o req (some caller)
  | registerA2aResolved req card cardUrl =>
    s.registerA2aResolved naming o req card cardUrl (some caller)
  | registerSkill dataset zip => s.registerSkill naming o dataset zip (some caller)
  | updateService dataset serviceId updates =>
    s.updateService naming o dataset serviceId updates (some caller)
  | deregister dataset serviceId => s.deregister o dataset serviceId (some caller)
  | deregisterSkill dataset name => s.deregisterSkill naming o dataset name (some caller)

/-- The calls that look at what is registered before they change it. -/
def looks : ServiceCall Card → Bool
  | registerGeneric _ | registerA2aResolved .. => false
  | _ => true

def On (dataset serviceId : String) : ServiceCall Card → Prop
  | registerGeneric req => req.dataset = dataset ∧
      chosenId req.serviceId (naming.generateServiceId "generic" req.name) = serviceId
  | registerA2aResolved req card _ => req.dataset = dataset ∧
      chosenId req.serviceId (naming.generateServiceId "agent" (naming.cardName card)) = serviceId
  | registerSkill d zip => d = dataset ∧
      ∃ skill, o.saveSkillZip d zip = .ok skill ∧
        naming.generateServiceId "skill" skill.name = serviceId
  | updateService d id _ | deregister d id => d = dataset ∧ id = serviceId
  | deregisterSkill d name => d = dataset ∧ naming.generateServiceId "skill" name = serviceId

/-- The error of a check that comes before the owner of an entry is looked at. -/
def refusal (entry : RegistryEntry Card) : ServiceCall Card → Option RegistryError
  | registerGeneric _ | registerA2aResolved .. => none
  | registerSkill dataset zip =>
    match assertCanRegister (some caller) with
    | .error e => some e
    | .ok _ =>
      match uploadedSkill o dataset zip with
      | .error e => some e
      | .ok _ => none
  | updateService .. =>
    if entry.source = .userConfig then
      some (.invalid ("Cannot update user_config entries via API. " ++
        "Edit user_config.json directly and restart."))
    else none
  | deregister .. =>
    match entry.source with
    | .userConfig => some (.invalid ("Cannot deregister user_config entries via API. " ++
        "Edit user_config.json instead."))
    | .skillFolder => some (.invalid ("Cannot deregister skill entries via generic API. " ++
        "Use DELETE /skills/\x7bname\x7d instead."))
    | _ => none
  | deregisterSkill .. => none

end ServiceCall

def Permitted (caller : AuthContext) (entry : RegistryEntry Card) : Prop :=
  caller.isAdmin = true ∨ entry.ownerId = some caller.principalId

/-! ### One call -/

namespace RegistryService

variable {naming : Naming Card} {o : Outside Card} {caller : AuthContext}
  {s : RegistryService Card} {dataset serviceId : String} {entry : RegistryEntry Card}

theorem assertOwner_cases (entry : RegistryEntry Card) (caller : AuthContext) :
    assertOwner entry caller = .ok () ∧ Permitted caller entry ∨
      ∃ text, assertOwner entry caller = .error (.permission text) ∧ ¬Permitted caller entry := by
  rw [assertOwner, Permitted]
  by_cases admin : caller.isAdmin = true
  · exact .inl ⟨if_pos admin, .inl admin⟩
  · rw [if_neg admin]
    cases owner : entry.ownerId with
    | none => exact .inr ⟨_, rfl, by simp [admin]⟩
    | some o =>
      by_cases same : o = caller.principalId
      · exact .inl ⟨by simp [same], .inr (congrArg some same)⟩
      · exact .inr ⟨_, if_pos same, by simp [admin, same]⟩

theorem permitted_of_ok (passed : assertOwner entry caller = .ok ()) : Permitted caller entry := by
  rcases assertOwner_cases entry caller with ⟨-, permitted⟩ | ⟨text, failed, -⟩
  · exact permitted
  · rw [passed] at failed
    cases failed

/-- A call changes one entry at most, by somebody who is permitted. -/
structure ChangesOne (caller : AuthContext) (s t : RegistryService Card)
    (dataset serviceId : String) : Prop where
  elsewhere : ∀ dataset' serviceId', ¬(dataset' = dataset ∧ serviceId' = serviceId) →
    t.getEntry dataset' serviceId' = s.getEntry dataset' serviceId'
  permitted : ∀ entry, s.getEntry dataset serviceId = some entry → Permitted caller entry

variable (permitted : ∀ entry, s.getEntry dataset serviceId = some entry → Permitted caller entry)

include permitted

theorem ChangesOne.insert :
    ChangesOne caller s (s.insertEntry dataset serviceId entry) dataset serviceId where
  elsewhere := fun _ _ other => by rw [getEntry_insertEntry, if_neg other]
  permitted := permitted

theorem ChangesOne.remove :
    ChangesOne caller s (s.removeEntry dataset serviceId) dataset serviceId where
  elsewhere := fun _ _ => getEntry_removeEntry_of_ne
  permitted := permitted

omit permitted

theorem ChangesOne.permitted_of_changed {t : RegistryService Card} {dataset' serviceId' : String}
    (changes : ChangesOne caller s t dataset' serviceId')
    (held : s.getEntry dataset serviceId = some entry)
    (changed : t.getEntry dataset serviceId ≠ some entry) : Permitted caller entry := by
  by_cases here : dataset = dataset' ∧ serviceId = serviceId'
  · obtain ⟨rfl, rfl⟩ := here
    exact changes.permitted entry held
  · exact absurd ((changes.elsewhere _ _ here).trans held) changed

theorem registerSkill_changes (zip : List UInt8) :
    (s.registerSkill naming o dataset zip (some caller)).2 = s ∨ ∃ serviceId, ChangesOne caller s
        (s.registerSkill naming o dataset zip (some caller)).2 dataset serviceId := by
  simp only [registerSkill]
  split
  · exact .inl rfl
  · split
    · exact .inl rfl
    · split
      · exact .inl rfl
      · rename_i skill _ _ passed
        refine .inr ⟨_, .insert fun entry held => ?_⟩
        rw [held] at passed
        exact permitted_of_ok passed

theorem entryToUpdate_eq_ok (found : s.entryToUpdate dataset serviceId (some caller) = .ok entry) :
    s.getEntry dataset serviceId = some entry ∧ Permitted caller entry := by
  rw [entryToUpdate] at found
  split at found
  · cases found
  · rename_i existing held
    split at found
    · cases found
    · rcases assertOwner_cases existing caller with ⟨passed, permitted⟩ | ⟨text, failed, -⟩
      · simp only [assertCaller, passed, bind, Except.bind, pure, Except.pure,
          Except.ok.injEq] at found
        exact ⟨found ▸ held, found ▸ permitted⟩
      · simp only [assertCaller, failed] at found
        cases found

theorem updateService_changes (updates : JsonDict) :
    (s.updateService naming o dataset serviceId updates (some caller)).2 = s ∨
      ChangesOne caller s (s.updateService naming o dataset serviceId updates (some caller)).2
        dataset serviceId := by
  simp only [updateService]
  split
  · exact .inl rfl
  · rename_i entry found
    obtain ⟨held, permitted⟩ := entryToUpdate_eq_ok found
    split
    · exact .inl rfl
    · split
      · exact .inl rfl
      · refine .inr (.insert fun existing there => ?_)
        rw [held] at there
        cases there
        exact permitted

theorem entryToRemove_eq_ok (found : s.entryToRemove dataset serviceId (some caller) = .ok entry) :
    s.getEntry dataset serviceId = some entry ∧ Permitted caller entry := by
  rw [entryToRemove] at found
  split at found
  · cases found
  · rename_i existing held
    split at found
    · cases found
    · cases found
    · rcases assertOwner_cases existing caller with ⟨passed, permitted⟩ | ⟨text, failed, -⟩
      · simp only [assertCaller, passed, bind, Except.bind, pure, Except.pure,
          Except.ok.injEq] at found
        exact ⟨found ▸ held, found ▸ permitted⟩
      · simp only [assertCaller, failed] at found
        cases found

theorem deregister_changes :
    (s.deregister o dataset serviceId (some caller)).2 = s ∨
      ChangesOne caller s (s.deregister o dataset serviceId (some caller)).2 dataset serviceId := by
  simp only [deregister]
  split
  · exact .inl rfl
  · rename_i entry found
    obtain ⟨held, permitted⟩ := entryToRemove_eq_ok found
    refine .inr (.remove fun existing there => ?_)
    rw [held] at there
    cases there
    exact permitted

theorem deregisterSkill_changes (name : String) :
    (s.deregisterSkill naming o dataset name (some caller)).2 = s ∨ ∃ serviceId, ChangesOne caller s
        (s.deregisterSkill naming o dataset name (some caller)).2 dataset serviceId := by
  simp only [deregisterSkill]
  split
  · exact .inl rfl
  · rename_i existing held
    split
    · exact .inl rfl
    · rename_i passed
      refine .inr ⟨_, .remove fun entry there => ?_⟩
      rw [held] at there
      cases there
      exact permitted_of_ok passed

variable {call : ServiceCall Card}

theorem run_changes (looks : call.looks = true) :
    (call.run naming o caller s).2 = s ∨ ∃ dataset serviceId,
      ChangesOne caller s (call.run naming o caller s).2 dataset serviceId := by
  cases call with
  | registerGeneric req => cases looks
  | registerA2aResolved req card cardUrl => cases looks
  | registerSkill dataset zip =>
    exact (registerSkill_changes zip).imp_right fun changes => ⟨dataset, changes⟩
  | updateService dataset serviceId updates =>
    exact (updateService_changes updates).imp_right fun changes => ⟨dataset, serviceId, changes⟩
  | deregister dataset serviceId =>
    exact deregister_changes.imp_right fun changes => ⟨dataset, serviceId, changes⟩
  | deregisterSkill dataset name =>
    exact (deregisterSkill_changes name).imp_right fun changes => ⟨dataset, changes⟩

theorem entry_kept (looks : call.looks = true)
    (held : s.getEntry dataset serviceId = some entry) (outsider : ¬Permitted caller entry) :
    (call.run naming o caller s).2.getEntry dataset serviceId = some entry := by
  by_contra changed
  have changes : (call.run naming o caller s).2 = s ∨ ∃ dataset serviceId,
      ChangesOne caller s (call.run naming o caller s).2 dataset serviceId := run_changes looks
  rcases changes with same | ⟨_, _, changes⟩
  · rw [same] at changed
    exact changed held
  · exact outsider (changes.permitted_of_changed held changed)

theorem saveSkillZip_of_uploaded {zip : List UInt8} {skill : SkillData}
    (uploaded : uploadedSkill o dataset zip = .ok skill) :
    o.saveSkillZip dataset zip = .ok skill := by
  rw [uploadedSkill] at uploaded
  cases initialized : o.ensureDatasetInitialized dataset with
  | error e => simp [initialized, bind, Except.bind] at uploaded
  | ok _ =>
    cases allowed : o.requireTypeAllowed dataset "skill" with
    | error e => simp [initialized, allowed, bind, Except.bind] at uploaded
    | ok _ =>
      cases saved : o.saveSkillZip dataset zip with
      | error e => simp [initialized, allowed, saved, bind, Except.bind] at uploaded
      | ok skill' =>
        cases valid : o.requireValid dataset "skill" skill'.toJson with
        | error e => simp [initialized, allowed, saved, valid, bind, Except.bind] at uploaded
        | ok _ =>
          simp only [initialized, allowed, saved, valid, bind, Except.bind, pure,
            Except.pure, Except.ok.injEq] at uploaded
          rw [uploaded]

theorem run_error (looks : call.looks = true)
    (held : s.getEntry dataset serviceId = some entry) (outsider : ¬Permitted caller entry)
    (on : call.On naming o dataset serviceId) : ∃ e, (call.run naming o caller s).1 = .error e ∧
      (call.refusal o caller entry = some e ∨
        call.refusal o caller entry = none ∧ ∃ text, e = .permission text) := by
  obtain ⟨text, failed, -⟩ := (assertOwner_cases entry caller).resolve_left
    fun passed => outsider passed.2
  cases call with
  | registerGeneric req => cases looks
  | registerA2aResolved req card cardUrl => cases looks
  | registerSkill d zip =>
    obtain ⟨rfl, skill, saved, rfl⟩ := on
    simp only [ServiceCall.run, registerSkill, ServiceCall.refusal]
    cases assertCanRegister (some caller) with
    | error e => exact ⟨e, rfl, .inl rfl⟩
    | ok _ =>
      cases uploaded : uploadedSkill o d zip with
      | error e => exact ⟨e, rfl, .inl rfl⟩
      | ok skill' =>
        cases (saveSkillZip_of_uploaded uploaded).symm.trans saved
        simp only [held, assertCaller, failed]
        exact ⟨_, rfl, .inr ⟨trivial, text, rfl⟩⟩
  | updateService d id updates =>
    obtain ⟨rfl, rfl⟩ := on
    simp only [ServiceCall.run, updateService, ServiceCall.refusal, entryToUpdate, held]
    by_cases user : entry.source = .userConfig
    · rw [if_pos user, if_pos user]
      exact ⟨_, rfl, .inl rfl⟩
    · rw [if_neg user, if_neg user]
      simp only [assertCaller, failed]
      exact ⟨_, rfl, .inr ⟨trivial, text, rfl⟩⟩
  | deregister d id =>
    obtain ⟨rfl, rfl⟩ := on
    simp only [ServiceCall.run, deregister, ServiceCall.refusal, entryToRemove, held]
    cases entry.source with
    | userConfig => exact ⟨_, rfl, .inl rfl⟩
    | skillFolder => exact ⟨_, rfl, .inl rfl⟩
    | apiConfig =>
      simp only [assertCaller, failed]
      exact ⟨_, rfl, .inr ⟨trivial, text, rfl⟩⟩
    | ephemeral =>
      simp only [assertCaller, failed]
      exact ⟨_, rfl, .inr ⟨trivial, text, rfl⟩⟩
  | deregisterSkill d name =>
    obtain ⟨rfl, rfl⟩ := on
    simp only [ServiceCall.run, deregisterSkill, ServiceCall.refusal, held, assertCaller, failed]
    exact ⟨_, rfl, .inr ⟨trivial, text, rfl⟩⟩

/-! ### Sequences of calls -/

/-- A call, its caller, and what the outside says to it. -/
structure Request (Card : Type) where
  outside : Outside Card
  caller : AuthContext
  call : ServiceCall Card

def step (naming : Naming Card) (s : RegistryService Card) (r : Request Card) :
    Option (RegistryService Card) :=
  some (r.call.run naming r.outside r.caller s).2

/-- A call that looks at the entries, by somebody who may not change the entry. -/
def Outsider (entry : RegistryEntry Card) (_ : RegistryService Card) (r : Request Card) : Prop :=
  r.call.looks = true ∧ ¬Permitted r.caller entry

def Has (dataset serviceId : String) (entry : RegistryEntry Card) (s : RegistryService Card) :
    Prop := s.getEntry dataset serviceId = some entry

theorem entry_survives {requests : List (Request Card)} {t : RegistryService Card}
    (run : Run (Under (Outsider entry) (Steps (step naming))) s requests t)
    (held : s.getEntry dataset serviceId = some entry) :
    t.getEntry dataset serviceId = some entry := by
  have kept : ∀ (s : RegistryService Card) (r : Request Card) (t : RegistryService Card),
      Has dataset serviceId entry s → Outsider entry s r → Steps (step naming) s r t →
      Has dataset serviceId entry t := by
    intro s r t held outsider stepped
    cases stepped
    exact entry_kept outsider.1 held outsider.2
  have survives : Has dataset serviceId entry t := run.invariant_under kept held
  exact survives

/-- An entry survives the calls of everybody who is not permitted, and they get an error. -/
theorem owner_protected (held : s.getEntry dataset serviceId = some entry) :
    (∀ (o : Outside Card) (caller : AuthContext) (call : ServiceCall Card), call.looks = true →
      ¬Permitted caller entry →
        (call.run naming o caller s).2.getEntry dataset serviceId = some entry ∧
        (call.On naming o dataset serviceId → ∃ e, (call.run naming o caller s).1 = .error e ∧
          (call.refusal o caller entry = some e ∨
            call.refusal o caller entry = none ∧ ∃ text, e = .permission text))) ∧
      ∀ (requests : List (Request Card)) (t : RegistryService Card),
        Run (Under (Outsider entry) (Steps (step naming))) s requests t →
          t.getEntry dataset serviceId = some entry :=
  ⟨fun _ _ _ looks outsider =>
    ⟨entry_kept looks held outsider, run_error looks held outsider⟩,
    fun _ _ run => entry_survives run held⟩

end RegistryService

/-! ### Two providers -/

namespace Hijack

def naming : Naming Unit where
  generateServiceId kind name := kind ++ "_" ++ name
  pyStr _ := ""
  cardName _ := "card"
  cardJson _ := []

/-- Every file operation and every check succeeds. -/
def willing : Outside Unit where
  ensureDatasetInitialized _ := .ok ()
  requireTypeAllowed _ _ := .ok ()
  requireValid _ _ _ := .ok ()
  saveSkillZip _ _ := .ok ⟨"k", "d", "", "skills/k", []⟩
  removeSkill _ _ := .ok ()
  renameSkill _ _ _ := .ok ()
  updateSkillMd _ _ _ := .ok ()
  saveApiEntry _ _ := .ok ()
  removeApiEntry _ _ := .ok ()
  regenerateOutput _ := .ok ()
  genericOfJson _ := .error "no name"
  cardOfJson _ := .ok ()
  skillOfJson _ := .error "no name"

def provider : AuthContext := ⟨"u_p", .provider⟩

def other : AuthContext := ⟨"u_o", .provider⟩

def request : RegisterGenericRequest :=
  ⟨some "svc", "ds", "n", "d", [], "", false, none⟩

def configured : RegistryEntry Unit :=
  { serviceId := "fix"
    type := .generic
    source := .userConfig
    ownerId := none
    leaseTtl := none }

/-- The service of `provider` and an entry of the configuration file. -/
def services : RegistryService Unit :=
  ((RegistryService.mk .empty).registerGeneric naming willing request (some provider)).2.insertEntry
    "ds" "fix" configured

/-- `other` registers over the service of `provider`. -/
theorem registered_over :
    (services.getEntry "ds" "svc").map RegistryEntry.ownerId = some (some "u_p") ∧
    ((services.registerGeneric naming willing request (some other)).2.getEntry "ds" "svc").map
      RegistryEntry.ownerId = some (some "u_o") ∧
    ¬∃ text, (services.updateService naming willing "ds" "fix" [] (some other)).1 =
      .error (.permission text) := by
  refine ⟨by decide, by decide, ?_⟩
  rintro ⟨text, same⟩
  cases same

/-- `other` cannot deregister it. -/
theorem deregister_refused : ∃ entry,
    services.getEntry "ds" "svc" = some entry ∧
    (services.deregister willing "ds" "svc" (some other)).2.getEntry "ds" "svc" = some entry := by
  obtain ⟨entry, held⟩ := Option.isSome_iff_exists.mp
    (by decide : (services.getEntry "ds" "svc").isSome)
  have owner : (services.getEntry "ds" "svc").map RegistryEntry.ownerId = some (some "u_p") := by
    decide
  rw [held] at owner
  have outsider : ¬Permitted other entry := by
    rintro (admin | same)
    · cases admin
    · rw [Option.map_some, same] at owner
      exact absurd owner (by decide)
  have kept : ((ServiceCall.deregister "ds" "svc").run naming willing other services).2.getEntry
      "ds" "svc" = some entry :=
    ((RegistryService.owner_protected held).1 willing other _ rfl outsider).1
  exact ⟨entry, held, kept⟩

end Hijack

end AgentProtocols.Registry
