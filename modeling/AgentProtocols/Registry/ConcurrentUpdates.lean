import AgentProtocols.Lib.Runs
import AgentProtocols.Registry.AgentCard

/-!
Concurrent calls of `update_service`, each a reading section and a storing one.

* `update_values_kept` — in every run whose stores find the entry that their call read, the updates
  of a call stay as long as no other call names the same keys, and no store changes the owner.
* `update_lost` — with two readings before the first store, the first update is lost.
-/

namespace AgentProtocols.Registry

open Lib

/-! ### Cards in the service -/

def Naming.ofCards (naming : Naming AgentCard) : Naming AgentCard :=
  { naming with
    cardName := AgentCard.name
    cardJson := fun c => c.toJson .full }

/-- What `serde` says to an object that it reads, or cannot read. -/
def readAs {α : Type} (errorText : JsonDict → String) (read : JsonDict → Option α)
    (d : JsonDict) : Except String α :=
  match read d with
  | none => .error (errorText d)
  | some a => .ok a

/-- Objects are read by `serde`. -/
def Outside.serde (o : Outside AgentCard) (errorText : JsonDict → String) : Outside AgentCard :=
  { o with
    genericOfJson := readAs errorText GenericServiceData.fromJson
    cardOfJson := readAs errorText AgentCard.fromValue }

theorem readAs_eq_ok {α : Type} {errorText : JsonDict → String} {read : JsonDict → Option α}
    {d : JsonDict} {a : α} : readAs errorText read d = .ok a ↔ read d = some a := by
  unfold readAs
  cases read d <;> simp

/-! ### The state -/

/-- How far a call has got. -/
inductive UpdatePlace where
  | called
  | read (entry : RegistryEntry AgentCard)
  | stored (entry : RegistryEntry AgentCard) (changed : List String)
  | returned (answer : Except RegistryError Answer)

/-- A call of `update_service`; the keys of its updates are distinct. -/
structure UpdateCall where
  dataset : String
  serviceId : String
  updates : JsonDict
  caller : Option AuthContext
  place : UpdatePlace
  distinct : (updates.map Prod.fst).Nodup

structure UpdatingService where
  service : RegistryService AgentCard
  calls : List UpdateCall

/-- The next section of a call, or one that registers or removes an entry. -/
inductive UpdateSection where
  | call (call : UpdateCall)
  | read (c : Nat)
  | store (c : Nat) (o : Outside AgentCard)
  | finish (c : Nat) (o : Outside AgentCard)
  | register (dataset : String) (entry : RegistryEntry AgentCard)
  | remove (dataset serviceId : String)

namespace UpdateCall

def goes (call : UpdateCall) (place : UpdatePlace) : UpdateCall := { call with place }

end UpdateCall

namespace UpdatingService

open RegistryService

variable (naming : Naming AgentCard) (errorText : JsonDict → String) (s : UpdatingService)

def setCall (c : Nat) (call : UpdateCall) : UpdatingService :=
  { s with calls := s.calls.set c call }

/-- The first section. -/
def readEntry (call : UpdateCall) : UpdatePlace :=
  match s.service.entryToUpdate call.dataset call.serviceId call.caller with
  | .error e => .returned (.error e)
  | .ok entry => .read entry

/-- The merge and the second section. -/
def storeEntry (c : Nat) (call : UpdateCall) (entry : RegistryEntry AgentCard)
    (o : Outside AgentCard) : UpdatingService :=
  match applyUpdates naming.ofCards (o.serde errorText) call.dataset entry call.updates with
  | .error e => s.setCall c (call.goes (.returned (.error e)))
  | .ok (newEntry, changed) =>
    if (s.service.getEntry call.dataset call.serviceId).isNone then
      s.setCall c (call.goes (.returned (.error (.notFound ("Service '" ++ call.serviceId ++
        "' was removed during update in dataset '" ++ call.dataset ++ "'")))))
    else
      { s.setCall c (call.goes (.stored newEntry changed)) with
        service := s.service.insertEntry call.dataset call.serviceId newEntry }

/-- The files after the second section. -/
def answerTo (call : UpdateCall) (entry : RegistryEntry AgentCard) (changed : List String)
    (o : Outside AgentCard) : Except RegistryError Answer := do
  if entry.source = .apiConfig then o.saveApiEntry call.dataset entry
  o.regenerateOutput call.dataset
  return .update call.serviceId call.dataset (sorted changed)
    (changed.contains "name" || changed.contains "description")

def step : UpdateSection → Option UpdatingService
  | .call call => some { s with calls := s.calls ++ [call.goes .called] }
  | .read c => do
    let call ← s.calls[c]?
    match call.place with
    | .called => some (s.setCall c (call.goes (s.readEntry call)))
    | _ => none
  | .store c o => do
    let call ← s.calls[c]?
    match call.place with
    | .read entry => some (s.storeEntry naming errorText c call entry o)
    | _ => none
  | .finish c o => do
    let call ← s.calls[c]?
    match call.place with
    | .stored entry changed =>
      some (s.setCall c (call.goes (.returned (answerTo call entry changed o))))
    | _ => none
  | .register dataset entry =>
    some { s with service := s.service.insertEntry dataset entry.serviceId entry }
  | .remove dataset serviceId =>
    some { s with service := s.service.removeEntry dataset serviceId }

/-- A store finds the entry that its call has read, or none. -/
def Fresh : UpdateSection → Prop
  | .store c _ => ∀ call entry now, s.calls[c]? = some call → call.place = .read entry →
      s.service.getEntry call.dataset call.serviceId = some now → now = entry
  | _ => True

end UpdatingService

/-! ### What an update stores -/

/-- The members of a generic or a2a entry that an update may name. -/
def RegistryEntry.content (entry : RegistryEntry AgentCard) : JsonDict :=
  match entry.type with
  | .generic => (entry.serviceData.map GenericServiceData.toJson).getD []
  | .a2a => (entry.agentCard.map fun c => c.toJson .full).getD []
  | .skill => []

/-- The value of an update as an entry keeps it. -/
def ServiceType.keptValue (type : ServiceType) (key : String) (v : Json) : Json :=
  match type with
  | .a2a => AgentCard.keptValue key v
  | _ => v

def RegistryEntry.Carries (entry : RegistryEntry AgentCard) (updates : JsonDict) : Prop :=
  ∀ key v, updates.get key = some v → entry.content.get key = some (entry.type.keptValue key v)

namespace RegistryService

theorem get_mergeUpdates {updates : JsonDict} (distinct : (updates.map Prod.fst).Nodup)
    (current : JsonDict) (key : String) :
    (mergeUpdates current updates).get key = (updates.get key).or (current.get key) := by
  induction updates generalizing current with
  | nil => rfl
  | cons e rest ih =>
    obtain ⟨k, v⟩ := e
    rw [List.map_cons, List.nodup_cons] at distinct
    change (mergeUpdates (current.insert k v) rest).get key = _
    rw [ih distinct.2]
    by_cases here : key = k
    · subst here
      have absent : JsonDict.get rest key = none :=
        List.lookup_eq_none_iff.mpr fun p mem => bne_iff_ne.mpr fun same =>
          distinct.1 (List.mem_map.mpr ⟨p, mem, same.symm⟩)
      rw [absent, JsonDict.get_insert_self]
      simp [JsonDict.get]
    · have other : (key == k) = false := beq_eq_false_iff_ne.mpr here
      rw [JsonDict.get_insert_of_ne v here]
      simp only [JsonDict.get, List.lookup_cons, other]

theorem checkUnknown_eq_ok {updates : JsonDict} {allowed : List String} {kind : String} {u : Unit}
    (checked : checkUnknown updates allowed kind = .ok u) {key : String} {v : Json}
    (named : updates.get key = some v) : key ∈ allowed := by
  unfold checkUnknown at checked
  dsimp only at checked
  split at checked
  · rename_i none_unknown
    by_contra unknown
    obtain ⟨before, after, same, -⟩ := List.lookup_eq_some_iff.mp named
    have mem : key ∈ (updates.map Prod.fst).filter fun k => !allowed.contains k :=
      List.mem_filter.mpr ⟨List.mem_map.mpr ⟨(key, v), by simp [same], rfl⟩, by simpa using unknown⟩
    rw [List.isEmpty_iff.mp none_unknown] at mem
    cases mem
  · cases checked

variable {naming : Naming AgentCard} {errorText : JsonDict → String} {o : Outside AgentCard}
  {dataset : String} {entry newEntry : RegistryEntry AgentCard} {updates : JsonDict}
  {changed : List String}

structure Updated (updates : JsonDict) (entry newEntry : RegistryEntry AgentCard) : Prop where
  type : newEntry.type = entry.type
  ownerId : newEntry.ownerId = entry.ownerId
  carries : entry.type ≠ .skill → newEntry.Carries updates
  keeps : entry.type ≠ .skill → ∀ key v, updates.get key = none →
    entry.content.get key = some v → newEntry.content.get key = some v

theorem applyGenericUpdates_updated (distinct : (updates.map Prod.fst).Nodup)
    (is_type : entry.type = .generic)
    (applied : applyGenericUpdates (o.serde errorText) entry updates = .ok (newEntry, changed)) :
    Updated updates entry newEntry := by
  obtain ⟨_, checked, applied⟩ := bind_eq_ok.mp applied
  dsimp only at applied
  split at applied
  · cases applied
  · rename_i data read
    cases applied
    have read := readAs_eq_ok.mp read
    have old : entry.content = (entry.serviceData.map GenericServiceData.toJson).getD [] := by
      rw [RegistryEntry.content, is_type]
    have new : RegistryEntry.content { entry with serviceData := some data } = data.toJson := by
      simp [RegistryEntry.content, is_type]
    refine ⟨rfl, rfl, fun _ key v named => ?_, fun _ key v unnamed found => ?_⟩
    · rw [is_type]
      refine GenericServiceData.get_toJson read (checkUnknown_eq_ok checked named) ?_
      rw [get_mergeUpdates distinct, named]
      rfl
    · rw [new]
      rw [old] at found
      have known : key ∈ GenericServiceData.fields := by
        cases data : entry.serviceData with
        | none =>
          rw [data] at found
          cases found
        | some g =>
          rw [data] at found
          by_contra unknown
          cases (GenericServiceData.get_toJson_of_unknown unknown).symm.trans found
      refine GenericServiceData.get_toJson read known ?_
      rw [get_mergeUpdates distinct, unnamed, Option.none_or, found]

theorem applyA2aUpdates_updated (distinct : (updates.map Prod.fst).Nodup)
    (is_type : entry.type = .a2a)
    (applied : applyA2aUpdates naming.ofCards (o.serde errorText) entry updates =
      .ok (newEntry, changed)) : Updated updates entry newEntry := by
  unfold applyA2aUpdates at applied
  split at applied
  · cases applied
  · rename_i card has
    dsimp only at applied
    split at applied
    · cases applied
    · rename_i newCard read
      cases applied
      have read := readAs_eq_ok.mp read
      have old : entry.content = card.toJson .full := by
        rw [RegistryEntry.content, is_type, has]
        rfl
      have new : RegistryEntry.content { entry with agentCard := some newCard } =
          newCard.toJson .full := by
        simp [RegistryEntry.content, is_type]
      refine ⟨rfl, rfl, fun _ key v named => ?_, fun _ key v unnamed found => ?_⟩
      · rw [is_type]
        refine AgentCard.get_toJson read ?_
        rw [get_mergeUpdates distinct, named, Option.some_or]
      · rw [new]
        rw [old] at found
        have merged : (mergeUpdates (card.toJson .full) updates).get key = some v := by
          rw [get_mergeUpdates distinct, unnamed, Option.none_or, found]
        rw [AgentCard.get_toJson read merged, AgentCard.keptValue_get_toJson found]

variable (applied : applySkillUpdates naming o dataset entry updates = .ok (newEntry, changed))

include applied

theorem applySkillUpdates_reads :
    ∃ skill data d, entry.skillData = some skill ∧ changed = changedKeys skill.toJson updates ∧
      o.skillOfJson d = .ok data ∧
      (∀ key, key ≠ "skill_path" → d.get key = (mergeUpdates skill.toJson updates).get key) ∧
      newEntry = { entry with skillData := some data } := by
  obtain ⟨_, -, applied⟩ := bind_eq_ok.mp applied
  split at applied
  · cases applied
  · rename_i skill has
    have same : ∀ key, key ≠ "skill_path" → (mergeUpdates skill.toJson updates).get key =
          (mergeUpdates skill.toJson updates).get key := fun _ _ => rfl
    dsimp only at applied
    split at applied
    · obtain ⟨_, -, merged, renamed, applied⟩ := bind₂_eq_ok.mp applied
      cases renamed
      have others := fun key (other : key ≠ "skill_path") => JsonDict.get_insert_of_ne
        (d := mergeUpdates skill.toJson updates) (.str ("skills/" ++ naming.pyStr
          (((mergeUpdates skill.toJson updates).get "name").getD .null))) other
      split at applied
      · obtain ⟨_, -, applied⟩ := bind_eq_ok.mp applied
        split at applied <;> cases applied
        exact ⟨skill, _, _, has, rfl, ‹_›, others, rfl⟩
      · split at applied <;> cases applied
        exact ⟨skill, _, _, has, rfl, ‹_›, others, rfl⟩
    · obtain ⟨merged, kept, applied⟩ := bind_eq_ok.mp applied
      cases kept
      split at applied
      · obtain ⟨_, -, applied⟩ := bind_eq_ok.mp applied
        split at applied <;> cases applied
        exact ⟨skill, _, _, has, rfl, ‹_›, same, rfl⟩
      · split at applied <;> cases applied
        exact ⟨skill, _, _, has, rfl, ‹_›, same, rfl⟩

theorem applySkillUpdates_eq : ∃ data, newEntry = { entry with skillData := some data } := by
  obtain ⟨_, data, _, -, -, -, -, same⟩ := applySkillUpdates_reads applied
  exact ⟨data, same⟩

omit applied

theorem applyUpdates_eq
    (applied : applyUpdates naming o dataset entry updates = .ok (newEntry, changed)) :
    (entry.type = .generic ∧ ∃ data, newEntry = { entry with serviceData := some data }) ∨
    (entry.type = .a2a ∧ ∃ card, newEntry = { entry with agentCard := some card }) ∨
    (entry.type = .skill ∧ ∃ data, newEntry = { entry with skillData := some data }) := by
  unfold applyUpdates at applied
  split at applied
  · rename_i is_type
    obtain ⟨_, -, applied⟩ := bind_eq_ok.mp applied
    dsimp only at applied
    split at applied
    · cases applied
    · cases applied
      exact .inl ⟨is_type, _, rfl⟩
  · rename_i is_type
    unfold applyA2aUpdates at applied
    split at applied
    · cases applied
    · dsimp only at applied
      split at applied
      · cases applied
      · cases applied
        exact .inr (.inl ⟨is_type, _, rfl⟩)
  · rename_i is_type
    exact .inr (.inr ⟨is_type, applySkillUpdates_eq applied⟩)

/-- **What is stored carries the updates and keeps the other members.** -/
theorem applyUpdates_updated (distinct : (updates.map Prod.fst).Nodup)
    (applied : applyUpdates naming.ofCards (o.serde errorText) dataset entry updates =
      .ok (newEntry, changed)) : Updated updates entry newEntry := by
  unfold applyUpdates at applied
  cases is_type : entry.type with
  | generic =>
    rw [is_type] at applied
    exact applyGenericUpdates_updated distinct is_type applied
  | a2a =>
    rw [is_type] at applied
    exact applyA2aUpdates_updated distinct is_type applied
  | skill =>
    rw [is_type] at applied
    obtain ⟨data, rfl⟩ := applySkillUpdates_eq applied
    exact ⟨rfl, rfl, fun other => absurd is_type other, fun other => absurd is_type other⟩

end RegistryService

/-! ### Runs -/

/-- The second section has stored the entry, and no file operation after it has failed. -/
def UpdatePlace.hasStored : UpdatePlace → Prop
  | .stored .. | .returned (.ok _) => True
  | _ => False

/-- A section that registers or removes the entry. -/
def UpdateSection.Replaces (l : UpdateSection) (dataset serviceId : String) : Prop :=
  match l with
  | .register dataset' entry => dataset' = dataset ∧ entry.serviceId = serviceId
  | .remove dataset' serviceId' => dataset' = dataset ∧ serviceId' = serviceId
  | _ => False

def UpdateCall.SameEntry (call other : UpdateCall) : Prop :=
  other.dataset = call.dataset ∧ other.serviceId = call.serviceId

def UpdateCall.keys (call : UpdateCall) : List String := call.updates.map Prod.fst

namespace UpdatingService

open RegistryService

variable {naming : Naming AgentCard} {errorText : JsonDict → String}
  {s s' : UpdatingService} {l : UpdateSection} {c d : Nat} {call other : UpdateCall}

/-- The updates of the call are in the entry once it has stored. -/
def Kept (c : Nat) (s : UpdatingService) : Prop :=
  ∀ call, s.calls[c]? = some call → call.place.hasStored →
    ∃ entry, s.service.getEntry call.dataset call.serviceId = some entry ∧
      (entry.type ≠ .skill → entry.Carries call.updates)

/-- No other call for the entry names a key of the call. -/
def Alone (c : Nat) (s : UpdatingService) : Prop :=
  ∀ d call other, s.calls[c]? = some call → s.calls[d]? = some other → d ≠ c →
    call.SameEntry other → call.keys.Disjoint other.keys

theorem readEntry_hasStored (s : UpdatingService) (call : UpdateCall) :
    ¬(s.readEntry call).hasStored := by
  unfold readEntry
  split <;> exact id

inductive Effect (s : UpdatingService) (l : UpdateSection) : UpdatingService → Prop where
  | joins (call : UpdateCall) : Effect s l { s with calls := s.calls ++ [call.goes .called] }
  | moves {d : Nat} {call : UpdateCall} {place : UpdatePlace} : s.calls[d]? = some call →
      (place.hasStored → call.place.hasStored) → Effect s l (s.setCall d (call.goes place))
  | stores {d : Nat} {call : UpdateCall} {o : Outside AgentCard}
      {read old newEntry : RegistryEntry AgentCard} {changed : List String} :
      l = .store d o → s.calls[d]? = some call → call.place = .read read →
      s.service.getEntry call.dataset call.serviceId = some old →
      Updated call.updates read newEntry →
      Effect s l { s.setCall d (call.goes (.stored newEntry changed)) with
        service := s.service.insertEntry call.dataset call.serviceId newEntry }
  | replaces {service : RegistryService AgentCard} :
      (∀ dataset serviceId, ¬l.Replaces dataset serviceId →
        service.getEntry dataset serviceId = s.service.getEntry dataset serviceId) →
      Effect s l { s with service }

theorem effect_of_step (step : s.step naming errorText l = some s') : Effect s l s' := by
  cases l with
  | call new =>
    cases step
    exact .joins new
  | read d =>
    simp only [UpdatingService.step, bind_eq_some] at step
    obtain ⟨call, at_d, step⟩ := step
    split at step
    · cases step
      exact .moves at_d fun stored => absurd stored (readEntry_hasStored s call)
    · cases step
  | store d o =>
    simp only [UpdatingService.step, bind_eq_some] at step
    obtain ⟨call, at_d, step⟩ := step
    split at step
    · rename_i entry at_place
      cases step
      unfold storeEntry
      split
      · exact .moves at_d False.elim
      · rename_i newEntry changed applied
        split
        · exact .moves at_d False.elim
        · rename_i present
          obtain ⟨old, found⟩ := Option.ne_none_iff_exists'.mp
            (mt Option.isNone_iff_eq_none.mpr present)
          exact .stores rfl at_d at_place found (applyUpdates_updated call.distinct applied)
    · cases step
  | finish d o =>
    simp only [UpdatingService.step, bind_eq_some] at step
    obtain ⟨call, at_d, step⟩ := step
    split at step
    · rename_i at_place
      cases step
      refine .moves at_d fun _ => ?_
      rw [at_place]
      trivial
    · cases step
  | register dataset entry =>
    cases step
    refine .replaces fun dataset' serviceId' other => ?_
    rw [getEntry_insertEntry, if_neg fun here => other ⟨here.1.symm, here.2.symm⟩]
  | remove dataset serviceId =>
    cases step
    exact .replaces fun dataset' serviceId' other =>
      getEntry_removeEntry_of_ne fun here => other ⟨here.1.symm, here.2.symm⟩

theorem step_call (step : s.step naming errorText l = some s') (at_c : s.calls[c]? = some call) :
    ∃ place, s'.calls[c]? = some (call.goes place) := by
  have set : ∀ {d other place}, s.calls[d]? = some other →
      ∃ place', (s.calls.set d (other.goes place))[c]? = some (call.goes place') := by
    intro d other place at_d
    by_cases here : d = c
    · subst here
      cases at_c.symm.trans at_d
      obtain ⟨below, -⟩ := List.getElem?_eq_some_iff.mp at_c
      exact ⟨place, List.getElem?_set_self below⟩
    · exact ⟨call.place, (List.getElem?_set_ne here).trans at_c⟩
  cases effect_of_step step with
  | joins new =>
    obtain ⟨below, -⟩ := List.getElem?_eq_some_iff.mp at_c
    exact ⟨call.place, (List.getElem?_append_left below).trans at_c⟩
  | moves at_d => exact set at_d
  | stores _ at_d => exact set at_d
  | replaces => exact ⟨call.place, at_c⟩

variable {ls : List UpdateSection}

theorem run_call (run : Run (Steps (step naming errorText)) s ls s')
    (at_c : s.calls[c]? = some call) : ∃ place, s'.calls[c]? = some (call.goes place) := by
  induction run generalizing call with
  | nil => exact ⟨call.place, at_c⟩
  | cons step rest ih =>
    obtain ⟨place, at_c⟩ := step_call step at_c
    have after := ih at_c
    exact after

theorem Alone.before (alone : Alone c s')
    (run : Run (Steps (step naming errorText)) s ls s') : Alone c s := by
  intro d call other at_c at_d ne same
  obtain ⟨place, at_c⟩ := run_call run at_c
  obtain ⟨place', at_d⟩ := run_call run at_d
  have apart := alone d _ _ at_c at_d ne same
  exact apart

theorem carries_of_updated {read newEntry : RegistryEntry AgentCard} {updates updates' : JsonDict}
    (updated : Updated updates' read newEntry)
    (apart : (updates.map Prod.fst).Disjoint (updates'.map Prod.fst))
    (carries : read.type ≠ .skill → read.Carries updates) (other : newEntry.type ≠ .skill) :
    newEntry.Carries updates := by
  rw [updated.type] at other
  intro key v named
  rw [updated.type]
  refine updated.keeps other key _ ?_ (carries other key v named)
  refine List.lookup_eq_none_iff.mpr fun e mem => bne_iff_ne.mpr fun same => ?_
  obtain ⟨before, after, is_updates, -⟩ := List.lookup_eq_some_iff.mp named
  exact apart (List.mem_map.mpr ⟨(key, v), by simp [is_updates], rfl⟩)
    (List.mem_map.mpr ⟨e, mem, same.symm⟩)

theorem Kept.step (kept : Kept c s) (fresh : s.Fresh l) (alone : Alone c s)
    (unreplaced : ∀ call, s.calls[c]? = some call → ¬l.Replaces call.dataset call.serviceId)
    (step : s.step naming errorText l = some s') : Kept c s' := by
  intro call at_c stored
  cases effect_of_step step with
  | joins new =>
    rcases getElem?_concat_cases at_c with old | ⟨-, rfl⟩
    · exact kept call old stored
    · exact stored.elim
  | moves at_d was =>
    rcases getElem?_set_cases at_c with ⟨rfl, rfl⟩ | ⟨-, old⟩
    · have there := kept _ at_d (was stored)
      exact there
    · exact kept call old stored
  | replaces same =>
    obtain ⟨entry, found, carries⟩ := kept call at_c stored
    exact ⟨entry, (same _ _ (unreplaced call at_c)).trans found, carries⟩
  | stores is_store at_d at_place found updated =>
    rename_i d storing o read old newEntry changed
    subst is_store
    have is_read : old = read := fresh storing read old at_d at_place found
    subst is_read
    rcases getElem?_set_cases at_c with ⟨rfl, rfl⟩ | ⟨ne, was⟩
    · refine ⟨newEntry, getEntry_insertEntry.trans (if_pos ⟨rfl, rfl⟩), fun other => ?_⟩
      exact updated.carries fun skill => other (updated.type.trans skill)
    · obtain ⟨entry, there, carries⟩ := kept call was stored
      by_cases same : call.SameEntry storing
      · obtain ⟨same_dataset, same_id⟩ := same
        rw [← same_dataset, ← same_id] at there
        cases found.symm.trans there
        refine ⟨newEntry, ?_, carries_of_updated updated
          (alone d call storing was at_d ne.symm ⟨same_dataset, same_id⟩) carries⟩
        exact getEntry_insertEntry.trans (if_pos ⟨same_dataset.symm, same_id.symm⟩)
      · refine ⟨entry, getEntry_insertEntry.trans ((if_neg fun here => ?_).trans there), carries⟩
        exact same ⟨here.1.symm, here.2.symm⟩

theorem Kept.run (run : Run (Under Fresh (Steps (UpdatingService.step naming errorText))) s ls s')
    (kept : Kept c s) (alone : Alone c s') (unreplaced : ∀ call, s'.calls[c]? = some call →
      ∀ l ∈ ls, ¬l.Replaces call.dataset call.serviceId) : Kept c s' := by
  induction run with
  | nil => exact kept
  | cons step rest ih =>
    have whole := Run.cons step.2 rest.of_under
    refine ih (kept.step step.1 (alone.before whole) (fun call at_c => ?_) step.2) alone
      fun call at_c l mem => unreplaced call at_c l (.tail _ mem)
    obtain ⟨place, at_c⟩ := run_call whole at_c
    exact unreplaced _ at_c _ (.head _)

/-- **No update is lost and no owner changes** where stores find what their call has read. -/
theorem update_values_kept {ls : List UpdateSection}
    (run : Run (Under Fresh (Steps (UpdatingService.step naming errorText))) s ls s') :
    (∀ c call answer, s'.calls[c]? = some call → call.place = .returned (.ok answer) →
      (∀ was, s.calls[c]? = some was → ¬was.place.hasStored) → Alone c s' →
      (∀ l ∈ ls, ¬l.Replaces call.dataset call.serviceId) →
      ∃ entry, s'.service.getEntry call.dataset call.serviceId = some entry ∧
        (entry.type ≠ .skill → entry.Carries call.updates)) ∧
    ∀ before d o after, ls = before ++ .store d o :: after → ∃ mid next,
      Run (Under Fresh (Steps (UpdatingService.step naming errorText))) s before mid ∧
      mid.step naming errorText (.store d o) = some next ∧
      ∀ dataset serviceId entry, next.service.getEntry dataset serviceId = some entry →
        ∃ old, mid.service.getEntry dataset serviceId = some old ∧
          entry.ownerId = old.ownerId := by
  constructor
  · intro c call answer at_c returned unstored alone unreplaced
    have kept : Kept c s := fun was at_c stored => absurd stored (unstored was at_c)
    refine kept.run run alone (fun call' at_c' => ?_) call at_c ?_
    · cases at_c.symm.trans at_c'
      exact unreplaced
    · rw [returned]
      trivial
  · rintro before d o after rfl
    obtain ⟨mid, first, rest⟩ := run.split
    obtain ⟨next, ⟨fresh, step⟩, -⟩ := rest.cons_inv
    refine ⟨mid, next, first, step, fun dataset serviceId entry found => ?_⟩
    cases effect_of_step step with
    | joins => exact ⟨entry, found, rfl⟩
    | moves => exact ⟨entry, found, rfl⟩
    | replaces same => exact ⟨entry, (same _ _ id).symm.trans found, rfl⟩
    | stores is_store at_d at_place there updated =>
      cases is_store
      cases fresh _ _ _ at_d at_place there
      change (mid.service.insertEntry _ _ _).getEntry _ _ = some entry at found
      rw [getEntry_insertEntry] at found
      split at found
      · rename_i here
        cases found
        exact ⟨_, here.1 ▸ here.2 ▸ there, updated.ownerId⟩
      · exact ⟨entry, found, rfl⟩

end UpdatingService

/-! ### Two updates of one service -/

namespace LostUpdate

open UpdatingService

def naming : Naming AgentCard where
  generateServiceId kind name := kind ++ "_" ++ name
  pyStr _ := ""
  cardName := AgentCard.name
  cardJson _ := []

/-- Every file operation and every check succeeds. -/
def willing : Outside AgentCard where
  ensureDatasetInitialized _ := .ok ()
  requireTypeAllowed _ _ := .ok ()
  requireValid _ _ _ := .ok ()
  saveSkillZip _ _ := .ok ⟨"k", "d", "", "skills/k", []⟩
  removeSkill _ _ := .ok ()
  renameSkill _ _ _ := .ok ()
  updateSkillMd _ _ _ := .ok ()
  saveApiEntry _ _ := .ok ()
  removeApiEntry _ _ := .ok ()
  regenerateOutput _ := .ok ()
  genericOfJson _ := .error ""
  cardOfJson _ := .error ""
  skillOfJson _ := .error ""

def errorText (_ : JsonDict) : String := "invalid"

def serviceOf (owner : String) : RegistryEntry AgentCard where
  serviceId := "svc"
  type := .generic
  source := .ephemeral
  serviceData := some ⟨"n", "d", [], some "u"⟩
  ownerId := some owner
  leaseTtl := none

def start : UpdatingService :=
  ⟨(RegistryService.mk .empty).insertEntry "ds" "svc" (serviceOf "u_p"), []⟩

def provider : AuthContext := ⟨"u_p", .provider⟩

def describe : UpdateCall where
  dataset := "ds"
  serviceId := "svc"
  updates := [("description", .str "new")]
  caller := some provider
  place := .called
  distinct := List.nodup_singleton _

def link : UpdateCall where
  dataset := "ds"
  serviceId := "svc"
  updates := [("url", .str "v")]
  caller := some provider
  place := .called
  distinct := List.nodup_singleton _

/-- The second call reads after the first has stored. -/
def inTurn : List UpdateSection :=
  [.call describe, .call link, .read 0, .store 0 willing, .read 1, .store 1 willing,
    .finish 0 willing, .finish 1 willing]

/-- Both calls read before the first stores. -/
def atOnce : List UpdateSection :=
  [.call describe, .call link, .read 0, .read 1, .store 0 willing, .store 1 willing,
    .finish 0 willing, .finish 1 willing]

/-- The service is removed and registered by another owner between the sections of a call. -/
def reregistered : List UpdateSection :=
  [.call describe, .read 0, .remove "ds" "svc", .register "ds" (serviceOf "u_o"),
    .store 0 willing, .finish 0 willing]

theorem keys_disjoint : describe.keys.Disjoint link.keys := by
  intro key mem mem'
  cases List.mem_singleton.mp mem
  exact absurd (List.mem_singleton.mp mem') (by decide)

/-- The old description comes back, and the service of another owner is overwritten. -/
theorem update_lost :
    (∃ s, Run (Steps (step naming errorText)) start atOnce s ∧
      (s.calls.map fun call => call.place matches .returned (.ok _)) = [true, true] ∧
      describe.keys.Disjoint link.keys ∧
      ∃ entry, s.service.getEntry "ds" "svc" = some entry ∧ entry.type = .generic ∧
        ¬entry.Carries describe.updates) ∧
    ∃ s, Run (Steps (step naming errorText)) start reregistered s ∧
      (s.calls.map fun call => call.place matches .returned (.ok _)) = [true] ∧
      (s.service.getEntry "ds" "svc").map RegistryEntry.ownerId = some (some "u_p") := by
  refine ⟨⟨_, run_of_foldlM rfl, rfl, keys_disjoint, _, rfl, rfl, fun carries => ?_⟩,
    _, run_of_foldlM rfl, rfl, rfl⟩
  have carried : some (Json.str "d") = some (.str "new") :=
    carries "description" (.str "new") rfl
  exact absurd (Json.str.inj (Option.some.inj carried)) (by decide)

/-- In turn both updates are in the service. -/
theorem updates_in_turn : ∃ s,
    Run (Under Fresh (Steps (step naming errorText))) start inTurn s ∧
    ∃ entry, s.service.getEntry "ds" "svc" = some entry ∧ entry.type = .generic ∧
      entry.Carries describe.updates := by
  have fresh : ∀ {s : UpdatingService} {c o call entry}, s.calls[c]? = some call →
      call.place = .read entry →
      s.service.getEntry call.dataset call.serviceId = some entry → s.Fresh (.store c o) := by
    intro s c o call entry at_c at_place there call' entry' now at_c' at_place' found
    cases at_c.symm.trans at_c'
    cases at_place.symm.trans at_place'
    exact Option.some.inj (found.symm.trans there)
  have run : Run (Under Fresh (Steps (step naming errorText))) start inTurn _ :=
    .cons ⟨trivial, rfl⟩ (.cons ⟨trivial, rfl⟩ (.cons ⟨trivial, rfl⟩
      (.cons ⟨fresh rfl rfl rfl, rfl⟩ (.cons ⟨trivial, rfl⟩ (.cons ⟨fresh rfl rfl rfl, rfl⟩
        (.cons ⟨trivial, rfl⟩ (.cons ⟨trivial, rfl⟩ (.nil _))))))))
  refine ⟨_, run, ?_⟩
  have kept := (update_values_kept run).1 0 _ _ rfl rfl ?_ ?_ ?_
  · obtain ⟨entry, found, carries⟩ := kept
    have is_type : entry.type = .generic := by
      cases found
      rfl
    exact ⟨entry, found, is_type, carries (by rw [is_type]; rintro ⟨⟩)⟩
  · rintro was ⟨⟩
  · intro d call other at_c at_d ne same
    cases at_c
    match d, at_d with
    | 0, _ => exact absurd rfl ne
    | 1, at_d =>
      cases at_d
      exact keys_disjoint
  · intro l mem replaced
    simp only [inTurn, List.mem_cons, List.not_mem_nil, or_false] at mem
    rcases mem with rfl | rfl | rfl | rfl | rfl | rfl | rfl | rfl <;> exact replaced

end LostUpdate

end AgentProtocols.Registry
