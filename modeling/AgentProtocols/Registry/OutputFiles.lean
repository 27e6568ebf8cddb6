import AgentProtocols.Lib.PendingWrites
import AgentProtocols.Registry.PersistentEntries

/-!
Concurrent calls on a dataset, and its `api_config.json` and `service.json`. A state has the calls
that are between two sections.

* `WritingDataset.Sound.step` — what a section that meets `Orderly` keeps.
* `files_settle` — in every run of such sections, once all calls have returned, the files list what
  is in memory.
* `stale_files` — two registrations of one id that write in the other order leave the older one.
-/

namespace AgentProtocols.Registry

open Lib StoredDataset RegistryService OrderedMap

/-- What a call writes into `api_config.json`. -/
inductive ApiWrite where
  | save (entry : RegistryEntry AgentCard)
  | remove (serviceId : String)

/-- The id that is written and what the store has under it afterwards. -/
def ApiWrite.effect : ApiWrite → String × Option (RegistryEntry AgentCard)
  | save entry => (entry.serviceId, some entry)
  | remove serviceId => (serviceId, none)

def ApiStore.perform (s : ApiStore) : ApiWrite → ApiStore
  | .save entry => s.saveApiEntry entry
  | .remove serviceId => s.removeApiEntry serviceId

/-- The calls of the service, without the files that they write after the section. -/
def Outside.inMemory (o : Outside AgentCard) : Outside AgentCard :=
  { o with
    saveApiEntry := fun _ _ => .ok ()
    removeApiEntry := fun _ _ => .ok ()
    regenerateOutput := fun _ => .ok () }

/-- A dataset and the calls on it that have not returned. -/
structure WritingDataset where
  service : RegistryService AgentCard
  store : ApiStore
  outputCache : Option (List JsonDict)
  serviceJson : Option (List JsonDict)
  /-- Updates between their two sections: the id and the entry that they are going to store. -/
  updating : List (String × RegistryEntry AgentCard) := []
  /-- Writes of `api_config.json` that are still to be done, in the order of the sections. -/
  writing : List ApiWrite := []
  /-- Calls whose next section renews the output cache. -/
  regenerating : Nat := 0
  /-- Writes of `service.json` that are still to be done, in the order of the sections. -/
  publishing : List (List JsonDict) := []

/-- The next section or file operation of a call; a file operation may fail. -/
inductive DatasetSection where
  | registerGeneric (req : RegisterGenericRequest) (caller : Option AuthContext)
      (o : Outside AgentCard)
  | registerA2a (req : RegisterA2ARequest) (card : AgentCard) (cardUrl : Option String)
      (caller : Option AuthContext) (o : Outside AgentCard)
  | readEntry (serviceId : String) (updates : JsonDict) (caller : Option AuthContext)
      (o : Outside AgentCard)
  | storeEntry (u : Nat)
  | deregister (serviceId : String) (caller : Option AuthContext)
  | writeApiConfig (i : Nat) (succeeds : Bool)
  | regenerateOutput
  | writeServiceJson (i : Nat) (succeeds : Bool)

namespace WritingDataset

section Sections

variable (dataset : String) (naming : Naming AgentCard) (s : WritingDataset)

def rows : List JsonDict := (s.service.dataset dataset).values.map entryToOutput

def sameOutput (a b : List JsonDict) : Bool := Json.beq (.arr (a.map .obj)) (.arr (b.map .obj))

/-- The call goes on with its write of `api_config.json`, or without one to its output. -/
def continues (service : RegistryService AgentCard) : Option ApiWrite → WritingDataset
  | some w => { s with service, writing := s.writing ++ [w] }
  | none => { s with service, regenerating := s.regenerating + 1 }

def registered :
    Except RegistryError Answer × RegistryService AgentCard → Option WritingDataset
  | (.ok (.register serviceId _ _), service) =>
    (service.getEntry dataset serviceId).map fun e => s.continues service (some (.save e))
  | _ => none

def step : DatasetSection → Option WritingDataset
  | .registerGeneric req caller o =>
    if req.dataset = dataset ∧ req.persistent = true then
      s.registered dataset (s.service.registerGeneric naming o.inMemory req caller)
    else none
  | .registerA2a req card cardUrl caller o =>
    if req.dataset = dataset ∧ req.persistent = true then
      s.registered dataset
        (s.service.registerA2aResolved naming o.inMemory req card cardUrl caller)
    else none
  | .readEntry serviceId updates caller o =>
    match s.service.entryToUpdate dataset serviceId caller with
    | .error _ => none
    | .ok entry =>
      match applyUpdates naming o dataset entry updates with
      | .error _ => none
      | .ok (newEntry, _) => some { s with updating := s.updating ++ [(serviceId, newEntry)] }
  | .storeEntry u => do
    let (serviceId, newEntry) ← s.updating[u]?
    let s := { s with updating := s.updating.eraseIdx u }
    if (s.service.getEntry dataset serviceId).isNone then some s
    else some (s.continues (s.service.insertEntry dataset serviceId newEntry)
      (if newEntry.source = .apiConfig then some (.save newEntry) else none))
  | .deregister serviceId caller =>
    match s.service.entryToRemove dataset serviceId caller with
    | .error _ => none
    | .ok entry => some (s.continues (s.service.removeEntry dataset serviceId)
        (if entry.source = .apiConfig then some (.remove serviceId) else none))
  | .writeApiConfig i succeeds => do
    let w ← s.writing[i]?
    let store := s.store.perform w
    some { s with
      writing := s.writing.eraseIdx i
      store := if succeeds then store else { store with file := s.store.file }
      regenerating := if succeeds then s.regenerating + 1 else s.regenerating }
  | .regenerateOutput =>
    if s.regenerating = 0 then none
    else
      let output := s.rows dataset
      let changed := !s.outputCache.any (sameOutput · output)
      some { s with
        regenerating := s.regenerating - 1
        outputCache := some output
        publishing := if changed then s.publishing ++ [output] else s.publishing }
  | .writeServiceJson i succeeds => do
    let output ← s.publishing[i]?
    some { s with
      publishing := s.publishing.eraseIdx i
      serviceJson := if succeeds then some output else s.serviceJson }

end Sections

section Settling

variable (dataset : String) (s : WritingDataset)

/-- All calls have returned. -/
def Quiet : Prop :=
  s.updating = [] ∧ s.writing = [] ∧ s.regenerating = 0 ∧ s.publishing = []

/-- The writes of one id are done in the order of the changes, and no write fails. -/
def Orderly : DatasetSection → Prop
  | .storeEntry u => ∀ serviceId newEntry old, s.updating[u]? = some (serviceId, newEntry) →
      s.service.getEntry dataset serviceId = some old → old.source = .apiConfig →
      newEntry.source = .apiConfig
  | .writeApiConfig i succeeds =>
    succeeds = true ∧ InTurn (s.writing.map fun w => w.effect.1) i
  | .writeServiceJson i succeeds => succeeds = true ∧ InTurn (s.publishing.map fun _ => ()) i
  | _ => True

def persistentEntry (id : String) : Option (RegistryEntry AgentCard) :=
  (s.service.getEntry dataset id).filter fun e => e.source = .apiConfig

/-- The files agree with the entries in memory. -/
structure Agrees : Prop where
  /-- `api_config.json` lists the persistent entries, each once. -/
  listed : ∃ m : OrderedMap String (RegistryEntry AgentCard),
    s.store.file = m.values.map (fun e => .obj (entryToConfigDict e)) ∧
    ∀ id, m.get? id = s.persistentEntry dataset id
  cached : s.outputCache.getD [] = s.rows dataset
  /-- `service.json` has the rows of the output cache, up to the order of members. -/
  published : s.serviceJson.getD [] = s.outputCache.getD [] ∨
    sameOutput (s.serviceJson.getD []) (s.outputCache.getD []) = true

end Settling

/-! ### What the calls leave behind -/

variable {dataset : String} {naming : Naming AgentCard} {s s' : WritingDataset}
  {entry : RegistryEntry AgentCard} {id : String}

/-- The same rows, up to the order of members. -/
def Alike (a b : List JsonDict) : Prop := a = b ∨ sameOutput a b = true

theorem Alike.trans {a b c : List JsonDict} (first : Alike a b) (second : Alike b c) :
    Alike a c := by
  rcases first with rfl | first
  · exact second
  · rcases second with rfl | second
    · exact .inr first
    · exact .inr (Json.beq_trans first second)

/-- What memory and files will be once the calls have returned. -/
structure Sound (dataset : String) (s : WritingDataset) : Prop where
  keyed : ∀ id e, s.service.getEntry dataset id = some e → e.serviceId = id
  updates : ∀ p ∈ s.updating, p.2.serviceId = p.1
  file : s.store.file = s.store.apiEntries.values.map fun e => .obj (entryToConfigDict e)
  entries : ∀ id, held (s.store.apiEntries.get? id) (s.writing.map ApiWrite.effect) id =
    s.persistentEntry dataset id
  cached : s.writing = [] → s.regenerating = 0 → s.outputCache.getD [] = s.rows dataset
  published : Alike (held (s.serviceJson.getD []) (s.publishing.map (Prod.mk ())) ())
    (s.outputCache.getD [])

/-- **Once all calls have returned the files agree with memory.** -/
theorem Sound.agrees (sound : Sound dataset s) (quiet : s.Quiet) : s.Agrees dataset where
  listed := by
    refine ⟨s.store.apiEntries, sound.file, fun id => ?_⟩
    have entries := sound.entries id
    rwa [quiet.2.1] at entries
  cached := sound.cached quiet.2.1 quiet.2.2.1
  published := by
    have published := sound.published
    rwa [quiet.2.2.2] at published

/-! ### A section -/

variable {o : Outside AgentCard} {serviceId : String} {caller : Option AuthContext}
  {service : RegistryService AgentCard}

theorem persistentEntry_insertEntry {j : String} :
    ((service.insertEntry dataset id entry).getEntry dataset j).filter
        (fun e => e.source = .apiConfig) =
      if id = j then (if entry.source = .apiConfig then some entry else none)
      else (service.getEntry dataset j).filter fun e => e.source = .apiConfig := by
  rw [getEntry_insertEntry_here]
  by_cases here : j = id
  · subst here
    by_cases persistent : entry.source = .apiConfig <;> simp [persistent]
  · rw [if_neg here, if_neg (Ne.symm here)]

theorem keyed_insertEntry (at_id : entry.serviceId = id)
    (keyed : ∀ id e, service.getEntry dataset id = some e → e.serviceId = id) :
    ∀ j e, (service.insertEntry dataset id entry).getEntry dataset j = some e →
      e.serviceId = j := by
  intro j e found
  rw [getEntry_insertEntry_here] at found
  split at found
  · rename_i here
    cases found
    exact at_id.trans here.symm
  · exact keyed j e found

theorem Sound.continues (sound : Sound dataset s) {w : Option ApiWrite}
    (keyed : ∀ id e, service.getEntry dataset id = some e → e.serviceId = id)
    (entries : ∀ id, (service.getEntry dataset id).filter (fun e => e.source = .apiConfig) =
      held (s.persistentEntry dataset id) (w.toList.map ApiWrite.effect) id) :
    Sound dataset (s.continues service w) := by
  cases w with
  | none =>
    refine ⟨keyed, sound.updates, sound.file, fun id => ?_, fun _ none => ?_, sound.published⟩
    · exact (sound.entries id).trans (entries id).symm
    · cases none
  | some w =>
    refine ⟨keyed, sound.updates, sound.file, fun id => ?_, fun none => ?_, sound.published⟩
    · change held (s.store.apiEntries.get? id) ((s.writing ++ [w]).map ApiWrite.effect) id =
        (service.getEntry dataset id).filter fun e => e.source = .apiConfig
      rw [entries id, List.map_append, held_append, sound.entries id]
      rfl
    · exact absurd none (List.append_ne_nil_of_right_ne_nil _ (List.cons_ne_nil _ _))

theorem answered_of_registered
    {result : Except RegistryError Answer × RegistryService AgentCard}
    (step : s.registered dataset result = some s') :
    ∃ answer service, result = (.ok answer, service) := by
  unfold registered at step
  split at step
  · exact ⟨_, _, rfl⟩
  · cases step

theorem Sound.registers (sound : Sound dataset s) (persistent : entry.source = .apiConfig)
    (same : serviceId = entry.serviceId) {answer : Answer}
    {ds status : String} (answered : answer = .register serviceId ds status)
    (step : s.registered dataset
      (.ok answer, s.service.insertEntry dataset entry.serviceId entry) = some s') :
    Sound dataset s' := by
  subst same answered
  have here : (s.service.insertEntry dataset entry.serviceId entry).getEntry dataset
      entry.serviceId = some entry := by
    rw [getEntry_insertEntry_here, if_pos rfl]
  simp only [registered, here, Option.map_some, Option.some.injEq] at step
  subst step
  refine sound.continues (keyed_insertEntry rfl sound.keyed) fun id => ?_
  rw [persistentEntry_insertEntry, if_pos persistent]
  rfl

open WritingDataset

theorem Sound.readsEntry (sound : Sound dataset s) {updates : JsonDict}
    (step : s.step dataset naming (.readEntry serviceId updates caller o) = some s') :
    Sound dataset s' := by
  dsimp only [WritingDataset.step] at step
  split at step
  · cases step
  · rename_i e reads
    split at step
    · cases step
    · rename_i newEntry changed applied
      cases step
      have at_id := sound.keyed serviceId e (getEntry_of_entryToUpdate reads)
      have kept : newEntry.serviceId = serviceId := by
        rcases applyUpdates_eq applied with
          ⟨-, _, rfl⟩ | ⟨-, _, rfl⟩ | ⟨-, _, rfl⟩ <;> exact at_id
      exact ⟨sound.keyed, forall_mem_concat sound.updates kept, sound.file, sound.entries, sound.cached,
        sound.published⟩

theorem Sound.storesEntry (sound : Sound dataset s) {u : Nat}
    (orderly : s.Orderly dataset (.storeEntry u))
    (step : s.step dataset naming (.storeEntry u) = some s') : Sound dataset s' := by
  simp only [WritingDataset.step, bind_eq_some] at step
  obtain ⟨⟨serviceId, newEntry⟩, at_u, stored⟩ := step
  have at_id : newEntry.serviceId = serviceId :=
    sound.updates (serviceId, newEntry) (List.mem_of_getElem? at_u)
  have dropped : Sound dataset { s with updating := s.updating.eraseIdx u } :=
    ⟨sound.keyed, fun p mem => sound.updates p (List.mem_of_mem_eraseIdx mem), sound.file,
      sound.entries, sound.cached, sound.published⟩
  split at stored
  · cases stored
    exact dropped
  · rename_i there
    cases stored
    obtain ⟨old, found⟩ := Option.ne_none_iff_exists'.mp fun none =>
      there (Option.isNone_iff_eq_none.mpr none)
    refine dropped.continues (keyed_insertEntry at_id sound.keyed) fun id => ?_
    rw [persistentEntry_insertEntry]
    by_cases persistent : newEntry.source = .apiConfig
    · rw [if_pos persistent, if_pos persistent]
      subst at_id
      rfl
    · have was : s.persistentEntry dataset serviceId = none := by
        rw [persistentEntry, found]
        exact Option.filter_some_neg (decide_eq_false fun source => persistent
          (orderly serviceId newEntry old at_u found source))
      split
      · rename_i here
        exact here ▸ was.symm
      · rfl

theorem Sound.deregisters (sound : Sound dataset s)
    (step : s.step dataset naming (.deregister serviceId caller) = some s') : Sound dataset s' := by
  dsimp only [WritingDataset.step] at step
  split at step
  · cases step
  · rename_i e reads
    cases step
    have found := getEntry_of_entryToRemove reads
    refine sound.continues (fun id e there => sound.keyed id e
      (getEntry_of_removeEntry there)) fun id => ?_
    have here : (s.service.removeEntry dataset serviceId).getEntry dataset serviceId = none := by
      rw [getEntry, removeEntry, get?_insert_self, Option.bind_some, get?_erase_self]
    by_cases same : serviceId = id
    · subst same
      rw [here]
      by_cases persistent : e.source = .apiConfig
      · rw [if_pos persistent]
        exact (if_pos rfl).symm
      · have was : s.persistentEntry dataset serviceId = none := by
          rw [persistentEntry, found]
          exact Option.filter_some_neg (decide_eq_false persistent)
        rw [if_neg persistent, was]
        rfl
    · rw [getEntry_removeEntry_of_ne fun both => same both.2.symm]
      split
      · exact (if_neg same).symm
      · rfl

theorem get?_perform {store : ApiStore} {w : ApiWrite} :
    (store.perform w).apiEntries.get? id =
      if w.effect.1 = id then w.effect.2 else store.apiEntries.get? id := by
  cases w with
  | save e =>
    change (store.apiEntries.insert e.serviceId e).get? id = if e.serviceId = id then _ else _
    rw [get?_insert]
    by_cases here : id = e.serviceId
    · rw [if_pos here, if_pos here.symm]
      rfl
    · rw [if_neg here, if_neg (Ne.symm here)]
  | remove serviceId =>
    change (store.removeApiEntry serviceId).apiEntries.get? id = if serviceId = id then _ else _
    unfold ApiStore.removeApiEntry
    by_cases here : serviceId = id
    · subst here
      rw [if_pos rfl]
      split
      · rename_i none
        exact Option.isNone_iff_eq_none.mp none
      · exact get?_erase_self
    · split
      · rfl
      · exact get?_erase_of_ne (Ne.symm here)

theorem file_perform {store : ApiStore} {w : ApiWrite}
    (file : store.file = store.apiEntries.values.map fun e => .obj (entryToConfigDict e)) :
    (store.perform w).file =
      (store.perform w).apiEntries.values.map fun e => .obj (entryToConfigDict e) := by
  cases w with
  | save e => rfl
  | remove serviceId =>
    change (store.removeApiEntry serviceId).file = (store.removeApiEntry serviceId).apiEntries.values.map _
    unfold ApiStore.removeApiEntry
    split
    · exact file
    · rfl

theorem Sound.writesApiConfig (sound : Sound dataset s) {i : Nat} {succeeds : Bool}
    (orderly : s.Orderly dataset (.writeApiConfig i succeeds))
    (step : s.step dataset naming (.writeApiConfig i succeeds) = some s') :
    Sound dataset s' := by
  obtain ⟨rfl, in_turn⟩ := orderly
  simp only [WritingDataset.step, bind_eq_some, Option.some.injEq, if_true] at step
  obtain ⟨w, at_i, rfl⟩ := step
  refine ⟨sound.keyed, sound.updates, file_perform sound.file, fun id => ?_, fun _ none => ?_,
    sound.published⟩
  · have at_i' : (s.writing.map ApiWrite.effect)[i]? = some w.effect := by
      rw [List.getElem?_map, at_i, Option.map_some]
    have keys : InTurn ((s.writing.map ApiWrite.effect).map Prod.fst) i := by
      rw [List.map_map]
      exact in_turn
    rw [get?_perform, ← List.eraseIdx_map, held_eraseIdx at_i' keys]
    exact sound.entries id
  · cases none

theorem Sound.regenerates (sound : Sound dataset s)
    (step : s.step dataset naming .regenerateOutput = some s') : Sound dataset s' := by
  dsimp only [WritingDataset.step] at step
  split at step
  · cases step
  · cases step
    refine ⟨sound.keyed, sound.updates, sound.file, sound.entries, fun _ _ => rfl, ?_⟩
    change Alike _ (s.rows dataset)
    split
    · rw [List.map_append, held_append]
      exact .inl rfl
    · rename_i unchanged
      cases cache : s.outputCache with
      | none => simp [cache] at unchanged
      | some old =>
        have published := sound.published
        exact published.trans (.inr (by simpa [cache] using unchanged))

theorem Sound.writesServiceJson (sound : Sound dataset s) {i : Nat} {succeeds : Bool}
    (orderly : s.Orderly dataset (.writeServiceJson i succeeds))
    (step : s.step dataset naming (.writeServiceJson i succeeds) = some s') :
    Sound dataset s' := by
  obtain ⟨rfl, in_turn⟩ := orderly
  simp only [WritingDataset.step, bind_eq_some, Option.some.injEq, if_true] at step
  obtain ⟨output, at_i, rfl⟩ := step
  refine ⟨sound.keyed, sound.updates, sound.file, sound.entries, sound.cached, ?_⟩
  have at_i' : (s.publishing.map (Prod.mk ()))[i]? = some ((), output) := by
    rw [List.getElem?_map, at_i, Option.map_some]
  have keys : InTurn ((s.publishing.map (Prod.mk ())).map Prod.fst) i := by
    rw [List.map_map]
    exact in_turn
  have same := held_eraseIdx (v := s.serviceJson.getD []) (k := ()) at_i' keys
  rw [if_pos rfl, List.eraseIdx_map] at same
  dsimp only [Option.getD_some]
  rw [same]
  exact sound.published

theorem Sound.step {l : DatasetSection} (sound : Sound dataset s) (orderly : s.Orderly dataset l)
    (step : s.step dataset naming l = some s') : Sound dataset s' := by
  cases l with
  | registerGeneric req caller o =>
    dsimp only [WritingDataset.step] at step
    split at step
    · rename_i both
      obtain ⟨here, persistent⟩ := both
      obtain ⟨answer, service, done⟩ := answered_of_registered step
      obtain ⟨-, rfl, status, answered⟩ := registerGeneric_ok done
      rw [done, here] at step
      exact sound.registers (if_pos persistent) rfl answered step
    · cases step
  | registerA2a req card cardUrl caller o =>
    dsimp only [WritingDataset.step] at step
    split at step
    · rename_i both
      obtain ⟨here, persistent⟩ := both
      obtain ⟨answer, service, done⟩ := answered_of_registered step
      obtain ⟨-, rfl, status, answered⟩ := registerA2a_ok done
      rw [done, here] at step
      exact sound.registers (if_pos persistent) rfl answered step
    · cases step
  | readEntry serviceId updates caller o => exact sound.readsEntry step
  | storeEntry u => exact sound.storesEntry orderly step
  | deregister serviceId caller => exact sound.deregisters step
  | writeApiConfig i succeeds => exact sound.writesApiConfig orderly step
  | regenerateOutput => exact sound.regenerates step
  | writeServiceJson i succeeds => exact sound.writesServiceJson orderly step

/-! ### Runs -/

/-- No call is under way, and the files agree with memory. -/
structure Settled (dataset : String) (s : WritingDataset) : Prop where
  quiet : s.Quiet
  keyed : ∀ id e, s.service.getEntry dataset id = some e → e.serviceId = id
  file : s.store.file = s.store.apiEntries.values.map fun e => .obj (entryToConfigDict e)
  entries : ∀ id, s.store.apiEntries.get? id = s.persistentEntry dataset id
  cached : s.outputCache.getD [] = s.rows dataset
  published : Alike (s.serviceJson.getD []) (s.outputCache.getD [])

theorem Settled.sound (settled : Settled dataset s) : Sound dataset s := by
  obtain ⟨updating, writing, -, publishing⟩ := settled.quiet
  refine ⟨settled.keyed, fun p mem => ?_, settled.file, fun id => ?_, fun _ _ => settled.cached, ?_⟩
  · rw [updating] at mem
    cases mem
  · rw [writing]
    exact settled.entries id
  · rw [publishing]
    exact settled.published

/-- **In every run of orderly sections the files agree with memory once all calls have returned.**
-/
theorem files_settle {start : WritingDataset} {ls : List DatasetSection}
    (run : Run (Under (fun s l => s.Orderly dataset l) (Steps fun s l => s.step dataset naming l))
      start ls s)
    (settled : start.Settled dataset) (quiet : s.Quiet) : s.Agrees dataset :=
  (run.invariant_under (fun _ _ _ sound orderly step => Sound.step sound orderly step)
    settled.sound).agrees quiet

/-! ### What the file lists -/

theorem Agrees.of_mem {item : Json} (agrees : s.Agrees dataset) (mem : item ∈ s.store.file) :
    ∃ id e, s.service.getEntry dataset id = some e ∧ e.source = .apiConfig ∧
      item = .obj (entryToConfigDict e) := by
  obtain ⟨m, file, entries⟩ := agrees.listed
  rw [file] at mem
  obtain ⟨e, inside, rfl⟩ := List.mem_map.mp mem
  obtain ⟨⟨id, e'⟩, filed, rfl⟩ := List.mem_map.mp inside
  have found := (entries id).symm.trans (get?_eq_some_iff.mpr filed)
  obtain ⟨there, persistent⟩ := Option.filter_eq_some_iff.mp found
  exact ⟨id, e', there, of_decide_eq_true persistent, rfl⟩

theorem get_of_sameOutput {row row' : JsonDict} {key text : String}
    (same : sameOutput [row] [row'] = true) (shown : row.get key = some (.str text)) :
    row'.get key = some (.str text) := by
  simp only [sameOutput, Json.beq, List.map_cons, List.map_nil, Json.eqWith, Json.eqItems,
    Bool.and_true, Bool.and_eq_true, Json.eqFields_iff] at same
  obtain ⟨before, after, split, -⟩ := List.lookup_eq_some_iff.mp shown
  obtain ⟨w, found, eq⟩ := same.2 (key, .str text) (by simp [split])
  rw [JsonDict.get, found]
  cases w with
  | str text' =>
    rw [Json.eqWith, beq_iff_eq] at eq
    rw [eq]
  | _ => simp [Json.eqWith] at eq

end WritingDataset

/-! ### Two registrations of one service -/

namespace StaleFiles

open WritingDataset
open LostUpdate (naming willing)

/-- A dataset without entries. -/
def empty : WritingDataset where
  service := ⟨OrderedMap.empty⟩
  store := ⟨OrderedMap.empty, []⟩
  outputCache := some []
  serviceJson := some []

def request (description : String) : RegisterGenericRequest where
  serviceId := some "x"
  dataset := "ds"
  name := "n"
  description
  inputSchema := []
  url := "u"
  persistent := true
  leaseTtl := none

def register (description : String) : DatasetSection :=
  .registerGeneric (request description) none willing

/-- The second registration saves its entry first. -/
def savedLate : List DatasetSection :=
  [register "old", register "new", .writeApiConfig 1 true, .writeApiConfig 0 true,
    .regenerateOutput, .regenerateOutput, .writeServiceJson 0 true]

/-- The second registration writes its rows first. -/
def publishedLate : List DatasetSection :=
  [register "old", .writeApiConfig 0 true, .regenerateOutput, register "new",
    .writeApiConfig 0 true, .regenerateOutput, .writeServiceJson 1 true, .writeServiceJson 0 true]

/-- Both write in the order in which they have changed the entries. -/
def inOrder : List DatasetSection :=
  [register "old", register "new", .writeApiConfig 0 true, .writeApiConfig 0 true,
    .regenerateOutput, .regenerateOutput, .writeServiceJson 0 true]

theorem settled_empty : empty.Settled "ds" where
  quiet := ⟨rfl, rfl, rfl, rfl⟩
  keyed := fun _ _ found => absurd found nofun
  file := rfl
  entries := fun _ => rfl
  cached := rfl
  published := .inl rfl

def entry (description : String) : RegistryEntry AgentCard :=
  genericEntry naming (request description) none

theorem description_entry (description : String) :
    (entryToOutput (entry description)).get "description" = some (.str description) := rfl

theorem texts_differ {description : String}
    (same : some (Json.str "old") = some (.str description)) (new : description = "new") : False := by
  rw [new] at same
  exact absurd (Json.str.inj (Option.some.inj same)) (by decide)

theorem not_agrees_of_file {s : WritingDataset}
    (file : s.store.file = [.obj (entryToConfigDict (entry "old"))])
    (memory : s.service = ((mk .empty).insertEntry "ds" "x" (entry "old")).insertEntry
      "ds" "x" (entry "new")) : ¬s.Agrees "ds" := by
  intro agrees
  obtain ⟨id, e, found, -, same⟩ := agrees.of_mem (by rw [file]; exact .head _)
  rw [memory, getEntry_insertEntry_here, getEntry_insertEntry_here] at found
  split at found
  · cases found
    have description := congrArg (JsonDict.get · "description") (Json.obj.inj same)
    exact texts_differ description rfl
  · cases found

theorem not_agrees_of_json {s : WritingDataset}
    (json : s.serviceJson = some [entryToOutput (entry "old")])
    (cache : s.outputCache = some [entryToOutput (entry "new")]) : ¬s.Agrees "ds" := by
  intro agrees
  have description : (entryToOutput (entry "new")).get "description" = some (.str "old") := by
    rcases agrees.published with same | same
    · rw [json, cache] at same
      rw [← List.singleton_injective same]
      exact description_entry "old"
    · rw [json, cache] at same
      exact get_of_sameOutput same (description_entry "old")
  exact texts_differ description.symm rfl

/-- `api_config.json` lists the older entry, or `service.json` its row. -/
theorem stale_files : empty.Settled "ds" ∧
    (∃ s, Run (Steps fun s l => s.step "ds" naming l) empty savedLate s ∧ s.Quiet ∧
      ¬s.Agrees "ds") ∧
    ∃ s, Run (Steps fun s l => s.step "ds" naming l) empty publishedLate s ∧ s.Quiet ∧
      ¬s.Agrees "ds" := by
  exact ⟨settled_empty,
    ⟨_, run_of_foldlM rfl, ⟨rfl, rfl, rfl, rfl⟩, not_agrees_of_file rfl rfl⟩,
    _, run_of_foldlM rfl, ⟨rfl, rfl, rfl, rfl⟩, not_agrees_of_json rfl rfl⟩

/-- The second registration changes the entries before the first one writes. -/
theorem files_in_order : ∃ s,
    Run (Under (fun s l => s.Orderly "ds" l) (Steps fun s l => s.step "ds" naming l)) empty
      inOrder s ∧ s.Agrees "ds" := by
  have run : Run (Under (fun s l => s.Orderly "ds" l) (Steps fun s l => s.step "ds" naming l)) empty
      inOrder _ :=
    .cons ⟨trivial, rfl⟩ (.cons ⟨trivial, rfl⟩ (.cons ⟨⟨rfl, inTurn_zero⟩, rfl⟩
      (.cons ⟨⟨rfl, inTurn_zero⟩, rfl⟩ (.cons ⟨trivial, rfl⟩ (.cons ⟨trivial, rfl⟩
        (.cons ⟨⟨rfl, inTurn_zero⟩, rfl⟩ (.nil _)))))))
  exact ⟨_, run, files_settle run settled_empty ⟨rfl, rfl, rfl, rfl⟩⟩

end StaleFiles

end AgentProtocols.Registry