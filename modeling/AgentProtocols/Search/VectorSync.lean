import AgentProtocols.Lib.Runs
import AgentProtocols.Search.VectorStore

/-!
The search engine of the registry and the tasks that follow its services. Only tasks that end
without an error are modelled.

* `Engine.Settled.step` — as long as syncs of a collection do not overlap and services do not change
  once a searcher is there, a task or the collection is up to date.
* `search_follows_registry` — in every such run searches find the current services in the end.
* `cached_searcher_stale` — a run in which a removed service is found.
-/

namespace AgentProtocols.Search

open Lib OrderedMap

variable {E : Type}

/-- Where a task is, between two of its reads and writes. -/
inductive SyncPlace (E : Type) where
  | scheduled
  | opening
  | clearing
  | reopening
  | deleting (store : VectorStore E) (ids : List String) (texts : List (String × String))
  | embedding (store : VectorStore E) (texts : List (String × String))
  | upserting (store : VectorStore E) (rows : List (String × StoredDoc E))
  | ended

/-- A task that runs `sync_vector`, with the target it has read. -/
structure SyncTask (E : Type) where
  dataset : String
  target : Target := OrderedMap.empty
  place : SyncPlace E := .scheduled

/-- A call of `vector_instance` that waits for the embeddings of the services. -/
structure IndexBuild (E : Type) where
  dataset : String
  services : List ServiceRecord
  store : VectorStore E
  finished : Bool := false

/-- The files and the serving `A2xEngine`, with the tasks. -/
structure Engine (E : Type) where
  files : OrderedMap String (List ServiceRecord) := OrderedMap.empty
  collections : OrderedMap String (VectorStore E) := OrderedMap.empty
  tasks : List (SyncTask E) := []
  builds : List (IndexBuild E) := []
  vector : OrderedMap String (VectorStore E) := OrderedMap.empty
  traditional : OrderedMap String (List ServiceRecord) := OrderedMap.empty

inductive EngineLabel where
  | change (dataset : String) (services : List ServiceRecord)
  | sync (i : Nat)
  | vectorSearch (dataset : String)
  | finishBuild (j : Nat)
  | traditionalSearch (dataset : String)
deriving DecidableEq

namespace SyncTask

/-- The task has read the services and has not ended. -/
def active (task : SyncTask E) : Bool :=
  match task.place with
  | .scheduled => false
  | .ended => false
  | _ => true

def isScheduled (task : SyncTask E) : Bool :=
  match task.place with
  | .scheduled => true
  | _ => false

def isEnded (task : SyncTask E) : Bool :=
  match task.place with
  | .ended => true
  | _ => false

def afterOpen (task : SyncTask E) (store : VectorStore E) : SyncTask E :=
  let ids := store.toDelete task.target
  let texts := store.toUpsert task.target
  if ids = [] ∧ texts = [] then { task with place := .ended }
  else if ids = [] then { task with place := .embedding store texts }
  else { task with place := .deleting store ids texts }

/-- The next step of `sync_vector`, and what it writes. -/
def next (setup : SearchSetup E) (services : Option (List ServiceRecord))
    (file : Option (VectorStore E)) (task : SyncTask E) :
    Option (SyncTask E × Option (VectorStore E)) :=
  let model := setup.embeddingModel task.dataset
  match task.place with
  | .scheduled =>
    match services with
    | none => some ({ task with place := .ended }, none)
    | some services =>
      if (targetOf services).entries = [] then some ({ task with place := .ended }, none)
      else some ({ task with target := targetOf services, place := .opening }, none)
  | .opening =>
    let store := VectorStore.openFile file model
    if store.embeddingModel = some model then some (task.afterOpen store, some store)
    else some ({ task with place := .clearing }, some store)
  | .clearing => some ({ task with place := .reopening }, some VectorStore.clear)
  | .reopening =>
    let store := VectorStore.openFile file model
    some (task.afterOpen store, some store)
  | .deleting store ids texts =>
    let store := store.deleteIds ids
    if texts = [] then some ({ task with place := .ended }, some store)
    else some ({ task with place := .embedding store texts }, some store)
  | .embedding store texts =>
    some ({ task with place := .upserting store (setup.rows task.dataset texts) }, none)
  | .upserting store rows => some ({ task with place := .ended }, some (store.upsert rows))
  | .ended => none

end SyncTask

namespace Engine

/-- The content of the file of a dataset's collection. -/
def collection (setup : SearchSetup E) (s : Engine E) (dataset : String) : Option (VectorStore E) :=
  s.collections.get? (setup.collectionName dataset)

/-- The file is written, if there is something to write. -/
def save (setup : SearchSetup E) (s : Engine E) (dataset : String)
    (written : Option (VectorStore E)) : Engine E :=
  match written with
  | none => s
  | some store =>
    { s with collections := s.collections.insert (setup.collectionName dataset) store }

/-- The rows of the services that an empty store is built from. -/
def buildRows (setup : SearchSetup E) (dataset : String) (services : List ServiceRecord) :
    List (String × StoredDoc E) :=
  setup.rows dataset (services.map fun service => (service.id, service.descriptionText))

/-- The steps of the registry, of the tasks and of the searches. -/
def step (setup : SearchSetup E) (s : Engine E) : EngineLabel → Option (Engine E)
  | .change dataset services =>
    some { s with
      files := s.files.insert dataset services
      tasks := s.tasks ++ [{ dataset := dataset }] }
  | .sync i =>
    match s.tasks[i]? with
    | none => none
    | some task =>
      (task.next setup (s.files.get? task.dataset) (s.collection setup task.dataset)).map
        fun (task', written) =>
          { s.save setup task.dataset written with tasks := s.tasks.set i task' }
  | .vectorSearch dataset =>
    match s.vector.get? dataset, s.files.get? dataset with
    | some _, _ => some s
    | none, none => some s
    | none, some services =>
      let store := VectorStore.openFile (s.collection setup dataset)
        (setup.embeddingModel dataset)
      let s := s.save setup dataset (some store)
      if store.docs.entries = [] then
        some { s with builds := s.builds ++ [⟨dataset, services, store, false⟩] }
      else some { s with vector := s.vector.insert dataset store }
  | .finishBuild j =>
    match s.builds[j]? with
    | some ⟨dataset, services, store, false⟩ =>
      let store' := store.upsert (buildRows setup dataset services)
      let s := s.save setup dataset (some store')
      some { s with
        vector := s.vector.insert dataset store'
        builds := s.builds.set j ⟨dataset, services, store, true⟩ }
    | _ => none
  | .traditionalSearch dataset =>
    match s.traditional.get? dataset, s.files.get? dataset with
    | some _, _ => some s
    | none, none => some s
    | none, some services =>
      some { s with traditional := s.traditional.insert dataset services }

/-- The ids that a vector search returns that starts now. -/
def vectorAnswer (setup : SearchSetup E) (s : Engine E) (dataset : String) (embedding : E)
    (topK : Nat) : Option (List String) :=
  match s.vector.get? dataset with
  | some store => some (store.query setup embedding topK)
  | none =>
    (s.files.get? dataset).map fun services =>
      let store := VectorStore.openFile (s.collection setup dataset)
        (setup.embeddingModel dataset)
      if store.docs.entries = [] then
        (store.upsert (buildRows setup dataset services)).query setup embedding topK
      else store.query setup embedding topK

/-- The ids that a traditional search returns where the model answers with `picked`. -/
def traditionalAnswer (s : Engine E) (dataset : String) (picked : List String) :
    Option (List String) :=
  ((s.traditional.get? dataset).or (s.files.get? dataset)).map fun services =>
    picked.filter (· ∈ services.map ServiceRecord.id)

def Quiet (s : Engine E) : Prop := ∀ task ∈ s.tasks, task.isEnded = true

def Syncing (s : Engine E) (dataset : String) : Prop :=
  ∃ task ∈ s.tasks, task.dataset = dataset ∧ task.isEnded = false

/-- A search waits for the embeddings of the services of the dataset. -/
def Building (s : Engine E) (dataset : String) : Prop :=
  ∃ build ∈ s.builds, build.dataset = dataset ∧ build.finished = false

instance (s : Engine E) (dataset : String) : Decidable (s.Syncing dataset) :=
  inferInstanceAs (Decidable (∃ task ∈ s.tasks, _))

instance (s : Engine E) (dataset : String) : Decidable (s.Building dataset) :=
  inferInstanceAs (Decidable (∃ build ∈ s.builds, _))

/-- Services change before there is a searcher, syncs do not overlap, and stores are opened after.
-/
def Orderly (setup : SearchSetup E) (s : Engine E) : EngineLabel → Prop
  | .change dataset services =>
    services ≠ [] ∧ s.vector.get? dataset = none ∧ s.traditional.get? dataset = none ∧
      ¬ s.Building dataset ∧ ∀ other ∈ s.files.keys,
        setup.collectionName other = setup.collectionName dataset → other = dataset
  | .sync i => ∀ task, s.tasks[i]? = some task → task.isScheduled = true →
      ∀ other ∈ s.tasks, other.active = true →
        setup.collectionName other.dataset ≠ setup.collectionName task.dataset
  | .vectorSearch dataset => s.vector.get? dataset = none → ¬ s.Syncing dataset
  | _ => True

end Engine

/-! ### What a task does -/

namespace SyncTask

variable {setup : SearchSetup E} {task task' : SyncTask E}

/-- What is left to do brings the store to the target. -/
def Planned (setup : SearchSetup E) (task : SyncTask E) : Prop :=
  match task.place with
  | .deleting store ids texts =>
    Matches ((store.deleteIds ids).upsert (setup.rows task.dataset texts)) task.target
  | .embedding store texts => Matches (store.upsert (setup.rows task.dataset texts)) task.target
  | .upserting store rows => Matches (store.upsert rows) task.target
  | _ => True

/-- The task goes on with its target, or it has ended and the file has the target. -/
def GoesOn (setup : SearchSetup E) (task task' : SyncTask E)
    (written : Option (VectorStore E)) : Prop :=
  task'.dataset = task.dataset ∧ task'.target = task.target ∧
    ((task'.active = true ∧ task'.Planned setup) ∨
      (task'.active = false ∧ ∃ store, written = some store ∧ Matches store task.target))

theorem goesOn_afterOpen (task : SyncTask E) (store : VectorStore E) :
    GoesOn setup task (task.afterOpen store) (some store) := by
  have plan : Matches ((store.deleteIds (store.toDelete task.target)).upsert
      (setup.rows task.dataset (store.toUpsert task.target))) task.target := matches_plan
  unfold afterOpen
  dsimp only
  split
  · rename_i nothing
    rw [nothing.1, nothing.2] at plan
    exact ⟨rfl, rfl, .inr ⟨rfl, store, rfl, plan⟩⟩
  · split
    · rename_i no_ids
      rw [no_ids] at plan
      exact ⟨rfl, rfl, .inl ⟨rfl, plan⟩⟩
    · exact ⟨rfl, rfl, .inl ⟨rfl, plan⟩⟩

variable {file written : Option (VectorStore E)}

/-- A step of a task that has read the services. -/
theorem Planned.next {services : Option (List ServiceRecord)}
    (planned : task.Planned setup) (active : task.active = true)
    (taken : task.next setup services file = some (task', written)) :
    GoesOn setup task task' written := by
  obtain ⟨dataset, target, place⟩ := task
  cases place with
  | scheduled => cases active
  | opening =>
    simp only [SyncTask.next] at taken
    split at taken <;> cases taken
    · exact goesOn_afterOpen _ _
    · exact ⟨rfl, rfl, .inl ⟨rfl, trivial⟩⟩
  | clearing =>
    cases taken
    exact ⟨rfl, rfl, .inl ⟨rfl, trivial⟩⟩
  | reopening =>
    cases taken
    exact goesOn_afterOpen _ _
  | deleting store ids texts =>
    simp only [SyncTask.next] at taken
    split at taken <;> cases taken
    · rename_i nothing
      subst nothing
      exact ⟨rfl, rfl, .inr ⟨rfl, _, rfl, planned⟩⟩
    · exact ⟨rfl, rfl, .inl ⟨rfl, planned⟩⟩
  | embedding store texts =>
    cases taken
    exact ⟨rfl, rfl, .inl ⟨rfl, planned⟩⟩
  | upserting store rows =>
    cases taken
    exact ⟨rfl, rfl, .inr ⟨rfl, _, rfl, planned⟩⟩
  | ended => cases active

theorem next_scheduled {services : List ServiceRecord}
    (scheduled : task.isScheduled = true) (some_service : services ≠ [])
    (taken : task.next setup (some services) file = some (task', written)) :
    task' = { task with target := targetOf services, place := .opening } ∧ written = none := by
  obtain ⟨dataset, target, place⟩ := task
  have filled : (targetOf services).entries ≠ [] := by
    obtain ⟨service, others, rfl⟩ := List.exists_cons_of_ne_nil some_service
    have there : ((targetOf (service :: others)).get? service.id).isSome :=
      isSome_targetOf.mpr (.head _)
    intro none
    rw [OrderedMap.get?, none] at there
    cases there
  cases place with
  | scheduled =>
    simp only [SyncTask.next, if_neg filled] at taken
    cases taken
    exact ⟨rfl, rfl⟩
  | _ => cases scheduled

theorem not_active_of_isScheduled (scheduled : task.isScheduled = true) : task.active = false := by
  obtain ⟨dataset, target, place⟩ := task
  cases place <;> first | rfl | cases scheduled

theorem scheduled_or_active {services : Option (List ServiceRecord)}
    (taken : task.next setup services file = some (task', written)) :
    task.isScheduled = true ∨ task.active = true := by
  obtain ⟨dataset, target, place⟩ := task
  cases place <;> first | exact .inl rfl | exact .inr rfl | cases taken

theorem planned_of_not_active (idle : task.active = false) : task.Planned setup := by
  obtain ⟨dataset, target, place⟩ := task
  cases place <;> trivial

theorem not_isEnded_of_active (active : task.active = true) : task.isEnded = false := by
  obtain ⟨dataset, target, place⟩ := task
  cases place <;> first | rfl | cases active

theorem not_isEnded_of_isScheduled (scheduled : task.isScheduled = true) :
    task.isEnded = false := by
  obtain ⟨dataset, target, place⟩ := task
  cases place <;> first | rfl | cases scheduled

end SyncTask

namespace Engine

variable {setup : SearchSetup E} {s t : Engine E} {l : EngineLabel} {dataset : String}

/-! ### Datasets and their collections -/

/-- The file has no documents yet, or those of the target. -/
def InStep (file : Option (VectorStore E)) (target : Target) : Prop :=
  ∀ store, file = some store → store.docs.entries = [] ∨ Matches store target

/-- A task will read the services, or has read these, or the collection has them. -/
def Followed (setup : SearchSetup E) (s : Engine E) (dataset : String) (target : Target) : Prop :=
  (∃ task ∈ s.tasks, task.dataset = dataset ∧ task.isScheduled = true) ∨
    (∃ task ∈ s.tasks, task.dataset = dataset ∧ task.active = true ∧ task.target = target) ∨
    ((∀ task ∈ s.tasks, task.dataset = dataset → task.active = false) ∧
      InStep (s.collection setup dataset) target)

/-- What holds of the files and the tasks. -/
structure Tracked (setup : SearchSetup E) (s : Engine E) : Prop where
  distinct : ∀ {d d' services services'}, s.files.get? d = some services →
    s.files.get? d' = some services' → setup.collectionName d = setup.collectionName d' → d = d'
  filled : ∀ task ∈ s.tasks, ∃ services, s.files.get? task.dataset = some services ∧ services ≠ []
  exclusive : ∀ {i j : Nat} {task task' : SyncTask E}, s.tasks[i]? = some task →
    s.tasks[j]? = some task' → task.active = true → task'.active = true → task.dataset = task'.dataset → i = j
  planned : ∀ task ∈ s.tasks, task.Planned setup
  followed : ∀ {d services}, s.files.get? d = some services →
    s.Followed setup d (targetOf services)

/-- What holds of the searchers that the engine keeps. -/
structure Current (s : Engine E) : Prop where
  vector : ∀ {d store}, s.vector.get? d = some store →
    ∃ services, s.files.get? d = some services ∧ Matches store (targetOf services)
  builds : ∀ build ∈ s.builds, build.finished = false →
    s.files.get? build.dataset = some build.services ∧ build.store.docs.entries = []
  traditional : ∀ {d services}, s.traditional.get? d = some services →
    s.files.get? d = some services

theorem collection_save_self (store : VectorStore E) :
    (s.save setup dataset (some store)).collection setup dataset = some store :=
  get?_insert_self

variable {written : Option (VectorStore E)} {services : List ServiceRecord}
  {task task' : SyncTask E} {store : VectorStore E} {i : Nat}

theorem collection_save_of_ne {d : String}
    (ne : setup.collectionName d ≠ setup.collectionName dataset) :
    (s.save setup dataset written).collection setup d = s.collection setup d := by
  cases written with
  | none => rfl
  | some store => exact get?_insert_of_ne ne

theorem files_save (written : Option (VectorStore E)) :
    (s.save setup dataset written).files = s.files := by
  cases written <;> rfl

theorem Tracked.save (tracked : Tracked setup s) (there : s.files.get? dataset = some services)
    (in_step : InStep (some store) (targetOf services)) :
    Tracked setup (s.save setup dataset (some store)) := by
  refine ⟨tracked.distinct, tracked.filled, tracked.exclusive, tracked.planned, ?_⟩
  intro d found at_d
  rcases tracked.followed at_d with scheduled | active | ⟨idle, file⟩
  · exact .inl scheduled
  · exact .inr (.inl active)
  · refine .inr (.inr ⟨idle, ?_⟩)
    by_cases same : d = dataset
    · subst same
      have at_d : s.files.get? d = some found := at_d
      rw [there] at at_d
      cases at_d
      rw [collection_save_self]
      exact in_step
    · rw [collection_save_of_ne fun names => same (tracked.distinct at_d there names)]
      exact file

/-- A change of the services gives the dataset a task that will read them. -/
theorem Tracked.change (tracked : Tracked setup s) {services : List ServiceRecord}
    (some_service : services ≠ [])
    (alone : ∀ other ∈ s.files.keys,
      setup.collectionName other = setup.collectionName dataset → other = dataset) :
    Tracked setup { s with
      files := s.files.insert dataset services
      tasks := s.tasks ++ [{ dataset := dataset }] } := by
  have alone' : ∀ {d found}, s.files.get? d = some found →
      setup.collectionName d = setup.collectionName dataset → d = dataset :=
    fun at_d names => alone _ (mem_keys_iff.mpr ⟨_, at_d⟩) names
  constructor
  · intro d d' found found' at_d at_d' names
    rw [get?_insert] at at_d at_d'
    split at at_d <;> split at at_d'
    · rename_i same same'
      rw [same, same']
    · rename_i same ne'
      rw [same] at names ⊢
      exact (alone' at_d' names.symm).symm
    · rename_i ne same'
      rw [same'] at names ⊢
      exact alone' at_d names
    · exact tracked.distinct at_d at_d' names
  · intro task mem
    show ∃ found, (s.files.insert dataset services).get? task.dataset = some found ∧ found ≠ []
    rw [get?_insert]
    split
    · exact ⟨services, rfl, some_service⟩
    · rename_i ne
      rcases List.mem_append.mp mem with mem | mem
      · exact tracked.filled task mem
      · rw [List.mem_singleton.mp mem] at ne
        exact absurd rfl ne
  · intro i j task task' at_i at_j active active' same
    rcases getElem?_concat_cases at_i with at_i | ⟨-, rfl⟩
    · rcases getElem?_concat_cases at_j with at_j | ⟨-, rfl⟩
      · exact tracked.exclusive at_i at_j active active' same
      · cases active'
    · cases active
  · exact forall_mem_concat tracked.planned trivial
  · intro d found at_d
    rw [get?_insert] at at_d
    split at at_d
    · rename_i same
      exact .inl ⟨_, List.mem_append_right _ (.head _), same.symm, rfl⟩
    · rcases tracked.followed at_d with ⟨task, mem, of_d, waits⟩ | ⟨task, mem, of_d, rest⟩ |
        ⟨idle, file⟩
      · exact .inl ⟨task, List.mem_append_left _ mem, of_d, waits⟩
      · exact .inr (.inl ⟨task, List.mem_append_left _ mem, of_d, rest⟩)
      · exact .inr (.inr ⟨forall_mem_concat idle fun _ => rfl, file⟩)

theorem Followed.of_ne {d : String} {target : Target} (at_i : s.tasks[i]? = some task)
    (same : task'.dataset = task.dataset) (ne : d ≠ task.dataset)
    (names : setup.collectionName d ≠ setup.collectionName task.dataset)
    (followed : s.Followed setup d target) :
    Followed setup { s.save setup task.dataset written with tasks := s.tasks.set i task' }
      d target := by
  have kept : ∀ {other : SyncTask E}, other ∈ s.tasks → other.dataset = d →
      other ∈ s.tasks.set i task' := by
    intro other mem of_d
    apply mem_set_of_ne at_i mem
    rintro rfl
    exact ne of_d.symm
  rcases followed with ⟨other, mem, of_d, waits⟩ | ⟨other, mem, of_d, rest⟩ | ⟨idle, file⟩
  · exact .inl ⟨other, kept mem of_d, of_d, waits⟩
  · exact .inr (.inl ⟨other, kept mem of_d, of_d, rest⟩)
  · refine .inr (.inr ⟨fun other mem of_d => ?_, ?_⟩)
    · rcases List.mem_or_eq_of_mem_set mem with mem | rfl
      · exact idle other mem of_d
      · exact absurd (of_d.symm.trans same) ne
    · show InStep ((s.save setup task.dataset written).collection setup d) target
      rw [collection_save_of_ne names]
      exact file

theorem Tracked.sync (tracked : Tracked setup s) (at_i : s.tasks[i]? = some task)
    (same : task'.dataset = task.dataset) (planned : task'.Planned setup)
    (alone : task'.active = true → ∀ j other, s.tasks[j]? = some other → j ≠ i →
      other.active = true → other.dataset ≠ task.dataset)
    (followed : ∀ services, s.files.get? task.dataset = some services →
      Followed setup { s.save setup task.dataset written with tasks := s.tasks.set i task' }
        task.dataset (targetOf services)) :
    Tracked setup { s.save setup task.dataset written with tasks := s.tasks.set i task' } := by
  obtain ⟨services, there, some_service⟩ := tracked.filled task (List.mem_of_getElem? at_i)
  have files : ({ s.save setup task.dataset written with tasks := s.tasks.set i task' } :
      Engine E).files = s.files := files_save written
  constructor
  · intro d d' found found' at_d at_d' names
    rw [files] at at_d at_d'
    exact tracked.distinct at_d at_d' names
  · intro other mem
    rw [files]
    rcases List.mem_or_eq_of_mem_set mem with mem | rfl
    · exact tracked.filled other mem
    · rw [same]
      exact ⟨services, there, some_service⟩
  · intro j k first second at_j at_k active active' datasets
    rcases getElem?_set_cases at_j with ⟨rfl, rfl⟩ | ⟨ne, was_j⟩
    · rcases getElem?_set_cases at_k with ⟨rfl, -⟩ | ⟨ne', was_k⟩
      · rfl
      · exact absurd (datasets.symm.trans same) (alone active k second was_k ne' active')
    · rcases getElem?_set_cases at_k with ⟨rfl, rfl⟩ | ⟨-, was_k⟩
      · exact absurd (datasets.trans same) (alone active' j first was_j ne active)
      · exact tracked.exclusive was_j was_k active active' datasets
  · exact forall_mem_set tracked.planned planned
  · intro d found at_d
    rw [files] at at_d
    by_cases own : d = task.dataset
    · subst own
      exact followed found at_d
    · exact (tracked.followed at_d).of_ne at_i same own
        fun names => own (tracked.distinct at_d there names)

theorem Tracked.read (tracked : Tracked setup s) (at_i : s.tasks[i]? = some task)
    (there : s.files.get? task.dataset = some services)
    (alone : ∀ other ∈ s.tasks, other.active = true →
      setup.collectionName other.dataset ≠ setup.collectionName task.dataset) :
    Tracked setup { s.save setup task.dataset none with
      tasks := s.tasks.set i { task with target := targetOf services, place := .opening } } := by
  refine tracked.sync at_i rfl trivial (fun _ j other at_j _ active same => ?_) ?_
  · exact alone other (List.mem_of_getElem? at_j) active (congrArg setup.collectionName same)
  · intro found at_d
    rw [there] at at_d
    cases at_d
    exact .inr (.inl ⟨_, mem_set_of_getElem? at_i, rfl, rfl, rfl⟩)

theorem Tracked.goesOn (tracked : Tracked setup s) (at_i : s.tasks[i]? = some task)
    (active : task.active = true) (goes_on : SyncTask.GoesOn setup task task' written)
    (planned : task'.Planned setup) :
    Tracked setup { s.save setup task.dataset written with tasks := s.tasks.set i task' } := by
  obtain ⟨same, target, ends⟩ := goes_on
  have alone : ∀ j other, s.tasks[j]? = some other → j ≠ i → other.active = true →
      other.dataset ≠ task.dataset :=
    fun j other at_j ne active' datasets =>
      ne (tracked.exclusive at_j at_i active' active datasets)
  refine tracked.sync at_i same planned (fun _ => alone) fun services there => ?_
  rcases tracked.followed there with ⟨other, mem, of_d, waits⟩ |
    ⟨other, mem, of_d, active', read⟩ | ⟨idle, -⟩
  · refine .inl ⟨other, mem_set_of_ne at_i mem ?_, of_d, waits⟩
    rintro rfl
    rw [SyncTask.not_active_of_isScheduled waits] at active
    cases active
  · -- the task under way is this one, so it has read the services of now
    obtain ⟨j, at_j⟩ := List.getElem?_of_mem mem
    obtain rfl := tracked.exclusive at_j at_i active' active of_d
    rw [at_i] at at_j
    cases at_j
    rcases ends with ⟨still, -⟩ | ⟨ended, store, rfl, same_docs⟩
    · exact .inr (.inl ⟨task', mem_set_of_getElem? at_i, same, still, target.trans read⟩)
    · refine .inr (.inr ⟨fun other mem of_d => ?_, ?_⟩)
      · obtain ⟨k, at_k⟩ := List.getElem?_of_mem mem
        rcases getElem?_set_cases at_k with ⟨-, rfl⟩ | ⟨ne, at_k⟩
        · exact ended
        · by_contra running
          exact alone k other at_k ne (by simpa using running) of_d
      · show InStep ((s.save setup task.dataset (some store)).collection setup task.dataset) _
        rw [collection_save_self]
        rintro _ ⟨⟩
        rw [← read]
        exact .inr same_docs
  · rw [idle task (List.mem_of_getElem? at_i) rfl] at active
    cases active

theorem inStep_openFile {target : Target} (model : String)
    (in_step : InStep (s.collection setup dataset) target) :
    InStep (some (VectorStore.openFile (s.collection setup dataset) model)) target := by
  rintro _ ⟨⟩
  cases file : s.collection setup dataset with
  | none => exact .inl rfl
  | some store =>
    have docs : (VectorStore.openFile (some store) model).docs = store.docs :=
      openFile_docs_some model
    rcases in_step store file with none_ | same
    · exact .inl (by rw [docs]; exact none_)
    · exact .inr fun id => by rw [docs]; exact same id

theorem Tracked.inStep (tracked : Tracked setup s)
    (there : s.files.get? dataset = some services) (idle : ¬ s.Syncing dataset) :
    InStep (s.collection setup dataset) (targetOf services) := by
  rcases tracked.followed there with ⟨task, mem, of_d, waits⟩ | ⟨task, mem, of_d, active, -⟩ |
    ⟨-, file⟩
  · exact absurd ⟨task, mem, of_d, SyncTask.not_isEnded_of_isScheduled waits⟩ idle
  · exact absurd ⟨task, mem, of_d, SyncTask.not_isEnded_of_active active⟩ idle
  · exact file

theorem matches_build (no_docs : store.docs.entries = []) :
    Matches (store.upsert (buildRows setup dataset services)) (targetOf services) :=
  matches_rows no_docs

theorem Tracked.step (tracked : Tracked setup s) (current : Current s) (orderly : Orderly setup s l)
    (taken : Engine.step setup s l = some t) : Tracked setup t := by
  cases l with
  | change dataset services =>
    cases taken
    exact tracked.change orderly.1 orderly.2.2.2.2
  | sync i =>
    simp only [Engine.step] at taken
    split at taken
    · cases taken
    · rename_i task at_i
      obtain ⟨⟨task', written⟩, next, rfl⟩ := Option.map_eq_some_iff.mp taken
      obtain ⟨services, there, some_service⟩ := tracked.filled task (List.mem_of_getElem? at_i)
      rcases SyncTask.scheduled_or_active next with scheduled | active
      · rw [there] at next
        obtain ⟨rfl, rfl⟩ := SyncTask.next_scheduled scheduled some_service next
        exact tracked.read at_i there (orderly task at_i scheduled)
      · have planned := tracked.planned task (List.mem_of_getElem? at_i)
        have goes_on := planned.next active next
        refine tracked.goesOn at_i active goes_on ?_
        rcases goes_on.2.2 with ⟨-, planned'⟩ | ⟨ended, -⟩
        · exact planned'
        · exact SyncTask.planned_of_not_active ended
  | vectorSearch dataset =>
    simp only [Engine.step] at taken
    split at taken
    · cases taken
      exact tracked
    · cases taken
      exact tracked
    · rename_i services uncached there
      have in_step := inStep_openFile (setup.embeddingModel dataset)
        (tracked.inStep there (orderly uncached))
      have saved := tracked.save there in_step
      split at taken <;> cases taken <;> exact ⟨saved.distinct, saved.filled, saved.exclusive,
        saved.planned, saved.followed⟩
  | finishBuild j =>
    simp only [Engine.step] at taken
    split at taken
    · rename_i dataset services store at_j
      cases taken
      obtain ⟨there, no_docs⟩ := current.builds _ (List.mem_of_getElem? at_j) rfl
      have in_step : InStep (some (store.upsert (buildRows setup dataset services)))
          (targetOf services) := by
        rintro _ ⟨⟩
        exact .inr (matches_build no_docs)
      have saved := tracked.save there in_step
      exact ⟨saved.distinct, saved.filled, saved.exclusive, saved.planned, saved.followed⟩
    · cases taken
  | traditionalSearch dataset =>
    simp only [Engine.step] at taken
    split at taken <;> cases taken
    · exact tracked
    · exact tracked
    · exact ⟨tracked.distinct, tracked.filled, tracked.exclusive, tracked.planned, tracked.followed⟩

/-! ### Searchers -/

/-- A change of the services concerns a dataset without a searcher. -/
theorem Current.change (current : Current s) (services : List ServiceRecord)
    (no_vector : s.vector.get? dataset = none) (no_traditional : s.traditional.get? dataset = none)
    (no_build : ¬ s.Building dataset) (tasks : List (SyncTask E)) :
    Current { s with files := s.files.insert dataset services, tasks := tasks } := by
  constructor
  · intro d store cached
    have ne : d ≠ dataset := by
      rintro rfl
      rw [no_vector] at cached
      cases cached
    obtain ⟨found, at_d, same⟩ := current.vector cached
    exact ⟨found, (get?_insert_of_ne ne).trans at_d, same⟩
  · intro build mem waits
    have ne : build.dataset ≠ dataset := fun same => no_build ⟨build, mem, same, waits⟩
    obtain ⟨at_d, no_docs⟩ := current.builds build mem waits
    exact ⟨(get?_insert_of_ne ne).trans at_d, no_docs⟩
  · intro d found cached
    have ne : d ≠ dataset := by
      rintro rfl
      rw [no_traditional] at cached
      cases cached
    exact (get?_insert_of_ne ne).trans (current.traditional cached)

theorem Current.save (current : Current s) (written : Option (VectorStore E)) :
    Current (s.save setup dataset written) := by
  cases written with
  | none => exact current
  | some store => exact ⟨current.vector, current.builds, current.traditional⟩

theorem Current.keep (current : Current s)
    (there : s.files.get? dataset = some services) (same : Matches store (targetOf services)) :
    Current { s with vector := s.vector.insert dataset store } := by
  refine ⟨fun {d found} cached => ?_, current.builds, current.traditional⟩
  rw [get?_insert] at cached
  split at cached
  · rename_i own
    cases cached
    exact ⟨services, own ▸ there, same⟩
  · exact current.vector cached

theorem Current.step (current : Current s) (tracked : Tracked setup s) (orderly : Orderly setup s l)
    (taken : Engine.step setup s l = some t) : Current t := by
  cases l with
  | change dataset services =>
    cases taken
    obtain ⟨-, no_vector, no_traditional, no_build, -⟩ := orderly
    exact current.change services no_vector no_traditional no_build _
  | sync i =>
    simp only [Engine.step] at taken
    split at taken
    · cases taken
    · rename_i task at_i
      obtain ⟨⟨task', written⟩, next, rfl⟩ := Option.map_eq_some_iff.mp taken
      have saved : Current (s.save setup task.dataset written) := current.save written
      exact ⟨saved.vector, saved.builds, saved.traditional⟩
  | vectorSearch dataset =>
    simp only [Engine.step] at taken
    split at taken
    · cases taken
      exact current
    · cases taken
      exact current
    · rename_i services uncached there
      have in_step := inStep_openFile (setup.embeddingModel dataset)
        (tracked.inStep there (orderly uncached))
      split at taken <;> cases taken
      · rename_i no_docs
        exact ⟨current.vector, forall_mem_concat current.builds fun _ => ⟨there, no_docs⟩,
          current.traditional⟩
      · rename_i some_doc
        have kept := current.keep there ((in_step _ rfl).resolve_left some_doc)
        exact ⟨kept.vector, kept.builds, kept.traditional⟩
  | finishBuild j =>
    simp only [Engine.step] at taken
    split at taken
    · rename_i dataset services store at_j
      cases taken
      obtain ⟨there, no_docs⟩ := current.builds _ (List.mem_of_getElem? at_j) rfl
      have same : Matches (store.upsert (buildRows setup dataset services))
          (targetOf services) := matches_build no_docs
      have kept := current.keep there same
      exact ⟨kept.vector, forall_mem_set current.builds nofun, kept.traditional⟩
    · cases taken
  | traditionalSearch dataset =>
    simp only [Engine.step] at taken
    split at taken <;> cases taken
    · exact current
    · exact current
    · rename_i services uncached there
      refine ⟨current.vector, current.builds, fun {d found} cached => ?_⟩
      rw [get?_insert] at cached
      split at cached
      · rename_i own
        cases cached
        exact own ▸ there
      · exact current.traditional cached

/-- No searchers and tasks, and collections that are empty or up to date. -/
structure Fresh (setup : SearchSetup E) (s : Engine E) : Prop where
  distinct : ∀ {d d' services services'}, s.files.get? d = some services →
    s.files.get? d' = some services' → setup.collectionName d = setup.collectionName d' → d = d'
  inStep : ∀ {d services}, s.files.get? d = some services →
    InStep (s.collection setup d) (targetOf services)
  tasks : s.tasks = []
  builds : s.builds = []
  vector : s.vector = OrderedMap.empty
  traditional : s.traditional = OrderedMap.empty

theorem Fresh.tracked (fresh : Fresh setup s) : Tracked setup s := by
  refine ⟨fresh.distinct, fun task mem => ?_, fun {i j task task'} at_i => ?_, fun task mem => ?_,
    fun {d services} there => .inr (.inr ⟨fun task mem => ?_, fresh.inStep there⟩)⟩
  · rw [fresh.tasks] at mem
    cases mem
  · rw [fresh.tasks] at at_i
    cases at_i
  · rw [fresh.tasks] at mem
    cases mem
  · rw [fresh.tasks] at mem
    cases mem

theorem Fresh.current (fresh : Fresh setup s) : Current s := by
  refine ⟨fun {d store} cached => ?_, fun build mem => ?_, fun {d services} cached => ?_⟩
  · rw [fresh.vector] at cached
    cases cached
  · rw [fresh.builds] at mem
    cases mem
  · rw [fresh.traditional] at cached
    cases cached

theorem vectorAnswer_eq (tracked : Tracked setup s) (current : Current s) (quiet : s.Quiet)
    (there : s.files.get? dataset = some services) :
    ∃ store : VectorStore E, Matches store (targetOf services) ∧ ∀ embedding topK,
      s.vectorAnswer setup dataset embedding topK = some (store.query setup embedding topK) := by
  unfold vectorAnswer
  cases cached : s.vector.get? dataset with
  | some store =>
    obtain ⟨found, at_d, same⟩ := current.vector cached
    rw [there] at at_d
    cases at_d
    exact ⟨store, same, fun _ _ => rfl⟩
  | none =>
    have idle : ¬ s.Syncing dataset := by
      rintro ⟨task, mem, -, running⟩
      rw [quiet task mem] at running
      cases running
    have in_step := inStep_openFile (setup.embeddingModel dataset) (tracked.inStep there idle)
    simp only [there]
    split
    · rename_i no_docs
      exact ⟨_, matches_build no_docs, fun _ _ => rfl⟩
    · rename_i some_doc
      exact ⟨_, (in_step _ rfl).resolve_left some_doc, fun _ _ => rfl⟩

end Engine

open Engine in
/-- A vector search returns the current services once the tasks have ended. -/
theorem search_follows_registry {setup : SearchSetup E} {start s : Engine E}
    {ls : List EngineLabel} (fresh : start.Fresh setup)
    (run : Run (Under (Orderly setup) (Steps (step setup))) start ls s) (quiet : s.Quiet)
    {dataset : String} {services : List ServiceRecord}
    (there : s.files.get? dataset = some services) :
    (∀ embedding topK, services.length ≤ topK →
      ∃ ids, s.vectorAnswer setup dataset embedding topK = some ids ∧
        ∀ id, id ∈ ids ↔ id ∈ services.map ServiceRecord.id) ∧
      (∀ embedding topK ids, s.vectorAnswer setup dataset embedding topK = some ids →
        ∀ id ∈ ids, id ∈ services.map ServiceRecord.id) ∧
      ∀ picked ids, s.traditionalAnswer dataset picked = some ids →
        ∀ id ∈ ids, id ∈ services.map ServiceRecord.id := by
  have kept : ∀ s l t, Tracked setup s ∧ Current s → Orderly setup s l →
      Steps (step setup) s l t → Tracked setup t ∧ Current t := by
    rintro s l t ⟨tracked, current⟩ orderly taken
    exact ⟨tracked.step current orderly taken, current.step tracked orderly taken⟩
  obtain ⟨tracked, current⟩ := run.invariant_under kept ⟨fresh.tracked, fresh.current⟩
  obtain ⟨store, same, answer⟩ := vectorAnswer_eq tracked current quiet there
  refine ⟨fun embedding topK room => ?_, fun embedding topK ids answered id mem => ?_,
    fun picked ids answered id mem => ?_⟩
  · refine ⟨_, answer embedding topK, fun id => ?_⟩
    rw [mem_query (same.length_le.trans room), same.mem_keys]
  · rw [answer] at answered
    cases answered
    exact same.mem_keys.mp (mem_keys_of_mem_query mem)
  · unfold traditionalAnswer at answered
    have known : (s.traditional.get? dataset).or (s.files.get? dataset) = some services := by
      cases cached : s.traditional.get? dataset with
      | none => exact there
      | some found => exact (current.traditional cached).symm.trans there
    rw [known] at answered
    cases answered
    simpa using (List.mem_filter.mp mem).2

theorem Engine.orderly_sync_iff {setup : SearchSetup E} {s : Engine E} {i : Nat} :
    s.Orderly setup (.sync i) ↔ ∀ task ∈ s.tasks[i]?, task.isScheduled = true →
      ∀ other ∈ s.tasks, other.active = true →
        setup.collectionName other.dataset ≠ setup.collectionName task.dataset :=
  Iff.rfl

instance Engine.decidableOrderly (setup : SearchSetup E) (s : Engine E) :
    ∀ l, Decidable (s.Orderly setup l)
  | .change dataset services => by
    unfold Engine.Orderly
    have : Decidable (s.vector.get? dataset = none) :=
      decidable_of_iff _ Option.isNone_iff_eq_none
    infer_instance
  | .sync i => decidable_of_iff _ Engine.orderly_sync_iff.symm
  | .vectorSearch dataset => by
    unfold Engine.Orderly
    have : Decidable (s.vector.get? dataset = none) :=
      decidable_of_iff _ Option.isNone_iff_eq_none
    infer_instance
  | .finishBuild _ => isTrue trivial
  | .traditionalSearch _ => isTrue trivial

/-- An embedding that is the text itself, with all embeddings equally near. -/
def textSetup : SearchSetup String where
  toLowercase name := String.ofList (name.toList.map Char.toLower)
  embeddingModel _ := "all-MiniLM-L6-v2"
  embed _ text := text
  nearer _ _ _ := true

theorem emptyEngine_fresh : ({} : Engine String).Fresh textSetup where
  distinct found := nomatch found
  inStep found := nomatch found
  tasks := rfl
  builds := rfl
  vector := rfl
  traditional := rfl

/-- A change that is followed before the first search. -/
def followedLabels : List EngineLabel :=
  [.change "ds" [⟨"a", "A", some "book flights"⟩], .sync 0, .sync 0, .sync 0, .sync 0,
    .vectorSearch "ds"]

def followedEnd : Option (Engine String) :=
  followedLabels.foldlM (fun s l => if s.Orderly textSetup l then s.step textSetup l else none) {}

theorem followed_change : ∃ s, followedEnd = some s ∧
    ∃ ids, s.vectorAnswer textSetup "ds" "flights" 1 = some ids ∧ ∀ id, id ∈ ids ↔ id ∈ ["a"] := by
  have ends : followedEnd.isSome = true := by decide
  have quiet : followedEnd.map (·.tasks.all SyncTask.isEnded) = some true := by decide
  have files : followedEnd.map (·.files.get? "ds") =
      some (some [⟨"a", "A", some "book flights"⟩]) := by
    decide
  obtain ⟨s, found⟩ := Option.isSome_iff_exists.mp ends
  rw [found, Option.map_some, Option.some.injEq] at quiet files
  refine ⟨s, found, ?_⟩
  exact (search_follows_registry emptyEngine_fresh (run_under_of_foldlM found)
    (fun task mem => List.all_eq_true.mp quiet task mem) files).1 "flights" 1 (by decide)

/-- A service is removed after the first search. -/
def staleLabels : List EngineLabel :=
  [.change "ds" [⟨"a", "A", some "book flights"⟩, ⟨"b", "B", some "cook food"⟩], .sync 0, .sync 0,
    .sync 0, .sync 0, .vectorSearch "ds", .change "ds" [⟨"a", "A", some "book flights"⟩], .sync 1,
    .sync 1, .sync 1]

def staleEnd : Option (Engine String) := staleLabels.foldlM (fun s l => s.step textSetup l) {}

/-- The engine searches the store it has kept. -/
theorem cached_searcher_stale : ({} : Engine String).Fresh textSetup ∧ ∃ s,
    Run (Steps (Engine.step textSetup)) {} staleLabels s ∧ s.Quiet ∧
      s.files.get? "ds" = some [⟨"a", "A", some "book flights"⟩] ∧
      s.vectorAnswer textSetup "ds" "food" 2 = some ["a", "b"] := by
  have ends : staleEnd.isSome = true := by decide
  have quiet : staleEnd.map (·.tasks.all SyncTask.isEnded) = some true := by decide
  have files : staleEnd.map (·.files.get? "ds") = some (some [⟨"a", "A", some "book flights"⟩]) := by
    decide
  have answer : staleEnd.map (·.vectorAnswer textSetup "ds" "food" 2) = some (some ["a", "b"]) := by
    decide
  obtain ⟨s, found⟩ := Option.isSome_iff_exists.mp ends
  rw [found, Option.map_some, Option.some.injEq] at quiet files answer
  exact ⟨emptyEngine_fresh, s, run_of_foldlM found,
    fun task mem => List.all_eq_true.mp quiet task mem, files, answer⟩

end AgentProtocols.Search
