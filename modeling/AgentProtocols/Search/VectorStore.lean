import AgentProtocols.Search.Taxonomy

/-!
The vector store of a dataset, and the plan that brings it up to date.

* `matches_plan`, `matches_rows` — a store edited by the plan has the documents of the target.
* `mem_query` — a query with room for all documents finds all of them.
-/

namespace AgentProtocols.Search

open Lib OrderedMap List

variable {E : Type}

/-- `StoredDoc`, without the id it is stored under. -/
structure StoredDoc (E : Type) where
  text : String
  embedding : E
deriving DecidableEq

/-- `VectorStore`, and its file. -/
structure VectorStore (E : Type) where
  embeddingModel : Option String
  docs : OrderedMap String (StoredDoc E)

/-- What the engine is given: names, embedding models, embeddings and their nearness. -/
structure SearchSetup (E : Type) where
  toLowercase : String → String
  embeddingModel : String → String
  embed : String → String → E
  nearer : E → E → E → Bool

def SearchSetup.collectionName (setup : SearchSetup E) (dataset : String) : String :=
  String.ofList ((setup.toLowercase dataset).toList.map fun c => if c = '-' then '_' else c)

/-- The descriptions that the store is to have, by id. -/
abbrev Target := OrderedMap String String

def ServiceRecord.descriptionText (service : ServiceRecord) : String := service.description.getD ""

/-- The target that `sync_vector` reads from `service.json`. -/
def targetOf (services : List ServiceRecord) : Target :=
  OrderedMap.empty.insertAll (services.map fun service => (service.id, service.descriptionText))

namespace VectorStore

def openFile (file : Option (VectorStore E)) (model : String) : VectorStore E :=
  match file with
  | none => ⟨some model, OrderedMap.empty⟩
  | some store =>
    if store.embeddingModel.isNone then { store with embeddingModel := some model } else store

def clear : VectorStore E := ⟨none, OrderedMap.empty⟩

def deleteIds (store : VectorStore E) (ids : List String) : VectorStore E :=
  { store with docs := store.docs.eraseAll ids }

def upsert (store : VectorStore E) (rows : List (String × StoredDoc E)) : VectorStore E :=
  { store with docs := store.docs.insertAll rows }

/-- `VectorStore::query`: the ids of the nearest documents. -/
def query (setup : SearchSetup E) (store : VectorStore E) (embedding : E) (topK : Nat) :
    List String :=
  ((store.docs.entries.insertionSort fun a b =>
    setup.nearer embedding a.2.embedding b.2.embedding).take topK).map Prod.fst

def toDelete (store : VectorStore E) (target : Target) : List String :=
  store.docs.keys.filter fun id => (target.get? id).isNone

def toUpsert (store : VectorStore E) (target : Target) : List (String × String) :=
  target.entries.filter fun row => (store.docs.get? row.1).map StoredDoc.text ≠ some row.2

end VectorStore

/-- The documents for descriptions. -/
def SearchSetup.rows (setup : SearchSetup E) (dataset : String) (texts : List (String × String)) :
    List (String × StoredDoc E) :=
  texts.map fun row => (row.1, ⟨row.2, setup.embed (setup.embeddingModel dataset) row.2⟩)

def Matches (store : VectorStore E) (target : Target) : Prop :=
  ∀ id, (store.docs.get? id).map StoredDoc.text = target.get? id

variable {setup : SearchSetup E} {store : VectorStore E} {target : Target} {dataset : String}

@[simp] theorem openFile_docs_some (model : String) :
    (VectorStore.openFile (some store) model).docs = store.docs := by
  unfold VectorStore.openFile
  dsimp only
  split <;> rfl

/-- A store that is edited by the plan has the texts of the target. -/
theorem matches_plan :
    Matches ((store.deleteIds (store.toDelete target)).upsert
      (setup.rows dataset (store.toUpsert target))) target := by
  intro id
  show (((store.docs.eraseAll _).insertAll _).get? id).map StoredDoc.text = _
  by_cases changed : ∃ text, (id, text) ∈ store.toUpsert target
  · obtain ⟨text, mem⟩ := changed
    obtain ⟨inside, -⟩ := mem_filter.mp mem
    have wanted : target.get? id = some text := get?_eq_some_iff.mpr inside
    have found := get?_insertAll_of_mem (m := store.docs.eraseAll (store.toDelete target))
      (mem_map_of_mem (f := fun row : String × String =>
        (row.1, (⟨row.2, setup.embed (setup.embeddingModel dataset) row.2⟩ : StoredDoc E))) mem)
      (by
        intro row row_mem same
        obtain ⟨⟨id', text'⟩, mem', rfl⟩ := mem_map.mp row_mem
        subst same
        obtain ⟨inside', -⟩ := mem_filter.mp mem'
        have wanted' := get?_eq_some_iff.mpr inside'
        rw [wanted] at wanted'
        cases wanted'
        rfl)
    rw [SearchSetup.rows, found, wanted]
    rfl
  · have absent : ∀ row ∈ setup.rows dataset (store.toUpsert target), row.1 ≠ id := by
      intro row row_mem same
      obtain ⟨⟨id', text'⟩, mem', rfl⟩ := mem_map.mp row_mem
      exact changed ⟨text', same ▸ mem'⟩
    rw [get?_insertAll_of_not_mem absent, get?_eraseAll]
    cases wanted : target.get? id with
    | none =>
      split
      · rfl
      · rename_i kept
        cases found : store.docs.get? id with
        | none => rfl
        | some doc =>
          have deleted : id ∈ store.toDelete target :=
            mem_filter.mpr ⟨mem_keys_iff.mpr ⟨doc, found⟩, by simp [wanted]⟩
          exact absurd deleted kept
    | some text =>
      have kept : id ∉ store.toDelete target := by
        intro mem
        have none_wanted := (mem_filter.mp mem).2
        rw [wanted] at none_wanted
        cases none_wanted
      rw [if_neg kept]
      by_contra differs
      refine changed ⟨text, mem_filter.mpr ⟨get?_eq_some_iff.mp wanted, ?_⟩⟩
      simpa using differs

variable {id : String} {services : List ServiceRecord}

/-- A store without documents that the services are inserted into. -/
theorem matches_rows (no_docs : store.docs.entries = []) : Matches (store.upsert (setup.rows dataset
      (services.map fun service => (service.id, service.descriptionText)))) (targetOf services) := by
  have both : ∀ (texts : List (String × String)) (docs : OrderedMap String (StoredDoc E))
      (target : Target), (∀ id, (docs.get? id).map StoredDoc.text = target.get? id) →
      ∀ id, ((docs.insertAll (setup.rows dataset texts)).get? id).map StoredDoc.text =
        (target.insertAll texts).get? id := by
    intro texts
    induction texts with
    | nil => exact fun docs target same => same
    | cons row rest ih =>
      intro docs target same
      apply ih
      intro id
      rw [get?_insert, get?_insert]
      split
      · rfl
      · exact same id
  apply both
  intro id
  have absent : store.docs.get? id = none := by
    rw [get?_eq_none_iff, OrderedMap.keys, no_docs]
    exact not_mem_nil
  rw [absent]
  rfl

theorem isSome_targetOf :
    ((targetOf services).get? id).isSome ↔ id ∈ services.map ServiceRecord.id := by
  unfold targetOf
  rw [isSome_get?_insertAll, map_map]
  simp only [get?_empty, Option.isSome_none, Bool.false_eq_true, or_false]
  rfl

theorem Matches.mem_keys (same : Matches store (targetOf services)) :
    id ∈ store.docs.keys ↔ id ∈ services.map ServiceRecord.id := by
  rw [← isSome_targetOf, ← same id, Option.isSome_map, mem_keys_iff, Option.isSome_iff_exists]

theorem Matches.length_le (same : Matches store (targetOf services)) :
    store.docs.entries.length ≤ services.length := by
  have fewer : store.docs.keys.length ≤ (services.map ServiceRecord.id).length :=
    (subperm_of_subset store.docs.nodup fun id mem => same.mem_keys.mp mem).length_le
  simpa [OrderedMap.keys] using fewer

theorem mem_keys_of_mem_query {embedding : E} {topK : Nat}
    (mem : id ∈ store.query setup embedding topK) : id ∈ store.docs.keys := by
  obtain ⟨row, inside, rfl⟩ := mem_map.mp mem
  exact mem_map_of_mem ((perm_insertionSort _ _).mem_iff.mp (mem_of_mem_take inside))

/-- A query with room for all documents finds all of them. -/
theorem mem_query {embedding : E} {topK : Nat} (room : store.docs.entries.length ≤ topK)
    : id ∈ store.query setup embedding topK ↔ id ∈ store.docs.keys := by
  unfold VectorStore.query OrderedMap.keys
  rw [take_of_length_le (by rw [length_insertionSort]; exact room)]
  exact ((perm_insertionSort _ _).map Prod.fst).mem_iff

end AgentProtocols.Search
