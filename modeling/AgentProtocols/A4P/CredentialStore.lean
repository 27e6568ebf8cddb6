import AgentProtocols.A4P.Util

/-!
User credential records and their in-memory store, an insertion-ordered list with one record per
credential id. Later proofs use `get_save_self` and `get_save_of_ne`.
-/

namespace AgentProtocols.A4P

open Json

structure UserCredentialRecord where
  userId : String
  credentialId : String
  signatureMethod : String
  publicKey : JsonDict
  details : JsonDict := []
  metadata : JsonDict := []
  createdAt : String := ""
deriving DecidableEq

/-! ### The in-memory store -/

open UserCredentialRecord

/-- One record per credential id, in insertion order. -/
structure InMemoryCredentialStore where
  records : List UserCredentialRecord
  nodup : (records.map credentialId).Nodup

/-- Replace the record of the same id, or append. -/
def insertRecord (record : UserCredentialRecord) :
    List UserCredentialRecord → List UserCredentialRecord
  | [] => [record]
  | r :: rest =>
    if r.credentialId = record.credentialId then record :: rest
    else r :: insertRecord record rest

theorem insertRecord_ids (record : UserCredentialRecord) : ∀ records : List UserCredentialRecord,
    (insertRecord record records).map credentialId =
      if record.credentialId ∈ records.map credentialId
        then records.map credentialId
        else records.map credentialId ++ [record.credentialId]
  | [] => by simp [insertRecord]
  | r :: rest => by
    by_cases h : r.credentialId = record.credentialId
    · simp [insertRecord, h]
    · have ih := insertRecord_ids record rest
      have h' : record.credentialId ≠ r.credentialId := Ne.symm h
      simp only [insertRecord, h, if_false, List.map_cons, ih, List.mem_cons, h', false_or]
      split_ifs <;> rfl

theorem nodup_insertRecord (record : UserCredentialRecord) {records : List UserCredentialRecord}
    (nodup : (records.map credentialId).Nodup) :
    ((insertRecord record records).map credentialId).Nodup := by
  rw [insertRecord_ids]
  split_ifs with mem
  · exact nodup
  · exact nodup.append (List.nodup_singleton _) (by simpa [List.disjoint_singleton] using mem)

namespace InMemoryCredentialStore

def empty : InMemoryCredentialStore := ⟨[], List.nodup_nil⟩

/-- `insert`, the body of `save`. -/
def save (store : InMemoryCredentialStore) (record : UserCredentialRecord) :
    InMemoryCredentialStore :=
  ⟨insertRecord record store.records, nodup_insertRecord record store.nodup⟩

def get (store : InMemoryCredentialStore) (credentialId : String) : Option UserCredentialRecord :=
  store.records.find? fun record => record.credentialId = credentialId

def listForUser (store : InMemoryCredentialStore) (userId : String) : List UserCredentialRecord :=
  store.records.filter fun record => record.userId = userId

def listAll (store : InMemoryCredentialStore) : List UserCredentialRecord := store.records

/-- `replace_all`: the last record of an id wins, in the place of the first. -/
def replaceAll (records : List UserCredentialRecord) : InMemoryCredentialStore :=
  records.foldl save empty

variable {store : InMemoryCredentialStore} {record : UserCredentialRecord} {id : String}

theorem get_eq_some_iff :
    store.get id = some record ↔ record ∈ store.records ∧ record.credentialId = id := by
  constructor
  · intro found
    exact ⟨List.mem_of_find?_eq_some found, by simpa using List.find?_some found⟩
  · rintro ⟨mem, rfl⟩
    obtain ⟨found, eq⟩ : ∃ r, store.get record.credentialId = some r := by
      rw [← Option.isSome_iff_exists, get, List.find?_isSome]
      exact ⟨record, mem, by simp⟩
    have mem' := List.mem_of_find?_eq_some eq
    have id' : found.credentialId = record.credentialId := by simpa using List.find?_some eq
    rw [eq, List.inj_on_of_nodup_map store.nodup mem' mem id']

@[simp] theorem get_empty : empty.get id = none := rfl

@[simp] theorem get_save_self : (store.save record).get record.credentialId = some record := by
  rw [get_eq_some_iff]
  refine ⟨?_, rfl⟩
  simp only [save]
  induction store.records with
  | nil => simp [insertRecord]
  | cons r rest ih =>
    by_cases h : r.credentialId = record.credentialId
    · simp [insertRecord, h]
    · simp [insertRecord, h, ih]

theorem get_save_of_ne (ne : id ≠ record.credentialId) : (store.save record).get id = store.get id := by
  simp only [save, get]
  induction store.records with
  | nil => simp [insertRecord, Ne.symm ne]
  | cons r rest ih =>
    by_cases h : r.credentialId = record.credentialId
    · simp [insertRecord, h, Ne.symm ne]
    · by_cases here : r.credentialId = id
      · simp [insertRecord, here, ne]
      · simp [insertRecord, h, here, ih]

theorem get_foldl_save : ∀ {records : List UserCredentialRecord} {store : InMemoryCredentialStore},
    (records.map credentialId).Nodup → (records.foldl save store).get id =
        (records.find? fun r => r.credentialId = id).or (store.get id)
  | [], store, _ => rfl
  | r :: rest, store, nodup => by
    simp only [List.map_cons, List.nodup_cons] at nodup
    rw [List.foldl_cons, get_foldl_save nodup.2]
    by_cases h : r.credentialId = id
    · subst h
      have absent : rest.find? (fun r' => r'.credentialId = r.credentialId) = none := by
        rw [List.find?_eq_none]
        intro x mem eq
        exact nodup.1 (List.mem_map.mpr ⟨x, mem, by simpa using eq⟩)
      simp [absent]
    · rw [get_save_of_ne (Ne.symm h), List.find?_cons_of_neg (by simpa using h)]

end InMemoryCredentialStore

end AgentProtocols.A4P
