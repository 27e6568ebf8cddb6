import AgentProtocols.Lib.Runs
import AgentProtocols.Json.Value
import Mathlib.Data.List.Dedup

/-!
The ownership file that registry clients share. A save puts the memory of the store in place of the
whole segment of its `base_url`.

* `opened_save_of_ne` — a save leaves what is stored for every other `base_url`.
* `Kept.step_iff` — when a call loses nothing that is owed.
* `updates_kept` — in every run of such calls, a store opened later holds what was added and not
  removed since.
* `Stale.second_add_wins` — two stores on one `base_url`, of which one add is lost.
-/

namespace AgentProtocols.Registry

open Lib OrderedMap List

/-- The JSON object in the file, if there is one. -/
abbrev Document := Option (OrderedMap String Json)

/-- The in-memory map, with the services of a dataset as a list. -/
abbrev Owned := OrderedMap String (List String)

/-- A store with its path; the path is the same for all. -/
structure OwnershipStore where
  baseUrl : String
  data : Owned

/-! ### Reading the file -/

theorem one_lt : 1 < 2 ^ 64 := by decide

def schemaVersion : Json := .num (.posInt 1 one_lt)

/-- The file says `schema_version` 1. -/
def versioned (obj : OrderedMap String Json) : Bool :=
  match obj.get? "schema_version" with
  | some (.num n) => n.asU64 == some 1
  | _ => false

def extractSegment (file : Document) (baseUrl : String) : Option Json :=
  match file with
  | none => none
  | some obj =>
    if versioned obj then ((obj.get? "data").bind Json.asObject).bind fun data => data.get baseUrl
    else obj.get? baseUrl

def readIds : String × Json → Option (String × List String)
  | (dataset, .arr items) => some (dataset, (items.filterMap Json.asStr).dedup)
  | _ => none

def loadSegment (segment : JsonDict) : Owned :=
  OrderedMap.empty.insertAll (segment.filterMap readIds)

namespace OwnershipStore

/-- `OwnershipStore::new`. -/
def opened (file : Document) (baseUrl : String) : OwnershipStore :=
  match (extractSegment file baseUrl).bind Json.asObject with
  | some segment => ⟨baseUrl, loadSegment segment⟩
  | none => ⟨baseUrl, .empty⟩

def contains (store : OwnershipStore) (dataset serviceId : String) : Bool :=
  match store.data.get? dataset with
  | some ids => decide (serviceId ∈ ids)
  | none => false

/-! ### Writing the file -/

def fresh : OrderedMap String Json :=
  (OrderedMap.empty.insert "schema_version" schemaVersion).insert "data" (.obj [])

/-- `read_existing`; a legacy file is wrapped. -/
def readExisting : Document → OrderedMap String Json
  | none => fresh
  | some obj =>
    if versioned obj then
      match (obj.get? "data").bind Json.asObject with
      | some _ => obj
      | none => obj.insert "data" (.obj [])
    else fresh.insert "data" (.obj (obj.entries.filter fun e => e.2.asObject.isSome))

/-- The segment that a store writes. -/
def segmentOf (data : Owned) : JsonDict :=
  data.entries.map fun e => (e.1, .arr (e.2.map .str))

def saveToDisk (store : OwnershipStore) (file : Document) : OrderedMap String Json :=
  let existing := readExisting file
  let entries := (existing.get? "data").bind Json.asObject |>.getD []
  let entries := if store.data.entries.isEmpty then entries.filter fun e => e.1 != store.baseUrl
    else entries.insert store.baseUrl (.obj (segmentOf store.data))
  (existing.erase "data").insert "data" (.obj entries)

/-! ### The calls -/

/-- `add`, before it saves. -/
def add (store : OwnershipStore) (dataset serviceId : String) : OwnershipStore :=
  let ids := (store.data.get? dataset).getD []
  { store with data := store.data.insert dataset (ids.insert serviceId) }

/-- `remove`, before it saves; `none` if it returns at once. -/
def remove (store : OwnershipStore) (dataset serviceId : String) : Option OwnershipStore :=
  match store.data.get? dataset with
  | none => none
  | some bucket =>
    let bucket := bucket.filter (· != serviceId)
    some { store with
      data := if bucket.isEmpty then store.data.erase dataset
        else store.data.insert dataset bucket }

/-- `remove_dataset`, before it saves; `none` if it returns at once. -/
def removeDataset (store : OwnershipStore) (dataset : String) : Option OwnershipStore :=
  match store.data.get? dataset with
  | none => none
  | some _ => some { store with data := store.data.erase dataset }

/-! ### What a save leaves in the file -/

variable {file : Document} {store : OwnershipStore} {url dataset serviceId : String}

theorem contains_iff : store.contains dataset serviceId = true ↔
    ∃ ids, store.data.get? dataset = some ids ∧ serviceId ∈ ids := by
  rw [contains]
  split
  · rename_i ids found
    simp [found]
  · rename_i absent
    simp [absent]

theorem readIds_segmentOf (data : Owned) :
    (segmentOf data).filterMap readIds = data.entries.map fun e => (e.1, e.2.dedup) := by
  have texts : ∀ ids : List String, (ids.map Json.str).filterMap Json.asStr = ids := by
    intro ids
    rw [filterMap_map]
    exact filterMap_some
  have each : readIds ∘ (fun e : String × List String => (e.1, Json.arr (e.2.map .str))) =
      some ∘ fun e => (e.1, e.2.dedup) := by
    funext e
    simp only [Function.comp_apply, readIds, texts]
  rw [segmentOf, filterMap_map, each, filterMap_eq_map]

theorem get?_loadSegment_segmentOf (data : Owned) :
    (loadSegment (segmentOf data)).get? dataset = (data.get? dataset).map dedup := by
  rw [loadSegment, readIds_segmentOf]
  apply get?_insertAll_empty (f := fun k => (data.get? k).map dedup)
  rintro ⟨key, ids⟩
  simp only [mem_map, Prod.mk.injEq, Option.map_eq_some_iff, get?_eq_some_iff]
  constructor
  · rintro ⟨e, mem, rfl, rfl⟩
    exact ⟨e.2, mem, rfl⟩
  · rintro ⟨ids', mem, rfl⟩
    exact ⟨(key, ids'), mem, rfl, rfl⟩

theorem versioned_insert_data {obj : OrderedMap String Json} {value : Json} :
    versioned (obj.insert "data" value) = versioned obj := by
  rw [versioned, versioned, get?_insert_of_ne (by decide)]

theorem versioned_readExisting : versioned (readExisting file) = true := by
  cases file with
  | none => rfl
  | some obj =>
    simp only [readExisting]
    split
    · rename_i current
      split
      · exact current
      · rw [versioned_insert_data]
        exact current
    · rfl

/-- The members under `data` of the file that a save starts from. -/
def dataEntries (file : Document) : JsonDict :=
  ((readExisting file).get? "data").bind Json.asObject |>.getD []

theorem get_dataEntries : ((dataEntries file).get url).bind Json.asObject =
    (extractSegment file url).bind Json.asObject := by
  cases file with
  | none => rfl
  | some obj =>
    simp only [dataEntries, readExisting, extractSegment]
    split
    · cases section_ : (obj.get? "data").bind Json.asObject with
      | none => simp [JsonDict.get, Json.asObject]
      | some entries => simp [section_]
    · have kept : (JsonDict.get (obj.entries.filter fun e => e.2.asObject.isSome) url) =
          (obj.get? url).filter fun v => v.asObject.isSome :=
        get?_retain (m := obj) (p := fun _ v => v.asObject.isSome)
      show ((JsonDict.get (obj.entries.filter fun e => e.2.asObject.isSome) url).bind
        Json.asObject) = _
      rw [kept]
      cases obj.get? url with
      | none => rfl
      | some value =>
        cases object : value.asObject with
        | none => simp [object]
        | some fields =>
          rw [Option.filter_some, if_pos (by simp [object])]

theorem get_filter_ne {dict : JsonDict} {key : String} :
    JsonDict.get (dict.filter fun e => e.1 != key) url = if url = key then none else dict.get url := by
  induction dict with
  | nil => simp [JsonDict.get]
  | cons e rest ih =>
    obtain ⟨first, value⟩ := e
    simp only [JsonDict.get] at ih ⊢
    by_cases here : first = key
    · subst here
      rw [filter_cons_of_neg (by simp), ih]
      split
      · rfl
      · rename_i other
        rw [lookup_cons, beq_false_of_ne other]
    · rw [filter_cons_of_pos (by simp [here]), lookup_cons, lookup_cons, ih]
      by_cases same : url = first
      · subst same
        simp [here]
      · rw [beq_false_of_ne same]

theorem extractSegment_saveToDisk : (extractSegment (some (store.saveToDisk file)) url) =
    if url = store.baseUrl then
      if store.data.entries.isEmpty then none else some (.obj (segmentOf store.data))
    else (dataEntries file).get url := by
  have current : versioned (store.saveToDisk file) = true := by
    rw [saveToDisk, versioned_insert_data, versioned, get?_erase_of_ne (by decide)]
    exact versioned_readExisting
  have data : (store.saveToDisk file).get? "data" = some (.obj
      (if store.data.entries.isEmpty then (dataEntries file).filter fun e => e.1 != store.baseUrl
        else (dataEntries file).insert store.baseUrl (.obj (segmentOf store.data)))) :=
    get?_insert_self
  rw [extractSegment, if_pos current, data]
  simp only [Option.bind_some, Json.asObject]
  split
  · rw [get_filter_ne]
  · split
    · rename_i here
      rw [here, JsonDict.get_insert_self]
    · rename_i other
      exact JsonDict.get_insert_of_ne _ other

/-- A save leaves what is stored for every other `base_url`. -/
theorem opened_save_of_ne (other : url ≠ store.baseUrl) :
    opened (some (store.saveToDisk file)) url = opened file url := by
  rw [opened, opened, extractSegment_saveToDisk, if_neg other, get_dataEntries]

theorem contains_opened_save :
    (opened (some (store.saveToDisk file)) store.baseUrl).contains dataset serviceId =
      store.contains dataset serviceId := by
  rw [opened, extractSegment_saveToDisk, if_pos rfl]
  split
  · rename_i segment found
    split at found
    · cases found
    · cases found
      rw [Bool.eq_iff_iff, contains_iff, contains_iff]
      simp only [get?_loadSegment_segmentOf, Option.map_eq_some_iff]
      constructor
      · rintro ⟨ids, ⟨ids', found, rfl⟩, mem⟩
        exact ⟨ids', found, List.mem_dedup.mp mem⟩
      · rintro ⟨ids, found, mem⟩
        exact ⟨_, ⟨ids, found, rfl⟩, List.mem_dedup.mpr mem⟩
  · rename_i absent
    split at absent
    · rename_i bare
      rw [List.isEmpty_iff] at bare
      simp [contains, OrderedMap.get?, OrderedMap.empty, bare]
    · cases absent

/-! ### What a call leaves in memory -/

theorem contains_add {other id : String} : (store.add dataset serviceId).contains other id = true ↔
    (other = dataset ∧ id = serviceId) ∨ store.contains other id = true := by
  rw [contains_iff, contains_iff, add]
  simp only [get?_insert]
  by_cases here : other = dataset
  · subst here
    cases store.data.get? other with
    | none => simp
    | some ids => simp [mem_insert_iff]
  · simp [here]

theorem contains_remove {store' : OwnershipStore} {other id : String}
    (removed : store.remove dataset serviceId = some store') :
    store'.contains other id = true ↔
      ¬(other = dataset ∧ id = serviceId) ∧ store.contains other id = true := by
  rw [remove] at removed
  split at removed
  · cases removed
  · rename_i bucket found
    cases removed
    rw [contains_iff, contains_iff]
    by_cases here : other = dataset
    · subst here
      by_cases bare : (bucket.filter (· != serviceId)).isEmpty = true
      · have only : ∀ id ∈ bucket, id = serviceId := by
          intro id mem
          by_contra ne
          rw [List.isEmpty_iff, List.filter_eq_nil_iff] at bare
          exact bare id mem (bne_iff_ne.mpr ne)
        simp only [bare, if_true, get?_erase_self, found]
        constructor
        · rintro ⟨ids, ⟨⟩, -⟩
        · rintro ⟨kept, ids, ⟨⟩, mem⟩
          exact absurd ⟨trivial, only id mem⟩ kept
      · simp only [bare, found]
        simp [and_comm]
    · split
      · simp [get?_erase_of_ne here, here]
      · simp [get?_insert_of_ne here, here]

theorem contains_removeDataset {store' : OwnershipStore} {other id : String}
    (removed : store.removeDataset dataset = some store') :
    store'.contains other id = true ↔ other ≠ dataset ∧ store.contains other id = true := by
  rw [removeDataset] at removed
  split at removed
  · cases removed
  · cases removed
    rw [contains_iff, contains_iff]
    by_cases here : other = dataset
    · simp [here]
    · simp [get?_erase_of_ne here, here]

end OwnershipStore

/-! ### Stores on one file -/

/-- The calls that change a store. -/
inductive Operation where
  | add (dataset serviceId : String)
  | remove (dataset serviceId : String)
  | removeDataset (dataset : String)

/-- A service that was added for a `base_url`. -/
structure Owing where
  baseUrl : String
  dataset : String
  serviceId : String
deriving DecidableEq

namespace Operation

/-- The store after the call, before it saves; `none` if the call returns at once. -/
def run (store : OwnershipStore) : Operation → Option OwnershipStore
  | add dataset serviceId => some (store.add dataset serviceId)
  | remove dataset serviceId => store.remove dataset serviceId
  | removeDataset dataset => store.removeDataset dataset

def names (dataset serviceId : String) : Operation → Bool
  | add d s | remove d s => dataset == d && serviceId == s
  | removeDataset d => dataset == d

/-- What is owed after a call for a `base_url` that did not return at once. -/
def owe (baseUrl : String) (owed : List Owing) : Operation → List Owing
  | add dataset serviceId => ⟨baseUrl, dataset, serviceId⟩ :: owed
  | op => owed.filter fun p => !(p.baseUrl == baseUrl && op.names p.dataset p.serviceId)

variable {op : Operation} {store store' : OwnershipStore} {dataset serviceId : String}

theorem baseUrl_run (ran : op.run store = some store') : store'.baseUrl = store.baseUrl := by
  cases op with
  | add dataset serviceId =>
    cases ran
    rfl
  | remove dataset serviceId =>
    simp only [run, OwnershipStore.remove] at ran
    split at ran
    · cases ran
    · cases ran
      rfl
  | removeDataset dataset =>
    simp only [run, OwnershipStore.removeDataset] at ran
    split at ran
    · cases ran
    · cases ran
      rfl

theorem contains_run (ran : op.run store = some store')
    (other : op.names dataset serviceId = false) :
    store'.contains dataset serviceId = store.contains dataset serviceId := by
  rw [Bool.eq_iff_iff]
  cases op with
  | add d s =>
    cases ran
    simp only [names, Bool.and_eq_false_iff, beq_eq_false_iff_ne] at other
    rw [OwnershipStore.contains_add]
    tauto
  | remove d s =>
    simp only [names, Bool.and_eq_false_iff, beq_eq_false_iff_ne] at other
    rw [OwnershipStore.contains_remove ran]
    tauto
  | removeDataset d =>
    simp only [names, beq_eq_false_iff_ne] at other
    rw [OwnershipStore.contains_removeDataset ran]
    tauto

theorem mem_owe {baseUrl : String} {owed : List Owing} {p : Owing}
    (ran : op.run store = some store') (mem : p ∈ op.owe baseUrl owed) :
    p ∈ owed ∧ (p.baseUrl = baseUrl → op.names p.dataset p.serviceId = false) ∨
      p.baseUrl = baseUrl ∧ store'.contains p.dataset p.serviceId = true := by
  cases op with
  | add d s =>
    cases ran
    rcases mem_cons.mp mem with rfl | mem
    · exact .inr ⟨rfl, OwnershipStore.contains_add.mpr (.inl ⟨rfl, rfl⟩)⟩
    · by_cases here : p.baseUrl = baseUrl ∧ (add d s).names p.dataset p.serviceId = true
      · simp only [names, Bool.and_eq_true, beq_iff_eq] at here
        exact .inr ⟨here.1, OwnershipStore.contains_add.mpr (.inl here.2)⟩
      · exact .inl ⟨mem, fun same => by simpa [same] using here⟩
  | remove d s =>
    obtain ⟨mem, kept⟩ := mem_filter.mp mem
    refine .inl ⟨mem, fun same => ?_⟩
    simpa [same] using kept
  | removeDataset d =>
    obtain ⟨mem, kept⟩ := mem_filter.mp mem
    refine .inl ⟨mem, fun same => ?_⟩
    simpa [same] using kept

theorem mem_owe_of_not_named {baseUrl : String} {owed : List Owing} {p : Owing} (mem : p ∈ owed)
    (other : op.names p.dataset p.serviceId = false) : p ∈ op.owe baseUrl owed := by
  cases op with
  | add d s => exact .tail _ mem
  | remove d s => exact mem_filter.mpr ⟨mem, by simp [other]⟩
  | removeDataset d => exact mem_filter.mpr ⟨mem, by simp [other]⟩

end Operation

/-- The file, the stores that were opened on it, and what is owed. -/
structure Shared where
  file : Document
  stores : List OwnershipStore
  owed : List Owing

/-- A call; a store is named by the order in which it was opened. -/
inductive OwnershipCall where
  | new (baseUrl : String)
  | on (index : Nat) (op : Operation)

namespace Shared

open OwnershipStore

def step (s : Shared) : OwnershipCall → Option Shared
  | .new baseUrl => some { s with stores := s.stores ++ [opened s.file baseUrl] }
  | .on index op =>
    match s.stores[index]? with
    | none => none
    | some store =>
      match op.run store with
      | none => some s
      | some store' => some ⟨some (store'.saveToDisk s.file), s.stores.set index store',
          op.owe store.baseUrl s.owed⟩

/-- A store opened now holds what is owed. -/
def Kept (s : Shared) : Prop :=
  ∀ p ∈ s.owed, (opened s.file p.baseUrl).contains p.dataset p.serviceId = true

/-- A store that saves holds what is owed for its `base_url`, but for what the call
names. -/
def UpToDate (s : Shared) : OwnershipCall → Prop
  | .new _ => True
  | .on index op => ∀ store ∈ s.stores[index]?, (op.run store).isSome = true →
      ∀ p ∈ s.owed, p.baseUrl = store.baseUrl → op.names p.dataset p.serviceId = false →
        store.contains p.dataset p.serviceId = true

/-- The `base_url` of the store that makes the call. -/
def caller (s : Shared) : OwnershipCall → Option String
  | .new _ => none
  | .on index _ => s.stores[index]?.map OwnershipStore.baseUrl

variable {s t : Shared} {call : OwnershipCall}

theorem opened_step_of_ne {url : String} (other : s.caller call ≠ some url)
    (step : s.step call = some t) : opened t.file url = opened s.file url := by
  cases call with
  | new baseUrl =>
    cases step
    rfl
  | on index op =>
    simp only [Shared.step] at step
    split at step
    · cases step
    · rename_i store found
      split at step
      · cases step
        rfl
      · rename_i store' ran
        cases step
        apply opened_save_of_ne
        rw [Operation.baseUrl_run ran]
        rintro rfl
        exact other (by rw [caller, found, Option.map_some])

/-- A call loses nothing that is owed exactly if its store is up to date. -/
theorem Kept.step_iff (kept : s.Kept) (step : s.step call = some t) :
    t.Kept ↔ s.UpToDate call := by
  cases call with
  | new baseUrl =>
    cases step
    exact iff_of_true kept trivial
  | on index op =>
    simp only [Shared.step] at step
    split at step
    · cases step
    · rename_i store found
      split at step
      · rename_i early
        cases step
        refine iff_of_true kept fun other same ran => ?_
        rw [found] at same
        cases same
        rw [early] at ran
        cases ran
      · rename_i store' ran
        cases step
        have url := Operation.baseUrl_run ran
        constructor
        · rintro after other same - p mem here unnamed
          rw [found] at same
          cases same
          have still := after p (Operation.mem_owe_of_not_named mem unnamed)
          rw [← url] at here
          rw [here, contains_opened_save, Operation.contains_run ran unnamed] at still
          exact still
        · intro upToDate p mem
          by_cases here : p.baseUrl = store.baseUrl
          · rw [here, ← url, contains_opened_save]
            rcases Operation.mem_owe ran mem with ⟨owed, unnamed⟩ | ⟨-, held⟩
            · rw [Operation.contains_run ran (unnamed here)]
              exact upToDate store found (Option.isSome_iff_exists.mpr ⟨_, ran⟩) p owed here
                (unnamed here)
            · exact held
          · rw [opened_save_of_ne (by rw [url]; exact here)]
            rcases Operation.mem_owe ran mem with ⟨owed, -⟩ | ⟨same, -⟩
            · exact kept p owed
            · exact absurd same here

/-- A store opened at the end holds what was added and not removed since. -/
theorem updates_kept {file : Document} {calls : List OwnershipCall}
    (run : Run (Under UpToDate (Steps step)) ⟨file, [], []⟩ calls s) :
    (∀ p ∈ s.owed, (opened s.file p.baseUrl).contains p.dataset p.serviceId = true) ∧
      ∀ call t url, s.step call = some t → s.caller call ≠ some url →
        opened t.file url = opened s.file url := by
  have kept : ∀ (s : Shared) (call : OwnershipCall) (t : Shared), s.Kept → s.UpToDate call →
      Steps Shared.step s call t → t.Kept :=
    fun _ _ _ kept upToDate step => (kept.step_iff step).mpr upToDate
  have fresh : Kept ⟨file, [], []⟩ := fun p mem => absurd mem List.not_mem_nil
  exact ⟨run.invariant_under kept fresh, fun _ _ _ step other => opened_step_of_ne other step⟩

end Shared

/-! ### Two stores on one `base_url` -/

namespace Stale

open OwnershipStore

def fresh : Shared := ⟨none, [], []⟩

/-- Both are opened before either adds a service. -/
def early : List OwnershipCall :=
  [.new "u", .new "u", .on 0 (.add "ds" "a"), .on 1 (.add "ds" "b")]

/-- The second is opened after the first has added one. -/
def late : List OwnershipCall :=
  [.new "u", .on 0 (.add "ds" "a"), .new "u", .on 1 (.add "ds" "b")]

/-- The service that the first store added is gone. -/
theorem second_add_wins : ∃ s, Run (Steps Shared.step) fresh early s ∧
    ⟨"u", "ds", "a"⟩ ∈ s.owed ∧ (opened s.file "u").contains "ds" "a" = false := by
  have ends : (early.foldlM Shared.step fresh).isSome := by decide
  obtain ⟨s, ended⟩ := Option.isSome_iff_exists.mp ends
  have lost : (early.foldlM Shared.step fresh).map (fun s =>
      (decide (⟨"u", "ds", "a"⟩ ∈ s.owed), (opened s.file "u").contains "ds" "a")) =
      some (true, false) := by decide
  rw [ended] at lost
  simp only [Option.map_some, Option.some.injEq, Prod.mk.injEq, decide_eq_true_eq] at lost
  exact ⟨s, run_of_foldlM ended, lost⟩

instance (s : Shared) : ∀ call, Decidable (s.UpToDate call)
  | .new _ => isTrue trivial
  | .on index op => inferInstanceAs (Decidable (∀ store ∈ s.stores[index]?,
      (op.run store).isSome = true → ∀ p ∈ s.owed, p.baseUrl = store.baseUrl →
        op.names p.dataset p.serviceId = false → store.contains p.dataset p.serviceId = true))

theorem later_store_keeps : ∃ s : Shared, ⟨"u", "ds", "a"⟩ ∈ s.owed ∧
    (opened s.file "u").contains "ds" "a" = true := by
  have ends : (late.foldlM (fun (s : Shared) call =>
      if s.UpToDate call then s.step call else none) fresh).isSome := by decide
  obtain ⟨s, ended⟩ := Option.isSome_iff_exists.mp ends
  have owed : (late.foldlM (fun (s : Shared) call =>
      if s.UpToDate call then s.step call else none) fresh).map (fun s => decide (⟨"u", "ds", "a"⟩ ∈ s.owed)) = some true := by decide
  rw [ended] at owed
  simp only [Option.map_some, Option.some.injEq, decide_eq_true_eq] at owed
  exact ⟨s, owed, (Shared.updates_kept (run_under_of_foldlM ended)).1 _ owed⟩

end Stale

end AgentProtocols.Registry
