import AgentProtocols.A2A.Codec

/-!
What the wire format of the A2A data types preserves. The encoder and decoder of each type form a
lawful codec; `wire_round_trips` is what follows for the nine types, for values whose parts carry a
content and whose update events name their task.
-/

namespace AgentProtocols

open Lib

/-! ### The members of a written object -/

namespace JsonDict

@[simp] theorem get_nil (key : String) : JsonDict.get [] key = none := rfl

@[simp] theorem get_cons (k : String) (v : Json) (d : JsonDict) (key : String) :
    JsonDict.get ((k, v) :: d) key = if key = k then some v else JsonDict.get d key := by
  rw [get, List.lookup_cons]
  by_cases same : key = k
  · rw [if_pos same, beq_iff_eq.mpr same]
  · rw [if_neg same, beq_eq_false_iff_ne.mpr same, get]

@[simp] theorem get_append (a b : JsonDict) (key : String) :
    JsonDict.get (a ++ b) key = (JsonDict.get a key).or (JsonDict.get b key) :=
  List.lookup_append

@[simp] theorem get_map_toList {α : Type} (value : Option α) (f : α → Json) (k key : String) :
    JsonDict.get (value.map fun a => (k, f a)).toList key =
      if key = k then value.map f else none := by
  cases value with
  | none =>
    split
    · rfl
    · rfl
  | some a => exact get_cons k (f a) [] key

@[simp] theorem get_member_toList (value : Option Json) (k key : String) :
    JsonDict.get (value.map fun v => (k, v)).toList key = if key = k then value else none := by
  rw [get_map_toList value (fun v => v), Option.map_id']

end JsonDict

namespace A2A

open Json
open AgentProtocols.Lib.Codec (bind_ok)

@[simp] theorem get_optStr (k key : String) (value : Option String) :
    (optStr k value).get key = if key = k then value.map .str else none :=
  JsonDict.get_map_toList value .str k key

@[simp] theorem get_optBool (k key : String) (value : Option Bool) :
    (optBool k value).get key = if key = k then value.map .bool else none :=
  JsonDict.get_map_toList value .bool k key

@[simp] theorem get_optMetadata (key : String) (metadata : Option Json) :
    (optMetadata metadata).get key = if key = "metadata" then metadata else none :=
  JsonDict.get_member_toList metadata "metadata" key

/-! ### Reading members back -/

namespace Wire

variable {obj : JsonDict} {key typeName : String}

theorem getString_of_get {s : String} (found : obj.get key = some (.str s)) :
    getString obj key typeName = .ok s := by
  rw [getString, found]
  rfl

theorem optString_of_get {x : Option String} (found : obj.get key = x.map Json.str) :
    optString obj key typeName = .ok x := by
  rw [optString, found]
  cases x <;> rfl

theorem optStringNullable_of_get {x : Option String} (found : obj.get key = x.map Json.str) :
    optStringNullable obj key typeName = .ok x := by
  rw [optStringNullable, found]
  cases x with
  | none => rfl
  | some s =>
    rfl

theorem optBool_of_get {x : Option Bool} (found : obj.get key = x.map Json.bool) :
    optBool obj key typeName = .ok x := by
  rw [optBool, found]
  cases x <;> rfl

theorem asI32_i32Json (message : String) (i : Int32) : asI32 message (i32Json i) = .ok i := by
  have read : (Number.ofI64 i.toInt).asI64 = some i.toInt :=
    Number.asI64_ofI64 (by have := i.le_toInt; omega) (by have := i.toInt_lt; omega)
  rw [i32Json, asI32, read]
  exact congrArg Except.ok (Int32.ofInt_toInt i)

theorem optI32_of_get {x : Option Int32} (found : obj.get key = x.map i32Json) :
    optI32 obj key typeName = .ok x := by
  rw [optI32, found]
  cases x with
  | none => rfl
  | some i =>
    exact Codec.option_mapM_some_eq_ok.mpr ⟨i, asI32_i32Json _ i, rfl⟩

theorem stringVec_stringVecJson (what : String) : ∀ items : List String,
    stringVec what (stringVecJson items) = .ok items
  | [] => rfl
  | s :: rest =>
    mapM_cons_eq_ok.mpr ⟨s, rest, rfl, stringVec_stringVecJson what rest, rfl⟩

theorem optStringVec_of_get {x : Option (List String)}
    (found : obj.get key = x.map stringVecJson) : optStringVec obj key typeName = .ok x := by
  rw [optStringVec, found]
  cases x with
  | none => rfl
  | some items =>
    exact Codec.option_mapM_some_eq_ok.mpr ⟨items, stringVec_stringVecJson _ items, rfl⟩

theorem vecOf_eq_ok {α : Type} {read : Json → Except String α} {what : String} {v : Json}
    {xs : List α} : vecOf read what v = .ok xs ↔ ∃ items, v = .arr items ∧ items.mapM read = .ok xs := by
  cases v with
  | arr items =>
    refine ⟨fun done => ⟨items, rfl, done⟩, ?_⟩
    rintro ⟨items', same, done⟩
    cases same
    exact done
  | _ => simp [vecOf]

theorem refuseIf_eq_ok {failed : Bool} {message : String} :
    refuseIf failed message = .ok () ↔ failed = false := by
  cases failed with
  | false => exact ⟨fun _ => rfl, fun _ => rfl⟩
  | true => simp [refuseIf]

end Wire

/-! ### Normal forms -/

def nonNull (metadata : Option Json) : Option Json := metadata.filter (· ≠ .null)

theorem nonNull_nonNull (metadata : Option Json) : nonNull (nonNull metadata) = nonNull metadata := by
  rw [nonNull, nonNull]
  simp

open Wire

theorem Wire.optMetadata_eq (obj : JsonDict) : optMetadata obj = nonNull (obj.get "metadata") :=
  rfl

namespace Part

def firstContent (p : Part) : Part :=
  match p.text, p.raw, p.url, p.data with
  | some t, _, _, _ => { text := some t }
  | none, some r, _, _ => { raw := some r }
  | none, none, some u, _ => { url := some u }
  | none, none, none, data => { data }

def normal (p : Part) : Part :=
  { p.firstContent with
    metadata := nonNull p.metadata, filename := p.filename, mediaType := p.mediaType }

theorem normal_with (p : Part) (metadata : Option Json) (filename mediaType : Option String) :
    ({ p with metadata, filename, mediaType } : Part).normal =
      { p.firstContent with metadata := nonNull metadata, filename, mediaType } :=
  rfl

/-- The content that is written may stand in a part. -/
def Readable (p : Part) : Prop :=
  match p.text, p.raw, p.url, p.data with
  | none, none, none, none => False
  | none, none, none, some .null => False
  | none, none, none, some (.arr _) => False
  | _, _, _, _ => True

def codec : Codec String Json Part := ⟨fun p => .ok p.toJsonValue, fromJsonValue⟩

variable {p : Part}

theorem readContent_content (readable : p.Readable) (rest : JsonDict) :
    readContent (p.content ++ rest) = .ok p.firstContent := by
  obtain ⟨text, raw, url, data, metadata, filename, mediaType⟩ := p
  cases text with
  | some t => simp [content, firstContent, readContent, asString]
  | none =>
    cases raw with
    | some r => simp [content, firstContent, readContent, asString]
    | none =>
      cases url with
      | some u => simp [content, firstContent, readContent, asString]
      | none =>
        cases data with
        | none => exact readable.elim
        | some d =>
          cases d with
          | null => exact readable.elim
          | arr items => exact readable.elim
          | _ => simp [content, firstContent, readContent]

/-- A part that the loop returns has one content. -/
theorem readContent_eq_ok {p : Part} : ∀ {d : JsonDict}, readContent d = .ok p →
    p.Readable ∧ p.firstContent = p
  | [], read => by cases read
  | (key, v) :: rest, read => by
    unfold readContent at read
    split at read
    · exact readContent_eq_ok read
    · rename_i there
      split at read
      · obtain ⟨t, -, same⟩ := bind_eq_ok.mp read
        cases same
        exact ⟨trivial, rfl⟩
      · split at read
        · obtain ⟨r, -, same⟩ := bind_eq_ok.mp read
          cases same
          exact ⟨trivial, rfl⟩
        · split at read
          · obtain ⟨u, -, same⟩ := bind_eq_ok.mp read
            cases same
            exact ⟨trivial, rfl⟩
          · split at read
            · split at read
              · cases read
              · rename_i other
                cases read
                refine ⟨?_, rfl⟩
                cases v with
                | null => exact there rfl
                | arr items => exact other items rfl
                | _ => trivial
            · exact readContent_eq_ok read

theorem get_content {key : String} (other : key ∉ ["text", "raw", "url", "data"]) :
    p.content.get key = none := by
  simp only [List.mem_cons, not_or] at other
  rw [content]
  split <;> simp [other]

theorem lawful : codec.Lawful normal Readable where
  restored := by
    intro p v readable written
    cases written
    have absent : ∀ key, key ∉ ["text", "raw", "url", "data"] → p.content.get key = none :=
      fun _ => get_content
    simp only [toJsonValue, List.append_assoc]
    refine bind_ok rfl (bind_ok (readContent_content readable _) (bind_ok
      (optStringNullable_of_get (x := p.filename) ?_) (bind_ok
        (optStringNullable_of_get (x := p.mediaType) ?_) ?_)))
    · simp [absent]
    · simp [absent]
    · simp [optMetadata_eq, absent, normal, pure, Except.pure]
  accepted := by
    intro v p read
    obtain ⟨obj, -, part, content, filename, -, mediaType, -, same⟩ := bind₄_eq_ok.mp read
    cases same
    obtain ⟨readable, first⟩ := readContent_eq_ok content
    refine ⟨readable, ?_, _, rfl⟩
    rw [normal_with, first, optMetadata_eq, nonNull_nonNull]

end Part

theorem vecOf_parts {parts : List Part} (readable : ∀ p ∈ parts, p.Readable) (what : String) :
    vecOf Part.fromJsonValue what (.arr (parts.map Part.toJsonValue)) =
      .ok (parts.map Part.normal) :=
  Part.lawful.list_restored readable List.mapM_pure

variable {what : String}

theorem vecOf_parts_eq_ok {parts : List Part} {v : Json}
    (read : vecOf Part.fromJsonValue what v = .ok parts) :
    (∀ p ∈ parts, p.Readable) ∧ parts.map Part.normal = parts := by
  obtain ⟨items, -, each⟩ := vecOf_eq_ok.mp read
  obtain ⟨readable, fixed, -⟩ := Part.lawful.list_accepted each
  exact ⟨readable, fixed⟩

namespace Artifact

def normal (a : Artifact) : Artifact :=
  { a with metadata := nonNull a.metadata, parts := a.parts.map Part.normal }

def Readable (a : Artifact) : Prop := ∀ p ∈ a.parts, p.Readable

def codec : Codec String Json Artifact := ⟨toJsonValue, fromJsonValue⟩

theorem lawful : codec.Lawful normal Readable where
  restored := by
    intro a v readable written
    simp only [codec, toJsonValue] at written
    split at written
    · cases written
    · rename_i named
      cases written
      refine bind_ok rfl (bind_ok (refuseIf_eq_ok.mpr ?_) (bind_ok
        (getString_of_get (s := a.artifactId) ?_) (bind_ok (refuseIf_eq_ok.mpr ?_) (bind_ok
          (optString_of_get (x := a.description) ?_) (bind_ok
            (optStringVec_of_get (x := a.extensions) ?_) (bind_ok
              (optString_of_get (x := a.name) ?_) (bind_ok (vecOf_parts readable _) ?_)))))))
      · simp [JsonDict.containsKey]
      · simp
      · exact beq_eq_false_iff_ne.mpr named
      · simp
      · simp
      · simp
      · simp [optMetadata_eq, normal, pure, Except.pure]
  accepted := by
    intro v a read
    obtain ⟨obj, -, _, -, id, -, _, named, read⟩ := bind₄_eq_ok.mp read
    obtain ⟨description, -, extensions, -, name, -, parts, each, same⟩ := bind₄_eq_ok.mp read
    cases same
    obtain ⟨readable, fixed⟩ := vecOf_parts_eq_ok each
    refine ⟨readable, ?_, _, if_neg (beq_eq_false_iff_ne.mp (refuseIf_eq_ok.mp named))⟩
    rw [normal, fixed, optMetadata_eq, nonNull_nonNull]

end Artifact

theorem Role.fromWire_asWire (role : Role) : fromWire role.asWire = .ok role := by
  cases role <;> rfl

namespace Message

def normal (m : Message) : Message :=
  { m with metadata := nonNull m.metadata, parts := m.parts.map Part.normal }

def Readable (m : Message) : Prop := ∀ p ∈ m.parts, p.Readable

def codec : Codec String Json Message := ⟨toJsonValue, fromJsonValue⟩

theorem readRole_of_get {obj : JsonDict} {r : Role}
    (found : obj.get "role" = some (.str r.asWire)) : readRole obj = .ok r := by
  rw [readRole, found]
  exact Role.fromWire_asWire r

theorem lawful : codec.Lawful normal Readable where
  restored := by
    intro m v readable written
    simp only [codec, toJsonValue] at written
    split at written
    · cases written
    · rename_i named
      cases written
      refine bind_ok rfl (bind_ok (refuseIf_eq_ok.mpr ?_) (bind_ok
        (getString_of_get (s := m.messageId) ?_) (bind_ok (refuseIf_eq_ok.mpr ?_) (bind_ok
          (readRole_of_get (r := m.role) ?_) (bind_ok
            (optString_of_get (x := m.contextId) ?_) (bind_ok
              (optStringVec_of_get (x := m.extensions) ?_) (bind_ok
                (vecOf_parts readable _) (bind_ok
                  (optStringVec_of_get (x := m.referenceTaskIds) ?_) (bind_ok
                    (optString_of_get (x := m.taskId) ?_) ?_)))))))))
      · simp [JsonDict.containsKey]
      · simp
      · exact beq_eq_false_iff_ne.mpr named
      · simp
      · simp
      · simp
      · simp
      · simp
      · simp [optMetadata_eq, normal, pure, Except.pure]
  accepted := by
    intro v m read
    obtain ⟨obj, -, _, -, id, -, _, named, read⟩ := bind₄_eq_ok.mp read
    obtain ⟨role, -, contextId, -, extensions, -, parts, each, read⟩ := bind₄_eq_ok.mp read
    obtain ⟨references, -, taskId, -, same⟩ := bind₂_eq_ok.mp read
    cases same
    obtain ⟨readable, fixed⟩ := vecOf_parts_eq_ok each
    refine ⟨readable, ?_, _, if_neg (beq_eq_false_iff_ne.mp (refuseIf_eq_ok.mp named))⟩
    rw [normal, fixed, optMetadata_eq, nonNull_nonNull]

end Message

/-! ### Tasks -/

theorem TaskState.fromWire_asWire (state : TaskState) : fromWire state.asWire = state := by
  cases state <;> rfl

namespace TaskStatus

def normal (s : TaskStatus) : TaskStatus := { s with message := s.message.map Message.normal }

def Readable (s : TaskStatus) : Prop := ∀ m ∈ s.message, m.Readable

def codec : Codec String Json TaskStatus := ⟨toJsonValue, fromJsonValue⟩

theorem readState_of_get {obj : JsonDict} {s : TaskState}
    (found : obj.get "state" = some (.str s.asWire)) : readState obj = s := by
  rw [readState, found]
  exact TaskState.fromWire_asWire s

theorem lawful : codec.Lawful normal Readable where
  restored := by
    intro s v readable written
    obtain ⟨message, encoded, same⟩ := bind_eq_ok.mp written
    cases same
    have restored : message.mapM Message.fromJsonValue = .ok (s.message.map Message.normal) :=
      Message.lawful.option.restored readable encoded
    refine bind_ok rfl (bind_ok (a := s.message.map Message.normal) ?_ (bind_ok
      (optString_of_get (x := s.timestamp) ?_) ?_))
    · simpa using restored
    · simp
    · rw [readState_of_get (s := s.state) (by simp)]
      rfl
  accepted := by
    intro v s read
    obtain ⟨obj, -, message, each, timestamp, -, same⟩ := bind₃_eq_ok.mp read
    cases same
    obtain ⟨readable, fixed, encoded, written⟩ := Message.lawful.option.accepted each
    refine ⟨readable, ?_, _, bind_ok written rfl⟩
    exact congrArg (TaskStatus.mk · _ _) fixed

end TaskStatus

theorem Wire.mapM_vecOf {α : Type} {read : Json → Except String α} (value : Option (List Json)) :
    (value.map Json.arr).mapM (vecOf read what) = value.mapM (List.mapM read) := by
  cases value <;> rfl

theorem Wire.mapM_vecOf_eq_ok {α : Type} {read : Json → Except String α}
    {value : Option Json} {xs : Option (List α)} (done : value.mapM (vecOf read what) = .ok xs) :
    ∃ items : Option (List Json), items.mapM (List.mapM read) = .ok xs := by
  cases value with
  | none => exact ⟨none, done⟩
  | some v =>
    obtain ⟨ys, each, rfl⟩ := Codec.option_mapM_some_eq_ok.mp done
    obtain ⟨items, -, each⟩ := vecOf_eq_ok.mp each
    exact ⟨some items, Codec.option_mapM_some_eq_ok.mpr ⟨ys, each, rfl⟩⟩

namespace Task

/-- The two times are not on the wire. -/
def normal (t : Task) : Task :=
  { t with
    artifacts := t.artifacts.map (List.map Artifact.normal)
    history := t.history.map (List.map Message.normal)
    metadata := nonNull t.metadata, status := t.status.normal, creatAt := none, lastModified := none }

structure Readable (t : Task) : Prop where
  artifacts : ∀ artifacts ∈ t.artifacts, ∀ a ∈ artifacts, a.Readable
  history : ∀ history ∈ t.history, ∀ m ∈ history, m.Readable
  status : t.status.Readable

def codec : Codec String Json Task := ⟨toJsonValue, fromJsonValue⟩

theorem lawful : codec.Lawful normal Readable where
  restored := by
    intro t v readable written
    simp only [codec, toJsonValue] at written
    split at written
    · cases written
    · rename_i named
      obtain ⟨status, encodedStatus, artifacts, encodedArtifacts, history, encodedHistory, same⟩ :=
        bind₃_eq_ok.mp written
      cases same
      have readArtifacts : artifacts.mapM (List.mapM Artifact.fromJsonValue) = .ok t.normal.artifacts :=
        Artifact.lawful.list.option.restored readable.artifacts encodedArtifacts
      have readHistory : history.mapM (List.mapM Message.fromJsonValue) = .ok t.normal.history :=
        Message.lawful.list.option.restored readable.history encodedHistory
      have readStatus : TaskStatus.fromJsonValue status = .ok t.status.normal :=
        TaskStatus.lawful.restored readable.status encodedStatus
      refine bind_ok rfl (bind_ok (refuseIf_eq_ok.mpr ?_) (bind_ok
        (getString_of_get (s := t.id) ?_) (bind_ok (refuseIf_eq_ok.mpr ?_) (bind_ok
          (a := t.normal.artifacts) ?_ (bind_ok (a := t.normal.history) ?_ (bind_ok
            (getString_of_get (s := t.contextId) ?_) (bind_ok (a := t.status.normal) ?_ ?_)))))))
      · simp [JsonDict.containsKey]
      · simp
      · exact beq_eq_false_iff_ne.mpr named
      · simpa [mapM_vecOf] using readArtifacts
      · simpa [mapM_vecOf] using readHistory
      · simp
      · simpa [index] using readStatus
      · simp [optMetadata_eq, normal, pure, Except.pure]
  accepted := by
    intro v t read
    obtain ⟨obj, -, _, -, id, -, _, named, read⟩ := bind₄_eq_ok.mp read
    obtain ⟨artifacts, readArtifacts, history, readHistory, contextId, -, status, readStatus, same⟩ :=
      bind₄_eq_ok.mp read
    cases same
    obtain ⟨_, each⟩ := mapM_vecOf_eq_ok readArtifacts
    obtain ⟨readableArtifacts, fixedArtifacts, _, writtenArtifacts⟩ :=
      Artifact.lawful.list.option.accepted each
    obtain ⟨_, each⟩ := mapM_vecOf_eq_ok readHistory
    obtain ⟨readableHistory, fixedHistory, _, writtenHistory⟩ :=
      Message.lawful.list.option.accepted each
    obtain ⟨readableStatus, fixedStatus, _, writtenStatus⟩ := TaskStatus.lawful.accepted readStatus
    refine ⟨⟨readableArtifacts, readableHistory, readableStatus⟩, ?_, _, (if_neg
      (beq_eq_false_iff_ne.mp (refuseIf_eq_ok.mp named))).trans (bind_ok writtenStatus (bind_ok
        writtenArtifacts (bind_ok writtenHistory rfl)))⟩
    rw [normal, fixedStatus, optMetadata_eq, nonNull_nonNull]
    exact congrArg₂ (fun a h => Task.mk a _ h _ _ _ _ _) fixedArtifacts fixedHistory

end Task

/-! ### Events and results -/

namespace TaskArtifactUpdateEvent

def normal (e : TaskArtifactUpdateEvent) : TaskArtifactUpdateEvent :=
  { e with artifact := e.artifact.normal, metadata := nonNull e.metadata, index := none }

structure Readable (e : TaskArtifactUpdateEvent) : Prop where
  named : e.taskId ≠ ""
  artifact : e.artifact.Readable

def codec : Codec String Json TaskArtifactUpdateEvent := ⟨toJsonValue, fromJsonValue⟩

theorem lawful : codec.Lawful normal Readable where
  restored := by
    intro e v readable written
    obtain ⟨artifact, encoded, same⟩ := bind_eq_ok.mp written
    cases same
    have restored : Artifact.fromJsonValue artifact = .ok e.artifact.normal :=
      Artifact.lawful.restored readable.artifact encoded
    refine bind_ok rfl (bind_ok (refuseIf_eq_ok.mpr ?_) (bind_ok
      (getString_of_get (s := e.taskId) ?_) (bind_ok (refuseIf_eq_ok.mpr ?_) (bind_ok
        (optBool_of_get (x := e.append) ?_) (bind_ok (a := e.artifact.normal) ?_ (bind_ok
          (getString_of_get (s := e.contextId) ?_) (bind_ok
            (optBool_of_get (x := e.lastChunk) ?_) ?_)))))))
    · simp [JsonDict.containsKey]
    · simp
    · exact beq_eq_false_iff_ne.mpr readable.named
    · simp
    · simpa [Wire.index] using restored
    · simp
    · simp
    · simp [optMetadata_eq, normal, pure, Except.pure]
  accepted := by
    intro v e read
    obtain ⟨obj, -, _, -, taskId, -, _, named, read⟩ := bind₄_eq_ok.mp read
    obtain ⟨append, -, artifact, readArtifact, contextId, -, lastChunk, -, same⟩ :=
      bind₄_eq_ok.mp read
    cases same
    obtain ⟨readable, fixed, _, writtenArtifact⟩ := Artifact.lawful.accepted readArtifact
    refine ⟨⟨beq_eq_false_iff_ne.mp (refuseIf_eq_ok.mp named), readable⟩, ?_, _,
      bind_ok writtenArtifact rfl⟩
    rw [normal, fixed, optMetadata_eq, nonNull_nonNull]

end TaskArtifactUpdateEvent

namespace TaskStatusUpdateEvent

def normal (e : TaskStatusUpdateEvent) : TaskStatusUpdateEvent :=
  { e with metadata := nonNull e.metadata, status := e.status.normal }

structure Readable (e : TaskStatusUpdateEvent) : Prop where
  named : e.taskId ≠ ""
  status : e.status.Readable

def codec : Codec String Json TaskStatusUpdateEvent := ⟨toJsonValue, fromJsonValue⟩

theorem lawful : codec.Lawful normal Readable where
  restored := by
    intro e v readable written
    obtain ⟨status, encoded, same⟩ := bind_eq_ok.mp written
    cases same
    have restored : TaskStatus.fromJsonValue status = .ok e.status.normal :=
      TaskStatus.lawful.restored readable.status encoded
    refine bind_ok rfl (bind_ok (refuseIf_eq_ok.mpr ?_) (bind_ok
      (getString_of_get (s := e.taskId) ?_) (bind_ok (refuseIf_eq_ok.mpr ?_) (bind_ok
        (getString_of_get (s := e.contextId) ?_) (bind_ok (a := e.status.normal) ?_ ?_)))))
    · simp [JsonDict.containsKey]
    · simp
    · exact beq_eq_false_iff_ne.mpr readable.named
    · simp
    · simpa [index] using restored
    · simp [optMetadata_eq, normal, pure, Except.pure]
  accepted := by
    intro v e read
    obtain ⟨obj, -, _, -, taskId, -, _, named, read⟩ := bind₄_eq_ok.mp read
    obtain ⟨contextId, -, status, readStatus, same⟩ := bind₂_eq_ok.mp read
    cases same
    obtain ⟨readable, fixed, _, writtenStatus⟩ := TaskStatus.lawful.accepted readStatus
    refine ⟨⟨beq_eq_false_iff_ne.mp (refuseIf_eq_ok.mp named), readable⟩, ?_, _,
      bind_ok writtenStatus rfl⟩
    rw [normal, fixed, optMetadata_eq, nonNull_nonNull]

end TaskStatusUpdateEvent

namespace StreamEvent

def normal : StreamEvent → StreamEvent
  | task t => task t.normal
  | message m => message m.normal
  | artifactUpdate e => artifactUpdate e.normal
  | statusUpdate e => statusUpdate e.normal

def Readable : StreamEvent → Prop
  | task t => t.Readable
  | message m => m.Readable
  | artifactUpdate e => e.Readable
  | statusUpdate e => e.Readable

def codec : Codec String Json StreamEvent := ⟨toJsonValue, fromJsonValue⟩

theorem lawful : codec.Lawful normal Readable where
  restored := by
    intro e v readable written
    cases e with
    | task t =>
      obtain ⟨w, encoded, same⟩ := bind_eq_ok.mp written
      cases same
      exact bind_ok rfl (bind_ok (Task.lawful.restored readable encoded) rfl)
    | message m =>
      obtain ⟨w, encoded, same⟩ := bind_eq_ok.mp written
      cases same
      exact bind_ok rfl (bind_ok (Message.lawful.restored readable encoded) rfl)
    | artifactUpdate e =>
      obtain ⟨w, encoded, same⟩ := bind_eq_ok.mp written
      cases same
      exact bind_ok rfl (bind_ok (TaskArtifactUpdateEvent.lawful.restored readable encoded) rfl)
    | statusUpdate e =>
      obtain ⟨w, encoded, same⟩ := bind_eq_ok.mp written
      cases same
      exact bind_ok rfl (bind_ok (TaskStatusUpdateEvent.lawful.restored readable encoded) rfl)
  accepted := by
    intro v e read
    obtain ⟨obj, -, read⟩ := bind_eq_ok.mp read
    split at read
    · obtain ⟨t, each, same⟩ := bind_eq_ok.mp read
      cases same
      obtain ⟨readable, fixed, w, encoded⟩ := Task.lawful.accepted each
      exact ⟨readable, congrArg task fixed, _, bind_ok encoded rfl⟩
    · obtain ⟨m, each, same⟩ := bind_eq_ok.mp read
      cases same
      obtain ⟨readable, fixed, w, encoded⟩ := Message.lawful.accepted each
      exact ⟨readable, congrArg message fixed, _, bind_ok encoded rfl⟩
    · obtain ⟨e, each, same⟩ := bind_eq_ok.mp read
      cases same
      obtain ⟨readable, fixed, w, encoded⟩ := TaskStatusUpdateEvent.lawful.accepted each
      exact ⟨readable, congrArg statusUpdate fixed, _, bind_ok encoded rfl⟩
    · obtain ⟨e, each, same⟩ := bind_eq_ok.mp read
      cases same
      obtain ⟨readable, fixed, w, encoded⟩ := TaskArtifactUpdateEvent.lawful.accepted each
      exact ⟨readable, congrArg artifactUpdate fixed, _, bind_ok encoded rfl⟩
    · cases read

end StreamEvent

namespace SendMessageResult

def normal : SendMessageResult → SendMessageResult
  | task t => task t.normal
  | message m => message m.normal

def Readable : SendMessageResult → Prop
  | task t => t.Readable
  | message m => m.Readable

def codec : Codec String Json SendMessageResult := ⟨toJsonValue, fromJsonValue⟩

theorem lawful : codec.Lawful normal Readable where
  restored := by
    intro r v readable written
    cases r with
    | task t =>
      obtain ⟨w, encoded, same⟩ := bind_eq_ok.mp written
      cases same
      exact bind_ok rfl (bind_ok (Task.lawful.restored readable encoded) rfl)
    | message m =>
      obtain ⟨w, encoded, same⟩ := bind_eq_ok.mp written
      cases same
      exact bind_ok rfl (bind_ok (Message.lawful.restored readable encoded) rfl)
  accepted := by
    intro v r read
    obtain ⟨obj, -, read⟩ := bind_eq_ok.mp read
    split at read
    · cases read
    · obtain ⟨m, each, same⟩ := bind_eq_ok.mp read
      cases same
      obtain ⟨readable, fixed, w, encoded⟩ := Message.lawful.accepted each
      exact ⟨readable, congrArg message fixed, _, bind_ok encoded rfl⟩
    · obtain ⟨t, each, same⟩ := bind_eq_ok.mp read
      cases same
      obtain ⟨readable, fixed, w, encoded⟩ := Task.lawful.accepted each
      exact ⟨readable, congrArg task fixed, _, bind_ok encoded rfl⟩
    · cases read

end SendMessageResult

/-! ### Request parameters -/

namespace PushNotificationAuthenticationInfo

def codec : Codec String Json PushNotificationAuthenticationInfo :=
  ⟨fun a => .ok a.toJsonValue, fromJsonValue⟩

theorem fromJsonValue_toJsonValue (a : PushNotificationAuthenticationInfo) :
    fromJsonValue a.toJsonValue = .ok a := by
  refine bind_ok rfl (bind_ok (refuseIf_eq_ok.mpr ?_) (bind_ok (a := a.schemes) ?_ (bind_ok
    (optString_of_get (x := a.credentials) ?_) rfl)))
  · simp [JsonDict.containsKey]
  · simpa [index] using stringVec_stringVecJson _ a.schemes
  · simp

theorem lawful : codec.Lawful id fun _ => True where
  restored := by
    intro a v _ written
    cases written
    exact fromJsonValue_toJsonValue a
  accepted _ := ⟨trivial, rfl, _, rfl⟩

end PushNotificationAuthenticationInfo

namespace PushNotificationConfig

/-- The two identifiers are one, and the creation time is not on the wire. -/
def normal (c : PushNotificationConfig) : PushNotificationConfig :=
  { c with configId := none, id := c.configId.or c.id, createdAt := none }

def codec : Codec String Json PushNotificationConfig := ⟨toJsonValue, fromJsonValue⟩

theorem lawful : codec.Lawful normal fun _ => True where
  restored := by
    intro c v _ written
    simp only [codec, toJsonValue] at written
    split at written
    · cases written
    · rename_i named
      cases written
      have authentication : (c.authentication.map
          PushNotificationAuthenticationInfo.toJsonValue).mapM
            PushNotificationAuthenticationInfo.fromJsonValue = .ok c.authentication := by
        cases c.authentication with
        | none => rfl
        | some a =>
          exact Codec.option_mapM_some_eq_ok.mpr
            ⟨a, PushNotificationAuthenticationInfo.fromJsonValue_toJsonValue a, rfl⟩
      refine bind_ok rfl (bind_ok (refuseIf_eq_ok.mpr ?_) (bind_ok
        (getString_of_get (s := c.url) ?_) (bind_ok (refuseIf_eq_ok.mpr ?_) (bind_ok
          (a := c.authentication) ?_ (bind_ok (optString_of_get (x := c.id) ?_) (bind_ok
            (optString_of_get (x := c.configId) ?_) (bind_ok
              (optString_of_get (x := c.token) ?_) rfl)))))))
      · simp [JsonDict.containsKey]
      · simp
      · exact beq_eq_false_iff_ne.mpr named
      · simpa using authentication
      · simp
      · simp
      · simp
  accepted := by
    intro v c read
    obtain ⟨obj, -, _, -, url, -, _, named, read⟩ := bind₄_eq_ok.mp read
    obtain ⟨authentication, -, id, -, configId, -, token, -, same⟩ := bind₄_eq_ok.mp read
    cases same
    exact ⟨trivial, rfl, _, if_neg (beq_eq_false_iff_ne.mp (refuseIf_eq_ok.mp named))⟩

end PushNotificationConfig

namespace MessageSendConfiguration

def normal (c : MessageSendConfiguration) : MessageSendConfiguration :=
  { c with pushNotificationConfig := c.pushNotificationConfig.map PushNotificationConfig.normal }

def codec : Codec String Json MessageSendConfiguration := ⟨toJsonValue, fromJsonValue⟩

theorem readModes_of_get {obj : JsonDict} {key : String} {x : Option (List String)}
    (what : String) (found : obj.get key = x.map stringVecJson) :
    ((obj.get key).filter (· ≠ .null)).mapM (stringVec what) = .ok x := by
  rw [found]
  cases x with
  | none => rfl
  | some items =>
    exact Codec.option_mapM_some_eq_ok.mpr ⟨items, stringVec_stringVecJson what items, rfl⟩

theorem lawful : codec.Lawful normal fun _ => True where
  restored := by
    intro c v _ written
    obtain ⟨push, encoded, same⟩ := bind_eq_ok.mp written
    cases same
    have restored : push.mapM PushNotificationConfig.fromJsonValue =
        .ok c.normal.pushNotificationConfig :=
      PushNotificationConfig.lawful.option.restored (fun _ _ => trivial) encoded
    refine bind_ok rfl (bind_ok (readModes_of_get (x := c.acceptedOutputModes) _ ?_) (bind_ok
      (a := c.normal.pushNotificationConfig) ?_ (bind_ok
        (optI32_of_get (x := c.historyLength) ?_) (bind_ok
          (optBool_of_get (x := c.returnImmediately) ?_) rfl))))
    · simp
    · simpa using restored
    · simp
    · simp
  accepted := by
    intro v c read
    obtain ⟨obj, -, modes, -, push, each, read⟩ := bind₃_eq_ok.mp read
    obtain ⟨limit, -, immediately, -, same⟩ := bind₂_eq_ok.mp read
    cases same
    obtain ⟨-, fixed, _, encoded⟩ := PushNotificationConfig.lawful.option.accepted each
    refine ⟨trivial, ?_, _, bind_ok encoded rfl⟩
    exact congrArg (MessageSendConfiguration.mk modes limit · immediately) fixed

end MessageSendConfiguration

namespace MessageSendParams

def normal (p : MessageSendParams) : MessageSendParams :=
  { p with
    configuration := p.configuration.map MessageSendConfiguration.normal
    message := p.message.normal, metadata := nonNull p.metadata }

def Readable (p : MessageSendParams) : Prop := p.message.Readable

def codec : Codec String Json MessageSendParams := ⟨toJsonValue, fromJsonValue⟩

theorem lawful : codec.Lawful normal Readable where
  restored := by
    intro p v readable written
    obtain ⟨message, encodedMessage, configuration, encoded, same⟩ := bind₂_eq_ok.mp written
    cases same
    have restored : configuration.mapM MessageSendConfiguration.fromJsonValue =
        .ok p.normal.configuration :=
      MessageSendConfiguration.lawful.option.restored (fun _ _ => trivial) encoded
    have restoredMessage : Message.fromJsonValue message = .ok p.message.normal :=
      Message.lawful.restored readable encodedMessage
    refine bind_ok rfl (bind_ok (refuseIf_eq_ok.mpr ?_) (bind_ok
      (a := p.normal.configuration) ?_ (bind_ok (a := p.message.normal) ?_ ?_)))
    · simp [JsonDict.containsKey]
    · simpa using restored
    · simpa [index] using restoredMessage
    · simp [optMetadata_eq, normal, pure, Except.pure]
  accepted := by
    intro v p read
    obtain ⟨obj, -, _, -, configuration, each, message, readMessage, same⟩ := bind₄_eq_ok.mp read
    cases same
    obtain ⟨-, fixed, _, encoded⟩ := MessageSendConfiguration.lawful.option.accepted each
    obtain ⟨readable, fixedMessage, _, encodedMessage⟩ := Message.lawful.accepted readMessage
    refine ⟨readable, ?_, _, bind_ok encodedMessage (bind_ok encoded rfl)⟩
    rw [normal, fixedMessage, optMetadata_eq, nonNull_nonNull]
    exact congrArg (MessageSendParams.mk · message _) fixed

end MessageSendParams

/-! ### The wire format -/

/-- What is written is read as its normal form, and what is accepted is written again. -/
theorem wire_round_trips :
    Part.codec.RoundTrips Part.normal Part.Readable ∧
    Artifact.codec.RoundTrips Artifact.normal Artifact.Readable ∧
    Message.codec.RoundTrips Message.normal Message.Readable ∧
    TaskStatus.codec.RoundTrips TaskStatus.normal TaskStatus.Readable ∧
    Task.codec.RoundTrips Task.normal Task.Readable ∧
    StreamEvent.codec.RoundTrips StreamEvent.normal StreamEvent.Readable ∧
    SendMessageResult.codec.RoundTrips SendMessageResult.normal SendMessageResult.Readable ∧
    MessageSendParams.codec.RoundTrips MessageSendParams.normal MessageSendParams.Readable ∧
    PushNotificationConfig.codec.RoundTrips PushNotificationConfig.normal fun _ => True :=
  ⟨Part.lawful.roundTrips, Artifact.lawful.roundTrips, Message.lawful.roundTrips,
    TaskStatus.lawful.roundTrips, Task.lawful.roundTrips, StreamEvent.lawful.roundTrips,
    SendMessageResult.lawful.roundTrips, MessageSendParams.lawful.roundTrips,
    PushNotificationConfig.lawful.roundTrips⟩

/-- A second content is lost, and the identifier of a `configId` moves. -/
theorem wire_form_forgets :
    (∃ v, Part.codec.encode { text := some "a", raw := some "b" } = .ok v ∧
      Part.codec.decode v = .ok { text := some "a" }) ∧
    ∃ v, PushNotificationConfig.codec.encode { url := "u", configId := some "c" } = .ok v ∧
      PushNotificationConfig.codec.decode v = .ok { url := "u", id := some "c" } :=
  ⟨⟨_, rfl, Part.lawful.restored (x := { text := some "a", raw := some "b" }) trivial rfl⟩, _, rfl,
    PushNotificationConfig.lawful.restored (x := { url := "u", configId := some "c" }) trivial rfl⟩

end A2A

end AgentProtocols
