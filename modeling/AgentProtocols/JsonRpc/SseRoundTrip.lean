import AgentProtocols.JsonRpc.Sse

/-!
Events written to the wire and read back, line by line (`wireLines`, `linesOf_encode`,
`processLine_fieldLine`), event by event (`readLines_wireLines`), and as a whole
(`parseAll_document`).
-/

namespace AgentProtocols.JsonRpc

open Lib Json List
open AgentProtocols.Lib.Utf8 (encode fromUtf8Lossy)

/-! ### What can be written -/

def OneLine (text : List Char) : Prop := '\r' ∉ text ∧ '\n' ∉ text

instance (text : List Char) : Decidable (OneLine text) := inferInstanceAs (Decidable (_ ∧ _))

/-- An event that the wire format can carry, with an id of its own. -/
structure WellFormed (e : SseEvent) : Prop where
  has_id : e.id.isSome = true
  event_line : ∀ ev, e.event = some ev → OneLine ev.toList
  id_line : ∀ id, e.id = some id → OneLine id.toList ∧ '\x00' ∉ id.toList
  data_text : '\r' ∉ e.data.toList

/-- The wire texts of some events, one after the other. -/
def document (events : List SseEvent) : String :=
  String.ofList (events.flatMap fun e => e.toWire.toList)

/-! ### The wire format as lines -/

/-- The line of a field, without its end. -/
def fieldText (field : String) (value : List Char) : List Char :=
  field.toList ++ [':', ' '] ++ value

def wireLines (e : SseEvent) : List (List Char) :=
  (e.event.map fun ev => fieldText "event" ev.toList).toList ++
    (e.id.map fun id => fieldText "id" id.toList).toList ++
    (e.retry.map fun retry => fieldText "retry" (natText retry.toNat)).toList ++
    (e.data.toList.splitOn '\n').map (fieldText "data") ++ [[]]

def ended (lines : List (List Char)) : List Char := lines.flatMap (· ++ ['\n'])

theorem ended_append (lines more : List (List Char)) :
    ended (lines ++ more) = ended lines ++ ended more := flatMap_append

theorem ended_option {α : Type} (field : String) (text : α → List Char) (value : Option α) :
    (value.map fun v => fieldLine field (text v)).getD [] =
      ended (value.map fun v => fieldText field (text v)).toList := by
  cases value with
  | none => rfl
  | some v => simp [fieldLine, fieldText, ended]

theorem toList_toWire (e : SseEvent) : e.toWire.toList = ended (wireLines e) := by
  have dataLines : (e.data.toList.splitOn '\n').flatMap (fieldLine "data") =
      ended ((e.data.toList.splitOn '\n').map (fieldText "data")) := by
    rw [ended, flatMap_map]
    rfl
  rw [SseEvent.toWire, String.toList_ofList, wireLines, ended_append, ended_append, ended_append,
    ended_append, ended_option "event" String.toList, ended_option "id" String.toList,
    ended_option "retry" fun retry : UInt64 => natText retry.toNat, dataLines]
  rfl

theorem toList_document (events : List SseEvent) :
    (document events).toList = ended (events.flatMap wireLines) := by
  rw [document, String.toList_ofList]
  induction events with
  | nil => rfl
  | cons e events ih =>
    rw [flatMap_cons, flatMap_cons, ended_append, ih, toList_toWire]

/-! ### Every line is one line -/

theorem oneLine_fieldText {field : String} {value : List Char} (name : OneLine field.toList)
    (text : OneLine value) : OneLine (fieldText field value) := by
  simp only [OneLine, fieldText, mem_append, mem_cons, not_mem_nil, or_false, not_or]
  exact ⟨⟨⟨name.1, by decide⟩, text.1⟩, ⟨name.2, by decide⟩, text.2⟩

theorem oneLine_natText (n : Nat) : OneLine (natText n) :=
  ⟨fun mem => Bool.false_ne_true (isDigit_of_mem_natText mem),
    fun mem => Bool.false_ne_true (isDigit_of_mem_natText mem)⟩

theorem of_mem_splitOn {sep : Char} {text part : List Char} (mem : part ∈ text.splitOn sep) :
    sep ∉ part ∧ part ⊆ text := by
  induction text generalizing part with
  | nil =>
    rw [splitOn_nil, mem_singleton] at mem
    subst mem
    exact ⟨not_mem_nil, nil_subset _⟩
  | cons c text ih =>
    rw [splitOn_cons_eq_if_modifyHead] at mem
    split at mem
    · rcases mem_cons.mp mem with rfl | mem
      · exact ⟨not_mem_nil, nil_subset _⟩
      · exact ⟨(ih mem).1, subset_cons_of_subset c (ih mem).2⟩
    · rename_i other
      have ne : sep ≠ c := fun same => other (beq_iff_eq.mpr same.symm)
      obtain ⟨first, rest, parts⟩ :=
        exists_cons_of_ne_nil (splitOn_ne_nil sep text)
      rw [parts] at mem ih
      rcases mem_cons.mp mem with rfl | mem
      · have head := ih mem_cons_self
        exact ⟨not_mem_cons_of_ne_of_not_mem ne head.1, cons_subset_cons c head.2⟩
      · have tail := ih (mem_cons_of_mem _ mem)
        exact ⟨tail.1, subset_cons_of_subset c tail.2⟩

theorem oneLine_of_mem_splitOn {text part : List Char} (plain : '\r' ∉ text)
    (mem : part ∈ text.splitOn '\n') : OneLine part :=
  ⟨fun bad => plain ((of_mem_splitOn mem).2 bad), (of_mem_splitOn mem).1⟩

theorem oneLine_of_mem_wireLines {e : SseEvent} (wf : WellFormed e) {line : List Char}
    (mem : line ∈ wireLines e) : OneLine line := by
  simp only [wireLines, mem_append, Option.mem_toList, Option.map_eq_some_iff,
    mem_map, mem_singleton] at mem
  obtain (((⟨ev, isEvent, rfl⟩ | ⟨id, isId, rfl⟩) | ⟨retry, _, rfl⟩) | ⟨part, isPart, rfl⟩) | rfl :=
    mem
  · exact oneLine_fieldText (by decide) (wf.event_line ev isEvent)
  · exact oneLine_fieldText (by decide) (wf.id_line id isId).1
  · exact oneLine_fieldText (by decide) (oneLine_natText _)
  · exact oneLine_fieldText (by decide) (oneLine_of_mem_splitOn wf.data_text isPart)
  · exact ⟨not_mem_nil, not_mem_nil⟩

/-! ### Lines as bytes -/

namespace SseParser

theorem unended_encode {line : List Char} (one : OneLine line) :
    Unended carriageReturn lineFeed (encode line) :=
  ⟨fun mem => one.1 (Utf8.mem_encode_ascii mem (by decide)),
    fun mem => one.2 (Utf8.mem_encode_ascii mem (by decide))⟩

theorem cutEnds_encode {lines : List (List Char)} (one : ∀ line ∈ lines, OneLine line) :
    cutEnds carriageReturn lineFeed false (encode (ended lines)) = (lines.map encode, []) := by
  induction lines with
  | nil => rfl
  | cons line lines ih =>
    have bytes : encode (ended (line :: lines)) =
        encode line ++ lineFeed :: encode (ended lines) := by
      rw [ended, flatMap_cons, Utf8.encode_append, Utf8.encode_append, append_assoc]
      rfl
    rw [bytes, cutEnds_line_lf (unended_encode (one line mem_cons_self)),
      ih fun l mem => one l (mem_cons_of_mem _ mem)]
    rfl

theorem linesOf_encode {lines : List (List Char)} (one : ∀ line ∈ lines, OneLine line) :
    linesOf false (encode (ended lines)) = lines.map String.ofList ∧
      restOf false (encode (ended lines)) = [] := by
  rw [linesOf, restOf, cutEnds_encode one, map_map]
  exact ⟨map_congr_left fun line _ => Utf8.fromUtf8Lossy_encode line, rfl⟩

end SseParser

/-! ### One line read -/

namespace Pending

variable {field : String}

theorem fieldValue_fieldText (plain : ':' ∉ field.toList) (value : List Char) :
    fieldValue (fieldText field value) = (field, value) := by
  have before : ∀ c ∈ field.toList, decide (c ≠ ':') = true :=
    fun c mem => decide_eq_true fun same => plain (same ▸ mem)
  have text : fieldText field value = field.toList ++ ':' :: ' ' :: value := by
    rw [fieldText, append_assoc]
    rfl
  rw [fieldValue, text, dropWhile_append_of_pos before, takeWhile_append_of_pos before]
  simp [stripSpace]

variable (p : Pending)

include p

theorem processLine_fieldText (plain : ':' ∉ field.toList)
    (nonempty : field ≠ "") (value : List Char) :
    p.processLine (String.ofList (fieldText field value)) = (p.setField field value, none) := by
  obtain ⟨c, name, chars⟩ := exists_cons_of_ne_nil
    (show field.toList ≠ [] from fun none_ => nonempty (String.toList_eq_nil_iff.mp none_))
  have isText : (String.ofList (fieldText field value)).isEmpty = false := by
    rw [fieldText]
    simp
  have notComment : (fieldText field value).head? ≠ some ':' := by
    rw [fieldText, chars]
    intro same
    rw [chars] at plain
    cases same
    exact plain mem_cons_self
  rw [processLine, if_neg (by rw [isText]; decide), String.toList_ofList, if_neg notComment,
    fieldValue_fieldText plain]

theorem processLine_blank : p.processLine (String.ofList []) = p.dispatch := rfl

theorem readLines_cons (line : List Char) (lines : List (List Char)) :
    p.readLines ((line :: lines).map String.ofList) =
      (((p.processLine (String.ofList line)).1.readLines (lines.map String.ofList)).1,
        (p.processLine (String.ofList line)).2.toList ++
          ((p.processLine (String.ofList line)).1.readLines (lines.map String.ofList)).2) := rfl

theorem readLines_option {α : Type}
    (plain : ':' ∉ field.toList) (nonempty : field ≠ "") (text : α → List Char) (value : Option α)
    (lines : List (List Char)) :
    p.readLines (((value.map fun v => fieldText field (text v)).toList ++ lines).map String.ofList) =
      ((value.map fun v => p.setField field (text v)).getD p).readLines
        (lines.map String.ofList) := by
  cases value with
  | none => rfl
  | some v =>
    rw [Option.map_some, Option.toList_some, singleton_append, readLines_cons,
      processLine_fieldText p plain nonempty]
    rfl

theorem readLines_data (parts lines : List (List Char)) (some_ : parts ≠ []) :
    p.readLines ((parts.map (fieldText "data") ++ lines).map String.ofList) =
      { p with data := p.data ++ parts.map String.ofList, sawDataField := true }.readLines
        (lines.map String.ofList) := by
  induction parts generalizing p with
  | nil => exact absurd rfl some_
  | cons part parts ih =>
    have first : p.setField "data" part =
        { p with data := p.data ++ [String.ofList part], sawDataField := true } := rfl
    rw [map_cons, cons_append, readLines_cons,
      processLine_fieldText p (by decide) (by decide), first]
    by_cases last : parts = []
    · subst last
      rfl
    · rw [ih _ last]
      simp

omit p

/-- Nothing pending but the id of an event before. -/
def idle (id : Option String) : Pending := { id }

include p

theorem setField_event (event : Option String) (none_ : p.eventType = none) :
    (event.map fun ev => p.setField "event" ev.toList).getD p = { p with eventType := event } := by
  cases event with
  | none => rw [Option.map_none, Option.getD_none, ← none_]
  | some ev => simp [setField]

theorem setField_id {id : String} (plain : '\x00' ∉ id.toList) :
    p.setField "id" id.toList = { p with id := some id } := by
  simp [setField, plain]

theorem setField_retry (retry : Option UInt64) (none_ : p.retry = none) :
    (retry.map fun retry => p.setField "retry" (natText retry.toNat)).getD p =
      { p with retry := retry } := by
  cases retry with
  | none => rw [Option.map_none, Option.getD_none, ← none_]
  | some ms => simp [setField, parseU64_natText ms.toNat_lt]

omit p

/-- The lines of an event give the event, and leave its id. -/
theorem readLines_wireLines {e : SseEvent} (wf : WellFormed e) (before : Option String)
    (lines : List (List Char)) :
    (idle before).readLines ((wireLines e ++ lines).map String.ofList) =
      (((idle e.id).readLines (lines.map String.ofList)).1,
        e :: ((idle e.id).readLines (lines.map String.ofList)).2) := by
  obtain ⟨id, isId⟩ := Option.isSome_iff_exists.mp wf.has_id
  have event := setField_event (idle before) e.event rfl
  have named := setField_id { idle before with eventType := e.event } (wf.id_line id isId).2
  have retry := setField_retry { idle before with eventType := e.event, id := some id } e.retry rfl
  have joined : String.ofList (intercalate ['\n']
      (((e.data.toList.splitOn '\n').map String.ofList).map String.toList)) = e.data := by
    have same : ∀ parts : List (List Char), (parts.map String.ofList).map String.toList = parts := by
      intro parts
      rw [map_map]
      exact (map_congr_left fun _ _ => String.toList_ofList).trans (map_id _)
    rw [same, intercalate_splitOn, String.ofList_toList]
  rw [wireLines, append_assoc, append_assoc, append_assoc, append_assoc,
    readLines_option (idle before) (by decide) (by decide), event,
    readLines_option _ (by decide) (by decide), isId, Option.map_some, Option.getD_some, named,
    readLines_option _ (by decide) (by decide), retry,
    readLines_data _ _ _ (splitOn_ne_nil _ _), singleton_append, readLines_cons,
    processLine_blank, dispatch, if_pos rfl]
  dsimp only [idle, nil_append]
  rw [joined, ← isId]
  rfl

theorem readLines_document {events : List SseEvent} (wf : ∀ e ∈ events, WellFormed e)
    (before : Option String) :
    ∃ last, (idle before).readLines ((events.flatMap wireLines).map String.ofList) =
      (idle last, events) := by
  induction events generalizing before with
  | nil => exact ⟨before, rfl⟩
  | cons e events ih =>
    obtain ⟨last, read⟩ := ih (fun e mem => wf e (mem_cons_of_mem _ mem)) e.id
    refine ⟨last, ?_⟩
    rw [flatMap_cons, readLines_wireLines (wf e mem_cons_self), read]

end Pending

/-! ### Whole texts -/

namespace SseParser

theorem no_byteOrderMark {bytes : List UInt8} {b : UInt8} (first : bytes.head? = some b)
    (other : b ≠ 0xEF) : waiting bytes = false ∧ stripBom bytes = bytes := by
  cases bytes with
  | nil => cases first
  | cons c rest =>
    cases first
    constructor
    · simp [waiting, other]
    · refine if_neg fun mark => ?_
      rw [take_succ_cons, byteOrderMark, cons.injEq] at mark
      exact other mark.1

theorem head_document {events : List SseEvent} (wf : ∀ e ∈ events, WellFormed e)
    (nonempty : events ≠ []) :
    ∃ b : UInt8, (encode (document events).toList).head? = some b ∧ b ≠ 0xEF := by
  obtain ⟨e, events, rfl⟩ := exists_cons_of_ne_nil nonempty
  obtain ⟨id, isId⟩ := Option.isSome_iff_exists.mp (wf e mem_cons_self).has_id
  rw [toList_document, flatMap_cons, wireLines, isId]
  cases e.event with
  | none => exact ⟨0x69, rfl, by decide⟩
  | some ev => exact ⟨0x65, rfl, by decide⟩

/-- Events written one after the other are read back. -/
theorem parseAll_document (events : List SseEvent) (wf : ∀ e ∈ events, WellFormed e) :
    parseAll (document events) = events := by
  cases events with
  | nil => decide +kernel
  | cons e rest =>
    obtain ⟨b, first, other⟩ := head_document wf (List.cons_ne_nil e rest)
    obtain ⟨decided, whole⟩ := no_byteOrderMark first other
    have one : ∀ line ∈ (e :: rest).flatMap wireLines, OneLine line := by
      intro line mem
      obtain ⟨event, memEvent, memLine⟩ := List.mem_flatMap.mp mem
      exact oneLine_of_mem_wireLines (wf event memEvent) memLine
    obtain ⟨lines, left⟩ := linesOf_encode one
    obtain ⟨last, read⟩ := Pending.readLines_document wf none
    rw [parseAll, parseChunks_single decided, whole, toList_document, lines, left,
      show ({} : Pending) = Pending.idle none from rfl, read]
    exact List.append_nil _

/-- Two events, of which one has no data and an empty id. -/
theorem parseAll_two_events :
    parseAll (document [
        { event := some "status", data := "line1\nline2", id := some "9", retry := some 500 },
        { event := some " a:b", data := "", id := some "" }]) =
      [{ event := some "status", data := "line1\nline2", id := some "9", retry := some 500 },
        { event := some " a:b", data := "", id := some "" }] :=
  parseAll_document _ (by
    intro e mem
    rcases List.mem_pair.mp mem with rfl | rfl
    · exact ⟨rfl, by rintro _ ⟨⟩; decide, by rintro _ ⟨⟩; decide, by decide⟩
    · exact ⟨rfl, by rintro _ ⟨⟩; decide, by rintro _ ⟨⟩; decide, by decide⟩)

end SseParser

end AgentProtocols.JsonRpc
