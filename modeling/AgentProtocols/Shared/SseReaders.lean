import AgentProtocols.JsonRpc.SseRoundTrip
import AgentProtocols.Lib.Lines
import Mathlib.Data.Bool.AllAny

/-!
The SSE readers of the C++ clients beside the parser of the Rust SDK.

* `callbacks_eq`, `events_eq` — what a stream gives, event by event, however it is cut into calls.
* `agree_iff` — when both clients hand over, after every line, the data that the Rust parser yields.
* `KeepAlive.empty_data` — a comment alone is handed over as empty data.
-/

namespace AgentProtocols.SseReaders

open JsonRpc Lib List
open AgentProtocols.Lib.Utf8 (encode)

abbrev Bytes := List UInt8

/-! ### The C++ readers -/

/-- `ServerSentEvent`; no reader sets `retry`. -/
structure ServerSentEvent where
  event : Bytes := encode "message".toList
  id : Bytes := []
  data : Bytes := []

/-- The value without its leading spaces and tabs, if it holds anything else. -/
def trimLeading (value : Bytes) : Bytes :=
  match value.dropWhile fun b => b = 32 || b = 9 with
  | [] => value
  | rest => rest

/-- The value of a line that starts with the name of the field and a colon. -/
def valueOf (name : String) (line : Bytes) : Option Bytes :=
  if encode name.toList <+: line then some (trimLeading (line.drop (encode name.toList).length))
  else none

/-- The end of an event; `ParseSseLine` of either client, with what it does with data. -/
def parseLine (addData : Bytes → Bytes → Bytes) (line : Bytes) (e : ServerSentEvent) :
    Bool × ServerSentEvent :=
  if line = [] then (!(e.event = [] && e.id = [] && e.data = []), e)
  else
    match valueOf "event:" line, valueOf "id:" line, valueOf "data:" line with
    | some v, _, _ => (false, { e with event := v })
    | none, some v, _ => (false, { e with id := v })
    | none, none, some v => (false, { e with data := addData e.data v })
    | none, none, none => (false, e)

def joinData (data v : Bytes) : Bytes := if data = [] then v else data ++ [lineFeed] ++ v

/-- In MCP the last data line counts. -/
def lastData (_data v : Bytes) : Bytes := v

/-- `RequestContext`, with the data of the calls of `responseBodyCallback`. -/
structure RequestContext where
  responseData : Bytes := []
  sseEvent : ServerSentEvent := {}
  callbacks : List Bytes := []

section Readers

variable (addData : Bytes → Bytes → Bytes)

def RequestContext.endLine (r : RequestContext) (line : Bytes) : RequestContext :=
  match parseLine addData line r.sseEvent with
  | (true, e) => ⟨[], {}, r.callbacks ++ [e.data]⟩
  | (false, e) => ⟨[], e, r.callbacks⟩

/-- The loop body of `WriteCallback`. -/
def RequestContext.write (r : RequestContext) (b : UInt8) : RequestContext :=
  if b ≠ lineFeed then { r with responseData := r.responseData ++ [b] }
  else
    r.endLine addData (if r.responseData.getLast? = some carriageReturn then
      r.responseData.dropLast else r.responseData)

def writeCallback (r : RequestContext) (contents : Bytes) : RequestContext :=
  contents.foldl (RequestContext.write addData) r

/-- The data handed over while the calls are made. -/
def callbacks (calls : List Bytes) : List Bytes :=
  (calls.foldl (writeCallback addData) {}).callbacks

end Readers

/-! ### Streams -/

/-- The lines of a stream, each with whether it ends in CRLF. -/
structure SseStream where
  lines : List (List Char × Bool)
  oneLine : ∀ l ∈ lines, OneLine l.1
  noMark : ∀ l ∈ lines.head?, l.1.head? ≠ some '\uFEFF'

namespace SseStream

/-- A line with its end. -/
def wire (l : List Char × Bool) : List Char := l.1 ++ if l.2 then ['\r', '\n'] else ['\n']

def bytes (s : SseStream) : Bytes := encode (s.lines.flatMap wire)

theorem noMark_take (s : SseStream) (k : Nat) (l : List Char × Bool)
    (mem : l ∈ (s.lines.take k).head?) : l.1.head? ≠ some '\uFEFF' := by
  rw [head?_take] at mem
  split at mem
  · cases mem
  · exact s.noMark l mem

def take (s : SseStream) (k : Nat) : SseStream :=
  ⟨s.lines.take k, fun l mem => s.oneLine l (List.mem_of_mem_take mem), s.noMark_take k⟩

/-- The data that the Rust parser yields. -/
def events (s : SseStream) : List Bytes :=
  (SseParser.new.feed s.bytes).2.map fun e => encode e.data.toList

def texts (s : SseStream) : List (List Char) := s.lines.map Prod.fst

end SseStream

/-! ### The C++ side, event by event -/

variable {addData : Bytes → Bytes → Bytes}

theorem writeCallback_append (r : RequestContext) (a b : Bytes) :
    writeCallback addData r (a ++ b) = writeCallback addData (writeCallback addData r a) b :=
  foldl_append

theorem callbacks_flatten (calls : List Bytes) :
    callbacks addData calls = (writeCallback addData {} calls.flatten).callbacks := by
  have whole : ∀ (calls : List Bytes) (r : RequestContext),
      calls.foldl (writeCallback addData) r = writeCallback addData r calls.flatten := by
    intro calls
    induction calls with
    | nil => exact fun _ => rfl
    | cons call calls ih =>
      intro r
      rw [foldl_cons, ih, flatten_cons, writeCallback_append]
  rw [callbacks, whole]

theorem writeCallback_line {line : Bytes} (absent : lineFeed ∉ line) (r : RequestContext) :
    writeCallback addData r line = { r with responseData := r.responseData ++ line } := by
  induction line generalizing r with
  | nil => simp [writeCallback]
  | cons b line ih =>
    have ne : b ≠ lineFeed := fun same => absent (same ▸ mem_cons_self)
    have rest := ih fun mem => absent (mem_cons_of_mem _ mem)
    have one : writeCallback addData r [b] = { r with responseData := r.responseData ++ [b] } :=
      if_pos ne
    rw [← singleton_append, writeCallback_append, rest, one, append_assoc]

open SseStream

theorem writeCallback_wire {l : List Char × Bool} (one : OneLine l.1) (e : ServerSentEvent)
    (called : List Bytes) :
    writeCallback addData ⟨[], e, called⟩ (encode (wire l)) =
      RequestContext.endLine addData ⟨[], e, called⟩ (encode l.1) := by
  obtain ⟨line, crlf⟩ := l
  have unended : Unended carriageReturn lineFeed (encode line) := SseParser.unended_encode one
  cases crlf with
  | false =>
    have last : (encode line).getLast? ≠ some carriageReturn := fun same =>
      unended.1 (mem_of_getLast? same)
    have bytes : encode (wire (line, false)) = encode line ++ [lineFeed] :=
      Utf8.encode_append line ['\n']
    rw [bytes, writeCallback_append, writeCallback_line unended.2]
    show RequestContext.write addData ⟨encode line, e, called⟩ lineFeed = _
    rw [RequestContext.write, if_neg last]
    rfl
  | true =>
    have absent : lineFeed ∉ encode line ++ [carriageReturn] := fun mem =>
      (mem_append.mp mem).elim unended.2 (by decide)
    have bytes : encode (wire (line, true)) = (encode line ++ [carriageReturn]) ++ [lineFeed] := by
      rw [append_assoc]
      exact Utf8.encode_append line ['\r', '\n']
    rw [bytes, writeCallback_append, writeCallback_line absent]
    show RequestContext.write addData ⟨encode line ++ [carriageReturn], e, called⟩ lineFeed = _
    rw [RequestContext.write, if_neg (not_not_intro rfl), getLast?_concat, if_pos rfl,
      dropLast_concat]
    rfl

/-- Lines given to `ParseSseLine` one after the other. -/
def readLines (addData : Bytes → Bytes → Bytes) (r : RequestContext) (lines : List (List Char)) :
    RequestContext :=
  lines.foldl (fun r line => r.endLine addData (encode line)) r

theorem readLines_append (r : RequestContext) (lines more : List (List Char)) :
    readLines addData r (lines ++ more) = readLines addData (readLines addData r lines) more :=
  foldl_append

theorem endLine_responseData (r : RequestContext) (line : Bytes) :
    (r.endLine addData line).responseData = [] := by
  unfold RequestContext.endLine
  split <;> rfl

theorem writeCallback_lines : ∀ {lines : List (List Char × Bool)}, (∀ l ∈ lines, OneLine l.1) →
    ∀ {r : RequestContext}, r.responseData = [] →
      writeCallback addData r (encode (lines.flatMap wire)) =
        readLines addData r (lines.map Prod.fst)
  | [], _, _, _ => rfl
  | l :: lines, one, r, none_ => by
    obtain ⟨data, e, called⟩ := r
    cases none_
    rw [flatMap_cons, Utf8.encode_append, writeCallback_append,
      writeCallback_wire (one l mem_cons_self),
      writeCallback_lines (fun x mem => one x (mem_cons_of_mem _ mem))
        (endLine_responseData _ _)]
    rfl

/-! ### One event on the C++ side -/

def valuesOf (name : String) (lines : List (List Char)) : List Bytes :=
  lines.filterMap fun line => valueOf name (encode line)

/-- An event that has just begun; after a blank line that ended nothing the type stays empty. -/
def fresh (quiet : Bool) : ServerSentEvent := if quiet then { event := [] } else {}

/-- The lines of an event leave it without a type and without an id. -/
def Muted (quiet : Bool) (lines : List (List Char)) : Prop :=
  (valuesOf "event:" lines).getLast?.getD (fresh quiet).event = [] ∧
    (valuesOf "id:" lines).getLast?.getD [] = []

instance (quiet : Bool) (lines : List (List Char)) : Decidable (Muted quiet lines) :=
  inferInstanceAs (Decidable (_ ∧ _))

def dataOf (addData : Bytes → Bytes → Bytes) (lines : List (List Char)) : Bytes :=
  (valuesOf "data:" lines).foldl addData []

/-- The blank line after the lines ends no event. -/
def Silent (addData : Bytes → Bytes → Bytes) (quiet : Bool) (lines : List (List Char)) : Prop :=
  Muted quiet lines ∧ dataOf addData lines = []

instance (quiet : Bool) (lines : List (List Char)) : Decidable (Silent addData quiet lines) :=
  inferInstanceAs (Decidable (_ ∧ _))

/-- The data that is handed over for events, each given by its lines. -/
def handedOver (addData : Bytes → Bytes → Bytes) : Bool → List (List (List Char)) → List Bytes
  | _, [] => []
  | quiet, lines :: more =>
    (if Silent addData quiet lines then [] else [dataOf addData lines]) ++
      handedOver addData (decide (Silent addData quiet lines)) more

theorem head?_of_valueOf {name : String} {line v : Bytes} (found : valueOf name line = some v) :
    encode name.toList <+: line := by
  unfold valueOf at found
  split at found
  · assumption
  · cases found

theorem valueOf_exclusive {name other : String} {line v : Bytes}
    (found : valueOf name line = some v)
    (differ : ∀ line : Bytes, encode name.toList <+: line → ¬encode other.toList <+: line) :
    valueOf other line = none :=
  if_neg (differ line (head?_of_valueOf found))

theorem not_both {a b : UInt8} {x y line : Bytes} (ne : a ≠ b) (first : a :: x <+: line) :
    ¬b :: y <+: line := by
  obtain ⟨more, rfl⟩ := first
  rintro ⟨more', same⟩
  exact ne (cons.inj same).1.symm

theorem parseLine_eq {line : Bytes} (some_ : line ≠ []) (e : ServerSentEvent) :
    parseLine addData line e = (false,
      { event := (valueOf "event:" line).getD e.event
        id := (valueOf "id:" line).getD e.id
        data := (valueOf "data:" line).toList.foldl addData e.data }) := by
  rw [parseLine, if_neg some_]
  cases event : valueOf "event:" line with
  | some v =>
    have noId : valueOf "id:" line = none :=
      valueOf_exclusive event fun _ => not_both (by decide)
    have noData : valueOf "data:" line = none :=
      valueOf_exclusive event fun _ => not_both (by decide)
    rw [noId, noData]
    rfl
  | none =>
    cases id : valueOf "id:" line with
    | some v =>
      have noData : valueOf "data:" line = none :=
        valueOf_exclusive id fun _ => not_both (by decide)
      rw [noData]
      rfl
    | none =>
      cases valueOf "data:" line <;> rfl

theorem getLast?_toList_append (o : Option Bytes) (vs : List Bytes) (d : Bytes) :
    (o.toList ++ vs).getLast?.getD d = vs.getLast?.getD (o.getD d) := by
  rw [getLast?_append]
  cases vs.getLast? with
  | none => cases o <;> rfl
  | some v => rfl

theorem valuesOf_cons (name : String) (line : List Char) (lines : List (List Char)) :
    valuesOf name (line :: lines) = (valueOf name (encode line)).toList ++ valuesOf name lines := by
  rw [valuesOf, filterMap_cons]
  cases valueOf name (encode line) <;> rfl

theorem encode_ne_nil {line : List Char} (some_ : line ≠ []) : encode line ≠ [] := by
  obtain ⟨c, cs, rfl⟩ := exists_cons_of_ne_nil some_
  exact append_ne_nil_of_left_ne_nil (Utf8.utf8EncodeChar_ne_nil c) _

theorem readLines_event {lines : List (List Char)} (some_ : [] ∉ lines) (e : ServerSentEvent)
    (called : List Bytes) :
    readLines addData ⟨[], e, called⟩ lines =
      ⟨[], { event := (valuesOf "event:" lines).getLast?.getD e.event
             id := (valuesOf "id:" lines).getLast?.getD e.id
             data := (valuesOf "data:" lines).foldl addData e.data }, called⟩ := by
  induction lines generalizing e with
  | nil => rfl
  | cons line lines ih =>
    have first : line ≠ [] := fun same => some_ (same ▸ mem_cons_self)
    have rest := ih fun mem => some_ (mem_cons_of_mem _ mem)
    rw [readLines, foldl_cons, RequestContext.endLine, parseLine_eq (encode_ne_nil first)]
    refine (rest _).trans ?_
    rw [valuesOf_cons, valuesOf_cons, valuesOf_cons, getLast?_toList_append,
      getLast?_toList_append, foldl_append]

theorem readLines_blank {lines : List (List Char)} (some_ : [] ∉ lines) (quiet : Bool)
    (called : List Bytes) (more : List (List Char)) :
    readLines addData ⟨[], fresh quiet, called⟩ (lines ++ [] :: more) =
      readLines addData ⟨[], fresh (decide (Silent addData quiet lines)),
        called ++ if Silent addData quiet lines then [] else [dataOf addData lines]⟩ more := by
  have id : (fresh quiet).id = [] ∧ (fresh quiet).data = [] := by
    cases quiet <;> exact ⟨rfl, rfl⟩
  rw [readLines_append, readLines_event some_, readLines, foldl_cons, id.1, id.2]
  refine congrArg (fun r => readLines addData r more) ?_
  rw [RequestContext.endLine, parseLine]
  by_cases silent : Silent addData quiet lines
  · obtain ⟨⟨event, noId⟩, data⟩ := silent
    have isSilent : Silent addData quiet lines := ⟨⟨event, noId⟩, data⟩
    rw [dataOf] at data
    rw [event, noId, data, if_pos isSilent, decide_eq_true isSilent, append_nil]
    rfl
  · have ended : (!(decide ((valuesOf "event:" lines).getLast?.getD (fresh quiet).event = []) &&
        decide ((valuesOf "id:" lines).getLast?.getD [] = []) &&
        decide ((valuesOf "data:" lines).foldl addData [] = []))) = true := by
      rw [← Bool.decide_and, ← Bool.decide_and, ← decide_not]
      exact decide_eq_true silent
    rw [ended, if_neg silent, decide_eq_false silent]
    rfl

/-- The events of a stream: the lines before each blank line. -/
def SseStream.blocks (s : SseStream) : List (List (List Char)) := (splitLines [] s.texts).1

theorem readLines_callbacks (lines : List (List Char)) : ∀ (quiet : Bool) (called : List Bytes),
    (readLines addData ⟨[], fresh quiet, called⟩ lines).callbacks =
      called ++ handedOver addData quiet (splitLines [] lines).1 := by
  induction lines using splitLines_induction ([] : List Char) with
  | rest lines some_ =>
    intro quiet called
    rw [readLines_event some_, splitLines_of_not_mem some_, handedOver, append_nil]
  | line lines more some_ ih =>
    intro quiet called
    rw [readLines_blank some_, ih, splitLines_line some_, handedOver, append_assoc]

/-- **What the clients hand over is determined by the events of the stream.** -/
theorem callbacks_eq (s : SseStream) {calls : List Bytes} (cut : calls.flatten = s.bytes) :
    callbacks addData calls = handedOver addData false s.blocks := by
  rw [callbacks_flatten, cut, bytes, writeCallback_lines s.oneLine rfl]
  exact readLines_callbacks s.texts false []

/-! ### The Rust side, event by event -/

/-- The value of a data line, for the Rust parser. -/
def dataValue (line : List Char) : Option (List Char) :=
  if (Pending.fieldValue line).1 = "data" then some (Pending.fieldValue line).2 else none

def dataValues (lines : List (List Char)) : List (List Char) := lines.filterMap dataValue

/-- What the lines of an event give. -/
def yieldedOf (lines : List (List Char)) : List Bytes :=
  if dataValues lines = [] then [] else [encode (List.intercalate ['\n'] (dataValues lines))]

/-- The data that is yielded for events. -/
def yielded (blocks : List (List (List Char))) : List Bytes := blocks.flatMap yieldedOf

theorem processLine_data (p : Pending) {line : List Char} (some_ : line ≠ []) :
    (p.processLine (String.ofList line)).2 = none ∧
    (p.processLine (String.ofList line)).1.data =
      p.data ++ (dataValue line).toList.map String.ofList ∧
    (p.processLine (String.ofList line)).1.sawDataField =
      (p.sawDataField || (dataValue line).isSome) := by
  have isText : (String.ofList line).isEmpty = false := by simpa using some_
  rw [Pending.processLine, if_neg (by rw [isText]; decide), String.toList_ofList]
  by_cases comment : line.head? = some ':'
  · have noData : dataValue line = none := by
      cases line with
      | nil => cases comment
      | cons c rest =>
        cases comment
        rfl
    rw [if_pos comment, noData]
    simp
  · rw [if_neg comment]
    unfold Pending.setField dataValue
    by_cases event : (Pending.fieldValue line).1 = "event"
    · simp [event]
    · by_cases data : (Pending.fieldValue line).1 = "data"
      · simp [data]
      · rw [if_neg event, if_neg data]
        split
        · split <;> simp
        · split
          · split <;> simp
          · simp

theorem readLines_data : ∀ {lines : List (List Char)}, [] ∉ lines → ∀ p : Pending,
    (p.readLines (lines.map String.ofList)).2 = [] ∧
    (p.readLines (lines.map String.ofList)).1.data =
      p.data ++ (dataValues lines).map String.ofList ∧
    (p.readLines (lines.map String.ofList)).1.sawDataField =
      (p.sawDataField || decide (dataValues lines ≠ []))
  | [], _, p => by simp [Pending.readLines, dataValues]
  | line :: lines, some_, p => by
    obtain ⟨none_, data, saw⟩ := processLine_data p fun same => some_ (same ▸ mem_cons_self)
    obtain ⟨none', data', saw'⟩ := readLines_data (fun mem => some_ (mem_cons_of_mem _ mem))
      (p.processLine (String.ofList line)).1
    have values : dataValues (line :: lines) = (dataValue line).toList ++ dataValues lines := by
      rw [dataValues, filterMap_cons]
      cases dataValue line <;> rfl
    rw [Pending.readLines_cons]
    refine ⟨by rw [none_, none']; rfl, ?_, ?_⟩
    · rw [data', data, values, map_append, append_assoc]
    · rw [saw', saw, values]
      cases dataValue line with
      | none => rw [Option.isSome_none, Bool.or_false, Option.toList_none, nil_append]
      | some v => simp

theorem readLines_yielded (lines : List (List Char)) : ∀ p : Pending, p.data = [] →
    p.sawDataField = false →
    (p.readLines (lines.map String.ofList)).2.map (fun e => encode e.data.toList) =
      yielded (splitLines [] lines).1 := by
  induction lines using splitLines_induction ([] : List Char) with
  | rest lines some_ =>
    intro p _ _
    rw [(readLines_data some_ p).1, splitLines_of_not_mem some_]
    rfl
  | line lines more some_ ih =>
    intro p noData unseen
    obtain ⟨none_, data, saw⟩ := readLines_data some_ p
    rw [noData] at data
    rw [unseen, Bool.false_or] at saw
    rw [map_append, Pending.readLines_append, none_, nil_append, Pending.readLines_cons,
      Pending.processLine_blank, Pending.dispatch, saw, data, splitLines_line some_]
    rw [yielded, flatMap_cons, ← yielded, yieldedOf]
    by_cases empty : dataValues lines = []
    · rw [if_neg (by rw [decide_eq_true_eq]; exact not_not_intro empty), if_pos empty]
      exact ih _ rfl (decide_eq_false (not_not_intro empty))
    · rw [if_pos (decide_eq_true empty), if_neg empty, map_append, ih _ rfl rfl]
      simp [Function.comp_def]

/-! ### The bytes of a stream -/

theorem encode_wire (line : List Char) (crlf : Bool) (more : List (List Char × Bool)) :
    encode (((line, crlf) :: more).flatMap wire) =
      encode line ++ (if crlf then [carriageReturn, lineFeed] else [lineFeed]) ++
        encode (more.flatMap wire) := by
  rw [flatMap_cons, Utf8.encode_append, wire, Utf8.encode_append]
  cases crlf <;> rfl

theorem cutEnds_stream : ∀ {lines : List (List Char × Bool)}, (∀ l ∈ lines, OneLine l.1) →
    cutEnds carriageReturn lineFeed false (encode (lines.flatMap wire)) =
      (lines.map fun l => encode l.1, [])
  | [], _ => rfl
  | (line, crlf) :: lines, one => by
    have unended : Unended carriageReturn lineFeed (encode line) :=
      SseParser.unended_encode (one _ mem_cons_self)
    have rest := cutEnds_stream fun l mem => one l (mem_cons_of_mem _ mem)
    rw [encode_wire, append_assoc]
    cases crlf with
    | false =>
      rw [if_neg Bool.false_ne_true, singleton_append, cutEnds_line_lf unended, rest]
      rfl
    | true =>
      rw [if_pos rfl, cons_append, singleton_append,
        cutEnds_line_cr SseParser.carriageReturn_ne unended, cutEnds_true_lf, rest]
      rfl

theorem decodeFirst?_short (b : UInt8) : Utf8.decodeFirst? [0xEF, b] = none := by
  have all : ∀ n : Fin 256, Utf8.decodeFirst? [0xEF, UInt8.ofFin n] = none := by decide +kernel
  exact all b.toFin

theorem first_char {s : SseStream} (some_ : s.lines ≠ []) :
    ∃ c, Utf8.decodeFirst? s.bytes = some c ∧ c ≠ '\uFEFF' := by
  obtain ⟨⟨line, crlf⟩, lines, first⟩ := exists_cons_of_ne_nil some_
  have noMark := s.noMark (line, crlf) (by rw [first]; rfl)
  rw [bytes, first]
  cases line with
  | nil => cases crlf <;> exact ⟨_, Utf8.decodeFirst?_encode _ _, by decide⟩
  | cons c line => exact ⟨c, Utf8.decodeFirst?_encode _ _, fun same => noMark (congrArg some same)⟩

theorem not_waiting {s : SseStream} (some_ : s.lines ≠ []) :
    SseParser.waiting s.bytes = false := by
  obtain ⟨c, decoded, -⟩ := first_char some_
  rw [← Bool.not_eq_true, SseParser.waiting_iff]
  rintro ⟨short, starts⟩
  match bytes : s.bytes with
  | [] =>
    rw [bytes] at decoded
    cases decoded
  | [a] =>
    rw [bytes] at decoded starts
    have same : a = 0xEF := by simpa using starts
    subst same
    cases decoded
  | [a, b] =>
    rw [bytes] at decoded starts
    have same : a = 0xEF := by simpa using starts
    rw [same, decodeFirst?_short] at decoded
    cases decoded
  | a :: b :: c :: more =>
    rw [bytes, length_cons, length_cons, length_cons] at short
    omega

theorem stripBom_bytes (s : SseStream) : SseParser.stripBom s.bytes = s.bytes := by
  refine if_neg fun mark => ?_
  by_cases some_ : s.lines = []
  · rw [bytes, some_] at mark
    cases mark
  · obtain ⟨c, decoded, ne⟩ := first_char some_
    have parts : s.bytes = String.utf8EncodeChar '\uFEFF' ++ s.bytes.drop 3 := by
      conv_lhs => rw [← take_append_drop 3 s.bytes, mark]
      rfl
    rw [parts, Utf8.decodeFirst?_encode] at decoded
    exact ne (Option.some.inj decoded).symm

/-- **What the Rust parser yields is determined by the events of the stream.** -/
theorem events_eq (s : SseStream) : s.events = yielded s.blocks := by
  have fed : SseParser.new.feed s.bytes = (SseParser.starting s.bytes).feedLoop := rfl
  rw [events, fed, SseParser.feedLoop_starting]
  by_cases some_ : s.lines = []
  · rw [bytes, blocks, texts, some_]
    rfl
  · have lines : SseParser.linesOf false s.bytes = s.texts.map String.ofList := by
      rw [SseParser.linesOf, bytes, cutEnds_stream s.oneLine, map_map, texts, map_map]
      exact map_congr_left fun l _ => Utf8.fromUtf8Lossy_encode l.1
    rw [not_waiting some_, stripBom_bytes, lines]
    exact readLines_yielded s.texts {} rfl rfl

/-! ### Events on which all agree -/

/-- The lines of an event give the same data on all sides. -/
def PlainEvent (quiet : Bool) (lines : List (List Char)) : Prop :=
  match dataValues lines with
  | [] => Muted quiet lines
  | [d] => (valuesOf "data:" lines = [encode d] ∨ valuesOf "data:" lines = [] ∧ d = []) ∧
      ¬(Muted quiet lines ∧ d = [])
  | _ => False

def Plain : Bool → List (List (List Char)) → Prop
  | _, [] => True
  | quiet, lines :: more => PlainEvent quiet lines ∧ Plain (dataValues lines).isEmpty more

theorem prefix_of_encode : ∀ {name line : List Char}, (∀ c ∈ name, c.toNat < 128) →
    encode name <+: encode line → name <+: line
  | [], _, _, _ => nil_prefix
  | c :: name, line, ascii, starts => by
    have small := ascii c mem_cons_self
    rw [Utf8.encode_ascii small] at starts
    obtain ⟨more, same⟩ := starts
    cases line with
    | nil => cases same
    | cons d line =>
      obtain ⟨b, rest, bytes⟩ := exists_cons_of_ne_nil (Utf8.utf8EncodeChar_ne_nil d)
      have head : UInt8.ofNat c.toNat ∈ String.utf8EncodeChar d := by
        rw [Utf8.encode_cons, bytes] at same
        rw [bytes, (cons.inj same).1]
        exact mem_cons_self
      have value : (UInt8.ofNat c.toNat).toNat = c.toNat := by
        rw [UInt8.toNat_ofNat', Nat.mod_eq_of_lt (by omega)]
      have equal : d = c := Char.toNat_inj.mp
        ((Utf8.mem_utf8EncodeChar_ascii head (by rw [value]; exact small)).trans value)
      subst equal
      rw [Utf8.encode_ascii small] at same
      refine (cons_prefix_cons).mpr ⟨rfl, prefix_of_encode
        (fun x mem => ascii x (mem_cons_of_mem _ mem)) ⟨more, (cons.inj same).2⟩⟩

theorem dataValue_of_valueOf {line : List Char} {v : Bytes}
    (found : valueOf "data:" (encode line) = some v) : (dataValue line).isSome = true := by
  obtain ⟨value, rfl⟩ := prefix_of_encode (all_iff_forall_prop.mp (by decide))
    (head?_of_valueOf found)
  rfl

theorem length_valuesOf_le : ∀ lines : List (List Char),
    (valuesOf "data:" lines).length ≤ (dataValues lines).length
  | [] => Nat.le_refl _
  | line :: lines => by
    have rest := length_valuesOf_le lines
    rw [valuesOf_cons, dataValues, filterMap_cons, ← dataValues]
    cases found : valueOf "data:" (encode line) with
    | none => cases dataValue line <;> simp <;> omega
    | some v =>
      obtain ⟨d, read⟩ := Option.isSome_iff_exists.mp (dataValue_of_valueOf found)
      rw [read]
      simpa using rest

theorem mem_of_mem_trimLeading {value : Bytes} {b : UInt8} (mem : b ∈ trimLeading value) :
    b ∈ value := by
  unfold trimLeading at mem
  split at mem
  · exact mem
  · exact (dropWhile_suffix _).subset mem

theorem lineFeed_not_mem_valuesOf {lines : List (List Char)} (one : ∀ l ∈ lines, OneLine l)
    {v : Bytes} (mem : v ∈ valuesOf "data:" lines) : lineFeed ∉ v := by
  obtain ⟨line, inside, found⟩ := mem_filterMap.mp mem
  unfold valueOf at found
  split at found
  · cases found
    exact fun bad => (SseParser.unended_encode (one line inside)).2
      (mem_of_mem_drop (mem_of_mem_trimLeading bad))
  · cases found

theorem foldl_lastData_mem (vs : List Bytes) (d : Bytes) : vs.foldl lastData d ∈ d :: vs := by
  induction vs generalizing d with
  | nil => exact mem_cons_self
  | cons v vs ih => exact mem_cons_of_mem _ (ih v)

/-- What the blank line after an event makes a client hand over. -/
def given (addData : Bytes → Bytes → Bytes) (quiet : Bool) (lines : List (List Char)) :
    List Bytes :=
  if Silent addData quiet lines then [] else [dataOf addData lines]

variable {quiet : Bool}

theorem given_eq_nil_iff {lines : List (List Char)} :
    given addData quiet lines = [] ↔ Silent addData quiet lines := by
  unfold given
  split <;> simp [*]

theorem given_eq_singleton_iff {lines : List (List Char)} {d : Bytes} :
    given addData quiet lines = [d] ↔ ¬Silent addData quiet lines ∧ dataOf addData lines = d := by
  unfold given
  split <;> simp [*]

theorem plainEvent_iff {lines : List (List Char)} (one : ∀ l ∈ lines, OneLine l) :
    given joinData quiet lines = yieldedOf lines ∧ given lastData quiet lines = yieldedOf lines ↔
      PlainEvent quiet lines := by
  have most := length_valuesOf_le lines
  unfold PlainEvent yieldedOf
  match values : dataValues lines with
  | [] =>
    rw [values] at most
    have none_ : valuesOf "data:" lines = [] := length_eq_zero_iff.mp (Nat.le_zero.mp most)
    have data : ∀ addData, dataOf addData lines = [] := fun _ => by rw [dataOf, none_]; rfl
    rw [if_pos rfl, given_eq_nil_iff, given_eq_nil_iff]
    exact ⟨fun silent => silent.1.1, fun muted => ⟨⟨muted, data _⟩, muted, data _⟩⟩
  | [d] =>
    rw [values] at most
    have single : encode (intercalate ['\n'] [d]) = encode d := by simp [intercalate]
    have empty : encode d = [] ↔ d = [] :=
      ⟨fun none_ => by_contra fun some_ => encode_ne_nil some_ none_, fun same => by rw [same]; rfl⟩
    rw [if_neg (cons_ne_nil d []), single, given_eq_singleton_iff, given_eq_singleton_iff]
    match data : valuesOf "data:" lines with
    | [] =>
      have no : ∀ addData, dataOf addData lines = [] := fun _ => by rw [dataOf, data]; rfl
      unfold Silent
      rw [no, no]
      constructor
      · rintro ⟨⟨heard, same⟩, -⟩
        exact ⟨.inr ⟨rfl, empty.mp same.symm⟩, fun both => heard ⟨both.1, rfl⟩⟩
      · rintro ⟨same | ⟨-, same⟩, heard⟩
        · cases same
        · exact ⟨⟨fun muted => heard ⟨muted.1, same⟩, (empty.mpr same).symm⟩,
            fun muted => heard ⟨muted.1, same⟩, (empty.mpr same).symm⟩
    | [v] =>
      have joined : dataOf joinData lines = v := by rw [dataOf, data]; rfl
      have last : dataOf lastData lines = v := by rw [dataOf, data]; rfl
      unfold Silent
      rw [joined, last]
      constructor
      · rintro ⟨⟨heard, same⟩, -⟩
        subst same
        exact ⟨.inl rfl, fun both => heard ⟨both.1, empty.mpr both.2⟩⟩
      · rintro ⟨same | ⟨same, -⟩, heard⟩
        · cases same
          have loud : ¬(Muted quiet lines ∧ encode d = []) := fun both =>
            heard ⟨both.1, empty.mp both.2⟩
          exact ⟨⟨loud, rfl⟩, loud, rfl⟩
        · cases same
    | _ :: _ :: _ =>
      rw [data] at most
      simp at most
  | d :: d' :: more =>
    rw [if_neg (cons_ne_nil _ _), given_eq_singleton_iff, given_eq_singleton_iff]
    refine iff_of_false ?_ id
    rintro ⟨-, -, same⟩
    -- the data of the MCP client is one line
    have inside : lineFeed ∈ encode (intercalate ['\n'] (d :: d' :: more)) := by
      have parts : intercalate ['\n'] (d :: d' :: more) =
          d ++ '\n' :: intercalate ['\n'] (d' :: more) := by
        simp [intercalate]
      rw [parts, Utf8.encode_append]
      exact mem_append_right _ mem_cons_self
    rw [← same] at inside
    rcases mem_cons.mp (foldl_lastData_mem (valuesOf "data:" lines) []) with none_ | mem
    · rw [dataOf, none_] at inside
      cases inside
    · exact lineFeed_not_mem_valuesOf one mem inside

/-! ### Streams on which all agree -/

/-- After the first lines of a stream, on both clients and however they were cut into calls. -/
def Agree (s : SseStream) : Prop :=
  ∀ k calls, calls.flatten = (s.take k).bytes →
    callbacks joinData calls = (s.take k).events ∧ callbacks lastData calls = (s.take k).events

/-- The blocks of the first lines give the same. -/
def Same (quiet : Bool) (blocks : List (List (List Char))) : Prop :=
  handedOver joinData quiet blocks = yielded blocks ∧
    handedOver lastData quiet blocks = yielded blocks

theorem handedOver_cons (quiet : Bool) (lines : List (List Char)) (more : List (List (List Char))) :
    handedOver addData quiet (lines :: more) =
      given addData quiet lines ++ handedOver addData (decide (Silent addData quiet lines)) more := rfl

theorem silent_of_given {lines : List (List Char)}
    (same : given addData quiet lines = yieldedOf lines) :
    decide (Silent addData quiet lines) = (dataValues lines).isEmpty := by
  have empty : yieldedOf lines = [] ↔ dataValues lines = [] := by
    unfold yieldedOf
    split <;> simp [*]
  rw [Bool.eq_iff_iff, decide_eq_true_iff, List.isEmpty_iff, ← empty, ← same, given_eq_nil_iff]

theorem same_cons {lines : List (List Char)} {more : List (List (List Char))}
    (one : ∀ l ∈ lines, OneLine l) (plain : PlainEvent quiet lines) :
    Same quiet (lines :: more) ↔ Same (dataValues lines).isEmpty more := by
  obtain ⟨joined, last⟩ := (plainEvent_iff one).mpr plain
  unfold Same
  rw [handedOver_cons, handedOver_cons, silent_of_given joined, silent_of_given last, joined, last,
    yielded, flatMap_cons, ← yielded, append_cancel_left_eq, append_cancel_left_eq]

theorem same_iff_plain (lines : List (List Char)) : ∀ quiet : Bool, (∀ l ∈ lines, OneLine l) →
    ((∀ k, Same quiet (splitLines [] (lines.take k)).1) ↔ Plain quiet (splitLines [] lines).1) := by
  induction lines using splitLines_induction ([] : List Char) with
  | rest lines some_ =>
    intro quiet _
    refine iff_of_true (fun k => ?_) ?_
    · rw [splitLines_of_not_mem fun mem => some_ (mem_of_mem_take mem)]
      exact ⟨rfl, rfl⟩
    · rw [splitLines_of_not_mem some_]
      trivial
  | line block more some_ ih =>
    intro quiet one
    have oneBlock : ∀ l ∈ block, OneLine l := fun l mem => one l (mem_append_left _ mem)
    have oneMore : ∀ l ∈ more, OneLine l := fun l mem =>
      one l (mem_append_right _ (mem_cons_of_mem _ mem))
    have later : ∀ j, (splitLines [] ((block ++ [] :: more).take (block.length + 1 + j))).1 =
        block :: (splitLines [] (more.take j)).1 := by
      intro j
      rw [Nat.add_assoc, take_length_add_append, Nat.add_comm 1 j, take_succ_cons,
        splitLines_line some_]
    rw [splitLines_line some_]
    constructor
    · intro same
      have first := same (block.length + 1 + 0)
      rw [later, take_zero] at first
      have plain : PlainEvent quiet block := (plainEvent_iff oneBlock).mp (by
        obtain ⟨joined, last⟩ := first
        rw [splitLines_nil, handedOver_cons, handedOver] at joined last
        simpa [yielded] using And.intro joined last)
      refine ⟨plain, (ih _ oneMore).mp fun j => ?_⟩
      have step := same (block.length + 1 + j)
      rw [later] at step
      exact (same_cons oneBlock plain).mp step
    · rintro ⟨plain, rest⟩ k
      rcases Nat.lt_or_ge block.length k with beyond | within
      · obtain ⟨j, rfl⟩ := Nat.exists_eq_add_of_lt beyond
        rw [Nat.add_right_comm, later]
        exact (same_cons oneBlock plain).mpr ((ih _ oneMore).mpr rest j)
      · rw [take_append_of_le_length within,
          splitLines_of_not_mem fun mem => some_ (mem_of_mem_take mem)]
        exact ⟨rfl, rfl⟩

/-- **The C++ readers agree with the Rust parser exactly when every event is plain.** -/
theorem agree_iff (s : SseStream) : Agree s ↔ Plain false s.blocks := by
  have one : ∀ l ∈ s.texts, OneLine l := by
    intro l mem
    obtain ⟨line, inside, rfl⟩ := List.mem_map.mp mem
    exact s.oneLine line inside
  rw [blocks, ← same_iff_plain s.texts false one]
  have blocks : ∀ k, (s.take k).blocks = (splitLines [] (s.texts.take k)).1 := by
    intro k
    rw [blocks, texts, texts, ← List.map_take]
    rfl
  constructor
  · intro agree k
    have whole := agree k [(s.take k).bytes] (List.flatten_singleton ..)
    rwa [callbacks_eq _ (List.flatten_singleton ..), callbacks_eq _ (List.flatten_singleton ..),
      events_eq, blocks] at whole
  · intro same k calls cut
    rw [callbacks_eq _ cut, callbacks_eq _ cut, events_eq, blocks]
    exact same k

/-! ### A comment -/

namespace KeepAlive

def lines : List (List Char × Bool) := [(": keep-alive".toList, false), ([], false)]

theorem oneLine : ∀ l ∈ lines, OneLine l.1 := by decide

theorem noMark : ∀ l ∈ lines.head?, l.1.head? ≠ some '\uFEFF' := by decide

/-- A comment and a blank line, as servers and proxies send them. -/
def stream : SseStream := ⟨lines, oneLine, noMark⟩

/-- Both clients call back with empty data, and the Rust parser yields nothing. -/
theorem empty_data :
    callbacks joinData [stream.bytes] = [[]] ∧ callbacks lastData [stream.bytes] = [[]] ∧
      stream.events = [] ∧ ¬Agree stream := by
  have unplain : ¬Plain false stream.blocks := by
    rintro ⟨muted, -⟩
    exact absurd muted.1 (by decide)
  refine ⟨by decide, by decide, ?_, fun agree => unplain ((agree_iff stream).mp agree)⟩
  rw [events_eq]
  decide

end KeepAlive

end AgentProtocols.SseReaders
