import AgentProtocols.Lib.Runs
import AgentProtocols.Lib.OrderedMap
import AgentProtocols.Shared.HttpResponse

/-!
How the C++ HTTP servers read requests. `http_parser` is a parameter; `HttpParser.Documented` is
what its documentation says.

* `Reading.onRead` — a read that does not go past the end of a request keeps requests apart.
* `requests_handled` — if no read does, every request is handled by itself, and bytes rejected at
  once are answered with one 400.
* `pipelined_requests_merge` — two requests in one read are handled as one.
-/

namespace AgentProtocols.Shared

open Lib List

/-- The callbacks of `http_parser`. -/
inductive ParserEvent where
  | url (chunk : Text)
  | headerField (chunk : Text)
  | headerValue (chunk : Text)
  | headersComplete (method : Text) (major minor : Nat)
  | body (chunk : Text)
  | messageComplete
deriving DecidableEq

/-- `HttpRequest`, as far as it is filled here. -/
structure HttpRequest where
  method : Text := []
  url : Text := []
  version : Text := []
  headers : OrderedMap Text Text := OrderedMap.empty
  body : Text := []

/-! ### The callbacks -/

def isBlank (c : Char) : Bool := c = ' ' || c = '\t'

def trimInPlace (t : Text) : Text :=
  ((t.dropWhile isBlank).reverse.dropWhile isBlank).reverse

/-- The name a header is entered under; the MCP server converts it to lower case. -/
def Sdk.fieldName : Sdk → Text → Text
  | .a2a, field => field
  | .mcp, field => lowerCase field

/-- Enter a header; an empty name is skipped. -/
def enterHeader (sdk : Sdk) (headers : OrderedMap Text Text) (header : Text × Text) :
    OrderedMap Text Text :=
  if trimInPlace header.1 = [] then headers
  else headers.insert (sdk.fieldName (trimInPlace header.1)) (trimInPlace header.2)

structure ParserContext where
  request : HttpRequest := {}
  currentField : Text := []
  currentValue : Text := []
  lastWasValue : Bool := false
  messageCompleted : Bool := false

namespace ParserContext

/-- The header read last is entered. -/
def flush (sdk : Sdk) (ctx : ParserContext) : ParserContext :=
  { ctx with
    request := { ctx.request with
      headers := enterHeader sdk ctx.request.headers (ctx.currentField, ctx.currentValue) }
    currentField := []
    currentValue := [] }

/-- `"HTTP/" + std::to_string(http_major) + "." + std::to_string(http_minor)`. -/
def versionText (major minor : Nat) : Text :=
  "HTTP/".toList ++ Nat.toDigits 10 major ++ ".".toList ++ Nat.toDigits 10 minor

/-- The callbacks that `ParseRequest` sets. -/
def handle (sdk : Sdk) (ctx : ParserContext) : ParserEvent → ParserContext
  | .url chunk => { ctx with request := { ctx.request with url := ctx.request.url ++ chunk } }
  | .headerField chunk =>
    let ctx := if ctx.lastWasValue then { ctx.flush sdk with lastWasValue := false } else ctx
    { ctx with currentField := ctx.currentField ++ chunk }
  | .headerValue chunk =>
    { ctx with currentValue := ctx.currentValue ++ chunk, lastWasValue := true }
  | .headersComplete method major minor =>
    let ctx := if ctx.currentField = [] then ctx else ctx.flush sdk
    { ctx with
      request := { ctx.request with method := method, version := versionText major minor } }
  | .body chunk => { ctx with request := { ctx.request with body := ctx.request.body ++ chunk } }
  | .messageComplete => { ctx with messageCompleted := true }

end ParserContext

/-! ### Reading -/

/-- `http_parser_execute` on a new parser: callbacks and accepted bytes. -/
structure HttpParser where
  execute : Text → List ParserEvent × Nat

/-- The result of `ParseRequest`. -/
inductive ParseResult where
  | needMore
  | error
  | ok (request : HttpRequest) (consumedBytes : Nat)

def parseRequest (sdk : Sdk) (P : HttpParser) (buffer : Text) : ParseResult :=
  if buffer = [] then .needMore
  else
    let (events, parsed) := P.execute buffer
    let ctx := events.foldl (ParserContext.handle sdk) {}
    if parsed = 0 ∨ buffer.length < parsed then .error
    else if ctx.messageCompleted then .ok ctx.request parsed
    else .needMore

/-- A connection: its buffer, its requests, and the number of 400 answers. -/
structure RequestReader where
  requestBuffer : Text := []
  handled : List HttpRequest := []
  badRequests : Nat := 0

namespace RequestReader

/-- The loop of `OnRead`; a round for each byte and one more are enough. -/
def drain (sdk : Sdk) (P : HttpParser) : Nat → RequestReader → RequestReader
  | 0, c => c
  | fuel + 1, c =>
    match parseRequest sdk P c.requestBuffer with
    | .needMore => c
    | .error => { c with requestBuffer := [], badRequests := c.badRequests + 1 }
    | .ok request consumed =>
      drain sdk P fuel
        { c with
          handled := c.handled ++ [request]
          requestBuffer := c.requestBuffer.drop consumed }

def onRead (sdk : Sdk) (P : HttpParser) (c : RequestReader) (data : Text) : RequestReader :=
  drain sdk P ((c.requestBuffer ++ data).length + 1)
    { c with requestBuffer := c.requestBuffer ++ data }

end RequestReader

/-! ### Requests -/

/-- What a request says, its header and trailer fields in order. -/
structure Message where
  method : Text
  url : Text
  major : Nat := 1
  minor : Nat := 1
  headers : List (Text × Text) := []
  body : Text := []
  trailers : List (Text × Text) := []

/-- The request that `HandleRequest` has to be given for it. -/
def Message.request (sdk : Sdk) (m : Message) : HttpRequest where
  method := m.method
  url := m.url
  version := ParserContext.versionText m.major m.minor
  headers := m.headers.foldl (enterHeader sdk) OrderedMap.empty
  body := m.body

/-- The callbacks for header fields, whose names and values come in pieces. -/
def fieldEvents (pieces : List (List Text × List Text)) : List ParserEvent :=
  pieces.flatMap fun (field, value) => field.map .headerField ++ value.map .headerValue

/-- The pieces are those of the fields: each name and value comes in one piece at least. -/
def PiecesOf (fields : List (Text × Text)) (pieces : List (List Text × List Text)) : Prop :=
  pieces.map (fun (field, value) => (field.flatten, value.flatten)) = fields ∧
    ∀ piece ∈ pieces, piece.1 ≠ [] ∧ piece.2 ≠ []

/-- The documented callbacks for a message, trailer fields at its end. -/
def Callbacks (m : Message) (events : List ParserEvent) : Prop :=
  ∃ (url : List Text) (headers : List (List Text × List Text)) (body : List Text)
    (trailers : List (List Text × List Text)),
    events = url.map .url ++ fieldEvents headers ++ [.headersComplete m.method m.major m.minor] ++
      body.map .body ++ fieldEvents trailers ++ [.messageComplete] ∧
    url.flatten = m.url ∧ PiecesOf m.headers headers ∧ body.flatten = m.body ∧
    PiecesOf m.trailers trailers

open ParserEvent

/-- What the documentation of `http_parser` says of the bytes of a keep-alive request. -/
structure HttpParser.Documented (P : HttpParser) (Encodes : Text → Message → Prop) : Prop where
  /-- A complete request is accepted with its callbacks. -/
  complete : ∀ {wire m}, Encodes wire m →
    (P.execute wire).2 = wire.length ∧ Callbacks m (P.execute wire).1
  /-- A part of a request is accepted without the last of them. -/
  unfinished : ∀ {wire m part}, Encodes wire m → part <+: wire → part ≠ wire →
    (P.execute part).2 = part.length ∧ messageComplete ∉ (P.execute part).1
  /-- After a complete request the parser goes on with what follows. -/
  continues : ∀ {wire m} rest, Encodes wire m →
    P.execute (wire ++ rest) =
      ((P.execute wire).1 ++ (P.execute rest).1, wire.length + (P.execute rest).2)
  bounded : ∀ buffer, (P.execute buffer).2 ≤ buffer.length
  /-- There are callbacks for accepted bytes only. -/
  quiet : ∀ {buffer}, (P.execute buffer).2 = 0 → (P.execute buffer).1 = []

/-- The bytes do not start with a complete request, and the parser rejects one of them. -/
def HttpParser.Rejects (P : HttpParser) (Encodes : Text → Message → Prop) (bytes : Text) : Prop :=
  (P.execute bytes).2 < bytes.length ∧ ∀ wire m, Encodes wire m → ¬ wire <+: bytes

/-! ### What the callbacks make of a message -/

namespace ParserContext

variable {sdk : Sdk} {ctx : ParserContext}

/-- A field can start: the last one has its value, or there is none. -/
def Ready (ctx : ParserContext) : Prop :=
  ctx.lastWasValue = true ∨ (ctx.currentField = [] ∧ ctx.currentValue = [])

theorem enterHeader_nil (headers : OrderedMap Text Text) (value : Text) :
    enterHeader sdk headers ([], value) = headers :=
  if_pos rfl

theorem flush_request_of_nil (no_field : ctx.currentField = []) :
    (ctx.flush sdk).request = ctx.request := by
  unfold flush
  rw [no_field, enterHeader_nil]

theorem foldl_url (chunks : List Text) :
    (chunks.map url).foldl (handle sdk) ctx =
      { ctx with request := { ctx.request with url := ctx.request.url ++ chunks.flatten } } := by
  induction chunks generalizing ctx with
  | nil => simp
  | cons chunk rest ih =>
    rw [map_cons, foldl_cons, ih]
    simp [handle]

theorem foldl_body (chunks : List Text) :
    (chunks.map body).foldl (handle sdk) ctx =
      { ctx with request := { ctx.request with body := ctx.request.body ++ chunks.flatten } } := by
  induction chunks generalizing ctx with
  | nil => simp
  | cons chunk rest ih =>
    rw [map_cons, foldl_cons, ih]
    simp [handle]

theorem foldl_value {chunks : List Text} (some_chunk : chunks ≠ []) :
    (chunks.map headerValue).foldl (handle sdk) ctx = { ctx with
        currentValue := ctx.currentValue ++ chunks.flatten
        lastWasValue := true } := by
  induction chunks generalizing ctx with
  | nil => exact absurd rfl some_chunk
  | cons chunk rest ih =>
    rw [map_cons, foldl_cons]
    by_cases last : rest = []
    · subst last
      simp [handle]
    · rw [ih last]
      simp [handle]

theorem foldl_field_of_not_value {chunks : List Text} (not_value : ctx.lastWasValue = false) :
    (chunks.map headerField).foldl (handle sdk) ctx =
      { ctx with currentField := ctx.currentField ++ chunks.flatten } := by
  induction chunks generalizing ctx with
  | nil => simp
  | cons chunk rest ih =>
    have one : handle sdk ctx (.headerField chunk) =
        { ctx with currentField := ctx.currentField ++ chunk } := by
      simp [handle, not_value]
    rw [map_cons, foldl_cons, one]
    refine Eq.trans (ih ?_) ?_
    · exact not_value
    · simp

theorem handle_field_of_ready (ready : Ready ctx) (chunk : Text) :
    handle sdk ctx (.headerField chunk) =
      { ctx.flush sdk with currentField := chunk, lastWasValue := false } := by
  unfold handle
  by_cases value : ctx.lastWasValue = true
  · simp [value, flush]
  · have not_value : ctx.lastWasValue = false := by simpa using value
    obtain ⟨no_field, no_value⟩ := ready.resolve_left value
    obtain ⟨request, field, val, last, completed⟩ := ctx
    subst no_field no_value not_value
    simp [flush, enterHeader_nil]

theorem foldl_piece {field value : List Text} (ready : Ready ctx) (some_field : field ≠ [])
    (some_value : value ≠ []) :
    (field.map headerField ++ value.map headerValue).foldl (handle sdk) ctx = { ctx.flush sdk with
        currentField := field.flatten
        currentValue := value.flatten
        lastWasValue := true } := by
  cases field with
  | nil => exact absurd rfl some_field
  | cons chunk rest =>
    rw [foldl_append, map_cons, foldl_cons, handle_field_of_ready ready,
      foldl_field_of_not_value rfl, foldl_value some_value]
    simp [flush]

variable {pieces : List (List Text × List Text)}

theorem ready_foldl_fields (ready : Ready ctx)
    (each : ∀ piece ∈ pieces, piece.1 ≠ [] ∧ piece.2 ≠ []) :
    Ready ((fieldEvents pieces).foldl (handle sdk) ctx) := by
  induction pieces generalizing ctx with
  | nil => exact ready
  | cons piece rest ih =>
    obtain ⟨some_field, some_value⟩ := each piece (.head _)
    have split : fieldEvents (piece :: rest) =
        (piece.1.map .headerField ++ piece.2.map .headerValue) ++ fieldEvents rest := rfl
    rw [split, foldl_append, foldl_piece ready some_field some_value]
    exact ih (.inl rfl) fun other mem => each other (.tail _ mem)

variable (sdk) in
theorem flush_foldl_fields (ready : Ready ctx)
    (each : ∀ piece ∈ pieces, piece.1 ≠ [] ∧ piece.2 ≠ []) :
    (((fieldEvents pieces).foldl (handle sdk) ctx).flush sdk).request =
      { (ctx.flush sdk).request with
        headers := (pieces.map fun (field, value) => (field.flatten, value.flatten)).foldl
          (enterHeader sdk) (ctx.flush sdk).request.headers } := by
  induction pieces generalizing ctx with
  | nil => rfl
  | cons piece rest ih =>
    obtain ⟨some_field, some_value⟩ := each piece (.head _)
    have split : fieldEvents (piece :: rest) =
        (piece.1.map .headerField ++ piece.2.map .headerValue) ++ fieldEvents rest := rfl
    rw [split, foldl_append, foldl_piece ready some_field some_value,
      ih (.inl rfl) fun other mem => each other (.tail _ mem)]
    rfl

variable (sdk) (ctx) in
theorem handle_headersComplete (method : Text) (major minor : Nat) :
    (handle sdk ctx (.headersComplete method major minor)).request =
        { (ctx.flush sdk).request with method := method, version := versionText major minor } ∧
      (handle sdk ctx (.headersComplete method major minor)).currentField = [] := by
  unfold handle
  by_cases no_field : ctx.currentField = []
  · rw [flush_request_of_nil no_field]
    simp [no_field]
  · simp [no_field, flush]

theorem ready_headersComplete (ready : Ready ctx) (method : Text) (major minor : Nat) :
    Ready (handle sdk ctx (.headersComplete method major minor)) := by
  unfold handle Ready at *
  by_cases no_field : ctx.currentField = []
  · simpa [no_field] using ready
  · simp [no_field, flush]

theorem foldl_trailers (ready : Ready ctx)
    (no_field : ctx.currentField = []) (each : ∀ piece ∈ pieces, piece.1 ≠ [] ∧ piece.2 ≠ [])
    (at_most_one : pieces.length ≤ 1) :
    ((fieldEvents pieces).foldl (handle sdk) ctx).request = ctx.request := by
  match pieces, at_most_one with
  | [], _ => rfl
  | [piece], _ =>
    obtain ⟨some_field, some_value⟩ := each piece (.head _)
    have single : fieldEvents [piece] =
        piece.1.map .headerField ++ piece.2.map .headerValue := append_nil _
    rw [single, foldl_piece ready some_field some_value]
    exact flush_request_of_nil no_field

theorem messageCompleted_foldl {events : List ParserEvent} :
    (events.foldl (handle sdk) ctx).messageCompleted = true ↔
      ctx.messageCompleted = true ∨ .messageComplete ∈ events := by
  induction events generalizing ctx with
  | nil => simp
  | cons event rest ih =>
    rw [foldl_cons, ih]
    cases event with
    | messageComplete => simp [handle]
    | headerField chunk =>
      have same : (handle sdk ctx (.headerField chunk)).messageCompleted =
          ctx.messageCompleted := by
        unfold handle
        dsimp only
        split <;> rfl
      simp [same]
    | headersComplete method major minor =>
      have same : (handle sdk ctx (.headersComplete method major minor)).messageCompleted =
          ctx.messageCompleted := by
        unfold handle
        dsimp only
        split <;> rfl
      simp [same]
    | url chunk => simp [handle]
    | headerValue chunk => simp [handle]
    | body chunk => simp [handle]

theorem foldl_callbacks {m : Message} {events : List ParserEvent} (calls : Callbacks m events)
    (trailers : m.trailers.length ≤ 1) :
    (events.foldl (handle sdk) {}).request = m.request sdk := by
  obtain ⟨url, headers, body, trailerPieces, rfl, url_eq, ⟨headers_eq, each⟩, body_eq,
    ⟨trailers_eq, each_trailer⟩⟩ := calls
  have at_most_one : trailerPieces.length ≤ 1 := by
    rw [← trailers_eq, length_map] at trailers
    exact trailers
  simp only [foldl_append, foldl_cons, foldl_nil, foldl_url]
  generalize started : ({ ({} : ParserContext) with
    request := { ({} : HttpRequest) with url := ([] : Text) ++ url.flatten } }) = start
  have ready : Ready start := started ▸ .inr ⟨rfl, rfl⟩
  have ready_end : Ready ((fieldEvents headers).foldl (handle sdk) start) :=
    ready_foldl_fields ready each
  have headers_read := flush_foldl_fields sdk ready each
  generalize (fieldEvents headers).foldl (handle sdk) start = read at ready_end headers_read ⊢
  obtain ⟨request_eq, no_field⟩ := handle_headersComplete sdk read m.method m.major m.minor
  have ready_body : Ready (handle sdk read (.headersComplete m.method m.major m.minor)) :=
    ready_headersComplete ready_end m.method m.major m.minor
  rw [foldl_body]
  generalize handle sdk read (.headersComplete m.method m.major m.minor) = head
    at request_eq no_field ready_body ⊢
  have last : ((fieldEvents trailerPieces).foldl (handle sdk) { head with
      request := { head.request with body := head.request.body ++ body.flatten } }).request =
        { head.request with body := head.request.body ++ body.flatten } :=
    foldl_trailers ready_body no_field each_trailer at_most_one
  show ((fieldEvents trailerPieces).foldl (handle sdk) _).request = _
  rw [last, request_eq, headers_read, ← started, flush_request_of_nil rfl, headers_eq, url_eq,
    body_eq]
  rfl

end ParserContext

/-! ### What `ParseRequest` makes of a buffer -/

section Buffers

variable {sdk : Sdk} {P : HttpParser} {Encodes : Text → Message → Prop}
  {wire part rest : Text} {m : Message}

namespace HttpParser.Documented

variable (doc : P.Documented Encodes)

include doc

theorem execute_nil : P.execute [] = ([], 0) := by
  have zero : (P.execute []).2 = 0 := Nat.le_zero.mp (doc.bounded [])
  exact Prod.ext (doc.quiet zero) zero

variable (encoded : Encodes wire m)

include encoded

theorem messageComplete_mem : messageComplete ∈ (P.execute wire).1 := by
  obtain ⟨url, headers, body, trailers, same, -⟩ := (doc.complete encoded).2
  rw [same]
  exact mem_append_right _ (.head _)

theorem wire_ne_nil : wire ≠ [] := by
  rintro rfl
  have mem := doc.messageComplete_mem encoded
  rw [doc.execute_nil] at mem
  cases mem

theorem wire_eq_of_begins {wire' : Text} {m' : Message}
    (encoded' : Encodes wire' m') (begins : wire <+: wire') : wire = wire' := by
  by_contra ne
  exact (doc.unfinished encoded' begins ne).2 (doc.messageComplete_mem encoded)

omit encoded

theorem accepts_beginning {wires : List Text} (encoded : ∀ wire ∈ wires, ∃ m, Encodes wire m)
    {tail : Text} (some_byte : part ≠ []) (some_wire : wires ≠ [])
    (begins : part <+: wires.flatten ++ tail) : (P.execute part).2 ≠ 0 := by
  cases wires with
  | nil => exact absurd rfl some_wire
  | cons wire more =>
    obtain ⟨m, encoded⟩ := encoded wire (.head _)
    rw [flatten_cons, append_assoc] at begins
    rcases prefix_or_prefix_of_prefix begins (prefix_append wire _) with short | ⟨rest, rfl⟩
    · by_cases whole : part = wire
      · rw [whole, (doc.complete encoded).1]
        exact fun zero => doc.wire_ne_nil encoded (eq_nil_of_length_eq_zero zero)
      · rw [(doc.unfinished encoded short whole).1]
        exact fun zero => some_byte (eq_nil_of_length_eq_zero zero)
    · rw [doc.continues rest encoded]
      have nonempty := length_pos_iff.mpr (doc.wire_ne_nil encoded)
      omega

theorem rejects_of_stops (some_byte : rest ≠ []) (stops : (P.execute rest).2 = 0) :
    P.Rejects Encodes rest := by
  refine ⟨stops ▸ length_pos_iff.mpr some_byte, ?_⟩
  rintro wire m encoded ⟨behind, rfl⟩
  rw [doc.continues behind encoded] at stops
  have nonempty := length_pos_iff.mpr (doc.wire_ne_nil encoded)
  omega

end HttpParser.Documented

theorem parseRequest_complete (doc : P.Documented Encodes) (encoded : Encodes wire m)
    (trailers : m.trailers.length ≤ 1) (stops : (P.execute rest).2 = 0) :
    parseRequest sdk P (wire ++ rest) = .ok (m.request sdk) wire.length := by
  have nonempty := doc.wire_ne_nil encoded
  have parsed : P.execute (wire ++ rest) = ((P.execute wire).1, wire.length) := by
    rw [doc.continues rest encoded, doc.quiet stops, stops, append_nil, Nat.add_zero]
  have completed : ((P.execute wire).1.foldl (ParserContext.handle sdk) {}).messageCompleted =
      true :=
    ParserContext.messageCompleted_foldl.mpr (.inr (doc.messageComplete_mem encoded))
  have accepted : ¬ (wire.length = 0 ∨ (wire ++ rest).length < wire.length) := by
    rw [length_append, length_eq_zero_iff]
    rintro (none | less)
    · exact nonempty none
    · omega
  unfold parseRequest
  rw [if_neg (by simp [nonempty]), parsed]
  simp only [if_neg accepted, completed, if_true,
    ParserContext.foldl_callbacks (doc.complete encoded).2 trailers]

theorem parseRequest_unfinished (doc : P.Documented Encodes) (encoded : Encodes wire m)
    (begins : part <+: wire) (ne : part ≠ wire) : parseRequest sdk P part = .needMore := by
  unfold parseRequest
  split
  · rfl
  · rename_i some_byte
    obtain ⟨parsed, absent⟩ := doc.unfinished encoded begins ne
    have accepted : ¬ ((P.execute part).2 = 0 ∨ part.length < (P.execute part).2) := by
      rw [parsed, length_eq_zero_iff]
      rintro (none | less)
      · exact some_byte none
      · omega
    have open_message :
        ¬ ((P.execute part).1.foldl (ParserContext.handle sdk) {}).messageCompleted = true := by
      rw [ParserContext.messageCompleted_foldl]
      rintro (done | mem)
      · cases done
      · exact absent mem
    simp only [if_neg accepted, if_neg open_message]

theorem parseRequest_nil : parseRequest sdk P [] = .needMore := if_pos rfl

theorem parseRequest_rejected (some_byte : rest ≠ []) (stops : (P.execute rest).2 = 0) :
    parseRequest sdk P rest = .error := by
  unfold parseRequest
  rw [if_neg some_byte]
  simp only [stops, true_or, if_true]

end Buffers

/-! ### Reads -/

namespace RequestReader

variable {sdk : Sdk} {P : HttpParser} {Encodes : Text → Message → Prop} {c : RequestReader}

variable {data rest : Text} {fuel : Nat}

theorem drain_needMore (parsed : parseRequest sdk P c.requestBuffer = .needMore) :
    drain sdk P fuel c = c := by
  cases fuel with
  | zero => rfl
  | succ fuel => simp only [drain, parsed]

theorem drain_error (parsed : parseRequest sdk P c.requestBuffer = .error) :
    drain sdk P (fuel + 1) c =
      { c with requestBuffer := [], badRequests := c.badRequests + 1 } := by
  simp only [drain, parsed]

theorem drain_ok {fuel consumed : Nat} {request : HttpRequest}
    (parsed : parseRequest sdk P c.requestBuffer = .ok request consumed) :
    drain sdk P (fuel + 1) c = drain sdk P fuel { c with
          handled := c.handled ++ [request]
          requestBuffer := c.requestBuffer.drop consumed } := by
  simp only [drain, parsed]

/-- A read leaves nothing behind a request, and what is rejected is rejected at once. -/
def Orderly (P : HttpParser) (Encodes : Text → Message → Prop) (c : RequestReader)
    (data : Text) : Prop :=
  (∀ wire m rest, Encodes wire m → c.requestBuffer ++ data = wire ++ rest →
      (P.execute rest).2 = 0) ∧
    ((∀ wire m, Encodes wire m → ¬ wire <+: c.requestBuffer ++ data) →
      (P.execute (c.requestBuffer ++ data)).2 < (c.requestBuffer ++ data).length →
        (P.execute (c.requestBuffer ++ data)).2 = 0)

theorem orderly_of_unfinished (doc : P.Documented Encodes) {wire : Text} {m : Message}
    (encoded : Encodes wire m) (begins : c.requestBuffer ++ data <+: wire)
    (ne : c.requestBuffer ++ data ≠ wire) : Orderly P Encodes c data := by
  refine ⟨fun wire' m' rest encoded' buffer => ?_, fun _ less => ?_⟩
  · have inside : wire' <+: c.requestBuffer ++ data := ⟨rest, buffer.symm⟩
    have same := doc.wire_eq_of_begins encoded' encoded (inside.trans begins)
    rw [same] at inside
    exact absurd (begins.eq_of_length_le inside.length_le) ne
  · rw [(doc.unfinished encoded begins ne).1] at less
    omega

theorem orderly_of_complete (doc : P.Documented Encodes) {wire : Text} {m : Message}
    (encoded : Encodes wire m) (buffer : c.requestBuffer ++ data = wire ++ rest)
    (stops : (P.execute rest).2 = 0) : Orderly P Encodes c data := by
  refine ⟨fun wire' m' rest' encoded' buffer' => ?_, fun no_request _ => ?_⟩
  · have same : wire' = wire := by
      rcases prefix_or_prefix_of_prefix ⟨rest', buffer'.symm⟩ ⟨rest, buffer.symm⟩ with
        inside | inside
      · exact doc.wire_eq_of_begins encoded' encoded inside
      · exact (doc.wire_eq_of_begins encoded encoded' inside).symm
    rw [buffer, same, append_cancel_left_eq] at buffer'
    rw [← buffer']
    exact stops
  · exact absurd ⟨rest, buffer.symm⟩ (no_request wire m encoded)

def wires (requests : List (Text × Message)) : Text := (requests.map Prod.fst).flatten

/-- The requests are complete, with a trailer field at most. -/
def Encoded (Encodes : Text → Message → Prop) (requests : List (Text × Message)) : Prop :=
  ∀ request ∈ requests, Encodes request.1 request.2 ∧ request.2.trailers.length ≤ 1

/-- Complete requests are handled, and the buffer has the bytes of the next one. -/
structure Reading (sdk : Sdk) (c : RequestReader) (done todo : List (Text × Message)) : Prop where
  handled : c.handled = done.map fun request => request.2.request sdk
  badRequests : c.badRequests = 0
  buffer : ∀ next more, todo = next :: more → c.requestBuffer <+: next.1 ∧ c.requestBuffer ≠ next.1
  empty : todo = [] → c.requestBuffer = []

theorem Encoded.tail {request : Text × Message} {more : List (Text × Message)}
    (encoded : Encoded Encodes (request :: more)) : Encoded Encodes more :=
  fun other mem => encoded other (.tail _ mem)

theorem Encoded.wires {requests : List (Text × Message)} (encoded : Encoded Encodes requests) :
    ∀ wire ∈ requests.map Prod.fst, ∃ m, Encodes wire m := by
  intro wire mem
  obtain ⟨request, inside, rfl⟩ := mem_map.mp mem
  exact ⟨request.2, (encoded request inside).1⟩

theorem nothing_behind (doc : P.Documented Encodes) {tail : Text}
    {next : Text × Message} {more : List (Text × Message)}
    (encoded : Encoded Encodes (next :: more)) (orderly : Orderly P Encodes c data)
    (buffer : c.requestBuffer ++ data = next.1 ++ rest) (some_byte : rest ≠ [])
    (begins : rest <+: wires more ++ tail) : more = [] ∧ (P.execute rest).2 = 0 := by
  have stops := orderly.1 next.1 next.2 rest (encoded next (.head _)).1 buffer
  refine ⟨?_, stops⟩
  by_contra some_more
  exact doc.accepts_beginning encoded.tail.wires some_byte (by simpa using some_more) begins stops

theorem onRead_complete (sdk : Sdk) (doc : P.Documented Encodes)
    {next : Text × Message} (encoded : Encodes next.1 next.2)
    (trailers : next.2.trailers.length ≤ 1) (buffer : c.requestBuffer ++ data = next.1 ++ rest)
    (stops : (P.execute rest).2 = 0) : ∃ fuel, onRead sdk P c data = drain sdk P (fuel + 1)
      { c with handled := c.handled ++ [next.2.request sdk], requestBuffer := rest } := by
  have nonempty := length_pos_iff.mpr (doc.wire_ne_nil encoded)
  obtain ⟨fuel, length⟩ : ∃ fuel, (next.1 ++ rest).length = fuel + 1 := by
    refine ⟨(next.1 ++ rest).length - 1, ?_⟩
    rw [length_append]
    omega
  refine ⟨fuel, ?_⟩
  unfold onRead
  rw [buffer, length, drain_ok (parseRequest_complete doc encoded trailers stops), drop_left]

theorem Reading.onRead (doc : P.Documented Encodes) {done todo : List (Text × Message)}
    (reading : Reading sdk c done todo) (encoded : Encoded Encodes todo)
    (orderly : Orderly P Encodes c data) (begins : c.requestBuffer ++ data <+: wires todo) :
    ∃ done' todo', done ++ todo = done' ++ todo' ∧ wires done ++ (c.requestBuffer ++ data) =
        wires done' ++ (RequestReader.onRead sdk P c data).requestBuffer ∧
      Reading sdk (RequestReader.onRead sdk P c data) done' todo' := by
  cases todo with
  | nil =>
    have nothing : c.requestBuffer ++ data = [] := prefix_nil.mp begins
    have same : RequestReader.onRead sdk P c data = { c with requestBuffer := [] } := by
      unfold RequestReader.onRead
      rw [nothing, drain_needMore parseRequest_nil]
    refine ⟨done, [], rfl, by rw [same, nothing], ?_⟩
    rw [same]
    exact ⟨reading.handled, reading.badRequests, (fun _ _ absent => nomatch absent), fun _ => rfl⟩
  | cons next more =>
    obtain ⟨encodes, trailers⟩ := encoded next (.head _)
    have both : c.requestBuffer ++ data <+: next.1 ++ wires more := begins
    by_cases short : c.requestBuffer ++ data <+: next.1 ∧ c.requestBuffer ++ data ≠ next.1
    · have same : RequestReader.onRead sdk P c data =
          { c with requestBuffer := c.requestBuffer ++ data } := by
        unfold RequestReader.onRead
        rw [drain_needMore (parseRequest_unfinished doc encodes short.1 short.2)]
      refine ⟨done, next :: more, rfl, by rw [same], ?_⟩
      rw [same]
      refine ⟨reading.handled, reading.badRequests, ?_, (fun absent => nomatch absent)⟩
      rintro _ _ ⟨⟩
      exact short
    · obtain ⟨rest, buffer⟩ : next.1 <+: c.requestBuffer ++ data := by
        rcases prefix_or_prefix_of_prefix both (prefix_append next.1 _) with
          inside | inside
        · have whole := not_not.mp fun ne => short ⟨inside, ne⟩
          exact ⟨[], by rw [whole, append_nil]⟩
        · exact inside
      rw [← buffer, prefix_append_right_inj] at both
      have nothing : rest = [] := by
        by_contra some_byte
        obtain ⟨none, -⟩ := nothing_behind doc encoded orderly buffer.symm some_byte
          (both.trans (prefix_append _ []))
        rw [none] at both
        exact some_byte (prefix_nil.mp both)
      have stops : (P.execute rest).2 = 0 := by rw [nothing, doc.execute_nil]
      obtain ⟨fuel, same⟩ := onRead_complete sdk doc encodes trailers buffer.symm stops
      rw [nothing, drain_needMore parseRequest_nil] at same
      refine ⟨done ++ [next], more, by simp, ?_, ?_⟩
      · rw [same, ← buffer, nothing]
        simp [wires]
      · rw [same]
        refine ⟨?_, reading.badRequests, ?_, fun _ => rfl⟩
        · simp [reading.handled]
        · rintro after _ rfl
          refine ⟨List.nil_prefix, fun absent => ?_⟩
          exact doc.wire_ne_nil (encoded after (.tail _ (.head _))).1 absent.symm

theorem wires_append (first second : List (Text × Message)) :
    wires (first ++ second) = wires first ++ wires second := by
  simp [wires]

/-- The reads of a connection, one after the other. -/
def Reads (sdk : Sdk) (P : HttpParser) : RequestReader → Text → RequestReader → Prop :=
  Steps fun c data => some (c.onRead sdk P data)

theorem Reading.run (doc : P.Documented Encodes) {c' : RequestReader} {reads : List Text}
    (run : Run (Under (Orderly P Encodes) (Reads sdk P)) c reads c') :
    ∀ {done todo : List (Text × Message)}, Reading sdk c done todo → Encoded Encodes (done ++ todo) →
      wires done ++ (c.requestBuffer ++ reads.flatten) <+: wires (done ++ todo) →
      ∃ done' todo', done ++ todo = done' ++ todo' ∧
        wires done ++ (c.requestBuffer ++ reads.flatten) = wires done' ++ c'.requestBuffer ∧
        Reading sdk c' done' todo' := by
  induction run with
  | nil c =>
    intro done todo reading encoded begins
    exact ⟨done, todo, rfl, by simp, reading⟩
  | @cons c mid c' data reads step rest ih =>
    intro done todo reading encoded begins
    obtain ⟨orderly, taken⟩ := step
    cases taken
    have flat : wires done ++ (c.requestBuffer ++ (data :: reads).flatten) =
        (wires done ++ (c.requestBuffer ++ data)) ++ reads.flatten := by simp
    have first : c.requestBuffer ++ data <+: wires todo := by
      rw [flat, wires_append, append_assoc, prefix_append_right_inj] at begins
      exact (prefix_append _ _).trans begins
    obtain ⟨done₁, todo₁, same, bytes, reading₁⟩ :=
      reading.onRead doc (fun request mem => encoded request (mem_append_right _ mem))
        orderly first
    rw [flat, bytes, same, append_assoc] at begins
    obtain ⟨done₂, todo₂, same₂, bytes₂, reading₂⟩ := ih reading₁ (same ▸ encoded) begins
    refine ⟨done₂, todo₂, same.trans same₂, ?_, reading₂⟩
    rw [flat, bytes, append_assoc, bytes₂]

/-- The read that brings the last bytes of the requests, and what the parser rejects. -/
theorem Reading.last (doc : P.Documented Encodes) {done todo : List (Text × Message)}
    (reading : Reading sdk c done todo) (encoded : Encoded Encodes todo) {rejected : Text}
    (orderly : Orderly P Encodes c data) (bytes : c.requestBuffer ++ data = wires todo ++ rejected)
    (rejects : rejected = [] ∨ P.Rejects Encodes rejected) :
    (c.onRead sdk P data).handled = (done ++ todo).map (fun request => request.2.request sdk) ∧
      (c.onRead sdk P data).badRequests = (if rejected = [] then 0 else 1) ∧
      (c.onRead sdk P data).requestBuffer = [] := by
  -- what is left in the buffer once the requests are handled
  have ending : ∀ (c : RequestReader) (fuel : Nat), c.requestBuffer = rejected →
      c.badRequests = 0 → (P.execute rejected).2 = 0 →
      (drain sdk P (fuel + 1) c).handled = c.handled ∧
        (drain sdk P (fuel + 1) c).badRequests = (if rejected = [] then 0 else 1) ∧
        (drain sdk P (fuel + 1) c).requestBuffer = [] := by
    intro c fuel buffer none_bad stops
    by_cases nothing : rejected = []
    · rw [drain_needMore (by rw [buffer, nothing]; exact parseRequest_nil), if_pos nothing]
      exact ⟨rfl, none_bad, buffer.trans nothing⟩
    · rw [drain_error (by rw [buffer]; exact parseRequest_rejected nothing stops),
        if_neg nothing, none_bad]
      exact ⟨rfl, rfl, rfl⟩
  cases todo with
  | nil =>
    have bytes : c.requestBuffer ++ data = rejected := bytes
    have stops : (P.execute rejected).2 = 0 := by
      rcases rejects with rfl | ⟨less, no_request⟩
      · rw [doc.execute_nil]
      · rw [← bytes] at less no_request ⊢
        exact orderly.2 no_request less
    obtain ⟨handled, bad, buffer⟩ := ending { c with requestBuffer := c.requestBuffer ++ data }
      (c.requestBuffer ++ data).length bytes reading.badRequests stops
    rw [append_nil, ← reading.handled]
    exact ⟨handled, bad, buffer⟩
  | cons next more =>
    obtain ⟨encodes, trailers⟩ := encoded next (.head _)
    have bytes : c.requestBuffer ++ data = next.1 ++ (wires more ++ rejected) := by
      rw [bytes]
      simp [wires]
    have stops := orderly.1 next.1 next.2 _ encodes bytes
    have none_more : more = [] := by
      by_contra some_more
      have some_byte : wires more ++ rejected ≠ [] := by
        obtain ⟨after, others, rfl⟩ := exists_cons_of_ne_nil some_more
        have nonempty := doc.wire_ne_nil (encoded after (.tail _ (.head _))).1
        simp [wires, nonempty]
      exact some_more (nothing_behind doc encoded orderly bytes some_byte prefix_rfl).1
    subst none_more
    obtain ⟨fuel, same⟩ := onRead_complete sdk doc encodes trailers bytes stops
    obtain ⟨handled, bad, buffer⟩ := ending
      { c with handled := c.handled ++ [next.2.request sdk], requestBuffer := rejected } fuel rfl
      reading.badRequests stops
    rw [same, map_append, ← reading.handled]
    exact ⟨handled, bad, buffer⟩

end RequestReader

/-! ### Parsers that go from byte to byte -/

/-- A parser that takes one byte after the other, with the callbacks for each. -/
structure ByteParser where
  State : Type
  start : State
  next : State → Char → Option (List ParserEvent × State)

namespace ByteParser

variable {B : ByteParser}

/-- The callbacks and the number of accepted bytes, and the state after all of them. -/
def run (B : ByteParser) : B.State → Text → List ParserEvent × Nat × Option B.State
  | s, [] => ([], 0, some s)
  | s, c :: rest =>
    match B.next s c with
    | none => ([], 0, none)
    | some (events, s') =>
      let (more, parsed, last) := B.run s' rest
      (events ++ more, parsed + 1, last)

def toHttpParser (B : ByteParser) : HttpParser where
  execute buffer := ((B.run B.start buffer).1, (B.run B.start buffer).2.1)

/-- The parser takes the bytes as one request and is then as at the start. -/
def Encodes (B : ByteParser) (wire : Text) (m : Message) : Prop :=
  (∃ parsed, B.run B.start wire = ((B.run B.start wire).1, parsed, some B.start)) ∧
    Callbacks m (B.run B.start wire).1 ∧
    ∀ part, part <+: wire → part ≠ wire →
      messageComplete ∉ (B.run B.start part).1

theorem run_le (s : B.State) (buffer : Text) : (B.run s buffer).2.1 ≤ buffer.length := by
  induction buffer generalizing s with
  | nil => exact Nat.le_refl 0
  | cons c rest ih =>
    simp only [run]
    split
    · exact Nat.zero_le _
    · exact Nat.succ_le_succ (ih _)

variable {s : B.State}

theorem run_quiet {buffer : Text} (zero : (B.run s buffer).2.1 = 0) : (B.run s buffer).1 = [] := by
  cases buffer with
  | nil => rfl
  | cons c rest =>
    simp only [run] at zero ⊢
    split at zero
    · rfl
    · cases zero

theorem run_append {s' : B.State} {first : Text} {events : List ParserEvent} {parsed : Nat}
    (ends : B.run s first = (events, parsed, some s')) (rest : Text) :
    parsed = first.length ∧ B.run s (first ++ rest) =
      (events ++ (B.run s' rest).1, parsed + (B.run s' rest).2.1, (B.run s' rest).2.2) := by
  induction first generalizing s events parsed with
  | nil =>
    cases ends
    exact ⟨rfl, by simp⟩
  | cons c first ih =>
    simp only [run, cons_append] at ends ⊢
    cases next : B.next s c with
    | none =>
      rw [next] at ends
      cases ends
    | some found =>
      obtain ⟨own, mid⟩ := found
      rw [next] at ends
      dsimp only at ends
      generalize inner : B.run mid first = result at ends
      obtain ⟨more, count, last⟩ := result
      cases ends
      obtain ⟨length, goes_on⟩ := ih inner
      refine ⟨congrArg (· + 1) length, ?_⟩
      simp only [goes_on, append_assoc, Nat.add_right_comm]

theorem run_part {part rest : Text}
    (ends : (B.run s (part ++ rest)).2.2 ≠ none) : ∃ s', (B.run s part).2.2 = some s' := by
  induction part generalizing s with
  | nil => exact ⟨s, rfl⟩
  | cons c part ih =>
    simp only [run, cons_append] at ends ⊢
    cases next : B.next s c with
    | none =>
      rw [next] at ends
      exact absurd rfl ends
    | some found =>
      rw [next] at ends
      exact ih ends

/-- Such a parser does what the documentation says. -/
theorem documented (B : ByteParser) : B.toHttpParser.Documented B.Encodes where
  complete {wire m} encoded := by
    obtain ⟨⟨parsed, ends⟩, calls, -⟩ := encoded
    obtain ⟨length, -⟩ := run_append ends []
    refine ⟨?_, calls⟩
    show (B.run B.start wire).2.1 = wire.length
    rw [ends, ← length]
  unfinished {wire m part} encoded begins ne := by
    obtain ⟨⟨parsed, ends⟩, -, open_message⟩ := encoded
    refine ⟨?_, open_message part begins ne⟩
    obtain ⟨rest, rfl⟩ := begins
    have not_none : (B.run B.start (part ++ rest)).2.2 ≠ none := by
      rw [ends]
      exact fun absent => nomatch absent
    obtain ⟨s', reached⟩ := run_part not_none
    exact (run_append (Prod.ext rfl (Prod.ext rfl reached)) []).1
  continues {wire m} rest encoded := by
    obtain ⟨⟨parsed, ends⟩, -, -⟩ := encoded
    obtain ⟨length, goes_on⟩ := run_append ends rest
    show ((B.run B.start (wire ++ rest)).1, (B.run B.start (wire ++ rest)).2.1) = _
    rw [goes_on, length]
    rfl
  bounded buffer := run_le B.start buffer
  quiet zero := run_quiet zero

end ByteParser

open RequestReader in
/-- Requests are handled once, in order and by themselves; what is rejected gets one 400. -/
theorem requests_handled {sdk : Sdk} {P : HttpParser} {Encodes : Text → Message → Prop}
    (doc : P.Documented Encodes) {requests : List (Text × Message)}
    (encoded : Encoded Encodes requests) {reads : List Text} {last rejected : Text}
    (bytes : reads.flatten ++ last = wires requests ++ rejected)
    (before : reads.flatten.length ≤ (wires requests).length)
    (rejects : rejected = [] ∨ P.Rejects Encodes rejected) {c : RequestReader}
    (run : Run (Under (Orderly P Encodes) (Reads sdk P)) {} (reads ++ [last]) c) :
    c.handled = requests.map (fun request => request.2.request sdk) ∧
      c.badRequests = (if rejected = [] then 0 else 1) ∧ c.requestBuffer = [] := by
  obtain ⟨mid, first, final⟩ := run.split
  obtain ⟨_, ⟨orderly, taken⟩, done⟩ := final.cons_inv
  cases taken
  cases done
  have start : Reading sdk {} [] requests :=
    { handled := rfl
      badRequests := rfl
      buffer := by
        rintro next _ rfl
        refine ⟨List.nil_prefix, fun absent => ?_⟩
        exact doc.wire_ne_nil (encoded next (.head _)).1 absent.symm
      empty := fun _ => rfl }
  have begins : reads.flatten <+: wires requests :=
    List.prefix_of_prefix_length_le ⟨last, bytes⟩ (List.prefix_append _ _) before
  obtain ⟨handled, todo, same, read, reading⟩ := Reading.run doc first start encoded begins
  have same : requests = handled ++ todo := same
  have read : reads.flatten = wires handled ++ mid.requestBuffer := read
  subst same
  rw [read, wires_append, List.append_assoc, List.append_assoc, List.append_cancel_left_eq] at bytes
  exact reading.last doc (fun request mem => encoded request (List.mem_append_right _ mem)) orderly
    bytes rejects

/-! ### A parser for plain requests -/

inductive RequestPhase where
  | start
  | method (name : Text)
  | url (method : Text)
  | version (method expected : Text)
  | fieldStart (method : Text) (length : Nat)
  | field (method : Text) (length : Nat) (name : Text)
  | valueStart (method : Text) (length : Nat) (name : Text)
  | value (method : Text) (length : Nat) (name value : Text)
  | valueEnd (method : Text) (length : Nat)
  | headEnd (method : Text) (length : Nat)
  | body (left : Nat)

def decimal (digits : Text) : Nat := digits.foldl (fun n c => 10 * n + (c.toNat - '0'.toNat)) 0

/-- The header fields of the parser have letters, digits and hyphens in their names. -/
def isFieldChar (c : Char) : Bool := c.isAlphanum || c = '-'

namespace RequestPhase

/-- The request line, the header fields, and a body of the length they give, if any. -/
def next : RequestPhase → Char → Option (List ParserEvent × RequestPhase)
  | .start, c =>
    if c.isUpper then some ([], .method [c])
    else if c = '\r' ∨ c = '\n' then some ([], .start) else none
  | .method name, c =>
    if c = ' ' then some ([], .url name)
    else if c.isUpper then some ([], .method (name ++ [c])) else none
  | .url m, c =>
    if c = ' ' then some ([], .version m "HTTP/1.1\r\n".toList)
    else if c = '\r' ∨ c = '\n' then none else some ([.url [c]], .url m)
  | .version _ [], _ => none
  | .version m [e], c => if c = e then some ([], .fieldStart m 0) else none
  | .version m (e :: es), c => if c = e then some ([], .version m es) else none
  | .fieldStart m n, c =>
    if c = '\r' then some ([], .headEnd m n)
    else if isFieldChar c then some ([.headerField [c]], .field m n [c]) else none
  | .field m n name, c =>
    if c = ':' then some ([], .valueStart m n name)
    else if isFieldChar c then some ([.headerField [c]], .field m n (name ++ [c])) else none
  | .valueStart m n name, c =>
    if c = ' ' then some ([], .valueStart m n name)
    else if c = '\r' then some ([.headerValue []], .valueEnd m n)
    else some ([.headerValue [c]], .value m n name [c])
  | .value m n name v, c =>
    if c = '\r' then
      some ([], .valueEnd m (if lowerCase name = "content-length".toList then decimal v else n))
    else some ([.headerValue [c]], .value m n name (v ++ [c]))
  | .valueEnd m n, c => if c = '\n' then some ([], .fieldStart m n) else none
  | .headEnd m n, c =>
    if c ≠ '\n' then none
    else if n = 0 then some ([.headersComplete m 1 1, .messageComplete], .start)
    else some ([.headersComplete m 1 1], .body n)
  | .body n, c =>
    if n ≤ 1 then some ([.body [c], .messageComplete], .start)
    else some ([.body [c]], .body (n - 1))

end RequestPhase

def plainParser : ByteParser := ⟨RequestPhase, .start, RequestPhase.next⟩

def pieces (t : Text) : List Text := t.map fun c => [c]

theorem plainParser_encodes {wire : Text} {m : Message} {parsed : Nat}
    {events : List ParserEvent}
    (ends : plainParser.run plainParser.start wire = (events, parsed, some plainParser.start))
    (calls : Callbacks m events)
    (open_message : ∀ part ∈ wire.inits, part ≠ wire →
      messageComplete ∉ (plainParser.run plainParser.start part).1) :
    plainParser.Encodes wire m := by
  refine ⟨⟨parsed, by rw [ends]⟩, by rw [ends]; exact calls, fun part begins ne => ?_⟩
  exact open_message part ((mem_inits part wire).mpr begins) ne

/-- A request with a body. -/
def postWire : Text := "POST /a HTTP/1.1\r\ncontent-length: 2\r\n\r\nhi".toList

def postMessage : Message where
  method := "POST".toList
  url := "/a".toList
  headers := [("content-length".toList, "2".toList)]
  body := "hi".toList

theorem encodes_post : plainParser.Encodes postWire postMessage := by
  refine plainParser_encodes rfl ?_ (by decide +kernel)
  exact ⟨pieces "/a".toList, [(pieces "content-length".toList, pieces "2".toList)],
    pieces "hi".toList, [], by decide, by decide, ⟨by decide, by decide⟩, by decide,
    ⟨by decide, by decide⟩⟩

/-- The first read of the request below. -/
def postStart : Text := postWire.take 30

/-- The second read, with a byte behind the request that starts no other one. -/
def postEnd : Text := postWire.drop 30 ++ ['?']

open RequestReader in
theorem cut_request_handled :
    ((({} : RequestReader).onRead .mcp plainParser.toHttpParser postStart).onRead .mcp
        plainParser.toHttpParser postEnd).handled = [postMessage.request .mcp] ∧
      ((({} : RequestReader).onRead .mcp plainParser.toHttpParser postStart).onRead .mcp
        plainParser.toHttpParser postEnd).badRequests = 1 := by
  have doc := plainParser.documented
  have kept : (({} : RequestReader).onRead .mcp plainParser.toHttpParser postStart).requestBuffer =
      postStart := by
    decide +kernel
  have stops : (plainParser.toHttpParser.execute ['?']).2 = 0 := rfl
  have first : Orderly plainParser.toHttpParser plainParser.Encodes {} postStart :=
    orderly_of_unfinished doc encodes_post (List.take_prefix _ _) (by decide +kernel)
  have second : Orderly plainParser.toHttpParser plainParser.Encodes
      (({} : RequestReader).onRead .mcp plainParser.toHttpParser postStart) postEnd := by
    have buffer : postStart ++ postEnd = postWire ++ ['?'] := by decide +kernel
    exact orderly_of_complete doc encodes_post ((congrArg (· ++ postEnd) kept).trans buffer) stops
  have encoded : Encoded plainParser.Encodes [(postWire, postMessage)] := by
    intro request mem
    rw [List.mem_singleton.mp mem]
    exact ⟨encodes_post, by decide⟩
  have bytes : [postStart].flatten ++ postEnd = wires [(postWire, postMessage)] ++ ['?'] := by
    decide +kernel
  obtain ⟨handled, bad, -⟩ := requests_handled doc encoded bytes (by decide +kernel)
    (.inr (doc.rejects_of_stops (by decide) stops))
    (.cons ⟨first, rfl⟩ (.cons ⟨second, rfl⟩ (.nil _)))
  exact ⟨handled, bad⟩

/-- A request without a body. -/
def getWire (url : Text) : Text := "GET ".toList ++ url ++ " HTTP/1.1\r\n\r\n".toList

def getMessage (url : Text) : Message := { method := "GET".toList, url := url }

/-- Two requests that come in one read are handled as one. -/
theorem pipelined_requests_merge :
    plainParser.toHttpParser.Documented plainParser.Encodes ∧
      plainParser.Encodes (getWire "/a".toList) (getMessage "/a".toList) ∧
      plainParser.Encodes (getWire "/b".toList) (getMessage "/b".toList) ∧
      ((({} : RequestReader).onRead .a2a plainParser.toHttpParser
        (getWire "/a".toList ++ getWire "/b".toList)).handled.map HttpRequest.url) =
          ["/a/b".toList] ∧
      (({} : RequestReader).onRead .mcp plainParser.toHttpParser
        (getWire "/a".toList ++ getWire "/b".toList)).handled.length = 1 ∧
      plainParser.toHttpParser.Rejects plainParser.Encodes "GET /a FTP".toList ∧
      (({} : RequestReader).onRead .a2a plainParser.toHttpParser
        "GET /a FTP".toList).badRequests = 0 := by
  have encodes_get : ∀ url ∈ ["/a".toList, "/b".toList],
      plainParser.Encodes (getWire url) (getMessage url) := by
    intro url mem
    rcases List.mem_cons.mp mem with rfl | mem
    · refine plainParser_encodes rfl ?_ (by decide +kernel)
      exact ⟨pieces "/a".toList, [], [], [], by decide, by decide, ⟨by decide, by decide⟩,
        by decide, ⟨by decide, by decide⟩⟩
    · rw [List.mem_singleton.mp mem]
      refine plainParser_encodes rfl ?_ (by decide +kernel)
      exact ⟨pieces "/b".toList, [], [], [], by decide, by decide, ⟨by decide, by decide⟩,
        by decide, ⟨by decide, by decide⟩⟩
  refine ⟨plainParser.documented, encodes_get _ (.head _), encodes_get _ (.tail _ (.head _)),
    by decide +kernel, by decide +kernel, ⟨by decide +kernel, ?_⟩, by decide +kernel⟩
  -- the parser has no complete request before the byte it rejects
  intro wire m encoded begins
  have open_message : ∀ part ∈ "GET /a FTP".toList.inits,
      messageComplete ∉ (plainParser.run plainParser.start part).1 := by
    decide +kernel
  exact open_message wire ((List.mem_inits _ _).mpr begins)
    (plainParser.documented.messageComplete_mem encoded)

end AgentProtocols.Shared
