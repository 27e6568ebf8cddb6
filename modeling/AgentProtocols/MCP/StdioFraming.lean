import AgentProtocols.Lib.Lines
import AgentProtocols.Lib.Runs
import AgentProtocols.Lib.Utf8
import AgentProtocols.MCP.MessageClassification
import Mathlib.Data.Bool.AllAny
import Mathlib.Data.List.DropRight

/-!
The stdio transport of the Rust SDK. The reader hands responses over itself, and the rest to tasks
that run in any order. A line that is not UTF-8 ends the loop.

* `Reader.Sound.step` — what a step of the reader or of a task keeps.
* `loses_nothing_iff` — in every complete run each message has been handed over once exactly when no
  line before the last message is invalid UTF-8 and the classifier gives every message back.
* `StrayByte.reader_stops` — one stray byte ends the session.
-/

namespace AgentProtocols.MCP.StdioFraming

open Json Lib List
open AgentProtocols.Lib.Utf8 (encode fromUtf8? fromUtf8?_encode)
open MCP.MessageClassification

/-- `serde_json`: the compact text of a value holds no control characters. -/
structure SerdeJson where
  toString : Json → List Char
  fromStr : List Char → Except String Json
  escapes : ∀ v, ∀ c ∈ toString v, 32 ≤ c.toNat
  nonempty : ∀ v, toString v ≠ []

/-! ### Framing -/

section Framing

variable (serde : SerdeJson)

def serializeMessage (m : JsonRpc.Message) : List Char := serde.toString m.toValue

def parseMessage (text : List Char) : Except MessageParseError JsonRpc.Message :=
  match serde.fromStr text with
  | .error e => .error (.invalidJson e)
  | .ok value => classifyMessage value

def lineFeed : UInt8 := 10

def frameMessage (m : JsonRpc.Message) : List UInt8 :=
  encode (serializeMessage serde m) ++ [lineFeed]

/-! ### The reader -/

/-- `next_line`, for a line without its LF: one CR at its end is removed. -/
def nextLine (line : List UInt8) : Option (List Char) :=
  (fromUtf8? line).map fun text => if text.getLast? = some '\r' then text.dropLast else text

/-- What the loop takes from the text of a line. -/
def received (text : List Char) : Option JsonRpc.Message :=
  let line := text.rdropWhile (· = '\r')
  if line.isEmpty then none else (parseMessage serde line).toOption

def isResponse : JsonRpc.Message → Bool
  | .response _ => true
  | _ => false

/-- The loop of `spawn_reader`, the messages for tasks, and those that were handed over. -/
structure Reader where
  lines : List (List UInt8)
  spawned : List JsonRpc.Message := []
  handed : List JsonRpc.Message := []
  reason : Option String := none

namespace Reader

def handOver (r : Reader) (m : JsonRpc.Message) : Reader :=
  if isResponse m then { r with handed := r.handed ++ [m] }
  else { r with spawned := r.spawned ++ [m] }

def turn (r : Reader) : Reader :=
  match r.lines with
  | [] => { r with reason := some "Connection closed by peer" }
  | line :: lines =>
    match nextLine line with
    | none => { r with
        lines
        reason := some "Read error: stream did not contain valid UTF-8" }
    | some text =>
      match received serde text with
      | none => { r with lines }
      | some m => handOver { r with lines } m

/-- What runs next: the loop, or the task of a message. -/
inductive Label where
  | turn
  | run (i : Nat)

def step (r : Reader) : Label → Option Reader
  | .turn => if r.reason.isNone then some (r.turn serde) else none
  | .run i => r.spawned[i]?.map fun m =>
    { r with spawned := r.spawned.eraseIdx i, handed := r.handed ++ [m] }

def start (stream : List UInt8) : Reader where
  lines :=
    let (lines, rest) := splitLines lineFeed stream
    if rest = [] then lines else lines ++ [rest]

/-- The loop has ended and every task has run. -/
def Ended (r : Reader) : Prop := r.reason.isSome = true ∧ r.spawned = []

end Reader

/-- The messages of the lines up to the first one that is not UTF-8. -/
def delivered : List (List UInt8) → List JsonRpc.Message
  | [] => []
  | line :: lines =>
    match nextLine line with
    | none => []
    | some text => (received serde text).toList ++ delivered lines

end Framing

/-! ### Complete runs -/

namespace Reader

variable {serde : SerdeJson} {r r' : Reader} {l : Label} {all : List JsonRpc.Message}

/-- What the loop is still going to take. -/
def coming (serde : SerdeJson) (r : Reader) : List JsonRpc.Message :=
  if r.reason.isNone then delivered serde r.lines else []

/-- Every message has been handed over, is spawned, or is still to come. -/
structure Sound (serde : SerdeJson) (all : List JsonRpc.Message) (r : Reader) : Prop where
  counted : (r.handed ++ r.spawned ++ r.coming serde).Perm all
  inOrder : r.handed.filter isResponse ++ (r.coming serde).filter isResponse = all.filter isResponse
  dispatched : ∀ m ∈ r.spawned, isResponse m = false

variable (sound : r.Sound serde all)

include sound

theorem Sound.ends (none_ : r.coming serde = []) (reason : String) :
    Sound serde all { r with reason := some reason } := by
  refine ⟨?_, ?_, sound.dispatched⟩
  · have counted := sound.counted
    rw [none_] at counted
    exact counted
  · have inOrder := sound.inOrder
    rw [none_] at inOrder
    exact inOrder

theorem Sound.handOver {lines : List (List UInt8)} {m : JsonRpc.Message}
    (next : r.coming serde = m :: delivered serde lines) (open_ : r.reason.isNone = true) :
    Sound serde all (Reader.handOver { r with lines } m) := by
  have counted := sound.counted
  have inOrder := sound.inOrder
  rw [next] at counted inOrder
  have coming_ : ∀ handed spawned,
      coming serde ⟨lines, spawned, handed, r.reason⟩ = delivered serde lines :=
    fun _ _ => if_pos open_
  unfold Reader.handOver
  split
  · rename_i response
    refine ⟨?_, ?_, sound.dispatched⟩
    · rw [coming_]
      refine List.Perm.trans ?_ counted
      simp only [append_assoc, singleton_append]
      exact List.Perm.append_left _ perm_middle.symm
    · rw [coming_, filter_append, filter_cons_of_pos response, append_assoc]
      rw [filter_cons_of_pos response] at inOrder
      exact inOrder
  · rename_i other
    refine ⟨?_, ?_, fun x mem => ?_⟩
    · rw [coming_]
      simpa only [append_assoc, singleton_append] using counted
    · rw [coming_]
      rwa [filter_cons_of_neg other] at inOrder
    · rcases mem_append.mp mem with mem | mem
      · exact sound.dispatched x mem
      · cases mem_singleton.mp mem
        exact Bool.not_eq_true _ ▸ other

theorem Sound.turn (open_ : r.reason.isNone = true) : (r.turn serde).Sound serde all := by
  have next : r.coming serde = delivered serde r.lines := if_pos open_
  unfold Reader.turn
  split
  · rename_i none_
    rw [none_] at next
    exact sound.ends next _
  · rename_i line lines first
    rw [first, delivered] at next
    split
    · rename_i invalid
      rw [invalid] at next
      obtain ⟨counted, inOrder, dispatched⟩ := sound.ends next
        "Read error: stream did not contain valid UTF-8"
      exact ⟨counted, inOrder, dispatched⟩
    · rename_i text valid
      rw [valid] at next
      dsimp only at next
      split
      · rename_i skipped
        rw [skipped] at next
        have same : coming serde { r with lines } = r.coming serde := (if_pos open_).trans next.symm
        exact ⟨same ▸ sound.counted, same ▸ sound.inOrder, sound.dispatched⟩
      · rename_i m taken
        rw [taken] at next
        exact sound.handOver next open_

/-- **Every step keeps the invariant.** -/
theorem Sound.step (step : r.step serde l = some r') : r'.Sound serde all := by
  cases l with
  | turn =>
    simp only [Reader.step, Option.ite_none_right_eq_some, Option.some.injEq] at step
    obtain ⟨open_, rfl⟩ := step
    exact sound.turn open_
  | run i =>
    obtain ⟨m, at_i, rfl⟩ := Option.map_eq_some_iff.mp step
    obtain ⟨bound, rfl⟩ := List.getElem?_eq_some_iff.mp at_i
    refine ⟨?_, ?_, fun x mem => sound.dispatched x (List.mem_of_mem_eraseIdx mem)⟩
    · refine List.Perm.trans (List.Perm.append_right _ ?_) sound.counted
      rw [List.append_assoc]
      exact List.Perm.append_left _ (List.getElem_cons_eraseIdx_perm bound)
    · have other := sound.dispatched _ (List.getElem_mem bound)
      rw [List.filter_append, List.filter_cons_of_neg (by rw [other]; decide), List.filter_nil,
        List.append_nil]
      exact sound.inOrder

omit sound

theorem sound_start (stream : List UInt8) :
    (start stream).Sound serde (delivered serde (start stream).lines) :=
  ⟨List.Perm.refl _, rfl, nofun⟩

theorem handed_of_run {stream : List UInt8} {ls : List Label}
    (run : Run (Steps (step serde)) (start stream) ls r) (ended : r.Ended) :
    r.handed.Perm (delivered serde (start stream).lines) ∧
      r.handed.filter isResponse = (delivered serde (start stream).lines).filter isResponse := by
  have sound := run.invariant (fun _ _ _ sound step => Sound.step sound step) (sound_start stream)
  obtain ⟨reason, closed⟩ := Option.isSome_iff_exists.mp ended.1
  have none_ : r.coming serde = [] := by
    rw [coming, closed]
    rfl
  have counted := sound.counted
  have inOrder := sound.inOrder
  rw [none_] at counted inOrder
  rw [ended.2, append_nil, append_nil] at counted
  rw [filter_nil, append_nil] at inOrder
  exact ⟨counted, inOrder⟩

/-- The steps that are left: a line for the loop, and a task for each message of a line. -/
def left (r : Reader) : Nat :=
  2 * r.lines.length + r.spawned.length + r.reason.isNone.toNat

theorem left_handOver (r : Reader) (m : JsonRpc.Message) : (r.handOver m).left ≤ r.left + 1 := by
  unfold handOver
  split
  · exact Nat.le_succ _
  · simp only [left, length_append, length_singleton]
    omega

theorem turn_left (open_ : r.reason.isNone = true) : (r.turn serde).left < r.left := by
  unfold turn
  split
  · rename_i none_
    simp [left, open_]
  · rename_i line lines first
    have shorter : left { r with lines } + 2 = r.left := by
      simp only [left, first, length_cons]
      omega
    split
    · simp only [left, Option.isNone_some, Bool.toNat_false] at shorter ⊢
      omega
    · split
      · omega
      · have more := left_handOver { r with lines } ‹JsonRpc.Message›
        omega

/-- Every run can be continued to a complete one. -/
theorem exists_ended (r : Reader) : ∃ ls r', Run (Steps (step serde)) r ls r' ∧ r'.Ended := by
  by_cases open_ : r.reason.isNone = true
  · have less := @turn_left serde _ open_
    obtain ⟨ls, r', run, ended⟩ := exists_ended (r.turn serde)
    exact ⟨.turn :: ls, r', .cons (if_pos open_) run, ended⟩
  · have closed : r.reason.isSome = true :=
      Option.isSome_iff_ne_none.mpr fun none_ => open_ (Option.isNone_iff_eq_none.mpr none_)
    match tasks : r.spawned with
    | [] => exact ⟨[], r, .nil r, closed, tasks⟩
    | m :: rest =>
      have step : Steps (step serde) r (.run 0)
          { r with spawned := rest, handed := r.handed ++ [m] } := by
        rw [Steps, Reader.step, tasks]
        rfl
      have less : left { r with spawned := rest, handed := r.handed ++ [m] } < r.left := by
        simp only [left, tasks, length_cons]
        omega
      obtain ⟨ls, r', run, ended⟩ :=
        exists_ended { r with spawned := rest, handed := r.handed ++ [m] }
      exact ⟨.run 0 :: ls, r', .cons step run, ended⟩
termination_by r.left

end Reader

/-! ### What is on the wire -/

section Wire

variable {serde : SerdeJson}

/-- A message that is sent; `serde_json` reads the text of its value back. -/
structure Sent (serde : SerdeJson) where
  message : JsonRpc.Message
  reads : serde.fromStr (serde.toString message.toValue) = .ok message.toValue

/-- A line that the peer process prints, without its LF, and that is not a message. -/
structure Stray (serde : SerdeJson) where
  line : List UInt8
  unended : lineFeed ∉ line
  noMessage : ∀ text, nextLine line = some text → received serde text = none

/-- A frame or a stray line. -/
inductive Written (serde : SerdeJson) where
  | frame (s : Sent serde)
  | stray (s : Stray serde)

namespace Written

def bytes : Written serde → List UInt8
  | frame s => frameMessage serde s.message
  | stray s => s.line ++ [lineFeed]

def message? : Written serde → Option JsonRpc.Message
  | frame s => some s.message
  | stray _ => none

/-- The line, without its LF. -/
def line : Written serde → List UInt8
  | frame s => encode (serializeMessage serde s.message)
  | stray s => s.line

def readable (w : Written serde) : Bool := (fromUtf8? w.line).isSome

theorem bytes_eq (w : Written serde) : w.bytes = w.line ++ [lineFeed] := by
  cases w <;> rfl

theorem unended (w : Written serde) : lineFeed ∉ w.line := by
  cases w with
  | frame s =>
    intro mem
    have char := Utf8.mem_encode_ascii mem (by decide)
    exact absurd (serde.escapes _ _ char) (by decide)
  | stray s => exact s.unended

end Written

open Written

def messages (ws : List (Written serde)) : List JsonRpc.Message := ws.filterMap message?

theorem lines_of_written : ∀ ws : List (Written serde),
    splitLines lineFeed (ws.flatMap bytes) = (ws.map line, [])
  | [] => rfl
  | w :: ws => by
    rw [flatMap_cons, w.bytes_eq, append_assoc, singleton_append,
      splitLines_line w.unended, lines_of_written ws]
    rfl

theorem start_lines (ws : List (Written serde)) :
    (Reader.start (ws.flatMap bytes)).lines = ws.map line := by
  rw [Reader.start, lines_of_written]
  rfl

theorem received_serialize (m : JsonRpc.Message) :
    nextLine (encode (serializeMessage serde m)) = some (serializeMessage serde m) ∧
      received serde (serializeMessage serde m) =
        (parseMessage serde (serializeMessage serde m)).toOption := by
  have visible : ∀ c ∈ serializeMessage serde m, c ≠ '\r' := fun c mem same =>
    absurd (serde.escapes _ c mem) (by rw [same]; decide)
  have last : (serializeMessage serde m).getLast? ≠ some '\r' := fun same =>
    visible _ (mem_of_getLast? same) rfl
  constructor
  · rw [nextLine, fromUtf8?_encode, Option.map_some, if_neg last]
  · have same : (serializeMessage serde m).rdropWhile (· = '\r') = serializeMessage serde m := by
      refine rdropWhile_eq_self_iff.mpr fun some_ => ?_
      simpa using visible _ (getLast_mem some_)
    rw [received, same]
    exact if_neg (by simpa [serializeMessage] using serde.nonempty m.toValue)

theorem parse_serialize (s : Sent serde) :
    parseMessage serde (serializeMessage serde s.message) = classifyMessage s.message.toValue := by
  rw [parseMessage, serializeMessage, s.reads]

/-- What a written line adds: nothing, or what the classifier makes of a frame. -/
theorem delivered_cons (w : Written serde) (lines : List (List UInt8)) :
    delivered serde (w.line :: lines) =
      if w.readable then
        (w.message?.bind fun m => (classifyMessage m.toValue).toOption).toList ++
          delivered serde lines
      else [] := by
  rw [delivered]
  cases w with
  | frame s =>
    obtain ⟨read, taken⟩ := @received_serialize serde s.message
    have readable : (frame s).readable = true := by
      rw [readable, line, fromUtf8?_encode]
      rfl
    rw [line, read, if_pos readable]
    dsimp only
    rw [taken, parse_serialize]
    rfl
  | stray s =>
    cases valid : fromUtf8? s.line with
    | none =>
      have unread : nextLine s.line = none := by rw [nextLine, valid]; rfl
      rw [line, unread, if_neg (by rw [readable, line, valid]; decide)]
    | some text =>
      have read := congrArg (Option.map fun text : List Char =>
        if text.getLast? = some '\r' then text.dropLast else text) valid
      rw [line, if_pos (by rw [readable, line, valid]; rfl)]
      rw [show nextLine s.line = _ from read, Option.map_some]
      dsimp only
      rw [s.noMessage _ read]
      rfl

theorem messages_cons (w : Written serde) (ws : List (Written serde)) :
    messages (w :: ws) = w.message?.toList ++ messages ws := by
  cases w <;> rfl

/-- In every complete run each message is handed over once, responses in order, and nothing
else. -/
def LosesNothing (ws : List (Written serde)) : Prop :=
  ∀ ls r, Run (Steps (Reader.step serde)) (Reader.start (ws.flatMap bytes)) ls r →
    r.Ended → r.handed.Perm (messages ws) ∧
      r.handed.filter isResponse = (messages ws).filter isResponse

/-- Every line before a frame is UTF-8, and the classifier gives every message back. -/
structure Clean (ws : List (Written serde)) : Prop where
  readable : ws.Pairwise fun w w' => w'.message?.isSome = true → w.readable = true
  given : ∀ m ∈ messages ws, GivenBack m

theorem readable_of_message {w : Written serde} (message : w.message?.isSome = true) :
    w.readable = true := by
  cases w with
  | frame s =>
    rw [readable, line, fromUtf8?_encode]
    rfl
  | stray s => cases message

theorem delivered_of_clean : ∀ {ws : List (Written serde)}, Clean ws →
    delivered serde (ws.map line) = messages ws
  | [], _ => rfl
  | w :: ws, clean => by
    obtain ⟨before, readable⟩ := pairwise_cons.mp clean.readable
    have tail : Clean ws := ⟨readable, fun m mem => clean.given m (by
      rw [messages_cons]
      exact mem_append_right _ mem)⟩
    rw [map_cons, delivered_cons, messages_cons]
    by_cases read : w.readable = true
    · rw [if_pos read, delivered_of_clean tail]
      congr 2
      cases message : w.message? with
      | none => rfl
      | some m =>
        have given := clean.given m (by
          rw [messages_cons, message]
          exact mem_cons_self)
        rw [Option.bind_some, (classify_toValue_iff m).mpr given]
        rfl
    · -- no frame follows
      have none_ : w.message? = none := by
        by_contra some_
        exact read (readable_of_message (Option.isSome_iff_ne_none.mpr some_))
      have rest : messages ws = [] := by
        refine filterMap_eq_nil_iff.mpr fun w' mem => ?_
        by_contra some_
        exact read (before w' mem (Option.isSome_iff_ne_none.mpr some_))
      rw [if_neg read, none_, rest]
      rfl

theorem delivered_length : ∀ ws : List (Written serde),
    (delivered serde (ws.map line)).length ≤ (messages ws).length ∧
      ((delivered serde (ws.map line)).length = (messages ws).length →
        ws.Pairwise fun w w' => w'.message?.isSome = true → w.readable = true)
  | [] => ⟨Nat.le_refl _, fun _ => .nil⟩
  | w :: ws => by
    obtain ⟨most, pairwise⟩ := delivered_length ws
    rw [map_cons, delivered_cons, messages_cons, length_append]
    by_cases read : w.readable = true
    · have one : (w.message?.bind fun m => (classifyMessage m.toValue).toOption).toList.length ≤
          w.message?.toList.length := by
        cases w.message? with
        | none => exact Nat.le_refl _
        | some m =>
          cases (classifyMessage m.toValue).toOption <;> simp
      rw [if_pos read, length_append]
      exact ⟨by omega, fun same => pairwise_cons.mpr ⟨fun _ _ _ => read, pairwise (by omega)⟩⟩
    · rw [if_neg read]
      refine ⟨Nat.zero_le _, fun same => pairwise_cons.mpr ⟨fun w' mem some_ => ?_, ?_⟩⟩
      · have rest : messages ws = [] := length_eq_zero_iff.mp (by
          rw [length_nil] at same
          omega)
        rw [filterMap_eq_nil_iff.mp rest w' mem] at some_
        cases some_
      · rw [length_nil] at same
        exact pairwise (by omega)

theorem givenBack_of_delivered : ∀ {ws : List (Written serde)} {m : JsonRpc.Message},
    m ∈ delivered serde (ws.map line) → GivenBack m
  | [], _, mem => by cases mem
  | w :: ws, m, mem => by
    rw [map_cons, delivered_cons] at mem
    split at mem
    · rcases mem_append.mp mem with mem | mem
      · obtain ⟨sent, -, taken⟩ := Option.bind_eq_some_iff.mp (Option.mem_toList.mp mem)
        cases accepted : classifyMessage sent.toValue with
        | error e =>
          rw [accepted] at taken
          cases taken
        | ok m' =>
          rw [accepted] at taken
          cases taken
          exact givenBack_of_classify accepted
      · exact givenBack_of_delivered mem
    · cases mem

/-- **Stdio framing loses nothing exactly when every line before a frame is UTF-8 and every
message is one that the classifier gives back.** -/
theorem loses_nothing_iff (ws : List (Written serde)) : LosesNothing ws ↔ Clean ws := by
  have lines := start_lines ws
  constructor
  · intro holds
    obtain ⟨ls, r, run, ended⟩ := @Reader.exists_ended serde
      (Reader.start (ws.flatMap bytes))
    have handed := (Reader.handed_of_run run ended).1
    rw [lines] at handed
    have same := handed.symm.trans (holds ls r run ended).1
    exact ⟨(delivered_length ws).2 same.length_eq,
      fun m mem => givenBack_of_delivered (same.mem_iff.mpr mem)⟩
  · intro clean ls r run ended
    have handed := Reader.handed_of_run run ended
    rw [lines, delivered_of_clean clean] at handed
    exact handed

end Wire

/-! ### A stray byte -/

namespace StrayByte

def note : JsonRpc.Message := .notification (.new "n" none)

def text : List Char := "\x7b\"jsonrpc\":\"2.0\",\"method\":\"n\"\x7d".toList

/-- Texts as `serde_json` writes and reads them, for the notification. -/
def write (v : Json) : List Char := if v = note.toValue then text else "null".toList

def read (t : List Char) : Except String Json :=
  if t = text then .ok note.toValue else .error "expected value at line 1 column 1"

theorem visible_write (v : Json) : write v ≠ [] ∧ ∀ c ∈ write v, 32 ≤ c.toNat := by
  unfold write
  split <;> exact ⟨by decide, all_iff_forall_prop.mp (by decide)⟩

theorem read_write : read (write note.toValue) = .ok note.toValue := by
  rw [write, if_pos rfl, read, if_pos rfl]

theorem unread : nextLine [0xFF] = none := by decide

def serde : SerdeJson := ⟨write, read, fun v => (visible_write v).2, fun v => (visible_write v).1⟩

def sent : Sent serde := ⟨note, read_write⟩

theorem unended : lineFeed ∉ [(0xFF : UInt8)] := by decide

theorem no_message (text : List Char) (found : nextLine [0xFF] = some text) :
    received serde text = none := by
  cases found

/-- A line of one byte that is never part of a UTF-8 text. -/
def stray : Stray serde := ⟨[0xFF], unended, no_message⟩

/-- The notification after the byte is not handed over. -/
theorem reader_stops :
    messages [.stray stray, .frame sent] = [note] ∧
    delivered serde ([Written.stray stray, .frame sent].map Written.line) = [] ∧
    ¬LosesNothing [.stray stray, .frame sent] := by
  refine ⟨rfl, ?_, fun holds => ?_⟩
  · rfl
  · have readable := ((loses_nothing_iff _).mp holds).readable
    have read := (List.pairwise_cons.mp readable).1 (.frame sent) List.mem_cons_self rfl
    cases read

end StrayByte

end AgentProtocols.MCP.StdioFraming
