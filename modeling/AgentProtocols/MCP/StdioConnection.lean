import AgentProtocols.Lib.Lines
import AgentProtocols.Lib.Runs
import Mathlib.Data.List.Induction

/-!
The stdio transport of the C++ SDK: two `StdioConnection`s joined by a pipe.

* `wire_lines` — the lines on the pipe are the messages sent, up to empty lines.
* `processReceivedData_cut` — the unfinished line stays in both buffers, so a later read finds it
  twice.
* `round_trip_iff` — when the messages received are the non-empty ones sent.
-/

namespace AgentProtocols.MCP.Stdio

open Lib List

abbrev Bytes := List UInt8

def LF : UInt8 := 10

def CR : UInt8 := 13

def defaultRecvBuffSize : Nat := 4096

/-- The result of one `write`: bytes accepted, `EINTR`, `EAGAIN`, or another error. -/
inductive WriteResult where
  | wrote (n : Nat)
  | eintr
  | eagain
  | error
deriving DecidableEq

/-- The fields that are used; `writeEvent` is `writeEventId_ >= 0`. -/
structure StdioConnection where
  connected : Bool := true
  writeQueue : List Bytes := []
  writeEvent : Bool := false
  readBuffer : Bytes := []
  messageBuffer : Bytes := []
deriving DecidableEq

namespace StdioConnection

variable {c : StdioConnection}

/-! ### Writing -/

def frameMessage (message : Bytes) : Bytes := message ++ [LF]

def sendMessage (c : StdioConnection) (data : Bytes) : StdioConnection :=
  if c.connected then { c with writeQueue := c.writeQueue ++ [data], writeEvent := true } else c

/-- The loop of `Write`: success, the bytes accepted, and the later results. -/
def writeLoop (count : Nat) : Nat → List WriteResult → Bool × Nat × List WriteResult
  | total, [] => (true, total, [])
  | total, r :: rs =>
    if total < count then
      match r with
      | .eintr => writeLoop count total rs
      | .eagain => (true, total, rs)
      | .error => (false, total, rs)
      | .wrote n => writeLoop count (total + min n (count - total)) rs
    else (true, total, r :: rs)

/-- `SendQueuedMessages`: the queue that is left and the bytes written. -/
def sendQueuedMessages : List Bytes → List WriteResult → List Bytes × Bytes
  | [], _ => ([], [])
  | message :: queue, rs =>
    let framed := frameMessage message
    match writeLoop framed.length 0 rs with
    | (false, n, _) => (message :: queue, framed.take n)
    | (true, n, rs) =>
      if n < framed.length then (framed.drop n :: queue, framed.take n)
      else
        let (queue, bytes) := sendQueuedMessages queue rs
        (queue, framed ++ bytes)

/-- `HandleStdoutWritable`, with the results of its write calls. -/
def handleStdoutWritable (c : StdioConnection) (rs : List WriteResult) : StdioConnection × Bytes :=
  let (queue, bytes) := sendQueuedMessages c.writeQueue rs
  ({ c with writeQueue := queue, writeEvent := !queue.isEmpty }, bytes)

/-! ### Reading -/

/-- A line without a trailing CR. -/
def stripCR (line : Bytes) : Bytes :=
  if line.getLast? = some CR then line.dropLast else line

/-- `ExtractLinesFromBuffer`: the messages and what is left in the buffer. -/
def extractLinesFromBuffer (buffer : Bytes) : List Bytes × Bytes :=
  (((splitLines LF buffer).1.map stripCR).filter (· ≠ []), (splitLines LF buffer).2)

def processReceivedMessages (c : StdioConnection) (data : Bytes) : StdioConnection × List Bytes :=
  let (messages, rest) := extractLinesFromBuffer (c.messageBuffer ++ data)
  ({ c with messageBuffer := rest }, messages)

/-- `ProcessReceivedData`, with the calls of the message callback. -/
def processReceivedData (c : StdioConnection) : StdioConnection × List Bytes :=
  let (c, messages) := c.processReceivedMessages c.readBuffer
  ({ c with readBuffer := c.messageBuffer }, messages)

/-- `HandleStdinReadable` when the read brought `data`. -/
def handleStdinReadable (c : StdioConnection) (data : Bytes) : StdioConnection × List Bytes :=
  processReceivedData { c with readBuffer := c.readBuffer ++ data }

end StdioConnection

/-! ### Two connections and the pipe between them -/

/-- The two connections and the bytes on their way, with what was sent and read. -/
structure Link where
  sender : StdioConnection := {}
  pipe : Bytes := []
  receiver : StdioConnection := {}
  received : List Bytes := []
  sent : List Bytes := []
  reads : List Bytes := []
deriving DecidableEq

inductive Label where
  | send (message : Bytes)
  | writable (results : List WriteResult)
  | readable (n : Nat)
deriving DecidableEq

namespace Link

/-- A read returns what fits in the buffer, or `EAGAIN` without bytes on the pipe. -/
def step (s : Link) : Label → Option Link
  | .send message =>
    some { s with sender := s.sender.sendMessage message, sent := s.sent ++ [message] }
  | .writable results =>
    if s.sender.writeEvent then
      let (sender, bytes) := s.sender.handleStdoutWritable results
      some { s with sender := sender, pipe := s.pipe ++ bytes }
    else none
  | .readable n =>
    if s.pipe = [] then some s
    else
      let size := min (max n 1) defaultRecvBuffSize
      let data := s.pipe.take size
      let (receiver, messages) := s.receiver.handleStdinReadable data
      some { s with
        pipe := s.pipe.drop size
        receiver := receiver
        received := s.received ++ messages
        reads := s.reads ++ [data] }

end Link

/-! ### What is on the pipe -/

section Wire

open StdioConnection

/-- The non-empty lines of a text. -/
def lines (text : Bytes) : List Bytes := (splitLines LF text).1.filter (· ≠ [])

def Ended (text : Bytes) : Prop := (splitLines LF text).2 = []

theorem lines_append {text : Bytes} (ended : Ended text) (more : Bytes) :
    lines (text ++ more) = lines text ++ lines more := by
  rw [lines, splitLines_append, ended, filter_append]
  rfl

theorem ended_append {text : Bytes} (ended : Ended text) (more : Bytes) :
    Ended (text ++ more) ↔ Ended more := by
  rw [Ended, splitLines_append, ended]
  rfl

theorem ended_frameMessage (text message : Bytes) : Ended (text ++ frameMessage message) := by
  rw [frameMessage, ← append_assoc, Ended, splitLines_append]
  have rest := not_mem_splitLines_rest LF (text ++ message)
  rw [splitLines_line rest]
  rfl

theorem lines_frameMessage {message : Bytes} (absent : LF ∉ message) :
    lines (frameMessage message) = [message].filter (· ≠ []) := by
  rw [lines, frameMessage, splitLines_line absent]
  rfl

theorem lines_LF (text : Bytes) : lines (LF :: text) = lines text := by
  rfl

theorem ended_LF (text : Bytes) : Ended (LF :: text) ↔ Ended text := by
  rfl

/-- The queue as it is going to be written. -/
def frames (queue : List Bytes) : Bytes := (queue.map frameMessage).flatten

theorem frames_cons (message : Bytes) (queue : List Bytes) :
    frames (message :: queue) = frameMessage message ++ frames queue := rfl

theorem writeLoop_ok (count : Nat) : ∀ {rs : List WriteResult} (total : Nat), .error ∉ rs →
    (writeLoop count total rs).1 = true ∧ .error ∉ (writeLoop count total rs).2.2
  | [], total, _ => ⟨rfl, not_mem_nil⟩
  | r :: rs, total, clean => by
    have clean' : WriteResult.error ∉ rs := fun mem => clean (mem_cons_of_mem _ mem)
    by_cases more : total < count
    · cases r with
      | wrote n =>
        simp only [writeLoop, if_pos more]
        exact writeLoop_ok count _ clean'
      | eintr =>
        simp only [writeLoop, if_pos more]
        exact writeLoop_ok count total clean'
      | eagain =>
        simp only [writeLoop, if_pos more]
        exact ⟨trivial, clean'⟩
      | error => exact absurd mem_cons_self clean
    · simp only [writeLoop, if_neg more]
      exact ⟨trivial, clean⟩

theorem frames_tail (before message : Bytes) (queue : List Bytes) (n : Nat) :
    before ++ ((frameMessage message).take n ++ frames ((frameMessage message).drop n :: queue)) =
      (before ++ frameMessage message) ++ LF :: frames queue := by
  have whole := take_append_drop n (frameMessage message)
  calc before ++ ((frameMessage message).take n ++ frames ((frameMessage message).drop n :: queue))
      = before ++ (((frameMessage message).take n ++ (frameMessage message).drop n) ++
          LF :: frames queue) := by
        rw [frames_cons]
        simp only [frameMessage, append_assoc, singleton_append]
    _ = (before ++ frameMessage message) ++ LF :: frames queue := by
        rw [whole, append_assoc]

theorem sendQueuedMessages_lines : ∀ (queue : List Bytes) {rs : List WriteResult} (before : Bytes),
    .error ∉ rs →
      lines (before ++ ((sendQueuedMessages queue rs).2 ++ frames (sendQueuedMessages queue rs).1)) =
          lines (before ++ frames queue) ∧
        (Ended (before ++ ((sendQueuedMessages queue rs).2 ++
            frames (sendQueuedMessages queue rs).1)) ↔ Ended (before ++ frames queue))
  | [], rs, before, _ => ⟨rfl, Iff.rfl⟩
  | message :: queue, rs, before, clean => by
    obtain ⟨succeeds, clean'⟩ := writeLoop_ok (frameMessage message).length 0 clean
    rw [sendQueuedMessages]
    generalize writeLoop (frameMessage message).length 0 rs = w at succeeds clean' ⊢
    obtain ⟨ok, n, rs'⟩ := w
    cases succeeds
    have ended := ended_frameMessage before message
    dsimp only
    split
    · rw [frames_tail, frames_cons, ← append_assoc, lines_append ended, lines_append ended,
        lines_LF, ended_append ended, ended_append ended, ended_LF]
      exact ⟨rfl, Iff.rfl⟩
    · have later := sendQueuedMessages_lines queue (before ++ frameMessage message) clean'
      simpa only [frames_cons, append_assoc] using later

end Wire

/-! ### What the receiver makes of a line that it reads in parts -/

section Reading

open StdioConnection

/-- The unfinished line that the receiver holds: at each read it finds it twice. -/
def grow (parts : List Bytes) : Bytes := parts.foldl (fun held part => held ++ held ++ part) []

theorem grow_concat (parts : List Bytes) (part : Bytes) :
    grow (parts ++ [part]) = grow parts ++ grow parts ++ part := by
  rw [grow, foldl_append]
  rfl

theorem grow_singleton (part : Bytes) : grow [part] = part := rfl

/-- `ProcessReceivedData` leaves the unfinished line in both buffers. -/
theorem processReceivedData_cut {c : StdioConnection} {parts : List Bytes}
    (read : c.readBuffer = grow parts) (kept : c.messageBuffer = grow parts)
    (absent : LF ∉ grow parts) (data : Bytes) :
    c.handleStdinReadable data = ({ c with
          readBuffer := grow (cutPiece LF parts data).2
          messageBuffer := grow (cutPiece LF parts data).2 },
        ((cutPiece LF parts data).1.map (stripCR ∘ grow)).filter (· ≠ [])) := by
  have twice : LF ∉ grow parts ++ grow parts := fun mem =>
    (mem_append.mp mem).elim absent absent
  have found : splitLines LF (grow parts ++ (grow parts ++ data)) =
      ((cutPiece LF parts data).1.map grow, grow (cutPiece LF parts data).2) := by
    rw [← append_assoc, cutPiece]
    cases first : (splitLines LF data).1 with
    | nil =>
      have none_ : LF ∉ grow parts ++ grow parts ++ data := fun mem =>
        (mem_append.mp mem).elim twice (splitLines_no_line first)
      rw [splitLines_of_not_mem none_, grow_concat]
      rfl
    | cons line lines =>
      rw [splitLines_before twice first]
      refine Prod.ext ?_ ?_
      · simp only [map_cons, map_map, grow_concat]
        congr 1
        exact (map_id _).symm.trans (map_congr_left fun l _ => rfl)
      · by_cases ended : (splitLines LF data).2 = []
        · rw [ended]
          rfl
        · simp only [ended, if_false, grow_singleton]
  simp only [handleStdinReadable, processReceivedData, processReceivedMessages,
    extractLinesFromBuffer, read, kept, found, map_map]

theorem not_mem_grow_cutPiece {parts : List Bytes} (absent : LF ∉ grow parts) (data : Bytes) :
    LF ∉ grow (cutPiece LF parts data).2 := by
  rw [cutPiece]
  cases first : (splitLines LF data).1 with
  | nil =>
    rw [grow_concat]
    simp only [mem_append, not_or]
    exact ⟨⟨absent, absent⟩, splitLines_no_line first⟩
  | cons line lines =>
    dsimp only
    split
    · exact not_mem_nil
    · exact not_mem_splitLines_rest LF data

/-- The message was read in one part, or consists of CRs and was cut after the first. -/
def Whole (line : List Bytes) : Prop :=
  (∃ message, line = [message] ∧ message.getLast? ≠ some CR) ∨
    ∃ n, line = [[CR], List.replicate n CR]

theorem length_le_stripCR (line : Bytes) : line.length ≤ (stripCR line).length + 1 := by
  rw [stripCR]
  split
  · rw [length_dropLast]
    omega
  · omega

theorem length_flatten_le_grow (parts : List Bytes) : parts.flatten.length ≤ (grow parts).length := by
  induction parts using reverseRecOn with
  | nil => exact Nat.le_refl _
  | append_singleton parts part ih =>
    simp only [grow_concat, flatten_append, flatten_singleton, length_append]
    omega

theorem stripCR_eq_self_iff {line : Bytes} : stripCR line = line ↔ line.getLast? ≠ some CR := by
  rw [stripCR]
  constructor
  · intro same ends
    rw [if_pos ends] at same
    have shorter := congrArg length same
    rw [length_dropLast] at shorter
    have empty : line = [] := length_eq_zero_iff.mp (by omega)
    rw [empty] at ends
    cases ends
  · exact fun other => if_neg other

theorem eq_replicate_of_dropLast {x : UInt8} : ∀ {l : Bytes}, (x :: l).dropLast = l →
    l = replicate l.length x
  | [], _ => rfl
  | y :: l, same => by
    rw [dropLast_cons_cons] at same
    obtain ⟨rfl, rest⟩ := cons.inj same
    rw [length_cons, replicate_succ, ← eq_replicate_of_dropLast rest]

theorem held_of_stripCR {parts : List Bytes} {last : Bytes} (some_ : ∀ part ∈ parts, part ≠ [])
    (same : stripCR (grow (parts ++ [last])) = (parts ++ [last]).flatten) :
    parts = [] ∨ ∃ x, parts = [[x]] := by
  have long := length_le_stripCR (grow (parts ++ [last]))
  have held := length_flatten_le_grow parts
  rw [same, grow_concat, flatten_append, flatten_singleton] at long
  simp only [length_append] at long
  have short : parts.flatten.length ≤ 1 := by omega
  match parts, some_, short with
  | [], _, _ => exact .inl rfl
  | part :: rest, some_, short =>
    rw [flatten_cons, length_append] at short
    have first := length_pos_of_ne_nil (some_ part mem_cons_self)
    obtain ⟨x, rfl⟩ := length_eq_one_iff.mp (show part.length = 1 by omega)
    have none_ : rest.flatten = [] := length_eq_zero_iff.mp (by omega)
    cases rest with
    | nil => exact .inr ⟨x, rfl⟩
    | cons q rest =>
      have empty : q = [] := flatten_eq_nil_iff.mp none_ q mem_cons_self
      exact absurd empty (some_ q (by simp))

theorem stripCR_grow_of_empty {line : List Bytes} (parted : Parted line)
    (empty : line.flatten = []) : stripCR (grow line) = [] := by
  obtain ⟨parts, last, rfl, some_⟩ := parted
  have none_ := flatten_eq_nil_iff.mp empty
  have nil : last = [] := none_ last (mem_append_right _ mem_cons_self)
  cases parts with
  | nil =>
    rw [nil]
    rfl
  | cons part parts => exact absurd (none_ part (by simp)) (some_ part mem_cons_self)

theorem stripCR_grow_iff {line : List Bytes} (parted : Parted line) :
    stripCR (grow line) = line.flatten ↔ Whole line := by
  obtain ⟨parts, last, rfl, some_⟩ := parted
  constructor
  · intro same
    rcases held_of_stripCR some_ same with rfl | ⟨x, rfl⟩
    · simp only [nil_append, flatten_singleton] at same
      exact .inl ⟨last, rfl, stripCR_eq_self_iff.mp same⟩
    · -- the doubled byte must be the CR that is removed
      have doubled : stripCR (x :: x :: last) = x :: last := by simpa [grow] using same
      rw [stripCR] at doubled
      split at doubled
      · rename_i ends
        have copies := eq_replicate_of_dropLast (cons.inj doubled).2
        rw [copies, getLast?_cons_cons, ← replicate_succ, getLast?_replicate,
          if_neg (Nat.succ_ne_zero _)] at ends
        cases ends
        exact .inr ⟨last.length, by rw [← copies]; rfl⟩
      · have longer := congrArg length doubled
        simp at longer
  · rintro (⟨message, same, plain⟩ | ⟨n, same⟩)
    · rw [same, flatten_singleton]
      exact stripCR_eq_self_iff.mpr plain
    · rw [same]
      have copies : grow [[CR], replicate n CR] = replicate (n + 2) CR := rfl
      have flat : [[CR], replicate n CR].flatten = replicate (n + 1) CR := by
        simp [replicate_succ]
      rw [copies, flat, stripCR, if_pos (by simp [getLast?_replicate]), dropLast_replicate]
      rfl

end Reading

/-! ### Whole runs -/

namespace Link

open StdioConnection

variable {s s' : Link} {l : Label} {ls : List Label}

/-- Messages have no LF, and a write call accepts bytes or fails with `EINTR` or
`EAGAIN`. -/
def Admitted (_ : Link) : Label → Prop
  | .send message => LF ∉ message
  | .writable results => .error ∉ results
  | .readable _ => True

/-- The bytes written so far. -/
def wire (s : Link) : Bytes := s.reads.flatten ++ s.pipe

def readLines (s : Link) : List (List Bytes) := (cutLines LF [] s.reads).1

/-- The parts of the line that the receiver has not read to its end. -/
def openParts (s : Link) : List Bytes := (cutLines LF [] s.reads).2

/-- What holds of two connections that have only been used with each other. -/
structure Sound (s : Link) : Prop where
  connected : s.sender.connected = true
  /-- what is and is going to be on the pipe: the messages sent, each ended -/
  written : lines (s.wire ++ frames s.sender.writeQueue) = s.sent.filter (· ≠ [])
  ended : Ended (s.wire ++ frames s.sender.writeQueue)
  /-- what is queued is going to be written -/
  enabled : s.sender.writeQueue ≠ [] → s.sender.writeEvent = true
  /-- the unfinished line is in both buffers -/
  readBuffer : s.receiver.readBuffer = grow s.openParts
  messageBuffer : s.receiver.messageBuffer = grow s.openParts
  unfinished : LF ∉ grow s.openParts
  received : s.received = (s.readLines.map (stripCR ∘ grow)).filter (· ≠ [])
  reads : ∀ read ∈ s.reads, read ≠ []

theorem sound_init : ({} : Link).Sound where
  connected := rfl
  written := rfl
  ended := rfl
  enabled absurd_ := absurd rfl absurd_
  readBuffer := rfl
  messageBuffer := rfl
  unfinished := not_mem_nil
  received := rfl
  reads _ mem := absurd mem not_mem_nil

theorem Sound.send (sound : s.Sound) {message : Bytes} (absent : LF ∉ message) :
    ({ s with sender := s.sender.sendMessage message, sent := s.sent ++ [message] } : Link).Sound := by
  have queue : (s.sender.sendMessage message).writeQueue = s.sender.writeQueue ++ [message] := by
    rw [sendMessage, if_pos sound.connected]
  have text : s.wire ++ frames (s.sender.writeQueue ++ [message]) =
      (s.wire ++ frames s.sender.writeQueue) ++ frameMessage message := by
    simp [frames]
  refine { sound with connected := ?_, written := ?_, ended := ?_, enabled := ?_ }
  · rw [sendMessage, if_pos sound.connected]
    exact sound.connected
  · show lines (s.wire ++ frames (s.sender.sendMessage message).writeQueue) = _
    rw [queue, text, lines_append sound.ended, sound.written, lines_frameMessage absent,
      filter_append]
  · show Ended (s.wire ++ frames (s.sender.sendMessage message).writeQueue)
    rw [queue, text]
    exact ended_frameMessage _ _
  · intro _
    rw [sendMessage, if_pos sound.connected]

theorem Sound.writable (sound : s.Sound) {results : List WriteResult} (clean : .error ∉ results) :
    ({ s with
      sender := (s.sender.handleStdoutWritable results).1
      pipe := s.pipe ++ (s.sender.handleStdoutWritable results).2 } : Link).Sound := by
  obtain ⟨same, alike⟩ := sendQueuedMessages_lines s.sender.writeQueue s.wire clean
  have text : ∀ more : Bytes, s.reads.flatten ++ (s.pipe ++
      (sendQueuedMessages s.sender.writeQueue results).2) ++ more =
        s.wire ++ ((sendQueuedMessages s.sender.writeQueue results).2 ++ more) := by
    intro more
    simp only [wire, append_assoc]
  refine { sound with written := ?_, ended := ?_, enabled := ?_ }
  · exact (congrArg lines (text _)).trans (same.trans sound.written)
  · exact (congrArg Ended (text _)).mpr (alike.mpr sound.ended)
  · simp [handleStdoutWritable]

theorem Sound.readable (sound : s.Sound) {data rest : Bytes} (pipe : s.pipe = data ++ rest)
    (some_ : data ≠ []) :
    ({ s with
      pipe := rest
      receiver := (s.receiver.handleStdinReadable data).1
      received := s.received ++ (s.receiver.handleStdinReadable data).2
      reads := s.reads ++ [data] } : Link).Sound := by
  have processed :=
    processReceivedData_cut sound.readBuffer sound.messageBuffer sound.unfinished data
  have cut : cutLines LF [] (s.reads ++ [data]) = _ := cutLines_concat data [] s.reads
  have wire_ : (s.reads ++ [data]).flatten ++ rest = s.wire := by
    rw [wire, pipe]
    simp
  have parts : (cutLines LF [] (s.reads ++ [data])).2 = (cutPiece LF s.openParts data).2 := by
    rw [cut]
    rfl
  have lines_ : (cutLines LF [] (s.reads ++ [data])).1 =
      s.readLines ++ (cutPiece LF s.openParts data).1 := by
    rw [cut]
    rfl
  constructor
  · exact sound.connected
  · exact (congrArg (fun w => lines (w ++ frames s.sender.writeQueue)) wire_).trans sound.written
  · exact (congrArg (fun w => Ended (w ++ frames s.sender.writeQueue)) wire_).mpr sound.ended
  · exact sound.enabled
  · rw [processed]
    exact congrArg grow parts.symm
  · rw [processed]
    exact congrArg grow parts.symm
  · show LF ∉ grow (cutLines LF [] (s.reads ++ [data])).2
    rw [parts]
    exact not_mem_grow_cutPiece sound.unfinished data
  · show s.received ++ _ = ((cutLines LF [] (s.reads ++ [data])).1.map (stripCR ∘ grow)).filter _
    rw [processed, lines_, map_append, filter_append, sound.received]
  · exact forall_mem_concat sound.reads some_

theorem Sound.step (sound : s.Sound) (admitted : s.Admitted l) (stepped : s.step l = some s') :
    s'.Sound := by
  cases l with
  | send message =>
    cases stepped
    exact sound.send admitted
  | writable results =>
    rw [Link.step] at stepped
    split at stepped
    · cases stepped
      exact sound.writable admitted
    · cases stepped
  | readable n =>
    rw [Link.step] at stepped
    split at stepped
    · cases stepped
      exact sound
    · rename_i some_
      cases stepped
      refine sound.readable (take_append_drop _ _).symm ?_
      have first := length_pos_of_ne_nil some_
      apply ne_nil_of_length_pos
      rw [length_take, defaultRecvBuffSize]
      omega

/-- Whatever the write calls return, the lines written are the messages sent. -/
theorem Sound.wire_lines (sound : s.Sound) (written : s.sender.writeQueue = []) :
    lines s.wire = s.sent.filter (· ≠ []) := by
  have all := sound.written
  rw [written, frames, map_nil, flatten_nil, append_nil] at all
  exact all

/-- The callback has been called with the non-empty messages sent exactly if all are whole. -/
theorem round_trip_iff (run : Run (Under Admitted (Steps Link.step)) {} ls s)
    (written : s.sender.writeQueue = []) (read : s.pipe = []) :
    s.received = s.sent.filter (· ≠ []) ↔ ∀ line ∈ s.readLines, Whole line := by
  have sound : s.Sound :=
    run.invariant_under (fun _ _ _ inv admitted stepped => inv.step admitted stepped) sound_init
  have parted : ∀ line ∈ s.readLines, Parted line :=
    parted_of_mem_cutLines (fun part mem => absurd mem List.not_mem_nil) sound.reads
  have flat : (s.readLines.map List.flatten).filter (· ≠ []) = s.sent.filter (· ≠ []) := by
    have cut : splitLines LF (([] : List Bytes).flatten ++ s.reads.flatten) = _ :=
      cutLines_flatten List.not_mem_nil
    have wire_ : s.wire = [] ++ s.reads.flatten := by rw [wire, read, List.append_nil, List.nil_append]
    rw [← sound.wire_lines written, lines, wire_]
    rw [List.flatten_nil] at cut
    rw [cut]
    rfl
  have fewer : ∀ line ∈ s.readLines, line.flatten = [] → (stripCR ∘ grow) line = [] :=
    fun line mem => stripCR_grow_of_empty (parted line mem)
  rw [sound.received, ← flat, filter_map_eq_iff fewer]
  constructor
  · exact fun same line mem => (stripCR_grow_iff (parted line mem)).mp (same line mem)
  · exact fun whole line mem => (stripCR_grow_iff (parted line mem)).mpr (whole line mem)

/-- The message `ab`, written at once and read in one piece. -/
def atOnce : List Label := [.send [97, 98], .writable [.wrote 3], .readable 3]

/-- The same message, read in two pieces. -/
def inPieces : List Label := [.send [97, 98], .writable [.wrote 3], .readable 1, .readable 3]

instance (s : Link) : ∀ l, Decidable (s.Admitted l)
  | .send message => inferInstanceAs (Decidable (LF ∉ message))
  | .writable results => inferInstanceAs (Decidable (WriteResult.error ∉ results))
  | .readable _ => inferInstanceAs (Decidable True)

/-- `link ls` runs the labels. -/
def link (ls : List Label) : Option Link :=
  ls.foldlM (fun s l => if s.Admitted l then s.step l else none) {}

theorem round_trip_at_once : ∃ s, Run (Under Admitted (Steps Link.step)) {} atOnce s ∧
    s.sent = [[97, 98]] ∧ s.received = s.sent.filter (· ≠ []) := by
  have ran : link atOnce = some ((link atOnce).get (by decide)) := (Option.some_get _).symm
  refine ⟨_, run_under_of_foldlM ran, by decide, ?_⟩
  refine (round_trip_iff (run_under_of_foldlM ran) (by decide) (by decide)).mpr ?_
  rintro line (_ | _)
  · exact .inl ⟨[97, 98], rfl, by decide⟩
  · contradiction

/-- Of `ab` read in two pieces, the first piece arrives twice. -/
theorem cut_message_doubled : ∃ s, Run (Under Admitted (Steps Link.step)) {} inPieces s ∧
    s.sender.writeQueue = [] ∧ s.pipe = [] ∧ s.sent = [[97, 98]] ∧ s.received = [[97, 97, 98]] ∧
      s.received ≠ s.sent.filter (· ≠ []) := by
  have ran : link inPieces = some ((link inPieces).get (by decide)) := (Option.some_get _).symm
  exact ⟨_, run_under_of_foldlM ran, by decide, by decide, by decide, by decide, by decide⟩

end Link

end AgentProtocols.MCP.Stdio
