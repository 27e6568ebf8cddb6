import AgentProtocols.Json.Decimal
import AgentProtocols.Lib.LineEnds
import AgentProtocols.Lib.Utf8

/-!
Server-sent events: the wire format and the incremental parser. `feedLoop_fresh` says what a chunk
does in terms of whole lines (`Lib.cutEnds`), once the byte order mark has been looked for.
-/

namespace AgentProtocols.JsonRpc

open Lib Json List
open AgentProtocols.Lib.Utf8 (encode fromUtf8Lossy)

/-! ### Events -/

structure SseEvent where
  event : Option String := none
  data : String := ""
  id : Option String := none
  retry : Option UInt64 := none
deriving DecidableEq, Repr

def fieldLine (field : String) (value : List Char) : List Char :=
  field.toList ++ [':', ' '] ++ value ++ ['\n']

/-- The wire format of an event, with the blank line that ends it. -/
def SseEvent.toWire (e : SseEvent) : String :=
  String.ofList (
    (e.event.map fun ev => fieldLine "event" ev.toList).getD [] ++
    (e.id.map fun id => fieldLine "id" id.toList).getD [] ++
    (e.retry.map fun retry => fieldLine "retry" (natText retry.toNat)).getD [] ++
    (e.data.toList.splitOn '\n').flatMap (fieldLine "data") ++
    ['\n'])

/-! ### The fields of the next event -/

/-- What has been read of the next event. -/
structure Pending where
  eventType : Option String := none
  data : List String := []
  id : Option String := none
  retry : Option UInt64 := none
  sawDataField : Bool := false
deriving DecidableEq, Repr

namespace Pending

/-- The event that a blank line ends, when it has data. -/
def dispatch (p : Pending) : Pending × Option SseEvent :=
  if p.sawDataField then
    ({ p with eventType := none, data := [], retry := none, sawDataField := false },
      some {
        event := p.eventType
        data := String.ofList (List.intercalate ['\n'] (p.data.map String.toList))
        id := p.id
        retry := p.retry })
  else ({ p with eventType := none, data := [] }, none)

/-- `strip_prefix(' ')`. -/
def stripSpace : List Char → List Char
  | ' ' :: value => value
  | value => value

/-- The field and the value of a line; a line without a colon is all field. -/
def fieldValue (line : List Char) : String × List Char :=
  match line.dropWhile (· ≠ ':') with
  | [] => (String.ofList line, [])
  | _ :: value => (String.ofList (line.takeWhile (· ≠ ':')), stripSpace value)

def setField (p : Pending) (field : String) (value : List Char) : Pending :=
  if field = "event" then { p with eventType := some (String.ofList value) }
  else if field = "data" then
    { p with data := p.data ++ [String.ofList value], sawDataField := true }
  else if field = "id" then
    if '\x00' ∈ value then p else { p with id := some (String.ofList value) }
  else if field = "retry" then
    match parseU64 value with
    | some ms => { p with retry := some (UInt64.ofNat ms) }
    | none => p
  else p

def processLine (p : Pending) (line : String) : Pending × Option SseEvent :=
  if line.isEmpty then p.dispatch
  else if line.toList.head? = some ':' then (p, none)
  else (p.setField (fieldValue line.toList).1 (fieldValue line.toList).2, none)

/-- Lines processed one after the other. -/
def readLines (p : Pending) : List String → Pending × List SseEvent
  | [] => (p, [])
  | line :: lines =>
    let r := p.processLine line
    let rest := readLines r.1 lines
    (rest.1, r.2.toList ++ rest.2)

theorem readLines_append (p : Pending) (lines more : List String) :
    p.readLines (lines ++ more) = (((p.readLines lines).1.readLines more).1,
        (p.readLines lines).2 ++ ((p.readLines lines).1.readLines more).2) := by
  induction lines generalizing p with
  | nil => rfl
  | cons line lines ih => rw [cons_append, readLines, readLines, ih, append_assoc]

end Pending

/-! ### The parser -/

def lineFeed : UInt8 := 10

def carriageReturn : UInt8 := 13

def byteOrderMark : List UInt8 := [0xEF, 0xBB, 0xBF]

structure SseParser extends Pending where
  buf : List UInt8 := []
  bomChecked : Bool := false
  lastWasCr : Bool := false
deriving DecidableEq, Repr

namespace SseParser

def new : SseParser := {}

/-- The look for a byte order mark; `none` when it takes more bytes. -/
def checkBom (p : SseParser) : Option SseParser :=
  if p.bomChecked then some p
  else if p.buf.length < 3 then
    if p.buf ≠ [] ∧ p.buf.head? ≠ some 0xEF then some { p with bomChecked := true } else none
  else
    some { p with
      bomChecked := true
      buf := if p.buf.take 3 = byteOrderMark then p.buf.drop 3 else p.buf }

/-- A line feed after the carriage return that ended the last line. -/
def skipLineFeed (p : SseParser) : SseParser :=
  if p.lastWasCr then
    { p with
      lastWasCr := false
      buf := if p.buf.head? = some lineFeed then p.buf.tail else p.buf }
  else p

/-- The first line end from `i` on: index, end, and whether it is a CR that ends the buffer. -/
def scan : Nat → List UInt8 → Option (Nat × Nat × Bool)
  | _, [] => none
  | i, b :: rest =>
    if b = lineFeed then some (i, i + 1, false)
    else if b = carriageReturn then
      if rest = [] then some (i, i + 1, true)
      else some (i, if rest.head? = some lineFeed then i + 2 else i + 1, false)
    else scan (i + 1) rest

/-- `next_line`: the next complete line and the number of bytes it takes. -/
def nextLine (p : SseParser) : Option (String × Nat) × SseParser :=
  match p.checkBom with
  | none => (none, p)
  | some p =>
    match scan 0 p.skipLineFeed.buf with
    | none => (none, p.skipLineFeed)
    | some (i, consumed, pendingCr) =>
      (some (fromUtf8Lossy (p.skipLineFeed.buf.take i), consumed),
        if pendingCr then { p.skipLineFeed with lastWasCr := true } else p.skipLineFeed)

def processLine (p : SseParser) (line : String) : SseParser × Option SseEvent :=
  ({ p with toPending := (p.toPending.processLine line).1 }, (p.toPending.processLine line).2)

def dispatch (p : SseParser) : SseParser × Option SseEvent :=
  ({ p with toPending := p.toPending.dispatch.1 }, p.toPending.dispatch.2)

def drain (p : SseParser) (consumed : Nat) : SseParser := { p with buf := p.buf.drop consumed }

/-! ### A line shortens the buffer -/

theorem scan_bounds {text : List UInt8} : ∀ {i j consumed : Nat} {pendingCr : Bool},
    scan i text = some (j, consumed, pendingCr) → 0 < consumed ∧ text ≠ [] := by
  induction text with
  | nil =>
    intro i j consumed pendingCr found
    cases found
  | cons b rest ih =>
    intro i j consumed pendingCr found
    refine ⟨?_, cons_ne_nil b rest⟩
    rw [scan] at found
    split at found
    · cases found
      omega
    · split at found
      · split at found
        · cases found
          omega
        · obtain ⟨_, rfl, _⟩ := found
          split <;> omega
      · exact (ih found).1

variable {p q : SseParser} {buf : List UInt8} {consumed : Nat}

theorem length_checkBom (checked : p.checkBom = some q) : q.buf.length ≤ p.buf.length := by
  unfold checkBom at checked
  split at checked
  · cases checked
    exact Nat.le_refl _
  · split at checked
    · split at checked
      · cases checked
        exact Nat.le_refl _
      · cases checked
    · cases checked
      split
      · rw [length_drop]
        omega
      · exact Nat.le_refl _

theorem length_skipLineFeed (p : SseParser) : p.skipLineFeed.buf.length ≤ p.buf.length := by
  unfold skipLineFeed
  split
  · split
    · rw [length_tail]
      omega
    · exact Nat.le_refl _
  · exact Nat.le_refl _

theorem nextLine_shrinks {line : String} (found : p.nextLine = (some (line, consumed), q)) :
    ((q.processLine line).1.drain consumed).buf.length < p.buf.length := by
  unfold nextLine at found
  split at found
  · cases found
  · rename_i checked isChecked
    split at found
    · cases found
    · rename_i i consumed' pendingCr scanned
      obtain ⟨⟨_, rfl⟩, rfl⟩ := found
      obtain ⟨taken, nonempty⟩ := scan_bounds scanned
      have pos := length_pos_iff.mpr nonempty
      have skipped := length_skipLineFeed checked
      have shorter := length_checkBom isChecked
      cases pendingCr <;>
        simp only [processLine, drain, length_drop, if_true, Bool.false_eq_true, if_false] <;>
        omega

def feedLoop (p : SseParser) : SseParser × List SseEvent :=
  match _found : p.nextLine with
  | (none, q) => (q, [])
  | (some (line, consumed), q) =>
    let rest := feedLoop ((q.processLine line).1.drain consumed)
    (rest.1, (q.processLine line).2.toList ++ rest.2)
termination_by p.buf.length
decreasing_by exact nextLine_shrinks _found

def feed (p : SseParser) (chunk : List UInt8) : SseParser × List SseEvent :=
  feedLoop { p with buf := p.buf ++ chunk }

def finish (p : SseParser) : SseParser × Option SseEvent :=
  if p.buf = [] then p.dispatch
  else
    let q := { p with buf := [] }.processLine (fromUtf8Lossy p.buf)
    match q.2 with
    | some event => (q.1, some event)
    | none => q.1.dispatch

/-- Chunks fed one after the other. -/
def feedAll (p : SseParser) : List (List UInt8) → SseParser × List SseEvent
  | [] => (p, [])
  | chunk :: chunks =>
    let rest := feedAll (p.feed chunk).1 chunks
    (rest.1, (p.feed chunk).2 ++ rest.2)

/-- The events of a stream that arrives in chunks, with the one that `finish` gives. -/
def parseChunks (chunks : List (List UInt8)) : List SseEvent :=
  (new.feedAll chunks).2 ++ (new.feedAll chunks).1.finish.2.toList

def parseAll (text : String) : List SseEvent := parseChunks [encode text.toList]

/-! ### A chunk in terms of lines -/

theorem feedLoop_none (found : p.nextLine = (none, q)) : p.feedLoop = (q, []) := by
  rw [feedLoop]
  split
  · rename_i q' found'
    rw [found] at found'
    cases found'
    rfl
  · rename_i found'
    rw [found] at found'
    cases found'

theorem feedLoop_some {line : String} (found : p.nextLine = (some (line, consumed), q)) :
    p.feedLoop = ((((q.processLine line).1.drain consumed).feedLoop).1,
        (q.processLine line).2.toList ++ (((q.processLine line).1.drain consumed).feedLoop).2) := by
  rw [feedLoop]
  split
  · rename_i found'
    rw [found] at found'
    cases found'
  · rename_i found'
    rw [found] at found'
    cases found'
    rfl

theorem feedLoop_congr (same : p.nextLine = q.nextLine) : p.feedLoop = q.feedLoop := by
  cases found : q.nextLine with
  | mk line q' =>
    cases line with
    | none => rw [feedLoop_none (same.trans found), feedLoop_none found]
    | some line => rw [feedLoop_some (same.trans found), feedLoop_some found]

theorem scan_unended {text : List UInt8} (unended : Unended carriageReturn lineFeed text) :
    ∀ i, scan i text = none := by
  induction text with
  | nil => exact fun _ => rfl
  | cons b rest ih =>
    intro i
    obtain ⟨ne_cr, ne_lf, unended⟩ := unended.tail
    rw [scan, if_neg ne_lf, if_neg ne_cr, ih unended]

theorem scan_line {line : List UInt8} (unended : Unended carriageReturn lineFeed line)
    (tail : List UInt8) : ∀ i, scan i (line ++ tail) = scan (i + line.length) tail := by
  induction line with
  | nil => exact fun _ => rfl
  | cons b rest ih =>
    intro i
    obtain ⟨ne_cr, ne_lf, unended⟩ := unended.tail
    rw [cons_append, scan, if_neg ne_lf, if_neg ne_cr, ih unended, length_cons]
    congr 1
    omega

/-- A parser between two lines that has looked for a byte order mark. -/
def reading (p : Pending) (buf : List UInt8) (lastWasCr : Bool) : SseParser :=
  { toPending := p, buf, bomChecked := true, lastWasCr }

theorem checkBom_reading (p : Pending) (buf : List UInt8) (lastWasCr : Bool) :
    (reading p buf lastWasCr).checkBom = some (reading p buf lastWasCr) := rfl

theorem skipLineFeed_reading (p : Pending) (buf : List UInt8) :
    (reading p buf false).skipLineFeed = reading p buf false := rfl

theorem nextLine_reading {p : Pending} {i : Nat} {pendingCr : Bool}
    (found : scan 0 buf = some (i, consumed, pendingCr)) : (reading p buf false).nextLine =
      (some (fromUtf8Lossy (buf.take i), consumed), reading p buf pendingCr) := by
  unfold nextLine
  rw [checkBom_reading]
  dsimp only
  rw [skipLineFeed_reading, show (reading p buf false).buf = buf from rfl, found]
  cases pendingCr <;> rfl

theorem nextLine_reading_none {p : Pending} (found : scan 0 buf = none) :
    (reading p buf false).nextLine = (none, reading p buf false) := by
  unfold nextLine
  rw [checkBom_reading]
  dsimp only
  rw [skipLineFeed_reading, show (reading p buf false).buf = buf from rfl, found]

theorem nextLine_afterCr (p : Pending) (buf : List UInt8) :
    (reading p buf true).nextLine =
      (reading p (if buf.head? = some lineFeed then buf.tail else buf) false).nextLine := by
  unfold nextLine
  rfl

def linesOf (after : Bool) (text : List UInt8) : List String :=
  (cutEnds carriageReturn lineFeed after text).1.map fromUtf8Lossy

/-- What follows the last line end. -/
def restOf (after : Bool) (text : List UInt8) : List UInt8 :=
  (cutEnds carriageReturn lineFeed after text).2

theorem cutEnds_skip (buf : List UInt8) :
    cutEnds carriageReturn lineFeed false (if buf.head? = some lineFeed then buf.tail else buf) =
      cutEnds carriageReturn lineFeed true buf := by
  split
  · rename_i head
    cases buf with
    | nil => rfl
    | cons b rest =>
      cases head
      exact (cutEnds_true_lf rest).symm
  · rename_i head
    exact (cutEnds_after true head).symm

theorem carriageReturn_ne : carriageReturn ≠ lineFeed := by decide

theorem feedLoop_line {p : Pending} {line tail : List UInt8} {stop : UInt8} {pendingCr : Bool}
    (found : scan 0 (line ++ stop :: tail) = some (line.length, consumed, pendingCr))
    (left : (line ++ stop :: tail).drop consumed = buf) :
    (reading p (line ++ stop :: tail) false).feedLoop =
      ((reading (p.processLine (fromUtf8Lossy line)).1 buf pendingCr).feedLoop.1,
        (p.processLine (fromUtf8Lossy line)).2.toList ++
          (reading (p.processLine (fromUtf8Lossy line)).1 buf pendingCr).feedLoop.2) := by
  have next := nextLine_reading (p := p) found
  rw [take_left] at next
  rw [feedLoop_some next]
  have drained : ((reading p (line ++ stop :: tail) pendingCr).processLine
      (fromUtf8Lossy line)).1.drain consumed =
      reading (p.processLine (fromUtf8Lossy line)).1 buf pendingCr := by
    rw [← left]
    rfl
  rw [drained]
  rfl

theorem feedLoop_reading (p : Pending) (buf : List UInt8) :
    (reading p buf false).feedLoop =
      (reading (p.readLines (linesOf false buf)).1 (restOf false buf) false,
        (p.readLines (linesOf false buf)).2) := by
  induction size : buf.length using Nat.strong_induction_on generalizing p buf with
  | _ n ih =>
    rcases unended_or_line carriageReturn lineFeed buf with
      unended | ⟨line, stop, tail, unended, stops, rfl⟩
    · rw [feedLoop_none (nextLine_reading_none (scan_unended unended 0)), linesOf, restOf,
        cutEnds_of_unended unended]
      rfl
    · rw [length_append, length_cons] at size
      have scanned := scan_line unended (stop :: tail) 0
      rw [Nat.zero_add] at scanned
      rcases stops with rfl | rfl
      · have cut : linesOf false (line ++ carriageReturn :: tail) = fromUtf8Lossy line ::
              linesOf false (if tail.head? = some lineFeed then tail.tail else tail) ∧
            restOf false (line ++ carriageReturn :: tail) =
              restOf false (if tail.head? = some lineFeed then tail.tail else tail) := by
          rw [linesOf, linesOf, restOf, restOf, cutEnds_line_cr carriageReturn_ne unended,
            cutEnds_skip]
          exact ⟨rfl, rfl⟩
        have shorter : (if tail.head? = some lineFeed then tail.tail else tail).length < n := by
          split
          · rw [length_tail]
            omega
          · omega
        rw [cut.1, cut.2]
        rw [scan] at scanned
        by_cases last : tail = []
        · subst last
          rw [feedLoop_line scanned (drop_eq_nil_of_le (by simp)),
            feedLoop_congr (nextLine_afterCr _ []), ih _ shorter _ _ rfl]
          rfl
        · rw [if_neg last] at scanned
          have left : (line ++ carriageReturn :: tail).drop
              (if tail.head? = some lineFeed then line.length + 2 else line.length + 1) =
              if tail.head? = some lineFeed then tail.tail else tail := by
            split
            · simp
            · simp
          rw [feedLoop_line scanned left, ih _ shorter _ _ rfl]
          rfl
      · have left : (line ++ lineFeed :: tail).drop (line.length + 1) = tail := by
          simp
        rw [feedLoop_line scanned left, ih _ (by omega) _ _ rfl, linesOf, linesOf, restOf, restOf,
          cutEnds_line_lf unended]
        rfl

/-! ### The first bytes -/

/-- Whether the stream may still start with a byte order mark. -/
def waiting (bytes : List UInt8) : Bool :=
  bytes.length < 3 && (bytes.head? == none || bytes.head? == some 0xEF)

def stripBom (bytes : List UInt8) : List UInt8 :=
  if bytes.take 3 = byteOrderMark then bytes.drop 3 else bytes

theorem waiting_iff {bytes : List UInt8} :
    waiting bytes = true ↔ bytes.length < 3 ∧ ¬ (bytes ≠ [] ∧ bytes.head? ≠ some 0xEF) := by
  cases bytes with
  | nil => simp [waiting]
  | cons b rest => simp [waiting]

/-- A parser that has not looked for a byte order mark yet. -/
def starting (buf : List UInt8) : SseParser := { buf }

theorem checkBom_starting (bytes : List UInt8) :
    (starting bytes).checkBom =
      if waiting bytes then none else some (reading {} (stripBom bytes) false) := by
  have unfolded : (starting bytes).checkBom =
      if bytes.length < 3 then
        if bytes ≠ [] ∧ bytes.head? ≠ some 0xEF then some (reading {} bytes false) else none
      else some (reading {} (stripBom bytes) false) := rfl
  rw [unfolded]
  by_cases short : bytes.length < 3
  · have whole : stripBom bytes = bytes := by
      refine if_neg fun mark => ?_
      have length := congrArg length mark
      rw [length_take] at length
      simp only [byteOrderMark, length_cons] at length
      omega
    rw [whole, if_pos short]
    by_cases starts : bytes ≠ [] ∧ bytes.head? ≠ some 0xEF
    · rw [if_pos starts, if_neg fun waits => (waiting_iff.mp waits).2 starts]
    · rw [if_neg starts, if_pos (waiting_iff.mpr ⟨short, starts⟩)]
  · rw [if_neg short, if_neg fun waits => short (waiting_iff.mp waits).1]

theorem feedLoop_starting (bytes : List UInt8) :
    (starting bytes).feedLoop =
      if waiting bytes then (starting bytes, [])
      else
        (reading (Pending.readLines {} (linesOf false (stripBom bytes))).1
            (restOf false (stripBom bytes)) false,
          (Pending.readLines {} (linesOf false (stripBom bytes))).2) := by
  have checked := checkBom_starting bytes
  split
  · rename_i waits
    rw [if_pos waits] at checked
    apply feedLoop_none
    unfold nextLine
    rw [checked]
  · rename_i decided
    rw [if_neg decided] at checked
    rw [← feedLoop_reading]
    apply feedLoop_congr
    unfold nextLine
    rw [checked, checkBom_reading]

theorem parseChunks_single {bytes : List UInt8} (decided : waiting bytes = false) :
    parseChunks [bytes] = (Pending.readLines {} (linesOf false (stripBom bytes))).2 ++
        (reading (Pending.readLines {} (linesOf false (stripBom bytes))).1
          (restOf false (stripBom bytes)) false).finish.2.toList := by
  have fed : new.feed bytes = (starting bytes).feedLoop := rfl
  rw [feedLoop_starting, decided, if_neg Bool.false_ne_true] at fed
  simp only [parseChunks, feedAll, fed, append_nil]

end SseParser

end AgentProtocols.JsonRpc
