import AgentProtocols.JsonRpc.Sse

/-!
A stream that arrives in chunks. The parser forgets that a line ended with a carriage return:
`parseChunks_eq` makes this exact, and where no chunk starts inside a CRLF pair (`Uncut`) the stream
is read as it is (`uncut_parses_alike`).
-/

namespace AgentProtocols.JsonRpc.SseParser

open Lib List
open AgentProtocols.Lib.Utf8 (encode fromUtf8Lossy)

/-- A chunk that starts with the line feed of a CRLF pair, after a first byte. -/
def CutsLineEnd (before chunk : List UInt8) : Prop :=
  before.getLast? = some carriageReturn ∧ chunk.head? = some lineFeed ∧ waiting before = false

instance (before chunk : List UInt8) : Decidable (CutsLineEnd before chunk) :=
  inferInstanceAs (Decidable (_ ∧ _ ∧ _))

/-- No chunk starts inside a CRLF pair. -/
def Uncut (before : List UInt8) : List (List UInt8) → Prop
  | [] => True
  | chunk :: chunks => ¬ CutsLineEnd before chunk ∧ Uncut (before ++ chunk) chunks

instance decidableUncut : ∀ before chunks, Decidable (Uncut before chunks)
  | _, [] => inferInstanceAs (Decidable True)
  | before, chunk :: chunks =>
    have := decidableUncut (before ++ chunk) chunks
    inferInstanceAs (Decidable (_ ∧ _))

/-- A chunk as the parser reads it after the bytes before it. -/
def asRead (before chunk : List UInt8) : List UInt8 :=
  if CutsLineEnd before chunk then lineFeed :: chunk else chunk

/-- A stream as the parser reads it: a line feed more in every CRLF pair that a
chunk cuts. -/
def streamRead (before : List UInt8) : List (List UInt8) → List UInt8
  | [] => before
  | chunk :: chunks => streamRead (before ++ asRead before chunk) chunks

/-! ### The first bytes, extended -/

variable {before : List UInt8}

theorem waiting_append (decided : waiting before = false)
    (more : List UInt8) : waiting (before ++ more) = false := by
  rw [← Bool.not_eq_true, waiting_iff] at decided ⊢
  rintro ⟨short, starts⟩
  rw [length_append] at short
  refine decided ⟨by omega, fun ⟨nonempty, other⟩ => starts ⟨?_, ?_⟩⟩
  · exact append_ne_nil_of_left_ne_nil nonempty more
  · rwa [head?_append_of_ne_nil _ nonempty]

theorem take_append_eq (decided : waiting before = false) (more : List UInt8) :
    (before ++ more).take 3 = byteOrderMark ↔ before.take 3 = byteOrderMark := by
  by_cases long : 3 ≤ before.length
  · rw [take_append_of_le_length long]
  · -- fewer bytes than the mark, and the first one is another
    have starts : before ≠ [] ∧ before.head? ≠ some 0xEF := by
      by_contra not_starts
      have waits := waiting_iff.mpr ⟨Nat.lt_of_not_le long, not_starts⟩
      rw [decided] at waits
      cases waits
    obtain ⟨nonempty, other⟩ := starts
    have differs : ∀ bytes : List UInt8, bytes.head? ≠ some 0xEF → bytes.take 3 ≠ byteOrderMark := by
      intro bytes other mark
      cases bytes with
      | nil => cases mark
      | cons b rest =>
        rw [take_succ_cons, byteOrderMark, cons.injEq] at mark
        exact other (by rw [mark.1]; rfl)
    exact iff_of_false
      (differs _ (by rwa [head?_append_of_ne_nil _ nonempty])) (differs _ other)

theorem stripBom_append (decided : waiting before = false)
    (more : List UInt8) : stripBom (before ++ more) = stripBom before ++ more := by
  unfold stripBom
  by_cases mark : before.take 3 = byteOrderMark
  · have long : 3 ≤ before.length := by
      have length := congrArg length mark
      rw [length_take] at length
      simp only [byteOrderMark, length_cons] at length
      omega
    rw [if_pos mark, if_pos ((take_append_eq decided more).mpr mark),
      drop_append_of_le_length long]
  · rw [if_neg mark, if_neg fun both => mark ((take_append_eq decided more).mp both)]

theorem endsCr_stripBom (bytes : List UInt8) :
    endsCr carriageReturn false (stripBom bytes) = true ↔ bytes.getLast? = some carriageReturn := by
  have ends_iff : ∀ text : List UInt8, endsCr carriageReturn false text = true ↔
      text.getLast? = some carriageReturn := by
    intro text
    unfold endsCr
    split
    · rename_i none_
      rw [none_]
      exact iff_of_false Bool.false_ne_true (Option.some_ne_none _).symm
    · rename_i c last
      rw [last, decide_eq_true_eq, Option.some.injEq]
  rw [ends_iff]
  unfold stripBom
  split
  · rename_i mark
    have parts : bytes = byteOrderMark ++ bytes.drop 3 := by
      rw [← mark, take_append_drop]
    cases rest : bytes.drop 3 with
    | nil =>
      rw [parts, rest]
      decide
    | cons b tail =>
      rw [parts, rest]
      rfl
  · rfl

/-! ### One chunk more -/

theorem cutEnds_asRead (text chunk : List UInt8) (cut : Bool)
    (isCut : cut = true ↔ endsCr carriageReturn false text = true ∧ chunk.head? = some lineFeed) :
    cutEnds carriageReturn lineFeed false (text ++ if cut then lineFeed :: chunk else chunk) =
      ((cutEnds carriageReturn lineFeed false text).1 ++
          (cutEnds carriageReturn lineFeed false (restOf false text ++ chunk)).1,
        (cutEnds carriageReturn lineFeed false (restOf false text ++ chunk)).2) := by
  cases cut with
  | true =>
    obtain ⟨ends, head⟩ := isCut.mp rfl
    rw [if_pos rfl, cutEnds_cut carriageReturn_ne ends, restOf,
      cutEnds_rest_of_endsCr carriageReturn_ne text ends, nil_append]
  | false =>
    rw [if_neg Bool.false_ne_true, cutEnds_append carriageReturn_ne, restOf]
    cases ends : endsCr carriageReturn false text with
    | false => rfl
    | true =>
      have head : chunk.head? ≠ some lineFeed :=
        fun head => Bool.noConfusion (isCut.mpr ⟨ends, head⟩)
      rw [cutEnds_rest_of_endsCr carriageReturn_ne text ends, nil_append,
        cutEnds_after true head]

theorem feed_feed (before chunk : List UInt8) :
    new.feed (before ++ asRead before chunk) = (((new.feed before).1.feed chunk).1,
        (new.feed before).2 ++ ((new.feed before).1.feed chunk).2) := by
  have whole : ∀ bytes, new.feed bytes = (starting bytes).feedLoop := fun _ => rfl
  rw [whole, whole, feedLoop_starting before]
  cases waits : waiting before with
  | true =>
    have uncut : ¬ CutsLineEnd before chunk := fun cut => by
      rw [CutsLineEnd, waits] at cut
      exact Bool.noConfusion cut.2.2
    rw [asRead, if_neg uncut]
    rfl
  | false =>
    have decided := waiting_append waits (asRead before chunk)
    rw [if_neg Bool.false_ne_true, feedLoop_starting, if_neg (by rw [decided]; decide),
      stripBom_append waits]
    have isCut : decide (CutsLineEnd before chunk) = true ↔
        endsCr carriageReturn false (stripBom before) = true ∧ chunk.head? = some lineFeed := by
      rw [decide_eq_true_eq, endsCr_stripBom]
      exact ⟨fun cut => ⟨cut.1, cut.2.1⟩, fun ends => ⟨ends.1, ends.2, waits⟩⟩
    have cut := cutEnds_asRead (stripBom before) chunk _ isCut
    have sameRead : asRead before chunk =
        if decide (CutsLineEnd before chunk) = true then lineFeed :: chunk else chunk := by
      simp only [asRead, decide_eq_true_eq]
    rw [← sameRead] at cut
    have lines : linesOf false (stripBom before ++ asRead before chunk) =
        linesOf false (stripBom before) ++
          linesOf false (restOf false (stripBom before) ++ chunk) := by
      rw [linesOf, cut, map_append]
      rfl
    have rest : restOf false (stripBom before ++ asRead before chunk) =
        restOf false (restOf false (stripBom before) ++ chunk) := by
      rw [restOf, cut]
      rfl
    have fed : ∀ p : Pending, (reading p (restOf false (stripBom before)) false).feed chunk =
        (reading p (restOf false (stripBom before) ++ chunk) false).feedLoop := fun _ => rfl
    rw [fed, feedLoop_reading, lines, rest, Pending.readLines_append]

/-! ### Whole streams -/

theorem feedAll_eq (before : List UInt8) (chunks : List (List UInt8)) :
    new.feed (streamRead before chunks) = (((new.feed before).1.feedAll chunks).1,
        (new.feed before).2 ++ ((new.feed before).1.feedAll chunks).2) := by
  induction chunks generalizing before with
  | nil =>
    rw [streamRead, feedAll, append_nil]
  | cons chunk chunks ih =>
    rw [streamRead, ih, feed_feed, feedAll, append_assoc]

/-- A stream in chunks gives the events of one text: the stream as the parser
reads it. -/
theorem parseChunks_eq (chunks : List (List UInt8)) :
    parseChunks chunks = parseChunks [streamRead [] chunks] := by
  have all := feedAll_eq [] chunks
  have start : new.feed [] = (new, []) := by
    rw [show new.feed [] = (starting []).feedLoop from rfl, feedLoop_starting]
    rfl
  rw [start, nil_append] at all
  unfold parseChunks
  simp only [feedAll, all, append_nil]

theorem streamRead_of_uncut {chunks : List (List UInt8)}
    (uncut : Uncut before chunks) : streamRead before chunks = before ++ chunks.flatten := by
  induction chunks generalizing before with
  | nil => rw [streamRead, flatten_nil, append_nil]
  | cons chunk chunks ih =>
    rw [streamRead, asRead, if_neg uncut.1, ih uncut.2, flatten_cons, append_assoc]

/-- Where no chunk starts inside a CRLF pair the events do not depend on the
chunks. -/
theorem uncut_parses_alike (chunks : List (List UInt8)) (uncut : Uncut [] chunks) :
    parseChunks chunks = parseChunks [chunks.flatten] := by
  rw [parseChunks_eq, streamRead_of_uncut uncut, List.nil_append]

/-- Chunks that start at field names, between line ends and inside a character. -/
theorem uncut_stream_parses_alike :
    parseChunks [[0xEF], [0xBB, 0xBF, 0x64], encode "ata: ".toList, [0xC3], [0xA9, 0x0D, 0x0A],
        [], [0x0D], [0x0D, 0x0A]] =
      parseChunks [[[0xEF], [0xBB, 0xBF, 0x64], encode "ata: ".toList, [0xC3], [0xA9, 0x0D, 0x0A],
        [], [0x0D], [0x0D, 0x0A]].flatten] :=
  uncut_parses_alike _ (by decide)

/-- A chunk inside a CRLF pair ends the first event too early. -/
theorem cut_line_end :
    parseChunks [encode "data: a\r".toList, encode "\ndata: b\r\n\r\n".toList] =
        [{ data := "a" }, { data := "b" }] ∧
      parseChunks [[encode "data: a\r".toList, encode "\ndata: b\r\n\r\n".toList].flatten] =
        [{ data := "a\nb" }] := by
  constructor
  · decide +kernel
  · decide +kernel

end AgentProtocols.JsonRpc.SseParser
