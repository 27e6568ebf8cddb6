import Mathlib.Data.List.Basic

/-!
UTF-8 texts as byte lists: `fromUtf8Lossy_encode` says that an encoded text is read back, and
`mem_encode_ascii` that an ASCII byte of the encoding is a character of the text.
-/

namespace AgentProtocols.Lib.Utf8

open List

def encode (text : List Char) : List UInt8 := text.flatMap String.utf8EncodeChar

/-- `String::from_utf8`. -/
def fromUtf8? (bytes : List UInt8) : Option (List Char) :=
  bytes.toByteArray.utf8Decode?.map Array.toList

/-- The character that the bytes start with. -/
def decodeFirst? (bytes : List UInt8) : Option Char := bytes.toByteArray.utf8DecodeChar? 0

def isContinuation (b : Option UInt8) : Bool :=
  match b with
  | none => false
  | some b => 0x80 ≤ b && b ≤ 0xBF

/-- What may follow the first byte of a character of three or four bytes. -/
def acceptsSecond (first : UInt8) (second : Option UInt8) : Bool :=
  match second with
  | none => false
  | some b =>
    if first = 0xE0 then 0xA0 ≤ b && b ≤ 0xBF
    else if first = 0xED then 0x80 ≤ b && b ≤ 0x9F
    else if first = 0xF0 then 0x90 ≤ b && b ≤ 0xBF
    else if first = 0xF4 then 0x80 ≤ b && b ≤ 0x8F
    else 0x80 ≤ b && b ≤ 0xBF

/-- The number of bytes that one replacement character stands for, at least one. -/
def invalidLength (first : UInt8) (rest : List UInt8) : Nat :=
  if 0xE0 ≤ first && first ≤ 0xEF then
    if acceptsSecond first rest[0]? then 2 else 1
  else if 0xF0 ≤ first && first ≤ 0xF4 then
    if acceptsSecond first rest[0]? then
      if isContinuation rest[1]? then 3 else 2
    else 1
  else 1

/-- The characters of at most `n` steps of the decoder. -/
def lossyChars : Nat → List UInt8 → List Char
  | 0, _ => []
  | _ + 1, [] => []
  | n + 1, first :: rest =>
    match decodeFirst? (first :: rest) with
    | some c => c :: lossyChars n ((first :: rest).drop c.utf8Size)
    | none => '\uFFFD' :: lossyChars n ((first :: rest).drop (invalidLength first rest))

/-- `String::from_utf8_lossy`. A step takes at least one byte. -/
def fromUtf8Lossy (bytes : List UInt8) : String := String.ofList (lossyChars bytes.length bytes)

theorem encode_cons (c : Char) (text : List Char) :
    encode (c :: text) = String.utf8EncodeChar c ++ encode text := flatMap_cons

@[simp] theorem encode_append (text more : List Char) :
    encode (text ++ more) = encode text ++ encode more := flatMap_append

theorem fromUtf8?_encode (text : List Char) : fromUtf8? (encode text) = some text := by
  have decoded : text.utf8Encode.utf8Decode? = some text.toArray := utf8Decode?_utf8Encode
  exact congrArg (Option.map Array.toList) decoded

theorem decodeFirst?_encode (c : Char) (rest : List UInt8) :
    decodeFirst? (String.utf8EncodeChar c ++ rest) = some c := by
  rw [decodeFirst?, toByteArray_append]
  exact ByteArray.utf8DecodeChar?_utf8EncodeChar_append

theorem utf8EncodeChar_ne_nil (c : Char) : String.utf8EncodeChar c ≠ [] := by
  intro empty
  have length := String.length_utf8EncodeChar c
  have pos := c.utf8Size_pos
  rw [empty, length_nil] at length
  omega

theorem lossyChars_encode (text : List Char) :
    ∀ n, (encode text).length ≤ n → lossyChars n (encode text) = text := by
  induction text with
  | nil =>
    intro n _
    cases n <;> rfl
  | cons c text ih =>
    intro n enough
    rw [encode_cons] at enough ⊢
    have decoded := decodeFirst?_encode c (encode text)
    have dropped : (String.utf8EncodeChar c ++ encode text).drop c.utf8Size = encode text := by
      rw [← String.length_utf8EncodeChar, drop_left]
    obtain ⟨first, rest, bytes⟩ :=
      exists_cons_of_ne_nil (append_ne_nil_of_left_ne_nil (utf8EncodeChar_ne_nil c)
        (encode text))
    have length := String.length_utf8EncodeChar c
    have pos := c.utf8Size_pos
    rw [length_append] at enough
    obtain ⟨n, rfl⟩ : ∃ m, n = m + 1 := ⟨n - 1, by omega⟩
    rw [bytes] at decoded dropped ⊢
    rw [lossyChars, decoded]
    dsimp only
    rw [dropped, ih n (by omega)]

/-- The decoder reads an encoded text back. -/
theorem fromUtf8Lossy_encode (text : List Char) :
    fromUtf8Lossy (encode text) = String.ofList text := by
  rw [fromUtf8Lossy, lossyChars_encode text _ (Nat.le_refl _)]

theorem utf8EncodeChar_ascii {c : Char} (ascii : c.toNat < 128) :
    String.utf8EncodeChar c = [UInt8.ofNat c.toNat] := by
  have low : c.val.toNat ≤ 0x7f := Nat.le_of_lt_succ ascii
  rw [String.utf8EncodeChar, if_pos low]
  rfl

theorem mem_utf8EncodeChar_ascii {c : Char} {b : UInt8} (mem : b ∈ String.utf8EncodeChar c)
    (ascii : b.toNat < 128) : c.toNat = b.toNat := by
  by_cases low : c.toNat < 128
  · rw [utf8EncodeChar_ascii low, mem_singleton] at mem
    rw [mem, UInt8.toNat_ofNat', Nat.mod_eq_of_lt (by omega)]
  · -- every byte of a longer encoding is at least 128
    have notLow : ¬ c.val.toNat ≤ 0x7f := fun le => low (Nat.lt_succ_of_le le)
    rw [String.utf8EncodeChar, if_neg notLow] at mem
    have high : ∀ n : Nat, 128 ≤ n → n < 256 → b = UInt8.ofNat n → False := by
      intro n lower upper same
      rw [same, UInt8.toNat_ofNat'] at ascii
      omega
    exfalso
    split at mem
    · rcases mem_cons.mp mem with same | mem
      · exact high _ (by omega) (by omega) same
      · exact high _ (by omega) (by omega) (mem_singleton.mp mem)
    · split at mem
      · rcases mem_cons.mp mem with same | mem
        · exact high _ (by omega) (by omega) same
        · rcases mem_cons.mp mem with same | mem
          · exact high _ (by omega) (by omega) same
          · exact high _ (by omega) (by omega) (mem_singleton.mp mem)
      · rcases mem_cons.mp mem with same | mem
        · exact high _ (by omega) (by omega) same
        · rcases mem_cons.mp mem with same | mem
          · exact high _ (by omega) (by omega) same
          · rcases mem_cons.mp mem with same | mem
            · exact high _ (by omega) (by omega) same
            · exact high _ (by omega) (by omega) (mem_singleton.mp mem)

theorem mem_encode_ascii {text : List Char} {b : UInt8} (mem : b ∈ encode text)
    (ascii : b.toNat < 128) : Char.ofNat b.toNat ∈ text := by
  obtain ⟨c, mem_text, mem_c⟩ := mem_flatMap.mp mem
  rw [← mem_utf8EncodeChar_ascii mem_c ascii, Char.ofNat_toNat]
  exact mem_text

theorem encode_ascii {c : Char} (ascii : c.toNat < 128) (text : List Char) :
    encode (c :: text) = UInt8.ofNat c.toNat :: encode text := by
  rw [encode_cons, utf8EncodeChar_ascii ascii, singleton_append]

end AgentProtocols.Lib.Utf8
