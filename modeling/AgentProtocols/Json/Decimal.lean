import AgentProtocols.Json.Text

/-!
Decimal texts as Rust's standard library reads them: `parseU64_natText` and `parseI64_natText` say
that they read back what `to_string` writes.
-/

namespace AgentProtocols.Json

/-- The value of a nonempty run of digits. -/
def digits? (text : List Char) : Option Nat :=
  if text ≠ [] ∧ text.all Char.isDigit then some (Nat.ofDigitChars 10 text 0) else none

/-- `str::parse::<u64>`. -/
def parseU64 (text : List Char) : Option Nat :=
  match text with
  | '+' :: digits => (digits? digits).filter (· < 2 ^ 64)
  | digits => (digits? digits).filter (· < 2 ^ 64)

/-- `str::parse::<i64>`. -/
def parseI64 (text : List Char) : Option Int :=
  match text with
  | '-' :: digits => ((digits? digits).filter (· ≤ 2 ^ 63)).map fun n => -(n : Int)
  | '+' :: digits => ((digits? digits).filter (· < 2 ^ 63)).map Int.ofNat
  | digits => ((digits? digits).filter (· < 2 ^ 63)).map Int.ofNat

theorem natText_ne_nil (n : Nat) : natText n ≠ [] := Nat.toDigits_ne_nil

theorem digits?_natText (n : Nat) : digits? (natText n) = some n := by
  have digits : (natText n).all Char.isDigit = true :=
    List.all_eq_true.mpr fun _ => isDigit_of_mem_natText
  rw [digits?, if_pos ⟨natText_ne_nil n, digits⟩, natText, Nat.ofDigitChars_ten_toDigits]

theorem natText_ne_cons {n : Nat} {sign : Char} (nondigit : sign.isDigit = false)
    (rest : List Char) : natText n ≠ sign :: rest := by
  intro same
  have digit : sign.isDigit = true := by
    apply @isDigit_of_mem_natText n
    rw [same]
    exact .head _
  rw [nondigit] at digit
  cases digit

theorem parseU64_natText {n : Nat} (bound : n < 2 ^ 64) : parseU64 (natText n) = some n := by
  have read : parseU64 (natText n) = (digits? (natText n)).filter (· < 2 ^ 64) := by
    unfold parseU64
    split
    · rename_i digits same
      exact absurd same (natText_ne_cons rfl digits)
    · rfl
  rw [read, digits?_natText]
  exact Option.filter_some_pos (decide_eq_true bound)

theorem parseI64_natText {n : Nat} (bound : n < 2 ^ 63) :
    parseI64 (natText n) = some (n : Int) := by
  have read : parseI64 (natText n) = ((digits? (natText n)).filter (· < 2 ^ 63)).map Int.ofNat := by
    unfold parseI64
    split
    · rename_i digits same
      exact absurd same (natText_ne_cons rfl digits)
    · rename_i digits same
      exact absurd same (natText_ne_cons rfl digits)
    · rfl
  have kept : (some n).filter (· < 2 ^ 63) = some n :=
    Option.filter_some_pos (decide_eq_true bound)
  rw [read, digits?_natText, kept]
  rfl

end AgentProtocols.Json
