import AgentProtocols.A4P.SigningInput
import Mathlib.Data.ZMod.Defs
import Mathlib.Tactic.NormNum

/-!
The number that the layout of a float denotes.

* `literalValue_floatLayout`: every branch of the layout denotes the digits at their place.
* `pythonFloatRepr_exact`: so the text is exact and tells digits and exponents apart.
-/

namespace AgentProtocols.A4P

open Json Lib List

/-! ### Decimal literals -/

/-- The digits around the point, scaled by the places after it. -/
def mantissaValue (mantissa : List Char) : ℚ :=
  let whole := mantissa.takeWhile (· ≠ '.')
  let fraction := (mantissa.dropWhile (· ≠ '.')).drop 1
  (Nat.ofDigitChars 10 (whole ++ fraction) 0 : ℚ) * 10 ^ (-(fraction.length : ℤ))

/-- The number that an unsigned literal denotes. -/
def literalValue (text : List Char) : ℚ :=
  mantissaValue (text.takeWhile (· ≠ 'e')) * 10 ^ readExponent ((text.dropWhile (· ≠ 'e')).drop 1)

def denotes : List Char → ℚ
  | '-' :: text => -literalValue text
  | text => literalValue text

variable {digits whole fraction : List Char}

theorem mantissaValue_point (clean : ∀ c ∈ whole, c.isDigit = true) :
    mantissaValue (whole ++ '.' :: fraction) =
      (Nat.ofDigitChars 10 (whole ++ fraction) 0 : ℚ) * 10 ^ (-(fraction.length : ℤ)) := by
  obtain ⟨before, after⟩ := span_at (not_mem_of_digits clean (show '.'.isDigit = false from rfl))
    fraction
  rw [mantissaValue, before, after]
  rfl

theorem literalValue_point (clean : ∀ c ∈ whole, c.isDigit = true)
    (clean' : ∀ c ∈ fraction, c.isDigit = true) :
    literalValue (whole ++ '.' :: fraction) =
      (Nat.ofDigitChars 10 (whole ++ fraction) 0 : ℚ) * 10 ^ (-(fraction.length : ℤ)) := by
  have plain : ∀ c ∈ whole ++ '.' :: fraction, decide (c ≠ 'e') = true := by
    intro c mem
    rw [decide_eq_true_eq]
    rintro rfl
    rcases mem_append.mp mem with inside | inside
    · cases clean 'e' inside
    · rcases mem_cons.mp inside with same | inside
      · cases same
      · cases clean' 'e' inside
  rw [literalValue, takeWhile_eq_self_iff.mpr plain, dropWhile_eq_nil_iff.mpr plain,
    mantissaValue_point clean]
  exact mul_one _

/-! ### The branches of the layout -/

variable (sig : Significant digits)

include sig

theorem literalValue_scientific (exp : Int) :
    literalValue (digits.take 1 ++ (if digits.length > 1 then '.' :: digits.drop 1 else []) ++
      'e' :: (if exp < 0 then '-' else '+') :: padTwo exp.natAbs) =
        (Nat.ofDigitChars 10 digits 0 : ℚ) * 10 ^ (exp - digits.length + 1) := by
  obtain ⟨plain, -⟩ := mantissa_digits sig
  obtain ⟨before, after⟩ := span_at plain ((if exp < 0 then '-' else '+') :: padTwo exp.natAbs)
  have exponent : readExponent ((if exp < 0 then '-' else '+') :: padTwo exp.natAbs) = exp := by
    have read := congrArg Prod.snd (readLayout_scientific sig exp)
    rw [readLayout, if_pos (mem_append_right _ (.head _)), after] at read
    exact add_right_cancel read
  have mantissa : mantissaValue
      (digits.take 1 ++ if digits.length > 1 then '.' :: digits.drop 1 else []) =
        (Nat.ofDigitChars 10 digits 0 : ℚ) * 10 ^ (1 - (digits.length : ℤ)) := by
    obtain ⟨digit, ⟨d, ds, rfl, -⟩, -⟩ := sig
    split
    · rw [mantissaValue_point fun c mem => digit c (mem_of_mem_take mem),
        take_append_drop, length_drop]
      congr 2
      simp only [length_cons]
      omega
    · rename_i short
      cases ds with
      | nil =>
        have point : d ≠ '.' := fun same => by
          have is_digit := digit d (.head _)
          rw [same] at is_digit
          cases is_digit
        simp [mantissaValue, point]
      | cons e ds => simp at short
  rw [literalValue, before, after, drop_succ_cons, drop_zero, exponent, mantissa, mul_assoc,
    ← zpow_add₀ (by norm_num)]
  congr 2
  omega

/-- Every branch of the layout denotes the digits at their place. -/
theorem literalValue_floatLayout (decpt : Int) :
    literalValue (floatLayout digits decpt) =
      (Nat.ofDigitChars 10 digits 0 : ℚ) * 10 ^ (decpt - digits.length) := by
  have digit := sig.digit
  have zeros := digit_replicate_zero
  rw [floatLayout]
  split
  · rw [literalValue_scientific sig]
    congr 2
    omega
  · split
    · have clean : ∀ c ∈ replicate (-decpt).toNat '0' ++ digits, c.isDigit = true := by
        intro c mem
        exact (mem_append.mp mem).elim (zeros _ c) (digit c)
      have read := @literalValue_point ['0'] _ (by simp) clean
      rw [singleton_append] at read
      rw [read, singleton_append, ← cons_append, ← replicate_succ,
        Nat.ofDigitChars_append, Nat.ofDigitChars_replicate_zero, Nat.mul_zero, length_append,
        length_replicate]
      congr 2
      omega
    · split
      · have clean : ∀ c ∈ digits ++ replicate (decpt.toNat - digits.length) '0',
            c.isDigit = true := by
          intro c mem
          exact (mem_append.mp mem).elim (digit c) (zeros _ c)
        rw [literalValue_point clean (by simp), append_assoc, Nat.ofDigitChars_append,
          ← replicate_one, ← replicate_add, Nat.ofDigitChars_replicate_zero, Nat.cast_mul,
          Nat.cast_pow, mul_comm ((10 : ℕ) ^ _ : ℚ), mul_assoc, Nat.cast_ofNat, ← zpow_natCast,
          ← zpow_add₀ (by norm_num)]
        congr 2
        simp only [length_replicate]
        omega
      · rw [literalValue_point (fun c mem => digit c (mem_of_mem_take mem))
          (fun c mem => digit c (mem_of_mem_drop mem)), take_append_drop, length_drop]
        congr 2
        omega

theorem exponent_form_iff (decpt : Int) :
    'e' ∈ floatLayout digits decpt ↔ decpt ≤ -4 ∨ 16 < decpt := by
  have plain : 'e' ∉ digits := not_mem_of_digits sig.digit rfl
  rw [floatLayout]
  split
  · rename_i far
    exact iff_of_true (mem_append_right _ (.head _)) far
  · rename_i near
    refine iff_of_false ?_ near
    have zeros : ∀ n, 'e' ∉ replicate n '0' := fun n mem => by
      cases eq_of_mem_replicate mem
    split
    · simp [plain, zeros]
    · split
      · simp [plain, zeros]
      · have before : 'e' ∉ digits.take decpt.toNat := fun mem => plain (mem_of_mem_take mem)
        have after : 'e' ∉ digits.drop decpt.toNat := fun mem => plain (mem_of_mem_drop mem)
        simp [before, after]

omit sig

/-! ### The whole text -/

/-- `{:e}` writes the float with these digits and this exponent. -/
structure Written (P : Platform) (f : F64) (digits : List Char) (exponent : Int) : Prop where
  nonzero : f.isZero = false
  significant : Significant digits
  lower : -2 ^ 31 ≤ exponent
  upper : exponent + 1 < 2 ^ 31
  text : (P.floatLowerExp f.abs).toList = digits.take 1 ++
    (if digits.length > 1 then '.' :: digits.drop 1 else []) ++ 'e' :: intText exponent

variable {P : Platform} {f g : F64} {exponent exponent' : Int} {digits' : List Char}

theorem Written.magnitude_eq (written : Written P f digits exponent) :
    magnitude P f = floatLayout digits (exponent + 1) := by
  have below := written.upper
  rw [magnitude, written.nonzero, written.text,
    scientificParts_eq written.significant written.lower (by omega)]
  rfl

/-- **The text is exact, has a point or an exponent, and tells digits and exponents apart.** -/
theorem pythonFloatRepr_exact (written : Written P f digits exponent) :
    denotes (pythonFloatRepr P f) = (if f.negative then -1 else 1) *
        ((Nat.ofDigitChars 10 digits 0 : ℚ) * 10 ^ (exponent - digits.length + 1)) ∧
      ('.' ∈ pythonFloatRepr P f ∨ 'e' ∈ pythonFloatRepr P f) ∧
      ('e' ∈ pythonFloatRepr P f ↔ exponent + 1 ≤ -4 ∨ 16 < exponent + 1) ∧
      ∀ g digits' exponent', Written P g digits' exponent' →
        pythonFloatRepr P g = pythonFloatRepr P f → digits' = digits ∧ exponent' = exponent := by
  have layout := written.magnitude_eq
  have sig := written.significant
  obtain ⟨-, ⟨c, rest, starts, digit⟩, d, mem, marks⟩ := floatLayout_text sig (exponent + 1)
  have signed : ∀ {c}, c ≠ '-' → (c ∈ pythonFloatRepr P f ↔
      c ∈ floatLayout digits (exponent + 1)) := by
    intro c other
    rw [pythonFloatRepr_eq, layout]
    split
    · exact List.mem_cons.trans (or_iff_right other)
    · rfl
  refine ⟨?_, ?_, (signed (by decide)).trans (exponent_form_iff sig _), ?_⟩
  · have value := literalValue_floatLayout sig (exponent + 1)
    rw [show exponent + 1 - digits.length = exponent - digits.length + 1 by omega] at value
    rw [pythonFloatRepr_eq, layout, ← value]
    split
    · rw [neg_one_mul]
      rfl
    · rw [one_mul, starts, denotes]
      rintro _ ⟨⟩
      cases digit
  · rcases marks with rfl | rfl
    · exact .inl ((signed (by decide)).mpr mem)
    · exact .inr ((signed (by decide)).mpr mem)
  · intro g digits' exponent' other same
    have layout' := other.magnitude_eq
    obtain ⟨-, ⟨c', rest', starts', digit'⟩, -⟩ := floatLayout_text other.significant (exponent' + 1)
    have read := congrArg readLayout (pythonFloatRepr_inj (layout'.trans starts') digit'
      (layout.trans starts) digit same).2
    rw [layout', layout] at read
    rw [readLayout_floatLayout other.significant, readLayout_floatLayout sig] at read
    obtain ⟨sameDigits, sameExponent⟩ := Prod.ext_iff.mp read
    exact ⟨sameDigits, add_right_cancel sameExponent⟩

/-- Every float prints as `1.5e0`, as 1.5 does. -/
def oneAndHalf : Platform := { SignedObject.codePlatform with floatLowerExp := fun _ => "1.5e0" }

theorem oneAndHalf_exact : denotes (pythonFloatRepr oneAndHalf ⟨false, 1023, 2 ^ 51⟩) = 3 / 2 := by
  have text : (oneAndHalf.floatLowerExp (F64.abs ⟨false, 1023, 2 ^ 51⟩)).toList =
      ['1', '.', '5', 'e', '0'] := rfl
  have written : Written oneAndHalf ⟨false, 1023, 2 ^ 51⟩ ['1', '5'] 0 :=
    ⟨rfl, ⟨by simp, ⟨'1', ['5'], rfl, by decide⟩, by decide⟩, by decide, by decide, text⟩
  have value : (15 : ℚ) * 10⁻¹ = 3 / 2 := by norm_num
  rw [(pythonFloatRepr_exact written).1]
  show (1 : ℚ) * (15 * 10 ^ (-1 : ℤ)) = 3 / 2
  rw [one_mul, zpow_neg_one, value]

end AgentProtocols.A4P
