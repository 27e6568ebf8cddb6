import AgentProtocols.A4P.Canonical

/-!
Canonical JSON is read back: two values with one canonical text are the same value, up to the order
of members.

`writeValue_append_inj` says that the text of a value ends where it ends, whatever follows.
`LowerExp` is what Rust documents of `{:e}`, and the layout loses nothing
(`readLayout_floatLayout`).
-/

namespace AgentProtocols.A4P

open Json Lib List

/-! ### The layout of a float -/

/-- Digits without a leading or a trailing zero. -/
structure Significant (digits : List Char) : Prop where
  digit : ∀ c ∈ digits, c.isDigit = true
  head : ∃ d ds, digits = d :: ds ∧ d ≠ '0'
  last : digits.getLast? ≠ some '0'

/-- The exponent after the `e`: a sign and decimal digits. -/
def readExponent : List Char → Int
  | sign :: digits =>
    let n : Int := Nat.ofDigitChars 10 digits 0
    if sign = '-' then -n else n
  | [] => 0

/-- The digits and the place of the decimal point that a layout shows. -/
def readLayout (text : List Char) : List Char × Int :=
  if 'e' ∈ text then
    ((text.takeWhile (· ≠ 'e')).filter Char.isDigit,
      readExponent ((text.dropWhile (· ≠ 'e')).drop 1) + 1)
  else
    let whole := text.takeWhile (· ≠ '.')
    let fraction := (text.dropWhile (· ≠ '.')).drop 1
    if whole = ['0'] then
      (fraction.dropWhile (· = '0'), -((fraction.takeWhile (· = '0')).length : Int))
    else if fraction = ['0'] then (whole.rdropWhile (· = '0'), whole.length)
    else (whole ++ fraction, whole.length)

theorem span_at {x : Char} {m : List Char} (clean : x ∉ m) (r : List Char) :
    (m ++ x :: r).takeWhile (· ≠ x) = m ∧ (m ++ x :: r).dropWhile (· ≠ x) = x :: r := by
  have inside : ∀ c ∈ m, decide (c ≠ x) = true := by
    intro c mem
    rw [decide_eq_true_eq]
    rintro rfl
    exact clean mem
  constructor
  · rw [takeWhile_append_of_pos inside]
    simp
  · rw [dropWhile_append_of_pos inside]
    simp

variable {digits : List Char}

theorem not_mem_of_digits {x : Char} (digit : ∀ c ∈ digits, c.isDigit = true)
    (other : x.isDigit = false) : x ∉ digits := by
  intro mem
  rw [digit x mem] at other
  cases other

theorem ofDigitChars_padTwo (n : Nat) : Nat.ofDigitChars 10 (padTwo n) 0 = n := by
  rw [padTwo]
  split
  · exact Nat.ofDigitChars_ten_toDigits
  · exact Nat.ofDigitChars_ten_toDigits

theorem digit_replicate_zero (n : Nat) : ∀ c ∈ replicate n '0', c.isDigit = true := by
  intro c mem
  rw [eq_of_mem_replicate mem]
  rfl

theorem readLayout_fixed {whole fraction : List Char} (digits : ∀ c ∈ whole, c.isDigit = true)
    (digits' : ∀ c ∈ fraction, c.isDigit = true) :
    readLayout (whole ++ '.' :: fraction) =
      if whole = ['0'] then
        (fraction.dropWhile (· = '0'), -((fraction.takeWhile (· = '0')).length : Int))
      else if fraction = ['0'] then (whole.rdropWhile (· = '0'), whole.length)
      else (whole ++ fraction, whole.length) := by
  have plain : 'e' ∉ whole ++ '.' :: fraction := by
    simp only [mem_append, mem_cons, not_or]
    exact ⟨not_mem_of_digits digits rfl, by decide, not_mem_of_digits digits' rfl⟩
  obtain ⟨before, after⟩ := span_at (not_mem_of_digits digits (show '.'.isDigit = false from rfl))
    fraction
  rw [readLayout, if_neg plain, before, after]
  rfl

theorem mantissa_digits (sig : Significant digits) :
    'e' ∉ digits.take 1 ++ (if digits.length > 1 then '.' :: digits.drop 1 else []) ∧
      (digits.take 1 ++ (if digits.length > 1 then '.' :: digits.drop 1 else [])).filter
        Char.isDigit = digits := by
  obtain ⟨digit, ⟨d, ds, rfl, -⟩, -⟩ := sig
  have plain : 'e' ∉ d :: ds := not_mem_of_digits digit rfl
  have kept : (d :: ds).filter Char.isDigit = d :: ds := filter_eq_self.mpr digit
  cases ds with
  | nil => exact ⟨plain, kept⟩
  | cons e ds =>
    rw [mem_cons, not_or] at plain
    constructor
    · simp [plain]
    · simpa [filter_cons, digit d (.head _)] using kept

theorem Significant.rdropWhile_eq (sig : Significant digits) :
    digits.rdropWhile (· = '0') = digits := by
  rw [rdropWhile_eq_self_iff]
  intro nonempty zero
  rw [decide_eq_true_eq] at zero
  exact sig.last (by rw [getLast?_eq_some_getLast nonempty, zero])

theorem Significant.ne_nil (sig : Significant digits) : digits ≠ [] := by
  obtain ⟨d, ds, rfl, -⟩ := sig.head
  exact cons_ne_nil d ds

section Layout

variable {digits : List Char} (sig : Significant digits)
include sig

theorem readLayout_scientific (exp : Int) :
    readLayout (digits.take 1 ++ (if digits.length > 1 then '.' :: digits.drop 1 else []) ++
      'e' :: (if exp < 0 then '-' else '+') :: padTwo exp.natAbs) = (digits, exp + 1) := by
  obtain ⟨plain, kept⟩ := mantissa_digits sig
  obtain ⟨before, after⟩ := span_at plain ((if exp < 0 then '-' else '+') :: padTwo exp.natAbs)
  have marked : 'e' ∈ digits.take 1 ++ (if digits.length > 1 then '.' :: digits.drop 1 else []) ++
      'e' :: (if exp < 0 then '-' else '+') :: padTwo exp.natAbs :=
    mem_append_right _ (.head _)
  have exponent : readExponent ((if exp < 0 then '-' else '+') :: padTwo exp.natAbs) = exp := by
    rw [readExponent, ofDigitChars_padTwo]
    by_cases negative : exp < 0
    · rw [if_pos negative, if_pos rfl]
      omega
    · rw [if_neg negative, if_neg (by decide)]
      omega
  rw [readLayout, if_pos marked, before, after, kept, drop_succ_cons, drop_zero, exponent]

theorem readLayout_small (zeros : Nat) :
    readLayout ('0' :: '.' :: (replicate zeros '0' ++ digits)) = (digits, -(zeros : Int)) := by
  obtain ⟨digit, ⟨d, ds, rfl, nonzero⟩, -⟩ := sig
  have all : ∀ c ∈ replicate zeros '0', decide (c = '0') = true := by
    intro c mem
    rw [eq_of_mem_replicate mem]
    rfl
  have read := @readLayout_fixed ['0'] (replicate zeros '0' ++ d :: ds) (by simp) (by
    intro c mem
    rcases mem_append.mp mem with mem | mem
    · exact digit_replicate_zero zeros c mem
    · exact digit c mem)
  have first : (d :: ds).dropWhile (· = '0') = d :: ds := by simp [nonzero]
  have none : (d :: ds).takeWhile (· = '0') = [] := by simp [nonzero]
  rw [singleton_append] at read
  rw [read, if_pos rfl, dropWhile_append_of_pos all, takeWhile_append_of_pos all, first,
    none, append_nil, length_replicate]

theorem readLayout_integral (zeros : Nat) :
    readLayout (digits ++ replicate zeros '0' ++ ['.', '0']) =
      (digits, ((digits.length + zeros : Nat) : Int)) := by
  have kept := sig.rdropWhile_eq
  obtain ⟨digit, ⟨d, ds, rfl, nonzero⟩, -⟩ := sig
  have read := @readLayout_fixed (d :: ds ++ replicate zeros '0') ['0'] (by
    intro c mem
    rcases mem_append.mp mem with mem | mem
    · exact digit c mem
    · exact digit_replicate_zero zeros c mem) (by simp)
  have positive : d :: ds ++ replicate zeros '0' ≠ ['0'] := by
    intro same
    exact nonzero (cons.inj same).1
  have all : ∀ c ∈ replicate zeros '0', decide (c = '0') = true := by
    intro c mem
    rw [eq_of_mem_replicate mem]
    rfl
  have trimmed : (d :: ds ++ replicate zeros '0').rdropWhile (· = '0') = d :: ds := by
    rw [rdropWhile, reverse_append, reverse_replicate,
      dropWhile_append_of_pos all, ← rdropWhile, kept]
  rw [read, if_neg positive, if_pos rfl, trimmed, length_append, length_replicate]

theorem readLayout_mixed {n : Nat} (pos : 0 < n) (bound : n < digits.length) :
    readLayout (digits.take n ++ '.' :: digits.drop n) = (digits, (n : Int)) := by
  obtain ⟨digit, ⟨d, ds, rfl, nonzero⟩, last⟩ := sig
  have read := @readLayout_fixed ((d :: ds).take n) ((d :: ds).drop n)
    (fun c mem => digit c (mem_of_mem_take mem)) (fun c mem => digit c (mem_of_mem_drop mem))
  have positive : (d :: ds).take n ≠ ['0'] := by
    obtain ⟨m, rfl⟩ : ∃ m, n = m + 1 := ⟨n - 1, by omega⟩
    intro same
    exact nonzero (cons.inj same).1
  have fraction : (d :: ds).drop n ≠ ['0'] := by
    intro same
    have ends := @getLast?_drop _ n (d :: ds)
    rw [same, if_neg (by omega)] at ends
    exact last ends.symm
  rw [read, if_neg positive, if_neg fraction, take_append_drop, length_take,
    Nat.min_eq_left bound.le]

/-- The layout of significant digits shows them and the place of the point. -/
theorem readLayout_floatLayout (decpt : Int) :
    readLayout (floatLayout digits decpt) = (digits, decpt) := by
  rw [floatLayout]
  split
  · rw [readLayout_scientific sig, Int.sub_add_cancel]
  · split
    · rw [readLayout_small sig]
      congr 1
      omega
    · split
      · rw [readLayout_integral sig]
        congr 1
        omega
      · rw [readLayout_mixed sig (by omega) (by omega)]
        congr 1
        omega

end Layout

/-! ### Numbers -/

/-- What Rust documents of `{:e}` on positive floats: the shortest digits. -/
structure LowerExp (P : Platform) : Prop where
  shape : ∀ f : F64, f.isZero = false → ∃ digits exponent, Significant digits ∧
    -2 ^ 31 ≤ exponent ∧ exponent < 2 ^ 31 ∧
      (P.floatLowerExp f.abs).toList = digits.take 1 ++
        (if digits.length > 1 then '.' :: digits.drop 1 else []) ++ 'e' :: intText exponent
  injective : ∀ f g : F64, f.isZero = false → g.isZero = false →
    P.floatLowerExp f.abs = P.floatLowerExp g.abs → f.abs = g.abs

theorem parseI32_intText {i : Int} (lower : -2 ^ 31 ≤ i) (upper : i < 2 ^ 31) :
    parseI32 (intText i) = some i := by
  have value : ∀ n, Nat.ofDigitChars 10 (natText n) 0 = n := fun _ => Nat.ofDigitChars_ten_toDigits
  have nonempty : ∀ n, (natText n).isEmpty = false := by
    intro n
    rw [isEmpty_eq_false_iff]
    exact Nat.toDigits_ne_nil
  have digits : ∀ n, (natText n).all Char.isDigit = true := by
    intro n
    rw [all_eq_true]
    exact fun c mem => isDigit_of_mem_natText mem
  rw [intText]
  split
  · simp only [parseI32, nonempty, digits, value, Bool.not_true, Bool.or_self, Bool.false_eq_true,
      if_false, if_true]
    rw [if_pos (by omega)]
    congr 1
    omega
  · have unsigned : parseI32 (natText i.natAbs) =
        if -2 ^ 31 ≤ (i.natAbs : Int) ∧ (i.natAbs : Int) < 2 ^ 31 then some (i.natAbs : Int)
        else none := by
      have digits := digits i.natAbs
      have value := value i.natAbs
      cases text : natText i.natAbs with
      | nil => exact absurd text Nat.toDigits_ne_nil
      | cons c rest =>
        have digit : c.isDigit = true := by
          apply @isDigit_of_mem_natText i.natAbs
          rw [text]
          exact .head _
        have minus : c ≠ '-' := by rintro rfl; cases digit
        have plus : c ≠ '+' := by rintro rfl; cases digit
        rw [text] at digits value
        unfold parseI32
        split
        · rename_i negative ds signed
          split at signed
          · rename_i same
            exact absurd (cons.inj same).1 minus
          · rename_i same
            exact absurd (cons.inj same).1 plus
          · cases signed
            simp only [digits, value, isEmpty_cons, Bool.not_true, Bool.or_self,
              Bool.false_eq_true, if_false]
    rw [unsigned, if_pos (by omega)]
    congr 1
    omega

theorem scientificParts_eq {exponent : Int} (sig : Significant digits)
    (lower : -2 ^ 31 ≤ exponent) (upper : exponent < 2 ^ 31) :
    scientificParts (digits.take 1 ++ (if digits.length > 1 then '.' :: digits.drop 1 else []) ++
      'e' :: intText exponent) = (digits, exponent) := by
  obtain ⟨plain, kept⟩ := mantissa_digits sig
  obtain ⟨before, after⟩ := span_at plain (intText exponent)
  have nonempty : digits.isEmpty = false := isEmpty_eq_false_iff.mpr sig.ne_nil
  simp only [scientificParts, before, after, kept, sig.rdropWhile_eq, nonempty,
    parseI32_intText lower upper, Option.getD_some, Bool.false_eq_true, if_false]

section Number

variable {P : Platform}

/-- The text of a float without its sign. -/
def magnitude (P : Platform) (f : F64) : List Char :=
  if f.isZero then ['0', '.', '0']
  else
    let (digits, exponent) := scientificParts (P.floatLowerExp f.abs).toList
    floatLayout digits (exponent + 1)

theorem pythonFloatRepr_eq (f : F64) :
    pythonFloatRepr P f = if f.negative then '-' :: magnitude P f else magnitude P f := by
  rw [pythonFloatRepr, magnitude]
  split <;> rfl

variable {c : Char} {f : F64}

theorem magnitude_nonzero (exp : LowerExp P) (nonzero : f.isZero = false) :
    ∃ digits exponent, Significant digits ∧ magnitude P f = floatLayout digits (exponent + 1) ∧
      (P.floatLowerExp f.abs).toList = digits.take 1 ++
        (if digits.length > 1 then '.' :: digits.drop 1 else []) ++ 'e' :: intText exponent := by
  obtain ⟨digits, exponent, sig, lower, upper, text⟩ := exp.shape f nonzero
  refine ⟨digits, exponent, sig, ?_, text⟩
  rw [magnitude, nonzero, text, scientificParts_eq sig lower upper]
  rfl

theorem magnitude_inj (exp : LowerExp P) {g : F64} (same : magnitude P f = magnitude P g) :
    f.abs = g.abs := by
  have zero : ∀ {f : F64}, f.isZero = true → readLayout (magnitude P f) = ([], -1) := by
    intro f zero
    rw [magnitude, if_pos zero]
    rfl
  cases isZero : f.isZero with
  | true =>
    cases isZero' : g.isZero with
    | true =>
      simp only [F64.isZero, Bool.and_eq_true, beq_iff_eq] at isZero isZero'
      simp only [F64.abs, F64.mk.injEq, true_and]
      exact ⟨Fin.ext (isZero.1.trans isZero'.1.symm), Fin.ext (isZero.2.trans isZero'.2.symm)⟩
    | false =>
      obtain ⟨digits, exponent, sig, layout, -⟩ := magnitude_nonzero exp isZero'
      have read := zero isZero
      rw [same, layout, readLayout_floatLayout sig] at read
      exact absurd (Prod.ext_iff.mp read).1 sig.ne_nil
  | false =>
    obtain ⟨digits, exponent, sig, layout, text⟩ := magnitude_nonzero exp isZero
    cases isZero' : g.isZero with
    | true =>
      have read := zero isZero'
      rw [← same, layout, readLayout_floatLayout sig] at read
      exact absurd (Prod.ext_iff.mp read).1 sig.ne_nil
    | false =>
      obtain ⟨digits', exponent', sig', layout', text'⟩ := magnitude_nonzero exp isZero'
      have read := congrArg readLayout same
      rw [layout, layout', readLayout_floatLayout sig, readLayout_floatLayout sig'] at read
      obtain ⟨sameDigits, sameExponent⟩ := Prod.ext_iff.mp read
      simp only at sameDigits sameExponent
      have sameExponent : exponent = exponent' := by omega
      apply exp.injective f g isZero isZero'
      apply String.toList_injective
      rw [text, text', sameDigits, sameExponent]

/-- A character that the text of a number may have. -/
def isNumeral (c : Char) : Bool := c.isDigit || c == '-' || c == '+' || c == '.' || c == 'e'

theorem isNumeral_of_isDigit (digit : c.isDigit = true) : isNumeral c = true := by
  simp [isNumeral, digit]

theorem isNumeral_of_zero {c : Char} (mem : c ∈ ['.', '0']) : isNumeral c = true := by
  rcases mem_cons.mp mem with rfl | mem
  · rfl
  · cases mem_singleton.mp mem
    rfl

theorem isNumeral_padTwo (n : Nat) : ∀ c ∈ padTwo n, isNumeral c = true := by
  intro c mem
  rw [padTwo] at mem
  split at mem
  · rcases mem_cons.mp mem with rfl | mem
    · rfl
    · exact isNumeral_of_isDigit (isDigit_of_mem_natText mem)
  · exact isNumeral_of_isDigit (isDigit_of_mem_natText mem)

theorem floatLayout_text {digits : List Char} (sig : Significant digits) (decpt : Int) :
    (∀ c ∈ floatLayout digits decpt, isNumeral c = true) ∧
      (∃ c rest, floatLayout digits decpt = c :: rest ∧ c.isDigit = true) ∧
      ∃ c ∈ floatLayout digits decpt, c = '.' ∨ c = 'e' := by
  obtain ⟨digit, ⟨d, ds, rfl, -⟩, -⟩ := sig
  have numeral : ∀ c ∈ d :: ds, isNumeral c = true := fun c mem => isNumeral_of_isDigit (digit c mem)
  have zeros : ∀ n, ∀ c ∈ replicate n '0', isNumeral c = true := fun n c mem =>
    isNumeral_of_isDigit (digit_replicate_zero n c mem)
  have first := digit d (.head _)
  rw [floatLayout]
  split
  · refine ⟨?_, ⟨d, _, rfl, first⟩, 'e', mem_append_right _ (.head _), .inr rfl⟩
    intro c mem
    rcases mem_append.mp mem with mem | mem
    · rcases mem_append.mp mem with mem | mem
      · exact numeral c (mem_of_mem_take mem)
      · split at mem
        · rcases mem_cons.mp mem with rfl | mem
          · rfl
          · exact numeral c (mem_of_mem_drop mem)
        · cases mem
    · rcases mem_cons.mp mem with rfl | mem
      · rfl
      · rcases mem_cons.mp mem with rfl | mem
        · split <;> rfl
        · exact isNumeral_padTwo _ c mem
  · split
    · refine ⟨?_, ⟨'0', _, rfl, rfl⟩, '.', .tail _ (.head _), .inl rfl⟩
      intro c mem
      rcases mem_cons.mp mem with rfl | mem
      · rfl
      · rcases mem_cons.mp mem with rfl | mem
        · rfl
        · rcases mem_append.mp mem with mem | mem
          · exact zeros _ c mem
          · exact numeral c mem
    · split
      · refine ⟨?_, ⟨d, _, rfl, first⟩, '.', mem_append_right _ (.head _), .inl rfl⟩
        intro c mem
        rcases mem_append.mp mem with mem | mem
        · rcases mem_append.mp mem with mem | mem
          · exact numeral c mem
          · exact zeros _ c mem
        · exact isNumeral_of_zero mem
      · obtain ⟨n, positive⟩ : ∃ n, decpt.toNat = n + 1 := ⟨decpt.toNat - 1, by omega⟩
        rw [positive]
        refine ⟨?_, ⟨d, _, rfl, first⟩, '.', mem_append_right _ (.head _), .inl rfl⟩
        intro c mem
        rcases mem_append.mp mem with mem | mem
        · exact numeral c (mem_of_mem_take mem)
        · rcases mem_cons.mp mem with rfl | mem
          · rfl
          · exact numeral c (mem_of_mem_drop mem)

theorem magnitude_text (exp : LowerExp P) (f : F64) :
    (∀ c ∈ magnitude P f, isNumeral c = true) ∧
      (∃ c rest, magnitude P f = c :: rest ∧ c.isDigit = true) ∧
      ∃ c ∈ magnitude P f, c = '.' ∨ c = 'e' := by
  cases isZero : f.isZero with
  | true =>
    rw [magnitude, if_pos isZero]
    refine ⟨fun c mem => ?_, ⟨'0', _, rfl, rfl⟩, '.', .tail _ (.head _), .inl rfl⟩
    rcases mem_cons.mp mem with rfl | mem
    · rfl
    · exact isNumeral_of_zero mem
  | false =>
    obtain ⟨digits, exponent, sig, layout, -⟩ := magnitude_nonzero exp isZero
    rw [layout]
    exact floatLayout_text sig _

theorem pythonFloatRepr_inj {g : F64} {c' : Char} {rest rest' : List Char}
    (text : magnitude P f = c :: rest) (digit : c.isDigit = true)
    (text' : magnitude P g = c' :: rest') (digit' : c'.isDigit = true)
    (same : pythonFloatRepr P f = pythonFloatRepr P g) :
    f.negative = g.negative ∧ magnitude P f = magnitude P g := by
  have unsigned : ∀ {c : Char} {r s : List Char}, c.isDigit = true → c :: r ≠ '-' :: s := by
    intro c r s digit eq
    rw [(cons.inj eq).1] at digit
    cases digit
  rw [pythonFloatRepr_eq, pythonFloatRepr_eq] at same
  cases negative : f.negative <;> cases negative' : g.negative <;>
    simp only [negative, negative'] at same
  · exact ⟨rfl, same⟩
  · rw [text] at same
    exact absurd same (unsigned digit)
  · rw [text'] at same
    exact absurd same.symm (unsigned digit')
  · exact ⟨rfl, (cons.inj same).2⟩

theorem pythonFloatRepr_injective (exp : LowerExp P) {g : F64}
    (same : pythonFloatRepr P f = pythonFloatRepr P g) : f = g := by
  obtain ⟨c, rest, text, digit⟩ := (magnitude_text exp f).2.1
  obtain ⟨c', rest', text', digit'⟩ := (magnitude_text exp g).2.1
  have signs := pythonFloatRepr_inj text digit text' digit' same
  have abs := magnitude_inj exp signs.2
  simp only [F64.abs, F64.mk.injEq, true_and] at abs
  cases f
  cases g
  simp only [F64.mk.injEq]
  exact ⟨signs.1, abs⟩

theorem isDigit_of_mem_intText {i : Int} (mem : c ∈ intText i) : c.isDigit = true ∨ c = '-' := by
  rw [intText] at mem
  split at mem
  · rcases mem_cons.mp mem with rfl | mem
    · exact .inr rfl
    · exact .inl (isDigit_of_mem_natText mem)
  · exact .inl (isDigit_of_mem_natText mem)

theorem natText_eq_intText (n : Nat) : natText n = intText n := by
  rw [intText, if_neg (by omega), Int.natAbs_natCast]

theorem writeNumber_int {n : Number} (int : ∀ f, n ≠ .float f) :
    ∃ i : Int, writeNumber P n = intText i ∧
      ∀ m : Number, (∀ f, m ≠ .float f) → writeNumber P m = intText i → m = n := by
  have value : ∀ {m : Number}, (∀ f, m ≠ .float f) → ∃ i : Int, writeNumber P m = intText i ∧
      ((∃ k bound, m = .posInt k bound ∧ i = k) ∨ ∃ neg bound, m = .negInt i neg bound) := by
    intro m int
    cases m with
    | posInt k bound => exact ⟨k, natText_eq_intText k, .inl ⟨k, bound, rfl, rfl⟩⟩
    | negInt i neg bound => exact ⟨i, rfl, .inr ⟨neg, bound, rfl⟩⟩
    | float f => exact absurd rfl (int f)
  obtain ⟨i, text, shape⟩ := value int
  refine ⟨i, text, fun m int' text' => ?_⟩
  obtain ⟨j, text'', shape'⟩ := value int'
  have same : i = j := by
    have texts : intText i ++ [] = intText j ++ [] := by rw [← text', text'']
    exact (intText_append_inj (by rintro c ⟨⟩) (by rintro c ⟨⟩) texts).1
  subst same
  rcases shape with ⟨k, bound, rfl, rfl⟩ | ⟨neg, bound, rfl⟩
  · rcases shape' with ⟨l, bound', rfl, eq⟩ | ⟨neg', bound', rfl⟩
    · have : l = k := by omega
      subst this
      rfl
    · omega
  · rcases shape' with ⟨l, bound', rfl, eq⟩ | ⟨neg', bound', rfl⟩
    · omega
    · rfl

theorem writeNumber_injective (exp : LowerExp P) {n m : Number}
    (same : writeNumber P n = writeNumber P m) : n = m := by
  -- an integer has neither a point nor an exponent
  have apart : ∀ {n : Number} {f : F64}, (∀ f, n ≠ .float f) →
      writeNumber P n ≠ pythonFloatRepr P f := by
    intro n f int eq
    obtain ⟨i, text, -⟩ := @writeNumber_int P n int
    obtain ⟨c, mem, kind⟩ := (magnitude_text exp f).2.2
    have inside : c ∈ pythonFloatRepr P f := by
      rw [pythonFloatRepr_eq]
      split
      · exact .tail _ mem
      · exact mem
    rw [← eq, text] at inside
    rcases isDigit_of_mem_intText inside with digit | rfl
    · rcases kind with rfl | rfl <;> cases digit
    · rcases kind with eq | eq <;> cases eq
  by_cases int : ∀ f, n ≠ .float f
  · by_cases int' : ∀ f, m ≠ .float f
    · obtain ⟨i, text, unique⟩ := @writeNumber_int P m int'
      exact unique n int (same.trans text)
    · simp only [not_forall, not_not] at int'
      obtain ⟨f, rfl⟩ := int'
      exact absurd same (apart int)
  · simp only [not_forall, not_not] at int
    obtain ⟨f, rfl⟩ := int
    by_cases int' : ∀ f, m ≠ .float f
    · exact absurd same.symm (apart int')
    · simp only [not_forall, not_not] at int'
      obtain ⟨g, rfl⟩ := int'
      rw [pythonFloatRepr_injective exp same]

theorem isNumeral_writeNumber (exp : LowerExp P) (n : Number) :
    ∀ c ∈ writeNumber P n, isNumeral c = true := by
  have int : ∀ {i : Int}, ∀ c ∈ intText i, isNumeral c = true := by
    intro i c mem
    rcases isDigit_of_mem_intText mem with digit | rfl
    · exact isNumeral_of_isDigit digit
    · rfl
  intro c mem
  cases n with
  | posInt k bound =>
    rw [writeNumber, natText_eq_intText] at mem
    exact int c mem
  | negInt i neg bound => exact int c mem
  | float f =>
    have mem : c ∈ pythonFloatRepr P f := mem
    rw [pythonFloatRepr_eq] at mem
    have numerals := (magnitude_text exp f).1
    split at mem
    · rcases mem_cons.mp mem with rfl | mem
      · rfl
      · exact numerals c mem
    · exact numerals c mem

theorem writeNumber_ne_nil (exp : LowerExp P) (n : Number) : writeNumber P n ≠ [] := by
  cases n with
  | posInt k bound => exact Nat.toDigits_ne_nil
  | negInt i neg bound =>
    rw [writeNumber, intText, if_pos neg]
    exact cons_ne_nil _ _
  | float f =>
    obtain ⟨c, rest, text, -⟩ := (magnitude_text exp f).2.1
    rw [writeNumber, pythonFloatRepr_eq, text]
    split <;> exact cons_ne_nil _ _

end Number

/-! ### Values -/

/-- A text that cannot continue a number. -/
def Stops (r : List Char) : Prop := ∀ c ∈ r.head?, isNumeral c = false

/-- The kinds of values, told apart by their first character. -/
def kind : Json → Nat
  | .null => 0
  | .bool true => 1
  | .bool false => 2
  | .num _ => 3
  | .str _ => 4
  | .arr _ => 5
  | .obj _ => 6

def kindOfHead (c : Char) : Nat :=
  if c = 'n' then 0 else if c = 't' then 1 else if c = 'f' then 2
  else if c = '"' then 4 else if c = '[' then 5 else if c = '\x7b' then 6 else 3

section Values

variable {P : Platform}

theorem kindOfHead_numeral {c : Char} (numeral : isNumeral c = true) : kindOfHead c = 3 := by
  have other : ∀ d : Char, isNumeral d = false → c ≠ d := by
    rintro d not rfl
    rw [numeral] at not
    cases not
  rw [kindOfHead, if_neg (other 'n' rfl), if_neg (other 't' rfl), if_neg (other 'f' rfl),
    if_neg (other '"' rfl), if_neg (other '[' rfl), if_neg (other '\x7b' rfl)]

theorem writeValue_head (exp : LowerExp P) (v : Json) :
    ∃ c rest, writeValue P v = c :: rest ∧ kindOfHead c = kind v := by
  cases v with
  | null => exact ⟨'n', _, rfl, rfl⟩
  | bool b => cases b <;> exact ⟨_, _, rfl, rfl⟩
  | num n =>
    have numerals := isNumeral_writeNumber exp n
    cases text : writeNumber P n with
    | nil => exact absurd text (writeNumber_ne_nil exp n)
    | cons c rest =>
      refine ⟨c, rest, text, kindOfHead_numeral (numerals c ?_)⟩
      rw [text]
      exact .head _
  | str s => exact ⟨'"', _, rfl, rfl⟩
  | arr items => exact ⟨'[', _, rfl, rfl⟩
  | obj fields => exact ⟨'\x7b', _, rfl, rfl⟩

theorem kind_eq (exp : LowerExp P) {a b : Json} {r s : List Char}
    (same : writeValue P a ++ r = writeValue P b ++ s) : kind a = kind b := by
  obtain ⟨c, rest, text, head⟩ := writeValue_head exp a
  obtain ⟨d, rest', text', head'⟩ := writeValue_head exp b
  rw [text, text'] at same
  rw [← head, ← head', (cons.inj same).1]

theorem joinWith_append_inj {α : Type*} {f : α → List Char} {R : α → α → Prop} {close : Char}
    (closes : ∀ r, Stops (close :: r)) (apart : close ≠ ',')
    (opens : ∀ x, ∃ c rest, f x = c :: rest ∧ c ≠ close) : ∀ {xs ys : List α} {r s : List Char},
    (∀ x ∈ xs, ∀ y ∈ ys, ∀ r s, Stops r → Stops s → f x ++ r = f y ++ s → R x y ∧ r = s) →
      joinWith [','] (xs.map f) ++ close :: r = joinWith [','] (ys.map f) ++ close :: s →
        List.Forall₂ R xs ys ∧ r = s := by
  -- a nonempty list is its first item and then a separator or the bracket
  have unfold : ∀ (x : α) (xs : List α) (r : List Char), ∃ tail,
      joinWith [','] ((x :: xs).map f) ++ close :: r = f x ++ tail ∧ Stops tail ∧
        (xs = [] ∧ tail = close :: r ∨
          xs ≠ [] ∧ tail = ',' :: (joinWith [','] (xs.map f) ++ close :: r)) := by
    intro x xs r
    cases xs with
    | nil => exact ⟨close :: r, rfl, closes r, .inl ⟨rfl, rfl⟩⟩
    | cons y ys =>
      refine ⟨',' :: (joinWith [','] ((y :: ys).map f) ++ close :: r), ?_, ?_,
        .inr ⟨cons_ne_nil _ _, rfl⟩⟩
      · simp [joinWith]
      · intro c first
        cases first
        rfl
  intro xs
  induction xs with
  | nil =>
    intro ys r s code same
    cases ys with
    | nil => exact ⟨.nil, (cons.inj same).2⟩
    | cons y ys =>
      obtain ⟨tail, text, -, -⟩ := unfold y ys s
      obtain ⟨c, rest, first, other⟩ := opens y
      rw [text, first] at same
      exact absurd (cons.inj same).1.symm other
  | cons x xs ih =>
    intro ys r s code same
    obtain ⟨tail, text, stops, shape⟩ := unfold x xs r
    cases ys with
    | nil =>
      obtain ⟨c, rest, first, other⟩ := opens x
      rw [text, first] at same
      exact absurd (cons.inj same).1 other
    | cons y ys =>
      obtain ⟨tail', text', stops', shape'⟩ := unfold y ys s
      rw [text, text'] at same
      obtain ⟨related, tails⟩ := code x (.head _) y (.head _) _ _ stops stops' same
      rcases shape with ⟨rfl, rfl⟩ | ⟨more, rfl⟩
      · rcases shape' with ⟨rfl, rfl⟩ | ⟨more', rfl⟩
        · exact ⟨.cons related .nil, (cons.inj tails).2⟩
        · exact absurd (cons.inj tails).1 apart
      · rcases shape' with ⟨rfl, rfl⟩ | ⟨more', rfl⟩
        · exact absurd (cons.inj tails).1.symm apart
        · obtain ⟨rest, rests⟩ := ih (fun x mem y mem' => code x (.tail _ mem) y (.tail _ mem'))
            (cons.inj tails).2
          exact ⟨.cons related rest, rests⟩

theorem writeItems_eq_map : ∀ items : List Json, writeItems P items = items.map (writeValue P)
  | [] => rfl
  | x :: xs => by rw [writeItems, writeItems_eq_map xs, map_cons]

theorem writeFields_eq_map : ∀ fields : JsonDict,
    writeFields P fields = fields.map fun e => (e.1, writeValue P e.2)
  | [] => rfl
  | (k, v) :: rest => by rw [writeFields, writeFields_eq_map rest, map_cons]

def writeMember (P : Platform) (e : String × Json) : List Char := quote e.1 ++ ':' :: writeValue P e.2

theorem writeValue_obj (fields : JsonDict) : writeValue P (.obj fields) =
    '\x7b' :: (joinWith [','] ((sortMembers fields).map (writeMember P)) ++ ['\x7d']) := by
  rw [writeValue, writeMembers, writeFields_eq_map, sortMembers_map, map_map]
  rfl

theorem same_obj_of_forall₂ {fs gs : JsonDict} (wf : JsonDict.WellFormed gs)
    (members : List.Forall₂ (fun e f => e.1 = f.1 ∧ Json.same e.2 f.2 = true) (sortMembers fs)
      (sortMembers gs)) : Json.same (.obj fs) (.obj gs) = true := by
  have lengths : fs.length = gs.length := by
    rw [← (sortMembers_perm fs).length_eq, ← (sortMembers_perm gs).length_eq]
    exact members.length_eq
  rw [Json.same, Json.eqWith, Bool.and_eq_true, Json.eqFields_iff]
  refine ⟨beq_iff_eq.mpr lengths, fun e mem => ?_⟩
  have sorted := (sortMembers_perm fs).mem_iff.mpr mem
  obtain ⟨i, at_i⟩ := List.mem_iff_getElem?.mp sorted
  obtain ⟨bound, atI⟩ := List.getElem?_eq_some_iff.mp at_i
  have related := members.get bound (members.length_eq ▸ bound)
  simp only [List.get_eq_getElem, atI] at related
  refine ⟨_, ?_, related.2⟩
  rw [related.1]
  apply (lookup_eq_some_iff_mem wf.nodup).mpr
  exact (sortMembers_perm gs).mem_iff.mp (List.getElem_mem _)

theorem stops_close {close : Char} (other : isNumeral close = false) (r : List Char) :
    Stops (close :: r) := by
  intro c first
  cases first
  exact other

theorem writeMember_append_inj {e f : String × Json} {r s : List Char}
    (value : ∀ {r s}, Stops r → Stops s → writeValue P e.2 ++ r = writeValue P f.2 ++ s →
      Json.same e.2 f.2 = true ∧ r = s)
    (stops : Stops r) (stops' : Stops s) (same : writeMember P e ++ r = writeMember P f ++ s) :
    (e.1 = f.1 ∧ Json.same e.2 f.2 = true) ∧ r = s := by
  simp only [writeMember, append_assoc] at same
  obtain ⟨keys, rest⟩ := quote_append_inj same
  obtain ⟨values, rests⟩ := value stops stops' (cons.inj rest).2
  exact ⟨⟨keys, values⟩, rests⟩

/-- The text of a value ends where it ends. -/
theorem writeValue_append_inj (exp : LowerExp P) (a : Json) : ∀ {b : Json} {r s : List Char},
    a.WellFormed → b.WellFormed → Stops r → Stops s → writeValue P a ++ r = writeValue P b ++ s →
      Json.same a b = true ∧ r = s := by
  induction a using Json.induction with
  | null =>
    intro b r s _ _ _ _ same
    have kinds := kind_eq exp same
    cases b with
    | null => exact ⟨rfl, append_cancel_left same⟩
    | bool b => cases b <;> cases kinds
    | _ => cases kinds
  | bool x =>
    intro b r s _ _ _ _ same
    have kinds := kind_eq exp same
    cases b with
    | bool y =>
      cases x <;> cases y <;> first
        | exact ⟨rfl, append_cancel_left same⟩
        | cases kinds
    | _ => cases x <;> cases kinds
  | num n =>
    intro b r s _ _ stops stops' same
    have kinds := kind_eq exp same
    cases b with
    | num m =>
      obtain ⟨texts, rests⟩ := run_append_inj (isNumeral_writeNumber exp n)
        (isNumeral_writeNumber exp m) stops stops' same
      rw [writeNumber_injective exp texts]
      exact ⟨by simp [Json.same, Json.eqWith], rests⟩
    | bool b => cases b <;> cases kinds
    | _ => cases kinds
  | str x =>
    intro b r s _ _ _ _ same
    have kinds := kind_eq exp same
    cases b with
    | str y =>
      obtain ⟨rfl, rests⟩ := quote_append_inj same
      exact ⟨by simp [Json.same, Json.eqWith], rests⟩
    | bool b => cases b <;> cases kinds
    | _ => cases kinds
  | arr xs ih =>
    intro b r s wf wf' _ _ same
    have kinds := kind_eq exp same
    cases b with
    | arr ys =>
      rw [Json.wellFormed_arr] at wf wf'
      simp only [writeValue, writeItems_eq_map, cons_append, append_assoc,
        nil_append, cons.injEq, true_and] at same
      have opens : ∀ x : Json, ∃ c rest, writeValue P x = c :: rest ∧ c ≠ ']' := by
        intro x
        obtain ⟨c, rest, text, head⟩ := writeValue_head exp x
        refine ⟨c, rest, text, ?_⟩
        rintro rfl
        have numeral : kind x = 3 := head.symm
        cases x with
        | num n =>
          have inside : ']' ∈ writeNumber P n := by
            rw [show writeNumber P n = ']' :: rest from text]
            exact .head _
          cases isNumeral_writeNumber exp n _ inside
        | bool b => cases b <;> cases numeral
        | _ => cases numeral
      obtain ⟨items, rests⟩ := joinWith_append_inj (stops_close rfl) (by decide) opens
        (fun x mem y mem' r s stops stops' same =>
          ih x mem (wf x mem) (wf' y mem') stops stops' same) same
      exact ⟨Json.eqItems_iff.mpr items, rests⟩
    | bool b => cases b <;> cases kinds
    | _ => cases kinds
  | obj fs ih =>
    intro b r s wf wf' _ _ same
    have kinds := kind_eq exp same
    cases b with
    | obj gs =>
      have wfMember := (Json.wellFormed_obj.mp wf).2
      have wfMember' := (Json.wellFormed_obj.mp wf').2
      simp only [writeValue_obj, cons_append, append_assoc, nil_append,
        cons.injEq, true_and] at same
      have opens : ∀ e : String × Json, ∃ c rest, writeMember P e = c :: rest ∧ c ≠ '\x7d' :=
        fun e => ⟨'"', _, rfl, by decide⟩
      have sorted : ∀ {fs : JsonDict} {e}, e ∈ sortMembers fs → e ∈ fs := fun mem =>
        (sortMembers_perm _).mem_iff.mp mem
      obtain ⟨members, rests⟩ := joinWith_append_inj (stops_close rfl) (by decide) opens
        (fun e mem f mem' r s stops stops' same =>
          writeMember_append_inj (fun stops stops' same => ih e (sorted mem)
            (wfMember e (sorted mem)) (wfMember' f (sorted mem')) stops stops' same)
            stops stops' same) same
      exact ⟨same_obj_of_forall₂ wf' members, rests⟩
    | bool b => cases b <;> cases kinds
    | _ => cases kinds

theorem canonicalJsonValue_inj (exp : LowerExp P) {a b : Json} (wf : a.WellFormed)
    (wf' : b.WellFormed) (same : canonicalJsonValue P a = canonicalJsonValue P b) :
    Json.same a b = true := by
  have texts : writeValue P a ++ [] = writeValue P b ++ [] := by
    rw [append_nil, append_nil]
    exact String.ofList_injective same
  exact (writeValue_append_inj exp a wf wf' (by rintro c ⟨⟩) (by rintro c ⟨⟩) texts).1

theorem sortMembers_of_perm {α : Type*} {fs gs : List (String × α)} (perm : fs.Perm gs)
    (nodup : (fs.map Prod.fst).Nodup) : sortMembers fs = sortMembers gs := by
  have sorted : (sortMembers fs).Perm (sortMembers gs) :=
    ((sortMembers_perm fs).trans perm).trans (sortMembers_perm gs).symm
  refine sorted.eq_of_pairwise (fun a b mem mem' below above => ?_) (sortMembers_sorted fs)
    (sortMembers_sorted gs)
  exact inj_on_of_nodup_map nodup ((sortMembers_perm fs).mem_iff.mp mem)
    (perm.mem_iff.mpr ((sortMembers_perm gs).mem_iff.mp mem')) (le_antisymm below above)

/-- The order of the members is not in the text. -/
theorem writeValue_of_same (a : Json) : ∀ {b : Json}, a.WellFormed → b.WellFormed →
    Json.same a b = true → writeValue P a = writeValue P b := by
  induction a using Json.induction with
  | arr items ih =>
    intro b wf wf' same
    cases b with
    | arr items' =>
      rw [Json.same, eqWith, eqItems_iff, forall₂_iff_get] at same
      rw [wellFormed_arr] at wf wf'
      have texts : items.map (writeValue P) = items'.map (writeValue P) := by
        refine ext_getElem (by simp only [length_map, same.1]) fun i bound bound' => ?_
        rw [length_map] at bound bound'
        rw [getElem_map, getElem_map]
        exact ih _ (getElem_mem bound) (wf _ (getElem_mem bound)) (wf' _ (getElem_mem bound'))
          (same.2 i bound bound')
      rw [writeValue, writeValue, writeItems_eq_map, writeItems_eq_map, texts]
    | _ => cases same
  | obj fs ih =>
    intro b wf wf' same
    cases b with
    | obj gs =>
      rw [Json.same, eqWith, Bool.and_eq_true, eqFields_iff, beq_iff_eq] at same
      rw [wellFormed_obj] at wf wf'
      rw [writeValue, writeValue, writeMembers, writeMembers, writeFields_eq_map, writeFields_eq_map]
      have keys : ((fs.map fun e => (e.1, writeValue P e.2)).map Prod.fst).Nodup := by
        rw [map_map]
        exact wf.1
      rw [sortMembers_of_perm ?_ keys]
      refine (subperm_of_subset keys.of_map ?_).perm_of_length_le (by simp only [length_map, same.1, le_refl])
      intro member inside
      obtain ⟨e, mem, rfl⟩ := mem_map.mp inside
      obtain ⟨w, found, equal⟩ := same.2 e mem
      have mem' := (lookup_eq_some_iff_mem wf'.1).mp found
      rw [ih e mem (wf.2 e mem) (wf'.2 _ mem') equal]
      exact mem_map.mpr ⟨_, mem', rfl⟩
    | _ => cases same
  | _ =>
    intro b _ _ same
    cases b <;> first | rfl | cases same | simp_all [Json.same, eqWith]

end Values

end AgentProtocols.A4P
