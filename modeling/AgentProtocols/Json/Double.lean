import Mathlib.Algebra.Order.Field.Power
import Mathlib.Tactic.Positivity
import AgentProtocols.Json.Value
import AgentProtocols.Lib.Rounding

/-!
The number that a `serde_json::Number` stands for, and the double that `Number::as_f64` makes of it.
Two integers may become one double but never change places (`asF64_mono`); a float that stands for
an integer is that integer (`asF64_of_integral`).
-/

namespace AgentProtocols.Json

open Lib.Rounding

namespace F64

/-- The significand of a double as an integer, the hidden bit included. -/
def significand (f : F64) : Nat :=
  if f.exponent.val = 0 then f.fraction.val else 2 ^ 52 + f.fraction.val

theorem significand_lt (f : F64) : f.significand < 2 ^ 53 := by
  unfold significand
  split <;> omega

/-- The number that a finite double stands for. -/
def toRat (f : F64) : Rat :=
  (if f.negative then -1 else 1) * f.significand * 2 ^ ((max 1 f.exponent.val : Int) - 1075)

theorem toRat_of_isZero {f : F64} (zero : f.isZero = true) : f.toRat = 0 := by
  simp only [isZero, Bool.and_eq_true, beq_iff_eq] at zero
  simp [toRat, significand, zero.1, zero.2]

theorem toRat_of_eq {f g : F64} (eq : f.eq g = true) : f.toRat = g.toRat := by
  simp only [F64.eq, Bool.or_eq_true, Bool.and_eq_true, beq_iff_eq] at eq
  rcases eq with rfl | ⟨zero, zero'⟩
  · rfl
  · rw [toRat_of_isZero zero, toRat_of_isZero zero']

theorem roundInt_of_toRat {f : F64} {z : Int} (integral : f.toRat = z) : roundInt 53 z = z := by
  apply roundInt_of_round
  have magnitude : (z.natAbs : Rat) =
      f.significand * 2 ^ ((max 1 f.exponent.val : Int) - 1075) := by
    have power : (0 : Rat) ≤ 2 ^ ((max 1 f.exponent.val : Int) - 1075) := by positivity
    rw [Nat.cast_natAbs, Int.cast_abs, ← integral, toRat, abs_mul, abs_mul, abs_of_nonneg power,
      Nat.abs_cast]
    split <;> simp
  rcases Int.le_total 1075 (max 1 f.exponent.val) with high | low
  · obtain ⟨k, scale⟩ := Int.eq_ofNat_of_zero_le (Int.sub_nonneg.mpr high)
    rw [scale] at magnitude
    have exact : z.natAbs = f.significand * 2 ^ k := by exact_mod_cast magnitude
    rw [exact]
    exact round_mul_two_pow k f.significand_lt
  · -- a double below 2 ^ 53 that is an integer is held with its bits to spare
    obtain ⟨k, scale⟩ := Int.eq_ofNat_of_zero_le (Int.sub_nonneg.mpr low)
    have negated : (max 1 f.exponent.val : Int) - 1075 = -(k : Int) := by omega
    rw [negated, zpow_neg, zpow_natCast, ← div_eq_mul_inv, eq_div_iff (by positivity)] at magnitude
    have exact : z.natAbs * 2 ^ k = f.significand := by exact_mod_cast magnitude
    have below : z.natAbs ≤ f.significand := by
      rw [← exact]
      exact Nat.le_mul_of_pos_right _ (by positivity)
    exact round_of_lt (below.trans_lt f.significand_lt)

end F64

namespace Number

def toRat : Number → Rat
  | posInt n _ => n
  | negInt i _ _ => i
  | float f => f.toRat

/-- `Number::as_f64`: an integer is rounded to the closest double. -/
def asF64 : Number → Rat
  | posInt n _ => roundInt 53 n
  | negInt i _ _ => roundInt 53 i
  | float f => f.toRat

/-- The number has no fractional part. -/
def Integral (n : Number) : Prop := ∃ z : Int, n.toRat = z

/-- The number is held as an integer, `is_i64() || is_u64()`. -/
def isInt : Number → Bool
  | float _ => false
  | _ => true

theorem integral_of_isInt {n : Number} (int : n.isInt = true) : n.Integral := by
  cases n with
  | posInt n bound => exact ⟨n, by simp [toRat]⟩
  | negInt i negative bound => exact ⟨i, rfl⟩
  | float f => cases int

/-- What `as_f64` gives for an integral number is the integer rounded. -/
theorem asF64_of_integral {n : Number} {z : Int} (integral : n.toRat = z) :
    n.asF64 = roundInt 53 z := by
  cases n with
  | posInt n bound =>
    rw [toRat] at integral
    obtain rfl : (n : Int) = z := by exact_mod_cast integral
    rfl
  | negInt i negative bound =>
    rw [toRat] at integral
    obtain rfl : i = z := by exact_mod_cast integral
    rfl
  | float f =>
    rw [F64.roundInt_of_toRat integral]
    exact integral

/-- `as_f64` keeps the order of integral numbers, though not strictly. -/
theorem asF64_mono {n m : Number} (hn : n.Integral) (hm : m.Integral) (le : n.toRat ≤ m.toRat) :
    n.asF64 ≤ m.asF64 := by
  obtain ⟨i, hi⟩ := hn
  obtain ⟨j, hj⟩ := hm
  rw [hi, hj] at le
  rw [asF64_of_integral hi, asF64_of_integral hj]
  exact_mod_cast roundInt_mono (by omega) (by exact_mod_cast le)

theorem toRat_of_eq {n m : Number} (eq : n.eq m = true) : n.toRat = m.toRat := by
  cases n <;> cases m <;> simp only [Number.eq, beq_iff_eq, Bool.false_eq_true] at eq
  · rw [toRat, toRat, eq]
  · rw [toRat, toRat, eq]
  · exact F64.toRat_of_eq eq

end Number

end AgentProtocols.Json
