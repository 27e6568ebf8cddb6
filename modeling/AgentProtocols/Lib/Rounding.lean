import Mathlib.Data.Nat.Log
import Mathlib.Tactic.Linarith
import Mathlib.Tactic.Ring

/-!
Rounding of integers to a binary format with a fixed number of significant bits, ties to even. It
keeps the order (`round_mono`, `roundInt_mono`) and what the format holds (`round_mul_two_pow`).
-/

namespace AgentProtocols.Lib.Rounding

/-- The multiple of `step` closest to `m`; halfway, the one with the even quotient. -/
def nearest (step m : Nat) : Nat :=
  if step < 2 * (m % step) ∨ (2 * (m % step) = step ∧ m / step % 2 = 1) then
    (m / step + 1) * step
  else m / step * step

theorem le_nearest (step m : Nat) : m / step * step ≤ nearest step m := by
  unfold nearest
  split
  · exact Nat.mul_le_mul_right step (Nat.le_succ _)
  · exact le_rfl

theorem nearest_le (step m : Nat) : nearest step m ≤ (m / step + 1) * step := by
  unfold nearest
  split
  · exact le_rfl
  · exact Nat.mul_le_mul_right step (Nat.le_succ _)

variable {a b m bits step : Nat}

theorem nearest_of_dvd (multiple : step ∣ m) : nearest step m = m := by
  have rem : m % step = 0 := Nat.mod_eq_zero_of_dvd multiple
  have same : m / step * step = m := Nat.div_mul_cancel multiple
  unfold nearest
  rw [same]
  split
  · obtain rfl : step = 0 := by omega
    exact same
  · rfl

private theorem nearest_mono_of_div_eq (le : a ≤ b) (same : a / step = b / step) :
    nearest step a ≤ nearest step b := by
  have rem : a % step ≤ b % step := by
    have first := Nat.div_add_mod a step
    have second := Nat.div_add_mod b step
    rw [same] at first
    omega
  by_cases up : step < 2 * (b % step) ∨ (2 * (b % step) = step ∧ b / step % 2 = 1)
  · calc nearest step a ≤ (a / step + 1) * step := nearest_le step a
      _ = nearest step b := by rw [nearest, if_pos up, same]
  · have down : ¬ (step < 2 * (a % step) ∨ (2 * (a % step) = step ∧ a / step % 2 = 1)) := by
      rw [same]
      omega
    rw [nearest, if_neg down, nearest, if_neg up, same]

theorem nearest_mono (step : Nat) (le : a ≤ b) : nearest step a ≤ nearest step b := by
  rcases Nat.lt_or_ge (a / step) (b / step) with less | ge
  · calc nearest step a ≤ (a / step + 1) * step := nearest_le step a
      _ ≤ b / step * step := Nat.mul_le_mul_right step less
      _ ≤ nearest step b := le_nearest step b
  · exact nearest_mono_of_div_eq le (le_antisymm (Nat.div_le_div_right le) ge)

theorem nearest_le_of_dvd {c : Nat} (multiple : step ∣ c) (le : m ≤ c) : nearest step m ≤ c := by
  have mono := nearest_mono step le
  rwa [nearest_of_dvd multiple] at mono

theorem le_nearest_of_dvd {c : Nat} (multiple : step ∣ c) (le : c ≤ m) : c ≤ nearest step m := by
  have mono := nearest_mono step le
  rwa [nearest_of_dvd multiple] at mono

/-- The distance of neighbours with `bits` significant bits at the size of `m`. -/
def spacing (bits m : Nat) : Nat := 2 ^ (m.log2 + 1 - bits)

/-- `m` in a format with `bits` significant bits. -/
def round (bits m : Nat) : Nat := nearest (spacing bits m) m

/-- A number of the format is not changed. -/
theorem round_mul_two_pow {s : Nat} (k : Nat) (small : s < 2 ^ bits) :
    round bits (s * 2 ^ k) = s * 2 ^ k := by
  apply nearest_of_dvd
  rcases Nat.eq_zero_or_pos s with rfl | pos
  · simp
  have size : (s * 2 ^ k).log2 < bits + k := by
    rw [Nat.log2_lt (by positivity), pow_add]
    exact Nat.mul_lt_mul_of_pos_right small (by positivity)
  calc spacing bits (s * 2 ^ k) ∣ 2 ^ k := Nat.pow_dvd_pow 2 (by omega)
    _ ∣ s * 2 ^ k := Nat.dvd_mul_left _ _

theorem round_of_lt (small : m < 2 ^ bits) : round bits m = m := by
  have kept := round_mul_two_pow 0 small
  rwa [pow_zero, Nat.mul_one] at kept

theorem round_mono (pos : 0 < bits) (le : a ≤ b) : round bits a ≤ round bits b := by
  rcases Nat.eq_zero_or_pos a with rfl | apos
  · rw [round_of_lt (by positivity)]
    exact Nat.zero_le _
  have sizes : a.log2 ≤ b.log2 := by
    rw [Nat.le_log2 (by omega)]
    exact (Nat.log2_self_le (by omega)).trans le
  rcases Nat.lt_or_ge a.log2 b.log2 with less | ge
  · -- a power of two lies between the two, and both spacings divide it
    calc round bits a ≤ 2 ^ b.log2 :=
          nearest_le_of_dvd (Nat.pow_dvd_pow 2 (by omega))
            ((Nat.lt_log2_self).le.trans (Nat.pow_le_pow_right (by omega) less))
      _ ≤ round bits b :=
          le_nearest_of_dvd (Nat.pow_dvd_pow 2 (by omega)) (Nat.log2_self_le (by omega))
  · rw [round, spacing, le_antisymm sizes ge]
    exact nearest_mono _ le

/-- Rounding of a signed number rounds its magnitude. -/
def roundInt (bits : Nat) (i : Int) : Int :=
  if 0 ≤ i then (round bits i.natAbs : Nat) else -(round bits i.natAbs : Nat)

theorem roundInt_mono (pos : 0 < bits) {i j : Int} (le : i ≤ j) :
    roundInt bits i ≤ roundInt bits j := by
  unfold roundInt
  split
  · rename_i nonneg
    have := round_mono pos (show i.natAbs ≤ j.natAbs by omega)
    omega
  · split
    · omega
    · have := round_mono pos (show j.natAbs ≤ i.natAbs by omega)
      omega

theorem roundInt_of_round {i : Int} (kept : round bits i.natAbs = i.natAbs) :
    roundInt bits i = i := by
  unfold roundInt
  split <;> omega

end AgentProtocols.Lib.Rounding
