import Mathlib.Algebra.Ring.Nat
import Mathlib.Data.List.Basic
import Mathlib.Data.List.Induction

/-!
Sums over the processes of a system: `tally` is the sum of a weight over a list, and `tally_set`
says what a step of one process does to it.
-/

namespace AgentProtocols.Lib

open List

variable {π : Type*}

def tally (weight : π → Nat) (processes : List π) : Nat := (processes.map weight).sum

section Tally

variable {weight weight' : π → Nat} {processes : List π} {p q : π} {i : Nat}

@[simp] theorem tally_nil : tally weight [] = 0 := rfl

@[simp] theorem tally_cons : tally weight (p :: processes) = weight p + tally weight processes := by
  simp [tally]

theorem tally_concat : tally weight (processes ++ [p]) = tally weight processes + weight p := by
  simp [tally]

/-- Replacing a process exchanges its weight. -/
theorem tally_set (at_i : processes[i]? = some p) :
    tally weight (processes.set i q) + weight p = tally weight processes + weight q := by
  induction processes generalizing i with
  | nil => cases at_i
  | cons head rest ih =>
    cases i with
    | zero =>
      simp only [getElem?_cons_zero, Option.some.injEq] at at_i
      simp only [set_cons_zero, tally_cons, at_i]
      omega
    | succ i =>
      have moved := ih (by simpa using at_i)
      simp only [set_cons_succ, tally_cons]
      omega

theorem weight_le_tally (at_i : processes[i]? = some p) : weight p ≤ tally weight processes := by
  induction processes generalizing i with
  | nil => cases at_i
  | cons head rest ih =>
    cases i with
    | zero =>
      simp only [getElem?_cons_zero, Option.some.injEq] at at_i
      rw [tally_cons, at_i]
      omega
    | succ i =>
      have below := ih (by simpa using at_i)
      rw [tally_cons]
      omega

/-- As many processes as there are places at which the predicate holds. -/
theorem tally_toNat {holds : π → Bool} : tally (fun p => (holds p).toNat) processes =
    ((range processes.length).filter fun i => processes[i]?.any holds).length := by
  induction processes using reverseRecOn with
  | nil => rfl
  | append_singleton rest last ih =>
    have before : ((range rest.length).filter fun i => (rest ++ [last])[i]?.any holds) =
        (range rest.length).filter fun i => rest[i]?.any holds := by
      refine filter_congr fun i mem => ?_
      rw [getElem?_append_left (mem_range.mp mem)]
    rw [tally_concat, ih, length_append, length_singleton, range_succ,
      filter_append, length_append, before]
    cases shown : holds last <;> simp [shown]

theorem tally_eq_zero (zero : ∀ p ∈ processes, weight p = 0) : tally weight processes = 0 := by
  induction processes with
  | nil => rfl
  | cons head rest ih =>
    rw [tally_cons, zero head mem_cons_self, ih fun p mem => zero p (.tail _ mem)]

theorem tally_le (le : ∀ p, weight p ≤ weight' p) :
    tally weight processes ≤ tally weight' processes := by
  induction processes with
  | nil => exact Nat.le_refl _
  | cons head rest ih =>
    exact Nat.add_le_add (le head) ih

theorem tally_eq_of_sole (at_i : processes[i]? = some p) (sole : tally weight processes ≤ weight p)
    (le : ∀ q, weight' q ≤ weight q) : tally weight' processes = weight' p := by
  induction processes generalizing i with
  | nil => cases at_i
  | cons head rest ih =>
    cases i with
    | zero =>
      simp only [getElem?_cons_zero, Option.some.injEq] at at_i
      have none_left : tally weight' rest ≤ tally weight rest := tally_le le
      rw [tally_cons, at_i] at sole
      rw [tally_cons, at_i]
      omega
    | succ i =>
      have held := @weight_le_tally _ weight rest p i (by simpa using at_i)
      have small := le head
      rw [tally_cons] at sole
      have same := ih (i := i) (by simpa using at_i) (by omega)
      rw [tally_cons]
      omega

end Tally

end AgentProtocols.Lib
