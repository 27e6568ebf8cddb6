import Mathlib.Data.List.Forall2

/-!
Glob patterns over an arbitrary alphabet: lists of tokens, a star or a set of letters.
`Glob.Matches` is what it means for a word to match. `sets_eq_of_agree`: patterns with as many sets,
none of them empty, that match the same words have the same sets.
-/

namespace AgentProtocols.Lib.Glob

open List

variable {α : Type*}

inductive Token (α : Type*) where
  | star
  | one (accepts : α → Bool)

/-- The word matches the pattern. -/
inductive Matches : List (Token α) → List α → Prop where
  | nil : Matches [] []
  | star {ts : List (Token α)} {word : List α} (skipped : List α) :
      Matches ts word → Matches (.star :: ts) (skipped ++ word)
  | one {ts : List (Token α)} {word : List α} {accepts : α → Bool} {letter : α} :
      accepts letter = true → Matches ts word → Matches (.one accepts :: ts) (letter :: word)

theorem matches_nil_iff {word : List α} : Matches ([] : List (Token α)) word ↔ word = [] := by
  constructor
  · rintro ⟨⟩
    rfl
  · rintro rfl
    exact .nil

theorem matches_star_iff {ts : List (Token α)} {word : List α} :
    Matches (.star :: ts) word ↔ ∃ n, n < word.length + 1 ∧ Matches ts (word.drop n) := by
  constructor
  · rintro (_ | ⟨skipped, rest⟩)
    refine ⟨skipped.length, ?_, ?_⟩
    · rw [length_append]
      omega
    · rwa [drop_left]
  · rintro ⟨n, -, rest⟩
    have whole := Matches.star (word.take n) rest
    rwa [take_append_drop] at whole

theorem matches_one_iff {ts : List (Token α)} {accepts : α → Bool} {word : List α} :
    Matches (.one accepts :: ts) word ↔ word.head?.any accepts = true ∧ Matches ts (word.drop 1) := by
  constructor
  · rintro (_ | _ | ⟨accepted, rest⟩)
    exact ⟨accepted, rest⟩
  · rintro ⟨accepted, rest⟩
    cases word with
    | nil => cases accepted
    | cons letter word => exact .one accepted rest

/-- Consecutive stars make one. -/
def compress : List (Token α) → List (Token α)
  | .star :: .star :: ts => compress (.star :: ts)
  | t :: ts => t :: compress ts
  | [] => []

theorem matches_compress {ts : List (Token α)} {word : List α} :
    Matches (compress ts) word ↔ Matches ts word := by
  fun_induction compress ts generalizing word with
  | case1 ts ih =>
    rw [ih]
    constructor
    · exact Matches.star []
    · rintro (_ | ⟨skipped, _ | ⟨more, rest⟩⟩)
      rw [← append_assoc]
      exact .star _ rest
  | case2 t ts other ih =>
    cases t with
    | star => rw [matches_star_iff, matches_star_iff]; simp only [ih]
    | one accepts => rw [matches_one_iff, matches_one_iff, ih]
  | case3 => rfl

/-! ### The sets of a pattern -/

/-- The sets of a pattern, without its stars. -/
def sets : List (Token α) → List (α → Bool)
  | [] => []
  | .star :: ts => sets ts
  | .one accepts :: ts => accepts :: sets ts

variable {ts ts' : List (Token α)} {word : List α} {S S' : List (α → Bool)}

theorem Matches.length_le (matched : Matches ts word) : (sets ts).length ≤ word.length := by
  induction matched with
  | nil => exact Nat.le_refl _
  | star skipped rest ih =>
    rw [length_append]
    exact Nat.le_trans ih (Nat.le_add_left _ _)
  | one accepted rest ih => exact Nat.succ_le_succ ih

theorem Matches.inhabited (matched : Matches ts word) : ∀ accepts ∈ sets ts, ∃ c, accepts c = true := by
  induction matched with
  | nil => exact nofun
  | star skipped rest ih => exact ih
  | one accepted rest ih =>
    intro accepts mem
    rcases mem_cons.mp mem with rfl | mem
    · exact ⟨_, accepted⟩
    · exact ih accepts mem

abbrev Fits (S : List (α → Bool)) (word : List α) : Prop :=
  List.Forall₂ (fun accepts c => accepts c = true) S word

/-- A word of the least length has a letter for each set. -/
theorem matches_iff_fits (least : word.length = (sets ts).length) :
    Matches ts word ↔ Fits (sets ts) word := by
  constructor
  · intro matched
    induction matched with
    | nil => exact .nil
    | star skipped rest ih =>
      have long := rest.length_le
      rw [length_append, sets] at least
      have none_ : skipped = [] := eq_nil_of_length_eq_zero (by omega)
      subst none_
      exact ih (by simpa using least)
    | one accepted rest ih => exact .cons accepted (ih (Nat.succ.inj least))
  · clear least
    intro fits
    induction ts generalizing word with
    | nil =>
      cases fits
      exact .nil
    | cons t ts ih =>
      cases t with
      | star => exact .star [] (ih fits)
      | one accepts =>
        cases fits with
        | cons accepted rest => exact .one accepted (ih rest)

theorem exists_fits (inhabited : ∀ accepts ∈ S, ∃ c, accepts c = true) : ∃ word, Fits S word := by
  induction S with
  | nil => exact ⟨[], .nil⟩
  | cons accepts S ih =>
    obtain ⟨c, accepted⟩ := inhabited accepts mem_cons_self
    obtain ⟨word, fits⟩ := ih fun a mem => inhabited a (.tail _ mem)
    exact ⟨c :: word, .cons accepted fits⟩

theorem eq_of_fits (inhabited : ∀ accepts ∈ S, ∃ c, accepts c = true)
    (same : ∀ word, Fits S word ↔ Fits S' word) : S = S' := by
  induction S generalizing S' with
  | nil =>
    cases (same []).mp .nil
    rfl
  | cons accepts S ih =>
    obtain ⟨c, accepted⟩ := inhabited accepts mem_cons_self
    obtain ⟨word, fits⟩ := exists_fits fun a mem => inhabited a (.tail _ mem)
    cases (same (c :: word)).mp (.cons accepted fits) with
    | @cons accepts' _ S' _ accepted' fits' =>
      have step : ∀ d w, accepts d = true ∧ Fits S w ↔ accepts' d = true ∧ Fits S' w := by
        intro d w
        have whole := same (d :: w)
        rwa [Fits, Fits, forall₂_cons, forall₂_cons] at whole
      have heads : accepts = accepts' := by
        funext d
        rw [Bool.eq_iff_iff]
        simpa only [fits, fits', and_true] using step d word
      rw [heads, ih (fun a mem => inhabited a (.tail _ mem)) fun w => ?_]
      simpa only [accepted, accepted', true_and] using step c w

/-- Patterns that match the same words have the same sets. -/
theorem sets_eq_of_agree (long : (sets ts).length = (sets ts').length)
    (inhabited : ∀ accepts ∈ sets ts, ∃ c, accepts c = true)
    (agree : ∀ word, Matches ts word ↔ Matches ts' word) : sets ts = sets ts' := by
  refine eq_of_fits inhabited fun word => ?_
  by_cases least : word.length = (sets ts).length
  · rw [← matches_iff_fits least, ← matches_iff_fits (least.trans long), agree]
  · constructor
    · exact fun fits => absurd fits.length_eq.symm least
    · exact fun fits => absurd (fits.length_eq.symm.trans long.symm) least

end AgentProtocols.Lib.Glob
