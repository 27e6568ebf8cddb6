import Mathlib.Data.List.Basic

/-!
Lines of a text that arrives in pieces. `splitLines sep` cuts a whole text, `cutLines sep` one that
is read piece by piece, with the same lines (`cutLines_flatten`). `filter_map_eq_iff` compares two
readings of the same lines.
-/

namespace AgentProtocols.Lib

open List

variable {α : Type*} [DecidableEq α] {sep : α}

/-- The lines of a text that end with a separator, without it, and what follows
the last separator. -/
def splitLines (sep : α) : List α → List (List α) × List α
  | [] => ([], [])
  | c :: cs =>
    if c = sep then ([] :: (splitLines sep cs).1, (splitLines sep cs).2)
    else
      match (splitLines sep cs).1 with
      | [] => ([], c :: (splitLines sep cs).2)
      | line :: lines => ((c :: line) :: lines, (splitLines sep cs).2)

@[simp] theorem splitLines_nil : splitLines sep [] = ([], []) := rfl

theorem splitLines_sep (cs : List α) :
    splitLines sep (sep :: cs) = ([] :: (splitLines sep cs).1, (splitLines sep cs).2) := by
  simp [splitLines]

theorem splitLines_of_not_mem {text : List α} (absent : sep ∉ text) :
    splitLines sep text = ([], text) := by
  induction text with
  | nil => rfl
  | cons c cs ih =>
    have ne : c ≠ sep := fun same => absent (same ▸ mem_cons_self)
    have rest := ih fun mem => absent (mem_cons_of_mem _ mem)
    simp [splitLines, ne, rest]

theorem splitLines_line {line : List α} (absent : sep ∉ line) (text : List α) :
    splitLines sep (line ++ sep :: text) =
      (line :: (splitLines sep text).1, (splitLines sep text).2) := by
  induction line with
  | nil => exact splitLines_sep text
  | cons c cs ih =>
    have ne : c ≠ sep := fun same => absent (same ▸ mem_cons_self)
    have rest := ih fun mem => absent (mem_cons_of_mem _ mem)
    rw [cons_append, splitLines, if_neg ne, rest]

theorem splitLines_cases (sep : α) (text : List α) :
    sep ∉ text ∨ ∃ line tail, sep ∉ line ∧ text = line ++ sep :: tail := by
  induction text with
  | nil => exact .inl not_mem_nil
  | cons c cs ih =>
    by_cases same : c = sep
    · exact .inr ⟨[], cs, not_mem_nil, by simp [same]⟩
    · rcases ih with absent | ⟨line, tail, absent, rfl⟩
      · refine .inl fun mem => ?_
        rcases mem_cons.mp mem with here | there
        · exact same here.symm
        · exact absent there
      · refine .inr ⟨c :: line, tail, fun mem => ?_, rfl⟩
        rcases mem_cons.mp mem with here | there
        · exact same here.symm
        · exact absent there

theorem splitLines_induction (sep : α) {P : List α → Prop}
    (rest : ∀ text, sep ∉ text → P text)
    (line : ∀ line tail, sep ∉ line → P tail → P (line ++ sep :: tail)) (text : List α) :
    P text := by
  rcases splitLines_cases sep text with absent | ⟨l, tail, absent, same⟩
  · exact rest text absent
  · rw [same]
    exact line l tail absent (splitLines_induction sep rest line tail)
termination_by text.length

theorem not_mem_splitLines_rest (sep : α) (text : List α) : sep ∉ (splitLines sep text).2 := by
  induction text using splitLines_induction sep with
  | rest text absent => rwa [splitLines_of_not_mem absent]
  | line line tail absent ih => rwa [splitLines_line absent]

theorem splitLines_append (text more : List α) :
    splitLines sep (text ++ more) =
      ((splitLines sep text).1 ++ (splitLines sep ((splitLines sep text).2 ++ more)).1,
        (splitLines sep ((splitLines sep text).2 ++ more)).2) := by
  induction text using splitLines_induction sep with
  | rest text absent => rw [splitLines_of_not_mem absent, nil_append]
  | line line tail absent ih =>
    rw [splitLines_line absent, append_assoc, cons_append, splitLines_line absent, ih]
    rfl

theorem splitLines_before {start line : List α} {lines : List (List α)} (absent : sep ∉ start)
    {text : List α} (first : (splitLines sep text).1 = line :: lines) :
    splitLines sep (start ++ text) = ((start ++ line) :: lines, (splitLines sep text).2) := by
  rcases splitLines_cases sep text with none_ | ⟨l, tail, absent', rfl⟩
  · rw [splitLines_of_not_mem none_] at first
    cases first
  · rw [splitLines_line absent'] at first ⊢
    cases first
    have outside : sep ∉ start ++ line := fun mem =>
      (mem_append.mp mem).elim absent absent'
    rw [← append_assoc, splitLines_line outside]

theorem splitLines_no_line {text : List α} (none_ : (splitLines sep text).1 = []) :
    sep ∉ text := by
  rcases splitLines_cases sep text with absent | ⟨l, tail, absent, rfl⟩
  · exact absent
  · rw [splitLines_line absent] at none_
    cases none_

/-! ### Lines cut into parts -/

/-- What one more piece does to a text that is read piece by piece. -/
def cutPiece (sep : α) (parts : List (List α)) (piece : List α) :
    List (List (List α)) × List (List α) :=
  match (splitLines sep piece).1 with
  | [] => ([], parts ++ [piece])
  | line :: lines =>
    ((parts ++ [line]) :: lines.map (fun line => [line]),
      if (splitLines sep piece).2 = [] then [] else [(splitLines sep piece).2])

/-- As `splitLines`, for a text read piece by piece when `parts` of a line are
open. -/
def cutLines (sep : α) : List (List α) → List (List α) → List (List (List α)) × List (List α)
  | parts, [] => ([], parts)
  | parts, piece :: pieces =>
    ((cutPiece sep parts piece).1 ++ (cutLines sep (cutPiece sep parts piece).2 pieces).1,
      (cutLines sep (cutPiece sep parts piece).2 pieces).2)

theorem cutLines_concat (piece : List α) : ∀ (parts pieces : List (List α)),
    cutLines sep parts (pieces ++ [piece]) =
      ((cutLines sep parts pieces).1 ++ (cutPiece sep (cutLines sep parts pieces).2 piece).1,
        (cutPiece sep (cutLines sep parts pieces).2 piece).2)
  | parts, [] => by simp [cutLines]
  | parts, p :: pieces => by
    rw [cons_append, cutLines, cutLines_concat piece _ pieces, cutLines, append_assoc]

theorem cutPiece_flatten {parts : List (List α)} (absent : sep ∉ parts.flatten) (piece : List α) :
    splitLines sep (parts.flatten ++ piece) =
      ((cutPiece sep parts piece).1.map flatten, (cutPiece sep parts piece).2.flatten) := by
  rw [cutPiece]
  cases found : (splitLines sep piece).1 with
  | nil =>
    have absent' : sep ∉ parts.flatten ++ piece := fun mem =>
      (mem_append.mp mem).elim absent (splitLines_no_line found)
    rw [splitLines_of_not_mem absent']
    simp
  | cons line lines =>
    rw [splitLines_before absent found]
    congr 1
    · simp only [map_cons, map_map, flatten_append, flatten_singleton]
      congr 1
      exact (map_id _).symm.trans (map_congr_left fun l _ => by simp)
    · by_cases none_ : (splitLines sep piece).2 = [] <;> simp [none_]

/-- The parts of the lines put together are the lines of the text. -/
theorem cutLines_flatten : ∀ {pieces parts : List (List α)}, sep ∉ parts.flatten →
    splitLines sep (parts.flatten ++ pieces.flatten) =
      ((cutLines sep parts pieces).1.map flatten, (cutLines sep parts pieces).2.flatten)
  | [], parts, absent => by
    rw [flatten_nil, append_nil, splitLines_of_not_mem absent]
    rfl
  | piece :: pieces, parts, absent => by
    have first := cutPiece_flatten absent piece
    have rest := not_mem_splitLines_rest sep (parts.flatten ++ piece)
    rw [first] at rest
    rw [cutLines, flatten_cons, ← append_assoc, splitLines_append, first,
      cutLines_flatten rest, map_append]

/-- All parts of a line but the last one hold something. -/
def Parted (line : List (List α)) : Prop :=
  ∃ parts last, line = parts ++ [last] ∧ ∀ part ∈ parts, part ≠ []

theorem parted_of_mem_cutPiece {parts : List (List α)} (open_ : ∀ part ∈ parts, part ≠ [])
    {piece : List α} (some_ : piece ≠ []) :
    (∀ line ∈ (cutPiece sep parts piece).1, Parted line) ∧
      ∀ part ∈ (cutPiece sep parts piece).2, part ≠ [] := by
  rw [cutPiece]
  cases (splitLines sep piece).1 with
  | nil =>
    refine ⟨fun line mem => absurd mem not_mem_nil, fun part mem => ?_⟩
    rcases mem_append.mp mem with mem | mem
    · exact open_ part mem
    · rw [mem_singleton.mp mem]
      exact some_
  | cons line lines =>
    refine ⟨fun l mem => ?_, fun part mem => ?_⟩
    · rcases mem_cons.mp mem with rfl | mem
      · exact ⟨parts, line, rfl, open_⟩
      · obtain ⟨l', -, rfl⟩ := mem_map.mp mem
        exact ⟨[], l', rfl, fun part mem => absurd mem not_mem_nil⟩
    · dsimp only at mem
      split at mem
      · cases mem
      · rename_i rest
        rw [mem_singleton.mp mem]
        exact rest

theorem parted_of_mem_cutLines : ∀ {pieces parts : List (List α)},
    (∀ part ∈ parts, part ≠ []) → (∀ piece ∈ pieces, piece ≠ []) →
      ∀ line ∈ (cutLines sep parts pieces).1, Parted line
  | [], _, _, _, line, mem => absurd mem not_mem_nil
  | piece :: pieces, parts, open_, some_, line, mem => by
    obtain ⟨closed, open_'⟩ := parted_of_mem_cutPiece open_ (some_ piece mem_cons_self)
    rcases mem_append.mp mem with mem | mem
    · exact closed line mem
    · exact parted_of_mem_cutLines open_'
        (fun p later => some_ p (mem_cons_of_mem _ later)) line mem

/-! ### Dropping empty results -/

section Results

variable {β : Type*} {f g : β → List α} {items : List β}

omit [DecidableEq α] in
theorem length_filter_map_le (fewer : ∀ x ∈ items, g x = [] → f x = []) :
    ((items.map f).filter (· ≠ [])).length ≤ ((items.map g).filter (· ≠ [])).length := by
  induction items with
  | nil => exact Nat.le_refl _
  | cons x items ih =>
    have rest := ih fun y mem => fewer y (mem_cons_of_mem _ mem)
    have here := fewer x mem_cons_self
    by_cases none_ : f x = [] <;> by_cases none_' : g x = []
    · simpa [none_, none_'] using rest
    · simp only [map_cons, none_, none_', ne_eq, not_true_eq_false, not_false_eq_true,
        decide_true, decide_false, filter_cons_of_pos, length_cons, filter_cons]
      simp only [ne_eq] at rest
      exact Nat.le_succ_of_le rest
    · exact absurd (here none_') none_
    · simpa [none_, none_'] using rest

omit [DecidableEq α] in
/-- Two ways of reading give one list exactly when they agree on every item. -/
theorem filter_map_eq_iff (fewer : ∀ x ∈ items, g x = [] → f x = []) :
    (items.map f).filter (· ≠ []) = (items.map g).filter (· ≠ []) ↔ ∀ x ∈ items, f x = g x := by
  constructor
  · intro same
    induction items with
    | nil => exact fun x mem => absurd mem not_mem_nil
    | cons x items ih =>
      have fewer' : ∀ y ∈ items, g y = [] → f y = [] :=
        fun y mem => fewer y (mem_cons_of_mem _ mem)
      have shorter := length_filter_map_le fewer'
      have here := fewer x mem_cons_self
      rw [map_cons, map_cons] at same
      have both : f x = g x ∧ (items.map f).filter (· ≠ []) = (items.map g).filter (· ≠ []) := by
        by_cases none_ : f x = []
        · by_cases none_' : g x = []
          · refine ⟨none_.trans none_'.symm, ?_⟩
            simpa [none_, none_'] using same
          · -- the second list would be longer
            rw [filter_cons_of_neg (by simpa using none_),
              filter_cons_of_pos (by simpa using none_')] at same
            have longer := congrArg length same
            rw [length_cons] at longer
            omega
        · have none_' : g x ≠ [] := fun none_' => none_ (here none_')
          rw [filter_cons_of_pos (by simpa using none_),
            filter_cons_of_pos (by simpa using none_')] at same
          exact cons.inj same
      intro y mem
      rcases mem_cons.mp mem with rfl | mem
      · exact both.1
      · exact ih fewer' both.2 y mem
  · intro same
    rw [map_congr_left same]

end Results

end AgentProtocols.Lib
