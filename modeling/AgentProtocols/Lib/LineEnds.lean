import Mathlib.Data.List.Basic

/-!
Lines that end with a carriage return, a line feed, or both. `cutEnds cr lf after` cuts a text into
lines and a rest; `cutEnds_append` reads it in two pieces. Without the flag `endsCr` a line end that
is cut in two counts twice (`cutEnds_cut`).
-/

namespace AgentProtocols.Lib

open List

variable {α : Type*} [DecidableEq α] (cr lf : α)

/-- One character more in the first line. -/
def consLine (c : α) : List (List α) × List α → List (List α) × List α
  | ([], rest) => ([], c :: rest)
  | (line :: lines, rest) => ((c :: line) :: lines, rest)

/-- The closed lines, without their ends, and the rest. -/
def cutEnds : Bool → List α → List (List α) × List α
  | _, [] => ([], [])
  | after, c :: cs =>
    if c = lf then
      if after then cutEnds false cs
      else ([] :: (cutEnds false cs).1, (cutEnds false cs).2)
    else if c = cr then ([] :: (cutEnds true cs).1, (cutEnds true cs).2)
    else consLine c (cutEnds false cs)

/-- A text that holds no line end. -/
def Unended (text : List α) : Prop := cr ∉ text ∧ lf ∉ text

/-- Whether a text ends with `cr`, when `after` says it of what came before. -/
def endsCr (after : Bool) (text : List α) : Bool :=
  match text.getLast? with
  | none => after
  | some c => c = cr

variable {cr lf} {after : Bool} {text line : List α}

omit [DecidableEq α] in
theorem Unended.tail {c : α} {cs : List α} (unended : Unended cr lf (c :: cs)) :
    c ≠ cr ∧ c ≠ lf ∧ Unended cr lf cs :=
  ⟨fun same => unended.1 (same ▸ mem_cons_self),
    fun same => unended.2 (same ▸ mem_cons_self),
    fun mem => unended.1 (mem_cons_of_mem _ mem),
    fun mem => unended.2 (mem_cons_of_mem _ mem)⟩

theorem cutEnds_of_unended (unended : Unended cr lf text) (after : Bool) :
    cutEnds cr lf after text = ([], text) := by
  induction text generalizing after with
  | nil => rfl
  | cons c cs ih =>
    obtain ⟨ne_cr, ne_lf, tail⟩ := unended.tail
    rw [cutEnds, if_neg ne_lf, if_neg ne_cr, ih tail, consLine]

theorem cutEnds_after (after : Bool) (head : text.head? ≠ some lf) :
    cutEnds cr lf after text = cutEnds cr lf false text := by
  cases text with
  | nil => rfl
  | cons c cs =>
    have ne_lf : c ≠ lf := fun same => head (by rw [same]; rfl)
    rw [cutEnds, cutEnds, if_neg ne_lf, if_neg ne_lf]

theorem cutEnds_true_lf (text : List α) :
    cutEnds cr lf true (lf :: text) = cutEnds cr lf false text := by
  rw [cutEnds, if_pos rfl, if_pos rfl]

theorem cutEnds_false_lf (text : List α) :
    cutEnds cr lf false (lf :: text) =
      ([] :: (cutEnds cr lf false text).1, (cutEnds cr lf false text).2) := by
  rw [cutEnds, if_pos rfl, if_neg Bool.false_ne_true]

theorem cutEnds_cr (ne : cr ≠ lf) (after : Bool) (text : List α) :
    cutEnds cr lf after (cr :: text) =
      ([] :: (cutEnds cr lf true text).1, (cutEnds cr lf true text).2) := by
  rw [cutEnds, if_neg ne, if_pos rfl]

theorem cutEnds_line {stop : α} {tail : List α} {lines : List (List α)} {rest : List α}
    (unended : Unended cr lf line) (nonempty : line ≠ [])
    (stopped : cutEnds cr lf false (stop :: tail) = ([] :: lines, rest)) (after : Bool) :
    cutEnds cr lf after (line ++ stop :: tail) = (line :: lines, rest) := by
  induction line generalizing after with
  | nil => exact absurd rfl nonempty
  | cons c cs ih =>
    obtain ⟨ne_cr, ne_lf, unended⟩ := unended.tail
    rw [cons_append, cutEnds, if_neg ne_lf, if_neg ne_cr]
    cases cs with
    | nil => rw [nil_append, stopped, consLine]
    | cons d ds => rw [ih unended (cons_ne_nil d ds), consLine]

theorem cutEnds_line_lf (unended : Unended cr lf line) (text : List α) :
    cutEnds cr lf false (line ++ lf :: text) =
      (line :: (cutEnds cr lf false text).1, (cutEnds cr lf false text).2) := by
  cases line with
  | nil => exact cutEnds_false_lf text
  | cons c cs => exact cutEnds_line unended (cons_ne_nil c cs) (cutEnds_false_lf text) false

theorem cutEnds_line_cr (ne : cr ≠ lf) (unended : Unended cr lf line) (after : Bool)
    (text : List α) :
    cutEnds cr lf after (line ++ cr :: text) =
      (line :: (cutEnds cr lf true text).1, (cutEnds cr lf true text).2) := by
  cases line with
  | nil => exact cutEnds_cr ne after text
  | cons c cs => exact cutEnds_line unended (cons_ne_nil c cs) (cutEnds_cr ne false text) after

theorem unended_or_line (cr lf : α) (text : List α) :
    Unended cr lf text ∨ ∃ line stop tail, Unended cr lf line ∧ (stop = cr ∨ stop = lf) ∧
      text = line ++ stop :: tail := by
  induction text with
  | nil => exact .inl ⟨not_mem_nil, not_mem_nil⟩
  | cons c cs ih =>
    by_cases stops : c = cr ∨ c = lf
    · exact .inr ⟨[], c, cs, ⟨not_mem_nil, not_mem_nil⟩, stops, rfl⟩
    · obtain ⟨ne_cr, ne_lf⟩ := not_or.mp stops
      have extend : ∀ {line : List α}, Unended cr lf line → Unended cr lf (c :: line) :=
        fun unended => ⟨not_mem_cons_of_ne_of_not_mem (Ne.symm ne_cr) unended.1,
          not_mem_cons_of_ne_of_not_mem (Ne.symm ne_lf) unended.2⟩
      rcases ih with unended | ⟨line, stop, tail, unended, stops, rfl⟩
      · exact .inl (extend unended)
      · exact .inr ⟨c :: line, stop, tail, extend unended, stops, rfl⟩

theorem endsCr_append (after : Bool) (text more : List α) :
    endsCr cr after (text ++ more) = endsCr cr (endsCr cr after text) more := by
  cases last : more.getLast? with
  | none =>
    rw [getLast?_eq_none_iff.mp last, append_nil]
    rfl
  | some c => simp only [endsCr, getLast?_append, last, Option.some_or]

theorem endsCr_cons (after : Bool) (c : α) (text : List α) :
    endsCr cr after (c :: text) = endsCr cr (c = cr) text :=
  endsCr_append after [c] text

/-- Reading on: the rest is put before what follows. -/
theorem cutEnds_append (ne : cr ≠ lf) (after : Bool) (text more : List α) :
    cutEnds cr lf after (text ++ more) = ((cutEnds cr lf after text).1 ++
          (cutEnds cr lf (endsCr cr after text) ((cutEnds cr lf after text).2 ++ more)).1,
        (cutEnds cr lf (endsCr cr after text) ((cutEnds cr lf after text).2 ++ more)).2) := by
  rcases unended_or_line cr lf text with unended | ⟨line, stop, tail, unended, stops, rfl⟩
  · rw [cutEnds_of_unended unended]
    cases text with
    | nil => rfl
    | cons c cs =>
      have head : ((c :: cs) ++ more).head? ≠ some lf :=
        fun same => unended.tail.2.1 (Option.some.inj same)
      rw [cutEnds_after after head, cutEnds_after (endsCr cr after (c :: cs)) head]
      rfl
  · have shorter : tail.length < (line ++ stop :: tail).length := by
      rw [length_append, length_cons]
      omega
    have ih := fun after => cutEnds_append ne after tail more
    rw [append_assoc, cons_append, endsCr_append, endsCr_cons]
    rcases stops with rfl | rfl
    · rw [cutEnds_line_cr ne unended, cutEnds_line_cr ne unended, ih true, decide_eq_true rfl]
      rfl
    · have flag : decide (stop = cr) = false := decide_eq_false (Ne.symm ne)
      rw [flag]
      by_cases skipped : line = [] ∧ after = true
      · obtain ⟨rfl, rfl⟩ := skipped
        rw [nil_append, nil_append, cutEnds_true_lf, cutEnds_true_lf, ih]
      · have unflagged : ∀ text, cutEnds cr stop after (line ++ stop :: text) =
            cutEnds cr stop false (line ++ stop :: text) := by
          intro text
          cases line with
          | nil =>
            have : after = false := by simpa using skipped
            rw [this]
          | cons c cs =>
            exact cutEnds_after after fun same => unended.tail.2.1 (Option.some.inj same)
        rw [unflagged, unflagged, cutEnds_line_lf unended, cutEnds_line_lf unended, ih]
        rfl
termination_by text.length

theorem unended_cutEnds (ne : cr ≠ lf) (after : Bool) (text : List α) :
    Unended cr lf (cutEnds cr lf after text).2 := by
  induction text generalizing after with
  | nil => exact ⟨not_mem_nil, not_mem_nil⟩
  | cons c cs ih =>
    by_cases is_lf : c = lf
    · subst is_lf
      cases after with
      | true =>
        rw [cutEnds_true_lf]
        exact ih false
      | false =>
        rw [cutEnds_false_lf]
        exact ih false
    · by_cases is_cr : c = cr
      · subst is_cr
        rw [cutEnds_cr ne]
        exact ih true
      · rw [cutEnds, if_neg is_lf, if_neg is_cr]
        have rest := ih false
        generalize cutEnds cr lf false cs = cut at rest ⊢
        obtain ⟨lines, last⟩ := cut
        cases lines with
        | nil =>
          exact ⟨not_mem_cons_of_ne_of_not_mem (Ne.symm is_cr) rest.1,
            not_mem_cons_of_ne_of_not_mem (Ne.symm is_lf) rest.2⟩
        | cons line lines => exact rest

theorem cutEnds_rest_of_endsCr (ne : cr ≠ lf) (text : List α)
    (ends : endsCr cr false text = true) : (cutEnds cr lf false text).2 = [] := by
  have parts : text = text.dropLast ++ [cr] := by
    unfold endsCr at ends
    split at ends
    · cases ends
    · rename_i c last
      rw [decide_eq_true_eq] at ends
      subst ends
      exact (dropLast_append_getLast? c last).symm
  rw [parts, cutEnds_append ne]
  have unended := unended_cutEnds ne false text.dropLast
  rw [cutEnds_line_cr ne unended]
  rfl

/-- After a `cr` that is forgotten, a second `lf` closes an empty line. -/
theorem cutEnds_cut (ne : cr ≠ lf) {text : List α} (ends : endsCr cr false text = true)
    (more : List α) :
    cutEnds cr lf false (text ++ lf :: more) =
      ((cutEnds cr lf false text).1 ++ (cutEnds cr lf false more).1,
        (cutEnds cr lf false more).2) := by
  rw [cutEnds_append ne, ends, cutEnds_rest_of_endsCr ne text ends]
  dsimp only [nil_append]
  rw [cutEnds_true_lf]

end AgentProtocols.Lib
