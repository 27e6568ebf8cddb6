import Mathlib.Data.List.DropRight
import Mathlib.Data.List.Infix

/-!
Path texts and their lexical normal form, which keeps a leading slash and the segments that are
neither empty nor `.`. `mem_splitOnP_iff` says what a segment is without a split.
-/

namespace AgentProtocols.Lib

open List

/-! ### Splitting -/

section

variable {α : Type*} {p : α → Bool}

theorem plain_or_first_separator : ∀ text : List α,
    (∀ c ∈ text, p c = false) ∨
      ∃ first sep rest, text = first ++ sep :: rest ∧ (∀ c ∈ first, p c = false) ∧ p sep = true
  | [] => .inl nofun
  | c :: text => by
    cases isSep : p c with
    | true => exact .inr ⟨[], c, text, rfl, nofun, isSep⟩
    | false =>
      rcases plain_or_first_separator text with plain | ⟨first, sep, rest, rfl, plain, at_sep⟩
      · exact .inl (forall_mem_cons.mpr ⟨isSep, plain⟩)
      · exact .inr ⟨c :: first, sep, rest, rfl, forall_mem_cons.mpr ⟨isSep, plain⟩, at_sep⟩

theorem mem_splitOnP_iff {part text : List α} :
    part ∈ text.splitOnP p ↔
      (∀ c ∈ part, p c = false) ∧ ∃ before after, text = before ++ part ++ after ∧
        (∀ c ∈ before.getLast?, p c = true) ∧ ∀ c ∈ after.head?, p c = true := by
  constructor
  · induction h : text.length using Nat.strong_induction_on generalizing text with
    | _ n ih =>
      intro mem
      rcases @plain_or_first_separator α p text with plain | ⟨first, sep, rest, rfl, plain, at_sep⟩
      · rw [splitOnP_eq_singleton plain, mem_singleton] at mem
        subst mem
        exact ⟨plain, [], [], by simp, nofun, nofun⟩
      · rw [splitOnP_append_cons_of_forall_mem plain sep at_sep] at mem
        rcases mem_cons.mp mem with rfl | mem
        · refine ⟨plain, [], sep :: rest, rfl, nofun, ?_⟩
          rintro c ⟨⟩
          exact at_sep
        · have shorter : rest.length < n := by
            rw [← h, length_append, length_cons]
            omega
          obtain ⟨plainPart, before, after, rfl, start, stop⟩ := ih _ shorter rfl mem
          refine ⟨plainPart, first ++ sep :: before, after, by simp, ?_, stop⟩
          rw [getLast?_append_cons]
          cases before with
          | nil =>
            rintro c ⟨⟩
            exact at_sep
          | cons d before => rwa [getLast?_cons_cons]
  · rintro ⟨plain, before, after, rfl, start, stop⟩
    have first : part ∈ (part ++ after).splitOnP p := by
      cases after with
      | nil => rw [append_nil, splitOnP_eq_singleton plain]; exact mem_singleton_self _
      | cons sep rest =>
        rw [splitOnP_append_cons_of_forall_mem plain sep (stop sep rfl)]
        exact mem_cons_self
    rcases eq_nil_or_concat' before with rfl | ⟨before, sep, rfl⟩
    · exact first
    · have at_sep : p sep = true := start sep (by simp)
      rw [append_assoc, append_assoc, singleton_append,
        splitOnP_append_cons before (part ++ after) at_sep]
      exact mem_append_right _ first

theorem head_splitOnP {first text : List α} {later : List (List α)}
    (parts : text.splitOnP p = first :: later) :
    (∀ c ∈ first, p c = false) ∧
      (text = first ∨ ∃ sep rest, p sep = true ∧ text = first ++ sep :: rest) := by
  rcases @plain_or_first_separator α p text with plain | ⟨first', sep, rest, rfl, plain, at_sep⟩
  · rw [splitOnP_eq_singleton plain] at parts
    cases parts
    exact ⟨plain, .inl rfl⟩
  · rw [splitOnP_append_cons_of_forall_mem plain sep at_sep] at parts
    cases parts
    exact ⟨plain, .inr ⟨sep, rest, at_sep, rfl⟩⟩

theorem rdropWhile_append_cons {front back : List α} {c : α} (stays : p c = false) :
    (front ++ c :: back).rdropWhile p = front ++ c :: back.rdropWhile p := by
  have backwards : (front ++ c :: back).reverse = back.reverse ++ c :: front.reverse := by simp
  rw [List.rdropWhile, List.rdropWhile, backwards, List.dropWhile_append]
  split
  · rename_i all
    rw [List.isEmpty_iff] at all
    rw [all, List.dropWhile_cons_of_neg (by simp [stays])]
    simp
  · simp

end

/-! ### Normal forms -/

/-- The texts between the slashes of a path. -/
def segments (path : List Char) : List (List Char) := path.splitOnP (· == '/')

/-- The normal form of a path: no repeated slashes, no `.` components. -/
structure NormalPath where
  absolute : Bool
  components : List (List Char)
  proper : ∀ c ∈ components, c ≠ [] ∧ c ≠ ['.']

def components (path : List Char) : List (List Char) :=
  (segments path).filter fun s => s != [] && s != ['.']

theorem mem_components {path s : List Char} :
    s ∈ components path ↔ s ∈ segments path ∧ s ≠ [] ∧ s ≠ ['.'] := by
  rw [components, mem_filter, Bool.and_eq_true, bne_iff_ne, bne_iff_ne]

def normalize (path : List Char) : NormalPath where
  absolute := path.head? == some '/'
  components := components path
  proper _ mem := (mem_components.mp mem).2

def NormalPath.AtOrBelow (path directory : NormalPath) : Prop :=
  path.absolute = directory.absolute ∧ directory.components <+: path.components

def NormalPath.IsRoot (path : NormalPath) : Prop := path.absolute = true ∧ path.components = []

end AgentProtocols.Lib
