import AgentProtocols.Lib.Paths
import AgentProtocols.Shared.EnvPolicy
import Mathlib.Data.Bool.AllAny

/-!
Which paths the safe-path rule lets through. It compares texts: `safe_path_exact_iff` says that all
accepted paths are safe but those that start with an empty or `.` segment.
-/

namespace AgentProtocols.Shared.Env

open Lib List

open A4P (isWhitespace trim)

def systemNames : List (List Char) :=
  ["etc".toList, "proc".toList, "sys".toList, "dev".toList, "boot".toList, "bin".toList,
    "sbin".toList, "usr".toList, "lib".toList, "root".toList]

variable {name path : List Char} {value : String}

theorem exists_forbidden_of_name (system : name ∈ systemNames) :
    ∃ directory ∈ forbidden, directory ≠ "" ∧ directory ≠ "/" ∧ directory.toList = '/' :: name := by
  have all : ∀ name ∈ systemNames, ∃ directory ∈ forbidden,
      directory ≠ "" ∧ directory ≠ "/" ∧ directory.toList = '/' :: name := by decide
  exact all name system

theorem exists_name_of_forbidden {directory : String} (mem : directory ∈ forbidden)
    (notEmpty : directory ≠ "") (notRoot : directory ≠ "/") :
    ∃ name ∈ systemNames, directory.toList = '/' :: name := by
  have all : ∀ directory ∈ forbidden, directory ≠ "" → directory ≠ "/" →
      ∃ name ∈ systemNames, directory.toList = '/' :: name := by decide
  exact all directory mem notEmpty notRoot

/-- The path is neither the root nor a listed directory nor below one, and has no `..`
component. -/
def SafePath (path : List Char) : Prop :=
  ¬ (normalize path).IsRoot ∧
    (∀ directory ∈ forbidden, directory ≠ "" → directory ≠ "/" →
      ¬ (normalize path).AtOrBelow (normalize directory.toList)) ∧
    "..".toList ∉ (normalize path).components

theorem systemName_letters (system : name ∈ systemNames) : name ≠ [] ∧ name ≠ ['.'] ∧
      ∀ c ∈ name, (c == '/') = false ∧ isWhitespace c = false ∧ c ≠ '.' := by
  have all : ∀ name ∈ systemNames, name ≠ [] ∧ name ≠ ['.'] ∧ (name.all fun c => decide
      ((c == '/') = false ∧ isWhitespace c = false ∧ c ≠ '.')) = true := by decide
  obtain ⟨nonempty, other, letters⟩ := all name system
  exact ⟨nonempty, other, all_iff_forall_prop.mp letters⟩

/-! ### Safe paths by their first component -/

theorem segments_slash (path : List Char) : segments ('/' :: path) = [] :: segments path := by
  rw [segments, splitOnP_cons_eq_if_modifyHead, if_pos (beq_self_eq_true _), segments]

theorem components_slash (path : List Char) : components ('/' :: path) = components path := by
  rfl

theorem atOrBelow_name_iff (system : name ∈ systemNames) :
    (normalize path).AtOrBelow (normalize ('/' :: name)) ↔
      path.head? = some '/' ∧ (components path).head? = some name := by
  obtain ⟨notEmpty, notDot, letters⟩ := systemName_letters system
  have one : components ('/' :: name) = [name] := by
    have single : segments name = [name] :=
      splitOnP_eq_singleton fun c mem => (letters c mem).1
    rw [components_slash, components, single, filter_cons_of_pos (by simp [notEmpty, notDot])]
    rfl
  change (path.head? == some '/') = true ∧ components ('/' :: name) <+: components path ↔ _
  rw [one, beq_iff_eq]
  refine and_congr_right fun _ => ?_
  cases components path with
  | nil => simp
  | cons first rest => simp [eq_comm]

theorem safePath_iff : SafePath path ↔ (path.head? = some '/' → components path ≠ [] ∧
        ∀ name ∈ systemNames, (components path).head? ≠ some name) ∧
      "..".toList ∉ components path := by
  have root : (normalize path).IsRoot ↔ path.head? = some '/' ∧ components path = [] := by
    change (path.head? == some '/') = true ∧ components path = [] ↔ _
    rw [beq_iff_eq]
  have system : (∀ directory ∈ forbidden, directory ≠ "" → directory ≠ "/" →
      ¬ (normalize path).AtOrBelow (normalize directory.toList)) ↔
        ∀ name ∈ systemNames, ¬ (path.head? = some '/' ∧ (components path).head? = some name) := by
    constructor
    · intro outside name mem
      obtain ⟨directory, listed, notEmpty, notRoot, text⟩ := exists_forbidden_of_name mem
      rw [← atOrBelow_name_iff mem, ← text]
      exact outside directory listed notEmpty notRoot
    · intro outside directory listed notEmpty notRoot
      obtain ⟨name, mem, text⟩ := exists_name_of_forbidden listed notEmpty notRoot
      rw [text, atOrBelow_name_iff mem]
      exact outside name mem
  rw [SafePath, root, system]
  by_cases absolute : path.head? = some '/'
  · simp only [absolute, true_and, forall_const]
    exact and_assoc.symm
  · simp only [absolute, false_and, not_false_eq_true, implies_true, true_and, false_imp_iff]
    rfl

/-! ### The forbidden texts -/

theorem isForbidden_iff {normalized : List Char} :
    isForbidden normalized = true ↔ normalized = [] ∨ normalized = ['/'] ∨
      ∃ name ∈ systemNames, normalized = '/' :: name ∨ '/' :: name ++ ['/'] <+: normalized := by
  unfold isForbidden
  rw [Bool.or_eq_true, any_eq_true, any_eq_true]
  constructor
  · rintro (⟨directory, mem, same⟩ | ⟨directory, mem, below⟩)
    · rw [beq_iff_eq] at same
      subst same
      by_cases notEmpty : directory = ""
      · exact .inl (by rw [notEmpty]; rfl)
      by_cases notRoot : directory = "/"
      · exact .inr (.inl (by rw [notRoot]; rfl))
      obtain ⟨name, system, text⟩ := exists_name_of_forbidden mem notEmpty notRoot
      exact .inr (.inr ⟨name, system, .inl text⟩)
    · rw [Bool.and_eq_true, Bool.and_eq_true, bne_iff_ne, bne_iff_ne,
        isPrefixOf_iff_prefix, String.toList_append] at below
      obtain ⟨⟨notEmpty, notRoot⟩, below⟩ := below
      obtain ⟨name, system, text⟩ := exists_name_of_forbidden mem notEmpty notRoot
      rw [text] at below
      exact .inr (.inr ⟨name, system, .inr below⟩)
  · rintro (rfl | rfl | ⟨name, system, same | below⟩)
    · exact .inl ⟨"", by decide, by decide⟩
    · exact .inl ⟨"/", by decide, by decide⟩
    · obtain ⟨directory, mem, -, -, text⟩ := exists_forbidden_of_name system
      exact .inl ⟨directory, mem, by rw [text, same]; exact beq_self_eq_true _⟩
    · obtain ⟨directory, mem, notEmpty, notRoot, text⟩ := exists_forbidden_of_name system
      refine .inr ⟨directory, mem, ?_⟩
      rw [Bool.and_eq_true, Bool.and_eq_true, bne_iff_ne, bne_iff_ne,
        isPrefixOf_iff_prefix, String.toList_append, text]
      exact ⟨⟨notEmpty, notRoot⟩, below⟩

/-! ### What is compared with them -/

theorem normalizedPath_eq (absolute : value.toList.head? = some '/') : normalizedPath value =
      (value.toList.rdropWhile isWhitespace).rdropWhile (· == '/') := by
  have start : value.toList.dropWhile isWhitespace = value.toList := by
    cases chars : value.toList with
    | nil => rfl
    | cons c rest =>
      rw [chars] at absolute
      cases absolute
      exact dropWhile_cons_of_neg (by decide)
  rw [normalizedPath, trim, String.toList_ofList, start]

theorem normalizedPath_front (absolute : value.toList.head? = some '/') :
    normalizedPath value <+: value.toList := by
  rw [normalizedPath_eq absolute]
  exact (List.rdropWhile_prefix _ _).trans (List.rdropWhile_prefix _ _)

theorem isForbidden_of_name {later : List (List Char)}
    (text : value.toList = '/' :: path) (system : name ∈ systemNames)
    (first : segments path = name :: later) : isForbidden (normalizedPath value) = true := by
  obtain ⟨notEmpty, -, letters⟩ := systemName_letters system
  obtain ⟨init, last, rfl⟩ := (eq_nil_or_concat' name).resolve_left notEmpty
  obtain ⟨notSlash, notWhite, -⟩ := letters last (by simp)
  obtain ⟨back, rfl, backStart⟩ : ∃ back, path = init ++ last :: back ∧
      ∀ c ∈ back.head?, c = '/' := by
    rcases (head_splitOnP first).2 with rfl | ⟨sep, rest, isSlash, rfl⟩
    · exact ⟨[], rfl, nofun⟩
    · refine ⟨sep :: rest, by simp, ?_⟩
      rintro c ⟨⟩
      exact beq_iff_eq.mp isSlash
  have rest : normalizedPath value = '/' :: init ++ last ::
      (back.rdropWhile isWhitespace).rdropWhile (· == '/') := by
    rw [normalizedPath_eq (by rw [text]; rfl), text, ← cons_append,
      rdropWhile_append_cons notWhite,
      @rdropWhile_append_cons _ (· == '/') _ _ last notSlash]
  obtain ⟨dropped, isPrefix⟩ : (back.rdropWhile isWhitespace).rdropWhile (· == '/') <+: back :=
    (List.rdropWhile_prefix _ _).trans (List.rdropWhile_prefix _ _)
  rw [isForbidden_iff]
  refine .inr (.inr ⟨init ++ [last], system, ?_⟩)
  rw [rest]
  cases stripped : (back.rdropWhile isWhitespace).rdropWhile (· == '/') with
  | nil => exact .inl (by simp)
  | cons c later =>
    rw [stripped] at isPrefix
    rw [← isPrefix] at backStart
    obtain rfl := backStart c rfl
    exact .inr ⟨later, by simp⟩

theorem not_isForbidden {s : List Char} {rest : List (List Char)}
    (start : segments value.toList = [] :: s :: rest) (blank : s = [] ∨ s = ['.'])
    (letter : ∃ c ∈ value.toList, c ≠ '/' ∧ isWhitespace c = false) :
    isForbidden (normalizedPath value) = false := by
  obtain ⟨path, text⟩ : ∃ path, value.toList = '/' :: path := by
    obtain ⟨-, empty | ⟨sep, path, isSlash, text⟩⟩ := head_splitOnP start
    · rw [empty] at start
      cases start
    · rw [beq_iff_eq] at isSlash
      exact ⟨path, by rw [text, isSlash]; rfl⟩
  have absolute : value.toList.head? = some '/' := by rw [text]; rfl
  rw [Bool.eq_false_iff, ne_eq, isForbidden_iff]
  rintro (nothing | slash | ⟨name, system, same⟩)
  · obtain ⟨c, mem, notSlash, notWhite⟩ := letter
    rw [normalizedPath_eq absolute, rdropWhile_eq_nil_iff] at nothing
    obtain ⟨front, back, whole⟩ := append_of_mem mem
    refine notSlash (beq_iff_eq.mp (nothing c ?_))
    rw [whole, rdropWhile_append_cons notWhite]
    exact mem_append_right _ mem_cons_self
  · have fixed := rdropWhile_idempotent (· == '/') (value.toList.rdropWhile isWhitespace)
    rw [← normalizedPath_eq absolute, slash] at fixed
    cases fixed
  · -- the first segment would start with a letter of the name
    obtain ⟨notEmpty, -, letters⟩ := systemName_letters system
    obtain ⟨tail, whole⟩ : '/' :: name <+: value.toList := by
      refine List.IsPrefix.trans ?_ (normalizedPath_front absolute)
      rcases same with same | below
      · rw [same]
      · exact (prefix_append _ _).trans below
    obtain ⟨c, name, rfl⟩ := exists_cons_of_ne_nil notEmpty
    obtain ⟨notSlash, -, notDot⟩ := letters c mem_cons_self
    rw [← whole, cons_append, segments_slash, cons.injEq] at start
    obtain ⟨-, isFirst | ⟨sep, later, isSlash, isFirst⟩⟩ := head_splitOnP start.2
    · rcases blank with rfl | rfl
      · exact cons_ne_nil _ _ isFirst
      · exact notDot (cons.inj isFirst).1
    · rcases blank with rfl | rfl
      · rw [(cons.inj isFirst).1, isSlash] at notSlash
        cases notSlash
      · exact notDot (cons.inj isFirst).1

theorem parent_mem_pathParts (parent : "..".toList ∈ segments value.toList) :
    "..".toList ∈ pathParts (normalizedPath value) := by
  obtain ⟨-, before, after, text, start, stop⟩ := mem_splitOnP_iff.mp parent
  have dots : "..".toList = ['.', '.'] := rfl
  have trimmed : normalizedPath value = before.dropWhile isWhitespace ++ "..".toList ++
      (after.rdropWhile isWhitespace).rdropWhile (· == '/') := by
    have leading : (before ++ "..".toList ++ after).dropWhile isWhitespace =
        (before.dropWhile isWhitespace ++ ['.']) ++ '.' :: after := by
      rw [append_assoc, dropWhile_append]
      split
      · rename_i empty
        rw [isEmpty_iff.mp empty]
        rfl
      · simp
    rw [normalizedPath, trim, String.toList_ofList, text, leading,
      rdropWhile_append_cons (by decide), rdropWhile_append_cons (by decide), dots]
    simp
  obtain ⟨_, isPrefix⟩ : (after.rdropWhile isWhitespace).rdropWhile (· == '/') <+: after :=
    (List.rdropWhile_prefix _ _).trans (List.rdropWhile_prefix _ _)
  obtain ⟨_, isSuffix⟩ := dropWhile_suffix isWhitespace (l := before)
  refine mem_splitOnP_iff.mpr ⟨all_iff_forall_prop.mp (by decide), _, _, trimmed, ?_, ?_⟩
  · intro c last
    have slash : (c == '/') = true := by
      refine start c ?_
      rw [← isSuffix, getLast?_append, last]
      rfl
    rw [slash, Bool.true_or]
  · intro c first
    have slash : (c == '/') = true := by
      refine stop c ?_
      rw [← isPrefix, head?_append, first]
      rfl
    rw [slash, Bool.true_or]

/-! ### The rule -/

section

variable {P : Platform} {policy : EnvPolicy P}

theorem safePath_accepts_iff {value : String} :
    (Rule.safePath P).evaluate (some value) policy = .ok () ↔
      isForbidden (normalizedPath value) = false ∧
        "..".toList ∉ pathParts (normalizedPath value) := by
  rw [Rule.evaluate]
  dsimp only [Rule.safePath, Check.evaluate]
  split
  · rename_i caught
    exact iff_of_false nofun fun accepted => by rw [caught] at accepted; cases accepted.1
  · rename_i passed
    rw [Bool.not_eq_true] at passed
    split
    · rename_i parent
      obtain ⟨part, mem, isParent⟩ := any_eq_true.mp parent
      refine iff_of_false nofun fun accepted => accepted.2 ?_
      rwa [← beq_iff_eq.mp isParent]
    · rename_i noParent
      refine iff_of_true rfl ⟨passed, fun mem => noParent ?_⟩
      exact any_eq_true.mpr ⟨_, mem, beq_self_eq_true _⟩

end

/-- The path hides the root or the name of a system directory behind an empty or `.` segment. -/
structure Disguised (value : String) : Prop where
  start : ∃ s rest, segments value.toList = [] :: s :: rest ∧ (s = [] ∨ s = ['.'])
  hidden : (['.'] ∈ segments value.toList ∧ components value.toList = []) ∨
    ∃ name ∈ systemNames, (components value.toList).head? = some name
  noParent : "..".toList ∉ pathParts (normalizedPath value)

theorem subset_of_mem_segments {s : List Char} (mem : s ∈ segments path) : s ⊆ path := by
  obtain ⟨-, before, after, rfl, -⟩ := mem_splitOnP_iff.mp mem
  exact fun c inSegment => mem_append_left _ (mem_append_right _ inSegment)

theorem slashes_of_no_component (no_component : components path = [])
    (no_dot : ['.'] ∉ segments path) : ∀ c ∈ path, c = '/' := by
  intro c mem
  have joined : ['/'].intercalate (segments path) = path := intercalate_splitOn '/'
  rw [← joined] at mem
  rcases mem_intercalate mem with slash | ⟨s, inSegments, inSegment⟩
  · exact slash
  · have absent : s ∉ components path := by
      rw [no_component]
      exact not_mem_nil
    rw [mem_components] at absent
    have isDot : s = ['.'] := by
      by_contra notDot
      refine absent ⟨inSegments, ?_, notDot⟩
      rintro rfl
      exact not_mem_nil inSegment
    exact absurd (isDot ▸ inSegments) no_dot

theorem disguised_iff {P : Platform} {policy : EnvPolicy P} : Disguised value ↔
      (Rule.safePath P).evaluate (some value) policy = .ok () ∧ ¬ SafePath value.toList := by
  rw [safePath_accepts_iff, safePath_iff]
  constructor
  · rintro ⟨⟨s, rest, start, blank⟩, hidden, noParent⟩
    have absolute : value.toList.head? = some '/' := by
      obtain ⟨-, empty | ⟨sep, path, isSlash, text⟩⟩ := head_splitOnP start
      · rw [empty] at start
        cases start
      · rw [text, beq_iff_eq.mp isSlash]
        rfl
    refine ⟨⟨not_isForbidden start blank ?_, noParent⟩, fun safe => ?_⟩
    · rcases hidden with ⟨dot, -⟩ | ⟨name, system, first⟩
      · exact ⟨'.', subset_of_mem_segments dot (mem_singleton_self _), by decide, by decide⟩
      · obtain ⟨notEmpty, -, letters⟩ := systemName_letters system
        have inSegments := (mem_components.mp (mem_of_mem_head? first)).1
        obtain ⟨c, name, rfl⟩ := exists_cons_of_ne_nil notEmpty
        obtain ⟨notSlash, notWhite, -⟩ := letters c mem_cons_self
        exact ⟨c, subset_of_mem_segments inSegments mem_cons_self,
          beq_eq_false_iff_ne.mp notSlash, notWhite⟩
    · rcases hidden with ⟨-, root⟩ | ⟨name, system, first⟩
      · exact (safe.1 absolute).1 root
      · exact (safe.1 absolute).2 name system first
  · rintro ⟨⟨passed, noParent⟩, unsafe_⟩
    have no_dots : "..".toList ∉ components value.toList := fun parent =>
      noParent (parent_mem_pathParts (mem_components.mp parent).1)
    obtain ⟨absolute, hidden⟩ : value.toList.head? = some '/' ∧ (components value.toList = [] ∨
        ∃ name ∈ systemNames, (components value.toList).head? = some name) := by
      by_contra other
      refine unsafe_ ⟨fun absolute => ⟨fun root => other ⟨absolute, .inl root⟩, ?_⟩, no_dots⟩
      exact fun name system first => other ⟨absolute, .inr ⟨name, system, first⟩⟩
    obtain ⟨path, text⟩ : ∃ path, value.toList = '/' :: path := by
      cases chars : value.toList with
      | nil => rw [chars] at absolute; cases absolute
      | cons c path => rw [chars] at absolute; cases absolute; exact ⟨path, rfl⟩
    obtain ⟨s, later, first⟩ := exists_cons_of_ne_nil (splitOnP_ne_nil (· == '/') path)
    have whole : segments value.toList = [] :: s :: later := by
      rw [text, segments_slash, ← first, segments]
    by_cases blank : s = [] ∨ s = ['.']
    · refine ⟨⟨s, later, whole, blank⟩, ?_, noParent⟩
      rcases hidden with root | named
      · refine .inl ⟨?_, root⟩
        by_contra no_dot
        have slashes := slashes_of_no_component root no_dot
        have nothing : normalizedPath value = [] := by
          rw [normalizedPath_eq absolute, rdropWhile_eq_nil_iff]
          intro c mem
          exact beq_iff_eq.mpr (slashes c ((List.rdropWhile_prefix _ _).subset mem))
        rw [nothing] at passed
        cases passed
      · exact .inr named
    · rw [not_or] at blank
      have leads : (components value.toList).head? = some s := by
        rw [components, whole, filter_cons_of_neg (by decide),
          filter_cons_of_pos (by simp [blank])]
        rfl
      obtain ⟨name, system, isFirst⟩ := hidden.resolve_left fun root => by
        rw [root] at leads
        cases leads
      rw [leads, Option.some.injEq] at isFirst
      subst isFirst
      rw [isForbidden_of_name text system first] at passed
      cases passed

/-- An accepted path is safe in its normal form for exactly the texts that are not
disguised. -/
theorem safe_path_exact_iff {P : Platform} {policy : EnvPolicy P} {value : String} :
    ((Rule.safePath P).evaluate (some value) policy = .ok () → SafePath value.toList) ↔
      ¬ Disguised value := by
  rw [disguised_iff, not_and_not_right]

/-- The rule accepts a second slash before the name of a system directory. -/
theorem disguised_etc_accepted :
    (Rule.safePath wholeNumbers).evaluate (some "//etc/registry") (.new _) = .ok () ∧
      ¬ SafePath "//etc/registry".toList := by
  have below : (normalize "//etc/registry".toList).AtOrBelow (normalize "/etc".toList) :=
    ⟨rfl, by decide⟩
  exact ⟨safePath_accepts_iff.mpr ⟨by decide, by decide⟩,
    fun safe => safe.2.1 "/etc" (by decide) (by decide) (by decide) below⟩

end AgentProtocols.Shared.Env
