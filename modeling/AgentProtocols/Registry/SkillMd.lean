import AgentProtocols.A4P.Util
import AgentProtocols.Lib.Paths
import AgentProtocols.Registry.RegistryService

/-!
The frontmatter of `SKILL.md`. `update_skill_md` writes what `parse_skill_md_content` reads, with
other rules for white space and quotes.

* `updates_read_back_iff` — an update is read back, with the rest as it was, exactly if the values
  are plain and no key has only lines that the reader does not read.
-/

namespace AgentProtocols.Registry.SkillMd

open A4P Lib List

abbrev Text := List Char

abbrev Blank (t : Text) : Prop := ∀ c ∈ t, isWhitespace c = true

/-- `str::trim`. -/
def trimmed (t : Text) : Text := (t.dropWhile isWhitespace).rdropWhile isWhitespace

/-- The text before and after the first `---`. -/
def splitDashes : Text → Option (Text × Text)
  | '-' :: '-' :: '-' :: rest => some ([], rest)
  | c :: rest => (splitDashes rest).map fun (before, after) => (c :: before, after)
  | [] => none

/-- `splitn(3, "---")`, where it has three parts. -/
def parts (content : Text) : Option (Text × Text × Text) := do
  let (start, rest) ← splitDashes content
  let (middle, body) ← splitDashes rest
  return (start, middle, body)

/-- `char::is_alphanumeric`, as far as its table is used here. -/
structure Alphanumeric where
  holds : Char → Bool
  letters : ∀ c, c.isAlpha = true → holds c = true
  colon : holds ':' = false
  space : ∀ c, isWhitespace c = true → holds c = false

variable (a : Alphanumeric)

def isKeyChar (c : Char) : Bool := a.holds c || c == '_' || c == '-'

/-- The indent, the key, the separator and the value of a line. -/
def splitFrontmatterLine (line : Text) : Option (Text × Text × Text × Text) :=
  let rest := line.dropWhile isWhitespace
  if rest.head?.any fun first => first.isAlpha || first == '_' then
    let afterKey := rest.dropWhile (isKeyChar a)
    match afterKey.dropWhile (· != ':') with
    | [] => none
    | colon :: afterColon =>
      let before := afterKey.takeWhile (· != ':')
      if before.all isWhitespace then
        some (line.takeWhile isWhitespace, rest.takeWhile (isKeyChar a),
          before ++ colon :: afterColon.takeWhile isWhitespace, afterColon.dropWhile isWhitespace)
      else none
  else none

def nameKey : Text := ['n', 'a', 'm', 'e']

def descriptionKey : Text := ['d', 'e', 's', 'c', 'r', 'i', 'p', 't', 'i', 'o', 'n']

def licenseKey : Text := ['l', 'i', 'c', 'e', 'n', 's', 'e']

def skillKeys : List Text := [nameKey, descriptionKey, licenseKey]

/-- The field of a trimmed line, with its raw value. -/
def frontmatterField (line : Text) : Option (Text × Text) :=
  match line.dropWhile (· != ':') with
  | [] => none
  | _ :: rest =>
    let key := line.takeWhile (· != ':')
    let raw := rest.dropWhile isWhitespace
    if key ∈ skillKeys ∧ raw ≠ [] then some (key, raw) else none

/-- A value without the quotes around it. -/
def unquoted (val : Text) : Text :=
  match val with
  | [] => []
  | q :: rest =>
    if (q == '\x22' || q == '\x27') && rest.getLast? == some q then rest.dropLast else val

/-- `str::lines`. -/
def lines (text : Text) : List Text :=
  let pieces := text.splitOn '\n'
  let last := pieces.getLast?.toList.filter fun piece => !piece.isEmpty
  pieces.dropLast.map (fun line => if line.getLast? == some '\r' then line.dropLast else line) ++ last

def readLine (line : Text) : Option (Text × Text) :=
  (frontmatterField (trimmed line)).map fun (key, raw) => (key, unquoted (trimmed raw))

def noFrontmatter : RegistryError := .invalid "SKILL.md must have YAML frontmatter delimited by ---"

def parseSkillMdContent (content : Text) : Except RegistryError (OrderedMap Text Text) :=
  match parts content with
  | none => .error noFrontmatter
  | some (_, middle, _) =>
    let result := OrderedMap.empty.insertAll ((lines (trimmed middle)).filterMap readLine)
    if (result.get? nameKey).all List.isEmpty then
      .error (.invalid "SKILL.md frontmatter must include 'name'")
    else if (result.get? descriptionKey).all List.isEmpty then
      .error (.invalid "SKILL.md frontmatter must include 'description'")
    else .ok result

section Update

variable (updates : OrderedMap Text Text)

/-- The update of a line: its indent, key and separator, and the new value. -/
def lineUpdate (line : Text) : Option (Text × Text × Text × Text) :=
  (splitFrontmatterLine a line).bind fun (indent, key, sep, _) =>
    (updates.get? key).map fun value => (indent, key, sep, value)

def newLine (line : Text) : Text :=
  match lineUpdate a updates line with
  | some (indent, key, sep, value) => indent ++ key ++ sep ++ value
  | none => line

/-- The lines of the frontmatter that `update_skill_md` reads. -/
def fmLines (middle : Text) : List Text :=
  ((middle.dropWhile (· == '\n')).rdropWhile (· == '\n')).splitOn '\n'

def newLines (middle : Text) : List Text :=
  let seen := (fmLines middle).filterMap fun line => (lineUpdate a updates line).map fun u => u.2.1
  (fmLines middle).map (newLine a updates) ++
    (updates.entries.filter fun (k, _) => k ∉ seen).map fun (k, v) => k ++ [':', ' '] ++ v

/-- `update_skill_md` on the text of the file. -/
def updateSkillMd (content : Text) : Except RegistryError Text :=
  match parts content with
  | none => .error noFrontmatter
  | some (_, middle, body) =>
    .ok (['-', '-', '-', '\n'] ++ ['\n'].intercalate (newLines a updates middle) ++
      ['\n', '-', '-', '-'] ++ body)

end Update

/-! ### Cutting at dashes -/

theorem splitDashes_isSome : ∀ {t : Text}, (splitDashes t).isSome = true ↔ ['-', '-', '-'] <:+: t := by
  intro t
  induction t using splitDashes.induct with
  | case1 rest => exact iff_of_true rfl ⟨[], rest, rfl⟩
  | case2 c rest other ih =>
    rw [splitDashes.eq_2 c rest other, Option.isSome_map, ih, infix_cons_iff]
    refine (or_iff_right ?_).symm
    rintro ⟨more, same⟩
    cases same
    exact other _ rfl rfl
  | case3 => exact iff_of_false nofun (by simp)

theorem splitDashes_eq_none {t : Text} : splitDashes t = none ↔ ¬['-', '-', '-'] <:+: t := by
  rw [← splitDashes_isSome, Option.not_isSome_iff_eq_none]

theorem none_of_part {s t : Text} (none_ : splitDashes t = none) (part : s <:+: t) :
    splitDashes s = none :=
  splitDashes_eq_none.mpr fun inside => splitDashes_eq_none.mp none_ (inside.trans part)

theorem splitDashes_cons {c : Char} (plain : c ≠ '-') (t : Text) :
    splitDashes (c :: t) = (splitDashes t).map fun (before, after) => (c :: before, after) :=
  splitDashes.eq_2 c t fun _ same => absurd same plain

theorem splitDashes_append {x : Text} {c : Char} (none_ : splitDashes x = none) (plain : c ≠ '-')
    (y : Text) : splitDashes (x ++ c :: y) =
      (splitDashes y).map fun (before, after) => (x ++ c :: before, after) := by
  induction x with
  | nil => exact splitDashes_cons plain y
  | cons d x ih =>
    have here : ∀ rest, d = '-' → x ++ c :: y = '-' :: '-' :: rest → False := by
      rintro rest rfl same
      match x, same with
      | [], same => exact plain (cons.inj same).1
      | [_], same => exact plain (cons.inj (cons.inj same).2).1
      | _ :: _ :: x, same =>
        cases same
        cases none_
    rw [cons_append, splitDashes.eq_2 _ _ here,
      ih (none_of_part none_ (suffix_cons d x).isInfix), Option.map_map]
    rfl

theorem splitDashes_append_of_some {x before after : Text} (found : splitDashes x = some (before, after))
    (y : Text) : splitDashes (x ++ y) = some (before, after ++ y) := by
  induction x using splitDashes.induct generalizing before with
  | case1 rest =>
    cases found
    rfl
  | case2 c rest other ih =>
    rw [splitDashes.eq_2 c rest other, Option.map_eq_some_iff] at found
    obtain ⟨⟨before', after'⟩, rest_, ⟨⟩⟩ := found
    have here : ∀ more, c = '-' → rest ++ y = '-' :: '-' :: more → False := by
      rintro more rfl same
      match rest, same with
      | [], _ => cases rest_
      | [_], same => cases same; cases rest_
      | _ :: _ :: rest, same =>
        cases same
        exact other rest rfl rfl
    rw [cons_append, splitDashes.eq_2 _ _ here, ih rest_]
    rfl
  | case3 => cases found

theorem splitDashes_eq {t before after : Text} (found : splitDashes t = some (before, after)) :
    t = before ++ '-' :: '-' :: '-' :: after ∧ splitDashes before = none := by
  induction t using splitDashes.induct generalizing before with
  | case1 rest =>
    cases found
    exact ⟨rfl, rfl⟩
  | case2 c rest other ih =>
    rw [splitDashes.eq_2 c rest other, Option.map_eq_some_iff] at found
    obtain ⟨⟨before', after'⟩, rest_, ⟨⟩⟩ := found
    obtain ⟨rfl, none_⟩ := ih rest_
    have here : ∀ more, c = '-' → before' = '-' :: '-' :: more → False := by
      rintro more rfl rfl
      exact other _ rfl rfl
    rw [splitDashes.eq_2 _ _ here, none_]
    exact ⟨rfl, rfl⟩
  | case3 => cases found

/-! ### White space around texts -/

section Trim

variable {t w : Text} {c : Char}

theorem trimmed_append_left (blank : Blank w) (t : Text) :
    trimmed (w ++ t) = trimmed t := by
  rw [trimmed, trimmed, dropWhile_append_of_pos blank]

theorem rdropWhile_cons : (c :: t).rdropWhile isWhitespace =
    if t.rdropWhile isWhitespace = [] ∧ isWhitespace c = true then []
    else c :: t.rdropWhile isWhitespace := by
  cases blank : isWhitespace c with
  | false => exact (@rdropWhile_append_cons _ _ [] _ _ blank).trans (by simp)
  | true =>
    by_cases all : t.rdropWhile isWhitespace = []
    · rw [if_pos ⟨all, rfl⟩, rdropWhile_eq_nil_iff]
      exact forall_mem_cons.mpr ⟨blank, rdropWhile_eq_nil_iff.mp all⟩
    · rw [if_neg fun both => all both.1, rdropWhile, reverse_cons, dropWhile_append,
        if_neg (by simpa [rdropWhile] using all)]
      simp [rdropWhile]

theorem trimmed_comm (t : Text) : trimmed t = (t.rdropWhile isWhitespace).dropWhile isWhitespace := by
  induction t with
  | nil => rfl
  | cons c t ih =>
    cases blank : isWhitespace c with
    | true =>
      rw [trimmed, dropWhile_cons_of_pos blank, ← trimmed, ih, rdropWhile_cons]
      split
      · rename_i all
        rw [all.1]
      · rw [dropWhile_cons_of_pos blank]
    | false =>
      have open_ : isWhitespace c ≠ true := by simp [blank]
      rw [trimmed, dropWhile_cons_of_neg open_, rdropWhile_cons, if_neg fun both => open_ both.2,
        dropWhile_cons_of_neg open_]

theorem trimmed_append_right (blank : Blank w) (t : Text) :
    trimmed (t ++ w) = trimmed t := by
  rw [trimmed_comm, trimmed_comm, rdropWhile, reverse_append,
    dropWhile_append_of_pos (by simpa using blank), ← rdropWhile]

theorem trimmed_trimmed (t : Text) : trimmed (trimmed t) = trimmed t := by
  conv_lhs => rw [trimmed_comm t, trimmed, dropWhile_idempotent, ← trimmed, trimmed_comm,
    rdropWhile_idempotent, ← trimmed_comm]

/-- A text is white space, the trimmed text and white space. -/
theorem exists_trimmed (t : Text) : ∃ i j, t = i ++ trimmed t ++ j ∧ Blank i ∧ Blank j := by
  refine ⟨t.takeWhile isWhitespace, (t.dropWhile isWhitespace).rtakeWhile isWhitespace, ?_,
    fun c mem => mem_takeWhile_imp mem, fun c mem => mem_rtakeWhile_imp mem⟩
  rw [append_assoc, trimmed, rdropWhile_append_rtakeWhile, takeWhile_append_dropWhile]

theorem trimmed_eq_nil : trimmed t = [] ↔ Blank t := by
  refine ⟨fun nothing => ?_, fun blank => ?_⟩
  · obtain ⟨i, j, same, before, after⟩ := exists_trimmed t
    rw [same, nothing, append_nil]
    exact forall_mem_append.mpr ⟨before, after⟩
  · exact (congrArg trimmed (append_nil t)).symm.trans (trimmed_append_left blank [])

end Trim

/-! ### Lines with a key -/

section Keys

variable {a} {i k b r v line : Text}

theorem key_char {key : Text} (mem : key ∈ skillKeys) {c : Char} (inside : c ∈ key) :
    c.isAlpha = true ∧ c ≠ '-' ∧ c ≠ ':' ∧ c ≠ '\n' ∧ isWhitespace c = false := by
  have all : (skillKeys.all fun key => key.all fun c => decide
      (c.isAlpha = true ∧ c ≠ '-' ∧ c ≠ ':' ∧ c ≠ '\n' ∧ isWhitespace c = false)) = true := by decide
  exact of_decide_eq_true (all_eq_true.mp (all_eq_true.mp all key mem) c inside)

theorem ne_nil_of_mem_skillKeys (mem : k ∈ skillKeys) : k ≠ [] := by
  rintro rfl
  exact absurd mem (by decide)

def readValue (v : Text) : Option Text :=
  if trimmed v = [] then none else some (unquoted (trimmed v))

theorem frontmatterField_eq (plain : ':' ∉ k) (r : Text) : frontmatterField (k ++ ':' :: r) =
    if k ∈ skillKeys ∧ r.dropWhile isWhitespace ≠ [] then some (k, r.dropWhile isWhitespace)
    else none := by
  have stops : ∀ c ∈ k, (c != ':') = true := fun c mem => bne_iff_ne.mpr (ne_of_mem_of_not_mem mem plain)
  rw [frontmatterField, dropWhile_append_of_pos stops, takeWhile_append_of_pos stops]
  simp

/-- The line has the key, after the indent `i`, with `b` before the colon and `r` after it. -/
structure Keyed (line i k b r : Text) : Prop where
  line : line = i ++ k ++ b ++ ':' :: r
  key : k ∈ skillKeys
  indent : Blank i
  gap : Blank b

/-- What is read of a line with a key. -/
theorem Keyed.read (keyed : Keyed line i k b r) :
    readLine line = if b = [] then (readValue r).map (k, ·) else none := by
  obtain ⟨rfl, is_key, indent, gap⟩ := keyed
  have start : (k ++ b ++ ':' :: r).dropWhile isWhitespace = k ++ b ++ ':' :: r := by
    obtain ⟨c, k, rfl⟩ := exists_cons_of_ne_nil (ne_nil_of_mem_skillKeys is_key)
    exact dropWhile_cons_of_neg (by simp [(key_char is_key mem_cons_self).2.2.2.2])
  have plain : ':' ∉ k ++ b := by
    rw [mem_append]
    rintro (mem | mem)
    · exact (key_char is_key mem).2.2.1 rfl
    · exact absurd (gap _ mem) (by decide)
  have cut : trimmed (i ++ k ++ b ++ ':' :: r) = k ++ b ++ ':' :: r.rdropWhile isWhitespace := by
    rw [append_assoc, append_assoc, trimmed_append_left indent, ← append_assoc, trimmed,
      start, rdropWhile_append_cons (by decide)]
  rw [readLine, cut, frontmatterField_eq plain, ← trimmed_comm]
  by_cases spaced : b = []
  · subst spaced
    rw [append_nil, if_pos rfl, readValue]
    by_cases blank : trimmed r = []
    · simp [blank]
    · simp [blank, is_key, trimmed_trimmed]
  · have no_key : k ++ b ∉ skillKeys := by
      intro mem
      obtain ⟨c, b, rfl⟩ := exists_cons_of_ne_nil spaced
      have letter := (key_char mem (mem_append_right k mem_cons_self)).2.2.2.2
      simp [gap c mem_cons_self] at letter
    rw [if_neg fun both => no_key both.1, if_neg spaced]
    rfl

theorem keyed_of_readLine (read : readLine line = some (k, v)) :
    ∃ i r, Keyed line i k [] r ∧ readValue r = some v := by
  obtain ⟨⟨key, raw⟩, field, same⟩ := Option.map_eq_some_iff.mp read
  obtain ⟨i, j, cut, before, after⟩ := exists_trimmed line
  rcases plain_or_first_separator (p := (· == ':')) (trimmed line) with
    plain | ⟨first, colon, rest, text, plain, at_colon⟩
  · rw [frontmatterField, dropWhile_eq_nil_iff.mpr fun c mem => by simp [bne, plain c mem]] at field
    cases field
  · cases beq_iff_eq.mp at_colon
    rw [text, frontmatterField_eq fun mem => by simpa using plain _ mem] at field
    split at field
    · rename_i both
      cases field
      cases same
      refine ⟨i, rest ++ j, ⟨?_, both.1, before, nofun⟩, ?_⟩
      · conv_lhs => rw [cut, text]
        simp
      · have shown : trimmed rest ≠ [] := fun blank =>
          both.2 (dropWhile_eq_nil_iff.mpr (trimmed_eq_nil.mp blank))
        rw [readValue, trimmed_append_right after, if_neg shown, trimmed, trimmed,
          dropWhile_idempotent]
    · cases field

theorem Keyed.split (keyed : Keyed line i k b r) : splitFrontmatterLine a line =
    some (i, k, b ++ ':' :: r.takeWhile isWhitespace, r.dropWhile isWhitespace) := by
  obtain ⟨rfl, is_key, indent, gap⟩ := keyed
  obtain ⟨first, k', same⟩ := exists_cons_of_ne_nil (ne_nil_of_mem_skillKeys is_key)
  have letter := key_char is_key (c := first) (same ▸ mem_cons_self)
  have open_ : ¬isWhitespace first = true := by simp [letter.2.2.2.2]
  have rest : (i ++ k ++ b ++ ':' :: r).dropWhile isWhitespace = k ++ (b ++ ':' :: r) := by
    rw [append_assoc, append_assoc, dropWhile_append_of_pos indent, same,
      cons_append, dropWhile_cons_of_neg open_]
  have shown : (i ++ k ++ b ++ ':' :: r).takeWhile isWhitespace = i := by
    rw [append_assoc, append_assoc, takeWhile_append_of_pos indent, same,
      cons_append, takeWhile_cons_of_neg open_, append_nil]
  have key : ∀ c ∈ k, isKeyChar a c = true := fun c mem => by
    simp [isKeyChar, a.letters c (key_char is_key mem).1]
  obtain ⟨d, more, begins, stop⟩ : ∃ d more, b ++ ':' :: r = d :: more ∧ ¬isKeyChar a d = true := by
    cases b with
    | nil => exact ⟨':', r, rfl, by simp [isKeyChar, a.colon]⟩
    | cons d b =>
      have blank := gap d mem_cons_self
      have other : d ≠ '_' ∧ d ≠ '-' := by
        refine ⟨?_, ?_⟩ <;> rintro rfl <;> exact absurd blank (by decide)
      exact ⟨d, b ++ ':' :: r, rfl, by simp [isKeyChar, a.space d blank, other]⟩
  have after : (k ++ (b ++ ':' :: r)).dropWhile (isKeyChar a) = b ++ ':' :: r ∧
      (k ++ (b ++ ':' :: r)).takeWhile (isKeyChar a) = k := by
    rw [dropWhile_append_of_pos key, takeWhile_append_of_pos key, begins,
      dropWhile_cons_of_neg stop, takeWhile_cons_of_neg stop, append_nil]
    exact ⟨rfl, rfl⟩
  have spaces : ∀ c ∈ b, (c != ':') = true := fun c mem => by
    rw [bne_iff_ne]
    rintro rfl
    exact absurd (gap _ mem) (by decide)
  rw [splitFrontmatterLine]
  simp only [rest, shown, after.1, after.2, dropWhile_append_of_pos spaces,
    takeWhile_append_of_pos spaces]
  simpa [same, letter.1] using gap

theorem keyed_of_split {sep : Text} (is_key : k ∈ skillKeys)
    (found : splitFrontmatterLine a line = some (i, k, sep, v)) :
    ∃ b w, sep = b ++ ':' :: w ∧ Keyed line i k b (w ++ v) ∧ Blank w := by
  simp only [splitFrontmatterLine] at found
  split at found
  · split at found
    · cases found
    · rename_i colon afterColon at_colon
      split at found
      · rename_i gap
        cases found
        have head : colon = ':' := by
          have first := head?_dropWhile_not (· != ':')
            ((line.dropWhile isWhitespace).dropWhile (isKeyChar a))
          rw [at_colon] at first
          simpa using first
        subst head
        refine ⟨_, _, rfl, ⟨?_, is_key, fun c mem => mem_takeWhile_imp mem,
          all_eq_true.mp gap⟩, fun c mem => mem_takeWhile_imp mem⟩
        rw [takeWhile_append_dropWhile, ← at_colon, append_assoc,
          takeWhile_append_dropWhile, append_assoc, takeWhile_append_dropWhile,
          takeWhile_append_dropWhile]
      · cases found
  · cases found

end Keys

/-! ### The lines of a text -/

section Lines

variable {β : Type} {g : Text → Option β} {p : Char → Bool} {t : Text}

theorem splitOn_concat {c : Char} (plain : c ≠ '\n') (t : Text) : ∃ init last,
    t.splitOn '\n' = init ++ [last] ∧ (t ++ [c]).splitOn '\n' = init ++ [last ++ [c]] := by
  induction t with
  | nil => exact ⟨[], [], rfl, splitOn_eq_singleton (by simpa using plain.symm)⟩
  | cons d t ih =>
    obtain ⟨init, last, before, after⟩ := ih
    rw [cons_append, splitOn_cons_eq_if_modifyHead, splitOn_cons_eq_if_modifyHead, before,
      after]
    split
    · exact ⟨[] :: init, last, rfl, rfl⟩
    · cases init with
      | nil => exact ⟨[], d :: last, rfl, rfl⟩
      | cons l init => exact ⟨(d :: l) :: init, last, rfl, rfl⟩

theorem filterMap_splitOn_around (nothing : g [] = none)
    (front : ∀ c l, p c = true → c ≠ '\n' → g (c :: l) = g l)
    (back : ∀ c l, p c = true → c ≠ '\n' → g (l ++ [c]) = g l) {i j : Text}
    (before : ∀ c ∈ i, p c = true) (after : ∀ c ∈ j, p c = true) :
    ((i ++ t ++ j).splitOn '\n').filterMap g = (t.splitOn '\n').filterMap g := by
  induction i with
  | nil =>
    rw [nil_append]
    induction j using reverseRecOn with
    | nil => rw [append_nil]
    | append_singleton j c ih =>
      obtain ⟨earlier, at_c⟩ := forall_mem_append.mp after
      rw [← ih earlier, ← append_assoc]
      by_cases newline : c = '\n'
      · rw [newline, splitOn_append_cons_self (t ++ j) [], filterMap_append]
        simp [nothing, splitOn_nil]
      · obtain ⟨init, last, old, new⟩ := splitOn_concat newline (t ++ j)
        rw [old, new, filterMap_append, filterMap_append, filterMap_cons,
          filterMap_cons, back c last (at_c c (mem_singleton_self c)) newline]
  | cons c i ih =>
    rw [forall_mem_cons] at before
    rw [← ih before.2, cons_append, cons_append, splitOn_cons_eq_if_modifyHead]
    split
    · exact filterMap_cons_none nothing
    · rename_i plain
      cases pieces : (i ++ t ++ j).splitOn '\n' with
      | nil => exact absurd pieces (splitOn_ne_nil _ _)
      | cons l ls =>
        rw [modifyHead_cons, filterMap_cons, filterMap_cons,
          front c l before.1 (by simpa using plain)]

theorem readLine_of_trimmed {l l' : Text} (same : trimmed l = trimmed l') : readLine l = readLine l' := by
  rw [readLine, same, readLine]

theorem rows_eq (t : Text) : (lines (trimmed t)).filterMap readLine =
    (t.splitOn '\n').filterMap readLine := by
  have unended : ∀ t, (lines t).filterMap readLine = (t.splitOn '\n').filterMap readLine := by
    intro t
    obtain ⟨init, last, pieces⟩ :=
      (eq_nil_or_concat' (t.splitOn '\n')).resolve_left (splitOn_ne_nil _ _)
    have strip : ∀ line : Text,
        readLine (if line.getLast? == some '\r' then line.dropLast else line) = readLine line := by
      intro line
      rcases eq_nil_or_concat' line with rfl | ⟨l, c, rfl⟩
      · rfl
      · rw [getLast?_concat, dropLast_concat]
        split
        · rename_i ends
          refine readLine_of_trimmed (trimmed_append_right ?_ l).symm
          refine forall_mem_singleton.mpr ?_
          rw [Option.some.inj (beq_iff_eq.mp ends)]
          decide
        · rfl
    rw [lines, pieces, dropLast_concat, getLast?_concat, filterMap_append,
      filterMap_append, filterMap_map]
    congr 1
    · exact filterMap_congr fun line _ => strip line
    · cases last <;> rfl
  obtain ⟨i, j, cut, before, after⟩ := exists_trimmed t
  rw [unended]
  conv_rhs => rw [cut]
  refine (filterMap_splitOn_around rfl (fun c l blank _ => ?_) (fun c l blank _ => ?_) before after).symm
  · exact readLine_of_trimmed (trimmed_append_left (forall_mem_singleton.mpr blank) l)
  · exact readLine_of_trimmed (trimmed_append_right (forall_mem_singleton.mpr blank) l)

theorem filterMap_splitOn_newlines (nothing : g [] = none) {i j : Text}
    (before : ∀ c ∈ i, (c == '\n') = true) (after : ∀ c ∈ j, (c == '\n') = true) :
    ((i ++ t ++ j).splitOn '\n').filterMap g = (t.splitOn '\n').filterMap g := by
  refine filterMap_splitOn_around (p := (· == '\n')) nothing (fun c l newline plain => ?_)
    (fun c l newline plain => ?_) before after <;> exact absurd (beq_iff_eq.mp newline) plain

theorem filterMap_fmLines (nothing : g [] = none) (middle : Text) :
    (fmLines middle).filterMap g = (middle.splitOn '\n').filterMap g := by
  have cut : middle = middle.takeWhile (· == '\n') ++
      (middle.dropWhile (· == '\n')).rdropWhile (· == '\n') ++
      (middle.dropWhile (· == '\n')).rtakeWhile (· == '\n') := by
    rw [append_assoc, rdropWhile_append_rtakeWhile, takeWhile_append_dropWhile]
  conv_rhs => rw [cut]
  exact (filterMap_splitOn_newlines nothing
    (fun c mem => mem_takeWhile_imp (p := (· == '\n')) mem)
    fun c mem => mem_rtakeWhile_imp (p := (· == '\n')) mem).symm

end Lines

/-! ### What an update writes -/

/-- The key and the value of a line, where the key is not a skill's. -/
def otherField (line : Text) : Option (Text × Text) :=
  (splitFrontmatterLine a line).bind fun (_, key, _, value) =>
    if key ∈ skillKeys then none else some (key, value)

def otherFields (middle : Text) : List (Text × Text) := (middle.splitOn '\n').filterMap (otherField a)

/-- The fields are overridden by the updates, and the rest is as it was. -/
structure ReadsBack (content written : Text) (old updates : OrderedMap Text Text) : Prop where
  fields : ∃ new, parseSkillMdContent written = .ok new ∧
    ∀ k, new.get? k = (updates.get? k).or (old.get? k)
  body : (parts written).map (fun p => p.2.2) = (parts content).map fun p => p.2.2
  others : (parts written).map (fun p => otherFields a p.2.1) =
    (parts content).map fun p => otherFields a p.2.1

/-- A value that the reader gives back as it is written. -/
def PlainValue (v : Text) : Prop :=
  v ≠ [] ∧ '\n' ∉ v ∧ trimmed v = v ∧ unquoted v = v ∧ splitDashes v = none

/-- The key has no line, or one with the colon right after it. -/
def KeyRead (middle k : Text) : Prop :=
  (∀ line ∈ fmLines middle, ∀ u, splitFrontmatterLine a line = some u → u.2.1 ≠ k) ∨
    ∃ line ∈ fmLines middle, ∃ u, splitFrontmatterLine a line = some u ∧ u.2.1 = k ∧
      u.2.2.1.head? = some ':'

section Written

variable {a} {updates old : OrderedMap Text Text} {content middle body k v line : Text}
  (known : ∀ k ∈ updates.keys, k ∈ skillKeys)

theorem unquoted_sublist : ∀ v : Text, (unquoted v).Sublist v
  | [] => List.Sublist.refl _
  | q :: rest => by
    rw [unquoted]
    split
    · exact (dropLast_sublist rest).cons q
    · exact List.Sublist.refl _

theorem readValue_sublist {r : Text} (read : readValue r = some v) : v.Sublist (trimmed r) := by
  rw [readValue] at read
  split at read
  · cases read
  · cases read
    exact unquoted_sublist _

theorem trimmed_part (t : Text) : trimmed t <:+: t := by
  obtain ⟨i, j, cut, -⟩ := exists_trimmed t
  exact ⟨i, j, cut.symm⟩

theorem readValue_eq_self : readValue v = some v ↔ v ≠ [] ∧ trimmed v = v ∧ unquoted v = v := by
  constructor
  · intro read
    have same : trimmed v = v := (trimmed_part v).sublist.antisymm (readValue_sublist read)
    rw [readValue, same] at read
    split at read
    · cases read
    · rename_i shown
      exact ⟨shown, same, Option.some.inj read⟩
  · rintro ⟨shown, same, bare⟩
    rw [readValue, same, if_neg shown, bare]

theorem lineUpdate_of_readLine {r : Text} (read : readLine line = some (k, r))
    (at_k : updates.get? k = some v) : (lineUpdate a updates line).isSome = true := by
  obtain ⟨i, r, keyed, -⟩ := keyed_of_readLine read
  rw [lineUpdate, keyed.split]
  simp [at_k]

theorem readValue_blank {w : Text} (blank : Blank w) (v : Text) : readValue (w ++ v) = readValue v := by
  rw [readValue, trimmed_append_left blank, readValue]

theorem keyed_added (is_key : k ∈ skillKeys) (v : Text) :
    Keyed (k ++ [':', ' '] ++ v) [] k [] ([' '] ++ v) := ⟨by simp, is_key, nofun, nofun⟩

theorem added_mem (at_k : updates.get? k = some v) (absent : ∀ old ∈ fmLines middle, ∀ u,
    splitFrontmatterLine a old = some u → u.2.1 ≠ k) :
    k ++ [':', ' '] ++ v ∈ newLines a updates middle := by
  refine mem_append_right _ (mem_map.mpr ⟨(k, v), mem_filter.mpr
    ⟨OrderedMap.get?_eq_some_iff.mp at_k, decide_eq_true fun seen => ?_⟩, rfl⟩)
  obtain ⟨line, inside, updated⟩ := mem_filterMap.mp seen
  obtain ⟨u, found, rfl⟩ := Option.map_eq_some_iff.mp updated
  obtain ⟨u', split_, has⟩ := Option.bind_eq_some_iff.mp found
  obtain ⟨v', -, rfl⟩ := Option.map_eq_some_iff.mp has
  exact absent line inside u' split_ rfl

include known

/-- A line is kept, or its value is replaced. -/
theorem newLine_cases (line : Text) :
    (lineUpdate a updates line = none ∧ newLine a updates line = line) ∨
      ∃ i k b w v v', updates.get? k = some v ∧ Keyed line i k b (w ++ v') ∧
        Keyed (newLine a updates line) i k b (w ++ v) ∧ Blank w := by
  cases found : lineUpdate a updates line with
  | none => exact .inl ⟨rfl, by rw [newLine, found]⟩
  | some u =>
    obtain ⟨⟨i, k, sep, v'⟩, split_, has⟩ := Option.bind_eq_some_iff.mp found
    obtain ⟨v, at_k, rfl⟩ := Option.map_eq_some_iff.mp has
    obtain ⟨b, w, rfl, keyed, blank⟩ :=
      keyed_of_split (known k (OrderedMap.mem_keys_iff.mpr ⟨v, at_k⟩)) split_
    refine .inr ⟨i, k, b, w, v, v', at_k, keyed, ⟨?_, keyed.key, keyed.indent, keyed.gap⟩, blank⟩
    rw [newLine, found]
    simp

theorem readLine_newLine (kept : updates.get? k = none) :
    (readLine (newLine a updates line)).filter (fun row => row.1 = k) =
      (readLine line).filter fun row => row.1 = k := by
  rcases newLine_cases (a := a) known line with ⟨-, same⟩ | ⟨i, k', b, w, v, v', at_k', keyed, new, -⟩
  · rw [same]
  · have other : k' ≠ k := by
      rintro rfl
      cases kept.symm.trans at_k'
    rw [keyed.read, new.read]
    split
    · cases readValue (w ++ v) <;> cases readValue (w ++ v') <;> simp [Option.filter, other]
    · rfl

/-- A new line is an old one, an old one with a new value, or added for a key without a line. -/
theorem mem_newLines (mem : line ∈ newLines a updates middle) :
    (line ∈ fmLines middle ∧ lineUpdate a updates line = none) ∨
      ∃ i k b w v, updates.get? k = some v ∧ Keyed line i k b (w ++ v) ∧ Blank w ∧
        ((∃ old ∈ fmLines middle, ∃ v', Keyed old i k b (w ++ v')) ∨
          i = [] ∧ b = [] ∧ w = [' '] ∧ ∀ old ∈ fmLines middle, ∀ u,
            splitFrontmatterLine a old = some u → u.2.1 ≠ k) := by
  rcases mem_append.mp mem with mem | mem
  · obtain ⟨line, inside, rfl⟩ := mem_map.mp mem
    rcases newLine_cases (a := a) known line with
      ⟨none_, same⟩ | ⟨i, k, b, w, v, v', at_k, keyed, new, blank⟩
    · rw [same]
      exact .inl ⟨inside, none_⟩
    · exact .inr ⟨i, k, b, w, v, at_k, new, blank, .inl ⟨line, inside, v', keyed⟩⟩
  · obtain ⟨⟨k, v⟩, added, rfl⟩ := mem_map.mp mem
    obtain ⟨entry, unseen⟩ := mem_filter.mp added
    have at_k := OrderedMap.get?_eq_some_iff.mpr entry
    refine .inr ⟨[], k, [], [' '], v, at_k,
      keyed_added (known k (OrderedMap.mem_keys_iff.mpr ⟨v, at_k⟩)) v, all_eq_true.mp rfl,
      .inr ⟨rfl, rfl, rfl, fun old inside u found same => of_decide_eq_true unseen ?_⟩⟩
    exact mem_filterMap.mpr ⟨old, inside, by rw [lineUpdate, found]; simp [same, at_k]⟩

theorem newLine_of_split {i sep v₀ : Text} (at_k : updates.get? k = some v)
    (found : splitFrontmatterLine a line = some (i, k, sep, v₀)) :
    ∃ b w, sep = b ++ ':' :: w ∧ Keyed (newLine a updates line) i k b (w ++ v) ∧ Blank w := by
  have is_key := known k (OrderedMap.mem_keys_iff.mpr ⟨v, at_k⟩)
  obtain ⟨b, w, rfl, keyed, blank⟩ := keyed_of_split is_key found
  refine ⟨b, w, rfl, ⟨?_, is_key, keyed.indent, keyed.gap⟩, blank⟩
  rw [newLine, lineUpdate, found]
  simp [at_k]

theorem exists_infix_newLine (at_k : updates.get? k = some v) :
    ∃ line ∈ newLines a updates middle, v <:+: line := by
  by_cases seen : ∃ old ∈ fmLines middle, ∃ u, splitFrontmatterLine a old = some u ∧ u.2.1 = k
  · obtain ⟨old, inside, ⟨i, k, sep, v₀⟩, found, rfl⟩ := seen
    obtain ⟨b, w, -, keyed, -⟩ := newLine_of_split known at_k found
    refine ⟨_, mem_append_left _ (mem_map.mpr ⟨old, inside, rfl⟩), ?_⟩
    rw [keyed.line]
    exact ((suffix_append w v).trans ((suffix_cons _ _).trans (suffix_append _ _))).isInfix
  · refine ⟨_, added_mem at_k fun old inside u found same => ?_, (suffix_append _ v).isInfix⟩
    exact seen ⟨old, inside, u, found, same⟩

def newRows (a : Alphanumeric) (updates : OrderedMap Text Text) (middle : Text) : List (Text × Text) :=
  (newLines a updates middle).filterMap readLine

theorem of_mem_newRows {r : Text} (mem : (k, r) ∈ newRows a updates middle)
    (at_k : updates.get? k = some v) : readValue v = some r ∧ KeyRead a middle k := by
  obtain ⟨line, mem, read⟩ := mem_filterMap.mp mem
  rcases mem_newLines known mem with ⟨-, kept⟩ | ⟨i, k', b, w, v', at_k', keyed, blank, from_⟩
  · have updated := lineUpdate_of_readLine (a := a) read at_k
    rw [kept] at updated
    cases updated
  · rw [keyed.read, readValue_blank blank] at read
    split at read
    · rename_i spaced
      obtain ⟨r', read, ⟨⟩⟩ := Option.map_eq_some_iff.mp read
      cases at_k.symm.trans at_k'
      refine ⟨read, ?_⟩
      rcases from_ with ⟨old, inside, v₀, was⟩ | ⟨-, -, -, absent⟩
      · exact .inr ⟨old, inside, _, was.split, rfl, by rw [spaced]; rfl⟩
      · exact .inl absent
    · cases read

theorem mem_newRows (at_k : updates.get? k = some v) (plain : readValue v = some v)
    (read : KeyRead a middle k) : (k, v) ∈ newRows a updates middle := by
  have is_key := known k (OrderedMap.mem_keys_iff.mpr ⟨v, at_k⟩)
  rcases read with absent | ⟨old, inside, ⟨i, k', sep, v₀⟩, found, rfl, at_colon⟩
  · refine mem_filterMap.mpr ⟨_, added_mem at_k absent, ?_⟩
    rw [(keyed_added is_key v).read, readValue_blank (all_eq_true.mp rfl), plain]
    rfl
  · obtain ⟨b, w, rfl, keyed, blank⟩ := newLine_of_split known at_k found
    have spaced : b = [] := by
      cases b with
      | nil => rfl
      | cons c b =>
        cases at_colon
        exact absurd (keyed.gap _ mem_cons_self) (by decide)
    refine mem_filterMap.mpr ⟨_, mem_append_left _ (mem_map.mpr ⟨_, inside, rfl⟩), ?_⟩
    rw [keyed.read, if_pos spaced, readValue_blank blank, plain]
    rfl

theorem get?_newRows (kept : updates.get? k = none) :
    ((OrderedMap.empty : OrderedMap Text Text).insertAll (newRows a updates middle)).get? k =
      ((OrderedMap.empty : OrderedMap Text Text).insertAll
        ((fmLines middle).filterMap readLine)).get? k := by
  have one : ∀ (m : OrderedMap Text Text) (o : Option (Text × Text)), (m.insertAll o.toList).get? k =
      ((o.filter fun row => row.1 = k).map Prod.snd).or (m.get? k) := by
    intro m o
    cases o with
    | none => rfl
    | some row =>
      change (m.insert row.1 row.2).get? k = _
      by_cases here : row.1 = k
      · simp [Option.filter, here]
      · simp [Option.filter, here, OrderedMap.get?_insert_of_ne (Ne.symm here)]
  have first : ∀ (f : Text → Option (Text × Text)) (l : Text) (ls : List Text) (m : OrderedMap Text Text),
      m.insertAll ((l :: ls).filterMap f) = (m.insertAll (f l).toList).insertAll (ls.filterMap f) := by
    intro f l ls m
    rw [filterMap_cons]
    cases f l <;> rfl
  have rewritten : ∀ (ls : List Text) (m m' : OrderedMap Text Text), m.get? k = m'.get? k →
      (m.insertAll (ls.filterMap fun line => readLine (newLine a updates line))).get? k =
        (m'.insertAll (ls.filterMap readLine)).get? k := by
    intro ls
    induction ls with
    | nil => exact fun _ _ same => same
    | cons line ls ih =>
      intro m m' same
      rw [first, first]
      refine ih _ _ ?_
      rw [one, one, readLine_newLine known kept, same]
  rw [newRows, newLines, filterMap_append, OrderedMap.insertAll, foldl_append,
    filterMap_map]
  refine (OrderedMap.get?_insertAll_of_not_mem fun row mem here => ?_).trans (rewritten _ _ _ rfl)
  obtain ⟨line, mem, read⟩ := mem_filterMap.mp mem
  obtain ⟨⟨k', v'⟩, added, rfl⟩ := mem_map.mp mem
  have at_k' := OrderedMap.get?_eq_some_iff.mpr (mem_filter.mp added).1
  have keyed := keyed_added (known k' (OrderedMap.mem_keys_iff.mpr ⟨v', at_k'⟩)) v'
  obtain ⟨r', -, rfl⟩ := Option.map_eq_some_iff.mp (keyed.read.symm.trans read)
  cases here
  cases kept.symm.trans at_k'

end Written

/-! ### Reading an update back -/

section Back

variable {a} {updates old : OrderedMap Text Text} {content start middle body k v : Text}

def fieldsOf (middle : Text) : OrderedMap Text Text :=
  OrderedMap.empty.insertAll ((middle.splitOn '\n').filterMap readLine)

theorem parse_eq_ok {m : OrderedMap Text Text} (cut : parts content = some (start, middle, body)) :
    parseSkillMdContent content = .ok m ↔ m = fieldsOf middle ∧
      (m.get? nameKey).all isEmpty = false ∧ (m.get? descriptionKey).all isEmpty = false := by
  rw [parseSkillMdContent, cut]
  simp only [rows_eq]
  rw [← fieldsOf]
  constructor
  · intro parsed
    split at parsed
    · cases parsed
    · split at parsed
      · cases parsed
      · cases parsed
        simp_all
  · rintro ⟨rfl, named, described⟩
    simp [named, described]

def newMiddle (a : Alphanumeric) (updates : OrderedMap Text Text) (middle : Text) : Text :=
  ['\n'].intercalate (newLines a updates middle)

def written (a : Alphanumeric) (updates : OrderedMap Text Text) (middle body : Text) : Text :=
  ['-', '-', '-', '\n'] ++ newMiddle a updates middle ++ ['\n', '-', '-', '-'] ++ body

/-- Without dashes among the lines the new text falls into the new lines and the old body. -/
theorem parts_written (plain : splitDashes (newMiddle a updates middle) = none) (body : Text) :
    parts (written a updates middle body) =
      some ([], '\n' :: newMiddle a updates middle ++ ['\n'], body) := by
  have rest : splitDashes ('\n' :: (newMiddle a updates middle ++ '\n' :: '-' :: '-' :: '-' :: body)) =
      some ('\n' :: newMiddle a updates middle ++ ['\n'], body) := by
    rw [splitDashes_cons (by decide), splitDashes_append plain (by decide)]
    rfl
  have whole : written a updates middle body = '-' :: '-' :: '-' :: '\n' ::
      (newMiddle a updates middle ++ '\n' :: '-' :: '-' :: '-' :: body) := by simp [written]
  rw [parts, whole, splitDashes]
  simp [rest]

theorem body_written {before after : Text}
    (cut : splitDashes (newMiddle a updates middle) = some (before, after)) (body : Text) :
    ∃ b, parts (written a updates middle body) = some ([], '\n' :: before, b) ∧ b ≠ body := by
  let more := '\n' :: '-' :: '-' :: '-' :: body
  have rest : splitDashes ('\n' :: (newMiddle a updates middle ++ more)) =
      some ('\n' :: before, after ++ more) := by
    rw [splitDashes_cons (by decide), splitDashes_append_of_some cut]
    rfl
  have whole : written a updates middle body = '-' :: '-' :: '-' :: '\n' ::
      (newMiddle a updates middle ++ more) := by simp [written, more]
  refine ⟨after ++ more, ?_, fun same => ?_⟩
  · rw [parts, whole, splitDashes]
    simp [rest]
  · have lengths := congrArg length same
    simp only [more, length_append, length_cons] at lengths
    omega

theorem infix_intercalate {l : Text} : ∀ {ls : List Text}, l ∈ ls → l <:+: ['\n'].intercalate ls
  | [], mem => nomatch mem
  | [_], mem => by
    cases mem_singleton.mp mem
    rw [intercalate_singleton]
  | l' :: l'' :: ls, mem => by
    rw [intercalate_cons_cons]
    rcases mem_cons.mp mem with rfl | mem
    · exact ⟨[], ['\n'] ++ ['\n'].intercalate (l'' :: ls), by simp⟩
    · exact (infix_intercalate mem).trans ⟨l' ++ ['\n'], [], by simp⟩

theorem splitDashes_intercalate : ∀ {ls : List Text}, (∀ l ∈ ls, splitDashes l = none) →
    splitDashes (['\n'].intercalate ls) = none
  | [], _ => rfl
  | [l], plain => by
    rw [intercalate_singleton]
    exact plain l mem_cons_self
  | l :: l' :: ls, plain => by
    have rest := splitDashes_intercalate fun m mem => plain m (mem_cons_of_mem l mem)
    rw [intercalate_cons_cons, append_assoc, singleton_append,
      splitDashes_append (plain l mem_cons_self) (by decide), rest]
    rfl

theorem mem_fmLines {line : Text} (mem : line ∈ fmLines middle) : line <:+: middle ∧ '\n' ∉ line := by
  rw [fmLines, splitOn_eq_splitOnP, mem_splitOnP_iff] at mem
  obtain ⟨plain, before, after, cut, -⟩ := mem
  refine ⟨List.IsInfix.trans ⟨before, after, cut.symm⟩ ?_, fun mem => by simpa using plain _ mem⟩
  exact (List.rdropWhile_prefix _ _).isInfix.trans (dropWhile_suffix _).isInfix

theorem splitDashes_blank {w : Text} (blank : Blank w)
    (plain : splitDashes v = none) : splitDashes (w ++ v) = none := by
  induction w with
  | nil => exact plain
  | cons c w ih =>
    obtain ⟨first, rest⟩ := forall_mem_cons.mp blank
    have open_ : c ≠ '-' := by
      rintro rfl
      exact absurd first (by decide)
    rw [cons_append, splitDashes_cons open_, ih rest]
    rfl

variable (known : ∀ k ∈ updates.keys, k ∈ skillKeys)

include known

theorem splitDashes_newMiddle (cut : splitDashes middle = none) :
    splitDashes (newMiddle a updates middle) = none ↔
      ∀ k v, updates.get? k = some v → splitDashes v = none := by
  constructor
  · intro plain k v at_k
    obtain ⟨line, mem, part⟩ := @exists_infix_newLine a _ middle _ _ known at_k
    exact none_of_part plain (part.trans (infix_intercalate mem))
  · intro plain
    refine splitDashes_intercalate fun line mem => ?_
    rcases mem_newLines known mem with ⟨mem, -⟩ | ⟨i, k, b, w, v, at_k, keyed, blank, from_⟩
    · exact none_of_part cut (mem_fmLines mem).1
    · have start : splitDashes (i ++ k ++ b) = none := by
        rcases from_ with ⟨old, inside, v', was⟩ | ⟨rfl, rfl, -⟩
        · refine none_of_part cut (List.IsInfix.trans ?_ (mem_fmLines inside).1)
          rw [was.line]
          exact (prefix_append _ _).isInfix
        · have all : ∀ key ∈ skillKeys, splitDashes ([] ++ key ++ []) = none := by decide
          exact all k keyed.key
      rw [keyed.line, splitDashes_append start (by decide), splitDashes_blank blank (plain k v at_k)]
      rfl

theorem splitOn_newMiddle (plain : ∀ k v, updates.get? k = some v → '\n' ∉ v) :
    (newMiddle a updates middle).splitOn '\n' = newLines a updates middle := by
  refine splitOn_intercalate '\n' (fun line mem => ?_) ?_
  · rcases mem_newLines known mem with ⟨mem, -⟩ | ⟨i, k, b, w, v, at_k, keyed, -, from_⟩
    · exact (mem_fmLines mem).2
    · have before : '\n' ∉ i ++ k ++ b ∧ '\n' ∉ w := by
        rcases from_ with ⟨old, inside, v', was⟩ | ⟨rfl, rfl, rfl, -⟩
        · have plain := (mem_fmLines inside).2
          rw [was.line, mem_append, mem_cons] at plain
          exact ⟨fun mem => plain (.inl mem), fun mem =>
            plain (.inr (.inr (mem_append_left v' mem)))⟩
        · refine ⟨fun mem => ?_, by decide⟩
          exact (key_char keyed.key (by simpa using mem)).2.2.2.1 rfl
      rw [keyed.line, mem_append, mem_cons]
      rintro (mem | colon | mem)
      · exact before.1 mem
      · cases colon
      · exact (mem_append.mp mem).elim before.2 (plain k v at_k)
  · have some_line : fmLines middle ≠ [] := splitOn_ne_nil _ _
    simp [newLines, some_line]

theorem otherFields_newLines :
    (newLines a updates middle).filterMap (otherField a) = otherFields a middle := by
  have no_field : ∀ {line i k b r : Text}, Keyed line i k b r → otherField a line = none := by
    intro line i k b r keyed
    rw [otherField, keyed.split]
    exact if_pos keyed.key
  rw [otherFields, ← filterMap_fmLines rfl, newLines, filterMap_append, filterMap_map]
  refine (congrArg _ (filterMap_eq_nil_iff.mpr fun line mem => ?_)).trans
    ((append_nil _).trans (filterMap_congr fun line _ => ?_))
  · obtain ⟨⟨k, v⟩, entry, rfl⟩ := mem_map.mp mem
    have at_k := OrderedMap.get?_eq_some_iff.mpr (mem_filter.mp entry).1
    exact no_field (keyed_added (known k (OrderedMap.mem_keys_iff.mpr ⟨v, at_k⟩)) v)
  · rcases newLine_cases (a := a) known line with ⟨-, same⟩ | ⟨i, k, b, w, v, v', -, keyed, new, -⟩
    · exact congrArg _ same
    · exact (no_field new).trans (no_field keyed).symm

omit known in
theorem not_mem_of_rows {t r : Text} (mem : (k, r) ∈ (t.splitOn '\n').filterMap readLine) : '\n' ∉ r := by
  obtain ⟨line, inside, read⟩ := mem_filterMap.mp mem
  obtain ⟨i, r', keyed, value⟩ := keyed_of_readLine read
  rw [splitOn_eq_splitOnP, mem_splitOnP_iff, keyed.line] at inside
  intro newline
  have kept := (trimmed_part r').subset ((readValue_sublist value).subset newline)
  simpa using inside.1 '\n' (by simp [kept])

end Back

theorem fieldsOf_written (middle : Text) : fieldsOf ('\n' :: newMiddle a updates middle ++ ['\n']) =
    fieldsOf (newMiddle a updates middle) := by
  exact congrArg (OrderedMap.empty.insertAll ·) (filterMap_splitOn_newlines (i := ['\n']) rfl
    (by simp) (by simp))

/-- **An update of `SKILL.md` is read back** exactly if its values are plain and its keys are read.
-/
theorem updates_read_back_iff (a : Alphanumeric) {content : Text} {old updates : OrderedMap Text Text}
    (accepted : parseSkillMdContent content = .ok old) (known : ∀ k ∈ updates.keys, k ∈ skillKeys) :
    ∃ written, updateSkillMd a updates content = .ok written ∧
      (ReadsBack a content written old updates ↔ ∀ k v, updates.get? k = some v → PlainValue v ∧
        ∀ start middle body, parts content = some (start, middle, body) → KeyRead a middle k) := by
  cases cut : parts content with
  | none =>
    rw [parseSkillMdContent, cut] at accepted
    cases accepted
  | some p =>
    obtain ⟨start, middle, body⟩ := p
    have plain_middle : splitDashes middle = none := by
      obtain ⟨⟨start', rest⟩, -, cut⟩ := Option.bind_eq_some_iff.mp cut
      obtain ⟨⟨middle', body'⟩, found, same⟩ := Option.bind_eq_some_iff.mp cut
      cases same
      exact (splitDashes_eq found).2
    obtain ⟨rfl, named, described⟩ := (parse_eq_ok cut).mp accepted
    have rows (lineFeeds : ∀ k v, updates.get? k = some v → '\n' ∉ v) :
        fieldsOf (newMiddle a updates middle) = OrderedMap.empty.insertAll (newRows a updates middle) := by
      rw [fieldsOf, splitOn_newMiddle known lineFeeds, newRows]
    refine ⟨written a updates middle body, by rw [updateSkillMd, cut]; rfl, ?_⟩
    constructor
    · intro back
      have dashes : splitDashes (newMiddle a updates middle) = none := by
        cases found : splitDashes (newMiddle a updates middle) with
        | none => rfl
        | some cut' =>
          obtain ⟨b, parted, other⟩ := body_written found body
          have same := back.body
          rw [parted, cut] at same
          exact absurd (Option.some.inj same) other
      obtain ⟨new, parsed, same⟩ := back.fields
      obtain ⟨rfl, -⟩ := (parse_eq_ok (parts_written dashes body)).mp parsed
      rw [fieldsOf_written] at same
      have lineFeeds : ∀ k v, updates.get? k = some v → '\n' ∉ v := by
        intro k v at_k
        have found := (same k).trans (by rw [at_k, Option.some_or])
        rcases OrderedMap.mem_of_get?_insertAll found with mem | before
        · exact not_mem_of_rows mem
        · cases before
      intro k v at_k
      have found := (same k).trans (by rw [at_k, Option.some_or])
      rw [rows lineFeeds] at found
      rcases OrderedMap.mem_of_get?_insertAll found with mem | before
      · obtain ⟨value, read⟩ := of_mem_newRows known mem at_k
        obtain ⟨shown, bare, unquoted_⟩ := readValue_eq_self.mp value
        refine ⟨⟨shown, lineFeeds k v at_k, bare, unquoted_,
          (splitDashes_newMiddle known plain_middle).mp dashes k v at_k⟩, ?_⟩
        rintro start middle body ⟨⟩
        exact read
      · cases before
    · intro plain
      have dashes := (splitDashes_newMiddle known plain_middle (a := a)).mpr
        fun k v at_k => (plain k v at_k).1.2.2.2.2
      have lineFeeds : ∀ k v, updates.get? k = some v → '\n' ∉ v := fun k v at_k => (plain k v at_k).1.2.1
      have value : ∀ k v, updates.get? k = some v → readValue v = some v := fun k v at_k =>
        readValue_eq_self.mpr ⟨(plain k v at_k).1.1, (plain k v at_k).1.2.2.1, (plain k v at_k).1.2.2.2.1⟩
      have same : ∀ k, (fieldsOf (newMiddle a updates middle)).get? k =
          (updates.get? k).or ((fieldsOf middle).get? k) := by
        intro k
        rw [rows lineFeeds]
        cases at_k : updates.get? k with
        | none =>
          rw [get?_newRows known at_k, fieldsOf, filterMap_fmLines rfl]
          rfl
        | some v =>
          refine OrderedMap.get?_insertAll_of_mem (mem_newRows known at_k (value k v at_k)
            ((plain k v at_k).2 _ _ _ rfl)) fun row mem here => ?_
          obtain ⟨key, r⟩ := row
          cases here
          exact Option.some.inj ((of_mem_newRows known mem at_k).1.symm.trans (value _ v at_k))
      have filled : ∀ key, ((fieldsOf middle).get? key).all List.isEmpty = false →
          ((fieldsOf (newMiddle a updates middle)).get? key).all List.isEmpty = false := by
        intro key before
        rw [same key]
        cases at_key : updates.get? key with
        | none => exact before
        | some v => simpa using (plain key v at_key).1.1
      refine ⟨⟨_, (parse_eq_ok (parts_written dashes body)).mpr ⟨rfl, ?_, ?_⟩, fun k => ?_⟩, ?_, ?_⟩
      · rw [fieldsOf_written]
        exact filled _ named
      · rw [fieldsOf_written]
        exact filled _ described
      · rw [fieldsOf_written, same k]
      · rw [parts_written dashes, cut]
        rfl
      · rw [parts_written dashes, cut]
        refine congrArg some ((filterMap_splitOn_newlines (i := ['\n']) rfl (by simp) (by simp)).trans ?_)
        rw [← newMiddle, splitOn_newMiddle known lineFeeds, otherFields_newLines known]

namespace Sample

def middle : Text := ['\n'] ++ nameKey ++ [':', ' ', 'a', '\n'] ++ descriptionKey ++ [':', ' ', 'b', '\n']

def content : Text := ['-', '-', '-'] ++ middle ++ ['-', '-', '-', '\n']

/-- The ASCII part of the table. -/
def ascii : Alphanumeric where
  holds c := c.isAlphanum
  letters c letter := by simp [Char.isAlphanum, letter]
  colon := by decide
  space c blank := by
    simp only [isWhitespace, Char.toNat, Bool.or_eq_true, Bool.and_eq_true, decide_eq_true_eq,
      beq_iff_eq] at blank
    show ((decide (c.val ≥ 'A'.val ∧ c.val ≤ 'Z'.val) ||
      (decide (c.val ≥ 'a'.val) && decide (c.val ≤ 'z'.val))) ||
        (decide (c.val ≥ '0'.val) && decide (c.val ≤ '9'.val))) = false
    simp only [ge_iff_le, UInt32.le_iff_toNat_le, Bool.or_eq_false_iff, Bool.and_eq_false_iff,
      decide_eq_false_iff_not, not_and_or,
      show ('A').val.toNat = 65 from rfl, show ('Z').val.toNat = 90 from rfl,
      show ('a').val.toNat = 97 from rfl, show ('z').val.toNat = 122 from rfl,
      show ('0').val.toNat = 48 from rfl, show ('9').val.toNat = 57 from rfl]
    omega

def update (v : Text) : OrderedMap Text Text := OrderedMap.empty.insert descriptionKey v

theorem accepted : parseSkillMdContent content = .ok (fieldsOf middle) :=
  (@parse_eq_ok _ [] _ ['\n'] _ rfl).mpr ⟨rfl, rfl, rfl⟩

theorem better_read_back : ∃ written, updateSkillMd ascii (update ['c']) content = .ok written ∧
    (ReadsBack ascii content written (fieldsOf middle) (update ['c']) ↔
      ∀ k v, (update ['c']).get? k = some v → PlainValue v ∧
        ∀ start middle body, parts content = some (start, middle, body) → KeyRead ascii middle k) :=
  updates_read_back_iff ascii accepted (by decide)

/-- A description with a second line `name: e` renames the skill. -/
theorem description_renames : ∃ written,
    updateSkillMd ascii (update (['c', '\n'] ++ nameKey ++ [':', 'e'])) content = .ok written ∧
      ¬ReadsBack ascii content written (fieldsOf middle)
        (update (['c', '\n'] ++ nameKey ++ [':', 'e'])) := by
  refine ⟨_, rfl, fun back => ?_⟩
  obtain ⟨new, parsed, same⟩ := back.fields
  have renamed : ∀ new, parseSkillMdContent (written ascii
      (update (['c', '\n'] ++ nameKey ++ [':', 'e'])) middle ['\n']) = .ok new →
      new.get? nameKey = some ['e'] := by
    rintro new ⟨⟩
    rfl
  cases (renamed new parsed).symm.trans (same nameKey)

end Sample

end AgentProtocols.Registry.SkillMd
