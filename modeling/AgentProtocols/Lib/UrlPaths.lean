import Mathlib.Data.List.DropRight
import AgentProtocols.Lib.Utf8

/-!
Paths of URLs, as the URL parser reads them: it removes the dot segments (`isDot_iff`,
`isDotDot_iff`, `removeDots_of_plain`, `mem_removeDots`). What is percent-encoded is read back
(`percentDecode_encodeText`).
-/

namespace AgentProtocols.Lib.UrlPaths

open List

/-! ### Percent-encoding -/

/-- A digit as `{:X}` writes it. -/
def upperHex (d : Nat) : Char := Char.ofNat (if d < 10 then 48 + d else 55 + d)

def isUnreserved (b : UInt8) : Bool :=
  (65 ≤ b && b ≤ 90) || (97 ≤ b && b ≤ 122) || (48 ≤ b && b ≤ 57) || b == 95 || b == 46 || b == 45 || b == 126

/-- A byte as itself or as its number. -/
def encodeByte (b : UInt8) : List Char :=
  if isUnreserved b then [Char.ofNat b.toNat]
  else ['%', upperHex (b.toNat / 16), upperHex (b.toNat % 16)]

/-- A text of which only the unreserved characters are left as they are. -/
def encodeText (text : List Char) : List Char := (Utf8.encode text).flatMap encodeByte

/-- The value of a hexadecimal digit. -/
def hexValue (c : Char) : Option Nat :=
  if '0' ≤ c ∧ c ≤ '9' then some (c.toNat - 48)
  else if 'a' ≤ c ∧ c ≤ 'f' then some (c.toNat - 87)
  else if 'A' ≤ c ∧ c ≤ 'F' then some (c.toNat - 55)
  else none

/-- The bytes that a text stands for. -/
def percentDecode : List Char → List UInt8
  | [] => []
  | '%' :: high :: low :: rest =>
    match hexValue high, hexValue low with
    | some h, some l => UInt8.ofNat (16 * h + l) :: percentDecode rest
    | _, _ => 37 :: percentDecode (high :: low :: rest)
  | c :: rest => String.utf8EncodeChar c ++ percentDecode rest

theorem percentDecode_escape {high low : Char} {h l : Nat} {rest : List Char} (high_ : hexValue high = some h)
    (low_ : hexValue low = some l) :
    percentDecode ('%' :: high :: low :: rest) = UInt8.ofNat (16 * h + l) :: percentDecode rest := by
  rw [percentDecode, high_, low_]

variable {text segment : List Char} {path segments : List (List Char)} {c : Char}

theorem percentDecode_cons (plain : c ≠ '%') (rest : List Char) :
    percentDecode (c :: rest) = String.utf8EncodeChar c ++ percentDecode rest := by
  rw [percentDecode]
  rintro high low rest' rfl
  exact absurd rfl plain

theorem toNat_ofNat {n : Nat} (ascii : n < 128) : (Char.ofNat n).toNat = n := by
  have all : ∀ n : Fin 128, (Char.ofNat n.val).toNat = n.val := by decide
  exact all ⟨n, ascii⟩

theorem hexValue_upperHex {d : Nat} (small : d < 16) : hexValue (upperHex d) = some d := by
  have all : ∀ d : Fin 16, hexValue (upperHex d.val) = some d.val := by decide
  exact all ⟨d, small⟩

theorem isUnreserved_ascii {b : UInt8} (unreserved : isUnreserved b) : b.toNat < 128 := by
  simp only [isUnreserved, Bool.or_eq_true, Bool.and_eq_true, decide_eq_true_eq, beq_iff_eq,
    UInt8.le_iff_toNat_le, ← UInt8.toNat_inj, UInt8.reduceToNat] at unreserved
  omega

theorem percentDecode_encodeByte (b : UInt8) (rest : List Char) :
    percentDecode (encodeByte b ++ rest) = b :: percentDecode rest := by
  have small := b.toNat_lt
  rw [encodeByte]
  split
  · rename_i unreserved
    have ascii := isUnreserved_ascii unreserved
    have char : (Char.ofNat b.toNat).toNat = b.toNat := toNat_ofNat ascii
    have plain : Char.ofNat b.toNat ≠ '%' := by
      intro same
      have code : b.toNat = 37 := by
        rw [← char, same]
        rfl
      have percent : b = 37 := UInt8.toNat_inj.mp code
      rw [percent] at unreserved
      cases unreserved
    rw [singleton_append, percentDecode_cons plain, Utf8.utf8EncodeChar_ascii (by rw [char]; exact ascii),
      char, UInt8.ofNat_toNat]
    rfl
  · rw [cons_append, cons_append, cons_append, nil_append,
      percentDecode_escape (hexValue_upperHex (by omega)) (hexValue_upperHex (by omega)),
      Nat.div_add_mod, UInt8.ofNat_toNat]

theorem percentDecode_encodeText (text : List Char) : percentDecode (encodeText text) = Utf8.encode text := by
  rw [encodeText]
  induction Utf8.encode text with
  | nil => rfl
  | cons b bytes ih => rw [flatMap_cons, percentDecode_encodeByte, ih]

theorem encodeText_cons (kept : c.toNat < 128 ∧ isUnreserved (UInt8.ofNat c.toNat)) (text : List Char) :
    encodeText (c :: text) = c :: encodeText text := by
  have code : (UInt8.ofNat c.toNat).toNat = c.toNat := by
    rw [UInt8.toNat_ofNat', Nat.mod_eq_of_lt (by omega)]
  rw [encodeText, Utf8.encode_ascii kept.1, flatMap_cons, encodeByte, if_pos kept.2, code, Char.ofNat_toNat]
  rfl

theorem encode_injective {other : List Char} (same : Utf8.encode text = Utf8.encode other) : text = other := by
  have read := congrArg Utf8.fromUtf8Lossy same
  rw [Utf8.fromUtf8Lossy_encode, Utf8.fromUtf8Lossy_encode] at read
  exact String.ofList_injective read

theorem eq_nil_of_percentDecode {text : List Char} (decoded : percentDecode text = []) : text = [] := by
  cases text with
  | nil => rfl
  | cons c rest =>
    exfalso
    revert decoded
    rw [percentDecode.eq_def]
    split
    · contradiction
    · split <;> exact cons_ne_nil _ _
    · exact append_ne_nil_of_left_ne_nil (Utf8.utf8EncodeChar_ne_nil _) _

/-! ### Dot segments -/

/-- The ways to write a dot. -/
def dots : List (List Char) := [['.'], ['%', '2', 'e'], ['%', '2', 'E']]

def isDot (segment : List Char) : Bool := dots.contains segment

def isDotDot (segment : List Char) : Bool := (dots.flatMap fun one => dots.map (one ++ ·)).contains segment

theorem eq_of_hexValue {d : Nat} (value : hexValue c = some d) : d < 10 ∧ c = Char.ofNat (48 + d) ∨
      (10 ≤ d ∧ d < 16) ∧ (c = Char.ofNat (87 + d) ∨ c = Char.ofNat (55 + d)) := by
  have code : c = Char.ofNat c.toNat := (Char.ofNat_toNat c).symm
  simp only [hexValue, Char.le_def, UInt32.le_iff_toNat_le] at value
  have zero : ('0' : Char).val.toNat = 48 := rfl
  have nine : ('9' : Char).val.toNat = 57 := rfl
  have lowA : ('a' : Char).val.toNat = 97 := rfl
  have lowF : ('f' : Char).val.toNat = 102 := rfl
  have highA : ('A' : Char).val.toNat = 65 := rfl
  have highF : ('F' : Char).val.toNat = 70 := rfl
  have same : c.toNat = c.val.toNat := rfl
  split at value
  · injection value with value
    have sum : c.toNat = 48 + d := by omega
    exact .inl ⟨by omega, sum ▸ code⟩
  · split at value
    · injection value with value
      have sum : c.toNat = 87 + d := by omega
      exact .inr ⟨by omega, .inl (sum ▸ code)⟩
    · split at value
      · injection value with value
        have sum : c.toNat = 55 + d := by omega
        exact .inr ⟨by omega, .inr (sum ▸ code)⟩
      · contradiction

/-- Text that begins with the byte of a dot begins with a way to write it. -/
theorem exists_dot_of_percentDecode {bytes : List UInt8}
    (decoded : percentDecode text = 46 :: bytes) :
    ∃ dot ∈ dots, ∃ rest, text = dot ++ rest ∧ percentDecode rest = bytes := by
  revert decoded
  rw [percentDecode.eq_def]
  split
  · rintro ⟨⟩
  · rename_i high low rest
    split
    · rename_i h l high_ low_
      intro decoded
      injection decoded with byte decoded
      have value : 16 * h + l = 46 ∨ 256 ≤ 16 * h + l := by
        have := congrArg UInt8.toNat byte
        rw [UInt8.toNat_ofNat'] at this
        by_cases small : 16 * h + l < 256
        · rw [Nat.mod_eq_of_lt small] at this
          exact .inl this
        · omega
      have bounds := eq_of_hexValue high_
      have bounds' := eq_of_hexValue low_
      obtain ⟨rfl, rfl⟩ : h = 2 ∧ l = 14 := by omega
      have two : high = '2' := by
        rcases bounds with ⟨-, two⟩ | ⟨⟨large, -⟩, -⟩
        · exact two
        · omega
      rcases bounds' with ⟨small, -⟩ | ⟨-, lower | upper⟩
      · omega
      · exact ⟨['%', '2', 'e'], by decide, rest, by rw [two, lower]; rfl, decoded⟩
      · exact ⟨['%', '2', 'E'], by decide, rest, by rw [two, upper]; rfl, decoded⟩
    · rintro ⟨⟩
  · rename_i c rest _
    intro decoded
    have mem : (46 : UInt8) ∈ String.utf8EncodeChar c := by
      obtain ⟨b, more, bytes_⟩ := exists_cons_of_ne_nil (Utf8.utf8EncodeChar_ne_nil c)
      rw [bytes_] at decoded
      injection decoded with same
      rw [bytes_, same]
      exact mem_cons_self
    have code : c = '.' := by
      rw [← Char.ofNat_toNat c, Utf8.mem_utf8EncodeChar_ascii mem (by decide)]
      rfl
    rw [code] at decoded ⊢
    injection decoded with _ decoded
    exact ⟨['.'], by decide, rest, rfl, decoded⟩

theorem percentDecode_dot {dot : List Char} (mem : dot ∈ dots) (rest : List Char) :
    percentDecode (dot ++ rest) = 46 :: percentDecode rest := by
  simp only [dots, mem_cons, not_mem_nil, or_false] at mem
  rcases mem with rfl | rfl | rfl
  · exact percentDecode_cons (by decide) rest
  · exact percentDecode_escape (h := 2) (l := 14) (by decide) (by decide)
  · exact percentDecode_escape (h := 2) (l := 14) (by decide) (by decide)

/-- The segments for the present directory are those that decode to a dot. -/
theorem isDot_iff {segment : List Char} : isDot segment ↔ percentDecode segment = [46] := by
  rw [isDot, contains_iff_mem]
  constructor
  · intro mem
    rw [← append_nil segment, percentDecode_dot mem]
    rfl
  · intro decoded
    obtain ⟨dot, mem, rest, rfl, empty⟩ := exists_dot_of_percentDecode decoded
    rw [eq_nil_of_percentDecode empty, append_nil]
    exact mem

/-- The segments for the directory above are those that decode to two dots. -/
theorem isDotDot_iff {segment : List Char} : isDotDot segment ↔ percentDecode segment = [46, 46] := by
  rw [isDotDot, List.contains_iff_mem, List.mem_flatMap]
  constructor
  · rintro ⟨one, mem, mem_map⟩
    obtain ⟨two, mem', rfl⟩ := List.mem_map.mp mem_map
    rw [percentDecode_dot mem, ← List.append_nil two, percentDecode_dot mem']
    rfl
  · intro decoded
    obtain ⟨one, mem, rest, rfl, decoded'⟩ := exists_dot_of_percentDecode decoded
    obtain ⟨two, mem', rest, rfl, empty⟩ := exists_dot_of_percentDecode decoded'
    rw [eq_nil_of_percentDecode empty, List.append_nil]
    exact ⟨one, mem, List.mem_map_of_mem mem'⟩

/-- A segment that names a file or a directory. -/
def Plain (segment : List Char) : Prop := ¬ isDot segment ∧ ¬ isDotDot segment

/-- The path that is left of `segments`, after `path`, without dot segments. -/
def removeDots (path : List (List Char)) : List (List Char) → List (List Char)
  | [] => path
  | [last] =>
    if isDotDot last then path.dropLast ++ [[]]
    else if isDot last then path ++ [[]]
    else path ++ [last]
  | segment :: next :: rest =>
    if isDotDot segment then removeDots path.dropLast (next :: rest)
    else if isDot segment then removeDots path (next :: rest)
    else removeDots (path ++ [segment]) (next :: rest)

/-- The directory that `segments` lead to from `path`. -/
def directory (path : List (List Char)) : List (List Char) → List (List Char)
  | [] => path
  | segment :: rest =>
    if isDotDot segment then directory path.dropLast rest
    else if isDot segment then directory path rest
    else directory (path ++ [segment]) rest

theorem removeDots_append (path mount : List (List Char)) (nonempty : segments ≠ []) :
    removeDots path (mount ++ segments) = removeDots (directory path mount) segments := by
  induction mount generalizing path with
  | nil => rfl
  | cons segment mount ih =>
    obtain ⟨next, rest, joined⟩ :=
      exists_cons_of_ne_nil (append_ne_nil_of_right_ne_nil mount nonempty)
    rw [cons_append, joined, removeDots, directory, ← joined, ih, ih, ih]
    split
    · rfl
    · split <;> rfl

/-- A path without dot segments stays as it is. -/
theorem removeDots_of_plain (plain : ∀ segment ∈ segments, Plain segment)
    (path : List (List Char)) : removeDots path segments = path ++ segments := by
  induction segments generalizing path with
  | nil => exact (append_nil path).symm
  | cons segment rest ih =>
    obtain ⟨notDot, notDotDot⟩ := plain segment mem_cons_self
    cases rest with
    | nil => rw [removeDots, if_neg notDotDot, if_neg notDot]
    | cons next rest =>
      rw [removeDots, if_neg notDotDot, if_neg notDot,
        ih fun segment mem => plain segment (mem_cons_of_mem _ mem), append_assoc,
        singleton_append]

theorem plain_empty : Plain [] := by
  constructor <;> decide

theorem plain_append (clean : ∀ other ∈ path, Plain other)
    (plain : Plain segment) : ∀ other ∈ path ++ [segment], Plain other := by
  intro other mem
  rcases mem_append.mp mem with mem | mem
  · exact clean other mem
  · rw [mem_singleton.mp mem]
    exact plain

theorem plain_dropLast (clean : ∀ other ∈ path, Plain other) :
    ∀ other ∈ path.dropLast, Plain other :=
  fun other mem => clean other (dropLast_subset path mem)

theorem mem_directory (segments : List (List Char))
    (clean : ∀ other ∈ path, Plain other) : ∀ other ∈ directory path segments, Plain other := by
  induction segments generalizing path with
  | nil => exact clean
  | cons segment rest ih =>
    rw [directory]
    split
    · exact ih (plain_dropLast clean)
    · split
      · exact ih clean
      · exact ih (plain_append clean ⟨‹_›, ‹_›⟩)

/-- No dot segment is left. -/
theorem mem_removeDots (segments : List (List Char))
    (clean : ∀ other ∈ path, Plain other) : ∀ other ∈ removeDots path segments, Plain other := by
  induction segments generalizing path with
  | nil => exact clean
  | cons segment rest ih =>
    cases rest with
    | nil =>
      rw [removeDots]
      split
      · exact plain_append (plain_dropLast clean) plain_empty
      · split
        · exact plain_append clean plain_empty
        · exact plain_append clean ⟨‹_›, ‹_›⟩
    | cons next rest =>
      rw [removeDots]
      split
      · exact ih (plain_dropLast clean)
      · split
        · exact ih clean
        · exact ih (plain_append clean ⟨‹_›, ‹_›⟩)

/-! ### The path of a text -/

/-- What the parser takes away from both ends of a URL. -/
def isC0OrSpace (c : Char) : Bool := c.toNat ≤ 32

/-- The characters that the parser replaces in a path: the path percent-encode set. -/
def isEscapedInPath (c : Char) : Bool :=
  c.toNat ≤ 32 || 126 < c.toNat || ['"', '#', '<', '>', '?', '^', '\x60', '\x7b', '\x7d'].contains c

/-- A character as the parser keeps it. -/
def escapeInPath (c : Char) : List Char :=
  if isEscapedInPath c then
    (String.utf8EncodeChar c).flatMap fun b => ['%', upperHex (b.toNat / 16), upperHex (b.toNat % 16)]
  else [c]

/-- The segments of a text: a query or a fragment ends the path, and a backslash is a slash. -/
def cutPath (text : List Char) : List (List Char) :=
  let kept := text.filter fun c => !(['\t', '\n', '\r'].contains c)
  let path := (kept.takeWhile fun c => c != '?' && c != '#').map fun c => if c = '\\' then '/' else c
  (path.splitOn '/').map (·.flatMap escapeInPath)

/-- The segments of the rest of a URL from the path on. -/
def segmentsOf (text : List Char) : List (List Char) := cutPath (text.rdropWhile isC0OrSpace)

/-- The characters of a percent-encoded text. -/
def isSegmentChar (c : Char) : Bool :=
  c.toNat < 128 && (c == '%' || isUnreserved (UInt8.ofNat c.toNat))

/-- A character that the parser leaves alone, and at which it cuts nothing. -/
def Untouched (c : Char) : Prop :=
  isC0OrSpace c = false ∧ c ≠ '?' ∧ c ≠ '#' ∧ c ≠ '\\' ∧ isEscapedInPath c = false

instance (c : Char) : Decidable (Untouched c) := inferInstanceAs (Decidable (_ ∧ _))

theorem untouched_slash : Untouched '/' := by decide

theorem isSegmentChar_spec (char : isSegmentChar c) : Untouched c ∧ c ≠ '/' := by
  have all : ∀ n : Fin 128, isSegmentChar (Char.ofNat n.val) →
      Untouched (Char.ofNat n.val) ∧ Char.ofNat n.val ≠ '/' := by decide
  have ascii : c.toNat < 128 := by
    rw [isSegmentChar, Bool.and_eq_true] at char
    exact of_decide_eq_true char.1
  have code : Char.ofNat c.toNat = c := Char.ofNat_toNat c
  have := all ⟨c.toNat, ascii⟩
  rw [code] at this
  exact this char

theorem mem_encodeText (mem : c ∈ encodeText text) : isSegmentChar c := by
  obtain ⟨b, -, mem⟩ := mem_flatMap.mp mem
  have digit : ∀ d : Fin 16, isSegmentChar (upperHex d.val) := by decide
  have unreserved : ∀ n : Fin 128, isUnreserved (UInt8.ofNat n.val) → isSegmentChar (Char.ofNat n.val) := by
    decide
  have small := b.toNat_lt
  rw [encodeByte] at mem
  split at mem
  · rename_i kept
    have ascii := isUnreserved_ascii kept
    rw [mem_singleton.mp mem]
    refine unreserved ⟨b.toNat, ascii⟩ ?_
    rw [UInt8.ofNat_toNat]
    exact kept
  · simp only [mem_cons, not_mem_nil, or_false] at mem
    rcases mem with rfl | rfl | rfl
    · decide
    · exact digit ⟨b.toNat / 16, by omega⟩
    · exact digit ⟨b.toNat % 16, by omega⟩

theorem mem_intercalate (mem : c ∈ ['/'].intercalate segments) :
    c = '/' ∨ ∃ segment ∈ segments, c ∈ segment := by
  induction segments with
  | nil => cases mem
  | cons segment rest ih =>
    cases rest with
    | nil =>
      rw [intercalate_singleton] at mem
      exact .inr ⟨segment, mem_cons_self, mem⟩
    | cons next rest =>
      rw [intercalate_cons_cons, append_assoc, mem_append, singleton_append,
        mem_cons] at mem
      rcases mem with mem | slash | mem
      · exact .inr ⟨segment, mem_cons_self, mem⟩
      · exact .inl slash
      · rcases ih mem with slash | ⟨other, mem_rest, mem⟩
        · exact .inl slash
        · exact .inr ⟨other, mem_cons_of_mem _ mem_rest, mem⟩

theorem untouched_intercalate (chars : ∀ segment ∈ segments, ∀ c ∈ segment, isSegmentChar c) :
    ∀ c ∈ ['/'].intercalate segments, Untouched c := by
  intro c mem
  rcases mem_intercalate mem with rfl | ⟨segment, mem_segments, mem⟩
  · exact untouched_slash
  · exact (isSegmentChar_spec (chars segment mem_segments c mem)).1

theorem segmentsOf_eq_cutPath
    (last : ∀ nonempty : text ≠ [], isC0OrSpace (text.getLast nonempty) = false) :
    segmentsOf text = cutPath text := by
  rw [segmentsOf, rdropWhile_eq_self_iff.mpr]
  intro nonempty space
  rw [last nonempty] at space
  contradiction

theorem cutPath_intercalate (nonempty : segments ≠ [])
    (chars : ∀ segment ∈ segments, ∀ c ∈ segment, isSegmentChar c) :
    cutPath (['/'].intercalate segments) = segments := by
  have untouched := untouched_intercalate chars
  have filtered : ((['/'].intercalate segments).filter fun c => !(['\t', '\n', '\r'].contains c)) =
      ['/'].intercalate segments := by
    rw [filter_eq_self]
    intro c mem
    have notSpace := (untouched c mem).1
    rw [isC0OrSpace, decide_eq_false_iff_not] at notSpace
    rw [Bool.not_eq_true', ← Bool.not_eq_true, contains_iff_mem]
    intro control
    simp only [mem_cons, not_mem_nil, or_false] at control
    rcases control with rfl | rfl | rfl <;> exact notSpace (by decide)
  have whole : ((['/'].intercalate segments).takeWhile fun c => c != '?' && c != '#') =
      ['/'].intercalate segments := by
    rw [takeWhile_eq_self_iff]
    intro c mem
    obtain ⟨-, notQuery, notFragment, -⟩ := untouched c mem
    rw [Bool.and_eq_true, bne_iff_ne, bne_iff_ne]
    exact ⟨notQuery, notFragment⟩
  have slashes : (['/'].intercalate segments).map (fun c => if c = '\\' then '/' else c) =
      ['/'].intercalate segments := by
    refine (map_congr_left fun c mem => ?_).trans (map_id _)
    exact if_neg (untouched c mem).2.2.2.1
  have escaped : ∀ segment ∈ segments, segment.flatMap escapeInPath = segment := by
    intro segment mem_segments
    refine (flatMap_congr fun c mem => ?_).trans (flatMap_singleton' segment)
    exact if_neg (Bool.not_eq_true _ ▸ (isSegmentChar_spec (chars segment mem_segments c mem)).1.2.2.2.2)
  have cut : (['/'].intercalate segments).splitOn '/' = segments :=
    splitOn_intercalate '/'
      (fun segment mem slash => (isSegmentChar_spec (chars segment mem _ slash)).2 rfl) nonempty
  rw [cutPath, filtered, whole, slashes, cut]
  exact (map_congr_left escaped).trans (map_id _)

theorem cutPath_append_slash (path : ∀ c ∈ text, c ≠ '?' ∧ c ≠ '#') (rest : List Char) :
    cutPath (text ++ '/' :: rest) = cutPath text ++ cutPath rest := by
  have holds : ∀ c ∈ text.filter fun c => !(['\t', '\n', '\r'].contains c), (c != '?' && c != '#') = true := by
    intro c mem
    rw [Bool.and_eq_true, bne_iff_ne, bne_iff_ne]
    exact path c (mem_of_mem_filter mem)
  simp only [cutPath]
  rw [filter_append, filter_cons_of_pos (by decide), takeWhile_append_of_pos holds,
    takeWhile_eq_self_iff.mpr holds, takeWhile_cons_of_pos (by decide), map_append, map_cons,
    if_neg (by decide), splitOn_append_cons_self, map_append]

end AgentProtocols.Lib.UrlPaths
