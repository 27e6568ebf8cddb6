import Mathlib.Data.List.Basic
import Mathlib.Tactic.IntervalCases

/-!
Internet addresses and their text forms. `IpAddr.text` writes the standard one, `IpAddr.parse` reads
every one: an IPv4 text (`Ipv4Addr.parse_text`), groups around a `::` (`Ipv6Addr.parse_compressed`)
and groups without one (`Ipv6Addr.parse_join`).
-/

namespace AgentProtocols.Lib

open List

/-! ### Numbers -/

def digitValue (radix : Nat) (c : Char) : Option Nat :=
  let value := if '0' ≤ c ∧ c ≤ '9' then c.toNat - 48
    else if 'a' ≤ c ∧ c ≤ 'z' then c.toNat - 87
    else if 'A' ≤ c ∧ c ≤ 'Z' then c.toNat - 55
    else radix
  if value < radix then some value else none

def digitsValue (radix : Nat) : List Char → Nat → Option Nat
  | [], value => some value
  | c :: rest, value => do
    let digit ← digitValue radix c
    digitsValue radix rest (value * radix + digit)

/-- A number of at most `maxDigits` digits below `bound`; a leading zero may be
refused. -/
def readNumber (radix maxDigits bound : Nat) (allowZeroPrefix : Bool) (text : List Char) : Option Nat :=
  if text = [] ∨ maxDigits < text.length then none
  else if !allowZeroPrefix && text.head? == some '0' && text.length > 1 then none
  else do
    let value ← digitsValue radix text 0
    if value < bound then some value else none

variable {c : Char} {n radix : Nat}

theorem digitValue_digitChar {d : Nat} (small : d < radix) (hex : radix ≤ 16) :
    digitValue radix d.digitChar = some d := by
  have bound : d < 16 := Nat.lt_of_lt_of_le small hex
  have value : ∀ d < 16, (if '0' ≤ d.digitChar ∧ d.digitChar ≤ '9' then d.digitChar.toNat - 48
      else if 'a' ≤ d.digitChar ∧ d.digitChar ≤ 'z' then d.digitChar.toNat - 87
      else if 'A' ≤ d.digitChar ∧ d.digitChar ≤ 'Z' then d.digitChar.toNat - 55
      else radix) = d := by
    intro d lt
    interval_cases d <;> rfl
  unfold digitValue
  rw [value d bound, if_pos small]

theorem digitsValue_append {radix : Nat} {tail : List Char} : ∀ {text : List Char} {value : Nat},
    digitsValue radix (text ++ tail) value =
      (digitsValue radix text value).bind (digitsValue radix tail)
  | [], _ => rfl
  | c :: text, value => by
    rw [cons_append, digitsValue, digitsValue]
    cases digitValue radix c with
    | none => rfl
    | some digit => exact digitsValue_append

theorem digitsValue_toDigits (least : 1 < radix) (hex : radix ≤ 16) (n : Nat) :
    digitsValue radix (Nat.toDigits radix n) 0 = some n := by
  induction n using Nat.strong_induction_on with
  | _ n ih =>
    by_cases small : n < radix
    · rw [Nat.toDigits_of_lt_base small, digitsValue, digitValue_digitChar small hex]
      simp [digitsValue]
    · have fewer : n / radix < n := Nat.div_lt_self (by omega) least
      have digit : n % radix < radix := Nat.mod_lt n (by omega)
      rw [Nat.toDigits_of_base_le least (Nat.not_lt.mp small), digitsValue_append, ih _ fewer,
        Option.bind_some, digitsValue, digitValue_digitChar digit hex]
      simp [digitsValue, Nat.div_add_mod']

theorem head_toDigits_ne_zero (least : 1 < radix) (long : 1 < (Nat.toDigits radix n).length) :
    (Nat.toDigits radix n).head? ≠ some '0' := by
  have leading : ∀ n : Nat, 0 < n → (Nat.toDigits radix n).head? ≠ some '0' := by
    intro n
    induction n using Nat.strong_induction_on with
    | _ n ih =>
      intro positive
      by_cases small : n < radix
      · rw [Nat.toDigits_of_lt_base small, head?_cons, ne_eq, Option.some.injEq,
          Nat.digitChar_eq_zero]
        exact Nat.ne_of_gt positive
      · rw [Nat.toDigits_of_base_le least (Nat.not_lt.mp small),
          head?_append_of_ne_nil _ Nat.toDigits_ne_nil]
        exact ih _ (Nat.div_lt_self positive least) (Nat.div_pos (Nat.not_lt.mp small) (by omega))
  rcases Nat.eq_zero_or_pos n with rfl | positive
  · rw [Nat.toDigits_zero] at long
    exact absurd long (by decide)
  · exact leading n positive

theorem readNumber_toDigits {maxDigits bound : Nat} {allowZeroPrefix : Bool}
    (least : 1 < radix) (hex : radix ≤ 16) (small : n < bound) (some_digits : 0 < maxDigits)
    (fits : bound ≤ radix ^ maxDigits) :
    readNumber radix maxDigits bound allowZeroPrefix (Nat.toDigits radix n) = some n := by
  have length : (Nat.toDigits radix n).length ≤ maxDigits :=
    (Nat.length_toDigits_le_iff least some_digits).mpr (Nat.lt_of_lt_of_le small fits)
  unfold readNumber
  rw [if_neg, if_neg, digitsValue_toDigits least hex]
  · exact if_pos small
  · intro refused
    rw [Bool.and_eq_true, Bool.and_eq_true, beq_iff_eq, decide_eq_true_eq] at refused
    exact head_toDigits_ne_zero least refused.2 refused.1.2
  · rintro (empty | long)
    · exact Nat.toDigits_ne_nil empty
    · omega

/-- The characters that stand in a text form of an address. -/
def isAddrChar (c : Char) : Bool :=
  ['0', '1', '2', '3', '4', '5', '6', '7', '8', '9', 'a', 'b', 'c', 'd', 'e', 'f', '.', ':'].contains c

theorem mem_toDigits (least : 1 < radix) (hex : radix ≤ 16)
    (mem : c ∈ Nat.toDigits radix n) : isAddrChar c = true ∧ c ≠ '.' ∧ c ≠ ':' := by
  have digit : ∀ d < 16, isAddrChar d.digitChar = true ∧ d.digitChar ≠ '.' ∧ d.digitChar ≠ ':' := by
    decide
  induction n using Nat.strong_induction_on with
  | _ n ih =>
    by_cases small : n < radix
    · rw [Nat.toDigits_of_lt_base small, mem_singleton] at mem
      subst mem
      exact digit n (by omega)
    · rw [Nat.toDigits_of_base_le least (Nat.not_lt.mp small), mem_append,
        mem_singleton] at mem
      rcases mem with mem | rfl
      · exact ih _ (Nat.div_lt_self (by omega) least) mem
      · exact digit _ (Nat.lt_of_lt_of_le (Nat.mod_lt n (by omega)) hex)

/-! ### IPv4 -/

@[ext]
structure Ipv4Addr where
  octets : List Nat
  four : octets.length = 4
  small : ∀ n ∈ octets, n < 256
deriving DecidableEq

namespace Ipv4Addr

/-- Dotted decimal. -/
def text (a : Ipv4Addr) : List Char := ['.'].intercalate (a.octets.map (Nat.toDigits 10))

/-- Four decimal numbers without leading zeros. -/
def parse (text : List Char) : Option Ipv4Addr :=
  match (text.splitOn '.').mapM (readNumber 10 3 256 false) with
  | some octets =>
    if valid : octets.length = 4 ∧ ∀ n ∈ octets, n < 256 then
      some ⟨octets, valid.1, valid.2⟩
    else none
  | none => none

def isLoopback (a : Ipv4Addr) : Bool := a.octets.head? == some 127

end Ipv4Addr

/-! ### IPv6 -/

@[ext]
structure Ipv6Addr where
  segments : List Nat
  eight : segments.length = 8
  small : ∀ n ∈ segments, n < 65536
deriving DecidableEq

/-- A run of zero segments. -/
structure Span where
  start : Nat
  len : Nat

namespace Ipv6Addr

/-- One step of the search: the longest run of zeros, and the one that ends here. -/
def zeroStep (i segment : Nat) : Span × Span → Span × Span
  | (longest, current) =>
    if segment = 0 then
      let start := if current.len = 0 then i else current.start
      let grown : Span := ⟨start, current.len + 1⟩
      (if longest.len < grown.len then grown else longest, grown)
    else (longest, ⟨0, 0⟩)

/-- The longest run of zeros, the first of equal ones. -/
def zeroSpan (i : Nat) : List Nat → Span × Span → Span
  | [], runs => runs.1
  | segment :: rest, runs => zeroSpan (i + 1) rest (zeroStep i segment runs)

/-- Segments in hexadecimal between colons. -/
def join (segments : List Nat) : List Char := [':'].intercalate (segments.map (Nat.toDigits 16))

/-- The address holds an IPv4 address, `::ffff:a.b.c.d`. -/
def mapped (segments : List Nat) : Option (List Nat) :=
  match segments with
  | [0, 0, 0, 0, 0, 65535, high, low] => some [high / 256, high % 256, low / 256, low % 256]
  | _ => none

/-- The standard text form. -/
def text (a : Ipv6Addr) : List Char :=
  match mapped a.segments with
  | some octets => "::ffff:".toList ++ ['.'].intercalate (octets.map (Nat.toDigits 10))
  | none =>
    let zeroes := zeroSpan 0 a.segments (⟨0, 0⟩, ⟨0, 0⟩)
    if zeroes.len > 1 then
      join (a.segments.take zeroes.start) ++ "::".toList ++
        join (a.segments.drop (zeroes.start + zeroes.len))
    else join a.segments

/-- Cut a text at its first `::`. -/
def cutDouble : List Char → Option (List Char × List Char)
  | [] => none
  | [_] => none
  | c :: d :: rest =>
    if c = ':' ∧ d = ':' then some ([], rest)
    else (cutDouble (d :: rest)).map fun cut => (c :: cut.1, cut.2)

def readSegment (text : List Char) : Option Nat := readNumber 16 4 65536 true text

/-- Segments of which the last two may be written as an IPv4 address. -/
def readSegments : List (List Char) → Option (List Nat)
  | [] => some []
  | [last] =>
    match readSegment last, Ipv4Addr.parse last with
    | some segment, _ => some [segment]
    | none, some ⟨[a, b, c, d], _, _⟩ => some [a * 256 + b, c * 256 + d]
    | none, _ => none
  | group :: rest => do
    let segment ← readSegment group
    let segments ← readSegments rest
    some (segment :: segments)

/-- The groups of a text between colons. -/
def groups (text : List Char) : List (List Char) := if text = [] then [] else text.splitOn ':'

/-- The segments of a text: eight groups, or up to seven around a `::`. -/
def parseSegments (text : List Char) : Option (List Nat) :=
  match cutDouble text with
  | none => readSegments (groups text)
  | some (front, back) => do
    let front ← (groups front).mapM readSegment
    let back ← readSegments (groups back)
    if front.length + back.length ≤ 7 then
      some (front ++ List.replicate (8 - front.length - back.length) 0 ++ back)
    else none

def parse (text : List Char) : Option Ipv6Addr :=
  match parseSegments text with
  | some segments =>
    if valid : segments.length = 8 ∧ ∀ n ∈ segments, n < 65536 then
      some ⟨segments, valid.1, valid.2⟩
    else none
  | none => none

def isLoopback (a : Ipv6Addr) : Bool := a.segments == [0, 0, 0, 0, 0, 0, 0, 1]

end Ipv6Addr

/-! ### Both -/

inductive IpAddr where
  | v4 (a : Ipv4Addr)
  | v6 (a : Ipv6Addr)
deriving DecidableEq

namespace IpAddr

def text : IpAddr → List Char
  | v4 a => a.text
  | v6 a => a.text

def parse (text : List Char) : Option IpAddr :=
  match Ipv4Addr.parse text with
  | some a => some (v4 a)
  | none => (Ipv6Addr.parse text).map v6

def isLoopback : IpAddr → Bool
  | v4 a => a.isLoopback
  | v6 a => a.isLoopback

end IpAddr

/-! ### Reading what was written -/

theorem mapM_read_written {α : Type*} {write : α → List Char} {read : List Char → Option α} :
    ∀ {items : List α}, (∀ a ∈ items, read (write a) = some a) →
      (items.map write).mapM read = some items
  | [], _ => rfl
  | a :: rest, each => by
    have tail := @mapM_read_written α write read rest fun b mem => each b (mem_cons_of_mem _ mem)
    rw [map_cons, mapM_cons, each a mem_cons_self, tail]
    rfl

namespace Ipv4Addr

variable {a : Ipv4Addr}

theorem parse_text : parse a.text = some a := by
  have no_dot : ∀ group ∈ a.octets.map (Nat.toDigits 10), '.' ∉ group := by
    intro group mem inGroup
    obtain ⟨n, -, rfl⟩ := mem_map.mp mem
    exact (mem_toDigits (by decide) (by decide) inGroup).2.1 rfl
  have some_group : a.octets.map (Nat.toDigits 10) ≠ [] := by
    rw [ne_eq, map_eq_nil_iff, ← length_eq_zero_iff, a.four]
    decide
  have read : (a.octets.map (Nat.toDigits 10)).mapM (readNumber 10 3 256 false) = some a.octets :=
    mapM_read_written fun n mem =>
      readNumber_toDigits (by decide) (by decide) (a.small n mem) (by decide) (by decide)
  rw [parse, text, splitOn_intercalate '.' no_dot some_group, read]
  exact dif_pos ⟨a.four, a.small⟩

theorem parse_eq_none {text : List Char} (no_dot : '.' ∉ text) : parse text = none := by
  rw [parse, splitOn_eq_singleton no_dot, mapM_cons]
  cases readNumber 10 3 256 false text with
  | none => rfl
  | some n => exact dif_neg (by rintro ⟨⟨⟩, -⟩)

end Ipv4Addr

theorem mem_intercalate {sep c : Char} : ∀ {groups : List (List Char)},
    c ∈ [sep].intercalate groups → c = sep ∨ ∃ group ∈ groups, c ∈ group
  | [], mem => absurd mem not_mem_nil
  | [group], mem => by
    rw [intercalate_singleton] at mem
    exact .inr ⟨group, mem_singleton_self group, mem⟩
  | group :: group' :: rest, mem => by
    rw [intercalate_cons_cons, mem_append, mem_append, mem_singleton] at mem
    rcases mem with (mem | rfl) | mem
    · exact .inr ⟨group, mem_cons_self, mem⟩
    · exact .inl rfl
    · rcases mem_intercalate mem with rfl | ⟨found, inRest, mem⟩
      · exact .inl rfl
      · exact .inr ⟨found, mem_cons_of_mem _ inRest, mem⟩

theorem mem_dotted {octets : List Nat}
    (mem : c ∈ ['.'].intercalate (octets.map (Nat.toDigits 10))) : isAddrChar c = true ∧ c ≠ ':' := by
  rcases mem_intercalate mem with rfl | ⟨group, inGroups, inGroup⟩
  · decide
  · obtain ⟨n, -, rfl⟩ := mem_map.mp inGroups
    have digit := mem_toDigits (by decide) (by decide) inGroup
    exact ⟨digit.1, digit.2.2⟩

namespace Ipv6Addr

variable {a : Ipv6Addr} {c : Char}

theorem mem_join {segments : List Nat} (mem : c ∈ join segments) :
    isAddrChar c = true ∧ c ≠ '.' := by
  rcases mem_intercalate mem with rfl | ⟨group, inGroups, inGroup⟩
  · decide
  · obtain ⟨n, -, rfl⟩ := mem_map.mp inGroups
    have digit := mem_toDigits (by decide) (by decide) inGroup
    exact ⟨digit.1, digit.2.1⟩

@[simp] theorem join_nil : join [] = [] := rfl

@[simp] theorem join_singleton (segment : Nat) : join [segment] = Nat.toDigits 16 segment :=
  intercalate_singleton

theorem join_cons_cons (segment next : Nat) (rest : List Nat) :
    join (segment :: next :: rest) = Nat.toDigits 16 segment ++ ':' :: join (next :: rest) := by
  rw [join, map_cons, map_cons, intercalate_cons_cons, append_assoc,
    singleton_append, ← map_cons, ← join]

theorem join_concat {segments : List Nat} (some_segment : segments ≠ []) (last : Nat) :
    join (segments ++ [last]) = join segments ++ ':' :: Nat.toDigits 16 last := by
  induction segments with
  | nil => exact absurd rfl some_segment
  | cons segment rest ih =>
    cases rest with
    | nil => rw [singleton_append, join_cons_cons, join_singleton, join_singleton]
    | cons next rest =>
      rw [cons_append, cons_append, join_cons_cons, ← cons_append,
        ih (cons_ne_nil _ _), join_cons_cons, append_assoc, cons_append]

theorem join_eq_cons (segment : Nat) (rest : List Nat) :
    ∃ d tail, join (segment :: rest) = d :: tail ∧ d ≠ ':' := by
  obtain ⟨d, tail, digits⟩ := exists_cons_of_ne_nil (@Nat.toDigits_ne_nil segment 16)
  have digit : d ≠ ':' :=
    (mem_toDigits (by decide) (by decide) (digits ▸ mem_cons_self)).2.2
  cases rest with
  | nil => exact ⟨d, tail, by rw [join_singleton, digits], digit⟩
  | cons next rest =>
    exact ⟨d, tail ++ ':' :: join (next :: rest), by rw [join_cons_cons, digits]; rfl, digit⟩

/-! #### The first `::` -/

theorem cutDouble_cons (not_colon : c ≠ ':') (rest : List Char) :
    cutDouble (c :: rest) = (cutDouble rest).map fun cut => (c :: cut.1, cut.2) := by
  cases rest with
  | nil => rfl
  | cons d rest => rw [cutDouble, if_neg fun both => not_colon both.1]

theorem cutDouble_colon {d : Char} (not_colon : d ≠ ':') (rest : List Char) :
    cutDouble (':' :: d :: rest) = (cutDouble (d :: rest)).map fun cut => (':' :: cut.1, cut.2) := by
  rw [cutDouble, if_neg fun both => not_colon both.2]

theorem cutDouble_digits {tail : List Char} : ∀ {digits : List Char}, ':' ∉ digits →
    cutDouble (digits ++ tail) = (cutDouble tail).map fun cut => (digits ++ cut.1, cut.2)
  | [], _ => by
    rw [nil_append]
    cases cutDouble tail <;> rfl
  | c :: digits, no_colon => by
    rw [mem_cons, not_or] at no_colon
    rw [cons_append, cutDouble_cons (Ne.symm no_colon.1), cutDouble_digits no_colon.2,
      Option.map_map]
    rfl

theorem cutDouble_join {tail : List Char} {segments : List Nat} (some_segment : segments ≠ []) :
    cutDouble (join segments ++ tail) =
      (cutDouble tail).map fun cut => (join segments ++ cut.1, cut.2) := by
  have no_colon : ∀ n, ':' ∉ Nat.toDigits 16 n := fun n mem =>
    (mem_toDigits (by decide) (by decide) mem).2.2 rfl
  induction segments with
  | nil => exact absurd rfl some_segment
  | cons segment rest ih =>
    cases rest with
    | nil => rw [join_singleton, cutDouble_digits (no_colon segment)]
    | cons next rest =>
      obtain ⟨d, later, starts, digit⟩ := join_eq_cons next rest
      have ih := ih (cons_ne_nil _ _)
      rw [starts, cons_append] at ih
      rw [join_cons_cons, append_assoc, cons_append,
        cutDouble_digits (no_colon segment), starts, cons_append, cutDouble_colon digit,
        ih, Option.map_map, Option.map_map]
      congr 1
      funext cut
      simp

/-! #### Segments -/

theorem readSegment_toDigits {n : Nat} (small : n < 65536) :
    readSegment (Nat.toDigits 16 n) = some n :=
  readNumber_toDigits (by decide) (by decide) small (by decide) (by decide)

theorem readSegments_written : ∀ {segments : List Nat}, (∀ n ∈ segments, n < 65536) →
    readSegments (segments.map (Nat.toDigits 16)) = some segments
  | [], _ => rfl
  | [segment], small => by
    rw [map_singleton, readSegments,
      readSegment_toDigits (small segment (mem_singleton_self segment))]
  | segment :: next :: rest, small => by
    have tail := @readSegments_written (next :: rest) fun n mem =>
      small n (mem_cons_of_mem _ mem)
    rw [map_cons] at tail
    rw [map_cons, map_cons, readSegments,
      readSegment_toDigits (small segment mem_cons_self), tail]
    · rfl
    · rintro ⟨⟩

theorem groups_join (segments : List Nat) :
    groups (join segments) = segments.map (Nat.toDigits 16) := by
  cases segments with
  | nil => rfl
  | cons segment rest =>
    obtain ⟨d, tail, starts, -⟩ := join_eq_cons segment rest
    have no_colon : ∀ group ∈ (segment :: rest).map (Nat.toDigits 16), ':' ∉ group := by
      intro group mem inGroup
      obtain ⟨n, -, rfl⟩ := mem_map.mp mem
      exact (mem_toDigits (by decide) (by decide) inGroup).2.2 rfl
    rw [groups, if_neg (by rw [starts]; exact cons_ne_nil _ _), join,
      splitOn_intercalate ':' no_colon (by simp)]

theorem parseSegments_join {segments : List Nat} (small : ∀ n ∈ segments, n < 65536) :
    parseSegments (join segments) = some segments := by
  have no_double : cutDouble (join segments) = none := by
    cases segments with
    | nil => rfl
    | cons segment rest =>
      have cut := @cutDouble_join [] (segment :: rest) (cons_ne_nil _ _)
      rwa [append_nil] at cut
  rw [parseSegments, no_double]
  rw [groups_join, readSegments_written small]

theorem parseSegments_compressed {front back : List Nat} (smallFront : ∀ n ∈ front, n < 65536)
    (smallBack : ∀ n ∈ back, n < 65536) (room : front.length + back.length ≤ 7) :
    parseSegments (join front ++ "::".toList ++ join back) =
      some (front ++ replicate (8 - front.length - back.length) 0 ++ back) := by
  have cut : cutDouble (join front ++ "::".toList ++ join back) = some (join front, join back) := by
    have double : cutDouble ("::".toList ++ join back) = some ([], join back) := rfl
    rw [append_assoc]
    cases front with
    | nil => rw [join_nil, nil_append, double]
    | cons segment rest =>
      rw [cutDouble_join (cons_ne_nil _ _), double, Option.map_some, append_nil]
  have readFront : (groups (join front)).mapM readSegment = some front := by
    rw [groups_join]
    exact mapM_read_written fun n mem => readSegment_toDigits (smallFront n mem)
  rw [parseSegments, cut]
  dsimp only
  rw [readFront, groups_join back, readSegments_written smallBack]
  exact if_pos room

theorem readSegments_empty_last : ∀ groups : List (List Char),
    readSegments (groups ++ [[]]) = none
  | [] => by
    have no_number : readSegment [] = none := rfl
    have no_address : Ipv4Addr.parse [] = none := Ipv4Addr.parse_eq_none not_mem_nil
    rw [nil_append, readSegments, no_number, no_address]
  | group :: rest => by
    have tail := readSegments_empty_last rest
    obtain ⟨next, later, isCons⟩ : ∃ next later, rest ++ [[]] = next :: later :=
      exists_cons_of_ne_nil (append_ne_nil_of_right_ne_nil _ (cons_ne_nil _ _))
    rw [isCons] at tail
    rw [cons_append, isCons, readSegments, tail]
    · cases readSegment group <;> rfl
    · rintro ⟨⟩

theorem parseSegments_trailing_colon (segments : List Nat) :
    parseSegments (join segments ++ [':']) = none := by
  have no_double : cutDouble (join segments ++ [':']) = none := by
    cases segments with
    | nil => rfl
    | cons segment rest => rw [cutDouble_join (cons_ne_nil _ _)]; rfl
  have empty_last : groups (join segments ++ [':']) = (join segments).splitOn ':' ++ [[]] := by
    rw [groups, if_neg (append_ne_nil_of_right_ne_nil _ (cons_ne_nil _ _)),
      splitOn_append_cons_self, splitOn_nil]
  rw [parseSegments, no_double]
  rw [empty_last, readSegments_empty_last]

/-! #### The longest run of zeros -/

/-- The run of zeros that `done` ends with, and a longest run in it. -/
structure Runs (done : List Nat) (runs : Span × Span) : Prop where
  current : ∃ before, done = before ++ List.replicate runs.2.len 0 ∧ before.getLast? ≠ some 0 ∧
    (0 < runs.2.len → runs.2.start = before.length)
  longest : ∃ before after, done = before ++ List.replicate runs.1.len 0 ++ after ∧
    before.getLast? ≠ some 0 ∧ after.head? ≠ some 0 ∧
    (0 < runs.1.len → runs.1.start = before.length)
  le : runs.2.len ≤ runs.1.len

theorem Runs.nil : Runs [] (⟨0, 0⟩, ⟨0, 0⟩) where
  current := ⟨[], rfl, nofun, fun positive => absurd positive (Nat.lt_irrefl 0)⟩
  longest := ⟨[], [], rfl, nofun, nofun, fun positive => absurd positive (Nat.lt_irrefl 0)⟩
  le := Nat.le_refl 0

theorem Runs.step {done : List Nat} {runs : Span × Span} (known : Runs done runs) (segment : Nat) :
    Runs (done ++ [segment]) (zeroStep done.length segment runs) := by
  obtain ⟨longest, current⟩ := runs
  obtain ⟨⟨before, endsWith, notZero, start⟩, ⟨front, after, hasRun, frontEnd, afterStart, first⟩, le⟩ :=
    known
  unfold zeroStep
  dsimp only
  by_cases zero : segment = 0
  · subst zero
    have grown : done ++ [0] = before ++ replicate (current.len + 1) 0 := by
      rw [replicate_succ', ← append_assoc, ← endsWith]
    have startGrown : (if current.len = 0 then done.length else current.start) = before.length := by
      split
      · rename_i empty
        rw [endsWith, empty, replicate_zero, append_nil]
      · rename_i some_zero
        exact start (Nat.pos_of_ne_zero some_zero)
    rw [if_pos rfl]
    refine ⟨⟨before, grown, notZero, fun _ => startGrown⟩, ?_, ?_⟩
    · by_cases longer : longest.len < current.len + 1
      · rw [if_pos longer]
        exact ⟨before, [], by rw [grown, append_nil], notZero, nofun, fun _ => startGrown⟩
      · rw [if_neg longer]
        refine ⟨front, after ++ [0], by rw [hasRun, append_assoc], frontEnd, ?_, first⟩
        cases after with
        | cons next later => exact afterStart
        | nil =>
          -- a longest run at the end would be the current run, which is shorter
          have longer_run : before = front ++ replicate (longest.len - current.len) 0 := by
            have split_run : replicate longest.len 0 =
                replicate (longest.len - current.len) 0 ++ replicate current.len 0 := by
              rw [replicate_append_replicate, Nat.sub_add_cancel le]
            rw [hasRun, append_nil, split_run, ← append_assoc] at endsWith
            exact (append_cancel_right endsWith).symm
          obtain ⟨k, more⟩ : ∃ k, longest.len - current.len = k + 1 :=
            Nat.exists_eq_succ_of_ne_zero (by omega)
          rw [longer_run, more, replicate_succ', ← append_assoc,
            getLast?_append_cons] at notZero
          exact absurd rfl notZero
    · split <;> dsimp only <;> omega
  · rw [if_neg zero]
    refine ⟨⟨done ++ [segment], ?_, ?_, fun positive => absurd positive (Nat.lt_irrefl 0)⟩,
      ⟨front, after ++ [segment], ?_, frontEnd, ?_, first⟩, Nat.zero_le _⟩
    · rw [replicate_zero, append_nil]
    · rw [getLast?_concat, ne_eq, Option.some.injEq]
      exact zero
    · rw [hasRun, append_assoc]
    · cases after with
      | cons next later => exact afterStart
      | nil =>
        rw [nil_append, head?_cons, ne_eq, Option.some.injEq]
        exact zero

theorem Runs.zeroSpan : ∀ {rest done : List Nat} {runs : Span × Span}, Runs done runs →
    ∃ current, Runs (done ++ rest) (zeroSpan done.length rest runs, current)
  | [], done, runs, known => ⟨runs.2, by rw [append_nil]; exact known⟩
  | segment :: rest, done, runs, known => by
    have later := @Runs.zeroSpan rest _ _ (known.step segment)
    rwa [append_assoc, singleton_append, length_append, length_singleton] at later

theorem zeroSpan_split (segments : List Nat)
    (some_zero : 0 < (zeroSpan 0 segments (⟨0, 0⟩, ⟨0, 0⟩)).len) :
    let zeroes := zeroSpan 0 segments (⟨0, 0⟩, ⟨0, 0⟩)
    let front := segments.take zeroes.start
    let back := segments.drop (zeroes.start + zeroes.len)
    segments = front ++ replicate zeroes.len 0 ++ back ∧
      front.getLast? ≠ some 0 ∧ back.head? ≠ some 0 := by
  intro zeroes front back
  obtain ⟨current, -, ⟨before, after, whole, beforeEnd, afterStart, start⟩, -⟩ :=
    @Runs.zeroSpan segments [] _ Runs.nil
  rw [nil_append] at whole
  have start := start some_zero
  have isFront : front = before := by
    change segments.take zeroes.start = before
    rw [show zeroes.start = before.length from start]
    conv_lhs => rw [whole, append_assoc]
    exact take_left
  have isBack : back = after := by
    change segments.drop (zeroes.start + zeroes.len) = after
    rw [show zeroes.start = before.length from start]
    conv_lhs => rw [whole]
    rw [show before.length + zeroes.len = (before ++ replicate zeroes.len 0).length by
      rw [length_append, length_replicate]]
    exact drop_left
  rw [isFront, isBack]
  exact ⟨whole, beforeEnd, afterStart⟩

theorem text_compressed (unmapped : mapped a.segments = none)
    (long : (zeroSpan 0 a.segments (⟨0, 0⟩, ⟨0, 0⟩)).len > 1) :
    ∃ front n back, 1 < n ∧ a.segments = front ++ replicate n 0 ++ back ∧
      front.getLast? ≠ some 0 ∧ back.head? ≠ some 0 ∧
      a.text = join front ++ "::".toList ++ join back := by
  obtain ⟨whole, frontEnd, backStart⟩ := zeroSpan_split a.segments (Nat.lt_of_succ_lt long)
  refine ⟨_, _, _, long, whole, frontEnd, backStart, ?_⟩
  rw [text, unmapped]
  exact if_pos long

theorem text_plain (unmapped : mapped a.segments = none)
    (short : ¬ (zeroSpan 0 a.segments (⟨0, 0⟩, ⟨0, 0⟩)).len > 1) : a.text = join a.segments := by
  rw [text, unmapped]
  exact if_neg short

theorem mem_text (mem : c ∈ a.text) : isAddrChar c = true := by
  have start : ∀ c ∈ "::ffff:".toList, isAddrChar c = true := by simp [isAddrChar]
  have double : ∀ c ∈ "::".toList, isAddrChar c = true := by simp [isAddrChar]
  cases unmapped : mapped a.segments with
  | some octets =>
    rw [text, unmapped] at mem
    rcases mem_append.mp mem with mem | mem
    · exact start c mem
    · exact (mem_dotted mem).1
  | none =>
    by_cases long : (zeroSpan 0 a.segments (⟨0, 0⟩, ⟨0, 0⟩)).len > 1
    · obtain ⟨front, n, back, -, -, -, -, text⟩ := text_compressed unmapped long
      rw [text, mem_append, mem_append] at mem
      rcases mem with (mem | mem) | mem
      · exact (mem_join mem).1
      · exact double c mem
      · exact (mem_join mem).1
    · rw [text_plain unmapped long] at mem
      exact (mem_join mem).1

end Ipv6Addr

end AgentProtocols.Lib
