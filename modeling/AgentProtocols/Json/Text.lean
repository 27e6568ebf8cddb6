import Mathlib.Data.Fintype.Basic
import Mathlib.Tactic.FinCases
import AgentProtocols.Json.Value

/-!
The text forms of JSON values that `serde_json` writes; the digits of a float come in as
`floatText`. `quote_append_inj` and `intText_append_inj` say that strings and numbers end where they
end, whatever comes next.
-/

namespace AgentProtocols.Json

open List

/-- One character of a string literal, as `serde_json` escapes it. -/
def escapeChar (c : Char) : List Char :=
  if c = '"' then ['\\', '"']
  else if c = '\\' then ['\\', '\\']
  else if c = '\x08' then ['\\', 'b']
  else if c = '\t' then ['\\', 't']
  else if c = '\n' then ['\\', 'n']
  else if c = '\x0c' then ['\\', 'f']
  else if c = '\r' then ['\\', 'r']
  else if c.toNat < 0x20 then
    ['\\', 'u', '0', '0', Nat.digitChar (c.toNat / 16), Nat.digitChar (c.toNat % 16)]
  else [c]

def escape (s : List Char) : List Char := s.flatMap escapeChar

def quote (s : String) : List Char := '"' :: (escape s.toList ++ ['"'])

/-- The decimal digits of a natural number. -/
def natText (n : Nat) : List Char := Nat.toDigits 10 n

/-- `i64::to_string` and `u64::to_string`. -/
def intText (i : Int) : List Char :=
  if i < 0 then '-' :: natText i.natAbs else natText i.natAbs

def Number.text (floatText : F64 → String) : Number → List Char
  | .posInt n _ => natText n
  | .negInt i _ _ => intText i
  | .float f => (floatText f).toList

/-- Texts joined by a separator. -/
def joinWith (sep : List Char) : List (List Char) → List Char
  | [] => []
  | [t] => t
  | t :: rest => t ++ sep ++ joinWith sep rest

mutual

/-- `Value::to_string`: no spaces, members in insertion order. -/
def compact (floatText : F64 → String) : Json → List Char
  | .null => ['n', 'u', 'l', 'l']
  | .bool true => ['t', 'r', 'u', 'e']
  | .bool false => ['f', 'a', 'l', 's', 'e']
  | .num n => n.text floatText
  | .str s => quote s
  | .arr items => '[' :: (joinWith [','] (compactItems floatText items) ++ [']'])
  | .obj fields => '\x7b' :: (joinWith [','] (compactFields floatText fields) ++ ['\x7d'])

def compactItems (floatText : F64 → String) : List Json → List (List Char)
  | [] => []
  | x :: xs => compact floatText x :: compactItems floatText xs

def compactFields (floatText : F64 → String) : JsonDict → List (List Char)
  | [] => []
  | (k, v) :: rest => (quote k ++ ':' :: compact floatText v) :: compactFields floatText rest

end

mutual

/-- `to_string_pretty` at some depth: two spaces a level, empty containers on
one line. -/
def pretty (floatText : F64 → String) (depth : Nat) : Json → List Char
  | .arr [] => ['[', ']']
  | .arr (x :: xs) =>
    '[' :: (joinWith [','] (prettyItems floatText (depth + 1) (x :: xs)) ++
      '\n' :: (List.replicate (2 * depth) ' ' ++ [']']))
  | .obj [] => ['\x7b', '\x7d']
  | .obj (e :: es) =>
    '\x7b' :: (joinWith [','] (prettyFields floatText (depth + 1) (e :: es)) ++
      '\n' :: (List.replicate (2 * depth) ' ' ++ ['\x7d']))
  | v => compact floatText v

def prettyItems (floatText : F64 → String) (depth : Nat) : List Json → List (List Char)
  | [] => []
  | x :: xs =>
    ('\n' :: (List.replicate (2 * depth) ' ' ++ pretty floatText depth x)) ::
      prettyItems floatText depth xs

def prettyFields (floatText : F64 → String) (depth : Nat) : JsonDict → List (List Char)
  | [] => []
  | (k, v) :: rest =>
    ('\n' :: (List.replicate (2 * depth) ' ' ++ quote k ++ ':' :: ' ' ::
      pretty floatText depth v)) :: prettyFields floatText depth rest

end

/-! ### Strings are read back -/

/-- The value of a lower-case hexadecimal digit. -/
def hexValue (c : Char) : Nat := if c.isDigit then c.toNat - 48 else c.toNat - 87

/-- What follows the backslash of an escape. -/
def unescapeTail : List Char → Option (Char × List Char)
  | '"' :: r => some ('"', r)
  | '\\' :: r => some ('\\', r)
  | 'b' :: r => some ('\x08', r)
  | 't' :: r => some ('\t', r)
  | 'n' :: r => some ('\n', r)
  | 'f' :: r => some ('\x0c', r)
  | 'r' :: r => some ('\r', r)
  | 'u' :: '0' :: '0' :: high :: low :: r =>
    some (Char.ofNat (16 * hexValue high + hexValue low), r)
  | _ => none

/-- Read one character of a string literal. -/
def unescapeChar : List Char → Option (Char × List Char)
  | [] => none
  | c :: r => if c = '\\' then unescapeTail r else some (c, r)

private theorem unescapeChar_control (n : Fin 32) (r : List Char) :
    unescapeChar (escapeChar (Char.ofNat n) ++ r) = some (Char.ofNat n, r) := by
  fin_cases n <;> rfl

theorem unescapeChar_escapeChar (c : Char) (r : List Char) :
    unescapeChar (escapeChar c ++ r) = some (c, r) := by
  by_cases small : c.toNat < 32
  · have h := unescapeChar_control ⟨c.toNat, small⟩ r
    rwa [Char.ofNat_toNat] at h
  · by_cases hq : c = '"'
    · subst hq; rfl
    by_cases hb : c = '\\'
    · subst hb; rfl
    have plain : escapeChar c = [c] := by
      have not_control : ∀ d : Char, d.toNat < 32 → c ≠ d := fun d hd h => small (h ▸ hd)
      simp [escapeChar, hq, hb, small, not_control]
    simp [plain, unescapeChar, hb]

variable {n : Nat} {r s : List Char}

theorem escapeChar_append_inj {c d : Char}
    (h : escapeChar c ++ r = escapeChar d ++ s) : c = d ∧ r = s := by
  have read := congrArg unescapeChar h
  rw [unescapeChar_escapeChar, unescapeChar_escapeChar] at read
  simpa using read

theorem escapeChar_append_ne_quote (c : Char) (r s : List Char) :
    escapeChar c ++ r ≠ '"' :: s := by
  intro h
  have head : (escapeChar c).head? = some '"' := by
    have nonempty : escapeChar c ≠ [] := by
      unfold escapeChar
      split_ifs <;> simp
    have := congrArg head? h
    rwa [head?_append_of_ne_nil _ nonempty] at this
  unfold escapeChar at head
  split_ifs at head <;> simp_all

theorem escape_append_inj : ∀ {a b r s : List Char},
    escape a ++ '"' :: r = escape b ++ '"' :: s → a = b ∧ r = s
  | [], [], r, s, h => by simpa [escape] using h
  | [], d :: b, r, s, h => by
    simp only [escape, flatMap_nil, nil_append, flatMap_cons, append_assoc] at h
    exact absurd h.symm (escapeChar_append_ne_quote _ _ _)
  | c :: a, [], r, s, h => by
    simp only [escape, flatMap_nil, nil_append, flatMap_cons, append_assoc] at h
    exact absurd h (escapeChar_append_ne_quote _ _ _)
  | c :: a, d :: b, r, s, h => by
    simp only [escape, flatMap_cons, append_assoc] at h
    obtain ⟨rfl, tail⟩ := escapeChar_append_inj h
    obtain ⟨rfl, rfl⟩ := escape_append_inj (a := a) (b := b) tail
    exact ⟨rfl, rfl⟩

/-- A string literal ends where it ends, whatever follows it. -/
theorem quote_append_inj {a b : String} (h : quote a ++ r = quote b ++ s) : a = b ∧ r = s := by
  simp only [quote, cons_append, append_assoc, nil_append, cons.injEq,
    true_and] at h
  obtain ⟨chars, rest⟩ := escape_append_inj h
  exact ⟨String.toList_inj.mp chars, rest⟩

/-! ### Numbers are read back -/

theorem run_append_inj {p : Char → Bool} : ∀ {a b r s : List Char},
    (∀ c ∈ a, p c = true) → (∀ c ∈ b, p c = true) → (∀ c ∈ r.head?, p c = false) →
      (∀ c ∈ s.head?, p c = false) → a ++ r = b ++ s → a = b ∧ r = s
  | [], [], r, s, _, _, _, _, h => ⟨rfl, h⟩
  | [], d :: b, r, s, _, run, stop, _, h => by
    have first : r.head? = some d := by
      rw [nil_append] at h
      rw [h]
      rfl
    have ends := stop d first
    rw [run d (.head _)] at ends
    cases ends
  | c :: a, [], r, s, run, _, _, stop, h => by
    have first : s.head? = some c := by
      rw [nil_append] at h
      rw [← h]
      rfl
    have ends := stop c first
    rw [run c (.head _)] at ends
    cases ends
  | c :: a, d :: b, r, s, run, run', stop, stop', h => by
    simp only [cons_append, cons.injEq] at h
    obtain ⟨rfl, tail⟩ := h
    obtain ⟨rfl, rfl⟩ := run_append_inj (fun c mem => run c (.tail _ mem))
      (fun c mem => run' c (.tail _ mem)) stop stop' tail
    exact ⟨rfl, rfl⟩

theorem isDigit_of_mem_natText {c : Char} (mem : c ∈ natText n) : c.isDigit = true :=
  Nat.isDigit_of_mem_toDigits (by decide) (by decide) mem

theorem natText_injective {m : Nat} (same : natText m = natText n) : m = n := by
  have read := congrArg (fun text => Nat.ofDigitChars 10 text 0) same
  simpa only [natText, Nat.ofDigitChars_ten_toDigits] using read

theorem natText_append_inj {m : Nat} (stop : ∀ c ∈ r.head?, c.isDigit = false)
    (stop' : ∀ c ∈ s.head?, c.isDigit = false) (h : natText m ++ r = natText n ++ s) :
    m = n ∧ r = s := by
  obtain ⟨digits, rest⟩ := run_append_inj (fun _ => isDigit_of_mem_natText)
    (fun _ => isDigit_of_mem_natText) stop stop' h
  exact ⟨natText_injective digits, rest⟩

theorem natText_append_ne_minus (n : Nat) (r s : List Char) : natText n ++ r ≠ '-' :: s := by
  intro h
  cases digits : natText n with
  | nil => exact Nat.toDigits_ne_nil digits
  | cons c rest =>
    rw [digits, cons_append, cons.injEq] at h
    have digit : c.isDigit = true := by
      apply @isDigit_of_mem_natText n
      rw [digits]
      exact .head _
    rw [h.1] at digit
    cases digit

theorem intText_append_inj {i j : Int} (stop : ∀ c ∈ r.head?, c.isDigit = false)
    (stop' : ∀ c ∈ s.head?, c.isDigit = false) (h : intText i ++ r = intText j ++ s) :
    i = j ∧ r = s := by
  rw [intText, intText] at h
  split at h
  · split at h
    · simp only [cons_append, cons.injEq, true_and] at h
      obtain ⟨magnitude, rest⟩ := natText_append_inj stop stop' h
      exact ⟨by omega, rest⟩
    · exact absurd h.symm (natText_append_ne_minus _ _ _)
  · split at h
    · exact absurd h (natText_append_ne_minus _ _ _)
    · obtain ⟨magnitude, rest⟩ := natText_append_inj stop stop' h
      exact ⟨by omega, rest⟩

end AgentProtocols.Json
