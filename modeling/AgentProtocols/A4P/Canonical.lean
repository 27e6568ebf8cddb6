import Mathlib.Data.List.Sort
import Mathlib.Data.String.Basic
import AgentProtocols.A4P.Util

/-!
Canonical JSON, the text that every signature covers: members sorted by key, no spaces, floats as
Python prints them. The shortest digits of a float come from the platform.
-/

namespace AgentProtocols.A4P

open Json

/-! ### Floats -/

/-- `str::parse::<i32>`, on the characters of the text. -/
def parseI32 (cs : List Char) : Option Int :=
  let (negative, digits) := match cs with
    | '-' :: ds => (true, ds)
    | '+' :: ds => (false, ds)
    | ds => (false, ds)
  if digits.isEmpty || !digits.all Char.isDigit then none
  else
    let n : Int := Nat.ofDigitChars 10 digits 0
    let i := if negative then -n else n
    if -2 ^ 31 ≤ i ∧ i < 2 ^ 31 then some i else none

/-- The digits and the exponent that the crate reads off the `{:e}` form. -/
def scientificParts (scientific : List Char) : List Char × Int :=
  let mantissa := scientific.takeWhile (· ≠ 'e')
  let exponent := match scientific.dropWhile (· ≠ 'e') with
    | [] => ['0']
    | _ :: rest => rest
  let digits := (mantissa.filter Char.isDigit).rdropWhile (· = '0')
  (if digits.isEmpty then ['0'] else digits, (parseI32 exponent).getD 0)

/-- `{:02}` of a natural number. -/
def padTwo (n : Nat) : List Char := if n < 10 then '0' :: natText n else natText n

/-- The layout of Python's `repr`, with the point `decpt` places after the first digit begins. -/
def floatLayout (digits : List Char) (decpt : Int) : List Char :=
  if decpt ≤ -4 ∨ decpt > 16 then
    let exp := decpt - 1
    digits.take 1 ++ (if digits.length > 1 then '.' :: digits.drop 1 else []) ++
      'e' :: (if exp < 0 then '-' else '+') :: padTwo exp.natAbs
  else if decpt ≤ 0 then
    '0' :: '.' :: (List.replicate (-decpt).toNat '0' ++ digits)
  else if decpt.toNat ≥ digits.length then
    digits ++ List.replicate (decpt.toNat - digits.length) '0' ++ ['.', '0']
  else
    digits.take decpt.toNat ++ '.' :: digits.drop decpt.toNat

section

variable (P : Platform)

def pythonFloatRepr (f : F64) : List Char :=
  if f.isZero then
    if f.negative then ['-', '0', '.', '0'] else ['0', '.', '0']
  else
    let (digits, exponent) := scientificParts (P.floatLowerExp f.abs).toList
    let layout := floatLayout digits (exponent + 1)
    if f.negative then '-' :: layout else layout

/-- The number case of `write_value`. -/
def writeNumber : Number → List Char
  | .posInt n _ => natText n
  | .negInt i _ _ => intText i
  | .float f => pythonFloatRepr P f

/-! ### Values -/

/-- Members sorted by key, as the `BTreeMap` of `write_object` iterates them. -/
def sortMembers {α : Type*} (members : List (String × α)) : List (String × α) :=
  members.insertionSort fun a b => a.1 ≤ b.1

theorem sortMembers_perm {α : Type*} (members : List (String × α)) :
    (sortMembers members).Perm members :=
  List.perm_insertionSort _ members

theorem sortMembers_sorted {α : Type*} (members : List (String × α)) :
    (sortMembers members).Pairwise fun a b => a.1 ≤ b.1 :=
  List.pairwise_insertionSort _ members

theorem sortMembers_map {α β : Type*} (f : α → β) (members : List (String × α)) :
    sortMembers (members.map fun e => (e.1, f e.2)) =
      (sortMembers members).map fun e => (e.1, f e.2) :=
  (List.map_insertionSort (r := fun a b : String × α => a.1 ≤ b.1)
    (s := fun a b : String × β => a.1 ≤ b.1) (fun e => (e.1, f e.2)) members
    fun _ _ _ _ => Iff.rfl).symm

theorem sortMembers_sortMembers {α : Type*} (members : List (String × α)) :
    sortMembers (sortMembers members) = sortMembers members :=
  (sortMembers_sorted members).insertionSort_eq

/-- The text of an object from the texts of its members. -/
def writeMembers (members : List (String × List Char)) : List Char :=
  '\x7b' :: (joinWith [','] ((sortMembers members).map fun e => quote e.1 ++ ':' :: e.2) ++
    ['\x7d'])

mutual

def writeValue : Json → List Char
  | .null => ['n', 'u', 'l', 'l']
  | .bool true => ['t', 'r', 'u', 'e']
  | .bool false => ['f', 'a', 'l', 's', 'e']
  | .num n => writeNumber P n
  | .str s => quote s
  | .arr items => '[' :: (joinWith [','] (writeItems items) ++ [']'])
  | .obj fields => writeMembers (writeFields fields)

def writeItems : List Json → List (List Char)
  | [] => []
  | x :: xs => writeValue x :: writeItems xs

def writeFields : JsonDict → List (String × List Char)
  | [] => []
  | (k, v) :: rest => (k, writeValue v) :: writeFields rest

end

/-! ### Python's default separators -/

mutual

/-- `write_python_json`: sorted members, with a space after each separator. -/
def writePythonJson : Json → List Char
  | .arr items => '[' :: (joinWith [',', ' '] (writePythonItems items) ++ [']'])
  | .obj fields =>
    '\x7b' :: (joinWith [',', ' '] ((sortMembers (writePythonFields fields)).map fun e =>
      quote e.1 ++ ':' :: ' ' :: e.2) ++ ['\x7d'])
  | v => writeValue P v

def writePythonItems : List Json → List (List Char)
  | [] => []
  | x :: xs => writePythonJson x :: writePythonItems xs

def writePythonFields : JsonDict → List (String × List Char)
  | [] => []
  | (k, v) :: rest => (k, writePythonJson v) :: writePythonFields rest

end

def pythonJsonDumps (v : Json) : String := String.ofList (writePythonJson P v)

def canonicalJsonValue (v : Json) : String := String.ofList (writeValue P v)

def canonicalJson (payload : JsonDict) : String := canonicalJsonValue P (.obj payload)

end

/-! ### Values with sorted members -/

mutual

/-- `sorted_value`: every object's members sorted by key. -/
def sortedValue : Json → Json
  | .arr items => .arr (sortedItems items)
  | .obj fields => .obj (sortMembers (sortedFields fields))
  | v => v

def sortedItems : List Json → List Json
  | [] => []
  | x :: xs => sortedValue x :: sortedItems xs

def sortedFields : JsonDict → JsonDict
  | [] => []
  | (k, v) :: rest => (k, sortedValue v) :: sortedFields rest

end

theorem sortedItems_eq_map : ∀ items : List Json, sortedItems items = items.map sortedValue
  | [] => rfl
  | x :: xs => by rw [sortedItems, sortedItems_eq_map xs, List.map_cons]

theorem sortedFields_eq_map : ∀ fields : JsonDict,
    sortedFields fields = fields.map fun e => (e.1, sortedValue e.2)
  | [] => rfl
  | (k, v) :: rest => by rw [sortedFields, sortedFields_eq_map rest, List.map_cons]

/-- The members of an object, sorted at every level. -/
def sortedDict (d : JsonDict) : JsonDict := sortMembers (sortedFields d)

theorem sortedValue_sortedValue (v : Json) : sortedValue (sortedValue v) = sortedValue v := by
  induction v using Json.induction with
  | arr items ih =>
    simp only [sortedValue, sortedItems_eq_map, List.map_map]
    congr 1
    exact List.map_congr_left ih
  | obj fields ih =>
    simp only [sortedValue, Json.obj.injEq]
    rw [sortedFields_eq_map (sortMembers _), sortMembers_map, sortMembers_sortMembers,
      sortedFields_eq_map, sortMembers_map, List.map_map]
    refine List.map_congr_left fun e mem => ?_
    have mem' := (sortMembers_perm fields).mem_iff.mp mem
    simp [ih e mem']
  | _ => rfl

theorem sortedDict_sortedDict (d : JsonDict) : sortedDict (sortedDict d) = sortedDict d := by
  have h := sortedValue_sortedValue (.obj d)
  simpa [sortedValue, sortedDict] using h

end AgentProtocols.A4P
