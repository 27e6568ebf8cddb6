import Mathlib.Data.List.DropRight
import AgentProtocols.Json.Text
import AgentProtocols.Lib.Checks

/-!
Shared helpers of the authorization SDK. `Platform` collects what the crate takes from outside; a
clock reading is an argument. The readers reproduce Python's conventions on wire objects, and
`trim_trim` and `trim_strTrimmed` say that trimming twice is trimming once.
-/

namespace AgentProtocols.A4P

open Json List

abbrev Bytes := List UInt8

/-! ### Errors -/

/-- A protocol error with a stable code and HTTP status. -/
structure A4PProtocolError where
  message : String
  code : String
  httpStatus : Nat
deriving DecidableEq

namespace A4PProtocolError

def credentialKeyConflict : A4PProtocolError where
  message := "The public key is already registered to another user"
  code := "CREDENTIAL_KEY_CONFLICT"
  httpStatus := 409

def userCredentialNotRegistered (userId signatureMethod : String) : A4PProtocolError where
  message := "No '" ++ signatureMethod ++ "' credential is registered for user: " ++ userId
  code := "USER_CREDENTIAL_NOT_REGISTERED"
  httpStatus := 400

def isUserCredentialNotRegistered (e : A4PProtocolError) : Bool :=
  e.code == "USER_CREDENTIAL_NOT_REGISTERED"

end A4PProtocolError

/-- A mandate verification error with a stable code. -/
structure MandateSecurityError where
  code : String
  message : String
deriving DecidableEq

/-- The crate-wide error. -/
inductive A4PError where
  | protocol (e : A4PProtocolError)
  | mandateSecurity (e : MandateSecurityError)
  | credentialStoreFormat (message : String)
  | usageStore (message : String)
  | value (message : String)
  | runtime (message : String)
deriving DecidableEq

namespace A4PError

def text : A4PError → String
  | protocol e => e.message
  | mandateSecurity e => e.message
  | credentialStoreFormat m => m
  | usageStore m => m
  | value m => m
  | runtime m => m

/-- The error maps to a Python `ValueError`. -/
def isValueError : A4PError → Bool
  | value _ | protocol _ | mandateSecurity _ | credentialStoreFormat _ => true
  | usageStore _ | runtime _ => false

end A4PError

/-- The code outside the crate. A text stands for its UTF-8 bytes. -/
structure Platform where
  /-- The float of `Number::to_string`. -/
  floatDisplay : F64 → String
  /-- A finite float under `{:e}`. -/
  floatLowerExp : F64 → String
  toLowercase : String → String
  parseIsoZ : String → Option Int
  formatIsoZ : Int → String
  formatBeijingDisplayTime : String → String
  sha256 : String → Bytes
  /-- `VerifyingKey::from_bytes` accepts the 32 bytes. -/
  isVerifyingKey : Bytes → Bool
  /-- The Ed25519 verifying key of a signing key. -/
  verifyingKey : Bytes → Bytes
  ed25519Sign : Bytes → String → Bytes
  ed25519Verify : Bytes → String → Bytes → Bool
  /-- `intent_server_signing_key`, read from the process environment. -/
  intentServerSigningKey : Except A4PError Bytes
  /-- `operation_server_signing_key`. -/
  operationServerSigningKey : Except A4PError Bytes

/-! ### Text -/

/-- `char::is_whitespace`: the Unicode property `White_Space`. -/
def isWhitespace (c : Char) : Bool :=
  let n := c.toNat
  (9 ≤ n && n ≤ 13) || n == 0x20 || n == 0x85 || n == 0xa0 || n == 0x1680 ||
    (0x2000 ≤ n && n ≤ 0x200a) || n == 0x2028 || n == 0x2029 || n == 0x202f || n == 0x205f ||
    n == 0x3000

def trim (s : String) : String :=
  String.ofList ((s.toList.dropWhile isWhitespace).rdropWhile isWhitespace)

theorem trim_trim (s : String) : trim (trim s) = trim s := by
  have start : (trim s).toList.dropWhile isWhitespace = (trim s).toList := by
    rw [trim, String.toList_ofList, dropWhile_eq_self_iff]
    intro pos
    have pre := rdropWhile_prefix isWhitespace (l := s.toList.dropWhile isWhitespace)
    have fixed := dropWhile_eq_self_iff.mp
      (dropWhile_idempotent (p := isWhitespace) s.toList)
    rw [pre.getElem pos]
    exact fixed _
  have stop : (trim s).toList.rdropWhile isWhitespace = (trim s).toList := by
    rw [trim, String.toList_ofList, rdropWhile_idempotent]
  conv_lhs => rw [trim, start, stop, String.ofList_toList]

theorem trim_of_plain {s : String} (plain : ∀ c ∈ s.toList, isWhitespace c = false) :
    trim s = s := by
  have start : s.toList.dropWhile isWhitespace = s.toList := by
    rw [dropWhile_eq_self_iff]
    intro pos
    rw [plain _ (getElem_mem pos)]
    exact Bool.false_ne_true
  have stop : s.toList.rdropWhile isWhitespace = s.toList := by
    rw [rdropWhile_eq_self_iff]
    intro nonempty
    rw [plain _ (getLast_mem nonempty)]
    exact Bool.false_ne_true
  rw [trim, start, stop, String.ofList_toList]

/-! ### Python conventions on JSON values -/

/-- Python truthiness of a JSON value. -/
def isTruthy : Json → Bool
  | .null => false
  | .bool b => b
  | .num (.posInt n _) => n != 0
  | .num (.negInt _ _ _) => true
  | .num (.float f) => !f.isZero
  | .str s => s != ""
  | .arr items => !items.isEmpty
  | .obj fields => !fields.isEmpty

/-- `as_int`: an integer that fits an `i64`, and no boolean. -/
def asInt : Json → Option Int
  | .num n => n.asI64
  | _ => none

/-- `i64` addition of a release build. -/
def addI64 (a b : Int) : Int := (a + b).bmod (2 ^ 64)

/-- `get_object`: the members of the object at `key`. -/
def getObject (d : JsonDict) (key : String) : Option JsonDict := (d.get key).bind Json.asObject

/-- `get_object(..).cloned().unwrap_or_default()`. -/
def objectOrEmpty (d : JsonDict) (key : String) : JsonDict := (getObject d key).getD []

/-- A text that must not be empty. -/
def nonBlank (value message : String) : Except A4PError String :=
  if value = "" then .error (.value message) else .ok value

theorem nonBlank_ok {value message : String} (nonempty : value ≠ "") :
    nonBlank value message = .ok value := if_neg nonempty

section

variable (P : Platform)

/-- Python `str(value)`. -/
def pyStr : Json → String
  | .null => "None"
  | .bool true => "True"
  | .bool false => "False"
  | .num n => String.ofList (n.text P.floatDisplay)
  | .str s => s
  | v => String.ofList (v.compact P.floatDisplay)

/-- Python `str(mapping.get(key) or "")`. -/
def strOrEmpty (d : JsonDict) (key : String) : String :=
  match d.get key with
  | some v => if isTruthy v then pyStr P v else ""
  | none => ""

/-- Python `str(mapping.get(key) or "").strip()`. -/
def strTrimmed (d : JsonDict) (key : String) : String := trim (strOrEmpty P d key)

/-- Python `repr()` of an optional JSON value. -/
def pythonRepr : Option Json → String
  | none => "None"
  | some .null => "None"
  | some (.str text) =>
    let quoted := text.toList.flatMap fun c =>
      if c = '\\' then ['\\', '\\'] else if c = '\'' then ['\\', '\''] else [c]
    "'" ++ String.ofList quoted ++ "'"
  | some v => pyStr P v

variable {key : String} {d : JsonDict}

theorem strOrEmpty_str {s : String} (found : d.get key = some (.str s)) :
    strOrEmpty P d key = s := by
  by_cases h : s = ""
  · simp [strOrEmpty, found, isTruthy, h]
  · simp [strOrEmpty, found, isTruthy, pyStr]

theorem strTrimmed_str {s : String} (found : d.get key = some (.str s)) :
    strTrimmed P d key = trim s := by
  rw [strTrimmed, strOrEmpty_str P found]

theorem strTrimmed_congr {d' : JsonDict} (same : d.get key = d'.get key) :
    strTrimmed P d key = strTrimmed P d' key := by
  simp only [strTrimmed, strOrEmpty, same]

theorem trim_strTrimmed (d : JsonDict) (key : String) :
    trim (strTrimmed P d key) = strTrimmed P d key :=
  trim_trim _

end

/-! ### Base64url -/

/-- The character of a six-bit value in the URL-safe alphabet. -/
def sextetChar (n : Nat) : Char :=
  if n < 26 then Char.ofNat (n + 65)
  else if n < 52 then Char.ofNat (n + 71)
  else if n < 62 then Char.ofNat (n - 4)
  else if n = 62 then '-'
  else '_'

/-- The six-bit value of a character of the alphabet. -/
def charSextet (c : Char) : Option Nat :=
  let n := c.toNat
  if 65 ≤ n ∧ n ≤ 90 then some (n - 65)
  else if 97 ≤ n ∧ n ≤ 122 then some (n - 71)
  else if 48 ≤ n ∧ n ≤ 57 then some (n + 4)
  else if c = '-' then some 62
  else if c = '_' then some 63
  else none

/-- Unpadded base64url, three bytes at a time. -/
def encodeSextets : List Nat → List Nat
  | a :: b :: c :: rest =>
    a / 4 :: (a % 4 * 16 + b / 16) :: (b % 16 * 4 + c / 64) :: c % 64 :: encodeSextets rest
  | [a, b] => [a / 4, a % 4 * 16 + b / 16, b % 16 * 4]
  | [a] => [a / 4, a % 4 * 16]
  | [] => []

/-- The bytes of a sextet list; trailing bits are dropped, a lone sextet is an
error. -/
def decodeSextets : List Nat → Option (List Nat)
  | a :: b :: c :: d :: rest => do
    let bytes ← decodeSextets rest
    some ((a * 4 + b / 16) :: (b % 16 * 16 + c / 4) :: (c % 4 * 64 + d) :: bytes)
  | [a, b, c] => some [a * 4 + b / 16, b % 16 * 16 + c / 4]
  | [a, b] => some [a * 4 + b / 16]
  | [_] => none
  | [] => some []

def b64urlEncode (data : Bytes) : String :=
  String.ofList ((encodeSextets (data.map UInt8.toNat)).map sextetChar)

/-- `b64url_decode`: padding is dropped first. -/
def b64urlDecode (data : String) : Option Bytes := do
  let sextets ← (data.toList.rdropWhile (· = '=')).mapM charSextet
  let bytes ← decodeSextets sextets
  some (bytes.map UInt8.ofNat)

theorem charSextet_sextetChar {n : Nat} (bound : n < 64) : charSextet (sextetChar n) = some n := by
  have all : ∀ n : Fin 64, charSextet (sextetChar n) = some n.val := by decide
  exact all ⟨n, bound⟩

theorem encodeSextets_lt (bytes : List Nat) (small : ∀ b ∈ bytes, b < 256) :
    ∀ n ∈ encodeSextets bytes, n < 64 := by
  induction bytes using encodeSextets.induct with
  | case1 a b c rest ih =>
    have ha := small a (by simp)
    have hb := small b (by simp)
    have hc := small c (by simp)
    have hrest := ih fun d mem => small d (by simp [mem])
    intro n mem
    simp only [encodeSextets, mem_cons] at mem
    rcases mem with rfl | rfl | rfl | rfl | mem
    · omega
    · omega
    · omega
    · omega
    · exact hrest n mem
  | case2 a b =>
    have ha := small a (by simp)
    have hb := small b (by simp)
    intro n mem
    simp only [encodeSextets, mem_cons, not_mem_nil, or_false] at mem
    omega
  | case3 a =>
    have ha := small a (by simp)
    intro n mem
    simp only [encodeSextets, mem_cons, not_mem_nil, or_false] at mem
    omega
  | case4 => simp [encodeSextets]

theorem decodeSextets_encodeSextets (bytes : List Nat) (small : ∀ b ∈ bytes, b < 256) :
    decodeSextets (encodeSextets bytes) = some bytes := by
  induction bytes using encodeSextets.induct with
  | case1 a b c rest ih =>
    have hb := small b (by simp)
    have hc := small c (by simp)
    have hrest := ih fun d mem => small d (by simp [mem])
    simp only [encodeSextets, decodeSextets, hrest, Option.bind_eq_bind, Option.bind_some,
      Option.some.injEq, cons.injEq, and_true]
    omega
  | case2 a b =>
    have hb := small b (by simp)
    simp only [encodeSextets, decodeSextets, Option.some.injEq, cons.injEq, and_true]
    omega
  | case3 a =>
    simp only [encodeSextets, decodeSextets, Option.some.injEq, cons.injEq, and_true]
    omega
  | case4 => rfl

theorem mapM_charSextet {sextets : List Nat} (small : ∀ n ∈ sextets, n < 64) :
    (sextets.map sextetChar).mapM charSextet = some sextets := by
  induction sextets with
  | nil => rfl
  | cons n rest ih =>
    have head := charSextet_sextetChar (small n (by simp))
    have tail := ih fun m mem => small m (by simp [mem])
    simp [head, tail]

theorem toNat_lt_of_mem_map {data : Bytes} : ∀ b ∈ data.map UInt8.toNat, b < 256 := by
  intro b mem
  obtain ⟨byte, -, rfl⟩ := mem_map.mp mem
  exact byte.toNat_lt

theorem b64urlDecode_b64urlEncode (data : Bytes) : b64urlDecode (b64urlEncode data) = some data := by
  have small : ∀ b ∈ data.map UInt8.toNat, b < 256 := toNat_lt_of_mem_map
  have sextets := encodeSextets_lt _ small
  have unpadded : ((encodeSextets (data.map UInt8.toNat)).map sextetChar).rdropWhile (· = '=') =
      (encodeSextets (data.map UInt8.toNat)).map sextetChar := by
    rw [rdropWhile_eq_self_iff]
    intro nonempty padded
    obtain ⟨n, mem, eq⟩ := mem_map.mp (getLast_mem nonempty)
    have value := charSextet_sextetChar (sextets n mem)
    rw [eq, of_decide_eq_true padded] at value
    cases value
  have bytes : (data.map UInt8.toNat).map UInt8.ofNat = data := by
    simp [Function.comp_def]
  rw [b64urlDecode, b64urlEncode, String.toList_ofList, unpadded, mapM_charSextet sextets,
    Option.bind_eq_bind, Option.bind_some, decodeSextets_encodeSextets _ small,
    Option.bind_some, bytes]

theorem isWhitespace_sextetChar {n : Nat} (bound : n < 64) :
    isWhitespace (sextetChar n) = false := by
  have all : ∀ n : Fin 64, isWhitespace (sextetChar n) = false := by decide
  exact all ⟨n, bound⟩

@[simp] theorem trim_b64urlEncode (data : Bytes) : trim (b64urlEncode data) = b64urlEncode data := by
  apply trim_of_plain
  intro c mem
  rw [b64urlEncode, String.toList_ofList] at mem
  obtain ⟨n, isSextet, rfl⟩ := mem_map.mp mem
  exact isWhitespace_sextetChar (encodeSextets_lt _ toNat_lt_of_mem_map n isSextet)

theorem b64urlEncode_ne_empty {data : Bytes} (nonempty : data ≠ []) : b64urlEncode data ≠ "" := by
  intro empty
  have decoded := b64urlDecode_b64urlEncode data
  rw [empty] at decoded
  exact nonempty (Option.some.inj decoded).symm

/-! ### Signatures over texts -/

def ed25519SignText (P : Platform) (text : String) (privateKey : Bytes) : String :=
  b64urlEncode (P.ed25519Sign privateKey text)

def ed25519VerifyText (P : Platform) (text signature : String) (publicKey : Bytes) : Bool :=
  match b64urlDecode signature with
  | none => false
  | some raw => raw.length == 64 && P.ed25519Verify publicKey text raw

/-- A signature has 64 bytes and verifies under the key of its signing key. -/
structure Ed25519Sound (P : Platform) : Prop where
  length : ∀ key text, (P.ed25519Sign key text).length = 64
  verifies : ∀ key text, P.ed25519Verify (P.verifyingKey key) text (P.ed25519Sign key text) = true

theorem trim_ed25519SignText (P : Platform) (text : String) (privateKey : Bytes) :
    trim (ed25519SignText P text privateKey) = ed25519SignText P text privateKey :=
  trim_b64urlEncode _

namespace Ed25519Sound

variable {P : Platform} (sound : Ed25519Sound P) (text : String) (privateKey : Bytes)

include sound

theorem signText_ne_empty : ed25519SignText P text privateKey ≠ "" := by
  apply b64urlEncode_ne_empty
  intro empty
  have length := sound.length privateKey text
  rw [empty] at length
  cases length

theorem verifyText_signText :
    ed25519VerifyText P text (ed25519SignText P text privateKey) (P.verifyingKey privateKey) =
      true := by
  rw [ed25519VerifyText, ed25519SignText, b64urlDecode_b64urlEncode]
  dsimp only
  rw [sound.length, sound.verifies]
  rfl

end Ed25519Sound

/-- `ed25519_public_key_from_base64url`: unpadded canonical base64url of 32
bytes. -/
def ed25519PublicKeyFromBase64url (P : Platform) (value : String) : Except A4PError Bytes :=
  if value = "" ∨ value.toList.all (fun c => (charSextet c).isSome) = false then
    .error (.value "Ed25519 public key must be valid base64url")
  else
    match b64urlDecode value with
    | none => .error (.value "Ed25519 public key must be valid base64url")
    | some raw =>
      if raw.length ≠ 32 then .error (.value "Ed25519 public key must decode to 32 bytes")
      else if b64urlEncode raw ≠ value then
        .error (.value "Ed25519 public key must use unpadded canonical base64url")
      else if P.isVerifyingKey raw then .ok raw
      else .error (.value "Ed25519 public key must decode to 32 bytes")

end AgentProtocols.A4P
