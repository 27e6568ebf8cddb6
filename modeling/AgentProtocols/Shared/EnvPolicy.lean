import AgentProtocols.A4P.Util
import AgentProtocols.Json.Decimal
import AgentProtocols.Lib.IpAddr

/-!
The lockdown policy of the environment: a specification for each variable, its kind and rules.
`EnvPolicy.evaluate` checks one variable, `LockedEnv.get` hides a value that is refused, and
`evaluate_of_rules` says when a specified variable passes.
-/

namespace AgentProtocols.Shared.Env

open Lib

open A4P (isWhitespace trim)

/-- Floating point numbers and the debug form of a text. -/
structure Platform where
  F64 : Type
  parseF64 : String → Option F64
  ofI64 : Int → F64
  /-- `fract() == 0.0` -/
  integral : F64 → Bool
  isFinite : F64 → Bool
  le : F64 → F64 → Bool
  display : F64 → String
  debug : String → String

inductive Lockdown where
  | open_
  | restricted
  | locked
deriving DecidableEq

/-- The order of the levels. -/
def Lockdown.rank : Lockdown → Nat
  | open_ => 0
  | restricted => 1
  | locked => 2

/-! ### Texts -/

def toAsciiLowercase (text : List Char) : List Char := text.map Char.toLower

def eqIgnoreAsciiCase (a b : List Char) : Bool := toAsciiLowercase a == toAsciiLowercase b

/-- `str::rsplit_once`: what stands before and after the last separator. -/
def rsplitOnce (sep : Char) (text : List Char) : Option (List Char × List Char) :=
  match text.reverse.dropWhile (· != sep) with
  | [] => none
  | _ :: before => some (before.reverse, (text.reverse.takeWhile (· != sep)).reverse)

def stripPrefix (start text : List Char) : Option (List Char) :=
  if start.isPrefixOf text then some (text.drop start.length) else none

/-! ### Kinds -/

inductive Kind where
  | text
  | integer
  | float
  | bool
  | port
  | host
  | url
  | path
deriving DecidableEq

def Kind.check (P : Platform) (kind : Kind) (value : String) : Except String Unit :=
  match kind with
  | text => .ok ()
  | integer =>
    if (Json.parseI64 value.toList).isSome || (P.parseF64 value).any P.integral then .ok ()
    else .error "is not an integer"
  | float =>
    if (P.parseF64 value).any P.isFinite then .ok () else .error "is not a number"
  | bool =>
    if ["true", "false", "1", "0", "yes", "no", "on", "off"].any
        (fun word => toAsciiLowercase value.toList == word.toList) then .ok ()
    else .error "is not a boolean"
  | port =>
    if (Json.parseI64 value.toList).any (fun p => decide (1 ≤ p ∧ p ≤ 65535)) then .ok ()
    else .error "is not a port in 1..=65535"
  | host =>
    if value = "" ∨ value.toList.any (fun c => isWhitespace c || c == '/') then
      .error "is not a host name or address"
    else .ok ()
  | url =>
    if "http://".toList.isPrefixOf value.toList || "https://".toList.isPrefixOf value.toList then
      .ok ()
    else .error "is not an http or https URL"
  | path => if trim value = "" then .error "is empty" else .ok ()

/-! ### Rules -/

inductive Check (P : Platform) where
  | intRange (min max : Int)
  | floatRange (min max : P.F64)
  | oneOf (choices : List String)
  | listOf (choices : List String)
  | loopbackOnly
  | httpsRemote
  | safePath
  | noDevelopmentKey (labels : List String)
  | notContaining (needles : List String)
  | productionTier
  | required
  | custom (check : String → Except String Unit)

/-- A check, and the level from which it is enforced. -/
structure Rule (P : Platform) where
  check : Check P
  fromLevel : Lockdown

def Rule.loopbackOnly (P : Platform) : Rule P := ⟨.loopbackOnly, .restricted⟩

def Rule.httpsRemote (P : Platform) : Rule P := ⟨.httpsRemote, .restricted⟩

def Rule.safePath (P : Platform) : Rule P := ⟨.safePath, .restricted⟩

/-- The host of an authority: what is in brackets, or what stands before the last
colon. -/
def stripPort (authority : List Char) : List Char :=
  match authority with
  | '[' :: rest => rest.takeWhile (· != ']')
  | _ =>
    match rsplitOnce ':' authority with
    | some (host, _) => host
    | none => authority

def isLoopbackHost (host : String) : Bool :=
  let host := stripPort (trim host).toList
  eqIgnoreAsciiCase host "localhost".toList || host == "::1".toList ||
    (IpAddr.parse host).any IpAddr.isLoopback

/-- The host of a plain `http` URL. -/
def httpHost (value : String) : Option (List Char) :=
  (stripPrefix "http://".toList value.toList).map fun rest =>
    let authority := rest.takeWhile fun c => !(c == '/' || c == '?' || c == '#')
    stripPort (authority.reverse.takeWhile (· != '@')).reverse

/-- The paths that no path variable may name, nor anything below them but the
first two. -/
def forbidden : List String :=
  ["", "/", "/etc", "/proc", "/sys", "/dev", "/boot", "/bin", "/sbin", "/usr", "/lib", "/root"]

/-- The path is forbidden or stands below a forbidden one, as a text. -/
def isForbidden (normalized : List Char) : Bool :=
  forbidden.any (fun f => f.toList == normalized) ||
    forbidden.any fun f => f != "" && f != "/" && (f ++ "/").toList.isPrefixOf normalized

/-- `trim_end_matches('/')` of the trimmed value. -/
def normalizedPath (value : String) : List Char := (trim value).toList.rdropWhile (· == '/')

def pathParts (path : List Char) : List (List Char) := path.splitOnP fun c => c == '/' || c == '\\'

structure VarSpec (P : Platform) where
  name : String
  kind : Kind
  secret : Bool
  rules : List (Rule P)

/-- `EnvPolicy`: the specifications by name, and the namespaces they cover. -/
structure EnvPolicy (P : Platform) where
  specs : OrderedMap String (VarSpec P)
  prefixes : List String
  allowPublicBind : Bool

section

variable {P : Platform}

/-- `Rule::evaluate` on a value that is set. -/
def Check.evaluate (check : Check P) (value : String) (policy : EnvPolicy P) : Except String Unit :=
  match check with
  | .intRange min max =>
    if (P.parseF64 value).any fun n =>
        P.integral n && P.le (P.ofI64 min) n && P.le n (P.ofI64 max) then .ok ()
    else .error ("must be an integer in " ++ toString min ++ "..=" ++ toString max)
  | .floatRange min max =>
    if (P.parseF64 value).any fun n => P.isFinite n && P.le min n && P.le n max then .ok ()
    else .error ("must be a number in " ++ P.display min ++ "..=" ++ P.display max)
  | .oneOf choices =>
    if choices.any fun c => eqIgnoreAsciiCase c.toList value.toList then .ok ()
    else .error ("must be one of " ++ ", ".intercalate choices)
  | .listOf choices =>
    let items := ((value.toList.splitOn ',').map String.ofList).map trim
    let bad := items.filter fun item =>
      item != "" && !choices.any fun c => eqIgnoreAsciiCase c.toList item.toList
    if bad.isEmpty then .ok ()
    else .error ("contains unknown items " ++ ", ".intercalate bad ++ "; allowed: " ++
      ", ".intercalate choices)
  | .loopbackOnly =>
    if policy.allowPublicBind || isLoopbackHost value then .ok ()
    else .error "binds a non-loopback address; pass --allow-public-bind to permit it"
  | .httpsRemote =>
    if (httpHost value).any fun host => !isLoopbackHost (String.ofList host) then
      .error "uses plain http to a non-loopback host"
    else .ok ()
  | .safePath =>
    let normalized := normalizedPath value
    if isForbidden normalized then .error "points at a system directory"
    else if (pathParts normalized).any (· == "..".toList) then .error "contains a .. component"
    else .ok ()
  | .noDevelopmentKey labels =>
    if labels.any (· == trim value) then .error "is the built-in development key" else .ok ()
  | .notContaining needles =>
    let lower := toAsciiLowercase value.toList
    match needles.find? fun n => decide (toAsciiLowercase n.toList <:+: lower) with
    | some n => .error ("must not contain " ++ P.debug n ++ " under lockdown")
    | none => .ok ()
  | .productionTier =>
    let tier := toAsciiLowercase (trim value).toList
    if tier == "prod".toList || tier == "production".toList then .ok ()
    else .error "must be prod or production under lockdown"
  | .required => .ok ()
  | .custom check => check value

def Rule.evaluate (rule : Rule P) (value : Option String) (policy : EnvPolicy P) :
    Except String Unit :=
  match value with
  | none =>
    match rule.check with
    | .required => .error "must be set"
    | _ => .ok ()
  | some value => rule.check.evaluate value policy

/-! ### The policy -/

inductive Severity where
  | invalid
  | dangerous
  | unknown
deriving DecidableEq

/-- A variable that failed a check. -/
structure Violation where
  name : String
  value : Option String
  reason : String
  severity : Severity

def VarSpec.displayValue (spec : VarSpec P) (value : String) : String :=
  if spec.secret then "[redacted]" else value

def EnvPolicy.covers (policy : EnvPolicy P) (name : String) : Bool :=
  policy.prefixes.any fun p => p.toList.isPrefixOf name.toList

/-- The kind of a specification, when the variable is set. -/
def VarSpec.checkKind (spec : VarSpec P) (name : String) (value : Option String) :
    Except Violation Unit :=
  match value with
  | none => .ok ()
  | some raw =>
    match spec.kind.check P (trim raw) with
    | .ok () => .ok ()
    | .error reason => .error ⟨name, some (spec.displayValue raw), reason, .invalid⟩

/-- One rule of a specification, at a level that enforces it. -/
def VarSpec.checkRule (spec : VarSpec P) (policy : EnvPolicy P) (name : String)
    (value : Option String) (level : Lockdown) (rule : Rule P) : Except Violation Unit :=
  if level.rank < rule.fromLevel.rank then .ok ()
  else
    match rule.evaluate (value.map trim) policy with
    | .ok () => .ok ()
    | .error reason => .error ⟨name, value.map spec.displayValue, reason, .dangerous⟩

def EnvPolicy.evaluate (policy : EnvPolicy P) (name : String) (value : Option String)
    (level : Lockdown) : Except Violation Unit :=
  if level = .open_ then .ok ()
  else
    match policy.specs.get? name with
    | none =>
      if level = .locked && policy.covers name && value.isSome then
        .error ⟨name, value, "is not a known variable; check the spelling", .unknown⟩
      else .ok ()
    | some spec => do
      spec.checkKind name value
      spec.rules.forM (spec.checkRule policy name value level)

structure LockedEnv (P : Platform) where
  inner : String → Option String
  policy : EnvPolicy P
  level : Lockdown

/-- A value that is refused reads as unset. -/
def LockedEnv.get (env : LockedEnv P) (key : String) : Option String :=
  match env.policy.evaluate key (env.inner key) env.level with
  | .ok () => env.inner key
  | .error _ => none

/-! ### When a variable passes -/

variable {raw name : String} {spec : VarSpec P}

theorem checkKind_some_iff :
    spec.checkKind name (some raw) = .ok () ↔ spec.kind.check P (trim raw) = .ok () := by
  unfold VarSpec.checkKind
  dsimp only
  split
  · rename_i passed
    exact iff_of_true rfl passed
  · rename_i failed
    rw [failed]
    exact iff_of_false nofun nofun

theorem checkRule_iff {policy : EnvPolicy P}
    {value : Option String} {level : Lockdown} {rule : Rule P} :
    spec.checkRule policy name value level rule = .ok () ↔
      (rule.fromLevel.rank ≤ level.rank → rule.evaluate (value.map trim) policy = .ok ()) := by
  unfold VarSpec.checkRule
  split
  · rename_i below
    exact iff_of_true rfl fun enforced => absurd enforced (Nat.not_le.mpr below)
  · rename_i enforced
    rw [imp_iff_right (Nat.not_lt.mp enforced)]
    split
    · rename_i passed
      exact iff_of_true rfl passed
    · rename_i failed
      rw [failed]
      exact iff_of_false nofun nofun

/-- A specified variable that is set passes when its kind and its rules do. -/
theorem evaluate_of_rules {policy : EnvPolicy P} {level : Lockdown}
    (checked : level ≠ .open_) (specified : policy.specs.get? name = some spec) :
    policy.evaluate name (some raw) level = .ok () ↔ spec.kind.check P (trim raw) = .ok () ∧
        ∀ rule ∈ spec.rules, rule.fromLevel.rank ≤ level.rank →
          rule.evaluate (some (trim raw)) policy = .ok () := by
  rw [EnvPolicy.evaluate, if_neg checked, specified]
  rw [check_and_then, checkKind_some_iff, check_each]
  simp only [checkRule_iff, Option.map_some]

theorem get_eq_some_iff {env : LockedEnv P} {key : String} : env.get key = some raw ↔
      env.inner key = some raw ∧ env.policy.evaluate key (some raw) env.level = .ok () := by
  unfold LockedEnv.get
  cases inner : env.inner key with
  | none => split <;> simp
  | some found =>
    split
    · rename_i passed
      simp only [Option.some.injEq]
      refine (and_iff_left_of_imp ?_).symm
      rintro rfl
      exact passed
    · rename_i failed
      refine iff_of_false nofun ?_
      rintro ⟨same, passed⟩
      cases same
      rw [failed] at passed
      cases passed

end

/-- Whole numbers in place of floating point numbers. -/
def wholeNumbers : Platform where
  F64 := Int
  parseF64 text := Json.parseI64 text.toList
  ofI64 n := n
  integral _ := true
  isFinite _ := true
  le a b := decide (a ≤ b)
  display n := toString n
  debug text := "\"" ++ text ++ "\""

/-- A policy without specifications. -/
def EnvPolicy.new (P : Platform) : EnvPolicy P := ⟨OrderedMap.empty, [], false⟩

end AgentProtocols.Shared.Env
