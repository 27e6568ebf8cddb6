import AgentProtocols.Shared.EnvPolicy
import Mathlib.Data.Bool.AllAny

/-!
Which addresses the loopback rule lets through, which takes whatever stands after the last colon for
a port: `loopbackOnly_accepts_iff`, and `loopback_rule_exact_iff` for which of them it is exact.
-/

namespace AgentProtocols.Shared.Env

open Lib List

open A4P (isWhitespace trim trim_of_plain)

/-! ### The last colon -/

variable {host text : List Char} {c : Char}

theorem rsplitOnce_append {sep : Char} {tail : List Char} (none_after : sep ∉ tail) :
    rsplitOnce sep (host ++ sep :: tail) = some (host, tail) := by
  have others : ∀ c ∈ tail.reverse, (c != sep) = true := by
    intro c mem
    rw [bne_iff_ne]
    rintro rfl
    exact none_after (mem_reverse.mp mem)
  have stop : ∀ rest : List Char, (sep :: rest).dropWhile (· != sep) = sep :: rest := fun rest =>
    dropWhile_cons_of_neg (by simp)
  have stop' : ∀ rest : List Char, (sep :: rest).takeWhile (· != sep) = [] := fun rest =>
    takeWhile_cons_of_neg (by simp)
  have backwards : (host ++ sep :: tail).reverse = tail.reverse ++ sep :: host.reverse := by simp
  rw [rsplitOnce, backwards, dropWhile_append_of_pos others, stop,
    takeWhile_append_of_pos others, stop']
  simp

theorem rsplitOnce_eq_none {sep : Char} (absent : sep ∉ text) : rsplitOnce sep text = none := by
  have others : ∀ c ∈ text.reverse, (c != sep) = true := by
    intro c mem
    rw [bne_iff_ne]
    rintro rfl
    exact absent (mem_reverse.mp mem)
  rw [rsplitOnce, dropWhile_eq_nil_iff.mpr others]

theorem stripPort_append {tail : List Char} (no_bracket : host.head? ≠ some '[')
    (no_colon : ':' ∉ tail) : stripPort (host ++ ':' :: tail) = host := by
  unfold stripPort
  split
  · rename_i rest bracket
    cases host with
    | nil => cases bracket
    | cons c host =>
      cases bracket
      exact absurd rfl no_bracket
  · rw [rsplitOnce_append no_colon]

theorem stripPort_of_no_colon (no_bracket : host.head? ≠ some '[')
    (no_colon : ':' ∉ host) : stripPort host = host := by
  unfold stripPort
  split
  · exact absurd rfl no_bracket
  · rw [rsplitOnce_eq_none no_colon]

theorem mem_stripPort {text : List Char} {c : Char} (mem : c ∈ stripPort text) : c ∈ text := by
  unfold stripPort at mem
  split at mem
  · exact mem_cons_of_mem _ (takeWhile_subset _ mem)
  · unfold rsplitOnce at mem
    split at mem
    · rename_i cut
      split at cut
      · cases cut
      · rename_i sep before rest
        cases cut
        rw [mem_reverse] at mem
        have inRest : c ∈ text.reverse.dropWhile (· != ':') := by
          rw [rest]
          exact mem_cons_of_mem _ mem
        exact mem_reverse.mp (dropWhile_subset _ inRest)
    · exact mem

/-! ### What is left of an address -/

theorem isWhitespace_addrChar (addr : isAddrChar c = true) : isWhitespace c = false := by
  have all : ∀ c ∈ ['0', '1', '2', '3', '4', '5', '6', '7', '8', '9', 'a', 'b', 'c', 'd', 'e', 'f',
      '.', ':'], isWhitespace c = false := all_iff_forall_prop.mp (by decide)
  exact all c (contains_iff_mem.mp addr)

theorem toLower_addrChar (addr : isAddrChar c = true) : c.toLower ≠ 'l' := by
  have all : ∀ c ∈ ['0', '1', '2', '3', '4', '5', '6', '7', '8', '9', 'a', 'b', 'c', 'd', 'e', 'f',
      '.', ':'], c.toLower ≠ 'l' := all_iff_forall_prop.mp (by decide)
  exact all c (contains_iff_mem.mp addr)

theorem not_localhost (addr : ∀ c ∈ host, isAddrChar c = true) :
    eqIgnoreAsciiCase host "localhost".toList = false := by
  cases host with
  | nil => rfl
  | cons c rest =>
    have first : c.toLower ≠ 'l' := toLower_addrChar (addr c mem_cons_self)
    have name : toAsciiLowercase "localhost".toList = 'l' :: "ocalhost".toList := rfl
    rw [eqIgnoreAsciiCase, name, toAsciiLowercase, map_cons, beq_eq_false_iff_ne, ne_eq,
      cons.injEq]
    exact fun same => first same.1

open Ipv6Addr

theorem parse_loopback : (IpAddr.parse "::1".toList).any IpAddr.isLoopback = true := by
  rfl

theorem isLoopbackHost_addr (addr : ∀ c ∈ text, isAddrChar c = true) :
    isLoopbackHost (String.ofList text) = (IpAddr.parse (stripPort text)).any IpAddr.isLoopback := by
  have trimmed : trim (String.ofList text) = String.ofList text := by
    refine trim_of_plain fun c mem => isWhitespace_addrChar (addr c ?_)
    rwa [String.toList_ofList] at mem
  unfold isLoopbackHost
  dsimp only
  rw [trimmed, String.toList_ofList, not_localhost fun c mem => addr c (mem_stripPort mem), Bool.false_or]
  by_cases one : stripPort text = "::1".toList
  · rw [one, parse_loopback, Bool.or_true]
  · rw [beq_false_of_ne one, Bool.false_or]

theorem no_bracket_addr (addr : ∀ c ∈ text, isAddrChar c = true) : text.head? ≠ some '[' := by
  intro bracket
  have mem := addr '[' (mem_of_mem_head? bracket)
  exact absurd mem (by decide)

theorem parse_loopback_iff (no_dot : '.' ∉ host) :
    (IpAddr.parse host).any IpAddr.isLoopback = true ↔
      parseSegments host = some [0, 0, 0, 0, 0, 0, 0, 1] := by
  rw [IpAddr.parse, Ipv4Addr.parse_eq_none no_dot, parse]
  cases parseSegments host with
  | none => simp
  | some segments =>
    dsimp only
    rw [Option.some.injEq]
    split
    · rw [Option.map_some, Option.any_some, IpAddr.isLoopback, isLoopback, beq_iff_eq]
    · rename_i invalid
      refine iff_of_false nofun ?_
      rintro rfl
      exact invalid (by decide)

theorem eq_nil_of_zeros {zeros : List Nat} {n : Nat} (all : zeros = replicate n 0)
    (notZero : zeros.getLast? ≠ some 0 ∨ zeros.head? ≠ some 0) : zeros = [] := by
  cases n with
  | zero => exact all
  | succ n =>
    rcases notZero with last | first
    · rw [all, replicate_succ', getLast?_concat] at last
      exact absurd rfl last
    · rw [all] at first
      exact absurd rfl first

theorem around_zeros {front mid : List Nat} {n k : Nat} (some_mid : mid ≠ [])
    (frontEnd : front.getLast? ≠ some 0) (midStart : mid.head? ≠ some 0)
    (whole : front ++ replicate n 0 ++ mid = replicate k 0 ++ [1]) :
    front = [] ∧ mid = [1] := by
  obtain ⟨init, last, rfl⟩ := (eq_nil_or_concat' mid).resolve_left some_mid
  rw [← append_assoc] at whole
  obtain ⟨zeros, isOne⟩ := append_inj' whole rfl
  have all_zero : ∀ m ∈ front ++ replicate n 0 ++ init, m = 0 := by
    intro m mem
    rw [zeros] at mem
    exact eq_of_mem_replicate mem
  have no_front : front = [] := by
    refine eq_nil_of_zeros (eq_replicate_iff.mpr ⟨rfl, fun m mem => all_zero m ?_⟩)
      (.inl frontEnd)
    exact mem_append_left _ (mem_append_left _ mem)
  have no_init : init = [] := by
    have zero : ∀ m ∈ init, m = 0 := fun m mem => all_zero m (mem_append_right _ mem)
    cases init with
    | nil => rfl
    | cons m init =>
      rw [zero m mem_cons_self] at midStart
      exact absurd rfl midStart
  rw [no_init]
  exact ⟨no_front, isOne⟩

/-! ### IPv6 addresses -/

section

variable (a : Ipv6Addr)

theorem mapped_refused {octets : List Nat} (isMapped : mapped a.segments = some octets) :
    stripPort a.text = "::ffff".toList ∧ ¬ ∃ y, a.segments = [0, 0, 0, 0, 0, 0, 1, y] := by
  have text : a.text = "::ffff".toList ++ ':' :: ['.'].intercalate (octets.map (Nat.toDigits 10)) := by
    rw [text, isMapped]
    rfl
  rw [text]
  refine ⟨stripPort_append (by decide) fun colon => (mem_dotted colon).2 rfl, ?_⟩
  · rintro ⟨y, segments⟩
    rw [segments] at isMapped
    cases isMapped

theorem plain_refused (unmapped : mapped a.segments = none)
    (short : ¬ (zeroSpan 0 a.segments (⟨0, 0⟩, ⟨0, 0⟩)).len > 1) :
    ¬ (IpAddr.parse (stripPort a.text)).any IpAddr.isLoopback = true ∧
      ¬ ∃ y, a.segments = [0, 0, 0, 0, 0, 0, 1, y] := by
  have text : a.text = join a.segments := text_plain unmapped short
  obtain ⟨segments, last, whole⟩ : ∃ segments last, a.segments = segments ++ [last] := by
    refine (eq_nil_or_concat' a.segments).resolve_left ?_
    rw [← length_eq_zero_iff, a.eight]
    decide
  have seven : segments.length = 7 := by
    have eight := a.eight
    rw [whole, length_append, length_singleton] at eight
    omega
  have some_segment : segments ≠ [] := by
    rintro rfl
    cases seven
  have cut : stripPort a.text = join segments := by
    rw [text, whole, join_concat some_segment]
    refine stripPort_append (no_bracket_addr fun c mem => (mem_join mem).1) ?_
    exact fun colon => (mem_toDigits (by decide) (by decide) colon).2.2 rfl
  constructor
  · rw [cut, parse_loopback_iff fun dot => (mem_join dot).2 rfl,
      parseSegments_join, Option.some.injEq]
    · rintro rfl
      cases seven
    · intro n mem
      refine a.small n ?_
      rw [whole]
      exact mem_append_left _ mem
  · rintro ⟨y, isCut⟩
    rw [isCut] at short
    apply short
    by_cases zero : y = 0
    · subst zero
      decide
    · simp [zeroSpan, zeroStep, zero]

theorem stripPort_compressed {front : List Nat} :
    (∀ back : List Nat, back.length ≤ 1 → stripPort (join front ++ "::".toList ++ join back) =
        join front ++ [':']) ∧
    ∀ (mid : List Nat) (last : Nat), mid ≠ [] →
      stripPort (join front ++ "::".toList ++ join (mid ++ [last])) =
        join front ++ "::".toList ++ join mid := by
  have no_bracket : ∀ tail : List Char, (∀ c ∈ tail, isAddrChar c = true) →
      (join front ++ tail).head? ≠ some '[' := by
    intro tail addr
    refine no_bracket_addr fun c mem => ?_
    rcases mem_append.mp mem with mem | mem
    · exact (mem_join mem).1
    · exact addr c mem
  have no_colon : ∀ n, ':' ∉ Nat.toDigits 16 n := fun n mem =>
    (mem_toDigits (by decide) (by decide) mem).2.2 rfl
  constructor
  · intro back atMostOne
    have split_double : join front ++ "::".toList ++ join back =
        (join front ++ [':']) ++ ':' :: join back := by
      rw [append_assoc, append_assoc]
      rfl
    rw [split_double]
    refine stripPort_append (no_bracket _ (all_eq_true.mp (by decide))) ?_
    match back, atMostOne with
    | [], _ => exact not_mem_nil
    | [last], _ => rw [join_singleton]; exact no_colon last
  · intro mid last some_mid
    rw [join_concat some_mid, ← append_assoc]
    refine stripPort_append ?_ (no_colon last)
    rw [append_assoc]
    refine no_bracket _ fun c mem => ?_
    rcases mem_append.mp mem with mem | mem
    · exact all_eq_true.mp (show "::".toList.all isAddrChar = true by decide) c mem
    · exact (mem_join mem).1

theorem compressed_accepted_iff (unmapped : mapped a.segments = none)
    (long : (zeroSpan 0 a.segments (⟨0, 0⟩, ⟨0, 0⟩)).len > 1) :
    (IpAddr.parse (stripPort a.text)).any IpAddr.isLoopback = true ↔
      ∃ y, a.segments = [0, 0, 0, 0, 0, 0, 1, y] := by
  obtain ⟨front, n, back, several, whole, frontEnd, backStart, text⟩ :=
    text_compressed unmapped long
  have eight := a.eight
  rw [whole, length_append, length_append, length_replicate] at eight
  by_cases atMostOne : back.length ≤ 1
  · -- the run of zeros is cut in two
    have no_dot : '.' ∉ join front ++ [':'] := by
      rw [mem_append]
      rintro (dot | dot)
      · exact (mem_join dot).2 rfl
      · exact absurd dot (by decide)
    rw [text, stripPort_compressed.1 back atMostOne, parse_loopback_iff no_dot,
      parseSegments_trailing_colon]
    refine iff_of_false nofun ?_
    rintro ⟨y, cut⟩
    rw [whole] at cut
    obtain ⟨k, rfl⟩ : ∃ k, n = k + 2 := ⟨n - 2, by omega⟩
    match back, atMostOne with
    | [], _ =>
      have zeros : front ++ replicate k 0 ++ [0, 0] = [0, 0, 0, 0, 0, 0] ++ [1, y] := by
        change _ = [0, 0, 0, 0, 0, 0, 1, y]
        rw [← cut]
        simp [replicate_add]
      cases (append_inj' zeros rfl).2
    | [last], _ =>
      have zeros : front ++ replicate (k + 1) 0 ++ [0, last] = [0, 0, 0, 0, 0, 0] ++ [1, y] := by
        change _ = [0, 0, 0, 0, 0, 0, 1, y]
        have last_zero : replicate (k + 2) 0 = replicate (k + 1) 0 ++ [0] :=
          replicate_succ'
        rw [← cut, last_zero]
        simp
      cases (append_inj' zeros rfl).2
  · obtain ⟨mid, last, rfl⟩ : ∃ mid last, back = mid ++ [last] := by
      refine (eq_nil_or_concat' back).resolve_left ?_
      rintro rfl
      exact atMostOne (Nat.zero_le 1)
    rw [length_append, length_singleton] at eight atMostOne
    have some_mid : mid ≠ [] := by
      rintro rfl
      exact atMostOne (Nat.le_refl 1)
    have midStart : mid.head? ≠ some 0 := by
      rwa [head?_append_of_ne_nil _ some_mid] at backStart
    have no_dot : '.' ∉ join front ++ "::".toList ++ join mid := by
      rw [mem_append, mem_append]
      rintro ((dot | dot) | dot)
      · exact (mem_join dot).2 rfl
      · exact absurd dot (by decide)
      · exact (mem_join dot).2 rfl
    have smallFront : ∀ m ∈ front, m < 65536 := by
      intro m mem
      refine a.small m ?_
      rw [whole]
      exact mem_append_left _ (mem_append_left _ mem)
    have smallMid : ∀ m ∈ mid, m < 65536 := by
      intro m mem
      refine a.small m ?_
      rw [whole]
      exact mem_append_right _ (mem_append_left _ mem)
    rw [text, stripPort_compressed.2 mid last some_mid, parse_loopback_iff no_dot,
      parseSegments_compressed smallFront smallMid (by omega), Option.some.injEq, whole]
    constructor
    · intro one
      obtain ⟨rfl, rfl⟩ := @around_zeros front mid _ 7 some_mid frontEnd midStart one
      refine ⟨last, ?_⟩
      obtain rfl : n = 6 := by
        rw [length_nil, length_singleton] at eight
        omega
      rfl
    · rintro ⟨y, one⟩
      rw [← append_assoc] at one
      have sixth : front ++ replicate n 0 ++ mid = replicate 6 0 ++ [1] :=
        (append_inj' (one.trans (show _ = (replicate 6 0 ++ [1]) ++ [y] from rfl)) rfl).1
      obtain ⟨rfl, rfl⟩ := @around_zeros front mid n 6 some_mid frontEnd midStart sixth
      rfl

theorem v6_accepted_iff :
    isLoopbackHost (String.ofList a.text) = true ↔ ∃ y, a.segments = [0, 0, 0, 0, 0, 0, 1, y] := by
  rw [isLoopbackHost_addr fun c => mem_text]
  cases unmapped : mapped a.segments with
  | some octets =>
    obtain ⟨cut, other⟩ := mapped_refused a unmapped
    have read := @Ipv6Addr.parseSegments_compressed [] [65535] (by simp) (by simp) (by simp)
    rw [cut, parse_loopback_iff (by decide)]
    refine iff_of_false ?_ other
    intro one
    have same := read.symm.trans one
    cases same
  | none =>
    by_cases long : (zeroSpan 0 a.segments (⟨0, 0⟩, ⟨0, 0⟩)).len > 1
    · exact compressed_accepted_iff a unmapped long
    · exact iff_of_false (plain_refused a unmapped long).1 (plain_refused a unmapped long).2

end

/-! ### All addresses -/

theorem v4_accepted_iff (a : Ipv4Addr) :
    isLoopbackHost (String.ofList a.text) = true ↔ a.isLoopback = true := by
  have addr : ∀ c ∈ a.text, isAddrChar c = true := fun c mem => (mem_dotted mem).1
  have whole : stripPort a.text = a.text :=
    stripPort_of_no_colon (no_bracket_addr addr) fun colon => (mem_dotted colon).2 rfl
  rw [isLoopbackHost_addr addr, whole, IpAddr.parse, Ipv4Addr.parse_text, Option.any_some,
    IpAddr.isLoopback]

/-- The addresses whose text form the rule accepts. -/
theorem loopbackOnly_accepts_iff {P : Platform} {policy : EnvPolicy P}
    (closed : policy.allowPublicBind = false) (a : IpAddr) :
    (Rule.loopbackOnly P).evaluate (some (String.ofList a.text)) policy = .ok () ↔
      match a with
      | .v4 v4 => v4.isLoopback = true
      | .v6 v6 => ∃ y, v6.segments = [0, 0, 0, 0, 0, 0, 1, y] := by
  have accepts : (Rule.loopbackOnly P).evaluate (some (String.ofList a.text)) policy = .ok () ↔
      isLoopbackHost (String.ofList a.text) = true := by
    change (if policy.allowPublicBind || isLoopbackHost (String.ofList a.text) then _ else _) = _ ↔ _
    rw [closed, Bool.false_or]
    split
    · rename_i loopback
      exact iff_of_true rfl loopback
    · rename_i public_
      exact iff_of_false nofun public_
  rw [accepts]
  cases a with
  | v4 v4 => exact v4_accepted_iff v4
  | v6 v6 => exact v6_accepted_iff v6

/-- The text form reads differently without its last group: `::1`, and the addresses
`::1:y`. -/
def ReadsDifferently : IpAddr → Prop
  | .v4 _ => False
  | .v6 v6 => v6.isLoopback = true ∨ ∃ y, v6.segments = [0, 0, 0, 0, 0, 0, 1, y]

/-- The rule is exact for the addresses that read the same without their last group. -/
theorem loopback_rule_exact_iff {P : Platform} {policy : EnvPolicy P}
    (closed : policy.allowPublicBind = false) (a : IpAddr) :
    ((Rule.loopbackOnly P).evaluate (some (String.ofList a.text)) policy = .ok () ↔
      a.isLoopback = true) ↔ ¬ ReadsDifferently a := by
  rw [loopbackOnly_accepts_iff closed]
  cases a with
  | v4 v4 => exact iff_of_true Iff.rfl not_false
  | v6 v6 =>
    have disjoint : v6.isLoopback = true → ¬ ∃ y, v6.segments = [0, 0, 0, 0, 0, 0, 1, y] := by
      rintro loopback ⟨y, segments⟩
      rw [isLoopback, segments] at loopback
      cases loopback
    change ((∃ y, v6.segments = [0, 0, 0, 0, 0, 0, 1, y]) ↔ v6.isLoopback = true) ↔
      ¬ (v6.isLoopback = true ∨ ∃ y, v6.segments = [0, 0, 0, 0, 0, 0, 1, y])
    tauto

namespace LoopbackSample

def home : Ipv4Addr := ⟨[127, 0, 0, 1], by decide, by decide⟩

def loopback : Ipv6Addr := ⟨[0, 0, 0, 0, 0, 0, 0, 1], by decide, by decide⟩

/-- `::1:5`, which is no loopback address. -/
def other : Ipv6Addr := ⟨[0, 0, 0, 0, 0, 0, 1, 5], by decide, by decide⟩

theorem home_accepted :
    (Rule.loopbackOnly wholeNumbers).evaluate (some "127.0.0.1") (.new _) = .ok () :=
  ((@loopback_rule_exact_iff wholeNumbers (.new _) rfl (.v4 home)).mpr not_false).mpr rfl

/-- The rule refuses `::1`, and accepts `::1:5`. -/
theorem v6_loopback_refused :
    (IpAddr.v6 loopback).isLoopback = true ∧ (IpAddr.v6 loopback).text = "::1".toList ∧
      (Rule.loopbackOnly wholeNumbers).evaluate (some "::1") (.new _) ≠ .ok () ∧
      (IpAddr.v6 other).isLoopback = false ∧ (IpAddr.v6 other).text = "::1:5".toList ∧
      (Rule.loopbackOnly wholeNumbers).evaluate (some "::1:5") (.new _) = .ok () := by
  refine ⟨rfl, rfl, ?_, rfl, rfl, ?_⟩
  · intro accepted
    obtain ⟨y, segments⟩ :=
      (@loopbackOnly_accepts_iff wholeNumbers (.new _) rfl (.v6 loopback)).mp accepted
    cases segments
  · exact (@loopbackOnly_accepts_iff wholeNumbers (.new _) rfl (.v6 other)).mpr ⟨5, rfl⟩

end LoopbackSample

end AgentProtocols.Shared.Env
