import Mathlib.Data.Nat.ModEq
import AgentProtocols.Lib.Runs

/-!
Failover of the client for language models. All calls share the indices of the keys, and an index is
read again for every key, so a key may come twice and another not at all (`Sample.key_left_out`).
Where a step reads the index that the call has read first (`orderly`), no call fails before it has
tried every key (`fails_over`).
-/

namespace AgentProtocols.Registry

open Lib Function

/-- What a call uses of `ProviderConfig`; a `Vec` has no more than `isize::MAX` elements. -/
structure LlmProvider where
  apiKeys : List String
  bounded : apiKeys.length < 2 ^ 63

/-- What a call uses of `LlmClientOptions`, the base in nanoseconds. -/
structure LlmClientOptions where
  maxRetries : UInt32
  backoffBase : Nat

/-- A `Duration` has a `u64` of seconds. -/
def durationLimit : Nat := 2 ^ 64 * 10 ^ 9

/-- Before the load of an index, before a POST, or before the store of the index. -/
inductive CallPhase where
  | idle
  | loading (provider keyOffset : Nat)
  | posting (provider keyOffset keyIdx attempt : Nat)
  | storing (provider keyIdx : Nat)
  | succeeded
  | failed
  | panicked
deriving DecidableEq

/-- A call, with the keys that it has tried, by provider, one entry for each POST. -/
structure LlmCall where
  phase : CallPhase
  tried : List (Nat × Nat)

/-- `LlmClient` and its calls; `overflowed` records that a result did not fit its type. -/
structure LlmClient where
  keyIndex : Nat → Nat
  totalCalls : Nat
  totalTokens : Nat
  calls : Nat → LlmCall
  overflowed : Bool

/-- A step of a call; a POST is answered with content and a number of tokens, or it fails. -/
inductive LlmAction where
  | start (call : Nat)
  | load (call : Nat)
  | post (call : Nat) (reply : Option UInt64)
  | store (call : Nat)

/-- What stays the same in a run; `overflowChecks` is that of the build. -/
structure LlmSetup where
  providers : List LlmProvider
  options : LlmClientOptions
  overflowChecks : Bool

namespace LlmSetup

variable (setup : LlmSetup)

def numKeys (provider : Nat) : Nat := (setup.providers[provider]?.map fun q => q.apiKeys.length).getD 0

def attempts : Nat := max setup.options.maxRetries.toNat 1

/-- The first of the providers that has keys. -/
def enter : List LlmProvider → Nat → CallPhase
  | [], _ => .failed
  | q :: rest, provider => if q.apiKeys.isEmpty then enter rest (provider + 1) else .loading provider 0

/-- After the last attempt with a key. -/
def nextKey (provider keyOffset : Nat) : CallPhase :=
  if keyOffset + 1 < setup.numKeys provider then .loading provider (keyOffset + 1)
  else enter (setup.providers.drop (provider + 1)) (provider + 1)

/-- After an attempt that has failed. -/
def nextAttempt (provider keyOffset keyIdx attempt : Nat) : CallPhase :=
  if attempt + 1 < setup.attempts then .posting provider keyOffset keyIdx (attempt + 1)
  else setup.nextKey provider keyOffset

/-- The wait before another attempt, as `backoff_base * 2u32.pow(attempt)` is computed. -/
def wait (attempt : Nat) : Nat := setup.options.backoffBase * (2 ^ attempt % 2 ^ 32)

/-- A wait does not come out: the power overflows and is checked, or the duration overflows. -/
def waitPanics (attempt : Nat) : Bool :=
  decide (attempt + 1 < setup.options.maxRetries.toNat) &&
    (setup.overflowChecks && decide (2 ^ 32 ≤ 2 ^ attempt) || decide (durationLimit ≤ setup.wait attempt))

/-- What overflows after an attempt that has failed. -/
def errorOverflows (keyOffset attempt : Nat) : Bool :=
  decide (2 ^ 32 ≤ attempt + 1) || decide (2 ^ 64 ≤ keyOffset + 2) ||
    decide (attempt + 1 < setup.options.maxRetries.toNat) &&
      (decide (2 ^ 32 ≤ 2 ^ attempt) || decide (durationLimit ≤ setup.wait attempt))

end LlmSetup

namespace LlmClient

variable (setup : LlmSetup) (s : LlmClient)

/-- `from_providers`. -/
def new : LlmClient := ⟨fun _ => 0, 0, 0, fun _ => ⟨.idle, []⟩, false⟩

def goOn (c : Nat) (call : LlmCall) : LlmClient := { s with calls := Function.update s.calls c call }

/-- A section of a call. -/
def step : LlmAction → Option LlmClient
  | .start c =>
    match (s.calls c).phase with
    | .idle => some (s.goOn c ⟨LlmSetup.enter setup.providers 0, []⟩)
    | _ => none
  | .load c =>
    match (s.calls c).phase with
    | .loading p o =>
      some { s.goOn c ⟨.posting p o ((s.keyIndex p + o) % setup.numKeys p) 0, (s.calls c).tried⟩ with
        overflowed := s.overflowed || decide (2 ^ 64 ≤ s.keyIndex p + o) }
    | _ => none
  | .post c reply =>
    match (s.calls c).phase, reply with
    | .posting p o k _, some tokens =>
      some { s.goOn c ⟨if 0 < o then .storing p k else .succeeded, (s.calls c).tried ++ [(p, k)]⟩ with
        totalCalls := (s.totalCalls + 1) % 2 ^ 64
        totalTokens := (s.totalTokens + tokens.toNat) % 2 ^ 64
        overflowed := s.overflowed || decide (2 ^ 64 ≤ s.totalCalls + 1) ||
          decide (2 ^ 64 ≤ s.totalTokens + tokens.toNat) }
    | .posting p o k a, none =>
      some { s.goOn c ⟨if setup.waitPanics a then .panicked else setup.nextAttempt p o k a,
          (s.calls c).tried ++ [(p, k)]⟩ with
        overflowed := s.overflowed || setup.errorOverflows o a }
    | _, _ => none
  | .store c =>
    match (s.calls c).phase with
    | .storing p k =>
      some { s.goOn c ⟨.succeeded, (s.calls c).tried⟩ with keyIndex := Function.update s.keyIndex p k }
    | _ => none

def firstKey (c p : Nat) : Option Nat :=
  ((s.calls c).tried.find? fun e => e.1 == p).map Prod.snd

/-- A load reads the index that was read first, and the arithmetic of the waits fits. -/
def orderly : LlmAction → Bool
  | .load c =>
    match (s.calls c).phase with
    | .loading p _ => (s.firstKey c p).all (· == s.keyIndex p)
    | _ => true
  | .post c reply =>
    match (s.calls c).phase, reply with
    | .posting _ _ _ _, some tokens =>
      decide (s.totalCalls + 1 < 2 ^ 64) && decide (s.totalTokens + tokens.toNat < 2 ^ 64)
    | .posting _ _ _ a, none =>
      decide (setup.options.maxRetries.toNat ≤ a + 1) ||
        decide (a < 32) && decide (setup.options.backoffBase * 2 ^ a < durationLimit)
    | _, _ => true
  | _ => true

/-- What failover promises. -/
structure FailsOver : Prop where
  everyKey : ∀ c, (s.calls c).phase = .failed → ∀ p k, k < setup.numKeys p → (p, k) ∈ (s.calls c).tried
  few : ∀ c e, (s.calls c).tried.count e ≤ max setup.options.maxRetries.toNat 1
  fits : s.overflowed = false

end LlmClient

/-! ### Keys in turn -/

theorem exists_turn {n first k : Nat} (below : k < n) (start : first < n) :
    ∃ i < n, k = (first + i) % n := by
  by_cases before : first ≤ k
  · refine ⟨k - first, by omega, ?_⟩
    rw [Nat.add_sub_cancel' before, Nat.mod_eq_of_lt below]
  · refine ⟨n + k - first, by omega, ?_⟩
    rw [Nat.add_sub_cancel' (by omega), Nat.add_mod_left, Nat.mod_eq_of_lt below]

theorem turn_injective {n first i j : Nat} (i_lt : i < n) (j_lt : j < n)
    (same : (first + i) % n = (first + j) % n) : i = j := by
  have congruent : i ≡ j [MOD n] := Nat.ModEq.add_left_cancel' first same
  rw [Nat.ModEq, Nat.mod_eq_of_lt i_lt, Nat.mod_eq_of_lt j_lt] at congruent
  exact congruent

namespace LlmSetup

variable {setup : LlmSetup} {p : Nat}

theorem enter_cases (p : Nat) :
    (enter (setup.providers.drop p) p = .failed ∧ ∀ j, p ≤ j → setup.numKeys j = 0) ∨
    ∃ q, enter (setup.providers.drop p) p = .loading q 0 ∧ p ≤ q ∧ 0 < setup.numKeys q ∧
      ∀ j, p ≤ j → j < q → setup.numKeys j = 0 := by
  have walk : ∀ (rest : List LlmProvider) (p : Nat), setup.providers.drop p = rest →
      (enter rest p = .failed ∧ ∀ j, p ≤ j → setup.numKeys j = 0) ∨
      ∃ q, enter rest p = .loading q 0 ∧ p ≤ q ∧ 0 < setup.numKeys q ∧
        ∀ j, p ≤ j → j < q → setup.numKeys j = 0 := by
    intro rest
    induction rest with
    | nil =>
      intro p rest
      refine .inl ⟨rfl, fun j le => ?_⟩
      have short : setup.providers.length ≤ j := (List.drop_eq_nil_iff.mp rest).trans le
      rw [numKeys, List.getElem?_eq_none short]
      rfl
    | cons q rest ih =>
      intro p here
      have at_p : setup.providers[p]? = some q := by
        have head := @List.getElem?_drop _ setup.providers p 0
        rw [here] at head
        exact head.symm
      have tail : setup.providers.drop (p + 1) = rest := by
        rw [← List.drop_drop, here]
        rfl
      have keys : setup.numKeys p = q.apiKeys.length := by
        rw [numKeys, at_p]
        rfl
      rw [enter]
      split
      · rename_i empty
        have none_ : setup.numKeys p = 0 := by
          rw [keys, List.isEmpty_iff.mp empty]
          rfl
        rcases ih (p + 1) tail with ⟨failed, all⟩ | ⟨r, next, le, some_key, between⟩
        · refine .inl ⟨failed, fun j le => ?_⟩
          rcases Nat.eq_or_lt_of_le le with rfl | later
          · exact none_
          · exact all j later
        · refine .inr ⟨r, next, by omega, some_key, fun j le lt => ?_⟩
          rcases Nat.eq_or_lt_of_le le with rfl | later
          · exact none_
          · exact between j later lt
      · rename_i some_key
        refine .inr ⟨p, rfl, Nat.le_refl p, ?_, fun j le lt => absurd le (Nat.not_le_of_lt lt)⟩
        rw [keys]
        exact List.length_pos_of_ne_nil fun empty => some_key (List.isEmpty_iff.mpr empty)
  exact walk _ p rfl

theorem not_waitPanics {a : Nat} (fits : setup.options.maxRetries.toNat ≤ a + 1 ∨
    (a < 32 ∧ setup.options.backoffBase * 2 ^ a < durationLimit)) : setup.waitPanics a = false := by
  rw [waitPanics, Bool.and_eq_false_iff, decide_eq_false_iff_not, Bool.or_eq_false_iff,
    Bool.and_eq_false_iff, decide_eq_false_iff_not, decide_eq_false_iff_not, wait]
  rcases fits with last | ⟨small, short⟩
  · exact .inl (Nat.not_lt_of_le last)
  · have power : 2 ^ a < 2 ^ 32 := Nat.pow_lt_pow_right (by decide) small
    rw [Nat.mod_eq_of_lt power]
    exact .inr ⟨.inr (Nat.not_le_of_lt power), Nat.not_le_of_lt short⟩

theorem not_errorOverflows {o a : Nat} (fits : setup.options.maxRetries.toNat ≤ a + 1 ∨
    (a < 32 ∧ setup.options.backoffBase * 2 ^ a < durationLimit)) (more : a < setup.attempts)
    (offset : o < 2 ^ 63) : setup.errorOverflows o a = false := by
  have retries : setup.options.maxRetries.toNat < 2 ^ 32 := setup.options.maxRetries.toNat_lt
  have attempt : ¬ 2 ^ 32 ≤ a + 1 := by
    rw [attempts] at more
    omega
  rw [errorOverflows, Bool.or_eq_false_iff, Bool.or_eq_false_iff, decide_eq_false_iff_not,
    decide_eq_false_iff_not, Bool.and_eq_false_iff, decide_eq_false_iff_not, Bool.or_eq_false_iff,
    decide_eq_false_iff_not, decide_eq_false_iff_not, wait]
  refine ⟨⟨attempt, by omega⟩, ?_⟩
  rcases fits with last | ⟨small, short⟩
  · exact .inl (Nat.not_lt_of_le last)
  · have power : 2 ^ a < 2 ^ 32 := Nat.pow_lt_pow_right (by decide) small
    rw [Nat.mod_eq_of_lt power]
    exact .inr ⟨Nat.not_le_of_lt power, Nat.not_le_of_lt short⟩

theorem attempts_pos : 0 < setup.attempts := Nat.lt_of_lt_of_le Nat.zero_lt_one (Nat.le_max_right _ _)

theorem numKeys_lt : setup.numKeys p < 2 ^ 63 := by
  rw [numKeys]
  cases setup.providers[p]? with
  | none => exact Nat.two_pow_pos 63
  | some q => exact q.bounded

end LlmSetup

/-! ### What a call has tried -/

namespace LlmCall

variable {setup : LlmSetup} {tried : List (Nat × Nat)} {p o k a first : Nat}

/-- No key has been tried too often. -/
def Few (setup : LlmSetup) (tried : List (Nat × Nat)) : Prop := ∀ e, tried.count e ≤ setup.attempts

def TriedBefore (setup : LlmSetup) (tried : List (Nat × Nat)) (p : Nat) : Prop :=
  ∀ q, q < p → ∀ k, k < setup.numKeys q → (q, k) ∈ tried

/-- What a call has tried while it is at a provider. -/
structure At (setup : LlmSetup) (tried : List (Nat × Nat)) (p o first a : Nat) : Prop where
  few : Few setup tried
  before : TriedBefore setup tried p
  within : ∀ e ∈ tried, e.1 ≤ p
  start : first < setup.numKeys p
  begun : ∀ e, tried.find? (fun e => e.1 == p) = some e → e.2 = first
  below : o < setup.numKeys p
  turns : ∀ k, (p, k) ∈ tried ↔
    (∃ i < o, k = (first + i) % setup.numKeys p) ∨ (0 < a ∧ k = (first + o) % setup.numKeys p)
  now : tried.count (p, (first + o) % setup.numKeys p) = a

def Sound (setup : LlmSetup) : LlmCall → Prop
  | ⟨.idle, tried⟩ => tried = []
  | ⟨.loading p o, tried⟩ => ∃ first, At setup tried p o first 0
  | ⟨.posting p o k a, tried⟩ => ∃ first, At setup tried p o first a ∧
      k = (first + o) % setup.numKeys p ∧ a < setup.attempts
  | ⟨.storing p k, tried⟩ => Few setup tried ∧ k < setup.numKeys p
  | ⟨.succeeded, tried⟩ => Few setup tried
  | ⟨.failed, tried⟩ => Few setup tried ∧ ∀ p, TriedBefore setup tried p
  | ⟨.panicked, _⟩ => False

theorem Sound.few {call : LlmCall} (sound : call.Sound setup) : Few setup call.tried := by
  rcases call with ⟨phase, tried⟩
  cases phase with
  | idle =>
    rw [show tried = [] from sound]
    exact fun e => Nat.zero_le _
  | loading p o => exact sound.elim fun _ at_ => at_.few
  | posting p o k a => exact sound.elim fun _ at_ => at_.1.few
  | storing p k => exact sound.1
  | succeeded => exact sound
  | failed => exact sound.1
  | panicked => exact sound.elim

theorem sound_enter (few : Few setup tried) (before : TriedBefore setup tried p)
    (within : ∀ e ∈ tried, e.1 < p) :
    Sound setup ⟨LlmSetup.enter (setup.providers.drop p) p, tried⟩ := by
  have further : ∀ {q}, (∀ j, p ≤ j → j < q → setup.numKeys j = 0) → TriedBefore setup tried q := by
    intro q none_ j lt k key
    by_cases le : p ≤ j
    · rw [none_ j le lt] at key
      exact absurd key (Nat.not_lt_zero k)
    · exact before j (Nat.lt_of_not_le le) k key
  rcases @LlmSetup.enter_cases setup p with ⟨failed, all⟩ | ⟨q, next, le, some_key, between⟩
  · rw [failed]
    exact ⟨few, fun q => further fun j le _ => all j le⟩
  · rw [next]
    have absent : ∀ e ∈ tried, e.1 ≠ q := fun e mem => Nat.ne_of_lt ((within e mem).trans_le le)
    refine ⟨0, few, further between, fun e mem => (within e mem).le.trans le, some_key, ?_, some_key, ?_, ?_⟩
    · intro e found
      have here := List.find?_some found
      exact absurd (beq_iff_eq.mp here) (absent e (List.mem_of_find?_eq_some found))
    · intro k
      refine iff_of_false (fun mem => absent _ mem rfl) ?_
      rintro (⟨i, lt, -⟩ | ⟨lt, -⟩)
      · exact Nat.not_lt_zero i lt
      · exact Nat.lt_irrefl 0 lt
    · exact List.count_eq_zero.mpr fun mem => absent _ mem rfl

theorem At.post (at_ : At setup tried p o first a) (more : a < setup.attempts) :
    At setup (tried ++ [(p, (first + o) % setup.numKeys p)]) p o first (a + 1) := by
  refine ⟨?_, ?_, ?_, at_.start, ?_, at_.below, ?_, ?_⟩
  · intro e
    rw [List.count_append, List.count_singleton]
    split
    · rename_i same
      rw [← beq_iff_eq.mp same, at_.now]
      exact more
    · exact at_.few e
  · intro q lt k key
    exact List.mem_append_left _ (at_.before q lt k key)
  · intro e mem
    rcases List.mem_append.mp mem with old | new_
    · exact at_.within e old
    · rw [List.mem_singleton.mp new_]
  · intro e found
    rw [List.find?_append] at found
    cases known : tried.find? fun e => e.1 == p with
    | some e' =>
      rw [known] at found
      cases found
      exact at_.begun e known
    | none =>
      rw [known] at found
      -- the first POST at the provider: there is no offset behind it
      have zero : o = 0 := by
        by_contra later
        have tried_first := (at_.turns _).mpr (.inl ⟨0, Nat.pos_of_ne_zero later, rfl⟩)
        exact absurd (beq_self_eq_true p) (by simpa using List.find?_eq_none.mp known _ tried_first)
      simp only [List.find?_singleton, beq_self_eq_true] at found
      cases found
      rw [zero, Nat.add_zero, Nat.mod_eq_of_lt at_.start]
  · intro k
    rw [List.mem_append, List.mem_singleton, Prod.mk.injEq, at_.turns]
    constructor
    · rintro ((turn | now) | ⟨-, now⟩)
      · exact .inl turn
      · exact .inr ⟨Nat.succ_pos a, now.2⟩
      · exact .inr ⟨Nat.succ_pos a, now⟩
    · rintro (turn | ⟨-, now⟩)
      · exact .inl (.inl turn)
      · exact .inr ⟨rfl, now⟩
  · rw [List.count_append, List.count_singleton_self, at_.now]

theorem sound_nextKey (at_ : At setup tried p o first a) (some_attempt : 0 < a) :
    Sound setup ⟨setup.nextKey p o, tried⟩ := by
  rw [LlmSetup.nextKey]
  split
  · rename_i below
    refine ⟨first, at_.few, at_.before, at_.within, at_.start, at_.begun, below, ?_, ?_⟩
    · intro k
      rw [at_.turns]
      constructor
      · rintro (⟨i, lt, turn⟩ | ⟨-, now⟩)
        · exact .inl ⟨i, Nat.lt_succ_of_lt lt, turn⟩
        · exact .inl ⟨o, Nat.lt_succ_self o, now⟩
      · rintro (⟨i, lt, turn⟩ | ⟨lt, -⟩)
        · rcases Nat.lt_succ_iff_lt_or_eq.mp lt with before | rfl
          · exact .inl ⟨i, before, turn⟩
          · exact .inr ⟨some_attempt, turn⟩
        · exact absurd lt (Nat.lt_irrefl 0)
    · refine List.count_eq_zero.mpr fun mem => ?_
      rcases (at_.turns _).mp mem with ⟨i, lt, turn⟩ | ⟨-, now⟩
      · have same := turn_injective below (by omega) turn
        omega
      · have same := turn_injective below at_.below now
        omega
  · have all : TriedBefore setup tried (p + 1) := by
      intro q lt k key
      rcases Nat.lt_succ_iff_lt_or_eq.mp lt with before | rfl
      · exact at_.before q before k key
      · obtain ⟨i, inside, turn⟩ := exists_turn key at_.start
        refine (at_.turns k).mpr ?_
        by_cases behind : i < o
        · exact .inl ⟨i, behind, turn⟩
        · have here : i = o := by omega
          exact .inr ⟨some_attempt, here ▸ turn⟩
    exact sound_enter at_.few all fun e mem => Nat.lt_succ_of_le (at_.within e mem)

theorem sound_nextAttempt (at_ : At setup tried p o first (a + 1)) :
    Sound setup ⟨setup.nextAttempt p o ((first + o) % setup.numKeys p) a, tried⟩ := by
  rw [LlmSetup.nextAttempt]
  split
  · rename_i more
    exact ⟨first, at_, rfl, more⟩
  · exact sound_nextKey at_ (Nat.succ_pos a)

end LlmCall

namespace LlmClient

variable {setup : LlmSetup} {s s' : LlmClient} {a : LlmAction}

/-- The invariant of a run of orderly steps. -/
structure Sound (setup : LlmSetup) (s : LlmClient) : Prop where
  calls : ∀ c, (s.calls c).Sound setup
  inRange : ∀ p, setup.numKeys p = 0 ∨ s.keyIndex p < setup.numKeys p
  fits : s.overflowed = false

theorem sound_new : new.Sound setup :=
  ⟨fun _ => rfl, fun p => (Nat.eq_zero_or_pos (setup.numKeys p)).imp_right id, rfl⟩

variable (sound : s.Sound setup)

include sound

theorem Sound.goOn {c : Nat} {call : LlmCall} (next : call.Sound setup) (d : Nat) :
    ((s.goOn c call).calls d).Sound setup := by
  dsimp only [LlmClient.goOn]
  by_cases here : d = c
  · rw [here, update_self]
    exact next
  · rw [update_of_ne here]
    exact sound.calls d

theorem Sound.call {c : Nat} {phase : CallPhase}
    (at_ : (s.calls c).phase = phase) : LlmCall.Sound setup ⟨phase, (s.calls c).tried⟩ := by
  rw [← at_]
  exact sound.calls c

/-- The load of an index that has not moved leads to the next key in turn. -/
theorem Sound.load {c p o : Nat} (at_ : (s.calls c).phase = .loading p o)
    (steady : (s.firstKey c p).all (· == s.keyIndex p) = true) : LlmCall.Sound setup
      ⟨.posting p o ((s.keyIndex p + o) % setup.numKeys p) 0, (s.calls c).tried⟩ := by
  obtain ⟨first, here⟩ := sound.call at_
  have some_key : 0 < setup.numKeys p := Nat.lt_of_le_of_lt (Nat.zero_le first) here.start
  by_cases zero : o = 0
  · subst zero
    have absent : ∀ k, (p, k) ∉ (s.calls c).tried := by
      intro k mem
      rcases (here.turns k).mp mem with ⟨i, lt, -⟩ | ⟨lt, -⟩
      · exact Nat.not_lt_zero i lt
      · exact Nat.lt_irrefl 0 lt
    refine ⟨s.keyIndex p, ⟨here.few, here.before, here.within,
      (sound.inRange p).resolve_left (Nat.ne_of_gt some_key), ?_, here.below, ?_, ?_⟩, rfl,
      LlmSetup.attempts_pos⟩
    · rintro ⟨q, k⟩ found
      have same : q = p := beq_iff_eq.mp (List.find?_some found :)
      have there := List.mem_of_find?_eq_some found
      rw [same] at there
      exact absurd there (absent k)
    · intro k
      refine iff_of_false (absent k) ?_
      rintro (⟨i, lt, -⟩ | ⟨lt, -⟩)
      · exact Nat.not_lt_zero i lt
      · exact Nat.lt_irrefl 0 lt
    · exact List.count_eq_zero.mpr (absent _)
  · -- there is an offset behind this one, so a key has been tried first
    have tried_first := (here.turns _).mpr (.inl ⟨0, Nat.pos_of_ne_zero zero, rfl⟩)
    obtain ⟨e, found⟩ : ∃ e, (s.calls c).tried.find? (fun e => e.1 == p) = some e := by
      refine Option.isSome_iff_exists.mp (List.find?_isSome.mpr ⟨_, tried_first, ?_⟩)
      exact beq_self_eq_true p
    have index : s.keyIndex p = first := by
      rw [firstKey, found, Option.map_some, Option.all_some, beq_iff_eq, here.begun e found] at steady
      exact steady.symm
    rw [index]
    exact ⟨first, here, rfl, LlmSetup.attempts_pos⟩

theorem Sound.step (orderly : s.orderly setup a = true)
    (stepped : s.step setup a = some s') : s'.Sound setup := by
  cases a with
  | start c =>
    rw [LlmClient.step] at stepped
    split at stepped
    · cases stepped
      refine ⟨sound.goOn ?_, sound.inRange, sound.fits⟩
      have entered := @LlmCall.sound_enter setup [] 0 (fun e => Nat.zero_le _)
        (fun q lt => absurd lt (Nat.not_lt_zero q)) (fun e mem => absurd mem List.not_mem_nil)
      exact entered
    · cases stepped
  | load c =>
    rw [LlmClient.step] at stepped
    rw [LlmClient.orderly] at orderly
    split at stepped
    · rename_i p o at_
      rw [at_] at orderly
      cases stepped
      have keys : s.keyIndex p + o < 2 ^ 64 := by
        obtain ⟨first, here⟩ := sound.call at_
        have inRange := (sound.inRange p).resolve_left fun none_ => by
          have start := here.start
          omega
        have below := here.below
        have bounded := setup.numKeys_lt (p := p)
        omega
      refine ⟨sound.goOn (sound.load at_ orderly), sound.inRange, ?_⟩
      rw [sound.fits, Bool.false_or, decide_eq_false_iff_not]
      exact Nat.not_le_of_lt keys
    · cases stepped
  | post c reply =>
    unfold LlmClient.step at stepped
    unfold LlmClient.orderly at orderly
    dsimp only at stepped orderly
    split at stepped
    · rename_i p o k a tokens at_
      rw [at_] at orderly
      cases stepped
      obtain ⟨first, here, turn, more⟩ := sound.call at_
      simp only [Bool.and_eq_true_iff, decide_eq_true_eq] at orderly
      refine ⟨sound.goOn ?_, sound.inRange, ?_⟩
      · have few := (here.post more).few
        rw [← turn] at few
        split
        · refine ⟨few, ?_⟩
          rw [turn]
          exact Nat.mod_lt _ (Nat.lt_of_le_of_lt (Nat.zero_le first) here.start)
        · exact few
      · rw [sound.fits, Bool.false_or, Bool.or_eq_false_iff, decide_eq_false_iff_not,
          decide_eq_false_iff_not]
        exact ⟨Nat.not_le_of_lt orderly.1, Nat.not_le_of_lt orderly.2⟩
    · rename_i p o k a at_
      rw [at_] at orderly
      cases stepped
      obtain ⟨first, here, turn, more⟩ := sound.call at_
      have waits : setup.options.maxRetries.toNat ≤ a + 1 ∨
          (a < 32 ∧ setup.options.backoffBase * 2 ^ a < durationLimit) := by
        simpa only [Bool.or_eq_true, Bool.and_eq_true, decide_eq_true_eq] using orderly
      refine ⟨sound.goOn ?_, sound.inRange, ?_⟩
      · rw [LlmSetup.not_waitPanics waits, turn]
        exact LlmCall.sound_nextAttempt (here.post more)
      · rw [sound.fits]
        exact LlmSetup.not_errorOverflows waits more (here.below.trans LlmSetup.numKeys_lt)
    · cases stepped
  | store c =>
    rw [LlmClient.step] at stepped
    split at stepped
    · rename_i p k at_
      cases stepped
      obtain ⟨few, below⟩ := sound.call at_
      refine ⟨sound.goOn few, fun q => ?_, sound.fits⟩
      dsimp only
      by_cases here : q = p
      · subst here
        rw [update_self]
        exact .inr below
      · rw [update_of_ne here]
        exact sound.inRange q
    · cases stepped

omit sound

/-- A call fails only after it has tried every key, none too often, and nothing overflows. -/
theorem fails_over {as : List LlmAction}
    (run : Run (Under (fun s a => s.orderly setup a = true) (Steps (LlmClient.step setup))) new as s) :
    s.FailsOver setup := by
  have sound : s.Sound setup :=
    run.invariant_under (fun _ _ _ sound orderly stepped => sound.step orderly stepped) sound_new
  refine ⟨?_, fun c => (sound.calls c).few, sound.fits⟩
  intro c failed p k key
  obtain ⟨-, all⟩ := sound.call failed
  exact all (p + 1) p (Nat.lt_succ_self p) k key

end LlmClient

namespace Sample

def twoKeys : LlmProvider := ⟨["k1", "k2"], by decide⟩

def twoKeySetup : LlmSetup := ⟨[twoKeys], ⟨1, 0⟩, false⟩

/-- As many attempts as a power of two has bits, and one more. -/
def patientSetup : LlmSetup := ⟨[⟨["k"], by decide⟩], ⟨34, 0⟩, false⟩

/-- While call 0 is at the first key, call 1 succeeds with the second one. -/
def moved : List LlmAction :=
  [.start 0, .load 0, .start 1, .load 1, .post 0 none, .post 1 none, .load 1, .post 1 (some 7), .store 1,
    .load 0, .post 0 none]

/-- One call alone, which all keys fail. -/
def alone : List LlmAction := [.start 0, .load 0, .post 0 none, .load 0, .post 0 none]

/-- Call 0 fails without the second key, and with 34 attempts the power overflows. -/
theorem key_left_out :
    (∃ s, Run (Steps (LlmClient.step twoKeySetup)) .new moved s ∧ (s.calls 0).phase = .failed ∧
      (s.calls 0).tried = [(0, 0), (0, 0)] ∧ ¬ s.FailsOver twoKeySetup) ∧
    ∃ s, Run (Steps (LlmClient.step patientSetup)) .new
      ([.start 0, .load 0] ++ List.replicate 33 (.post 0 none)) s ∧ ¬ s.FailsOver patientSetup := by
  constructor
  · refine ⟨_, run_of_foldlM rfl, rfl, rfl, fun promised => ?_⟩
    exact absurd (promised.everyKey 0 rfl 0 1 (by decide)) (by decide)
  · refine ⟨_, run_of_foldlM rfl, fun promised => ?_⟩
    exact absurd promised.fits (by decide)

/-- Alone, a call tries both keys before it fails. -/
theorem both_keys : ∃ s, Run (Steps (LlmClient.step twoKeySetup)) .new alone s ∧
    (s.calls 0).phase = .failed ∧ s.FailsOver twoKeySetup := by
  have run : ∃ s, Run (Under (fun s a => s.orderly twoKeySetup a = true) (Steps (LlmClient.step twoKeySetup)))
      .new alone s ∧ (s.calls 0).phase = .failed := ⟨_, run_under_of_foldlM rfl, rfl⟩
  obtain ⟨s, run, failed⟩ := run
  exact ⟨s, run.of_under, failed, LlmClient.fails_over run⟩

end Sample

end AgentProtocols.Registry
