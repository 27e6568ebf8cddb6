import AgentProtocols.A4P.Util
import AgentProtocols.Lib.Runs

/-!
Execution-usage storage for intent tokens.

`InMemory.consume` keeps its pruning when it fails, `SQLite.consume` rolls it back. `Ledger` is the
contract without pruning; both stores represent one (`Represents`, `InMemory.consume_represents`,
`SQLite.consume_represents`), so they answer alike (`stores_agree`).
-/

namespace AgentProtocols.A4P

open Lib

/-- The arguments of one `consume` call, and the clock value it reads. -/
structure ConsumeCall where
  tokenId : String
  maxExecutions : Int
  expireAtEpoch : Int
  now : Int

/-- The result of `consume`: whether an execution was consumed, and how many are used. -/
abbrev ConsumeResult := Except String (Bool × Int)

def validateConsumeArguments (call : ConsumeCall) : Except String String :=
  let normalized := trim call.tokenId
  if normalized = "" then .error "token_id must not be empty"
  else if call.maxExecutions ≤ 0 then .error "max_executions must be a positive integer"
  else if call.expireAtEpoch ≤ 0 then .error "expire_at_epoch must be a positive integer"
  else .ok normalized

theorem validateConsumeArguments_ok {call : ConsumeCall} {id : String}
    (valid : validateConsumeArguments call = .ok id) :
    id = trim call.tokenId ∧ 0 < call.maxExecutions := by
  unfold validateConsumeArguments at valid
  extract_lets normalized at valid
  split_ifs at valid with empty limit expiry
  exact ⟨(Except.ok.inj valid).symm, by omega⟩

structure UsageRow where
  executionsUsed : Int
  executionsLimit : Int
  expireAtEpoch : Int
deriving DecidableEq

/-- The rows of a store, by token id. -/
abbrev UsageRows := OrderedMap String UsageRow

def policyMismatch : String :=
  "Stored intent token usage policy does not match the signed token"

def storeUnavailable : String := "Intent token usage store unavailable"

/-- Drop the rows that have expired at `now`. -/
def prune (rows : UsageRows) (now : Int) : UsageRows :=
  rows.retain fun _ row => decide (row.expireAtEpoch > now)

/-- A row counts while its expiry lies ahead of the clock. -/
def UsageRow.live (now : Int) (row : UsageRow) : Bool := decide (now < row.expireAtEpoch)

theorem get?_prune (rows : UsageRows) (now : Int) (id : String) :
    (prune rows now).get? id = (rows.get? id).filter (UsageRow.live now) :=
  OrderedMap.get?_retain

namespace InMemory

/-- `InMemoryIntentTokenUsageStore::consume`. -/
def consume (rows : UsageRows) (call : ConsumeCall) : ConsumeResult × UsageRows :=
  match validateConsumeArguments call with
  | .error e => (.error e, rows)
  | .ok tokenId =>
    let rows := prune rows call.now
    match rows.get? tokenId with
    | none =>
      (.ok (true, 1), rows.insert tokenId ⟨1, call.maxExecutions, call.expireAtEpoch⟩)
    | some row =>
      if row.executionsLimit ≠ call.maxExecutions ∨ row.expireAtEpoch ≠ call.expireAtEpoch then
        (.error policyMismatch, rows)
      else if row.executionsUsed ≥ call.maxExecutions then
        (.ok (false, row.executionsUsed), rows)
      else
        (.ok (true, row.executionsUsed + 1),
          rows.insert tokenId { row with executionsUsed := row.executionsUsed + 1 })

end InMemory

namespace SQLite

/-- The statements of `consume_inner`, with the table afterwards. -/
def consumeInner (rows : UsageRows) (tokenId : String) (call : ConsumeCall) :
    Except String ((Bool × Int) × UsageRows) :=
  let rows := prune rows call.now
  match rows.get? tokenId with
  | none =>
    .ok ((true, 1), rows.insert tokenId ⟨1, call.maxExecutions, call.expireAtEpoch⟩)
  | some row =>
    if row.executionsLimit ≠ call.maxExecutions ∨ row.expireAtEpoch ≠ call.expireAtEpoch then
      .error policyMismatch
    else if row.executionsUsed ≥ call.maxExecutions then
      .ok ((false, row.executionsUsed), rows)
    else
      let executionsUsed := row.executionsUsed + 1
      .ok ((true, executionsUsed), rows.insert tokenId { row with executionsUsed })

/-- `SQLiteIntentTokenUsageStore::consume`: one transaction, rolled back on an error. -/
def consume (available : Bool) (rows : UsageRows) (call : ConsumeCall) :
    ConsumeResult × UsageRows :=
  match validateConsumeArguments call with
  | .error e => (.error e, rows)
  | .ok tokenId =>
    if available then
      match consumeInner rows tokenId call with
      | .ok (result, committed) => (.ok result, committed)
      | .error e => (.error e, rows)
    else (.error storeUnavailable, rows)

end SQLite

/-! ### What one call can do -/

/-- `consume` refuses and at most prunes, starts a count, or continues one. -/
inductive ConsumeEffect (rows : UsageRows) (call : ConsumeCall) :
    ConsumeResult × UsageRows → Prop where
  | refused {result : ConsumeResult} {rows' : UsageRows} :
      (∀ used, result ≠ .ok (true, used)) → rows' = rows ∨ rows' = prune rows call.now →
      ConsumeEffect rows call (result, rows')
  | started {id : String} :
      validateConsumeArguments call = .ok id → (prune rows call.now).get? id = none →
      ConsumeEffect rows call (.ok (true, 1),
        (prune rows call.now).insert id ⟨1, call.maxExecutions, call.expireAtEpoch⟩)
  | continued {id : String} {row : UsageRow} :
      validateConsumeArguments call = .ok id → (prune rows call.now).get? id = some row →
      row.executionsLimit = call.maxExecutions → row.expireAtEpoch = call.expireAtEpoch →
      row.executionsUsed < call.maxExecutions →
      ConsumeEffect rows call (.ok (true, row.executionsUsed + 1),
        (prune rows call.now).insert id { row with executionsUsed := row.executionsUsed + 1 })

theorem InMemory.consume_effect (rows : UsageRows) (call : ConsumeCall) :
    ConsumeEffect rows call (InMemory.consume rows call) := by
  unfold InMemory.consume
  cases valid : validateConsumeArguments call with
  | error e => exact .refused (by simp) (.inl rfl)
  | ok id =>
    cases found : (prune rows call.now).get? id with
    | none => simpa [found] using ConsumeEffect.started valid found
    | some row =>
      simp only [found]
      split_ifs with mismatch exhausted
      · exact .refused (by simp) (.inr rfl)
      · exact .refused (by simp) (.inr rfl)
      · simp only [not_or, not_not, not_le] at mismatch exhausted
        exact .continued valid found mismatch.1 mismatch.2 exhausted

theorem SQLite.consume_effect (available : Bool) (rows : UsageRows) (call : ConsumeCall) :
    ConsumeEffect rows call (SQLite.consume available rows call) := by
  unfold SQLite.consume SQLite.consumeInner
  cases valid : validateConsumeArguments call with
  | error e => exact .refused (by simp) (.inl rfl)
  | ok id =>
    cases available with
    | false => exact .refused (by simp [storeUnavailable]) (.inl rfl)
    | true =>
      simp only [if_true]
      cases found : (prune rows call.now).get? id with
      | none => exact .started valid found
      | some row =>
        by_cases mismatch : row.executionsLimit ≠ call.maxExecutions ∨
            row.expireAtEpoch ≠ call.expireAtEpoch
        · simp only [if_pos mismatch]
          exact .refused (by simp) (.inl rfl)
        · by_cases exhausted : row.executionsUsed ≥ call.maxExecutions
          · simp only [if_neg mismatch, if_pos exhausted]
            exact .refused (by simp) (.inr rfl)
          · simp only [if_neg mismatch, if_neg exhausted]
            simp only [not_or, not_not, not_le] at mismatch exhausted
            exact .continued valid found mismatch.1 mismatch.2 exhausted

/-! ### The contract without pruning -/

/-- Every row ever written, by token id; the latest one wins. -/
abbrev Ledger := String → Option UsageRow

namespace Ledger

def empty : Ledger := fun _ => none

def write (ledger : Ledger) (tokenId : String) (row : UsageRow) : Ledger :=
  fun id => if id = tokenId then some row else ledger id

/-- Check the limit and count one execution. -/
def consume (ledger : Ledger) (call : ConsumeCall) : ConsumeResult × Ledger :=
  match validateConsumeArguments call with
  | .error e => (.error e, ledger)
  | .ok tokenId =>
    match (ledger tokenId).filter (UsageRow.live call.now) with
    | none =>
      (.ok (true, 1), ledger.write tokenId ⟨1, call.maxExecutions, call.expireAtEpoch⟩)
    | some row =>
      if row.executionsLimit ≠ call.maxExecutions ∨ row.expireAtEpoch ≠ call.expireAtEpoch then
        (.error policyMismatch, ledger)
      else if row.executionsUsed ≥ call.maxExecutions then
        (.ok (false, row.executionsUsed), ledger)
      else
        (.ok (true, row.executionsUsed + 1),
          ledger.write tokenId { row with executionsUsed := row.executionsUsed + 1 })

end Ledger

/-- From the clock value `start` on, the store and the ledger hold the same
live rows. -/
def Represents (start : Int) (rows : UsageRows) (ledger : Ledger) : Prop :=
  ∀ now, start ≤ now → ∀ id,
    (rows.get? id).filter (UsageRow.live now) = (ledger id).filter (UsageRow.live now)

theorem represents_empty (start : Int) : Represents start OrderedMap.empty Ledger.empty :=
  fun _ _ _ => rfl

variable {rows : UsageRows} {ledger : Ledger}

theorem Represents.later {start later : Int}
    (h : Represents start rows ledger) (le : start ≤ later) : Represents later rows ledger :=
  fun now after => h now (le.trans after)

private theorem filter_live_live {now later : Int} (le : now ≤ later) (row : Option UsageRow) :
    (row.filter (UsageRow.live now)).filter (UsageRow.live later) =
      row.filter (UsageRow.live later) := by
  cases row with
  | none => rfl
  | some row =>
    by_cases h : row.live later = true
    · have earlier : row.live now = true := by
        simp only [UsageRow.live, decide_eq_true_eq] at h ⊢
        omega
      simp [Option.filter, h, earlier]
    · cases hn : row.live now <;> simp [Option.filter, h, hn]

theorem Represents.prune {start now : Int} (h : Represents start rows ledger) (le : start ≤ now) :
    Represents now (prune rows now) ledger := by
  intro later after id
  rw [get?_prune, filter_live_live after]
  exact h later (le.trans after) id

theorem Represents.write {start : Int}
    (h : Represents start rows ledger) (id : String) (row : UsageRow) :
    Represents start (rows.insert id row) (ledger.write id row) := by
  intro now after other
  rw [OrderedMap.get?_insert, Ledger.write]
  split
  · rfl
  · exact h now after other

namespace InMemory

/-- The in-memory store answers as the ledger does and goes on representing
it. -/
theorem consume_represents {start : Int} {rows : UsageRows} {ledger : Ledger} {call : ConsumeCall}
    (h : Represents start rows ledger) (le : start ≤ call.now) :
    (consume rows call).1 = (ledger.consume call).1 ∧
      Represents call.now (consume rows call).2 (ledger.consume call).2 := by
  unfold consume Ledger.consume
  cases validateConsumeArguments call with
  | error e => exact ⟨rfl, h.later le⟩
  | ok tokenId =>
    have pruned := h.prune le
    simp only [get?_prune, h call.now le tokenId]
    cases (ledger tokenId).filter (UsageRow.live call.now) with
    | none => exact ⟨rfl, pruned.write _ _⟩
    | some row =>
      dsimp only
      split
      · exact ⟨rfl, pruned⟩
      · split
        · exact ⟨rfl, pruned⟩
        · exact ⟨rfl, pruned.write _ _⟩

end InMemory

namespace SQLite

/-- The transactional store represents the ledger, also after a rollback. -/
theorem consume_represents {start : Int} {rows : UsageRows} {ledger : Ledger} {call : ConsumeCall}
    (h : Represents start rows ledger) (le : start ≤ call.now) :
    (consume true rows call).1 = (ledger.consume call).1 ∧
      Represents call.now (consume true rows call).2 (ledger.consume call).2 := by
  unfold consume consumeInner Ledger.consume
  cases validateConsumeArguments call with
  | error e => exact ⟨rfl, h.later le⟩
  | ok tokenId =>
    have pruned := h.prune le
    simp only [get?_prune, h call.now le tokenId]
    cases (ledger tokenId).filter (UsageRow.live call.now) with
    | none => exact ⟨rfl, pruned.write _ _⟩
    | some row =>
      by_cases mismatch : row.executionsLimit ≠ call.maxExecutions ∨
          row.expireAtEpoch ≠ call.expireAtEpoch
      · simp only [if_pos mismatch, if_true]
        exact ⟨trivial, h.later le⟩
      · by_cases exhausted : row.executionsUsed ≥ call.maxExecutions
        · simp only [if_neg mismatch, if_pos exhausted, if_true]
          exact ⟨trivial, pruned⟩
        · simp only [if_neg mismatch, if_neg exhausted, if_true]
          exact ⟨trivial, pruned.write _ _⟩

end SQLite

/-- The inputs still to come read clock values from `start` on, in order. -/
def ClockFrom (start : Int) (calls : List ConsumeCall) : Prop :=
  (∀ call ∈ calls, start ≤ call.now) ∧ calls.Pairwise fun a b => a.now ≤ b.now

theorem ClockFrom.tail {start : Int} {call : ConsumeCall} {calls : List ConsumeCall}
    (h : ClockFrom start (call :: calls)) : ClockFrom call.now calls :=
  List.pairwise_cons.mp h.2

theorem answers_eq_ledger {consume : UsageRows → ConsumeCall → ConsumeResult × UsageRows}
    (refines : ∀ {start rows ledger call}, Represents start rows ledger → start ≤ call.now →
      (consume rows call).1 = (Ledger.consume ledger call).1 ∧
        Represents call.now (consume rows call).2 (Ledger.consume ledger call).2)
    {start : Int} {calls : List ConsumeCall}
    (h : Represents start rows ledger) (clock : ClockFrom start calls) :
    answers consume rows calls = answers Ledger.consume ledger calls := by
  refine answers_eq_of_simulation
    (fun calls rows ledger => ∃ start, Represents start rows ledger ∧ ClockFrom start calls)
    ?_ ⟨start, h, clock⟩
  rintro call calls rows ledger ⟨start, h, clock⟩
  obtain ⟨same, next⟩ := @refines start rows ledger call h (clock.1 call List.mem_cons_self)
  exact ⟨same, call.now, next, clock.tail⟩

/-- The two stores answer alike as long as the clock does not go back. -/
theorem stores_agree (calls : List ConsumeCall)
    (clock : calls.Pairwise fun a b => a.now ≤ b.now) :
    answers InMemory.consume OrderedMap.empty calls =
      answers (SQLite.consume true) OrderedMap.empty calls := by
  cases calls with
  | nil => rfl
  | cons call calls =>
    have from_first : ClockFrom call.now (call :: calls) := by
      refine ⟨fun c mem => ?_, clock⟩
      rcases List.mem_cons.mp mem with rfl | mem
      · exact le_rfl
      · exact (List.pairwise_cons.mp clock).1 c mem
    rw [answers_eq_ledger InMemory.consume_represents (represents_empty call.now) from_first,
      answers_eq_ledger SQLite.consume_represents (represents_empty call.now) from_first]

/-- A count to its limit, a policy mismatch, an expired row and a fresh start. -/
theorem stores_agree_on_mismatch_after_expiry :
    let calls : List ConsumeCall :=
      [⟨" t1 ", 1, 10, 3⟩, ⟨"t1", 1, 10, 4⟩, ⟨"t2", 2, 20, 5⟩, ⟨"t2", 3, 20, 12⟩, ⟨"t1", 2, 30, 12⟩]
    calls.Pairwise (fun a b => a.now ≤ b.now) ∧
      answers InMemory.consume OrderedMap.empty calls =
        answers (SQLite.consume true) OrderedMap.empty calls ∧
      answers InMemory.consume OrderedMap.empty calls =
        [.ok (true, 1), .ok (false, 1), .ok (true, 1), .error policyMismatch, .ok (true, 1)] := by
  intro calls
  have clock : calls.Pairwise (fun a b => a.now ≤ b.now) := by decide
  exact ⟨clock, stores_agree calls clock, by decide⟩

end AgentProtocols.A4P
