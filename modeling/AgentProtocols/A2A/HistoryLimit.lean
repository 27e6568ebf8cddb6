import Mathlib.Data.List.DropRight
import AgentProtocols.A2A.RequestHandler
import AgentProtocols.A2A.RoundTrip

/-!
The history limit of `tasks/get`. `historyLength` is read as an `i64` and cast to an `i32`;
`history_limit_exact_iff` says for which integers and histories the answer has the number of
messages asked for.
-/

namespace AgentProtocols.A2A

open Lib
open AgentProtocols.Json (Number)
open AgentProtocols.Lib.Codec (bind_ok)

/-! ### The request -/

/-- Parameter object for `tasks/get`. -/
structure TaskQueryParams where
  historyLength : Option Int32
  id : String
  metadata : Option Json

def Wire.idParamsFromJson (typeName : String) (value : Json) : Except String (JsonDict × String) := do
  let obj ← asObject typeName value
  refuseIf (!obj.containsKey "id") (typeName ++ " must contain 'id' field")
  let id ← getString obj "id" typeName
  refuseIf (id == "") (typeName ++ ".id cannot be empty")
  return (obj, id)

def TaskQueryParams.fromJsonValue (value : Json) : Except String TaskQueryParams := do
  let (obj, id) ← Wire.idParamsFromJson "TaskQueryParams" value
  let historyLength ← Wire.optI32 obj "historyLength" "TaskQueryParams"
  return { historyLength, id, metadata := Wire.optMetadata obj }

/-- The history is cut where the limit is positive and below its length. -/
def Task.limitHistory (t : Task) (limit : Option Int32) : Task :=
  match limit, t.history with
  | some limit, some history =>
    if 0 < limit ∧ limit.toInt.toNat < history.length then
      { t with history := some (history.drop (history.length - limit.toInt.toNat)) }
    else t
  | _, _ => t

namespace TaskManager

variable (m : TaskManager)

/-- `on_get_task` of the request handler. -/
def onGetTask (params : TaskQueryParams) : Except A2aServerError Task :=
  match m.getTask params.id with
  | none => .error ⟨-32001, "Task id not found"⟩
  | some t => .ok (t.limitHistory params.historyLength)

/-- `tasks/get`: parameters that cannot be read are an internal error. -/
def handleGetTask (params : Json) : Except A2aServerError Task :=
  match TaskQueryParams.fromJsonValue params with
  | .error e => .error (.new e)
  | .ok params => m.onGetTask params

end TaskManager

/-! ### The limit -/

def Task.withLast (n : Nat) (t : Task) : Task :=
  { t with history := t.history.map fun history => history.rtake (min n history.length) }

/-- The request is rejected as invalid, or the answer is the task with its last messages. -/
def LimitedTo (n : Nat) (t : Task) : Except A2aServerError Task → Prop
  | .error e => e.code = -32603
  | .ok answer => answer = t.withLast n

/-- The number that a JSON integer is read as: beyond `u64` it is a float. -/
def IsInteger (n : Nat) : Number → Prop
  | .posInt m _ => m = n
  | .negInt _ _ _ => False
  | .float _ => 2 ^ 64 ≤ n

theorem drop_sub_eq_rtake_iff {α : Type} {l : List α} {k n : Nat} (short : k ≤ l.length) :
    l.drop (l.length - k) = l.rtake (min n l.length) ↔ k = min n l.length := by
  refine ⟨fun same => ?_, fun same => by rw [same, List.rtake]⟩
  have lengths := congrArg List.length same
  rw [List.rtake, List.length_drop, List.length_drop] at lengths
  omega

/-- The limit after the cast, as a number. -/
def castLimit (n : Nat) : Int := (n : Int).bmod (2 ^ 32)

/-- The cast changes nothing, or a history of this length is within both limits. -/
def CastHarmless (n length : Nat) : Prop :=
  castLimit n = n ∨ length ≤ n ∧ (0 < castLimit n → (length : Int) ≤ castLimit n)

theorem castLimit_of_lt {n : Nat} (small : n < 2 ^ 31) : castLimit n = n := by
  have cast : (Int32.ofInt n).toInt = castLimit n := Int32.toInt_ofInt
  have bound : (n : Int) < 2 ^ 31 := by exact_mod_cast small
  rw [← cast]
  exact Int32.toInt_ofInt_of_le (by have := Int.natCast_nonneg n; omega) bound

theorem limitHistory_eq_withLast_iff {n : Nat} (positive : 1 ≤ n) (t : Task) :
    t.limitHistory (some (.ofInt n)) = t.withLast n ↔
      ∀ history ∈ t.history, CastHarmless n history.length := by
  have cast : (Int32.ofInt n).toInt = castLimit n := Int32.toInt_ofInt
  have sign : 0 < Int32.ofInt n ↔ 0 < castLimit n := by
    rw [Int32.lt_iff_toInt_lt, cast]
    rfl
  cases found : t.history with
  | none =>
    have same : t.withLast n = t := by
      rw [Task.withLast, found, Option.map_none, ← found]
    have whole : t.limitHistory (some (.ofInt n)) = t := by
      unfold Task.limitHistory
      rw [found]
    rw [whole, same]
    simp
  | some h =>
    have limited : t.limitHistory (some (.ofInt n)) =
        if 0 < castLimit n ∧ (castLimit n).toNat < h.length then
          { t with history := some (h.drop (h.length - (castLimit n).toNat)) }
        else { t with history := some (h.drop (h.length - h.length)) } := by
      unfold Task.limitHistory
      rw [found]
      simp only [sign, cast, Nat.sub_self, List.drop_zero, ← found]
    have last : t.withLast n = { t with history := some (h.rtake (min n h.length)) } := by
      rw [Task.withLast, found, Option.map_some]
    rw [limited, last]
    simp only [Option.mem_some_iff, forall_eq', CastHarmless]
    split
    · simp only [Task.mk.injEq, Option.some.injEq, true_and, and_true]
      rw [drop_sub_eq_rtake_iff (by omega)]
      omega
    · simp only [Task.mk.injEq, Option.some.injEq, true_and, and_true]
      rw [drop_sub_eq_rtake_iff (Nat.le_refl _)]
      omega

/-! ### The answer -/

section Answer

variable {m : TaskManager} {t : Task} {id : String} {obj : JsonDict} {x : Number} {n : Nat}

theorem idParamsFromJson_of_get (named : obj.get "id" = some (.str id)) (nonempty : id ≠ "")
    (typeName : String) : Wire.idParamsFromJson typeName (.obj obj) = .ok (obj, id) := by
  refine bind_ok rfl (bind_ok (Wire.refuseIf_eq_ok.mpr ?_) (bind_ok
    (Wire.getString_of_get named) (bind_ok (Wire.refuseIf_eq_ok.mpr ?_) rfl)))
  · rw [JsonDict.containsKey, named]
    rfl
  · exact beq_eq_false_iff_ne.mpr nonempty

theorem handleGetTask_of_limit (stored : m.getTask id = some t)
    (named : obj.get "id" = some (.str id)) (nonempty : id ≠ "")
    (limited : obj.get "historyLength" = some (.num x)) :
    m.handleGetTask (.obj obj) =
      match x.asI64 with
      | none => .error (.new "TaskQueryParams.historyLength must be an integer")
      | some i => .ok (t.limitHistory (some (.ofInt i))) := by
  have params : TaskQueryParams.fromJsonValue (.obj obj) =
      (Wire.optI32 obj "historyLength" "TaskQueryParams").map fun historyLength =>
        { historyLength, id, metadata := Wire.optMetadata obj } := by
    rw [TaskQueryParams.fromJsonValue, idParamsFromJson_of_get named nonempty]
    change Wire.optI32 obj "historyLength" "TaskQueryParams" >>= _ = _
    cases Wire.optI32 obj "historyLength" "TaskQueryParams" <;> rfl
  rw [TaskManager.handleGetTask, params, Wire.optI32, limited]
  cases integer : x.asI64 with
  | none => simp [Wire.asI32, integer, Except.map]
  | some i => simp [Wire.asI32, integer, Except.map, TaskManager.onGetTask, stored]

theorem handleGetTask_unnamed (named : obj.get "id" = some (.str "")) :
    m.handleGetTask (.obj obj) = .error (.new "TaskQueryParams.id cannot be empty") := by
  have refused : Wire.idParamsFromJson "TaskQueryParams" (.obj obj) =
      .error "TaskQueryParams.id cannot be empty" := by
    simp [Wire.idParamsFromJson, Wire.asObject, Wire.refuseIf, JsonDict.containsKey, named,
      Wire.getString, Wire.asString, bind, Except.bind]
  rw [TaskManager.handleGetTask, TaskQueryParams.fromJsonValue, refused]
  rfl

/-- The answer has the last messages that were asked for exactly where the cast does no harm. -/
theorem history_limit_exact_iff (stored : m.getTask id = some t)
    (named : obj.get "id" = some (.str id)) (limited : obj.get "historyLength" = some (.num x))
    (integer : IsInteger n x) (positive : 1 ≤ n) :
    LimitedTo n t (m.handleGetTask (.obj obj)) ↔
      id = "" ∨ 2 ^ 63 ≤ n ∨ ∀ history ∈ t.history, CastHarmless n history.length := by
  by_cases unnamed : id = ""
  · subst unnamed
    rw [handleGetTask_unnamed named]
    exact iff_of_true rfl (.inl rfl)
  · rw [handleGetTask_of_limit stored named unnamed limited]
    cases x with
    | posInt k bound =>
      cases integer
      by_cases small : n < 2 ^ 63
      · have within : ¬ 2 ^ 63 ≤ n := by omega
        rw [Number.asI64, if_pos small]
        simp only [unnamed, within, false_or]
        exact limitHistory_eq_withLast_iff positive t
      · rw [Number.asI64, if_neg small]
        exact iff_of_true rfl (.inr (.inl (Nat.le_of_not_lt small)))
    | negInt i negative bound => exact integer.elim
    | float f =>
      have beyond : 2 ^ 64 ≤ n := integer
      exact iff_of_true rfl (.inr (.inl (by omega)))

end Answer

/-! ### A task with two messages -/

namespace LimitSample

def asked (limit : Int) : Json := .obj [("id", .str "t"), ("historyLength", .num (.ofI64 limit))]

def stored : Task :=
  { id := "t", contextId := "c", status := .new .working
    history := some [{ messageId := "first" }, { messageId := "last" }] }

def manager : TaskManager := ⟨OrderedMap.empty.insert "t" stored, .empty, [], []⟩

/-- One message is asked for, and one is answered. -/
theorem one_of_two : LimitedTo 1 stored (manager.handleGetTask (asked 1)) :=
  (history_limit_exact_iff (x := .ofI64 1) rfl rfl rfl rfl (Nat.le_refl 1)).mpr
    (.inr (.inr fun _ _ => .inl (castLimit_of_lt (by decide))))

/-- 4294967297 messages are asked for, and one of the two is answered. -/
theorem overflown_limit_cuts :
    manager.handleGetTask (asked 4294967297) =
      .ok { stored with history := some [{ messageId := "last" }] } ∧
    ¬ LimitedTo 4294967297 stored (manager.handleGetTask (asked 4294967297)) := by
  refine ⟨rfl, fun limited => ?_⟩
  have lengths := congrArg (fun t : Task => t.history.map List.length) limited
  cases lengths

end LimitSample

end AgentProtocols.A2A
