import Mathlib.Data.Finset.Basic
import AgentProtocols.MCP.Error

/-!
The tool blocks of a sampling request. `Grammar` says what a message list is as a whole.

* `checkMessage_eq_ok`, `validate_eq_scan`: the loop over indices is a recursion that carries the
  message before.
* `validate_iff_grammar`: the validator accepts exactly the grammar.
-/

namespace AgentProtocols.MCP

/-! ### Messages -/

inductive RoleType where
  | user
  | assistant
deriving DecidableEq, Repr

/-- A block inside a sampling message, with the identifiers that the validator
reads. -/
inductive SamplingMessageContentBlock where
  | text
  | image
  | audio
  | toolUse (id : String)
  | toolResult (toolUseId : String)
deriving DecidableEq, Repr

inductive SamplingContent where
  | single (block : SamplingMessageContentBlock)
  | multiple (list : List SamplingMessageContentBlock)
deriving DecidableEq, Repr

def SamplingContent.asList : SamplingContent → List SamplingMessageContentBlock
  | single block => [block]
  | multiple list => list

structure SamplingMessage where
  role : RoleType
  content : SamplingContent
deriving DecidableEq, Repr

def SamplingMessage.blocks (message : SamplingMessage) : List SamplingMessageContentBlock :=
  message.content.asList

/-! ### The validator -/

namespace SamplingValidation

open SamplingMessageContentBlock List

def mixedContent : McpError := .argument "Tool results mixed with other content"

def missingResult : McpError := .argument "Tool result missing in request"

def isToolUse : SamplingMessageContentBlock → Bool
  | toolUse _ => true
  | _ => false

def isToolResult : SamplingMessageContentBlock → Bool
  | toolResult _ => true
  | _ => false

def containsToolUse (blocks : List SamplingMessageContentBlock) : Bool := blocks.any isToolUse

def containsToolResult (blocks : List SamplingMessageContentBlock) : Bool :=
  blocks.any isToolResult

def toolUseId? : SamplingMessageContentBlock → Option String
  | toolUse id => some id
  | _ => none

def toolResultId? : SamplingMessageContentBlock → Option String
  | toolResult id => some id
  | _ => none

def toolUseIds (blocks : List SamplingMessageContentBlock) : Finset String :=
  (blocks.filterMap toolUseId?).toFinset

def toolResultIds (blocks : List SamplingMessageContentBlock) : Finset String :=
  (blocks.filterMap toolResultId?).toFinset

def ensureOnlyToolResults (blocks : List SamplingMessageContentBlock) : Except McpError Unit :=
  if blocks.all isToolResult then .ok () else .error mixedContent

/-- What the loop asks of a message with tool results, given the message before. -/
def checkToolResult (prev : Option SamplingMessage) (message : SamplingMessage) :
    Except McpError Unit := do
  ensureOnlyToolResults message.blocks
  if message.role ≠ .user then .error mixedContent
  else
    match prev with
    | none => .error missingResult
    | some prev =>
      if toolUseIds prev.blocks = ∅ then .error missingResult
      else if toolUseIds prev.blocks ≠ toolResultIds message.blocks then .error missingResult
      else .ok ()

/-- What the loop asks of a message with tool uses, given the message after. -/
def checkToolUse (message : SamplingMessage) (next : Option SamplingMessage) :
    Except McpError Unit :=
  if message.role ≠ .assistant then .error missingResult
  else
    match next with
    | none => .error missingResult
    | some next =>
      if !containsToolResult next.blocks then .error missingResult
      else do
        ensureOnlyToolResults next.blocks
        if toolUseIds message.blocks ≠ toolResultIds next.blocks then .error missingResult
        else .ok ()

/-- The body of the loop. -/
def checkMessage (prev : Option SamplingMessage) (message : SamplingMessage)
    (next : Option SamplingMessage) : Except McpError Unit :=
  (if containsToolResult message.blocks then checkToolResult prev message else .ok ()) >>= fun _ =>
    if containsToolUse message.blocks then checkToolUse message next else .ok ()

/-- The message before the one at index `i`. -/
def before (messages : List SamplingMessage) (i : Nat) : Option SamplingMessage :=
  if i = 0 then none else messages[i - 1]?

def validateToolUseResultMessages (messages : List SamplingMessage) : Except McpError Unit :=
  messages.zipIdx.forM fun entry =>
    checkMessage (before messages entry.2) entry.1 messages[entry.2 + 1]?

/-! ### The grammar -/

def Plain (message : SamplingMessage) : Prop :=
  ∀ block ∈ message.blocks, isToolUse block = false ∧ isToolResult block = false

/-- An assistant message that uses tools and the user message with exactly their results. -/
structure Pair (uses results : SamplingMessage) : Prop where
  assistant : uses.role = .assistant
  some_use : ∃ block ∈ uses.blocks, isToolUse block = true
  no_result : ∀ block ∈ uses.blocks, isToolResult block = false
  user : results.role = .user
  nonempty : results.blocks ≠ []
  only_results : ∀ block ∈ results.blocks, isToolResult block = true
  same_ids : ∀ id, toolUse id ∈ uses.blocks ↔ toolResult id ∈ results.blocks

/-- Concatenations of plain messages and pairs. -/
inductive Grammar : List SamplingMessage → Prop where
  | nil : Grammar []
  | plain {message messages} : Plain message → Grammar messages → Grammar (message :: messages)
  | pair {uses results messages} : Pair uses results → Grammar messages →
      Grammar (uses :: results :: messages)

/-! ### Blocks -/

variable {next prev : Option SamplingMessage} {blocks : List SamplingMessageContentBlock}
  {message : SamplingMessage}

theorem containsToolUse_eq_true :
    containsToolUse blocks = true ↔ ∃ block ∈ blocks, isToolUse block = true := by
  simp [containsToolUse]

theorem containsToolUse_eq_false :
    containsToolUse blocks = false ↔ ∀ block ∈ blocks, isToolUse block = false := by
  simp [containsToolUse]

theorem containsToolResult_eq_true :
    containsToolResult blocks = true ↔ ∃ block ∈ blocks, isToolResult block = true := by
  simp [containsToolResult]

theorem containsToolResult_eq_false :
    containsToolResult blocks = false ↔ ∀ block ∈ blocks, isToolResult block = false := by
  simp [containsToolResult]

theorem plain_iff : Plain message ↔
      containsToolUse message.blocks = false ∧ containsToolResult message.blocks = false := by
  rw [containsToolUse_eq_false, containsToolResult_eq_false]
  exact forall₂_and

theorem mem_toolUseIds {id : String} : id ∈ toolUseIds blocks ↔ toolUse id ∈ blocks := by
  rw [toolUseIds, mem_toFinset, mem_filterMap]
  constructor
  · rintro ⟨block, mem, found⟩
    cases block <;> simp only [toolUseId?, Option.some.injEq, reduceCtorEq] at found
    exact found ▸ mem
  · exact fun mem => ⟨_, mem, rfl⟩

theorem mem_toolResultIds {id : String} : id ∈ toolResultIds blocks ↔ toolResult id ∈ blocks := by
  rw [toolResultIds, mem_toFinset, mem_filterMap]
  constructor
  · rintro ⟨block, mem, found⟩
    cases block <;> simp only [toolResultId?, Option.some.injEq, reduceCtorEq] at found
    exact found ▸ mem
  · exact fun mem => ⟨_, mem, rfl⟩

theorem toolUseIds_eq_empty : toolUseIds blocks = ∅ ↔ containsToolUse blocks = false := by
  rw [containsToolUse_eq_false, Finset.eq_empty_iff_forall_notMem]
  constructor
  · intro none block mem
    cases block with
    | toolUse id => exact absurd (mem_toolUseIds.mpr mem) (none id)
    | text | image | audio | toolResult => rfl
  · intro none id mem
    exact absurd (none _ (mem_toolUseIds.mp mem)) (by simp [isToolUse])

theorem ids_eq_iff {uses results : List SamplingMessageContentBlock} :
    toolUseIds uses = toolResultIds results ↔
      ∀ id, toolUse id ∈ uses ↔ toolResult id ∈ results := by
  rw [Finset.ext_iff]
  exact forall_congr' fun id => by rw [mem_toolUseIds, mem_toolResultIds]

theorem ensureOnlyToolResults_eq_ok :
    ensureOnlyToolResults blocks = .ok () ↔ blocks.all isToolResult = true := by
  unfold ensureOnlyToolResults
  split <;> simp_all

theorem containsToolUse_of_all
    (only : blocks.all isToolResult = true) : containsToolUse blocks = false := by
  rw [containsToolUse_eq_false]
  intro block mem
  have result := all_eq_true.mp only block mem
  cases block <;> simp_all [isToolUse, isToolResult]

/-! ### One message -/

theorem checks_eq_ok {first second : Except McpError Unit} :
    (first >>= fun _ => second) = .ok () ↔ first = .ok () ∧ second = .ok () := by
  cases first with
  | ok => exact ⟨fun done => ⟨rfl, done⟩, And.right⟩
  | error failure =>
    constructor
    · intro done
      cases done
    · intro done
      cases done.1

theorem checkToolResult_eq_ok : checkToolResult prev message = .ok () ↔
      message.blocks.all isToolResult = true ∧ message.role = .user ∧
        ∃ uses, prev = some uses ∧ containsToolUse uses.blocks = true ∧
          toolUseIds uses.blocks = toolResultIds message.blocks := by
  unfold checkToolResult
  rw [checks_eq_ok, ensureOnlyToolResults_eq_ok]
  refine and_congr_right fun _ => ?_
  split
  · rename_i notUser
    simp [notUser]
  · rename_i isUser
    cases prev with
    | none => simp
    | some uses =>
      dsimp only
      split
      · rename_i none
        simp [toolUseIds_eq_empty.mp none]
      · rename_i used
        rw [toolUseIds_eq_empty] at used
        split <;> simp_all

theorem checkToolUse_eq_ok : checkToolUse message next = .ok () ↔ message.role = .assistant ∧
        ∃ results, next = some results ∧ containsToolResult results.blocks = true ∧
          results.blocks.all isToolResult = true ∧
          toolUseIds message.blocks = toolResultIds results.blocks := by
  unfold checkToolUse
  split
  · rename_i notAssistant
    simp [notAssistant]
  · rename_i assistant
    cases next with
    | none => simp
    | some results =>
      dsimp only
      split
      · simp_all
      · rw [checks_eq_ok, ensureOnlyToolResults_eq_ok]
        split <;> simp_all

/-- What the body of the loop accepts. -/
theorem checkMessage_eq_ok : checkMessage prev message next = .ok () ↔
      (containsToolResult message.blocks = true → checkToolResult prev message = .ok ()) ∧
        (containsToolUse message.blocks = true → checkToolUse message next = .ok ()) := by
  unfold checkMessage
  rw [checks_eq_ok]
  constructor
  · rintro ⟨first, second⟩
    exact ⟨fun contains => by rwa [if_pos contains] at first,
      fun used => by rwa [if_pos used] at second⟩
  · rintro ⟨first, second⟩
    constructor
    · split
      · exact first ‹_›
      · rfl
    · split
      · exact second ‹_›
      · rfl

/-! ### The loop as a recursion -/

/-- The loop from a message on, with the message before it. -/
def scan : Option SamplingMessage → List SamplingMessage → Except McpError Unit
  | _, [] => .ok ()
  | prev, message :: messages => do
    checkMessage prev message messages.head?
    scan (some message) messages

theorem scan_cons {messages : List SamplingMessage} : scan prev (message :: messages) = .ok () ↔
      checkMessage prev message messages.head? = .ok () ∧ scan (some message) messages = .ok () :=
  checks_eq_ok

theorem forM_eq_scan (done messages : List SamplingMessage) :
    ((messages.zipIdx done.length).forM fun entry =>
        checkMessage (before (done ++ messages) entry.2) entry.1 (done ++ messages)[entry.2 + 1]?) =
      scan done.getLast? messages := by
  induction messages generalizing done with
  | nil => rfl
  | cons message messages ih =>
    have prev : before (done ++ message :: messages) done.length = done.getLast? := by
      rcases eq_nil_or_concat done with rfl | ⟨first, last, rfl⟩
      · rfl
      · simp [before]
    have next : (done ++ message :: messages)[done.length + 1]? = messages.head? := by
      rw [getElem?_append_right (by omega), Nat.add_sub_cancel_left]
      exact head?_eq_getElem?.symm
    have rest := ih (done ++ [message])
    rw [append_assoc, singleton_append, length_append, length_singleton,
      getLast?_concat] at rest
    rw [zipIdx_cons, forM_eq_forM, forM_cons, prev, next, ← forM_eq_forM,
      rest, scan]

theorem validate_eq_scan (messages : List SamplingMessage) :
    validateToolUseResultMessages messages = scan none messages :=
  forM_eq_scan [] messages

/-! ### The validator and the grammar -/

theorem pair_iff {uses results : SamplingMessage} :
    Pair uses results ↔
      containsToolUse uses.blocks = true ∧ containsToolResult uses.blocks = false ∧
        checkToolUse uses (some results) = .ok () ∧ results.role = .user := by
  rw [checkToolUse_eq_ok, containsToolUse_eq_true, containsToolResult_eq_false]
  constructor
  · intro pair
    refine ⟨pair.some_use, pair.no_result, ⟨pair.assistant, results, rfl, ?_, ?_, ?_⟩, pair.user⟩
    · obtain ⟨block, mem⟩ := exists_mem_of_ne_nil _ pair.nonempty
      exact containsToolResult_eq_true.mpr ⟨block, mem, pair.only_results block mem⟩
    · exact all_eq_true.mpr pair.only_results
    · exact ids_eq_iff.mpr pair.same_ids
  · rintro ⟨some_use, no_result, ⟨assistant, _, ⟨⟩, contains, all, same⟩, user⟩
    obtain ⟨block, mem, _⟩ := containsToolResult_eq_true.mp contains
    exact {
      assistant, some_use, no_result, user
      nonempty := ne_nil_of_mem mem
      only_results := all_eq_true.mp all
      same_ids := ids_eq_iff.mp same }

theorem checkMessage_of_no_use (unused : ∀ m, prev = some m → containsToolUse m.blocks = false)
    (accepted : checkMessage prev message next = .ok ()) :
    containsToolResult message.blocks = false := by
  by_contra contains
  rw [Bool.not_eq_false] at contains
  have checked := (checkMessage_eq_ok.mp accepted).1 contains
  obtain ⟨_, _, uses, isPrev, used, _⟩ := checkToolResult_eq_ok.mp checked
  exact absurd used (by simp [unused uses isPrev])

theorem checkMessage_of_plain
    (plain : Plain message) : checkMessage prev message next = .ok () := by
  obtain ⟨no_use, no_result⟩ := plain_iff.mp plain
  exact checkMessage_eq_ok.mpr ⟨by simp [no_result], by simp [no_use]⟩

theorem checkMessage_of_pair {uses results : SamplingMessage} (pair : Pair uses results)
    (prev next : Option SamplingMessage) :
    checkMessage prev uses (some results) = .ok () ∧
      checkMessage (some uses) results next = .ok () := by
  obtain ⟨used, no_result, checked, user⟩ := pair_iff.mp pair
  obtain ⟨_, _, ⟨⟩, _, all, same⟩ := checkToolUse_eq_ok.mp checked
  constructor
  · exact checkMessage_eq_ok.mpr ⟨by simp [no_result], fun _ => checked⟩
  · refine checkMessage_eq_ok.mpr ⟨fun _ => ?_, by simp [containsToolUse_of_all all]⟩
    exact checkToolResult_eq_ok.mpr ⟨all, user, uses, rfl, used, same⟩

theorem scan_of_grammar {messages : List SamplingMessage} (grammar : Grammar messages)
    (prev : Option SamplingMessage) : scan prev messages = .ok () := by
  induction grammar generalizing prev with
  | nil => rfl
  | plain plain _ ih => exact scan_cons.mpr ⟨checkMessage_of_plain plain, ih _⟩
  | pair pair _ ih =>
    obtain ⟨first, second⟩ := checkMessage_of_pair pair prev _
    exact scan_cons.mpr ⟨first, scan_cons.mpr ⟨second, ih _⟩⟩

/-- What is accepted after a message that uses no tool is in the grammar. -/
theorem grammar_of_scan (messages : List SamplingMessage) (prev : Option SamplingMessage)
    (unused : ∀ m, prev = some m → containsToolUse m.blocks = false)
    (accepted : scan prev messages = .ok ()) : Grammar messages := by
  match messages with
  | [] => exact .nil
  | message :: rest =>
    obtain ⟨checked, scanned⟩ := scan_cons.mp accepted
    have no_result := checkMessage_of_no_use unused checked
    cases used : containsToolUse message.blocks with
    | false =>
      have after : Grammar rest :=
        grammar_of_scan rest (some message) (by rintro m ⟨⟩; exact used) scanned
      exact .plain (plain_iff.mpr ⟨used, no_result⟩) after
    | true =>
      have answered := (checkMessage_eq_ok.mp checked).2 used
      obtain ⟨_, results, isNext, contains, all, _⟩ := checkToolUse_eq_ok.mp answered
      match rest, isNext with
      | _ :: later, rfl =>
        obtain ⟨second, scanned⟩ := scan_cons.mp scanned
        have result := (checkMessage_eq_ok.mp second).1 contains
        have user := (checkToolResult_eq_ok.mp result).2.1
        have after : Grammar later :=
          grammar_of_scan later (some results)
            (by rintro m ⟨⟩; exact containsToolUse_of_all all) scanned
        exact .pair (pair_iff.mpr ⟨used, no_result, answered, user⟩) after

/-- The validator accepts exactly the lists of plain messages and of tool uses with results. -/
theorem validate_iff_grammar (messages : List SamplingMessage) :
    validateToolUseResultMessages messages = .ok () ↔ Grammar messages := by
  rw [validate_eq_scan]
  constructor
  · exact grammar_of_scan messages none (by simp)
  · exact fun grammar => scan_of_grammar grammar none

end SamplingValidation

end AgentProtocols.MCP
