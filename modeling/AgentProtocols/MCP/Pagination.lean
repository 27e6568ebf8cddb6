import Mathlib.Tactic.Linarith
import AgentProtocols.A4P.Util
import AgentProtocols.Json.Decimal
import AgentProtocols.MCP.Error

/-!
Cursor pagination of the tool and resource registries. `none` is a panic, and `walk` follows the
cursors.

* `cursorStart_toString`: a cursor that a page hands out is read back.
* `listPage_defined`: when a page panics, whether additions are checked or wrap.
* `walk_listPage`: a walk returns what is registered from its start on.
* `covers_iff`: when the walk lists every entry once and no cursor panics.
-/

namespace AgentProtocols.MCP

open Json
open AgentProtocols.A4P (trim isWhitespace)

/-! ### The registries -/

/-- A registered tool, without its handler. -/
structure ServerTool where
  name : String
  title : Option String
  description : Option String
  inputSchema : Option Json
  outputSchema : Option Json
  annotations : Option Json
  icons : Option Json

/-- The public description of a tool. -/
structure Tool where
  name : String
  title : Option String
  description : Option String
  inputSchema : Option Json
  outputSchema : Option Json
  annotations : Option Json
  icons : Option Json

def ServerTool.toTool (tool : ServerTool) : Tool where
  name := tool.name
  title := tool.title
  description := tool.description
  inputSchema := tool.inputSchema
  outputSchema := tool.outputSchema
  annotations := tool.annotations
  icons := tool.icons

structure ResourceInfo where
  uri : String
  name : String
  title : Option String
  description : Option String
  mimeType : Option String
  size : Option Int
  icons : Option Json
  annotations : Option Json

/-- The names of a registry are collected in a vector of pointers, which fits
in the address space. -/
def maxEntries : Nat := 2 ^ 60

/-- The tool registry. Every tool is kept under its name. -/
structure ToolManager where
  overwrite : Bool
  tools : Std.TreeMap String ServerTool
  pageSize : UInt64
  named : ∀ name (tool : ServerTool), tools[name]? = some tool → tool.name = name
  fits : tools.size < maxEntries

/-- The resource registry, without the templates. Every resource is kept under
its URI. -/
structure ResourceManager where
  overwrite : Bool
  resources : Std.TreeMap String ResourceInfo
  pageSize : UInt64
  named : ∀ uri (resource : ResourceInfo), resources[uri]? = some resource → resource.uri = uri
  fits : resources.size < maxEntries

/-! ### Registering -/

section

variable {V : Type} {entries : Std.TreeMap String V} {key : V → String}

theorem named_empty : ∀ name v, (∅ : Std.TreeMap String V)[name]? = some v → key v = name := by
  intro name v found
  cases found

variable (named : ∀ name v, entries[name]? = some v → key v = name)

include named

theorem named_insert (v : V) :
    ∀ name w, (entries.insert (key v) v)[name]? = some w → key w = name := by
  intro name w found
  rw [Std.TreeMap.getElem?_insert] at found
  split at found
  · rename_i same
    cases found
    exact Std.LawfulEqOrd.eq_of_compare same
  · exact named name w found

theorem named_erase (gone : String) :
    ∀ name w, (entries.erase gone)[name]? = some w → key w = name := by
  intro name w found
  rw [Std.TreeMap.getElem?_erase] at found
  split at found
  · cases found
  · exact named name w found

omit named

end

namespace ToolManager

/-- `add_tool`, when memory has room for the map with the tool. -/
def addTool (m : ToolManager) (tool : ServerTool)
    (room : (m.tools.insert tool.name tool).size < maxEntries) : Except McpError ToolManager :=
  if tool.name ∈ m.tools ∧ !m.overwrite then
    .error (.state ("Tool '" ++ tool.name ++ "' already exists"))
  else
    .ok { m with
      tools := m.tools.insert tool.name tool
      named := named_insert m.named tool
      fits := room }

def removeTool (m : ToolManager) (name : String) : Except McpError ToolManager :=
  if name.isEmpty then .error (.argument "Tool name cannot be empty")
  else if name ∈ m.tools then
    .ok { m with
      tools := m.tools.erase name
      named := named_erase m.named name
      fits := Nat.lt_of_le_of_lt Std.TreeMap.size_erase_le m.fits }
  else .error (.state ("Tool '" ++ name ++ "' not found"))

def setPageSize (m : ToolManager) (pageSize : UInt64) : ToolManager := { m with pageSize }

end ToolManager

namespace ResourceManager

/-- `add_resource`, when memory has room for the map with the resource. -/
def addResource (m : ResourceManager) (resource : ResourceInfo)
    (room : (m.resources.insert resource.uri resource).size < maxEntries) :
    Except McpError ResourceManager :=
  if resource.uri.isEmpty then .error (.argument "Resource URI cannot be empty")
  else if resource.name.isEmpty then .error (.argument "Resource name cannot be empty")
  else if resource.uri ∈ m.resources ∧ !m.overwrite then
    .error (.state ("Resource '" ++ resource.uri ++ "' already exists"))
  else
    .ok { m with
      resources := m.resources.insert resource.uri resource
      named := named_insert m.named resource
      fits := room }

def removeResource (m : ResourceManager) (uri : String) : Except McpError ResourceManager :=
  if uri.isEmpty then .error (.argument "Resource URI cannot be empty")
  else if uri ∈ m.resources then
    .ok { m with
      resources := m.resources.erase uri
      named := named_erase m.named uri
      fits := Nat.lt_of_le_of_lt Std.TreeMap.size_erase_le m.fits }
  else .error (.state ("Resource '" ++ uri ++ "' not found"))

def setPageSize (m : ResourceManager) (pageSize : UInt64) : ResourceManager := { m with pageSize }

end ResourceManager

/-! ### One page -/

structure Page (α : Type) where
  items : List α
  nextCursor : Option String

def cursorStart (cursor : Option String) (len : Nat) : Nat :=
  let start := ((cursor.bind fun c => parseI64 (trim c).toList).map fun v =>
    if v < 0 then 0 else v.toNat).getD 0
  min start len

/-- An addition at `usize`, which panics or wraps on overflow as the build has it. -/
def addUsize (overflowChecks : Bool) (a b : Nat) : Option Nat :=
  if a + b < 2 ^ 64 then some (a + b)
  else if overflowChecks then none
  else some ((a + b) % 2 ^ 64)

def slice {α : Type} (xs : List α) (start stop : Nat) : Option (List α) :=
  if start ≤ stop ∧ stop ≤ xs.length then some ((xs.take stop).drop start) else none

section

variable {V α : Type} (overflowChecks : Bool) (entries : Std.TreeMap String V) (describe : V → α)
  (pageSize : UInt64)

def listPage (cursor : Option String) : Option (Page α) := do
  let names := entries.keys
  let start := cursorStart cursor names.length
  let sum ← addUsize overflowChecks start pageSize.toNat
  let stop := min sum names.length
  let page ← slice names start stop
  return {
    items := (page.filterMap fun name => entries[name]?).map describe
    nextCursor := if stop < names.length then some (String.ofList (natText stop)) else none }

end

def ToolManager.listTools (overflowChecks : Bool) (m : ToolManager) (cursor : Option String) :
    Option (Page Tool) :=
  listPage overflowChecks m.tools ServerTool.toTool m.pageSize cursor

def ResourceManager.listResources (overflowChecks : Bool) (m : ResourceManager)
    (cursor : Option String) : Option (Page ResourceInfo) :=
  listPage overflowChecks m.resources id m.pageSize cursor

/-- The items of the pages from a cursor on, when the last of them comes within
`pages` calls. -/
def walk {α : Type} (list : Option String → Option (Page α)) :
    Nat → Option String → Option (List α)
  | 0, _ => none
  | pages + 1, cursor => do
    let page ← list cursor
    match page.nextCursor with
    | none => return page.items
    | some next => return page.items ++ (← walk list pages (some next))

/-! ### Decimal cursors -/

theorem isWhitespace_of_isDigit {c : Char} (digit : c.isDigit = true) : isWhitespace c = false := by
  simp only [Char.isDigit, Bool.and_eq_true, decide_eq_true_eq] at digit
  obtain ⟨lower, upper⟩ := digit
  change 48 ≤ c.toNat at lower
  change c.toNat ≤ 57 at upper
  simp only [isWhitespace]
  grind

theorem trim_natText (n : Nat) :
    trim (String.ofList (natText n)) = String.ofList (natText n) := by
  have visible : ∀ c ∈ natText n, isWhitespace c = false :=
    fun _ mem => isWhitespace_of_isDigit (isDigit_of_mem_natText mem)
  have start : (natText n).dropWhile isWhitespace = natText n := by
    rw [List.dropWhile_eq_self_iff]
    intro pos
    simp [visible _ (List.getElem_mem pos)]
  have stop : (natText n).rdropWhile isWhitespace = natText n := by
    rw [List.rdropWhile_eq_self_iff]
    intro nonempty
    simp [visible _ (List.getLast_mem nonempty)]
  rw [trim, String.toList_ofList, start, stop]

theorem cursorStart_le (cursor : Option String) (len : Nat) : cursorStart cursor len ≤ len :=
  Nat.min_le_right _ _

/-- A cursor that a page hands out is read back. -/
theorem cursorStart_toString {n len : Nat} (inside : n ≤ len) (fits : len < maxEntries) :
    cursorStart (some (String.ofList (natText n))) len = n := by
  have bound : n < 2 ^ 63 := by
    unfold maxEntries at fits
    omega
  have nonneg : ¬ (n : Int) < 0 := by omega
  rw [cursorStart, Option.bind_some, trim_natText, String.toList_ofList, parseI64_natText bound,
    Option.map_some, Option.getD_some, if_neg nonneg, Int.toNat_natCast]
  exact Nat.min_eq_left inside

/-! ### One page, computed -/

section

variable {V α : Type} {overflowChecks : Bool} {entries : Std.TreeMap String V} {describe : V → α}
  {pageSize : UInt64} {cursor : Option String} {start stop : Nat}

/-- The entries from one index to another, in the order of their names. -/
def between (entries : Std.TreeMap String V) (start stop : Nat) : List (String × V) :=
  (entries.toList.take stop).drop start

theorem filterMap_lookup {listed : List (String × V)}
    (registered : ∀ e ∈ listed, e ∈ entries.toList) :
    (listed.map Prod.fst).filterMap (fun name => entries[name]?) = listed.map Prod.snd := by
  rw [List.filterMap_map, ← List.filterMap_eq_map]
  refine List.filterMap_congr fun e mem => ?_
  exact Std.TreeMap.mem_toList_iff_getElem?_eq_some.mp (registered e mem)

theorem slice_keys (ordered : start ≤ stop) (inside : stop ≤ entries.size) :
    slice entries.keys start stop = some ((between entries start stop).map Prod.fst) := by
  rw [slice, if_pos ⟨ordered, by rwa [Std.TreeMap.length_keys]⟩, between, List.map_drop,
    List.map_take, Std.TreeMap.map_fst_toList_eq_keys]

variable (overflowChecks describe) in
theorem listPage_eq (isStart : cursorStart cursor entries.size = start)
    (inRange : start + pageSize.toNat < 2 ^ 64)
    (isStop : min (start + pageSize.toNat) entries.size = stop) :
    listPage overflowChecks entries describe pageSize cursor = some {
        items := (between entries start stop).map fun e => describe e.2
        nextCursor :=
          if stop < entries.size then some (String.ofList (natText stop)) else none } := by
  have inside := cursorStart_le cursor entries.size
  have cut : slice entries.keys start stop = some ((between entries start stop).map Prod.fst) :=
    slice_keys (by omega) (by omega)
  have looked : ((between entries start stop).map Prod.fst).filterMap
      (fun name => entries[name]?) = (between entries start stop).map Prod.snd :=
    filterMap_lookup fun e mem => List.mem_of_mem_take (List.mem_of_mem_drop mem)
  simp only [listPage, Std.TreeMap.length_keys, isStart, addUsize, if_pos inRange, isStop,
    Option.bind_eq_bind, Option.bind_some, cut, looked, List.map_map]
  rfl

theorem listPage_eq_none (isStart : cursorStart cursor entries.size = start)
    (outOfRange : 2 ^ 64 ≤ start + pageSize.toNat) :
    listPage overflowChecks entries describe pageSize cursor = none := by
  have size := pageSize.toNat_lt
  have notInRange : ¬ start + pageSize.toNat < 2 ^ 64 := by omega
  simp only [listPage, Std.TreeMap.length_keys, isStart, addUsize, if_neg notInRange,
    Option.bind_eq_bind]
  cases overflowChecks with
  | true => rfl
  | false =>
    have backwards : ¬ (start ≤ min ((start + pageSize.toNat) % 2 ^ 64) entries.size ∧
          min ((start + pageSize.toNat) % 2 ^ 64) entries.size ≤ entries.keys.length) := by
      omega
    simp only [Bool.false_eq_true, if_false, Option.bind_some, slice, if_neg backwards,
      Option.bind_none]

/-- A page panics exactly when its start and the page size leave the range. -/
theorem listPage_defined :
    (listPage overflowChecks entries describe pageSize cursor).isSome = true ↔
      cursorStart cursor entries.size + pageSize.toNat < 2 ^ 64 := by
  by_cases inRange : cursorStart cursor entries.size + pageSize.toNat < 2 ^ 64
  · rw [listPage_eq overflowChecks describe rfl inRange rfl]
    exact ⟨fun _ => inRange, fun _ => rfl⟩
  · rw [listPage_eq_none rfl (Nat.le_of_not_lt inRange)]
    exact ⟨fun defined => Bool.noConfusion defined, fun range => absurd range inRange⟩

/-! ### The walk -/

theorem between_append_drop (ordered : start ≤ stop) (inside : stop ≤ entries.size) :
    between entries start stop ++ entries.toList.drop stop = entries.toList.drop start := by
  have length : start ≤ (entries.toList.take stop).length := by
    rw [List.length_take, Std.TreeMap.length_toList]
    omega
  rw [between, ← List.drop_append_of_le_length length, List.take_append_drop]

variable (overflowChecks describe) in
/-- A walk returns what is registered from its start on, by induction on what is left. -/
theorem walk_listPage (positive : 0 < pageSize.toNat) (fits : entries.size < maxEntries)
    (room : entries.size + pageSize.toNat < 2 ^ 64) (cursor : Option String) :
    ∃ pages, walk (listPage overflowChecks entries describe pageSize) pages cursor =
      some ((entries.toList.drop (cursorStart cursor entries.size)).map fun e => describe e.2) := by
  generalize isStart : cursorStart cursor entries.size = start
  have inside : start ≤ entries.size := isStart ▸ cursorStart_le cursor entries.size
  induction left : entries.size - start using Nat.strong_induction_on generalizing cursor start with
  | _ left ih =>
    generalize isStop : min (start + pageSize.toNat) entries.size = stop
    have page := listPage_eq overflowChecks describe isStart (by omega) isStop
    have append : between entries start stop ++ entries.toList.drop stop =
        entries.toList.drop start := between_append_drop (by omega) (by omega)
    by_cases more : stop < entries.size
    · rw [if_pos more] at page
      obtain ⟨pages, rest⟩ := ih (entries.size - stop) (by omega)
        (some (String.ofList (natText stop))) stop
        (cursorStart_toString (Nat.le_of_lt more) fits) (Nat.le_of_lt more) rfl
      refine ⟨pages + 1, ?_⟩
      rw [← append, List.map_append]
      simp only [walk, page, rest, Option.bind_eq_bind, Option.bind_some]
      rfl
    · rw [if_neg more] at page
      have all : entries.toList.drop stop = [] := by
        rw [List.drop_eq_nil_iff, Std.TreeMap.length_toList]
        omega
      refine ⟨1, ?_⟩
      rw [← append, all, List.append_nil]
      simp only [walk, page, Option.bind_eq_bind, Option.bind_some]
      rfl

variable (overflowChecks describe) in
theorem walk_of_pageSize_zero (empty : pageSize.toNat = 0) (fits : entries.size < maxEntries)
    (pages : Nat) (cursor : Option String)
    (more : cursorStart cursor entries.size < entries.size) :
    walk (listPage overflowChecks entries describe pageSize) pages cursor = none := by
  induction pages generalizing cursor with
  | zero => rfl
  | succ pages ih =>
    generalize isStart : cursorStart cursor entries.size = start at more
    have inRange : start + pageSize.toNat < 2 ^ 64 := by
      unfold maxEntries at fits
      omega
    have stays : min (start + pageSize.toNat) entries.size = start := by omega
    have page := listPage_eq overflowChecks describe isStart inRange stays
    rw [if_pos more] at page
    have next := cursorStart_toString (Nat.le_of_lt more) fits
    have again := ih (some (String.ofList (natText start))) (by rw [next]; exact more)
    simp only [walk, page, again, Option.bind_eq_bind, Option.bind_some, Option.bind_none]

/-! ### Covering a registry -/

/-- The walk from the first page returns every entry once, and no cursor leaves the range. -/
structure Covers (entries : Std.TreeMap String V) (describe : V → α) (pageSize : UInt64)
    (list : Option String → Option (Page α)) : Prop where
  walk_ends : ∃ (pages : Nat) (listed : List (String × V)),
    walk list pages none = some (listed.map fun e => describe e.2) ∧
      listed.Pairwise (fun e f => e.1 < f.1) ∧
      ∀ (name : String) (v : V), (name, v) ∈ listed ↔ entries[name]? = some v
  no_overflow : ∀ cursor, cursorStart cursor entries.size + pageSize.toNat < 2 ^ 64
  in_bounds : ∀ cursor, (list cursor).isSome = true

theorem cursorStart_none (len : Nat) : cursorStart none len = 0 := Nat.zero_min len

theorem toList_ordered : entries.toList.Pairwise fun e f => e.1 < f.1 :=
  (Std.TreeMap.ordered_keys_toList (t := entries)).imp fun lt => compareOfLessAndEq_eq_lt.mp lt

/-- A listing covers its registry exactly when a page holds an entry and the sums fit. -/
theorem covers_iff (fits : entries.size < maxEntries) :
    Covers entries describe pageSize (listPage overflowChecks entries describe pageSize) ↔
      (entries.size = 0 ∨ pageSize.toNat ≠ 0) ∧ entries.size + pageSize.toNat < 2 ^ 64 := by
  constructor
  · intro covers
    constructor
    · by_contra neither
      obtain ⟨nonempty, empty⟩ := not_or.mp neither
      rw [not_not] at empty
      obtain ⟨pages, listed, ended, _⟩ := covers.walk_ends
      rw [walk_of_pageSize_zero overflowChecks describe empty fits pages none
        (by rw [cursorStart_none]; omega)] at ended
      cases ended
    · have last := covers.no_overflow (some (String.ofList (natText entries.size)))
      rwa [cursorStart_toString (Nat.le_refl _) fits] at last
  · rintro ⟨sized, room⟩
    have no_overflow : ∀ cursor, cursorStart cursor entries.size + pageSize.toNat < 2 ^ 64 := by
      intro cursor
      have inside := cursorStart_le cursor entries.size
      omega
    refine ⟨?_, no_overflow, fun cursor => listPage_defined.mpr (no_overflow cursor)⟩
    have ends : ∃ pages, walk (listPage overflowChecks entries describe pageSize) pages none =
        some (entries.toList.map fun e => describe e.2) := by
      rcases Nat.eq_zero_or_pos pageSize.toNat with empty | positive
      · have none_left : entries.size = 0 := sized.resolve_right (not_not_intro empty)
        have inRange : 0 + pageSize.toNat < 2 ^ 64 := by omega
        have page := listPage_eq overflowChecks describe (cursorStart_none entries.size) inRange rfl
        refine ⟨1, ?_⟩
        have all : entries.toList = [] := by
          rw [← List.length_eq_zero_iff, Std.TreeMap.length_toList, none_left]
        simp [walk, page, between, all, none_left]
      · obtain ⟨pages, walked⟩ :=
          walk_listPage overflowChecks describe positive fits room none
        exact ⟨pages, walked⟩
    obtain ⟨pages, walked⟩ := ends
    exact ⟨pages, entries.toList, walked, toList_ordered,
      fun _ _ => Std.TreeMap.mem_toList_iff_getElem?_eq_some⟩

end

/-- What a registry with this many entries and this page size needs to be listed. -/
def Listable (size : Nat) (pageSize : UInt64) : Prop :=
  (size = 0 ∨ pageSize.toNat ≠ 0) ∧ size + pageSize.toNat < 2 ^ 64

/-- The same for the tools and the resources. -/
theorem pagination_covers_iff (overflowChecks : Bool) :
    (∀ m : ToolManager,
      Covers m.tools ServerTool.toTool m.pageSize (m.listTools overflowChecks) ↔
        Listable m.tools.size m.pageSize) ∧
    ∀ m : ResourceManager,
      Covers m.resources id m.pageSize (m.listResources overflowChecks) ↔
        Listable m.resources.size m.pageSize :=
  ⟨fun m => covers_iff m.fits, fun m => covers_iff m.fits⟩

namespace OneTool

def echo : ServerTool where
  name := "echo"
  title := none
  description := none
  inputSchema := none
  outputSchema := none
  annotations := none
  icons := none

def registry (pageSize : UInt64) : ToolManager where
  overwrite := true
  tools := (∅ : Std.TreeMap String ServerTool).insert echo.name echo
  pageSize
  named := named_insert named_empty echo
  fits := by decide

/-- With a page size of 0 the walk never ends, and with the largest one it panics. -/
theorem not_covered :
    ¬ Covers (registry 0).tools ServerTool.toTool 0 ((registry 0).listTools false) ∧
      (registry 0xFFFFFFFFFFFFFFFF).listTools false (some "1") = none := by
  constructor
  · intro covers
    obtain ⟨pages, listed, ended, _⟩ := covers.walk_ends
    have empty : (0 : UInt64).toNat = 0 := rfl
    have stuck := walk_of_pageSize_zero false ServerTool.toTool empty (registry 0).fits pages none
      (by decide)
    rw [show walk ((registry 0).listTools false) pages none = none from stuck] at ended
    cases ended
  · decide

end OneTool

end AgentProtocols.MCP
