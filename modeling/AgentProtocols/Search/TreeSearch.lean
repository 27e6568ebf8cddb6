import AgentProtocols.A4P.Util
import AgentProtocols.Json.Decimal
import AgentProtocols.Search.ServiceGroups
import AgentProtocols.Search.VectorStore

/-!
Search over the taxonomy. What the model answers, and in which order, is in `LlmPass`.

* `searchPass_spec` — a pass over a tree ends, and offers every service it has found once.
* `length_results_getOne` — in `get_one` each prompt may add a result.
* `run_faithful_iff` — a search keeps its promises exactly if `get_one` is answered once.
-/

namespace AgentProtocols.Search

open Lib Json List
open AgentProtocols.A4P (isWhitespace trim)

inductive SearchMode where
  | getAll
  | getImportant
  | getOne
deriving DecidableEq

structure SearchResult where
  id : String
  name : String
  description : String
deriving DecidableEq

/-- What a navigation returns, with the categories that it has entered. -/
structure Navigation where
  visited : List String
  terminals : List TerminalNode

/-- The model in a pass, by the way to the prompt, and the order of parallel calls. -/
structure LlmPass where
  categories : List Nat → String
  services : List String → String
  navigated : List Nat → (results : List Navigation) → { done : List Navigation // done.Perm results }
  selected : (results : List (List SearchResult)) → { done : List (List SearchResult) // done.Perm results }

/-- `A2xSearch`; `to_uppercase` is a parameter. -/
structure A2xSearch where
  cats : Categories
  root : String
  services : OrderedMap String ServiceRecord
  parallel : Bool
  toUppercase : String → String

/-! ### Answers -/

/-- A part of an answer that is the number of one of the candidates. -/
def selectionIndex (maxIndex : Nat) (part : List Char) : Option Nat :=
  (parseI64 part).bind fun num =>
    if 1 ≤ num ∧ num.toNat ≤ maxIndex then some (num.toNat - 1) else none

def namedIndices (maxIndex : Nat) (text : String) : List Nat :=
  (((text.toList.map fun c => if c = ',' then ' ' else c).splitOnP isWhitespace).filter
    fun part => !part.isEmpty).filterMap (selectionIndex maxIndex)

def parseSelection (toUppercase : String → String) (response : String) (maxIndex : Nat)
    (mode : SearchMode) : List Nat :=
  let response := toUppercase (trim response)
  if response = "NONE" ∨ response = "" then []
  else if mode = .getOne then (namedIndices maxIndex response).take 1
  else namedIndices maxIndex response

theorem lt_of_mem_namedIndices {maxIndex : Nat} {text : String} {i : Nat}
    (mem : i ∈ namedIndices maxIndex text) : i < maxIndex := by
  obtain ⟨part, -, found⟩ := mem_filterMap.mp mem
  obtain ⟨num, -, inRange⟩ := Option.bind_eq_some_iff.mp found
  split at inRange
  · cases inRange
    omega
  · cases inRange

section Selection

variable {toUppercase : String → String} {response : String} {maxIndex : Nat} {mode : SearchMode}

theorem lt_of_mem_parseSelection {i : Nat} (mem : i ∈ parseSelection toUppercase response maxIndex mode) :
    i < maxIndex := by
  rw [parseSelection] at mem
  split at mem
  · cases mem
  · split at mem
    · exact lt_of_mem_namedIndices (mem_of_mem_take mem)
    · exact lt_of_mem_namedIndices mem

theorem length_parseSelection_getOne :
    (parseSelection toUppercase response maxIndex .getOne).length ≤ 1 := by
  rw [parseSelection]
  split
  · exact Nat.zero_le 1
  · rw [if_pos rfl, length_take]
    exact Nat.min_le_left _ _

end Selection

namespace A2xSearch

variable (search : A2xSearch) (llm : LlmPass) (mode : SearchMode)

/-! ### Navigation -/

/-- `select_categories`: the children that are answered, in their own order. -/
def selectCategories (trail : List Nat) (childIds : List String) : List String :=
  let selected := parseSelection search.toUppercase (llm.categories trail) childIds.length mode
  (childIds.zipIdx.filter fun e => decide (e.2 ∈ selected)).map Prod.fst

def direct (categoryId : String) : List TerminalNode :=
  if (search.cats.servicesOf categoryId).isEmpty then []
  else [⟨categoryId, search.cats.servicesOf categoryId⟩]

/-- `navigate`, with `navigate_children`, along a trail of selected children. -/
def navigate : Nat → List Nat → String → Option Navigation
  | 0, _, _ => none
  | fuel + 1, trail, categoryId =>
    let children := search.cats.childrenOf categoryId
    if children.isEmpty then some ⟨[categoryId], search.direct categoryId⟩
    else
      let selected := search.selectCategories llm mode trail children
      (selected.zipIdx.mapM fun e => navigate fuel (trail ++ [e.2]) e.1).map fun results =>
        let done := if search.parallel && decide (1 < selected.length) then (llm.navigated trail results).1
          else results
        ⟨categoryId :: done.flatMap Navigation.visited,
          done.flatMap Navigation.terminals ++ search.direct categoryId⟩

/-! ### Selection -/

def selectForGroup (group : ServiceGroup) : List SearchResult :=
  if group.serviceIds.isEmpty then []
  else
    (parseSelection search.toUppercase (llm.services group.serviceIds) group.serviceIds.length mode).filterMap
      fun idx => group.serviceIds[idx]?.map fun sid =>
        match search.services.get? sid with
        | some svc => ⟨sid, svc.name, svc.descriptionText⟩
        | none => ⟨sid, sid, ""⟩

def selectServices (groups : List ServiceGroup) : List SearchResult :=
  let results := groups.map (search.selectForGroup llm mode)
  (if search.parallel && decide (1 < groups.length) then (llm.selected results).1 else results).flatten

end A2xSearch

/-! ### A search -/

/-- A pass of the search: what it has visited, the groups and the results. -/
structure Pass where
  visited : List String
  groups : List ServiceGroup
  results : List SearchResult

/-- The candidates of the prompts for services; there is none for an empty group. -/
def Pass.prompts (pass : Pass) : List (List String) :=
  (pass.groups.map ServiceGroup.serviceIds).filter fun ids => !ids.isEmpty

/-- What a search returns, with the pass and the one that it has fallen back to. -/
structure SearchRun where
  first : Pass
  fallback : Option Pass
  results : List SearchResult

namespace A2xSearch

variable (search : A2xSearch) (llm : LlmPass) (mode : SearchMode)

/-- `search_internal` without the fallback. -/
def searchPass (fuel : Nat) : Option Pass :=
  (search.navigate llm mode fuel [] search.root).bind fun nav =>
    (mergeSmallGroups (TreeIndex.new search.cats) fuel (deduplicate nav.terminals)).map fun groups =>
      ⟨nav.visited, groups, (keepNew SearchResult.id [] (search.selectServices llm mode groups)).1⟩

/-- `search_internal`, with the model in the fallback. -/
def run (again : LlmPass) (fuel : Nat) : Option SearchRun :=
  (search.searchPass llm mode fuel).bind fun first =>
    if mode = .getOne ∧ first.results.isEmpty = true then
      (search.searchPass again .getImportant fuel).map fun fallback =>
        ⟨first, some fallback, fallback.results.take 1⟩
    else some ⟨first, none, first.results⟩

end A2xSearch

/-! ### What a navigation finds -/

namespace A2xSearch

variable {search : A2xSearch} {llm : LlmPass} {mode : SearchMode}

theorem selectCategories_subset (trail : List Nat) (childIds : List String) :
    search.selectCategories llm mode trail childIds ⊆ childIds := by
  intro c mem
  obtain ⟨e, kept, rfl⟩ := mem_map.mp mem
  exact fst_mem_of_mem_zipIdx (mem_filter.mp kept).1

variable {categoryId : String}

theorem mem_direct {t : TerminalNode} : t ∈ search.direct categoryId ↔
    t.categoryId = categoryId ∧ t.serviceIds = search.cats.servicesOf t.categoryId ∧ t.serviceIds ≠ [] := by
  rw [direct]
  split
  · rename_i empty
    refine ⟨fun mem => absurd mem not_mem_nil, ?_⟩
    rintro ⟨rfl, same, some_service⟩
    exact absurd (same.trans (isEmpty_iff.mp empty)) some_service
  · rename_i some_service
    rw [mem_singleton]
    constructor
    · rintro rfl
      exact ⟨rfl, rfl, fun empty => some_service (isEmpty_iff.mpr empty)⟩
    · rintro ⟨rfl, same, -⟩
      rw [← same]

/-- A navigation visits categories below its own, and ends in those that have services. -/
structure Navigated (search : A2xSearch) (categoryId : String) (nav : Navigation) : Prop where
  below : ∀ c ∈ nav.visited, Relation.ReflTransGen (IsChild search.cats.childrenOf) categoryId c
  terminals : ∀ t, t ∈ nav.terminals ↔ t.categoryId ∈ nav.visited ∧
    t.serviceIds = search.cats.servicesOf t.categoryId ∧ t.serviceIds ≠ []

theorem navigated {fuel : Nat} {trail : List Nat} {nav : Navigation}
    (done : search.navigate llm mode fuel trail categoryId = some nav) :
    Navigated search categoryId nav := by
  induction fuel generalizing trail categoryId nav with
  | zero => cases done
  | succ fuel ih =>
    rw [navigate] at done
    split at done
    · cases done
      refine ⟨?_, fun t => ?_⟩
      · intro c mem
        rw [mem_singleton.mp mem]
      · rw [mem_direct, mem_singleton]
    · obtain ⟨results, walked, rfl⟩ := Option.map_eq_some_iff.mp done
      generalize ordered : (if search.parallel && _ then _ else results) = order
      have perm : order.Perm results := by
        rw [← ordered]
        split
        · exact (llm.navigated trail results).2
        · exact .refl _
      have each : ∀ sub ∈ order, ∃ child, IsChild search.cats.childrenOf categoryId child ∧
          Navigated search child sub := by
        intro sub mem
        obtain ⟨e, chosen, walk⟩ := exists_of_mapM walked (perm.mem_iff.mp mem)
        exact ⟨e.1, selectCategories_subset _ _ (fst_mem_of_mem_zipIdx chosen), ih walk⟩
      refine ⟨?_, fun t => ?_⟩
      · intro c mem
        rcases mem_cons.mp mem with rfl | mem
        · exact .refl
        · obtain ⟨sub, inside, there⟩ := mem_flatMap.mp mem
          obtain ⟨child, edge, walk⟩ := each sub inside
          exact .head edge (walk.below c there)
      · rw [mem_append, mem_direct, mem_flatMap, mem_cons, mem_flatMap, or_and_right,
          or_comm]
        refine or_congr_right ⟨?_, ?_⟩
        · rintro ⟨sub, inside, there⟩
          obtain ⟨child, -, walk⟩ := each sub inside
          obtain ⟨visited, rest⟩ := (walk.terminals t).mp there
          exact ⟨⟨sub, inside, visited⟩, rest⟩
        · rintro ⟨⟨sub, inside, visited⟩, rest⟩
          obtain ⟨child, -, walk⟩ := each sub inside
          exact ⟨sub, inside, (walk.terminals t).mpr ⟨visited, rest⟩⟩

theorem navigate_mono {m n : Nat} (le : m ≤ n) {trail : List Nat} {nav : Navigation}
    (done : search.navigate llm mode m trail categoryId = some nav) :
    search.navigate llm mode n trail categoryId = some nav := by
  induction m generalizing n trail categoryId nav with
  | zero => cases done
  | succ m ih =>
    obtain ⟨n, rfl⟩ : ∃ k, n = k + 1 := ⟨n - 1, by omega⟩
    rw [navigate] at done ⊢
    split at done
    · rename_i leaf
      rw [if_pos leaf]
      exact done
    · rename_i inner
      obtain ⟨results, walked, same⟩ := Option.map_eq_some_iff.mp done
      rw [if_neg inner]
      dsimp only
      rw [mapM_mono (fun e sub walk => ih (Nat.le_of_succ_le_succ le) walk) walked]
      exact congrArg some same

theorem navigate_ends (acc : Acc (fun b a => IsChild search.cats.childrenOf a b) categoryId) :
    ∃ fuel, ∀ trail, ∃ nav, search.navigate llm mode fuel trail categoryId = some nav := by
  induction acc with
  | intro categoryId _ ih =>
    have bound : ∀ l, l ⊆ search.cats.childrenOf categoryId →
        ∃ fuel, ∀ c ∈ l, ∀ trail, ∃ nav, search.navigate llm mode fuel trail c = some nav := by
      intro l sub
      induction l with
      | nil => exact ⟨0, fun c mem => absurd mem not_mem_nil⟩
      | cons c l ihl =>
        obtain ⟨m, first⟩ := ih c (sub mem_cons_self)
        obtain ⟨n, rest⟩ := ihl fun d mem => sub (mem_cons_of_mem _ mem)
        refine ⟨max m n, fun d mem trail => ?_⟩
        rcases mem_cons.mp mem with rfl | later
        · obtain ⟨nav, done⟩ := first trail
          exact ⟨nav, navigate_mono (Nat.le_max_left m n) done⟩
        · obtain ⟨nav, done⟩ := rest d later trail
          exact ⟨nav, navigate_mono (Nat.le_max_right m n) done⟩
    obtain ⟨fuel, ends⟩ := bound _ fun _ mem => mem
    refine ⟨fuel + 1, fun trail => ?_⟩
    rw [navigate]
    dsimp only
    split
    · exact ⟨_, rfl⟩
    · obtain ⟨results, walked⟩ := mapM_succeeds (l := (search.selectCategories llm mode trail
          (search.cats.childrenOf categoryId)).zipIdx)
        (f := fun e => search.navigate llm mode fuel (trail ++ [e.2]) e.1) fun e mem =>
          ends e.1 (selectCategories_subset _ _ (fst_mem_of_mem_zipIdx mem)) _
      rw [walked]
      exact ⟨_, rfl⟩

/-! ### What is selected -/

theorem id_of_selectForGroup {group : ServiceGroup} {r : SearchResult}
    (mem : r ∈ search.selectForGroup llm mode group) : r.id ∈ group.serviceIds := by
  rw [selectForGroup] at mem
  split at mem
  · cases mem
  · obtain ⟨idx, -, found⟩ := mem_filterMap.mp mem
    obtain ⟨sid, there, rfl⟩ := Option.map_eq_some_iff.mp found
    have inside := mem_of_getElem? there
    split
    · exact inside
    · exact inside

/-- The numbers of the candidates that are answered. -/
def answered (search : A2xSearch) (llm : LlmPass) (mode : SearchMode) (ids : List String) : List Nat :=
  parseSelection search.toUppercase (llm.services ids) ids.length mode

theorem length_selectForGroup (group : ServiceGroup) :
    (search.selectForGroup llm mode group).length = (search.answered llm mode group.serviceIds).length := by
  rw [selectForGroup]
  split
  · rename_i empty
    cases numbers : search.answered llm mode group.serviceIds with
    | nil => rfl
    | cons i rest =>
      have here : i ∈ search.answered llm mode group.serviceIds := numbers ▸ mem_cons_self
      have below := lt_of_mem_parseSelection here
      rw [isEmpty_iff.mp empty] at below
      exact absurd below (Nat.not_lt_zero i)
  · rw [answered]
    have inRange : ∀ i ∈ parseSelection search.toUppercase (llm.services group.serviceIds)
        group.serviceIds.length mode, i < group.serviceIds.length :=
      fun i mem => lt_of_mem_parseSelection mem
    generalize parseSelection _ _ _ _ = numbers at inRange ⊢
    induction numbers with
    | nil => rfl
    | cons i numbers ih =>
      rw [filterMap_cons, getElem?_eq_getElem (inRange i mem_cons_self), Option.map_some,
        length_cons, length_cons, ih fun j mem => inRange j (mem_cons_of_mem _ mem)]

theorem perm_selectServices (groups : List ServiceGroup) :
    (search.selectServices llm mode groups).Perm (groups.flatMap (search.selectForGroup llm mode)) := by
  rw [selectServices]
  split
  · exact (llm.selected _).2.flatten
  · exact .refl _

theorem flatten_prompts (pass : Pass) :
    pass.prompts.flatten = pass.groups.flatMap ServiceGroup.serviceIds := by
  rw [Pass.prompts, flatten_filter_not_isEmpty, flatMap_def]

end A2xSearch

/-- Candidates come once, and results are distinct candidates. -/
structure Pass.Exact (search : A2xSearch) (pass : Pass) : Prop where
  offered : ∀ c ∈ pass.visited, ∀ sid ∈ search.cats.servicesOf c, pass.prompts.flatten.count sid = 1
  candidates : ∀ sid ∈ pass.prompts.flatten, ∃ c ∈ pass.visited, sid ∈ search.cats.servicesOf c
  distinct : (pass.results.map SearchResult.id).Nodup
  selected : ∀ r ∈ pass.results, r.id ∈ pass.prompts.flatten

namespace A2xSearch

variable {search : A2xSearch} {llm : LlmPass} {mode : SearchMode}

/-- A pass over a tree ends, and is exact. -/
theorem searchPass_spec (tree : TreeBelow search.cats.childrenOf search.root) (llm : LlmPass)
    (mode : SearchMode) :
    ∃ fuel pass, (∀ more, fuel ≤ more → search.searchPass llm mode more = some pass) ∧
      pass.Exact search ∧ (pass.prompts.flatten).Nodup ∧
      pass.results = (keepNew SearchResult.id [] (search.selectServices llm mode pass.groups)).1 := by
  obtain ⟨m, walks⟩ := @navigate_ends _ llm mode _
    (tree.acc_down (fun _ => Categories.mem_keys_of_childrenOf) .refl)
  obtain ⟨nav, walked⟩ := walks []
  have found := navigated walked
  have rooted : Rooted (TreeIndex.new search.cats) search.root (deduplicate nav.terminals) := by
    intro n mem
    obtain ⟨t, there, same⟩ := category_of_deduplicateFrom mem
    rw [← same]
    exact Categories.ancestors_of_treeBelow tree (found.below _ ((found.terminals t).mp there).1)
  obtain ⟨n, groups, merged, grouped⟩ := mergeSmallGroups_spec rooted
  have nodup := grouped.nodup nodup_deduplicate
  have candidates : ∀ sid, sid ∈ groups.flatMap ServiceGroup.serviceIds ↔
      ∃ c ∈ nav.visited, sid ∈ search.cats.servicesOf c := by
    intro sid
    rw [grouped.mem_services, ← mem_flatMap, mem_services_of_deduplicate]
    constructor
    · rintro ⟨t, there, inside⟩
      obtain ⟨visited, same, -⟩ := (found.terminals t).mp there
      exact ⟨t.categoryId, visited, same ▸ inside⟩
    · rintro ⟨c, visited, inside⟩
      exact ⟨⟨c, search.cats.servicesOf c⟩, (found.terminals _).mpr
        ⟨visited, rfl, ne_nil_of_mem inside⟩, inside⟩
  refine ⟨max m n, ⟨nav.visited, groups,
    (keepNew SearchResult.id [] (search.selectServices llm mode groups)).1⟩, fun more enough => ?_,
    ⟨?_, ?_, ?_, ?_⟩, ?_, rfl⟩
  · rw [searchPass, navigate_mono (le_of_max_le_left enough) walked, Option.bind_some,
      merged more (le_of_max_le_right enough)]
    rfl
  · intro c visited sid inside
    rw [flatten_prompts]
    exact count_eq_one_of_mem nodup ((candidates sid).mpr ⟨c, visited, inside⟩)
  · intro sid mem
    rw [flatten_prompts] at mem
    exact (candidates sid).mp mem
  · exact (nodup_keepNew _ _ _).1
  · intro r mem
    rw [flatten_prompts]
    obtain ⟨group, inside, chosen⟩ := mem_flatMap.mp
      ((perm_selectServices groups).mem_iff.mp (keepNew_subset mem))
    exact mem_flatMap.mpr ⟨group, inside, id_of_selectForGroup chosen⟩
  · rw [flatten_prompts]
    exact nodup

theorem nodup_results_getOne {groups : List ServiceGroup}
    (nodup : (groups.flatMap ServiceGroup.serviceIds).Nodup) :
    ((search.selectServices llm .getOne groups).map SearchResult.id).Nodup := by
  rw [((perm_selectServices groups).map _).nodup_iff, map_flatMap, nodup_flatMap]
  obtain ⟨-, apart⟩ := nodup_flatMap.mp nodup
  constructor
  · intro group _
    have few : (search.selectForGroup llm .getOne group).length ≤ 1 :=
      (length_selectForGroup group).trans_le length_parseSelection_getOne
    match results : search.selectForGroup llm .getOne group with
    | [] => exact nodup_nil
    | [r] => exact nodup_singleton _
    | r :: r' :: rest =>
      rw [results] at few
      exact absurd few (by simp)
  · refine apart.imp fun {g h} disjoint sid here there => ?_
    obtain ⟨r, inG, rfl⟩ := mem_map.mp here
    obtain ⟨r', inH, same⟩ := mem_map.mp there
    exact disjoint (id_of_selectForGroup inG) (same ▸ id_of_selectForGroup inH)

/-- In `get_one` there are as many results as prompts that are answered with a number. -/
theorem length_results_getOne {pass : Pass} (nodup : pass.prompts.flatten.Nodup)
    (results : pass.results = (keepNew SearchResult.id [] (search.selectServices llm .getOne pass.groups)).1) :
    pass.results.length =
      (pass.prompts.filter fun ids => !(search.answered llm .getOne ids).isEmpty).length := by
  rw [flatten_prompts] at nodup
  rw [results, keepNew_of_nodup (nodup_results_getOne nodup) fun _ _ => not_mem_nil,
    (perm_selectServices pass.groups).length_eq, length_flatMap, Pass.prompts, filter_filter]
  generalize pass.groups = groups
  induction groups with
  | nil => rfl
  | cons group groups ih =>
    rw [map_cons, sum_cons, ih, map_cons, length_selectForGroup]
    have few : (search.answered llm .getOne group.serviceIds).length ≤ 1 := length_parseSelection_getOne
    cases numbers : search.answered llm .getOne group.serviceIds with
    | nil =>
      rw [filter_cons_of_neg (by simp [numbers]), length_nil, Nat.zero_add]
    | cons i rest =>
      have here : i ∈ search.answered llm .getOne group.serviceIds := numbers ▸ mem_cons_self
      have some_id : group.serviceIds ≠ [] := by
        intro empty
        have below := lt_of_mem_parseSelection here
        rw [empty] at below
        exact Nat.not_lt_zero i below
      have only : rest = [] := by
        rw [numbers, length_cons] at few
        exact eq_nil_of_length_eq_zero (by omega)
      have taken : (!(search.answered llm .getOne group.serviceIds).isEmpty &&
          !group.serviceIds.isEmpty) = true := by
        rw [numbers]
        simpa using some_id
      rw [filter_cons, if_pos taken, only, length_cons, length_nil, length_cons]
      omega

/-- Candidates are offered once, results are distinct, and `get_one` gives at most one. -/
structure Faithful (search : A2xSearch) (mode : SearchMode) (s : SearchRun) : Prop where
  first : s.first.Exact search
  fallback : ∀ pass ∈ s.fallback, pass.Exact search
  distinct : (s.results.map SearchResult.id).Nodup
  listed : ∀ r ∈ s.results, (∃ c ∈ s.first.visited, r.id ∈ search.cats.servicesOf c) ∨
    ∃ pass ∈ s.fallback, ∃ c ∈ pass.visited, r.id ∈ search.cats.servicesOf c
  single : mode = .getOne → s.results.length ≤ 1

/-- In `get_one` at most one of the prompts is answered with the number of a candidate. -/
def AnsweredOnce (search : A2xSearch) (llm : LlmPass) (mode : SearchMode) (prompts : List (List String)) :
    Prop :=
  mode = .getOne → (prompts.filter fun ids => !(search.answered llm .getOne ids).isEmpty).length ≤ 1

theorem listed_of_exact {pass : Pass} (exact_ : pass.Exact search) {r : SearchResult}
    (mem : r ∈ pass.results) : ∃ c ∈ pass.visited, r.id ∈ search.cats.servicesOf c :=
  exact_.candidates _ (exact_.selected r mem)

/-- A search of a tree ends, and is as promised exactly if `get_one` is answered once. -/
theorem run_faithful_iff (tree : TreeBelow search.cats.childrenOf search.root) (llm again : LlmPass)
    (mode : SearchMode) :
    ∃ fuel s, (∀ more, fuel ≤ more → search.run llm mode again more = some s) ∧
      (Faithful search mode s ↔ AnsweredOnce search llm mode s.first.prompts) := by
  obtain ⟨m, first, passed, exact_, nodup, results⟩ := searchPass_spec tree llm mode
  by_cases empty : mode = .getOne ∧ first.results.isEmpty = true
  · obtain ⟨n, second, passed', exact', -, -⟩ := searchPass_spec tree again .getImportant
    obtain ⟨rfl, none_⟩ := empty
    refine ⟨max m n, ⟨first, some second, second.results.take 1⟩, fun more enough => ?_, ?_⟩
    · rw [run, passed more (le_of_max_le_left enough), Option.bind_some, if_pos ⟨rfl, none_⟩,
        passed' more (le_of_max_le_right enough)]
      rfl
    have one : (second.results.take 1).length ≤ 1 := by
      rw [List.length_take]
      exact Nat.min_le_left _ _
    refine iff_of_true ⟨exact_, ?_, ?_, ?_, fun _ => one⟩ ?_
    · intro pass mem
      cases mem
      exact exact'
    · exact exact'.distinct.sublist ((List.take_sublist 1 _).map _)
    · intro r mem
      exact .inr ⟨second, rfl, listed_of_exact exact' (List.mem_of_mem_take mem)⟩
    · intro _
      have count := length_results_getOne nodup results
      rw [List.isEmpty_iff.mp none_] at count
      exact count.ge.trans (Nat.zero_le 1)
  · refine ⟨m, ⟨first, none, first.results⟩, fun more enough => ?_, ?_⟩
    · rw [run, passed more enough, Option.bind_some, if_neg empty]
    constructor
    · intro faithful
      rintro rfl
      rw [← length_results_getOne nodup results]
      exact faithful.single rfl
    · intro once
      refine ⟨exact_, ?_, exact_.distinct, ?_, ?_⟩
      · rintro pass ⟨⟩
      · intro r mem
        exact .inl (listed_of_exact exact_ mem)
      · rintro rfl
        exact (length_results_getOne nodup results).trans_le (once rfl)

end A2xSearch

namespace Sample

/-- The root and its child have a large group of services each. -/
def largeLevels : Categories :=
  OrderedMap.empty.insertAll [(rootId, ⟨["a"], idsFrom 40⟩), ("a", ⟨[], idsFrom 80⟩)]

def treeSearch : A2xSearch := ⟨largeLevels, rootId, .empty, false, fun s => String.ofList (s.toList.map Char.toUpper)⟩

/-- A model that answers every prompt with the same number. -/
def always (answer : String) : LlmPass where
  categories _ := "1"
  services _ := answer
  navigated _ results := ⟨results, .refl _⟩
  selected results := ⟨results, .refl _⟩

theorem treeBelow_largeLevels : TreeBelow largeLevels.childrenOf rootId := by
  have edge : ∀ a b, IsChild largeLevels.childrenOf a b → a = rootId ∧ b = "a" := by
    intro a b child
    have known := Categories.mem_keys_of_childrenOf (ne_nil_of_mem child)
    rcases mem_pair.mp known with rfl | rfl
    · exact ⟨rfl, mem_singleton.mp child⟩
    · cases child
  constructor
  · intro a child
    exact absurd (edge a rootId child).2 (by decide)
  · intro a b c _ childA childB
    rw [(edge a c childA).1, (edge b c childB).1]

/-- In `get_one` two results are returned, of two large groups. -/
theorem two_results : ∃ s, treeSearch.run (always "1") .getOne (always "1") 4 = some s ∧
    ¬ A2xSearch.Faithful treeSearch .getOne s := by
  have two : (treeSearch.run (always "1") .getOne (always "1") 4).map (fun s => s.results.length) =
      some 2 := by decide +kernel
  obtain ⟨s, done, length⟩ := Option.map_eq_some_iff.mp two
  refine ⟨s, done, fun faithful => ?_⟩
  have single := faithful.single rfl
  omega

/-- Without a number there is a fallback, which has one result. -/
theorem one_result : ∃ fuel s, treeSearch.run (always "NONE") .getOne (always "1") fuel = some s ∧
    A2xSearch.Faithful treeSearch .getOne s := by
  obtain ⟨fuel, s, done, faithful⟩ := @A2xSearch.run_faithful_iff treeSearch
    treeBelow_largeLevels (always "NONE") (always "1") .getOne
  refine ⟨fuel, s, done fuel (Nat.le_refl fuel), faithful.mpr fun _ => ?_⟩
  have none_ : ∀ ids : List String, A2xSearch.answered treeSearch (always "NONE") .getOne ids = [] := by
    intro ids
    have text : treeSearch.toUppercase (trim "NONE") = "NONE" := by decide
    rw [A2xSearch.answered, parseSelection]
    exact if_pos (.inl text)
  rw [List.filter_eq_nil_iff.mpr fun ids _ => by rw [none_ ids]; decide]
  exact Nat.zero_le 1

end Sample

end AgentProtocols.Search
