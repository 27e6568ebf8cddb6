import AgentProtocols.Search.NodeSplitter

/-!
What a split does with the services of a category.

* `exists_lastRound`, `classifyRefineLoop_of_lastRound` — the loop ends with its last round.
* `servicesOf_child`, `servicesOf_node` — the lists after a split, from the answers.
* `divided_iff_careful` — the services are divided exactly if no answer repeats a child and
  no child has the id of the category.
-/

namespace AgentProtocols.Search

open Lib List

/-! ### The last round -/

section Rounds

variable (model : SplitterModel) (config : SplitterConfig) (services : List ServiceRecord)
  (designed : Subcategories)

def roundDesign : Nat → Subcategories
  | 0 => designed
  | n + 1 => model.refine (n + 1) (roundDesign n) (classifyAll model config (n + 1) services (roundDesign n))

/-- The loop ends with this round if it comes to it. -/
def Settled (n : Nat) : Prop :=
  shouldTerminate
    (computeStats config
      (classifyAll model config (n + 1) services (roundDesign model config services designed n))
      (roundDesign model config services designed n))
    (n + 1) config.maxRefineIterations = true

/-- The round that the loop ends with. -/
structure LastRound (n : Nat) : Prop where
  settled : Settled model config services designed n
  before : ∀ m < n, ¬ Settled model config services designed m

def answered (n : Nat) (s : ServiceRecord) : Assignment :=
  (classifySingle (model.reply (n + 1) s.id) (roundDesign model config services designed n).keys
      config.classificationRetries).kept
    (config.genericThreshold (roundDesign model config services designed n).keys.length)

/-- The subcategories that are large enough, by the answers of the round. -/
def Survives (n : Nat) (c : String) : Prop :=
  c ∈ (roundDesign model config services designed n).keys ∧
    config.deleteThreshold <
      (services.map fun s => (answered model config services designed n s).categoryIds.count c).sum

/-- No answer repeats a subcategory that survives, and none of these has the category's own id. -/
structure Careful (nodeId : String) (n : Nat) : Prop where
  fresh : ¬ Survives model config services designed n nodeId
  once : ∀ s ∈ services, ∀ c, Survives model config services designed n c →
    (answered model config services designed n s).categoryIds.count c ≤ 1

end Rounds

section Loop

variable {model : SplitterModel} {config : SplitterConfig} {services : List ServiceRecord}
  {designed : Subcategories} {n : Nat}

/-- With at least one iteration there is a last round. -/
theorem exists_lastRound (model : SplitterModel) (services : List ServiceRecord) (designed : Subcategories)
    (iterates : 1 ≤ config.maxRefineIterations) :
    ∃ n, LastRound model config services designed n := by
  have ends : ∃ n, Settled model config services designed n := by
    refine ⟨config.maxRefineIterations - 1, ?_⟩
    rw [Settled, shouldTerminate, Bool.or_eq_true_iff, decide_eq_true_eq]
    left
    omega
  classical
  exact ⟨Nat.find ends, Nat.find_spec ends, fun m earlier => Nat.find_min ends earlier⟩

/-- From a round that is not after the last one the loop comes to the last one. -/
theorem classifyRefineLoop_of_lastRound (last : LastRound model config services designed n) :
    ∀ {left m : Nat}, m ≤ n → left + m = config.maxRefineIterations → 1 ≤ config.maxRefineIterations →
      classifyRefineLoop model config services left (m + 1) (roundDesign model config services designed m) =
        (roundDesign model config services designed n,
          classifyAll model config (n + 1) services (roundDesign model config services designed n), n + 1) := by
  intro left
  induction left with
  | zero =>
    intro m reached total iterates
    -- the round before this one is at the limit, so the last one is not after it
    exfalso
    apply last.before (m - 1) (by omega)
    rw [Settled, shouldTerminate, Bool.or_eq_true_iff, decide_eq_true_eq]
    left
    omega
  | succ left ih =>
    intro m reached total iterates
    rw [classifyRefineLoop]
    split
    · rename_i here
      have same : m = n := by
        by_contra other
        exact last.before m (Nat.lt_of_le_of_ne reached other) here
      rw [same]
    · rename_i goes
      have other : m ≠ n := by
        rintro rfl
        exact goes last.settled
      exact @ih (m + 1) (Nat.lt_of_le_of_ne reached other) (by omega) iterates

end Loop

/-! ### The answers of a round -/

section Answers

variable {model : SplitterModel} {config : SplitterConfig} {services : List ServiceRecord}
  {subs : Subcategories} {k : Nat}

theorem perm_entries_classifyAll (model : SplitterModel) (config : SplitterConfig) (subs : Subcategories)
    (k : Nat) (nodup : (services.map (·.id)).Nodup) :
    (classifyAll model config k services subs).entries.Perm (services.map fun s =>
      (s.id, classifySingle (model.reply k s.id) subs.keys config.classificationRetries)) := by
  have order := (model.completed k services).2
  have ids : ((model.completed k services).1.map (·.id)).Nodup :=
    (order.map _).nodup_iff.mpr nodup
  rw [classifyAll, OrderedMap.entries_insertAll]
  · exact order.map _
  · rw [map_map]
    exact ids

theorem mem_of_classifySingle {replies : Nat → LlmReply} {validIds : List String} {retries : Nat}
    {c : String} (named : c ∈ (classifySingle replies validIds retries).categoryIds) : c ∈ validIds := by
  unfold classifySingle at named
  generalize found : findSome? _ _ = answer at named
  cases answer with
  | none =>
    cases named
  | some r =>
    obtain ⟨attempt, -, answer⟩ := exists_of_findSome?_eq_some found
    split at answer
    · cases answer
      exact of_decide_eq_true (mem_filter.mp named).2
    · cases answer

theorem mem_kept {r : Assignment} {threshold : Nat} {c : String}
    (named : c ∈ (r.kept threshold).categoryIds) : c ∈ r.categoryIds := by
  rw [Assignment.kept] at named
  split at named
  · cases named
  · exact named

theorem length_kept (r : Assignment) (threshold : Nat) :
    (r.kept threshold).categoryIds.length ≤ threshold := by
  rw [Assignment.kept]
  split
  · exact Nat.zero_le _
  · rename_i few
    exact Nat.le_of_not_lt few

end Answers

/-! ### The lists after a split -/

/-- The services with these ids are divided among the category and its new children. -/
structure Divided (cats cats' : Categories) (nodeId : String) (children : List String)
    (services : List ServiceRecord) (atMost more : Nat) : Prop where
  placed : ∀ s ∈ services,
    s.id ∈ cats'.servicesOf nodeId ∨ ∃ c ∈ children, s.id ∈ cats'.servicesOf c
  apart : ∀ s ∈ services, s.id ∈ cats'.servicesOf nodeId → ∀ c ∈ children, s.id ∉ cats'.servicesOf c
  few : ∀ s ∈ services, (children.filter fun c => s.id ∈ cats'.servicesOf c).length ≤ atMost
  once : ∀ s ∈ services, ∀ c ∈ children, (cats'.servicesOf c).count s.id ≤ 1
  large : ∀ c ∈ children, more < (cats'.servicesOf c).length
  others : ∀ id, id ≠ nodeId → id ∉ children → cats'.get? id = cats.get? id

section Lists

variable {cats : Categories} {nodeId c : String} {result : NodeSplitResult}

theorem servicesOf_child (child : c ∈ result.subIds) :
    (splitCategories cats nodeId result).servicesOf c = sortIds (result.subServices c) := by
  rw [Categories.servicesOf, get?_splitCategories, if_pos child]
  rfl

theorem servicesOf_node (fresh : nodeId ∉ result.subIds) :
    (splitCategories cats nodeId result).servicesOf nodeId = sortIds result.unclassifiedServiceIds := by
  rw [Categories.servicesOf, get?_splitCategories, if_neg fresh, if_pos rfl]
  rfl

theorem count_sortIds (id : String) (ids : List String) : (sortIds ids).count id = ids.count id :=
  (perm_insertionSort _ _).count_eq id

theorem length_sortIds (ids : List String) : (sortIds ids).length = ids.length :=
  (perm_insertionSort _ _).length_eq

theorem nodup_subIds : result.subIds.Nodup :=
  (perm_insertionSort _ _).nodup_iff.mpr result.subcategories.nodup

theorem length_subServices : (result.subServices c).length = mentions result.assignments c := by
  rw [NodeSplitResult.subServices, length_flatMap, mentions, OrderedMap.values, map_map]
  congr 1
  refine map_congr_left fun e _ => ?_
  rw [length_map, Function.comp_apply, count, countP_eq_length_filter]
  rfl

end Lists

/-! ### The result of a split -/

section Result

variable {model : SplitterModel} {config : SplitterConfig} {services : List ServiceRecord}
  {designed : Subcategories} {n : Nat} {c : String} {s : ServiceRecord} {result : NodeSplitResult}

def remaining (model : SplitterModel) (config : SplitterConfig) (services : List ServiceRecord)
    (designed : Subcategories) (n : Nat) (s : ServiceRecord) : Assignment :=
  (answered model config services designed n s).without
    (tinyOf config (classifyAll model config (n + 1) services (roundDesign model config services designed n))
      (roundDesign model config services designed n))

theorem perm_entries_marked (model : SplitterModel) (config : SplitterConfig) (designed : Subcategories)
    (n : Nat) (nodup : (services.map (·.id)).Nodup) :
    (marked config (classifyAll model config (n + 1) services (roundDesign model config services designed n))
      (roundDesign model config services designed n)).entries.Perm
    (services.map fun s => (s.id, answered model config services designed n s)) := by
  have mapped := (perm_entries_classifyAll model config (roundDesign model config services designed n)
    (n + 1) nodup).map fun e =>
      (e.1, e.2.kept (config.genericThreshold (roundDesign model config services designed n).keys.length))
  rw [map_map] at mapped
  exact mapped

theorem mentions_marked (nodup : (services.map (·.id)).Nodup) :
    mentions (marked config
        (classifyAll model config (n + 1) services (roundDesign model config services designed n))
        (roundDesign model config services designed n)) c =
      (services.map fun s => (answered model config services designed n s).categoryIds.count c).sum := by
  have counts := ((perm_entries_marked model config designed n nodup).map fun e => e.2.categoryIds.count c).sum_eq
  rw [map_map] at counts
  rw [mentions, OrderedMap.values, map_map]
  exact counts

theorem mem_keys_of_answered (named : c ∈ (answered model config services designed n s).categoryIds) :
    c ∈ (roundDesign model config services designed n).keys :=
  mem_of_classifySingle (mem_kept named)

variable (nodup : (services.map (·.id)).Nodup)

include nodup

theorem mem_remaining : c ∈ (remaining model config services designed n s).categoryIds ↔
      c ∈ (answered model config services designed n s).categoryIds ∧
        Survives model config services designed n c := by
  rw [remaining, mem_without, mem_tinyOf, mentions_marked nodup, not_and, Nat.not_le]
  constructor
  · rintro ⟨named, large⟩
    have there := mem_keys_of_answered named
    exact ⟨named, there, large there⟩
  · rintro ⟨named, -, large⟩
    exact ⟨named, fun _ => large⟩

theorem count_remaining (survives : Survives model config services designed n c) :
    (remaining model config services designed n s).categoryIds.count c =
      (answered model config services designed n s).categoryIds.count c := by
  have large : c ∉ tinyOf config
      (classifyAll model config (n + 1) services (roundDesign model config services designed n))
      (roundDesign model config services designed n) := by
    rw [mem_tinyOf, mentions_marked nodup, not_and, Nat.not_le]
    exact fun _ => survives.2
  exact count_filter (by simpa using large)

omit nodup

/-- What a split comes to, said of the answers in the last round. -/
structure SplitBy (model : SplitterModel) (config : SplitterConfig) (services : List ServiceRecord)
    (designed : Subcategories) (n : Nat) (result : NodeSplitResult) : Prop where
  assignments : result.assignments.entries.Perm
    (services.map fun s => (s.id, remaining model config services designed n s))
  children : ∀ c, c ∈ result.subIds ↔ Survives model config services designed n c
  unclassified : ∀ id, id ∈ result.unclassifiedServiceIds ↔
    ∃ s ∈ services, s.id = id ∧ (remaining model config services designed n s).categoryIds = []

theorem splitBy_of_lastRound (nodup : (services.map (·.id)).Nodup)
    (iterates : 1 ≤ config.maxRefineIterations) (design : model.design = .ok designed)
    (split : splitNode model config services = .ok result)
    (last : LastRound model config services designed n) :
    SplitBy model config services designed n result := by
  have loop := classifyRefineLoop_of_lastRound last (Nat.zero_le n) (Nat.add_zero _) iterates
  rw [splitNode, design] at split
  cases split
  rw [roundDesign] at loop
  dsimp only
  rw [loop]
  have assignments : (finalizeAssignments config
      (classifyAll model config (n + 1) services (roundDesign model config services designed n))
      (roundDesign model config services designed n)).1.entries.Perm
      (services.map fun s => (s.id, remaining model config services designed n s)) := by
    rw [assignments_of_finalize]
    have mapped := (perm_entries_marked model config designed n nodup).map fun e => (e.1, e.2.without (tinyOf config
        (classifyAll model config (n + 1) services (roundDesign model config services designed n))
        (roundDesign model config services designed n)))
    rw [map_map] at mapped
    exact mapped
  refine ⟨assignments, ?_, ?_⟩
  · intro c
    rw [NodeSplitResult.subIds, mem_sortIds, mem_keys_of_finalize, mentions_marked nodup]
    rfl
  · intro id
    rw [mem_unclassified_of_finalize]
    constructor
    · rintro ⟨e, mem, same, empty⟩
      obtain ⟨s, there, rfl⟩ := mem_map.mp (assignments.mem_iff.mp mem)
      exact ⟨s, there, same, empty⟩
    · rintro ⟨s, there, same, empty⟩
      exact ⟨_, assignments.mem_iff.mpr (mem_map.mpr ⟨s, there, rfl⟩), same, empty⟩

theorem sum_of_nodup {services : List ServiceRecord} {f : ServiceRecord → Nat}
    (nodup : (services.map (·.id)).Nodup) (mem : s ∈ services) :
    (services.map fun t => if t.id = s.id then f t else 0).sum = f s := by
  induction services with
  | nil => cases mem
  | cons t services ih =>
    rw [map_cons, nodup_cons] at nodup
    rw [map_cons, sum_cons]
    rcases mem_cons.mp mem with rfl | later
    · have others : (services.map fun t => if t.id = s.id then f t else 0).sum = 0 := by
        refine sum_eq_zero fun x there => ?_
        obtain ⟨t, inside, rfl⟩ := mem_map.mp there
        refine if_neg fun same => nodup.1 ?_
        rw [← same]
        exact mem_map_of_mem inside
      rw [if_pos rfl, others, Nat.add_zero]
    · have other : t.id ≠ s.id := by
        intro same
        rw [same] at nodup
        exact nodup.1 (mem_map_of_mem later)
      rw [if_neg other, Nat.zero_add, ih nodup.2 later]

theorem count_subServices (nodup : (services.map (·.id)).Nodup)
    (by_ : SplitBy model config services designed n result) (mem : s ∈ services) :
    (result.subServices c).count s.id =
      (remaining model config services designed n s).categoryIds.count c := by
  have counts : (result.subServices c).count s.id = (result.assignments.entries.map fun e =>
        if e.1 = s.id then e.2.categoryIds.count c else 0).sum := by
    rw [NodeSplitResult.subServices, count_flatMap]
    congr 1
    refine map_congr_left fun e _ => ?_
    rw [Function.comp_apply, map_const', count_replicate, count,
      countP_eq_length_filter]
    by_cases same : e.1 = s.id
    · rw [if_pos same, if_pos (beq_iff_eq.mpr same)]
      rfl
    · rw [if_neg same, if_neg fun equal => same (beq_iff_eq.mp equal)]
  have listed := (by_.assignments.map fun e => if e.1 = s.id then e.2.categoryIds.count c else 0).sum_eq
  rw [map_map] at listed
  rw [counts, listed]
  exact sum_of_nodup (f := fun t => (remaining model config services designed n t).categoryIds.count c)
    nodup mem

variable {cats : Categories} {nodeId : String}

include nodup

theorem mem_servicesOf_child (by_ : SplitBy model config services designed n result)
    (mem : s ∈ services) (child : c ∈ result.subIds) :
    s.id ∈ (splitCategories cats nodeId result).servicesOf c ↔
      c ∈ (remaining model config services designed n s).categoryIds := by
  rw [servicesOf_child child, mem_sortIds, ← count_pos_iff, count_subServices nodup by_ mem,
    count_pos_iff]

theorem mem_servicesOf_node (by_ : SplitBy model config services designed n result)
    (mem : s ∈ services) (fresh : nodeId ∉ result.subIds) :
    s.id ∈ (splitCategories cats nodeId result).servicesOf nodeId ↔
      (remaining model config services designed n s).categoryIds = [] := by
  rw [servicesOf_node fresh, mem_sortIds, by_.unclassified]
  constructor
  · rintro ⟨t, there, same, empty⟩
    rw [← inj_on_of_nodup_map nodup there mem same]
    exact empty
  · intro empty
    exact ⟨s, mem, rfl, empty⟩

theorem length_servicesOf_child (by_ : SplitBy model config services designed n result)
    (child : c ∈ result.subIds) : ((splitCategories cats nodeId result).servicesOf c).length =
      (services.map fun s => (answered model config services designed n s).categoryIds.count c).sum := by
  have counts := (by_.assignments.map fun e => e.2.categoryIds.count c).sum_eq
  rw [map_map] at counts
  rw [servicesOf_child child, length_sortIds, length_subServices, mentions, OrderedMap.values,
    map_map]
  refine counts.trans (congrArg sum (map_congr_left fun s _ => ?_))
  exact count_remaining nodup ((by_.children c).mp child)

omit nodup

end Result

/-! ### Division -/

section Division

variable {model : SplitterModel} {config : SplitterConfig} {services : List ServiceRecord}
  {designed : Subcategories} {n : Nat} {nodeId : String} {cats : Categories} {result : NodeSplitResult}

theorem divided_of_careful (nodup : (services.map (·.id)).Nodup)
    (by_ : SplitBy model config services designed n result)
    (careful : Careful model config services designed nodeId n) :
    Divided cats (splitCategories cats nodeId result) nodeId result.subIds services
      (config.genericThreshold (roundDesign model config services designed n).keys.length)
      config.deleteThreshold := by
  have fresh : nodeId ∉ result.subIds := fun child => careful.fresh ((by_.children _).mp child)
  refine ⟨?_, ?_, ?_, ?_, ?_, ?_⟩
  · intro s mem
    rw [mem_servicesOf_node nodup by_ mem fresh]
    cases named : (remaining model config services designed n s).categoryIds with
    | nil => exact .inl rfl
    | cons c rest =>
      have there : c ∈ (remaining model config services designed n s).categoryIds :=
        named ▸ mem_cons_self
      have child := (by_.children c).mpr ((mem_remaining nodup).mp there).2
      exact .inr ⟨c, child, (mem_servicesOf_child nodup by_ mem child).mpr there⟩
  · intro s mem atNode c child atChild
    rw [mem_servicesOf_node nodup by_ mem fresh] at atNode
    rw [mem_servicesOf_child nodup by_ mem child, atNode] at atChild
    cases atChild
  · intro s mem
    have within : (result.subIds.filter fun c =>
        s.id ∈ (splitCategories cats nodeId result).servicesOf c) ⊆
        (answered model config services designed n s).categoryIds := by
      intro c listed
      obtain ⟨child, there⟩ := mem_filter.mp listed
      rw [decide_eq_true_eq, mem_servicesOf_child nodup by_ mem child] at there
      exact ((mem_remaining nodup).mp there).1
    have distinct : (result.subIds.filter fun c =>
        s.id ∈ (splitCategories cats nodeId result).servicesOf c).Nodup := nodup_subIds.filter _
    exact (subperm_of_subset distinct within).length_le.trans (length_kept _ _)
  · intro s mem c child
    have survives := (by_.children c).mp child
    rw [servicesOf_child child, count_sortIds, count_subServices nodup by_ mem,
      count_remaining nodup survives]
    exact careful.once s mem c survives
  · intro c child
    rw [length_servicesOf_child nodup by_ child]
    exact ((by_.children c).mp child).2
  · intro id other notChild
    rw [get?_splitCategories, if_neg notChild, if_neg other]

theorem careful_of_divided (nodup : (services.map (·.id)).Nodup)
    (by_ : SplitBy model config services designed n result) {atMost more : Nat}
    (divided : Divided cats (splitCategories cats nodeId result) nodeId result.subIds services atMost more) :
    Careful model config services designed nodeId n := by
  constructor
  · -- the child under the category's id has a service, which is then in both
    intro survives
    have child := (by_.children nodeId).mpr survives
    have named : ∃ s ∈ services, nodeId ∈ (answered model config services designed n s).categoryIds := by
      by_contra none_
      push Not at none_
      have empty : (services.map fun s =>
          (answered model config services designed n s).categoryIds.count nodeId).sum = 0 := by
        refine sum_eq_zero fun x there => ?_
        obtain ⟨s, mem, rfl⟩ := mem_map.mp there
        exact count_eq_zero.mpr (none_ s mem)
      have large := survives.2
      rw [empty] at large
      exact Nat.not_lt_zero _ large
    obtain ⟨s, mem, there⟩ := named
    have listed : s.id ∈ (splitCategories cats nodeId result).servicesOf nodeId :=
      (mem_servicesOf_child nodup by_ mem child).mpr ((mem_remaining nodup).mpr ⟨there, survives⟩)
    exact divided.apart s mem listed nodeId child listed
  · intro s mem c survives
    have child := (by_.children c).mpr survives
    have once := divided.once s mem c child
    rw [servicesOf_child child, count_sortIds, count_subServices nodup by_ mem,
      count_remaining nodup survives] at once
    exact once

/-- A split divides the services exactly if no answer repeats a child and no child is the category.
-/
theorem divided_iff_careful (nodup : (services.map (·.id)).Nodup)
    (iterates : 1 ≤ config.maxRefineIterations) (design : model.design = .ok designed)
    (split : splitNode model config services = .ok result) (b : TaxonomyBuilder) :
    ∃ n, LastRound model config services designed n ∧
      (Divided b.taxonomy.categories (b.applySplitResult nodeId result).taxonomy.categories nodeId
          result.subIds services
          (config.genericThreshold (roundDesign model config services designed n).keys.length)
          config.deleteThreshold ↔
        Careful model config services designed nodeId n) := by
  obtain ⟨n, last⟩ := exists_lastRound model services designed iterates
  have by_ := splitBy_of_lastRound nodup iterates design split last
  exact ⟨n, last, careful_of_divided nodup by_, divided_of_careful nodup by_⟩

end Division

namespace Sample

def services : List ServiceRecord := [{ id := "s" }, { id := "t" }, { id := "u" }]

def designed : Subcategories := OrderedMap.empty.insertAll (["a", "b", "c", "d"].map fun c => (c, subcategory))

/-- Half of the subcategories are too many for a service, and one service too few for one. -/
def splitter : SplitterConfig := ⟨(· / 2), 1, 0, 1⟩

def answering (design : Subcategories) (ids : String → List String) : SplitterModel where
  design := .ok design
  refine _ subs _ := subs
  reply _ s _ := .text (some (.obj [("category_ids", .arr ((ids s).map Json.str))]))
  completed _ services := ⟨services, .refl _⟩

/-- The service `u` is left at the category, the others fit `a`. -/
def fitting (s : String) : List String := if s = "u" then [] else ["a"]

/-- One answer has `a` twice. -/
def repeating (s : String) : List String := if s = "s" then ["a", "a"] else fitting s

/-- A subcategory is called as the root is. -/
def overwriting (s : String) : List String := if s = "u" then [] else [rootId]

def designedRoot : Subcategories :=
  OrderedMap.empty.insertAll ([rootId, "b", "c", "d"].map fun c => (c, subcategory))

/-- The taxonomy of one category, before a split and after one of its root. -/
def before : Categories := OrderedMap.empty.insert rootId ⟨[], services.map (·.id)⟩

def after (design : Subcategories) (ids : String → List String) : NodeSplitResult × Categories :=
  let result := (splitNode (answering design ids) splitter services).toOption.getD ⟨.empty, .empty, []⟩
  (result, splitCategories before rootId result)

/-- A repeated id puts a service into the child twice, and the category's id loses one. -/
theorem split_not_divided :
    ¬ Divided before (after designed repeating).2 rootId (after designed repeating).1.subIds services 2 1 ∧
    ¬ Divided before (after designedRoot overwriting).2 rootId
      (after designedRoot overwriting).1.subIds services 2 1 := by
  constructor
  · intro divided
    have once := divided.once { id := "s" } (by decide) "a" (by decide)
    exact absurd once (by decide)
  · intro divided
    have children : (after designedRoot overwriting).1.subIds = [rootId] := by decide
    rcases divided.placed { id := "u" } (by decide) with atNode | ⟨c, child, atChild⟩
    · exact absurd atNode (by decide)
    · rw [children, List.mem_singleton] at child
      rw [child] at atChild
      exact absurd atChild (by decide)

/-- Two services go to the child, one stays. -/
theorem split_divided : Divided before (after designed fitting).2 rootId ["a"] services 2 1 := by
  obtain ⟨n, last, divided⟩ := @divided_iff_careful (answering designed fitting) splitter services designed
    rootId _ (by decide) (by decide) rfl rfl { TaxonomyBuilder.new with taxonomy := ⟨before, none⟩ }
  have zero : n = 0 := by
    by_contra later
    exact last.before 0 (Nat.pos_of_ne_zero later) rfl
  subst zero
  have careful : Careful (answering designed fitting) splitter services designed rootId 0 := by
    constructor
    · intro survives
      exact absurd survives.1 (by decide)
    · intro s mem c survives
      have few : ∀ s ∈ services, ∀ c ∈ designed.keys,
          (answered (answering designed fitting) splitter services designed 0 s).categoryIds.count c ≤ 1 := by
        decide
      exact few s mem c survives.1
  exact divided.mpr careful

end Sample

end AgentProtocols.Search
