import AgentProtocols.Json.Value
import AgentProtocols.Search.TaxonomyBuilder

/-!
How the services of a category are divided among its new children. The answers of the language model
are taken as lists, and the ids of the subcategories as it gives them.
-/

namespace AgentProtocols.Search

open Lib OrderedMap List

abbrev Subcategories := OrderedMap String SubcategoryDef

/-- What a split reads of its configuration. -/
structure SplitterConfig where
  genericCount : Nat → Nat
  deleteThreshold : Nat
  classificationRetries : Nat
  maxRefineIterations : Nat

def SplitterConfig.genericThreshold (config : SplitterConfig) (subcats : Nat) : Nat :=
  max (config.genericCount subcats) 1

/-- An answer of the model: the call fails, or a text, with what `parse_json_response` finds in
it. -/
inductive LlmReply where
  | failed
  | text (parsed : Option Json)

/-- What the model does in a split, and in which order its answers are complete. -/
structure SplitterModel where
  design : Except String Subcategories
  refine : Nat → Subcategories → Assignments → Subcategories
  reply : Nat → String → Nat → LlmReply
  completed : Nat → (services : List ServiceRecord) → { done : List ServiceRecord // done.Perm services }

/-! ### Classification -/

def namedIds (result : Json) : List String :=
  match result.asObject.bind fun fields => fields.get "category_ids" with
  | some (.str s) => [s]
  | some (.arr items) => items.filterMap Json.asStr
  | _ => []

/-- `classify_single`: the first answer that is JSON counts, with the ids that are there. -/
def classifySingle (replies : Nat → LlmReply) (validIds : List String) (retries : Nat) : Assignment :=
  ((List.range (retries + 1)).findSome? fun attempt =>
    match replies attempt with
    | .text (some result) =>
      some ⟨(namedIds result).filter (· ∈ validIds),
        ((result.asObject.bind fun fields => fields.get "reasoning").bind Json.asStr).getD ""⟩
    | _ => none).getD ⟨[], ""⟩

def classifyAll (model : SplitterModel) (config : SplitterConfig) (iteration : Nat)
    (services : List ServiceRecord) (subs : Subcategories) : Assignments :=
  OrderedMap.empty.insertAll ((model.completed iteration services).1.map fun s =>
    (s.id, classifySingle (model.reply iteration s.id) subs.keys config.classificationRetries))

structure ClassificationStats where
  nNormal : Nat
  nGeneric : Nat
  nUnclassified : Nat
  catCounts : List (String × Nat)

/-- How often assignments name a category. -/
def mentions (assignments : Assignments) (catId : String) : Nat :=
  (assignments.values.map fun r => r.categoryIds.count catId).sum

def computeStats (config : SplitterConfig) (assignments : Assignments) (subs : Subcategories) :
    ClassificationStats :=
  let threshold := config.genericThreshold subs.keys.length
  let number (p : Nat → Bool) := (assignments.values.filter fun r => p r.categoryIds.length).length
  { nNormal := number fun n => n != 0 && decide (n ≤ threshold)
    nGeneric := number fun n => n != 0 && decide (threshold < n)
    nUnclassified := number (· == 0)
    catCounts := subs.keys.map fun catId => (catId, mentions assignments catId) }

def shouldTerminate (stats : ClassificationStats) (iteration maxRefine : Nat) : Bool :=
  decide (maxRefine ≤ iteration) || (stats.nGeneric == 0 && stats.nUnclassified == 0)

/-- `classify_refine_loop` from an iteration on, with as many more as are left. -/
def classifyRefineLoop (model : SplitterModel) (config : SplitterConfig) (services : List ServiceRecord) :
    Nat → Nat → Subcategories → Subcategories × Assignments × Nat
  | 0, iteration, subs => (subs, .empty, iteration - 1)
  | left + 1, iteration, subs =>
    let assignments := classifyAll model config iteration services subs
    if shouldTerminate (computeStats config assignments subs) iteration config.maxRefineIterations then
      (subs, assignments, iteration)
    else
      classifyRefineLoop model config services left (iteration + 1)
        (model.refine iteration subs assignments)

/-! ### The end of a split -/

/-- The ids that a generic service keeps, and any other one. -/
def Assignment.kept (r : Assignment) (threshold : Nat) : Assignment :=
  if threshold < r.categoryIds.length then { r with categoryIds := [] } else r

/-- An assignment without the deleted subcategories. -/
def Assignment.without (r : Assignment) (tiny : List String) : Assignment :=
  { r with categoryIds := r.categoryIds.filter (· ∉ tiny) }

/-- The subcategories with no more services than `delete_threshold`. -/
def tinyToDelete (config : SplitterConfig) (stats : ClassificationStats) (subs : Subcategories) :
    List String :=
  sortIds ((stats.catCounts.filter fun e =>
    decide (e.2 ≤ config.deleteThreshold) && (subs.get? e.1).isSome).map Prod.fst)

/-- A small subcategory is deleted; the services that named it are rid of all the small ones. -/
def deleteTiny (tiny : List String) (s : Assignments × Subcategories × List String) (subId : String) :
    Assignments × Subcategories × List String :=
  (s.1.mapValues fun r => if subId ∈ r.categoryIds then r.without tiny else r,
    s.2.1.erase subId,
    s.2.2 ++ (s.1.entries.filter fun e =>
      decide (subId ∈ e.2.categoryIds) && (e.2.without tiny).categoryIds.isEmpty &&
        decide (e.1 ∉ s.2.2)).map Prod.fst)

/-- `finalize_assignments`, with the assignments and the subcategories that it leaves. -/
def finalizeAssignments (config : SplitterConfig) (assignments : Assignments) (subs : Subcategories) :
    Assignments × Subcategories × List String :=
  let threshold := config.genericThreshold subs.keys.length
  let unclassified := (assignments.entries.filter fun e =>
    e.2.categoryIds.isEmpty || decide (threshold < e.2.categoryIds.length)).map Prod.fst
  let marked := assignments.mapValues (·.kept threshold)
  let tiny := tinyToDelete config (computeStats config marked subs) subs
  tiny.foldl (deleteTiny tiny) (marked, subs, unclassified)

def splitNode (model : SplitterModel) (config : SplitterConfig) (services : List ServiceRecord) :
    Except String NodeSplitResult :=
  model.design.map fun designed =>
    let round := classifyRefineLoop model config services config.maxRefineIterations 1 designed
    let final := finalizeAssignments config round.2.1 round.1
    ⟨final.2.1, final.1, final.2.2⟩

/-! ### What the deletion leaves -/

section Delete

variable {tiny l : List String} {s : Assignments × Subcategories × List String} {r : Assignment}
  {subId id : String}

theorem mem_without : id ∈ (r.without tiny).categoryIds ↔ id ∈ r.categoryIds ∧ id ∉ tiny := by
  rw [Assignment.without, mem_filter, decide_eq_true_eq]

theorem without_of_disjoint (disjoint : ∀ c ∈ r.categoryIds, c ∉ tiny) : r.without tiny = r := by
  rw [Assignment.without, filter_eq_self.mpr fun c mem => decide_eq_true (disjoint c mem)]

theorem assignments_of_deleteTiny (sub : l ⊆ tiny) : (l.foldl (deleteTiny tiny) s).1 =
    s.1.mapValues fun r => if ∃ c ∈ l, c ∈ r.categoryIds then r.without tiny else r := by
  induction l generalizing s with
  | nil =>
    rcases s with ⟨⟨entries, nodup⟩, rest⟩
    simp [OrderedMap.mapValues]
  | cons c l ih =>
    rw [foldl_cons, ih fun _ mem => sub (mem_cons_of_mem _ mem), deleteTiny,
      mapValues_mapValues]
    congr 1
    funext r
    by_cases here : c ∈ r.categoryIds
    · have gone : ¬ ∃ d ∈ l, d ∈ (r.without tiny).categoryIds := by
        rintro ⟨d, mem, left⟩
        exact (mem_without.mp left).2 (sub (mem_cons_of_mem _ mem))
      rw [if_pos here, if_neg gone, if_pos ⟨c, mem_cons_self, here⟩]
    · rw [if_neg here]
      simp only [mem_cons, exists_eq_or_imp, here, false_or]

theorem subcategories_of_deleteTiny :
    (l.foldl (deleteTiny tiny) s).2.1 = s.2.1.eraseAll l := by
  induction l generalizing s with
  | nil => rfl
  | cons c l ih =>
    rw [foldl_cons, ih]
    rfl

theorem mem_unclassified_of_deleteTiny (sub : l ⊆ tiny) : id ∈ (l.foldl (deleteTiny tiny) s).2.2 ↔
    id ∈ s.2.2 ∨ ∃ e ∈ s.1.entries, e.1 = id ∧ (∃ c ∈ l, c ∈ e.2.categoryIds) ∧
      (e.2.without tiny).categoryIds = [] := by
  induction l generalizing s with
  | nil => simp
  | cons c l ih =>
    rw [List.foldl_cons, ih fun _ mem => sub (List.mem_cons_of_mem _ mem)]
    constructor
    · rintro (mem | ⟨e, mem, same, ⟨d, there, named⟩, empty⟩)
      · rcases List.mem_append.mp mem with old | new_
        · exact .inl old
        · obtain ⟨e, kept, same⟩ := List.mem_map.mp new_
          obtain ⟨inside, holds⟩ := List.mem_filter.mp kept
          simp only [Bool.and_eq_true_iff, decide_eq_true_eq, List.isEmpty_iff] at holds
          exact .inr ⟨e, inside, same, ⟨c, List.mem_cons_self, holds.1.1⟩, holds.1.2⟩
      · obtain ⟨e', inside, rfl⟩ := List.mem_map.mp mem
        dsimp only at same named empty
        by_cases here : c ∈ e'.2.categoryIds
        · rw [if_pos here] at named
          exact absurd (sub (List.mem_cons_of_mem _ there)) (mem_without.mp named).2
        · rw [if_neg here] at named empty
          exact .inr ⟨e', inside, same, ⟨d, List.mem_cons_of_mem _ there, named⟩, empty⟩
    · rintro (old | ⟨e, mem, same, ⟨d, there, named⟩, empty⟩)
      · exact .inl (List.mem_append_left _ old)
      · by_cases here : c ∈ e.2.categoryIds
        · left
          by_cases old : id ∈ s.2.2
          · exact List.mem_append_left _ old
          · refine List.mem_append_right _ (List.mem_map.mpr ⟨e, List.mem_filter.mpr ⟨mem, ?_⟩, same⟩)
            simp [here, empty, same, old]
        · right
          have later : d ∈ l := (List.mem_cons.mp there).resolve_left fun same => here (same ▸ named)
          refine ⟨e, List.mem_map.mpr ⟨e, mem, ?_⟩, same, ⟨d, later, named⟩, empty⟩
          exact Prod.ext rfl (if_neg here)

end Delete

/-! ### What a split leaves -/

section Finalize

variable {config : SplitterConfig} {assignments : Assignments} {subs : Subcategories} {c id : String}

/-- The assignments with those of generic services cleared. -/
def marked (config : SplitterConfig) (assignments : Assignments) (subs : Subcategories) : Assignments :=
  assignments.mapValues (·.kept (config.genericThreshold subs.keys.length))

def tinyOf (config : SplitterConfig) (assignments : Assignments) (subs : Subcategories) : List String :=
  tinyToDelete config (computeStats config (marked config assignments subs) subs) subs

theorem mem_tinyOf : c ∈ tinyOf config assignments subs ↔
    c ∈ subs.keys ∧ mentions (marked config assignments subs) c ≤ config.deleteThreshold := by
  rw [tinyOf, tinyToDelete, mem_sortIds, mem_map]
  constructor
  · rintro ⟨e, kept, rfl⟩
    obtain ⟨counted, small⟩ := mem_filter.mp kept
    obtain ⟨d, there, rfl⟩ := mem_map.mp counted
    rw [Bool.and_eq_true_iff, decide_eq_true_eq] at small
    exact ⟨there, small.1⟩
  · rintro ⟨there, small⟩
    refine ⟨(c, mentions (marked config assignments subs) c), mem_filter.mpr ⟨?_, ?_⟩, rfl⟩
    · exact mem_map.mpr ⟨c, there, rfl⟩
    · obtain ⟨d, found⟩ := mem_keys_iff.mp there
      simp [small, found]

theorem mem_unclassified_of_marked : id ∈ (assignments.entries.filter fun e =>
      e.2.categoryIds.isEmpty ||
        decide (config.genericThreshold subs.keys.length < e.2.categoryIds.length)).map Prod.fst ↔
    ∃ e ∈ (marked config assignments subs).entries, e.1 = id ∧ e.2.categoryIds = [] := by
  constructor
  · intro mem
    obtain ⟨e, kept, same⟩ := List.mem_map.mp mem
    obtain ⟨inside, holds⟩ := List.mem_filter.mp kept
    refine ⟨_, List.mem_map.mpr ⟨e, inside, rfl⟩, same, ?_⟩
    rw [Bool.or_eq_true_iff, decide_eq_true_eq, List.isEmpty_iff] at holds
    dsimp only
    rw [Assignment.kept]
    split
    · rfl
    · rename_i few
      exact holds.resolve_right few
  · rintro ⟨_, mem, same, empty⟩
    obtain ⟨e, inside, rfl⟩ := List.mem_map.mp mem
    refine List.mem_map.mpr ⟨e, List.mem_filter.mpr ⟨inside, ?_⟩, same⟩
    rw [Bool.or_eq_true_iff, decide_eq_true_eq, List.isEmpty_iff]
    dsimp only at empty
    rw [Assignment.kept] at empty
    split at empty
    · rename_i generic
      exact .inr generic
    · exact .inl empty

theorem assignments_of_finalize : (finalizeAssignments config assignments subs).1 =
    (marked config assignments subs).mapValues (·.without (tinyOf config assignments subs)) := by
  unfold finalizeAssignments
  rw [assignments_of_deleteTiny fun _ mem => mem]
  congr 1
  funext r
  split
  · rfl
  · rename_i none_
    exact (without_of_disjoint fun c mem small => none_ ⟨c, small, mem⟩).symm

theorem mem_keys_of_finalize : c ∈ (finalizeAssignments config assignments subs).2.1.keys ↔
    c ∈ subs.keys ∧ config.deleteThreshold < mentions (marked config assignments subs) c := by
  have erased : (finalizeAssignments config assignments subs).2.1 =
      subs.eraseAll (tinyOf config assignments subs) := subcategories_of_deleteTiny
  rw [erased, mem_keys_iff, get?_eraseAll]
  constructor
  · rintro ⟨d, found⟩
    split at found
    · cases found
    · rename_i large
      have there : c ∈ subs.keys := mem_keys_iff.mpr ⟨d, found⟩
      rw [mem_tinyOf, not_and, Nat.not_le] at large
      exact ⟨there, large there⟩
  · rintro ⟨there, large⟩
    obtain ⟨d, found⟩ := mem_keys_iff.mp there
    refine ⟨d, ?_⟩
    rw [if_neg, found]
    intro small
    exact Nat.not_le_of_lt large (mem_tinyOf.mp small).2

theorem mem_unclassified_of_finalize : id ∈ (finalizeAssignments config assignments subs).2.2 ↔
    ∃ e ∈ (finalizeAssignments config assignments subs).1.entries, e.1 = id ∧ e.2.categoryIds = [] := by
  have entries : ∀ e, e ∈ (finalizeAssignments config assignments subs).1.entries ↔
      ∃ e' ∈ (marked config assignments subs).entries,
        (e'.1, e'.2.without (tinyOf config assignments subs)) = e := by
    intro e
    rw [assignments_of_finalize]
    exact mem_map
  have unclassified : id ∈ (finalizeAssignments config assignments subs).2.2 ↔
      (∃ e ∈ (marked config assignments subs).entries, e.1 = id ∧ e.2.categoryIds = []) ∨
      ∃ e ∈ (marked config assignments subs).entries, e.1 = id ∧
        (∃ c ∈ tinyOf config assignments subs, c ∈ e.2.categoryIds) ∧
        (e.2.without (tinyOf config assignments subs)).categoryIds = [] := by
    refine (mem_unclassified_of_deleteTiny fun _ mem => mem).trans (or_congr_left ?_)
    exact mem_unclassified_of_marked
  rw [unclassified]
  constructor
  · rintro (⟨e, mem, same, empty⟩ | ⟨e, mem, same, -, empty⟩)
    · refine ⟨_, (entries _).mpr ⟨e, mem, rfl⟩, same, ?_⟩
      rw [Assignment.without, empty, filter_nil]
    · exact ⟨_, (entries _).mpr ⟨e, mem, rfl⟩, same, empty⟩
  · rintro ⟨_, mem, same, empty⟩
    obtain ⟨e, inside, rfl⟩ := (entries _).mp mem
    cases named : e.2.categoryIds with
    | nil => exact .inl ⟨e, inside, same, named⟩
    | cons c rest =>
      have there : c ∈ e.2.categoryIds := named ▸ mem_cons_self
      refine .inr ⟨e, inside, same, ⟨c, ?_, there⟩, empty⟩
      by_contra large
      have left : c ∈ (e.2.without (tinyOf config assignments subs)).categoryIds :=
        mem_without.mpr ⟨there, large⟩
      rw [empty] at left
      cases left

end Finalize

end AgentProtocols.Search
