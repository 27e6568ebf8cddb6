import AgentProtocols.Lib.Graphs
import AgentProtocols.Lib.Loops
import AgentProtocols.Search.Taxonomy

/-!
Walks over a taxonomy. Nothing keeps the children from going in a circle, and the four walks have no
mark for what they have seen; each ends on an acyclic taxonomy (`WalksEnd.of_acyclic`).
-/

namespace AgentProtocols.Search

open Lib OrderedMap

/-- The parameters of `AutoHierarchicalConfig` that decide what is split. -/
structure AutoHierarchicalConfig where
  maxServiceSize : Nat
  maxDepth : Option UInt32
  enableCrossDomain : Bool

structure BuildSummary where
  totalCategories : Nat
  leafNodes : Nat
  maxDepth : Nat
  depthDistribution : List (Nat × Nat)
  totalServiceAssignments : Nat
deriving DecidableEq

namespace Categories

variable (cats : Categories)

/-- `TaxonomyFile::services`. -/
def servicesOf (cat : String) : List String := ((cats.get? cat).map CategoryNode.services).getD []

/-- `TaxonomyFile::parent_map`: of two parents the later one counts. -/
def parentMap : OrderedMap String String :=
  OrderedMap.empty.insertAll (cats.entries.flatMap fun e => e.2.children.map fun child => (child, e.1))

/-- A turn of `leaves_under`, the top of the stack first. -/
def leavesTurn : List String × List String → (List String × List String) ⊕ List String
  | ([], leaves) => .inr leaves
  | (cid :: stack, leaves) =>
    if (cats.childrenOf cid).isEmpty then .inl (stack, leaves ++ [cid])
    else .inl ((cats.childrenOf cid).reverse ++ stack, leaves)

/-- `TaxonomyFile::leaves_under`. -/
def leavesUnder (fuel : Nat) (nodeId : String) : Option (List String) :=
  if (cats.childrenOf nodeId).isEmpty then some [nodeId]
  else loop cats.leavesTurn fuel ((cats.childrenOf nodeId).reverse, [])

/-- What `scan_pending` does at a node: an oversized leaf is queued. -/
def queuePending (config : AutoHierarchicalConfig) (nodeId : String) (depth : UInt32)
    (queue : List (String × UInt32)) : List (String × UInt32) :=
  if (cats.childrenOf nodeId).isEmpty && config.maxServiceSize < (cats.servicesOf nodeId).length &&
      config.maxDepth.all (depth < ·) then
    queue ++ [(nodeId, depth)]
  else queue

def scanPending (config : AutoHierarchicalConfig) :
    Nat → String → UInt32 → List (String × UInt32) → Option (List (String × UInt32)) :=
  preorder cats.childrenOf (cats.queuePending config) (· + 1)

def findPendingNodes (config : AutoHierarchicalConfig) (fuel : Nat) : Option (List (String × UInt32)) :=
  cats.scanPending config fuel rootId 0 []

/-- What `walk` does at a node, with the counts by depth and the total. -/
def countNode (id : String) (depth : Nat) (counted : OrderedMap Nat Nat × Nat) :
    OrderedMap Nat Nat × Nat :=
  (if id = rootId then counted.1 else counted.1.insert depth ((counted.1.get? depth).getD 0 + 1),
    counted.2 + (cats.servicesOf id).length)

/-- `walk` of `summarize`. -/
def walk : Nat → String → Nat → OrderedMap Nat Nat × Nat → Option (OrderedMap Nat Nat × Nat) :=
  preorder cats.childrenOf cats.countNode (· + 1)

def summarize (fuel : Nat) : Option BuildSummary :=
  (cats.walk fuel rootId 0 (.empty, 0)).map fun counted =>
    { totalCategories := cats.keys.length - 1
      leafNodes := (cats.entries.filter fun e => e.1 != rootId && e.2.children.isEmpty).length
      maxDepth := counted.1.keys.foldl max 0
      depthDistribution := counted.1.entries.insertionSort fun a b => a.1 ≤ b.1
      totalServiceAssignments := counted.2 }

end Categories

structure TreeIndex where
  parentMap : OrderedMap String String

namespace TreeIndex

def new (cats : Categories) : TreeIndex := ⟨cats.parentMap⟩

def ancestorsTurn (tree : TreeIndex) :
    Option String × List String → (Option String × List String) ⊕ List String
  | (none, path) => .inr path.reverse
  | (some cur, path) => .inl (tree.parentMap.get? cur, path ++ [cur])

def ancestors (tree : TreeIndex) (fuel : Nat) (nodeId : String) : Option (List String) :=
  loop tree.ancestorsTurn fuel (some nodeId, [])

end TreeIndex

/-! ### Why they end -/

open TreeIndex

/-- Every walk over the taxonomy ends, wherever it begins. -/
structure WalksEnd (cats : Categories) : Prop where
  leavesUnder : ∀ id, ∃ fuel leaves, cats.leavesUnder fuel id = some leaves
  ancestors : ∀ id, ∃ fuel path, (new cats).ancestors fuel id = some path
  scanPending : ∀ config id depth queue, ∃ fuel queue',
    cats.scanPending config fuel id depth queue = some queue'
  summarize : ∃ fuel summary, cats.summarize fuel = some summary

namespace Categories

variable {cats : Categories} {id parent : String}

theorem mem_keys_of_childrenOf (some_child : cats.childrenOf id ≠ []) : id ∈ cats.keys := by
  cases found : cats.get? id with
  | none =>
    rw [childrenOf, found] at some_child
    exact absurd rfl some_child
  | some node => exact mem_keys_iff.mpr ⟨node, found⟩

theorem isChild_of_parentMap (found : cats.parentMap.get? id = some parent) :
    IsChild cats.childrenOf parent id := by
  rcases mem_of_get?_insertAll found with mem | none_
  · obtain ⟨⟨cat, node⟩, there, child⟩ := List.mem_flatMap.mp mem
    obtain ⟨c, inside, same⟩ := List.mem_map.mp child
    cases same
    rw [IsChild, childrenOf, get?_eq_some_iff.mpr there]
    exact inside
  · cases none_

theorem exists_parentMap (child : IsChild cats.childrenOf parent id) :
    ∃ p, cats.parentMap.get? id = some p := by
  refine Option.isSome_iff_exists.mp (isSome_get?_insertAll.mpr (.inl ?_))
  rw [IsChild, childrenOf] at child
  cases found : cats.get? parent with
  | none =>
    rw [found] at child
    cases child
  | some node =>
    rw [found] at child
    exact List.mem_map.mpr ⟨(id, parent), List.mem_flatMap.mpr ⟨(parent, node),
      get?_eq_some_iff.mp found, List.mem_map.mpr ⟨id, child, rfl⟩⟩, rfl⟩

theorem ancestors_of_treeBelow {root : String} (tree : TreeBelow cats.childrenOf root)
    (below : Relation.ReflTransGen (IsChild cats.childrenOf) root id) :
    ∃ fuel path, (new cats).ancestors fuel id = some path ∧ path.head? = some root := by
  have from_ : ∀ path, ∃ fuel path',
      loop (new cats).ancestorsTurn fuel (some id, path) = some path' ∧
        path'.head? = some root := by
    induction below with
    | refl =>
      intro path
      have top : cats.parentMap.get? root = none := by
        refine Option.eq_none_iff_forall_ne_some.mpr fun p found => ?_
        exact tree.top p (isChild_of_parentMap found)
      refine ⟨2, (path ++ [root]).reverse, ?_, ?_⟩
      · rw [loop, ancestorsTurn, new, top]
        rfl
      · rw [List.reverse_append]
        rfl
    | @tail b c before child ih =>
      intro path
      obtain ⟨p, found⟩ := exists_parentMap child
      obtain rfl := tree.parent p b c (before.tail child) (isChild_of_parentMap found) child
      obtain ⟨fuel, path', done, head⟩ := ih (path ++ [c])
      refine ⟨fuel + 1, path', ?_, head⟩
      rw [loop, ancestorsTurn, new, found]
      exact done
  exact from_ []

variable (acyclic : Acyclic cats.childrenOf)

include acyclic

theorem wellFounded_children : WellFounded fun b a => IsChild cats.childrenOf a b :=
  acyclic.wellFounded_down fun _ => mem_keys_of_childrenOf

theorem leavesUnder_ends (id : String) : ∃ fuel leaves, cats.leavesUnder fuel id = some leaves := by
  have wf := wellFounded_replaces (wellFounded_children acyclic)
  obtain ⟨fuel, leaves, done⟩ := loop_ends cats.leavesTurn
    (s := ((cats.childrenOf id).reverse, [])) (InvImage.wf Prod.fst wf) (fun _ => True)
    (by
      rintro ⟨stack, leaves⟩ s' - turn
      refine ⟨trivial, ?_⟩
      cases stack with
      | nil => cases turn
      | cons cid stack =>
        rw [leavesTurn] at turn
        split at turn
        · cases turn
          refine ⟨cid, stack, [], .refl _, ?_, fun b mem => absurd mem List.not_mem_nil⟩
          rw [List.append_nil]
        · cases turn
          exact ⟨cid, stack, _, .refl _, List.perm_append_comm, fun b mem => List.mem_reverse.mp mem⟩)
    trivial
  refine ⟨fuel, ?_⟩
  unfold leavesUnder
  split
  · exact ⟨_, rfl⟩
  · exact ⟨leaves, done⟩

theorem ancestors_ends (id : String) :
    ∃ fuel path, (new cats).ancestors fuel id = some path := by
  have up := acyclic.wellFounded_up fun _ => mem_keys_of_childrenOf
  have from_ : ∀ path, ∃ fuel path',
      loop (new cats).ancestorsTurn fuel (some id, path) = some path' := by
    induction id using up.induction with
    | _ id ih =>
      intro path
      cases found : cats.parentMap.get? id with
      | none =>
        refine ⟨2, (path ++ [id]).reverse, ?_⟩
        rw [loop, ancestorsTurn, new, found]
        rfl
      | some parent =>
        obtain ⟨fuel, path', done⟩ := ih parent (isChild_of_parentMap found) (path ++ [id])
        refine ⟨fuel + 1, path', ?_⟩
        rw [loop, ancestorsTurn, new, found]
        exact done
  exact from_ []

theorem scanPending_ends (config : AutoHierarchicalConfig) (id : String) (depth : UInt32)
    (queue : List (String × UInt32)) :
    ∃ fuel queue', cats.scanPending config fuel id depth queue = some queue' := by
  obtain ⟨fuel, ends⟩ := preorder_ends (cats.queuePending config) (· + 1)
    ((wellFounded_children acyclic).apply id)
  obtain ⟨queue', done⟩ := ends depth queue
  exact ⟨fuel, queue', done⟩

theorem summarize_ends : ∃ fuel summary, cats.summarize fuel = some summary := by
  obtain ⟨fuel, ends⟩ := preorder_ends cats.countNode (· + 1)
    ((wellFounded_children acyclic).apply rootId)
  obtain ⟨counted, done⟩ := ends 0 (.empty, 0)
  refine ⟨fuel, Option.isSome_iff_exists.mp ?_⟩
  rw [summarize, walk, done]
  rfl

omit acyclic in
theorem summarize_mono {m n : Nat} (le : m ≤ n) {summary : BuildSummary}
    (done : cats.summarize m = some summary) : cats.summarize n = some summary := by
  rw [summarize, Option.map_eq_some_iff] at done ⊢
  obtain ⟨counted, walked, same⟩ := done
  exact ⟨counted, preorder_mono le walked, same⟩

end Categories

/-- On an acyclic taxonomy every walk ends. -/
theorem WalksEnd.of_acyclic {cats : Categories} (acyclic : Acyclic cats.childrenOf) : WalksEnd cats where
  leavesUnder := Categories.leavesUnder_ends acyclic
  ancestors := Categories.ancestors_ends acyclic
  scanPending := Categories.scanPending_ends acyclic
  summarize := Categories.summarize_ends acyclic

end AgentProtocols.Search
