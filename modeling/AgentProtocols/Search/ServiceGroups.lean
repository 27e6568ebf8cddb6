import AgentProtocols.Lib.Picks
import AgentProtocols.Search.TaxonomyWalks

/-!
Groups of services that are submitted to the model together. The proofs carry one list of cells
(`Aligned`), each with the categories that it has come from.

* `mergeSmallGroups_spec` — the merging ends, and the nodes are divided among the groups.
* `mergeSmallGroups_exact` — the groups hold the services and categories of the nodes exactly.
-/

namespace AgentProtocols.Search

open Lib List

structure TerminalNode where
  categoryId : String
  serviceIds : List String
deriving DecidableEq

structure ServiceGroup where
  leafIds : Finset String
  serviceIds : List String

def minGroupSize : Nat := 30

/-- `deduplicate` from a set of ids on that were seen before. -/
def deduplicateFrom : List String → List TerminalNode → List TerminalNode
  | _, [] => []
  | seen, node :: rest =>
    let unique := keepNew id seen node.serviceIds
    if unique.1.isEmpty then deduplicateFrom unique.2 rest
    else ⟨node.categoryId, unique.1⟩ :: deduplicateFrom unique.2 rest

/-- `deduplicate`: first come first served. -/
def deduplicate (nodes : List TerminalNode) : List TerminalNode := deduplicateFrom [] nodes

/-- `TreeIndex::lca_depth` from a depth on. -/
def lcaDepthFrom (depth : Int) : List String → List String → Int
  | a :: pathA, b :: pathB => if a ≠ b then depth else lcaDepthFrom (depth + 1) pathA pathB
  | _, _ => depth

/-- `TreeIndex::lca_depth`. -/
def lcaDepth (pathA pathB : List String) : Int := lcaDepthFrom (-1) pathA pathB

/-- The deepest common ancestor of two groups, by the paths of their leaves. -/
def maxLca (pathsA pathsB : List (List String)) : Option Int :=
  (pathsA.flatMap fun pa => pathsB.map fun pb => lcaDepth pa pb).foldl
    (fun deepest d => some (deepest.elim d (max · d))) none

/-- `merge_small_groups` between two turns: the groups, and the paths of the leaves of each. -/
structure MergeState where
  groups : List ServiceGroup
  groupPaths : List (List (List String))

/-- The first of the smallest groups that are too small. -/
def smallIdx (groups : List ServiceGroup) : Option Nat :=
  pick (fun i => (groups[i]?.map fun g => g.serviceIds.length).filter (· < minGroupSize))
    (fun size best => size < best) groups.length

/-- The first group with the deepest ancestor in common with the small one. -/
def bestIdx (s : MergeState) (small : Nat) : Option Nat :=
  pick
    (fun j =>
      if j = small then none
      else (maxLca (s.groupPaths.getD small []) (s.groupPaths.getD j [])).filter (-1 < ·))
    (fun d best => best < d) s.groups.length

def ServiceGroup.absorb (source target : ServiceGroup) : ServiceGroup where
  leafIds := target.leafIds ∪ source.leafIds
  serviceIds := source.serviceIds.foldl (fun ids sid => if sid ∈ ids then ids else ids ++ [sid])
    target.serviceIds

/-- A turn of `merge_small_groups`. -/
def mergeTurn (s : MergeState) : MergeState ⊕ List ServiceGroup :=
  if s.groups.length ≤ 1 then .inr s.groups
  else
    match smallIdx s.groups with
    | none => .inr s.groups
    | some small =>
      match bestIdx s small with
      | none => .inr s.groups
      | some best =>
        let target := if small < best then best - 1 else best
        .inl
          { groups := (s.groups.eraseIdx small).modify target
              (s.groups.getD small ⟨∅, []⟩).absorb
            groupPaths := (s.groupPaths.eraseIdx small).modify target
              (· ++ s.groupPaths.getD small []) }

/-- The groups before the first turn. -/
def startGroups (nodes : List TerminalNode) (paths : List (List String)) : MergeState where
  groups := nodes.map fun node => ⟨{node.categoryId}, node.serviceIds⟩
  groupPaths := paths.map fun path => [path]

def mergeSmallGroups (tree : TreeIndex) (fuel : Nat) (nodes : List TerminalNode) :
    Option (List ServiceGroup) :=
  if nodes.isEmpty then some []
  else
    (nodes.mapM fun node => tree.ancestors fuel node.categoryId).bind fun paths =>
      loop mergeTurn fuel (startGroups nodes paths)

/-! ### Services that come more than once -/

section Deduplicate

variable {nodes : List TerminalNode} {seen : List String}

theorem services_of_deduplicateFrom : (deduplicateFrom seen nodes).flatMap TerminalNode.serviceIds =
    (keepNew id seen (nodes.flatMap TerminalNode.serviceIds)).1 := by
  induction nodes generalizing seen with
  | nil => rfl
  | cons node rest ih =>
    rw [flatMap_cons, keepNew_append, deduplicateFrom]
    split
    · rename_i empty
      rw [ih, isEmpty_iff.mp empty]
      rfl
    · rw [flatMap_cons, ih]

theorem nodup_deduplicate : ((deduplicate nodes).flatMap TerminalNode.serviceIds).Nodup := by
  rw [deduplicate, services_of_deduplicateFrom]
  have distinct := (nodup_keepNew id [] (nodes.flatMap TerminalNode.serviceIds)).1
  rw [map_id] at distinct
  exact distinct

theorem mem_services_of_deduplicate {sid : String} :
    sid ∈ (deduplicate nodes).flatMap TerminalNode.serviceIds ↔
      ∃ n ∈ nodes, sid ∈ n.serviceIds := by
  have keys := @mem_keys_keepNew _ _ _ id [] (nodes.flatMap TerminalNode.serviceIds) sid
  rw [map_id, map_id] at keys
  rw [deduplicate, services_of_deduplicateFrom, keys, mem_flatMap]
  exact and_iff_left not_mem_nil

theorem category_of_deduplicateFrom {n : TerminalNode} (mem : n ∈ deduplicateFrom seen nodes) :
    ∃ m ∈ nodes, m.categoryId = n.categoryId := by
  induction nodes generalizing seen with
  | nil => cases mem
  | cons node rest ih =>
    rw [deduplicateFrom] at mem
    split at mem
    · obtain ⟨m, there, same⟩ := ih mem
      exact ⟨m, mem_cons_of_mem _ there, same⟩
    · rcases mem_cons.mp mem with rfl | later
      · exact ⟨node, mem_cons_self, rfl⟩
      · obtain ⟨m, there, same⟩ := ih later
        exact ⟨m, mem_cons_of_mem _ there, same⟩

end Deduplicate

/-! ### What a group holds -/

section Absorb

variable {source target : ServiceGroup} {id : String}

variable {l ids : List String}

private theorem mem_foldl_push :
    id ∈ l.foldl (fun ids sid => if sid ∈ ids then ids else ids ++ [sid]) ids ↔ id ∈ ids ∨ id ∈ l := by
  induction l generalizing ids with
  | nil => simp
  | cons sid l ih =>
    rw [foldl_cons, ih]
    split
    · rename_i known
      constructor
      · rintro (mem | mem)
        · exact .inl mem
        · exact .inr (mem_cons_of_mem _ mem)
      · rintro (mem | mem)
        · exact .inl mem
        · rcases mem_cons.mp mem with rfl | later
          · exact .inl known
          · exact .inr later
    · rw [mem_append, mem_singleton, mem_cons, or_assoc]

private theorem nodup_foldl_push (nodup : ids.Nodup) :
    (l.foldl (fun ids sid => if sid ∈ ids then ids else ids ++ [sid]) ids).Nodup := by
  induction l generalizing ids with
  | nil => exact nodup
  | cons sid l ih =>
    rw [foldl_cons]
    split
    · exact ih nodup
    · rename_i new_
      exact ih (nodup.append (nodup_singleton sid) (disjoint_singleton.mpr new_))

private theorem exists_foldl_push :
    ∃ more, l.foldl (fun ids sid => if sid ∈ ids then ids else ids ++ [sid]) ids = ids ++ more := by
  induction l generalizing ids with
  | nil => exact ⟨[], (append_nil ids).symm⟩
  | cons sid l ih =>
    rw [foldl_cons]
    split
    · exact ih
    · obtain ⟨more, same⟩ := @ih (ids ++ [sid])
      exact ⟨sid :: more, by rw [same, append_assoc]; rfl⟩

theorem mem_absorb :
    id ∈ (source.absorb target).serviceIds ↔ id ∈ target.serviceIds ∨ id ∈ source.serviceIds :=
  mem_foldl_push

theorem nodup_absorb (nodup : target.serviceIds.Nodup) : (source.absorb target).serviceIds.Nodup :=
  nodup_foldl_push nodup

theorem exists_absorb (source target : ServiceGroup) :
    ∃ more, (source.absorb target).serviceIds = target.serviceIds ++ more :=
  exists_foldl_push

end Absorb

variable {root : String}

theorem lcaDepth_nonneg {pathA pathB : List String} (a : pathA.head? = some root)
    (b : pathB.head? = some root) : 0 ≤ lcaDepth pathA pathB := by
  have deeper : ∀ {pathA pathB : List String} {depth : Int}, depth ≤ lcaDepthFrom depth pathA pathB := by
    intro pathA
    induction pathA with
    | nil =>
      exact le_rfl
    | cons x pathA ih =>
      intro pathB depth
      cases pathB with
      | nil => exact le_rfl
      | cons y pathB =>
        rw [lcaDepthFrom]
        split
        · exact le_rfl
        · exact (Int.le_add_of_nonneg_right (by decide)).trans ih
  cases pathA with
  | nil => cases a
  | cons x pathA =>
    cases pathB with
    | nil => cases b
    | cons y pathB =>
      cases a
      cases b
      rw [lcaDepth, lcaDepthFrom, if_neg (not_not.mpr rfl)]
      exact deeper

theorem maxLca_of_rooted {pathsA pathsB : List (List String)} (a : pathsA ≠ [])
    (b : pathsB ≠ []) (rootA : ∀ p ∈ pathsA, p.head? = some root)
    (rootB : ∀ p ∈ pathsB, p.head? = some root) : ∃ d, maxLca pathsA pathsB = some d ∧ 0 ≤ d := by
  have folded : ∀ {l : List Int} {deepest : Option Int}, (∀ d ∈ l, 0 ≤ d) → (∀ d ∈ deepest, 0 ≤ d) →
      (l = [] → deepest ≠ none) →
      ∃ d, l.foldl (fun deepest d => some (deepest.elim d (max · d))) deepest = some d ∧ 0 ≤ d := by
    intro l
    induction l with
    | nil =>
      intro deepest _ nonneg there
      obtain ⟨d, found⟩ := Option.ne_none_iff_exists'.mp (there rfl)
      exact ⟨d, found, nonneg d found⟩
    | cons d l ih =>
      intro deepest all nonneg _
      apply ih (fun d mem => all d (mem_cons_of_mem _ mem))
      · rintro e ⟨⟩
        cases deepest with
        | none => exact all d mem_cons_self
        | some b => exact (all d mem_cons_self).trans (le_max_right b d)
      · rintro - ⟨⟩
  apply folded
  · intro d mem
    obtain ⟨pa, memA, mem⟩ := mem_flatMap.mp mem
    obtain ⟨pb, memB, rfl⟩ := mem_map.mp mem
    exact lcaDepth_nonneg (rootA pa memA) (rootB pb memB)
  · rintro d ⟨⟩
  · intro empty
    obtain ⟨pa, restA, rfl⟩ := exists_cons_of_ne_nil a
    obtain ⟨pb, restB, rfl⟩ := exists_cons_of_ne_nil b
    cases empty

/-! ### What a turn keeps -/

/-- A group holds the categories of these nodes and their services. -/
structure ServiceGroup.Holds (g : ServiceGroup) (part : List TerminalNode) : Prop where
  nonempty : part ≠ []
  leaves : ∀ c, c ∈ g.leafIds ↔ ∃ n ∈ part, n.categoryId = c
  services : ∀ id, id ∈ g.serviceIds ↔ ∃ n ∈ part, id ∈ n.serviceIds
  distinct : (∀ n ∈ part, n.serviceIds.Nodup) → g.serviceIds.Nodup

/-- A group with the paths of its leaves and the nodes that it has come from. -/
structure Cell where
  group : ServiceGroup
  paths : List (List String)
  part : List TerminalNode

/-- The paths are those of some leaves below the root. -/
structure Cell.Sound (root : String) (c : Cell) : Prop where
  holds : c.group.Holds c.part
  some_path : c.paths ≠ []
  rooted : ∀ p ∈ c.paths, p.head? = some root

/-- The two vectors are those of a list of cells, which have come from the nodes. -/
structure Aligned (root : String) (nodes : List TerminalNode) (s : MergeState) (cells : List Cell) :
    Prop where
  groups : s.groups = cells.map Cell.group
  paths : s.groupPaths = cells.map Cell.paths
  parts : (cells.flatMap Cell.part).Perm nodes
  sound : ∀ c ∈ cells, c.Sound root

/-- A cell takes in another one. -/
def Cell.absorb (source target : Cell) : Cell :=
  ⟨source.group.absorb target.group, target.paths ++ source.paths, target.part ++ source.part⟩

theorem Cell.Sound.absorb {source target : Cell} (a : source.Sound root)
    (b : target.Sound root) : (source.absorb target).Sound root := by
  refine ⟨⟨?_, ?_, ?_, ?_⟩, ?_, ?_⟩
  · exact fun empty => b.holds.nonempty (append_eq_nil_iff.mp empty).1
  · intro c
    rw [Cell.absorb, ServiceGroup.absorb]
    simp only [Finset.mem_union, b.holds.leaves, a.holds.leaves, mem_append, or_and_right, exists_or]
  · intro id
    rw [Cell.absorb]
    simp only [mem_absorb, b.holds.services, a.holds.services, mem_append, or_and_right, exists_or]
  · intro all
    exact nodup_absorb (b.holds.distinct fun n mem => all n (mem_append_left _ mem))
  · exact fun empty => b.some_path (append_eq_nil_iff.mp empty).1
  · intro p mem
    rcases mem_append.mp mem with there | there
    · exact b.rooted p there
    · exact a.rooted p there

/-- What a turn does to the cells: a small one goes into another one. -/
structure Merges (cells cells' : List Cell) : Prop where
  merged : ∃ source target rest, source.group.serviceIds.length < minGroupSize ∧
    cells.Perm (source :: target :: rest) ∧ cells'.Perm (source.absorb target :: rest)

section Turn

variable {root : String} {nodes : List TerminalNode} {s s' : MergeState} {cells : List Cell}
  {groups : List ServiceGroup}

variable {i : Nat}

theorem getElem?_of_smallIdx (small : smallIdx (cells.map Cell.group) = some i) :
    ∃ c, cells[i]? = some c ∧ c.group.serviceIds.length < minGroupSize := by
  obtain ⟨-, size, here⟩ := of_pick_eq_some small
  obtain ⟨found, below⟩ := Option.filter_eq_some_iff.mp here
  rw [getElem?_map, Option.map_map, Option.map_eq_some_iff] at found
  obtain ⟨c, there, rfl⟩ := found
  exact ⟨c, there, of_decide_eq_true below⟩

theorem large_of_smallIdx_eq_none (none_ : smallIdx groups = none) :
    ∀ g ∈ groups, minGroupSize ≤ g.serviceIds.length := by
  intro g mem
  obtain ⟨i, below, rfl⟩ := getElem_of_mem mem
  have empty := of_pick_eq_none none_ i below
  rw [getElem?_eq_getElem below, Option.filter_eq_none_iff] at empty
  exact Nat.le_of_not_lt fun small => empty _ rfl (decide_eq_true small)

theorem ne_of_bestIdx {j : Nat} (best : bestIdx s i = some j) : j < s.groups.length ∧ i ≠ j := by
  obtain ⟨below, d, here⟩ := of_pick_eq_some best
  refine ⟨below, ?_⟩
  rintro rfl
  rw [if_pos rfl] at here
  cases here

variable (aligned : Aligned root nodes s cells)

include aligned

theorem bestIdx_ne_none {c : Cell}
    (there : cells[i]? = some c) (two : 1 < s.groups.length) : bestIdx s i ≠ none := by
  intro none_
  have length : s.groups.length = cells.length := by
    rw [aligned.groups, length_map]
  obtain ⟨j, below, ne⟩ : ∃ j < s.groups.length, j ≠ i := by
    by_cases first : i = 0
    · exact ⟨1, two, by omega⟩
    · exact ⟨0, by omega, Ne.symm first⟩
  have other : cells[j]? = some cells[j] := getElem?_eq_getElem (length ▸ below)
  have soundC := aligned.sound c (mem_of_getElem? there)
  have soundO := aligned.sound _ (mem_of_getElem? other)
  obtain ⟨d, deepest, nonneg⟩ := maxLca_of_rooted soundC.some_path soundO.some_path soundC.rooted soundO.rooted
  have value := of_pick_eq_none none_ j below
  rw [if_neg ne, aligned.paths, getD_eq_getElem?_getD, getD_eq_getElem?_getD, getElem?_map,
    getElem?_map, there, other, Option.map_some, Option.map_some, Option.getD_some, Option.getD_some,
    deepest, Option.filter_eq_none_iff] at value
  exact value d rfl (decide_eq_true (by omega))

/-- A turn of the loop merges a small cell into another one. -/
theorem merges_of_mergeTurn (turn : mergeTurn s = .inl s') :
    ∃ cells', Aligned root nodes s' cells' ∧ Merges cells cells' := by
  rw [mergeTurn] at turn
  split at turn
  · cases turn
  · split at turn
    · cases turn
    · rename_i small smallest
      split at turn
      · cases turn
      · rename_i best deepest
        cases turn
        obtain ⟨below, ne⟩ := ne_of_bestIdx deepest
        rw [aligned.groups] at smallest
        obtain ⟨source, atSmall, size⟩ := getElem?_of_smallIdx smallest
        rw [aligned.groups, length_map] at below
        have atBest : cells[best]? = some cells[best] := getElem?_eq_getElem below
        obtain ⟨rest, before, after⟩ := merge_perm atSmall atBest ne source.absorb
        have sound : ∀ c ∈ source :: cells[best] :: rest, c.Sound root :=
          fun c mem => aligned.sound c (before.mem_iff.mpr mem)
        have merged := (sound _ mem_cons_self).absorb (sound _ (mem_cons_of_mem _ mem_cons_self))
        refine ⟨_, ⟨?_, ?_, ?_, ?_⟩, ⟨source, _, rest, size, before, after⟩⟩
        · rw [map_modify (g := Cell.group) (h := source.group.absorb) fun c => rfl, aligned.groups,
            eraseIdx_map, getD_eq_getElem?_getD, getElem?_map, atSmall]
          rfl
        · dsimp only
          rw [map_modify (g := Cell.paths) (h := (· ++ source.paths)) fun c => rfl, aligned.paths,
            eraseIdx_map, getD_eq_getElem?_getD, getElem?_map, atSmall]
          rfl
        · have parts : ((source.absorb cells[best]) :: rest).flatMap Cell.part |>.Perm
              ((source :: cells[best] :: rest).flatMap Cell.part) := by
            rw [flatMap_cons, flatMap_cons, flatMap_cons, ← append_assoc]
            exact perm_append_comm.append_right _
          exact ((after.flatMap_right Cell.part).trans parts).trans
            ((before.flatMap_right Cell.part).symm.trans aligned.parts)
        · intro c mem
          rcases mem_cons.mp (after.mem_iff.mp mem) with rfl | mem
          · exact merged
          · exact sound c (mem_cons_of_mem _ (mem_cons_of_mem _ mem))

theorem large_of_mergeTurn (turn : mergeTurn s = .inr groups) :
    groups = s.groups ∧ (groups.length ≤ 1 ∨ ∀ g ∈ groups, minGroupSize ≤ g.serviceIds.length) := by
  rw [mergeTurn] at turn
  split at turn
  · rename_i few
    cases turn
    exact ⟨rfl, .inl few⟩
  · rename_i many
    split at turn
    · rename_i none_
      cases turn
      exact ⟨rfl, .inr (large_of_smallIdx_eq_none none_)⟩
    · rename_i small smallest
      split at turn
      · rename_i none_
        rw [aligned.groups] at smallest
        obtain ⟨source, atSmall, -⟩ := getElem?_of_smallIdx smallest
        exact absurd none_ (bestIdx_ne_none aligned atSmall (Nat.lt_of_not_le many))
      · cases turn

omit aligned

end Turn

/-! ### The whole loop -/

def Rooted (tree : TreeIndex) (root : String) (nodes : List TerminalNode) : Prop :=
  ∀ n ∈ nodes, ∃ fuel path, tree.ancestors fuel n.categoryId = some path ∧ path.head? = some root

/-- The groups hold the nodes, each node in one of them, and no small group is left beside others. -/
structure Grouped (nodes : List TerminalNode) (groups : List ServiceGroup) : Prop where
  parts : ∃ parts : List (ServiceGroup × List TerminalNode), groups = parts.map Prod.fst ∧
    (parts.flatMap Prod.snd).Perm nodes ∧ ∀ p ∈ parts, p.1.Holds p.2
  sizes : groups.length ≤ 1 ∨ ∀ g ∈ groups, minGroupSize ≤ g.serviceIds.length

section Loop

variable {tree : TreeIndex} {root : String} {nodes : List TerminalNode} {groups : List ServiceGroup}
  {s s' : MergeState} {cells cells' : List Cell} {m n fuel : Nat}

theorem ancestors_mono {id : String} {path : List String} (le : m ≤ n)
    (found : tree.ancestors m id = some path) : tree.ancestors n id = some path :=
  loop_mono le found

theorem exists_paths (rooted : Rooted tree root nodes) :
    ∃ fuel paths, (∀ more, fuel ≤ more →
        (nodes.mapM fun node => tree.ancestors more node.categoryId) = some paths) ∧
      paths.length = nodes.length ∧ ∀ p ∈ paths, p.head? = some root := by
  induction nodes with
  | nil =>
    refine ⟨0, [], fun _ _ => rfl, rfl, ?_⟩
    rintro p ⟨⟩
  | cons node nodes ih =>
    obtain ⟨k, path, found, atRoot⟩ := rooted node mem_cons_self
    obtain ⟨j, paths, all, length, heads⟩ := ih fun n mem => rooted n (mem_cons_of_mem _ mem)
    refine ⟨max k j, path :: paths, fun more enough => ?_, ?_, ?_⟩
    · rw [mapM_cons, ancestors_mono (le_of_max_le_left enough) found,
        all more (le_of_max_le_right enough)]
      rfl
    · rw [length_cons, length, length_cons]
    · intro p mem
      rcases mem_cons.mp mem with rfl | later
      · exact atRoot
      · exact heads p later

theorem aligned_start {paths : List (List String)} (length : paths.length = nodes.length)
    (heads : ∀ p ∈ paths, p.head? = some root) :
    ∃ cells, Aligned root nodes (startGroups nodes paths) cells := by
  refine ⟨(nodes.zip paths).map fun e => ⟨⟨{e.1.categoryId}, e.1.serviceIds⟩, [e.2], [e.1]⟩, ?_, ?_, ?_, ?_⟩
  · rw [startGroups, map_map]
    conv_lhs => rw [← map_fst_zip length.ge, map_map]
    rfl
  · rw [startGroups, map_map]
    conv_lhs => rw [← map_snd_zip length.le, map_map]
    rfl
  · rw [flatMap_map]
    have firsts : (nodes.zip paths).flatMap (fun e => [e.1]) = nodes := by
      rw [← map_eq_flatMap, map_fst_zip length.ge]
    rw [firsts]
  · intro c mem
    obtain ⟨e, inside, rfl⟩ := mem_map.mp mem
    refine ⟨⟨cons_ne_nil _ _, ?_, ?_, ?_⟩, cons_ne_nil _ _, ?_⟩
    · simp [eq_comm]
    · simp
    · intro all
      exact all _ mem_cons_self
    · intro p here
      rw [mem_singleton.mp here]
      exact heads _ (of_mem_zip inside).2

variable (aligned : Aligned root nodes s cells)

include aligned

theorem length_of_merges (aligned' : Aligned root nodes s' cells')
    (merges : Merges cells cells') : s'.groups.length < s.groups.length := by
  obtain ⟨source, target, rest, -, before, after⟩ := merges.merged
  rw [aligned.groups, aligned'.groups, length_map, length_map, before.length_eq,
    after.length_eq]
  exact Nat.lt_succ_self _

theorem grouped_of_aligned (turn : mergeTurn s = .inr groups) : Grouped nodes groups := by
  obtain ⟨rfl, sizes⟩ := large_of_mergeTurn aligned turn
  refine ⟨⟨cells.map fun c => (c.group, c.part), ?_, ?_, ?_⟩, sizes⟩
  · rw [aligned.groups, map_map]
    rfl
  · rw [flatMap_map]
    exact aligned.parts
  · intro p mem
    obtain ⟨c, inside, rfl⟩ := mem_map.mp mem
    exact (aligned.sound c inside).holds

theorem mergeLoop_ends :
    ∃ fuel groups, loop mergeTurn fuel s = some groups ∧ Grouped nodes groups := by
  obtain ⟨fuel, groups, done⟩ := loop_ends mergeTurn
    (measure fun s : MergeState => s.groups.length).wf (fun s => ∃ cells, Aligned root nodes s cells)
    (fun s s' inv turn => by
      obtain ⟨cells, aligned⟩ := inv
      obtain ⟨cells', aligned', merges⟩ := merges_of_mergeTurn aligned turn
      exact ⟨⟨cells', aligned'⟩, length_of_merges aligned aligned' merges⟩) ⟨cells, aligned⟩
  refine ⟨fuel, groups, done, ?_⟩
  refine loop_post (fun s => ∃ cells, Aligned root nodes s cells) (Grouped nodes) ?_ ?_ ⟨cells, aligned⟩ done
  · rintro s s' ⟨cells, aligned⟩ turn
    obtain ⟨cells', aligned', -⟩ := merges_of_mergeTurn aligned turn
    exact ⟨cells', aligned'⟩
  · rintro s groups ⟨cells, aligned⟩ turn
    exact grouped_of_aligned aligned turn

omit aligned

/-- The merging ends, and the nodes are divided among the groups. -/
theorem mergeSmallGroups_spec (rooted : Rooted tree root nodes) :
    ∃ fuel groups, (∀ more, fuel ≤ more → mergeSmallGroups tree more nodes = some groups) ∧
      Grouped nodes groups := by
  by_cases empty : nodes.isEmpty = true
  · refine ⟨0, [], fun more _ => by rw [mergeSmallGroups, if_pos empty], ⟨⟨[], rfl, ?_, ?_⟩, ?_⟩⟩
    · rw [isEmpty_iff.mp empty]
      exact List.Perm.nil
    · rintro p ⟨⟩
    · exact .inl (Nat.zero_le 1)
  · obtain ⟨k, paths, all, length, heads⟩ := exists_paths rooted
    obtain ⟨cells, aligned⟩ := aligned_start length heads
    obtain ⟨j, groups, done, grouped⟩ := mergeLoop_ends aligned
    refine ⟨max k j, groups, fun more enough => ?_, grouped⟩
    rw [mergeSmallGroups, if_neg empty, all more (le_of_max_le_left enough)]
    exact loop_mono (le_of_max_le_right enough) done

end Loop

theorem Grouped.nodup {nodes : List TerminalNode} {groups : List ServiceGroup} (grouped : Grouped nodes groups)
    (nodup : (nodes.flatMap TerminalNode.serviceIds).Nodup) :
    (groups.flatMap ServiceGroup.serviceIds).Nodup := by
  obtain ⟨⟨parts, rfl, perm, holds⟩, -⟩ := grouped
  obtain ⟨each, apart⟩ := nodup_flatMap.mp ((perm.flatMap_right _).nodup_iff.mpr nodup)
  have across := (pairwise_flatten.mp apart).2
  rw [pairwise_map] at across
  rw [flatMap_map, nodup_flatMap]
  constructor
  · intro p mem
    refine (holds p mem).distinct fun n inside => each n (mem_flatMap.mpr ⟨p, mem, inside⟩)
  · refine across.imp_of_mem fun {p q} memP memQ apart id here there => ?_
    obtain ⟨a, inA, hereA⟩ := ((holds p memP).services id).mp here
    obtain ⟨b, inB, thereB⟩ := ((holds q memQ).services id).mp there
    exact apart a inA b inB hereA thereB

theorem Grouped.mem_services {nodes : List TerminalNode} {groups : List ServiceGroup}
    (grouped : Grouped nodes groups) {sid : String} :
    sid ∈ groups.flatMap ServiceGroup.serviceIds ↔ ∃ n ∈ nodes, sid ∈ n.serviceIds := by
  obtain ⟨⟨parts, rfl, perm, holds⟩, -⟩ := grouped
  rw [mem_flatMap]
  constructor
  · rintro ⟨g, mem, here⟩
    obtain ⟨p, inside, rfl⟩ := mem_map.mp mem
    obtain ⟨n, part, there⟩ := ((holds p inside).services sid).mp here
    exact ⟨n, perm.mem_iff.mp (mem_flatMap.mpr ⟨p, inside, part⟩), there⟩
  · rintro ⟨n, mem, there⟩
    obtain ⟨p, inside, part⟩ := mem_flatMap.mp (perm.mem_iff.mpr mem)
    exact ⟨p.1, mem_map_of_mem inside, ((holds p inside).services sid).mpr ⟨n, part, there⟩⟩

/-! ### Exactness -/

/-- The states that the loop goes through. -/
inductive MergeReached (tree : TreeIndex) (nodes : List TerminalNode) : MergeState → Prop where
  | start {fuel : Nat} {paths : List (List String)} : nodes ≠ [] →
      (nodes.mapM fun node => tree.ancestors fuel node.categoryId) = some paths →
      MergeReached tree nodes (startGroups nodes paths)
  | turn {s s' : MergeState} : MergeReached tree nodes s → mergeTurn s = .inl s' →
      MergeReached tree nodes s'

/-- The groups hold exactly the services of the nodes, and the categories of parts of them. -/
structure MergedExactly (nodes : List TerminalNode) (groups : List ServiceGroup) : Prop where
  disjoint : groups.Pairwise fun g h => ∀ id ∈ g.serviceIds, id ∉ h.serviceIds
  services : ∀ id, (∃ g ∈ groups, id ∈ g.serviceIds) ↔ ∃ n ∈ nodes, id ∈ n.serviceIds
  parts : ∃ parts : List (ServiceGroup × List TerminalNode), groups = parts.map Prod.fst ∧
    (parts.flatMap Prod.snd).Perm nodes ∧
    ∀ p ∈ parts, p.2 ≠ [] ∧ ∀ c, c ∈ p.1.leafIds ↔ ∃ n ∈ p.2, n.categoryId = c
  leaves : (nodes.map TerminalNode.categoryId).Nodup →
    groups.Pairwise fun g h => ∀ c ∈ g.leafIds, c ∉ h.leafIds
  sizes : groups.length ≤ 1 ∨ ∀ g ∈ groups, minGroupSize ≤ g.serviceIds.length

/-- The group goes on in another list of groups, with its services at the front. -/
def GoesOn (g : ServiceGroup) (groups : List ServiceGroup) : Prop :=
  ∃ h ∈ groups, g.leafIds ⊆ h.leafIds ∧ ∃ more, h.serviceIds = g.serviceIds ++ more

section Exact

variable {tree : TreeIndex} {root : String} {nodes : List TerminalNode} {groups : List ServiceGroup}
  {s s' : MergeState} {cells cells' : List Cell} {g : ServiceGroup}

theorem pairwise_of_parts {R : TerminalNode → TerminalNode → Prop} {S : ServiceGroup → ServiceGroup → Prop}
    {parts : List (ServiceGroup × List TerminalNode)} (symm : ∀ {a b}, R a b → R b a)
    (apart : nodes.Pairwise R) (perm : (parts.flatMap Prod.snd).Perm nodes)
    (lift : ∀ p ∈ parts, ∀ q ∈ parts, (∀ a ∈ p.2, ∀ b ∈ q.2, R a b) → S p.1 q.1) :
    (parts.map Prod.fst).Pairwise S := by
  have across := (pairwise_flatten.mp ((perm.pairwise_iff symm).mpr apart)).2
  rw [pairwise_map] at across ⊢
  exact across.imp_of_mem fun {p q} memP memQ => lift p memP q memQ

theorem mergedExactly_of_grouped (grouped : Grouped nodes groups)
    (disjoint : nodes.Pairwise fun a b => ∀ id ∈ a.serviceIds, id ∉ b.serviceIds) :
    MergedExactly nodes groups := by
  have services := fun id => (mem_flatMap.symm.trans grouped.mem_services : (∃ g ∈ groups,
    id ∈ g.serviceIds) ↔ _)
  obtain ⟨⟨parts, rfl, perm, holds⟩, sizes⟩ := grouped
  refine ⟨?_, services, ?_, ?_, sizes⟩
  · refine pairwise_of_parts (fun {a b} apart id there here => apart id here there) disjoint perm ?_
    intro p memP q memQ apart id here there
    obtain ⟨a, memA, inA⟩ := ((holds p memP).services id).mp here
    obtain ⟨b, memB, inB⟩ := ((holds q memQ).services id).mp there
    exact apart a memA b memB id inA inB
  · exact ⟨parts, rfl, perm, fun p mem => ⟨(holds p mem).nonempty, (holds p mem).leaves⟩⟩
  · intro distinct
    rw [List.Nodup, pairwise_map] at distinct
    refine pairwise_of_parts (fun {a b} ne same => ne same.symm) distinct perm ?_
    intro p memP q memQ apart c here there
    obtain ⟨a, memA, rfl⟩ := ((holds p memP).leaves c).mp here
    obtain ⟨b, memB, same⟩ := ((holds q memQ).leaves _).mp there
    exact apart a memA b memB same.symm

theorem GoesOn.turn (aligned : Aligned root nodes s cells) (turn : mergeTurn s = .inl s')
    (large : minGroupSize ≤ g.serviceIds.length) (on : GoesOn g s.groups) : GoesOn g s'.groups := by
  obtain ⟨cells', aligned', merges⟩ := merges_of_mergeTurn aligned turn
  obtain ⟨source, target, rest, small, before, after⟩ := merges.merged
  obtain ⟨h, mem, leaves, more, services⟩ := on
  rw [aligned.groups] at mem
  obtain ⟨c, inside, rfl⟩ := mem_map.mp mem
  rw [aligned'.groups]
  rcases mem_cons.mp (before.mem_iff.mp inside) with rfl | inside
  · rw [services, length_append] at small
    omega
  rcases mem_cons.mp inside with rfl | inside
  · obtain ⟨added, same⟩ := exists_absorb source.group c.group
    refine ⟨_, mem_map_of_mem (after.mem_iff.mpr mem_cons_self), ?_, more ++ added, ?_⟩
    · exact leaves.trans Finset.subset_union_left
    · rw [← append_assoc, ← services]
      exact same
  · exact ⟨_, mem_map_of_mem (after.mem_iff.mpr (mem_cons_of_mem _ inside)), leaves, more, services⟩

theorem loop_of_mergeReached (rooted : Rooted tree root nodes) {fuel : Nat}
    (merged : ∀ more, fuel ≤ more → mergeSmallGroups tree more nodes = some groups)
    (reached : MergeReached tree nodes s) :
    (∃ cells, Aligned root nodes s cells) ∧ ∃ fuel, loop mergeTurn fuel s = some groups := by
  induction reached with
  | @start k paths some_node found =>
    obtain ⟨j, paths', all, length, heads⟩ := exists_paths rooted
    have later : (nodes.mapM fun node => tree.ancestors (max k j) node.categoryId) = some paths :=
      mapM_mono (fun node path => ancestors_mono (Nat.le_max_left k j)) found
    rw [all _ (Nat.le_max_right k j)] at later
    obtain rfl := Option.some.inj later
    refine ⟨aligned_start length heads, max fuel j, ?_⟩
    have done := merged _ (Nat.le_max_left fuel j)
    rw [mergeSmallGroups, if_neg fun empty => some_node (isEmpty_iff.mp empty),
      all _ (Nat.le_max_right fuel j), Option.bind_some] at done
    exact done
  | @turn s s' _ next ih =>
    obtain ⟨⟨cells, aligned⟩, k, done⟩ := ih
    obtain ⟨cells', aligned', -⟩ := merges_of_mergeTurn aligned next
    refine ⟨⟨cells', aligned'⟩, ?_⟩
    cases k with
    | zero => cases done
    | succ k =>
      rw [loop_next next] at done
      exact ⟨k, done⟩

/-- The merging ends with exact groups, and a large group goes into no other one. -/
theorem mergeSmallGroups_exact (rooted : Rooted tree root nodes)
    (disjoint : nodes.Pairwise fun a b => ∀ id ∈ a.serviceIds, id ∉ b.serviceIds) :
    ∃ fuel groups, (∀ more, fuel ≤ more → mergeSmallGroups tree more nodes = some groups) ∧
      MergedExactly nodes groups ∧
      ∀ s, MergeReached tree nodes s → ∀ g ∈ s.groups, minGroupSize ≤ g.serviceIds.length →
        GoesOn g groups := by
  obtain ⟨fuel, groups, merged, grouped⟩ := mergeSmallGroups_spec rooted
  refine ⟨fuel, groups, merged, mergedExactly_of_grouped grouped disjoint, ?_⟩
  intro s reached g mem large
  obtain ⟨⟨cells, aligned⟩, k, done⟩ := loop_of_mergeReached rooted merged reached
  refine loop_post (fun s => (∃ cells, Aligned root nodes s cells) ∧ GoesOn g s.groups) (GoesOn g) ?_ ?_
    ⟨⟨cells, aligned⟩, g, mem, Finset.Subset.refl _, [], (List.append_nil _).symm⟩ done
  · rintro s s' ⟨⟨cells, aligned⟩, on⟩ turn
    obtain ⟨cells', aligned', -⟩ := merges_of_mergeTurn aligned turn
    exact ⟨⟨cells', aligned'⟩, on.turn aligned turn large⟩
  · rintro s groups ⟨⟨cells, aligned⟩, on⟩ turn
    obtain ⟨rfl, -⟩ := large_of_mergeTurn aligned turn
    exact on

end Exact

namespace Sample

/-- The root has the child `a`. -/
def twoLevels : TreeIndex := TreeIndex.new (OrderedMap.empty.insertAll [(rootId, ⟨["a"], []⟩), ("a", ⟨[], []⟩)])

/-- As many ids as make a large group, of one character each. -/
def idsFrom (n : Nat) : List String :=
  (List.range minGroupSize).map fun i => String.singleton (Char.ofNat (n + i))

/-- Of two large nodes of one category neither is merged, and both groups have the category. -/
theorem category_in_two_groups :
    Rooted twoLevels rootId [⟨"a", idsFrom 40⟩, ⟨"a", idsFrom 80⟩] ∧
    ([⟨"a", idsFrom 40⟩, ⟨"a", idsFrom 80⟩] : List TerminalNode).Pairwise
      (fun a b => ∀ id ∈ a.serviceIds, id ∉ b.serviceIds) ∧
    ∃ g h : ServiceGroup,
      mergeSmallGroups twoLevels 3 [⟨"a", idsFrom 40⟩, ⟨"a", idsFrom 80⟩] = some [g, h] ∧
        "a" ∈ g.leafIds ∧ "a" ∈ h.leafIds := by
  refine ⟨?_, ?_, ⟨{"a"}, idsFrom 40⟩, ⟨{"a"}, idsFrom 80⟩, rfl, ?_, ?_⟩
  · intro n mem
    refine ⟨3, [rootId, "a"], ?_, rfl⟩
    rcases List.mem_pair.mp mem with rfl | rfl
    · rfl
    · rfl
  · decide +kernel
  · exact Finset.mem_singleton_self _
  · exact Finset.mem_singleton_self _

/-- A small node goes into the one of its parent. -/
theorem merged_into_root : ∃ groups, (∃ fuel, mergeSmallGroups twoLevels fuel
      [⟨"a", ["s", "t"]⟩, ⟨rootId, ["u"]⟩] = some groups) ∧
    MergedExactly [⟨"a", ["s", "t"]⟩, ⟨rootId, ["u"]⟩] groups := by
  have rooted : Rooted twoLevels rootId [⟨"a", ["s", "t"]⟩, ⟨rootId, ["u"]⟩] := by
    intro n mem
    rcases List.mem_pair.mp mem with rfl | rfl
    · exact ⟨3, [rootId, "a"], rfl, rfl⟩
    · exact ⟨2, [rootId], rfl, rfl⟩
  obtain ⟨fuel, groups, merged, exact_, -⟩ := mergeSmallGroups_exact rooted (by decide)
  exact ⟨groups, ⟨fuel, merged fuel (Nat.le_refl fuel)⟩, exact_⟩

end Sample

end AgentProtocols.Search
