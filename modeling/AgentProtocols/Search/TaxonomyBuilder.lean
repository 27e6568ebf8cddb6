import AgentProtocols.Lib.Runs
import AgentProtocols.Search.TaxonomyWalks

/-!
Builds of a taxonomy. What the model says, the files and the cancellation are in `BuildEnv`; a build
starts from a taxonomy that an earlier one saved, complete or not (`Reached`).

* `acyclic_splitCategories` — a split keeps the taxonomy acyclic.
* `runBfs_ends` — with a bound on the depth the queue runs empty.
* `builds_end` — every taxonomy that is saved is acyclic, and walks and builds over it end.
-/

namespace AgentProtocols.Search

open Lib OrderedMap

/-! ### Splitting a category -/

structure CategoryInfo where
  name : Option String := none
  description : Option String := none
  boundary : Option String := none
  decisionRule : Option String := none

structure SubcategoryDef where
  name : String
  description : String
  boundary : String
  decisionRule : String

structure Assignment where
  categoryIds : List String
  reasoning : String
deriving DecidableEq

abbrev Assignments := OrderedMap String Assignment

structure NodeSplitResult where
  subcategories : OrderedMap String SubcategoryDef
  assignments : Assignments
  unclassifiedServiceIds : List String

def sortIds (ids : List String) : List String := ids.insertionSort (· ≤ ·)

@[simp] theorem mem_sortIds {id : String} {ids : List String} : id ∈ sortIds ids ↔ id ∈ ids :=
  (List.perm_insertionSort _ _).mem_iff

namespace NodeSplitResult

variable (result : NodeSplitResult)

def subIds : List String := sortIds result.subcategories.keys

/-- The services assigned to a subcategory, each as often as its assignment names it. -/
def subServices (subId : String) : List String :=
  result.assignments.entries.flatMap fun e => (e.2.categoryIds.filter (· = subId)).map fun _ => e.1

end NodeSplitResult

/-- The category with its new children, and the children. -/
def splitCategories (cats : Categories) (nodeId : String) (result : NodeSplitResult) : Categories :=
  (cats.insert nodeId ⟨result.subIds, sortIds result.unclassifiedServiceIds⟩).insertAll
    (result.subIds.map fun subId => (subId, ⟨[], sortIds (result.subServices subId)⟩))

def SubcategoryDef.info (d : SubcategoryDef) : CategoryInfo where
  name := some d.name
  description := some d.description
  boundary := if d.boundary.isEmpty then none else some d.boundary
  decisionRule := if d.decisionRule.isEmpty then none else some d.decisionRule

section Split

variable {cats : Categories} {nodeId id : String} {result : NodeSplitResult}

theorem get?_splitCategories : (splitCategories cats nodeId result).get? id =
    if id ∈ result.subIds then some ⟨[], sortIds (result.subServices id)⟩
    else if id = nodeId then some ⟨result.subIds, sortIds result.unclassifiedServiceIds⟩
    else cats.get? id := by
  rw [splitCategories]
  split
  · rename_i mem
    refine get?_insertAll_of_mem (List.mem_map.mpr ⟨id, mem, rfl⟩) ?_
    intro row there same
    obtain ⟨subId, -, rfl⟩ := List.mem_map.mp there
    subst same
    rfl
  · rename_i other
    rw [get?_insertAll_of_not_mem, get?_insert]
    rintro row there rfl
    obtain ⟨subId, mem, rfl⟩ := List.mem_map.mp there
    exact other mem

theorem childrenOf_splitCategories : (splitCategories cats nodeId result).childrenOf id =
    if id ∈ result.subIds then [] else if id = nodeId then result.subIds else cats.childrenOf id := by
  rw [Categories.childrenOf, get?_splitCategories]
  split
  · rfl
  · split
    · rfl
    · rfl

/-- A split keeps the taxonomy acyclic, whatever the ids of the subcategories. -/
theorem acyclic_splitCategories (acyclic : Acyclic cats.childrenOf) :
    Acyclic (splitCategories cats nodeId result).childrenOf := by
  refine acyclic.redirect nodeId ?_ ?_
  · intro id other
    rw [childrenOf_splitCategories]
    split
    · exact List.nil_subset _
    · exact List.Subset.refl _
  · intro id child
    rw [childrenOf_splitCategories]
    rw [childrenOf_splitCategories, if_pos rfl] at child
    split at child
    · cases child
    · exact if_pos child

end Split

/-! ### The builder -/

/-- `taxonomy.json`. -/
structure TaxonomyFile where
  categories : Categories
  buildStatus : Option String

/-- `TaxonomyBuilder`, with what the present build has written to `taxonomy.json`. -/
structure TaxonomyBuilder where
  taxonomy : TaxonomyFile
  classData : OrderedMap String CategoryInfo
  servicesIndex : OrderedMap String ServiceRecord
  allAssignments : Assignments
  saved : List TaxonomyFile

inductive BuildError where
  | cancelled
  | io (message : String)
  | split (message : String)

/-- Where a build looks at its cancellation. -/
inductive CheckPoint where
  | loading
  | splitting
  | turn (n : Nat)
  | split
  | crossDomain

inductive SavePoint where
  | started
  | turn (n : Nat)
  | split
  | complete

/-- `save_output` writes four files, `taxonomy.json` first. -/
inductive SaveReply where
  | saved
  | failed (taxonomyWritten : Bool) (message : String)

/-- What a build meets: cancellation, model, files and assigner. -/
structure BuildEnv where
  cancelled : CheckPoint → Bool
  splitNode : Nat → String → CategoryInfo → List ServiceRecord → Bool → Except String NodeSplitResult
  save : SavePoint → SaveReply
  assign : TaxonomyFile → OrderedMap String CategoryInfo → OrderedMap String ServiceRecord →
    OrderedMap String (List String)

def indexServices (services : List ServiceRecord) : OrderedMap String ServiceRecord :=
  OrderedMap.empty.insertAll (services.map fun s => (s.id, s))

namespace TaxonomyBuilder

variable (b : TaxonomyBuilder)

def new : TaxonomyBuilder := ⟨⟨.empty, none⟩, .empty, .empty, .empty, []⟩

def initTaxonomy : TaxonomyBuilder :=
  { b with
    taxonomy := ⟨OrderedMap.empty.insert rootId ⟨[], sortIds b.servicesIndex.keys⟩, none⟩
    classData := OrderedMap.empty.insert rootId
      { name := some "All API Services"
        description := some "Root node containing all API services across all functional domains" }
    allAssignments := .empty }

def applySplitResult (nodeId : String) (result : NodeSplitResult) : TaxonomyBuilder :=
  { b with
    taxonomy := { b.taxonomy with categories := splitCategories b.taxonomy.categories nodeId result }
    classData := b.classData.insertAll
      (result.subIds.filterMap fun subId => (result.subcategories.get? subId).map fun d => (subId, d.info)) }

/-- The result of a split is applied, and `all_assignments` extended. -/
def record (nodeId : String) (result : NodeSplitResult) : TaxonomyBuilder :=
  { b.applySplitResult nodeId result with
    allAssignments := b.allAssignments.insertAll result.assignments.entries }

def saveOutput : SaveReply → TaxonomyBuilder × Except BuildError Unit
  | .saved => ({ b with saved := b.saved ++ [b.taxonomy] }, .ok ())
  | .failed taxonomyWritten message =>
    (if taxonomyWritten then { b with saved := b.saved ++ [b.taxonomy] } else b, .error (.io message))

def nodeServices (nodeId : String) : List ServiceRecord :=
  (b.taxonomy.categories.servicesOf nodeId).filterMap b.servicesIndex.get?

/-- The subcategories that are queued after a split. -/
def queued (config : AutoHierarchicalConfig) (subIds : List String) (childDepth : UInt32) :
    List (String × UInt32) :=
  (subIds.filter fun subId =>
    config.maxServiceSize < (b.taxonomy.categories.servicesOf subId).length &&
      config.maxDepth.all (childDepth < ·)).map fun subId => (subId, childDepth)

end TaxonomyBuilder

/-! ### Breadth first -/

/-- The loop of `run_bfs`. -/
structure BfsState where
  builder : TaxonomyBuilder
  queue : List (String × UInt32)
  totalSplit : Nat
  turn : Nat

/-- A turn of `run_bfs`. -/
def bfsTurn (env : BuildEnv) (config : AutoHierarchicalConfig) (s : BfsState) :
    BfsState ⊕ (TaxonomyBuilder × Except BuildError Nat) :=
  match s.queue with
  | [] => .inr (s.builder, .ok s.totalSplit)
  | (nodeId, depth) :: rest =>
    if env.cancelled (.turn s.turn) then .inr (s.builder, .error .cancelled)
    else
      let nodeServices := s.builder.nodeServices nodeId
      if nodeServices.isEmpty then .inl { s with queue := rest, turn := s.turn + 1 }
      else
        let parentInfo := (s.builder.classData.get? nodeId).getD {}
        match env.splitNode s.turn nodeId parentInfo nodeServices (nodeId == rootId) with
        | .error message => .inr (s.builder, .error (.split message))
        | .ok result =>
          match (s.builder.record nodeId result).saveOutput (env.save (.turn s.turn)) with
          | (b, .error e) => .inr (b, .error e)
          | (b, .ok _) =>
            .inl
              { builder := b
                queue := rest ++ b.queued config result.subIds (depth + 1)
                totalSplit := s.totalSplit + 1
                turn := s.turn + 1 }

def runBfs (env : BuildEnv) (config : AutoHierarchicalConfig) (fuel : Nat)
    (queue : List (String × UInt32)) (b : TaxonomyBuilder) :
    Option (TaxonomyBuilder × Except BuildError Nat) :=
  loop (bfsTurn env config) fuel ⟨b, queue, 0, 0⟩

/-! ### The phases of a build -/

namespace TaxonomyBuilder

variable (env : BuildEnv) (config : AutoHierarchicalConfig) (fuel : Nat) (b : TaxonomyBuilder)

/-- The file with another status. -/
def withStatus (status : String) : TaxonomyBuilder :=
  { b with taxonomy := { b.taxonomy with buildStatus := some status } }

/-- The end of the splitting phase. -/
def finishBfs (totalSplit : Nat) : TaxonomyBuilder × Except BuildError Nat :=
  if env.cancelled .split then (b, .error .cancelled)
  else
    match (b.withStatus "cross_domain").saveOutput (env.save .split) with
    | (b, .error e) => (b, .error e)
    | (b, .ok _) => (b, .ok totalSplit)

def bfsPhase : Option (TaxonomyBuilder × Except BuildError Nat) :=
  match (b.withStatus "bfs").saveOutput (env.save .started) with
  | (b, .error e) => some (b, .error e)
  | (b, .ok _) =>
    (b.taxonomy.categories.findPendingNodes config fuel).bind fun queue =>
      (runBfs env config fuel queue b).map fun ran =>
        match ran.2 with
        | .error e => (ran.1, .error e)
        | .ok totalSplit => ran.1.finishBfs env totalSplit

def applyCrossDomain : TaxonomyBuilder :=
  { b with taxonomy := { b.taxonomy with
      categories := (env.assign b.taxonomy b.classData b.servicesIndex).entries.foldl
        (fun cats e => cats.linkAll e.1 e.2) b.taxonomy.categories } }

/-- The phases after the splitting. -/
def finish (totalSplit : Nat) : Option (TaxonomyBuilder × Except BuildError (Nat × BuildSummary)) :=
  if env.cancelled .crossDomain then some (b, .error .cancelled)
  else
    let assigned :=
      if config.enableCrossDomain && b.taxonomy.buildStatus != some "complete" then
        b.applyCrossDomain env
      else b
    match (assigned.withStatus "complete").saveOutput (env.save .complete) with
    | (b, .error e) => some (b, .error e)
    | (b, .ok _) =>
      (b.taxonomy.categories.summarize fuel).map fun summary => (b, .ok (totalSplit, summary))

/-- The splitting phase is left out where it was complete before. -/
def split : Option (TaxonomyBuilder × Except BuildError Nat) :=
  if b.taxonomy.buildStatus == some "cross_domain" || b.taxonomy.buildStatus == some "complete" then
    some (b, .ok 0)
  else b.bfsPhase env config fuel

/-- `build` from the services on, with the taxonomy that the builder has or has loaded. -/
def build (services : Except String (List ServiceRecord)) :
    Option (TaxonomyBuilder × Except BuildError (Nat × BuildSummary)) :=
  let b := { b with saved := [] }
  if env.cancelled .loading then some (b, .error .cancelled)
  else
    match services with
    | .error message => some (b, .error (.io message))
    | .ok services =>
      let indexed := { b with servicesIndex := indexServices services }
      let b := if indexed.taxonomy.categories.entries.isEmpty then indexed.initTaxonomy else indexed
      if env.cancelled .splitting then some (b, .error .cancelled)
      else
        (b.split env config fuel).bind fun done =>
          match done.2 with
          | .error e => some (done.1, .error e)
          | .ok totalSplit => done.1.finish env config fuel totalSplit

end TaxonomyBuilder

inductive Reached : TaxonomyFile → Prop where
  | new : Reached TaxonomyBuilder.new.taxonomy
  | kept {env : BuildEnv} {config : AutoHierarchicalConfig} {fuel : Nat} {b b' : TaxonomyBuilder}
      {services : Except String (List ServiceRecord)}
      {answer : Except BuildError (Nat × BuildSummary)} (before : Reached b.taxonomy)
      (built : b.build env config fuel services = some (b', answer)) : Reached b'.taxonomy
  | saved {env : BuildEnv} {config : AutoHierarchicalConfig} {fuel : Nat} {b b' : TaxonomyBuilder}
      {services : Except String (List ServiceRecord)}
      {answer : Except BuildError (Nat × BuildSummary)} {t : TaxonomyFile}
      (before : Reached b.taxonomy) (built : b.build env config fuel services = some (b', answer))
      (mem : t ∈ b'.saved) : Reached t

/-! ### Every taxonomy is acyclic -/

namespace TaxonomyBuilder

/-- The taxonomy of the builder is acyclic, and so are those it has saved. -/
structure Sound (b : TaxonomyBuilder) : Prop where
  acyclic : Acyclic b.taxonomy.categories.childrenOf
  saved : ∀ t ∈ b.saved, Acyclic t.categories.childrenOf

variable {env : BuildEnv} {config : AutoHierarchicalConfig} {fuel : Nat} {b b' : TaxonomyBuilder}

variable (sound : b.Sound)

include sound

theorem Sound.withStatus (status : String) : (b.withStatus status).Sound :=
  ⟨sound.acyclic, sound.saved⟩

theorem Sound.saveOutput (reply : SaveReply) : (b.saveOutput reply).1.Sound := by
  have written : ({ b with saved := b.saved ++ [b.taxonomy] } : TaxonomyBuilder).Sound :=
    ⟨sound.acyclic, forall_mem_concat sound.saved sound.acyclic⟩
  cases reply with
  | saved => exact written
  | failed taxonomyWritten message =>
    cases taxonomyWritten with
    | true => exact written
    | false => exact sound

theorem Sound.record (nodeId : String) (result : NodeSplitResult) :
    (b.record nodeId result).Sound :=
  ⟨acyclic_splitCategories sound.acyclic, sound.saved⟩

theorem Sound.initTaxonomy : b.initTaxonomy.Sound := by
  refine ⟨acyclic_of_nil fun id => ?_, sound.saved⟩
  change (((OrderedMap.empty.insert rootId _).get? id).map CategoryNode.children).getD [] = []
  rw [get?_insert]
  split <;> rfl

omit sound

theorem bfsTurn_next {s s' : BfsState} (next : bfsTurn env config s = .inl s') :
    ∃ nodeId depth rest, s.queue = (nodeId, depth) :: rest ∧
      (s' = { s with queue := rest, turn := s.turn + 1 } ∨
        ∃ result reply, s'.builder = ((s.builder.record nodeId result).saveOutput reply).1 ∧
          s'.queue = rest ++ s'.builder.queued config result.subIds (depth + 1)) := by
  rw [bfsTurn] at next
  split at next
  · cases next
  · rename_i nodeId depth rest queue
    refine ⟨nodeId, depth, rest, queue, ?_⟩
    split at next
    · cases next
    · dsimp only at next
      split at next
      · exact .inl (Sum.inl.inj next).symm
      · split at next
        · cases next
        · rename_i result _
          split at next
          · cases next
          · rename_i b _ written
            cases next
            exact .inr ⟨result, _, by rw [written], rfl⟩

variable {out : TaxonomyBuilder × Except BuildError Nat}

theorem bfsTurn_leave {s : BfsState} (leave : bfsTurn env config s = .inr out) : out.1 = s.builder ∨
      ∃ nodeId result reply, out.1 = ((s.builder.record nodeId result).saveOutput reply).1 := by
  rw [bfsTurn] at leave
  split at leave
  · cases leave
    exact .inl rfl
  · split at leave
    · cases leave
      exact .inl rfl
    · dsimp only at leave
      split at leave
      · cases leave
      · split at leave
        · cases leave
          exact .inl rfl
        · split at leave
          · rename_i b e written
            cases leave
            exact .inr ⟨_, _, _, by rw [written]⟩
          · cases leave

include sound

theorem Sound.runBfs {queue : List (String × UInt32)}
    (ran : runBfs env config fuel queue b = some out) : out.1.Sound := by
  refine loop_post (fun s => s.builder.Sound) (fun out => out.1.Sound) ?_ ?_ sound ran
  · intro s s' sound next
    obtain ⟨nodeId, depth, rest, -, rfl | ⟨result, reply, same, -⟩⟩ := bfsTurn_next next
    · exact sound
    · rw [same]
      exact (sound.record nodeId result).saveOutput reply
  · intro s out sound leave
    rcases bfsTurn_leave leave with same | ⟨nodeId, result, reply, same⟩
    · rw [same]
      exact sound
    · rw [same]
      exact (sound.record nodeId result).saveOutput reply

theorem Sound.finishBfs (totalSplit : Nat) : (b.finishBfs env totalSplit).1.Sound := by
  rw [TaxonomyBuilder.finishBfs]
  have written := (sound.withStatus "cross_domain").saveOutput (env.save .split)
  split
  · exact sound
  · split
    · rename_i same
      rw [same] at written
      exact written
    · rename_i same
      rw [same] at written
      exact written

theorem Sound.bfsPhase (ran : b.bfsPhase env config fuel = some out) : out.1.Sound := by
  have written := (sound.withStatus "bfs").saveOutput (env.save .started)
  rw [TaxonomyBuilder.bfsPhase] at ran
  split at ran
  · rename_i same
    rw [same] at written
    cases ran
    exact written
  · rename_i same
    rw [same] at written
    obtain ⟨queue, -, ran⟩ := Option.bind_eq_some_iff.mp ran
    obtain ⟨done, looped, rfl⟩ := Option.map_eq_some_iff.mp ran
    have after := written.runBfs looped
    split
    · exact after
    · exact after.finishBfs _

omit sound

end TaxonomyBuilder

namespace Categories

variable {cats : Categories} {cat : String}

theorem childrenOf_linkAll {id : String} {assigned : List String} :
    (linkAll cats id assigned).childrenOf cat = cats.childrenOf cat := by
  induction assigned generalizing cats with
  | nil => rfl
  | cons target rest ih =>
    change (linkAll (link cats id target) id rest).childrenOf cat = _
    rw [ih, link]
    split
    · rfl
    · rename_i node found
      rw [childrenOf, get?_insert]
      split
      · rename_i same
        rw [same, childrenOf, found]
        rfl
      · rfl

end Categories

namespace TaxonomyBuilder

variable {env : BuildEnv} {config : AutoHierarchicalConfig} {fuel : Nat} {b b' : TaxonomyBuilder}

theorem Sound.applyCrossDomain (sound : b.Sound) : (b.applyCrossDomain env).Sound := by
  refine ⟨?_, sound.saved⟩
  have kept : ∀ (rows : List (String × List String)) (cats : Categories),
      Acyclic cats.childrenOf → Acyclic (rows.foldl (fun cats e => cats.linkAll e.1 e.2) cats).childrenOf := by
    intro rows
    induction rows with
    | nil => exact fun cats acyclic => acyclic
    | cons row rows ih =>
      intro cats acyclic
      refine ih _ (acyclic.of_subset fun cat => ?_)
      rw [Categories.childrenOf_linkAll]
      exact List.Subset.refl _
  exact kept _ _ sound.acyclic

theorem Sound.finish (sound : b.Sound) {totalSplit : Nat}
    {out : TaxonomyBuilder × Except BuildError (Nat × BuildSummary)}
    (ran : b.finish env config fuel totalSplit = some out) : out.1.Sound := by
  rw [TaxonomyBuilder.finish] at ran
  split at ran
  · cases ran
    exact sound
  · dsimp only at ran
    have assigned : (if config.enableCrossDomain && b.taxonomy.buildStatus != some "complete" then
        b.applyCrossDomain env else b).Sound := by
      split
      · exact sound.applyCrossDomain
      · exact sound
    have written := (assigned.withStatus "complete").saveOutput (env.save .complete)
    split at ran
    · rename_i same
      rw [same] at written
      cases ran
      exact written
    · rename_i same
      rw [same] at written
      obtain ⟨summary, -, rfl⟩ := Option.map_eq_some_iff.mp ran
      exact written

theorem Sound.split (sound : b.Sound) {out : TaxonomyBuilder × Except BuildError Nat}
    (ran : b.split env config fuel = some out) : out.1.Sound := by
  rw [TaxonomyBuilder.split] at ran
  split at ran
  · cases ran
    exact sound
  · exact sound.bfsPhase ran

theorem sound_build (acyclic : Acyclic b.taxonomy.categories.childrenOf)
    {services : Except String (List ServiceRecord)}
    {out : TaxonomyBuilder × Except BuildError (Nat × BuildSummary)}
    (built : b.build env config fuel services = some out) : out.1.Sound := by
  have fresh : ({ b with saved := [] } : TaxonomyBuilder).Sound :=
    ⟨acyclic, fun t mem => absurd mem List.not_mem_nil⟩
  unfold build at built
  split at built
  · cases built
    exact fresh
  · split at built
    · cases built
      exact fresh
    · rename_i rows
      have started : ∀ indexed : TaxonomyBuilder, indexed.Sound →
          (if indexed.taxonomy.categories.entries.isEmpty then indexed.initTaxonomy else indexed).Sound := by
        intro indexed sound
        split
        · exact sound.initTaxonomy
        · exact sound
      have begun := started { b with saved := [], servicesIndex := indexServices rows } ⟨acyclic, fresh.saved⟩
      split at built
      · cases built
        exact begun
      · obtain ⟨done, ran, built⟩ := Option.bind_eq_some_iff.mp built
        have after := begun.split ran
        split at built
        · cases built
          exact after
        · exact after.finish built

end TaxonomyBuilder

theorem Reached.acyclic {t : TaxonomyFile} (reached : Reached t) : Acyclic t.categories.childrenOf := by
  induction reached with
  | new => exact acyclic_of_nil fun id => rfl
  | kept before built ih => exact (TaxonomyBuilder.sound_build ih built).acyclic
  | saved before built mem ih => exact (TaxonomyBuilder.sound_build ih built).saved _ mem

/-! ### Every build ends -/

section Ends

variable {env : BuildEnv} {config : AutoHierarchicalConfig} {b : TaxonomyBuilder} {d : UInt32}

theorem depth_of_queued {subIds : List String} {childDepth : UInt32} (bounded : config.maxDepth = some d)
    {item : String × UInt32} (mem : item ∈ b.queued config subIds childDepth) :
    item.2 = childDepth ∧ childDepth < d := by
  obtain ⟨subId, kept, rfl⟩ := List.mem_map.mp mem
  have large := (List.mem_filter.mp kept).2
  rw [bounded, Bool.and_eq_true_iff] at large
  exact ⟨rfl, of_decide_eq_true large.2⟩

theorem depth_of_pending {cats : Categories} {fuel : Nat} {queue : List (String × UInt32)}
    (bounded : config.maxDepth = some d) (found : cats.findPendingNodes config fuel = some queue) :
    ∀ item ∈ queue, item.2 < d := by
  refine preorder_post (fun queue => ∀ item ∈ queue, item.2 < d) ?_
    (fun item mem => absurd mem List.not_mem_nil) found
  intro id depth queue shallow item mem
  rw [Categories.queuePending] at mem
  split at mem
  · rename_i large
    rw [bounded, Bool.and_eq_true_iff] at large
    have below : depth < d := of_decide_eq_true large.2
    exact forall_mem_concat shallow below item mem
  · exact shallow item mem

/-- A category of the queue makes way for subcategories that are deeper by one, down to the bound. -/
theorem runBfs_ends (env : BuildEnv) (b : TaxonomyBuilder) (bounded : config.maxDepth = some d) {queue : List (String × UInt32)}
    (shallow : ∀ item ∈ queue, item.2 < d) : ∃ fuel out, runBfs env config fuel queue b = some out := by
  let deeper : String × UInt32 → String × UInt32 → Prop := fun below above =>
    d.toNat - below.2.toNat < d.toNat - above.2.toNat
  have wf : WellFounded deeper := (measure fun item : String × UInt32 => d.toNat - item.2.toNat).wf
  refine loop_ends _ (InvImage.wf BfsState.queue (wellFounded_replaces wf))
    (fun s => ∀ item ∈ s.queue, item.2 < d) ?_ shallow
  intro s s' shallow next
  obtain ⟨nodeId, depth, rest, queue, rfl | ⟨result, reply, -, queue'⟩⟩ :=
    TaxonomyBuilder.bfsTurn_next next
  · refine ⟨fun item mem => shallow item ?_, (nodeId, depth), rest, [], ?_, ?_, ?_⟩
    · rw [queue]
      exact List.mem_cons_of_mem _ mem
    · rw [queue]
    · rw [List.append_nil]
    · exact fun item mem => absurd mem List.not_mem_nil
  · have here : depth < d := shallow (nodeId, depth) (queue ▸ List.mem_cons_self)
    refine ⟨fun item mem => ?_, (nodeId, depth), rest, _, ?_, List.Perm.of_eq queue', ?_⟩
    · rw [queue'] at mem
      rcases List.mem_append.mp mem with old | new_
      · refine shallow item ?_
        rw [queue]
        exact List.mem_cons_of_mem _ old
      · obtain ⟨same, below⟩ := depth_of_queued bounded new_
        rw [same]
        exact below
    · rw [queue]
    · intro item mem
      obtain ⟨same, -⟩ := depth_of_queued bounded mem
      -- the depth does not overflow below the bound
      have exact_ : (depth + 1).toNat = depth.toNat + 1 := by
        rw [UInt32.toNat_add, UInt32.toNat_one, Nat.mod_eq_of_lt]
        exact Nat.lt_of_le_of_lt (Nat.succ_le_of_lt (UInt32.lt_iff_toNat_lt.mp here)) d.toNat_lt
      change d.toNat - item.2.toNat < d.toNat - depth.toNat
      rw [same]
      have := UInt32.lt_iff_toNat_lt.mp here
      omega

namespace TaxonomyBuilder

theorem bfsPhase_ends (env : BuildEnv) (sound : b.Sound) (bounded : config.maxDepth = some d) :
    ∃ fuel out, b.bfsPhase env config fuel = some out := by
  have written := (sound.withStatus "bfs").saveOutput (env.save .started)
  cases saved : (b.withStatus "bfs").saveOutput (env.save .started) with
  | mk b₁ reply =>
    rw [saved] at written
    cases reply with
    | error e =>
      refine ⟨0, (b₁, .error e), ?_⟩
      rw [bfsPhase, saved]
    | ok _ =>
      obtain ⟨m, queue, found⟩ := Categories.scanPending_ends written.acyclic config rootId 0 []
      obtain ⟨n, out, ran⟩ := runBfs_ends env b₁ bounded (depth_of_pending bounded found)
      have found' : b₁.taxonomy.categories.findPendingNodes config (max m n) = some queue :=
        preorder_mono (Nat.le_max_left m n) found
      have ran' : runBfs env config (max m n) queue b₁ = some out :=
        loop_mono (Nat.le_max_right m n) ran
      refine ⟨max m n, Option.isSome_iff_exists.mp ?_⟩
      rw [bfsPhase, saved]
      dsimp only
      rw [found', Option.bind_some, ran']
      rfl

theorem bfsPhase_mono {m n : Nat} (le : m ≤ n) {out : TaxonomyBuilder × Except BuildError Nat}
    (ran : b.bfsPhase env config m = some out) : b.bfsPhase env config n = some out := by
  rw [bfsPhase] at ran ⊢
  split at ran
  · exact ran
  · obtain ⟨queue, found, ran⟩ := Option.bind_eq_some_iff.mp ran
    obtain ⟨done, looped, rfl⟩ := Option.map_eq_some_iff.mp ran
    refine Option.bind_eq_some_iff.mpr ⟨queue, preorder_mono le found, ?_⟩
    exact Option.map_eq_some_iff.mpr ⟨done, loop_mono le looped, rfl⟩

theorem split_ends (env : BuildEnv) (sound : b.Sound) (bounded : config.maxDepth = some d) :
    ∃ fuel out, ∀ more, fuel ≤ more → b.split env config more = some out := by
  by_cases done : (b.taxonomy.buildStatus == some "cross_domain" ||
      b.taxonomy.buildStatus == some "complete") = true
  · exact ⟨0, (b, .ok 0), fun more _ => by rw [split, if_pos done]⟩
  · obtain ⟨fuel, out, ran⟩ := bfsPhase_ends env sound bounded
    exact ⟨fuel, out, fun more le => by rw [split, if_neg done, bfsPhase_mono le ran]⟩

theorem finish_ends (env : BuildEnv) (config : AutoHierarchicalConfig) (sound : b.Sound) (totalSplit : Nat) :
    ∃ fuel out, ∀ more, fuel ≤ more → b.finish env config more totalSplit = some out := by
  by_cases stop : env.cancelled .crossDomain = true
  · exact ⟨0, (b, .error .cancelled), fun more _ => by rw [finish, if_pos stop]⟩
  · have assigned : (if config.enableCrossDomain && b.taxonomy.buildStatus != some "complete" then
        b.applyCrossDomain env else b).Sound := by
      split
      · exact sound.applyCrossDomain
      · exact sound
    have written := (assigned.withStatus "complete").saveOutput (env.save .complete)
    cases saved : ((if config.enableCrossDomain && b.taxonomy.buildStatus != some "complete" then
        b.applyCrossDomain env else b).withStatus "complete").saveOutput (env.save .complete) with
    | mk b₁ reply =>
      rw [saved] at written
      cases reply with
      | error e =>
        refine ⟨0, (b₁, .error e), fun more _ => ?_⟩
        rw [finish, if_neg stop]
        dsimp only
        rw [saved]
      | ok _ =>
        obtain ⟨fuel, summary, done⟩ := Categories.summarize_ends written.acyclic
        refine ⟨fuel, (b₁, .ok (totalSplit, summary)), fun more le => ?_⟩
        rw [finish, if_neg stop]
        dsimp only
        rw [saved]
        dsimp only
        rw [Categories.summarize_mono le done]
        rfl

theorem build_ends (acyclic : Acyclic b.taxonomy.categories.childrenOf)
    (bounded : config.maxDepth = some d) (services : Except String (List ServiceRecord)) :
    ∃ fuel out, b.build env config fuel services = some out := by
  have fresh : ({ b with saved := [] } : TaxonomyBuilder).Sound :=
    ⟨acyclic, fun t mem => absurd mem List.not_mem_nil⟩
  by_cases stop : env.cancelled .loading = true
  · refine ⟨0, ({ b with saved := [] }, .error .cancelled), ?_⟩
    unfold build
    rw [if_pos stop]
  · cases services with
    | error message =>
      refine ⟨0, ({ b with saved := [] }, .error (.io message)), ?_⟩
      unfold build
      rw [if_neg stop]
    | ok rows =>
      -- the builder with its services, and with a root where it had no categories
      obtain ⟨begun, begun_eq⟩ : ∃ begun, begun =
          if b.taxonomy.categories.entries.isEmpty then
            ({ b with saved := [], servicesIndex := indexServices rows } : TaxonomyBuilder).initTaxonomy
          else { b with saved := [], servicesIndex := indexServices rows } := ⟨_, rfl⟩
      have sound : begun.Sound := by
        have indexed : ({ b with saved := [], servicesIndex := indexServices rows } :
            TaxonomyBuilder).Sound := ⟨acyclic, fresh.saved⟩
        rw [begun_eq]
        split
        · exact indexed.initTaxonomy
        · exact indexed
      have unfolded : ∀ fuel, b.build env config fuel (.ok rows) =
          if env.cancelled .splitting then some (begun, .error .cancelled)
          else (begun.split env config fuel).bind fun done =>
            match done.2 with
            | .error e => some (done.1, .error e)
            | .ok totalSplit => done.1.finish env config fuel totalSplit := by
        intro fuel
        rw [begun_eq]
        unfold build
        rw [if_neg stop]
      by_cases stop' : env.cancelled .splitting = true
      · refine ⟨0, (begun, .error .cancelled), ?_⟩
        rw [unfolded, if_pos stop']
      · obtain ⟨m, done, ran⟩ := split_ends env sound bounded
        have after := sound.split (ran m (Nat.le_refl m))
        obtain ⟨b₁, reply⟩ := done
        cases reply with
        | error e =>
          refine ⟨m, (b₁, .error e), ?_⟩
          rw [unfolded, if_neg stop', ran m (Nat.le_refl m)]
          rfl
        | ok totalSplit =>
          obtain ⟨n, out, finished⟩ := finish_ends env config after totalSplit
          refine ⟨max m n, out, ?_⟩
          rw [unfolded, if_neg stop', ran _ (Nat.le_max_left m n)]
          exact finished _ (Nat.le_max_right m n)

end TaxonomyBuilder

/-- Every taxonomy that a build leaves is acyclic, and walks and builds over it end. -/
theorem builds_end {t : TaxonomyFile} (reached : Reached t) :
    Acyclic t.categories.childrenOf ∧ WalksEnd t.categories ∧
      ∀ (env : BuildEnv) (config : AutoHierarchicalConfig) (d : UInt32) (b : TaxonomyBuilder)
        (services : Except String (List ServiceRecord)), config.maxDepth = some d → b.taxonomy = t →
        ∃ fuel out, b.build env config fuel services = some out := by
  have acyclic := reached.acyclic
  refine ⟨acyclic, .of_acyclic acyclic, fun env config d b services bounded same => ?_⟩
  rw [← same] at acyclic
  exact b.build_ends acyclic bounded services

end Ends

/-! A build in which the model names the root among the subcategories of one of its
subcategories. -/

namespace Sample

def subcategory : SubcategoryDef := ⟨"n", "d", "", ""⟩

def splitInto (ids : List String) (services : List String) : NodeSplitResult where
  subcategories := OrderedMap.empty.insertAll (ids.map fun id => (id, subcategory))
  assignments := OrderedMap.empty.insertAll (services.map fun s => (s, ⟨ids, ""⟩))
  unclassifiedServiceIds := []

/-- The root is split into `a`, and `a` into `b` and the root. -/
def env : BuildEnv where
  cancelled _ := false
  splitNode _ nodeId _ services _ :=
    .ok (splitInto (if nodeId = "a" then ["b", rootId] else ["a"]) (services.map ServiceRecord.id))
  save _ := .saved
  assign _ _ _ := .empty

def config : AutoHierarchicalConfig := ⟨1, some 2, true⟩

/-- After two splits the root is a child, and the taxonomy is acyclic all the same. -/
theorem root_below : ∃ t : TaxonomyFile, Reached t ∧ t.categories.childrenOf "a" = ["b", rootId] ∧
    t.categories.childrenOf rootId = [] ∧ Acyclic t.categories.childrenOf ∧ WalksEnd t.categories := by
  have built : ∃ b answer, TaxonomyBuilder.new.build env config 5 (.ok [⟨"s", "", none⟩, ⟨"t", "", none⟩]) =
      some (b, answer) ∧ b.taxonomy.categories.childrenOf "a" = ["b", rootId] ∧
      b.taxonomy.categories.childrenOf rootId = [] := ⟨_, _, rfl, rfl, rfl⟩
  obtain ⟨b, answer, built, a, root⟩ := built
  have reached : Reached b.taxonomy := .kept .new built
  obtain ⟨acyclic, ends, -⟩ := builds_end reached
  exact ⟨b.taxonomy, reached, a, root, acyclic, ends⟩

end Sample

end AgentProtocols.Search
