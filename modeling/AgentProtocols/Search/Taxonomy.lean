import Mathlib.Data.List.Sort
import AgentProtocols.Lib.OrderedMap

/-!
Services and the categories that list them.

* `listed_linkAll`, `listed_placeUnderRoot`, `listed_removeFrom` — what the edits list.
* `WellFormed.linkAll`, `WellFormed.placeUnderRoot`, `WellFormed.removeFrom` — they keep children in
  the map and list no id twice.
-/

namespace AgentProtocols.Search

open Lib OrderedMap

structure ServiceRecord where
  id : String
  name : String := ""
  description : Option String := none
deriving DecidableEq

/-- The id a service is entered under: its own, or its name. -/
def ServiceRecord.key (service : ServiceRecord) : String :=
  if service.id.isEmpty then service.name else service.id

structure CategoryNode where
  children : List String := []
  services : List String := []
deriving DecidableEq

/-- `TaxonomyFile::categories`. -/
abbrev Categories := OrderedMap String CategoryNode

def rootId : String := "root"

/-! ### Edits of the categories -/

/-- The ids of the list in order, with one more unless it is there. -/
def pushSorted (services : List String) (id : String) : List String :=
  if id ∈ services then services else (services ++ [id]).insertionSort (· ≤ ·)

namespace Categories

/-- `TaxonomyFile::children`. -/
def childrenOf (cats : Categories) (cat : String) : List String :=
  ((cats.get? cat).map CategoryNode.children).getD []

/-- `contains_key` on the categories. -/
def has (cats : Categories) (cat : String) : Bool := (cats.get? cat).isSome

/-- List the id in a category that is there. -/
def link (cats : Categories) (id cat : String) : Categories :=
  match cats.get? cat with
  | none => cats
  | some node => cats.insert cat { node with services := pushSorted node.services id }

/-- The last section of `add_service`. -/
def linkAll (cats : Categories) (id : String) (assigned : List String) : Categories :=
  assigned.foldl (fun cats cat => link cats id cat) cats

def placeUnderRoot (cats : Categories) (id : String) : Categories :=
  let root := (cats.get? rootId).getD {}
  cats.insert rootId { root with services := pushSorted root.services id }

/-- `remove_service` on the categories: the first occurrence in each node goes. -/
def removeFrom (cats : Categories) (id : String) : Categories :=
  cats.mapValues fun node => { node with services := node.services.erase id }

def Listed (cats : Categories) (id : String) : Prop :=
  ∃ cat node, cats.get? cat = some node ∧ id ∈ node.services

/-- The children of a category are categories, and no category lists an id twice. -/
structure WellFormed (cats : Categories) : Prop where
  children : ∀ {cat node child}, cats.get? cat = some node → child ∈ node.children →
    has cats child = true
  nodup : ∀ {cat node}, cats.get? cat = some node → node.services.Nodup

end Categories

theorem mem_pushSorted {services : List String} {id other : String} :
    other ∈ pushSorted services id ↔ other ∈ services ∨ other = id := by
  unfold pushSorted
  split
  · rename_i inside
    constructor
    · exact .inl
    · rintro (mem | rfl)
      · exact mem
      · exact inside
  · rw [(List.perm_insertionSort _ _).mem_iff, List.mem_append, List.mem_singleton]

theorem nodup_pushSorted {services : List String} {id : String} (nodup : services.Nodup) :
    (pushSorted services id).Nodup := by
  unfold pushSorted
  split
  · exact nodup
  · rename_i outside
    rw [(List.perm_insertionSort _ _).nodup_iff]
    exact nodup.append (List.nodup_singleton id) (by simpa [List.disjoint_singleton] using outside)

namespace Categories

variable {cats : Categories} {id other cat child : String} {node : CategoryNode}

private theorem get?_insert_node {new : CategoryNode} {found : CategoryNode} {c : String}
    (at_c : OrderedMap.get? (cats.insert cat new) c = some found) :
    (c = cat ∧ found = new) ∨ (c ≠ cat ∧ cats.get? c = some found) := by
  rw [get?_insert] at at_c
  split at at_c
  · rename_i same
    exact .inl ⟨same, (Option.some.inj at_c).symm⟩
  · rename_i ne
    exact .inr ⟨ne, at_c⟩

theorem has_insert {new : CategoryNode} (there : has cats child = true) :
    has (cats.insert cat new) child = true := by
  unfold has at there ⊢
  rw [get?_insert]
  split
  · rfl
  · exact there

/-- Listing an id in a category that lists `old`, whether it was there or is new. -/
private theorem listed_insert_push {old : CategoryNode}
    (was : cats.get? cat = some old ∨ (cats.get? cat = none ∧ old.services = [])) :
    Listed (cats.insert cat { old with services := pushSorted old.services id }) other ↔
      Listed cats other ∨ other = id := by
  constructor
  · rintro ⟨c, found, at_c, mem⟩
    rcases get?_insert_node at_c with ⟨rfl, rfl⟩ | ⟨-, at_c⟩
    · rcases mem_pushSorted.mp mem with mem | rfl
      · rcases was with was | ⟨-, empty⟩
        · exact .inl ⟨c, old, was, mem⟩
        · rw [empty] at mem
          cases mem
      · exact .inr rfl
    · exact .inl ⟨c, found, at_c, mem⟩
  · rintro (⟨c, found, at_c, mem⟩ | rfl)
    · by_cases same : c = cat
      · subst same
        rcases was with was | ⟨was, -⟩ <;> rw [at_c] at was
        · cases was
          exact ⟨c, _, get?_insert_self, mem_pushSorted.mpr (.inl mem)⟩
        · cases was
      · exact ⟨c, found, (get?_insert_of_ne same).trans at_c, mem⟩
    · exact ⟨cat, _, get?_insert_self, mem_pushSorted.mpr (.inr rfl)⟩

private theorem WellFormed.insert_push {old : CategoryNode} (wf : WellFormed cats)
    (was : cats.get? cat = some old ∨ old = {}) :
    WellFormed (cats.insert cat { old with services := pushSorted old.services id }) where
  children {c found child} at_c mem := by
    apply has_insert
    rcases get?_insert_node at_c with ⟨-, rfl⟩ | ⟨-, at_c⟩
    · rcases was with was | rfl
      · exact wf.children was mem
      · cases mem
    · exact wf.children at_c mem
  nodup {c found} at_c := by
    rcases get?_insert_node at_c with ⟨-, rfl⟩ | ⟨-, at_c⟩
    · rcases was with was | rfl
      · exact nodup_pushSorted (wf.nodup was)
      · exact nodup_pushSorted List.nodup_nil
    · exact wf.nodup at_c

theorem has_link (there : has cats child = true) : has (link cats id cat) child = true := by
  unfold link
  split
  · exact there
  · exact has_insert there

theorem listed_link :
    Listed (link cats id cat) other ↔ Listed cats other ∨ (other = id ∧ has cats cat = true) := by
  unfold link has
  split
  · rename_i absent
    simp [absent]
  · rename_i node found
    rw [listed_insert_push (.inl found)]
    simp [found]

theorem WellFormed.link (wf : WellFormed cats) : WellFormed (link cats id cat) := by
  unfold Categories.link
  split
  · exact wf
  · rename_i node found
    exact wf.insert_push (.inl found)

theorem has_linkAll {assigned : List String} (there : has cats child = true) :
    has (linkAll cats id assigned) child = true := by
  induction assigned generalizing cats with
  | nil => exact there
  | cons cat rest ih => exact ih (has_link there)

/-- Linking a service to categories that are there lists it, and nothing else. -/
theorem listed_linkAll {assigned : List String} (some_cat : assigned ≠ [])
    (there : ∀ cat ∈ assigned, has cats cat = true) :
    Listed (linkAll cats id assigned) other ↔ Listed cats other ∨ other = id := by
  induction assigned generalizing cats with
  | nil => exact absurd rfl some_cat
  | cons cat rest ih =>
    show Listed (linkAll (Categories.link cats id cat) id rest) other ↔ _
    have first : Listed (Categories.link cats id cat) other ↔ Listed cats other ∨ other = id := by
      simp only [listed_link, there cat (.head _), and_true]
    by_cases last : rest = []
    · subst last
      exact first
    · rw [ih last fun c mem => has_link (there c (.tail _ mem))]
      tauto

theorem WellFormed.linkAll {assigned : List String} (wf : WellFormed cats) :
    WellFormed (linkAll cats id assigned) := by
  induction assigned generalizing cats with
  | nil => exact wf
  | cons cat rest ih => exact ih wf.link

theorem has_placeUnderRoot (there : has cats child = true) :
    has (placeUnderRoot cats id) child = true :=
  has_insert there

theorem listed_placeUnderRoot :
    Listed (placeUnderRoot cats id) other ↔ Listed cats other ∨ other = id := by
  unfold placeUnderRoot
  cases found : cats.get? rootId with
  | none => exact listed_insert_push (.inr ⟨found, rfl⟩)
  | some root => exact listed_insert_push (.inl found)

theorem WellFormed.placeUnderRoot (wf : WellFormed cats) :
    WellFormed (placeUnderRoot cats id) := by
  unfold Categories.placeUnderRoot
  cases found : cats.get? rootId with
  | none => exact wf.insert_push (.inr rfl)
  | some root => exact wf.insert_push (.inl found)

theorem has_removeFrom : has (removeFrom cats id) child = has cats child := by
  unfold has removeFrom
  rw [get?_mapValues, Option.isSome_map]

/-- With no id listed twice in a category, a removed id is listed nowhere. -/
theorem listed_removeFrom (wf : WellFormed cats) :
    Listed (removeFrom cats id) other ↔ Listed cats other ∧ other ≠ id := by
  unfold Listed removeFrom
  simp only [get?_mapValues, Option.map_eq_some_iff]
  constructor
  · rintro ⟨cat, _, ⟨node, found, rfl⟩, mem⟩
    obtain ⟨ne, mem⟩ := (wf.nodup found).mem_erase_iff.mp mem
    exact ⟨⟨cat, node, found, mem⟩, ne⟩
  · rintro ⟨⟨cat, node, found, mem⟩, ne⟩
    exact ⟨cat, _, ⟨node, found, rfl⟩, (List.mem_erase_of_ne ne).mpr mem⟩

theorem WellFormed.removeFrom (wf : WellFormed cats) : WellFormed (removeFrom cats id) where
  children {c found child} at_c mem := by
    rw [has_removeFrom]
    unfold Categories.removeFrom at at_c
    rw [get?_mapValues, Option.map_eq_some_iff] at at_c
    obtain ⟨node, at_c, rfl⟩ := at_c
    exact wf.children at_c mem
  nodup {c found} at_c := by
    unfold Categories.removeFrom at at_c
    rw [get?_mapValues, Option.map_eq_some_iff] at at_c
    obtain ⟨node, at_c, rfl⟩ := at_c
    exact (wf.nodup at_c).erase id

end Categories

end AgentProtocols.Search
