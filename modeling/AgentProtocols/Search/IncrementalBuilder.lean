import Mathlib.Data.List.Dedup
import AgentProtocols.Lib.Runs
import AgentProtocols.Search.Taxonomy

/-!
Incremental updates of a taxonomy. A section under the lock is one step and a label carries what the
model said; `add_services_batch` is any number of calls of `add_service`.

* `State.Sound.step` — no step makes a category list an id twice or links to a missing one.
* `State.Matched.step`, `updates_match` — while no service is removed between its entry in the index
  and its link, the ids listed are the ids indexed once the calls have returned.
* `removed_while_placing` — a run in which a removed service is listed for good.
-/

namespace AgentProtocols.Search

open Lib OrderedMap

/-! ### The calls -/

/-- The model's answer to the question for a category. -/
inductive PlacementReply where
  | noLeaves
  | failed
  | answer (target : Option String) (confidence : Option Rat)
deriving DecidableEq

/-- `place_in_domain` before the answer, before the look-up, and at its end. -/
inductive PlaceJob where
  | asking (domain : String)
  | checking (domain target : String)
  | ended
deriving DecidableEq

/-- Where a call of `add_service` is. -/
inductive AddPlace where
  | indexed
  | selecting (domains : List String)
  | placingRoot
  | placing (jobs : List PlaceJob) (assigned : List String)
  | linking (assigned : List String)
  | returned (assigned : List String)
deriving DecidableEq

structure AddCall where
  id : String
  place : AddPlace
deriving DecidableEq

/-- The service is entered in the index and not linked yet. -/
def AddCall.pending (call : AddCall) : Bool :=
  match call.place with
  | .returned _ => false
  | _ => true

/-- `State`, with the calls of `add_service`. -/
structure State where
  categories : Categories
  servicesIndex : OrderedMap String ServiceRecord
  calls : List AddCall := []

inductive UpdateLabel where
  | add (service : ServiceRecord)
  | readDomains (i : Nat)
  | select (i : Nat) (picked : List Nat)
  | reply (i j : Nat) (reply : PlacementReply)
  | check (i j : Nat)
  | join (i : Nat)
  | placeRoot (i : Nat)
  | link (i : Nat)
  | remove (id : String)
deriving DecidableEq

namespace State

/-- The call goes on to another place. -/
def move (s : State) (i : Nat) (call : AddCall) (place : AddPlace) : State :=
  { s with calls := s.calls.set i { call with place := place } }

/-- The first section of `add_service`; without an id there is nothing to do. -/
def add (s : State) (service : ServiceRecord) : State :=
  if service.key.isEmpty then
    { s with calls := s.calls ++ [⟨service.key, .returned []⟩] }
  else
    { s with
      servicesIndex := s.servicesIndex.insert service.key { service with id := service.key }
      calls := s.calls ++ [⟨service.key, .indexed⟩] }

/-- The ids of the domains in the order in which they are numbered for the model. -/
def domainIds (s : State) : List String :=
  (s.categories.childrenOf rootId).dedup.insertionSort (· ≤ ·)

/-- Without domains the service is placed under the root. -/
def afterDomains (domains : List String) : AddPlace :=
  if domains.isEmpty then .placingRoot else .selecting domains

/-- The domains whose numbers the answer contains. -/
def selected (domains : List String) (picked : List Nat) : List String :=
  picked.filterMap fun idx => domains[idx]?

/-- Without a domain selected the service is placed under the root. -/
def afterSelect (selected : List String) : AddPlace :=
  if selected.isEmpty then .placingRoot else .placing (selected.map .asking) []

/-- What `place_in_domain` does with the answer. -/
def afterReply (domain : String) : PlacementReply → Option String × PlaceJob
  | .noLeaves => (some domain, .ended)
  | .failed => (none, .ended)
  | .answer target confidence =>
    if confidence.getD 0 < 40 ∨ (target.getD "").isEmpty then (some domain, .ended)
    else (none, .checking domain (target.getD ""))

/-- `on_done` of `place_in_domains`. -/
def collect (assigned : List String) (cat : Option String) : List String :=
  assigned ++ cat.toList

/-- Without a category assigned the service is placed under the root. -/
def afterJoin (assigned : List String) : AddPlace :=
  if assigned.isEmpty then .placingRoot else .linking assigned

/-- `remove_service`. -/
def remove (s : State) (id : String) : State :=
  { s with
    categories := s.categories.removeFrom id
    servicesIndex := s.servicesIndex.erase id }

/-- The sections of the calls. -/
def step (s : State) : UpdateLabel → Option State
  | .add service => some (s.add service)
  | .readDomains i =>
    match s.calls[i]? with
    | some ⟨id, .indexed⟩ => some (s.move i ⟨id, .indexed⟩ (afterDomains s.domainIds))
    | _ => none
  | .select i picked =>
    match s.calls[i]? with
    | some ⟨id, .selecting domains⟩ =>
      some (s.move i ⟨id, .selecting domains⟩ (afterSelect (selected domains picked)))
    | _ => none
  | .reply i j answer =>
    match s.calls[i]? with
    | some ⟨id, .placing jobs assigned⟩ =>
      match jobs[j]? with
      | some (.asking domain) =>
        let (cat, job) := afterReply domain answer
        some (s.move i ⟨id, .placing jobs assigned⟩
          (.placing (jobs.set j job) (collect assigned cat)))
      | _ => none
    | _ => none
  | .check i j =>
    match s.calls[i]? with
    | some ⟨id, .placing jobs assigned⟩ =>
      match jobs[j]? with
      | some (.checking domain target) =>
        let cat := if s.categories.has target then target else domain
        some (s.move i ⟨id, .placing jobs assigned⟩
          (.placing (jobs.set j .ended) (collect assigned (some cat))))
      | _ => none
    | _ => none
  | .join i =>
    match s.calls[i]? with
    | some ⟨id, .placing jobs assigned⟩ =>
      if jobs.all (· = .ended) then
        some (s.move i ⟨id, .placing jobs assigned⟩ (afterJoin assigned))
      else none
    | _ => none
  | .placeRoot i =>
    match s.calls[i]? with
    | some ⟨id, .placingRoot⟩ =>
      some { s.move i ⟨id, .placingRoot⟩ (.returned [rootId]) with
        categories := s.categories.placeUnderRoot id }
    | _ => none
  | .link i =>
    match s.calls[i]? with
    | some ⟨id, .linking assigned⟩ =>
      some { s.move i ⟨id, .linking assigned⟩ (.returned assigned) with
        categories := s.categories.linkAll id assigned }
    | _ => none
  | .remove id => some (s.remove id)

def Quiet (s : State) : Prop := ∀ call ∈ s.calls, call.pending = false

/-- A call adds the service and has not linked it yet. -/
def Adding (s : State) (id : String) : Prop := ∃ call ∈ s.calls, call.pending = true ∧ call.id = id

/-- The id is a key of `services_index`. -/
def Indexed (s : State) (id : String) : Prop := ∃ record, s.servicesIndex.get? id = some record

/-- What the categories of a call's place have to do with the taxonomy. -/
def PlaceJob.Known (cats : Categories) : PlaceJob → Prop
  | .asking domain => cats.has domain = true
  | .checking domain _ => cats.has domain = true
  | .ended => True

@[inherit_doc PlaceJob.Known]
def AddPlace.Known (cats : Categories) : AddPlace → Prop
  | .selecting domains => ∀ domain ∈ domains, cats.has domain = true
  | .placing jobs assigned =>
    (∀ job ∈ jobs, PlaceJob.Known cats job) ∧ ∀ cat ∈ assigned, cats.has cat = true
  | .linking assigned => assigned ≠ [] ∧ ∀ cat ∈ assigned, cats.has cat = true
  | _ => True

/-- The taxonomy is well formed, and the calls hold categories of it. -/
structure Sound (s : State) : Prop where
  wf : s.categories.WellFormed
  known : ∀ call ∈ s.calls, AddPlace.Known s.categories call.place

/-! ### What a section does -/

inductive Effect (s : State) : UpdateLabel → State → Prop where
  | add (service : ServiceRecord) : Effect s (.add service) (s.add service)
  | moved {l : UpdateLabel} {i : Nat} {call : AddCall} {place : AddPlace}
      (at_i : s.calls[i]? = some call) (pending : call.pending = true)
      (next : AddCall.pending ⟨call.id, place⟩ = true)
      (known : AddPlace.Known s.categories place) : Effect s l (s.move i call place)
  | linked {l : UpdateLabel} {i : Nat} {call : AddCall} {assigned : List String}
      {cats : Categories} (at_i : s.calls[i]? = some call) (pending : call.pending = true)
      (wf : cats.WellFormed)
      (has : ∀ cat, s.categories.has cat = true → cats.has cat = true)
      (listed : ∀ id, cats.Listed id ↔ s.categories.Listed id ∨ id = call.id) :
      Effect s l { s.move i call (.returned assigned) with categories := cats }
  | remove (id : String) : Effect s (.remove id) (s.remove id)

variable {s t : State} {l : UpdateLabel} {id : String}

variable {call : AddCall} {domain : String} {i : Nat} {cats : Categories}

theorem has_domainIds (wf : s.categories.WellFormed)
    (mem : domain ∈ s.domainIds) : s.categories.has domain = true := by
  unfold domainIds at mem
  rw [(List.perm_insertionSort _ _).mem_iff, List.mem_dedup] at mem
  unfold Categories.childrenOf at mem
  cases found : s.categories.get? rootId with
  | none =>
    rw [found] at mem
    cases mem
  | some root =>
    rw [found] at mem
    exact wf.children found mem

theorem mem_of_mem_selected {domains : List String} {picked : List Nat}
    (mem : domain ∈ selected domains picked) : domain ∈ domains := by
  obtain ⟨idx, -, found⟩ := List.mem_filterMap.mp mem
  exact List.mem_of_getElem? found

theorem known_afterReply (there : cats.has domain = true) (answer : PlacementReply) :
    (∀ cat ∈ (afterReply domain answer).1, cats.has cat = true) ∧
      PlaceJob.Known cats (afterReply domain answer).2 := by
  cases answer with
  | noLeaves => exact ⟨fun cat same => Option.mem_some.mp same ▸ there, trivial⟩
  | failed => exact ⟨(fun cat absent => nomatch absent), trivial⟩
  | answer target confidence =>
    simp only [afterReply]
    split
    · exact ⟨fun cat same => Option.mem_some.mp same ▸ there, trivial⟩
    · exact ⟨(fun cat absent => nomatch absent), there⟩

theorem known_placing {jobs : List PlaceJob} {assigned : List String}
    {j : Nat} {job : PlaceJob} {cat : Option String}
    (known : AddPlace.Known cats (.placing jobs assigned)) (job_known : PlaceJob.Known cats job)
    (cat_known : ∀ c ∈ cat, cats.has c = true) :
    AddPlace.Known cats (.placing (jobs.set j job) (collect assigned cat)) := by
  constructor
  · intro other mem
    rcases List.mem_or_eq_of_mem_set mem with mem | rfl
    · exact known.1 other mem
    · exact job_known
  · intro c mem
    rcases List.mem_append.mp mem with mem | mem
    · exact known.2 c mem
    · exact cat_known c (Option.mem_toList.mp mem)

theorem Sound.known_at (sound : Sound s)
    (at_i : s.calls[i]? = some call) : AddPlace.Known s.categories call.place :=
  sound.known call (List.mem_of_getElem? at_i)

theorem Sound.effect (sound : Sound s) (taken : step s l = some t) : Effect s l t := by
  cases l with
  | add service =>
    cases taken
    exact .add service
  | readDomains i =>
    simp only [step] at taken
    split at taken <;> cases taken
    rename_i id at_i
    refine .moved at_i rfl ?_ ?_ <;> unfold afterDomains <;> split
    · rfl
    · rfl
    · trivial
    · exact fun domain mem => has_domainIds sound.wf mem
  | select i picked =>
    simp only [step] at taken
    split at taken <;> cases taken
    rename_i id domains at_i
    have known : ∀ domain ∈ domains, s.categories.has domain = true := sound.known_at at_i
    refine .moved at_i rfl ?_ ?_ <;> unfold afterSelect <;> split
    · rfl
    · rfl
    · trivial
    · refine ⟨fun job asked => ?_, fun cat absent => nomatch absent⟩
      obtain ⟨domain, mem, rfl⟩ := List.mem_map.mp asked
      exact known domain (mem_of_mem_selected mem)
  | reply i j answer =>
    simp only [step] at taken
    split at taken
    · rename_i id jobs assigned at_i
      split at taken <;> cases taken
      rename_i domain at_j
      have known := sound.known_at at_i
      have there : s.categories.has domain = true := known.1 _ (List.mem_of_getElem? at_j)
      obtain ⟨cat_known, job_known⟩ := known_afterReply there answer
      exact .moved at_i rfl rfl (known_placing known job_known cat_known)
    · cases taken
  | check i j =>
    simp only [step] at taken
    split at taken
    · rename_i id jobs assigned at_i
      split at taken <;> cases taken
      rename_i domain target at_j
      have known := sound.known_at at_i
      have there : s.categories.has domain = true := known.1 _ (List.mem_of_getElem? at_j)
      refine .moved at_i rfl rfl (known_placing known trivial ?_)
      intro cat same
      cases same
      split
      · assumption
      · exact there
    · cases taken
  | join i =>
    simp only [step] at taken
    split at taken
    · rename_i id jobs assigned at_i
      split at taken <;> cases taken
      have known := sound.known_at at_i
      refine .moved at_i rfl ?_ ?_ <;> unfold afterJoin <;> split
      · rfl
      · rfl
      · trivial
      · rename_i some_cat
        exact ⟨fun none => some_cat (by rw [none]; rfl), known.2⟩
    · cases taken
  | placeRoot i =>
    simp only [step] at taken
    split at taken <;> cases taken
    rename_i id at_i
    exact .linked at_i rfl sound.wf.placeUnderRoot
      (fun cat => Categories.has_placeUnderRoot) fun other => Categories.listed_placeUnderRoot
  | link i =>
    simp only [step] at taken
    split at taken <;> cases taken
    rename_i id assigned at_i
    have known := sound.known_at at_i
    exact .linked at_i rfl sound.wf.linkAll (fun cat => Categories.has_linkAll)
      fun other => Categories.listed_linkAll known.1 known.2
  | remove id =>
    cases taken
    exact .remove id

/-! ### Steps keep the taxonomy well formed -/

theorem AddPlace.Known.mono {cats cats' : Categories}
    (kept : ∀ cat, cats.has cat = true → cats'.has cat = true) :
    ∀ {place : AddPlace}, AddPlace.Known cats place → AddPlace.Known cats' place
  | .selecting _, known => fun domain mem => kept domain (known domain mem)
  | .placing _ _, known => by
    refine ⟨fun job mem => ?_, fun cat mem => kept cat (known.2 cat mem)⟩
    cases job with
    | asking domain => exact kept domain (known.1 _ mem)
    | checking domain target => exact kept domain (known.1 _ mem)
    | ended => trivial
  | .linking _, known => ⟨known.1, fun cat mem => kept cat (known.2 cat mem)⟩
  | .indexed, _ => trivial
  | .placingRoot, _ => trivial
  | .returned _, _ => trivial

theorem Sound.step (sound : Sound s) (taken : State.step s l = some t) : Sound t := by
  cases sound.effect taken with
  | add service =>
    unfold State.add
    split <;> exact ⟨sound.wf, forall_mem_concat sound.known trivial⟩
  | moved at_i pending next known => exact ⟨sound.wf, forall_mem_set sound.known known⟩
  | linked at_i pending wf has listed =>
    exact ⟨wf, forall_mem_set (fun call mem => AddPlace.Known.mono has (sound.known call mem)) trivial⟩
  | remove id =>
    refine ⟨sound.wf.removeFrom, fun call mem => ?_⟩
    exact AddPlace.Known.mono (fun cat there => Categories.has_removeFrom.trans there)
      (sound.known call mem)

/-! ### The index and the lists -/

/-- A service is removed only when no call that adds it is before its link. -/
def Orderly (s : State) : UpdateLabel → Prop
  | .remove id => ¬ s.Adding id
  | _ => True

instance (s : State) (id : String) : Decidable (s.Adding id) :=
  inferInstanceAs (Decidable (∃ call ∈ s.calls, _))

instance (s : State) (l : UpdateLabel) : Decidable (Orderly s l) := by
  cases l <;> unfold Orderly <;> infer_instance

/-- What is listed or about to be is indexed, and what is indexed is listed or about
to be. -/
structure Matched (s : State) : Prop where
  listed : ∀ id, s.categories.Listed id → s.Indexed id
  adding : ∀ id, s.Adding id → s.Indexed id
  indexed : ∀ id, s.Indexed id → s.categories.Listed id ∨ s.Adding id

theorem adding_concat {calls : List AddCall} (same : t.calls = calls ++ [call]) :
    t.Adding id ↔ (∃ old ∈ calls, old.pending = true ∧ old.id = id) ∨
      (call.pending = true ∧ call.id = id) := by
  unfold Adding
  rw [same]
  simp only [List.mem_append, List.mem_singleton, or_and_right, exists_or, exists_eq_left]

theorem adding_move {place : AddPlace}
    (at_i : s.calls[i]? = some call) (pending : call.pending = true)
    (next : AddCall.pending ⟨call.id, place⟩ = true) :
    (s.move i call place).Adding id ↔ s.Adding id := by
  constructor
  · rintro ⟨other, mem, waits, rfl⟩
    rcases List.mem_or_eq_of_mem_set mem with mem | rfl
    · exact ⟨other, mem, waits, rfl⟩
    · exact ⟨call, List.mem_of_getElem? at_i, pending, rfl⟩
  · rintro ⟨other, mem, waits, rfl⟩
    by_cases same : other = call
    · exact ⟨_, mem_set_of_getElem? at_i, next, by rw [same]⟩
    · exact ⟨other, mem_set_of_ne at_i mem same, waits, rfl⟩

theorem adding_returned {assigned : List String} (at_i : s.calls[i]? = some call) :
    ((s.move i call (.returned assigned)).Adding id → s.Adding id) ∧
      (s.Adding id → (s.move i call (.returned assigned)).Adding id ∨ id = call.id) := by
  constructor
  · rintro ⟨other, mem, waits, rfl⟩
    rcases List.mem_or_eq_of_mem_set mem with mem | rfl
    · exact ⟨other, mem, waits, rfl⟩
    · cases waits
  · rintro ⟨other, mem, waits, rfl⟩
    by_cases same : other = call
    · exact .inr (by rw [same])
    · exact .inl ⟨other, mem_set_of_ne at_i mem same, waits, rfl⟩

/-- Entering a service adds its id to the index and to the calls. -/
theorem Matched.add (matched : Matched s) (service : ServiceRecord) :
    Matched (s.add service) := by
  unfold State.add
  split
  · refine ⟨matched.listed, fun id adding => ?_, fun id indexed => ?_⟩
    · rcases (adding_concat rfl).mp adding with before | ⟨waits, -⟩
      · exact matched.adding id before
      · cases waits
    · rcases matched.indexed id indexed with listed | adding
      · exact .inl listed
      · exact .inr ((adding_concat rfl).mpr (.inl adding))
  · have kept : ∀ {id}, s.Indexed id → ∃ record, (s.servicesIndex.insert service.key
        { service with id := service.key }).get? id = some record := by
      rintro id ⟨record, found⟩
      rw [get?_insert]
      split
      · exact ⟨_, rfl⟩
      · exact ⟨record, found⟩
    refine ⟨fun id listed => kept (matched.listed id listed), fun id adding => ?_,
      fun id indexed => ?_⟩
    · rcases (adding_concat rfl).mp adding with before | ⟨-, rfl⟩
      · exact kept (matched.adding id before)
      · exact ⟨_, get?_insert_self⟩
    · by_cases same : id = service.key
      · exact .inr ((adding_concat rfl).mpr (.inr ⟨rfl, same.symm⟩))
      · obtain ⟨record, found⟩ := indexed
        have before : s.Indexed id := ⟨record, (get?_insert_of_ne same).symm.trans found⟩
        rcases matched.indexed id before with listed | adding
        · exact .inl listed
        · exact .inr ((adding_concat rfl).mpr (.inl adding))

/-- Removing a service takes its id out of the index and of the lists. -/
theorem Matched.remove (matched : Matched s) (sound : Sound s) (free : ¬ s.Adding id) :
    Matched (s.remove id) := by
  have kept : ∀ {other}, other ≠ id → s.Indexed other → (s.remove id).Indexed other := by
    rintro other ne ⟨record, found⟩
    exact ⟨record, (get?_erase_of_ne ne).trans found⟩
  refine ⟨fun other listed => ?_, fun other adding => ?_, fun other indexed => ?_⟩
  · obtain ⟨listed, ne⟩ := (Categories.listed_removeFrom sound.wf).mp listed
    exact kept ne (matched.listed other listed)
  · have ne : other ≠ id := by
      rintro rfl
      exact free adding
    exact kept ne (matched.adding other adding)
  · obtain ⟨record, found⟩ := indexed
    have found : (s.servicesIndex.erase id).get? other = some record := found
    have ne : other ≠ id := by
      rintro rfl
      rw [get?_erase_self] at found
      cases found
    rw [get?_erase_of_ne ne] at found
    rcases matched.indexed other ⟨record, found⟩ with listed | adding
    · exact .inl ((Categories.listed_removeFrom sound.wf).mpr ⟨listed, ne⟩)
    · exact .inr adding

theorem Matched.step (matched : Matched s) (sound : Sound s) (orderly : Orderly s l)
    (taken : State.step s l = some t) : Matched t := by
  cases sound.effect taken with
  | add service => exact matched.add service
  | moved at_i pending next known =>
    refine ⟨matched.listed, fun id adding => ?_, fun id indexed => ?_⟩
    · exact matched.adding id ((adding_move at_i pending next).mp adding)
    · rcases matched.indexed id indexed with listed | adding
      · exact .inl listed
      · exact .inr ((adding_move at_i pending next).mpr adding)
  | linked at_i pending wf has listed =>
    have call_indexed := matched.adding _ ⟨_, List.mem_of_getElem? at_i, pending, rfl⟩
    refine ⟨fun id now => ?_, fun id adding => ?_, fun id indexed => ?_⟩
    · rcases (listed id).mp now with before | rfl
      · exact matched.listed id before
      · exact call_indexed
    · exact matched.adding id ((adding_returned at_i).1 adding)
    · rcases matched.indexed id indexed with before | adding
      · exact .inl ((listed id).mpr (.inl before))
      · rcases (adding_returned at_i).2 adding with adding | rfl
        · exact .inr adding
        · exact .inl ((listed _).mpr (.inr rfl))
  | remove id => exact matched.remove sound orderly

/-! ### Removed services -/

theorem not_listed_run {ls : List UpdateLabel} (run : Run (Steps State.step) s ls t)
    (sound : Sound s) (not_listed : ¬ s.categories.Listed id) (free : ¬ s.Adding id)
    (no_add : ∀ service, UpdateLabel.add service ∈ ls → service.key ≠ id) :
    ¬ t.categories.Listed id := by
  induction run with
  | nil s => exact not_listed
  | @cons s u t l ls taken rest ih =>
    have later : ∀ service, UpdateLabel.add service ∈ ls → service.key ≠ id :=
      fun service mem => no_add service (.tail _ mem)
    have next : ¬ u.categories.Listed id ∧ ¬ u.Adding id := by
      cases sound.effect taken with
      | add service =>
        unfold State.add
        split
        · refine ⟨not_listed, fun adding => ?_⟩
          rcases (adding_concat rfl).mp adding with before | ⟨waits, -⟩
          · exact free before
          · cases waits
        · refine ⟨not_listed, fun adding => ?_⟩
          rcases (adding_concat rfl).mp adding with before | ⟨-, same⟩
          · exact free before
          · exact no_add service (.head _) same
      | moved at_i pending next known =>
        exact ⟨not_listed, fun adding => free ((adding_move at_i pending next).mp adding)⟩
      | linked at_i pending wf has listed =>
        refine ⟨fun now => ?_, fun adding => free ((adding_returned at_i).1 adding)⟩
        rcases (listed id).mp now with before | rfl
        · exact not_listed before
        · exact free ⟨_, List.mem_of_getElem? at_i, pending, rfl⟩
      | remove other =>
        refine ⟨fun now => not_listed ?_, free⟩
        exact ((Categories.listed_removeFrom sound.wf).mp now).1
    exact ih (sound.step taken) next.1 next.2 later

/-- A builder before its first call. -/
structure Fresh (s : State) : Prop where
  wf : s.categories.WellFormed
  listed_iff : ∀ id, s.categories.Listed id ↔ s.Indexed id
  calls : s.calls = []

theorem Fresh.not_adding (fresh : Fresh s) : ¬ s.Adding id := by
  rintro ⟨call, mem, -⟩
  rw [fresh.calls] at mem
  cases mem

theorem Fresh.sound (fresh : Fresh s) : Sound s := by
  refine ⟨fresh.wf, fun call mem => ?_⟩
  rw [fresh.calls] at mem
  cases mem

theorem Fresh.matched (fresh : Fresh s) : Matched s :=
  ⟨fun id listed => (fresh.listed_iff id).mp listed, fun _ adding => absurd adding fresh.not_adding,
    fun id indexed => .inl ((fresh.listed_iff id).mpr indexed)⟩

theorem Quiet.not_adding (quiet : Quiet s) : ¬ s.Adding id := by
  rintro ⟨call, mem, waits, -⟩
  rw [quiet call mem] at waits
  cases waits

end State

open State in
/-- The tree and the index stay in step as long as no service is removed while it is added. -/
theorem updates_match {start s : State} {ls : List UpdateLabel} (fresh : start.Fresh)
    (run : Run (Under Orderly (Steps step)) start ls s) :
    (s.Quiet → ∀ id, s.categories.Listed id ↔ s.Indexed id) ∧
      (∀ cat node, s.categories.get? cat = some node → node.services.Nodup) ∧
      ∀ id t u ms, step s (.remove id) = some t → ¬ s.Adding id → Run (Steps step) t ms u →
        (∀ service, UpdateLabel.add service ∈ ms → service.key ≠ id) →
          ¬ u.categories.Listed id := by
  have kept : ∀ s l t, Sound s ∧ Matched s → Orderly s l → Steps step s l t →
      Sound t ∧ Matched t := by
    rintro s l t ⟨sound, matched⟩ orderly taken
    exact ⟨sound.step taken, matched.step sound orderly taken⟩
  obtain ⟨sound, matched⟩ := run.invariant_under kept ⟨fresh.sound, fresh.matched⟩
  refine ⟨fun quiet id => ⟨matched.listed id, fun indexed => ?_⟩, fun cat node => sound.wf.nodup,
    fun id t u ms removed free later no_add => ?_⟩
  · rcases matched.indexed id indexed with listed | adding
    · exact listed
    · exact absurd adding quiet.not_adding
  · have sound_t := sound.step removed
    cases removed
    refine not_listed_run later sound_t ?_ free no_add
    intro now
    exact ((Categories.listed_removeFrom sound.wf).mp now).2 rfl

/-- A taxonomy with a root and nothing else. -/
def flatTaxonomy : State where
  categories := OrderedMap.empty.insert rootId {}
  servicesIndex := OrderedMap.empty

theorem flatTaxonomy_fresh : flatTaxonomy.Fresh where
  wf := by
    have only : ∀ {cat node}, flatTaxonomy.categories.get? cat = some node → node = {} := by
      intro cat node found
      unfold flatTaxonomy at found
      rw [get?_insert] at found
      split at found
      · exact (Option.some.inj found).symm
      · cases found
    refine ⟨fun found mem => ?_, fun found => ?_⟩
    · rw [only found] at mem
      cases mem
    · rw [only found]
      exact List.nodup_nil
  listed_iff id := by
    constructor
    · rintro ⟨cat, node, found, mem⟩
      unfold flatTaxonomy at found
      rw [get?_insert] at found
      split at found
      · cases found
        cases mem
      · cases found
    · rintro ⟨record, found⟩
      cases found
  calls := rfl

/-- A service is added under the root, another one is removed again. -/
def orderlyLabels : List UpdateLabel :=
  [.add ⟨"x", "X", none⟩, .add ⟨"", "y", none⟩, .readDomains 0, .readDomains 1, .placeRoot 1,
    .remove "y", .placeRoot 0]

/-- `add_service` has entered the service when `remove_service` comes, and links it
afterwards. -/
def removedWhilePlacing : List UpdateLabel :=
  [.add ⟨"x", "X", none⟩, .remove "x", .readDomains 0, .placeRoot 0]

def orderlyEnd : Option State :=
  orderlyLabels.foldlM (fun s l => if State.Orderly s l then s.step l else none) flatTaxonomy

theorem orderly_updates : (orderlyEnd.any fun s =>
      decide (s.categories.get? rootId = some ⟨[], ["x"]⟩)) = true ∧
    ∃ s, orderlyEnd = some s ∧ (s.Quiet → ∀ id, s.categories.Listed id ↔ s.Indexed id) := by
  have ends : orderlyEnd.isSome = true := by decide
  refine ⟨by decide, orderlyEnd.get ends, (Option.some_get _).symm, ?_⟩
  exact (updates_match flatTaxonomy_fresh (run_under_of_foldlM (Option.some_get ends).symm)).1

def removedWhilePlacingEnd : Option State :=
  removedWhilePlacing.foldlM State.step flatTaxonomy

/-- The removed service is listed under the root for good and is not in the index. -/
theorem removed_while_placing : flatTaxonomy.Fresh ∧ ∃ s : State,
    Run (Steps State.step) flatTaxonomy removedWhilePlacing s ∧
      s.Quiet ∧ s.categories.Listed "x" ∧ ¬ s.Indexed "x" := by
  have ends : removedWhilePlacingEnd.isSome = true := by decide
  have calls : removedWhilePlacingEnd.map State.calls = some [⟨"x", .returned [rootId]⟩] := by
    decide
  have root : removedWhilePlacingEnd.map (·.categories.get? rootId) = some (some ⟨[], ["x"]⟩) := by
    decide
  have gone : removedWhilePlacingEnd.map (·.servicesIndex.get? "x") = some none := by
    decide
  obtain ⟨s, found⟩ := Option.isSome_iff_exists.mp ends
  rw [found, Option.map_some, Option.some.injEq] at calls root gone
  refine ⟨flatTaxonomy_fresh, s, run_of_foldlM found, ?_, ⟨rootId, _, root, .head _⟩, ?_⟩
  · intro call mem
    rw [calls] at mem
    rw [List.mem_singleton.mp mem]
    rfl
  · rintro ⟨record, indexed⟩
    rw [gone] at indexed
    cases indexed

open State in
/-- Whatever else goes on, a service is listed when its `add_service` returns. -/
theorem returned_add_listed {start s t : State} {ls : List UpdateLabel} {l : UpdateLabel}
    {i : Nat} {call call' : AddCall} (wf : start.categories.WellFormed) (idle : start.calls = [])
    (run : Run (Steps step) start ls s) (taken : step s l = some t) (before : s.calls[i]? = some call)
    (pending : call.pending = true) (after : t.calls[i]? = some call')
    (returned : call'.pending = false) :
    t.categories.WellFormed ∧ t.categories.Listed call.id := by
  have sound : Sound s := by
    refine run.invariant (fun _ _ _ sound step => Sound.step sound step) ⟨wf, fun call mem => ?_⟩
    rw [idle] at mem
    cases mem
  refine ⟨(sound.step taken).wf, ?_⟩
  have same : s.calls[i]? = some call' → t.categories.Listed call.id := by
    intro there
    cases before.symm.trans there
    cases pending.symm.trans returned
  cases sound.effect taken with
  | add service =>
    refine same ?_
    have below := (List.getElem?_eq_some_iff.mp before).1
    unfold State.add at after
    split at after <;> exact (List.getElem?_append_left below).symm.trans after
  | moved at_j _ next _ =>
    rcases getElem?_set_cases after with ⟨rfl, rfl⟩ | ⟨-, there⟩
    · cases next.symm.trans returned
    · exact same there
  | linked at_j _ _ _ listed =>
    rcases getElem?_set_cases after with ⟨rfl, rfl⟩ | ⟨-, there⟩
    · cases before.symm.trans at_j
      exact (listed _).mpr (.inr rfl)
    · exact same there
  | remove id => exact same after

/-- A service that is placed under the root. -/
theorem placed_add_listed : ∃ s t, Run (Steps State.step) flatTaxonomy
      [.add ⟨"x", "X", none⟩, .readDomains 0] s ∧ s.step (.placeRoot 0) = some t ∧
        t.categories.WellFormed ∧ t.categories.Listed "x" := by
  have ran : [.add ⟨"x", "X", none⟩, .readDomains 0].foldlM State.step flatTaxonomy = some _ := rfl
  exact ⟨_, _, run_of_foldlM ran, rfl, @returned_add_listed _ _ _ _ (.placeRoot 0) 0 _ _
    flatTaxonomy_fresh.wf rfl (run_of_foldlM ran) rfl rfl rfl rfl rfl⟩

end AgentProtocols.Search
