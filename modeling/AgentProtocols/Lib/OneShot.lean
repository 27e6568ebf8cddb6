import AgentProtocols.Lib.OrderedMap
import AgentProtocols.Lib.Runs

/-!
Maps whose entries are issued once and taken at most once. `OneShot R issues takes` says what the
steps of `R` do to the map. What is taken was issued before (`OneShot.origin`), and each key is
taken at most once (`OneShot.taken_nodup`); `TakenOnce` says both.
-/

namespace AgentProtocols.Lib

open OrderedMap List

variable {K V ι : Type*} [DecidableEq K]

/-- The steps of `R` issue, take and drop entries of the map. -/
structure OneShot (R : OrderedMap K V → ι → OrderedMap K V → Prop) (issues : ι → Option (K × V))
    (takes : ι → Option K) : Prop where
  issue : ∀ {m l m' k v}, R m l m' → issues l = some (k, v) →
    takes l = none ∧ m' = m.insert k v
  take : ∀ {m l m' k}, R m l m' → takes l = some k →
    issues l = none ∧ (∃ v, m.get? k = some v) ∧ m' = m.erase k
  keep : ∀ {m l m'}, R m l m' → issues l = none → takes l = none →
    ∀ {k v}, m'.get? k = some v → m.get? k = some v

def issuedKey (issues : ι → Option (K × V)) (l : ι) : Option K := (issues l).map Prod.fst

namespace OneShot

variable {R : OrderedMap K V → ι → OrderedMap K V → Prop} {issues : ι → Option (K × V)}
  {takes : ι → Option K} {m m' : OrderedMap K V} {l : ι} {ls : List ι}

variable (h : OneShot R issues takes)

include h

/-- What is in the map after a step was issued by it or was there before. -/
theorem step_origin (step : R m l m') {k : K} {v : V}
    (there : m'.get? k = some v) : issues l = some (k, v) ∨ m.get? k = some v := by
  cases issued : issues l with
  | some e =>
    obtain ⟨-, rfl⟩ := h.issue step issued
    rw [get?_insert] at there
    split at there
    · rename_i same
      cases there
      exact .inl (by rw [same])
    · exact .inr there
  | none =>
    right
    cases taken : takes l with
    | some j =>
      obtain ⟨-, -, rfl⟩ := h.take step taken
      by_cases same : k = j
      · rw [same, get?_erase_self] at there
        cases there
      · rwa [get?_erase_of_ne same] at there
    | none => exact h.keep step issued taken there

theorem step_other (step : R m l m') {k : K}
    (unissued : issuedKey issues l ≠ some k) (untaken : takes l ≠ some k)
    (kept : issues l = none → takes l = none → m'.get? k = m.get? k) : m'.get? k = m.get? k := by
  cases issued : issues l with
  | some e =>
    obtain ⟨j, w⟩ := e
    obtain ⟨-, rfl⟩ := h.issue step issued
    have other : k ≠ j := by
      rintro rfl
      exact unissued (by rw [issuedKey, issued, Option.map_some])
    rw [get?_insert_of_ne other]
  | none =>
    cases taken : takes l with
    | some j =>
      obtain ⟨-, -, rfl⟩ := h.take step taken
      have other : k ≠ j := by
        rintro rfl
        exact untaken taken
      rw [get?_erase_of_ne other]
    | none => exact kept issued taken

theorem origin (run : Run R m ls m') {k : K} {v : V} (there : m'.get? k = some v) :
    (∃ l ∈ ls, issues l = some (k, v)) ∨ m.get? k = some v := by
  induction run with
  | nil m => exact .inr there
  | cons step rest ih =>
    rcases ih there with ⟨l, mem, issued⟩ | before
    · exact .inl ⟨l, mem_cons_of_mem _ mem, issued⟩
    · rcases h.step_origin step before with issued | before
      · exact .inl ⟨_, mem_cons_self, issued⟩
      · exact .inr before

private theorem taken_nodup_aux (run : Run R m ls m') :
    ∀ (old taken : List K), (old ++ ls.filterMap (issuedKey issues)).Nodup →
      taken.Nodup → (∀ k ∈ taken, k ∈ old ∧ m.get? k = none) →
      (∀ k v, m.get? k = some v → k ∈ old) → (taken ++ ls.filterMap takes).Nodup := by
  induction run with
  | nil m =>
    intro old taken _ nodup _ _
    simpa using nodup
  | @cons m m₁ m' l ls step rest ih =>
    intro old taken distinct nodup gone known
    cases issued : issues l with
    | some e =>
      obtain ⟨j, w⟩ := e
      obtain ⟨untaken, rfl⟩ := h.issue step issued
      have key : issuedKey issues l = some j := by simp [issuedKey, issued]
      rw [filterMap_cons_some key] at distinct
      rw [filterMap_cons_none untaken]
      -- The issued key is new, so it is none of the taken ones.
      have fresh : j ∉ old := by
        intro mem
        exact (disjoint_of_nodup_append distinct) mem mem_cons_self
      refine ih (old ++ [j]) taken (by simpa using distinct) nodup ?_ ?_
      · intro k mem
        obtain ⟨inOld, absent⟩ := gone k mem
        refine ⟨mem_append_left _ inOld, ?_⟩
        have other : k ≠ j := fun same => fresh (same ▸ inOld)
        rw [get?_insert_of_ne other, absent]
      · intro k v there
        rw [get?_insert] at there
        split at there
        · rename_i same
          simp [same]
        · exact mem_append_left _ (known k v there)
    | none =>
      have key : issuedKey issues l = none := by simp [issuedKey, issued]
      rw [filterMap_cons_none key] at distinct
      have known' : ∀ k v, m₁.get? k = some v → k ∈ old := by
        intro k v there
        rcases h.step_origin step there with new | before
        · rw [issued] at new
          cases new
        · exact known k v before
      have gone' : ∀ k ∈ taken, k ∈ old ∧ m₁.get? k = none := by
        intro k mem
        obtain ⟨inOld, absent⟩ := gone k mem
        refine ⟨inOld, ?_⟩
        cases there : m₁.get? k with
        | none => rfl
        | some v =>
          rcases h.step_origin step there with new | before
          · rw [issued] at new
            cases new
          · rw [absent] at before
            cases before
      cases takenHere : takes l with
      | none =>
        rw [filterMap_cons_none takenHere]
        exact ih old taken distinct nodup gone' known'
      | some j =>
        obtain ⟨-, ⟨v, there⟩, rfl⟩ := h.take step takenHere
        rw [filterMap_cons_some takenHere]
        have fresh : j ∉ taken := by
          intro mem
          rw [(gone j mem).2] at there
          cases there
        have next := ih old (taken ++ [j]) distinct ?_ ?_ known'
        · simpa using next
        · exact nodup.append (nodup_singleton j)
            (by simpa [disjoint_singleton] using fresh)
        · exact forall_mem_concat gone' ⟨known j v there, get?_erase_self⟩

/-- Keys that are issued at most once are taken at most once. -/
theorem taken_nodup (run : Run R OrderedMap.empty ls m)
    (distinct : (ls.filterMap (issuedKey issues)).Nodup) : (ls.filterMap takes).Nodup := by
  have nodup := h.taken_nodup_aux run [] [] (by simpa using distinct) nodup_nil
    (by simp) (by simp)
  simpa using nodup

theorem take_origin {before : List ι} {k : K}
    (run : Run R OrderedMap.empty before m) (step : R m l m') (taken : takes l = some k) :
    ∃ v, m.get? k = some v ∧ ∃ l' ∈ before, issues l' = some (k, v) := by
  obtain ⟨-, ⟨v, there⟩, -⟩ := h.take step taken
  refine ⟨v, there, ?_⟩
  rcases h.origin run there with issued | start
  · exact issued
  · cases start

omit h

end OneShot

/-- Each taken key was issued before, once, with an entry that the step is good for. -/
def TakenOnce (R : OrderedMap K V → ι → OrderedMap K V → Prop) (issues : ι → Option (K × V))
    (takes : ι → Option K) (Good : V → ι → Prop) : Prop :=
  ∀ ls m, Run R OrderedMap.empty ls m → (ls.filterMap (issuedKey issues)).Nodup →
    (ls.filterMap takes).Nodup ∧
      ∀ before l after k, ls = before ++ l :: after → takes l = some k →
        ∃ l' ∈ before, ∃ v, issues l' = some (k, v) ∧ Good v l

theorem OneShot.takenOnce {R : OrderedMap K V → ι → OrderedMap K V → Prop}
    {issues : ι → Option (K × V)} {takes : ι → Option K} {Issued : V → Prop} {Good : V → ι → Prop}
    (h : OneShot R issues takes)
    (wellIssued : ∀ {m l m' k v}, R m l m' → issues l = some (k, v) → Issued v)
    (good : ∀ {m l m' k v}, R m l m' → takes l = some k → m.get? k = some v → Issued v → Good v l) :
    TakenOnce R issues takes Good := by
  intro ls m run distinct
  refine ⟨h.taken_nodup run distinct, ?_⟩
  rintro before l after k rfl taken
  obtain ⟨m₁, first, rest⟩ := run.split
  obtain ⟨m₂, step, _⟩ := rest.cons_inv
  obtain ⟨v, there, l', mem, issued⟩ := h.take_origin first step taken
  obtain ⟨u, w, earlier⟩ := first.step_of_mem mem
  exact ⟨l', mem, v, issued, good step taken there (wellIssued earlier issued)⟩

end AgentProtocols.Lib
