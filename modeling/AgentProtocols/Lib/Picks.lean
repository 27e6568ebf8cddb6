import Mathlib.Data.List.Perm.Basic

/-!
Picking an element of a list by its position (`pick`, `keepNew`), lists of attempts
(`mapM_succeeds`, `exists_of_mapM`), and merging two elements (`merge_perm`).
-/

namespace AgentProtocols.Lib

open List

section Pick

variable {β : Type*}

/-- A position is looked at: it is the new best one if its value improves on the best so far. -/
def pickAt (value : Nat → Option β) (improves : β → β → Bool) (best : Option (Nat × β)) (i : Nat) :
    Option (Nat × β) :=
  match value i with
  | none => best
  | some v => if best.all fun b => improves v b.2 then some (i, v) else best

/-- Among the first positions, the first one with the best value. -/
def pick (value : Nat → Option β) (improves : β → β → Bool) (n : Nat) : Option Nat :=
  ((List.range n).foldl (pickAt value improves) none).map Prod.fst

variable {value : Nat → Option β} {improves : β → β → Bool} {n i : Nat}

private theorem foldl_pickAt (n : Nat) :
    (∀ e, (range n).foldl (pickAt value improves) none = some e → e.1 < n ∧ value e.1 = some e.2) ∧
    ((range n).foldl (pickAt value improves) none = none → ∀ i < n, value i = none) := by
  induction n with
  | zero =>
    refine ⟨?_, fun _ i below => absurd below (Nat.not_lt_zero i)⟩
    rintro e ⟨⟩
  | succ n ih =>
    rw [range_succ, foldl_append, foldl_cons, foldl_nil]
    generalize (range n).foldl (pickAt value improves) none = best at ih ⊢
    rw [pickAt]
    cases here : value n with
    | none =>
      refine ⟨fun e found => ?_, fun none_ i below => ?_⟩
      · exact ⟨Nat.lt_succ_of_lt (ih.1 e found).1, (ih.1 e found).2⟩
      · rcases Nat.lt_succ_iff_lt_or_eq.mp below with before | rfl
        · exact ih.2 none_ i before
        · exact here
    | some v =>
      dsimp only
      split
      · constructor
        · rintro e ⟨⟩
          exact ⟨Nat.lt_succ_self n, here⟩
        · rintro ⟨⟩
      · rename_i worse
        refine ⟨fun e found => ?_, fun none_ => ?_⟩
        · exact ⟨Nat.lt_succ_of_lt (ih.1 e found).1, (ih.1 e found).2⟩
        · rw [none_] at worse
          exact absurd rfl worse

theorem of_pick_eq_some (picked : pick value improves n = some i) : i < n ∧ ∃ v, value i = some v := by
  obtain ⟨e, found, rfl⟩ := Option.map_eq_some_iff.mp picked
  obtain ⟨below, here⟩ := (foldl_pickAt n).1 e found
  exact ⟨below, e.2, here⟩

theorem of_pick_eq_none (none_ : pick value improves n = none) : ∀ i < n, value i = none :=
  (foldl_pickAt n).2 (Option.map_eq_none_iff.mp none_)

end Pick

/-! ### Lists of attempts -/

section MapM

variable {α β : Type*} {f g : α → Option β} {l : List α} {out : List β}

theorem mapM_mono (mono : ∀ a b, f a = some b → g a = some b) (done : l.mapM f = some out) :
    l.mapM g = some out := by
  induction l generalizing out with
  | nil => exact done
  | cons a l ih =>
    rw [mapM_cons, Option.bind_eq_bind, Option.bind_eq_some_iff] at done
    obtain ⟨b, first, done⟩ := done
    obtain ⟨rest, others, done⟩ := Option.bind_eq_some_iff.mp done
    rw [mapM_cons, mono a b first, ih others]
    exact done

/-- What comes out was made of something that went in. -/
theorem exists_of_mapM (done : l.mapM f = some out) {b : β} (mem : b ∈ out) : ∃ a ∈ l, f a = some b := by
  induction l generalizing out with
  | nil =>
    cases done
    cases mem
  | cons a l ih =>
    rw [mapM_cons, Option.bind_eq_bind, Option.bind_eq_some_iff] at done
    obtain ⟨c, first, done⟩ := done
    obtain ⟨rest, others, done⟩ := Option.bind_eq_some_iff.mp done
    cases done
    rcases mem_cons.mp mem with rfl | later
    · exact ⟨a, mem_cons_self, first⟩
    · obtain ⟨a', there, made⟩ := ih others later
      exact ⟨a', mem_cons_of_mem _ there, made⟩

/-- A list of attempts that all succeed. -/
theorem mapM_succeeds (succeeds : ∀ a ∈ l, ∃ b, f a = some b) : ∃ out, l.mapM f = some out := by
  induction l with
  | nil => exact ⟨[], rfl⟩
  | cons a l ih =>
    obtain ⟨b, first⟩ := succeeds a mem_cons_self
    obtain ⟨rest, others⟩ := ih fun a mem => succeeds a (mem_cons_of_mem _ mem)
    refine ⟨b :: rest, ?_⟩
    rw [mapM_cons, first, others]
    rfl

end MapM

section KeepNew

variable {α κ : Type*} [DecidableEq κ]

/-- The first element of each key that is not seen, and what is seen after. -/
def keepNew (key : α → κ) : List κ → List α → List α × List κ
  | seen, [] => ([], seen)
  | seen, a :: l =>
    if key a ∈ seen then keepNew key seen l
    else (a :: (keepNew key (key a :: seen) l).1, (keepNew key (key a :: seen) l).2)

variable {key : α → κ} {seen : List κ} {l l' : List α}

theorem keepNew_append : keepNew key seen (l ++ l') =
    ((keepNew key seen l).1 ++ (keepNew key (keepNew key seen l).2 l').1,
      (keepNew key (keepNew key seen l).2 l').2) := by
  induction l generalizing seen with
  | nil => rfl
  | cons a l ih =>
    rw [cons_append, keepNew, keepNew]
    split
    · exact ih
    · rw [ih]
      rfl

theorem nodup_keepNew (key : α → κ) (seen : List κ) (l : List α) :
    ((keepNew key seen l).1.map key).Nodup ∧ ∀ a ∈ (keepNew key seen l).1, key a ∉ seen := by
  induction l generalizing seen with
  | nil =>
    refine ⟨nodup_nil, ?_⟩
    rintro a ⟨⟩
  | cons a l ih =>
    rw [keepNew]
    split
    · exact ih seen
    · rename_i new_
      obtain ⟨distinct, apart⟩ := ih (key a :: seen)
      constructor
      · refine nodup_cons.mpr ⟨fun again => ?_, distinct⟩
        obtain ⟨b, mem, same⟩ := mem_map.mp again
        exact apart b mem (same ▸ mem_cons_self)
      · intro b mem
        rcases mem_cons.mp mem with rfl | later
        · exact new_
        · exact fun known => apart b later (mem_cons_of_mem _ known)

theorem keepNew_subset : (keepNew key seen l).1 ⊆ l := by
  induction l generalizing seen with
  | nil => exact List.Subset.refl _
  | cons a l ih =>
    rw [keepNew]
    split
    · exact subset_cons_of_subset a ih
    · exact cons_subset_cons a ih

theorem mem_keys_keepNew {k : κ} :
    k ∈ (keepNew key seen l).1.map key ↔ k ∈ l.map key ∧ k ∉ seen := by
  constructor
  · intro mem
    obtain ⟨a, kept, rfl⟩ := mem_map.mp mem
    exact ⟨mem_map_of_mem (keepNew_subset kept), (nodup_keepNew key seen l).2 a kept⟩
  · rintro ⟨mem, new_⟩
    induction l generalizing seen with
    | nil => cases mem
    | cons a l ih =>
      rw [keepNew]
      split
      · rename_i known
        rcases mem_cons.mp mem with rfl | later
        · exact absurd known new_
        · exact ih later new_
      · by_cases same : k = key a
        · rw [same]
          exact mem_cons_self
        · have later := (mem_cons.mp mem).resolve_left same
          exact mem_cons_of_mem _ (ih later fun known =>
            (mem_cons.mp known).elim same new_)

theorem keepNew_of_nodup (distinct : (l.map key).Nodup) (new_ : ∀ a ∈ l, key a ∉ seen) :
    (keepNew key seen l).1 = l := by
  induction l generalizing seen with
  | nil => rfl
  | cons a l ih =>
    rw [map_cons, nodup_cons] at distinct
    rw [keepNew, if_neg (new_ a mem_cons_self)]
    refine congrArg (a :: ·) (ih distinct.2 fun b mem known => ?_)
    rcases mem_cons.mp known with same | known
    · exact distinct.1 (same ▸ mem_map_of_mem mem)
    · exact new_ b (mem_cons_of_mem _ mem) known

end KeepNew

section Merge

variable {α : Type*} {l : List α} {i j : Nat} {x y : α}

theorem modify_perm (there : l[i]? = some x) (f : α → α) : (l.modify i f).Perm (f x :: l.eraseIdx i) := by
  obtain ⟨below, rfl⟩ := List.getElem?_eq_some_iff.mp there
  have below' : i < (l.modify i f).length := by
    rw [List.length_modify]
    exact below
  have same : (l.modify i f)[i] = f l[i] := by
    rw [List.getElem_modify, if_pos rfl]
  have perm := (List.getElem_cons_eraseIdx_perm below').symm
  rw [same, List.eraseIdx_modify_of_eq] at perm
  exact perm

theorem perm_cons_eraseIdx (there : l[i]? = some x) : l.Perm (x :: l.eraseIdx i) := by
  obtain ⟨below, rfl⟩ := List.getElem?_eq_some_iff.mp there
  exact (List.getElem_cons_eraseIdx_perm below).symm

theorem map_modify {β : Type*} {f : α → α} {g : α → β} {h : β → β} (comm : ∀ a, g (f a) = h (g a)) :
    (l.modify i f).map g = (l.map g).modify i h := by
  apply ext_getElem?
  intro k
  rw [getElem?_map, getElem?_modify, getElem?_modify, getElem?_map]
  cases l[k]? with
  | none => rfl
  | some a =>
    by_cases here : i = k
    · simp [here, comm]
    · simp [here]

/-- A position is one less if it came after the removed one. -/
theorem merge_perm (source : l[i]? = some x) (target : l[j]? = some y) (ne : i ≠ j) (f : α → α) :
    ∃ rest, l.Perm (x :: y :: rest) ∧
      ((l.eraseIdx i).modify (if i < j then j - 1 else j) f).Perm (f y :: rest) := by
  have shifted : (l.eraseIdx i)[if i < j then j - 1 else j]? = some y := by
    rw [getElem?_eraseIdx]
    split
    · rw [if_neg (by omega), Nat.sub_add_cancel (by omega), target]
    · rw [if_pos (by omega), target]
  exact ⟨_, (perm_cons_eraseIdx source).trans ((perm_cons_eraseIdx shifted).cons x), modify_perm shifted f⟩

end Merge

end AgentProtocols.Lib
