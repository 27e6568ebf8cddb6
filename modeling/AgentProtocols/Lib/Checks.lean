import Mathlib.Data.List.FinRange

/-!
Checks that run one after the other and stop at the first failure, as
computations in `Except ε Unit`.
-/

namespace AgentProtocols.Lib

open List

variable {ε α : Type*}

theorem bind_eq_ok {α β : Type} {x : Except ε α} {f : α → Except ε β} {b : β} :
    x >>= f = .ok b ↔ ∃ a, x = .ok a ∧ f a = .ok b := by
  cases x with
  | error e => simp [bind, Except.bind]
  | ok a => simp [bind, Except.bind]

section Bind

variable {α₁ α₂ α₃ α₄ β : Type} {x₁ : Except ε α₁} {x₂ : α₁ → Except ε α₂}
  {x₃ : α₁ → α₂ → Except ε α₃} {x₄ : α₁ → α₂ → α₃ → Except ε α₄} {b : β}

theorem bind₂_eq_ok {f : α₁ → α₂ → Except ε β} :
    (x₁ >>= fun a₁ => x₂ a₁ >>= f a₁) = .ok b ↔
      ∃ a₁, x₁ = .ok a₁ ∧ ∃ a₂, x₂ a₁ = .ok a₂ ∧ f a₁ a₂ = .ok b := by
  simp only [bind_eq_ok]

theorem bind₃_eq_ok {f : α₁ → α₂ → α₃ → Except ε β} :
    (x₁ >>= fun a₁ => x₂ a₁ >>= fun a₂ => x₃ a₁ a₂ >>= f a₁ a₂) = .ok b ↔
      ∃ a₁, x₁ = .ok a₁ ∧ ∃ a₂, x₂ a₁ = .ok a₂ ∧ ∃ a₃, x₃ a₁ a₂ = .ok a₃ ∧ f a₁ a₂ a₃ = .ok b := by
  simp only [bind_eq_ok]

theorem bind₄_eq_ok {f : α₁ → α₂ → α₃ → α₄ → Except ε β} :
    (x₁ >>= fun a₁ => x₂ a₁ >>= fun a₂ => x₃ a₁ a₂ >>= fun a₃ => x₄ a₁ a₂ a₃ >>=
      f a₁ a₂ a₃) = .ok b ↔
      ∃ a₁, x₁ = .ok a₁ ∧ ∃ a₂, x₂ a₁ = .ok a₂ ∧ ∃ a₃, x₃ a₁ a₂ = .ok a₃ ∧
        ∃ a₄, x₄ a₁ a₂ a₃ = .ok a₄ ∧ f a₁ a₂ a₃ a₄ = .ok b := by
  simp only [bind_eq_ok]

end Bind

theorem mapError_eq_ok {ε' : Type*} {x : Except ε α} {f : ε → ε'} {a : α} :
    x.mapError f = .ok a ↔ x = .ok a := by
  cases x <;> simp [Except.mapError]

theorem check_and_then {first second : Except ε Unit} :
    (first >>= fun _ => second) = .ok () ↔ first = .ok () ∧ second = .ok () := by
  cases first with
  | error e => simp only [bind, Except.bind, reduceCtorEq, false_and]
  | ok u => simp only [bind, Except.bind, true_and]

theorem refuse_if {failed : Prop} [Decidable failed] {e : ε} :
    (if failed then Except.error e else .ok ()) = .ok () ↔ ¬ failed := by
  split
  · rename_i holds
    simp only [reduceCtorEq, holds, not_true]
  · rename_i fails
    simp only [fails, not_false_eq_true]

theorem check_each {check : α → Except ε Unit} : ∀ {l : List α},
    l.forM check = .ok () ↔ ∀ a ∈ l, check a = .ok ()
  | [] => by simp [pure, Except.pure]
  | a :: rest => by
    rw [forM_eq_forM, forM_cons, check_and_then, ← forM_eq_forM,
      @check_each check rest, forall_mem_cons]

theorem error_of_check_each {check : α → Except ε Unit} {e : ε} : ∀ {l : List α},
    l.forM check = .error e → ∃ a ∈ l, check a = .error e
  | [], failed => by cases failed
  | a :: rest, failed => by
    rw [forM_eq_forM, forM_cons] at failed
    cases first : check a with
    | ok u =>
      rw [first] at failed
      obtain ⟨b, mem, failed⟩ := @error_of_check_each check e rest failed
      exact ⟨b, .tail _ mem, failed⟩
    | error e' =>
      rw [first] at failed
      cases failed
      exact ⟨a, .head _, first⟩

theorem check_each_congr {check check' : α → Except ε Unit} : ∀ {l : List α},
    (∀ a ∈ l, check a = check' a) → l.forM check = l.forM check'
  | [], _ => rfl
  | a :: rest, same => by
    have tail : rest.forM check = rest.forM check' :=
      check_each_congr fun b mem => same b (mem_cons_of_mem _ mem)
    simp only [forM_eq_forM, forM_cons] at tail ⊢
    rw [same a mem_cons_self, tail]

theorem mapM_cons_eq_ok {β : Type} {f : α → Except ε β} {a : α} {rest : List α} {out : List β} : (a :: rest).mapM f = .ok out ↔
      ∃ b bs, f a = .ok b ∧ rest.mapM f = .ok bs ∧ out = b :: bs := by
  rw [mapM_cons, bind_eq_ok]
  constructor
  · rintro ⟨b, first, later⟩
    obtain ⟨bs, others, same⟩ := bind_eq_ok.mp later
    cases same
    exact ⟨b, bs, first, others, rfl⟩
  · rintro ⟨b, bs, first, others, rfl⟩
    exact ⟨b, first, bind_eq_ok.mpr ⟨bs, others, rfl⟩⟩

theorem mem_of_mapM {β : Type} {f : α → Except ε β} {b : β} : ∀ {items : List α} {out : List β},
    items.mapM f = .ok out → b ∈ out → ∃ a ∈ items, f a = .ok b
  | [], out, read, mem => by
    cases read
    cases mem
  | a :: rest, out, read, mem => by
    obtain ⟨b', bs, first, others, rfl⟩ := mapM_cons_eq_ok.mp read
    rcases mem_cons.mp mem with rfl | mem
    · exact ⟨a, mem_cons_self, first⟩
    · obtain ⟨a', mem', isB⟩ := mem_of_mapM others mem
      exact ⟨a', mem_cons_of_mem _ mem', isB⟩

theorem exists_mapM_iff {β : Type} {f : α → Except ε β} : ∀ {items : List α},
    (∃ out, items.mapM f = .ok out) ↔ ∀ a ∈ items, ∃ b, f a = .ok b
  | [] => ⟨fun _ a mem => absurd mem not_mem_nil, fun _ => ⟨[], rfl⟩⟩
  | a :: rest => by
    rw [forall_mem_cons, ← @exists_mapM_iff β f rest]
    simp only [mapM_cons_eq_ok]
    constructor
    · rintro ⟨_, b, bs, first, others, rfl⟩
      exact ⟨⟨b, first⟩, bs, others⟩
    · rintro ⟨⟨b, first⟩, bs, others⟩
      exact ⟨_, b, bs, first, others, rfl⟩

theorem read_of_mapM {β : Type} {f : α → Except ε β} {a : α} : ∀ {items : List α} {out : List β},
    items.mapM f = .ok out → a ∈ items → ∃ b ∈ out, f a = .ok b
  | [], _, _, mem => absurd mem not_mem_nil
  | a' :: rest, out, read, mem => by
    obtain ⟨b', bs, first, others, rfl⟩ := mapM_cons_eq_ok.mp read
    rcases mem_cons.mp mem with rfl | mem
    · exact ⟨b', mem_cons_self, first⟩
    · obtain ⟨b, mem', isB⟩ := read_of_mapM others mem
      exact ⟨b, mem_cons_of_mem _ mem', isB⟩

theorem foldlM_keeps {ε α σ : Type} {f : σ → α → Except ε σ} {I : σ → Prop} : ∀ {l : List α} {s t : σ},
    (∀ a ∈ l, ∀ s t, I s → f s a = .ok t → I t) → I s → l.foldlM f s = .ok t → I t
  | [], _, _, _, holds, ran => by
    cases ran
    exact holds
  | a :: rest, _, _, keeps, holds, ran => by
    obtain ⟨next, first, ran⟩ := bind_eq_ok.mp ran
    exact foldlM_keeps (fun b mem => keeps b (.tail _ mem)) (keeps a (.head _) _ _ holds first) ran

theorem any_congr_of_mem {p q : α → Bool} {l : List α} (same : ∀ a ∈ l, p a = q a) :
    l.any p = l.any q := by
  rw [Bool.eq_iff_iff, any_eq_true, any_eq_true]
  exact exists_congr fun a => and_congr_right fun mem => by rw [same a mem]

theorem isOk_iff {check : Except ε Unit} : check.isOk = true ↔ check = .ok () := by
  cases check with
  | error e => simp [Except.toBool]
  | ok u => simp [Except.toBool]

theorem length_filter_eq_one {p : α → Bool} : ∀ {l : List α},
    (l.filter p).length = 1 ↔ ∃! i : Fin l.length, p l[i] = true
  | [] => by
    simp only [filter_nil, length_nil, Nat.zero_ne_one, false_iff]
    rintro ⟨i, -, -⟩
    exact i.elim0
  | a :: rest => by
    cases passes : p a with
    | true =>
      have none_left : (rest.filter p).length = 0 ↔ ∀ j : Fin rest.length, ¬ p rest[j] = true := by
        rw [length_eq_zero_iff, filter_eq_nil_iff, forall_mem_iff_getElem]
        exact ⟨fun all j => all j.val j.isLt, fun all j lt => all ⟨j, lt⟩⟩
      rw [filter_cons_of_pos passes, length_cons, Nat.add_eq_right, none_left]
      constructor
      · intro none_left
        refine ⟨⟨0, Nat.succ_pos _⟩, passes, ?_⟩
        rintro ⟨i, lt⟩ at_i
        cases i with
        | zero => rfl
        | succ j => exact absurd at_i (none_left ⟨j, Nat.lt_of_succ_lt_succ lt⟩)
      · rintro ⟨i, -, only⟩ j at_j
        have first := only ⟨0, Nat.succ_pos _⟩ passes
        have later := only ⟨j.val + 1, Nat.succ_lt_succ j.isLt⟩ at_j
        rw [← later] at first
        simp at first
    | false =>
      rw [filter_cons_of_neg (by simp [passes]), @length_filter_eq_one p rest]
      constructor
      · rintro ⟨j, at_j, only⟩
        refine ⟨⟨j.val + 1, Nat.succ_lt_succ j.isLt⟩, at_j, ?_⟩
        rintro ⟨i, lt⟩ at_i
        cases i with
        | zero => exact absurd at_i (by simp [passes])
        | succ i =>
          have same := only ⟨i, Nat.lt_of_succ_lt_succ lt⟩ at_i
          simpa [Fin.ext_iff] using same
      · rintro ⟨⟨i, lt⟩, at_i, only⟩
        cases i with
        | zero => exact absurd at_i (by simp [passes])
        | succ i =>
          refine ⟨⟨i, Nat.lt_of_succ_lt_succ lt⟩, at_i, fun j at_j => ?_⟩
          have same := only ⟨j.val + 1, Nat.succ_lt_succ j.isLt⟩ at_j
          simpa [Fin.ext_iff] using same

end AgentProtocols.Lib
