import Mathlib.Data.List.Basic

/-!
Runs of a labelled transition relation.

`Run R s ls t`: the labels `ls` lead from `s` to `t`. `Under C R` keeps the steps that meet a
condition; `Run.invariant` and `Run.invariant_under` carry a property along, `Run.split` cuts a run.
Machines related by a simulation answer alike (`answers_eq_of_simulation`).
-/

namespace AgentProtocols.Lib

open List

variable {σ α : Type*}

/-- The labels of the list, taken in order, lead from the first state to the
second. -/
inductive Run (R : σ → α → σ → Prop) : σ → List α → σ → Prop where
  | nil (s : σ) : Run R s [] s
  | cons {s t u : σ} {l : α} {ls : List α} :
      R s l t → Run R t ls u → Run R s (l :: ls) u

/-- The steps of `R` taken only where `C` holds of the state before the step
and of the label. -/
def Under (C : σ → α → Prop) (R : σ → α → σ → Prop) (s : σ) (l : α) (t : σ) : Prop :=
  C s l ∧ R s l t

/-- The transition relation of a step function that is undefined where a label
is not enabled. -/
def Steps (step : σ → α → Option σ) (s : σ) (l : α) (t : σ) : Prop :=
  step s l = some t

theorem bind_eq_some.{u} {α β : Type u} {x : Option α} {f : α → Option β} {b : β} :
    x >>= f = some b ↔ ∃ a, x = some a ∧ f a = some b :=
  Option.bind_eq_some_iff

namespace Run

variable {R R' : σ → α → σ → Prop} {s t u : σ} {l : α} {ls ms : List α}

/-- A property that every step keeps holds at the end of every run that starts
with it. -/
theorem invariant {Inv : σ → Prop} (kept : ∀ s l t, Inv s → R s l t → Inv t)
    (run : Run R s ls t) (start : Inv s) : Inv t := by
  induction run with
  | nil s => exact start
  | cons step rest ih => exact ih (kept _ _ _ start step)

/-- A property kept by the steps that meet `C` holds after every run of such steps. -/
theorem invariant_under {C : σ → α → Prop} {Inv : σ → Prop}
    (kept : ∀ s l t, Inv s → C s l → R s l t → Inv t)
    (run : Run (Under C R) s ls t) (start : Inv s) : Inv t :=
  run.invariant (fun s l t inv step => kept s l t inv step.1 step.2) start

theorem mono (sub : ∀ s l t, R s l t → R' s l t) (run : Run R s ls t) : Run R' s ls t := by
  induction run with
  | nil s => exact .nil s
  | cons step rest ih => exact .cons (sub _ _ _ step) ih

theorem of_under {C : σ → α → Prop} (run : Run (Under C R) s ls t) : Run R s ls t :=
  run.mono fun _ _ _ step => step.2

theorem append (first : Run R s ls t) (second : Run R t ms u) : Run R s (ls ++ ms) u := by
  induction first with
  | nil s => exact second
  | cons step rest ih => exact .cons step (ih second)

/-- Cutting the label sequence cuts the run. -/
theorem split : ∀ {ls : List α} {s : σ}, Run R s (ls ++ ms) u →
    ∃ t, Run R s ls t ∧ Run R t ms u
  | [], s, run => ⟨s, .nil s, run⟩
  | l :: ls, s, run => by
    cases run with
    | cons step rest =>
      obtain ⟨t, first, second⟩ := split rest
      exact ⟨t, .cons step first, second⟩

theorem step_of_mem (run : Run R s ls t) (mem : l ∈ ls) : ∃ u v, R u l v := by
  induction run with
  | nil s => cases mem
  | cons step rest ih =>
    rcases mem_cons.mp mem with rfl | mem
    · exact ⟨_, _, step⟩
    · exact ih mem

theorem cons_inv (run : Run R s (l :: ls) u) : ∃ t, R s l t ∧ Run R t ls u := by
  cases run with
  | cons step rest => exact ⟨_, step, rest⟩

end Run

theorem run_of_foldlM {step : σ → α → Option σ} : ∀ {ls : List α} {s t : σ},
    ls.foldlM step s = some t → Run (Steps step) s ls t
  | [], s, t, computed => by
    cases computed
    exact .nil s
  | l :: ls, s, t, computed => by
    simp only [foldlM_cons, bind_eq_some] at computed
    obtain ⟨mid, first, rest⟩ := computed
    exact .cons first (run_of_foldlM rest)

/-- The run of the labels whose steps all meet `C`. -/
def runUnder (C : σ → α → Prop) [∀ s l, Decidable (C s l)] (step : σ → α → Option σ) (s : σ)
    (ls : List α) : Option σ :=
  ls.foldlM (fun s l => if C s l then step s l else none) s

theorem run_under_of_foldlM {step : σ → α → Option σ} {C : σ → α → Prop}
    [∀ s l, Decidable (C s l)] : ∀ {ls : List α} {s t : σ},
    runUnder C step s ls = some t → Run (Under C (Steps step)) s ls t
  | [], s, t, computed => by
    cases computed
    exact .nil s
  | l :: ls, s, t, computed => by
    simp only [runUnder, foldlM_cons, bind_eq_some] at computed
    obtain ⟨mid, first, rest⟩ := computed
    split at first
    · rename_i meets
      exact .cons ⟨meets, first⟩ (run_under_of_foldlM rest)
    · cases first

/-- A run found by computing it. -/
theorem exists_run {step : σ → α → Option σ} {s : σ} {ls : List α} {P : σ → Prop}
    [DecidablePred P] (ends : (ls.foldlM step s).any (decide <| P ·) = true) :
    ∃ t, Run (Steps step) s ls t ∧ P t := by
  obtain ⟨t, run, holds⟩ := (Option.any_eq_true _ _).mp ends
  exact ⟨t, run_of_foldlM run, of_decide_eq_true holds⟩

theorem exists_run_under {step : σ → α → Option σ} {s : σ} {ls : List α} {P : σ → Prop}
    {C : σ → α → Prop} [∀ s l, Decidable (C s l)] [DecidablePred P]
    (ends : (runUnder C step s ls).any (decide <| P ·) = true) :
    ∃ t, Run (Under C (Steps step)) s ls t ∧ P t := by
  obtain ⟨t, run, holds⟩ := (Option.any_eq_true _ _).mp ends
  exact ⟨t, run_under_of_foldlM run, of_decide_eq_true holds⟩

/-! ### Lists of threads -/

section Threads

variable {β : Type*} {ts : List β} {t u : β} {j k : Nat}

theorem getElem?_concat_cases (at_k : (ts ++ [t])[k]? = some u) :
    ts[k]? = some u ∨ (k = ts.length ∧ u = t) := by
  by_cases below : k < ts.length
  · rw [getElem?_append_left below] at at_k
    exact .inl at_k
  · rw [getElem?_append_right (Nat.le_of_not_lt below), getElem?_singleton] at at_k
    split at at_k
    · cases at_k
      exact .inr ⟨by omega, rfl⟩
    · cases at_k

theorem getElem?_set_cases (at_k : (ts.set j t)[k]? = some u) :
    (k = j ∧ u = t) ∨ (k ≠ j ∧ ts[k]? = some u) := by
  by_cases same : k = j
  · subst same
    rw [getElem?_set_self'] at at_k
    obtain ⟨-, -, rfl⟩ := Option.map_eq_some_iff.mp at_k
    exact .inl ⟨rfl, rfl⟩
  · rw [getElem?_set_ne (Ne.symm same)] at at_k
    exact .inr ⟨same, at_k⟩

section Modify

variable {f : β → β}

theorem getElem?_modify_cases (at_k : (ts.modify j f)[k]? = some u) :
    ∃ v, ts[k]? = some v ∧ ((j = k ∧ u = f v) ∨ (j ≠ k ∧ u = v)) := by
  rw [getElem?_modify] at at_k
  obtain ⟨v, there, rfl⟩ := Option.map_eq_some_iff.mp at_k
  refine ⟨v, there, ?_⟩
  by_cases same : j = k
  · exact .inl ⟨same, if_pos same⟩
  · exact .inr ⟨same, if_neg same⟩

theorem getElem?_modify_of_ne (ne : j ≠ k) (at_k : ts[k]? = some t) :
    (ts.modify j f)[k]? = some t := by
  rw [getElem?_modify, at_k]
  exact congrArg some (if_neg ne)

theorem getElem?_modify_self (at_j : ts[j]? = some t) : (ts.modify j f)[j]? = some (f t) := by
  rw [getElem?_modify, at_j]
  exact congrArg some (if_pos rfl)

end Modify

theorem forall_mem_concat {P : β → Prop} (old : ∀ u ∈ ts, P u) (new : P t) : ∀ u ∈ ts ++ [t], P u :=
  forall_mem_append.mpr ⟨old, forall_mem_singleton.mpr new⟩

theorem forall_mem_set {P : β → Prop} (old : ∀ u ∈ ts, P u) (new : P t) : ∀ u ∈ ts.set j t, P u := by
  intro u mem
  rcases mem_or_eq_of_mem_set mem with there | rfl
  · exact old u there
  · exact new

theorem mem_set_of_getElem? (at_j : ts[j]? = some t) : u ∈ ts.set j u := by
  obtain ⟨below, -⟩ := List.getElem?_eq_some_iff.mp at_j
  exact List.mem_of_getElem? (List.getElem?_set_self below)

theorem mem_set_of_ne {v : β} (at_j : ts[j]? = some t) (mem : u ∈ ts) (other : u ≠ t) :
    u ∈ ts.set j v := by
  obtain ⟨i, at_i⟩ := getElem?_of_mem mem
  have ne : j ≠ i := by
    rintro rfl
    rw [at_j] at at_i
    cases at_i
    exact other rfl
  exact mem_of_getElem? ((getElem?_set_ne ne).trans at_i)

end Threads

/-! ### Machines that answer -/

section Answers

variable {σ' ι β : Type*}

/-- What a machine answers to a list of inputs. -/
def answers (step : σ → ι → β × σ) : σ → List ι → List β
  | _, [] => []
  | s, i :: is => (step s i).1 :: answers step (step s i).2 is

/-- Machines related by a simulation that forces equal answers answer alike. -/
theorem answers_eq_of_simulation {step : σ → ι → β × σ} {step' : σ' → ι → β × σ'}
    (Sim : List ι → σ → σ' → Prop)
    (kept : ∀ i is s s', Sim (i :: is) s s' →
      (step s i).1 = (step' s' i).1 ∧ Sim is (step s i).2 (step' s' i).2) :
    ∀ {is : List ι} {s : σ} {s' : σ'}, Sim is s s' → answers step s is = answers step' s' is
  | [], _, _, _ => rfl
  | i :: is, s, s', related => by
    obtain ⟨same, next⟩ := kept i is s s' related
    rw [answers, answers, same, answers_eq_of_simulation Sim kept next]

end Answers

end AgentProtocols.Lib
