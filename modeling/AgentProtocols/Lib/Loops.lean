import Mathlib.Logic.Hydra

/-!
Loops, and why they end: `loop_ends` needs turns that go down in a well-founded relation, for a
worklist `Replaces` (`wellFounded_replaces`).
-/

namespace AgentProtocols.Lib

variable {σ β : Type*}

/-- Run the body until it leaves the loop. Undefined where the fuel is used up. -/
def loop (body : σ → σ ⊕ β) : Nat → σ → Option β
  | 0, _ => none
  | fuel + 1, s =>
    match body s with
    | .inl s' => loop body fuel s'
    | .inr b => some b

section Loop

variable {body : σ → σ ⊕ β} {s s' : σ} {b : β} {m n fuel : Nat}

theorem loop_next (next : body s = .inl s') : loop body (fuel + 1) s = loop body fuel s' := by
  rw [loop, next]

theorem loop_leave (leave : body s = .inr b) : loop body (fuel + 1) s = some b := by
  rw [loop, leave]

theorem loop_mono (le : m ≤ n) (done : loop body m s = some b) : loop body n s = some b := by
  induction m generalizing n s with
  | zero => cases done
  | succ m ih =>
    obtain ⟨n, rfl⟩ : ∃ k, n = k + 1 := ⟨n - 1, by omega⟩
    cases turn : body s with
    | inl s' =>
      rw [loop_next turn] at done ⊢
      exact ih (Nat.le_of_succ_le_succ le) done
    | inr b' =>
      rw [loop_leave turn] at done ⊢
      exact done

theorem loop_ends (body : σ → σ ⊕ β) {r : σ → σ → Prop} (wf : WellFounded r) (Inv : σ → Prop)
    (down : ∀ s s', Inv s → body s = .inl s' → Inv s' ∧ r s' s) (inv : Inv s) :
    ∃ fuel b, loop body fuel s = some b := by
  induction s using wf.induction with
  | _ s ih =>
    cases turn : body s with
    | inl s' =>
      obtain ⟨inv', below⟩ := down s s' inv turn
      obtain ⟨fuel, b, done⟩ := ih s' below inv'
      exact ⟨fuel + 1, b, (loop_next turn).trans done⟩
    | inr b => exact ⟨1, b, loop_leave turn⟩

theorem loop_post (Inv : σ → Prop) (Post : β → Prop)
    (kept : ∀ s s', Inv s → body s = .inl s' → Inv s')
    (leave : ∀ s b, Inv s → body s = .inr b → Post b) (inv : Inv s)
    (done : loop body fuel s = some b) : Post b := by
  induction fuel generalizing s with
  | zero => cases done
  | succ fuel ih =>
    cases turn : body s with
    | inl s' =>
      rw [loop_next turn] at done
      exact ih (kept s s' inv turn) done
    | inr b' =>
      rw [loop_leave turn] at done
      cases done
      exact leave s b inv turn

end Loop

/-! ### Worklists -/

section Worklist

variable {α : Type*} {r : α → α → Prop}

/-- An item of the second list is replaced in the first one by items below it. -/
def Replaces (r : α → α → Prop) (l' l : List α) : Prop :=
  ∃ a rest new, l.Perm (a :: rest) ∧ l'.Perm (rest ++ new) ∧ ∀ b ∈ new, r b a

theorem cutExpand_of_replaces {l' l : List α} (replaces : Replaces r l' l) :
    Relation.CutExpand r (l' : Multiset α) (l : Multiset α) := by
  obtain ⟨a, rest, new, before, after, below⟩ := replaces
  refine ⟨new, a, fun b mem => below b (Multiset.mem_coe.mp mem), ?_⟩
  rw [Multiset.coe_eq_coe.mpr before, Multiset.coe_eq_coe.mpr after, ← Multiset.coe_add,
    ← Multiset.cons_coe, ← Multiset.singleton_add]
  rw [add_comm, add_assoc]

theorem wellFounded_replaces (wf : WellFounded r) : WellFounded (Replaces r) :=
  Subrelation.wf cutExpand_of_replaces (InvImage.wf (fun l : List α => (l : Multiset α)) wf.cutExpand)

end Worklist

end AgentProtocols.Lib
