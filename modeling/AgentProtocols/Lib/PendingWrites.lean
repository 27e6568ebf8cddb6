import Mathlib.Data.List.Basic

/-!
Writes that are decided one after the other and done later. `held v ws k` is what `k` holds once the
writes `ws` are done; one that is done in its turn changes nothing of it (`held_eraseIdx`,
`InTurn`).
-/

namespace AgentProtocols.Lib

variable {K V : Type*} [DecidableEq K]

/-- What the key holds after the writes, each of a key and its new value. -/
def held (v : V) (writes : List (K × V)) (k : K) : V :=
  writes.foldl (fun v w => if w.1 = k then w.2 else v) v

/-- The write at the position is not the last one for its key, or the only one. -/
def InTurn (keys : List K) (i : Nat) : Prop :=
  ∀ k ∈ keys[i]?, k ∈ keys.take i → k ∈ keys.drop (i + 1)

variable {v : V} {writes rest : List (K × V)} {w : K × V} {k : K} {i : Nat}

theorem inTurn_zero {K : Type*} {keys : List K} : InTurn keys 0 := fun _ _ earlier => by
  rw [List.take_zero] at earlier
  cases earlier

theorem held_cons : held v (w :: writes) k = held (if w.1 = k then w.2 else v) writes k := rfl

theorem held_append : held v (writes ++ rest) k = held (held v writes k) rest k :=
  List.foldl_append

theorem held_of_not_mem (none : k ∉ writes.map Prod.fst) : held v writes k = v := by
  induction writes with
  | nil => rfl
  | cons w writes ih =>
    rw [List.map_cons, List.mem_cons, not_or] at none
    rw [held_cons, if_neg (Ne.symm none.1), ih none.2]

theorem held_of_mem (some : k ∈ writes.map Prod.fst) (v v' : V) :
    held v writes k = held v' writes k := by
  induction writes generalizing v v' with
  | nil => cases some
  | cons w writes ih =>
    rw [held_cons, held_cons]
    by_cases here : w.1 = k
    · rw [if_pos here, if_pos here]
    · rw [List.map_cons, List.mem_cons] at some
      exact ih (some.resolve_left (Ne.symm here)) _ _

/-- **A write that is done in turn leaves what the keys will hold.** -/
theorem held_eraseIdx (found : writes[i]? = some w) (in_turn : InTurn (writes.map Prod.fst) i) :
    held (if w.1 = k then w.2 else v) (writes.eraseIdx i) k = held v writes k := by
  obtain ⟨inside, rfl⟩ := List.getElem?_eq_some_iff.mp found
  have whole : held v writes k = held v (writes.take i ++ writes[i] :: writes.drop (i + 1)) k := by
    rw [List.getElem_cons_drop, List.take_append_drop]
  rw [whole, List.eraseIdx_eq_take_drop_succ, held_append, held_append, held_cons]
  by_cases here : writes[i].1 = k
  · rw [if_pos here, if_pos here]
    by_cases later : k ∈ (writes.drop (i + 1)).map Prod.fst
    · exact held_of_mem later _ _
    · have first : k ∉ (writes.take i).map Prod.fst := fun earlier => by
        have at_i : (writes.map Prod.fst)[i]? = some k := by
          rw [List.getElem?_map, found, Option.map_some, here]
        rw [List.map_take] at earlier
        rw [List.map_drop] at later
        exact later (in_turn k at_i earlier)
      rw [held_of_not_mem first]
  · rw [if_neg here, if_neg here]

end AgentProtocols.Lib
