import Mathlib.Data.Set.Finite.List

/-!
Graphs given by the children of their nodes.

* `Acyclic.redirect` — a node may be given new children that have none afterwards.
* `Acyclic.wellFounded_down`, `Acyclic.wellFounded_up`, `TreeBelow.acc_down` — where one can neither
  go down nor up for ever.
* `preorder_ends` — a recursion over the children ends there.
-/

namespace AgentProtocols.Lib

variable {α : Type*} {children children' : α → List α} {a b : α}

def IsChild (children : α → List α) (a b : α) : Prop := b ∈ children a

/-- No node is reached from itself. -/
def Acyclic (children : α → List α) : Prop := ∀ a, ¬ Relation.TransGen (IsChild children) a a

theorem Acyclic.of_subset (acyclic : Acyclic children) (sub : ∀ a, children' a ⊆ children a) :
    Acyclic children' :=
  fun a cycle => acyclic a (Relation.TransGen.mono (fun _ _ child => sub _ child) _ _ cycle)

theorem acyclic_of_nil (nil : ∀ a, children a = []) : Acyclic children := by
  intro a cycle
  obtain ⟨b, child, -⟩ := Relation.TransGen.head'_iff.mp cycle
  rw [IsChild, nil] at child
  cases child

/-- One node gets new children, which have no children themselves; other nodes only lose some. -/
theorem Acyclic.redirect (acyclic : Acyclic children) (u : α)
    (old : ∀ a, a ≠ u → children' a ⊆ children a)
    (new : ∀ b ∈ children' u, children' b = []) : Acyclic children' := by
  -- a path that uses the new edges has come to an end
  have path : ∀ {a b}, Relation.TransGen (IsChild children') a b →
      Relation.TransGen (IsChild children) a b ∨ children' b = [] := by
    intro a b path
    induction path with
    | single child =>
      by_cases same : a = u
      · exact .inr (new _ (same ▸ child))
      · exact .inl (.single (old a same child))
    | tail before child ih =>
      rename_i c d
      rcases ih with was | done
      · by_cases same : c = u
        · exact .inr (new _ (same ▸ child))
        · exact .inl (was.tail (old c same child))
      · rw [IsChild, done] at child
        cases child
  intro a cycle
  rcases path cycle with was | done
  · exact acyclic a was
  · obtain ⟨b, child, -⟩ := Relation.TransGen.head'_iff.mp cycle
    rw [IsChild, done] at child
    cases child

/-! ### Going up and down -/

section Finite

variable {parents : List α}

private theorem wellFounded_on (parents : List α) (r : α → α → Prop) (irrefl : ∀ a, ¬ Relation.TransGen r a a) :
    WellFounded fun a b : {x // x ∈ parents} => Relation.TransGen r a.1 b.1 := by
  have : Finite {x // x ∈ parents} := List.finite_toSet parents
  have : IsTrans {x // x ∈ parents} fun a b => Relation.TransGen r a.1 b.1 :=
    ⟨fun _ _ _ first second => first.trans second⟩
  have : Std.Irrefl fun a b : {x // x ∈ parents} => Relation.TransGen r a.1 b.1 :=
    ⟨fun a => irrefl a.1⟩
  exact Finite.wellFounded_of_trans_of_irrefl _

theorem Acyclic.wellFounded_down (acyclic : Acyclic children)
    (finite : ∀ a, children a ≠ [] → a ∈ parents) : WellFounded fun b a => IsChild children a b := by
  have wf := wellFounded_on parents (fun b a => IsChild children a b)
    fun a cycle => acyclic a (Relation.transGen_swap.mp cycle)
  have leaf : ∀ a, children a = [] → Acc (fun b a => IsChild children a b) a := by
    intro a none_
    refine ⟨a, fun b child => ?_⟩
    rw [IsChild, none_] at child
    cases child
  have parent : ∀ x : {x // x ∈ parents}, Acc (fun b a => IsChild children a b) x.1 := by
    intro x
    induction x using wf.induction with
    | _ x ih =>
      refine ⟨x.1, fun b child => ?_⟩
      by_cases none_ : children b = []
      · exact leaf b none_
      · exact ih ⟨b, finite b none_⟩ (.single child)
  refine ⟨fun a => ?_⟩
  by_cases none_ : children a = []
  · exact leaf a none_
  · exact parent ⟨a, finite a none_⟩

theorem Acyclic.wellFounded_up (acyclic : Acyclic children)
    (finite : ∀ a, children a ≠ [] → a ∈ parents) : WellFounded (IsChild children) := by
  have wf := wellFounded_on parents (IsChild children) acyclic
  have known : ∀ {a b}, IsChild children a b → a ∈ parents := by
    intro a b child
    refine finite a fun none_ => ?_
    rw [IsChild, none_] at child
    cases child
  have parent : ∀ x : {x // x ∈ parents}, Acc (IsChild children) x.1 := by
    intro x
    induction x using wf.induction with
    | _ x ih => exact ⟨x.1, fun a child => ih ⟨a, known child⟩ (.single child)⟩
  exact ⟨fun b => ⟨b, fun a child => parent ⟨a, known child⟩⟩⟩

end Finite

/-! ### Trees -/

/-- Nodes reached from the root have one parent each, and the root has none. -/
structure TreeBelow (children : α → List α) (root : α) : Prop where
  top : ∀ a, root ∉ children a
  parent : ∀ a b c, Relation.ReflTransGen (IsChild children) root c → IsChild children a c →
    IsChild children b c → a = b

section Tree

variable {root c : α}

theorem TreeBelow.no_cycle (tree : TreeBelow children root)
    (below : Relation.ReflTransGen (IsChild children) root c) :
    ¬ Relation.TransGen (IsChild children) c c := by
  induction below with
  | refl =>
    intro cycle
    obtain ⟨a, -, child⟩ := Relation.TransGen.tail'_iff.mp cycle
    exact tree.top a child
  | tail before child ih =>
    intro cycle
    obtain ⟨a, path, last⟩ := Relation.TransGen.tail'_iff.mp cycle
    rw [tree.parent _ _ _ (before.tail child) last child] at path
    exact ih (Relation.TransGen.head' child path)

/-- One cannot go down for ever from a node of the tree. -/
theorem TreeBelow.acc_down (tree : TreeBelow children root) {parents : List α}
    (finite : ∀ a, children a ≠ [] → a ∈ parents)
    (below : Relation.ReflTransGen (IsChild children) root c) :
    Acc (fun b a => IsChild children a b) c := by
  classical
  -- the rest of the graph is cut off
  let inside (a : α) : List α :=
    if Relation.ReflTransGen (IsChild children) root a then children a else []
  have edge : ∀ {a b}, IsChild inside a b ↔
      Relation.ReflTransGen (IsChild children) root a ∧ IsChild children a b := by
    intro a b
    dsimp only [IsChild, inside]
    split
    · rename_i reached
      exact ⟨fun child => ⟨reached, child⟩, fun child => child.2⟩
    · rename_i apart
      exact ⟨fun child => absurd child List.not_mem_nil, fun child => absurd child.1 apart⟩
  have acyclic : Acyclic inside := by
    intro a cycle
    obtain ⟨b, child, -⟩ := Relation.TransGen.head'_iff.mp cycle
    exact tree.no_cycle (edge.mp child).1
      (Relation.TransGen.mono (fun _ _ child => (edge.mp child).2) _ _ cycle)
  have finite' : ∀ a, inside a ≠ [] → a ∈ parents := by
    intro a some_child
    apply finite a
    dsimp only [inside] at some_child
    split at some_child
    · exact some_child
    · exact absurd rfl some_child
  have acc := (acyclic.wellFounded_down finite').apply c
  induction acc with
  | intro a _ ih => exact ⟨a, fun b child => ih b (edge.mpr ⟨below, child⟩) (below.tail child)⟩

end Tree

/-! ### Recursion over the children -/

section Preorder

variable {δ σ : Type*} {visit : α → δ → σ → σ} {down : δ → δ}

/-- Visit a node and then its children in order, as long as there is fuel. -/
def preorder (children : α → List α) (visit : α → δ → σ → σ) (down : δ → δ) :
    Nat → α → δ → σ → Option σ
  | 0, _, _, _ => none
  | fuel + 1, a, d, s =>
    (children a).foldlM (fun s b => preorder children visit down fuel b (down d) s) (visit a d s)

variable {s s' : σ} {f : σ → α → Option σ} {l : List α}

private theorem foldlM_ends
    (ends : ∀ b ∈ l, ∀ s, ∃ s', f s b = some s') (s : σ) : ∃ s', l.foldlM f s = some s' := by
  induction l generalizing s with
  | nil => exact ⟨s, rfl⟩
  | cons b l ih =>
    obtain ⟨s', first⟩ := ends b List.mem_cons_self s
    rw [List.foldlM_cons, first]
    exact ih (fun c mem => ends c (List.mem_cons_of_mem _ mem)) s'

private theorem foldlM_mono {g : σ → α → Option σ}
    (mono : ∀ s b s', f s b = some s' → g s b = some s')
    (done : l.foldlM f s = some s') : l.foldlM g s = some s' := by
  induction l generalizing s with
  | nil => exact done
  | cons b l ih =>
    rw [List.foldlM_cons, Option.bind_eq_bind, Option.bind_eq_some_iff] at done
    obtain ⟨mid, first, rest⟩ := done
    rw [List.foldlM_cons, mono s b mid first]
    exact ih rest

theorem preorder_mono {m n : Nat} (le : m ≤ n) {d : δ}
    (done : preorder children visit down m a d s = some s') :
    preorder children visit down n a d s = some s' := by
  induction m generalizing n a d s s' with
  | zero => cases done
  | succ m ih =>
    obtain ⟨n, rfl⟩ : ∃ k, n = k + 1 := ⟨n - 1, by omega⟩
    exact foldlM_mono (fun s b s' turn => ih (Nat.le_of_succ_le_succ le) turn) done

private theorem foldlM_post {Inv : σ → Prop}
    (kept : ∀ s b s', Inv s → f s b = some s' → Inv s') (inv : Inv s)
    (done : l.foldlM f s = some s') : Inv s' := by
  induction l generalizing s with
  | nil =>
    cases done
    exact inv
  | cons b l ih =>
    rw [List.foldlM_cons, Option.bind_eq_bind, Option.bind_eq_some_iff] at done
    obtain ⟨mid, first, rest⟩ := done
    exact ih (kept s b mid inv first) rest

theorem preorder_post (Inv : σ → Prop) (kept : ∀ a d s, Inv s → Inv (visit a d s)) {fuel : Nat} {d : δ}
    (inv : Inv s) (done : preorder children visit down fuel a d s = some s') : Inv s' := by
  induction fuel generalizing a d s s' with
  | zero => cases done
  | succ fuel ih =>
    exact foldlM_post (fun s b s' inv turn => ih inv turn) (kept a d s inv) done

/-- Below a node from which one cannot go down for ever, the recursion ends. -/
theorem preorder_ends (visit : α → δ → σ → σ) (down : δ → δ) (acc : Acc (fun b a => IsChild children a b) a) :
    ∃ fuel, ∀ d s, ∃ s', preorder children visit down fuel a d s = some s' := by
  induction acc with
  | intro a _ ih =>
    have bound : ∀ l, l ⊆ children a →
        ∃ fuel, ∀ b ∈ l, ∀ d s, ∃ s', preorder children visit down fuel b d s = some s' := by
      intro l sub
      induction l with
      | nil => exact ⟨0, fun b mem => absurd mem List.not_mem_nil⟩
      | cons c l ihl =>
        obtain ⟨m, first⟩ := ih c (sub List.mem_cons_self)
        obtain ⟨n, rest⟩ := ihl fun b mem => sub (List.mem_cons_of_mem _ mem)
        refine ⟨max m n, fun b mem d s => ?_⟩
        rcases List.mem_cons.mp mem with rfl | later
        · obtain ⟨s', done⟩ := first d s
          exact ⟨s', preorder_mono (Nat.le_max_left m n) done⟩
        · obtain ⟨s', done⟩ := rest b later d s
          exact ⟨s', preorder_mono (Nat.le_max_right m n) done⟩
    obtain ⟨fuel, ends⟩ := bound (children a) fun _ mem => mem
    exact ⟨fuel + 1, fun d s => foldlM_ends (fun b mem s => ends b mem (down d) s) (visit a d s)⟩

end Preorder

end AgentProtocols.Lib
