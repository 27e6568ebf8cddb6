import Mathlib.Data.List.Nodup

/-!
Lists that stand for finite maps: `Represents key l m` says that `m` maps each key of `l` to its
element, and `Represents.replace` that an element may be replaced.
-/

namespace AgentProtocols.Lib

open List

variable {α κ : Type*} {key : α → κ} {l : List α} {m : κ → Option α} {k : κ}

/-- The list holds what the map has, each key once. -/
structure Represents (key : α → κ) (l : List α) (m : κ → Option α) : Prop where
  distinct : (l.map key).Nodup
  exact : ∀ k a, m k = some a ↔ a ∈ l ∧ key a = k

theorem represents_nil (key : α → κ) : Represents key [] fun _ => none :=
  ⟨nodup_nil, fun k a => by simp⟩

variable [BEq κ] [LawfulBEq κ]

theorem eraseP_eq_filter : ∀ {l : List α}, (l.map key).Nodup →
    l.eraseP (fun a => key a == k) = l.filter (fun a => key a != k)
  | [], _ => rfl
  | a :: rest, distinct => by
    obtain ⟨fresh, later⟩ := nodup_cons.mp distinct
    by_cases same : key a = k
    · have others : rest.filter (fun a => key a != k) = rest := by
        rw [filter_eq_self]
        intro b mem
        rw [bne_iff_ne, ← same]
        exact fun clash => fresh (clash ▸ mem_map_of_mem mem)
      simp [same, others]
    · simp [same, eraseP_eq_filter later]

namespace Represents

theorem mem_eraseP_iff (rep : Represents key l m) {a : α} :
    a ∈ l.eraseP (fun a => key a == k) ↔ a ∈ l ∧ key a ≠ k := by
  rw [eraseP_eq_filter rep.distinct, mem_filter, bne_iff_ne]

theorem find?_eq (rep : Represents key l m) (k : κ) : l.find? (fun a => key a == k) = m k := by
  cases found : l.find? (fun a => key a == k) with
  | none =>
    cases there : m k with
    | none => rfl
    | some a =>
      obtain ⟨mem, at_k⟩ := (rep.exact k a).mp there
      exact absurd (beq_iff_eq.mpr at_k) (find?_eq_none.mp found a mem)
  | some a =>
    have at_k := find?_some found
    exact ((rep.exact k a).mpr ⟨mem_of_find?_eq_some found, beq_iff_eq.mp at_k⟩).symm

variable [DecidableEq κ]

theorem remove (rep : Represents key l m) (k : κ) :
    Represents key (l.eraseP fun a => key a == k) (Function.update m k none) where
  distinct := rep.distinct.sublist (eraseP_sublist.map key)
  exact := by
    intro j a
    rw [rep.mem_eraseP_iff, Function.update_apply]
    split
    · rename_i same
      refine ⟨fun found => ?_, fun ⟨⟨_, other⟩, at_j⟩ => absurd (at_j.trans same) other⟩
      cases found
    · rename_i other
      rw [rep.exact]
      exact ⟨fun ⟨mem, at_j⟩ => ⟨⟨mem, fun clash => other (at_j.symm.trans clash)⟩, at_j⟩,
        fun ⟨⟨mem, _⟩, at_j⟩ => ⟨mem, at_j⟩⟩

/-- An element replaces the one with its key, and becomes the last. -/
theorem replace (rep : Represents key l m) (new : α) :
    Represents key ((l.eraseP fun a => key a == key new) ++ [new])
      (Function.update m (key new) (some new)) where
  distinct := by
    rw [map_append]
    refine List.Nodup.append (rep.remove (key new)).distinct (nodup_singleton _) ?_
    intro k mem mem'
    obtain ⟨a, there, rfl⟩ := mem_map.mp mem
    exact (rep.mem_eraseP_iff.mp there).2 (mem_singleton.mp mem')
  exact := by
    intro j a
    rw [mem_append, rep.mem_eraseP_iff, mem_singleton, Function.update_apply]
    split
    · rename_i same
      constructor
      · intro found
        cases found
        exact ⟨.inr rfl, same.symm⟩
      · rintro ⟨⟨_, other⟩ | rfl, at_j⟩
        · exact absurd (at_j.trans same) other
        · rfl
    · rename_i other
      rw [rep.exact]
      constructor
      · rintro ⟨mem, at_j⟩
        exact ⟨.inl ⟨mem, fun clash => other (at_j.symm.trans clash)⟩, at_j⟩
      · rintro ⟨⟨mem, _⟩ | rfl, at_j⟩
        · exact ⟨mem, at_j⟩
        · exact absurd at_j.symm other

end Represents

end AgentProtocols.Lib
