import Mathlib.Data.List.Nodup
import Mathlib.Data.List.Perm.Basic

/-!
Finite maps that keep their insertion order: lists of pairs with distinct keys. `upsert` replaces
the value of a key in place or appends the pair. Later proofs use the lookup lemmas only.
-/

namespace AgentProtocols.Lib

open List

variable {K V : Type*} [DecidableEq K]

/-- Replace the value of `k` in place, or append the pair. -/
def upsert (k : K) (v : V) : List (K × V) → List (K × V)
  | [] => [(k, v)]
  | (k', v') :: rest => if k' = k then (k, v) :: rest else (k', v') :: upsert k v rest

theorem lookup_upsert_self (k : K) (v : V) :
    ∀ l : List (K × V), (upsert k v l).lookup k = some v
  | [] => by simp [upsert]
  | (k', v') :: rest => by
    by_cases h : k' = k
    · simp [upsert, h]
    · have h' : (k == k') = false := by simpa using Ne.symm h
      simp [upsert, h, lookup_cons, h', lookup_upsert_self k v rest]

variable {k : K}

theorem lookup_upsert_ne {j : K} (v : V) (ne : j ≠ k) :
    ∀ l : List (K × V), (upsert k v l).lookup j = l.lookup j
  | [] => by
    have h' : (j == k) = false := by simpa using ne
    simp [upsert, lookup_cons, h']
  | (k', v') :: rest => by
    by_cases h : k' = k
    · have h' : (j == k) = false := by simpa using ne
      simp [upsert, h, lookup_cons, h']
    · simp [upsert, h, lookup_cons, lookup_upsert_ne v ne rest]

theorem upsert_of_lookup {k : K} {v : V} :
    ∀ {l : List (K × V)}, l.lookup k = some v → upsert k v l = l
  | (k', v') :: rest, found => by
    by_cases h : k' = k
    · subst h
      simp only [lookup_cons, beq_self_eq_true, Option.some.injEq] at found
      simp [upsert, found]
    · have h' : (k == k') = false := by simpa using Ne.symm h
      simp only [lookup_cons, h'] at found
      simp [upsert, h, upsert_of_lookup found]

theorem upsert_upsert (k : K) (v w : V) : ∀ l : List (K × V), upsert k w (upsert k v l) = upsert k w l
  | [] => by simp [upsert]
  | (k', v') :: rest => by
    by_cases h : k' = k
    · simp [upsert, h]
    · simp [upsert, h, upsert_upsert k v w rest]

theorem map_upsert_of_lookup {β : Type*} (f : V → β) {k : K} {v old : V} (same : f v = f old) :
    ∀ {l : List (K × V)}, l.lookup k = some old →
      (upsert k v l).map (fun e => f e.2) = l.map fun e => f e.2
  | (k', v') :: rest, found => by
    by_cases h : k' = k
    · subst h
      simp only [lookup_cons, beq_self_eq_true, Option.some.injEq] at found
      simp [upsert, found, same]
    · have h' : (k == k') = false := by simpa using Ne.symm h
      rw [lookup_cons, h'] at found
      simp [upsert, h, map_upsert_of_lookup f same found]

theorem keys_upsert_of_mem {k : K} (v : V) :
    ∀ {l : List (K × V)}, k ∈ l.map Prod.fst → (upsert k v l).map Prod.fst = l.map Prod.fst
  | (k', v') :: rest, mem => by
    by_cases h : k' = k
    · simp [upsert, h]
    · have tail : k ∈ rest.map Prod.fst := by
        simpa [Ne.symm h] using mem
      simp [upsert, h, keys_upsert_of_mem v tail]

theorem keys_upsert_of_not_mem {k : K} (v : V) :
    ∀ {l : List (K × V)}, k ∉ l.map Prod.fst → (upsert k v l).map Prod.fst = l.map Prod.fst ++ [k]
  | [], _ => rfl
  | (k', v') :: rest, mem => by
    simp only [map_cons, mem_cons, not_or] at mem
    have h : k' ≠ k := Ne.symm mem.1
    simp [upsert, h, keys_upsert_of_not_mem v mem.2]

theorem nodup_keys_upsert (k : K) (v : V) {l : List (K × V)}
    (nodup : (l.map Prod.fst).Nodup) : ((upsert k v l).map Prod.fst).Nodup := by
  by_cases mem : k ∈ l.map Prod.fst
  · rw [keys_upsert_of_mem v mem]
    exact nodup
  · rw [keys_upsert_of_not_mem v mem]
    exact nodup.append (nodup_singleton k) (by simpa [disjoint_singleton] using mem)

theorem lookup_eq_some_iff_mem {k : K} {v : V} :
    ∀ {l : List (K × V)}, (l.map Prod.fst).Nodup → (l.lookup k = some v ↔ (k, v) ∈ l)
  | [], _ => by simp
  | (k', v') :: rest, nodup => by
    simp only [map_cons, nodup_cons] at nodup
    by_cases h : k = k'
    · subst h
      have absent : (k, v) ∉ rest := fun mem => nodup.1 (mem_map_of_mem mem)
      simp [absent, eq_comm]
    · have h' : (k == k') = false := by simpa using h
      simp [lookup_cons, h', h, lookup_eq_some_iff_mem nodup.2]

/-- A finite map with distinct keys, in insertion order. -/
structure OrderedMap (K V : Type*) where
  entries : List (K × V)
  nodup : (entries.map Prod.fst).Nodup

namespace OrderedMap

def empty : OrderedMap K V := ⟨[], List.nodup_nil⟩

def get? (m : OrderedMap K V) (k : K) : Option V := m.entries.lookup k

def insert (m : OrderedMap K V) (k : K) (v : V) : OrderedMap K V :=
  ⟨upsert k v m.entries, nodup_keys_upsert k v m.nodup⟩

variable {l rows : List (K × V)}

omit [DecidableEq K] in
private theorem nodup_filter (p : K × V → Bool)
    (nodup : (l.map Prod.fst).Nodup) : ((l.filter p).map Prod.fst).Nodup :=
  nodup.sublist (filter_sublist.map _)

/-- Keep the pairs that satisfy `p`. -/
def retain (m : OrderedMap K V) (p : K → V → Bool) : OrderedMap K V :=
  ⟨m.entries.filter fun e => p e.1 e.2, nodup_filter _ m.nodup⟩

def erase (m : OrderedMap K V) (k : K) : OrderedMap K V :=
  m.retain fun k' _ => decide (k' ≠ k)

omit [DecidableEq K] in
private theorem nodup_mapValues (f : V → V) (nodup : (l.map Prod.fst).Nodup) :
    ((l.map fun e => (e.1, f e.2)).map Prod.fst).Nodup := by
  rw [map_map]
  exact nodup

/-- Change every value in place. -/
def mapValues (m : OrderedMap K V) (f : V → V) : OrderedMap K V :=
  ⟨m.entries.map fun e => (e.1, f e.2), nodup_mapValues f m.nodup⟩

def keys (m : OrderedMap K V) : List K := m.entries.map Prod.fst

def values (m : OrderedMap K V) : List V := m.entries.map Prod.snd

variable {m : OrderedMap K V} {k j : K} {v : V}

theorem get?_eq_some_iff : m.get? k = some v ↔ (k, v) ∈ m.entries :=
  lookup_eq_some_iff_mem m.nodup

theorem get?_eq_none_iff : m.get? k = none ↔ k ∉ m.keys := by
  rw [Option.eq_none_iff_forall_ne_some]
  simp only [ne_eq, get?_eq_some_iff, keys, mem_map, Prod.exists, exists_and_right,
    exists_eq_right, not_exists]

theorem mem_keys_iff : k ∈ m.keys ↔ ∃ v, m.get? k = some v := by
  simp only [get?_eq_some_iff, keys, mem_map, Prod.exists, exists_and_right, exists_eq_right]

@[simp] theorem get?_empty : (empty : OrderedMap K V).get? k = none := rfl

theorem forall_get?_empty {P : K → V → Prop} :
    ∀ k v, (empty : OrderedMap K V).get? k = some v → P k v := by
  rintro k v ⟨⟩

@[simp] theorem get?_insert_self : (m.insert k v).get? k = some v :=
  lookup_upsert_self k v m.entries

theorem get?_insert_of_ne (ne : j ≠ k) : (m.insert k v).get? j = m.get? j :=
  lookup_upsert_ne v ne m.entries

theorem get?_insert : (m.insert k v).get? j = if j = k then some v else m.get? j := by
  split
  · rename_i h
    rw [h, get?_insert_self]
  · rename_i h
    exact get?_insert_of_ne h

theorem map_values_insert {β : Type*} (f : V → β) {old : V} (found : m.get? k = some old)
    (same : f v = f old) : (m.insert k v).values.map f = m.values.map f := by
  rw [values, values, map_map, map_map]
  exact map_upsert_of_lookup f same found

theorem get?_retain {p : K → V → Bool} : (m.retain p).get? k = (m.get? k).filter (p k) := by
  apply Option.ext
  intro v
  simp only [retain, mem_filter, Option.filter_eq_some_iff, get?_eq_some_iff]

@[simp] theorem get?_erase_self : (m.erase k).get? k = none := by
  rw [erase, get?_retain]
  cases m.get? k <;> simp [Option.filter]

theorem get?_erase_of_ne (ne : j ≠ k) : (m.erase k).get? j = m.get? j := by
  rw [erase, get?_retain]
  cases m.get? j <;> simp [ne]

theorem get?_of_get?_erase (found : (m.erase k).get? j = some v) : m.get? j = some v ∧ j ≠ k := by
  by_cases same : j = k
  · subst same
    rw [get?_erase_self] at found
    cases found
  · rw [get?_erase_of_ne same] at found
    exact ⟨found, same⟩

theorem get?_mapValues {f : V → V} : (m.mapValues f).get? k = (m.get? k).map f := by
  apply Option.ext
  intro v
  simp only [mapValues, mem_map, Prod.mk.injEq, Prod.exists, Option.map_eq_some_iff,
    get?_eq_some_iff]
  constructor
  · rintro ⟨k', v', mem, rfl, rfl⟩
    exact ⟨v', mem, rfl⟩
  · rintro ⟨v', mem, rfl⟩
    exact ⟨k, v', mem, rfl, rfl⟩

omit [DecidableEq K] in
private theorem nodup_mapWithKey (f : K → V → V) (nodup : (l.map Prod.fst).Nodup) :
    ((l.map fun e => (e.1, f e.1 e.2)).map Prod.fst).Nodup := by
  rw [map_map]
  exact nodup

/-- Change every value in place, each by its key. -/
def mapWithKey (m : OrderedMap K V) (f : K → V → V) : OrderedMap K V :=
  ⟨m.entries.map fun e => (e.1, f e.1 e.2), nodup_mapWithKey f m.nodup⟩

theorem get?_mapWithKey {f : K → V → V} : (m.mapWithKey f).get? k = (m.get? k).map (f k) := by
  apply Option.ext
  intro v
  simp only [mapWithKey, mem_map, Prod.mk.injEq, Prod.exists, Option.map_eq_some_iff,
    get?_eq_some_iff]
  constructor
  · rintro ⟨k', v', mem, rfl, rfl⟩
    exact ⟨v', mem, rfl⟩
  · rintro ⟨v', mem, rfl⟩
    exact ⟨k, v', mem, rfl, rfl⟩

/-- Erase the keys one after the other. -/
def eraseAll (m : OrderedMap K V) (ks : List K) : OrderedMap K V := ks.foldl erase m

theorem get?_eraseAll {ks : List K} :
    (m.eraseAll ks).get? k = if k ∈ ks then none else m.get? k := by
  induction ks generalizing m with
  | nil => rfl
  | cons j ks ih =>
    show ((m.erase j).eraseAll ks).get? k = _
    rw [ih]
    by_cases same : k = j
    · subst same
      simp
    · simp only [mem_cons, same, false_or, get?_erase_of_ne same]

/-- Insert the pairs in order; a later pair replaces an earlier one. -/
def insertAll (m : OrderedMap K V) (rows : List (K × V)) : OrderedMap K V :=
  rows.foldl (fun m row => m.insert row.1 row.2) m

theorem insertAll_cons (row : K × V) (rows : List (K × V)) :
    m.insertAll (row :: rows) = (m.insert row.1 row.2).insertAll rows := rfl

theorem mem_of_get?_insertAll (found : (m.insertAll rows).get? k = some v) :
    (k, v) ∈ rows ∨ m.get? k = some v := by
  induction rows generalizing m with
  | nil => exact .inr found
  | cons row rows ih =>
    rcases ih found with mem | before
    · exact .inl (.tail _ mem)
    · rw [get?_insert] at before
      split at before
      · rename_i here
        cases before
        exact .inl (here ▸ .head _)
      · exact .inr before

theorem isSome_get?_insertAll :
    ((m.insertAll rows).get? k).isSome ↔ k ∈ rows.map Prod.fst ∨ (m.get? k).isSome := by
  induction rows generalizing m with
  | nil => simp [insertAll]
  | cons row rows ih =>
    rw [insertAll_cons, ih, get?_insert]
    split
    · rename_i same
      simp [same]
    · rename_i ne
      simp [ne]

theorem get?_insertAll_of_not_mem (absent : ∀ row ∈ rows, row.1 ≠ k) :
    (m.insertAll rows).get? k = m.get? k := by
  induction rows generalizing m with
  | nil => rfl
  | cons row rows ih =>
    rw [insertAll_cons, ih fun row mem => absent row (.tail _ mem)]
    exact get?_insert_of_ne (Ne.symm (absent row (.head _)))

theorem get?_insertAll_of_mem (mem : (k, v) ∈ rows)
    (agree : ∀ row ∈ rows, row.1 = k → row.2 = v) : (m.insertAll rows).get? k = some v := by
  induction rows generalizing m with
  | nil => cases mem
  | cons row rows ih =>
    rw [insertAll_cons]
    by_cases later : (k, v) ∈ rows
    · exact ih later fun row mem => agree row (.tail _ mem)
    · have absent : ∀ row ∈ rows, row.1 ≠ k := by
        intro other inside same
        apply later
        rw [← same, ← agree other (.tail _ inside) same]
        exact inside
      rw [get?_insertAll_of_not_mem absent]
      rcases mem_cons.mp mem with rfl | mem
      · exact get?_insert_self
      · exact absurd mem later

theorem get?_insertAll_empty {f : K → Option V} (lists : ∀ row, row ∈ rows ↔ f row.1 = some row.2) :
    ((empty : OrderedMap K V).insertAll rows).get? k = f k := by
  cases found : f k with
  | none =>
    rw [get?_insertAll_of_not_mem, get?_empty]
    rintro row mem rfl
    rw [lists, found] at mem
    cases mem
  | some v =>
    apply get?_insertAll_of_mem ((lists (k, v)).mpr found)
    rintro row mem rfl
    rw [lists, found] at mem
    exact (Option.some.inj mem).symm

theorem upsert_of_not_mem (absent : k ∉ l.map Prod.fst) : upsert k v l = l ++ [(k, v)] := by
  induction l with
  | nil => rfl
  | cons e l ih =>
    rw [map_cons, mem_cons, not_or] at absent
    rw [upsert, if_neg (Ne.symm absent.1), ih absent.2]
    rfl

theorem entries_insertAll (distinct : (m.keys ++ rows.map Prod.fst).Nodup) :
    (m.insertAll rows).entries = m.entries ++ rows := by
  induction rows generalizing m with
  | nil => exact (append_nil _).symm
  | cons row rows ih =>
    have absent : row.1 ∉ m.keys := by
      intro mem
      exact (nodup_append.mp distinct).2.2 _ mem _ mem_cons_self rfl
    have appended : (m.insert row.1 row.2).entries = m.entries ++ [row] :=
      upsert_of_not_mem absent
    rw [insertAll_cons, ih, appended, append_assoc]
    · rfl
    · rw [keys, appended, map_append, append_assoc]
      exact distinct

omit [DecidableEq K] in
theorem mapValues_mapValues {f g : V → V} :
    (m.mapValues f).mapValues g = m.mapValues fun v => g (f v) := by
  unfold mapValues
  congr 1
  rw [map_map]
  rfl

end OrderedMap

end AgentProtocols.Lib
