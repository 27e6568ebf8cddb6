import Mathlib.Algebra.Ring.Int.Defs
import Mathlib.Algebra.Ring.Nat
import AgentProtocols.Lib.OrderedMap

/-!
JSON values as `serde_json` holds them. `Json` keeps the members of an object as a list of pairs,
`Json.WellFormed` says that the keys are distinct at every level, and `Value` packages the two.
`Json.eqWith` is the equality of `Value`, generic in how numbers are compared.
-/

namespace AgentProtocols.Json

open Lib

/-- A finite IEEE 754 double by its fields, without the biased exponent 2047. -/
structure F64 where
  negative : Bool
  exponent : Fin 2047
  fraction : Fin (2 ^ 52)
deriving DecidableEq

namespace F64

def isZero (f : F64) : Bool := f.exponent.val == 0 && f.fraction.val == 0

def abs (f : F64) : F64 := { f with negative := false }

/-- IEEE equality of finite doubles: the two zeros are equal. -/
def eq (a b : F64) : Bool := a == b || (a.isZero && b.isZero)

end F64

/-- `serde_json::Number`: an unsigned, a negative signed or a float. -/
inductive Number where
  | posInt (n : Nat) (bound : n < 2 ^ 64)
  | negInt (i : Int) (negative : i < 0) (bound : -2 ^ 63 ≤ i)
  | float (f : F64)
deriving DecidableEq

namespace Number

def asI64 : Number → Option Int
  | posInt n _ => if n < 2 ^ 63 then some n else none
  | negInt i _ _ => some i
  | float _ => none

def asU64 : Number → Option Nat
  | posInt n _ => some n
  | negInt _ _ _ => none
  | float _ => none

/-- `PartialEq` of `Number`. -/
def eq : Number → Number → Bool
  | posInt n _, posInt m _ => n == m
  | negInt i _ _, negInt j _ _ => i == j
  | float f, float g => f.eq g
  | _, _ => false

/-- `Number::from(i64)`, in two's complement range. -/
def ofI64 (i : Int) : Number :=
  if nonneg : 0 ≤ i.bmod (2 ^ 64) then
    posInt (i.bmod (2 ^ 64)).toNat (by
      have upper := Int.bmod_lt (x := i) (m := 2 ^ 64) (by decide)
      omega)
  else
    negInt (i.bmod (2 ^ 64)) (by omega) (by
      have lower := Int.le_bmod (x := i) (m := 2 ^ 64) (by decide)
      omega)

theorem asI64_ofI64 {i : Int} (lower : -2 ^ 63 ≤ i) (upper : i < 2 ^ 63) :
    (ofI64 i).asI64 = some i := by
  have fixed : i.bmod (2 ^ 64) = i := by
    rw [Int.bmod_eq_iff (by decide)]
    omega
  unfold ofI64
  split
  · rename_i nonneg
    rw [fixed] at nonneg
    have small : (i.bmod (2 ^ 64)).toNat < 2 ^ 63 := by omega
    rw [asI64, if_pos small, fixed, Int.toNat_of_nonneg nonneg]
  · rw [asI64, fixed]

theorem asI64_range {n : Number} {i : Int} (h : n.asI64 = some i) : -2 ^ 63 ≤ i ∧ i < 2 ^ 63 := by
  cases n with
  | posInt n bound =>
    simp only [asI64] at h
    split at h
    · cases h
      omega
    · cases h
  | negInt j negative bound =>
    cases h
    omega
  | float f => cases h

end Number

end AgentProtocols.Json

namespace AgentProtocols

open Lib Json

/-- A JSON tree; the members of an object keep their insertion order. -/
inductive Json where
  | null
  | bool (b : Bool)
  | num (n : Json.Number)
  | str (s : String)
  | arr (items : List Json)
  | obj (fields : List (String × Json))

/-- `serde_json::Map<String, Value>`, the members of an object. -/
abbrev JsonDict := List (String × Json)

namespace JsonDict

/-- `Map::get`. -/
def get (d : JsonDict) (key : String) : Option Json := d.lookup key

/-- `Map::insert`: the value of a present key is replaced in place. -/
def insert (d : JsonDict) (key : String) (v : Json) : JsonDict := upsert key v d

def containsKey (d : JsonDict) (key : String) : Bool := (d.get key).isSome

@[simp] theorem get_insert_self (d : JsonDict) (key : String) (v : Json) :
    (d.insert key v).get key = some v :=
  lookup_upsert_self key v d

theorem get_insert_of_ne {d : JsonDict} {key other : String} (v : Json) (ne : other ≠ key) :
    (d.insert key v).get other = d.get other :=
  lookup_upsert_ne v ne d

theorem insert_insert (d : JsonDict) (key : String) (v w : Json) :
    (d.insert key v).insert key w = d.insert key w := upsert_upsert key v w d

theorem insert_of_get {d : JsonDict} {key : String} {v : Json} (found : d.get key = some v) :
    d.insert key v = d :=
  upsert_of_lookup found

end JsonDict

namespace Json

/-- The members of an object, `Value::as_object`. -/
def asObject : Json → Option JsonDict
  | .obj fields => some fields
  | _ => none

/-- The text of a string, `Value::as_str`. -/
def asStr : Json → Option String
  | .str s => some s
  | _ => none

/-- The items of an array, `Value::as_array`. -/
def asArray : Json → Option (List Json)
  | .arr items => some items
  | _ => none

/-- Induction over trees: an array or an object may use the claim for every
value below it. -/
theorem induction {P : Json → Prop} (null : P .null) (bool : ∀ b, P (.bool b))
    (num : ∀ n, P (.num n)) (str : ∀ s, P (.str s))
    (arr : ∀ items : List Json, (∀ x ∈ items, P x) → P (.arr items))
    (obj : ∀ fields : JsonDict, (∀ e ∈ fields, P e.2) → P (.obj fields)) : ∀ v, P v
  | .null => null
  | .bool b => bool b
  | .num n => num n
  | .str s => str s
  | .arr items => arr items fun x _ => induction null bool num str arr obj x
  | .obj fields => obj fields fun e _ => induction null bool num str arr obj e.2
termination_by v => sizeOf v
decreasing_by
  · have := List.sizeOf_lt_of_mem ‹x ∈ items›
    simp only [Json.arr.sizeOf_spec]
    omega
  · have := List.sizeOf_lt_of_mem ‹e ∈ fields›
    have : sizeOf e.2 < sizeOf e := by
      cases e
      simp only [Prod.mk.sizeOf_spec]
      omega
    simp only [Json.obj.sizeOf_spec]
    omega

/-! ### Identity of trees -/

mutual

/-- The trees are the same, order of members included. -/
def identical : Json → Json → Bool
  | .null, .null => true
  | .bool a, .bool b => a == b
  | .num a, .num b => a == b
  | .str a, .str b => a == b
  | .arr xs, .arr ys => identicalItems xs ys
  | .obj fs, .obj gs => identicalFields fs gs
  | _, _ => false

def identicalItems : List Json → List Json → Bool
  | [], [] => true
  | x :: xs, y :: ys => identical x y && identicalItems xs ys
  | _, _ => false

def identicalFields : JsonDict → JsonDict → Bool
  | [], [] => true
  | (k, v) :: fs, (j, w) :: gs => k == j && identical v w && identicalFields fs gs
  | _, _ => false

end

private theorem identicalItems_iff : ∀ {xs ys : List Json},
    (∀ x ∈ xs, ∀ y, identical x y = true ↔ x = y) → (identicalItems xs ys = true ↔ xs = ys)
  | [], [], _ => by simp [identicalItems]
  | [], y :: ys, _ => by simp [identicalItems]
  | x :: xs, [], _ => by simp [identicalItems]
  | x :: xs, y :: ys, ih => by
    have tail : identicalItems xs ys = true ↔ xs = ys :=
      identicalItems_iff fun z hz => ih z (List.mem_cons_of_mem _ hz)
    simp [identicalItems, ih x List.mem_cons_self y, tail]

private theorem identicalFields_iff : ∀ {fs gs : JsonDict},
    (∀ e ∈ fs, ∀ y, identical e.2 y = true ↔ e.2 = y) → (identicalFields fs gs = true ↔ fs = gs)
  | [], [], _ => by simp [identicalFields]
  | [], g :: gs, _ => by simp [identicalFields]
  | f :: fs, [], _ => by simp [identicalFields]
  | (k, v) :: fs, (j, w) :: gs, ih => by
    have head := ih (k, v) List.mem_cons_self w
    simp only at head
    have tail : identicalFields fs gs = true ↔ fs = gs :=
      identicalFields_iff fun z hz => ih z (List.mem_cons_of_mem _ hz)
    simp [identicalFields, head, tail]

theorem identical_iff (a : Json) : ∀ b, identical a b = true ↔ a = b := by
  induction a using Json.induction with
  | null => intro b; cases b <;> simp [identical]
  | bool x => intro b; cases b <;> simp [identical]
  | num n => intro b; cases b <;> simp [identical]
  | str s => intro b; cases b <;> simp [identical]
  | arr items ih => intro b; cases b <;> simp [identical, identicalItems_iff ih]
  | obj fields ih => intro b; cases b <;> simp [identical, identicalFields_iff ih]

instance : DecidableEq Json := fun a b => decidable_of_iff _ (identical_iff a b)

/-! ### Equality of values -/

mutual

/-- Equality of `serde_json::Value`, with numbers compared by `numEq`. -/
def eqWith (numEq : Number → Number → Bool) : Json → Json → Bool
  | .null, .null => true
  | .bool a, .bool b => a == b
  | .num a, .num b => numEq a b
  | .str a, .str b => a == b
  | .arr xs, .arr ys => eqItems numEq xs ys
  | .obj fs, .obj gs => fs.length == gs.length && eqFields numEq fs gs
  | _, _ => false

/-- Item-by-item equality of two arrays. -/
def eqItems (numEq : Number → Number → Bool) : List Json → List Json → Bool
  | [], [] => true
  | x :: xs, y :: ys => eqWith numEq x y && eqItems numEq xs ys
  | _, _ => false

/-- Every member on the left has an equal member under the same key on the right. -/
def eqFields (numEq : Number → Number → Bool) : JsonDict → JsonDict → Bool
  | [], _ => true
  | (k, v) :: rest, gs =>
    (match gs.lookup k with
      | some w => eqWith numEq v w
      | none => false) && eqFields numEq rest gs

end

/-- `==` on `serde_json::Value`. -/
def beq (a b : Json) : Bool := eqWith Number.eq a b

/-- Equality up to the order of members, with identical numbers. -/
def same (a b : Json) : Bool := eqWith (fun n m => n == m) a b

theorem eqFields_iff {numEq : Number → Number → Bool} {gs : JsonDict} : ∀ {fs : JsonDict},
    eqFields numEq fs gs = true ↔ ∀ e ∈ fs, ∃ w, gs.lookup e.1 = some w ∧ eqWith numEq e.2 w = true
  | [] => by simp [eqFields]
  | (k, v) :: rest => by
    simp only [eqFields, Bool.and_eq_true, List.forall_mem_cons, @eqFields_iff _ gs rest]
    cases gs.lookup k <;> simp

theorem eqItems_iff {numEq : Number → Number → Bool} : ∀ {xs ys : List Json},
    eqItems numEq xs ys = true ↔ List.Forall₂ (fun x y => eqWith numEq x y = true) xs ys
  | [], [] => by simp [eqItems]
  | [], y :: ys => by simp [eqItems]
  | x :: xs, [] => by simp [eqItems]
  | x :: xs, y :: ys => by simp [eqItems, @eqItems_iff _ xs ys]

variable {numEq : Number → Number → Bool}

theorem eqWith_mono {numEq' : Number → Number → Bool}
    (coarser : ∀ n m, numEq n m = true → numEq' n m = true) (a : Json) :
    ∀ b, eqWith numEq a b = true → eqWith numEq' a b = true := by
  induction a using Json.induction with
  | null => intro b h; cases b <;> simp_all [eqWith]
  | bool x => intro b h; cases b <;> simp_all [eqWith]
  | num n => intro b h; cases b <;> simp_all [eqWith]
  | str s => intro b h; cases b <;> simp_all [eqWith]
  | arr items ih =>
    intro b h
    cases b with
    | arr ys =>
      simp only [eqWith, eqItems_iff] at h ⊢
      induction h with
      | nil => exact .nil
      | cons hxy _ tail =>
        exact .cons (ih _ List.mem_cons_self _ hxy)
          (tail fun x hx => ih x (List.mem_cons_of_mem _ hx))
    | _ => simp [eqWith] at h
  | obj fields ih =>
    intro b h
    cases b with
    | obj gs =>
      simp only [eqWith, Bool.and_eq_true, eqFields_iff] at h ⊢
      refine ⟨h.1, fun e he => ?_⟩
      obtain ⟨w, found, eq⟩ := h.2 e he
      exact ⟨w, found, ih e he w eq⟩
    | _ => simp [eqWith] at h

theorem eqWith_trans
    (trans : ∀ n m l, numEq n m = true → numEq m l = true → numEq n l = true) (a : Json) :
    ∀ b c, eqWith numEq a b = true → eqWith numEq b c = true → eqWith numEq a c = true := by
  induction a using Json.induction with
  | null =>
    intro b c first second
    cases b with
    | null => exact second
    | _ => simp [eqWith] at first
  | bool x =>
    intro b c first second
    cases b with
    | bool y =>
      rw [eqWith, beq_iff_eq] at first
      exact first ▸ second
    | _ => simp [eqWith] at first
  | num n =>
    intro b c first second
    cases b with
    | num m =>
      cases c with
      | num l => exact trans n m l first second
      | _ => simp [eqWith] at second
    | _ => simp [eqWith] at first
  | str s =>
    intro b c first second
    cases b with
    | str t =>
      rw [eqWith, beq_iff_eq] at first
      exact first ▸ second
    | _ => simp [eqWith] at first
  | arr items ih =>
    intro b c first second
    cases b with
    | arr ys =>
      cases c with
      | arr zs =>
        simp only [eqWith, eqItems_iff] at first second ⊢
        induction first generalizing zs with
        | nil => exact second
        | cons head _ tail =>
          cases second with
          | cons head' second =>
            exact .cons (ih _ List.mem_cons_self _ _ head head')
              (tail (fun x mem => ih x (List.mem_cons_of_mem _ mem)) _ second)
      | _ => simp [eqWith] at second
    | _ => simp [eqWith] at first
  | obj fields ih =>
    intro b c first second
    cases b with
    | obj gs =>
      cases c with
      | obj hs =>
        simp only [eqWith, Bool.and_eq_true, eqFields_iff, beq_iff_eq] at first second ⊢
        refine ⟨first.1.trans second.1, fun e mem => ?_⟩
        obtain ⟨w, found, eq⟩ := first.2 e mem
        obtain ⟨before, after, split, -⟩ := List.lookup_eq_some_iff.mp found
        have listed : (e.1, w) ∈ gs := by simp [split]
        obtain ⟨u, found', eq'⟩ := second.2 (e.1, w) listed
        exact ⟨u, found', ih e mem w u eq eq'⟩
      | _ => simp [eqWith] at second
    | _ => simp [eqWith] at first

theorem beq_trans {a b c : Json} (first : beq a b = true) (second : beq b c = true) :
    beq a c = true := by
  refine eqWith_trans (fun n m l first second => ?_) a b c first second
  cases n <;> cases m <;> cases l <;> simp_all [Number.eq, F64.eq]
  rcases first with rfl | first
  · exact second
  · rcases second with rfl | second
    · exact .inr first
    · exact .inr ⟨first.1, second.2⟩

/-! ### The map invariant -/

mutual

/-- Every object of the tree has distinct keys. -/
def wellFormed : Json → Bool
  | .arr items => wellFormedItems items
  | .obj fields => decide (fields.map Prod.fst).Nodup && wellFormedFields fields
  | _ => true

def wellFormedItems : List Json → Bool
  | [] => true
  | x :: xs => wellFormed x && wellFormedItems xs

def wellFormedFields : JsonDict → Bool
  | [] => true
  | (_, v) :: rest => wellFormed v && wellFormedFields rest

end

/-- The invariant of `serde_json::Map`, at every level of the tree. -/
def WellFormed (v : Json) : Prop := v.wellFormed = true

instance (v : Json) : Decidable v.WellFormed := inferInstanceAs (Decidable (_ = true))

theorem wellFormedItems_iff : ∀ {items : List Json},
    wellFormedItems items = true ↔ ∀ x ∈ items, x.WellFormed
  | [] => by simp [wellFormedItems]
  | x :: xs => by
    simp [wellFormedItems, @wellFormedItems_iff xs, WellFormed]

theorem wellFormedFields_iff : ∀ {fields : JsonDict},
    wellFormedFields fields = true ↔ ∀ e ∈ fields, e.2.WellFormed
  | [] => by simp [wellFormedFields]
  | (k, v) :: rest => by
    simp [wellFormedFields, @wellFormedFields_iff rest, WellFormed]

@[simp] theorem wellFormed_bool (b : Bool) : (Json.bool b).WellFormed := rfl

@[simp] theorem wellFormed_num (n : Number) : (Json.num n).WellFormed := rfl

@[simp] theorem wellFormed_str (s : String) : (Json.str s).WellFormed := rfl

@[simp] theorem wellFormed_arr {items : List Json} :
    (Json.arr items).WellFormed ↔ ∀ x ∈ items, x.WellFormed := by
  rw [WellFormed, wellFormed, wellFormedItems_iff]

@[simp] theorem wellFormed_obj {fields : JsonDict} :
    (Json.obj fields).WellFormed ↔ (fields.map Prod.fst).Nodup ∧ ∀ e ∈ fields, e.2.WellFormed := by
  rw [WellFormed, wellFormed, Bool.and_eq_true, decide_eq_true_iff, wellFormedFields_iff]

theorem eqWith_refl (refl : ∀ n, numEq n n = true) (a : Json) :
    a.WellFormed → eqWith numEq a a = true := by
  induction a using Json.induction with
  | null => intro _; rfl
  | bool b => intro _; simp [eqWith]
  | num n => intro _; simp [eqWith, refl]
  | str s => intro _; simp [eqWith]
  | arr items ih =>
    intro wf
    rw [eqWith, eqItems_iff, List.forall₂_same]
    exact fun x mem => ih x mem (wellFormed_arr.mp wf x mem)
  | obj fields ih =>
    intro wf
    obtain ⟨nodup, members⟩ := wellFormed_obj.mp wf
    rw [eqWith, Bool.and_eq_true, eqFields_iff]
    exact ⟨beq_self_eq_true _, fun e mem =>
      ⟨e.2, (lookup_eq_some_iff_mem nodup).mpr mem, ih e mem (members e mem)⟩⟩

theorem beq_refl {a : Json} (wf : a.WellFormed) : beq a a = true :=
  eqWith_refl (fun n => by cases n <;> simp [Number.eq, F64.eq]) a wf

end Json

namespace JsonDict

/-- The members of a well-formed object. -/
def WellFormed (d : JsonDict) : Prop := (Json.obj d).WellFormed

instance (d : JsonDict) : Decidable d.WellFormed := inferInstanceAs (Decidable (_ = true))

theorem wellFormed_nil : WellFormed [] := rfl

variable {d : JsonDict}

theorem WellFormed.nodup (wf : d.WellFormed) : (d.map Prod.fst).Nodup :=
  (Json.wellFormed_obj.mp wf).1

theorem WellFormed.of_get (wf : d.WellFormed) {key : String} {v : Json}
    (found : d.get key = some v) : v.WellFormed :=
  (Json.wellFormed_obj.mp wf).2 _ ((lookup_eq_some_iff_mem wf.nodup).mp found)

theorem WellFormed.insert (wf : d.WellFormed) (key : String) {v : Json}
    (hv : v.WellFormed) : (d.insert key v).WellFormed := by
  have nodup := nodup_keys_upsert key v wf.nodup
  refine Json.wellFormed_obj.mpr ⟨nodup, fun e he => ?_⟩
  have found : (d.insert key v).get e.1 = some e.2 := (lookup_eq_some_iff_mem nodup).mpr he
  by_cases h : e.1 = key
  · rw [h, get_insert_self] at found
    cases found
    exact hv
  · rw [get_insert_of_ne v h] at found
    exact wf.of_get found

end JsonDict

/-- A JSON value as the source holds it: a tree whose objects are maps. -/
def Value : Type := { v : Json // v.WellFormed }

end AgentProtocols
