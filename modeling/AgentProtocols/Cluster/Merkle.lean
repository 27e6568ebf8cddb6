import AgentProtocols.Cluster.Envelope
import AgentProtocols.Json.Text

/-!
Bucketed Merkle digest for service-plane anti-entropy. `Sha256` is any function to 32 bytes;
comparisons rest on it being injective on what it was fed (`fed`). `entry_of_agreeing`: an entry
whose bucket does not differ is an entry of the other side, whatever the bucket count there.
-/

namespace AgentProtocols.Cluster

open Lib Json OrderedMap List

structure Sha256 where
  digest : List UInt8 → List UInt8
  length_digest : ∀ input, (digest input).length = 32

namespace Merkle

/-! ### Inputs -/

/-- Unit separator; cannot appear in ids. -/
def sep : Char := '\x1f'

def utf8 (s : String) : List UInt8 := s.toByteArray.data.toList

theorem utf8_injective : Function.Injective utf8 := by
  intro a b same
  apply String.toByteArray_inj.mp
  apply ByteArray.ext
  exact Array.toList_inj.mp same

/-- The key as text: its parts with the separator between them. -/
def keyStr (k : Key) : String :=
  .ofList (k.dataset.toList ++ sep :: (k.originId.toList ++ sep :: k.serviceId.toList))

def entryStr (e : Key × Version) : String :=
  .ofList ((keyStr e.1).toList ++ sep :: (intText e.2.ms ++ sep :: e.2.nodeId.toList))

/-- No part of the key contains the separator. -/
def Separable (k : Key) : Prop :=
  sep ∉ k.dataset.toList ∧ sep ∉ k.originId.toList ∧ sep ∉ k.serviceId.toList

instance (k : Key) : Decidable (Separable k) := inferInstanceAs (Decidable (_ ∧ _ ∧ _))

theorem sep_append_inj {a b r s : List Char} (clean : sep ∉ a) (clean' : sep ∉ b)
    (same : a ++ sep :: r = b ++ sep :: s) : a = b ∧ r = s := by
  have inside : ∀ {a : List Char}, sep ∉ a → ∀ c ∈ a, decide (c ≠ sep) = true := by
    intro a clean c mem
    simp only [decide_eq_true_eq]
    rintro rfl
    exact clean mem
  have stop : ∀ {r : List Char}, ∀ c ∈ (sep :: r).head?, decide (c ≠ sep) = false := by
    intro r c first
    cases first
    simp
  obtain ⟨texts, rests⟩ := run_append_inj (inside clean) (inside clean') stop stop same
  exact ⟨texts, (cons.inj rests).2⟩

theorem entryStr_inj {e f : Key × Version} (clean : Separable e.1) (clean' : Separable f.1)
    (same : entryStr e = entryStr f) : e = f := by
  obtain ⟨⟨dataset, origin, service⟩, ⟨ms, node⟩⟩ := e
  simp only [Separable] at clean clean'
  have texts := congrArg String.toList same
  simp only [entryStr, keyStr, String.toList_ofList, append_assoc, cons_append] at texts
  obtain ⟨sameDataset, texts⟩ := sep_append_inj clean.1 clean'.1 texts
  obtain ⟨sameOrigin, texts⟩ := sep_append_inj clean.2.1 clean'.2.1 texts
  obtain ⟨sameService, texts⟩ := sep_append_inj clean.2.2 clean'.2.2 texts
  have stop : ∀ {r : List Char}, ∀ c ∈ (sep :: r).head?, c.isDigit = false := by
    intro r c first
    cases first
    rfl
  obtain ⟨sameMs, texts⟩ := intText_append_inj stop stop texts
  have sameNode := (cons.inj texts).2
  rw [String.toList_injective sameDataset, String.toList_injective sameOrigin,
    String.toList_injective sameService, sameMs, String.toList_injective sameNode]

/-! ### Buckets -/

variable (H : Sha256)

/-- `bucket_of`: the first four bytes of the digest, big-endian, modulo the number of buckets. -/
def bucketOf (k : Key) (buckets : Nat) : Nat :=
  ((H.digest (utf8 (keyStr k))).take 4).foldl (fun n b => n * 256 + b.toNat) 0 % max buckets 1

def entryDigest (e : Key × Version) : List UInt8 := H.digest (utf8 (entryStr e))

/-- The order of `(Key, Version)` pairs that a bucket is sorted by. -/
def entryLe (a b : Key × Version) : Bool :=
  decide (toLex (a.1.dataset, toLex (a.1.originId, toLex (a.1.serviceId, a.2))) ≤
    toLex (b.1.dataset, toLex (b.1.originId, toLex (b.1.serviceId, b.2))))

def bucketEntries (index : OrderedMap Key Version) (buckets b : Nat) : List (Key × Version) :=
  (index.entries.filter fun e => bucketOf H e.1 buckets == b).mergeSort entryLe

/-- What the hash of a bucket is computed from. -/
def bucketInput (index : OrderedMap Key Version) (buckets b : Nat) : List UInt8 :=
  (bucketEntries H index buckets b).flatMap (entryDigest H)

def bucketsOf (index : OrderedMap Key Version) (buckets : Nat) : List Nat :=
  (index.entries.map fun e => bucketOf H e.1 buckets).dedup

def hexByte (b : UInt8) : List Char :=
  [Nat.digitChar (b.toNat / 16), Nat.digitChar (b.toNat % 16)]

def hexEncode (bytes : List UInt8) : String := .ofList (bytes.flatMap hexByte)

/-- `u32::to_string`. -/
def label (b : Nat) : String := .ofList (natText b)

/-- `bucket_hashes`: label to hash for every non-empty bucket. -/
def bucketHashes (index : OrderedMap Key Version) (buckets : Nat) : OrderedMap String String :=
  OrderedMap.empty.insertAll ((bucketsOf H index buckets).map fun b =>
    (label b, hexEncode (H.digest (bucketInput H index buckets b))))

/-- `str::parse::<u32>`: an optional plus sign and decimal digits, in range. -/
def parseU32 (text : String) : Option Nat :=
  let digits := match text.toList with
    | '+' :: rest => rest
    | text => text
  if digits ≠ [] ∧ digits.all Char.isDigit ∧ Nat.ofDigitChars 10 digits 0 < 2 ^ 32 then
    some (Nat.ofDigitChars 10 digits 0)
  else none

/-- `differing_buckets`: bucket indices present on either side with differing
hashes. -/
def differingBuckets (here there : OrderedMap String String) : List Nat :=
  ((here.keys ++ there.keys).filter fun b => here.get? b != there.get? b).filterMap parseU32

/-- The inputs of SHA-256 for the entries and the buckets of an index. -/
def fed (index : OrderedMap Key Version) (buckets : Nat) : List (List UInt8) :=
  index.entries.map (fun e => utf8 (entryStr e)) ++
    (bucketsOf H index buckets).map (bucketInput H index buckets)

/-! ### Reading hashes back -/

theorem flatMap_block_inj {α β : Type*} {f : α → List β} {w : Nat} (pos : 0 < w)
    (width : ∀ x, (f x).length = w) : ∀ {l l' : List α},
    (∀ x ∈ l, ∀ y ∈ l', f x = f y → x = y) → l.flatMap f = l'.flatMap f → l = l'
  | [], [], _, _ => rfl
  | [], y :: l', _, same => by
    have lengths := congrArg length same
    simp only [flatMap_nil, flatMap_cons, length_append, length_nil,
      width] at lengths
    omega
  | x :: l, [], _, same => by
    have lengths := congrArg length same
    simp only [flatMap_nil, flatMap_cons, length_append, length_nil,
      width] at lengths
    omega
  | x :: l, y :: l', inj, same => by
    rw [flatMap_cons, flatMap_cons] at same
    obtain ⟨block, rest⟩ := append_inj same (by rw [width, width])
    rw [inj x (.head _) y (.head _) block, flatMap_block_inj pos width
      (fun x mem y mem' => inj x (.tail _ mem) y (.tail _ mem')) rest]

theorem digitChar_inj : ∀ a b : Fin 16, Nat.digitChar a = Nat.digitChar b → a = b := by decide

theorem hexByte_injective : Function.Injective hexByte := by
  intro a b same
  simp only [hexByte, cons.injEq, and_true] at same
  have bound := a.toNat_lt
  have bound' := b.toNat_lt
  have high := digitChar_inj ⟨a.toNat / 16, by omega⟩ ⟨b.toNat / 16, by omega⟩ same.1
  have low := digitChar_inj ⟨a.toNat % 16, by omega⟩ ⟨b.toNat % 16, by omega⟩ same.2
  simp only [Fin.mk.injEq] at high low
  apply UInt8.toNat_inj.mp
  omega

theorem hexEncode_injective : Function.Injective hexEncode := by
  intro a b same
  exact flatMap_block_inj (by decide : 0 < 2) (fun _ => rfl)
    (fun _ _ _ _ same => hexByte_injective same) (String.ofList_injective same)

theorem label_injective : Function.Injective label := by
  intro a b same
  exact natText_injective (String.ofList_injective same)

theorem parseU32_label {b : Nat} (bound : b < 2 ^ 32) : parseU32 (label b) = some b := by
  have text : (label b).toList = natText b := String.toList_ofList
  have digits : (match natText b with
      | '+' :: rest => rest
      | text => text) = natText b := by
    split
    · rename_i rest starts
      have digit : ('+' : Char).isDigit = true := by
        apply @isDigit_of_mem_natText b
        rw [starts]
        exact .head _
      cases digit
    · rfl
  have value : Nat.ofDigitChars 10 (natText b) 0 = b := Nat.ofDigitChars_ten_toDigits
  have nonempty : natText b ≠ [] := Nat.toDigits_ne_nil
  rw [parseU32, text, digits, value, if_pos]
  refine ⟨nonempty, ?_, bound⟩
  rw [all_eq_true]
  exact fun c mem => isDigit_of_mem_natText mem

theorem get?_eq_of_not_differing {here there : OrderedMap String String} {b : Nat}
    (bound : b < 2 ^ 32) (agrees : b ∉ differingBuckets here there) :
    here.get? (label b) = there.get? (label b) := by
  by_contra differ
  apply agrees
  rw [differingBuckets, mem_filterMap]
  refine ⟨label b, ?_, parseU32_label bound⟩
  rw [mem_filter, mem_append]
  constructor
  · cases found : here.get? (label b) with
    | some hash => exact .inl (mem_keys_iff.mpr ⟨hash, found⟩)
    | none =>
      cases found' : there.get? (label b) with
      | some hash => exact .inr (mem_keys_iff.mpr ⟨hash, found'⟩)
      | none => exact absurd (found.trans found'.symm) differ
  · simpa using differ

variable {H} {index index' : OrderedMap Key Version} {buckets buckets' b : Nat}

theorem mem_bucketEntries {e : Key × Version} : e ∈ bucketEntries H index buckets b ↔
    index.get? e.1 = some e.2 ∧ bucketOf H e.1 buckets = b := by
  rw [bucketEntries, mem_mergeSort, mem_filter, get?_eq_some_iff, beq_iff_eq]

theorem mem_bucketsOf {e : Key × Version} (found : index.get? e.1 = some e.2) :
    bucketOf H e.1 buckets ∈ bucketsOf H index buckets := by
  rw [bucketsOf, mem_dedup]
  exact mem_map_of_mem (get?_eq_some_iff.mp found)

theorem bucketOf_lt (k : Key) (buckets : Nat) : bucketOf H k buckets < 2 ^ 32 := by
  have head : ∀ (bytes : List UInt8) (n : Nat),
      bytes.foldl (fun n b => n * 256 + b.toNat) n < (n + 1) * 256 ^ bytes.length := by
    intro bytes
    induction bytes with
    | nil => intro n; simp
    | cons byte bytes ih =>
      intro n
      have small := byte.toNat_lt
      calc (byte :: bytes).foldl (fun n b => n * 256 + b.toNat) n
          < (n * 256 + byte.toNat + 1) * 256 ^ bytes.length := ih _
        _ ≤ ((n + 1) * 256) * 256 ^ bytes.length := Nat.mul_le_mul_right _ (by omega)
        _ = (n + 1) * 256 ^ (byte :: bytes).length := by
            rw [length_cons, Nat.pow_succ, Nat.mul_assoc, Nat.mul_comm 256]
  have four := head ((H.digest (utf8 (keyStr k))).take 4) 0
  have length : ((H.digest (utf8 (keyStr k))).take 4).length = 4 := by
    rw [length_take, H.length_digest]
    rfl
  rw [length] at four
  exact Nat.lt_of_le_of_lt (Nat.mod_le _ _) (by simpa using four)

theorem bucketHashes_of_mem (mem : b ∈ bucketsOf H index buckets) :
    (bucketHashes H index buckets).get? (label b) =
      some (hexEncode (H.digest (bucketInput H index buckets b))) := by
  have row : (label b, hexEncode (H.digest (bucketInput H index buckets b))) ∈
      (bucketsOf H index buckets).map fun b =>
        (label b, hexEncode (H.digest (bucketInput H index buckets b))) :=
    mem_map.mpr ⟨b, mem, rfl⟩
  apply get?_insertAll_of_mem row
  intro row rows same
  obtain ⟨c, -, rfl⟩ := mem_map.mp rows
  rw [label_injective same]

theorem mem_of_bucketHashes {hash : String}
    (found : (bucketHashes H index buckets).get? (label b) = some hash) :
    b ∈ bucketsOf H index buckets ∧
      hash = hexEncode (H.digest (bucketInput H index buckets b)) := by
  rcases mem_of_get?_insertAll found with row | nothing
  · obtain ⟨c, mem, same⟩ := mem_map.mp row
    simp only [Prod.mk.injEq] at same
    rw [← label_injective same.1]
    exact ⟨mem, same.2.symm⟩
  · cases nothing

variable (inj : Set.InjOn H.digest {x | x ∈ fed H index buckets ++ fed H index' buckets'})

include inj

/-- An entry in a bucket that does not differ is an entry of the other side. -/
theorem entry_of_agreeing
    (clean : ∀ k ∈ index.keys, Separable k) (clean' : ∀ k ∈ index'.keys, Separable k)
    {k : Key} {v : Version} (found : index.get? k = some v)
    (agrees : (bucketHashes H index buckets).get? (label (bucketOf H k buckets)) =
      (bucketHashes H index' buckets').get? (label (bucketOf H k buckets))) :
    index'.get? k = some v := by
  have mem := @mem_bucketsOf H index buckets (k, v) found
  rw [bucketHashes_of_mem mem] at agrees
  obtain ⟨mem', hashes⟩ := mem_of_bucketHashes agrees.symm
  have inputs : bucketInput H index buckets (bucketOf H k buckets) =
      bucketInput H index' buckets' (bucketOf H k buckets) := by
    apply inj _ _ (hexEncode_injective hashes)
    · exact mem_append_left _ (mem_append_right _ (mem_map_of_mem mem))
    · exact mem_append_right _ (mem_append_right _ (mem_map_of_mem mem'))
  have entries : bucketEntries H index buckets (bucketOf H k buckets) =
      bucketEntries H index' buckets' (bucketOf H k buckets) := by
    apply flatMap_block_inj (by decide : 0 < 32) (fun _ => H.length_digest _) _ inputs
    intro e here f there same
    have here := (mem_bucketEntries.mp here).1
    have there := (mem_bucketEntries.mp there).1
    apply entryStr_inj (clean _ (mem_keys_iff.mpr ⟨_, here⟩))
      (clean' _ (mem_keys_iff.mpr ⟨_, there⟩))
    apply utf8_injective
    apply inj _ _ same
    · exact mem_append_left _
        (mem_append_left _ (mem_map_of_mem (get?_eq_some_iff.mp here)))
    · exact mem_append_right _
        (mem_append_left _ (mem_map_of_mem (get?_eq_some_iff.mp there)))
  have listed : (k, v) ∈ bucketEntries H index buckets (bucketOf H k buckets) :=
    mem_bucketEntries.mpr ⟨found, rfl⟩
  rw [entries] at listed
  exact (mem_bucketEntries.mp listed).1

theorem mem_differingBuckets
    (clean : ∀ k ∈ index.keys, Separable k) (clean' : ∀ k ∈ index'.keys, Separable k)
    {k : Key} {v : Version} (found : index.get? k = some v) (lacks : index'.get? k ≠ some v) :
    bucketOf H k buckets ∈
      differingBuckets (bucketHashes H index buckets) (bucketHashes H index' buckets') := by
  by_contra agrees
  apply lacks
  apply entry_of_agreeing inj clean clean' found
  exact get?_eq_of_not_differing (bucketOf_lt k buckets) agrees

theorem mem_differingBuckets_other
    (clean : ∀ k ∈ index.keys, Separable k) (clean' : ∀ k ∈ index'.keys, Separable k)
    {k : Key} {v : Version} (found : index'.get? k = some v) (lacks : index.get? k ≠ some v) :
    bucketOf H k buckets' ∈
      differingBuckets (bucketHashes H index buckets) (bucketHashes H index' buckets') := by
  have swapped : Set.InjOn H.digest {x | x ∈ fed H index' buckets' ++ fed H index buckets} := by
    apply inj.mono
    intro x mem
    simp only [mem_append] at mem ⊢
    exact mem.symm
  by_contra agrees
  apply lacks
  apply entry_of_agreeing swapped clean' clean found
  exact (get?_eq_of_not_differing (bucketOf_lt k buckets') agrees).symm

omit inj

end Merkle

end AgentProtocols.Cluster
