import AgentProtocols.Cluster.Resurrection

/-!
The ids under which replicas are listed. `listed_replicas_resolve_iff` says that they resolve, and
are distinct, exactly where no record that is listed has an origin with a colon.
-/

namespace AgentProtocols.Cluster

open Lib

theorem splitDisplayId_join {origin serviceId : String} (free : ':' ∉ origin.toList) :
    splitDisplayId (origin ++ ":" ++ serviceId) = some (origin, serviceId) := by
  have others : ∀ c ∈ origin.toList, decide (c ≠ ':') = true :=
    fun c mem => decide_eq_true fun same => free (same ▸ mem)
  have letters : (origin ++ ":" ++ serviceId).toList = origin.toList ++ ':' :: serviceId.toList := by
    simp
  rw [splitDisplayId, letters, List.dropWhile_append_of_pos others, List.takeWhile_append_of_pos others]
  simp

theorem free_of_splitDisplayId {displayId origin serviceId : String}
    (splits : splitDisplayId displayId = some (origin, serviceId)) : ':' ∉ origin.toList := by
  rw [splitDisplayId] at splits
  split at splits
  · cases splits
  · cases splits
    rw [String.toList_ofList]
    exact fun mem => absurd (List.mem_takeWhile_imp mem) (by simp)

theorem foreignRow_eq_some {dataset : String} {k : Key} {env : SyncEnvelope} {row : ForeignRow}
    (shown : foreignRow dataset k env = some row) : k.dataset = dataset ∧ env.tombstone = false ∧
      ∃ w, env.wrapped = some w ∧ row.wrapped =
        (w.insert "id" (.str (k.originId ++ ":" ++ k.serviceId))).insert "origin_id"
          (.str k.originId) := by
  rw [foreignRow] at shown
  split at shown
  · cases shown
  · rename_i live
    obtain ⟨w, wrapped, rfl⟩ := Option.map_eq_some_iff.mp shown
    simp only [not_or, not_not, Bool.not_eq_true] at live
    exact ⟨live.1, live.2.1, w, wrapped, rfl⟩

theorem row_fields {w : JsonDict} {displayId origin : String} :
    ((w.insert "id" (.str displayId)).insert "origin_id" (.str origin)).get "id" =
        some (.str displayId) ∧
    ((w.insert "id" (.str displayId)).insert "origin_id" (.str origin)).get "origin_id" =
        some (.str origin) :=
  ⟨by rw [JsonDict.get_insert_of_ne _ (by decide), JsonDict.get_insert_self],
    JsonDict.get_insert_self _ _ _⟩

theorem listed_replicas_resolve_iff (s : ClusterStore) (dataset : String) :
    ((∀ row ∈ s.foreignRowsIn dataset, ∃ displayId, row.wrapped.get "id" = some (.str displayId) ∧
        s.foreignEntry dataset displayId = some row.wrapped) ∧
      ((s.foreignRowsIn dataset).map fun row => row.wrapped.get "id").Nodup) ↔
    ∀ k env, s.foreign.get? k = some env → (foreignRow dataset k env).isSome = true →
      ':' ∉ k.originId.toList := by
  constructor
  · rintro ⟨resolves, -⟩ k env found shown
    obtain ⟨row, shown⟩ := Option.isSome_iff_exists.mp shown
    obtain ⟨-, -, w, -, same⟩ := foreignRow_eq_some shown
    obtain ⟨displayId, -, resolved⟩ := resolves row
      (List.mem_filterMap.mpr ⟨(k, env), OrderedMap.get?_eq_some_iff.mp found, shown⟩)
    simp only [ClusterStore.foreignEntry, bind_eq_some] at resolved
    obtain ⟨⟨origin, serviceId⟩, splits, other, -, resolved⟩ := resolved
    split at resolved
    · cases resolved
    · obtain ⟨w', -, row_eq⟩ := Option.map_eq_some_iff.mp resolved
      have origins := (@row_fields _ displayId _).2.symm.trans
        ((congrArg (·.get "origin_id") (row_eq.trans same)).trans row_fields.2)
      cases Json.str.inj (Option.some.inj origins)
      exact free_of_splitDisplayId splits
  · intro free
    refine ⟨fun row mem => ?_, ?_⟩
    · obtain ⟨⟨k, env⟩, inside, shown⟩ := List.mem_filterMap.mp mem
      have found := OrderedMap.get?_eq_some_iff.mpr inside
      have colonless := free k env found (Option.isSome_of_mem shown)
      obtain ⟨rfl, live, w, wrapped, same⟩ := foreignRow_eq_some shown
      refine ⟨_, same ▸ row_fields.1, ?_⟩
      rw [ClusterStore.foreignEntry, splitDisplayId_join colonless]
      simpa [found, wrapped, same] using live
    · rw [ClusterStore.foreignRowsIn, List.map_filterMap, List.Nodup, List.pairwise_filterMap]
      have distinct : s.foreign.entries.Pairwise fun a b => a.1 ≠ b.1 :=
        List.pairwise_map.mp s.foreign.nodup
      refine distinct.imp_of_mem fun {a b} mem_a mem_b ne id at_a id' at_b same => ne ?_
      subst same
      obtain ⟨row, shown, rfl⟩ := Option.map_eq_some_iff.mp at_a
      obtain ⟨row', shown', ids⟩ := Option.map_eq_some_iff.mp at_b
      have colonless := free a.1 a.2 (OrderedMap.get?_eq_some_iff.mpr mem_a) (Option.isSome_of_mem shown)
      have colonless' := free b.1 b.2 (OrderedMap.get?_eq_some_iff.mpr mem_b) (Option.isSome_of_mem shown')
      obtain ⟨set_a, -, w, -, same⟩ := foreignRow_eq_some shown
      obtain ⟨set_b, -, w', -, same'⟩ := foreignRow_eq_some shown'
      rw [same, same', row_fields.1, row_fields.1] at ids
      have split_ := congrArg splitDisplayId (Json.str.inj (Option.some.inj ids))
      rw [splitDisplayId_join colonless, splitDisplayId_join colonless'] at split_
      obtain ⟨⟨⟩, _⟩ := a
      obtain ⟨⟨⟩, _⟩ := b
      cases split_
      cases set_a.trans set_b.symm
      rfl

namespace DisplayIds

/-- A live record of an origin with a colon. -/
def colon : SyncEnvelope :=
  ⟨"ds", "x", "a:b", ⟨1, "a:b"⟩, false, some (.obj [("wrapped", .obj [])])⟩

def overlay : ClusterStore := (Cooldown.home.applyInbound 0 colon).1

/-- The record is listed, and its id resolves to nothing. -/
theorem listed_replica_unresolved :
    (overlay.foreignRowsIn "ds").map (fun row => row.wrapped.get "id") =
      [some (.str "a:b:x")] ∧
    overlay.foreignEntry "ds" "a:b:x" = none :=
  ⟨rfl, rfl⟩

end DisplayIds

end AgentProtocols.Cluster
