import AgentProtocols.Registry.Reservations
import AgentProtocols.Registry.LeaseSweeper

/-!
What a release or a permanent revocation that fails has done: `failures_keep_leases_iff` says when
it has not taken a lease away.
-/

namespace AgentProtocols.Registry

open Lib OrderedMap

namespace ReservingService

variable {Time : Type} (leases : OrderedMap (String × String) (ReservationLease Time))
  (dataset holderId serviceId : String)

def mine : Bool := (leases.get? (dataset, serviceId)).any (·.holderId == holderId)

def foreign : Bool := (leases.get? (dataset, serviceId)).any (·.holderId != holderId)

/-- The holder has a lease before the first one of somebody else. -/
def splits (ids : List String) : Bool :=
  ids.any (foreign leases dataset holderId) &&
    (ids.takeWhile (!foreign leases dataset holderId ·)).any (mine leases dataset holderId)

variable {leases dataset holderId serviceId} {ids released : List String}

theorem get?_releaseIds_of_absent {k : String × String} (absent : leases.get? k = none) :
    (releaseIds dataset holderId ids leases released).2.get? k = none := by
  induction ids generalizing leases released with
  | nil => exact absent
  | cons id rest ih =>
    rw [releaseIds]
    split
    · exact ih absent
    · split
      · exact absent
      · refine ih ?_
        by_cases same : k = (dataset, id)
        · exact same ▸ get?_erase_self
        · exact (get?_erase_of_ne same).trans absent

theorem foreign_erase {id : String} (own : foreign leases dataset holderId id = false) :
    foreign (leases.erase (dataset, id)) dataset holderId serviceId =
      foreign leases dataset holderId serviceId := by
  by_cases same : serviceId = id
  · subst same
    rw [own, foreign, get?_erase_self]
    rfl
  · rw [foreign, get?_erase_of_ne (by simp [same]), foreign]

theorem releaseIds_fails_iff :
    (∃ e, (releaseIds dataset holderId ids leases released).1 = .error e) ↔
      ids.any (foreign leases dataset holderId) = true := by
  induction ids generalizing leases released with
  | nil => simp [releaseIds]
  | cons id rest ih =>
    rw [releaseIds, List.any_cons]
    split
    · rename_i absent
      simp [ih, foreign, absent]
    · rename_i l found
      split
      · rename_i other
        simp [foreign, found, other]
      · rename_i same
        have own : foreign leases dataset holderId id = false := by simpa [foreign, found] using same
        simp only [ih, own, Bool.false_or, List.any_eq_true, foreign_erase own]

theorem releaseIds_keeps_iff :
    (∀ e, (releaseIds dataset holderId ids leases released).1 = .error e → ∀ k l,
      leases.get? k = some l → (releaseIds dataset holderId ids leases released).2.get? k = some l) ↔
    splits leases dataset holderId ids = false := by
  induction ids generalizing leases released with
  | nil => simp [releaseIds, splits]
  | cons id rest ih =>
    rw [releaseIds]
    split
    · rename_i absent
      have neither : foreign leases dataset holderId id = false ∧ mine leases dataset holderId id = false := by
        simp [foreign, mine, absent]
      rw [ih]
      simp [splits, neither]
    · rename_i l found
      split
      · rename_i other
        simp [splits, foreign, found, other]
      · rename_i same
        have own : foreign leases dataset holderId id = false := by simpa [foreign, found] using same
        have held : mine leases dataset holderId id = true := by simpa [mine, found] using same
        -- the lease is gone, so the call must not fail later
        have fails := @releaseIds_fails_iff _ (leases.erase (dataset, id)) dataset holderId rest
          (released ++ [id])
        simp only [foreign_erase own, List.any_eq_true] at fails
        calc (∀ e, (releaseIds dataset holderId rest (leases.erase (dataset, id))
              (released ++ [id])).1 = .error e → _) ↔ ¬∃ sid ∈ rest, foreign leases dataset holderId sid := by
              rw [← fails, not_exists]
              refine forall_congr' fun e => ⟨fun kept failed => ?_, fun ok failed => absurd failed ok⟩
              have gone := @get?_releaseIds_of_absent _ _ dataset holderId rest (released ++ [id]) _
                (get?_erase_self : (leases.erase (dataset, id)).get? (dataset, id) = none)
              cases gone.symm.trans (kept failed _ l found)
          _ ↔ splits leases dataset holderId (id :: rest) = false := by
              simp [splits, own, held]

end ReservingService

/-! ### Heartbeats -/

inductive RevokeError where
  | badRequest (e : RegistryError)
  | notFound (text : String)

section Revoke

variable {Card Time : Type} [LinearOrder Time] (clock : Clock Time) (o : Outside Card)
  (service : RegistryService Card) (table : LeaseTable LeaseKey Time) (dataset serviceId : String)
  (caller : Option AuthContext)

def revokeHeartbeat (permanent : Bool) (now : Time) :
    Except RevokeError Unit × RegistryService Card × LeaseTable LeaseKey Time :=
  if permanent then
    let table := table.dropKey (dataset, serviceId)
    match service.deregister o dataset serviceId caller with
    | (.error e, service) => (.error (.badRequest e), service, table)
    | (.ok _, service) => (.ok (), service, table)
  else if (table.get? (dataset, serviceId)).isSome then
    (.ok (), service, table.revoke clock (dataset, serviceId) now)
  else
    (.error (.notFound ("No heartbeat lease for service '" ++ serviceId ++ "' in dataset '" ++
      dataset ++ "'")), service, table)

/-- The checks of `deregister` let the caller remove the entry, and its file steps succeed. -/
def Deregisterable : Prop :=
  ∃ entry, service.entryToRemove dataset serviceId caller = .ok entry ∧
    (entry.source = .apiConfig → o.removeApiEntry dataset serviceId = .ok ()) ∧
    o.regenerateOutput dataset = .ok ()

theorem deregister_ok_iff : (∃ answer, (service.deregister o dataset serviceId caller).1 = .ok answer) ↔
    Deregisterable o service dataset serviceId caller := by
  rw [RegistryService.deregister, Deregisterable]
  cases service.entryToRemove dataset serviceId caller with
  | error e => simp
  | ok entry =>
    by_cases persistent : entry.source = .apiConfig <;>
      rcases o.removeApiEntry dataset serviceId with _ | ⟨⟩ <;>
      rcases o.regenerateOutput dataset with _ | ⟨⟩ <;>
      simp [persistent, bind, Except.bind, pure, Except.pure]

theorem revokeHeartbeat_keeps_iff {now : Time} :
    (∀ e, (revokeHeartbeat clock o service table dataset serviceId caller true now).1 = .error e →
      (revokeHeartbeat clock o service table dataset serviceId caller true now).2.2.get?
        (dataset, serviceId) = table.get? (dataset, serviceId)) ↔
    Deregisterable o service dataset serviceId caller ∨ table.get? (dataset, serviceId) = none := by
  rw [← deregister_ok_iff, revokeHeartbeat, if_pos rfl]
  rcases service.deregister o dataset serviceId caller with ⟨_ | answer, after⟩
  · simp [LeaseTable.dropKey, eq_comm]
  · simp

end Revoke

/-- When a failed release or revocation has kept the leases. -/
theorem failures_keep_leases_iff {Card Time : Type} [LinearOrder Time] (s : ReservingService Time)
    (dataset holderId : String) (serviceIds : Option (List String)) (caller : Option AuthContext)
    (now : Time) (clock : Clock Time) (o : Outside Card) (service : RegistryService Card)
    (table : LeaseTable LeaseKey Time) (serviceId : String) :
    ((∀ e, (s.releaseReservation dataset holderId serviceIds caller now).1 = .error e →
        ∀ k l, (s.swept now).get? k = some l →
          (s.releaseReservation dataset holderId serviceIds caller now).2.get? k = some l) ↔
      ¬(ReservingService.actsFor caller holderId = true ∧ ∃ ids, serviceIds = some ids ∧
        ReservingService.splits (s.swept now) dataset holderId ids = true)) ∧
    ((∀ e, (revokeHeartbeat clock o service table dataset serviceId caller true now).1 = .error e →
        (revokeHeartbeat clock o service table dataset serviceId caller true now).2.2.get?
          (dataset, serviceId) = table.get? (dataset, serviceId)) ↔
      Deregisterable o service dataset serviceId caller ∨
        table.get? (dataset, serviceId) = none) := by
  refine ⟨?_, revokeHeartbeat_keeps_iff ..⟩
  unfold ReservingService.releaseReservation
  split
  · rename_i refused
    have live : ∀ k l, (s.swept now).get? k = some l → s.leases.get? k = some l := fun k l there => by
      rw [ReservingService.swept, OrderedMap.get?_retain, Option.filter_eq_some_iff] at there
      exact there.1
    exact iff_of_true (fun _ _ => live) fun acts => by simp [acts.1] at refused
  · rename_i acts
    cases serviceIds with
    | none => simp
    | some ids =>
      rw [ReservingService.releaseIds_keeps_iff]
      simp_all

/-- Two leases of different holders. -/
def lent : ReservingService Int :=
  { StaleCandidate.start with
    leases := (OrderedMap.empty.insert ("ds", "a") ⟨"h", 10⟩).insert ("ds", "b") ⟨"g", 10⟩ }

/-- The call fails at the second lease, and the first one is gone. -/
theorem failed_release_loses_lease :
    (lent.releaseReservation "ds" "h" (some ["a", "b"]) none 0).1 =
      .error (.permission "Lease on 'b' is held by a different holder") ∧
    (lent.swept 0).get? ("ds", "a") = some ⟨"h", 10⟩ ∧
    (lent.releaseReservation "ds" "h" (some ["a", "b"]) none 0).2.get? ("ds", "a") = none :=
  ⟨rfl, rfl, rfl⟩

end AgentProtocols.Registry
