import AgentProtocols.Lib.OrderedMap
import Mathlib.Order.Lattice

/-!
The table of countdown leases. A lease is healthy until its expiry, then unhealthy until its grace
deadline. Instants are of any linear order with a monotone addition of seconds (`Clock`).

* `LeaseTable.get?_sweepTick` — what a sweep leaves of a lease.
* `LeaseTable.mem_dueAt` — what a sweep takes out.
-/

namespace AgentProtocols.Registry

open Lib OrderedMap

/-- A clock on which seconds can be added. -/
structure Clock (Time : Type) [LinearOrder Time] where
  after : Time → Nat → Time
  mono : ∀ n, Monotone fun t => after t n

inductive LeaseState where
  | healthy
  | unhealthy
deriving DecidableEq

structure Lease (Time : Type) where
  ttlSeconds : Nat
  gracePeriodSeconds : Nat
  expiresAt : Time
  graceDeadline : Time
  lastRenewAt : Time
  state : LeaseState

variable {Time : Type} [LinearOrder Time]

namespace Lease

variable (clock : Clock Time) (l : Lease Time) (now : Time)

/-- A lease that `install` grants. -/
def granted (ttl grace : Nat) : Lease Time where
  ttlSeconds := ttl
  gracePeriodSeconds := grace
  expiresAt := clock.after now ttl
  graceDeadline := clock.after (clock.after now ttl) grace
  lastRenewAt := now
  state := .healthy

/-- A lease that is installed as expired, with the grace period running. -/
def expired (ttl grace : Nat) : Lease Time where
  ttlSeconds := ttl
  gracePeriodSeconds := grace
  expiresAt := now
  graceDeadline := clock.after now grace
  lastRenewAt := now
  state := .unhealthy

def renewed : Lease Time :=
  { l with
    lastRenewAt := now
    expiresAt := clock.after now l.ttlSeconds
    graceDeadline := clock.after (clock.after now l.ttlSeconds) l.gracePeriodSeconds
    state := .healthy }

def revoked : Lease Time :=
  { l with
    state := .unhealthy
    expiresAt := now
    graceDeadline := clock.after now l.gracePeriodSeconds }

/-- A sweep marks a lease whose expiry has come. -/
def marked : Lease Time :=
  if l.state = .healthy ∧ l.expiresAt ≤ now then { l with state := .unhealthy } else l

/-- A sweep takes out an unhealthy lease whose deadline has come. -/
def due : Bool := decide (l.state = .unhealthy ∧ l.graceDeadline ≤ now)

theorem marked_deadline : (l.marked now).graceDeadline = l.graceDeadline ∧
    (l.marked now).ttlSeconds = l.ttlSeconds ∧
    (l.marked now).gracePeriodSeconds = l.gracePeriodSeconds := by
  unfold marked
  split <;> exact ⟨rfl, rfl, rfl⟩

end Lease

abbrev LeaseTable (K Time : Type) := OrderedMap K (Lease Time)

namespace LeaseTable

variable {K : Type} [DecidableEq K] (clock : Clock Time) (t : LeaseTable K Time) (key : K)
  (now : Time)

def install (ttl grace : Nat) : LeaseTable K Time := t.insert key (.granted clock now ttl grace)

def renew : LeaseTable K Time :=
  match t.get? key with
  | none => t
  | some l => t.insert key (l.renewed clock now)

def revoke : LeaseTable K Time :=
  match t.get? key with
  | none => t
  | some l => t.insert key (l.revoked clock now)

def dropKey : LeaseTable K Time := t.erase key

def isUnhealthy : Bool := (t.get? key).any fun l => l.state == .unhealthy

def markedAt : LeaseTable K Time := t.mapValues fun l => l.marked now

/-- The leases that a sweep takes out. -/
def dueAt : List (K × Lease Time) := (t.markedAt now).entries.filter fun e => e.2.due now

def sweepTick : LeaseTable K Time := (t.markedAt now).retain fun _ l => !l.due now

variable {clock t key now} {l : Lease Time}

theorem get?_renew_of_ne {other : K} (ne : other ≠ key) :
    (renew clock t key now).get? other = t.get? other := by
  unfold renew
  split
  · rfl
  · exact get?_insert_of_ne ne

theorem get?_revoke_of_ne {other : K} (ne : other ≠ key) :
    (revoke clock t key now).get? other = t.get? other := by
  unfold revoke
  split
  · rfl
  · exact get?_insert_of_ne ne

theorem get?_renew_self : (renew clock t key now).get? key = (t.get? key).map (·.renewed clock now) := by
  unfold renew
  split
  · rename_i absent
    rw [absent]
    rfl
  · rename_i l there
    rw [get?_insert_self, there]
    rfl

theorem get?_revoke_self :
    (revoke clock t key now).get? key = (t.get? key).map (·.revoked clock now) := by
  unfold revoke
  split
  · rename_i absent
    rw [absent]
    rfl
  · rename_i l there
    rw [get?_insert_self, there]
    rfl

/-- A lease after a sweep is one from before it, marked and not due. -/
theorem get?_sweepTick (found : (t.sweepTick now).get? key = some l) :
    ∃ old, t.get? key = some old ∧ l = old.marked now ∧ l.due now = false := by
  rw [sweepTick, get?_retain, Option.filter_eq_some_iff, markedAt,
    get?_mapValues, Option.map_eq_some_iff] at found
  obtain ⟨⟨old, there, rfl⟩, not_due⟩ := found
  exact ⟨old, there, rfl, by simpa using not_due⟩

/-- A lease that a sweep takes out is one from before it, marked and due. -/
theorem mem_dueAt {e : K × Lease Time} (mem : e ∈ t.dueAt now) :
    ∃ old, t.get? e.1 = some old ∧ e.2 = old.marked now ∧ e.2.due now = true := by
  obtain ⟨inside, is_due⟩ := List.mem_filter.mp mem
  have found : (t.markedAt now).get? e.1 = some e.2 := get?_eq_some_iff.mpr inside
  rw [markedAt, get?_mapValues, Option.map_eq_some_iff] at found
  obtain ⟨old, there, same⟩ := found
  exact ⟨old, there, same.symm, is_due⟩

end LeaseTable

end AgentProtocols.Registry
