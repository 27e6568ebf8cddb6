import AgentProtocols.Registry.LeaseTable
import Mathlib.Algebra.Order.Field.Rat

/-!
Runs of the lease table, with instants as rational numbers.

* `follows_step` — the lease of a key is what its `lastTouch` has left.
* `leases_follow_calls` — a sweep takes out the keys whose allowance has passed, and a key becomes
  unhealthy once between two renewals.
-/

namespace AgentProtocols.Registry.LeaseTable

open Lib OrderedMap

def exact : Clock ℚ where
  after t n := t + n
  mono _ := fun _ _ le => by simpa using le

inductive LeaseCall (K : Type) where
  | install (key : K) (ttl grace : Nat) (expired : Bool) (now : ℚ)
  | renew (key : K) (now : ℚ)
  | revoke (key : K) (permanent : Bool) (now : ℚ)
  | dropKey (key : K)
  | sweepTick (now : ℚ)

variable {K : Type} [DecidableEq K]

/-- The keys that a sweep reports as newly unhealthy. -/
def newlyUnhealthy (t : LeaseTable K ℚ) (now : ℚ) : List K :=
  (t.retain fun _ l => decide (l.state = .healthy ∧ l.expiresAt ≤ now)).keys

/-- The keys that a sweep takes out. -/
def toDelete (t : LeaseTable K ℚ) (now : ℚ) : List K := (t.dueAt now).map Prod.fst

namespace LeaseCall

def run (t : LeaseTable K ℚ) : LeaseCall K → LeaseTable K ℚ
  | install key ttl grace true now => t.insert key (.expired exact now ttl grace)
  | install key ttl grace false now => t.install exact key now ttl grace
  | renew key now => t.renew exact key now
  | revoke key true _ => t.dropKey key
  | revoke key false now => t.revoke exact key now
  | dropKey key => t.dropKey key
  | sweepTick now => t.sweepTick now

def Installs (key : K) (c : LeaseCall K) : Prop :=
  ∃ ttl grace expired now, c = install key ttl grace expired now

def Renews (key : K) (c : LeaseCall K) : Prop := c.Installs key ∨ ∃ now, c = renew key now

end LeaseCall

open LeaseCall

def runAll (t : LeaseTable K ℚ) (calls : List (LeaseCall K)) : LeaseTable K ℚ :=
  calls.foldl run t

/-- What the sweeps of a run report as newly unhealthy, in order. -/
def reports (t : LeaseTable K ℚ) : List (LeaseCall K) → List K
  | [] => []
  | .sweepTick now :: calls => t.newlyUnhealthy now ++ reports (t.sweepTick now) calls
  | c :: calls => reports (c.run t) calls

/-- When a lease was last touched, and whether it has its TTL from then on. -/
structure Touch where
  ttl : Nat
  grace : Nat
  since : ℚ
  full : Bool

def Touch.ends (touch : Touch) : ℚ :=
  touch.since + (if touch.full then (touch.ttl + touch.grace : ℚ) else touch.grace)

def Touch.next (key : K) (last : Option Touch) : LeaseCall K → Option Touch
  | .install k ttl grace expired now => if k = key then some ⟨ttl, grace, now, !expired⟩ else last
  | .renew k now => if k = key then last.map fun t => { t with since := now, full := true } else last
  | .revoke k permanent now =>
    if k ≠ key then last
    else if permanent then none
    else last.map fun t => { t with since := now, full := false }
  | .dropKey k => if k = key then none else last
  | .sweepTick now => last.filter fun t => now < t.ends

def lastTouch (key : K) (calls : List (LeaseCall K)) : Option Touch :=
  calls.foldl (Touch.next key) none

/-- A lease is what its last touch has left. -/
structure Follows (l : Lease ℚ) (touch : Touch) : Prop where
  ttl : l.ttlSeconds = touch.ttl
  grace : l.gracePeriodSeconds = touch.grace
  deadline : l.graceDeadline = touch.ends
  ordered : l.expiresAt ≤ l.graceDeadline

variable {now : ℚ} {calls : List (LeaseCall K)} {key : K} {t : LeaseTable K ℚ}

theorem due_marked_iff {l : Lease ℚ} (ordered : l.expiresAt ≤ l.graceDeadline) :
    (l.marked now).due now = true ↔ l.graceDeadline ≤ now := by
  rw [Lease.due, decide_eq_true_iff, (l.marked_deadline now).1]
  refine and_iff_right_of_imp fun passed => ?_
  rw [Lease.marked]
  split
  · rfl
  · rename_i kept
    cases state : l.state with
    | healthy => exact absurd ⟨state, ordered.trans passed⟩ kept
    | unhealthy => rfl

def LeaseCall.onLease (key : K) (old : Option (Lease ℚ)) : LeaseCall K → Option (Lease ℚ)
  | install k ttl grace expired now =>
    if k = key then some (if expired then .expired exact now ttl grace else .granted exact now ttl grace)
    else old
  | renew k now => if k = key then old.map (·.renewed exact now) else old
  | revoke k permanent now =>
    if k ≠ key then old else if permanent then none else old.map (·.revoked exact now)
  | dropKey k => if k = key then none else old
  | sweepTick now => (old.map (·.marked now)).filter fun l => !l.due now

theorem get?_run (t : LeaseTable K ℚ) (key : K) (c : LeaseCall K) :
    (c.run t).get? key = c.onLease key (t.get? key) := by
  cases c with
  | install k ttl grace expired now =>
    rw [onLease]
    split
    · rename_i same
      subst same
      cases expired <;> exact get?_insert_self
    · rename_i other
      cases expired <;> exact get?_insert_of_ne (Ne.symm other)
  | renew k now =>
    rw [onLease]
    split
    · rename_i same
      exact same ▸ get?_renew_self
    · rename_i other
      exact get?_renew_of_ne (Ne.symm other)
  | revoke k permanent now =>
    rw [onLease]
    split
    · rename_i other
      cases permanent
      · exact get?_revoke_of_ne (Ne.symm other)
      · exact get?_erase_of_ne (Ne.symm other)
    · rename_i same
      cases of_not_not same
      cases permanent
      · exact get?_revoke_self
      · exact get?_erase_self
  | dropKey k =>
    rw [onLease]
    split
    · rename_i same
      exact same ▸ get?_erase_self
    · rename_i other
      exact get?_erase_of_ne (Ne.symm other)
  | sweepTick now =>
    rw [run, sweepTick, get?_retain, markedAt, get?_mapValues]
    rfl

theorem mem_toDelete :
    key ∈ t.toDelete now ↔ ∃ l, t.get? key = some l ∧ (l.marked now).due now = true := by
  constructor
  · intro mem
    obtain ⟨e, inside, rfl⟩ := List.mem_map.mp mem
    obtain ⟨l, there, same, due⟩ := mem_dueAt inside
    exact ⟨l, there, same ▸ due⟩
  · rintro ⟨l, there, due⟩
    have marked : (t.markedAt now).get? key = some (l.marked now) := by
      rw [markedAt, get?_mapValues, there]
      rfl
    exact List.mem_map.mpr ⟨_, List.mem_filter.mpr ⟨get?_eq_some_iff.mp marked, due⟩, rfl⟩

theorem follows_step {old : Option (Lease ℚ)} {last : Option Touch}
    (follows : Option.Rel Follows old last) (c : LeaseCall K) :
    Option.Rel Follows (c.onLease key old) (Touch.next key last c) := by
  cases c with
  | install k ttl grace expired now =>
    rw [onLease, Touch.next]
    split
    · cases expired <;>
        exact .some ⟨rfl, rfl, by simp [Lease.granted, Lease.expired, exact, Touch.ends, add_assoc],
          by simp [Lease.granted, Lease.expired, exact]⟩
    · exact follows
  | renew k now =>
    rw [onLease, Touch.next]
    split
    · cases follows with
      | none => exact .none
      | some f =>
        exact .some ⟨f.ttl, f.grace,
          by simp [Lease.renewed, exact, Touch.ends, add_assoc, f.ttl, f.grace],
          by simp [Lease.renewed, exact]⟩
    · exact follows
  | revoke k permanent now =>
    rw [onLease, Touch.next]
    split
    · exact follows
    · cases follows with
      | none => cases permanent <;> exact .none
      | some f =>
        cases permanent
        · exact .some ⟨f.ttl, f.grace, by simp [Lease.revoked, exact, Touch.ends, f.grace],
            by simp [Lease.revoked, exact]⟩
        · exact .none
  | dropKey k =>
    rw [onLease, Touch.next]
    split
    · exact .none
    · exact follows
  | sweepTick now =>
    rw [onLease, Touch.next]
    cases follows with
    | none => exact .none
    | @some l touch f =>
      have due := @due_marked_iff now _ f.ordered
      rw [f.deadline] at due
      by_cases passed : touch.ends ≤ now
      · simp [Option.filter, due.mpr passed, passed.not_gt]
      · have stays : (l.marked now).due now = false := by simpa using mt due.mp passed
        obtain ⟨deadline, ttl, grace⟩ := l.marked_deadline now
        have expires : (l.marked now).expiresAt = l.expiresAt := by
          unfold Lease.marked
          split <;> rfl
        simp only [Option.map_some, Option.filter, stays, Bool.not_false, if_true,
          not_le.mp passed, decide_true]
        exact .some ⟨ttl.trans f.ttl, grace.trans f.grace, deadline.trans f.deadline,
          by rw [expires, deadline]; exact f.ordered⟩

theorem follows_run {last : Option Touch} (calls : List (LeaseCall K))
    (follows : Option.Rel Follows (t.get? key) last) :
    Option.Rel Follows ((runAll t calls).get? key) (calls.foldl (Touch.next key) last) := by
  induction calls generalizing t last with
  | nil => exact follows
  | cons c calls ih => exact ih (get?_run t key c ▸ follows_step follows c)

/-- No sweep has anything to report about an unhealthy or absent lease. -/
def Quiet (old : Option (Lease ℚ)) : Prop := ∀ l, old = some l → l.state = .unhealthy

theorem Quiet.step {old : Option (Lease ℚ)} (quiet : Quiet old) {c : LeaseCall K}
    (kept : ¬c.Renews key) : Quiet (c.onLease key old) := by
  cases c with
  | install k ttl grace expired now =>
    rw [onLease, if_neg fun same : k = key =>
      kept (.inl ⟨ttl, grace, expired, now, same ▸ rfl⟩)]
    exact quiet
  | renew k now =>
    rw [onLease, if_neg fun same : k = key => kept (.inr ⟨now, same ▸ rfl⟩)]
    exact quiet
  | revoke k permanent now =>
    rw [onLease]
    split
    · exact quiet
    · split
      · nofun
      · rintro l there
        obtain ⟨_, _, rfl⟩ := Option.map_eq_some_iff.mp there
        rfl
  | dropKey k =>
    rw [onLease]
    split
    · nofun
    · exact quiet
  | sweepTick now =>
    intro l there
    obtain ⟨marked, -⟩ := Option.filter_eq_some_iff.mp there
    obtain ⟨l, before, rfl⟩ := Option.map_eq_some_iff.mp marked
    simp [Lease.marked, quiet l before]

theorem mem_newlyUnhealthy : key ∈ t.newlyUnhealthy now ↔
      ∃ l, t.get? key = some l ∧ l.state = .healthy ∧ l.expiresAt ≤ now := by
  simp [newlyUnhealthy, mem_keys_iff, get?_retain, Option.filter_eq_some_iff]

theorem count_reports_of_quiet (quiet : Quiet (t.get? key)) (kept : ∀ c ∈ calls, ¬c.Renews key) :
    (reports t calls).count key = 0 := by
  induction calls generalizing t with
  | nil => rfl
  | cons c calls ih =>
    obtain ⟨here, later⟩ := List.forall_mem_cons.mp kept
    have rest := ih (get?_run t key c ▸ quiet.step here) later
    cases c with
    | sweepTick now =>
      rw [reports, List.count_append]
      refine Nat.add_eq_zero_iff.mpr ⟨List.count_eq_zero.mpr (mt mem_newlyUnhealthy.mp ?_), rest⟩
      rintro ⟨l, there, healthy, -⟩
      cases healthy.symm.trans (quiet l there)
    | _ => exact rest

theorem count_reports_le_one
    (kept : ∀ c ∈ calls, ¬c.Renews key) : (reports t calls).count key ≤ 1 := by
  induction calls generalizing t with
  | nil => exact Nat.zero_le 1
  | cons c calls ih =>
    obtain ⟨-, later⟩ := List.forall_mem_cons.mp kept
    cases c with
    | sweepTick now =>
      rw [reports, List.count_append]
      by_cases reported : key ∈ t.newlyUnhealthy now
      · obtain ⟨l, there, healthy, passed⟩ := mem_newlyUnhealthy.mp reported
        have quiet : Quiet ((t.sweepTick now).get? key) := by
          intro l' there'
          obtain ⟨_, there_, rfl, -⟩ := get?_sweepTick there'
          cases there.symm.trans there_
          simp [Lease.marked, healthy, passed]
        rw [count_reports_of_quiet quiet later]
        exact List.nodup_iff_count_le_one.mp (OrderedMap.nodup _) key
      · rw [List.count_eq_zero.mpr reported, Nat.zero_add]
        exact ih later
    | _ => exact ih later

theorem get?_runAll_of_absent (absent : t.get? key = none) (kept : ∀ c ∈ calls, ¬c.Installs key) :
    (runAll t calls).get? key = none := by
  induction calls generalizing t with
  | nil => exact absent
  | cons c calls ih =>
    obtain ⟨here, later⟩ := List.forall_mem_cons.mp kept
    refine ih ?_ later
    rw [get?_run, absent]
    cases c with
    | install k ttl grace expired now =>
      exact if_neg fun same : k = key => here ⟨ttl, grace, expired, now, same ▸ rfl⟩
    | sweepTick now => rfl
    | _ => simp [onLease]

/-- What is swept has had its allowance, and a key becomes unhealthy once until it is renewed. -/
theorem leases_follow_calls (calls : List (LeaseCall K)) (key : K) :
    (∀ now, key ∈ toDelete (runAll .empty calls) now ↔
      ∃ touch, lastTouch key calls = some touch ∧ touch.ends ≤ now) ∧
    (∀ l, (runAll .empty calls).get? key = some l → l.expiresAt ≤ l.graceDeadline) ∧
    (∀ more : List (LeaseCall K), (∀ c ∈ more, ¬c.Renews key) →
      (reports (runAll .empty calls) more).count key ≤ 1 ∧
      ∀ now, (reports (revoke exact (runAll .empty calls) key now) more).count key = 0) ∧
    ∀ now more, key ∈ toDelete (runAll .empty calls) now → (∀ c ∈ more, ¬c.Installs key) →
      (runAll (sweepTick (runAll .empty calls) now) more).get? key = none := by
  have follows : Option.Rel Follows ((runAll .empty calls).get? key) (lastTouch key calls) :=
    follows_run calls .none
  generalize runAll .empty calls = t at follows ⊢
  generalize lastTouch key calls = last at follows ⊢
  refine ⟨fun now => ?_, fun l there => ?_,
    fun more kept => ⟨count_reports_le_one kept, fun now => count_reports_of_quiet ?_ kept⟩,
    fun now more taken kept => get?_runAll_of_absent ?_ kept⟩
  · rw [mem_toDelete]
    generalize t.get? key = old at follows ⊢
    cases follows with
    | none => simp
    | some f => simp [due_marked_iff f.ordered, f.deadline]
  · rw [there] at follows
    cases follows with
    | some f => exact f.ordered
  · rintro l there
    rw [get?_revoke_self] at there
    obtain ⟨_, _, rfl⟩ := Option.map_eq_some_iff.mp there
    rfl
  · obtain ⟨l, there, due⟩ := mem_toDelete.mp taken
    rw [show t.sweepTick now = (LeaseCall.sweepTick now).run t from rfl, get?_run, there]
    simp [onLease, Option.filter, due]

end AgentProtocols.Registry.LeaseTable
