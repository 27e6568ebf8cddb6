import AgentProtocols.Lib.Runs
import AgentProtocols.Registry.LeaseTable
import AgentProtocols.Registry.RegistryService

/-!
Registrations with leases and the sweeper, which takes due leases out of the table and then deletes
the services under their ids.

* `LeasedRegistry.Sound.step` — a section that meets `Orderly` keeps the invariant.
* `sweeps_only_expired` — in every run of such sections, a service about to be deleted was
  registered with a lease, and its last sign of life is long enough ago.
* `permanent_swept` — a permanent service under the id of a leased one is deleted.
-/

namespace AgentProtocols.Registry

open Lib OrderedMap

/-! ### Lease requests -/

structure LeaseConfig where
  enabled : Bool
  minTtl : Int
  maxTtl : Int
  gracePeriod : Int

inductive HeartbeatErrorCode where
  | notSupported
  | ttlRequired
  | ttlOutOfRange

structure HeartbeatError where
  code : HeartbeatErrorCode
  message : String
  minTtl : Option Int
  maxTtl : Option Int

def LeaseConfig.range (cfg : LeaseConfig) : String :=
  "[" ++ toString cfg.minTtl ++ ", " ++ toString cfg.maxTtl ++ "]"

/-- The four corners: the dataset has leases or not, the request has a ttl or not. -/
def LeaseConfig.validate (cfg : LeaseConfig) (dataset : String) (clientTtl : Option Int) :
    Except HeartbeatError (Option Int) :=
  match cfg.enabled, clientTtl with
  | false, none => .ok none
  | false, some _ => .error ⟨.notSupported, "Namespace '" ++ dataset ++
      "' does not enable heartbeat leases. Remove 'lease_ttl' from the request or ask admin to " ++
      "enable it.", none, none⟩
  | true, none => .error ⟨.ttlRequired, "Namespace '" ++ dataset ++
      "' requires 'lease_ttl' on registration; allowed range " ++ cfg.range ++ ".",
      some cfg.minTtl, some cfg.maxTtl⟩
  | true, some ttl =>
    if ttl < cfg.minTtl ∨ cfg.maxTtl < ttl then
      .error ⟨.ttlOutOfRange, "lease_ttl=" ++ toString ttl ++ " out of range " ++ cfg.range ++
        " for namespace '" ++ dataset ++ "'.", some cfg.minTtl, some cfg.maxTtl⟩
    else .ok (some ttl)

def LeaseConfig.grace (cfg : LeaseConfig) : Nat := cfg.gracePeriod.toNat

/-! ### The state -/

/-- A dataset and a service id. -/
abbrev LeaseKey := String × String

/-- What postpones a deletion: a registration, a heartbeat, a revocation or a restart. -/
inductive LifeSign (Time : Type) where
  | alive (t : Time)
  | expiring (t : Time)

def LifeSign.time {Time : Type} : LifeSign Time → Time
  | alive t | expiring t => t

inductive RegisterPlace where
  | validated
  | inserted
  | returned
deriving DecidableEq

structure RegisterCall (Card : Type) where
  dataset : String
  entry : RegistryEntry Card
  place : RegisterPlace

def RegisterCall.key {Card : Type} (call : RegisterCall Card) : LeaseKey :=
  (call.dataset, call.entry.serviceId)

/-- A deletion that a sweep has still to do, with the lease it has taken out and its reading. -/
structure PendingDelete (Time : Type) where
  key : LeaseKey
  lease : Lease Time
  now : Time

/-- `signs` since the start, the last one first; `awaiting` are the ids before their lease. -/
structure LeasedRegistry (Card Time : Type) where
  service : RegistryService Card
  config : String → LeaseConfig
  table : LeaseTable LeaseKey Time
  calls : List (RegisterCall Card)
  deleting : List (PendingDelete Time)
  signs : List (LeaseKey × LifeSign Time)
  awaiting : List LeaseKey

/-- The next section. A permanent revocation is a `dropLease` and a `deregister`. -/
inductive LeaseSection (Card Time : Type) where
  | register (dataset : String) (entry : RegistryEntry Card) (clientTtl : Option Int)
  | insert (c : Nat) (now : Time)
  | install (c : Nat) (now : Time)
  | deregister (dataset serviceId : String) (caller : Option AuthContext)
  | heartbeat (dataset serviceId : String) (now : Time)
  | revoke (dataset serviceId : String) (now : Time)
  | dropLease (dataset serviceId : String)
  | setConfig (dataset : String) (cfg : LeaseConfig)
  | restart (loaded : RegistryService Card) (now : Time)
  | tick (now : Time)
  | hardDelete (j : Nat)

def systemCtx : AuthContext := ⟨"_system", .admin⟩

namespace LeasedRegistry

variable {Card Time : Type} [LinearOrder Time] (clock : Clock Time) (s : LeasedRegistry Card Time)

def entryAt (key : LeaseKey) : Option (RegistryEntry Card) := s.service.getEntry key.1 key.2

/-- The entry is inserted; a leased one waits for its lease. -/
def inserted (c : Nat) (call : RegisterCall Card) (now : Time) : LeasedRegistry Card Time :=
  { s with
    service := s.service.insertEntry call.dataset call.entry.serviceId call.entry
    calls := s.calls.set c { call with place := .inserted }
    signs := (call.key, .alive now) :: s.signs
    awaiting :=
      if call.entry.leaseTtl.isSome then call.key :: s.awaiting
      else s.awaiting.filter fun k => k ≠ call.key }

def installed (c : Nat) (call : RegisterCall Card) (now : Time) : LeasedRegistry Card Time :=
  match call.entry.leaseTtl with
  | none => { s with calls := s.calls.set c { call with place := .returned } }
  | some ttl =>
    { s with
      table := s.table.install clock call.key now ttl.toNat (s.config call.dataset).grace
      calls := s.calls.set c { call with place := .returned }
      signs := (call.key, .alive now) :: s.signs
      awaiting := s.awaiting.filter fun k => k ≠ call.key }

/-- `deregister`; the sweeper calls it as an admin. -/
def removed (dataset serviceId : String) (caller : Option AuthContext) :
    RegistryService Card :=
  match s.service.entryToRemove dataset serviceId caller with
  | .error _ => s.service
  | .ok _ => s.service.removeEntry dataset serviceId

/-- The entries with a `lease_ttl`, and the leases that a start of the process gives them. -/
def recovered (loaded : RegistryService Card) (now : Time) : List (LeaseKey × Lease Time) :=
  loaded.entries.entries.flatMap fun d => d.2.entries.filterMap fun e =>
    e.2.leaseTtl.map fun ttl =>
      ((d.1, e.1), Lease.expired clock now ttl.toNat (s.config d.1).grace)

def step : LeaseSection Card Time → Option (LeasedRegistry Card Time)
  | .register dataset entry clientTtl =>
    match (s.config dataset).validate dataset clientTtl with
    | .error _ => some s
    | .ok ttl => some { s with
        calls := s.calls ++ [⟨dataset, { entry with leaseTtl := ttl }, .validated⟩] }
  | .insert c now => do
    let call ← s.calls[c]?
    if call.place = .validated then some (s.inserted c call now) else none
  | .install c now => do
    let call ← s.calls[c]?
    if call.place = .inserted then some (s.installed clock c call now) else none
  | .deregister dataset serviceId caller =>
    some { s with service := s.removed dataset serviceId caller }
  | .heartbeat dataset serviceId now =>
    if (s.table.get? (dataset, serviceId)).isNone then some s
    else some { s with
      table := s.table.renew clock (dataset, serviceId) now
      signs := ((dataset, serviceId), .alive now) :: s.signs }
  | .revoke dataset serviceId now =>
    if (s.table.get? (dataset, serviceId)).isNone then some s
    else some { s with
      table := s.table.revoke clock (dataset, serviceId) now
      signs := ((dataset, serviceId), .expiring now) :: s.signs }
  | .dropLease dataset serviceId => some { s with table := s.table.dropKey (dataset, serviceId) }
  | .setConfig dataset cfg => some { s with
      config := fun d => if d = dataset then cfg else s.config d }
  | .restart loaded now => some { s with
      service := loaded
      table := OrderedMap.empty.insertAll (s.recovered clock loaded now)
      calls := []
      deleting := []
      signs := (s.recovered clock loaded now).map fun e => (e.1, .expiring now)
      awaiting := [] }
  | .tick now => some { s with
      table := s.table.sweepTick now
      deleting := s.deleting ++ (s.table.dueAt now).map fun e => ⟨e.1, e.2, now⟩ }
  | .hardDelete j => do
    let p ← s.deleting[j]?
    some { s with
      service := s.removed p.key.1 p.key.2 (some systemCtx)
      deleting := s.deleting.eraseIdx j }

/-! ### What a sweep may delete -/

def Leases (entry : RegistryEntry Card) (l : Lease Time) : Prop :=
  ∃ ttl, entry.leaseTtl = some ttl ∧ l.ttlSeconds = ttl.toNat

/-- The last signs of life are the ttl and the grace period ago. -/
def Deserved (signs : List (LeaseKey × LifeSign Time)) (p : PendingDelete Time) : Prop :=
  match signs.lookup p.key with
  | none => False
  | some (.alive _) => ∀ t, (p.key, .alive t) ∈ signs →
      clock.after (clock.after t p.lease.ttlSeconds) p.lease.gracePeriodSeconds ≤ p.now
  | some (.expiring t) => clock.after t p.lease.gracePeriodSeconds ≤ p.now

/-- The reading is not before those of the signs of the id. -/
def Reads (key : LeaseKey) (now : Time) : Prop := ∀ e ∈ s.signs, e.1 = key → e.2.time ≤ now

/-- Entries, leases and deletions of one id do not overtake each other. -/
def Orderly : LeaseSection Card Time → Prop
  | .insert c now => ∀ call, s.calls[c]? = some call → s.Reads call.key now ∧
      (∀ p ∈ s.deleting, p.key ≠ call.key) ∧
      (call.entry.leaseTtl = none → s.table.get? call.key = none)
  | .install c now => ∀ call, s.calls[c]? = some call → call.entry.leaseTtl ≠ none →
      s.Reads call.key now ∧ ∀ entry, s.entryAt call.key = some entry →
        entry.leaseTtl = call.entry.leaseTtl ∧ ∀ p ∈ s.deleting, p.key ≠ call.key
  | .heartbeat dataset serviceId now | .revoke dataset serviceId now =>
    s.Reads (dataset, serviceId) now
  | .tick now => ∀ e ∈ s.table.dueAt now, ∀ entry, s.entryAt e.1 = some entry → e.1 ∉ s.awaiting
  | _ => True

/-! ### The invariant -/

/-- The deadline of a lease is that of the last sign of its id. -/
def Matches (signs : List (LeaseKey × LifeSign Time)) (key : LeaseKey) (l : Lease Time) : Prop :=
  match signs.lookup key with
  | none => False
  | some (.alive t) => l.graceDeadline =
      clock.after (clock.after t l.ttlSeconds) l.gracePeriodSeconds
  | some (.expiring t) => l.graceDeadline = clock.after t l.gracePeriodSeconds

/-- A permanent service has no lease, and a lease is that of its entry and last sign. -/
structure Sound (s : LeasedRegistry Card Time) : Prop where
  permanent : ∀ key entry, s.entryAt key = some entry → entry.leaseTtl = none →
    s.table.get? key = none
  leased : ∀ key entry l, s.entryAt key = some entry → s.table.get? key = some l →
    key ∉ s.awaiting → Leases entry l ∧ Matches clock s.signs key l
  pending : ∀ p ∈ s.deleting, ∀ entry, s.entryAt p.key = some entry →
    s.table.get? p.key = none ∧ Leases entry p.lease ∧ Deserved clock s.signs p
  ordered : s.signs.Pairwise fun a b => b.1 = a.1 → b.2.time ≤ a.2.time

variable {clock s} {s' : LeasedRegistry Card Time} {l : LeaseSection Card Time} {key other : LeaseKey}
  {now : Time} {lease : Lease Time} {sign : LifeSign Time}
  {signs : List (LeaseKey × LifeSign Time)}

omit [LinearOrder Time] in
theorem lookup_cons_of_ne (ne : other ≠ key) :
    ((key, sign) :: signs).lookup other = signs.lookup other := by
  rw [List.lookup_cons, beq_eq_false_iff_ne.mpr ne]

omit [LinearOrder Time] in
theorem lookup_cons_self : ((key, sign) :: signs).lookup key = some sign := by
  rw [List.lookup_cons, beq_self_eq_true]

variable {entry : RegistryEntry Card}

variable (now) in
theorem marked_kept (kept : Leases entry lease ∧ Matches clock signs key lease) :
    Leases entry (lease.marked now) ∧ Matches clock signs key (lease.marked now) := by
  obtain ⟨⟨ttl, has, length⟩, fits⟩ := kept
  obtain ⟨deadline, ttls, grace⟩ := lease.marked_deadline now
  refine ⟨⟨ttl, has, ttls.trans length⟩, ?_⟩
  unfold Matches at fits ⊢
  rw [deadline, ttls, grace]
  exact fits

theorem Matches.cons (ne : other ≠ key) (kept : Matches clock signs other lease) :
    Matches clock ((key, sign) :: signs) other lease := by
  unfold Matches
  rw [lookup_cons_of_ne ne]
  exact kept

theorem Deserved.cons {p : PendingDelete Time} (ne : p.key ≠ key) (kept : Deserved clock signs p) :
    Deserved clock ((key, sign) :: signs) p := by
  unfold Deserved at kept ⊢
  rw [lookup_cons_of_ne ne]
  split at kept
  · exact kept
  · intro t mem
    rcases List.mem_cons.mp mem with same | mem
    · exact absurd (congrArg Prod.fst same) ne
    · exact kept t mem
  · exact kept

theorem matches_alive {t : Time}
    (deadline : lease.graceDeadline =
      clock.after (clock.after t lease.ttlSeconds) lease.gracePeriodSeconds) :
    Matches clock ((key, .alive t) :: signs) key lease := by
  unfold Matches
  rw [lookup_cons_self]
  exact deadline

theorem matches_expiring {t : Time}
    (deadline : lease.graceDeadline = clock.after t lease.gracePeriodSeconds) :
    Matches clock ((key, .expiring t) :: signs) key lease := by
  unfold Matches
  rw [lookup_cons_self]
  exact deadline

theorem Matches.deserved (ordered : signs.Pairwise fun a b => b.1 = a.1 → b.2.time ≤ a.2.time)
    (kept : Matches clock signs key lease) (is_due : lease.graceDeadline ≤ now) :
    Deserved clock signs ⟨key, lease, now⟩ := by
  unfold Matches at kept
  unfold Deserved
  dsimp only
  split at kept
  · exact kept.elim
  · rename_i t last
    intro t' mem
    refine le_trans (clock.mono _ (clock.mono _ ?_)) (kept ▸ is_due)
    obtain ⟨before, after, rfl, first⟩ := List.lookup_eq_some_iff.mp last
    rcases List.mem_append.mp mem with mem | mem
    · exact absurd (first _ mem) (by simp)
    · rcases List.mem_cons.mp mem with same | mem
      · cases same
        exact le_refl _
      · have later := (List.pairwise_append.mp ordered).2.1
        exact (List.pairwise_cons.mp later).1 _ mem rfl
  · exact kept ▸ is_due

theorem pairwise_cons (reads : s.Reads key sign.time)
    (ordered : s.signs.Pairwise fun a b => b.1 = a.1 → b.2.time ≤ a.2.time) :
    ((key, sign) :: s.signs).Pairwise fun a b => b.1 = a.1 → b.2.time ≤ a.2.time :=
  List.pairwise_cons.mpr ⟨fun e mem same => reads e mem same, ordered⟩

variable (key sign) in
/-- A section that gives one id a sign and changes nothing under the others. -/
theorem Sound.signed (sound : Sound clock s) (reads : s.Reads key sign.time)
    (entries : ∀ k, k ≠ key → s'.entryAt k = s.entryAt k)
    (table : ∀ k, k ≠ key → s'.table.get? k = s.table.get? k)
    (awaiting : ∀ k, k ≠ key → k ∉ s'.awaiting → k ∉ s.awaiting)
    (deleting : s'.deleting = s.deleting) (signs : s'.signs = (key, sign) :: s.signs)
    (own : ∀ entry, s'.entryAt key = some entry →
      (entry.leaseTtl = none → s'.table.get? key = none) ∧
      (∀ l, s'.table.get? key = some l → key ∉ s'.awaiting →
        Leases entry l ∧ Matches clock ((key, sign) :: s.signs) key l) ∧
      ∀ p ∈ s.deleting, p.key ≠ key) : Sound clock s' where
  permanent k entry found permanent := by
    by_cases here : k = key
    · subst here
      exact (own entry found).1 permanent
    · rw [table k here]
      exact sound.permanent k entry ((entries k here).symm.trans found) permanent
  leased k entry l found at_k settled := by
    rw [signs]
    by_cases here : k = key
    · subst here
      exact (own entry found).2.1 l at_k settled
    · have was := sound.leased k entry l ((entries k here).symm.trans found)
        ((table k here).symm.trans at_k) (awaiting k here settled)
      exact ⟨was.1, was.2.cons here⟩
  pending p mem entry found := by
    rw [deleting] at mem
    rw [signs]
    have here : p.key ≠ key := by
      rintro rfl
      exact (own entry found).2.2 p mem rfl
    have was := sound.pending p mem entry ((entries p.key here).symm.trans found)
    exact ⟨(table p.key here).trans was.1, was.2.1, was.2.2.cons here⟩
  ordered := signs ▸ pairwise_cons reads sound.ordered

theorem Sound.removes (sound : Sound clock s)
    (entries : ∀ k entry, s'.entryAt k = some entry → s.entryAt k = some entry)
    (table : ∀ k l, s'.table.get? k = some l → s.table.get? k = some l)
    (awaiting : s'.awaiting = s.awaiting) (deleting : ∀ p ∈ s'.deleting, p ∈ s.deleting)
    (signs : s'.signs = s.signs) : Sound clock s' where
  permanent k entry found permanent := by
    have none := sound.permanent k entry (entries k entry found) permanent
    refine Option.eq_none_iff_forall_ne_some.mpr fun l at_k => ?_
    cases none.symm.trans (table k l at_k)
  leased k entry l found at_k settled := by
    rw [signs]
    exact sound.leased k entry l (entries k entry found) (table k l at_k) (awaiting ▸ settled)
  pending p mem entry found := by
    rw [signs]
    have was := sound.pending p (deleting p mem) entry (entries p.key entry found)
    refine ⟨Option.eq_none_iff_forall_ne_some.mpr fun l at_k => ?_, was.2⟩
    cases was.1.symm.trans (table p.key l at_k)
  ordered := signs ▸ sound.ordered

omit [LinearOrder Time] in
theorem getEntry_removed {dataset serviceId : String} {caller : Option AuthContext}
    (found : (s.removed dataset serviceId caller).getEntry key.1 key.2 = some entry) :
    s.entryAt key = some entry := by
  unfold removed at found
  split at found
  · exact found
  · exact RegistryService.getEntry_of_removeEntry found

omit [LinearOrder Time] in
theorem entryAt_insertEntry {dataset serviceId : String} :
    ((s.service.insertEntry dataset serviceId entry).getEntry key.1 key.2) =
      if key = (dataset, serviceId) then some entry else s.entryAt key := by
  rw [RegistryService.getEntry_insertEntry, entryAt]
  simp only [Prod.ext_iff]

/-! ### What each section does -/

omit [LinearOrder Time] in
theorem not_mem_filter_ne {ks : List LeaseKey} (ne : other ≠ key)
    (absent : other ∉ ks.filter fun k => k ≠ key) : other ∉ ks :=
  fun mem => absent (List.mem_filter.mpr ⟨mem, by simpa using ne⟩)

theorem Sound.inserted {c : Nat} {call : RegisterCall Card} (sound : Sound clock s)
    (orderly : s.Reads call.key now ∧ (∀ p ∈ s.deleting, p.key ≠ call.key) ∧
      (call.entry.leaseTtl = none → s.table.get? call.key = none)) :
    Sound clock (s.inserted c call now) := by
  obtain ⟨reads, settled, unleased⟩ := orderly
  have entries : ∀ k, (s.inserted c call now).entryAt k =
      if k = call.key then some call.entry else s.entryAt k := fun k => entryAt_insertEntry
  refine sound.signed call.key (.alive now) reads ?_ (fun _ _ => rfl) ?_ rfl rfl ?_
  · intro k ne
    rw [entries, if_neg ne]
  · intro k ne absent
    dsimp only [LeasedRegistry.inserted] at absent
    split at absent
    · exact fun mem => absent (.tail _ mem)
    · exact not_mem_filter_ne ne absent
  · intro entry found
    rw [entries, if_pos rfl] at found
    cases found
    refine ⟨unleased, fun l at_key absent => ?_, settled⟩
    -- A leased entry awaits its lease, and a permanent one has none.
    dsimp only [LeasedRegistry.inserted] at absent at_key
    split at absent
    · exact absurd (.head _) absent
    · rename_i permanent
      cases (unleased (Option.not_isSome_iff_eq_none.mp permanent)).symm.trans at_key

theorem Sound.installed {c : Nat} {call : RegisterCall Card} (sound : Sound clock s)
    (orderly : call.entry.leaseTtl ≠ none → s.Reads call.key now ∧
      ∀ entry, s.entryAt call.key = some entry →
        entry.leaseTtl = call.entry.leaseTtl ∧ ∀ p ∈ s.deleting, p.key ≠ call.key) :
    Sound clock (s.installed clock c call now) := by
  unfold LeasedRegistry.installed
  split
  · exact sound.removes (fun _ _ found => found) (fun _ _ found => found) rfl (fun _ mem => mem) rfl
  · rename_i ttl leased
    obtain ⟨reads, fits⟩ := orderly (by rw [leased]; exact Option.some_ne_none ttl)
    refine sound.signed call.key (.alive now) reads (fun _ _ => rfl) ?_ ?_ rfl rfl ?_
    · exact fun k ne => get?_insert_of_ne ne
    · exact fun k ne absent => not_mem_filter_ne ne absent
    · intro entry found
      obtain ⟨same, settled⟩ := fits entry found
      refine ⟨fun permanent => ?_, fun l at_key _ => ?_, settled⟩
      · rw [same, leased] at permanent
        cases permanent
      · dsimp only [LeaseTable.install] at at_key
        rw [get?_insert_self] at at_key
        cases at_key
        exact ⟨⟨ttl, same.trans leased, rfl⟩, matches_alive rfl⟩

variable (key sign) in
theorem Sound.changed (sound : Sound clock s) (reads : s.Reads key sign.time)
    (leased : (s.table.get? key).isSome) {change : Lease Time → Lease Time}
    {table : LeaseTable LeaseKey Time} (others : ∀ k, k ≠ key → table.get? k = s.table.get? k)
    (own : table.get? key = (s.table.get? key).map change)
    (periods : ∀ l, (change l).ttlSeconds = l.ttlSeconds)
    (fits : ∀ l, Matches clock ((key, sign) :: s.signs) key (change l)) :
    Sound clock { s with table := table, signs := (key, sign) :: s.signs } := by
  obtain ⟨old, there⟩ := Option.isSome_iff_exists.mp leased
  refine sound.signed key sign reads (fun _ _ => rfl) others (fun _ _ absent => absent) rfl rfl ?_
  intro entry found
  refine ⟨fun permanent => ?_, fun l at_key absent => ?_, fun p mem same => ?_⟩
  · cases (sound.permanent key entry found permanent).symm.trans there
  · rw [own, there] at at_key
    cases at_key
    obtain ⟨⟨ttl, has, length⟩, -⟩ := sound.leased key entry old found there absent
    exact ⟨⟨ttl, has, (periods old).trans length⟩, fits old⟩
  · have found' : s.entryAt p.key = some entry := by rw [same]; exact found
    cases (same ▸ (sound.pending p mem entry found').1).symm.trans there

theorem Sound.ticked (sound : Sound clock s)
    (orderly : ∀ e ∈ s.table.dueAt now, ∀ entry, s.entryAt e.1 = some entry → e.1 ∉ s.awaiting) :
    Sound clock { s with
      table := s.table.sweepTick now
      deleting := s.deleting ++ (s.table.dueAt now).map fun e => ⟨e.1, e.2, now⟩ } where
  permanent k entry found permanent := by
    refine Option.eq_none_iff_forall_ne_some.mpr fun l at_k => ?_
    obtain ⟨old, there, -⟩ := LeaseTable.get?_sweepTick at_k
    cases (sound.permanent k entry found permanent).symm.trans there
  leased k entry l found at_k settled := by
    obtain ⟨old, there, rfl, -⟩ := LeaseTable.get?_sweepTick at_k
    exact marked_kept _ (sound.leased k entry old found there settled)
  pending p mem entry found := by
    rcases List.mem_append.mp mem with mem | mem
    · have was := sound.pending p mem entry found
      refine ⟨Option.eq_none_iff_forall_ne_some.mpr fun l at_k => ?_, was.2⟩
      obtain ⟨old, there, -⟩ := LeaseTable.get?_sweepTick at_k
      cases was.1.symm.trans there
    · obtain ⟨e, inside, rfl⟩ := List.mem_map.mp mem
      obtain ⟨old, there, same, is_due⟩ := LeaseTable.mem_dueAt inside
      obtain ⟨leases, fits⟩ := marked_kept now
        (sound.leased e.1 entry old found there (orderly e inside entry found))
      refine ⟨Option.eq_none_iff_forall_ne_some.mpr fun l at_k => ?_, same ▸ leases, ?_⟩
      · obtain ⟨old', there', rfl, not_due⟩ := LeaseTable.get?_sweepTick at_k
        cases there.symm.trans there'
        rw [← same, is_due] at not_due
        cases not_due
      · exact Matches.deserved sound.ordered (same ▸ fits) (of_decide_eq_true is_due).2
  ordered := sound.ordered

omit [LinearOrder Time] in
theorem lookup_map_const {rows : List (LeaseKey × Lease Time)} (mem : (key, lease) ∈ rows) :
    (rows.map fun e => (e.1, sign)).lookup key = some sign := by
  induction rows with
  | nil => cases mem
  | cons row rows ih =>
    by_cases here : key = row.1
    · subst here
      exact lookup_cons_self
    · rw [List.map_cons, lookup_cons_of_ne here]
      rcases List.mem_cons.mp mem with same | mem
      · exact absurd (congrArg Prod.fst same) here
      · exact ih mem

theorem mem_recovered {loaded : RegistryService Card} (mem : (key, lease) ∈ s.recovered clock loaded now) :
    ∃ entry ttl, loaded.getEntry key.1 key.2 = some entry ∧ entry.leaseTtl = some ttl ∧
      lease = Lease.expired clock now ttl.toNat (s.config key.1).grace := by
  obtain ⟨d, in_datasets, mem⟩ := List.mem_flatMap.mp mem
  obtain ⟨e, in_dataset, has⟩ := List.mem_filterMap.mp mem
  obtain ⟨ttl, leased, same⟩ := Option.map_eq_some_iff.mp has
  cases same
  refine ⟨e.2, ttl, ?_, leased, rfl⟩
  rw [RegistryService.getEntry, get?_eq_some_iff.mpr in_datasets]
  exact get?_eq_some_iff.mpr in_dataset

theorem Sound.restarted {loaded : RegistryService Card} : Sound clock { s with
    service := loaded
    table := OrderedMap.empty.insertAll (s.recovered clock loaded now)
    calls := []
    deleting := []
    signs := (s.recovered clock loaded now).map fun e => (e.1, .expiring now)
    awaiting := [] } where
  permanent k entry found permanent := by
    refine Option.eq_none_iff_forall_ne_some.mpr fun l at_k => ?_
    rcases mem_of_get?_insertAll at_k with mem | none
    · obtain ⟨entry', ttl, found', leased, -⟩ := mem_recovered mem
      cases found.symm.trans found'
      cases permanent.symm.trans leased
    · cases none
  leased k entry l found at_k _ := by
    rcases mem_of_get?_insertAll at_k with mem | none
    · obtain ⟨entry', ttl, found', leased, rfl⟩ := mem_recovered mem
      cases found.symm.trans found'
      refine ⟨⟨ttl, leased, rfl⟩, ?_⟩
      unfold Matches
      rw [lookup_map_const mem]
      rfl
    · cases none
  pending p mem := by cases mem
  ordered := by
    refine List.pairwise_map.mpr (List.pairwise_of_forall fun a b _ => ?_)
    exact le_refl now

theorem Sound.step (sound : Sound clock s) (orderly : s.Orderly l)
    (step : s.step clock l = some s') : Sound clock s' := by
  cases l with
  | register dataset entry clientTtl =>
    simp only [LeasedRegistry.step] at step
    split at step <;> cases step
    · exact sound
    · exact sound.removes (fun _ _ found => found) (fun _ _ found => found) rfl
        (fun _ mem => mem) rfl
  | insert c now =>
    simp only [LeasedRegistry.step, bind_eq_some] at step
    obtain ⟨call, at_c, step⟩ := step
    split at step <;> cases step
    exact sound.inserted (orderly call at_c)
  | install c now =>
    simp only [LeasedRegistry.step, bind_eq_some] at step
    obtain ⟨call, at_c, step⟩ := step
    split at step <;> cases step
    exact sound.installed (orderly call at_c)
  | deregister dataset serviceId caller =>
    cases step
    exact sound.removes (fun _ _ found => getEntry_removed found) (fun _ _ found => found) rfl
      (fun _ mem => mem) rfl
  | heartbeat dataset serviceId now =>
    simp only [LeasedRegistry.step] at step
    split at step <;> cases step
    · exact sound
    · rename_i leased
      exact sound.changed _ (.alive now) orderly (by simpa [← Option.ne_none_iff_isSome] using leased)
        (fun _ ne => LeaseTable.get?_renew_of_ne ne) LeaseTable.get?_renew_self
        (fun _ => rfl) (fun _ => matches_alive rfl)
  | revoke dataset serviceId now =>
    simp only [LeasedRegistry.step] at step
    split at step <;> cases step
    · exact sound
    · rename_i leased
      exact sound.changed _ (.expiring now) orderly (by simpa [← Option.ne_none_iff_isSome] using leased)
        (fun _ ne => LeaseTable.get?_revoke_of_ne ne) LeaseTable.get?_revoke_self
        (fun _ => rfl) (fun _ => matches_expiring rfl)
  | dropLease dataset serviceId =>
    cases step
    exact sound.removes (fun _ _ found => found)
      (fun _ _ found => (get?_of_get?_erase found).1) rfl (fun _ mem => mem) rfl
  | setConfig dataset cfg =>
    cases step
    exact sound.removes (fun _ _ found => found) (fun _ _ found => found) rfl (fun _ mem => mem) rfl
  | restart loaded now =>
    cases step
    exact .restarted
  | tick now =>
    cases step
    exact sound.ticked orderly
  | hardDelete j =>
    simp only [LeasedRegistry.step, bind_eq_some] at step
    obtain ⟨p, at_j, step⟩ := step
    cases step
    exact sound.removes (fun _ _ found => getEntry_removed found) (fun _ _ found => found) rfl
      (fun _ mem => List.mem_of_mem_eraseIdx mem) rfl

/-! ### Runs -/

/-- A registry with no leases, calls or pending deletions. -/
structure Fresh (s : LeasedRegistry Card Time) : Prop where
  table : s.table = .empty
  deleting : s.deleting = []
  signs : s.signs = []

theorem Fresh.sound (fresh : s.Fresh) : Sound clock s where
  permanent k entry _ _ := by rw [fresh.table]; rfl
  leased k entry l _ at_k := by
    rw [fresh.table] at at_k
    cases at_k
  pending p mem := by
    rw [fresh.deleting] at mem
    cases mem
  ordered := by
    rw [fresh.signs]
    exact .nil

/-- **A sweep deletes only expired services.** -/
theorem sweeps_only_expired (clock : Clock Time) {start s : LeasedRegistry Card Time}
    {ls : List (LeaseSection Card Time)} (fresh : start.Fresh)
    (run : Run (Under Orderly (Steps (step clock))) start ls s) :
    (∀ p ∈ s.deleting, ∀ entry, s.entryAt p.key = some entry →
      Leases entry p.lease ∧ Deserved clock s.signs p) ∧
    ∀ key entry, s.entryAt key = some entry → entry.leaseTtl = none →
      s.table.isUnhealthy key = false := by
  have sound : Sound clock s :=
    run.invariant_under (fun _ _ _ sound orderly step => Sound.step sound orderly step) fresh.sound
  refine ⟨fun p mem entry found => (sound.pending p mem entry found).2, ?_⟩
  intro key entry found permanent
  rw [LeaseTable.isUnhealthy, sound.permanent key entry found permanent]
  rfl

end LeasedRegistry

/-! ### A permanent service under a leased id -/

namespace PermanentSwept

open LeasedRegistry

def clock : Clock Int where
  after t n := t + n
  mono n := fun _ _ le => Int.add_le_add_right le n

def leasing (enabled : Bool) : LeaseConfig := ⟨enabled, 1, 60, 5⟩

def service : RegistryEntry Unit where
  serviceId := "svc"
  type := .generic
  source := .apiConfig
  serviceData := some ⟨"n", "d", [], none⟩
  ownerId := none
  leaseTtl := none

def start : LeasedRegistry Unit Int := ⟨⟨.empty⟩, fun _ => leasing true, .empty, [], [], [], []⟩

def leasedLife : List (LeaseSection Unit Int) :=
  [.register "ds" service (some 10), .insert 0 0, .install 0 0]

/-- The id is given up, leases are switched off, and a permanent service takes the id. -/
def reused : List (LeaseSection Unit Int) :=
  [.deregister "ds" "svc" none, .setConfig "ds" (leasing false), .register "ds" service none,
    .insert 1 3, .install 1 3]

/-- A permanent service that has taken a leased id is unhealthy at 12 and deleted at 15. -/
theorem permanent_swept : ∃ s t u entry,
    Run (Steps (step clock)) start (leasedLife ++ reused ++ [.tick 12]) s ∧
    Run (Steps (step clock)) s [.tick 15] t ∧ Run (Steps (step clock)) t [.hardDelete 0] u ∧
    s.entryAt ("ds", "svc") = some entry ∧ entry.leaseTtl = none ∧
    s.table.isUnhealthy ("ds", "svc") = true ∧ t.entryAt ("ds", "svc") = some entry ∧
    u.entryAt ("ds", "svc") = none :=
  ⟨_, _, _, _, run_of_foldlM rfl, run_of_foldlM rfl, run_of_foldlM rfl, rfl, rfl, rfl, rfl, rfl⟩

/-- The service was inserted and its lease installed at 0, and a sweep has run at 15. -/
def overdue : LeasedRegistry Unit Int where
  service := (RegistryService.mk .empty).insertEntry "ds" "svc" { service with leaseTtl := some 10 }
  config := fun _ => leasing true
  table := .empty
  calls := [⟨"ds", { service with leaseTtl := some 10 }, .returned⟩]
  deleting := [⟨("ds", "svc"), (Lease.granted clock 0 10 5).marked 15, 15⟩]
  signs := [(("ds", "svc"), .alive 0), (("ds", "svc"), .alive 0)]
  awaiting := []

/-- A service that is never heard of again is deleted after the ttl and the grace period. -/
theorem leased_swept : ∃ t p entry,
    Run (Under Orderly (Steps (step clock))) start (leasedLife ++ [.tick 15]) t ∧
    p ∈ t.deleting ∧ t.entryAt p.key = some entry ∧ Leases entry p.lease ∧
    Deserved clock t.signs p := by
  have run : Run (Under Orderly (Steps (step clock))) start (leasedLife ++ [.tick 15]) overdue := by
    refine .cons ⟨trivial, rfl⟩ (.cons ⟨?_, rfl⟩ (.cons ⟨?_, rfl⟩ (.cons ⟨?_, rfl⟩ (.nil _))))
    · rintro call ⟨⟩
      exact ⟨nofun, nofun, fun _ => rfl⟩
    · rintro call ⟨⟩ -
      refine ⟨?_, ?_⟩
      · rintro e (_ | ⟨_, ⟨⟩⟩) -
        exact le_refl _
      · rintro entry ⟨⟩
        exact ⟨rfl, nofun⟩
    · intro e _ _ _ mem
      cases mem
  refine ⟨overdue, _, { service with leaseTtl := some 10 }, run, .head _, rfl, ?_⟩
  exact (sweeps_only_expired clock ⟨rfl, rfl, rfl⟩ run).1 _ (.head _) _ rfl

end PermanentSwept

end AgentProtocols.Registry
