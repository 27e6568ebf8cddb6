import AgentProtocols.Cluster.Membership

/-!
What the sections of the membership plane do to one node: where its records come from
(`All.receive`), how its clock goes (`Ticks`), what it sends (`sent_receive`), and when a record
stays live (`Shows`, `Shows.mergeLoop`, `Shows.of_news`).
-/

namespace AgentProtocols.Cluster

open Lib Member OrderedMap List

def Message.records : Message → List MembershipRecord
  | setSync _ records | join _ _ _ records | pulled _ records | pushing _ records => records
  | _ => []

/-- No notice, and no answer to a join. -/
def Message.ordinary : Message → Bool
  | evict _ | evictSelf _ _ | joined .. => false
  | _ => true

namespace Member

variable {m : Member} {P : MembershipRecord → Prop}

/-! ### What the records of a node come from -/

def All (P : MembershipRecord → Prop) (m : Member) : Prop :=
  ∀ id r, m.roster.get? id = some r → P r

def AllSent (P : MembershipRecord → Prop) (out : List Message) : Prop :=
  ∀ msg ∈ out, ∀ r ∈ msg.records, P r

theorem All.put {r : MembershipRecord} (all : m.All P) (new : P r) : (m.put r).All P := by
  intro id r' found
  rw [Member.put, get?_insert] at found
  split at found
  · cases found
    exact new
  · exact all id r' found

theorem All.keep {p : String → MembershipRecord → Bool} (all : m.All P) : (m.keep p).All P := by
  intro id r found
  rw [Member.keep, get?_retain, Option.filter_eq_some_iff] at found
  exact all id r found.1

theorem All.standalone : m.becomeStandalone.All P := by rintro id r ⟨⟩

theorem All.mergeLoop : ∀ {rs : List MembershipRecord} {m : Member}, m.All P → (∀ r ∈ rs, P r) →
    (mergeLoop m rs).1.All P
  | [], _, all, _ => all
  | r :: rs, m, all, sent => by
    have rest : ∀ r ∈ rs, P r := fun r mem => sent r (.tail _ mem)
    rw [Member.mergeLoop]
    split
    · exact All.mergeLoop all rest
    · split
      · exact All.mergeLoop all rest
      · exact All.mergeLoop (all.put (sent r (.head _))) rest

variable {records : List MembershipRecord} {r : MembershipRecord}

theorem All.merge (all : m.All P) (sent : ∀ r ∈ records, P r) : (m.merge records).All P := by
  simp only [Member.merge]
  split
  · exact All.standalone
  · exact all.mergeLoop sent

theorem All.mem_values (all : m.All P) (mem : r ∈ m.roster.values) : P r := by
  obtain ⟨⟨id, r⟩, stored, rfl⟩ := mem_map.mp mem
  exact all id r (get?_eq_some_iff.mpr stored)

theorem AllSent.pushToRoster (sent : ∀ r ∈ records, P r) : AllSent P (m.pushToRoster records) := by
  intro msg mem
  obtain ⟨r, -, rfl⟩ := mem_map.mp mem
  exact sent

theorem AllSent.append {out out' : List Message} (first : AllSent P out) (second : AllSent P out') :
    AllSent P (out ++ out') := by
  intro msg mem
  rcases mem_append.mp mem with mem | mem
  · exact first msg mem
  · exact second msg mem

section Live

variable (live : ∀ r : MembershipRecord, r.removed = false → P r)
include live

variable (all : m.All P)

include all

theorem All.myRecord (now : Int) : P (m.myRecord now).1 ∧ (m.myRecord now).2.All P := by
  rw [Member.myRecord]
  split
  · rename_i own found
    exact ⟨all _ own found, all⟩
  · exact ⟨live _ rfl, All.put (m := (m.nextVersion now).2) all (live _ rfl)⟩

theorem All.setAdd (addresses : List String) (fresh : String) (now : Int) :
    (m.setAdd addresses fresh now).1.All P ∧ AllSent P (m.setAdd addresses fresh now).2 := by
  have formed : (m.setAdd addresses fresh now).1.All P := by
    rw [Member.setAdd]
    split
    · exact all
    · exact All.put (m := (m.nextVersion now).2) all (live _ rfl)
  refine ⟨formed, ?_⟩
  intro msg mem r carried
  obtain ⟨a, -, rfl⟩ := mem_map.mp mem
  exact formed.mem_values (mem_of_mem_filter carried)

theorem All.adopt {clusterId : String} {roster : List MembershipRecord}
    {wall : Nat → Int} (sent : ∀ r ∈ roster, P r) :
    (m.adopt clusterId roster wall).2.1.All P ∧ AllSent P (m.adopt clusterId roster wall).2.2 := by
  have left : (m.leaveFor clusterId).1.All P ∧ AllSent P (m.leaveFor clusterId).2 := by
    rw [leaveFor]
    split
    · split
      · exact ⟨all, fun _ mem => absurd mem not_mem_nil⟩
      · refine ⟨all.keep, fun msg mem => ?_⟩
        obtain ⟨r, -, rfl⟩ := mem_map.mp mem
        exact fun _ mem => absurd mem not_mem_nil
    · exact ⟨all, fun _ mem => absurd mem not_mem_nil⟩
  have entered : ((m.leaveFor clusterId).1.enter clusterId (wall 0)).2.All P :=
    All.put (m := ((m.leaveFor clusterId).1.nextVersion (wall 0)).2) left.1 (live _ rfl)
  obtain ⟨own, all⟩ := All.myRecord live (entered.merge sent) (wall 1)
  refine ⟨all, left.2.append (AllSent.pushToRoster ?_)⟩
  intro r mem
  cases mem_singleton.mp mem
  exact own

/-- Where the records come from that a node holds and sends after a message. -/
theorem All.receive {wall : Nat → Int} {msg : Message} (sent : ∀ r ∈ msg.records, P r)
    (graves : ∀ address fromNode, msg = .evictSelf address fromNode → ∀ r : MembershipRecord,
      r.nodeId = fromNode → P r) :
    (m.receive wall msg).1.All P ∧ AllSent P (m.receive wall msg).2 := by
  have silent : AllSent P [] := fun _ mem => absurd mem not_mem_nil
  cases msg with
  | setSync address records => exact ⟨all.merge sent, silent⟩
  | pulled caller records => exact ⟨all.merge sent, silent⟩
  | join caller address clusterId roster =>
    cases clusterId with
    | none => exact ⟨all, silent⟩
    | some c =>
      simp only [Member.receive]
      split
      · exact ⟨all, silent⟩
      · obtain ⟨kept, out⟩ : (m.adopt c roster wall).2.1.All P ∧
            AllSent P (m.adopt c roster wall).2.2 := All.adopt live all sent
        refine ⟨kept, out.append fun msg mem => ?_⟩
        cases mem_singleton.mp mem
        exact fun _ mem => absurd mem not_mem_nil
  | joined caller address clusterId nodeId version => exact ⟨all.put (live _ rfl), silent⟩
  | evict address => exact ⟨All.standalone, silent⟩
  | evictSelf address fromNode =>
    simp only [Member.receive, handleEvictSelf]
    split
    · exact ⟨all, silent⟩
    · have grave := graves address fromNode rfl
      refine ⟨All.put (m := (m.nextVersionAfter _ _).2) all (grave _ rfl), ?_⟩
      apply AllSent.pushToRoster
      intro r mem
      cases mem_singleton.mp mem
      exact grave _ rfl
  | setDigest caller address =>
    refine ⟨all, fun msg mem => ?_⟩
    cases mem_singleton.mp mem
    exact fun _ mem => absurd mem not_mem_nil
  | digest caller address versions =>
    refine ⟨all, fun msg mem => ?_⟩
    simp only [Member.receive] at mem
    split at mem
    · cases mem
    · cases mem_singleton.mp mem
      exact fun _ mem => absurd mem not_mem_nil
  | setPull caller address ids =>
    refine ⟨all, fun msg mem r carried => ?_⟩
    cases mem_singleton.mp mem
    obtain ⟨id, -, found⟩ := mem_filterMap.mp carried
    exact all id r found
  | pushing caller records => exact ⟨all, AllSent.pushToRoster sent⟩

omit all

end Live

/-! ### The own record and the clock -/

theorem own_merge (records : List MembershipRecord) :
    ((m.merge records).own = m.own ∨ (m.merge records).own = none) ∧
      (m.merge records).versionClock = m.versionClock := by
  obtain ⟨own, clock⟩ := own_mergeLoop records m
  simp only [merge]
  split
  · exact ⟨.inr rfl, clock⟩
  · exact ⟨.inl own, clock⟩

/-- The own record is not ahead of the clock. -/
def OwnBelow (m : Member) : Prop := ∀ r, m.own = some r → r.version.ms ≤ m.versionClock

/-- From `m` to `m'` the clock does not go back, and the own record stays below it. -/
structure Ticks (m m' : Member) : Prop where
  nodeId : m'.nodeId = m.nodeId
  clock : m.versionClock ≤ m'.versionClock
  own : m'.OwnBelow

theorem Ticks.refl (below : m.OwnBelow) : Ticks m m := ⟨rfl, le_refl _, below⟩

theorem Ticks.trans {m' m'' : Member} (first : Ticks m m') (second : Ticks m' m'') :
    Ticks m m'' :=
  ⟨second.nodeId.trans first.nodeId, first.clock.trans second.clock, second.own⟩

theorem Ticks.merge (below : m.OwnBelow) (records : List MembershipRecord) :
    Ticks m (m.merge records) := by
  obtain ⟨own, clock⟩ := own_merge (m := m) records
  refine ⟨merge_nodeId records, clock.ge, ?_⟩
  intro r found
  rw [clock]
  rcases own with same | none
  · exact below r (same.symm.trans found)
  · rw [none] at found
    cases found

theorem Ticks.standalone : Ticks m m.becomeStandalone := ⟨rfl, le_refl _, by rintro r ⟨⟩⟩

variable (below : m.OwnBelow)

include below

theorem Ticks.put
    (passed : r.nodeId = m.nodeId → r.version.ms ≤ m.versionClock) : Ticks m (m.put r) := by
  refine ⟨rfl, le_refl _, ?_⟩
  intro r' found
  rw [own_put] at found
  split at found
  · rename_i here
    cases found
    exact passed here.symm
  · exact below r' found

theorem Ticks.keep {p : String → MembershipRecord → Bool} : Ticks m (m.keep p) := by
  refine ⟨rfl, le_refl _, ?_⟩
  intro r found
  have found : (m.roster.retain p).get? m.nodeId = some r := found
  rw [get?_retain, Option.filter_eq_some_iff] at found
  exact below r found.1

theorem Ticks.nextVersion (now : Int) : Ticks m (m.nextVersion now).2 := by
  have later : m.versionClock ≤ (m.nextVersion now).2.versionClock := by
    simp only [Member.nextVersion]
    omega
  exact ⟨rfl, later, fun r found => (below r found).trans later⟩

theorem Ticks.nextVersionAfter (now floor : Int) : Ticks m (m.nextVersionAfter now floor).2 := by
  have later : m.versionClock ≤ (m.nextVersionAfter now floor).2.versionClock := by
    simp only [Member.nextVersionAfter]
    omega
  exact ⟨rfl, later, fun r found => (below r found).trans later⟩

theorem Ticks.myRecord (now : Int) : Ticks m (m.myRecord now).2 := by
  rw [Member.myRecord]
  split
  · exact .refl below
  · have minted := Ticks.nextVersion below now
    exact minted.trans (.put minted.own fun _ => le_refl _)

theorem Ticks.enter (clusterId : String) (now : Int) : Ticks m (m.enter clusterId now).2 := by
  have minted := Ticks.nextVersion below now
  exact minted.trans (.put minted.own fun _ => le_refl _)

theorem Ticks.leaveFor (clusterId : String) : Ticks m (m.leaveFor clusterId).1 := by
  rw [Member.leaveFor]
  split
  · split
    · exact .refl below
    · exact .keep below
  · exact .refl below

theorem Ticks.adopt (clusterId : String) (roster : List MembershipRecord)
    (wall : Nat → Int) : Ticks m (m.adopt clusterId roster wall).2.1 ∧
      (m.adopt clusterId roster wall).1.ms ≤ (m.adopt clusterId roster wall).2.1.versionClock := by
  have left := Ticks.leaveFor below clusterId
  have entered := Ticks.enter left.own clusterId (wall 0)
  have merged := Ticks.merge entered.own roster
  have announced := Ticks.myRecord merged.own (wall 1)
  exact ⟨((left.trans entered).trans merged).trans announced, (merged.trans announced).clock⟩

theorem Ticks.setAdd (addresses : List String) (fresh : String) (now : Int) :
    Ticks m (m.setAdd addresses fresh now).1 := by
  rw [Member.setAdd]
  split
  · exact .refl below
  · have minted := Ticks.nextVersion below now
    exact minted.trans (.put minted.own fun _ => le_refl _)

theorem Ticks.setRemove (nodeId address : String) (now : Int) :
    Ticks m (m.setRemove nodeId address now).1 := by
  rw [Member.setRemove]
  split
  · exact .refl below
  · have minted := Ticks.nextVersionAfter below now
      (((m.roster.get? nodeId).map fun r => r.version.ms).getD 0)
    exact minted.trans (.put minted.own fun _ => le_refl _)

theorem Ticks.handleEvictSelf (fromNode : String) (now : Int) :
    Ticks m (m.handleEvictSelf fromNode now).1 := by
  rw [Member.handleEvictSelf]
  split
  · exact .refl below
  · have minted := Ticks.nextVersionAfter below now
      (((m.roster.get? fromNode).map fun r => r.version.ms).getD 0)
    exact minted.trans (.put minted.own fun _ => le_refl _)

omit below

/-- An answer to a join carries a version that the clock of the node has reached. -/
def Passed (m : Member) : Message → Prop
  | .joined _ _ _ nodeId version => nodeId = m.nodeId → version.ms ≤ m.versionClock
  | _ => True

theorem Ticks.receive (below : m.OwnBelow) {wall : Nat → Int} {msg : Message}
    (passed : m.Passed msg) : Ticks m (m.receive wall msg).1 := by
  cases msg with
  | setSync address records => exact .merge below records
  | pulled caller records => exact .merge below records
  | join caller address clusterId roster =>
    cases clusterId with
    | none => exact .refl below
    | some c =>
      simp only [Member.receive]
      split
      · exact .refl below
      · exact (Ticks.adopt below c roster wall).1
  | joined caller address clusterId nodeId version => exact .put below passed
  | evict address => exact .standalone
  | evictSelf address fromNode => exact .handleEvictSelf below fromNode (wall 0)
  | setDigest caller address => exact .refl below
  | digest caller address versions => exact .refl below
  | setPull caller address ids => exact .refl below
  | pushing caller records => exact .refl below

/-! ### What is sent -/

/-- What a node sends for a message. -/
structure Sent (m : Member) (cause : Message) (m' : Member) (msg : Message) : Prop where
  evicts : ∀ address, msg ≠ .evict address
  leaves : ∀ address fromNode, msg = .evictSelf address fromNode → fromNode = m.nodeId ∧
    ∃ caller hostAddress c roster old, cause = .join caller hostAddress (some c) roster ∧
      m.clusterId = some old ∧ old ≠ c
  answers : ∀ caller address clusterId nodeId version,
    msg = .joined caller address clusterId nodeId version →
      nodeId = m'.nodeId ∧ version.ms ≤ m'.versionClock

variable {cause : Message} {target : String}

theorem sent_of_ordinary {m' : Member} {msg : Message} (ordinary : msg.ordinary = true) :
    Sent m cause m' msg where
  evicts := by
    rintro address rfl
    cases ordinary
  leaves := by
    rintro address fromNode rfl
    cases ordinary
  answers := by
    rintro caller address clusterId nodeId version rfl
    cases ordinary

theorem ordinary_pushToRoster : ∀ msg ∈ m.pushToRoster records, msg.ordinary = true := by
  intro msg mem
  obtain ⟨r, -, rfl⟩ := mem_map.mp mem
  rfl

theorem ordinary_setAdd (addresses : List String) (fresh : String) (now : Int) :
    ∀ msg ∈ (m.setAdd addresses fresh now).2, msg.ordinary = true := by
  intro msg mem
  obtain ⟨a, -, rfl⟩ := mem_map.mp mem
  rfl

theorem sent_receive (below : m.OwnBelow) {wall : Nat → Int} {cause : Message} :
    ∀ sent ∈ (m.receive wall cause).2, Sent m cause (m.receive wall cause).1 sent := by
  cases cause with
  | join caller address clusterId roster =>
    cases clusterId with
    | none => exact fun _ mem => absurd mem not_mem_nil
    | some c =>
      simp only [receive]
      split
      · exact fun _ mem => absurd mem not_mem_nil
      · intro sent mem
        simp only [adopt, append_assoc, mem_append] at mem
        rcases mem with leave | push | answer
        · rw [leaveFor] at leave
          split at leave
          · rename_i old cluster
            split at leave
            · cases leave
            · rename_i other
              obtain ⟨r, -, rfl⟩ := mem_map.mp leave
              refine ⟨(by simp), ?_, (by simp)⟩
              rintro address' fromNode ⟨⟩
              exact ⟨rfl, caller, address, c, roster, old, rfl, cluster, other⟩
          · cases leave
        · exact sent_of_ordinary (ordinary_pushToRoster sent push)
        · cases mem_singleton.mp answer
          refine ⟨(by simp), (by simp), ?_⟩
          rintro _ _ _ _ _ ⟨⟩
          obtain ⟨ticks, reached⟩ := Ticks.adopt below c roster wall
          exact ⟨ticks.nodeId.symm, reached⟩
  | evictSelf address fromNode =>
    simp only [receive, handleEvictSelf]
    split
    · exact fun _ mem => absurd mem not_mem_nil
    · exact fun sent mem => sent_of_ordinary (ordinary_pushToRoster sent mem)
  | pushing caller records =>
    exact fun sent mem => sent_of_ordinary (ordinary_pushToRoster sent mem)
  | digest caller address versions =>
    intro sent mem
    simp only [receive] at mem
    split at mem
    · cases mem
    · cases mem_singleton.mp mem
      exact sent_of_ordinary rfl
  | setDigest caller address =>
    intro sent mem
    cases mem_singleton.mp mem
    exact sent_of_ordinary rfl
  | setPull caller address ids =>
    intro sent mem
    cases mem_singleton.mp mem
    exact sent_of_ordinary rfl
  | setSync | joined | evict | pulled => exact fun _ mem => absurd mem not_mem_nil

/-! ### A record that stays live -/

/-- The roster shows the target live, with a version over a bound. -/
def Shows (target : String) (enough : Version → Prop) (m : Member) : Prop :=
  ∃ r, m.roster.get? target = some r ∧ r.removed = false ∧ enough r.version

/-- Tombstones of the target are not over the bound. -/
def Beaten (target : String) (enough : Version → Prop) (r : MembershipRecord) : Prop :=
  r.nodeId = target → r.removed = true → ¬enough r.version

section Shows

variable {enough : Version → Prop}

theorem Shows.own_iff (here : m.nodeId = target) :
    Shows target enough m ↔ ∃ r, m.own = some r ∧ r.removed = false ∧ enough r.version := by
  rw [Shows, own, here]

variable {r : MembershipRecord}

theorem Shows.put_of_ne (shows_ : Shows target enough m)
    (other : r.nodeId ≠ target) : Shows target enough (m.put r) := by
  obtain ⟨kept, found, live, above⟩ := shows_
  exact ⟨kept, (get?_insert_of_ne (Ne.symm other)).trans found, live, above⟩

theorem Shows.put_self (here : r.nodeId = target)
    (live : r.removed = false) (above : enough r.version) : Shows target enough (m.put r) := by
  refine ⟨r, ?_, live, above⟩
  rw [← here]
  exact get?_insert_self

theorem Shows.keep {p : String → MembershipRecord → Bool} (shows_ : Shows target enough m)
    (kept : ∀ r : MembershipRecord, r.removed = false → p target r = true) :
    Shows target enough (m.keep p) := by
  obtain ⟨r, found, live, above⟩ := shows_
  refine ⟨r, ?_, live, above⟩
  have retained : (m.roster.retain p).get? target = some r := by
    rw [get?_retain, found, Option.filter_some, if_pos (kept r live)]
  exact retained

variable (mono : ∀ v w, enough v → v ≤ w → enough w)
include mono

theorem Shows.put_newer (shows_ : Shows target enough m)
    (newer : versionNewer r.version ((m.roster.get? r.nodeId).map MembershipRecord.version) = true)
    (beaten : Beaten target enough r) : Shows target enough (m.put r) := by
  by_cases here : r.nodeId = target
  · obtain ⟨kept, found, live, above⟩ := shows_
    rw [here, found] at newer
    have above' : enough r.version := mono _ _ above (of_decide_eq_true newer).le
    have live' : r.removed = false := by
      rw [← Bool.not_eq_true]
      exact fun removed => beaten here removed above'
    exact Shows.put_self here live' above'
  · exact shows_.put_of_ne here

theorem Shows.mergeLoop : ∀ {rs : List MembershipRecord} {m : Member}, Shows target enough m →
    (∀ r ∈ rs, Beaten target enough r) → Shows target enough (mergeLoop m rs).1
  | [], _, shows_, _ => shows_
  | r :: rs, m, shows_, beaten => by
    have rest : ∀ r ∈ rs, Beaten target enough r := fun r mem => beaten r (.tail _ mem)
    rw [Member.mergeLoop]
    split
    · exact Shows.mergeLoop shows_ rest
    · rename_i newer
      rw [Bool.not_eq_true', Bool.not_eq_false] at newer
      split
      · exact Shows.mergeLoop shows_ rest
      · exact Shows.mergeLoop (shows_.put_newer mono newer (beaten r (.head _))) rest

/-- A live record over the bound is shown after the loop, if it is not the node's own. -/
theorem Shows.of_news : ∀ {rs : List MembershipRecord} {m : Member}, m.nodeId ≠ target →
    m.All (Beaten target enough) → (∀ r ∈ rs, Beaten target enough r) →
    (∃ r ∈ rs, r.nodeId = target ∧ r.removed = false ∧ enough r.version) →
    Shows target enough (Member.mergeLoop m rs).1
  | [], _, _, _, _, news => by
    obtain ⟨r, mem, -⟩ := news
    cases mem
  | r :: rs, m, other, held, beaten, news => by
    have rest : ∀ r ∈ rs, Beaten target enough r := fun r mem => beaten r (.tail _ mem)
    have first := beaten r (.head _)
    obtain ⟨fresh, mem, here, live, above⟩ := news
    rw [Member.mergeLoop]
    split
    · rename_i old
      rw [Bool.not_eq_true'] at old
      rcases mem_cons.mp mem with rfl | mem
      · -- What is there is at least as new, so it is over the bound and live.
        apply Shows.mergeLoop mono _ rest
        cases found : m.roster.get? fresh.nodeId with
        | none =>
          rw [found] at old
          cases old
        | some cur =>
          rw [found] at old
          have above' : enough cur.version :=
            mono _ _ above (not_lt.mp (of_decide_eq_false old))
          refine ⟨cur, here ▸ found, ?_, above'⟩
          rw [← Bool.not_eq_true]
          exact fun removed => held _ cur found ((m.filed _ _ found).trans here) removed above'
      · exact Shows.of_news other held rest ⟨fresh, mem, here, live, above⟩
    · split
      · rename_i own
        rcases mem_cons.mp mem with rfl | mem
        · exact absurd (own.symm.trans here) other
        · exact Shows.of_news other held rest ⟨fresh, mem, here, live, above⟩
      · rcases mem_cons.mp mem with rfl | mem
        · exact Shows.mergeLoop mono (Shows.put_self here live above) rest
        · exact Shows.of_news (m := m.put r) other (All.put held first) rest
            ⟨fresh, mem, here, live, above⟩

end Shows

/-! ### Merges and joins -/

theorem evicted_mergeLoop : ∀ {rs : List MembershipRecord} {m : Member},
    (mergeLoop m rs).2 = true → ∃ r ∈ rs, r.nodeId = m.nodeId ∧ r.removed = true ∧
      versionNewer r.version (m.own.map MembershipRecord.version) = true
  | r :: rs, m, evicted => by
    have later : ∀ m' : Member, m'.nodeId = m.nodeId → m'.own = m.own →
        (mergeLoop m' rs).2 = true → ∃ r' ∈ r :: rs, r'.nodeId = m.nodeId ∧ r'.removed = true ∧
          versionNewer r'.version (m.own.map MembershipRecord.version) = true := by
      intro m' named same noted
      obtain ⟨r', mem, own, removed, newer⟩ := evicted_mergeLoop noted
      rw [same] at newer
      exact ⟨r', .tail _ mem, own.trans named, removed, newer⟩
    rw [mergeLoop] at evicted
    split at evicted
    · exact later m rfl rfl evicted
    · rename_i newer
      rw [Bool.not_eq_true', Bool.not_eq_false] at newer
      split at evicted
      · rename_i own
        rcases Bool.or_eq_true_iff.mp evicted with removed | noted
        · rw [own] at newer
          exact ⟨r, .head _, own, removed, newer⟩
        · exact later m rfl rfl noted
      · rename_i other
        refine later (m.put r) rfl ?_ evicted
        rw [own_put, if_neg (Ne.symm other)]

theorem merge_of_clusterId {cid : String} (inside : (m.merge records).clusterId = some cid) :
    m.merge records = (mergeLoop m records).1 := by
  simp only [merge] at inside ⊢
  split
  · rename_i evicted
    rw [if_pos evicted] at inside
    cases inside
  · rfl

section Joins

variable {enough : Version → Prop} {cid : String}

theorem Shows.merge_self (mono : ∀ v w, enough v → v ≤ w → enough w) (here : m.nodeId = target)
    (shows_ : Shows target enough m) {records : List MembershipRecord}
    (beaten : ∀ r ∈ records, Beaten target enough r) :
    m.merge records = (Member.mergeLoop m records).1 ∧ (m.merge records).own = m.own := by
  have spared : (Member.mergeLoop m records).2 = false := by
    rw [← Bool.not_eq_true]
    intro evicted
    obtain ⟨r, mem, own, removed, newer⟩ := evicted_mergeLoop evicted
    obtain ⟨kept, found, -, above⟩ := (Shows.own_iff here).mp shows_
    rw [found] at newer
    have newer : kept.version < r.version := of_decide_eq_true newer
    exact beaten r mem (own.trans here) removed (mono _ _ above newer.le)
  have loop : m.merge records = (Member.mergeLoop m records).1 := by
    simp only [merge, spared]
    rfl
  exact ⟨loop, by rw [loop, (own_mergeLoop records m).1]⟩

theorem own_enter (clusterId : String) (now : Int) :
    (m.enter clusterId now).2.own = some ⟨m.nodeId, some clusterId, m.advertise,
      (m.enter clusterId now).1, false⟩ := get?_insert_self

theorem clusterId_myRecord_of_none {now : Int} (none : m.own = Option.none) :
    (m.myRecord now).2.clusterId = Option.none := by
  rw [myRecord, none, clusterId, own_put, if_pos rfl]
  rfl

theorem adopt_of_clusterId {c : String} {roster : List MembershipRecord} {wall : Nat → Int}
    (inside : (m.adopt c roster wall).2.1.clusterId = some cid) : c = cid ∧
      (m.adopt c roster wall).2.1 = ((m.leaveFor c).1.enter c (wall 0)).2.merge roster := by
  have final : (m.adopt c roster wall).2.1 =
      ((((m.leaveFor c).1.enter c (wall 0)).2.merge roster).myRecord (wall 1)).2 := rfl
  have entered := own_enter (m := (m.leaveFor c).1) c (wall 0)
  rw [final] at inside ⊢
  rcases (own_merge (m := ((m.leaveFor c).1.enter c (wall 0)).2) roster).1 with same | none
  · rw [entered] at same
    have kept : ((((m.leaveFor c).1.enter c (wall 0)).2.merge roster).myRecord (wall 1)).2 =
        ((m.leaveFor c).1.enter c (wall 0)).2.merge roster := by
      rw [myRecord, same]
    rw [kept] at inside ⊢
    rw [clusterId, same] at inside
    exact ⟨Option.some.inj inside, rfl⟩
  · rw [clusterId_myRecord_of_none none] at inside
    cases inside

end Joins

end Member

end AgentProtocols.Cluster
