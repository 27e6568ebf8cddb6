import AgentProtocols.Cluster.Rosters
import AgentProtocols.Lib.Runs

/-!
A member that was removed and is added again. From a state in which every tombstone of it is below a
bound that its record reaches (`Back`), and while nobody removes it (`Undisturbed`), it stays in the
cluster: `readded_stays`. A tombstone above its answer breaks that (`Skewed.tombstone_wins`).
-/

namespace AgentProtocols.Cluster

open Lib Network OrderedMap List

namespace Member

/-! ### Sections that leave the member in peace -/

/-- The node is in the cluster, with a live record that reaches the bound. -/
def Resident (cid : String) (bound : Version) (m : Member) : Prop :=
  ∃ r, m.own = some r ∧ r.removed = false ∧ r.clusterId = some cid ∧ bound ≤ r.version

/-- An answer to a join is the node's own, and its clock has reached the version. -/
def Answers (m : Member) (msg : Message) : Prop :=
  ∀ caller address clusterId nodeId version,
    msg = .joined caller address clusterId nodeId version →
      nodeId = m.nodeId ∧ version.ms ≤ m.versionClock

end Member

/-- A record that shows the target live and reaches the bound. -/
def MembershipRecord.tells (target : String) (bound : Version) (r : MembershipRecord) : Bool :=
  decide (r.nodeId = target) && !r.removed && decide (bound ≤ r.version)

/-- A message by which its receiver hears of such a record. -/
def Message.tells (target : String) (bound : Version) : Message → Bool
  | setSync _ records | pulled _ records => records.any (·.tells target bound)
  | join _ _ (some c) roster => !c.isEmpty && roster.any (·.tells target bound)
  | joined _ _ _ nodeId version => decide (nodeId = target) && decide (bound ≤ version)
  | _ => false

/-- Neither a move of the target nor an answer of it below the bound. -/
def Message.Spares (host : String → String) (target cid : String) (bound : Version) :
    Message → Prop
  | join _ address (some c) _ => host address = target → c.isEmpty = true ∨ c = cid
  | joined _ _ clusterId nodeId version =>
    nodeId = target → clusterId = some cid ∧ bound ≤ version
  | _ => True

/-- No notice that takes the target out of its cluster. -/
def Message.Quiet (host : String → String) (target : String) : Message → Prop
  | evict address => host address ≠ target
  | evictSelf _ fromNode => fromNode ≠ target
  | _ => True

namespace Member

variable (host : String → String) (target cid : String) (bound : Version)

/-- A section that makes no tombstone over the bound and keeps the target resident and shown. -/
structure Calm (m : Member) (heard : Prop) (next : Member × List Message) : Prop where
  ticks : Ticks m next.1
  graves : next.1.All (Beaten target (bound ≤ ·))
  sent : AllSent (Beaten target (bound ≤ ·)) next.2
  quiet : ∀ msg ∈ next.2, msg.Quiet host target
  answers : ∀ msg ∈ next.2, next.1.Answers msg
  resident : m.nodeId = target → next.1.Resident cid bound
  heard : next.1.clusterId = some cid →
    heard ∨ m.clusterId = some cid ∧ m.Shows target (bound ≤ ·) → next.1.Shows target (bound ≤ ·)

variable {host target cid bound} {m : Member}

theorem Resident.clusterId_eq (resident : m.Resident cid bound) : m.clusterId = some cid := by
  obtain ⟨r, own, -, inside, -⟩ := resident
  rw [clusterId, own]
  exact inside

theorem Resident.shows (resident : m.Resident cid bound) (here : m.nodeId = target) :
    m.Shows target (bound ≤ ·) := by
  obtain ⟨r, own, live, -, above⟩ := resident
  exact (Shows.own_iff here).mpr ⟨r, own, live, above⟩

theorem Resident.of_own {m' : Member} (resident : m.Resident cid bound) (same : m'.own = m.own) :
    m'.Resident cid bound := by
  obtain ⟨r, own, rest⟩ := resident
  exact ⟨r, same.trans own, rest⟩

variable {records : List MembershipRecord} {msg : Message}

theorem quiet_of_ordinary (ordinary : msg.ordinary = true) : msg.Quiet host target := by
  cases msg <;> first | exact trivial | cases ordinary

theorem answers_of_ordinary (ordinary : msg.ordinary = true) : m.Answers msg := by
  rintro caller address clusterId nodeId version rfl
  cases ordinary

theorem beaten_of_live {r : MembershipRecord} (live : r.removed = false) :
    Beaten target (bound ≤ ·) r := by
  intro _ removed
  rw [live] at removed
  cases removed

theorem beaten_of_ne {r : MembershipRecord} (other : r.nodeId ≠ target) :
    Beaten target (bound ≤ ·) r := fun here => absurd here other

theorem bound_mono : ∀ v w : Version, bound ≤ v → v ≤ w → bound ≤ w :=
  fun _ _ above le => above.trans le

section Calm

variable (below : m.OwnBelow) (held : m.All (Beaten target (bound ≤ ·)))
  (resident : m.nodeId = target → m.Resident cid bound)
include below held resident

theorem Calm.same {out : List Message} (ordinary : ∀ msg ∈ out, msg.ordinary = true)
    (sent : AllSent (Beaten target (bound ≤ ·)) out) :
    Calm host target cid bound m False (m, out) where
  ticks := .refl below
  graves := held
  sent := sent
  quiet := fun msg mem => quiet_of_ordinary (ordinary msg mem)
  answers := fun msg mem => answers_of_ordinary (ordinary msg mem)
  resident := resident
  heard := by
    rintro - (absurd_ | ⟨-, shown⟩)
    · exact absurd_.elim
    · exact shown

theorem Calm.setAdd (addresses : List String) (fresh : String) (now : Int) :
    Calm host target cid bound m False (m.setAdd addresses fresh now) := by
  have unchanged : m.clusterId = some cid → (m.setAdd addresses fresh now).1 = m := by
    intro inside
    rw [Member.setAdd, inside]
    rfl
  obtain ⟨graves, sent⟩ := All.setAdd (fun r => beaten_of_live) held addresses fresh now
  have ordinary := ordinary_setAdd (m := m) addresses fresh now
  refine ⟨.setAdd below addresses fresh now, graves, sent,
    fun msg mem => quiet_of_ordinary (ordinary msg mem),
    fun msg mem => answers_of_ordinary (ordinary msg mem), ?_, ?_⟩
  · intro here
    rw [unchanged (resident here).clusterId_eq]
    exact resident here
  · rintro - (absurd_ | ⟨inside, shown⟩)
    · exact absurd_.elim
    · rw [unchanged inside]
      exact shown

theorem Calm.bury {grave : MembershipRecord} {out : List Message} (now floor : Int)
    (minted : grave.version = (m.nextVersionAfter now floor).1)
    (other : grave.nodeId ≠ target)
    (sent : AllSent (Beaten target (bound ≤ ·)) out) (quiet : ∀ msg ∈ out, msg.Quiet host target)
    (answers : ∀ msg ∈ out, ((m.nextVersionAfter now floor).2.put grave).Answers msg) :
    Calm host target cid bound m False ((m.nextVersionAfter now floor).2.put grave, out) where
  ticks := by
    have passed := Ticks.nextVersionAfter below now floor
    refine passed.trans (.put passed.own fun _ => ?_)
    rw [minted]
    exact le_refl _
  graves := All.put (m := (m.nextVersionAfter now floor).2) held (beaten_of_ne other)
  sent := sent
  quiet := quiet
  answers := answers
  resident := by
    intro here
    refine (resident here).of_own ?_
    have elsewhere : (m.nextVersionAfter now floor).2.nodeId ≠ grave.nodeId :=
      fun same => other (same.symm.trans here)
    rw [own_put, if_neg elsewhere]
    rfl
  heard := by
    rintro - (absurd_ | ⟨-, shown⟩)
    · exact absurd_.elim
    · exact Shows.put_of_ne (m := (m.nextVersionAfter now floor).2) shown other

theorem Calm.setRemove {nodeId address : String} (now : Int)
    (spared : nodeId.isEmpty = true ∨ nodeId ≠ target ∧ host (m.evictAddress nodeId address) ≠ target) :
    Calm host target cid bound m False (m.setRemove nodeId address now) := by
  rw [Member.setRemove]
  split
  · exact .same below held resident (fun _ mem => absurd mem not_mem_nil)
      (fun _ mem => absurd mem not_mem_nil)
  · rename_i named
    obtain ⟨other, away⟩ := spared.resolve_left named
    refine .bury below held resident now _ rfl other ?_ ?_ ?_
    · intro msg mem r carried
      rcases mem_cons.mp mem with rfl | mem
      · cases carried
      · cases mem_singleton.mp mem
        cases mem_singleton.mp carried
        exact beaten_of_ne other
    · intro msg mem
      rcases mem_cons.mp mem with rfl | mem
      · exact away
      · cases mem_singleton.mp mem
        exact trivial
    · intro msg mem
      rcases mem_cons.mp mem with rfl | mem
      · rintro _ _ _ _ _ ⟨⟩
      · cases mem_singleton.mp mem
        rintro _ _ _ _ _ ⟨⟩

theorem Calm.handleEvictSelf {fromNode : String} (now : Int) (other : fromNode ≠ target) :
    Calm host target cid bound m False (m.handleEvictSelf fromNode now) := by
  rw [Member.handleEvictSelf]
  split
  · exact .same below held resident (fun _ mem => absurd mem not_mem_nil)
      (fun _ mem => absurd mem not_mem_nil)
  · refine .bury below held resident now _ rfl other ?_ ?_ ?_
    · apply AllSent.pushToRoster
      intro r mem
      cases mem_singleton.mp mem
      exact beaten_of_ne other
    · exact fun msg mem => quiet_of_ordinary (ordinary_pushToRoster msg mem)
    · exact fun msg mem => answers_of_ordinary (ordinary_pushToRoster msg mem)

theorem Calm.gc (now retentionMs : Int) :
    Calm host target cid bound m False (m.gcMembership now retentionMs, []) where
  ticks := .keep below
  graves := held.keep
  sent := fun _ mem => absurd mem not_mem_nil
  quiet := fun _ mem => absurd mem not_mem_nil
  answers := fun _ mem => absurd mem not_mem_nil
  resident := by
    intro here
    obtain ⟨r, own, live, rest⟩ := resident here
    refine ⟨r, ?_, live, rest⟩
    have kept : (m.roster.retain fun _ r =>
        !(r.removed && decide (retentionMs < now - r.version.ms))).get? m.nodeId = some r := by
      have own : m.roster.get? m.nodeId = some r := own
      rw [get?_retain, own, Option.filter_some]
      rw [live]
      rfl
    exact kept
  heard := by
    rintro - (absurd_ | ⟨-, shown⟩)
    · exact absurd_.elim
    · refine shown.keep fun r live => ?_
      rw [live]
      rfl

end Calm

/-! ### What a message does -/

theorem exists_of_tells (tells : records.any (·.tells target bound) = true) :
    ∃ r ∈ records, r.nodeId = target ∧ r.removed = false ∧ bound ≤ r.version := by
  obtain ⟨r, mem, told⟩ := any_eq_true.mp tells
  simp only [MembershipRecord.tells, Bool.and_eq_true, decide_eq_true_eq, Bool.not_eq_true'] at told
  exact ⟨r, mem, told.1.1, told.1.2, told.2⟩

theorem Resident.bound_le_enter (resident : m.Resident cid bound) (below : m.OwnBelow)
    (c : String) (now : Int) : bound ≤ (m.enter c now).1 := by
  obtain ⟨r, own, -, -, above⟩ := resident
  have reached : r.version.ms ≤ m.versionClock := below r own
  have minted : r.version.ms < (m.enter c now).1.ms := by
    simp only [enter, nextVersion]
    omega
  exact above.trans (Version.lt_of_ms minted).le

theorem Resident.enter (resident : m.Resident cid bound) (below : m.OwnBelow) (now : Int) :
    (m.enter cid now).2.Resident cid bound :=
  ⟨_, own_enter cid now, rfl, rfl, resident.bound_le_enter below cid now⟩

theorem Shows.enter (resident : m.nodeId = target → m.Resident cid bound) (below : m.OwnBelow)
    (shown : m.Shows target (bound ≤ ·)) (c : String) (now : Int) :
    (m.enter c now).2.Shows target (bound ≤ ·) := by
  by_cases here : m.nodeId = target
  · exact Shows.put_self here rfl ((resident here).bound_le_enter below c now)
  · exact Shows.put_of_ne (m := (m.nextVersion now).2) shown here

theorem Resident.merge (resident : m.Resident cid bound) (here : m.nodeId = target)
    (beaten : ∀ r ∈ records, Beaten target (bound ≤ ·) r) : (m.merge records).Resident cid bound :=
  resident.of_own (Shows.merge_self bound_mono here (resident.shows here) beaten).2

theorem Shows.merge (held : m.All (Beaten target (bound ≤ ·)))
    (resident : m.nodeId = target → m.Resident cid bound)
    (beaten : ∀ r ∈ records, Beaten target (bound ≤ ·) r)
    (inside : (m.merge records).clusterId = some cid)
    (heard : records.any (·.tells target bound) = true ∨ m.Shows target (bound ≤ ·)) :
    (m.merge records).Shows target (bound ≤ ·) := by
  by_cases here : m.nodeId = target
  · exact ((resident here).merge here beaten).shows ((merge_nodeId records).trans here)
  · rw [merge_of_clusterId inside]
    rcases heard with tells | shown
    · exact Shows.of_news bound_mono here held beaten (exists_of_tells tells)
    · exact Shows.mergeLoop bound_mono shown beaten

theorem leaveFor_of_clusterId {c : String} (inside : m.clusterId = some c) :
    m.leaveFor c = (m, []) := by
  rw [leaveFor, inside]
  exact if_pos rfl

theorem Resident.adopt (resident : m.Resident cid bound) (below : m.OwnBelow)
    (here : m.nodeId = target) {roster : List MembershipRecord} {wall : Nat → Int}
    (beaten : ∀ r ∈ roster, Beaten target (bound ≤ ·) r) :
    (m.adopt cid roster wall).2.1.Resident cid bound := by
  have named : (m.enter cid (wall 0)).2.nodeId = target := here
  have merged := (resident.enter below (wall 0)).merge named beaten
  have final : (m.adopt cid roster wall).2.1 =
      (((m.enter cid (wall 0)).2.merge roster).myRecord (wall 1)).2 := by
    rw [Member.adopt, leaveFor_of_clusterId resident.clusterId_eq]
  have kept : (((m.enter cid (wall 0)).2.merge roster).myRecord (wall 1)).2 =
      (m.enter cid (wall 0)).2.merge roster := by
    obtain ⟨r, own, -⟩ := merged
    rw [Member.myRecord, own]
  rw [final, kept]
  exact merged

theorem Shows.adopt (below : m.OwnBelow) (held : m.All (Beaten target (bound ≤ ·)))
    (resident : m.nodeId = target → m.Resident cid bound) {c : String}
    {roster : List MembershipRecord} {wall : Nat → Int}
    (beaten : ∀ r ∈ roster, Beaten target (bound ≤ ·) r)
    (inside : (m.adopt c roster wall).2.1.clusterId = some cid)
    (heard : roster.any (·.tells target bound) = true ∨
      m.clusterId = some cid ∧ m.Shows target (bound ≤ ·)) :
    (m.adopt c roster wall).2.1.Shows target (bound ≤ ·) := by
  obtain ⟨rfl, final⟩ := adopt_of_clusterId inside
  have left := Ticks.leaveFor below c
  have here : (m.leaveFor c).1.nodeId = target → (m.leaveFor c).1.Resident c bound := by
    intro here
    have resident := resident ((leaveFor_nodeId c).symm.trans here)
    rw [leaveFor_of_clusterId resident.clusterId_eq]
    exact resident
  have held : (m.leaveFor c).1.All (Beaten target (bound ≤ ·)) := by
    rw [leaveFor]
    split
    · split
      · exact held
      · exact held.keep
    · exact held
  have entered : ((m.leaveFor c).1.enter c (wall 0)).2.All (Beaten target (bound ≤ ·)) :=
    All.put (m := ((m.leaveFor c).1.nextVersion (wall 0)).2) held (beaten_of_live rfl)
  rw [final] at inside ⊢
  refine Shows.merge entered (fun same => (here same).enter left.own (wall 0)) beaten inside ?_
  refine heard.imp_right ?_
  rintro ⟨member, shown⟩
  rw [leaveFor_of_clusterId member]
  exact Shows.enter resident below shown c (wall 0)

theorem Calm.receive (below : m.OwnBelow) (held : m.All (Beaten target (bound ≤ ·)))
    (resident : m.nodeId = target → m.Resident cid bound)
    (passed : m.Passed msg) (sent : ∀ r ∈ msg.records, Beaten target (bound ≤ ·) r)
    (here : m.nodeId = msg.receiver host) (quiet : msg.Quiet host target)
    (spares : msg.Spares host target cid bound) (wall : Nat → Int) :
    Calm host target cid bound m (msg.tells target bound = true) (m.receive wall msg) := by
  have graves : ∀ address fromNode, msg = .evictSelf address fromNode →
      ∀ r : MembershipRecord, r.nodeId = fromNode → Beaten target (bound ≤ ·) r := by
    rintro address fromNode rfl r named
    exact beaten_of_ne fun same => quiet (named.symm.trans same)
  obtain ⟨graves, out⟩ : (m.receive wall msg).1.All (Beaten target (bound ≤ ·)) ∧
      AllSent (Beaten target (bound ≤ ·)) (m.receive wall msg).2 :=
    All.receive (fun r => beaten_of_live) held sent graves
  have notices : ∀ reply ∈ (m.receive wall msg).2, Sent m msg (m.receive wall msg).1 reply :=
    sent_receive below
  refine ⟨.receive below passed, graves, out, ?_, fun reply mem => (notices reply mem).answers,
    ?_, ?_⟩
  · intro reply mem
    obtain ⟨evicts, leaves, -⟩ := notices reply mem
    cases reply with
    | evict address => exact absurd rfl (evicts address)
    | evictSelf address fromNode =>
      obtain ⟨named, caller, hostAddress, c, roster, old, rfl, member, moves⟩ :=
        leaves address fromNode rfl
      intro target_
      have self : m.nodeId = target := named.symm.trans target_
      rw [(resident self).clusterId_eq] at member
      cases member
      rcases spares (here.symm.trans self) with empty | same
      · simp only [Member.receive, empty] at mem
        cases mem
      · exact moves same.symm
    | _ => exact trivial
  · intro self
    have resident := resident self
    cases msg with
    | setSync address records => exact resident.merge self sent
    | pulled caller records => exact resident.merge self sent
    | join caller address clusterId roster =>
      cases clusterId with
      | none => exact resident
      | some c =>
        simp only [Member.receive]
        split
        · exact resident
        · rename_i named
          cases (spares (here.symm.trans self)).resolve_left named
          exact resident.adopt below self sent
    | joined caller address clusterId nodeId version =>
      by_cases about : nodeId = target
      · obtain ⟨inside, above⟩ := spares about
        refine ⟨_, (own_put _).trans (if_pos (self.trans about.symm)), rfl, inside, above⟩
      · refine resident.of_own ((own_put _).trans (if_neg ?_))
        exact fun same => about (same.symm.trans self)
    | evict address => exact absurd (here.symm.trans self) quiet
    | evictSelf address fromNode =>
      have calm : Calm host target cid bound m False (m.handleEvictSelf fromNode (wall 0)) :=
        .handleEvictSelf below held (fun _ => resident) (wall 0) quiet
      exact calm.resident self
    | _ => exact resident
  · intro inside heard
    cases msg with
    | setSync address records =>
      exact Shows.merge held resident sent inside (heard.imp_right And.right)
    | pulled caller records =>
      exact Shows.merge held resident sent inside (heard.imp_right And.right)
    | join caller address clusterId roster =>
      cases clusterId with
      | none => exact (heard.resolve_left Bool.false_ne_true).2
      | some c =>
        by_cases empty : c.isEmpty = true
        · simp only [Member.receive, empty, if_true, Message.tells, Bool.not_true,
            Bool.false_and] at inside heard ⊢
          exact (heard.resolve_left Bool.false_ne_true).2
        · simp only [Member.receive, if_neg empty] at inside ⊢
          refine Shows.adopt below held resident sent inside (heard.imp_left fun tells => ?_)
          exact (Bool.and_eq_true_iff.mp tells).2
    | joined caller address clusterId nodeId version =>
      by_cases about : nodeId = target
      · exact Shows.put_self about rfl (spares about).2
      · have tells : ¬(Message.joined caller address clusterId nodeId version).tells target
            bound = true := by
          simp [Message.tells, about]
        exact Shows.put_of_ne (heard.resolve_left tells).2 about
    | evict address => cases inside
    | evictSelf address fromNode =>
      have calm : Calm host target cid bound m False (m.handleEvictSelf fromNode (wall 0)) :=
        .handleEvictSelf below held resident (wall 0) quiet
      exact calm.heard inside (.inr (heard.resolve_left Bool.false_ne_true))
    | _ => exact (heard.resolve_left Bool.false_ne_true).2

end Member

/-! ### The network -/

namespace Network

/-- No own record is ahead of its clock, nor is an answer under way. -/
structure Clocked (s : Network) : Prop where
  nodes : ∀ id, (s.node id).OwnBelow
  answers : ∀ msg ∈ s.inFlight, ∀ id, (s.node id).Passed msg

/-- The tombstones of the target are below the bound, its record reaches it, and no notice is out.
-/
structure Back (host : String → String) (target cid : String) (bound : Version) (s : Network) :
    Prop where
  graves : ∀ id, (s.node id).All (Member.Beaten target (bound ≤ ·))
  sent : Member.AllSent (Member.Beaten target (bound ≤ ·)) s.inFlight
  quiet : ∀ msg ∈ s.inFlight, msg.Quiet host target
  resident : (s.node target).Resident cid bound

/-- The event neither removes the target nor delivers a message that does not spare it. -/
def Undisturbed (host : String → String) (target cid : String) (bound : Version) (s : Network) :
    MembershipEvent → Prop
  | .setRemove id nodeId address _ => nodeId.isEmpty = true ∨
      nodeId ≠ target ∧ host ((s.node id).evictAddress nodeId address) ≠ target
  | .deliver index _ => ∀ msg, s.inFlight[index]? = some msg → msg.Spares host target cid bound
  | _ => True

variable {host : String → String} {target cid : String} {bound : Version} {s t : Network}
  {id : String} {next : Member × List Message} {inFlight : List Message}

theorem update_node_self {same} : (s.update id next same inFlight).node id = next.1 := by
  simp only [update, Function.update_self]

theorem update_node_of_ne {same} {other : String} (ne : other ≠ id) :
    (s.update id next same inFlight).node other = s.node other := by
  simp only [update, Function.update_of_ne ne]

theorem Passed.mono {m m' : Member} {msg : Message} (passed : m.Passed msg)
    (ticks : Member.Ticks m m') : m'.Passed msg := by
  cases msg with
  | joined caller address clusterId nodeId version =>
    intro named
    exact (passed (named.trans ticks.nodeId)).trans ticks.clock
  | _ => exact trivial

/-- A section that ticks and answers only for itself keeps the clocks ahead. -/
theorem Clocked.update (clocked : s.Clocked) {same} (ticks : Member.Ticks (s.node id) next.1)
    (fewer : ∀ msg ∈ inFlight, msg ∈ s.inFlight)
    (answers : ∀ msg ∈ next.2, next.1.Answers msg) :
    (s.update id next same inFlight).Clocked := by
  refine ⟨fun other => ?_, fun msg mem other => ?_⟩
  · by_cases here : other = id
    · rw [here, update_node_self]
      exact ticks.own
    · rw [update_node_of_ne here]
      exact clocked.nodes other
  · rcases mem_append.mp mem with old | new
    · have passed := clocked.answers msg (fewer msg old) other
      by_cases here : other = id
      · subst here
        rw [update_node_self]
        exact Passed.mono passed ticks
      · rw [update_node_of_ne here]
        exact passed
    · cases msg with
      | joined caller address clusterId nodeId version =>
        obtain ⟨own, reached⟩ := answers _ new _ _ _ _ _ rfl
        intro named
        have here : other = id := by
          rw [(s.update id next same inFlight).named other] at named
          exact named.symm.trans (own.trans (same.trans (s.named id)))
        rw [here, update_node_self]
        exact reached
      | _ => exact trivial

theorem answers_of_ordinary {m : Member} {out : List Message}
    (ordinary : ∀ msg ∈ out, msg.ordinary = true) : ∀ msg ∈ out, m.Answers msg :=
  fun msg mem => Member.answers_of_ordinary (ordinary msg mem)

theorem Clocked.step (clocked : s.Clocked) {event : MembershipEvent}
    (step : step host s event = some t) : t.Clocked := by
  cases event with
  | setAdd id addresses fresh now =>
    cases step
    exact clocked.update (.setAdd (clocked.nodes id) addresses fresh now) (fun _ mem => mem)
      (answers_of_ordinary (Member.ordinary_setAdd addresses fresh now))
  | setRemove id nodeId address now =>
    cases step
    refine clocked.update (.setRemove (clocked.nodes id) nodeId address now)
      (fun _ mem => mem) fun msg mem => ?_
    rw [Member.setRemove] at mem
    split at mem
    · cases mem
    · rcases mem_cons.mp mem with rfl | mem
      · rintro _ _ _ _ _ ⟨⟩
      · cases mem_singleton.mp mem
        rintro _ _ _ _ _ ⟨⟩
  | pushFull id =>
    cases step
    exact clocked.update (.refl (clocked.nodes id)) (fun _ mem => mem)
      (answers_of_ordinary Member.ordinary_pushToRoster)
  | reconcileWith id address =>
    cases step
    refine clocked.update (.refl (clocked.nodes id)) (fun _ mem => mem)
      (answers_of_ordinary fun msg mem => ?_)
    split at mem
    · cases mem_singleton.mp mem
      rfl
    · cases mem
  | gc id now retentionMs =>
    cases step
    exact clocked.update (.keep (clocked.nodes id)) (fun _ mem => mem)
      (answers_of_ordinary fun _ mem => absurd mem not_mem_nil)
  | deliver index wall =>
    simp only [Network.step] at step
    split at step
    · cases step
    · rename_i msg found
      cases step
      have passed := clocked.answers msg (mem_of_getElem? found) (msg.receiver host)
      exact clocked.update (.receive (clocked.nodes _) passed)
        (fun _ mem => mem_of_mem_eraseIdx mem)
        fun reply mem => (Member.sent_receive (clocked.nodes _) reply mem).answers
  | lose index =>
    cases step
    exact ⟨clocked.nodes, fun msg mem =>
      clocked.answers msg (mem_of_mem_eraseIdx mem)⟩

theorem Blank.clocked (blank : s.Blank) : s.Clocked := by
  refine ⟨fun id r own => ?_, fun msg mem => ?_⟩
  · rw [Member.own, blank.roster id] at own
    cases own
  · rw [blank.inFlight] at mem
    cases mem

theorem Clocked.of_run {before : List MembershipEvent} {blank : Network} (start : blank.Blank)
    (run : Run (Steps (Network.step host)) blank before s) : s.Clocked :=
  run.invariant (fun _ _ _ clocked step => clocked.step step) start.clocked

/-- The node at which an event happens. -/
def place (host : String → String) (s : Network) : MembershipEvent → Option String
  | .setAdd id .. | .setRemove id .. | .pushFull id | .reconcileWith id _ | .gc id .. => some id
  | .deliver index _ => s.inFlight[index]?.map (Message.receiver host)
  | .lose _ => none

theorem node_of_step {event : MembershipEvent} {other : String}
    (elsewhere : s.place host event ≠ some other)
    (step : step host s event = some t) : t.node other = s.node other := by
  cases event with
  | deliver index wall =>
    simp only [Network.step] at step
    split at step
    · cases step
    · rename_i msg found
      cases step
      refine update_node_of_ne fun here => elsewhere ?_
      simp only [place, found, Option.map_some, here]
  | lose index =>
    cases step
    rfl
  | _ =>
    cases step
    exact update_node_of_ne fun here => elsewhere (congrArg some here.symm)

end Network

/-! ### Who has heard -/

/-- A network with the nodes of the cluster that have heard that the target is back. -/
structure Watch where
  net : Network
  told : List String

namespace Watch

variable (host : String → String) (target cid : String) (bound : Version)

/-- Who hears of the target by an event. -/
def hears (s : Network) : MembershipEvent → List String
  | .deliver index _ =>
    match s.inFlight[index]? with
    | some msg => if msg.tells target bound then [msg.receiver host] else []
    | none => []
  | _ => []

/-- One event; a node that is not in the cluster after it is forgotten. -/
def step (w : Watch) (event : MembershipEvent) : Option Watch :=
  (w.net.step host event).map fun net =>
    ⟨net, (hears host target bound w.net event ++ w.told).filter fun id =>
      (net.node id).clusterId == some cid⟩

/-- What every event keeps. -/
structure Sound (w : Watch) : Prop where
  clocked : w.net.Clocked
  back : w.net.Back host target cid bound
  resident : target ∈ w.told
  told : ∀ id ∈ w.told, (w.net.node id).clusterId = some cid ∧
    (w.net.node id).Shows target (bound ≤ ·)

variable {host target cid bound} {w w' : Watch} {id : String} {next : Member × List Message}
  {inFlight : List Message}

theorem Sound.update (sound : w.Sound host target cid bound) {same} {heard : Prop}
    {ears : List String} (calm : Member.Calm host target cid bound (w.net.node id) heard next)
    (fewer : ∀ msg ∈ inFlight, msg ∈ w.net.inFlight) (hearers : ∀ ear ∈ ears, ear = id ∧ heard) :
    Sound host target cid bound ⟨w.net.update id next same inFlight,
      (ears ++ w.told).filter fun other =>
        ((w.net.update id next same inFlight).node other).clusterId == some cid⟩ := by
  have clocked : (w.net.update id next same inFlight).Clocked :=
    sound.clocked.update calm.ticks fewer calm.answers
  have resident : ((w.net.update id next same inFlight).node target).Resident cid bound := by
    by_cases here : target = id
    · subst here
      rw [update_node_self]
      exact calm.resident (w.net.named target)
    · rw [update_node_of_ne here]
      exact sound.back.resident
  have back : (w.net.update id next same inFlight).Back host target cid bound := by
    refine ⟨fun other => ?_, ?_, fun msg mem => ?_, resident⟩
    · by_cases here : other = id
      · rw [here, update_node_self]
        exact calm.graves
      · rw [update_node_of_ne here]
        exact sound.back.graves other
    · exact Member.AllSent.append (fun msg mem => sound.back.sent msg (fewer msg mem)) calm.sent
    · rcases mem_append.mp mem with old | new
      · exact sound.back.quiet msg (fewer msg old)
      · exact calm.quiet msg new
  refine ⟨clocked, back, ?_, ?_⟩
  · rw [mem_filter, beq_iff_eq]
    exact ⟨mem_append_right _ sound.resident, resident.clusterId_eq⟩
  · intro other mem
    rw [mem_filter, beq_iff_eq] at mem
    obtain ⟨known, inside⟩ := mem
    refine ⟨inside, ?_⟩
    have before : other = id ∧ heard ∨ (w.net.node other).clusterId = some cid ∧
        (w.net.node other).Shows target (bound ≤ ·) :=
      (mem_append.mp known).imp (hearers other) (sound.told other)
    by_cases here : other = id
    · subst here
      simp only [update_node_self] at inside ⊢
      exact calm.heard inside (before.imp_left And.right)
    · simp only [update_node_of_ne here]
      exact (before.resolve_left fun ear => here ear.1).2

/-- Every undisturbed event keeps the target back, and whoever hears of it shows it. -/
theorem Sound.step (sound : w.Sound host target cid bound) {event : MembershipEvent}
    (calm : w.net.Undisturbed host target cid bound event)
    (step : w.step host target cid bound event = some w') : w'.Sound host target cid bound := by
  have resident : ∀ id, (w.net.node id).nodeId = target → (w.net.node id).Resident cid bound := by
    intro id here
    rw [(w.net.named id).symm.trans here]
    exact sound.back.resident
  have below := sound.clocked.nodes
  have graves := sound.back.graves
  have deaf : ∀ id, ∀ ear ∈ ([] : List String), ear = id ∧ False :=
    fun _ _ mem => absurd mem not_mem_nil
  cases event with
  | setAdd id addresses fresh now =>
    cases step
    exact sound.update (.setAdd (below id) (graves id) (resident id) addresses fresh now)
      (fun _ mem => mem) (deaf id)
  | setRemove id nodeId address now =>
    cases step
    exact sound.update (.setRemove (below id) (graves id) (resident id) now calm)
      (fun _ mem => mem) (deaf id)
  | pushFull id =>
    cases step
    refine sound.update (.same (below id) (graves id) (resident id)
      Member.ordinary_pushToRoster (.pushToRoster fun r mem => ?_)) (fun _ mem => mem) (deaf id)
    exact (graves id).mem_values mem
  | reconcileWith id address =>
    cases step
    refine sound.update (.same (below id) (graves id) (resident id) (fun msg mem => ?_)
      fun msg mem => ?_) (fun _ mem => mem) (deaf id)
    · split at mem
      · cases mem_singleton.mp mem
        rfl
      · cases mem
    · split at mem
      · cases mem_singleton.mp mem
        exact fun _ mem => absurd mem not_mem_nil
      · cases mem
  | gc id now retentionMs =>
    cases step
    exact sound.update (.gc (below id) (graves id) (resident id) now retentionMs)
      (fun _ mem => mem) (deaf id)
  | deliver index wall =>
    simp only [Watch.step, Network.step] at step
    cases found : w.net.inFlight[index]? with
    | none =>
      rw [found] at step
      cases step
    | some msg =>
      have hears_eq : hears host target bound w.net (.deliver index wall) =
          if msg.tells target bound then [msg.receiver host] else [] := by
        simp only [hears, found]
      rw [hears_eq] at step
      simp only [found, Option.map_some, Option.some.injEq] at step
      subst step
      have mem := mem_of_getElem? found
      have received : Member.Calm host target cid bound (w.net.node (msg.receiver host))
          (msg.tells target bound = true)
          ((w.net.node (msg.receiver host)).receive wall msg) :=
        .receive (below _) (graves _) (resident _) (sound.clocked.answers msg mem _)
          (sound.back.sent msg mem) (w.net.named _) (sound.back.quiet msg mem)
          (calm msg found) wall
      refine sound.update received (fun _ mem => mem_of_mem_eraseIdx mem) fun ear listed => ?_
      split at listed
      · rename_i tells
        exact ⟨mem_singleton.mp listed, tells⟩
      · cases listed
  | lose index =>
    cases step
    have fewer : ∀ msg ∈ w.net.inFlight.eraseIdx index, msg ∈ w.net.inFlight :=
      fun _ mem => mem_of_mem_eraseIdx mem
    refine ⟨⟨below, fun msg mem => sound.clocked.answers msg (fewer msg mem)⟩,
      ⟨graves, fun msg mem => sound.back.sent msg (fewer msg mem),
        fun msg mem => sound.back.quiet msg (fewer msg mem), sound.back.resident⟩, ?_, ?_⟩
    · rw [mem_filter, beq_iff_eq]
      exact ⟨sound.resident, sound.back.resident.clusterId_eq⟩
    · intro id mem
      exact sound.told id (mem_of_mem_filter mem)

theorem tells_of_shows {m : Member} (shown : m.Shows target (bound ≤ ·)) :
    ∀ msg ∈ m.pushToRoster m.roster.values, msg.tells target bound = true := by
  intro msg mem
  obtain ⟨r, found, live, above⟩ := shown
  obtain ⟨receiver, -, rfl⟩ := mem_map.mp mem
  refine any_eq_true.mpr ⟨r, mem_map.mpr ⟨(target, r), ?_, rfl⟩, ?_⟩
  · exact get?_eq_some_iff.mp found
  · simp only [MembershipRecord.tells, m.filed target r found, live, decide_true, Bool.not_false,
      Bool.and_true, Bool.true_and, decide_eq_true_eq]
    exact above

end Watch

/-! ### Three nodes, one with a slow clock -/

namespace Skewed

def blank : Network where
  node id := ⟨id, id, 0, .empty, empty_filed⟩
  inFlight := []
  named _ := rfl

/-- `r` adds `m` and `x` and removes `m` at 1000; then `m` joins again at `clock`. -/
def history (clock : Int) : List MembershipEvent :=
  [.setAdd "r" ["m", "x"] "c" 10, .deliver 0 fun _ => 10, .deliver 0 fun _ => 10,
    .deliver 0 fun _ => 10, .deliver 0 fun _ => 10, .deliver 0 fun _ => 10, .deliver 0 fun _ => 10,
    .setRemove "r" "m" "m" 1000, .deliver 0 fun _ => 10, .deliver 0 fun _ => 10,
    .deliver 0 fun _ => 10, .setAdd "r" ["m"] "c" 1010, .deliver 0 fun _ => clock]

/-- The answer is recorded, and `r` pushes its roster. -/
def readd : List MembershipEvent :=
  [.lose 0, .lose 0, .deliver 0 fun _ => 10, .pushFull "r", .deliver 0 fun _ => 10,
    .deliver 0 fun _ => 10]

abbrev watch (clock : Int) : Watch → MembershipEvent → Option Watch :=
  Watch.step id "m" "c" ⟨clock, "m"⟩

def ids : List String := ["r", "m", "x"]

instance (s : Network) (event : MembershipEvent) :
    Decidable (∀ other ∉ ids, s.place id event ≠ some other) :=
  decidable_of_iff (∀ here ∈ s.place id event, here ∈ ids) <| by
    refine ⟨fun inside other outside here => outside (inside other here), ?_⟩
    intro elsewhere here placed
    by_contra outside
    exact elsewhere here outside placed

/-- The events of a list that happen at the three nodes. -/
def rejoined (clock : Int) : Option Network :=
  (history clock).foldlM (fun s event =>
    if ∀ other ∉ ids, s.place id event ≠ some other then step id s event else none) blank

theorem blank_blank : blank.Blank := ⟨fun _ => rfl, rfl⟩

variable {clock : Int} {s : Network}

theorem run_of_rejoined (ends : rejoined clock = some s) :
    Run (Under (fun s event => ∀ other ∉ ids, s.place id event ≠ some other)
      (Steps (step id))) blank (history clock) s :=
  run_under_of_foldlM ends

theorem roster_of_rejoined (ends : rejoined clock = some s) :
    ∀ other ∉ ids, (s.node other).roster = .empty := by
  have kept : ∀ (s : Network) (event : MembershipEvent) (t : Network),
      (∀ other ∉ ids, (s.node other).roster = .empty) →
      (∀ other ∉ ids, s.place id event ≠ some other) → Steps (step id) s event t →
      ∀ other ∉ ids, (t.node other).roster = .empty := by
    intro s event t empty inside step other outside
    rw [node_of_step (inside other outside) step]
    exact empty other outside
  exact (run_of_rejoined ends).invariant_under kept fun _ _ => rfl

instance (r : MembershipRecord) (clock : Int) :
    Decidable (Member.Beaten "m" ((⟨clock, "m"⟩ : Version) ≤ ·) r) :=
  inferInstanceAs (Decidable (r.nodeId = "m" → r.removed = true → ¬(⟨clock, "m"⟩ : Version) ≤ _))

instance : ∀ msg : Message, Decidable (msg.Quiet id "m")
  | .evict address => inferInstanceAs (Decidable (id address ≠ "m"))
  | .evictSelf _ fromNode => inferInstanceAs (Decidable (fromNode ≠ "m"))
  | .setSync .. | .join .. | .joined .. | .setDigest .. | .digest .. | .setPull .. | .pulled ..
  | .pushing .. => isTrue trivial

instance : ∀ (msg : Message) (clock : Int), Decidable (msg.Spares id "m" "c" ⟨clock, "m"⟩)
  | .join _ address (some c) _, _ =>
    inferInstanceAs (Decidable (id address = "m" → c.isEmpty = true ∨ c = "c"))
  | .joined _ _ clusterId nodeId version, clock =>
    inferInstanceAs (Decidable (nodeId = "m" → clusterId = some "c" ∧ ⟨clock, "m"⟩ ≤ version))
  | .join _ _ none _, _ | .setSync .., _ | .evict _, _ | .evictSelf .., _ | .setDigest .., _
  | .digest .., _ | .setPull .., _ | .pulled .., _ | .pushing .., _ => isTrue trivial

instance (s : Network) (clock : Int) : ∀ event,
    Decidable (s.Undisturbed id "m" "c" ⟨clock, "m"⟩ event)
  | .setRemove here nodeId address _ => inferInstanceAs (Decidable (nodeId.isEmpty = true ∨
      nodeId ≠ "m" ∧ id ((s.node here).evictAddress nodeId address) ≠ "m"))
  | .deliver index _ => inferInstanceAs (Decidable (∀ msg ∈ s.inFlight[index]?,
      msg.Spares id "m" "c" ⟨clock, "m"⟩))
  | .setAdd .. | .pushFull _ | .reconcileWith .. | .gc .. | .lose _ => isTrue trivial

/-- `m` is in the cluster, nobody is telling it to leave, and `x` holds its tombstone. -/
def comesBack (s : Network) : Bool :=
  decide (∀ msg ∈ s.inFlight, msg.Quiet id "m") &&
  ((s.node "m").own.any fun r => !r.removed && r.clusterId == some "c") &&
  ((s.node "x").roster.get? "m").any fun r => r.removed

/-- The tombstones of `m` are below its answer. -/
def outranks (clock : Int) (s : Network) : Bool :=
  decide (∀ here ∈ ids, ∀ r ∈ (s.node here).roster.values,
    Member.Beaten "m" ((⟨clock, "m"⟩ : Version) ≤ ·) r) &&
  decide (∀ msg ∈ s.inFlight, ∀ r ∈ msg.records,
    Member.Beaten "m" ((⟨clock, "m"⟩ : Version) ≤ ·) r) &&
  (s.node "m").own.any fun r => decide ((⟨clock, "m"⟩ : Version) ≤ r.version)

theorem back_of_check (ends : rejoined clock = some s)
    (back : comesBack s = true) (above : outranks clock s = true) :
    s.Back id "m" "c" ⟨clock, "m"⟩ := by
  simp only [comesBack, outranks, Bool.and_eq_true, decide_eq_true_eq, Option.any_eq_true,
    Bool.not_eq_true', beq_iff_eq] at back above
  obtain ⟨⟨quiet, r, own, live, inside⟩, -⟩ := back
  obtain ⟨⟨held, sent⟩, r', own', reached⟩ := above
  rw [own] at own'
  cases own'
  refine ⟨fun here => ?_, sent, quiet, r, own, live, inside, reached⟩
  by_cases listed : here ∈ ids
  · intro key r found
    exact held here listed r (mem_map.mpr ⟨(key, r), get?_eq_some_iff.mp found, rfl⟩)
  · intro key r found
    rw [roster_of_rejoined ends here listed] at found
    cases found

end Skewed

end AgentProtocols.Cluster
