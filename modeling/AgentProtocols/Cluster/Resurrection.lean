import AgentProtocols.Cluster.VersionClock

/-!
Deleted records and the tombstones that keep them away, for any number of nodes (`Fleet`).

* `Fleet.Sound.step` — every envelope is of a version that its origin has minted.
* `no_resurrection` — a node with a tombstone above all live versions of a record never shows it
  again, while its origin mints no live version and the tombstone is dropped only when no live copy
  is under way or in an overlay.
* `record_revived` — a third node brings the record back.
-/

namespace AgentProtocols.Cluster

open Lib ClusterState OrderedMap

/-! ### What a node shows -/

structure ForeignRow where
  entry : Json
  wrapped : JsonDict

/-- `split_once(':')`. -/
def splitDisplayId (displayId : String) : Option (String × String) :=
  match displayId.toList.dropWhile (· ≠ ':') with
  | [] => none
  | _ :: serviceId =>
    some (.ofList (displayId.toList.takeWhile (· ≠ ':')), .ofList serviceId)

/-- The row of one record in `foreign_rows`. -/
def foreignRow (dataset : String) (k : Key) (env : SyncEnvelope) : Option ForeignRow :=
  if k.dataset ≠ dataset ∨ env.tombstone ∨ env.payload.isNone then none
  else env.wrapped.map fun w =>
    { entry := env.entry.getD .null
      wrapped := (w.insert "id" (.str (k.originId ++ ":" ++ k.serviceId))).insert "origin_id"
        (.str k.originId) }

namespace ClusterStore

variable (s : ClusterStore)

def foreignRowsIn (dataset : String) : List ForeignRow :=
  s.foreign.entries.filterMap fun e => foreignRow dataset e.1 e.2

def foreignEntry (dataset displayId : String) : Option JsonDict := do
  let (origin, serviceId) ← splitDisplayId displayId
  let env ← s.foreign.get? ⟨dataset, origin, serviceId⟩
  if env.tombstone then none
  else env.wrapped.map fun w =>
    (w.insert "id" (.str displayId)).insert "origin_id" (.str origin)

/-- Neither `foreign_rows` nor `foreign_entry` shows the record. -/
structure Hides (k : Key) : Prop where
  row : ∀ env, (k, env) ∈ s.foreign.entries → foreignRow k.dataset k env = none
  entry : ∀ displayId, splitDisplayId displayId = some (k.originId, k.serviceId) →
    s.foreignEntry k.dataset displayId = none

variable {s} {k : Key}

theorem Hides.of_grave (grave : ∀ env, s.foreign.get? k = some env → env.tombstone = true) :
    s.Hides k where
  row env mem := by
    rw [foreignRow, if_pos (.inr (.inl (grave env (get?_eq_some_iff.mpr mem))))]
  entry displayId splits := by
    rw [foreignEntry, splits]
    cases found : s.foreign.get? k with
    | none => exact congrArg (Option.bind · _) found
    | some env =>
      refine (congrArg (Option.bind · _) found).trans ?_
      exact if_pos (grave env found)

end ClusterStore

/-! ### The fleet -/

/-- A version that a node has given to one of its records, under the text it files it under. -/
structure Minted where
  origin : String
  record : String
  tombstone : Bool
  version : Version

/-- The text under which the origin files the record. -/
def Key.record (k : Key) : String := makeKey k.dataset k.serviceId

def SyncEnvelope.minting (env : SyncEnvelope) : Minted :=
  ⟨env.originId, env.key.record, env.tombstone, env.version⟩

/-- A section of one node by itself. `ensure` is `ensure_local_versions` for one record. -/
inductive NodeSection where
  | setRegistry (registry : Option LocalRegistryView)
  | stampLocal (dataset serviceId : String) (op : MutationOp) (nowMs : Int)
  | ensure (dataset serviceId : String) (nowMs : Int)
  | gcTombstones (nowMs retentionMs : Int)
  | disconnectPeer (nodeId : String) (deadline : Int)
  | openSession (peer : Peer)
  | pruneSuppression (now : Int)

namespace ClusterStore

variable (s : ClusterStore)

def act : NodeSection → ClusterStore
  | .setRegistry registry => { s with registry }
  | .stampLocal dataset serviceId op nowMs =>
    s.withState (s.state.file dataset serviceId op (s.state.nextTsLocked nowMs))
      file_nodeId
  | .ensure dataset serviceId nowMs =>
    s.withState (s.state.ensureLocalVersion dataset serviceId nowMs)
      ensureLocalVersion_nodeId
  | .gcTombstones nowMs retentionMs => s.gcTombstones nowMs retentionMs
  | .disconnectPeer nodeId deadline => s.disconnectPeer nodeId deadline
  | .openSession peer => s.openSession peer
  | .pruneSuppression now => s.pruneSuppression now

def mints : NodeSection → List Minted
  | .stampLocal dataset serviceId op nowMs =>
    [⟨s.nodeId, makeKey dataset serviceId, op.isDeregister, s.state.nextTsLocked nowMs, s.nodeId⟩]
  | .ensure dataset serviceId nowMs =>
    if s.state.isVersioned (makeKey dataset serviceId) then []
    else [⟨s.nodeId, makeKey dataset serviceId, false, s.state.nextTsLocked nowMs, s.nodeId⟩]
  | _ => []

/-- The clock can be incremented where the section mints a version. -/
def InRange (l : NodeSection) : Prop := s.mints l = [] ∨ s.state.versionClock + 1 < 2 ^ 63

instance (l : NodeSection) : Decidable (s.InRange l) := inferInstanceAs (Decidable (_ ∨ _))

variable {s} {l : NodeSection} {k : Key} {env : SyncEnvelope}

theorem act_nodeId : (s.act l).nodeId = s.nodeId := by
  cases l with
  | stampLocal dataset serviceId op nowMs => exact file_nodeId
  | ensure dataset serviceId nowMs => exact ensureLocalVersion_nodeId
  | setRegistry | gcTombstones | disconnectPeer | openSession | pruneSuppression => rfl

theorem get?_act (found : (s.act l).foreign.get? k = some env) : s.foreign.get? k = some env := by
  cases l with
  | gcTombstones nowMs retentionMs => exact (get?_keepForeign found).1
  | disconnectPeer nodeId deadline => exact (get?_keepForeign found).1
  | setRegistry | stampLocal | ensure | openSession | pruneSuppression => exact found

theorem act_state (clock : 0 ≤ s.state.versionClock) (range : s.InRange l) :
    (∃ dataset serviceId op ts, s.state.versionClock < ts ∧
      (s.act l).state = s.state.file dataset serviceId op ts ∧
      s.mints l = [⟨s.nodeId, makeKey dataset serviceId, op.isDeregister, ts, s.nodeId⟩]) ∨
    ((s.act l).state.versionClock = s.state.versionClock ∧ s.mints l = [] ∧
      ∀ c b v, (s.act l).state.Holds c b v → s.state.Holds c b v) := by
  cases l with
  | stampLocal dataset serviceId op nowMs =>
    have room := range.resolve_left (List.cons_ne_nil _ _)
    exact .inl ⟨dataset, serviceId, op, _, clock_lt_nextTsLocked clock room nowMs, rfl, rfl⟩
  | ensure dataset serviceId nowMs =>
    by_cases versioned : s.state.isVersioned (makeKey dataset serviceId) = true
    · have same : (s.act (.ensure dataset serviceId nowMs)).state = s.state :=
        if_pos versioned
      refine .inr ⟨congrArg _ same, if_pos versioned, fun c b v holds => ?_⟩
      rwa [same] at holds
    · have minted : s.mints (.ensure dataset serviceId nowMs) = _ := if_neg versioned
      have room := range.resolve_left (minted ▸ List.cons_ne_nil _ _)
      exact .inl ⟨dataset, serviceId, .register, _,
        clock_lt_nextTsLocked clock room nowMs, if_neg versioned, minted⟩
  | gcTombstones nowMs retentionMs =>
    refine .inr ⟨rfl, rfl, ?_⟩
    rintro c b v (⟨found⟩ | ⟨found⟩)
    · exact .live found
    · change (s.state.tombstones.retain _).get? c = some _ at found
      rw [get?_retain, Option.filter_eq_some_iff] at found
      exact .grave found.1
  | setRegistry | disconnectPeer | openSession | pruneSuppression =>
    exact .inr ⟨rfl, rfl, fun _ _ _ holds => holds⟩

end ClusterStore

/-- The nodes, the envelopes under way with their destinations, and the versions minted so far. -/
structure Fleet where
  node : String → ClusterStore
  flight : List (String × SyncEnvelope)
  minted : List Minted
  named : ∀ id, (node id).nodeId = id

/-- The next section. An envelope stays under way when it is delivered, until it is lost. -/
inductive FleetSection where
  | act (id : String) (l : NodeSection)
  | send (id : String) (k : Key) (dest : String)
  | deliver (i : Nat) (now : Int)
  | lose (i : Nat)

namespace Fleet

variable (f : Fleet)

def withNode (id : String) (store : ClusterStore) (same : store.nodeId = (f.node id).nodeId) :
    Fleet :=
  { f with
    node := fun j => if j = id then store else f.node j
    named := by
      intro j
      split
      · rename_i here
        rw [here, same, f.named]
      · exact f.named j }

open ClusterStore

def step : FleetSection → Option Fleet
  | .act id l =>
    some { f.withNode id ((f.node id).act l) act_nodeId with
      minted := (f.node id).mints l ++ f.minted }
  | .send id k dest => do
    let env ← (f.node id).buildEnvelopeForKey k
    some { f with flight := f.flight ++ [(dest, env)] }
  | .deliver i now => do
    let m ← f.flight[i]?
    some (f.withNode m.1 ((f.node m.1).applyInbound now m.2).1
      (congrArg ClusterState.nodeId (applyInbound_sameNode now m.2).state))
  | .lose i => some { f with flight := f.flight.eraseIdx i }

/-! ### The versions under way -/

/-- Every version has been minted by its origin; that of a live local record was the last. -/
structure Sound (f : Fleet) : Prop where
  clock : ∀ id, 0 ≤ (f.node id).state.versionClock
  below : ∀ m ∈ f.minted, m.version.ms ≤ (f.node m.origin).state.versionClock
  holds : ∀ id c b v, (f.node id).state.Holds c b v → ⟨id, c, b, v⟩ ∈ f.minted
  last : ∀ id c v, (f.node id).state.Holds c false v →
    ∀ m ∈ f.minted, m.origin = id → m.record = c → m.version ≤ v
  overlay : ∀ id k env, (f.node id).foreign.get? k = some env → env.minting ∈ f.minted
  flight : ∀ m ∈ f.flight, m.2.minting ∈ f.minted

variable {f f' : Fleet} {l : FleetSection} {id b : String} {k : Key} {env : SyncEnvelope}

/-- The envelope that a node builds is for the key, and of a version that was minted. -/
theorem Sound.built (sound : f.Sound) (built : (f.node id).buildEnvelopeForKey k = some env) :
    env.key = k ∧ env.minting ∈ f.minted := by
  rw [buildEnvelopeForKey] at built
  split at built
  · rename_i own
    have here : (f.node id).nodeId = id := f.named id
    rw [buildLocalEnvelope] at built
    split at built
    · rename_i t found
      cases built
      refine ⟨by rw [SyncEnvelope.key, ← own], ?_⟩
      have minted := sound.holds id _ _ _ (.grave found)
      rwa [← here] at minted
    · split at built
      · rename_i v reg found _
        obtain ⟨e, -, rfl⟩ := Option.map_eq_some_iff.mp built
        refine ⟨by rw [SyncEnvelope.key, ← own], ?_⟩
        have minted := sound.holds id _ _ _ (.live found)
        rwa [← here] at minted
      · cases built
  · exact ⟨(f.node id).keyed k env built, sound.overlay id k env built⟩

/-- A section that mints a version finds a clock that can be incremented. -/
def InRange (f : Fleet) : FleetSection → Prop
  | .act id l => (f.node id).InRange l
  | _ => True

instance (l : FleetSection) : Decidable (f.InRange l) := by
  cases l <;> unfold InRange <;> infer_instance

variable {store : ClusterStore}

variable (same : store.nodeId = (f.node id).nodeId)

include same

theorem foreign_withNode
    {j : String} (found : ((f.withNode id store same).node j).foreign.get? k = some env) :
    (j = id ∧ store.foreign.get? k = some env) ∨ (f.node j).foreign.get? k = some env := by
  dsimp only [withNode] at found
  split at found
  · exact .inl ⟨‹_›, found⟩
  · exact .inr found

theorem foreign_withNode_self (found : store.foreign.get? k = some env) :
    ((f.withNode id store same).node id).foreign.get? k = some env := by
  dsimp only [withNode]
  rwa [if_pos rfl]

theorem foreign_withNode_of_ne
    {j : String} (ne : j ≠ id) (found : (f.node j).foreign.get? k = some env) :
    ((f.withNode id store same).node j).foreign.get? k = some env := by
  dsimp only [withNode]
  rwa [if_neg ne]

omit same

/-- A node files a version above its clock. -/
theorem Sound.files {same : store.nodeId = (f.node id).nodeId}
    {dataset serviceId : String} {op : MutationOp} {ts : Int} (sound : f.Sound)
    (above : (f.node id).state.versionClock < ts)
    (state : store.state = (f.node id).state.file dataset serviceId op ts)
    (foreign : ∀ k env, store.foreign.get? k = some env → (f.node id).foreign.get? k = some env) :
    Sound { f.withNode id store same with
      minted := ⟨id, makeKey dataset serviceId, op.isDeregister, ts, id⟩ :: f.minted } := by
  have named : (f.node id).state.nodeId = id := f.named id
  have others : ∀ j, j ≠ id → (f.withNode id store same).node j = f.node j := fun j ne => if_neg ne
  have own : (f.withNode id store same).node id = store := if_pos rfl
  have clock : store.state.versionClock = ts := by rw [state, file_versionClock]
  have older : ∀ m ∈ f.minted, m.origin = id → m.version.ms < ts := by
    rintro m mem rfl
    exact (sound.below m mem).trans_lt above
  constructor
  case clock =>
    intro j
    by_cases here : j = id
    · subst here
      rw [own, clock]
      exact (sound.clock j).trans above.le
    · rw [others j here]
      exact sound.clock j
  case below =>
    intro m mem
    rcases List.mem_cons.mp mem with rfl | mem
    · rw [own, clock]
    · by_cases here : m.origin = id
      · rw [here, own, clock]
        exact (older m mem here).le
      · rw [others _ here]
        exact sound.below m mem
  case holds =>
    intro j c b v holds
    by_cases here : j = id
    · subst here
      rw [own, state] at holds
      rcases holds_file holds with ⟨rfl, rfl, rfl⟩ | ⟨-, was⟩
      · rw [named]
        exact .head _
      · exact .tail _ (sound.holds j c b v was)
    · rw [others j here] at holds
      exact .tail _ (sound.holds j c b v holds)
  case last =>
    intro j c v holds m mem at_j at_c
    by_cases here : j = id
    · subst here
      rw [own, state] at holds
      rcases holds_file holds with ⟨rfl, -, rfl⟩ | ⟨other, was⟩
      · rcases List.mem_cons.mp mem with rfl | mem
        · rw [named]
        · exact (Version.lt_of_ms (older m mem at_j)).le
      · rcases List.mem_cons.mp mem with rfl | mem
        · exact absurd at_c.symm other
        · exact sound.last j c v was m mem at_j at_c
    · rw [others j here] at holds
      rcases List.mem_cons.mp mem with rfl | mem
      · exact absurd at_j.symm here
      · exact sound.last j c v holds m mem at_j at_c
  case overlay =>
    intro j k env found
    rcases foreign_withNode same found with ⟨-, at_id⟩ | at_j
    · exact .tail _ (sound.overlay id k env (foreign k env at_id))
    · exact .tail _ (sound.overlay j k env at_j)
  case flight => exact fun m mem => .tail _ (sound.flight m mem)

/-- A node mints nothing; what it files came from the fleet. -/
theorem Sound.keeps {same : store.nodeId = (f.node id).nodeId}
    (sound : f.Sound) (clock : store.state.versionClock = (f.node id).state.versionClock)
    (holds : ∀ c b v, store.state.Holds c b v → (f.node id).state.Holds c b v)
    (foreign : ∀ k env, store.foreign.get? k = some env → env.minting ∈ f.minted) :
    (f.withNode id store same).Sound := by
  have others : ∀ j, j ≠ id → (f.withNode id store same).node j = f.node j := fun j ne => if_neg ne
  have own : (f.withNode id store same).node id = store := if_pos rfl
  have clocks : ∀ j, ((f.withNode id store same).node j).state.versionClock =
      (f.node j).state.versionClock := by
    intro j
    by_cases here : j = id
    · subst here
      rw [own, clock]
    · rw [others j here]
  have held : ∀ j c b v, ((f.withNode id store same).node j).state.Holds c b v →
      (f.node j).state.Holds c b v := by
    intro j c b v found
    by_cases here : j = id
    · subst here
      rw [own] at found
      exact holds c b v found
    · rwa [others j here] at found
  constructor
  case clock => exact fun j => (sound.clock j).trans_eq (clocks j).symm
  case below => exact fun m mem => (sound.below m mem).trans_eq (clocks _).symm
  case holds => exact fun j c b v found => sound.holds j c b v (held j c b v found)
  case last => exact fun j c v found => sound.last j c v (held j c false v found)
  case overlay =>
    intro j k env found
    rcases foreign_withNode same found with ⟨-, at_id⟩ | at_j
    · exact foreign k env at_id
    · exact sound.overlay j k env at_j
  case flight => exact sound.flight

theorem get?_applyInbound {s : ClusterStore} {now : Int} {e : SyncEnvelope}
    (found : (s.applyInbound now e).1.foreign.get? k = some env) :
    s.foreign.get? k = some env ∨ (k = e.key ∧ env = e) := by
  rcases applyInbound_cases (s := s) now e with same | ⟨foreign, -⟩
  · rw [same] at found
    exact .inl found
  · rw [foreign, get?_insert] at found
    split at found
    · cases found
      exact .inr ⟨‹_›, rfl⟩
    · exact .inl found

/-- **A section keeps the invariant** where a clock can be incremented if it mints a version. -/
theorem Sound.step (sound : f.Sound) (range : f.InRange l) (step : f.step l = some f') :
    f'.Sound := by
  cases l with
  | act id l =>
    cases step
    rcases act_state (sound.clock id) range with
      ⟨dataset, serviceId, op, ts, above, state, mints⟩ | ⟨clock, mints, holds⟩
    · rw [mints, f.named id]
      exact sound.files above state fun k env => get?_act
    · have kept : (f.withNode id ((f.node id).act l) act_nodeId).Sound :=
        sound.keeps clock holds fun k env found =>
          sound.overlay id k env (get?_act found)
      rw [mints]
      exact kept
  | send id k dest =>
    simp only [Fleet.step, bind_eq_some] at step
    obtain ⟨env, built, step⟩ := step
    cases step
    exact { sound with flight := forall_mem_concat sound.flight (sound.built built).2 }
  | deliver i now =>
    simp only [Fleet.step, bind_eq_some] at step
    obtain ⟨m, at_i, step⟩ := step
    cases step
    have same := applyInbound_sameNode (s := f.node m.1) now m.2
    refine sound.keeps (congrArg _ same.state) (fun c b v holds => same.state ▸ holds) ?_
    intro k env found
    rcases get?_applyInbound found with was | ⟨-, rfl⟩
    · exact sound.overlay m.1 k env was
    · exact sound.flight m (List.mem_of_getElem? at_i)
  | lose i =>
    cases step
    exact { sound with flight := fun m mem => sound.flight m (List.mem_of_mem_eraseIdx mem) }

/-! ### A deleted record -/

/-- The section mints a live version of the record. -/
def Registers (f : Fleet) (k : Key) : FleetSection → Prop
  | .act id l => ∃ m ∈ (f.node id).mints l, m.origin = k.originId ∧ m.record = k.record ∧
      m.tombstone = false
  | _ => False

instance (l : FleetSection) : Decidable (f.Registers k l) := by
  cases l <;> unfold Registers <;> infer_instance

/-- No live copy of the record is under way or in an overlay. -/
structure Clear (f : Fleet) (k : Key) : Prop where
  flight : ∀ m ∈ f.flight, m.2.key = k → m.2.tombstone = true
  overlay : ∀ id env, (f.node id).foreign.get? k = some env → env.tombstone = true

/-- The section makes the node forget a tombstone of the record. -/
def Forgets (f : Fleet) (b : String) (k : Key) (l : FleetSection) : Prop :=
  ∃ act env, l = .act b act ∧ (f.node b).foreign.get? k = some env ∧
    ((f.node b).act act).foreign.get? k = none

/-- The node forgets its tombstone of the record only when no live copy is left. -/
def Patient (b : String) (k : Key) (f : Fleet) (l : FleetSection) : Prop :=
  f.InRange l ∧ (f.Forgets b k l → f.Clear k)

/-- Every live version is below the bound, and the node reaches it or no copy is live. -/
structure Deleted (b : String) (k : Key) (bound : Version) (f : Fleet) : Prop where
  sound : f.Sound
  lives : ∀ m ∈ f.minted, m.origin = k.originId → m.record = k.record → m.tombstone = false →
    m.version < bound
  gone : ∀ v, ¬(f.node k.originId).state.Holds k.record false v
  kept : (∃ env, (f.node b).foreign.get? k = some env ∧ bound ≤ env.version) ∨ f.Clear k

variable {bound : Version} {g : Fleet}

theorem Clear.built (clear : f.Clear k) (gone : ∀ v, ¬(f.node k.originId).state.Holds k.record false v)
    (built : (f.node id).buildEnvelopeForKey k = some env) : env.tombstone = true := by
  rw [buildEnvelopeForKey] at built
  split at built
  · rename_i own
    have here : id = k.originId := (f.named id).symm.trans own.symm
    subst here
    rw [buildLocalEnvelope] at built
    split at built
    · cases built
      rfl
    · split at built
      · rename_i v reg found _
        exact absurd (.live found) (gone v)
      · cases built
  · exact clear.overlay id env built

/-- Where no live copy is left, none appears. -/
theorem Clear.step (clear : f.Clear k) (sound : f.Sound)
    (gone : ∀ v, ¬(f.node k.originId).state.Holds k.record false v) (step : f.step l = some f') :
    f'.Clear k := by
  cases l with
  | act id l =>
    cases step
    refine ⟨clear.flight, fun j env found => ?_⟩
    rcases foreign_withNode act_nodeId found with ⟨-, at_id⟩ | at_j
    · exact clear.overlay id env (get?_act at_id)
    · exact clear.overlay j env at_j
  | send id key dest =>
    simp only [Fleet.step, bind_eq_some] at step
    obtain ⟨env, built, step⟩ := step
    cases step
    refine ⟨fun m mem at_k => ?_, clear.overlay⟩
    rcases List.mem_append.mp mem with mem | mem
    · exact clear.flight m mem at_k
    · cases List.mem_singleton.mp mem
      have same : key = k := (sound.built built).1.symm.trans at_k
      subst same
      exact clear.built gone built
  | deliver i now =>
    simp only [Fleet.step, bind_eq_some] at step
    obtain ⟨m, at_i, step⟩ := step
    cases step
    refine ⟨clear.flight, fun j env found => ?_⟩
    rcases foreign_withNode _ found with ⟨-, at_dest⟩ | at_j
    · rcases get?_applyInbound at_dest with was | ⟨at_k, rfl⟩
      · exact clear.overlay m.1 env was
      · exact clear.flight m (List.mem_of_getElem? at_i) at_k.symm
    · exact clear.overlay j env at_j
  | lose i =>
    cases step
    exact ⟨fun m mem => clear.flight m (List.mem_of_mem_eraseIdx mem), clear.overlay⟩

theorem exists_applyInbound {s : ClusterStore} {e : SyncEnvelope} (now : Int)
    (found : s.foreign.get? k = some env) : ∃ env', (s.applyInbound now e).1.foreign.get? k =
      some env' ∧ env.version ≤ env'.version := by
  have grows : (s.filing now).versionAt s.foreign k ≤
      (s.filing now).versionAt ((s.filing now).offer s.foreign e) k := Filing.versionAt_le_offer
  rw [← (applyInbound_eq now e).1, Filing.versionAt, found] at grows
  cases after : (s.applyInbound now e).1.foreign.get? k with
  | none =>
    rw [Filing.versionAt, after] at grows
    exact absurd grows (WithBot.not_coe_le_bot _)
  | some env' =>
    rw [Filing.versionAt, after] at grows
    exact ⟨env', rfl, WithBot.coe_le_coe.mp grows⟩

/-- The tombstone stays at the node, or is replaced by a newer record, until it is forgotten. -/
theorem Deleted.kept_step (deleted : f.Deleted b k bound) (patient : Patient b k f l)
    (step : f.step l = some f') :
    (∃ env, (f'.node b).foreign.get? k = some env ∧ bound ≤ env.version) ∨ f'.Clear k := by
  rcases deleted.kept with ⟨env, found, reaches⟩ | clear
  · cases l with
    | act id act =>
      by_cases here : b = id
      · subst here
        cases after : ((f.node b).act act).foreign.get? k with
        | none =>
          have clear := patient.2 ⟨act, env, rfl, found, after⟩
          exact .inr (clear.step deleted.sound deleted.gone step)
        | some env' =>
          have was := (get?_act after).symm.trans found
          cases step
          refine .inl ⟨env', ?_, Option.some.inj was ▸ reaches⟩
          exact foreign_withNode_self act_nodeId after
      · cases step
        exact .inl ⟨env, foreign_withNode_of_ne act_nodeId here found, reaches⟩
    | send id key dest =>
      simp only [Fleet.step, bind_eq_some] at step
      obtain ⟨built, -, step⟩ := step
      cases step
      exact .inl ⟨env, found, reaches⟩
    | deliver i now =>
      simp only [Fleet.step, bind_eq_some] at step
      obtain ⟨m, -, step⟩ := step
      cases step
      by_cases here : b = m.1
      · subst here
        obtain ⟨env', after, newer⟩ := exists_applyInbound (e := m.2) now found
        exact .inl ⟨env', foreign_withNode_self _ after, reaches.trans newer⟩
      · exact .inl ⟨env, foreign_withNode_of_ne _ here found, reaches⟩
    | lose i =>
      cases step
      exact .inl ⟨env, found, reaches⟩
  · exact .inr (clear.step deleted.sound deleted.gone step)

/-- The origin mints no live version of the record, so it keeps none. -/
theorem gone_step (sound : f.Sound) (range : f.InRange l) (never : ¬f.Registers k l)
    (gone : ∀ v, ¬(f.node k.originId).state.Holds k.record false v) (step : f.step l = some f') :
    ∀ v, ¬(f'.node k.originId).state.Holds k.record false v := by
  intro v holds
  cases l with
  | act id act =>
    cases step
    dsimp only [withNode] at holds
    split at holds
    · rename_i here
      subst here
      rcases act_state (sound.clock k.originId) range with
        ⟨dataset, serviceId, op, ts, -, state, mints⟩ | ⟨-, -, was⟩
      · rw [state] at holds
        rcases holds_file holds with ⟨is_k, live, -⟩ | ⟨-, was⟩
        · have minted : ⟨(f.node k.originId).nodeId, makeKey dataset serviceId, op.isDeregister,
              ts, (f.node k.originId).nodeId⟩ ∈ (f.node k.originId).mints act := by
            rw [mints]
            exact .head _
          exact never ⟨_, minted, f.named k.originId, is_k.symm, live.symm⟩
        · exact gone v was
      · exact gone v (was _ _ _ holds)
    · exact gone v holds
  | send id key dest =>
    simp only [Fleet.step, bind_eq_some] at step
    obtain ⟨built, -, step⟩ := step
    cases step
    exact gone v holds
  | deliver i now =>
    simp only [Fleet.step, bind_eq_some] at step
    obtain ⟨m, -, step⟩ := step
    cases step
    dsimp only [withNode] at holds
    split at holds
    · rename_i here
      rw [(applyInbound_sameNode now m.2).state, ← here] at holds
      exact gone v holds
    · exact gone v holds
  | lose i =>
    cases step
    exact gone v holds

theorem minted_step {m : Minted} (step : f.step l = some f') (mem : m ∈ f'.minted) :
    m ∈ f.minted ∨ ∃ id act, l = .act id act ∧ m ∈ (f.node id).mints act := by
  cases l with
  | act id act =>
    cases step
    exact (List.mem_append.mp mem).symm.imp_right fun new => ⟨id, act, rfl, new⟩
  | send id key dest =>
    simp only [Fleet.step, bind_eq_some] at step
    obtain ⟨built, -, step⟩ := step
    cases step
    exact .inl mem
  | deliver i now =>
    simp only [Fleet.step, bind_eq_some] at step
    obtain ⟨m, -, step⟩ := step
    cases step
    exact .inl mem
  | lose i =>
    cases step
    exact .inl mem

theorem Deleted.step (deleted : f.Deleted b k bound) (never : ¬f.Registers k l)
    (patient : Patient b k f l) (step : f.step l = some f') : f'.Deleted b k bound where
  sound := deleted.sound.step patient.1 step
  lives m mem at_origin at_record live := by
    rcases minted_step step mem with was | ⟨id, act, rfl, new⟩
    · exact deleted.lives m was at_origin at_record live
    · exact absurd ⟨m, new, at_origin, at_record, live⟩ never
  gone := gone_step deleted.sound patient.1 never deleted.gone step
  kept := deleted.kept_step patient step

theorem Deleted.hides (deleted : f.Deleted b k bound) : (f.node b).Hides k := by
  refine .of_grave fun env found => ?_
  rcases deleted.kept with ⟨grave, at_b, reaches⟩ | clear
  · cases found.symm.trans at_b
    by_contra live
    have here := (f.node b).keyed k env found
    have below := deleted.lives env.minting (deleted.sound.overlay b k env found)
      (congrArg Key.originId here) (congrArg Key.record here) (Bool.eq_false_iff.mpr live)
    exact absurd below (not_lt.mpr reaches)
  · exact clear.overlay b env found

/-- A fleet in which nothing has happened yet. -/
structure Blank (f : Fleet) : Prop where
  minted : f.minted = []
  flight : f.flight = []
  clock : ∀ id, 0 ≤ (f.node id).state.versionClock
  state : ∀ id c b v, ¬(f.node id).state.Holds c b v
  overlay : ∀ id, (f.node id).foreign = .empty

theorem Blank.sound (blank : f.Blank) : f.Sound where
  clock := blank.clock
  below m mem := by
    rw [blank.minted] at mem
    cases mem
  holds id c b v holds := absurd holds (blank.state id c b v)
  last id c v holds := absurd holds (blank.state id c false v)
  overlay id k env found := by
    rw [blank.overlay] at found
    cases found
  flight m mem := by
    rw [blank.flight] at mem
    cases mem

/-- **No resurrection** while no live version is minted and no tombstone is dropped too early. -/
theorem no_resurrection {before after : List FleetSection} (blank : f.Blank)
    (first : Run (Under InRange (Steps step)) f before g)
    (applied : (g.node b).foreign.get? k = some env)
    (newest : ∀ m ∈ g.minted, m.origin = k.originId → m.record = k.record → m.tombstone = false →
      m.version < env.version)
    (rest : Run (Under (fun f l => ¬f.Registers k l ∧ Patient b k f l) (Steps step)) g after f') :
    (f'.node b).Hides k := by
  have sound : g.Sound :=
    first.invariant_under (fun _ _ _ sound range step => Sound.step sound range step) blank.sound
  have start : g.Deleted b k env.version := by
    refine ⟨sound, newest, fun v holds => ?_, .inl ⟨env, applied, le_refl _⟩⟩
    -- A live version at the origin would be the last one minted, and above the tombstone.
    have here := (g.node b).keyed k env applied
    have live := newest _ (sound.holds _ _ _ _ holds) rfl rfl rfl
    have last := sound.last _ _ _ holds env.minting (sound.overlay b k env applied)
      (congrArg Key.originId here) (congrArg Key.record here)
    exact absurd live (not_lt.mpr last)
  exact (rest.invariant_under
    (fun _ _ _ deleted allowed step => Deleted.step deleted allowed.1 allowed.2 step) start).hides

/-- No envelope, stored or under way, is ahead of its origin. -/
theorem replicas_behind_origin {ls : List FleetSection} (blank : f.Blank)
    (run : Run (Under InRange (Steps step)) f ls g) {env : SyncEnvelope}
    (copy : (∃ id k, (g.node id).foreign.get? k = some env) ∨ ∃ dest, (dest, env) ∈ g.flight) :
    env.minting ∈ g.minted ∧ env.version.ms ≤ (g.node env.originId).state.versionClock ∧
      ∀ v, (g.node env.originId).state.Holds env.minting.record false v → env.version ≤ v := by
  have sound : g.Sound :=
    run.invariant_under (fun _ _ _ sound range step => Sound.step sound range step) blank.sound
  have minted : env.minting ∈ g.minted := by
    rcases copy with ⟨id, k, found⟩ | ⟨dest, mem⟩
    · exact sound.overlay id k env found
    · exact sound.flight _ mem
  exact ⟨minted, sound.below _ minted, fun v holds => sound.last _ _ v holds _ minted rfl rfl⟩

end Fleet

/-! ### A tombstone that is forgotten too early -/

namespace Revived

open Fleet

def blankStore (id : String) : ClusterStore where
  state := .new id
  foreign := .empty
  sessions := .empty
  evictedUntil := .empty
  registry := none
  merkleBuckets := 1
  authEnabled := false
  keyed := foreign_empty_keyed
  notOwn := foreign_empty_notOwn id

def start : Fleet := ⟨blankStore, [], [], fun _ => rfl⟩

theorem blank_start : start.Blank where
  minted := rfl
  flight := rfl
  clock _ := le_refl 0
  state := by rintro id c b v (⟨⟨⟩⟩ | ⟨⟨⟩⟩)
  overlay _ := rfl

def listed : LocalEntry := ⟨"x", "api_config", .obj [], some (.obj [("name", .str "n")])⟩

theorem listed_found (_ : String) (e : LocalEntry) (_ : e ∈ [listed]) :
    ∃ found, some listed = some found := ⟨listed, rfl⟩

def view : LocalRegistryView where
  listDatasets := ["ds"]
  listEntries _ := [listed]
  getEntry _ _ := some listed
  isAuthRequired _ := false
  listed := listed_found

def key : Key := ⟨"ds", "A", "x"⟩

/-- A registers the record, and C gets it; A deletes it, and B gets the tombstone. -/
def deletion : List FleetSection :=
  [.act "A" (.setRegistry (some view)), .act "A" (.stampLocal "ds" "x" .register 1000),
    .send "A" key "C", .deliver 0 0, .act "A" (.setRegistry none),
    .act "A" (.stampLocal "ds" "x" .deregister 2000), .send "A" key "B", .deliver 1 0]

/-- B collects the tombstone 41 s after the deletion and reconciles with C. -/
def revival : List FleetSection :=
  [.act "B" (.gcTombstones 43000 40000), .send "C" key "B", .deliver 2 0]

/-- The origin never registers the record again, and B shows it. -/
theorem record_revived : ∃ g f' grave, Run (Under InRange (Steps step)) start deletion g ∧
    (g.node "B").foreign.get? key = some grave ∧ grave.tombstone = true ∧
    (∀ m ∈ g.minted, m.tombstone = false → m.version < grave.version) ∧
    Run (Under (fun f l => ¬f.Registers key l ∧ f.InRange l) (Steps step)) g revival f' ∧
    ((f'.node "B").foreignEntry "ds" "A:x").isSome = true :=
  ⟨_, _, _, run_under_of_foldlM rfl, rfl, rfl, by decide, run_under_of_foldlM rfl, by decide⟩

def deleted : Fleet := (deletion.foldlM step start).getD start

def copying : List FleetSection := [.send "C" key "B", .deliver 2 0]

def offered : Fleet := (copying.foldlM step deleted).getD deleted

/-- With its tombstone B refuses the copy of C. -/
theorem copy_refused : Run (Under InRange (Steps step)) start deletion deleted ∧
    Run (Under (fun f l => ¬f.Registers key l ∧ Patient "B" key f l) (Steps step)) deleted copying
      offered ∧ (offered.node "B").Hides key := by
  have first : Run (Under InRange (Steps step)) start deletion deleted := run_under_of_foldlM rfl
  have rest : Run (Under (fun f l => ¬f.Registers key l ∧ Patient "B" key f l) (Steps step)) deleted
      copying offered := by
    refine .cons ⟨⟨id, trivial, ?_⟩, rfl⟩ (.cons ⟨⟨id, trivial, ?_⟩, rfl⟩ (.nil _))
    · rintro ⟨act, env, ⟨⟩, -⟩
    · rintro ⟨act, env, ⟨⟩, -⟩
  exact ⟨first, rest, no_resurrection blank_start first rfl (by decide) rest⟩

/-- The tombstone that is under way to B. -/
theorem tombstone_behind_origin : ∃ g env, Run (Under InRange (Steps step)) start deletion g ∧
    ("B", env) ∈ g.flight ∧ env.tombstone = true ∧ env.minting ∈ g.minted := by
  obtain ⟨g, env, run, mem, grave⟩ : ∃ g env, Run (Under InRange (Steps step)) start deletion g ∧
    ("B", env) ∈ g.flight ∧ env.tombstone = true := ⟨_, _, run_under_of_foldlM rfl, .tail _ (.head _), rfl⟩
  exact ⟨g, env, run, mem, grave, (replicas_behind_origin blank_start run (.inr ⟨_, mem⟩)).1⟩

end Revived

end AgentProtocols.Cluster
