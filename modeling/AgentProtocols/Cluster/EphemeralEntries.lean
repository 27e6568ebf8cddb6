import AgentProtocols.Cluster.Resurrection
import AgentProtocols.Registry.Validation

/-!
Ephemeral entries and what leaves a node. `RegistryNode` is a registry with its cluster store and
the calls under way, and keeps what it has sent and the rows that it has shown.

* `RegistryNode.Sound.step` — what a step that meets `Guarded` keeps.
* `ephemeral_stays` — in every run of such steps no ephemeral entry has left the node or been shown.
* `TwoNodes.ephemeral_broadcast` — an ephemeral registration is broadcast.
-/

namespace AgentProtocols.Registry

def Source.asStr : Source → String
  | userConfig => "user_config"
  | apiConfig => "api_config"
  | ephemeral => "ephemeral"
  | skillFolder => "skill_folder"

theorem Source.asStr_eq_iff {source : Source} : source.asStr = "ephemeral" ↔ source = .ephemeral := by
  cases source <;> simp [asStr]

def orNull {α : Type} (encode : α → Json) (value : Option α) : Json := (value.map encode).getD .null

/-- `serde_json::to_value` of an entry. -/
def RegistryEntry.toValue (e : RegistryEntry AgentCard) : Json :=
  .obj [("service_id", .str e.serviceId), ("type", .str e.type.asStr),
    ("source", .str e.source.asStr),
    ("service_data", orNull (fun d => .obj d.toJson) e.serviceData),
    ("agent_card", orNull (fun c => .obj (c.toJson .full)) e.agentCard),
    ("agent_card_url", orNull .str e.agentCardUrl),
    ("skill_data", orNull (fun d => .obj d.toJson) e.skillData),
    ("owner_id", orNull .str e.ownerId), ("lease_ttl", orNull (fun n => .num (.ofI64 n)) e.leaseTtl)]

end AgentProtocols.Registry

namespace AgentProtocols.Cluster

open Lib Merkle OrderedMap
open AgentProtocols.Registry (AgentCard RegistryService entryToOutput Source)

/-! ### Entries in envelopes -/

def SyncEnvelope.source (env : SyncEnvelope) : Option Json :=
  (env.entry.bind Json.asObject).bind fun fields => JsonDict.get fields "source"

/-- A live envelope whose payload is of an ephemeral entry. -/
def SyncEnvelope.isEphemeral (env : SyncEnvelope) : Bool :=
  !env.tombstone && decide (env.source = some (.str "ephemeral"))

def localEntry (e : Registry.RegistryEntry AgentCard) : LocalEntry where
  serviceId := e.serviceId
  source := e.source.asStr
  entry := e.toValue
  wrapped := some (.obj (entryToOutput e))

def liveEnvelope (dataset serviceId nodeId : String) (version : Version)
    (e : Registry.RegistryEntry AgentCard) : SyncEnvelope :=
  ⟨dataset, serviceId, nodeId, version, false,
    some (.obj [("entry", e.toValue), ("wrapped", .obj (entryToOutput e))])⟩

theorem isEphemeral_liveEnvelope {dataset serviceId nodeId : String} {version : Version}
    {e : Registry.RegistryEntry AgentCard} :
    (liveEnvelope dataset serviceId nodeId version e).isEphemeral = true ↔
      e.source = .ephemeral := by
  have source : (liveEnvelope dataset serviceId nodeId version e).source =
      some (.str e.source.asStr) := rfl
  rw [← Source.asStr_eq_iff, SyncEnvelope.isEphemeral, source]
  simp [liveEnvelope]

theorem isEphemeral_of_tombstone {env : SyncEnvelope} (tombstone : env.tombstone = true) :
    env.isEphemeral = false := by
  simp [SyncEnvelope.isEphemeral, tombstone]

theorem localEntry_isEphemeral (e : Registry.RegistryEntry AgentCard) :
    (localEntry e).isEphemeral = true ↔ e.source = .ephemeral := by
  rw [LocalEntry.isEphemeral, localEntry, beq_iff_eq, Source.asStr_eq_iff]

/-! ### The registry -/

/-- The entries of a registry, each filed under its id; the datasets are the directories on disk. -/
structure HostedRegistry where
  service : RegistryService AgentCard
  datasets : List String
  authRequired : String → Bool
  keyed : ∀ dataset serviceId e, service.getEntry dataset serviceId = some e →
    e.serviceId = serviceId

namespace HostedRegistry

variable (r : HostedRegistry)

def insert (dataset : String) (e : Registry.RegistryEntry AgentCard) : HostedRegistry where
  service := r.service.insertEntry dataset e.serviceId e
  datasets := r.datasets
  authRequired := r.authRequired
  keyed := by
    intro ds id f found
    rw [RegistryService.getEntry_insertEntry] at found
    split at found
    · rename_i here
      cases found
      exact here.2.symm
    · exact r.keyed ds id f found

def remove (dataset serviceId : String) : HostedRegistry where
  service := r.service.removeEntry dataset serviceId
  datasets := r.datasets
  authRequired := r.authRequired
  keyed := by
    intro ds id f found
    exact r.keyed ds id f (RegistryService.getEntry_of_removeEntry found)

/-- `register_batch` in memory. -/
def insertBatch (dataset : String) (entries : List (Registry.RegistryEntry AgentCard))
    (source : Source) : HostedRegistry :=
  entries.foldl (fun r e => r.insert dataset { e with source }) r

theorem listed (dataset : String) (e : LocalEntry)
    (mem : e ∈ (r.service.dataset dataset).values.map localEntry) :
    ∃ f, r.service.getEntry dataset e.serviceId = some f ∧ e = localEntry f := by
  obtain ⟨f, held, rfl⟩ := List.mem_map.mp mem
  obtain ⟨⟨id, g⟩, stored, rfl⟩ := List.mem_map.mp held
  have found : r.service.getEntry dataset id = some g := by
    rw [← RegistryService.getEntry_dataset]
    exact get?_eq_some_iff.mpr stored
  have at_id := r.keyed dataset id g found
  exact ⟨g, by rw [localEntry, at_id, found], rfl⟩

theorem listed_found (dataset : String) (e : LocalEntry)
    (mem : e ∈ (r.service.dataset dataset).values.map localEntry) :
    ∃ found, (r.service.getEntry dataset e.serviceId).map localEntry = some found := by
  obtain ⟨f, found, -⟩ := r.listed dataset e mem
  exact ⟨localEntry f, by rw [found, Option.map_some]⟩

def view : LocalRegistryView where
  listDatasets := r.datasets
  listEntries dataset := (r.service.dataset dataset).values.map localEntry
  getEntry dataset serviceId := (r.service.getEntry dataset serviceId).map localEntry
  isAuthRequired := r.authRequired
  listed := r.listed_found

end HostedRegistry

/-! ### The node -/

/-- A call under way, at its next section; `broadcasts` tells a task of the hook. -/
inductive Job where
  /-- `on_local_upsert` with the entry captured at the call. -/
  | upsert (dataset : String) (e : Registry.RegistryEntry AgentCard)
  /-- `on_local_delete`. -/
  | delete (dataset serviceId : String)
  /-- `build_envelope_for_key`, before it takes the lock. -/
  | reading (k : Key) (broadcasts : Bool)
  /-- `build_local_envelope`, before it asks the registry for the entry. -/
  | looking (k : Key) (version : Version) (broadcasts : Bool)
  /-- Before the broadcast. -/
  | sending (env : SyncEnvelope)
  | done

structure RegistryNode where
  registry : HostedRegistry
  store : ClusterStore
  jobs : List Job
  /-- The envelopes that have left the node. -/
  sent : List SyncEnvelope
  /-- The keys that digests and Merkle trees have shown, with their envelopes. -/
  shown : List (Key × Option SyncEnvelope)

/-- The next section, and whether the files could be written. -/
inductive NodeCall where
  | register (dataset : String) (e : Registry.RegistryEntry AgentCard) (saved : Bool)
  | update (dataset : String) (e : Registry.RegistryEntry AgentCard) (saved : Bool)
  | deregister (dataset serviceId : String) (saved : Bool)
  | registerBatch (dataset : String) (entries : List (Registry.RegistryEntry AgentCard))
      (persistent : Bool)
  | setDatasets (datasets : List String) (authRequired : String → Bool)
  | stamp (i : Nat) (nowMs : Int) (saved : Bool)
  | read (i : Nat)
  | lookup (i : Nat)
  | broadcast (i : Nat)
  | serveMerkle (clocks : Clocks) (fromNode : String) (namespaces : Option (List String))
      (token : Option String)
  | serveDigest (clocks : Clocks) (fromNode : String) (namespaces : Option (List String))
      (token : Option String) (buckets : Option (List Nat))
  | servePull (clocks : Clocks) (fromNode : String) (keys : List Key) (token : Option String)
  | serveUpdates (clocks : Clocks) (fromNode : String) (envs : List SyncEnvelope)
      (token : Option String)
  /-- `reconcile` takes its index, applies what it has pulled, and pushes. -/
  | index (wall : Nat → Int)
  | pulled (now : Int) (envs : List SyncEnvelope)
  | push (keys : List Key)
  | act (l : NodeSection)

namespace RegistryNode

section Definitions

variable (n : RegistryNode)

def node : ClusterStore := { n.store with registry := some n.registry.view }

def setJob (i : Nat) (job : Job) : RegistryNode := { n with jobs := n.jobs.set i job }

def spawn (jobs : List Job) : RegistryNode := { n with jobs := n.jobs ++ jobs }

def built (i : Nat) (broadcasts : Bool) (env : Option SyncEnvelope) : RegistryNode :=
  match env with
  | none => n.setJob i .done
  | some env =>
    if broadcasts then n.setJob i (.sending env)
    else { n.setJob i .done with sent := n.sent ++ [env] }

def stamped (dataset serviceId : String) (op : MutationOp) (nowMs : Int) : ClusterStore :=
  n.store.act (.stampLocal dataset serviceId op nowMs)

def stampJob (i : Nat) (nowMs : Int) (saved : Bool) : Option RegistryNode :=
  match n.jobs[i]? with
  | some (.upsert dataset e) =>
    let env := liveEnvelope dataset e.serviceId n.store.nodeId
      ⟨n.store.state.nextTsLocked nowMs, n.store.nodeId⟩ e
    some { n.setJob i (if saved then .sending env else .done) with
      store := n.stamped dataset e.serviceId .update nowMs }
  | some (.delete dataset serviceId) =>
    let k : Key := ⟨dataset, n.store.nodeId, serviceId⟩
    some { n.setJob i (if saved then .reading k true else .done) with
      store := n.stamped dataset serviceId .deregister nowMs }
  | _ => none

/-- The lock section of `build_envelope_for_key`. -/
def readKey (i : Nat) (k : Key) (broadcasts : Bool) : RegistryNode :=
  if k.originId = n.store.nodeId then
    match n.store.state.tombstones.get? (makeKey k.dataset k.serviceId) with
    | some t => n.built i broadcasts
        (some ⟨k.dataset, k.serviceId, n.store.nodeId, t.version, true, none⟩)
    | none =>
      match n.store.state.localVersions.get? (makeKey k.dataset k.serviceId) with
      | some version => n.setJob i (.looking k version broadcasts)
      | none => n.setJob i .done
  else n.built i broadcasts (n.store.foreign.get? k)

/-- The rest of `build_local_envelope`. -/
def lookupKey (i : Nat) (k : Key) (version : Version) (broadcasts : Bool) : RegistryNode :=
  n.built i broadcasts ((n.registry.service.getEntry k.dataset k.serviceId).map
    (liveEnvelope k.dataset k.serviceId n.store.nodeId version))

/-- A digest or a Merkle tree of the keys, by a store that answers. -/
def recording (store : ClusterStore) (keys : List Key) : RegistryNode :=
  { n with store, shown := n.shown ++ keys.map fun k => (k, store.buildEnvelopeForKey k) }

end Definitions

variable (H : Sha256)

open ClusterStore

def step (n : RegistryNode) : NodeCall → Option RegistryNode
  | .register dataset e saved =>
    some ({ n with registry := n.registry.insert dataset e }.spawn
      (if saved then [.upsert dataset e] else []))
  | .update dataset e saved =>
    if (n.registry.service.getEntry dataset e.serviceId).isSome then
      some ({ n with registry := n.registry.insert dataset e }.spawn
        (if saved then [.upsert dataset e] else []))
    else none
  | .deregister dataset serviceId saved =>
    if (n.registry.service.getEntry dataset serviceId).isSome then
      some ({ n with registry := n.registry.remove dataset serviceId }.spawn
        (if saved then [.delete dataset serviceId] else []))
    else none
  | .registerBatch dataset entries persistent =>
    let source := if persistent then Source.apiConfig else .ephemeral
    some { n with registry := n.registry.insertBatch dataset entries source }
  | .setDatasets datasets authRequired =>
    some { n with registry := { n.registry with datasets, authRequired } }
  | .stamp i nowMs saved => n.stampJob i nowMs saved
  | .read i =>
    match n.jobs[i]? with
    | some (.reading k broadcasts) => some (n.readKey i k broadcasts)
    | _ => none
  | .lookup i =>
    match n.jobs[i]? with
    | some (.looking k version broadcasts) => some (n.lookupKey i k version broadcasts)
    | _ => none
  | .broadcast i =>
    match n.jobs[i]? with
    | some (.sending env) => some { n.setJob i .done with
        sent := n.sent ++ (n.store.broadcast env).flatMap Prod.snd }
    | _ => none
  | .serveMerkle clocks fromNode namespaces token =>
    let (_, store) := n.node.serveMerkle H clocks fromNode namespaces token
    let allowed := (n.node.touchPeer fromNode (clocks.monotonic 0)).allowedFor fromNode namespaces
      token
    some (n.recording store (store.visibleIndex allowed).keys)
  | .serveDigest clocks fromNode namespaces token buckets =>
    let (rows, store) := n.node.serveDigest H clocks fromNode namespaces token buckets
    some (n.recording store (rows.map Prod.fst))
  | .servePull clocks fromNode keys token =>
    let store := n.node.touchPeer fromNode (clocks.monotonic 2)
    let allowed := store.allowedFor fromNode none token
    some ({ n with store }.spawn
      ((keys.filter fun k : Key => allowed.contains k.dataset).map fun k => .reading k false))
  | .serveUpdates clocks fromNode envs token =>
    some { n with store := (n.node.serveUpdates clocks fromNode envs token).2 }
  | .index wall => some { n with store := n.node.ensureLocalVersions wall }
  | .pulled now envs => some { n with store := (applyAll now n.store envs).1 }
  | .push keys => some (n.spawn (keys.map fun k => .reading k false))
  | .act l => some { n with store := n.store.act l }

/-! ### What keeps ephemeral entries in -/

/-- No envelope is built from an ephemeral entry, and none comes from a peer. -/
def Guarded (n : RegistryNode) : NodeCall → Prop
  | .register _ e saved => saved = true → e.source ≠ .ephemeral
  | .update _ e saved => saved = true → e.source ≠ .ephemeral
  | .lookup i => ∀ k version broadcasts e, n.jobs[i]? = some (.looking k version broadcasts) →
      n.registry.service.getEntry k.dataset k.serviceId = some e → e.source ≠ .ephemeral
  | .serveUpdates _ _ envs _ => ∀ env ∈ envs, env.isEphemeral = false
  | .pulled _ envs => ∀ env ∈ envs, env.isEphemeral = false
  | _ => True

/-- The job carries no ephemeral entry. -/
def Harmless : Job → Prop
  | .upsert _ e => e.source ≠ .ephemeral
  | .sending env => env.isEphemeral = false
  | _ => True

/-- Nothing ephemeral has left the node or is about to, and none has been shown. -/
structure Sound (n : RegistryNode) : Prop where
  overlay : ∀ k env, n.store.foreign.get? k = some env → env.isEphemeral = false
  jobs : ∀ job ∈ n.jobs, Harmless job
  sent : ∀ env ∈ n.sent, env.isEphemeral = false
  shown : ∀ row ∈ n.shown, ∀ env, row.2 = some env → env.isEphemeral = false

/-! ### Stores -/

section Stores

variable {s : ClusterStore} {k : Key} {env : SyncEnvelope}

theorem touchPeer_registry (s : ClusterStore) (nodeId : String) (now : Int) :
    (s.touchPeer nodeId now).registry = s.registry := by
  rw [touchPeer]
  split <;> rfl

theorem touchPeer_foreign (s : ClusterStore) (nodeId : String) (now : Int) :
    (s.touchPeer nodeId now).foreign = s.foreign := by
  rw [touchPeer]
  split <;> rfl

theorem get?_applyAll {now : Int} : ∀ {envs : List SyncEnvelope} {s : ClusterStore},
    (applyAll now s envs).1.foreign.get? k = some env → s.foreign.get? k = some env ∨ env ∈ envs
  | [], _, found => .inl found
  | e :: rest, s, found => by
    rw [applyAll] at found
    rcases get?_applyAll found with was | later
    · rcases Fleet.get?_applyInbound was with was | ⟨-, rfl⟩
      · exact .inl was
      · exact .inr List.mem_cons_self
    · exact .inr (List.mem_cons_of_mem _ later)

theorem get?_serveUpdates {clocks : Clocks} {fromNode : String} {envs : List SyncEnvelope}
    {token : Option String}
    (found : (s.serveUpdates clocks fromNode envs token).2.foreign.get? k = some env) :
    s.foreign.get? k = some env ∨ env ∈ envs := by
  have filtered : (s.serveUpdates clocks fromNode envs token).2 =
      (serveEnvelopes (clocks.monotonic 3) fromNode token
        (s.touchPeer fromNode (clocks.monotonic 3)) envs).1 := rfl
  rw [filtered, serveEnvelopes_filter] at found
  rcases get?_applyAll found with was | mem
  · rw [touchPeer_foreign] at was
    exact .inl was
  · exact .inr (List.mem_of_mem_filter mem)

variable {r : HostedRegistry} {v : Version}

variable (view : s.registry = some r.view)

include view

theorem entry_of_liveRow
    {namespaces : Option (List String)} (row : (k, v) ∈ s.liveRows namespaces) :
    ∃ e, r.service.getEntry k.dataset k.serviceId = some e ∧ e.source ≠ .ephemeral := by
  rw [liveRows, view] at row
  simp only [List.mem_flatMap, List.mem_filter, List.mem_filterMap, Option.map_eq_some_iff] at row
  obtain ⟨dataset, -, l, ⟨listed, replicates⟩, version, -, same⟩ := row
  cases same
  obtain ⟨e, found, rfl⟩ := r.listed dataset l listed
  refine ⟨e, found, fun ephemeral => ?_⟩
  rw [(localEntry_isEphemeral e).mpr ephemeral] at replicates
  cases replicates

theorem harmless_of_fullIndex
    (overlay : ∀ k env, s.foreign.get? k = some env → env.isEphemeral = false)
    {namespaces : Option (List String)} (row : (s.fullIndex namespaces).get? k = some v)
    (built : s.buildEnvelopeForKey k = some env) : env.isEphemeral = false := by
  rw [buildEnvelopeForKey] at built
  split at built
  · rename_i own
    rw [fullIndex_own own] at row
    rw [buildLocalEnvelope] at built
    split at built
    · cases built
      exact isEphemeral_of_tombstone rfl
    · rename_i alive
      split at built
      · rename_i version reg filed registry
        cases view.symm.trans registry
        rcases mem_localIndex row with live | tombstone
        · obtain ⟨e, found, persistent⟩ := entry_of_liveRow view live
          have got : r.view.getEntry k.dataset k.serviceId = some (localEntry e) :=
            congrArg (Option.map localEntry) found
          rw [got] at built
          cases built
          rw [Bool.eq_false_iff]
          exact fun ephemeral => persistent (isEphemeral_liveEnvelope.mp ephemeral)
        · obtain ⟨-, -, t, buried, -⟩ := mem_tombstoneRows tombstone
          cases alive.symm.trans buried
      · cases built
  · exact overlay k env built

theorem harmless_of_visibleIndex
    (overlay : ∀ k env, s.foreign.get? k = some env → env.isEphemeral = false)
    {allowed : List String} (row : (k, v) ∈ (s.visibleIndex allowed).entries)
    (built : s.buildEnvelopeForKey k = some env) : env.isEphemeral = false := by
  have found := get?_eq_some_iff.mpr row
  rw [visibleIndex, get?_retain, Option.filter_eq_some_iff] at found
  exact harmless_of_fullIndex view overlay found.1 built

omit view

end Stores

/-! ### A step -/

section Steps

variable {n n' : RegistryNode} {H : Sha256}

variable (sound : n.Sound)

include sound

theorem Sound.withRegistry (registry : HostedRegistry) :
    Sound { n with registry } := ⟨sound.overlay, sound.jobs, sound.sent, sound.shown⟩

theorem Sound.withStore {store : ClusterStore}
    (overlay : ∀ k env, store.foreign.get? k = some env → env.isEphemeral = false) :
    Sound { n with store } := ⟨overlay, sound.jobs, sound.sent, sound.shown⟩

theorem Sound.spawn {jobs : List Job} (harmless : ∀ job ∈ jobs, Harmless job) :
    (n.spawn jobs).Sound := by
  refine ⟨sound.overlay, fun job mem => ?_, sound.sent, sound.shown⟩
  rcases List.mem_append.mp mem with old | new
  · exact sound.jobs job old
  · exact harmless job new

theorem Sound.setJob (i : Nat) (job : Job) (harmless : Harmless job) : (n.setJob i job).Sound :=
  ⟨sound.overlay, forall_mem_set sound.jobs harmless, sound.sent, sound.shown⟩

theorem Sound.built (i : Nat) (broadcasts : Bool) {env : Option SyncEnvelope}
    (harmless : ∀ e, env = some e → e.isEphemeral = false) : (n.built i broadcasts env).Sound := by
  unfold RegistryNode.built
  split
  · exact sound.setJob i _ trivial
  · rename_i e
    split
    · exact sound.setJob i _ (harmless e rfl)
    · exact ⟨sound.overlay, (sound.setJob i .done trivial).jobs,
        forall_mem_concat sound.sent (harmless e rfl), sound.shown⟩

theorem Sound.stampJob {i : Nat} {nowMs : Int} {saved : Bool}
    (step : n.stampJob i nowMs saved = some n') : n'.Sound := by
  unfold RegistryNode.stampJob at step
  have filed : ∀ dataset serviceId op k env,
      (n.stamped dataset serviceId op nowMs).foreign.get? k = some env → env.isEphemeral = false :=
    fun dataset serviceId op k env found => sound.overlay k env (get?_act found)
  split at step
  · rename_i dataset e at_i
    cases step
    have persistent : e.source ≠ .ephemeral := sound.jobs _ (List.mem_of_getElem? at_i)
    refine (sound.setJob i _ ?_).withStore (filed _ _ _)
    split
    · show SyncEnvelope.isEphemeral _ = false
      rw [Bool.eq_false_iff]
      exact fun ephemeral => persistent (isEphemeral_liveEnvelope.mp ephemeral)
    · trivial
  · cases step
    refine (sound.setJob i _ ?_).withStore (filed _ _ _)
    split <;> trivial
  · cases step

theorem Sound.readKey (i : Nat) (k : Key) (broadcasts : Bool) :
    (n.readKey i k broadcasts).Sound := by
  unfold RegistryNode.readKey
  split
  · split
    · refine sound.built i broadcasts fun e same => ?_
      cases same
      exact isEphemeral_of_tombstone rfl
    · split
      · exact sound.setJob i _ trivial
      · exact sound.setJob i _ trivial
  · exact sound.built i broadcasts fun e found => sound.overlay k e found

theorem Sound.lookupKey (i : Nat) (k : Key) (version : Version)
    (broadcasts : Bool) (persistent : ∀ e,
      n.registry.service.getEntry k.dataset k.serviceId = some e → e.source ≠ .ephemeral) :
    (n.lookupKey i k version broadcasts).Sound := by
  refine sound.built i broadcasts fun env same => ?_
  obtain ⟨e, found, rfl⟩ := Option.map_eq_some_iff.mp same
  rw [Bool.eq_false_iff]
  exact fun ephemeral => persistent e found (isEphemeral_liveEnvelope.mp ephemeral)

theorem Sound.recording {fromNode : String} {now : Int} {wall : Nat → Int}
    {store : ClusterStore} (heard : store = (n.node.touchPeer fromNode now).ensureLocalVersions wall)
    (allowed : List String) {keys : List Key}
    (rows : ∀ k ∈ keys, ∃ v, (k, v) ∈ (store.visibleIndex allowed).entries) :
    (n.recording store keys).Sound := by
  subst heard
  have view : ((n.node.touchPeer fromNode now).ensureLocalVersions wall).registry =
      some n.registry.view := touchPeer_registry n.node fromNode now
  have overlay : ∀ k env, ((n.node.touchPeer fromNode now).ensureLocalVersions wall).foreign.get? k =
      some env → env.isEphemeral = false := by
    intro k env found
    have same := touchPeer_foreign n.node fromNode now
    exact sound.overlay k env (same ▸ found)
  refine ⟨overlay, sound.jobs, sound.sent, fun row mem env has => ?_⟩
  rcases List.mem_append.mp mem with old | new
  · exact sound.shown row old env has
  · obtain ⟨k, listed, rfl⟩ := List.mem_map.mp new
    obtain ⟨v, row⟩ := rows k listed
    exact harmless_of_visibleIndex view overlay row has

theorem Sound.step {l : NodeCall} (guarded : n.Guarded l)
    (step : n.step H l = some n') : n'.Sound := by
  cases l with
  | register dataset e saved =>
    cases step
    refine (sound.withRegistry _).spawn fun job mem => ?_
    split at mem
    · rename_i hooked
      rw [List.mem_singleton.mp mem]
      exact guarded hooked
    · cases mem
  | update dataset e saved =>
    dsimp only [RegistryNode.step] at step
    split at step
    · cases step
      refine (sound.withRegistry _).spawn fun job mem => ?_
      split at mem
      · rename_i hooked
        rw [List.mem_singleton.mp mem]
        exact guarded hooked
      · cases mem
    · cases step
  | deregister dataset serviceId saved =>
    dsimp only [RegistryNode.step] at step
    split at step
    · cases step
      refine (sound.withRegistry _).spawn fun job mem => ?_
      split at mem
      · rw [List.mem_singleton.mp mem]
        trivial
      · cases mem
    · cases step
  | registerBatch dataset entries persistent =>
    cases step
    exact sound.withRegistry _
  | setDatasets datasets authRequired =>
    cases step
    exact sound.withRegistry _
  | stamp i nowMs saved => exact sound.stampJob step
  | read i =>
    dsimp only [RegistryNode.step] at step
    split at step
    · cases step
      exact sound.readKey i _ _
    · cases step
  | lookup i =>
    dsimp only [RegistryNode.step] at step
    split at step
    · rename_i k version broadcasts at_i
      cases step
      exact sound.lookupKey i k version broadcasts fun e found =>
        guarded k version broadcasts e at_i found
    · cases step
  | broadcast i =>
    dsimp only [RegistryNode.step] at step
    split at step
    · rename_i env at_i
      cases step
      have harmless : env.isEphemeral = false := sound.jobs _ (List.mem_of_getElem? at_i)
      refine ⟨sound.overlay, (sound.setJob i .done trivial).jobs, fun e mem => ?_, sound.shown⟩
      rcases List.mem_append.mp mem with old | new
      · exact sound.sent e old
      · obtain ⟨call, called, payload⟩ := List.mem_flatMap.mp new
        obtain ⟨peer, -, rfl⟩ := List.mem_map.mp called
        rw [List.mem_singleton.mp payload]
        exact harmless
    · cases step
  | serveMerkle clocks fromNode namespaces token =>
    cases step
    refine sound.recording rfl ((n.node.touchPeer fromNode (clocks.monotonic 0)).allowedFor
      fromNode namespaces token) fun k listed => ?_
    obtain ⟨⟨k', v⟩, row, rfl⟩ := List.mem_map.mp listed
    exact ⟨v, row⟩
  | serveDigest clocks fromNode namespaces token buckets =>
    cases step
    refine sound.recording rfl ((n.node.touchPeer fromNode (clocks.monotonic 1)).allowedFor
      fromNode namespaces token) fun k listed => ?_
    obtain ⟨⟨k', v⟩, row, rfl⟩ := List.mem_map.mp listed
    exact ⟨v, List.mem_of_mem_filter (List.mem_mergeSort.mp row)⟩
  | servePull clocks fromNode keys token =>
    cases step
    refine (sound.withStore ?_).spawn fun job mem => ?_
    · rw [touchPeer_foreign]
      exact sound.overlay
    · obtain ⟨k, -, rfl⟩ := List.mem_map.mp mem
      trivial
  | serveUpdates clocks fromNode envs token =>
    cases step
    refine sound.withStore fun k env found => ?_
    rcases get?_serveUpdates found with was | mem
    · exact sound.overlay k env was
    · exact guarded env mem
  | index wall =>
    cases step
    exact sound.withStore sound.overlay
  | pulled now envs =>
    cases step
    refine sound.withStore fun k env found => ?_
    rcases get?_applyAll found with was | mem
    · exact sound.overlay k env was
    · exact guarded env mem
  | push keys =>
    cases step
    refine sound.spawn fun job mem => ?_
    obtain ⟨k, -, rfl⟩ := List.mem_map.mp mem
    trivial
  | act l =>
    cases step
    exact sound.withStore fun k env found => sound.overlay k env (get?_act found)

omit sound

end Steps

/-! ### Runs -/

/-- A node that has just started and knows no record of another node. -/
structure Fresh (n : RegistryNode) : Prop where
  overlay : n.store.foreign = .empty
  jobs : n.jobs = []
  sent : n.sent = []
  shown : n.shown = []

/-- No ephemeral entry has left the node, and none has been shown. -/
def Withheld (n : RegistryNode) : Prop :=
  (∀ env ∈ n.sent, env.isEphemeral = false) ∧
    ∀ row ∈ n.shown, ∀ env, row.2 = some env → env.isEphemeral = false

theorem Fresh.sound {n : RegistryNode} (fresh : n.Fresh) : n.Sound where
  overlay k env found := by
    rw [fresh.overlay] at found
    cases found
  jobs job mem := by
    rw [fresh.jobs] at mem
    cases mem
  sent env mem := by
    rw [fresh.sent] at mem
    cases mem
  shown row mem := by
    rw [fresh.shown] at mem
    cases mem

/-- In every run of guarded steps ephemeral entries stay where they are. -/
theorem ephemeral_stays {H : Sha256} {n n' : RegistryNode} {ls : List NodeCall} (fresh : n.Fresh)
    (run : Run (Under Guarded (Steps (step H))) n ls n') : n'.Withheld := by
  have sound : n'.Sound :=
    run.invariant_under (fun _ _ _ sound guarded step => Sound.step sound guarded step) fresh.sound
  exact ⟨sound.sent, sound.shown⟩

namespace TwoNodes

open Unaccepted (zeros)

theorem keyed_empty (dataset serviceId : String) (e : Registry.RegistryEntry AgentCard)
    (found : (⟨.empty⟩ : RegistryService AgentCard).getEntry dataset serviceId = some e) :
    e.serviceId = serviceId := by
  cases found

/-- `A` with a session with `B` for the dataset `ds`. -/
def home : RegistryNode where
  registry := ⟨⟨.empty⟩, ["ds"], fun _ => false, keyed_empty⟩
  store := (Revived.blankStore "A").openSession ⟨"B", "", ["ds"], 0, none⟩
  jobs := []
  sent := []
  shown := []

def entry (source : Source) : Registry.RegistryEntry AgentCard where
  serviceId := "x"
  type := .generic
  source := source
  ownerId := none
  leaseTtl := none

theorem home_fresh : home.Fresh := ⟨rfl, rfl, rfl, rfl⟩

def clocks : Clocks := ⟨fun _ => 9, fun _ => 0⟩

/-- An ephemeral service is registered, and the hook runs. -/
def registration : List NodeCall :=
  [.register "ds" (entry .ephemeral) true, .stamp 0 5 true, .broadcast 0]

/-- The hook broadcasts the entry. -/
theorem ephemeral_broadcast : ¬∀ (H : Sha256) (n n' : RegistryNode) (ls : List NodeCall),
    n.Fresh → Run (Steps (step H)) n ls n' → n'.Withheld := by
  intro withheld
  have run : Run (Steps (step zeros)) home registration _ := run_of_foldlM rfl
  have sent := (withheld zeros home _ registration home_fresh run).1
  exact absurd (sent _ (List.mem_singleton.mpr rfl)) (by decide)

/-- A batch makes a replicated service ephemeral, and `B` asks for its key. -/
def batch : List NodeCall :=
  [.register "ds" (entry .apiConfig) true, .stamp 0 5 true, .broadcast 0,
    .registerBatch "ds" [entry .apiConfig] false, .servePull clocks "B" [⟨"ds", "A", "x"⟩] none,
    .read 1, .lookup 1]

/-- A persistent service is registered, broadcast, shown in a digest and sent to `B`. -/
def replication : List NodeCall :=
  [.register "ds" (entry .apiConfig) true, .stamp 0 5 true, .broadcast 0,
    .serveDigest clocks "B" none none none, .servePull clocks "B" [⟨"ds", "A", "x"⟩] none,
    .read 1, .lookup 1]

theorem persistent_stays : ∃ n, Run (Under Guarded (Steps (step zeros))) home replication n ∧
    n.sent.length = 2 ∧ n.Withheld := by
  have persistent : (entry .apiConfig).source ≠ .ephemeral := by decide
  have run : Run (Under Guarded (Steps (step zeros))) home replication _ :=
    .cons ⟨fun _ => persistent, rfl⟩ <| .cons ⟨trivial, rfl⟩ <| .cons ⟨trivial, rfl⟩ <|
      .cons ⟨trivial, rfl⟩ <| .cons ⟨trivial, rfl⟩ <| .cons ⟨trivial, rfl⟩ <|
      .cons ⟨fun _ _ _ _ at_1 found => by
        cases at_1
        cases found
        exact persistent, rfl⟩ (.nil _)
  exact ⟨_, run, rfl, ephemeral_stays home_fresh run⟩

end TwoNodes

end RegistryNode

end AgentProtocols.Cluster
