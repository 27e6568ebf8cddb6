import AgentProtocols.Registry.RegistryClient

/-!
The endpoint of an agent that is blanked. The client takes it from a cache that only blanking,
replacing and deregistering write.

* `Session.resolveEndpoint_spec` — the endpoint that is found is that of the card at the registry.
* `Call.sound` — each call, under its condition, keeps the cache in agreement.
* `endpoint_survives` — in every run of such calls, what is posted has the endpoint of the card that
  it takes the place of.
-/

namespace AgentProtocols.Registry.RegistryClient

open Lib Function
open A4P (trim)

/-! ### A registry that keeps the last card posted -/

/-- What becomes of a request. -/
inductive Fate where
  | served
  | refused (error : ClientError)
  | lost (error : ClientError)
  /-- It is carried out, and the answer does not decode. -/
  | garbled (error : ClientError)
deriving DecidableEq, Repr

namespace Fate

/-- The registry carries the request out. -/
def reaches : Fate → Bool
  | refused _ => false
  | _ => true

/-- It does, and the client does not learn it. -/
def silent : Fate → Bool
  | lost _ | garbled _ => true
  | _ => false

theorem served_or_silent {fate : Fate} (reaches : fate.reaches = true) : fate = .served ∨ fate.silent = true := by
  cases fate with
  | served => exact .inl rfl
  | refused e => cases reaches
  | lost e | garbled e => exact .inr rfl

end Fate

/-- A card that was posted, and the one that the registry had. -/
structure Post where
  key : ServiceKey
  card : JsonDict
  held : Option JsonDict

/-- The cards of the registry, what becomes of the next requests, and what the present call posted. -/
structure CardStore where
  cards : ServiceKey → Option JsonDict
  fates : List Fate
  posts : List Post

/-- The top-level fields of an update take the place of those of the card. -/
def mergeFields (card fields : JsonDict) : JsonDict :=
  fields.foldr (fun field card => card.insert field.1 field.2) card

namespace CardStore

def fate (store : CardStore) : Fate := store.fates.headD .served

/-- The fate of a request is spent. -/
def spend (store : CardStore) : CardStore := { store with fates := store.fates.tail }

def setCard (store : CardStore) (key : ServiceKey) (card : Option JsonDict) : CardStore :=
  { store with cards := Function.update store.cards key card }

/-- The answer to a request that leaves `done` if it is carried out. -/
def answer {α : Type} (store done : CardStore) (value : α) : Answer α × CardStore :=
  match store.fate with
  | .served => (.ok value, done.spend)
  | .refused e => (.failed e, store.spend)
  | .lost e => (.failed e, done.spend)
  | .garbled e => (.undecodable e, done.spend)

/-- The answer to a request about a service that is not there. -/
def answerMissing {α : Type} (store : CardStore) : Answer α × CardStore :=
  match store.fate with
  | .served => (.failed (.notFound 404 "HTTP 404: service not found"), store.spend)
  | .refused e => (.failed e, store.spend)
  | .lost e => (.failed e, store.spend)
  | .garbled e => (.undecodable e, store.spend)

theorem cards_setCard (store : CardStore) (key : ServiceKey) (card : Option JsonDict) :
    (store.setCard key card).cards = Function.update store.cards key card := rfl

theorem cards_answer {α : Type} (store done : CardStore) (value : α) :
    (store.answer done value).2.cards = if store.fate.reaches then done.cards else store.cards := by
  rw [answer]
  cases store.fate <;> rfl

theorem cards_answerMissing {α : Type} (store : CardStore) :
    ((store.answerMissing : Answer α × CardStore)).2.cards = store.cards := by
  rw [answerMissing]
  cases store.fate <;> rfl

end CardStore

/-- The registry, with the id that it gives to a card without one. -/
def cardServer (serviceIdOf : String → JsonDict → String) : Server CardStore where
  registerAgent dataset body store :=
    let key : ServiceKey := (dataset, body.serviceId.getD (serviceIdOf dataset body.agentCard))
    let posted : CardStore := { store with posts := store.posts ++ [⟨key, body.agentCard, store.cards key⟩] }
    posted.answer (posted.setCard key (some body.agentCard)) ⟨key.2, body.leaseTtl⟩
  updateAgent dataset serviceId fields store :=
    match store.cards (dataset, serviceId) with
    | none => store.answerMissing
    | some card => store.answer (store.setCard (dataset, serviceId) (some (mergeFields card fields))) ()
  getAgent dataset serviceId store :=
    match store.cards (dataset, serviceId) with
    | none => store.answerMissing
    | some card => store.answer store card
  deregisterAgent dataset serviceId store :=
    match store.cards (dataset, serviceId) with
    | none => store.answerMissing
    | some _ => store.answer (store.setCard (dataset, serviceId) none) ()
  deleteDataset name store :=
    store.answer { store with cards := fun key => if key.1 = name then none else store.cards key } ()
  heartbeat _ _ _ store := store.answer store .null
  revokeLease _ _ store := store.answer store ()
  releaseMyLease _ _ store := store.answer store true
  elapsed store := (none, store)

/-! ### Endpoints of cards -/

variable {endpoint : String}

theorem extractEndpoint_eq_some {card : JsonDict} (found : extractEndpoint card = some endpoint) :
    (trim endpoint).isEmpty = false := by
  rw [extractEndpoint] at found
  split at found
  · split at found
    · cases found
    · rename_i notBlank
      cases found
      exact Bool.not_eq_true _ ▸ notBlank
  · cases found

theorem extractEndpoint_congr {card other : JsonDict} (same : card.get endpointField = other.get endpointField) :
    extractEndpoint card = extractEndpoint other := by
  rw [extractEndpoint, same, extractEndpoint]

theorem extractEndpoint_insert (notBlank : (trim endpoint).isEmpty = false) (card : JsonDict) :
    extractEndpoint (card.insert endpointField (.str endpoint)) = some endpoint := by
  rw [extractEndpoint, JsonDict.get_insert_self]
  exact if_neg (Bool.not_eq_true _ ▸ notBlank)

theorem get_mergeFields (card fields : JsonDict) (key : String) :
    (mergeFields card fields).get key = (fields.get key).or (card.get key) := by
  induction fields with
  | nil => rfl
  | cons field rest ih =>
    rw [mergeFields, List.foldr_cons, ← mergeFields]
    by_cases here : key = field.1
    · subst here
      have first : JsonDict.get (field :: rest) field.1 = some field.2 := by
        rw [JsonDict.get, List.lookup_cons, beq_self_eq_true]
      rw [JsonDict.get_insert_self, first, Option.some_or]
    · rw [JsonDict.get_insert_of_ne _ here, ih]
      have skip : JsonDict.get (field :: rest) key = JsonDict.get rest key := by
        rw [JsonDict.get, List.lookup_cons, beq_eq_false_iff_ne.mpr here]
        rfl
      rw [skip]

theorem extractEndpoint_mergeFields (card fields : JsonDict) :
    extractEndpoint (mergeFields card fields) =
      if fields.containsKey endpointField then extractEndpoint fields else extractEndpoint card := by
  have merged := get_mergeFields card fields endpointField
  rw [JsonDict.containsKey]
  cases updated : fields.get endpointField with
  | none =>
    rw [updated] at merged
    exact extractEndpoint_congr merged
  | some value =>
    rw [updated] at merged
    exact extractEndpoint_congr (merged.trans updated.symm)

theorem extractEndpoint_blank {card : JsonDict} (built : buildBlankAgentCard endpoint = .ok card) :
    extractEndpoint card = some endpoint := by
  rw [buildBlankAgentCard] at built
  split at built
  · cases built
  · rename_i notBlank
    cases built
    exact if_neg notBlank

/-! ### The cache and the cards -/

structure Sound (dataset : String) (client : Client) (cards : ServiceKey → Option JsonDict) : Prop where
  agrees : ∀ id endpoint card, client.blankEndpoints (dataset, id) = some endpoint →
    cards (dataset, id) = some card → extractEndpoint card = some endpoint
  notBlank : ∀ key endpoint, client.blankEndpoints key = some endpoint → (trim endpoint).isEmpty = false

section Sound

variable {dataset : String} {client client' : Client} {cards cards' : ServiceKey → Option JsonDict}

variable (sound : Sound dataset client cards)

include sound

/-- Forgetting endpoints and removing cards is always sound. -/
theorem Sound.mono
    (cached : ∀ key endpoint, client'.blankEndpoints key = some endpoint → client.blankEndpoints key = some endpoint)
    (held : ∀ id card, cards' (dataset, id) = some card → cards (dataset, id) = some card) :
    Sound dataset client' cards' where
  agrees id endpoint card found stored := sound.agrees id endpoint card (cached _ _ found) (held _ _ stored)
  notBlank key endpoint found := sound.notBlank key endpoint (cached _ _ found)

/-- A card may be stored that has the endpoint cached for it. -/
theorem Sound.store {key : ServiceKey} {card : JsonDict}
    (same : key.1 = dataset → ∀ endpoint, client.blankEndpoints key = some endpoint →
      extractEndpoint card = some endpoint) :
    Sound dataset client (Function.update cards key (some card)) where
  agrees id endpoint other found stored := by
    by_cases here : (dataset, id) = key
    · rw [here, update_self] at stored
      cases stored
      exact same (by rw [← here]) endpoint (here ▸ found)
    · rw [update_of_ne here] at stored
      exact sound.agrees id endpoint other found stored
  notBlank := sound.notBlank

/-- The endpoint of the card that was just stored may be cached. -/
theorem Sound.cache {ds id endpoint : String} {card : JsonDict}
    (stored : extractEndpoint card = some endpoint) :
    Sound dataset (client.cacheEndpoint ds id endpoint) (Function.update cards (ds, id) (some card)) where
  agrees other old card' found held := by
    rw [Client.blankEndpoints_cacheEndpoint] at found
    by_cases here : (dataset, other) = (ds, id)
    · rw [here, update_self] at found held
      cases found
      cases held
      exact stored
    · rw [update_of_ne here] at found held
      exact sound.agrees other old card' found held
  notBlank key old found := by
    rw [Client.blankEndpoints_cacheEndpoint] at found
    by_cases here : key = (ds, id)
    · rw [here, update_self] at found
      cases found
      exact extractEndpoint_eq_some stored
    · rw [update_of_ne here] at found
      exact sound.notBlank key old found

omit sound

theorem cached_of_forgetEndpoint {ds id endpoint : String} {key : ServiceKey}
    (found : (client.forgetEndpoint ds id).blankEndpoints key = some endpoint) :
    client.blankEndpoints key = some endpoint := by
  rw [Client.blankEndpoints_forgetEndpoint] at found
  by_cases here : key = (ds, id)
  · rw [here, update_self] at found
    cases found
  · rw [update_of_ne here] at found
    exact found

end Sound

/-! ### The calls -/

variable {serviceIdOf : String → JsonDict → String}

theorem registerAgent_cardServer (dataset : String) (body : RegisterBody) (store : CardStore) :
    let key : ServiceKey := (dataset, body.serviceId.getD (serviceIdOf dataset body.agentCard))
    let posted : CardStore := { store with posts := store.posts ++ [⟨key, body.agentCard, store.cards key⟩] }
    let stored : CardStore := posted.setCard key (some body.agentCard)
    (cardServer serviceIdOf).registerAgent dataset body store =
      match store.fate with
      | .served => (.ok ⟨key.2, body.leaseTtl⟩, stored.spend)
      | .refused e => (.failed e, posted.spend)
      | .lost e => (.failed e, stored.spend)
      | .garbled e => (.undecodable e, stored.spend) := rfl

/-- Asking for a card changes none, and an answer is the card. -/
theorem getAgent_cardServer {dataset serviceId : String} {store store' : CardStore} {answer : Answer JsonDict}
    (asked : (cardServer serviceIdOf).getAgent dataset serviceId store = (answer, store')) :
    store'.cards = store.cards ∧ store'.posts = store.posts ∧
      ∀ metadata, answer = .ok metadata → store.cards (dataset, serviceId) = some metadata := by
  simp only [cardServer] at asked
  split at asked
  · rw [CardStore.answerMissing] at asked
    cases fate : store.fate <;> (rw [fate] at asked; cases asked; exact ⟨rfl, rfl, nofun⟩)
  · rename_i card held
    rw [CardStore.answer] at asked
    cases fate : store.fate with
    | served =>
      rw [fate] at asked
      cases asked
      refine ⟨rfl, rfl, fun _ same => ?_⟩
      cases same
      exact held
    | refused e | lost e | garbled e =>
      rw [fate] at asked
      cases asked
      exact ⟨rfl, rfl, nofun⟩

namespace Session

variable {s : Session CardStore} {d dataset serviceId : String}

theorem world_releaseMyLease {outcome : Except ClientError Bool} {t : Session CardStore}
    (released : s.releaseMyLease (cardServer serviceIdOf) dataset serviceId = (outcome, t)) :
    t.world.cards = s.world.cards ∧ t.world.posts = s.world.posts := by
  have kept : (s.releaseMyLease (cardServer serviceIdOf) dataset serviceId).2.world.cards = s.world.cards ∧
      (s.releaseMyLease (cardServer serviceIdOf) dataset serviceId).2.world.posts = s.world.posts := by
    rw [releaseMyLease]
    split
    · exact ⟨rfl, rfl⟩
    · simp only [cardServer, CardStore.answer]
      cases s.world.fate <;> exact ⟨rfl, rfl⟩
  rw [released] at kept
  exact kept

/-- The endpoint that is found is the cached one, and that of the card at the registry. -/
theorem resolveEndpoint_spec {endpoint : String} {t : Session CardStore} (sound : Sound d s.client s.world.cards)
    (resolved : s.resolveEndpoint (cardServer serviceIdOf) dataset serviceId = (.ok endpoint, t)) :
    (dataset = d →
        ∀ card, s.world.cards (dataset, serviceId) = some card → extractEndpoint card = some endpoint) ∧
      (∀ old, s.client.blankEndpoints (dataset, serviceId) = some old → old = endpoint) ∧
      (trim endpoint).isEmpty = false := by
  rw [resolveEndpoint] at resolved
  split at resolved
  · rename_i cached found
    cases resolved
    obtain ⟨found, -⟩ := Option.filter_eq_some_iff.mp found
    refine ⟨?_, fun old same => ?_, sound.notBlank _ _ found⟩
    · rintro rfl card held
      exact sound.agrees _ _ _ found held
    rw [found] at same
    exact (Option.some.inj same).symm
  · rename_i none_
    have empty : s.client.blankEndpoints (dataset, serviceId) = none := by
      cases found : s.client.blankEndpoints (dataset, serviceId) with
      | none => rfl
      | some old =>
        have notBlank := sound.notBlank _ _ found
        rw [found, Option.filter_eq_none_iff] at none_
        have blank : old = "" := by simpa using none_ old rfl
        rw [blank] at notBlank
        cases notBlank
    split at resolved
    · cases resolved
    · cases resolved
    · rename_i metadata w asked
      split at resolved
      · rename_i found
        cases resolved
        have held := (getAgent_cardServer asked).2.2 metadata rfl
        refine ⟨fun _ card same => ?_, fun old cached => ?_, extractEndpoint_eq_some found⟩
        · rw [held] at same
          cases same
          exact found
        · rw [empty] at cached
          cases cached
      · cases resolved

theorem world_resolveEndpoint {outcome : Except ClientError String} {t : Session CardStore}
    (resolved : s.resolveEndpoint (cardServer serviceIdOf) dataset serviceId = (outcome, t)) :
    t.world.cards = s.world.cards ∧ t.world.posts = s.world.posts := by
  rw [resolveEndpoint] at resolved
  split at resolved
  · cases resolved
    exact ⟨rfl, rfl⟩
  · split at resolved
    · rename_i asked
      cases resolved
      exact ⟨(getAgent_cardServer asked).1, (getAgent_cardServer asked).2.1⟩
    · rename_i asked
      cases resolved
      exact ⟨(getAgent_cardServer asked).1, (getAgent_cardServer asked).2.1⟩
    · rename_i asked
      split at resolved <;>
        (cases resolved; exact ⟨(getAgent_cardServer asked).1, (getAgent_cardServer asked).2.1⟩)

theorem sound_postCard {card : JsonDict} {endpoint : String} {releaseLease : Bool}
    (sound : Sound d s.client s.world.cards) (has : extractEndpoint card = some endpoint)
    (heard : s.world.fate.silent = true → dataset = d →
      ∀ old, s.client.blankEndpoints (dataset, serviceId) = some old → old = endpoint) :
    Sound d (s.postCard (cardServer serviceIdOf) dataset serviceId card endpoint releaseLease).2.client
        (s.postCard (cardServer serviceIdOf) dataset serviceId card endpoint releaseLease).2.world.cards ∧
      (s.postCard (cardServer serviceIdOf) dataset serviceId card endpoint releaseLease).2.world.posts =
        s.world.posts ++ [⟨(dataset, serviceId), card, s.world.cards (dataset, serviceId)⟩] := by
  have same : s.world.fate.silent = true → dataset = d →
      ∀ old, s.client.blankEndpoints (dataset, serviceId) = some old → extractEndpoint card = some old := by
    intro silent here old cached
    rw [heard silent here old cached]
    exact has
  have forgotten : ∀ cards, Sound d s.client cards →
      Sound d ((s.client.ownedRemove dataset serviceId).forgetEndpoint dataset serviceId) cards :=
    fun cards sound => sound.mono (fun _ _ found => cached_of_forgetEndpoint found) fun _ _ held => held
  rw [postCard, registerAgent_cardServer]
  cases fate : s.world.fate with
  | served =>
    dsimp only
    have cached : Sound d ((s.client.ownedAdd dataset serviceId).cacheEndpoint dataset serviceId endpoint)
        (Function.update s.world.cards (dataset, serviceId) (some card)) := by
      have added : Sound d (s.client.ownedAdd dataset serviceId) s.world.cards :=
        sound.mono (fun _ _ found => found) fun _ _ held => held
      exact added.cache has
    split
    · split
      · rename_i released
        obtain ⟨cards, posts⟩ := world_releaseMyLease released
        rw [client_releaseMyLease released, cards, posts]
        exact ⟨cached, rfl⟩
      · rename_i released
        obtain ⟨cards, posts⟩ := world_releaseMyLease released
        split
        · rw [client_releaseMyLease released, cards, posts]
          exact ⟨cached, rfl⟩
        · rw [client_releaseMyLease released, cards, posts]
          exact ⟨cached, rfl⟩
    · exact ⟨cached, rfl⟩
  | refused e =>
    dsimp only
    split
    · exact ⟨forgotten _ sound, rfl⟩
    · exact ⟨sound, rfl⟩
  | lost e =>
    have stored : Sound d s.client (Function.update s.world.cards (dataset, serviceId) (some card)) :=
      sound.store (same (by rw [fate]; rfl))
    dsimp only
    split
    · exact ⟨forgotten _ stored, rfl⟩
    · exact ⟨stored, rfl⟩
  | garbled e => exact ⟨sound.store (same (by rw [fate]; rfl)), rfl⟩

theorem fillEndpoint_spec {agentCard card : JsonDict} {endpoint : String} {t : Session CardStore}
    (sound : Sound d s.client s.world.cards)
    (filled : s.fillEndpoint (cardServer serviceIdOf) dataset serviceId agentCard = (.ok (card, endpoint), t)) :
    extractEndpoint card = some endpoint ∧ t.world.cards = s.world.cards ∧ t.world.posts = s.world.posts ∧
      ((extractEndpoint agentCard = some endpoint ∧ t = s) ∨ (dataset = d →
          ∀ old, s.world.cards (dataset, serviceId) = some old → extractEndpoint old = some endpoint) ∧
        ∀ old, s.client.blankEndpoints (dataset, serviceId) = some old → old = endpoint) := by
  rw [fillEndpoint] at filled
  split at filled
  · rename_i own
    cases filled
    exact ⟨own, rfl, rfl, .inl ⟨own, rfl⟩⟩
  · split at filled
    · cases filled
    · rename_i resolved
      cases filled
      obtain ⟨held, cached, notBlank⟩ := resolveEndpoint_spec sound resolved
      obtain ⟨cards, posts⟩ := world_resolveEndpoint resolved
      exact ⟨extractEndpoint_insert notBlank agentCard, cards, posts, .inr ⟨held, cached⟩⟩

theorem world_fillEndpoint {agentCard : JsonDict} {e : ClientError} {t : Session CardStore}
    (failed : s.fillEndpoint (cardServer serviceIdOf) dataset serviceId agentCard = (.error e, t)) :
    t.world.cards = s.world.cards ∧ t.world.posts = s.world.posts := by
  rw [fillEndpoint] at failed
  split at failed
  · cases failed
  · split at failed
    · rename_i resolved
      cases failed
      exact world_resolveEndpoint resolved
    · cases failed

/-- The endpoint of each card that is posted is that of the card it takes the place of. -/
def Keeps (posts : List Post) : Prop :=
  ∀ post ∈ posts, ∀ old, post.held = some old → extractEndpoint post.card = extractEndpoint old

theorem replaceAgentCard_spec {agentCard : JsonDict} {releaseLease : Bool} (sound : Sound d s.client s.world.cards)
    (heard : s.world.fate.silent = true → dataset = d → ∀ endpoint, extractEndpoint agentCard = some endpoint →
      ∀ old, s.client.blankEndpoints (dataset, serviceId) = some old → old = endpoint) :
    let t := (s.replaceAgentCard (cardServer serviceIdOf) dataset serviceId agentCard releaseLease).2
    Sound d t.client t.world.cards ∧
      (dataset = d → (∀ endpoint, extractEndpoint agentCard = some endpoint →
          ∀ old, s.world.cards (dataset, serviceId) = some old → extractEndpoint old = some endpoint) →
        Keeps s.world.posts → Keeps t.world.posts) := by
  rw [replaceAgentCard]
  split
  · exact ⟨sound, fun _ _ keeps => keeps⟩
  · split
    · rename_i failed
      obtain ⟨cards, posts⟩ := world_fillEndpoint failed
      dsimp only
      rw [client_fillEndpoint failed, cards, posts]
      exact ⟨sound, fun _ _ keeps => keeps⟩
    · rename_i card endpoint t filled
      obtain ⟨has, cards, posts, source⟩ := fillEndpoint_spec sound filled
      have client := client_fillEndpoint filled
      have sound' : Sound d t.client t.world.cards := by
        rw [client, cards]
        exact sound
      have heard' : t.world.fate.silent = true → dataset = d →
          ∀ old, t.client.blankEndpoints (dataset, serviceId) = some old → old = endpoint := by
        intro silent here old cached
        rw [client] at cached
        rcases source with ⟨own, rfl⟩ | ⟨-, same⟩
        · exact heard silent here endpoint own old cached
        · exact same old cached
      have posted := @sound_postCard serviceIdOf t d dataset serviceId card endpoint releaseLease sound' has heard'
      refine ⟨posted.1, fun here own keeps => ?_⟩
      rw [posted.2, posts, cards]
      intro post mem old held
      rcases List.mem_append.mp mem with mem | mem
      · exact keeps post mem old held
      · cases List.mem_singleton.mp mem
        rw [has]
        rcases source with ⟨own', -⟩ | ⟨same, -⟩
        · exact (own endpoint own' old held).symm
        · exact (same here old held).symm

theorem restoreToBlank_spec (sound : Sound d s.client s.world.cards) :
    let t := (s.restoreToBlank (cardServer serviceIdOf) dataset serviceId).2
    Sound d t.client t.world.cards ∧ (dataset = d → Keeps s.world.posts → Keeps t.world.posts) := by
  rw [restoreToBlank]
  split
  · exact ⟨sound, fun _ keeps => keeps⟩
  · split
    · rename_i failed
      obtain ⟨cards, posts⟩ := world_resolveEndpoint failed
      dsimp only
      rw [client_resolveEndpoint failed, cards, posts]
      exact ⟨sound, fun _ keeps => keeps⟩
    · rename_i endpoint t resolved
      obtain ⟨held, cached, -⟩ := resolveEndpoint_spec sound resolved
      obtain ⟨cards, posts⟩ := world_resolveEndpoint resolved
      have client := client_resolveEndpoint resolved
      have sound' : Sound d t.client t.world.cards := by
        rw [client, cards]
        exact sound
      split
      · exact ⟨sound', fun _ keeps => posts ▸ keeps⟩
      · rename_i card built
        have own := extractEndpoint_blank built
        have replaced := @replaceAgentCard_spec serviceIdOf t d dataset serviceId card true sound' (by
          intro _ _ endpoint' own' old found
          rw [own] at own'
          cases own'
          rw [client] at found
          exact cached old found)
        refine ⟨replaced.1, fun here keeps => replaced.2 here ?_ (posts ▸ keeps)⟩
        intro endpoint' own' old found
        rw [own] at own'
        cases own'
        rw [cards] at found
        exact held here old found

/-- A registration leaves the cache as it is. -/
theorem registerAgent_spec {agentCard : JsonDict} {opts : RegisterOptions} {t : Session CardStore}
    {outcome : Except ClientError RegisterResponse}
    (registered : s.registerAgent (cardServer serviceIdOf) dataset agentCard opts = (outcome, t)) :
    let key : ServiceKey := (dataset, opts.serviceId.getD (serviceIdOf dataset agentCard))
    t.client.blankEndpoints = s.client.blankEndpoints ∧
      t.world.cards = (if s.world.fate.reaches then Function.update s.world.cards key (some agentCard)
        else s.world.cards) ∧
      (∀ result, outcome = .ok result → s.world.fate = .served ∧ result.serviceId = key.2) ∧
      (s.world.fate = .served → opts.autoRenew = false → ∃ result, outcome = .ok result) := by
  rw [registerAgent, registerAgent_cardServer] at registered
  cases fate : s.world.fate with
  | served =>
    rw [fate] at registered
    dsimp only at registered
    have kept : ∀ id : String, (if opts.persistent then s.client.ownedAdd dataset id else s.client).blankEndpoints =
        s.client.blankEndpoints := by
      intro id
      split <;> rfl
    split at registered
    · rename_i renews
      split at registered
      · cases registered
        exact ⟨kept _, rfl, fun result same => by cases same; exact ⟨rfl, rfl⟩, fun _ _ => ⟨_, rfl⟩⟩
      · split at registered
        · cases registered
          refine ⟨kept _, rfl, nofun, fun _ quiet => ?_⟩
          rw [renews] at quiet
          cases quiet
        · rename_i installed
          cases registered
          rw [Client.installRenewer] at installed
          split at installed
          · cases installed
          · cases installed
            exact ⟨kept _, rfl, fun result same => by cases same; exact ⟨rfl, rfl⟩, fun _ _ => ⟨_, rfl⟩⟩
    · cases registered
      exact ⟨kept _, rfl, fun result same => by cases same; exact ⟨rfl, rfl⟩, fun _ _ => ⟨_, rfl⟩⟩
  | refused e | lost e | garbled e =>
    rw [fate] at registered
    cases registered
    exact ⟨rfl, rfl, nofun, nofun⟩

theorem sound_registerAgent {agentCard : JsonDict} {opts : RegisterOptions} {t : Session CardStore}
    {outcome : Except ClientError RegisterResponse} (sound : Sound d s.client s.world.cards)
    (same : s.world.fate.reaches = true → dataset = d → ∀ endpoint,
      s.client.blankEndpoints (dataset, opts.serviceId.getD (serviceIdOf dataset agentCard)) = some endpoint →
        extractEndpoint agentCard = some endpoint)
    (registered : s.registerAgent (cardServer serviceIdOf) dataset agentCard opts = (outcome, t)) :
    Sound d t.client t.world.cards := by
  obtain ⟨cache, cards, -⟩ := registerAgent_spec registered
  have before : Sound d t.client s.world.cards :=
    sound.mono (fun key endpoint found => cache ▸ found) fun _ _ held => held
  rw [cards]
  split
  · rename_i reaches
    refine before.store fun here endpoint found => same reaches here endpoint ?_
    rw [← cache]
    exact found
  · exact before

theorem sound_registerBlankAgent {endpoint : String} {serviceId : Option String} {persistent : Bool}
    (sound : Sound d s.client s.world.cards)
    (heard : s.world.fate.silent = true → dataset = d → ∀ card, buildBlankAgentCard endpoint = .ok card → ∀ old,
      s.client.blankEndpoints (dataset, serviceId.getD (serviceIdOf dataset card)) = some old → old = endpoint) :
    Sound d (s.registerBlankAgent (cardServer serviceIdOf) dataset endpoint serviceId persistent).2.client
      (s.registerBlankAgent (cardServer serviceIdOf) dataset endpoint serviceId persistent).2.world.cards := by
  rw [registerBlankAgent]
  split
  · exact sound
  · rename_i card built
    have own := extractEndpoint_blank built
    split
    · rename_i e t registered
      refine sound_registerAgent sound (fun reaches here old cached => ?_) registered
      rcases Fate.served_or_silent reaches with served | silent
      · obtain ⟨result, same⟩ := (registerAgent_spec registered).2.2.2 served rfl
        cases same
      · rw [heard silent here card built old cached]
        exact own
    · rename_i result t registered
      obtain ⟨cache, cards, answered, -⟩ := registerAgent_spec registered
      obtain ⟨served, id⟩ := answered result rfl
      have before : Sound d t.client s.world.cards :=
        sound.mono (fun key endpoint found => cache ▸ found) fun _ _ held => held
      rw [served] at cards
      rw [id, cards]
      exact before.cache own

theorem sound_updateAgent {fields : JsonDict} (sound : Sound d s.client s.world.cards)
    (same : s.world.fate.reaches = true → dataset = d → fields.containsKey endpointField = true → ∀ endpoint,
      s.client.blankEndpoints (dataset, serviceId) = some endpoint → extractEndpoint fields = some endpoint) :
    Sound d (s.updateAgent (cardServer serviceIdOf) dataset serviceId fields).2.client
      (s.updateAgent (cardServer serviceIdOf) dataset serviceId fields).2.world.cards := by
  have updated : Sound d s.client ((cardServer serviceIdOf).updateAgent dataset serviceId fields s.world).2.cards := by
    simp only [cardServer]
    split
    · rw [CardStore.cards_answerMissing]
      exact sound
    · rename_i card held
      rw [CardStore.cards_answer]
      split
      · rename_i reaches
        refine sound.store fun here endpoint cached => ?_
        rw [extractEndpoint_mergeFields]
        split
        · exact same reaches here ‹_› endpoint cached
        · obtain rfl : dataset = d := here
          exact sound.agrees _ _ _ cached held
      · exact sound
  rw [updateAgent]
  split
  · exact sound
  · split
    · rename_i answer
      rw [answer] at updated
      split
      · exact updated.mono (fun _ _ found => found) fun _ _ held => held
      · exact updated
    · rename_i answer
      rw [answer] at updated
      exact updated
    · rename_i answer
      rw [answer] at updated
      exact updated

theorem sound_setStatus {status : String} (sound : Sound d s.client s.world.cards) :
    Sound d (s.setStatus (cardServer serviceIdOf) dataset serviceId status).2.client
      (s.setStatus (cardServer serviceIdOf) dataset serviceId status).2.world.cards := by
  rw [setStatus]
  split
  · exact sound
  · rename_i body built
    refine sound_updateAgent sound fun _ _ contains => ?_
    rw [buildStatusBody] at built
    split at built
    · cases built
      cases contains
    · cases built

theorem sound_deregisterAgent (sound : Sound d s.client s.world.cards) :
    Sound d (s.deregisterAgent (cardServer serviceIdOf) dataset serviceId).2.client
      (s.deregisterAgent (cardServer serviceIdOf) dataset serviceId).2.world.cards := by
  have removed : Sound d s.client ((cardServer serviceIdOf).deregisterAgent dataset serviceId s.world).2.cards := by
    simp only [cardServer]
    split
    · rw [CardStore.cards_answerMissing]
      exact sound
    · rw [CardStore.cards_answer]
      split
      · refine sound.mono (fun _ _ found => found) fun id card held => ?_
        rw [CardStore.cards_setCard] at held
        by_cases here : (d, id) = (dataset, serviceId)
        · rw [here, update_self] at held
          cases held
        · rw [update_of_ne here] at held
          exact held
      · exact sound
  have forgotten : ∀ cards, Sound d s.client cards →
      Sound d ((s.client.ownedRemove dataset serviceId).forgetEndpoint dataset serviceId) cards :=
    fun cards sound => sound.mono (fun _ _ found => cached_of_forgetEndpoint found) fun _ _ held => held
  rw [deregisterAgent]
  split
  · exact sound
  · split
    · rename_i answer
      rw [answer] at removed
      split
      · exact forgotten _ removed
      · exact removed
    · rename_i answer
      rw [answer] at removed
      exact removed
    · rename_i answer
      rw [answer] at removed
      exact forgotten _ removed

theorem sound_deleteDataset {name : String} (sound : Sound d s.client s.world.cards) :
    Sound d (s.deleteDataset (cardServer serviceIdOf) name).2.client
      (s.deleteDataset (cardServer serviceIdOf) name).2.world.cards := by
  have removed : Sound d s.client ((cardServer serviceIdOf).deleteDataset name s.world).2.cards := by
    simp only [cardServer]
    rw [CardStore.cards_answer]
    split
    · refine sound.mono (fun _ _ found => found) fun id card held => ?_
      dsimp only at held
      split at held
      · cases held
      · exact held
    · exact sound
  rw [deleteDataset]
  split
  · rename_i answer
    rw [answer] at removed
    split
    · exact removed.mono (fun _ _ found => found) fun _ _ held => held
    · exact removed
  · rename_i answer
    rw [answer] at removed
    exact removed
  · rename_i answer
    rw [answer] at removed
    exact removed.mono (fun _ _ found => found) fun _ _ held => held

theorem sound_shutdownOne {permanent : Bool} {target : ServiceKey} (sound : Sound d s.client s.world.cards) :
    Sound d (s.shutdownOne (cardServer serviceIdOf) permanent target).2.client
      (s.shutdownOne (cardServer serviceIdOf) permanent target).2.world.cards := by
  have called : s.shutdownOne (cardServer serviceIdOf) permanent target =
      s.shutdownCall (cardServer serviceIdOf) permanent target := rfl
  rw [called, shutdownCall]
  split
  · exact sound_deregisterAgent sound
  · have kept : ((cardServer serviceIdOf).revokeLease target.1 target.2 s.world).2.cards = s.world.cards := by
      simp only [cardServer]
      rw [CardStore.cards_answer]
      split <;> rfl
    split
    · rename_i answer
      rw [answer] at kept
      exact kept ▸ sound
    · rename_i answer
      rw [answer] at kept
      exact kept ▸ sound
    · rename_i answer
      rw [answer] at kept
      exact kept ▸ sound

theorem sound_shutdownLoop {opts : ShutdownOptions} {targets : List ServiceKey} {report : ShutdownReport}
    (sound : Sound d s.client s.world.cards) :
    Sound d (s.shutdownLoop (cardServer serviceIdOf) opts targets report).2.client
      (s.shutdownLoop (cardServer serviceIdOf) opts targets report).2.world.cards := by
  induction targets generalizing s report with
  | nil => exact sound
  | cons target rest ih =>
    have after : Sound d (s.shutdownOne (cardServer serviceIdOf) opts.permanent target).2.client
        (s.shutdownOne (cardServer serviceIdOf) opts.permanent target).2.world.cards := sound_shutdownOne sound
    rw [shutdownLoop]
    split
    · rename_i called
      rw [called] at after
      exact ih after
    · rename_i called
      rw [called] at after
      split
      · exact after
      · exact ih after

theorem sound_shutdown {opts : ShutdownOptions} (sound : Sound d s.client s.world.cards) :
    Sound d (s.shutdown (cardServer serviceIdOf) opts).2.client
      (s.shutdown (cardServer serviceIdOf) opts).2.world.cards := by
  have kept : ∀ (targets : List ServiceKey) (client : Client),
      (targets.foldl (fun client target => client.removeRenewer target.1 target.2) client).blankEndpoints =
        client.blankEndpoints := by
    intro targets
    induction targets with
    | nil => exact fun _ => rfl
    | cons target rest ih => exact fun client => ih _
  refine sound_shutdownLoop (s := ⟨_, s.world⟩) (sound.mono (fun key endpoint found => ?_) fun _ _ held => held)
  rw [← kept (shutdownTargets opts s.client) s.client]
  exact found

end Session

/-! ### Runs -/

variable (serviceIdOf)

/-- A call of the client with what becomes of its requests, or a change elsewhere in the registry. -/
inductive Event where
  | call (made : Call) (fates : List Fate)
  | elsewhere (key : ServiceKey) (card : Option JsonDict)

/-- A call starts with an empty list of posts. -/
def Session.begin (s : Session CardStore) (fates : List Fate) : Session CardStore :=
  ⟨s.client, ⟨s.world.cards, fates, []⟩⟩

def Event.run (s : Session CardStore) : Event → Session CardStore
  | .call made fates => made.run (cardServer serviceIdOf) (s.begin fates)
  | .elsewhere key card => ⟨s.client, s.world.setCard key card⟩

def Evolves (s : Session CardStore) (event : Event) (t : Session CardStore) : Prop :=
  event.run serviceIdOf s = t

/-- What a call stores has the endpoint that is cached, unless the client caches the new one. -/
def Event.Careful (d : String) (s : Session CardStore) : Event → Prop
  | .elsewhere key _ => key.1 ≠ d
  | .call (.registerAgent dataset agentCard opts) fates =>
    (s.begin fates).world.fate.reaches = true → dataset = d → ∀ endpoint,
      s.client.blankEndpoints (dataset, opts.serviceId.getD (serviceIdOf dataset agentCard)) = some endpoint →
        extractEndpoint agentCard = some endpoint
  | .call (.registerBlankAgent dataset endpoint serviceId _) fates =>
    (s.begin fates).world.fate.silent = true → dataset = d → ∀ card, buildBlankAgentCard endpoint = .ok card →
      ∀ old, s.client.blankEndpoints (dataset, serviceId.getD (serviceIdOf dataset card)) = some old →
        old = endpoint
  | .call (.updateAgent dataset serviceId fields) fates =>
    (s.begin fates).world.fate.reaches = true → dataset = d → fields.containsKey endpointField = true →
      ∀ endpoint, s.client.blankEndpoints (dataset, serviceId) = some endpoint →
        extractEndpoint fields = some endpoint
  | .call (.replaceAgentCard dataset serviceId agentCard _) fates =>
    (s.begin fates).world.fate.silent = true → dataset = d → ∀ endpoint,
      extractEndpoint agentCard = some endpoint → ∀ old,
        s.client.blankEndpoints (dataset, serviceId) = some old → old = endpoint
  | .call _ _ => True

/-- A careful event keeps the cache and the cards in agreement. -/
theorem Event.sound {d : String} {s : Session CardStore} (sound : Sound d s.client s.world.cards) (event : Event)
    (careful : event.Careful serviceIdOf d s) :
    Sound d (event.run serviceIdOf s).client (event.run serviceIdOf s).world.cards := by
  cases event with
  | elsewhere key card =>
    refine sound.mono (fun _ _ found => found) fun id other held => ?_
    have other_ : (d, id) ≠ key := by
      rintro rfl
      exact careful rfl
    exact (update_of_ne other_ _ _).symm.trans held
  | call made fates =>
    have start : Sound d (s.begin fates).client (s.begin fates).world.cards := sound
    rw [Event.run]
    cases made with
    | registerAgent dataset agentCard opts =>
      rcases registered : (s.begin fates).registerAgent (cardServer serviceIdOf) dataset agentCard opts
        with ⟨outcome, t⟩
      rw [Call.run, registered]
      exact Session.sound_registerAgent start careful registered
    | registerBlankAgent dataset endpoint serviceId persistent =>
      rw [Call.run]
      exact Session.sound_registerBlankAgent start careful
    | updateAgent dataset serviceId fields => exact Session.sound_updateAgent start careful
    | setStatus dataset serviceId status => exact Session.sound_setStatus start
    | deregisterAgent dataset serviceId => exact Session.sound_deregisterAgent start
    | deleteDataset name => exact Session.sound_deleteDataset start
    | replaceAgentCard dataset serviceId agentCard releaseLease =>
      exact (Session.replaceAgentCard_spec start careful).1
    | restoreToBlank dataset serviceId => exact (Session.restoreToBlank_spec start).1
    | shutdown opts => exact Session.sound_shutdown start
    | close => exact start.mono (fun _ _ found => found) fun _ _ held => held

/-- In every run of careful events what is posted has the endpoint of the registry's card. -/
theorem endpoint_survives {d : String} {file : Document} {baseUrl : String} {store : CardStore}
    {events : List Event} {s : Session CardStore}
    (run : Run (Under (fun s event => event.Careful serviceIdOf d s) (Evolves serviceIdOf))
      ⟨Client.new file baseUrl, store⟩ events s) :
    (∀ serviceId agentCard releaseLease fates, extractEndpoint agentCard = none →
        Session.Keeps
          ((Event.call (.replaceAgentCard d serviceId agentCard releaseLease) fates).run serviceIdOf s).world.posts) ∧
      ∀ serviceId fates,
        Session.Keeps ((Event.call (.restoreToBlank d serviceId) fates).run serviceIdOf s).world.posts := by
  have kept : ∀ (s : Session CardStore) (event : Event) (t : Session CardStore),
      Sound d s.client s.world.cards → event.Careful serviceIdOf d s → Evolves serviceIdOf s event t →
        Sound d t.client t.world.cards := by
    rintro s event t sound careful rfl
    exact event.sound serviceIdOf sound careful
  have start : Sound d (Client.new file baseUrl) store.cards :=
    ⟨nofun, nofun⟩
  have sound : Sound d s.client s.world.cards :=
    @Run.invariant_under _ _ _ _ _ _ _ (fun s : Session CardStore => Sound d s.client s.world.cards) kept run start
  have none_ : Session.Keeps [] := fun _ mem => absurd mem List.not_mem_nil
  constructor
  · intro serviceId agentCard releaseLease fates bare
    have start : Sound d (s.begin fates).client (s.begin fates).world.cards := sound
    refine (Session.replaceAgentCard_spec start ?_).2 rfl ?_ none_
    · intro _ _ endpoint own
      rw [bare] at own
      cases own
    · intro endpoint own
      rw [bare] at own
      cases own
  · intro serviceId fates
    have start : Sound d (s.begin fates).client (s.begin fates).world.cards := sound
    exact (Session.restoreToBlank_spec start).2 rfl none_

/-! ### An endpoint that is updated -/

namespace EndpointSample

def idOf : String → JsonDict → String := fun _ _ => "s"

def start : Session CardStore := ⟨Client.new none "u", ⟨fun _ => none, [], []⟩⟩

def blanked : Event := .call (.registerBlankAgent "ds" "http://old" (some "s") true) []

def moved : Event := .call (.updateAgent "ds" "s" [("endpoint", .str "http://new")]) []

def restored : Event := .call (.restoreToBlank "ds" "s") []

/-- The agent is moved to a new address, and blanking it sends its traffic to the old one. -/
theorem old_endpoint_restored : ∃ s, Run (Evolves idOf) start [blanked, moved] s ∧
    ¬ Session.Keeps (restored.run idOf s).world.posts := by
  refine ⟨_, .cons rfl (.cons rfl (.nil _)), fun keeps => ?_⟩
  have endpoints : ((restored.run idOf (moved.run idOf (blanked.run idOf start))).world.posts.map fun post =>
      (extractEndpoint post.card, post.held.bind extractEndpoint)) = [(some "http://old", some "http://new")] := by
    decide
  obtain ⟨post, posts, pair⟩ := List.map_eq_singleton_iff.mp endpoints
  obtain ⟨posted, kept⟩ := Prod.mk.inj pair
  obtain ⟨old, held, current⟩ := Option.bind_eq_some_iff.mp kept
  have same := keeps post (posts ▸ List.mem_singleton_self post) old held
  rw [posted, current] at same
  exact absurd same (by decide)

/-- Without the update it is kept. -/
theorem endpoint_restored : Session.Keeps (restored.run idOf (blanked.run idOf start)).world.posts ∧
    (restored.run idOf (blanked.run idOf start)).world.posts.length = 1 := by
  refine ⟨?_, by decide⟩
  have run : Run (Under (fun s event => event.Careful idOf "ds" s) (Evolves idOf)) start [blanked]
      (blanked.run idOf start) := by
    refine .cons ⟨?_, rfl⟩ (.nil _)
    rintro ⟨⟩
  exact (endpoint_survives idOf run).2 "s" []

end EndpointSample

end AgentProtocols.Registry.RegistryClient
