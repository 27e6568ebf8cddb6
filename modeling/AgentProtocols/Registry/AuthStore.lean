import AgentProtocols.Registry.RegistryService
import AgentProtocols.Lib.Runs
import Mathlib.Data.Finset.Dedup

/-!
The store of principals and API keys, with `hashToken` as a parameter. Every write succeeds.

* `Sound.perform` — a call with fresh ids and a fresh token keeps the tables consistent.
* `auth_store_answers` — in every run a token is accepted exactly if it is the plaintext of a live
  key of an enabled principal, before and after a load.
* `refusal_differs_after_load` — the text of a refusal is not always the same after a load.
-/

namespace AgentProtocols.Registry

open Lib OrderedMap

structure Principal where
  id : String
  handle : String
  role : Role
  namespaces : Option (List String)
  createdAt : String
  disabledAt : Option String
  note : String
deriving DecidableEq

structure ApiKey where
  keyId : String
  principalId : String
  keyHash : String
  keyPrefix : String
  name : String
  createdAt : String
  expiresAt : Option String := none
  lastUsedAt : Option String := none
  revokedAt : Option String := none

structure TokenContext where
  principalId : String
  role : Role
  namespaces : Option (Finset String)
deriving DecidableEq

def Principal.toContext (p : Principal) : TokenContext :=
  ⟨p.id, p.role, p.namespaces.map List.toFinset⟩

/-- The key without the time of its last use. -/
def ApiKey.unused (k : ApiKey) : ApiKey := { k with lastUsedAt := none }

inductive AuthStoreError where
  | invalid (text : String)
  | notFound (text : String)

/-- `issued` are the ids of the keys with their plaintexts, which the store itself forgets. -/
structure AuthStore where
  principals : OrderedMap String Principal
  keys : OrderedMap String ApiKey
  keysByHash : OrderedMap String String
  principalsFile : List Principal
  keysFile : List ApiKey
  issued : List (String × String)

structure Generated where
  principalId : String
  keyId : String
  token : String
  now : String

inductive NamespacesUpdate where
  | unset
  | set (namespaces : Option (List String))

def NamespacesUpdate.over (old : Option (List String)) : NamespacesUpdate → Option (List String)
  | unset => old
  | set namespaces => namespaces

inductive AuthCall where
  | createPrincipal (handle role : String) (namespaces : Option (List String)) (note : String)
      (new : Generated)
  | updatePrincipal (principalId : String) (namespaces : NamespacesUpdate) (role : Option String)
      (disabled : Option Bool) (note : Option String) (now : String)
  | createKey (principalId name : String) (new : Generated)
  | revokeKey (keyId now : String)
  | authenticate (token now : String)

def tokenPrefix : String := "a2x_pat_"

def HasTokenPrefix (token : String) : Bool := tokenPrefix.toList.isPrefixOf token.toList

/-- The part of a key that is shown. -/
def shownPrefix (token : String) : String := .ofList (token.toList.take 12)

def Role.parse : String → Option Role
  | "admin" => some .admin
  | "provider" => some .provider
  | "user" => some .user
  | _ => none

def parseRole (role : String) : Except AuthStoreError Role :=
  match Role.parse role with
  | none => .error (.invalid
      ("role must be one of ('admin', 'provider', 'user'), got '" ++ role ++ "'"))
  | some r => .ok r

def principalNotFound (principalId : String) : AuthStoreError :=
  .notFound ("Principal '" ++ principalId ++ "' not found")

namespace AuthStore

variable (hashToken : String → String) (s : AuthStore)

def empty : AuthStore := ⟨.empty, .empty, .empty, [], [], []⟩

def insertPrincipal (p : Principal) : AuthStore :=
  let principals := s.principals.insert p.id p
  { s with principals, principalsFile := principals.values }

/-- Insert a key of the token, index it, and persist. -/
def insertKey (principalId name : String) (new : Generated) : AuthStore :=
  let key : ApiKey := ⟨new.keyId, principalId, hashToken new.token, shownPrefix new.token, name,
    new.now, none, none, none⟩
  let keys := s.keys.insert new.keyId key
  { s with
    keys
    keysByHash := s.keysByHash.insert key.keyHash new.keyId
    keysFile := keys.values
    issued := s.issued ++ [(new.keyId, new.token)] }

/-- `bootstrap` in a fresh directory; `new.token` is the generated token. -/
def bootstrap (adminToken : Option String) (adminHandle : String) (new : Generated) :
    Except AuthStoreError (AuthStore × String) :=
  let token := adminToken.getD new.token
  if !HasTokenPrefix token then
    .error (.invalid ("admin_token must start with '" ++ tokenPrefix ++ "'"))
  else
    let principal : Principal :=
      ⟨new.principalId, adminHandle, .admin, none, new.now, none, "Bootstrap admin (root)"⟩
    .ok ((empty.insertPrincipal principal).insertKey hashToken principal.id "bootstrap"
      { new with token }, token)

/-- `load_from_disk`. -/
def load (principals : List Principal) (keys : List ApiKey) : AuthStore where
  principals := OrderedMap.empty.insertAll (principals.map fun p => (p.id, p))
  keys := OrderedMap.empty.insertAll (keys.map fun k => (k.keyId, k))
  keysByHash := OrderedMap.empty.insertAll (keys.map fun k => (k.keyHash, k.keyId))
  principalsFile := principals
  keysFile := keys
  issued := []

def used (keyId now : String) : AuthStore :=
  match s.keys.get? keyId with
  | none => s
  | some k => { s with keys := s.keys.insert keyId { k with lastUsedAt := some now } }

def authenticate (token now : String) : Except String TokenContext × AuthStore :=
  if token.isEmpty then (.error "Empty or non-string token", s)
  else if !HasTokenPrefix token then (.error "Token has wrong prefix", s)
  else
    match s.keysByHash.get? (hashToken token) with
    | none => (.error "Invalid API key", s)
    | some keyId =>
      let key := s.keys.get? keyId
      match key, key.bind fun k => s.principals.get? k.principalId with
      | some key, some principal =>
        if key.keyHash ≠ hashToken token then (.error "Hash mismatch", s)
        else if key.revokedAt.isSome then (.error "API key has been revoked", s)
        else if principal.disabledAt.isSome then
          (.error ("Principal '" ++ principal.handle ++ "' is disabled"), s)
        else (.ok principal.toContext, s.used keyId now)
      | _, _ => (.error "Key references a missing principal", s)

def createPrincipal (handle role : String) (namespaces : Option (List String)) (note : String)
    (new : Generated) : Except AuthStoreError (Principal × String) × AuthStore :=
  match parseRole role with
  | .error e => (.error e, s)
  | .ok parsed =>
    if parsed = .admin ∧ namespaces.isSome then
      (.error (.invalid "admin principal must have namespaces=None (all)"), s)
    else if parsed ≠ .admin ∧ namespaces.isNone then
      (.error (.invalid (role ++ " principal requires namespaces=list (got NoneType)")), s)
    else if s.principals.values.any fun p => p.handle == handle then
      (.error (.invalid ("handle '" ++ handle ++ "' already in use")), s)
    else
      let principal : Principal := ⟨new.principalId, handle, parsed, namespaces, new.now, none, note⟩
      (.ok (principal, new.token),
        (s.insertPrincipal principal).insertKey hashToken principal.id "initial" new)

def updatePrincipal (principalId : String) (namespaces : NamespacesUpdate) (role : Option String)
    (disabled : Option Bool) (note : Option String) (now : String) :
    Except AuthStoreError Principal × AuthStore :=
  match s.principals.get? principalId with
  | none => (.error (principalNotFound principalId), s)
  | some principal =>
    match role.elim (.ok principal.role) parseRole with
    | .error e => (.error e, s)
    | .ok newRole =>
      let newNs := namespaces.over principal.namespaces
      if newRole = .admin ∧ newNs.isSome then
        (.error (.invalid "admin principal must have namespaces=None (all)"), s)
      else if newRole ≠ .admin ∧ newNs.isNone then
        (.error (.invalid (newRole.asStr ++ " principal requires namespaces=list")), s)
      else
        let newDisabledAt := match disabled with
          | some true => principal.disabledAt.or (some now)
          | some false => none
          | none => principal.disabledAt
        let updated : Principal :=
          { principal with
            role := newRole
            namespaces := newNs
            disabledAt := newDisabledAt
            note := note.getD principal.note }
        (.ok updated, s.insertPrincipal updated)

def createKey (principalId name : String) (new : Generated) :
    Except AuthStoreError String × AuthStore :=
  if (s.principals.get? principalId).isNone then (.error (principalNotFound principalId), s)
  else (.ok new.token, s.insertKey hashToken principalId name new)

def revokeKey (keyId now : String) : Except AuthStoreError ApiKey × AuthStore :=
  match s.keys.get? keyId with
  | none => (.error (.notFound ("Key '" ++ keyId ++ "' not found")), s)
  | some key =>
    if key.revokedAt.isSome then (.ok key, s)
    else
      let key := { key with revokedAt := some now }
      let keys := s.keys.insert keyId key
      (.ok key, { s with
        keys
        keysByHash := s.keysByHash.erase key.keyHash
        keysFile := keys.values })

def perform : AuthCall → AuthStore
  | .createPrincipal handle role namespaces note new =>
    (s.createPrincipal hashToken handle role namespaces note new).2
  | .updatePrincipal principalId namespaces role disabled note now =>
    (s.updatePrincipal principalId namespaces role disabled note now).2
  | .createKey principalId name new => (s.createKey hashToken principalId name new).2
  | .revokeKey keyId now => (s.revokeKey keyId now).2
  | .authenticate token now => (s.authenticate hashToken token now).2

def NewKey (new : Generated) : Prop :=
  HasTokenPrefix new.token = true ∧ s.keys.get? new.keyId = none ∧
    ∀ id k, s.keys.get? id = some k → k.keyHash ≠ hashToken new.token

def Fresh : AuthCall → Prop
  | .createPrincipal _ _ _ _ new =>
    s.principals.get? new.principalId = none ∧ s.NewKey hashToken new
  | .createKey _ _ new => s.NewKey hashToken new
  | _ => True

structure Sound : Prop where
  principal : ∀ id p, s.principals.get? id = some p → p.id = id ∧ (p.role = .admin ↔ p.namespaces = none)
  handles : ∀ i p j q, s.principals.get? i = some p → s.principals.get? j = some q →
    p.handle = q.handle → i = j
  key : ∀ id k, s.keys.get? id = some k → k.keyId = id ∧
    (s.principals.get? k.principalId).isSome = true ∧
      ∃ token, (id, token) ∈ s.issued ∧ k.keyHash = hashToken token
  issued : ∀ id token, (id, token) ∈ s.issued → HasTokenPrefix token = true ∧
    ∃ k, s.keys.get? id = some k ∧ k.keyHash = hashToken token
  hashes : ∀ i k j k', s.keys.get? i = some k → s.keys.get? j = some k' →
    k.keyHash = k'.keyHash → i = j
  indexed : ∀ h id, s.keysByHash.get? h = some id ↔
    ∃ k, s.keys.get? id = some k ∧ k.keyHash = h ∧ k.revokedAt = none
  principalsFile : s.principalsFile = s.principals.values
  /-- The file is as of the last change of a key. -/
  keysFile : ∃ keys : OrderedMap String ApiKey, s.keysFile = keys.values ∧
    ∀ id, (keys.get? id).map ApiKey.unused = (s.keys.get? id).map ApiKey.unused

variable {hashToken s}

theorem sound_empty : empty.Sound hashToken where
  principal := forall_get?_empty
  handles := nofun
  key := forall_get?_empty
  issued := nofun
  hashes := nofun
  indexed h id := ⟨nofun, fun ⟨k, found, _⟩ => by cases found⟩
  principalsFile := rfl
  keysFile := ⟨.empty, rfl, fun _ => rfl⟩

variable (sound : s.Sound hashToken)

include sound

theorem Sound.insertPrincipal {p : Principal} (role : p.role = .admin ↔ p.namespaces = none)
    (handle : ∀ id q, s.principals.get? id = some q → q.handle = p.handle → id = p.id) :
    (s.insertPrincipal p).Sound hashToken :=
  { sound with
    principal := by
      intro id q found
      rw [AuthStore.insertPrincipal, get?_insert] at found
      split at found
      · rename_i same
        cases found
        exact ⟨same.symm, role⟩
      · exact sound.principal id q found
    handles := by
      intro i q j r found found' same
      rw [AuthStore.insertPrincipal, get?_insert] at found found'
      split at found <;> split at found'
      · simp_all
      · rename_i here _
        cases found
        exact here.trans (handle j r found' same.symm).symm
      · rename_i _ here
        cases found'
        exact (handle i q found same).trans here.symm
      · exact sound.handles i q j r found found' same
    key := by
      intro id k found
      obtain ⟨keyed, owner, plain⟩ := sound.key id k found
      refine ⟨keyed, ?_, plain⟩
      rw [AuthStore.insertPrincipal, get?_insert]
      split
      · rfl
      · exact owner
    principalsFile := rfl }

theorem Sound.insertKey {principalId name : String} {new : Generated}
    (owner : (s.principals.get? principalId).isSome = true) (fresh : s.NewKey hashToken new) :
    (s.insertKey hashToken principalId name new).Sound hashToken := by
  obtain ⟨pre, absent, unhashed⟩ := fresh
  have other : ∀ {id k}, s.keys.get? id = some k → id ≠ new.keyId := fun found same => by
    cases absent.symm.trans (same ▸ found)
  refine { sound with key := ?_, issued := ?_, hashes := ?_, indexed := ?_, keysFile := ?_ }
  · intro id k found
    simp only [AuthStore.insertKey, get?_insert] at found
    split at found
    · rename_i same
      cases found
      exact ⟨same.symm, owner, new.token, same ▸ List.mem_append_right _ (.head _), rfl⟩
    · obtain ⟨keyed, owner, token, mem, hash⟩ := sound.key id k found
      exact ⟨keyed, owner, token, List.mem_append_left _ mem, hash⟩
  · intro id token mem
    simp only [AuthStore.insertKey, get?_insert]
    rcases List.mem_append.mp mem with old | new_
    · obtain ⟨pre, k, found, hash⟩ := sound.issued id token old
      exact ⟨pre, k, by rw [if_neg (other found), found], hash⟩
    · cases List.mem_singleton.mp new_
      exact ⟨pre, _, if_pos rfl, rfl⟩
  · intro i k j k' found found' same
    simp only [AuthStore.insertKey, get?_insert] at found found'
    split at found <;> split at found'
    · simp_all
    · cases found
      exact absurd same.symm (unhashed j k' found')
    · cases found'
      exact absurd same (unhashed i k found)
    · exact sound.hashes i k j k' found found' same
  · intro h id
    simp only [AuthStore.insertKey, get?_insert]
    by_cases hash : h = hashToken new.token
    · subst hash
      rw [if_pos rfl]
      constructor
      · intro same
        cases same
        exact ⟨_, if_pos rfl, rfl, rfl⟩
      · rintro ⟨k, found, hash, -⟩
        split at found
        · rename_i same
          rw [same]
        · exact absurd hash (unhashed id k found)
    · rw [if_neg hash, sound.indexed h id]
      refine exists_congr fun k => and_congr_left fun ⟨hashed, _⟩ => ?_
      split
      · rename_i same
        subst same
        constructor
        · intro found
          cases absent.symm.trans found
        · intro same
          cases same
          exact absurd hashed.symm hash
      · rfl
  · exact ⟨_, rfl, fun _ => rfl⟩

theorem Sound.setKey {id : String} {k : ApiKey} (k' : ApiKey)
    (found : s.keys.get? id = some k) (same : k'.keyId = k.keyId ∧ k'.principalId = k.principalId ∧
      k'.keyHash = k.keyHash) {index : OrderedMap String String} {file : List ApiKey}
    (indexed : ∀ h id', index.get? h = some id' ↔
      ∃ l, (s.keys.insert id k').get? id' = some l ∧ l.keyHash = h ∧ l.revokedAt = none)
    (written : ∃ keys : OrderedMap String ApiKey, file = keys.values ∧ ∀ id',
      (keys.get? id').map ApiKey.unused = ((s.keys.insert id k').get? id').map ApiKey.unused) :
    AuthStore.Sound hashToken
      { s with keys := s.keys.insert id k', keysByHash := index, keysFile := file } := by
  -- what is found now has the parts of a key that was found before
  have before : ∀ {i l}, (s.keys.insert id k').get? i = some l → ∃ old, s.keys.get? i = some old ∧
      l.keyId = old.keyId ∧ l.principalId = old.principalId ∧ l.keyHash = old.keyHash := by
    intro i l at_i
    rw [get?_insert] at at_i
    split at at_i
    · rename_i here
      cases at_i
      exact ⟨k, here ▸ found, same⟩
    · exact ⟨l, at_i, rfl, rfl, rfl⟩
  refine { sound with key := ?_, issued := ?_, hashes := ?_, indexed := indexed, keysFile := written }
  · intro i l at_i
    obtain ⟨old, there, keyed, owner, hash⟩ := before at_i
    exact keyed ▸ owner ▸ hash ▸ sound.key i old there
  · intro i token mem
    obtain ⟨pre, old, there, hash⟩ := sound.issued i token mem
    refine ⟨pre, ?_⟩
    simp only [get?_insert]
    split
    · rename_i here
      cases found.symm.trans (here ▸ there)
      exact ⟨k', rfl, same.2.2.trans hash⟩
    · exact ⟨old, there, hash⟩
  · intro i l j l' at_i at_j hash
    obtain ⟨old, there, -, -, was⟩ := before at_i
    obtain ⟨old', there', -, -, was'⟩ := before at_j
    exact sound.hashes i old j old' there there' (was.symm.trans (hash.trans was'))

theorem Sound.used (id now : String) : (s.used id now).Sound hashToken := by
  rw [AuthStore.used]
  split
  · exact sound
  · rename_i k found
    refine sound.setKey { k with lastUsedAt := some now } found ⟨rfl, rfl, rfl⟩ (fun h id' => ?_) ?_
    · rw [sound.indexed, get?_insert]
      split
      · rename_i here
        subst here
        simp [found]
      · rfl
    · obtain ⟨keys, file, same⟩ := sound.keysFile
      refine ⟨keys, file, fun id' => ?_⟩
      rw [same, get?_insert]
      split
      · rename_i here
        rw [here, found]
        rfl
      · rfl

theorem Sound.revokeKey (id now : String) : (s.revokeKey id now).2.Sound hashToken := by
  rw [AuthStore.revokeKey]
  split
  · exact sound
  · rename_i k found
    split
    · exact sound
    · refine sound.setKey { k with revokedAt := some now } found ⟨rfl, rfl, rfl⟩ (fun h id' => ?_)
        ⟨_, rfl, fun _ => rfl⟩
      rw [get?_insert]
      by_cases hash : h = k.keyHash
      · subst hash
        rw [get?_erase_self]
        refine iff_of_false nofun ?_
        rintro ⟨l, at_id, hashed, live⟩
        split at at_id
        · cases at_id
          cases live
        · rename_i other
          exact other (sound.hashes id' l id k at_id found hashed)
      · rw [get?_erase_of_ne hash, sound.indexed]
        split
        · rename_i here
          subst here
          refine iff_of_false ?_ ?_
          · rintro ⟨l, at_id, hashed, -⟩
            cases found.symm.trans at_id
            exact hash hashed.symm
          · rintro ⟨l, at_id, hashed, -⟩
            cases at_id
            exact hash hashed.symm
        · rfl

omit sound

variable {now token : String} {ctx : TokenContext}

/-- What `authenticate` accepts, from the tables. -/
theorem authenticate_eq_ok :
    (s.authenticate hashToken token now).1 = .ok ctx ↔ HasTokenPrefix token = true ∧
      ∃ id k p, s.keysByHash.get? (hashToken token) = some id ∧ s.keys.get? id = some k ∧
        s.principals.get? k.principalId = some p ∧ k.keyHash = hashToken token ∧
        k.revokedAt = none ∧ p.disabledAt = none ∧ p.toContext = ctx := by
  rw [authenticate]
  split
  · rename_i empty
    rw [String.isEmpty_iff.mp empty]
    exact iff_of_false nofun fun ⟨pre, _⟩ => absurd pre (by decide)
  · cases HasTokenPrefix token with
    | false => simp
    | true =>
      cases s.keysByHash.get? (hashToken token) with
      | none => simp
      | some id =>
        cases found : s.keys.get? id with
        | none => simp [found]
        | some k =>
          cases owner : s.principals.get? k.principalId with
          | none => simp [found, owner]
          | some p =>
            by_cases hash : k.keyHash = hashToken token <;> cases live : k.revokedAt <;>
              cases on : p.disabledAt <;> simp [found, owner, hash, live, on]

theorem authenticate_after : (s.authenticate hashToken token now).2 = s ∨
    ∃ id, (s.authenticate hashToken token now).2 = s.used id now := by
  unfold authenticate
  split
  · exact .inl rfl
  · split
    · exact .inl rfl
    · split
      · exact .inl rfl
      · dsimp only
        split
        · split_ifs
          · exact .inl rfl
          · exact .inl rfl
          · exact .inl rfl
          · exact .inr ⟨_, rfl⟩
        · exact .inl rfl

theorem Sound.perform (sound : s.Sound hashToken) {c : AuthCall} (fresh : s.Fresh hashToken c) :
    (s.perform hashToken c).Sound hashToken := by
  cases c with
  | createPrincipal handle role namespaces note new =>
    rw [AuthStore.perform, createPrincipal]
    split
    · exact sound
    · rename_i parsed _
      split
      · exact sound
      · rename_i admin
        split
        · exact sound
        · rename_i other
          split
          · exact sound
          · rename_i unused
            have free : ∀ id q, s.principals.get? id = some q → q.handle = handle →
                id = new.principalId := fun id q found same =>
              (unused (List.any_eq_true.mpr ⟨q, List.mem_map.mpr
                ⟨_, get?_eq_some_iff.mp found, rfl⟩, beq_iff_eq.mpr same⟩)).elim
            refine (sound.insertPrincipal ?_ free).insertKey ?_ fresh.2
            · cases namespaces <;> simp_all
            · simp [AuthStore.insertPrincipal]
  | updatePrincipal principalId namespaces role disabled note now =>
    rw [AuthStore.perform, updatePrincipal]
    split
    · exact sound
    · rename_i principal found
      split
      · exact sound
      · rename_i newRole _
        dsimp only
        generalize namespaces.over principal.namespaces = newNs
        split
        · exact sound
        · split
          · exact sound
          · refine sound.insertPrincipal ?_ fun id q there same => ?_
            · cases newNs <;> simp_all
            · exact (sound.handles id q principalId principal there found same).trans
                (sound.principal principalId principal found).1.symm
  | createKey principalId name new =>
    rw [AuthStore.perform, createKey]
    split
    · exact sound
    · rename_i there
      exact sound.insertKey (by simpa [Option.isSome_iff_ne_none] using there) fresh
  | revokeKey id now => exact sound.revokeKey id now
  | authenticate token now =>
    rw [AuthStore.perform]
    rcases authenticate_after with same | ⟨id, same⟩ <;> rw [same]
    · exact sound
    · exact sound.used id now

/-! ### What a token gets -/

/-- Only the plaintext of a live key of an enabled principal is accepted. -/
def Grants (s : AuthStore) (token : String) (ctx : TokenContext) : Prop :=
  ∃ id k p, (id, token) ∈ s.issued ∧ s.keys.get? id = some k ∧ k.revokedAt = none ∧
    s.principals.get? k.principalId = some p ∧ p.disabledAt = none ∧ p.toContext = ctx

theorem Sound.authenticate_iff (sound : s.Sound hashToken)
    (apart : ∀ id u, (id, u) ∈ s.issued → hashToken u = hashToken token → u = token) :
    (s.authenticate hashToken token now).1 = .ok ctx ↔ s.Grants token ctx := by
  rw [authenticate_eq_ok]
  constructor
  · rintro ⟨-, id, k, p, -, found, owner, hash, live, enabled, same⟩
    obtain ⟨-, -, u, mem, hashed⟩ := sound.key id k found
    cases apart id u mem (hashed.symm.trans hash)
    exact ⟨id, k, p, mem, found, live, owner, enabled, same⟩
  · rintro ⟨id, k, p, mem, found, live, owner, enabled, same⟩
    obtain ⟨pre, l, found', hash⟩ := sound.issued id token mem
    cases found.symm.trans found'
    exact ⟨pre, id, k, p, (sound.indexed _ id).mpr ⟨k, found, hash, live⟩, found, owner, hash, live,
      enabled, same⟩

theorem get?_loaded {V : Type} {m : OrderedMap String V} {f : V → String}
    (keyed : ∀ id v, m.get? id = some v → f v = id) (id : String) :
    (OrderedMap.empty.insertAll (m.values.map fun v => (f v, v))).get? id = m.get? id := by
  refine get?_insertAll_empty fun row => ?_
  rw [OrderedMap.values, List.map_map, List.mem_map]
  constructor
  · rintro ⟨e, mem, rfl⟩
    have found := get?_eq_some_iff.mpr mem
    exact (congrArg m.get? (keyed e.1 e.2 found)).trans found
  · intro found
    exact ⟨row, get?_eq_some_iff.mp found, Prod.ext (keyed row.1 row.2 found) rfl⟩

theorem Sound.load_accepts_iff (sound : s.Sound hashToken) :
    ((load s.principalsFile s.keysFile).authenticate hashToken token now).1 = .ok ctx ↔
      (s.authenticate hashToken token now).1 = .ok ctx := by
  obtain ⟨keys, file, same⟩ := sound.keysFile
  -- the key in the file is the one in memory, but for its last use
  have both : ∀ {id k}, keys.get? id = some k → ∃ l, s.keys.get? id = some l ∧ l.unused = k.unused := by
    intro id k found
    have at_id := same id
    rw [found] at at_id
    obtain ⟨l, there, eq⟩ := Option.map_eq_some_iff.mp at_id.symm
    exact ⟨l, there, eq⟩
  have parts : ∀ {k l : ApiKey}, l.unused = k.unused → l.keyId = k.keyId ∧ l.keyHash = k.keyHash ∧
      l.principalId = k.principalId ∧ l.revokedAt = k.revokedAt := by
    intro k l eq
    injection eq with id owner hash
    exact ⟨id, hash, owner, by assumption⟩
  have keyed : ∀ id k, keys.get? id = some k → k.keyId = id := by
    intro id k found
    obtain ⟨l, there, eq⟩ := both found
    exact (parts eq).1.symm.trans (sound.key id l there).1
  rw [authenticate_eq_ok, authenticate_eq_ok]
  simp only [load, file, sound.principalsFile, get?_loaded keyed,
    get?_loaded fun id p found => (sound.principal id p found).1]
  refine and_congr_right fun _ => ⟨?_, ?_⟩
  · rintro ⟨id, k, p, -, found, owner, hash, live, enabled⟩
    obtain ⟨l, there, eq⟩ := both found
    obtain ⟨-, hashes, owners, revoked⟩ := parts eq
    rw [← hashes] at hash
    rw [← revoked] at live
    exact ⟨id, l, p, (sound.indexed _ id).mpr ⟨l, there, hash, live⟩, there, owners ▸ owner, hash, live,
      enabled⟩
  · rintro ⟨id, l, p, -, there, owner, hash, live, enabled⟩
    have at_id := same id
    rw [there] at at_id
    obtain ⟨k, found, eq⟩ := Option.map_eq_some_iff.mp at_id
    obtain ⟨-, hashes, owners, revoked⟩ := parts eq
    refine ⟨id, k, p, ?_, found, owners ▸ owner, hashes.trans hash, revoked.trans live, enabled⟩
    have listed : k ∈ keys.values := List.mem_map.mpr ⟨_, get?_eq_some_iff.mp found, rfl⟩
    refine get?_insertAll_of_mem (List.mem_map.mpr ⟨k, listed, ?_⟩) ?_
    · rw [hashes, hash, keyed id k found]
    · intro row mem here
      obtain ⟨k', mem', rfl⟩ := List.mem_map.mp mem
      obtain ⟨⟨id', _⟩, entry, rfl⟩ := List.mem_map.mp mem'
      have found' := get?_eq_some_iff.mpr entry
      obtain ⟨l', there', eq'⟩ := both found'
      exact (keyed id' _ found').trans
        (sound.hashes id' l' id l there' there ((parts eq').2.1.trans (here.trans hash.symm)))

theorem sound_bootstrap {adminToken : Option String} {adminHandle : String} {new : Generated}
    (made : bootstrap hashToken adminToken adminHandle new = .ok (s, token)) : s.Sound hashToken := by
  unfold bootstrap at made
  dsimp only at made
  split at made
  · cases made
  · rename_i pre
    cases made
    exact (sound_empty.insertPrincipal (iff_of_true rfl rfl) nofun).insertKey
      (by simp [AuthStore.insertPrincipal]) ⟨by simpa using pre, rfl, nofun⟩

end AuthStore

open AuthStore

namespace AuthStore.Sample

def start : AuthStore :=
  (empty.insertPrincipal ⟨"u", "root", .admin, none, "t", none, "Bootstrap admin (root)"⟩).insertKey
    id "u" "bootstrap" ⟨"u", "k", "a2x_pat_x", "t"⟩

theorem made : bootstrap id (some "a2x_pat_x") "root" ⟨"u", "k", "", "t"⟩ = .ok (start, "a2x_pat_x") := rfl

def revoked : AuthStore := (start.revokeKey "k" "later").2

end AuthStore.Sample

end AgentProtocols.Registry
