import AgentProtocols.Lib.UrlPaths

/-!
The targets of the registry client's requests. Percent-encoding leaves the dot alone, and the URL
parser of the HTTP client removes dot segments.

* `target_eq` — other arguments reach the server as they are.
* `target_faithful_iff` — the route is read back exactly when no argument is `.` or `..`.
* `faithful_pair_iff` — and then different operations have different targets.
-/

namespace AgentProtocols.Registry.RequestTargets

open Lib UrlPaths List

/-! ### The path builders -/

def datasetsRoot : String := "api/datasets"
def authPrincipalsRoot : String := "api/auth/principals"
def authWhoamiPath : String := "api/auth/whoami"
def authKeysRoot : String := "api/auth/keys"

/-- Percent-encodes a path segment, keeping only unreserved characters. -/
def encode (segment : String) : String := String.ofList (encodeText segment.toList)

def datasetPath (dataset : String) : String := datasetsRoot ++ "/" ++ encode dataset

def servicesPath (dataset : String) : String := datasetsRoot ++ "/" ++ encode dataset ++ "/services"

def servicePath (dataset serviceId : String) : String :=
  datasetsRoot ++ "/" ++ encode dataset ++ "/services/" ++ encode serviceId

def a2aRegisterPath (dataset : String) : String := datasetsRoot ++ "/" ++ encode dataset ++ "/services/a2a"

def heartbeatPath (dataset serviceId : String) : String :=
  datasetsRoot ++ "/" ++ encode dataset ++ "/services/" ++ encode serviceId ++ "/heartbeat"

def reservationsPath (dataset : String) : String := datasetsRoot ++ "/" ++ encode dataset ++ "/reservations"

def reservationHolderPath (dataset holderId : String) : String :=
  datasetsRoot ++ "/" ++ encode dataset ++ "/reservations/" ++ encode holderId

def reservationHolderSidPath (dataset holderId serviceId : String) : String :=
  datasetsRoot ++ "/" ++ encode dataset ++ "/reservations/" ++ encode holderId ++ "/" ++ encode serviceId

def reservationExtendPath (dataset holderId : String) : String :=
  datasetsRoot ++ "/" ++ encode dataset ++ "/reservations/" ++ encode holderId ++ "/extend"

def serviceLeasePath (dataset serviceId : String) : String :=
  datasetsRoot ++ "/" ++ encode dataset ++ "/services/" ++ encode serviceId ++ "/lease"

/-- `request_json` of `revoke_key` formats the path in place. -/
def revokeKeyPath (keyId : String) : String := authKeysRoot ++ "/" ++ encode keyId

/-- Ensures a trailing `/`, so that relative paths append under the mount point. -/
def normalizeBaseUrl (baseUrl : List Char) : List Char :=
  if baseUrl.getLast? = some '/' then baseUrl else baseUrl ++ ['/']

/-- The URL of a relative path: leading slashes are stripped first. -/
def urlFor (baseUrl path : List Char) : List Char := baseUrl ++ path.dropWhile (· == '/')

/-! ### The operations -/

inductive HttpMethod where
  | get
  | post
  | put
  | delete
deriving DecidableEq, Repr

/-- The requests of the client's functions, several of which share one. -/
inductive Operation where
  | createDataset
  | createPrincipal
  | deleteDataset (dataset : String)
  | registerAgent (dataset : String)
  | heartbeat (dataset serviceId : String)
  | revokeLease (dataset serviceId : String)
  | updateAgent (dataset serviceId : String)
  | listAgents (dataset : String)
  | getAgent (dataset serviceId : String)
  | deregisterAgent (dataset serviceId : String)
  | reserveBlankAgents (dataset : String)
  | releaseReservation (dataset holderId : String)
  | releaseService (dataset holderId serviceId : String)
  | extendReservation (dataset holderId : String)
  | releaseMyLease (dataset serviceId : String)
  | whoami
  | listKeys
  | createKey
  | revokeKey (keyId : String)
deriving DecidableEq, Repr

namespace Operation

def method : Operation → HttpMethod
  | createDataset | createPrincipal | registerAgent _ | heartbeat _ _ => .post
  | reserveBlankAgents _ | extendReservation _ _ | createKey => .post
  | deleteDataset _ | revokeLease _ _ | deregisterAgent _ _ => .delete
  | releaseReservation _ _ | releaseService _ _ _ | releaseMyLease _ _ | revokeKey _ => .delete
  | updateAgent _ _ => .put
  | listAgents _ | getAgent _ _ | whoami | listKeys => .get

def path : Operation → String
  | createDataset => datasetsRoot
  | createPrincipal => authPrincipalsRoot
  | deleteDataset dataset => datasetPath dataset
  | registerAgent dataset => a2aRegisterPath dataset
  | heartbeat dataset serviceId => heartbeatPath dataset serviceId
  | revokeLease dataset serviceId => heartbeatPath dataset serviceId
  | updateAgent dataset serviceId => servicePath dataset serviceId
  | listAgents dataset => servicesPath dataset
  | getAgent dataset serviceId => servicePath dataset serviceId
  | deregisterAgent dataset serviceId => servicePath dataset serviceId
  | reserveBlankAgents dataset => reservationsPath dataset
  | releaseReservation dataset holderId => reservationHolderPath dataset holderId
  | releaseService dataset holderId serviceId => reservationHolderSidPath dataset holderId serviceId
  | extendReservation dataset holderId => reservationExtendPath dataset holderId
  | releaseMyLease dataset serviceId => serviceLeasePath dataset serviceId
  | whoami => authWhoamiPath
  | listKeys => authKeysRoot
  | createKey => authKeysRoot
  | revokeKey keyId => revokeKeyPath keyId

/-- A segment of a route. -/
inductive Part where
  | word (text : String)
  | arg (text : String)
deriving DecidableEq, Repr

def Part.text : Part → String
  | word text => text
  | arg text => text

/-- The argument in a part of a route. -/
def Part.arg? : Part → Option String
  | word _ => none
  | arg text => some text

def route : Operation → List Part
  | createDataset => [.word "api", .word "datasets"]
  | createPrincipal => [.word "api", .word "auth", .word "principals"]
  | deleteDataset dataset => [.word "api", .word "datasets", .arg dataset]
  | registerAgent dataset => [.word "api", .word "datasets", .arg dataset, .word "services", .word "a2a"]
  | heartbeat dataset serviceId | revokeLease dataset serviceId =>
    [.word "api", .word "datasets", .arg dataset, .word "services", .arg serviceId, .word "heartbeat"]
  | updateAgent dataset serviceId | getAgent dataset serviceId | deregisterAgent dataset serviceId =>
    [.word "api", .word "datasets", .arg dataset, .word "services", .arg serviceId]
  | listAgents dataset => [.word "api", .word "datasets", .arg dataset, .word "services"]
  | reserveBlankAgents dataset => [.word "api", .word "datasets", .arg dataset, .word "reservations"]
  | releaseReservation dataset holderId =>
    [.word "api", .word "datasets", .arg dataset, .word "reservations", .arg holderId]
  | releaseService dataset holderId serviceId =>
    [.word "api", .word "datasets", .arg dataset, .word "reservations", .arg holderId, .arg serviceId]
  | extendReservation dataset holderId =>
    [.word "api", .word "datasets", .arg dataset, .word "reservations", .arg holderId, .word "extend"]
  | releaseMyLease dataset serviceId =>
    [.word "api", .word "datasets", .arg dataset, .word "services", .arg serviceId, .word "lease"]
  | whoami => [.word "api", .word "auth", .word "whoami"]
  | listKeys | createKey => [.word "api", .word "auth", .word "keys"]
  | revokeKey keyId => [.word "api", .word "auth", .word "keys", .arg keyId]

def texts (op : Operation) : List String := op.route.map Part.text

/-- The arguments that a request carries in its path. -/
def arguments (op : Operation) : List String := op.route.filterMap Part.arg?

/-- The operation that a method and the texts of a route stand for. -/
def ofRoute : HttpMethod → List String → Option Operation
  | .post, ["api", "datasets"] => some createDataset
  | .post, ["api", "auth", "principals"] => some createPrincipal
  | .delete, ["api", "datasets", dataset] => some (deleteDataset dataset)
  | .post, ["api", "datasets", dataset, "services", "a2a"] => some (registerAgent dataset)
  | .post, ["api", "datasets", dataset, "services", serviceId, "heartbeat"] => some (heartbeat dataset serviceId)
  | .delete, ["api", "datasets", dataset, "services", serviceId, "heartbeat"] =>
    some (revokeLease dataset serviceId)
  | .put, ["api", "datasets", dataset, "services", serviceId] => some (updateAgent dataset serviceId)
  | .get, ["api", "datasets", dataset, "services"] => some (listAgents dataset)
  | .get, ["api", "datasets", dataset, "services", serviceId] => some (getAgent dataset serviceId)
  | .delete, ["api", "datasets", dataset, "services", serviceId] => some (deregisterAgent dataset serviceId)
  | .post, ["api", "datasets", dataset, "reservations"] => some (reserveBlankAgents dataset)
  | .delete, ["api", "datasets", dataset, "reservations", holderId] => some (releaseReservation dataset holderId)
  | .delete, ["api", "datasets", dataset, "reservations", holderId, serviceId] =>
    some (releaseService dataset holderId serviceId)
  | .post, ["api", "datasets", dataset, "reservations", holderId, "extend"] =>
    some (extendReservation dataset holderId)
  | .delete, ["api", "datasets", dataset, "services", serviceId, "lease"] => some (releaseMyLease dataset serviceId)
  | .get, ["api", "auth", "whoami"] => some whoami
  | .get, ["api", "auth", "keys"] => some listKeys
  | .post, ["api", "auth", "keys"] => some createKey
  | .delete, ["api", "auth", "keys", keyId] => some (revokeKey keyId)
  | _, _ => none

theorem ofRoute_texts (op : Operation) : ofRoute op.method op.texts = some op := by
  cases op <;> simp [ofRoute, method, texts, route, Part.text]

end Operation

/-! ### The targets -/

/-- The base URL after its authority. -/
structure Mount where
  text : List Char
  rooted : text = [] ∨ text.head? = some '/'
  path_only : ∀ c ∈ text, c ≠ '?' ∧ c ≠ '#'

/-- The directory under which the API is mounted. -/
def Mount.directory (mount : Mount) : List (List Char) :=
  UrlPaths.directory [] (segmentsOf (normalizeBaseUrl mount.text)).tail.dropLast

/-- The path of the request that is sent. -/
def target (mount : Mount) (op : Operation) : List (List Char) :=
  removeDots [] (segmentsOf (urlFor (normalizeBaseUrl mount.text) op.path.toList)).tail

/-- The server reads the words and the arguments of the route back. -/
def Faithful (mount : Mount) (op : Operation) : Prop :=
  ∃ tail, target mount op = mount.directory ++ tail ∧
    tail.map percentDecode = op.texts.map fun text => Utf8.encode text.toList

/-- The segments that a builder joins. -/
def segments (op : Operation) : List (List Char) := op.texts.map fun text => encodeText text.toList

theorem toList_encode (segment : String) : (encode segment).toList = encodeText segment.toList :=
  String.toList_ofList

theorem encodeText_nil : encodeText [] = [] := rfl

theorem path_eq (op : Operation) : op.path.toList = ['/'].intercalate (segments op) := by
  cases op <;>
    simp (disch := decide) [segments, Operation.texts, Operation.route, Operation.Part.text, Operation.path,
      datasetPath, servicesPath, servicePath, a2aRegisterPath, heartbeatPath, reservationsPath,
      reservationHolderPath, reservationHolderSidPath, reservationExtendPath, serviceLeasePath, revokeKeyPath,
      datasetsRoot, authPrincipalsRoot, authWhoamiPath, authKeysRoot, toList_encode, encodeText_cons,
      encodeText_nil]

theorem segments_eq (op : Operation) : ∃ rest, segments op = "api".toList :: rest := by
  cases op <;> exact ⟨_, rfl⟩

theorem segments_chars (op : Operation) : ∀ segment ∈ segments op, ∀ c ∈ segment, isSegmentChar c := by
  intro segment mem c mem_c
  obtain ⟨text, -, rfl⟩ := mem_map.mp mem
  exact mem_encodeText mem_c

theorem Mount.normalizeBaseUrl_eq (mount : Mount) :
    ∃ front, normalizeBaseUrl mount.text = front ++ ['/'] ∧ ∀ c ∈ front, c ≠ '?' ∧ c ≠ '#' := by
  rw [normalizeBaseUrl]
  split
  · rename_i slash
    obtain ⟨front, text⟩ := getLast?_eq_some_iff.mp slash
    refine ⟨front, text, fun c mem => mount.path_only c ?_⟩
    rw [text]
    exact mem_append_left _ mem
  · exact ⟨mount.text, rfl, mount.path_only⟩

theorem target_eq_removeDots (mount : Mount) (op : Operation) :
    target mount op = removeDots mount.directory (segments op) := by
  obtain ⟨front, base, path⟩ := mount.normalizeBaseUrl_eq
  obtain ⟨rest, api⟩ := segments_eq op
  have nonempty : segments op ≠ [] := api ▸ cons_ne_nil _ _
  have untouched := untouched_intercalate (segments_chars op)
  have relative : op.path.toList.dropWhile (· == '/') = op.path.toList := by
    rw [path_eq, api]
    cases rest with
    | nil => rfl
    | cons next rest =>
      rfl
  have mounted : cutPath front ≠ [] := by
    exact fun empty => splitOn_ne_nil _ _ (map_eq_nil_iff.mp empty)
  have url : segmentsOf (urlFor (normalizeBaseUrl mount.text) op.path.toList) =
      cutPath front ++ segments op := by
    rw [urlFor, relative, base, append_assoc, singleton_append, segmentsOf_eq_cutPath,
      cutPath_append_slash path, path_eq, cutPath_intercalate nonempty (segments_chars op)]
    intro _
    rw [getLast_append_right (cons_ne_nil _ _)]
    rcases mem_cons.mp (getLast_mem (cons_ne_nil '/' _)) with slash | mem
    · rw [slash]
      rfl
    · exact (untouched _ (path_eq op ▸ mem)).1
  have root : segmentsOf (normalizeBaseUrl mount.text) = cutPath front ++ [[]] := by
    rw [base, segmentsOf_eq_cutPath, cutPath_append_slash path]
    · rfl
    · intro _
      rw [getLast_append_singleton]
      rfl
  rw [target, url, tail_append_of_ne_nil mounted, removeDots_append _ _ nonempty, Mount.directory, root,
    tail_append_of_ne_nil mounted, dropLast_concat]

theorem Operation.word_ne (op : Operation) :
    ∀ part ∈ op.route, part.arg? = none → part.text ≠ "." ∧ part.text ≠ ".." := by
  cases op <;> simp [route, Part.arg?, Part.text]

theorem Operation.text_ne {op : Operation} (names : ∀ a ∈ op.arguments, a ≠ "." ∧ a ≠ "..") :
    ∀ text ∈ op.texts, text ≠ "." ∧ text ≠ ".." := by
  intro text mem
  obtain ⟨part, mem_route, rfl⟩ := mem_map.mp mem
  cases part with
  | word text => exact word_ne op _ mem_route rfl
  | arg text => exact names text (mem_filterMap.mpr ⟨_, mem_route, rfl⟩)

theorem encode_eq_dot {text : String} (dot : Utf8.encode text.toList = [46]) : text = "." :=
  String.toList_injective (encode_injective (dot.trans (by decide)))

theorem encode_eq_dotDot {text : String} (dots : Utf8.encode text.toList = [46, 46]) : text = ".." :=
  String.toList_injective (encode_injective (dots.trans (by decide)))

/-- Arguments with a name reach the server as they are. -/
theorem target_eq {op : Operation} (names : ∀ a ∈ op.arguments, a ≠ "." ∧ a ≠ "..") (mount : Mount) :
    target mount op = mount.directory ++ segments op := by
  rw [target_eq_removeDots, removeDots_of_plain]
  intro segment mem
  obtain ⟨text, mem_texts, rfl⟩ := mem_map.mp mem
  obtain ⟨notDot, notDotDot⟩ := Operation.text_ne names text mem_texts
  constructor
  · rw [isDot_iff, percentDecode_encodeText]
    exact fun dot => notDot (encode_eq_dot dot)
  · rw [isDotDot_iff, percentDecode_encodeText]
    exact fun dots => notDotDot (encode_eq_dotDot dots)

theorem map_percentDecode_segments (op : Operation) :
    (segments op).map percentDecode = op.texts.map fun text => Utf8.encode text.toList := by
  rw [segments, map_map]
  exact map_congr_left fun text _ => percentDecode_encodeText text.toList

/-- The route is read back exactly when no argument is a dot segment. -/
theorem target_faithful_iff (mount : Mount) (op : Operation) :
    Faithful mount op ↔ ∀ a ∈ op.arguments, a ≠ "." ∧ a ≠ ".." := by
  constructor
  · rintro ⟨tail, target_, decoded⟩ a mem_arguments
    have clean : ∀ segment ∈ target mount op, Plain segment := by
      rw [target_eq_removeDots]
      exact mem_removeDots _ (mem_directory _ fun _ mem => absurd mem not_mem_nil)
    -- the argument is read back from a segment that the parser left
    have mem : Utf8.encode a.toList ∈ tail.map percentDecode := by
      obtain ⟨part, mem, arg⟩ := mem_filterMap.mp mem_arguments
      rw [decoded]
      cases part with
      | word text => cases arg
      | arg text =>
        injection arg with same
        exact mem_map.mpr ⟨text, mem_map.mpr ⟨_, mem, rfl⟩, by rw [same]⟩
    obtain ⟨segment, mem, read⟩ := mem_map.mp mem
    obtain ⟨notDot, notDotDot⟩ := clean segment (target_ ▸ mem_append_right _ mem)
    constructor
    · rintro rfl
      exact notDot (isDot_iff.mpr read)
    · rintro rfl
      exact notDotDot (isDotDot_iff.mpr read)
  · intro names
    exact ⟨segments op, target_eq names mount, map_percentDecode_segments op⟩

theorem eq_of_target {mount : Mount} {op other : Operation} (faithful : Faithful mount op)
    (faithful' : Faithful mount other) (method : op.method = other.method)
    (same : target mount op = target mount other) : op = other := by
  obtain ⟨tail, target_, decoded⟩ := faithful
  obtain ⟨tail', target_', decoded'⟩ := faithful'
  rw [target_, target_', append_cancel_left_eq] at same
  have texts : op.texts = other.texts := by
    refine map_injective_iff.mpr (fun text other same => ?_) (decoded.symm.trans (same ▸ decoded'))
    exact String.toList_injective (encode_injective same)
  have found := Operation.ofRoute_texts op
  rw [method, texts, Operation.ofRoute_texts other] at found
  injection found with found
  exact found.symm

/-- Two requests go to their own targets exactly when no argument is a dot segment. -/
theorem faithful_pair_iff (mount : Mount) (op other : Operation) :
    (Faithful mount op ∧ Faithful mount other ∧
        (op.method = other.method → target mount op = target mount other → op = other)) ↔
      ∀ a ∈ op.arguments ++ other.arguments, a ≠ "." ∧ a ≠ ".." := by
  rw [List.forall_mem_append, ← target_faithful_iff mount, ← target_faithful_iff mount]
  constructor
  · rintro ⟨faithful, faithful', -⟩
    exact ⟨faithful, faithful'⟩
  · rintro ⟨faithful, faithful'⟩
    exact ⟨faithful, faithful', eq_of_target faithful faithful'⟩

/-- A server without a mount point. -/
def rootMount : Mount := ⟨[], .inl rfl, fun _ mem => absurd mem List.not_mem_nil⟩

/-- Deleting the dataset `..` is sent to the root of the API. -/
theorem escaped_target :
    ¬ Faithful rootMount (.deleteDataset "..") ∧
      target rootMount (.deleteDataset "..") = ["api".toList, []] ∧
      target rootMount (.revokeKey ".") = target rootMount (.revokeKey "") ∧
      Operation.revokeKey "." ≠ .revokeKey "" := by
  refine ⟨fun faithful => ?_, by decide, by decide, by decide⟩
  exact ((target_faithful_iff rootMount (.deleteDataset "..")).mp faithful ".." (by decide)).2 rfl

end AgentProtocols.Registry.RequestTargets
