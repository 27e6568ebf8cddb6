import AgentProtocols.Lib.Checks
import AgentProtocols.MCP.StreamableHttp

/-!
The sessions of an HTTP server.

* `openSession_get?`: a session that a request opens stays exactly when the request is admitted and
  its payload is not answered with an error status.
* `sessions_established_iff`: when the sessions in the map are all established by a handshake, at
  every point of a sequence of calls.
-/

namespace AgentProtocols.MCP.HttpSessions

open Lib OrderedMap
open MessageClassification StreamableHttp

/-! ### The manager -/

/-- What the authenticator answers. -/
structure AuthenticationResult where
  authenticated : Bool
  errorDescription : Option String

structure HttpServerConfig where
  isJsonResponseEnabled : Bool
  stateless : Bool
  authenticator : Bool
  authorizer : Bool

/-- A generated session id, the text of a UUID. -/
structure SessionId where
  text : String
  nonempty : text ≠ ""
  visible : isVisibleAscii text = true

structure HttpSessionEntry where
  transport : Transport
  /-- `session_id` of the session, which never changes. -/
  sessionId : String
  /-- The request that created the session. -/
  creator : HttpRequest

abbrev Sessions := OrderedMap String HttpSessionEntry

/-- One call of `handle_request`, with the answers that it gets from outside. -/
structure Call where
  request : HttpRequest
  authentication : AuthenticationResult
  authorized : Bool
  generated : SessionId
  streamClosed : Bool

def authError (status : Nat) (text message : String) : HttpReply :=
  .full ⟨status, [(contentType, contentTypeJson), ("x-status-text", text)],
    .json (.obj [("error", .str message)])⟩

/-- The check of the caller, at the start of `handle_request`. -/
def refuseCaller (cfg : HttpServerConfig) (call : Call) : Option HttpReply :=
  if !cfg.authenticator then none
  else if !call.authentication.authenticated then
    some (authError 401 "Unauthorized"
      (call.authentication.errorDescription.getD "Authentication failed"))
  else if cfg.authorizer && !call.authorized then
    some (authError 403 "Forbidden" "Insufficient permissions")
  else none

def internalError (e : McpError) : HttpReply :=
  .full ⟨500, [(contentType, contentTypeTextPlain)], .text ("Error: " ++ e.text)⟩

def unknownSession : HttpReply :=
  .full ⟨404, [(contentType, contentTypeJson)], .json <| .obj
    [("jsonrpc", .str JsonRpc.jsonrpcVersion), ("id", .str "server-error"),
      ("error", .obj [("code", .num (.ofI64 (-32600))),
        ("message", .str "Not Found: Invalid or expired session ID")])]⟩

/-- `new_http_session`. The session installs itself as the callback. -/
def newHttpSession (cfg : HttpServerConfig) (sessionId : String) (stateless : Bool)
    (creator : HttpRequest) : Except McpError HttpSessionEntry :=
  (Transport.new (if stateless then "" else sessionId) cfg.isJsonResponseEnabled stateless).map
    fun transport => ⟨{ transport with callback := true }, sessionId, creator⟩

section

variable (fromStr : String → Except String Json)

/-- The end of `handle_request`. The entry in the map shares the transport. -/
def serve (sessions : Sessions) (entry : HttpSessionEntry) (created : Bool) (call : Call) :
    HttpReply × Sessions :=
  let answered := entry.transport.handleRequest fromStr call.request call.streamClosed
  let sessions := sessions.insert entry.sessionId { entry with transport := answered.2 }
  if answered.2.isTerminated || (created && answered.1.rejected) then
    (answered.1, sessions.erase entry.sessionId)
  else (answered.1, sessions)

/-- `handle_request` without a session id. -/
def openSession (cfg : HttpServerConfig) (sessions : Sessions) (call : Call) :
    HttpReply × Sessions :=
  match newHttpSession cfg call.generated.text false call.request with
  | .error e => (internalError e, sessions)
  | .ok entry => serve fromStr (sessions.insert entry.sessionId entry) entry true call

/-- `ServerManager::handle_request`, on a stdio server without transport. -/
def handleRequest (config : Option HttpServerConfig) (sessions : Sessions) (call : Call) :
    HttpReply × Sessions :=
  match config with
  | none => (.full ⟨404, [], .text "Endpoint not found"⟩, sessions)
  | some cfg =>
    match refuseCaller cfg call with
    | some reply => (reply, sessions)
    | none =>
      if cfg.stateless then
        match newHttpSession cfg (requestSessionId call.request) true call.request with
        | .error e => (internalError e, sessions)
        | .ok entry =>
          ((entry.transport.handleRequest fromStr call.request call.streamClosed).1, sessions)
      else if requestSessionId call.request = "" then openSession fromStr cfg sessions call
      else
        match sessions.get? (requestSessionId call.request) with
        | some entry => serve fromStr sessions entry false call
        | none => (unknownSession, sessions)

def sessionsAfter (config : Option HttpServerConfig) (calls : List Call) : Sessions :=
  calls.foldl (fun sessions call => (handleRequest fromStr config sessions call).2) .empty

/-! ### Handshakes -/

/-- The messages that a JSON body holds. -/
def items : Json → List Json
  | .arr items => items
  | other => [other]

/-- The body holds the request, alone or in a batch. -/
def BodyHolds (body : String) (r : JsonRpc.Request) : Prop :=
  ∃ raw, fromStr body = .ok raw ∧ ∃ item ∈ items raw, classifyMessage item = .ok (.request r)

/-- The session is live, and an `initialize` request was delivered to it. -/
structure Established (entry : HttpSessionEntry) : Prop where
  live : entry.transport.isTerminated = false
  handshake : ∃ r, r.method = "initialize" ∧ BodyHolds fromStr entry.creator.body r ∧
    .request r ∈ entry.transport.delivered.map Prod.fst

/-- A call that opens a session has an `initialize` request or an error as its answer. -/
def OpensByHandshake (config : Option HttpServerConfig) (call : Call) : Prop :=
  ∀ cfg, config = some cfg → cfg.stateless = false → refuseCaller cfg call = none →
    requestSessionId call.request = "" → Admitted fromStr cfg.isJsonResponseEnabled call.request →
      Refused cfg.isJsonResponseEnabled (parsePayload fromStr call.request.body) ∨
        HoldsInitialize (parsePayload fromStr call.request.body)

end

variable {fromStr : String → Except String Json} {config : Option HttpServerConfig}
  {cfg : HttpServerConfig} {sessions : Sessions} {entry : HttpSessionEntry} {call : Call}

theorem bodyHolds_of_mem {body : String} {p : IncomingPayload} {r : JsonRpc.Request}
    (parsed : parsePayload fromStr body = .ok p) (mem : .request r ∈ p.messages) :
    BodyHolds fromStr body r := by
  unfold parsePayload at parsed
  split at parsed
  · cases parsed
  rename_i raw isRaw
  refine ⟨raw, isRaw, ?_⟩
  have alone : ∀ {value : Json}, (classifyMessage value).map .single = .ok p →
      classifyMessage value = .ok (.request r) := by
    intro value given
    cases classified : classifyMessage value with
    | error e =>
      rw [classified] at given
      cases given
    | ok m =>
      rw [classified] at given
      cases given
      rw [List.mem_singleton.mp mem]
  cases raw with
  | arr values =>
    rw [payloadOfValue] at parsed
    split at parsed
    · cases parsed
    cases read : values.mapM classifyMessage with
    | error e =>
      rw [read] at parsed
      cases parsed
    | ok messages =>
      rw [read] at parsed
      cases parsed
      exact mem_of_mapM read mem
  | null | bool | num | str | obj => exact ⟨_, List.mem_singleton_self _, alone parsed⟩

/-! ### One call -/

theorem newHttpSession_generated (cfg : HttpServerConfig) (id : SessionId) (creator : HttpRequest) :
    ∃ transport, newHttpSession cfg id.text false creator = .ok ⟨transport, id.text, creator⟩ ∧
      transport.Fresh cfg.isJsonResponseEnabled := by
  have visible : (id.text ≠ "" && !isVisibleAscii id.text) = false := by
    rw [id.visible, Bool.not_true, Bool.and_false]
  unfold newHttpSession Transport.new
  rw [if_neg Bool.false_ne_true, if_neg (by rw [visible]; exact Bool.false_ne_true)]
  exact ⟨_, rfl, ⟨id.nonempty, rfl, rfl, rfl, rfl, rfl⟩⟩

theorem serve_get? (created : Bool) (id : String) :
    (serve fromStr sessions entry created call).2.get? id =
      if id = entry.sessionId then
        if (entry.transport.handleRequest fromStr call.request call.streamClosed).2.isTerminated ||
          (created &&
            (entry.transport.handleRequest fromStr call.request call.streamClosed).1.rejected)
        then none
        else some { entry with transport :=
          (entry.transport.handleRequest fromStr call.request call.streamClosed).2 }
      else sessions.get? id := by
  dsimp only [serve]
  by_cases own : id = entry.sessionId
  · rw [if_pos own, own]
    split
    · exact get?_erase_self
    · exact get?_insert_self
  · split
    · rw [get?_erase_of_ne own, get?_insert_of_ne own]
    · rw [get?_insert_of_ne own]

/-- A session stays exactly when its request is admitted and not answered with an error. -/
theorem openSession_get? (fromStr : String → Except String Json) (cfg : HttpServerConfig)
    (sessions : Sessions) (noId : requestSessionId call.request = "") :
    (∀ id, id ≠ call.generated.text →
        (openSession fromStr cfg sessions call).2.get? id = sessions.get? id) ∧
      (Admitted fromStr cfg.isJsonResponseEnabled call.request ∧
          ¬ Refused cfg.isJsonResponseEnabled (parsePayload fromStr call.request.body) →
        ∃ transport, (openSession fromStr cfg sessions call).2.get? call.generated.text =
            some ⟨transport, call.generated.text, call.request⟩ ∧
          transport.isTerminated = false ∧
          ∀ r, .request r ∈ transport.delivered.map Prod.fst ↔
            ∃ p, parsePayload fromStr call.request.body = .ok p ∧ .request r ∈ p.messages) ∧
      (¬ (Admitted fromStr cfg.isJsonResponseEnabled call.request ∧
          ¬ Refused cfg.isJsonResponseEnabled (parsePayload fromStr call.request.body)) →
        (openSession fromStr cfg sessions call).2.get? call.generated.text = none) := by
  obtain ⟨t, made, fresh⟩ := newHttpSession_generated cfg call.generated call.request
  have opened : openSession fromStr cfg sessions call =
      serve fromStr (sessions.insert call.generated.text ⟨t, call.generated.text, call.request⟩)
        ⟨t, call.generated.text, call.request⟩ true call := by
    rw [openSession, made]
  rw [opened]
  refine ⟨fun id other => ?_, ?_⟩
  · rw [serve_get?, if_neg other, get?_insert_of_ne other]
  rw [serve_get?, if_pos rfl, Bool.true_and]
  rcases Transport.handleRequest_fresh fromStr fresh noId call.streamClosed with
    ⟨admitted, answered⟩ | ⟨unadmitted, rejected⟩
  · obtain ⟨rejected_iff, live, handed⟩ :=
      Transport.answerPayload_fresh fresh (parsePayload fromStr call.request.body)
    rw [answered, live, Bool.false_or]
    refine ⟨fun stays => ?_, fun leaves => ?_⟩
    · rw [if_neg fun rejected => stays.2 (rejected_iff.mp rejected)]
      exact ⟨_, rfl, live, handed⟩
    · have refused := not_not.mp fun kept => leaves ⟨admitted, kept⟩
      rw [if_pos (rejected_iff.mpr refused)]
  · rw [rejected, Bool.or_true]
    exact ⟨fun stays => absurd stays.1 unadmitted, fun _ => rfl⟩

theorem Established.serve (established : Established fromStr entry)
    (live : (entry.transport.handleRequest fromStr call.request call.streamClosed).2.isTerminated =
      false) :
    Established fromStr { entry with transport :=
      (entry.transport.handleRequest fromStr call.request call.streamClosed).2 } := by
  obtain ⟨-, r, named, held, delivered⟩ := established
  obtain ⟨more, grown⟩ :=
    entry.transport.handleRequest_delivered fromStr call.request call.streamClosed
  refine ⟨live, r, named, held, ?_⟩
  rw [← grown, List.map_append]
  exact List.mem_append_left _ delivered

/-! ### Sequences of calls -/

/-- Every session is stored under its id and established by a handshake. -/
def Sound (fromStr : String → Except String Json) (sessions : Sessions) : Prop :=
  ∀ id entry, sessions.get? id = some entry → entry.sessionId = id ∧ Established fromStr entry

theorem Sound.serve (sound : Sound fromStr sessions)
    (found : sessions.get? (requestSessionId call.request) = some entry) :
    Sound fromStr (serve fromStr sessions entry false call).2 := by
  intro id entry' at_id
  obtain ⟨ownId, established⟩ := sound _ _ found
  rw [serve_get?] at at_id
  split at at_id
  · rename_i own
    split at at_id
    · cases at_id
    · rename_i stays
      cases at_id
      rw [Bool.false_and, Bool.or_false, Bool.not_eq_true] at stays
      exact ⟨own.symm, established.serve stays⟩
  · exact sound id entry' at_id

/-- A call that opens a session only by a handshake keeps every session
established. -/
theorem Sound.handleRequest (sound : Sound fromStr sessions)
    (handshake : OpensByHandshake fromStr config call) :
    Sound fromStr (handleRequest fromStr config sessions call).2 := by
  unfold HttpSessions.handleRequest
  cases config with
  | none => exact sound
  | some cfg =>
    dsimp only
    split
    · exact sound
    rename_i callerPasses
    split
    · split
      · exact sound
      · exact sound
    rename_i stateful
    rw [Bool.not_eq_true] at stateful
    split
    · rename_i noId
      obtain ⟨others, stays, leaves⟩ :=
        openSession_get? fromStr cfg sessions noId
      intro id entry at_id
      by_cases own : id = call.generated.text
      · subst own
        by_cases kept : Admitted fromStr cfg.isJsonResponseEnabled call.request ∧
            ¬ Refused cfg.isJsonResponseEnabled (parsePayload fromStr call.request.body)
        · obtain ⟨transport, stored, live, handed⟩ := stays kept
          rw [stored] at at_id
          cases at_id
          obtain ⟨p, r, parsed, mem, named⟩ :=
            (handshake cfg rfl stateful callerPasses noId kept.1).resolve_left kept.2
          exact ⟨rfl, live, r, named, bodyHolds_of_mem parsed mem, (handed r).mpr ⟨p, parsed, mem⟩⟩
        · rw [leaves kept] at at_id
          cases at_id
      · rw [others id own] at at_id
        exact sound id entry at_id
    · split
      · rename_i found
        exact sound.serve found
      · exact sound

theorem not_established_of_not_opensByHandshake (sessions : Sessions)
    (leak : ¬ OpensByHandshake fromStr config call) :
    ∃ entry, (handleRequest fromStr config sessions call).2.get? call.generated.text = some entry ∧
        ¬ Established fromStr entry := by
  simp only [OpensByHandshake, not_forall, not_or] at leak
  obtain ⟨cfg, rfl, stateful, callerPasses, noId, admitted, kept, noHandshake⟩ := leak
  obtain ⟨-, stays, -⟩ :=
    openSession_get? fromStr cfg sessions noId
  obtain ⟨transport, stored, -, handed⟩ := stays ⟨admitted, kept⟩
  refine ⟨⟨transport, call.generated.text, call.request⟩, ?_, fun established => ?_⟩
  · unfold handleRequest
    dsimp only
    rw [callerPasses, stateful]
    rw [if_pos noId]
    exact stored
  · obtain ⟨-, r, named, -, delivered⟩ := established
    obtain ⟨p, parsed, mem⟩ := (handed r).mp delivered
    exact noHandshake ⟨p, r, parsed, mem, named⟩

theorem sessionsAfter_concat (calls : List Call) :
    sessionsAfter fromStr config (calls ++ [call]) =
      (handleRequest fromStr config (sessionsAfter fromStr config calls) call).2 := by
  rw [sessionsAfter, List.foldl_append]
  rfl

theorem sound_sessionsAfter {calls : List Call}
    (handshakes : ∀ call ∈ calls, OpensByHandshake fromStr config call) :
    Sound fromStr (sessionsAfter fromStr config calls) := by
  induction calls using List.reverseRecOn with
  | nil => exact forall_get?_empty
  | append_singleton calls call ih =>
    rw [sessionsAfter_concat]
    exact (ih fun c mem => handshakes c (List.mem_append_left _ mem)).handleRequest
      (handshakes call (List.mem_append_right _ (List.mem_singleton_self call)))

/-- All sessions are established exactly when every call opens them by a handshake. -/
theorem sessions_established_iff (fromStr : String → Except String Json)
    (config : Option HttpServerConfig) (calls : List Call) :
    (∀ seen, seen <+: calls → ∀ id entry,
        (sessionsAfter fromStr config seen).get? id = some entry → Established fromStr entry) ↔
      ∀ call ∈ calls, OpensByHandshake fromStr config call := by
  constructor
  · intro established call mem
    by_contra leak
    obtain ⟨before, rest, rfl⟩ := List.append_of_mem mem
    obtain ⟨entry, stored, open_⟩ := not_established_of_not_opensByHandshake
      (sessionsAfter fromStr config before) leak
    refine open_ (established (before ++ [call]) ⟨rest, ?_⟩ call.generated.text entry ?_)
    · rw [List.append_assoc, List.singleton_append]
    · rw [sessionsAfter_concat]
      exact stored
  · intro handshakes seen isSeen id entry at_id
    exact (sound_sessionsAfter (fun call mem => handshakes call (isSeen.subset mem)) id entry at_id).2

namespace Unanswerable

def server : HttpServerConfig := ⟨true, false, false, false⟩

/-- An `initialize` without an id, and one with an object as its id. -/
def idLess : String := "\x7b\"jsonrpc\":\"2.0\",\"method\":\"initialize\"\x7d"

def objectId : String := "\x7b\"jsonrpc\":\"2.0\",\"id\":\x7b\x7d,\"method\":\"initialize\"\x7d"

/-- The JSON values of the two bodies. -/
def readBody (text : String) : Except String Json :=
  if text = idLess then .ok (.obj [("jsonrpc", .str "2.0"), ("method", .str "initialize")])
  else if text = objectId then
    .ok (.obj [("jsonrpc", .str "2.0"), ("id", .obj []), ("method", .str "initialize")])
  else .error "expected value"

def post (body : String) : Call where
  request := ⟨"POST", ⟨[("accept", "application/json"), ("content-type", "application/json")],
    by decide⟩, body⟩
  authentication := ⟨true, none⟩
  authorized := true
  generated := ⟨"2d931510-d99f-494a-8c67-87feb05e1594", by decide, by decide⟩
  streamClosed := false

/-- A session that was opened without a handshake is left in the map. -/
def Leaks (body : String) : Prop :=
  ∃ entry, (sessionsAfter readBody (some server) [post body]).get? (post body).generated.text =
    some entry ∧ ¬ Established readBody entry

theorem leaks_of_payload {body : String} (admitted : Admitted readBody true (post body).request)
    (kept : ¬ Refused true (parsePayload readBody body))
    (none_held : ¬ HoldsInitialize (parsePayload readBody body)) : Leaks body :=
  not_established_of_not_opensByHandshake .empty fun handshake =>
    (handshake server rfl rfl rfl rfl admitted).elim kept none_held

theorem idLess_leaks : Leaks idLess ∧ Leaks objectId := by
  constructor
  · refine leaks_of_payload ⟨rfl, by decide, .inl rfl, by decide, ⟨_, rfl, by decide⟩, by decide⟩
      id ?_
    rintro ⟨p, r, parsed, mem, -⟩
    cases parsed
    cases List.mem_singleton.mp mem
  · refine leaks_of_payload ⟨rfl, by decide, .inl rfl, by decide, ⟨_, rfl, by decide⟩, by decide⟩
      (fun refused => by cases refused.2) ?_
    rintro ⟨p, r, parsed, -, -⟩
    cases parsed

end Unanswerable

end AgentProtocols.MCP.HttpSessions
