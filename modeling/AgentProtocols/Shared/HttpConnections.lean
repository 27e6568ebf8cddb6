import AgentProtocols.Lib.Runs
import AgentProtocols.Shared.HttpResponse

/-!
The connections of the C++ HTTP servers, kept by descriptor, which the kernel may give to another.
Every byte is tagged with the connection on which the request it answers was read.

* `HttpServer.Sound.step` — as long as no descriptor is given away before an answer for it is
  written, every byte is on the connection it is for.
* `answers_reach_asker` — in every such run every byte goes to the connection of its request.
* `answer_reaches_stranger` — a run in which an answer goes to another client.
-/

namespace AgentProtocols.Shared

open Lib List

/-- A `TcpSocket`: its descriptor, the bytes that wait, and those the kernel has taken. -/
structure Socket where
  fd : Nat
  isOpen : Bool := true
  outBuf : List (Char × Nat) := []
  wire : List (Char × Nat) := []
deriving DecidableEq

/-- `ConnectionContext`: its socket, and whether chunked coding was switched on. -/
structure ConnectionContext where
  socket : Nat
  sseChunked : Bool := false
deriving DecidableEq

/-- The context that `HandleRequest` builds, with the socket of the request. -/
structure HttpRequestContext where
  connectionId : Nat
  reader : Nat
deriving DecidableEq

/-- What `SendResponseAsync` queues. `asker` records the socket of the request. -/
structure ResponseTask where
  connectionId : Nat
  response : HttpResponse
  asker : Nat
deriving DecidableEq

/-- The bytes of one `TcpSocket::Send`, and how many the kernel takes; `none` is an error. -/
abbrev Piece := Text × Option Nat

/-- The handler returns, or a response is written at once. -/
inductive Handling where
  | routed
  | threw (response : HttpResponse) (pieces : Option (List Piece))
  | rejected (response : HttpResponse) (pieces : Option (List Piece))

/-- The server: its sockets, `connections_`, the contexts that may be answered, and
the task queue. -/
structure HttpServer where
  sdk : Sdk
  tls : Bool
  sockets : List Socket := []
  connections : Nat → Option ConnectionContext := fun _ => none
  contexts : List HttpRequestContext := []
  tasks : List ResponseTask := []

inductive ServerLabel where
  | accept (fd : Nat) (registered : Bool)
  | request (k : Nat) (handling : Handling)
  | respond (x : Nat) (response : HttpResponse)
  | run (pieces : Option (List Piece))
  | writable (k n : Nat)
  | hangUp (k : Nat)
  | fail (k : Nat)

namespace HttpServer

/-! ### Connections -/

/-- The socket exists and is not closed. -/
def alive (h : HttpServer) (k : Nat) : Bool := h.sockets[k]?.any (·.isOpen)

def close (h : HttpServer) (k : Nat) : HttpServer :=
  { h with sockets := h.sockets.modify k fun s => { s with isOpen := false } }

def cleanupConnection (h : HttpServer) (fd : Nat) : HttpServer :=
  match h.connections fd with
  | none => h
  | some e => { h with connections := fun j => if j = fd then none else h.connections j }.close e.socket

/-- `HandleClose`: the A2A server searches for the socket, the MCP server leaves its entry. -/
def handleClose (h : HttpServer) (k : Nat) : HttpServer :=
  match h.sdk with
  | .a2a => { h with connections := fun j => (h.connections j).filter (·.socket ≠ k) }
  | .mcp => h

def handleNewConnection (h : HttpServer) (fd : Nat) (registered : Bool) : HttpServer :=
  if registered then
    { h with
      sockets := h.sockets ++ [{ fd := fd }]
      connections := fun j => if j = fd then some ⟨h.sockets.length, false⟩ else h.connections j }
  else { h with sockets := h.sockets ++ [{ fd := fd, isOpen := false }] }

/-! ### Writing -/

def setSocket (h : HttpServer) (k : Nat) (s : Socket) : HttpServer :=
  { h with sockets := h.sockets.set k s }

/-- The bytes of a response, tagged. -/
def tagged (asker : Nat) (data : Text) : List (Char × Nat) := data.map fun c => (c, asker)

/-- `TcpSocket::Send`. An error closes the connection. -/
def send (h : HttpServer) (k asker : Nat) (piece : Piece) : HttpServer × Bool :=
  match h.sockets[k]? with
  | none => (h, false)
  | some s =>
    let data := tagged asker piece.1
    if s.isOpen = false then (h, false)
    else if data = [] then (h, true)
    else if s.outBuf ≠ [] then
      (h.setSocket k { s with outBuf := s.outBuf ++ data }, true)
    else
      match piece.2 with
      | some n =>
        (h.setSocket k { s with wire := s.wire ++ data.take n, outBuf := data.drop n }, true)
      | none => ((h.cleanupConnection s.fd).close k, false)

/-- The pieces of a response, one after the other. -/
def sendPieces (h : HttpServer) (fd k asker : Nat) : List Piece → HttpServer
  | [] => h
  | piece :: pieces =>
    if (h.send k asker piece).2 then sendPieces (h.send k asker piece).1 fd k asker pieces
    else (h.send k asker piece).1.cleanupConnection fd

/-- `SendRawResponse`. With TLS the pieces are what OpenSSL makes of the response. -/
def sendRawResponse (h : HttpServer) (fd asker : Nat) (response : Text)
    (pieces : Option (List Piece)) : Option HttpServer :=
  match h.connections fd with
  | none => some h
  | some e =>
    match pieces with
    | some ps =>
      if h.tls ∨ ps.map Prod.fst = [response] then some (h.sendPieces fd e.socket asker ps) else none
    | none => if h.tls then some (h.cleanupConnection fd) else none

def sendResponse (h : HttpServer) (t : ResponseTask) (pieces : Option (List Piece)) :
    Option HttpServer :=
  match h.connections t.connectionId with
  | none => some h
  | some e =>
    let raw := rawResponse h.sdk t.response e.sseChunked
    { h with connections := fun j =>
        if j = t.connectionId then some { e with sseChunked := raw.2 } else h.connections j
      }.sendRawResponse t.connectionId t.asker raw.1 pieces

/-- `HandleRequest`, for a request read on the socket `k`. -/
def handleRequest (h : HttpServer) (fd k : Nat) : Handling → Option HttpServer
  | .routed => some { h with contexts := h.contexts ++ [⟨fd, k⟩] }
  | .threw response pieces =>
    ({ h with contexts := h.contexts ++ [⟨fd, k⟩] } : HttpServer).sendRawResponse fd k
      (buildHttpResponse response) pieces
  | .rejected response pieces => h.sendRawResponse fd k (buildHttpResponse response) pieces

def step (h : HttpServer) : ServerLabel → Option HttpServer
  | .accept fd registered =>
    -- the kernel does not give away a descriptor that is in use
    if h.sockets.any fun s => s.isOpen ∧ s.fd = fd then none
    else some (h.handleNewConnection fd registered)
  | .request k handling => do
    let s ← h.sockets[k]?
    if s.isOpen ∧ (h.connections s.fd).isSome then h.handleRequest s.fd k handling else none
  | .respond x response => do
    let ctx ← h.contexts[x]?
    pure { h with tasks := h.tasks ++ [⟨ctx.connectionId, response, ctx.reader⟩] }
  | .run pieces =>
    match h.tasks with
    | [] => none
    | t :: rest => { h with tasks := rest }.sendResponse t pieces
  | .writable k n => do
    let s ← h.sockets[k]?
    if s.isOpen then
      some (h.setSocket k
        { s with wire := s.wire ++ s.outBuf.take n, outBuf := s.outBuf.drop n })
    else none
  | .hangUp k => if h.alive k then some ((h.close k).handleClose k) else none
  | .fail k => do
    let s ← h.sockets[k]?
    if s.isOpen then some ((h.cleanupConnection s.fd).close k) else none

/-- No descriptor is given away, or belongs to another, while an answer for it is under way. -/
def proper (h : HttpServer) : ServerLabel → Bool
  | .accept fd _ => h.tasks.all fun t => t.connectionId ≠ fd
  | .respond x _ => h.contexts[x]?.all fun ctx =>
    (h.connections ctx.connectionId).all fun e => e.socket = ctx.reader || !h.alive e.socket
  | _ => true

variable {h h' h'' : HttpServer} {l : ServerLabel} {ls ms : List ServerLabel} {k fd asker : Nat}

/-! ### Closed sockets stay as they are -/

/-- Every socket is still there, and a closed one has not been written to. -/
def Grows (h h' : HttpServer) : Prop :=
  ∀ (k : Nat) (s : Socket), h.sockets[k]? = some s →
    ∃ s', h'.sockets[k]? = some s' ∧ (s.isOpen = false → s'.isOpen = false ∧ s'.wire = s.wire)

theorem Grows.of_eq (same : h'.sockets = h.sockets) : Grows h h' := by
  intro k s found
  exact ⟨s, same ▸ found, fun closed => ⟨closed, rfl⟩⟩

theorem Grows.trans (first : Grows h h') (second : Grows h' h'') : Grows h h'' := by
  intro k s found
  obtain ⟨s', found', kept⟩ := first k s found
  obtain ⟨s'', found'', kept'⟩ := second k s' found'
  refine ⟨s'', found'', fun closed => ?_⟩
  obtain ⟨closed', same⟩ := kept closed
  obtain ⟨closed'', same'⟩ := kept' closed'
  exact ⟨closed'', same'.trans same⟩

variable {pieces : Option (List Piece)} {s : Socket}

theorem grows_setSocket {s' : Socket} (found : h.sockets[k]? = some s) (alive : s.isOpen = true) :
    Grows h (h.setSocket k s') := by
  intro j t at_j
  by_cases same : j = k
  · subst same
    rw [found] at at_j
    cases at_j
    refine ⟨s', ?_, fun closed => by rw [alive] at closed; cases closed⟩
    obtain ⟨below, -⟩ := List.getElem?_eq_some_iff.mp found
    exact List.getElem?_set_self below
  · exact ⟨t, (List.getElem?_set_ne (Ne.symm same)).trans at_j, fun closed => ⟨closed, rfl⟩⟩

theorem getElem?_close (h : HttpServer) (k j : Nat) : (h.close k).sockets[j]? =
    (h.sockets[j]?).map fun s => if k = j then { s with isOpen := false } else s := by
  rw [close, getElem?_modify]
  rfl

theorem grows_close (h : HttpServer) (k : Nat) : Grows h (h.close k) := by
  intro j s found
  rw [getElem?_close, found]
  refine ⟨_, rfl, fun closed => ?_⟩
  split
  · exact ⟨rfl, rfl⟩
  · exact ⟨closed, rfl⟩

theorem grows_cleanupConnection (h : HttpServer) (fd : Nat) : Grows h (h.cleanupConnection fd) := by
  rw [cleanupConnection]
  split
  · exact .of_eq rfl
  · exact (Grows.of_eq rfl).trans (grows_close _ _)

theorem grows_handleClose (h : HttpServer) (k : Nat) : Grows h (h.handleClose k) := by
  rw [handleClose]
  split <;> exact .of_eq rfl

theorem grows_handleNewConnection (h : HttpServer) (fd : Nat) (registered : Bool) :
    Grows h (h.handleNewConnection fd registered) := by
  have old : ∀ (s' : Socket) (k : Nat) (s : Socket), h.sockets[k]? = some s →
      (h.sockets ++ [s'])[k]? = some s := by
    intro s' k s found
    obtain ⟨below, -⟩ := List.getElem?_eq_some_iff.mp found
    rw [List.getElem?_append_left below]
    exact found
  intro k s found
  rw [handleNewConnection]
  split
  · exact ⟨s, old _ k s found, fun closed => ⟨closed, rfl⟩⟩
  · exact ⟨s, old _ k s found, fun closed => ⟨closed, rfl⟩⟩

theorem grows_send (h : HttpServer) (k asker : Nat) (piece : Piece) :
    Grows h (h.send k asker piece).1 := by
  rw [send]
  split
  · exact .of_eq rfl
  · rename_i s found
    dsimp only
    split
    · exact .of_eq rfl
    · rename_i alive
      rw [Bool.not_eq_false] at alive
      split
      · exact .of_eq rfl
      · split
        · exact grows_setSocket found alive
        · split
          · exact grows_setSocket found alive
          · exact (grows_cleanupConnection _ _).trans (grows_close _ _)

theorem grows_sendPieces (fd k asker : Nat) :
    ∀ (pieces : List Piece) (h : HttpServer), Grows h (h.sendPieces fd k asker pieces)
  | [], _ => .of_eq rfl
  | piece :: pieces, h => by
    rw [sendPieces]
    split
    · exact (grows_send h k asker piece).trans (grows_sendPieces fd k asker pieces _)
    · exact (grows_send h k asker piece).trans (grows_cleanupConnection _ _)

theorem grows_sendRawResponse {response : Text}
    (sent : h.sendRawResponse fd asker response pieces = some h') : Grows h h' := by
  rw [sendRawResponse] at sent
  split at sent
  · cases sent
    exact .of_eq rfl
  · split at sent
    · split at sent
      · cases sent
        exact grows_sendPieces _ _ _ _ _
      · cases sent
    · split at sent
      · cases sent
        exact grows_cleanupConnection _ _
      · cases sent

theorem grows_step (stepped : h.step l = some h') : Grows h h' := by
  cases l with
  | accept fd registered =>
    rw [step] at stepped
    split at stepped
    · cases stepped
    · cases stepped
      exact grows_handleNewConnection _ _ _
  | request k handling =>
    simp only [step, bind_eq_some] at stepped
    obtain ⟨s, -, stepped⟩ := stepped
    split at stepped
    · cases handling with
      | routed =>
        cases stepped
        exact .of_eq rfl
      | threw response pieces =>
        have sent := grows_sendRawResponse stepped
        exact sent
      | rejected response pieces => exact grows_sendRawResponse stepped
    · cases stepped
  | respond x response =>
    simp only [step, bind_eq_some] at stepped
    obtain ⟨ctx, -, stepped⟩ := stepped
    cases stepped
    exact .of_eq rfl
  | run pieces =>
    rw [step] at stepped
    split at stepped
    · cases stepped
    · rw [sendResponse] at stepped
      split at stepped
      · cases stepped
        exact .of_eq rfl
      · have sent := grows_sendRawResponse stepped
        exact sent
  | writable k n =>
    simp only [step, bind_eq_some] at stepped
    obtain ⟨s, found, stepped⟩ := stepped
    split at stepped
    · rename_i alive
      cases stepped
      exact grows_setSocket found alive
    · cases stepped
  | hangUp k =>
    rw [step] at stepped
    split at stepped
    · cases stepped
      exact (grows_close h k).trans (grows_handleClose _ _)
    · cases stepped
  | fail k =>
    simp only [step, bind_eq_some] at stepped
    obtain ⟨s, -, stepped⟩ := stepped
    split at stepped
    · cases stepped
      exact (grows_cleanupConnection _ _).trans (grows_close _ _)
    · cases stepped

theorem grows_run (run : Run (Steps step) h ls h') : Grows h h' := by
  induction run with
  | nil h => exact .of_eq rfl
  | cons stepped rest ih => exact (grows_step stepped).trans ih

/-! ### The invariant -/

def Closed (h : HttpServer) (k : Nat) : Prop :=
  ∃ s, h.sockets[k]? = some s ∧ s.isOpen = false

/-- What holds as long as no descriptor with an answer under way is given away. -/
structure Sound (h : HttpServer) : Prop where
  /-- an entry is for a socket that was given its descriptor -/
  entries : ∀ (fd : Nat) (e : ConnectionContext), h.connections fd = some e →
    ∃ s, h.sockets[e.socket]? = some s ∧ s.fd = fd
  /-- an open socket has the entry of its descriptor -/
  registered : ∀ (k : Nat) (s : Socket), h.sockets[k]? = some s → s.isOpen = true →
    ∃ e, h.connections s.fd = some e ∧ e.socket = k
  tags : ∀ (k : Nat) (s : Socket) (b : Char × Nat), h.sockets[k]? = some s →
    b ∈ s.wire ++ s.outBuf → b.2 = k
  /-- a queued answer is for the connection that its descriptor belongs to, if for any -/
  queued : ∀ t ∈ h.tasks, ∀ e, h.connections t.connectionId = some e →
    e.socket = t.asker ∨ h.Closed e.socket

theorem sound_start (sdk : Sdk) (tls : Bool) : ({ sdk := sdk, tls := tls } : HttpServer).Sound where
  entries _ _ found := by cases found
  registered _ _ found := by cases found
  tags _ _ _ found := by cases found
  queued _ mem := by cases mem

theorem Closed.grows (closed : h.Closed k) (grows : Grows h h') : h'.Closed k := by
  obtain ⟨s, found, dead⟩ := closed
  obtain ⟨s', found', kept⟩ := grows k s found
  exact ⟨s', found', (kept dead).1⟩

variable (sound : h.Sound)

include sound

theorem Sound.of_tasks {tasks : List ResponseTask} {contexts : List HttpRequestContext}
    (queued : ∀ t ∈ tasks, ∀ e, h.connections t.connectionId = some e →
      e.socket = t.asker ∨ h.Closed e.socket) :
    ({ h with tasks := tasks, contexts := contexts } : HttpServer).Sound :=
  ⟨sound.entries, sound.registered, sound.tags, queued⟩

theorem Sound.setSocket {s' : Socket} (found : h.sockets[k]? = some s)
    (fd : s'.fd = s.fd) (alive : s.isOpen = true) (tags : ∀ b ∈ s'.wire ++ s'.outBuf, b.2 = k) :
    (h.setSocket k s').Sound := by
  have grows : Grows h (h.setSocket k s') := grows_setSocket found alive
  have at_k : (h.setSocket k s').sockets[k]? = some s' := by
    obtain ⟨below, -⟩ := List.getElem?_eq_some_iff.mp found
    exact List.getElem?_set_self below
  constructor
  · intro j e entry
    obtain ⟨t, at_t, same⟩ := sound.entries j e entry
    by_cases here : e.socket = k
    · rw [here, found] at at_t
      cases at_t
      exact ⟨s', here ▸ at_k, fd.trans same⟩
    · exact ⟨t, (List.getElem?_set_ne (Ne.symm here)).trans at_t, same⟩
  · intro j t at_j open_
    rcases getElem?_set_cases at_j with ⟨rfl, rfl⟩ | ⟨-, old⟩
    · rw [fd]
      exact sound.registered j s found alive
    · exact sound.registered j t old open_
  · intro j t b at_j mem
    rcases getElem?_set_cases at_j with ⟨rfl, rfl⟩ | ⟨-, old⟩
    · exact tags b mem
    · exact sound.tags j t b old mem
  · intro t mem e entry
    exact (sound.queued t mem e entry).imp id fun closed => closed.grows grows

/-- A socket is closed and entries go, none of them of another open socket. -/
theorem Sound.close_of (connections : Nat → Option ConnectionContext) (k : Nat)
    (fewer : ∀ fd e, connections fd = some e → h.connections fd = some e)
    (kept : ∀ fd e, h.connections fd = some e → e.socket ≠ k → h.alive e.socket = true →
      connections fd = some e) :
    (({ h with connections := connections } : HttpServer).close k).Sound := by
  have grows : Grows h (({ h with connections := connections } : HttpServer).close k) :=
    (grows_close ({ h with connections := connections } : HttpServer) k :)
  -- a socket afterwards, and what it was
  have before : ∀ (j : Nat) (t : Socket),
      (({ h with connections := connections } : HttpServer).close k).sockets[j]? = some t →
      ∃ s, h.sockets[j]? = some s ∧ t.fd = s.fd ∧ t.wire = s.wire ∧ t.outBuf = s.outBuf ∧
        (t.isOpen = true → s.isOpen = true ∧ j ≠ k) := by
    intro j t at_j
    rw [getElem?_close] at at_j
    obtain ⟨s, found, rfl⟩ := Option.map_eq_some_iff.mp at_j
    refine ⟨s, found, ?_⟩
    split
    · exact ⟨rfl, rfl, rfl, nofun⟩
    · rename_i other
      exact ⟨rfl, rfl, rfl, fun open_ => ⟨open_, Ne.symm other⟩⟩
  constructor
  · intro fd e entry
    obtain ⟨s, found, same⟩ := sound.entries fd e (fewer fd e entry)
    rw [getElem?_close]
    refine ⟨_, congrArg _ found, ?_⟩
    split <;> exact same
  · intro j t at_j open_
    obtain ⟨s, found, fd, -, -, was⟩ := before j t at_j
    obtain ⟨alive, other⟩ := was open_
    obtain ⟨e, entry, rfl⟩ := sound.registered j s found alive
    rw [fd]
    refine ⟨e, kept s.fd e entry other ?_, rfl⟩
    rw [HttpServer.alive, found]
    exact alive
  · intro j t b at_j mem
    obtain ⟨s, found, -, wire, outBuf, -⟩ := before j t at_j
    rw [wire, outBuf] at mem
    exact sound.tags j s b found mem
  · intro t mem e entry
    exact (sound.queued t mem e (fewer _ e entry)).imp id fun closed => closed.grows grows

theorem Sound.close (k : Nat) : (h.close k).Sound :=
  sound.close_of h.connections k (fun _ _ entry => entry) fun _ _ entry _ _ => entry

theorem Sound.cleanupConnection (fd : Nat) : (h.cleanupConnection fd).Sound := by
  rw [HttpServer.cleanupConnection]
  split
  · exact sound
  · rename_i e found
    refine sound.close_of _ e.socket ?_ ?_
    · intro j e' entry
      split at entry
      · cases entry
      · exact entry
    · intro j e' entry other _
      have ne : j ≠ fd := by
        rintro rfl
        rw [found] at entry
        cases entry
        exact other rfl
      rw [if_neg ne]
      exact entry

theorem Sound.hangUp (k : Nat) : ((h.close k).handleClose k).Sound := by
  rw [handleClose]
  split
  · refine sound.close_of (fun j => (h.connections j).filter (·.socket ≠ k)) k ?_ ?_
    · intro fd e entry
      exact (Option.filter_eq_some_iff.mp entry).1
    · intro fd e entry other _
      exact Option.filter_eq_some_iff.mpr ⟨entry, by simpa using other⟩
  · exact sound.close k

/-- A connection whose descriptor no queued answer names is accepted. -/
theorem Sound.handleNewConnection (registered : Bool)
    (free : ∀ s ∈ h.sockets, s.isOpen = true → s.fd ≠ fd)
    (unnamed : ∀ t ∈ h.tasks, t.connectionId ≠ fd) : (h.handleNewConnection fd registered).Sound := by
  have grows := grows_handleNewConnection h fd registered
  rw [HttpServer.handleNewConnection] at grows ⊢
  have kept : ∀ (s' : Socket) (k : Nat) (s : Socket), h.sockets[k]? = some s →
      (h.sockets ++ [s'])[k]? = some s := by
    intro s' k s found
    obtain ⟨below, -⟩ := List.getElem?_eq_some_iff.mp found
    rw [List.getElem?_append_left below]
    exact found
  split
  · rename_i on
    rw [if_pos on] at grows
    constructor
    · intro j e entry
      dsimp only at entry
      split at entry
      · rename_i same
        cases entry
        exact ⟨_, List.getElem?_concat_length, same.symm⟩
      · obtain ⟨s, found, same⟩ := sound.entries j e entry
        exact ⟨s, kept _ _ s found, same⟩
    · intro k s at_k open_
      rcases getElem?_concat_cases at_k with old | ⟨rfl, rfl⟩
      · obtain ⟨e, entry, same⟩ := sound.registered k s old open_
        have ne := free s (List.mem_of_getElem? old) open_
        exact ⟨e, (if_neg ne).trans entry, same⟩
      · exact ⟨_, if_pos rfl, rfl⟩
    · intro k s b at_k mem
      rcases getElem?_concat_cases at_k with old | ⟨-, rfl⟩
      · exact sound.tags k s b old mem
      · cases mem
    · intro t mem e entry
      dsimp only at entry
      rw [if_neg (unnamed t mem)] at entry
      exact (sound.queued t mem e entry).imp id fun closed => closed.grows grows
  · rename_i off
    rw [if_neg off] at grows
    constructor
    · intro j e entry
      obtain ⟨s, found, same⟩ := sound.entries j e entry
      exact ⟨s, kept _ _ s found, same⟩
    · intro k s at_k open_
      rcases getElem?_concat_cases at_k with old | ⟨-, rfl⟩
      · exact sound.registered k s old open_
      · cases open_
    · intro k s b at_k mem
      rcases getElem?_concat_cases at_k with old | ⟨-, rfl⟩
      · exact sound.tags k s b old mem
      · cases mem
    · intro t mem e entry
      exact (sound.queued t mem e entry).imp id fun closed => closed.grows grows

omit sound

/-! ### Writing keeps the tags -/

theorem mem_tagged {b : Char × Nat} {data : Text} (mem : b ∈ tagged asker data) : b.2 = asker := by
  obtain ⟨c, -, rfl⟩ := mem_map.mp mem
  rfl

/-- The socket is the one of the request, or closed. -/
def Aimed (h : HttpServer) (k asker : Nat) : Prop := k = asker ∨ h.Closed k

theorem Sound.send (sound : h.Sound) (aimed : h.Aimed k asker) (piece : Piece) :
    (h.send k asker piece).1.Sound := by
  rw [HttpServer.send]
  split
  · exact sound
  · rename_i s found
    dsimp only
    split
    · exact sound
    · rename_i alive
      rw [Bool.not_eq_false] at alive
      have same : k = asker := by
        rcases aimed with same | ⟨t, found', closed⟩
        · exact same
        · rw [found] at found'
          cases found'
          rw [alive] at closed
          cases closed
      subst same
      have old : ∀ b ∈ s.wire ++ s.outBuf, b.2 = k := fun b mem => sound.tags k s b found mem
      split
      · exact sound
      · split
        · refine sound.setSocket found rfl alive fun b mem => ?_
          rw [← append_assoc, mem_append] at mem
          exact mem.elim (old b) mem_tagged
        · split
          · refine sound.setSocket found rfl alive fun b mem => ?_
            rw [append_assoc, take_append_drop, mem_append] at mem
            exact mem.elim (fun wire => old b (mem_append_left _ wire)) mem_tagged
          · exact (sound.cleanupConnection _).close _

theorem Sound.sendPieces : ∀ {pieces : List Piece} {h : HttpServer}, h.Sound → h.Aimed k asker →
    (h.sendPieces fd k asker pieces).Sound
  | [], _, sound, _ => sound
  | piece :: pieces, h, sound, aimed => by
    have sent := sound.send aimed piece
    rw [HttpServer.sendPieces]
    split
    · exact sent.sendPieces (aimed.imp id fun closed => closed.grows (grows_send h k asker piece))
    · exact sent.cleanupConnection fd

include sound

theorem Sound.sendRawResponse {response : Text}
    (aimed : ∀ e, h.connections fd = some e → h.Aimed e.socket asker)
    (sent : h.sendRawResponse fd asker response pieces = some h') : h'.Sound := by
  rw [HttpServer.sendRawResponse] at sent
  split at sent
  · cases sent
    exact sound
  · rename_i e entry
    split at sent
    · split at sent
      · cases sent
        exact sound.sendPieces (aimed e entry)
      · cases sent
    · split at sent
      · cases sent
        exact sound.cleanupConnection fd
      · cases sent

theorem Sound.setChunked {e : ConnectionContext} (found : h.connections fd = some e) (flag : Bool) :
    ({ h with connections := fun j =>
        if j = fd then some { e with sseChunked := flag } else h.connections j } : HttpServer).Sound := by
  -- an entry afterwards has the socket that it had
  have before : ∀ (j : Nat) (e' : ConnectionContext),
      (if j = fd then some { e with sseChunked := flag } else h.connections j) = some e' →
      ∃ e₀, h.connections j = some e₀ ∧ e'.socket = e₀.socket := by
    intro j e' entry
    split at entry
    · rename_i same
      cases entry
      exact ⟨e, same ▸ found, rfl⟩
    · exact ⟨e', entry, rfl⟩
  constructor
  · intro j e' entry
    obtain ⟨e₀, entry₀, same⟩ := before j e' entry
    rw [same]
    exact sound.entries j e₀ entry₀
  · intro k s at_k open_
    obtain ⟨e₀, entry₀, same⟩ := sound.registered k s at_k open_
    by_cases here : s.fd = fd
    · rw [here, found] at entry₀
      cases entry₀
      exact ⟨_, if_pos here, same⟩
    · exact ⟨e₀, (if_neg here).trans entry₀, same⟩
  · exact sound.tags
  · intro t mem e' entry
    obtain ⟨e₀, entry₀, same⟩ := before _ e' entry
    rw [same]
    exact sound.queued t mem e₀ entry₀

theorem Sound.sendResponse {t : ResponseTask}
    (queued : ∀ e, h.connections t.connectionId = some e → h.Aimed e.socket t.asker)
    (sent : h.sendResponse t pieces = some h') : h'.Sound := by
  rw [HttpServer.sendResponse] at sent
  split at sent
  · cases sent
    exact sound
  · rename_i e found
    refine (sound.setChunked found _).sendRawResponse (fun e' entry => ?_) sent
    dsimp only at entry
    rw [if_pos rfl] at entry
    cases entry
    exact queued e found

theorem Sound.handleRequest {handling : Handling}
    (found : h.sockets[k]? = some s) (alive : s.isOpen = true)
    (handled : h.handleRequest s.fd k handling = some h') : h'.Sound := by
  have aimed : ∀ e, h.connections s.fd = some e → h.Aimed e.socket k := by
    intro e entry
    obtain ⟨e', entry', same⟩ := sound.registered k s found alive
    rw [entry] at entry'
    cases entry'
    exact .inl same
  have more : ({ h with contexts := h.contexts ++ [⟨s.fd, k⟩] } : HttpServer).Sound :=
    sound.of_tasks sound.queued
  cases handling with
  | routed =>
    cases handled
    exact more
  | threw response pieces => exact more.sendRawResponse aimed handled
  | rejected response pieces => exact sound.sendRawResponse aimed handled

/-- Every step keeps the invariant as long as no descriptor with an answer under
way is given away. -/
theorem Sound.step (proper : h.proper l = true) (stepped : h.step l = some h') : h'.Sound := by
  cases l with
  | accept fd registered =>
    simp only [HttpServer.proper, all_eq_true, decide_eq_true_eq] at proper
    rw [HttpServer.step] at stepped
    split at stepped
    · cases stepped
    · rename_i unused
      cases stepped
      refine sound.handleNewConnection registered (fun s mem open_ same => unused ?_) proper
      exact any_eq_true.mpr ⟨s, mem, decide_eq_true ⟨open_, same⟩⟩
  | request k handling =>
    simp only [HttpServer.step, bind_eq_some] at stepped
    obtain ⟨s, found, stepped⟩ := stepped
    split at stepped
    · rename_i both
      exact sound.handleRequest found both.1 stepped
    · cases stepped
  | respond x response =>
    simp only [HttpServer.step, bind_eq_some] at stepped
    obtain ⟨ctx, found, stepped⟩ := stepped
    cases stepped
    refine sound.of_tasks fun t mem e entry => ?_
    rcases mem_append.mp mem with old | new
    · exact sound.queued t old e entry
    · cases mem_singleton.mp new
      rw [HttpServer.proper, found, Option.all_some, entry, Option.all_some] at proper
      simp only [Bool.or_eq_true, decide_eq_true_eq, Bool.not_eq_true'] at proper
      refine proper.imp id fun dead => ?_
      obtain ⟨s, at_s, -⟩ := sound.entries _ e entry
      rw [alive, at_s] at dead
      exact ⟨s, at_s, dead⟩
  | run pieces =>
    rw [HttpServer.step] at stepped
    split at stepped
    · cases stepped
    · rename_i t rest queue
      have fewer : ({ h with tasks := rest } : HttpServer).Sound :=
        sound.of_tasks fun t' mem => sound.queued t' (queue ▸ mem_cons_of_mem _ mem)
      have head := sound.queued t (queue ▸ mem_cons_self)
      exact fewer.sendResponse head stepped
  | writable k n =>
    simp only [HttpServer.step, bind_eq_some] at stepped
    obtain ⟨s, found, stepped⟩ := stepped
    split at stepped
    · rename_i alive
      cases stepped
      refine sound.setSocket found rfl alive fun b mem => ?_
      rw [append_assoc, take_append_drop] at mem
      exact sound.tags k s b found mem
    · cases stepped
  | hangUp k =>
    rw [HttpServer.step] at stepped
    split at stepped
    · cases stepped
      exact sound.hangUp k
    · cases stepped
  | fail k =>
    simp only [HttpServer.step, bind_eq_some] at stepped
    obtain ⟨s, -, stepped⟩ := stepped
    split at stepped
    · cases stepped
      exact (sound.cleanupConnection _).close k
    · cases stepped

omit sound

/-! ### Answers reach only the client that asked -/

/-- Every byte that the kernel has taken is for the connection that it went to. -/
def Private (h : HttpServer) : Prop :=
  ∀ (k : Nat) (s : Socket), h.sockets[k]? = some s → ∀ b ∈ s.wire, b.2 = k

/-- Every byte of an answer goes to the connection on which the request was read. -/
theorem answers_reach_asker {sdk : Sdk} {tls : Bool}
    (run : Run (Under (fun h l => h.proper l = true) (Steps step)) { sdk := sdk, tls := tls } ls h)
    (later : Run (Steps step) h ms h') :
    h.Private ∧ ∀ (k : Nat) (s : Socket), h.sockets[k]? = some s → s.isOpen = false →
      ∃ s', h'.sockets[k]? = some s' ∧ s'.isOpen = false ∧ s'.wire = s.wire := by
  have sound : h.Sound :=
    run.invariant_under (fun _ _ _ inv proper stepped => inv.step proper stepped)
      (sound_start sdk tls)
  constructor
  · exact fun k s found b mem => sound.tags k s b found (List.mem_append_left _ mem)
  · intro k s found closed
    obtain ⟨s', found', kept⟩ := grows_run later k s found
    exact ⟨s', found', kept closed⟩

/-! A client connects with the descriptor 5, sends a request and closes; another
client connects and is given the descriptor. -/

def reply : HttpResponse := { body := "secret".toList }

/-- The first request is answered before the connection is closed. -/
def answeredFirst : List ServerLabel :=
  [.accept 5 true, .request 0 .routed, .respond 0 reply,
    .run (some [(buildHttpResponse reply, some 4)]), .writable 0 100, .hangUp 0, .accept 5 true]

def answeredLate : List ServerLabel :=
  [.accept 5 true, .request 0 .routed, .hangUp 0, .accept 5 true, .respond 0 reply,
    .run (some [(buildHttpResponse reply, some 100)])]

def ranFirst : Option HttpServer :=
  answeredFirst.foldlM (fun h l => if h.proper l = true then h.step l else none)
    ⟨.a2a, false, [], fun _ => none, [], []⟩

theorem answer_reaches_asker : ∃ ls h,
    Run (Under (fun h l => h.proper l = true) (Steps step)) { sdk := .a2a, tls := false } ls h ∧
      h.sockets.map (fun s => (s.isOpen, s.wire.length)) =
        [(false, (buildHttpResponse reply).length), (true, 0)] ∧ h.Private := by
  have ran : ranFirst = some (ranFirst.get (by decide)) := (Option.some_get _).symm
  have run := run_under_of_foldlM ran
  exact ⟨_, _, run, by decide, (answers_reach_asker run (.nil _)).1⟩

def ranLate (sdk : Sdk) : Option HttpServer :=
  answeredLate.foldlM step ⟨sdk, false, [], fun _ => none, [], []⟩

/-- Bytes of the answer to a request of the first connection are sent to the second. -/
def ReachesStranger (sdk : Sdk) : Prop :=
  ∃ ls h, Run (Steps step) { sdk := sdk, tls := false } ls h ∧
    h.sockets[1]?.map (·.wire) = some (tagged 0 (buildHttpResponse reply)) ∧ ¬ h.Private

/-- With both SDKs the answer is written to the other client. -/
theorem answer_reaches_stranger : ReachesStranger .a2a ∧ ReachesStranger .mcp := by
  have leaks : ∀ sdk : Sdk, (some_ : (ranLate sdk).isSome) →
      ((ranLate sdk).get some_).sockets[1]?.map (·.wire) =
        some (tagged 0 (buildHttpResponse reply)) → ReachesStranger sdk := by
    intro sdk some_ written
    have ran : ranLate sdk = some ((ranLate sdk).get some_) := (Option.some_get _).symm
    refine ⟨_, _, run_of_foldlM ran, written, fun priv => ?_⟩
    obtain ⟨s, found, wire⟩ := Option.map_eq_some_iff.mp written
    have first : (('H', 0) : Char × Nat) ∈ s.wire := by
      rw [wire]
      exact List.mem_map.mpr ⟨'H', by decide, rfl⟩
    exact absurd (priv 1 s found _ first) (by decide)
  exact ⟨leaks .a2a (by decide) (by decide), leaks .mcp (by decide) (by decide)⟩

end HttpServer

end AgentProtocols.Shared
