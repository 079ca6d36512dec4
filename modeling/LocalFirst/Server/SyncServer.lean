import LocalFirst.Server.ServerMetrics
import LocalFirst.Server.Snapshot

/-!
# The sync server

Model of `apps/server/src/sync-server.ts`.  Every callback of a socket is a function from the
state of the server to a new state; messages handed to a socket that is open are recorded in
the order in which they are sent.  Logging, the HTTP upgrade and the heartbeat timer (which only
closes sockets) are left out.

* `ServerStore` — what the handlers ask of the store, the snapshot manager and the metrics.
* `SyncServer` — the server over such a store; over an `OperationStore` where none is named.
-/

set_option autoImplicit false

namespace LocalFirst

/-- A WebSocket. -/
abbrev SocketId := Nat

/-- `WebSocket.readyState`. -/
inductive ReadyState where
  | connecting
  | opened
  | closing
  | closed
  deriving DecidableEq

structure SocketSession where
  connectedAt : Int
  documentId : Option JsString
  clientId : Option JsString
  displayName : Option JsString
  deriving DecidableEq

/-- What the handling of one event reads from its surroundings: which store calls throw, whether
a snapshot row can be written, and the upper-case mapping of the language. -/
structure ServerEnv where
  latestThrows : Option JsError
  syncThrows : Option JsError
  appendThrows : Option JsError
  rowWritten : Bool
  toUpperCase : JsString → JsString

/-- No store call throws. -/
def ServerEnv.Reliable (env : ServerEnv) : Prop :=
  env.latestThrows = none ∧ env.syncThrows = none ∧ env.appendThrows = none

/-- What the handlers ask of the store and of the snapshot manager, and where they count.  `log` is
what its rows say; no handler asks for it. -/
class ServerStore (σ : Type) where
  log : σ → JsString → List SequencedOperation
  getLatestServerSeq : σ → JsString → Int
  appendOperation : σ → JsString → TextOperation → Except JsError (AppendOperationResult × σ)
  buildSyncMessage : σ → Bool → JsString → Int → Bool → Except JsError (SyncMessage × σ)
  record : (ServerMetrics → ServerMetrics) → σ → σ

/-- The store in memory, which nobody meters. -/
instance : ServerStore OperationStore where
  log := OperationStore.log
  getLatestServerSeq := OperationStore.getLatestServerSeq
  appendOperation := OperationStore.appendOperation
  buildSyncMessage s rowWritten documentId lastServerSeq snapshotCapable :=
    .ok (s.buildSyncMessage rowWritten documentId lastServerSeq snapshotCapable)
  record _ s := s

structure SyncServer (σ : Type := OperationStore) where
  store : σ
  sessions : InsMap SocketId SocketSession
  rooms : InsMap JsString (InsSet SocketId)
  readyState : SocketId → ReadyState
  closing : Bool
  activeRooms : Nat
  sent : List (SocketId × ServerMessage)

namespace SyncServer

section

variable {σ : Type}

/-- `attachSyncServer`. -/
def attach (store : σ) : SyncServer σ :=
  ⟨store, .empty, .empty, fun _ => .connecting, false, 0, []⟩

/-- The server over the store in memory. -/
abbrev start (store : OperationStore) : SyncServer := attach store

/-- The same server with another store. -/
@[simps] def withStore {τ : Type} (w : SyncServer σ) (store : τ) : SyncServer τ :=
  ⟨store, w.sessions, w.rooms, w.readyState, w.closing, w.activeRooms, w.sent⟩

/-- What has been sent on a socket, in order. -/
def sentTo (w : SyncServer σ) (socket : SocketId) : List ServerMessage :=
  w.sent.filterMap fun p => if p.1 = socket then some p.2 else none

/-! ## Sending -/

def sendJson (w : SyncServer σ) (socket : SocketId) (message : ServerMessage) : SyncServer σ :=
  if w.readyState socket ≠ .opened then w else { w with sent := w.sent ++ [(socket, message)] }

def sendError (w : SyncServer σ) (socket : SocketId) (code message : JsString) : SyncServer σ :=
  w.sendJson socket (.error ⟨code, message⟩)

/-- The loop of `broadcast` and `broadcastPresence`. -/
def sendToPeers (w : SyncServer σ) (message : ServerMessage) : List SocketId → SyncServer σ
  | [] => w
  | peer :: peers =>
    match w.sessions.get? peer with
    | some _ =>
      if w.readyState peer = .opened then (w.sendJson peer message).sendToPeers message peers
      else w.sendToPeers message peers
    | none => w.sendToPeers message peers

def broadcast (w : SyncServer σ) (documentId : JsString) (message : OperationMessage) : SyncServer σ :=
  match w.rooms.get? documentId with
  | none => w
  | some room => w.sendToPeers (.operation message) room.elems

/-! ## Presence -/

def fallbackDisplayName (env : ServerEnv) (clientId : JsString) : JsString :=
  js "Guest " ++ env.toUpperCase (clientId.take 4)

/-- The loop of `collectPresence`: of the sockets of one client the one connected first counts. -/
def presenceByClientId (env : ServerEnv) (w : SyncServer σ) :
    InsMap JsString PresenceParticipant → List SocketId → InsMap JsString PresenceParticipant
  | byClientId, [] => byClientId
  | byClientId, peer :: peers =>
    match w.sessions.get? peer with
    | none => presenceByClientId env w byClientId peers
    | some peerSession =>
      match peerSession.clientId with
      | none => presenceByClientId env w byClientId peers
      | some clientId =>
        if clientId = [] then presenceByClientId env w byClientId peers
        else
          let participant : PresenceParticipant :=
            ⟨clientId, peerSession.displayName.getD (fallbackDisplayName env clientId),
              peerSession.connectedAt⟩
          match byClientId.get? clientId with
          | some existing =>
            if existing.joinedAt ≤ peerSession.connectedAt then
              presenceByClientId env w byClientId peers
            else presenceByClientId env w (byClientId.set clientId participant) peers
          | none => presenceByClientId env w (byClientId.set clientId participant) peers

def collectPresence (env : ServerEnv) (w : SyncServer σ) (documentId : JsString) :
    List PresenceParticipant :=
  match w.rooms.get? documentId with
  | none => []
  | some room => sortBy (fun left right => left.joinedAt - right.joinedAt)
      (presenceByClientId env w .empty room.elems).values

def broadcastPresence (env : ServerEnv) (w : SyncServer σ) (documentId : JsString) : SyncServer σ :=
  match w.rooms.get? documentId with
  | none => w
  | some room =>
    if room.size = 0 then w
    else w.sendToPeers (.presence ⟨documentId, collectPresence env w documentId⟩) room.elems

/-! ## Errors -/

variable [ServerStore σ]

/-- The rows of a document, in the order of their numbers. -/
def log (w : SyncServer σ) (documentId : JsString) : List SequencedOperation :=
  ServerStore.log w.store documentId

/-- A call of the metrics. -/
def record (w : SyncServer σ) (count : ServerMetrics → ServerMetrics) : SyncServer σ :=
  { w with store := ServerStore.record count w.store }

def recordProtocolError (w : SyncServer σ) (socket : SocketId) (code message : JsString) :
    SyncServer σ :=
  (w.record .recordProtocolError).sendError socket code message

def sendCaughtError (w : SyncServer σ) (socket : SocketId) (error : JsError) : SyncServer σ :=
  match error.name with
  | .operationIdentityConflict =>
    (w.record .recordIdentityConflict).sendError socket (js "IDENTITY_CONFLICT") error.message
  | .invalidOperation => w.recordProtocolError socket (js "INVALID_OPERATION") error.message
  | _ =>
    (w.record .recordInternalError).sendError socket (js "INTERNAL_ERROR")
      (js "The server failed to process that message.")

/-! ## Joining, submitting and leaving -/

def joinSession (session : SocketSession) (message : JoinMessage) : SocketSession :=
  { session with
    documentId := some message.documentId
    clientId := some message.clientId
    displayName := message.displayName.orElse fun _ => session.displayName }

/-- The part of `joinSocket` that takes the socket into the room. -/
def enterRoom (w : SyncServer σ) (socket : SocketId) (session : SocketSession)
    (message : JoinMessage) : SyncServer σ :=
  let rooms := w.rooms.set message.documentId
    (((w.rooms.get? message.documentId).getD .empty).add socket)
  { w with
    sessions := w.sessions.set socket (joinSession session message)
    rooms := rooms
    activeRooms := rooms.size }

/-- The part of `joinSocket` that builds the sync message and sends it. -/
def sendSync (env : ServerEnv) (w : SyncServer σ) (socket : SocketId) (message : JoinMessage) :
    Except JsError (SyncServer σ) :=
  match ServerStore.buildSyncMessage w.store env.rowWritten message.documentId
    message.lastServerSeq (hasSnapshotBootstrapCapability message.capabilities) with
  | .error e => .error e
  | .ok (syncMessage, store) =>
    .ok (({ w with store := store }.record (·.recordSync syncMessage.operations.length)).sendJson
      socket (.sync syncMessage))

def joinSocket (env : ServerEnv) (w : SyncServer σ) (socket : SocketId) (session : SocketSession)
    (message : JoinMessage) : SyncServer σ × Except JsError Unit :=
  match env.latestThrows with
  | some e => (w, .error e)
  | none =>
    if message.lastServerSeq > ServerStore.getLatestServerSeq w.store message.documentId then
      (w.recordProtocolError socket (js "sync-cursor-ahead")
        (js "Client lastServerSeq is ahead of server document history."), .ok ())
    else
      let entered := (w.enterRoom socket session message).record .recordJoin
      match env.syncThrows with
      | some e => (entered, .error e)
      | none =>
        match sendSync env entered socket message with
        | .error e => (entered, .error e)
        | .ok synced => (broadcastPresence env synced message.documentId, .ok ())

def acceptOperation (env : ServerEnv) (w : SyncServer σ) (socket : SocketId)
    (session : SocketSession) (operation : TextOperation) : SyncServer σ × Except JsError Unit :=
  match session.documentId with
  | none => (w, .ok ())
  | some documentId =>
    let submitted := w.record .recordSubmit
    match validateOperation operation with
    | .error e => (submitted, .error e)
    | .ok () =>
      match env.appendThrows with
      | some e => (submitted, .error e)
      | none =>
        match ServerStore.appendOperation submitted.store documentId operation with
        | .error e => (submitted, .error e)
        | .ok (result, store) =>
          let outbound : OperationMessage := ⟨documentId, result.serverSeq, operation⟩
          let appended := { submitted with store := store }.record .recordAppendDuration
          if ¬ result.inserted then
            ((appended.record .recordDuplicate).sendJson socket (.operation outbound), .ok ())
          else ((appended.record .recordInsert).broadcast documentId outbound, .ok ())

def leaveRoom (env : ServerEnv) (w : SyncServer σ) (socket : SocketId) : SyncServer σ :=
  match (w.sessions.get? socket).bind (·.documentId) with
  | none => w
  | some documentId =>
    if documentId = [] then w
    else match w.rooms.get? documentId with
      | none => w
      | some room =>
        let room' := room.delete socket
        let rooms := if room'.size = 0 then w.rooms.delete documentId
          else w.rooms.set documentId room'
        let left := { w with rooms := rooms, activeRooms := rooms.size }
        if left.closing then left else broadcastPresence env left documentId

/-! ## Messages -/

/-- The `try` block of `handleMessage`. -/
def dispatch (env : ServerEnv) (w : SyncServer σ) (socket : SocketId) (session : SocketSession)
    (message : ClientMessage) : SyncServer σ × Except JsError Unit :=
  match session.documentId, session.clientId with
  | some documentId, some clientId =>
    match message with
    | .join _ =>
      (w.recordProtocolError socket (js "ALREADY_JOINED")
        (js "This connection has already joined a document."), .ok ())
    | .submitOperation message =>
      if message.documentId ≠ documentId then
        (w.recordProtocolError socket (js "DOCUMENT_MISMATCH")
          (js "Operation documentId does not match the joined document."), .ok ())
      else if message.operation.clientId ≠ clientId then
        (w.recordProtocolError socket (js "CLIENT_MISMATCH")
          (js "Operation clientId does not match the joined client."), .ok ())
      else acceptOperation env w socket session message.operation
  | _, _ =>
    match message with
    | .join message => joinSocket env w socket session message
    | .submitOperation _ =>
      (w.recordProtocolError socket (js "NOT_JOINED")
        (js "A join message is required before submitting operations."), .ok ())

/-- The `catch` block of `handleMessage`. -/
def caught (socket : SocketId) : SyncServer σ × Except JsError Unit → SyncServer σ
  | (w, .error e) => w.sendCaughtError socket e
  | (w, .ok ()) => w

@[simp] theorem caught_error (w : SyncServer σ) (socket : SocketId) (e : JsError) :
    caught socket (w, .error e) = w.sendCaughtError socket e := rfl

@[simp] theorem caught_ok (w : SyncServer σ) (socket : SocketId) :
    caught socket (w, .ok ()) = w := rfl

def handleMessage (env : ServerEnv) (w : SyncServer σ) (socket : SocketId) (frame : Frame) :
    SyncServer σ :=
  match w.sessions.get? socket with
  | none => w
  | some session =>
    match frame with
    | .notJson => w.recordProtocolError socket (js "PROTOCOL_ERROR") (js "Message must be valid JSON.")
    | .malformed => w.recordProtocolError socket (js "PROTOCOL_ERROR") (js "Malformed client message.")
    | .message parsed =>
      match parseClientMessage parsed with
      | none => w.recordProtocolError socket (js "PROTOCOL_ERROR") (js "Malformed client message.")
      | some message => caught socket (dispatch env w socket session message)

/-! ## Events -/

/-- What happens to the server.  A socket that has been used never connects again. -/
inductive Event where
  | connection (socket : SocketId) (connectedAt : Int)
  | message (socket : SocketId) (frame : Frame) (env : ServerEnv)
  | closing (socket : SocketId)
  | close (socket : SocketId) (env : ServerEnv)
  | shutDown
  | shutDownDone

def setReadyState (w : SyncServer σ) (socket : SocketId) (state : ReadyState) : SyncServer σ :=
  { w with readyState := fun s => if s = socket then state else w.readyState s }

def handle (w : SyncServer σ) : Event → SyncServer σ
  | .connection socket connectedAt =>
    if w.closing ∨ w.readyState socket ≠ .connecting then w
    else ({ w.setReadyState socket .opened with
      sessions := w.sessions.set socket ⟨connectedAt, none, none, none⟩ } : SyncServer σ).record
        .recordConnectionOpened
  | .message socket frame env => handleMessage env w socket frame
  | .closing socket =>
    if w.readyState socket = .opened then w.setReadyState socket .closing else w
  | .close socket env =>
    if w.readyState socket = .opened ∨ w.readyState socket = .closing then
      let left := leaveRoom env (w.setReadyState socket .closed) socket
      ({ left with sessions := left.sessions.delete socket } : SyncServer σ).record
        .recordConnectionClosed
    else w
  | .shutDown =>
    { w with
      closing := true
      readyState := fun s => if w.readyState s = .opened then .closing else w.readyState s }
  | .shutDownDone =>
    if w.closing then { w with sessions := .empty, rooms := .empty, activeRooms := 0 } else w

def run (w : SyncServer σ) : List Event → SyncServer σ
  | [] => w
  | e :: es => (w.handle e).run es

end

/-! ## The store in memory -/

section

variable (w : SyncServer) (s : OperationStore) (documentId : JsString)

@[simp] theorem log_plain : w.log documentId = w.store.log documentId := rfl

@[simp] theorem record_plain (count : ServerMetrics → ServerMetrics) : w.record count = w := rfl

@[simp] theorem recordProtocolError_plain (socket : SocketId) (code message : JsString) :
    w.recordProtocolError socket code message = w.sendError socket code message := rfl

@[simp] theorem latest_plain :
    ServerStore.getLatestServerSeq s documentId = s.getLatestServerSeq documentId := rfl

@[simp] theorem append_plain (operation : TextOperation) :
    ServerStore.appendOperation s documentId operation =
      s.appendOperation documentId operation := rfl

/-- The server that has built the sync message of a join, and sent it. -/
def synced (env : ServerEnv) (w : SyncServer) (socket : SocketId) (message : JoinMessage) :
    SyncServer :=
  let built := w.store.buildSyncMessage env.rowWritten message.documentId
    message.lastServerSeq (hasSnapshotBootstrapCapability message.capabilities)
  { w with store := built.2 }.sendJson socket (.sync built.1)

theorem sendSync_plain (env : ServerEnv) (socket : SocketId) (message : JoinMessage) :
    sendSync env w socket message = .ok (synced env w socket message) := rfl

/-- Over the store in memory a join is counted nowhere, and only `syncThrows` fails its sync. -/
theorem joinSocket_plain (env : ServerEnv) (socket : SocketId) (session : SocketSession)
    (message : JoinMessage) :
    joinSocket env w socket session message =
      match env.latestThrows with
      | some e => (w, .error e)
      | none =>
        if message.lastServerSeq > w.store.getLatestServerSeq message.documentId then
          (w.sendError socket (js "sync-cursor-ahead")
            (js "Client lastServerSeq is ahead of server document history."), .ok ())
        else
          match env.syncThrows with
          | some e => (w.enterRoom socket session message, .error e)
          | none =>
            (broadcastPresence env (synced env (w.enterRoom socket session message) socket message)
              message.documentId, .ok ()) := by
  unfold joinSocket
  simp only [record_plain, recordProtocolError_plain, latest_plain, sendSync_plain]

theorem acceptOperation_plain (env : ServerEnv) (socket : SocketId) (session : SocketSession)
    (operation : TextOperation) :
    acceptOperation env w socket session operation =
      match session.documentId with
      | none => (w, .ok ())
      | some documentId =>
        match validateOperation operation with
        | .error e => (w, .error e)
        | .ok () =>
          match env.appendThrows with
          | some e => (w, .error e)
          | none =>
            match w.store.appendOperation documentId operation with
            | .error e => (w, .error e)
            | .ok (result, store) =>
              let outbound : OperationMessage := ⟨documentId, result.serverSeq, operation⟩
              if ¬ result.inserted then
                ({ w with store := store }.sendJson socket (.operation outbound), .ok ())
              else ({ w with store := store }.broadcast documentId outbound, .ok ()) := by
  unfold acceptOperation
  simp only [record_plain, append_plain]
  cases session.documentId with
  | none => rfl
  | some documentId =>
    simp only
    cases validateOperation operation with
    | error e => rfl
    | ok _ =>
      cases env.appendThrows with
      | some e => rfl
      | none =>
        simp only
        cases w.store.appendOperation documentId operation <;> rfl

end

end SyncServer

end LocalFirst
