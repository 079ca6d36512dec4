import LocalFirst.Server.SyncServer

/-!
# The sync client of a page

Model of `apps/web/src/sync/document-sync-client.ts`.  Methods and listeners run to their end;
an `async` function is cut at every `await`, so that anything may happen in between.  What is
awaited, a read of the store or a job of the controller, is handed in by the caller: the
functions named `…Settled`, `…Loaded` and `…Read` record its outcome, and `resumeHandler` and
`resumeJoin` go on from there.

The callbacks that inform the user interface and the telemetry are left out.  The callback
`onSnapshotBootstrap` is set, as it is in `App.tsx`.
-/

set_option autoImplicit false

namespace LocalFirst

def RECONNECT_DELAYS_MS : List Nat := [250, 500, 1000, 2000, 4000]

def UNREACHABLE_AFTER_ATTEMPTS : Nat := 3

inductive SyncStatus where
  | offline
  | connecting
  | syncing
  | online
  | error
  deriving DecidableEq

/-- Where a call of `handleMessage` waits. -/
inductive HandlerStage where
  /-- for `onServerOperations` or `onSnapshotBootstrap` -/
  | ingesting
  | settled (outcome : Except JsError Unit)
  /-- for `loadPendingOperations` in `flushOutbox` -/
  | flushing
  | flushLoaded (pending : Except JsError (List TextOperation))
  /-- for `flushOutbox` -/
  | flushed
  /-- for `loadPendingOperations` in `refreshOnlineStatus` -/
  | refreshing
  | refreshLoaded (pending : Except JsError (List TextOperation))

/-- A call of `handleMessage` that has not ended, for a message that came in on `socket`. -/
structure Handler where
  socket : SocketId
  message : ServerMessage
  stage : HandlerStage

/-- Where a call of `sendJoin` waits. -/
inductive JoinStage where
  /-- for `getLastServerSeq` -/
  | readingSeq
  | seqRead (lastServerSeq : Int)
  /-- for `isSnapshotBootstrapEligible` -/
  | checkingEligible (lastServerSeq : Int)
  | eligibleRead (lastServerSeq : Int) (eligible : Bool)
  deriving DecidableEq

structure JoinCall where
  socket : SocketId
  stage : JoinStage
  deriving DecidableEq

/-- The fields of the client, the sockets it has opened, and the calls that are waiting.  The
promise chain `inbound` is the message that is being handled and those behind it.  The fields
`sent` and `dropped` are histories: the frames sent on each socket, and the messages whose
handling ended without a report that they were stored. -/
structure DocumentSyncClient where
  documentId : JsString
  clientId : JsString
  displayName : Option JsString
  socket : Option SocketId
  status : SyncStatus
  closedByClient : Bool
  suspended : Bool
  unreachable : Bool
  consecutiveFailures : Nat
  catchUpComplete : Bool
  reconnectAttempt : Nat
  reconnectTimer : Option Nat
  snapshotBootstrapDisabled : Bool
  lastInboundError : Option JsError
  handling : Option Handler
  inbound : List (SocketId × ServerMessage)
  joins : List JoinCall
  readyState : SocketId → ReadyState
  sent : List (SocketId × ClientMessage)
  dropped : List (SocketId × ServerMessage)

namespace DocumentSyncClient

/-- The constructor; the sockets of the page stay. -/
def new (documentId clientId : JsString) (displayName : Option JsString)
    (readyState : SocketId → ReadyState) (sent : List (SocketId × ClientMessage)) :
    DocumentSyncClient where
  documentId := documentId
  clientId := clientId
  displayName := displayName
  socket := none
  status := .offline
  closedByClient := false
  suspended := false
  unreachable := false
  consecutiveFailures := 0
  catchUpComplete := false
  reconnectAttempt := 0
  reconnectTimer := none
  snapshotBootstrapDisabled := false
  lastInboundError := none
  handling := none
  inbound := []
  joins := []
  readyState := readyState
  sent := sent
  dropped := []

def setStatus (c : DocumentSyncClient) (status : SyncStatus) : DocumentSyncClient :=
  { c with status := status }

def setReadyState (c : DocumentSyncClient) (socket : SocketId) (state : ReadyState) :
    DocumentSyncClient :=
  { c with readyState := fun s => if s = socket then state else c.readyState s }

/-- `WebSocket.close()`. -/
def closeSocket (c : DocumentSyncClient) (socket : SocketId) : DocumentSyncClient :=
  match c.readyState socket with
  | .connecting => c.setReadyState socket .closing
  | .opened => c.setReadyState socket .closing
  | .closing => c
  | .closed => c

/-- `this.socket?.readyState === WebSocket.OPEN`. -/
def socketOpen (c : DocumentSyncClient) : Bool :=
  match c.socket with
  | none => false
  | some socket => c.readyState socket = .opened

/-! ## Connecting -/

def cancelReconnect (c : DocumentSyncClient) : DocumentSyncClient := { c with reconnectTimer := none }

/-- The end of `suspend` and `close`: the socket is let go, and closed. -/
def releaseSocket (c : DocumentSyncClient) : DocumentSyncClient :=
  match c.socket with
  | none => c
  | some socket => { c with socket := none }.closeSocket socket

def suspend (c : DocumentSyncClient) : DocumentSyncClient :=
  if c.suspended then c
  else
    ({ c with suspended := true, catchUpComplete := false }.cancelReconnect.releaseSocket).setStatus
      .offline

/-- `connect`; `fresh` is the new `WebSocket`. -/
def connect (c : DocumentSyncClient) (fresh : SocketId) : DocumentSyncClient :=
  if c.closedByClient ∨ c.suspended ∨ c.socket.isSome then c
  else { c with catchUpComplete := false, status := .connecting, socket := some fresh }

def resume (c : DocumentSyncClient) (fresh : SocketId) : DocumentSyncClient :=
  if ¬ c.suspended then c
  else { c with suspended := false, reconnectAttempt := 0 }.connect fresh

def retry (c : DocumentSyncClient) (fresh : SocketId) : DocumentSyncClient :=
  if c.closedByClient then c
  else
    let c := { c with suspended := false, reconnectAttempt := 0 }.cancelReconnect
    if c.socket.isSome then c else c.connect fresh

def close (c : DocumentSyncClient) : DocumentSyncClient :=
  ({ c with closedByClient := true, catchUpComplete := false }.cancelReconnect.releaseSocket).setStatus
    .offline

def scheduleReconnect (c : DocumentSyncClient) : DocumentSyncClient :=
  if c.closedByClient ∨ c.suspended ∨ c.unreachable ∨ c.reconnectTimer.isSome ∨ c.socket.isSome then c
  else
    let cappedIndex := min c.reconnectAttempt (RECONNECT_DELAYS_MS.length - 1)
    { c with
      reconnectAttempt := c.reconnectAttempt + 1
      reconnectTimer := some ((RECONNECT_DELAYS_MS[cappedIndex]?).getD 4000) }

/-- The callback of the timer that `scheduleReconnect` sets. -/
def timerFired (c : DocumentSyncClient) (fresh : SocketId) : DocumentSyncClient :=
  match c.reconnectTimer with
  | none => c
  | some _ =>
    let c := { c with reconnectTimer := none }
    if c.closedByClient ∨ c.suspended ∨ c.socket.isSome then c else c.connect fresh

def noteConnectionFailure (c : DocumentSyncClient) : DocumentSyncClient :=
  if c.closedByClient ∨ c.suspended then c
  else
    let c := { c with consecutiveFailures := c.consecutiveFailures + 1 }
    if c.consecutiveFailures < UNREACHABLE_AFTER_ATTEMPTS ∨ c.unreachable then c
    else { c with unreachable := true }.cancelReconnect

def noteConnectionSuccess (c : DocumentSyncClient) : DocumentSyncClient :=
  { c with consecutiveFailures := 0, unreachable := false }

/-! ## Listeners -/

def onOpen (c : DocumentSyncClient) (socket : SocketId) : DocumentSyncClient :=
  if c.readyState socket ≠ .connecting then c
  else
    let c := c.setReadyState socket .opened
    if c.socket ≠ some socket then c else { c with joins := c.joins ++ [⟨socket, .readingSeq⟩] }

/-- A message event is fired on an open socket only. -/
def onMessage (c : DocumentSyncClient) (socket : SocketId) (message : ServerMessage) :
    DocumentSyncClient :=
  if c.readyState socket ≠ .opened ∨ c.socket ≠ some socket then c
  else { c with inbound := c.inbound ++ [(socket, message)] }

def onError (c : DocumentSyncClient) (socket : SocketId) : DocumentSyncClient :=
  if c.socket ≠ some socket ∨ c.closedByClient then c else c.setStatus .error

def onClose (c : DocumentSyncClient) (socket : SocketId) : DocumentSyncClient :=
  let c := c.setReadyState socket .closed
  if c.socket ≠ some socket then c
  else
    let c := { c with socket := none, catchUpComplete := false }
    if c.closedByClient then c.setStatus .offline
    else (c.noteConnectionFailure.setStatus .offline).scheduleReconnect

/-! ## Sending -/

def sendOperations (c : DocumentSyncClient) (operations : List TextOperation) :
    DocumentSyncClient :=
  match c.socket with
  | none => c
  | some socket =>
    if c.readyState socket ≠ .opened then c
    else { c with sent := c.sent ++ operations.map fun operation =>
      (socket, .submitOperation ⟨c.documentId, operation⟩) }

def submitOperations (c : DocumentSyncClient) (operations : List TextOperation) :
    DocumentSyncClient :=
  if operations.length = 0 then c
  else if ¬ c.catchUpComplete ∨ ¬ c.socketOpen then c
  else (c.setStatus .syncing).sendOperations operations

/-! ## Joining -/

/-- A call of `sendJoin` goes on to `stage`, or ends. -/
def setJoin (c : DocumentSyncClient) (socket : SocketId) (stage : Option JoinStage) :
    DocumentSyncClient :=
  { c with joins := c.joins.filterMap fun call =>
      if call.socket = socket then stage.map (⟨socket, ·⟩) else some call }

def joinStage (c : DocumentSyncClient) (socket : SocketId) : Option JoinStage :=
  (c.joins.find? (·.socket = socket)).map (·.stage)

def lastServerSeqRead (c : DocumentSyncClient) (socket : SocketId) (lastServerSeq : Int) :
    DocumentSyncClient :=
  match c.joinStage socket with
  | some .readingSeq => c.setJoin socket (some (.seqRead lastServerSeq))
  | _ => c

def eligibleRead (c : DocumentSyncClient) (socket : SocketId) (eligible : Bool) :
    DocumentSyncClient :=
  match c.joinStage socket with
  | some (.checkingEligible lastServerSeq) =>
    c.setJoin socket (some (.eligibleRead lastServerSeq eligible))
  | _ => c

/-- The end of `sendJoin`. -/
def sendJoin (c : DocumentSyncClient) (socket : SocketId) (lastServerSeq : Int)
    (advertiseSnapshot : Bool) : DocumentSyncClient :=
  { c with sent := c.sent ++ [(socket, .join ⟨c.documentId, c.clientId, lastServerSeq,
      if advertiseSnapshot then some [SNAPSHOT_BOOTSTRAP_CAPABILITY] else none, c.displayName⟩)] }

/-- `sendJoin` after an `await`. -/
def resumeJoin (c : DocumentSyncClient) (socket : SocketId) : DocumentSyncClient :=
  let current := c.socket = some socket ∧ c.readyState socket = .opened
  match c.joinStage socket with
  | some (.seqRead lastServerSeq) =>
    if ¬ current then c.setJoin socket none
    else if ¬ c.snapshotBootstrapDisabled ∧ lastServerSeq = 0 then
      c.setJoin socket (some (.checkingEligible lastServerSeq))
    else (c.setJoin socket none).sendJoin socket lastServerSeq false
  | some (.eligibleRead lastServerSeq eligible) =>
    if ¬ current then c.setJoin socket none
    else (c.setJoin socket none).sendJoin socket lastServerSeq eligible
  | _ => c

/-! ## Handling a message -/

def setStage (c : DocumentSyncClient) (handler : Handler) (stage : HandlerStage) :
    DocumentSyncClient :=
  { c with handling := some { handler with stage := stage } }

/-- `handleMessage` has returned. -/
def handled (c : DocumentSyncClient) : DocumentSyncClient := { c with handling := none }

/-- `handleMessage` has thrown, and `enqueueInbound` has caught it. -/
def handlingFailed (c : DocumentSyncClient) (error : JsError) : DocumentSyncClient :=
  { c with handling := none, lastInboundError := some error, status := .error }

def drop (c : DocumentSyncClient) (socket : SocketId) (message : ServerMessage) :
    DocumentSyncClient :=
  { c with dropped := c.dropped ++ [(socket, message)] }

/-- `handleMessage` for the next message of the chain, up to its first `await`. -/
def handleNext (c : DocumentSyncClient) : DocumentSyncClient :=
  match c.handling, c.inbound with
  | none, (socket, message) :: inbound =>
    let c := { c with inbound := inbound }
    match parseServerMessage message with
    | none => (c.drop socket message).setStatus .error
    | some (.error _) => (c.drop socket message).setStatus .error
    | some (.presence _) => c.drop socket message
    | some (.sync sync) =>
      if sync.documentId ≠ c.documentId then c.drop socket message
      else { c.setStatus .syncing with handling := some ⟨socket, message, .ingesting⟩ }
    | some (.operation operation) =>
      if operation.documentId ≠ c.documentId then c.drop socket message
      else { c with handling := some ⟨socket, message, .ingesting⟩ }
  | _, _ => c

/-- The promise of `onServerOperations` or `onSnapshotBootstrap` has settled; `stored` says
whether the callback got to the store and the promise was fulfilled. -/
def ingestSettled (c : DocumentSyncClient) (outcome : Except JsError Unit) (stored : Bool) :
    DocumentSyncClient :=
  match c.handling with
  | some ⟨socket, message, .ingesting⟩ =>
    let c := c.setStage ⟨socket, message, .ingesting⟩ (.settled outcome)
    if stored then c else c.drop socket message
  | _ => c

def pendingLoaded (c : DocumentSyncClient) (pending : Except JsError (List TextOperation)) :
    DocumentSyncClient :=
  match c.handling with
  | some ⟨socket, message, .flushing⟩ =>
    c.setStage ⟨socket, message, .flushing⟩ (.flushLoaded pending)
  | some ⟨socket, message, .refreshing⟩ =>
    c.setStage ⟨socket, message, .refreshing⟩ (.refreshLoaded pending)
  | _ => c

def fallbackToFullHistorySync (c : DocumentSyncClient) : DocumentSyncClient :=
  let c := { c with snapshotBootstrapDisabled := true, catchUpComplete := false, status := .connecting }
  match c.socket with
  | none => c
  | some socket => c.closeSocket socket

/-- `flushOutbox` up to its `await`. -/
def flushOutbox (c : DocumentSyncClient) (handler : Handler) : DocumentSyncClient :=
  if ¬ c.catchUpComplete ∨ ¬ c.socketOpen then c.setStage handler .flushed
  else c.setStage handler .flushing

/-- `refreshOnlineStatus` up to its `await`. -/
def refreshOnlineStatus (c : DocumentSyncClient) (handler : Handler) : DocumentSyncClient :=
  if ¬ c.catchUpComplete ∨ c.closedByClient then c.handled
  else if ¬ c.socketOpen then c.handled
  else c.setStage handler .refreshing

/-- The branch of `handleMessage` for a sync message, after its operations are stored. -/
def caughtUp (c : DocumentSyncClient) (handler : Handler) : DocumentSyncClient :=
  ({ c with catchUpComplete := true, reconnectAttempt := 0 }.noteConnectionSuccess).flushOutbox handler

/-- The errors on which `installSnapshotBootstrap` falls back. -/
def fallsBack (error : JsError) : Bool :=
  error.name = .snapshotBootstrapIneligible ∨ error.name = .invalidSnapshotBootstrap

/-- `handleMessage` after the `await` of the ingest. -/
def ingestDone (c : DocumentSyncClient) (handler : Handler) (outcome : Except JsError Unit) :
    DocumentSyncClient :=
  match handler.message with
  | .sync sync =>
    match sync.snapshotBootstrap, outcome with
    | some _, .error e => if fallsBack e then c.fallbackToFullHistorySync.handled else c.handlingFailed e
    | none, .error e => c.handlingFailed e
    | _, .ok () => c.caughtUp handler
  | _ =>
    match outcome with
    | .error e => c.handlingFailed e
    | .ok () => c.refreshOnlineStatus handler

/-- `handleMessage` after an `await`. -/
def resumeHandler (c : DocumentSyncClient) : DocumentSyncClient :=
  match c.handling with
  | none => c
  | some handler =>
    match handler.stage with
    | .settled outcome => c.ingestDone handler outcome
    | .flushLoaded (.error e) => c.handlingFailed e
    | .flushLoaded (.ok pending) =>
      if pending.length = 0 then c.setStage handler .flushed
      else ((c.setStatus .syncing).sendOperations pending).setStage handler .flushed
    | .flushed => c.refreshOnlineStatus handler
    | .refreshLoaded (.error e) => c.handlingFailed e
    | .refreshLoaded (.ok pending) =>
      if pending.length = 0 then (c.setStatus .online).handled else (c.setStatus .syncing).handled
    | _ => c

end DocumentSyncClient

end LocalFirst
