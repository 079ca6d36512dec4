import LocalFirst.Client.Reload
import LocalFirst.Sync.SyncClient

/-!
# Pages, sockets and the server

The system of all parties: the server, any number of pages, each with its database, its
controller and its sync client as `App.tsx` wires them, and the two directions of every socket.
A socket carries frames in order; it may be closed by either side, or dropped, at any time, and
what is on its way may then be lost.  Other programs may talk to the server on sockets of their
own.

A job of the write queue runs as one event, at any time after it was queued.  A transaction of
the database that aborts leaves the tables as they were.
-/

set_option autoImplicit false

namespace LocalFirst

/-! ## Pages -/

/-- A page: its database, and the controller and the sync client of its session.  A page without a
session has no controller, and a sync client that is closed.  `submits` are the results of edits
that have been committed and not yet been handed to the sync client. -/
structure Page where
  db : Database
  controller : Option LocalDocumentController
  sync : DocumentSyncClient
  submits : List (List TextOperation)

/-- How a callback of the sync client ends: the job of the controller runs, the database aborts its
transaction, or the session is no longer the current one and nothing is done. -/
inductive Callback where
  | runs (env : Surroundings)
  | aborts (error : JsError)
  | skips

/-- What happens in a page. -/
inductive PageEvent where
  | opens (options : LocalDocumentControllerOptions) (env : Surroundings)
    (displayName : Option JsString)
  | connect (fresh : SocketId)
  | suspend
  | resume (fresh : SocketId)
  | retry (fresh : SocketId)
  | close
  | timerFired (fresh : SocketId)
  | socketOpened (socket : SocketId)
  | socketError (socket : SocketId)
  | socketClosed (socket : SocketId)
  | edit (env : Surroundings) (nextText : JsString)
  | submit
  | handleNext
  | ingest (callback : Callback)
  | loadPending (aborted : Option JsError)
  | resumeHandler
  | readLastServerSeq (socket : SocketId)
  | readEligible (socket : SocketId)
  | resumeJoin (socket : SocketId)

namespace Page

def start : Page :=
  ⟨.empty, none, (DocumentSyncClient.new [] [] none (fun _ => .connecting) []).close, []⟩

/-- `openSession`: the session before is torn down, and a new one created. -/
def opens (page : Page) (options : LocalDocumentControllerOptions) (env : Surroundings)
    (displayName : Option JsString) : Page :=
  let closed := page.sync.close
  match LocalDocumentController.create page.db options env with
  | (.error _, db) => ⟨db, none, closed, []⟩
  | (.ok controller, db) =>
    ⟨db, some controller, .new controller.documentId controller.clientId displayName
      closed.readyState closed.sent, []⟩

section

variable (segmentGraphemes : JsString → List JsString)

/-- `commitText`, up to the commit. -/
def edit (page : Page) (env : Surroundings) (nextText : JsString) : Page :=
  match page.controller with
  | none => page
  | some controller =>
    match controller.replaceTextNow segmentGraphemes page.db env nextText with
    | (controller, db, .error _) => { page with db := db, controller := some controller }
    | (controller, db, .ok result) =>
      { page with
        db := db
        controller := some controller
        submits := page.submits ++ [result.operations] }

end

/-- `commitText`, after the commit. -/
def submit (page : Page) : Page :=
  match page.submits with
  | [] => page
  | operations :: submits =>
    { page with sync := page.sync.submitOperations operations, submits := submits }

/-- The job that a callback queues. -/
def runDelivery (controller : LocalDocumentController) (db : Database) (env : Surroundings)
    (d : Delivery) : LocalDocumentController × Database × Except JsError LocalDocumentSnapshot :=
  match d.bootstrap with
  | some bootstrap => controller.installServerSnapshotNow db env bootstrap d.items d.confirmed
  | none => controller.applyServerOperationsNow db env d.items d.confirmed

/-- The callback that the handler of a message waits for. -/
def ingest (page : Page) (callback : Callback) : Page :=
  match page.controller, page.sync.handling with
  | some controller, some ⟨_, message, .ingesting⟩ =>
    match delivery message, callback with
    | none, _ => page
    | some _, .aborts e => { page with sync := page.sync.ingestSettled (.error e) false }
    | some _, .skips => { page with sync := page.sync.ingestSettled (.ok ()) false }
    | some d, .runs env =>
      let run := runDelivery controller page.db env d
      { page with
        db := run.2.1
        controller := some run.1
        sync := page.sync.ingestSettled (run.2.2.map fun _ => ()) run.2.2.isOk }
  | _, _ => page

/-- `loadPendingOperations`, awaited by the sync client. -/
def loadPending (page : Page) (aborted : Option JsError) : Page :=
  match aborted with
  | some e => { page with sync := page.sync.pendingLoaded (.error e) }
  | none =>
    { page with sync := page.sync.pendingLoaded (page.db.loadPendingOperations page.sync.documentId) }

variable (segmentGraphemes : JsString → List JsString)

def handle (page : Page) : PageEvent → Page
  | .opens options env displayName => page.opens options env displayName
  | .connect fresh => { page with sync := page.sync.connect fresh }
  | .suspend => { page with sync := page.sync.suspend }
  | .resume fresh => { page with sync := page.sync.resume fresh }
  | .retry fresh => { page with sync := page.sync.retry fresh }
  | .close => { page with sync := page.sync.close }
  | .timerFired fresh => { page with sync := page.sync.timerFired fresh }
  | .socketOpened socket => { page with sync := page.sync.onOpen socket }
  | .socketError socket => { page with sync := page.sync.onError socket }
  | .socketClosed socket => { page with sync := page.sync.onClose socket }
  | .edit env nextText => page.edit segmentGraphemes env nextText
  | .submit => page.submit
  | .handleNext => { page with sync := page.sync.handleNext }
  | .ingest callback => page.ingest callback
  | .loadPending aborted => page.loadPending aborted
  | .resumeHandler => { page with sync := page.sync.resumeHandler }
  | .readLastServerSeq socket =>
    { page with sync :=
        page.sync.lastServerSeqRead socket (page.db.getLastServerSeq page.sync.documentId) }
  | .readEligible socket =>
    { page with sync :=
        page.sync.eligibleRead socket (page.db.isSnapshotBootstrapEligible page.sync.documentId) }
  | .resumeJoin socket => { page with sync := page.sync.resumeJoin socket }

/-- What the page has sent on a socket, in order. -/
def sentOn (page : Page) (socket : SocketId) : List ClientMessage :=
  page.sync.sent.filterMap fun p => if p.1 = socket then some p.2 else none

end Page

/-! ## The system -/

/-- The server, the pages, which page has opened a socket, and how many frames of a socket have
arrived on either side. -/
structure System where
  server : SyncServer
  pages : Nat → Page
  owner : SocketId → Option Nat
  toServer : SocketId → Nat
  toPage : SocketId → Nat

inductive SystemEvent where
  | page (i : Nat) (e : PageEvent)
  | connection (socket : SocketId) (connectedAt : Int)
  | toServer (socket : SocketId) (env : ServerEnv)
  | toPage (socket : SocketId)
  | server (e : SyncServer.Event)

namespace System

def start (store : OperationStore) : System :=
  ⟨.start store, fun _ => .start, fun _ => none, fun _ => 0, fun _ => 0⟩

def setPage (w : System) (i : Nat) (page : Page) : System :=
  { w with pages := fun j => if j = i then page else w.pages j }

/-- A `WebSocket` that no one has used. -/
def unused (w : System) (socket : SocketId) : Bool :=
  (w.owner socket).isNone && w.server.readyState socket = .connecting

/-- What an event of a page needs of the sockets.  The browser reports a socket as open once the
server has accepted it. -/
def allows (w : System) (i : Nat) : PageEvent → Bool
  | .connect fresh => w.unused fresh
  | .resume fresh => w.unused fresh
  | .retry fresh => w.unused fresh
  | .timerFired fresh => w.unused fresh
  | .socketOpened socket => w.owner socket = some i && w.server.readyState socket ≠ .connecting
  | .socketError socket => w.owner socket = some i
  | .socketClosed socket => w.owner socket = some i
  | _ => true

/-- The socket of a page is its own. -/
def claim (w : System) (i : Nat) : Option SocketId → System
  | some socket => { w with owner := fun k => if k = socket then some i else w.owner k }
  | none => w

/-- Events of the server that need nothing from a page: those of the sockets of other programs,
the end of a socket, and the shutdown. -/
def independent (w : System) : SyncServer.Event → Bool
  | .connection socket _ => (w.owner socket).isNone
  | .message socket _ _ => (w.owner socket).isNone
  | _ => true

variable (segmentGraphemes : JsString → List JsString)

/-- The next frame of a page arrives at the server. -/
def deliverToServer (w : System) (socket : SocketId) (env : ServerEnv) : System :=
  match w.owner socket with
  | none => w
  | some i =>
    if w.server.readyState socket = .connecting then w
    else match ((w.pages i).sentOn socket)[w.toServer socket]? with
    | none => w
    | some message =>
      { w with
        server := w.server.handle (.message socket (.message message) env)
        toServer := fun k => if k = socket then w.toServer k + 1 else w.toServer k }

/-- The next message of the server arrives at a page. -/
def deliverToPage (w : System) (socket : SocketId) : System :=
  match w.owner socket with
  | none => w
  | some i =>
    match (w.server.sentTo socket)[w.toPage socket]? with
    | none => w
    | some message =>
      let page := w.pages i
      { w.setPage i { page with sync := page.sync.onMessage socket message } with
        toPage := fun k => if k = socket then w.toPage k + 1 else w.toPage k }

def handle (w : System) : SystemEvent → System
  | .page i e =>
    if w.allows i e then
      let page := (w.pages i).handle segmentGraphemes e
      (w.setPage i page).claim i page.sync.socket
    else w
  | .connection socket connectedAt =>
    if (w.owner socket).isSome then
      { w with server := w.server.handle (.connection socket connectedAt) }
    else w
  | .toServer socket env => w.deliverToServer socket env
  | .toPage socket => w.deliverToPage socket
  | .server e => if w.independent e then { w with server := w.server.handle e } else w

def run (w : System) : List SystemEvent → System
  | [] => w
  | e :: es => (w.handle segmentGraphemes e).run es

end System

end LocalFirst
