import LocalFirst.Server.JoinAtomic
import LocalFirst.Server.Reconciled

/-!
# The upgrade and the heartbeat

Model of the part of `attachSyncServer` that decides which sockets there are and what reaches the
handlers: the HTTP upgrade, the bound on a frame, the heartbeat timer and `close`.  Parsing the URL of
a request, the handshake and counting the bytes of a frame are the library's.

* `Gateway` — the server with its clients, and which of them are alive.
* `run_server` — what the gateway does is a run of the server.
* `message_received` — a client message arrives as itself, or its socket is closed.
* `refused_leave_no_trace` — a socket that is not let in makes no difference to anything.
* `closes_iff` — an open socket closes when its peer or the server does, at a frame that is too large,
  or at a heartbeat that finds the last ping unanswered or cannot send another.
-/

set_option autoImplicit false

namespace LocalFirst

open SyncServer (Event)

/-- The header of a request; one that is sent more than once is a list. -/
inductive OriginHeader where
  | undefined
  | single (value : JsString)
  | several (values : List JsString)
  deriving DecidableEq

def isOriginAllowed (originHeader : OriginHeader) (allowedOrigins : List JsString) : Bool :=
  if allowedOrigins.length = 0 then true
  else match originHeader with
    | .undefined => true
    | .several _ => false
    | .single value => if value.length = 0 then false else allowedOrigins.contains value

/-- The settings that are used here. -/
structure ServerConfig where
  wsMaxPayloadBytes : ℕ
  wsAllowedOrigins : List JsString

/-- `pathname` is what `new URL` reads from the target, or nothing where it throws. -/
structure UpgradeRequest where
  pathname : Option JsString
  origin : OriginHeader
  handshake : Bool
  deriving DecidableEq

/-- `crashed`: an exception that nobody catches has ended the process. -/
structure Gateway where
  metered : MeteredServer
  clients : List SocketId
  alive : SocketId → Option Bool
  crashed : Bool

inductive GatewayEvent where
  | upgrade (socket : SocketId) (request : UpgradeRequest) (connectedAt : Int)
  | heartbeat (pingThrows : SocketId → Bool)
  | pong (socket : SocketId)
  /-- A frame of so many bytes with this text. -/
  | message (socket : SocketId) (bytes : ℕ) (data : JsString) (env : ServerEnv)
  | closing (socket : SocketId)
  | close (socket : SocketId) (env : ServerEnv)
  | shutDown
  | shutDownDone

/-- The socket that an event is about. -/
def GatewayEvent.socket? : GatewayEvent → Option SocketId
  | .upgrade socket _ _ => some socket
  | .pong socket => some socket
  | .message socket _ _ _ => some socket
  | .closing socket => some socket
  | .close socket _ => some socket
  | .heartbeat _ => none
  | .shutDown => none
  | .shutDownDone => none

namespace Gateway

def start (store : OperationStore) : Gateway := ⟨.start store, [], fun _ => none, false⟩

def readyState (g : Gateway) (socket : SocketId) : ReadyState := g.metered.readyState socket

def isClosing (g : Gateway) : Bool := g.metered.closing

/-- `alive.set`. -/
def setAlive (g : Gateway) (socket : SocketId) (value : Bool) : Gateway :=
  { g with alive := fun s => if s = socket then some value else g.alive s }

/-- `metrics.recordInternalError`. -/
def recordInternalError (g : Gateway) : Gateway :=
  { g with metered := g.metered.record .recordInternalError }

def terminate (g : Gateway) (client : SocketId) : Gateway :=
  { g with metered := g.metered.handle (.closing client) }

/-! ## The upgrade -/

/-- The `connection` event. -/
def connection (g : Gateway) (socket : SocketId) (connectedAt : Int) : Gateway :=
  ({ g with
    metered := g.metered.handle (.connection socket connectedAt)
    clients := g.clients ++ [socket] } : Gateway).setAlive socket true

/-- A socket that has been used never connects again. -/
def onUpgrade (config : ServerConfig) (g : Gateway) (socket : SocketId)
    (request : UpgradeRequest) (connectedAt : Int) : Gateway :=
  if g.isClosing then g
  else match request.pathname with
    | none => { g with crashed := true }
    | some pathname =>
      if pathname ≠ js "/sync" then g
      else if ¬ isOriginAllowed request.origin config.wsAllowedOrigins then g
      else if ¬ request.handshake ∨ g.readyState socket ≠ .connecting then g
      else g.connection socket connectedAt

/-! ## The heartbeat -/

/-- The body of the loop of the heartbeat timer. -/
def beat (pingThrows : SocketId → Bool) (g : Gateway) (client : SocketId) : Gateway :=
  if g.alive client = some false then g.terminate client
  else if g.readyState client ≠ .opened then g
  else
    let asked := g.setAlive client false
    if pingThrows client then asked.recordInternalError.terminate client else asked

def heartbeat (pingThrows : SocketId → Bool) (g : Gateway) : Gateway :=
  if g.isClosing then g else Runs.run (beat pingThrows) g g.clients

/-! ## Events -/

/-- A frame over `maxPayload` closes its socket and is not handled.  `close` waits until no client is
left. -/
def act (config : ServerConfig) (g : Gateway) : GatewayEvent → Gateway
  | .upgrade socket request connectedAt => g.onUpgrade config socket request connectedAt
  | .heartbeat pingThrows => g.heartbeat pingThrows
  | .pong socket => if g.alive socket = none then g else g.setAlive socket true
  | .message socket bytes data env =>
    if config.wsMaxPayloadBytes < bytes then
      { g with metered := g.metered.handle (.closing socket) }
    else { g with metered := g.metered.handle (.message socket (Wire.frameOf data) env) }
  | .closing socket => { g with metered := g.metered.handle (.closing socket) }
  | .close socket env =>
    { g with
      metered := g.metered.handle (.close socket env)
      clients := g.clients.filter (· ≠ socket) }
  | .shutDown => { g with metered := g.metered.handle .shutDown }
  | .shutDownDone =>
    if g.clients = [] then { g with metered := g.metered.handle .shutDownDone } else g

/-- Nothing happens once the process has ended. -/
def step (config : ServerConfig) (g : Gateway) (e : GatewayEvent) : Gateway :=
  if g.crashed then g else g.act config e

def run (config : ServerConfig) (g : Gateway) (es : List GatewayEvent) : Gateway :=
  Runs.run (step config) g es

section

variable {config : ServerConfig} {g : Gateway} {k : SocketId}

/-! ## Sockets -/

/-- What is seen of a socket. -/
def view (g : Gateway) (socket : SocketId) : Option Bool × ReadyState :=
  (g.alive socket, g.readyState socket)

/-- Closing a socket from either side. -/
def fade : ReadyState → ReadyState
  | .opened => .closing
  | r => r

theorem readyState_closing (w : MeteredServer) (socket j : SocketId) :
    (w.handle (.closing socket)).readyState j =
      if j = socket then fade (w.readyState j) else w.readyState j := by
  simp only [SyncServer.handle]
  by_cases hj : j = socket
  · subst hj
    by_cases hopen : w.readyState j = .opened
    · simp only [hopen, if_true, SyncServer.setReadyState, fade]
    · rw [if_neg hopen, if_pos rfl]
      cases hready : w.readyState j with
      | opened => exact absurd hready hopen
      | _ => rfl
  · rw [if_neg hj]
    split
    · exact if_neg hj
    · rfl

theorem view_terminate (g : Gateway) (client k : SocketId) : (g.terminate client).view k =
    if k = client then ((g.view k).1, fade (g.view k).2) else g.view k := by
  unfold view readyState terminate
  simp only [readyState_closing]
  split <;> rfl

theorem view_recordInternalError (g : Gateway) (k : SocketId) :
    g.recordInternalError.view k = g.view k := rfl

theorem view_setAlive (g : Gateway) (socket k : SocketId) (value : Bool) :
    (g.setAlive socket value).view k =
      if k = socket then (some value, (g.view k).2) else g.view k := by
  unfold view readyState setAlive
  simp only
  split <;> rfl

/-- What a heartbeat does to what is seen of a client. -/
def beatOf (throws : Bool) (seen : Option Bool × ReadyState) : Option Bool × ReadyState :=
  if seen.1 = some false then (seen.1, fade seen.2)
  else if seen.2 ≠ .opened then seen
  else (some false, if throws then fade seen.2 else seen.2)

theorem view_beat (pingThrows : SocketId → Bool) (g : Gateway) (client k : SocketId) :
    (g.beat pingThrows client).view k =
      if k = client then beatOf (pingThrows k) (g.view k) else g.view k := by
  unfold beat
  by_cases hk : k = client
  · subst hk
    rw [if_pos rfl]
    unfold beatOf
    by_cases hdead : g.alive k = some false
    · rw [if_pos hdead, if_pos (show (g.view k).1 = _ from hdead), view_terminate, if_pos rfl]
    · rw [if_neg hdead, if_neg (show ¬ (g.view k).1 = _ from hdead)]
      by_cases hopen : g.readyState k = .opened
      · rw [if_neg (not_not.2 hopen), if_neg (not_not.2 (show (g.view k).2 = _ from hopen))]
        simp only
        cases pingThrows k with
        | true =>
          simp only [if_true]
          rw [view_terminate, if_pos rfl, view_recordInternalError, view_setAlive, if_pos rfl]
        | false =>
          simp only [Bool.false_eq_true, if_false]
          rw [view_setAlive, if_pos rfl]
      · rw [if_pos hopen, if_pos (show (g.view k).2 ≠ _ from hopen)]
  · rw [if_neg hk]
    split
    · rw [view_terminate, if_neg hk]
    · split
      · rfl
      · simp only
        split
        · rw [view_terminate, if_neg hk, view_recordInternalError, view_setAlive, if_neg hk]
        · rw [view_setAlive, if_neg hk]

/-- What a heartbeat does to what is seen of a socket. -/
theorem view_heartbeat (hclients : g.clients.Nodup) (pingThrows : SocketId → Bool) (k : SocketId) :
    (g.heartbeat pingThrows).view k =
      if g.isClosing = false ∧ k ∈ g.clients then beatOf (pingThrows k) (g.view k) else g.view k := by
  unfold heartbeat
  cases g.isClosing with
  | true => rfl
  | false =>
    simp only [Bool.false_eq_true, if_false, true_and]
    exact Runs.run_keys (u := fun k => beatOf (pingThrows k))
      (fun g k => (view_beat pingThrows g k k).trans (if_pos rfl))
      (fun g client j hj => (view_beat pingThrows g client j).trans (if_neg hj)) hclients k

/-- A client is opened or closing. -/
def Live (r : ReadyState) : Prop := r = .opened ∨ r = .closing

/-- Only a socket that has not connected has no entry. -/
def Fits (seen : Option Bool × ReadyState) : Prop := seen.1 = none ↔ seen.2 = .connecting

theorem live_fade (r : ReadyState) : Live (fade r) ↔ Live r := by
  unfold Live fade
  cases r <;> decide

theorem fade_connecting (r : ReadyState) : fade r = .connecting ↔ r = .connecting := by
  cases r <;> decide

theorem Fits.fade {seen : Option Bool × ReadyState} (h : Fits seen) :
    Fits (seen.1, Gateway.fade seen.2) := h.trans (fade_connecting _).symm

theorem live_beatOf (throws : Bool) (seen : Option Bool × ReadyState) :
    Live (beatOf throws seen).2 ↔ Live seen.2 := by
  unfold beatOf
  split
  · exact live_fade _
  · split
    · rfl
    · cases throws with
      | true => exact live_fade _
      | false => rfl

theorem Fits.beatOf {seen : Option Bool × ReadyState} (h : Fits seen) (throws : Bool) :
    Fits (beatOf throws seen) := by
  unfold Gateway.beatOf
  split
  · exact h.fade
  · split
    · exact h
    · rename_i hopen
      rw [not_not] at hopen
      rw [hopen]
      unfold Fits
      cases throws <;> decide

/-- The clients and the entries of `alive` agree with the sockets. -/
structure Tended (g : Gateway) : Prop where
  nodup : g.clients.Nodup
  clients : ∀ k, k ∈ g.clients ↔ Live (g.view k).2
  alive : ∀ k, Fits (g.view k)

theorem Tended.start (store : OperationStore) : Tended (start store) where
  nodup := List.nodup_nil
  clients := fun k => ⟨fun h => by (cases h), fun h => by rcases h with h | h <;> cases h⟩
  alive := fun k => ⟨fun _ => rfl, fun _ => rfl⟩

theorem readyState_close (w : MeteredServer) (socket j : SocketId) (env : ServerEnv) :
    (w.handle (.close socket env)).readyState j =
      if j = socket ∧ (w.readyState j = .opened ∨ w.readyState j = .closing) then .closed
      else w.readyState j := by
  simp only [SyncServer.handle]
  by_cases hlive : w.readyState socket = .opened ∨ w.readyState socket = .closing
  · obtain ⟨added, rooms, activeRooms, hleft, -⟩ :=
      SyncServer.leaveRoom_effect env (w.setReadyState socket .closed) socket
    simp only [if_pos hlive, hleft]
    by_cases hj : j = socket
    · subst hj
      rw [if_pos ⟨rfl, hlive⟩]
      exact if_pos rfl
    · rw [if_neg fun h => hj h.1]
      exact if_neg hj
  · rw [if_neg hlive, if_neg]
    rintro ⟨rfl, h⟩
    exact hlive h

theorem readyState_shutDown (w : MeteredServer) (j : SocketId) :
    (w.handle .shutDown).readyState j = fade (w.readyState j) := by
  simp only [SyncServer.handle]
  cases w.readyState j <;> rfl

theorem readyState_shutDownDone (w : MeteredServer) :
    (w.handle .shutDownDone).readyState = w.readyState := by
  simp only [SyncServer.handle]
  split <;> rfl

/-- The request is let in. -/
def Admits (config : ServerConfig) (g : Gateway) (socket : SocketId)
    (request : UpgradeRequest) : Prop :=
  g.isClosing = false ∧ request.pathname = some (js "/sync") ∧
    isOriginAllowed request.origin config.wsAllowedOrigins = true ∧ request.handshake = true ∧
    g.readyState socket = .connecting

/-- The target of the request cannot be read. -/
def Throws (g : Gateway) (request : UpgradeRequest) : Prop :=
  g.isClosing = false ∧ request.pathname = none

theorem onUpgrade_admitted {request : UpgradeRequest}
    (h : Admits config g k request) (connectedAt : Int) :
    g.onUpgrade config k request connectedAt = g.connection k connectedAt := by
  obtain ⟨hclosing, hpath, horigin, hhandshake, hnew⟩ := h
  unfold onUpgrade
  simp only [hclosing, hpath, horigin, hhandshake, hnew, Bool.false_eq_true, if_false, ne_eq,
    not_true_eq_false, or_self]

theorem onUpgrade_throws {request : UpgradeRequest} (h : Throws g request) (connectedAt : Int) :
    g.onUpgrade config k request connectedAt = { g with crashed := true } := by
  unfold onUpgrade
  simp only [h.1, h.2, Bool.false_eq_true, if_false]

theorem onUpgrade_refused {request : UpgradeRequest} (h : ¬ Admits config g k request)
    (hreads : ¬ Throws g request) (connectedAt : Int) :
    g.onUpgrade config k request connectedAt = g := by
  unfold onUpgrade
  split
  · rfl
  · rename_i hclosing
    have hclosing : g.isClosing = false := Bool.eq_false_iff.2 hclosing
    split
    · rename_i hnone
      exact absurd ⟨hclosing, hnone⟩ hreads
    · rename_i pathname hsome
      split
      · rfl
      · rename_i hpath
        split
        · rfl
        · rename_i horigin
          split
          · rfl
          · rename_i hnew
            rw [not_or, not_not, not_not] at hnew
            rw [not_not] at hpath horigin
            rw [hpath] at hsome
            exact absurd ⟨hclosing, hsome, horigin, hnew.1, hnew.2⟩ h

/-- What an upgrade that is not let in does to the server and its clients. -/
theorem onUpgrade_not_admitted {request : UpgradeRequest} (h : ¬ Admits config g k request)
    (connectedAt : Int) : ∃ crashed, g.onUpgrade config k request connectedAt =
      { g with crashed := crashed } := by
  by_cases hreads : Throws g request
  · exact ⟨true, onUpgrade_throws hreads connectedAt⟩
  · exact ⟨g.crashed, onUpgrade_refused h hreads connectedAt⟩

theorem view_connection (hclosing : g.isClosing = false) (hnew : g.readyState k = .connecting)
    (connectedAt : Int) (j : SocketId) :
    (g.connection k connectedAt).view j = if j = k then (some true, .opened) else g.view j := by
  unfold connection
  rw [view_setAlive]
  have hready : ∀ j, (g.metered.handle (.connection k connectedAt)).readyState j =
      if j = k then .opened else g.readyState j := by
    intro j
    have hgo : ¬ (g.metered.closing = true ∨ g.metered.readyState k ≠ .connecting) := by
      rw [not_or, not_not]
      exact ⟨Bool.eq_false_iff.1 hclosing, hnew⟩
    simp only [SyncServer.handle, if_neg hgo]
    rfl
  unfold view
  split
  · rename_i hj
    simp only
    unfold readyState
    rw [hready, if_pos hj]
  · rename_i hj
    unfold readyState
    simp only
    rw [hready, if_neg hj]
    rfl

/-- What an event does to what is seen of a socket. -/
def viewAfter (config : ServerConfig) (g : Gateway) (k : SocketId) :
    GatewayEvent → Option Bool × ReadyState → Option Bool × ReadyState
  | .upgrade socket request _, seen =>
    if g.isClosing = false ∧ request.pathname = some (js "/sync") ∧
      isOriginAllowed request.origin config.wsAllowedOrigins = true ∧ request.handshake = true ∧
      g.readyState socket = .connecting ∧ k = socket then (some true, .opened) else seen
  | .heartbeat pingThrows, seen =>
    if g.isClosing = false ∧ k ∈ g.clients then beatOf (pingThrows k) seen else seen
  | .pong socket, seen => if k = socket ∧ seen.1 ≠ none then (some true, seen.2) else seen
  | .message socket bytes _ _, seen =>
    if config.wsMaxPayloadBytes < bytes ∧ k = socket then (seen.1, fade seen.2) else seen
  | .closing socket, seen => if k = socket then (seen.1, fade seen.2) else seen
  | .close socket _, seen =>
    if k = socket ∧ (seen.2 = .opened ∨ seen.2 = .closing) then (seen.1, .closed) else seen
  | .shutDown, seen => (seen.1, fade seen.2)
  | .shutDownDone, seen => seen

theorem view_act (hclients : g.clients.Nodup) (e : GatewayEvent) (k : SocketId) :
    (g.act config e).view k = viewAfter config g k e (g.view k) := by
  cases e with
  | upgrade socket request connectedAt =>
    show (g.onUpgrade config socket request connectedAt).view k = _
    simp only [viewAfter]
    by_cases hadmits : Admits config g socket request
    · obtain ⟨hclosing, hpath, horigin, hhandshake, hnew⟩ := id hadmits
      rw [onUpgrade_admitted hadmits, view_connection hclosing hnew]
      simp only [hclosing, hpath, horigin, hhandshake, hnew, true_and]
    · obtain ⟨crashed, hrefused⟩ := onUpgrade_not_admitted hadmits connectedAt
      rw [hrefused, if_neg]
      · rfl
      · rintro ⟨hclosing, hpath, horigin, hhandshake, hnew, -⟩
        exact hadmits ⟨hclosing, hpath, horigin, hhandshake, hnew⟩
  | heartbeat pingThrows => exact view_heartbeat hclients pingThrows k
  | pong socket =>
    show (if g.alive socket = none then g else g.setAlive socket true).view k = _
    simp only [viewAfter]
    split
    · rename_i hnone
      rw [if_neg]
      rintro ⟨rfl, h⟩
      exact h hnone
    · rename_i hsome
      rw [view_setAlive]
      by_cases hk : k = socket
      · subst hk
        rw [if_pos rfl, if_pos ⟨rfl, hsome⟩]
      · rw [if_neg hk, if_neg fun h => hk h.1]
  | message socket bytes data env =>
    simp only [act, viewAfter]
    by_cases hlarge : config.wsMaxPayloadBytes < bytes
    · simp only [hlarge, true_and]
      exact view_terminate g socket k
    · rw [if_neg hlarge, if_neg fun h => hlarge h.1]
      exact Prod.ext rfl (congrFun (MeteredServer.readyState_message env g.metered socket _) k)
  | closing socket => exact view_terminate g socket k
  | close socket env =>
    simp only [viewAfter]
    have hready := readyState_close g.metered socket k env
    refine Prod.ext ?_ ?_
    · split <;> rfl
    · refine hready.trans ?_
      unfold view readyState
      simp only
      split <;> rfl
  | shutDown => exact Prod.ext rfl (readyState_shutDown g.metered k)
  | shutDownDone =>
    show (if g.clients = [] then _ else g : Gateway).view k = g.view k
    split
    · exact Prod.ext rfl (congrFun (readyState_shutDownDone g.metered) k)
    · rfl

theorem clients_beat (pingThrows : SocketId → Bool) (g : Gateway) (client : SocketId) :
    (g.beat pingThrows client).clients = g.clients := by
  unfold beat
  split
  · rfl
  · split
    · rfl
    · simp only
      split <;> rfl

theorem clients_heartbeat (pingThrows : SocketId → Bool) (g : Gateway) :
    (g.heartbeat pingThrows).clients = g.clients := by
  unfold heartbeat
  split
  · rfl
  · exact Runs.invariant (fun g' client h => (clients_beat pingThrows g' client).trans h) g g.clients rfl

theorem Fits.viewAfter {seen : Option Bool × ReadyState} (h : Fits seen) (e : GatewayEvent) :
    Fits (viewAfter config g k e seen) := by
  have hopened : Fits (some true, .opened) := by
    unfold Fits
    decide
  cases e with
  | upgrade socket request connectedAt =>
    simp only [Gateway.viewAfter]
    split
    · exact hopened
    · exact h
  | heartbeat pingThrows =>
    simp only [Gateway.viewAfter]
    split
    · exact h.beatOf _
    · exact h
  | pong socket =>
    simp only [Gateway.viewAfter]
    split
    · rename_i hsome
      exact iff_of_false (fun hnone => by cases hnone) fun hnew => hsome.2 (h.2 hnew)
    · exact h
  | message socket bytes data env =>
    simp only [Gateway.viewAfter]
    split
    · exact h.fade
    · exact h
  | closing socket =>
    simp only [Gateway.viewAfter]
    split
    · exact h.fade
    · exact h
  | close socket env =>
    simp only [Gateway.viewAfter]
    split
    · rename_i hlive
      refine iff_of_false (fun hnone => ?_) fun hnew => by cases hnew
      rcases hlive.2 with hr | hr <;> rw [h.1 hnone] at hr <;> cases hr
    · exact h
  | shutDown => exact h.fade
  | shutDownDone => exact h

theorem Tended.act (h : Tended g) (e : GatewayEvent) : Tended (g.act config e) := by
  have hview := @view_act config g h.nodup e
  refine ⟨?_, fun k => ?_, fun k => ?_⟩
  · cases e with
    | upgrade socket request connectedAt =>
      show (g.onUpgrade config socket request connectedAt).clients.Nodup
      by_cases hadmits : Admits config g socket request
      · rw [onUpgrade_admitted hadmits]
        refine List.nodup_append.2 ⟨h.nodup, List.nodup_singleton _, fun a ha b hb hab => ?_⟩
        rw [List.mem_singleton.1 hb] at hab
        rw [hab] at ha
        have hlive := (h.clients socket).1 ha
        rw [show (g.view socket).2 = .connecting from hadmits.2.2.2.2] at hlive
        rcases hlive with hr | hr <;> cases hr
      · obtain ⟨crashed, hrefused⟩ := onUpgrade_not_admitted hadmits connectedAt
        rw [hrefused]
        exact h.nodup
    | heartbeat pingThrows =>
      show (g.heartbeat pingThrows).clients.Nodup
      rw [clients_heartbeat]
      exact h.nodup
    | pong socket =>
      show (if g.alive socket = none then g else g.setAlive socket true).clients.Nodup
      split <;> exact h.nodup
    | close socket env => exact h.nodup.filter _
    | shutDownDone =>
      show (if g.clients = [] then _ else g : Gateway).clients.Nodup
      split <;> exact h.nodup
    | message socket bytes data env =>
      simp only [Gateway.act]
      split <;> exact h.nodup
    | closing socket => exact h.nodup
    | shutDown => exact h.nodup
  · rw [hview k]
    cases e with
    | upgrade socket request connectedAt =>
      show k ∈ (g.onUpgrade config socket request connectedAt).clients ↔ _
      simp only [viewAfter]
      by_cases hadmits : Admits config g socket request
      · rw [onUpgrade_admitted hadmits]
        obtain ⟨hclosing, hpath, horigin, hhandshake, hnew⟩ := hadmits
        simp only [hclosing, hpath, horigin, hhandshake, hnew, true_and]
        show k ∈ g.clients ++ [socket] ↔ _
        rw [List.mem_append, List.mem_singleton]
        split
        · rename_i hk
          exact ⟨fun _ => Or.inl rfl, fun _ => Or.inr hk⟩
        · rename_i hk
          exact ⟨fun hmem => (h.clients k).1 (hmem.resolve_right hk),
            fun hlive => Or.inl ((h.clients k).2 hlive)⟩
      · obtain ⟨crashed, hrefused⟩ := onUpgrade_not_admitted hadmits connectedAt
        rw [hrefused, if_neg]
        · exact h.clients k
        · rintro ⟨hclosing, hpath, horigin, hhandshake, hnew, -⟩
          exact hadmits ⟨hclosing, hpath, horigin, hhandshake, hnew⟩
    | heartbeat pingThrows =>
      show k ∈ (g.heartbeat pingThrows).clients ↔ _
      rw [clients_heartbeat, h.clients k]
      simp only [viewAfter]
      split
      · exact (live_beatOf _ _).symm
      · rfl
    | pong socket =>
      show k ∈ (if g.alive socket = none then g else g.setAlive socket true).clients ↔ _
      have hsame : (if g.alive socket = none then g else g.setAlive socket true).clients =
          g.clients := by
        split <;> rfl
      rw [hsame, h.clients k]
      simp only [viewAfter]
      split <;> rfl
    | message socket bytes data env =>
      have hsame : (g.act config (.message socket bytes data env)).clients = g.clients := by
        simp only [Gateway.act]
        split <;> rfl
      rw [hsame, h.clients k]
      simp only [viewAfter]
      split
      · exact (live_fade _).symm
      · rfl
    | closing socket =>
      refine (h.clients k).trans ?_
      simp only [viewAfter]
      split
      · exact (live_fade _).symm
      · rfl
    | close socket env =>
      show k ∈ g.clients.filter (· ≠ socket) ↔ _
      rw [List.mem_filter, decide_eq_true_eq, h.clients k]
      simp only [viewAfter]
      split
      · rename_i hgone
        exact iff_of_false (fun hmem => hmem.2 hgone.1) fun hlive => by
          rcases hlive with hr | hr <;> cases hr
      · rename_i hstays
        exact ⟨fun hmem => hmem.1, fun hlive => ⟨hlive, fun hk => hstays ⟨hk, hlive⟩⟩⟩
    | shutDown => exact (h.clients k).trans (live_fade _).symm
    | shutDownDone =>
      show k ∈ (if g.clients = [] then _ else g : Gateway).clients ↔ _
      split <;> exact h.clients k
  · rw [hview k]
    exact (h.alive k).viewAfter e

theorem Tended.step (h : Tended g) (e : GatewayEvent) : Tended (g.step config e) := by
  unfold Gateway.step
  split
  · exact h
  · exact h.act e

theorem Tended.run (h : Tended g) (es : List GatewayEvent) : Tended (g.run config es) :=
  @Runs.invariant _ _ (Gateway.step config) Tended (fun _ e h => h.step e) g es h

/-! ## The run of the server -/

/-- What is reached by a run of the server. -/
def Reaches (v v' : SyncServer) : Prop := ∃ es : List Event, v' = v.run es

theorem Reaches.handle {u v : SyncServer} (h : Reaches u v) (e : Event) : Reaches u (v.handle e) := by
  obtain ⟨es, rfl⟩ := h
  refine ⟨es ++ [e], ?_⟩
  rw [SyncServer.run_eq, SyncServer.run_eq, Runs.run_snoc]

theorem Reaches.metered {u : SyncServer} {w : MeteredServer} (h : Reaches u w.plain) (e : Event) :
    Reaches u (w.handle e).plain := by
  rw [MeteredServer.handle_plain]
  exact h.handle e

theorem Reaches.beat {u : SyncServer} {g : Gateway} (h : Reaches u g.metered.plain)
    (pingThrows : SocketId → Bool) (client : SocketId) :
    Reaches u (g.beat pingThrows client).metered.plain := by
  unfold Gateway.beat
  split
  · exact h.metered _
  · split
    · exact h
    · simp only
      split
      · exact Reaches.metered (w := (g.setAlive client false).recordInternalError.metered) h _
      · exact h

theorem Reaches.act {u : SyncServer} (h : Reaches u g.metered.plain) (e : GatewayEvent) :
    Reaches u (g.act config e).metered.plain := by
  cases e with
  | upgrade socket request connectedAt =>
    show Reaches u (g.onUpgrade config socket request connectedAt).metered.plain
    by_cases hadmits : Admits config g socket request
    · rw [onUpgrade_admitted hadmits]
      exact h.metered _
    · obtain ⟨crashed, hrefused⟩ := onUpgrade_not_admitted hadmits connectedAt
      rw [hrefused]
      exact h
  | heartbeat pingThrows =>
    show Reaches u (g.heartbeat pingThrows).metered.plain
    unfold Gateway.heartbeat
    split
    · exact h
    · exact @Runs.invariant _ _ (Gateway.beat pingThrows) (fun g => Reaches u g.metered.plain)
        (fun _ client h => h.beat pingThrows client) g g.clients h
  | pong socket =>
    show Reaches u (if g.alive socket = none then g else g.setAlive socket true).metered.plain
    split <;> exact h
  | message socket bytes data env =>
    simp only [Gateway.act]
    split
    · exact h.metered _
    · exact h.metered _
  | closing socket => exact h.metered _
  | close socket env => exact h.metered _
  | shutDown => exact h.metered _
  | shutDownDone =>
    show Reaches u (if g.clients = [] then _ else g : Gateway).metered.plain
    split
    · exact h.metered _
    · exact h

theorem Reaches.step {u : SyncServer} (h : Reaches u g.metered.plain) (e : GatewayEvent) :
    Reaches u (g.step config e).metered.plain := by
  unfold Gateway.step
  split
  · exact h
  · exact h.act e

/-- **What the gateway does is a run of the server.** -/
theorem run_server (config : ServerConfig) (store : OperationStore)
    (es : List GatewayEvent) : ∃ serverEvents : List Event,
      ((start store).run config es).metered.plain =
        (SyncServer.start store).run serverEvents :=
  @Runs.invariant _ _ (Gateway.step config)
    (fun g => Reaches (SyncServer.start store) g.metered.plain) (fun _ e h => h.step e)
    (start store) es ⟨[], rfl⟩

theorem run_rooms (config : ServerConfig) (store : OperationStore)
    (es : List GatewayEvent) :
    ((start store).run config es).metered.plain.RoomInv := by
  obtain ⟨serverEvents, heq⟩ := run_server config store es
  rw [heq, SyncServer.run_eq]
  exact Runs.invariant (fun _ e h => h.handle e) _ serverEvents (SyncServer.RoomInv.start store)

/-! ## The wire -/

/-- **A client message on its way to the server.**  The text it is written as is read as the message
itself when its fields meet the bounds, and as a malformed one otherwise.  The server does the same
with the frame as with the message, unless the frame is too large: then the socket begins to close,
and that is all. -/
theorem message_received (config : ServerConfig) (m : ClientMessage) :
    let data := Wire.send ((Wire.ofClientMessage m).stringify decimal)
    Wire.frameOf data = (if clientMessageSchema m then .message m else .malformed) ∧
      ∀ (g : Gateway) (socket : SocketId) (env : ServerEnv),
        g.act config (.message socket (byteLength data) data env) =
          if config.wsMaxPayloadBytes < byteLength data then g.terminate socket
          else { g with metered := g.metered.handle (.message socket (.message m) env) } := by
  intro data
  refine ⟨Wire.frameOf_sent m, fun g socket env => ?_⟩
  have hhandle : g.metered.handle (.message socket (Wire.frameOf data) env) =
      g.metered.handle (.message socket (.message m) env) := Wire.handleMessage_sent env _ socket m
  unfold act
  simp only
  rw [hhandle]
  rfl

/-! ## Which sockets there are -/

/-- A request for the socket that is let in, or that ends the process. -/
def LetsIn (config : ServerConfig) (k : SocketId) (g : Gateway) : GatewayEvent → Prop
  | .upgrade socket request _ => socket = k ∧ (Admits config g socket request ∨ Throws g request)
  | _ => False

/-- The socket has not connected. -/
structure Outside (k : SocketId) (g : Gateway) : Prop where
  tended : Tended g
  rooms : g.metered.plain.RoomInv
  connecting : g.readyState k = .connecting

theorem Outside.alive (h : Outside k g) : g.alive k = none := (h.tended.alive k).2 h.connecting

theorem Outside.dead (h : Outside k g) : ¬ Live (g.readyState k) := by
  rw [h.connecting]
  unfold Live
  decide

theorem Outside.no_session (h : Outside k g) : g.metered.sessions.get? k = none := by
  rw [Option.eq_none_iff_forall_ne_some]
  intro session hsession
  exact h.dead (h.rooms.connected k session hsession)

/-- **Its own events change nothing**, unless it is let in. -/
theorem Outside.act_own (h : Outside k g) {e : GatewayEvent} (he : e.socket? = some k)
    (hrefused : ¬ LetsIn config k g e) : g.act config e = g := by
  have hclosing : g.metered.handle (.closing k) = g.metered :=
    if_neg fun hopen => h.dead (Or.inl hopen)
  cases e with
  | upgrade socket request connectedAt =>
    cases he
    exact onUpgrade_refused (fun hadmits => hrefused ⟨rfl, Or.inl hadmits⟩)
      (fun hthrows => hrefused ⟨rfl, Or.inr hthrows⟩) connectedAt
  | pong socket =>
    cases he
    exact if_pos h.alive
  | message socket bytes data env =>
    cases he
    have hmessage : g.metered.handle (.message k (Wire.frameOf data) env) = g.metered := by
      simp only [SyncServer.handle, SyncServer.handleMessage]
      rw [h.no_session]
    simp only [act]
    rw [hclosing, hmessage]
    split <;> rfl
  | closing socket =>
    cases he
    simp only [act]
    rw [hclosing]
  | close socket env =>
    cases he
    have hclose : g.metered.handle (.close k env) = g.metered := if_neg h.dead
    have hclients : g.clients.filter (· ≠ k) = g.clients := by
      refine List.filter_eq_self.2 fun j hj => decide_eq_true ?_
      rintro rfl
      exact h.dead ((h.tended.clients j).1 hj)
    simp only [act]
    rw [hclose, hclients]
  | heartbeat pingThrows => cases he
  | shutDown => cases he
  | shutDownDone => cases he

/-- What the events of others do to what is seen of it. -/
theorem Outside.act_others (h : Outside k g) {e : GatewayEvent} (he : e.socket? ≠ some k) :
    (g.act config e).readyState k = .connecting := by
  have hview : (g.act config e).readyState k = (viewAfter config g k e (g.view k)).2 :=
    congrArg Prod.snd (view_act h.tended.nodup e k)
  have hseen : (g.view k).2 = .connecting := h.connecting
  rw [hview]
  cases e with
  | upgrade socket request connectedAt =>
    simp only [viewAfter]
    rw [if_neg]
    · exact hseen
    · rintro ⟨-, -, -, -, -, rfl⟩
      exact he rfl
  | heartbeat pingThrows =>
    simp only [viewAfter]
    rw [if_neg]
    · exact hseen
    · rintro ⟨-, hmem⟩
      exact h.dead ((h.tended.clients k).1 hmem)
  | pong socket =>
    simp only [viewAfter]
    split <;> exact hseen
  | message socket bytes data env =>
    simp only [viewAfter]
    split
    · exact (fade_connecting _).2 hseen
    · exact hseen
  | closing socket =>
    simp only [viewAfter]
    split
    · exact (fade_connecting _).2 hseen
    · exact hseen
  | close socket env =>
    simp only [viewAfter]
    rw [if_neg]
    · exact hseen
    · rintro ⟨rfl, -⟩
      exact he rfl
  | shutDown => exact (fade_connecting _).2 hseen
  | shutDownDone => exact hseen

/-- **A socket that is not let in makes no difference to anything.**  Whatever it sends, and however
often it asks: the run is the one without its events, and it never connects. -/
theorem refused_leave_no_trace (config : ServerConfig) (store : OperationStore)
    (es : List GatewayEvent) (k : SocketId)
    (hrefused : Runs.Never (step config) (LetsIn config k) (start store) es) :
    (start store).run config es =
        (start store).run config (es.filter fun e => e.socket? ≠ some k) ∧
      ((start store).run config es).readyState k = .connecting := by
  refine hrefused.history (Q := fun es => (start store).run config es =
    (start store).run config (es.filter fun e => e.socket? ≠ some k) ∧
      ((start store).run config es).readyState k = .connecting) ⟨rfl, rfl⟩ ?_
  intro before e hbefore hstep
  obtain ⟨hsame, hconnecting⟩ := hbefore
  have houtside : Outside k ((start store).run config before) :=
    ⟨(Tended.start store).run before, run_rooms config store before, hconnecting⟩
  have hsnoc : ∀ es, (start store).run config (es ++ [e]) = ((start store).run config es).step config e :=
    fun es => Runs.run_snoc _ es e
  rw [List.filter_append, hsnoc]
  by_cases he : e.socket? = some k
  · have hown : ((start store).run config before).step config e = (start store).run config before := by
      unfold step
      split
      · rfl
      · exact houtside.act_own he hstep
    rw [List.filter_singleton, decide_eq_false (not_not.2 he), cond_false, List.append_nil, hown]
    exact ⟨hsame, hconnecting⟩
  · rw [List.filter_singleton, decide_eq_true he, cond_true, hsnoc, ← hsame]
    refine ⟨rfl, ?_⟩
    unfold step
    split
    · exact hconnecting
    · exact houtside.act_others he

/-- A socket of another origin asks to join between two clients. -/
theorem refused_leave_no_trace_foreign :
    let config : ServerConfig := ⟨1024, [js "http://localhost:5173"]⟩
    let request : UpgradeRequest := ⟨some (js "/sync"), .single (js "http://localhost:5173"), true⟩
    let foreign : UpgradeRequest := ⟨some (js "/sync"), .single (js "http://example.test"), true⟩
    let env : ServerEnv := ⟨none, none, none, true, id⟩
    let join : ClientMessage := .join ⟨js "d", js "A", 0, none, none⟩
    let data := Wire.send ((Wire.ofClientMessage join).stringify decimal)
    let asks : GatewayEvent := .message 0 100 data env
    let intrudes : GatewayEvent := .message 2 100 data env
    (start .empty).run config
        [.upgrade 0 request 5, .upgrade 2 foreign 6, intrudes, asks, .upgrade 1 request 7, .close 2 env] =
      (start .empty).run config [.upgrade 0 request 5, asks, .upgrade 1 request 7] := by
  intro config request foreign env join data asks intrudes
  have hrefused : ∀ e ∈ [.upgrade 0 request 5, .upgrade 2 foreign 6, intrudes, asks,
      .upgrade 1 request 7, .close 2 env], ∀ g, ¬ LetsIn config 2 g e := by
    intro e he g hin
    simp only [List.mem_cons, List.not_mem_nil, or_false] at he
    rcases he with rfl | rfl | rfl | rfl | rfl | rfl
    · exact absurd hin.1 (by decide)
    · rcases hin.2 with hadmits | hthrows
      · exact absurd hadmits.2.2.1 (by decide +kernel)
      · cases hthrows.2
    · exact hin
    · exact hin
    · exact absurd hin.1 (by decide)
    · exact hin
  exact (refused_leave_no_trace config .empty _ 2 fun before e after heq =>
    hrefused e (by rw [heq]; simp) _).1

/-! ## Which sockets go away -/

/-- A heartbeat that pings the socket. -/
def Pings (k : SocketId) (g : Gateway) : GatewayEvent → Prop
  | .heartbeat _ => g.isClosing = false ∧ g.readyState k = .opened ∧ g.alive k ≠ some false
  | _ => False

/-- The last ping of the socket, after the events, has not been answered. -/
def Unanswered (config : ServerConfig) (store : OperationStore) (es : List GatewayEvent)
    (k : SocketId) : Prop :=
  Runs.Since (step config) (Pings k) (· = .pong k) (start store) es

theorem beatOf_alive (throws : Bool) (seen : Option Bool × ReadyState) :
    (beatOf throws seen).1 = some false ↔ seen.1 = some false ∨ seen.2 = .opened := by
  unfold beatOf
  split
  · rename_i hdead
    exact iff_of_true hdead (Or.inl hdead)
  · rename_i hdead
    split
    · rename_i hopen
      exact iff_of_false hdead fun h => h.elim hdead hopen
    · rename_i hopen
      exact iff_of_true rfl (Or.inr (not_not.1 hopen))

theorem alive_act (h : Tended g) (e : GatewayEvent) (k : SocketId) :
    (g.act config e).alive k = some false ↔
      Pings k g e ∨ g.alive k = some false ∧ ¬ e = .pong k := by
  have hview : (g.act config e).alive k =
      (viewAfter config g k e (g.view k)).1 := congrArg Prod.fst (view_act h.nodup e k)
  rw [hview]
  cases e with
  | upgrade socket request connectedAt =>
    simp only [viewAfter, Pings, reduceCtorEq, not_false_eq_true, and_true, false_or]
    split
    · rename_i hin
      obtain ⟨-, -, -, -, hnew, rfl⟩ := hin
      have hnone : g.alive k = none := (h.alive k).2 hnew
      rw [hnone]
      exact iff_of_false (fun hr => by cases hr) fun hr => by cases hr
    · rfl
  | heartbeat pingThrows =>
    simp only [viewAfter, Pings, reduceCtorEq, not_false_eq_true, and_true]
    split
    · rename_i hbeats
      rw [beatOf_alive]
      show g.alive k = some false ∨ g.readyState k = .opened ↔ _
      by_cases hdead : g.alive k = some false
      · exact iff_of_true (Or.inl hdead) (Or.inr hdead)
      · exact ⟨fun hr => Or.inl ⟨hbeats.1, hr.resolve_left hdead, hdead⟩,
          fun hr => Or.inr (hr.resolve_right hdead).2.1⟩
    · rename_i hbeats
      refine ⟨Or.inr, fun hr => hr.resolve_left ?_⟩
      rintro ⟨hclosing, hopen, -⟩
      exact hbeats ⟨hclosing, (h.clients k).2 (Or.inl hopen)⟩
  | pong socket =>
    simp only [viewAfter, Pings, false_or, GatewayEvent.pong.injEq]
    split
    · rename_i hk
      exact iff_of_false (fun hr => by cases hr) fun hr => hr.2 hk.1.symm
    · rename_i hk
      refine ⟨fun hdead => ⟨hdead, fun hsocket => hk ⟨hsocket.symm, ?_⟩⟩, fun hr => hr.1⟩
      rw [hdead]
      exact Option.some_ne_none _
  | message socket bytes data env =>
    simp only [viewAfter, Pings, reduceCtorEq, not_false_eq_true, and_true, false_or]
    split <;> rfl
  | closing socket =>
    simp only [viewAfter, Pings, reduceCtorEq, not_false_eq_true, and_true, false_or]
    split <;> rfl
  | close socket env =>
    simp only [viewAfter, Pings, reduceCtorEq, not_false_eq_true, and_true, false_or]
    split <;> rfl
  | shutDown =>
    simp only [viewAfter, Pings, reduceCtorEq, not_false_eq_true, and_true, false_or]
    rfl
  | shutDownDone =>
    simp only [viewAfter, Pings, reduceCtorEq, not_false_eq_true, and_true, false_or]
    rfl

/-- The process does not come back. -/
theorem crashed_run : ∀ {g : Gateway} (es : List GatewayEvent), g.crashed = true →
    (g.run config es).crashed = true
  | _, [], h => h
  | g, e :: es, h => by
    show ((g.step config e).run config es).crashed = true
    unfold step
    rw [if_pos h]
    exact crashed_run es h

/-- **A socket is held for dead exactly while its last ping is unanswered.** -/
theorem alive_false_iff (config : ServerConfig) (store : OperationStore)
    (es : List GatewayEvent) (k : SocketId)
    (hrunning : ((start store).run config es).crashed = false) :
    ((start store).run config es).alive k = some false ↔
      Unanswered config store es k := by
  refine @Runs.since_iff _ _ (step config) (start store) es (fun g => g.alive k = some false)
    (Pings k) (· = .pong k) (fun h => by cases h) fun before e after heq => ?_
  have hbefore : ((start store).run config before).crashed = false := by
    refine Bool.eq_false_iff.2 fun hcrashed => ?_
    have hend := @crashed_run config _ (e :: after) hcrashed
    rw [heq, show (start store).run config (before ++ e :: after) =
      ((start store).run config before).run config (e :: after) from Runs.run_append _ _ _,
      hend] at hrunning
    cases hrunning
  have hact : ((start store).run config before).step config e =
      ((start store).run config before).act config e := by
    unfold step
    rw [hbefore]
    rfl
  rw [show Runs.run (step config) (start store) before = (start store).run config before from rfl,
    hact]
  exact alive_act ((Tended.start store).run before) e k

/-- The process runs, and the socket is open. -/
def IsOpen (g : Gateway) (socket : SocketId) : Prop :=
  g.crashed = false ∧ g.readyState socket = .opened

/-- The peer, the library below or the server closes the socket (a frame that is invalid or a connection
that is lost is a `close` too), a frame of its is too large, or the target of a request ends the
process. -/
def Closes (config : ServerConfig) (k : SocketId) : GatewayEvent → Prop
  | .closing socket => socket = k
  | .close socket _ => socket = k
  | .message socket bytes _ _ => config.wsMaxPayloadBytes < bytes ∧ k = socket
  | .upgrade _ request _ => request.pathname = none
  | .shutDown => True
  | _ => False

theorem crashed_heartbeat (pingThrows : SocketId → Bool) (g : Gateway) :
    (g.heartbeat pingThrows).crashed = g.crashed := by
  unfold heartbeat
  split
  · rfl
  · refine Runs.invariant (I := fun g' : Gateway => g'.crashed = g.crashed)
      (fun g' client h => ?_) g g.clients rfl
    unfold beat
    split
    · exact h
    · split
      · exact h
      · simp only
        split <;> exact h

/-- Only the target of a request ends the process. -/
theorem crashed_act (hrunning : g.crashed = false) (e : GatewayEvent) :
    (g.act config e).crashed = true ↔
      ∃ socket request connectedAt, e = .upgrade socket request connectedAt ∧ Throws g request := by
  have hstays : ∀ {g' : Gateway}, g'.crashed = g.crashed →
      (∀ socket request connectedAt, e ≠ .upgrade socket request connectedAt) →
      (g'.crashed = true ↔
        ∃ socket request connectedAt, e = .upgrade socket request connectedAt ∧ Throws g request) := by
    intro g' hsame he
    rw [hsame, hrunning]
    exact iff_of_false (fun h => by cases h)
      fun ⟨socket, request, connectedAt, heq, _⟩ => he socket request connectedAt heq
  cases e with
  | upgrade socket request connectedAt =>
    simp only [act]
    by_cases hthrows : Throws g request
    · rw [onUpgrade_throws hthrows]
      exact iff_of_true rfl ⟨socket, request, connectedAt, rfl, hthrows⟩
    · have hsame : (g.onUpgrade config socket request connectedAt).crashed = g.crashed := by
        by_cases hadmits : Admits config g socket request
        · rw [onUpgrade_admitted hadmits]
          rfl
        · rw [onUpgrade_refused hadmits hthrows]
      rw [hsame, hrunning]
      refine iff_of_false (fun h => by cases h) ?_
      rintro ⟨_, _, _, heq, hreads⟩
      cases heq
      exact hthrows hreads
  | heartbeat pingThrows => exact hstays (crashed_heartbeat pingThrows g) fun _ _ _ h => by cases h
  | pong socket =>
    refine hstays ?_ fun _ _ _ h => by cases h
    simp only [act]
    split <;> rfl
  | message socket bytes data env =>
    refine hstays ?_ fun _ _ _ h => by cases h
    simp only [act]
    split <;> rfl
  | closing socket => exact hstays rfl fun _ _ _ h => by cases h
  | close socket env => exact hstays rfl fun _ _ _ h => by cases h
  | shutDown => exact hstays rfl fun _ _ _ h => by cases h
  | shutDownDone =>
    refine hstays ?_ fun _ _ _ h => by cases h
    simp only [act]
    split <;> rfl

theorem fade_ne_opened (r : ReadyState) : fade r ≠ .opened := by
  cases r <;> decide

/-- What happens to an open socket while the process runs. -/
theorem opened_act (htended : Tended g) (hclosing : g.isClosing = false)
    (hopen : g.readyState k = .opened) (e : GatewayEvent) (hreads : ∀ socket request connectedAt,
      e = .upgrade socket request connectedAt → request.pathname ≠ none) :
    (g.act config e).readyState k ≠ .opened ↔
      Closes config k e ∨ ∃ pingThrows, e = .heartbeat pingThrows ∧
        (g.alive k = some false ∨ pingThrows k = true) := by
  have hview : (g.act config e).readyState k = (viewAfter config g k e (g.view k)).2 :=
    congrArg Prod.snd (view_act htended.nodup e k)
  have hseen : (g.view k).2 = .opened := hopen
  rw [hview]
  cases e with
  | upgrade socket request connectedAt =>
    simp only [viewAfter, Closes, reduceCtorEq, false_and, exists_false, or_false,
      hreads socket request connectedAt rfl, iff_false, not_not]
    split
    · rfl
    · exact hseen
  | heartbeat pingThrows =>
    simp only [viewAfter, Closes, false_or, GatewayEvent.heartbeat.injEq, exists_eq_left']
    rw [if_pos ⟨hclosing, (htended.clients k).2 (Or.inl hseen)⟩]
    unfold beatOf
    by_cases hdead : g.alive k = some false
    · rw [if_pos (show (g.view k).1 = _ from hdead)]
      exact iff_of_true (fade_ne_opened _) (Or.inl hdead)
    · rw [if_neg (show ¬ (g.view k).1 = _ from hdead), if_neg (not_not.2 hseen)]
      cases pingThrows k with
      | true => exact iff_of_true (fade_ne_opened _) (Or.inr rfl)
      | false => exact iff_of_false (not_not.2 hseen) fun h => h.elim hdead (fun hr => by cases hr)
  | pong socket =>
    simp only [viewAfter, Closes, reduceCtorEq, false_and, exists_false, or_self, iff_false, not_not]
    split <;> exact hseen
  | message socket bytes data env =>
    simp only [viewAfter, Closes, reduceCtorEq, false_and, exists_false, or_false]
    split
    · rename_i hlarge
      exact iff_of_true (fade_ne_opened _) hlarge
    · rename_i hsmall
      exact iff_of_false (not_not.2 hseen) hsmall
  | closing socket =>
    simp only [viewAfter, Closes, reduceCtorEq, false_and, exists_false, or_false]
    split
    · rename_i hk
      exact iff_of_true (fade_ne_opened _) hk.symm
    · rename_i hk
      exact iff_of_false (not_not.2 hseen) fun h => hk h.symm
  | close socket env =>
    simp only [viewAfter, Closes, reduceCtorEq, false_and, exists_false, or_false]
    split
    · rename_i hk
      exact iff_of_true (fun hr => by cases hr) hk.1.symm
    · rename_i hk
      exact iff_of_false (not_not.2 hseen) fun h => hk ⟨h.symm, Or.inl hseen⟩
  | shutDown =>
    simp only [viewAfter, Closes, true_or, iff_true]
    exact fade_ne_opened _
  | shutDownDone =>
    simp only [viewAfter, Closes, reduceCtorEq, false_and, exists_false, or_self, iff_false, not_not]
    exact hseen

/-- **An open socket goes away** when its peer or the server closes it, at a frame that is too large,
when the process ends, or at a heartbeat that finds its last ping unanswered or cannot send the next;
nothing else closes it. -/
theorem closes_iff (config : ServerConfig) (store : OperationStore)
    (es : List GatewayEvent) (e : GatewayEvent) (k : SocketId)
    (hopen : ((start store).run config es).IsOpen k) :
    ¬ ((start store).run config (es ++ [e])).IsOpen k ↔
      Closes config k e ∨ ∃ pingThrows, e = .heartbeat pingThrows ∧
        (Unanswered config store es k ∨ pingThrows k = true) := by
  have htended := @Tended.run config _ (Tended.start store) es
  have hrooms := run_rooms config store es
  rw [← alive_false_iff config store es k hopen.1]
  rw [show (start store).run config (es ++ [e]) =
    ((start store).run config es).step config e from Runs.run_snoc _ es e]
  generalize (start store).run config es = g at hopen htended hrooms ⊢
  obtain ⟨hrunning, hopen⟩ := hopen
  have hclosing : g.isClosing = false := (hrooms.opened k hopen).1
  have hstep : g.step config e = g.act config e := by
    unfold step
    rw [hrunning]
    rfl
  rw [hstep]
  unfold IsOpen
  by_cases hthrows : ∃ socket request connectedAt, e = .upgrade socket request connectedAt ∧
      Throws g request
  · have hcrashed := (@crashed_act config g hrunning e).2 hthrows
    obtain ⟨socket, request, connectedAt, rfl, -, hnone⟩ := hthrows
    refine iff_of_true (fun h => ?_) (Or.inl hnone)
    rw [hcrashed] at h
    cases h.1
  · have hsame : (g.act config e).crashed = false :=
      Bool.eq_false_iff.2 fun h => hthrows ((@crashed_act config g hrunning e).1 h)
    rw [hsame]
    simp only [true_and]
    refine opened_act htended hclosing hopen e fun socket request connectedAt heq hnone => ?_
    exact hthrows ⟨socket, request, connectedAt, heq, hclosing, hnone⟩

/-- Of two sockets one does not answer; a third is of another origin.  The first then sends a frame
that is too large. -/
theorem closes_iff_silent :
    let config : ServerConfig := ⟨1024, [js "http://localhost:5173"]⟩
    let request : UpgradeRequest := ⟨some (js "/sync"), .single (js "http://localhost:5173"), true⟩
    let foreign : UpgradeRequest := ⟨some (js "/sync"), .single (js "http://example.test"), true⟩
    let beat : GatewayEvent := .heartbeat fun _ => false
    let large : GatewayEvent := .message 0 2048 (js "0") ⟨none, none, none, true, id⟩
    let es := [.upgrade 0 request 5, .upgrade 1 request 6, .upgrade 2 foreign 7, beat, .pong 0]
    ¬ ((start .empty).run config (es ++ [beat])).IsOpen 1 ∧
      ((start .empty).run config (es ++ [beat])).IsOpen 0 ∧
      ((start .empty).run config (es ++ [beat])).readyState 2 = .connecting ∧
      ¬ ((start .empty).run config (es ++ [beat] ++ [large])).IsOpen 0 := by
  intro config request foreign beat large es
  have hstays : ((start .empty).run config (es ++ [beat])).IsOpen 0 :=
    ⟨by decide +kernel, by decide +kernel⟩
  refine ⟨?_, hstays, by decide +kernel, ?_⟩
  · refine (closes_iff config .empty es beat 1 ⟨by decide +kernel, by decide +kernel⟩).2
      (Or.inr ⟨_, rfl, Or.inl ?_⟩)
    refine ⟨[.upgrade 0 request 5, .upgrade 1 request 6, .upgrade 2 foreign 7], beat, [.pong 0], rfl,
      ⟨by decide +kernel, by decide +kernel, by decide +kernel⟩, fun e he => ?_⟩
    rw [List.mem_singleton.1 he]
    exact fun h => by cases h
  · exact (closes_iff config .empty (es ++ [beat]) large 0 hstays).2
      (Or.inl ⟨by decide, rfl⟩)

end

end Gateway

end LocalFirst
