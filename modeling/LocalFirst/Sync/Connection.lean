import LocalFirst.Sync.ClientRun

/-!
# The connection of a sync client

* `handle_connects` — what one event does to the fields that decide about a reconnect.
* `Attached` — a client that holds a socket is neither closed nor suspended, and one that is flagged
  unreachable has no timer pending.
* `onClose_armed`, `onClose_unarmed` — when the end of its socket arms a reconnect.
* `handle_joining` — which calls of `sendJoin` ask for a snapshot, and what a join message says.
-/

set_option autoImplicit false

namespace LocalFirst

/-- The call of `sendJoin` asks whether a snapshot may be used, or has been told. -/
def JoinStage.checks : JoinStage → Bool
  | .readingSeq => false
  | .seqRead _ => false
  | .checkingEligible _ => true
  | .eligibleRead _ _ => true

namespace DocumentSyncClient

variable {c c' : DocumentSyncClient} {e : Event} {k : SocketId}

/-- The fields that a reconnect goes by, and the flag that a fallback sets. -/
structure Connection where
  socket : Option SocketId
  closedByClient : Bool
  suspended : Bool
  unreachable : Bool
  consecutiveFailures : Nat
  reconnectTimer : Option Nat
  snapshotBootstrapDisabled : Bool

def connection (c : DocumentSyncClient) : Connection :=
  ⟨c.socket, c.closedByClient, c.suspended, c.unreachable, c.consecutiveFailures, c.reconnectTimer,
    c.snapshotBootstrapDisabled⟩

/-- What an event does to these fields. -/
inductive Connects (c c' : DocumentSyncClient) (e : Event) : Prop
  | kept (h : c'.connection = c.connection)
  | rests (suspended : Bool) (timer : Option Nat)
      (hsuspended : suspended = c.suspended ∨ suspended = false)
      (htimer : timer = c.reconnectTimer ∨ timer = none)
      (h : c'.connection = { c.connection with suspended := suspended, reconnectTimer := timer })
  | connects (fresh : SocketId) (timer : Option Nat) (hclosed : c.closedByClient = false)
      (htimer : timer = c.reconnectTimer ∨ timer = none)
      (h : c'.connection = { c.connection with
        socket := some fresh, suspended := false, reconnectTimer := timer })
  | releases (closed suspended : Bool) (h : c'.connection = { c.connection with
      socket := none, closedByClient := closed, suspended := suspended, reconnectTimer := none })
  | closed (k : SocketId) (he : e = .onClose k) (hk : c.socket = some k) (h : c' = c.onClose k)
      (hdisabled : c'.snapshotBootstrapDisabled = c.snapshotBootstrapDisabled)
  | catchesUp (h : c'.connection = { c.connection with
      unreachable := false, consecutiveFailures := 0 })
  | fallsBack (h : c'.connection = { c.connection with snapshotBootstrapDisabled := true })

@[simp] theorem closeSocket_connection : (c.closeSocket k).connection = c.connection := by
  unfold closeSocket
  split <;> rfl

theorem releaseSocket_connection : c.releaseSocket.connection = { c.connection with socket := none } := by
  unfold releaseSocket
  split
  · rename_i hsocket
    simp only [connection, hsocket]
  · rw [closeSocket_connection]
    rfl

@[simp] theorem sendOperations_connection (operations : List TextOperation) :
    (c.sendOperations operations).connection = c.connection := by
  unfold sendOperations
  split
  · rfl
  · split <;> rfl

theorem connect_connects {b : DocumentSyncClient} (fresh : SocketId) (suspended : Bool)
    (timer : Option Nat) (hsuspended : suspended = c.suspended ∨ suspended = false)
    (htimer : timer = c.reconnectTimer ∨ timer = none)
    (h : b.connection = { c.connection with suspended := suspended, reconnectTimer := timer }) :
    Connects c (b.connect fresh) e := by
  unfold connect
  split
  · exact .rests suspended timer hsuspended htimer h
  · rename_i hidle
    simp only [not_or, Bool.not_eq_true] at hidle
    obtain ⟨hclosed, hs, -⟩ := hidle
    simp only [connection, Connection.mk.injEq] at h
    obtain ⟨-, hc, hsuspended', hu, hf, ht, hd⟩ := h
    refine .connects fresh timer (hc ▸ hclosed) htimer ?_
    simp only [connection, Connection.mk.injEq]
    exact ⟨trivial, hc, hs, hu, hf, ht, hd⟩

theorem suspend_connects : Connects c c.suspend e := by
  unfold suspend
  split
  · exact .kept rfl
  · exact .releases c.closedByClient true (by
      show (DocumentSyncClient.releaseSocket _).connection = _
      rw [releaseSocket_connection]
      rfl)

theorem close_connects : Connects c c.close e := by
  refine .releases true c.suspended ?_
  show (DocumentSyncClient.releaseSocket _).connection = _
  rw [releaseSocket_connection]
  rfl

theorem resume_connects (fresh : SocketId) : Connects c (c.resume fresh) e := by
  unfold resume
  split
  · exact .kept rfl
  · exact connect_connects fresh false c.reconnectTimer (Or.inr rfl) (Or.inl rfl) rfl

theorem retry_connects (fresh : SocketId) : Connects c (c.retry fresh) e := by
  unfold retry
  split
  · exact .kept rfl
  · simp only
    split
    · exact .rests false none (Or.inr rfl) (Or.inr rfl) rfl
    · exact connect_connects fresh false none (Or.inr rfl) (Or.inr rfl) rfl

theorem timerFired_connects (fresh : SocketId) : Connects c (c.timerFired fresh) e := by
  unfold timerFired
  split
  · exact .kept rfl
  · simp only
    split
    · exact .rests c.suspended none (Or.inl rfl) (Or.inr rfl) rfl
    · exact connect_connects fresh c.suspended none (Or.inl rfl) (Or.inr rfl) rfl

theorem onClose_disabled :
    (c.onClose k).snapshotBootstrapDisabled = c.snapshotBootstrapDisabled := by
  have hscheduled : ∀ b : DocumentSyncClient,
      b.scheduleReconnect.snapshotBootstrapDisabled = b.snapshotBootstrapDisabled := fun b => by
    unfold scheduleReconnect
    split <;> rfl
  have hnoted : ∀ b : DocumentSyncClient,
      b.noteConnectionFailure.snapshotBootstrapDisabled = b.snapshotBootstrapDisabled := fun b => by
    unfold noteConnectionFailure
    split
    · rfl
    · simp only
      split <;> rfl
  unfold onClose
  simp only
  split
  · rfl
  · split
    · rfl
    · rw [hscheduled]
      exact hnoted _

theorem onClose_connects : Connects c (c.onClose k) (.onClose k) := by
  by_cases hk : c.socket = some k
  · exact .closed k rfl hk rfl onClose_disabled
  · have hother : c.onClose k = c.setReadyState k .closed := if_pos hk
    exact .kept (by rw [hother]; rfl)

theorem refreshOnlineStatus_connection (handler : Handler) :
    (c.refreshOnlineStatus handler).connection = c.connection := by
  unfold refreshOnlineStatus
  split
  · rfl
  · split <;> rfl

theorem caughtUp_connection (handler : Handler) : (c.caughtUp handler).connection =
    { c.connection with unreachable := false, consecutiveFailures := 0 } := by
  unfold caughtUp flushOutbox
  split <;> rfl

theorem fallbackToFullHistorySync_connection : c.fallbackToFullHistorySync.connection =
    { c.connection with snapshotBootstrapDisabled := true } := by
  unfold fallbackToFullHistorySync
  simp only
  split
  · rfl
  · rw [closeSocket_connection]
    rfl

theorem resumeHandler_connects : Connects c c.resumeHandler e := by
  unfold resumeHandler
  split
  · exact .kept rfl
  · rename_i handler hh
    split
    · unfold ingestDone
      split
      · split
        · split
          · exact .fallsBack fallbackToFullHistorySync_connection
          · exact .kept rfl
        · exact .kept rfl
        · exact .catchesUp (caughtUp_connection handler)
      · split
        · exact .kept rfl
        · exact .kept (refreshOnlineStatus_connection handler)
    · exact .kept rfl
    · split
      · exact .kept rfl
      · exact .kept (sendOperations_connection _)
    · exact .kept (refreshOnlineStatus_connection handler)
    · exact .kept rfl
    · split <;> exact .kept rfl
    · exact .kept rfl

/-- **What one event does to the connection of a client.** -/
theorem handle_connects (c : DocumentSyncClient) (e : Event) : Connects c (c.handle e) e := by
  cases e with
  | connect fresh => exact connect_connects fresh c.suspended c.reconnectTimer (Or.inl rfl) (Or.inl rfl) rfl
  | suspend => exact suspend_connects
  | resume fresh => exact resume_connects fresh
  | retry fresh => exact retry_connects fresh
  | close => exact close_connects
  | timerFired fresh => exact timerFired_connects fresh
  | submitOperations operations =>
    refine .kept ?_
    simp only [handle, submitOperations]
    split
    · rfl
    · split
      · rfl
      · exact sendOperations_connection operations
  | onOpen k =>
    refine .kept ?_
    simp only [handle, onOpen]
    split
    · rfl
    · split <;> rfl
  | onMessage k message =>
    refine .kept ?_
    simp only [handle, onMessage]
    split <;> rfl
  | onError k =>
    refine .kept ?_
    simp only [handle, onError]
    split <;> rfl
  | onClose k => exact onClose_connects
  | lastServerSeqRead k lastServerSeq =>
    refine .kept ?_
    simp only [handle, lastServerSeqRead]
    split <;> rfl
  | eligibleRead k eligible =>
    refine .kept ?_
    simp only [handle, eligibleRead]
    split <;> rfl
  | resumeJoin k =>
    refine .kept ?_
    simp only [handle, resumeJoin]
    repeat' split
    all_goals rfl
  | handleNext =>
    refine .kept ?_
    simp only [handle, handleNext]
    repeat' split
    all_goals rfl
  | ingestSettled outcome stored =>
    refine .kept ?_
    simp only [handle, ingestSettled]
    repeat' split
    all_goals rfl
  | pendingLoaded pending =>
    refine .kept ?_
    simp only [handle, pendingLoaded]
    split <;> rfl
  | resumeHandler => exact resumeHandler_connects

/-! ## The end of the socket -/

/-- One more failure does not make the client give up. -/
def Patient (c : DocumentSyncClient) : Prop :=
  c.consecutiveFailures + 1 < UNREACHABLE_AFTER_ATTEMPTS ∧ c.unreachable = false

instance (c : DocumentSyncClient) : Decidable c.Patient :=
  inferInstanceAs (Decidable (_ ∧ _))

/-- A client that holds a socket is neither closed nor suspended, and one that is flagged
unreachable has no timer pending. -/
structure Attached (c : DocumentSyncClient) : Prop where
  holds : c.socket.isSome = true → c.closedByClient = false ∧ c.suspended = false
  idle : c.unreachable = true → c.reconnectTimer = none

/-- At the end of its socket a client that is not closed lets it go, notes the failure, and goes on
to the reconnect. -/
theorem onClose_eq (hk : c.socket = some k) (hclosed : c.closedByClient = false) :
    ∃ b : DocumentSyncClient, b.connection = { c.connection with socket := none } ∧
      c.onClose k = (b.noteConnectionFailure.setStatus .offline).scheduleReconnect := by
  have hself : ¬ (c.setReadyState k .closed).socket ≠ some k := not_not.2 hk
  exact ⟨{ c.setReadyState k .closed with socket := none, catchUpComplete := false }, rfl,
    (if_neg hself).trans (if_neg (by simp [setReadyState, hclosed]))⟩

theorem scheduleReconnect_kept : c.scheduleReconnect.unreachable = c.unreachable ∧
    c.scheduleReconnect.socket = c.socket := by
  unfold scheduleReconnect
  split <;> exact ⟨rfl, rfl⟩

theorem noteConnectionFailure_socket : c.noteConnectionFailure.socket = c.socket := by
  unfold noteConnectionFailure
  split
  · rfl
  · simp only
    split <;> rfl

theorem scheduleReconnect_armed (hclosed : c.closedByClient = false) (hsuspended : c.suspended = false)
    (hunreachable : c.unreachable = false) (hsocket : c.socket = none) :
    c.scheduleReconnect.reconnectTimer.isSome = true := by
  unfold scheduleReconnect
  split
  · rename_i hnot
    simpa [hclosed, hsuspended, hunreachable, hsocket] using hnot
  · rfl

theorem scheduleReconnect_unreachable (hunreachable : c.unreachable = true) :
    c.scheduleReconnect = c := by
  unfold scheduleReconnect
  exact if_pos (Or.inr (Or.inr (Or.inl hunreachable)))

theorem noteConnectionFailure_patient (hclosed : c.closedByClient = false)
    (hsuspended : c.suspended = false)
    (hfew : c.consecutiveFailures + 1 < UNREACHABLE_AFTER_ATTEMPTS) :
    c.noteConnectionFailure = { c with consecutiveFailures := c.consecutiveFailures + 1 } := by
  unfold noteConnectionFailure
  exact (if_neg (by simp [hclosed, hsuspended])).trans (if_pos (Or.inl hfew))

theorem noteConnectionFailure_impatient (hclosed : c.closedByClient = false)
    (hsuspended : c.suspended = false) (hpatient : ¬ Patient c)
    (hidle : c.unreachable = true → c.reconnectTimer = none) :
    c.noteConnectionFailure.unreachable = true ∧ c.noteConnectionFailure.reconnectTimer = none := by
  unfold noteConnectionFailure
  rw [if_neg (by simp [hclosed, hsuspended])]
  simp only
  split
  · rename_i hfew
    have hunreachable : c.unreachable = true := by
      rcases hfew with hfew | hunreachable
      · exact by_contra fun hnot => hpatient ⟨hfew, by simpa using hnot⟩
      · exact hunreachable
    exact ⟨hunreachable, hidle hunreachable⟩
  · exact ⟨rfl, rfl⟩

/-- The end of the socket of a patient client arms a reconnect. -/
theorem onClose_armed (h : Attached c) (hk : c.socket = some k) (hpatient : Patient c) :
    (c.onClose k).unreachable = false ∧ (c.onClose k).reconnectTimer.isSome = true := by
  obtain ⟨hclosed, hsuspended⟩ := h.holds (by rw [hk]; rfl)
  obtain ⟨b, hb, heq⟩ := onClose_eq hk hclosed
  simp only [connection, Connection.mk.injEq] at hb
  obtain ⟨hsocket, hc, hs, hu, hf, -, -⟩ := hb
  rw [heq, noteConnectionFailure_patient (hc.trans hclosed) (hs.trans hsuspended)
    (by rw [hf]; exact hpatient.1)]
  have hunreachable := hu.trans hpatient.2
  exact ⟨scheduleReconnect_kept.1.trans hunreachable,
    scheduleReconnect_armed (hc.trans hclosed) (hs.trans hsuspended) hunreachable hsocket⟩

/-- That of an impatient one does not: the client is flagged unreachable. -/
theorem onClose_unarmed (h : Attached c) (hk : c.socket = some k) (hpatient : ¬ Patient c) :
    (c.onClose k).unreachable = true ∧ (c.onClose k).reconnectTimer = none := by
  obtain ⟨hclosed, hsuspended⟩ := h.holds (by rw [hk]; rfl)
  obtain ⟨b, hb, heq⟩ := onClose_eq hk hclosed
  simp only [connection, Connection.mk.injEq] at hb
  obtain ⟨-, hc, hs, hu, hf, ht, -⟩ := hb
  have hgives : b.noteConnectionFailure.unreachable = true ∧
      b.noteConnectionFailure.reconnectTimer = none := by
    refine noteConnectionFailure_impatient (hc.trans hclosed) (hs.trans hsuspended) ?_ ?_
    · unfold Patient at hpatient ⊢
      rw [hf, hu]
      exact hpatient
    · rw [hu, ht]
      exact h.idle
  have hstays := @scheduleReconnect_unreachable (b.noteConnectionFailure.setStatus .offline) hgives.1
  rw [heq, hstays]
  exact hgives

/-- The end of its socket takes it from the client. -/
theorem onClose_socket (hk : c.socket = some k) : (c.onClose k).socket = none := by
  have hself : ¬ (c.setReadyState k .closed).socket ≠ some k := not_not.2 hk
  rw [show c.onClose k = _ from if_neg hself]
  split
  · rfl
  · rw [scheduleReconnect_kept.2]
    exact noteConnectionFailure_socket

theorem Attached.handle (h : Attached c) (e : Event) : Attached (c.handle e) := by
  have hconnects := handle_connects c e
  generalize c.handle e = c' at hconnects
  -- the client keeps its socket, and is no more closed, suspended or unreachable than before
  have hkept : c'.socket = c.socket → c'.closedByClient = c.closedByClient →
      (c'.suspended = c.suspended ∨ c'.suspended = false) →
      (c'.unreachable = true → c.unreachable = true) →
      (c'.reconnectTimer = c.reconnectTimer ∨ c'.reconnectTimer = none) → Attached c' := by
    intro hs hc hsp hu ht
    refine ⟨fun hsome => ?_, fun hunreachable => ?_⟩
    · obtain ⟨hclosed, hsuspended⟩ := h.holds (hs ▸ hsome)
      exact ⟨hc.trans hclosed, hsp.elim (fun hsp => hsp.trans hsuspended) id⟩
    · exact ht.elim (fun ht => ht.trans (h.idle (hu hunreachable))) id
  cases hconnects with
  | kept h =>
    simp only [connection, Connection.mk.injEq] at h
    obtain ⟨hs, hc, hsp, hu, -, ht, -⟩ := h
    exact hkept hs hc (Or.inl hsp) (fun hc' => hu ▸ hc') (Or.inl ht)
  | rests suspended timer hsuspended htimer h =>
    simp only [connection, Connection.mk.injEq] at h
    obtain ⟨hs, hc, rfl, hu, -, rfl, -⟩ := h
    exact hkept hs hc hsuspended (fun hc' => hu ▸ hc') htimer
  | connects fresh timer hclosed htimer heq =>
    simp only [connection, Connection.mk.injEq] at heq
    obtain ⟨-, hc, hsp, hu, -, rfl, -⟩ := heq
    refine ⟨fun _ => ⟨hc.trans hclosed, hsp⟩, fun hunreachable => ?_⟩
    exact htimer.elim (fun ht => ht.trans (h.idle (hu ▸ hunreachable))) id
  | releases closed suspended heq =>
    simp only [connection, Connection.mk.injEq] at heq
    obtain ⟨hs, -, -, -, -, ht, -⟩ := heq
    exact ⟨fun hsome => by (rw [hs] at hsome; cases hsome), fun _ => ht⟩
  | closed k he hk heq hdisabled =>
    rw [heq]
    refine ⟨fun hsome => by (rw [onClose_socket hk] at hsome; cases hsome), fun hunreachable => ?_⟩
    by_cases hpatient : Patient c
    · rw [(onClose_armed h hk hpatient).1] at hunreachable
      cases hunreachable
    · exact (onClose_unarmed h hk hpatient).2
  | catchesUp heq =>
    simp only [connection, Connection.mk.injEq] at heq
    obtain ⟨hs, hc, hsp, hu, -, ht, -⟩ := heq
    exact hkept hs hc (Or.inl hsp) (fun hc' => by (rw [hu] at hc'; cases hc')) (Or.inl ht)
  | fallsBack heq =>
    simp only [connection, Connection.mk.injEq] at heq
    obtain ⟨hs, hc, hsp, hu, -, ht, -⟩ := heq
    exact hkept hs hc (Or.inl hsp) (fun hc' => hu ▸ hc') (Or.inl ht)

/-- A patient client stays so until its socket ends. -/
theorem Patient.handle (h : Patient c) (hsocket : (c.handle e).socket.isSome = true) :
    Patient (c.handle e) := by
  have hconnects := handle_connects c e
  generalize c.handle e = c' at hconnects hsocket
  have hkept : c'.unreachable = c.unreachable → c'.consecutiveFailures = c.consecutiveFailures →
      Patient c' := fun hu hf => by
    unfold Patient
    rw [hu, hf]
    exact h
  cases hconnects with
  | kept heq =>
    simp only [connection, Connection.mk.injEq] at heq
    exact hkept heq.2.2.2.1 heq.2.2.2.2.1
  | rests suspended timer hsuspended htimer heq =>
    simp only [connection, Connection.mk.injEq] at heq
    exact hkept heq.2.2.2.1 heq.2.2.2.2.1
  | connects fresh timer hclosed htimer heq =>
    simp only [connection, Connection.mk.injEq] at heq
    exact hkept heq.2.2.2.1 heq.2.2.2.2.1
  | releases closed suspended heq =>
    rw [show c'.socket = none from congrArg Connection.socket heq] at hsocket
    cases hsocket
  | closed k he hk heq hdisabled =>
    rw [heq, onClose_socket hk] at hsocket
    cases hsocket
  | catchesUp heq =>
    simp only [connection, Connection.mk.injEq] at heq
    obtain ⟨-, -, -, hu, hf, -, -⟩ := heq
    exact ⟨by rw [hf]; decide, hu⟩
  | fallsBack heq =>
    simp only [connection, Connection.mk.injEq] at heq
    exact hkept heq.2.2.2.1 heq.2.2.2.2.1

/-- A client that has fallen back does not try a snapshot again. -/
theorem handle_disabled (h : c.snapshotBootstrapDisabled = true) :
    (c.handle e).snapshotBootstrapDisabled = true := by
  have hconnects := handle_connects c e
  generalize c.handle e = c' at hconnects
  cases hconnects with
  | kept heq => exact (congrArg Connection.snapshotBootstrapDisabled heq).trans h
  | rests suspended timer hsuspended htimer heq =>
    exact (congrArg Connection.snapshotBootstrapDisabled heq).trans h
  | connects fresh timer hclosed htimer heq =>
    exact (congrArg Connection.snapshotBootstrapDisabled heq).trans h
  | releases closed suspended heq =>
    exact (congrArg Connection.snapshotBootstrapDisabled heq).trans h
  | closed k he hk heq hdisabled => exact hdisabled.trans h
  | catchesUp heq => exact (congrArg Connection.snapshotBootstrapDisabled heq).trans h
  | fallsBack heq => exact congrArg Connection.snapshotBootstrapDisabled heq

/-! ## Joining -/

/-- The join messages that have been sent, with their sockets. -/
def joinMessages (c : DocumentSyncClient) : List (SocketId × JoinMessage) :=
  c.sent.filterMap fun p => match p.2 with
    | .join message => some (p.1, message)
    | .submitOperation _ => none

theorem mem_joinMessages {message : JoinMessage} :
    (k, message) ∈ c.joinMessages ↔ (k, .join message) ∈ c.sent := by
  unfold joinMessages
  rw [List.mem_filterMap]
  constructor
  · rintro ⟨⟨j, frame⟩, hp, heq⟩
    cases frame with
    | join m =>
      cases heq
      exact hp
    | submitOperation m => cases heq
  · exact fun hp => ⟨_, hp, rfl⟩

theorem joinMessages_submits {documentId : JsString} {operations : List TextOperation}
    (h : c'.sent = c.sent ++ submits documentId k operations) : c'.joinMessages = c.joinMessages := by
  unfold joinMessages
  rw [h, List.filterMap_append]
  have hnone : (submits documentId k operations).filterMap (fun p => match p.2 with
      | .join message => some (p.1, message)
      | .submitOperation _ => none) = [] := by
    rw [List.filterMap_eq_nil_iff]
    intro p hp
    obtain ⟨operation, -, rfl⟩ := List.mem_map.1 hp
    rfl
  rw [hnone, List.append_nil]

theorem joinMessages_join {message : JoinMessage} (h : c'.sent = c.sent ++ [(k, .join message)]) :
    c'.joinMessages = c.joinMessages ++ [(k, message)] := by
  unfold joinMessages
  rw [h, List.filterMap_append]
  rfl

/-- What an event does to the calls of `sendJoin`, and what a join message says that it sends. -/
structure Joining (c c' : DocumentSyncClient) : Prop where
  checks : c.snapshotBootstrapDisabled = true → ∀ call ∈ c'.joins, call.stage.checks = true →
    ∃ old ∈ c.joins, old.socket = call.socket ∧ old.stage.checks = true
  messages : c'.joinMessages = c.joinMessages ∨ ∃ call ∈ c.joins, ∃ message : JoinMessage,
    c.socket = some call.socket ∧ c.readyState call.socket = .opened ∧
      JoinStage.lastServerSeq call.stage = some message.lastServerSeq ∧
      (message.capabilities = none ∨ call.stage.checks = true) ∧
      c'.joinMessages = c.joinMessages ++ [(call.socket, message)]

theorem Joining.same (hjoins : c'.joins = c.joins) (h : c'.joinMessages = c.joinMessages) :
    Joining c c' where
  checks _ call hcall hchecks := ⟨call, hjoins ▸ hcall, rfl, hchecks⟩
  messages := Or.inl h

theorem Joining.of_sent (hjoins : c'.joins = c.joins) (h : c'.sent = c.sent) : Joining c c' :=
  .same hjoins (by unfold joinMessages; rw [h])

theorem Joining.of_traffic (h : c'.traffic = c.traffic) : Joining c c' :=
  .of_sent (congrArg Traffic.joins h) (congrArg Traffic.sent h)

theorem Joining.kept (h : Joining c c') {p : SocketId × JoinMessage}
    (hp : p ∈ c.joinMessages) : p ∈ c'.joinMessages := by
  rcases h.messages with heq | ⟨call, -, message, -, -, -, -, heq⟩
  · rw [heq]
    exact hp
  · rw [heq]
    exact List.mem_append_left _ hp

/-- A call of `sendJoin` goes on, or ends. -/
theorem setJoin_checks {stage : Option JoinStage} (hstage : ∀ s, stage = some s → s.checks = true →
      ∃ old ∈ c.joins, old.socket = k ∧ old.stage.checks = true) :
    ∀ call ∈ (c.setJoin k stage).joins, call.stage.checks = true →
      ∃ old ∈ c.joins, old.socket = call.socket ∧ old.stage.checks = true := by
  intro call hcall hchecks
  rcases mem_setJoin hcall with hcall | ⟨hsocket, hs, -⟩
  · exact ⟨call, hcall, rfl, hchecks⟩
  · rw [hsocket]
    exact hstage call.stage hs hchecks

theorem lastServerSeqRead_joining (lastServerSeq : Int) :
    Joining c (c.lastServerSeqRead k lastServerSeq) := by
  unfold lastServerSeqRead
  split
  · refine ⟨fun _ => setJoin_checks fun s hs hchecks => ?_, Or.inl rfl⟩
    cases hs
    cases hchecks
  · exact .of_sent rfl rfl

theorem eligibleRead_joining (eligible : Bool) : Joining c (c.eligibleRead k eligible) := by
  unfold eligibleRead
  split
  · rename_i lastServerSeq hstage
    obtain ⟨old, hold, hsocket, hchecking⟩ := joinStage_some hstage
    refine ⟨fun _ => setJoin_checks fun s _ _ => ⟨old, hold, hsocket, ?_⟩, Or.inl rfl⟩
    rw [hchecking]
    rfl
  · exact .of_sent rfl rfl

theorem resumeJoin_joining : Joining c (c.resumeJoin k) := by
  have hended : ∀ call ∈ (c.setJoin k none).joins, call.stage.checks = true →
      ∃ old ∈ c.joins, old.socket = call.socket ∧ old.stage.checks = true :=
    setJoin_checks fun s hs _ => by cases hs
  unfold resumeJoin
  simp only
  split
  · rename_i lastServerSeq hstage
    obtain ⟨old, hold, rfl, hread⟩ := joinStage_some hstage
    split
    · exact ⟨fun _ => hended, Or.inl rfl⟩
    · rename_i hcurrent
      obtain ⟨hsocket, hopen⟩ := not_not.1 hcurrent
      split
      · rename_i hallowed
        exact ⟨fun hdisabled => absurd hdisabled hallowed.1, Or.inl rfl⟩
      · refine ⟨fun _ => hended, Or.inr ⟨old, hold, _, hsocket, hopen, ?_, Or.inl rfl,
          joinMessages_join rfl⟩⟩
        rw [hread]
        rfl
  · rename_i lastServerSeq eligible hstage
    obtain ⟨old, hold, rfl, hread⟩ := joinStage_some hstage
    split
    · exact ⟨fun _ => hended, Or.inl rfl⟩
    · rename_i hcurrent
      obtain ⟨hsocket, hopen⟩ := not_not.1 hcurrent
      refine ⟨fun _ => hended, Or.inr ⟨old, hold, _, hsocket, hopen, ?_, Or.inr ?_,
        joinMessages_join rfl⟩⟩
      · rw [hread]
        rfl
      · rw [hread]
        rfl
  · exact .of_sent rfl rfl

/-- **What one event does to the joining of a client.** -/
theorem handle_joining (c : DocumentSyncClient) (e : Event) : Joining c (c.handle e) := by
  have hsame : ∀ {c' : DocumentSyncClient} {t : Traffic}, c'.traffic = t → t.joins = c.joins →
      t.sent = c.sent → Joining c c' := fun h hjoins hsent =>
    .of_sent ((congrArg Traffic.joins h).trans hjoins) ((congrArg Traffic.sent h).trans hsent)
  cases e with
  | connect fresh => exact .of_traffic connect_traffic
  | suspend => exact .of_traffic suspend_traffic
  | resume fresh => exact .of_traffic resume_traffic
  | retry fresh => exact .of_traffic retry_traffic
  | close => exact .of_traffic close_traffic
  | timerFired fresh => exact .of_traffic timerFired_traffic
  | onError socket => exact .of_traffic onError_traffic
  | onClose socket => exact .of_traffic onClose_traffic
  | submitOperations operations =>
    rcases submitOperations_traffic (c := c) operations with h | ⟨socket, -, -, h⟩
    · exact .of_traffic h
    · exact .same (congrArg Traffic.joins h) (joinMessages_submits (congrArg Traffic.sent h))
  | onOpen socket =>
    rcases onOpen_traffic (c := c) (k := socket) with h | ⟨-, -, -, h⟩
    · exact .of_traffic h
    · refine ⟨fun _ call hcall hchecks => ?_, Or.inl ?_⟩
      · rw [show (c.handle (.onOpen socket)).joins = c.joins ++ [⟨socket, .readingSeq⟩] from
          congrArg Traffic.joins h] at hcall
        rcases List.mem_append.1 hcall with hcall | hcall
        · exact ⟨call, hcall, rfl, hchecks⟩
        · rw [List.mem_singleton.1 hcall] at hchecks
          cases hchecks
      · unfold joinMessages
        rw [show (c.handle (.onOpen socket)).sent = c.sent from congrArg Traffic.sent h]
  | onMessage socket message =>
    rcases onMessage_cases (c := c) (k := socket) message with ⟨-, h⟩ | ⟨-, -, h⟩
    · exact .of_sent (by rw [handle, h]) (by rw [handle, h])
    · exact .of_sent (by rw [handle, h]) (by rw [handle, h])
  | lastServerSeqRead socket lastServerSeq => exact lastServerSeqRead_joining lastServerSeq
  | eligibleRead socket eligible => exact eligibleRead_joining eligible
  | resumeJoin socket => exact resumeJoin_joining
  | handleNext =>
    rcases handleNext_traffic (c := c) with h | ⟨_, _, _, -, -, h | ⟨_, -, -, h⟩⟩
    · exact .of_traffic h
    · exact hsame h rfl rfl
    · exact hsame h rfl rfl
  | ingestSettled outcome stored =>
    simp only [handle, ingestSettled]
    split
    · split <;> exact .of_sent rfl rfl
    · exact .of_sent rfl rfl
  | pendingLoaded pending =>
    rcases pendingLoaded_traffic (c := c) pending with h | ⟨_, _, -, -, -, h⟩
    · exact .of_traffic h
    · exact hsame h rfl rfl
  | resumeHandler =>
    cases resumeHandler_resumes (c := c) with
    | same h => exact .of_traffic h
    | ended handler hh hstage h => exact hsame h rfl rfl
    | waits handler stage hh hstage hwaits h => exact hsame h rfl rfl
    | sends handler pending socket hh hstage hsocket hopen h =>
      exact .same (congrArg Traffic.joins h) (joinMessages_submits (congrArg Traffic.sent h))

end DocumentSyncClient

end LocalFirst
