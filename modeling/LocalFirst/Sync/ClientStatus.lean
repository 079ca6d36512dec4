import LocalFirst.Sync.ClientRun

/-!
# Reconnecting and the online status

* `handle_stands` — what one event does to the connection of a client and to its status.
* `reconnecting_iff` — a client that holds no socket has a timer or is flagged unreachable, exactly
  in the runs where no sync message is settled after the client has given up.
* `online_truthful_iff` — the status `online` is truthful exactly in the runs where no load of the
  outbox resolves after the connection that it was meant for has ended.
-/

set_option autoImplicit false

namespace LocalFirst

namespace DocumentSyncClient

variable {c c' : DocumentSyncClient} {e : Event}

/-- The fields that the two properties look at. -/
structure Standing where
  status : SyncStatus
  socket : Option SocketId
  catchUpComplete : Bool
  closedByClient : Bool
  suspended : Bool
  unreachable : Bool
  reconnectTimer : Option Nat

def standing (c : DocumentSyncClient) : Standing :=
  ⟨c.status, c.socket, c.catchUpComplete, c.closedByClient, c.suspended, c.unreachable,
    c.reconnectTimer⟩

/-- A client that is neither closed nor suspended and holds no socket has a timer pending, or is
flagged unreachable. -/
def Reconnecting (c : DocumentSyncClient) : Prop :=
  c.closedByClient = false → c.suspended = false → c.socket = none →
    c.reconnectTimer.isSome = true ∨ c.unreachable = true

/-- The client holds a socket, has caught up, and is neither suspended nor closed. -/
def Connected (c : DocumentSyncClient) : Prop :=
  c.socket.isSome = true ∧ c.catchUpComplete = true ∧ c.suspended = false ∧ c.closedByClient = false

def Truthful (c : DocumentSyncClient) : Prop := c.status = .online → Connected c

/-- The ingest of a sync message has succeeded, and its handler goes on. -/
def CatchesUp (c : DocumentSyncClient) (e : Event) : Prop :=
  e = .resumeHandler ∧ ∃ socket sync, c.handling = some ⟨socket, .sync sync, .settled (.ok ())⟩

/-- The outbox that `refreshOnlineStatus` has loaded is empty, and its handler goes on. -/
def GoesOnline (c : DocumentSyncClient) (e : Event) : Prop :=
  e = .resumeHandler ∧
    ∃ socket message, c.handling = some ⟨socket, message, .refreshLoaded (.ok [])⟩

/-- What an event does to the connection of a client and to its status. -/
inductive Stands (c c' : DocumentSyncClient) (e : Event) : Prop
  | same (status : SyncStatus) (hstatus : status = c.status ∨ status ≠ .online)
      (h : c'.standing = { c.standing with status := status })
  | idle (suspended : Bool) (timer : Option Nat)
      (hsuspended : suspended = c.suspended ∨ suspended = false)
      (hidle : c.closedByClient = true ∨ suspended = true ∨ c.socket.isSome = true)
      (h : c'.standing = { c.standing with suspended := suspended, reconnectTimer := timer })
  | connects (hsocket : c'.socket.isSome = true) (hstatus : c'.status = .connecting)
      (hcatch : c'.catchUpComplete = false)
  | stops (hstops : c'.suspended = true ∨ c'.closedByClient = true) (hstatus : c'.status = .offline)
      (hcatch : c'.catchUpComplete = false)
  | loses (hretries : Reconnecting c') (hstatus : c'.status = .offline)
      (hcatch : c'.catchUpComplete = false)
  | fallsBack (h : c'.standing = { c.standing with status := .connecting, catchUpComplete := false })
  | catchesUp (hcatches : CatchesUp c e)
      (h : c'.standing = { c.standing with catchUpComplete := true, unreachable := false })
  | online (honline : GoesOnline c e) (h : c'.standing = { c.standing with status := .online })

theorem Stands.kept (h : c'.standing = c.standing) : Stands c c' e := .same c.status (Or.inl rfl) h

@[simp] theorem closeSocket_standing (k : SocketId) : (c.closeSocket k).standing = c.standing := by
  unfold closeSocket
  split <;> rfl

theorem releaseSocket_stops : c.releaseSocket.suspended = c.suspended ∧
    c.releaseSocket.closedByClient = c.closedByClient ∧
    c.releaseSocket.catchUpComplete = c.catchUpComplete := by
  unfold releaseSocket
  split
  · exact ⟨rfl, rfl, rfl⟩
  · rename_i k _
    have h := closeSocket_standing (c := { c with socket := none }) k
    exact ⟨congrArg Standing.suspended h, congrArg Standing.closedByClient h,
      congrArg Standing.catchUpComplete h⟩

@[simp] theorem sendOperations_standing (operations : List TextOperation) :
    (c.sendOperations operations).standing = c.standing := by
  unfold sendOperations
  split
  · rfl
  · split <;> rfl

/-- `connect` opens a socket unless there is a reason not to. -/
theorem connect_cases (fresh : SocketId) :
    ((c.closedByClient = true ∨ c.suspended = true ∨ c.socket.isSome = true) ∧
        c.connect fresh = c) ∨
      ((c.connect fresh).socket = some fresh ∧ (c.connect fresh).status = .connecting ∧
        (c.connect fresh).catchUpComplete = false) := by
  unfold connect
  split
  · rename_i h
    exact Or.inl ⟨h, rfl⟩
  · exact Or.inr ⟨rfl, rfl, rfl⟩

theorem connect_stands (fresh : SocketId) : Stands c (c.connect fresh) e := by
  rcases connect_cases (c := c) fresh with ⟨-, h⟩ | ⟨hsocket, hstatus, hcatch⟩
  · exact .kept (by rw [h])
  · exact .connects (by rw [hsocket]; rfl) hstatus hcatch

theorem suspend_stands : Stands c c.suspend e := by
  unfold suspend
  split
  · exact .kept rfl
  · exact .stops (Or.inl releaseSocket_stops.1) rfl releaseSocket_stops.2.2

theorem resume_stands (fresh : SocketId) : Stands c (c.resume fresh) e := by
  unfold resume
  split
  · exact .kept rfl
  · rcases connect_cases (c := { c with suspended := false, reconnectAttempt := 0 }) fresh with
      ⟨hidle, h⟩ | ⟨hsocket, hstatus, hcatch⟩
    · rw [h]
      exact .idle false c.reconnectTimer (Or.inr rfl) hidle rfl
    · exact .connects (by rw [hsocket]; rfl) hstatus hcatch

theorem retry_stands (fresh : SocketId) : Stands c (c.retry fresh) e := by
  unfold retry
  split
  · exact .kept rfl
  · simp only
    split
    · rename_i hsocket
      exact .idle false none (Or.inr rfl) (Or.inr (Or.inr hsocket)) rfl
    · rcases connect_cases
        (c := { c with suspended := false, reconnectAttempt := 0 }.cancelReconnect) fresh with
        ⟨hidle, h⟩ | ⟨hsocket, hstatus, hcatch⟩
      · rw [h]
        exact .idle false none (Or.inr rfl) hidle rfl
      · exact .connects (by rw [hsocket]; rfl) hstatus hcatch

theorem close_stands : Stands c c.close e :=
  .stops (Or.inr releaseSocket_stops.2.1) rfl releaseSocket_stops.2.2

theorem timerFired_stands (fresh : SocketId) : Stands c (c.timerFired fresh) e := by
  unfold timerFired
  split
  · exact .kept rfl
  · simp only
    split
    · rename_i hidle
      exact .idle c.suspended none (Or.inl rfl) hidle rfl
    · rcases connect_cases (c := { c with reconnectTimer := none }) fresh with
        ⟨hidle, h⟩ | ⟨hsocket, hstatus, hcatch⟩
      · rw [h]
        exact .idle c.suspended none (Or.inl rfl) hidle rfl
      · exact .connects (by rw [hsocket]; rfl) hstatus hcatch

theorem scheduleReconnect_retries (c : DocumentSyncClient) : Reconnecting c.scheduleReconnect := by
  intro hclosed hsuspended hsocket
  unfold scheduleReconnect at *
  split
  · rename_i h
    rw [if_pos h] at hclosed hsuspended hsocket
    rcases h with h | h | h | h | h
    · rw [hclosed] at h; cases h
    · rw [hsuspended] at h; cases h
    · exact Or.inr h
    · exact Or.inl h
    · rw [hsocket] at h; cases h
  · exact Or.inl rfl

theorem scheduleReconnect_status (c : DocumentSyncClient) : c.scheduleReconnect.status = c.status ∧
    c.scheduleReconnect.catchUpComplete = c.catchUpComplete := by
  unfold scheduleReconnect
  split <;> exact ⟨rfl, rfl⟩

theorem noteConnectionFailure_catchUpComplete :
    c.noteConnectionFailure.catchUpComplete = c.catchUpComplete := by
  unfold noteConnectionFailure
  split
  · rfl
  · simp only
    split <;> rfl

theorem onClose_stands (k : SocketId) : Stands c (c.onClose k) e := by
  unfold onClose
  simp only
  split
  · exact .kept rfl
  · split
    · rename_i hclosed
      exact .stops (Or.inr hclosed) rfl rfl
    · exact .loses (scheduleReconnect_retries _) (scheduleReconnect_status _).1
        ((scheduleReconnect_status _).2.trans noteConnectionFailure_catchUpComplete)

theorem submitOperations_stands (operations : List TextOperation) :
    Stands c (c.submitOperations operations) e := by
  unfold submitOperations
  split
  · exact .kept rfl
  · split
    · exact .kept rfl
    · exact .same .syncing (Or.inr (by simp)) (sendOperations_standing operations)

theorem handleNext_stands : Stands c c.handleNext e := by
  unfold handleNext
  split
  · simp only
    split
    · exact .same .error (Or.inr (by simp)) rfl
    · exact .same .error (Or.inr (by simp)) rfl
    · exact .kept rfl
    · split
      · exact .kept rfl
      · exact .same .syncing (Or.inr (by simp)) rfl
    · split <;> exact .kept rfl
  · exact .kept rfl

theorem refreshOnlineStatus_standing (handler : Handler) :
    (c.refreshOnlineStatus handler).standing = c.standing := by
  unfold refreshOnlineStatus
  split
  · rfl
  · split <;> rfl

theorem caughtUp_standing (handler : Handler) : (c.caughtUp handler).standing =
    { c.standing with catchUpComplete := true, unreachable := false } := by
  unfold caughtUp flushOutbox
  split <;> rfl

theorem fallbackToFullHistorySync_standing : c.fallbackToFullHistorySync.standing =
    { c.standing with status := .connecting, catchUpComplete := false } := by
  unfold fallbackToFullHistorySync
  simp only
  split
  · rfl
  · rw [closeSocket_standing]
    rfl

theorem resumeHandler_stands : Stands c c.resumeHandler .resumeHandler := by
  have hfailed : ∀ error, Stands c (c.handlingFailed error) .resumeHandler := fun error =>
    .same .error (Or.inr (by simp)) rfl
  unfold resumeHandler
  split
  · exact .kept rfl
  · rename_i handler hh
    obtain ⟨socket, message, stage⟩ := handler
    cases stage with
    | ingesting => exact .kept rfl
    | flushing => exact .kept rfl
    | refreshing => exact .kept rfl
    | flushed => exact .kept (refreshOnlineStatus_standing _)
    | flushLoaded pending =>
      cases pending with
      | error error => exact hfailed error
      | ok pending =>
        simp only
        split
        · exact .kept rfl
        · exact .same .syncing (Or.inr (by simp)) (sendOperations_standing pending)
    | refreshLoaded pending =>
      cases pending with
      | error error => exact hfailed error
      | ok pending =>
        simp only
        split
        · rename_i hlen
          obtain rfl := List.length_eq_zero_iff.1 hlen
          exact .online ⟨rfl, socket, message, hh⟩ rfl
        · exact .same .syncing (Or.inr (by simp)) rfl
    | settled outcome =>
      simp only [ingestDone]
      split
      · rename_i sync
        split
        · split
          · exact .fallsBack fallbackToFullHistorySync_standing
          · exact hfailed _
        · exact hfailed _
        · exact .catchesUp ⟨rfl, socket, sync, hh⟩ (caughtUp_standing _)
      · split
        · exact hfailed _
        · exact .kept (refreshOnlineStatus_standing _)

/-- **What one event does to the connection of a client and to its status.** -/
theorem handle_stands (c : DocumentSyncClient) (e : Event) : Stands c (c.handle e) e := by
  cases e with
  | connect fresh => exact connect_stands fresh
  | suspend => exact suspend_stands
  | resume fresh => exact resume_stands fresh
  | retry fresh => exact retry_stands fresh
  | close => exact close_stands
  | timerFired fresh => exact timerFired_stands fresh
  | submitOperations operations => exact submitOperations_stands operations
  | onOpen k =>
    refine .kept ?_
    simp only [handle, onOpen]
    split
    · rfl
    · split <;> rfl
  | onMessage k message =>
    refine .kept ?_
    simp only [handle, onMessage]
    split <;> rfl
  | onError k =>
    simp only [handle, onError]
    split
    · exact .kept rfl
    · exact .same .error (Or.inr (by simp)) rfl
  | onClose k => exact onClose_stands k
  | lastServerSeqRead k lastServerSeq =>
    refine .kept ?_
    simp only [handle, lastServerSeqRead]
    split <;> rfl
  | eligibleRead k eligible =>
    refine .kept ?_
    simp only [handle, eligibleRead]
    split <;> rfl
  | resumeJoin k =>
    refine .kept ?_
    simp only [handle, resumeJoin]
    split
    · split
      · rfl
      · split <;> rfl
    · split <;> rfl
    · rfl
  | handleNext => exact handleNext_stands
  | ingestSettled outcome stored =>
    refine .kept ?_
    simp only [handle, ingestSettled]
    split
    · split <;> rfl
    · rfl
  | pendingLoaded pending =>
    refine .kept ?_
    simp only [handle, pendingLoaded]
    split <;> rfl
  | resumeHandler => exact resumeHandler_stands

/-! ## Reconnecting -/

/-- The ingest of a sync message succeeds after the client has given up: it holds no socket, and no
timer is pending, but it is neither closed nor suspended. -/
def CatchesUpLate (c : DocumentSyncClient) (e : Event) : Prop :=
  CatchesUp c e ∧ c.closedByClient = false ∧ c.suspended = false ∧ c.socket = none ∧
    c.reconnectTimer = none

theorem Stands.reconnecting (h : Stands c c' e) (hretries : Reconnecting c)
    (hnot : ¬ CatchesUpLate c e) : Reconnecting c' := by
  intro hclosed hsuspended hsocket
  cases h with
  | same status hstatus h =>
    simp only [standing, Standing.mk.injEq] at h
    obtain ⟨-, hs, -, hc, hsp, hu, ht⟩ := h
    rw [ht, hu]
    exact hretries (hc ▸ hclosed) (hsp ▸ hsuspended) (hs ▸ hsocket)
  | idle suspended timer hsp hidle h =>
    simp only [standing, Standing.mk.injEq] at h
    obtain ⟨-, hs, -, hc, hsp', -, -⟩ := h
    rw [hc] at hclosed
    rw [hsp'] at hsuspended
    rw [hs] at hsocket
    simp [hclosed, hsuspended, hsocket] at hidle
  | connects hconnects hstatus hcatch =>
    rw [hsocket] at hconnects
    cases hconnects
  | stops hstops hstatus hcatch =>
    rcases hstops with hstops | hstops
    · rw [hsuspended] at hstops
      cases hstops
    · rw [hclosed] at hstops
      cases hstops
  | loses hretries hstatus hcatch => exact hretries hclosed hsuspended hsocket
  | fallsBack h =>
    simp only [standing, Standing.mk.injEq] at h
    obtain ⟨-, hs, -, hc, hsp, hu, ht⟩ := h
    rw [ht, hu]
    exact hretries (hc ▸ hclosed) (hsp ▸ hsuspended) (hs ▸ hsocket)
  | catchesUp hcatches h =>
    -- the flag is cleared, so a timer must be pending
    simp only [standing, Standing.mk.injEq] at h
    obtain ⟨-, hs, -, hc, hsp, -, ht⟩ := h
    rw [ht]
    refine Or.inl (Option.ne_none_iff_isSome.1 fun htimer => hnot ?_)
    exact ⟨hcatches, hc ▸ hclosed, hsp ▸ hsuspended, hs ▸ hsocket, htimer⟩
  | online honline h =>
    simp only [standing, Standing.mk.injEq] at h
    obtain ⟨-, hs, -, hc, hsp, hu, ht⟩ := h
    rw [ht, hu]
    exact hretries (hc ▸ hclosed) (hsp ▸ hsuspended) (hs ▸ hsocket)

/-- A sync message that is settled late clears the flag, and nothing reconnects. -/
theorem CatchesUpLate.not_reconnecting (h : CatchesUpLate c e) : ¬ Reconnecting (c.handle e) := by
  obtain ⟨⟨rfl, socket, sync, hh⟩, hclosed, hsuspended, hsocket, htimer⟩ := h
  have hresumed : c.handle .resumeHandler = c.caughtUp ⟨socket, .sync sync, .settled (.ok ())⟩ := by
    simp only [handle, resumeHandler, hh, ingestDone]
  have hstanding := caughtUp_standing (c := c) ⟨socket, .sync sync, .settled (.ok ())⟩
  rw [← hresumed] at hstanding
  simp only [standing, Standing.mk.injEq] at hstanding
  obtain ⟨-, hs, -, hc, hsp, hu, ht⟩ := hstanding
  intro hretries
  have hor := hretries (hc.trans hclosed) (hsp.trans hsuspended) (hs.trans hsocket)
  rw [ht, htimer, hu] at hor
  simp at hor

theorem connect_reconnecting (c : DocumentSyncClient) (fresh : SocketId) :
    Reconnecting (c.connect fresh) := by
  intro hclosed hsuspended hsocket
  rcases connect_cases (c := c) fresh with ⟨hidle, h⟩ | ⟨hconnects, -, -⟩
  · rw [h] at hclosed hsuspended hsocket
    simp [hclosed, hsuspended, hsocket] at hidle
  · rw [hconnects] at hsocket
    cases hsocket

/-- **The client keeps reconnecting exactly in the runs where no sync message is settled late.** -/
theorem reconnecting_iff (c : DocumentSyncClient) (fresh : SocketId) (es : List Event) :
    Runs.Always handle Reconnecting (c.connect fresh) es ↔
      Runs.Never handle CatchesUpLate (c.connect fresh) es :=
  Runs.always_iff_never (I := fun _ => True) (fun _ _ _ => trivial)
    (fun c e _ hretries hnot => (handle_stands c e).reconnecting hretries hnot)
    (fun _ _ _ _ hlate => hlate.not_reconnecting) trivial (connect_reconnecting c fresh)

/-- A client without sockets, before its first `connect`. -/
def idleClient : DocumentSyncClient := .new (js "d") (js "A") none (fun _ => .connecting) []

/-- Socket 0 opens and joins, and a sync message for it is being stored. -/
def syncIngesting : List Event :=
  [.onOpen 0, .lastServerSeqRead 0 0, .resumeJoin 0, .eligibleRead 0 false, .resumeJoin 0,
    .onMessage 0 (.sync ⟨js "d", [], 0, none⟩), .handleNext]

/-- Socket 0 closes, two more attempts fail, and only then is the sync message stored. -/
def settledLate : List Event :=
  syncIngesting ++ [.onClose 0, .timerFired 1, .onClose 1, .timerFired 2, .onClose 2,
    .ingestSettled (.ok ()) true, .resumeHandler]

/-- The client is neither closed nor suspended, and nothing will ever reconnect it. -/
theorem stops_reconnecting :
    ¬ Runs.Always handle Reconnecting (idleClient.connect 0) settledLate := by
  intro h
  have hlast : Reconnecting (Runs.run handle (idleClient.connect 0) settledLate) := h.last
  exact absurd (hlast (by decide +kernel) (by decide +kernel) (by decide +kernel))
    (by decide +kernel)

/-! ## The online status -/

/-- The load of the outbox resolves, empty, when the client is no longer connected. -/
def GoesOnlineLate (c : DocumentSyncClient) (e : Event) : Prop := GoesOnline c e ∧ ¬ Connected c

theorem Stands.truthful (h : Stands c c' e) (htruthful : Truthful c) (hnot : ¬ GoesOnlineLate c e) :
    Truthful c' := by
  intro honline
  cases h with
  | same status hstatus h =>
    simp only [standing, Standing.mk.injEq] at h
    obtain ⟨hst, hs, hcu, hc, hsp, -, -⟩ := h
    have hbefore : c.status = .online := by
      rcases hstatus with hsame | hne
      · rw [← hsame, ← hst, honline]
      · exact absurd (hst.symm.trans honline) hne
    unfold Connected
    rw [hs, hcu, hc, hsp]
    exact htruthful hbefore
  | idle suspended timer hsp hidle h =>
    simp only [standing, Standing.mk.injEq] at h
    obtain ⟨hst, hs, hcu, hc, hsp', -, -⟩ := h
    obtain ⟨hsocket, hcatch, hsuspended, hclosed⟩ := htruthful (hst.symm.trans honline)
    refine ⟨by rw [hs]; exact hsocket, hcu.trans hcatch, ?_, hc.trans hclosed⟩
    rw [hsp']
    exact hsp.elim (fun h => h.trans hsuspended) id
  | connects hconnects hstatus hcatch => rw [hstatus] at honline; cases honline
  | stops hstops hstatus hcatch => rw [hstatus] at honline; cases honline
  | loses hretries hstatus hcatch => rw [hstatus] at honline; cases honline
  | fallsBack h =>
    have hstatus := congrArg Standing.status h
    rw [show c'.standing.status = c'.status from rfl, honline] at hstatus
    cases hstatus
  | catchesUp hcatches h =>
    simp only [standing, Standing.mk.injEq] at h
    obtain ⟨hst, hs, hcu, hc, hsp, -, -⟩ := h
    obtain ⟨hsocket, -, hsuspended, hclosed⟩ := htruthful (hst.symm.trans honline)
    exact ⟨by rw [hs]; exact hsocket, hcu, hsp.trans hsuspended, hc.trans hclosed⟩
  | online hgoes h =>
    simp only [standing, Standing.mk.injEq] at h
    obtain ⟨-, hs, hcu, hc, hsp, -, -⟩ := h
    unfold Connected
    rw [hs, hcu, hc, hsp]
    exact not_not.1 fun hlate => hnot ⟨hgoes, hlate⟩

/-- A load that resolves late sets the status, and nothing else. -/
theorem GoesOnlineLate.not_truthful (h : GoesOnlineLate c e) : ¬ Truthful (c.handle e) := by
  obtain ⟨⟨rfl, socket, message, hh⟩, hlate⟩ := h
  have hresumed : c.handle .resumeHandler = (c.setStatus .online).handled := by
    simp only [handle, resumeHandler, hh]
    rfl
  rw [hresumed]
  exact fun htruthful => hlate (htruthful rfl)

/-- **The status `online` is truthful exactly in the runs where no load resolves late.** -/
theorem online_truthful_iff (documentId clientId : JsString) (displayName : Option JsString)
    (readyState : SocketId → ReadyState) (sent : List (SocketId × ClientMessage))
    (es : List Event) :
    Runs.Always handle Truthful (new documentId clientId displayName readyState sent) es ↔
      Runs.Never handle GoesOnlineLate (new documentId clientId displayName readyState sent) es :=
  Runs.always_iff_never (I := fun _ => True) (fun _ _ _ => trivial)
    (fun c e _ htruthful hnot => (handle_stands c e).truthful htruthful hnot)
    (fun _ _ _ _ hlate => hlate.not_truthful) trivial (fun honline => by cases honline)

/-- The client catches up, and is suspended while `refreshOnlineStatus` reads the outbox. -/
def loadedLate : List Event :=
  .connect 0 :: syncIngesting ++ [.ingestSettled (.ok ()) true, .resumeHandler,
    .pendingLoaded (.ok []), .resumeHandler, .resumeHandler, .suspend, .pendingLoaded (.ok []),
    .resumeHandler]

/-- The client is online, suspended, and without a socket. -/
theorem online_while_suspended : ¬ Runs.Always handle Truthful idleClient loadedLate := by
  intro h
  have hlast : Truthful (Runs.run handle idleClient loadedLate) := h.last
  exact absurd (hlast (by decide +kernel)).2.2.1 (by decide +kernel)

end DocumentSyncClient

end LocalFirst
