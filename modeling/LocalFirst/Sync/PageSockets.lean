import LocalFirst.Sync.System

/-!
# The sockets of a page

* `Links` — what a method of the sync client may do to the sockets: the client keeps its socket,
  lets it go or takes a new one, and no socket opens twice.
* `Page.handle_links` — every event of a page keeps to it.
-/

set_option autoImplicit false

namespace LocalFirst

namespace DocumentSyncClient

/-- The socket of the client is the one it had, or is `fresh`; and a socket goes from connecting
to open to closing, never back. -/
structure Links (fresh : Option SocketId) (c c' : DocumentSyncClient) : Prop where
  socket : ∀ k, c'.socket = some k → c.socket = some k ∨ fresh = some k
  connecting : ∀ k, c'.readyState k = .connecting → c.readyState k = .connecting
  opened : ∀ k, c'.readyState k = .opened → c.readyState k = .opened ∨ c.readyState k = .connecting

variable {c c' c'' : DocumentSyncClient} {fresh : Option SocketId} {k : SocketId}

theorem Links.same (hs : c'.socket = c.socket) (hr : c'.readyState = c.readyState) :
    Links fresh c c' where
  socket k h := Or.inl (hs.symm.trans h)
  connecting k h := by rw [hr] at h; exact h
  opened k h := by rw [hr] at h; exact Or.inl h

theorem setStatus_socket (status : SyncStatus) : (c.setStatus status).socket = c.socket := rfl

theorem setStatus_readyState (status : SyncStatus) :
    (c.setStatus status).readyState = c.readyState := rfl

theorem Links.refl (c : DocumentSyncClient) : Links fresh c c := .same rfl rfl

theorem Links.trans (h : Links fresh c c') (h' : Links fresh c' c'') : Links fresh c c'' where
  socket k hk := by
    rcases h'.socket k hk with hk | hk
    · exact h.socket k hk
    · exact Or.inr hk
  connecting k hk := h.connecting k (h'.connecting k hk)
  opened k hk := by
    rcases h'.opened k hk with hk | hk
    · exact h.opened k hk
    · exact Or.inr (h.connecting k hk)

/-- Fields other than the sockets do not matter. -/
theorem Links.congr {b b' : DocumentSyncClient} (h : Links fresh c c') (hs : b.socket = c.socket)
    (hr : b.readyState = c.readyState) (hs' : b'.socket = c'.socket)
    (hr' : b'.readyState = c'.readyState) : Links fresh b b' :=
  (Links.same hs.symm hr.symm).trans (h.trans (.same hs' hr'))

/-- The client lets its socket go. -/
theorem Links.none (hs : c'.socket = none) (hr : c'.readyState = c.readyState) :
    Links fresh c c' where
  socket k h := by rw [hs] at h; cases h
  connecting k h := by rw [hr] at h; exact h
  opened k h := by rw [hr] at h; exact Or.inl h

/-- A socket ends. -/
theorem setReadyState_links {state : ReadyState} (h : state = .closing ∨ state = .closed) :
    Links fresh c (c.setReadyState k state) where
  socket _ h := Or.inl h
  connecting j hj := by
    simp only [setReadyState] at hj
    split at hj
    · rcases h with rfl | rfl <;> cases hj
    · exact hj
  opened j hj := by
    simp only [setReadyState] at hj
    split at hj
    · rcases h with rfl | rfl <;> cases hj
    · exact Or.inl hj

theorem closeSocket_links : Links fresh c (c.closeSocket k) := by
  unfold closeSocket
  split
  · exact setReadyState_links (Or.inl rfl)
  · exact setReadyState_links (Or.inl rfl)
  · exact .refl c
  · exact .refl c

theorem releaseSocket_links : Links fresh c c.releaseSocket := by
  unfold releaseSocket
  split
  · exact .refl c
  · rename_i socket _
    have hnone : Links fresh c { c with socket := none } := .none rfl rfl
    exact hnone.trans closeSocket_links

theorem suspend_links : Links fresh c c.suspend := by
  unfold suspend
  split
  · exact .refl c
  · exact (@releaseSocket_links { c with suspended := true, catchUpComplete := false, reconnectTimer := none }
      fresh).congr rfl rfl rfl rfl

theorem close_links : Links fresh c c.close :=
  (@releaseSocket_links { c with closedByClient := true, catchUpComplete := false, reconnectTimer := none }
    fresh).congr rfl rfl rfl rfl

theorem connect_links : Links (some k) c (c.connect k) := by
  unfold connect
  split
  · exact .refl c
  · exact ⟨fun _ h => Or.inr h, fun _ h => h, fun _ h => Or.inl h⟩

theorem resume_links : Links (some k) c (c.resume k) := by
  unfold resume
  split
  · exact .refl c
  · exact (@connect_links { c with suspended := false, reconnectAttempt := 0 } k).congr rfl rfl rfl rfl

theorem retry_links : Links (some k) c (c.retry k) := by
  unfold retry
  split
  · exact .refl c
  · simp only
    split
    · exact .same rfl rfl
    · exact (@connect_links { c with suspended := false, reconnectAttempt := 0, reconnectTimer := none }
        k).congr rfl rfl rfl rfl

theorem timerFired_links : Links (some k) c (c.timerFired k) := by
  unfold timerFired
  split
  · exact .refl c
  · simp only
    split
    · exact .same rfl rfl
    · exact (@connect_links { c with reconnectTimer := none } k).congr rfl rfl rfl rfl

theorem onOpen_links : Links fresh c (c.onOpen k) := by
  have hopens : c.readyState k = .connecting → Links fresh c (c.setReadyState k .opened) := by
    intro hk
    refine ⟨fun _ h => Or.inl h, fun j hj => ?_, fun j hj => ?_⟩
    · simp only [setReadyState] at hj
      split at hj
      · cases hj
      · exact hj
    · simp only [setReadyState] at hj
      split at hj
      · rename_i heq
        rw [heq]
        exact Or.inr hk
      · exact Or.inl hj
  unfold onOpen
  split
  · exact .refl c
  · rename_i hk
    have hopens := hopens (not_not.1 hk)
    simp only
    split
    · exact hopens
    · exact hopens.congr rfl rfl rfl rfl

theorem onMessage_links (message : ServerMessage) : Links fresh c (c.onMessage k message) := by
  unfold onMessage
  split <;> exact .same rfl rfl

theorem onError_links : Links fresh c (c.onError k) := by
  unfold onError
  split <;> exact .same rfl rfl

theorem noteConnectionFailure_links : Links fresh c c.noteConnectionFailure := by
  unfold noteConnectionFailure
  split
  · exact .refl c
  · simp only
    split <;> exact .same rfl rfl

theorem scheduleReconnect_links : Links fresh c c.scheduleReconnect := by
  unfold scheduleReconnect
  split <;> exact .same rfl rfl

theorem onClose_links : Links fresh c (c.onClose k) := by
  have hclosed : Links fresh c (c.setReadyState k .closed) := setReadyState_links (Or.inr rfl)
  unfold onClose
  simp only
  split
  · exact hclosed
  · split
    · exact hclosed.trans (.none rfl rfl)
    · -- the client lets the socket go, and notes the failure
      have hnone : Links fresh (c.setReadyState k .closed)
          { c.setReadyState k .closed with socket := none, catchUpComplete := false } := .none rfl rfl
      have hfailed := hclosed.trans (hnone.trans noteConnectionFailure_links)
      have hoffline := hfailed.congr rfl rfl (setStatus_socket .offline) (setStatus_readyState .offline)
      exact hoffline.trans scheduleReconnect_links

theorem sendOperations_links (operations : List TextOperation) :
    Links fresh c (c.sendOperations operations) := by
  unfold sendOperations
  split
  · exact .refl c
  · split <;> exact .same rfl rfl

theorem submitOperations_links (operations : List TextOperation) :
    Links fresh c (c.submitOperations operations) := by
  unfold submitOperations
  split
  · exact .refl c
  · split
    · exact .refl c
    · exact (@sendOperations_links (c.setStatus .syncing) fresh operations).congr rfl rfl rfl rfl

theorem lastServerSeqRead_links (lastServerSeq : Int) :
    Links fresh c (c.lastServerSeqRead k lastServerSeq) := by
  unfold lastServerSeqRead
  split <;> exact .same rfl rfl

theorem eligibleRead_links (eligible : Bool) : Links fresh c (c.eligibleRead k eligible) := by
  unfold eligibleRead
  split <;> exact .same rfl rfl

theorem resumeJoin_links : Links fresh c (c.resumeJoin k) := by
  unfold resumeJoin
  simp only
  repeat' split
  all_goals exact .same rfl rfl

theorem handleNext_links : Links fresh c c.handleNext := by
  unfold handleNext
  split
  · simp only
    split
    · exact .same rfl rfl
    · exact .same rfl rfl
    · exact .same rfl rfl
    · split <;> exact .same rfl rfl
    · split <;> exact .same rfl rfl
  · exact .refl c

theorem ingestSettled_links (outcome : Except JsError Unit) (stored : Bool) :
    Links fresh c (c.ingestSettled outcome stored) := by
  unfold ingestSettled
  repeat' split
  all_goals exact .same rfl rfl

theorem pendingLoaded_links (pending : Except JsError (List TextOperation)) :
    Links fresh c (c.pendingLoaded pending) := by
  unfold pendingLoaded
  split <;> exact .same rfl rfl

theorem fallbackToFullHistorySync_links : Links fresh c c.fallbackToFullHistorySync := by
  unfold fallbackToFullHistorySync
  simp only
  split
  · exact .same rfl rfl
  · have hfallback : Links fresh c { c with
        snapshotBootstrapDisabled := true, catchUpComplete := false, status := .connecting } :=
      .same rfl rfl
    exact hfallback.trans closeSocket_links

theorem refreshOnlineStatus_links (handler : Handler) :
    Links fresh c (c.refreshOnlineStatus handler) := by
  unfold refreshOnlineStatus
  repeat' split
  all_goals exact .same rfl rfl

theorem ingestDone_links (handler : Handler) (outcome : Except JsError Unit) :
    Links fresh c (c.ingestDone handler outcome) := by
  have hcaught : Links fresh c (c.caughtUp handler) := by
    unfold caughtUp flushOutbox
    split <;> exact .same rfl rfl
  unfold ingestDone
  split
  · split
    · split
      · exact (@fallbackToFullHistorySync_links c fresh).congr rfl rfl rfl rfl
      · exact .same rfl rfl
    · exact .same rfl rfl
    · exact hcaught
  · split
    · exact .same rfl rfl
    · exact refreshOnlineStatus_links handler

theorem resumeHandler_links : Links fresh c c.resumeHandler := by
  unfold resumeHandler
  split
  · exact .refl c
  · rename_i handler _
    split
    · exact ingestDone_links _ _
    · exact .same rfl rfl
    · split
      · exact .same rfl rfl
      · rename_i pending _ _
        exact (@sendOperations_links (c.setStatus .syncing) fresh pending).congr rfl rfl rfl rfl
    · exact refreshOnlineStatus_links handler
    · exact .same rfl rfl
    · split <;> exact .same rfl rfl
    · exact .refl c

end DocumentSyncClient

namespace Page

/-- The socket that an event brings. -/
def PageEvent.fresh : PageEvent → Option SocketId
  | .connect fresh => some fresh
  | .resume fresh => some fresh
  | .retry fresh => some fresh
  | .timerFired fresh => some fresh
  | _ => none

open DocumentSyncClient

/-- **What an event of a page does to its sockets.** -/
theorem handle_links {segmentGraphemes : JsString → List JsString} (page : Page) (e : PageEvent) :
    Links (PageEvent.fresh e) page.sync (page.handle segmentGraphemes e).sync := by
  cases e with
  | opens options env displayName =>
    simp only [handle, opens]
    split
    · exact close_links
    · exact close_links.trans (.none rfl rfl)
  | connect fresh => exact connect_links
  | suspend => exact suspend_links
  | resume fresh => exact resume_links
  | retry fresh => exact retry_links
  | close => exact close_links
  | timerFired fresh => exact timerFired_links
  | socketOpened socket => exact onOpen_links
  | socketError socket => exact onError_links
  | socketClosed socket => exact onClose_links
  | edit env nextText =>
    simp only [handle, edit]
    repeat' split
    all_goals exact .refl page.sync
  | submit =>
    simp only [handle, submit]
    split
    · exact .refl page.sync
    · exact submitOperations_links _
  | handleNext => exact handleNext_links
  | ingest callback =>
    simp only [handle, ingest]
    split
    · split
      · exact .refl page.sync
      all_goals exact ingestSettled_links _ _
    · exact .refl page.sync
  | loadPending aborted =>
    simp only [handle, loadPending]
    split <;> exact pendingLoaded_links _
  | resumeHandler => exact resumeHandler_links
  | readLastServerSeq socket => exact lastServerSeqRead_links _
  | readEligible socket => exact eligibleRead_links _
  | resumeJoin socket => exact resumeJoin_links

/-- A new session has no socket yet. -/
theorem opens_socket (page : Page) (options : LocalDocumentControllerOptions) (env : Surroundings)
    (displayName : Option JsString) : (page.opens options env displayName).sync.socket = none := by
  have hreleased : ∀ c : DocumentSyncClient, c.releaseSocket.socket = none := by
    intro c
    unfold releaseSocket
    split
    · assumption
    · unfold closeSocket
      split <;> rfl
  unfold opens
  simp only
  split
  · exact hreleased _
  · rfl

end Page

end LocalFirst
