import LocalFirst.Lib.Runs
import LocalFirst.Sync.SystemInvariant

/-!
# Runs of the sync client

The events of one sync client, in any order: calls of its methods, events of its sockets, firings
of its timer, and the settling of what its `async` functions wait for.

* `Page.handle_client`, `System.handle_client` — what happens in a page, and in the whole system,
  happens to a sync client as at most one such event.
* `handle_handles` — what an event does to the message that is handled.
-/

set_option autoImplicit false

namespace LocalFirst

namespace DocumentSyncClient

/-- What happens to a sync client.  `fresh` is the socket that is opened, if one is. -/
inductive Event where
  | connect (fresh : SocketId)
  | suspend
  | resume (fresh : SocketId)
  | retry (fresh : SocketId)
  | close
  | timerFired (fresh : SocketId)
  | submitOperations (operations : List TextOperation)
  | onOpen (socket : SocketId)
  | onMessage (socket : SocketId) (message : ServerMessage)
  | onError (socket : SocketId)
  | onClose (socket : SocketId)
  | lastServerSeqRead (socket : SocketId) (lastServerSeq : Int)
  | eligibleRead (socket : SocketId) (eligible : Bool)
  | resumeJoin (socket : SocketId)
  | handleNext
  | ingestSettled (outcome : Except JsError Unit) (stored : Bool)
  | pendingLoaded (pending : Except JsError (List TextOperation))
  | resumeHandler

def handle (c : DocumentSyncClient) : Event → DocumentSyncClient
  | .connect fresh => c.connect fresh
  | .suspend => c.suspend
  | .resume fresh => c.resume fresh
  | .retry fresh => c.retry fresh
  | .close => c.close
  | .timerFired fresh => c.timerFired fresh
  | .submitOperations operations => c.submitOperations operations
  | .onOpen socket => c.onOpen socket
  | .onMessage socket message => c.onMessage socket message
  | .onError socket => c.onError socket
  | .onClose socket => c.onClose socket
  | .lastServerSeqRead socket lastServerSeq => c.lastServerSeqRead socket lastServerSeq
  | .eligibleRead socket eligible => c.eligibleRead socket eligible
  | .resumeJoin socket => c.resumeJoin socket
  | .handleNext => c.handleNext
  | .ingestSettled outcome stored => c.ingestSettled outcome stored
  | .pendingLoaded pending => c.pendingLoaded pending
  | .resumeHandler => c.resumeHandler

/-- The client after a list of events. -/
def run (c : DocumentSyncClient) (es : List Event) : DocumentSyncClient := Runs.run handle c es

end DocumentSyncClient

open DocumentSyncClient (Event)

variable {segmentGraphemes : JsString → List JsString}

/-- What happens to a sync client: nothing, an event, or a new session takes its place, which keeps
the frames that were sent.  `resumes` says whether a handler goes on. -/
inductive ClientStep (c c' : DocumentSyncClient) (resumes : Prop) : Prop
  | kept (h : c' = c)
  | event (e : Event) (he : e = .resumeHandler → resumes) (h : c' = c.handle e)
  | renewed (documentId clientId : JsString) (displayName : Option JsString)
      (readyState : SocketId → ReadyState)
      (h : c' = .new documentId clientId displayName readyState c.sent)

/-- An event of a page is nothing to its sync client, or an event of it, unless it brings a new
session. -/
theorem Page.handle_event (page : Page) {e : PageEvent} (hsession : Page.isOpen e = false) :
    (page.handle segmentGraphemes e).sync = page.sync ∨
      ∃ ce, (ce = .resumeHandler → e = .resumeHandler) ∧
        (page.handle segmentGraphemes e).sync = page.sync.handle ce := by
  have hother : ∀ {c : DocumentSyncClient} (ce : Event), ce ≠ .resumeHandler →
      c = page.sync.handle ce → c = page.sync ∨
        ∃ ce, (ce = .resumeHandler → e = .resumeHandler) ∧ c = page.sync.handle ce :=
    fun ce hne h => Or.inr ⟨ce, fun he => absurd he hne, h⟩
  cases e with
  | opens options env displayName => cases hsession
  | connect fresh => exact hother (.connect fresh) (by simp) rfl
  | suspend => exact hother .suspend (by simp) rfl
  | resume fresh => exact hother (.resume fresh) (by simp) rfl
  | retry fresh => exact hother (.retry fresh) (by simp) rfl
  | close => exact hother .close (by simp) rfl
  | timerFired fresh => exact hother (.timerFired fresh) (by simp) rfl
  | socketOpened socket => exact hother (.onOpen socket) (by simp) rfl
  | socketError socket => exact hother (.onError socket) (by simp) rfl
  | socketClosed socket => exact hother (.onClose socket) (by simp) rfl
  | edit env nextText =>
    refine Or.inl ?_
    simp only [Page.handle, Page.edit]
    split
    · rfl
    · split <;> rfl
  | submit =>
    simp only [Page.handle, Page.submit]
    split
    · exact Or.inl rfl
    · rename_i operations rest _
      exact hother (.submitOperations operations) (by simp) rfl
  | handleNext => exact hother .handleNext (by simp) rfl
  | ingest callback =>
    simp only [Page.handle, Page.ingest]
    split
    · rename_i controller _ message _ _
      split
      · exact Or.inl rfl
      · rename_i error _
        exact hother (.ingestSettled (.error error) false) (by simp) rfl
      · exact hother (.ingestSettled (.ok ()) false) (by simp) rfl
      · rename_i d env _
        exact hother (.ingestSettled ((Page.runDelivery controller page.db env d).2.2.map fun _ => ())
          (Page.runDelivery controller page.db env d).2.2.isOk) (by simp) rfl
    · exact Or.inl rfl
  | loadPending aborted =>
    simp only [Page.handle, Page.loadPending]
    split
    · rename_i error
      exact hother (.pendingLoaded (.error error)) (by simp) rfl
    · exact hother (.pendingLoaded (page.db.loadPendingOperations page.sync.documentId)) (by simp) rfl
  | resumeHandler => exact Or.inr ⟨.resumeHandler, fun _ => rfl, rfl⟩
  | readLastServerSeq socket =>
    exact hother (.lastServerSeqRead socket (page.db.getLastServerSeq page.sync.documentId))
      (by simp) rfl
  | readEligible socket =>
    exact hother (.eligibleRead socket (page.db.isSnapshotBootstrapEligible page.sync.documentId))
      (by simp) rfl
  | resumeJoin socket => exact hother (.resumeJoin socket) (by simp) rfl

/-- **What happens in a page happens to its sync client as at most one event.** -/
theorem Page.handle_client (page : Page) (e : PageEvent) :
    ClientStep page.sync (page.handle segmentGraphemes e).sync (e = .resumeHandler) := by
  cases hsession : Page.isOpen e with
  | true =>
    cases e with
    | opens options env displayName =>
      simp only [Page.handle, Page.opens]
      split
      · exact .event .close (fun he => by cases he) rfl
      · rename_i controller db _
        have hsent : page.sync.close.sent = page.sync.sent :=
          congrArg DocumentSyncClient.Traffic.sent page.sync.close_traffic
        exact .renewed controller.documentId controller.clientId displayName
          page.sync.close.readyState (by rw [hsent])
    | _ => cases hsession
  | false =>
    rcases @handle_event segmentGraphemes page e hsession with h | ⟨ce, hce, h⟩
    · exact .kept h
    · exact .event ce hce h

/-- **What happens in the system happens to a sync client as at most one event.** -/
theorem System.handle_client (w : System) (e : SystemEvent) (i : Nat) :
    ClientStep (w.pages i).sync ((w.handle segmentGraphemes e).pages i).sync
      (e = .page i .resumeHandler) := by
  rcases @System.handle_page segmentGraphemes w e i with
    heq | ⟨pe, rfl, -, heq⟩ | ⟨socket, message, -, -, heq⟩
  · exact .kept (by rw [heq])
  · rw [heq]
    cases @Page.handle_client segmentGraphemes (w.pages i) pe with
    | kept h => exact .kept h
    | event ce hce h => exact .event ce (fun he => by rw [hce he]) h
    | renewed documentId clientId displayName readyState h =>
      exact .renewed documentId clientId displayName readyState h
  · rw [heq]
    exact .event (.onMessage socket message) (fun he => by cases he) rfl

/-! ## Handling messages -/

/-- `handleMessage` does not turn the message away before it ingests it. -/
def Takes (documentId : JsString) (message : ServerMessage) : Prop :=
  (parseServerMessage message).isSome = true ∧
    ∃ d, delivery message = some d ∧ d.documentId = documentId

namespace DocumentSyncClient

variable {c : DocumentSyncClient} {e : Event} {k : SocketId} {message : ServerMessage}
  {inbound : List (SocketId × ServerMessage)}

/-- What an event does to the handler of a client. -/
inductive Handles (c c' : DocumentSyncClient) (e : Event) : Prop
  | kept (h : c'.handling = c.handling)
  | takes (k : SocketId) (message : ServerMessage) (inbound : List (SocketId × ServerMessage))
      (hh : c.handling = none) (hinbound : c.inbound = (k, message) :: inbound)
      (htakes : Takes c.documentId message) (h : c'.handling = some ⟨k, message, .ingesting⟩)
  | settles (k : SocketId) (message : ServerMessage) (outcome : Except JsError Unit)
      (hh : c.handling = some ⟨k, message, .ingesting⟩)
      (h : c'.handling = some ⟨k, message, .settled outcome⟩)
  | loads (k : SocketId) (message : ServerMessage) (stage stage' : HandlerStage)
      (hstage : (stage = .flushing ∧ ∃ pending, stage' = .flushLoaded pending) ∨
        (stage = .refreshing ∧ ∃ pending, stage' = .refreshLoaded pending))
      (hh : c.handling = some ⟨k, message, stage⟩) (h : c'.handling = some ⟨k, message, stage'⟩)
  | resumes (handler : Handler) (he : e = .resumeHandler) (hh : c.handling = some handler)
      (h : c'.handling = none ∨ ∃ stage, c'.handling = some { handler with stage := stage })

/-- The first message of the queue is handed to a callback if it is taken, and dropped otherwise. -/
theorem handleNext_cases (hh : c.handling = none) (hinbound : c.inbound = (k, message) :: inbound) :
    c.handleNext.inbound = inbound ∧ c.handleNext.documentId = c.documentId ∧
      ((Takes c.documentId message ∧ c.handleNext.handling = some ⟨k, message, .ingesting⟩) ∨
        (¬ Takes c.documentId message ∧ c.handleNext.handling = none)) := by
  unfold handleNext
  rw [hh, hinbound]
  simp only
  split
  · rename_i hparse
    refine ⟨rfl, rfl, Or.inr ⟨fun ht => ?_, rfl⟩⟩
    have hsome := ht.1
    rw [hparse] at hsome
    cases hsome
  · rename_i error hparse
    obtain rfl := parseServerMessage_some hparse
    exact ⟨rfl, rfl, Or.inr ⟨fun ⟨_, d, hd, _⟩ => (by cases hd), rfl⟩⟩
  · rename_i presence hparse
    obtain rfl := parseServerMessage_some hparse
    exact ⟨rfl, rfl, Or.inr ⟨fun ⟨_, d, hd, _⟩ => (by cases hd), rfl⟩⟩
  · rename_i sync hparse
    obtain rfl := parseServerMessage_some hparse
    split
    · rename_i hother
      exact ⟨rfl, rfl, Or.inr ⟨fun ⟨_, d, hd, hdoc⟩ => (by cases hd; exact hother hdoc), rfl⟩⟩
    · rename_i hdoc
      refine ⟨rfl, rfl, Or.inl ⟨⟨by rw [hparse]; rfl, _, rfl, not_not.1 hdoc⟩, rfl⟩⟩
  · rename_i operation hparse
    obtain rfl := parseServerMessage_some hparse
    split
    · rename_i hother
      exact ⟨rfl, rfl, Or.inr ⟨fun ⟨_, d, hd, hdoc⟩ => (by cases hd; exact hother hdoc), rfl⟩⟩
    · rename_i hdoc
      refine ⟨rfl, rfl, Or.inl ⟨⟨by rw [hparse]; rfl, _, rfl, not_not.1 hdoc⟩, rfl⟩⟩

theorem handleNext_handles : Handles c c.handleNext .handleNext := by
  cases hh : c.handling with
  | some handler =>
    refine .kept ?_
    unfold handleNext
    split
    · rename_i hnone _
      rw [hh] at hnone
      cases hnone
    · rfl
  | none =>
    cases hinbound : c.inbound with
    | nil =>
      refine .kept ?_
      unfold handleNext
      split
      · rename_i hcons
        rw [hinbound] at hcons
        cases hcons
      · rfl
    | cons p inbound =>
      obtain ⟨k, message⟩ := p
      obtain ⟨-, -, ⟨htakes, h⟩ | ⟨-, h⟩⟩ := handleNext_cases hh hinbound
      · exact .takes k message inbound hh hinbound htakes h
      · exact .kept (h.trans hh.symm)

/-- **What one event does to the handler of a client.** -/
theorem handle_handles (c : DocumentSyncClient) (e : Event) : Handles c (c.handle e) e := by
  have hsame : ∀ {c' : DocumentSyncClient} {t : Traffic}, c'.traffic = t →
      t.handling = c.handling → Handles c c' e :=
    fun h hh => .kept ((congrArg Traffic.handling h).trans hh)
  cases e with
  | connect fresh => exact hsame connect_traffic rfl
  | suspend => exact hsame suspend_traffic rfl
  | resume fresh => exact hsame resume_traffic rfl
  | retry fresh => exact hsame retry_traffic rfl
  | close => exact hsame close_traffic rfl
  | timerFired fresh => exact hsame timerFired_traffic rfl
  | onError socket => exact hsame onError_traffic rfl
  | onClose socket => exact hsame onClose_traffic rfl
  | submitOperations operations =>
    rcases submitOperations_traffic (c := c) operations with h | ⟨socket, -, -, h⟩
    · exact hsame h rfl
    · exact hsame h rfl
  | onOpen socket =>
    rcases onOpen_traffic (c := c) (k := socket) with h | ⟨-, -, -, h⟩
    · exact hsame h rfl
    · exact hsame h rfl
  | onMessage socket message =>
    rcases onMessage_cases (c := c) (k := socket) message with ⟨-, h⟩ | ⟨-, -, h⟩
    · exact .kept (by rw [handle, h])
    · exact .kept (by rw [handle, h])
  | lastServerSeqRead socket lastServerSeq =>
    obtain ⟨joins, -, h⟩ := lastServerSeqRead_traffic (c := c) (k := socket) lastServerSeq
    exact hsame h rfl
  | eligibleRead socket eligible =>
    obtain ⟨joins, -, h⟩ := eligibleRead_traffic (c := c) (k := socket) eligible
    exact hsame h rfl
  | resumeJoin socket =>
    obtain ⟨joins, -, h | ⟨_, _, _, _, _, _, _, _, _, _, h⟩⟩ := resumeJoin_traffic (c := c) (k := socket)
    · exact hsame h rfl
    · exact hsame h rfl
  | handleNext => exact handleNext_handles
  | ingestSettled outcome stored =>
    simp only [handle, ingestSettled]
    split
    · rename_i socket message hh
      refine .settles socket message outcome hh ?_
      split <;> rfl
    · exact .kept rfl
  | pendingLoaded pending =>
    simp only [handle, pendingLoaded]
    split
    · rename_i socket message hh
      exact .loads socket message .flushing _ (Or.inl ⟨rfl, pending, rfl⟩) hh rfl
    · rename_i socket message hh
      exact .loads socket message .refreshing _ (Or.inr ⟨rfl, pending, rfl⟩) hh rfl
    · exact .kept rfl
  | resumeHandler =>
    cases resumeHandler_resumes (c := c) with
    | same h => exact hsame h rfl
    | ended handler hh hstage h =>
      exact .resumes handler rfl hh (Or.inl (congrArg Traffic.handling h))
    | waits handler stage hh hstage hwaits h =>
      exact .resumes handler rfl hh (Or.inr ⟨stage, congrArg Traffic.handling h⟩)
    | sends handler pending socket hh hstage hsocket hopen h =>
      exact .resumes handler rfl hh (Or.inr ⟨.flushed, congrArg Traffic.handling h⟩)

/-- A handler whose ingest has settled waits for `resumeHandler`. -/
theorem Handles.settled {c' : DocumentSyncClient} (h : Handles c c' e) {outcome : Except JsError Unit}
    (hh : c.handling = some ⟨k, message, .settled outcome⟩) (he : e ≠ .resumeHandler) :
    c'.handling = some ⟨k, message, .settled outcome⟩ := by
  cases h with
  | kept h => exact h.trans hh
  | takes k message inbound hnone hinbound htakes h =>
    rw [hh] at hnone
    cases hnone
  | settles k message outcome hingesting h =>
    rw [hh] at hingesting
    cases hingesting
  | loads k message stage stage' hstage hloads h =>
    rw [hh] at hloads
    cases hloads
    rcases hstage with ⟨hstage, -⟩ | ⟨hstage, -⟩ <;> cases hstage
  | resumes handler hresumes hh' h => exact absurd hresumes he

end DocumentSyncClient

end LocalFirst
