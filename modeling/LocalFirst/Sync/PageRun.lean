import LocalFirst.Server.JoinAtomic
import LocalFirst.Sync.Fallback

/-!
# The run of a page in the system

To one page a run of the whole system is a run under inputs: its own events, and the messages that
reach it.  Where the server does not fail while it answers a join, these inputs are orderly after a
fallback.

* `System.input` — what an event of the system is to a page.
* `SyncsFirst` — the first message of a log that a socket is sent is the sync message.
* `ServedInv` — the invariant of the sockets of the pages.
* `run_page` — the page has gone through its inputs.
* `orderly` — after a fallback the inputs are orderly.
* `falls_back_iff` — the fallback in the runs of the system.
-/

set_option autoImplicit false

namespace LocalFirst

/-! ## Sockets that are not used -/

namespace DocumentSyncClient

variable {c : DocumentSyncClient} {j k : SocketId}

theorem setReadyState_other (state : ReadyState) (h : j ≠ k) :
    (c.setReadyState j state).readyState k = c.readyState k := if_neg h.symm

theorem closeSocket_other (h : j ≠ k) : (c.closeSocket j).readyState k = c.readyState k := by
  unfold closeSocket
  split
  · exact setReadyState_other .closing h
  · exact setReadyState_other .closing h
  · rfl
  · rfl

theorem releaseSocket_other (h : c.socket ≠ some k) :
    c.releaseSocket.readyState k = c.readyState k := by
  unfold releaseSocket
  split
  · rfl
  · rename_i j hj
    exact closeSocket_other fun hjk => h (hj.trans (congrArg some hjk))

theorem suspend_other (h : c.socket ≠ some k) : c.suspend.readyState k = c.readyState k := by
  unfold suspend
  split
  · rfl
  · exact @releaseSocket_other
      { c with suspended := true, catchUpComplete := false, reconnectTimer := none } k h

theorem close_other (h : c.socket ≠ some k) : c.close.readyState k = c.readyState k :=
  @releaseSocket_other
    { c with closedByClient := true, catchUpComplete := false, reconnectTimer := none } k h

theorem connect_readyState (fresh : SocketId) : (c.connect fresh).readyState = c.readyState := by
  unfold connect
  split <;> rfl

theorem fallbackToFullHistorySync_other (h : c.socket ≠ some k) :
    c.fallbackToFullHistorySync.readyState k = c.readyState k := by
  unfold fallbackToFullHistorySync
  simp only
  split
  · rfl
  · rename_i j hj
    exact closeSocket_other fun hjk => h (hj.trans (congrArg some hjk))

theorem onOpen_other (h : j ≠ k) : (c.onOpen j).readyState k = c.readyState k := by
  unfold onOpen
  split
  · rfl
  · simp only
    split <;> exact setReadyState_other .opened h

theorem noteConnectionFailure_readyState : c.noteConnectionFailure.readyState = c.readyState := by
  unfold noteConnectionFailure
  split
  · rfl
  · simp only
    split <;> rfl

theorem scheduleReconnect_readyState : c.scheduleReconnect.readyState = c.readyState := by
  unfold scheduleReconnect
  split <;> rfl

theorem onClose_other (h : j ≠ k) : (c.onClose j).readyState k = c.readyState k := by
  have hclosed : (c.setReadyState j .closed).readyState k = c.readyState k :=
    setReadyState_other .closed h
  unfold onClose
  simp only
  split
  · exact hclosed
  · split
    · exact hclosed
    · rw [scheduleReconnect_readyState]
      exact (congrFun noteConnectionFailure_readyState k).trans hclosed

theorem sendOperations_readyState (operations : List TextOperation) :
    (c.sendOperations operations).readyState = c.readyState := by
  unfold sendOperations
  split
  · rfl
  · split <;> rfl

theorem resumeHandler_other (h : c.socket ≠ some k) :
    c.resumeHandler.readyState k = c.readyState k := by
  have hrefreshed : ∀ handler, (c.refreshOnlineStatus handler).readyState = c.readyState := by
    intro handler
    unfold refreshOnlineStatus
    split
    · rfl
    · split <;> rfl
  unfold resumeHandler
  split
  · rfl
  · rename_i handler hh
    split
    · unfold ingestDone
      split
      · split
        · split
          · exact fallbackToFullHistorySync_other h
          · rfl
        · rfl
        · unfold caughtUp flushOutbox
          split <;> rfl
      · split
        · rfl
        · exact congrFun (hrefreshed handler) k
    · rfl
    · split
      · rfl
      · exact congrFun (sendOperations_readyState _) k
    · exact congrFun (hrefreshed handler) k
    · rfl
    · split <;> rfl
    · rfl

end DocumentSyncClient

namespace Page

open DocumentSyncClient

variable {segmentGraphemes : JsString → List JsString} {page : Page} {e : PageEvent} {k : SocketId}

/-- The socket that an event of the browser is about. -/
def PageEvent.target : PageEvent → Option SocketId
  | .socketOpened socket => some socket
  | .socketClosed socket => some socket
  | _ => none

/-- **An event leaves the sockets alone** that are neither the client's nor its own. -/
theorem handle_other (hsocket : page.sync.socket ≠ some k) (htarget : PageEvent.target e ≠ some k) :
    (page.handle segmentGraphemes e).sync.readyState k = page.sync.readyState k := by
  cases e with
  | opens options env displayName =>
    simp only [handle, opens]
    split <;> exact close_other hsocket
  | connect fresh => exact congrFun (connect_readyState fresh) k
  | suspend => exact suspend_other hsocket
  | resume fresh =>
    simp only [handle, DocumentSyncClient.resume]
    split
    · rfl
    · rw [connect_readyState]
  | retry fresh =>
    simp only [handle, DocumentSyncClient.retry]
    split
    · rfl
    · split
      · rfl
      · rw [connect_readyState]
        rfl
  | close => exact close_other hsocket
  | timerFired fresh =>
    simp only [handle, DocumentSyncClient.timerFired]
    split
    · rfl
    · split
      · rfl
      · rw [connect_readyState]
  | socketOpened socket => exact onOpen_other fun hk => htarget (congrArg some hk)
  | socketError socket =>
    simp only [handle, onError]
    split <;> rfl
  | socketClosed socket => exact onClose_other fun hk => htarget (congrArg some hk)
  | edit env nextText =>
    simp only [handle, edit]
    repeat' split
    all_goals rfl
  | submit =>
    simp only [handle, submit]
    split
    · rfl
    · unfold submitOperations
      split
      · rfl
      · split
        · rfl
        · exact congrFun (sendOperations_readyState _) k
  | handleNext =>
    simp only [handle, handleNext]
    repeat' split
    all_goals rfl
  | ingest callback =>
    simp only [handle, ingest, ingestSettled]
    repeat' split
    all_goals rfl
  | loadPending aborted =>
    simp only [handle, loadPending, pendingLoaded]
    repeat' split
    all_goals rfl
  | resumeHandler => exact resumeHandler_other hsocket
  | readLastServerSeq socket =>
    simp only [handle, lastServerSeqRead]
    split <;> rfl
  | readEligible socket =>
    simp only [handle, eligibleRead]
    split <;> rfl
  | resumeJoin socket =>
    simp only [handle, resumeJoin]
    repeat' split
    all_goals rfl

end Page

/-! ## The first message of a log -/

namespace SyncServer

variable {w : SyncServer} {k : SocketId}

/-- No message of a log is sent to the socket before a sync message of its document, and an open
member has been sent one. -/
structure SyncsFirst (w : SyncServer) (k : SocketId) : Prop where
  first : ∀ before m after d, w.sentTo k = before ++ m :: after → delivery m = some d →
    ∃ sync, .sync sync ∈ before ++ [m] ∧ sync.documentId = d.documentId
  member : ∀ d, w.readyState k = .opened → w.joinedTo k = some d →
    ∃ sync, .sync sync ∈ w.sentTo k ∧ sync.documentId = d

theorem SyncsFirst.of_quiet (hnone : w.joinedTo k = none) (hquiet : ∀ m ∈ w.sentTo k, Quiet m) :
    SyncsFirst w k where
  first before m after d hsent hd := by
    have hq : Quiet m := hquiet m (by rw [hsent]; simp)
    cases hq.symm.trans hd
  member d _ hjoined := by cases hnone.symm.trans hjoined

/-- More is sent: it is enough to look at the new messages. -/
theorem SyncsFirst.extend {w' : SyncServer} (h : SyncsFirst w k)
    {added : List (SocketId × ServerMessage)} (hsent : w'.sent = w.sent ++ added)
    (hnew : ∀ m ∈ toSocket k added, ∀ d, delivery m = some d →
      ∃ sync, (.sync sync ∈ w.sentTo k ∨ .sync sync = m) ∧ sync.documentId = d.documentId) :
    ∀ before m after d, w'.sentTo k = before ++ m :: after → delivery m = some d →
      ∃ sync, .sync sync ∈ before ++ [m] ∧ sync.documentId = d.documentId := by
  intro before m after d hsplit hd
  rw [sentTo_append hsent] at hsplit
  rcases split_append hsplit with ⟨rest, hold⟩ | ⟨before', hbefore, hto⟩
  · exact h.first before m rest d hold hd
  · obtain ⟨sync, hsync, hdocument⟩ := hnew m (by rw [hto]; simp) d hd
    refine ⟨sync, ?_, hdocument⟩
    rcases hsync with hsync | rfl
    · rw [hbefore, List.append_assoc]
      exact List.mem_append_left _ hsync
    · simp

/-- **Every event keeps it**, unless the server fails while it answers a join on the socket. -/
theorem SyncsFirst.handle (hinv : Inv w) (h : SyncsFirst w k) (e : Event)
    (hanswers : ∀ message env, e = .message k (.message (.join message)) env →
      env.syncThrows = none) : SyncsFirst (w.handle e) k where
  first := by
    have hquiet : ∀ {added : List (SocketId × ServerMessage)}, (∀ p ∈ added, Quiet p.2) →
        ∀ m ∈ toSocket k added, ∀ d, delivery m = some d →
          ∃ sync, (.sync sync ∈ w.sentTo k ∨ .sync sync = m) ∧ sync.documentId = d.documentId := by
      intro added hadded m hm d hd
      have hq : Quiet m := hadded _ (mem_toSocket.1 hm)
      cases hq.symm.trans hd
    cases handle_effect w e with
    | moved he added hstore hsent hadded => exact h.extend hsent (hquiet fun p hp => (hadded p hp).2)
    | quiet added hrooms hstore hsent hadded =>
      exact h.extend hsent (hquiet fun p hp => (hadded p hp).2)
    | stalled socket session message env added he hsession hnew hschema hthrows hrooms hstore hsent
        hadded => exact h.extend hsent (hquiet fun p hp => (hadded p hp).2)
    | synced socket session message env rest he hsession hnew hschema hcursor hrooms hstore hsent
        hrest =>
      refine h.extend hsent fun m hm d hd => ?_
      rcases List.mem_append.1 (mem_toSocket.1 hm) with hm | hm
      · cases (mem_addressed hm).1
        cases hd
        exact ⟨_, Or.inr rfl, rfl⟩
      · cases (hrest _ hm).2.symm.trans hd
    | echoed socket session documentId item env he hsession hdocument hclient hrooms hitem hstore
        hsent =>
      refine h.extend hsent fun m hm d hd => ?_
      obtain ⟨heq, hopen⟩ := mem_addressed (mem_toSocket.1 hm)
      cases heq
      cases hd
      obtain ⟨sync, hsync, hd⟩ := h.member documentId hopen (by
        unfold joinedTo
        rw [hsession]
        exact hdocument)
      exact ⟨sync, Or.inl hsync, hd⟩
    | appended socket session documentId operation env he hsession hdocument hclient hvalid hschema
        hrooms hnew hstore hsent =>
      refine h.extend hsent fun m hm d hd => ?_
      obtain ⟨peer, hpeer, heq⟩ := List.mem_map.1 (mem_toSocket.1 hm)
      cases heq
      cases hd
      obtain ⟨hjoined, hopen⟩ := (mem_audience hinv.rooms).1 hpeer
      obtain ⟨sync, hsync, hd⟩ := h.member documentId hopen hjoined
      exact ⟨sync, Or.inl hsync, hd⟩
  member d hopen hjoined := by
    -- a socket with a session is not connecting
    have hbefore : ∀ session, w.sessions.get? k = some session → w.readyState k = .opened := by
      intro session hsession
      refine ((handle_readyState w e k).2 hopen).resolve_right fun hconnecting => ?_
      rcases hinv.rooms.connected k session hsession with ho | ho <;> cases ho.symm.trans hconnecting
    rcases joined_cases hjoined with hold | ⟨message, env, hjoin, hpasses, rfl⟩
    · obtain ⟨session, hsession, -⟩ := Option.bind_eq_some_iff.1 hold
      obtain ⟨sync, hsync, hd⟩ := h.member d (hbefore session hsession) hold
      exact ⟨sync, mem_toSocket.2 (hinv.sent_grows e (mem_toSocket.1 hsync)), hd⟩
    · obtain ⟨he, session, hsession, -⟩ := id hjoin
      have hreliable : ¬ env.syncThrows.isSome = true := by
        rw [hanswers message env he]
        exact Bool.false_ne_true
      obtain ⟨sync, hsync, hd⟩ :=
        hinv.join_synced hjoin hpasses hreliable (hbefore session hsession)
      exact ⟨sync, mem_toSocket.2 hsync, hd⟩

end SyncServer

namespace System

variable {w : System} {i : Nat} {k : SocketId}

/-! ## The inputs of a page -/

/-- What an event of the system is to page `i`: an event of its own that is allowed, or the message
that reaches it. -/
def input (w : System) (i : Nat) : SystemEvent → List PageInput
  | .page j e => if j = i ∧ w.allows i e then [.event e] else []
  | .toPage socket =>
    if w.owner socket = some i then
      ((w.server.sentTo socket)[w.toPage socket]?).toList.map (.message socket)
    else []
  | _ => []

section

variable (segmentGraphemes : JsString → List JsString)

def inputs (w : System) (i : Nat) : List SystemEvent → List PageInput
  | [] => []
  | e :: es => w.input i e ++ (w.handle segmentGraphemes e).inputs i es

end

variable {segmentGraphemes : JsString → List JsString} {e : SystemEvent}

/-- The messages to a socket that have reached its page. -/
def arrivals (w : System) (k : SocketId) : List ServerMessage :=
  (w.server.sentTo k).take (w.toPage k)

/-- The invariant of the sockets: one that no page owns is connecting on every page, and to one that
a page owns the server has sent nothing of a log before the page has joined there. -/
structure SocketInv (w : System) : Prop where
  base : Inv w
  joins : ∀ i, Page.JoinInv (w.pages i)
  through : ∀ k, w.toPage k ≤ (w.server.sentTo k).length
  fresh : ∀ i k, w.owner k = none → (w.pages i).sync.readyState k = .connecting
  heard : ∀ i k, w.owner k = some i → (∃ join, (k, .join join) ∈ (w.pages i).sync.sent) ∨
    (w.server.joinedTo k = none ∧ ∀ m ∈ w.server.sentTo k, SyncServer.Quiet m)

theorem SocketInv.start {store : OperationStore} (h : store.Reachable) : SocketInv (start store) where
  base := .start h
  joins i := .start
  through k := Nat.zero_le _
  fresh i k _ := rfl
  heard i k hk := by cases hk

/-- What has reached a page after an event had reached it before, or is its input; and no more has
than was sent. -/
theorem SocketInv.handle_arrivals (h : SocketInv w) (e : SystemEvent) (k : SocketId) :
    (w.handle segmentGraphemes e).toPage k ≤
        ((w.handle segmentGraphemes e).server.sentTo k).length ∧
      ∀ i m, w.owner k = some i → m ∈ (w.handle segmentGraphemes e).arrivals k →
        m ∈ w.arrivals k ∨ .message k m ∈ w.input i e := by
  have hbound := h.through k
  have hserved : ∀ {w' : System} {se : SyncServer.Event}, w'.server = w.server.handle se →
      w'.toPage = w.toPage → w'.toPage k ≤ (w'.server.sentTo k).length ∧
        w'.arrivals k = w.arrivals k := by
    intro w' se hserver htoPage
    obtain ⟨added, hsent, -⟩ := (h.base.server.speaks se).sent
    unfold arrivals
    rw [hserver, htoPage, SyncServer.sentTo_append hsent]
    refine ⟨?_, List.take_append_of_le_length hbound⟩
    rw [List.length_append]
    omega
  cases @handle_steps segmentGraphemes w e with
  | idle heq => rw [heq]; exact ⟨hbound, fun i m _ hm => Or.inl hm⟩
  | page j pe he hallows heq =>
    have hstep := h.base.pageStep hallows heq
    unfold arrivals
    rw [hstep.server, hstep.toPage]
    exact ⟨hbound, fun i m _ hm => Or.inl hm⟩
  | served se hfree hindependent heq =>
    obtain ⟨hle, hsame⟩ :=
      @hserved (w.handle segmentGraphemes e) se (by rw [heq]) (by rw [heq])
    exact ⟨hle, fun i m _ hm => Or.inl (hsame ▸ hm)⟩
  | arrives socket env j message he howner hframe heq =>
    obtain ⟨hle, hsame⟩ := @hserved (w.handle segmentGraphemes e)
      (.message socket (.message message) env) (by rw [heq]) (by rw [heq])
    exact ⟨hle, fun i m _ hm => Or.inl (hsame ▸ hm)⟩
  | reaches socket j message he howner hmessage heq =>
    have htoPage : (w.handle segmentGraphemes e).toPage k =
        if k = socket then w.toPage k + 1 else w.toPage k := by rw [heq]
    have hsent : (w.handle segmentGraphemes e).server.sentTo k = w.server.sentTo k := by
      rw [heq]
      rfl
    unfold arrivals
    rw [hsent, htoPage]
    split
    · rename_i hk
      rw [hk] at hsent ⊢
      obtain ⟨hlt, -⟩ := List.getElem?_eq_some_iff.1 hmessage
      refine ⟨hlt, fun i m hi hm => ?_⟩
      rw [List.take_add_one, hmessage] at hm
      refine (List.mem_append.1 hm).imp_right fun hm => ?_
      have hinput : w.input i (.toPage socket) = [.message socket message] := by
        show (if w.owner socket = some i then _ else _) = _
        rw [if_pos hi, hmessage]
        rfl
      rw [he, hinput, List.mem_singleton.1 hm]
      exact List.mem_singleton.2 rfl
    · exact ⟨hbound, fun i m _ hm => Or.inl hm⟩

/-- **Every event keeps it.** -/
theorem SocketInv.handle (h : SocketInv w) (e : SystemEvent) :
    SocketInv (w.handle segmentGraphemes e) := by
  refine ⟨h.base.handle e, fun i => ?_, fun k => (h.handle_arrivals e k).1, fun i k hk => ?_,
    fun i k hk => ?_⟩
  · rcases @handle_page segmentGraphemes w e i with heq | ⟨pe, -, -, heq⟩ | ⟨k, m, -, -, heq⟩
    · rw [heq]
      exact h.joins i
    · rw [heq]
      exact (h.joins i).handle pe
    · rw [heq]
      exact (h.joins i).onMessage k m
  · -- a socket without an owner is not touched
    have hnone : w.owner k = none := by
      cases howner : w.owner k with
      | none => rfl
      | some j => cases hk.symm.trans (h.base.owner_kept e howner)
    rcases @handle_page segmentGraphemes w e i with heq | ⟨pe, -, hallows, heq⟩ | ⟨j, m, -, -, heq⟩
    · rw [heq]
      exact h.fresh i k hnone
    · rw [heq, Page.handle_other]
      · exact h.fresh i k hnone
      · exact fun hsocket => by cases hnone.symm.trans (h.base.owned i k hsocket)
      · intro htarget
        cases pe with
        | socketOpened socket =>
          cases htarget
          simp [allows, hnone] at hallows
        | socketClosed socket =>
          cases htarget
          simp [allows, hnone] at hallows
        | _ => cases htarget
    · rw [heq]
      unfold DocumentSyncClient.onMessage
      split <;> exact h.fresh i k hnone
  · rcases h.base.owner_cases hk with hold | ⟨hunused, hserver⟩
    · rcases h.heard i k hold with ⟨join, hjoin⟩ | ⟨hnone, hquiet⟩
      · exact Or.inl ⟨join, sent_kept hjoin⟩
      · rcases @handle_join segmentGraphemes w e k i hold with hserver | ⟨se, hserver, hjoins⟩
        · rw [hserver]
          exact Or.inr ⟨hnone, hquiet⟩
        · rw [hserver]
          rcases h.base.server.unheard se hnone hquiet with hstill | ⟨join, env, hse, -⟩
          · exact Or.inr hstill
          · exact Or.inl ⟨join, sent_kept (hjoins join env hse).1⟩
    · obtain ⟨hnone, hnil⟩ := h.base.unused_silent hunused
      rw [hserver]
      refine Or.inr ⟨hnone, fun m hm => ?_⟩
      rw [hnil] at hm
      cases hm

theorem SocketInv.run : ∀ {w : System} (es : List SystemEvent), SocketInv w →
    SocketInv (w.run segmentGraphemes es)
  | _, [], h => h
  | _, e :: es, h => (h.handle e).run es

/-- **An event of the system takes a page through its inputs.** -/
theorem SocketInv.handle_input (h : SocketInv w) (e : SystemEvent) (i : Nat) :
    (w.handle segmentGraphemes e).pages i =
      (w.pages i).run segmentGraphemes (w.input i e) := by
  cases e with
  | page j pe =>
    by_cases hj : j = i
    · subst hj
      by_cases hallows : w.allows j pe = true
      · have hadmits : (w.pages j).admits pe = true := by
          unfold Page.admits
          split
          · rfl
          · rename_i fresh hfresh
            have hunused := allows_fresh hallows hfresh
            simp only [unused, Bool.and_eq_true, Option.isNone_iff_eq_none] at hunused
            simpa using h.fresh j fresh hunused.1
        have hinput : w.input j (.page j pe) = [.event pe] := if_pos ⟨rfl, hallows⟩
        rw [hinput]
        simp only [System.handle]
        rw [if_pos hallows, claim_pages, setPage_pages, if_pos rfl]
        exact (if_pos hadmits).symm
      · have hinput : w.input j (.page j pe) = [] := if_neg fun hand => hallows hand.2
        rw [hinput]
        simp only [System.handle]
        rw [if_neg hallows]
        rfl
    · have hinput : w.input i (.page j pe) = [] := if_neg fun hand => hj hand.1
      rw [hinput]
      simp only [System.handle]
      split
      · rw [claim_pages, setPage_pages, if_neg fun hij => hj hij.symm]
        rfl
      · rfl
  | connection socket connectedAt =>
    simp only [System.handle]
    split <;> rfl
  | toServer socket env =>
    simp only [System.handle, deliverToServer]
    repeat' split
    all_goals rfl
  | toPage socket =>
    simp only [System.handle, deliverToPage]
    by_cases howner : w.owner socket = some i
    · have hinput : w.input i (.toPage socket) =
          ((w.server.sentTo socket)[w.toPage socket]?).toList.map (.message socket) := if_pos howner
      rw [hinput, howner]
      cases (w.server.sentTo socket)[w.toPage socket]? with
      | none => rfl
      | some message =>
        show (w.setPage i _).pages i = _
        rw [setPage_pages, if_pos rfl]
        rfl
    · have hinput : w.input i (.toPage socket) = [] := if_neg howner
      rw [hinput]
      split
      · rfl
      · rename_i j hj
        split
        · rfl
        · show (w.setPage j _).pages i = _
          rw [setPage_pages, if_neg fun hij : i = j => howner (hij ▸ hj)]
          rfl
  | server se =>
    simp only [System.handle]
    split <;> rfl

/-- **A run of the system takes a page through its inputs.** -/
theorem SocketInv.run_page (i : Nat) : ∀ {w : System} (es : List SystemEvent), SocketInv w →
    (w.run segmentGraphemes es).pages i =
      (w.pages i).run segmentGraphemes (w.inputs segmentGraphemes i es)
  | w, [], _ => rfl
  | w, e :: es, h => by
    show ((w.handle segmentGraphemes e).run segmentGraphemes es).pages i =
      (w.pages i).run segmentGraphemes
        (w.input i e ++ (w.handle segmentGraphemes e).inputs segmentGraphemes i es)
    rw [run_page i es (h.handle e), h.handle_input e i]
    exact (Runs.run_append _ _ _).symm

/-! ## The inputs are orderly -/

theorem inputs_append (i : Nat) : ∀ (w : System) (es es' : List SystemEvent),
    w.inputs segmentGraphemes i (es ++ es') =
      w.inputs segmentGraphemes i es ++ (w.run segmentGraphemes es).inputs segmentGraphemes i es'
  | _, [], _ => rfl
  | w, e :: es, es' => by
    show w.input i e ++ (w.handle segmentGraphemes e).inputs segmentGraphemes i (es ++ es') = _
    rw [inputs_append i (w.handle segmentGraphemes e) es es', ← List.append_assoc]
    rfl

/-- An event of the system is one input of the page at most. -/
theorem input_cases (w : System) (i : Nat) (e : SystemEvent) : w.input i e = [] ∨
    (∃ pe, e = .page i pe ∧ w.input i e = [.event pe]) ∨
    ∃ socket message, e = .toPage socket ∧ w.owner socket = some i ∧
      (w.server.sentTo socket)[w.toPage socket]? = some message ∧
      w.input i e = [.message socket message] := by
  cases e with
  | page j pe =>
    by_cases hand : j = i ∧ w.allows i pe = true
    · exact Or.inr (Or.inl ⟨pe, by rw [hand.1], if_pos hand⟩)
    · exact Or.inl (if_neg hand)
  | toPage socket =>
    by_cases howner : w.owner socket = some i
    · have hinput : w.input i (.toPage socket) =
          ((w.server.sentTo socket)[w.toPage socket]?).toList.map (.message socket) := if_pos howner
      cases hmessage : (w.server.sentTo socket)[w.toPage socket]? with
      | none =>
        rw [hmessage] at hinput
        exact Or.inl hinput
      | some message =>
        rw [hmessage] at hinput
        exact Or.inr (Or.inr ⟨socket, message, rfl, howner, hmessage, hinput⟩)
    · exact Or.inl (if_neg howner)
  | _ => exact Or.inl rfl

/-- The event that an input comes from. -/
theorem inputs_split {x : PageInput} {rest : List PageInput} : ∀ {w : System}
    {es : List SystemEvent} {before : List PageInput},
    w.inputs segmentGraphemes i es = before ++ x :: rest → ∃ es₁ e es₂, es = es₁ ++ e :: es₂ ∧
      w.inputs segmentGraphemes i es₁ = before ∧ (w.run segmentGraphemes es₁).input i e = [x]
  | w, [], before, h => by
    have h : [] = before ++ x :: rest := h
    simp at h
  | w, e :: es, before, h => by
    have hsplit : w.input i e ++ (w.handle segmentGraphemes e).inputs segmentGraphemes i es =
      before ++ x :: rest := h
    have hlater : ∀ {before'}, (w.handle segmentGraphemes e).inputs segmentGraphemes i es =
        before' ++ x :: rest → w.input i e ++ before' = before →
        ∃ es₁ e' es₂, e :: es = es₁ ++ e' :: es₂ ∧ w.inputs segmentGraphemes i es₁ = before ∧
          (w.run segmentGraphemes es₁).input i e' = [x] := by
      intro before' htail hbefore
      obtain ⟨es₁, e', es₂, rfl, hinputs, hinput⟩ := inputs_split htail
      refine ⟨e :: es₁, e', es₂, rfl, ?_, hinput⟩
      rw [← hbefore, ← hinputs]
      rfl
    rcases split_append hsplit with ⟨rest', hfirst⟩ | ⟨before', hbefore, htail⟩
    · -- the input is that of the first event
      have hone : ∀ y, w.input i e = [y] → before = [] ∧ y = x := by
        intro y hy
        rw [hy] at hfirst
        cases before with
        | nil => exact ⟨rfl, (List.cons.inj hfirst).1⟩
        | cons z before => simp at hfirst
      have hinput : before = [] ∧ w.input i e = [x] := by
        rcases input_cases w i e with hnil | ⟨pe, -, heq⟩ | ⟨socket, message, -, -, -, heq⟩
        · rw [hnil] at hfirst
          simp at hfirst
        · obtain ⟨hnil, rfl⟩ := hone _ heq
          exact ⟨hnil, heq⟩
        · obtain ⟨hnil, rfl⟩ := hone _ heq
          exact ⟨hnil, heq⟩
      exact ⟨[], e, es, rfl, hinput.1.symm, hinput.2⟩
    · exact hlater htail hbefore.symm

/-- What holds along a run of the system from a state in which page `i` is `fallen`: the sync message
comes first on the sockets that were connecting then, and those that have arrived are inputs. -/
structure Tracks (fallen : Page) (i : Nat) (before : List PageInput) (w : System) : Prop where
  base : SocketInv w
  first : ∀ k, w.owner k = some i → fallen.sync.readyState k = .connecting → w.server.SyncsFirst k
  arrived : ∀ k sync, w.owner k = some i → fallen.sync.readyState k = .connecting →
    .sync sync ∈ w.arrivals k → .message k (.sync sync) ∈ before

/-- A socket that is connecting on its page has been sent nothing of a log. -/
theorem SocketInv.tracks (h : SocketInv w) (i : Nat) : Tracks (w.pages i) i [] w := by
  have hquiet : ∀ k, w.owner k = some i → (w.pages i).sync.readyState k = .connecting →
      w.server.joinedTo k = none ∧ ∀ m ∈ w.server.sentTo k, SyncServer.Quiet m :=
    fun k hk hlater => (h.heard i k hk).resolve_left fun ⟨join, hjoin⟩ =>
      (h.joins i).opened k join hjoin hlater
  refine ⟨h, fun k hk hlater => ?_, fun k sync hk hlater hsync => ?_⟩
  · obtain ⟨hnone, hsent⟩ := hquiet k hk hlater
    exact .of_quiet hnone hsent
  · cases (hquiet k hk hlater).2 _ (List.mem_of_mem_take hsync)

/-- **Every event keeps it**, unless the server fails while it answers a join. -/
theorem Tracks.handle {fallen : Page} {before : List PageInput} (h : Tracks fallen i before w)
    (hanswers : Answers e) :
    Tracks fallen i (before ++ w.input i e) (w.handle segmentGraphemes e) := by
  refine ⟨h.base.handle e, fun k hk hlater => ?_, fun k sync hk hlater hsync => ?_⟩
  · rcases h.base.base.owner_cases hk with hold | ⟨hunused, hserver⟩
    · rcases @handle_join segmentGraphemes w e k i hold with hserver | ⟨se, hserver, hjoins⟩
      · rw [hserver]
        exact h.first k hold hlater
      · rw [hserver]
        refine (h.first k hold hlater).handle h.base.base.server se fun join env hse => ?_
        rw [(hjoins join env hse).2] at hanswers
        exact hanswers
    · obtain ⟨hnone, hnil⟩ := h.base.base.unused_silent hunused
      rw [hserver]
      refine .of_quiet hnone fun m hm => ?_
      rw [hnil] at hm
      cases hm
  · rcases h.base.base.owner_cases hk with hold | ⟨hunused, hserver⟩
    · rcases (h.base.handle_arrivals e k).2 i _ hold hsync with hsync | hinput
      · exact List.mem_append_left _ (h.arrived k sync hold hlater hsync)
      · exact List.mem_append_right _ hinput
    · have hsync := List.mem_of_mem_take hsync
      rw [hserver, (h.base.base.unused_silent hunused).2] at hsync
      cases hsync

theorem Tracks.run {fallen : Page} : ∀ {w : System} {es : List SystemEvent} {before : List PageInput},
    Tracks fallen i before w → (∀ e ∈ es, Answers e) →
    Tracks fallen i (before ++ w.inputs segmentGraphemes i es) (w.run segmentGraphemes es)
  | w, [], before, h, _ => by
    show Tracks fallen i (before ++ []) w
    rw [List.append_nil]
    exact h
  | w, e :: es, before, h, hanswers => by
    obtain ⟨he, hanswers⟩ := List.forall_mem_cons.1 hanswers
    have hrun : Tracks fallen i (before ++ w.input i e ++
        (w.handle segmentGraphemes e).inputs segmentGraphemes i es)
        ((w.handle segmentGraphemes e).run segmentGraphemes es) := (h.handle he).run hanswers
    rw [List.append_assoc] at hrun
    exact hrun

/-- **After a fallback the inputs of the page are orderly**, if its session stays and the server does
not fail while it answers a join. -/
theorem SocketInv.orderly (h : SocketInv w) {after : List SystemEvent}
    (hanswers : ∀ e ∈ after, Answers e) (hstays : ∀ pe, .page i pe ∈ after → Page.isOpen pe = false) :
    Page.Orderly segmentGraphemes (w.pages i) (w.inputs segmentGraphemes i after) := by
  refine ⟨fun pe hpe => ?_, fun before socket m rest heq hlater hd => ?_⟩
  · obtain ⟨before, rest, heq⟩ := List.append_of_mem hpe
    obtain ⟨es₁, e, es₂, rfl, -, hinput⟩ := inputs_split heq
    refine hstays pe ?_
    rcases input_cases (w.run segmentGraphemes es₁) i e with
      hnil | ⟨pe', rfl, hpe'⟩ | ⟨socket, m, -, -, -, hm⟩
    · rw [hnil] at hinput
      cases hinput
    · rw [hpe'] at hinput
      cases hinput
      simp
    · rw [hm] at hinput
      cases hinput
  · obtain ⟨d, hd, hdocument⟩ := hd
    obtain ⟨es₁, e, es₂, rfl, hbefore, hinput⟩ := inputs_split heq
    have htracks : Tracks (w.pages i) i before (w.run segmentGraphemes es₁) := by
      have hrun := @Tracks.run i segmentGraphemes (w.pages i) w es₁ [] (h.tracks i) fun e he =>
        hanswers e (List.mem_append_left _ he)
      rw [hbefore] at hrun
      exact hrun
    rcases input_cases (w.run segmentGraphemes es₁) i e with
      hnil | ⟨pe, -, hpe⟩ | ⟨k, m', -, howner, hmessage, hm⟩
    · rw [hnil] at hinput
      cases hinput
    · rw [hpe] at hinput
      cases hinput
    · rw [hm] at hinput
      cases hinput
      have hpage := @SocketInv.run_page segmentGraphemes i w es₁ h
      rw [hbefore] at hpage
      have hsent : (w.run segmentGraphemes es₁).server.sentTo socket =
          (w.run segmentGraphemes es₁).arrivals socket ++
            m :: ((w.run segmentGraphemes es₁).server.sentTo socket).drop
              ((w.run segmentGraphemes es₁).toPage socket + 1) := by
        obtain ⟨hlt, hget⟩ := List.getElem?_eq_some_iff.1 hmessage
        unfold arrivals
        rw [← hget, List.getElem_cons_drop, List.take_append_drop]
      refine ⟨?_, hlater, ?_⟩
      · rcases htracks.base.heard i socket howner with ⟨join, hjoin⟩ | ⟨-, hquiet⟩
        · refine ⟨join, DocumentSyncClient.mem_joinMessages.2 ?_⟩
          rw [← hpage]
          exact hjoin
        · have hq : SyncServer.Quiet m := hquiet m (by rw [hsent]; simp)
          cases hq.symm.trans hd
      · obtain ⟨sync, hsync, hsame⟩ :=
          (htracks.first socket howner hlater).first _ m _ d hsent hd
        refine ⟨sync, ?_, hsame.trans hdocument⟩
        rcases List.mem_append.1 hsync with hsync | hsync
        · exact List.mem_append_left _ (htracks.arrived socket sync howner hlater hsync)
        · rw [List.mem_singleton.1 hsync]
          simp

/-! ## The fallback in the runs of the system -/

theorem run_ground {store : OperationStore} (h : store.Reachable) (es : List SystemEvent)
    (i : Nat) : Page.Ground (((start store).run segmentGraphemes es).pages i) := by
  rw [(SocketInv.start h).run_page i es]
  exact Page.Ground.start.run _

/-- Events that are always allowed are the inputs. -/
theorem inputs_events (i : Nat) : ∀ {w : System} {es : List PageEvent},
    (∀ e ∈ es, ∀ w : System, w.allows i e = true) →
    w.inputs segmentGraphemes i (es.map (.page i)) = es.map .event
  | _, [], _ => rfl
  | w, e :: es, hallows => by
    obtain ⟨he, hallows⟩ := List.forall_mem_cons.1 hallows
    show w.input i (.page i e) ++ (w.handle segmentGraphemes (.page i e)).inputs segmentGraphemes i
      (es.map (.page i)) = _
    rw [inputs_events i hallows]
    exact congrArg (· ++ _) (if_pos ⟨rfl, he w⟩)

/-- A handler that no event of the page resumes is resumed by no input. -/
theorem inputs_waits {es : List SystemEvent} (hwaits : ∀ pe, .page i pe ∈ es →
    PageInput.waits (.event pe) = true) :
    ∀ input ∈ w.inputs segmentGraphemes i es, input.waits = true := by
  intro input hinput
  obtain ⟨before, rest, heq⟩ := List.append_of_mem hinput
  obtain ⟨es₁, e, es₂, rfl, -, hone⟩ := inputs_split heq
  rcases input_cases (w.run segmentGraphemes es₁) i e with
    hnil | ⟨pe, rfl, hpe⟩ | ⟨socket, m, -, -, -, hm⟩
  · rw [hnil] at hone
    cases hone
  · rw [hpe] at hone
    cases hone
    exact hwaits pe (by simp)
  · rw [hm] at hone
    cases hone
    rfl

/-- The handler of a failed install waits, whatever else happens in the system. -/
theorem SocketInv.failed (h : SocketInv w) {callback : Callback} {between : List SystemEvent}
    (hfails : (w.pages i).FailsInstall callback)
    (hwaits : ∀ pe, .page i pe ∈ between → PageInput.waits (.event pe) = true) :
    let failed := w.run segmentGraphemes (.page i (.ingest callback) :: between)
    Page.Failed (failed.pages i) ∧
      (failed.pages i).db.getLastServerSeq (failed.pages i).sync.documentId =
        (w.pages i).db.getLastServerSeq (w.pages i).sync.documentId := by
  intro failed
  have heq : failed.pages i = ((w.pages i).ingest callback).run segmentGraphemes
      ((w.handle segmentGraphemes (.page i (.ingest callback))).inputs segmentGraphemes i between) := by
    refine (h.run_page i (.page i (.ingest callback) :: between)).trans ?_
    show (w.pages i).run segmentGraphemes (w.input i (.page i (.ingest callback)) ++ _) = _
    rw [show w.input i (.page i (.ingest callback)) = [.event (.ingest callback)] from
      if_pos ⟨rfl, rfl⟩]
    rfl
  rw [heq]
  exact hfails.failed (inputs_waits hwaits)

/-- **In the runs of the system** in which the server does not fail while it answers a join, a failed
install leads to the full history exactly if the page can fall back. -/
theorem falls_back_iff {store : OperationStore} (hstore : store.Reachable) (i : Nat)
    (before : List SystemEvent) (callback : Callback) (between : List SystemEvent)
    (hfails : (((start store).run segmentGraphemes before).pages i).FailsInstall callback)
    (hwaits : ∀ pe, .page i pe ∈ between → PageInput.waits (.event pe) = true) :
    let w := (start store).run segmentGraphemes before
    let failed := w.run segmentGraphemes (.page i (.ingest callback) :: between)
    let fallen := failed.handle segmentGraphemes (.page i .resumeHandler)
    (∀ after, (∀ e ∈ after, Answers e) → (∀ pe, .page i pe ∈ after → Page.isOpen pe = false) →
      Page.FallsBack segmentGraphemes (fallen.pages i)
        ((w.pages i).db.getLastServerSeq (w.pages i).sync.documentId)
        (fallen.inputs segmentGraphemes i after)) ↔ Page.CanFallBack (failed.pages i) := by
  intro w failed fallen
  have hw : SocketInv w := (SocketInv.start hstore).run before
  have hinv : SocketInv failed := hw.run (.page i (.ingest callback) :: between)
  have hground : Page.Ground (failed.pages i) := by
    have heq : failed = (start store).run segmentGraphemes
        (before ++ .page i (.ingest callback) :: between) := (run_append _ _ _).symm
    rw [heq]
    exact run_ground hstore _ i
  obtain ⟨hfailed, hcursor⟩ := @SocketInv.failed w i segmentGraphemes hw callback between hfails hwaits
  have hfallen : fallen.pages i =
      (failed.pages i).step segmentGraphemes (.event .resumeHandler) := by
    refine (hinv.handle_input (.page i .resumeHandler) i).trans ?_
    rw [show failed.input i (.page i .resumeHandler) = [.event .resumeHandler] from if_pos ⟨rfl, rfl⟩]
    rfl
  have hfinv : SocketInv fallen := hinv.handle (.page i .resumeHandler)
  rw [← hcursor]
  refine Iff.trans ?_ (@Page.Failed.fallsBack_iff segmentGraphemes (failed.pages i) hfailed hground
    (fun inputs => ∃ after, (∀ e ∈ after, Answers e) ∧
      (∀ pe, .page i pe ∈ after → Page.isOpen pe = false) ∧
      fallen.inputs segmentGraphemes i after = inputs)
    (fun inputs ⟨after, hanswers, hstays, heq⟩ => ?_) ⟨[], ?_, ?_, rfl⟩ (fun k hk => ?_) fun n => ?_)
  · rw [hfallen]
    exact ⟨fun hall inputs ⟨after, hanswers, hstays, heq⟩ => heq ▸ hall after hanswers hstays,
      fun hall after hanswers hstays => hall _ ⟨after, hanswers, hstays, rfl⟩⟩
  · rw [← hfallen, ← heq]
    exact hfinv.orderly hanswers hstays
  · exact fun e he => by cases he
  · exact fun pe hpe => by cases hpe
  · have hallows : fallen.allows i (.socketClosed k) = true :=
      decide_eq_true (hinv.base.owner_kept _ (hinv.base.owned i k hk))
    refine ⟨[.page i (.socketClosed k)], fun e he => ?_, fun pe hpe => ?_, ?_⟩
    · rw [List.mem_singleton.1 he]
      trivial
    · cases List.mem_singleton.1 hpe
      rfl
    · show fallen.input i (.page i (.socketClosed k)) ++ [] = _
      rw [List.append_nil]
      exact if_pos ⟨rfl, hallows⟩
  · refine ⟨(Page.goesOn n).map (.page i), fun e he => ?_, fun pe hpe => ?_, inputs_events i ?_⟩
    · obtain ⟨pe, -, rfl⟩ := List.mem_map.1 he
      trivial
    · obtain ⟨pe', hpe', heq⟩ := List.mem_map.1 hpe
      cases heq
      rcases Page.mem_goesOn hpe' with rfl | rfl <;> rfl
    · intro e he w
      rcases Page.mem_goesOn he with rfl | rfl <;> rfl

end System

end LocalFirst
