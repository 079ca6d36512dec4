import LocalFirst.Server.MessageOrder
import LocalFirst.Sync.Frames

/-!
# The invariant of the system

* `PageInv` — the parts of a page belong together.
* `System.Inv` — besides, every message that a page has to handle was sent by the server, and a
  page uses its own sockets only.
* `System.run_inv` — it holds in every run.
-/

set_option autoImplicit false

namespace LocalFirst

namespace LocalDocumentController

variable {segmentGraphemes : JsString → List JsString}

theorem replaceTextNow_identity (c : LocalDocumentController) (db : Database) (env : Surroundings)
    (nextText : JsString) :
    (c.replaceTextNow segmentGraphemes db env nextText).1.documentId = c.documentId ∧
      (c.replaceTextNow segmentGraphemes db env nextText).1.clientId = c.clientId := by
  unfold replaceTextNow
  split
  · exact ⟨rfl, rfl⟩
  · split
    · exact ⟨rfl, rfl⟩
    · split
      · exact ⟨rfl, rfl⟩
      · split
        · exact ⟨rfl, rfl⟩
        · obtain ⟨-, hd, hc, -⟩ := finish_spec (c.withReplica _) _ env
          exact ⟨hd, hc⟩

theorem runDelivery_identity (c : LocalDocumentController) (db : Database) (env : Surroundings)
    (d : Delivery) : (Page.runDelivery c db env d).1.documentId = c.documentId ∧
      (Page.runDelivery c db env d).1.clientId = c.clientId := by
  unfold Page.runDelivery
  split
  · unfold installServerSnapshotNow
    split <;> exact ⟨rfl, rfl⟩
  · unfold applyServerOperationsNow
    split
    · exact ⟨rfl, rfl⟩
    · split
      · exact ⟨rfl, rfl⟩
      · obtain ⟨-, hd, hc, -⟩ := finish_spec (c.withReplica _) _ env
        exact ⟨hd, hc⟩

end LocalDocumentController

namespace Page

variable {segmentGraphemes : JsString → List JsString} {page : Page}

/-! ## Pages -/

/-- The sync client is that of the controller, and handles messages of its document. -/
structure PageInv (page : Page) : Prop where
  wired : ∀ c, page.controller = some c →
    page.sync.documentId = c.documentId ∧ page.sync.clientId = c.clientId
  handling : ∀ handler, page.sync.handling = some handler →
    ∃ d, delivery handler.message = some d ∧ d.documentId = page.sync.documentId

theorem PageInv.start : PageInv Page.start where
  wired c h := by cases h
  handling handler h := by cases h

/-- The messages that a page has to handle, with their sockets. -/
def received (page : Page) : List (SocketId × ServerMessage) :=
  (page.sync.handling.map fun h => (h.socket, h.message)).toList ++ page.sync.inbound

theorem received_handler {handler : Handler} (hh : page.sync.handling = some handler) :
    (handler.socket, handler.message) ∈ page.received := by
  unfold received
  rw [hh]
  simp

/-- A controller was there before, under the same identity, or has just been created. -/
theorem handle_controller {e : PageEvent} {c' : LocalDocumentController}
    (h : (page.handle segmentGraphemes e).controller = some c') :
    (isOpen e = true ∧ (page.handle segmentGraphemes e).sync.documentId = c'.documentId ∧
      (page.handle segmentGraphemes e).sync.clientId = c'.clientId) ∨
      (isOpen e = false ∧ ∃ c, page.controller = some c ∧ c'.documentId = c.documentId ∧
        c'.clientId = c.clientId) := by
  have hsame : ∀ {page' : Page}, page'.controller = page.controller →
      page'.controller = some c' →
      ∃ c, page.controller = some c ∧ c'.documentId = c.documentId ∧ c'.clientId = c.clientId :=
    fun heq h => ⟨c', heq.symm.trans h, rfl, rfl⟩
  cases e with
  | opens options env displayName =>
    refine Or.inl ⟨rfl, ?_⟩
    simp only [handle, opens] at h ⊢
    split at h
    · cases h
    · cases h
      exact ⟨rfl, rfl⟩
  | edit env nextText =>
    refine Or.inr ⟨rfl, ?_⟩
    simp only [handle, edit] at h
    split at h
    · exact hsame rfl h
    · rename_i c hc
      obtain ⟨hd, hcl⟩ := @LocalDocumentController.replaceTextNow_identity segmentGraphemes c
        page.db env nextText
      split at h
      all_goals
        rename_i heq
        rw [heq] at hd hcl
        cases h
        exact ⟨c, hc, hd, hcl⟩
  | submit =>
    refine Or.inr ⟨rfl, ?_⟩
    simp only [handle, submit] at h
    split at h <;> exact hsame rfl h
  | ingest callback =>
    refine Or.inr ⟨rfl, ?_⟩
    simp only [handle, ingest] at h
    split at h
    · rename_i c socket message hc hh
      split at h
      · exact hsame rfl h
      · exact hsame rfl h
      · exact hsame rfl h
      · rename_i d env hd
        obtain ⟨hdoc, hcl⟩ := LocalDocumentController.runDelivery_identity c page.db env d
        cases h
        exact ⟨c, hc, hdoc, hcl⟩
    · exact hsame rfl h
  | loadPending aborted =>
    refine Or.inr ⟨rfl, ?_⟩
    simp only [handle, loadPending] at h
    split at h <;> exact hsame rfl h
  | _ => exact Or.inr ⟨rfl, hsame rfl h⟩

/-- What the messages to handle and the identity of the client after an event owe to those
before. -/
structure Receives (page : Page) (e : PageEvent) (t : DocumentSyncClient.Traffic) : Prop where
  identity : isOpen e = false →
    t.documentId = page.sync.documentId ∧ t.clientId = page.sync.clientId
  received : ∀ p ∈ (t.handling.map fun h => (h.socket, h.message)).toList ++ t.inbound,
    p ∈ page.received
  handling : ∀ handler, t.handling = some handler →
    (t.documentId = page.sync.documentId ∧
      ∃ old, page.sync.handling = some old ∧ old.message = handler.message) ∨
    ∃ d, delivery handler.message = some d ∧ d.documentId = t.documentId

theorem Moves.receives {page' : Page} {e : PageEvent} (h : Moves page page' e) :
    Receives page e page'.sync.traffic := by
  -- the handler stays with its message, and perhaps the first message behind it is taken away
  have hkeeps : ∀ {t : DocumentSyncClient.Traffic}, t.documentId = page.sync.documentId →
      t.clientId = page.sync.clientId →
      (∀ p ∈ t.inbound, p ∈ page.sync.inbound) →
      (t.handling = none ∨ ∃ old stage, page.sync.handling = some old ∧
        t.handling = some { old with stage := stage }) → Receives page e t := by
    intro t hd hcl hin hh
    refine ⟨fun _ => ⟨hd, hcl⟩, fun p hp => ?_, fun handler hhandler => Or.inl ⟨hd, ?_⟩⟩
    · rcases List.mem_append.1 hp with hp | hp
      · rcases hh with hh | ⟨old, stage, hold, hh⟩
        · rw [hh] at hp
          cases hp
        · rw [hh] at hp
          refine List.mem_append_left _ ?_
          rw [hold]
          exact hp
      · exact List.mem_append_right _ (hin p hp)
    · rcases hh with hh | ⟨old, stage, hold, hh⟩
      · rw [hh] at hhandler
        cases hhandler
      · rw [hh] at hhandler
        cases hhandler
        exact ⟨old, hold, rfl⟩
  have hstays : page.sync.handling = none ∨ ∃ old stage, page.sync.handling = some old ∧
      page.sync.handling = some { old with stage := stage } := by
    cases hh : page.sync.handling with
    | none => exact Or.inl rfl
    | some old => exact Or.inr ⟨old, old.stage, rfl, rfl⟩
  cases h with
  | same h => rw [h]; exact hkeeps rfl rfl (fun _ hp => hp) hstays
  | opened c he hc h =>
    rw [h]
    exact ⟨fun hne => by (rw [he] at hne; cases hne), fun p hp => by (cases hp),
      fun handler hh => by cases hh⟩
  | begins k hk hnew hopen h => rw [h]; exact hkeeps rfl rfl (fun _ hp => hp) hstays
  | reads read joins hread hjoins h => rw [h]; exact hkeeps rfl rfl (fun _ hp => hp) hstays
  | joins k call lastServerSeq capabilities displayName joins hjoins hgone hcall hsocket hseq hk hopen
      h =>
    rw [h]
    exact hkeeps rfl rfl (fun _ hp => hp) hstays
  | submits k operations rest he hsubmits hk h =>
    rw [h]
    exact hkeeps rfl rfl (fun _ hp => hp) hstays
  | drops k message inbound hh hinbound h =>
    rw [h]
    refine hkeeps rfl rfl (fun p hp => ?_) hstays
    rw [hinbound]
    exact List.mem_cons_of_mem _ hp
  | takes k message inbound d hh hinbound hd hdocument h =>
    rw [h]
    refine ⟨fun _ => ⟨rfl, rfl⟩, fun p hp => ?_, fun handler hhandler => Or.inr ?_⟩
    · refine List.mem_append_right _ ?_
      rw [hinbound]
      exact hp
    · cases hhandler
      exact ⟨d, hd, hdocument⟩
  | settles k message d outcome dropped hh hd hdropped h =>
    rw [h]
    exact hkeeps rfl rfl (fun _ hp => hp) (Or.inr ⟨_, _, hh, rfl⟩)
  | loads handler stage hh hstage hloaded h =>
    rw [h]
    exact hkeeps rfl rfl (fun _ hp => hp) (Or.inr ⟨_, _, hh, rfl⟩)
  | resumes he h =>
    cases h with
    | same h => rw [h]; exact hkeeps rfl rfl (fun _ hp => hp) hstays
    | ended handler hh hstage h => rw [h]; exact hkeeps rfl rfl (fun _ hp => hp) (Or.inl rfl)
    | waits handler stage hh hstage hwaits h =>
      rw [h]
      exact hkeeps rfl rfl (fun _ hp => hp) (Or.inr ⟨_, _, hh, rfl⟩)
    | sends handler pending socket hh hstage hsocket hopen h =>
      rw [h]
      exact hkeeps rfl rfl (fun _ hp => hp) (Or.inr ⟨_, _, hh, rfl⟩)

theorem PageInv.handle (h : PageInv page) (e : PageEvent) :
    PageInv (page.handle segmentGraphemes e) := by
  obtain ⟨hidentity, -, hhandling⟩ := (@handle_moves segmentGraphemes page e).receives
  refine ⟨fun c hc => ?_, fun handler hh => ?_⟩
  · rcases handle_controller hc with ⟨-, hd, hcl⟩ | ⟨he, old, hold, hd, hcl⟩
    · exact ⟨hd, hcl⟩
    · obtain ⟨hd', hcl'⟩ := hidentity he
      obtain ⟨hd'', hcl''⟩ := h.wired old hold
      exact ⟨hd'.trans (hd''.trans hd.symm), hcl'.trans (hcl''.trans hcl.symm)⟩
  · rcases hhandling handler hh with ⟨hd, old, hold, hm⟩ | hd
    · obtain ⟨d, hdel, hdoc⟩ := h.handling old hold
      rw [hm] at hdel
      exact ⟨d, hdel, hdoc.trans hd.symm⟩
    · exact hd

theorem PageInv.onMessage (h : PageInv page) (k : SocketId) (message : ServerMessage) :
    PageInv { page with sync := page.sync.onMessage k message } := by
  obtain ⟨hwired, hhandling⟩ := h
  unfold DocumentSyncClient.onMessage
  split <;> exact ⟨hwired, hhandling⟩

theorem received_onMessage {k : SocketId} {message : ServerMessage} :
    ∀ p ∈ received { page with sync := page.sync.onMessage k message },
      p ∈ page.received ∨ p = (k, message) := by
  intro p hp
  unfold DocumentSyncClient.onMessage at hp
  split at hp
  · exact Or.inl hp
  · simpa [received, or_assoc] using hp

end Page

/-! ## One event of the system -/

namespace System

variable {segmentGraphemes : JsString → List JsString} {w : System}

theorem setPage_pages (i j : Nat) (page : Page) :
    (w.setPage i page).pages j = if j = i then page else w.pages j := rfl

@[simp] theorem claim_pages (i : Nat) (s : Option SocketId) : (w.claim i s).pages = w.pages := by
  cases s <;> rfl

@[simp] theorem claim_server (i : Nat) (s : Option SocketId) : (w.claim i s).server = w.server := by
  cases s <;> rfl

theorem claim_owner (i : Nat) (s : Option SocketId) (k : SocketId) :
    (w.claim i s).owner k = if s = some k then some i else w.owner k := by
  cases s with
  | none => rfl
  | some socket =>
    show (if k = socket then _ else _) = _
    by_cases h : k = socket
    · rw [if_pos h, if_pos (congrArg some h.symm)]
    · rw [if_neg h, if_neg fun hs => h (Option.some.inj hs).symm]

/-- What an event of the system is: nothing, an event of a page, an event of the server, or the
arrival of a frame or of a message. -/
inductive Steps (segmentGraphemes : JsString → List JsString) (w w' : System) (e : SystemEvent) :
    Prop
  | idle (h : w' = w)
  | page (i : Nat) (pe : PageEvent) (he : e = .page i pe) (hallows : w.allows i pe = true)
      (h : w' = (w.setPage i ((w.pages i).handle segmentGraphemes pe)).claim i
        ((w.pages i).handle segmentGraphemes pe).sync.socket)
  | served (se : SyncServer.Event)
      (hfree : ∀ socket frame env, se = .message socket frame env → w.owner socket = none)
      (hindependent : e = .server se ∨ ∃ socket connectedAt, se = .connection socket connectedAt)
      (h : w' = { w with server := w.server.handle se })
  | arrives (socket : SocketId) (env : ServerEnv) (i : Nat) (message : ClientMessage)
      (he : e = .toServer socket env) (howner : w.owner socket = some i)
      (hframe : ((w.pages i).sentOn socket)[w.toServer socket]? = some message)
      (h : w' = { w with
        server := w.server.handle (.message socket (.message message) env)
        toServer := fun k => if k = socket then w.toServer k + 1 else w.toServer k })
  | reaches (socket : SocketId) (i : Nat) (message : ServerMessage) (he : e = .toPage socket)
      (howner : w.owner socket = some i)
      (hmessage : (w.server.sentTo socket)[w.toPage socket]? = some message)
      (h : w' = { w.setPage i { w.pages i with
          sync := (w.pages i).sync.onMessage socket message } with
        toPage := fun k => if k = socket then w.toPage k + 1 else w.toPage k })

theorem handle_steps (w : System) (e : SystemEvent) :
    Steps segmentGraphemes w (w.handle segmentGraphemes e) e := by
  cases e with
  | page i pe =>
    simp only [handle]
    split
    · rename_i hallows
      exact .page i pe rfl hallows rfl
    · exact .idle rfl
  | connection socket connectedAt =>
    simp only [handle]
    split
    · exact .served (.connection socket connectedAt) (fun _ _ _ h => by cases h)
        (Or.inr ⟨socket, connectedAt, rfl⟩) rfl
    · exact .idle rfl
  | toServer socket env =>
    simp only [handle, deliverToServer]
    split
    · exact .idle rfl
    · rename_i i howner
      split
      · exact .idle rfl
      · split
        · exact .idle rfl
        · rename_i message hframe
          exact .arrives socket env i message rfl howner hframe rfl
  | toPage socket =>
    simp only [handle, deliverToPage]
    split
    · exact .idle rfl
    · rename_i i howner
      split
      · exact .idle rfl
      · rename_i message hmessage
        exact .reaches socket i message rfl howner hmessage rfl
  | server se =>
    simp only [handle]
    split
    · rename_i hindependent
      refine .served se (fun socket frame env h => ?_) (Or.inl rfl) rfl
      rw [h] at hindependent
      exact Option.isNone_iff_eq_none.1 hindependent
    · exact .idle rfl

/-- The server does nothing, or handles an event. -/
theorem handle_server (w : System) (e : SystemEvent) :
    (w.handle segmentGraphemes e).server = w.server ∨
      ∃ se, (w.handle segmentGraphemes e).server = w.server.handle se := by
  cases @handle_steps segmentGraphemes w e with
  | idle h => rw [h]; exact Or.inl rfl
  | page i pe he hallows h => rw [h, claim_server]; exact Or.inl rfl
  | served se hfree hindependent h => rw [h]; exact Or.inr ⟨se, rfl⟩
  | arrives socket env i message he howner hframe h =>
    rw [h]
    exact Or.inr ⟨.message socket (.message message) env, rfl⟩
  | reaches socket i message he howner hmessage h => rw [h]; exact Or.inl rfl

/-- A page does nothing, handles an event of its own, or is handed a message. -/
theorem handle_page (w : System) (e : SystemEvent) (i : Nat) :
    (w.handle segmentGraphemes e).pages i = w.pages i ∨
      (∃ pe, e = .page i pe ∧ w.allows i pe = true ∧
        (w.handle segmentGraphemes e).pages i = (w.pages i).handle segmentGraphemes pe) ∨
      ∃ socket message, w.owner socket = some i ∧ (socket, message) ∈ w.server.sent ∧
        (w.handle segmentGraphemes e).pages i =
          { w.pages i with sync := (w.pages i).sync.onMessage socket message } := by
  cases @handle_steps segmentGraphemes w e with
  | idle h => rw [h]; exact Or.inl rfl
  | page j pe he hallows h =>
    rw [h, claim_pages, setPage_pages]
    by_cases hj : i = j
    · rw [if_pos hj]
      subst hj
      exact Or.inr (Or.inl ⟨pe, he, hallows, rfl⟩)
    · rw [if_neg hj]
      exact Or.inl rfl
  | served se hfree hindependent h => rw [h]; exact Or.inl rfl
  | arrives socket env j message he howner hframe h => rw [h]; exact Or.inl rfl
  | reaches socket j message he howner hmessage h =>
    rw [h]
    show (w.setPage j _).pages i = _ ∨ _ ∨ ∃ _ _, _ ∧ _ ∧ (w.setPage j _).pages i = _
    rw [setPage_pages]
    by_cases hj : i = j
    · rw [if_pos hj]
      subst hj
      have hsent := SyncServer.mem_toSocket.1 (List.mem_of_getElem? hmessage)
      exact Or.inr (Or.inr ⟨socket, message, howner, hsent, rfl⟩)
    · rw [if_neg hj]
      exact Or.inl rfl

/-! ## The invariant -/

/-- The invariant of the system. -/
structure Inv (w : System) : Prop where
  server : SyncServer.Inv w.server
  pages : ∀ i, Page.PageInv (w.pages i)
  owned : ∀ i k, (w.pages i).sync.socket = some k → w.owner k = some i
  received : ∀ i, ∀ p ∈ (w.pages i).received, p ∈ w.server.sent ∧ w.owner p.1 = some i

theorem Inv.start {store : OperationStore} (h : store.Reachable) : Inv (start store) where
  server := .start h
  pages i := .start
  owned i k hk := by cases hk
  received i p hp := by cases hp

/-- A page connects sockets that no one has used. -/
theorem allows_fresh {i : Nat} {pe : PageEvent} (hallows : w.allows i pe = true) {k : SocketId}
    (hk : Page.PageEvent.fresh pe = some k) : w.unused k = true := by
  cases pe with
  | connect fresh => cases hk; exact hallows
  | resume fresh => cases hk; exact hallows
  | retry fresh => cases hk; exact hallows
  | timerFired fresh => cases hk; exact hallows
  | _ => cases hk

/-- The socket of a page after an event is its own, or no one has used it. -/
theorem Inv.socket_allowed (h : Inv w) {i : Nat} {pe : PageEvent} (hallows : w.allows i pe = true)
    {k : SocketId} (hk : ((w.pages i).handle segmentGraphemes pe).sync.socket = some k) :
    w.owner k = some i ∨ w.unused k = true :=
  ((@Page.handle_links segmentGraphemes (w.pages i) pe).socket k hk).imp (h.owned i k)
    (allows_fresh hallows)

/-- An event of page `i`, seen from the whole system. -/
structure PageStep (segmentGraphemes : JsString → List JsString) (w w' : System) (i : Nat)
    (pe : PageEvent) : Prop where
  allows : w.allows i pe = true
  server : w'.server = w.server
  other : ∀ j, j ≠ i → w'.pages j = w.pages j
  page : w'.pages i = (w.pages i).handle segmentGraphemes pe
  toPage : w'.toPage = w.toPage
  owner : ∀ k j, w'.owner k = some j → w.owner k = some j ∨ (j = i ∧ w.unused k = true)

theorem Inv.pageStep (h : Inv w) {w' : System} {i : Nat} {pe : PageEvent}
    (hallows : w.allows i pe = true)
    (heq : w' = (w.setPage i ((w.pages i).handle segmentGraphemes pe)).claim i
      ((w.pages i).handle segmentGraphemes pe).sync.socket) :
    PageStep segmentGraphemes w w' i pe := by
  refine ⟨hallows, by rw [heq, claim_server]; rfl, fun j hj => ?_, ?_, ?_, fun k j hk => ?_⟩
  · rw [heq, claim_pages]
    exact if_neg hj
  · rw [heq, claim_pages]
    exact if_pos rfl
  · rw [heq]
    cases ((w.pages i).handle segmentGraphemes pe).sync.socket <;> rfl
  · rw [heq, claim_owner] at hk
    split at hk
    · rename_i hs
      obtain rfl : i = j := Option.some.inj hk
      exact (h.socket_allowed hallows hs).imp_right fun hu => ⟨rfl, hu⟩
    · exact Or.inl hk

/-- A socket that no one has used has joined nothing and been sent nothing. -/
theorem Inv.unused_silent (h : Inv w) {k : SocketId} (hk : w.unused k = true) :
    w.server.joinedTo k = none ∧ w.server.sentTo k = [] := by
  have hready : w.server.readyState k = .connecting := by
    unfold System.unused at hk
    simpa using (Bool.and_eq_true_iff.1 hk).2
  constructor
  · unfold SyncServer.joinedTo
    cases hs : w.server.sessions.get? k with
    | none => rfl
    | some session =>
      rcases h.server.rooms.connected k session hs with ho | ho
      · cases ho.symm.trans hready
      · cases ho.symm.trans hready
  · refine List.eq_nil_iff_forall_not_mem.2 fun m hm => ?_
    exact (h.server.sent _ (SyncServer.mem_toSocket.1 hm)).1 hready

/-- Who has opened a socket is settled once. -/
theorem Inv.owner_kept (h : Inv w) (e : SystemEvent) {k : SocketId} {j : Nat}
    (hk : w.owner k = some j) : (w.handle segmentGraphemes e).owner k = some j := by
  cases @handle_steps segmentGraphemes w e with
  | idle heq => rw [heq]; exact hk
  | page i pe he hallows heq =>
    rw [heq, claim_owner]
    split
    · rename_i hs
      rcases h.socket_allowed hallows hs with ho | hu
      · rw [← ho]
        exact hk
      · simp [unused, hk] at hu
    · exact hk
  | served se hfree hindependent heq => rw [heq]; exact hk
  | arrives socket env i message he howner hframe heq => rw [heq]; exact hk
  | reaches socket i message he howner hmessage heq => rw [heq]; exact hk

/-- What a page has sent stays. -/
theorem sent_kept {i : Nat} {e : SystemEvent} {p : SocketId × ClientMessage}
    (hp : p ∈ (w.pages i).sync.sent) :
    p ∈ ((w.handle segmentGraphemes e).pages i).sync.sent := by
  rcases @handle_page segmentGraphemes w e i with heq | ⟨pe, -, -, heq⟩ | ⟨k, m, -, -, heq⟩
  · rw [heq]
    exact hp
  · rw [heq]
    exact (@Page.handle_moves segmentGraphemes (w.pages i) pe).sends.kept hp
  · rw [heq]
    unfold DocumentSyncClient.onMessage
    split <;> exact hp

/-- A socket of a page was its own before, or no one had used it. -/
theorem Inv.owner_cases (h : Inv w) {e : SystemEvent} {k : SocketId} {i : Nat}
    (hk : (w.handle segmentGraphemes e).owner k = some i) :
    w.owner k = some i ∨ (w.unused k = true ∧ (w.handle segmentGraphemes e).server = w.server) := by
  cases @handle_steps segmentGraphemes w e with
  | idle heq => rw [heq] at hk; exact Or.inl hk
  | page j pe he hallows heq =>
    have hstep := h.pageStep hallows heq
    exact (hstep.owner k i hk).imp_right fun hunused => ⟨hunused.2, hstep.server⟩
  | served se hfree hindependent heq => rw [heq] at hk; exact Or.inl hk
  | arrives socket env j message he howner hframe heq => rw [heq] at hk; exact Or.inl hk
  | reaches socket j message he howner hmessage heq => rw [heq] at hk; exact Or.inl hk

/-- A join that the server handles on a socket of a page was sent by the page. -/
theorem handle_join {e : SystemEvent} {k : SocketId} {i : Nat} (howner : w.owner k = some i) :
    (w.handle segmentGraphemes e).server = w.server ∨ ∃ se,
      (w.handle segmentGraphemes e).server = w.server.handle se ∧
      ∀ join env, se = .message k (.message (.join join)) env →
        (k, .join join) ∈ (w.pages i).sync.sent ∧ e = .toServer k env := by
  cases @handle_steps segmentGraphemes w e with
  | idle heq => rw [heq]; exact Or.inl rfl
  | page j pe he hallows heq => rw [heq, claim_server]; exact Or.inl rfl
  | served se hfree hindependent heq =>
    rw [heq]
    refine Or.inr ⟨se, rfl, fun join env hse => ?_⟩
    cases howner.symm.trans (hfree k _ env hse)
  | arrives socket env j message he howner' hframe heq =>
    rw [heq]
    refine Or.inr ⟨.message socket (.message message) env, rfl, fun join env' hse => ?_⟩
    cases hse
    obtain rfl : j = i := Option.some.inj (howner'.symm.trans howner)
    exact ⟨Page.mem_sentOn (List.mem_of_getElem? hframe), he⟩
  | reaches socket j message he howner' hmessage heq => rw [heq]; exact Or.inl rfl

/-- What an event does to the store, and to what the server has sent. -/
theorem Inv.speaks (h : Inv w) (e : SystemEvent) :
    SyncServer.Speaks w.server (w.handle segmentGraphemes e).server := by
  rcases @handle_server segmentGraphemes w e with heq | ⟨se, heq⟩
  · rw [heq]
    exact ⟨h.server.log, h.server.cache, le_refl _, fun _ _ _ _ => rfl, fun _ hm => hm,
      [], (List.append_nil _).symm, fun _ hp => by cases hp⟩
  · rw [heq]
    exact h.server.speaks se

theorem Inv.log_kept (h : Inv w) (e : SystemEvent) {d : JsString} {item : SequencedOperation}
    (hi : item ∈ w.server.store.log d) :
    item ∈ (w.handle segmentGraphemes e).server.store.log d :=
  (h.speaks e).kept (.operation ⟨d, item.serverSeq, item.operation⟩) hi

/-- **Every event keeps the invariant.** -/
theorem Inv.handle (h : Inv w) (e : SystemEvent) : Inv (w.handle segmentGraphemes e) := by
  have hserver : SyncServer.Inv (w.handle segmentGraphemes e).server := by
    rcases @handle_server segmentGraphemes w e with heq | ⟨se, heq⟩
    · rw [heq]
      exact h.server
    · rw [heq]
      exact h.server.handle se
  obtain ⟨added, hsent, -⟩ := (@Inv.speaks segmentGraphemes w h e).sent
  refine ⟨hserver, fun i => ?_, fun i k hk => ?_, fun i p hp => ?_⟩
  · rcases @handle_page segmentGraphemes w e i with heq | ⟨pe, -, -, heq⟩ | ⟨k, m, -, -, heq⟩
    · rw [heq]
      exact h.pages i
    · rw [heq]
      exact (h.pages i).handle pe
    · rw [heq]
      exact (h.pages i).onMessage k m
  · rcases @handle_page segmentGraphemes w e i with heq | ⟨pe, rfl, hallows, heq⟩ | ⟨k', m, -, -, heq⟩
    · rw [heq] at hk
      exact h.owner_kept e (h.owned i k hk)
    · rw [heq] at hk
      simp only [System.handle, if_pos hallows, claim_owner]
      rw [if_pos hk]
    · rw [heq] at hk
      have hlinks := @DocumentSyncClient.onMessage_links (w.pages i).sync none k' m
      refine h.owner_kept e (h.owned i k ((hlinks.socket k hk).resolve_right fun hn => ?_))
      cases hn
  · have hold : p ∈ w.server.sent ∧ w.owner p.1 = some i := by
      rcases @handle_page segmentGraphemes w e i with heq | ⟨pe, -, -, heq⟩ | ⟨k, m, ho, hm, heq⟩
      · rw [heq] at hp
        exact h.received i p hp
      · rw [heq] at hp
        have hreceives := (@Page.handle_moves segmentGraphemes (w.pages i) pe).receives
        exact h.received i p (hreceives.received p hp)
      · rw [heq] at hp
        rcases Page.received_onMessage p hp with hp | rfl
        · exact h.received i p hp
        · exact ⟨hm, ho⟩
    rw [hsent]
    exact ⟨List.mem_append_left _ hold.1, h.owner_kept e hold.2⟩

theorem run_append (w : System) (es es' : List SystemEvent) :
    w.run segmentGraphemes (es ++ es') = (w.run segmentGraphemes es).run segmentGraphemes es' := by
  induction es generalizing w with
  | nil => rfl
  | cons e es ih => exact ih (w.handle segmentGraphemes e)

theorem Inv.run : ∀ {w : System} (es : List SystemEvent), Inv w → Inv (w.run segmentGraphemes es)
  | _, [], h => h
  | _, e :: es, h => (h.handle e).run es

theorem run_inv {store : OperationStore} (h : store.Reachable) (es : List SystemEvent) :
    Inv ((System.start store).run segmentGraphemes es) := (Inv.start h).run es

end System

end LocalFirst
