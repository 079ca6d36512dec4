import LocalFirst.Server.JoinAtomic
import LocalFirst.Server.MessageOrder
import LocalFirst.Server.Renumber
import Mathlib.Data.List.Find

/-!
# What the server shows of one document

The part of a server that concerns one document: who has joined it, its log, its cached snapshot,
and the sync and operation messages about it.

* `DocumentEvent` — the events that concern a document.
* `Inv.aside` — every other event leaves the view of the document as it is.
* `joins`, `submits`, `Inv.departs` — what an event that concerns it does to the view.
-/

set_option autoImplicit false

namespace LocalFirst

/-- Sync and operation messages of a document. -/
def ServerMessage.about (d : JsString) : ServerMessage → Bool
  | .sync m => m.documentId = d
  | .operation m => m.documentId = d
  | .presence _ => false
  | .error _ => false

/-- An event of a document: a socket that has joined nothing yet sends a join for it, or one that
has joined it submits or goes away.  A shutdown concerns every document. -/
inductive DocumentEvent where
  | join (socket : SocketId) (message : JoinMessage) (readyState : ReadyState)
  | submit (socket : SocketId) (operation : TextOperation)
  | closing (socket : SocketId)
  | close (socket : SocketId)
  | shutDown
  | shutDownDone
  deriving DecidableEq

namespace DocumentEvent

def cursor : DocumentEvent → Option Int
  | .join _ message _ => some message.lastServerSeq
  | _ => none

def renumber (φ : Int → Int) : DocumentEvent → DocumentEvent
  | .join socket message readyState => .join socket (message.renumber φ) readyState
  | a => a

end DocumentEvent

namespace SyncServer

/-- The document event that an event of the server is, in the state that it meets. -/
def documentEvent {σ : Type} (d : JsString) (w : SyncServer σ) : Event → Option DocumentEvent
  | .connection _ _ => none
  | .message socket (.message (.join message)) _ =>
    if joinMessageSchema message = true ∧ message.documentId = d ∧
        (w.sessions.get? socket).isSome = true ∧ w.joinedTo socket = none then
      some (.join socket message (w.readyState socket))
    else none
  | .message socket (.message (.submitOperation message)) _ =>
    if message.documentId = d ∧ w.joinedTo socket = some d then
      some (.submit socket message.operation)
    else none
  | .message _ _ _ => none
  | .closing socket => if w.joinedTo socket = some d then some (.closing socket) else none
  | .close socket _ => if w.joinedTo socket = some d then some (.close socket) else none
  | .shutDown => some .shutDown
  | .shutDownDone => some .shutDownDone

/-- No store call fails. -/
def Event.Reliable : Event → Prop
  | .message _ _ env => env.Reliable ∧ env.rowWritten = true
  | _ => True

/-! ## The view of a document -/

/-- The client that a socket has joined the document as, and the state of the socket. -/
def seat (w : SyncServer) (d : JsString) (socket : SocketId) :
    Option (Option JsString × ReadyState) :=
  match w.sessions.get? socket with
  | none => none
  | some session =>
    if session.documentId = some d then some (session.clientId, w.readyState socket) else none

/-- The sync and operation messages about the document that a socket has been sent. -/
def historyOf {σ : Type} (w : SyncServer σ) (d : JsString) (socket : SocketId) : List ServerMessage :=
  (w.sentTo socket).filter (·.about d)

/-- The view of the document is the same. -/
structure Aside (d : JsString) (w w' : SyncServer) : Prop where
  seat : ∀ k, w'.seat d k = w.seat d k
  closing : w'.closing = w.closing
  log : w'.store.log d = w.store.log d
  snapshot : w'.store.snapshots.get? d = w.store.snapshots.get? d
  history : ∀ k, w'.historyOf d k = w.historyOf d k

variable {w w' : SyncServer} {d : JsString} {k j : SocketId} {e : Event} {a : DocumentEvent}

theorem seat_none (h : w.joinedTo k ≠ some d) : w.seat d k = none := by
  unfold joinedTo at h
  unfold seat
  split
  · rfl
  · rename_i session hsession
    rw [hsession, Option.bind_some] at h
    exact if_neg h

theorem seat_some {session : SocketSession} (hsession : w.sessions.get? k = some session)
    (hdocument : session.documentId = some d) :
    w.seat d k = some (session.clientId, w.readyState k) := by
  unfold seat
  simp only [hsession, hdocument, if_true]

theorem joinedTo_iff_seat : w.joinedTo k = some d ↔ (w.seat d k).isSome = true := by
  unfold joinedTo seat
  cases w.sessions.get? k with
  | none => simp
  | some session => by_cases h : session.documentId = some d <;> simp [h]

theorem seat_congr (hsession : w'.sessions.get? k = w.sessions.get? k)
    (hready : w'.readyState k = w.readyState k) : w'.seat d k = w.seat d k := by
  unfold seat
  rw [hsession, hready]

theorem SameRooms.seat (h : SameRooms w w') : w'.seat d k = w.seat d k :=
  seat_congr (by rw [h.sessions]) (by rw [h.readyState])

theorem about_of_quiet : ∀ {m : ServerMessage}, Quiet m → m.about d = false
  | .presence _, _ => rfl
  | .error _, _ => rfl

/-! ### Histories -/

theorem historyOf_append {added : List (SocketId × ServerMessage)}
    (hsent : w'.sent = w.sent ++ added) :
    w'.historyOf d k = w.historyOf d k ++ (toSocket k added).filter (·.about d) := by
  unfold historyOf
  rw [sentTo_append hsent, List.filter_append]

theorem toSocket_append (added rest : List (SocketId × ServerMessage)) :
    toSocket k (added ++ rest) = toSocket k added ++ toSocket k rest := List.filterMap_append

theorem filter_aside {added : List (SocketId × ServerMessage)}
    (h : ∀ p ∈ added, p.2.about d = false) : (toSocket k added).filter (·.about d) = [] := by
  rw [List.filter_eq_nil_iff]
  intro m hm
  rw [h _ (mem_toSocket.1 hm)]
  simp

/-- A message about the document reaches the socket that it is addressed to, if that is open. -/
theorem filter_addressed {message : ServerMessage} (h : message.about d = true) :
    (toSocket j (w.addressed k message)).filter (·.about d) =
      if k = j ∧ w.readyState k = .opened then [message] else [] := by
  unfold addressed toSocket
  by_cases hopen : w.readyState k = .opened
  · by_cases hk : k = j
    · rw [if_pos hopen, if_pos ⟨hk, hopen⟩, hk]
      simp [h]
    · simp [hopen, hk]
  · simp [hopen]

theorem historyOf_aside {added : List (SocketId × ServerMessage)}
    (hsent : w'.sent = w.sent ++ added) (h : ∀ p ∈ added, p.2.about d = false) :
    w'.historyOf d k = w.historyOf d k := by
  rw [historyOf_append hsent, filter_aside h, List.append_nil]

theorem QuietlySends.aside (h : QuietlySends w w') : Aside d w w' := by
  have hrooms := h.sameRooms
  obtain ⟨added, rfl, hquiet⟩ := h
  exact ⟨fun _ => hrooms.seat, rfl, rfl, rfl,
    fun _ => historyOf_aside rfl fun p hp => about_of_quiet (hquiet p hp).2⟩

/-! ## Events that do not concern the document -/

/-- A socket that goes away from another document, or from none. -/
theorem Inv.moved_aside (h : Inv w) (he : e.isMessage = false)
    (hlabel : documentEvent d w e = none) :
    (∀ k, (w.handle e).seat d k = w.seat d k) ∧ (w.handle e).closing = w.closing := by
  cases e with
  | connection socket connectedAt =>
    simp only [SyncServer.handle, record_plain]
    split
    · exact ⟨fun _ => rfl, rfl⟩
    · rename_i hnew
      rw [not_or, not_not] at hnew
      refine ⟨fun k => ?_, rfl⟩
      by_cases hk : socket = k
      · -- a socket that connects had no session
        subst hk
        have hnone : w.seat d socket = none := by
          refine seat_none fun hjoined => ?_
          cases hs : w.sessions.get? socket with
          | none =>
            unfold joinedTo at hjoined
            rw [hs] at hjoined
            cases hjoined
          | some session =>
            rcases h.rooms.connected socket session hs with ho | ho <;>
              · rw [hnew.2] at ho
                cases ho
        rw [hnone]
        unfold SyncServer.seat
        simp
      · refine seat_congr ?_ ?_
        · simp only [InsMap.get?_set, if_neg hk]
        · simp only [setReadyState, if_neg (Ne.symm hk)]
  | message socket frame env => cases he
  | closing socket =>
    simp only [documentEvent] at hlabel
    split at hlabel
    · cases hlabel
    · rename_i hnot
      simp only [SyncServer.handle]
      split
      · refine ⟨fun k => ?_, rfl⟩
        by_cases hk : k = socket
        · subst hk
          rw [seat_none hnot]
          exact seat_none hnot
        · refine seat_congr rfl ?_
          simp only [setReadyState, if_neg hk]
      · exact ⟨fun _ => rfl, rfl⟩
  | close socket env =>
    simp only [documentEvent] at hlabel
    split at hlabel
    · cases hlabel
    · rename_i hnot
      simp only [SyncServer.handle, record_plain]
      split
      · obtain ⟨added, rooms, activeRooms, hleft, -⟩ :=
          leaveRoom_effect env (w.setReadyState socket .closed) socket
        rw [hleft]
        refine ⟨fun k => ?_, rfl⟩
        by_cases hk : k = socket
        · subst hk
          rw [seat_none hnot]
          unfold SyncServer.seat
          simp
        · refine seat_congr ?_ ?_
          · simp only [setReadyState, InsMap.get?_delete, if_neg (Ne.symm hk)]
          · simp only [setReadyState, if_neg hk]
      · exact ⟨fun _ => rfl, rfl⟩
  | shutDown => cases hlabel
  | shutDownDone => cases hlabel

/-- The seats after another join. -/
theorem seat_enterRoom {session : SocketSession} {message : JoinMessage}
    (hnot : w.joinedTo k = none) : (w.enterRoom k session message).seat d j =
      if k = j ∧ message.documentId = d then some (some message.clientId, w.readyState k)
      else w.seat d j := by
  by_cases hk : k = j
  · subst hk
    rw [seat_none (w := w) (k := k) (by rw [hnot]; simp)]
    unfold SyncServer.seat enterRoom joinSession
    simp
  · rw [if_neg fun hand => hk hand.1]
    refine seat_congr ?_ rfl
    unfold enterRoom
    simp only [InsMap.get?_set, if_neg hk]

/-- **An event that does not concern the document leaves the view of it as it is.** -/
theorem Inv.aside (h : Inv w) (hok : e.Reliable) (hlabel : documentEvent d w e = none) :
    Aside d w (w.handle e) := by
  have hquiet : ∀ {added : List (SocketId × ServerMessage)},
      (∀ p ∈ added, w.readyState p.1 = .opened ∧ Quiet p.2) →
      ∀ p ∈ added, p.2.about d = false := fun hadded p hp => about_of_quiet (hadded p hp).2
  cases handle_effect w e with
  | moved he added hstore hsent hadded =>
    obtain ⟨hseat, hclosing⟩ := h.moved_aside he hlabel
    exact ⟨hseat, hclosing, by rw [hstore], by rw [hstore],
      fun _ => historyOf_aside hsent (hquiet hadded)⟩
  | quiet added hrooms hstore hsent hadded =>
    exact ⟨fun _ => hrooms.seat, hrooms.closing, by rw [hstore], by rw [hstore],
      fun _ => historyOf_aside hsent (hquiet hadded)⟩
  | stalled socket session message env added he hsession hnew hschema hthrows =>
    rw [he] at hok
    rw [hok.1.2.1] at hthrows
    cases hthrows
  | synced socket session message env rest he hsession hnew hschema hcursor hrooms hstore hsent
      hrest =>
    have hunjoined : w.joinedTo socket = none := by
      unfold joinedTo
      rw [hsession]
      exact hnew.elim id (h.rooms.identified socket session hsession).2
    have hdoc : message.documentId ≠ d := by
      intro hdoc
      rw [he] at hlabel
      simp [documentEvent, hschema, hdoc, hsession, hunjoined] at hlabel
    obtain ⟨hops, hsnapshots⟩ := w.store.buildSyncMessage_frame env.rowWritten message.documentId
      message.lastServerSeq (hasSnapshotBootstrapCapability message.capabilities)
    refine ⟨fun k => ?_, hrooms.closing, ?_, ?_, fun k => historyOf_aside hsent fun p hp => ?_⟩
    · rw [hrooms.seat, seat_enterRoom hunjoined, if_neg fun hand => hdoc hand.2]
    · rw [hstore]
      unfold OperationStore.log
      rw [hops]
    · rw [hstore, hsnapshots d hdoc]
    · rcases List.mem_append.1 hp with hp | hp
      · obtain ⟨rfl, -⟩ := mem_addressed hp
        have hspec := (OperationStore.buildSyncMessage_spec h.log h.cache env.rowWritten
          message.documentId message.lastServerSeq
          (hasSnapshotBootstrapCapability message.capabilities)).1.document
        simp only [ServerMessage.about, hspec, hdoc, decide_false]
      · exact hquiet hrest p hp
  | echoed socket session documentId item env he hsession hdocument hclient hrooms hitem hstore
      hsent =>
    have hdoc : documentId ≠ d := by
      rintro rfl
      rw [he] at hlabel
      simp [documentEvent, joinedTo, hsession, hdocument] at hlabel
    refine ⟨fun _ => hrooms.seat, hrooms.closing, by rw [hstore], by rw [hstore],
      fun _ => historyOf_aside hsent fun p hp => ?_⟩
    obtain ⟨rfl, -⟩ := mem_addressed hp
    simp only [ServerMessage.about, hdoc, decide_false]
  | appended socket session documentId operation env he hsession hdocument hclient hvalid hschema
      hrooms hnew hstore hsent =>
    have hdoc : documentId ≠ d := by
      rintro rfl
      rw [he] at hlabel
      simp [documentEvent, joinedTo, hsession, hdocument] at hlabel
    refine ⟨fun _ => hrooms.seat, hrooms.closing, ?_, by rw [hstore]; rfl,
      fun _ => historyOf_aside hsent fun p hp => ?_⟩
    · rw [hstore, OperationStore.log_insertOperation, if_neg hdoc]
    · obtain ⟨peer, -, rfl⟩ := List.mem_map.1 hp
      simp only [ServerMessage.about, hdoc, decide_false]

/-! ## Going away -/

/-- A seat after an event by which sockets go away. -/
def DocumentEvent.depart (closing : Bool) (j : SocketId) (seat : Option (Option JsString × ReadyState)) :
    DocumentEvent → Option (Option JsString × ReadyState)
  | .closing k => if j = k then seat.map (fun s => (s.1, .closing)) else seat
  | .close k => if j = k then none else seat
  | .shutDown => seat.map fun s => (s.1, if s.2 = .opened then .closing else s.2)
  | .shutDownDone => if closing then none else seat
  | _ => seat

theorem Inv.connected_of_joined (h : Inv w) (hjoined : w.joinedTo k = some d) :
    ∃ session, w.sessions.get? k = some session ∧ session.documentId = some d ∧
      (w.readyState k = .opened ∨ w.readyState k = .closing) := by
  unfold joinedTo at hjoined
  obtain ⟨session, hsession, hdocument⟩ := Option.bind_eq_some_iff.1 hjoined
  exact ⟨session, hsession, hdocument, h.rooms.connected k session hsession⟩

/-- A departure changes no log and speaks of none. -/
theorem moved_quiet (he : e.isMessage = false) : (w.handle e).store = w.store ∧
    ∀ j, (w.handle e).historyOf d j = w.historyOf d j := by
  cases handle_effect w e with
  | moved _ added hstore hsent hadded =>
    exact ⟨hstore, fun _ => historyOf_aside hsent fun p hp => about_of_quiet (hadded p hp).2⟩
  | quiet added hrooms hstore hsent hadded =>
    exact ⟨hstore, fun _ => historyOf_aside hsent fun p hp => about_of_quiet (hadded p hp).2⟩
  | stalled socket session message env added he' => rw [he'] at he; cases he
  | synced socket session message env rest he' => rw [he'] at he; cases he
  | echoed socket session documentId item env he' => rw [he'] at he; cases he
  | appended socket session documentId operation env he' => rw [he'] at he; cases he

/-- **What a departure does to the view of the document.** -/
theorem Inv.departs (h : Inv w) (he : e.isMessage = false) (hlabel : documentEvent d w e = some a) :
    (w.handle e).closing = (w.closing || a = .shutDown) ∧
      ∀ j, (w.handle e).seat d j = DocumentEvent.depart w.closing j (w.seat d j) a := by
  cases e with
  | connection socket connectedAt => cases hlabel
  | message socket frame env => cases he
  | closing socket =>
    simp only [documentEvent, Option.ite_none_right_eq_some] at hlabel
    obtain ⟨hjoined, heq⟩ := hlabel
    cases heq
    obtain ⟨session, hsession, hdocument, hready⟩ := h.connected_of_joined hjoined
    simp only [SyncServer.handle, DocumentEvent.depart]
    split
    · refine ⟨by simp [setReadyState], fun j => ?_⟩
      by_cases hj : j = socket
      · subst hj
        rw [seat_some hsession hdocument, seat_some (by exact hsession) hdocument]
        simp [setReadyState]
      · rw [if_neg hj]
        refine seat_congr rfl ?_
        simp only [setReadyState, if_neg hj]
    · rename_i hopen
      refine ⟨by simp, fun j => ?_⟩
      by_cases hj : j = socket
      · subst hj
        rw [seat_some hsession hdocument, hready.resolve_left hopen]
        simp
      · rw [if_neg hj]
  | close socket env =>
    simp only [documentEvent, Option.ite_none_right_eq_some] at hlabel
    obtain ⟨hjoined, heq⟩ := hlabel
    cases heq
    obtain ⟨session, hsession, hdocument, hready⟩ := h.connected_of_joined hjoined
    obtain ⟨added, rooms, activeRooms, hleft, -⟩ :=
      leaveRoom_effect env (w.setReadyState socket .closed) socket
    simp only [SyncServer.handle, record_plain, DocumentEvent.depart, if_pos hready]
    rw [hleft]
    refine ⟨by simp [setReadyState], fun j => ?_⟩
    by_cases hj : j = socket
    · subst hj
      rw [if_pos rfl]
      unfold SyncServer.seat
      simp
    · rw [if_neg hj]
      refine seat_congr ?_ ?_
      · simp only [setReadyState, InsMap.get?_delete, if_neg (Ne.symm hj)]
      · simp only [setReadyState, if_neg hj]
  | shutDown =>
    cases hlabel
    refine ⟨by simp [SyncServer.handle], fun j => ?_⟩
    simp only [SyncServer.handle, DocumentEvent.depart, SyncServer.seat]
    cases w.sessions.get? j with
    | none => rfl
    | some session => by_cases hd : session.documentId = some d <;> simp [hd]
  | shutDownDone =>
    cases hlabel
    simp only [SyncServer.handle, DocumentEvent.depart]
    split
    · rename_i hclosing
      exact ⟨by simp, fun j => by simp [SyncServer.seat]⟩
    · exact ⟨by simp, fun j => rfl⟩

/-! ## Joining -/

/-- **A join that passes the checks.** -/
theorem Inv.joins (h : Inv w) {message : JoinMessage} {env : ServerEnv} (hjoin : NewJoin w e k message env)
    (hunjoined : w.joinedTo k = none) (hok : e.Reliable) (hpasses : ¬ RefusesJoin w message env) :
    (w.handle e).store = (w.store.buildSyncMessage env.rowWritten message.documentId
        message.lastServerSeq (hasSnapshotBootstrapCapability message.capabilities)).2 ∧
      (w.handle e).closing = w.closing ∧
      (∀ j, (w.handle e).seat message.documentId j =
        if k = j then some (some message.clientId, w.readyState k)
        else w.seat message.documentId j) ∧
      ∀ j, (w.handle e).historyOf message.documentId j = w.historyOf message.documentId j ++
        if k = j ∧ w.readyState k = .opened then [.sync (syncOf w message env)] else [] := by
  unfold RefusesJoin at hpasses
  rw [not_or, not_or, Bool.not_eq_false, Option.not_isSome_iff_eq_none, not_lt] at hpasses
  obtain ⟨hschema, hlatest, hcursor⟩ := hpasses
  obtain ⟨session, hsession, hnew, heq⟩ := handle_newJoin hjoin hschema
  have hthrows : env.syncThrows = none := by
    obtain ⟨rfl, -⟩ := hjoin
    exact hok.1.2.1
  obtain ⟨rest, hrest, hquiet⟩ := broadcastPresence_quiet env
    (synced env (w.enterRoom k session message) k message) message.documentId
  rw [joinSocket_plain] at heq
  rw [hlatest, hthrows] at heq
  simp only [if_neg (not_lt.2 hcursor), hrest] at heq
  rw [synced_eq] at heq
  have hdocument : (syncOf w message env).documentId = message.documentId :=
    (OperationStore.buildSyncMessage_spec h.log h.cache _ _ _ _).1.document
  refine ⟨by rw [heq]; rfl, by rw [heq]; rfl, fun j => ?_, fun j => ?_⟩
  · rw [heq]
    have hseat := @seat_enterRoom w message.documentId k j session message hunjoined
    simp only [and_true] at hseat
    exact hseat
  · have hsent : (w.handle e).sent =
        w.sent ++ (w.addressed k (.sync (syncOf w message env)) ++ rest) := by
      rw [heq]
      exact List.append_assoc _ _ _
    rw [historyOf_append hsent, toSocket_append, List.filter_append,
      filter_aside fun p hp => about_of_quiet (hquiet p hp).2, List.append_nil,
      filter_addressed (by simp only [ServerMessage.about, hdocument, decide_true])]

/-! ## Submitting -/

/-- What the server answers to an operation submitted to a log: nothing of the log, a row that it
has, or a new row. -/
def answer (log : List SequencedOperation) (d : JsString) (clientId : Option JsString)
    (operation : TextOperation) : Option (Option SequencedOperation) :=
  if submitOperationMessageSchema ⟨d, operation⟩ = true ∧ clientId = some operation.clientId ∧
      ValidOperation operation then
    match log.find? (·.operation.opId = operation.opId) with
    | some item => if item.operation = operation then some (some item) else none
    | none => some none
  else none

theorem answer_renumber (φ : Int → Int) (log : List SequencedOperation) (clientId : Option JsString)
    (operation : TextOperation) : answer (log.map (·.renumber φ)) d clientId operation =
      (answer log d clientId operation).map (Option.map (·.renumber φ)) := by
  have hfind : (log.map (·.renumber φ)).find? (·.operation.opId = operation.opId) =
      (log.find? (·.operation.opId = operation.opId)).map (·.renumber φ) := by
    rw [List.find?_map]
    rfl
  unfold answer
  rw [hfind]
  split
  · cases log.find? (·.operation.opId = operation.opId) with
    | none => rfl
    | some item => by_cases h : item.operation = operation <;> simp [SequencedOperation.renumber, h]
  · rfl

theorem answer_mem {log : List SequencedOperation} {clientId : Option JsString}
    {operation : TextOperation} {item : SequencedOperation}
    (h : answer log d clientId operation = some (some item)) : item ∈ log := by
  unfold answer at h
  split at h
  · split at h
    · rename_i hfind
      split at h
      · cases h
        exact List.mem_of_find?_eq_some hfind
      · cases h
    · cases h
  · cases h

/-- The row that `appendOperation` looks for, found in the log. -/
theorem find_log {s : OperationStore} (h : s.LogInv) (opId : JsString) :
    (s.log d).find? (·.operation.opId = opId) =
      (s.findOperation d opId).map OperationStore.mapOperationRow := by
  unfold OperationStore.log OperationStore.findOperation
  rw [List.find?_map, List.find?_filter]
  refine congrArg _ (List.find?_congr fun row hrow => ?_)
  by_cases hdoc : row.documentId = d <;> by_cases hid : row.operation.opId = opId <;>
    simp [OperationStore.mapOperationRow, h.opId row hrow, hdoc, hid]

/-- **What is done with a submitted operation.** -/
theorem Inv.submits (h : Inv w) {session : SocketSession}
    (hsession : w.sessions.get? k = some session) (hdocument : session.documentId = some d)
    {operation : TextOperation} {env : ServerEnv} (hok : env.appendThrows = none) :
    match answer (w.store.log d) d session.clientId operation with
    | none =>
      OnlyErrs w (w.handle (.message k (.message (.submitOperation ⟨d, operation⟩)) env))
    | some (some item) =>
      w.handle (.message k (.message (.submitOperation ⟨d, operation⟩)) env) =
        w.withSent (w.addressed k (.operation ⟨d, item.serverSeq, operation⟩))
    | some none =>
      w.handle (.message k (.message (.submitOperation ⟨d, operation⟩)) env) =
        { w with store := w.store.insertOperation d operation }.withSent
          ((w.audience d).map (·, .operation ⟨d, w.store.lastServerSeq + 1, operation⟩)) := by
  unfold answer
  rw [find_log h.log]
  simp only [SyncServer.handle, handleMessage, hsession, parseClientMessage, clientMessageSchema]
  by_cases hschema : submitOperationMessageSchema ⟨d, operation⟩ = true
  · simp only [hschema, if_true, true_and]
    unfold dispatch
    rw [hdocument]
    cases hc : session.clientId with
    | none => exact sendError_errs _ _ _ (by decide)
    | some clientId =>
      by_cases hclient : clientId = operation.clientId
      · subst hclient
        simp only [ne_eq, not_true_eq_false, if_false, true_and]
        rw [acceptOperation_plain, hdocument]
        simp only [hok]
        unfold OperationStore.appendOperation
        by_cases hvalid : ValidOperation operation
        · have hok' : validateOperation operation = .ok () := hvalid
          simp only [hvalid, if_true, hok']
          cases hfind : w.store.findOperation d operation.opId with
          | none =>
            simp only [Option.map_none, not_true_eq_false, if_false]
            rw [broadcast_eq]
            rfl
          | some row =>
            simp only [Option.map_some, operationsEqual_iff, OperationStore.mapOperationRow]
            by_cases heq : row.operation = operation
            · simp only [heq, not_true_eq_false, if_false, if_true, Bool.false_eq_true,
                not_false_eq_true]
              rw [caught_ok, sendJson_eq]
            · simp only [heq, not_false_eq_true, if_true, if_false, caught_error]
              exact sendCaughtError_errs _ _ _
        · simp only [hvalid, if_false]
          cases herror : validateOperation operation with
          | error e => exact sendCaughtError_errs _ _ _
          | ok => exact absurd herror hvalid
      · have hne : ¬ some clientId = some operation.clientId := fun heq => hclient (Option.some.inj heq)
        simp only [ne_eq, not_true_eq_false, if_false, hne, false_and, Ne.symm hclient,
          not_false_eq_true, if_true]
        exact sendError_errs _ _ _ (by decide)
  · simp only [hschema, Bool.false_eq_true, if_false, false_and]
    exact sendError_errs _ _ _ (by decide)

/-- A broadcast reaches the sockets whose seat is open. -/
theorem Inv.filter_audience (h : Inv w) {message : ServerMessage} (habout : message.about d = true) :
    (toSocket j ((w.audience d).map (·, message))).filter (·.about d) =
      if (w.seat d j).any (·.2 = .opened) then [message] else [] := by
  have hmem : j ∈ w.audience d ↔ (w.seat d j).any (·.2 = .opened) = true := by
    rw [mem_audience h.rooms, joinedTo_iff_seat]
    cases hseat : w.seat d j with
    | none => simp
    | some s =>
      have hready : s.2 = w.readyState j := by
        obtain ⟨session, hsession, hdocument, -⟩ := h.connected_of_joined
          (joinedTo_iff_seat.2 (by rw [hseat]; rfl))
        rw [seat_some hsession hdocument] at hseat
        rw [← Option.some.inj hseat]
      simp [hready]
  by_cases hj : j ∈ w.audience d
  · rw [if_pos (hmem.1 hj), toSocket_map message (audience_nodup w d) hj]
    simp [habout]
  · rw [if_neg (mt hmem.2 hj), List.filter_eq_nil_iff]
    intro m hm
    obtain ⟨peer, hpeer, heq⟩ := List.mem_map.1 (mem_toSocket.1 hm)
    cases heq
    exact absurd hpeer hj

/-! ## Growth -/

/-- The log of the document stays, or a submitted operation that the schema admits is appended. -/
theorem log_appended (w : SyncServer) (e : Event) (d : JsString) :
    (w.handle e).store.log d = w.store.log d ∨ ∃ socket session operation env,
      e = .message socket (.message (.submitOperation ⟨d, operation⟩)) env ∧
      w.sessions.get? socket = some session ∧ session.documentId = some d ∧
      session.clientId = some operation.clientId ∧ textOperationSchema operation = true ∧
      (w.handle e).store.log d = w.store.log d ++ [⟨w.store.lastServerSeq + 1, operation⟩] := by
  have hsame : (w.handle e).store.operations = w.store.operations →
      (w.handle e).store.log d = w.store.log d := by
    intro hops
    unfold OperationStore.log
    rw [hops]
  cases handle_effect w e with
  | moved he added hstore => exact Or.inl (hsame (by rw [hstore]))
  | quiet added hrooms hstore => exact Or.inl (hsame (by rw [hstore]))
  | stalled socket session message env added he hsession hnew hschema hthrows hrooms hstore =>
    exact Or.inl (hsame (by rw [hstore]))
  | synced socket session message env rest he hsession hnew hschema hcursor hrooms hstore =>
    refine Or.inl (hsame ?_)
    rw [hstore]
    exact (w.store.buildSyncMessage_frame _ _ _ _).1
  | echoed socket session documentId item env he hsession hdocument hclient hrooms hitem hstore =>
    exact Or.inl (hsame (by rw [hstore]))
  | appended socket session documentId operation env he hsession hdocument hclient hvalid hschema
      hrooms hnew hstore =>
    rw [hstore, OperationStore.log_insertOperation]
    split
    · rename_i hd
      subst hd
      exact Or.inr ⟨socket, session, operation, env, he, hsession, hdocument, hclient, hschema, rfl⟩
    · exact Or.inl rfl

/-- The log of the document grows at its end. -/
theorem log_grows (w : SyncServer) (e : Event) (d : JsString) :
    w.store.log d <+: (w.handle e).store.log d := by
  rcases w.log_appended e d with heq | ⟨_, _, _, _, -, -, -, -, -, heq⟩
  · exact heq ▸ List.prefix_rfl
  · rw [heq]
    exact List.prefix_append _ _

theorem log_grows_run (d : JsString) : ∀ (w : SyncServer) (es : List Event),
    w.store.log d <+: (Runs.run SyncServer.handle w es).store.log d
  | _, [] => List.prefix_rfl
  | w, e :: es => (log_grows w e d).trans (log_grows_run d (w.handle e) es)

/-- **What is sent of a log goes to sockets that have joined its document.** -/
theorem Inv.sent_to_members (h : Inv w) {added : List (SocketId × ServerMessage)}
    (hsent : (w.handle e).sent = w.sent ++ added) :
    ∀ p ∈ added, ∀ dl, delivery p.2 = some dl → (w.handle e).joinedTo p.1 = some dl.documentId := by
  have hquiet : ∀ {rest : List (SocketId × ServerMessage)},
      (∀ p ∈ rest, w.readyState p.1 = .opened ∧ Quiet p.2) → ∀ p ∈ rest, ∀ dl,
      delivery p.2 = some dl → (w.handle e).joinedTo p.1 = some dl.documentId := by
    intro rest hrest p hp dl hdl
    have hq : delivery p.2 = none := (hrest p hp).2
    rw [hq] at hdl
    cases hdl
  have hjoined : ∀ {v : SyncServer} {k : SocketId}, SameRooms v (w.handle e) →
      (w.handle e).joinedTo k = v.joinedTo k := by
    intro v k hrooms
    unfold joinedTo
    rw [hrooms.sessions]
  cases handle_effect w e with
  | moved he added' hstore hsent' hadded =>
    rw [hsent', List.append_cancel_left_eq] at hsent
    exact hsent ▸ hquiet hadded
  | quiet added' hrooms hstore hsent' hadded =>
    rw [hsent', List.append_cancel_left_eq] at hsent
    exact hsent ▸ hquiet hadded
  | stalled socket session message env added' he hsession hnew hschema hthrows hrooms hstore hsent'
      hadded =>
    rw [hsent', List.append_cancel_left_eq] at hsent
    exact hsent ▸ hquiet hadded
  | synced socket session message env rest he hsession hnew hschema hcursor hrooms hstore hsent'
      hrest =>
    rw [hsent', List.append_cancel_left_eq] at hsent
    intro p hp dl hdl
    rw [← hsent] at hp
    rcases List.mem_append.1 hp with hp | hp
    · obtain ⟨rfl, -⟩ := mem_addressed hp
      cases hdl
      rw [hjoined hrooms, joinedTo_enterRoom, if_pos rfl]
      exact congrArg some (OperationStore.buildSyncMessage_spec h.log h.cache _ _ _ _).1.document.symm
    · exact hquiet hrest p hp dl hdl
  | echoed socket session documentId item env he hsession hdocument hclient hrooms hitem hstore
      hsent' =>
    rw [hsent', List.append_cancel_left_eq] at hsent
    intro p hp dl hdl
    rw [← hsent] at hp
    obtain ⟨rfl, -⟩ := mem_addressed hp
    cases hdl
    rw [hjoined hrooms]
    unfold joinedTo
    rw [hsession]
    exact hdocument
  | appended socket session documentId operation env he hsession hdocument hclient hvalid hschema
      hrooms hnew hstore hsent' =>
    rw [hsent', List.append_cancel_left_eq] at hsent
    intro p hp dl hdl
    rw [← hsent] at hp
    obtain ⟨peer, hpeer, rfl⟩ := List.mem_map.1 hp
    cases hdl
    rw [hjoined hrooms]
    exact ((mem_audience h.rooms).1 hpeer).1

end SyncServer

end LocalFirst
