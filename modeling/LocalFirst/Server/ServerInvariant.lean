import LocalFirst.Server.SyncServer

/-!
# What one event does to the server

* `handle_effect` — the log grows by at most one row, and what is sent is told by kind.
* `SyncServer.Inv` — sessions, rooms and socket states belong together, and every message that
  was ever sent describes the log.
* `run_inv` — it holds in every run.
-/

set_option autoImplicit false

namespace LocalFirst

namespace SyncServer

variable {w : SyncServer} {socket : SocketId} {env : ServerEnv}

/-! ## Sending -/

section

variable {σ : Type}

/-- The server with more sent. -/
def withSent (w : SyncServer σ) (added : List (SocketId × ServerMessage)) : SyncServer σ :=
  { w with sent := w.sent ++ added }

theorem withSent_nil (w : SyncServer σ) : w.withSent [] = w := by
  unfold withSent
  rw [List.append_nil]

theorem withSent_withSent (w : SyncServer σ) (added added' : List (SocketId × ServerMessage)) :
    (w.withSent added).withSent added' = w.withSent (added ++ added') := by
  unfold withSent
  simp only [List.append_assoc]

/-- A message to one socket, if it is open. -/
def addressed (w : SyncServer σ) (socket : SocketId) (message : ServerMessage) :
    List (SocketId × ServerMessage) :=
  if w.readyState socket = .opened then [(socket, message)] else []

theorem addressed_open {w : SyncServer σ} {socket : SocketId} {message : ServerMessage}
    (hopen : w.readyState socket = .opened) : w.addressed socket message = [(socket, message)] :=
  if_pos hopen

theorem sendJson_eq (w : SyncServer σ) (socket : SocketId) (message : ServerMessage) :
    w.sendJson socket message = w.withSent (w.addressed socket message) := by
  unfold sendJson addressed
  by_cases h : w.readyState socket = .opened
  · rw [if_neg (not_not.2 h), if_pos h]
    rfl
  · rw [if_pos h, if_neg h, withSent_nil]

/-- The peers that a message to a room reaches. -/
def reachable (w : SyncServer σ) (peers : List SocketId) : List SocketId :=
  peers.filter fun peer => (w.sessions.get? peer).isSome && w.readyState peer = .opened

theorem sendToPeers_eq (message : ServerMessage) : ∀ (w : SyncServer σ) (peers : List SocketId),
    w.sendToPeers message peers = w.withSent ((w.reachable peers).map (·, message))
  | w, [] => (withSent_nil w).symm
  | w, peer :: peers => by
    unfold sendToPeers reachable
    rw [List.filter_cons]
    cases hs : w.sessions.get? peer with
    | none =>
      simp only [Option.isSome_none, Bool.false_and, Bool.false_eq_true, if_false]
      exact sendToPeers_eq message w peers
    | some session =>
      by_cases ho : w.readyState peer = .opened
      · simp only [ho, if_true, Option.isSome_some, decide_true, Bool.and_true]
        rw [sendJson_eq, sendToPeers_eq message (w.withSent _) peers, withSent_withSent]
        unfold addressed
        rw [if_pos ho]
        rfl
      · simp only [ho, if_false, decide_false, Bool.and_false]
        exact sendToPeers_eq message w peers

/-- The open members of a room. -/
def audience (w : SyncServer σ) (documentId : JsString) : List SocketId :=
  match w.rooms.get? documentId with
  | none => []
  | some room => w.reachable room.elems

theorem broadcast_eq (w : SyncServer σ) (documentId : JsString) (message : OperationMessage) :
    w.broadcast documentId message =
      w.withSent ((w.audience documentId).map (·, .operation message)) := by
  unfold broadcast audience
  cases w.rooms.get? documentId with
  | none => exact (withSent_nil w).symm
  | some room => exact sendToPeers_eq _ w room.elems

end

theorem synced_eq (env : ServerEnv) (w : SyncServer) (socket : SocketId) (message : JoinMessage) :
    synced env w socket message =
      { w with
        store := (w.store.buildSyncMessage env.rowWritten message.documentId message.lastServerSeq
          (hasSnapshotBootstrapCapability message.capabilities)).2
        sent := w.sent ++ w.addressed socket (.sync (w.store.buildSyncMessage env.rowWritten
          message.documentId message.lastServerSeq
          (hasSnapshotBootstrapCapability message.capabilities)).1) } := by
  unfold synced
  simp only
  rw [sendJson_eq]
  rfl

/-- Messages that bring nothing of a log. -/
def Quiet (m : ServerMessage) : Prop := delivery m = none

section

variable {σ : Type}

/-- Only quiet messages to open sockets are added. -/
def QuietlySends (w w' : SyncServer σ) : Prop :=
  ∃ added, w' = w.withSent added ∧ ∀ p ∈ added, w.readyState p.1 = .opened ∧ Quiet p.2

theorem QuietlySends.refl (w : SyncServer σ) : QuietlySends w w :=
  ⟨[], (withSent_nil w).symm, fun _ h => by cases h⟩

/-- Only errors to open sockets are added. -/
def OnlyErrs (w w' : SyncServer σ) : Prop :=
  ∃ added, w' = w.withSent added ∧
    ∀ p ∈ added, w.readyState p.1 = .opened ∧ ∃ m, p.2 = .error m ∧ m.code ≠ []

theorem OnlyErrs.quiet {w w' : SyncServer σ} (h : OnlyErrs w w') : QuietlySends w w' := by
  obtain ⟨added, heq, hadded⟩ := h
  refine ⟨added, heq, fun p hp => ?_⟩
  obtain ⟨hopen, m, hm, -⟩ := hadded p hp
  refine ⟨hopen, ?_⟩
  rw [hm]
  rfl

theorem sendError_errs (w : SyncServer σ) (socket : SocketId) {code : JsString} (message : JsString)
    (hcode : code ≠ []) : OnlyErrs w (w.sendError socket code message) := by
  refine ⟨_, sendJson_eq w socket _, fun p hp => ?_⟩
  unfold addressed at hp
  split at hp
  · rename_i ho
    rw [List.mem_singleton.1 hp]
    exact ⟨ho, _, rfl, hcode⟩
  · cases hp

theorem broadcastPresence_quiet (env : ServerEnv) (w : SyncServer σ) (documentId : JsString) :
    QuietlySends w (broadcastPresence env w documentId) := by
  unfold broadcastPresence
  split
  · exact QuietlySends.refl w
  · split
    · exact QuietlySends.refl w
    · refine ⟨_, sendToPeers_eq _ w _, fun p hp => ?_⟩
      obtain ⟨peer, hpeer, rfl⟩ := List.mem_map.1 hp
      refine ⟨?_, rfl⟩
      have := (List.mem_filter.1 hpeer).2
      simp only [Bool.and_eq_true, decide_eq_true_eq] at this
      exact this.2

/-- Leaving a room changes the rooms and tells the peers. -/
theorem leaveRoom_effect (env : ServerEnv) (w : SyncServer σ) (socket : SocketId) :
    ∃ added rooms activeRooms, leaveRoom env w socket =
      { w with rooms := rooms, activeRooms := activeRooms, sent := w.sent ++ added } ∧
      ∀ p ∈ added, w.readyState p.1 = .opened ∧ Quiet p.2 := by
  have hnone : ∃ added rooms activeRooms, w =
      { w with rooms := rooms, activeRooms := activeRooms, sent := w.sent ++ added } ∧
      ∀ p ∈ added, w.readyState p.1 = .opened ∧ Quiet p.2 :=
    ⟨[], w.rooms, w.activeRooms, by rw [List.append_nil], fun _ h => by cases h⟩
  unfold leaveRoom
  split
  · exact hnone
  · split
    · exact hnone
    · split
      · exact hnone
      · simp only
        split
        · exact ⟨[], _, _, by rw [List.append_nil], fun _ h => by cases h⟩
        · obtain ⟨added, hsent, hadded⟩ := broadcastPresence_quiet env _ _
          exact ⟨added, _, _, hsent, hadded⟩

end

theorem sendCaughtError_errs (w : SyncServer) (socket : SocketId) (error : JsError) :
    OnlyErrs w (w.sendCaughtError socket error) := by
  unfold sendCaughtError
  split <;> exact sendError_errs _ _ _ (by decide)

theorem sendCaughtError_quiet (w : SyncServer) (socket : SocketId) (error : JsError) :
    QuietlySends w (w.sendCaughtError socket error) := (sendCaughtError_errs w socket error).quiet

/-! ## The effect of an event -/

/-- Sessions, rooms and sockets are the same. -/
structure SameRooms (w w' : SyncServer) : Prop where
  sessions : w'.sessions = w.sessions
  rooms : w'.rooms = w.rooms
  readyState : w'.readyState = w.readyState
  closing : w'.closing = w.closing

theorem QuietlySends.sameRooms {w w' : SyncServer} (h : QuietlySends w w') : SameRooms w w' := by
  obtain ⟨added, rfl, -⟩ := h
  exact ⟨rfl, rfl, rfl, rfl⟩

/-- Events other than the arrival of a message. -/
def Event.isMessage : Event → Bool
  | .message _ _ _ => true
  | _ => false

/-- What an event does, and what it sends. -/
inductive Effect (w w' : SyncServer) (e : Event) : Prop
  | moved (he : e.isMessage = false) (added : List (SocketId × ServerMessage))
      (hstore : w'.store = w.store) (hsent : w'.sent = w.sent ++ added)
      (hadded : ∀ p ∈ added, w.readyState p.1 = .opened ∧ Quiet p.2)
  | quiet (added : List (SocketId × ServerMessage)) (hrooms : SameRooms w w')
      (hstore : w'.store = w.store) (hsent : w'.sent = w.sent ++ added)
      (hadded : ∀ p ∈ added, w.readyState p.1 = .opened ∧ Quiet p.2)
  | stalled (socket : SocketId) (session : SocketSession) (message : JoinMessage) (env : ServerEnv)
      (added : List (SocketId × ServerMessage))
      (he : e = .message socket (.message (.join message)) env)
      (hsession : w.sessions.get? socket = some session)
      (hnew : session.documentId = none ∨ session.clientId = none)
      (hschema : joinMessageSchema message = true) (hthrows : env.syncThrows.isSome = true)
      (hrooms : SameRooms (w.enterRoom socket session message) w')
      (hstore : w'.store = w.store) (hsent : w'.sent = w.sent ++ added)
      (hadded : ∀ p ∈ added, w.readyState p.1 = .opened ∧ Quiet p.2)
  | synced (socket : SocketId) (session : SocketSession) (message : JoinMessage) (env : ServerEnv)
      (rest : List (SocketId × ServerMessage))
      (he : e = .message socket (.message (.join message)) env)
      (hsession : w.sessions.get? socket = some session)
      (hnew : session.documentId = none ∨ session.clientId = none)
      (hschema : joinMessageSchema message = true)
      (hcursor : message.lastServerSeq ≤ w.store.getLatestServerSeq message.documentId)
      (hrooms : SameRooms (w.enterRoom socket session message) w')
      (hstore : w'.store = (w.store.buildSyncMessage env.rowWritten message.documentId
        message.lastServerSeq (hasSnapshotBootstrapCapability message.capabilities)).2)
      (hsent : w'.sent = w.sent ++ (w.addressed socket (.sync (w.store.buildSyncMessage
        env.rowWritten message.documentId message.lastServerSeq
        (hasSnapshotBootstrapCapability message.capabilities)).1) ++ rest))
      (hrest : ∀ p ∈ rest, w.readyState p.1 = .opened ∧ Quiet p.2)
  | echoed (socket : SocketId) (session : SocketSession) (documentId : JsString)
      (item : SequencedOperation) (env : ServerEnv)
      (he : e = .message socket (.message (.submitOperation ⟨documentId, item.operation⟩)) env)
      (hsession : w.sessions.get? socket = some session)
      (hdocument : session.documentId = some documentId)
      (hclient : session.clientId = some item.operation.clientId) (hrooms : SameRooms w w')
      (hitem : item ∈ w.store.log documentId) (hstore : w'.store = w.store)
      (hsent : w'.sent = w.sent ++
        w.addressed socket (.operation ⟨documentId, item.serverSeq, item.operation⟩))
  | appended (socket : SocketId) (session : SocketSession) (documentId : JsString)
      (operation : TextOperation) (env : ServerEnv)
      (he : e = .message socket (.message (.submitOperation ⟨documentId, operation⟩)) env)
      (hsession : w.sessions.get? socket = some session)
      (hdocument : session.documentId = some documentId)
      (hclient : session.clientId = some operation.clientId) (hvalid : ValidOperation operation)
      (hschema : textOperationSchema operation = true) (hrooms : SameRooms w w')
      (hnew : ∀ row ∈ w.store.operations, row.documentId = documentId → row.opId ≠ operation.opId)
      (hstore : w'.store = w.store.insertOperation documentId operation)
      (hsent : w'.sent = w.sent ++ (w.audience documentId).map
        (·, .operation ⟨documentId, w.store.lastServerSeq + 1, operation⟩))

theorem Effect.of_quiet {w w' : SyncServer} {e : Event} (h : QuietlySends w w') : Effect w w' e := by
  have hrooms := h.sameRooms
  obtain ⟨added, rfl, hadded⟩ := h
  exact .quiet added hrooms rfl rfl hadded

theorem acceptOperation_effect {session : SocketSession} {operation : TextOperation}
    {documentId : JsString} (hsession : w.sessions.get? socket = some session)
    (hdocument : session.documentId = some documentId)
    (hclient : session.clientId = some operation.clientId)
    (hschema : textOperationSchema operation = true) :
    Effect w (caught socket (acceptOperation env w socket session operation))
      (.message socket (.message (.submitOperation ⟨documentId, operation⟩)) env) := by
  rw [acceptOperation_plain, hdocument]
  simp only
  split
  · exact .of_quiet (sendCaughtError_quiet _ _ _)
  · split
    · exact .of_quiet (sendCaughtError_quiet _ _ _)
    · split
      · exact .of_quiet (sendCaughtError_quiet _ _ _)
      · rename_i result store happ
        obtain ⟨hvalid, ⟨hins, rfl, hitem⟩ | ⟨hins, hseq, rfl, hnew⟩⟩ :=
          OperationStore.appendOperation_spec happ
        · simp only [hins, Bool.false_eq_true, not_false_eq_true, if_true, caught_ok]
          refine .echoed socket session documentId ⟨result.serverSeq, operation⟩ env rfl hsession
            hdocument hclient ?_ hitem ?_ ?_
          all_goals rw [sendJson_eq]
          · exact ⟨rfl, rfl, rfl, rfl⟩
          · rfl
          · rfl
        · simp only [hins, not_true_eq_false, if_false, caught_ok]
          refine .appended socket session documentId operation env rfl hsession hdocument hclient
            hvalid hschema ?_ hnew ?_ ?_
          all_goals rw [broadcast_eq]
          · exact ⟨rfl, rfl, rfl, rfl⟩
          · rfl
          · rw [hseq]
            rfl

theorem joinSocket_effect {session : SocketSession} {message : JoinMessage}
    (hsession : w.sessions.get? socket = some session)
    (hnew : session.documentId = none ∨ session.clientId = none)
    (hschema : joinMessageSchema message = true) :
    Effect w (caught socket (joinSocket env w socket session message))
      (.message socket (.message (.join message)) env) := by
  rw [joinSocket_plain]
  split
  · exact .of_quiet (sendCaughtError_quiet _ _ _)
  · split
    · exact .of_quiet (sendError_errs _ _ _ (by decide)).quiet
    · rename_i hle
      split
      · rename_i e hthrows
        have hquiet := sendCaughtError_quiet (w.enterRoom socket session message) socket e
        have hrooms := hquiet.sameRooms
        obtain ⟨added, heq, hadded⟩ := hquiet
        refine .stalled socket session message env added rfl hsession hnew hschema
          (by rw [hthrows]; rfl) hrooms ?_ ?_ hadded
        all_goals rw [caught_error, heq]
        · rfl
        · rfl
      · obtain ⟨rest, hsent, hrest⟩ := broadcastPresence_quiet env
          (synced env (w.enterRoom socket session message) socket message) message.documentId
        rw [synced_eq] at hsent hrest ⊢
        rw [caught_ok, hsent]
        exact .synced socket session message env rest rfl hsession hnew hschema
          (not_lt.1 hle) ⟨rfl, rfl, rfl, rfl⟩ rfl (List.append_assoc _ _ _) hrest

theorem dispatch_effect {session : SocketSession} {message : ClientMessage}
    (hsession : w.sessions.get? socket = some session)
    (hschema : clientMessageSchema message = true) :
    Effect w (caught socket (dispatch env w socket session message))
      (.message socket (.message message) env) := by
  cases message with
  | join message =>
    unfold dispatch
    cases hd : session.documentId with
    | none => exact joinSocket_effect hsession (Or.inl hd) hschema
    | some documentId =>
      cases hc : session.clientId with
      | none => exact joinSocket_effect hsession (Or.inr hc) hschema
      | some clientId => exact .of_quiet (sendError_errs _ _ _ (by decide)).quiet
  | submitOperation message =>
    unfold dispatch
    cases hd : session.documentId with
    | none => exact .of_quiet (sendError_errs _ _ _ (by decide)).quiet
    | some documentId =>
      cases hc : session.clientId with
      | none => exact .of_quiet (sendError_errs _ _ _ (by decide)).quiet
      | some clientId =>
        obtain ⟨messageDocument, operation⟩ := message
        simp only
        by_cases hdoc : messageDocument = documentId
        · by_cases hcl : operation.clientId = clientId
          · subst hdoc hcl
            simp only [ne_eq, not_true_eq_false, if_false]
            refine acceptOperation_effect hsession hd hc ?_
            simp only [clientMessageSchema, submitOperationMessageSchema, Bool.and_eq_true] at hschema
            exact hschema.2
          · simp only [hdoc, hcl, ne_eq, not_true_eq_false, not_false_eq_true, if_false, if_true]
            exact .of_quiet (sendError_errs _ _ _ (by decide)).quiet
        · simp only [hdoc, ne_eq, not_false_eq_true, if_true]
          exact .of_quiet (sendError_errs _ _ _ (by decide)).quiet

theorem handleMessage_effect (env : ServerEnv) (w : SyncServer) (socket : SocketId) (frame : Frame) :
    Effect w (handleMessage env w socket frame) (.message socket frame env) := by
  unfold handleMessage
  split
  · exact .of_quiet (QuietlySends.refl w)
  · rename_i session hsession
    split
    · exact .of_quiet (sendError_errs _ _ _ (by decide)).quiet
    · exact .of_quiet (sendError_errs _ _ _ (by decide)).quiet
    · rename_i parsed
      unfold parseClientMessage
      by_cases hschema : clientMessageSchema parsed = true
      · rw [if_pos hschema]
        simp only
        exact dispatch_effect hsession hschema
      · rw [if_neg hschema]
        exact .of_quiet (sendError_errs _ _ _ (by decide)).quiet

/-- **The effect of one event.** -/
theorem handle_effect (w : SyncServer) (e : Event) : Effect w (w.handle e) e := by
  have hsame : ∀ {w' : SyncServer}, e.isMessage = false → w'.store = w.store → w'.sent = w.sent →
      Effect w w' e :=
    fun he hstore hsent => .moved he [] hstore (by rw [hsent, List.append_nil]) fun _ h => by cases h
  cases e with
  | connection socket connectedAt =>
    simp only [handle, record_plain]
    split <;> exact hsame rfl rfl rfl
  | message socket frame env => exact handleMessage_effect env w socket frame
  | closing socket =>
    simp only [handle]
    split <;> exact hsame rfl rfl rfl
  | close socket env =>
    simp only [handle, record_plain]
    split
    · obtain ⟨added, rooms, activeRooms, hleft, hadded⟩ :=
        leaveRoom_effect env (w.setReadyState socket .closed) socket
      rw [hleft]
      refine .moved rfl added rfl rfl fun p hp => ⟨?_, (hadded p hp).2⟩
      have hopen := (hadded p hp).1
      simp only [setReadyState] at hopen
      split at hopen
      · cases hopen
      · exact hopen
    · exact hsame rfl rfl rfl
  | shutDown => exact hsame rfl rfl rfl
  | shutDownDone =>
    simp only [handle]
    split <;> exact hsame rfl rfl rfl

/-! ## Sessions, rooms and sockets -/

/-- The document that a socket has joined. -/
def joinedTo {σ : Type} (w : SyncServer σ) (socket : SocketId) : Option JsString :=
  (w.sessions.get? socket).bind (·.documentId)

def Member (w : SyncServer) (documentId : JsString) (socket : SocketId) : Prop :=
  ∃ room, w.rooms.get? documentId = some room ∧ socket ∈ room

/-- A room holds the sockets that have joined its document, a session belongs to a socket that is
open or was, and every open socket has one. -/
structure RoomInv (w : SyncServer) : Prop where
  member : ∀ d k, w.Member d k ↔ w.joinedTo k = some d
  named : ∀ k d, w.joinedTo k = some d → d ≠ []
  identified : ∀ k session, w.sessions.get? k = some session →
    (session.documentId = none ↔ session.clientId = none)
  connected : ∀ k session, w.sessions.get? k = some session →
    w.readyState k = .opened ∨ w.readyState k = .closing
  opened : ∀ k, w.readyState k = .opened →
    w.closing = false ∧ (w.sessions.get? k).isSome = true

theorem RoomInv.start (store : OperationStore) : RoomInv (start store) where
  member d k := by simp [Member, joinedTo, attach]
  named k d h := by cases h
  identified k session h := by cases h
  connected k session h := by cases h
  opened k h := by cases h

/-- A socket that has joined does not join again. -/
theorem RoomInv.not_new (h : RoomInv w) {k : SocketId} {session : SocketSession} {d : JsString}
    (hsession : w.sessions.get? k = some session) (hjoined : w.joinedTo k = some d) :
    ¬ (session.documentId = none ∨ session.clientId = none) := by
  have hiff := h.identified k session hsession
  unfold joinedTo at hjoined
  rw [hsession, Option.bind_some] at hjoined
  rw [hjoined] at hiff ⊢
  rintro (hnew | hnew)
  · cases hnew
  · cases hiff.2 hnew

theorem RoomInv.congr {w w' : SyncServer} (h : RoomInv w) (hs : SameRooms w w') : RoomInv w' := by
  obtain ⟨hmember, hnamed, hidentified, hconnected, hopened⟩ := h
  obtain ⟨hsessions, hrooms, hready, hclosing⟩ := hs
  simp only [Member, joinedTo, ← hsessions, ← hrooms, ← hready, ← hclosing]
    at hmember hnamed hidentified hconnected hopened
  exact ⟨hmember, hnamed, hidentified, hconnected, hopened⟩

theorem mem_audience (h : RoomInv w) {d : JsString} {k : SocketId} :
    k ∈ w.audience d ↔ w.joinedTo k = some d ∧ w.readyState k = .opened := by
  rw [← h.member]
  unfold audience Member
  cases hr : w.rooms.get? d with
  | none => simp
  | some room =>
    simp only [reachable, List.mem_filter, Bool.and_eq_true, decide_eq_true_eq, Option.some.injEq,
      exists_eq_left', InsSet.mem_def]
    refine ⟨fun hk => ⟨hk.1, hk.2.2⟩, fun hk => ⟨hk.1, (h.opened k hk.2).2, hk.2⟩⟩

theorem audience_nodup (w : SyncServer) (d : JsString) : (w.audience d).Nodup := by
  unfold audience
  split
  · exact List.nodup_nil
  · rename_i room _
    exact room.nodup.filter _

theorem joinedTo_enterRoom (w : SyncServer) (socket k : SocketId) (session : SocketSession)
    (message : JoinMessage) : (w.enterRoom socket session message).joinedTo k =
      if socket = k then some message.documentId else w.joinedTo k := by
  unfold joinedTo enterRoom
  simp only [InsMap.get?_set]
  split <;> rfl

/-- A socket enters the room of the document that it joins. -/
theorem RoomInv.enterRoom (h : RoomInv w) {session : SocketSession} {message : JoinMessage}
    (hsession : w.sessions.get? socket = some session)
    (hnew : session.documentId = none ∨ session.clientId = none)
    (hschema : joinMessageSchema message = true) : RoomInv (w.enterRoom socket session message) := by
  have hdoc : session.documentId = none := by
    rcases hnew with hd | hc
    · exact hd
    · exact (h.identified _ _ hsession).2 hc
  have hunjoined : w.joinedTo socket = none := by
    unfold joinedTo
    rw [hsession]
    exact hdoc
  refine ⟨fun d k => ?_, fun k d hk => ?_, fun k s hs => ?_, fun k s hs => ?_, fun k hk => ?_⟩
  · rw [joinedTo_enterRoom]
    by_cases hd : message.documentId = d
    · -- the room of the message: its members, and the socket
      have hroom : (w.enterRoom socket session message).Member d k ↔ w.Member d k ∨ k = socket := by
        unfold Member SyncServer.enterRoom
        simp only [InsMap.get?_set, hd, if_true, Option.some.injEq, exists_eq_left', InsSet.mem_add]
        cases w.rooms.get? d <;> simp
      rw [hroom, h.member]
      split
      · rename_i hk
        simp [hk, hd]
      · rename_i hk
        simp [Ne.symm hk]
    · have hroom : (w.enterRoom socket session message).Member d k ↔ w.Member d k := by
        unfold Member SyncServer.enterRoom
        simp only [InsMap.get?_set, if_neg hd]
      rw [hroom, h.member]
      split
      · rename_i hk
        rw [← hk, hunjoined]
        simp [hd]
      · rfl
  · rw [joinedTo_enterRoom] at hk
    split at hk
    · cases hk
      intro hnil
      have hbounded := (joinMessageSchema_spec hschema).1
      rw [hnil] at hbounded
      simp [boundedString_iff] at hbounded
    · exact h.named k d hk
  · simp only [SyncServer.enterRoom, InsMap.get?_set] at hs
    split at hs
    · cases hs
      simp [joinSession]
    · exact h.identified k s hs
  · simp only [SyncServer.enterRoom, InsMap.get?_set] at hs
    split at hs
    · rename_i hk
      rw [← hk]
      exact h.connected _ _ hsession
    · exact h.connected k s hs
  · refine ⟨(h.opened k hk).1, ?_⟩
    simp only [SyncServer.enterRoom, InsMap.get?_set]
    split
    · rfl
    · exact (h.opened k hk).2

/-- Leaving takes a socket out of its room, and a room without members away. -/
theorem leaveRoom_member (env : ServerEnv) (hmember : ∀ d k, w.Member d k ↔ w.joinedTo k = some d)
    (hnamed : ∀ k d, w.joinedTo k = some d → d ≠ []) (d : JsString) (k : SocketId) :
    (leaveRoom env w socket).Member d k ↔ w.Member d k ∧ k ≠ socket := by
  have hothers : ∀ d, w.joinedTo socket ≠ some d → (w.Member d k ↔ w.Member d k ∧ k ≠ socket) := by
    intro d hne
    refine ⟨fun hm => ⟨hm, fun hk => ?_⟩, And.left⟩
    rw [hk] at hm
    exact hne ((hmember d socket).1 hm)
  unfold leaveRoom
  split
  · rename_i hj
    apply hothers
    unfold joinedTo
    rw [hj]
    simp
  · rename_i documentId hj
    rw [if_neg (hnamed socket documentId hj)]
    obtain ⟨room, hroom, -⟩ := (hmember documentId socket).2 hj
    rw [hroom]
    simp only
    have hleave : ∀ left : SyncServer, left.rooms = (if (room.delete socket).size = 0 then
        w.rooms.delete documentId else w.rooms.set documentId (room.delete socket)) →
        (left.Member d k ↔ w.Member d k ∧ k ≠ socket) := by
      intro left hleft
      by_cases hd : documentId = d
      · rw [← hd]
        unfold Member
        simp only [hleft, hroom, Option.some.injEq, exists_eq_left']
        split
        · rename_i hsize
          have hnil : ¬ (k ∈ room ∧ k ≠ socket) := by
            rw [← InsSet.mem_delete, InsSet.mem_def, List.length_eq_zero_iff.1 hsize]
            exact List.not_mem_nil
          simp [hnil]
        · simp
      · have hne : w.joinedTo socket ≠ some d := fun hj' => hd (Option.some.inj (hj.symm.trans hj'))
        rw [← hothers d hne]
        unfold Member
        rw [hleft]
        split
        · simp only [InsMap.get?_delete, if_neg hd]
        · simp only [InsMap.get?_set, if_neg hd]
    split
    · exact hleave _ rfl
    · obtain ⟨added, heq, -⟩ := broadcastPresence_quiet env _ _
      rw [heq]
      exact hleave _ rfl

/-- What an event does to the session of a socket. -/
theorem handle_session (w : SyncServer) (e : Event) (k : SocketId) :
    (w.handle e).sessions.get? k = w.sessions.get? k ∨ (w.handle e).sessions.get? k = none ∨
      (w.readyState k = .connecting ∧ (w.handle e).joinedTo k = none) ∨
      ∃ session message env, e = .message k (.message (.join message)) env ∧
        w.sessions.get? k = some session ∧
        (session.documentId = none ∨ session.clientId = none) ∧
        (w.handle e).sessions.get? k = some (joinSession session message) := by
  have hentered : ∀ {socket : SocketId} {session : SocketSession} {message : JoinMessage}
      {env : ServerEnv}, e = .message socket (.message (.join message)) env →
      w.sessions.get? socket = some session →
      (session.documentId = none ∨ session.clientId = none) →
      SameRooms (w.enterRoom socket session message) (w.handle e) →
      (w.handle e).sessions.get? k = w.sessions.get? k ∨ (w.handle e).sessions.get? k = none ∨
        (w.readyState k = .connecting ∧ (w.handle e).joinedTo k = none) ∨
        ∃ session message env, e = .message k (.message (.join message)) env ∧
          w.sessions.get? k = some session ∧
          (session.documentId = none ∨ session.clientId = none) ∧
          (w.handle e).sessions.get? k = some (joinSession session message) := by
    intro socket session message env he hsession hnew hrooms
    rw [hrooms.sessions]
    simp only [enterRoom, InsMap.get?_set]
    by_cases hk : socket = k
    · rw [if_pos hk, ← hk]
      exact Or.inr (Or.inr (Or.inr ⟨session, message, env, he, hsession, hnew, rfl⟩))
    · rw [if_neg hk]
      exact Or.inl rfl
  cases handle_effect w e with
  | moved he =>
    cases e with
    | connection socket connectedAt =>
      simp only [handle, record_plain]
      split
      · exact Or.inl rfl
      · rename_i hnew
        rw [not_or, not_not] at hnew
        simp only [InsMap.get?_set]
        by_cases hk : socket = k
        · refine Or.inr (Or.inr (Or.inl ⟨by rw [← hk]; exact hnew.2, ?_⟩))
          unfold joinedTo
          simp only [InsMap.get?_set, if_pos hk]
          rfl
        · rw [if_neg hk]
          exact Or.inl rfl
    | message socket frame env => cases he
    | closing socket =>
      simp only [handle]
      split <;> exact Or.inl rfl
    | close socket env =>
      simp only [handle, record_plain]
      split
      · obtain ⟨added, rooms, activeRooms, hleft, -⟩ :=
          leaveRoom_effect env (w.setReadyState socket .closed) socket
        rw [hleft]
        simp only [InsMap.get?_delete]
        split
        · exact Or.inr (Or.inl rfl)
        · exact Or.inl rfl
      · exact Or.inl rfl
    | shutDown => exact Or.inl rfl
    | shutDownDone =>
      simp only [handle]
      split
      · exact Or.inr (Or.inl rfl)
      · exact Or.inl rfl
  | quiet added hrooms => rw [hrooms.sessions]; exact Or.inl rfl
  | stalled socket session message env added he hsession hnew hschema hthrows hrooms =>
    exact hentered he hsession hnew hrooms
  | synced socket session message env rest he hsession hnew hschema hcursor hrooms =>
    exact hentered he hsession hnew hrooms
  | echoed socket session documentId item env he hsession hdocument hclient hrooms =>
    rw [hrooms.sessions]
    exact Or.inl rfl
  | appended socket session documentId operation env he hsession hdocument hclient hvalid hschema
      hrooms =>
    rw [hrooms.sessions]
    exact Or.inl rfl

/-- A socket is opened by its connection only, and never connects again. -/
theorem handle_readyState (w : SyncServer) (e : Event) (k : SocketId) :
    ((w.handle e).readyState k = .connecting → w.readyState k = .connecting) ∧
      ((w.handle e).readyState k = .opened →
        w.readyState k = .opened ∨ w.readyState k = .connecting) := by
  have hsame : (w.handle e).readyState k = w.readyState k →
      ((w.handle e).readyState k = .connecting → w.readyState k = .connecting) ∧
        ((w.handle e).readyState k = .opened →
          w.readyState k = .opened ∨ w.readyState k = .connecting) := by
    intro heq
    rw [heq]
    exact ⟨id, Or.inl⟩
  cases handle_effect w e with
  | moved he =>
    cases e with
    | connection socket connectedAt =>
      simp only [handle, record_plain, setReadyState] at hsame ⊢
      split
      · exact ⟨id, Or.inl⟩
      · rename_i hnew
        rw [not_or, not_not] at hnew
        simp only
        split
        · rename_i hk
          rw [hk]
          exact ⟨fun h => by (cases h), fun _ => Or.inr hnew.2⟩
        · exact ⟨id, Or.inl⟩
    | message socket frame env => cases he
    | closing socket =>
      simp only [handle, setReadyState]
      split
      · simp only
        split
        · exact ⟨fun h => by (cases h), fun h => by cases h⟩
        · exact ⟨id, Or.inl⟩
      · exact ⟨id, Or.inl⟩
    | close socket env =>
      simp only [handle, record_plain]
      split
      · obtain ⟨added, rooms, activeRooms, hleft, -⟩ :=
          leaveRoom_effect env (w.setReadyState socket .closed) socket
        rw [hleft]
        simp only [setReadyState]
        split
        · exact ⟨fun h => by (cases h), fun h => by cases h⟩
        · exact ⟨id, Or.inl⟩
      · exact ⟨id, Or.inl⟩
    | shutDown =>
      simp only [handle]
      split
      · exact ⟨fun h => by (cases h), fun h => by cases h⟩
      · exact ⟨id, Or.inl⟩
    | shutDownDone =>
      simp only [handle]
      split <;> exact ⟨id, Or.inl⟩
  | quiet added hrooms => exact hsame (by rw [hrooms.readyState])
  | stalled socket session message env added he hsession hnew hschema hthrows hrooms =>
    exact hsame (by rw [hrooms.readyState]; rfl)
  | synced socket session message env rest he hsession hnew hschema hcursor hrooms =>
    exact hsame (by rw [hrooms.readyState]; rfl)
  | echoed socket session documentId item env he hsession hdocument hclient hrooms =>
    exact hsame (by rw [hrooms.readyState])
  | appended socket session documentId operation env he hsession hdocument hclient hvalid hschema
      hrooms =>
    exact hsame (by rw [hrooms.readyState])

/-- A socket connects. -/
theorem RoomInv.connection (h : RoomInv w) (socket : SocketId) (connectedAt : Int) :
    RoomInv (w.handle (.connection socket connectedAt)) := by
  simp only [handle, record_plain]
  split
  · exact h
  · rename_i hnew
    rw [not_or, not_not] at hnew
    have hnone : w.sessions.get? socket = none := by
      cases hs : w.sessions.get? socket with
      | none => rfl
      | some session =>
        rcases h.connected socket session hs with ho | ho <;>
          · rw [hnew.2] at ho
            cases ho
    have hjoined : ∀ k, (⟨w.store, w.sessions.set socket ⟨connectedAt, none, none, none⟩, w.rooms,
        (w.setReadyState socket .opened).readyState, w.closing, w.activeRooms, w.sent⟩ :
          SyncServer).joinedTo k = w.joinedTo k := by
      intro k
      unfold joinedTo
      simp only [InsMap.get?_set]
      split
      · rename_i hk
        rw [← hk, hnone]
        rfl
      · rfl
    refine ⟨fun d k => ?_, fun k d hk => ?_, fun k s hs => ?_, fun k s hs => ?_, fun k hk => ?_⟩
    · exact (h.member d k).trans (by rw [← hjoined k]; rfl)
    · exact h.named k d ((hjoined k).symm.trans hk)
    · simp only [InsMap.get?_set] at hs
      split at hs
      · cases hs
        exact ⟨fun _ => rfl, fun _ => rfl⟩
      · exact h.identified k s hs
    · simp only [InsMap.get?_set] at hs
      simp only [setReadyState]
      split at hs
      · rename_i hk
        exact Or.inl (if_pos hk.symm)
      · rename_i hk
        rw [if_neg (Ne.symm hk)]
        exact h.connected k s hs
    · simp only [setReadyState] at hk ⊢
      refine ⟨by simpa using hnew.1, ?_⟩
      simp only [InsMap.get?_set]
      split
      · rfl
      · rename_i hne
        rw [if_neg (Ne.symm hne)] at hk
        exact (h.opened k hk).2

/-- A socket is closed: it leaves its room, and its session is deleted. -/
theorem RoomInv.close (h : RoomInv w) (socket : SocketId) (env : ServerEnv) :
    RoomInv (w.handle (.close socket env)) := by
  simp only [handle, record_plain]
  split
  · -- the session is looked up before it is deleted
    obtain ⟨added, rooms, activeRooms, hleft, -⟩ :=
      leaveRoom_effect env (w.setReadyState socket .closed) socket
    have hmember := fun d k => @leaveRoom_member (w.setReadyState socket .closed) socket env
      h.member h.named d k
    rw [hleft] at hmember ⊢
    have hjoined : ∀ k, (⟨w.store, w.sessions.delete socket, rooms,
        (w.setReadyState socket .closed).readyState, w.closing, activeRooms, w.sent ++ added⟩ :
          SyncServer).joinedTo k = if socket = k then none else w.joinedTo k := by
      intro k
      unfold joinedTo
      simp only [InsMap.get?_delete]
      split <;> rfl
    refine ⟨fun d k => ?_, fun k d hk => ?_, fun k s hs => ?_, fun k s hs => ?_, fun k hk => ?_⟩
    · refine (hmember d k).trans ?_
      show w.Member d k ∧ k ≠ socket ↔ _
      rw [h.member]
      refine Iff.trans ?_ (Eq.to_iff (congrArg (· = some d) (hjoined k).symm))
      split
      · rename_i hk
        simp [hk]
      · rename_i hk
        simp [Ne.symm hk]
    · have hk := (hjoined k).symm.trans hk
      split at hk
      · cases hk
      · exact h.named k d hk
    · simp only [setReadyState, InsMap.get?_delete] at hs
      split at hs
      · cases hs
      · exact h.identified k s hs
    · simp only [setReadyState, InsMap.get?_delete] at hs ⊢
      split at hs
      · cases hs
      · rename_i hne
        rw [if_neg (Ne.symm hne)]
        exact h.connected k s hs
    · simp only [setReadyState, InsMap.get?_delete] at hk ⊢
      split at hk
      · cases hk
      · rename_i hne
        rw [if_neg (Ne.symm hne)]
        exact h.opened k hk
  · exact h

theorem RoomInv.moved (h : RoomInv w) {e : Event} (he : e.isMessage = false) :
    RoomInv (w.handle e) := by
  cases e with
  | connection socket connectedAt => exact h.connection socket connectedAt
  | message socket frame env => cases he
  | closing socket =>
    simp only [handle]
    split
    · rename_i hopen
      refine ⟨h.member, h.named, h.identified, fun k s hs => ?_, fun k hk => ?_⟩
      · simp only [setReadyState]
        split
        · exact Or.inr rfl
        · exact h.connected k s hs
      · simp only [setReadyState] at hk
        split at hk
        · cases hk
        · exact h.opened k hk
    · exact h
  | close socket env => exact h.close socket env
  | shutDown =>
    refine ⟨h.member, h.named, h.identified, fun k s hs => ?_, fun k hk => ?_⟩
    · simp only [handle]
      split
      · exact Or.inr rfl
      · exact h.connected k s hs
    · simp only [handle] at hk
      split at hk
      · cases hk
      · contradiction
  | shutDownDone =>
    simp only [handle]
    split
    · rename_i hclosing
      refine ⟨fun d k => ?_, fun k d hk => by (cases hk), fun k s hs => by (cases hs),
        fun k s hs => by (cases hs), fun k hk => ?_⟩
      · simp [Member, joinedTo]
      · have hopen := (h.opened k hk).1
        rw [hclosing] at hopen
        cases hopen
    · exact h

theorem RoomInv.handle (h : RoomInv w) (e : Event) : RoomInv (w.handle e) := by
  cases handle_effect w e with
  | moved he => exact h.moved he
  | quiet added hrooms => exact h.congr hrooms
  | stalled socket session message env added he hsession hnew hschema hthrows hrooms =>
    exact (h.enterRoom hsession hnew hschema).congr hrooms
  | synced socket session message env rest he hsession hnew hschema hcursor hrooms =>
    exact (h.enterRoom hsession hnew hschema).congr hrooms
  | echoed socket session documentId item env he hsession hdocument hclient hrooms =>
    exact h.congr hrooms
  | appended socket session documentId operation env he hsession hdocument hclient hvalid hschema
      hrooms =>
    exact h.congr hrooms

/-! ## The invariant -/

/-- What a message says of the log of its document. -/
def Describes (store : OperationStore) : ServerMessage → Prop
  | .sync m => ∃ cursor, store.Describes cursor m
  | .operation m => ⟨m.serverSeq, m.operation⟩ ∈ store.log m.documentId
  | .presence _ => True
  | .error _ => True

theorem Quiet.describes {store : OperationStore} : ∀ {m : ServerMessage}, Quiet m → Describes store m
  | .presence _, _ => trivial
  | .error _, _ => trivial

/-- The invariant of the server: its log, its cached snapshots, its rooms, and the messages that
it has sent. -/
structure Inv (w : SyncServer) : Prop where
  log : w.store.LogInv
  cache : w.store.CacheInv
  rooms : RoomInv w
  sent : ∀ p ∈ w.sent, w.readyState p.1 ≠ .connecting ∧ Describes w.store p.2
  silent : ∀ p ∈ w.sent, (w.sessions.get? p.1).isSome = true → w.joinedTo p.1 = none → Quiet p.2

theorem Inv.start {store : OperationStore} (h : store.Reachable) : Inv (start store) where
  log := h.inv.1
  cache := h.inv.2
  rooms := .start store
  sent p hp := by cases hp
  silent p hp := by cases hp

theorem Describes.insertOperation {store : OperationStore} (documentId : JsString)
    (operation : TextOperation) : ∀ {m : ServerMessage}, Describes store m →
      Describes (store.insertOperation documentId operation) m
  | .sync _, ⟨cursor, h⟩ => ⟨cursor, h.insertOperation documentId operation⟩
  | .operation m, h => by
    have h : _ ∈ store.log m.documentId := h
    show _ ∈ (store.insertOperation documentId operation).log m.documentId
    rw [OperationStore.log_insertOperation]
    split
    · exact List.mem_append_left _ h
    · exact h
  | .presence _, _ => trivial
  | .error _, _ => trivial

theorem Describes.congr {store store' : OperationStore} (hops : store'.operations = store.operations)
    (hseq : store'.lastServerSeq = store.lastServerSeq) {m : ServerMessage} (h : Describes store m) :
    Describes store' m := by
  have hlog : store'.log = store.log := by
    funext d
    unfold OperationStore.log
    rw [hops]
  cases m with
  | sync m =>
    obtain ⟨cursor, hlatest, hhistory, hbootstrap⟩ := h
    refine ⟨cursor, ?_, ?_, ?_⟩
    · rw [hseq]; exact hlatest
    · rw [hlog]; exact hhistory
    · rw [hlog]; exact hbootstrap
  | operation m =>
    show _ ∈ store'.log m.documentId
    rw [hlog]
    exact h
  | presence m => trivial
  | error m => trivial

/-- A session that is left without a document was so before, unless its socket has just connected. -/
theorem unjoined_of_handle {w : SyncServer} {e : Event} {k : SocketId}
    (hready : w.readyState k ≠ .connecting)
    (hsession : ((w.handle e).sessions.get? k).isSome = true)
    (hjoined : (w.handle e).joinedTo k = none) :
    (w.sessions.get? k).isSome = true ∧ w.joinedTo k = none := by
  unfold joinedTo at hjoined ⊢
  rcases handle_session w e k with heq | heq | heq | ⟨session, message, env, -, -, -, heq⟩
  · rw [heq] at hsession hjoined
    exact ⟨hsession, hjoined⟩
  · rw [heq] at hsession
    cases hsession
  · exact absurd heq.1 hready
  · rw [heq] at hjoined
    cases hjoined

/-- **What one event does to the store**, to what was said of it, and to whom it speaks. -/
structure Speaks (w w' : SyncServer) : Prop where
  log : w'.store.LogInv
  cache : w'.store.CacheInv
  grows : w.store.lastServerSeq ≤ w'.store.lastServerSeq
  part : ∀ d after through, through ≤ w.store.lastServerSeq →
    between SequencedOperation.serverSeq after through (w'.store.log d) =
      between SequencedOperation.serverSeq after through (w.store.log d)
  kept : ∀ m, Describes w.store m → Describes w'.store m
  sent : ∃ added, w'.sent = w.sent ++ added ∧ ∀ p ∈ added, w.readyState p.1 = .opened ∧
    Describes w'.store p.2 ∧ (Quiet p.2 ∨ w'.joinedTo p.1 ≠ none)

theorem mem_addressed {σ : Type} {w : SyncServer σ} {socket : SocketId} {message : ServerMessage}
    {p : SocketId × ServerMessage} (hp : p ∈ w.addressed socket message) :
    p = (socket, message) ∧ w.readyState socket = .opened := by
  unfold addressed at hp
  split at hp
  · rename_i ho
    exact ⟨List.mem_singleton.1 hp, ho⟩
  · cases hp

theorem Inv.speaks (h : Inv w) (e : Event) : Speaks w (w.handle e) := by
  -- an event that leaves the store as it is and speaks quietly
  have hquiet : ∀ {added : List (SocketId × ServerMessage)}, (w.handle e).store = w.store →
      (w.handle e).sent = w.sent ++ added →
      (∀ p ∈ added, w.readyState p.1 = .opened ∧ Quiet p.2) → Speaks w (w.handle e) := by
    intro added hstore hsent hadded
    refine ⟨?_, ?_, ?_, fun _ _ _ _ => ?_, fun m hm => ?_, added, hsent, fun p hp => ?_⟩
    · rw [hstore]; exact h.log
    · rw [hstore]; exact h.cache
    · rw [hstore]
    · rw [hstore]
    · rw [hstore]; exact hm
    · obtain ⟨hopen, hq⟩ := hadded p hp
      exact ⟨hopen, hq.describes, Or.inl hq⟩
  cases handle_effect w e with
  | moved he added hstore hsent hadded => exact hquiet hstore hsent hadded
  | quiet added hrooms hstore hsent hadded => exact hquiet hstore hsent hadded
  | stalled socket session message env added he hsession hnew hschema hthrows hrooms hstore hsent
      hadded => exact hquiet hstore hsent hadded
  | synced socket session message env rest he hsession hnew hschema hcursor hrooms hstore hsent
      hrest =>
    obtain ⟨hsyncs, hcache, hops, hseq⟩ := OperationStore.buildSyncMessage_spec h.log h.cache
      env.rowWritten message.documentId message.lastServerSeq
      (hasSnapshotBootstrapCapability message.capabilities)
    rw [← hstore] at hcache hops hseq
    refine ⟨h.log.congr hops hseq, hcache, hseq.ge, fun _ _ _ _ => ?_,
      fun m hm => hm.congr hops hseq, _, hsent, fun p hp => ?_⟩
    · unfold OperationStore.log
      rw [hops]
    rcases List.mem_append.1 hp with hp | hp
    · obtain ⟨rfl, hopen⟩ := mem_addressed hp
      refine ⟨hopen, ?_, Or.inr ?_⟩
      · exact Describes.congr hops hseq ⟨_, hsyncs.describes h.log⟩
      · show ((w.handle e).sessions.get? socket).bind _ ≠ none
        rw [hrooms.sessions]
        simp [enterRoom, joinSession]
    · obtain ⟨hopen, hq⟩ := hrest p hp
      exact ⟨hopen, hq.describes, Or.inl hq⟩
  | echoed socket session documentId item env he hsession hdocument hclient hrooms hitem hstore
      hsent =>
    refine ⟨?_, ?_, ?_, fun _ _ _ _ => ?_, fun m hm => ?_, _, hsent, fun p hp => ?_⟩
    · rw [hstore]; exact h.log
    · rw [hstore]; exact h.cache
    · rw [hstore]
    · rw [hstore]
    · rw [hstore]; exact hm
    · obtain ⟨rfl, hopen⟩ := mem_addressed hp
      refine ⟨hopen, ?_, Or.inr ?_⟩
      · rw [hstore]; exact hitem
      · unfold joinedTo
        rw [hrooms.sessions, hsession]
        simp [hdocument]
  | appended socket session documentId operation env he hsession hdocument hclient hvalid hschema
      hrooms hnew hstore hsent =>
    refine ⟨?_, ?_, ?_, fun _ _ _ hle => ?_, fun m hm => ?_, _, hsent, fun p hp => ?_⟩
    · rw [hstore]; exact h.log.insertOperation hvalid hnew
    · rw [hstore]; exact h.cache.insertOperation h.log _ _
    · rw [hstore]
      show w.store.lastServerSeq ≤ w.store.lastServerSeq + 1
      omega
    · rw [hstore]; exact OperationStore.between_insertOperation _ _ _ hle
    · rw [hstore]; exact hm.insertOperation _ _
    · obtain ⟨peer, hpeer, rfl⟩ := List.mem_map.1 hp
      obtain ⟨hjoined, hopen⟩ := (mem_audience h.rooms).1 hpeer
      refine ⟨hopen, ?_, Or.inr ?_⟩
      · show _ ∈ (w.handle e).store.log documentId
        rw [hstore, OperationStore.log_insertOperation, if_pos rfl]
        exact List.mem_append_right _ (List.mem_singleton.2 rfl)
      · unfold joinedTo at hjoined ⊢
        rw [hrooms.sessions, hjoined]
        simp

/-- **The invariant is kept by every event.** -/
theorem Inv.handle (h : Inv w) (e : Event) : Inv (w.handle e) := by
  obtain ⟨hlog, hcache, -, -, hkept, added, hsent, hadded⟩ := h.speaks e
  refine ⟨hlog, hcache, h.rooms.handle e, fun p hp => ?_, fun p hp hsession hjoined => ?_⟩
  · have hready := (handle_readyState w e p.1).1
    rw [hsent] at hp
    rcases List.mem_append.1 hp with hp | hp
    · obtain ⟨hne, hd⟩ := h.sent p hp
      exact ⟨fun hc => hne (hready hc), hkept _ hd⟩
    · obtain ⟨hopen, hd, -⟩ := hadded p hp
      refine ⟨fun hc => ?_, hd⟩
      rw [hready hc] at hopen
      cases hopen
  · rw [hsent] at hp
    rcases List.mem_append.1 hp with hp | hp
    · obtain ⟨hsession, hjoined⟩ := unjoined_of_handle (h.sent p hp).1 hsession hjoined
      exact h.silent p hp hsession hjoined
    · rcases (hadded p hp).2.2 with hq | hne
      · exact hq
      · exact absurd hjoined hne

/-- **The invariant holds in every run.** -/
theorem Inv.run : ∀ {w : SyncServer} (es : List Event), Inv w → Inv (w.run es)
  | _, [], h => h
  | _, e :: es, h => (h.handle e).run es

theorem run_inv {store : OperationStore} (h : store.Reachable) (es : List Event) :
    Inv ((SyncServer.start store).run es) := (Inv.start h).run es

end SyncServer

end LocalFirst
