import LocalFirst.Crdt.Identity
import LocalFirst.Server.JoinAtomic
import LocalFirst.Server.Speech
import LocalFirst.Server.Sqlite

/-!
# Whose an operation is

The id of an operation names the client that made it, and the server appends an operation only for
a session that has joined as this client.  But the database keeps the id in UTF-8, and so under the
name of another client where the name of this one is not well formed.

* `MadeBy.unique` — an id names one client.
* `utf8_madeBy_iff` — the id as it is kept names the same client exactly if the name is well formed.
* `new_row` — the submit behind a row that an event adds.
* `run_joinedAs` — the join behind the client of a session.
* `forged_iff` — a session appends a row under the name of another client exactly if its own is not
  well formed.
* `forged_surrogate` — and one does.
-/

set_option autoImplicit false

namespace LocalFirst

/-- An id that the client makes. -/
def MadeBy (clientId opId : JsString) : Prop :=
  ∃ counter : Int, 1 ≤ counter ∧ counter ≤ MAX_SAFE_INTEGER ∧ opId = makeOperationId clientId counter

theorem ValidOperation.madeBy {op : TextOperation} (h : ValidOperation op) :
    MadeBy op.clientId op.opId := by
  obtain ⟨-, ⟨hpos, hsafe⟩, -, hid, -⟩ := validateOperation_iff.1 h
  exact ⟨op.counter, hpos, hsafe, hid⟩

/-- An id names one client. -/
theorem MadeBy.unique {c c' opId : JsString} (h : MadeBy c opId) (h' : MadeBy c' opId) : c = c' := by
  obtain ⟨counter, hpos, -, heq⟩ := h
  obtain ⟨counter', hpos', -, heq'⟩ := h'
  exact (makeOperationId_inj (by omega) (by omega) (heq.symm.trans heq')).1

/-! ## The id as it is kept -/

/-- Only the name of the client can change. -/
theorem utf8_makeOperationId (clientId : JsString) (counter : Int) :
    utf8 (makeOperationId clientId counter) = makeOperationId (utf8 clientId) counter := by
  have hcolon : js ":" = [(58 : CodeUnit)] := by decide
  have hlow : ¬ isLowSurrogate 58 = true := by decide
  have hhigh : ¬ isHighSurrogate 58 = true := by decide
  unfold makeOperationId utf8
  rw [hcolon, List.append_assoc, List.append_assoc, List.singleton_append,
    Json.toWellFormed_append clientId hlow, Json.toWellFormed.eq_def (58 :: _)]
  simp only [if_neg hhigh, if_neg hlow, Json.toWellFormed_eq (decimal_wellFormed counter)]

theorem MadeBy.utf8 {c opId : JsString} (h : MadeBy c opId) :
    MadeBy (LocalFirst.utf8 c) (LocalFirst.utf8 opId) := by
  obtain ⟨counter, hpos, hsafe, rfl⟩ := h
  exact ⟨counter, hpos, hsafe, utf8_makeOperationId c counter⟩

/-- **The id as it is kept is the same client's exactly if the name of the client is well formed.** -/
theorem utf8_madeBy_iff {c opId : JsString} (h : MadeBy c opId) :
    MadeBy c (utf8 opId) ↔ Json.wellFormed c = true := by
  constructor
  · intro hkept
    exact Json.toWellFormed_eq_iff.1 (h.utf8.unique hkept)
  · intro hc
    have hkept := h.utf8
    rwa [utf8_eq hc] at hkept

/-! ## What the database is written -/

namespace SqliteDatabase

variable {db db' : SqliteDatabase}

theorem rows_tryBuildSnapshot {rowWritten : Bool} {documentId : JsString} {barrier : Int}
    {payload : Option ServerSnapshotPayload}
    (h : db.tryBuildSnapshot rowWritten documentId barrier = .ok (payload, db')) :
    db'.rows = db.rows := by
  unfold tryBuildSnapshot at h
  split at h
  · cases h
  · split at h
    · cases h
      rfl
    · split at h <;> cases h <;> rfl

theorem rows_prepareSnapshotBootstrap {rowWritten : Bool} {documentId : JsString} {barrier : Int}
    {payload : Option ServerSnapshotPayload}
    (h : db.prepareSnapshotBootstrap rowWritten documentId barrier = .ok (payload, db')) :
    db'.rows = db.rows := by
  unfold prepareSnapshotBootstrap at h
  simp only at h
  split at h
  · cases h
    rfl
  · split at h
    · split at h
      · cases h
        rfl
      · exact rows_tryBuildSnapshot h
    · split at h
      · split at h
        · cases h
        · rename_i built hbuilt
          cases h
          exact rows_tryBuildSnapshot hbuilt
      · cases h
        rfl

/-- A sync message adds no row. -/
theorem rows_buildSyncMessage {rowWritten : Bool} {documentId : JsString} {lastServerSeq : Int}
    {snapshotCapable : Bool} {m : SyncMessage}
    (h : db.buildSyncMessage rowWritten documentId lastServerSeq snapshotCapable = .ok (m, db')) :
    db'.rows = db.rows := by
  have hread : ∀ {v : SqliteDatabase} {answer : Except JsError SyncMessage},
      answer.map (fun message => (message, v)) = .ok (m, db') → db' = v := by
    intro v answer hanswer
    cases answer with
    | error e => cases hanswer
    | ok message =>
      cases hanswer
      rfl
  unfold buildSyncMessage at h
  simp only at h
  split at h
  · rw [hread h]
  · split at h
    · cases h
    · rename_i v hprepared
      rw [hread h]
      exact rows_prepareSnapshotBootstrap hprepared
    · rename_i bootstrap v hprepared
      have hsame : db' = v := by
        cases hsuffix : v.loadOperationsAfter documentId bootstrap.snapshotSeq
          (db.getLatestServerSeq documentId) with
        | error e =>
          rw [hsuffix] at h
          cases h
        | ok suffix =>
          rw [hsuffix] at h
          cases h
          rfl
      rw [hsame]
      exact rows_prepareSnapshotBootstrap hprepared

/-- An append adds one row, or none. -/
theorem appendOperation_spec {documentId : JsString} {operation : TextOperation}
    {result : AppendOperationResult}
    (h : db.appendOperation documentId operation = .ok (result, db')) :
    ValidOperation operation ∧ (db' = db ∨ db' = db.insertOperation documentId operation) := by
  unfold appendOperation at h
  split at h
  · cases h
  · rename_i hvalid
    refine ⟨hvalid, ?_⟩
    split at h
    · split at h
      · cases h
      · split at h
        · cases h
        · cases h
          exact Or.inl rfl
    · cases h
      exact Or.inr rfl

end SqliteDatabase

namespace SyncServer

variable {w w' v : SyncServer SqliteDatabase} {e : Event} {k : SocketId} {d c : JsString}

/-- The sessions and the rows are the same. -/
structure Untouched (w w' : SyncServer SqliteDatabase) : Prop where
  sessions : w'.sessions = w.sessions
  rows : w'.store.rows = w.store.rows

namespace Untouched

theorem refl (w : SyncServer SqliteDatabase) : Untouched w w := ⟨rfl, rfl⟩

theorem trans (h : Untouched w w') (h' : Untouched w' v) : Untouched w v :=
  ⟨h'.sessions.trans h.sessions, h'.rows.trans h.rows⟩

theorem sendJson (w : SyncServer SqliteDatabase) (k : SocketId) (message : ServerMessage) :
    Untouched w (w.sendJson k message) := by
  rw [sendJson_eq]
  exact ⟨rfl, rfl⟩

theorem broadcast (w : SyncServer SqliteDatabase) (d : JsString) (message : OperationMessage) :
    Untouched w (w.broadcast d message) := by
  rw [broadcast_eq]
  exact ⟨rfl, rfl⟩

theorem broadcastPresence (env : ServerEnv) (w : SyncServer SqliteDatabase) (d : JsString) :
    Untouched w (broadcastPresence env w d) := by
  rw [broadcastPresence_eq]
  exact ⟨rfl, rfl⟩

theorem recordProtocolError (w : SyncServer SqliteDatabase) (k : SocketId)
    (code message : JsString) : Untouched w (w.recordProtocolError k code message) :=
  .sendJson w k _

theorem caught (k : SocketId) (done : SyncServer SqliteDatabase × Except JsError Unit) :
    Untouched done.1 (caught k done) := by
  obtain ⟨w, outcome⟩ := done
  cases outcome with
  | error e =>
    show Untouched w (w.sendCaughtError k e)
    unfold sendCaughtError
    split
    · exact .sendJson w k _
    · exact .recordProtocolError w k _ _
    · exact .sendJson w k _
  | ok u => exact .refl w

theorem sendSync {env : ServerEnv} {message : JoinMessage}
    (h : sendSync env w k message = .ok w') : Untouched w w' := by
  unfold SyncServer.sendSync at h
  split at h
  · cases h
  · rename_i m db hbuilt
    cases h
    have hstored : Untouched w { w with store := db } :=
      ⟨rfl, SqliteDatabase.rows_buildSyncMessage hbuilt⟩
    exact hstored.trans (.sendJson { w with store := db } k _)

end Untouched

/-- What a message of a session has done to the sessions and the rows. -/
inductive Wrote (w w' : SyncServer SqliteDatabase) (k : SocketId) (session : SocketSession)
    (message : ClientMessage) : Prop
  | nothing (h : Untouched w w')
  | joined (m : JoinMessage) (hmessage : message = .join m)
      (h : Untouched (w.enterRoom k session m) w')
  | appended (m : SubmitOperationMessage) (hmessage : message = .submitOperation m)
      (hdocument : session.documentId = some m.documentId)
      (hclient : session.clientId = some m.operation.clientId) (hvalid : ValidOperation m.operation)
      (h : Untouched { w with store := w.store.insertOperation m.documentId m.operation } w')

section

variable (env : ServerEnv) (w : SyncServer SqliteDatabase) (k : SocketId) (session : SocketSession)

theorem joinSocket_wrote (message : JoinMessage) :
    Wrote w (joinSocket env w k session message).1 k session (.join message) := by
  have hentered : ∀ {v}, Untouched (w.enterRoom k session message) v →
      Wrote w v k session (.join message) := fun h => .joined message rfl h
  unfold joinSocket
  cases env.latestThrows with
  | some e => exact .nothing (.refl w)
  | none =>
    simp only
    split
    · exact .nothing (.recordProtocolError w k _ _)
    · cases env.syncThrows with
      | some e => exact hentered (.refl _)
      | none =>
        simp only
        split
        · exact hentered (.refl _)
        · rename_i synced hsynced
          exact hentered ((Untouched.sendSync hsynced).trans (.broadcastPresence env synced _))

theorem acceptOperation_wrote {m : SubmitOperationMessage}
    (hdocument : session.documentId = some m.documentId)
    (hclient : session.clientId = some m.operation.clientId) :
    Wrote w (acceptOperation env w k session m.operation).1 k session (.submitOperation m) := by
  unfold acceptOperation
  simp only [hdocument]
  cases validateOperation m.operation with
  | error e => exact .nothing (.refl w)
  | ok u =>
    cases env.appendThrows with
    | some e => exact .nothing (.refl w)
    | none =>
      simp only
      split
      · exact .nothing (.refl w)
      · rename_i result db happended
        obtain ⟨hvalid, hstored⟩ := SqliteDatabase.appendOperation_spec happended
        have hwrote : ∀ {v}, Untouched { w with store := db } v →
            Wrote w v k session (.submitOperation m) := by
          intro v h
          rcases hstored with rfl | rfl
          · exact .nothing h
          · exact .appended m rfl hdocument hclient hvalid h
        split
        · exact hwrote (.sendJson _ k _)
        · exact hwrote (.broadcast _ _ _)

theorem dispatch_wrote (message : ClientMessage) :
    Wrote w (dispatch env w k session message).1 k session message := by
  have hrefused : ∀ code text, Wrote w (w.recordProtocolError k code text) k session message :=
    fun code text => .nothing (.recordProtocolError w k code text)
  unfold dispatch
  cases message with
  | join m =>
    cases session.documentId with
    | none => exact joinSocket_wrote env w k session m
    | some documentId =>
      cases session.clientId with
      | none => exact joinSocket_wrote env w k session m
      | some clientId => exact hrefused _ _
  | submitOperation m =>
    cases hdocument : session.documentId with
    | none => exact hrefused _ _
    | some documentId =>
      cases hclient : session.clientId with
      | none => exact hrefused _ _
      | some clientId =>
        simp only
        split
        · exact hrefused _ _
        · rename_i hsame
          split
          · exact hrefused _ _
          · rename_i hown
            rw [not_not] at hsame hown
            exact acceptOperation_wrote env w k session (by rw [hdocument, hsame])
              (by rw [hclient, hown])

/-- **What a message does to the sessions and the rows.** -/
theorem handleMessage_wrote (frame : Frame) :
    Untouched w (handleMessage env w k frame) ∨
      ∃ session message, frame = .message message ∧ w.sessions.get? k = some session ∧
        Wrote w (handleMessage env w k frame) k session message := by
  unfold handleMessage
  cases w.sessions.get? k with
  | none => exact Or.inl (.refl w)
  | some session =>
    cases frame with
    | notJson => exact Or.inl (.recordProtocolError w k _ _)
    | malformed => exact Or.inl (.recordProtocolError w k _ _)
    | message parsed =>
      simp only
      unfold parseClientMessage
      split
      · exact Or.inl (.recordProtocolError w k _ _)
      · rename_i message hparsed
        obtain rfl : parsed = message := by
          split at hparsed
          · exact Option.some.inj hparsed
          · cases hparsed
        refine Or.inr ⟨session, parsed, rfl, rfl, ?_⟩
        have hcaught := Untouched.caught k (dispatch env w k session parsed)
        cases dispatch_wrote env w k session parsed with
        | nothing h => exact .nothing (h.trans hcaught)
        | joined m hmessage h => exact .joined m hmessage (h.trans hcaught)
        | appended m hmessage hdocument hclient hvalid h =>
          exact .appended m hmessage hdocument hclient hvalid (h.trans hcaught)

end

/-! ## Sessions -/

/-- A join on the socket is among the events. -/
def JoinedAs (es : List Event) (socket : SocketId) (documentId clientId : JsString) : Prop :=
  ∃ message env, .message socket (.message (.join message)) env ∈ es ∧
    message.documentId = documentId ∧ message.clientId = clientId

theorem JoinedAs.snoc {es : List Event} (h : JoinedAs es k d c) (e : Event) :
    JoinedAs (es ++ [e]) k d c := by
  obtain ⟨message, env, hmem, hids⟩ := h
  exact ⟨message, env, List.mem_append_left _ hmem, hids⟩

/-- A session has the document and the client that it had, or those of a join. -/
theorem handle_identity {session : SocketSession}
    (hsession : (w.handle e).sessions.get? k = some session) (hdocument : session.documentId = some d)
    (hclient : session.clientId = some c) :
    w.sessions.get? k = some session ∨ JoinedAs [e] k d c := by
  cases e with
  | connection socket connectedAt =>
    simp only [handle] at hsession
    split at hsession
    · exact Or.inl hsession
    · have hget : (w.sessions.set socket ⟨connectedAt, none, none, none⟩).get? k = some session :=
        hsession
      rw [InsMap.get?_set] at hget
      split at hget
      · cases hget
        cases hdocument
      · exact Or.inl hget
  | message socket frame env =>
    rcases handleMessage_wrote env w socket frame with h | ⟨old, message, rfl, hold, h⟩
    · exact Or.inl ((congrArg (·.get? k) h.sessions).symm.trans hsession)
    · cases h with
      | nothing h => exact Or.inl ((congrArg (·.get? k) h.sessions).symm.trans hsession)
      | appended m hmessage hdocument' hclient' hvalid h =>
        exact Or.inl ((congrArg (·.get? k) h.sessions).symm.trans hsession)
      | joined m hmessage h =>
        have hget : (w.sessions.set socket (joinSession old m)).get? k = some session :=
          (congrArg (·.get? k) h.sessions).symm.trans hsession
        rw [InsMap.get?_set] at hget
        split at hget
        · rename_i hk
          cases hget
          cases hdocument
          cases hclient
          rw [← hk, hmessage]
          exact Or.inr ⟨m, env, List.mem_singleton.2 rfl, rfl, rfl⟩
        · exact Or.inl hget
  | closing socket =>
    simp only [handle] at hsession
    split at hsession <;> exact Or.inl hsession
  | close socket env =>
    simp only [handle] at hsession
    split at hsession
    · obtain ⟨added, rooms, activeRooms, hleft, -⟩ :=
        leaveRoom_effect env (w.setReadyState socket .closed) socket
      rw [hleft] at hsession
      have hget : (w.sessions.delete socket).get? k = some session := hsession
      rw [InsMap.get?_delete] at hget
      split at hget
      · cases hget
      · exact Or.inl hget
    · exact Or.inl hsession
  | shutDown => exact Or.inl hsession
  | shutDownDone =>
    simp only [handle] at hsession
    split at hsession
    · cases hsession
    · exact Or.inl hsession

/-- **The client of a session is the one that has joined on its socket.** -/
theorem run_joinedAs (db : SqliteDatabase) (es : List Event) {session : SocketSession}
    (hsession : ((attach db).run es).sessions.get? k = some session)
    (hdocument : session.documentId = some d) (hclient : session.clientId = some c) :
    JoinedAs es k d c := by
  induction es using List.reverseRecOn with
  | nil => cases hsession
  | append_singleton es e ih =>
    rw [run_eq, Runs.run_snoc, ← run_eq] at hsession
    rcases handle_identity hsession hdocument hclient with hold | ⟨message, env, hmem, hids⟩
    · exact (ih hold).snoc e
    · exact ⟨message, env, List.mem_append_right _ hmem, hids⟩

/-! ## Rows -/

/-- Sockets that come and go write no row. -/
theorem rows_moved (he : e.isMessage = false) : (w.handle e).store.rows = w.store.rows := by
  cases e with
  | connection socket connectedAt =>
    simp only [handle]
    split <;> rfl
  | message socket frame env => cases he
  | closing socket =>
    simp only [handle]
    split <;> rfl
  | close socket env =>
    simp only [handle]
    split
    · obtain ⟨added, rooms, activeRooms, hleft, -⟩ :=
        leaveRoom_effect env (w.setReadyState socket .closed) socket
      rw [hleft]
      rfl
    · rfl
  | shutDown => rfl
  | shutDownDone =>
    simp only [handle]
    split <;> rfl

/-- **The submit behind a new row**: its session is in the document of the row, as the client of
its operation. -/
theorem new_row {row : SqliteOperationRow} (hrow : row ∈ (w.handle e).store.rows)
    (hnew : row ∉ w.store.rows) : ∃ socket env session m,
      e = .message socket (.message (.submitOperation m)) env ∧
      w.sessions.get? socket = some session ∧ session.documentId = some m.documentId ∧
      session.clientId = some m.operation.clientId ∧ ValidOperation m.operation ∧
      row = ⟨w.store.sequence + 1, utf8 m.documentId, utf8 m.operation.opId,
        utf8 (operationText m.operation)⟩ := by
  have hsame : (w.handle e).store.rows ≠ w.store.rows := by
    intro heq
    rw [heq] at hrow
    exact hnew hrow
  cases e with
  | message socket frame env =>
    rcases handleMessage_wrote env w socket frame with h | ⟨session, message, rfl, hsession, h⟩
    · exact absurd h.rows hsame
    · cases h with
      | nothing h => exact absurd h.rows hsame
      | joined m hmessage h => exact absurd h.rows hsame
      | appended m hmessage hdocument hclient hvalid h =>
        have hrow : row ∈ (handleMessage env w socket (.message message)).store.rows := hrow
        rw [h.rows] at hrow
        rcases List.mem_append.1 hrow with hold | hadded
        · exact absurd hold hnew
        · exact ⟨socket, env, session, m, by rw [hmessage], hsession, hdocument, hclient, hvalid,
            List.mem_singleton.1 hadded⟩
  | connection socket connectedAt => exact absurd (rows_moved rfl) hsame
  | closing socket => exact absurd (rows_moved rfl) hsame
  | close socket env => exact absurd (rows_moved rfl) hsame
  | shutDown => exact absurd (rows_moved rfl) hsame
  | shutDownDone => exact absurd (rows_moved rfl) hsame

/-- **Operation identities are one client's each, and a session appends a row under the name of
another client exactly if its own is not well formed.**  The row has the name of the client that its
own is kept as. -/
theorem forged_iff (db : SqliteDatabase) (es : List Event) (e : Event) :
    (∀ a b : TextOperation, validateOperation a = .ok () → validateOperation b = .ok () →
      a.opId = b.opId → a.clientId = b.clientId ∧ a.counter = b.counter) ∧
    (∀ a : TextOperation, validateOperation a = .ok () → a.opId ≠ ROOT_ID) ∧
    ∀ row : SqliteOperationRow,
      row ∈ (((attach db).run es).handle e).store.rows → row ∉ ((attach db).run es).store.rows →
      ∃ socket env session documentId operation,
        e = .message socket (.message (.submitOperation ⟨documentId, operation⟩)) env ∧
        ((attach db).run es).sessions.get? socket = some session ∧
        session.documentId = some documentId ∧ session.clientId = some operation.clientId ∧
        JoinedAs es socket documentId operation.clientId ∧
        (MadeBy operation.clientId row.opId ↔ Json.wellFormed operation.clientId = true) ∧
        ∀ op : TextOperation, validateOperation op = .ok () → op.opId = row.opId →
          op.clientId = utf8 operation.clientId := by
  refine ⟨fun a b ha hb hid => ValidOperation.identity ha hb hid,
    fun a ha => ValidOperation.opId_ne_root ha, fun row hrow hnew => ?_⟩
  obtain ⟨socket, env, session, m, he, hsession, hdocument, hclient, hvalid, rfl⟩ :=
    new_row hrow hnew
  obtain ⟨documentId, operation⟩ := m
  refine ⟨socket, env, session, documentId, operation, he, hsession, hdocument, hclient,
    run_joinedAs db es hsession hdocument hclient, utf8_madeBy_iff hvalid.madeBy,
    fun op hop hid => ?_⟩
  have hop : MadeBy op.clientId op.opId := ValidOperation.madeBy hop
  rw [hid] at hop
  exact hop.unique hvalid.madeBy.utf8

/-- A client whose id holds a colon and a digit. -/
theorem forged_iff_colon :
    let env : ServerEnv := ⟨none, none, none, true, id⟩
    let a : TextOperation := .insert ⟨js "A:1:2", js "A:1", 2, 1, ROOT_ID, js "x"⟩
    let b : TextOperation := .delete ⟨js "A:1:2", js "A:1", 2, 3, js "B:1"⟩
    let es : List Event :=
      [.connection 0 5, .message 0 (.message (.join ⟨js "d", js "A:1", 0, none, none⟩)) env]
    a.clientId = b.clientId ∧ a.opId ≠ ROOT_ID ∧ JoinedAs es 0 (js "d") (js "A:1") ∧
      MadeBy (js "A:1") (js "A:1:2") := by
  intro env a b es
  obtain ⟨hidentity, hroot, hrow⟩ :=
    forged_iff .created es (.message 0 (.message (.submitOperation ⟨js "d", a⟩)) env)
  obtain ⟨socket, env', session, documentId, operation, he, -, -, -, hjoined, hown, -⟩ :=
    hrow ⟨1, js "d", js "A:1:2", utf8 (operationText a)⟩ (by decide +kernel) (by decide +kernel)
  cases he
  exact ⟨(hidentity a b (by decide +kernel) (by decide +kernel) rfl).1,
    hroot a (by decide +kernel), hjoined, hown.2 (by decide +kernel)⟩

/-- The first row that a client with half a surrogate pair for its name appends is another client's,
whose own first operation is then refused. -/
theorem forged_surrogate :
    let mine : JsString := [0xD800]
    let theirs : JsString := [0xFFFD]
    let env : ServerEnv := ⟨none, none, none, true, id⟩
    let first (clientId : JsString) : TextOperation :=
      .insert ⟨makeOperationId clientId 1, clientId, 1, 1, ROOT_ID, clientId⟩
    let submit (k : SocketId) (clientId : JsString) : Event :=
      .message k (.message (.submitOperation ⟨js "d", first clientId⟩)) env
    let w := (attach SqliteDatabase.created).run
      [.connection 0 5, .message 0 (.message (.join ⟨js "d", mine, 0, none, none⟩)) env,
        .connection 1 6, .message 1 (.message (.join ⟨js "d", theirs, 0, none, none⟩)) env]
    (∃ row ∈ (w.handle (submit 0 mine)).store.rows, row ∉ w.store.rows ∧
      ¬ MadeBy mine row.opId ∧ MadeBy theirs row.opId) ∧
      ((w.handle (submit 0 mine)).handle (submit 1 theirs)).sent.getLast? =
        some (1, .error ⟨js "IDENTITY_CONFLICT",
          (operationIdentityConflictError (makeOperationId theirs 1)).message⟩) := by
  intro mine theirs env first submit w
  have hmade : MadeBy mine (makeOperationId mine 1) := ⟨1, by decide, by decide, rfl⟩
  refine ⟨⟨⟨1, js "d", utf8 (makeOperationId mine 1), utf8 (operationText (first mine))⟩,
    by decide +kernel, by decide +kernel, fun hkept => ?_, hmade.utf8⟩, by decide +kernel⟩
  exact absurd ((utf8_madeBy_iff hmade).1 hkept) (by decide)

end SyncServer

end LocalFirst
