import LocalFirst.Sync.System

/-!
# What one event does to a page

* `traffic` — the part of the sync client that has to do with messages; most methods leave it
  as it is.
* `Page.handle_traffic` — what an event does to it.
* `Page.handle_stores` — what an event does to the tables: nothing that counts, an edit, an
  ingest, or the installation of a baseline.
-/

set_option autoImplicit false

namespace LocalFirst

namespace DocumentSyncClient

variable {c : DocumentSyncClient} {k : SocketId}

/-! ## Traffic -/

/-- The messages that the client has to handle and has handled, the frames that it has sent, and
the calls of `sendJoin`. -/
structure Traffic where
  documentId : JsString
  clientId : JsString
  handling : Option Handler
  inbound : List (SocketId × ServerMessage)
  joins : List JoinCall
  sent : List (SocketId × ClientMessage)
  dropped : List (SocketId × ServerMessage)

def traffic (c : DocumentSyncClient) : Traffic :=
  ⟨c.documentId, c.clientId, c.handling, c.inbound, c.joins, c.sent, c.dropped⟩

@[simp] theorem setStatus_traffic (status : SyncStatus) :
    (c.setStatus status).traffic = c.traffic := rfl

@[simp] theorem setReadyState_traffic (state : ReadyState) :
    (c.setReadyState k state).traffic = c.traffic := rfl

@[simp] theorem closeSocket_traffic : (c.closeSocket k).traffic = c.traffic := by
  unfold closeSocket
  split <;> rfl

@[simp] theorem cancelReconnect_traffic : c.cancelReconnect.traffic = c.traffic := rfl

@[simp] theorem noteConnectionSuccess_traffic : c.noteConnectionSuccess.traffic = c.traffic := rfl

@[simp] theorem releaseSocket_traffic : c.releaseSocket.traffic = c.traffic := by
  unfold releaseSocket
  split
  · rfl
  · rw [closeSocket_traffic]
    rfl

@[simp] theorem suspend_traffic : c.suspend.traffic = c.traffic := by
  unfold suspend
  split
  · rfl
  · rw [setStatus_traffic, releaseSocket_traffic, cancelReconnect_traffic]
    rfl

@[simp] theorem close_traffic : c.close.traffic = c.traffic := by
  unfold close
  rw [setStatus_traffic, releaseSocket_traffic, cancelReconnect_traffic]
  rfl

@[simp] theorem connect_traffic : (c.connect k).traffic = c.traffic := by
  unfold connect
  split <;> rfl

@[simp] theorem resume_traffic : (c.resume k).traffic = c.traffic := by
  unfold resume
  split
  · rfl
  · rw [connect_traffic]
    rfl

@[simp] theorem retry_traffic : (c.retry k).traffic = c.traffic := by
  unfold retry
  split
  · rfl
  · simp only
    split
    · rfl
    · rw [connect_traffic]
      rfl

@[simp] theorem timerFired_traffic : (c.timerFired k).traffic = c.traffic := by
  unfold timerFired
  split
  · rfl
  · simp only
    split
    · rfl
    · rw [connect_traffic]
      rfl

@[simp] theorem scheduleReconnect_traffic : c.scheduleReconnect.traffic = c.traffic := by
  unfold scheduleReconnect
  split <;> rfl

@[simp] theorem noteConnectionFailure_traffic : c.noteConnectionFailure.traffic = c.traffic := by
  unfold noteConnectionFailure
  split
  · rfl
  · simp only
    split
    · rfl
    · rw [cancelReconnect_traffic]
      rfl

@[simp] theorem onError_traffic : (c.onError k).traffic = c.traffic := by
  unfold onError
  split <;> rfl

@[simp] theorem onClose_traffic : (c.onClose k).traffic = c.traffic := by
  unfold onClose
  simp only
  split
  · rfl
  · split
    · rfl
    · rw [scheduleReconnect_traffic, setStatus_traffic, noteConnectionFailure_traffic]
      rfl

@[simp] theorem fallbackToFullHistorySync_traffic :
    c.fallbackToFullHistorySync.traffic = c.traffic := by
  unfold fallbackToFullHistorySync
  simp only
  split
  · rfl
  · rw [closeSocket_traffic]
    rfl

theorem handled_traffic : c.handled.traffic = { c.traffic with handling := none } := rfl

theorem setStage_traffic (handler : Handler) (stage : HandlerStage) :
    (c.setStage handler stage).traffic =
      { c.traffic with handling := some { handler with stage := stage } } := rfl

/-! ## The methods that move messages -/

theorem onOpen_traffic : (c.onOpen k).traffic = c.traffic ∨
    (c.socket = some k ∧ c.readyState k = .connecting ∧ (c.onOpen k).readyState k = .opened ∧
      (c.onOpen k).traffic = { c.traffic with joins := c.joins ++ [⟨k, .readingSeq⟩] }) := by
  unfold onOpen
  split
  · exact Or.inl rfl
  · rename_i hk
    simp only
    split
    · exact Or.inl rfl
    · rename_i hs
      exact Or.inr ⟨not_not.1 hs, not_not.1 hk, if_pos rfl, rfl⟩

/-- A message is taken if it comes in on the open socket of the client. -/
theorem onMessage_cases (message : ServerMessage) :
    (¬ (c.readyState k = .opened ∧ c.socket = some k) ∧ c.onMessage k message = c) ∨
      (c.readyState k = .opened ∧ c.socket = some k ∧
        c.onMessage k message = { c with inbound := c.inbound ++ [(k, message)] }) := by
  unfold onMessage
  split
  · rename_i h
    rw [← not_and_or] at h
    exact Or.inl ⟨h, rfl⟩
  · rename_i h
    rw [not_or, not_not, not_not] at h
    exact Or.inr ⟨h.1, h.2, rfl⟩

/-- The frames that submit operations on a socket. -/
def submits (documentId : JsString) (socket : SocketId) (operations : List TextOperation) :
    List (SocketId × ClientMessage) :=
  operations.map fun operation => (socket, .submitOperation ⟨documentId, operation⟩)

theorem sendOperations_traffic (operations : List TextOperation) :
    (c.sendOperations operations).traffic = c.traffic ∨
      ∃ socket, c.socket = some socket ∧ c.readyState socket = .opened ∧
        (c.sendOperations operations).traffic =
          { c.traffic with sent := c.sent ++ submits c.documentId socket operations } := by
  unfold sendOperations
  split
  · exact Or.inl rfl
  · rename_i socket hs
    split
    · exact Or.inl rfl
    · rename_i ho
      exact Or.inr ⟨socket, hs, not_not.1 ho, rfl⟩

theorem submitOperations_traffic (operations : List TextOperation) :
    (c.submitOperations operations).traffic = c.traffic ∨
      ∃ socket, c.socket = some socket ∧ c.readyState socket = .opened ∧
        (c.submitOperations operations).traffic =
          { c.traffic with sent := c.sent ++ submits c.documentId socket operations } := by
  unfold submitOperations
  split
  · exact Or.inl rfl
  · split
    · exact Or.inl rfl
    · exact sendOperations_traffic operations

theorem parseServerMessage_some {m m' : ServerMessage} (h : parseServerMessage m = some m') :
    m' = m := by
  unfold parseServerMessage at h
  split at h
  · exact (Option.some.inj h).symm
  · cases h

/-- The chain goes on: the first message is dropped, or its delivery is handed to a callback. -/
theorem handleNext_traffic : c.handleNext.traffic = c.traffic ∨
    ∃ socket message inbound, c.handling = none ∧ c.inbound = (socket, message) :: inbound ∧
      (c.handleNext.traffic =
          { c.traffic with inbound := inbound, dropped := c.dropped ++ [(socket, message)] } ∨
        ∃ d, delivery message = some d ∧ d.documentId = c.documentId ∧ c.handleNext.traffic =
          { c.traffic with inbound := inbound, handling := some ⟨socket, message, .ingesting⟩ }) := by
  unfold handleNext
  split
  · rename_i socket message inbound hnone hinbound
    refine Or.inr ⟨socket, message, inbound, hnone, hinbound, ?_⟩
    simp only
    split
    · exact Or.inl rfl
    · exact Or.inl rfl
    · exact Or.inl rfl
    · rename_i sync hparse
      obtain rfl := parseServerMessage_some hparse
      split
      · exact Or.inl rfl
      · rename_i hd
        exact Or.inr ⟨_, rfl, not_not.1 hd, rfl⟩
    · rename_i operation hparse
      obtain rfl := parseServerMessage_some hparse
      split
      · exact Or.inl rfl
      · rename_i hd
        exact Or.inr ⟨_, rfl, not_not.1 hd, rfl⟩
  · exact Or.inl rfl

theorem ingestSettled_traffic (outcome : Except JsError Unit) (stored : Bool) {socket : SocketId}
    {message : ServerMessage} (h : c.handling = some ⟨socket, message, .ingesting⟩) :
    (c.ingestSettled outcome stored).traffic =
      { c.traffic with
        handling := some ⟨socket, message, .settled outcome⟩
        dropped := if stored then c.dropped else c.dropped ++ [(socket, message)] } := by
  unfold ingestSettled
  rw [h]
  simp only
  cases stored <;> rfl

/-- What a handler waits for has been loaded. -/
theorem pendingLoaded_traffic (pending : Except JsError (List TextOperation)) :
    (c.pendingLoaded pending).traffic = c.traffic ∨
      ∃ handler stage, c.handling = some handler ∧ handler.stage ≠ .ingesting ∧
        (stage = .flushLoaded pending ∨ stage = .refreshLoaded pending) ∧
        (c.pendingLoaded pending).traffic =
          { c.traffic with handling := some { handler with stage := stage } } := by
  unfold pendingLoaded
  split
  · rename_i socket message hh
    exact Or.inr ⟨_, _, hh, fun h => by (cases h), Or.inl rfl, rfl⟩
  · rename_i socket message hh
    exact Or.inr ⟨_, _, hh, fun h => by (cases h), Or.inr rfl, rfl⟩
  · exact Or.inl rfl

/-- The stages that a handler is in when it waits for something. -/
def HandlerStage.Waiting (stage : HandlerStage) : Prop :=
  stage = .flushing ∨ stage = .flushed ∨ stage = .refreshing

/-- A handler goes on after an `await`: it ends, it waits for something else, or it sends the
pending operations that it has loaded. -/
inductive Resumes (c c' : DocumentSyncClient) : Prop
  | same (h : c'.traffic = c.traffic)
  | ended (handler : Handler) (hh : c.handling = some handler) (hstage : handler.stage ≠ .ingesting)
      (h : c'.traffic = { c.traffic with handling := none })
  | waits (handler : Handler) (stage : HandlerStage) (hh : c.handling = some handler)
      (hstage : handler.stage ≠ .ingesting) (hwaits : HandlerStage.Waiting stage)
      (h : c'.traffic = { c.traffic with handling := some { handler with stage := stage } })
  | sends (handler : Handler) (pending : List TextOperation) (socket : SocketId)
      (hh : c.handling = some handler) (hstage : handler.stage = .flushLoaded (.ok pending))
      (hsocket : c.socket = some socket) (hopen : c.readyState socket = .opened)
      (h : c'.traffic = { c.traffic with
        handling := some { handler with stage := .flushed }
        sent := c.sent ++ submits c.documentId socket pending })

theorem refreshOnlineStatus_resumes {handler : Handler} (hh : c.handling = some handler)
    (hstage : handler.stage ≠ .ingesting) : Resumes c (c.refreshOnlineStatus handler) := by
  unfold refreshOnlineStatus
  split
  · exact .ended handler hh hstage rfl
  · split
    · exact .ended handler hh hstage rfl
    · exact .waits handler .refreshing hh hstage (Or.inr (Or.inr rfl)) rfl

theorem ingestDone_resumes {handler : Handler} (hh : c.handling = some handler)
    (hstage : handler.stage ≠ .ingesting) (outcome : Except JsError Unit) :
    Resumes c (c.ingestDone handler outcome) := by
  have hcaught : Resumes c (c.caughtUp handler) := by
    unfold caughtUp flushOutbox
    split
    · exact .waits handler .flushed hh hstage (Or.inr (Or.inl rfl)) rfl
    · exact .waits handler .flushing hh hstage (Or.inl rfl) rfl
  unfold ingestDone
  split
  · split
    · split
      · refine .ended handler hh hstage ?_
        rw [handled_traffic, fallbackToFullHistorySync_traffic]
      · exact .ended handler hh hstage rfl
    · exact .ended handler hh hstage rfl
    · exact hcaught
  · split
    · exact .ended handler hh hstage rfl
    · exact refreshOnlineStatus_resumes hh hstage

theorem resumeHandler_resumes : Resumes c c.resumeHandler := by
  unfold resumeHandler
  split
  · exact .same rfl
  · rename_i handler hh
    split
    · rename_i outcome hs
      exact ingestDone_resumes hh (by rw [hs]; exact fun h => by cases h) outcome
    · rename_i e hs
      exact .ended handler hh (by rw [hs]; exact fun h => by cases h) rfl
    · rename_i pending hs
      have hstage : handler.stage ≠ .ingesting := by
        rw [hs]
        exact fun h => by cases h
      split
      · exact .waits handler .flushed hh hstage (Or.inr (Or.inl rfl)) rfl
      · rcases (c.setStatus .syncing).sendOperations_traffic pending with h | ⟨socket, hk, ho, h⟩
        · refine .waits handler .flushed hh hstage (Or.inr (Or.inl rfl)) ?_
          rw [setStage_traffic, h]
          rfl
        · refine .sends handler pending socket hh hs hk ho ?_
          rw [setStage_traffic, h]
          rfl
    · rename_i hs
      exact refreshOnlineStatus_resumes hh (by rw [hs]; exact fun h => by cases h)
    · rename_i e hs
      exact .ended handler hh (by rw [hs]; exact fun h => by cases h) rfl
    · rename_i pending hs
      have hstage : handler.stage ≠ .ingesting := by
        rw [hs]
        exact fun h => by cases h
      split <;> exact .ended handler hh hstage rfl
    · exact .same rfl

/-! ## Joining -/

/-- The number that a call of `sendJoin` has read. -/
def JoinStage.lastServerSeq : JoinStage → Option Int
  | .readingSeq => none
  | .seqRead lastServerSeq => some lastServerSeq
  | .checkingEligible lastServerSeq => some lastServerSeq
  | .eligibleRead lastServerSeq _ => some lastServerSeq

theorem mem_setJoin {socket : SocketId} {stage : Option JoinStage} {call : JoinCall}
    (h : call ∈ (c.setJoin socket stage).joins) :
    call ∈ c.joins ∨ (call.socket = socket ∧ stage = some call.stage ∧
      ∃ old ∈ c.joins, old.socket = socket) := by
  obtain ⟨old, hold, heq⟩ := List.mem_filterMap.1 h
  split at heq
  · rename_i hs
    obtain ⟨stage', hstage, rfl⟩ := Option.map_eq_some_iff.1 heq
    exact Or.inr ⟨rfl, hstage, old, hold, hs⟩
  · cases heq
    exact Or.inl hold

theorem joinStage_some {socket : SocketId} {stage : JoinStage} (h : c.joinStage socket = some stage) :
    ∃ call ∈ c.joins, call.socket = socket ∧ call.stage = stage := by
  obtain ⟨call, hfind, rfl⟩ := Option.map_eq_some_iff.1 h
  exact ⟨call, List.mem_of_find?_eq_some hfind, by simpa using List.find?_some hfind, rfl⟩

/-- Every call of `sendJoin` was there before, or has gone on from one that was there, with the
number that was read before or has just been read. -/
def JoinsFrom (c : DocumentSyncClient) (read : Option Int) (joins : List JoinCall) : Prop :=
  ∀ call ∈ joins, call ∈ c.joins ∨ ∃ old ∈ c.joins, old.socket = call.socket ∧
    (JoinStage.lastServerSeq call.stage = JoinStage.lastServerSeq old.stage ∨
      JoinStage.lastServerSeq call.stage = read)

theorem lastServerSeqRead_traffic (lastServerSeq : Int) :
    ∃ joins, JoinsFrom c (some lastServerSeq) joins ∧
      (c.lastServerSeqRead k lastServerSeq).traffic = { c.traffic with joins := joins } := by
  unfold lastServerSeqRead
  split
  · refine ⟨_, fun call hcall => ?_, rfl⟩
    refine (mem_setJoin hcall).imp_right fun ⟨hs, hstage, old, hold, hos⟩ => ?_
    refine ⟨old, hold, hos.trans hs.symm, Or.inr ?_⟩
    rw [← Option.some.inj hstage]
    rfl
  · exact ⟨c.joins, fun call hcall => Or.inl hcall, rfl⟩

theorem eligibleRead_traffic (eligible : Bool) : ∃ joins, JoinsFrom c none joins ∧
    (c.eligibleRead k eligible).traffic = { c.traffic with joins := joins } := by
  unfold eligibleRead
  split
  · rename_i lastServerSeq hstage
    obtain ⟨old, hold, hos, hst⟩ := joinStage_some hstage
    refine ⟨_, fun call hcall => ?_, rfl⟩
    refine (mem_setJoin hcall).imp_right fun ⟨hs, hstage', _⟩ => ?_
    refine ⟨old, hold, hos.trans hs.symm, Or.inl ?_⟩
    rw [hst, ← Option.some.inj hstage']
    rfl
  · exact ⟨c.joins, fun call hcall => Or.inl hcall, rfl⟩

/-- A call of `sendJoin` goes on after an `await`, or sends its message. -/
theorem resumeJoin_traffic : ∃ joins, JoinsFrom c none joins ∧
    ((c.resumeJoin k).traffic = { c.traffic with joins := joins } ∨
      ∃ call ∈ c.joins, ∃ lastServerSeq capabilities displayName,
        call.socket = k ∧ JoinStage.lastServerSeq call.stage = some lastServerSeq ∧
        c.socket = some k ∧ c.readyState k = .opened ∧ (∀ call ∈ joins, call.socket ≠ k) ∧
        (c.resumeJoin k).traffic =
          { c.traffic with
            joins := joins
            sent := c.sent ++ [(k, .join ⟨c.documentId, c.clientId, lastServerSeq, capabilities,
              displayName⟩)] }) := by
  have hremoved : JoinsFrom c none (c.setJoin k none).joins := fun call hcall =>
    Or.inl ((mem_setJoin hcall).resolve_right fun ⟨_, h, _⟩ => by cases h)
  have hgone : ∀ call ∈ (c.setJoin k none).joins, call.socket ≠ k := by
    intro call hcall
    obtain ⟨old, -, heq⟩ := List.mem_filterMap.1 hcall
    split at heq
    · cases heq
    · cases heq
      assumption
  unfold resumeJoin
  simp only
  split
  · rename_i lastServerSeq hstage
    obtain ⟨old, hold, hos, hst⟩ := joinStage_some hstage
    split
    · exact ⟨_, hremoved, Or.inl rfl⟩
    · rename_i hcurrent
      rw [not_not] at hcurrent
      split
      · refine ⟨_, fun call hcall => ?_, Or.inl rfl⟩
        refine (mem_setJoin hcall).imp_right fun ⟨hs, hstage', _⟩ => ?_
        refine ⟨old, hold, hos.trans hs.symm, Or.inl ?_⟩
        rw [hst, ← Option.some.inj hstage']
        rfl
      · exact ⟨_, hremoved, Or.inr ⟨old, hold, lastServerSeq, _, _, hos, by (rw [hst]; rfl),
          hcurrent.1, hcurrent.2, hgone, rfl⟩⟩
  · rename_i lastServerSeq eligible hstage
    obtain ⟨old, hold, hos, hst⟩ := joinStage_some hstage
    split
    · exact ⟨_, hremoved, Or.inl rfl⟩
    · rename_i hcurrent
      rw [not_not] at hcurrent
      exact ⟨_, hremoved, Or.inr ⟨old, hold, lastServerSeq, _, _, hos, by (rw [hst]; rfl),
        hcurrent.1, hcurrent.2, hgone, rfl⟩⟩
  · exact ⟨c.joins, fun call hcall => Or.inl hcall, Or.inl rfl⟩

end DocumentSyncClient

/-! ## The tables -/

/-- The rows that count are the same. -/
structure Database.Keeps (db db' : Database) : Prop where
  operations : db'.operations = db.operations
  outbox : db'.outbox = db.outbox
  serverBaselines : db'.serverBaselines = db.serverBaselines
  lastServerSeq : ∀ d, db'.getLastServerSeq d = db.getLastServerSeq d

theorem Database.Keeps.refl (db : Database) : db.Keeps db := ⟨rfl, rfl, rfl, fun _ => rfl⟩

theorem Database.Keeps.trans {db db' db'' : Database} (h : db.Keeps db') (h' : db'.Keeps db'') :
    db.Keeps db'' where
  operations := h'.operations.trans h.operations
  outbox := h'.outbox.trans h.outbox
  serverBaselines := h'.serverBaselines.trans h.serverBaselines
  lastServerSeq d := (h'.lastServerSeq d).trans (h.lastServerSeq d)

/-- The tables are those of `db`, checkpoints aside. -/
def Database.Checkpointed (db db' : Database) : Prop :=
  ∃ replicaSnapshots, db' = { db with replicaSnapshots := replicaSnapshots }

theorem Database.Checkpointed.refl (db : Database) : db.Checkpointed db := ⟨_, rfl⟩

theorem Database.Checkpointed.keeps {db db' : Database} (h : db.Checkpointed db') :
    db.Keeps db' := by
  obtain ⟨replicaSnapshots, rfl⟩ := h
  exact ⟨rfl, rfl, rfl, fun _ => rfl⟩

theorem Database.Checkpointed.clientMeta {db db' : Database} (h : db.Checkpointed db') :
    db'.clientMeta = db.clientMeta := by
  obtain ⟨replicaSnapshots, rfl⟩ := h
  rfl

namespace LocalDocumentController

variable {segmentGraphemes : JsString → List JsString} {c : LocalDocumentController}
  {db : Database} {env : Surroundings}

theorem maybeCreateCheckpoint_checkpointed (c : LocalDocumentController) (db : Database)
    (env : Surroundings) : db.Checkpointed (c.maybeCreateCheckpoint db env).2 :=
  (maybeCreateCheckpoint_spec c db env).2.2.2.2

theorem finish_spec (c : LocalDocumentController) (db : Database) (env : Surroundings) :
    (c.finish db env).1.replica = c.replica ∧ (c.finish db env).1.documentId = c.documentId ∧
      (c.finish db env).1.clientId = c.clientId ∧ db.Checkpointed (c.finish db env).2.1 := by
  obtain ⟨hr, hd, hc, -, snaps, hdb⟩ := maybeCreateCheckpoint_spec c db env
  exact ⟨hr, hd, hc, snaps, hdb⟩

/-- What an edit leaves: the tables as they were, or with the operations of the edit. -/
theorem replaceTextNow_stores (nextText : JsString) :
    ((c.replaceTextNow segmentGraphemes db env nextText).2.1 = db ∧
      ∀ result, (c.replaceTextNow segmentGraphemes db env nextText).2.2 = .ok result →
        result.operations = []) ∨
    ∃ elements edit ops db', c.replica.getVisibleElements = .ok elements ∧
      computeLocalTextEdit segmentGraphemes elements nextText = some edit ∧
      db.persistLocalTextEdit c.documentId edit env.now env.dateNow = .ok (ops, db') ∧
      db'.Checkpointed (c.replaceTextNow segmentGraphemes db env nextText).2.1 ∧
      ∀ result, (c.replaceTextNow segmentGraphemes db env nextText).2.2 = .ok result →
        result.operations = ops := by
  unfold replaceTextNow
  cases hv : c.replica.getVisibleElements with
  | error e => exact Or.inl ⟨rfl, fun result h => by cases h⟩
  | ok elements =>
    simp only
    cases he : computeLocalTextEdit segmentGraphemes elements nextText with
    | none =>
      refine Or.inl ⟨rfl, fun result h => ?_⟩
      obtain ⟨snapshot, -, rfl⟩ := exists_ok_of_map h
      rfl
    | some edit =>
      simp only
      cases hp : db.persistLocalTextEdit c.documentId edit env.now env.dateNow with
      | error e => exact Or.inl ⟨rfl, fun result h => by cases h⟩
      | ok committed =>
        obtain ⟨ops, db'⟩ := committed
        simp only
        refine Or.inr ⟨elements, edit, ops, db', rfl, he, hp, ?_⟩
        split
        · exact ⟨.refl db', fun result h => by cases h⟩
        · refine ⟨(finish_spec _ _ _).2.2.2, fun result h => ?_⟩
          obtain ⟨snapshot, -, rfl⟩ := exists_ok_of_map h
          rfl

/-- The transaction of a delivery commits. -/
def Delivers (c : LocalDocumentController) (db : Database) (env : Surroundings) (d : Delivery)
    (db' : Database) : Prop :=
  match d.bootstrap with
  | none => ∃ committed, db.persistServerOperations c.documentId d.items d.confirmed env.now =
      .ok committed ∧ committed.Checkpointed db'
  | some bootstrap => ∃ replica, db.installServerBaseline c.documentId bootstrap d.items d.confirmed
      env.now = .ok (replica, db')

/-- What the transaction of a delivery commits. -/
theorem Delivers.spec {d : Delivery} {db' : Database} (h : c.Delivers db env d db') :
    (d.bootstrap = none ∧ db.Ingestible c.documentId d.items d.confirmed ∧ ∃ committed,
      db.persistServerOperations c.documentId d.items d.confirmed env.now = .ok committed ∧
      Database.Ingested db committed c.documentId (d.items.map (·.operation)) d.confirmed env.now ∧
      committed.Checkpointed db') ∨
    ∃ bootstrap, d.bootstrap = some bootstrap ∧
      Database.Installed db db' c.documentId bootstrap d.items d.confirmed env.now := by
  unfold Delivers at h
  split at h
  · rename_i hb
    obtain ⟨committed, hp, hdb⟩ := h
    obtain ⟨hok, hin⟩ := Database.persistServerOperations_spec.1 committed hp
    exact Or.inl ⟨hb, hok, committed, hp, hin, hdb⟩
  · rename_i bootstrap hb
    obtain ⟨replica, hp⟩ := h
    exact Or.inr ⟨bootstrap, hb, (Database.installServerBaseline_spec hp).2⟩

/-- What the job of a delivery leaves: the tables as they were, and a rejected promise, or the
tables that the transaction leaves. -/
theorem runDelivery_stores (d : Delivery) :
    ((Page.runDelivery c db env d).2.1 = db ∧ (Page.runDelivery c db env d).2.2.isOk = false) ∨
      Delivers c db env d (Page.runDelivery c db env d).2.1 := by
  unfold Page.runDelivery Delivers
  cases d.bootstrap with
  | none =>
    simp only
    unfold applyServerOperationsNow
    cases hp : db.persistServerOperations c.documentId d.items d.confirmed env.now with
    | error e => exact Or.inl ⟨rfl, rfl⟩
    | ok committed =>
      refine Or.inr ⟨committed, rfl, ?_⟩
      simp only
      split
      · exact .refl committed
      · exact (finish_spec _ _ _).2.2.2
  | some bootstrap =>
    simp only
    unfold installServerSnapshotNow
    cases hp : db.installServerBaseline c.documentId bootstrap d.items d.confirmed env.now with
    | error e => exact Or.inl ⟨rfl, rfl⟩
    | ok committed => exact Or.inr ⟨committed.1, rfl⟩

/-- The job of a delivery that the store accepts commits its transaction. -/
theorem runDelivery_delivers {c : LocalDocumentController} {db : Database} (env : Surroundings)
    {d : Delivery} (hb : d.bootstrap = none)
    (hok : db.Ingestible c.documentId d.items d.confirmed) :
    c.Delivers db env d (Page.runDelivery c db env d).2.1 := by
  obtain ⟨committed, hp⟩ : ∃ db', db.persistServerOperations c.documentId d.items d.confirmed
      env.now = .ok db' := Database.persistServerOperations_spec.2 hok
  unfold Page.runDelivery Delivers
  simp only [hb]
  unfold applyServerOperationsNow
  simp only [hp]
  refine ⟨committed, rfl, ?_⟩
  split
  · exact .refl committed
  · exact (finish_spec _ _ _).2.2.2

/-- What `initialize` leaves in the tables. -/
theorem initializeDocument_keeps (db : Database)
    (documentId defaultTitle clientId timestamp : JsString) :
    db.Keeps (db.initializeDocument documentId defaultTitle clientId timestamp).2 := by
  refine ⟨rfl, rfl, rfl, fun d => ?_⟩
  unfold Database.initializeDocument Database.getLastServerSeq
  simp only
  cases hs : db.syncState.get? documentId with
  | some row => rfl
  | none =>
    simp only [Table.get?_put]
    by_cases hd : documentId = d
    · rw [if_pos hd, ← hd, hs]
    · rw [if_neg hd]

/-- What `create` leaves in the tables, whether or not it succeeds. -/
theorem create_keeps (db : Database) (options : LocalDocumentControllerOptions)
    (env : Surroundings) : db.Keeps (create db options env).2 ∧
      ((create db options env).2.clientMeta = db.clientMeta ∨
        (create db options env).2.clientMeta =
          some (db.clientMeta.getD ⟨env.clientIdFactory, 1, 0⟩)) := by
  unfold create
  split
  · exact ⟨.refl db, Or.inl rfl⟩
  · have hkeeps := initializeDocument_keeps db (options.documentId.getD DEFAULT_DOCUMENT_ID)
      (options.defaultTitle.getD (if options.documentId.getD DEFAULT_DOCUMENT_ID =
        DEFAULT_DOCUMENT_ID then DEFAULT_DOCUMENT_TITLE else js "Untitled Document"))
      env.clientIdFactory env.now
    simp only
    split
    · exact ⟨hkeeps, Or.inr rfl⟩
    · split
      · exact ⟨hkeeps, Or.inr rfl⟩
      · have hcheckpointed := maybeCreateCheckpoint_checkpointed
        exact ⟨hkeeps.trans (hcheckpointed _ _ _).keeps, Or.inr (hcheckpointed _ _ _).clientMeta⟩

end LocalDocumentController

namespace Page

variable {segmentGraphemes : JsString → List JsString} {page : Page}

/-- What an event does to the tables of a page. -/
inductive Stores (segmentGraphemes : JsString → List JsString) (page page' : Page) (e : PageEvent) :
    Prop
  | kept (h : page.db.Keeps page'.db)
      (hmeta : page'.db.clientMeta = page.db.clientMeta ∨ ∃ options env displayName,
        e = .opens options env displayName ∧
        page'.db.clientMeta = some (page.db.clientMeta.getD ⟨env.clientIdFactory, 1, 0⟩))
  | edited (env : Surroundings) (nextText : JsString) (c : LocalDocumentController)
      (elements : List VisibleElement) (edit : LocalTextEdit) (ops : List TextOperation)
      (db : Database) (he : e = .edit env nextText) (hc : page.controller = some c)
      (hvisible : c.replica.getVisibleElements = .ok elements)
      (hedit : computeLocalTextEdit segmentGraphemes elements nextText = some edit)
      (hp : page.db.persistLocalTextEdit c.documentId edit env.now env.dateNow = .ok (ops, db))
      (hdb : db.Checkpointed page'.db)
  | delivered (env : Surroundings) (c : LocalDocumentController) (socket : SocketId)
      (message : ServerMessage) (d : Delivery) (he : e = .ingest (.runs env))
      (hc : page.controller = some c)
      (hh : page.sync.handling = some ⟨socket, message, .ingesting⟩)
      (hd : delivery message = some d) (hdelivers : c.Delivers page.db env d page'.db)

theorem Stores.same {page' : Page} {e : PageEvent} (h : page'.db = page.db) :
    Stores segmentGraphemes page page' e :=
  .kept (by rw [h]; exact .refl _) (Or.inl (by rw [h]))

theorem edit_stores (env : Surroundings) (nextText : JsString) :
    Stores segmentGraphemes page (page.edit segmentGraphemes env nextText) (.edit env nextText) := by
  unfold edit
  split
  · exact .same rfl
  · rename_i c hc
    have hstores := @LocalDocumentController.replaceTextNow_stores segmentGraphemes c page.db env
      nextText
    split
    all_goals
      rename_i heq
      rw [heq] at hstores
      obtain ⟨hdb, -⟩ | ⟨elements, edit, ops, db', hv, he, hp, hdb, -⟩ := hstores
      · exact .same hdb
      · exact .edited env nextText c elements edit ops db' rfl hc hv he hp hdb

theorem ingest_stores (callback : Callback) :
    Stores segmentGraphemes page (page.ingest callback) (.ingest callback) := by
  unfold ingest
  split
  · rename_i c socket message hc hh
    split
    · exact .same rfl
    · exact .same rfl
    · exact .same rfl
    · rename_i d env hd
      obtain ⟨hdb, -⟩ | hdelivers := @LocalDocumentController.runDelivery_stores c page.db env d
      · exact .same hdb
      · exact .delivered env c socket message d rfl hc hh hd hdelivers
  · exact .same rfl

/-- **What one event of a page does to its tables.** -/
theorem handle_stores (page : Page) (e : PageEvent) :
    Stores segmentGraphemes page (page.handle segmentGraphemes e) e := by
  cases e with
  | opens options env displayName =>
    obtain ⟨hkeeps, hmeta⟩ := LocalDocumentController.create_keeps page.db options env
    have hdb : (page.opens options env displayName).db =
        (LocalDocumentController.create page.db options env).2 := by
      unfold opens
      simp only
      split <;> (rename_i heq; rw [heq])
    refine .kept ?_ ?_
    · show page.db.Keeps (page.opens options env displayName).db
      rw [hdb]
      exact hkeeps
    · show (page.opens options env displayName).db.clientMeta = _ ∨ _
      rw [hdb]
      exact hmeta.imp_right fun h => ⟨options, env, displayName, rfl, by
        show (page.opens options env displayName).db.clientMeta = _
        rw [hdb, h]⟩
  | edit env nextText => exact edit_stores env nextText
  | submit =>
    refine .same ?_
    simp only [handle, submit]
    split <;> rfl
  | ingest callback => exact ingest_stores callback
  | loadPending aborted =>
    refine .same ?_
    simp only [handle, loadPending]
    split <;> rfl
  | _ => exact .same rfl

/-! ## The messages and frames -/

/-- The event replaces the session. -/
def isOpen : PageEvent → Bool
  | .opens _ _ _ => true
  | _ => false

/-- What an event does to the messages and frames of a page. -/
inductive Moves (page page' : Page) (e : PageEvent) : Prop
  | same (h : page'.sync.traffic = page.sync.traffic)
  | opened (c : LocalDocumentController) (he : isOpen e = true) (hc : page'.controller = some c)
      (h : page'.sync.traffic =
        ⟨c.documentId, c.clientId, none, [], [], page.sync.sent, []⟩)
  | begins (k : SocketId) (hk : page.sync.socket = some k)
      (hnew : page.sync.readyState k = .connecting) (hopen : page'.sync.readyState k = .opened)
      (h : page'.sync.traffic =
        { page.sync.traffic with joins := page.sync.joins ++ [⟨k, .readingSeq⟩] })
  | reads (read : Option Int) (joins : List JoinCall)
      (hread : read = none ∨ read = some (page.db.getLastServerSeq page.sync.documentId))
      (hjoins : page.sync.JoinsFrom read joins)
      (h : page'.sync.traffic = { page.sync.traffic with joins := joins })
  | joins (k : SocketId) (call : JoinCall) (lastServerSeq : Int)
      (capabilities : Option (List JsString)) (displayName : Option JsString)
      (joins : List JoinCall) (hjoins : page.sync.JoinsFrom none joins)
      (hgone : ∀ call ∈ joins, call.socket ≠ k) (hcall : call ∈ page.sync.joins)
      (hsocket : call.socket = k)
      (hseq : DocumentSyncClient.JoinStage.lastServerSeq call.stage = some lastServerSeq)
      (hk : page.sync.socket = some k) (hopen : page.sync.readyState k = .opened)
      (h : page'.sync.traffic = { page.sync.traffic with
        joins := joins
        sent := page.sync.sent ++ [(k, .join ⟨page.sync.documentId, page.sync.clientId,
          lastServerSeq, capabilities, displayName⟩)] })
  | submits (k : SocketId) (operations : List TextOperation) (rest : List (List TextOperation))
      (he : e = .submit) (hsubmits : page.submits = operations :: rest)
      (hk : page.sync.socket = some k) (h : page'.sync.traffic = { page.sync.traffic with
        sent := page.sync.sent ++
          DocumentSyncClient.submits page.sync.documentId k operations })
  | drops (k : SocketId) (message : ServerMessage) (inbound : List (SocketId × ServerMessage))
      (hh : page.sync.handling = none) (hinbound : page.sync.inbound = (k, message) :: inbound)
      (h : page'.sync.traffic = { page.sync.traffic with
        inbound := inbound, dropped := page.sync.dropped ++ [(k, message)] })
  | takes (k : SocketId) (message : ServerMessage) (inbound : List (SocketId × ServerMessage))
      (d : Delivery) (hh : page.sync.handling = none)
      (hinbound : page.sync.inbound = (k, message) :: inbound)
      (hd : delivery message = some d) (hdocument : d.documentId = page.sync.documentId)
      (h : page'.sync.traffic = { page.sync.traffic with
        inbound := inbound, handling := some ⟨k, message, .ingesting⟩ })
  | settles (k : SocketId) (message : ServerMessage) (d : Delivery)
      (outcome : Except JsError Unit) (dropped : List (SocketId × ServerMessage))
      (hh : page.sync.handling = some ⟨k, message, .ingesting⟩) (hd : delivery message = some d)
      (hdropped : dropped = page.sync.dropped ++ [(k, message)] ∨ (dropped = page.sync.dropped ∧
        ∃ env c, page.controller = some c ∧ c.Delivers page.db env d page'.db))
      (h : page'.sync.traffic = { page.sync.traffic with
        handling := some ⟨k, message, .settled outcome⟩, dropped := dropped })
  | loads (handler : Handler) (stage : HandlerStage) (hh : page.sync.handling = some handler)
      (hstage : handler.stage ≠ .ingesting)
      (hloaded : (∃ e, stage = .flushLoaded (.error e)) ∨ (∃ pending, stage = .refreshLoaded pending) ∨
        stage = .flushLoaded (page.db.loadPendingOperations page.sync.documentId))
      (h : page'.sync.traffic = { page.sync.traffic with
        handling := some { handler with stage := stage } })
  | resumes (he : e = .resumeHandler) (h : page.sync.Resumes page'.sync)

/-- The callback of a delivery settles, and the message is dropped unless the tables have it. -/
theorem ingest_moves (page : Page) (callback : Callback) :
    Moves page (page.ingest callback) (.ingest callback) := by
  unfold ingest
  split
  · rename_i c k message hc hh
    split
    · exact .same rfl
    · rename_i d e hd
      exact .settles k message d _ _ hh hd (Or.inl rfl)
        (page.sync.ingestSettled_traffic _ false hh)
    · rename_i d hd
      exact .settles k message d _ _ hh hd (Or.inl rfl)
        (page.sync.ingestSettled_traffic _ false hh)
    · rename_i d env hd
      refine .settles k message d _ _ hh hd ?_ (page.sync.ingestSettled_traffic _ _ hh)
      obtain ⟨-, hfailed⟩ | hdelivers := @LocalDocumentController.runDelivery_stores c page.db env d
      · rw [hfailed]
        exact Or.inl rfl
      · split
        · exact Or.inr ⟨rfl, env, c, hc, hdelivers⟩
        · exact Or.inl rfl
  · exact .same rfl

/-- The handler gets what the outbox holds, or an error. -/
theorem loadPending_moves (page : Page) (aborted : Option JsError) :
    Moves page (page.loadPending aborted) (.loadPending aborted) := by
  have hloads : ∀ loaded : Except JsError (List TextOperation),
      (∃ e, loaded = .error e) ∨ loaded = page.db.loadPendingOperations page.sync.documentId →
        Moves page { page with sync := page.sync.pendingLoaded loaded } (.loadPending aborted) := by
    intro loaded hloaded
    rcases page.sync.pendingLoaded_traffic loaded with h | ⟨handler, stage, hh, hs, hst, h⟩
    · exact .same h
    · refine .loads handler stage hh hs ?_ h
      rcases hst with rfl | rfl
      · rcases hloaded with ⟨e, rfl⟩ | rfl
        · exact Or.inl ⟨e, rfl⟩
        · exact Or.inr (Or.inr rfl)
      · exact Or.inr (Or.inl ⟨_, rfl⟩)
  unfold loadPending
  split
  · exact hloads _ (Or.inl ⟨_, rfl⟩)
  · exact hloads _ (Or.inr rfl)

theorem handle_moves (page : Page) (e : PageEvent) :
    Moves page (page.handle segmentGraphemes e) e := by
  cases e with
  | opens options env displayName =>
    simp only [handle, opens]
    split
    · exact .same page.sync.close_traffic
    · rename_i c db heq
      refine .opened c rfl rfl ?_
      have hsent := congrArg DocumentSyncClient.Traffic.sent page.sync.close_traffic
      show DocumentSyncClient.Traffic.mk _ _ _ _ _ page.sync.close.sent _ = _
      rw [show page.sync.close.sent = page.sync.sent from hsent]
      rfl
  | connect fresh => exact .same page.sync.connect_traffic
  | suspend => exact .same page.sync.suspend_traffic
  | resume fresh => exact .same page.sync.resume_traffic
  | retry fresh => exact .same page.sync.retry_traffic
  | close => exact .same page.sync.close_traffic
  | timerFired fresh => exact .same page.sync.timerFired_traffic
  | socketOpened socket =>
    rcases page.sync.onOpen_traffic with h | ⟨hk, hnew, hopen, h⟩
    · exact .same h
    · exact .begins socket hk hnew hopen h
  | socketError socket => exact .same page.sync.onError_traffic
  | socketClosed socket => exact .same page.sync.onClose_traffic
  | edit env nextText =>
    refine .same ?_
    simp only [handle, edit]
    split
    · rfl
    · split <;> rfl
  | submit =>
    simp only [handle, submit]
    split
    · exact .same rfl
    · rename_i operations rest hsubmits
      rcases page.sync.submitOperations_traffic operations with h | ⟨k, hk, -, h⟩
      · exact .same h
      · exact .submits k operations rest rfl hsubmits hk h
  | handleNext =>
    rcases page.sync.handleNext_traffic with h | ⟨k, message, inbound, hh, hi, h | ⟨d, hd, hdoc, h⟩⟩
    · exact .same h
    · exact .drops k message inbound hh hi h
    · exact .takes k message inbound d hh hi hd hdoc h
  | ingest callback => exact page.ingest_moves callback
  | loadPending aborted => exact page.loadPending_moves aborted
  | resumeHandler => exact .resumes rfl page.sync.resumeHandler_resumes
  | readLastServerSeq socket =>
    obtain ⟨joins, hjoins, h⟩ := @DocumentSyncClient.lastServerSeqRead_traffic page.sync socket
      (page.db.getLastServerSeq page.sync.documentId)
    exact .reads _ joins (Or.inr rfl) hjoins h
  | readEligible socket =>
    obtain ⟨joins, hjoins, h⟩ := @DocumentSyncClient.eligibleRead_traffic page.sync socket
      (page.db.isSnapshotBootstrapEligible page.sync.documentId)
    exact .reads none joins (Or.inl rfl) hjoins h
  | resumeJoin socket =>
    obtain ⟨joins, hjoins, h | ⟨call, hcall, seq, capabilities, displayName, hs, hseq, hk, hopen,
      hgone, h⟩⟩ := @DocumentSyncClient.resumeJoin_traffic page.sync socket
    · exact .reads none joins (Or.inl rfl) hjoins h
    · exact .joins socket call seq capabilities displayName joins hjoins hgone hcall hs hseq hk hopen h

end Page

end LocalFirst
