import LocalFirst.Lib.Runs
import LocalFirst.Server.SyncServer

/-!
# One server over two stores

The handlers reach their store through a few calls only.  Where two stores answer these alike, the
servers over them do the same.

* `Simulates` — the calls are answered alike, for names of a kind, and leave the stores alike.
* `Alike.handle` — an event that has such names only leaves the servers alike.
* `Alike.run` — and so does every run of such events.
-/

set_option autoImplicit false

namespace LocalFirst

/-- Names of documents, and of the operations of each document. -/
structure Names where
  documents : Set JsString
  operations : JsString → Set JsString

def Names.all : Names := ⟨Set.univ, fun _ => Set.univ⟩

namespace SyncServer

/-- Joins and submits have these names only. -/
def Event.Named (names : Names) : Event → Prop
  | .message _ (.message (.join m)) _ => m.documentId ∈ names.documents
  | .message _ (.message (.submitOperation m)) _ =>
    m.documentId ∈ names.documents ∧ m.operation.opId ∈ names.operations m.documentId
  | _ => True

theorem Event.named_all : ∀ e : Event, e.Named .all
  | .connection _ _ => trivial
  | .message _ .notJson _ => trivial
  | .message _ .malformed _ => trivial
  | .message _ (.message (.join _)) _ => trivial
  | .message _ (.message (.submitOperation _)) _ => ⟨trivial, trivial⟩
  | .closing _ => trivial
  | .close _ _ => trivial
  | .shutDown => trivial
  | .shutDownDone => trivial

section

variable {σ τ : Type}

/-! ## Sending does not look at the store -/

section

variable (w : SyncServer σ) (t : τ) (env : ServerEnv) (k : SocketId) (d : JsString)

theorem sendJson_withStore (message : ServerMessage) :
    (w.withStore t).sendJson k message = (w.sendJson k message).withStore t := by
  unfold sendJson
  rw [withStore_readyState]
  split <;> rfl

theorem sendToPeers_withStore (message : ServerMessage) : ∀ (w : SyncServer σ) (peers : List SocketId),
    (w.withStore t).sendToPeers message peers = (w.sendToPeers message peers).withStore t
  | _, [] => rfl
  | w, peer :: peers => by
    unfold sendToPeers
    simp only [withStore_sessions, withStore_readyState]
    cases w.sessions.get? peer with
    | none => exact sendToPeers_withStore message w peers
    | some session =>
      simp only
      split
      · rw [sendJson_withStore]
        exact sendToPeers_withStore message _ peers
      · exact sendToPeers_withStore message w peers

theorem broadcast_withStore (message : OperationMessage) :
    (w.withStore t).broadcast d message = (w.broadcast d message).withStore t := by
  unfold broadcast
  simp only [withStore_rooms]
  cases w.rooms.get? d with
  | none => rfl
  | some room => exact sendToPeers_withStore t _ w room.elems

theorem presenceByClientId_withStore : ∀ (byClientId : InsMap JsString PresenceParticipant)
    (peers : List SocketId), presenceByClientId env (w.withStore t) byClientId peers =
      presenceByClientId env w byClientId peers
  | _, [] => rfl
  | byClientId, peer :: peers => by
    unfold presenceByClientId
    simp only [withStore_sessions, presenceByClientId_withStore]

theorem collectPresence_withStore :
    collectPresence env (w.withStore t) d = collectPresence env w d := by
  unfold collectPresence
  simp only [withStore_rooms, presenceByClientId_withStore]

theorem broadcastPresence_withStore :
    broadcastPresence env (w.withStore t) d = (broadcastPresence env w d).withStore t := by
  unfold broadcastPresence
  simp only [withStore_rooms, collectPresence_withStore]
  cases w.rooms.get? d with
  | none => rfl
  | some room =>
    simp only
    split
    · rfl
    · exact sendToPeers_withStore t _ w room.elems

theorem leaveRoom_withStore :
    leaveRoom env (w.withStore t) k = (leaveRoom env w k).withStore t := by
  unfold leaveRoom
  simp only [withStore_sessions, withStore_rooms]
  cases (w.sessions.get? k).bind (·.documentId) with
  | none => rfl
  | some d =>
    simp only
    split
    · rfl
    · cases w.rooms.get? d with
      | none => rfl
      | some room =>
        simp only [withStore_closing]
        split
        · rfl
        · rw [← broadcastPresence_withStore]
          rfl

end

/-- Which store stands behind what has been sent does not matter, so it stays where it is. -/
theorem store_eq_of_withStore {v : SyncServer σ} {s : σ} (h : v = v.withStore s) : v.store = s := by
  rw [h]
  rfl

section

variable (w : SyncServer σ) (env : ServerEnv) (k : SocketId) (d : JsString)

theorem store_sendJson (message : ServerMessage) : (w.sendJson k message).store = w.store :=
  store_eq_of_withStore (sendJson_withStore w w.store k message)

theorem store_broadcast (message : OperationMessage) : (w.broadcast d message).store = w.store :=
  store_eq_of_withStore (broadcast_withStore w w.store d message)

theorem store_broadcastPresence : (broadcastPresence env w d).store = w.store :=
  store_eq_of_withStore (broadcastPresence_withStore w w.store env d)

theorem store_leaveRoom : (leaveRoom env w k).store = w.store :=
  store_eq_of_withStore (leaveRoom_withStore w w.store env k)

end

/-! ## Stores that are alike -/

/-- Two calls fail alike, or give the same answer and leave two stores that are alike. -/
def Agrees {α : Type} (R : σ → τ → Prop) (answer : Except JsError (α × σ))
    (answer' : Except JsError (α × τ)) : Prop :=
  (∃ e, answer = .error e ∧ answer' = .error e) ∨
    ∃ a s t, answer = .ok (a, s) ∧ answer' = .ok (a, t) ∧ R s t

/-- The servers are the same, and their stores are alike. -/
def Alike (R : σ → τ → Prop) (w : SyncServer σ) (v : SyncServer τ) : Prop :=
  ∃ t, v = w.withStore t ∧ R w.store t

variable {R : σ → τ → Prop} {w w' : SyncServer σ} {v v' : SyncServer τ} {env : ServerEnv}
  {k : SocketId} {d : JsString}

theorem Alike.attach {s : σ} {t : τ} (hR : R s t) : Alike R (attach s) (attach t) := ⟨t, rfl, hR⟩

theorem Alike.kept (h : Alike R w v) (hstore : w'.store = w.store)
    (hsame : ∀ t, v = w.withStore t → v' = w'.withStore t) : Alike R w' v' := by
  obtain ⟨t, heq, hR⟩ := h
  refine ⟨t, hsame t heq, ?_⟩
  rw [hstore]
  exact hR

theorem Alike.sessions (h : Alike R w v) : v.sessions = w.sessions := by
  obtain ⟨t, rfl, -⟩ := h
  rfl

theorem Alike.readyState (h : Alike R w v) : v.readyState = w.readyState := by
  obtain ⟨t, rfl, -⟩ := h
  rfl

theorem Alike.closing (h : Alike R w v) : v.closing = w.closing := by
  obtain ⟨t, rfl, -⟩ := h
  rfl

theorem Alike.sent (h : Alike R w v) : v.sent = w.sent := by
  obtain ⟨t, rfl, -⟩ := h
  rfl

theorem Alike.sendJson (h : Alike R w v) (message : ServerMessage) :
    Alike R (w.sendJson k message) (v.sendJson k message) := by
  refine h.kept (store_sendJson w k message) fun t heq => ?_
  rw [heq, sendJson_withStore]

theorem Alike.broadcast (h : Alike R w v) (message : OperationMessage) :
    Alike R (w.broadcast d message) (v.broadcast d message) := by
  refine h.kept (store_broadcast w d message) fun t heq => ?_
  rw [heq, broadcast_withStore]

theorem Alike.broadcastPresence (h : Alike R w v) :
    Alike R (broadcastPresence env w d) (broadcastPresence env v d) := by
  refine h.kept (store_broadcastPresence w env d) fun t heq => ?_
  rw [heq, broadcastPresence_withStore]

theorem Alike.leaveRoom (h : Alike R w v) : Alike R (leaveRoom env w k) (leaveRoom env v k) := by
  refine h.kept (store_leaveRoom w env k) fun t heq => ?_
  rw [heq, leaveRoom_withStore]

theorem Alike.enterRoom (h : Alike R w v) (session : SocketSession) (message : JoinMessage) :
    Alike R (w.enterRoom k session message) (v.enterRoom k session message) := by
  refine h.kept rfl fun t heq => ?_
  rw [heq]
  rfl

theorem Alike.setReadyState (h : Alike R w v) (state : ReadyState) :
    Alike R (w.setReadyState k state) (v.setReadyState k state) := by
  refine h.kept rfl fun t heq => ?_
  rw [heq]
  rfl

/-! ## Handlers over stores that are alike -/

variable [ServerStore σ] [ServerStore τ] {names : Names}

/-- Stores that are alike answer every call alike, if it has such names only. -/
structure Simulates (names : Names) (R : σ → τ → Prop) : Prop where
  log : ∀ {s t}, R s t → ∀ {d}, d ∈ names.documents → ServerStore.log t d = ServerStore.log s d
  latest : ∀ {s t}, R s t → ∀ {d}, d ∈ names.documents →
    ServerStore.getLatestServerSeq t d = ServerStore.getLatestServerSeq s d
  append : ∀ {s t}, R s t → ∀ {d}, d ∈ names.documents → ∀ {operation : TextOperation},
    operation.opId ∈ names.operations d →
    Agrees R (ServerStore.appendOperation s d operation) (ServerStore.appendOperation t d operation)
  sync : ∀ {s t}, R s t → ∀ {d}, d ∈ names.documents → ∀ rowWritten lastServerSeq capable,
    Agrees R (ServerStore.buildSyncMessage s rowWritten d lastServerSeq capable)
      (ServerStore.buildSyncMessage t rowWritten d lastServerSeq capable)
  record : ∀ {s t}, R s t → ∀ count, R (ServerStore.record count s) (ServerStore.record count t)

theorem Alike.log (hsim : Simulates names R) (h : Alike R w v) (hd : d ∈ names.documents) :
    v.log d = w.log d := by
  obtain ⟨t, rfl, hR⟩ := h
  exact hsim.log hR hd

section

variable (hsim : Simulates names R) (h : Alike R w v)
include hsim h

theorem Alike.record (count : ServerMetrics → ServerMetrics) :
    Alike R (w.record count) (v.record count) := by
  obtain ⟨t, rfl, hR⟩ := h
  exact ⟨ServerStore.record count t, rfl, hsim.record hR count⟩

theorem Alike.recordProtocolError (code message : JsString) :
    Alike R (w.recordProtocolError k code message) (v.recordProtocolError k code message) :=
  (h.record hsim _).sendJson _

theorem Alike.sendCaughtError (error : JsError) :
    Alike R (w.sendCaughtError k error) (v.sendCaughtError k error) := by
  unfold SyncServer.sendCaughtError
  split
  · exact (h.record hsim _).sendJson _
  · exact h.recordProtocolError hsim _ _
  · exact (h.record hsim _).sendJson _

/-- The servers are alike, and the handlers have thrown the same. -/
def AlikeDone (R : σ → τ → Prop) (done : SyncServer σ × Except JsError Unit)
    (done' : SyncServer τ × Except JsError Unit) : Prop :=
  Alike R done.1 done'.1 ∧ done'.2 = done.2

theorem Alike.sendSync (message : JoinMessage) (hd : message.documentId ∈ names.documents) :
    (∃ e, sendSync env w k message = .error e ∧ sendSync env v k message = .error e) ∨
      ∃ w' v', sendSync env w k message = .ok w' ∧ sendSync env v k message = .ok v' ∧
        Alike R w' v' := by
  obtain ⟨t, rfl, hR⟩ := h
  unfold SyncServer.sendSync
  rcases hsim.sync hR hd env.rowWritten message.lastServerSeq
    (hasSnapshotBootstrapCapability message.capabilities) with ⟨e, hs, ht⟩ | ⟨m, s', t', hs, ht, hR'⟩
  · simp only [withStore_store, hs, ht]
    exact Or.inl ⟨e, rfl, rfl⟩
  · simp only [withStore_store, hs, ht]
    refine Or.inr ⟨_, _, rfl, rfl, Alike.sendJson (Alike.record hsim ?_ _) _⟩
    exact ⟨t', rfl, hR'⟩

theorem Alike.joinSocket (session : SocketSession) (message : JoinMessage)
    (hd : message.documentId ∈ names.documents) :
    AlikeDone R (joinSocket env w k session message) (joinSocket env v k session message) := by
  have hlatest : ServerStore.getLatestServerSeq v.store message.documentId =
      ServerStore.getLatestServerSeq w.store message.documentId := by
    obtain ⟨t, rfl, hR⟩ := h
    exact hsim.latest hR hd
  unfold SyncServer.joinSocket
  rw [hlatest]
  cases env.latestThrows with
  | some e => exact ⟨h, rfl⟩
  | none =>
    simp only
    split
    · exact ⟨h.recordProtocolError hsim _ _, rfl⟩
    · have hentered := (@Alike.enterRoom _ _ R w v k h session message).record hsim .recordJoin
      cases env.syncThrows with
      | some e => exact ⟨hentered, rfl⟩
      | none =>
        simp only
        rcases hentered.sendSync hsim message hd with ⟨e, hs, ht⟩ | ⟨w', v', hs, ht, hsynced⟩
        · rw [hs, ht]
          exact ⟨hentered, rfl⟩
        · rw [hs, ht]
          exact ⟨hsynced.broadcastPresence, rfl⟩

theorem Alike.acceptOperation (session : SocketSession) (operation : TextOperation)
    (hnamed : ∀ d, session.documentId = some d →
      d ∈ names.documents ∧ operation.opId ∈ names.operations d) :
    AlikeDone R (acceptOperation env w k session operation)
      (acceptOperation env v k session operation) := by
  unfold SyncServer.acceptOperation
  cases hdocument : session.documentId with
  | none => exact ⟨h, rfl⟩
  | some d =>
    obtain ⟨hd, hopId⟩ := hnamed d hdocument
    have hsubmitted := h.record hsim .recordSubmit
    simp only
    cases validateOperation operation with
    | error e => exact ⟨hsubmitted, rfl⟩
    | ok u =>
      cases env.appendThrows with
      | some e => exact ⟨hsubmitted, rfl⟩
      | none =>
        simp only
        obtain ⟨t, heq, hR⟩ := hsubmitted
        rw [heq]
        rcases hsim.append hR hd hopId with ⟨e, hs, ht⟩ | ⟨result, s', t', hs, ht, hR'⟩
        · simp only [withStore_store, hs, ht]
          exact ⟨⟨t, rfl, hR⟩, rfl⟩
        · simp only [withStore_store, hs, ht]
          have happended : Alike R { w.record .recordSubmit with store := s' }
              { (w.record .recordSubmit).withStore t with store := t' } := ⟨t', rfl, hR'⟩
          have hcounted := happended.record hsim .recordAppendDuration
          split
          · exact ⟨(hcounted.record hsim .recordDuplicate).sendJson _, rfl⟩
          · exact ⟨(hcounted.record hsim .recordInsert).broadcast _, rfl⟩

/-! ## Events and runs -/

theorem Alike.dispatch (session : SocketSession) (message : ClientMessage)
    (hnamed : Event.Named names (.message k (.message message) env)) :
    AlikeDone R (dispatch env w k session message) (dispatch env v k session message) := by
  have hrefused : ∀ code text, AlikeDone R (w.recordProtocolError k code text, .ok ())
      (v.recordProtocolError k code text, .ok ()) :=
    fun code text => ⟨h.recordProtocolError hsim code text, rfl⟩
  unfold SyncServer.dispatch
  cases message with
  | join message =>
    cases session.documentId with
    | none => exact h.joinSocket hsim session message hnamed
    | some documentId =>
      cases session.clientId with
      | none => exact h.joinSocket hsim session message hnamed
      | some clientId => exact hrefused _ _
  | submitOperation message =>
    cases hdocument : session.documentId with
    | none => exact hrefused _ _
    | some documentId =>
      cases session.clientId with
      | none => exact hrefused _ _
      | some clientId =>
        simp only
        split
        · exact hrefused _ _
        · rename_i hsame
          split
          · exact hrefused _ _
          · refine h.acceptOperation hsim session message.operation fun d hd => ?_
            rw [hdocument, Option.some.injEq] at hd
            rw [← hd, ← not_not.1 hsame]
            exact hnamed

omit h in
theorem Alike.caught {done : SyncServer σ × Except JsError Unit}
    {done' : SyncServer τ × Except JsError Unit} (hdone : AlikeDone R done done') :
    Alike R (caught k done) (caught k done') := by
  obtain ⟨w', outcome⟩ := done
  obtain ⟨v', outcome'⟩ := done'
  obtain ⟨halike, hsame⟩ := hdone
  simp only at halike hsame
  subst hsame
  cases outcome' with
  | error e => exact Alike.sendCaughtError hsim halike e
  | ok u => exact halike

theorem Alike.handleMessage (frame : Frame) (hnamed : Event.Named names (.message k frame env)) :
    Alike R (handleMessage env w k frame) (handleMessage env v k frame) := by
  unfold SyncServer.handleMessage
  rw [h.sessions]
  cases w.sessions.get? k with
  | none => exact h
  | some session =>
    cases frame with
    | notJson => exact h.recordProtocolError hsim _ _
    | malformed => exact h.recordProtocolError hsim _ _
    | message parsed =>
      simp only
      unfold parseClientMessage
      split
      · exact h.recordProtocolError hsim _ _
      · rename_i message hparsed
        obtain rfl : parsed = message := by
          split at hparsed
          · exact Option.some.inj hparsed
          · cases hparsed
        exact Alike.caught hsim (h.dispatch hsim session parsed hnamed)

/-- **An event with such names leaves the servers alike.** -/
theorem Alike.handle {e : Event} (hnamed : e.Named names) : Alike R (w.handle e) (v.handle e) := by
  cases e with
  | connection socket connectedAt =>
    simp only [SyncServer.handle, h.closing, h.readyState]
    split
    · exact h
    · refine Alike.record hsim ?_ _
      refine h.kept rfl fun t heq => ?_
      rw [heq]
      rfl
  | message socket frame env => exact h.handleMessage hsim frame hnamed
  | closing socket =>
    simp only [SyncServer.handle, h.readyState]
    split
    · exact h.setReadyState _
    · exact h
  | close socket env =>
    simp only [SyncServer.handle, h.readyState]
    split
    · have hleft : Alike R (SyncServer.leaveRoom env (w.setReadyState socket .closed) socket)
          (SyncServer.leaveRoom env (v.setReadyState socket .closed) socket) :=
        (h.setReadyState _).leaveRoom
      refine Alike.record hsim ?_ _
      refine hleft.kept rfl fun t heq => ?_
      rw [heq]
      rfl
    · exact h
  | shutDown =>
    refine h.kept rfl fun t heq => ?_
    rw [heq]
    rfl
  | shutDownDone =>
    simp only [SyncServer.handle, h.closing]
    split
    · refine h.kept rfl fun t heq => ?_
      rw [heq]
      rfl
    · exact h

omit h in
/-- **Servers over stores that are alike stay alike.** -/
theorem Alike.run : ∀ {w : SyncServer σ} {v : SyncServer τ} (es : List Event), Alike R w v →
    (∀ e ∈ es, e.Named names) → Alike R (w.run es) (v.run es)
  | _, _, [], h, _ => h
  | _, _, e :: es, h, hnamed => by
    obtain ⟨he, hnamed⟩ := List.forall_mem_cons.1 hnamed
    exact Alike.run es (h.handle hsim he) hnamed

end

end

end SyncServer

end LocalFirst
