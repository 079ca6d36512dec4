import LocalFirst.Server.DocumentView
import LocalFirst.Server.Roster

/-!
# What one event sends

* `Speech` — errors; a sync message and the roster to the room that is joined; the roster to the room
  that is left; an operation back to its sender, or to the room.
* `Inv.handle_speech` — these are all.
-/

set_option autoImplicit false

namespace LocalFirst

namespace SyncServer

variable {w : SyncServer} {env : ServerEnv} {d : JsString} {k : SocketId} {e : Event}

/-- The messages of `broadcastPresence`. -/
def rosters {σ : Type} (env : ServerEnv) (w : SyncServer σ) (d : JsString) :
    List (SocketId × ServerMessage) :=
  (w.audience d).map (·, .presence ⟨d, collectPresence env w d⟩)

theorem audience_eq (w : SyncServer) (d : JsString) :
    w.audience d = w.reachable (w.members d) := by
  unfold audience members
  cases w.rooms.get? d <;> rfl

theorem broadcastPresence_eq {σ : Type} (env : ServerEnv) (w : SyncServer σ) (d : JsString) :
    broadcastPresence env w d = w.withSent (rosters env w d) := by
  unfold broadcastPresence rosters audience
  cases w.rooms.get? d with
  | none => exact (withSent_nil w).symm
  | some room =>
    simp only
    split
    · rename_i hsize
      rw [List.length_eq_zero_iff.1 hsize]
      exact (withSent_nil w).symm
    · exact sendToPeers_eq _ w room.elems

theorem presenceByClientId_congr {v w : SyncServer} (h : v.sessions = w.sessions) :
    ∀ (peers : List SocketId) (byClientId : InsMap JsString PresenceParticipant),
      presenceByClientId env v byClientId peers = presenceByClientId env w byClientId peers
  | [], _ => rfl
  | peer :: peers, byClientId => by
    unfold presenceByClientId
    rw [h]
    simp only [presenceByClientId_congr h peers]

/-- A roster depends on the sessions and the rooms only. -/
theorem rosters_congr {v w : SyncServer} (h : SameRooms w v) (d : JsString) :
    rosters env v d = rosters env w d := by
  unfold rosters audience collectPresence reachable
  rw [h.rooms, h.sessions, h.readyState]
  simp only [presenceByClientId_congr h.sessions]

/-- The server as a socket has left the room, when the others are told. -/
structure Leaving (w v : SyncServer) (k : SocketId) (d : JsString) : Prop where
  sessions : v.sessions = w.sessions
  members : v.members d = (w.members d).filter (· ≠ k)
  readyState : ∀ j, j ≠ k → v.readyState j = w.readyState j

/-- What an event sends, by kind. -/
inductive Speech (w w' : SyncServer) (e : Event) : Prop
  | errors (added : List (SocketId × ServerMessage)) (hsent : w'.sent = w.sent ++ added)
      (hadded : ∀ p ∈ added, ∃ m, p.2 = .error m ∧ m.code ≠ [])
  | joined (k : SocketId) (session : SocketSession) (message : JoinMessage) (env : ServerEnv)
      (hjoin : NewJoin w e k message env) (hpasses : ¬ RefusesJoin w message env)
      (hthrows : env.syncThrows = none) (hsession : w.sessions.get? k = some session)
      (hsent : w'.sent = w.sent ++ (w.addressed k (.sync (syncOf w message env)) ++
        rosters env (w.enterRoom k session message) message.documentId))
  | left (k : SocketId) (d : JsString) (env : ServerEnv) (v : SyncServer) (he : e = .close k env)
      (hjoined : w.joinedTo k = some d) (hclosing : w.closing = false)
      (hleaving : Leaving w v k d) (hsent : w'.sent = w.sent ++ rosters env v d)
  | echoed (k : SocketId) (session : SocketSession) (d : JsString) (operation : TextOperation)
      (env : ServerEnv) (item : SequencedOperation)
      (he : e = .message k (.message (.submitOperation ⟨d, operation⟩)) env)
      (hthrows : env.appendThrows = none) (hsession : w.sessions.get? k = some session)
      (hdocument : session.documentId = some d)
      (hanswer : answer (w.store.log d) d session.clientId operation = some (some item))
      (hsent : w'.sent = w.sent ++ w.addressed k (.operation ⟨d, item.serverSeq, operation⟩))
  | appended (k : SocketId) (session : SocketSession) (d : JsString) (operation : TextOperation)
      (env : ServerEnv) (he : e = .message k (.message (.submitOperation ⟨d, operation⟩)) env)
      (hthrows : env.appendThrows = none) (hsession : w.sessions.get? k = some session)
      (hdocument : session.documentId = some d)
      (hanswer : answer (w.store.log d) d session.clientId operation = some none)
      (hsent : w'.sent = w.sent ++
        (w.audience d).map (·, .operation ⟨d, w.store.lastServerSeq + 1, operation⟩))

theorem Speech.of_errs {w' : SyncServer} (h : OnlyErrs w w') : Speech w w' e := by
  obtain ⟨added, rfl, hadded⟩ := h
  exact .errors added rfl fun p hp => (hadded p hp).2

theorem Speech.silent {w' : SyncServer} (h : w'.sent = w.sent) : Speech w w' e :=
  .errors [] (by rw [h, List.append_nil]) fun _ hp => by cases hp

/-- A join that passes the checks takes the socket into the room and speaks to both. -/
theorem join_accepted {message : JoinMessage} (hjoin : NewJoin w e k message env)
    (hpasses : ¬ RefusesJoin w message env) (hthrows : env.syncThrows = none) :
    ∃ session, w.sessions.get? k = some session ∧
      (session.documentId = none ∨ session.clientId = none) ∧
      w.handle e = (synced env (w.enterRoom k session message) k message).withSent
        (rosters env (w.enterRoom k session message) message.documentId) := by
  unfold RefusesJoin at hpasses
  rw [not_or, not_or, Bool.not_eq_false, Option.not_isSome_iff_eq_none, not_lt] at hpasses
  obtain ⟨hschema, hlatest, hcursor⟩ := hpasses
  obtain ⟨session, hsession, hnew, heq⟩ := handle_newJoin hjoin hschema
  refine ⟨session, hsession, hnew, ?_⟩
  have hrosters : rosters env (synced env (w.enterRoom k session message) k message)
      message.documentId = rosters env (w.enterRoom k session message) message.documentId :=
    rosters_congr (by rw [synced_eq]; exact ⟨rfl, rfl, rfl, rfl⟩) _
  rw [joinSocket_plain] at heq
  rw [hlatest] at heq
  simp only [if_neg (not_lt.2 hcursor), hthrows] at heq
  rw [broadcastPresence_eq, hrosters] at heq
  exact heq

/-- A join that passes the checks is told of the log, and the room of its clients. -/
theorem join_sends {message : JoinMessage} (hjoin : NewJoin w e k message env)
    (hpasses : ¬ RefusesJoin w message env) (hthrows : env.syncThrows = none) :
    ∃ session, w.sessions.get? k = some session ∧
      (w.handle e).sent = w.sent ++ (w.addressed k (.sync (syncOf w message env)) ++
        rosters env (w.enterRoom k session message) message.documentId) := by
  obtain ⟨session, hsession, -, heq⟩ := join_accepted hjoin hpasses hthrows
  refine ⟨session, hsession, ?_⟩
  rw [heq, synced_eq]
  exact List.append_assoc _ _ _

/-- A join that arrives on a socket without a document. -/
theorem join_speech {message : JoinMessage} (hjoin : NewJoin w e k message env) :
    Speech w (w.handle e) e := by
  by_cases hrefused : RefusesJoin w message env
  · exact .of_errs (join_refused_errs hjoin hrefused)
  · cases hthrows : env.syncThrows with
    | some error =>
      -- the socket has entered the room, and is only told of the error
      have hpasses := hrefused
      unfold RefusesJoin at hpasses
      rw [not_or, not_or, Bool.not_eq_false, Option.not_isSome_iff_eq_none, not_lt] at hpasses
      obtain ⟨hschema, hlatest, hcursor⟩ := hpasses
      obtain ⟨session, hsession, -, heq⟩ := handle_newJoin hjoin hschema
      obtain ⟨added, hsent, hadded⟩ :=
        sendCaughtError_errs (w.enterRoom k session message) k error
      rw [joinSocket_plain] at heq
      rw [hlatest] at heq
      simp only [if_neg (not_lt.2 hcursor), hthrows] at heq
      rw [caught_error, hsent] at heq
      exact .errors added (by rw [heq]; rfl) fun p hp => (hadded p hp).2
    | none =>
      obtain ⟨session, hsession, hsent⟩ := join_sends hjoin hrefused hthrows
      exact .joined k session message env hjoin hrefused hthrows hsession hsent

/-- A submit to another document, or one whose append throws, is only told of an error. -/
theorem submit_errs {session : SocketSession} (hsession : w.sessions.get? k = some session)
    {message : SubmitOperationMessage}
    (hnot : session.documentId ≠ some message.documentId ∨ env.appendThrows ≠ none) :
    OnlyErrs w (w.handle (.message k (.message (.submitOperation message)) env)) := by
  simp only [SyncServer.handle, handleMessage, hsession, parseClientMessage]
  by_cases hschema : clientMessageSchema (.submitOperation message) = true
  · simp only [hschema, if_true]
    unfold dispatch
    cases hdocument : session.documentId with
    | none => exact sendError_errs _ _ _ (by decide)
    | some d =>
      cases hclient : session.clientId with
      | none => exact sendError_errs _ _ _ (by decide)
      | some clientId =>
        simp only
        by_cases hdoc : message.documentId = d
        · by_cases hcl : message.operation.clientId = clientId
          · have hthrows := hnot.resolve_left (by rw [hdocument, hdoc]; simp)
            obtain ⟨error, herror⟩ := Option.ne_none_iff_exists'.1 hthrows
            simp only [hdoc, hcl, ne_eq, not_true_eq_false, if_false]
            rw [acceptOperation_plain]
            simp only [hdocument, herror]
            cases validateOperation message.operation <;> exact sendCaughtError_errs _ _ _
          · simp only [hdoc, hcl, ne_eq, not_true_eq_false, if_false, not_false_eq_true, if_true]
            exact sendError_errs _ _ _ (by decide)
        · simp only [hdoc, ne_eq, not_false_eq_true, if_true]
          exact sendError_errs _ _ _ (by decide)
  · simp only [hschema, Bool.false_eq_true, if_false]
    exact sendError_errs _ _ _ (by decide)

/-- An operation that is submitted. -/
theorem Inv.submit_speech (h : Inv w) {session : SocketSession}
    (hsession : w.sessions.get? k = some session) (message : SubmitOperationMessage) :
    Speech w (w.handle (.message k (.message (.submitOperation message)) env))
      (.message k (.message (.submitOperation message)) env) := by
  by_cases hdocument : session.documentId = some message.documentId
  · cases hthrows : env.appendThrows with
    | some error => exact .of_errs (submit_errs hsession (Or.inr (by rw [hthrows]; simp)))
    | none =>
      obtain ⟨d, operation⟩ := message
      have hstep := @Inv.submits w _ k h session hsession hdocument operation env hthrows
      cases hanswer : answer (w.store.log d) d session.clientId operation with
      | none =>
        rw [hanswer] at hstep
        exact .of_errs hstep
      | some found =>
        rw [hanswer] at hstep
        cases found with
        | none =>
          exact .appended k session d operation env rfl hthrows hsession hdocument hanswer
            (by rw [hstep]; rfl)
        | some item =>
          exact .echoed k session d operation env item rfl hthrows hsession hdocument hanswer
            (by rw [hstep]; rfl)
  · exact .of_errs (submit_errs hsession (Or.inl hdocument))

/-- The room of a document after a socket has left it. -/
theorem members_leave {v : SyncServer} {room : InsSet SocketId} (hroom : w.rooms.get? d = some room)
    (hrooms : v.rooms = if (room.delete k).size = 0 then w.rooms.delete d
      else w.rooms.set d (room.delete k)) : v.members d = (w.members d).filter (· ≠ k) := by
  unfold members
  rw [hrooms, hroom]
  split
  · rename_i hsize
    have hnil : room.elems.filter (· ≠ k) = [] := List.length_eq_zero_iff.1 hsize
    simp only [InsMap.get?_delete_self, Option.map_none, Option.getD_none, Option.map_some,
      Option.getD_some, hnil]
  · simp only [InsMap.get?_set_self, Option.map_some, Option.getD_some]
    rfl

/-- The others in the room are told of a socket that goes away. -/
theorem Inv.close_sends (h : Inv w) (hjoined : w.joinedTo k = some d) (hclosing : w.closing = false) :
    ∃ v, Leaving w v k d ∧ (w.handle (.close k env)).sent = w.sent ++ rosters env v d := by
  obtain ⟨session, hsession, hdocument, hready⟩ := h.connected_of_joined hjoined
  obtain ⟨room, hroom, -⟩ := (h.rooms.member d k).2 hjoined
  simp only [SyncServer.handle, record_plain, if_pos hready]
  unfold leaveRoom
  have hdoc : ((w.setReadyState k .closed).sessions.get? k).bind (·.documentId) = some d := hjoined
  have hroom' : (w.setReadyState k .closed).rooms.get? d = some room := hroom
  have hclosing' : (w.setReadyState k .closed).closing = false := hclosing
  simp only [hdoc, if_neg (h.rooms.named k d hjoined), hroom', hclosing', Bool.false_eq_true, if_false]
  rw [broadcastPresence_eq]
  refine ⟨_, ?_, rfl⟩
  exact ⟨rfl, members_leave hroom rfl, fun j hj => if_neg hj⟩

/-- Nobody is told of a socket without a document, nor while the server closes. -/
theorem leaveRoom_silent (h : w.joinedTo k = none ∨ w.closing = true) :
    (leaveRoom env w k).sent = w.sent := by
  unfold leaveRoom
  split
  · rfl
  · rename_i d hd
    split
    · rfl
    · split
      · rfl
      · simp only
        split
        · rfl
        · rename_i hclosing
          rcases h with hnone | htrue
          · rw [joinedTo, hd] at hnone
            cases hnone
          · exact absurd htrue hclosing

/-- A socket that goes away. -/
theorem Inv.close_speech (h : Inv w) :
    Speech w (w.handle (.close k env)) (.close k env) := by
  have hsilent : w.joinedTo k = none ∨ w.closing = true →
      (w.handle (.close k env)).sent = w.sent := by
    intro hquiet
    simp only [SyncServer.handle, record_plain]
    split
    · exact @leaveRoom_silent (w.setReadyState k .closed) env k hquiet
    · rfl
  cases hjoined : w.joinedTo k with
  | none => exact .silent (hsilent (Or.inl hjoined))
  | some d =>
    cases hclosing : w.closing with
    | true => exact .silent (hsilent (Or.inr hclosing))
    | false =>
      obtain ⟨v, hleaving, hsent⟩ := @Inv.close_sends w env d k h hjoined hclosing
      exact .left k d env v rfl hjoined hclosing hleaving hsent

/-- **What one event sends.** -/
theorem Inv.handle_speech (h : Inv w) (e : Event) : Speech w (w.handle e) e := by
  cases e with
  | connection socket connectedAt =>
    simp only [SyncServer.handle, record_plain]
    split <;> exact .silent rfl
  | message socket frame env =>
    cases hsession : w.sessions.get? socket with
    | none =>
      simp only [SyncServer.handle, handleMessage, hsession]
      exact .silent rfl
    | some session =>
      cases frame with
      | notJson =>
        simp only [SyncServer.handle, handleMessage, hsession]
        exact .of_errs (sendError_errs _ _ _ (by decide))
      | malformed =>
        simp only [SyncServer.handle, handleMessage, hsession]
        exact .of_errs (sendError_errs _ _ _ (by decide))
      | message parsed =>
        cases parsed with
        | join message =>
          by_cases hnew : session.documentId = none ∨ session.clientId = none
          · exact join_speech ⟨rfl, session, hsession, hnew⟩
          · refine .of_errs ?_
            rw [not_or] at hnew
            obtain ⟨d, hdocument⟩ := Option.ne_none_iff_exists'.1 hnew.1
            obtain ⟨c, hclient⟩ := Option.ne_none_iff_exists'.1 hnew.2
            simp only [SyncServer.handle, handleMessage, hsession, parseClientMessage]
            split
            · exact sendError_errs _ _ _ (by decide)
            · rename_i heq
              split at heq
              · cases heq
                unfold dispatch
                rw [hdocument, hclient]
                exact sendError_errs _ _ _ (by decide)
              · cases heq
        | submitOperation message => exact h.submit_speech hsession message
  | closing socket =>
    simp only [SyncServer.handle]
    split <;> exact .silent rfl
  | close socket env => exact h.close_speech
  | shutDown => exact .silent rfl
  | shutDownDone =>
    simp only [SyncServer.handle]
    split <;> exact .silent rfl

end SyncServer

end LocalFirst
