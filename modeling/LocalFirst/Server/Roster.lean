import LocalFirst.Lib.Sorting
import LocalFirst.Server.MessageOrder
import Mathlib.Data.List.Dedup

/-!
# The roster of a room

`collectPresence` lists every client of a room once, however many sockets it has there.

* `length_collectPresence` — a roster is as long as the room has distinct clients.
* `sessions_handle` — what a connection starts with and a join keeps is true of every session.
* `presence_acceptable_iff` — a presence message passes its schema unless the roster is too long.
-/

set_option autoImplicit false

namespace LocalFirst

/-- The texts and the time of a session are within the bounds of the protocol. -/
structure SocketSession.Bounded (session : SocketSession) : Prop where
  connectedAt : nonNegativeSafeInteger session.connectedAt = true
  documentId : ∀ d, session.documentId = some d → boundedString MAX_DOCUMENT_ID_LENGTH d = true
  clientId : ∀ c, session.clientId = some c → boundedString MAX_CLIENT_ID_LENGTH c = true
  displayName : ∀ n, session.displayName = some n →
    boundedString MAX_DISPLAY_NAME_LENGTH n = true

/-- Upper case makes at most three code units of one. -/
def ServerEnv.Expands (env : ServerEnv) : Prop := ∀ s, (env.toUpperCase s).length ≤ 3 * s.length

namespace SyncServer

variable {w : SyncServer} {env : ServerEnv} {d : JsString}

/-- The clients of some sockets. -/
def clientIds (w : SyncServer) (sockets : List SocketId) : List JsString :=
  sockets.filterMap fun k => (w.sessions.get? k).bind (·.clientId)

/-- The sockets in the room of a document. -/
def members (w : SyncServer) (d : JsString) : List SocketId :=
  ((w.rooms.get? d).map (·.elems)).getD []

theorem mem_members {j : SocketId} : j ∈ w.members d ↔ w.Member d j := by
  unfold members Member
  cases w.rooms.get? d with
  | none => simp
  | some room => simp [InsSet.mem_def]

/-- Every session is within the bounds. -/
def Bounded (w : SyncServer) : Prop :=
  ∀ k session, w.sessions.get? k = some session → session.Bounded

/-- No session has an empty client id. -/
def Named (w : SyncServer) : Prop :=
  ∀ k session, w.sessions.get? k = some session → session.clientId ≠ some []

theorem Bounded.named (h : Bounded w) : Named w := by
  intro k session hsession hclient
  have hbounded := (h k session hsession).clientId _ hclient
  simp [boundedString_iff] at hbounded

/-! ## Every session -/

/-- What a join keeps. -/
theorem sessions_enterRoom {P : SocketSession → Prop} {socket : SocketId} {session : SocketSession}
    {message : JoinMessage} (h : ∀ k session, w.sessions.get? k = some session → P session)
    (hjoined : P (joinSession session message)) :
    ∀ k session', (w.enterRoom socket session message).sessions.get? k = some session' →
      P session' := by
  intro k other hother
  simp only [enterRoom, InsMap.get?_set] at hother
  split at hother
  · cases hother
    exact hjoined
  · exact h k other hother

/-- What a new session has and a join keeps is true of every session. -/
theorem sessions_handle {P : SocketSession → Prop} {e : Event}
    (h : ∀ k session, w.sessions.get? k = some session → P session)
    (hstart : ∀ socket connectedAt, e = .connection socket connectedAt →
      P ⟨connectedAt, none, none, none⟩)
    (hjoin : ∀ session message, P session → joinMessageSchema message = true →
      P (joinSession session message)) :
    ∀ k session, (w.handle e).sessions.get? k = some session → P session := by
  have hentered : ∀ {socket : SocketId} {session : SocketSession} {message : JoinMessage},
      w.sessions.get? socket = some session → joinMessageSchema message = true →
      SameRooms (w.enterRoom socket session message) (w.handle e) →
      ∀ k session, (w.handle e).sessions.get? k = some session → P session := by
    intro socket session message hsession hschema hrooms
    rw [hrooms.sessions]
    exact sessions_enterRoom h (hjoin session message (h socket session hsession) hschema)
  cases handle_effect w e with
  | moved he =>
    cases e with
    | connection socket connectedAt =>
      simp only [SyncServer.handle, record_plain]
      split
      · exact h
      · intro k session hsession
        simp only [InsMap.get?_set] at hsession
        split at hsession
        · cases hsession
          exact hstart socket connectedAt rfl
        · exact h k session hsession
    | message socket frame env => cases he
    | closing socket =>
      simp only [SyncServer.handle]
      split <;> exact h
    | close socket env =>
      simp only [SyncServer.handle, record_plain]
      split
      · obtain ⟨added, rooms, activeRooms, hleft, -⟩ :=
          leaveRoom_effect env (w.setReadyState socket .closed) socket
        rw [hleft]
        intro k session hsession
        simp only [InsMap.get?_delete] at hsession
        split at hsession
        · cases hsession
        · exact h k session hsession
      · exact h
    | shutDown => exact h
    | shutDownDone =>
      simp only [SyncServer.handle]
      split
      · intro k session hsession
        cases hsession
      · exact h
  | quiet added hrooms => rwa [hrooms.sessions]
  | stalled socket session message env added he hsession hnew hschema hthrows hrooms =>
    exact hentered hsession hschema hrooms
  | synced socket session message env rest he hsession hnew hschema hcursor hrooms =>
    exact hentered hsession hschema hrooms
  | echoed socket session documentId item env he hsession hdocument hclient hrooms =>
    rwa [hrooms.sessions]
  | appended socket session documentId operation env he hsession hdocument hclient hvalid hschema
      hrooms =>
    rwa [hrooms.sessions]

theorem Named.handle (h : Named w) (e : Event) : Named (w.handle e) := by
  refine sessions_handle h (fun _ _ _ hclient => by cases hclient)
    fun session message _ hschema hclient => ?_
  obtain ⟨-, hbounded, -⟩ := joinMessageSchema_spec hschema
  rw [Option.some.inj hclient] at hbounded
  simp [boundedString_iff] at hbounded

/-! ## One entry for each client -/

theorem Named.ne_nil (h : Named w) {sockets : List SocketId} {c : JsString}
    (hc : c ∈ clientIds w sockets) : c ≠ [] := by
  obtain ⟨k, -, hk⟩ := List.mem_filterMap.1 hc
  obtain ⟨session, hsession, hclient⟩ := Option.bind_eq_some_iff.1 hk
  rintro rfl
  exact h k session hsession hclient

theorem presenceByClientId_keys (h : Named w) : ∀ (peers : List SocketId)
    (byClientId : InsMap JsString PresenceParticipant) (c : JsString),
    c ∈ (presenceByClientId env w byClientId peers).keys ↔
      c ∈ byClientId.keys ∨ c ∈ clientIds w peers
  | [], byClientId, c => by simp [presenceByClientId, clientIds]
  | peer :: peers, byClientId, c => by
    have ih := presenceByClientId_keys h peers
    have hset : ∀ (clientId : JsString) (participant : PresenceParticipant),
        c ∈ (byClientId.set clientId participant).keys ↔ c ∈ byClientId.keys ∨ c = clientId := by
      intro clientId participant
      simp only [InsMap.mem_keys, InsMap.get?_set]
      by_cases hc : clientId = c
      · simp [hc]
      · simp [hc, Ne.symm hc]
    unfold presenceByClientId
    cases hsession : w.sessions.get? peer with
    | none =>
      have hids : clientIds w (peer :: peers) = clientIds w peers := by
        simp [clientIds, hsession]
      rw [hids]
      exact ih _ _
    | some session =>
      simp only
      cases hclient : session.clientId with
      | none =>
        have hids : clientIds w (peer :: peers) = clientIds w peers := by
          simp [clientIds, hsession, hclient]
        rw [hids]
        exact ih _ _
      | some clientId =>
        have hids : clientIds w (peer :: peers) = clientId :: clientIds w peers := by
          simp [clientIds, hsession, hclient]
        have hne : clientId ≠ [] := h.ne_nil (by rw [hids]; exact List.mem_cons_self)
        rw [hids, List.mem_cons]
        simp only [if_neg hne]
        cases hexisting : byClientId.get? clientId with
        | none =>
          simp only
          rw [ih, hset]
          tauto
        | some existing =>
          have hmem : clientId ∈ byClientId.keys := InsMap.mem_keys.2 ⟨existing, hexisting⟩
          simp only
          split
          · rw [ih]
            refine ⟨fun hc => hc.imp_right Or.inr, ?_⟩
            rintro (hc | rfl | hc)
            · exact Or.inl hc
            · exact Or.inl hmem
            · exact Or.inr hc
          · rw [ih, hset]
            tauto

/-- What is true of the entry that each socket would make is true of every entry. -/
theorem presenceByClientId_all {P : PresenceParticipant → Prop} : ∀ {peers : List SocketId}
    {byClientId : InsMap JsString PresenceParticipant},
    (∀ c p, byClientId.get? c = some p → P p) →
    (∀ peer ∈ peers, ∀ session clientId, w.sessions.get? peer = some session →
      session.clientId = some clientId →
      P ⟨clientId, session.displayName.getD (fallbackDisplayName env clientId),
        session.connectedAt⟩) →
    ∀ c p, (presenceByClientId env w byClientId peers).get? c = some p → P p
  | [], _, hold, _ => hold
  | peer :: peers, byClientId, hold, hnew => by
    obtain ⟨hfirst, hrest⟩ := List.forall_mem_cons.1 hnew
    have hset : ∀ (clientId : JsString) {participant : PresenceParticipant}, P participant →
        ∀ c p, (byClientId.set clientId participant).get? c = some p → P p := by
      intro clientId participant hp c p hc
      rw [InsMap.get?_set] at hc
      split at hc
      · cases hc
        exact hp
      · exact hold c p hc
    unfold presenceByClientId
    split
    · exact presenceByClientId_all hold hrest
    · rename_i session hsession
      split
      · exact presenceByClientId_all hold hrest
      · rename_i clientId hclient
        have hp := hfirst session clientId hsession hclient
        split
        · exact presenceByClientId_all hold hrest
        · simp only
          split
          · split
            · exact presenceByClientId_all hold hrest
            · exact presenceByClientId_all (hset clientId hp) hrest
          · exact presenceByClientId_all (hset clientId hp) hrest

/-- **A roster has every client of the room once.** -/
theorem length_collectPresence (h : Bounded w) (d : JsString) :
    (collectPresence env w d).length = (clientIds w (members w d)).dedup.length := by
  unfold collectPresence members
  cases w.rooms.get? d with
  | none => rfl
  | some room =>
    simp only [Option.map_some, Option.getD_some]
    rw [(sortBy_perm _ _).length_eq]
    have hperm : (presenceByClientId env w .empty room.elems).keys.Perm
        (clientIds w room.elems).dedup := by
      refine (List.perm_ext_iff_of_nodup (InsMap.nodup_keys _) (List.nodup_dedup _)).2 fun c => ?_
      rw [presenceByClientId_keys h.named, List.mem_dedup]
      simp [InsMap.keys, InsMap.empty]
    rw [← hperm.length_eq, InsMap.length_keys]
    simp [InsMap.values, InsMap.size]

/-- Every entry of a roster passes its schema. -/
theorem collectPresence_schema (h : Bounded w) (henv : env.Expands) (d : JsString) :
    ∀ p ∈ collectPresence env w d, presenceParticipantSchema p = true := by
  unfold collectPresence
  split
  · exact fun _ hp => by cases hp
  · intro p hp
    rw [mem_sortBy, InsMap.mem_values] at hp
    obtain ⟨c, hc⟩ := hp
    refine @presenceByClientId_all w env (fun p => presenceParticipantSchema p = true) _ .empty
      (fun c p hp => by cases hp) (fun peer _ session clientId hsession hclient => ?_) c p hc
    obtain ⟨hconnected, -, hid, hname⟩ := h peer session hsession
    have hdisplay : boundedString MAX_DISPLAY_NAME_LENGTH
        (session.displayName.getD (fallbackDisplayName env clientId)) = true := by
      cases hn : session.displayName with
      | some n => exact hname n hn
      | none =>
        -- six characters, and at most three for each of four
        have hupper := henv (clientId.take 4)
        have htake := List.length_take_le 4 clientId
        have hguest : (js "Guest ").length = 6 := by decide
        rw [Option.getD_none]
        refine boundedString_of_length ?_ ?_ <;>
          rw [fallbackDisplayName, List.length_append, hguest]
        · omega
        · rw [MAX_DISPLAY_NAME_LENGTH]
          omega
    simp only [presenceParticipantSchema, hid _ hclient, hdisplay, hconnected, Bool.and_self]

/-- **A presence message passes its schema unless the roster is too long.** -/
theorem presence_acceptable_iff (h : Bounded w) (henv : env.Expands)
    (hd : boundedString MAX_DOCUMENT_ID_LENGTH d = true) :
    serverMessageSchema (.presence ⟨d, collectPresence env w d⟩) = true ↔
      (clientIds w (members w d)).dedup.length ≤ MAX_PRESENCE_PARTICIPANTS := by
  have hall := List.all_eq_true.2 (collectPresence_schema h henv d)
  simp only [serverMessageSchema, presenceMessageSchema, hd, hall, length_collectPresence h,
    Bool.true_and, decide_eq_true_eq]

end SyncServer

end LocalFirst
