import LocalFirst.Server.Speech

/-!
# Presence agrees with membership

Membership, the roster and the gauge of active rooms are kept by separate code in joins and leaves.

* `IsRoster` — what a roster says of the connections in a room.
* `collectPresence_isRoster` — `collectPresence` makes the roster of the room.
* `Tidy` — no empty room is kept, and the gauge counts the rooms.
* `Informed` — the last roster that an open member was sent is the roster of its room.
* `presence_agrees` — both hold after every event of a failure-free run, and the members of a room
  are the sockets that have joined it and are not closed.
-/

set_option autoImplicit false

namespace LocalFirst

/-! ## Rosters -/

/-- A roster of some connections, each a client and the time of the connection: every client once,
with the earliest of its times, in the order of these. -/
structure IsRoster (present : JsString → Int → Prop) (participants : List PresenceParticipant) :
    Prop where
  distinct : (participants.map (·.clientId)).Nodup
  complete : ∀ c, (∃ p ∈ participants, p.clientId = c) ↔ ∃ t, present c t
  earliest : ∀ p ∈ participants, present p.clientId p.joinedAt ∧
    ∀ t, present p.clientId t → p.joinedAt ≤ t
  sorted : participants.Pairwise fun a b => a.joinedAt ≤ b.joinedAt

theorem IsRoster.congr {present present' : JsString → Int → Prop}
    {participants : List PresenceParticipant} (h : IsRoster present participants)
    (hiff : ∀ c t, present' c t ↔ present c t) : IsRoster present' participants := by
  have heq : present' = present := by
    funext c t
    exact propext (hiff c t)
  rwa [heq]

/-- A table of the earliest connection of each client. -/
structure Earliest (present : JsString → Int → Prop)
    (byClientId : InsMap JsString PresenceParticipant) : Prop where
  complete : ∀ c t, present c t → ∃ p, byClientId.get? c = some p
  entry : ∀ c p, byClientId.get? c = some p →
    p.clientId = c ∧ present c p.joinedAt ∧ ∀ t, present c t → p.joinedAt ≤ t

theorem Earliest.congr {present present' : JsString → Int → Prop}
    {byClientId : InsMap JsString PresenceParticipant} (h : Earliest present byClientId)
    (hiff : ∀ c t, present' c t ↔ present c t) : Earliest present' byClientId := by
  have heq : present' = present := by
    funext c t
    exact propext (hiff c t)
  rwa [heq]

/-- One more connection: it counts if it is the first of its client, or earlier than that. -/
theorem Earliest.add {present : JsString → Int → Prop}
    {byClientId : InsMap JsString PresenceParticipant} (h : Earliest present byClientId)
    (participant : PresenceParticipant) :
    Earliest (fun c t => present c t ∨ (c = participant.clientId ∧ t = participant.joinedAt))
      (match byClientId.get? participant.clientId with
        | some existing => if existing.joinedAt ≤ participant.joinedAt then byClientId
          else byClientId.set participant.clientId participant
        | none => byClientId.set participant.clientId participant) := by
  obtain ⟨hcomplete, hentry⟩ := h
  -- the entry of the client is replaced by one that is no later than any
  have hset : (∀ t, present participant.clientId t → participant.joinedAt ≤ t) →
      Earliest (fun c t => present c t ∨ (c = participant.clientId ∧ t = participant.joinedAt))
        (byClientId.set participant.clientId participant) := by
    intro hfirst
    refine ⟨fun c t hpresent => ?_, fun c p hp => ?_⟩
    · rw [InsMap.get?_set]
      split
      · exact ⟨participant, rfl⟩
      · rename_i hc
        exact hcomplete c t (hpresent.resolve_right fun hnew => hc hnew.1.symm)
    · rw [InsMap.get?_set] at hp
      split at hp
      · rename_i hc
        cases hp
        subst hc
        refine ⟨rfl, Or.inr ⟨rfl, rfl⟩, fun t hpresent => ?_⟩
        rcases hpresent with hold | ⟨-, rfl⟩
        · exact hfirst t hold
        · exact le_refl _
      · rename_i hc
        obtain ⟨hid, hold, hleast⟩ := hentry c p hp
        refine ⟨hid, Or.inl hold, fun t hpresent => ?_⟩
        exact hleast t (hpresent.resolve_right fun hnew => hc hnew.1.symm)
  cases hexisting : byClientId.get? participant.clientId with
  | none =>
    refine hset fun t hpresent => ?_
    obtain ⟨p, hp⟩ := hcomplete _ t hpresent
    rw [hexisting] at hp
    cases hp
  | some existing =>
    obtain ⟨-, -, hleast⟩ := hentry _ _ hexisting
    simp only
    split
    · rename_i hle
      refine ⟨fun c t hpresent => ?_, fun c p hp => ?_⟩
      · rcases hpresent with hold | ⟨rfl, -⟩
        · exact hcomplete c t hold
        · exact ⟨existing, hexisting⟩
      · obtain ⟨hid, hold, hleast⟩ := hentry c p hp
        refine ⟨hid, Or.inl hold, fun t hpresent => ?_⟩
        rcases hpresent with hold | ⟨rfl, rfl⟩
        · exact hleast t hold
        · rw [hexisting] at hp
          cases hp
          exact hle
    · rename_i hlt
      refine hset fun t hpresent => ?_
      have := hleast t hpresent
      omega

/-- The values of the table, sorted, are a roster. -/
theorem Earliest.isRoster {present : JsString → Int → Prop}
    {byClientId : InsMap JsString PresenceParticipant} (h : Earliest present byClientId) :
    IsRoster present (sortBy (fun left right => left.joinedAt - right.joinedAt) byClientId.values) := by
  have hvalues : ∀ p, p ∈ byClientId.values ↔ byClientId.get? p.clientId = some p := by
    intro p
    rw [InsMap.mem_values]
    refine ⟨fun ⟨c, hc⟩ => ?_, fun hp => ⟨p.clientId, hp⟩⟩
    rwa [(h.entry c p hc).1]
  refine ⟨?_, fun c => ⟨?_, ?_⟩, fun p hp => ?_, ?_⟩
  · -- the ids of the values are the keys
    have hkeys : byClientId.values.map (·.clientId) = byClientId.keys := by
      unfold InsMap.values InsMap.keys
      rw [List.map_map]
      refine List.map_congr_left fun entry hentry => ?_
      exact (h.entry entry.1 entry.2 (InsMap.mem_entries.1 hentry)).1
    rw [((sortBy_perm _ _).map _).nodup_iff, hkeys]
    exact byClientId.nodup_keys
  · rintro ⟨p, hp, rfl⟩
    rw [mem_sortBy, hvalues] at hp
    exact ⟨_, (h.entry _ p hp).2.1⟩
  · rintro ⟨t, hpresent⟩
    obtain ⟨p, hp⟩ := h.complete c t hpresent
    have hid := (h.entry c p hp).1
    refine ⟨p, ?_, hid⟩
    rw [mem_sortBy, hvalues, hid]
    exact hp
  · rw [mem_sortBy, hvalues] at hp
    exact (h.entry _ p hp).2
  · have hcompares : ComparesKey (fun left right : PresenceParticipant =>
        left.joinedAt - right.joinedAt) (·.joinedAt) := ⟨fun a b => by omega⟩
    exact hcompares.sortBy_pairwise _

namespace SyncServer

variable {w v : SyncServer} {env : ServerEnv} {d : JsString} {k j : SocketId} {e : Event}

/-! ## The roster of a room -/

/-- A socket of the client is in the room, connected at the time. -/
def Present (w : SyncServer) (d clientId : JsString) (connectedAt : Int) : Prop :=
  ∃ k session, w.Member d k ∧ w.sessions.get? k = some session ∧
    session.clientId = some clientId ∧ session.connectedAt = connectedAt

/-- One socket of a room is looked at. -/
theorem presenceByClientId_cons (h : Named w) {present : JsString → Int → Prop} (peer : SocketId)
    (peers : List SocketId) {byClientId : InsMap JsString PresenceParticipant}
    (hold : Earliest present byClientId) : ∃ byClientId',
      presenceByClientId env w byClientId (peer :: peers) =
        presenceByClientId env w byClientId' peers ∧
      Earliest (fun c t => present c t ∨ ∃ session, w.sessions.get? peer = some session ∧
        session.clientId = some c ∧ session.connectedAt = t) byClientId' := by
  rw [presenceByClientId]
  cases hsession : w.sessions.get? peer with
  | none => exact ⟨byClientId, rfl, hold.congr fun c t => by simp⟩
  | some session =>
    simp only
    cases hclient : session.clientId with
    | none => exact ⟨byClientId, rfl, hold.congr fun c t => by simp [hclient]⟩
    | some clientId =>
      have hne : clientId ≠ [] := fun hnil => h peer session hsession (by rw [hclient, hnil])
      simp only [if_neg hne]
      have hadd := hold.add ⟨clientId, session.displayName.getD (fallbackDisplayName env clientId),
        session.connectedAt⟩
      refine ⟨_, ?_, hadd.congr fun c t => ?_⟩
      · simp only
        cases byClientId.get? clientId with
        | none => rfl
        | some existing => exact (apply_ite (presenceByClientId env w · peers) _ _ _).symm
      · simp [hclient, eq_comm]

theorem presenceByClientId_earliest (h : Named w) : ∀ (peers : List SocketId)
    {present : JsString → Int → Prop} {byClientId : InsMap JsString PresenceParticipant},
    Earliest present byClientId →
    Earliest (fun c t => present c t ∨ ∃ k ∈ peers, ∃ session, w.sessions.get? k = some session ∧
      session.clientId = some c ∧ session.connectedAt = t) (presenceByClientId env w byClientId peers)
  | [], _, _, hold => hold.congr fun c t => by simp
  | peer :: peers, present, byClientId, hold => by
    obtain ⟨byClientId', heq, hnew⟩ := @presenceByClientId_cons w env h present peer peers _ hold
    rw [heq]
    refine (presenceByClientId_earliest h peers hnew).congr fun c t => ?_
    simp only [List.mem_cons, exists_eq_or_imp, or_assoc]

/-- **`collectPresence` makes the roster of the room.** -/
theorem collectPresence_isRoster (h : Named w) (d : JsString) :
    IsRoster (w.Present d) (collectPresence env w d) := by
  have hempty : Earliest (fun _ _ => False) .empty :=
    ⟨fun _ _ hpresent => hpresent.elim, fun _ _ hp => by cases hp⟩
  have heq : collectPresence env w d =
      sortBy (fun left right => left.joinedAt - right.joinedAt)
        (presenceByClientId env w .empty (w.members d)).values := by
    unfold collectPresence members
    cases w.rooms.get? d <;> rfl
  rw [heq]
  refine (presenceByClientId_earliest h (w.members d) hempty).isRoster.congr fun c t => ?_
  unfold Present
  simp only [false_or, mem_members]
  constructor
  · rintro ⟨k, session, hmember, hrest⟩
    exact ⟨k, hmember, session, hrest⟩
  · rintro ⟨k, hmember, session, hrest⟩
    exact ⟨k, session, hmember, hrest⟩

/-! ## The rooms and the gauge -/

/-- No empty room is kept, and the gauge counts the rooms. -/
structure Tidy (w : SyncServer) : Prop where
  nonempty : ∀ d room, w.rooms.get? d = some room → room.size ≠ 0
  gauge : w.activeRooms = w.rooms.size

theorem Tidy.start (store : OperationStore) : Tidy (start store) where
  nonempty d room hroom := by cases hroom
  gauge := rfl

theorem Tidy.congr (h : Tidy w) (hrooms : v.rooms = w.rooms) (hgauge : v.activeRooms = w.activeRooms) :
    Tidy v := by
  refine ⟨?_, ?_⟩
  · rw [hrooms]
    exact h.nonempty
  · rw [hrooms, hgauge]
    exact h.gauge

theorem Tidy.quiet (h : Tidy w) (hquiet : QuietlySends w v) : Tidy v := by
  obtain ⟨added, rfl, -⟩ := hquiet
  exact h.congr rfl rfl

theorem Tidy.enterRoom (h : Tidy w) (socket : SocketId) (session : SocketSession)
    (message : JoinMessage) : Tidy (w.enterRoom socket session message) := by
  refine ⟨fun d room hroom => ?_, rfl⟩
  simp only [SyncServer.enterRoom, InsMap.get?_set] at hroom
  split at hroom
  · cases hroom
    have hmem : socket ∈ (((w.rooms.get? message.documentId).getD .empty).add socket).elems :=
      InsSet.mem_add.2 (Or.inr rfl)
    intro hsize
    rw [List.length_eq_zero_iff.1 hsize] at hmem
    cases hmem
  · exact h.nonempty d room hroom

theorem Tidy.joinSocket (h : Tidy w) (socket : SocketId) (session : SocketSession)
    (message : JoinMessage) : Tidy (joinSocket env w socket session message).1 := by
  have hentered := h.enterRoom socket session message
  rw [joinSocket_plain]
  split
  · exact h
  · split
    · exact h.quiet (sendError_errs _ _ _ (by decide)).quiet
    · split
      · exact hentered
      · refine Tidy.quiet ?_ (broadcastPresence_quiet _ _ _)
        rw [synced_eq]
        exact hentered.congr rfl rfl

theorem Tidy.acceptOperation (h : Tidy w) (socket : SocketId) (session : SocketSession)
    (operation : TextOperation) : Tidy (acceptOperation env w socket session operation).1 := by
  rw [acceptOperation_plain]
  split
  · exact h
  · split
    · exact h
    · split
      · exact h
      · split
        · exact h
        · simp only
          split
          · rw [sendJson_eq]
            exact h.congr rfl rfl
          · rw [broadcast_eq]
            exact h.congr rfl rfl

theorem Tidy.dispatch (h : Tidy w) (socket : SocketId) (session : SocketSession)
    (message : ClientMessage) : Tidy (dispatch env w socket session message).1 := by
  have herror : ∀ {code : JsString} (text : JsString), code ≠ [] →
      Tidy (w.sendError socket code text) :=
    fun text hcode => h.quiet (sendError_errs w socket text hcode).quiet
  unfold SyncServer.dispatch
  split
  · split
    · exact herror _ (by decide)
    · split
      · exact herror _ (by decide)
      · split
        · exact herror _ (by decide)
        · exact h.acceptOperation _ _ _
  · split
    · exact h.joinSocket _ _ _
    · exact herror _ (by decide)

theorem Tidy.caught {result : SyncServer × Except JsError Unit} (h : Tidy result.1)
    (socket : SocketId) : Tidy (caught socket result) := by
  obtain ⟨w', _ | _⟩ := result
  · exact h.quiet (sendCaughtError_quiet _ _ _)
  · exact h

theorem Tidy.handleMessage (h : Tidy w) (socket : SocketId) (frame : Frame) :
    Tidy (handleMessage env w socket frame) := by
  unfold SyncServer.handleMessage
  split
  · exact h
  · rename_i session hsession
    split
    · exact h.quiet (sendError_errs _ _ _ (by decide)).quiet
    · exact h.quiet (sendError_errs _ _ _ (by decide)).quiet
    · split
      · exact h.quiet (sendError_errs _ _ _ (by decide)).quiet
      · rename_i message _
        exact (@Tidy.dispatch w env h socket session message).caught socket

theorem Tidy.leaveRoom (h : Tidy w) (socket : SocketId) : Tidy (leaveRoom env w socket) := by
  unfold SyncServer.leaveRoom
  split
  · exact h
  · rename_i documentId hdocument
    split
    · exact h
    · split
      · exact h
      · rename_i room hroom
        have hleft : ∀ left : SyncServer, left.rooms = (if (room.delete socket).size = 0 then
            w.rooms.delete documentId else w.rooms.set documentId (room.delete socket)) →
            left.activeRooms = left.rooms.size → Tidy left := by
          intro left hrooms hgauge
          refine ⟨fun d other hother => ?_, hgauge⟩
          rw [hrooms] at hother
          split at hother
          · rw [InsMap.get?_delete] at hother
            split at hother
            · cases hother
            · exact h.nonempty d other hother
          · rename_i hsize
            rw [InsMap.get?_set] at hother
            split at hother
            · cases hother
              exact hsize
            · exact h.nonempty d other hother
        simp only
        split
        · exact hleft _ rfl rfl
        · exact (hleft _ rfl rfl).quiet (broadcastPresence_quiet _ _ _)

/-- **Every event leaves the rooms tidy.** -/
theorem Tidy.handle (h : Tidy w) (e : Event) : Tidy (w.handle e) := by
  cases e with
  | connection socket connectedAt =>
    simp only [SyncServer.handle, record_plain]
    split
    · exact h
    · exact h.congr rfl rfl
  | message socket frame env => exact h.handleMessage socket frame
  | closing socket =>
    simp only [SyncServer.handle]
    split
    · exact h.congr rfl rfl
    · exact h
  | close socket env =>
    simp only [SyncServer.handle, record_plain]
    split
    · have hclosed : Tidy (w.setReadyState socket .closed) := h.congr rfl rfl
      exact (hclosed.leaveRoom socket).congr rfl rfl
    · exact h
  | shutDown => exact h.congr rfl rfl
  | shutDownDone =>
    simp only [SyncServer.handle]
    split
    · exact ⟨fun d room hroom => by (cases hroom), rfl⟩
    · exact h

/-! ## What the members were told -/

def presenceOf : ServerMessage → Option PresenceMessage
  | .presence m => some m
  | _ => none

/-- The presence messages that a socket was sent. -/
def presences (w : SyncServer) (socket : SocketId) : List PresenceMessage :=
  (w.sentTo socket).filterMap presenceOf

/-- The last presence message that an open member of a room was sent holds the roster of the room. -/
def Informed (w : SyncServer) : Prop :=
  ∀ d k, w.joinedTo k = some d → w.readyState k = .opened →
    ∃ m, (w.presences k).getLast? = some m ∧ m.documentId = d ∧ IsRoster (w.Present d) m.participants

/-- The connections in a room, told by the sessions. -/
theorem present_iff (h : RoomInv w) {c : JsString} {t : Int} : w.Present d c t ↔
    ∃ k session, w.sessions.get? k = some session ∧ session.documentId = some d ∧
      session.clientId = some c ∧ session.connectedAt = t := by
  unfold Present
  constructor
  · rintro ⟨k, session, hmember, hsession, hrest⟩
    rw [h.member, joinedTo, hsession] at hmember
    exact ⟨k, session, hsession, hmember, hrest⟩
  · rintro ⟨k, session, hsession, hdocument, hrest⟩
    refine ⟨k, session, ?_, hsession, hrest⟩
    rw [h.member, joinedTo, hsession]
    exact hdocument

/-- The same sessions are in the document. -/
theorem present_congr (hw : RoomInv w) (hv : RoomInv v)
    (hsame : ∀ k session, session.documentId = some d →
      (v.sessions.get? k = some session ↔ w.sessions.get? k = some session)) (c : JsString) (t : Int) :
    v.Present d c t ↔ w.Present d c t := by
  rw [present_iff hw, present_iff hv]
  constructor
  · rintro ⟨k, session, hsession, hdocument, hrest⟩
    exact ⟨k, session, (hsame k session hdocument).1 hsession, hdocument, hrest⟩
  · rintro ⟨k, session, hsession, hdocument, hrest⟩
    exact ⟨k, session, (hsame k session hdocument).2 hsession, hdocument, hrest⟩

theorem presences_append {added : List (SocketId × ServerMessage)}
    (hsent : v.sent = w.sent ++ added) :
    v.presences k = w.presences k ++ (toSocket k added).filterMap presenceOf := by
  unfold presences
  rw [sentTo_append hsent, List.filterMap_append]

/-- No roster is sent. -/
theorem presences_still {added : List (SocketId × ServerMessage)} (hsent : v.sent = w.sent ++ added)
    (hnone : ∀ p ∈ added, presenceOf p.2 = none) : v.presences k = w.presences k := by
  rw [presences_append hsent, List.filterMap_eq_nil_iff.2, List.append_nil]
  exact fun m hm => hnone _ (mem_toSocket.1 hm)

/-- A roster is sent to the audience of a room, after messages that hold none. -/
theorem presences_told {added : List (SocketId × ServerMessage)} {u : SyncServer}
    (hsent : v.sent = w.sent ++ (added ++ rosters env u d))
    (hnone : ∀ p ∈ added, presenceOf p.2 = none) (hk : k ∈ u.audience d) :
    v.presences k = w.presences k ++ [⟨d, collectPresence env u d⟩] := by
  have hadded : (toSocket k added).filterMap presenceOf = [] :=
    List.filterMap_eq_nil_iff.2 fun m hm => hnone _ (mem_toSocket.1 hm)
  rw [presences_append hsent, toSocket_append, List.filterMap_append, hadded, rosters,
    toSocket_map _ (audience_nodup u d) hk]
  rfl

/-- A roster is sent to others. -/
theorem presences_aside {added : List (SocketId × ServerMessage)} {u : SyncServer}
    (hsent : v.sent = w.sent ++ (added ++ rosters env u d))
    (hnone : ∀ p ∈ added, presenceOf p.2 = none) (hk : k ∉ u.audience d) :
    v.presences k = w.presences k := by
  have hadded : (toSocket k (added ++ rosters env u d)).filterMap presenceOf = [] := by
    refine List.filterMap_eq_nil_iff.2 fun m hm => ?_
    rcases List.mem_append.1 (mem_toSocket.1 hm) with hold | hroster
    · exact hnone _ hold
    · obtain ⟨peer, hpeer, heq⟩ := List.mem_map.1 hroster
      cases heq
      exact absurd hpeer hk
  rw [presences_append hsent, hadded, List.append_nil]

/-- An event that changes no roster and sends none. -/
theorem Informed.still (h : Informed w) (hw : RoomInv w) (hv : RoomInv v)
    {added : List (SocketId × ServerMessage)} (hsent : v.sent = w.sent ++ added)
    (hnone : ∀ p ∈ added, presenceOf p.2 = none)
    (hopen : ∀ k, v.readyState k = .opened → v.joinedTo k ≠ none → w.readyState k = .opened)
    (hsame : ∀ k, v.readyState k = .opened → ∀ k' session, session.documentId ≠ none →
      (v.sessions.get? k' = some session ↔ w.sessions.get? k' = some session)) : Informed v := by
  intro d k hjoined hk
  have hsame := hsame k hk
  have hold : w.joinedTo k = some d := by
    obtain ⟨session, hsession, hdocument⟩ := Option.bind_eq_some_iff.1 hjoined
    rw [joinedTo, (hsame k session (by rw [hdocument]; simp)).1 hsession]
    exact hdocument
  obtain ⟨m, hlast, hm, hroster⟩ := h d k hold (hopen k hk (by rw [hjoined]; simp))
  refine ⟨m, ?_, hm, hroster.congr ?_⟩
  · rw [presences_still hsent hnone]
    exact hlast
  · exact present_congr hw hv fun k' session hdocument => hsame k' session (by rw [hdocument]; simp)

/-- An event that tells the members of one room of its new roster. -/
theorem Informed.told (h : Informed w) (hw : RoomInv w) (hv : RoomInv v) {u : SyncServer}
    {added : List (SocketId × ServerMessage)} (hsent : v.sent = w.sent ++ (added ++ rosters env u d))
    (hnone : ∀ p ∈ added, presenceOf p.2 = none)
    (hroster : IsRoster (v.Present d) (collectPresence env u d))
    (haudience : ∀ k, v.readyState k = .opened → (k ∈ u.audience d ↔ v.joinedTo k = some d))
    (hopen : ∀ k, v.readyState k = .opened → v.joinedTo k ≠ none → w.readyState k = .opened)
    (hsame : ∀ k session, session.documentId ≠ none → session.documentId ≠ some d →
      (v.sessions.get? k = some session ↔ w.sessions.get? k = some session)) : Informed v := by
  intro d' k hjoined hk
  by_cases hd : d' = d
  · subst hd
    refine ⟨⟨d', collectPresence env u d'⟩, ?_, rfl, hroster⟩
    rw [presences_told hsent hnone ((haudience k hk).2 hjoined), List.getLast?_concat]
  · have hdocuments : ∀ session : SocketSession, session.documentId = some d' →
        session.documentId ≠ none ∧ session.documentId ≠ some d := by
      intro session hdocument
      rw [hdocument]
      exact ⟨by simp, fun heq => hd (Option.some.inj heq)⟩
    have hold : w.joinedTo k = some d' := by
      obtain ⟨session, hsession, hdocument⟩ := Option.bind_eq_some_iff.1 hjoined
      obtain ⟨hsome, hne⟩ := hdocuments session hdocument
      rw [joinedTo, (hsame k session hsome hne).1 hsession]
      exact hdocument
    obtain ⟨m, hlast, hm, hroster'⟩ := h d' k hold (hopen k hk (by rw [hjoined]; simp))
    refine ⟨m, ?_, hm, hroster'.congr ?_⟩
    · rw [presences_aside hsent hnone]
      · exact hlast
      · rw [haudience k hk, hjoined]
        exact fun heq => hd (Option.some.inj heq)
    · exact present_congr hw hv fun k' session hdocument =>
        hsame k' session (hdocuments session hdocument).1 (hdocuments session hdocument).2

/-- A socket connects. -/
theorem Informed.connection (h : Informed w) (hw : RoomInv w) (socket : SocketId) (connectedAt : Int) :
    Informed (w.handle (.connection socket connectedAt)) := by
  by_cases hrefused : w.closing ∨ w.readyState socket ≠ .connecting
  · have heq : w.handle (.connection socket connectedAt) = w := if_pos hrefused
    rwa [heq]
  · have hv := hw.handle (.connection socket connectedAt)
    have heq : w.handle (.connection socket connectedAt) = { w.setReadyState socket .opened with
        sessions := w.sessions.set socket ⟨connectedAt, none, none, none⟩ } := if_neg hrefused
    rw [heq] at hv ⊢
    rw [not_or, not_not] at hrefused
    have hnone : w.sessions.get? socket = none := by
      rw [Option.eq_none_iff_forall_not_mem]
      intro session hsession
      rcases hw.connected socket session hsession with ho | ho <;> cases ho.symm.trans hrefused.2
    refine @Informed.still _ _ h hw hv [] (List.append_nil _).symm (fun _ hp => by cases hp)
      (fun k hk hjoined => ?_) fun _ _ k' session hdocument => ?_
    · by_cases hsocket : k = socket
      · subst hsocket
        exact absurd (by simp [joinedTo]) hjoined
      · simpa [setReadyState, hsocket] using hk
    · by_cases hsocket : socket = k'
      · subst hsocket
        simp only [InsMap.get?_set_self, hnone, Option.some.injEq, reduceCtorEq, iff_false]
        rintro rfl
        exact hdocument rfl
      · simp only [InsMap.get?_set, if_neg hsocket]

/-- A join that is accepted: the room is told. -/
theorem Informed.join (h : Informed w) (hinv : Inv w) (hnamed : Named w) {message : JoinMessage}
    (hjoin : NewJoin w e k message env) (hpasses : ¬ RefusesJoin w message env)
    (hthrows : env.syncThrows = none) : Informed (w.handle e) := by
  have hv := hinv.rooms.handle e
  have hnamed' := hnamed.handle e
  obtain ⟨session, hsession, hnew, heq⟩ := join_accepted hjoin hpasses hthrows
  obtain ⟨session', hsession', hsent⟩ := join_sends hjoin hpasses hthrows
  obtain rfl : session = session' := Option.some.inj (hsession.symm.trans hsession')
  have hrooms : SameRooms (w.enterRoom k session message) (w.handle e) := by
    rw [heq, synced_eq]
    exact ⟨rfl, rfl, rfl, rfl⟩
  have hdocument : session.documentId = none :=
    hnew.elim id (hinv.rooms.identified k session hsession).2
  have hentered : RoomInv (w.enterRoom k session message) := by
    obtain ⟨hsessions, hsame, hready, hclosing⟩ := hrooms
    exact hv.congr ⟨hsessions.symm, hsame.symm, hready.symm, hclosing.symm⟩
  refine h.told hinv.rooms hv hsent (fun p hp => ?_) ?_ (fun j hj => ?_) (fun j hj _ => ?_)
    fun j other hsome hne => ?_
  · rw [(mem_addressed hp).1]
    rfl
  · have hroster := @collectPresence_isRoster (w.enterRoom k session message) env
      (by
        have := hnamed'
        unfold Named at this ⊢
        rwa [hrooms.sessions] at this) message.documentId
    refine hroster.congr (present_congr hentered hv fun _ _ _ => ?_)
    rw [hrooms.sessions]
  · rw [mem_audience hentered]
    rw [hrooms.readyState] at hj
    unfold joinedTo
    rw [hrooms.sessions]
    exact and_iff_left hj
  · rw [hrooms.readyState] at hj
    exact hj
  · rw [hrooms.sessions]
    simp only [enterRoom, InsMap.get?_set]
    split
    · rename_i hj
      subst hj
      rw [hsession, Option.some.injEq, Option.some.injEq]
      constructor
      · rintro rfl
        exact absurd rfl hne
      · rintro rfl
        exact absurd hdocument hsome
    · exact Iff.rfl

/-- A socket is closed: its session is deleted. -/
theorem close_state (hready : w.readyState k = .opened ∨ w.readyState k = .closing) :
    (w.handle (.close k env)).sessions = w.sessions.delete k ∧
      (w.handle (.close k env)).readyState = (w.setReadyState k .closed).readyState := by
  obtain ⟨added, rooms, activeRooms, hleft, -⟩ :=
    leaveRoom_effect env (w.setReadyState k .closed) k
  simp only [SyncServer.handle, record_plain, if_pos hready]
  rw [hleft]
  exact ⟨rfl, rfl⟩

/-- The connections that are left in the room. -/
theorem Leaving.present (hleaving : Leaving w v k d) (hw : RoomInv w) (c : JsString) (t : Int) :
    v.Present d c t ↔ ∃ j session, (w.sessions.delete k).get? j = some session ∧
      session.documentId = some d ∧ session.clientId = some c ∧ session.connectedAt = t := by
  have hmember : ∀ j, v.Member d j ↔ w.joinedTo j = some d ∧ j ≠ k := by
    intro j
    rw [← mem_members, hleaving.members, List.mem_filter, mem_members, hw.member]
    simp
  unfold Present
  simp only [hmember, hleaving.sessions, InsMap.get?_delete]
  constructor
  · rintro ⟨j, session, ⟨hjoined, hj⟩, hsession, hrest⟩
    rw [joinedTo, hsession] at hjoined
    exact ⟨j, session, by rw [if_neg (Ne.symm hj)]; exact hsession, hjoined, hrest⟩
  · rintro ⟨j, session, hsession, hdocument, hrest⟩
    split at hsession
    · cases hsession
    · rename_i hj
      refine ⟨j, session, ⟨?_, Ne.symm hj⟩, hsession, hrest⟩
      rw [joinedTo, hsession]
      exact hdocument

/-- A socket goes away: the others in its room are told, while the server is up. -/
theorem Informed.close (h : Informed w) (hinv : Inv w) (hnamed : Named w) :
    Informed (w.handle (.close k env)) := by
  have hv := hinv.rooms.handle (.close k env)
  by_cases hready : w.readyState k = .opened ∨ w.readyState k = .closing
  · obtain ⟨hsessions, hstate⟩ := @close_state w env k hready
    have hne : ∀ j, (w.handle (.close k env)).readyState j = .opened → j ≠ k := by
      rintro j hj rfl
      rw [hstate] at hj
      simp [setReadyState] at hj
    have hopen : ∀ j, (w.handle (.close k env)).readyState j = .opened →
        w.readyState j = .opened := by
      intro j hj
      have hjk := hne j hj
      rw [hstate] at hj
      simpa [setReadyState, hjk] using hj
    have hsame : ∀ j session, w.joinedTo k ≠ session.documentId →
        ((w.handle (.close k env)).sessions.get? j = some session ↔
          w.sessions.get? j = some session) := by
      intro j session hdocument
      rw [hsessions, InsMap.get?_delete]
      split
      · rename_i hj
        subst hj
        refine ⟨fun hnone => (by cases hnone), fun hsession => ?_⟩
        rw [joinedTo, hsession] at hdocument
        exact absurd rfl hdocument
      · exact Iff.rfl
    by_cases hquiet : w.joinedTo k = none ∨ w.closing = true
    · have hsilent : (w.handle (.close k env)).sent = w.sent := by
        simp only [SyncServer.handle, record_plain, if_pos hready]
        exact @leaveRoom_silent (w.setReadyState k .closed) env k hquiet
      refine @Informed.still _ _ h hinv.rooms hv [] (by rw [hsilent, List.append_nil])
        (fun _ hp => by cases hp) (fun j hj _ => hopen j hj) fun j hj j' session hdocument => ?_
      rcases hquiet with hnone | hclosing
      · exact hsame j' session (by rw [hnone]; exact hdocument.symm)
      · -- no socket is open while the server closes
        rw [(hinv.rooms.opened j (hopen j hj)).1] at hclosing
        cases hclosing
    · rw [not_or, Bool.not_eq_true] at hquiet
      obtain ⟨d, hjoined⟩ := Option.ne_none_iff_exists'.1 hquiet.1
      obtain ⟨u, hleaving, hsent⟩ := @Inv.close_sends w env d k hinv hjoined hquiet.2
      have hnamed' : Named u := by
        unfold Named
        rwa [hleaving.sessions]
      refine @Informed.told _ _ env d h hinv.rooms hv u [] hsent (fun _ hp => by cases hp)
        ((collectPresence_isRoster hnamed' d).congr fun c t => ?_) (fun j hj => ?_)
        (fun j hj _ => hopen j hj) fun j session _ hother => hsame j session ?_
      · rw [hleaving.present hinv.rooms, present_iff hv, hsessions]
      · have hstill : (w.handle (.close k env)).joinedTo j = w.joinedTo j := by
          unfold joinedTo
          rw [hsessions, InsMap.get?_delete, if_neg (Ne.symm (hne j hj))]
        have hsome := (hinv.rooms.opened j (hopen j hj)).2
        rw [audience_eq, reachable, List.mem_filter, hleaving.members, List.mem_filter, mem_members,
          hinv.rooms.member, hleaving.sessions, hleaving.readyState j (hne j hj), hopen j hj, hstill,
          hsome]
        simp [hne j hj]
      · rw [hjoined]
        exact Ne.symm hother
  · have heq : w.handle (.close k env) = w := if_neg hready
    rwa [heq]

/-- A message that is not an accepted join tells no roster and moves nobody. -/
theorem Inv.message_still (h : Inv w) {frame : Frame} (henv : env.Reliable)
    (hnot : ∀ message, NewJoin w (.message k frame env) k message env → RefusesJoin w message env) :
    SameRooms w (w.handle (.message k frame env)) ∧
      ∃ added, (w.handle (.message k frame env)).sent = w.sent ++ added ∧
        ∀ p ∈ added, presenceOf p.2 = none := by
  constructor
  · cases handle_effect w (.message k frame env) with
    | moved he => cases he
    | quiet added hrooms => exact hrooms
    | stalled socket session message env' added he hsession hnew hschema hthrows =>
      cases he
      rw [henv.2.1] at hthrows
      cases hthrows
    | synced socket session message env' rest he hsession hnew hschema hcursor =>
      cases he
      rcases hnot message ⟨rfl, session, hsession, hnew⟩ with hfalse | hthrows | hahead
      · rw [hschema] at hfalse
        cases hfalse
      · rw [henv.1] at hthrows
        cases hthrows
      · omega
    | echoed socket session documentId item env' he hsession hdocument hclient hrooms => exact hrooms
    | appended socket session documentId operation env' he hsession hdocument hclient hvalid hschema
        hrooms => exact hrooms
  · cases h.handle_speech (.message k frame env) with
    | errors added hsent hadded =>
      refine ⟨added, hsent, fun p hp => ?_⟩
      obtain ⟨m, hm, -⟩ := hadded p hp
      rw [hm]
      rfl
    | joined socket session message env' hjoin hpasses =>
      obtain ⟨he, hsession⟩ := hjoin
      cases he
      exact absurd (hnot message ⟨rfl, hsession⟩) hpasses
    | left socket d env' v he => cases he
    | echoed socket session d operation env' item he hthrows hsession hdocument hanswer hsent =>
      refine ⟨_, hsent, fun p hp => ?_⟩
      rw [(mem_addressed hp).1]
      rfl
    | appended socket session d operation env' he hthrows hsession hdocument hanswer hsent =>
      refine ⟨_, hsent, fun p hp => ?_⟩
      obtain ⟨peer, -, rfl⟩ := List.mem_map.1 hp
      rfl

/-- **Every event of a failure-free run leaves the members informed.** -/
theorem Informed.handle (h : Informed w) (hinv : Inv w) (hnamed : Named w) (hok : e.Reliable) :
    Informed (w.handle e) := by
  have hv := hinv.rooms.handle e
  cases e with
  | connection socket connectedAt => exact h.connection hinv.rooms socket connectedAt
  | message socket frame env =>
    by_cases haccepted : ∃ message, NewJoin w (.message socket frame env) socket message env ∧
        ¬ RefusesJoin w message env
    · obtain ⟨message, hjoin, hpasses⟩ := haccepted
      exact h.join hinv hnamed hjoin hpasses hok.1.2.1
    · rw [not_exists] at haccepted
      obtain ⟨hrooms, added, hsent, hnone⟩ := @Inv.message_still w env socket hinv frame hok.1
        fun message hjoin => not_not.1 fun hpasses => haccepted message ⟨hjoin, hpasses⟩
      refine h.still hinv.rooms hv hsent hnone (fun k hk _ => ?_) fun _ _ k' session _ => ?_
      · rwa [hrooms.readyState] at hk
      · rw [hrooms.sessions]
  | closing socket =>
    by_cases hopen : w.readyState socket = .opened
    · have heq : w.handle (.closing socket) = w.setReadyState socket .closing := if_pos hopen
      rw [heq] at hv ⊢
      refine @Informed.still _ _ h hinv.rooms hv [] (List.append_nil _).symm (fun _ hp => by cases hp)
        (fun k hk _ => ?_) fun _ _ _ _ _ => Iff.rfl
      by_cases hk' : k = socket
      · rw [hk']
        exact hopen
      · simpa [setReadyState, hk'] using hk
    · have heq : w.handle (.closing socket) = w := if_neg hopen
      rwa [heq]
  | close socket env => exact h.close hinv hnamed
  | shutDown =>
    -- no socket is open any more
    intro d k _ hk
    cases (hv.opened k hk).1
  | shutDownDone =>
    by_cases hclosing : w.closing = true
    · have heq : w.handle .shutDownDone =
          { w with sessions := .empty, rooms := .empty, activeRooms := 0 } := if_pos hclosing
      rw [heq]
      intro d k hjoined
      cases hjoined
    · have heq : w.handle .shutDownDone = w := if_neg hclosing
      rwa [heq]

/-! ## Every run -/

/-- The server takes the socket into the room of the document. -/
def Joins (k : SocketId) (d : JsString) (w : SyncServer) (e : Event) : Prop :=
  ∃ message env, NewJoin w e k message env ∧ ¬ RefusesJoin w message env ∧ message.documentId = d

/-- The close event of the socket. -/
def Event.Closes (k : SocketId) : Event → Prop
  | .close socket _ => socket = k
  | _ => False

/-- No store call fails, and a shutdown is done only when the close event of every socket has
been handled, which it awaits. -/
structure FailureFree (w : SyncServer) (es : List Event) : Prop where
  reliable : ∀ e ∈ es, e.Reliable
  awaited : Runs.Never handle (fun w e => e = .shutDownDone ∧
    ∃ k, w.readyState k = .opened ∨ w.readyState k = .closing) w es

/-- A session goes with the close event of its socket only. -/
theorem RoomInv.session_kept (h : RoomInv w) {session : SocketSession}
    (hsession : w.sessions.get? k = some session) (hcloses : ¬ e.Closes k)
    (hawaited : ¬ (e = .shutDownDone ∧ ∃ j, w.readyState j = .opened ∨ w.readyState j = .closing)) :
    (w.handle e).sessions.get? k ≠ none := by
  have hentered : ∀ {socket : SocketId} {session' : SocketSession} {message : JoinMessage},
      SameRooms (w.enterRoom socket session' message) (w.handle e) →
      (w.handle e).sessions.get? k ≠ none := by
    intro socket session' message hrooms
    rw [hrooms.sessions]
    simp only [SyncServer.enterRoom, InsMap.get?_set, hsession]
    split <;> simp
  have hsame : (w.handle e).sessions = w.sessions → (w.handle e).sessions.get? k ≠ none := by
    intro heq
    rw [heq, hsession]
    simp
  cases handle_effect w e with
  | moved he =>
    cases e with
    | connection socket connectedAt =>
      simp only [SyncServer.handle, record_plain]
      split
      · rw [hsession]
        simp
      · simp only [InsMap.get?_set, hsession]
        split <;> simp
    | message socket frame env => cases he
    | closing socket => exact hsame (by simp only [SyncServer.handle]; split <;> rfl)
    | close socket env =>
      by_cases hready : w.readyState socket = .opened ∨ w.readyState socket = .closing
      · have hother : ¬ socket = k := hcloses
        rw [(close_state hready).1, InsMap.get?_delete, if_neg hother, hsession]
        simp
      · exact hsame (by simp only [SyncServer.handle, record_plain, if_neg hready])
    | shutDown => exact hsame rfl
    | shutDownDone => exact absurd ⟨rfl, k, h.connected k session hsession⟩ hawaited
  | quiet added hrooms => exact hsame hrooms.sessions
  | stalled socket session message env added he hsession hnew hschema hthrows hrooms =>
    exact hentered hrooms
  | synced socket session message env rest he hsession hnew hschema hcursor hrooms =>
    exact hentered hrooms
  | echoed socket session documentId item env he hsession hdocument hclient hrooms =>
    exact hsame hrooms.sessions
  | appended socket session documentId operation env he hsession hdocument hclient hvalid hschema
      hrooms => exact hsame hrooms.sessions

/-- A socket has joined a document from the join that is accepted to its close event. -/
theorem RoomInv.joinedTo_step (h : RoomInv w)
    (hawaited : ¬ (e = .shutDownDone ∧ ∃ j, w.readyState j = .opened ∨ w.readyState j = .closing)) :
    (w.handle e).joinedTo k = some d ↔ Joins k d w e ∨ (w.joinedTo k = some d ∧ ¬ e.Closes k) := by
  constructor
  · intro hjoined
    rcases joined_cases hjoined with hold | hjoins
    · refine Or.inr ⟨hold, fun hcloses => ?_⟩
      cases e with
      | close socket env =>
        obtain rfl : socket = k := hcloses
        obtain ⟨session, hsession, -⟩ := Option.bind_eq_some_iff.1 hold
        rw [joinedTo, (close_state (h.connected socket session hsession)).1,
          InsMap.get?_delete_self] at hjoined
        cases hjoined
      | connection socket connectedAt => exact hcloses
      | message socket frame env => exact hcloses
      | closing socket => exact hcloses
      | shutDown => exact hcloses
      | shutDownDone => exact hcloses
    · exact Or.inl hjoins
  · rintro (⟨message, env, hjoin, hpasses, rfl⟩ | ⟨hold, hcloses⟩)
    · exact (join_enters hjoin hpasses).1
    · obtain ⟨session, hsession, hdocument⟩ := Option.bind_eq_some_iff.1 hold
      have hkept := h.session_kept hsession hcloses hawaited
      rcases handle_session w e k with heq | heq | heq | ⟨session', message, env, -, hs, hnew, -⟩
      · rw [joinedTo, heq]
        exact hold
      · exact absurd heq hkept
      · rcases h.connected k session hsession with ho | ho <;> cases ho.symm.trans heq.1
      · exact absurd hnew (h.not_new hs hold)

/-- **Presence agrees with membership.** -/
theorem presence_agrees {store : OperationStore} (hstore : store.Reachable) (es : List Event)
    (hfree : FailureFree (start store) es) :
    (∀ d k, ((start store).run es).Member d k ↔
      Runs.Since handle (Joins k d) (Event.Closes k) (start store) es) ∧
    (∀ d room, ((start store).run es).rooms.get? d = some room → room.size ≠ 0) ∧
    ((start store).run es).activeRooms = ((start store).run es).rooms.size ∧
    ∀ d k, ((start store).run es).Member d k → ((start store).run es).readyState k = .opened →
      ∃ m, (((start store).run es).presences k).getLast? = some m ∧ m.documentId = d ∧
        IsRoster (((start store).run es).Present d) m.participants := by
  have hinv := run_inv hstore es
  have htidy : Tidy ((start store).run es) := by
    rw [run_eq]
    exact Runs.invariant (I := Tidy) (fun _ e h => h.handle e) (start store) es (.start store)
  have hinformed : Informed ((start store).run es) := by
    rw [run_eq]
    refine (@Runs.invariant_of _ _ handle (fun w => Inv w ∧ Named w ∧ Informed w) Event.Reliable
      (fun w e he h => ⟨h.1.handle e, h.2.1.handle e, h.2.2.handle h.1 h.2.1 he⟩) _ _
      ⟨Inv.start hstore, fun k session hsession => (by cases hsession),
        fun d k hjoined => by cases hjoined⟩ hfree.reliable).2.2
  refine ⟨fun d k => ?_, htidy.nonempty, htidy.gauge, fun d k hmember hopen => ?_⟩
  · rw [hinv.rooms.member, run_eq]
    refine Runs.since_iff (P := fun w : SyncServer => w.joinedTo k = some d)
      (fun hjoined => by cases hjoined) fun before e after heq => ?_
    refine RoomInv.joinedTo_step ?_ (hfree.awaited before e after heq)
    rw [← run_eq]
    exact (run_inv hstore before).rooms
  · exact hinformed d k ((hinv.rooms.member d k).1 hmember) hopen

/-- Two sockets of one client, the later one first, and one of another; the first goes away. -/
theorem presence_agrees_trio :
    let env : ServerEnv := ⟨none, none, none, true, id⟩
    let join : SocketId → JsString → Event := fun socket clientId =>
      .message socket (.message (.join ⟨js "d", clientId, 0, none, none⟩)) env
    let w := (start .empty).run [.connection 0 5, .connection 1 3, join 0 (js "A"), join 1 (js "A"),
      .connection 2 4, join 2 (js "B"), .close 0 env]
    ∃ m, (w.presences 1).getLast? = some m ∧ m.documentId = js "d" ∧
      IsRoster (w.Present (js "d")) m.participants := by
  intro env join w
  have henv : env.Reliable ∧ env.rowWritten = true := ⟨⟨rfl, rfl, rfl⟩, rfl⟩
  obtain ⟨-, -, -, hlast⟩ := presence_agrees .empty [.connection 0 5, .connection 1 3,
    join 0 (js "A"), join 1 (js "A"), .connection 2 4, join 2 (js "B"), .close 0 env]
    ⟨by simp [join, Event.Reliable, henv], fun before e after heq hdone => by
      have hmem : e ∈ before ++ e :: after := by simp
      rw [← heq, hdone.1] at hmem
      simp [join] at hmem⟩
  exact hlast (js "d") 1 (mem_members.1 (by decide +kernel)) (by decide +kernel)

end SyncServer

end LocalFirst
