import LocalFirst.Server.Speech
import LocalFirst.Sync.Bootstrap

/-!
# What the client makes of the messages of the server

The decoder bounds rosters and numbers; the server bounds neither.

* `Acceptable` — a message that the client parses, and whose batch passes its checks.
* `Crowds`, `Overflows` — the steps that send more than the decoder takes.
* `acceptable_iff` — every message is acceptable exactly in the runs without such a step.
-/

set_option autoImplicit false

namespace LocalFirst

/-- The message parses to itself, and its batch passes `validateServerBatch` and, after a snapshot,
`validateSnapshotSuffix`. -/
structure Acceptable (m : ServerMessage) : Prop where
  parses : parseServerMessage m = some m
  batch : ∀ dl, delivery m = some dl → validateServerBatch dl.items dl.confirmed = .ok ()
  suffix : ∀ dl b, delivery m = some dl → dl.bootstrap = some b →
    validateSnapshotSuffix dl.items b.snapshotSeq dl.confirmed = .ok ()

theorem parses_iff {m : ServerMessage} : parseServerMessage m = some m ↔ serverMessageSchema m = true := by
  unfold parseServerMessage
  simp

/-- A message without a batch is as good as its schema. -/
theorem acceptable_quiet_iff {m : ServerMessage} (h : delivery m = none) :
    Acceptable m ↔ serverMessageSchema m = true := by
  refine ⟨fun hm => parses_iff.1 hm.parses, fun hm => ⟨parses_iff.2 hm, ?_, ?_⟩⟩
  · intro dl hdl
    rw [h] at hdl
    cases hdl
  · intro dl b hdl
    rw [h] at hdl
    cases hdl

/-! ## Messages from a log -/

theorem acceptable_operation_iff {d : JsString} {n : Int} {operation : TextOperation}
    (hd : boundedString MAX_DOCUMENT_ID_LENGTH d = true)
    (hoperation : textOperationSchema operation = true) (hn : 1 ≤ n) :
    Acceptable (.operation ⟨d, n, operation⟩) ↔ n ≤ MAX_SAFE_INTEGER := by
  constructor
  · intro h
    have hschema := parses_iff.1 h.parses
    simp only [serverMessageSchema, operationMessageSchema, Bool.and_eq_true] at hschema
    exact (isPositiveSafeInteger_iff.1 hschema.1.2).2
  · intro hle
    have hsafe := isPositiveSafeInteger_iff.2 ⟨hn, hle⟩
    refine ⟨parses_iff.2 ?_, fun dl hdl => ?_, fun dl b hdl hb => ?_⟩
    · simp only [serverMessageSchema, operationMessageSchema, hd, hsafe, hoperation, Bool.and_self]
    · cases hdl
      refine validateServerBatch_iff.2 ⟨⟨by simp only; omega, ?_⟩, fun item hitem => ?_, by simp⟩
      · simp only [isSafeInteger, decide_eq_true_eq]
        have : (0 : Int) ≤ MAX_SAFE_INTEGER := by decide
        omega
      · rw [List.mem_singleton.1 hitem]
        exact ⟨hsafe, le_refl _⟩
    · cases hdl
      cases hb

/-- Every operation of the store passes the schema of the protocol. -/
def OperationStore.Typed (s : OperationStore) : Prop :=
  ∀ row ∈ s.operations, textOperationSchema row.operation = true

namespace OperationStore

variable {s : OperationStore} {d : JsString} {cursor : Int} {capable : Bool} {m : SyncMessage}

/-- Whatever the operations of a sync message follow, they are the part of the log from there. -/
theorem SyncsLog.items (h : s.SyncsLog d cursor capable m) (hcursor : 0 ≤ cursor) :
    ∃ after, 0 ≤ after ∧ m.operations =
      between SequencedOperation.serverSeq after (s.getLatestServerSeq d) (s.log d) := by
  rw [← h.latest]
  cases hb : m.snapshotBootstrap with
  | none => exact ⟨cursor, hcursor, h.history hb⟩
  | some b =>
    obtain ⟨-, hboot, hsuffix⟩ := h.bootstrap b hb
    have := hboot.positive
    exact ⟨b.snapshotSeq, by omega, hsuffix⟩

/-- **A sync message is acceptable unless the latest number of its document is no safe integer.** -/
theorem SyncsLog.acceptable_sync_iff (h : s.SyncsLog d cursor capable m) (hlog : s.LogInv)
    (htyped : s.Typed) (hd : boundedString MAX_DOCUMENT_ID_LENGTH d = true) (hcursor : 0 ≤ cursor) :
    Acceptable (.sync m) ↔ s.getLatestServerSeq d ≤ MAX_SAFE_INTEGER := by
  have hbounds := hlog.latest_bounds d
  have hmax : (0 : Int) ≤ MAX_SAFE_INTEGER := by decide
  constructor
  · intro hm
    have hschema := parses_iff.1 hm.parses
    simp only [serverMessageSchema, syncMessageSchema, nonNegativeSafeInteger, Bool.and_eq_true,
      isSafeInteger, decide_eq_true_eq, h.latest] at hschema
    exact hschema.1.2.2.2
  · intro hle
    have hsafe : isSafeInteger (s.getLatestServerSeq d) = true := by
      simp only [isSafeInteger, decide_eq_true_eq]
      omega
    obtain ⟨after, hafter, hitems⟩ := h.items hcursor
    have hbatch := @LogInv.validBatch s hlog d after hafter hsafe
    rw [← hitems] at hbatch
    have hboot : ∀ b, m.snapshotBootstrap = some b → isPositiveSafeInteger b.snapshotSeq = true := by
      intro b hb
      obtain ⟨-, hboot, -⟩ := h.bootstrap b hb
      have hpositive := hboot.positive
      have hthrough := hboot.through
      exact isPositiveSafeInteger_iff.2 ⟨hpositive, by omega⟩
    refine ⟨parses_iff.2 ?_, fun dl hdl => ?_, fun dl b hdl hb => ?_⟩
    · have hschemas : m.operations.all sequencedOperationSchema = true := by
        refine List.all_eq_true.2 fun item hitem => ?_
        have hpositive := ((validateServerBatch_iff.1 hbatch).2.1 item hitem).1
        rw [hitems] at hitem
        obtain ⟨row, hrow, -, rfl⟩ := mem_log.1 (mem_between.1 hitem).1
        simp only [sequencedOperationSchema, hpositive, Bool.true_and]
        exact htyped row hrow
      simp only [serverMessageSchema, syncMessageSchema, h.document, hd, hschemas, h.latest,
        nonNegativeSafeInteger, hbounds.1, hsafe, decide_true, Bool.and_self, Bool.true_and]
      cases hb : m.snapshotBootstrap with
      | none => rfl
      | some b =>
        simp only [snapshotBootstrapSchema, (h.bootstrap b hb).1, SERVER_SNAPSHOT_ENVELOPE_VERSION,
          BEq.rfl, hboot b hb, Bool.and_self]
    · cases hdl
      rw [← h.latest] at hbatch
      exact hbatch
    · cases hdl
      obtain ⟨-, hboots, hsuffix⟩ := h.bootstrap b hb
      have hthrough := hboots.through
      rw [← h.latest] at hbatch hthrough
      refine validateSnapshotSuffix_iff.2 ⟨hboot b hb, hthrough, hbatch, fun item hitem => ?_⟩
      rw [hsuffix] at hitem
      exact (mem_between.1 hitem).2.1

end OperationStore

namespace SyncServer

variable {w : SyncServer} {e : Event} {k : SocketId} {d : JsString} {env : ServerEnv}

/-! ## What is known of the surroundings -/

/-- The clock reads a safe integer, and upper case makes at most three code units of one. -/
def Event.Ordinary : Event → Prop
  | .connection _ connectedAt => nonNegativeSafeInteger connectedAt = true
  | .message _ _ env => env.Expands
  | .close _ env => env.Expands
  | _ => True

theorem joinSession_bounded {session : SocketSession} {message : JoinMessage} (h : session.Bounded)
    (hschema : joinMessageSchema message = true) : (joinSession session message).Bounded := by
  simp only [joinMessageSchema, Bool.and_eq_true] at hschema
  obtain ⟨⟨⟨⟨hdocument, hclient⟩, -⟩, -⟩, hname⟩ := hschema
  refine ⟨h.connectedAt, fun d hd => ?_, fun c hc => ?_, fun n hn => ?_⟩
  · cases hd
    exact hdocument
  · cases hc
    exact hclient
  · cases hdisplay : message.displayName with
    | none =>
      simp only [joinSession, hdisplay, Option.orElse_none] at hn
      exact h.displayName n hn
    | some name =>
      simp only [joinSession, hdisplay, Option.orElse_some] at hn
      cases hn
      rw [hdisplay] at hname
      exact hname

theorem Bounded.congr {v : SyncServer} (h : Bounded w) (heq : v.sessions = w.sessions) : Bounded v := by
  intro k session hsession
  rw [heq] at hsession
  exact h k session hsession

theorem Bounded.enterRoom (h : Bounded w) {session : SocketSession} {message : JoinMessage}
    (hsession : w.sessions.get? k = some session) (hschema : joinMessageSchema message = true) :
    Bounded (w.enterRoom k session message) :=
  sessions_enterRoom h (joinSession_bounded (h k session hsession) hschema)

/-- The sessions stay within the bounds. -/
theorem Bounded.handle (h : Bounded w) (hok : e.Ordinary) : Bounded (w.handle e) := by
  refine sessions_handle h (fun socket connectedAt he => ?_) fun _ _ => joinSession_bounded
  rw [he] at hok
  exact ⟨hok, fun _ hd => by (cases hd), fun _ hc => by (cases hc), fun _ hn => by cases hn⟩

/-- The operations of the store stay typed. -/
theorem Typed.handle (h : w.store.Typed) (e : Event) : (w.handle e).store.Typed := by
  have hsame : (w.handle e).store.operations = w.store.operations → (w.handle e).store.Typed := by
    intro heq row hrow
    rw [heq] at hrow
    exact h row hrow
  cases handle_effect w e with
  | moved he added hstore => exact hsame (by rw [hstore])
  | quiet added hrooms hstore => exact hsame (by rw [hstore])
  | stalled socket session message env added he hsession hnew hschema hthrows hrooms hstore =>
    exact hsame (by rw [hstore])
  | synced socket session message env rest he hsession hnew hschema hcursor hrooms hstore =>
    refine hsame ?_
    rw [hstore]
    exact (w.store.buildSyncMessage_frame _ _ _ _).1
  | echoed socket session documentId item env he hsession hdocument hclient hrooms hitem hstore =>
    exact hsame (by rw [hstore])
  | appended socket session documentId operation env he hsession hdocument hclient hvalid hschema
      hrooms hnew hstore =>
    intro row hrow
    rw [hstore] at hrow
    rcases List.mem_append.1 hrow with hrow | hrow
    · exact h row hrow
    · rw [List.mem_singleton.1 hrow]
      exact hschema

/-- What holds in every state of the server. -/
structure Ready (w : SyncServer) : Prop where
  inv : Inv w
  bounded : Bounded w
  typed : w.store.Typed

theorem Ready.handle (h : Ready w) (hok : e.Ordinary) : Ready (w.handle e) :=
  ⟨h.inv.handle e, h.bounded.handle hok, Typed.handle h.typed e⟩

/-! ## Steps that send too much -/

/-- A roster of more clients than the decoder takes goes to an open socket: after a join that passes
the checks, or after a member has left while the server is not closing. -/
def Crowds (w : SyncServer) (e : Event) : Prop :=
  (∃ k message env, NewJoin w e k message env ∧ ¬ RefusesJoin w message env ∧
    env.syncThrows = none ∧ MAX_PRESENCE_PARTICIPANTS <
      (message.clientId :: clientIds w (w.members message.documentId)).dedup.length ∧
    ∃ j ∈ k :: w.members message.documentId, w.readyState j = .opened) ∨
  ∃ k env d, e = .close k env ∧ w.joinedTo k = some d ∧ w.closing = false ∧
    MAX_PRESENCE_PARTICIPANTS <
      (clientIds w ((w.members d).filter (· ≠ k))).dedup.length ∧
    ∃ j ∈ (w.members d).filter (· ≠ k), w.readyState j = .opened

/-- A number that is no safe integer goes to an open socket: the latest number of the document that is
joined, the number of an operation that is submitted again, or that of a new one. -/
def Overflows (w : SyncServer) (e : Event) : Prop :=
  (∃ k message env, NewJoin w e k message env ∧ ¬ RefusesJoin w message env ∧
    env.syncThrows = none ∧ w.readyState k = .opened ∧
    MAX_SAFE_INTEGER < w.store.getLatestServerSeq message.documentId) ∨
  ∃ k session d operation env, e = .message k (.message (.submitOperation ⟨d, operation⟩)) env ∧
    env.appendThrows = none ∧ w.sessions.get? k = some session ∧ session.documentId = some d ∧
    ((∃ item, answer (w.store.log d) d session.clientId operation = some (some item) ∧
        w.readyState k = .opened ∧ MAX_SAFE_INTEGER < item.serverSeq) ∨
      (answer (w.store.log d) d session.clientId operation = some none ∧
        (∃ j ∈ w.members d, w.readyState j = .opened) ∧
        MAX_SAFE_INTEGER < w.store.lastServerSeq + 1))

/-! ## Rosters -/

/-- A roster is acceptable if nobody is told of it, or it is short enough. -/
theorem rosters_iff {v : SyncServer} (h : Bounded v) (henv : env.Expands)
    (hd : boundedString MAX_DOCUMENT_ID_LENGTH d = true) :
    (∀ p ∈ rosters env v d, Acceptable p.2) ↔
      ((∃ j, j ∈ v.audience d) →
        (clientIds v (v.members d)).dedup.length ≤ MAX_PRESENCE_PARTICIPANTS) := by
  have hpresence := presence_acceptable_iff h henv hd
  rw [← acceptable_quiet_iff rfl] at hpresence
  rw [← hpresence]
  unfold rosters
  constructor
  · rintro hall ⟨j, hj⟩
    exact hall _ (List.mem_map_of_mem hj)
  · intro hone p hp
    obtain ⟨j, hj, rfl⟩ := List.mem_map.1 hp
    exact hone ⟨j, hj⟩

section

variable {session : SocketSession} {message : JoinMessage}

/-- The room that a socket enters. -/
theorem members_enterRoom (hnot : k ∉ w.members message.documentId) :
    (w.enterRoom k session message).members message.documentId =
      w.members message.documentId ++ [k] := by
  unfold members enterRoom at *
  simp only [InsMap.get?_set_self, Option.map_some, Option.getD_some]
  cases hroom : w.rooms.get? message.documentId with
  | none => simp [InsSet.add, InsSet.empty]
  | some room =>
    rw [hroom] at hnot
    simp only [Option.map_some, Option.getD_some] at hnot ⊢
    unfold InsSet.add
    rw [dif_neg hnot]

/-- The clients of the room that a socket enters. -/
theorem clientIds_enterRoom (hnot : k ∉ w.members message.documentId) :
    (clientIds (w.enterRoom k session message)
        ((w.enterRoom k session message).members message.documentId)).dedup.length =
      (message.clientId :: clientIds w (w.members message.documentId)).dedup.length := by
  have hold : ∀ {l : List SocketId}, k ∉ l →
      clientIds (w.enterRoom k session message) l = clientIds w l := by
    intro l hl
    unfold clientIds
    refine List.filterMap_congr fun j hj => ?_
    have hne : k ≠ j := fun heq => hl (heq ▸ hj)
    simp only [enterRoom, InsMap.get?_set, if_neg hne]
  have hself : clientIds (w.enterRoom k session message) [k] = [message.clientId] := by
    simp [clientIds, enterRoom, joinSession]
  have happ : clientIds (w.enterRoom k session message) (w.members message.documentId ++ [k]) =
      clientIds w (w.members message.documentId) ++ [message.clientId] := by
    rw [← hself, ← hold hnot]
    exact List.filterMap_append
  rw [members_enterRoom hnot, happ]
  exact ((List.perm_append_singleton _ _).dedup).length_eq

end

/-- The others of a room that are told of a socket that goes away. -/
theorem Leaving.mem_audience {v : SyncServer} (h : Leaving w v k d) (hrooms : RoomInv w)
    {j : SocketId} : j ∈ v.audience d ↔
      j ∈ (w.members d).filter (· ≠ k) ∧ w.readyState j = .opened := by
  rw [audience_eq, h.members]
  unfold reachable
  rw [List.mem_filter, h.sessions]
  refine and_congr_right fun hj => ?_
  have hne : j ≠ k := by simpa using (List.mem_filter.1 hj).2
  rw [h.readyState j hne]
  simp only [Bool.and_eq_true, decide_eq_true_eq]
  exact ⟨And.right, fun hopen => ⟨(hrooms.opened j hopen).2, hopen⟩⟩

/-! ## One step -/

/-- Every message that has been sent is acceptable. -/
def AllAcceptable (w : SyncServer) : Prop := ∀ p ∈ w.sent, Acceptable p.2

theorem AllAcceptable.append {w' : SyncServer} {added : List (SocketId × ServerMessage)}
    (h : AllAcceptable w) (hsent : w'.sent = w.sent ++ added) (hadded : ∀ p ∈ added, Acceptable p.2) :
    AllAcceptable w' := by
  intro p hp
  rw [hsent] at hp
  rcases List.mem_append.1 hp with hp | hp
  · exact h p hp
  · exact hadded p hp

theorem AllAcceptable.added {w' : SyncServer} {added : List (SocketId × ServerMessage)}
    (h : AllAcceptable w') (hsent : w'.sent = w.sent ++ added) : ∀ p ∈ added, Acceptable p.2 :=
  fun p hp => h p (by rw [hsent]; exact List.mem_append_right _ hp)

/-- A submit that is taken passes the schema of its message. -/
theorem answer_schema {log : List SequencedOperation} {clientId : Option JsString}
    {operation : TextOperation} {found : Option SequencedOperation}
    (h : answer log d clientId operation = some found) :
    boundedString MAX_DOCUMENT_ID_LENGTH d = true ∧ textOperationSchema operation = true := by
  unfold answer at h
  split at h
  · rename_i hand
    simpa only [submitOperationMessageSchema, Bool.and_eq_true] using hand.1
  · cases h

section

variable {message : JoinMessage} {session : SocketSession}

/-- A socket that joins was in no room. -/
theorem Ready.not_member (h : Ready w) (hjoin : NewJoin w e k message env) (d : JsString) :
    k ∉ w.members d := by
  obtain ⟨-, session, hsession, hnew⟩ := hjoin
  rw [mem_members, h.inv.rooms.member]
  intro hjoined
  exact h.inv.rooms.not_new hsession hjoined hnew

/-- What a join sends is acceptable unless it crowds the room or its number overflows. -/
theorem Ready.join_iff (h : Ready w) (hok : e.Ordinary) (hjoin : NewJoin w e k message env)
    (hpasses : ¬ RefusesJoin w message env) (hsession : w.sessions.get? k = some session) :
    (∀ p ∈ w.addressed k (.sync (syncOf w message env)) ++
        rosters env (w.enterRoom k session message) message.documentId, Acceptable p.2) ↔
      (w.readyState k = .opened →
        w.store.getLatestServerSeq message.documentId ≤ MAX_SAFE_INTEGER) ∧
      ((∃ j ∈ k :: w.members message.documentId, w.readyState j = .opened) →
        (message.clientId :: clientIds w (w.members message.documentId)).dedup.length ≤
          MAX_PRESENCE_PARTICIPANTS) := by
  have hschema : joinMessageSchema message = true := by
    by_contra hfalse
    exact hpasses (Or.inl (by simpa using hfalse))
  obtain ⟨hdocument, -, hcursor⟩ := joinMessageSchema_spec hschema
  have henv : env.Expands := by
    rw [hjoin.1] at hok
    exact hok
  have hnew : session.documentId = none ∨ session.clientId = none := by
    obtain ⟨-, other, hother, hnew⟩ := hjoin
    rw [hsession] at hother
    cases hother
    exact hnew
  have hnot := h.not_member hjoin message.documentId
  have hsync := (OperationStore.buildSyncMessage_spec h.inv.log h.inv.cache env.rowWritten
    message.documentId message.lastServerSeq
    (hasSnapshotBootstrapCapability message.capabilities)).1
  rw [List.forall_mem_append]
  refine and_congr ?_ ?_
  · rw [← hsync.acceptable_sync_iff h.inv.log h.typed hdocument hcursor]
    unfold addressed syncOf
    by_cases hopen : w.readyState k = .opened
    · simp [hopen]
    · simp [hopen]
  · rw [rosters_iff (h.bounded.enterRoom hsession hschema) henv hdocument,
      clientIds_enterRoom hnot]
    have haudience : ∀ j, j ∈ (w.enterRoom k session message).audience message.documentId ↔
        j ∈ k :: w.members message.documentId ∧ w.readyState j = .opened := by
      intro j
      rw [SyncServer.mem_audience (h.inv.rooms.enterRoom hsession hnew hschema), joinedTo_enterRoom,
        List.mem_cons, mem_members, h.inv.rooms.member]
      refine and_congr_left fun _ => ?_
      by_cases hj : k = j
      · simp [hj]
      · simp [hj, Ne.symm hj]
    simp only [haudience]

/-- What a socket that goes away sends is acceptable unless the room is still crowded. -/
theorem Ready.close_iff (h : Ready w) (henv : env.Expands) {v : SyncServer}
    (hjoined : w.joinedTo k = some d) (hleaving : Leaving w v k d) :
    (∀ p ∈ rosters env v d, Acceptable p.2) ↔
      ((∃ j ∈ (w.members d).filter (· ≠ k), w.readyState j = .opened) →
        (clientIds w ((w.members d).filter (· ≠ k))).dedup.length ≤ MAX_PRESENCE_PARTICIPANTS) := by
  obtain ⟨session, hsession, hdocument, -⟩ := h.inv.connected_of_joined hjoined
  rw [rosters_iff (h.bounded.congr hleaving.sessions) henv
    ((h.bounded k session hsession).documentId d hdocument), hleaving.members]
  have hids : ∀ l, clientIds v l = clientIds w l := by
    intro l
    unfold clientIds
    rw [hleaving.sessions]
  simp only [hleaving.mem_audience h.inv.rooms, hids]

theorem Ready.echo_iff (h : Ready w) {operation : TextOperation} {item : SequencedOperation}
    {clientId : Option JsString}
    (hanswer : answer (w.store.log d) d clientId operation = some (some item)) :
    (∀ p ∈ w.addressed k (.operation ⟨d, item.serverSeq, operation⟩), Acceptable p.2) ↔
      (w.readyState k = .opened → item.serverSeq ≤ MAX_SAFE_INTEGER) := by
  obtain ⟨hdocument, hoperation⟩ := answer_schema hanswer
  rw [← acceptable_operation_iff hdocument hoperation
    (h.inv.log.log_bounds (answer_mem hanswer)).1]
  unfold addressed
  by_cases hopen : w.readyState k = .opened
  · simp [hopen]
  · simp [hopen]

theorem Ready.append_iff (h : Ready w) {operation : TextOperation} {clientId : Option JsString}
    (hanswer : answer (w.store.log d) d clientId operation = some none) :
    (∀ p ∈ (w.audience d).map (·, .operation ⟨d, w.store.lastServerSeq + 1, operation⟩),
        Acceptable p.2) ↔
      ((∃ j ∈ w.members d, w.readyState j = .opened) →
        w.store.lastServerSeq + 1 ≤ MAX_SAFE_INTEGER) := by
  obtain ⟨hdocument, hoperation⟩ := answer_schema hanswer
  have hnonneg := h.inv.log.nonneg
  rw [← acceptable_operation_iff hdocument hoperation (by omega)]
  have haudience : ∀ j, j ∈ w.audience d ↔ j ∈ w.members d ∧ w.readyState j = .opened := by
    intro j
    rw [SyncServer.mem_audience h.inv.rooms, mem_members, h.inv.rooms.member]
  simp only [← haudience]
  constructor
  · rintro hall ⟨j, hj⟩
    exact hall _ (List.mem_map_of_mem hj)
  · intro hone p hp
    obtain ⟨j, hj, rfl⟩ := List.mem_map.1 hp
    exact hone ⟨j, hj⟩

end

/-- **A step that sends not too much keeps every message acceptable.** -/
theorem Ready.keeps (h : Ready w) (hok : e.Ordinary) (hall : AllAcceptable w)
    (hnot : ¬ (Crowds w e ∨ Overflows w e)) : AllAcceptable (w.handle e) := by
  rw [not_or] at hnot
  obtain ⟨hcrowds, hoverflows⟩ := hnot
  cases h.inv.handle_speech e with
  | errors added hsent hadded =>
    refine hall.append hsent fun p hp => ?_
    obtain ⟨m, hm, hcode⟩ := hadded p hp
    rw [hm]
    refine (acceptable_quiet_iff rfl).2 ?_
    have hlength := List.length_pos_of_ne_nil hcode
    simp only [serverMessageSchema, errorMessageSchema, decide_eq_true_eq]
    omega
  | joined k session message env hjoin hpasses hthrows hsession hsent =>
    refine hall.append hsent ((h.join_iff hok hjoin hpasses hsession).2 ⟨fun hopen => ?_, fun hj => ?_⟩)
    · by_contra hlt
      exact hoverflows (Or.inl ⟨k, message, env, hjoin, hpasses, hthrows, hopen, not_le.1 hlt⟩)
    · by_contra hlt
      exact hcrowds (Or.inl ⟨k, message, env, hjoin, hpasses, hthrows, not_le.1 hlt, hj⟩)
  | left k d env v he hjoined hclosing hleaving hsent =>
    have henv : env.Expands := by
      rw [he] at hok
      exact hok
    refine hall.append hsent ((h.close_iff henv hjoined hleaving).2 fun hj => ?_)
    by_contra hlt
    exact hcrowds (Or.inr ⟨k, env, d, he, hjoined, hclosing, not_le.1 hlt, hj⟩)
  | echoed k session d operation env item he hthrows hsession hdocument hanswer hsent =>
    refine hall.append hsent ((h.echo_iff hanswer).2 fun hopen => ?_)
    by_contra hlt
    exact hoverflows (Or.inr ⟨k, session, d, operation, env, he, hthrows, hsession, hdocument,
      Or.inl ⟨item, hanswer, hopen, not_le.1 hlt⟩⟩)
  | appended k session d operation env he hthrows hsession hdocument hanswer hsent =>
    refine hall.append hsent ((h.append_iff hanswer).2 fun hj => ?_)
    by_contra hlt
    exact hoverflows (Or.inr ⟨k, session, d, operation, env, he, hthrows, hsession, hdocument,
      Or.inr ⟨hanswer, hj, not_le.1 hlt⟩⟩)

/-- **A step that sends too much sends a message that is not acceptable.** -/
theorem Ready.breaks (h : Ready w) (hok : e.Ordinary) (hbad : Crowds w e ∨ Overflows w e) :
    ¬ AllAcceptable (w.handle e) := by
  intro hall
  have hjoins : ∀ {k : SocketId} {message : JoinMessage} {env : ServerEnv},
      NewJoin w e k message env → ¬ RefusesJoin w message env → env.syncThrows = none →
      (w.readyState k = .opened →
        w.store.getLatestServerSeq message.documentId ≤ MAX_SAFE_INTEGER) ∧
      ((∃ j ∈ k :: w.members message.documentId, w.readyState j = .opened) →
        (message.clientId :: clientIds w (w.members message.documentId)).dedup.length ≤
          MAX_PRESENCE_PARTICIPANTS) := by
    intro k message env hjoin hpasses hthrows
    obtain ⟨session, hsession, hsent⟩ := join_sends hjoin hpasses hthrows
    exact (h.join_iff hok hjoin hpasses hsession).1 (hall.added hsent)
  rcases hbad with (⟨k, message, env, hjoin, hpasses, hthrows, hlt, hj⟩ |
      ⟨k, env, d, rfl, hjoined, hclosing, hlt, hj⟩) |
    (⟨k, message, env, hjoin, hpasses, hthrows, hopen, hlt⟩ |
      ⟨k, session, d, operation, env, rfl, hthrows, hsession, hdocument, hsubmit⟩)
  · exact absurd ((hjoins hjoin hpasses hthrows).2 hj) (not_le.2 hlt)
  · obtain ⟨v, hleaving, hsent⟩ := @Inv.close_sends w env d k h.inv hjoined hclosing
    exact absurd ((h.close_iff hok hjoined hleaving).1 (hall.added hsent) hj) (not_le.2 hlt)
  · exact absurd ((hjoins hjoin hpasses hthrows).1 hopen) (not_le.2 hlt)
  · have hstep := @Inv.submits w d k h.inv session hsession hdocument operation env hthrows
    rcases hsubmit with ⟨item, hanswer, hopen, hlt⟩ | ⟨hanswer, hj, hlt⟩
    · rw [hanswer] at hstep
      have hsent : (w.handle (.message k (.message (.submitOperation ⟨d, operation⟩)) env)).sent =
          w.sent ++ w.addressed k (.operation ⟨d, item.serverSeq, operation⟩) := by
        rw [hstep]
        rfl
      exact absurd ((h.echo_iff hanswer).1 (hall.added hsent) hopen) (not_le.2 hlt)
    · rw [hanswer] at hstep
      have hsent : (w.handle (.message k (.message (.submitOperation ⟨d, operation⟩)) env)).sent =
          w.sent ++ (w.audience d).map
            (·, .operation ⟨d, w.store.lastServerSeq + 1, operation⟩) := by
        rw [hstep]
        rfl
      exact absurd ((h.append_iff hanswer).1 (hall.added hsent) hj) (not_le.2 hlt)

/-! ## Every run -/

theorem Ready.start {store : OperationStore} (hstore : store.Reachable) (htyped : store.Typed) :
    Ready (start store) := ⟨.start hstore, fun _ _ h => by (cases h), htyped⟩

/-- **Every message is acceptable exactly in the runs that crowd no room and overflow no number.** -/
theorem acceptable_iff {store : OperationStore} (hstore : store.Reachable) (htyped : store.Typed)
    {es : List Event} (hes : ∀ e ∈ es, e.Ordinary) :
    Runs.Always SyncServer.handle AllAcceptable (start store) es ↔
      Runs.Never SyncServer.handle (fun w e => Crowds w e ∨ Overflows w e) (start store) es :=
  Runs.always_iff_never_of (fun _ _ hok h => Ready.handle h hok)
    (fun _ _ hok h hall hnot => Ready.keeps h hok hall hnot)
    (fun _ _ hok h _ hbad => Ready.breaks h hok hbad) (Ready.start hstore htyped)
    (fun _ hp => by cases hp) hes

/-- A client joins the document `d`; each socket is another client. -/
def joinOf (k : SocketId) : Event :=
  .message k (.message (.join ⟨js "d", decimal k, 0, none, none⟩)) ⟨none, none, none, true, id⟩

def crowd (n : Nat) : List Event := (List.range n).flatMap fun k => [.connection k 0, joinOf k]

theorem joinOf_ordinary (k : SocketId) : (joinOf k).Ordinary := by
  intro s
  show s.length ≤ 3 * s.length
  omega

/-- No room is full, and no number has reached the bound. -/
def modest (w : SyncServer) : Bool :=
  (w.rooms.values.all fun room => decide (room.elems.length < MAX_PRESENCE_PARTICIPANTS)) &&
    (w.store.operations.all fun row => decide (row.serverSeq ≤ MAX_SAFE_INTEGER)) &&
      decide (w.store.lastServerSeq < MAX_SAFE_INTEGER)

/-- A modest server sends nothing that is too much. -/
theorem not_bad_of_modest (w : SyncServer) (e : Event) (h : w.modest = true) :
    ¬ (Crowds w e ∨ Overflows w e) := by
  simp only [modest, Bool.and_eq_true, List.all_eq_true, decide_eq_true_eq] at h
  obtain ⟨⟨hrooms, hrows⟩, hlast⟩ := h
  have hmembers : ∀ d, (w.members d).length < MAX_PRESENCE_PARTICIPANTS := by
    intro d
    unfold members
    cases hroom : w.rooms.get? d with
    | none => decide
    | some room => exact hrooms room (InsMap.mem_values.2 ⟨d, hroom⟩)
  have hclients : ∀ l : List SocketId, (clientIds w l).length ≤ l.length :=
    fun l => List.length_filterMap_le _ _
  have hdedup : ∀ l : List JsString, l.dedup.length ≤ l.length := fun l => l.dedup_sublist.length_le
  have hlog : ∀ {d : JsString} {item : SequencedOperation}, item ∈ w.store.log d →
      item.serverSeq ≤ MAX_SAFE_INTEGER := by
    intro d item hitem
    obtain ⟨row, hrow, -, rfl⟩ := OperationStore.mem_log.1 hitem
    exact hrows row hrow
  have hlatest : ∀ d, w.store.getLatestServerSeq d ≤ MAX_SAFE_INTEGER := by
    intro d
    obtain ⟨-, ⟨-, hzero⟩ | ⟨item, hitem, hseq⟩⟩ := w.store.latest_spec d
    · rw [hzero]
      decide
    · rw [← hseq]
      exact hlog hitem
  rintro ((⟨k, message, env, -, -, -, hlt, -⟩ | ⟨k, env, d, -, -, -, hlt, -⟩) |
    (⟨k, message, env, -, -, -, -, hlt⟩ | ⟨k, session, d, operation, env, -, -, -, -, hsubmit⟩))
  · have hjoined := hdedup (message.clientId :: clientIds w (w.members message.documentId))
    rw [List.length_cons] at hjoined
    have := hclients (w.members message.documentId)
    have := hmembers message.documentId
    omega
  · have hleft := hdedup (clientIds w ((w.members d).filter (· ≠ k)))
    have := hclients ((w.members d).filter (· ≠ k))
    have := List.length_filter_le (fun j => decide (j ≠ k)) (w.members d)
    have := hmembers d
    omega
  · exact absurd (hlatest message.documentId) (not_le.2 hlt)
  · rcases hsubmit with ⟨item, hanswer, -, hlt⟩ | ⟨-, -, hlt⟩
    · exact absurd (hlog (answer_mem hanswer)) (not_le.2 hlt)
    · omega

/-- A client submits an operation of the document `d`. -/
def submitOf (k : SocketId) (operation : TextOperation) : Event :=
  .message k (.message (.submitOperation ⟨js "d", operation⟩)) ⟨none, none, none, true, id⟩

/-- Two clients join; one types a letter and sends it again, the other deletes it and goes. -/
def conversation : List Event :=
  let letter : TextOperation := .insert ⟨js "0:1", js "0", 1, 1, ROOT_ID, js "a"⟩
  [.connection 0 0, joinOf 0, .connection 1 0, joinOf 1, submitOf 0 letter, submitOf 0 letter,
    submitOf 1 (.delete ⟨js "1:1", js "1", 1, 2, js "0:1"⟩),
    .close 1 ⟨none, none, none, true, id⟩]

/-- The syncs, the rosters, both operations to both clients, and the letter once more. -/
theorem acceptable_conversation :
    (Runs.run SyncServer.handle (start .empty) conversation).sent.length = 11 ∧
      Runs.Always SyncServer.handle AllAcceptable (start .empty) conversation := by
  refine ⟨by decide +kernel, (acceptable_iff .empty (fun _ h => by cases h) fun e he => ?_).2
    (Runs.Never.of_allSteps not_bad_of_modest (by decide +kernel))⟩
  simp only [conversation, List.mem_cons, List.not_mem_nil, or_false] at he
  rcases he with rfl | rfl | rfl | rfl | rfl | rfl | rfl | rfl
  · rfl
  · exact joinOf_ordinary 0
  · rfl
  · exact joinOf_ordinary 1
  · exact joinOf_ordinary 0
  · exact joinOf_ordinary 0
  · exact joinOf_ordinary 1
  · exact joinOf_ordinary 1

/-- Sixty-four clients have joined, and one more has connected. -/
def crowded : SyncServer :=
  Runs.run SyncServer.handle (start .empty) (crowd 64 ++ [.connection 64 0])

theorem Ready.run {es : List Event} (h : Ready w) (hok : ∀ e ∈ es, e.Ordinary) :
    Ready (Runs.run SyncServer.handle w es) := by
  induction es generalizing w with
  | nil => exact h
  | cons e es ih =>
    obtain ⟨he, hok⟩ := List.forall_mem_cons.1 hok
    exact ih (h.handle he) hok

/-- Sixty-five clients in one room: the roster that is sent when the last one joins does not parse. -/
theorem crowded_room_rejected :
    ¬ Runs.Always SyncServer.handle AllAcceptable (start .empty) (crowd 65) := by
  intro halways
  have hordinary : ∀ e ∈ crowd 64 ++ [.connection 64 0], e.Ordinary := by
    intro e he
    simp only [crowd, List.mem_append, List.mem_flatMap, List.mem_cons, List.not_mem_nil,
      or_false] at he
    rcases he with ⟨k, -, rfl | rfl⟩ | rfl
    · rfl
    · exact joinOf_ordinary k
    · rfl
  have hready : Ready crowded := Ready.run (.start .empty fun _ h => by cases h) hordinary
  have hsplit : crowd 65 = (crowd 64 ++ [.connection 64 0]) ++ [joinOf 64] := rfl
  have hlast := halways.last
  rw [hsplit, Runs.run_snoc] at hlast
  obtain ⟨hsession, hlatest, hopen, hlength⟩ :
      crowded.sessions.get? 64 = some ⟨0, none, none, none⟩ ∧
      crowded.store.getLatestServerSeq (js "d") = 0 ∧ crowded.readyState 64 = .opened ∧
      (decimal 64 :: clientIds crowded (crowded.members (js "d"))).dedup.length = 65 := by
    decide +kernel
  refine hready.breaks (joinOf_ordinary 64) (Or.inl (Or.inl ⟨64, _, _, ⟨rfl, _, hsession,
    Or.inl rfl⟩, ?_, rfl, ?_, 64, List.mem_cons_self, hopen⟩)) hlast
  · rintro (hfalse | hthrows | hlt)
    · revert hfalse
      decide
    · cases hthrows
    · have hlt : crowded.store.getLatestServerSeq (js "d") < 0 := hlt
      rw [hlatest] at hlt
      exact lt_irrefl _ hlt
  · refine lt_of_lt_of_eq ?_ hlength.symm
    decide

end SyncServer

end LocalFirst
