import LocalFirst.Lib.Runs
import LocalFirst.Server.ServerInvariant

/-!
# Joining a room

`joinSocket` records the session and takes the socket into the room before it builds the sync
message, so a store call that throws in between leaves a member that was sent nothing.

* `HalfJoins` — the steps that do this.
* `join_refused_quiet` — every other join that fails changes no session and no room.
* `join_atomic_iff` — joins are atomic exactly in the runs without such a step.
-/

set_option autoImplicit false

namespace LocalFirst

namespace SyncServer

variable {w : SyncServer} {k : SocketId} {message : JoinMessage} {env : ServerEnv} {e : Event}

/-- Every member of a room has been sent a sync message of its document. -/
def Synced (w : SyncServer) : Prop :=
  ∀ d k, w.Member d k → ∃ m, (k, .sync m) ∈ w.sent ∧ m.documentId = d

/-- A join message arrives on a socket that has not joined. -/
def NewJoin (w : SyncServer) (e : Event) (k : SocketId) (message : JoinMessage) (env : ServerEnv) :
    Prop :=
  e = .message k (.message (.join message)) env ∧
    ∃ session, w.sessions.get? k = some session ∧
      (session.documentId = none ∨ session.clientId = none)

/-- The message is malformed, the latest number cannot be read, or the cursor is ahead of it. -/
def RefusesJoin (w : SyncServer) (message : JoinMessage) (env : ServerEnv) : Prop :=
  joinMessageSchema message = false ∨ env.latestThrows.isSome = true ∨
    w.store.getLatestServerSeq message.documentId < message.lastServerSeq

/-- A join that ends in an error. -/
def JoinErrors (w : SyncServer) (e : Event) (k : SocketId) : Prop :=
  ∃ message env, NewJoin w e k message env ∧
    (RefusesJoin w message env ∨ env.syncThrows.isSome = true)

/-- A join that passes the checks, where building the sync message throws, or the socket is no
longer open and `sendJson` drops it. -/
def HalfJoins (w : SyncServer) (e : Event) : Prop :=
  ∃ k message env, NewJoin w e k message env ∧ ¬ RefusesJoin w message env ∧
    (env.syncThrows.isSome = true ∨ w.readyState k ≠ .opened)

/-- A socket whose session is un-joined, that is in no room, and that the next join that passes the
checks takes into its room. -/
def MayJoin (w : SyncServer) (k : SocketId) : Prop :=
  (∃ session, w.sessions.get? k = some session ∧ session.documentId = none ∧
    session.clientId = none) ∧ (∀ d, ¬ w.Member d k) ∧
  ∀ message env, ¬ RefusesJoin w message env →
    (w.handle (.message k (.message (.join message)) env)).Member message.documentId k

/-! ## One join -/

/-- A join arrives at `joinSocket`. -/
theorem handle_newJoin (h : NewJoin w e k message env) (hschema : joinMessageSchema message = true) :
    ∃ session, w.sessions.get? k = some session ∧
      (session.documentId = none ∨ session.clientId = none) ∧
      w.handle e = caught k (joinSocket env w k session message) := by
  obtain ⟨rfl, session, hsession, hnew⟩ := h
  refine ⟨session, hsession, hnew, ?_⟩
  simp only [SyncServer.handle, handleMessage, hsession, parseClientMessage, clientMessageSchema,
    hschema, if_true]
  obtain ⟨connectedAt, documentId, clientId, displayName⟩ := session
  simp only at hnew
  unfold dispatch
  rcases hnew with rfl | rfl
  · rfl
  · cases documentId <;> rfl

/-- **A join that is refused changes no session and no room.** -/
theorem join_refused_errs (h : NewJoin w e k message env) (hrefused : RefusesJoin w message env) :
    OnlyErrs w (w.handle e) := by
  cases hschema : joinMessageSchema message with
  | false =>
    obtain ⟨rfl, session, hsession, -⟩ := h
    simp only [SyncServer.handle, handleMessage, hsession, parseClientMessage, clientMessageSchema,
      hschema, Bool.false_eq_true, if_false]
    exact sendError_errs _ _ _ (by decide)
  | true =>
    obtain ⟨session, -, -, heq⟩ := handle_newJoin h hschema
    rw [heq]
    rw [joinSocket_plain]
    rcases hrefused with hfalse | hthrows | hahead
    · rw [hschema] at hfalse
      cases hfalse
    · obtain ⟨error, herror⟩ := Option.isSome_iff_exists.1 hthrows
      rw [herror]
      exact sendCaughtError_errs _ _ _
    · cases env.latestThrows with
      | some error => exact sendCaughtError_errs _ _ _
      | none =>
        simp only [if_pos hahead]
        exact sendError_errs _ _ _ (by decide)

theorem join_refused_quiet (h : NewJoin w e k message env) (hrefused : RefusesJoin w message env) :
    QuietlySends w (w.handle e) := (join_refused_errs h hrefused).quiet

/-- The sync message of a join. -/
def syncOf (w : SyncServer) (message : JoinMessage) (env : ServerEnv) : SyncMessage :=
  (w.store.buildSyncMessage env.rowWritten message.documentId message.lastServerSeq
    (hasSnapshotBootstrapCapability message.capabilities)).1

/-- **A join that passes the checks takes the socket into the room**, and sends it the sync message
if that is built. -/
theorem join_enters (h : NewJoin w e k message env) (hpasses : ¬ RefusesJoin w message env) :
    (w.handle e).joinedTo k = some message.documentId ∧ ∃ rest, (∀ p ∈ rest, Quiet p.2) ∧
      (w.handle e).sent = w.sent ++ ((if env.syncThrows.isSome then []
        else w.addressed k (.sync (syncOf w message env))) ++ rest) := by
  unfold RefusesJoin at hpasses
  rw [not_or, not_or, Bool.not_eq_false, Option.not_isSome_iff_eq_none, not_lt] at hpasses
  obtain ⟨hschema, hlatest, hcursor⟩ := hpasses
  obtain ⟨session, -, -, heq⟩ := handle_newJoin h hschema
  have hentered : ∀ {w' : SyncServer}, w'.sessions = (w.enterRoom k session message).sessions →
      w'.joinedTo k = some message.documentId := by
    intro w' hsessions
    have hjoined := joinedTo_enterRoom w k k session message
    rw [if_pos rfl] at hjoined
    unfold joinedTo at hjoined ⊢
    rw [hsessions]
    exact hjoined
  rw [heq]
  rw [joinSocket_plain]
  rw [hlatest]
  simp only [if_neg (not_lt.2 hcursor)]
  cases env.syncThrows with
  | some error =>
    obtain ⟨rest, hrest, hquiet⟩ := sendCaughtError_quiet (w.enterRoom k session message) k error
    simp only [caught_error, hrest]
    exact ⟨hentered rfl, rest, fun p hp => (hquiet p hp).2, rfl⟩
  | none =>
    obtain ⟨rest, hrest, hquiet⟩ := broadcastPresence_quiet env
      (synced env (w.enterRoom k session message) k message) message.documentId
    simp only [hrest]
    rw [synced_eq]
    exact ⟨hentered rfl, rest, fun p hp => (hquiet p hp).2, List.append_assoc _ _ _⟩

/-- A refused join leaves the socket able to join. -/
theorem Inv.mayJoin (h : Inv w) (hjoin : NewJoin w e k message env)
    (hrefused : RefusesJoin w message env) : MayJoin (w.handle e) k := by
  have hrooms := (join_refused_quiet hjoin hrefused).sameRooms
  obtain ⟨-, session, hsession, hnew⟩ := hjoin
  have hiff := h.rooms.identified k session hsession
  have hdoc : session.documentId = none := hnew.elim id hiff.2
  have hsession' : (w.handle e).sessions.get? k = some session := by
    rw [hrooms.sessions]
    exact hsession
  refine ⟨⟨session, hsession', hdoc, hiff.1 hdoc⟩, fun d hm => ?_, fun message' env' hpasses => ?_⟩
  · rw [(h.handle e).rooms.member] at hm
    unfold joinedTo at hm
    rw [hsession', Option.bind_some, hdoc] at hm
    cases hm
  · rw [((h.handle e).handle _).rooms.member]
    exact (join_enters ⟨rfl, session, hsession', Or.inl hdoc⟩ hpasses).1

/-! ## One step -/

/-- A step that half-joins leaves a member that was sent no sync message. -/
theorem Inv.not_synced (h : Inv w) (hhalf : HalfJoins w e) : ¬ Synced (w.handle e) := by
  obtain ⟨k, message, env, hjoin, hpasses, hfails⟩ := hhalf
  obtain ⟨hjoined, rest, hquiet, hsent⟩ := join_enters hjoin hpasses
  obtain ⟨-, session, hsession, hnew⟩ := hjoin
  intro hsynced
  obtain ⟨m, hm, -⟩ := hsynced _ k (((h.handle e).rooms.member _ _).2 hjoined)
  rw [hsent] at hm
  rcases List.mem_append.1 hm with hm | hm
  · -- the session was un-joined, so nothing of a log had been sent before
    have hunjoined : w.joinedTo k = none := by
      unfold joinedTo
      rw [hsession]
      exact hnew.elim id (h.rooms.identified k session hsession).2
    cases h.silent _ hm (by rw [hsession]; rfl) hunjoined
  · rcases List.mem_append.1 hm with hm | hm
    · split at hm
      · cases hm
      · rename_i hreliable
        exact (hfails.resolve_left hreliable) (mem_addressed hm).2
    · cases hquiet _ hm

theorem Inv.sent_grows (h : Inv w) (e : Event) {p : SocketId × ServerMessage} (hp : p ∈ w.sent) :
    p ∈ (w.handle e).sent := by
  obtain ⟨added, hsent, -⟩ := (h.speaks e).sent
  rw [hsent]
  exact List.mem_append_left _ hp

/-- A socket has joined its document before, or does so by a join that passes the checks. -/
theorem joined_cases {d : JsString} (hjoined : (w.handle e).joinedTo k = some d) :
    w.joinedTo k = some d ∨ ∃ message env, NewJoin w e k message env ∧
      ¬ RefusesJoin w message env ∧ message.documentId = d := by
  rcases handle_session w e k with heq | heq | heq | ⟨session, message, env, he, hsession, hnew, heq⟩
  · unfold joinedTo at hjoined ⊢
    rw [heq] at hjoined
    exact Or.inl hjoined
  · unfold joinedTo at hjoined
    rw [heq] at hjoined
    cases hjoined
  · rw [heq.2] at hjoined
    cases hjoined
  · have hjoin : NewJoin w e k message env := ⟨he, session, hsession, hnew⟩
    by_cases hrefused : RefusesJoin w message env
    · -- a refused join changes no session
      unfold joinedTo at hjoined ⊢
      rw [(join_refused_quiet hjoin hrefused).sameRooms.sessions] at hjoined
      exact Or.inl hjoined
    · exact Or.inr ⟨message, env, hjoin, hrefused,
        Option.some.inj ((join_enters hjoin hrefused).1.symm.trans hjoined)⟩

/-- A join on an open socket is answered, unless building the sync message throws. -/
theorem Inv.join_synced (h : Inv w) (hjoin : NewJoin w e k message env)
    (hpasses : ¬ RefusesJoin w message env) (hreliable : ¬ env.syncThrows.isSome = true)
    (hopen : w.readyState k = .opened) :
    ∃ m, (k, .sync m) ∈ (w.handle e).sent ∧ m.documentId = message.documentId := by
  obtain ⟨-, rest, -, hsent⟩ := join_enters hjoin hpasses
  refine ⟨syncOf w message env, ?_, ?_⟩
  · rw [hsent, if_neg hreliable]
    unfold addressed
    rw [if_pos hopen]
    simp
  · exact (OperationStore.buildSyncMessage_spec h.log h.cache _ _ _ _).1.document

/-- **Every other step keeps the members synced.** -/
theorem Synced.handle (h : Inv w) (hsynced : Synced w) (hnot : ¬ HalfJoins w e) :
    Synced (w.handle e) := by
  intro d k hmember
  rw [(h.handle e).rooms.member] at hmember
  rcases joined_cases hmember with hjoined | ⟨message, env, hjoin, hpasses, rfl⟩
  · obtain ⟨m, hm, hd⟩ := hsynced d k ((h.rooms.member d k).2 hjoined)
    exact ⟨m, h.sent_grows e hm, hd⟩
  · have hreliable : ¬ env.syncThrows.isSome = true := fun hthrows =>
      hnot ⟨k, message, env, hjoin, hpasses, Or.inl hthrows⟩
    have hopen : w.readyState k = .opened := by
      by_contra hclosed
      exact hnot ⟨k, message, env, hjoin, hpasses, Or.inr hclosed⟩
    exact h.join_synced hjoin hpasses hreliable hopen

/-! ## Every run -/

theorem run_eq {σ : Type} [ServerStore σ] : ∀ (w : SyncServer σ) (es : List Event),
    w.run es = Runs.run handle w es
  | _, [] => rfl
  | w, e :: es => run_eq (w.handle e) es

/-- In every state of the run the members of the rooms are synced, and every join that ends in an
error leaves a socket that may join. -/
def JoinAtomic (w : SyncServer) (es : List Event) : Prop :=
  Runs.Always handle Synced w es ∧
    Runs.Never handle (fun w e => ∃ k, JoinErrors w e k ∧ ¬ MayJoin (w.handle e) k) w es

/-- **Joins are atomic exactly in the runs without a half join.** -/
theorem join_atomic_iff {store : OperationStore} (hstore : store.Reachable) (es : List Event) :
    JoinAtomic (start store) es ↔ Runs.Never handle HalfJoins (start store) es := by
  have hstart : Synced (start store) := by
    rintro d k ⟨room, hroom, -⟩
    cases hroom
  have hiff : Runs.Always handle Synced (start store) es ↔
      Runs.Never handle HalfJoins (start store) es :=
    Runs.always_iff_never (fun _ e h => Inv.handle h e)
      (fun _ _ h hsynced hnot => hsynced.handle h hnot) (fun _ _ h _ hhalf => h.not_synced hhalf)
      (Inv.start hstore) hstart
  refine ⟨fun h => hiff.1 h.1, fun hnever => ⟨hiff.2 hnever, fun before e after heq herror => ?_⟩⟩
  obtain ⟨k, ⟨message, env, hjoin, hfails⟩, hstuck⟩ := herror
  have hinv : Inv (Runs.run handle (start store) before) := by
    rw [← run_eq]
    exact run_inv hstore before
  by_cases hrefused : RefusesJoin (Runs.run handle (start store) before) message env
  · exact hstuck (hinv.mayJoin hjoin hrefused)
  · have hthrows := hfails.resolve_left hrefused
    exact hnever before e after heq ⟨k, message, env, hjoin, hrefused, Or.inl hthrows⟩

/-- A client's join fails while the sync message is built, and another client's edit reaches it. -/
def halfJoin : List Event :=
  let broken : ServerEnv := ⟨none, some ⟨.error, js "disk I/O error"⟩, none, true, id⟩
  let env : ServerEnv := ⟨none, none, none, true, id⟩
  let operation : TextOperation := .insert ⟨js "B:1", js "B", 1, 1, ROOT_ID, js "b"⟩
  [.connection 0 5, .message 0 (.message (.join ⟨js "d", js "A", 0, none, none⟩)) broken,
    .connection 1 6, .message 1 (.message (.join ⟨js "d", js "B", 0, none, none⟩)) env,
    .message 1 (.message (.submitOperation ⟨js "d", operation⟩)) env]

/-- The socket of the failed join is sent the operation, but never a sync message. -/
theorem join_not_atomic :
    ¬ JoinAtomic (start .empty) halfJoin ∧
      ((start .empty).run halfJoin).joinedTo 0 = some (js "d") ∧
      ((start .empty).run halfJoin).sentTo 0 =
        [.error ⟨js "INTERNAL_ERROR", js "The server failed to process that message."⟩,
          .presence ⟨js "d", [⟨js "A", js "Guest A", 5⟩, ⟨js "B", js "Guest B", 6⟩]⟩,
          .operation ⟨js "d", 1, .insert ⟨js "B:1", js "B", 1, 1, ROOT_ID, js "b"⟩⟩] := by
  have hjoined : ((start .empty).run halfJoin).joinedTo 0 = some (js "d") := by decide +kernel
  have hsent : ((start .empty).run halfJoin).sentTo 0 =
      [.error ⟨js "INTERNAL_ERROR", js "The server failed to process that message."⟩,
        .presence ⟨js "d", [⟨js "A", js "Guest A", 5⟩, ⟨js "B", js "Guest B", 6⟩]⟩,
        .operation ⟨js "d", 1, .insert ⟨js "B:1", js "B", 1, 1, ROOT_ID, js "b"⟩⟩] := by
    decide +kernel
  refine ⟨fun h => ?_, hjoined, hsent⟩
  have hsynced : Synced ((start .empty).run halfJoin) := by
    rw [run_eq]
    exact h.1.last
  obtain ⟨m, hm, -⟩ := hsynced _ 0 (((run_inv .empty halfJoin).rooms.member _ _).2 hjoined)
  have hm : .sync m ∈ ((start .empty).run halfJoin).sentTo 0 :=
    List.mem_filterMap.2 ⟨_, hm, if_pos rfl⟩
  rw [hsent] at hm
  simp at hm

/-- The join of an open socket in a run without store failures. -/
theorem join_atomic_reliable :
    JoinAtomic (start .empty)
      [.connection 0 5,
        .message 0 (.message (.join ⟨js "d", js "A", 0, none, none⟩)) ⟨none, none, none, true, id⟩] := by
  refine (join_atomic_iff .empty _).2 fun before e after heq hhalf => ?_
  obtain ⟨k, message, env, ⟨rfl, -⟩, -, hfails⟩ := hhalf
  rcases before with _ | ⟨first, _ | ⟨second, before⟩⟩
  · cases heq
  · cases heq
    rcases hfails with hthrows | hclosed
    · cases hthrows
    · exact hclosed rfl
  · simp at heq

end SyncServer

end LocalFirst
