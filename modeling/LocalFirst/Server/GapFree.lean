import LocalFirst.Server.ServerInvariant

/-!
# What a joined socket is told of the log

A socket that joins a document gets a sync message and then the operations that are appended.

* `stream` — the rows of the log that the messages to a socket carry, each once.
* `Streams` — the invariant: they are the rows from the cursor of the join up to some number,
  and up to the end of the log while the socket is open.
* `Streams.handle` — every event keeps it.
* `gap_free` — so it holds from the join on.
-/

set_option autoImplicit false

namespace LocalFirst

namespace SyncServer

variable {w : SyncServer}

/-- The rows of the log that a message carries; a snapshot carries all rows up to its number. -/
def carries (log : List SequencedOperation) (m : ServerMessage) : List SequencedOperation :=
  match delivery m with
  | none => []
  | some d =>
    match d.bootstrap with
    | none => d.items
    | some b => between SequencedOperation.serverSeq 0 b.snapshotSeq log ++ d.items

/-- The rows of the log of `documentId` that a socket has been sent, without those at or below the
cursor and those sent before. -/
def stream {σ : Type} [ServerStore σ] (w : SyncServer σ) (socket : SocketId) (documentId : JsString)
    (cursor : Int) : List SequencedOperation :=
  firstDeliveries SequencedOperation.serverSeq cursor
    ((w.sentTo socket).flatMap (carries (w.log documentId)))

/-! ## Messages to one socket -/

/-- The messages among `sent` that go to one socket. -/
def toSocket (socket : SocketId) (sent : List (SocketId × ServerMessage)) : List ServerMessage :=
  sent.filterMap fun p => if p.1 = socket then some p.2 else none

theorem mem_toSocket {k : SocketId} {sent : List (SocketId × ServerMessage)} {m : ServerMessage} :
    m ∈ toSocket k sent ↔ (k, m) ∈ sent := by
  unfold toSocket
  simp only [List.mem_filterMap, Option.ite_none_right_eq_some, Option.some.injEq]
  refine ⟨fun ⟨p, hp, hk, hm⟩ => ?_, fun h => ⟨(k, m), h, rfl, rfl⟩⟩
  rw [← hk, ← hm]
  exact hp

/-- A message to distinct sockets reaches each of them once. -/
theorem toSocket_map (message : ServerMessage) {k : SocketId} : ∀ {peers : List SocketId},
    peers.Nodup → k ∈ peers → toSocket k (peers.map (·, message)) = [message]
  | peer :: peers, hnodup, hk => by
    obtain ⟨hnot, hnodup⟩ := List.nodup_cons.1 hnodup
    unfold toSocket
    by_cases hp : peer = k
    · have hnil : (peers.map (·, message)).filterMap
          (fun p => if p.1 = k then some p.2 else none) = [] := by
        rw [List.filterMap_eq_nil_iff]
        intro p hmem
        obtain ⟨peer', hpeer', rfl⟩ := List.mem_map.1 hmem
        refine if_neg fun heq => hnot ?_
        rw [hp, ← heq]
        exact hpeer'
      simp only [List.map_cons, List.filterMap_cons, if_pos hp, hnil]
    · have hk := (List.mem_cons.1 hk).resolve_left (Ne.symm hp)
      simp only [List.map_cons, List.filterMap_cons, if_neg hp]
      exact toSocket_map message hnodup hk

theorem carries_history {log : List SequencedOperation} {m : SyncMessage}
    (hb : m.snapshotBootstrap = none) : carries log (.sync m) = m.operations := by
  simp only [carries, delivery, hb]

theorem carries_bootstrap {log : List SequencedOperation} {m : SyncMessage} {b : SnapshotBootstrap}
    (hb : m.snapshotBootstrap = some b) : carries log (.sync m) =
      between SequencedOperation.serverSeq 0 b.snapshotSeq log ++ m.operations := by
  simp only [carries, delivery, hb]

theorem carries_quiet {log : List SequencedOperation} {m : ServerMessage} (h : Quiet m) :
    carries log m = [] := by
  unfold Quiet at h
  simp only [carries, h]

theorem flatMap_quiet {log : List SequencedOperation} {messages : List ServerMessage}
    (h : ∀ m ∈ messages, Quiet m) : messages.flatMap (carries log) = [] := by
  rw [List.flatMap_eq_nil_iff]
  exact fun m hm => carries_quiet (h m hm)

/-- What a message that was sent carries does not change when the log grows. -/
theorem carries_congr {w w' : SyncServer} (h : Speaks w w') (d : JsString) :
    ∀ {m : ServerMessage}, Describes w.store m →
      carries (w'.store.log d) m = carries (w.store.log d) m
  | .sync m, ⟨cursor, hm⟩ => by
    cases hb : m.snapshotBootstrap with
    | none => rw [carries_history hb, carries_history hb]
    | some b =>
      have hseq := (hm.bootstrap b hb).2.2.1
      have hlatest := hm.latest
      rw [carries_bootstrap hb, carries_bootstrap hb, h.part d 0 b.snapshotSeq (by omega)]
  | .operation _, _ => rfl
  | .presence _, _ => rfl
  | .error _, _ => rfl

/-- The stream after more has been sent. -/
theorem stream_append (h : Inv w) {w' : SyncServer} (hs : Speaks w w')
    {added : List (SocketId × ServerMessage)} (hsent : w'.sent = w.sent ++ added) (k : SocketId)
    (d : JsString) (c : Int) : w'.stream k d c =
      ((toSocket k added).flatMap (carries (w'.store.log d))).foldl
        (deliver SequencedOperation.serverSeq c) (w.stream k d c) := by
  have hto : w'.sentTo k = w.sentTo k ++ toSocket k added := by
    unfold sentTo
    rw [hsent, List.filterMap_append]
    rfl
  have hold : (w.sentTo k).flatMap (carries (w'.store.log d)) =
      (w.sentTo k).flatMap (carries (w.store.log d)) := by
    rw [List.flatMap_def, List.flatMap_def]
    refine congrArg List.flatten (List.map_congr_left fun m hm => ?_)
    exact carries_congr hs d (h.sent _ (mem_toSocket.1 hm)).2
  unfold stream firstDeliveries
  simp only [log_plain]
  rw [hto, List.flatMap_append, List.foldl_append, hold]

/-! ## The invariant of a stream -/

/-- The socket has been sent the rows above the cursor up to some number, all rows while it is
open. -/
structure Streams (w : SyncServer) (k : SocketId) (d : JsString) (c n : Int) : Prop where
  cursor : c ≤ w.store.lastServerSeq
  through : n ≤ w.store.lastServerSeq
  stream : w.stream k d c = between SequencedOperation.serverSeq c n (w.store.log d)
  connected : w.readyState k ≠ .connecting
  live : w.readyState k = .opened → w.joinedTo k = some d ∧ w.store.getLatestServerSeq d ≤ n

/-- A socket that is still open after an event has still joined its document. -/
theorem joinedTo_handle (h : Inv w) {e : Event} {k : SocketId} {d : JsString}
    (hjoined : w.joinedTo k = some d) (hopen : (w.handle e).readyState k = .opened) :
    (w.handle e).joinedTo k = some d := by
  obtain ⟨session, hs, -⟩ := Option.bind_eq_some_iff.1 hjoined
  rcases handle_session w e k with heq | heq | heq | ⟨session', message, env, -, hs', hnew, -⟩
  · unfold joinedTo at hjoined ⊢
    rw [heq]
    exact hjoined
  · have hsome := ((h.rooms.handle e).opened k hopen).2
    rw [heq] at hsome
    cases hsome
  · rcases h.rooms.connected k session hs with ho | ho
    · cases ho.symm.trans heq.1
    · cases ho.symm.trans heq.1
  · -- it does not join again
    exact absurd hnew (h.rooms.not_new hs' hjoined)

section

variable (h : Inv w) {k : SocketId} {d : JsString} {c n : Int} (hstream : Streams w k d c n)
  {e : Event}
include h hstream

theorem Streams.opened (hopen : (w.handle e).readyState k = .opened) :
    w.readyState k = .opened ∧ (w.handle e).joinedTo k = some d := by
  rcases (handle_readyState w e k).2 hopen with ho | hc
  · exact ⟨ho, joinedTo_handle h (hstream.live ho).1 hopen⟩
  · exact absurd hc hstream.connected

/-- Nothing of the log of the document is added, or only what the socket has. -/
theorem Streams.still {added : List (SocketId × ServerMessage)}
    (hsent : (w.handle e).sent = w.sent ++ added)
    (hlatest : (w.handle e).readyState k = .opened →
      (w.handle e).store.getLatestServerSeq d = w.store.getLatestServerSeq d)
    (hadded : ∀ x ∈ (toSocket k added).flatMap (carries ((w.handle e).store.log d)),
      x ∈ w.store.log d ∧ w.readyState k = .opened) : Streams (w.handle e) k d c n := by
  have hs := h.speaks e
  have hgrows := hs.grows
  have hcursor := hstream.cursor
  have hthrough := hstream.through
  refine ⟨by omega, by omega, ?_, fun hc => hstream.connected ((handle_readyState w e k).1 hc),
    fun hopen => ?_⟩
  · rw [stream_append h hs hsent, foldl_deliver_old, hstream.stream, hs.part d c n hthrough]
    intro x hx
    obtain ⟨hlog, hopen⟩ := hadded x hx
    have hn := (hstream.live hopen).2
    have hx := (w.store.latest_spec d).1 x hlog
    rw [hstream.stream]
    by_cases hc : x.serverSeq ≤ c
    · exact Or.inl hc
    · exact Or.inr (List.mem_map_of_mem (mem_between.2 ⟨hlog, by omega, by omega⟩))
  · obtain ⟨ho, hj⟩ := hstream.opened h hopen
    rw [hlatest hopen]
    exact ⟨hj, (hstream.live ho).2⟩

/-- A row is appended: an open socket of the document is sent it, and no other is. -/
theorem Streams.appended {documentId : JsString} {operation : TextOperation}
    (hstore : (w.handle e).store = w.store.insertOperation documentId operation)
    (hsent : (w.handle e).sent = w.sent ++ (w.audience documentId).map
      (·, .operation ⟨documentId, w.store.lastServerSeq + 1, operation⟩)) :
    ∃ n', Streams (w.handle e) k d c n' := by
  have hcursor := hstream.cursor
  have hthrough := hstream.through
  by_cases hk : k ∈ w.audience documentId
  · obtain ⟨hj, ho⟩ := (mem_audience h.rooms).1 hk
    obtain ⟨hjoined, hlatest⟩ := hstream.live ho
    obtain rfl : d = documentId := Option.some.inj (hjoined.symm.trans hj)
    have hs := h.speaks e
    have hseq : (w.handle e).store.lastServerSeq = w.store.lastServerSeq + 1 := by
      rw [hstore]
      rfl
    have hlog : (w.handle e).store.log d =
        w.store.log d ++ [⟨w.store.lastServerSeq + 1, operation⟩] := by
      rw [hstore, OperationStore.log_insertOperation, if_pos rfl]
    have hwhole : between SequencedOperation.serverSeq c (w.store.lastServerSeq + 1)
        ((w.handle e).store.log d) = between SequencedOperation.serverSeq c n (w.store.log d) ++
          [⟨w.store.lastServerSeq + 1, operation⟩] := by
      rw [hlog]
      unfold between
      rw [List.filter_append]
      congr 1
      · refine List.filter_congr fun x hx => ?_
        have hle := (w.store.latest_spec d).1 x hx
        have hbound := h.log.log_bounds hx
        have hn : x.serverSeq ≤ n := by omega
        have hn' : x.serverSeq ≤ w.store.lastServerSeq + 1 := by omega
        simp only [hn, hn']
      · have hc : c < w.store.lastServerSeq + 1 := by omega
        simp [hc]
    refine ⟨w.store.lastServerSeq + 1, by omega, by omega, ?_,
      fun hc => hstream.connected ((handle_readyState w e k).1 hc), fun hopen => ?_⟩
    · rw [stream_append h hs hsent, toSocket_map _ (w.audience_nodup d) hk, hstream.stream, hwhole]
      refine foldl_deliver_new ?_ fun x hx => ?_
      · show Increasing _ (_ ++ [_])
        rw [← hwhole]
        exact (hs.log.log_increasing d).between
      · rw [List.mem_singleton.1 hx]
        simp only
        omega
    · have hbound := (hs.log.latest_bounds d).2
      exact ⟨(hstream.opened h hopen).2, by omega⟩
  · refine ⟨n, hstream.still h hsent (fun hopen => ?_) fun x hx => ?_⟩
    · obtain ⟨ho, hj⟩ := hstream.opened h hopen
      have hother : documentId ≠ d := by
        intro hd
        rw [hd] at hk
        exact hk ((mem_audience h.rooms).2 ⟨(hstream.live ho).1, ho⟩)
      rw [hstore]
      unfold OperationStore.getLatestServerSeq OperationStore.insertOperation
      simp [hother]
    · obtain ⟨m, hm, -⟩ := List.mem_flatMap.1 hx
      obtain ⟨peer, hpeer, heq⟩ := List.mem_map.1 (mem_toSocket.1 hm)
      cases heq
      exact absurd hpeer hk

/-- **Every event keeps the stream.** -/
theorem Streams.handle (e : Event) : ∃ n', Streams (w.handle e) k d c n' := by
  have hquiet : ∀ {added : List (SocketId × ServerMessage)}, (w.handle e).store = w.store →
      (w.handle e).sent = w.sent ++ added →
      (∀ p ∈ added, w.readyState p.1 = .opened ∧ Quiet p.2) →
      ∃ n', Streams (w.handle e) k d c n' := by
    intro added hstore hsent hadded
    refine ⟨n, hstream.still h hsent (fun _ => by rw [hstore]) fun x hx => ?_⟩
    rw [flatMap_quiet fun m hm => (hadded _ (mem_toSocket.1 hm)).2] at hx
    cases hx
  cases handle_effect w e with
  | moved he added hstore hsent hadded => exact hquiet hstore hsent hadded
  | quiet added hrooms hstore hsent hadded => exact hquiet hstore hsent hadded
  | stalled socket session message env added he hsession hnew hschema hthrows hrooms hstore hsent
      hadded => exact hquiet hstore hsent hadded
  | synced socket session message env rest he hsession hnew hschema hcursor hrooms hstore hsent
      hrest =>
    -- the socket that joins is another one
    obtain ⟨-, -, hops, -⟩ := OperationStore.buildSyncMessage_spec h.log h.cache
      env.rowWritten message.documentId message.lastServerSeq
      (hasSnapshotBootstrapCapability message.capabilities)
    rw [← hstore] at hops
    refine ⟨n, hstream.still h hsent (fun _ => ?_) fun x hx => ?_⟩
    · unfold OperationStore.getLatestServerSeq
      rw [hops]
    · rw [flatMap_quiet fun m hm => ?_] at hx
      · cases hx
      · rcases List.mem_append.1 (mem_toSocket.1 hm) with hm | hm
        · obtain ⟨heq, hopen⟩ := mem_addressed hm
          cases heq
          exact absurd hnew (h.rooms.not_new hsession (hstream.live hopen).1)
        · exact (hrest _ hm).2
  | echoed socket session documentId item env he hsession hdocument hclient hrooms hitem hstore
      hsent =>
    refine ⟨n, hstream.still h hsent (fun _ => by rw [hstore]) fun x hx => ?_⟩
    obtain ⟨m, hm, hx⟩ := List.mem_flatMap.1 hx
    obtain ⟨heq, hopen⟩ := mem_addressed (mem_toSocket.1 hm)
    cases heq
    have hjoined := (hstream.live hopen).1
    unfold joinedTo at hjoined
    rw [hsession, Option.bind_some, hdocument] at hjoined
    cases hjoined
    rw [List.mem_singleton.1 hx]
    exact ⟨hitem, hopen⟩
  | appended socket session documentId operation env he hsession hdocument hclient hvalid hschema
      hrooms hnew hstore hsent => exact hstream.appended h hstore hsent

end

/-- A sync message carries the rows above the cursor. -/
theorem carries_sync {store : OperationStore} (hlog : store.LogInv) {d : JsString} {cursor : Int}
    {capable : Bool} {m : SyncMessage} (hcursor : 0 ≤ cursor)
    (hm : store.SyncsLog d cursor capable m) : carries (store.log d) (.sync m) =
      between SequencedOperation.serverSeq cursor (store.getLatestServerSeq d) (store.log d) := by
  cases hb : m.snapshotBootstrap with
  | none => rw [carries_history hb, hm.history hb, hm.latest]
  | some b =>
    obtain ⟨-, hboot, hitems⟩ := hm.bootstrap b hb
    have hpositive := hboot.positive
    have hle := (hm.capable (by rw [hb]; rfl)).2
    obtain rfl : cursor = 0 := by omega
    rw [carries_bootstrap hb, hitems, hm.latest]
    exact (between_split (hlog.log_increasing d) (by omega) hboot.through).symm

/-- **The join starts a stream** at the cursor of its message. -/
theorem Streams.join (h : Inv w) {k : SocketId} {message : JoinMessage} {env : ServerEnv}
    (henv : env.syncThrows = none) (hnew : w.joinedTo k = none)
    (hjoin : (w.handle (.message k (.message (.join message)) env)).joinedTo k =
      some message.documentId) :
    ∃ n, Streams (w.handle (.message k (.message (.join message)) env)) k message.documentId
      message.lastServerSeq n := by
  have hsame : ¬ SameRooms w (w.handle (.message k (.message (.join message)) env)) := by
    intro hrooms
    unfold joinedTo at hjoin hnew
    rw [hrooms.sessions, hnew] at hjoin
    cases hjoin
  have hs := h.speaks (.message k (.message (.join message)) env)
  cases handle_effect w (.message k (.message (.join message)) env) with
  | moved he => cases he
  | quiet added hrooms => exact absurd hrooms hsame
  | stalled socket session message' env' added he hsession hnew' hschema hthrows =>
    cases he
    rw [henv] at hthrows
    cases hthrows
  | echoed socket session documentId item env' he => cases he
  | appended socket session documentId operation env' he => cases he
  | synced socket session message' env' rest he hsession hnew' hschema hcursor hrooms hstore hsent
      hrest =>
    cases he
    obtain ⟨hsyncs, -, hops, hseq⟩ := OperationStore.buildSyncMessage_spec h.log h.cache
      env.rowWritten message.documentId message.lastServerSeq
      (hasSnapshotBootstrapCapability message.capabilities)
    rw [← hstore] at hops hseq
    have hlog : (w.handle (.message k (.message (.join message)) env)).store.log
        message.documentId = w.store.log message.documentId := by
      unfold OperationStore.log
      rw [hops]
    have hlatest : (w.handle (.message k (.message (.join message)) env)).store.getLatestServerSeq
        message.documentId = w.store.getLatestServerSeq message.documentId := by
      unfold OperationStore.getLatestServerSeq
      rw [hops]
    have hbounds := h.log.latest_bounds message.documentId
    obtain ⟨-, -, hzero⟩ := joinMessageSchema_spec hschema
    have hconnected := h.rooms.connected k session hsession
    have hready : (w.handle (.message k (.message (.join message)) env)).readyState k =
        w.readyState k := by
      rw [hrooms.readyState]
      rfl
    -- nothing of a log has been sent to the socket
    have hbefore : w.stream k message.documentId message.lastServerSeq = [] := by
      have hsilent : (w.sentTo k).flatMap (carries (w.store.log message.documentId)) = [] :=
        flatMap_quiet fun m hm => h.silent _ (mem_toSocket.1 hm) (by rw [hsession]; rfl) hnew
      unfold SyncServer.stream
      rw [log_plain, hsilent]
      rfl
    have hquiet : (toSocket k rest).flatMap (carries (w.store.log message.documentId)) = [] :=
      flatMap_quiet fun m hm => (hrest _ (mem_toSocket.1 hm)).2
    by_cases hopen : w.readyState k = .opened
    · refine ⟨w.store.getLatestServerSeq message.documentId, by omega, by omega, ?_, ?_,
        fun _ => ⟨hjoin, hlatest.le⟩⟩
      · have hsync := carries_sync h.log hzero hsyncs
        have hfirst : ∀ sync, (toSocket k (w.addressed k sync ++ rest)).flatMap
            (carries (w.store.log message.documentId)) =
              carries (w.store.log message.documentId) sync := by
          intro sync
          have hone : toSocket k (w.addressed k sync) = [sync] := by
            simp [addressed, hopen, toSocket]
          unfold toSocket at hone hquiet ⊢
          rw [List.filterMap_append, hone, List.flatMap_append, hquiet]
          simp
        rw [stream_append h hs hsent, hbefore, hlog, hfirst, hsync]
        refine foldl_deliver_new (h.log.log_increasing message.documentId).between fun x hx => ?_
        exact (mem_between.1 hx).2.1
      · rw [hready, hopen]
        exact fun hc => by cases hc
    · refine ⟨message.lastServerSeq, by omega, by omega, ?_, ?_, fun ho => ?_⟩
      · have hnone : ∀ sync, toSocket k (w.addressed k sync ++ rest) = toSocket k rest := by
          intro sync
          unfold addressed
          rw [if_neg hopen, List.nil_append]
        rw [stream_append h hs hsent, hbefore, hlog, hnone, hquiet, between_eq_nil (le_refl _)]
        rfl
      · rw [hready]
        rcases hconnected with ho | ho <;> rw [ho] <;> exact fun hc => by cases hc
      · rw [hready] at ho
        exact absurd ho hopen

/-- **A run keeps the stream.** -/
theorem Streams.run {k : SocketId} {d : JsString} {c : Int} : ∀ {w : SyncServer} {n : Int}
    (es : List Event), Inv w → Streams w k d c n → ∃ n', Streams (w.run es) k d c n'
  | _, n, [], _, hstream => ⟨n, hstream⟩
  | _, _, e :: es, h, hstream => by
    obtain ⟨n', hstream'⟩ := hstream.handle h e
    exact hstream'.run es (h.handle e)

/-! ## The main result -/

/-- **A joined socket receives a gap-free stream.**  In every run, from the join of a socket on:
every operation message that was sent is in the log; the rows that the socket was sent, re-sends
aside, are the rows of the log above its cursor up to some number, in the order of the log; and
while the socket is open they are all rows above its cursor. -/
theorem gap_free {store : OperationStore} (hstore : store.Reachable) (before : List Event)
    (k : SocketId) (message : JoinMessage) {env : ServerEnv} (henv : env.Reliable)
    (after : List Event) (hnew : ((start store).run before).joinedTo k = none)
    (hjoin : (((start store).run before).handle
      (.message k (.message (.join message)) env)).joinedTo k = some message.documentId) :
    let w := (((start store).run before).handle (.message k (.message (.join message)) env)).run after
    let log := w.store.log message.documentId
    let stream := w.stream k message.documentId message.lastServerSeq
    (∀ k' m, (k', .operation m) ∈ w.sent →
      ⟨m.serverSeq, m.operation⟩ ∈ w.store.log m.documentId) ∧
    Increasing SequencedOperation.serverSeq stream ∧
    (∃ n, stream = between SequencedOperation.serverSeq message.lastServerSeq n log) ∧
    (w.readyState k = .opened → stream = log.filter (message.lastServerSeq < ·.serverSeq)) := by
  intro w log stream
  have hbefore := run_inv hstore before
  obtain ⟨n, hstream⟩ := Streams.join hbefore henv.2.1 hnew hjoin
  obtain ⟨n, hstream⟩ := hstream.run after (hbefore.handle _)
  have hinv : Inv w := (hbefore.handle _).run after
  refine ⟨fun k' m hm => (hinv.sent _ hm).2, ?_, ⟨n, hstream.stream⟩, fun hopen => ?_⟩
  · show Increasing _ (w.stream k message.documentId message.lastServerSeq)
    rw [hstream.stream]
    exact (hinv.log.log_increasing _).between
  · refine hstream.stream.trans (List.filter_congr fun x hx => ?_)
    have hn : w.store.getLatestServerSeq message.documentId ≤ n := (hstream.live hopen).2
    have hx := (w.store.latest_spec message.documentId).1 x hx
    have hle : x.serverSeq ≤ n := by omega
    simp only [hle, and_true]

end SyncServer

end LocalFirst
