import LocalFirst.Server.GapFree

/-!
# Every message comes after what it needs

A message that brings something of a log confirms the log up to a number.  Whatever it does not
bring itself, above the cursor of the join, earlier messages to the same socket have brought.

* `Follows` — the invariant.
* `Follows.handle`, `Follows.join` — every event keeps it, and a join starts it.
-/

set_option autoImplicit false

namespace LocalFirst

namespace SyncServer

variable {w : SyncServer} {k : SocketId} {d : JsString} {c : Int}

/-- The operations that a message brings are in the log. -/
theorem Describes.items {store : OperationStore} {d : Delivery} :
    ∀ {m : ServerMessage}, Describes store m → delivery m = some d →
      ∀ item ∈ d.items, item ∈ store.log d.documentId
  | .sync m, ⟨cursor, _, hhistory, hbootstrap⟩, hd, item, hi => by
    cases hd
    cases hb : m.snapshotBootstrap with
    | none =>
      have hi : item ∈ m.operations := hi
      rw [hhistory hb] at hi
      exact (mem_between.1 hi).1
    | some b =>
      have hi : item ∈ m.operations := hi
      rw [(hbootstrap b hb).2.2.2.2] at hi
      exact (mem_between.1 hi).1
  | .operation m, hm, hd, item, hi => by
    cases hd
    rw [List.mem_singleton.1 hi]
    exact hm

/-- What a message confirms is in the log. -/
theorem Describes.confirmed {store : OperationStore} (hlog : store.LogInv) {dl : Delivery} :
    ∀ {m : ServerMessage}, Describes store m → delivery m = some dl →
      0 ≤ dl.confirmed ∧ dl.confirmed ≤ store.lastServerSeq
  | .sync m, ⟨_, hlatest, _, _⟩, hd => by
    cases hd
    exact hlatest
  | .operation m, hm, hd => by
    cases hd
    have hbounds := hlog.log_bounds hm
    simp only at hbounds ⊢
    omega

/-- Every message that brings something of a log is of the document, and the rows above the
cursor up to its number come with it or with a message before it. -/
def Follows (w : SyncServer) (k : SocketId) (d : JsString) (c : Int) : Prop :=
  ∀ before m after dl, w.sentTo k = before ++ m :: after → delivery m = some dl →
    dl.documentId = d ∧ ∀ row ∈ w.store.log d, c < row.serverSeq → row.serverSeq ≤ dl.confirmed →
      ∃ m' ∈ before ++ [m], row ∈ carries (w.store.log d) m'

theorem Follows.of_quiet (h : ∀ m ∈ w.sentTo k, Quiet m) : Follows w k d c := by
  intro before m after dl hsent hd
  have hq : Quiet m := h m (by rw [hsent]; simp)
  rw [hq] at hd
  cases hd

theorem sentTo_append {w w' : SyncServer} {added : List (SocketId × ServerMessage)}
    (hsent : w'.sent = w.sent ++ added) : w'.sentTo k = w.sentTo k ++ toSocket k added := by
  unfold sentTo
  rw [hsent, List.filterMap_append]
  rfl

/-- A socket that has joined nothing is sent nothing of a log before a join on it. -/
theorem Inv.unheard (h : Inv w) (e : Event) (hnone : w.joinedTo k = none)
    (hquiet : ∀ m ∈ w.sentTo k, Quiet m) :
    ((w.handle e).joinedTo k = none ∧ ∀ m ∈ (w.handle e).sentTo k, Quiet m) ∨
      ∃ message env, e = .message k (.message (.join message)) env ∧
        (w.handle e).joinedTo k = some message.documentId := by
  cases hjoined : (w.handle e).joinedTo k with
  | none =>
    refine Or.inl ⟨rfl, fun m hm => ?_⟩
    obtain ⟨added, hsent, hadded⟩ := (h.speaks e).sent
    rw [sentTo_append hsent] at hm
    rcases List.mem_append.1 hm with hm | hm
    · exact hquiet m hm
    · exact (hadded _ (mem_toSocket.1 hm)).2.2.resolve_right fun hne => hne hjoined
  | some d =>
    right
    rcases handle_session w e k with heq | heq | ⟨-, heq⟩ | ⟨session, message, env, he, -, -, heq⟩
    · unfold joinedTo at hnone hjoined
      rw [heq, hnone] at hjoined
      cases hjoined
    · unfold joinedTo at hjoined
      rw [heq] at hjoined
      cases hjoined
    · rw [heq] at hjoined
      cases hjoined
    · refine ⟨message, env, he, ?_⟩
      rw [← hjoined]
      unfold joinedTo
      rw [heq]
      rfl

/-- More is sent: it is enough to look at the new messages. -/
theorem Follows.extend (h : Inv w) {w' : SyncServer} (hs : Speaks w w')
    {added : List (SocketId × ServerMessage)} (hsent : w'.sent = w.sent ++ added)
    (hfollows : Follows w k d c)
    (hnew : ∀ before m after dl, toSocket k added = before ++ m :: after → delivery m = some dl →
      dl.documentId = d ∧ ∀ row ∈ w'.store.log d, c < row.serverSeq →
        row.serverSeq ≤ dl.confirmed →
        ∃ m' ∈ w.sentTo k ++ (before ++ [m]), row ∈ carries (w'.store.log d) m') :
    Follows w' k d c := by
  intro before m after dl hsplit hd
  rw [sentTo_append hsent] at hsplit
  rcases split_append hsplit with ⟨rest, hold⟩ | ⟨before', hbefore, hto⟩
  · -- the message was sent before
    obtain ⟨hdoc, hrows⟩ := hfollows before m rest dl hold hd
    refine ⟨hdoc, fun row hrow hc hle => ?_⟩
    have hold' : ∀ m' ∈ before ++ [m], m' ∈ w.sentTo k := by
      intro m' hm'
      rw [hold, List.append_cons]
      exact List.mem_append_left _ hm'
    have hbound := ((h.sent _ (mem_toSocket.1 (hold' m (by simp)))).2.confirmed h.log hd).2
    have hpart := hs.part d c dl.confirmed hbound
    have hrow' : row ∈ w.store.log d :=
      (mem_between.1 (hpart ▸ mem_between.2 ⟨hrow, hc, hle⟩)).1
    obtain ⟨m', hm', hcarries⟩ := hrows row hrow' hc hle
    refine ⟨m', hm', ?_⟩
    rw [carries_congr hs d (h.sent _ (mem_toSocket.1 (hold' m' hm'))).2]
    exact hcarries
  · rw [hbefore, List.append_assoc]
    exact hnew before' m after dl hto hd

/-- An open socket has been sent every row above the cursor. -/
theorem Streams.sent_row {n : Int} (hstream : Streams w k d c n) (hopen : w.readyState k = .opened)
    {row : SequencedOperation} (hrow : row ∈ w.store.log d) (hc : c < row.serverSeq) :
    ∃ m ∈ w.sentTo k, row ∈ carries (w.store.log d) m := by
  have hle := (w.store.latest_spec d).1 row hrow
  have hn := (hstream.live hopen).2
  have hmem : row ∈ w.stream k d c := by
    rw [hstream.stream]
    exact mem_between.2 ⟨hrow, hc, by omega⟩
  rcases mem_foldl_deliver hmem with hnil | harrived
  · cases hnil
  · exact List.mem_flatMap.1 harrived

/-- **Every event keeps it.** -/
theorem Follows.handle {n : Int} (h : Inv w) (hstream : Streams w k d c n) (hf : Follows w k d c)
    (e : Event) : Follows (w.handle e) k d c := by
  have hs := h.speaks e
  have hquiet : ∀ {added : List (SocketId × ServerMessage)},
      (w.handle e).sent = w.sent ++ added → (∀ m ∈ toSocket k added, Quiet m) →
      Follows (w.handle e) k d c := by
    intro added hsent hadded
    refine hf.extend h hs hsent fun before m after dl hto hd => ?_
    have hq : Quiet m := hadded m (by rw [hto]; simp)
    rw [hq] at hd
    cases hd
  cases handle_effect w e with
  | moved he added hstore hsent hadded =>
    exact hquiet hsent fun m hm => (hadded _ (mem_toSocket.1 hm)).2
  | quiet added hrooms hstore hsent hadded =>
    exact hquiet hsent fun m hm => (hadded _ (mem_toSocket.1 hm)).2
  | stalled socket session message env added he hsession hnew hschema hthrows hrooms hstore hsent
      hadded => exact hquiet hsent fun m hm => (hadded _ (mem_toSocket.1 hm)).2
  | synced socket session message env rest he hsession hnew hschema hcursor hrooms hstore hsent
      hrest =>
    -- the socket that joins is another one
    refine hquiet hsent fun m hm => ?_
    rcases List.mem_append.1 (mem_toSocket.1 hm) with hm | hm
    · obtain ⟨heq, hopen⟩ := mem_addressed hm
      cases heq
      exact absurd hnew (h.rooms.not_new hsession (hstream.live hopen).1)
    · exact (hrest _ hm).2
  | echoed socket session documentId item env he hsession hdocument hclient hrooms hitem hstore
      hsent =>
    refine hf.extend h hs hsent fun before m after dl hto hd => ?_
    have hm : m ∈ before ++ m :: after := by simp
    rw [← hto] at hm
    obtain ⟨heq, hopen⟩ := mem_addressed (mem_toSocket.1 hm)
    cases heq
    cases hd
    have hjoined := (hstream.live hopen).1
    unfold joinedTo at hjoined
    rw [hsession, Option.bind_some, hdocument] at hjoined
    cases hjoined
    rw [hstore]
    refine ⟨rfl, fun row hrow hc hle => ?_⟩
    obtain ⟨m', hm', hcarries⟩ := hstream.sent_row hopen hrow hc
    exact ⟨m', List.mem_append_left _ hm', hcarries⟩
  | appended socket session documentId operation env he hsession hdocument hclient hvalid hschema
      hrooms hnew hstore hsent =>
    refine hf.extend h hs hsent fun before m after dl hto hd => ?_
    have hm : m ∈ before ++ m :: after := by simp
    rw [← hto] at hm
    obtain ⟨peer, hpeer, heq⟩ := List.mem_map.1 (mem_toSocket.1 hm)
    cases heq
    cases hd
    obtain ⟨hj, hopen⟩ := (mem_audience h.rooms).1 hpeer
    obtain rfl : d = documentId := Option.some.inj ((hstream.live hopen).1.symm.trans hj)
    refine ⟨rfl, fun row hrow hc hle => ?_⟩
    have hlog := hrow
    rw [hstore, OperationStore.log_insertOperation, if_pos rfl] at hlog
    rcases List.mem_append.1 hlog with hlog | hlog
    · obtain ⟨m', hm', hcarries⟩ := hstream.sent_row hopen hlog hc
      refine ⟨m', List.mem_append_left _ hm', ?_⟩
      rw [carries_congr hs d (h.sent _ (mem_toSocket.1 hm')).2]
      exact hcarries
    · refine ⟨_, List.mem_append_right _ (List.mem_append_right _ (List.mem_singleton.2 rfl)), ?_⟩
      rw [List.mem_singleton.1 hlog]
      exact List.mem_singleton.2 rfl

/-- **A join starts it.** -/
theorem Follows.join (h : Inv w) {message : JoinMessage} {env : ServerEnv}
    (hquiet : ∀ m ∈ w.sentTo k, Quiet m) :
    Follows (w.handle (.message k (.message (.join message)) env)) k message.documentId
      message.lastServerSeq := by
  have hs := h.speaks (.message k (.message (.join message)) env)
  have hstart : ∀ {added : List (SocketId × ServerMessage)},
      (w.handle (.message k (.message (.join message)) env)).sent = w.sent ++ added →
      (∀ m ∈ toSocket k added, Quiet m) →
      Follows (w.handle (.message k (.message (.join message)) env)) k message.documentId
        message.lastServerSeq := by
    intro added hsent hadded
    refine Follows.of_quiet fun m hm => ?_
    rw [sentTo_append hsent] at hm
    rcases List.mem_append.1 hm with hm | hm
    · exact hquiet m hm
    · exact hadded m hm
  cases handle_effect w (.message k (.message (.join message)) env) with
  | moved he => cases he
  | quiet added hrooms hstore hsent hadded =>
    exact hstart hsent fun m hm => (hadded _ (mem_toSocket.1 hm)).2
  | stalled socket session message' env' added he hsession hnew' hschema hthrows hrooms hstore hsent
      hadded => exact hstart hsent fun m hm => (hadded _ (mem_toSocket.1 hm)).2
  | echoed socket session documentId item env' he => cases he
  | appended socket session documentId operation env' he => cases he
  | synced socket session message' env' rest he hsession hnew' hschema hcursor hrooms hstore hsent
      hrest =>
    cases he
    obtain ⟨hsyncs, -, hops, -⟩ := OperationStore.buildSyncMessage_spec h.log h.cache
      env.rowWritten message.documentId message.lastServerSeq
      (hasSnapshotBootstrapCapability message.capabilities)
    have hlog : (w.handle (.message k (.message (.join message)) env)).store.log
        message.documentId = w.store.log message.documentId := by
      rw [hstore]
      unfold OperationStore.log
      rw [hops]
    obtain ⟨-, -, hzero⟩ := joinMessageSchema_spec hschema
    refine (Follows.of_quiet hquiet).extend h hs hsent fun before m after dl hto hd => ?_
    have hm : m ∈ before ++ m :: after := by simp
    rw [← hto] at hm
    rcases List.mem_append.1 (mem_toSocket.1 hm) with hm | hm
    · obtain ⟨heq, -⟩ := mem_addressed hm
      cases heq
      cases hd
      rw [hlog]
      refine ⟨hsyncs.document, fun row hrow hc hle => ?_⟩
      refine ⟨_, List.mem_append_right _ (List.mem_append_right _ (List.mem_singleton.2 rfl)), ?_⟩
      rw [carries_sync h.log hzero hsyncs, ← hsyncs.latest]
      exact mem_between.2 ⟨hrow, hc, hle⟩
    · have hq := (hrest _ hm).2
      unfold Quiet at hq
      rw [hq] at hd
      cases hd

end SyncServer

end LocalFirst
