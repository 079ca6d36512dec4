import LocalFirst.Sync.ClientStatus

/-!
# Catch-up comes before submission

* `handle_submits`, `handle_flushing`, `handle_caught` — when a sync client submits, flushes its
  outbox, and takes itself for caught up.
* `catch_up_first` — in a run where no handler of a sync message goes on while the client holds
  another socket, every operation is submitted on a socket that has joined and been synced.
* `submits_unsynced` — otherwise it may be submitted on one that has not even joined.
-/

set_option autoImplicit false

namespace LocalFirst

/-- `flushOutbox` waits for the pending operations, or has them. -/
def HandlerStage.Flushing : HandlerStage → Prop
  | .flushing => True
  | .flushLoaded _ => True
  | _ => False

namespace DocumentSyncClient

variable {c : DocumentSyncClient} {e : Event} {k : SocketId}

/-! ## The sync client -/

/-- The handler of a message that goes on to send what it has loaded of the outbox. -/
def Flushes (c : DocumentSyncClient) (e : Event) (socket : SocketId) : Prop :=
  e = .resumeHandler ∧ ∃ message pending,
    c.handling = some ⟨socket, message, .flushLoaded (.ok pending)⟩ ∧ pending ≠ []

/-- A handler of a sync message goes on to set `catchUpComplete`, or to flush the outbox, while the
client holds another socket than the one the message came in on; or the message was not stored. -/
def Crosses (c : DocumentSyncClient) (e : Event) : Prop :=
  ∃ current, c.socket = some current ∧
    ((∃ socket sync, e = .resumeHandler ∧ c.handling = some ⟨socket, .sync sync, .settled (.ok ())⟩ ∧
        (current ≠ socket ∨ (socket, .sync sync) ∈ c.dropped)) ∨
      ∃ socket, Flushes c e socket ∧ current ≠ socket ∧ c.readyState current = .opened)

/-- The frames that are added carry operations only on the open socket of a client that has caught
up, or whose handler flushes the outbox. -/
def SubmitsReady (c c' : DocumentSyncClient) (e : Event) : Prop :=
  ∃ added, c'.sent = c.sent ++ added ∧ ∀ k message, (k, .submitOperation message) ∈ added →
    c.socket = some k ∧ c.readyState k = .opened ∧
      (c.catchUpComplete = true ∨ ∃ socket, Flushes c e socket)

theorem SubmitsReady.of_sent {c' : DocumentSyncClient} (h : c'.sent = c.sent) :
    SubmitsReady c c' e :=
  ⟨[], by rw [List.append_nil]; exact h, fun k message hm => by cases hm⟩

theorem SubmitsReady.of_traffic {c' : DocumentSyncClient} (h : c'.traffic = c.traffic) :
    SubmitsReady c c' e := .of_sent (congrArg Traffic.sent h)

theorem submitOperations_submits (c : DocumentSyncClient) (operations : List TextOperation) :
    SubmitsReady c (c.submitOperations operations) e := by
  unfold submitOperations
  split
  · exact .of_sent rfl
  · split
    · exact .of_sent rfl
    · rename_i hready
      rw [not_or, not_not] at hready
      unfold sendOperations
      split
      · exact .of_sent rfl
      · rename_i socket hsocket
        split
        · exact .of_sent rfl
        · rename_i hopen
          refine ⟨_, rfl, fun k message hm => ?_⟩
          obtain ⟨operation, -, heq⟩ := List.mem_map.1 hm
          cases heq
          exact ⟨hsocket, not_not.1 hopen, Or.inl hready.1⟩

theorem resumeHandler_submits (c : DocumentSyncClient) :
    SubmitsReady c c.resumeHandler .resumeHandler := by
  cases resumeHandler_resumes (c := c) with
  | same h => exact .of_traffic h
  | ended handler hh hstage h => exact .of_sent (congrArg Traffic.sent h)
  | waits handler stage hh hstage hwaits h => exact .of_sent (congrArg Traffic.sent h)
  | sends handler pending socket hh hstage hsocket hopen h =>
    refine ⟨_, congrArg Traffic.sent h, fun k message hm => ?_⟩
    obtain ⟨operation, hoperation, heq⟩ := List.mem_map.1 hm
    cases heq
    obtain ⟨origin, message, stage⟩ := handler
    obtain rfl : stage = .flushLoaded (.ok pending) := hstage
    refine ⟨hsocket, hopen, Or.inr ⟨origin, rfl, message, pending, hh, ?_⟩⟩
    exact List.ne_nil_of_mem hoperation

/-- **When a sync client submits operations**: `submitOperations` is called and it has caught up,
or a handler flushes the outbox; on its own open socket in both cases. -/
theorem handle_submits (c : DocumentSyncClient) (e : Event) : SubmitsReady c (c.handle e) e := by
  cases e with
  | connect fresh => exact .of_traffic connect_traffic
  | suspend => exact .of_traffic suspend_traffic
  | resume fresh => exact .of_traffic resume_traffic
  | retry fresh => exact .of_traffic retry_traffic
  | close => exact .of_traffic close_traffic
  | timerFired fresh => exact .of_traffic timerFired_traffic
  | onError socket => exact .of_traffic onError_traffic
  | onClose socket => exact .of_traffic onClose_traffic
  | submitOperations operations => exact c.submitOperations_submits operations
  | onOpen socket =>
    rcases onOpen_traffic (c := c) (k := socket) with h | ⟨-, -, -, h⟩
    · exact .of_traffic h
    · exact .of_sent (congrArg Traffic.sent h)
  | onMessage socket message =>
    rcases onMessage_cases (c := c) (k := socket) message with ⟨-, h⟩ | ⟨-, -, h⟩
    · exact .of_sent (by rw [handle, h])
    · exact .of_sent (by rw [handle, h])
  | lastServerSeqRead socket lastServerSeq =>
    obtain ⟨joins, -, h⟩ := lastServerSeqRead_traffic (c := c) (k := socket) lastServerSeq
    exact .of_sent (congrArg Traffic.sent h)
  | eligibleRead socket eligible =>
    obtain ⟨joins, -, h⟩ := eligibleRead_traffic (c := c) (k := socket) eligible
    exact .of_sent (congrArg Traffic.sent h)
  | resumeJoin socket =>
    obtain ⟨joins, -, h | ⟨_, _, _, _, _, _, _, _, _, _, h⟩⟩ := resumeJoin_traffic (c := c) (k := socket)
    · exact .of_sent (congrArg Traffic.sent h)
    · refine ⟨_, congrArg Traffic.sent h, fun k message hm => ?_⟩
      cases List.mem_singleton.1 hm
  | handleNext =>
    rcases handleNext_traffic (c := c) with h | ⟨_, _, _, -, -, h | ⟨_, -, -, h⟩⟩
    · exact .of_traffic h
    · exact .of_sent (congrArg Traffic.sent h)
    · exact .of_sent (congrArg Traffic.sent h)
  | ingestSettled outcome stored =>
    refine .of_sent ?_
    simp only [handle, ingestSettled]
    split
    · split <;> rfl
    · rfl
  | pendingLoaded pending =>
    rcases pendingLoaded_traffic (c := c) pending with h | ⟨_, _, -, -, -, h⟩
    · exact .of_traffic h
    · exact .of_sent (congrArg Traffic.sent h)
  | resumeHandler => exact c.resumeHandler_submits

/-- **When a sync client takes itself for caught up**: it did before, or the ingest of a sync message
has succeeded. -/
theorem handle_caught (hcatch : (c.handle e).catchUpComplete = true)
    (hk : (c.handle e).socket = some k) :
    c.socket = some k ∧ (c.catchUpComplete = true ∨ CatchesUp c e) := by
  have hsame : ∀ {s : Standing}, (c.handle e).standing = s → s.socket = c.socket →
      s.catchUpComplete = c.catchUpComplete →
      c.socket = some k ∧ (c.catchUpComplete = true ∨ CatchesUp c e) := by
    intro s h hsocket hcatches
    have hsocket' : (c.handle e).socket = s.socket := congrArg Standing.socket h
    have hcatches' : (c.handle e).catchUpComplete = s.catchUpComplete :=
      congrArg Standing.catchUpComplete h
    exact ⟨hsocket.symm.trans (hsocket'.symm.trans hk),
      Or.inl (hcatches.symm.trans (hcatches'.symm.trans hcatch))⟩
  have hfalse : (c.handle e).catchUpComplete = false → c.socket = some k ∧
      (c.catchUpComplete = true ∨ CatchesUp c e) := by
    intro h
    rw [h] at hcatch
    cases hcatch
  cases handle_stands c e with
  | same status hstatus h => exact hsame h rfl rfl
  | idle suspended timer hsuspended hidle h => exact hsame h rfl rfl
  | connects hsocket hstatus h => exact hfalse h
  | stops hstops hstatus h => exact hfalse h
  | loses hretries hstatus h => exact hfalse h
  | fallsBack h => exact hfalse (congrArg Standing.catchUpComplete h)
  | catchesUp hcatches h =>
    have hsocket : (c.handle e).socket = c.socket := congrArg Standing.socket h
    exact ⟨hsocket.symm.trans hk, Or.inr hcatches⟩
  | online honline h => exact hsame h rfl rfl

theorem refreshOnlineStatus_flushing {handler : Handler} {message : ServerMessage}
    {stage : HandlerStage} (hh : (c.refreshOnlineStatus handler).handling = some ⟨k, message, stage⟩) :
    ¬ stage.Flushing := by
  unfold refreshOnlineStatus at hh
  split at hh
  · cases hh
  · split at hh
    · cases hh
    · cases hh
      exact id

/-- A handler that goes on flushes the outbox once the ingest of its sync message has succeeded. -/
theorem resumeHandler_flushing {message : ServerMessage} {stage : HandlerStage}
    (hh : c.resumeHandler.handling = some ⟨k, message, stage⟩) (hstage : stage.Flushing) :
    c.handling = some ⟨k, message, stage⟩ ∨ ∃ sync current, c.socket = some current ∧
      message = .sync sync ∧ c.handling = some ⟨k, .sync sync, .settled (.ok ())⟩ := by
  unfold resumeHandler at hh
  split at hh
  · rename_i hnone
    rw [hnone] at hh
    cases hh
  · rename_i handler hhandler
    obtain ⟨socket, message', stage'⟩ := handler
    cases stage' with
    | ingesting => exact Or.inl hh
    | flushing => exact Or.inl hh
    | refreshing => exact Or.inl hh
    | flushed => exact absurd hstage (refreshOnlineStatus_flushing hh)
    | flushLoaded pending =>
      cases pending with
      | error error => cases hh
      | ok pending =>
        simp only at hh
        split at hh
        · cases hh
          cases hstage
        · cases hh
          cases hstage
    | refreshLoaded pending =>
      cases pending with
      | error error => cases hh
      | ok pending =>
        simp only at hh
        split at hh <;> cases hh
    | settled outcome =>
      simp only [ingestDone] at hh
      split at hh
      · rename_i sync
        split at hh
        · split at hh <;> cases hh
        · cases hh
        · -- the message is stored, and the socket is open when the flush begins
          unfold caughtUp flushOutbox at hh
          split at hh
          · cases hh
            cases hstage
          · rename_i hready
            rw [not_or, not_not, not_not] at hready
            have hopen : c.socketOpen = true := hready.2
            cases hh
            cases hsocket : c.socket with
            | none =>
              unfold socketOpen at hopen
              rw [hsocket] at hopen
              cases hopen
            | some current => exact Or.inr ⟨sync, current, rfl, rfl, hhandler⟩
      · split at hh
        · cases hh
        · exact absurd hstage (refreshOnlineStatus_flushing hh)

/-- **When a handler flushes the outbox**: it did before, or the ingest of its sync message has
succeeded while the client held a socket. -/
theorem handle_flushing {message : ServerMessage} {stage : HandlerStage}
    (hh : (c.handle e).handling = some ⟨k, message, stage⟩) (hstage : stage.Flushing) :
    (∃ stage', c.handling = some ⟨k, message, stage'⟩ ∧ stage'.Flushing) ∨
      ∃ sync current, e = .resumeHandler ∧ c.socket = some current ∧ message = .sync sync ∧
        c.handling = some ⟨k, .sync sync, .settled (.ok ())⟩ := by
  cases handle_handles c e with
  | kept hkept => exact Or.inl ⟨stage, hkept.symm.trans hh, hstage⟩
  | takes socket message' inbound hnone hinbound htakes hnew =>
    rw [hnew] at hh
    cases hh
    cases hstage
  | settles socket message' outcome hold hnew =>
    rw [hnew] at hh
    cases hh
    cases hstage
  | loads socket message' old new hloads hold hnew =>
    rw [hnew] at hh
    cases hh
    rcases hloads with ⟨rfl, -⟩ | ⟨-, pending, rfl⟩
    · exact Or.inl ⟨.flushing, hold, trivial⟩
    · cases hstage
  | resumes handler he hold hnew =>
    subst he
    rcases resumeHandler_flushing hh hstage with hsame | ⟨sync, current, hsocket, hmessage, hsettled⟩
    · exact Or.inl ⟨stage, hsame, hstage⟩
    · exact Or.inr ⟨sync, current, rfl, hsocket, hmessage, hsettled⟩

end DocumentSyncClient

/-- A sync message is sent in answer to a join only. -/
theorem SyncServer.sync_answers {w : SyncServer} {e : SyncServer.Event} {k : SocketId}
    {sync : SyncMessage} (hsent : (k, .sync sync) ∈ (w.handle e).sent) :
    (k, .sync sync) ∈ w.sent ∨ ∃ message env, e = .message k (.message (.join message)) env := by
  have hquiet : ∀ {added : List (SocketId × ServerMessage)}, (w.handle e).sent = w.sent ++ added →
      (∀ p ∈ added, w.readyState p.1 = .opened ∧ Quiet p.2) → (k, .sync sync) ∈ w.sent := by
    intro added hsent' hadded
    rw [hsent'] at hsent
    rcases List.mem_append.1 hsent with hold | hnew
    · exact hold
    · cases (hadded _ hnew).2
  cases handle_effect w e with
  | moved he added hstore hsent' hadded => exact Or.inl (hquiet hsent' hadded)
  | quiet added hrooms hstore hsent' hadded => exact Or.inl (hquiet hsent' hadded)
  | stalled socket session message env added he hsession hnew hschema hthrows hrooms hstore hsent'
      hadded => exact Or.inl (hquiet hsent' hadded)
  | synced socket session message env rest he hsession hnew hschema hcursor hrooms hstore hsent'
      hrest =>
    rw [hsent'] at hsent
    rcases List.mem_append.1 hsent with hold | hadded
    · exact Or.inl hold
    · rcases List.mem_append.1 hadded with haddressed | hrest'
      · obtain ⟨heq, -⟩ := mem_addressed haddressed
        cases heq
        exact Or.inr ⟨message, env, he⟩
      · cases (hrest _ hrest').2
  | echoed socket session documentId item env he hsession hdocument hclient hrooms hitem hstore
      hsent' =>
    rw [hsent'] at hsent
    rcases List.mem_append.1 hsent with hold | hadded
    · exact Or.inl hold
    · cases (mem_addressed hadded).1
  | appended socket session documentId operation env he hsession hdocument hclient hvalid hschema
      hrooms hnew hstore hsent' =>
    rw [hsent'] at hsent
    rcases List.mem_append.1 hsent with hold | hadded
    · exact Or.inl hold
    · obtain ⟨peer, -, heq⟩ := List.mem_map.1 hadded
      cases heq

namespace System

variable {segmentGraphemes : JsString → List JsString} {w w₀ : System} {e : SystemEvent}
  {before : List SystemEvent} {i : Nat} {k : SocketId}

/-! ## The system -/

/-- A handler of page `i` goes on while its sync client holds another socket. -/
def Crosses (w : System) (e : SystemEvent) : Prop :=
  ∃ i, e = .page i .resumeHandler ∧ (w.pages i).sync.Crosses .resumeHandler

/-- At an earlier step of the run, the ingest of the sync message of socket `k` has succeeded and
has been reported as stored, and its handler has gone on. -/
def CaughtUp (segmentGraphemes : JsString → List JsString) (w₀ : System)
    (before : List SystemEvent) (i : Nat) (k : SocketId) : Prop :=
  ∃ pre post sync, before = pre ++ .page i .resumeHandler :: post ∧
    let c := ((Runs.run (handle segmentGraphemes) w₀ pre).pages i).sync
    c.handling = some ⟨k, .sync sync, .settled (.ok ())⟩ ∧ (k, .sync sync) ∉ c.dropped

/-- Page `i` sends an operation on socket `k`. -/
def Submits (w w' : System) (i : Nat) (k : SocketId) : Prop :=
  ∃ added message, (w'.pages i).sync.sent = (w.pages i).sync.sent ++ added ∧
    (k, .submitOperation message) ∈ added

/-- Every operation is sent on a socket on which the page has joined before, and whose sync message
it has completely ingested before. -/
def CatchUpFirst (segmentGraphemes : JsString → List JsString) (w₀ : System)
    (es : List SystemEvent) : Prop :=
  ∀ before e after, es = before ++ e :: after →
    let w := Runs.run (handle segmentGraphemes) w₀ before
    ∀ i k, Submits w (w.handle segmentGraphemes e) i k →
      (∃ join, (k, .join join) ∈ (w.pages i).sync.sent) ∧ CaughtUp segmentGraphemes w₀ before i k

/-- The page owns the socket, and a sync message has been sent on it. -/
def Synced (w : System) (i : Nat) (k : SocketId) : Prop :=
  w.owner k = some i ∧ ∃ sync, (k, .sync sync) ∈ w.server.sent

/-- On every socket that has been sent a sync message its page has joined. -/
def JoinsFirst (w : System) : Prop :=
  ∀ i k, Synced w i k → ∃ join, (k, .join join) ∈ (w.pages i).sync.sent

theorem Synced.handle (h : Inv w) (hsynced : Synced w i k) (e : SystemEvent) :
    Synced (w.handle segmentGraphemes e) i k := by
  obtain ⟨howner, sync, hm⟩ := hsynced
  obtain ⟨added, hsent, -⟩ := (@Inv.speaks segmentGraphemes w h e).sent
  refine ⟨h.owner_kept e howner, sync, ?_⟩
  rw [hsent]
  exact List.mem_append_left _ hm

/-- A join that arrives at the server was sent by its page, so the sync message that answers it
comes after it. -/
theorem JoinsFirst.handle (h : Inv w) (hjoins : JoinsFirst w) (e : SystemEvent) :
    JoinsFirst (w.handle segmentGraphemes e) := by
  rintro i k ⟨howner, sync, hm⟩
  rcases h.owner_cases howner with hold | ⟨hunused, hserver⟩
  · have hbefore : (k, .sync sync) ∈ w.server.sent →
        ∃ join, (k, .join join) ∈ ((w.handle segmentGraphemes e).pages i).sync.sent := by
      intro hm
      obtain ⟨join, hjoin⟩ := hjoins i k ⟨hold, sync, hm⟩
      exact ⟨join, sent_kept hjoin⟩
    rcases @handle_join segmentGraphemes w e k i hold with hserver | ⟨se, hserver, hframes⟩
    · rw [hserver] at hm
      exact hbefore hm
    · rw [hserver] at hm
      rcases SyncServer.sync_answers hm with hm | ⟨message, env, hse⟩
      · exact hbefore hm
      · exact ⟨message, sent_kept (hframes message env hse).1⟩
  · -- an unused socket has been sent nothing
    have hsent := SyncServer.mem_toSocket.2 (hserver ▸ hm)
    rw [show SyncServer.toSocket k w.server.sent = [] from (h.unused_silent hunused).2] at hsent
    cases hsent

/-- What holds of a run without crossing: a page that takes itself for caught up on a socket, or
flushes its outbox there, has been synced on it. -/
structure History (segmentGraphemes : JsString → List JsString) (w₀ : System)
    (before : List SystemEvent) : Prop where
  base : Inv (Runs.run (handle segmentGraphemes) w₀ before)
  joins : JoinsFirst (Runs.run (handle segmentGraphemes) w₀ before)
  caught : ∀ i k, let w := Runs.run (handle segmentGraphemes) w₀ before
    (w.pages i).sync.catchUpComplete = true → (w.pages i).sync.socket = some k →
      CaughtUp segmentGraphemes w₀ before i k ∧ Synced w i k
  flushing : ∀ i k message stage, let w := Runs.run (handle segmentGraphemes) w₀ before
    (w.pages i).sync.handling = some ⟨k, message, stage⟩ → stage.Flushing →
      CaughtUp segmentGraphemes w₀ before i k ∧ Synced w i k

theorem CaughtUp.snoc (h : CaughtUp segmentGraphemes w₀ before i k) (e : SystemEvent) :
    CaughtUp segmentGraphemes w₀ (before ++ [e]) i k := by
  obtain ⟨pre, post, sync, rfl, hc⟩ := h
  exact ⟨pre, post ++ [e], sync, by simp, hc⟩

theorem History.start {store : OperationStore} (h : store.Reachable) :
    History segmentGraphemes (start store) [] where
  base := .start h
  joins i k hsynced := by cases hsynced.1
  caught i k hcatch := by cases hcatch
  flushing i k message stage hh := by cases hh

/-- **Every step that does not cross keeps it.** -/
theorem History.snoc (h : History segmentGraphemes w₀ before)
    (hnot : ¬ Crosses (Runs.run (System.handle segmentGraphemes) w₀ before) e) :
    History segmentGraphemes w₀ (before ++ [e]) := by
  have hold : ∀ {i k}, CaughtUp segmentGraphemes w₀ before i k ∧
      Synced (Runs.run (System.handle segmentGraphemes) w₀ before) i k →
      CaughtUp segmentGraphemes w₀ (before ++ [e]) i k ∧
        Synced ((Runs.run (System.handle segmentGraphemes) w₀ before).handle segmentGraphemes e) i k :=
    fun hready => ⟨hready.1.snoc e, hready.2.handle h.base e⟩
  -- the handler of a stored sync message goes on, and the client holds its socket
  have hcatches : ∀ {i k current sync},
      let c := ((Runs.run (System.handle segmentGraphemes) w₀ before).pages i).sync
      e = .page i .resumeHandler → c.socket = some current →
      c.handling = some ⟨k, .sync sync, .settled (.ok ())⟩ →
      k = current ∧ CaughtUp segmentGraphemes w₀ (before ++ [e]) i k ∧
        Synced ((Runs.run (System.handle segmentGraphemes) w₀ before).handle segmentGraphemes e) i k := by
    intro i k current sync c he hsocket hh
    have hstays : ¬ (current ≠ k ∨ (k, .sync sync) ∈ c.dropped) := fun hcross =>
      hnot ⟨i, he, current, hsocket, Or.inl ⟨k, sync, rfl, hh, hcross⟩⟩
    rw [not_or, not_not] at hstays
    obtain ⟨hm, howner⟩ := h.base.received i (k, .sync sync) (Page.received_handler hh)
    refine ⟨hstays.1.symm, ⟨before, [], sync, by rw [he], hh, hstays.2⟩, ?_⟩
    exact Synced.handle h.base ⟨howner, sync, hm⟩ e
  refine ⟨?_, ?_, fun i k => ?_, fun i k message stage => ?_⟩
  · rw [Runs.run_snoc]
    exact h.base.handle e
  · rw [Runs.run_snoc]
    exact h.joins.handle h.base e
  · rw [Runs.run_snoc]
    intro w hcatch hk
    cases @handle_client segmentGraphemes (Runs.run (System.handle segmentGraphemes) w₀ before) e i with
    | kept hc =>
      rw [hc] at hcatch hk
      exact hold (h.caught i k hcatch hk)
    | renewed documentId clientId displayName readyState hc =>
      rw [hc] at hcatch
      cases hcatch
    | event ce hce hc =>
      rw [hc] at hcatch hk
      obtain ⟨hsocket, hcaught | ⟨hresume, socket, sync, hh⟩⟩ :=
        DocumentSyncClient.handle_caught hcatch hk
      · exact hold (h.caught i k hcaught hsocket)
      · obtain ⟨hk', hready⟩ := hcatches (hce hresume) hsocket hh
        rw [← hk']
        exact hready
  · rw [Runs.run_snoc]
    intro w hh hstage
    cases @handle_client segmentGraphemes (Runs.run (System.handle segmentGraphemes) w₀ before) e i with
    | kept hc =>
      rw [hc] at hh
      exact hold (h.flushing i k message stage hh hstage)
    | renewed documentId clientId displayName readyState hc =>
      rw [hc] at hh
      cases hh
    | event ce hce hc =>
      rw [hc] at hh
      rcases DocumentSyncClient.handle_flushing hh hstage with
        ⟨stage', hh', hstage'⟩ | ⟨sync, current, hresume, hsocket, -, hh'⟩
      · exact hold (h.flushing i k message stage' hh' hstage')
      · exact (hcatches (hce hresume) hsocket hh').2

/-- **Catch-up precedes submission on every socket**, in every run without crossing. -/
theorem catch_up_first {store : OperationStore} (hstore : store.Reachable)
    {es : List SystemEvent}
    (hnever : Runs.Never (System.handle segmentGraphemes) Crosses (start store) es) :
    CatchUpFirst segmentGraphemes (start store) es := by
  intro before e after heq w i k hsubmits
  have hnot : ¬ Crosses w e := hnever before e after heq
  rw [heq] at hnever
  have h : History segmentGraphemes (System.start store) before :=
    hnever.split.history (.start hstore) fun before e h hnot => h.snoc hnot
  obtain ⟨added, message, hsent, hadded⟩ := hsubmits
  have hready : CaughtUp segmentGraphemes (System.start store) before i k ∧ Synced w i k := by
    cases @handle_client segmentGraphemes w e i with
    | kept hc =>
      rw [hc] at hsent
      rw [List.self_eq_append_right.1 hsent] at hadded
      cases hadded
    | renewed documentId clientId displayName readyState hc =>
      rw [hc] at hsent
      rw [List.self_eq_append_right.1 hsent] at hadded
      cases hadded
    | event ce hce hc =>
      obtain ⟨added', hsent', hsubmitted⟩ := (w.pages i).sync.handle_submits ce
      rw [hc, hsent', List.append_cancel_left_eq] at hsent
      rw [← hsent] at hadded
      obtain ⟨hsocket, hopen, hcatch | ⟨socket, hflushes⟩⟩ := hsubmitted k message hadded
      · exact h.caught i k hcatch hsocket
      · have hk : k = socket := by
          by_contra hne
          refine hnot ⟨i, hce hflushes.1, k, hsocket, Or.inr ⟨socket, ?_, hne, hopen⟩⟩
          rw [← hflushes.1]
          exact hflushes
        obtain ⟨-, message', pending, hh, -⟩ := hflushes
        rw [hk]
        exact h.flushing i socket message' _ hh trivial
  exact ⟨h.joins i k hready.2, hready.1⟩

/-- A step is harmless if the client holds the socket of the message that it handles. -/
def staysOnSocket (w : System) : SystemEvent → Bool
  | .page i .resumeHandler =>
    match (w.pages i).sync.handling, (w.pages i).sync.socket with
    | some handler, some current => current = handler.socket ∧
        (handler.socket, handler.message) ∉ (w.pages i).sync.dropped
    | _, _ => true
  | _ => true

theorem not_crosses_of_stays (h : w.staysOnSocket e = true) : ¬ Crosses w e := by
  rintro ⟨i, rfl, current, hsocket, hcross⟩
  simp only [staysOnSocket, hsocket] at h
  rcases hcross with ⟨socket, sync, -, hh, hcross⟩ | ⟨socket, ⟨-, message, pending, hh, -⟩, hne, -⟩
  · rw [hh] at h
    simp only [decide_eq_true_eq] at h
    exact hcross.elim (fun hne => hne h.1) fun hdropped => h.2 hdropped
  · rw [hh] at h
    simp only [decide_eq_true_eq] at h
    exact hne h.1

/-- A page joins on socket 0 and the sync message that answers arrives. -/
def joining : List SystemEvent :=
  [.page 0 (.opens ⟨some (js "d"), none, none⟩ ⟨js "now", 0, js "A", true⟩ none), .page 0 (.connect 0),
    .connection 0 5, .page 0 (.socketOpened 0), .page 0 (.readLastServerSeq 0),
    .page 0 (.resumeJoin 0), .page 0 (.readEligible 0), .page 0 (.resumeJoin 0),
    .toServer 0 ⟨none, none, none, true, id⟩, .toPage 0, .page 0 .handleNext]

/-- The message is stored, and the user types. -/
def storing : List SystemEvent :=
  [.page 0 (.ingest (.runs ⟨js "now", 0, js "A", true⟩)), .page 0 .resumeHandler,
    .page 0 (.edit ⟨js "now", 0, js "A", true⟩ (js "a"))]

/-- The operation that is typed is submitted on socket 0. -/
theorem catch_up_first_typed :
    let segment : JsString → List JsString := fun text => text.map ([·])
    let w := Runs.run (System.handle segment) (System.start .empty) (joining ++ storing)
    CatchUpFirst segment (System.start .empty) (joining ++ storing ++ [.page 0 .submit]) ∧
      Submits w (w.handle segment (.page 0 .submit)) 0 0 := by
  intro segment w
  have hchecked : Runs.allSteps (System.handle segment) staysOnSocket (System.start .empty)
      (joining ++ storing ++ [.page 0 .submit]) = true := by
    decide +kernel
  have hfirst := @catch_up_first segment _ .empty _
    (Runs.Never.of_allSteps (fun _ _ h => not_crosses_of_stays h) hchecked)
  have hsent : ((w.handle segment (.page 0 .submit)).pages 0).sync.sent = (w.pages 0).sync.sent ++
      [(0, .submitOperation ⟨js "d", .insert ⟨js "A:1", js "A", 1, 1, ROOT_ID, js "a"⟩⟩)] := by
    decide +kernel
  have hsubmits : Submits w (w.handle segment (.page 0 .submit)) 0 0 :=
    ⟨_, _, hsent, List.mem_singleton.2 rfl⟩
  with_reducible exact And.intro hfirst hsubmits

theorem not_catchUpFirst
    (hsubmits : Submits (Runs.run (System.handle segmentGraphemes) w₀ before)
      ((Runs.run (System.handle segmentGraphemes) w₀ before).handle segmentGraphemes e) i k)
    (hunjoined : ∀ join, (k, .join join) ∉
      ((Runs.run (System.handle segmentGraphemes) w₀ before).pages i).sync.sent) :
    ¬ CatchUpFirst segmentGraphemes w₀ (before ++ [e]) := by
  intro h
  obtain ⟨⟨join, hjoin⟩, -⟩ := h before e [] rfl i k hsubmits
  exact hunjoined join hjoin

/-- Socket 0 closes and socket 1 opens while the sync message of socket 0 is being stored. -/
def crossing : List SystemEvent :=
  joining ++ [.page 0 (.socketClosed 0), .page 0 (.timerFired 1), .connection 1 6,
    .page 0 (.socketOpened 1)] ++ storing

/-- The operation is submitted on socket 1, on which the page has not joined. -/
theorem submits_unsynced :
    ¬ CatchUpFirst (fun text => text.map ([·])) (System.start .empty)
      (crossing ++ [.page 0 .submit]) := by
  refine not_catchUpFirst (i := 0) (k := 1) ⟨[(1, .submitOperation
    ⟨js "d", .insert ⟨js "A:1", js "A", 1, 1, ROOT_ID, js "a"⟩⟩)], _, ?_,
    List.mem_singleton.2 rfl⟩ fun join hjoin => ?_
  · decide +kernel
  · have hsent : ((Runs.run (System.handle fun text => text.map ([·])) (System.start .empty)
        crossing).pages 0).sync.sent = [(0, .join ⟨js "d", js "A", 0,
          some [SNAPSHOT_BOOTSTRAP_CAPABILITY], none⟩)] := by
      decide +kernel
    rw [hsent] at hjoin
    simp at hjoin

end System

end LocalFirst
