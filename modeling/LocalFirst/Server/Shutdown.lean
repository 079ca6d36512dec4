import LocalFirst.Server.Gateway

/-!
# The server process and its shutdown

Model of `createGracefulShutdown`, of the hooks of `createApp` and of `close` in `attachSyncServer`, in
the order in which closing the application runs them: the sync server closes its sockets and waits
for them, then the database is closed, and the race against the timeout decides the exit code.  An
exception in the upgrade handler ends the process without any of this.  That closing the application
fails is left out.

* `Quiesced` — no client, no session, no room.
* `Quiesced.step` — from there on no event changes the server.
* `shutdown_safe` — the database is closed only then, and a shutdown can always complete.
-/

set_option autoImplicit false

namespace LocalFirst

structure ServerProcess where
  gateway : Gateway
  inFlight : Bool
  syncClosed : Bool
  storeOpen : Bool
  exitCode : Option ℕ

inductive ProcessEvent where
  /-- An upgrade, a heartbeat, or an event of a socket. -/
  | socket (e : GatewayEvent)
  | signal
  | preClose
  | drainTimeout
  | drained
  | onClose
  | closed
  | timeout

/-- The events that come from outside. -/
def GatewayEvent.isOutside : GatewayEvent → Bool
  | .shutDown => false
  | .shutDownDone => false
  | _ => true

namespace ServerProcess

def start (store : OperationStore) : ServerProcess := ⟨.start store, false, false, true, none⟩

/-- An uncaught exception exits with code 1. -/
def receive (config : ServerConfig) (p : ServerProcess) (e : GatewayEvent) : ServerProcess :=
  let gateway := p.gateway.step config e
  { p with
    gateway := gateway
    exitCode := if gateway.crashed then some 1 else p.exitCode }

def act (config : ServerConfig) (p : ServerProcess) : ProcessEvent → ServerProcess
  | .socket e => if e.isOutside then p.receive config e else p
  | .signal => { p with inFlight := true }
  | .preClose =>
    if p.inFlight then { p with gateway := p.gateway.step config .shutDown } else p
  | .drainTimeout =>
    if p.gateway.isClosing then
      { p with gateway := Runs.run Gateway.terminate p.gateway p.gateway.clients }
    else p
  | .drained =>
    if p.gateway.isClosing ∧ p.gateway.clients = [] then
      { p with
        gateway := p.gateway.step config .shutDownDone
        syncClosed := true }
    else p
  | .onClose => if p.syncClosed then { p with storeOpen := false } else p
  | .closed => if p.storeOpen then p else { p with exitCode := some 0 }
  | .timeout => if p.inFlight then { p with exitCode := some 1 } else p

/-- Nothing happens once the process has exited. -/
def step (config : ServerConfig) (p : ServerProcess) (e : ProcessEvent) : ServerProcess :=
  if p.exitCode.isSome then p else p.act config e

def run (config : ServerConfig) (p : ServerProcess) (es : List ProcessEvent) :
    ServerProcess :=
  Runs.run (step config) p es

end ServerProcess

namespace Gateway

variable {config : ServerConfig} {g : Gateway}

/-- Nobody is left. -/
structure Quiesced (g : Gateway) : Prop where
  closing : g.isClosing = true
  clients : g.clients = []
  sessions : g.metered.sessions = .empty
  rooms : g.metered.rooms = .empty
  activeRooms : g.metered.activeRooms = 0

theorem Quiesced.dead (h : Quiesced g) (htended : Tended g) (k : SocketId) :
    ¬ Live (g.readyState k) := by
  intro hlive
  have hmem := (htended.clients k).2 hlive
  rw [h.clients] at hmem
  cases hmem

/-- **Then no event changes the server**, or ends the process. -/
theorem Quiesced.act (h : Quiesced g) (htended : Tended g) (e : GatewayEvent) :
    (g.act config e).metered = g.metered ∧ (g.act config e).crashed = g.crashed := by
  have hdead := h.dead htended
  have hclosing : ∀ socket, g.metered.handle (.closing socket) = g.metered :=
    fun socket => if_neg fun hopen => hdead socket (Or.inl hopen)
  cases e with
  | upgrade socket request connectedAt =>
    have hrefused : g.onUpgrade config socket request connectedAt = g := if_pos h.closing
    simp only [Gateway.act]
    rw [hrefused]
    exact ⟨rfl, rfl⟩
  | heartbeat pingThrows =>
    have hnothing : g.heartbeat pingThrows = g := if_pos h.closing
    simp only [Gateway.act]
    rw [hnothing]
    exact ⟨rfl, rfl⟩
  | pong socket =>
    simp only [Gateway.act]
    split <;> exact ⟨rfl, rfl⟩
  | message socket bytes data env =>
    simp only [Gateway.act]
    split
    · exact ⟨hclosing socket, rfl⟩
    · refine ⟨?_, rfl⟩
      simp only [SyncServer.handle, SyncServer.handleMessage]
      rw [h.sessions]
      rfl
  | closing socket => exact ⟨hclosing socket, rfl⟩
  | close socket env => exact ⟨if_neg (hdead socket), rfl⟩
  | shutDown =>
    have hready : (fun s => if g.metered.readyState s = .opened then .closing
        else g.metered.readyState s) = g.metered.readyState := by
      funext s
      exact if_neg fun hopen => hdead s (Or.inl hopen)
    refine ⟨?_, rfl⟩
    simp only [Gateway.act, SyncServer.handle]
    rw [hready, ← show g.metered.closing = true from h.closing]
  | shutDownDone =>
    have hdone : g.metered.handle .shutDownDone = g.metered := by
      simp only [SyncServer.handle]
      rw [if_pos (show g.metered.closing = true from h.closing), ← h.sessions, ← h.rooms,
        ← h.activeRooms]
    simp only [Gateway.act]
    rw [if_pos h.clients]
    exact ⟨hdone, rfl⟩

theorem Quiesced.step (h : Quiesced g) (htended : Tended g) (e : GatewayEvent) :
    (g.step config e).metered = g.metered ∧ (g.step config e).crashed = g.crashed := by
  unfold Gateway.step
  split
  · exact ⟨rfl, rfl⟩
  · exact h.act htended e

theorem Quiesced.stays (h : Quiesced g) (htended : Tended g) (e : GatewayEvent) :
    Quiesced (g.step config e) := by
  obtain ⟨hmetered, -⟩ := @Quiesced.step config g h htended e
  have htended' := @Tended.step config g htended e
  refine ⟨?_, List.eq_nil_iff_forall_not_mem.2 fun k hk => ?_, ?_, ?_, ?_⟩
  · unfold isClosing
    rw [hmetered]
    exact h.closing
  · refine h.dead htended k ?_
    have hlive := (htended'.clients k).1 hk
    unfold view readyState at hlive
    rw [hmetered] at hlive
    exact hlive
  · rw [hmetered]
    exact h.sessions
  · rw [hmetered]
    exact h.rooms
  · rw [hmetered]
    exact h.activeRooms

theorem step_running (h : g.crashed = false) (e : GatewayEvent) : g.step config e = g.act config e := by
  unfold Gateway.step
  rw [h]
  rfl

/-- The server is done once its clients are gone. -/
theorem quiesced_shutDownDone (hrunning : g.crashed = false) (hclosing : g.isClosing = true)
    (hclients : g.clients = []) : Quiesced (g.step config .shutDownDone) := by
  have hstep : g.step config .shutDownDone = { g with
      metered := { g.metered with sessions := .empty, rooms := .empty, activeRooms := 0 } } := by
    rw [step_running hrunning]
    simp only [Gateway.act, SyncServer.handle]
    rw [if_pos hclients, if_pos (show g.metered.closing = true from hclosing)]
  rw [hstep]
  exact ⟨hclosing, hclients, rfl, rfl, rfl⟩

/-! ## What begins to close -/

theorem closing_message (w : MeteredServer) (socket : SocketId) (frame : Frame) (env : ServerEnv) :
    (w.handle (.message socket frame env)).closing = w.closing := by
  show (w.handle (.message socket frame env)).plain.closing = w.plain.closing
  rw [MeteredServer.handle_plain]
  cases SyncServer.handle_effect w.plain (.message socket frame env) with
  | moved he => cases he
  | quiet added hrooms => exact hrooms.closing
  | stalled socket session message env added he hsession hnew hschema hthrows hrooms =>
    exact hrooms.closing
  | synced socket session message env rest he hsession hnew hschema hcursor hrooms =>
    exact hrooms.closing
  | echoed socket session documentId item env he hsession hdocument hclient hrooms =>
    exact hrooms.closing
  | appended socket session documentId operation env he hsession hdocument hclient hvalid hschema
      hrooms =>
    exact hrooms.closing

theorem isClosing_terminate (g : Gateway) (client : SocketId) :
    (g.terminate client).isClosing = g.isClosing := by
  show (g.metered.handle (.closing client)).closing = g.metered.closing
  simp only [SyncServer.handle]
  split <;> rfl

theorem isClosing_beat (pingThrows : SocketId → Bool) (g : Gateway) (client : SocketId) :
    (g.beat pingThrows client).isClosing = g.isClosing := by
  unfold beat
  split
  · exact isClosing_terminate g client
  · split
    · rfl
    · simp only
      split
      · exact isClosing_terminate _ client
      · rfl

/-- Nothing from outside makes the server close. -/
theorem isClosing_act {e : GatewayEvent} (he : e.isOutside = true) :
    (g.act config e).isClosing = g.isClosing := by
  cases e with
  | upgrade socket request connectedAt =>
    show (g.onUpgrade config socket request connectedAt).isClosing = _
    by_cases hadmits : Admits config g socket request
    · rw [onUpgrade_admitted hadmits]
      show (g.metered.handle (.connection socket connectedAt)).closing = _
      simp only [SyncServer.handle]
      split <;> rfl
    · obtain ⟨crashed, hrefused⟩ := onUpgrade_not_admitted hadmits connectedAt
      rw [hrefused]
      rfl
  | heartbeat pingThrows =>
    show (g.heartbeat pingThrows).isClosing = _
    unfold heartbeat
    split
    · rfl
    · exact Runs.invariant (I := fun g' : Gateway => g'.isClosing = g.isClosing)
        (fun g' client h => (isClosing_beat pingThrows g' client).trans h) g g.clients rfl
  | pong socket =>
    show (if g.alive socket = none then g else g.setAlive socket true).isClosing = _
    split <;> rfl
  | message socket bytes data env =>
    simp only [act]
    split
    · exact isClosing_terminate g socket
    · exact closing_message _ socket _ env
  | closing socket => exact isClosing_terminate g socket
  | close socket env =>
    show (g.metered.handle (.close socket env)).closing = _
    simp only [SyncServer.handle]
    split
    · obtain ⟨added, rooms, activeRooms, hleft, -⟩ :=
        SyncServer.leaveRoom_effect env (g.metered.setReadyState socket .closed) socket
      rw [hleft]
      rfl
    · rfl
  | shutDown => cases he
  | shutDownDone => cases he

theorem isClosing_step {e : GatewayEvent} (he : e.isOutside = true) :
    (g.step config e).isClosing = g.isClosing := by
  unfold step
  split
  · rfl
  · exact isClosing_act he

theorem isClosing_shutDown (hrunning : g.crashed = false) :
    (g.step config .shutDown).isClosing = true := by
  rw [step_running hrunning]
  rfl

theorem Tended.terminateAll (h : Tended g) :
    Tended (Runs.run terminate g g.clients) ∧ (Runs.run terminate g g.clients).clients = g.clients ∧
      (Runs.run terminate g g.clients).isClosing = g.isClosing ∧
      (Runs.run terminate g g.clients).crashed = g.crashed := by
  refine Runs.invariant (I := fun g' : Gateway => Tended g' ∧ g'.clients = g.clients ∧
    g'.isClosing = g.isClosing ∧ g'.crashed = g.crashed) (fun g' client h' => ?_) g g.clients
    ⟨h, rfl, rfl, rfl⟩
  obtain ⟨htended, hclients, hclosing, hcrashed⟩ := h'
  exact ⟨@Tended.act ⟨0, []⟩ g' htended (.closing client), hclients,
    (isClosing_terminate g' client).trans hclosing, hcrashed⟩

end Gateway

namespace ServerProcess

variable {config : ServerConfig} {p : ServerProcess}

open Gateway (Tended Quiesced)

/-- What holds of the process all along. -/
structure Ordered (p : ServerProcess) : Prop where
  tended : Tended p.gateway
  signalled : p.gateway.isClosing = true → p.inFlight = true
  quiesced : p.syncClosed = true → Quiesced p.gateway
  storeClosed : p.storeOpen = false → p.syncClosed = true
  crashed : p.gateway.crashed = true → p.exitCode = some 1
  exited : ∀ code, p.exitCode = some code → (code = 1 ∧ p.gateway.crashed = true) ∨
    (p.inFlight = true ∧ (code = 0 ∧ p.storeOpen = false ∨ code = 1))

theorem Ordered.start (store : OperationStore) : Ordered (start store) where
  tended := .start store
  signalled := fun h => by cases h
  quiesced := fun h => by cases h
  storeClosed := fun h => by cases h
  crashed := fun h => by cases h
  exited := fun code h => by cases h

theorem Ordered.running (h : Ordered p) (hexit : p.exitCode = none) : p.gateway.crashed = false := by
  refine Bool.eq_false_iff.2 fun hcrashed => ?_
  rw [h.crashed hcrashed] at hexit
  cases hexit

theorem Ordered.receive (h : Ordered p) (hexit : p.exitCode = none) {e : GatewayEvent}
    (hout : e.isOutside = true) : Ordered (p.receive config e) := by
  refine ⟨h.tended.step e, fun hclosing => ?_, fun hdone => (h.quiesced hdone).stays h.tended e,
    h.storeClosed, fun hcrashed => if_pos hcrashed, fun code hcode => ?_⟩
  · have hsame := @Gateway.isClosing_step config p.gateway e hout
    exact h.signalled (hsame.symm.trans hclosing)
  · have hreceived : (if (p.gateway.step config e).crashed then some 1 else p.exitCode) =
        some code := hcode
    split at hreceived
    · rename_i hcrashed
      cases hreceived
      exact Or.inl ⟨rfl, hcrashed⟩
    · rw [hexit] at hreceived
      cases hreceived

theorem Ordered.act (h : Ordered p) (hexit : p.exitCode = none) (e : ProcessEvent) :
    Ordered (p.act config e) := by
  have hrunning := h.running hexit
  have hnever : ∀ {P : ℕ → Prop} code, p.exitCode = some code → P code := by
    intro P code hcode
    rw [hexit] at hcode
    cases hcode
  have hlives : ∀ {P : Prop} {g : Gateway}, g.crashed = p.gateway.crashed → g.crashed = true → P := by
    intro P g hsame hcrashed
    rw [hsame, hrunning] at hcrashed
    cases hcrashed
  unfold ServerProcess.act
  cases e with
  | socket e =>
    simp only
    split
    · rename_i hout
      exact h.receive hexit hout
    · exact h
  | signal => exact ⟨h.tended, fun _ => rfl, h.quiesced, h.storeClosed, h.crashed, hnever⟩
  | preClose =>
    simp only
    split
    · rename_i hsignalled
      refine ⟨@Tended.step config _ h.tended .shutDown, fun _ => hsignalled,
        fun hdone => @Quiesced.stays config _ (h.quiesced hdone) h.tended .shutDown,
        h.storeClosed, hlives ?_, hnever⟩
      rw [Gateway.step_running hrunning]
      rfl
    · exact h
  | drainTimeout =>
    simp only
    split
    · obtain ⟨htended, hclients, hclosing, hcrashed⟩ := h.tended.terminateAll
      refine ⟨htended, fun hc => h.signalled (hclosing.symm.trans hc), fun hdone => ?_,
        h.storeClosed, hlives hcrashed, hnever⟩
      have hnil := (h.quiesced hdone).clients
      simp only [hnil]
      exact h.quiesced hdone
    · exact h
  | drained =>
    simp only
    split
    · rename_i hdone
      have hquiesced := @Gateway.quiesced_shutDownDone config p.gateway hrunning hdone.1 hdone.2
      refine ⟨@Tended.step config _ h.tended .shutDownDone, fun _ => h.signalled hdone.1,
        fun _ => hquiesced, fun _ => rfl, hlives ?_, hnever⟩
      rw [Gateway.step_running hrunning]
      simp only [Gateway.act]
      split <;> rfl
    · exact h
  | onClose =>
    simp only
    split
    · rename_i hdone
      exact ⟨h.tended, h.signalled, h.quiesced, fun _ => hdone, h.crashed, hnever⟩
    · exact h
  | closed =>
    simp only
    split
    · exact h
    · rename_i hclosed
      have hstore : p.storeOpen = false := Bool.eq_false_iff.2 hclosed
      refine ⟨h.tended, h.signalled, h.quiesced, h.storeClosed, hlives rfl, fun code hcode => ?_⟩
      cases hcode
      exact Or.inr ⟨h.signalled (h.quiesced (h.storeClosed hstore)).closing, Or.inl ⟨rfl, hstore⟩⟩
  | timeout =>
    simp only
    split
    · rename_i hsignalled
      refine ⟨h.tended, h.signalled, h.quiesced, h.storeClosed, hlives rfl, fun code hcode => ?_⟩
      cases hcode
      exact Or.inr ⟨hsignalled, Or.inr rfl⟩
    · exact h

theorem Ordered.step (h : Ordered p) (e : ProcessEvent) : Ordered (p.step config e) := by
  unfold ServerProcess.step
  split
  · exact h
  · rename_i hrunning
    exact h.act (Option.not_isSome_iff_eq_none.1 hrunning) e

theorem Ordered.run (h : Ordered p) (es : List ProcessEvent) : Ordered (p.run config es) :=
  @Runs.invariant _ _ (ServerProcess.step config) Ordered (fun _ e h => h.step e) p es h

/-- What is not open does not open again, and the server does not change any more. -/
theorem Ordered.frozen_step (h : Ordered p) (hclosed : p.storeOpen = false) (e : ProcessEvent) :
    (p.step config e).storeOpen = false ∧
      (p.step config e).gateway.metered = p.gateway.metered := by
  have hquiesced := h.quiesced (h.storeClosed hclosed)
  have hmetered := fun e => (@Quiesced.step config p.gateway hquiesced h.tended e).1
  unfold ServerProcess.step
  split
  · exact ⟨hclosed, rfl⟩
  · unfold ServerProcess.act
    cases e with
    | socket e =>
      simp only
      split
      · exact ⟨hclosed, hmetered e⟩
      · exact ⟨hclosed, rfl⟩
    | signal => exact ⟨hclosed, rfl⟩
    | preClose =>
      simp only
      split
      · exact ⟨hclosed, hmetered _⟩
      · exact ⟨hclosed, rfl⟩
    | drainTimeout =>
      simp only
      split
      · simp only [hquiesced.clients]
        exact ⟨hclosed, rfl⟩
      · exact ⟨hclosed, rfl⟩
    | drained =>
      simp only
      split
      · exact ⟨hclosed, hmetered _⟩
      · exact ⟨hclosed, rfl⟩
    | onClose =>
      simp only
      split
      · exact ⟨rfl, rfl⟩
      · exact ⟨hclosed, rfl⟩
    | closed =>
      simp only
      split <;> exact ⟨hclosed, rfl⟩
    | timeout =>
      simp only
      split <;> exact ⟨hclosed, rfl⟩

theorem Ordered.frozen (h : Ordered p) (hclosed : p.storeOpen = false) (es : List ProcessEvent) :
    (p.run config es).gateway.metered = p.gateway.metered := by
  refine (@Runs.invariant _ _ (ServerProcess.step config)
    (fun p' => Ordered p' ∧ p'.storeOpen = false ∧ p'.gateway.metered = p.gateway.metered)
    (fun p' e h' => ?_) p es ⟨h, hclosed, rfl⟩).2.2
  obtain ⟨hordered, hstore, hsame⟩ := h'
  obtain ⟨hstore', hmetered⟩ := @Ordered.frozen_step config p' hordered hstore e
  exact ⟨hordered.step e, hstore', hmetered.trans hsame⟩

/-! ## A shutdown can complete -/

/-- The sockets are closed one by one. -/
def closeAll (env : ServerEnv) (clients : List SocketId) : List ProcessEvent :=
  clients.map fun k => .socket (.close k env)

/-- The events from the signal to the exit. -/
def completion (env : ServerEnv) (clients : List SocketId) : List ProcessEvent :=
  [.preClose, .drainTimeout] ++ closeAll env clients ++ [.drained, .onClose, .closed]

theorem step_running (h : p.exitCode = none) (e : ProcessEvent) :
    p.step config e = p.act config e := by
  unfold ServerProcess.step
  rw [h]
  rfl

/-- The sockets begin to close, and the timer terminates them. -/
theorem run_preClose (h : Ordered p) (hsignalled : p.inFlight = true) (hexit : p.exitCode = none) :
    let closing := p.run config [.preClose, .drainTimeout]
    closing.exitCode = none ∧ closing.gateway.isClosing = true ∧
      closing.gateway.clients = p.gateway.clients := by
  have hpre : p.step config .preClose =
      { p with gateway := p.gateway.step config .shutDown } := by
    rw [step_running hexit]
    exact if_pos hsignalled
  have hclosing := @Gateway.isClosing_shutDown config p.gateway (h.running hexit)
  have hsame : (p.gateway.step config .shutDown).clients = p.gateway.clients := by
    rw [Gateway.step_running (h.running hexit)]
    rfl
  obtain ⟨-, hclients, hstill, -⟩ :=
    (@Tended.step config _ h.tended .shutDown).terminateAll
  have hrun : p.run config [.preClose, .drainTimeout] =
      (p.step config .preClose).step config .drainTimeout := rfl
  simp only
  rw [hrun, hpre, step_running]
  · simp only [ServerProcess.act]
    rw [if_pos hclosing]
    exact ⟨hexit, hstill.trans hclosing, hclients.trans hsame⟩
  · exact hexit

theorem run_closeAll (env : ServerEnv) : ∀ (clients : List SocketId) {p : ServerProcess},
    Ordered p → p.exitCode = none → p.gateway.isClosing = true →
      (∀ k ∈ p.gateway.clients, k ∈ clients) →
      (p.run config (closeAll env clients)).exitCode = none ∧
        (p.run config (closeAll env clients)).gateway.isClosing = true ∧
        (p.run config (closeAll env clients)).gateway.clients = []
  | [], p, _, hexit, hclosing, hclients =>
    ⟨hexit, hclosing, List.eq_nil_iff_forall_not_mem.2 fun k hk => by cases hclients k hk⟩
  | k :: clients, p, h, hexit, hclosing, hclients => by
    have hact : p.gateway.step config (.close k env) = p.gateway.act config (.close k env) :=
      Gateway.step_running (h.running hexit) _
    have hstep : p.step config (.socket (.close k env)) =
        { p with gateway := p.gateway.act config (.close k env) } := by
      have hcode : (if (p.gateway.act config (.close k env)).crashed then some 1 else p.exitCode) =
          p.exitCode := if_neg (Bool.eq_false_iff.1 (h.running hexit))
      rw [step_running hexit]
      simp only [ServerProcess.act, GatewayEvent.isOutside, if_true, receive]
      rw [hact, hcode]
    have hrun : p.run config (closeAll env (k :: clients)) =
        (p.step config (.socket (.close k env))).run config (closeAll env clients) := rfl
    have hordered := @Ordered.step config p h (.socket (.close k env))
    rw [hstep] at hordered
    rw [hrun, hstep]
    refine run_closeAll env clients hordered hexit ?_ fun j hj => ?_
    · exact (Gateway.isClosing_act rfl).trans hclosing
    · obtain ⟨hj, hne⟩ := List.mem_filter.1 hj
      exact (List.mem_cons.1 (hclients j hj)).resolve_left (of_decide_eq_true hne)

/-- Nobody is left: the database is closed, and the process exits. -/
theorem run_drained (hexit : p.exitCode = none) (hclosing : p.gateway.isClosing = true)
    (hclients : p.gateway.clients = []) :
    (p.run config [.drained, .onClose, .closed]).exitCode = some 0 := by
  have hrun : p.run config [.drained, .onClose, .closed] =
      ((p.step config .drained).step config .onClose).step config .closed := rfl
  have hdrained : p.step config .drained =
      { p with
        gateway := p.gateway.step config .shutDownDone
        syncClosed := true } := by
    rw [step_running hexit]
    exact if_pos ⟨hclosing, hclients⟩
  have hstore : ({ p with
        gateway := p.gateway.step config .shutDownDone
        syncClosed := true } : ServerProcess).step config .onClose =
      { p with
        gateway := p.gateway.step config .shutDownDone
        syncClosed := true
        storeOpen := false } := by
    rw [step_running]
    · rfl
    · exact hexit
  rw [hrun, hdrained, hstore, step_running]
  · rfl
  · exact hexit

/-- **From wherever it has got to, a shutdown can complete.** -/
theorem Ordered.completes (h : Ordered p) (hsignalled : p.inFlight = true) (hexit : p.exitCode = none)
    (env : ServerEnv) :
    (p.run config (completion env p.gateway.clients)).exitCode = some 0 := by
  have hordered := @Ordered.run config p h [.preClose, .drainTimeout]
  have hpre := @run_preClose config p h hsignalled hexit
  simp only at hpre
  obtain ⟨hexit, hclosing, hclients⟩ := hpre
  obtain ⟨hexit, hclosing, hnil⟩ := @run_closeAll config env p.gateway.clients _ hordered hexit
    hclosing fun k hk => by rwa [hclients] at hk
  unfold completion ServerProcess.run
  rw [Runs.run_append, Runs.run_append]
  exact run_drained hexit hclosing hnil

/-! ## What ends the process -/

/-- An upgrade whose target cannot be read, before the server begins to close. -/
def Crashes (p : ServerProcess) : ProcessEvent → Prop
  | .socket (.upgrade _ request _) => p.exitCode = none ∧ Gateway.Throws p.gateway request
  | _ => False

theorem crashes_act (h : Ordered p) (hexit : p.exitCode = none) (e : ProcessEvent) :
    (p.act config e).gateway.crashed = true ↔ Crashes p e := by
  have hrunning := h.running hexit
  have hstays : ∀ {g : Gateway}, g.crashed = p.gateway.crashed → ¬ g.crashed = true := by
    intro g hsame hcrashed
    rw [hsame, hrunning] at hcrashed
    cases hcrashed
  unfold ServerProcess.act
  cases e with
  | socket e =>
    have hstep : p.gateway.step config e = p.gateway.act config e := Gateway.step_running hrunning e
    have hends := @Gateway.crashed_act config p.gateway hrunning e
    have hreceive : (p.receive config e).gateway.crashed = (p.gateway.act config e).crashed := by
      rw [← hstep]
      rfl
    cases e with
    | upgrade socket request connectedAt =>
      simp only [GatewayEvent.isOutside, if_true, Crashes]
      rw [hreceive, hends]
      constructor
      · rintro ⟨_, _, _, heq, hthrows⟩
        cases heq
        exact ⟨hexit, hthrows⟩
      · rintro ⟨-, hthrows⟩
        exact ⟨_, _, _, rfl, hthrows⟩
    | shutDown => exact iff_of_false (hstays rfl) id
    | shutDownDone => exact iff_of_false (hstays rfl) id
    | _ =>
      refine iff_of_false (fun hcrashed => ?_) id
      obtain ⟨_, _, _, heq, -⟩ := hends.1 (hreceive.symm.trans hcrashed)
      cases heq
  | preClose =>
    refine iff_of_false (hstays ?_) id
    simp only
    split
    · simp only
      rw [Gateway.step_running hrunning]
      rfl
    · rfl
  | drainTimeout =>
    refine iff_of_false (hstays ?_) id
    simp only
    split
    · exact h.tended.terminateAll.2.2.2
    · rfl
  | drained =>
    refine iff_of_false (hstays ?_) id
    simp only
    split
    · simp only
      rw [Gateway.step_running hrunning]
      simp only [Gateway.act]
      split <;> rfl
    · rfl
  | signal => exact iff_of_false (hstays rfl) id
  | onClose =>
    refine iff_of_false (hstays ?_) id
    simp only
    split <;> rfl
  | closed =>
    refine iff_of_false (hstays ?_) id
    simp only
    split <;> rfl
  | timeout =>
    refine iff_of_false (hstays ?_) id
    simp only
    split <;> rfl

/-- **An exception ends the process exactly if there was such an upgrade.** -/
theorem crashed_iff (config : ServerConfig) (store : OperationStore) (es : List ProcessEvent) :
    ((start store).run config es).gateway.crashed = true ↔
      Runs.Since (step config) Crashes (fun _ => False) (start store) es := by
  refine @Runs.since_iff _ _ (step config) (start store) es (fun p => p.gateway.crashed = true)
    Crashes (fun _ => False) (fun h => by cases h) fun before e after heq => ?_
  have h : Ordered (Runs.run (step config) (start store) before) :=
    @Ordered.run config _ (Ordered.start store) before
  generalize Runs.run (step config) (start store) before = p at h
  simp only [not_false_eq_true, and_true]
  by_cases hexit : p.exitCode = none
  · rw [step_running hexit, crashes_act h hexit, h.running hexit]
    simp only [Bool.false_eq_true, or_false]
  · have hstep : p.step config e = p := if_pos (Option.isSome_iff_ne_none.2 hexit)
    have hnot : ¬ Crashes p e := by
      unfold Crashes
      split
      · exact fun hcrashes => hexit hcrashes.1
      · exact id
    rw [hstep, or_iff_right hnot]

/-- **The shutdown is safe and can complete.**  Nothing closes without a signal; the database is closed
only once there is no client, session or room left, and from then on the server does not change;
the process exits with 0 only after that, with 1 only after a signal too or after an upgrade whose
target cannot be read, which always ends it; and a shutdown that has begun can complete. -/
theorem shutdown_safe (config : ServerConfig) (store : OperationStore)
    (es : List ProcessEvent) :
    let p := (start store).run config es
    let crashed := Runs.Since (step config) Crashes (fun _ => False) (start store) es
    (p.gateway.isClosing = true → p.inFlight = true) ∧
      (p.storeOpen = false → Quiesced p.gateway ∧ ∀ es',
        (p.run config es').gateway.metered = p.gateway.metered) ∧
      (∀ code, p.exitCode = some code → (code = 1 ∧ crashed) ∨
        (p.inFlight = true ∧ (code = 0 ∧ p.storeOpen = false ∨ code = 1))) ∧
      (crashed → p.exitCode = some 1) ∧
      (p.inFlight = true → p.exitCode = none → ∀ env,
        (p.run config (completion env p.gateway.clients)).exitCode = some 0) := by
  intro p crashed
  have h : Ordered p := (Ordered.start store).run es
  have hcrashed : p.gateway.crashed = true ↔ crashed := crashed_iff config store es
  refine ⟨h.signalled, fun hclosed => ⟨h.quiesced (h.storeClosed hclosed), h.frozen hclosed⟩,
    fun code hcode => ?_, fun hc => h.crashed (hcrashed.2 hc), h.completes⟩
  exact (h.exited code hcode).imp_left fun hone => ⟨hone.1, hcrashed.1 hone.2⟩

end ServerProcess

end LocalFirst
