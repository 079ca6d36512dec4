import LocalFirst.Server.Metrics
import LocalFirst.Server.Renumber
import LocalFirst.Server.Speech

/-!
# The metrics reconcile with what was stored and sent

* `Filed` — every counted insertion is a row; every append is an insertion or a duplicate.
* `Heard` — the counts of sync messages and of errors are those of the messages sent.
* `Settled` — every join was answered or failed; every submission was stored, found or refused.
* `Reconciled.handle` — every event keeps the three, if messages arrive on open sockets.
* `metrics_reconcile` — so the books of every run balance.
-/

set_option autoImplicit false

namespace LocalFirst

namespace MeteredServer

open SyncServer (Event)

abbrev Sent := List (SocketId × ServerMessage)

/-- The sum of a weight over the messages sent. -/
def total (weight : ServerMessage → ℕ) (sent : Sent) : ℕ := (sent.map fun p => weight p.2).sum

/-! ## Weights of a message -/

/-- A weight of sync messages only. -/
def syncWeight (weight : SyncMessage → ℕ) : ServerMessage → ℕ
  | .sync m => weight m
  | _ => 0

/-- A weight of sync messages with a snapshot. -/
def bootstrapWeight (weight : SyncMessage → SnapshotBootstrap → ℕ) : ServerMessage → ℕ :=
  syncWeight fun m => m.snapshotBootstrap.elim 0 (weight m)

/-- One for each error of a kind. -/
def errorWeight (kind : JsString → Bool) : ServerMessage → ℕ
  | .error m => if kind m.code then 1 else 0
  | _ => 0

def snapshotBytes (b : SnapshotBootstrap) : ℕ :=
  byteLength ((Wire.ofSnapshot b.snapshot).stringify decimal)

theorem total_append (weight : ServerMessage → ℕ) (sent added : Sent) :
    total weight (sent ++ added) = total weight sent + total weight added := by
  unfold total
  rw [List.map_append, List.sum_append]

theorem total_singleton (weight : ServerMessage → ℕ) (k : SocketId) (m : ServerMessage) :
    total weight [(k, m)] = weight m := by
  unfold total
  simp

theorem total_eq_zero {weight : ServerMessage → ℕ} {added : Sent}
    (h : ∀ p ∈ added, weight p.2 = 0) : total weight added = 0 := by
  unfold total
  rw [List.sum_eq_zero]
  intro x hx
  obtain ⟨p, hp, rfl⟩ := List.mem_map.1 hx
  exact h p hp

/-- Neither a sync message nor an error. -/
def Unweighed : ServerMessage → Prop
  | .sync _ => False
  | .error _ => False
  | _ => True

/-! ## The three books -/

/-- The counts of the store against its rows; `rows` were there at the start. -/
structure Filed (rows : ℕ) (store : OperationStore) (m : ServerMetrics) : Prop where
  stored : store.operations.length = rows + m.insertedOperationsTotal
  appended : m.appendOperationDurationCount = m.insertedOperationsTotal + m.duplicateOperationsTotal
  queried : m.syncQueryDurationCount = m.syncTotal

/-- The counts of messages against the messages sent. -/
structure Heard (sent : Sent) (m : ServerMetrics) : Prop where
  syncs : m.syncTotal = total (syncWeight fun _ => 1) sent
  operations : m.syncOperationsSentTotal = total (syncWeight fun s => s.operations.length) sent
  bootstraps : m.snapshotBootstrapTotal = total (bootstrapWeight fun _ _ => 1) sent
  suffixes : m.snapshotSuffixOperationsSentTotal =
    total (bootstrapWeight fun s _ => s.operations.length) sent
  bytes : m.snapshotBytesSentTotal = total (bootstrapWeight fun _ b => snapshotBytes b) sent
  conflicts : m.identityConflictsTotal = total (errorWeight (· = js "IDENTITY_CONFLICT")) sent
  internal : m.internalErrorsTotal = total (errorWeight (· = js "INTERNAL_ERROR")) sent
  errors : m.protocolErrorsTotal + m.identityConflictsTotal + m.internalErrorsTotal =
    total (errorWeight fun _ => true) sent

/-- Submissions and joins against their outcomes; `submits` and `joins` are still open. -/
def Settled (submits joins : ℕ) (sent : Sent) (m : ServerMetrics) : Prop :=
  ∃ failedSubmits failedJoins, failedSubmits + failedJoins ≤ m.internalErrorsTotal ∧
    m.submitOperationsTotal = m.insertedOperationsTotal + m.duplicateOperationsTotal +
      m.identityConflictsTotal + total (errorWeight (· = js "INVALID_OPERATION")) sent +
      failedSubmits + submits ∧
    m.joinTotal = m.syncTotal + failedJoins + joins

structure Reconciled (rows submits joins : ℕ) (w : MeteredServer) : Prop where
  filed : Filed rows w.store.store w.metrics
  heard : Heard w.sent w.metrics
  settled : Settled submits joins w.sent w.metrics

variable {rows submits joins : ℕ} {w : MeteredServer} {env : ServerEnv} {k : SocketId}

theorem Reconciled.start (store : OperationStore) :
    Reconciled store.operations.length 0 0 (start store) where
  filed := ⟨rfl, rfl, rfl⟩
  heard := ⟨rfl, rfl, rfl, rfl, rfl, rfl, rfl, rfl⟩
  settled := ⟨0, 0, le_rfl, rfl, rfl⟩

/-! ## Quiet events -/

theorem total_unweighed {weight : ServerMessage → ℕ} (hweight : ∀ m, Unweighed m → weight m = 0)
    (sent : Sent) {added : Sent} (h : ∀ p ∈ added, Unweighed p.2) :
    total weight (sent ++ added) = total weight sent := by
  rw [total_append, total_eq_zero fun p hp => hweight p.2 (h p hp), Nat.add_zero]

theorem syncWeight_unweighed (weight : SyncMessage → ℕ) :
    ∀ m, Unweighed m → syncWeight weight m = 0
  | .sync _, h => h.elim
  | .operation _, _ => rfl
  | .presence _, _ => rfl
  | .error _, _ => rfl

theorem errorWeight_unweighed (kind : JsString → Bool) :
    ∀ m, Unweighed m → errorWeight kind m = 0
  | .error _, h => h.elim
  | .sync _, _ => rfl
  | .operation _, _ => rfl
  | .presence _, _ => rfl

theorem Heard.unweighed {sent added : Sent} {m : ServerMetrics} (h : Heard sent m)
    (hadded : ∀ p ∈ added, Unweighed p.2) : Heard (sent ++ added) m := by
  have hsync := fun weight => total_unweighed (syncWeight_unweighed weight) sent hadded
  have herror := fun kind => total_unweighed (errorWeight_unweighed kind) sent hadded
  constructor
  · rw [hsync, h.syncs]
  · rw [hsync, h.operations]
  · rw [bootstrapWeight, hsync, h.bootstraps, bootstrapWeight]
  · rw [bootstrapWeight, hsync, h.suffixes, bootstrapWeight]
  · rw [bootstrapWeight, hsync, h.bytes, bootstrapWeight]
  · rw [herror, h.conflicts]
  · rw [herror, h.internal]
  · rw [herror, h.errors]

theorem Settled.unweighed {sent added : Sent} {m : ServerMetrics} (h : Settled submits joins sent m)
    (hadded : ∀ p ∈ added, Unweighed p.2) : Settled submits joins (sent ++ added) m := by
  unfold Settled
  rw [total_unweighed (errorWeight_unweighed _) sent hadded]
  exact h

/-- The rosters of a room weigh nothing. -/
theorem rosters_unweighed (env : ServerEnv) (v : MeteredServer) (d : JsString) :
    ∀ p ∈ SyncServer.rosters env v d, Unweighed p.2 := by
  intro p hp
  obtain ⟨peer, -, rfl⟩ := List.mem_map.1 hp
  trivial

/-! ## Errors -/

/-- The codes that have a counter of their own. -/
def ownCode (code : JsString) : Bool :=
  code = js "IDENTITY_CONFLICT" || code = js "INTERNAL_ERROR" || code = js "INVALID_OPERATION"

theorem sent_sendError (w : MeteredServer) (code message : JsString) (hopen : w.readyState k = .opened) :
    (w.sendError k code message).sent = w.sent ++ [(k, .error ⟨code, message⟩)] := by
  unfold SyncServer.sendError SyncServer.sendJson
  rw [if_neg (not_not.2 hopen)]

theorem store_sendError (w : MeteredServer) (code message : JsString) :
    (w.sendError k code message).store = w.store := SyncServer.store_sendJson w k _

/-- An error is sent, and counted by the errors only. -/
theorem Reconciled.error (h : Reconciled rows submits joins w) (hopen : w.readyState k = .opened)
    (count : ServerMetrics → ServerMetrics) {code message : JsString}
    (hm : count w.metrics = { w.metrics with
      protocolErrorsTotal := (count w.metrics).protocolErrorsTotal
      identityConflictsTotal := (count w.metrics).identityConflictsTotal
      internalErrorsTotal := (count w.metrics).internalErrorsTotal })
    (hconflicts : (count w.metrics).identityConflictsTotal = w.metrics.identityConflictsTotal +
      errorWeight (· = js "IDENTITY_CONFLICT") (.error ⟨code, message⟩))
    (hinternal : (count w.metrics).internalErrorsTotal = w.metrics.internalErrorsTotal +
      errorWeight (· = js "INTERNAL_ERROR") (.error ⟨code, message⟩))
    (herrors : (count w.metrics).protocolErrorsTotal + (count w.metrics).identityConflictsTotal +
        (count w.metrics).internalErrorsTotal =
      w.metrics.protocolErrorsTotal + w.metrics.identityConflictsTotal +
        w.metrics.internalErrorsTotal + 1) {submits' joins' : ℕ}
    (hsettled : Settled submits' joins' (w.sent ++ [(k, .error ⟨code, message⟩)])
      (count w.metrics)) :
    Reconciled rows submits' joins' ((w.record count).sendError k code message) := by
  have hsent := sent_sendError (w.record count) code message hopen
  have hstore := @store_sendError k (w.record count) code message
  have hheard := h.heard
  refine ⟨?_, ?_, ?_⟩ <;> unfold SyncServer.metrics <;> rw [hstore]
  · show Filed rows w.store.store (count w.metrics)
    rw [hm]
    exact ⟨h.filed.stored, h.filed.appended, h.filed.queried⟩
  · rw [hsent]
    show Heard (w.sent ++ _) (count w.metrics)
    constructor
    · rw [hm, total_append, total_singleton]
      exact hheard.syncs
    · rw [hm, total_append, total_singleton]
      exact hheard.operations
    · rw [hm, total_append, total_singleton]
      exact hheard.bootstraps
    · rw [hm, total_append, total_singleton]
      exact hheard.suffixes
    · rw [hm, total_append, total_singleton]
      exact hheard.bytes
    · rw [hconflicts, hheard.conflicts, total_append, total_singleton]
    · rw [hinternal, hheard.internal, total_append, total_singleton]
    · rw [herrors, hheard.errors, total_append, total_singleton]
      simp only [errorWeight, if_true]
  · rw [hsent]
    exact hsettled

/-- A protocol error leaves open what is open, unless it says that the operation is invalid. -/
theorem Reconciled.recordProtocolError (h : Reconciled rows submits joins w)
    (hopen : w.readyState k = .opened) {code message : JsString}
    (hcode : ownCode code = false) :
    Reconciled rows submits joins (w.recordProtocolError k code message) := by
  unfold ownCode at hcode
  simp only [Bool.or_eq_false_iff, decide_eq_false_iff_not] at hcode
  obtain ⟨⟨hconflict, hinternal⟩, hinvalid⟩ := hcode
  obtain ⟨failedSubmits, failedJoins, hle, hsubmits, hjoins⟩ := h.settled
  refine h.error hopen .recordProtocolError rfl ?_ ?_ ?_
    ⟨failedSubmits, failedJoins, hle, ?_, hjoins⟩
  · simp only [errorWeight, decide_eq_true_eq, if_neg hconflict]
    rfl
  · simp only [errorWeight, decide_eq_true_eq, if_neg hinternal]
    rfl
  · simp only [ServerMetrics.recordProtocolError]
    omega
  · rw [total_append, total_singleton]
    simp only [errorWeight, decide_eq_true_eq, if_neg hinvalid]
    exact hsubmits

/-- Not an error of the two classes that the server tells apart. -/
def Foreign (e : JsError) : Prop :=
  e.name ≠ .operationIdentityConflict ∧ e.name ≠ .invalidOperation

/-- What `sendCaughtError` does. -/
theorem sendCaughtError_cases (w : MeteredServer) (k : SocketId) (e : JsError) :
    (e.name = .operationIdentityConflict ∧ w.sendCaughtError k e =
        (w.record .recordIdentityConflict).sendError k (js "IDENTITY_CONFLICT") e.message) ∨
      (e.name = .invalidOperation ∧ w.sendCaughtError k e =
        (w.record .recordProtocolError).sendError k (js "INVALID_OPERATION") e.message) ∨
      (Foreign e ∧ w.sendCaughtError k e =
        (w.record .recordInternalError).sendError k (js "INTERNAL_ERROR")
          (js "The server failed to process that message.")) := by
  unfold SyncServer.sendCaughtError Foreign
  cases e.name with
  | operationIdentityConflict => exact Or.inl ⟨rfl, rfl⟩
  | invalidOperation => exact Or.inr (Or.inl ⟨rfl, rfl⟩)
  | _ => exact Or.inr (Or.inr ⟨⟨by decide, by decide⟩, rfl⟩)

/-- **The error that is caught settles what is open**: a submission, or a join that failed. -/
theorem Reconciled.sendCaughtError (h : Reconciled rows submits joins w)
    (hopen : w.readyState k = .opened) {e : JsError} (hle : submits + joins ≤ 1)
    (hforeign : submits = 0 → Foreign e) : Reconciled rows 0 0 (w.sendCaughtError k e) := by
  obtain ⟨failedSubmits, failedJoins, hfailed, hsubmits, hjoins⟩ := h.settled
  rcases sendCaughtError_cases w k e with ⟨hname, heq⟩ | ⟨hname, heq⟩ | ⟨-, heq⟩
  · -- a submission, in conflict
    have hone : submits = 1 := by
      by_contra hne
      exact (hforeign (by omega)).1 hname
    rw [heq]
    refine h.error hopen .recordIdentityConflict rfl rfl rfl ?_
      ⟨failedSubmits, failedJoins, hfailed, ?_, ?_⟩
    · simp only [ServerMetrics.recordIdentityConflict]
      omega
    · rw [total_append, total_singleton]
      simp only [ServerMetrics.recordIdentityConflict, errorWeight, decide_eq_true_eq]
      rw [if_neg (by decide)]
      omega
    · simp only [ServerMetrics.recordIdentityConflict]
      omega
  · -- a submission, of an operation that is not valid
    have hone : submits = 1 := by
      by_contra hne
      exact (hforeign (by omega)).2 hname
    rw [heq]
    refine h.error hopen .recordProtocolError rfl rfl rfl ?_
      ⟨failedSubmits, failedJoins, hfailed, ?_, ?_⟩
    · simp only [ServerMetrics.recordProtocolError]
      omega
    · rw [total_append, total_singleton]
      simp only [ServerMetrics.recordProtocolError, errorWeight, decide_true, if_true]
      omega
    · simp only [ServerMetrics.recordProtocolError]
      omega
  · -- whatever was open has failed
    rw [heq]
    refine h.error hopen .recordInternalError rfl rfl rfl ?_
      ⟨failedSubmits + submits, failedJoins + joins, ?_, ?_, ?_⟩
    · simp only [ServerMetrics.recordInternalError]
      omega
    · simp only [ServerMetrics.recordInternalError]
      omega
    · rw [total_append, total_singleton]
      simp only [ServerMetrics.recordInternalError, errorWeight, decide_eq_true_eq]
      rw [if_neg (by decide)]
      omega
    · simp only [ServerMetrics.recordInternalError]
      omega

/-! ## Joins -/

/-- Builds are counted apart from what is sent. -/
theorem prepareMetrics_frame (s : OperationStore) (rowWritten : Bool) (d : JsString) (barrier : Int)
    (m : ServerMetrics) : ∃ builds failures, s.prepareMetrics rowWritten d barrier m =
      { m with snapshotBuildTotal := builds, snapshotBuildFailuresTotal := failures } := by
  have htry : ∃ builds failures, s.tryBuildMetrics rowWritten d barrier m =
      { m with snapshotBuildTotal := builds, snapshotBuildFailuresTotal := failures } := by
    unfold OperationStore.tryBuildMetrics
    split
    · exact ⟨_, _, rfl⟩
    · split <;> exact ⟨_, _, rfl⟩
  unfold OperationStore.prepareMetrics
  simp only
  split
  · exact ⟨_, _, rfl⟩
  · split
    · split
      · exact ⟨_, _, rfl⟩
      · exact htry
    · split
      · exact htry
      · exact ⟨_, _, rfl⟩

/-- **A bootstrap is counted by what the message says of it.** -/
theorem buildSyncMetrics_spec (s : OperationStore) (rowWritten : Bool) (d : JsString)
    (lastServerSeq : Int) (capable : Bool) (m : ServerMetrics) :
    let built := (s.buildSyncMessage rowWritten d lastServerSeq capable).1
    ∃ builds failures, s.buildSyncMetrics rowWritten d lastServerSeq capable m =
      { m with
        snapshotBuildTotal := builds
        snapshotBuildFailuresTotal := failures
        snapshotBootstrapTotal := m.snapshotBootstrapTotal +
          bootstrapWeight (fun _ _ => 1) (.sync built)
        snapshotBytesSentTotal := m.snapshotBytesSentTotal +
          bootstrapWeight (fun _ b => snapshotBytes b) (.sync built)
        snapshotSuffixOperationsSentTotal := m.snapshotSuffixOperationsSentTotal +
          bootstrapWeight (fun s _ => s.operations.length) (.sync built) } := by
  unfold OperationStore.buildSyncMetrics OperationStore.buildSyncMessage
  simp only
  split
  · exact ⟨_, _, rfl⟩
  · obtain ⟨builds, failures, hm⟩ :=
      prepareMetrics_frame s rowWritten d (s.getLatestServerSeq d) m
    cases hprepared : (s.prepareSnapshotBootstrap rowWritten d (s.getLatestServerSeq d)).1 with
    | none =>
      simp only [hm]
      exact ⟨_, _, rfl⟩
    | some bootstrap =>
      simp only [hm]
      exact ⟨_, _, rfl⟩

/-- **The sync message settles the join.** -/
theorem Reconciled.sendSync (h : Reconciled rows 0 1 w) (hopen : w.readyState k = .opened)
    (env : ServerEnv) (message : JoinMessage) :
    ∃ w', SyncServer.sendSync env w k message = .ok w' ∧ Reconciled rows 0 0 w' := by
  have hheard := h.heard
  obtain ⟨failedSubmits, failedJoins, hfailed, hsubmits, hjoins⟩ := h.settled
  obtain ⟨builds, failures, hm⟩ := buildSyncMetrics_spec w.store.store env.rowWritten
    message.documentId message.lastServerSeq
    (hasSnapshotBootstrapCapability message.capabilities) w.metrics
  have hframe := OperationStore.buildSyncMessage_frame w.store.store env.rowWritten
    message.documentId message.lastServerSeq (hasSnapshotBootstrapCapability message.capabilities)
  refine ⟨_, rfl, ?_⟩
  rw [SyncServer.sendJson_eq, SyncServer.addressed_open]
  swap
  · exact hopen
  -- the store, the messages and the counters after the sync
  obtain ⟨built, hbuilt⟩ : ∃ built, built = w.store.store.buildSyncMessage env.rowWritten
    message.documentId message.lastServerSeq
    (hasSnapshotBootstrapCapability message.capabilities) := ⟨_, rfl⟩
  rw [← hbuilt] at hm hframe
  have hfiled : Filed rows built.2 ((w.store.store.buildSyncMetrics env.rowWritten
      message.documentId message.lastServerSeq
      (hasSnapshotBootstrapCapability message.capabilities) w.metrics).recordSync
        built.1.operations.length) := by
    rw [hm]
    refine ⟨?_, h.filed.appended, ?_⟩
    · rw [hframe.1]
      exact h.filed.stored
    · exact congrArg (· + 1) h.filed.queried
  have hsent : Heard (w.sent ++ [(k, .sync built.1)]) ((w.store.store.buildSyncMetrics env.rowWritten
      message.documentId message.lastServerSeq
      (hasSnapshotBootstrapCapability message.capabilities) w.metrics).recordSync
        built.1.operations.length) := by
    rw [hm]
    simp only [ServerMetrics.recordSync]
    constructor <;> simp only [total_append, total_singleton]
    · rw [hheard.syncs]
      rfl
    · rw [hheard.operations]
      rfl
    · rw [hheard.bootstraps]
    · rw [hheard.suffixes]
    · rw [hheard.bytes]
    · exact hheard.conflicts
    · exact hheard.internal
    · exact hheard.errors
  have hsettled : Settled 0 0 (w.sent ++ [(k, .sync built.1)])
      ((w.store.store.buildSyncMetrics env.rowWritten message.documentId message.lastServerSeq
        (hasSnapshotBootstrapCapability message.capabilities) w.metrics).recordSync
          built.1.operations.length) := by
    rw [hm]
    refine ⟨failedSubmits, failedJoins, hfailed, ?_, ?_⟩
    · simp only [ServerMetrics.recordSync, total_append, total_singleton]
      exact hsubmits
    · simp only [ServerMetrics.recordSync]
      omega
  rw [hbuilt] at hfiled hsent hsettled
  exact ⟨hfiled, hsent, hsettled⟩

/-- More is sent that weighs nothing. -/
theorem Reconciled.withSent (h : Reconciled rows submits joins w) {added : Sent}
    (hadded : ∀ p ∈ added, Unweighed p.2) : Reconciled rows submits joins (w.withSent added) :=
  ⟨h.filed, h.heard.unweighed hadded, h.settled.unweighed hadded⟩

/-- A step of `dispatch`: what it leaves open is settled by the error it throws. -/
def Closes (rows : ℕ) (k : SocketId) (done : MeteredServer × Except JsError Unit) : Prop :=
  match done.2 with
  | .ok () => Reconciled rows 0 0 done.1
  | .error e => done.1.readyState k = .opened ∧ ∃ submits joins,
      submits + joins ≤ 1 ∧ (submits = 0 → Foreign e) ∧ Reconciled rows submits joins done.1

/-- The errors of the store are not of the two classes. -/
def StoreErrors (env : ServerEnv) : Prop :=
  (∀ e, env.latestThrows = some e → Foreign e) ∧ ∀ e, env.syncThrows = some e → Foreign e

theorem Reconciled.joinSocket (h : Reconciled rows 0 0 w) (hopen : w.readyState k = .opened)
    (henv : StoreErrors env) (session : SocketSession) (message : JoinMessage) :
    Closes rows k (SyncServer.joinSocket env w k session message) := by
  unfold SyncServer.joinSocket
  cases hlatest : env.latestThrows with
  | some e => exact ⟨hopen, 0, 0, Nat.zero_le 1, fun _ => henv.1 e hlatest, h⟩
  | none =>
    simp only
    split
    · exact h.recordProtocolError hopen (by decide)
    · have hentered : Reconciled rows 0 1
          ((w.enterRoom k session message).record .recordJoin) := by
        obtain ⟨failedSubmits, failedJoins, hfailed, hsubmits, hjoins⟩ := h.settled
        have hfiled := h.filed
        have hheard := h.heard
        refine ⟨⟨hfiled.stored, hfiled.appended, hfiled.queried⟩, ⟨hheard.syncs,
          hheard.operations, hheard.bootstraps, hheard.suffixes, hheard.bytes, hheard.conflicts,
          hheard.internal, hheard.errors⟩, failedSubmits, failedJoins, hfailed, hsubmits, ?_⟩
        show w.metrics.joinTotal + 1 = w.metrics.syncTotal + failedJoins + 1
        rw [hjoins]
      cases hsync : env.syncThrows with
      | some e => exact ⟨hopen, 0, 1, le_rfl, fun _ => henv.2 e hsync, hentered⟩
      | none =>
        obtain ⟨w', hsent, hsynced⟩ := hentered.sendSync hopen env message
        simp only [hsent]
        show Reconciled rows 0 0 (SyncServer.broadcastPresence env w' message.documentId)
        rw [SyncServer.broadcastPresence_eq]
        exact hsynced.withSent (rosters_unweighed env _ _)

/-! ## Submissions -/

/-- Until it is settled, a submission is open. -/
theorem Reconciled.recordSubmit (h : Reconciled rows 0 0 w) :
    Reconciled rows 1 0 (w.record .recordSubmit) := by
  obtain ⟨failedSubmits, failedJoins, hfailed, hsubmits, hjoins⟩ := h.settled
  have hfiled := h.filed
  have hheard := h.heard
  refine ⟨⟨hfiled.stored, hfiled.appended, hfiled.queried⟩, ⟨hheard.syncs,
    hheard.operations, hheard.bootstraps, hheard.suffixes, hheard.bytes, hheard.conflicts,
    hheard.internal, hheard.errors⟩, failedSubmits, failedJoins, hfailed, ?_, hjoins⟩
  show w.metrics.submitOperationsTotal + 1 = w.metrics.insertedOperationsTotal + _ + _ + _ + _ + 1
  rw [hsubmits]
  rfl

theorem Reconciled.recordDuplicate (h : Reconciled rows 1 0 w) :
    Reconciled rows 0 0 ((w.record .recordAppendDuration).record .recordDuplicate) := by
  obtain ⟨failedSubmits, failedJoins, hfailed, hsubmits, hjoins⟩ := h.settled
  have hfiled := h.filed
  have hheard := h.heard
  refine ⟨⟨hfiled.stored, ?_, hfiled.queried⟩, ⟨hheard.syncs, hheard.operations,
    hheard.bootstraps, hheard.suffixes, hheard.bytes, hheard.conflicts, hheard.internal,
    hheard.errors⟩, failedSubmits, failedJoins, hfailed, ?_, hjoins⟩
  · have := hfiled.appended
    show w.metrics.appendOperationDurationCount + 1 =
      w.metrics.insertedOperationsTotal + (w.metrics.duplicateOperationsTotal + 1)
    omega
  · show w.metrics.submitOperationsTotal = w.metrics.insertedOperationsTotal +
      (w.metrics.duplicateOperationsTotal + 1) + w.metrics.identityConflictsTotal + _ + _ + 0
    rw [hsubmits]
    show _ = _ + _ + _ + total _ w.sent + _ + _
    omega

/-- A row is added, and counted. -/
theorem Reconciled.recordInsert (h : Reconciled rows 1 0 w) (d : JsString)
    (operation : TextOperation) :
    Reconciled rows 0 0 (((w.withStore ⟨w.store.store.insertOperation d operation, w.metrics⟩).record
      .recordAppendDuration).record .recordInsert) := by
  obtain ⟨failedSubmits, failedJoins, hfailed, hsubmits, hjoins⟩ := h.settled
  have hfiled := h.filed
  have hheard := h.heard
  refine ⟨⟨?_, ?_, hfiled.queried⟩, ⟨hheard.syncs, hheard.operations,
    hheard.bootstraps, hheard.suffixes, hheard.bytes, hheard.conflicts, hheard.internal,
    hheard.errors⟩, failedSubmits, failedJoins, hfailed, ?_, hjoins⟩
  · have := hfiled.stored
    show (w.store.store.operations ++ [_]).length = rows + (w.metrics.insertedOperationsTotal + 1)
    rw [List.length_append, List.length_singleton]
    omega
  · have := hfiled.appended
    show w.metrics.appendOperationDurationCount + 1 =
      w.metrics.insertedOperationsTotal + 1 + w.metrics.duplicateOperationsTotal
    omega
  · show w.metrics.submitOperationsTotal = w.metrics.insertedOperationsTotal + 1 +
      w.metrics.duplicateOperationsTotal + w.metrics.identityConflictsTotal + _ + _ + 0
    rw [hsubmits]
    show _ = _ + _ + _ + _ + total _ w.sent + _ + _
    omega

theorem Reconciled.acceptOperation (h : Reconciled rows 0 0 w)
    (hopen : w.readyState k = .opened) (session : SocketSession) (operation : TextOperation) :
    Closes rows k (SyncServer.acceptOperation env w k session operation) := by
  unfold SyncServer.acceptOperation
  cases session.documentId with
  | none => exact h
  | some d =>
    have hsubmitted := h.recordSubmit
    have hthrown : ∀ e, Closes rows k (w.record .recordSubmit, .error e) := by
      intro e
      exact ⟨hopen, 1, 0, le_rfl, fun hnone => absurd hnone one_ne_zero, hsubmitted⟩
    simp only
    cases hvalid : validateOperation operation with
    | error e => exact hthrown e
    | ok u =>
      cases env.appendThrows with
      | some e => exact hthrown e
      | none =>
        simp only
        rw [append_metered]
        cases happend : (w.record .recordSubmit).store.store.appendOperation d operation with
        | error e => exact hthrown e
        | ok appended =>
          obtain ⟨result, store⟩ := appended
          simp only [Except.map]
          obtain ⟨-, ⟨hfound, rfl, -⟩ | ⟨hnew, -, rfl, -⟩⟩ :=
            OperationStore.appendOperation_spec happend
          · rw [if_pos (by rw [hfound]; decide), SyncServer.sendJson_eq]
            refine hsubmitted.recordDuplicate.withSent fun p hp => ?_
            rw [(SyncServer.mem_addressed hp).1]
            trivial
          · rw [if_neg (by rw [hnew]; decide), SyncServer.broadcast_eq]
            refine (hsubmitted.recordInsert d operation).withSent fun p hp => ?_
            obtain ⟨peer, -, rfl⟩ := List.mem_map.1 hp
            trivial

/-! ## Events -/

theorem Reconciled.dispatch (h : Reconciled rows 0 0 w) (hopen : w.readyState k = .opened)
    (henv : StoreErrors env) (session : SocketSession) (message : ClientMessage) :
    Closes rows k (SyncServer.dispatch env w k session message) := by
  have hrefused : ∀ code message, ownCode code = false →
      Closes rows k (w.recordProtocolError k code message, .ok ()) :=
    fun code message hcode => h.recordProtocolError hopen hcode
  unfold SyncServer.dispatch
  cases message with
  | join message =>
    cases session.documentId with
    | none => exact h.joinSocket hopen henv session message
    | some documentId =>
      cases session.clientId with
      | none => exact h.joinSocket hopen henv session message
      | some clientId => exact hrefused _ _ (by decide)
  | submitOperation message =>
    cases session.documentId with
    | none => exact hrefused _ _ (by decide)
    | some documentId =>
      cases session.clientId with
      | none => exact hrefused _ _ (by decide)
      | some clientId =>
        simp only
        split
        · exact hrefused _ _ (by decide)
        · split
          · exact hrefused _ _ (by decide)
          · exact h.acceptOperation hopen session message.operation

theorem Reconciled.handleMessage (h : Reconciled rows 0 0 w)
    (hopen : w.readyState k = .opened) (henv : StoreErrors env) (frame : Frame) :
    Reconciled rows 0 0 (SyncServer.handleMessage env w k frame) := by
  unfold SyncServer.handleMessage
  cases w.sessions.get? k with
  | none => exact h
  | some session =>
    cases frame with
    | notJson => exact h.recordProtocolError hopen (by decide)
    | malformed => exact h.recordProtocolError hopen (by decide)
    | message parsed =>
      cases hparsed : parseClientMessage parsed with
      | none =>
        simp only [hparsed]
        exact h.recordProtocolError hopen (by decide)
      | some message =>
        simp only [hparsed]
        have hcloses := h.dispatch hopen henv session message
        generalize SyncServer.dispatch env w k session message = done at hcloses ⊢
        obtain ⟨w', outcome⟩ := done
        cases outcome with
        | error e =>
          obtain ⟨hopen', submits, joins, hle, hforeign, hw'⟩ := hcloses
          exact hw'.sendCaughtError hopen' hle hforeign
        | ok u => exact hcloses

/-- A socket that leaves a room leaves rosters behind. -/
theorem leaveRoom_unweighed (env : ServerEnv) (w : MeteredServer) (k : SocketId) :
    (SyncServer.leaveRoom env w k).store = w.store ∧
      ∃ added, (SyncServer.leaveRoom env w k).sent = w.sent ++ added ∧
        ∀ p ∈ added, Unweighed p.2 := by
  have hsame : ∃ added, w.sent = w.sent ++ added ∧ ∀ p ∈ added, Unweighed p.2 :=
    ⟨[], (List.append_nil _).symm, fun _ hp => by cases hp⟩
  refine ⟨SyncServer.store_leaveRoom w env k, ?_⟩
  unfold SyncServer.leaveRoom
  split
  · exact hsame
  · split
    · exact hsame
    · split
      · exact hsame
      · simp only
        split
        · exact hsame
        · rw [SyncServer.broadcastPresence_eq]
          exact ⟨_, rfl, rosters_unweighed env _ _⟩

/-- A message that arrives on a socket that is not open. -/
def Unheard (w : MeteredServer) : Event → Prop
  | .message k _ _ => w.readyState k ≠ .opened
  | _ => False

/-- The event tells of no error of the store that is of the two classes. -/
def Ordinary : Event → Prop
  | .message _ _ env => StoreErrors env
  | _ => True

/-- Connections may be counted, and nothing else is. -/
theorem Reconciled.kept (h : Reconciled rows submits joins w) {w' : MeteredServer}
    (hstore : w'.store.store = w.store.store)
    (hmetrics : ∃ connections connected, w'.metrics =
      { w.metrics with wsConnections := connections, wsConnectionsTotal := connected })
    {added : Sent} (hsent : w'.sent = w.sent ++ added) (hadded : ∀ p ∈ added, Unweighed p.2) :
    Reconciled rows submits joins w' := by
  obtain ⟨connections, connected, hmetrics⟩ := hmetrics
  have hfiled := h.filed
  have hheard := h.heard.unweighed hadded
  refine ⟨?_, ?_, ?_⟩
  · rw [hstore, hmetrics]
    exact ⟨hfiled.stored, hfiled.appended, hfiled.queried⟩
  · rw [hsent, hmetrics]
    exact ⟨hheard.syncs, hheard.operations, hheard.bootstraps, hheard.suffixes, hheard.bytes,
      hheard.conflicts, hheard.internal, hheard.errors⟩
  · rw [hsent, hmetrics]
    exact h.settled.unweighed hadded

/-- **Every event keeps the books.** -/
theorem Reconciled.handle (h : Reconciled rows 0 0 w) {e : Event} (hordinary : Ordinary e)
    (hheard : ¬ Unheard w e) : Reconciled rows 0 0 (w.handle e) := by
  have hnone : ∀ p ∈ ([] : Sent), Unweighed p.2 := fun _ hp => by cases hp
  have hsame : ∀ {w' : MeteredServer}, w'.store = w.store → w'.sent = w.sent →
      Reconciled rows 0 0 w' := by
    intro w' hstore hsent
    refine h.kept (by rw [hstore]) ⟨w.metrics.wsConnections, w.metrics.wsConnectionsTotal, ?_⟩
      (hsent.trans (List.append_nil _).symm) hnone
    unfold SyncServer.metrics
    rw [hstore]
  cases e with
  | connection socket connectedAt =>
    simp only [SyncServer.handle]
    split
    · exact h
    · exact h.kept rfl ⟨_, _, rfl⟩ (List.append_nil _).symm hnone
  | message socket frame env => exact h.handleMessage (not_not.1 hheard) hordinary frame
  | close socket env =>
    simp only [SyncServer.handle]
    split
    · obtain ⟨hstore, added, hsent, hadded⟩ :=
        leaveRoom_unweighed env (w.setReadyState socket .closed) socket
      refine h.kept ?_ ⟨w.metrics.recordConnectionClosed.wsConnections,
        w.metrics.wsConnectionsTotal, ?_⟩ hsent hadded
      · show (SyncServer.leaveRoom env (w.setReadyState socket .closed) socket).store.store = _
        rw [hstore]
        rfl
      · show ServerMetrics.recordConnectionClosed
          (SyncServer.leaveRoom env (w.setReadyState socket .closed) socket).store.metrics = _
        rw [hstore]
        rfl
    · exact h
  | closing socket =>
    simp only [SyncServer.handle]
    split
    · exact hsame rfl rfl
    · exact h
  | shutDown => exact hsame rfl rfl
  | shutDownDone =>
    simp only [SyncServer.handle]
    split
    · exact hsame rfl rfl
    · exact h

theorem Reconciled.run : ∀ {w : MeteredServer} (es : List Event), Reconciled rows 0 0 w →
    (∀ e ∈ es, Ordinary e) → Runs.Never SyncServer.handle Unheard w es →
    Reconciled rows 0 0 (w.run es)
  | _, [], h, _, _ => h
  | _, e :: es, h, hordinary, hheard => by
    obtain ⟨he, hordinary⟩ := List.forall_mem_cons.1 hordinary
    obtain ⟨hfirst, hheard⟩ := Runs.never_cons.1 hheard
    exact Reconciled.run es (h.handle he hfirst) hordinary hheard

/-! ## Connections -/

/-- The gauge counts the live sockets; the counter, those that have ever connected. -/
structure Connected (w : MeteredServer) : Prop where
  live : ∃ live : Finset SocketId, live.card = w.metrics.wsConnections ∧
    ∀ k, k ∈ live ↔ w.readyState k = .opened ∨ w.readyState k = .closing
  seen : ∃ seen : Finset SocketId, seen.card = w.metrics.wsConnectionsTotal ∧
    ∀ k, k ∈ seen ↔ w.readyState k ≠ .connecting

theorem Connected.start (store : OperationStore) : Connected (start store) where
  live := ⟨∅, rfl, fun k => ⟨fun h => by simp at h, fun h => by rcases h with h | h <;> cases h⟩⟩
  seen := ⟨∅, rfl, fun k => ⟨fun h => by simp at h, fun h => absurd rfl h⟩⟩

/-- Sockets that close are counted until they are closed. -/
theorem Connected.congr {w w' : MeteredServer} (h : Connected w)
    (hlive : w'.metrics.wsConnections = w.metrics.wsConnections)
    (hseen : w'.metrics.wsConnectionsTotal = w.metrics.wsConnectionsTotal)
    (hready : ∀ k, w'.readyState k = w.readyState k ∨
      w.readyState k = .opened ∧ w'.readyState k = .closing) : Connected w' := by
  obtain ⟨live, hcard, hlives⟩ := h.live
  obtain ⟨seen, hcard', hsees⟩ := h.seen
  constructor
  · refine ⟨live, hcard.trans hlive.symm, fun k => (hlives k).trans ?_⟩
    rcases hready k with hk | ⟨hopen, hclosing⟩
    · rw [hk]
    · exact ⟨fun _ => Or.inr hclosing, fun _ => Or.inl hopen⟩
  · refine ⟨seen, hcard'.trans hseen.symm, fun k => (hsees k).trans ?_⟩
    rcases hready k with hk | ⟨hopen, hclosing⟩
    · rw [hk]
    · rw [hopen, hclosing]
      exact ⟨fun _ => by decide, fun _ => by decide⟩

/-- The counts of connections are the same. -/
def SameConnections (m m' : ServerMetrics) : Prop :=
  m'.wsConnections = m.wsConnections ∧ m'.wsConnectionsTotal = m.wsConnectionsTotal

/-- Sending counts no connection. -/
theorem SameConnections.sendJson {m : ServerMetrics} (h : SameConnections m w.metrics)
    (message : ServerMessage) : SameConnections m (w.sendJson k message).metrics := by
  unfold SyncServer.metrics
  rw [SyncServer.store_sendJson]
  exact h

theorem sameConnections_joinSocket (env : ServerEnv) (w : MeteredServer) (k : SocketId)
    (session : SocketSession) (message : JoinMessage) :
    SameConnections w.metrics (SyncServer.joinSocket env w k session message).1.metrics := by
  unfold SyncServer.joinSocket
  cases env.latestThrows with
  | some e => exact ⟨rfl, rfl⟩
  | none =>
    simp only
    split
    · exact @SameConnections.sendJson (w.record .recordProtocolError) k w.metrics ⟨rfl, rfl⟩ _
    · cases env.syncThrows with
      | some e => exact ⟨rfl, rfl⟩
      | none =>
        obtain ⟨builds, failures, hm⟩ := buildSyncMetrics_spec w.store.store env.rowWritten
          message.documentId message.lastServerSeq
          (hasSnapshotBootstrapCapability message.capabilities) w.metrics.recordJoin
        have hsynced : ∃ w', SyncServer.sendSync env
            ((w.enterRoom k session message).record .recordJoin) k message = .ok w' ∧
            SameConnections w.metrics w'.metrics := by
          refine ⟨_, rfl, SameConnections.sendJson ?_ _⟩
          show SameConnections w.metrics (ServerMetrics.recordSync (w.store.store.buildSyncMetrics
            env.rowWritten message.documentId message.lastServerSeq
            (hasSnapshotBootstrapCapability message.capabilities) w.metrics.recordJoin) _)
          rw [hm]
          exact ⟨rfl, rfl⟩
        obtain ⟨w', hok, hsame⟩ := hsynced
        simp only [hok]
        unfold SyncServer.metrics
        rw [SyncServer.store_broadcastPresence]
        exact hsame

theorem sameConnections_acceptOperation (env : ServerEnv) (w : MeteredServer) (k : SocketId)
    (session : SocketSession) (operation : TextOperation) :
    SameConnections w.metrics (SyncServer.acceptOperation env w k session operation).1.metrics := by
  unfold SyncServer.acceptOperation
  cases session.documentId with
  | none => exact ⟨rfl, rfl⟩
  | some d =>
    simp only
    cases validateOperation operation with
    | error e => exact ⟨rfl, rfl⟩
    | ok u =>
      cases env.appendThrows with
      | some e => exact ⟨rfl, rfl⟩
      | none =>
        simp only
        rw [append_metered]
        cases (w.record .recordSubmit).store.store.appendOperation d operation with
        | error e => exact ⟨rfl, rfl⟩
        | ok appended =>
          simp only [Except.map]
          split
          · exact SameConnections.sendJson ⟨rfl, rfl⟩ _
          · unfold SyncServer.metrics
            simp only
            rw [SyncServer.store_broadcast]
            exact ⟨rfl, rfl⟩

theorem sameConnections_dispatch (env : ServerEnv) (w : MeteredServer) (k : SocketId)
    (session : SocketSession) (message : ClientMessage) :
    SameConnections w.metrics (SyncServer.dispatch env w k session message).1.metrics := by
  have hrefused : ∀ code text,
      SameConnections w.metrics (w.recordProtocolError k code text).metrics := fun code text =>
    @SameConnections.sendJson (w.record .recordProtocolError) k w.metrics ⟨rfl, rfl⟩ _
  unfold SyncServer.dispatch
  cases message with
  | join message =>
    cases session.documentId with
    | none => exact sameConnections_joinSocket env w k session message
    | some documentId =>
      cases session.clientId with
      | none => exact sameConnections_joinSocket env w k session message
      | some clientId => exact hrefused _ _
  | submitOperation message =>
    cases session.documentId with
    | none => exact hrefused _ _
    | some documentId =>
      cases session.clientId with
      | none => exact hrefused _ _
      | some clientId =>
        simp only
        split
        · exact hrefused _ _
        · split
          · exact hrefused _ _
          · exact sameConnections_acceptOperation env w k session message.operation

theorem sameConnections_handleMessage (env : ServerEnv) (w : MeteredServer) (k : SocketId)
    (frame : Frame) :
    SameConnections w.metrics (SyncServer.handleMessage env w k frame).metrics := by
  have hrefused : ∀ code text,
      SameConnections w.metrics (w.recordProtocolError k code text).metrics := fun code text =>
    @SameConnections.sendJson (w.record .recordProtocolError) k w.metrics ⟨rfl, rfl⟩ _
  unfold SyncServer.handleMessage
  cases w.sessions.get? k with
  | none => exact ⟨rfl, rfl⟩
  | some session =>
    cases frame with
    | notJson => exact hrefused _ _
    | malformed => exact hrefused _ _
    | message parsed =>
      cases hparsed : parseClientMessage parsed with
      | none =>
        simp only [hparsed]
        exact hrefused _ _
      | some message =>
        simp only [hparsed]
        have hsame := sameConnections_dispatch env w k session message
        generalize SyncServer.dispatch env w k session message = done at hsame ⊢
        obtain ⟨w', outcome⟩ := done
        cases outcome with
        | error e =>
          rw [SyncServer.caught_error]
          rcases sendCaughtError_cases w' k e with ⟨-, heq⟩ | ⟨-, heq⟩ | ⟨-, heq⟩ <;> rw [heq]
          · exact @SameConnections.sendJson (w'.record .recordIdentityConflict) k _ hsame _
          · exact @SameConnections.sendJson (w'.record .recordProtocolError) k _ hsame _
          · exact @SameConnections.sendJson (w'.record .recordInternalError) k _ hsame _
        | ok u => exact hsame

/-- Messages open and close no socket. -/
theorem readyState_message (env : ServerEnv) (w : MeteredServer) (k : SocketId) (frame : Frame) :
    (w.handle (.message k frame env)).readyState = w.readyState := by
  show (w.handle (.message k frame env)).plain.readyState = w.plain.readyState
  rw [handle_plain]
  cases SyncServer.handle_effect w.plain (.message k frame env) with
  | moved he => cases he
  | quiet added hrooms => exact hrooms.readyState
  | stalled socket session message env added he hsession hnew hschema hthrows hrooms =>
    exact hrooms.readyState
  | synced socket session message env rest he hsession hnew hschema hcursor hrooms =>
    exact hrooms.readyState
  | echoed socket session documentId item env he hsession hdocument hclient hrooms =>
    exact hrooms.readyState
  | appended socket session documentId operation env he hsession hdocument hclient hvalid hschema
      hrooms =>
    exact hrooms.readyState

/-- A socket connects. -/
theorem Connected.opens (h : Connected w) {w' : MeteredServer} {socket : SocketId}
    (hnew : w.readyState socket = .connecting)
    (hmetrics : w'.metrics = w.metrics.recordConnectionOpened)
    (hready : ∀ k, w'.readyState k = if k = socket then .opened else w.readyState k) :
    Connected w' := by
  obtain ⟨live, hcard, hlives⟩ := h.live
  obtain ⟨seen, hcard', hsees⟩ := h.seen
  constructor
  · refine ⟨insert socket live, ?_, fun k => ?_⟩
    · rw [Finset.card_insert_of_notMem, hcard, hmetrics]
      · rfl
      · rw [hlives, hnew]
        decide
    · rw [Finset.mem_insert, hlives, hready]
      split
      · rename_i hk
        exact ⟨fun _ => Or.inl rfl, fun _ => Or.inl hk⟩
      · rename_i hk
        exact ⟨fun h => h.resolve_left hk, Or.inr⟩
  · refine ⟨insert socket seen, ?_, fun k => ?_⟩
    · rw [Finset.card_insert_of_notMem, hcard', hmetrics]
      · rfl
      · rw [hsees, hnew]
        decide
    · rw [Finset.mem_insert, hsees, hready]
      split
      · rename_i hk
        exact ⟨fun _ => by decide, fun _ => Or.inl hk⟩
      · rename_i hk
        exact ⟨fun h => h.resolve_left hk, Or.inr⟩

/-- A live socket has closed. -/
theorem Connected.closes (h : Connected w) {w' : MeteredServer} {socket : SocketId}
    (hlive : w.readyState socket = .opened ∨ w.readyState socket = .closing)
    (hmetrics : w'.metrics = w.metrics.recordConnectionClosed)
    (hready : ∀ k, w'.readyState k = if k = socket then .closed else w.readyState k) :
    Connected w' := by
  obtain ⟨live, hcard, hlives⟩ := h.live
  obtain ⟨seen, hcard', hsees⟩ := h.seen
  constructor
  · refine ⟨live.erase socket, ?_, fun k => ?_⟩
    · rw [Finset.card_erase_of_mem ((hlives socket).2 hlive), hcard, hmetrics]
      exact (Nat.max_eq_right (Nat.zero_le _)).symm
    · rw [Finset.mem_erase, hlives, hready]
      split
      · rename_i hk
        exact ⟨fun h => absurd hk h.1, fun h => by rcases h with h | h <;> cases h⟩
      · rename_i hk
        exact ⟨fun h => h.2, fun h => ⟨hk, h⟩⟩
  · refine ⟨seen, ?_, fun k => ?_⟩
    · rw [hcard', hmetrics]
      rfl
    · rw [hsees, hready]
      split
      · rename_i hk
        rw [hk]
        exact ⟨fun _ => by decide, fun _ => by rcases hlive with h | h <;> rw [h] <;> decide⟩
      · rfl

theorem Connected.handle (h : Connected w) (e : Event) : Connected (w.handle e) := by
  cases e with
  | connection socket connectedAt =>
    simp only [SyncServer.handle]
    split
    · exact h
    · rename_i hnew
      rw [not_or, not_not] at hnew
      exact h.opens hnew.2 rfl fun _ => rfl
  | message socket frame env =>
    obtain ⟨hlive, hseen⟩ := sameConnections_handleMessage env w socket frame
    exact h.congr hlive hseen fun k =>
      Or.inl (congrFun (readyState_message env w socket frame) k)
  | close socket env =>
    simp only [SyncServer.handle]
    split
    · rename_i hlive
      refine h.closes hlive ?_ fun k => ?_
      · show ServerMetrics.recordConnectionClosed
          (SyncServer.leaveRoom env (w.setReadyState socket .closed) socket).store.metrics = _
        rw [SyncServer.store_leaveRoom]
        rfl
      · -- those who are told of it are the peers of the room
        obtain ⟨added, rooms, activeRooms, hleft, -⟩ :=
          SyncServer.leaveRoom_effect env (w.plain.setReadyState socket .closed) socket
        have hplain := SyncServer.leaveRoom_withStore (w.setReadyState socket .closed) w.store.store
          env socket
        have hready := congrArg (fun v : SyncServer => v.readyState) (hplain.symm.trans hleft)
        exact congrFun hready k
    · exact h
  | closing socket =>
    simp only [SyncServer.handle]
    split
    · rename_i hopen
      refine h.congr rfl rfl fun k => ?_
      by_cases hk : k = socket
      · rw [hk]
        exact Or.inr ⟨hopen, if_pos rfl⟩
      · exact Or.inl (if_neg hk)
    · exact h
  | shutDown =>
    refine h.congr rfl rfl fun k => ?_
    by_cases hopen : w.readyState k = .opened
    · exact Or.inr ⟨hopen, if_pos hopen⟩
    · exact Or.inl (if_neg hopen)
  | shutDownDone =>
    simp only [SyncServer.handle]
    split
    · exact h.congr rfl rfl fun k => Or.inl rfl
    · exact h

theorem Connected.run : ∀ {w : MeteredServer} (es : List Event), Connected w → Connected (w.run es)
  | _, [], h => h
  | _, e :: es, h => Connected.run es (h.handle e)

end MeteredServer

end LocalFirst
