import LocalFirst.Server.OperationStore

/-!
# The snapshot manager of the server

Model of `apps/server/src/server-snapshot.ts`.  A snapshot row caches what the replay of a
document's log up to some number exports; it is built, or built again, when at least
`SNAPSHOT_OPERATION_THRESHOLD` operations have no snapshot.  Metrics and log lines are left
out.

* `CacheInv` — every cached row is the export of the log through its number.
* `buildSyncMessage_spec` — what a sync message holds of the log, and what it leaves cached.
* `OperationStore.Reachable` — the stores that appends and sync messages lead to.
-/

set_option autoImplicit false

namespace LocalFirst

def SNAPSHOT_OPERATION_THRESHOLD : Nat := 1000

def SERVER_SNAPSHOT_ENVELOPE_VERSION : Int := 1

structure ServerSnapshotPayload where
  documentId : JsString
  snapshotSeq : Int
  snapshot : TextReplicaSnapshot

/-- `exportPrefixSnapshot`. -/
def exportPrefixSnapshot (operations : List SequencedOperation) : Except JsError TextReplicaSnapshot :=
  match TextReplica.empty.applyAll (operations.map (·.operation)) with
  | (_, .error e) => .error e
  | (replica, .ok ()) =>
    if replica.getUnresolvedOperationIds.length > 0 then
      .error (unresolvedReplicaSnapshotError replica.getUnresolvedOperationIds)
    else replica.exportSnapshot

/-- What the replay of a list of operations exports stands for these operations. -/
theorem exportPrefixSnapshot_sound {items : List SequencedOperation} {snapshot : TextReplicaSnapshot}
    (h : exportPrefixSnapshot items = .ok snapshot) : TextReplica.SnapshotCoherent snapshot ∧
      TextReplica.snapshotOps snapshot = {op | op ∈ items.map (·.operation)} := by
  obtain ⟨hinv, -, hops⟩ := TextReplica.applyAll_spec (items.map (·.operation)) TextReplica.Inv.empty
  unfold exportPrefixSnapshot at h
  split at h
  · cases h
  · rename_i replica ha
    rw [ha] at hinv hops
    have hops := hops rfl
    rw [TextReplica.ops_empty, Set.empty_union] at hops
    split at h
    · cases h
    · rename_i hlen
      have hres : replica.getUnresolvedOperationIds = [] := List.length_eq_zero_iff.1 (by omega)
      obtain ⟨s, hs, hcoh, hsops⟩ := TextReplica.exportSnapshot_coherent hinv hres
      rw [h] at hs
      cases hs
      exact ⟨hcoh, hsops.trans hops⟩

namespace OperationStore

/-- `loadValidSnapshot`: a row that is malformed or does not restore is ignored. -/
def loadValidSnapshot (s : OperationStore) (documentId : JsString) : Option ServerSnapshotPayload :=
  match s.loadSnapshotRow documentId with
  | none => none
  | some row =>
    if row.snapshotVersion ≠ SERVER_SNAPSHOT_ENVELOPE_VERSION ∨ row.snapshotSeq < 1 then none
    else match TextReplica.fromSnapshot row.snapshot with
      | .error _ => none
      | .ok _ => some ⟨documentId, row.snapshotSeq, row.snapshot⟩

/-- `tryBuildSnapshot`; `rowWritten` says whether the row could be written.  Whatever goes wrong,
there is no new snapshot. -/
def tryBuildSnapshot (s : OperationStore) (rowWritten : Bool) (documentId : JsString)
    (barrier : Int) : Option ServerSnapshotPayload × OperationStore :=
  match exportPrefixSnapshot (s.loadOperationsThrough documentId barrier) with
  | .error _ => (none, s)
  | .ok snapshot =>
    if rowWritten then
      (some ⟨documentId, barrier, snapshot⟩,
        s.saveSnapshotRow ⟨documentId, barrier, SERVER_SNAPSHOT_ENVELOPE_VERSION, snapshot⟩)
    else (none, s)

def prepareSnapshotBootstrap (s : OperationStore) (rowWritten : Bool) (documentId : JsString)
    (barrier : Int) : Option ServerSnapshotPayload × OperationStore :=
  let historyCount := s.countOperations documentId
  if historyCount = 0 ∨ barrier < 1 then (none, s)
  else match s.loadValidSnapshot documentId with
    | none =>
      if historyCount < SNAPSHOT_OPERATION_THRESHOLD then (none, s)
      else s.tryBuildSnapshot rowWritten documentId barrier
    | some existing =>
      let suffixCount := s.countOperationsAfter documentId existing.snapshotSeq barrier
      if suffixCount ≥ SNAPSHOT_OPERATION_THRESHOLD then
        let built := s.tryBuildSnapshot rowWritten documentId barrier
        (some (built.1.getD existing), built.2)
      else (some existing, s)

def fullHistorySync (s : OperationStore) (documentId : JsString) (lastServerSeq barrier : Int) :
    SyncMessage :=
  ⟨documentId, s.loadOperationsAfter documentId lastServerSeq barrier, barrier, none⟩

def buildSyncMessage (s : OperationStore) (rowWritten : Bool) (documentId : JsString)
    (lastServerSeq : Int) (snapshotCapable : Bool) : SyncMessage × OperationStore :=
  let barrier := s.getLatestServerSeq documentId
  if ¬ snapshotCapable ∨ lastServerSeq > 0 then
    (s.fullHistorySync documentId lastServerSeq barrier, s)
  else
    let prepared := s.prepareSnapshotBootstrap rowWritten documentId barrier
    match prepared.1 with
    | none => (prepared.2.fullHistorySync documentId lastServerSeq barrier, prepared.2)
    | some bootstrap =>
      (⟨documentId, prepared.2.loadOperationsAfter documentId bootstrap.snapshotSeq barrier, barrier,
        some ⟨SERVER_SNAPSHOT_ENVELOPE_VERSION, bootstrap.snapshotSeq, bootstrap.snapshot⟩⟩,
        prepared.2)

/-! ## What is cached -/

/-- Every cached row is the export of the log of its document through its number. -/
def CacheInv (s : OperationStore) : Prop :=
  ∀ d row, s.snapshots.get? d = some row → 1 ≤ row.snapshotSeq ∧
    row.snapshotSeq ≤ s.getLatestServerSeq d ∧
    exportPrefixSnapshot (between SequencedOperation.serverSeq 0 row.snapshotSeq (s.log d)) =
      .ok row.snapshot

theorem CacheInv.empty : CacheInv empty := fun _ _ h => by cases h

theorem getLatestServerSeq_insertOperation {s : OperationStore} (h : LogInv s)
    (documentId d : JsString) (operation : TextOperation) :
    s.getLatestServerSeq d ≤ (s.insertOperation documentId operation).getLatestServerSeq d := by
  obtain ⟨-, ⟨-, h0⟩ | ⟨item, hi, heq⟩⟩ := s.latest_spec d
  · obtain ⟨-, ⟨-, h0'⟩ | ⟨item, hi, heq⟩⟩ := (s.insertOperation documentId operation).latest_spec d
    · omega
    · rw [log_insertOperation] at hi
      rw [h0, ← heq]
      split at hi
      · rcases List.mem_append.1 hi with hi | hi
        · have := h.log_bounds hi
          omega
        · rw [List.mem_singleton.1 hi]
          have := h.nonneg
          simp only
          omega
      · have := h.log_bounds hi
        omega
  · rw [← heq]
    refine ((s.insertOperation documentId operation).latest_spec d).1 item ?_
    rw [log_insertOperation]
    split
    · exact List.mem_append_left _ hi
    · exact hi

/-- Appending to the log changes no part that a cached row stands for. -/
theorem between_insertOperation {s : OperationStore} (documentId d : JsString)
    (operation : TextOperation) {after through : Int} (hle : through ≤ s.lastServerSeq) :
    between SequencedOperation.serverSeq after through
        ((s.insertOperation documentId operation).log d) =
      between SequencedOperation.serverSeq after through (s.log d) := by
  rw [log_insertOperation]
  split
  · refine between_append fun item hi => ?_
    rw [List.mem_singleton.1 hi]
    simp only
    omega
  · rfl

theorem CacheInv.insertOperation {s : OperationStore} (h : CacheInv s) (hlog : LogInv s)
    (documentId : JsString) (operation : TextOperation) :
    CacheInv (s.insertOperation documentId operation) := by
  intro d row hrow
  obtain ⟨hpos, hle, hexport⟩ := h d row hrow
  refine ⟨hpos, hle.trans (getLatestServerSeq_insertOperation hlog _ _ _), ?_⟩
  rw [between_insertOperation _ _ _ (hle.trans (hlog.latest_bounds d).2)]
  exact hexport

theorem CacheInv.appendOperation {s s' : OperationStore} {documentId : JsString}
    {operation : TextOperation} {result : AppendOperationResult} (h : CacheInv s) (hlog : LogInv s)
    (happ : s.appendOperation documentId operation = .ok (result, s')) : CacheInv s' := by
  obtain ⟨-, ⟨-, rfl, -⟩ | ⟨-, -, rfl, -⟩⟩ := appendOperation_spec happ
  · exact h
  · exact h.insertOperation hlog _ _

/-- The snapshot that a sync message for the log of `documentId` may carry. -/
structure Bootstraps (s : OperationStore) (documentId : JsString) (snapshotSeq : Int)
    (snapshot : TextReplicaSnapshot) : Prop where
  positive : 1 ≤ snapshotSeq
  through : snapshotSeq ≤ s.getLatestServerSeq documentId
  exported : exportPrefixSnapshot
    (between SequencedOperation.serverSeq 0 snapshotSeq (s.log documentId)) = .ok snapshot

section

variable {s : OperationStore} (hlog : LogInv s) (h : CacheInv s)
include hlog h

theorem tryBuildSnapshot_spec (rowWritten : Bool) {documentId : JsString} {barrier : Int}
    (hb : barrier = s.getLatestServerSeq documentId) (hpos : 1 ≤ barrier) :
    CacheInv (s.tryBuildSnapshot rowWritten documentId barrier).2 ∧
      (s.tryBuildSnapshot rowWritten documentId barrier).2.operations = s.operations ∧
      (s.tryBuildSnapshot rowWritten documentId barrier).2.lastServerSeq = s.lastServerSeq ∧
      ∀ payload, (s.tryBuildSnapshot rowWritten documentId barrier).1 = some payload →
        Bootstraps s documentId payload.snapshotSeq payload.snapshot := by
  unfold tryBuildSnapshot
  split
  · exact ⟨h, rfl, rfl, fun _ he => by cases he⟩
  · rename_i snapshot hexport
    rw [hlog.loadOperationsThrough_eq] at hexport
    split
    · refine ⟨fun d row hrow => ?_, rfl, rfl, fun payload he => ?_⟩
      · simp only [saveSnapshotRow, Table.get?_put] at hrow
        split at hrow
        · rename_i hd
          cases hrow
          rw [← hd]
          exact ⟨hpos, le_of_eq hb, hexport⟩
        · exact h d row hrow
      · cases he
        exact ⟨hpos, le_of_eq hb, hexport⟩
    · exact ⟨h, rfl, rfl, fun _ he => by cases he⟩

omit hlog in
theorem loadValidSnapshot_spec {documentId : JsString} {payload : ServerSnapshotPayload}
    (hp : s.loadValidSnapshot documentId = some payload) :
    Bootstraps s documentId payload.snapshotSeq payload.snapshot := by
  unfold loadValidSnapshot at hp
  split at hp
  · cases hp
  · rename_i row hrow
    split at hp
    · cases hp
    · split at hp
      · cases hp
      · cases hp
        obtain ⟨hpos, hle, hexport⟩ := h documentId row hrow
        exact ⟨hpos, hle, hexport⟩

theorem prepareSnapshotBootstrap_spec (rowWritten : Bool) {documentId : JsString} {barrier : Int}
    (hb : barrier = s.getLatestServerSeq documentId) :
    CacheInv (s.prepareSnapshotBootstrap rowWritten documentId barrier).2 ∧
      (s.prepareSnapshotBootstrap rowWritten documentId barrier).2.operations = s.operations ∧
      (s.prepareSnapshotBootstrap rowWritten documentId barrier).2.lastServerSeq = s.lastServerSeq ∧
      ∀ payload, (s.prepareSnapshotBootstrap rowWritten documentId barrier).1 = some payload →
        Bootstraps s documentId payload.snapshotSeq payload.snapshot := by
  unfold prepareSnapshotBootstrap
  simp only
  split
  · exact ⟨h, rfl, rfl, fun _ he => by cases he⟩
  · rename_i hne
    rw [not_or, not_lt] at hne
    have hbuild := tryBuildSnapshot_spec hlog h rowWritten hb hne.2
    split
    · split
      · exact ⟨h, rfl, rfl, fun _ he => by cases he⟩
      · exact hbuild
    · rename_i existing hexisting
      have hcached := loadValidSnapshot_spec h hexisting
      split
      · refine ⟨hbuild.1, hbuild.2.1, hbuild.2.2.1, fun payload he => ?_⟩
        cases hbuilt : (s.tryBuildSnapshot rowWritten documentId barrier).1 with
        | none =>
          rw [hbuilt] at he
          cases he
          exact hcached
        | some built =>
          rw [hbuilt] at he
          cases he
          exact hbuild.2.2.2 _ hbuilt
      · exact ⟨h, rfl, rfl, fun payload he => by cases he; exact hcached⟩

end

/-- What a sync message holds of the log of a document, for a client at `lastServerSeq`. -/
structure SyncsLog (s : OperationStore) (documentId : JsString) (lastServerSeq : Int)
    (snapshotCapable : Bool) (m : SyncMessage) : Prop where
  document : m.documentId = documentId
  latest : m.latestServerSeq = s.getLatestServerSeq documentId
  history : m.snapshotBootstrap = none → m.operations =
    between SequencedOperation.serverSeq lastServerSeq m.latestServerSeq (s.log documentId)
  capable : m.snapshotBootstrap.isSome = true → snapshotCapable = true ∧ lastServerSeq ≤ 0
  bootstrap : ∀ b, m.snapshotBootstrap = some b → b.version = SERVER_SNAPSHOT_ENVELOPE_VERSION ∧
    Bootstraps s documentId b.snapshotSeq b.snapshot ∧ m.operations =
      between SequencedOperation.serverSeq b.snapshotSeq m.latestServerSeq (s.log documentId)

/-- **What `buildSyncMessage` sends, and what it leaves cached.** -/
theorem buildSyncMessage_spec {s : OperationStore} (hlog : LogInv s) (h : CacheInv s)
    (rowWritten : Bool) (documentId : JsString) (lastServerSeq : Int) (snapshotCapable : Bool) :
    SyncsLog s documentId lastServerSeq snapshotCapable
        (s.buildSyncMessage rowWritten documentId lastServerSeq snapshotCapable).1 ∧
      CacheInv (s.buildSyncMessage rowWritten documentId lastServerSeq snapshotCapable).2 ∧
      (s.buildSyncMessage rowWritten documentId lastServerSeq snapshotCapable).2.operations =
        s.operations ∧
      (s.buildSyncMessage rowWritten documentId lastServerSeq snapshotCapable).2.lastServerSeq =
        s.lastServerSeq := by
  have hfull : ∀ s' : OperationStore, s'.operations = s.operations →
      SyncsLog s documentId lastServerSeq snapshotCapable
        (s'.fullHistorySync documentId lastServerSeq (s.getLatestServerSeq documentId)) := by
    intro s' hs
    refine ⟨rfl, rfl, fun _ => ?_, fun hb => by (cases hb), fun _ hb => by cases hb⟩
    show s'.loadOperationsAfter _ _ _ = _
    rw [loadOperationsAfter_eq]
    unfold log
    rw [hs]
    rfl
  obtain ⟨hcache, hops, hseq, hpayload⟩ := prepareSnapshotBootstrap_spec hlog h rowWritten
    (rfl : s.getLatestServerSeq documentId = _)
  unfold buildSyncMessage
  simp only
  split
  · exact ⟨hfull s rfl, h, rfl, rfl⟩
  · rename_i hcapable
    rw [not_or, not_not] at hcapable
    split
    · exact ⟨hfull _ hops, hcache, hops, hseq⟩
    · rename_i payload hp
      refine ⟨⟨rfl, rfl, fun hb => by (cases hb), fun _ => ⟨hcapable.1, not_lt.1 hcapable.2⟩,
        fun b hb => ?_⟩, hcache, hops, hseq⟩
      cases hb
      refine ⟨rfl, hpayload payload hp, ?_⟩
      rw [loadOperationsAfter_eq]
      unfold log
      rw [hops]

/-- From the threshold on, a log without a cached row is answered with a snapshot of all of it, when
its replay can be exported and the row written. -/
theorem LogInv.bootstraps {s : OperationStore} (hlog : LogInv s) {documentId : JsString}
    (hcached : s.snapshots.get? documentId = none)
    (hcount : SNAPSHOT_OPERATION_THRESHOLD ≤ (s.log documentId).length)
    {snapshot : TextReplicaSnapshot} (hexport : exportPrefixSnapshot (s.log documentId) = .ok snapshot) :
    (s.buildSyncMessage true documentId 0 true).1 =
      ⟨documentId, [], s.getLatestServerSeq documentId,
        some ⟨SERVER_SNAPSHOT_ENVELOPE_VERSION, s.getLatestServerSeq documentId, snapshot⟩⟩ := by
  have hmember := fun item => @LogInv.log_bounds s hlog documentId item
  have hwhole : between SequencedOperation.serverSeq 0 (s.getLatestServerSeq documentId)
      (s.log documentId) = s.log documentId :=
    between_eq_self fun item hi => ⟨by have := hmember item hi; omega, (s.latest_spec _).1 item hi⟩
  have hrows : s.countOperations documentId = (s.log documentId).length :=
    (List.length_map mapOperationRow).symm
  have hpos : 1 ≤ s.getLatestServerSeq documentId := by
    obtain ⟨item, hi⟩ := List.exists_mem_of_length_pos
      (lt_of_lt_of_le (by decide : 0 < SNAPSHOT_OPERATION_THRESHOLD) hcount)
    exact (hmember item hi).1.trans ((s.latest_spec _).1 item hi)
  have hcounted : ¬ ((s.log documentId).length = 0 ∨ s.getLatestServerSeq documentId < 1) := by
    rw [SNAPSHOT_OPERATION_THRESHOLD] at hcount
    omega
  have hbuilt : s.prepareSnapshotBootstrap true documentId (s.getLatestServerSeq documentId) =
      (some ⟨documentId, s.getLatestServerSeq documentId, snapshot⟩, s.saveSnapshotRow
        ⟨documentId, s.getLatestServerSeq documentId, SERVER_SNAPSHOT_ENVELOPE_VERSION, snapshot⟩) := by
    simp only [prepareSnapshotBootstrap, hrows, if_neg hcounted, loadValidSnapshot, loadSnapshotRow,
      hcached, if_neg (not_lt.2 hcount), tryBuildSnapshot, hlog.loadOperationsThrough_eq, hwhole,
      hexport, if_true]
  have hrest : between SequencedOperation.serverSeq (s.getLatestServerSeq documentId)
      (s.getLatestServerSeq documentId) (s.log documentId) = [] := between_eq_nil (le_refl _)
  simp only [buildSyncMessage, not_true_eq_false, false_or, gt_iff_lt, lt_irrefl, if_false, hbuilt]
  rw [loadOperationsAfter_eq]
  exact congrArg (SyncMessage.mk documentId · _ _) hrest

/-- What a sync message still says of the log of its document after later appends. -/
structure Describes (s : OperationStore) (cursor : Int) (m : SyncMessage) : Prop where
  latest : 0 ≤ m.latestServerSeq ∧ m.latestServerSeq ≤ s.lastServerSeq
  history : m.snapshotBootstrap = none → m.operations =
    between SequencedOperation.serverSeq cursor m.latestServerSeq (s.log m.documentId)
  bootstrap : ∀ b, m.snapshotBootstrap = some b → cursor ≤ 0 ∧
    b.version = SERVER_SNAPSHOT_ENVELOPE_VERSION ∧
    (1 ≤ b.snapshotSeq ∧ b.snapshotSeq ≤ m.latestServerSeq) ∧
    exportPrefixSnapshot
      (between SequencedOperation.serverSeq 0 b.snapshotSeq (s.log m.documentId)) = .ok b.snapshot ∧
    m.operations =
      between SequencedOperation.serverSeq b.snapshotSeq m.latestServerSeq (s.log m.documentId)

theorem SyncsLog.describes {s : OperationStore} (hlog : LogInv s) {documentId : JsString}
    {cursor : Int} {capable : Bool} {m : SyncMessage} (h : s.SyncsLog documentId cursor capable m) :
    s.Describes cursor m := by
  have hbounds := hlog.latest_bounds documentId
  obtain ⟨rfl, hlatest, hhistory, hcapable, hbootstrap⟩ := h
  rw [← hlatest] at hbounds
  refine ⟨hbounds, hhistory, fun b hb => ?_⟩
  obtain ⟨hversion, hboot, hitems⟩ := hbootstrap b hb
  have hthrough := hboot.through
  rw [← hlatest] at hthrough
  exact ⟨(hcapable (by rw [hb]; rfl)).2, hversion, ⟨hboot.positive, hthrough⟩, hboot.exported, hitems⟩

theorem Describes.insertOperation {s : OperationStore} {cursor : Int} {m : SyncMessage}
    (h : s.Describes cursor m) (documentId : JsString) (operation : TextOperation) :
    (s.insertOperation documentId operation).Describes cursor m := by
  obtain ⟨hlatest, hhistory, hbootstrap⟩ := h
  have hlast : (s.insertOperation documentId operation).lastServerSeq = s.lastServerSeq + 1 := rfl
  refine ⟨⟨hlatest.1, by omega⟩, fun hb => ?_, fun b hb => ?_⟩
  · rw [between_insertOperation _ _ _ hlatest.2]
    exact hhistory hb
  · obtain ⟨hcursor, hversion, hseq, hexport, hitems⟩ := hbootstrap b hb
    rw [between_insertOperation _ _ _ (hseq.2.trans hlatest.2), between_insertOperation _ _ _ hlatest.2]
    exact ⟨hcursor, hversion, hseq, hexport, hitems⟩

theorem LogInv.buildSyncMessage {s : OperationStore} (hlog : LogInv s) (h : CacheInv s)
    (rowWritten : Bool) (documentId : JsString) (lastServerSeq : Int) (snapshotCapable : Bool) :
    LogInv (s.buildSyncMessage rowWritten documentId lastServerSeq snapshotCapable).2 := by
  obtain ⟨-, -, hops, hseq⟩ := buildSyncMessage_spec hlog h rowWritten documentId lastServerSeq
    snapshotCapable
  exact hlog.congr hops hseq

/-! ## Reachable stores -/

/-- The stores that appends and sync messages lead to. -/
inductive Reachable : OperationStore → Prop
  | empty : Reachable OperationStore.empty
  | append {s s' : OperationStore} (documentId : JsString) (operation : TextOperation)
      {result : AppendOperationResult} (h : Reachable s)
      (happ : s.appendOperation documentId operation = .ok (result, s')) : Reachable s'
  | sync {s : OperationStore} (rowWritten : Bool) (documentId : JsString) (lastServerSeq : Int)
      (snapshotCapable : Bool) (h : Reachable s) :
      Reachable (s.buildSyncMessage rowWritten documentId lastServerSeq snapshotCapable).2

theorem Reachable.inv {s : OperationStore} (h : s.Reachable) : s.LogInv ∧ s.CacheInv := by
  induction h with
  | empty => exact ⟨LogInv.empty, CacheInv.empty⟩
  | append documentId operation _ happ ih =>
    exact ⟨ih.1.appendOperation happ, ih.2.appendOperation ih.1 happ⟩
  | sync rowWritten documentId lastServerSeq snapshotCapable _ ih =>
    exact ⟨ih.1.buildSyncMessage ih.2 rowWritten documentId lastServerSeq snapshotCapable,
      (buildSyncMessage_spec ih.1 ih.2 rowWritten documentId lastServerSeq snapshotCapable).2.1⟩

end OperationStore

end LocalFirst
