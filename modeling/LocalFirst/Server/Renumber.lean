import LocalFirst.Lib.Renumbering
import LocalFirst.Server.Snapshot

/-!
# Renumbering the log of a document

The store numbers the operations of all documents in one sequence, but whatever it answers about one
document depends on the order of that document's numbers only.

* `Renumbered` — two stores hold the same log of a document, up to a renumbering.
* `Renumbered.buildSyncMessage` — they build the same sync message, up to it, and stay so.
-/

set_option autoImplicit false

namespace LocalFirst

/-! ## Messages -/

section

variable (φ : Int → Int)

def SequencedOperation.renumber (item : SequencedOperation) : SequencedOperation :=
  { item with serverSeq := φ item.serverSeq }

def SnapshotBootstrap.renumber (bootstrap : SnapshotBootstrap) : SnapshotBootstrap :=
  { bootstrap with snapshotSeq := φ bootstrap.snapshotSeq }

def SyncMessage.renumber (m : SyncMessage) : SyncMessage :=
  { m with
    operations := m.operations.map (·.renumber φ)
    latestServerSeq := φ m.latestServerSeq
    snapshotBootstrap := m.snapshotBootstrap.map (·.renumber φ) }

def OperationMessage.renumber (m : OperationMessage) : OperationMessage :=
  { m with serverSeq := φ m.serverSeq }

/-- `serverSeq`, `snapshotSeq` and `latestServerSeq` alike. -/
def ServerMessage.renumber : ServerMessage → ServerMessage
  | .sync m => .sync (m.renumber φ)
  | .operation m => .operation (m.renumber φ)
  | .presence m => .presence m
  | .error m => .error m

/-- The sequence numbers of a message. -/
def ServerMessage.numbers : ServerMessage → List Int
  | .sync m => m.latestServerSeq ::
      (m.operations.map (·.serverSeq) ++ (m.snapshotBootstrap.map (·.snapshotSeq)).toList)
  | .operation m => [m.serverSeq]
  | .presence _ => []
  | .error _ => []

def JoinMessage.renumber (m : JoinMessage) : JoinMessage :=
  { m with lastServerSeq := φ m.lastServerSeq }

def ServerSnapshotRow.renumber (row : ServerSnapshotRow) : ServerSnapshotRow :=
  { row with snapshotSeq := φ row.snapshotSeq }

def ServerSnapshotPayload.renumber (payload : ServerSnapshotPayload) : ServerSnapshotPayload :=
  { payload with snapshotSeq := φ payload.snapshotSeq }

end

namespace OperationStore

/-! ## What a sync message leaves cached -/

theorem tryBuildSnapshot_store (s : OperationStore) (rowWritten : Bool) (documentId : JsString)
    (barrier : Int) : (s.tryBuildSnapshot rowWritten documentId barrier).2 = s ∨
      ∃ snapshot, (s.tryBuildSnapshot rowWritten documentId barrier).2 =
        s.saveSnapshotRow ⟨documentId, barrier, SERVER_SNAPSHOT_ENVELOPE_VERSION, snapshot⟩ := by
  unfold tryBuildSnapshot
  split
  · exact Or.inl rfl
  · rename_i snapshot _
    split
    · exact Or.inr ⟨snapshot, rfl⟩
    · exact Or.inl rfl

/-- The store is left as it is, or with a new snapshot row at the latest number. -/
theorem buildSyncMessage_store (s : OperationStore) (rowWritten : Bool) (documentId : JsString)
    (lastServerSeq : Int) (snapshotCapable : Bool) :
    (s.buildSyncMessage rowWritten documentId lastServerSeq snapshotCapable).2 = s ∨
      1 ≤ s.getLatestServerSeq documentId ∧ ∃ snapshot,
        (s.buildSyncMessage rowWritten documentId lastServerSeq snapshotCapable).2 =
          s.saveSnapshotRow ⟨documentId, s.getLatestServerSeq documentId,
            SERVER_SNAPSHOT_ENVELOPE_VERSION, snapshot⟩ := by
  have hprepared : ∀ barrier, (s.prepareSnapshotBootstrap rowWritten documentId barrier).2 = s ∨
      1 ≤ barrier ∧ ∃ snapshot, (s.prepareSnapshotBootstrap rowWritten documentId barrier).2 =
        s.saveSnapshotRow ⟨documentId, barrier, SERVER_SNAPSHOT_ENVELOPE_VERSION, snapshot⟩ := by
    intro barrier
    have hbuilt := s.tryBuildSnapshot_store rowWritten documentId barrier
    unfold prepareSnapshotBootstrap
    simp only
    split
    · exact Or.inl rfl
    · rename_i hne
      rw [not_or, not_lt] at hne
      split
      · split
        · exact Or.inl rfl
        · exact hbuilt.imp_right fun h => ⟨hne.2, h⟩
      · split
        · exact hbuilt.imp_right fun h => ⟨hne.2, h⟩
        · exact Or.inl rfl
  unfold buildSyncMessage
  simp only
  split
  · exact Or.inl rfl
  · split <;> exact hprepared _

/-- Building a sync message changes no operation, and no snapshot of another document. -/
theorem buildSyncMessage_frame (s : OperationStore) (rowWritten : Bool) (documentId : JsString)
    (lastServerSeq : Int) (snapshotCapable : Bool) :
    (s.buildSyncMessage rowWritten documentId lastServerSeq snapshotCapable).2.operations =
        s.operations ∧
      ∀ d, documentId ≠ d →
        (s.buildSyncMessage rowWritten documentId lastServerSeq snapshotCapable).2.snapshots.get? d =
          s.snapshots.get? d := by
  rcases s.buildSyncMessage_store rowWritten documentId lastServerSeq snapshotCapable with
    heq | ⟨-, snapshot, heq⟩ <;> rw [heq]
  · exact ⟨rfl, fun _ _ => rfl⟩
  · refine ⟨rfl, fun d hne => ?_⟩
    simp only [saveSnapshotRow, Table.get?_put, if_neg hne]

/-- A cached row stands at a number of the log. -/
def CachedAtRow (s : OperationStore) (documentId : JsString) : Prop :=
  ∀ row, s.snapshots.get? documentId = some row →
    ∃ item ∈ s.log documentId, item.serverSeq = row.snapshotSeq

theorem CachedAtRow.insertOperation {s : OperationStore} {d : JsString} (h : s.CachedAtRow d)
    (documentId : JsString) (operation : TextOperation) :
    (s.insertOperation documentId operation).CachedAtRow d := by
  intro row hrow
  obtain ⟨item, hitem, hseq⟩ := h row hrow
  refine ⟨item, ?_, hseq⟩
  rw [log_insertOperation]
  split
  · exact List.mem_append_left _ hitem
  · exact hitem

theorem Reachable.cachedAtRow {s : OperationStore} (h : s.Reachable) (d : JsString) :
    s.CachedAtRow d := by
  induction h with
  | empty => exact fun row hrow => by cases hrow
  | append documentId operation _ happ ih =>
    obtain ⟨-, ⟨-, rfl, -⟩ | ⟨-, -, rfl, -⟩⟩ := appendOperation_spec happ
    · exact ih
    · exact ih.insertOperation _ _
  | @sync s rowWritten documentId lastServerSeq snapshotCapable _ ih =>
    rcases s.buildSyncMessage_store rowWritten documentId lastServerSeq snapshotCapable with
      heq | ⟨hpos, snapshot, heq⟩ <;> rw [heq]
    · exact ih
    · intro row hrow
      simp only [saveSnapshotRow, Table.get?_put] at hrow
      split at hrow
      · rename_i hd
        cases hrow
        obtain ⟨-, ⟨-, hzero⟩ | hitem⟩ := s.latest_spec documentId
        · omega
        · rw [← hd]
          exact hitem
      · exact ih row hrow

/-- The logs, and what is cached of them, are the same up to `φ`, which keeps the order of the
numbers in `S`. -/
structure Renumbered (φ : Int → Int) (S : Set Int) (documentId : JsString)
    (s s' : OperationStore) : Prop where
  mono : StrictMonoOn φ S
  zero : φ 0 = 0
  zero_mem : 0 ∈ S
  numbers : ∀ item ∈ s.log documentId, item.serverSeq ∈ S
  log : s'.log documentId = (s.log documentId).map (·.renumber φ)
  cached : s.CachedAtRow documentId
  snapshot : s'.snapshots.get? documentId = (s.snapshots.get? documentId).map (·.renumber φ)

/-- Two stores hold the same of a document, up to the numbers. -/
def SameDocument (d : JsString) (s s' : OperationStore) : Prop := ∃ φ S, Renumbered φ S d s s'

/-- A store holds the same as itself, whatever it holds of other documents. -/
theorem Reachable.sameDocument {s : OperationStore} (h : s.Reachable) (d : JsString) :
    SameDocument d s s :=
  ⟨id, Set.univ, strictMonoOn_id, rfl, trivial, fun _ _ => trivial, (List.map_id _).symm,
    h.cachedAtRow d, Option.map_id'.symm⟩

section

variable {φ : Int → Int} {S : Set Int} {d : JsString} {s s' : OperationStore}
  (h : Renumbered φ S d s s')
include h

/-- Only the logs of the document, and what is cached of them, matter. -/
theorem Renumbered.congr {t t' : OperationStore} (hlog : t.log d = s.log d)
    (hsnapshot : t.snapshots.get? d = s.snapshots.get? d) (hlog' : t'.log d = s'.log d)
    (hsnapshot' : t'.snapshots.get? d = s'.snapshots.get? d) : Renumbered φ S d t t' where
  mono := h.mono
  zero := h.zero
  zero_mem := h.zero_mem
  numbers := by
    rw [hlog]
    exact h.numbers
  log := by
    rw [hlog, hlog']
    exact h.log
  cached := by
    unfold CachedAtRow
    rw [hlog, hsnapshot]
    exact h.cached
  snapshot := by
    rw [hsnapshot, hsnapshot']
    exact h.snapshot

/-- Only the numbers of the log matter. -/
theorem Renumbered.transfer {ψ : Int → Int} {T : Set Int} (hmono : StrictMonoOn ψ T)
    (hzero : ψ 0 = 0) (hzero_mem : 0 ∈ T)
    (hlog : ∀ item ∈ s.log d, item.serverSeq ∈ T ∧ ψ item.serverSeq = φ item.serverSeq) :
    Renumbered ψ T d s s' where
  mono := hmono
  zero := hzero
  zero_mem := hzero_mem
  numbers item hitem := (hlog item hitem).1
  log := by
    rw [h.log]
    refine List.map_congr_left fun item hitem => ?_
    unfold SequencedOperation.renumber
    rw [(hlog item hitem).2]
  cached := h.cached
  snapshot := by
    rw [h.snapshot]
    cases hrow : s.snapshots.get? d with
    | none => rfl
    | some row =>
      obtain ⟨item, hitem, hseq⟩ := h.cached row hrow
      unfold ServerSnapshotRow.renumber
      rw [Option.map_some, Option.map_some, ← hseq, (hlog item hitem).2]

/-- Both logs grow by the same operation, each under its own number. -/
theorem Renumbered.insert (operation : TextOperation) (hmem : s.lastServerSeq + 1 ∈ S)
    (hφ : φ (s.lastServerSeq + 1) = s'.lastServerSeq + 1) :
    Renumbered φ S d (s.insertOperation d operation) (s'.insertOperation d operation) where
  mono := h.mono
  zero := h.zero
  zero_mem := h.zero_mem
  numbers item hitem := by
    rw [log_insertOperation, if_pos rfl] at hitem
    rcases List.mem_append.1 hitem with hitem | hitem
    · exact h.numbers item hitem
    · rw [List.mem_singleton.1 hitem]
      exact hmem
  log := by
    rw [log_insertOperation, if_pos rfl, log_insertOperation, if_pos rfl, List.map_append, h.log]
    simp [SequencedOperation.renumber, hφ]
  cached := h.cached.insertOperation d operation
  snapshot := h.snapshot

theorem Renumbered.latest_mem : s.getLatestServerSeq d ∈ S := by
  obtain ⟨-, ⟨-, hzero⟩ | ⟨item, hi, heq⟩⟩ := s.latest_spec d
  · rw [hzero]
    exact h.zero_mem
  · rw [← heq]
    exact h.numbers item hi

theorem Renumbered.latest : s'.getLatestServerSeq d = φ (s.getLatestServerSeq d) := by
  obtain ⟨hle, hlatest⟩ := s.latest_spec d
  obtain ⟨hle', hlatest'⟩ := s'.latest_spec d
  rcases hlatest with ⟨hnil, hzero⟩ | ⟨item, hi, heq⟩
  · rw [hzero, h.zero]
    rcases hlatest' with ⟨-, hzero'⟩ | ⟨item', hi', -⟩
    · exact hzero'
    · rw [h.log, hnil] at hi'
      cases hi'
  · have hi' : item.renumber φ ∈ s'.log d := by
      rw [h.log]
      exact List.mem_map_of_mem hi
    rcases hlatest' with ⟨hnil', -⟩ | ⟨item', hitem', heq'⟩
    · rw [hnil'] at hi'
      cases hi'
    · -- both are the largest of their logs
      rw [h.log] at hitem'
      obtain ⟨origin, horigin, rfl⟩ := List.mem_map.1 hitem'
      refine le_antisymm ?_ ?_
      · rw [← heq', ← heq]
        refine (h.mono.le_iff_le (h.numbers _ horigin) (h.numbers _ hi)).2 ?_
        rw [heq]
        exact hle origin horigin
      · rw [← heq]
        exact hle' _ hi'

theorem Renumbered.pos_iff {n : Int} (hn : n ∈ S) : 0 < φ n ↔ 0 < n := by
  have hlt := h.mono.lt_iff_lt h.zero_mem hn
  rw [h.zero] at hlt
  exact hlt

theorem Renumbered.between {a b : Int} (ha : a ∈ S) (hb : b ∈ S) :
    between SequencedOperation.serverSeq (φ a) (φ b) (s'.log d) =
      (between SequencedOperation.serverSeq a b (s.log d)).map (·.renumber φ) := by
  rw [h.log]
  exact between_map h.mono (fun _ _ => rfl) h.numbers ha hb

/-! ## Building a sync message -/

omit h in
theorem exportPrefixSnapshot_renumber (items : List SequencedOperation) :
    exportPrefixSnapshot (items.map (·.renumber φ)) = exportPrefixSnapshot items := by
  unfold exportPrefixSnapshot
  rw [List.map_map]
  rfl

omit h in
theorem countOperations_eq (s : OperationStore) (d : JsString) :
    s.countOperations d = (s.log d).length := by
  unfold countOperations log
  rw [List.length_map]

omit h in
theorem countOperationsAfter_eq (s : OperationStore) (d : JsString) (after through : Int) :
    s.countOperationsAfter d after through =
      (LocalFirst.between SequencedOperation.serverSeq after through (s.log d)).length := by
  rw [← loadOperationsAfter_eq]
  unfold countOperationsAfter loadOperationsAfter
  rw [List.length_map]

theorem Renumbered.countOperations : s'.countOperations d = s.countOperations d := by
  rw [countOperations_eq, countOperations_eq, h.log, List.length_map]

theorem Renumbered.loadOperationsAfter {a b : Int} (ha : a ∈ S) (hb : b ∈ S) :
    s'.loadOperationsAfter d (φ a) (φ b) =
      (s.loadOperationsAfter d a b).map (·.renumber φ) := by
  rw [loadOperationsAfter_eq, loadOperationsAfter_eq, h.between ha hb]

theorem Renumbered.countOperationsAfter {a b : Int} (ha : a ∈ S) (hb : b ∈ S) :
    s'.countOperationsAfter d (φ a) (φ b) = s.countOperationsAfter d a b := by
  rw [countOperationsAfter_eq, countOperationsAfter_eq, h.between ha hb, List.length_map]

/-- A new snapshot row at the latest number. -/
theorem Renumbered.save (snapshot : TextReplicaSnapshot) (hpos : 1 ≤ s.getLatestServerSeq d) :
    Renumbered φ S d
      (s.saveSnapshotRow ⟨d, s.getLatestServerSeq d, SERVER_SNAPSHOT_ENVELOPE_VERSION, snapshot⟩)
      (s'.saveSnapshotRow
        ⟨d, φ (s.getLatestServerSeq d), SERVER_SNAPSHOT_ENVELOPE_VERSION, snapshot⟩) where
  mono := h.mono
  zero := h.zero
  zero_mem := h.zero_mem
  numbers := h.numbers
  log := h.log
  cached row hrow := by
    simp only [saveSnapshotRow, Table.get?_put, if_true] at hrow
    cases hrow
    obtain ⟨-, ⟨-, hzero⟩ | hitem⟩ := s.latest_spec d
    · omega
    · exact hitem
  snapshot := by
    simp only [saveSnapshotRow, Table.get?_put, if_true]
    rfl

theorem Renumbered.tryBuildSnapshot (hlog : LogInv s) (hlog' : LogInv s') (rowWritten : Bool)
    (hpos : 1 ≤ s.getLatestServerSeq d) :
    (s'.tryBuildSnapshot rowWritten d (φ (s.getLatestServerSeq d))).1 =
        (s.tryBuildSnapshot rowWritten d (s.getLatestServerSeq d)).1.map (·.renumber φ) ∧
      Renumbered φ S d (s.tryBuildSnapshot rowWritten d (s.getLatestServerSeq d)).2
        (s'.tryBuildSnapshot rowWritten d (φ (s.getLatestServerSeq d))).2 := by
  have hpart := h.between h.zero_mem h.latest_mem
  rw [h.zero] at hpart
  unfold OperationStore.tryBuildSnapshot
  rw [hlog.loadOperationsThrough_eq, hlog'.loadOperationsThrough_eq, hpart,
    exportPrefixSnapshot_renumber]
  split
  · exact ⟨rfl, h⟩
  · split
    · exact ⟨rfl, h.save _ hpos⟩
    · exact ⟨rfl, h⟩

theorem Renumbered.loadValidSnapshot :
    s'.loadValidSnapshot d = (s.loadValidSnapshot d).map (·.renumber φ) := by
  unfold OperationStore.loadValidSnapshot loadSnapshotRow
  rw [h.snapshot]
  cases hrow : s.snapshots.get? d with
  | none => rfl
  | some row =>
    obtain ⟨item, hitem, hseq⟩ := h.cached row hrow
    have hpos := h.pos_iff (h.numbers item hitem)
    rw [hseq] at hpos
    have hiff : (row.snapshotVersion ≠ SERVER_SNAPSHOT_ENVELOPE_VERSION ∨ φ row.snapshotSeq < 1) ↔
        (row.snapshotVersion ≠ SERVER_SNAPSHOT_ENVELOPE_VERSION ∨ row.snapshotSeq < 1) := by
      refine or_congr_right ?_
      omega
    simp only [Option.map_some, ServerSnapshotRow.renumber, hiff]
    split
    · rfl
    · split <;> rfl

/-- The number of a valid snapshot is one of the log. -/
theorem Renumbered.valid_mem {payload : ServerSnapshotPayload}
    (hp : s.loadValidSnapshot d = some payload) : payload.snapshotSeq ∈ S := by
  unfold OperationStore.loadValidSnapshot loadSnapshotRow at hp
  split at hp
  · cases hp
  · rename_i row hrow
    obtain ⟨item, hitem, hseq⟩ := h.cached row hrow
    split at hp
    · cases hp
    · split at hp
      · cases hp
      · cases hp
        exact hseq ▸ h.numbers item hitem

theorem Renumbered.prepareSnapshotBootstrap (hlog : LogInv s) (hlog' : LogInv s')
    (rowWritten : Bool) :
    (s'.prepareSnapshotBootstrap rowWritten d (φ (s.getLatestServerSeq d))).1 =
        (s.prepareSnapshotBootstrap rowWritten d (s.getLatestServerSeq d)).1.map (·.renumber φ) ∧
      Renumbered φ S d (s.prepareSnapshotBootstrap rowWritten d (s.getLatestServerSeq d)).2
        (s'.prepareSnapshotBootstrap rowWritten d (φ (s.getLatestServerSeq d))).2 ∧
      ∀ payload,
        (s.prepareSnapshotBootstrap rowWritten d (s.getLatestServerSeq d)).1 = some payload →
          payload.snapshotSeq ∈ S := by
  have hpos := h.pos_iff h.latest_mem
  have hguard : (s'.countOperations d = 0 ∨ φ (s.getLatestServerSeq d) < 1) ↔
      (s.countOperations d = 0 ∨ s.getLatestServerSeq d < 1) := by
    rw [h.countOperations]
    refine or_congr_right ?_
    omega
  unfold OperationStore.prepareSnapshotBootstrap
  simp only [hguard, h.loadValidSnapshot]
  split
  · exact ⟨rfl, h, fun _ he => by cases he⟩
  · rename_i hne
    have hbarrier : 1 ≤ s.getLatestServerSeq d := by
      rw [not_or, not_lt] at hne
      exact hne.2
    obtain ⟨hbuilt, hstores⟩ := h.tryBuildSnapshot hlog hlog' rowWritten hbarrier
    have hbuilt_mem : ∀ payload,
        (s.tryBuildSnapshot rowWritten d (s.getLatestServerSeq d)).1 = some payload →
        payload.snapshotSeq ∈ S := by
      intro payload he
      unfold OperationStore.tryBuildSnapshot at he
      split at he
      · cases he
      · split at he
        · cases he
          exact h.latest_mem
        · cases he
    cases hvalid : s.loadValidSnapshot d with
    | none =>
      simp only [Option.map_none, h.countOperations]
      split
      · exact ⟨rfl, h, fun _ he => by cases he⟩
      · exact ⟨hbuilt, hstores, hbuilt_mem⟩
    | some existing =>
      have hexisting := h.valid_mem hvalid
      have hcount : s'.countOperationsAfter d (existing.renumber φ).snapshotSeq
          (φ (s.getLatestServerSeq d)) = s.countOperationsAfter d existing.snapshotSeq
            (s.getLatestServerSeq d) := h.countOperationsAfter hexisting h.latest_mem
      simp only [Option.map_some, hcount]
      split
      · refine ⟨?_, hstores, fun payload he => ?_⟩
        · rw [hbuilt]
          cases (s.tryBuildSnapshot rowWritten d (s.getLatestServerSeq d)).1 <;> rfl
        · cases hb : (s.tryBuildSnapshot rowWritten d (s.getLatestServerSeq d)).1 with
          | none =>
            rw [hb] at he
            cases he
            exact hexisting
          | some built =>
            rw [hb] at he
            cases he
            exact hbuilt_mem _ hb
      · refine ⟨rfl, h, fun payload he => ?_⟩
        cases he
        exact hexisting

/-- **Two renumbered logs build the same sync message**, up to the renumbering. -/
theorem Renumbered.buildSyncMessage (hlog : LogInv s) (hlog' : LogInv s') (rowWritten : Bool)
    {cursor : Int} (hcursor : cursor ∈ S) (snapshotCapable : Bool) :
    (s'.buildSyncMessage rowWritten d (φ cursor) snapshotCapable).1 =
        (s.buildSyncMessage rowWritten d cursor snapshotCapable).1.renumber φ ∧
      Renumbered φ S d (s.buildSyncMessage rowWritten d cursor snapshotCapable).2
        (s'.buildSyncMessage rowWritten d (φ cursor) snapshotCapable).2 := by
  have hfull : ∀ {t t' : OperationStore}, Renumbered φ S d t t' →
      t'.fullHistorySync d (φ cursor) (φ (s.getLatestServerSeq d)) =
        (t.fullHistorySync d cursor (s.getLatestServerSeq d)).renumber φ := by
    intro t t' ht
    unfold fullHistorySync SyncMessage.renumber
    rw [ht.loadOperationsAfter hcursor h.latest_mem]
    rfl
  have hpos := h.pos_iff hcursor
  obtain ⟨hpayload, hstores, hmem⟩ := h.prepareSnapshotBootstrap hlog hlog' rowWritten
  unfold OperationStore.buildSyncMessage
  simp only [h.latest, gt_iff_lt, hpos]
  split
  · exact ⟨hfull h, h⟩
  · rw [hpayload]
    cases hp : (s.prepareSnapshotBootstrap rowWritten d (s.getLatestServerSeq d)).1 with
    | none => exact ⟨hfull hstores, hstores⟩
    | some payload =>
      refine ⟨?_, hstores⟩
      have hload := hstores.loadOperationsAfter (hmem payload hp) h.latest_mem
      simp only [Option.map_some, ServerSnapshotPayload.renumber, hload]
      rfl

/-- The renumbering is told of every number of the message. -/
theorem Renumbered.sync_numbers (hlog : LogInv s) (hlog' : LogInv s') (hcache : CacheInv s)
    (rowWritten : Bool) (cursor : Int) (snapshotCapable : Bool) :
    ∀ n ∈ (ServerMessage.sync
      (s.buildSyncMessage rowWritten d cursor snapshotCapable).1).numbers, n ∈ S := by
  obtain ⟨hsync, -, -, -⟩ := buildSyncMessage_spec hlog hcache rowWritten d cursor snapshotCapable
  have hitems : ∀ item ∈ (s.buildSyncMessage rowWritten d cursor snapshotCapable).1.operations,
      item ∈ s.log d := by
    intro item hitem
    cases hb : (s.buildSyncMessage rowWritten d cursor snapshotCapable).1.snapshotBootstrap with
    | none =>
      rw [hsync.history hb] at hitem
      exact (mem_between.1 hitem).1
    | some b =>
      rw [(hsync.bootstrap b hb).2.2] at hitem
      exact (mem_between.1 hitem).1
  intro n hn
  simp only [ServerMessage.numbers, List.mem_cons, List.mem_append, List.mem_map,
    Option.mem_toList, Option.map_eq_some_iff] at hn
  rcases hn with rfl | ⟨item, hitem, rfl⟩ | ⟨b, hb, rfl⟩
  · rw [hsync.latest]
    exact h.latest_mem
  · exact h.numbers _ (hitems item hitem)
  · -- a snapshot is at the number of a payload
    obtain ⟨-, -, hmem⟩ := h.prepareSnapshotBootstrap hlog hlog' rowWritten
    unfold OperationStore.buildSyncMessage at hb
    simp only at hb
    split at hb
    · cases hb
    · split at hb
      · cases hb
      · rename_i payload hpayload
        cases hb
        exact hmem payload hpayload

end

end OperationStore

end LocalFirst
