import LocalFirst.Client.Controller
import LocalFirst.Client.Transactions

/-!
# Restoring a document

What the three restore paths yield, for any tables: a plain replay of the log, a checkpoint
with the log on top, or a server baseline with the log on top.

* `storedOps` — the operations in the tables of a document.
* `replay_iff`, `restoreReplica_iff` — a log is restored exactly when it is coherent.
* `restoreReplica_refines_replay` — a checkpoint, whatever it holds, does not change what is restored.
* `restore_iff` — when the tables restore.
-/

set_option autoImplicit false

namespace LocalFirst

open TextReplica

/-- The operations in the operations table of a document. -/
def Database.storedOps (db : Database) (documentId : JsString) : Set TextOperation :=
  {op | ∃ k row, db.operations.get? k = some row ∧ row.documentId = documentId ∧ row.operation = op}

theorem Database.mem_loadOperations {db : Database} {documentId : JsString} {op : TextOperation} :
    op ∈ db.loadOperations documentId ↔ op ∈ db.storedOps documentId := by
  unfold loadOperations operationRows
  rw [List.mem_map]
  constructor
  · rintro ⟨row, hrow, rfl⟩
    obtain ⟨hmem, hd⟩ := List.mem_filter.1 hrow
    exact ⟨_, row, Table.mem_toList.1 hmem, by simpa using hd, rfl⟩
  · rintro ⟨k, row, hk, hd, rfl⟩
    refine ⟨row, List.mem_filter.2 ⟨Table.mem_toList.2 ?_, by simpa using hd⟩, rfl⟩
    rw [Table.key_of_get? hk]
    exact hk

theorem Database.setOf_loadOperations (db : Database) (documentId : JsString) :
    {op | op ∈ db.loadOperations documentId} = db.storedOps documentId :=
  Set.ext fun _ => mem_loadOperations

/-! ## The restore paths -/

theorem replay_sound {l : List TextOperation} {r : TextReplica} (h : replay l = .ok r) :
    Inv r ∧ r.ops = {op | op ∈ l} := by
  obtain ⟨hinv, hiff, hops⟩ := applyAll_spec l Inv.empty
  unfold replay at h
  split at h
  · cases h
  · rename_i r' ha
    cases h
    rw [ha] at hinv hops
    refine ⟨hinv, ?_⟩
    rw [hops rfl, ops_empty, Set.empty_union]

/-- **A log is replayed exactly when it is coherent.** -/
theorem replay_iff {l : List TextOperation} :
    (∃ r, replay l = .ok r) ↔ Coherent {op | op ∈ l} := by
  obtain ⟨-, hiff, -⟩ := applyAll_spec l Inv.empty
  rw [ops_empty, Set.empty_union] at hiff
  rw [← hiff]
  unfold replay
  split
  · rename_i e ha
    rw [ha]
    simp
  · rename_i r ha
    rw [ha]
    simp

/-- A checkpoint that is used adds nothing to the log. -/
theorem restoreFromCheckpoint_sound {l : List TextOperation} {checkpoint : ReplicaSnapshotRecord}
    {r : TextReplica} (h : restoreFromCheckpoint l checkpoint = .ok r) :
    Inv r ∧ r.ops = {op | op ∈ l} := by
  unfold restoreFromCheckpoint at h
  split at h
  · cases h
  · rename_i restored hr
    obtain ⟨hinv, -, -⟩ := fromSnapshot_inv hr
    split at h
    · cases h
    · simp only at h
      split at h
      · cases h
      · rename_i hfind
        split at h
        · cases h
        · rename_i r' ha
          cases h
          obtain ⟨hinv', -, hops⟩ := applyAll_spec l hinv
          rw [ha] at hinv' hops
          have hops := hops rfl
          refine ⟨hinv', hops.trans (Set.union_eq_self_of_subset_left ?_)⟩
          -- a checkpointed identity is in the log, and there it is the same operation
          intro op hop
          have hid : op.opId ∈ restored.getKnownOperationIds :=
            mem_sortBy.2 (InsMap.mem_keys.2 ⟨op, hop⟩)
          have hmem : op.opId ∈ l.map (·.opId) := by
            have := List.find?_eq_none.1 hfind op.opId hid
            simpa using this
          obtain ⟨o, ho, hoid⟩ := List.mem_map.1 hmem
          have hcoh := hinv'.coherent
          rw [hops] at hcoh
          rw [← hcoh.unique o (Or.inr ho) op (Or.inl hop) hoid]
          exact ho

theorem restoreReplica_sound {l : List TextOperation} {checkpoint : Option ReplicaSnapshotRecord}
    {r : TextReplica} {n : Nat} (h : restoreReplica l checkpoint = .ok (r, n)) :
    Inv r ∧ r.ops = {op | op ∈ l} := by
  have hplain : ∀ {x : Except JsError TextReplica}, x.map (·, 0) = .ok (r, n) → x = .ok r := by
    intro x hx
    cases x with
    | error e => cases hx
    | ok r' => cases hx; rfl
  unfold restoreReplica at h
  split at h
  · exact replay_sound (hplain h)
  · split at h
    · rename_i hc
      cases h
      exact restoreFromCheckpoint_sound hc
    · exact replay_sound (hplain h)

/-- A checkpoint, whatever it holds, does not decide whether a log is restored. -/
theorem restoreReplica_iff {l : List TextOperation} {checkpoint : Option ReplicaSnapshotRecord} :
    (∃ r n, restoreReplica l checkpoint = .ok (r, n)) ↔ Coherent {op | op ∈ l} := by
  constructor
  · rintro ⟨r, n, h⟩
    obtain ⟨hinv, hops⟩ := restoreReplica_sound h
    rw [← hops]
    exact hinv.coherent
  · intro hc
    obtain ⟨r, hr⟩ := replay_iff.2 hc
    unfold restoreReplica
    split
    · exact ⟨r, 0, by rw [hr]; rfl⟩
    · split
      · exact ⟨_, _, rfl⟩
      · exact ⟨r, 0, by rw [hr]; rfl⟩

/-- An error in the checkpoint is swallowed: what is thrown is what the replay of the log throws. -/
theorem restoreReplica_error {l : List TextOperation} {checkpoint : Option ReplicaSnapshotRecord}
    {e : JsError} : restoreReplica l checkpoint = .error e ↔ replay l = .error e := by
  have hplain : (replay l).map (·, 0) = .error e ↔ replay l = .error e := by
    cases replay l with
    | error e' => simp [Except.map]
    | ok r => simp [Except.map]
  constructor
  · intro h
    unfold restoreReplica at h
    split at h
    · exact hplain.1 h
    · split at h
      · cases h
      · exact hplain.1 h
  · intro h
    cases hr : restoreReplica l checkpoint with
    | ok p =>
      -- what the checkpoint restores is coherent, and then the replay throws nothing
      obtain ⟨r, hr'⟩ := replay_iff.2 (restoreReplica_iff.1 ⟨p.1, p.2, hr⟩)
      rw [h] at hr'
      cases hr'
    | error e' =>
      unfold restoreReplica at hr
      split at hr
      · exact hr.symm.trans (hplain.2 h)
      · split at hr
        · cases hr
        · exact hr.symm.trans (hplain.2 h)

/-- **A checkpoint never changes the restored document.**  For any log and any checkpoint, what is
restored knows the same operations, shows the same elements and has the same operations unresolved
as the replay of the log, and it throws exactly if, and what, the replay throws. -/
theorem restoreReplica_refines_replay (l : List TextOperation)
    (checkpoint : Option ReplicaSnapshotRecord) :
    (∀ r n, restoreReplica l checkpoint = .ok (r, n) → ∃ r', replay l = .ok r' ∧
      (∀ id, r.knownOperations.get? id = r'.knownOperations.get? id) ∧
      r.getKnownOperationIds = r'.getKnownOperationIds ∧
      (∃ elements, r.getVisibleElements = .ok elements ∧ r'.getVisibleElements = .ok elements) ∧
      r.getUnresolvedOperationIds = r'.getUnresolvedOperationIds) ∧
    ∀ e, restoreReplica l checkpoint = .error e ↔ replay l = .error e := by
  refine ⟨fun r n h => ?_, fun e => restoreReplica_error⟩
  obtain ⟨hinv, hops⟩ := restoreReplica_sound h
  obtain ⟨r', hr'⟩ := replay_iff.2 (restoreReplica_iff.1 ⟨r, n, h⟩)
  obtain ⟨hinv', hops'⟩ := replay_sound hr'
  have hagree := hinv.agree hinv' (hops.trans hops'.symm)
  obtain ⟨elements, hv⟩ := hinv.visible_ok
  exact ⟨r', hr', hagree.known, hagree.known_ids, ⟨elements, hv, hagree.visible.symm.trans hv⟩,
    hagree.unresolved⟩

/-- The conditions on a stored baseline and cursor. -/
structure BaselineOk (baseline : ServerBaselineRecord) (lastServerSeq : Int) : Prop where
  snapshotSeq : isPositiveSafeInteger baseline.snapshotSeq = true
  cursor : isSafeInteger lastServerSeq = true
  le : baseline.snapshotSeq ≤ lastServerSeq
  snapshot : SnapshotCoherent baseline.snapshot

theorem restoreFromServerBaseline_sound {baseline : ServerBaselineRecord} {l : List TextOperation}
    {lastServerSeq : Int} {r : TextReplica}
    (h : restoreFromServerBaseline baseline l lastServerSeq = .ok r) :
    BaselineOk baseline lastServerSeq ∧ Inv r ∧
      r.ops = snapshotOps baseline.snapshot ∪ {op | op ∈ l} := by
  unfold restoreFromServerBaseline at h
  split at h
  · cases h
  · rename_i hseq
    split at h
    · cases h
    · rename_i hcur
      split at h
      · cases h
      · rename_i restored hr
        split at h
        · cases h
        · rename_i r' ha
          cases h
          obtain ⟨hinv, hsnap, -⟩ := fromSnapshot_inv hr
          obtain ⟨hinv', -, hops⟩ := applyAll_spec l hinv
          rw [ha] at hinv' hops
          rw [not_or, not_not] at hcur
          refine ⟨⟨by simpa using hseq, hcur.1, by omega, fromSnapshot_sound hr⟩, hinv', ?_⟩
          rw [hops rfl, hsnap]

theorem restoreFromServerBaseline_ok {baseline : ServerBaselineRecord} {l : List TextOperation}
    {lastServerSeq : Int} (hb : BaselineOk baseline lastServerSeq)
    (hc : Coherent (snapshotOps baseline.snapshot ∪ {op | op ∈ l})) :
    ∃ r, restoreFromServerBaseline baseline l lastServerSeq = .ok r := by
  obtain ⟨restored, hr, hinv, hops, -⟩ := fromSnapshot_ok hb.snapshot
  obtain ⟨-, hiff, -⟩ := applyAll_spec l hinv
  rw [hops] at hiff
  have hok := hiff.2 hc
  have hcur : ¬ (¬ isSafeInteger lastServerSeq = true ∨ lastServerSeq < baseline.snapshotSeq) := by
    have := hb.le
    rintro (h | h)
    · exact h hb.cursor
    · omega
  unfold restoreFromServerBaseline
  rw [if_neg (not_not.2 hb.snapshotSeq), if_neg hcur]
  simp only [hr]
  split
  · rename_i e ha
    rw [ha] at hok
    cases hok
  · exact ⟨_, rfl⟩

/-! ## The tables of a document -/

/-- The operations that the tables of a document stand for. -/
def Database.documentOps (db : Database) (documentId : JsString) : Set TextOperation :=
  match db.loadServerBaseline documentId with
  | some baseline => snapshotOps baseline.snapshot ∪ db.storedOps documentId
  | none => db.storedOps documentId

/-- The baseline of a document, if there is one, is usable. -/
def Database.BaselineReady (db : Database) (documentId : JsString) : Prop :=
  ∀ baseline, db.loadServerBaseline documentId = some baseline →
    BaselineOk baseline (db.getLastServerSeq documentId)

namespace LocalDocumentController

theorem restore_sound {db : Database} {documentId : JsString} {r : TextReplica} {n : Nat}
    (h : restore db documentId = .ok (r, n)) :
    db.BaselineReady documentId ∧ Inv r ∧ r.ops = db.documentOps documentId := by
  unfold restore at h
  simp only at h
  unfold Database.BaselineReady
  split at h
  · rename_i baseline hb
    cases hr : restoreFromServerBaseline baseline (db.loadOperations documentId)
        (db.getLastServerSeq documentId) with
    | error e => rw [hr] at h; cases h
    | ok r' =>
      rw [hr] at h
      cases h
      obtain ⟨hok, hinv, hops⟩ := restoreFromServerBaseline_sound hr
      refine ⟨fun b hb' => ?_, hinv, ?_⟩
      · rw [hb] at hb'
        cases hb'
        exact hok
      · rw [hops, db.setOf_loadOperations]
        unfold Database.documentOps
        rw [hb]
  · rename_i hb
    obtain ⟨hinv, hops⟩ := restoreReplica_sound h
    refine ⟨fun b hb' => (by rw [hb] at hb'; cases hb'), hinv, ?_⟩
    rw [hops, db.setOf_loadOperations]
    unfold Database.documentOps
    rw [hb]

/-- **When the tables of a document restore.** -/
theorem restore_iff {db : Database} {documentId : JsString} :
    (∃ r n, restore db documentId = .ok (r, n)) ↔
      db.BaselineReady documentId ∧ Coherent (db.documentOps documentId) := by
  constructor
  · rintro ⟨r, n, h⟩
    obtain ⟨hb, hinv, hops⟩ := restore_sound h
    rw [← hops]
    exact ⟨hb, hinv.coherent⟩
  · rintro ⟨hb, hc⟩
    unfold restore
    unfold Database.BaselineReady at hb
    unfold Database.documentOps at hc
    simp only
    split
    · rename_i baseline hbase
      rw [hbase] at hc
      obtain ⟨r, hr⟩ := restoreFromServerBaseline_ok (l := db.loadOperations documentId)
        (hb baseline hbase) (by rw [db.setOf_loadOperations]; exact hc)
      exact ⟨r, 0, by rw [hr]; rfl⟩
    · rename_i hbase
      rw [hbase] at hc
      exact restoreReplica_iff.2 (by rw [db.setOf_loadOperations]; exact hc)

end LocalDocumentController

end LocalFirst
