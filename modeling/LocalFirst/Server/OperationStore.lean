import LocalFirst.Crdt.RoundTrip
import LocalFirst.Lib.Sequenced
import LocalFirst.Lib.Table
import LocalFirst.Protocol

/-!
# The operation store of the server

Model of `apps/server/src/operation-store.ts`.  The rows of the operations table stand in the
order of their primary key `server_seq`, which is never reused; one sequence numbers the
operations of all documents.  Ids are compared as they are; that the tables keep them in UTF-8 is
the matter of the module about SQLite.  The times that the rows record are left out: nothing reads
them.

* `appendOperation_spec` — what an append that does not throw has done.
* `LogInv` — the rows of every reachable store.
-/

set_option autoImplicit false

namespace LocalFirst

structure OperationRow where
  serverSeq : Int
  documentId : JsString
  opId : JsString
  operation : TextOperation
  deriving DecidableEq

structure ServerSnapshotRow where
  documentId : JsString
  snapshotSeq : Int
  snapshotVersion : Int
  snapshot : TextReplicaSnapshot
  deriving DecidableEq

structure AppendOperationResult where
  serverSeq : Int
  inserted : Bool
  deriving DecidableEq

/-- The tables, and the last key given out by the `AUTOINCREMENT` of the operations table. -/
structure OperationStore where
  operations : List OperationRow
  lastServerSeq : Int
  snapshots : Table ServerSnapshotRow.documentId

namespace OperationStore

def empty : OperationStore := ⟨[], 0, .empty⟩

def findOperation (s : OperationStore) (documentId opId : JsString) : Option OperationRow :=
  s.operations.find? (fun row => row.documentId = documentId ∧ row.opId = opId)

def insertOperation (s : OperationStore) (documentId : JsString) (operation : TextOperation) :
    OperationStore :=
  { s with
    operations :=
      s.operations ++ [⟨s.lastServerSeq + 1, documentId, operation.opId, operation⟩]
    lastServerSeq := s.lastServerSeq + 1 }

def appendOperation (s : OperationStore) (documentId : JsString) (operation : TextOperation) :
    Except JsError (AppendOperationResult × OperationStore) :=
  match validateOperation operation with
  | .error e => .error e
  | .ok () =>
    match s.findOperation documentId operation.opId with
    | some existing =>
      if ¬ operationsEqual existing.operation operation then
        .error (operationIdentityConflictError operation.opId)
      else .ok (⟨existing.serverSeq, false⟩, s)
    | none =>
      .ok (⟨s.lastServerSeq + 1, true⟩, s.insertOperation documentId operation)

/-- `mapOperationRow`. -/
def mapOperationRow (row : OperationRow) : SequencedOperation := ⟨row.serverSeq, row.operation⟩

def loadOperationsAfter (s : OperationStore) (documentId : JsString)
    (afterServerSeq throughServerSeq : Int) : List SequencedOperation :=
  (s.operations.filter fun row => row.documentId = documentId ∧ row.serverSeq > afterServerSeq ∧
    row.serverSeq ≤ throughServerSeq).map mapOperationRow

def loadOperationsThrough (s : OperationStore) (documentId : JsString) (throughServerSeq : Int) :
    List SequencedOperation :=
  (s.operations.filter fun row => row.documentId = documentId ∧
    row.serverSeq ≤ throughServerSeq).map mapOperationRow

def getLatestServerSeq (s : OperationStore) (documentId : JsString) : Int :=
  (((s.operations.filter (·.documentId = documentId)).map (·.serverSeq)).max?).getD 0

def countOperations (s : OperationStore) (documentId : JsString) : Nat :=
  (s.operations.filter (·.documentId = documentId)).length

def countOperationsAfter (s : OperationStore) (documentId : JsString)
    (afterServerSeq throughServerSeq : Int) : Nat :=
  (s.operations.filter fun row => row.documentId = documentId ∧ row.serverSeq > afterServerSeq ∧
    row.serverSeq ≤ throughServerSeq).length

def loadSnapshotRow (s : OperationStore) (documentId : JsString) : Option ServerSnapshotRow :=
  s.snapshots.get? documentId

def saveSnapshotRow (s : OperationStore) (row : ServerSnapshotRow) : OperationStore :=
  { s with snapshots := s.snapshots.put row }

/-! ## The log of a document -/

/-- The rows of a document, in the order of their sequence numbers. -/
def log (s : OperationStore) (documentId : JsString) : List SequencedOperation :=
  (s.operations.filter (·.documentId = documentId)).map mapOperationRow

/-- The invariant of the operations table. -/
structure LogInv (s : OperationStore) : Prop where
  increasing : Increasing OperationRow.serverSeq s.operations
  bounds : ∀ row ∈ s.operations, 1 ≤ row.serverSeq ∧ row.serverSeq ≤ s.lastServerSeq
  nonneg : 0 ≤ s.lastServerSeq
  opId : ∀ row ∈ s.operations, row.opId = row.operation.opId
  valid : ∀ row ∈ s.operations, ValidOperation row.operation
  unique : ∀ a ∈ s.operations, ∀ b ∈ s.operations, a.documentId = b.documentId →
    a.opId = b.opId → a = b

theorem LogInv.empty : LogInv empty where
  increasing := List.Pairwise.nil
  bounds _ h := by cases h
  nonneg := le_refl _
  opId _ h := by cases h
  valid _ h := by cases h
  unique _ h := by cases h

variable {s : OperationStore} {documentId : JsString} {operation : TextOperation}

theorem mem_log {item : SequencedOperation} : item ∈ s.log documentId ↔
    ∃ row ∈ s.operations, row.documentId = documentId ∧ mapOperationRow row = item := by
  simp [log, and_assoc]

theorem loadOperationsAfter_eq (after through : Int) :
    s.loadOperationsAfter documentId after through =
      between SequencedOperation.serverSeq after through (s.log documentId) := by
  unfold loadOperationsAfter between log
  rw [List.filter_map, List.filter_filter]
  congr 2
  funext row
  rw [Bool.and_comm]
  exact Bool.decide_and _ _

theorem findOperation_some {opId : JsString} {row : OperationRow}
    (h : s.findOperation documentId opId = some row) :
    row ∈ s.operations ∧ row.documentId = documentId ∧ row.opId = opId := by
  refine ⟨List.mem_of_find?_eq_some h, ?_⟩
  simpa using List.find?_some h

theorem findOperation_none {opId : JsString} : s.findOperation documentId opId = none ↔
    ∀ row ∈ s.operations, row.documentId = documentId → row.opId ≠ opId := by
  unfold findOperation
  rw [List.find?_eq_none]
  simp

/-- **What an append that does not throw has done**: it has found the operation in the log, or
it has added it at the end under a new number. -/
theorem appendOperation_spec {result : AppendOperationResult} {s' : OperationStore}
    (h : s.appendOperation documentId operation = .ok (result, s')) :
    ValidOperation operation ∧
      ((result.inserted = false ∧ s' = s ∧ ⟨result.serverSeq, operation⟩ ∈ s.log documentId) ∨
        (result.inserted = true ∧ result.serverSeq = s.lastServerSeq + 1 ∧
          s' = s.insertOperation documentId operation ∧
          ∀ row ∈ s.operations, row.documentId = documentId → row.opId ≠ operation.opId)) := by
  unfold appendOperation at h
  split at h
  · cases h
  · rename_i hv
    refine ⟨hv, ?_⟩
    split at h
    · rename_i existing hfind
      obtain ⟨hmem, hdoc, -⟩ := findOperation_some hfind
      split at h
      · cases h
      · rename_i heq
        rw [not_not, operationsEqual_iff] at heq
        cases h
        exact Or.inl ⟨rfl, rfl, mem_log.2 ⟨existing, hmem, hdoc, by rw [← heq]; rfl⟩⟩
    · rename_i hfind
      cases h
      exact Or.inr ⟨rfl, rfl, rfl, findOperation_none.1 hfind⟩

/-- A valid operation that is not in the log is added to it. -/
theorem appendOperation_new (hv : ValidOperation operation)
    (hnew : s.findOperation documentId operation.opId = none) :
    s.appendOperation documentId operation =
      .ok (⟨s.lastServerSeq + 1, true⟩, s.insertOperation documentId operation) := by
  have hvalid : validateOperation operation = .ok () := hv
  simp only [appendOperation, hvalid, hnew]

/-- A row added under a new number. -/
theorem LogInv.insertOperation (h : LogInv s) (hv : ValidOperation operation)
    (hnew : ∀ row ∈ s.operations, row.documentId = documentId → row.opId ≠ operation.opId) :
    LogInv (s.insertOperation documentId operation) where
  increasing := h.increasing.append fun row hrow => by
    have := (h.bounds row hrow).2
    simp only
    omega
  bounds row hrow := by
    have hnn := h.nonneg
    show 1 ≤ row.serverSeq ∧ row.serverSeq ≤ s.lastServerSeq + 1
    rcases List.mem_append.1 hrow with hrow | hrow
    · have := h.bounds row hrow
      omega
    · rw [List.mem_singleton.1 hrow]
      simp only
      omega
  nonneg := by
    have := h.nonneg
    show 0 ≤ s.lastServerSeq + 1
    omega
  opId row hrow := by
    rcases List.mem_append.1 hrow with hrow | hrow
    · exact h.opId row hrow
    · rw [List.mem_singleton.1 hrow]
  valid row hrow := by
    rcases List.mem_append.1 hrow with hrow | hrow
    · exact h.valid row hrow
    · rw [List.mem_singleton.1 hrow]
      exact hv
  unique a ha b hb hdoc hid := by
    rcases List.mem_append.1 ha with ha | ha <;> rcases List.mem_append.1 hb with hb | hb
    · exact h.unique a ha b hb hdoc hid
    · rw [List.mem_singleton.1 hb] at hdoc hid
      exact absurd hid (hnew a ha hdoc)
    · rw [List.mem_singleton.1 ha] at hdoc hid
      exact absurd hid.symm (hnew b hb hdoc.symm)
    · rw [List.mem_singleton.1 ha, List.mem_singleton.1 hb]

theorem LogInv.appendOperation (h : LogInv s) {result : AppendOperationResult} {s' : OperationStore}
    (happ : s.appendOperation documentId operation = .ok (result, s')) : LogInv s' := by
  obtain ⟨hv, ⟨-, rfl, -⟩ | ⟨-, -, rfl, hnew⟩⟩ := appendOperation_spec happ
  · exact h
  · exact h.insertOperation hv hnew

theorem LogInv.congr {s' : OperationStore} (h : LogInv s) (hops : s'.operations = s.operations)
    (hseq : s'.lastServerSeq = s.lastServerSeq) : LogInv s' := by
  obtain ⟨hincreasing, hbounds, hnonneg, hid, hvalid, hunique⟩ := h
  rw [← hops] at hincreasing hbounds hid hvalid hunique
  rw [← hseq] at hbounds hnonneg
  exact ⟨hincreasing, hbounds, hnonneg, hid, hvalid, hunique⟩

/-- The log of a document after an append. -/
theorem log_insertOperation (d : JsString) : (s.insertOperation documentId operation).log d =
    if documentId = d then s.log d ++ [⟨s.lastServerSeq + 1, operation⟩] else s.log d := by
  unfold log OperationStore.insertOperation
  simp only [List.filter_append, List.map_append]
  split
  · rename_i hd
    simp [hd, mapOperationRow]
  · rename_i hd
    simp [hd]

/-- `getLatestServerSeq` bounds the log, and is `0` or a number of it. -/
theorem latest_spec (s : OperationStore) (d : JsString) :
    (∀ item ∈ s.log d, item.serverSeq ≤ s.getLatestServerSeq d) ∧
      ((s.log d = [] ∧ s.getLatestServerSeq d = 0) ∨
        ∃ item ∈ s.log d, item.serverSeq = s.getLatestServerSeq d) := by
  have hseqs : (s.operations.filter (·.documentId = d)).map (·.serverSeq) =
      (s.log d).map (·.serverSeq) := by
    unfold log
    rw [List.map_map]
    rfl
  unfold getLatestServerSeq
  rw [hseqs]
  cases hm : ((s.log d).map (·.serverSeq)).max? with
  | none =>
    rw [List.max?_eq_none_iff, List.map_eq_nil_iff] at hm
    rw [hm]
    exact ⟨fun _ hi => by (cases hi), Or.inl ⟨rfl, rfl⟩⟩
  | some m =>
    obtain ⟨hmem, hle⟩ := List.max?_eq_some_iff.1 hm
    obtain ⟨item, hi, rfl⟩ := List.mem_map.1 hmem
    exact ⟨fun x hx => hle _ (List.mem_map_of_mem hx), Or.inr ⟨item, hi, rfl⟩⟩

section

variable (h : LogInv s)
include h

theorem LogInv.log_increasing (d : JsString) : Increasing SequencedOperation.serverSeq (s.log d) :=
  List.pairwise_map.2 (h.increasing.filter _)

theorem LogInv.log_bounds {d : JsString} {item : SequencedOperation} (hi : item ∈ s.log d) :
    1 ≤ item.serverSeq ∧ item.serverSeq ≤ s.lastServerSeq := by
  obtain ⟨row, hrow, -, rfl⟩ := mem_log.1 hi
  exact h.bounds row hrow

theorem LogInv.log_valid {d : JsString} {item : SequencedOperation} (hi : item ∈ s.log d) :
    ValidOperation item.operation := by
  obtain ⟨row, hrow, -, rfl⟩ := mem_log.1 hi
  exact h.valid row hrow

/-- A log holds an operation id once. -/
theorem LogInv.log_unique {d : JsString} {a b : SequencedOperation} (ha : a ∈ s.log d)
    (hb : b ∈ s.log d) (hid : a.operation.opId = b.operation.opId) : a = b := by
  obtain ⟨x, hx, hxd, rfl⟩ := mem_log.1 ha
  obtain ⟨y, hy, hyd, rfl⟩ := mem_log.1 hb
  rw [h.unique x hx y hy (hxd.trans hyd.symm) ((h.opId x hx).trans (hid.trans (h.opId y hy).symm))]

theorem LogInv.log_nodup (d : JsString) : ((s.log d).map (fun item => item.operation.opId)).Nodup := by
  refine List.Nodup.map_on (fun a ha b hb hid => h.log_unique ha hb hid) ?_
  refine (h.log_increasing d).imp fun {a b} hlt hab => ?_
  rw [hab] at hlt
  exact lt_irrefl _ hlt

/-- No two rows have the same document and operation id. -/
theorem LogInv.rows_nodup : (s.operations.map fun row => (row.documentId, row.opId)).Nodup := by
  refine List.Nodup.map_on (fun a ha b hb heq => ?_) (h.increasing.imp fun {a b} hlt hab => ?_)
  · exact h.unique a ha b hb (congrArg Prod.fst heq) (congrArg Prod.snd heq)
  · rw [hab] at hlt
    exact lt_irrefl _ hlt

theorem LogInv.loadOperationsThrough_eq (d : JsString) (through : Int) :
    s.loadOperationsThrough d through =
      between SequencedOperation.serverSeq 0 through (s.log d) := by
  rw [← loadOperationsAfter_eq]
  unfold loadOperationsThrough loadOperationsAfter
  congr 1
  refine List.filter_congr fun row hrow => ?_
  have := (h.bounds row hrow).1
  have hpos : row.serverSeq > 0 := by omega
  simp [hpos]

theorem LogInv.latest_bounds (d : JsString) :
    0 ≤ s.getLatestServerSeq d ∧ s.getLatestServerSeq d ≤ s.lastServerSeq := by
  obtain ⟨-, ⟨-, h0⟩ | ⟨item, hi, heq⟩⟩ := s.latest_spec d
  · rw [h0]
    exact ⟨le_refl _, h.nonneg⟩
  · have := h.log_bounds hi
    omega

end

end OperationStore

end LocalFirst
