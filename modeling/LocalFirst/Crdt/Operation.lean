import LocalFirst.Js

/-!
# Operations

Model of `packages/crdt/src/types.ts`, `operation.ts` and the error classes of `errors.ts`.

* `validateOperation_iff` — what an operation must satisfy to be valid.
* `operationsEqual_iff` — `operationsEqual` is equality.
* `ValidOperation.opId_ne_root` — no valid operation is called `ROOT`.
-/

set_option autoImplicit false

namespace LocalFirst

/-! ## Types -/

def ROOT_ID : JsString := js "ROOT"

structure InsertOperation where
  opId : JsString
  clientId : JsString
  counter : Int
  lamport : Int
  afterId : JsString
  value : JsString
  deriving DecidableEq

structure DeleteOperation where
  opId : JsString
  clientId : JsString
  counter : Int
  lamport : Int
  targetId : JsString
  deriving DecidableEq

/-- `TextOperation`: the constructor is the field `kind`. -/
inductive TextOperation where
  | insert (operation : InsertOperation)
  | delete (operation : DeleteOperation)
  deriving DecidableEq

namespace TextOperation

def opId : TextOperation → JsString
  | insert op => op.opId
  | delete op => op.opId

def clientId : TextOperation → JsString
  | insert op => op.clientId
  | delete op => op.clientId

def counter : TextOperation → Int
  | insert op => op.counter
  | delete op => op.counter

def lamport : TextOperation → Int
  | insert op => op.lamport
  | delete op => op.lamport

@[simp] theorem opId_insert (op : InsertOperation) : (insert op).opId = op.opId := rfl
@[simp] theorem opId_delete (op : DeleteOperation) : (delete op).opId = op.opId := rfl
@[simp] theorem clientId_insert (op : InsertOperation) : (insert op).clientId = op.clientId := rfl
@[simp] theorem clientId_delete (op : DeleteOperation) : (delete op).clientId = op.clientId := rfl
@[simp] theorem counter_insert (op : InsertOperation) : (insert op).counter = op.counter := rfl
@[simp] theorem counter_delete (op : DeleteOperation) : (delete op).counter = op.counter := rfl
@[simp] theorem lamport_insert (op : InsertOperation) : (insert op).lamport = op.lamport := rfl
@[simp] theorem lamport_delete (op : DeleteOperation) : (delete op).lamport = op.lamport := rfl

end TextOperation

structure VisibleElement where
  id : JsString
  value : JsString
  deriving DecidableEq

inductive ApplyStatus where
  | applied
  | pending
  | duplicate
  deriving DecidableEq, Repr

structure TextReplicaSnapshotNode where
  id : JsString
  afterId : JsString
  value : JsString
  clientId : JsString
  counter : Int
  lamport : Int
  tombstone : Bool
  deriving DecidableEq

structure TextReplicaSnapshot where
  version : Int
  nodes : List TextReplicaSnapshotNode
  deleteOperations : List DeleteOperation
  deriving DecidableEq

/-! ## Errors -/

def invalidOperationError (message : JsString) : JsError := ⟨.invalidOperation, message⟩

def operationIdentityConflictError (operationId : JsString) : JsError :=
  ⟨.operationIdentityConflict,
    js "Operation identity conflict for \"" ++ operationId ++ js "\"."⟩

def operationDependencyCycleError (operationId : JsString) : JsError :=
  ⟨.operationDependencyCycle,
    js "Operation \"" ++ operationId ++ js "\" introduces a dependency cycle."⟩

def invalidReplicaSnapshotError (message : JsString) : JsError := ⟨.invalidReplicaSnapshot, message⟩

def unresolvedReplicaSnapshotError (operationIds : List JsString) : JsError :=
  ⟨.unresolvedReplicaSnapshot,
    js "Cannot export a snapshot while operations remain unresolved: " ++
      join (js ", ") operationIds⟩

/-! ## Construction and validation -/

def makeOperationId (clientId : JsString) (counter : Int) : JsString :=
  clientId ++ js ":" ++ decimal counter

def validateOperation (operation : TextOperation) : Except JsError Unit :=
  if (trim operation.clientId).length = 0 then
    .error (invalidOperationError (js "clientId must not be empty."))
  else if ¬ isPositiveSafeInteger operation.counter then
    .error (invalidOperationError (js "counter must be a positive safe integer."))
  else if ¬ isPositiveSafeInteger operation.lamport then
    .error (invalidOperationError (js "lamport must be a positive safe integer."))
  else if operation.opId ≠ makeOperationId operation.clientId operation.counter then
    .error (invalidOperationError (js "opId must equal clientId + counter."))
  else match operation with
    | .insert op =>
      if op.value.length = 0 then
        .error (invalidOperationError (js "insert value must not be empty."))
      else if op.afterId = op.opId then
        .error (invalidOperationError (js "an insert cannot reference itself as its anchor."))
      else .ok ()
    | .delete op =>
      if op.targetId = ROOT_ID then
        .error (invalidOperationError (js "ROOT cannot be deleted."))
      else .ok ()

def createInsertOperation (clientId : JsString) (counter lamport : Int)
    (afterId value : JsString) : Except JsError InsertOperation :=
  let operation : InsertOperation :=
    ⟨makeOperationId clientId counter, clientId, counter, lamport, afterId, value⟩
  match validateOperation (.insert operation) with
  | .ok () => .ok operation
  | .error e => .error e

def createDeleteOperation (clientId : JsString) (counter lamport : Int)
    (targetId : JsString) : Except JsError DeleteOperation :=
  let operation : DeleteOperation :=
    ⟨makeOperationId clientId counter, clientId, counter, lamport, targetId⟩
  match validateOperation (.delete operation) with
  | .ok () => .ok operation
  | .error e => .error e

def operationsEqual (left right : TextOperation) : Bool :=
  match left, right with
  | .insert l, .insert r =>
    l.opId == r.opId && l.clientId == r.clientId && l.counter == r.counter &&
      l.lamport == r.lamport && l.afterId == r.afterId && l.value == r.value
  | .delete l, .delete r =>
    l.opId == r.opId && l.clientId == r.clientId && l.counter == r.counter &&
      l.lamport == r.lamport && l.targetId == r.targetId
  | _, _ => false

theorem operationsEqual_iff {left right : TextOperation} :
    operationsEqual left right = true ↔ left = right := by
  cases left with
  | insert l =>
    cases right with
    | insert r => cases l; cases r; simp [operationsEqual, and_assoc]
    | delete r => simp [operationsEqual]
  | delete l =>
    cases right with
    | insert r => simp [operationsEqual]
    | delete r => cases l; cases r; simp [operationsEqual, and_assoc]

/-! ## Valid operations -/

/-- The operation passes `validateOperation`. -/
def ValidOperation (operation : TextOperation) : Prop := validateOperation operation = .ok ()

instance (operation : TextOperation) : Decidable (ValidOperation operation) :=
  match h : validateOperation operation with
  | .ok () => isTrue h
  | .error e => isFalse (by unfold ValidOperation; rw [h]; exact fun h' => by cases h')

/-- The conditions that the kind of the operation adds. -/
def kindConditions : TextOperation → Prop
  | .insert op => op.value ≠ [] ∧ op.afterId ≠ op.opId
  | .delete op => op.targetId ≠ ROOT_ID

theorem validateOperation_iff {op : TextOperation} : ValidOperation op ↔
    trim op.clientId ≠ [] ∧ (1 ≤ op.counter ∧ op.counter ≤ MAX_SAFE_INTEGER) ∧
      (1 ≤ op.lamport ∧ op.lamport ≤ MAX_SAFE_INTEGER) ∧
      op.opId = makeOperationId op.clientId op.counter ∧ kindConditions op := by
  rw [← isPositiveSafeInteger_iff, ← isPositiveSafeInteger_iff]
  unfold ValidOperation validateOperation
  by_cases h1 : trim op.clientId = []
  · simp [h1]
  · by_cases h2 : isPositiveSafeInteger op.counter = true
    · by_cases h3 : isPositiveSafeInteger op.lamport = true
      · by_cases h4 : op.opId = makeOperationId op.clientId op.counter
        · cases op with
          | insert op =>
            by_cases h5 : op.value = []
            · simp_all [kindConditions]
            · by_cases h6 : op.afterId = op.opId <;> simp_all [kindConditions]
          | delete op => by_cases h5 : op.targetId = ROOT_ID <;> simp_all [kindConditions]
        · simp [h1, h2, h3, h4]
      · simp [h1, h2, h3]
    · simp [h1, h2]

/-- `validateOperation` throws only `InvalidOperationError`. -/
theorem validateOperation_error_name {op : TextOperation} {e : JsError}
    (h : validateOperation op = .error e) : e.name = .invalidOperation := by
  unfold validateOperation at h
  cases op with
  | insert op => (repeat' split at h) <;> cases h <;> rfl
  | delete op => (repeat' split at h) <;> cases h <;> rfl

theorem js_colon_not_mem_root : (58 : CodeUnit) ∉ ROOT_ID := by decide

theorem colon_mem_makeOperationId (clientId : JsString) (counter : Int) :
    (58 : CodeUnit) ∈ makeOperationId clientId counter := by
  have : (58 : CodeUnit) ∈ js ":" := by decide
  simp [makeOperationId, this]

namespace ValidOperation

variable {op : TextOperation}

theorem opId_eq (h : ValidOperation op) : op.opId = makeOperationId op.clientId op.counter :=
  (validateOperation_iff.1 h).2.2.2.1

theorem opId_ne_root (h : ValidOperation op) : op.opId ≠ ROOT_ID := by
  intro he
  apply js_colon_not_mem_root
  rw [← he, h.opId_eq]
  exact colon_mem_makeOperationId _ _

theorem opId_ne_nil (h : ValidOperation op) : op.opId ≠ [] := by
  rw [h.opId_eq]
  exact List.ne_nil_of_mem (colon_mem_makeOperationId _ _)

theorem value_ne_nil {op : InsertOperation} (h : ValidOperation (.insert op)) : op.value ≠ [] :=
  (validateOperation_iff.1 h).2.2.2.2.1

theorem afterId_ne_opId {op : InsertOperation} (h : ValidOperation (.insert op)) :
    op.afterId ≠ op.opId :=
  (validateOperation_iff.1 h).2.2.2.2.2

end ValidOperation

/-- A created insert is the operation with the allocated identity, and it is valid. -/
theorem createInsertOperation_ok {clientId afterId value : JsString} {counter lamport : Int}
    {op : InsertOperation} (h : createInsertOperation clientId counter lamport afterId value = .ok op) :
    op = ⟨makeOperationId clientId counter, clientId, counter, lamport, afterId, value⟩ ∧
      ValidOperation (.insert op) := by
  unfold createInsertOperation at h
  simp only at h
  split at h
  · rename_i hv; cases h; exact ⟨rfl, hv⟩
  · cases h

/-- A created delete is the operation with the allocated identity, and it is valid. -/
theorem createDeleteOperation_ok {clientId targetId : JsString} {counter lamport : Int}
    {op : DeleteOperation} (h : createDeleteOperation clientId counter lamport targetId = .ok op) :
    op = ⟨makeOperationId clientId counter, clientId, counter, lamport, targetId⟩ ∧
      ValidOperation (.delete op) := by
  unfold createDeleteOperation at h
  simp only at h
  split at h
  · rename_i hv; cases h; exact ⟨rfl, hv⟩
  · cases h

end LocalFirst
