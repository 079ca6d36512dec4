import LocalFirst.Client.Store

/-!
# The document controller

Model of `apps/web/src/replica/local-document-controller.ts`.  The write queue runs its jobs
one after another, so a job is a function from the controller and the database to a new
controller, a new database and the outcome of the promise.  A rejected promise may leave both
changed.  Telemetry is left out.
-/

set_option autoImplicit false

namespace LocalFirst

def DEFAULT_DOCUMENT_ID : JsString := js "local-default-document"

def DEFAULT_DOCUMENT_TITLE : JsString := js "Local Document"

def SNAPSHOT_OPERATION_INTERVAL : Int := 1000

structure LocalDocumentSnapshot where
  documentId : JsString
  title : JsString
  text : JsString
  visibleElements : List VisibleElement
  deriving DecidableEq

structure LocalEditResult where
  snapshot : LocalDocumentSnapshot
  operations : List TextOperation

structure LocalDocumentControllerOptions where
  documentId : Option JsString
  defaultTitle : Option JsString
  snapshotInterval : Option Int

/-- What a job reads from its surroundings: the clocks, the client id factory, and whether the
write of a checkpoint succeeds. -/
structure Surroundings where
  now : JsString
  dateNow : Int
  clientIdFactory : JsString
  checkpointWritten : Bool

structure LocalDocumentController where
  replica : TextReplica
  documentId : JsString
  clientId : JsString
  title : JsString
  snapshotInterval : Int
  hasServerBaseline : Bool
  lastSnapshotOperationCount : Nat

/-! ## Restoring -/

def resolveSnapshotInterval (value : Option Int) : Except JsError Int :=
  match value with
  | none => .ok SNAPSHOT_OPERATION_INTERVAL
  | some value =>
    if ¬ isPositiveSafeInteger value then
      .error ⟨.error, js "snapshotInterval must be a positive safe integer."⟩
    else .ok value

def restoreFromServerBaseline (baseline : ServerBaselineRecord) (operations : List TextOperation)
    (lastServerSeq : Int) : Except JsError TextReplica :=
  if ¬ isPositiveSafeInteger baseline.snapshotSeq then
    .error (invalidServerBaselineError
      (js "Server baseline snapshotSeq must be a positive safe integer."))
  else if ¬ isSafeInteger lastServerSeq ∨ lastServerSeq < baseline.snapshotSeq then
    .error (invalidServerBaselineError (js "syncState.lastServerSeq must be at least " ++
      js "the installed server baseline snapshotSeq."))
  else match TextReplica.fromSnapshot baseline.snapshot with
    | .error e => .error (invalidServerBaselineError e.message)
    | .ok replica =>
      match replica.applyAll operations with
      | (_, .error e) => .error (invalidServerBaselineError e.message)
      | (replica', .ok ()) => .ok replica'

/-- The replay of a log into a new replica. -/
def replay (operations : List TextOperation) : Except JsError TextReplica :=
  match TextReplica.empty.applyAll operations with
  | (_, .error e) => .error e
  | (replica, .ok ()) => .ok replica

/-- The `try` block of `restoreReplica`. -/
def restoreFromCheckpoint (operations : List TextOperation) (checkpoint : ReplicaSnapshotRecord) :
    Except JsError TextReplica :=
  match TextReplica.fromSnapshot checkpoint.snapshot with
  | .error e => .error e
  | .ok restored =>
    if restored.getKnownOperationCount ≠ checkpoint.knownOperationCount then
      .error ⟨.error, js "Checkpoint known-operation count does not match restored replica."⟩
    else
      let canonicalIds := operations.map (·.opId)
      match restored.getKnownOperationIds.find? (fun id => id ∉ canonicalIds) with
      | some operationId =>
        .error ⟨.error, js "Checkpoint contains operation \"" ++ operationId ++
          js "\" missing from the log."⟩
      | none =>
        match restored.applyAll operations with
        | (_, .error e) => .error e
        | (replica, .ok ()) => .ok replica

/-- `restoreReplica`: whatever goes wrong with the checkpoint, the log is replayed instead. -/
def restoreReplica (operations : List TextOperation) (checkpoint : Option ReplicaSnapshotRecord) :
    Except JsError (TextReplica × Nat) :=
  match checkpoint with
  | none => (replay operations).map (·, 0)
  | some checkpoint =>
    match restoreFromCheckpoint operations checkpoint with
    | .ok replica => .ok (replica, checkpoint.knownOperationCount)
    | .error _ => (replay operations).map (·, 0)

namespace LocalDocumentController

/-! ## Jobs -/

def getSnapshot (c : LocalDocumentController) : Except JsError LocalDocumentSnapshot :=
  match c.replica.materialize with
  | .error e => .error e
  | .ok text =>
    match c.replica.getVisibleElements with
    | .error e => .error e
    | .ok visibleElements => .ok ⟨c.documentId, c.title, text, visibleElements⟩

def withReplica (c : LocalDocumentController) (replica : TextReplica) : LocalDocumentController :=
  { c with replica := replica }

/-- `maybeCreateCheckpoint`: a failure to write the checkpoint is swallowed. -/
def maybeCreateCheckpoint (c : LocalDocumentController) (db : Database) (env : Surroundings) :
    LocalDocumentController × Database :=
  if c.hasServerBaseline then (c, db)
  else if c.replica.getUnresolvedOperationIds.length > 0 then (c, db)
  else
    let knownOperationCount := c.replica.getKnownOperationCount
    if (knownOperationCount : Int) - c.lastSnapshotOperationCount < c.snapshotInterval then (c, db)
    else match c.replica.exportSnapshot with
      | .error _ => (c, db)
      | .ok snapshot =>
        if env.checkpointWritten then
          ({ c with lastSnapshotOperationCount := knownOperationCount },
            db.saveReplicaSnapshot c.documentId snapshot knownOperationCount env.now)
        else (c, db)

/-- The end of a job that has updated the replica. -/
def finish (c : LocalDocumentController) (db : Database) (env : Surroundings) :
    LocalDocumentController × Database × Except JsError LocalDocumentSnapshot :=
  let checkpointed := c.maybeCreateCheckpoint db env
  (checkpointed.1, checkpointed.2, checkpointed.1.getSnapshot)

def replaceTextNow (segmentGraphemes : JsString → List JsString) (c : LocalDocumentController)
    (db : Database) (env : Surroundings) (nextText : JsString) :
    LocalDocumentController × Database × Except JsError LocalEditResult :=
  match c.replica.getVisibleElements with
  | .error e => (c, db, .error e)
  | .ok elements =>
    match computeLocalTextEdit segmentGraphemes elements nextText with
    | none => (c, db, c.getSnapshot.map (⟨·, []⟩))
    | some edit =>
      match db.persistLocalTextEdit c.documentId edit env.now env.dateNow with
      | .error e => (c, db, .error e)
      | .ok (operations, db') =>
        match c.replica.applyAll operations with
        | (replica, .error e) => (c.withReplica replica, db', .error e)
        | (replica, .ok ()) =>
          let finished := (c.withReplica replica).finish db' env
          (finished.1, finished.2.1, finished.2.2.map (⟨·, operations⟩))

def applyServerOperationsNow (c : LocalDocumentController) (db : Database) (env : Surroundings)
    (sequencedOperations : List SequencedOperation) (confirmedThroughServerSeq : Int) :
    LocalDocumentController × Database × Except JsError LocalDocumentSnapshot :=
  match db.persistServerOperations c.documentId sequencedOperations confirmedThroughServerSeq
      env.now with
  | .error e => (c, db, .error e)
  | .ok db' =>
    match c.replica.applyAll (sequencedOperations.map (·.operation)) with
    | (replica, .error e) => (c.withReplica replica, db', .error e)
    | (replica, .ok ()) => (c.withReplica replica).finish db' env

def installServerSnapshotNow (c : LocalDocumentController) (db : Database) (env : Surroundings)
    (bootstrap : SnapshotBootstrap) (sequencedOperations : List SequencedOperation)
    (confirmedThroughServerSeq : Int) :
    LocalDocumentController × Database × Except JsError LocalDocumentSnapshot :=
  match db.installServerBaseline c.documentId bootstrap sequencedOperations
      confirmedThroughServerSeq env.now with
  | .error e => (c, db, .error e)
  | .ok (replica, db') =>
    let c' := { c with replica := replica, hasServerBaseline := true }
    (c', db', c'.getSnapshot)

/-! ## Opening a document -/

/-- The replica that `create` restores from the tables, with the operation count of the
checkpoint it used. -/
def restore (db : Database) (documentId : JsString) : Except JsError (TextReplica × Nat) :=
  let operations := db.loadOperations documentId
  match db.loadServerBaseline documentId with
  | some baseline =>
    (restoreFromServerBaseline baseline operations (db.getLastServerSeq documentId)).map (·, 0)
  | none => restoreReplica operations (db.loadReplicaSnapshot documentId)

def create (db : Database) (options : LocalDocumentControllerOptions) (env : Surroundings) :
    Except JsError LocalDocumentController × Database :=
  match resolveSnapshotInterval options.snapshotInterval with
  | .error e => (.error e, db)
  | .ok snapshotInterval =>
    let documentId := options.documentId.getD DEFAULT_DOCUMENT_ID
    let defaultTitle := options.defaultTitle.getD
      (if documentId = DEFAULT_DOCUMENT_ID then DEFAULT_DOCUMENT_TITLE else js "Untitled Document")
    let initializing := db.initializeDocument documentId defaultTitle env.clientIdFactory env.now
    let initialized := initializing.1
    let db' := initializing.2
    match restore db' initialized.document.id with
    | .error e => (.error e, db')
    | .ok (replica, lastSnapshotOperationCount) =>
      if replica.getUnresolvedOperationIds.length > 0 then
        (.error ⟨.error, js "Stored local operation log has unresolved dependencies: " ++
          join (js ", ") replica.getUnresolvedOperationIds⟩, db')
      else
        let controller : LocalDocumentController :=
          ⟨replica, initialized.document.id, initialized.clientMeta.clientId,
            initialized.document.title, snapshotInterval,
            (db'.loadServerBaseline initialized.document.id).isSome, lastSnapshotOperationCount⟩
        let checkpointed := controller.maybeCreateCheckpoint db' env
        (.ok checkpointed.1, checkpointed.2)

end LocalDocumentController

end LocalFirst
