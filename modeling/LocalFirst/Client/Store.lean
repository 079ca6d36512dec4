import LocalFirst.Client.Database
import LocalFirst.Client.TextEdit
import LocalFirst.Protocol

/-!
# The local document store

Model of `apps/web/src/persistence/local-document-store.ts`.  Each method that runs a
transaction takes the database and returns the new one, or the error with which the
transaction aborts.  The clock is an argument.
-/

set_option autoImplicit false

namespace LocalFirst

def invalidServerBatchError (message : JsString) : JsError := ⟨.invalidServerBatch, message⟩

def snapshotBootstrapIneligibleError (message : JsString) : JsError :=
  ⟨.snapshotBootstrapIneligible, message⟩

def invalidSnapshotBootstrapError (message : JsString) : JsError :=
  ⟨.invalidSnapshotBootstrap, message⟩

def invalidServerBaselineError (message : JsString) : JsError := ⟨.invalidServerBaseline, message⟩

def missingClientMetaError : JsError := ⟨.error, js "Local client metadata is missing."⟩

def missingDocumentError (documentId : JsString) : JsError :=
  ⟨.error, js "Document \"" ++ documentId ++ js "\" does not exist."⟩

/-! ## Reading -/

structure InitializedLocalDocument where
  clientMeta : ClientMetaRecord
  document : DocumentRecord

namespace Database

/-- The method `initialize`; `clientId` is what the factory returns. -/
def initializeDocument (db : Database) (documentId defaultTitle clientId timestamp : JsString) :
    InitializedLocalDocument × Database :=
  let clientMeta := db.clientMeta.getD ⟨clientId, 1, 0⟩
  let document := (db.documents.get? documentId).getD ⟨documentId, defaultTitle, timestamp, timestamp⟩
  let documents :=
    match db.documents.get? documentId with
    | some _ => db.documents
    | none => db.documents.put document
  let syncState :=
    match db.syncState.get? documentId with
    | some _ => db.syncState
    | none => db.syncState.put ⟨documentId, 0⟩
  (⟨clientMeta, document⟩,
    { db with clientMeta := some clientMeta, documents := documents, syncState := syncState })

/-- The rows of a document in the operations table, in the order of the table. -/
def operationRows (db : Database) (documentId : JsString) : List OperationRecord :=
  db.operations.toList.filter (fun record => record.documentId = documentId)

def loadOperations (db : Database) (documentId : JsString) : List TextOperation :=
  (db.operationRows documentId).map (·.operation)

def outboxRows (db : Database) (documentId : JsString) : List OutboxRecord :=
  db.outbox.toList.filter (fun marker => marker.documentId = documentId)

def countPendingOperations (db : Database) (documentId : JsString) : Nat :=
  (db.outboxRows documentId).length

/-- The loop of `loadPendingOperations`. -/
def resolveMarkers (db : Database) (documentId : JsString) :
    List OutboxRecord → Except JsError (List TextOperation)
  | [] => .ok []
  | marker :: markers =>
    match db.operations.get? marker.opId with
    | none => .error ⟨.error, js "Outbox marker \"" ++ marker.opId ++
        js "\" is missing its canonical operation record."⟩
    | some record =>
      if record.documentId ≠ documentId ∨ marker.documentId ≠ documentId then
        .error (operationIdentityConflictError marker.opId)
      else (resolveMarkers db documentId markers).map (record.operation :: ·)

def loadPendingOperations (db : Database) (documentId : JsString) :
    Except JsError (List TextOperation) :=
  (db.resolveMarkers documentId (db.outboxRows documentId)).map
    (sortBy fun left right => left.counter - right.counter)

def getLastServerSeq (db : Database) (documentId : JsString) : Int :=
  match db.syncState.get? documentId with
  | some syncState => syncState.lastServerSeq
  | none => 0

def loadServerBaseline (db : Database) (documentId : JsString) : Option ServerBaselineRecord :=
  db.serverBaselines.get? documentId

def isSnapshotBootstrapEligible (db : Database) (documentId : JsString) : Bool :=
  db.getLastServerSeq documentId == 0 && (db.loadServerBaseline documentId).isNone &&
    (db.operationRows documentId).length == 0 && (db.outboxRows documentId).length == 0

def loadReplicaSnapshot (db : Database) (documentId : JsString) : Option ReplicaSnapshotRecord :=
  db.replicaSnapshots.get? documentId

def saveReplicaSnapshot (db : Database) (documentId : JsString) (snapshot : TextReplicaSnapshot)
    (knownOperationCount : Nat) (timestamp : JsString) : Database :=
  { db with replicaSnapshots :=
      db.replicaSnapshots.put ⟨documentId, snapshot, knownOperationCount, timestamp⟩ }

end Database

/-! ## Validation of server messages -/

/-- The loop of `validateServerBatch`. -/
def validateServerSeqs (confirmedThroughServerSeq : Int) :
    Int → List SequencedOperation → Except JsError Unit
  | _, [] => .ok ()
  | previousServerSeq, item :: items =>
    if ¬ isPositiveSafeInteger item.serverSeq then
      .error (invalidServerBatchError (js "serverSeq must be a positive safe integer."))
    else if item.serverSeq ≤ previousServerSeq then
      .error (invalidServerBatchError (js "serverSeq values must be strictly increasing."))
    else if item.serverSeq > confirmedThroughServerSeq then
      .error (invalidServerBatchError (js "serverSeq must not exceed confirmedThroughServerSeq."))
    else validateServerSeqs confirmedThroughServerSeq item.serverSeq items

def validateServerBatch (sequencedOperations : List SequencedOperation)
    (confirmedThroughServerSeq : Int) : Except JsError Unit :=
  if ¬ isSafeInteger confirmedThroughServerSeq ∨ confirmedThroughServerSeq < 0 then
    .error (invalidServerBatchError
      (js "confirmedThroughServerSeq must be a non-negative safe integer."))
  else validateServerSeqs confirmedThroughServerSeq 0 sequencedOperations

def validateSnapshotSuffix (sequencedOperations : List SequencedOperation)
    (snapshotSeq confirmedThroughServerSeq : Int) : Except JsError Unit :=
  if ¬ isPositiveSafeInteger snapshotSeq then
    .error (invalidSnapshotBootstrapError (js "snapshotSeq must be a positive safe integer."))
  else if snapshotSeq > confirmedThroughServerSeq then
    .error (invalidSnapshotBootstrapError (js "snapshotSeq must not exceed latestServerSeq."))
  else match validateServerBatch sequencedOperations confirmedThroughServerSeq with
    | .error e => .error (invalidSnapshotBootstrapError e.message)
    | .ok () =>
      if sequencedOperations.any (fun item => item.serverSeq ≤ snapshotSeq) then
        .error (invalidSnapshotBootstrapError
          (js "Snapshot suffix serverSeq values must be greater than snapshotSeq."))
      else .ok ()

def maxLamportFromSnapshot (snapshot : TextReplicaSnapshot) : Int :=
  snapshot.deleteOperations.foldl (fun max operation => Max.max max operation.lamport)
    (snapshot.nodes.foldl (fun max node => Max.max max node.lamport) 0)

def parseBootstrapSnapshot (bootstrap : SnapshotBootstrap) : Except JsError TextReplicaSnapshot :=
  if bootstrap.version ≠ 1 then
    .error (invalidSnapshotBootstrapError
      (js "Unsupported snapshot bootstrap version \"" ++ decimal bootstrap.version ++ js "\"."))
  else .ok bootstrap.snapshot

namespace Database

/-! ## Installing a server baseline -/

/-- The replica that `installServerBaseline` builds before its transaction. -/
def bootstrapReplica (bootstrap : SnapshotBootstrap)
    (sequencedOperations : List SequencedOperation) (confirmedThroughServerSeq : Int) :
    Except JsError (TextReplicaSnapshot × TextReplica) :=
  match parseBootstrapSnapshot bootstrap with
  | .error e => .error e
  | .ok snapshot =>
    match validateSnapshotSuffix sequencedOperations bootstrap.snapshotSeq
        confirmedThroughServerSeq with
    | .error e => .error e
    | .ok () =>
      match TextReplica.fromSnapshot snapshot with
      | .error e => .error (invalidSnapshotBootstrapError e.message)
      | .ok restored =>
        match restored.applyAll (sequencedOperations.map (·.operation)) with
        | (_, .error e) => .error (invalidSnapshotBootstrapError e.message)
        | (replica, .ok ()) =>
          if replica.getUnresolvedOperationIds.length > 0 then
            .error (invalidSnapshotBootstrapError
              (js "Snapshot bootstrap left unresolved dependencies: " ++
                join (js ", ") replica.getUnresolvedOperationIds))
          else .ok (snapshot, replica)

def installServerBaseline (db : Database) (documentId : JsString) (bootstrap : SnapshotBootstrap)
    (sequencedOperations : List SequencedOperation) (confirmedThroughServerSeq : Int)
    (timestamp : JsString) : Except JsError (TextReplica × Database) :=
  match bootstrapReplica bootstrap sequencedOperations confirmedThroughServerSeq with
  | .error e => .error e
  | .ok (snapshot, replica) =>
    let prefixLamport := maxLamportFromSnapshot snapshot
    let suffixLamport := sequencedOperations.foldl (fun max item => Max.max max item.operation.lamport) 0
    let historicalLamport := max prefixLamport suffixLamport
    if ¬ db.isSnapshotBootstrapEligible documentId then
      .error (snapshotBootstrapIneligibleError (js "Document \"" ++ documentId ++
        js "\" is no longer eligible for snapshot bootstrap."))
    else match db.clientMeta with
      | none => .error missingClientMetaError
      | some clientMeta =>
        match db.documents.get? documentId with
        | none => .error (missingDocumentError documentId)
        | some document =>
          let operationRecords := sequencedOperations.map fun item =>
            (⟨item.operation.opId, documentId, item.operation, timestamp⟩ : OperationRecord)
          match db.operations.bulkAdd operationRecords with
          | none => .error constraintError
          | some operations =>
            .ok (replica, { db with
              operations := operations
              serverBaselines :=
                db.serverBaselines.put ⟨documentId, bootstrap.snapshotSeq, snapshot, timestamp⟩
              syncState := db.syncState.put ⟨documentId, confirmedThroughServerSeq⟩
              clientMeta := some { clientMeta with
                lamportClock := max clientMeta.lamportClock historicalLamport }
              documents := db.documents.put { document with updatedAt := timestamp }
              replicaSnapshots := db.replicaSnapshots.delete documentId })

/-! ## Local edits -/

/-- `nextCounter` and `lamportClock` while identities are allocated. -/
structure Identity where
  nextCounter : Int
  lamportClock : Int
  deriving DecidableEq

def Identity.next (identity : Identity) : Identity :=
  ⟨identity.nextCounter + 1, identity.lamportClock + 1⟩

/-- The loop over `edit.deleteTargetIds`. -/
def createDeletes (clientId : JsString) :
    List JsString → Identity → Except JsError (List TextOperation × Identity)
  | [], identity => .ok ([], identity)
  | targetId :: targetIds, identity =>
    match createDeleteOperation clientId identity.nextCounter (identity.lamportClock + 1)
        targetId with
    | .error e => .error e
    | .ok operation =>
      match createDeletes clientId targetIds identity.next with
      | .error e => .error e
      | .ok (operations, identity') => .ok (.delete operation :: operations, identity')

/-- The loop over `edit.insertValues`: each insert is anchored on the one before it. -/
def createInserts (clientId : JsString) :
    JsString → List JsString → Identity → Except JsError (List TextOperation × Identity)
  | _, [], identity => .ok ([], identity)
  | insertAnchor, value :: values, identity =>
    match createInsertOperation clientId identity.nextCounter (identity.lamportClock + 1)
        insertAnchor value with
    | .error e => .error e
    | .ok operation =>
      match createInserts clientId operation.opId values identity.next with
      | .error e => .error e
      | .ok (operations, identity') => .ok (.insert operation :: operations, identity')

/-- The operations of an edit, and the identities left. -/
def createOperations (clientId : JsString) (edit : LocalTextEdit) (identity : Identity) :
    Except JsError (List TextOperation × Identity) :=
  match createDeletes clientId edit.deleteTargetIds identity with
  | .error e => .error e
  | .ok (deletes, identity') =>
    match createInserts clientId edit.insertAfterId edit.insertValues identity' with
    | .error e => .error e
    | .ok (inserts, identity'') => .ok (deletes ++ inserts, identity'')

def persistLocalTextEdit (db : Database) (documentId : JsString) (edit : LocalTextEdit)
    (timestamp : JsString) (outboxCreatedAt : Int) :
    Except JsError (List TextOperation × Database) :=
  if edit.deleteTargetIds.length = 0 ∧ edit.insertValues.length = 0 then .ok ([], db)
  else match db.clientMeta with
    | none => .error missingClientMetaError
    | some clientMeta =>
      match db.documents.get? documentId with
      | none => .error (missingDocumentError documentId)
      | some document =>
        match createOperations clientMeta.clientId edit
            ⟨clientMeta.nextCounter, clientMeta.lamportClock⟩ with
        | .error e => .error e
        | .ok (created, identity) =>
          let operationRecords := created.map fun operation =>
            (⟨operation.opId, documentId, operation, timestamp⟩ : OperationRecord)
          let outboxRecords := created.map fun operation =>
            (⟨operation.opId, documentId, outboxCreatedAt⟩ : OutboxRecord)
          match db.operations.bulkAdd operationRecords with
          | none => .error constraintError
          | some operations =>
            match db.outbox.bulkAdd outboxRecords with
            | none => .error constraintError
            | some outbox =>
              .ok (created, { db with
                operations := operations
                outbox := outbox
                clientMeta := some { clientMeta with
                  nextCounter := identity.nextCounter, lamportClock := identity.lamportClock }
                documents := db.documents.put { document with updatedAt := timestamp } })

/-! ## Ingesting server operations -/

/-- The tables and the variables of the loop of `persistServerOperations`. -/
structure IngestState where
  operations : Table OperationRecord.opId
  outbox : Table OutboxRecord.opId
  lamportClock : Int
  insertedAny : Bool

/-- The part of a pass that deletes the outbox row of an operation the server has sequenced. -/
def acknowledge (documentId : JsString) (canonical operation : TextOperation)
    (outbox : Table OutboxRecord.opId) : Except JsError (Table OutboxRecord.opId) :=
  match outbox.get? operation.opId with
  | none => .ok outbox
  | some outboxRow =>
    if outboxRow.documentId ≠ documentId then
      .error (operationIdentityConflictError operation.opId)
    else if ¬ operationsEqual canonical operation then
      .error (operationIdentityConflictError operation.opId)
    else .ok (outbox.delete operation.opId)

/-- One pass of the loop of `persistServerOperations`. -/
def ingestOperation (documentId timestamp : JsString) (s : IngestState)
    (operation : TextOperation) : Except JsError IngestState :=
  match validateOperation operation with
  | .error e => .error e
  | .ok () =>
    let lamportClock := max s.lamportClock operation.lamport
    match s.operations.get? operation.opId with
    | some existing =>
      if existing.documentId ≠ documentId then
        .error (operationIdentityConflictError operation.opId)
      else if ¬ operationsEqual existing.operation operation then
        .error (operationIdentityConflictError operation.opId)
      else match acknowledge documentId existing.operation operation s.outbox with
        | .error e => .error e
        | .ok outbox => .ok ⟨s.operations, outbox, lamportClock, s.insertedAny⟩
    | none =>
      let operations := s.operations.put ⟨operation.opId, documentId, operation, timestamp⟩
      match acknowledge documentId operation operation s.outbox with
      | .error e => .error e
      | .ok outbox => .ok ⟨operations, outbox, lamportClock, true⟩

def ingestOperations (documentId timestamp : JsString) :
    IngestState → List TextOperation → Except JsError IngestState
  | s, [] => .ok s
  | s, operation :: operations =>
    match ingestOperation documentId timestamp s operation with
    | .error e => .error e
    | .ok s' => ingestOperations documentId timestamp s' operations

def persistServerOperations (db : Database) (documentId : JsString)
    (sequencedOperations : List SequencedOperation) (confirmedThroughServerSeq : Int)
    (timestamp : JsString) : Except JsError Database :=
  match validateServerBatch sequencedOperations confirmedThroughServerSeq with
  | .error e => .error e
  | .ok () =>
    match db.clientMeta with
    | none => .error missingClientMetaError
    | some clientMeta =>
      match db.documents.get? documentId with
      | none => .error (missingDocumentError documentId)
      | some document =>
        match ingestOperations documentId timestamp
            ⟨db.operations, db.outbox, clientMeta.lamportClock, false⟩
            (sequencedOperations.map (·.operation)) with
        | .error e => .error e
        | .ok s =>
          .ok { db with
            operations := s.operations
            outbox := s.outbox
            clientMeta :=
              if s.lamportClock ≠ clientMeta.lamportClock then
                some { clientMeta with lamportClock := s.lamportClock }
              else some clientMeta
            documents :=
              if s.insertedAny then db.documents.put { document with updatedAt := timestamp }
              else db.documents
            syncState := db.syncState.put
              ⟨documentId, max (db.getLastServerSeq documentId) confirmedThroughServerSeq⟩ }

end Database

end LocalFirst
