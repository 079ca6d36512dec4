import LocalFirst.Crdt.RoundTrip
import LocalFirst.Lib.Table

/-!
# The client database

Model of `apps/web/src/persistence/database.ts`: the record types and the tables of one
browser database.  A transaction is a function from a database to a new database or an
error; a transaction that throws leaves the database as it was.
-/

set_option autoImplicit false

namespace LocalFirst

structure ClientMetaRecord where
  clientId : JsString
  nextCounter : Int
  lamportClock : Int
  deriving DecidableEq

structure DocumentRecord where
  id : JsString
  title : JsString
  createdAt : JsString
  updatedAt : JsString
  deriving DecidableEq

structure OperationRecord where
  opId : JsString
  documentId : JsString
  operation : TextOperation
  createdAt : JsString
  deriving DecidableEq

structure OutboxRecord where
  opId : JsString
  documentId : JsString
  createdAt : Int
  deriving DecidableEq

structure SyncStateRecord where
  documentId : JsString
  lastServerSeq : Int
  deriving DecidableEq

structure ReplicaSnapshotRecord where
  documentId : JsString
  snapshot : TextReplicaSnapshot
  knownOperationCount : Nat
  createdAt : JsString
  deriving DecidableEq

structure ServerBaselineRecord where
  documentId : JsString
  snapshotSeq : Int
  snapshot : TextReplicaSnapshot
  createdAt : JsString
  deriving DecidableEq

/-- The tables.  `clientMeta` holds one record, under `CLIENT_META_KEY`. -/
structure Database where
  clientMeta : Option ClientMetaRecord
  documents : Table DocumentRecord.id
  operations : Table OperationRecord.opId
  outbox : Table OutboxRecord.opId
  syncState : Table SyncStateRecord.documentId
  replicaSnapshots : Table ReplicaSnapshotRecord.documentId
  serverBaselines : Table ServerBaselineRecord.documentId

def Database.empty : Database := ⟨none, .empty, .empty, .empty, .empty, .empty, .empty⟩

/-- The database refuses to add a key that exists; the text is its own. -/
def constraintError : JsError := ⟨.constraint, []⟩

/-- The two databases hold the same rows, whatever order their tables return them in. -/
structure Database.SameRows (db db' : Database) : Prop where
  clientMeta : db.clientMeta = db'.clientMeta
  documents : ∀ k, db.documents.get? k = db'.documents.get? k
  operations : ∀ k, db.operations.get? k = db'.operations.get? k
  outbox : ∀ k, db.outbox.get? k = db'.outbox.get? k
  syncState : ∀ k, db.syncState.get? k = db'.syncState.get? k
  replicaSnapshots : ∀ k, db.replicaSnapshots.get? k = db'.replicaSnapshots.get? k
  serverBaselines : ∀ k, db.serverBaselines.get? k = db'.serverBaselines.get? k

end LocalFirst
