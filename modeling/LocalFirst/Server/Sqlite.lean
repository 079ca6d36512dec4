import LocalFirst.Lib.Runs
import LocalFirst.Server.Renumber
import LocalFirst.Server.StoreSimulation
import LocalFirst.Sync.Wire
import Mathlib.Data.List.Find

/-!
# The store on disk

Model of `apps/server/src/operation-store.ts` and `server-snapshot.ts` over the tables of SQLite: a row
holds the text of an operation or of a snapshot, which is parsed each time it is read, and a text
parameter is kept in UTF-8, which has no half of a surrogate pair: it becomes U+FFFD.  The times that
the rows record are left out: nothing reads them.

* `SqliteDatabase.migrateServerSchema` — opening a database brings it to the current schema.
* `Names.Apart` — no two names are kept as the same text.
* `Represents` — the tables hold the texts of the rows of a store.
* `sqlite_simulates` — for names that stay apart the tables answer as the store does.
* `sqlite_refines` — and so they do over every run of calls, with restarts between them.
-/

set_option autoImplicit false

namespace LocalFirst

/-- A text parameter as it is kept. -/
def utf8 (text : JsString) : JsString := Json.toWellFormed text

structure SqliteOperationRow where
  serverSeq : Int
  documentId : JsString
  opId : JsString
  operationJson : JsString
  deriving DecidableEq

structure SqliteSnapshotRow where
  documentId : JsString
  snapshotSeq : Int
  snapshotVersion : Int
  snapshotJson : JsString
  deriving DecidableEq

/-- The `user_version`, the tables that there are, and the last key of the `AUTOINCREMENT`. -/
structure SqliteDatabase where
  userVersion : Int
  operations : Option (List SqliteOperationRow)
  sequence : Int
  snapshots : Option (InsMap JsString SqliteSnapshotRow)

structure IncompatibleServerSchemaError where
  message : JsString
  deriving DecidableEq

def incompatibleServerSchemaError (current supported : Int) : IncompatibleServerSchemaError :=
  ⟨js "SQLite user_version " ++ decimal current ++ js " is newer than supported schema version " ++
    decimal supported ++ js "."⟩

/-- Not an error of the program: a text that nothing of the program has written. -/
def foreignTextError : JsError := ⟨.error, []⟩

/-- A value as a `TextOperation`, when it is one. -/
def operationOf (v : Json JsNumber) : Option TextOperation := do
  let (kind, members) ← Wire.discriminated (js "kind") v
  let opId ← Wire.required members (js "opId") (Wire.stringOf 0)
  let clientId ← Wire.required members (js "clientId") (Wire.stringOf 0)
  let counter ← Wire.required members (js "counter") Wire.integer
  let lamport ← Wire.required members (js "lamport") Wire.integer
  if kind = js "insert" then
    let afterId ← Wire.required members (js "afterId") (Wire.stringOf 0)
    let value ← Wire.required members (js "value") (Wire.stringOf 0)
    pure (.insert ⟨opId, clientId, counter, lamport, afterId, value⟩)
  else if kind = js "delete" then
    let targetId ← Wire.required members (js "targetId") (Wire.stringOf 0)
    pure (.delete ⟨opId, clientId, counter, lamport, targetId⟩)
  else none

def operationText (operation : TextOperation) : JsString :=
  (Wire.ofOperation operation).stringify decimal

def snapshotText (snapshot : TextReplicaSnapshot) : JsString :=
  (Wire.ofSnapshot snapshot).stringify decimal

/-- `JSON.parse` of an `operation_json`. -/
def parseOperation (text : JsString) : Except JsError TextOperation :=
  match (Json.parse NumberLiteral.toNumber text).bind operationOf with
  | none => .error foreignTextError
  | some operation => .ok operation

namespace SqliteDatabase

/-- A file that does not exist yet. -/
def fresh : SqliteDatabase := ⟨0, none, 0, none⟩

def SERVER_SCHEMA_VERSION : Int := 2

/-! ## The schema -/

/-- `OPERATIONS_DDL`. -/
def createOperations (db : SqliteDatabase) : SqliteDatabase :=
  { db with operations := some (db.operations.getD []) }

/-- `SNAPSHOTS_DDL`. -/
def createSnapshots (db : SqliteDatabase) : SqliteDatabase :=
  { db with snapshots := some (db.snapshots.getD .empty) }

def migrateServerSchema (db : SqliteDatabase) :
    Except IncompatibleServerSchemaError SqliteDatabase :=
  if db.userVersion > SERVER_SCHEMA_VERSION then
    .error (incompatibleServerSchemaError db.userVersion SERVER_SCHEMA_VERSION)
  else
    let first := if db.userVersion < 1 then { db.createOperations with userVersion := 1 } else db
    .ok (if first.userVersion < 2 then { first.createSnapshots with userVersion := 2 } else first)

/-- A file that has just been made. -/
def created : SqliteDatabase := ⟨SERVER_SCHEMA_VERSION, some [], 0, some .empty⟩

example : migrateServerSchema .fresh = .ok created := rfl

/-! ## The operations -/

def rows (db : SqliteDatabase) : List SqliteOperationRow := db.operations.getD []

def findOperation (db : SqliteDatabase) (documentId opId : JsString) : Option SqliteOperationRow :=
  db.rows.find? fun row => row.documentId = utf8 documentId ∧ row.opId = utf8 opId

def insertOperation (db : SqliteDatabase) (documentId : JsString) (operation : TextOperation) :
    SqliteDatabase :=
  { db with
    operations := some (db.rows ++ [⟨db.sequence + 1, utf8 documentId, utf8 operation.opId,
      utf8 (operationText operation)⟩])
    sequence := db.sequence + 1 }

def appendOperation (db : SqliteDatabase) (documentId : JsString) (operation : TextOperation) :
    Except JsError (AppendOperationResult × SqliteDatabase) :=
  match validateOperation operation with
  | .error e => .error e
  | .ok () =>
    match db.findOperation documentId operation.opId with
    | some existing =>
      match parseOperation existing.operationJson with
      | .error e => .error e
      | .ok persisted =>
        if ¬ operationsEqual persisted operation then
          .error (operationIdentityConflictError operation.opId)
        else .ok (⟨existing.serverSeq, false⟩, db)
    | none => .ok (⟨db.sequence + 1, true⟩, db.insertOperation documentId operation)

def mapOperationRow (row : SqliteOperationRow) : Except JsError SequencedOperation :=
  (parseOperation row.operationJson).map fun operation => ⟨row.serverSeq, operation⟩

def loadOperationsAfter (db : SqliteDatabase) (documentId : JsString)
    (afterServerSeq throughServerSeq : Int) : Except JsError (List SequencedOperation) :=
  (db.rows.filter fun row => row.documentId = utf8 documentId ∧ row.serverSeq > afterServerSeq ∧
    row.serverSeq ≤ throughServerSeq).mapM mapOperationRow

def loadOperationsThrough (db : SqliteDatabase) (documentId : JsString) (throughServerSeq : Int) :
    Except JsError (List SequencedOperation) :=
  (db.rows.filter fun row => row.documentId = utf8 documentId ∧
    row.serverSeq ≤ throughServerSeq).mapM mapOperationRow

def getLatestServerSeq (db : SqliteDatabase) (documentId : JsString) : Int :=
  (((db.rows.filter (·.documentId = utf8 documentId)).map (·.serverSeq)).max?).getD 0

def countOperations (db : SqliteDatabase) (documentId : JsString) : Nat :=
  (db.rows.filter (·.documentId = utf8 documentId)).length

/-- The rows that a query for the document finds. -/
def log (db : SqliteDatabase) (documentId : JsString) : List SequencedOperation :=
  (db.rows.filter (·.documentId = utf8 documentId)).filterMap fun row => (mapOperationRow row).toOption

def countOperationsAfter (db : SqliteDatabase) (documentId : JsString)
    (afterServerSeq throughServerSeq : Int) : Nat :=
  (db.rows.filter fun row => row.documentId = utf8 documentId ∧ row.serverSeq > afterServerSeq ∧
    row.serverSeq ≤ throughServerSeq).length

/-! ## The snapshots -/

def loadSnapshotRow (db : SqliteDatabase) (documentId : JsString) : Option SqliteSnapshotRow :=
  (db.snapshots.getD .empty).get? (utf8 documentId)

def saveSnapshotRow (db : SqliteDatabase) (row : SqliteSnapshotRow) : SqliteDatabase :=
  let stored : SqliteSnapshotRow :=
    { row with
      documentId := utf8 row.documentId
      snapshotJson := utf8 row.snapshotJson }
  { db with snapshots := some ((db.snapshots.getD .empty).set stored.documentId stored) }

def loadValidSnapshot (db : SqliteDatabase) (documentId : JsString) :
    Option ServerSnapshotPayload :=
  match db.loadSnapshotRow documentId with
  | none => none
  | some row =>
    if row.snapshotVersion ≠ SERVER_SNAPSHOT_ENVELOPE_VERSION ∨ row.snapshotSeq < 1 then
      none
    else match (Json.parse NumberLiteral.toNumber row.snapshotJson).bind Wire.snapshotOf with
      | none => none
      | some snapshot =>
        match TextReplica.fromSnapshot snapshot with
        | .error _ => none
        | .ok _ => some ⟨documentId, row.snapshotSeq, snapshot⟩

/-! ## The snapshot manager -/

/-- Loading the prefix stands before the `try` block. -/
def tryBuildSnapshot (db : SqliteDatabase) (rowWritten : Bool) (documentId : JsString)
    (barrier : Int) : Except JsError (Option ServerSnapshotPayload × SqliteDatabase) :=
  match db.loadOperationsThrough documentId barrier with
  | .error e => .error e
  | .ok history =>
    match exportPrefixSnapshot history with
    | .error _ => .ok (none, db)
    | .ok snapshot =>
      if rowWritten then
        .ok (some ⟨documentId, barrier, snapshot⟩, db.saveSnapshotRow
          ⟨documentId, barrier, SERVER_SNAPSHOT_ENVELOPE_VERSION, snapshotText snapshot⟩)
      else .ok (none, db)

def prepareSnapshotBootstrap (db : SqliteDatabase) (rowWritten : Bool) (documentId : JsString)
    (barrier : Int) : Except JsError (Option ServerSnapshotPayload × SqliteDatabase) :=
  let historyCount := db.countOperations documentId
  if historyCount = 0 ∨ barrier < 1 then .ok (none, db)
  else match db.loadValidSnapshot documentId with
    | none =>
      if historyCount < SNAPSHOT_OPERATION_THRESHOLD then .ok (none, db)
      else db.tryBuildSnapshot rowWritten documentId barrier
    | some existing =>
      let suffixCount := db.countOperationsAfter documentId existing.snapshotSeq barrier
      if suffixCount ≥ SNAPSHOT_OPERATION_THRESHOLD then
        match db.tryBuildSnapshot rowWritten documentId barrier with
        | .error e => .error e
        | .ok built => .ok (some (built.1.getD existing), built.2)
      else .ok (some existing, db)

def fullHistorySync (db : SqliteDatabase) (documentId : JsString) (lastServerSeq barrier : Int) :
    Except JsError SyncMessage :=
  (db.loadOperationsAfter documentId lastServerSeq barrier).map fun operations =>
    ⟨documentId, operations, barrier, none⟩

def buildSyncMessage (db : SqliteDatabase) (rowWritten : Bool) (documentId : JsString)
    (lastServerSeq : Int) (snapshotCapable : Bool) : Except JsError (SyncMessage × SqliteDatabase) :=
  let barrier := db.getLatestServerSeq documentId
  if ¬ snapshotCapable ∨ lastServerSeq > 0 then
    (db.fullHistorySync documentId lastServerSeq barrier).map fun message => (message, db)
  else
    match db.prepareSnapshotBootstrap rowWritten documentId barrier with
    | .error e => .error e
    | .ok (none, db') =>
      (db'.fullHistorySync documentId lastServerSeq barrier).map fun message => (message, db')
    | .ok (some bootstrap, db') =>
      (db'.loadOperationsAfter documentId bootstrap.snapshotSeq barrier).map fun suffix =>
        (⟨documentId, suffix, barrier,
          some ⟨SERVER_SNAPSHOT_ENVELOPE_VERSION, bootstrap.snapshotSeq, bootstrap.snapshot⟩⟩, db')

end SqliteDatabase

instance : ServerStore SqliteDatabase where
  log := SqliteDatabase.log
  getLatestServerSeq := SqliteDatabase.getLatestServerSeq
  appendOperation := SqliteDatabase.appendOperation
  buildSyncMessage := SqliteDatabase.buildSyncMessage
  record _ db := db

/-! ## Texts are read back -/

theorem operationOf_eq {operation : TextOperation} (h : ValidOperation operation) :
    operationOf (Wire.arrived (Wire.ofOperation operation)) = some operation := by
  obtain ⟨-, hcounter, hlamport, -⟩ := validateOperation_iff.1 h
  have hcounter := (Bool.and_eq_true_iff.1 (isPositiveSafeInteger_iff.2 hcounter)).1
  have hlamport := (Bool.and_eq_true_iff.1 (isPositiveSafeInteger_iff.2 hlamport)).1
  cases operation with
  | insert op =>
    obtain ⟨opId, clientId, counter, lamport, afterId, value⟩ := op
    have hcounter : isSafeInteger counter = true := hcounter
    have hlamport : isSafeInteger lamport = true := hlamport
    show (Wire.stringOf 0 (.string opId)).bind (fun opId =>
      (Wire.stringOf 0 (.string clientId)).bind fun clientId =>
      (ofInteger counter).integer.bind fun counter => (ofInteger lamport).integer.bind fun lamport =>
      (Wire.stringOf 0 (.string afterId)).bind fun afterId =>
      (Wire.stringOf 0 (.string value)).bind fun value =>
      some (TextOperation.insert ⟨opId, clientId, counter, lamport, afterId, value⟩)) = _
    simp only [Wire.stringOf_zero, integer_ofInteger hcounter, integer_ofInteger hlamport,
      Option.bind_some]
  | delete op =>
    obtain ⟨opId, clientId, counter, lamport, targetId⟩ := op
    have hcounter : isSafeInteger counter = true := hcounter
    have hlamport : isSafeInteger lamport = true := hlamport
    show (Wire.stringOf 0 (.string opId)).bind (fun opId =>
      (Wire.stringOf 0 (.string clientId)).bind fun clientId =>
      (ofInteger counter).integer.bind fun counter => (ofInteger lamport).integer.bind fun lamport =>
      (Wire.stringOf 0 (.string targetId)).bind fun targetId =>
      some (TextOperation.delete ⟨opId, clientId, counter, lamport, targetId⟩)) = _
    simp only [Wire.stringOf_zero, integer_ofInteger hcounter, integer_ofInteger hlamport,
      Option.bind_some]

/-- **An operation is read as it was written**, whatever its value holds. -/
theorem parseOperation_text {operation : TextOperation} (h : ValidOperation operation) :
    parseOperation (utf8 (operationText operation)) = .ok operation := by
  unfold parseOperation utf8 operationText
  rw [show Json.toWellFormed _ = Wire.send _ from rfl, Wire.parse_arrived, Option.bind_some,
    operationOf_eq h]

theorem parseSnapshot_text {snapshot : TextReplicaSnapshot}
    (h : TextReplica.SnapshotCoherent snapshot) :
    (Json.parse NumberLiteral.toNumber (utf8 (snapshotText snapshot))).bind Wire.snapshotOf =
      some snapshot := by
  unfold utf8 snapshotText
  rw [show Json.toWellFormed _ = Wire.send _ from rfl, Wire.parse_arrived, Option.bind_some,
    Wire.snapshotOf_eq h]

/-! ## The tables of a store -/

theorem utf8_eq {text : JsString} (h : Json.wellFormed text = true) : utf8 text = text :=
  Json.toWellFormed_eq h

/-- No two documents, and no two operations of a document, have names that are kept as one text. -/
structure Names.Apart (names : Names) : Prop where
  documents : Set.InjOn utf8 names.documents
  operations : ∀ d ∈ names.documents, Set.InjOn utf8 (names.operations d)

def Names.wellFormed : Names := ⟨{d | Json.wellFormed d = true}, fun _ => {id | Json.wellFormed id = true}⟩

theorem utf8_injOn : Set.InjOn utf8 {text | Json.wellFormed text = true} := by
  intro text h text' h' heq
  rwa [utf8_eq h, utf8_eq h'] at heq

theorem Names.apart_wellFormed : Names.wellFormed.Apart := ⟨utf8_injOn, fun _ _ => utf8_injOn⟩

def SqliteOperationRow.of (row : OperationRow) : SqliteOperationRow :=
  ⟨row.serverSeq, utf8 row.documentId, utf8 row.opId, utf8 (operationText row.operation)⟩

def SqliteSnapshotRow.of (row : ServerSnapshotRow) : SqliteSnapshotRow :=
  ⟨utf8 row.documentId, row.snapshotSeq, row.snapshotVersion, utf8 (snapshotText row.snapshot)⟩

/-- The rows of the store have such names. -/
def OperationStore.Named (names : Names) (s : OperationStore) : Prop :=
  ∀ row ∈ s.operations, row.documentId ∈ names.documents ∧ row.opId ∈ names.operations row.documentId

/-- The tables hold the texts of the rows of the store. -/
structure Represents (names : Names) (db : SqliteDatabase) (s : OperationStore) : Prop where
  apart : names.Apart
  version : db.userVersion = SqliteDatabase.SERVER_SCHEMA_VERSION
  operations : db.operations = some (s.operations.map .of)
  sequence : db.sequence = s.lastServerSeq
  snapshots : ∃ table, db.snapshots = some table ∧ ∀ d ∈ names.documents,
    table.get? (utf8 d) = (s.snapshots.get? d).map .of
  named : s.Named names
  valid : ∀ row ∈ s.operations, ValidOperation row.operation
  coherent : ∀ d row, s.snapshots.get? d = some row → TextReplica.SnapshotCoherent row.snapshot

namespace Represents

variable {names : Names} {db : SqliteDatabase} {s : OperationStore} {d : JsString}

theorem rows (h : Represents names db s) : db.rows = s.operations.map .of := by
  unfold SqliteDatabase.rows
  rw [h.operations]
  rfl

theorem created (hapart : names.Apart) : Represents names .created .empty where
  apart := hapart
  version := rfl
  operations := rfl
  sequence := rfl
  snapshots := ⟨_, rfl, fun _ _ => rfl⟩
  named _ h := by cases h
  valid _ h := by cases h
  coherent _ _ h := by cases h

theorem document_iff (h : Represents names db s) (hd : d ∈ names.documents) {row : OperationRow}
    (hrow : row ∈ s.operations) : utf8 row.documentId = utf8 d ↔ row.documentId = d :=
  h.apart.documents.eq_iff (h.named row hrow).1 hd

/-- What a query of the operations of a document selects. -/
theorem select (h : Represents names db s) (hd : d ∈ names.documents) (p : Int → Bool) :
    db.rows.filter (fun row => row.documentId = utf8 d ∧ p row.serverSeq = true) =
      (s.operations.filter fun row => row.documentId = d ∧ p row.serverSeq = true).map .of := by
  rw [h.rows, List.filter_map]
  refine congrArg _ (List.filter_congr fun row hrow => ?_)
  exact decide_eq_decide.2 (and_congr_left' (h.document_iff hd hrow))

theorem select_all (h : Represents names db s) (hd : d ∈ names.documents) :
    db.rows.filter (·.documentId = utf8 d) = (s.operations.filter (·.documentId = d)).map .of := by
  rw [h.rows, List.filter_map]
  refine congrArg _ (List.filter_congr fun row hrow => ?_)
  exact decide_eq_decide.2 (h.document_iff hd hrow)

/-- A row is read as the row that it holds the text of. -/
theorem mapOperationRow_of {row : OperationRow} (h : ValidOperation row.operation) :
    SqliteDatabase.mapOperationRow (.of row) = .ok (OperationStore.mapOperationRow row) := by
  unfold SqliteDatabase.mapOperationRow SqliteOperationRow.of
  rw [parseOperation_text h]
  rfl

theorem mapM_rows : ∀ {rows : List OperationRow}, (∀ row ∈ rows, ValidOperation row.operation) →
    (rows.map SqliteOperationRow.of).mapM SqliteDatabase.mapOperationRow =
      .ok (rows.map OperationStore.mapOperationRow)
  | [], _ => rfl
  | row :: rows, h => by
    obtain ⟨hrow, hrows⟩ := List.forall_mem_cons.1 h
    rw [List.map_cons, List.mapM_cons, mapOperationRow_of hrow, mapM_rows hrows]
    rfl

theorem loadOperationsAfter (h : Represents names db s) (hd : d ∈ names.documents)
    (after through : Int) :
    db.loadOperationsAfter d after through = .ok (s.loadOperationsAfter d after through) := by
  have hselect := h.select hd fun seq => seq > after ∧ seq ≤ through
  simp only [decide_eq_true_eq] at hselect
  unfold SqliteDatabase.loadOperationsAfter OperationStore.loadOperationsAfter
  rw [hselect, mapM_rows fun row hrow => h.valid row (List.mem_filter.1 hrow).1]

theorem loadOperationsThrough (h : Represents names db s) (hd : d ∈ names.documents) (through : Int) :
    db.loadOperationsThrough d through = .ok (s.loadOperationsThrough d through) := by
  have hselect := h.select hd fun seq => seq ≤ through
  simp only [decide_eq_true_eq] at hselect
  unfold SqliteDatabase.loadOperationsThrough OperationStore.loadOperationsThrough
  rw [hselect, mapM_rows fun row hrow => h.valid row (List.mem_filter.1 hrow).1]

theorem getLatestServerSeq (h : Represents names db s) (hd : d ∈ names.documents) :
    db.getLatestServerSeq d = s.getLatestServerSeq d := by
  unfold SqliteDatabase.getLatestServerSeq OperationStore.getLatestServerSeq
  rw [h.select_all hd, List.map_map]
  rfl

theorem countOperations (h : Represents names db s) (hd : d ∈ names.documents) :
    db.countOperations d = s.countOperations d := by
  unfold SqliteDatabase.countOperations OperationStore.countOperations
  rw [h.select_all hd, List.length_map]

theorem countOperationsAfter (h : Represents names db s) (hd : d ∈ names.documents)
    (after through : Int) :
    db.countOperationsAfter d after through = s.countOperationsAfter d after through := by
  have hselect := h.select hd fun seq => seq > after ∧ seq ≤ through
  simp only [decide_eq_true_eq] at hselect
  unfold SqliteDatabase.countOperationsAfter OperationStore.countOperationsAfter
  rw [hselect, List.length_map]

theorem log (h : Represents names db s) (hd : d ∈ names.documents) : db.log d = s.log d := by
  unfold SqliteDatabase.log OperationStore.log
  rw [h.select_all hd, List.filterMap_map, ← List.filterMap_eq_map]
  refine List.filterMap_congr fun row hrow => ?_
  simp only [Function.comp_apply]
  rw [mapOperationRow_of (h.valid row (List.mem_filter.1 hrow).1)]
  rfl

theorem findOperation (h : Represents names db s) (hd : d ∈ names.documents) {opId : JsString}
    (hopId : opId ∈ names.operations d) :
    db.findOperation d opId = (s.findOperation d opId).map .of := by
  unfold SqliteDatabase.findOperation OperationStore.findOperation
  rw [h.rows, List.find?_map]
  refine congrArg _ (List.find?_congr fun row hrow => decide_eq_decide.2 ?_)
  refine (and_congr_left' (h.document_iff hd hrow)).trans (and_congr_right fun hdocument => ?_)
  have hrowId := (h.named row hrow).2
  rw [hdocument] at hrowId
  exact (h.apart.operations d hd).eq_iff hrowId hopId

/-! ## Appending -/

theorem insertOperation (h : Represents names db s) (hd : d ∈ names.documents)
    {operation : TextOperation} (hopId : operation.opId ∈ names.operations d)
    (hvalid : ValidOperation operation) :
    Represents names (db.insertOperation d operation) (s.insertOperation d operation) where
  apart := h.apart
  version := h.version
  operations := by
    unfold SqliteDatabase.insertOperation OperationStore.insertOperation
    simp only
    rw [h.rows, h.sequence, List.map_append]
    rfl
  sequence := by
    show db.sequence + 1 = s.lastServerSeq + 1
    rw [h.sequence]
  snapshots := h.snapshots
  named := fun row hrow => by
    rcases List.mem_append.1 hrow with hrow | hrow
    · exact h.named row hrow
    · rw [List.mem_singleton.1 hrow]
      exact ⟨hd, hopId⟩
  valid := fun row hrow => by
    rcases List.mem_append.1 hrow with hrow | hrow
    · exact h.valid row hrow
    · rw [List.mem_singleton.1 hrow]
      exact hvalid
  coherent := h.coherent

/-- **An append answers as the store does.** -/
theorem appendOperation (h : Represents names db s) (hd : d ∈ names.documents)
    {operation : TextOperation} (hopId : operation.opId ∈ names.operations d) :
    SyncServer.Agrees (Represents names) (db.appendOperation d operation)
      (s.appendOperation d operation) := by
  unfold SqliteDatabase.appendOperation OperationStore.appendOperation
  cases hvalid : validateOperation operation with
  | error e => exact Or.inl ⟨e, rfl, rfl⟩
  | ok u =>
    simp only
    rw [h.findOperation hd hopId]
    cases hfind : s.findOperation d operation.opId with
    | none =>
      refine Or.inr ⟨⟨s.lastServerSeq + 1, true⟩, db.insertOperation d operation,
        s.insertOperation d operation, ?_, rfl, h.insertOperation hd hopId hvalid⟩
      simp only [Option.map_none]
      rw [h.sequence]
    | some row =>
      obtain ⟨hrow, -, -⟩ := OperationStore.findOperation_some hfind
      simp only [Option.map_some, SqliteOperationRow.of, parseOperation_text (h.valid row hrow)]
      by_cases hequal : operationsEqual row.operation operation = true
      · simp only [hequal, not_true_eq_false, if_false]
        exact Or.inr ⟨_, _, _, rfl, rfl, h⟩
      · simp only [hequal, Bool.false_eq_true, not_false_eq_true, if_true]
        exact Or.inl ⟨_, rfl, rfl⟩

/-! ## Snapshots -/

theorem loadValidSnapshot (h : Represents names db s) (hd : d ∈ names.documents) :
    db.loadValidSnapshot d = s.loadValidSnapshot d := by
  obtain ⟨table, htable, hrows⟩ := h.snapshots
  unfold SqliteDatabase.loadValidSnapshot SqliteDatabase.loadSnapshotRow
    OperationStore.loadValidSnapshot OperationStore.loadSnapshotRow
  rw [htable, Option.getD_some, hrows d hd]
  cases hrow : s.snapshots.get? d with
  | none => rfl
  | some row =>
    have hparse := parseSnapshot_text (h.coherent d row hrow)
    cases hload : TextReplica.fromSnapshot row.snapshot with
    | error _ => simp only [Option.map_some, SqliteSnapshotRow.of, hparse, hload]
    | ok _ => simp only [Option.map_some, SqliteSnapshotRow.of, hparse, hload]

theorem saveSnapshotRow (h : Represents names db s) {row : ServerSnapshotRow}
    (hrow : row.documentId ∈ names.documents)
    (hcoherent : TextReplica.SnapshotCoherent row.snapshot) :
    Represents names (db.saveSnapshotRow ⟨row.documentId, row.snapshotSeq, row.snapshotVersion,
      snapshotText row.snapshot⟩) (s.saveSnapshotRow row) := by
  obtain ⟨table, htable, hrows⟩ := h.snapshots
  refine ⟨h.apart, h.version, h.operations, h.sequence, ?_, h.named, h.valid, fun d row' hget => ?_⟩
  · unfold SqliteDatabase.saveSnapshotRow OperationStore.saveSnapshotRow
    simp only [htable, Option.getD_some, Option.some.injEq, exists_eq_left']
    intro d hd
    rw [InsMap.get?_set, Table.get?_put, hrows d hd]
    simp only [h.apart.documents.eq_iff hrow hd]
    split <;> rfl
  · unfold OperationStore.saveSnapshotRow at hget
    simp only [Table.get?_put] at hget
    split at hget
    · cases hget
      exact hcoherent
    · exact h.coherent d row' hget

theorem tryBuildSnapshot (h : Represents names db s) (hd : d ∈ names.documents) (rowWritten : Bool)
    (barrier : Int) :
    ∃ db', db.tryBuildSnapshot rowWritten d barrier =
        .ok ((s.tryBuildSnapshot rowWritten d barrier).1, db') ∧
      Represents names db' (s.tryBuildSnapshot rowWritten d barrier).2 := by
  unfold SqliteDatabase.tryBuildSnapshot OperationStore.tryBuildSnapshot
  rw [h.loadOperationsThrough hd]
  simp only
  cases hexport : exportPrefixSnapshot (s.loadOperationsThrough d barrier) with
  | error e => exact ⟨db, rfl, h⟩
  | ok snapshot =>
    simp only
    cases rowWritten with
    | false => exact ⟨db, rfl, h⟩
    | true =>
      exact ⟨_, rfl, @saveSnapshotRow names db s h ⟨d, barrier, SERVER_SNAPSHOT_ENVELOPE_VERSION, snapshot⟩
        hd (exportPrefixSnapshot_sound hexport).1⟩

theorem prepareSnapshotBootstrap (h : Represents names db s) (hd : d ∈ names.documents)
    (rowWritten : Bool) (barrier : Int) :
    ∃ db', db.prepareSnapshotBootstrap rowWritten d barrier =
        .ok ((s.prepareSnapshotBootstrap rowWritten d barrier).1, db') ∧
      Represents names db' (s.prepareSnapshotBootstrap rowWritten d barrier).2 := by
  obtain ⟨db', hbuilt, hrep⟩ := h.tryBuildSnapshot hd rowWritten barrier
  unfold SqliteDatabase.prepareSnapshotBootstrap OperationStore.prepareSnapshotBootstrap
  simp only [h.countOperations hd, h.loadValidSnapshot hd, h.countOperationsAfter hd, hbuilt]
  split
  · exact ⟨db, rfl, h⟩
  · cases s.loadValidSnapshot d with
    | none =>
      simp only
      split
      · exact ⟨db, rfl, h⟩
      · exact ⟨db', rfl, hrep⟩
    | some existing =>
      simp only
      split
      · exact ⟨db', rfl, hrep⟩
      · exact ⟨db, rfl, h⟩

/-- **A sync message is the one that the store builds.** -/
theorem buildSyncMessage (h : Represents names db s) (hd : d ∈ names.documents) (rowWritten : Bool)
    (lastServerSeq : Int) (capable : Bool) :
    ∃ db', db.buildSyncMessage rowWritten d lastServerSeq capable =
        .ok ((s.buildSyncMessage rowWritten d lastServerSeq capable).1, db') ∧
      Represents names db' (s.buildSyncMessage rowWritten d lastServerSeq capable).2 := by
  have hfull : ∀ {db s}, Represents names db s → ∀ barrier,
      db.fullHistorySync d lastServerSeq barrier = .ok (s.fullHistorySync d lastServerSeq barrier) := by
    intro db s h barrier
    unfold SqliteDatabase.fullHistorySync
    rw [h.loadOperationsAfter hd]
    rfl
  obtain ⟨db', hprepared, hrep⟩ :=
    h.prepareSnapshotBootstrap hd rowWritten (s.getLatestServerSeq d)
  unfold SqliteDatabase.buildSyncMessage OperationStore.buildSyncMessage
  simp only [h.getLatestServerSeq hd]
  split
  · rw [hfull h]
    exact ⟨db, rfl, h⟩
  · rw [hprepared]
    cases (s.prepareSnapshotBootstrap rowWritten d (s.getLatestServerSeq d)).1 with
    | none =>
      simp only
      rw [hfull hrep]
      exact ⟨db', rfl, hrep⟩
    | some bootstrap =>
      simp only
      rw [hrep.loadOperationsAfter hd]
      exact ⟨db', rfl, hrep⟩

end Represents

/-- **For names that stay apart the tables answer as the store does.** -/
theorem sqlite_simulates (names : Names) : SyncServer.Simulates names (Represents names) where
  log := fun h _ hd => (h.log hd).symm
  latest := fun h _ hd => (h.getLatestServerSeq hd).symm
  append := fun h _ hd _ hopId => h.appendOperation hd hopId
  sync := fun h _ hd rowWritten lastServerSeq capable => by
    obtain ⟨db', hdb, hrep⟩ := h.buildSyncMessage hd rowWritten lastServerSeq capable
    exact Or.inr ⟨_, db', _, hdb, rfl, hrep⟩
  record := fun h _ => h

/-! ## Calls -/

/-- What is asked of a store, and a restart of the server. -/
inductive StoreCall where
  | append (documentId : JsString) (operation : TextOperation)
  | sync (rowWritten : Bool) (documentId : JsString) (lastServerSeq : Int) (snapshotCapable : Bool)
  | latest (documentId : JsString)
  | restart

inductive StoreAnswer where
  | appended (answer : Except JsError AppendOperationResult)
  | synced (answer : Except JsError SyncMessage)
  | latest (serverSeq : Int)
  | opened (answer : Except IncompatibleServerSchemaError Unit)

/-- A transaction or a statement that fails leaves the tables as they are. -/
def SqliteDatabase.call (db : SqliteDatabase) : StoreCall → StoreAnswer × SqliteDatabase
  | .append d operation =>
    match db.appendOperation d operation with
    | .error e => (.appended (.error e), db)
    | .ok (result, db') => (.appended (.ok result), db')
  | .sync rowWritten d lastServerSeq capable =>
    match db.buildSyncMessage rowWritten d lastServerSeq capable with
    | .error e => (.synced (.error e), db)
    | .ok (message, db') => (.synced (.ok message), db')
  | .latest d => (.latest (db.getLatestServerSeq d), db)
  | .restart =>
    match db.migrateServerSchema with
    | .error e => (.opened (.error e), db)
    | .ok db' => (.opened (.ok ()), db')

/-- The store that never restarts. -/
def OperationStore.call (s : OperationStore) : StoreCall → StoreAnswer × OperationStore
  | .append d operation =>
    match s.appendOperation d operation with
    | .error e => (.appended (.error e), s)
    | .ok (result, s') => (.appended (.ok result), s')
  | .sync rowWritten d lastServerSeq capable =>
    let built := s.buildSyncMessage rowWritten d lastServerSeq capable
    (.synced (.ok built.1), built.2)
  | .latest d => (.latest (s.getLatestServerSeq d), s)
  | .restart => (.opened (.ok ()), s)

/-- The call hands these names only to SQLite; what is in the operation does not matter. -/
def StoreCall.Named (names : Names) : StoreCall → Prop
  | .append d operation => d ∈ names.documents ∧ operation.opId ∈ names.operations d
  | .sync _ d _ _ => d ∈ names.documents
  | .latest d => d ∈ names.documents
  | .restart => True

/-- A file that can be opened, and the store that it holds: a file that is new, one from before
there were snapshots, or one of the current schema. -/
inductive Opens (names : Names) : SqliteDatabase → OperationStore → Prop
  | fresh (hapart : names.Apart) : Opens names .fresh .empty
  | first {db : SqliteDatabase} {s : OperationStore} (hapart : names.Apart)
      (hversion : db.userVersion = 1)
      (hoperations : db.operations = some (s.operations.map .of))
      (hsequence : db.sequence = s.lastServerSeq) (htable : db.snapshots = none)
      (hnamed : s.Named names) (hvalid : ∀ row ∈ s.operations, ValidOperation row.operation)
      (hsnapshots : s.snapshots = .empty) : Opens names db s
  | current {db : SqliteDatabase} {s : OperationStore} (h : Represents names db s) : Opens names db s

/-- **Opening a file brings it to the current schema and loses nothing.** -/
theorem Opens.migrate {names : Names} {db : SqliteDatabase} {s : OperationStore}
    (h : Opens names db s) : ∃ db', db.migrateServerSchema = .ok db' ∧ Represents names db' s := by
  cases h with
  | fresh hapart => exact ⟨_, rfl, .created hapart⟩
  | first hapart hversion hoperations hsequence htable hnamed hvalid hsnapshots =>
    refine ⟨{ db.createSnapshots with userVersion := 2 }, ?_, hapart, rfl, hoperations, hsequence,
      ⟨.empty, ?_, fun d _ => ?_⟩, hnamed, hvalid, fun d row hrow => ?_⟩
    · have hknown : ¬ db.userVersion > SqliteDatabase.SERVER_SCHEMA_VERSION := by
        rw [hversion]
        decide
      have hcreated : ¬ db.userVersion < 1 := by
        rw [hversion]
        decide
      have hbehind : db.userVersion < 2 := by
        rw [hversion]
        decide
      unfold SqliteDatabase.migrateServerSchema
      simp only [if_neg hknown, if_neg hcreated, if_pos hbehind]
    · unfold SqliteDatabase.createSnapshots
      rw [htable]
      rfl
    · rw [hsnapshots]
      rfl
    · rw [hsnapshots] at hrow
      cases hrow
  | current h =>
    have hknown : ¬ db.userVersion > SqliteDatabase.SERVER_SCHEMA_VERSION := by
      rw [h.version]
      decide
    have hcreated : ¬ db.userVersion < 1 := by
      rw [h.version]
      decide
    have hcurrent : ¬ db.userVersion < 2 := by
      rw [h.version]
      decide
    refine ⟨db, ?_, h⟩
    unfold SqliteDatabase.migrateServerSchema
    simp only [if_neg hknown, if_neg hcreated, if_neg hcurrent]

theorem Represents.call {names : Names} {db : SqliteDatabase} {s : OperationStore}
    (h : Represents names db s) {c : StoreCall} (hc : c.Named names) :
    (db.call c).1 = (s.call c).1 ∧ Represents names (db.call c).2 (s.call c).2 := by
  unfold SqliteDatabase.call OperationStore.call
  cases c with
  | append d operation =>
    rcases h.appendOperation hc.1 hc.2 with ⟨e, hdb, hs⟩ | ⟨result, db', s', hdb, hs, hrep⟩
    · simp only [hdb, hs]
      exact ⟨trivial, h⟩
    · simp only [hdb, hs]
      exact ⟨trivial, hrep⟩
  | sync rowWritten d lastServerSeq capable =>
    obtain ⟨db', hdb, hrep⟩ := h.buildSyncMessage hc rowWritten lastServerSeq capable
    simp only [hdb]
    exact ⟨trivial, hrep⟩
  | latest d =>
    refine ⟨?_, h⟩
    simp only
    rw [h.getLatestServerSeq hc]
  | restart =>
    obtain ⟨db', hdb, hrep⟩ := (Opens.current h).migrate
    simp only [hdb]
    exact ⟨trivial, hrep⟩

/-- **The tables refine the store.**  Once a file is open, and wherever the server is started again,
every call is answered as the store that never restarts answers it, for names that stay apart. -/
theorem sqlite_refines {names : Names} {db : SqliteDatabase} {s : OperationStore}
    (hopens : Opens names db s) (calls : List StoreCall) (hnamed : ∀ c ∈ calls, c.Named names) :
    Runs.answers SqliteDatabase.call db (.restart :: calls) =
      Runs.answers OperationStore.call s (.restart :: calls) := by
  obtain ⟨db', hmigrate, hrep⟩ := hopens.migrate
  have hopened : db.call .restart = (.opened (.ok ()), db') := by
    simp only [SqliteDatabase.call, hmigrate]
  rw [Runs.answers, Runs.answers, hopened]
  have hanswers := @Runs.answers_eq _ _ _ _ (Represents names) (StoreCall.Named names) SqliteDatabase.call
    OperationStore.call (fun _ _ _ hc h => h.call hc) _ _ _ hrep hnamed
  exact congrArg _ hanswers.1

/-- Half a surrogate pair is stored, the server restarts, and the operation comes again. -/
theorem sqlite_refines_restarted :
    let op : TextOperation := .insert ⟨js "A:1", js "A", 1, 1, ROOT_ID, [0xD83D]⟩
    let other : TextOperation := .insert ⟨js "A:1", js "A", 1, 1, ROOT_ID, js "y"⟩
    let calls : List StoreCall := [.append (js "d") op, .restart, .append (js "d") op,
      .append (js "d") other, .latest (js "d")]
    Runs.answers SqliteDatabase.call .fresh (.restart :: calls) =
      [.opened (.ok ()), .appended (.ok ⟨1, true⟩), .opened (.ok ()), .appended (.ok ⟨1, false⟩),
        .appended (.error (operationIdentityConflictError (js "A:1"))), .latest 1] := by
  intro op other calls
  have hd : Json.wellFormed (js "d") = true := by decide
  have ha : Json.wellFormed (js "A:1") = true := by decide
  have hnamed : ∀ c ∈ calls, c.Named .wellFormed := by
    simp only [calls, List.forall_mem_cons]
    exact ⟨⟨hd, ha⟩, trivial, ⟨hd, ha⟩, ⟨hd, ha⟩, hd, fun _ h => by cases h⟩
  exact (sqlite_refines (.fresh Names.apart_wellFormed) calls hnamed).trans rfl

end LocalFirst
