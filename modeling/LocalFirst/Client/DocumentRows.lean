import LocalFirst.Client.Redelivery
import LocalFirst.Client.Reload

/-!
# The rows of one document

All documents of a browser share its tables, and a transaction is about one of them.

* `Database.SameDocument` — the tables say the same of a document.
* `LocalDocumentController.runJob_others` — a job leaves the other documents alone.
* `LocalDocumentController.Live.sameDocument` — and so their live replicas stay live.
-/

set_option autoImplicit false

namespace LocalFirst

open TextReplica

namespace Database

/-- The tables stand for the same operations of a document, under the same baseline and cursor. -/
structure SameDocument (db db' : Database) (documentId : JsString) : Prop where
  operations : ∀ k row, row.documentId = documentId →
    (db'.operations.get? k = some row ↔ db.operations.get? k = some row)
  serverBaseline : db'.loadServerBaseline documentId = db.loadServerBaseline documentId
  cursor : db'.getLastServerSeq documentId = db.getLastServerSeq documentId

variable {db db' db'' : Database} {documentId d timestamp : JsString}

theorem SameDocument.refl (db : Database) (d : JsString) : SameDocument db db d :=
  ⟨fun _ _ _ => Iff.rfl, rfl, rfl⟩

theorem SameDocument.trans (h : SameDocument db db' d) (h' : SameDocument db' db'' d) :
    SameDocument db db'' d where
  operations k row hrow := (h'.operations k row hrow).trans (h.operations k row hrow)
  serverBaseline := h'.serverBaseline.trans h.serverBaseline
  cursor := h'.cursor.trans h.cursor

/-- The tables that a document is read from are the same. -/
theorem SameDocument.of_tables (hoperations : db'.operations = db.operations)
    (hbaselines : db'.serverBaselines = db.serverBaselines)
    (hcursor : db'.getLastServerSeq d = db.getLastServerSeq d) : SameDocument db db' d where
  operations k row _ := by rw [hoperations]
  serverBaseline := by
    unfold loadServerBaseline
    rw [hbaselines]
  cursor := hcursor

theorem SameLog.sameDocument (h : SameLog db db') (d : JsString) : SameDocument db db' d :=
  .of_tables h.operations h.serverBaselines (h.cursor d)

theorem SameDocument.documentOps (h : SameDocument db db' d) :
    db'.documentOps d = db.documentOps d := by
  have hstored : db'.storedOps d = db.storedOps d := by
    ext op
    constructor
    · rintro ⟨k, row, hk, hd, rfl⟩
      exact ⟨k, row, (h.operations k row hd).1 hk, hd, rfl⟩
    · rintro ⟨k, row, hk, hd, rfl⟩
      exact ⟨k, row, (h.operations k row hd).2 hk, hd, rfl⟩
  unfold Database.documentOps
  rw [h.serverBaseline, hstored]

theorem SameDocument.baselineReady (h : SameDocument db db' d) (hready : db.BaselineReady d) :
    db'.BaselineReady d := by
  intro b hb
  rw [h.serverBaseline] at hb
  rw [h.cursor]
  exact hready b hb

/-! ## Transactions about another document -/

/-- Rows that are added for one document are not those of another. -/
theorem operations_of_added {ops : List TextOperation} (hd : d ≠ documentId)
    (h : ∀ k row, db'.operations.get? k = some row ↔
      (∃ op ∈ ops, op.opId = k ∧ row = ⟨k, documentId, op, timestamp⟩) ∨
        db.operations.get? k = some row) (k : JsString) (row : OperationRecord)
    (hrow : row.documentId = d) :
    db'.operations.get? k = some row ↔ db.operations.get? k = some row := by
  rw [h]
  refine or_iff_right ?_
  rintro ⟨op, -, -, rfl⟩
  exact hd hrow.symm

theorem getLastServerSeq_congr (h : db'.syncState.get? d = db.syncState.get? d) :
    db'.getLastServerSeq d = db.getLastServerSeq d := by
  unfold getLastServerSeq
  rw [h]

theorem Edited.others {ops : List TextOperation} {outboxCreatedAt : Int}
    (h : Edited db db' documentId ops timestamp outboxCreatedAt) (hd : d ≠ documentId) :
    SameDocument db db' d where
  operations := operations_of_added hd h.operations
  serverBaseline := by
    unfold loadServerBaseline
    rw [h.serverBaselines]
  cursor := getLastServerSeq_congr (by rw [h.syncState])

theorem Ingested.others {ops : List TextOperation} {confirmed : Int}
    (h : Ingested db db' documentId ops confirmed timestamp) (hd : d ≠ documentId) :
    SameDocument db db' d where
  operations k row hrow := by
    rw [h.operations]
    refine or_iff_left ?_
    rintro ⟨-, op, -, -, rfl⟩
    exact hd hrow.symm
  serverBaseline := by
    unfold loadServerBaseline
    rw [h.serverBaselines]
  cursor := getLastServerSeq_congr (by rw [h.syncState, if_neg hd.symm])

theorem Installed.others {bootstrap : SnapshotBootstrap} {items : List SequencedOperation}
    {confirmed : Int} (h : Installed db db' documentId bootstrap items confirmed timestamp)
    (hd : d ≠ documentId) : SameDocument db db' d where
  operations := operations_of_added hd h.operations
  serverBaseline := by
    unfold loadServerBaseline
    rw [h.serverBaselines, if_neg hd.symm]
  cursor := getLastServerSeq_congr (by rw [h.syncState, if_neg hd.symm])

theorem initializeDocument_sameDocument (db : Database)
    (documentId defaultTitle clientId timestamp d : JsString) :
    SameDocument db (db.initializeDocument documentId defaultTitle clientId timestamp).2 d :=
  .of_tables rfl rfl (initializeDocument_cursor db documentId defaultTitle clientId timestamp d)

end Database

namespace LocalDocumentController

variable {segmentGraphemes : JsString → List JsString} {c : LocalDocumentController}
  {db db' : Database} {d : JsString}

theorem maybeCreateCheckpoint_sameDocument (c : LocalDocumentController) (db : Database)
    (env : Surroundings) (d : JsString) : db.SameDocument (c.maybeCreateCheckpoint db env).2 d := by
  obtain ⟨-, -, -, -, snapshots, heq⟩ := maybeCreateCheckpoint_spec c db env
  rw [heq]
  exact .of_tables rfl rfl rfl

/-- **A job leaves the other documents alone.** -/
theorem runJob_others (c : LocalDocumentController) (db : Database) (env : Surroundings) (job : Job)
    (hd : d ≠ c.documentId) : db.SameDocument (c.runJob segmentGraphemes db env job).2.1 d := by
  cases job with
  | replaceText nextText =>
    show db.SameDocument (c.replaceTextNow segmentGraphemes db env nextText).2.1 d
    unfold replaceTextNow
    split
    · exact .refl db d
    · split
      · exact .refl db d
      · split
        · exact .refl db d
        · rename_i ops db' hp
          have hsame : db.SameDocument db' d := by
            obtain ⟨-, ⟨-, rfl⟩ | ⟨-, hed⟩⟩ := Database.persistLocalTextEdit_spec hp
            · exact .refl _ d
            · exact hed.others hd
          split
          · exact hsame
          · exact hsame.trans (maybeCreateCheckpoint_sameDocument _ db' env d)
  | applyServerOperations items confirmed =>
    show db.SameDocument (c.applyServerOperationsNow db env items confirmed).2.1 d
    unfold applyServerOperationsNow
    split
    · exact .refl db d
    · rename_i db' hp
      have hsame : db.SameDocument db' d :=
        ((Database.persistServerOperations_spec.1 db' hp).2).others hd
      split
      · exact hsame
      · exact hsame.trans (maybeCreateCheckpoint_sameDocument _ db' env d)
  | installServerSnapshot bootstrap items confirmed =>
    show db.SameDocument (c.installServerSnapshotNow db env bootstrap items confirmed).2.1 d
    unfold installServerSnapshotNow
    split
    · exact .refl db d
    · rename_i replica db' hp
      exact (Database.installServerBaseline_spec hp).2.others hd

/-- Opening a document adds nothing to any, whether it succeeds or not. -/
theorem create_sameDocument (db : Database) (options : LocalDocumentControllerOptions)
    (env : Surroundings) (d : JsString) : db.SameDocument (create db options env).2 d := by
  unfold create
  split
  · exact .refl db d
  · simp only
    have hinit := fun defaultTitle => db.initializeDocument_sameDocument
      (options.documentId.getD DEFAULT_DOCUMENT_ID) defaultTitle env.clientIdFactory env.now d
    split
    · exact hinit _
    · split
      · exact hinit _
      · exact (hinit _).trans (maybeCreateCheckpoint_sameDocument _ _ env d)

/-- A live replica stays live when nothing is written to its document. -/
theorem Live.sameDocument (h : Live c db) (hsame : db.SameDocument db' c.documentId) : Live c db' where
  inv := h.inv
  ops := h.ops.trans hsame.documentOps.symm
  baseline := hsame.baselineReady h.baseline
  hasServerBaseline := by
    rw [hsame.serverBaseline]
    exact h.hasServerBaseline

end LocalDocumentController

end LocalFirst
