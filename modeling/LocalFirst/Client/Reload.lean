import LocalFirst.Client.Restore

/-!
# Runs of a controller, and reloading

A run of one controller is a list of jobs of its write queue.  `Live` says that the live
replica stands for exactly what the tables hold; every job that does not fail after its
transaction has committed keeps it.

* `Ingested.storedOps`, `Edited.storedOps`, `Installed.documentOps` — what a transaction adds to
  the stored operations.
* `runJob_live`, `runJobs_live` — one job, and a run.
* `reload_restores_live` — `create` on the stored tables yields the live document.
-/

set_option autoImplicit false

namespace LocalFirst

open TextReplica

/-! ## Stored operations -/

namespace Database

variable {db db' : Database} {documentId timestamp : JsString}

theorem Ingested.storedOps {items : List SequencedOperation} {confirmed : Int}
    (hok : db.Ingestible documentId items confirmed)
    (h : Ingested db db' documentId (items.map (·.operation)) confirmed timestamp) :
    db'.storedOps documentId = db.storedOps documentId ∪ {op | op ∈ items.map (·.operation)} := by
  ext op
  constructor
  · rintro ⟨k, row, hk, hd, rfl⟩
    rcases (h.operations k row).1 hk with hk | ⟨-, op, hop, rfl, rfl⟩
    · exact Or.inl ⟨k, row, hk, hd, rfl⟩
    · exact Or.inr hop
  · rintro (⟨k, row, hk, hd, rfl⟩ | hop)
    · exact ⟨k, row, (h.operations k row).2 (Or.inl hk), hd, rfl⟩
    · cases hrow : db.operations.get? op.opId with
      | none =>
        exact ⟨op.opId, _, (h.operations _ _).2 (Or.inr ⟨hrow, op, hop, rfl, rfl⟩), rfl, rfl⟩
      | some row =>
        obtain ⟨item, hi, rfl⟩ := List.mem_map.1 hop
        obtain ⟨hd, ho⟩ := hok.stored item hi row hrow
        exact ⟨_, row, (h.operations _ _).2 (Or.inl hrow), hd, ho⟩

/-- Rows added under fresh keys. -/
theorem storedOps_of_added {ops : List TextOperation}
    (h : ∀ k row, db'.operations.get? k = some row ↔
      (∃ op ∈ ops, op.opId = k ∧ row = ⟨k, documentId, op, timestamp⟩) ∨
        db.operations.get? k = some row) :
    db'.storedOps documentId = db.storedOps documentId ∪ {op | op ∈ ops} := by
  ext op
  constructor
  · rintro ⟨k, row, hk, hd, rfl⟩
    rcases (h k row).1 hk with ⟨op, hop, rfl, rfl⟩ | hk
    · exact Or.inr hop
    · exact Or.inl ⟨k, row, hk, hd, rfl⟩
  · rintro (⟨k, row, hk, hd, rfl⟩ | hop)
    · exact ⟨k, row, (h k row).2 (Or.inr hk), hd, rfl⟩
    · exact ⟨_, _, (h _ _).2 (Or.inl ⟨op, hop, rfl, rfl⟩), rfl, rfl⟩

theorem documentOps_of_stored {S : Set TextOperation}
    (hb : db'.loadServerBaseline documentId = db.loadServerBaseline documentId)
    (h : db'.storedOps documentId = db.storedOps documentId ∪ S) :
    db'.documentOps documentId = db.documentOps documentId ∪ S := by
  unfold documentOps
  rw [hb]
  cases db.loadServerBaseline documentId with
  | none => exact h
  | some b => simp only [h, Set.union_assoc]

theorem eligible_iff : db.isSnapshotBootstrapEligible documentId = true ↔
    db.getLastServerSeq documentId = 0 ∧ db.loadServerBaseline documentId = none ∧
      db.operationRows documentId = [] ∧ db.outboxRows documentId = [] := by
  simp [isSnapshotBootstrapEligible, and_assoc]

theorem getLastServerSeq_of_get? {n : Int}
    (h : db.syncState.get? documentId = some ⟨documentId, n⟩) : db.getLastServerSeq documentId = n := by
  unfold getLastServerSeq
  rw [h]

theorem Installed.documentOps {bootstrap : SnapshotBootstrap} {items : List SequencedOperation}
    {confirmed : Int} (h : Installed db db' documentId bootstrap items confirmed timestamp) :
    db'.documentOps documentId =
      snapshotOps bootstrap.snapshot ∪ {op | op ∈ items.map (·.operation)} := by
  obtain ⟨-, -, hrows, -⟩ := eligible_iff.1 h.eligible
  have hnil : db.storedOps documentId = ∅ := by
    rw [← setOf_loadOperations]
    unfold loadOperations
    rw [hrows]
    ext
    simp
  have hbase : db'.loadServerBaseline documentId =
      some ⟨documentId, bootstrap.snapshotSeq, bootstrap.snapshot, timestamp⟩ := by
    unfold loadServerBaseline
    rw [h.serverBaselines, if_pos rfl]
  unfold Database.documentOps
  rw [hbase, storedOps_of_added h.operations, hnil, Set.empty_union]

end Database

/-! ## Jobs -/

/-- A job of the write queue. -/
inductive Job where
  | replaceText (nextText : JsString)
  | applyServerOperations (sequencedOperations : List SequencedOperation)
      (confirmedThroughServerSeq : Int)
  | installServerSnapshot (bootstrap : SnapshotBootstrap)
      (sequencedOperations : List SequencedOperation) (confirmedThroughServerSeq : Int)

namespace LocalDocumentController

variable (segmentGraphemes : JsString → List JsString)

def runJob (c : LocalDocumentController) (db : Database) (env : Surroundings) :
    Job → LocalDocumentController × Database × Except JsError LocalDocumentSnapshot
  | .replaceText nextText =>
    let replaced := c.replaceTextNow segmentGraphemes db env nextText
    (replaced.1, replaced.2.1, replaced.2.2.map (·.snapshot))
  | .applyServerOperations items confirmed => c.applyServerOperationsNow db env items confirmed
  | .installServerSnapshot bootstrap items confirmed =>
    c.installServerSnapshotNow db env bootstrap items confirmed

/-- The store transaction of the job commits. -/
def Commits (c : LocalDocumentController) (db : Database) (env : Surroundings) : Job → Prop
  | .replaceText nextText => ∃ elements edit committed, c.replica.getVisibleElements = .ok elements ∧
      computeLocalTextEdit segmentGraphemes elements nextText = some edit ∧
      db.persistLocalTextEdit c.documentId edit env.now env.dateNow = .ok committed
  | .applyServerOperations items confirmed => ∃ db',
      db.persistServerOperations c.documentId items confirmed env.now = .ok db'
  | .installServerSnapshot bootstrap items confirmed => ∃ committed,
      db.installServerBaseline c.documentId bootstrap items confirmed env.now = .ok committed

/-- The job does not fail after its store transaction has committed. -/
def Settles (c : LocalDocumentController) (db : Database) (env : Surroundings) (job : Job) : Prop :=
  Commits segmentGraphemes c db env job →
    ∃ snapshot, (c.runJob segmentGraphemes db env job).2.2 = .ok snapshot

def runJobs : LocalDocumentController → Database → List (Surroundings × Job) →
    LocalDocumentController × Database
  | c, db, [] => (c, db)
  | c, db, (env, job) :: jobs =>
    runJobs (c.runJob segmentGraphemes db env job).1 (c.runJob segmentGraphemes db env job).2.1 jobs

/-- No job of the run fails after its store transaction has committed. -/
def AllSettle : LocalDocumentController → Database → List (Surroundings × Job) → Prop
  | _, _, [] => True
  | c, db, (env, job) :: jobs => Settles segmentGraphemes c db env job ∧
      AllSettle (c.runJob segmentGraphemes db env job).1 (c.runJob segmentGraphemes db env job).2.1
        jobs

/-! ## The live document -/

/-- The live replica stands for exactly what the tables hold. -/
structure Live (c : LocalDocumentController) (db : Database) : Prop where
  inv : Inv c.replica
  ops : c.replica.ops = db.documentOps c.documentId
  baseline : db.BaselineReady c.documentId
  hasServerBaseline : c.hasServerBaseline = (db.loadServerBaseline c.documentId).isSome

variable {segmentGraphemes}

/-- What a checkpoint leaves alone. -/
theorem maybeCreateCheckpoint_spec (c : LocalDocumentController) (db : Database)
    (env : Surroundings) :
    (c.maybeCreateCheckpoint db env).1.replica = c.replica ∧
      (c.maybeCreateCheckpoint db env).1.documentId = c.documentId ∧
      (c.maybeCreateCheckpoint db env).1.clientId = c.clientId ∧
      (c.maybeCreateCheckpoint db env).1.hasServerBaseline = c.hasServerBaseline ∧
      ∃ replicaSnapshots, (c.maybeCreateCheckpoint db env).2 =
        { db with replicaSnapshots := replicaSnapshots } := by
  unfold maybeCreateCheckpoint
  simp only
  repeat' split
  all_goals exact ⟨rfl, rfl, rfl, rfl, _, rfl⟩

theorem Live.checkpoint {c : LocalDocumentController} {db : Database} (h : Live c db)
    (env : Surroundings) :
    Live (c.maybeCreateCheckpoint db env).1 (c.maybeCreateCheckpoint db env).2 := by
  obtain ⟨hr, hd, -, hb, snaps, hdb⟩ := maybeCreateCheckpoint_spec c db env
  obtain ⟨h1, h2, h3, h4⟩ := h
  constructor
  · rw [hr]; exact h1
  · rw [hr, hd, hdb]; exact h2
  · rw [hd, hdb]; exact h3
  · rw [hb, hd, hdb]; exact h4

/-- A job that adds operations to the tables and to the replica keeps them together. -/
theorem Live.extend {c : LocalDocumentController} {db db' : Database} (h : Live c db)
    {ops : List TextOperation} {replica : TextReplica}
    (happly : c.replica.applyAll ops = (replica, .ok ()))
    (hbase : db'.loadServerBaseline c.documentId = db.loadServerBaseline c.documentId)
    (hstored : db'.storedOps c.documentId = db.storedOps c.documentId ∪ {op | op ∈ ops})
    (hready : db'.BaselineReady c.documentId) : Live (c.withReplica replica) db' := by
  obtain ⟨hinv, -, hops⟩ := applyAll_spec ops h.inv
  rw [happly] at hinv hops
  refine ⟨hinv, ?_, hready, ?_⟩
  · show replica.ops = db'.documentOps c.documentId
    rw [hops rfl, h.ops, Database.documentOps_of_stored hbase hstored]
  · show c.hasServerBaseline = (db'.loadServerBaseline c.documentId).isSome
    rw [hbase]
    exact h.hasServerBaseline

theorem replaceTextNow_live {c : LocalDocumentController} {db : Database} (h : Live c db)
    (env : Surroundings) (nextText : JsString)
    (hs : Settles segmentGraphemes c db env (.replaceText nextText)) :
    Live (c.replaceTextNow segmentGraphemes db env nextText).1
      (c.replaceTextNow segmentGraphemes db env nextText).2.1 := by
  unfold Settles runJob at hs
  unfold replaceTextNow at hs ⊢
  cases hv : c.replica.getVisibleElements with
  | error e => exact h
  | ok elements =>
    cases he : computeLocalTextEdit segmentGraphemes elements nextText with
    | none => simpa only [he] using h
    | some edit =>
      cases hp : db.persistLocalTextEdit c.documentId edit env.now env.dateNow with
      | error e => simpa only [he, hp] using h
      | ok committed =>
        obtain ⟨ops, db'⟩ := committed
        have hs := hs ⟨elements, edit, (ops, db'), hv, he, hp⟩
        simp only [hv, he, hp] at hs ⊢
        cases ha : c.replica.applyAll ops with
        | mk replica outcome =>
          cases outcome with
          | error e =>
            rw [ha] at hs
            obtain ⟨_, hs⟩ := hs
            cases hs
          | ok u =>
            simp only
            refine Live.checkpoint ?_ env
            obtain ⟨-, ⟨rfl, rfl⟩ | ⟨-, hed⟩⟩ := Database.persistLocalTextEdit_spec hp
            · cases ha
              exact h
            · refine h.extend ha ?_ (Database.storedOps_of_added hed.operations) ?_
              · unfold Database.loadServerBaseline
                rw [hed.serverBaselines]
              · intro b hb
                unfold Database.loadServerBaseline at hb
                rw [hed.serverBaselines] at hb
                have := h.baseline b hb
                unfold Database.getLastServerSeq at this ⊢
                rw [hed.syncState]
                exact this

theorem applyServerOperationsNow_live {c : LocalDocumentController} {db : Database}
    (h : Live c db) (env : Surroundings) (items : List SequencedOperation) (confirmed : Int)
    (hs : Settles segmentGraphemes c db env (.applyServerOperations items confirmed)) :
    Live (c.applyServerOperationsNow db env items confirmed).1
      (c.applyServerOperationsNow db env items confirmed).2.1 := by
  unfold Settles runJob at hs
  unfold applyServerOperationsNow at hs ⊢
  cases hp : db.persistServerOperations c.documentId items confirmed env.now with
  | error e => exact h
  | ok db' =>
    have hs := hs ⟨db', hp⟩
    simp only [hp] at hs ⊢
    cases ha : c.replica.applyAll (items.map (·.operation)) with
    | mk replica outcome =>
      cases outcome with
      | error e =>
        rw [ha] at hs
        obtain ⟨_, hs⟩ := hs
        cases hs
      | ok u =>
        simp only
        refine Live.checkpoint ?_ env
        obtain ⟨hok, hin⟩ := Database.persistServerOperations_spec.1 db' hp
        have hbase : db'.loadServerBaseline c.documentId = db.loadServerBaseline c.documentId := by
          unfold Database.loadServerBaseline
          rw [hin.serverBaselines]
        refine h.extend ha hbase (hin.storedOps hok) fun b hb => ?_
        rw [hbase] at hb
        obtain ⟨h1, h2, h3, h4⟩ := h.baseline b hb
        rw [Database.getLastServerSeq_of_get? (by rw [hin.syncState, if_pos rfl])]
        have hsafe := (validateServerBatch_iff.1 hok.batch).1.2
        refine ⟨h1, ?_, le_trans h3 (le_max_left _ _), h4⟩
        rcases le_total (db.getLastServerSeq c.documentId) confirmed with hm | hm
        · rw [max_eq_right hm]; exact hsafe
        · rw [max_eq_left hm]; exact h2

theorem installServerSnapshotNow_live {c : LocalDocumentController} {db : Database}
    (h : Live c db) (env : Surroundings) (bootstrap : SnapshotBootstrap)
    (items : List SequencedOperation) (confirmed : Int) :
    Live (c.installServerSnapshotNow db env bootstrap items confirmed).1
      (c.installServerSnapshotNow db env bootstrap items confirmed).2.1 := by
  unfold installServerSnapshotNow
  cases hp : db.installServerBaseline c.documentId bootstrap items confirmed env.now with
  | error e => exact h
  | ok committed =>
    obtain ⟨replica, db'⟩ := committed
    obtain ⟨hb, hin⟩ := Database.installServerBaseline_spec hp
    obtain ⟨-, hsuffix, -, restored, hr, ha⟩ := Database.bootstrapReplica_spec hb
    obtain ⟨hseq, hle, hbatch, -⟩ := validateSnapshotSuffix_iff.1 hsuffix
    have hsafe := (validateServerBatch_iff.1 hbatch).1.2
    obtain ⟨hinv, hops, -⟩ := fromSnapshot_inv hr
    obtain ⟨hinv', -, hops'⟩ := applyAll_spec (items.map (·.operation)) hinv
    rw [ha] at hinv' hops'
    have hbase : db'.loadServerBaseline c.documentId =
        some ⟨c.documentId, bootstrap.snapshotSeq, bootstrap.snapshot, env.now⟩ := by
      unfold Database.loadServerBaseline
      rw [hin.serverBaselines, if_pos rfl]
    refine ⟨hinv', ?_, fun b hb => ?_, ?_⟩
    · show replica.ops = db'.documentOps c.documentId
      rw [hops' rfl, hops, hin.documentOps]
    · have hb : db'.loadServerBaseline c.documentId = some b := hb
      rw [hbase] at hb
      cases hb
      show BaselineOk _ (db'.getLastServerSeq c.documentId)
      rw [Database.getLastServerSeq_of_get? (by rw [hin.syncState, if_pos rfl])]
      exact ⟨hseq, hsafe, hle, fromSnapshot_sound hr⟩
    · show true = (db'.loadServerBaseline c.documentId).isSome
      rw [hbase]
      rfl

/-- **One job.** -/
theorem runJob_live {c : LocalDocumentController} {db : Database} (h : Live c db)
    {env : Surroundings} {job : Job} (hs : Settles segmentGraphemes c db env job) :
    Live (c.runJob segmentGraphemes db env job).1 (c.runJob segmentGraphemes db env job).2.1 := by
  cases job with
  | replaceText nextText => exact replaceTextNow_live h env nextText hs
  | applyServerOperations items confirmed => exact applyServerOperationsNow_live h env items confirmed hs
  | installServerSnapshot bootstrap items confirmed =>
    exact installServerSnapshotNow_live h env bootstrap items confirmed

/-- **A run.** -/
theorem runJobs_live : ∀ {jobs : List (Surroundings × Job)} {c : LocalDocumentController}
    {db : Database}, Live c db → AllSettle segmentGraphemes c db jobs →
      Live (c.runJobs segmentGraphemes db jobs).1 (c.runJobs segmentGraphemes db jobs).2
  | [], _, _, h, _ => h
  | (env, job) :: jobs, c, db, h, ⟨hs, hrest⟩ => by
    unfold runJobs
    exact runJobs_live (runJob_live h hs) hrest

theorem finish_documentId (c : LocalDocumentController) (db : Database) (env : Surroundings) :
    (c.finish db env).1.documentId = c.documentId := (maybeCreateCheckpoint_spec c db env).2.1

/-- A job is about the document of its controller. -/
theorem runJob_documentId (c : LocalDocumentController) (db : Database) (env : Surroundings)
    (job : Job) : (c.runJob segmentGraphemes db env job).1.documentId = c.documentId := by
  cases job with
  | replaceText nextText =>
    show (c.replaceTextNow segmentGraphemes db env nextText).1.documentId = _
    unfold replaceTextNow
    repeat' split
    all_goals first | rfl | exact finish_documentId _ _ _
  | applyServerOperations items confirmed =>
    show (c.applyServerOperationsNow db env items confirmed).1.documentId = _
    unfold applyServerOperationsNow
    repeat' split
    all_goals first | rfl | exact finish_documentId _ _ _
  | installServerSnapshot bootstrap items confirmed =>
    show (c.installServerSnapshotNow db env bootstrap items confirmed).1.documentId = _
    unfold installServerSnapshotNow
    split <;> rfl

theorem runJobs_documentId : ∀ (jobs : List (Surroundings × Job)) (c : LocalDocumentController)
    (db : Database), (c.runJobs segmentGraphemes db jobs).1.documentId = c.documentId
  | [], _, _ => rfl
  | (env, job) :: jobs, c, db => by
    unfold runJobs
    rw [runJobs_documentId jobs, runJob_documentId]

/-! ## Opening -/

/-- What `initialize` leaves alone. -/
theorem initializeDocument_spec (db : Database)
    (documentId defaultTitle clientId timestamp : JsString) :
    (db.initializeDocument documentId defaultTitle clientId timestamp).1.document.id = documentId ∧
      (db.initializeDocument documentId defaultTitle clientId timestamp).2.operations = db.operations ∧
      (db.initializeDocument documentId defaultTitle clientId timestamp).2.serverBaselines =
        db.serverBaselines ∧
      (db.initializeDocument documentId defaultTitle clientId timestamp).2.getLastServerSeq documentId =
        db.getLastServerSeq documentId := by
  refine ⟨?_, rfl, rfl, ?_⟩
  · unfold Database.initializeDocument
    cases hd : db.documents.get? documentId with
    | none => simp
    | some document => simpa [hd] using Table.key_of_get? hd
  · unfold Database.initializeDocument Database.getLastServerSeq
    cases hs : db.syncState.get? documentId with
    | none =>
      have := Table.get?_put_self db.syncState ⟨documentId, 0⟩
      simp only at this ⊢
      rw [this]
    | some row => simp only [hs]

/-- A controller that `create` returns is live. -/
theorem create_live {db db' : Database} {options : LocalDocumentControllerOptions}
    {env : Surroundings} {c : LocalDocumentController} (h : create db options env = (.ok c, db')) :
    Live c db' ∧ c.documentId = options.documentId.getD DEFAULT_DOCUMENT_ID := by
  unfold create at h
  split at h
  · cases h
  · rename_i interval hi
    simp only at h
    split at h
    · cases h
    · rename_i replica count hr
      split at h
      · cases h
      · obtain ⟨hid, hops, hbase, hseq⟩ := initializeDocument_spec db
          (options.documentId.getD DEFAULT_DOCUMENT_ID)
          (options.defaultTitle.getD (if options.documentId.getD DEFAULT_DOCUMENT_ID =
            DEFAULT_DOCUMENT_ID then DEFAULT_DOCUMENT_TITLE else js "Untitled Document"))
          env.clientIdFactory env.now
        obtain ⟨hready, hinv, hrops⟩ := restore_sound hr
        cases h
        constructor
        · exact Live.checkpoint ⟨hinv, hrops, hready, rfl⟩ env
        · rw [(maybeCreateCheckpoint_spec _ _ env).2.1]
          exact hid

/-- `create` writes what `initialize` writes, and perhaps a checkpoint. -/
theorem create_tables {db db' : Database} {options : LocalDocumentControllerOptions}
    {env : Surroundings} {c : LocalDocumentController} (h : create db options env = (.ok c, db')) :
    ∃ defaultTitle replicaSnapshots, db' = { (db.initializeDocument
      (options.documentId.getD DEFAULT_DOCUMENT_ID) defaultTitle env.clientIdFactory env.now).2 with
        replicaSnapshots := replicaSnapshots } := by
  unfold create at h
  split at h
  · cases h
  · simp only at h
    split at h
    · cases h
    · split at h
      · cases h
      · obtain ⟨-, -, -, -, snaps, hdb⟩ := maybeCreateCheckpoint_spec _ _ _
        have hdb' := (Prod.mk.inj h).2
        rw [hdb] at hdb'
        exact ⟨_, snaps, hdb'.symm⟩

/-- `create` succeeds on tables that stand for a coherent set with nothing unresolved. -/
theorem create_ok {db : Database} {options : LocalDocumentControllerOptions} {env : Surroundings}
    {documentId : JsString} {interval : Int} {live : TextReplica}
    (hinterval : resolveSnapshotInterval options.snapshotInterval = .ok interval)
    (hid : options.documentId.getD DEFAULT_DOCUMENT_ID = documentId) (hinv : Inv live)
    (hops : live.ops = db.documentOps documentId) (hbase : db.BaselineReady documentId)
    (hres : live.getUnresolvedOperationIds = []) :
    ∃ c db', create db options env = (.ok c, db') ∧ Inv c.replica ∧ c.replica.ops = live.ops := by
  unfold create
  simp only [hinterval, hid]
  generalize options.defaultTitle.getD (if documentId = DEFAULT_DOCUMENT_ID then
    DEFAULT_DOCUMENT_TITLE else js "Untitled Document") = defaultTitle
  obtain ⟨hdid, hio, hib, his⟩ := initializeDocument_spec db documentId defaultTitle
    env.clientIdFactory env.now
  generalize db.initializeDocument documentId defaultTitle env.clientIdFactory env.now = init
    at hdid hio hib his
  obtain ⟨initialized, db'⟩ := init
  simp only at hdid hio hib his ⊢
  rw [hdid]
  have hdoc : db'.documentOps documentId = db.documentOps documentId := by
    unfold Database.documentOps Database.storedOps Database.loadServerBaseline
    rw [hio, hib]
  have hready : db'.BaselineReady documentId := by
    intro b hb
    unfold Database.loadServerBaseline at hb
    rw [hib] at hb
    rw [his]
    exact hbase b hb
  obtain ⟨r, n, hr⟩ := restore_iff.2 ⟨hready, by rw [hdoc, ← hops]; exact hinv.coherent⟩
  obtain ⟨-, hrinv, hrops⟩ := restore_sound hr
  have hsame : r.ops = live.ops := by rw [hrops, hdoc, hops]
  have hrres : r.getUnresolvedOperationIds = [] := by
    rw [(hrinv.agree hinv hsame).unresolved, hres]
  simp only [hr, hrres, List.length_nil, gt_iff_lt, lt_irrefl, if_false]
  refine ⟨_, _, rfl, ?_, ?_⟩
  · rw [(maybeCreateCheckpoint_spec _ _ env).1]
    exact hrinv
  · rw [(maybeCreateCheckpoint_spec _ _ env).1]
    exact hsame

/-- **Reload restores exactly the live document.**  After any run of a controller in which no
job failed after its transaction had committed, when nothing is unresolved, `create` on the
stored tables, whatever order they return their rows in, yields a controller with the same
known operations and the same visible elements. -/
theorem reload_restores_live {db₀ db₁ : Database} {options : LocalDocumentControllerOptions}
    {env : Surroundings} {c₀ : LocalDocumentController} (jobs : List (Surroundings × Job))
    (hcreate : create db₀ options env = (.ok c₀, db₁))
    (hsettle : AllSettle segmentGraphemes c₀ db₁ jobs)
    (hres : (c₀.runJobs segmentGraphemes db₁ jobs).1.replica.getUnresolvedOperationIds = [])
    (stored : Database) (hstored : (c₀.runJobs segmentGraphemes db₁ jobs).2.SameRows stored)
    (options' : LocalDocumentControllerOptions) (env' : Surroundings) (interval : Int)
    (hid : options'.documentId = options.documentId)
    (hinterval : resolveSnapshotInterval options'.snapshotInterval = .ok interval) :
    ∃ c db', create stored options' env' = (.ok c, db') ∧
      c.replica.getKnownOperationIds =
        (c₀.runJobs segmentGraphemes db₁ jobs).1.replica.getKnownOperationIds ∧
      c.replica.getVisibleElements =
        (c₀.runJobs segmentGraphemes db₁ jobs).1.replica.getVisibleElements := by
  obtain ⟨hlive, hdid⟩ := create_live hcreate
  have hrun := runJobs_live hlive hsettle
  have hsame : (c₀.runJobs segmentGraphemes db₁ jobs).1.documentId = c₀.documentId :=
    runJobs_documentId jobs c₀ db₁
  generalize c₀.runJobs segmentGraphemes db₁ jobs = final at hres hstored hrun hsame
  obtain ⟨c, db⟩ := final
  obtain ⟨hinv, hops, hbase, -⟩ := hrun
  simp only at hres hstored hinv hops hbase hsame
  rw [hsame] at hops hbase
  have hload : stored.loadServerBaseline c₀.documentId = db.loadServerBaseline c₀.documentId :=
    (hstored.serverBaselines _).symm
  have hdoc : stored.documentOps c₀.documentId = db.documentOps c₀.documentId := by
    unfold Database.documentOps Database.storedOps
    rw [hload]
    simp only [hstored.operations]
  obtain ⟨c', db', hc, hinv', hops'⟩ := @create_ok stored _ env' _ _ _ hinterval
    (by rw [hid, ← hdid]) hinv (by rw [hdoc]; exact hops) (fun b hb => by
      rw [hload] at hb
      unfold Database.getLastServerSeq
      rw [← hstored.syncState]
      exact hbase b hb) hres
  have a := hinv'.agree hinv hops'
  exact ⟨c', db', hc, a.known_ids, a.visible⟩

/-- A document typed locally and extended by the server, with a checkpoint after each job. -/
theorem reload_restores_live_typed :
    let options : LocalDocumentControllerOptions := ⟨some (js "d"), none, some 1⟩
    let env : Surroundings := ⟨js "now", 0, js "A", true⟩
    let jobs : List (Surroundings × Job) := [(env, .replaceText (js "a")),
      (env, .applyServerOperations [⟨7, .insert ⟨js "B:1", js "B", 1, 1, ROOT_ID, js "b"⟩⟩] 9)]
    ∃ c₀ db₁ c db', create Database.empty options env = (.ok c₀, db₁) ∧
      create (c₀.runJobs (·.map ([·])) db₁ jobs).2 options env = (.ok c, db') ∧
      c.replica.getVisibleElements = .ok [⟨js "A:1", js "a"⟩, ⟨js "B:1", js "b"⟩] := by
  intro options env jobs
  have hcreate : create Database.empty options env = (.ok _, _) := rfl
  obtain ⟨c, db', hc, -, hvis⟩ := @reload_restores_live (·.map ([·])) _ _ _ _ _ jobs
    hcreate ⟨fun _ => exists_ok_of_isOk (by decide +kernel),
      fun _ => exists_ok_of_isOk (by decide +kernel), trivial⟩ (by decide +kernel) _
    ⟨rfl, fun _ => rfl, fun _ => rfl, fun _ => rfl, fun _ => rfl, fun _ => rfl, fun _ => rfl⟩
    options env 1 rfl rfl
  exact ⟨_, _, c, db', hcreate, hc, hvis.trans (by decide +kernel)⟩

end LocalDocumentController

end LocalFirst
