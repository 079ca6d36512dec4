import LocalFirst.Client.Reload

/-!
# Server ingest across store and replica

`applyServerOperationsNow` commits the store transaction, cursor included, and only then
applies the operations to the replica, one at a time.  The store checks the operations one by
one against its rows; the replica also rejects anchor cycles and inserts anchored on deletes.

* `Reachable` — the states of a controller.
* `AllOrNothing` — ingest as one atomic step over store and replica.
* `allOrNothing_iff` — when an ingest is atomic.
* `ingest_not_atomic` — a batch of two inserts anchored on each other is committed by the store,
  rejected by the replica, and the document no longer opens.
-/

set_option autoImplicit false

namespace LocalFirst

open TextReplica

namespace LocalDocumentController

variable {segmentGraphemes : JsString → List JsString}

/-- The states of a controller and its database.  Other tabs and documents share the database,
so it may change between two jobs. -/
inductive Reachable (segmentGraphemes : JsString → List JsString) :
    LocalDocumentController → Database → Prop
  | opened {db db' : Database} {options : LocalDocumentControllerOptions} {env : Surroundings}
      {c : LocalDocumentController} (h : create db options env = (.ok c, db')) :
      Reachable segmentGraphemes c db'
  | job {c : LocalDocumentController} {db : Database} (env : Surroundings) (job : Job)
      (h : Reachable segmentGraphemes c db) :
      Reachable segmentGraphemes (c.runJob segmentGraphemes db env job).1
        (c.runJob segmentGraphemes db env job).2.1
  | elsewhere {c : LocalDocumentController} {db : Database} (db' : Database)
      (h : Reachable segmentGraphemes c db) : Reachable segmentGraphemes c db'

theorem Reachable.runJobs : ∀ (jobs : List (Surroundings × Job)) {c : LocalDocumentController}
    {db : Database}, Reachable segmentGraphemes c db →
      Reachable segmentGraphemes (c.runJobs segmentGraphemes db jobs).1
        (c.runJobs segmentGraphemes db jobs).2
  | [], _, _, h => h
  | (env, next) :: jobs, _, _, h => Reachable.runJobs jobs (.job env next h)

/-- A job keeps the replica invariant, whether or not its promise is rejected. -/
theorem runJob_inv {c : LocalDocumentController} (h : Inv c.replica) (db : Database)
    (env : Surroundings) (job : Job) : Inv (c.runJob segmentGraphemes db env job).1.replica := by
  have hfinish : ∀ (c : LocalDocumentController) (db : Database), Inv c.replica →
      Inv (c.finish db env).1.replica := by
    intro c db hc
    show Inv (c.maybeCreateCheckpoint db env).1.replica
    rw [(maybeCreateCheckpoint_spec c db env).1]
    exact hc
  have happly : ∀ {ops : List TextOperation} {replica : TextReplica} {outcome : Except JsError Unit},
      c.replica.applyAll ops = (replica, outcome) → Inv replica := by
    intro ops replica outcome ha
    have := (applyAll_spec ops h).1
    rw [ha] at this
    exact this
  cases job with
  | replaceText nextText =>
    show Inv (c.replaceTextNow segmentGraphemes db env nextText).1.replica
    unfold replaceTextNow
    split
    · exact h
    · split
      · exact h
      · split
        · exact h
        · split
          · rename_i ha; exact happly ha
          · rename_i ha; exact hfinish _ _ (happly ha)
  | applyServerOperations items confirmed =>
    show Inv (c.applyServerOperationsNow db env items confirmed).1.replica
    unfold applyServerOperationsNow
    split
    · exact h
    · split
      · rename_i ha; exact happly ha
      · rename_i ha; exact hfinish _ _ (happly ha)
  | installServerSnapshot bootstrap items confirmed =>
    show Inv (c.installServerSnapshotNow db env bootstrap items confirmed).1.replica
    unfold installServerSnapshotNow
    split
    · exact h
    · rename_i replica db' hp
      obtain ⟨hb, -⟩ := Database.installServerBaseline_spec hp
      obtain ⟨-, -, -, restored, hr, ha⟩ := Database.bootstrapReplica_spec hb
      have := (applyAll_spec (items.map (·.operation)) (fromSnapshot_inv hr).1).1
      rw [ha] at this
      exact this

theorem Reachable.inv {c : LocalDocumentController} {db : Database}
    (h : Reachable segmentGraphemes c db) : Inv c.replica := by
  induction h with
  | opened h => exact (create_live h).1.inv
  | job env job _ ih => exact runJob_inv ih _ env job
  | elsewhere _ _ ih => exact ih

theorem getSnapshot_ok {c : LocalDocumentController} (h : Inv c.replica) :
    ∃ snapshot, c.getSnapshot = .ok snapshot := by
  obtain ⟨text, ht⟩ := h.materialize_ok
  obtain ⟨elements, he⟩ := h.visible_ok
  unfold getSnapshot
  rw [ht, he]
  exact ⟨_, rfl⟩

theorem finish_ok {c : LocalDocumentController} (h : Inv c.replica) (db : Database)
    (env : Surroundings) : ∃ snapshot, (c.finish db env).2.2 = .ok snapshot := by
  refine getSnapshot_ok (c := (c.maybeCreateCheckpoint db env).1) ?_
  rw [(maybeCreateCheckpoint_spec c db env).1]
  exact h

/-- A fulfilled job returns the snapshot of the controller it leaves. -/
theorem runJob_snapshot {c : LocalDocumentController} {db : Database} {env : Surroundings}
    {job : Job} {snapshot : LocalDocumentSnapshot}
    (h : (c.runJob segmentGraphemes db env job).2.2 = .ok snapshot) :
    (c.runJob segmentGraphemes db env job).1.getSnapshot = .ok snapshot := by
  cases job with
  | replaceText nextText =>
    have hresult : ∀ {outcome : Except JsError LocalDocumentSnapshot} {ops : List TextOperation},
        (outcome.map fun shown => (⟨shown, ops⟩ : LocalEditResult)).map (·.snapshot) =
          .ok snapshot → outcome = .ok snapshot := by
      rintro (e | shown) ops h
      · cases h
      · exact h
    show (c.replaceTextNow segmentGraphemes db env nextText).1.getSnapshot = .ok snapshot
    have h : (c.replaceTextNow segmentGraphemes db env nextText).2.2.map (·.snapshot) =
      .ok snapshot := h
    unfold replaceTextNow at h ⊢
    split at h
    · cases h
    · split at h
      · exact hresult h
      · split at h
        · cases h
        · split at h
          · cases h
          · exact hresult h
  | applyServerOperations items confirmed =>
    show (c.applyServerOperationsNow db env items confirmed).1.getSnapshot = .ok snapshot
    have h : (c.applyServerOperationsNow db env items confirmed).2.2 = .ok snapshot := h
    unfold applyServerOperationsNow at h ⊢
    split at h
    · cases h
    · split at h
      · cases h
      · exact h
  | installServerSnapshot bootstrap items confirmed =>
    show (c.installServerSnapshotNow db env bootstrap items confirmed).1.getSnapshot = .ok snapshot
    have h : (c.installServerSnapshotNow db env bootstrap items confirmed).2.2 = .ok snapshot := h
    unfold installServerSnapshotNow at h ⊢
    split at h
    · cases h
    · exact h

/-- A job that is rejected without having committed changes nothing. -/
theorem runJob_rejected {c : LocalDocumentController} {db : Database} {env : Surroundings}
    {job : Job} {e : JsError} (hs : Settles segmentGraphemes c db env job)
    (h : (c.runJob segmentGraphemes db env job).2.2 = .error e) :
    (c.runJob segmentGraphemes db env job).1 = c ∧
      (c.runJob segmentGraphemes db env job).2.1 = db := by
  have hnot : ¬ Commits segmentGraphemes c db env job := by
    intro hcommits
    obtain ⟨snapshot, hok⟩ := hs hcommits
    rw [h] at hok
    cases hok
  cases job with
  | replaceText nextText =>
    show (c.replaceTextNow segmentGraphemes db env nextText).1 = c ∧
      (c.replaceTextNow segmentGraphemes db env nextText).2.1 = db
    unfold replaceTextNow
    cases hv : c.replica.getVisibleElements with
    | error e => exact ⟨rfl, rfl⟩
    | ok elements =>
      cases hedit : computeLocalTextEdit segmentGraphemes elements nextText with
      | none => simp only [hedit, and_self]
      | some edit =>
        cases hp : db.persistLocalTextEdit c.documentId edit env.now env.dateNow with
        | error e => simp only [hedit, hp, and_self]
        | ok committed => exact absurd ⟨elements, edit, committed, hv, hedit, hp⟩ hnot
  | applyServerOperations items confirmed =>
    show (c.applyServerOperationsNow db env items confirmed).1 = c ∧
      (c.applyServerOperationsNow db env items confirmed).2.1 = db
    unfold applyServerOperationsNow
    split
    · exact ⟨rfl, rfl⟩
    · rename_i db' hp
      exact absurd ⟨db', hp⟩ hnot
  | installServerSnapshot bootstrap items confirmed =>
    show (c.installServerSnapshotNow db env bootstrap items confirmed).1 = c ∧
      (c.installServerSnapshotNow db env bootstrap items confirmed).2.1 = db
    unfold installServerSnapshotNow
    split
    · exact ⟨rfl, rfl⟩
    · rename_i replica db' hp
      exact absurd ⟨(replica, db'), hp⟩ hnot

/-- A live controller forgets nothing. -/
theorem runJob_ops {c : LocalDocumentController} {db : Database} {env : Surroundings} {job : Job}
    (h : Live c db) (hs : Settles segmentGraphemes c db env job) :
    c.replica.ops ⊆ (c.runJob segmentGraphemes db env job).1.replica.ops := by
  cases hout : (c.runJob segmentGraphemes db env job).2.2 with
  | error e => rw [(runJob_rejected hs hout).1]
  | ok snapshot =>
    have happlied : ∀ {ops : List TextOperation} {replica : TextReplica},
        c.replica.applyAll ops = (replica, .ok ()) → c.replica.ops ⊆ replica.ops := by
      intro ops replica ha
      have hops := (applyAll_spec ops h.inv).2.2
      rw [ha] at hops
      rw [hops rfl]
      exact Set.subset_union_left
    have hfinish : ∀ (c : LocalDocumentController) (db : Database),
        (c.finish db env).1.replica = c.replica := fun c db => (maybeCreateCheckpoint_spec c db env).1
    cases job with
    | replaceText nextText =>
      have hout : (c.replaceTextNow segmentGraphemes db env nextText).2.2.map (·.snapshot) =
        .ok snapshot := hout
      show c.replica.ops ⊆ (c.replaceTextNow segmentGraphemes db env nextText).1.replica.ops
      unfold replaceTextNow at hout ⊢
      split at hout
      · cases hout
      · split at hout
        · exact subset_rfl
        · split at hout
          · cases hout
          · split at hout
            · cases hout
            · rename_i ha
              simp only [hfinish]
              exact happlied ha
    | applyServerOperations items confirmed =>
      have hout : (c.applyServerOperationsNow db env items confirmed).2.2 = .ok snapshot := hout
      show c.replica.ops ⊆ (c.applyServerOperationsNow db env items confirmed).1.replica.ops
      unfold applyServerOperationsNow at hout ⊢
      split at hout
      · cases hout
      · split at hout
        · cases hout
        · rename_i ha
          simp only [hfinish]
          exact happlied ha
    | installServerSnapshot bootstrap items confirmed =>
      -- a document that a snapshot is installed in has no operations
      have hout : (c.installServerSnapshotNow db env bootstrap items confirmed).2.2 =
        .ok snapshot := hout
      unfold installServerSnapshotNow at hout
      split at hout
      · cases hout
      · rename_i replica db' hp
        obtain ⟨-, hin⟩ := Database.installServerBaseline_spec hp
        obtain ⟨-, hbase, hrows, -⟩ := Database.eligible_iff.1 hin.eligible
        have hnone : c.replica.ops = ∅ := by
          rw [h.ops]
          unfold Database.documentOps
          rw [hbase]
          show db.storedOps c.documentId = ∅
          rw [← Database.setOf_loadOperations]
          unfold Database.loadOperations
          rw [hrows]
          ext
          simp
        rw [hnone]
        exact Set.empty_subset _

theorem getSnapshot_text {c : LocalDocumentController} {snapshot : LocalDocumentSnapshot}
    (h : c.getSnapshot = .ok snapshot) : c.replica.materialize = .ok snapshot.text ∧
      c.replica.getVisibleElements = .ok snapshot.visibleElements := by
  unfold getSnapshot at h
  split at h
  · cases h
  · split at h
    · cases h
    · cases h
      exact ⟨‹_›, ‹_›⟩

/-! ## Atomicity -/

/-- What a rejected ingest must leave as it was. -/
structure Unchanged (c : LocalDocumentController) (db : Database) (c' : LocalDocumentController)
    (db' : Database) : Prop where
  operations : ∀ k row, row.documentId = c.documentId →
    (db'.operations.get? k = some row ↔ db.operations.get? k = some row)
  outbox : ∀ k marker, marker.documentId = c.documentId →
    (db'.outbox.get? k = some marker ↔ db.outbox.get? k = some marker)
  cursor : db'.getLastServerSeq c.documentId = db.getLastServerSeq c.documentId
  lamportClock : db'.clientMeta.map (·.lamportClock) = db.clientMeta.map (·.lamportClock)
  replica : c'.replica = c.replica
  reloadable : (∃ r n, restore db c.documentId = .ok (r, n)) →
    ∃ r n, restore db' c.documentId = .ok (r, n)

/-- **Ingest as one atomic step**: a rejected batch changes nothing, and a batch that is not
rejected is in the store and in the replica. -/
def AllOrNothing (c : LocalDocumentController) (db : Database) (env : Surroundings)
    (items : List SequencedOperation) (confirmed : Int) : Prop :=
  (∀ e, (c.applyServerOperationsNow db env items confirmed).2.2 = .error e →
    Unchanged c db (c.applyServerOperationsNow db env items confirmed).1
      (c.applyServerOperationsNow db env items confirmed).2.1) ∧
  ∀ snapshot, (c.applyServerOperationsNow db env items confirmed).2.2 = .ok snapshot →
    ∀ item ∈ items,
      item.operation ∈ (c.applyServerOperationsNow db env items confirmed).2.1.storedOps c.documentId ∧
        item.operation ∈ (c.applyServerOperationsNow db env items confirmed).1.replica.ops

theorem AllOrNothing.cursor_of_rejected {c : LocalDocumentController} {db : Database}
    {env : Surroundings} {items : List SequencedOperation} {confirmed : Int}
    (h : AllOrNothing c db env items confirmed)
    (hr : (c.applyServerOperationsNow db env items confirmed).2.2.isOk = false) :
    (c.applyServerOperationsNow db env items confirmed).2.1.getLastServerSeq c.documentId =
      db.getLastServerSeq c.documentId := by
  cases he : (c.applyServerOperationsNow db env items confirmed).2.2 with
  | ok snapshot => rw [he] at hr; cases hr
  | error e => exact (h.1 e he).cursor

/-- Committing the batch changes none of the tables, and the replica knows every operation that
it accepts before the first one it rejects. -/
structure Redelivered (c : LocalDocumentController) (db : Database)
    (items : List SequencedOperation) (confirmed : Int) : Prop where
  stored : ∀ item ∈ items, (db.operations.get? item.operation.opId).isSome = true
  unmarked : ∀ item ∈ items, db.outbox.get? item.operation.opId = none
  cursor : confirmed ≤ db.getLastServerSeq c.documentId
  lamportClock : ∀ m, db.clientMeta = some m → ∀ item ∈ items, item.operation.lamport ≤ m.lamportClock
  known : ∀ pre, pre <+: items.map (·.operation) → Coherent (c.replica.ops ∪ {op | op ∈ pre}) →
    ∀ op ∈ pre, op ∈ c.replica.ops

section

variable {c : LocalDocumentController} {db db' : Database} {items : List SequencedOperation}
  {confirmed : Int} {env : Surroundings}

/-- What the commit of an ingest leaves as it was is what the batch does not change. -/
theorem Redelivered.unchanged (h : Redelivered c db items confirmed) (hinv : Inv c.replica)
    (hin : Database.Ingested db db' c.documentId (items.map (·.operation)) confirmed env.now) :
    Unchanged c db (c.withReplica (c.replica.applyAll (items.map (·.operation))).1) db' := by
  obtain ⟨m, hm, hm'⟩ := hin.clientMeta
  have hops : ∀ k row, db'.operations.get? k = some row ↔ db.operations.get? k = some row := by
    intro k row
    rw [hin.operations]
    refine or_iff_left ?_
    rintro ⟨hnone, op, hop, rfl, -⟩
    obtain ⟨item, hi, rfl⟩ := List.mem_map.1 hop
    have := h.stored item hi
    rw [hnone] at this
    cases this
  have hcursor : db'.getLastServerSeq c.documentId = db.getLastServerSeq c.documentId := by
    rw [Database.getLastServerSeq_of_get? (by rw [hin.syncState, if_pos rfl])]
    exact max_eq_left h.cursor
  have hbase : db'.loadServerBaseline c.documentId = db.loadServerBaseline c.documentId := by
    unfold Database.loadServerBaseline
    rw [hin.serverBaselines]
  refine ⟨fun k row _ => hops k row, fun k marker _ => ?_, hcursor, ?_, ?_, ?_⟩
  · rw [hin.outbox]
    split
    · rename_i hk
      obtain ⟨op, hop, rfl⟩ := List.mem_map.1 hk
      obtain ⟨item, hi, rfl⟩ := List.mem_map.1 hop
      rw [h.unmarked item hi]
    · rfl
  · have hmax : maxLamport m.lamportClock (items.map (·.operation)) = m.lamportClock := by
      refine le_antisymm (maxLamport_le_iff.2 ⟨le_refl _, fun op hop => ?_⟩)
        (maxLamport_le_iff.1 (le_refl _)).1
      obtain ⟨item, hi, rfl⟩ := List.mem_map.1 hop
      exact h.lamportClock m hm item hi
    rw [hm', hm, hmax]
  · exact applyAll_eq_self hinv h.known
  · rw [restore_iff, restore_iff]
    have hdoc : db'.documentOps c.documentId = db.documentOps c.documentId := by
      unfold Database.documentOps Database.storedOps
      rw [hbase]
      simp only [hops]
    unfold Database.BaselineReady
    rw [hdoc, hbase, hcursor]
    exact id

theorem Redelivered.of_unchanged (hok : db.Ingestible c.documentId items confirmed)
    (hinv : Inv c.replica)
    (hin : Database.Ingested db db' c.documentId (items.map (·.operation)) confirmed env.now)
    (h : Unchanged c db (c.withReplica (c.replica.applyAll (items.map (·.operation))).1) db') :
    Redelivered c db items confirmed := by
  obtain ⟨m, hm, hm'⟩ := hin.clientMeta
  have hmem : ∀ item ∈ items, item.operation ∈ items.map (·.operation) :=
    fun item hi => List.mem_map_of_mem hi
  refine ⟨fun item hi => ?_, fun item hi => ?_, ?_, fun m' hm'' item hi => ?_, fun pre hp hc op hop => ?_⟩
  · by_contra hnone
    rw [Bool.not_eq_true, Option.isSome_eq_false_iff, Option.isNone_iff_eq_none] at hnone
    have hrow := (hin.operations _ _).2 (Or.inr ⟨hnone, _, hmem item hi, rfl, rfl⟩)
    rw [h.operations _ _ rfl, hnone] at hrow
    cases hrow
  · rw [Option.eq_none_iff_forall_ne_some]
    intro marker hmk
    have hd := hok.marked item hi marker hmk
    have hmk' := (h.outbox _ marker hd).2 hmk
    rw [hin.outbox, if_pos (List.mem_map_of_mem (hmem item hi))] at hmk'
    cases hmk'
  · have := h.cursor
    rw [Database.getLastServerSeq_of_get? (by rw [hin.syncState, if_pos rfl])] at this
    omega
  · cases hm.symm.trans hm''
    have := h.lamportClock
    rw [hm', hm] at this
    have hmax : maxLamport m.lamportClock (items.map (·.operation)) = m.lamportClock :=
      Option.some.inj this
    exact (maxLamport_le_iff.1 (le_of_eq hmax)).2 _ (hmem item hi)
  · have := applyAll_accepts hinv hp hc op hop
    have hr : (c.replica.applyAll (items.map (·.operation))).1 = c.replica := h.replica
    rwa [hr] at this

end

/-- **When an ingest is atomic.**  For every reachable state and every batch that passes the
checks: the store refuses the batch, or its operations are coherent with those the replica
knows, or the batch changes nothing. -/
theorem allOrNothing_iff {c : LocalDocumentController} {db : Database}
    (h : Reachable segmentGraphemes c db) (env : Surroundings) {items : List SequencedOperation}
    {confirmed : Int} (_hbatch : validateServerBatch items confirmed = .ok ())
    (_hvalid : ∀ item ∈ items, ValidOperation item.operation) :
    AllOrNothing c db env items confirmed ↔
      ¬ db.Ingestible c.documentId items confirmed ∨
        Coherent (c.replica.ops ∪ {op | op ∈ items.map (·.operation)}) ∨
        Redelivered c db items confirmed := by
  have hinv := h.inv
  obtain ⟨hsound, hcomplete⟩ := @Database.persistServerOperations_spec db c.documentId env.now
    items confirmed
  unfold AllOrNothing applyServerOperationsNow
  cases hp : db.persistServerOperations c.documentId items confirmed env.now with
  | error e =>
    have hrefused : ¬ db.Ingestible c.documentId items confirmed := by
      intro hok
      obtain ⟨db', hdb'⟩ := hcomplete hok
      rw [hp] at hdb'
      cases hdb'
    refine ⟨fun _ => Or.inl hrefused, fun _ => ⟨fun _ _ => ?_, fun _ hs => by cases hs⟩⟩
    exact ⟨fun _ _ _ => Iff.rfl, fun _ _ _ => Iff.rfl, rfl, rfl, rfl, id⟩
  | ok db' =>
    obtain ⟨hok, hin⟩ := hsound db' hp
    obtain ⟨hinv', hiff, hops⟩ := applyAll_spec (items.map (·.operation)) hinv
    cases ha : c.replica.applyAll (items.map (·.operation)) with
    | mk replica outcome =>
      rw [ha] at hinv' hiff hops
      cases outcome with
      | ok u =>
        have hcoh := hiff.1 rfl
        refine ⟨fun _ => Or.inr (Or.inl hcoh), fun _ => ⟨fun e he => ?_, fun snapshot _ item hi => ?_⟩⟩
        · obtain ⟨snapshot, hs⟩ := finish_ok (c := c.withReplica replica) hinv' db' env
          rw [hs] at he
          cases he
        · have hmem : item.operation ∈ items.map (·.operation) := List.mem_map_of_mem hi
          obtain ⟨hr, -, -, -, snaps, hdb⟩ :=
            maybeCreateCheckpoint_spec (c.withReplica replica) db' env
          constructor
          · show item.operation ∈ ((c.withReplica replica).maybeCreateCheckpoint db' env).2.storedOps _
            rw [hdb]
            have hmem' : item.operation ∈ db'.storedOps c.documentId := by
              rw [hin.storedOps hok]
              exact Or.inr hmem
            exact hmem'
          · show item.operation ∈ ((c.withReplica replica).maybeCreateCheckpoint db' env).1.replica.ops
            rw [hr]
            show item.operation ∈ replica.ops
            rw [hops rfl]
            exact Or.inr hmem
      | error e =>
        have hncoh : ¬ Coherent (c.replica.ops ∪ {op | op ∈ items.map (·.operation)}) := by
          intro hcoh
          have := hiff.2 hcoh
          cases this
        have hr : replica = (c.replica.applyAll (items.map (·.operation))).1 := by rw [ha]
        simp only [hok, not_true_eq_false, hncoh, false_or]
        constructor
        · rintro ⟨hun, -⟩
          have hun := hun e rfl
          rw [hr] at hun
          exact Redelivered.of_unchanged hok hinv hin hun
        · intro hred
          refine ⟨fun e' _ => ?_, fun _ hs => by cases hs⟩
          rw [hr]
          exact hred.unchanged hinv hin

/-- A letter of another client is stored, and one is typed behind it.  The batch acknowledges the
typed letter, puts one between the two, and deletes the first. -/
theorem allOrNothing_iff_shared :
    let env : Surroundings := ⟨js "now", 0, js "A", true⟩
    let jobs : List (Surroundings × Job) :=
      [(env, .applyServerOperations [⟨1, .insert ⟨js "B:1", js "B", 1, 1, ROOT_ID, js "b"⟩⟩] 1),
        (env, .replaceText (js "ba"))]
    let items : List SequencedOperation :=
      [⟨2, .insert ⟨js "A:1", js "A", 1, 2, js "B:1", js "a"⟩⟩,
        ⟨3, .insert ⟨js "B:2", js "B", 2, 3, js "B:1", js "c"⟩⟩,
        ⟨4, .delete ⟨js "B:3", js "B", 3, 4, js "B:1"⟩⟩]
    ∃ c db, create Database.empty ⟨none, none, none⟩ env = (.ok c, db) ∧
      let shared := c.runJobs (·.map ([·])) db jobs
      shared.2.loadPendingOperations DEFAULT_DOCUMENT_ID =
        .ok [.insert ⟨js "A:1", js "A", 1, 2, js "B:1", js "a"⟩] ∧
      AllOrNothing shared.1 shared.2 env items 4 ∧
      (shared.1.applyServerOperationsNow shared.2 env items 4).1.replica.materialize =
        .ok (js "ca") := by
  intro env jobs items
  have hcreate : create Database.empty ⟨none, none, none⟩ env = (.ok _, _) := rfl
  have hatomic : ∀ {c : LocalDocumentController} {db : Database},
      Reachable (·.map ([·])) c db → (c.replica.applyAll (items.map (·.operation))).2 = .ok () →
        AllOrNothing c db env items 4 := by
    intro c db h happlied
    refine (allOrNothing_iff h env rfl (by decide +kernel)).2 (Or.inr (Or.inl ?_))
    exact (applyAll_spec (items.map (·.operation)) h.inv).2.1.1 happlied
  refine ⟨_, _, hcreate, by decide +kernel, ?_, by decide +kernel⟩
  exact hatomic (.runJobs jobs (.opened hcreate)) (by decide +kernel)

/-- Two inserts anchored on each other pass every check of the store and are rejected by the
replica.  The rejected batch has moved the cursor, and the document no longer opens. -/
theorem ingest_not_atomic :
    let env : Surroundings := ⟨js "now", 0, js "C", true⟩
    let items : List SequencedOperation :=
      [⟨1, .insert ⟨js "A:1", js "A", 1, 1, js "B:1", js "a"⟩⟩,
        ⟨2, .insert ⟨js "B:1", js "B", 1, 1, js "A:1", js "b"⟩⟩]
    ∃ c db, create Database.empty ⟨none, none, none⟩ env = (.ok c, db) ∧
      Reachable (·.map ([·])) c db ∧ validateServerBatch items 2 = .ok () ∧
      (∀ item ∈ items, ValidOperation item.operation) ∧
      (c.applyServerOperationsNow db env items 2).2.2.isOk = false ∧
      ¬ AllOrNothing c db env items 2 ∧
      (create (c.applyServerOperationsNow db env items 2).2.1 ⟨none, none, none⟩ env).1.isOk =
        false := by
  intro env items
  have hcreate : create Database.empty ⟨none, none, none⟩ env = (.ok _, _) := rfl
  refine ⟨_, _, hcreate, .opened hcreate, rfl, by decide +kernel, by decide +kernel, fun h => ?_,
    by decide +kernel⟩
  exact absurd (h.cursor_of_rejected (by decide +kernel)) (by decide +kernel)

end LocalDocumentController

end LocalFirst
