import LocalFirst.Client.Catalog
import LocalFirst.Client.Reload

/-!
# Delivering operations again

* `Database.Absorbed` — what the tables keep of an operation that was ingested.
* `Absorbed.step` — every write to the tables keeps it.
* `persistServerOperations_absorbed` — a batch of such operations changes nothing.
* `redelivery_noop` — the same over runs, and the cursor never goes back.
-/

set_option autoImplicit false

namespace LocalFirst

open TextReplica

namespace Database

/-! ## What is kept of an ingested operation -/

/-- The operation is stored in the document and acknowledged, and the clock has taken it in. -/
structure Absorbed (db : Database) (documentId : JsString) (op : TextOperation) : Prop where
  valid : ValidOperation op
  document : (db.documents.get? documentId).isSome = true
  stored : ∃ row, db.operations.get? op.opId = some row ∧ row.documentId = documentId ∧
    row.operation = op
  unmarked : db.outbox.get? op.opId = none
  clock : ∃ m, db.clientMeta = some m ∧ op.lamport ≤ m.lamportClock

/-- Every outbox row marks an operation that is stored. -/
def MarksStored (db : Database) : Prop :=
  ∀ k, (db.outbox.get? k).isSome = true → (db.operations.get? k).isSome = true

section

variable {db db' : Database} {documentId timestamp : JsString} {op : TextOperation}

theorem SameLog.absorbed (h : SameLog db db') (ha : db.Absorbed documentId op) :
    db'.Absorbed documentId op where
  valid := ha.valid
  document := h.documents documentId ha.document
  stored := by rw [h.operations]; exact ha.stored
  unmarked := by rw [h.outbox]; exact ha.unmarked
  clock := by rw [h.clientMeta]; exact ha.clock

theorem SameLog.marksStored (h : SameLog db db') (hm : db.MarksStored) : db'.MarksStored := by
  unfold MarksStored
  rw [h.operations, h.outbox]
  exact hm

/-- Opening a document writes only rows that do not exist. -/
theorem initializeDocument_absorbed (defaultTitle clientId : JsString) {d : JsString}
    (ha : db.Absorbed documentId op) :
    (db.initializeDocument d defaultTitle clientId timestamp).2.Absorbed documentId op := by
  obtain ⟨m, hm, hl⟩ := ha.clock
  refine ⟨ha.valid, ?_, ha.stored, ha.unmarked, m, ?_, hl⟩
  · have hdoc := ha.document
    unfold initializeDocument
    cases hd : db.documents.get? d with
    | some document => exact hdoc
    | none => exact Table.isSome_get?_put _ hdoc
  · unfold initializeDocument
    rw [hm]
    rfl

theorem initializeDocument_cursor (db : Database) (d defaultTitle clientId timestamp k : JsString) :
    (db.initializeDocument d defaultTitle clientId timestamp).2.getLastServerSeq k =
      db.getLastServerSeq k := by
  have hsync : (db.initializeDocument d defaultTitle clientId timestamp).2.syncState =
      (db.ensureSyncState d).syncState := by
    unfold initializeDocument ensureSyncState
    cases db.syncState.get? d with
    | some row => rfl
    | none => rfl
  rw [← getLastServerSeq_ensureSyncState db d k]
  unfold getLastServerSeq
  rw [hsync]

theorem Edited.absorbed {d : JsString} {ops : List TextOperation} {outboxCreatedAt : Int}
    (h : Edited db db' d ops timestamp outboxCreatedAt) (ha : db.Absorbed documentId op) :
    db'.Absorbed documentId op := by
  obtain ⟨row, hrow, hd, hop⟩ := ha.stored
  obtain ⟨m, identity, hm, hcreated, hm'⟩ := h.clientMeta
  obtain ⟨m₀, hm₀, hl⟩ := ha.clock
  cases hm.symm.trans hm₀
  refine ⟨ha.valid, by rw [h.documents]; exact ha.document,
    ⟨row, (h.operations _ _).2 (Or.inr hrow), hd, hop⟩, ?_, _, hm',
    hl.trans hcreated.lamport_mono⟩
  rw [Option.eq_none_iff_forall_ne_some]
  intro marker hmarker
  rcases (h.outbox _ _).1 hmarker with ⟨new, hnew, hid, -⟩ | hold
  · -- what an edit creates has an identity that is not stored
    have hfresh := (h.fresh new hnew).1
    rw [hid, hrow] at hfresh
    cases hfresh
  · rw [ha.unmarked] at hold
    cases hold

theorem Ingested.absorbed {d : JsString} {ops : List TextOperation} {confirmed : Int}
    (h : Ingested db db' d ops confirmed timestamp) (ha : db.Absorbed documentId op) :
    db'.Absorbed documentId op := by
  obtain ⟨row, hrow, hd, hop⟩ := ha.stored
  obtain ⟨m, hm, hm'⟩ := h.clientMeta
  obtain ⟨m₀, hm₀, hl⟩ := ha.clock
  cases hm.symm.trans hm₀
  refine ⟨ha.valid, by rw [h.documents]; exact ha.document,
    ⟨row, (h.operations _ _).2 (Or.inl hrow), hd, hop⟩, ?_, _, hm',
    hl.trans (maxLamport_le_iff.1 (le_refl _)).1⟩
  rw [h.outbox]
  split
  · rfl
  · exact ha.unmarked

theorem Installed.absorbed {d : JsString} {bootstrap : SnapshotBootstrap}
    {items : List SequencedOperation} {confirmed : Int}
    (h : Installed db db' d bootstrap items confirmed timestamp)
    (ha : db.Absorbed documentId op) : db'.Absorbed documentId op := by
  obtain ⟨row, hrow, hd, hop⟩ := ha.stored
  obtain ⟨m, hm, hm'⟩ := h.clientMeta
  obtain ⟨m₀, hm₀, hl⟩ := ha.clock
  cases hm.symm.trans hm₀
  exact ⟨ha.valid, by rw [h.documents]; exact ha.document,
    ⟨row, (h.operations _ _).2 (Or.inr hrow), hd, hop⟩, by rw [h.outbox]; exact ha.unmarked, _, hm',
    hl.trans (le_max_left _ _)⟩

/-- An ingest absorbs its operations. -/
theorem Ingested.absorbs {items : List SequencedOperation} {confirmed : Int}
    (h : Ingested db db' documentId (items.map (·.operation)) confirmed timestamp)
    (hok : db.Ingestible documentId items confirmed) {item : SequencedOperation}
    (hitem : item ∈ items) : db'.Absorbed documentId item.operation := by
  have hmem : item.operation ∈ items.map (·.operation) := List.mem_map_of_mem hitem
  obtain ⟨m, hm, hm'⟩ := h.clientMeta
  refine ⟨hok.valid item hitem, by rw [h.documents]; exact hok.document, ?_, ?_, _, hm',
    (maxLamport_le_iff.1 (le_refl _)).2 _ hmem⟩
  · cases hrow : db.operations.get? item.operation.opId with
    | some row =>
      obtain ⟨hd, hop⟩ := hok.stored item hitem row hrow
      exact ⟨row, (h.operations _ _).2 (Or.inl hrow), hd, hop⟩
    | none => exact ⟨_, (h.operations _ _).2 (Or.inr ⟨hrow, _, hmem, rfl, rfl⟩), rfl, rfl⟩
  · rw [h.outbox, if_pos (List.mem_map_of_mem hmem)]

/-- A bootstrap is installed only in a document that exists. -/
theorem installServerBaseline_document {bootstrap : SnapshotBootstrap}
    {items : List SequencedOperation} {confirmed : Int} {replica : TextReplica}
    (h : db.installServerBaseline documentId bootstrap items confirmed timestamp =
      .ok (replica, db')) : (db.documents.get? documentId).isSome = true := by
  unfold installServerBaseline at h
  split at h
  · cases h
  · simp only at h
    split at h
    · cases h
    · split at h
      · cases h
      · split at h
        · cases h
        · rename_i document hdoc
          rw [hdoc]
          rfl

/-- A bootstrap absorbs the operations after its snapshot. -/
theorem installServerBaseline_absorbs {bootstrap : SnapshotBootstrap}
    {items : List SequencedOperation} {confirmed : Int} {replica : TextReplica}
    (h : db.installServerBaseline documentId bootstrap items confirmed timestamp = .ok (replica, db'))
    (hmarks : db.MarksStored) {item : SequencedOperation} (hitem : item ∈ items) :
    db'.Absorbed documentId item.operation := by
  obtain ⟨hb, hin⟩ := installServerBaseline_spec h
  obtain ⟨-, -, -, restored, hr, ha⟩ := bootstrapReplica_spec hb
  obtain ⟨hinv, -, hops⟩ := applyAll_spec (items.map (·.operation)) (fromSnapshot_inv hr).1
  rw [ha] at hinv hops
  have hmem : item.operation ∈ items.map (·.operation) := List.mem_map_of_mem hitem
  obtain ⟨m, hm, hm'⟩ := hin.clientMeta
  have hclock := (foldl_max_le_iff.1 (le_refl
    (items.foldl (fun max item => Max.max max item.operation.lamport) 0))).2 item hitem
  refine ⟨hinv.coherent.valid _ ?_, ?_,
    ⟨_, (hin.operations _ _).2 (Or.inl ⟨_, hmem, rfl, rfl⟩), rfl, rfl⟩, ?_, _, hm',
    hclock.trans ((le_max_right _ _).trans (le_max_right _ _))⟩
  · rw [hops rfl]
    exact Or.inr hmem
  · rw [hin.documents]
    exact installServerBaseline_document h
  · rw [hin.outbox, Option.eq_none_iff_forall_ne_some]
    intro marker hmarker
    have hstored := hmarks _ (by rw [hmarker]; rfl)
    rw [hin.fresh item hitem] at hstored
    cases hstored

end

/-- What a write commits, if anything. -/
inductive Written (db : Database) : Database → Prop where
  | sameLog {db' : Database} (h : SameLog db db') : Written db db'
  | initialized (documentId defaultTitle clientId timestamp : JsString) :
    Written db (db.initializeDocument documentId defaultTitle clientId timestamp).2
  | edited {db' : Database} {documentId timestamp : JsString} {ops : List TextOperation}
    {outboxCreatedAt : Int} (h : Edited db db' documentId ops timestamp outboxCreatedAt) :
    Written db db'
  | ingested {db' : Database} {documentId timestamp : JsString} {items : List SequencedOperation}
    {confirmed : Int} (hok : db.Ingestible documentId items confirmed)
    (h : Ingested db db' documentId (items.map (·.operation)) confirmed timestamp) : Written db db'
  | installed {db' : Database} {documentId timestamp : JsString} {bootstrap : SnapshotBootstrap}
    {items : List SequencedOperation} {confirmed : Int} {replica : TextReplica}
    (h : db.installServerBaseline documentId bootstrap items confirmed timestamp =
      .ok (replica, db')) : Written db db'

namespace Written

variable {db db' : Database}

theorem absorbed {documentId : JsString} {op : TextOperation} (h : Written db db')
    (ha : db.Absorbed documentId op) : db'.Absorbed documentId op := by
  cases h with
  | sameLog h => exact h.absorbed ha
  | initialized d defaultTitle clientId timestamp =>
    exact initializeDocument_absorbed defaultTitle clientId ha
  | edited h => exact h.absorbed ha
  | ingested _ h => exact h.absorbed ha
  | installed h => exact (installServerBaseline_spec h).2.absorbed ha

theorem marksStored (h : Written db db') (hm : db.MarksStored) : db'.MarksStored := by
  have hrow : ∀ {t t' : Table OperationRecord.opId} {k : JsString},
      (∀ row, t.get? k = some row → t'.get? k = some row) → (t.get? k).isSome = true →
        (t'.get? k).isSome = true := by
    intro t t' k hkeep hsome
    obtain ⟨row, hrow⟩ := Option.isSome_iff_exists.1 hsome
    rw [hkeep row hrow]
    rfl
  cases h with
  | sameLog h => exact h.marksStored hm
  | initialized => exact hm
  | edited h =>
    intro k hk
    obtain ⟨marker, hmarker⟩ := Option.isSome_iff_exists.1 hk
    rcases (h.outbox k marker).1 hmarker with ⟨op, hop, rfl, -⟩ | hold
    · rw [(h.operations _ _).2 (Or.inl ⟨op, hop, rfl, rfl⟩)]
      rfl
    · exact hrow (fun row h' => (h.operations k row).2 (Or.inr h')) (hm k (by rw [hold]; rfl))
  | ingested _ h =>
    intro k hk
    rw [h.outbox] at hk
    split at hk
    · cases hk
    · exact hrow (fun row h' => (h.operations k row).2 (Or.inl h')) (hm k hk)
  | installed h =>
    have hin := (installServerBaseline_spec h).2
    intro k hk
    rw [hin.outbox] at hk
    exact hrow (fun row h' => (hin.operations k row).2 (Or.inr h')) (hm k hk)

/-- No write moves a cursor back. -/
theorem cursor_le (h : Written db db') (k : JsString) :
    db.getLastServerSeq k ≤ db'.getLastServerSeq k := by
  cases h with
  | sameLog h => exact (h.cursor k).ge
  | initialized d defaultTitle clientId timestamp =>
    exact (initializeDocument_cursor db d defaultTitle clientId timestamp k).ge
  | edited h =>
    unfold getLastServerSeq
    rw [h.syncState]
  | @ingested db' documentId timestamp items confirmed _ h =>
    by_cases hk : documentId = k
    · subst hk
      have hnew : db'.getLastServerSeq documentId = max (db.getLastServerSeq documentId) confirmed :=
        getLastServerSeq_of_get? (by rw [h.syncState, if_pos rfl])
      rw [hnew]
      exact le_max_left _ _
    · unfold getLastServerSeq
      rw [h.syncState, if_neg hk]
  | @installed db' documentId timestamp bootstrap items confirmed replica h =>
    obtain ⟨hb, hin⟩ := installServerBaseline_spec h
    by_cases hk : documentId = k
    · subst hk
      obtain ⟨-, hsuffix, -⟩ := bootstrapReplica_spec hb
      obtain ⟨hseq, hle, -⟩ := validateSnapshotSuffix_iff.1 hsuffix
      have hzero : db.getLastServerSeq documentId = 0 := (eligible_iff.1 hin.eligible).1
      rw [hzero, getLastServerSeq_of_get? (by rw [hin.syncState, if_pos rfl])]
      exact (Int.one_pos.le.trans (isPositiveSafeInteger_iff.1 hseq).1).trans hle
    · unfold getLastServerSeq
      rw [hin.syncState, if_neg hk]

end Written

/-! ## Delivering again -/

/-- The loop changes nothing on operations that are stored and acknowledged. -/
theorem ingestOperations_absorbed {documentId timestamp : JsString} (s : IngestState) :
    ∀ ops : List TextOperation,
      (∀ op ∈ ops, ValidOperation op ∧ (∃ row, s.operations.get? op.opId = some row ∧
        row.documentId = documentId ∧ row.operation = op) ∧ s.outbox.get? op.opId = none ∧
          op.lamport ≤ s.lamportClock) →
      ingestOperations documentId timestamp s ops = .ok s
  | [], _ => rfl
  | op :: ops, h => by
    obtain ⟨hvalid, ⟨row, hrow, hd, hop⟩, hunmarked, hl⟩ := h op List.mem_cons_self
    have hpass : ingestOperation documentId timestamp s op = .ok s := by
      unfold ingestOperation acknowledge
      unfold ValidOperation at hvalid
      have heq : operationsEqual op op = true := operationsEqual_iff.2 rfl
      simp only [hvalid, hrow, hd, hop, heq, hunmarked, max_eq_left hl, not_true_eq_false, if_false,
        ne_eq]
    unfold ingestOperations
    rw [hpass]
    exact ingestOperations_absorbed s ops fun op hop => h op (List.mem_cons_of_mem _ hop)

/-- **A batch of absorbed operations changes nothing.** -/
theorem persistServerOperations_absorbed {db : Database} {documentId timestamp : JsString}
    {items : List SequencedOperation} {confirmed : Int} (hmeta : db.clientMeta.isSome = true)
    (hdoc : (db.documents.get? documentId).isSome = true)
    (h : ∀ item ∈ items, db.Absorbed documentId item.operation)
    (hbatch : validateServerBatch items confirmed = .ok ())
    (hconfirmed : confirmed ≤ db.getLastServerSeq documentId) :
    db.persistServerOperations documentId items confirmed timestamp =
      .ok { db with syncState :=
        db.syncState.put ⟨documentId, db.getLastServerSeq documentId⟩ } := by
  obtain ⟨m, hm⟩ := Option.isSome_iff_exists.1 hmeta
  obtain ⟨document, hdoc⟩ := Option.isSome_iff_exists.1 hdoc
  have hloop := @ingestOperations_absorbed documentId timestamp
    ⟨db.operations, db.outbox, m.lamportClock, false⟩ (items.map (·.operation)) fun op hop => by
      obtain ⟨item, hitem, rfl⟩ := List.mem_map.1 hop
      have ha := h item hitem
      obtain ⟨m₀, hm₀, hl⟩ := ha.clock
      cases hm.symm.trans hm₀
      exact ⟨ha.valid, ha.stored, ha.unmarked, hl⟩
  unfold persistServerOperations
  simp only [hbatch, hm, hdoc, hloop, max_eq_left hconfirmed, ne_eq, not_true_eq_false, if_false,
    Bool.false_eq_true]

/-- Writing the cursor that is stored moves no cursor. -/
theorem getLastServerSeq_put_self (db : Database) (documentId k : JsString) :
    { db with syncState := db.syncState.put ⟨documentId, db.getLastServerSeq documentId⟩
      }.getLastServerSeq k = db.getLastServerSeq k := by
  by_cases hk : documentId = k
  · subst hk
    exact getLastServerSeq_of_get? (Table.get?_put_self _ _)
  · unfold getLastServerSeq
    rw [Table.get?_put, if_neg hk]

end Database

/-! ## Runs -/

namespace WorkspaceEvent

/-- The write commits an ingest of the operation into the document. -/
def Ingests (s : StoreRun) (documentId : JsString) (op : TextOperation) : WorkspaceEvent → Prop
  | .store (.run (.persistServerOperations d items confirmed timestamp)) => d = documentId ∧
      op ∈ items.map (·.operation) ∧
        (s.db.persistServerOperations d items confirmed timestamp).isOk = true
  | .store (.run (.installServerBaseline d bootstrap items confirmed timestamp)) => d = documentId ∧
      op ∈ items.map (·.operation) ∧
        (s.db.installServerBaseline d bootstrap items confirmed timestamp).isOk = true
  | _ => False

/-- One of the writes has ingested the operation into the document. -/
def WasIngested (events : List WorkspaceEvent) (documentId : JsString) (op : TextOperation) : Prop :=
  ∃ before e after, events = before ++ e :: after ∧ Ingests (run before) documentId op e

/-- **One write.** -/
theorem step_written (s : StoreRun) (e : WorkspaceEvent) : s.db.Written (step s e).db := by
  rcases step_cases s e with ⟨event, -, hstep⟩ | ⟨-, hsame⟩
  · rw [hstep]
    rcases event with (⟨d, defaultTitle, clientId, timestamp⟩ | ⟨d, edit, timestamp, createdAt⟩ |
      ⟨d, items, confirmed, timestamp⟩ | ⟨d, bootstrap, items, confirmed, timestamp⟩) | t
    · exact .initialized d defaultTitle clientId timestamp
    · simp only [StoreRun.step, StoreRun.runTransaction]
      split
      · exact .sameLog (.refl _)
      · rename_i ops db' hp
        obtain ⟨-, ⟨-, rfl⟩ | ⟨-, he⟩⟩ := Database.persistLocalTextEdit_spec hp
        · exact .sameLog (.refl _)
        · exact .edited he
    · simp only [StoreRun.step, StoreRun.runTransaction]
      split
      · exact .sameLog (.refl _)
      · rename_i db' hp
        obtain ⟨hok, hin⟩ := Database.persistServerOperations_spec.1 db' hp
        exact .ingested hok hin
    · simp only [StoreRun.step, StoreRun.runTransaction]
      split
      · exact .sameLog (.refl _)
      · rename_i hp
        exact .installed hp
    · exact .sameLog (.refl _)
  · exact .sameLog hsame

theorem run_marksStored (events : List WorkspaceEvent) : (run events).db.MarksStored :=
  Runs.invariant (I := fun s => s.db.MarksStored) (fun s e h => (step_written s e).marksStored h) _
    events fun _ h => by cases h

theorem absorbed_run {s : StoreRun} {documentId : JsString} {op : TextOperation}
    (h : s.db.Absorbed documentId op) (events : List WorkspaceEvent) :
    (Runs.run step s events).db.Absorbed documentId op :=
  Runs.invariant (I := fun s => s.db.Absorbed documentId op)
    (fun s e h => (step_written s e).absorbed h) s events h

theorem cursor_run (s : StoreRun) (events : List WorkspaceEvent) (k : JsString) :
    s.db.getLastServerSeq k ≤ (Runs.run step s events).db.getLastServerSeq k :=
  Runs.invariant (I := fun s' => s.db.getLastServerSeq k ≤ s'.db.getLastServerSeq k)
    (fun s' e h => h.trans ((step_written s' e).cursor_le k)) s events (le_refl _)

/-- An ingest that commits absorbs its operations. -/
theorem Ingests.absorbs {s : StoreRun} {documentId : JsString} {op : TextOperation}
    {e : WorkspaceEvent} (h : Ingests s documentId op e) (hmarks : s.db.MarksStored) :
    (step s e).db.Absorbed documentId op := by
  rcases e with (⟨_ | _ | ⟨d, items, confirmed, timestamp⟩ |
    ⟨d, bootstrap, items, confirmed, timestamp⟩⟩ | _) | _ | _ | _
  all_goals try exact h.elim
  · obtain ⟨rfl, hop, hok⟩ := h
    obtain ⟨item, hitem, rfl⟩ := List.mem_map.1 hop
    obtain ⟨db', hp⟩ := exists_ok_of_isOk hok
    obtain ⟨hready, hin⟩ := Database.persistServerOperations_spec.1 db' hp
    simp only [step, StoreRun.step, StoreRun.runTransaction, hp]
    exact hin.absorbs hready hitem
  · obtain ⟨rfl, hop, hok⟩ := h
    obtain ⟨item, hitem, rfl⟩ := List.mem_map.1 hop
    obtain ⟨⟨replica, db'⟩, hp⟩ := exists_ok_of_isOk hok
    simp only [step, StoreRun.step, StoreRun.runTransaction, hp]
    exact Database.installServerBaseline_absorbs hp hmarks hitem

theorem WasIngested.absorbed {events : List WorkspaceEvent} {documentId : JsString}
    {op : TextOperation} (h : WasIngested events documentId op) :
    (run events).db.Absorbed documentId op := by
  obtain ⟨before, e, after, rfl, hin⟩ := h
  have hnow := hin.absorbs (run_marksStored before)
  show (Runs.run step StoreRun.start (before ++ e :: after)).db.Absorbed documentId op
  rw [Runs.run_append]
  exact absorbed_run hnow after

/-- **A second delivery changes nothing.**  After any writes to the tables, a batch of operations that
earlier ingests have brought into the document, confirmed up to the stored cursor or less, leaves the
operations, the outbox, the counters, the documents and every cursor as they are; the batch is
accepted if its sequence numbers are; and no write ever moves a cursor back. -/
theorem redelivery_noop (events : List WorkspaceEvent) {documentId : JsString}
    {items : List SequencedOperation} {confirmed : Int}
    (hitems : ∀ item ∈ items, WasIngested events documentId item.operation)
    (hconfirmed : confirmed ≤ (run events).db.getLastServerSeq documentId) (timestamp : JsString) :
    let db := (run events).db
    let db' := (step (run events)
      (.store (.run (.persistServerOperations documentId items confirmed timestamp)))).db
    (db'.operations = db.operations ∧ db'.outbox = db.outbox ∧ db'.clientMeta = db.clientMeta ∧
      db'.documents = db.documents ∧ ∀ k, db'.getLastServerSeq k = db.getLastServerSeq k) ∧
    (validateServerBatch items confirmed = .ok () → items ≠ [] →
      (db.persistServerOperations documentId items confirmed timestamp).isOk = true) ∧
    ∀ before after, events = before ++ after →
      ∀ k, (run before).db.getLastServerSeq k ≤ db.getLastServerSeq k := by
  intro db db'
  have habsorbed := fun item hitem => (hitems item hitem).absorbed
  refine ⟨?_, fun hbatch hne => ?_, fun before after heq k => ?_⟩
  · cases hp : db.persistServerOperations documentId items confirmed timestamp with
    | error e =>
      have hdb' : db' = db := by
        simp only [db', step, StoreRun.step, StoreRun.runTransaction, hp, db]
      rw [hdb']
      exact ⟨rfl, rfl, rfl, rfl, fun _ => rfl⟩
    | ok committed =>
      have hok := (Database.persistServerOperations_spec.1 committed hp).1
      have hsame := @Database.persistServerOperations_absorbed db documentId timestamp items confirmed
        hok.clientMeta hok.document habsorbed hok.batch hconfirmed
      have hdb' : db' = { db with
          syncState := db.syncState.put ⟨documentId, db.getLastServerSeq documentId⟩ } := by
        simp only [db', step, StoreRun.step, StoreRun.runTransaction]
        rw [hsame]
      rw [hdb']
      exact ⟨rfl, rfl, rfl, rfl, Database.getLastServerSeq_put_self db documentId⟩
  · obtain ⟨first, hfirst⟩ := List.exists_mem_of_ne_nil items hne
    obtain ⟨m, hm, -⟩ := (habsorbed first hfirst).clock
    rw [Database.persistServerOperations_absorbed (by rw [hm]; rfl) (habsorbed first hfirst).document
      habsorbed hbatch hconfirmed]
    rfl
  · show _ ≤ (run events).db.getLastServerSeq k
    unfold run
    rw [heq, Runs.run_append]
    exact cursor_run _ after k

/-- The server sends an operation again, with a lower confirmed number, after a local edit and the
acknowledgement of it. -/
theorem redelivery_noop_typed :
    let foreign : SequencedOperation := ⟨1, .insert ⟨js "B:1", js "B", 1, 5, ROOT_ID, js "y"⟩⟩
    let typed : SequencedOperation := ⟨2, .insert ⟨js "A:1", js "A", 1, 6, js "B:1", js "x"⟩⟩
    let events : List WorkspaceEvent := [
      .store (.run (.initializeDocument (js "d") (js "D") (js "A") [])),
      .store (.run (.persistServerOperations (js "d") [foreign] 1 [])),
      .store (.run (.persistLocalTextEdit (js "d") ⟨[], js "B:1", [js "x"]⟩ [] 0)),
      .renameDocument (js "d") (js "Title") (js "later"),
      .store (.run (.persistServerOperations (js "d") [typed] 2 []))]
    let db' := (step (run events)
      (.store (.run (.persistServerOperations (js "d") [foreign, typed] 2 (js "now"))))).db
    (run events).db.getLastServerSeq (js "d") = 2 ∧
      db'.operations = (run events).db.operations ∧ db'.outbox = (run events).db.outbox ∧
      db'.clientMeta = (run events).db.clientMeta ∧ db'.documents = (run events).db.documents ∧
      ∀ k, db'.getLastServerSeq k = (run events).db.getLastServerSeq k := by
  intro foreign typed events db'
  have hcursor : (run events).db.getLastServerSeq (js "d") = 2 := by decide +kernel
  have hingested : ∀ item ∈ [foreign, typed], WasIngested events (js "d") item.operation := by
    intro item hitem
    simp only [List.mem_cons, List.not_mem_nil, or_false] at hitem
    rcases hitem with rfl | rfl
    · refine ⟨events.take 1, .store (.run (.persistServerOperations (js "d") [foreign] 1 [])),
        events.drop 2, rfl, rfl, by decide +kernel, by decide +kernel⟩
    · refine ⟨events.take 4, .store (.run (.persistServerOperations (js "d") [typed] 2 [])),
        [], rfl, rfl, by decide +kernel, by decide +kernel⟩
  have h := @redelivery_noop events (js "d") [foreign, typed] 2 hingested (by rw [hcursor]) (js "now")
  exact ⟨hcursor, h.1⟩

end WorkspaceEvent

end LocalFirst
