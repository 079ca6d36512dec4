import LocalFirst.Client.Store

/-!
# What the store transactions do

One lemma for each transaction: when it commits, and what it leaves in the tables.

* `validateServerBatch_iff` — the batches that pass.
* `persistServerOperations_iff`, `persistServerOperations_spec` — ingest.
* `persistLocalTextEdit_spec` — local edits and the operations they create.
* `installServerBaseline_spec` — the installation of a baseline.
-/

set_option autoImplicit false

namespace LocalFirst

/-! ## Server batches -/

theorem validateServerSeqs_iff {confirmed : Int} : ∀ {previous : Int} {items : List SequencedOperation},
    validateServerSeqs confirmed previous items = .ok () ↔
      (∀ item ∈ items, previous < item.serverSeq ∧ isPositiveSafeInteger item.serverSeq = true ∧
        item.serverSeq ≤ confirmed) ∧ items.Pairwise (fun a b => a.serverSeq < b.serverSeq)
  | previous, [] => by simp [validateServerSeqs]
  | previous, item :: items => by
    unfold validateServerSeqs
    by_cases h1 : isPositiveSafeInteger item.serverSeq = true
    · by_cases h2 : item.serverSeq ≤ previous
      · simp only [h1, h2, not_true_eq_false, if_false, if_true]
        constructor
        · intro h; cases h
        · intro h
          have := (h.1 item List.mem_cons_self).1
          omega
      · by_cases h3 : item.serverSeq > confirmed
        · simp only [h1, h2, h3, not_true_eq_false, if_false, if_true]
          constructor
          · intro h; cases h
          · intro h
            have := (h.1 item List.mem_cons_self).2.2
            omega
        · simp only [h1, h2, h3, not_true_eq_false, if_false]
          rw [validateServerSeqs_iff, List.pairwise_cons]
          constructor
          · rintro ⟨hall, hp⟩
            refine ⟨fun x hx => ?_, fun x hx => (hall x hx).1, hp⟩
            rcases List.mem_cons.1 hx with rfl | hx
            · exact ⟨by omega, h1, by omega⟩
            · have := hall x hx
              exact ⟨by omega, this.2⟩
          · rintro ⟨hall, hlt, hp⟩
            exact ⟨fun x hx => ⟨hlt x hx, (hall x (List.mem_cons_of_mem _ hx)).2⟩, hp⟩
    · simp only [h1]
      constructor
      · intro h; cases h
      · intro h
        exact absurd (h.1 item List.mem_cons_self).2.1 h1

/-- **The batches that pass**: positive safe sequence numbers in strictly increasing order,
none above a non-negative safe bound. -/
theorem validateServerBatch_iff {items : List SequencedOperation} {confirmed : Int} :
    validateServerBatch items confirmed = .ok () ↔
      (0 ≤ confirmed ∧ isSafeInteger confirmed = true) ∧
        (∀ item ∈ items, isPositiveSafeInteger item.serverSeq = true ∧ item.serverSeq ≤ confirmed) ∧
        items.Pairwise (fun a b => a.serverSeq < b.serverSeq) := by
  unfold validateServerBatch
  by_cases h : ¬ isSafeInteger confirmed = true ∨ confirmed < 0
  · rw [if_pos h]
    constructor
    · intro h'; cases h'
    · rintro ⟨⟨h1, h2⟩, -⟩
      rcases h with h | h
      · exact absurd h2 h
      · omega
  · rw [if_neg h, validateServerSeqs_iff]
    have hbound : 0 ≤ confirmed ∧ isSafeInteger confirmed = true := by
      refine ⟨?_, by_contra fun h' => h (Or.inl h')⟩
      have : ¬ confirmed < 0 := fun h' => h (Or.inr h')
      omega
    constructor
    · rintro ⟨hall, hp⟩
      exact ⟨hbound, fun item hi => (hall item hi).2, hp⟩
    · rintro ⟨-, hall, hp⟩
      refine ⟨fun item hi => ⟨?_, hall item hi⟩, hp⟩
      have := (isPositiveSafeInteger_iff.1 (hall item hi).1).1
      omega

theorem validateSnapshotSuffix_iff {items : List SequencedOperation} {snapshotSeq confirmed : Int} :
    validateSnapshotSuffix items snapshotSeq confirmed = .ok () ↔
      isPositiveSafeInteger snapshotSeq = true ∧ snapshotSeq ≤ confirmed ∧
        validateServerBatch items confirmed = .ok () ∧
        ∀ item ∈ items, snapshotSeq < item.serverSeq := by
  unfold validateSnapshotSuffix
  by_cases h1 : isPositiveSafeInteger snapshotSeq = true
  · by_cases h2 : snapshotSeq > confirmed
    · simp only [h1, h2, not_true_eq_false, if_false, if_true]
      constructor
      · intro h; cases h
      · rintro ⟨-, h, -⟩; omega
    · have h2' : snapshotSeq ≤ confirmed := by omega
      cases hb : validateServerBatch items confirmed with
      | error e => simp [h1, h2]
      | ok u =>
        by_cases h3 : items.any (fun item => item.serverSeq ≤ snapshotSeq) = true
        · simp only [h1, h2, h3, not_true_eq_false, if_false, if_true]
          constructor
          · intro h; cases h
          · rintro ⟨-, -, -, hall⟩
            obtain ⟨item, hi, hle⟩ := List.any_eq_true.1 h3
            have := hall item hi
            simp only [decide_eq_true_eq] at hle
            omega
        · simp only [h1, h2, h3, not_true_eq_false, if_false]
          refine ⟨fun _ => ⟨trivial, h2', trivial, fun item hi => ?_⟩, fun _ => rfl⟩
          by_contra hle
          refine h3 (List.any_eq_true.2 ⟨item, hi, ?_⟩)
          simp only [decide_eq_true_eq]
          omega
  · simp [h1]

theorem foldl_max_le_iff {α : Type} {f : α → Int} {n : Int} : ∀ {bound : Int} {l : List α},
    l.foldl (fun max x => Max.max max (f x)) bound ≤ n ↔ bound ≤ n ∧ ∀ x ∈ l, f x ≤ n
  | bound, [] => by simp
  | bound, x :: l => by
    rw [List.foldl_cons, foldl_max_le_iff]
    simp [and_assoc]

/-- The largest Lamport value of a list of operations, and of a bound. -/
def maxLamport (bound : Int) (ops : List TextOperation) : Int :=
  ops.foldl (fun max op => Max.max max op.lamport) bound

theorem maxLamport_le_iff {n bound : Int} {ops : List TextOperation} :
    maxLamport bound ops ≤ n ↔ bound ≤ n ∧ ∀ op ∈ ops, op.lamport ≤ n :=
  foldl_max_le_iff

/-- `maxLamportFromSnapshot` finds the largest Lamport value of the operations that the snapshot
stands for. -/
theorem maxLamportFromSnapshot_le_iff {snapshot : TextReplicaSnapshot} {n : Int} :
    maxLamportFromSnapshot snapshot ≤ n ↔
      0 ≤ n ∧ ∀ op ∈ TextReplica.snapshotOps snapshot, op.lamport ≤ n := by
  unfold maxLamportFromSnapshot
  rw [foldl_max_le_iff, foldl_max_le_iff, and_assoc]
  refine and_congr Iff.rfl ⟨?_, fun h => ⟨fun node hn => ?_, fun d hd => ?_⟩⟩
  · rintro ⟨hnodes, hdeletes⟩ (op | op) hop
    · obtain ⟨node, hn, rfl⟩ := TextReplica.mem_snapshotOps_insert.1 hop
      exact hnodes node hn
    · exact hdeletes op (TextReplica.mem_snapshotOps_delete.1 hop)
  · exact h (.insert (TextReplica.insertOf node)) (TextReplica.mem_snapshotOps_insert.2 ⟨node, hn, rfl⟩)
  · exact h (.delete d) (TextReplica.mem_snapshotOps_delete.2 hd)

namespace Database

/-! ## Ingest -/

/-- The conditions under which the store commits a server batch. -/
structure Ingestible (db : Database) (documentId : JsString) (items : List SequencedOperation)
    (confirmed : Int) : Prop where
  batch : validateServerBatch items confirmed = .ok ()
  clientMeta : db.clientMeta.isSome = true
  document : (db.documents.get? documentId).isSome = true
  valid : ∀ item ∈ items, ValidOperation item.operation
  unique : ∀ a ∈ items, ∀ b ∈ items, a.operation.opId = b.operation.opId → a.operation = b.operation
  stored : ∀ item ∈ items, ∀ row, db.operations.get? item.operation.opId = some row →
    row.documentId = documentId ∧ row.operation = item.operation
  marked : ∀ item ∈ items, ∀ marker, db.outbox.get? item.operation.opId = some marker →
    marker.documentId = documentId

/-- What a pass requires of the tables. -/
def IngestReady (documentId : JsString) (s : IngestState) (op : TextOperation) : Prop :=
  ValidOperation op ∧
    (∀ row, s.operations.get? op.opId = some row →
      row.documentId = documentId ∧ row.operation = op) ∧
    ∀ marker, s.outbox.get? op.opId = some marker → marker.documentId = documentId

/-- The state after a pass. -/
structure IngestStep (documentId timestamp : JsString) (s s' : IngestState) (op : TextOperation) :
    Prop where
  operations : ∀ k row, s'.operations.get? k = some row ↔ s.operations.get? k = some row ∨
    (s.operations.get? k = none ∧ op.opId = k ∧ row = ⟨k, documentId, op, timestamp⟩)
  outbox : ∀ k, s'.outbox.get? k = if op.opId = k then none else s.outbox.get? k
  lamportClock : s'.lamportClock = max s.lamportClock op.lamport

theorem acknowledge_spec {documentId : JsString} {op : TextOperation}
    {outbox : Table OutboxRecord.opId} :
    (∀ outbox', acknowledge documentId op op outbox = .ok outbox' →
      (∀ marker, outbox.get? op.opId = some marker → marker.documentId = documentId) ∧
      ∀ k, outbox'.get? k = if op.opId = k then none else outbox.get? k) ∧
    ((∀ marker, outbox.get? op.opId = some marker → marker.documentId = documentId) →
      ∃ outbox', acknowledge documentId op op outbox = .ok outbox') := by
  unfold acknowledge
  cases hm : outbox.get? op.opId with
  | none =>
    refine ⟨fun outbox' h => ?_, fun _ => ⟨outbox, rfl⟩⟩
    cases h
    refine ⟨fun _ h => by (cases h), fun k => ?_⟩
    split
    · rename_i hk; rw [← hk]; exact hm
    · rfl
  | some marker =>
    by_cases hd : marker.documentId = documentId
    · have heq : ¬ ¬ operationsEqual op op = true := not_not.2 (operationsEqual_iff.2 rfl)
      simp only [hd, ne_eq, not_true_eq_false, if_false, if_neg heq]
      refine ⟨fun outbox' h => ?_, fun _ => ⟨_, rfl⟩⟩
      cases h
      exact ⟨fun m h => by (cases h; exact hd), fun k => Table.get?_delete _ _ _⟩
    · simp only [hd, ne_eq, not_false_eq_true, if_true]
      exact ⟨fun outbox' h => by (cases h), fun h => absurd (h marker rfl) hd⟩

/-- **One pass of the ingest loop.** -/
theorem ingestOperation_spec (documentId timestamp : JsString) (s : IngestState)
    (op : TextOperation) :
    (∀ s', ingestOperation documentId timestamp s op = .ok s' →
      IngestReady documentId s op ∧ IngestStep documentId timestamp s s' op) ∧
    (IngestReady documentId s op → ∃ s', ingestOperation documentId timestamp s op = .ok s') := by
  obtain ⟨hack, hack'⟩ := @acknowledge_spec documentId op s.outbox
  unfold ingestOperation
  cases hv : validateOperation op with
  | error e =>
    refine ⟨fun s' h => by (cases h), fun h => ?_⟩
    have := h.1
    unfold ValidOperation at this
    rw [hv] at this
    cases this
  | ok u =>
    cases hrow : s.operations.get? op.opId with
    | some row =>
      by_cases hd : row.documentId = documentId
      · by_cases hop : row.operation = op
        · have heq : operationsEqual op op = true := operationsEqual_iff.2 rfl
          simp only [hd, ne_eq, not_true_eq_false, if_false, hop, heq]
          constructor
          · intro s' h
            cases ha : acknowledge documentId op op s.outbox with
            | error e => rw [ha] at h; cases h
            | ok outbox =>
              rw [ha] at h
              cases h
              obtain ⟨hm, hout⟩ := hack outbox ha
              refine ⟨⟨hv, fun r hr => ?_, hm⟩, fun k r => ?_, hout, rfl⟩
              · rw [hrow] at hr; cases hr; exact ⟨hd, hop⟩
              · constructor
                · exact Or.inl
                · rintro (hr | ⟨hnone, rfl, -⟩)
                  · exact hr
                  · rw [hrow] at hnone; cases hnone
          · rintro ⟨-, -, hm⟩
            obtain ⟨outbox, ha⟩ := hack' hm
            rw [ha]
            exact ⟨_, rfl⟩
        · have heq : ¬ operationsEqual row.operation op = true :=
            fun h => hop (operationsEqual_iff.1 h)
          simp only [hd, ne_eq, not_true_eq_false, if_false, if_pos heq]
          exact ⟨fun s' h => by (cases h), fun h => absurd (h.2.1 row hrow).2 hop⟩
      · simp only [ne_eq, hd, not_false_eq_true, if_true]
        exact ⟨fun s' h => by (cases h), fun h => absurd (h.2.1 row hrow).1 hd⟩
    | none =>
      constructor
      · intro s' h
        cases ha : acknowledge documentId op op s.outbox with
        | error e => simp only [ha] at h; cases h
        | ok outbox =>
          simp only [ha] at h
          cases h
          obtain ⟨hm, hout⟩ := hack outbox ha
          refine ⟨⟨hv, fun r hr => by (rw [hrow] at hr; cases hr), hm⟩, fun k r => ?_, hout, rfl⟩
          show (s.operations.put _).get? k = some r ↔ _
          rw [Table.get?_put_of_none hrow, or_comm]
          refine or_congr Iff.rfl ⟨?_, ?_⟩
          · rintro ⟨rfl, rfl⟩
            exact ⟨hrow, rfl, rfl⟩
          · rintro ⟨-, rfl, rfl⟩
            exact ⟨rfl, rfl⟩
      · rintro ⟨-, -, hm⟩
        obtain ⟨outbox, ha⟩ := hack' hm
        simp only [ha]
        exact ⟨_, rfl⟩

/-- The state after the loop. -/
structure IngestRun (documentId timestamp : JsString) (s s' : IngestState)
    (ops : List TextOperation) : Prop where
  operations : ∀ k row, s'.operations.get? k = some row ↔ s.operations.get? k = some row ∨
    (s.operations.get? k = none ∧ ∃ op ∈ ops, op.opId = k ∧ row = ⟨k, documentId, op, timestamp⟩)
  outbox : ∀ k, s'.outbox.get? k = if k ∈ ops.map (·.opId) then none else s.outbox.get? k
  lamportClock : s'.lamportClock = maxLamport s.lamportClock ops

namespace IngestStep

variable {documentId timestamp : JsString} {s t s' : IngestState} {op o : TextOperation}
  {ops : List TextOperation}

/-- The pass of an operation leaves its row. -/
theorem row (h : IngestStep documentId timestamp s t op) (hready : IngestReady documentId s op) :
    ∃ row, t.operations.get? op.opId = some row ∧ row.operation = op := by
  cases hr : s.operations.get? op.opId with
  | some row => exact ⟨row, (h.operations _ _).2 (Or.inl hr), (hready.2.1 row hr).2⟩
  | none => exact ⟨_, (h.operations _ _).2 (Or.inr ⟨hr, rfl, rfl⟩), rfl⟩

/-- After the pass of an operation, one of its identity is required to equal it. -/
theorem same (h : IngestStep documentId timestamp s t op) (hready : IngestReady documentId s op)
    (ho : IngestReady documentId t o) (hid : o.opId = op.opId) : o = op := by
  obtain ⟨row, hrow, hop⟩ := h.row hready
  rw [← hid] at hrow
  rw [← (ho.2.1 row hrow).2, hop]

/-- What a later pass requires held before the pass. -/
theorem ready_before (h : IngestStep documentId timestamp s t op)
    (hready : IngestReady documentId s op) (ho : IngestReady documentId t o) :
    IngestReady documentId s o := by
  by_cases hid : o.opId = op.opId
  · rw [h.same hready ho hid]
    exact hready
  · refine ⟨ho.1, fun row hr => ho.2.1 row ((h.operations _ _).2 (Or.inl hr)), fun m hm => ?_⟩
    refine ho.2.2 m ?_
    rw [h.outbox, if_neg (Ne.symm hid)]
    exact hm

/-- What a later pass requires still holds after the pass. -/
theorem ready_after (h : IngestStep documentId timestamp s t op) (ho : IngestReady documentId s o)
    (huniq : op.opId = o.opId → op = o) : IngestReady documentId t o := by
  obtain ⟨hvalid, hstored, hmarked⟩ := ho
  refine ⟨hvalid, fun row hr => ?_, fun m hm => ?_⟩
  · rcases (h.operations _ _).1 hr with hr | ⟨-, hid, rfl⟩
    · exact hstored row hr
    · exact ⟨rfl, huniq hid⟩
  · rw [h.outbox] at hm
    split at hm
    · cases hm
    · exact hmarked m hm

/-- A pass and the passes after it. -/
theorem cons (h : IngestStep documentId timestamp s t op)
    (hrun : IngestRun documentId timestamp t s' ops)
    (hsame : ∀ o ∈ ops, o.opId = op.opId → o = op) :
    IngestRun documentId timestamp s s' (op :: ops) where
  operations k row := by
    rw [hrun.operations, h.operations]
    constructor
    · rintro ((hr | ⟨hn, hid, rfl⟩) | ⟨hn, o, ho, hid, rfl⟩)
      · exact Or.inl hr
      · exact Or.inr ⟨hn, op, List.mem_cons_self, hid, rfl⟩
      · refine Or.inr ⟨?_, o, List.mem_cons_of_mem _ ho, hid, rfl⟩
        rw [Option.eq_none_iff_forall_ne_some] at hn ⊢
        exact fun r hr => hn r ((h.operations _ _).2 (Or.inl hr))
    · rintro (hr | ⟨hn, o, ho, hid, rfl⟩)
      · exact Or.inl (Or.inl hr)
      · rcases List.mem_cons.1 ho with rfl | ho
        · exact Or.inl (Or.inr ⟨hn, hid, rfl⟩)
        · by_cases hop : op.opId = k
          · rw [hsame o ho (hid.trans hop.symm)]
            exact Or.inl (Or.inr ⟨hn, hop, rfl⟩)
          · refine Or.inr ⟨?_, o, ho, hid, rfl⟩
            rw [Option.eq_none_iff_forall_ne_some]
            intro r hr
            rcases (h.operations _ _).1 hr with hr | ⟨-, hop', -⟩
            · rw [hn] at hr
              cases hr
            · exact hop hop'
  outbox k := by
    rw [hrun.outbox, h.outbox, List.map_cons]
    by_cases hk : op.opId = k
    · simp [hk]
    · simp [hk, Ne.symm hk]
  lamportClock := by
    rw [hrun.lamportClock, h.lamportClock]
    rfl

end IngestStep

/-- **The ingest loop** commits exactly the batches whose operations are valid, agree with
each other and with the tables. -/
theorem ingestOperations_spec (documentId timestamp : JsString) :
    ∀ (ops : List TextOperation) (s : IngestState),
    (∀ s', ingestOperations documentId timestamp s ops = .ok s' →
      ((∀ op ∈ ops, IngestReady documentId s op) ∧
        ∀ a ∈ ops, ∀ b ∈ ops, a.opId = b.opId → a = b) ∧
      IngestRun documentId timestamp s s' ops) ∧
    ((∀ op ∈ ops, IngestReady documentId s op) → (∀ a ∈ ops, ∀ b ∈ ops, a.opId = b.opId → a = b) →
      ∃ s', ingestOperations documentId timestamp s ops = .ok s')
  | [], s => by
    refine ⟨fun s' h => ?_, fun _ _ => ⟨s, rfl⟩⟩
    cases h
    exact ⟨⟨fun _ h => by (cases h), fun _ h => by cases h⟩, fun k row => by simp, fun k => by simp,
      rfl⟩
  | op :: ops, s => by
    obtain ⟨hsound, hcomplete⟩ := ingestOperation_spec documentId timestamp s op
    unfold ingestOperations
    constructor
    · intro s' h
      cases hs : ingestOperation documentId timestamp s op with
      | error e => rw [hs] at h; cases h
      | ok t =>
        rw [hs] at h
        obtain ⟨hready, hstep⟩ := hsound t hs
        obtain ⟨⟨hrest, huniq⟩, hrun⟩ := (ingestOperations_spec documentId timestamp ops t).1 s' h
        have hsame : ∀ o ∈ ops, o.opId = op.opId → o = op := fun o ho =>
          hstep.same hready (hrest o ho)
        refine ⟨⟨List.forall_mem_cons.2 ⟨hready, fun o ho => hstep.ready_before hready (hrest o ho)⟩,
          fun a ha b hb hab => ?_⟩, hstep.cons hrun hsame⟩
        rcases List.mem_cons.1 ha with hao | hao
        · rcases List.mem_cons.1 hb with hbo | hbo
          · rw [hao, hbo]
          · rw [hao, hsame b hbo (by rw [← hab, hao])]
        · rcases List.mem_cons.1 hb with hbo | hbo
          · rw [hbo, hsame a hao (by rw [hab, hbo])]
          · exact huniq a hao b hbo hab
    · intro hall huniq
      obtain ⟨t, ht⟩ := hcomplete (hall op List.mem_cons_self)
      obtain ⟨-, hstep⟩ := hsound t ht
      rw [ht]
      refine (ingestOperations_spec documentId timestamp ops t).2 (fun o ho => ?_)
        fun a ha b hb => huniq a (List.mem_cons_of_mem _ ha) b (List.mem_cons_of_mem _ hb)
      exact hstep.ready_after (hall o (List.mem_cons_of_mem _ ho))
        (huniq op List.mem_cons_self o (List.mem_cons_of_mem _ ho))

/-- A document that is written again was there. -/
theorem documents_put_isSome {db : Database} {documentId timestamp : JsString}
    {document : DocumentRecord} (hdoc : db.documents.get? documentId = some document) (k : JsString) :
    ((db.documents.put { document with updatedAt := timestamp }).get? k).isSome =
      (db.documents.get? k).isSome := by
  have hid : document.id = documentId := Table.key_of_get? hdoc
  refine Table.isSome_get?_put_of_isSome ?_ k
  show (db.documents.get? document.id).isSome = true
  rw [hid, hdoc]
  rfl

/-- The tables after an ingest. -/
structure Ingested (db db' : Database) (documentId : JsString) (ops : List TextOperation)
    (confirmed : Int) (timestamp : JsString) : Prop where
  operations : ∀ k row, db'.operations.get? k = some row ↔ db.operations.get? k = some row ∨
    (db.operations.get? k = none ∧ ∃ op ∈ ops, op.opId = k ∧ row = ⟨k, documentId, op, timestamp⟩)
  outbox : ∀ k, db'.outbox.get? k = if k ∈ ops.map (·.opId) then none else db.outbox.get? k
  clientMeta : ∃ m, db.clientMeta = some m ∧
    db'.clientMeta = some { m with lamportClock := maxLamport m.lamportClock ops }
  documents : ∀ k, (db'.documents.get? k).isSome = (db.documents.get? k).isSome
  syncState : ∀ k, db'.syncState.get? k = if documentId = k then
    some ⟨documentId, max (db.getLastServerSeq documentId) confirmed⟩ else db.syncState.get? k
  replicaSnapshots : db'.replicaSnapshots = db.replicaSnapshots
  serverBaselines : db'.serverBaselines = db.serverBaselines

/-- **What `persistServerOperations` commits.** -/
theorem persistServerOperations_spec {db : Database} {documentId timestamp : JsString}
    {items : List SequencedOperation} {confirmed : Int} :
    (∀ db', db.persistServerOperations documentId items confirmed timestamp = .ok db' →
      db.Ingestible documentId items confirmed ∧
        Ingested db db' documentId (items.map (·.operation)) confirmed timestamp) ∧
    (db.Ingestible documentId items confirmed →
      ∃ db', db.persistServerOperations documentId items confirmed timestamp = .ok db') := by
  unfold persistServerOperations
  constructor
  · intro db' h
    split at h
    · cases h
    · rename_i hb
      split at h
      · cases h
      · rename_i m hm
        split at h
        · cases h
        · rename_i document hdoc
          split at h
          · cases h
          · rename_i s hs
            cases h
            obtain ⟨⟨hready, huniq⟩, hrun⟩ := (ingestOperations_spec documentId timestamp
              (items.map (·.operation)) _).1 s hs
            have hmem : ∀ item ∈ items, item.operation ∈ items.map (·.operation) :=
              fun item hi => List.mem_map_of_mem hi
            refine ⟨⟨hb, by rw [hm]; rfl, by rw [hdoc]; rfl, fun item hi => (hready _ (hmem _ hi)).1,
              fun a ha b hb' => huniq _ (hmem a ha) _ (hmem b hb'),
              fun item hi => (hready _ (hmem _ hi)).2.1, fun item hi => (hready _ (hmem _ hi)).2.2⟩,
              hrun.operations, hrun.outbox, ⟨m, hm, ?_⟩, fun k => ?_, fun k => ?_, rfl, rfl⟩
            · show (if s.lamportClock ≠ m.lamportClock then _ else _) = _
              rw [← hrun.lamportClock]
              split
              · rfl
              · rename_i hl
                rw [not_not] at hl
                rw [hl]
            · show ((if s.insertedAny = true then _ else _ : Table DocumentRecord.id).get? k).isSome = _
              split
              · exact documents_put_isSome hdoc k
              · rfl
            · exact Table.get?_put _ _ _
  · intro h
    obtain ⟨m, hm⟩ := Option.isSome_iff_exists.1 h.clientMeta
    obtain ⟨document, hdoc⟩ := Option.isSome_iff_exists.1 h.document
    obtain ⟨s, hs⟩ := (ingestOperations_spec documentId timestamp (items.map (·.operation))
      ⟨db.operations, db.outbox, m.lamportClock, false⟩).2 (by
        intro op hop
        obtain ⟨item, hi, rfl⟩ := List.mem_map.1 hop
        exact ⟨h.valid item hi, h.stored item hi, h.marked item hi⟩) (by
        intro a ha b hb
        obtain ⟨x, hx, rfl⟩ := List.mem_map.1 ha
        obtain ⟨y, hy, rfl⟩ := List.mem_map.1 hb
        exact h.unique x hx y hy)
    simp only [h.batch, hm, hdoc, hs]
    exact ⟨_, rfl⟩

/-! ## Local edits -/

/-- Operations created with fresh identities, in the order of their counters. -/
structure Created (clientId : JsString) (identity : Identity) (ops : List TextOperation)
    (identity' : Identity) : Prop where
  valid : ∀ op ∈ ops, ValidOperation op
  client : ∀ op ∈ ops, op.clientId = clientId
  counter_mono : identity.nextCounter ≤ identity'.nextCounter
  lamport_mono : identity.lamportClock ≤ identity'.lamportClock
  counters : ∀ op ∈ ops, identity.nextCounter ≤ op.counter ∧ op.counter < identity'.nextCounter
  lamports : ∀ op ∈ ops, identity.lamportClock < op.lamport ∧ op.lamport ≤ identity'.lamportClock
  sorted : ops.Pairwise (fun a b => a.counter < b.counter ∧ a.lamport < b.lamport)

theorem Created.nil (clientId : JsString) (identity : Identity) :
    Created clientId identity [] identity where
  valid _ h := by cases h
  client _ h := by cases h
  counter_mono := le_refl _
  lamport_mono := le_refl _
  counters _ h := by cases h
  lamports _ h := by cases h
  sorted := List.Pairwise.nil

theorem Created.cons {clientId : JsString} {identity identity' : Identity} {op : TextOperation}
    {ops : List TextOperation} (hv : ValidOperation op) (hc : op.clientId = clientId)
    (hn : op.counter = identity.nextCounter) (hl : op.lamport = identity.lamportClock + 1)
    (h : Created clientId identity.next ops identity') :
    Created clientId identity (op :: ops) identity' := by
  obtain ⟨hvs, hcs, hcm, hlm, hco, hla, hs⟩ := h
  simp only [Identity.next] at hcm hlm hco hla
  refine ⟨?_, ?_, by omega, by omega, ?_, ?_, ?_⟩
  · intro o ho
    rcases List.mem_cons.1 ho with rfl | ho
    · exact hv
    · exact hvs o ho
  · intro o ho
    rcases List.mem_cons.1 ho with rfl | ho
    · exact hc
    · exact hcs o ho
  · intro o ho
    rcases List.mem_cons.1 ho with rfl | ho
    · omega
    · have := hco o ho
      omega
  · intro o ho
    rcases List.mem_cons.1 ho with rfl | ho
    · omega
    · have := hla o ho
      omega
  · refine List.pairwise_cons.2 ⟨fun o ho => ?_, hs⟩
    have := hco o ho
    have := hla o ho
    omega

theorem Created.append {clientId : JsString} {identity middle identity' : Identity}
    {ops ops' : List TextOperation} (h : Created clientId identity ops middle)
    (h' : Created clientId middle ops' identity') :
    Created clientId identity (ops ++ ops') identity' := by
  have hc := h.counter_mono
  have hl := h.lamport_mono
  have hc' := h'.counter_mono
  have hl' := h'.lamport_mono
  refine ⟨?_, ?_, by omega, by omega, ?_, ?_, ?_⟩
  · intro o ho
    rcases List.mem_append.1 ho with ho | ho
    · exact h.valid o ho
    · exact h'.valid o ho
  · intro o ho
    rcases List.mem_append.1 ho with ho | ho
    · exact h.client o ho
    · exact h'.client o ho
  · intro o ho
    rcases List.mem_append.1 ho with ho | ho
    · have := h.counters o ho
      omega
    · have := h'.counters o ho
      omega
  · intro o ho
    rcases List.mem_append.1 ho with ho | ho
    · have := h.lamports o ho
      omega
    · have := h'.lamports o ho
      omega
  · refine List.pairwise_append.2 ⟨h.sorted, h'.sorted, fun a ha b hb => ?_⟩
    have h1 := h.counters a ha
    have h2 := h'.counters b hb
    have h3 := h.lamports a ha
    have h4 := h'.lamports b hb
    omega

theorem createDeletes_spec {clientId : JsString} : ∀ {targetIds : List JsString}
    {identity identity' : Identity} {ops : List TextOperation},
    createDeletes clientId targetIds identity = .ok (ops, identity') →
      Created clientId identity ops identity' ∧ (∀ i, .insert i ∉ ops) ∧
        ∀ t, (∃ d, .delete d ∈ ops ∧ d.targetId = t) ↔ t ∈ targetIds
  | [], identity, identity', ops, h => by
    cases h
    exact ⟨Created.nil _ _, fun _ h => by (cases h), fun t => by simp⟩
  | target :: targetIds, identity, identity', ops, h => by
    unfold createDeletes at h
    split at h
    · cases h
    · rename_i op hop
      obtain ⟨heq, hv⟩ := createDeleteOperation_ok hop
      split at h
      · cases h
      · rename_i rest identity'' hrest
        cases h
        obtain ⟨hc, hins, htar⟩ := createDeletes_spec hrest
        refine ⟨hc.cons hv (by rw [heq]; rfl) (by rw [heq]; rfl) (by rw [heq]; rfl), fun i hi => ?_,
          fun t => ?_⟩
        · rcases List.mem_cons.1 hi with hi | hi
          · cases hi
          · exact hins i hi
        · rw [List.mem_cons, ← htar]
          constructor
          · rintro ⟨d, hd, rfl⟩
            rcases List.mem_cons.1 hd with hd | hd
            · cases hd
              exact Or.inl (by rw [heq])
            · exact Or.inr ⟨d, hd, rfl⟩
          · rintro (rfl | ⟨d, hd, rfl⟩)
            · exact ⟨op, List.mem_cons_self, by rw [heq]⟩
            · exact ⟨d, List.mem_cons_of_mem _ hd, rfl⟩

/-- Each created insert is anchored on the start of the chain or on an earlier one. -/
def Chained (anchor : JsString) (ops : List TextOperation) : Prop :=
  ∀ i, .insert i ∈ ops → i.afterId = anchor ∨
    ∃ j, .insert j ∈ ops ∧ j.opId = i.afterId ∧ j.counter < i.counter

theorem createInserts_spec {clientId : JsString} : ∀ {values : List JsString} {anchor : JsString}
    {identity identity' : Identity} {ops : List TextOperation},
    createInserts clientId anchor values identity = .ok (ops, identity') →
      Created clientId identity ops identity' ∧ (∀ d, .delete d ∉ ops) ∧ Chained anchor ops
  | [], anchor, identity, identity', ops, h => by
    cases h
    exact ⟨Created.nil _ _, fun _ h => by (cases h), fun _ h => by cases h⟩
  | value :: values, anchor, identity, identity', ops, h => by
    unfold createInserts at h
    split at h
    · cases h
    · rename_i op hop
      obtain ⟨heq, hv⟩ := createInsertOperation_ok hop
      split at h
      · cases h
      · rename_i rest identity'' hrest
        cases h
        obtain ⟨hc, hdel, hch⟩ := createInserts_spec hrest
        refine ⟨hc.cons hv (by rw [heq]; rfl) (by rw [heq]; rfl) (by rw [heq]; rfl), fun d hd => ?_,
          fun i hi => ?_⟩
        · rcases List.mem_cons.1 hd with hd | hd
          · cases hd
          · exact hdel d hd
        · rcases List.mem_cons.1 hi with hi | hi
          · cases hi
            exact Or.inl (by rw [heq])
          · rcases hch i hi with ha | ⟨j, hj, hid, hlt⟩
            · refine Or.inr ⟨op, List.mem_cons_self, ha.symm, ?_⟩
              have := (hc.counters _ hi).1
              have hoc : op.counter = identity.nextCounter := by rw [heq]
              simp only [Identity.next, TextOperation.counter_insert] at this
              omega
            · exact Or.inr ⟨j, List.mem_cons_of_mem _ hj, hid, hlt⟩

/-- What the operations of an edit do. -/
structure EditOperations (edit : LocalTextEdit) (ops : List TextOperation) : Prop where
  targets : ∀ t, (∃ d, .delete d ∈ ops ∧ d.targetId = t) ↔ t ∈ edit.deleteTargetIds
  chained : Chained edit.insertAfterId ops

theorem createOperations_spec {clientId : JsString} {edit : LocalTextEdit}
    {identity identity' : Identity} {ops : List TextOperation}
    (h : createOperations clientId edit identity = .ok (ops, identity')) :
    Created clientId identity ops identity' ∧ EditOperations edit ops := by
  unfold createOperations at h
  split at h
  · cases h
  · rename_i deletes middle hd
    split at h
    · cases h
    · rename_i inserts identity'' hi
      cases h
      obtain ⟨hc, hins, htar⟩ := createDeletes_spec hd
      obtain ⟨hc', hdel, hch⟩ := createInserts_spec hi
      refine ⟨hc.append hc', fun t => ?_, fun i hi => ?_⟩
      · rw [← htar]
        constructor
        · rintro ⟨d, hm, rfl⟩
          rcases List.mem_append.1 hm with hm | hm
          · exact ⟨d, hm, rfl⟩
          · exact absurd hm (hdel d)
        · rintro ⟨d, hm, rfl⟩
          exact ⟨d, List.mem_append_left _ hm, rfl⟩
      · rcases List.mem_append.1 hi with hi | hi
        · exact absurd hi (hins i)
        · refine (hch i hi).imp_right ?_
          rintro ⟨j, hj, hrest⟩
          exact ⟨j, List.mem_append_right _ hj, hrest⟩

/-- The tables after a local edit. -/
structure Edited (db db' : Database) (documentId : JsString) (ops : List TextOperation)
    (timestamp : JsString) (outboxCreatedAt : Int) : Prop where
  clientMeta : ∃ m identity, db.clientMeta = some m ∧
    Created m.clientId ⟨m.nextCounter, m.lamportClock⟩ ops identity ∧
    db'.clientMeta = some ⟨m.clientId, identity.nextCounter, identity.lamportClock⟩
  nodup : (ops.map (·.opId)).Nodup
  fresh : ∀ op ∈ ops, db.operations.get? op.opId = none ∧ db.outbox.get? op.opId = none
  operations : ∀ k row, db'.operations.get? k = some row ↔
    (∃ op ∈ ops, op.opId = k ∧ row = ⟨k, documentId, op, timestamp⟩) ∨
      db.operations.get? k = some row
  outbox : ∀ k row, db'.outbox.get? k = some row ↔
    (∃ op ∈ ops, op.opId = k ∧ row = ⟨k, documentId, outboxCreatedAt⟩) ∨ db.outbox.get? k = some row
  documents : ∀ k, (db'.documents.get? k).isSome = (db.documents.get? k).isSome
  syncState : db'.syncState = db.syncState
  replicaSnapshots : db'.replicaSnapshots = db.replicaSnapshots
  serverBaselines : db'.serverBaselines = db.serverBaselines

/-- The row made of an operation, by its key. -/
theorem mem_rows {ρ : Type} {key : ρ → JsString} {rowOf : JsString → TextOperation → ρ}
    (hkey : ∀ id op, key (rowOf id op) = id) {ops : List TextOperation} {k : JsString} {row : ρ} :
    (row ∈ ops.map (fun op => rowOf op.opId op) ∧ key row = k) ↔
      ∃ op ∈ ops, op.opId = k ∧ row = rowOf k op := by
  constructor
  · rintro ⟨hmem, hk⟩
    obtain ⟨op, hop, rfl⟩ := List.mem_map.1 hmem
    rw [hkey] at hk
    exact ⟨op, hop, hk, by rw [hk]⟩
  · rintro ⟨op, hop, rfl, rfl⟩
    exact ⟨List.mem_map_of_mem hop, hkey _ _⟩

/-- **What `persistLocalTextEdit` commits.** -/
theorem persistLocalTextEdit_spec {db db' : Database} {documentId timestamp : JsString}
    {edit : LocalTextEdit} {outboxCreatedAt : Int} {ops : List TextOperation}
    (h : db.persistLocalTextEdit documentId edit timestamp outboxCreatedAt = .ok (ops, db')) :
    EditOperations edit ops ∧ ((ops = [] ∧ db' = db) ∨
      ((db.documents.get? documentId).isSome = true ∧
        Edited db db' documentId ops timestamp outboxCreatedAt)) := by
  unfold persistLocalTextEdit at h
  split at h
  · rename_i hempty
    cases h
    refine ⟨⟨fun t => ?_, fun _ h => by cases h⟩, Or.inl ⟨rfl, rfl⟩⟩
    rw [List.length_eq_zero_iff.1 hempty.1]
    simp
  · split at h
    · cases h
    · rename_i m hm
      split at h
      · cases h
      · rename_i document hdoc
        split at h
        · cases h
        · rename_i created identity hcreated
          simp only at h
          split at h
          · cases h
          · rename_i operations hops
            split at h
            · cases h
            · rename_i outbox hout
              cases h
              obtain ⟨hc, hedit⟩ := createOperations_spec hcreated
              obtain ⟨hnd, hnew, hget⟩ := Table.bulkAdd_sound hops
              obtain ⟨-, hnew', hget'⟩ := Table.bulkAdd_sound hout
              refine ⟨hedit, Or.inr ⟨by rw [hdoc]; rfl, ⟨m, identity, hm, hc, rfl⟩, ?_,
                fun op hop => ⟨?_, ?_⟩, fun k row => ?_, fun k row => ?_,
                documents_put_isSome hdoc, rfl, rfl, rfl⟩⟩
              · rwa [List.map_map] at hnd
              · exact hnew _ (List.mem_map_of_mem hop)
              · exact hnew' _ (List.mem_map_of_mem hop)
              · show operations.get? k = some row ↔ _
                rw [hget]
                exact or_congr (@mem_rows _ OperationRecord.opId
                  (fun id op => ⟨id, documentId, op, timestamp⟩) (fun _ _ => rfl) ops k row) Iff.rfl
              · show outbox.get? k = some row ↔ _
                rw [hget']
                exact or_congr (@mem_rows _ OutboxRecord.opId
                  (fun id _ => ⟨id, documentId, outboxCreatedAt⟩) (fun _ _ => rfl) ops k row) Iff.rfl

/-! ## Baselines -/

/-- What `installServerBaseline` has checked before its transaction. -/
theorem bootstrapReplica_spec {bootstrap : SnapshotBootstrap} {items : List SequencedOperation}
    {confirmed : Int} {snapshot : TextReplicaSnapshot} {replica : TextReplica}
    (h : bootstrapReplica bootstrap items confirmed = .ok (snapshot, replica)) :
    snapshot = bootstrap.snapshot ∧
      validateSnapshotSuffix items bootstrap.snapshotSeq confirmed = .ok () ∧
      replica.getUnresolvedOperationIds = [] ∧
      ∃ restored, TextReplica.fromSnapshot snapshot = .ok restored ∧
        restored.applyAll (items.map (·.operation)) = (replica, .ok ()) := by
  unfold bootstrapReplica at h
  split at h
  · cases h
  · rename_i snapshot' hp
    have hsnap : snapshot' = bootstrap.snapshot := by
      unfold parseBootstrapSnapshot at hp
      split at hp
      · cases hp
      · cases hp; rfl
    split at h
    · cases h
    · rename_i hv
      split at h
      · cases h
      · rename_i restored hr
        split at h
        · cases h
        · rename_i replica' ha
          split at h
          · cases h
          · rename_i hlen
            cases h
            have hlen : ¬ 0 < replica.getUnresolvedOperationIds.length := hlen
            exact ⟨hsnap, hv, List.length_eq_zero_iff.1 (by omega), restored, hr, ha⟩

/-- A coherent snapshot and a suffix that leaves nothing unresolved are accepted. -/
theorem bootstrapReplica_ok {bootstrap : SnapshotBootstrap} {items : List SequencedOperation}
    {confirmed : Int} {live : TextReplica} (hversion : bootstrap.version = 1)
    (hsuffix : validateSnapshotSuffix items bootstrap.snapshotSeq confirmed = .ok ())
    (hsnapshot : TextReplica.SnapshotCoherent bootstrap.snapshot) (hinv : TextReplica.Inv live)
    (hops : live.ops = TextReplica.snapshotOps bootstrap.snapshot ∪ {op | op ∈ items.map (·.operation)})
    (hres : live.getUnresolvedOperationIds = []) :
    ∃ replica, bootstrapReplica bootstrap items confirmed = .ok (bootstrap.snapshot, replica) ∧
      TextReplica.Inv replica ∧ replica.ops = live.ops := by
  obtain ⟨restored, hr, hrinv, hrops, -⟩ := TextReplica.fromSnapshot_ok hsnapshot
  obtain ⟨hinv', hiff, hops'⟩ := TextReplica.applyAll_spec (items.map (·.operation)) hrinv
  rw [hrops, ← hops] at hiff hops'
  have hok := hiff.2 hinv.coherent
  cases ha : restored.applyAll (items.map (·.operation)) with
  | mk replica outcome =>
    rw [ha] at hinv' hok hops'
    simp only at hok
    subst hok
    have hops' := hops' rfl
    have hres' : replica.getUnresolvedOperationIds = [] := by
      rw [(hinv'.agree hinv hops').unresolved, hres]
    refine ⟨replica, ?_, hinv', hops'⟩
    unfold bootstrapReplica parseBootstrapSnapshot
    simp only [hversion, hsuffix, hr, ha, hres', ne_eq, not_true_eq_false, if_false, List.length_nil,
      gt_iff_lt, lt_irrefl]

/-- The tables after a baseline has been installed. -/
structure Installed (db db' : Database) (documentId : JsString) (bootstrap : SnapshotBootstrap)
    (items : List SequencedOperation) (confirmed : Int) (timestamp : JsString) : Prop where
  eligible : db.isSnapshotBootstrapEligible documentId = true
  clientMeta : ∃ m, db.clientMeta = some m ∧ db'.clientMeta = some { m with
    lamportClock := max m.lamportClock (max (maxLamportFromSnapshot bootstrap.snapshot)
      (items.foldl (fun max item => Max.max max item.operation.lamport) 0)) }
  nodup : ((items.map (·.operation)).map (·.opId)).Nodup
  fresh : ∀ item ∈ items, db.operations.get? item.operation.opId = none
  operations : ∀ k row, db'.operations.get? k = some row ↔
    (∃ op ∈ items.map (·.operation), op.opId = k ∧ row = ⟨k, documentId, op, timestamp⟩) ∨
      db.operations.get? k = some row
  outbox : db'.outbox = db.outbox
  documents : ∀ k, (db'.documents.get? k).isSome = (db.documents.get? k).isSome
  syncState : ∀ k, db'.syncState.get? k = if documentId = k then some ⟨documentId, confirmed⟩
    else db.syncState.get? k
  serverBaselines : ∀ k, db'.serverBaselines.get? k = if documentId = k then
    some ⟨documentId, bootstrap.snapshotSeq, bootstrap.snapshot, timestamp⟩
    else db.serverBaselines.get? k

/-- **What `installServerBaseline` commits.** -/
theorem installServerBaseline_spec {db db' : Database} {documentId timestamp : JsString}
    {bootstrap : SnapshotBootstrap} {items : List SequencedOperation} {confirmed : Int}
    {replica : TextReplica}
    (h : db.installServerBaseline documentId bootstrap items confirmed timestamp =
      .ok (replica, db')) :
    bootstrapReplica bootstrap items confirmed = .ok (bootstrap.snapshot, replica) ∧
      Installed db db' documentId bootstrap items confirmed timestamp := by
  unfold installServerBaseline at h
  split at h
  · cases h
  · rename_i snapshot replica' hb
    obtain ⟨rfl, -⟩ := bootstrapReplica_spec hb
    simp only at h
    split at h
    · cases h
    · rename_i helig
      split at h
      · cases h
      · rename_i m hm
        split at h
        · cases h
        · rename_i document hdoc
          split at h
          · cases h
          · rename_i operations hops
            cases h
            obtain ⟨hnd, hnew, hget⟩ := Table.bulkAdd_sound hops
            refine ⟨hb, by simpa using helig, ⟨m, hm, rfl⟩, ?_, fun item hi => ?_, fun k row => ?_,
              rfl, documents_put_isSome hdoc, fun k => Table.get?_put _ _ _,
              fun k => Table.get?_put _ _ _⟩
            · rw [List.map_map] at hnd ⊢
              exact hnd
            · exact hnew _ (List.mem_map_of_mem hi)
            · show operations.get? k = some row ↔ _
              rw [hget]
              refine or_congr ⟨?_, ?_⟩ Iff.rfl
              · rintro ⟨hmem, hk⟩
                obtain ⟨item, hi, rfl⟩ := List.mem_map.1 hmem
                subst hk
                exact ⟨item.operation, List.mem_map_of_mem hi, rfl, rfl⟩
              · rintro ⟨op, hop, rfl, rfl⟩
                obtain ⟨item, hi, rfl⟩ := List.mem_map.1 hop
                exact ⟨List.mem_map_of_mem hi, rfl⟩

/-- A checked bootstrap is installed in a database that has nothing of the document. -/
theorem installServerBaseline_ok {db : Database} {documentId timestamp : JsString}
    {bootstrap : SnapshotBootstrap} {items : List SequencedOperation} {confirmed : Int}
    {replica : TextReplica}
    (hb : bootstrapReplica bootstrap items confirmed = .ok (bootstrap.snapshot, replica))
    (helig : db.isSnapshotBootstrapEligible documentId = true) (hm : db.clientMeta.isSome = true)
    (hdoc : (db.documents.get? documentId).isSome = true)
    (hnodup : ((items.map (·.operation)).map (·.opId)).Nodup)
    (hfresh : ∀ item ∈ items, db.operations.get? item.operation.opId = none) :
    ∃ db', db.installServerBaseline documentId bootstrap items confirmed timestamp =
      .ok (replica, db') := by
  obtain ⟨m, hm⟩ := Option.isSome_iff_exists.1 hm
  obtain ⟨document, hdoc⟩ := Option.isSome_iff_exists.1 hdoc
  obtain ⟨operations, hops⟩ := @Table.bulkAdd_ok _ _ _ _ db.operations
    (items.map fun item =>
      (⟨item.operation.opId, documentId, item.operation, timestamp⟩ : OperationRecord))
    (by rwa [List.map_map] at hnodup ⊢) (fun row hrow => by
      obtain ⟨item, hi, rfl⟩ := List.mem_map.1 hrow
      exact hfresh item hi)
  unfold installServerBaseline
  simp only [hb, helig, hm, hdoc, hops, not_true_eq_false, if_false]
  exact ⟨_, rfl⟩

end Database

end LocalFirst
