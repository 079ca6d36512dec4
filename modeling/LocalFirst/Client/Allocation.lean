import LocalFirst.Client.Acceptable
import LocalFirst.Client.Clock
import LocalFirst.Client.Reload

/-!
# Room for a local edit

An edit takes consecutive counters and Lamport values, from counters that ingested operations
have raised, and its identities must be new to the operations table.

* `Consecutive` — the identities that an edit takes.
* `createOperations_ok` — when an edit can be made.
* `Accounted` — the clock is the largest Lamport value in the tables, in every state.
* `Room` — what has been admitted leaves room for an edit.
* `edit_succeeds_iff` — an edit succeeds exactly if there is room.
-/

set_option autoImplicit false

namespace LocalFirst

open TextReplica

/-- How many operations an edit makes. -/
def LocalTextEdit.size (edit : LocalTextEdit) : Nat :=
  edit.deleteTargetIds.length + edit.insertValues.length

namespace Database

/-! ## The identities of an edit -/

/-- The operations take the counters and Lamport values in order, none left out. -/
structure Consecutive (identity : Identity) (ops : List TextOperation) (identity' : Identity) :
    Prop where
  next : identity' = ⟨identity.nextCounter + ops.length, identity.lamportClock + ops.length⟩
  each : ∀ (i : Nat) (op : TextOperation), ops[i]? = some op →
    op.counter = identity.nextCounter + i ∧ op.lamport = identity.lamportClock + 1 + i

theorem Consecutive.nil (identity : Identity) : Consecutive identity [] identity where
  next := by simp
  each i op h := by simp at h

theorem Consecutive.cons {identity identity' : Identity} {op : TextOperation}
    {ops : List TextOperation} (hn : op.counter = identity.nextCounter)
    (hl : op.lamport = identity.lamportClock + 1) (h : Consecutive identity.next ops identity') :
    Consecutive identity (op :: ops) identity' := by
  refine ⟨?_, fun i o ho => ?_⟩
  · rw [h.next, Identity.next, List.length_cons]
    simp only [Identity.mk.injEq]
    omega
  · cases i with
    | zero =>
      cases ho
      omega
    | succ i =>
      have heach := h.each i o ho
      simp only [Identity.next] at heach
      push_cast
      omega

theorem Consecutive.append {identity middle identity' : Identity} {ops ops' : List TextOperation}
    (h : Consecutive identity ops middle) (h' : Consecutive middle ops' identity') :
    Consecutive identity (ops ++ ops') identity' := by
  have hmiddle := h.next
  refine ⟨?_, fun i op hop => ?_⟩
  · rw [h'.next, hmiddle, List.length_append]
    simp only [Identity.mk.injEq]
    omega
  · by_cases hi : i < ops.length
    · rw [List.getElem?_append_left hi] at hop
      exact h.each i op hop
    · rw [List.getElem?_append_right (by omega)] at hop
      have heach := h'.each _ op hop
      simp only [hmiddle] at heach
      omega

/-- Each of the counters is taken. -/
theorem Consecutive.takes {identity identity' : Identity} {ops : List TextOperation}
    (h : Consecutive identity ops identity') {counter : Int} (hlow : identity.nextCounter ≤ counter)
    (hhigh : counter < identity.nextCounter + ops.length) :
    ∃ op ∈ ops, op.counter = counter ∧
      op.lamport = identity.lamportClock + 1 + (counter - identity.nextCounter) := by
  have hi : (counter - identity.nextCounter).toNat < ops.length := by omega
  have heach := h.each _ _ (List.getElem?_eq_getElem hi)
  exact ⟨_, List.getElem_mem hi, by omega, by omega⟩

theorem createDeletes_consecutive {clientId : JsString} : ∀ {targetIds : List JsString}
    {identity identity' : Identity} {ops : List TextOperation},
      createDeletes clientId targetIds identity = .ok (ops, identity') →
        Consecutive identity ops identity' ∧ ops.length = targetIds.length
  | [], identity, identity', ops, h => by
    cases h
    exact ⟨.nil _, rfl⟩
  | target :: targetIds, identity, identity', ops, h => by
    unfold createDeletes at h
    split at h
    · cases h
    · rename_i op hop
      obtain ⟨heq, -⟩ := createDeleteOperation_ok hop
      split at h
      · cases h
      · rename_i rest identity'' hrest
        cases h
        obtain ⟨hc, hlen⟩ := createDeletes_consecutive hrest
        exact ⟨hc.cons (by rw [heq]; rfl) (by rw [heq]; rfl), congrArg (· + 1) hlen⟩

theorem createInserts_consecutive {clientId : JsString} : ∀ {values : List JsString}
    {anchor : JsString} {identity identity' : Identity} {ops : List TextOperation},
      createInserts clientId anchor values identity = .ok (ops, identity') →
        Consecutive identity ops identity' ∧ ops.length = values.length
  | [], anchor, identity, identity', ops, h => by
    cases h
    exact ⟨.nil _, rfl⟩
  | value :: values, anchor, identity, identity', ops, h => by
    unfold createInserts at h
    split at h
    · cases h
    · rename_i op hop
      obtain ⟨heq, -⟩ := createInsertOperation_ok hop
      split at h
      · cases h
      · rename_i rest identity'' hrest
        cases h
        obtain ⟨hc, hlen⟩ := createInserts_consecutive hrest
        exact ⟨hc.cons (by rw [heq]; rfl) (by rw [heq]; rfl), congrArg (· + 1) hlen⟩

/-! ## When an edit can be made -/

/-- The counters and Lamport values of the next `n` operations are safe integers. -/
structure Identity.Safe (identity : Identity) (n : Nat) : Prop where
  counter : 1 ≤ identity.nextCounter
  counters : identity.nextCounter + n ≤ MAX_SAFE_INTEGER + 1
  lamport : 0 ≤ identity.lamportClock
  lamports : identity.lamportClock + n ≤ MAX_SAFE_INTEGER

theorem Identity.Safe.next {identity : Identity} {n : Nat} (h : Identity.Safe identity (n + 1)) :
    Identity.Safe identity.next n := by
  obtain ⟨h1, h2, h3, h4⟩ := h
  push_cast at h2 h4
  constructor <;> simp only [Identity.next] <;> omega

theorem createDeletes_ok {clientId : JsString} (hclient : trim clientId ≠ []) :
    ∀ {targetIds : List JsString} {identity : Identity}, Identity.Safe identity targetIds.length →
      (∀ t ∈ targetIds, t ≠ ROOT_ID) →
        ∃ ops identity', createDeletes clientId targetIds identity = .ok (ops, identity')
  | [], identity, _, _ => ⟨[], identity, rfl⟩
  | target :: targetIds, identity, hsafe, htargets => by
    obtain ⟨htarget, htargets⟩ := List.forall_mem_cons.1 htargets
    obtain ⟨ops, identity', hrest⟩ := createDeletes_ok hclient hsafe.next htargets
    obtain ⟨h1, h2, h3, h4⟩ := hsafe
    rw [List.length_cons] at h2 h4
    push_cast at h2 h4
    have hvalid : validateOperation (.delete ⟨makeOperationId clientId identity.nextCounter, clientId,
        identity.nextCounter, identity.lamportClock + 1, target⟩) = .ok () := by
      refine validateOperation_iff.2 ⟨hclient, ⟨h1, ?_⟩, ⟨?_, ?_⟩, rfl, htarget⟩ <;>
        simp only [TextOperation.counter_delete, TextOperation.lamport_delete] <;> omega
    simp only [createDeletes, createDeleteOperation, hvalid, hrest]
    exact ⟨_, _, rfl⟩

theorem createInserts_ok {clientId : JsString} (hclient : trim clientId ≠ []) :
    ∀ {values : List JsString} {anchor : JsString} {identity : Identity},
      Identity.Safe identity values.length → (∀ v ∈ values, v ≠ []) →
      (∀ n, identity.nextCounter ≤ n → n < identity.nextCounter + values.length →
        anchor ≠ makeOperationId clientId n) →
        ∃ ops identity', createInserts clientId anchor values identity = .ok (ops, identity')
  | [], _, identity, _, _, _ => ⟨[], identity, rfl⟩
  | value :: values, anchor, identity, hsafe, hvalues, hanchor => by
    obtain ⟨hvalue, hvalues⟩ := List.forall_mem_cons.1 hvalues
    obtain ⟨h1, h2, h3, h4⟩ := id hsafe
    rw [List.length_cons] at h2 h4 hanchor
    push_cast at h2 h4 hanchor
    -- the next insert is anchored on this one, whose counter is smaller
    have hchain : ∀ n, identity.next.nextCounter ≤ n → n < identity.next.nextCounter + values.length →
        makeOperationId clientId identity.nextCounter ≠ makeOperationId clientId n := by
      intro n hlow _ heq
      simp only [Identity.next] at hlow
      have := (makeOperationId_inj (by omega) (by omega) heq).2
      omega
    obtain ⟨ops, identity', hrest⟩ := createInserts_ok hclient hsafe.next hvalues hchain
    have hself : anchor ≠ makeOperationId clientId identity.nextCounter :=
      hanchor _ (le_refl _) (by omega)
    have hvalid : validateOperation (.insert ⟨makeOperationId clientId identity.nextCounter, clientId,
        identity.nextCounter, identity.lamportClock + 1, anchor, value⟩) = .ok () := by
      refine validateOperation_iff.2 ⟨hclient, ⟨h1, ?_⟩, ⟨?_, ?_⟩, rfl, hvalue, hself⟩ <;>
        simp only [TextOperation.counter_insert, TextOperation.lamport_insert] <;> omega
    simp only [createInserts, createInsertOperation, hvalid, hrest]
    exact ⟨_, _, rfl⟩

theorem createOperations_consecutive {clientId : JsString} {edit : LocalTextEdit}
    {identity identity' : Identity} {ops : List TextOperation}
    (h : createOperations clientId edit identity = .ok (ops, identity')) :
    Consecutive identity ops identity' ∧ ops.length = edit.size ∧
      ∀ v ∈ edit.insertValues, ∃ i : InsertOperation, .insert i ∈ ops ∧ i.value = v := by
  unfold createOperations at h
  split at h
  · cases h
  · rename_i deletes middle hdeletes
    split at h
    · cases h
    · rename_i inserts identity'' hinserts
      cases h
      obtain ⟨hc, hlen⟩ := createDeletes_consecutive hdeletes
      obtain ⟨hc', hlen'⟩ := createInserts_consecutive hinserts
      refine ⟨hc.append hc', ?_, fun v hv => ?_⟩
      · rw [List.length_append, hlen, hlen']
        rfl
      · obtain ⟨i, hi, hvalue⟩ := (createInserts_values hinserts v).1 hv
        exact ⟨i, List.mem_append_right _ hi, hvalue⟩

theorem createOperations_ok {clientId : JsString} (hclient : trim clientId ≠ [])
    {edit : LocalTextEdit} {identity : Identity} (hsafe : Identity.Safe identity edit.size)
    (htargets : ∀ t ∈ edit.deleteTargetIds, t ≠ ROOT_ID) (hvalues : ∀ v ∈ edit.insertValues, v ≠ [])
    (hanchor : ∀ n, identity.nextCounter ≤ n → n < identity.nextCounter + edit.size →
      edit.insertAfterId ≠ makeOperationId clientId n) :
    ∃ ops identity', createOperations clientId edit identity = .ok (ops, identity') := by
  obtain ⟨h1, h2, h3, h4⟩ := hsafe
  unfold LocalTextEdit.size at h2 h4 hanchor
  push_cast at h2 h4 hanchor
  obtain ⟨deletes, middle, hdeletes⟩ := createDeletes_ok hclient
    (⟨h1, by omega, h3, by omega⟩ : Identity.Safe identity edit.deleteTargetIds.length) htargets
  obtain ⟨hc, hlen⟩ := createDeletes_consecutive hdeletes
  have hmiddle := hc.next
  rw [hlen] at hmiddle
  obtain ⟨inserts, identity', hinserts⟩ := @createInserts_ok _ hclient _ edit.insertAfterId middle
    (by rw [hmiddle]; constructor <;> simp only <;> omega) hvalues fun n hlow hhigh => by
      simp only [hmiddle] at hlow hhigh
      exact hanchor n (by omega) (by omega)
  unfold createOperations
  simp only [hdeletes, hinserts]
  exact ⟨_, _, rfl⟩

/-- What an edit that commits has created. -/
theorem persistLocalTextEdit_committed {db db' : Database} {documentId timestamp : JsString}
    {edit : LocalTextEdit} {outboxCreatedAt : Int} {ops : List TextOperation} {m : ClientMetaRecord}
    (hm : db.clientMeta = some m) (hedit : 0 < edit.size)
    (h : db.persistLocalTextEdit documentId edit timestamp outboxCreatedAt = .ok (ops, db')) :
    ∃ identity, createOperations m.clientId edit ⟨m.nextCounter, m.lamportClock⟩ =
        .ok (ops, identity) ∧
      db'.clientMeta = some ⟨m.clientId, identity.nextCounter, identity.lamportClock⟩ := by
  have hne : ¬ (edit.deleteTargetIds.length = 0 ∧ edit.insertValues.length = 0) := by
    unfold LocalTextEdit.size at hedit
    omega
  unfold persistLocalTextEdit at h
  rw [if_neg hne, hm] at h
  simp only at h
  split at h
  · cases h
  · split at h
    · cases h
    · rename_i created identity hcreated
      split at h
      · cases h
      · split at h
        · cases h
        · cases h
          exact ⟨identity, hcreated, rfl⟩

/-- An edit commits if its operations can be made and are new to the tables. -/
theorem persistLocalTextEdit_ok {db : Database} {documentId timestamp : JsString}
    {edit : LocalTextEdit} {outboxCreatedAt : Int} {ops : List TextOperation} {m : ClientMetaRecord}
    {identity : Identity} (hm : db.clientMeta = some m)
    (hdoc : (db.documents.get? documentId).isSome = true)
    (hcreated : createOperations m.clientId edit ⟨m.nextCounter, m.lamportClock⟩ =
      .ok (ops, identity))
    (hfresh : ∀ op ∈ ops, db.operations.get? op.opId = none ∧ db.outbox.get? op.opId = none) :
    ∃ ops db', db.persistLocalTextEdit documentId edit timestamp outboxCreatedAt = .ok (ops, db') := by
  obtain ⟨document, hdoc⟩ := Option.isSome_iff_exists.1 hdoc
  obtain ⟨hc, -⟩ := createOperations_spec hcreated
  have hnodup : (ops.map (·.opId)).Nodup := by
    refine List.pairwise_map.2 (hc.sorted.imp_of_mem fun {a b} ha hb hlt hid => ?_)
    have := ((hc.valid a ha).identity (hc.valid b hb) hid).2
    omega
  obtain ⟨operations, hops⟩ := @Table.bulkAdd_ok _ _ _ _ db.operations
    (ops.map fun op => (⟨op.opId, documentId, op, timestamp⟩ : OperationRecord))
    (by rwa [List.map_map]) (fun row hrow => by
      obtain ⟨op, hop, rfl⟩ := List.mem_map.1 hrow
      exact (hfresh op hop).1)
  obtain ⟨outbox, hout⟩ := @Table.bulkAdd_ok _ _ _ _ db.outbox
    (ops.map fun op => (⟨op.opId, documentId, outboxCreatedAt⟩ : OutboxRecord))
    (by rwa [List.map_map]) (fun row hrow => by
      obtain ⟨op, hop, rfl⟩ := List.mem_map.1 hrow
      exact (hfresh op hop).2)
  unfold persistLocalTextEdit
  split
  · exact ⟨_, _, rfl⟩
  · simp only [hm, hdoc, hcreated, hops, hout]
    exact ⟨_, _, rfl⟩

/-! ## The counters are those of the tables -/

theorem maxLamport_attained : ∀ (bound : Int) (ops : List TextOperation),
    maxLamport bound ops = bound ∨ ∃ op ∈ ops, op.lamport = maxLamport bound ops
  | bound, [] => Or.inl rfl
  | bound, op :: ops => by
    have hcons : maxLamport bound (op :: ops) = maxLamport (max bound op.lamport) ops := rfl
    rw [hcons]
    rcases maxLamport_attained (max bound op.lamport) ops with h | ⟨o, ho, h⟩
    · rw [h]
      rcases le_total op.lamport bound with hle | hle
      · exact Or.inl (max_eq_left hle)
      · exact Or.inr ⟨op, List.mem_cons_self, (max_eq_right hle).symm⟩
    · exact Or.inr ⟨o, List.mem_cons_of_mem _ ho, h⟩

/-- The clock is the largest Lamport value that the tables hold, and the counters are behind it. -/
structure Accounted (db : Database) : Prop where
  baselines : ∀ k, db.serverBaselines.get? k = none
  documents : ∀ k, (db.documents.get? k).isSome = true → db.clientMeta.isSome = true
  rows : ∀ k row, db.operations.get? k = some row →
    db.clientMeta.isSome = true ∧ ValidOperation row.operation ∧ row.operation.opId = k
  marked : ∀ k, (db.outbox.get? k).isSome = true → (db.operations.get? k).isSome = true
  counters : ∀ m, db.clientMeta = some m → 1 ≤ m.nextCounter ∧ m.nextCounter ≤ m.lamportClock + 1
  clock : ∀ m, db.clientMeta = some m → (∀ op, db.Holds op → op.lamport ≤ m.lamportClock) ∧
    (m.lamportClock = 0 ∨ ∃ op, db.Holds op ∧ op.lamport = m.lamportClock)

theorem Accounted.empty : Accounted .empty where
  baselines _ := rfl
  documents _ h := by cases h
  rows _ _ h := by cases h
  marked _ h := by cases h
  counters _ h := by cases h
  clock _ h := by cases h

variable {db db' : Database} {documentId timestamp : JsString}

theorem Accounted.row_of_holds (h : db.Accounted) {op : TextOperation} (hop : db.Holds op) :
    ∃ row, db.operations.get? op.opId = some row ∧ row.operation = op ∧ ValidOperation op := by
  rcases hop with ⟨k, row, hk, rfl⟩ | ⟨k, baseline, hk, -⟩
  · obtain ⟨-, hv, hid⟩ := h.rows k row hk
    exact ⟨row, by rw [hid]; exact hk, rfl, hv⟩
  · rw [h.baselines] at hk
    cases hk

theorem Accounted.initialized (h : db.Accounted) (documentId defaultTitle clientId timestamp : JsString) :
    (db.initializeDocument documentId defaultTitle clientId timestamp).2.Accounted := by
  have hholds : ∀ op, (db.initializeDocument documentId defaultTitle clientId timestamp).2.Holds op ↔
      db.Holds op := fun op => Iff.rfl
  -- without metadata there are no rows, and the clock starts at zero
  have hmeta : ∀ m, (db.initializeDocument documentId defaultTitle clientId timestamp).2.clientMeta =
      some m → db.clientMeta = some m ∨ ((∀ op, ¬ db.Holds op) ∧ m = ⟨clientId, 1, 0⟩) := by
    intro m hm
    cases hold : db.clientMeta with
    | some m₀ =>
      simp only [initializeDocument, hold, Option.getD_some] at hm
      exact Or.inl hm
    | none =>
      simp only [initializeDocument, hold, Option.getD_none] at hm
      refine Or.inr ⟨fun op hop => ?_, (Option.some.inj hm).symm⟩
      obtain ⟨row, hk, -⟩ := h.row_of_holds hop
      have := (h.rows _ _ hk).1
      rw [hold] at this
      cases this
  refine ⟨h.baselines, fun _ _ => rfl, fun k row hk => ?_, h.marked, fun m hm => ?_, fun m hm => ?_⟩
  · exact ⟨rfl, (h.rows k row hk).2⟩
  · rcases hmeta m hm with hold | ⟨-, rfl⟩
    · exact h.counters m hold
    · exact ⟨le_refl _, le_refl _⟩
  · rcases hmeta m hm with hold | ⟨hnone, rfl⟩
    · exact h.clock m hold
    · exact ⟨fun op hop => absurd hop (hnone op), Or.inl rfl⟩

theorem Accounted.edit (h : db.Accounted) {edit : LocalTextEdit} {outboxCreatedAt : Int}
    {ops : List TextOperation}
    (hp : db.persistLocalTextEdit documentId edit timestamp outboxCreatedAt = .ok (ops, db')) :
    db'.Accounted := by
  obtain ⟨-, ⟨-, rfl⟩ | ⟨-, he⟩⟩ := persistLocalTextEdit_spec hp
  · exact h
  by_cases hsize : 0 < edit.size
  swap
  · have hempty : edit.deleteTargetIds.length = 0 ∧ edit.insertValues.length = 0 := by
      unfold LocalTextEdit.size at hsize
      omega
    unfold persistLocalTextEdit at hp
    rw [if_pos hempty] at hp
    cases hp
    exact h
  obtain ⟨m, -, hm, -⟩ := he.clientMeta
  obtain ⟨identity, hcreated, hm'⟩ := persistLocalTextEdit_committed hm hsize hp
  obtain ⟨hc, -⟩ := createOperations_spec hcreated
  obtain ⟨hcon, hlen, -⟩ := createOperations_consecutive hcreated
  have hnext := hcon.next
  obtain ⟨hcounter, hbehind⟩ := h.counters m hm
  obtain ⟨hclock, -⟩ := h.clock m hm
  refine ⟨fun k => by rw [he.serverBaselines]; exact h.baselines k, fun _ _ => by rw [hm']; rfl,
    fun k row hk => ⟨by rw [hm']; rfl, ?_⟩, fun k hk => ?_, fun m' hm'' => ?_, fun m' hm'' => ?_⟩
  · rcases (he.operations k row).1 hk with ⟨op, hop, hid, rfl⟩ | hk
    · exact ⟨hc.valid op hop, hid⟩
    · exact (h.rows k row hk).2
  · obtain ⟨marker, hk⟩ := Option.isSome_iff_exists.1 hk
    rcases (he.outbox k marker).1 hk with ⟨op, hop, hid, -⟩ | hk
    · exact Option.isSome_iff_exists.2 ⟨_, (he.operations k _).2 (Or.inl ⟨op, hop, hid, rfl⟩)⟩
    · obtain ⟨row, hrow⟩ := Option.isSome_iff_exists.1 (h.marked k (by rw [hk]; rfl))
      exact Option.isSome_iff_exists.2 ⟨row, (he.operations k row).2 (Or.inr hrow)⟩
  · cases hm'.symm.trans hm''
    simp only [hnext]
    omega
  · cases hm'.symm.trans hm''
    simp only [hnext]
    refine ⟨fun op hop => ?_, Or.inr ?_⟩
    · rcases he.holds hop with hop | hop
      · have := (hc.lamports op hop).2
        rwa [hnext] at this
      · have := hclock op hop
        omega
    · -- the last operation of the edit has the largest Lamport value
      obtain ⟨op, hop, -, hlamport⟩ := @Consecutive.takes _ _ _ hcon
        (m.nextCounter + ops.length - 1) (by simp only; omega) (by simp only; omega)
      refine ⟨op, Or.inl ⟨_, _, (he.operations _ _).2 (Or.inl ⟨op, hop, rfl, rfl⟩), rfl⟩, ?_⟩
      simp only at hlamport
      omega

theorem Accounted.ingest (h : db.Accounted) {items : List SequencedOperation} {confirmed : Int}
    (hp : db.persistServerOperations documentId items confirmed timestamp = .ok db') :
    db'.Accounted := by
  obtain ⟨hok, hi⟩ := persistServerOperations_spec.1 db' hp
  obtain ⟨m, hm, hm'⟩ := hi.clientMeta
  have hmono : ∀ k row, db.operations.get? k = some row → db'.operations.get? k = some row :=
    fun k row hk => (hi.operations k row).2 (Or.inl hk)
  obtain ⟨hcounter, hbehind⟩ := h.counters m hm
  obtain ⟨hclock, hattained⟩ := h.clock m hm
  obtain ⟨hbound, hlamports⟩ := maxLamport_le_iff.1
    (le_refl (maxLamport m.lamportClock (items.map (·.operation))))
  refine ⟨fun k => by rw [hi.serverBaselines]; exact h.baselines k, fun _ _ => by rw [hm']; rfl,
    fun k row hk => ⟨by rw [hm']; rfl, ?_⟩, fun k hk => ?_, fun m' hm'' => ?_, fun m' hm'' => ?_⟩
  · rcases (hi.operations k row).1 hk with hk | ⟨-, op, hop, hid, rfl⟩
    · exact (h.rows k row hk).2
    · obtain ⟨item, hitem, rfl⟩ := List.mem_map.1 hop
      exact ⟨hok.valid item hitem, hid⟩
  · rw [hi.outbox] at hk
    split at hk
    · cases hk
    · obtain ⟨row, hrow⟩ := Option.isSome_iff_exists.1 (h.marked k hk)
      exact Option.isSome_iff_exists.2 ⟨row, hmono k row hrow⟩
  · cases hm'.symm.trans hm''
    exact ⟨hcounter, by simp only; omega⟩
  · cases hm'.symm.trans hm''
    refine ⟨fun op hop => ?_, ?_⟩
    · rcases hi.holds hop with hop | hop
      · exact hlamports op hop
      · exact (hclock op hop).trans hbound
    · rcases maxLamport_attained m.lamportClock (items.map (·.operation)) with heq | ⟨op, hop, heq⟩
      · simp only [heq]
        refine hattained.imp_right fun ⟨op, hop, hlamport⟩ => ⟨op, ?_, hlamport⟩
        obtain ⟨row, hrow, rfl, -⟩ := h.row_of_holds hop
        exact Or.inl ⟨_, row, hmono _ row hrow, rfl⟩
      · have hstored : op ∈ db'.storedOps documentId := by
          rw [hi.storedOps hok]
          exact Or.inr hop
        obtain ⟨k, row, hk, -, hrow⟩ := hstored
        exact Or.inr ⟨op, Or.inl ⟨k, row, hk, hrow⟩, heq⟩

end Database

/-! ## Room -/

/-- Nothing that the tables hold is in the way of the next `edit.size` identities; the client id is
not blank and no empty value is inserted. -/
structure Room (db : Database) (m : ClientMetaRecord) (edit : LocalTextEdit) : Prop where
  client : trim m.clientId ≠ []
  values : ∀ v ∈ edit.insertValues, v ≠ []
  size : edit.size ≤ MAX_SAFE_INTEGER
  lamports : ∀ op, db.Holds op → op.lamport + edit.size ≤ MAX_SAFE_INTEGER
  identities : ∀ op, db.Holds op → op.clientId = m.clientId → m.nextCounter ≤ op.counter →
    m.nextCounter + edit.size ≤ op.counter

namespace Database

variable {db : Database} {documentId timestamp : JsString} {edit : LocalTextEdit}
  {outboxCreatedAt : Int} {m : ClientMetaRecord}

theorem Accounted.edit_commits (h : db.Accounted) (hm : db.clientMeta = some m)
    (hdoc : (db.documents.get? documentId).isSome = true) (hroom : Room db m edit)
    (htargets : ∀ t ∈ edit.deleteTargetIds, ∃ op, db.Holds op ∧ op.opId = t)
    (hanchor : edit.insertAfterId = ROOT_ID ∨ ∃ op, db.Holds op ∧ op.opId = edit.insertAfterId) :
    ∃ ops db', db.persistLocalTextEdit documentId edit timestamp outboxCreatedAt = .ok (ops, db') := by
  obtain ⟨hcounter, hbehind⟩ := h.counters m hm
  have hclock : m.lamportClock + edit.size ≤ MAX_SAFE_INTEGER := by
    rcases (h.clock m hm).2 with hzero | ⟨op, hop, hlamport⟩
    · have := hroom.size
      omega
    · have := hroom.lamports op hop
      omega
  have hsafe : Identity.Safe ⟨m.nextCounter, m.lamportClock⟩ edit.size := by
    constructor <;> simp only <;> omega
  -- what is held has no identity that the edit takes
  have hnew : ∀ op, db.Holds op → ∀ n, m.nextCounter ≤ n → n < m.nextCounter + edit.size →
      op.opId ≠ makeOperationId m.clientId n := by
    intro op hop n hlow hhigh hid
    obtain ⟨row, -, -, hv⟩ := h.row_of_holds hop
    have hpositive := (validateOperation_iff.1 hv).2.1.1
    rw [hv.opId_eq] at hid
    obtain ⟨hclient, hn⟩ := makeOperationId_inj (by omega) (by omega) hid
    have := hroom.identities op hop hclient (by omega)
    omega
  have hroot : ∀ n, ROOT_ID ≠ makeOperationId m.clientId n := by
    intro n hid
    apply js_colon_not_mem_root
    rw [hid]
    exact colon_mem_makeOperationId _ _
  obtain ⟨ops, identity, hcreated⟩ := createOperations_ok hroom.client hsafe
    (fun t ht => by
      obtain ⟨op, hop, rfl⟩ := htargets t ht
      obtain ⟨row, -, -, hv⟩ := h.row_of_holds hop
      exact hv.opId_ne_root) hroom.values
    (fun n hlow hhigh => by
      rcases hanchor with hanchor | ⟨op, hop, hid⟩
      · rw [hanchor]
        exact hroot n
      · rw [← hid]
        exact hnew op hop n hlow hhigh)
  obtain ⟨hc, -⟩ := createOperations_spec hcreated
  obtain ⟨hcon, hlen, -⟩ := createOperations_consecutive hcreated
  refine persistLocalTextEdit_ok hm hdoc hcreated fun op hop => ?_
  have hnone : db.operations.get? op.opId = none := by
    rw [Option.eq_none_iff_forall_ne_some]
    intro row hrow
    have hcounters := hc.counters op hop
    rw [hcon.next, hlen] at hcounters
    refine hnew row.operation (Or.inl ⟨_, row, hrow, rfl⟩) op.counter hcounters.1 hcounters.2 ?_
    rw [(h.rows _ row hrow).2.2, (hc.valid op hop).opId_eq, hc.client op hop]
  refine ⟨hnone, ?_⟩
  cases hmarker : db.outbox.get? op.opId with
  | none => rfl
  | some marker =>
    have := h.marked op.opId (by rw [hmarker]; rfl)
    rw [hnone] at this
    cases this

theorem Accounted.room (h : db.Accounted) (hm : db.clientMeta = some m) (hsize : 0 < edit.size)
    {ops : List TextOperation} {db' : Database}
    (hp : db.persistLocalTextEdit documentId edit timestamp outboxCreatedAt = .ok (ops, db')) :
    Room db m edit := by
  obtain ⟨identity, hcreated, -⟩ := persistLocalTextEdit_committed hm hsize hp
  obtain ⟨hc, -⟩ := createOperations_spec hcreated
  obtain ⟨hcon, hlen, hcarried⟩ := createOperations_consecutive hcreated
  obtain ⟨last, hlast, -, hlamport⟩ := @Consecutive.takes _ _ _ hcon
    (m.nextCounter + edit.size - 1) (by simp only; omega) (by simp only; omega)
  obtain ⟨hclient, -, ⟨-, hmax⟩, -⟩ := validateOperation_iff.1 (hc.valid last hlast)
  obtain ⟨hcounter, hbehind⟩ := h.counters m hm
  simp only at hlamport
  refine ⟨?_, fun v hv => ?_, by omega, fun op hop => ?_, fun op hop hid hlow => ?_⟩
  · rwa [hc.client last hlast] at hclient
  · obtain ⟨i, hi, rfl⟩ := hcarried v hv
    exact (hc.valid _ hi).value_ne_nil
  · have := (h.clock m hm).1 op hop
    omega
  · by_contra hhigh
    obtain ⟨taken, htaken, hsame, -⟩ := @Consecutive.takes _ _ _ hcon op.counter hlow
      (by simp only; omega)
    obtain ⟨row, hrow, -, hv⟩ := h.row_of_holds hop
    obtain ⟨-, ⟨rfl, -⟩ | ⟨-, he⟩⟩ := persistLocalTextEdit_spec hp
    · cases htaken
    · have hnone := (he.fresh taken htaken).1
      rw [(hc.valid taken htaken).opId_eq, hc.client taken htaken, hsame, ← hid, ← hv.opId_eq,
        hrow] at hnone
      cases hnone

end Database

/-! ## Runs -/

/-- The event installs a server baseline. -/
def StoreEvent.Installs : StoreEvent → Prop
  | .run (.installServerBaseline ..) => True
  | _ => False

namespace StoreRun

theorem step_accounted (s : StoreRun) (e : StoreEvent) (he : ¬ e.Installs) (h : s.db.Accounted) :
    (s.step e).db.Accounted := by
  rcases e with (⟨documentId, defaultTitle, clientId, timestamp⟩ |
    ⟨documentId, edit, timestamp, outboxCreatedAt⟩ | ⟨documentId, items, confirmed, timestamp⟩ | _) | t
  · exact h.initialized documentId defaultTitle clientId timestamp
  · simp only [step, runTransaction]
    split
    · exact h
    · rename_i hp
      exact h.edit hp
  · simp only [step, runTransaction]
    split
    · exact h
    · rename_i hp
      exact h.ingest hp
  · exact absurd trivial he
  · exact h

/-- **An edit succeeds exactly if there is room for it.**  After any run of `initialize`, local edits
and ingests, an edit of the visible elements of an open document is persisted if and only if no
operation that the tables hold has a Lamport value too near the largest safe integer, or has this
client's id and one of the counters that the edit takes. -/
theorem edit_succeeds_iff (events : List StoreEvent) (hevents : ∀ e ∈ events, ¬ e.Installs)
    {c : LocalDocumentController} (hlive : c.Live (Runs.run step start events).db)
    (hdoc : ((Runs.run step start events).db.documents.get? c.documentId).isSome = true)
    {elements : List VisibleElement} (hv : c.replica.getVisibleElements = .ok elements)
    {edit : LocalTextEdit} (hsize : 0 < edit.size)
    (htargets : ∀ t ∈ edit.deleteTargetIds, ∃ e ∈ elements, e.id = t)
    (hanchor : edit.insertAfterId = ROOT_ID ∨ ∃ e ∈ elements, e.id = edit.insertAfterId)
    (timestamp : JsString) (outboxCreatedAt : Int) :
    (∃ ops db', (Runs.run step start events).db.persistLocalTextEdit c.documentId edit timestamp
      outboxCreatedAt = .ok (ops, db')) ↔
    ∃ m, (Runs.run step start events).db.clientMeta = some m ∧
      Room (Runs.run step start events).db m edit := by
  have h : (Runs.run step start events).db.Accounted :=
    Runs.invariant_of step_accounted Database.Accounted.empty hevents
  generalize (Runs.run step start events).db = db at hlive hdoc h
  obtain ⟨m, hm⟩ := Option.isSome_iff_exists.1 (h.documents _ hdoc)
  constructor
  · rintro ⟨ops, db', hp⟩
    exact ⟨m, hm, h.room hm hsize hp⟩
  · rintro ⟨m', hm', hroom⟩
    have hheld : ∀ e ∈ elements, ∃ op, db.Holds op ∧ op.opId = e.id := by
      intro e he
      obtain ⟨op, hop, hid, -⟩ := hlive.inv.visible_insert hv he
      rw [hlive.ops] at hop
      exact ⟨.insert op, Database.holds_of_documentOps hop, hid⟩
    refine h.edit_commits hm' hdoc hroom (fun t ht => ?_) (hanchor.imp_right ?_)
    · obtain ⟨e, he, rfl⟩ := htargets t ht
      exact hheld e he
    · rintro ⟨e, he, hid⟩
      rw [← hid]
      exact hheld e he

/-- A letter typed after one that the server has sent. -/
theorem edit_succeeds_iff_letter :
    let sent : TextOperation := .insert ⟨js "B:1", js "B", 1, 5, ROOT_ID, js "y"⟩
    let events : List StoreEvent := [
      .run (.initializeDocument (js "d") (js "D") (js "A") []),
      .run (.persistServerOperations (js "d") [⟨1, sent⟩] 1 [])]
    ∃ m, (Runs.run step start events).db.clientMeta = some m ∧
      Room (Runs.run step start events).db m ⟨[js "B:1"], js "B:1", [js "x"]⟩ := by
  intro sent events
  let c : LocalDocumentController :=
    ⟨(empty.applyAll [sent]).1, js "d", js "A", js "D", 1000, false, 0⟩
  have hrestore : LocalDocumentController.restore (Runs.run step start events).db (js "d") =
      .ok (c.replica, 0) := by
    rfl
  obtain ⟨hready, hinv, hops⟩ := LocalDocumentController.restore_sound hrestore
  have hv : c.replica.getVisibleElements = .ok [⟨js "B:1", js "y"⟩] := by decide +kernel
  refine (edit_succeeds_iff events (fun e he => ?_) ⟨hinv, hops, hready, rfl⟩ (by decide +kernel) hv
    (by decide) ?_ (Or.inr ⟨_, List.mem_singleton_self _, rfl⟩) [] 0).1 ⟨_, _, rfl⟩
  · simp only [events, List.mem_cons, List.not_mem_nil, or_false] at he
    rcases he with rfl | rfl <;> exact id
  · intro t ht
    rw [List.mem_singleton.1 ht]
    exact ⟨_, List.mem_singleton_self _, rfl⟩

/-- The largest safe integer is a valid Lamport value.  Once it has been ingested into one document,
nothing can be typed, into another. -/
theorem editing_disabled :
    let sent : TextOperation := .insert ⟨js "B:1", js "B", 1, MAX_SAFE_INTEGER, ROOT_ID, js "y"⟩
    let events : List StoreEvent := [
      .run (.initializeDocument (js "d") (js "D") (js "A") []),
      .run (.initializeDocument (js "e") (js "E") (js "A") []),
      .run (.persistServerOperations (js "d") [⟨1, sent⟩] 1 [])]
    let db := (Runs.run step start events).db
    operationMessageSchema ⟨js "d", 1, sent⟩ = true ∧ validateServerBatch [⟨1, sent⟩] 1 = .ok () ∧
      validateOperation sent = .ok () ∧ (db.documents.get? (js "e")).isSome = true ∧
      LocalDocumentController.restore db (js "e") = .ok (empty, 0) ∧
      db.persistLocalTextEdit (js "e") ⟨[], ROOT_ID, [js "x"]⟩ [] 0 =
        .error (invalidOperationError (js "lamport must be a positive safe integer.")) := by
  intro sent events db
  exact ⟨by decide +kernel, by decide +kernel, by decide +kernel, by decide +kernel, rfl, rfl⟩

end StoreRun

end LocalFirst
