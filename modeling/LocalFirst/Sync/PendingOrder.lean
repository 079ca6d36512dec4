import LocalFirst.Client.Acceptable
import LocalFirst.Lib.Dependencies
import LocalFirst.Sync.CursorCompleteness
import LocalFirst.Sync.NoLoss

/-!
# The order in which a page hands its edits over

* `loadPendingOperations_spec` — what the outbox yields, in the order of the counters.
* `submitted` — the operations that a page has sent on a socket after it has joined there.
* `Overtakes`, `Strands` — the steps after which an operation may reach the server before the insert
  that it depends on.
* `PendingInv` — what is known of the operations that a page has stored, handed over and sent; every
  other step keeps it.
-/

set_option autoImplicit false

namespace LocalFirst

/-! ## Dependencies -/

namespace TextOperation

/-- The element that the operation refers to; an insert at `ROOT` refers to none. -/
def dependency : TextOperation → Option JsString
  | .insert op => if op.afterId = ROOT_ID then none else some op.afterId
  | .delete op => some op.targetId

/-- The element that the operation puts into the document. -/
def element : TextOperation → Option JsString
  | .insert op => some op.opId
  | .delete _ => none

/-- The operation refers to the element of the other one. -/
def DependsOn (op x : TextOperation) : Prop := ∃ id, op.dependency = some id ∧ x.element = some id

theorem element_eq_some {x : TextOperation} {id : JsString} :
    x.element = some id ↔ ∃ op : InsertOperation, x = .insert op ∧ op.opId = id := by
  cases x <;> simp [element]

end TextOperation

/-- What the operation refers to is in the set. -/
abbrev Rests (S : Set TextOperation) (op : TextOperation) : Prop :=
  Supplied TextOperation.dependency TextOperation.element S op

/-- Each operation refers to one of the base or to one before it. -/
abbrev RestsInOrder (base : Set TextOperation) (ops : List TextOperation) : Prop :=
  ClosedOver TextOperation.dependency TextOperation.element base ops

theorem rests_iff {S : Set TextOperation} {op : TextOperation} :
    Rests S op ↔ op.dependency = none ∨ ∃ x ∈ S, op.DependsOn x := by
  unfold Rests Supplied TextOperation.DependsOn
  cases op.dependency with
  | none => simp
  | some id => simp [eq_comm]

/-! ## The outbox -/

namespace Database

variable {db db' : Database} {d : JsString}

/-- The rows of the operations table are stored under the ids of their operations. -/
def Keyed (db : Database) : Prop :=
  ∀ k row, db.operations.get? k = some row → row.operation.opId = k

theorem mem_resolveMarkers : ∀ {markers : List OutboxRecord} {ops : List TextOperation},
    db.resolveMarkers d markers = .ok ops → ∀ op, op ∈ ops ↔ ∃ marker ∈ markers,
      marker.documentId = d ∧ ∃ row, db.operations.get? marker.opId = some row ∧
        row.documentId = d ∧ row.operation = op
  | [], ops, h, op => by
    cases h
    simp
  | marker :: markers, ops, h, op => by
    unfold resolveMarkers at h
    split at h
    · cases h
    · rename_i row hrow
      split at h
      · cases h
      · rename_i hdocument
        rw [not_or, not_not, not_not] at hdocument
        obtain ⟨rest, hrest, rfl⟩ := exists_ok_of_map h
        rw [List.mem_cons, mem_resolveMarkers hrest, List.exists_mem_cons_iff]
        refine or_congr_left ⟨fun heq => ⟨hdocument.2, row, hrow, hdocument.1, heq.symm⟩, ?_⟩
        rintro ⟨-, row', hrow', -, heq⟩
        cases hrow.symm.trans hrow'
        exact heq.symm

theorem length_resolveMarkers : ∀ {markers : List OutboxRecord} {ops : List TextOperation},
    db.resolveMarkers d markers = .ok ops → ops.length = markers.length
  | [], ops, h => by
    cases h
    rfl
  | marker :: markers, ops, h => by
    unfold resolveMarkers at h
    split at h
    · cases h
    · split at h
      · cases h
      · obtain ⟨rest, hrest, rfl⟩ := exists_ok_of_map h
        rw [List.length_cons, List.length_cons, length_resolveMarkers hrest]

/-- `countPendingOperations` counts what `loadPendingOperations` yields. -/
theorem length_loadPendingOperations {pending : List TextOperation}
    (h : db.loadPendingOperations d = .ok pending) :
    pending.length = db.countPendingOperations d := by
  obtain ⟨ops, hops, rfl⟩ := exists_ok_of_map h
  rw [(sortBy_perm _ ops).length_eq, length_resolveMarkers hops]
  rfl

/-- **What `loadPendingOperations` yields**: the operations in the outbox, in the order of their
counters. -/
theorem loadPendingOperations_spec (hkeyed : db.Keyed) {pending : List TextOperation}
    (h : db.loadPendingOperations d = .ok pending) :
    (∀ op, op ∈ pending ↔ db.InOutbox d op) ∧
      pending.Pairwise fun a b => a.counter ≤ b.counter := by
  obtain ⟨ops, hops, rfl⟩ := exists_ok_of_map h
  have hcompares : ComparesKey (fun left right : TextOperation => left.counter - right.counter)
      TextOperation.counter := ⟨fun a b => by omega⟩
  refine ⟨fun op => ?_, hcompares.sortBy_pairwise ops⟩
  rw [mem_sortBy, mem_resolveMarkers hops]
  constructor
  · rintro ⟨marker, hmarker, hdocument, row, hrow, hd, rfl⟩
    have hget := Table.mem_toList.1 (List.mem_filter.1 hmarker).1
    rw [← hkeyed _ row hrow] at hget hrow
    exact ⟨⟨marker, hget, hdocument⟩, row, hrow, hd, rfl⟩
  · rintro ⟨⟨marker, hget, hdocument⟩, row, hrow, hd, rfl⟩
    have hkey : marker.opId = row.operation.opId := Table.key_of_get? hget
    rw [← hkey] at hget hrow
    refine ⟨marker, List.mem_filter.2 ⟨Table.mem_toList.2 hget, ?_⟩, hdocument, row, hrow, hd, rfl⟩
    simpa using hdocument

theorem mem_documentOps {op : TextOperation} : op ∈ db.documentOps d ↔
    (∃ b, db.loadServerBaseline d = some b ∧ op ∈ TextReplica.snapshotOps b.snapshot) ∨
      op ∈ db.storedOps d := by
  unfold documentOps
  cases db.loadServerBaseline d with
  | none => simp
  | some b => simp

/-- The operation was made in this database: it is stored, under the identity of its client. -/
structure Own (db : Database) (d : JsString) (op : TextOperation) : Prop where
  valid : ValidOperation op
  stored : ∃ row, db.operations.get? op.opId = some row ∧ row.documentId = d ∧ row.operation = op
  client : ∃ m, db.clientMeta = some m ∧ op.clientId = m.clientId ∧ op.counter < m.nextCounter

/-- The identity of the client stays, and its counters are used up. -/
def KeepsClient (db db' : Database) : Prop :=
  ∀ m, db.clientMeta = some m → ∃ m', db'.clientMeta = some m' ∧ m'.clientId = m.clientId ∧
    m.nextCounter ≤ m'.nextCounter

theorem Own.kept {op : TextOperation} (h : db.Own d op) (hclient : db.KeepsClient db')
    (hops : ∀ k row, db.operations.get? k = some row → db'.operations.get? k = some row) :
    db'.Own d op := by
  obtain ⟨hvalid, ⟨row, hrow, hrest⟩, m, hm, hid, hlt⟩ := h
  obtain ⟨m', hm', hid', hle⟩ := hclient m hm
  exact ⟨hvalid, ⟨row, hops _ row hrow, hrest⟩, m', hm', hid.trans hid'.symm, by omega⟩

/-- Two operations of one database under one id are equal. -/
theorem Own.unique {op op' : TextOperation} (h : db.Own d op) (h' : db.Own d op')
    (hid : op.opId = op'.opId) : op = op' := by
  obtain ⟨-, ⟨row, hrow, -, rfl⟩, -⟩ := h
  obtain ⟨-, ⟨row', hrow', -, rfl⟩, -⟩ := h'
  rw [hid, hrow'] at hrow
  cases hrow
  rfl

end Database

/-! ## The replica of a controller -/

namespace LocalDocumentController

open TextReplica

variable {segmentGraphemes : JsString → List JsString} {c : LocalDocumentController}
  {db db' : Database} {env : Surroundings}

/-- The replica knows nothing but what the tables stand for. -/
structure Backed (c : LocalDocumentController) (db : Database) : Prop where
  inv : TextReplica.Inv c.replica
  ops : c.replica.ops ⊆ db.documentOps c.documentId

/-- Operations that have been stored are applied; the replica may throw at one of them. -/
theorem Backed.applyAll (h : Backed c db) {ops : List TextOperation}
    (hsub : db.documentOps c.documentId ⊆ db'.documentOps c.documentId)
    (hops : ∀ op ∈ ops, op ∈ db'.documentOps c.documentId) :
    Backed (c.withReplica (c.replica.applyAll ops).1) db' := by
  refine ⟨(applyAll_spec ops h.inv).1, fun op hop => ?_⟩
  rcases applyAll_adds h.inv ops hop with hop | hop
  · exact hsub (h.ops hop)
  · exact hops op hop

theorem Backed.finish (h : Backed c db) (env : Surroundings) :
    Backed (c.finish db env).1 (c.finish db env).2.1 := by
  obtain ⟨hreplica, hdocument, -, hdb⟩ := finish_spec c db env
  constructor
  · rw [hreplica]
    exact h.inv
  · rw [hreplica, hdocument, hdb.keeps.documentOps]
    exact h.ops

theorem replaceTextNow_backed (h : Backed c db) (nextText : JsString) :
    Backed (c.replaceTextNow segmentGraphemes db env nextText).1
      (c.replaceTextNow segmentGraphemes db env nextText).2.1 := by
  unfold replaceTextNow
  split
  · exact h
  · split
    · exact h
    · split
      · exact h
      · rename_i ops db' hp
        have happlied : Backed (c.withReplica (c.replica.applyAll ops).1) db' := by
          obtain ⟨-, ⟨rfl, rfl⟩ | ⟨-, hedited⟩⟩ := Database.persistLocalTextEdit_spec hp
          · exact h
          · have hbase : db'.loadServerBaseline c.documentId = db.loadServerBaseline c.documentId := by
              unfold Database.loadServerBaseline
              rw [hedited.serverBaselines]
            have hdoc := Database.documentOps_of_stored hbase
              (Database.storedOps_of_added hedited.operations)
            rw [Set.ext_iff] at hdoc
            exact h.applyAll (fun op hop => (hdoc op).2 (Or.inl hop))
              fun op hop => (hdoc op).2 (Or.inr hop)
        split
        all_goals
          rename_i heq
          rw [heq] at happlied
        · exact happlied
        · exact happlied.finish env

theorem runDelivery_backed (h : Backed c db) (dl : Delivery) :
    Backed (Page.runDelivery c db env dl).1 (Page.runDelivery c db env dl).2.1 := by
  unfold Page.runDelivery
  split
  · rename_i bootstrap hb
    unfold installServerSnapshotNow
    split
    · exact h
    · rename_i replica db' hp
      obtain ⟨hbuilt, hin⟩ := Database.installServerBaseline_spec hp
      obtain ⟨-, -, -, restored, hr, ha⟩ := Database.bootstrapReplica_spec hbuilt
      obtain ⟨hinv, hops, -⟩ := TextReplica.fromSnapshot_inv hr
      obtain ⟨hinv', -, hops'⟩ := applyAll_spec (dl.items.map (·.operation)) hinv
      rw [ha] at hinv' hops'
      refine ⟨hinv', ?_⟩
      show replica.ops ⊆ db'.documentOps c.documentId
      rw [hops' rfl, hops, hin.documentOps]
  · unfold applyServerOperationsNow
    split
    · exact h
    · rename_i db' hp
      obtain ⟨hok, hin⟩ := Database.persistServerOperations_spec.1 db' hp
      have happlied : Backed
          (c.withReplica (c.replica.applyAll (dl.items.map (·.operation))).1) db' := by
        have hbase : db'.loadServerBaseline c.documentId = db.loadServerBaseline c.documentId := by
          unfold Database.loadServerBaseline
          rw [hin.serverBaselines]
        have hdoc := Database.documentOps_of_stored hbase (hin.storedOps hok)
        rw [Set.ext_iff] at hdoc
        exact h.applyAll (fun op hop => (hdoc op).2 (Or.inl hop))
          fun op hop => (hdoc op).2 (Or.inr hop)
      split
      all_goals
        rename_i heq
        rw [heq] at happlied
      · exact happlied
      · exact happlied.finish env

end LocalDocumentController

/-! ## The frames of a socket -/

/-- A join is among the frames. -/
def Joined (frames : List ClientMessage) : Prop := ∃ message, .join message ∈ frames

/-- The operations of a document in the frames that the server can read. -/
def operationsOf (d : JsString) (frames : List ClientMessage) : List TextOperation :=
  frames.filterMap fun
    | .join _ => none
    | .submitOperation message =>
      if message.documentId = d ∧ textOperationSchema message.operation = true then
        some message.operation
      else none

/-- The operations of a document in the frames after the first join. -/
def submitted (d : JsString) : List ClientMessage → List TextOperation
  | [] => []
  | .join _ :: frames => operationsOf d frames
  | .submitOperation _ :: frames => submitted d frames

section

variable {d : JsString} {frames frames' : List ClientMessage} {op : TextOperation}

theorem operationsOf_append :
    operationsOf d (frames ++ frames') = operationsOf d frames ++ operationsOf d frames' :=
  List.filterMap_append

theorem mem_operationsOf : op ∈ operationsOf d frames ↔
    .submitOperation ⟨d, op⟩ ∈ frames ∧ textOperationSchema op = true := by
  unfold operationsOf
  rw [List.mem_filterMap]
  constructor
  · rintro ⟨message, hmessage, heq⟩
    cases message with
    | join message => cases heq
    | submitOperation message =>
      simp only [Option.ite_none_right_eq_some, Option.some.injEq] at heq
      obtain ⟨⟨rfl, hschema⟩, rfl⟩ := heq
      exact ⟨hmessage, hschema⟩
  · rintro ⟨hmessage, hschema⟩
    exact ⟨_, hmessage, by simp [hschema]⟩

theorem submitted_append_joined : ∀ {frames : List ClientMessage}, Joined frames →
    submitted d (frames ++ frames') = submitted d frames ++ operationsOf d frames'
  | [], ⟨message, h⟩ => by cases h
  | .join _ :: _, _ => operationsOf_append
  | .submitOperation _ :: frames, ⟨message, h⟩ =>
    @submitted_append_joined frames ⟨message, by simpa using h⟩

theorem submitted_append_new : ∀ {frames : List ClientMessage}, ¬ Joined frames →
    submitted d (frames ++ frames') = submitted d frames'
  | [], _ => rfl
  | .join message :: _, h => absurd ⟨message, List.mem_cons_self⟩ h
  | .submitOperation _ :: frames, h =>
    @submitted_append_new frames fun ⟨message, hm⟩ => h ⟨message, List.mem_cons_of_mem _ hm⟩

theorem submitted_of_new (h : ¬ Joined frames) : submitted d frames = [] := by
  have hnew := @submitted_append_new d [] frames h
  rwa [List.append_nil] at hnew

theorem mem_submitted : ∀ {frames : List ClientMessage}, op ∈ submitted d frames →
    .submitOperation ⟨d, op⟩ ∈ frames ∧ textOperationSchema op = true
  | [], h => by cases h
  | .join _ :: _, h =>
    (mem_operationsOf.1 h).imp_left (List.mem_cons_of_mem _)
  | .submitOperation _ :: frames, h =>
    (@mem_submitted frames h).imp_left (List.mem_cons_of_mem _)

/-- The frames that submit operations of one document. -/
theorem operationsOf_submits {documentId : JsString} (ops : List TextOperation) :
    operationsOf d (ops.map fun op => .submitOperation ⟨documentId, op⟩) =
      if documentId = d then ops.filter (textOperationSchema ·) else [] := by
  unfold operationsOf
  rw [List.filterMap_map]
  split
  · rename_i hd
    rw [← List.filterMap_eq_filter]
    refine List.filterMap_congr fun op _ => ?_
    simp [hd, Option.guard]
  · rename_i hd
    rw [List.filterMap_eq_nil_iff]
    intro op _
    simp [hd]

end

/-! ## The steps that lose the order -/

namespace Page

variable {segmentGraphemes : JsString → List JsString} {page page' : Page} {e : PageEvent}

/-- The operations that are handed to the sync client overtake the outbox: the client has caught up
on an open socket on which it has joined, and one of them depends on an insert that waits in the
outbox, is not in the log, has not been sent there since the join, and does not come before it. -/
def Overtakes (logged : JsString → Set TextOperation) (page : Page) : Prop :=
  ∃ k batch rest before op after x, page.submits = batch :: rest ∧
    page.sync.catchUpComplete = true ∧ page.sync.socket = some k ∧
    page.sync.readyState k = .opened ∧ Joined (page.sentOn k) ∧ batch = before ++ op :: after ∧
    textOperationSchema op = true ∧ op.DependsOn x ∧ page.db.InOutbox page.sync.documentId x ∧
    x ∉ logged page.sync.documentId ∧ x ∉ submitted page.sync.documentId (page.sentOn k) ∧ x ∉ before

/-- The event commits an operation that the schema of the server admits, and that depends on an
insert, in the outbox or of the same edit, that the schema refuses. -/
def Strands (segmentGraphemes : JsString → List JsString) (page : Page) (e : PageEvent) : Prop :=
  ∃ d op x, (d, op) ∈ page.commits segmentGraphemes e ∧ textOperationSchema op = true ∧
    op.DependsOn x ∧ (page.db.InOutbox d x ∨ (d, x) ∈ page.commits segmentGraphemes e) ∧
    textOperationSchema x = false

/-- What a page has stored, handed over and sent, given what is in the log. -/
structure PendingInv (logged : JsString → Set TextOperation) (page : Page) : Prop where
  keyed : page.db.Keyed
  marked : page.db.Marked
  own : ∀ d op, page.db.InOutbox d op → page.db.Own d op
  outbox : ∀ d op, page.db.InOutbox d op → textOperationSchema op = true →
    Rests (logged d ∪ {x | page.db.InOutbox d x ∧ textOperationSchema x = true ∧
      x.counter < op.counter}) op
  known : ∀ d, page.db.documentOps d ⊆ logged d ∪ {x | page.db.InOutbox d x}
  replica : ∀ c, page.controller = some c → c.Backed page.db
  submits : ∀ batch ∈ page.submits, ∀ op ∈ batch, page.db.Own page.sync.documentId op
  pending : ∀ handler pending, page.sync.handling = some handler →
    handler.stage = .flushLoaded (.ok pending) →
    (∀ op ∈ pending, page.db.Own page.sync.documentId op) ∧
      RestsInOrder (logged page.sync.documentId) (pending.filter (textOperationSchema ·))
  sent : ∀ k d op, (k, .submitOperation ⟨d, op⟩) ∈ page.sync.sent → page.db.Own d op
  frames : ∀ k d, RestsInOrder (logged d) (submitted d (page.sentOn k))

theorem PendingInv.start (logged : JsString → Set TextOperation) : PendingInv logged Page.start where
  keyed k row hk := by cases hk
  marked k marker hk := by cases hk
  own d op h := by
    obtain ⟨⟨marker, hk, -⟩, -⟩ := h
    cases hk
  outbox d op h := by
    obtain ⟨⟨marker, hk, -⟩, -⟩ := h
    cases hk
  known d op h := by
    obtain ⟨k, row, hk, -⟩ := h
    cases hk
  replica c hc := by cases hc
  submits batch h := by cases h
  pending handler pending h := by cases h
  sent k d op h := by cases h
  frames k d := closedOver_nil

/-- The log may grow. -/
theorem PendingInv.mono {logged logged' : JsString → Set TextOperation} (h : PendingInv logged page)
    (hsub : ∀ d, logged d ⊆ logged' d) : PendingInv logged' page where
  keyed := h.keyed
  marked := h.marked
  own := h.own
  outbox d op hop hschema :=
    (h.outbox d op hop hschema).mono (Set.union_subset_union_left _ (hsub d))
  known d := (h.known d).trans (Set.union_subset_union_left _ (hsub d))
  replica := h.replica
  submits := h.submits
  pending handler pending hh hstage :=
    (h.pending handler pending hh hstage).imp_right fun hrests => hrests.mono (hsub _)
  sent := h.sent
  frames k d := (h.frames k d).mono (hsub d)

/-! ## What an event of a page does -/

theorem Stores.keepsClient (h : Stores segmentGraphemes page page' e) :
    page.db.KeepsClient page'.db := by
  intro m hm
  cases h with
  | kept hkeeps hmeta =>
    rcases hmeta with heq | ⟨options, env, displayName, -, heq⟩
    · exact ⟨m, heq.trans hm, rfl, le_refl _⟩
    · exact ⟨m, by rw [heq, hm]; rfl, rfl, le_refl _⟩
  | edited env nextText c elements edit ops db he hc hvisible hedit hp hdb =>
    rw [hdb.clientMeta]
    obtain ⟨-, ⟨-, rfl⟩ | ⟨-, hedited⟩⟩ := Database.persistLocalTextEdit_spec hp
    · exact ⟨m, hm, rfl, le_refl _⟩
    · obtain ⟨m', identity, hm', hcreated, hdb'⟩ := hedited.clientMeta
      cases hm.symm.trans hm'
      exact ⟨_, hdb', rfl, hcreated.counter_mono⟩
  | delivered env c socket message d he hc hh hd hdelivers =>
    rcases hdelivers.spec with ⟨-, -, committed, -, hin, hdb⟩ | ⟨bootstrap, -, hin⟩
    · obtain ⟨m', hm', hdb'⟩ := hin.clientMeta
      cases hm.symm.trans hm'
      exact ⟨_, hdb.clientMeta.trans hdb', rfl, le_refl _⟩
    · obtain ⟨m', hm', hdb'⟩ := hin.clientMeta
      cases hm.symm.trans hm'
      exact ⟨_, hdb', rfl, le_refl _⟩

/-- The identity of the client was there before, or the page has been opened with it. -/
theorem Stores.clientId (h : Stores segmentGraphemes page page' e) {m' : ClientMetaRecord}
    (hm' : page'.db.clientMeta = some m') :
    (∃ m, page.db.clientMeta = some m ∧ m.clientId = m'.clientId) ∨
      ∃ options env displayName, e = .opens options env displayName ∧
        m'.clientId = env.clientIdFactory := by
  cases hm : page.db.clientMeta with
  | some m =>
    obtain ⟨m'', hm'', hid, -⟩ := h.keepsClient m hm
    cases hm'.symm.trans hm''
    exact Or.inl ⟨m, rfl, hid.symm⟩
  | none =>
    cases h with
    | kept hkeeps hmeta =>
      rcases hmeta with heq | ⟨options, env, displayName, he, heq⟩
      · rw [heq, hm] at hm'
        cases hm'
      · rw [heq, hm] at hm'
        cases hm'
        exact Or.inr ⟨options, env, displayName, he, rfl⟩
    | edited env nextText c elements edit ops db he hc hvisible hedit hp hdb =>
      rw [hdb.clientMeta] at hm'
      obtain ⟨-, ⟨-, rfl⟩ | ⟨-, hedited⟩⟩ := Database.persistLocalTextEdit_spec hp
      · rw [hm] at hm'
        cases hm'
      · obtain ⟨m, identity, hm'', -⟩ := hedited.clientMeta
        rw [hm] at hm''
        cases hm''
    | delivered env c socket message d he hc hh hd hdelivers =>
      rcases hdelivers.spec with ⟨-, -, committed, -, hin, -⟩ | ⟨bootstrap, -, hin⟩
      all_goals
        obtain ⟨m, hm'', -⟩ := hin.clientMeta
        rw [hm] at hm''
        cases hm''

theorem Stores.own_kept (h : Stores segmentGraphemes page page' e) {d : JsString}
    {op : TextOperation} (hop : page.db.Own d op) : page'.db.Own d op :=
  hop.kept h.keepsClient fun _ _ hk => h.operations_kept hk

theorem Stores.keyed (h : Stores segmentGraphemes page page' e) (hkeyed : page.db.Keyed) :
    page'.db.Keyed := by
  intro k row hk
  cases h with
  | kept hkeeps hmeta => rw [hkeeps.operations] at hk; exact hkeyed k row hk
  | edited env nextText c elements edit ops db he hc hvisible hedit hp hdb =>
    rw [hdb.keeps.operations] at hk
    obtain ⟨-, ⟨-, rfl⟩ | ⟨-, hedited⟩⟩ := Database.persistLocalTextEdit_spec hp
    · exact hkeyed k row hk
    · rcases (hedited.operations k row).1 hk with ⟨op, -, hid, rfl⟩ | hk
      · exact hid
      · exact hkeyed k row hk
  | delivered env c socket message d he hc hh hd hdelivers =>
    rcases hdelivers.spec with ⟨-, -, committed, -, hin, hdb⟩ | ⟨bootstrap, -, hin⟩
    · rw [hdb.keeps.operations] at hk
      rcases (hin.operations k row).1 hk with hk | ⟨-, op, -, hid, rfl⟩
      · exact hkeyed k row hk
      · exact hid
    · rcases (hin.operations k row).1 hk with ⟨op, -, hid, rfl⟩ | hk
      · exact hid
      · exact hkeyed k row hk

/-- What is in the outbox was there before, or has just been committed. -/
theorem Stores.inOutbox (h : Stores segmentGraphemes page page' e) (hmarked : page.db.Marked)
    {d : JsString} {op : TextOperation} (hop : page'.db.InOutbox d op) :
    page.db.InOutbox d op ∨ (d, op) ∈ page.commits segmentGraphemes e := by
  cases h with
  | kept hkeeps hmeta => exact Or.inl (hkeeps.inOutbox.1 hop)
  | edited env nextText c elements edit ops db he hc hvisible hedit hp hdb =>
    rw [hdb.keeps.inOutbox] at hop
    rw [he, commits_eq hc hvisible hedit hp]
    obtain ⟨-, ⟨-, rfl⟩ | ⟨-, hedited⟩⟩ := Database.persistLocalTextEdit_spec hp
    · exact Or.inl hop
    · obtain ⟨⟨marker, hmarker, hmd⟩, row, hrow, hrd, rfl⟩ := hop
      rcases (hedited.operations _ row).1 hrow with ⟨op, hop, -, heq⟩ | hrow
      · refine Or.inr (List.mem_map.2 ⟨op, hop, ?_⟩)
        rw [← hrd, heq]
      · -- the row was there before, so its key is not a fresh one
        refine Or.inl ⟨⟨marker, ?_, hmd⟩, row, hrow, hrd, rfl⟩
        rcases (hedited.outbox _ marker).1 hmarker with ⟨op, hop, hid, -⟩ | hmarker
        · rw [← hid, (hedited.fresh op hop).1] at hrow
          cases hrow
        · exact hmarker
  | delivered env c socket message dl he hc hh hd hdelivers =>
    obtain ⟨⟨marker, hmarker, hmd⟩, row, hrow, hrd, rfl⟩ := hop
    refine Or.inl ?_
    rcases hdelivers.spec with ⟨-, -, committed, -, hin, hdb⟩ | ⟨bootstrap, -, hin⟩
    · rw [hdb.keeps.outbox, hin.outbox] at hmarker
      rw [hdb.keeps.operations] at hrow
      split at hmarker
      · cases hmarker
      · obtain ⟨old, hold, -⟩ := hmarked _ marker hmarker
        rcases (hin.operations _ row).1 hrow with hrow | ⟨hnone, -⟩
        · exact ⟨⟨marker, hmarker, hmd⟩, row, hrow, hrd, rfl⟩
        · rw [hnone] at hold
          cases hold
    · rw [hin.outbox] at hmarker
      obtain ⟨old, hold, -⟩ := hmarked _ marker hmarker
      rcases (hin.operations _ row).1 hrow with ⟨op, hop, hid, -⟩ | hrow
      · obtain ⟨item, hi, rfl⟩ := List.mem_map.1 hop
        rw [← hid, hin.fresh item hi] at hold
        cases hold
      · exact ⟨⟨marker, hmarker, hmd⟩, row, hrow, hrd, rfl⟩

/-- The message whose storing is awaited brings what is in the log. -/
def Brings (logged : JsString → Set TextOperation) (page : Page) : Prop :=
  ∀ k message dl, page.sync.handling = some ⟨k, message, .ingesting⟩ → delivery message = some dl →
    (∀ item ∈ dl.items, item.operation ∈ logged dl.documentId) ∧
      ∀ b, dl.bootstrap = some b → TextReplica.snapshotOps b.snapshot ⊆ logged dl.documentId

/-- The document of a delivery is that of the controller. -/
theorem PageInv.delivery_document (h : PageInv page) {c : LocalDocumentController} {k : SocketId}
    {message : ServerMessage} {stage : HandlerStage} {dl : Delivery} (hc : page.controller = some c)
    (hh : page.sync.handling = some ⟨k, message, stage⟩) (hd : delivery message = some dl) :
    dl.documentId = c.documentId := by
  obtain ⟨dl', hd', hdocument⟩ := h.handling _ hh
  obtain rfl : dl = dl' := Option.some.inj (hd.symm.trans hd')
  exact hdocument.trans (h.wired c hc).1

variable {logged : JsString → Set TextOperation}

/-- What leaves the outbox is in the log. -/
theorem Stores.released (h : Stores segmentGraphemes page page' e) (hpage : PageInv page)
    (hbrings : Brings logged page) (hmarked : page.db.Marked) {d : JsString} {op : TextOperation}
    (hop : page.db.InOutbox d op) : op ∈ logged d ∨ page'.db.InOutbox d op := by
  obtain ⟨⟨marker, hmarker, hmd⟩, row, hrow, hrd, rfl⟩ := hop
  rcases h.acknowledged hmarked hmarker with
    hmarker' | ⟨received, item, row', ⟨env, c, dl, db, -, hc, hh, hd, hi, -⟩, hid, hrow', heq, hdoc⟩
  · exact Or.inr ⟨⟨marker, hmarker', hmd⟩, row, h.operations_kept hrow, hrd, rfl⟩
  · have hlogged := (hbrings _ _ dl hh hd).1 item hi
    rw [hpage.delivery_document hc hh hd, ← hdoc c hc, hmd, ← heq] at hlogged
    cases hrow.symm.trans hrow'
    exact Or.inl hlogged

/-- What the tables stand for was there before, has just been committed, or is in the log. -/
theorem Stores.documentOps_new (h : Stores segmentGraphemes page page' e) (hpage : PageInv page)
    (hbrings : Brings logged page) {d : JsString} {op : TextOperation}
    (hop : op ∈ page'.db.documentOps d) :
    op ∈ page.db.documentOps d ∨ (d, op) ∈ page.commits segmentGraphemes e ∨ op ∈ logged d := by
  cases h with
  | kept hkeeps hmeta =>
    rw [hkeeps.documentOps] at hop
    exact Or.inl hop
  | edited env nextText c elements edit ops db he hc hvisible hedit hp hdb =>
    rw [hdb.keeps.documentOps] at hop
    rw [he, commits_eq hc hvisible hedit hp]
    obtain ⟨-, ⟨-, rfl⟩ | ⟨-, hedited⟩⟩ := Database.persistLocalTextEdit_spec hp
    · exact Or.inl hop
    · rw [Database.mem_documentOps] at hop ⊢
      rcases hop with ⟨b, hb, hop⟩ | ⟨k, row, hk, hrd, rfl⟩
      · unfold Database.loadServerBaseline at hb
        rw [hedited.serverBaselines] at hb
        exact Or.inl (Or.inl ⟨b, hb, hop⟩)
      · rcases (hedited.operations k row).1 hk with ⟨op, hop, -, rfl⟩ | hk
        · exact Or.inr (Or.inl (List.mem_map.2 ⟨op, hop, by rw [← hrd]⟩))
        · exact Or.inl (Or.inr ⟨k, row, hk, hrd, rfl⟩)
  | delivered env c socket message dl he hc hh hd hdelivers =>
    obtain ⟨hitems, hbaseline⟩ := hbrings socket message dl hh hd
    rw [hpage.delivery_document hc hh hd] at hitems hbaseline
    have hnew : ∀ op ∈ dl.items.map (·.operation), op ∈ logged c.documentId := by
      intro op hop
      obtain ⟨item, hi, rfl⟩ := List.mem_map.1 hop
      exact hitems item hi
    rcases hdelivers.spec with ⟨-, -, committed, -, hin, hdb⟩ | ⟨bootstrap, hb, hin⟩
    · rw [hdb.keeps.documentOps] at hop
      rw [Database.mem_documentOps] at hop ⊢
      rcases hop with ⟨b, hb, hop⟩ | ⟨k, row, hk, hrd, rfl⟩
      · unfold Database.loadServerBaseline at hb
        rw [hin.serverBaselines] at hb
        exact Or.inl (Or.inl ⟨b, hb, hop⟩)
      · rcases (hin.operations k row).1 hk with hk | ⟨-, op, hop, -, rfl⟩
        · exact Or.inl (Or.inr ⟨k, row, hk, hrd, rfl⟩)
        · exact Or.inr (Or.inr (hrd ▸ hnew op hop))
    · rw [Database.mem_documentOps] at hop ⊢
      rcases hop with ⟨b, hbase, hop⟩ | ⟨k, row, hk, hrd, rfl⟩
      · unfold Database.loadServerBaseline at hbase
        rw [hin.serverBaselines] at hbase
        split at hbase
        · rename_i hdocument
          cases hbase
          exact Or.inr (Or.inr (hdocument ▸ hbaseline bootstrap hb hop))
        · exact Or.inl (Or.inl ⟨b, hbase, hop⟩)
      · rcases (hin.operations k row).1 hk with ⟨op, hop, -, rfl⟩ | hk
        · exact Or.inr (Or.inr (hrd ▸ hnew op hop))
        · exact Or.inl (Or.inr ⟨k, row, hk, hrd, rfl⟩)

theorem handle_backed (h : ∀ c, page.controller = some c → c.Backed page.db)
    {c : LocalDocumentController} (hc : (page.handle segmentGraphemes e).controller = some c) :
    c.Backed (page.handle segmentGraphemes e).db := by
  have hsame : ∀ {page' : Page}, page'.controller = page.controller → page'.db = page.db →
      page'.controller = some c → c.Backed page'.db := by
    intro page' heq hdb hc
    rw [hdb]
    exact h c (heq.symm.trans hc)
  cases e with
  | opens options env displayName =>
    simp only [handle, opens] at hc ⊢
    split at hc
    · cases hc
    · rename_i c' db hcreate
      cases hc
      obtain ⟨hlive, -⟩ := LocalDocumentController.create_live hcreate
      exact ⟨hlive.inv, hlive.ops.subset⟩
  | edit env nextText =>
    simp only [handle, edit] at hc ⊢
    split at hc
    · exact hsame rfl rfl hc
    · rename_i c' hc'
      have hrun := @LocalDocumentController.replaceTextNow_backed segmentGraphemes _ _ env (h c' hc')
        nextText
      split at hc
      all_goals
        rename_i heq
        rw [heq] at hrun
        cases hc
        exact hrun
  | submit =>
    simp only [handle, submit] at hc ⊢
    split at hc <;> exact hsame rfl rfl hc
  | ingest callback =>
    simp only [handle, ingest] at hc ⊢
    split at hc
    · rename_i c' k message hc' hh
      split at hc
      · exact hsame rfl rfl hc
      · exact hsame rfl rfl hc
      · exact hsame rfl rfl hc
      · rename_i dl env hd
        cases hc
        exact LocalDocumentController.runDelivery_backed (h c' hc') dl
    · exact hsame rfl rfl hc
  | loadPending aborted =>
    simp only [handle, loadPending] at hc ⊢
    split at hc <;> exact hsame rfl rfl hc
  | _ => exact hsame rfl rfl hc

/-! ## What an event commits -/

/-- The operations that wait in the outbox of a document, or have just been committed, that the schema
admits, and that come before a counter. -/
def Preceding (segmentGraphemes : JsString → List JsString) (page : Page) (e : PageEvent)
    (d : JsString) (counter : Int) : Set TextOperation :=
  {x | (page.db.InOutbox d x ∨ (d, x) ∈ page.commits segmentGraphemes e) ∧
    textOperationSchema x = true ∧ x.counter < counter}

/-- What the user sees is in the log or in the outbox. -/
theorem PendingInv.visible (h : PendingInv logged page) {c : LocalDocumentController}
    (hc : page.controller = some c) {elements : List VisibleElement}
    (hv : c.replica.getVisibleElements = .ok elements) {e : VisibleElement} (he : e ∈ elements) :
    ∃ x : TextOperation, x.element = some e.id ∧
      (x ∈ logged c.documentId ∨ page.db.InOutbox c.documentId x) := by
  obtain ⟨hinv, hops⟩ := h.replica c hc
  obtain ⟨op, hop, hid, -⟩ := hinv.visible_insert hv he
  exact ⟨.insert op, congrArg some hid, h.known _ (hops hop)⟩

/-- **What is committed** is made under the next identities, and refers to what is in the log or comes
before it. -/
theorem PendingInv.commits (h : PendingInv logged page)
    (hstrands : ¬ Strands segmentGraphemes page e) {d : JsString} {op : TextOperation}
    (hop : (d, op) ∈ page.commits segmentGraphemes e) :
    (page.handle segmentGraphemes e).db.Own d op ∧ (textOperationSchema op = true →
      Rests (logged d ∪ Preceding segmentGraphemes page e d op.counter) op) := by
  obtain ⟨c, elements, nextText, edit, ops, db, timestamp, createdAt, hc, rfl, hv, hedit, hops,
    hedited, hdb, hcommits⟩ := commits_spec hop
  obtain ⟨m, identity, hm, hcreated, hm'⟩ := hedited.clientMeta
  have hmem : op ∈ ops := by
    rw [hcommits] at hop
    obtain ⟨op', hop', heq⟩ := List.mem_map.1 hop
    cases heq
    exact hop'
  refine ⟨⟨hcreated.valid op hmem, (commits_inOutbox hop).2, _, hdb.clientMeta.trans hm',
    hcreated.client op hmem, (hcreated.counters op hmem).2⟩, fun hschema => ?_⟩
  -- an insert that the schema refuses would strand the operation
  have hprecedes : ∀ {id : JsString} {x : TextOperation}, op.dependency = some id →
      x.element = some id → (page.db.InOutbox c.documentId x ∨
        (c.documentId, x) ∈ page.commits segmentGraphemes e) → x.counter < op.counter →
      Rests (logged c.documentId ∪ Preceding segmentGraphemes page e c.documentId op.counter) op := by
    intro id x hid hx hwaits hlt
    refine rests_iff.2 (Or.inr ⟨x, Or.inr ⟨hwaits, ?_, hlt⟩, id, hid, hx⟩)
    by_contra hrefused
    exact hstrands ⟨_, op, x, hop, hschema, ⟨id, hid, hx⟩, hwaits, Bool.eq_false_iff.2 hrefused⟩
  obtain ⟨-, -, htargets, hanchor⟩ := insertedGraphemes_some hedit
  have hvisible : ∀ {id : JsString}, op.dependency = some id → (∃ e ∈ elements, e.id = id) →
      Rests (logged c.documentId ∪ Preceding segmentGraphemes page e c.documentId op.counter) op := by
    rintro id hid ⟨element, helement, rfl⟩
    obtain ⟨x, hx, hlogged | hwaits⟩ := h.visible hc hv helement
    · exact rests_iff.2 (Or.inr ⟨x, Or.inl hlogged, _, hid, hx⟩)
    · obtain ⟨-, -, m', hmeta, -, hlt⟩ := h.own _ x hwaits
      cases hm.symm.trans hmeta
      have hle := (hcreated.counters op hmem).1
      exact hprecedes hid hx (Or.inl hwaits) (by simp only at hle; omega)
  cases op with
  | insert i =>
    by_cases hroot : i.afterId = ROOT_ID
    · exact rests_iff.2 (Or.inl (if_pos hroot))
    · have hid : (TextOperation.insert i).dependency = some i.afterId := if_neg hroot
      rcases hops.chained i hmem with hstart | ⟨j, hj, hjid, hlt⟩
      · rcases hanchor with hanchor | hanchor
        · exact absurd (hstart.trans hanchor) hroot
        · exact hvisible hid (hstart ▸ hanchor)
      · refine hprecedes (x := .insert j) hid (congrArg some hjid) (Or.inr ?_) hlt
        rw [hcommits]
        exact List.mem_map.2 ⟨_, hj, rfl⟩
  | delete i =>
    exact hvisible rfl (htargets _ ((hops.targets _).1 ⟨i, hmem, rfl⟩))

/-- **What waits in the outbox after an event** was made here, and refers to what is in the log or
comes before it. -/
theorem PendingInv.outbox_handle (h : PendingInv logged page) (hpage : PageInv page)
    (hbrings : Brings logged page) (hstrands : ¬ Strands segmentGraphemes page e) {d : JsString}
    {op : TextOperation} (hop : (page.handle segmentGraphemes e).db.InOutbox d op) :
    (page.handle segmentGraphemes e).db.Own d op ∧ (textOperationSchema op = true →
      Rests (logged d ∪ {x | (page.handle segmentGraphemes e).db.InOutbox d x ∧
        textOperationSchema x = true ∧ x.counter < op.counter}) op) := by
  have hstores := @handle_stores segmentGraphemes page e
  have hkeeps : Preceding segmentGraphemes page e d op.counter ⊆ logged d ∪
      {x | (page.handle segmentGraphemes e).db.InOutbox d x ∧ textOperationSchema x = true ∧
        x.counter < op.counter} := by
    rintro x ⟨hwaits | hnew, hrest⟩
    · exact (hstores.released hpage hbrings h.marked hwaits).imp_right fun hx => ⟨hx, hrest⟩
    · exact Or.inr ⟨commits_inOutbox hnew, hrest⟩
  have hrests : Rests (logged d ∪ Preceding segmentGraphemes page e d op.counter) op →
      Rests (logged d ∪ {x | (page.handle segmentGraphemes e).db.InOutbox d x ∧
        textOperationSchema x = true ∧ x.counter < op.counter}) op :=
    fun hrests => hrests.mono (Set.union_subset Set.subset_union_left hkeeps)
  rcases hstores.inOutbox h.marked hop with hold | hnew
  · refine ⟨hstores.own_kept (h.own d op hold), fun hschema => hrests ?_⟩
    refine (h.outbox d op hold hschema).mono (Set.union_subset_union_right _ ?_)
    exact fun x hx => ⟨Or.inl hx.1, hx.2⟩
  · obtain ⟨hown, hcommitted⟩ := h.commits hstrands hnew
    exact ⟨hown, fun hschema => hrests (hcommitted hschema)⟩

/-! ## What an event hands over -/

/-- The operations that wait to be handed to the sync client waited before, or have just been
committed. -/
theorem handle_batches {batch : List TextOperation}
    (h : batch ∈ (page.handle segmentGraphemes e).submits) :
    isOpen e = false ∧ (batch ∈ page.submits ∨ ∃ c, page.controller = some c ∧
      ∀ op ∈ batch, (c.documentId, op) ∈ page.commits segmentGraphemes e) := by
  cases e with
  | opens options env displayName =>
    simp only [handle, opens] at h
    split at h <;> cases h
  | edit env nextText =>
    refine ⟨rfl, ?_⟩
    simp only [handle, edit] at h
    split at h
    · exact Or.inl h
    · rename_i c hc
      have hstores := @LocalDocumentController.replaceTextNow_stores segmentGraphemes c page.db env
        nextText
      split at h
      · exact Or.inl h
      · rename_i result heq
        rw [heq] at hstores
        rcases List.mem_append.1 h with h | h
        · exact Or.inl h
        · refine Or.inr ⟨c, hc, fun op hop => ?_⟩
          rw [List.mem_singleton.1 h] at hop
          obtain ⟨-, hresult⟩ | ⟨elements, edit, ops, db, hv, hedit, hp, -, hresult⟩ := hstores
          · rw [hresult result rfl] at hop
            cases hop
          · rw [hresult result rfl] at hop
            rw [commits_eq hc hv hedit hp]
            exact List.mem_map.2 ⟨op, hop, rfl⟩
  | submit =>
    refine ⟨rfl, Or.inl ?_⟩
    simp only [handle, submit] at h
    split at h
    · exact h
    · rename_i operations rest hsubmits
      rw [hsubmits]
      exact List.mem_cons_of_mem _ h
  | ingest callback =>
    refine ⟨rfl, Or.inl ?_⟩
    simp only [handle, ingest] at h
    split at h
    · split at h <;> exact h
    · exact h
  | loadPending aborted =>
    refine ⟨rfl, Or.inl ?_⟩
    simp only [handle, loadPending] at h
    split at h <;> exact h
  | _ => exact ⟨rfl, Or.inl h⟩

/-- What a handler is about to flush had been loaded before, or has just been loaded. -/
theorem Moves.flush (h : Moves page page' e) {handler : Handler} {pending : List TextOperation}
    (hh : page'.sync.handling = some handler) (hstage : handler.stage = .flushLoaded (.ok pending)) :
    page'.sync.documentId = page.sync.documentId ∧
      ((∃ old, page.sync.handling = some old ∧ old.stage = .flushLoaded (.ok pending)) ∨
        page.db.loadPendingOperations page.sync.documentId = .ok pending) := by
  have hsame : ∀ {t : DocumentSyncClient.Traffic}, page'.sync.traffic = t →
      t.documentId = page.sync.documentId → t.handling = page.sync.handling →
      page'.sync.documentId = page.sync.documentId ∧
        ((∃ old, page.sync.handling = some old ∧ old.stage = .flushLoaded (.ok pending)) ∨
          page.db.loadPendingOperations page.sync.documentId = .ok pending) := by
    intro t h hd hhandling
    have hold : page'.sync.handling = page.sync.handling :=
      (congrArg DocumentSyncClient.Traffic.handling h).trans hhandling
    exact ⟨(congrArg DocumentSyncClient.Traffic.documentId h).trans hd,
      Or.inl ⟨handler, hold ▸ hh, hstage⟩⟩
  have hother : ∀ {t : DocumentSyncClient.Traffic}, page'.sync.traffic = t →
      (∀ old, t.handling = some old → old.stage ≠ .flushLoaded (.ok pending)) → False := by
    intro t h hne
    have hold : page'.sync.handling = t.handling := congrArg DocumentSyncClient.Traffic.handling h
    exact hne handler (hold ▸ hh) hstage
  cases h with
  | same h => exact hsame h rfl rfl
  | opened c he hc h => exact (hother h fun old hold => by cases hold).elim
  | begins k hk hnew hopen h => exact hsame h rfl rfl
  | reads read joins hread hjoins h => exact hsame h rfl rfl
  | joins k call lastServerSeq capabilities displayName joins hjoins hgone hcall hsocket hseq hk hopen
      h => exact hsame h rfl rfl
  | submits k operations rest he hsubmits hk h => exact hsame h rfl rfl
  | drops k message inbound hh' hinbound h => exact hsame h rfl rfl
  | takes k message inbound d hh' hinbound hd hdocument h =>
    exact (hother h fun old hold => by cases hold; exact nofun).elim
  | settles k message d outcome dropped hh' hd hdropped h =>
    exact (hother h fun old hold => by cases hold; exact nofun).elim
  | loads old stage hh' hstage' hloaded h =>
    have hnew : page'.sync.handling = some { old with stage := stage } :=
      congrArg DocumentSyncClient.Traffic.handling h
    cases hh.symm.trans hnew
    refine ⟨congrArg DocumentSyncClient.Traffic.documentId h, Or.inr ?_⟩
    rcases hloaded with ⟨error, rfl⟩ | ⟨loaded, rfl⟩ | rfl
    · cases hstage
    · cases hstage
    · exact HandlerStage.flushLoaded.inj hstage
  | resumes he h =>
    cases h with
    | same h => exact hsame h rfl rfl
    | ended old hh' hstage' h => exact (hother h fun old hold => by cases hold).elim
    | waits old stage hh' hstage' hwaits h =>
      refine (hother h fun old' hold => ?_).elim
      cases hold
      rcases hwaits with rfl | rfl | rfl <;> exact nofun
    | sends old pending' socket hh' hstage' hsocket hopen h =>
      exact (hother h fun old' hold => by cases hold; exact nofun).elim

/-! ## What an event sends -/

theorem submitOperations_sent (c : DocumentSyncClient) (operations : List TextOperation) :
    (c.submitOperations operations).sent = c.sent ∨ ∃ k, c.catchUpComplete = true ∧
      c.socket = some k ∧ c.readyState k = .opened ∧ (c.submitOperations operations).sent =
        c.sent ++ DocumentSyncClient.submits c.documentId k operations := by
  unfold DocumentSyncClient.submitOperations
  split
  · exact Or.inl rfl
  · split
    · exact Or.inl rfl
    · rename_i hready
      rw [not_or, not_not, not_not] at hready
      rcases (c.setStatus .syncing).sendOperations_traffic operations with h | ⟨k, hk, hopen, h⟩
      · exact Or.inl (congrArg DocumentSyncClient.Traffic.sent h)
      · exact Or.inr ⟨k, hready.1, hk, hopen, congrArg DocumentSyncClient.Traffic.sent h⟩

/-- The frames that an event adds: a join, the outbox that a handler has loaded, or the operations
that are handed to a sync client that has caught up. -/
inductive Adds (page page' : Page) (e : PageEvent) : Prop
  | none (h : page'.sync.sent = page.sync.sent)
  | joins (k : SocketId) (message : JoinMessage)
      (h : page'.sync.sent = page.sync.sent ++ [(k, .join message)])
  | flushes (k : SocketId) (handler : Handler) (pending : List TextOperation)
      (hh : page.sync.handling = some handler) (hstage : handler.stage = .flushLoaded (.ok pending))
      (h : page'.sync.sent =
        page.sync.sent ++ DocumentSyncClient.submits page.sync.documentId k pending)
  | hands (k : SocketId) (batch : List TextOperation) (rest : List (List TextOperation))
      (he : e = .submit) (hsubmits : page.submits = batch :: rest)
      (hcatch : page.sync.catchUpComplete = true) (hk : page.sync.socket = some k)
      (hopen : page.sync.readyState k = .opened) (h : page'.sync.sent =
        page.sync.sent ++ DocumentSyncClient.submits page.sync.documentId k batch)

theorem handle_adds (page : Page) (e : PageEvent) :
    Adds page (page.handle segmentGraphemes e) e := by
  have hnone : ∀ {page' : Page} {t : DocumentSyncClient.Traffic}, page'.sync.traffic = t →
      t.sent = page.sync.sent → Adds page page' e :=
    fun h hs => .none ((congrArg DocumentSyncClient.Traffic.sent h).trans hs)
  cases @handle_moves segmentGraphemes page e with
  | same h => exact hnone h rfl
  | opened c he hc h => exact hnone h rfl
  | begins k hk hnew hopen h => exact hnone h rfl
  | reads read joins hread hjoins h => exact hnone h rfl
  | joins k call lastServerSeq capabilities displayName joins hjoins hgone hcall hsocket hseq hk hopen
      h => exact .joins k _ (congrArg DocumentSyncClient.Traffic.sent h)
  | submits k operations rest he hsubmits hk h =>
    subst he
    simp only [handle, submit, hsubmits]
    rcases submitOperations_sent page.sync operations with h | ⟨k, hcatch, hk, hopen, h⟩
    · exact .none h
    · exact .hands k operations rest rfl hsubmits hcatch hk hopen h
  | drops k message inbound hh hinbound h => exact hnone h rfl
  | takes k message inbound d hh hinbound hd hdocument h => exact hnone h rfl
  | settles k message d outcome dropped hh hd hdropped h => exact hnone h rfl
  | loads handler stage hh hstage hloaded h => exact hnone h rfl
  | resumes he h =>
    cases h with
    | same h => exact hnone h rfl
    | ended handler hh hstage h => exact hnone h rfl
    | waits handler stage hh hstage hwaits h => exact hnone h rfl
    | sends handler pending socket hh hstage hsocket hopen h =>
      exact .flushes socket handler pending hh hstage (congrArg DocumentSyncClient.Traffic.sent h)

/-- What has been sent on a socket stays. -/
theorem handle_sentOn (page : Page) (e : PageEvent) (k : SocketId) :
    ∃ rest, (page.handle segmentGraphemes e).sentOn k = page.sentOn k ++ rest := by
  unfold sentOn
  cases @handle_adds segmentGraphemes page e with
  | none h => exact ⟨[], by rw [h, List.append_nil]⟩
  | joins k' message h => exact ⟨_, by rw [h, List.filterMap_append]⟩
  | flushes k' handler pending hh hstage h => exact ⟨_, by rw [h, List.filterMap_append]⟩
  | hands k' batch rest he hsubmits hcatch hk hopen h => exact ⟨_, by rw [h, List.filterMap_append]⟩

theorem sentOn_append {added : List (SocketId × ClientMessage)}
    (h : page'.sync.sent = page.sync.sent ++ added) (k : SocketId) :
    page'.sentOn k = page.sentOn k ++ added.filterMap fun p => if p.1 = k then some p.2 else none := by
  unfold sentOn
  rw [h, List.filterMap_append]

/-- The frames that an event adds on a socket are in order if the operations are. -/
theorem frames_submits {k j : SocketId} {documentId d : JsString} {operations : List TextOperation}
    (h : page'.sync.sent =
      page.sync.sent ++ DocumentSyncClient.submits documentId k operations)
    (hframes : RestsInOrder (logged d) (submitted d (page.sentOn j)))
    (hrests : k = j → documentId = d → Joined (page.sentOn j) →
      RestsInOrder (logged d ∪ {x | x ∈ submitted d (page.sentOn j)})
        (operations.filter (textOperationSchema ·))) :
    RestsInOrder (logged d) (submitted d (page'.sentOn j)) := by
  rw [sentOn_append h]
  unfold DocumentSyncClient.submits
  rw [List.filterMap_map]
  by_cases hk : k = j
  · have hadded : operations.filterMap ((fun p : SocketId × ClientMessage =>
        if p.1 = j then some p.2 else none) ∘ fun operation =>
          (k, ClientMessage.submitOperation ⟨documentId, operation⟩)) =
        operations.map fun operation => .submitOperation ⟨documentId, operation⟩ := by
      rw [← List.filterMap_eq_map]
      refine List.filterMap_congr fun operation _ => ?_
      simp [hk]
    rw [hadded]
    by_cases hjoined : Joined (page.sentOn j)
    · rw [submitted_append_joined hjoined, operationsOf_submits]
      split
      · rename_i hd
        exact closedOver_append.2 ⟨hframes, hrests hk hd hjoined⟩
      · rw [List.append_nil]
        exact hframes
    · have hnew : ¬ Joined (page.sentOn j ++
          operations.map fun operation => .submitOperation ⟨documentId, operation⟩) := by
        rintro ⟨message, hm⟩
        rcases List.mem_append.1 hm with hm | hm
        · exact hjoined ⟨message, hm⟩
        · obtain ⟨operation, -, heq⟩ := List.mem_map.1 hm
          cases heq
      rw [submitted_of_new hnew]
      exact closedOver_nil
  · have hadded : operations.filterMap ((fun p : SocketId × ClientMessage =>
        if p.1 = j then some p.2 else none) ∘ fun operation =>
          (k, ClientMessage.submitOperation ⟨documentId, operation⟩)) = [] := by
      rw [List.filterMap_eq_nil_iff]
      intro operation _
      simp [hk]
    rw [hadded, List.append_nil]
    exact hframes

/-- **What is handed over in order**: an operation that does not overtake the outbox refers to what is
in the log, has been sent, or comes before it. -/
theorem PendingInv.hands (h : PendingInv logged page) (hclosed : ∀ d, ∀ op ∈ logged d,
      Rests (logged d) op) (hovertakes : ¬ Overtakes logged page) {k : SocketId}
    {batch : List TextOperation} {rest : List (List TextOperation)}
    (hsubmits : page.submits = batch :: rest) (hcatch : page.sync.catchUpComplete = true)
    (hk : page.sync.socket = some k) (hopen : page.sync.readyState k = .opened)
    (hjoined : Joined (page.sentOn k)) :
    RestsInOrder (logged page.sync.documentId ∪
        {x | x ∈ submitted page.sync.documentId (page.sentOn k)})
      (batch.filter (textOperationSchema ·)) := by
  refine ClosedOver.filter fun before op after heq hschema => ?_
  have hown := h.submits batch (by rw [hsubmits]; exact List.mem_cons_self) op (by rw [heq]; simp)
  obtain ⟨row, hrow, hd, ho⟩ := hown.stored
  rcases h.known page.sync.documentId
    (Database.mem_documentOps.2 (Or.inr ⟨_, row, hrow, hd, ho⟩)) with hlogged | hwaits
  · exact (hclosed _ op hlogged).mono fun x hx => Or.inl (Or.inl hx)
  · rcases rests_iff.1 (h.outbox _ op hwaits hschema) with hnone | ⟨x, hx, hdepends⟩
    · exact rests_iff.2 (Or.inl hnone)
    · refine rests_iff.2 (Or.inr ⟨x, ?_, hdepends⟩)
      rcases hx with hx | ⟨hx, hadmitted, -⟩
      · exact Or.inl (Or.inl hx)
      · by_contra hmissing
        simp only [Set.mem_union, Set.mem_ofPred_eq, not_or, not_and] at hmissing
        exact hovertakes ⟨k, batch, rest, before, op, after, x, hsubmits, hcatch, hk, hopen, hjoined,
          heq, hschema, hdepends, hx, hmissing.1.1, hmissing.1.2,
          fun hbefore => hmissing.2 hbefore hadmitted⟩

/-- What has been loaded of the outbox is the page's own, and in order. -/
theorem PendingInv.pending_handle (h : PendingInv logged page) {handler : Handler}
    {pending : List TextOperation}
    (hh : (page.handle segmentGraphemes e).sync.handling = some handler)
    (hstage : handler.stage = .flushLoaded (.ok pending)) :
    (∀ op ∈ pending, (page.handle segmentGraphemes e).db.Own
        (page.handle segmentGraphemes e).sync.documentId op) ∧
      RestsInOrder (logged (page.handle segmentGraphemes e).sync.documentId)
        (pending.filter (textOperationSchema ·)) := by
  have hstores := @handle_stores segmentGraphemes page e
  obtain ⟨hdocument, ⟨old, hold, hstage'⟩ | hloaded⟩ :=
    (@handle_moves segmentGraphemes page e).flush hh hstage
  · rw [hdocument]
    exact (h.pending old pending hold hstage').imp_left
      fun hown op hop => hstores.own_kept (hown op hop)
  · obtain ⟨hmem, hsorted⟩ := Database.loadPendingOperations_spec h.keyed hloaded
    rw [hdocument]
    refine ⟨fun op hop => hstores.own_kept (h.own _ op ((hmem op).1 hop)), ?_⟩
    refine ClosedOver.of_sorted (hsorted.filter _) fun op hop => ?_
    obtain ⟨hop, hschema⟩ := List.mem_filter.1 hop
    refine (h.outbox _ op ((hmem op).1 hop) hschema).mono (Set.union_subset_union_right _ ?_)
    rintro x ⟨hx, hadmitted, hlt⟩
    exact ⟨List.mem_filter.2 ⟨(hmem x).2 hx, hadmitted⟩, hlt⟩

/-- What a page sends is its own. -/
theorem PendingInv.sent_handle (h : PendingInv logged page) {k : SocketId} {d : JsString}
    {op : TextOperation}
    (hop : (k, .submitOperation ⟨d, op⟩) ∈ (page.handle segmentGraphemes e).sync.sent) :
    (page.handle segmentGraphemes e).db.Own d op := by
  have hstores := @handle_stores segmentGraphemes page e
  have hsubmits : ∀ {k' : SocketId} {operations : List TextOperation},
      (∀ op ∈ operations, page.db.Own page.sync.documentId op) →
      (page.handle segmentGraphemes e).sync.sent =
        page.sync.sent ++ DocumentSyncClient.submits page.sync.documentId k' operations →
      (page.handle segmentGraphemes e).db.Own d op := by
    intro k' operations hown hsent
    rw [hsent] at hop
    rcases List.mem_append.1 hop with hop | hop
    · exact hstores.own_kept (h.sent k d op hop)
    · obtain ⟨-, operation, ho, heq⟩ := mem_submits.1 hop
      cases heq
      exact hstores.own_kept (hown _ ho)
  cases @handle_adds segmentGraphemes page e with
  | none hsent =>
    rw [hsent] at hop
    exact hstores.own_kept (h.sent k d op hop)
  | joins k' message hsent =>
    rw [hsent] at hop
    rcases List.mem_append.1 hop with hop | hop
    · exact hstores.own_kept (h.sent k d op hop)
    · cases List.mem_singleton.1 hop
  | flushes k' handler pending hh hstage hsent =>
    exact hsubmits (h.pending handler pending hh hstage).1 hsent
  | hands k' batch rest he hbatch hcatch hk hopen hsent =>
    exact hsubmits (h.submits batch (by rw [hbatch]; exact List.mem_cons_self)) hsent

/-- A join on a socket begins a new list of operations, or the first. -/
theorem PendingInv.frames_join (h : PendingInv logged page) {k k' : SocketId}
    {message : JoinMessage} (hsent : page'.sync.sent = page.sync.sent ++ [(k', .join message)])
    (d : JsString) : RestsInOrder (logged d) (submitted d (page'.sentOn k)) := by
  rw [sentOn_append hsent]
  by_cases hk : k' = k
  · rw [show ([(k', ClientMessage.join message)].filterMap fun p =>
      if p.1 = k then some p.2 else none) = [.join message] by simp [hk]]
    by_cases hjoined : Joined (page.sentOn k)
    · rw [submitted_append_joined hjoined]
      exact closedOver_append.2 ⟨h.frames k d, closedOver_nil⟩
    · rw [submitted_append_new hjoined]
      exact closedOver_nil
  · rw [show ([(k', ClientMessage.join message)].filterMap fun p =>
      if p.1 = k then some p.2 else none) = [] by simp [hk], List.append_nil]
    exact h.frames k d

/-- What a page submits on a socket stays in order. -/
theorem PendingInv.frames_handle (h : PendingInv logged page)
    (hclosed : ∀ d, ∀ op ∈ logged d, Rests (logged d) op)
    (hovertakes : e = .submit → ¬ Overtakes logged page) (k : SocketId) (d : JsString) :
    RestsInOrder (logged d) (submitted d ((page.handle segmentGraphemes e).sentOn k)) := by
  cases @handle_adds segmentGraphemes page e with
  | none hsent =>
    unfold sentOn
    rw [hsent]
    exact h.frames k d
  | joins k' message hsent => exact h.frames_join hsent d
  | flushes k' handler pending hh hstage hsent =>
    refine frames_submits hsent (h.frames k d) fun hk hd hjoined => ?_
    rw [← hd]
    exact (h.pending handler pending hh hstage).2.mono Set.subset_union_left
  | hands k' batch rest he hbatch hcatch hk hopen hsent =>
    refine frames_submits hsent (h.frames k d) fun hk' hd hjoined => ?_
    rw [← hd]
    exact h.hands hclosed (hovertakes he) hbatch hcatch (hk' ▸ hk) (hk' ▸ hopen) hjoined

/-- **An event that neither overtakes nor strands keeps what is known of a page.** -/
theorem PendingInv.handle (h : PendingInv logged page) (hpage : PageInv page)
    (hbrings : Brings logged page) (hclosed : ∀ d, ∀ op ∈ logged d, Rests (logged d) op)
    (hovertakes : e = .submit → ¬ Overtakes logged page)
    (hstrands : ¬ Strands segmentGraphemes page e) :
    PendingInv logged (page.handle segmentGraphemes e) := by
  have hstores := @handle_stores segmentGraphemes page e
  have hmoves := @handle_moves segmentGraphemes page e
  have hwaits : ∀ {d op}, page.db.InOutbox d op → op ∈ logged d ∨
      (page.handle segmentGraphemes e).db.InOutbox d op :=
    fun hop => hstores.released hpage hbrings h.marked hop
  refine ⟨hstores.keyed h.keyed, hstores.marked h.marked,
    fun d op hop => (h.outbox_handle hpage hbrings hstrands hop).1,
    fun d op hop => (h.outbox_handle hpage hbrings hstrands hop).2, fun d op hop => ?_,
    fun c hc => handle_backed h.replica hc, fun batch hb op hop => ?_,
    fun _ _ hh hstage => h.pending_handle hh hstage, fun _ _ _ hop => h.sent_handle hop,
    h.frames_handle hclosed hovertakes⟩
  · rcases hstores.documentOps_new hpage hbrings hop with hold | hnew | hlogged
    · exact (h.known d hold).elim Or.inl hwaits
    · exact Or.inr (commits_inOutbox hnew)
    · exact Or.inl hlogged
  · obtain ⟨hopen, hbatch⟩ := handle_batches hb
    have hdocument : (page.handle segmentGraphemes e).sync.documentId = page.sync.documentId :=
      hmoves.documentId.resolve_right fun ⟨hopen', _⟩ => by rw [hopen] at hopen'; cases hopen'
    rw [hdocument]
    rcases hbatch with hbatch | ⟨c, hc, hcommits⟩
    · exact hstores.own_kept (h.submits batch hbatch op hop)
    · rw [(hpage.wired c hc).1]
      exact (h.commits hstrands (hcommits op hop)).1

/-- A message that comes in changes nothing of this. -/
theorem PendingInv.onMessage (h : PendingInv logged page) (k : SocketId) (message : ServerMessage) :
    PendingInv logged { page with sync := page.sync.onMessage k message } := by
  rcases page.sync.onMessage_cases (k := k) message with ⟨-, heq⟩ | ⟨-, -, heq⟩
  · rw [heq]
    exact h
  · rw [heq]
    obtain ⟨h1, h2, h3, h4, h5, h6, h7, h8, h9, h10⟩ := h
    exact ⟨h1, h2, h3, h4, h5, h6, h7, h8, h9, h10⟩

end Page

end LocalFirst
