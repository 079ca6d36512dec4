import LocalFirst.Client.Restore
import LocalFirst.Crdt.Identity
import LocalFirst.Lib.Runs

/-!
# The counters of the client database

`nextCounter` and `lamportClock` are shared by all documents of one browser and are written by
three transactions.  A run is any list of transactions, each of which may abort.

* `ClockInv` — what the two counters bound, in every state.
* `ClockInv.edit`, `ClockInv.ingest`, `ClockInv.install` — the transactions that write them keep it.
* `ClockInv.step` — one transaction.
* `identities_distinct` — a run, and what follows for the identities it has allocated.
-/

set_option autoImplicit false

namespace LocalFirst

open TextReplica

/-! ## Runs -/

/-- A transaction of the store, with what it reads from its surroundings. -/
inductive Transaction where
  | initializeDocument (documentId defaultTitle clientId timestamp : JsString)
  | persistLocalTextEdit (documentId : JsString) (edit : LocalTextEdit) (timestamp : JsString)
      (outboxCreatedAt : Int)
  | persistServerOperations (documentId : JsString) (sequencedOperations : List SequencedOperation)
      (confirmedThroughServerSeq : Int) (timestamp : JsString)
  | installServerBaseline (documentId : JsString) (bootstrap : SnapshotBootstrap)
      (sequencedOperations : List SequencedOperation) (confirmedThroughServerSeq : Int)
      (timestamp : JsString)

/-- A transaction runs, or it aborts for a reason of its own. -/
inductive StoreEvent where
  | run (transaction : Transaction)
  | abort (transaction : Transaction)

/-- The database, and all that `persistLocalTextEdit` has returned, in order. -/
structure StoreRun where
  db : Database
  returned : List TextOperation

namespace StoreRun

def start : StoreRun := ⟨.empty, []⟩

/-- A transaction that throws leaves the database as it was. -/
def runTransaction (s : StoreRun) : Transaction → StoreRun
  | .initializeDocument documentId defaultTitle clientId timestamp =>
    { s with db := (s.db.initializeDocument documentId defaultTitle clientId timestamp).2 }
  | .persistLocalTextEdit documentId edit timestamp outboxCreatedAt =>
    match s.db.persistLocalTextEdit documentId edit timestamp outboxCreatedAt with
    | .error _ => s
    | .ok (operations, db) => ⟨db, s.returned ++ operations⟩
  | .persistServerOperations documentId items confirmed timestamp =>
    match s.db.persistServerOperations documentId items confirmed timestamp with
    | .error _ => s
    | .ok db => { s with db := db }
  | .installServerBaseline documentId bootstrap items confirmed timestamp =>
    match s.db.installServerBaseline documentId bootstrap items confirmed timestamp with
    | .error _ => s
    | .ok (_, db) => { s with db := db }

def step (s : StoreRun) : StoreEvent → StoreRun
  | .run transaction => s.runTransaction transaction
  | .abort _ => s

/-- The operations that arrive with this client's id are ones that it has created; a baseline
brings none. -/
def Honest (s : StoreRun) : StoreEvent → Prop
  | .run (.persistServerOperations _ items _ _) => ∀ m ∈ s.db.clientMeta,
      ∀ item ∈ items, item.operation.clientId = m.clientId → item.operation ∈ s.returned
  | .run (.installServerBaseline _ bootstrap items _ _) => ∀ m ∈ s.db.clientMeta,
      (∀ node ∈ bootstrap.snapshot.nodes, node.clientId ≠ m.clientId) ∧
        (∀ d ∈ bootstrap.snapshot.deleteOperations, d.clientId ≠ m.clientId) ∧
          ∀ item ∈ items, item.operation.clientId ≠ m.clientId
  | _ => True

instance (s : StoreRun) (e : StoreEvent) : Decidable (s.Honest e) := by
  unfold Honest
  split <;> infer_instance

end StoreRun

/-! ## What the tables hold -/

namespace Database

variable {db db' : Database} {documentId timestamp : JsString}

/-- The operation is in the operations table, or in a stored baseline. -/
def Holds (db : Database) (op : TextOperation) : Prop :=
  (∃ k row, db.operations.get? k = some row ∧ row.operation = op) ∨
    ∃ k baseline, db.serverBaselines.get? k = some baseline ∧ op ∈ snapshotOps baseline.snapshot

theorem holds_of_documentOps {op : TextOperation} (h : op ∈ db.documentOps documentId) :
    db.Holds op := by
  have hstored : op ∈ db.storedOps documentId → db.Holds op := by
    rintro ⟨k, row, hk, -, hop⟩
    exact Or.inl ⟨k, row, hk, hop⟩
  unfold documentOps at h
  split at h
  · rename_i baseline hb
    exact h.elim (fun h => Or.inr ⟨documentId, baseline, hb, h⟩) hstored
  · exact hstored h

theorem Edited.holds {ops : List TextOperation} {outboxCreatedAt : Int} {op : TextOperation}
    (h : Edited db db' documentId ops timestamp outboxCreatedAt) (hop : db'.Holds op) :
    op ∈ ops ∨ db.Holds op := by
  rcases hop with ⟨k, row, hk, rfl⟩ | ⟨k, baseline, hk, hop⟩
  · rcases (h.operations k row).1 hk with ⟨op, hop, -, rfl⟩ | hk
    · exact Or.inl hop
    · exact Or.inr (Or.inl ⟨k, row, hk, rfl⟩)
  · rw [h.serverBaselines] at hk
    exact Or.inr (Or.inr ⟨k, baseline, hk, hop⟩)

theorem Ingested.holds {ops : List TextOperation} {confirmed : Int} {op : TextOperation}
    (h : Ingested db db' documentId ops confirmed timestamp) (hop : db'.Holds op) :
    op ∈ ops ∨ db.Holds op := by
  rcases hop with ⟨k, row, hk, rfl⟩ | ⟨k, baseline, hk, hop⟩
  · rcases (h.operations k row).1 hk with hk | ⟨-, op, hop, -, rfl⟩
    · exact Or.inr (Or.inl ⟨k, row, hk, rfl⟩)
    · exact Or.inl hop
  · rw [h.serverBaselines] at hk
    exact Or.inr (Or.inr ⟨k, baseline, hk, hop⟩)

theorem Installed.holds {bootstrap : SnapshotBootstrap} {items : List SequencedOperation}
    {confirmed : Int} {op : TextOperation}
    (h : Installed db db' documentId bootstrap items confirmed timestamp) (hop : db'.Holds op) :
    (op ∈ snapshotOps bootstrap.snapshot ∨ op ∈ items.map (·.operation)) ∨ db.Holds op := by
  rcases hop with ⟨k, row, hk, rfl⟩ | ⟨k, baseline, hk, hop⟩
  · rcases (h.operations k row).1 hk with ⟨op, hop, -, rfl⟩ | hk
    · exact Or.inl (Or.inr hop)
    · exact Or.inr (Or.inl ⟨k, row, hk, rfl⟩)
  · rw [h.serverBaselines] at hk
    split at hk
    · cases hk
      exact Or.inl (Or.inl hop)
    · exact Or.inr (Or.inr ⟨k, baseline, hk, hop⟩)

end Database

/-! ## The invariant -/

namespace StoreRun

/-- What the counters bound.  An operation of this client is one with its id, in the tables or
returned. -/
structure ClockInv (s : StoreRun) : Prop where
  holds : ∀ op, s.db.Holds op → ∃ m, s.db.clientMeta = some m ∧ op.lamport ≤ m.lamportClock ∧
    (op.clientId = m.clientId → op.counter < m.nextCounter)
  returned : ∀ op ∈ s.returned, ValidOperation op ∧ ∃ m, s.db.clientMeta = some m ∧
    op.clientId = m.clientId ∧ op.lamport ≤ m.lamportClock ∧ op.counter < m.nextCounter
  sorted : s.returned.Pairwise fun a b => a.counter < b.counter ∧ a.lamport < b.lamport

/-- The counters do not go back, and what the tables gain is below them. -/
theorem ClockInv.advance {s : StoreRun} (h : ClockInv s) {db' : Database} {m m' : ClientMetaRecord}
    (hm : s.db.clientMeta = some m) (hm' : db'.clientMeta = some m')
    (hclient : m'.clientId = m.clientId) (hcounter : m.nextCounter ≤ m'.nextCounter)
    (hclock : m.lamportClock ≤ m'.lamportClock)
    (hgain : ∀ op, db'.Holds op → s.db.Holds op ∨ (op.lamport ≤ m'.lamportClock ∧
      (op.clientId = m.clientId → op.counter < m'.nextCounter))) :
    ClockInv ⟨db', s.returned⟩ := by
  refine ⟨fun op hop => ⟨m', hm', ?_⟩, fun op hop => ?_, h.sorted⟩
  · rw [hclient]
    rcases hgain op hop with hold | hnew
    · obtain ⟨m₀, hm₀, hl, hc⟩ := h.holds op hold
      rw [hm] at hm₀
      cases hm₀
      exact ⟨hl.trans hclock, fun hid => (hc hid).trans_le hcounter⟩
    · exact hnew
  · obtain ⟨hv, m₀, hm₀, hid, hl, hc⟩ := h.returned op hop
    rw [hm] at hm₀
    cases hm₀
    exact ⟨hv, m', hm', hid.trans hclient.symm, hl.trans hclock, hc.trans_le hcounter⟩

theorem ClockInv.initialized {s : StoreRun} (h : ClockInv s)
    (documentId defaultTitle clientId timestamp : JsString) :
    ClockInv (s.runTransaction (.initializeDocument documentId defaultTitle clientId timestamp)) := by
  -- the metadata that exists is kept, and without any there is nothing to bound
  have hkeep : ∀ m, s.db.clientMeta = some m →
      (s.db.initializeDocument documentId defaultTitle clientId timestamp).2.clientMeta = some m := by
    intro m hm
    simp [Database.initializeDocument, hm]
  refine ⟨fun op hop => ?_, fun op hop => ?_, h.sorted⟩
  · obtain ⟨m, hm, hbounds⟩ := h.holds op hop
    exact ⟨m, hkeep m hm, hbounds⟩
  · obtain ⟨hv, m, hm, hbounds⟩ := h.returned op hop
    exact ⟨hv, m, hkeep m hm, hbounds⟩

theorem ClockInv.edit {s : StoreRun} (h : ClockInv s) {db' : Database}
    {documentId timestamp : JsString} {ops : List TextOperation} {outboxCreatedAt : Int}
    (he : Database.Edited s.db db' documentId ops timestamp outboxCreatedAt) :
    ClockInv ⟨db', s.returned ++ ops⟩ := by
  obtain ⟨m, identity, hm, hcreated, hm'⟩ := he.clientMeta
  have hadvance := h.advance hm hm' rfl hcreated.counter_mono hcreated.lamport_mono fun op hop => by
    refine (he.holds hop).symm.imp_right fun hnew => ?_
    exact ⟨(hcreated.lamports op hnew).2, fun _ => (hcreated.counters op hnew).2⟩
  refine ⟨hadvance.holds, fun op hop => ?_, ?_⟩
  · rcases List.mem_append.1 hop with hop | hop
    · exact hadvance.returned op hop
    · exact ⟨hcreated.valid op hop, _, hm', hcreated.client op hop, (hcreated.lamports op hop).2,
        (hcreated.counters op hop).2⟩
  · -- what was returned before is below the counters that the edit starts from
    refine List.pairwise_append.2 ⟨h.sorted, hcreated.sorted, fun a ha b hb => ?_⟩
    obtain ⟨-, m₀, hm₀, -, hl, hc⟩ := h.returned a ha
    rw [hm] at hm₀
    cases hm₀
    exact ⟨hc.trans_le (hcreated.counters b hb).1, hl.trans_lt (hcreated.lamports b hb).1⟩

theorem ClockInv.ingest {s : StoreRun} (h : ClockInv s) {db' : Database}
    {documentId timestamp : JsString} {ops : List TextOperation} {confirmed : Int}
    (hi : Database.Ingested s.db db' documentId ops confirmed timestamp)
    (hown : ∀ m, s.db.clientMeta = some m → ∀ op ∈ ops, op.clientId = m.clientId →
      op ∈ s.returned) : ClockInv ⟨db', s.returned⟩ := by
  obtain ⟨m, hm, hm'⟩ := hi.clientMeta
  obtain ⟨hclock, hlamports⟩ := maxLamport_le_iff.1 (le_refl (maxLamport m.lamportClock ops))
  refine h.advance hm hm' rfl (le_refl _) hclock fun op hop => ?_
  refine (hi.holds hop).symm.imp_right fun hnew => ⟨hlamports op hnew, fun hid => ?_⟩
  obtain ⟨-, m₀, hm₀, -, -, hc⟩ := h.returned op (hown m hm op hnew hid)
  rw [hm] at hm₀
  cases hm₀
  exact hc

theorem ClockInv.install {s : StoreRun} (h : ClockInv s) {db' : Database}
    {documentId timestamp : JsString} {bootstrap : SnapshotBootstrap}
    {items : List SequencedOperation} {confirmed : Int}
    (hi : Database.Installed s.db db' documentId bootstrap items confirmed timestamp)
    (hown : ∀ m, s.db.clientMeta = some m →
      (∀ node ∈ bootstrap.snapshot.nodes, node.clientId ≠ m.clientId) ∧
        (∀ d ∈ bootstrap.snapshot.deleteOperations, d.clientId ≠ m.clientId) ∧
          ∀ item ∈ items, item.operation.clientId ≠ m.clientId) :
    ClockInv ⟨db', s.returned⟩ := by
  obtain ⟨m, hm, hm'⟩ := hi.clientMeta
  obtain ⟨hnodes, hdeletes, hitems⟩ := hown m hm
  have hsnapshot : ∀ op ∈ snapshotOps bootstrap.snapshot, op.clientId ≠ m.clientId := by
    rintro (op | op) hop
    · obtain ⟨node, hnode, rfl⟩ := mem_snapshotOps_insert.1 hop
      exact hnodes node hnode
    · exact hdeletes op (mem_snapshotOps_delete.1 hop)
  have hbefore := (maxLamportFromSnapshot_le_iff.1
    (le_refl (maxLamportFromSnapshot bootstrap.snapshot))).2
  have hsuffix := (foldl_max_le_iff.1 (le_refl
    (items.foldl (fun max item => Max.max max item.operation.lamport) 0))).2
  refine h.advance hm hm' rfl (le_refl _) (le_max_left _ _) fun op hop => ?_
  refine (hi.holds hop).symm.imp_right ?_
  rintro (hop | hop)
  · refine ⟨(hbefore op hop).trans ?_, fun hid => absurd hid (hsnapshot op hop)⟩
    exact (le_max_left _ _).trans (le_max_right _ _)
  · obtain ⟨item, hitem, rfl⟩ := List.mem_map.1 hop
    refine ⟨(hsuffix item hitem).trans ?_, fun hid => absurd hid (hitems item hitem)⟩
    exact (le_max_right _ _).trans (le_max_right _ _)

/-- **One transaction**, whether it commits, throws or aborts. -/
theorem ClockInv.step {s : StoreRun} (h : ClockInv s) {e : StoreEvent} (hown : s.Honest e) :
    ClockInv (s.step e) := by
  rcases e with (⟨documentId, defaultTitle, clientId, timestamp⟩ |
    ⟨documentId, edit, timestamp, outboxCreatedAt⟩ | ⟨documentId, items, confirmed, timestamp⟩ |
    ⟨documentId, bootstrap, items, confirmed, timestamp⟩) | t
  · exact h.initialized documentId defaultTitle clientId timestamp
  · simp only [StoreRun.step, runTransaction]
    split
    · exact h
    · rename_i ops db' hp
      obtain ⟨-, ⟨rfl, rfl⟩ | ⟨-, he⟩⟩ := Database.persistLocalTextEdit_spec hp
      · rw [List.append_nil]
        exact h
      · exact h.edit he
  · simp only [StoreRun.step, runTransaction]
    split
    · exact h
    · rename_i db' hp
      refine h.ingest (Database.persistServerOperations_spec.1 db' hp).2 fun m hm op hop hid => ?_
      obtain ⟨item, hitem, rfl⟩ := List.mem_map.1 hop
      exact hown m hm item hitem hid
  · simp only [StoreRun.step, runTransaction]
    split
    · exact h
    · rename_i db' hp
      exact h.install (Database.installServerBaseline_spec hp).2 hown
  · exact h

theorem ClockInv.start : ClockInv start where
  holds op hop := by
    rcases hop with ⟨k, row, hk, -⟩ | ⟨k, baseline, hk, -⟩ <;> cases hk
  returned op hop := by cases hop
  sorted := List.Pairwise.nil

theorem ClockInv.run {events : List StoreEvent}
    (hown : Runs.Never StoreRun.step (fun s e => ¬ Honest s e) StoreRun.start events) :
    ClockInv (Runs.run StoreRun.step StoreRun.start events) :=
  hown.last (fun _ _ h hnot => h.step (not_not.1 hnot)) ClockInv.start

/-- **Identities and clocks.**  After any run in which no foreign operation carries this client's id,
`lamportClock` bounds the operations that are stored, in the table and in the baselines;
`nextCounter` exceeds the counters of this client's operations; all the identities that were ever
returned differ, with increasing counters and Lamport values; and so the operations of a new edit
come after every operation of its document. -/
theorem identities_distinct (events : List StoreEvent)
    (hown : Runs.Never StoreRun.step (fun s e => ¬ Honest s e) StoreRun.start events) :
    let s := Runs.run StoreRun.step StoreRun.start events
    (∀ op, s.db.Holds op → ∃ m, s.db.clientMeta = some m ∧ op.lamport ≤ m.lamportClock) ∧
    (∀ op, s.db.Holds op ∨ op ∈ s.returned → ∀ m, s.db.clientMeta = some m →
      op.clientId = m.clientId → op.counter < m.nextCounter) ∧
    (s.returned.Pairwise fun a b =>
      a.opId ≠ b.opId ∧ a.counter < b.counter ∧ a.lamport < b.lamport) ∧
    ∀ documentId edit timestamp outboxCreatedAt ops db',
      s.db.persistLocalTextEdit documentId edit timestamp outboxCreatedAt = .ok (ops, db') →
        ∀ op ∈ ops, ∀ old ∈ s.db.documentOps documentId, old.lamport < op.lamport := by
  intro s
  have h : ClockInv s := ClockInv.run hown
  refine ⟨fun op hop => ?_, fun op hop m hm hid => ?_, ?_, ?_⟩
  · obtain ⟨m, hm, hl, -⟩ := h.holds op hop
    exact ⟨m, hm, hl⟩
  · rcases hop with hop | hop
    · obtain ⟨m₀, hm₀, -, hc⟩ := h.holds op hop
      cases hm.symm.trans hm₀
      exact hc hid
    · obtain ⟨-, m₀, hm₀, -, -, hc⟩ := h.returned op hop
      cases hm.symm.trans hm₀
      exact hc
  · refine h.sorted.imp_of_mem fun {a b} ha hb hlt => ⟨fun hid => ?_, hlt⟩
    obtain ⟨-, hcounter⟩ := (h.returned a ha).1.identity (h.returned b hb).1 hid
    omega
  · intro documentId edit timestamp outboxCreatedAt ops db' hp op hop old hold
    obtain ⟨-, ⟨rfl, rfl⟩ | ⟨-, he⟩⟩ := Database.persistLocalTextEdit_spec hp
    · cases hop
    · obtain ⟨m, identity, hm, hcreated, -⟩ := he.clientMeta
      obtain ⟨m₀, hm₀, hl, -⟩ := h.holds old (Database.holds_of_documentOps hold)
      cases hm.symm.trans hm₀
      exact hl.trans_lt (hcreated.lamports op hop).1

/-- Two documents, with a baseline for the second: the clock of the baseline carries over. -/
theorem identities_distinct_baseline :
    let node : TextReplicaSnapshotNode :=
      ⟨js "B:1", ROOT_ID, js "y", js "B", 1, 5, false⟩
    let typed : TextOperation := .insert ⟨js "A:1", js "A", 1, 1, ROOT_ID, js "x"⟩
    let events : List StoreEvent := [
      .run (.initializeDocument (js "d") (js "D") (js "A") []),
      .run (.persistLocalTextEdit (js "d") ⟨[], ROOT_ID, [js "x"]⟩ [] 0),
      .run (.initializeDocument (js "e") (js "E") (js "A") []),
      .run (.installServerBaseline (js "e") ⟨1, 1, ⟨1, [node], []⟩⟩ [] 1 []),
      .run (.persistServerOperations (js "d") [⟨1, typed⟩] 1 []),
      .abort (.persistLocalTextEdit (js "e") ⟨[js "B:1"], ROOT_ID, []⟩ [] 0),
      .run (.persistLocalTextEdit (js "e") ⟨[], js "B:1", [js "z"]⟩ [] 0)]
    let s := Runs.run StoreRun.step StoreRun.start events
    s.returned.map (·.opId) = [js "A:1", js "A:2"] ∧ s.returned.map (·.lamport) = [1, 6] ∧
      s.returned.Pairwise fun a b =>
        a.opId ≠ b.opId ∧ a.counter < b.counter ∧ a.lamport < b.lamport := by
  intro node typed events s
  have hcheck : ∀ s e, decide (Honest s e) = true → ¬ ¬ Honest s e :=
    fun s e h => not_not.2 (of_decide_eq_true h)
  have hown := @Runs.Never.of_allSteps _ _ StoreRun.step _ _ hcheck StoreRun.start events
    (by decide +kernel)
  exact ⟨by decide +kernel, by decide +kernel, (identities_distinct events hown).2.2.1⟩

end StoreRun

end LocalFirst
