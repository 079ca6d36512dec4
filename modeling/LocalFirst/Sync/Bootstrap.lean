import LocalFirst.Client.EditExact
import LocalFirst.Client.IngestAtomicity
import LocalFirst.Server.Snapshot

/-!
# Snapshot bootstrap against full history

A client that has nothing of a document asks the server for it.  The server answers with the
whole log, or with a snapshot of a part of it, cached earlier or built now, and the rest of
the log.

* `Fresh` — a client that has nothing of a document.
* `ingest_history`, `ingest_bootstrap` — what either answer leaves in a fresh client.
* `bootstrap_equals_history` — both leave the same.
-/

set_option autoImplicit false

namespace LocalFirst

open TextReplica

/-! ## The log and the checks of the client -/

/-- A part of a log up to a safe number passes the checks of the client. -/
theorem OperationStore.LogInv.validBatch {s : OperationStore} (hlog : s.LogInv)
    {documentId : JsString} {after : Int} (hafter : 0 ≤ after)
    (hsafe : isSafeInteger (s.getLatestServerSeq documentId) = true) :
    validateServerBatch (between SequencedOperation.serverSeq after (s.getLatestServerSeq documentId)
      (s.log documentId)) (s.getLatestServerSeq documentId) = .ok () := by
  rw [validateServerBatch_iff]
  refine ⟨⟨(hlog.latest_bounds documentId).1, hsafe⟩, fun item hi => ?_,
    (hlog.log_increasing documentId).between⟩
  obtain ⟨-, hlt, hle⟩ := mem_between.1 hi
  refine ⟨?_, hle⟩
  simp only [isSafeInteger, decide_eq_true_eq] at hsafe
  exact isPositiveSafeInteger_iff.2 ⟨by omega, by omega⟩

namespace LocalDocumentController

/-! ## Fresh clients -/

/-- The `sync` branch of `handleMessage`, up to the controller. -/
def ingestSyncMessage (c : LocalDocumentController) (db : Database) (env : Surroundings)
    (m : SyncMessage) : LocalDocumentController × Database × Except JsError LocalDocumentSnapshot :=
  match m.snapshotBootstrap with
  | some bootstrap => c.installServerSnapshotNow db env bootstrap m.operations m.latestServerSeq
  | none => c.applyServerOperationsNow db env m.operations m.latestServerSeq

/-- A client that has nothing of the document, and an empty Lamport clock. -/
structure Fresh (documentId : JsString) (c : LocalDocumentController) (db : Database) : Prop where
  document : c.documentId = documentId
  inv : Inv c.replica
  ops : c.replica.ops = ∅
  operations : ∀ k, db.operations.get? k = none
  outbox : ∀ k, db.outbox.get? k = none
  baseline : db.serverBaselines.get? documentId = none
  cursor : db.getLastServerSeq documentId = 0
  clientMeta : db.clientMeta.map (·.lamportClock) = some 0
  record : (db.documents.get? documentId).isSome = true

theorem create_fresh {options : LocalDocumentControllerOptions} {env : Surroundings}
    {c : LocalDocumentController} {db : Database} {documentId : JsString}
    (hcreate : create Database.empty options env = (.ok c, db))
    (hid : options.documentId.getD DEFAULT_DOCUMENT_ID = documentId) : Fresh documentId c db := by
  obtain ⟨hlive, hdoc⟩ := create_live hcreate
  obtain ⟨title, snaps, hdb⟩ := create_tables hcreate
  rw [hid] at hdoc hdb
  have hops : c.replica.ops = ∅ := by
    have hnil : db.storedOps documentId = ∅ := by
      rw [hdb]
      ext op
      simp [Database.storedOps, Database.initializeDocument, Database.empty]
    rw [hlive.ops, hdoc]
    unfold Database.documentOps
    rw [hnil, hdb]
    rfl
  have hcursor : db.getLastServerSeq documentId = 0 := by
    rw [hdb]
    exact (initializeDocument_spec Database.empty documentId title env.clientIdFactory env.now).2.2.2
  have hrecord : (db.documents.get? documentId).isSome = true := by
    rw [hdb]
    have := Table.get?_put_self Database.empty.documents ⟨documentId, title, env.now, env.now⟩
    exact Option.isSome_iff_exists.2 ⟨_, this⟩
  exact ⟨hdoc, hlive.inv, hops, fun k => by (rw [hdb]; rfl), fun k => by (rw [hdb]; rfl),
    by (rw [hdb]; rfl), hcursor, by (rw [hdb]; rfl), hrecord⟩

/-! ## The two answers -/

/-- What a client holds of a document: the operations, the cursor, and a Lamport clock that is
their largest Lamport value. -/
structure Holds (documentId : JsString) (known : Set TextOperation) (lastServerSeq : Int)
    (c : LocalDocumentController) (db : Database) : Prop where
  inv : Inv c.replica
  ops : c.replica.ops = known
  cursor : db.getLastServerSeq documentId = lastServerSeq
  lamportClock : ∃ lamport, db.clientMeta.map (·.lamportClock) = some lamport ∧
    ∀ n, lamport ≤ n ↔ 0 ≤ n ∧ ∀ op ∈ known, op.lamport ≤ n

theorem Fresh.holds {documentId : JsString} {c : LocalDocumentController} {db : Database}
    (h : Fresh documentId c db) : Holds documentId ∅ 0 c db :=
  ⟨h.inv, h.ops, h.cursor, 0, h.clientMeta, fun n => by simp⟩

/-- A client holds nothing else. -/
theorem Holds.same {documentId : JsString} {known : Set TextOperation} {latest : Int}
    {c c' : LocalDocumentController} {db db' : Database} (h : Holds documentId known latest c db)
    (h' : Holds documentId known latest c' db') :
    c.replica.getKnownOperationIds = c'.replica.getKnownOperationIds ∧
      c.replica.getVisibleElements = c'.replica.getVisibleElements ∧
      db.getLastServerSeq documentId = db'.getLastServerSeq documentId ∧
      db.clientMeta.map (·.lamportClock) = db'.clientMeta.map (·.lamportClock) := by
  have a := h.inv.agree h'.inv (h.ops.trans h'.ops.symm)
  obtain ⟨lamport, hl, hle⟩ := h.lamportClock
  obtain ⟨lamport', hl', hle'⟩ := h'.lamportClock
  have heq : lamport = lamport' := eq_of_forall_ge_iff fun n => (hle n).trans (hle' n).symm
  refine ⟨a.known_ids, a.visible, h.cursor.trans h'.cursor.symm, ?_⟩
  rw [hl, hl', heq]

section

variable {documentId : JsString} {c : LocalDocumentController} {db : Database}
  (h : Fresh documentId c db) (env : Surroundings) {items : List SequencedOperation} {latest : Int}
include h

/-- A fresh client ingests a whole log. -/
theorem ingest_history (hbatch : validateServerBatch items latest = .ok ())
    (hcoh : Coherent {op | op ∈ items.map (·.operation)}) :
    (c.applyServerOperationsNow db env items latest).2.2.isOk = true ∧
      Holds documentId {op | op ∈ items.map (·.operation)} latest
        (c.applyServerOperationsNow db env items latest).1
        (c.applyServerOperationsNow db env items latest).2.1 := by
  obtain rfl := h.document
  have hmem : ∀ item ∈ items, item.operation ∈ items.map (·.operation) :=
    fun item hi => List.mem_map_of_mem hi
  obtain ⟨m, hm, hm0⟩ := Option.map_eq_some_iff.1 h.clientMeta
  have hok : db.Ingestible c.documentId items latest :=
    ⟨hbatch, by rw [hm]; rfl, h.record, fun item hi => hcoh.valid _ (hmem item hi),
      fun a ha b hb => hcoh.unique _ (hmem a ha) _ (hmem b hb),
      fun item _ row hrow => by (rw [h.operations] at hrow; cases hrow),
      fun item _ marker hmk => by rw [h.outbox] at hmk; cases hmk⟩
  obtain ⟨hsound, hcomplete⟩ := @Database.persistServerOperations_spec db c.documentId env.now
    items latest
  obtain ⟨db', hp⟩ := hcomplete hok
  obtain ⟨-, hin⟩ := hsound db' hp
  obtain ⟨hinv, hiff, hops⟩ := applyAll_spec (items.map (·.operation)) h.inv
  rw [h.ops, Set.empty_union] at hiff hops
  have hdone := hiff.2 hcoh
  unfold applyServerOperationsNow
  rw [hp]
  simp only
  cases ha : c.replica.applyAll (items.map (·.operation)) with
  | mk replica outcome =>
    rw [ha] at hinv hdone hops
    simp only at hdone
    subst hdone
    obtain ⟨snapshot, hs⟩ := finish_ok (c := c.withReplica replica) hinv db' env
    obtain ⟨hr, -, -, -, snaps, hdb⟩ := maybeCreateCheckpoint_spec (c.withReplica replica) db' env
    refine ⟨by simp only [hs]; rfl, ?_, ?_, ?_, ?_⟩
    · show Inv ((c.withReplica replica).maybeCreateCheckpoint db' env).1.replica
      rw [hr]
      exact hinv
    · show ((c.withReplica replica).maybeCreateCheckpoint db' env).1.replica.ops = _
      rw [hr]
      exact hops rfl
    · show ((c.withReplica replica).maybeCreateCheckpoint db' env).2.getLastServerSeq c.documentId = _
      rw [hdb]
      show db'.getLastServerSeq c.documentId = latest
      rw [Database.getLastServerSeq_of_get? (by rw [hin.syncState, if_pos rfl]), h.cursor]
      exact max_eq_right (validateServerBatch_iff.1 hbatch).1.1
    · show ∃ lamport, ((c.withReplica replica).maybeCreateCheckpoint db' env).2.clientMeta.map
        (·.lamportClock) = some lamport ∧ _
      rw [hdb]
      obtain ⟨m', hm', hmeta⟩ := hin.clientMeta
      rw [hm] at hm'
      cases hm'
      refine ⟨maxLamport m.lamportClock (items.map (·.operation)), by simp only [hmeta]; rfl, fun n => ?_⟩
      rw [maxLamport_le_iff, hm0]
      rfl

/-- A fresh client installs a snapshot and the rest of the log. -/
theorem ingest_bootstrap {bootstrap : SnapshotBootstrap} (hversion : bootstrap.version = 1)
    (hsuffix : validateSnapshotSuffix items bootstrap.snapshotSeq latest = .ok ())
    (hsnapshot : SnapshotCoherent bootstrap.snapshot) {live : TextReplica} (hlive : Inv live)
    (hops : live.ops = snapshotOps bootstrap.snapshot ∪ {op | op ∈ items.map (·.operation)})
    (hres : live.getUnresolvedOperationIds = [])
    (hnodup : ((items.map (·.operation)).map (·.opId)).Nodup) :
    (c.installServerSnapshotNow db env bootstrap items latest).2.2.isOk = true ∧
      Holds documentId live.ops latest (c.installServerSnapshotNow db env bootstrap items latest).1
        (c.installServerSnapshotNow db env bootstrap items latest).2.1 := by
  obtain rfl := h.document
  obtain ⟨replica, hb, hinv, hrops⟩ :=
    Database.bootstrapReplica_ok hversion hsuffix hsnapshot hlive hops hres
  obtain ⟨m, hm, hm0⟩ := Option.map_eq_some_iff.1 h.clientMeta
  have hnone : ∀ l : List OperationRecord, (∀ row ∈ l, row ∈ db.operations.toList) → l = [] := by
    intro l hl
    rw [List.eq_nil_iff_forall_not_mem]
    intro row hrow
    have := Table.mem_toList.1 (hl row hrow)
    rw [h.operations] at this
    cases this
  have helig : db.isSnapshotBootstrapEligible c.documentId = true := by
    rw [Database.eligible_iff]
    refine ⟨h.cursor, h.baseline, hnone _ fun row hrow => (List.mem_filter.1 hrow).1, ?_⟩
    rw [List.eq_nil_iff_forall_not_mem]
    intro marker hmk
    have := Table.mem_toList.1 (List.mem_filter.1 hmk).1
    rw [h.outbox] at this
    cases this
  obtain ⟨db', hp⟩ := @Database.installServerBaseline_ok db c.documentId env.now _ _ _ _ hb helig
    (by rw [hm]; rfl) h.record hnodup (fun item _ => h.operations _)
  obtain ⟨-, hin⟩ := Database.installServerBaseline_spec hp
  unfold installServerSnapshotNow
  rw [hp]
  simp only
  obtain ⟨snapshot, hs⟩ :=
    getSnapshot_ok (c := { c with replica := replica, hasServerBaseline := true }) hinv
  refine ⟨by rw [hs]; rfl, hinv, hrops, ?_, ?_⟩
  · exact Database.getLastServerSeq_of_get? (by rw [hin.syncState, if_pos rfl])
  · obtain ⟨m', hm', hmeta⟩ := hin.clientMeta
    rw [hm] at hm'
    cases hm'
    refine ⟨_, by rw [hmeta]; rfl, fun n => ?_⟩
    rw [Int.max_le, Int.max_le, maxLamportFromSnapshot_le_iff, foldl_max_le_iff, hm0, hops]
    constructor
    · rintro ⟨h0, ⟨-, hsnap⟩, -, hsuf⟩
      refine ⟨h0, fun op hop => ?_⟩
      rcases hop with hop | hop
      · exact hsnap op hop
      · obtain ⟨item, hi, rfl⟩ := List.mem_map.1 hop
        exact hsuf item hi
    · rintro ⟨h0, hall⟩
      exact ⟨h0, ⟨h0, fun op hop => hall op (Or.inl hop)⟩, h0,
        fun item hi => hall _ (Or.inr (List.mem_map_of_mem hi))⟩

/-- An answer whose latest number is not a safe integer is refused. -/
theorem ingest_unsafe (hbound : isSafeInteger latest = false) (m : SyncMessage)
    (hlatest : m.latestServerSeq = latest)
    (hversion : ∀ b, m.snapshotBootstrap = some b → b.version = 1) :
    (c.ingestSyncMessage db env m).2.2.isOk = false ∧
      Holds documentId ∅ 0 (c.ingestSyncMessage db env m).1 (c.ingestSyncMessage db env m).2.1 := by
  have hbatch : ∀ items, ∃ e, validateServerBatch items latest = .error e := by
    intro items
    cases hv : validateServerBatch items latest with
    | error e => exact ⟨e, rfl⟩
    | ok u =>
      have := (validateServerBatch_iff.1 hv).1.2
      rw [hbound] at this
      cases this
  have hsuffix : ∀ items snapshotSeq, ∃ e, validateSnapshotSuffix items snapshotSeq latest = .error e := by
    intro items snapshotSeq
    cases hv : validateSnapshotSuffix items snapshotSeq latest with
    | error e => exact ⟨e, rfl⟩
    | ok u =>
      obtain ⟨e, he⟩ := hbatch items
      rw [(validateSnapshotSuffix_iff.1 hv).2.2.1] at he
      cases he
  unfold ingestSyncMessage
  split
  · rename_i bootstrap hb
    obtain ⟨e, he⟩ := hsuffix m.operations bootstrap.snapshotSeq
    have hfail : db.installServerBaseline c.documentId bootstrap m.operations m.latestServerSeq
        env.now = .error e := by
      unfold Database.installServerBaseline Database.bootstrapReplica parseBootstrapSnapshot
      simp only [hversion bootstrap hb, hlatest, he, ne_eq, not_true_eq_false, if_false]
    unfold installServerSnapshotNow
    rw [hfail]
    exact ⟨rfl, h.holds⟩
  · obtain ⟨e, he⟩ := hbatch m.operations
    have hfail : db.persistServerOperations c.documentId m.operations m.latestServerSeq env.now =
        .error e := by
      unfold Database.persistServerOperations
      rw [hlatest, he]
    unfold applyServerOperationsNow
    rw [hfail]
    exact ⟨rfl, h.holds⟩

end

/-- **Either answer leaves the log in a fresh client.** -/
theorem Fresh.ingest {s : OperationStore} (hlog : s.LogInv) {documentId : JsString}
    {live : TextReplica} (hreplay : replay ((s.log documentId).map (·.operation)) = .ok live)
    (hres : live.getUnresolvedOperationIds = [])
    (hsafe : isSafeInteger (s.getLatestServerSeq documentId) = true) {capable : Bool} {m : SyncMessage}
    (hm : s.SyncsLog documentId 0 capable m) {c : LocalDocumentController} {db : Database}
    (h : Fresh documentId c db) (env : Surroundings) :
    (c.ingestSyncMessage db env m).2.2.isOk = true ∧
      Holds documentId {op | op ∈ (s.log documentId).map (·.operation)} (s.getLatestServerSeq documentId)
        (c.ingestSyncMessage db env m).1 (c.ingestSyncMessage db env m).2.1 := by
  obtain ⟨hlive, hops⟩ := replay_sound hreplay
  have hcoh : Coherent {op | op ∈ (s.log documentId).map (·.operation)} := by
    rw [← hops]
    exact hlive.coherent
  have hwhole : between SequencedOperation.serverSeq 0 (s.getLatestServerSeq documentId)
      (s.log documentId) = s.log documentId :=
    between_eq_self fun item hi => ⟨by have := hlog.log_bounds hi; omega, (s.latest_spec _).1 item hi⟩
  unfold ingestSyncMessage
  split
  · rename_i b hb
    obtain ⟨hversion, hboot, hitems⟩ := hm.bootstrap b hb
    obtain ⟨hsnapshot, hsnapOps⟩ := exportPrefixSnapshot_sound hboot.exported
    rw [hm.latest] at hitems ⊢
    have hpos := hboot.positive
    have hthrough := hboot.through
    have hsplit := between_split (hlog.log_increasing documentId) (show 0 ≤ b.snapshotSeq by omega)
      hthrough
    rw [hwhole, ← hitems] at hsplit
    generalize between SequencedOperation.serverSeq 0 b.snapshotSeq (s.log documentId) = covered
      at hsnapOps hsplit
    have hall : live.ops = snapshotOps b.snapshot ∪ {op | op ∈ m.operations.map (·.operation)} := by
      rw [hops, hsnapOps, hsplit, List.map_append]
      ext op
      exact List.mem_append
    have hsuffix : validateSnapshotSuffix m.operations b.snapshotSeq
        (s.getLatestServerSeq documentId) = .ok () := by
      rw [validateSnapshotSuffix_iff, hitems]
      refine ⟨?_, hthrough, hlog.validBatch (by omega) hsafe, fun item hi => (mem_between.1 hi).2.1⟩
      simp only [isSafeInteger, decide_eq_true_eq] at hsafe
      exact isPositiveSafeInteger_iff.2 ⟨hpos, by omega⟩
    have hnodup : ((m.operations.map (·.operation)).map (·.opId)).Nodup := by
      rw [hitems, List.map_map]
      exact (hlog.log_nodup documentId).sublist (List.filter_sublist.map _)
    rw [← hops]
    exact ingest_bootstrap h env hversion hsuffix hsnapshot hlive hall hres hnodup
  · rename_i hb
    have hitems := hm.history hb
    rw [hm.latest] at hitems ⊢
    rw [hwhole] at hitems
    rw [hitems]
    have hbatch := @OperationStore.LogInv.validBatch s hlog documentId 0 (le_refl 0) hsafe
    rw [hwhole] at hbatch
    exact ingest_history h env hbatch hcoh

/-- **Snapshot bootstrap is equivalent to full history.**  Whatever was appended, and whatever
snapshots earlier sync messages have cached, when the replay of the log of a document succeeds
and leaves nothing unresolved, a new client that advertises the snapshot capability and one that
does not end with the same operations, the same visible elements, the same cursor and the same
Lamport clock; both accept their answer unless its number is no safe integer. -/
theorem bootstrap_equals_history {s : OperationStore} (hs : s.Reachable) (documentId : JsString)
    {live : TextReplica} (hreplay : replay ((s.log documentId).map (·.operation)) = .ok live)
    (hres : live.getUnresolvedOperationIds = []) (rowWritten rowWritten' : Bool)
    {options options' : LocalDocumentControllerOptions} {env env' : Surroundings}
    {c c' : LocalDocumentController} {db db' : Database}
    (hcreate : create Database.empty options env = (.ok c, db))
    (hid : options.documentId.getD DEFAULT_DOCUMENT_ID = documentId)
    (hcreate' : create Database.empty options' env' = (.ok c', db'))
    (hid' : options'.documentId.getD DEFAULT_DOCUMENT_ID = documentId) (later later' : Surroundings) :
    let capable := c.ingestSyncMessage db later (s.buildSyncMessage rowWritten documentId 0 true).1
    let plain := c'.ingestSyncMessage db' later' (s.buildSyncMessage rowWritten' documentId 0 false).1
    capable.1.replica.getKnownOperationIds = plain.1.replica.getKnownOperationIds ∧
      capable.1.replica.getVisibleElements = plain.1.replica.getVisibleElements ∧
      capable.2.1.getLastServerSeq documentId = plain.2.1.getLastServerSeq documentId ∧
      capable.2.1.clientMeta.map (·.lamportClock) = plain.2.1.clientMeta.map (·.lamportClock) ∧
      capable.2.2.isOk = isSafeInteger (s.getLatestServerSeq documentId) ∧
      plain.2.2.isOk = isSafeInteger (s.getLatestServerSeq documentId) := by
  intro capable plain
  obtain ⟨hlog, hcache⟩ := hs.inv
  have hsync := (OperationStore.buildSyncMessage_spec hlog hcache rowWritten documentId 0 true).1
  have hsync' := (OperationStore.buildSyncMessage_spec hlog hcache rowWritten' documentId 0 false).1
  have hfresh := create_fresh hcreate hid
  have hfresh' := create_fresh hcreate' hid'
  cases hsafe : isSafeInteger (s.getLatestServerSeq documentId) with
  | true =>
    obtain ⟨hok, hholds⟩ := hfresh.ingest hlog hreplay hres hsafe hsync later
    obtain ⟨hok', hholds'⟩ := hfresh'.ingest hlog hreplay hres hsafe hsync' later'
    obtain ⟨hids, hvisible, hcursor, hlamport⟩ := hholds.same hholds'
    exact ⟨hids, hvisible, hcursor, hlamport, hok, hok'⟩
  | false =>
    obtain ⟨hok, hholds⟩ := ingest_unsafe hfresh later hsafe _ hsync.latest
      (fun b hb => (hsync.bootstrap b hb).1)
    obtain ⟨hok', hholds'⟩ := ingest_unsafe hfresh' later' hsafe _ hsync'.latest
      (fun b hb => (hsync'.bootstrap b hb).1)
    obtain ⟨hids, hvisible, hcursor, hlamport⟩ := hholds.same hholds'
    exact ⟨hids, hvisible, hcursor, hlamport, hok, hok'⟩

/-- The letter that client A types at the start of a document of `n` letters. -/
def letterAtStart (n : Nat) : InsertOperation :=
  ⟨makeOperationId (js "A") (n + 1), js "A", n + 1, n + 1, ROOT_ID, js "a"⟩

theorem valid_letterAtStart {n : Nat} (hn : (n : Int) < MAX_SAFE_INTEGER) :
    ValidOperation (.insert (letterAtStart n)) := by
  have hbounds : (1 : Int) ≤ n + 1 ∧ (n : Int) + 1 ≤ MAX_SAFE_INTEGER := by omega
  refine validateOperation_iff.2 ⟨show trim (js "A") ≠ [] by decide, hbounds, hbounds, rfl,
    show js "a" ≠ [] by decide, fun hself => ?_⟩
  -- an anchor names another operation: `ROOT` has no colon
  have hcolon := colon_mem_makeOperationId (js "A") (n + 1)
  rw [show makeOperationId (js "A") (n + 1) = ROOT_ID from hself.symm] at hcolon
  exact absurd hcolon (by decide)

/-- The rows of a document hold what the replay of its log knows. -/
theorem findOperation_new {s : OperationStore} (hlog : s.LogInv)
    {documentId : JsString} {live : TextReplica} {operation : TextOperation}
    (hreplay : TextReplica.empty.applyAll ((s.log documentId).map (·.operation)) = (live, .ok ()))
    (hnew : ∀ op ∈ live.ops, op.opId ≠ operation.opId) :
    s.findOperation documentId operation.opId = none := by
  have hknown := (applyAll_spec ((s.log documentId).map (·.operation)) Inv.empty).2.2
  rw [hreplay] at hknown
  refine OperationStore.findOperation_none.2 fun row hrow hdocument heq => ?_
  refine hnew row.operation ?_ ((hlog.opId row hrow).symm.trans heq)
  rw [hknown rfl]
  exact Or.inr (List.mem_map.2 ⟨_, OperationStore.mem_log.2 ⟨row, hrow, hdocument, rfl⟩, rfl⟩)

theorem applyAll_snoc {ops : List TextOperation} {op : TextOperation} {r live live' : TextReplica}
    {status : ApplyStatus} (h : r.applyAll ops = (live, .ok ()))
    (happly : live.apply op = (live', .ok status)) :
    r.applyAll (ops ++ [op]) = (live', .ok ()) := by
  simp only [applyAll_append h, applyAll, happly]

/-- Stores whose log is as long as one likes, and replays to a resolved replica. -/
theorem exists_letters (n : Nat) (hn : (n : Int) ≤ MAX_SAFE_INTEGER) :
    ∃ (s : OperationStore) (live : TextReplica) (elements : List VisibleElement), s.Reachable ∧
      s.snapshots.get? (js "d") = none ∧ (s.log (js "d")).length = n ∧
      TextReplica.empty.applyAll ((s.log (js "d")).map (·.operation)) = (live, .ok ()) ∧
      Editable live (js "A") ⟨n + 1, n⟩ elements := by
  induction n with
  | zero =>
    refine ⟨_, _, [], .empty, rfl, rfl, rfl, ⟨Inv.empty, rfl, ⟨fun op hop => ?_, fun op hop => ?_⟩, rfl⟩⟩
      <;> rw [ops_empty] at hop <;> cases hop
  | succ n ih =>
    obtain ⟨s, live, elements, hs, hcached, hlength, hreplay, he⟩ := ih (by omega)
    have hv := @valid_letterAtStart n (by omega)
    have hnew := he.ahead.new he.inv hv rfl rfl
    obtain ⟨live', happly, hinv, hres, hops, hvisible⟩ := @Inv.apply_insert live he.inv
      he.resolved _ hv hnew (fun op hop => Int.lt_add_one_of_le (he.ahead.lamport op hop)) [] elements
      he.visible rfl
    have happend := OperationStore.appendOperation_new hv (findOperation_new hs.inv.1 hreplay hnew)
    refine ⟨_, live', _, hs.append _ _ happend, hcached, ?_, ?_,
      ⟨hinv, hres, he.ahead.next hops rfl rfl, hvisible⟩⟩
    · rw [OperationStore.log_insertOperation, if_pos rfl, List.length_append, hlength,
        List.length_singleton]
    · rw [OperationStore.log_insertOperation, if_pos rfl, List.map_append]
      exact applyAll_snoc hreplay happly

/-- A log of a thousand letters is answered with a snapshot to the one client, and with all of its
operations to the other. -/
theorem bootstrap_equals_history_threshold :
    let env : Surroundings := ⟨js "now", 0, js "C", true⟩
    ∃ (s : OperationStore) (c : LocalDocumentController) (db : Database), s.Reachable ∧
      create Database.empty ⟨some (js "d"), none, none⟩ env = (.ok c, db) ∧
      let capable := (s.buildSyncMessage true (js "d") 0 true).1
      let plain := (s.buildSyncMessage true (js "d") 0 false).1
      capable.snapshotBootstrap.isSome = true ∧ capable.operations = [] ∧
      plain.snapshotBootstrap = none ∧ plain.operations.length = SNAPSHOT_OPERATION_THRESHOLD ∧
      (c.ingestSyncMessage db env capable).1.replica.getVisibleElements =
        (c.ingestSyncMessage db env plain).1.replica.getVisibleElements := by
  intro env
  obtain ⟨s, live, elements, hs, hcached, hlength, hreplay, he⟩ :=
    exists_letters SNAPSHOT_OPERATION_THRESHOLD (by decide)
  obtain ⟨snapshot, hexport, -⟩ := exportSnapshot_coherent he.inv he.resolved
  have hprefix : exportPrefixSnapshot (s.log (js "d")) = .ok snapshot := by
    unfold exportPrefixSnapshot
    rw [hreplay]
    simp only [he.resolved, List.length_nil, gt_iff_lt, lt_irrefl, if_false, hexport]
  have hcapable := hs.inv.1.bootstraps hcached (le_of_eq hlength.symm) hprefix
  have hplain : (s.buildSyncMessage true (js "d") 0 false).1 =
      s.fullHistorySync (js "d") 0 (s.getLatestServerSeq (js "d")) := rfl
  have hwhole : s.loadOperationsAfter (js "d") 0 (s.getLatestServerSeq (js "d")) = s.log (js "d") := by
    rw [OperationStore.loadOperationsAfter_eq]
    exact between_eq_self fun item hi => ⟨(hs.inv.1.log_bounds hi).1, (s.latest_spec _).1 item hi⟩
  have hlive : replay ((s.log (js "d")).map (·.operation)) = .ok live := by
    unfold replay
    rw [hreplay]
  have hcreate : create Database.empty ⟨some (js "d"), none, none⟩ env = (.ok _, _) := rfl
  have h := bootstrap_equals_history hs (js "d") hlive he.resolved true true hcreate rfl hcreate rfl
    env env
  refine ⟨s, _, _, hs, hcreate, ?_, ?_, ?_, ?_, h.2.1⟩
  · rw [hcapable]
    rfl
  · rw [hcapable]
  · rw [hplain]
    rfl
  · rw [hplain]
    exact (congrArg List.length hwhole).trans hlength

end LocalDocumentController

end LocalFirst
