import LocalFirst.Sync.SystemInvariant

/-!
# No local edit is lost, and none is sequenced twice

* `Page.commits` — the operations that an event has `persistLocalTextEdit` commit.
* `Page.Stores.acknowledged` — an outbox row goes only when an equal operation of the server is
  ingested.
* `Held` — an operation is in the outbox or in the log; every event keeps it.
* `no_edit_lost` — all of it, in every run.
-/

set_option autoImplicit false

namespace LocalFirst

/-! ## The outbox -/

namespace Database

variable {db db' : Database}

/-- The operation waits in the outbox of the document. -/
def InOutbox (db : Database) (documentId : JsString) (op : TextOperation) : Prop :=
  (∃ marker, db.outbox.get? op.opId = some marker ∧ marker.documentId = documentId) ∧
    ∃ row, db.operations.get? op.opId = some row ∧ row.documentId = documentId ∧ row.operation = op

/-- Every outbox row marks an operation of its document. -/
def Marked (db : Database) : Prop :=
  ∀ k marker, db.outbox.get? k = some marker →
    ∃ row, db.operations.get? k = some row ∧ row.documentId = marker.documentId

theorem Keeps.inOutbox (h : db.Keeps db') {d : JsString} {op : TextOperation} :
    db'.InOutbox d op ↔ db.InOutbox d op := by
  unfold InOutbox
  rw [h.operations, h.outbox]

theorem Edited.inOutbox {d timestamp : JsString} {ops : List TextOperation} {createdAt : Int}
    (h : Edited db db' d ops timestamp createdAt) {op : TextOperation} (hop : op ∈ ops) :
    db'.InOutbox d op :=
  ⟨⟨_, (h.outbox _ _).2 (Or.inl ⟨op, hop, rfl, rfl⟩), rfl⟩,
    _, (h.operations _ _).2 (Or.inl ⟨op, hop, rfl, rfl⟩), rfl, rfl⟩

theorem Edited.marked {d timestamp : JsString} {ops : List TextOperation} {createdAt : Int}
    (h : Edited db db' d ops timestamp createdAt) (hm : db.Marked) : db'.Marked := by
  intro k marker hk
  rcases (h.outbox k marker).1 hk with ⟨op, hop, rfl, rfl⟩ | hk
  · exact ⟨_, (h.operations _ _).2 (Or.inl ⟨op, hop, rfl, rfl⟩), rfl⟩
  · obtain ⟨row, hrow, hd⟩ := hm k marker hk
    exact ⟨row, (h.operations _ _).2 (Or.inr hrow), hd⟩

end Database

/-! ## What an event of a page does to the outbox -/

namespace Page

variable {segmentGraphemes : JsString → List JsString} {page page' : Page} {e : PageEvent}

/-- The operations that an event has `persistLocalTextEdit` commit, with their document. -/
def commits (segmentGraphemes : JsString → List JsString) (page : Page) :
    PageEvent → List (JsString × TextOperation)
  | .edit env nextText =>
    match page.controller with
    | none => []
    | some c =>
      match c.replica.getVisibleElements with
      | .error _ => []
      | .ok elements =>
        match computeLocalTextEdit segmentGraphemes elements nextText with
        | none => []
        | some edit =>
          match page.db.persistLocalTextEdit c.documentId edit env.now env.dateNow with
          | .error _ => []
          | .ok (ops, _) => ops.map (c.documentId, ·)
  | _ => []

/-- The tables after an edit whose operations have been committed. -/
theorem edit_checkpointed {env : Surroundings} {nextText : JsString} {c : LocalDocumentController}
    {elements : List VisibleElement} {edit : LocalTextEdit} {ops : List TextOperation} {db : Database}
    (hc : page.controller = some c) (hv : c.replica.getVisibleElements = .ok elements)
    (hedit : computeLocalTextEdit segmentGraphemes elements nextText = some edit)
    (hp : page.db.persistLocalTextEdit c.documentId edit env.now env.dateNow = .ok (ops, db)) :
    db.Checkpointed (page.edit segmentGraphemes env nextText).db := by
  have hrun : db.Checkpointed (c.replaceTextNow segmentGraphemes page.db env nextText).2.1 := by
    unfold LocalDocumentController.replaceTextNow
    simp only [hv, hedit, hp]
    split
    · exact .refl db
    · exact (LocalDocumentController.finish_spec _ _ _).2.2.2
  unfold Page.edit
  simp only [hc]
  split
  all_goals
    rename_i heq
    rw [heq] at hrun
    exact hrun

/-- The operations of an edit that is committed. -/
theorem commits_eq {env : Surroundings} {nextText : JsString} {c : LocalDocumentController}
    {elements : List VisibleElement} {edit : LocalTextEdit} {ops : List TextOperation} {db : Database}
    (hc : page.controller = some c) (hv : c.replica.getVisibleElements = .ok elements)
    (hedit : computeLocalTextEdit segmentGraphemes elements nextText = some edit)
    (hp : page.db.persistLocalTextEdit c.documentId edit env.now env.dateNow = .ok (ops, db)) :
    page.commits segmentGraphemes (.edit env nextText) = ops.map (c.documentId, ·) := by
  unfold commits
  simp only [hc, hv, hedit, hp]

/-- What is committed comes from an edit of the document that the user sees, and is in the tables
after it. -/
theorem commits_spec {d : JsString} {op : TextOperation}
    (h : (d, op) ∈ page.commits segmentGraphemes e) :
    ∃ c elements nextText edit ops db timestamp createdAt, page.controller = some c ∧
      c.documentId = d ∧ c.replica.getVisibleElements = .ok elements ∧
      computeLocalTextEdit segmentGraphemes elements nextText = some edit ∧
      Database.EditOperations edit ops ∧
      Database.Edited page.db db d ops timestamp createdAt ∧
      db.Checkpointed (page.handle segmentGraphemes e).db ∧
      page.commits segmentGraphemes e = ops.map (d, ·) := by
  have hmem := h
  unfold commits at h
  split at h
  · rename_i env nextText
    split at h
    · cases h
    · rename_i c hc
      split at h
      · cases h
      · rename_i elements hv
        split at h
        · cases h
        · rename_i edit hedit
          split at h
          · cases h
          · rename_i ops db hp
            have hcommits := commits_eq hc hv hedit hp
            obtain ⟨op', hop, heq⟩ := List.mem_map.1 h
            cases heq
            obtain ⟨hops, ⟨rfl, -⟩ | ⟨-, hedited⟩⟩ := Database.persistLocalTextEdit_spec hp
            · cases hop
            · exact ⟨c, elements, nextText, edit, ops, db, _, _, hc, rfl, hv, hedit, hops, hedited,
                edit_checkpointed hc hv hedit hp, hcommits⟩
  · cases h

/-- What is committed is in the outbox. -/
theorem commits_inOutbox {d : JsString} {op : TextOperation}
    (h : (d, op) ∈ page.commits segmentGraphemes e) :
    (page.handle segmentGraphemes e).db.InOutbox d op := by
  obtain ⟨c, elements, nextText, edit, ops, db, timestamp, createdAt, -, -, -, -, -, hedited, hdb,
    hcommits⟩ := commits_spec h
  rw [hcommits] at h
  obtain ⟨op', hop, heq⟩ := List.mem_map.1 h
  cases heq
  exact hdb.keeps.inOutbox.2 (hedited.inOutbox hop)

/-- The operations table keeps its rows. -/
theorem Stores.operations_kept (h : Stores segmentGraphemes page page' e) {k : JsString}
    {row : OperationRecord} (hk : page.db.operations.get? k = some row) :
    page'.db.operations.get? k = some row := by
  cases h with
  | kept hkeeps hmeta => rw [hkeeps.operations]; exact hk
  | edited env nextText c elements edit ops db he hc hvisible hedit hp hdb =>
    rw [hdb.keeps.operations]
    obtain ⟨-, ⟨-, rfl⟩ | ⟨-, hedited⟩⟩ := Database.persistLocalTextEdit_spec hp
    · exact hk
    · exact (hedited.operations k row).2 (Or.inr hk)
  | delivered env c socket message d he hc hh hd hdelivers =>
    rcases hdelivers.spec with ⟨-, -, committed, -, hin, hdb⟩ | ⟨bootstrap, -, hin⟩
    · rw [hdb.keeps.operations]
      exact (hin.operations k row).2 (Or.inl hk)
    · exact (hin.operations k row).2 (Or.inr hk)

/-- The event ingests an item that a message brings: the transaction that does so commits. -/
def Ingests (page page' : Page) (e : PageEvent) (received : SocketId × ServerMessage)
    (item : SequencedOperation) : Prop :=
  ∃ env c d db, e = .ingest (.runs env) ∧ page.controller = some c ∧
    page.sync.handling = some ⟨received.1, received.2, .ingesting⟩ ∧
    delivery received.2 = some d ∧ item ∈ d.items ∧
    page.db.persistServerOperations c.documentId d.items d.confirmed env.now = .ok db ∧
    db.Checkpointed page'.db

/-- **An outbox row goes only when an equal operation is ingested.** -/
theorem Stores.acknowledged (h : Stores segmentGraphemes page page' e) (hmarked : page.db.Marked)
    {k : JsString} {marker : OutboxRecord} (hk : page.db.outbox.get? k = some marker) :
    page'.db.outbox.get? k = some marker ∨
      ∃ received item row, Ingests page page' e received item ∧ item.operation.opId = k ∧
        page.db.operations.get? k = some row ∧ row.operation = item.operation ∧
        ∀ c, page.controller = some c → marker.documentId = c.documentId := by
  cases h with
  | kept hkeeps hmeta => rw [hkeeps.outbox]; exact Or.inl hk
  | edited env nextText c elements edit ops db he hc hvisible hedit hp hdb =>
    rw [hdb.keeps.outbox]
    obtain ⟨-, ⟨-, rfl⟩ | ⟨-, hedited⟩⟩ := Database.persistLocalTextEdit_spec hp
    · exact Or.inl hk
    · exact Or.inl ((hedited.outbox k marker).2 (Or.inr hk))
  | delivered env c socket message d he hc hh hd hdelivers =>
    rcases hdelivers.spec with ⟨-, hok, committed, hp, hin, hdb⟩ | ⟨bootstrap, -, hin⟩
    · rw [hdb.keeps.outbox, hin.outbox]
      split
      · rename_i hmem
        obtain ⟨op, hop, hid⟩ := List.mem_map.1 hmem
        obtain ⟨item, hi, rfl⟩ := List.mem_map.1 hop
        obtain ⟨row, hrow, -⟩ := hmarked k marker hk
        refine Or.inr ⟨(socket, message), item, row, ⟨env, c, d, committed, he, hc, hh, hd, hi, hp,
          hdb⟩, hid, hrow, (hok.stored item hi row (by rw [hid]; exact hrow)).2, fun c' hc' => ?_⟩
        obtain rfl : c = c' := Option.some.inj (hc.symm.trans hc')
        exact hok.marked item hi marker (by rw [hid]; exact hk)
      · exact Or.inl hk
    · rw [hin.outbox]
      exact Or.inl hk

theorem Stores.marked (h : Stores segmentGraphemes page page' e) (hmarked : page.db.Marked) :
    page'.db.Marked := by
  have hkept : ∀ k marker, page.db.outbox.get? k = some marker →
      ∃ row, page'.db.operations.get? k = some row ∧ row.documentId = marker.documentId := by
    intro k marker hk
    obtain ⟨row, hrow, hd⟩ := hmarked k marker hk
    exact ⟨row, h.operations_kept hrow, hd⟩
  intro k marker hk
  cases h with
  | kept hkeeps hmeta =>
    rw [hkeeps.outbox] at hk
    exact hkept k marker hk
  | edited env nextText c elements edit ops db he hc hvisible hedit hp hdb =>
    rw [hdb.keeps.outbox] at hk
    rw [hdb.keeps.operations]
    obtain ⟨-, ⟨-, rfl⟩ | ⟨-, hedited⟩⟩ := Database.persistLocalTextEdit_spec hp
    · exact hmarked k marker hk
    · exact hedited.marked hmarked k marker hk
  | delivered env c socket message d he hc hh hd hdelivers =>
    rcases hdelivers.spec with ⟨-, hok, committed, hp, hin, hdb⟩ | ⟨bootstrap, -, hin⟩
    · rw [hdb.keeps.outbox, hin.outbox] at hk
      split at hk
      · cases hk
      · exact hkept k marker hk
    · rw [hin.outbox] at hk
      exact hkept k marker hk

end Page

namespace System

variable {segmentGraphemes : JsString → List JsString} {w : System}

/-! ## Operations that are held -/

theorem run_marked : ∀ {w : System} (es : List SystemEvent), (∀ i, (w.pages i).db.Marked) →
    ∀ i, ((w.run segmentGraphemes es).pages i).db.Marked
  | _, [], h => h
  | w, e :: es, h => by
    refine run_marked es fun i => ?_
    rcases @handle_page segmentGraphemes w e i with heq | ⟨pe, -, -, heq⟩ | ⟨k, m, -, -, heq⟩
    · rw [heq]
      exact h i
    · rw [heq]
      exact (Page.handle_stores (w.pages i) pe).marked (h i)
    · rw [heq]
      exact h i

/-- What a page ingests was sent by the server, and is in the log. -/
theorem Inv.ingests (h : Inv w) {i : Nat} {page' : Page} {pe : PageEvent}
    {received : SocketId × ServerMessage} {item : SequencedOperation}
    (hin : Page.Ingests (w.pages i) page' pe received item) :
    received ∈ w.server.sent ∧ ∃ c, (w.pages i).controller = some c ∧
      item ∈ w.server.store.log c.documentId := by
  obtain ⟨env, c, d, db, -, hc, hh, hd, hi, -⟩ := hin
  have hsent : received ∈ w.server.sent := (h.received i _ (Page.received_handler hh)).1
  obtain ⟨d', hd', hdd⟩ := (h.pages i).handling _ hh
  obtain rfl : d = d' := Option.some.inj (hd.symm.trans hd')
  refine ⟨hsent, c, hc, ?_⟩
  rw [← ((h.pages i).wired c hc).1, ← hdd]
  exact (h.server.sent _ hsent).2.items hd item hi

/-- The operation is stored in the page, and is in the outbox or in the log. -/
structure Held (w : System) (i : Nat) (d : JsString) (op : TextOperation) : Prop where
  stored : ∃ row, (w.pages i).db.operations.get? op.opId = some row ∧ row.documentId = d ∧
    row.operation = op
  held : (∃ marker, (w.pages i).db.outbox.get? op.opId = some marker ∧ marker.documentId = d) ∨
    ∃ item ∈ w.server.store.log d, item.operation = op

/-- **Every event keeps what is held.** -/
theorem Held.handle {i : Nat} {d : JsString} {op : TextOperation} (hheld : Held w i d op) (h : Inv w)
    (hmarked : (w.pages i).db.Marked) (e : SystemEvent) :
    Held (w.handle segmentGraphemes e) i d op := by
  obtain ⟨⟨row, hrow, hd, ho⟩, hheld⟩ := hheld
  have hlog : (∃ item ∈ w.server.store.log d, item.operation = op) →
      ∃ item ∈ (w.handle segmentGraphemes e).server.store.log d, item.operation = op :=
    fun ⟨item, hi, hop⟩ => ⟨item, h.log_kept e hi, hop⟩
  rcases @handle_page segmentGraphemes w e i with heq | ⟨pe, -, -, heq⟩ | ⟨k, m, -, -, heq⟩
  · rw [← heq] at hrow hheld
    exact ⟨⟨row, hrow, hd, ho⟩, hheld.imp_right hlog⟩
  · have hstores := @Page.handle_stores segmentGraphemes (w.pages i) pe
    rw [← heq] at hstores
    refine ⟨⟨row, hstores.operations_kept hrow, hd, ho⟩, ?_⟩
    rcases hheld with ⟨marker, hm, hmd⟩ | hheld
    · rcases hstores.acknowledged hmarked hm with
        hkept | ⟨received, item, row', hin, hid, hrow', hequal, hdoc⟩
      · exact Or.inl ⟨marker, hkept, hmd⟩
      · obtain ⟨-, c, hc, hi⟩ := h.ingests hin
        obtain rfl : row = row' := Option.some.inj (hrow.symm.trans hrow')
        rw [← hdoc c hc, hmd] at hi
        exact Or.inr (hlog ⟨item, hi, hequal.symm.trans ho⟩)
    · exact Or.inr (hlog hheld)
  · refine ⟨⟨row, ?_, hd, ho⟩, ?_⟩
    · rw [heq]
      exact hrow
    · rw [heq]
      exact hheld.imp_right hlog

theorem Held.run {i : Nat} {d : JsString} {op : TextOperation} :
    ∀ {w : System} (es : List SystemEvent), Inv w → (∀ i, (w.pages i).db.Marked) →
      Held w i d op → Held (w.run segmentGraphemes es) i d op
  | _, [], _, _, hheld => hheld
  | w, e :: es, h, hmarked, hheld =>
    (hheld.handle h (hmarked i) e).run es (h.handle e) (@run_marked segmentGraphemes w [e] hmarked)

end System

/-! ## Submitting again -/

namespace SyncServer

variable {w : SyncServer}

/-- What is in the log is found there. -/
theorem findOperation_of_mem {s : OperationStore} (h : s.LogInv) {d : JsString}
    {item : SequencedOperation} (hi : item ∈ s.log d) :
    ∃ row, s.findOperation d item.operation.opId = some row ∧
      OperationStore.mapOperationRow row = item := by
  obtain ⟨row, hrow, hd, rfl⟩ := OperationStore.mem_log.1 hi
  cases hfind : s.findOperation d (OperationStore.mapOperationRow row).operation.opId with
  | none => exact absurd (h.opId row hrow) (OperationStore.findOperation_none.1 hfind row hrow hd)
  | some row' =>
    obtain ⟨hmem, hd', hid⟩ := OperationStore.findOperation_some hfind
    obtain rfl := h.unique row' hmem row hrow (hd'.trans hd.symm) (hid.trans (h.opId row hrow).symm)
    exact ⟨row', rfl, rfl⟩

/-- **An operation that is in the log is answered with its number.** -/
theorem Inv.answers (h : Inv w) {k : SocketId} {session : SocketSession} {env : ServerEnv}
    {d : JsString} {item : SequencedOperation} (hi : item ∈ w.store.log d)
    (hsession : w.sessions.get? k = some session) (hdocument : session.documentId = some d)
    (hclient : session.clientId = some item.operation.clientId)
    (hschema : submitOperationMessageSchema ⟨d, item.operation⟩ = true)
    (henv : env.appendThrows = none) :
    w.handle (.message k (.message (.submitOperation ⟨d, item.operation⟩)) env) =
      w.withSent (w.addressed k (.operation ⟨d, item.serverSeq, item.operation⟩)) := by
  obtain ⟨row, hfind, hrow⟩ := findOperation_of_mem h.log hi
  have hequal : operationsEqual row.operation item.operation = true := by
    rw [operationsEqual_iff, ← hrow]
    rfl
  have happend : w.store.appendOperation d item.operation = .ok (⟨item.serverSeq, false⟩, w.store) := by
    unfold OperationStore.appendOperation
    rw [show validateOperation item.operation = .ok () from h.log.log_valid hi]
    simp only [hfind, hequal, not_true_eq_false, if_false]
    rw [← hrow]
    rfl
  have haccept : acceptOperation env w k session item.operation =
      (w.sendJson k (.operation ⟨d, item.serverSeq, item.operation⟩), .ok ()) := by
    rw [acceptOperation_plain]
    rw [hdocument]
    simp only [show validateOperation item.operation = .ok () from h.log.log_valid hi, henv, happend]
    rfl
  have hdispatch : dispatch env w k session (.submitOperation ⟨d, item.operation⟩) =
      (w.sendJson k (.operation ⟨d, item.serverSeq, item.operation⟩), .ok ()) := by
    unfold dispatch
    simp only [hdocument, hclient, ne_eq, not_true_eq_false, if_false]
    exact haccept
  simp only [SyncServer.handle]
  unfold handleMessage parseClientMessage
  rw [hsession]
  simp only [clientMessageSchema, hschema, if_true, hdispatch]
  exact sendJson_eq w k _

end SyncServer

namespace System

variable {segmentGraphemes : JsString → List JsString}

/-- What an event commits is held after it. -/
theorem Inv.commits {w : System} {i : Nat} {e : PageEvent} {d : JsString} {op : TextOperation}
    (h : (d, op) ∈ (w.pages i).commits segmentGraphemes e) :
    Held (w.handle segmentGraphemes (.page i e)) i d op := by
  have hin := Page.commits_inOutbox h
  have hpage : (w.handle segmentGraphemes (.page i e)).pages i =
      (w.pages i).handle segmentGraphemes e := by
    cases e with
    | edit env nextText =>
      simp only [System.handle, allows, if_true, claim_pages, setPage_pages]
    | _ => cases h
  rw [← hpage] at hin
  exact ⟨hin.2, Or.inl hin.1⟩

/-- **No local edit is lost, and none is sequenced twice.**  In every run:
an operation that `persistLocalTextEdit` has committed is from then on in the outbox of its
document or in the log; an outbox row goes only when an equal operation, which the server has
sent and which is in the log, is ingested; no two rows of the operations table of the server
have the same document and operation; and an operation of the log that is submitted again is
answered with its number. -/
theorem no_edit_lost {store : OperationStore} (hstore : store.Reachable) (es : List SystemEvent) :
    let w := (System.start store).run segmentGraphemes es
    (∀ before i e after, es = before ++ .page i e :: after → ∀ d op,
      (d, op) ∈ (((System.start store).run segmentGraphemes before).pages i).commits
        segmentGraphemes e →
      (w.pages i).db.InOutbox d op ∨ ∃ item ∈ w.server.store.log d, item.operation = op) ∧
    (∀ e i k marker, (w.pages i).db.outbox.get? k = some marker →
      ((w.handle segmentGraphemes e).pages i).db.outbox.get? k = none →
      ∃ pe received item row, e = .page i pe ∧
        Page.Ingests (w.pages i) ((w.handle segmentGraphemes e).pages i) pe received item ∧
        received ∈ w.server.sent ∧ item ∈ w.server.store.log marker.documentId ∧
        (w.pages i).db.operations.get? k = some row ∧ row.operation = item.operation) ∧
    (w.server.store.operations.map fun row => (row.documentId, row.opId)).Nodup ∧
    (∀ k session env d item, item ∈ w.server.store.log d →
      w.server.sessions.get? k = some session → session.documentId = some d →
      session.clientId = some item.operation.clientId → w.server.readyState k = .opened →
      submitOperationMessageSchema ⟨d, item.operation⟩ = true → env.appendThrows = none →
      let server' := w.server.handle
        (.message k (.message (.submitOperation ⟨d, item.operation⟩)) env)
      server'.store = w.server.store ∧ server'.sent =
        w.server.sent ++ [(k, .operation ⟨d, item.serverSeq, item.operation⟩)]) := by
  intro w
  have h : Inv w := run_inv hstore es
  have hempty : ∀ i, ((System.start store).pages i).db.Marked := by
    intro i k marker hk
    cases hk
  have hmarked : ∀ i, (w.pages i).db.Marked := run_marked es hempty
  refine ⟨fun before i e after hes d op hop => ?_, fun e i k marker hk hgone => ?_, ?_,
    fun k session env d item hi hsession hdocument hclient hopen hschema henv => ?_⟩
  · have hbefore := @run_inv segmentGraphemes _ hstore before
    have hmarked := @run_marked segmentGraphemes _ before hempty
    have hend : w = (((System.start store).run segmentGraphemes before).handle segmentGraphemes
        (.page i e)).run segmentGraphemes after := by
      show (System.start store).run segmentGraphemes es = _
      rw [hes, run_append]
      rfl
    have hheld : Held w i d op := by
      rw [hend]
      exact (Inv.commits hop).run after (hbefore.handle _) (run_marked [SystemEvent.page i e] hmarked)
    obtain ⟨hstored, hmarker | hlog⟩ := hheld
    · exact Or.inl ⟨hmarker, hstored⟩
    · exact Or.inr hlog
  · rcases @handle_page segmentGraphemes w e i with heq | ⟨pe, he, -, heq⟩ | ⟨k', m, -, -, heq⟩
    · rw [heq, hk] at hgone
      cases hgone
    · have hstores := @Page.handle_stores segmentGraphemes (w.pages i) pe
      rw [← heq] at hstores
      rcases hstores.acknowledged (hmarked i) hk with
        hkept | ⟨received, item, row, hin, hid, hrow, hequal, hdoc⟩
      · rw [hkept] at hgone
        cases hgone
      · obtain ⟨hsent, c, hc, hi⟩ := h.ingests hin
        rw [← hdoc c hc] at hi
        exact ⟨pe, received, item, row, he, hin, hsent, hi, hrow, hequal⟩
    · rw [heq, hk] at hgone
      cases hgone
  · exact h.server.log.rows_nodup
  · rw [h.server.answers hi hsession hdocument hclient hschema henv]
    refine ⟨rfl, ?_⟩
    unfold SyncServer.addressed
    rw [if_pos hopen]
    rfl

/-- An operation that was typed offline is flushed; the server appends it, and its message is about
to be ingested. -/
theorem no_edit_lost_flushed :
    let segment : JsString → List JsString := fun text => text.map ([·])
    let env : Surroundings := ⟨js "now", 0, js "A", true⟩
    let serverEnv : ServerEnv := ⟨none, none, none, true, id⟩
    let typed : TextOperation := .insert ⟨js "A:1", js "A", 1, 1, ROOT_ID, js "a"⟩
    let before : List SystemEvent := [.page 0 (.opens ⟨some (js "d"), none, none⟩ env none)]
    let after : List SystemEvent :=
      [.page 0 .submit, .page 0 (.connect 0), .connection 0 5, .page 0 (.socketOpened 0),
        .page 0 (.readLastServerSeq 0), .page 0 (.resumeJoin 0), .page 0 (.readEligible 0),
        .page 0 (.resumeJoin 0), .toServer 0 serverEnv, .toPage 0, .toPage 0, .page 0 .handleNext,
        .page 0 (.ingest (.runs env)), .page 0 .resumeHandler, .page 0 (.loadPending none),
        .page 0 .resumeHandler, .toServer 0 serverEnv, .page 0 .resumeHandler,
        .page 0 (.loadPending none), .page 0 .resumeHandler, .toPage 0, .page 0 .handleNext,
        .page 0 .handleNext]
    let w := (System.start .empty).run segment (before ++ .page 0 (.edit env (js "a")) :: after)
    let w' := w.handle segment (.page 0 (.ingest (.runs env)))
    ((w.pages 0).db.InOutbox (js "d") typed ∨
      ∃ item ∈ w.server.store.log (js "d"), item.operation = typed) ∧
    (∃ received item, Page.Ingests (w.pages 0) (w'.pages 0) (.ingest (.runs env)) received item ∧
      item ∈ w.server.store.log (js "d")) ∧
    (w.server.store.operations.map fun row => (row.documentId, row.opId)).Nodup ∧
    (w.server.handle (.message 0 (.message (.submitOperation ⟨js "d", typed⟩)) serverEnv)).sent =
      w.server.sent ++ [(0, .operation ⟨js "d", 1, typed⟩)] := by
  intro segment env serverEnv typed before after
  obtain ⟨hheld, hgone, hnodup, hanswers⟩ := @no_edit_lost segment _ .empty
    (before ++ .page 0 (.edit env (js "a")) :: after)
  have hcommits : (js "d", typed) ∈ (((System.start .empty).run segment before).pages 0).commits
      segment (.edit env (js "a")) := by
    decide +kernel
  refine ⟨hheld before 0 (.edit env (js "a")) after rfl (js "d") typed hcommits, ?_, hnodup, ?_⟩
  · obtain ⟨pe, received, item, row, he, hin, -, hi, -⟩ := hgone (.page 0 (.ingest (.runs env))) 0
      (js "A:1") ⟨js "A:1", js "d", 0⟩ (by decide +kernel) (by decide +kernel)
    obtain ⟨-, rfl⟩ := SystemEvent.page.inj he
    exact ⟨received, item, hin, hi⟩
  · exact (hanswers 0 ⟨5, some (js "d"), some (js "A"), none⟩ serverEnv (js "d") ⟨1, typed⟩
      (by decide +kernel) (by decide +kernel) rfl rfl (by decide +kernel) (by decide +kernel) rfl).2

end System

end LocalFirst
