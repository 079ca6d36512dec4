import LocalFirst.Sync.CursorCompleteness
import LocalFirst.Sync.DependencyOrder

/-!
# What quiet pages show

A page is quiet when its cursor is at the end of the log and nothing waits in its outbox.

* `Mirrors` — the live replica holds all that the tables stand for, unless that is incoherent; every
  event of a page keeps it.
* `replica_mirrors_iff` — in every state, exactly when the live replica holds what the tables stand for.
* `Known` — what the tables stand for is in the log or in the outbox.
* `quiescent_convergence` — quiet pages store the same operations and show the same text, that of the
  replay of the log.
-/

set_option autoImplicit false

namespace LocalFirst

open TextReplica

/-! ## The live replica and the tables -/

namespace LocalDocumentController

variable {segmentGraphemes : JsString → List JsString} {c : LocalDocumentController}
  {db db' : Database} {env : Surroundings}

/-- The replica knows nothing but what the tables stand for, and all of it when it is coherent. -/
structure Mirrors (c : LocalDocumentController) (db : Database) : Prop where
  backed : Backed c db
  all : Coherent (db.documentOps c.documentId) → db.documentOps c.documentId ⊆ c.replica.ops

theorem Live.mirrors (h : Live c db) : Mirrors c db :=
  ⟨⟨h.inv, h.ops.subset⟩, fun _ => h.ops.symm.subset⟩

/-- **Operations that have been stored are applied.**  The replica throws at none of them when what is
stored is coherent. -/
theorem Mirrors.applyAll (h : Mirrors c db) {ops : List TextOperation}
    (hbase : db'.loadServerBaseline c.documentId = db.loadServerBaseline c.documentId)
    (hstored : db'.storedOps c.documentId = db.storedOps c.documentId ∪ {op | op ∈ ops}) :
    Mirrors (c.withReplica (c.replica.applyAll ops).1) db' := by
  have hdoc := Database.documentOps_of_stored hbase hstored
  have hsub : db.documentOps c.documentId ⊆ db'.documentOps c.documentId := by
    rw [hdoc]
    exact Set.subset_union_left
  refine ⟨h.backed.applyAll hsub fun op hop => ?_, fun hcoh => ?_⟩
  · rw [hdoc]
    exact Or.inr hop
  · have hcoh : Coherent (db'.documentOps c.documentId) := hcoh
    have hops : db.documentOps c.documentId ⊆ c.replica.ops := h.all (hcoh.anti hsub)
    obtain ⟨-, haccepts, hadded⟩ := applyAll_spec ops h.backed.inv
    have hok := haccepts.2 (hcoh.anti (by
      rw [hdoc]
      exact Set.union_subset_union_left _ h.backed.ops))
    show db'.documentOps c.documentId ⊆ (c.replica.applyAll ops).1.ops
    rw [hdoc, hadded hok]
    exact Set.union_subset_union_left _ hops

theorem Mirrors.finish (h : Mirrors c db) (env : Surroundings) :
    Mirrors (c.finish db env).1 (c.finish db env).2.1 := by
  obtain ⟨hreplica, hdocument, -, hdb⟩ := finish_spec c db env
  refine ⟨h.backed.finish env, ?_⟩
  rw [hreplica, hdocument, hdb.keeps.documentOps]
  exact h.all

theorem replaceTextNow_mirrors (h : Mirrors c db) (nextText : JsString) :
    Mirrors (c.replaceTextNow segmentGraphemes db env nextText).1
      (c.replaceTextNow segmentGraphemes db env nextText).2.1 := by
  unfold replaceTextNow
  split
  · exact h
  · split
    · exact h
    · split
      · exact h
      · rename_i ops db' hp
        have happlied : Mirrors (c.withReplica (c.replica.applyAll ops).1) db' := by
          obtain ⟨-, ⟨rfl, rfl⟩ | ⟨-, hedited⟩⟩ := Database.persistLocalTextEdit_spec hp
          · exact h
          · refine h.applyAll ?_ (Database.storedOps_of_added hedited.operations)
            unfold Database.loadServerBaseline
            rw [hedited.serverBaselines]
        split
        all_goals
          rename_i heq
          rw [heq] at happlied
        · exact happlied
        · exact happlied.finish env

theorem runDelivery_mirrors (h : Mirrors c db) (dl : Delivery) :
    Mirrors (Page.runDelivery c db env dl).1 (Page.runDelivery c db env dl).2.1 := by
  unfold Page.runDelivery
  split
  · rename_i bootstrap hb
    unfold installServerSnapshotNow
    split
    · exact h
    · rename_i replica db' hp
      obtain ⟨hbuilt, hin⟩ := Database.installServerBaseline_spec hp
      obtain ⟨-, -, -, restored, hr, ha⟩ := Database.bootstrapReplica_spec hbuilt
      obtain ⟨hinv, hops, -⟩ := TextReplica.fromSnapshot_inv hr
      obtain ⟨hinv', -, hops'⟩ := applyAll_spec (dl.items.map (·.operation)) hinv
      rw [ha] at hinv' hops'
      have heq : replica.ops = db'.documentOps c.documentId := by
        rw [hops' rfl, hops, hin.documentOps]
      exact ⟨⟨hinv', heq.subset⟩, fun _ => heq.symm.subset⟩
  · unfold applyServerOperationsNow
    split
    · exact h
    · rename_i db' hp
      obtain ⟨hok, hin⟩ := Database.persistServerOperations_spec.1 db' hp
      have happlied : Mirrors
          (c.withReplica (c.replica.applyAll (dl.items.map (·.operation))).1) db' := by
        refine h.applyAll ?_ (hin.storedOps hok)
        unfold Database.loadServerBaseline
        rw [hin.serverBaselines]
      split
      all_goals
        rename_i heq
        rw [heq] at happlied
      · exact happlied
      · exact happlied.finish env

end LocalDocumentController

namespace Page

variable {segmentGraphemes : JsString → List JsString} {page : Page} {e : PageEvent}

/-- **Every event of a page keeps the live replica and the tables together.** -/
theorem handle_mirrors (h : ∀ c, page.controller = some c → c.Mirrors page.db)
    {c : LocalDocumentController} (hc : (page.handle segmentGraphemes e).controller = some c) :
    c.Mirrors (page.handle segmentGraphemes e).db := by
  have hsame : ∀ {page' : Page}, page'.controller = page.controller → page'.db = page.db →
      page'.controller = some c → c.Mirrors page'.db := by
    intro page' heq hdb hc
    rw [hdb]
    exact h c (heq.symm.trans hc)
  cases e with
  | opens options env displayName =>
    simp only [handle, opens] at hc ⊢
    split at hc
    · cases hc
    · rename_i c' db hcreate
      cases hc
      exact (LocalDocumentController.create_live hcreate).1.mirrors
  | edit env nextText =>
    simp only [handle, edit] at hc ⊢
    split at hc
    · exact hsame rfl rfl hc
    · rename_i c' hc'
      have hrun := @LocalDocumentController.replaceTextNow_mirrors segmentGraphemes _ _ env (h c' hc')
        nextText
      split at hc
      all_goals
        rename_i heq
        rw [heq] at hrun
        cases hc
        exact hrun
  | submit =>
    simp only [handle, submit] at hc ⊢
    split at hc <;> exact hsame rfl rfl hc
  | ingest callback =>
    simp only [handle, ingest] at hc ⊢
    split at hc
    · rename_i c' k message hc' hh
      split at hc
      · exact hsame rfl rfl hc
      · exact hsame rfl rfl hc
      · exact hsame rfl rfl hc
      · rename_i dl env hd
        cases hc
        exact LocalDocumentController.runDelivery_mirrors (h c' hc') dl
    · exact hsame rfl rfl hc
  | loadPending aborted =>
    simp only [handle, loadPending] at hc ⊢
    split at hc <;> exact hsame rfl rfl hc
  | _ => exact hsame rfl rfl hc

end Page

namespace System

section

variable {segmentGraphemes : JsString → List JsString}

theorem run_mirrors : ∀ {w : System} (es : List SystemEvent),
    (∀ i c, (w.pages i).controller = some c → c.Mirrors (w.pages i).db) →
    ∀ i c, ((w.run segmentGraphemes es).pages i).controller = some c →
      c.Mirrors ((w.run segmentGraphemes es).pages i).db
  | _, [], h => h
  | w, e :: es, h => by
    refine run_mirrors es fun i c hc => ?_
    rcases @handle_page segmentGraphemes w e i with heq | ⟨pe, -, -, heq⟩ | ⟨k, m, -, -, heq⟩
    · rw [heq] at hc ⊢
      exact h i c hc
    · rw [heq] at hc ⊢
      exact Page.handle_mirrors (h i) hc
    · rw [heq] at hc ⊢
      exact h i c hc

/-- **The live replica and the tables.**  In every state of every run, the live replica of a page knows
nothing that its tables do not stand for, and all that they stand for exactly when that is coherent. -/
theorem replica_mirrors_iff (store : OperationStore) (es : List SystemEvent) (i : Nat)
    (c : LocalDocumentController)
    (hc : (((start store).run segmentGraphemes es).pages i).controller = some c) :
    let db := (((start store).run segmentGraphemes es).pages i).db
    c.replica.ops ⊆ db.documentOps c.documentId ∧
      (c.replica.ops = db.documentOps c.documentId ↔ Coherent (db.documentOps c.documentId)) := by
  intro db
  have hmirrors : c.Mirrors db := run_mirrors es (fun i c hc => by cases hc) i c hc
  refine ⟨hmirrors.backed.ops, fun heq => ?_, fun hcoh => ?_⟩
  · rw [← heq]
    exact hmirrors.backed.inv.coherent
  · exact hmirrors.backed.ops.antisymm (hmirrors.all hcoh)

end

/-- A page types into a new document. -/
theorem replica_mirrors_iff_typed :
    let segment : JsString → List JsString := fun text => text.map ([·])
    let env : Surroundings := ⟨js "now", 0, js "A", true⟩
    let es : List SystemEvent := [.page 0 (.opens ⟨some (js "d"), none, none⟩ env none),
      .page 0 (.edit env (js "a"))]
    let page := ((System.start .empty).run segment es).pages 0
    ∃ c, page.controller = some c ∧ c.replica.materialize = .ok (js "a") ∧
      (c.replica.ops = page.db.documentOps c.documentId ↔
        Coherent (page.db.documentOps c.documentId)) := by
  intro segment env es page
  have hsome : (page.controller.map (·.replica.materialize)) = some (.ok (js "a")) := by
    decide +kernel
  obtain ⟨c, hc, htext⟩ := Option.map_eq_some_iff.1 hsome
  exact ⟨c, hc, htext, (@replica_mirrors_iff segment .empty es 0 c hc).2⟩

section

variable {segmentGraphemes : JsString → List JsString}

/-! ## What the tables stand for -/

/-- What the tables of a page stand for is in the log or waits in its outbox. -/
structure Known (w : System) : Prop where
  base : Inv w
  marked : ∀ i, (w.pages i).db.Marked
  known : ∀ i d, (w.pages i).db.documentOps d ⊆ w.logged d ∪ {x | (w.pages i).db.InOutbox d x}

theorem Known.start {store : OperationStore} (h : store.Reachable) : Known (start store) where
  base := .start h
  marked i k marker hk := by cases hk
  known i d op hop := by
    obtain ⟨k, row, hk, -⟩ := hop
    cases hk

/-- **Every event keeps what is known.** -/
theorem Known.handle {w : System} (h : Known w) (e : SystemEvent) :
    Known (w.handle segmentGraphemes e) := by
  have hgrows : ∀ d, w.logged d ⊆ (w.handle segmentGraphemes e).logged d :=
    fun d op ⟨item, hi, hop⟩ => ⟨item, h.base.log_kept e hi, hop⟩
  refine ⟨h.base.handle e, @run_marked segmentGraphemes w [e] h.marked, fun i d op hop => ?_⟩
  rcases @handle_page segmentGraphemes w e i with heq | ⟨pe, -, -, heq⟩ | ⟨k, m, -, -, heq⟩
  · rw [heq] at hop ⊢
    exact (h.known i d hop).imp_left fun hlogged => hgrows d hlogged
  · have hstores := @Page.handle_stores segmentGraphemes (w.pages i) pe
    rw [heq] at hop ⊢
    have hbrings := h.base.brings i
    rcases hstores.documentOps_new (h.base.pages i) hbrings hop with hold | hnew | hlogged
    · rcases h.known i d hold with hlogged | hwaits
      · exact Or.inl (hgrows d hlogged)
      · exact (hstores.released (h.base.pages i) hbrings (h.marked i) hwaits).imp_left
          fun hlogged => hgrows d hlogged
    · exact Or.inr (Page.commits_inOutbox hnew)
    · exact Or.inl (hgrows d hlogged)
  · rw [heq] at hop ⊢
    exact (h.known i d hop).imp_left fun hlogged => hgrows d hlogged

theorem Known.run : ∀ {w : System} (es : List SystemEvent), Known w →
    Known (w.run segmentGraphemes es)
  | _, [], h => h
  | _, e :: es, h => (h.handle e).run es

/-! ## Quiet pages -/

/-- The cursor of the page is at the end of the log, and nothing of the document waits. -/
structure Quiet (w : System) (i : Nat) (d : JsString) : Prop where
  cursor : w.server.store.getLatestServerSeq d ≤ (w.pages i).db.getLastServerSeq d
  outbox : (w.pages i).db.outboxRows d = []

/-- A quiet page stores the log. -/
theorem Quiet.documentOps {w : System} {i : Nat} {d : JsString} (h : Quiet w i d) (hknown : Known w)
    (hcomplete : CursorComplete w) : (w.pages i).db.documentOps d = w.logged d := by
  refine Set.Subset.antisymm (fun op hop => ?_) ?_
  · rcases hknown.known i d hop with hlogged | ⟨⟨marker, hk, hd⟩, -⟩
    · exact hlogged
    · -- the outbox would not be empty
      have hmem : marker ∈ (w.pages i).db.outboxRows d := by
        unfold Database.outboxRows
        exact List.mem_filter.2 ⟨InsMap.mem_values.2 ⟨_, hk⟩, by simpa using hd⟩
      rw [h.outbox] at hmem
      cases hmem
  · rintro op ⟨item, hi, rfl⟩
    exact hcomplete i d item hi (((w.server.store.latest_spec d).1 item hi).trans h.cursor)

/-- **Quiet pages agree.**  In every run in which the server does not fail while it answers a join and
no step jumps: a quiet page stores exactly the operations of the log; and when the log replays, the
live replica of every quiet page shows what the replay shows. -/
theorem quiescent_convergence {store : OperationStore} (hstore : store.Reachable)
    (es : List SystemEvent) (hanswers : ∀ e ∈ es, Answers e)
    (hjumps : ∀ before e after, es = before ++ e :: after →
      ¬ Jumps ((System.start store).run segmentGraphemes before) e) :
    let w := (System.start store).run segmentGraphemes es
    (∀ i d, Quiet w i d → ∀ op, op ∈ (w.pages i).db.documentOps d ↔
      op ∈ (w.server.store.log d).map (·.operation)) ∧
    ∀ d replayed, replay ((w.server.store.log d).map (·.operation)) = .ok replayed →
      ∀ i c, (w.pages i).controller = some c → c.documentId = d → Quiet w i d →
        c.replica.getKnownOperationIds = replayed.getKnownOperationIds ∧
        c.replica.getUnresolvedOperationIds = replayed.getUnresolvedOperationIds ∧
        (∃ elements, c.replica.getVisibleElements = .ok elements ∧
          replayed.getVisibleElements = .ok elements) ∧
        ∃ text, c.replica.materialize = .ok text ∧ replayed.materialize = .ok text := by
  intro w
  have hknown : Known w := (Known.start hstore).run es
  have hcomplete : CursorComplete w :=
    (cursor_complete_iff hstore es hanswers).2 hjumps es [] (List.append_nil es).symm
  have hlogged : ∀ d, w.logged d = {op | op ∈ (w.server.store.log d).map (·.operation)} := by
    intro d
    ext op
    exact List.mem_map.symm
  refine ⟨fun i d hquiet op => ?_, fun d replayed hreplay i c hc hd hquiet => ?_⟩
  · rw [hquiet.documentOps hknown hcomplete, hlogged]
    exact Iff.rfl
  · obtain ⟨hinv, hops⟩ := replay_sound hreplay
    obtain ⟨-, hmirrors⟩ := replica_mirrors_iff store es i c hc
    have hstored := hquiet.documentOps hknown hcomplete
    rw [hlogged, ← hops] at hstored
    have hlive : c.Mirrors (w.pages i).db := run_mirrors es (fun i c hc => by cases hc) i c hc
    have heq : c.replica.ops = replayed.ops := by
      rw [← hstored, ← hd]
      refine hmirrors.2 ?_
      show Coherent ((w.pages i).db.documentOps c.documentId)
      rw [hd, hstored]
      exact hinv.coherent
    have hagree := hlive.backed.inv.agree hinv heq
    obtain ⟨elements, hv⟩ := hlive.backed.inv.visible_ok
    obtain ⟨text, ht⟩ := hlive.backed.inv.materialize_ok
    exact ⟨hagree.known_ids, hagree.unresolved, ⟨elements, hv, hagree.visible.symm.trans hv⟩, text, ht,
      hagree.materialize_eq.symm.trans ht⟩

end

/-- A page that has caught up with a log of one row is quiet. -/
theorem quiescent_convergence_synced :
    let segment : JsString → List JsString := fun text => text.map ([·])
    let env : Surroundings := ⟨js "now", 0, js "A", true⟩
    let first : TextOperation := .insert ⟨js "B:1", js "B", 1, 1, ROOT_ID, js "b"⟩
    let store := OperationStore.empty.insertOperation (js "d") first
    let joined : List SystemEvent :=
      [.page 0 (.opens ⟨some (js "d"), none, none⟩ env none), .page 0 (.connect 0), .connection 0 5,
        .page 0 (.socketOpened 0), .page 0 (.readLastServerSeq 0), .page 0 (.resumeJoin 0),
        .page 0 (.readEligible 0), .page 0 (.resumeJoin 0),
        .toServer 0 ⟨none, none, none, true, id⟩, .toPage 0, .page 0 .handleNext]
    let w := (System.start store).run segment (joined ++ [.page 0 (.ingest (.runs env))])
    Quiet w 0 (js "d") ∧ ∃ c, (w.pages 0).controller = some c ∧
      c.replica.materialize = .ok (js "b") := by
  intro segment env first store joined w
  have hstore : store.Reachable := .append (js "d") first .empty rfl
  have hanswers : ∀ e ∈ joined ++ [.page 0 (.ingest (.runs env))], Answers e := by
    intro e he
    simp only [joined, List.cons_append, List.nil_append, List.mem_cons, List.not_mem_nil,
      or_false] at he
    rcases he with rfl | rfl | rfl | rfl | rfl | rfl | rfl | rfl | rfl | rfl | rfl | rfl
    all_goals first | exact trivial | rfl
  have hjumps : ∀ before e after, joined ++ [.page 0 (.ingest (.runs env))] = before ++ e :: after →
      ¬ Jumps ((System.start store).run segment before) e := by
    intro before e after hes
    rcases split_append hes with ⟨rest, hjoined⟩ | ⟨before', hbefore, hlast⟩
    · -- nothing is ingested before
      have he : e ∈ joined := by
        rw [hjoined]
        simp
      simp only [joined, List.mem_cons, List.not_mem_nil, or_false] at he
      rcases he with rfl | rfl | rfl | rfl | rfl | rfl | rfl | rfl | rfl | rfl | rfl
      all_goals exact fun h => h
    · cases before' with
      | cons x xs =>
        have hlength := congrArg List.length hlast
        simp at hlength
      | nil =>
        obtain ⟨rfl, -⟩ := List.cons.inj hlast
        rw [List.append_nil] at hbefore
        rw [hbefore]
        rintro ⟨c, k, m, dl, -, -, -, -, -, m', dl', hdropped, -⟩
        have hnil : (((System.start store).run segment joined).pages 0).sync.dropped = [] := by
          decide +kernel
        rw [hnil] at hdropped
        cases hdropped
  have hw : w = (System.start store).run segment (joined ++ [.page 0 (.ingest (.runs env))]) := rfl
  clear_value w
  have hquiet : Quiet w 0 (js "d") := by
    rw [hw]
    exact ⟨by decide +kernel, by decide +kernel⟩
  have hsome : (w.pages 0).controller.map (·.documentId) = some (js "d") := by
    rw [hw]
    decide +kernel
  have hreplayed : (replay ((w.server.store.log (js "d")).map (·.operation))).bind (·.materialize) =
      .ok (js "b") := by
    rw [hw]
    decide +kernel
  have hall := (quiescent_convergence hstore _ hanswers hjumps).2 (js "d")
  rw [← hw] at hall
  obtain ⟨c, hc, hd⟩ := Option.map_eq_some_iff.1 hsome
  cases hreplay : replay ((w.server.store.log (js "d")).map (·.operation)) with
  | error e =>
    rw [hreplay] at hreplayed
    cases hreplayed
  | ok replayed =>
    rw [hreplay] at hreplayed
    obtain ⟨-, -, -, text, htext, htext'⟩ := hall replayed hreplay 0 c hc hd hquiet
    refine ⟨hquiet, c, hc, ?_⟩
    rw [htext, ← htext']
    exact hreplayed

end System

end LocalFirst
