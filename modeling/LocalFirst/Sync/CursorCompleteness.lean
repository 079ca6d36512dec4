import LocalFirst.Server.MessageOrder
import LocalFirst.Sync.Frames
import LocalFirst.Sync.SystemInvariant

/-!
# Is everything at or below the cursor stored?

The cursor of a page is meant to say that every row of the log at or below it is stored.  It is
advanced by every message on its own, and a message that fails to be stored is dropped, so a later
message of the same socket can carry the cursor past rows that were lost.

* `System.Jumps` — an ingest that does so.
* `CursorInv` — the invariant of the runs without a jump.
* `cursor_complete_iff` — the cursor is complete in every state of a run exactly when no step of
  it jumps.
* `cursor_incomplete` — a run with a jump.
-/

set_option autoImplicit false

namespace LocalFirst

open SyncServer (carries)

/-! ## What the tables hold -/

namespace Database

variable {db db' : Database} {d : JsString}

theorem documentOps_mono
    (hops : ∀ k row, db.operations.get? k = some row → db'.operations.get? k = some row)
    (hbase : ∀ b, db.loadServerBaseline d = some b → db'.loadServerBaseline d = some b) :
    db.documentOps d ⊆ db'.documentOps d := by
  have hstored : db.storedOps d ⊆ db'.storedOps d := by
    intro op ⟨k, row, hk, hd, ho⟩
    exact ⟨k, row, hops k row hk, hd, ho⟩
  unfold documentOps
  cases hb : db.loadServerBaseline d with
  | none =>
    intro op hop
    cases db'.loadServerBaseline d with
    | none => exact hstored hop
    | some b => exact Or.inr (hstored hop)
  | some b =>
    rw [hbase b hb]
    exact Set.union_subset_union_right _ hstored

theorem Keeps.documentOps (h : db.Keeps db') (d : JsString) :
    db'.documentOps d = db.documentOps d := by
  unfold Database.documentOps loadServerBaseline storedOps
  rw [h.operations, h.serverBaselines]

end Database

namespace LocalDocumentController

variable {c : LocalDocumentController} {db db' : Database} {env : Surroundings} {dl : Delivery}

/-- The cursors after a delivery. -/
theorem Delivers.lastServerSeq (h : c.Delivers db env dl db') (hconfirmed : 0 ≤ dl.confirmed)
    (d : JsString) : db'.getLastServerSeq d =
      if c.documentId = d then max (db.getLastServerSeq d) dl.confirmed
      else db.getLastServerSeq d := by
  have hget : ∀ {db' : Database} {n : Int}, (∀ k, db'.syncState.get? k =
      if c.documentId = k then some ⟨c.documentId, n⟩ else db.syncState.get? k) →
      db'.getLastServerSeq d = if c.documentId = d then n else db.getLastServerSeq d := by
    intro db' n hsync
    unfold Database.getLastServerSeq
    rw [hsync]
    by_cases hd : c.documentId = d
    · rw [if_pos hd, if_pos hd]
    · rw [if_neg hd, if_neg hd]
  rcases h.spec with ⟨-, -, committed, -, hin, hdb⟩ | ⟨bootstrap, -, hin⟩
  · rw [hdb.keeps.lastServerSeq, hget hin.syncState]
    by_cases hd : c.documentId = d
    · rw [if_pos hd, if_pos hd, hd]
    · rw [if_neg hd, if_neg hd]
  · rw [hget hin.syncState]
    by_cases hd : c.documentId = d
    · have hzero := (Database.eligible_iff.1 hin.eligible).1
      rw [hd] at hzero
      rw [if_pos hd, if_pos hd, hzero, max_eq_right hconfirmed]
    · rw [if_neg hd, if_neg hd]

theorem Delivers.documentOps_kept (h : c.Delivers db env dl db') (d : JsString) :
    db.documentOps d ⊆ db'.documentOps d := by
  rcases h.spec with ⟨-, -, committed, -, hin, hdb⟩ | ⟨bootstrap, -, hin⟩
  · rw [hdb.keeps.documentOps]
    refine Database.documentOps_mono (fun k row hk => (hin.operations k row).2 (Or.inl hk)) ?_
    unfold Database.loadServerBaseline
    rw [hin.serverBaselines]
    exact fun b hb => hb
  · refine Database.documentOps_mono (fun k row hk => (hin.operations k row).2 (Or.inr hk)) ?_
    intro b hb
    have hnone := (Database.eligible_iff.1 hin.eligible).2.1
    unfold Database.loadServerBaseline at hb hnone ⊢
    rw [hin.serverBaselines]
    split
    · rename_i hd
      rw [← hd, hnone] at hb
      cases hb
    · exact hb

/-- What a delivery leaves of its document. -/
theorem Delivers.documentOps (h : c.Delivers db env dl db') :
    db'.documentOps c.documentId = (match dl.bootstrap with
      | none => db.documentOps c.documentId
      | some b => TextReplica.snapshotOps b.snapshot) ∪ {op | op ∈ dl.items.map (·.operation)} := by
  rcases h.spec with ⟨hb, hok, committed, -, hin, hdb⟩ | ⟨bootstrap, hb, hin⟩
  · rw [hdb.keeps.documentOps, hb]
    refine Database.documentOps_of_stored ?_ (hin.storedOps hok)
    unfold Database.loadServerBaseline
    rw [hin.serverBaselines]
  · rw [hb]
    exact hin.documentOps

end LocalDocumentController

namespace Page

variable {segmentGraphemes : JsString → List JsString} {page page' : Page} {e : PageEvent}

theorem Stores.documentOps_kept (h : Stores segmentGraphemes page page' e) (d : JsString) :
    page.db.documentOps d ⊆ page'.db.documentOps d := by
  cases h with
  | kept hkeeps hmeta => rw [hkeeps.documentOps]
  | edited env nextText c elements edit ops db he hc hvisible hedit hp hdb =>
    rw [hdb.keeps.documentOps]
    obtain ⟨-, ⟨-, rfl⟩ | ⟨-, hedited⟩⟩ := Database.persistLocalTextEdit_spec hp
    · exact subset_refl _
    · refine Database.documentOps_mono (fun k row hk => (hedited.operations k row).2 (Or.inr hk)) ?_
      unfold Database.loadServerBaseline
      rw [hedited.serverBaselines]
      exact fun b hb => hb
  | delivered env c socket message dl he hc hh hd hdelivers => exact hdelivers.documentOps_kept d

/-- The cursors stay, unless a message is ingested. -/
theorem Stores.lastServerSeq (h : Stores segmentGraphemes page page' e) :
    (∀ d, page'.db.getLastServerSeq d = page.db.getLastServerSeq d) ∨
      ∃ env c socket message dl, e = .ingest (.runs env) ∧ page.controller = some c ∧
        page.sync.handling = some ⟨socket, message, .ingesting⟩ ∧ delivery message = some dl ∧
        c.Delivers page.db env dl page'.db := by
  cases h with
  | kept hkeeps hmeta => exact Or.inl hkeeps.lastServerSeq
  | edited env nextText c elements edit ops db he hc hvisible hedit hp hdb =>
    refine Or.inl fun d => ?_
    rw [hdb.keeps.lastServerSeq]
    obtain ⟨-, ⟨-, rfl⟩ | ⟨-, hedited⟩⟩ := Database.persistLocalTextEdit_spec hp
    · rfl
    · unfold Database.getLastServerSeq
      rw [hedited.syncState]
  | delivered env c socket message dl he hc hh hd hdelivers =>
    exact Or.inr ⟨env, c, socket, message, dl, he, hc, hh, hd, hdelivers⟩

/-! ## The messages that wait -/

/-- The message whose storing is awaited. -/
def trying : Option Handler → List (SocketId × ServerMessage)
  | some ⟨socket, message, .ingesting⟩ => [(socket, message)]
  | _ => []

/-- The messages whose storing has not been settled yet, with their sockets. -/
def queue (page : Page) : List (SocketId × ServerMessage) :=
  trying page.sync.handling ++ page.sync.inbound

/-- The messages of one socket that wait. -/
def waiting (page : Page) (k : SocketId) : List ServerMessage := SyncServer.toSocket k page.queue

theorem waiting_front {front : List (SocketId × ServerMessage)}
    (hqueue : page.queue = front ++ page'.queue) (k : SocketId) :
    page.waiting k = SyncServer.toSocket k front ++ page'.waiting k := by
  unfold waiting SyncServer.toSocket
  rw [hqueue, List.filterMap_append]

theorem trying_eq_nil {handler : Handler} (h : handler.stage ≠ .ingesting) :
    trying (some handler) = [] := by
  obtain ⟨socket, message, stage⟩ := handler
  cases stage with
  | ingesting => exact absurd rfl h
  | _ => rfl

theorem queue_received : ∀ p ∈ page.queue, p ∈ page.received := by
  intro p hp
  unfold queue at hp
  unfold received
  rcases List.mem_append.1 hp with hp | hp
  · refine List.mem_append_left _ ?_
    cases hh : page.sync.handling with
    | none =>
      rw [hh] at hp
      cases hp
    | some handler =>
      rw [hh] at hp
      obtain ⟨socket, message, stage⟩ := handler
      cases stage with
      | ingesting => exact hp
      | _ => cases hp
  · exact List.mem_append_right _ hp

theorem queue_of_traffic {t : DocumentSyncClient.Traffic} (h : page'.sync.traffic = t) :
    page'.queue = trying t.handling ++ t.inbound := by
  rw [← h]
  rfl

theorem dropped_of_traffic {t : DocumentSyncClient.Traffic} (h : page'.sync.traffic = t) :
    page'.sync.dropped = t.dropped := congrArg DocumentSyncClient.Traffic.dropped h

/-- A handler that goes on is past the storing of its message. -/
theorem resumes_queue (h : page.sync.Resumes page'.sync) :
    page'.queue = page.queue ∧ page'.sync.dropped = page.sync.dropped := by
  cases h with
  | same h => exact ⟨queue_of_traffic h, dropped_of_traffic h⟩
  | ended handler hh hstage h =>
    refine ⟨(queue_of_traffic h).trans ?_, dropped_of_traffic h⟩
    unfold queue
    rw [hh, trying_eq_nil hstage]
    rfl
  | waits handler stage hh hstage hwaits h =>
    have hnot : stage ≠ .ingesting := by
      rcases hwaits with rfl | rfl | rfl <;> exact fun h => by cases h
    refine ⟨(queue_of_traffic h).trans ?_, dropped_of_traffic h⟩
    unfold queue
    rw [hh, trying_eq_nil hstage, trying_eq_nil hnot]
    rfl
  | sends handler pending socket hh hstage hsocket hopen h =>
    have hnot : handler.stage ≠ .ingesting := by
      rw [hstage]
      exact fun h => by cases h
    refine ⟨(queue_of_traffic h).trans ?_, dropped_of_traffic h⟩
    unfold queue
    rw [hh, trying_eq_nil hnot]
    rfl

/-- The messages that wait stay, or the first of them is dropped or stored. -/
structure Advances (page page' : Page) : Prop where
  dropped : ∀ p ∈ page.sync.dropped, p ∈ page'.sync.dropped
  front : ∃ front, page.queue = front ++ page'.queue ∧
    ∀ p ∈ front, p ∈ page'.sync.dropped ∨ ∃ env c dl, page.controller = some c ∧
      page.sync.handling = some ⟨p.1, p.2, .ingesting⟩ ∧ delivery p.2 = some dl ∧
      c.Delivers page.db env dl page'.db

theorem Advances.stay (hqueue : page'.queue = page.queue)
    (hdropped : page'.sync.dropped = page.sync.dropped) : Advances page page' :=
  ⟨fun p hp => hdropped ▸ hp, [], hqueue.symm, fun p hp => by cases hp⟩

/-- What an event does to the messages that wait: the session ends, or they stay, or the first of
them is dropped or stored. -/
theorem Moves.queue (h : Moves page page' e) :
    (isOpen e = true ∧ page'.queue = []) ∨ Advances page page' := by
  cases h with
  | same h => exact Or.inr (.stay (queue_of_traffic h) (dropped_of_traffic h))
  | opened c he hc h => exact Or.inl ⟨he, queue_of_traffic h⟩
  | begins k hk hnew hopen h => exact Or.inr (.stay (queue_of_traffic h) (dropped_of_traffic h))
  | reads read joins hread hjoins h =>
    exact Or.inr (.stay (queue_of_traffic h) (dropped_of_traffic h))
  | joins k call lastServerSeq capabilities displayName joins hjoins hgone hcall hsocket hseq hk hopen
      h => exact Or.inr (.stay (queue_of_traffic h) (dropped_of_traffic h))
  | submits k operations rest he hsubmits hk h =>
    exact Or.inr (.stay (queue_of_traffic h) (dropped_of_traffic h))
  | drops k message inbound hh hinbound h =>
    have hqueue : page'.queue = trying page.sync.handling ++ inbound := queue_of_traffic h
    have hdropped : page'.sync.dropped = page.sync.dropped ++ [(k, message)] := dropped_of_traffic h
    refine Or.inr ⟨fun p hp => ?_, [(k, message)], ?_, fun p hp => Or.inl ?_⟩
    · rw [hdropped]
      exact List.mem_append_left _ hp
    · rw [hqueue]
      unfold Page.queue
      rw [hh, hinbound]
      rfl
    · rw [hdropped]
      exact List.mem_append_right _ hp
  | takes k message inbound d hh hinbound hd hdocument h =>
    refine Or.inr (.stay ((queue_of_traffic h).trans ?_) (dropped_of_traffic h))
    unfold Page.queue
    rw [hh, hinbound]
    rfl
  | settles k message d outcome dropped hh hd hdropped h =>
    have hdropped' : page'.sync.dropped = dropped := dropped_of_traffic h
    refine Or.inr ⟨fun p hp => ?_, [(k, message)], ?_, fun p hp => ?_⟩
    · rw [hdropped']
      rcases hdropped with rfl | ⟨rfl, -⟩
      · exact List.mem_append_left _ hp
      · exact hp
    · rw [queue_of_traffic h]
      unfold Page.queue
      rw [hh]
      rfl
    · rw [List.mem_singleton.1 hp, hdropped']
      rcases hdropped with rfl | ⟨-, env, c, hc, hdelivers⟩
      · exact Or.inl (List.mem_append_right _ (List.mem_singleton.2 rfl))
      · exact Or.inr ⟨env, c, d, hc, hh, hd, hdelivers⟩
  | loads handler stage hh hstage hloaded h =>
    have hnot : stage ≠ .ingesting := by
      rcases hloaded with ⟨_, rfl⟩ | ⟨_, rfl⟩ | rfl <;> exact fun h => by cases h
    refine Or.inr (.stay ((queue_of_traffic h).trans ?_) (dropped_of_traffic h))
    unfold Page.queue
    rw [hh, trying_eq_nil hstage, trying_eq_nil hnot]
    rfl
  | resumes he h =>
    obtain ⟨hqueue, hdropped⟩ := resumes_queue h
    exact Or.inr (.stay hqueue hdropped)

end Page

/-! ## The invariant -/

namespace System

/-- Everything at or below the cursor of a page is stored there. -/
def CursorComplete (w : System) : Prop :=
  ∀ i d, ∀ row ∈ w.server.store.log d, row.serverSeq ≤ (w.pages i).db.getLastServerSeq d →
    row.operation ∈ (w.pages i).db.documentOps d

/-- The server does not fail while it answers a join. -/
def Answers : SystemEvent → Prop
  | .toServer _ env => env.syncThrows = none
  | _ => True

/-- The step stores a message whose number is at or above that of a row that is lost: a message
of the same socket brought the row, it was dropped, and the row is neither stored nor brought
again. -/
def Jumps (w : System) : SystemEvent → Prop
  | .page i (.ingest (.runs _)) =>
    ∃ c k m dl, (w.pages i).controller = some c ∧
      (w.pages i).sync.handling = some ⟨k, m, .ingesting⟩ ∧ delivery m = some dl ∧
      dl.bootstrap = none ∧ (w.pages i).db.Ingestible dl.documentId dl.items dl.confirmed ∧
      ∃ m' dl', (k, m') ∈ (w.pages i).sync.dropped ∧ delivery m' = some dl' ∧
        dl'.documentId = dl.documentId ∧
        ∃ row ∈ w.server.store.log dl.documentId,
          row ∈ carries (w.server.store.log dl.documentId) m' ∧ row.serverSeq ≤ dl.confirmed ∧
          row.operation ∉ (w.pages i).db.documentOps dl.documentId ∧ row ∉ dl.items
  | _ => False

/-- The rows that a message brought are stored. -/
def Stored (w : System) (i : Nat) (m : ServerMessage) : Prop :=
  ∀ dl, delivery m = some dl → ∀ row ∈ carries (w.server.store.log dl.documentId) m,
    row.operation ∈ (w.pages i).db.documentOps dl.documentId

/-- The page is through with a message. -/
def Done (w : System) (i : Nat) (k : SocketId) (m : ServerMessage) : Prop :=
  (k, m) ∈ (w.pages i).sync.dropped ∨ Stored w i m

/-- Either nothing of a log has been sent to the socket, or the page has joined on it at a cursor,
and the messages bring the log from there. -/
def Linked (w : System) (i : Nat) (k : SocketId) : Prop :=
  (w.server.joinedTo k = none ∧ ∀ m ∈ w.server.sentTo k, SyncServer.Quiet m) ∨
    ∃ join n, (k, .join join) ∈ (w.pages i).sync.sent ∧
      SyncServer.Streams w.server k join.documentId join.lastServerSeq n ∧
      SyncServer.Follows w.server k join.documentId join.lastServerSeq

/-- The invariant of the cursors. -/
structure CursorInv (w : System) : Prop where
  base : Inv w
  joins : ∀ i, Page.JoinInv (w.pages i)
  complete : CursorComplete w
  bounded : ∀ i d, (w.pages i).db.getLastServerSeq d ≤ w.server.store.lastServerSeq
  calls : ∀ i, ∀ call ∈ (w.pages i).sync.joins, ∀ n,
    DocumentSyncClient.JoinStage.lastServerSeq call.stage = some n →
    n ≤ (w.pages i).db.getLastServerSeq (w.pages i).sync.documentId
  frames : ∀ i k join, (k, .join join) ∈ (w.pages i).sync.sent →
    join.lastServerSeq ≤ (w.pages i).db.getLastServerSeq join.documentId
  linked : ∀ i k, w.owner k = some i → Linked w i k
  arrived : ∀ k, w.toPage k ≤ (w.server.sentTo k).length
  silent : ∀ i k, (w.pages i).sync.readyState k = .connecting → (w.pages i).waiting k = []
  listening : ∀ i k, (w.pages i).sync.socket = some k → (w.pages i).sync.readyState k = .opened →
    ∃ before, before ++ (w.pages i).waiting k = (w.server.sentTo k).take (w.toPage k) ∧
      ∀ m ∈ before, Done w i k m
  ordered : ∀ i k, (w.pages i).waiting k ≠ [] → ∃ before after,
    w.server.sentTo k = before ++ (w.pages i).waiting k ++ after ∧ ∀ m ∈ before, Done w i k m

theorem CursorInv.start {store : OperationStore} (h : store.Reachable) : CursorInv (start store) where
  base := .start h
  joins i := .start
  complete i d row hrow hle := by
    have hbound := h.inv.1.log_bounds hrow
    have hzero : ((System.start store).pages i).db.getLastServerSeq d = 0 := rfl
    omega
  bounded i d := h.inv.1.nonneg
  calls i call hcall := by cases hcall
  frames i k join hjoin := by cases hjoin
  linked i k hk := by cases hk
  arrived k := Nat.zero_le _
  silent i k _ := rfl
  listening i k hk := by cases hk
  ordered i k hk := absurd rfl hk

/-! ## An event of the server -/

section

variable {w w' : System} {se : SyncServer.Event} (h : CursorInv w) (hpages : w'.pages = w.pages)
  (hserver : w'.server = w.server.handle se)
include h hpages hserver

theorem Done.server {i : Nat} {k : SocketId} {m : ServerMessage} (hsent : m ∈ w.server.sentTo k)
    (hm : Done w i k m) : Done w' i k m := by
  unfold Done Stored at hm ⊢
  rw [hpages, hserver]
  refine hm.imp_right fun hm dl hdl row hrow => hm dl hdl row ?_
  have hdescribes := (h.base.server.sent _ (SyncServer.mem_toSocket.1 hsent)).2
  rw [SyncServer.carries_congr (h.base.server.speaks se) _ hdescribes] at hrow
  exact hrow

/-- A row at or below a cursor is an old one. -/
theorem CursorInv.server_complete : CursorComplete w' := by
  intro i d row hrow hle
  rw [hpages] at hle ⊢
  rw [hserver] at hrow
  have hbound := h.bounded i d
  have hpart := (h.base.server.speaks se).part d (row.serverSeq - 1) row.serverSeq (by omega)
  have hmem := hpart ▸ mem_between.2 ⟨hrow, by omega, le_refl _⟩
  exact h.complete i d row (mem_between.1 hmem).1 hle

/-- A socket that joins is given a stream. -/
theorem Linked.server {i : Nat} {k : SocketId} (hlinked : Linked w i k)
    (hjoin : ∀ message env, se = .message k (.message (.join message)) env →
      (k, .join message) ∈ (w.pages i).sync.sent ∧ env.syncThrows = none) : Linked w' i k := by
  have hinv := h.base.server
  unfold Linked
  rw [hpages, hserver]
  rcases hlinked with ⟨hnone, hquiet⟩ | ⟨join, n, hsent, hstream, hfollows⟩
  · refine (hinv.unheard se hnone hquiet).imp_right fun ⟨message, env, he, hto⟩ => ?_
    obtain ⟨hframe, hthrows⟩ := hjoin message env he
    rw [he] at hto ⊢
    obtain ⟨n, hstream⟩ := SyncServer.Streams.join hinv hthrows hnone hto
    exact ⟨message, n, hframe, hstream, SyncServer.Follows.join hinv hquiet⟩
  · obtain ⟨n', hstream'⟩ := hstream.handle hinv se
    exact Or.inr ⟨join, n', hsent, hstream', hfollows.handle hinv hstream se⟩

theorem CursorInv.server_handle (hbase : Inv w') (howner : w'.owner = w.owner)
    (htoPage : w'.toPage = w.toPage)
    (hjoin : ∀ i k message env, w.owner k = some i →
      se = .message k (.message (.join message)) env →
      (k, .join message) ∈ (w.pages i).sync.sent ∧ env.syncThrows = none) : CursorInv w' := by
  obtain ⟨added, hadded, -⟩ := (h.base.server.speaks se).sent
  have hsent : ∀ k, w'.server.sentTo k = w.server.sentTo k ++ SyncServer.toSocket k added := by
    intro k
    rw [hserver, SyncServer.sentTo_append hadded]
  refine ⟨hbase, fun i => ?_, h.server_complete hpages hserver, fun i d => ?_, fun i => ?_,
    fun i => ?_, fun i k hk => ?_, fun k => ?_, fun i => ?_, fun i k hk hopen => ?_, fun i k hk => ?_⟩
  · rw [hpages]
    exact h.joins i
  · have hgrows := (h.base.server.speaks se).grows
    have hbound := h.bounded i d
    rw [hpages, hserver]
    omega
  · rw [hpages]
    exact h.calls i
  · rw [hpages]
    exact h.frames i
  · rw [howner] at hk
    exact (h.linked i k hk).server h hpages hserver fun message env he => hjoin i k message env hk he
  · have hle := h.arrived k
    rw [htoPage, hsent, List.length_append]
    omega
  · rw [hpages]
    exact h.silent i
  · rw [hpages] at hk hopen ⊢
    obtain ⟨before, heq, hdone⟩ := h.listening i k hk hopen
    refine ⟨before, ?_, fun m hm => (hdone m hm).server h hpages hserver ?_⟩
    · rw [heq, htoPage, hsent, List.take_append_of_le_length (h.arrived k)]
    · exact List.mem_of_mem_take (heq ▸ List.mem_append_left _ hm)
  · rw [hpages] at hk ⊢
    obtain ⟨before, after, heq, hdone⟩ := h.ordered i k hk
    refine ⟨before, after ++ SyncServer.toSocket k added, ?_,
      fun m hm => (hdone m hm).server h hpages hserver ?_⟩
    · rw [hsent, heq, List.append_assoc _ after]
    · rw [heq, List.append_assoc]
      exact List.mem_append_left _ hm

end

/-! ## A message reaches a page -/

/-- Only the messages that wait have changed. -/
structure SamePages (w w' : System) : Prop where
  server : w'.server = w.server
  db : ∀ i, (w'.pages i).db = (w.pages i).db
  sync : ∀ i, ∃ inbound, (w'.pages i).sync = { (w.pages i).sync with inbound := inbound }

theorem Done.congr {w w' : System} (h : SamePages w w') {i : Nat} {k : SocketId} {m : ServerMessage}
    (hm : Done w i k m) : Done w' i k m := by
  obtain ⟨inbound, hsync⟩ := h.sync i
  unfold Done Stored at hm ⊢
  rw [hsync, h.db, h.server]
  exact hm

/-- What has nothing to do with the messages that wait. -/
theorem CursorInv.congr {w w' : System} (h : CursorInv w) (hsame : SamePages w w')
    (howner : w'.owner = w.owner) (hbase : Inv w')
    (harrived : ∀ k, w'.toPage k ≤ (w'.server.sentTo k).length)
    (hsilent : ∀ i k, (w'.pages i).sync.readyState k = .connecting → (w'.pages i).waiting k = [])
    (hlistening : ∀ i k, (w'.pages i).sync.socket = some k →
      (w'.pages i).sync.readyState k = .opened → ∃ before,
        before ++ (w'.pages i).waiting k = (w'.server.sentTo k).take (w'.toPage k) ∧
        ∀ m ∈ before, Done w i k m)
    (hordered : ∀ i k, (w'.pages i).waiting k ≠ [] → ∃ before after,
      w'.server.sentTo k = before ++ (w'.pages i).waiting k ++ after ∧ ∀ m ∈ before, Done w i k m) :
    CursorInv w' where
  base := hbase
  joins i := by
    obtain ⟨inbound, hsync⟩ := hsame.sync i
    obtain ⟨hcalls, hopened, honce⟩ := h.joins i
    refine ⟨?_, ?_, ?_⟩
    · rw [hsync]; exact hcalls
    · rw [hsync]; exact hopened
    · rw [hsync]; exact honce
  complete i d row hrow hle := by
    rw [hsame.server] at hrow
    rw [hsame.db] at hle ⊢
    exact h.complete i d row hrow hle
  bounded i d := by
    rw [hsame.db, hsame.server]
    exact h.bounded i d
  calls i := by
    obtain ⟨inbound, hsync⟩ := hsame.sync i
    rw [hsync, hsame.db]
    exact h.calls i
  frames i := by
    obtain ⟨inbound, hsync⟩ := hsame.sync i
    rw [hsync, hsame.db]
    exact h.frames i
  linked i k hk := by
    obtain ⟨inbound, hsync⟩ := hsame.sync i
    rw [howner] at hk
    unfold Linked
    rw [hsame.server, hsync]
    exact h.linked i k hk
  arrived := harrived
  silent := hsilent
  listening i k hk hopen := by
    obtain ⟨before, heq, hdone⟩ := hlistening i k hk hopen
    exact ⟨before, heq, fun m hm => (hdone m hm).congr hsame⟩
  ordered i k hk := by
    obtain ⟨before, after, heq, hdone⟩ := hordered i k hk
    exact ⟨before, after, heq, fun m hm => (hdone m hm).congr hsame⟩

theorem waiting_append (page : Page) (socket k : SocketId) (message : ServerMessage) :
    Page.waiting { page with sync := { page.sync with
      inbound := page.sync.inbound ++ [(socket, message)] } } k =
      page.waiting k ++ if socket = k then [message] else [] := by
  unfold Page.waiting Page.queue SyncServer.toSocket
  rw [← List.append_assoc, List.filterMap_append]
  congr 1
  rw [List.filterMap_cons]
  by_cases hk : socket = k
  · simp [hk]
  · simp [hk]

/-- A message reaches page `i`, seen from the whole system. -/
structure MessageStep (w w' : System) (i : Nat) (socket : SocketId) (message : ServerMessage) :
    Prop where
  owned : w.owner socket = some i
  sent : (w.server.sentTo socket)[w.toPage socket]? = some message
  server : w'.server = w.server
  owner : w'.owner = w.owner
  other : ∀ j, j ≠ i → w'.pages j = w.pages j
  page : w'.pages i = { w.pages i with sync := (w.pages i).sync.onMessage socket message }
  toPage : ∀ k, w'.toPage k = if k = socket then w.toPage k + 1 else w.toPage k

section

variable {w w' : System} {i : Nat} {socket : SocketId} {message : ServerMessage}

theorem MessageStep.of_eq (howner : w.owner socket = some i)
    (hmessage : (w.server.sentTo socket)[w.toPage socket]? = some message)
    (heq : w' = { w.setPage i { w.pages i with
        sync := (w.pages i).sync.onMessage socket message } with
      toPage := fun k => if k = socket then w.toPage k + 1 else w.toPage k }) :
    MessageStep w w' i socket message := by
  refine ⟨howner, hmessage, by rw [heq]; rfl, by rw [heq]; rfl, fun j hj => ?_, ?_, fun k => by rw [heq]⟩
  · rw [heq]
    exact if_neg hj
  · rw [heq]
    exact if_pos rfl

theorem MessageStep.arrived (hstep : MessageStep w w' i socket message) (h : CursorInv w) (k : SocketId) :
    w'.toPage k ≤ (w'.server.sentTo k).length := by
  have hlength := (List.getElem?_eq_some_iff.1 hstep.sent).1
  have hk := h.arrived k
  rw [hstep.toPage, hstep.server]
  split
  · rename_i heq
    rw [heq]
    omega
  · exact hk

/-- The message is ignored: the socket is not the current one, or is not open. -/
theorem CursorInv.ignores (h : CursorInv w) (hstep : MessageStep w w' i socket message)
    (hbase : Inv w') (hnot : ¬ ((w.pages i).sync.readyState socket = .opened ∧
      (w.pages i).sync.socket = some socket))
    (hsync : (w.pages i).sync.onMessage socket message = (w.pages i).sync) : CursorInv w' := by
  have hpages : ∀ j, w'.pages j = w.pages j := by
    intro j
    by_cases hj : j = i
    · rw [hj, hstep.page, hsync]
    · exact hstep.other j hj
  refine h.congr ⟨hstep.server, fun j => by rw [hpages], fun j => ⟨_, by rw [hpages]⟩⟩ hstep.owner hbase
    (hstep.arrived h) (fun j => ?_) (fun j k hk hopen => ?_) fun j => ?_
  · rw [hpages]
    exact h.silent j
  · rw [hpages] at hk hopen ⊢
    have hk' : k ≠ socket := by
      rintro rfl
      obtain rfl : j = i := Option.some.inj ((h.base.owned j k hk).symm.trans hstep.owned)
      exact hnot ⟨hopen, hk⟩
    rw [hstep.toPage, if_neg hk', hstep.server]
    exact h.listening j k hk hopen
  · rw [hpages, hstep.server]
    exact h.ordered j

/-- The message waits, behind those that have arrived before it. -/
theorem CursorInv.queues (h : CursorInv w) (hstep : MessageStep w w' i socket message)
    (hbase : Inv w') (hopen : (w.pages i).sync.readyState socket = .opened)
    (hsocket : (w.pages i).sync.socket = some socket)
    (hsync : (w.pages i).sync.onMessage socket message =
      { (w.pages i).sync with inbound := (w.pages i).sync.inbound ++ [(socket, message)] }) :
    CursorInv w' := by
  have hpage : w'.pages i = { w.pages i with sync := { (w.pages i).sync with
      inbound := (w.pages i).sync.inbound ++ [(socket, message)] } } := by
    rw [hstep.page, hsync]
  have hpages : ∀ j, ∃ inbound, w'.pages j =
      { w.pages j with sync := { (w.pages j).sync with inbound := inbound } } := by
    intro j
    by_cases hj : j = i
    · subst hj
      exact ⟨_, hpage⟩
    · exact ⟨_, hstep.other j hj⟩
  have hsame : SamePages w w' := by
    refine ⟨hstep.server, fun j => ?_, fun j => ?_⟩
    · obtain ⟨inbound, hj⟩ := hpages j
      rw [hj]
    · obtain ⟨inbound, hj⟩ := hpages j
      exact ⟨inbound, by rw [hj]⟩
  have hlinks : ∀ j, (w'.pages j).sync.socket = (w.pages j).sync.socket ∧
      (w'.pages j).sync.readyState = (w.pages j).sync.readyState := by
    intro j
    obtain ⟨inbound, hj⟩ := hpages j
    rw [hj]
    exact ⟨rfl, rfl⟩
  have hwaiting : ∀ j k, (w'.pages j).waiting k =
      (w.pages j).waiting k ++ if j = i ∧ socket = k then [message] else [] := by
    intro j k
    by_cases hj : j = i
    · subst hj
      rw [hpage, waiting_append]
      simp
    · rw [hstep.other j hj]
      simp [hj]
  -- what has arrived on the socket is what had, and the message
  obtain ⟨before, hbefore, hdone⟩ := h.listening i socket hsocket hopen
  have hnew : before ++ ((w.pages i).waiting socket ++ [message]) =
      (w.server.sentTo socket).take (w.toPage socket + 1) := by
    rw [List.take_add_one, hstep.sent, ← hbefore, List.append_assoc]
    rfl
  refine h.congr hsame hstep.owner hbase (hstep.arrived h) (fun j k hk => ?_)
    (fun j k hk hopen' => ?_) fun j k hk => ?_
  · rw [(hlinks j).2] at hk
    rw [hwaiting, h.silent j k hk, List.nil_append, if_neg]
    rintro ⟨rfl, rfl⟩
    rw [hopen] at hk
    cases hk
  · rw [(hlinks j).1] at hk
    rw [(hlinks j).2] at hopen'
    rw [hwaiting, hstep.toPage, hstep.server]
    by_cases hk' : k = socket
    · subst hk'
      obtain rfl : j = i := Option.some.inj ((h.base.owned j k hk).symm.trans hstep.owned)
      rw [if_pos ⟨rfl, rfl⟩, if_pos rfl]
      exact ⟨before, hnew, hdone⟩
    · rw [if_neg fun hc => hk' hc.2.symm, if_neg hk', List.append_nil]
      exact h.listening j k hk hopen'
  · rw [hwaiting] at hk
    rw [hwaiting, hstep.server]
    by_cases hk' : j = i ∧ socket = k
    · obtain ⟨rfl, rfl⟩ := hk'
      refine ⟨before, (w.server.sentTo socket).drop (w.toPage socket + 1), ?_, hdone⟩
      rw [if_pos ⟨rfl, rfl⟩, hnew, List.take_append_drop]
    · rw [if_neg hk', List.append_nil] at hk ⊢
      exact h.ordered j k hk

theorem CursorInv.reaches (h : CursorInv w) (hstep : MessageStep w w' i socket message)
    (hbase : Inv w') : CursorInv w' := by
  rcases (w.pages i).sync.onMessage_cases (k := socket) message with
    ⟨hnot, hsync⟩ | ⟨hopen, hsocket, hsync⟩
  · exact h.ignores hstep hbase hnot hsync
  · exact h.queues hstep hbase hopen hsocket hsync

end

/-! ## An event of a page -/

/-- A bootstrap stands for the log through its number. -/
theorem describes_bootstrap {store : OperationStore} {dl : Delivery} {b : SnapshotBootstrap} :
    ∀ {m : ServerMessage}, SyncServer.Describes store m → delivery m = some dl →
      dl.bootstrap = some b →
      TextReplica.snapshotOps b.snapshot = {op | op ∈ (between SequencedOperation.serverSeq 0
        b.snapshotSeq (store.log dl.documentId)).map (·.operation)} ∧
      dl.items = between SequencedOperation.serverSeq b.snapshotSeq dl.confirmed
        (store.log dl.documentId)
  | .sync m, ⟨cursor, hm⟩, hd, hb => by
    cases hd
    obtain ⟨-, -, -, hexport, hitems⟩ := hm.bootstrap b hb
    exact ⟨(exportPrefixSnapshot_sound hexport).2, hitems⟩
  | .operation m, hm, hd, hb => by
    cases hd
    cases hb

/-- What a message brings is stored by the transaction that ingests it. -/
theorem delivers_carries {store : OperationStore} {m : ServerMessage} {dl : Delivery}
    (hm : SyncServer.Describes store m) (hd : delivery m = some dl) {c : LocalDocumentController}
    {db db' : Database} {env : Surroundings} (hdoc : dl.documentId = c.documentId)
    (hdelivers : c.Delivers db env dl db') {row : SequencedOperation}
    (hrow : row ∈ carries (store.log dl.documentId) m) :
    row.operation ∈ db'.documentOps dl.documentId := by
  unfold carries at hrow
  rw [hd] at hrow
  rw [hdoc, hdelivers.documentOps]
  cases hb : dl.bootstrap with
  | none =>
    simp only [hb] at hrow
    exact Or.inr (List.mem_map_of_mem hrow)
  | some b =>
    simp only [hb] at hrow
    obtain ⟨hsnapshot, -⟩ := describes_bootstrap hm hd hb
    rcases List.mem_append.1 hrow with hrow | hrow
    · refine Or.inl ?_
      simp only [hsnapshot]
      exact List.mem_map_of_mem hrow
    · exact Or.inr (List.mem_map_of_mem hrow)

/-- A bootstrap brings everything that it confirms. -/
theorem bootstrap_carries {store : OperationStore} (hlog : store.LogInv) {m : ServerMessage}
    {dl : Delivery} {b : SnapshotBootstrap} (hm : SyncServer.Describes store m)
    (hd : delivery m = some dl) (hb : dl.bootstrap = some b) {row : SequencedOperation}
    (hrow : row ∈ store.log dl.documentId) (hle : row.serverSeq ≤ dl.confirmed) :
    row ∈ carries (store.log dl.documentId) m := by
  obtain ⟨-, hitems⟩ := describes_bootstrap hm hd hb
  have hpositive := (hlog.log_bounds hrow).1
  unfold carries
  simp only [hd, hb, hitems]
  by_cases hsnapshot : row.serverSeq ≤ b.snapshotSeq
  · exact List.mem_append_left _ (mem_between.2 ⟨hrow, by omega, hsnapshot⟩)
  · exact List.mem_append_right _ (mem_between.2 ⟨hrow, by omega, hle⟩)

theorem delivery_of_carries {log : List SequencedOperation} {m : ServerMessage}
    {row : SequencedOperation} (h : row ∈ carries log m) : ∃ dl, delivery m = some dl := by
  cases hd : delivery m with
  | none =>
    unfold carries at h
    rw [hd] at h
    cases h
  | some dl => exact ⟨dl, rfl⟩

section

variable {segmentGraphemes : JsString → List JsString} {w : System} (h : CursorInv w)
include h

/-- A row that the message being stored confirms is at or below the cursor, or comes with the
message, or came with an earlier one of the socket. -/
theorem CursorInv.confirmed_row {i : Nat} {k : SocketId} {m : ServerMessage} {dl : Delivery}
    (hh : (w.pages i).sync.handling = some ⟨k, m, .ingesting⟩) (hd : delivery m = some dl)
    {row : SequencedOperation} (hrow : row ∈ w.server.store.log dl.documentId)
    (hle : row.serverSeq ≤ dl.confirmed) :
    row.serverSeq ≤ (w.pages i).db.getLastServerSeq dl.documentId ∨
      row ∈ carries (w.server.store.log dl.documentId) m ∨
      ∃ m' dl', delivery m' = some dl' ∧ dl'.documentId = dl.documentId ∧
        row ∈ carries (w.server.store.log dl.documentId) m' ∧ Done w i k m' := by
  obtain ⟨hsent, howner⟩ := h.base.received i _ (Page.received_handler hh)
  have hfirst : ∃ rest, (w.pages i).waiting k = m :: rest := by
    unfold Page.waiting Page.queue SyncServer.toSocket
    rw [hh]
    exact ⟨_, List.filterMap_cons_some (if_pos rfl)⟩
  obtain ⟨rest, hrest⟩ := hfirst
  obtain ⟨before, after, hsplit, hdone⟩ := h.ordered i k (by rw [hrest]; exact List.cons_ne_nil _ _)
  rw [hrest, List.append_assoc, List.cons_append] at hsplit
  rcases h.linked i k howner with ⟨-, hquiet⟩ | ⟨join, n, hframe, hstream, hfollows⟩
  · have hq : SyncServer.Quiet m := hquiet m (SyncServer.mem_toSocket.2 hsent)
    rw [hq] at hd
    cases hd
  obtain ⟨hjoin, hrows⟩ := hfollows before m _ dl hsplit hd
  by_cases hcursor : row.serverSeq ≤ join.lastServerSeq
  · have hframes := h.frames i k join hframe
    rw [← hjoin] at hframes
    exact Or.inl (by omega)
  rw [hjoin] at hrow
  obtain ⟨m', hm', hcarries⟩ := hrows row hrow (by omega) hle
  rw [← hjoin] at hcarries
  right
  rcases List.mem_append.1 hm' with hm' | hm'
  · obtain ⟨dl', hd'⟩ := delivery_of_carries hcarries
    obtain ⟨front, back, hfront⟩ := List.append_of_mem hm'
    rw [hfront, List.append_assoc, List.cons_append] at hsplit
    exact Or.inr ⟨m', dl', hd', (hfollows front m' _ dl' hsplit hd').1.trans hjoin.symm, hcarries,
      hdone m' hm'⟩
  · rw [List.mem_singleton.1 hm'] at hcarries
    exact Or.inl hcarries

/-- **An ingest that does not jump leaves the cursor complete.** -/
theorem CursorInv.page_complete {i : Nat} {pe : PageEvent} (hjump : ¬ Jumps w (.page i pe))
    {d : JsString} {row : SequencedOperation} (hrow : row ∈ w.server.store.log d)
    (hle : row.serverSeq ≤ ((w.pages i).handle segmentGraphemes pe).db.getLastServerSeq d) :
    row.operation ∈ ((w.pages i).handle segmentGraphemes pe).db.documentOps d := by
  have hstores := @Page.handle_stores segmentGraphemes (w.pages i) pe
  have hkept := hstores.documentOps_kept d
  have hold : row.serverSeq ≤ (w.pages i).db.getLastServerSeq d →
      row.operation ∈ ((w.pages i).handle segmentGraphemes pe).db.documentOps d :=
    fun hle => hkept (h.complete i d row hrow hle)
  rcases hstores.lastServerSeq with hcursor | ⟨env, c, k, m, dl, rfl, hc, hh, hd, hdelivers⟩
  · exact hold (by rw [← hcursor d]; exact hle)
  obtain ⟨dl', hd', hdoc⟩ := (h.base.pages i).handling _ hh
  obtain rfl : dl = dl' := Option.some.inj (hd.symm.trans hd')
  have hdoc : dl.documentId = c.documentId := hdoc.trans ((h.base.pages i).wired c hc).1
  obtain ⟨hsent, -⟩ := h.base.received i _ (Page.received_handler hh)
  have hdescribes := (h.base.server.sent _ hsent).2
  rw [hdelivers.lastServerSeq (hdescribes.confirmed h.base.server.log hd).1 d] at hle
  by_cases hdd : c.documentId = d
  swap
  · rw [if_neg hdd] at hle
    exact hold hle
  rw [if_pos hdd] at hle
  obtain rfl : dl.documentId = d := hdoc.trans hdd
  have hor : row.serverSeq ≤ (w.pages i).db.getLastServerSeq dl.documentId ∨
      row.serverSeq ≤ dl.confirmed := by omega
  rcases hor with hle | hle
  · exact hold hle
  by_cases hstored : row.operation ∈ (w.pages i).db.documentOps dl.documentId
  · exact hkept hstored
  by_cases hcarried : row ∈ carries (w.server.store.log dl.documentId) m
  · exact delivers_carries hdescribes hd hdoc hdelivers hcarried
  rcases h.confirmed_row hh hd hrow hle with hcursor | hcarried' | ⟨m', dl', hd', hsame, hcarries, hdone⟩
  · exact hold hcursor
  · exact absurd hcarried' hcarried
  -- the row came with an earlier message of the socket, and that message is not stored
  rcases hdone with hdropped | hstored'
  · cases hb : dl.bootstrap with
    | none =>
      rcases hdelivers.spec with ⟨-, hok, -⟩ | ⟨b, hb', -⟩
      · refine absurd ?_ hjump
        rw [← hdoc] at hok
        refine ⟨c, k, m, dl, hc, hh, hd, hb, hok, m', dl', hdropped, hd', hsame, row, hrow, hcarries,
          hle, hstored, fun hitem => hcarried ?_⟩
        unfold carries
        simp only [hd, hb]
        exact hitem
      · rw [hb] at hb'
        cases hb'
    | some b => exact absurd (bootstrap_carries h.base.server.log hdescribes hd hb hrow hle) hcarried
  · refine absurd ?_ hstored
    rw [← hsame] at hcarries ⊢
    exact hstored' dl' hd' row hcarries

/-- What has been sent is settled, or has just been. -/
theorem CursorInv.page_done {w' : System} {i : Nat} {pe : PageEvent}
    (hserver : w'.server = w.server)
    (hpage : w'.pages i = (w.pages i).handle segmentGraphemes pe)
    (hdropped : ∀ p ∈ (w.pages i).sync.dropped, p ∈ (w'.pages i).sync.dropped) :
    (∀ k m, Done w i k m → Done w' i k m) ∧
      ∀ k m, ((k, m) ∈ (w'.pages i).sync.dropped ∨ ∃ env c dl, (w.pages i).controller = some c ∧
        (w.pages i).sync.handling = some ⟨k, m, .ingesting⟩ ∧ delivery m = some dl ∧
        c.Delivers (w.pages i).db env dl (w'.pages i).db) → Done w' i k m := by
  have hstores := @Page.handle_stores segmentGraphemes (w.pages i) pe
  rw [← hpage] at hstores
  constructor
  · intro k m hm
    rcases hm with hm | hm
    · exact Or.inl (hdropped _ hm)
    · refine Or.inr fun dl hd row hrow => hstores.documentOps_kept _ (hm dl hd row ?_)
      rw [← hserver]
      exact hrow
  · intro k m hm
    rcases hm with hm | ⟨env, c, dl, hc, hh, hd, hdelivers⟩
    · exact Or.inl hm
    · refine Or.inr fun dl' hd' row hrow => ?_
      obtain rfl : dl = dl' := Option.some.inj (hd.symm.trans hd')
      obtain ⟨dl', hd', hdoc⟩ := (h.base.pages i).handling _ hh
      obtain rfl : dl = dl' := Option.some.inj (hd.symm.trans hd')
      have hqueue : (k, m) ∈ (w.pages i).queue := by
        unfold Page.queue
        rw [hh]
        exact List.mem_cons_self
      obtain ⟨hsent, -⟩ := h.base.received i _ (Page.queue_received _ hqueue)
      rw [hserver] at hrow
      exact delivers_carries (h.base.server.sent _ hsent).2 hd
        (hdoc.trans ((h.base.pages i).wired c hc).1) hdelivers hrow

/-- The cursor does not go back, and stays below the last number of the server. -/
theorem CursorInv.page_cursor {i : Nat} {pe : PageEvent} (d : JsString) :
    (w.pages i).db.getLastServerSeq d ≤
        ((w.pages i).handle segmentGraphemes pe).db.getLastServerSeq d ∧
      ((w.pages i).handle segmentGraphemes pe).db.getLastServerSeq d ≤
        w.server.store.lastServerSeq := by
  have hbound := h.bounded i d
  have hstores := @Page.handle_stores segmentGraphemes (w.pages i) pe
  rcases hstores.lastServerSeq with hcursor | ⟨env, c, k, m, dl, rfl, hc, hh, hd, hdelivers⟩
  · rw [hcursor d]
    omega
  · have hqueue : (k, m) ∈ (w.pages i).queue := by
      unfold Page.queue
      rw [hh]
      exact List.mem_cons_self
    obtain ⟨hsent, -⟩ := h.base.received i _ (Page.queue_received _ hqueue)
    have hbounds := (h.base.server.sent _ hsent).2.confirmed h.base.server.log hd
    rw [hdelivers.lastServerSeq hbounds.1 d]
    split <;> omega

section

variable {w' : System} {i : Nat} {pe : PageEvent} (hstep : PageStep segmentGraphemes w w' i pe)
include hstep

omit h in
/-- What is settled for another page stays so. -/
theorem PageStep.done_other {j : Nat} (hj : j ≠ i) {k : SocketId} {m : ServerMessage}
    (hm : Done w j k m) : Done w' j k m := by
  unfold Done Stored at hm ⊢
  rw [hstep.other j hj, hstep.server]
  exact hm

/-- The calls of `sendJoin` have read a cursor that the page has reached. -/
theorem CursorInv.page_calls : ∀ call ∈ (w'.pages i).sync.joins, ∀ n,
    DocumentSyncClient.JoinStage.lastServerSeq call.stage = some n →
    n ≤ (w'.pages i).db.getLastServerSeq (w'.pages i).sync.documentId := by
  intro call hcall n hn
  have hmoves := @Page.handle_moves segmentGraphemes (w.pages i) pe
  have hcursor := (@CursorInv.page_cursor segmentGraphemes w h i pe (w.pages i).sync.documentId).1
  rw [← hstep.page] at hmoves hcursor
  rcases hmoves.documentId with hd | ⟨-, hnil⟩
  · rw [hd]
    rcases hmoves.calls hcall with ⟨old, hold, -, hseq | hseq | hseq⟩ | ⟨hstage, -⟩
    · have := h.calls i old hold n (hseq.symm.trans hn)
      omega
    · rw [hseq] at hn
      cases hn
    · rw [hseq] at hn
      cases hn
      exact hcursor
    · rw [hstage] at hn
      cases hn
  · rw [hnil] at hcall
    cases hcall

/-- So have the join messages. -/
theorem CursorInv.page_frames : ∀ k join, (k, .join join) ∈ (w'.pages i).sync.sent →
    join.lastServerSeq ≤ (w'.pages i).db.getLastServerSeq join.documentId := by
  intro k join hjoin
  have hsends := (@Page.handle_moves segmentGraphemes (w.pages i) pe).sends
  have hcursor := (@CursorInv.page_cursor segmentGraphemes w h i pe join.documentId).1
  rw [← hstep.page] at hsends hcursor
  have hold : (k, .join join) ∈ (w.pages i).sync.sent →
      join.lastServerSeq ≤ (w'.pages i).db.getLastServerSeq join.documentId :=
    fun hmem => (h.frames i k join hmem).trans hcursor
  cases hsends with
  | none hs => rw [hs] at hjoin; exact hold hjoin
  | joins k' call message hcall hdocument hseq hsocket hopen hgone hs =>
    rw [hs] at hjoin
    rcases List.mem_append.1 hjoin with hjoin | hjoin
    · exact hold hjoin
    · cases List.mem_singleton.1 hjoin
      have hcall := h.calls i call hcall _ hseq
      rw [← hdocument] at hcall
      exact hcall.trans hcursor
  | submits k' documentId operations hs =>
    rw [hs] at hjoin
    rcases List.mem_append.1 hjoin with hjoin | hjoin
    · exact hold hjoin
    · obtain ⟨-, operation, -, hcontra⟩ := Page.mem_submits.1 hjoin
      cases hcontra

/-- A new socket is not linked to a log yet. -/
theorem CursorInv.page_linked (j : Nat) (k : SocketId) (hk : w'.owner k = some j) : Linked w' j k := by
  rcases hstep.owner k j hk with hk | ⟨rfl, hunused⟩
  · unfold Linked
    rw [hstep.server]
    refine (h.linked j k hk).imp_right fun ⟨join, n, hframe, hrest⟩ => ⟨join, n, ?_, hrest⟩
    by_cases hji : j = i
    · subst hji
      rw [hstep.page]
      exact (@Page.handle_moves segmentGraphemes (w.pages j) pe).sends.kept hframe
    · rw [hstep.other j hji]
      exact hframe
  · obtain ⟨hnone, hnil⟩ := h.base.unused_silent hunused
    refine Or.inl ⟨by rw [hstep.server]; exact hnone, fun m hm => ?_⟩
    rw [hstep.server, hnil] at hm
    cases hm

theorem CursorInv.page_silent (k : SocketId) (hk : (w'.pages i).sync.readyState k = .connecting) :
    (w'.pages i).waiting k = [] := by
  have hmoves := @Page.handle_moves segmentGraphemes (w.pages i) pe
  have hlinks := @Page.handle_links segmentGraphemes (w.pages i) pe
  rw [← hstep.page] at hmoves hlinks
  rcases hmoves.queue with ⟨-, hnil⟩ | ⟨-, front, hq, -⟩
  · unfold Page.waiting
    rw [hnil]
    rfl
  · have hnil := h.silent i k (hlinks.connecting k hk)
    rw [Page.waiting_front hq k] at hnil
    exact (List.append_eq_nil_iff.1 hnil).2

/-- The messages that have arrived on the open socket are settled, or wait. -/
theorem CursorInv.page_listening (k : SocketId) (hk : (w'.pages i).sync.socket = some k)
    (hopen : (w'.pages i).sync.readyState k = .opened) : ∃ before,
      before ++ (w'.pages i).waiting k = (w.server.sentTo k).take (w.toPage k) ∧
        ∀ m ∈ before, Done w' i k m := by
  have hmoves := @Page.handle_moves segmentGraphemes (w.pages i) pe
  have hlinks := @Page.handle_links segmentGraphemes (w.pages i) pe
  rw [← hstep.page] at hmoves hlinks
  rcases hmoves.queue with ⟨hisOpen, -⟩ | ⟨hdropped, front, hq, hfront⟩
  · cases pe with
    | opens options env displayName =>
      rw [hstep.page] at hk
      cases (Page.opens_socket (w.pages i) options env displayName).symm.trans hk
    | _ => cases hisOpen
  obtain ⟨hdone, hsettled⟩ := h.page_done hstep.server hstep.page hdropped
  have hwaiting := Page.waiting_front hq k
  rcases hlinks.socket k hk with hk | hfresh
  · rcases hlinks.opened k hopen with hopen | hconnecting
    · obtain ⟨before, hbefore, hsettledBefore⟩ := h.listening i k hk hopen
      refine ⟨before ++ SyncServer.toSocket k front, ?_, fun m hm => ?_⟩
      · rw [← hbefore, hwaiting, List.append_assoc]
      · rcases List.mem_append.1 hm with hm | hm
        · exact hdone k m (hsettledBefore m hm)
        · exact hsettled k m (hfront _ (SyncServer.mem_toSocket.1 hm))
    · -- the socket has just opened: nothing of a log has been sent to it
      have hnil := h.silent i k hconnecting
      rw [hwaiting] at hnil
      refine ⟨_, by rw [(List.append_eq_nil_iff.1 hnil).2, List.append_nil], fun m hm => ?_⟩
      rcases h.linked i k (h.base.owned i k hk) with ⟨-, hquiet⟩ | ⟨join, -, hframe, -⟩
      · refine Or.inr fun dl hd => ?_
        have hq : SyncServer.Quiet m := hquiet m (List.mem_of_mem_take hm)
        rw [hq] at hd
        cases hd
      · exact absurd hconnecting ((h.joins i).opened k join hframe)
  · have hunused := allows_fresh hstep.allows hfresh
    have hnil : (w.pages i).waiting k = [] := by
      refine List.eq_nil_iff_forall_not_mem.2 fun m hm => ?_
      have hreceived := h.base.received i _ (Page.queue_received _ (SyncServer.mem_toSocket.1 hm))
      simp [System.unused, hreceived.2] at hunused
    rw [hwaiting] at hnil
    refine ⟨[], ?_, fun m hm => by cases hm⟩
    rw [(List.append_eq_nil_iff.1 hnil).2, (h.base.unused_silent hunused).2, List.take_nil]
    rfl

/-- The messages before those that wait are settled. -/
theorem CursorInv.page_ordered (k : SocketId) (hk : (w'.pages i).waiting k ≠ []) : ∃ before after,
    w.server.sentTo k = before ++ (w'.pages i).waiting k ++ after ∧ ∀ m ∈ before, Done w' i k m := by
  have hmoves := @Page.handle_moves segmentGraphemes (w.pages i) pe
  rw [← hstep.page] at hmoves
  rcases hmoves.queue with ⟨-, hnil⟩ | ⟨hdropped, front, hq, hfront⟩
  · refine absurd ?_ hk
    unfold Page.waiting
    rw [hnil]
    rfl
  · obtain ⟨hdone, hsettled⟩ := h.page_done hstep.server hstep.page hdropped
    have hwaiting := Page.waiting_front hq k
    have hne : (w.pages i).waiting k ≠ [] := by
      rw [hwaiting]
      exact fun hnil => hk (List.append_eq_nil_iff.1 hnil).2
    obtain ⟨before, after, hsplit, hbefore⟩ := h.ordered i k hne
    refine ⟨before ++ SyncServer.toSocket k front, after, ?_, fun m hm => ?_⟩
    · rw [hsplit, hwaiting]
      simp only [List.append_assoc]
    · rcases List.mem_append.1 hm with hm | hm
      · exact hdone k m (hbefore m hm)
      · exact hsettled k m (hfront _ (SyncServer.mem_toSocket.1 hm))

end

/-- **An event of a page that does not jump keeps the invariant.** -/
theorem CursorInv.page {w' : System} {i : Nat} {pe : PageEvent}
    (hstep : PageStep segmentGraphemes w w' i pe) (hjump : ¬ Jumps w (.page i pe)) (hbase : Inv w') :
    CursorInv w' := by
  have hserver := hstep.server
  have hother := hstep.other
  have hpage := hstep.page
  -- one page at a time: the others are as they were
  have hcase : ∀ {p : Nat → Prop}, (∀ j, j ≠ i → p j) → p i → ∀ j, p j := by
    intro p hj hi j
    by_cases hji : j = i
    · rw [hji]
      exact hi
    · exact hj j hji
  refine ⟨hbase, hcase (fun j hj => ?_) ?_, hcase (fun j hj => ?_) ?_, hcase (fun j hj => ?_) ?_,
    hcase (fun j hj => ?_) (h.page_calls hstep), hcase (fun j hj => ?_) (h.page_frames hstep),
    h.page_linked hstep, fun k => ?_, hcase (fun j hj => ?_) (h.page_silent hstep),
    hcase (fun j hj => ?_) ?_, hcase (fun j hj => ?_) ?_⟩
  · rw [hother j hj]
    exact h.joins j
  · rw [hpage]
    exact (h.joins i).handle pe
  · rw [hother j hj, hserver]
    exact h.complete j
  · rw [hpage, hserver]
    exact fun d row hrow hle => h.page_complete hjump hrow hle
  · rw [hother j hj, hserver]
    exact h.bounded j
  · rw [hpage, hserver]
    exact fun d => (h.page_cursor d).2
  · rw [hother j hj]
    exact h.calls j
  · rw [hother j hj]
    exact h.frames j
  · rw [hstep.toPage, hserver]
    exact h.arrived k
  · rw [hother j hj]
    exact h.silent j
  · intro k hk hopen
    rw [hother j hj] at hk hopen ⊢
    obtain ⟨before, hbefore, hdone⟩ := h.listening j k hk hopen
    rw [hserver, hstep.toPage]
    exact ⟨before, hbefore, fun m hm => hstep.done_other hj (hdone m hm)⟩
  · rw [hserver, hstep.toPage]
    exact h.page_listening hstep
  · intro k hk
    rw [hother j hj] at hk ⊢
    obtain ⟨before, after, hsplit, hdone⟩ := h.ordered j k hk
    rw [hserver]
    exact ⟨before, after, hsplit, fun m hm => hstep.done_other hj (hdone m hm)⟩
  · rw [hserver]
    exact h.page_ordered hstep

end

/-! ## Runs -/

section

variable {segmentGraphemes : JsString → List JsString} {w : System}

theorem CursorInv.handle (h : CursorInv w) {e : SystemEvent} (hanswers : Answers e)
    (hjump : ¬ Jumps w e) : CursorInv (w.handle segmentGraphemes e) := by
  have hbase := @Inv.handle segmentGraphemes w h.base e
  have hstep := @handle_steps segmentGraphemes w e
  generalize w.handle segmentGraphemes e = w' at hbase hstep
  cases hstep with
  | idle heq =>
    rw [heq]
    exact h
  | page i pe he hallows heq =>
    rw [he] at hjump
    exact h.page (h.base.pageStep hallows heq) hjump hbase
  | served se hfree hindependent heq =>
    have hjoin : ∀ i k message env, w.owner k = some i →
        se = .message k (.message (.join message)) env →
        (k, .join message) ∈ (w.pages i).sync.sent ∧ env.syncThrows = none := by
      intro i k message env hk hse
      rw [hfree k _ env hse] at hk
      cases hk
    exact h.server_handle (by rw [heq]) (by rw [heq]) hbase (by rw [heq]) (by rw [heq]) hjoin
  | arrives socket env i message he howner hframe heq =>
    have hjoin : ∀ j k join env', w.owner k = some j →
        SyncServer.Event.message socket (.message message) env =
          .message k (.message (.join join)) env' →
        (k, .join join) ∈ (w.pages j).sync.sent ∧ env'.syncThrows = none := by
      intro j k join env' hk hse
      cases hse
      obtain rfl : i = j := Option.some.inj (howner.symm.trans hk)
      rw [he] at hanswers
      exact ⟨Page.mem_sentOn (List.mem_of_getElem? hframe), hanswers⟩
    exact h.server_handle (by rw [heq]) (by rw [heq]) hbase (by rw [heq]) (by rw [heq]) hjoin
  | reaches socket i message he howner hmessage heq =>
    exact h.reaches (.of_eq howner hmessage heq) hbase

/-- A jump leaves the cursor incomplete. -/
theorem Jumps.incomplete (h : Inv w) {e : SystemEvent} (hjump : Jumps w e) :
    ¬ CursorComplete (w.handle segmentGraphemes e) := by
  unfold Jumps at hjump
  split at hjump
  · rename_i i env
    obtain ⟨c, k, m, dl, hc, hh, hd, hb, hok, m', dl', -, -, -, row, hrow, -, hle, hnew, hitem⟩ := hjump
    obtain ⟨dl', hd', hdoc⟩ := (h.pages i).handling _ hh
    obtain rfl : dl = dl' := Option.some.inj (hd.symm.trans hd')
    have hdoc : dl.documentId = c.documentId := hdoc.trans ((h.pages i).wired c hc).1
    have hdescribes : SyncServer.Describes w.server.store m :=
      (h.server.sent _ (h.received i _ (Page.received_handler hh)).1).2
    have hpage : (w.handle segmentGraphemes (.page i (.ingest (.runs env)))).pages i =
        (w.pages i).ingest (.runs env) := by
      simp only [System.handle, allows, if_true, claim_pages, setPage_pages]
      rfl
    have hserver : (w.handle segmentGraphemes (.page i (.ingest (.runs env)))).server = w.server := by
      simp only [System.handle, allows, if_true, claim_server]
      rfl
    have hdb : ((w.pages i).ingest (.runs env)).db =
        (Page.runDelivery c (w.pages i).db env dl).2.1 := by
      unfold Page.ingest
      simp only [hc, hh, hd]
    have hdelivers := LocalDocumentController.runDelivery_delivers env hb (hdoc ▸ hok)
    rw [← hdb] at hdelivers
    intro hcomplete
    have hin := hcomplete i dl.documentId row (by rw [hserver]; exact hrow) (by
      rw [hpage, hdelivers.lastServerSeq (hdescribes.confirmed h.server.log hd).1, if_pos hdoc.symm]
      omega)
    rw [hpage, hdoc, hdelivers.documentOps, hb, ← hdoc] at hin
    rcases hin with hin | hin
    · exact hnew hin
    · -- an item with the operation of the row is the row
      obtain ⟨item, hi, heq⟩ := List.mem_map.1 hin
      have hlog := hdescribes.items hd item hi
      have hsame := h.server.log.log_unique hlog hrow (by rw [heq])
      rw [hsame] at hi
      exact hitem hi
  · exact hjump.elim

/-- A run without a jump keeps the invariant. -/
theorem CursorInv.run : ∀ {w : System} (before : List SystemEvent) {after : List SystemEvent},
    CursorInv w → (∀ e ∈ before ++ after, Answers e) →
    (∀ front e back, before ++ after = front ++ e :: back →
      ¬ Jumps (w.run segmentGraphemes front) e) → CursorInv (w.run segmentGraphemes before)
  | _, [], _, h, _, _ => h
  | _, e :: before, after, h, hanswers, hjumps =>
    (h.handle (hanswers e List.mem_cons_self) (hjumps [] e (before ++ after) rfl)).run before
      (fun e' he' => hanswers e' (List.mem_cons_of_mem e he'))
      fun front e' back heq => hjumps (e :: front) e' back (congrArg (e :: ·) heq)

/-- **When everything at or below the cursor is stored.**  In every run in which the server does
not fail while it answers a join: the cursors are complete in every state exactly when no step
jumps. -/
theorem cursor_complete_iff {store : OperationStore} (hstore : store.Reachable)
    (es : List SystemEvent) (hanswers : ∀ e ∈ es, Answers e) :
    (∀ before after, es = before ++ after →
      CursorComplete ((System.start store).run segmentGraphemes before)) ↔
    ∀ before e after, es = before ++ e :: after →
      ¬ Jumps ((System.start store).run segmentGraphemes before) e := by
  constructor
  · intro hcomplete before e after hes hjump
    have hafter := hcomplete (before ++ [e]) after (by rw [hes, List.append_assoc]; rfl)
    rw [run_append] at hafter
    exact hjump.incomplete (run_inv hstore before) hafter
  · intro hjumps before after hes
    rw [hes] at hanswers hjumps
    exact (CursorInv.run before (CursorInv.start hstore) hanswers hjumps).complete

end

/-- A page catches up with a log of one row. -/
theorem cursor_complete_iff_synced :
    let segment : JsString → List JsString := fun text => text.map ([·])
    let env : Surroundings := ⟨js "now", 0, js "A", true⟩
    let first : TextOperation := .insert ⟨js "B:1", js "B", 1, 1, ROOT_ID, js "b"⟩
    let store := OperationStore.empty.insertOperation (js "d") first
    let joined : List SystemEvent :=
      [.page 0 (.opens ⟨some (js "d"), none, none⟩ env none), .page 0 (.connect 0), .connection 0 5,
        .page 0 (.socketOpened 0), .page 0 (.readLastServerSeq 0), .page 0 (.resumeJoin 0),
        .page 0 (.readEligible 0), .page 0 (.resumeJoin 0),
        .toServer 0 ⟨none, none, none, true, id⟩, .toPage 0, .page 0 .handleNext]
    let w := (System.start store).run segment (joined ++ [.page 0 (.ingest (.runs env))])
    CursorComplete w ∧ (w.pages 0).db.getLastServerSeq (js "d") = 1 := by
  intro segment env first store joined
  have hstore : store.Reachable := .append (js "d") first .empty rfl
  have hanswers : ∀ e ∈ joined ++ [.page 0 (.ingest (.runs env))], Answers e := by
    intro e he
    simp only [joined, List.cons_append, List.nil_append, List.mem_cons, List.not_mem_nil,
      or_false] at he
    rcases he with rfl | rfl | rfl | rfl | rfl | rfl | rfl | rfl | rfl | rfl | rfl | rfl
    all_goals first | exact trivial | rfl
  have hjumps : ∀ before e after, joined ++ [.page 0 (.ingest (.runs env))] = before ++ e :: after →
      ¬ Jumps ((System.start store).run segment before) e := by
    intro before e after hes
    rcases split_append hes with ⟨rest, hjoined⟩ | ⟨before', hbefore, hlast⟩
    · -- nothing is ingested before
      have he : e ∈ joined := by
        rw [hjoined]
        simp
      simp only [joined, List.mem_cons, List.not_mem_nil, or_false] at he
      rcases he with rfl | rfl | rfl | rfl | rfl | rfl | rfl | rfl | rfl | rfl | rfl
      all_goals exact fun h => h
    · cases before' with
      | cons x xs =>
        have hlength := congrArg List.length hlast
        simp at hlength
      | nil =>
        obtain ⟨rfl, -⟩ := List.cons.inj hlast
        rw [List.append_nil] at hbefore
        rw [hbefore]
        rintro ⟨c, k, m, dl, -, -, -, -, -, m', dl', hdropped, -⟩
        have hnil : (((System.start store).run segment joined).pages 0).sync.dropped = [] := by
          decide +kernel
        rw [hnil] at hdropped
        cases hdropped
  have hcomplete := (cursor_complete_iff hstore _ hanswers).2 hjumps
    (joined ++ [.page 0 (.ingest (.runs env))]) [] (List.append_nil _).symm
  have hcursor : (((System.start store).run segment (joined ++ [.page 0 (.ingest (.runs env))])).pages
      0).db.getLastServerSeq (js "d") = 1 := by
    decide +kernel
  with_reducible exact And.intro hcomplete hcursor

/-- The ingest of the first live operation is aborted; the second one is stored, and carries the
cursor past the first. -/
theorem cursor_incomplete :
    let segment : JsString → List JsString := fun text => text.map ([·])
    let env : Surroundings := ⟨js "now", 0, js "A", true⟩
    let serverEnv : ServerEnv := ⟨none, none, none, true, id⟩
    let first : TextOperation := .insert ⟨js "B:1", js "B", 1, 1, ROOT_ID, js "b"⟩
    let second : TextOperation := .insert ⟨js "B:2", js "B", 2, 2, js "B:1", js "c"⟩
    let es : List SystemEvent :=
      [.page 0 (.opens ⟨some (js "d"), none, none⟩ env none), .page 0 (.connect 0), .connection 0 5,
        .page 0 (.socketOpened 0), .page 0 (.readLastServerSeq 0), .page 0 (.resumeJoin 0),
        .page 0 (.readEligible 0), .page 0 (.resumeJoin 0), .toServer 0 serverEnv, .toPage 0,
        .page 0 .handleNext, .page 0 (.ingest (.runs env)), .page 0 .resumeHandler,
        .page 0 (.loadPending none), .page 0 .resumeHandler, .page 0 .resumeHandler,
        .page 0 (.loadPending none), .page 0 .resumeHandler, .toPage 0, .page 0 .handleNext,
        .server (.connection 1 6),
        .server (.message 1 (.message (.join ⟨js "d", js "B", 0, none, none⟩)) serverEnv),
        .server (.message 1 (.message (.submitOperation ⟨js "d", first⟩)) serverEnv),
        .server (.message 1 (.message (.submitOperation ⟨js "d", second⟩)) serverEnv),
        .toPage 0, .toPage 0, .toPage 0, .page 0 .handleNext, .page 0 .handleNext,
        .page 0 (.ingest (.aborts ⟨.error, js "AbortError"⟩)), .page 0 .resumeHandler,
        .page 0 .handleNext, .page 0 (.ingest (.runs env))]
    ¬ CursorComplete ((System.start .empty).run segment es) := by
  intro segment env serverEnv first second es
  have missing : ∀ w : System, ⟨1, first⟩ ∈ w.server.store.log (js "d") →
      1 ≤ (w.pages 0).db.getLastServerSeq (js "d") →
      (w.pages 0).db.loadServerBaseline (js "d") = none →
      first ∉ (w.pages 0).db.loadOperations (js "d") → ¬ CursorComplete w := by
    intro w hrow hcursor hbaseline hmissing hcomplete
    have hop := hcomplete 0 (js "d") ⟨1, first⟩ hrow hcursor
    unfold Database.documentOps at hop
    rw [hbaseline] at hop
    exact hmissing (Database.mem_loadOperations.2 hop)
  exact missing _ (by decide +kernel) (by decide +kernel) (by decide +kernel) (by decide +kernel)

end System

end LocalFirst
