import LocalFirst.Server.DocumentView
import LocalFirst.Sync.CatchUp
import LocalFirst.Sync.PendingOrder

/-!
# The log is closed under dependencies

* `DependencyClosed` — in every prefix of a log, what an operation refers to is there.
* `OrderInv` — the sessions of the server have logged what their pages have sent; the frames that are
  still to come refer to what is in the log or comes before them.
* `log_dependency_closed` — in a run in which no submit overtakes the outbox and no edit is stranded
  every log is closed.
* `not_losesOrder_of_keeps` — an executable check of a step that keeps the order.
* `overtaken` — a submit while the flush of the outbox waits for the store puts an insert before the
  one that it is anchored on.
-/

set_option autoImplicit false

namespace LocalFirst

/-- In every prefix of the log each insert is anchored on `ROOT` or on an insert before it, and each
delete targets an insert before it. -/
def DependencyClosed (log : List SequencedOperation) : Prop :=
  ∀ part, part <+: log → ∀ before item after, part = before ++ item :: after →
    match item.operation with
    | .insert op => op.afterId = ROOT_ID ∨
      ∃ earlier ∈ before, ∃ i, earlier.operation = .insert i ∧ i.opId = op.afterId
    | .delete op => ∃ earlier ∈ before, ∃ i, earlier.operation = .insert i ∧ i.opId = op.targetId

theorem dependencyClosed_of_restsInOrder {log : List SequencedOperation}
    (h : RestsInOrder ∅ (log.map (·.operation))) : DependencyClosed log := by
  rintro part ⟨rest, rfl⟩ before item after rfl
  have hrests := h (before.map (·.operation)) item.operation ((after ++ rest).map (·.operation))
    (by simp)
  have hearlier : ∀ {id : JsString}, (∃ x ∈ (∅ ∪ {x | x ∈ before.map (·.operation)} :
      Set TextOperation), x.element = some id) →
      ∃ earlier ∈ before, ∃ i, earlier.operation = .insert i ∧ i.opId = id := by
    rintro id ⟨x, hx | hx, hid⟩
    · cases hx
    · obtain ⟨earlier, hearlier, rfl⟩ := List.mem_map.1 hx
      exact ⟨earlier, hearlier, TextOperation.element_eq_some.1 hid⟩
  cases hop : item.operation with
  | insert op =>
    rw [hop] at hrests
    refine or_iff_not_imp_left.2 fun hroot => hearlier (hrests op.afterId ?_)
    exact if_neg hroot
  | delete op =>
    rw [hop] at hrests
    exact hearlier (hrests op.targetId rfl)

/-! ## The server -/

namespace SyncServer

variable {w : SyncServer} {k : SocketId} {d : JsString}

/-- An operation that the server can read, from a client that has joined its document, is in the log
afterwards, unless another one has its id. -/
theorem Inv.submit_logged (h : Inv w) {session : SocketSession} {op : TextOperation} {env : ServerEnv}
    (hsession : w.sessions.get? k = some session) (hdocument : session.documentId = some d)
    (hclient : session.clientId = some op.clientId)
    (hschema : submitOperationMessageSchema ⟨d, op⟩ = true) (hvalid : ValidOperation op)
    (hok : env.appendThrows = none)
    (hunique : ∀ item ∈ w.store.log d, item.operation.opId = op.opId → item.operation = op) :
    ∃ item ∈ (w.handle (.message k (.message (.submitOperation ⟨d, op⟩)) env)).store.log d,
      item.operation = op := by
  have hsubmits := @Inv.submits _ _ _ h _ hsession hdocument op _ hok
  unfold answer at hsubmits
  rw [if_pos ⟨hschema, hclient, hvalid⟩] at hsubmits
  cases hfind : (w.store.log d).find? (·.operation.opId = op.opId) with
  | some item =>
    have hmem := List.mem_of_find?_eq_some hfind
    have hop := hunique item hmem (by simpa using List.find?_some hfind)
    rw [hfind] at hsubmits
    simp only [hop, if_true] at hsubmits
    rw [hsubmits]
    exact ⟨item, hmem, hop⟩
  | none =>
    rw [hfind] at hsubmits
    simp only at hsubmits
    rw [hsubmits]
    refine ⟨⟨w.store.lastServerSeq + 1, op⟩, ?_, rfl⟩
    show _ ∈ (w.store.insertOperation d op).log d
    rw [OperationStore.log_insertOperation, if_pos rfl]
    exact List.mem_append_right _ List.mem_cons_self

/-- A join that takes a socket into a document has passed the schema. -/
theorem joined_schema {session : SocketSession} {message : JoinMessage} {env : ServerEnv}
    (hsession : w.sessions.get? k = some session)
    (hnew : session.documentId = none ∨ session.clientId = none)
    (hjoined : (w.handle (.message k (.message (.join message)) env)).sessions.get? k =
      some (joinSession session message)) : joinMessageSchema message = true := by
  by_contra hschema
  have hrefused : w.handle (.message k (.message (.join message)) env) =
      w.sendError k (js "PROTOCOL_ERROR") (js "Malformed client message.") := by
    simp only [SyncServer.handle, handleMessage, hsession, parseClientMessage, clientMessageSchema,
      hschema, if_false]
    rfl
  rw [hrefused, (sendError_errs w k _ (by decide)).quiet.sameRooms.sessions, hsession] at hjoined
  rw [Option.some.inj hjoined] at hnew
  rcases hnew with hnew | hnew <;> cases hnew

end SyncServer

/-! ## The invariant -/

namespace System

variable {segmentGraphemes : JsString → List JsString} {w : System} {e : SystemEvent}

/-- The operations in the log of a document. -/
def logged (w : System) (d : JsString) : Set TextOperation :=
  {op | ∃ item ∈ w.server.store.log d, item.operation = op}

/-- Other programs send nothing to the server, and no append fails. -/
def Conforming : SystemEvent → Prop
  | .toServer _ env => env.appendThrows = none
  | .server (.message _ _ _) => False
  | _ => True

/-- A page is opened with a client id that is that of another page. -/
def TakesClientId (w : System) : SystemEvent → Prop
  | .page i (.opens _ env _) => ∃ j m, j ≠ i ∧ (w.pages j).db.clientMeta = some m ∧
      m.clientId = env.clientIdFactory
  | _ => False

/-- A submit overtakes the outbox of its page, or an edit strands an operation. -/
def LosesOrder (segmentGraphemes : JsString → List JsString) (w : System) : SystemEvent → Prop
  | .page i e => (e = .submit ∧ Page.Overtakes w.logged (w.pages i)) ∨
      Page.Strands segmentGraphemes (w.pages i) e
  | _ => False

/-- The frames of a page that have arrived. -/
def arrivedFrames (w : System) (i : Nat) (k : SocketId) : List ClientMessage :=
  ((w.pages i).sentOn k).take (w.toServer k)

/-- A socket that has joined is one of a page, and what the page has sent since the join is in the
log as far as it has arrived. -/
structure Logs (w : System) (k : SocketId) (d clientId : JsString) : Prop where
  bounded : boundedString MAX_DOCUMENT_ID_LENGTH d = true
  frames : ∃ i, w.owner k = some i ∧ Joined (w.arrivedFrames i k) ∧
    ∀ op ∈ submitted d (w.arrivedFrames i k), op.clientId = clientId → op ∈ w.logged d

/-- The invariant of the order. -/
structure OrderInv (w : System) : Prop where
  base : Inv w
  distinct : ∀ i j m m', (w.pages i).db.clientMeta = some m → (w.pages j).db.clientMeta = some m' →
    m.clientId = m'.clientId → i = j
  pages : ∀ i, Page.PendingInv w.logged (w.pages i)
  joins : ∀ i, Page.JoinInv (w.pages i)
  origin : ∀ d, ∀ op ∈ w.logged d, ∃ i, (w.pages i).db.Own d op
  closed : ∀ d, RestsInOrder ∅ ((w.server.store.log d).map (·.operation))
  arrived : ∀ i k, w.owner k = some i → w.toServer k ≤ ((w.pages i).sentOn k).length
  unowned : ∀ k, w.owner k = none → w.toServer k = 0
  sessions : ∀ k session d clientId, w.server.sessions.get? k = some session →
    session.documentId = some d → session.clientId = some clientId → Logs w k d clientId

theorem OrderInv.start : OrderInv (start .empty) where
  base := .start .empty
  distinct i j m m' hm := by cases hm
  pages i := .start _
  joins i := .start
  origin d op hop := by
    obtain ⟨item, hi, -⟩ := hop
    cases hi
  closed d := closedOver_nil
  arrived i k hk := by cases hk
  unowned k hk := rfl
  sessions k session d clientId hsession := by cases hsession

/-- What is logged refers to what is logged. -/
theorem OrderInv.rests (h : OrderInv w) {d : JsString} {op : TextOperation} (hop : op ∈ w.logged d) :
    Rests (w.logged d) op := by
  obtain ⟨item, hi, rfl⟩ := hop
  refine ((h.closed d).mem (List.mem_map_of_mem hi)).mono ?_
  rintro x (hx | hx)
  · cases hx
  · exact List.mem_map.1 hx

/-- What a page hears is in the log. -/
theorem Inv.brings (h : Inv w) (i : Nat) : Page.Brings w.logged (w.pages i) := by
  intro k message dl hh hd
  have hsent := (h.received i (k, message) (List.mem_append_left _ (by rw [hh]; simp))).1
  have hdescribes := (h.server.sent _ hsent).2
  refine ⟨fun item hi => ⟨item, hdescribes.items hd item hi, rfl⟩, fun b hb op hop => ?_⟩
  rw [(describes_bootstrap hdescribes hd hb).1] at hop
  obtain ⟨item, hi, rfl⟩ := List.mem_map.1 hop
  exact ⟨item, (mem_between.1 hi).1, rfl⟩

theorem OrderInv.brings (h : OrderInv w) (i : Nat) : Page.Brings w.logged (w.pages i) :=
  h.base.brings i

/-! ## A step of a page -/

/-- A step that changes pages, and nothing of the server. -/
theorem OrderInv.of_pages {w' : System} (h : OrderInv w) (hbase : Inv w')
    (hserver : w'.server = w.server) (hto : w'.toServer = w.toServer)
    (howner : ∀ k j, w.owner k = some j → w'.owner k = some j)
    (hsent : ∀ i k, ∃ rest, (w'.pages i).sentOn k = (w.pages i).sentOn k ++ rest)
    (hown : ∀ i d op, (w.pages i).db.Own d op → (w'.pages i).db.Own d op)
    (hdistinct : ∀ i j m m', (w'.pages i).db.clientMeta = some m →
      (w'.pages j).db.clientMeta = some m' → m.clientId = m'.clientId → i = j)
    (hpages : ∀ i, Page.PendingInv w.logged (w'.pages i))
    (hjoins : ∀ i, Page.JoinInv (w'.pages i)) : OrderInv w' := by
  have hlogged : w'.logged = w.logged := by
    unfold logged
    rw [hserver]
  have harrived : ∀ i k, w.owner k = some i → w'.arrivedFrames i k = w.arrivedFrames i k := by
    intro i k hk
    obtain ⟨rest, hrest⟩ := hsent i k
    unfold arrivedFrames
    rw [hto, hrest, List.take_append_of_le_length (h.arrived i k hk)]
  refine ⟨hbase, hdistinct, fun i => hlogged ▸ hpages i, hjoins, fun d op hop => ?_, fun d => ?_,
    fun i k hk => ?_, fun k hk => ?_, fun k session d clientId hsession hdocument hclient => ?_⟩
  · rw [hlogged] at hop
    obtain ⟨i, hi⟩ := h.origin d op hop
    exact ⟨i, hown i d op hi⟩
  · rw [hserver]
    exact h.closed d
  · rw [hto]
    cases hold : w.owner k with
    | none =>
      rw [h.unowned k hold]
      exact Nat.zero_le _
    | some j =>
      obtain rfl : j = i := Option.some.inj ((howner k j hold).symm.trans hk)
      obtain ⟨rest, hrest⟩ := hsent j k
      rw [hrest, List.length_append]
      have hle := h.arrived j k hold
      omega
  · rw [hto]
    cases hold : w.owner k with
    | none => exact h.unowned k hold
    | some j =>
      rw [howner k j hold] at hk
      cases hk
  · rw [hserver] at hsession
    obtain ⟨hbounded, i, hi, hframes⟩ := h.sessions k session d clientId hsession hdocument hclient
    refine ⟨hbounded, i, howner k i hi, ?_⟩
    rw [harrived i k hi, hlogged]
    exact hframes

/-- **An event of a page** that does not lose the order. -/
theorem OrderInv.page (h : OrderInv w) {i : Nat} {pe : PageEvent} (hallows : w.allows i pe = true)
    (hclient : ¬ TakesClientId w (.page i pe))
    (horder : ¬ LosesOrder segmentGraphemes w (.page i pe)) :
    OrderInv (w.handle segmentGraphemes (.page i pe)) := by
  have hbase := @Inv.handle segmentGraphemes _ h.base (.page i pe)
  have howner : ∀ k j, w.owner k = some j →
      (w.handle segmentGraphemes (.page i pe)).owner k = some j :=
    fun k j hk => h.base.owner_kept (.page i pe) hk
  have hstores := @Page.handle_stores segmentGraphemes (w.pages i) pe
  obtain ⟨hovertakes, hstrands⟩ := not_or.1 horder
  have hpage := (h.pages i).handle (h.base.pages i) (h.brings i) (fun d op hop => h.rests hop)
    (fun he hover => hovertakes ⟨he, hover⟩) hstrands
  simp only [System.handle, if_pos hallows] at hbase howner ⊢
  have hpages : ∀ j, ((w.setPage i ((w.pages i).handle segmentGraphemes pe)).claim i
      ((w.pages i).handle segmentGraphemes pe).sync.socket).pages j =
        if j = i then (w.pages i).handle segmentGraphemes pe else w.pages j := by
    intro j
    rw [claim_pages]
    rfl
  have hto : ∀ (v : System) (s : Option SocketId), (v.claim i s).toServer = v.toServer := by
    intro v s
    cases s <;> rfl
  -- a client id that is new to the page is new
  have hid : ∀ {j : Nat} {m m' : ClientMetaRecord}, j ≠ i →
      ((w.pages i).handle segmentGraphemes pe).db.clientMeta = some m →
      (w.pages j).db.clientMeta = some m' → m.clientId ≠ m'.clientId := by
    intro j m m' hj hm hm' hsame
    rcases hstores.clientId hm with ⟨old, hold, heq⟩ | ⟨options, env, displayName, rfl, heq⟩
    · exact hj (h.distinct i j old m' hold hm' (heq.trans hsame)).symm
    · exact hclient ⟨j, m', hj, hm', hsame.symm.trans heq⟩
  refine h.of_pages hbase (claim_server _ _) (hto _ _) howner (fun j k => ?_) (fun j d op hop => ?_)
    (fun j j' m m' hm hm' hsame => ?_) (fun j => ?_) fun j => ?_
  · rw [hpages]
    split
    · rename_i hj
      rw [hj]
      exact Page.handle_sentOn (w.pages i) pe k
    · exact ⟨[], (List.append_nil _).symm⟩
  · rw [hpages]
    split
    · rename_i hj
      rw [hj] at hop
      exact hstores.own_kept hop
    · exact hop
  · rw [hpages] at hm hm'
    split at hm <;> split at hm'
    · rename_i hj hj'
      rw [hj, hj']
    · rename_i hj hj'
      exact absurd hsame (hid hj' hm hm')
    · rename_i hj hj'
      exact absurd hsame.symm (hid hj hm' hm)
    · exact h.distinct j j' m m' hm hm' hsame
  · rw [hpages]
    split
    · exact hpage
    · exact h.pages j
  · rw [hpages]
    split
    · exact (h.joins i).handle pe
    · exact h.joins j

/-- A message of the server comes in. -/
theorem OrderInv.reaches (h : OrderInv w) {w' : System} (hbase : Inv w') {k : SocketId} {i : Nat}
    {message : ServerMessage} (hserver : w'.server = w.server) (hto : w'.toServer = w.toServer)
    (howner : w'.owner = w.owner) (hpages : ∀ j, w'.pages j = if j = i then
      { w.pages i with sync := (w.pages i).sync.onMessage k message } else w.pages j) :
    OrderInv w' := by
  have hsync : ∀ j, w'.pages j = w.pages j ∨
      w'.pages j = { w.pages j with sync := (w.pages j).sync.onMessage k message } := by
    intro j
    rw [hpages]
    split
    · rename_i hj
      rw [hj]
      exact Or.inr rfl
    · exact Or.inl rfl
  have hdb : ∀ j, (w'.pages j).db = (w.pages j).db := by
    intro j
    rcases hsync j with heq | heq <;> rw [heq]
  refine h.of_pages hbase hserver hto (fun k j hk => by rw [howner]; exact hk) (fun j k' => ?_)
    (fun j d op hop => by rw [hdb]; exact hop) (fun j j' m m' hm hm' hsame => ?_) (fun j => ?_)
    fun j => ?_
  · refine ⟨[], ?_⟩
    rw [List.append_nil]
    rcases hsync j with heq | heq <;> rw [heq]
    unfold Page.sentOn
    rcases (w.pages j).sync.onMessage_cases (k := k) message with ⟨-, hc⟩ | ⟨-, -, hc⟩ <;> rw [hc]
  · rw [hdb] at hm hm'
    exact h.distinct j j' m m' hm hm' hsame
  · rcases hsync j with heq | heq <;> rw [heq]
    · exact h.pages j
    · exact (h.pages j).onMessage k message
  · rcases hsync j with heq | heq <;> rw [heq]
    · exact h.joins j
    · exact (h.joins j).onMessage k message

/-! ## A step of the server -/

/-- An event that brings no frame. -/
theorem OrderInv.served (h : OrderInv w) {se : SyncServer.Event} (hse : se.isMessage = false)
    (hbase : Inv { w with server := w.server.handle se }) :
    OrderInv { w with server := w.server.handle se } := by
  have hlog : ∀ d, (w.server.handle se).store.log d = w.server.store.log d := by
    intro d
    rcases w.server.log_appended se d with heq | ⟨k, session, op, env, rfl, -⟩
    · exact heq
    · cases hse
  have hlogged : logged { w with server := w.server.handle se } = w.logged := by
    funext d
    unfold logged
    simp only [hlog]
  refine ⟨hbase, h.distinct, fun i => hlogged ▸ h.pages i, h.joins, fun d => hlogged ▸ h.origin d,
    fun d => ?_, h.arrived, h.unowned, fun k session d clientId hsession hdocument hclient => ?_⟩
  · simp only [hlog]
    exact h.closed d
  · have hold : w.server.sessions.get? k = some session := by
      have hsession : (w.server.handle se).sessions.get? k = some session := hsession
      rcases w.server.handle_session se k with heq | heq | ⟨-, heq⟩ | ⟨_, _, _, rfl, -⟩
      · exact heq.symm.trans hsession
      · rw [heq] at hsession
        cases hsession
      · unfold SyncServer.joinedTo at heq
        rw [hsession, Option.bind_some, hdocument] at heq
        cases heq
      · cases hse
    obtain ⟨hbounded, hframes⟩ := h.sessions k session d clientId hold hdocument hclient
    exact ⟨hbounded, by rw [hlogged]; exact hframes⟩

/-- A join is the first on its socket. -/
theorem not_joined_before {page : Page} (h : Page.JoinInv page) {k : SocketId}
    {before after : List ClientMessage} {message : JoinMessage}
    (hsent : page.sentOn k = before ++ .join message :: after) : ¬ Joined before := by
  rintro ⟨message', hm⟩
  obtain ⟨sent, sent', hsplit, hbefore, hafter⟩ := List.filterMap_eq_append_iff.1 hsent
  obtain ⟨skipped, p, rest, rfl, -, hp, -⟩ := List.filterMap_eq_cons_iff.1 hafter
  have hframe : ∀ {p : SocketId × ClientMessage} {m : ClientMessage},
      (if p.1 = k then some p.2 else none) = some m → p = (k, m) := by
    intro p m heq
    split at heq
    · rename_i hk
      cases heq
      rw [← hk]
    · cases heq
  rw [hframe hp, ← List.append_assoc] at hsplit
  rw [← hbefore] at hm
  obtain ⟨p', hp', heq⟩ := List.mem_filterMap.1 hm
  rw [hframe heq] at hp'
  exact h.once k _ message rest hsplit message' (List.mem_append_left _ hp')

/-- **A frame that arrives in order** refers to what is in the log. -/
theorem OrderInv.frame_rests (h : OrderInv w) {k : SocketId} {i : Nat} {d : JsString}
    {op : TextOperation} (howner : w.owner k = some i)
    (hframe : ((w.pages i).sentOn k)[w.toServer k]? = some (.submitOperation ⟨d, op⟩))
    (hlogs : Logs w k d op.clientId) (hschema : textOperationSchema op = true) :
    Rests (w.logged d) op := by
  obtain ⟨-, j, hj, hjoined, hlogged⟩ := hlogs
  obtain rfl : i = j := Option.some.inj (howner.symm.trans hj)
  have hown : ∀ {x}, .submitOperation ⟨d, x⟩ ∈ (w.pages i).sentOn k → (w.pages i).db.Own d x :=
    fun hx => (h.pages i).sent k d _ (Page.mem_sentOn hx)
  have hclient : ∀ {x y}, (w.pages i).db.Own d x → (w.pages i).db.Own d y →
      x.clientId = y.clientId := by
    rintro x y ⟨-, -, m, hm, hx, -⟩ ⟨-, -, m', hm', hy, -⟩
    cases hm.symm.trans hm'
    exact hx.trans hy.symm
  obtain ⟨hlt, hget⟩ := List.getElem?_eq_some_iff.1 hframe
  have hsplit : (w.pages i).sentOn k = w.arrivedFrames i k ++
      .submitOperation ⟨d, op⟩ :: ((w.pages i).sentOn k).drop (w.toServer k + 1) := by
    unfold arrivedFrames
    rw [← hget, List.getElem_cons_drop, List.take_append_drop]
  have hinorder := (h.pages i).frames k d
  rw [hsplit, submitted_append_joined hjoined] at hinorder
  have hfirst : operationsOf d (.submitOperation ⟨d, op⟩ ::
      ((w.pages i).sentOn k).drop (w.toServer k + 1)) =
      op :: operationsOf d (((w.pages i).sentOn k).drop (w.toServer k + 1)) := by
    unfold operationsOf
    rw [List.filterMap_cons_some]
    simp [hschema]
  rw [hfirst] at hinorder
  refine (hinorder _ op _ rfl).mono (Set.union_subset subset_rfl fun x hx => ?_)
  have hsent := (mem_submitted hx).1
  refine hlogged x hx (hclient (hown ?_) (hown (List.mem_of_getElem? hframe)))
  exact List.mem_of_mem_take hsent

/-- **An operation that arrives is logged**, if the server can read it and its client has joined. -/
theorem OrderInv.frame_logged (h : OrderInv w) {k : SocketId} {i : Nat} {d : JsString}
    {op : TextOperation} {session : SocketSession} {env : ServerEnv}
    (hframe : ((w.pages i).sentOn k)[w.toServer k]? = some (.submitOperation ⟨d, op⟩))
    (hsession : w.server.sessions.get? k = some session) (hdocument : session.documentId = some d)
    (hclient : session.clientId = some op.clientId) (hlogs : Logs w k d op.clientId)
    (hschema : textOperationSchema op = true) (hok : env.appendThrows = none) :
    ∃ item ∈ (w.server.handle (.message k (.message (.submitOperation ⟨d, op⟩)) env)).store.log d,
      item.operation = op := by
  have hown := (h.pages i).sent k d op (Page.mem_sentOn (List.mem_of_getElem? hframe))
  refine h.base.server.submit_logged hsession hdocument hclient ?_ hown.valid hok fun item hi hid => ?_
  · unfold submitOperationMessageSchema
    rw [hlogs.bounded, hschema]
    rfl
  · -- an operation under this id comes from this page
    obtain ⟨j, hown'⟩ := h.origin d item.operation ⟨item, hi, rfl⟩
    obtain ⟨m, hm, hc, -⟩ := hown.client
    obtain ⟨m', hm', hc', -⟩ := hown'.client
    have hsame := (hown'.valid.identity hown.valid hid).1
    obtain rfl := h.distinct j i m' m hm' hm (hc'.symm.trans (hsame.trans hc))
    exact hown'.unique hown hid

/-- The system after a frame has arrived on a socket. -/
def arrive (w : System) (k : SocketId) (message : ClientMessage) (env : ServerEnv) : System :=
  { w with
    server := w.server.handle (.message k (.message message) env)
    toServer := fun j => if j = k then w.toServer j + 1 else w.toServer j }

section

variable {k : SocketId} {i : Nat} {message : ClientMessage} {env : ServerEnv} (h : OrderInv w)
  (howner : w.owner k = some i) (hframe : ((w.pages i).sentOn k)[w.toServer k]? = some message)
include h howner hframe

omit h howner hframe in
theorem logged_arrive {d : JsString} {op : TextOperation} (hop : op ∈ w.logged d) :
    op ∈ (w.arrive k message env).logged d := by
  obtain ⟨item, hi, hop⟩ := hop
  exact ⟨item, (w.server.log_grows _ d).subset hi, hop⟩

omit h howner in
theorem arrivedFrames_arrive :
    (w.arrive k message env).arrivedFrames i k = w.arrivedFrames i k ++ [message] := by
  unfold arrivedFrames
  show ((w.pages i).sentOn k).take (if k = k then w.toServer k + 1 else w.toServer k) = _
  rw [if_pos rfl, List.take_add_one, hframe]
  rfl

omit h howner hframe in
theorem arrivedFrames_arrive_other {j : Nat} {k' : SocketId} (hk : k' ≠ k) :
    (w.arrive k message env).arrivedFrames j k' = w.arrivedFrames j k' := by
  unfold arrivedFrames
  show ((w.pages j).sentOn k').take (if k' = k then w.toServer k' + 1 else w.toServer k') = _
  rw [if_neg hk]

/-- What is appended is the frame that arrives, from a session that has joined. -/
theorem OrderInv.frame_appended (d : JsString) :
    (w.arrive k message env).server.store.log d = w.server.store.log d ∨
      ∃ op, (w.arrive k message env).server.store.log d =
        w.server.store.log d ++ [⟨w.server.store.lastServerSeq + 1, op⟩] ∧
        (w.pages i).db.Own d op ∧ Rests (w.logged d) op := by
  rcases w.server.log_appended (.message k (.message message) env) d with heq |
    ⟨k', session, op, env', he, hsession, hdocument, hclient, hschema, heq⟩
  · exact Or.inl heq
  · cases he
    have hlogs := h.sessions k session d _ hsession hdocument hclient
    exact Or.inr ⟨op, heq, (h.pages i).sent k d op (Page.mem_sentOn (List.mem_of_getElem? hframe)),
      h.frame_rests howner hframe hlogs hschema⟩

/-- The socket had joined before: what arrives on it is logged. -/
theorem OrderInv.logs_joined {session : SocketSession} {d clientId : JsString}
    (hok : env.appendThrows = none) (hold : w.server.sessions.get? k = some session)
    (hdocument : session.documentId = some d) (hclient : session.clientId = some clientId) :
    Logs (w.arrive k message env) k d clientId := by
  obtain ⟨hbounded, j, hj, hjoined, hframes⟩ := h.sessions k session d clientId hold hdocument hclient
  obtain rfl : i = j := Option.some.inj (howner.symm.trans hj)
  refine ⟨hbounded, i, hj, ?_⟩
  rw [arrivedFrames_arrive hframe, submitted_append_joined hjoined]
  refine ⟨hjoined.imp fun _ hm => List.mem_append_left _ hm, fun op hop hc => ?_⟩
  rcases List.mem_append.1 hop with hop | hop
  · exact logged_arrive (hframes op hop hc)
  · obtain ⟨hm, hschema⟩ := mem_operationsOf.1 hop
    obtain rfl := List.mem_singleton.1 hm
    subst hc
    exact h.frame_logged hframe hold hdocument hclient ⟨hbounded, i, hj, hjoined, hframes⟩ hschema hok

/-- The socket has just joined: nothing has been sent on it since. -/
theorem OrderInv.logs_new {join : JoinMessage} (hjoin : message = .join join)
    (hschema : joinMessageSchema join = true) :
    Logs (w.arrive k message env) k join.documentId join.clientId := by
  subst hjoin
  obtain ⟨hdocument, -, -⟩ := joinMessageSchema_spec hschema
  refine ⟨hdocument, i, howner, ?_⟩
  have hsent : (w.pages i).sentOn k = w.arrivedFrames i k ++
      .join join :: ((w.pages i).sentOn k).drop (w.toServer k + 1) := by
    obtain ⟨hlt, hget⟩ := List.getElem?_eq_some_iff.1 hframe
    unfold arrivedFrames
    rw [← hget, List.getElem_cons_drop, List.take_append_drop]
  rw [arrivedFrames_arrive hframe, submitted_append_new (not_joined_before (h.joins i) hsent)]
  exact ⟨⟨join, by simp⟩, fun op hop => by cases hop⟩

/-- The frames of every session that has joined are logged. -/
theorem OrderInv.logs_arrive (hok : env.appendThrows = none) {k' : SocketId} {session : SocketSession}
    {d clientId : JsString}
    (hsession : (w.arrive k message env).server.sessions.get? k' = some session)
    (hdocument : session.documentId = some d) (hclient : session.clientId = some clientId) :
    Logs (w.arrive k message env) k' d clientId := by
  have hsession : (w.server.handle (.message k (.message message) env)).sessions.get? k' =
      some session := hsession
  -- a session is as it was, or gone, or has just been made, or has just joined
  rcases w.server.handle_session (.message k (.message message) env) k' with heq | heq |
    ⟨-, heq⟩ | ⟨session', join, env', he, hold, hnew, heq⟩
  · have hold := heq.symm.trans hsession
    by_cases hk : k' = k
    · subst hk
      exact h.logs_joined howner hframe hok hold hdocument hclient
    · obtain ⟨hbounded, j, hj, hframes⟩ := h.sessions k' session d clientId hold hdocument hclient
      refine ⟨hbounded, j, hj, ?_⟩
      rw [arrivedFrames_arrive_other hk]
      exact ⟨hframes.1, fun op hop hc => logged_arrive (hframes.2 op hop hc)⟩
  · rw [heq] at hsession
    cases hsession
  · unfold SyncServer.joinedTo at heq
    rw [hsession, Option.bind_some, hdocument] at heq
    cases heq
  · cases he
    rw [heq] at hsession
    have hschema := SyncServer.joined_schema hold hnew heq
    cases hsession
    cases hdocument
    cases hclient
    exact h.logs_new howner hframe rfl hschema

end

/-- **A frame of a page arrives at the server.** -/
theorem OrderInv.arrives (h : OrderInv w) {k : SocketId} {i : Nat} {message : ClientMessage}
    {env : ServerEnv} (howner : w.owner k = some i)
    (hframe : ((w.pages i).sentOn k)[w.toServer k]? = some message) (hok : env.appendThrows = none)
    (hbase : Inv (w.arrive k message env)) : OrderInv (w.arrive k message env) := by
  have hlog := fun d => @OrderInv.frame_appended w k i message env h howner hframe d
  refine ⟨hbase, h.distinct, fun j => (h.pages j).mono fun d op hop => logged_arrive hop, h.joins,
    fun d op hop => ?_, fun d => ?_, fun j k' hk' => ?_, fun k' hk' => ?_,
    fun k' session d clientId hsession hdocument hclient =>
      h.logs_arrive howner hframe hok hsession hdocument hclient⟩
  · obtain ⟨item, hi, rfl⟩ := hop
    rcases hlog d with heq | ⟨op, heq, hown, -⟩
    · exact h.origin d _ ⟨item, heq ▸ hi, rfl⟩
    · have hi := heq ▸ hi
      rcases List.mem_append.1 hi with hi | hi
      · exact h.origin d _ ⟨item, hi, rfl⟩
      · rw [List.mem_singleton.1 hi]
        exact ⟨i, hown⟩
  · rcases hlog d with heq | ⟨op, heq, -, hrests⟩
    · rw [heq]
      exact h.closed d
    · rw [heq, List.map_append]
      refine closedOver_append.2 ⟨h.closed d, closedOver_singleton.2 (hrests.mono ?_)⟩
      rintro x ⟨item, hi, rfl⟩
      exact Or.inr (List.mem_map_of_mem hi)
  · have hle := h.arrived j k' hk'
    show (if k' = k then w.toServer k' + 1 else w.toServer k') ≤ ((w.pages j).sentOn k').length
    split
    · rename_i hk
      rw [hk] at hk' ⊢
      obtain rfl : i = j := Option.some.inj (howner.symm.trans hk')
      exact (List.getElem?_eq_some_iff.1 hframe).1
    · exact hle
  · show (if k' = k then w.toServer k' + 1 else w.toServer k') = 0
    have hk' : w.owner k' = none := hk'
    split
    · rename_i hk
      rw [hk, howner] at hk'
      cases hk'
    · exact h.unowned k' hk'

/-- **A step that does not lose the order keeps the invariant.** -/
theorem OrderInv.handle (h : OrderInv w) (hconforming : Conforming e)
    (hclient : ¬ TakesClientId w e) (horder : ¬ LosesOrder segmentGraphemes w e) :
    OrderInv (w.handle segmentGraphemes e) := by
  have hbase := @Inv.handle segmentGraphemes _ h.base e
  cases @handle_steps segmentGraphemes w e with
  | idle heq => rw [heq]; exact h
  | page i pe he hallows heq =>
    subst he
    exact h.page hallows hclient horder
  | served se hfree hindependent heq =>
    rw [heq] at hbase ⊢
    refine h.served ?_ hbase
    rcases hindependent with rfl | ⟨socket, connectedAt, rfl⟩
    · cases se with
      | message socket frame env => exact hconforming.elim
      | _ => rfl
    · rfl
  | arrives socket env i message he howner hframe heq =>
    subst he
    rw [heq] at hbase ⊢
    exact h.arrives howner hframe hconforming hbase
  | reaches socket i message he howner hmessage heq =>
    rw [heq] at hbase ⊢
    exact h.reaches hbase rfl rfl rfl fun j => rfl

/-- **The log stays closed under dependencies.**  In every run in which the clients are pages, under
client ids of their own, and no append fails: as long as no submit overtakes the outbox of its page,
and no edit commits an operation that depends on an insert that the server refuses, in every prefix
of the log of a document each insert is anchored on `ROOT` or on an earlier insert, and each delete
targets an earlier insert. -/
theorem log_dependency_closed {es : List SystemEvent} (hconforming : ∀ e ∈ es, Conforming e)
    (hclients : Runs.Never (System.handle segmentGraphemes) TakesClientId (start .empty) es)
    (horder : Runs.Never (System.handle segmentGraphemes) (LosesOrder segmentGraphemes)
      (start .empty) es) :
    Runs.Always (System.handle segmentGraphemes)
      (fun w => ∀ d, DependencyClosed (w.server.store.log d)) (start .empty) es := by
  have hnever : Runs.Never (System.handle segmentGraphemes)
      (fun w e => TakesClientId w e ∨ LosesOrder segmentGraphemes w e) (System.start .empty) es :=
    fun before e after heq hbad => hbad.elim (hclients before e after heq) (horder before e after heq)
  have hinv : Runs.Always (System.handle segmentGraphemes) OrderInv (System.start .empty) es := by
    refine Runs.Always.of_never (fun w e hconforms h hgood => ?_) .start hconforming hnever
    obtain ⟨hclient, horder⟩ := not_or.1 hgood
    exact h.handle hconforms hclient horder
  exact hinv.imp fun w h d => dependencyClosed_of_restsInOrder (h.closed d)

/-- The insert of the operations table that the operation depends on satisfies `check`. -/
def anchorPasses (page : Page) (op : TextOperation) (check : TextOperation → Bool) : Bool :=
  (op.dependency.bind page.db.operations.get?).all fun row => check row.operation

/-- What is handed over depends on what has been sent on the socket, and the schema admits what is
committed and what it depends on. -/
def keepsOrder (segmentGraphemes : JsString → List JsString) (w : System) : SystemEvent → Bool
  | .page i .submit =>
    match (w.pages i).submits, (w.pages i).sync.socket with
    | batch :: _, some k => batch.all fun op => anchorPasses (w.pages i) op fun x =>
        x ∈ submitted (w.pages i).sync.documentId ((w.pages i).sentOn k)
    | _, _ => true
  | .page i e => ((w.pages i).commits segmentGraphemes e).all fun commit =>
      textOperationSchema commit.2 && anchorPasses (w.pages i) commit.2 (textOperationSchema ·)
  | _ => true

theorem anchorPasses_waits {page : Page} {op x : TextOperation} {check : TextOperation → Bool}
    {d : JsString} (h : anchorPasses page op check = true) (hdepends : op.DependsOn x)
    (hwaits : page.db.InOutbox d x) : check x = true := by
  obtain ⟨id, hdependency, helement⟩ := hdepends
  obtain ⟨insert, rfl, rfl⟩ := TextOperation.element_eq_some.1 helement
  obtain ⟨-, row, hrow, -, hop⟩ := hwaits
  have hrow : page.db.operations.get? insert.opId = some row := hrow
  rw [anchorPasses, hdependency, Option.bind_some, hrow] at h
  rw [← hop]
  exact h

theorem not_losesOrder_of_keeps (h : w.keepsOrder segmentGraphemes e = true) :
    ¬ LosesOrder segmentGraphemes w e := by
  intro hloses
  cases e with
  | page i pe =>
    rcases hloses with ⟨rfl, k, batch, rest, before, op, after, x, hsubmits, -, hk, -, -, heq, -,
      hdepends, hwaits, -, hsent, -⟩ | ⟨d, op, x, hcommit, -, hdepends, hwaits, hrefused⟩
    · simp only [keepsOrder, hsubmits, hk, List.all_eq_true] at h
      have hpasses := anchorPasses_waits (h op (by rw [heq]; simp)) hdepends hwaits
      exact hsent (of_decide_eq_true hpasses)
    · have hall : ∀ commit ∈ (w.pages i).commits segmentGraphemes pe,
          textOperationSchema commit.2 = true ∧
            anchorPasses (w.pages i) commit.2 (textOperationSchema ·) = true := by
        cases pe with
        | submit => cases hcommit
        | _ => simpa only [keepsOrder, List.all_eq_true, Bool.and_eq_true] using h
      rcases hwaits with hwaits | hnew
      · rw [anchorPasses_waits (hall _ hcommit).2 hdepends hwaits] at hrefused
        cases hrefused
      · rw [(hall _ hnew).1] at hrefused
        cases hrefused
  | _ => exact hloses

/-- Only the first event of a run opens a page. -/
theorem never_takesClientId {options : LocalDocumentControllerOptions} {env : Surroundings}
    {displayName : Option JsString} {i : Nat} {es : List SystemEvent}
    (hopens : ∀ e ∈ es, ∀ j options env displayName, e ≠ .page j (.opens options env displayName)) :
    Runs.Never (System.handle segmentGraphemes) TakesClientId (start .empty)
      (.page i (.opens options env displayName) :: es) := by
  rintro before e after heq htakes
  cases before with
  | nil =>
    cases heq
    obtain ⟨j, m, -, hm, -⟩ := htakes
    cases hm
  | cons first before =>
    have hmem : e ∈ es := by
      rw [(List.cons.inj heq).2]
      simp
    cases e with
    | page j pe =>
      cases pe with
      | opens options env displayName => exact hopens _ hmem j options env displayName rfl
      | _ => exact htakes
    | _ => exact htakes

/-- The page of `joining` types twice; each operation is submitted and arrives. -/
def typing : List SystemEvent :=
  joining ++ storing ++ [.page 0 .submit, .toServer 0 ⟨none, none, none, true, id⟩,
    .page 0 (.edit ⟨js "now", 0, js "A", true⟩ (js "ab")), .page 0 .submit,
    .toServer 0 ⟨none, none, none, true, id⟩]

/-- The second insert comes after the first, on which it is anchored. -/
theorem log_dependency_closed_typing :
    let segment : JsString → List JsString := fun text => text.map ([·])
    Runs.Always (System.handle segment) (fun w => ∀ d, DependencyClosed (w.server.store.log d))
        (start .empty) typing ∧
      (Runs.run (System.handle segment) (start .empty) typing).server.store.log (js "d") =
        [⟨1, .insert ⟨js "A:1", js "A", 1, 1, ROOT_ID, js "a"⟩⟩,
          ⟨2, .insert ⟨js "A:2", js "A", 2, 2, js "A:1", js "b"⟩⟩] := by
  intro segment
  have hconforming : ∀ e ∈ typing, Conforming e := by
    simp [typing, joining, storing, Conforming]
  have hclients : Runs.Never (System.handle segment) TakesClientId (start .empty) typing :=
    never_takesClientId (by simp [storing])
  have hchecked : Runs.allSteps (System.handle segment) (keepsOrder segment) (start .empty)
      typing = true := by
    decide +kernel
  have hclosed := @log_dependency_closed segment _ hconforming hclients
    (Runs.Never.of_allSteps (fun _ _ h => not_losesOrder_of_keeps h) hchecked)
  have hlog : (Runs.run (System.handle segment) (start .empty) typing).server.store.log (js "d") =
      [⟨1, .insert ⟨js "A:1", js "A", 1, 1, ROOT_ID, js "a"⟩⟩,
        ⟨2, .insert ⟨js "A:2", js "A", 2, 2, js "A:1", js "b"⟩⟩] := by
    decide +kernel
  with_reducible exact And.intro hclosed hlog

/-- The user types before the page has joined, and types again when the sync message has been stored
and the flush of the outbox waits for the pending operations. -/
def overtaking : List SystemEvent :=
  [.page 0 (.opens ⟨some (js "d"), none, none⟩ ⟨js "now", 0, js "A", true⟩ none),
    .page 0 (.edit ⟨js "now", 0, js "A", true⟩ (js "a")), .page 0 .submit] ++ joining.tail ++
  [.page 0 (.ingest (.runs ⟨js "now", 0, js "A", true⟩)), .page 0 .resumeHandler,
    .page 0 (.edit ⟨js "now", 0, js "A", true⟩ (js "ab")), .page 0 .submit,
    .toServer 0 ⟨none, none, none, true, id⟩]

/-- The second insert is in the log, and the first one, on which it is anchored, is not. -/
theorem overtaken :
    let segment : JsString → List JsString := fun text => text.map ([·])
    (∀ e ∈ overtaking, Conforming e) ∧
      Runs.Never (System.handle segment) TakesClientId (start .empty) overtaking ∧
      ¬ Runs.Always (System.handle segment) (fun w => ∀ d, DependencyClosed (w.server.store.log d))
        (start .empty) overtaking := by
  intro segment
  refine ⟨by simp [overtaking, joining, Conforming], never_takesClientId (by simp [joining]), fun h => ?_⟩
  have hlog : (Runs.run (System.handle segment) (start .empty) overtaking).server.store.log (js "d") =
      [⟨1, .insert ⟨js "A:2", js "A", 2, 2, js "A:1", js "b"⟩⟩] := by
    decide +kernel
  have hclosed := h.last (js "d")
  rw [hlog] at hclosed
  rcases hclosed _ List.prefix_rfl [] _ [] rfl with hroot | ⟨earlier, hearlier, -⟩
  · exact absurd hroot (by decide)
  · cases hearlier

end System

end LocalFirst
