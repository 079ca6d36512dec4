import LocalFirst.Server.DocumentView

/-!
# Documents do not interfere

One sequence numbers the operations of all documents, so a document sees gaps that the others make.
Nothing else of them shows.

* `Related` — two servers show the same of a document, up to a renumbering.
* `Related.departs`, `Related.joins`, `Related.submits` — the same event on both sides keeps this.
* `non_interference` — two runs with the same events of a document show the same of it.
-/

set_option autoImplicit false

namespace LocalFirst

namespace SyncServer

/-- Two servers show the same of a document, up to a renumbering. -/
structure Related (φ : Int → Int) (S : Set Int) (d : JsString) (w w' : SyncServer) : Prop where
  inv : Inv w
  inv' : Inv w'
  store : OperationStore.Renumbered φ S d w.store w'.store
  seat : ∀ k, w'.seat d k = w.seat d k
  closing : w'.closing = w.closing
  history : ∀ k, w'.historyOf d k = (w.historyOf d k).map (·.renumber φ)
  within : ∀ k, ∀ m ∈ w.historyOf d k, ∀ n ∈ m.numbers, n ∈ S

variable {φ : Int → Int} {S : Set Int} {d : JsString} {w w' v v' : SyncServer} {e e' : Event}
  {k : SocketId} {a : DocumentEvent}

/-! ## Events of one side -/

theorem Related.aside (h : Related φ S d w w') (hinv : Inv v) (ha : Aside d w v) :
    Related φ S d v w' where
  inv := hinv
  inv' := h.inv'
  store := h.store.congr ha.log ha.snapshot rfl rfl
  seat k := (h.seat k).trans (ha.seat k).symm
  closing := h.closing.trans ha.closing.symm
  history k := by rw [ha.history]; exact h.history k
  within k := by rw [ha.history]; exact h.within k

theorem Related.aside' (h : Related φ S d w w') (hinv' : Inv v') (ha : Aside d w' v') :
    Related φ S d w v' where
  inv := h.inv
  inv' := hinv'
  store := h.store.congr rfl rfl ha.log ha.snapshot
  seat k := (ha.seat k).trans (h.seat k)
  closing := ha.closing.trans h.closing
  history k := by rw [ha.history]; exact h.history k
  within := h.within

/-! ## The same event on both sides -/

/-- Each socket is sent the same more. -/
theorem Related.extend (h : Related φ S d w w') (hinv : Inv v) (hinv' : Inv v')
    (hstore : OperationStore.Renumbered φ S d v.store v'.store)
    (hseat : ∀ k, v'.seat d k = v.seat d k) (hclosing : v'.closing = v.closing)
    (added : SocketId → List ServerMessage)
    (hhistory : ∀ k, v.historyOf d k = w.historyOf d k ++ added k)
    (hhistory' : ∀ k, v'.historyOf d k = w'.historyOf d k ++ (added k).map (·.renumber φ))
    (hwithin : ∀ k, ∀ m ∈ added k, ∀ n ∈ m.numbers, n ∈ S) : Related φ S d v v' where
  inv := hinv
  inv' := hinv'
  store := hstore
  seat := hseat
  closing := hclosing
  history k := by rw [hhistory, hhistory', h.history, List.map_append]
  within k m hm := by
    rw [hhistory] at hm
    rcases List.mem_append.1 hm with hm | hm
    · exact h.within k m hm
    · exact hwithin k m hm

/-- Sockets go away on both sides. -/
theorem Related.departs (h : Related φ S d w w') (he : e.isMessage = false)
    (he' : e'.isMessage = false) (hlabel : documentEvent d w e = some a)
    (hlabel' : documentEvent d w' e' = some a) : Related φ S d (w.handle e) (w'.handle e') := by
  obtain ⟨hclosing, hseat⟩ := h.inv.departs he hlabel
  obtain ⟨hclosing', hseat'⟩ := h.inv'.departs he' hlabel'
  obtain ⟨hstore, hhistory⟩ := @moved_quiet w d e he
  obtain ⟨hstore', hhistory'⟩ := @moved_quiet w' d e' he'
  refine h.extend (h.inv.handle e) (h.inv'.handle e') ?_ (fun k => ?_) ?_ (fun _ => [])
    (fun k => by simp [hhistory]) (fun k => by simp [hhistory']) (by simp)
  · rw [hstore, hstore']
    exact h.store
  · rw [hseat, hseat', h.seat, h.closing]
  · rw [hclosing, hclosing', h.closing]

/-- What a join of the document is. -/
theorem documentEvent_join {message : JoinMessage} {readyState : ReadyState}
    (hlabel : documentEvent d w e = some (.join k message readyState)) :
    message.documentId = d ∧ joinMessageSchema message = true ∧ w.joinedTo k = none ∧
      readyState = w.readyState k ∧ ∃ env, e = .message k (.message (.join message)) env ∧
        NewJoin w e k message env := by
  cases e with
  | message socket frame env =>
    cases frame with
    | notJson => cases hlabel
    | malformed => cases hlabel
    | message parsed =>
      cases parsed with
      | join m =>
        simp only [documentEvent, Option.ite_none_right_eq_some, Option.some.injEq,
          DocumentEvent.join.injEq] at hlabel
        obtain ⟨⟨hschema, hdocument, hsome, hnone⟩, rfl, rfl, rfl⟩ := hlabel
        obtain ⟨session, hsession⟩ := Option.isSome_iff_exists.1 hsome
        refine ⟨hdocument, hschema, hnone, rfl, env, rfl, rfl, session, hsession, Or.inl ?_⟩
        unfold joinedTo at hnone
        rw [hsession] at hnone
        exact hnone
      | submitOperation m => simp [documentEvent] at hlabel
  | connection socket connectedAt => cases hlabel
  | closing socket => simp [documentEvent] at hlabel
  | close socket env => simp [documentEvent] at hlabel
  | shutDown => cases hlabel
  | shutDownDone => cases hlabel

/-- What a submit to the document is. -/
theorem documentEvent_submit {operation : TextOperation}
    (hlabel : documentEvent d w e = some (.submit k operation)) :
    ∃ env session, e = .message k (.message (.submitOperation ⟨d, operation⟩)) env ∧
      w.sessions.get? k = some session ∧ session.documentId = some d := by
  cases e with
  | message socket frame env =>
    cases frame with
    | notJson => cases hlabel
    | malformed => cases hlabel
    | message parsed =>
      cases parsed with
      | join m => simp [documentEvent] at hlabel
      | submitOperation m =>
        simp only [documentEvent, Option.ite_none_right_eq_some, Option.some.injEq,
          DocumentEvent.submit.injEq] at hlabel
        obtain ⟨⟨rfl, hjoined⟩, rfl, rfl⟩ := hlabel
        unfold joinedTo at hjoined
        obtain ⟨session, hsession, hdocument⟩ := Option.bind_eq_some_iff.1 hjoined
        exact ⟨env, session, rfl, hsession, hdocument⟩
  | connection socket connectedAt => cases hlabel
  | closing socket => simp [documentEvent] at hlabel
  | close socket env => simp [documentEvent] at hlabel
  | shutDown => cases hlabel
  | shutDownDone => cases hlabel

/-- A socket joins on both sides, each with its own cursor. -/
theorem Related.joins (h : Related φ S d w w') (hok : e.Reliable) (hok' : e'.Reliable)
    {message : JoinMessage} {readyState : ReadyState}
    (hlabel : documentEvent d w e = some (.join k message readyState))
    (hlabel' : documentEvent d w' e' = some (.join k (message.renumber φ) readyState))
    (hcursor : message.lastServerSeq ∈ S) : Related φ S d (w.handle e) (w'.handle e') := by
  obtain ⟨hdocument, hschema, hnone, hready, env, he, hjoin⟩ := documentEvent_join hlabel
  obtain ⟨-, hschema', hnone', hready', env', he', hjoin'⟩ := documentEvent_join hlabel'
  have hinv := h.inv.handle e
  have hinv' := h.inv'.handle e'
  obtain ⟨henv, hwritten⟩ : env.Reliable ∧ env.rowWritten = true := by rw [he] at hok; exact hok
  obtain ⟨henv', hwritten'⟩ : env'.Reliable ∧ env'.rowWritten = true := by rw [he'] at hok'; exact hok'
  have hahead : w'.store.getLatestServerSeq d < φ message.lastServerSeq ↔
      w.store.getLatestServerSeq d < message.lastServerSeq := by
    rw [h.store.latest]
    exact h.store.mono.lt_iff_lt h.store.latest_mem hcursor
  by_cases hrefused : RefusesJoin w message env
  · have hrefused' : RefusesJoin w' (message.renumber φ) env' := by
      refine Or.inr (Or.inr ?_)
      rcases hrefused with hfalse | hthrows | hlt
      · rw [hschema] at hfalse
        cases hfalse
      · rw [henv.1] at hthrows
        cases hthrows
      · rw [hdocument] at hlt
        show w'.store.getLatestServerSeq message.documentId < φ message.lastServerSeq
        rw [hdocument]
        exact hahead.2 hlt
    exact (h.aside hinv (join_refused_quiet hjoin hrefused).aside).aside' hinv'
      (join_refused_quiet hjoin' hrefused').aside
  · have hpasses' : ¬ RefusesJoin w' (message.renumber φ) env' := by
      rintro (hfalse | hthrows | hlt)
      · rw [hschema'] at hfalse
        cases hfalse
      · rw [henv'.1] at hthrows
        cases hthrows
      · refine hrefused (Or.inr (Or.inr ?_))
        change w'.store.getLatestServerSeq message.documentId < φ message.lastServerSeq at hlt
        rw [hdocument] at hlt ⊢
        exact hahead.1 hlt
    obtain ⟨hstore, hclosing, hseat, hhistory⟩ := h.inv.joins hjoin hnone hok hrefused
    obtain ⟨hstore', hclosing', hseat', hhistory'⟩ := h.inv'.joins hjoin' hnone' hok' hpasses'
    subst hdocument
    obtain ⟨hbuilt, hstores⟩ := h.store.buildSyncMessage h.inv.log h.inv'.log true hcursor
      (hasSnapshotBootstrapCapability message.capabilities)
    have hnumbers := h.store.sync_numbers h.inv.log h.inv'.log h.inv.cache true
      message.lastServerSeq (hasSnapshotBootstrapCapability message.capabilities)
    rw [hwritten] at hstore
    rw [hwritten'] at hstore'
    have hready : w'.readyState k = w.readyState k := hready'.symm.trans hready
    have hsync : syncOf w' (message.renumber φ) env' = (syncOf w message env).renumber φ := by
      unfold syncOf
      rw [hwritten, hwritten']
      exact hbuilt
    refine h.extend hinv hinv' ?_ (fun j => ?_) ?_ (fun j => if k = j ∧ w.readyState k = .opened
      then [.sync (syncOf w message env)] else []) hhistory (fun j => ?_) (fun j m hm => ?_)
    · rw [hstore, hstore']
      exact hstores
    · rw [hseat]
      refine (hseat' j).trans ?_
      rw [hready]
      split
      · rfl
      · exact h.seat j
    · rw [hclosing, hclosing', h.closing]
    · refine (hhistory' j).trans ?_
      rw [hready, hsync]
      split <;> rfl
    · split at hm
      · rw [List.mem_singleton.1 hm]
        unfold syncOf
        rw [hwritten]
        exact hnumbers
      · cases hm

/-- An operation is submitted on both sides. -/
theorem Related.submits (h : Related φ S d w w') (hok : e.Reliable) (hok' : e'.Reliable)
    {operation : TextOperation} (hlabel : documentEvent d w e = some (.submit k operation))
    (hlabel' : documentEvent d w' e' = some (.submit k operation))
    (hnext : ∀ n n', (w.handle e).store.log d = w.store.log d ++ [⟨n, operation⟩] →
      (w'.handle e').store.log d = w'.store.log d ++ [⟨n', operation⟩] → n ∈ S ∧ φ n = n') :
    Related φ S d (w.handle e) (w'.handle e') := by
  obtain ⟨env, session, rfl, hsession, hdocument⟩ := documentEvent_submit hlabel
  obtain ⟨env', session', rfl, hsession', hdocument'⟩ := documentEvent_submit hlabel'
  obtain ⟨hclient, hready⟩ : session'.clientId = session.clientId ∧
      w'.readyState k = w.readyState k := by
    have hseat := h.seat k
    rw [seat_some hsession hdocument, seat_some hsession' hdocument'] at hseat
    exact Prod.mk.inj (Option.some.inj hseat)
  have hinv := h.inv.handle (.message k (.message (.submitOperation ⟨d, operation⟩)) env)
  have hinv' := h.inv'.handle (.message k (.message (.submitOperation ⟨d, operation⟩)) env')
  have hstep := @Inv.submits w d k h.inv session hsession hdocument operation env hok.1.2.2
  have hstep' := @Inv.submits w' d k h.inv' session' hsession' hdocument' operation env' hok'.1.2.2
  rw [h.store.log, answer_renumber, hclient] at hstep'
  cases hanswer : answer (w.store.log d) d session.clientId operation with
  | none =>
    rw [hanswer] at hstep hstep'
    exact (h.aside hinv hstep.quiet.aside).aside' hinv' hstep'.quiet.aside
  | some found =>
    rw [hanswer] at hstep hstep'
    cases found with
    | some item =>
      rw [hstep] at hinv ⊢
      rw [hstep'] at hinv' ⊢
      have habout : ∀ n, (ServerMessage.operation ⟨d, n, operation⟩).about d = true := by
        simp [ServerMessage.about]
      refine h.extend hinv hinv' h.store h.seat h.closing (fun j => if k = j ∧ w.readyState k = .opened
        then [.operation ⟨d, item.serverSeq, operation⟩] else []) (fun j => ?_) (fun j => ?_)
        (fun j m hm n hn => ?_)
      · rw [historyOf_append rfl, filter_addressed (habout _)]
      · rw [historyOf_append rfl, filter_addressed (habout _), hready]
        split <;> rfl
      · split at hm
        · obtain rfl := List.mem_singleton.1 hm
          obtain rfl : n = item.serverSeq := List.mem_singleton.1 hn
          exact h.store.numbers item (answer_mem hanswer)
        · cases hm
    | none =>
      obtain ⟨hmem, hφ⟩ := hnext (w.store.lastServerSeq + 1) (w'.store.lastServerSeq + 1)
        (by rw [hstep]; exact (OperationStore.log_insertOperation d).trans (if_pos rfl))
        (by rw [hstep']; exact (OperationStore.log_insertOperation d).trans (if_pos rfl))
      rw [hstep] at hinv ⊢
      rw [hstep'] at hinv' ⊢
      have habout : ∀ n, (ServerMessage.operation ⟨d, n, operation⟩).about d = true := by
        simp [ServerMessage.about]
      refine h.extend hinv hinv' (h.store.insert operation hmem hφ) h.seat h.closing
        (fun j => if (w.seat d j).any (·.2 = .opened)
          then [.operation ⟨d, w.store.lastServerSeq + 1, operation⟩] else [])
        (fun j => ?_) (fun j => ?_) (fun j m hm n hn => ?_)
      · refine (@historyOf_append w _ d j _ rfl).trans ?_
        rw [h.inv.filter_audience (habout _)]
      · refine (@historyOf_append w' _ d j _ rfl).trans ?_
        rw [h.inv'.filter_audience (habout _), h.seat, ← hφ]
        split <;> rfl
      · split at hm
        · obtain rfl := List.mem_singleton.1 hm
          obtain rfl : n = w.store.lastServerSeq + 1 := List.mem_singleton.1 hn
          exact hmem
        · cases hm

/-- Messages are the joins and the submits. -/
theorem documentEvent_moved (hlabel : documentEvent d w e = some a)
    (hjoin : ∀ k message readyState, a ≠ .join k message readyState)
    (hsubmit : ∀ k operation, a ≠ .submit k operation) : e.isMessage = false := by
  cases e with
  | message socket frame env =>
    cases frame with
    | notJson => cases hlabel
    | malformed => cases hlabel
    | message parsed =>
      cases parsed with
      | join m =>
        simp only [documentEvent, Option.ite_none_right_eq_some, Option.some.injEq] at hlabel
        exact absurd hlabel.2.symm (hjoin _ _ _)
      | submitOperation m =>
        simp only [documentEvent, Option.ite_none_right_eq_some, Option.some.injEq] at hlabel
        exact absurd hlabel.2.symm (hsubmit _ _)
  | connection socket connectedAt => rfl
  | closing socket => rfl
  | close socket env => rfl
  | shutDown => rfl
  | shutDownDone => rfl

/-- The same event, with the cursor of a join renumbered. -/
def Corresponds (φ : Int → Int) (S : Set Int) (a a' : DocumentEvent) : Prop :=
  a' = a.renumber φ ∧ ∀ c, a.cursor = some c → c ∈ S

theorem row_of_begin {log l : List SequencedOperation} {i : Nat} {x : SequencedOperation}
    (h : log <+: l) (hx : log[i]? = some x) : l[i]? = some x := by
  obtain ⟨rest, rfl⟩ := h
  rw [List.getElem?_append_left (List.getElem?_eq_some_iff.1 hx).1]
  exact hx

theorem next_row {log l : List SequencedOperation} {x : SequencedOperation} (h : log ++ [x] <+: l) :
    l[log.length]? = some x := row_of_begin h List.getElem?_concat_length

/-- **Corresponding events keep the two servers related.**  The rows of the logs are the first of
`l` and `l'`, whose numbers `φ` relates. -/
theorem Related.both {l l' : List SequencedOperation} {a' : DocumentEvent}
    (hrows : ∀ (i : Nat) x x', l[i]? = some x → l'[i]? = some x' →
      x.serverSeq ∈ S ∧ φ x.serverSeq = x'.serverSeq)
    (h : Related φ S d w w') (hok : e.Reliable) (hok' : e'.Reliable)
    (hlabel : documentEvent d w e = some a) (hlabel' : documentEvent d w' e' = some a')
    (hsame : Corresponds φ S a a') (hbegins : (w.handle e).store.log d <+: l)
    (hbegins' : (w'.handle e').store.log d <+: l') :
    Related φ S d (w.handle e) (w'.handle e') := by
  obtain ⟨rfl, hcursor⟩ := hsame
  have hdepart : (∀ k message readyState, a ≠ .join k message readyState) →
      (∀ k operation, a ≠ .submit k operation) → a.renumber φ = a →
      Related φ S d (w.handle e) (w'.handle e') := by
    intro hjoin hsubmit heq
    rw [heq] at hlabel'
    exact h.departs (documentEvent_moved hlabel hjoin hsubmit)
      (documentEvent_moved hlabel' hjoin hsubmit) hlabel hlabel'
  cases a with
  | join k message readyState => exact h.joins hok hok' hlabel hlabel' (hcursor _ rfl)
  | submit k operation =>
    refine h.submits hok hok' hlabel hlabel' fun n n' hlog hlog' => ?_
    rw [hlog] at hbegins
    rw [hlog'] at hbegins'
    -- both rows stand at the same place of the logs
    have hlength : (w'.store.log d).length = (w.store.log d).length := by
      rw [h.store.log, List.length_map]
    have hrow' := next_row hbegins'
    rw [hlength] at hrow'
    exact hrows _ _ _ (next_row hbegins) hrow'
  | closing k => exact hdepart (by simp) (by simp) rfl
  | close k => exact hdepart (by simp) (by simp) rfl
  | shutDown => exact hdepart (by simp) (by simp) rfl
  | shutDownDone => exact hdepart (by simp) (by simp) rfl

/-! ## Two runs -/

section

variable {σ : Type} [ServerStore σ]

/-- The events of the document in a run. -/
def eventsOf (d : JsString) (w : SyncServer σ) (es : List Event) : List DocumentEvent :=
  Runs.labels SyncServer.handle (documentEvent d) w es

/-- The cursors of the joins. -/
def cursorsOf (d : JsString) (w : SyncServer σ) (es : List Event) : List Int :=
  (eventsOf d w es).filterMap DocumentEvent.cursor

/-- The sequence numbers that a run has of the document: `0`, the cursors of its joins, and the
numbers of its log. -/
def numbersOf (d : JsString) (w : SyncServer σ) (es : List Event) : List Int :=
  0 :: (cursorsOf d w es ++ ((w.run es).log d).map SequencedOperation.serverSeq)

/-- The runs have the same events of the document, but for the cursors of the joins, and each of
these stands at the same place in the order of the numbers of the document. -/
structure SameEvents (d : JsString) (w w' : SyncServer σ) (es es' : List Event) : Prop where
  events : (eventsOf d w es).map (·.renumber fun _ => 0) =
    (eventsOf d w' es').map (·.renumber fun _ => 0)
  cursors : ∀ p ∈ (cursorsOf d w es).zip (cursorsOf d w' es'),
    ∀ q ∈ (numbersOf d w es).zip (numbersOf d w' es'), Matched p q

/-- The runs show the same of the document, up to one renumbering that keeps the order of the numbers
and fixes `0`. -/
def SameHistories (d : JsString) (w w' : SyncServer σ) (es es' : List Event) : Prop :=
  ∃ φ : Int → Int, φ 0 = 0 ∧ StrictMonoOn φ {n | n ∈ numbersOf d w es} ∧
    eventsOf d w' es' = (eventsOf d w es).map (·.renumber φ) ∧
    ∀ k, (w'.run es').historyOf d k = ((w.run es).historyOf d k).map (·.renumber φ) ∧
      ∀ m ∈ (w.run es).historyOf d k, ∀ n ∈ m.numbers, n ∈ numbersOf d w es

/-- Something of the document's log is sent to a socket that has not joined the document. -/
def Leaks (d : JsString) (w : SyncServer σ) (e : Event) : Prop :=
  ∃ added k m dl, (w.handle e).sent = w.sent ++ added ∧ (k, m) ∈ added ∧ delivery m = some dl ∧
    (dl.documentId = d ∨ ∃ item ∈ dl.items, item ∈ (w.handle e).log d) ∧
    (w.handle e).joinedTo k ≠ some d

end

/-- **No step leaks.** -/
theorem Inv.no_leak (h : Inv w) (e : Event) : ¬ Leaks d w e := by
  rintro ⟨added, k, m, dl, hsent, hm, hdl, hd, hnot⟩
  have hjoined := h.sent_to_members hsent _ hm dl hdl
  obtain ⟨-, hdescribes⟩ := (h.handle e).sent (k, m) (by rw [hsent]; exact List.mem_append_right _ hm)
  refine hnot (hjoined.trans (congrArg some ?_))
  rcases hd with heq | ⟨item, hitem, hlog⟩
  · exact heq
  · -- one number belongs to one row, and the row to one document
    obtain ⟨row, hrow, hrowd, hx⟩ :=
      OperationStore.mem_log.1 (hdescribes.items hdl item hitem)
    obtain ⟨row', hrow', hrowd', hx'⟩ := OperationStore.mem_log.1 hlog
    rw [← hrowd, ← hrowd']
    have hseq : row.serverSeq = row'.serverSeq := by
      rw [← hx] at hx'
      exact (congrArg SequencedOperation.serverSeq hx').symm
    rw [(h.handle e).log.increasing.eq_of_key hrow hrow' hseq]

/-- Two events that are the same but for the cursors are the same, or two joins. -/
theorem same_or_joins {a a' : DocumentEvent}
    (h : a.renumber (fun _ => 0) = a'.renumber fun _ => 0) :
    (a.cursor = none ∧ a'.cursor = none ∧ ∀ φ, a' = a.renumber φ) ∨
      ∃ c c', a.cursor = some c ∧ a'.cursor = some c' ∧ ∀ φ : Int → Int, φ c = c' →
        a' = a.renumber φ := by
  have hplain : (∀ φ, a.renumber φ = a) → a.cursor = none → a' = a →
      a.cursor = none ∧ a'.cursor = none ∧ ∀ φ, a' = a.renumber φ := by
    rintro hfix hnone rfl
    exact ⟨hnone, hnone, fun φ => (hfix φ).symm⟩
  cases a with
  | join k message readyState =>
    cases a' with
    | join k' message' readyState' =>
      obtain ⟨document, client, cursor, capabilities, name⟩ := message
      obtain ⟨document', client', cursor', capabilities', name'⟩ := message'
      simp only [DocumentEvent.renumber, JoinMessage.renumber, DocumentEvent.join.injEq,
        JoinMessage.mk.injEq, true_and] at h
      obtain ⟨rfl, ⟨rfl, rfl, rfl, rfl⟩, rfl⟩ := h
      refine Or.inr ⟨cursor, cursor', rfl, rfl, fun φ hφ => ?_⟩
      rw [← hφ]
      rfl
    | submit => cases h
    | closing => cases h
    | close => cases h
    | shutDown => cases h
    | shutDownDone => cases h
  | submit => cases a' <;> cases h; exact Or.inl (hplain (fun _ => rfl) rfl rfl)
  | closing => cases a' <;> cases h; exact Or.inl (hplain (fun _ => rfl) rfl rfl)
  | close => cases a' <;> cases h; exact Or.inl (hplain (fun _ => rfl) rfl rfl)
  | shutDown => cases a' <;> cases h; exact Or.inl (hplain (fun _ => rfl) rfl rfl)
  | shutDownDone => cases a' <;> cases h; exact Or.inl (hplain (fun _ => rfl) rfl rfl)

/-- Events that are the same but for the cursors have as many of these, and correspond if the cursors
do. -/
theorem corresponds_of_cursors {φ : Int → Int} {S : Set Int} : ∀ {l l' : List DocumentEvent},
    l.map (·.renumber fun _ => 0) = l'.map (·.renumber fun _ => 0) →
    (l.filterMap DocumentEvent.cursor).length = (l'.filterMap DocumentEvent.cursor).length ∧
      ((∀ p ∈ (l.filterMap DocumentEvent.cursor).zip (l'.filterMap DocumentEvent.cursor),
        p.1 ∈ S ∧ φ p.1 = p.2) → List.Forall₂ (Corresponds φ S) l l')
  | [], [], _ => ⟨rfl, fun _ => .nil⟩
  | [], _ :: _, h => by cases h
  | _ :: _, [], h => by cases h
  | a :: l, a' :: l', h => by
    obtain ⟨hhead, htail⟩ := List.cons.inj h
    obtain ⟨hlength, hrest⟩ := @corresponds_of_cursors φ S l l' htail
    rcases same_or_joins hhead with ⟨hnone, hnone', hrenumber⟩ | ⟨c, c', hc, hc', hrenumber⟩
    · rw [List.filterMap_cons_none hnone, List.filterMap_cons_none hnone']
      refine ⟨hlength, fun hcursors => .cons ⟨hrenumber φ, fun c hc => ?_⟩ (hrest hcursors)⟩
      rw [hnone] at hc
      cases hc
    · rw [List.filterMap_cons_some hc, List.filterMap_cons_some hc']
      refine ⟨congrArg (· + 1) hlength, fun hcursors => ?_⟩
      obtain ⟨⟨hmem, hφ⟩, hcursors⟩ := List.forall_mem_cons.1 hcursors
      refine .cons ⟨hrenumber φ hφ, fun n hn => ?_⟩ (hrest hcursors)
      rw [hc] at hn
      cases hn
      exact hmem

section

variable {store store' : OperationStore} {es es' : List Event}

/-- The numbers of the document, paired. -/
theorem SameEvents.pairs (h : SameEvents d w w' es es') :
    (numbersOf d w es).zip (numbersOf d w' es') =
      (0, 0) :: ((cursorsOf d w es).zip (cursorsOf d w' es') ++
        (((w.run es).store.log d).map SequencedOperation.serverSeq).zip
          (((w'.run es').store.log d).map SequencedOperation.serverSeq)) := by
  have hlength : (cursorsOf d w es).length = (cursorsOf d w' es').length :=
    (@corresponds_of_cursors id Set.univ _ _ h.events).1
  unfold numbersOf
  rw [List.zip_cons_cons, List.zip_append hlength]
  rfl

/-- All of them keep their order. -/
theorem SameEvents.matched (h : SameEvents d w w' es es') (hinv : Inv (w.run es))
    (hinv' : Inv (w'.run es')) : ∀ p ∈ (numbersOf d w es).zip (numbersOf d w' es'),
      ∀ q ∈ (numbersOf d w es).zip (numbersOf d w' es'), Matched p q := by
  have hcursors := h.cursors
  rw [h.pairs] at hcursors ⊢
  have hincreasing : ∀ {v : SyncServer}, Inv v →
      ((v.store.log d).map SequencedOperation.serverSeq).Pairwise (· < ·) := fun hv =>
    List.pairwise_map.2 (hv.log.log_increasing d)
  have hpos : ∀ {v : SyncServer} {n : Int}, Inv v →
      n ∈ (v.store.log d).map SequencedOperation.serverSeq → 0 < n := by
    intro v n hv hn
    obtain ⟨item, hitem, rfl⟩ := List.mem_map.1 hn
    have := (hv.log.log_bounds hitem).1
    omega
  -- the rows are above `0`
  have hzero : ∀ q ∈ (((w.run es).store.log d).map SequencedOperation.serverSeq).zip
      (((w'.run es').store.log d).map SequencedOperation.serverSeq), Matched (0, 0) q := by
    intro q hq
    have hq₁ := hpos hinv (List.of_mem_zip hq).1
    have hq₂ := hpos hinv' (List.of_mem_zip hq).2
    exact ⟨iff_of_true hq₁ hq₂, iff_of_false hq₁.not_gt hq₂.not_gt⟩
  have hrows := matched_zip (hincreasing hinv) (hincreasing hinv')
  intro p hp q hq
  rcases List.mem_cons.1 hp with rfl | hp'
  · rcases List.mem_cons.1 hq with rfl | hq'
    · exact .refl _
    · rcases List.mem_append.1 hq' with hq' | hq'
      · exact (hcursors q hq' _ hp).symm
      · exact hzero q hq'
  · rcases List.mem_append.1 hp' with hp' | hp'
    · exact hcursors p hp' q hq
    · rcases List.mem_cons.1 hq with rfl | hq'
      · exact (hzero p hp').symm
      · rcases List.mem_append.1 hq' with hq' | hq'
        · exact (hcursors q hq' _ hp).symm
        · exact hrows p hp' q hq'

/-- **Documents do not interfere.**  Runs without failures that have the same events of a document
show the same of it, whatever else happens in them; and no step of them leaks. -/
theorem non_interference (hstore : store.Reachable) (hstore' : store'.Reachable)
    (hsame : OperationStore.SameDocument d store store') (hok : ∀ e ∈ es, e.Reliable)
    (hok' : ∀ e ∈ es', e.Reliable) (hevents : SameEvents d (start store) (start store') es es') :
    SameHistories d (start store) (start store') es es' ∧
      Runs.Never SyncServer.handle (Leaks d) (start store) es ∧
      Runs.Never SyncServer.handle (Leaks d) (start store') es' := by
  have hleak : ∀ {store : OperationStore}, store.Reachable → ∀ es,
      Runs.Never SyncServer.handle (Leaks d) (start store) es := by
    intro store hstore es before e after _
    rw [← run_eq]
    exact (run_inv hstore before).no_leak e
  refine ⟨?_, hleak hstore es, hleak hstore' es'⟩
  have hinv := run_inv hstore es
  have hinv' := run_inv hstore' es'
  have hmatched := hevents.matched hinv hinv'
  have hpairs := hevents.pairs
  -- the renumbering is the one that the pairs table
  obtain ⟨pairs, hdef⟩ : ∃ pairs, pairs =
      (numbersOf d (start store) es).zip (numbersOf d (start store') es') := ⟨_, rfl⟩
  rw [← hdef] at hmatched hpairs
  have htabled : ∀ p ∈ pairs, p.1 ∈ {n | n ∈ pairs.map Prod.fst} ∧ tabled pairs p.1 = p.2 :=
    fun p hp => ⟨List.mem_map_of_mem hp, tabled_eq hmatched hp⟩
  have hrows : ∀ (i : Nat) x x', (((start store).run es).store.log d)[i]? = some x →
      (((start store').run es').store.log d)[i]? = some x' →
      x.serverSeq ∈ {n | n ∈ pairs.map Prod.fst} ∧ tabled pairs x.serverSeq = x'.serverSeq := by
    intro i x x' hx hx'
    refine htabled (x.serverSeq, x'.serverSeq) ?_
    rw [hpairs]
    refine List.mem_cons_of_mem _ (List.mem_append_right _ (mem_zip_iff.2 ⟨i, ?_, ?_⟩))
    · rw [List.getElem?_map, hx]
      rfl
    · rw [List.getElem?_map, hx']
      rfl
  have hzero : (0, 0) ∈ pairs := by
    rw [hpairs]
    exact List.mem_cons_self
  have hrelated : Related (tabled pairs) {n | n ∈ pairs.map Prod.fst} d (start store)
      (start store') := by
    obtain ⟨φ₀, S₀, hstores⟩ := hsame
    refine ⟨.start hstore, .start hstore', hstores.transfer (tabled_strictMonoOn hmatched)
      (htabled _ hzero).2 (htabled _ hzero).1 fun item hitem => ?_, fun _ => rfl, rfl, fun _ => rfl,
      fun _ _ hm => by cases hm⟩
    -- the first rows of the final logs
    obtain ⟨i, hi⟩ := List.mem_iff_getElem?.1 hitem
    have hi' : (store'.log d)[i]? = some (item.renumber φ₀) := by
      rw [hstores.log, List.getElem?_map, hi]
      rfl
    rw [run_eq, run_eq] at hrows
    exact hrows i _ _ (row_of_begin (log_grows_run d (start store) es) hi)
      (row_of_begin (log_grows_run d (start store') es') hi')
  have hcorresponds : List.Forall₂ (Corresponds (tabled pairs) {n | n ∈ pairs.map Prod.fst})
      (eventsOf d (start store) es) (eventsOf d (start store') es') := by
    refine (corresponds_of_cursors hevents.events).2 fun p hp => htabled p ?_
    rw [hpairs]
    exact List.mem_cons_of_mem _ (List.mem_append_left _ hp)
  have hgrows : ∀ (l : List SequencedOperation) (w : SyncServer) (es : List Event),
      (Runs.run SyncServer.handle w es).store.log d <+: l → w.store.log d <+: l :=
    fun _ w es h => (log_grows_run d w es).trans h
  rw [run_eq, run_eq] at hrows
  have hend := @Runs.unwinding _ _ _ _ (documentEvent d)
    (Related (tabled pairs) {n | n ∈ pairs.map Prod.fst} d) _ Event.Reliable
    (fun w => w.store.log d <+: (Runs.run SyncServer.handle (start store) es).store.log d)
    (fun w => w.store.log d <+: (Runs.run SyncServer.handle (start store') es').store.log d)
    (fun w w' e h hok hlabel => h.aside (h.inv.handle e) (h.inv.aside hok hlabel))
    (fun w w' e h hok hlabel => h.aside' (h.inv'.handle e) (h.inv'.aside hok hlabel))
    (fun w w' e e' a a' h hok hok' hlabel hlabel' hsame hbegins hbegins' =>
      h.both hrows hok hok' hlabel hlabel' hsame hbegins hbegins')
    (hgrows _) (hgrows _) _ _ _ _ hrelated hok hok' hcorresponds List.prefix_rfl List.prefix_rfl
  rw [← run_eq, ← run_eq] at hend
  have hnumbers : pairs.map Prod.fst = numbersOf d (start store) es := by
    have hlength : (cursorsOf d (start store) es).length = (cursorsOf d (start store') es').length :=
      (@corresponds_of_cursors id Set.univ _ _ hevents.events).1
    rw [hdef, List.map_fst_zip]
    unfold numbersOf
    rw [log_plain, log_plain, hend.store.log]
    simp [hlength]
  have hmono := tabled_strictMonoOn hmatched
  rw [hnumbers] at hend hmono
  have hrenumbered := List.forall₂_map_left_iff.2 (hcorresponds.imp fun _ _ h => h.1.symm)
  rw [List.forall₂_eq_eq_eq] at hrenumbered
  exact ⟨tabled pairs, (htabled _ hzero).2, hmono, hrenumbered.symm,
    fun k => ⟨hend.history k, hend.within k⟩⟩

end

end SyncServer

end LocalFirst
