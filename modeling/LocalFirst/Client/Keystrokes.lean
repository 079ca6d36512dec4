import LocalFirst.Client.Catalog
import LocalFirst.Client.EditExact
import LocalFirst.Client.Editor
import LocalFirst.Client.IngestAtomicity

/-!
# Keystrokes and compositions

* `Editing` — a controller and its tables between two commits.
* `replaceTextNow_editing` — a fulfilled commit leaves its text in the replica, a rejected one
  leaves the replica alone.
* `Editor.run_text` — the text after any events is that of the last fulfilled commit.
* `Editor.last_change_kept_iff` — when the last change of the text area is in the replica.
-/

set_option autoImplicit false

namespace LocalFirst

open TextReplica

/-! ## One commit -/

/-- A session between two commits: the replica stands for the tables, whose counters bound what
they hold, and nothing is unresolved. -/
structure Editing (c : LocalDocumentController) (db : Database) : Prop where
  live : c.Live db
  clock : ∃ returned, StoreRun.ClockInv ⟨db, returned⟩
  resolved : c.replica.getUnresolvedOperationIds = []
  identity : db.clientMeta.isSome = true

/-- A controller that `create` returns, on tables that any writes have left. -/
def OpenedSession (c : LocalDocumentController) (db : Database) : Prop :=
  ∃ events options env,
    Runs.Never WorkspaceEvent.step (fun s e => ¬ WorkspaceEvent.Honest s e) StoreRun.start events ∧
      LocalDocumentController.create (WorkspaceEvent.run events).db options env = (.ok c, db)

namespace LocalDocumentController

theorem create_resolved {db db' : Database} {options : LocalDocumentControllerOptions}
    {env : Surroundings} {c : LocalDocumentController} (h : create db options env = (.ok c, db')) :
    c.replica.getUnresolvedOperationIds = [] := by
  unfold create at h
  split at h
  · cases h
  · simp only at h
    split at h
    · cases h
    · split at h
      · cases h
      · rename_i hnone
        cases h
        rw [(maybeCreateCheckpoint_spec _ _ env).1]
        exact List.length_eq_zero_iff.1 (Nat.eq_zero_of_not_pos hnone)

end LocalDocumentController

theorem OpenedSession.editing {c : LocalDocumentController} {db : Database}
    (h : OpenedSession c db) : Editing c db := by
  obtain ⟨events, options, env, hown, hcreate⟩ := h
  obtain ⟨defaultTitle, replicaSnapshots, rfl⟩ := LocalDocumentController.create_tables hcreate
  refine ⟨(LocalDocumentController.create_live hcreate).1, ⟨(WorkspaceEvent.run events).returned, ?_⟩,
    LocalDocumentController.create_resolved hcreate, rfl⟩
  have hopened := (WorkspaceEvent.clockInv_run hown).initialized
    (options.documentId.getD DEFAULT_DOCUMENT_ID) defaultTitle env.clientIdFactory env.now
  exact WorkspaceEvent.clockInv_sameLog hopened ⟨rfl, rfl, rfl, rfl, fun _ => id, fun _ => rfl⟩

namespace Editing

variable {segmentGraphemes : JsString → List JsString} {c : LocalDocumentController} {db : Database}

/-- What the replica knows is below the counters. -/
theorem bounds (h : Editing c db) {m : ClientMetaRecord} (hm : db.clientMeta = some m) :
    (∀ op ∈ c.replica.ops, op.lamport ≤ m.lamportClock) ∧
      ∀ op ∈ c.replica.ops, op.clientId = m.clientId → op.counter < m.nextCounter := by
  obtain ⟨returned, hclock⟩ := h.clock
  have hholds : ∀ op ∈ c.replica.ops, op.lamport ≤ m.lamportClock ∧
      (op.clientId = m.clientId → op.counter < m.nextCounter) := by
    intro op hop
    rw [h.live.ops] at hop
    obtain ⟨m₀, hm₀, hbounds⟩ := hclock.holds op (Database.holds_of_documentOps hop)
    have hm₀ : db.clientMeta = some m₀ := hm₀
    rw [hm] at hm₀
    cases hm₀
    exact hbounds
  exact ⟨fun op hop => (hholds op hop).1, fun op hop => (hholds op hop).2⟩

/-- The operations of an edit, once stored, apply. -/
theorem applies (h : Editing c db) (hsegment : Segments segmentGraphemes)
    {elements : List VisibleElement} (hv : c.replica.getVisibleElements = .ok elements)
    {nextText timestamp : JsString} {outboxCreatedAt : Int} {ops : List TextOperation}
    (hbuilt : db.Builds segmentGraphemes c.documentId elements nextText timestamp outboxCreatedAt
      ops) : ∃ r', c.replica.applyAll ops = (r', .ok ()) ∧ r'.getUnresolvedOperationIds = [] ∧
      r'.materialize = .ok nextText := by
  obtain ⟨m, hm⟩ := Option.isSome_iff_exists.1 h.identity
  obtain ⟨hlamport, hcounter⟩ := h.bounds hm
  obtain ⟨r', elements', new, happlied, hres, htext, -⟩ :=
    hbuilt.applies hsegment h.live.inv h.resolved hv hm hlamport hcounter
  exact ⟨r', happlied, hres, htext⟩

/-- The transaction of an edit keeps the counters above what the tables hold. -/
theorem committed (h : Editing c db) {db' : Database} {edit : LocalTextEdit} {timestamp : JsString}
    {outboxCreatedAt : Int} {ops : List TextOperation}
    (hp : db.persistLocalTextEdit c.documentId edit timestamp outboxCreatedAt = .ok (ops, db')) :
    (∃ returned, StoreRun.ClockInv ⟨db', returned⟩) ∧ db'.clientMeta.isSome = true := by
  obtain ⟨returned, hclock⟩ := h.clock
  obtain ⟨-, ⟨rfl, rfl⟩ | ⟨-, he⟩⟩ := Database.persistLocalTextEdit_spec hp
  · exact ⟨⟨returned, hclock⟩, h.identity⟩
  · obtain ⟨m, identity, -, -, hm'⟩ := he.clientMeta
    exact ⟨⟨_, hclock.edit he⟩, by rw [hm']; rfl⟩

/-- **One commit.**  If the promise is fulfilled, the replica shows the text that was handed over;
if it is rejected, nothing has changed. -/
theorem replaceTextNow (h : Editing c db) (hsegment : Segments segmentGraphemes)
    (env : Surroundings) (nextText : JsString) :
    let job := c.replaceTextNow segmentGraphemes db env nextText
    Editing job.1 job.2.1 ∧
      ((∃ result, job.2.2 = .ok result) ∧ job.1.replica.materialize = .ok nextText ∨
        (∃ e, job.2.2 = .error e) ∧ job.1.replica = c.replica) := by
  intro job
  obtain ⟨elements, hv⟩ := h.live.inv.visible_ok
  cases hedit : computeLocalTextEdit segmentGraphemes elements nextText with
  | none =>
    -- the text is shown already
    obtain ⟨r', happlied, -, htext⟩ := @applies segmentGraphemes c db h hsegment elements hv nextText
      [] 0 [] (by unfold Database.Builds; rw [hedit])
    cases happlied
    obtain ⟨snapshot, hs⟩ := LocalDocumentController.getSnapshot_ok h.live.inv
    have hjob : job = (c, db, .ok ⟨snapshot, []⟩) := by
      simp only [job, LocalDocumentController.replaceTextNow, hv, hedit, hs]
      rfl
    rw [hjob]
    exact ⟨h, Or.inl ⟨⟨_, rfl⟩, htext⟩⟩
  | some edit =>
    cases hp : db.persistLocalTextEdit c.documentId edit env.now env.dateNow with
    | error e =>
      have hjob : job = (c, db, .error e) := by
        simp only [job, LocalDocumentController.replaceTextNow, hv, hedit, hp]
      rw [hjob]
      exact ⟨h, Or.inr ⟨⟨e, rfl⟩, rfl⟩⟩
    | ok committed =>
      obtain ⟨ops, db'⟩ := committed
      have hbuilt : db.Builds segmentGraphemes c.documentId elements nextText env.now env.dateNow
          ops := by
        unfold Database.Builds
        rw [hedit]
        exact ⟨db', hp⟩
      obtain ⟨r', happlied, hres, htext⟩ := h.applies hsegment hv hbuilt
      have hinv' := (applyAll_spec ops h.live.inv).1
      rw [happlied] at hinv'
      obtain ⟨snapshot, hs⟩ :=
        LocalDocumentController.finish_ok (c := c.withReplica r') hinv' db' env
      have hjob : job = (((c.withReplica r').finish db' env).1,
          ((c.withReplica r').finish db' env).2.1, .ok ⟨snapshot, ops⟩) := by
        simp only [job, LocalDocumentController.replaceTextNow, hv, hedit, hp, happlied, hs]
        rfl
      obtain ⟨hr, -, -, -, snaps, hdb⟩ :=
        LocalDocumentController.maybeCreateCheckpoint_spec (c.withReplica r') db' env
      have hreplica : job.1.replica = r' := by
        rw [hjob]
        exact hr
      have htables : job.2.1 = { db' with replicaSnapshots := snaps } := by
        rw [hjob]
        exact hdb
      have hlive : job.1.Live job.2.1 := by
        refine LocalDocumentController.replaceTextNow_live h.live env nextText fun _ => ?_
        show ∃ shown, job.2.2.map (·.snapshot) = .ok shown
        rw [hjob]
        exact ⟨snapshot, rfl⟩
      refine ⟨⟨hlive, ?_, by rw [hreplica]; exact hres, ?_⟩,
        Or.inl ⟨⟨_, by rw [hjob]⟩, by rw [hreplica]; exact htext⟩⟩
      · obtain ⟨returned, hclock⟩ := (h.committed hp).1
        rw [htables]
        exact ⟨returned, WorkspaceEvent.clockInv_sameLog hclock
          ⟨rfl, rfl, rfl, rfl, fun _ => id, fun _ => rfl⟩⟩
      · rw [htables]
        exact (h.committed hp).2

end Editing

/-! ## Runs of a session -/

/-- The text that an event of the text area carries. -/
def EditorEvent.value : EditorEvent → Option JsString
  | .textChange value => some value
  | .compositionEnd value => some value
  | _ => none

namespace Editor

/-- The event hands its text to `replaceText`; the other text changes are only shown. -/
def Hands (s : Editor) : EditorEvent → Bool
  | .textChange _ => !(s.composing || s.gate.isHolding)
  | .compositionEnd _ => true
  | _ => false

def handed (s : Editor) (e : EditorEvent) : Option JsString := if s.Hands e then e.value else none

variable (segmentGraphemes : JsString → List JsString)

/-- The text of the commit that an event settles, and whether it is fulfilled. -/
def settled (s : Editor) : EditorEvent → Option (JsString × Bool)
  | .settle env aborted => s.commits.head?.map fun commit =>
      (commit.nextText, (s.replaceText segmentGraphemes env aborted commit.nextText).2.2.isOk)
  | _ => none

/-- The texts whose commits a run fulfils, in order. -/
def kept (s : Editor) (events : List EditorEvent) : List JsString :=
  ((Runs.labels (step segmentGraphemes) (settled segmentGraphemes) s events).filter (·.2)).map (·.1)

variable {segmentGraphemes} {s : Editor}

/-- A step of the write queue. -/
theorem queue_step (s : Editor) (e : EditorEvent) :
    s.commits.map (·.nextText) ++ (s.handed e).toList =
      ((s.settled segmentGraphemes e).map (·.1)).toList ++
        (s.step segmentGraphemes e).commits.map (·.nextText) := by
  cases e with
  | textChange value =>
    show _ = (s.onTextChange value).commits.map (·.nextText)
    unfold handed Hands onTextChange
    cases s.composing || s.gate.isHolding with
    | true => simp
    | false => simp [EditorEvent.value, commitText]
  | compositionStart => simp [handed, Hands, settled, step, onCompositionStart]
  | compositionEnd value =>
    simp [handed, Hands, settled, step, onCompositionEnd, EditorEvent.value, commitText]
  | settle env aborted =>
    show _ = _ ++ (s.settleCommit segmentGraphemes env aborted).commits.map (·.nextText)
    unfold settled
    cases hcs : s.commits with
    | nil => simp [handed, Hands, settleCommit_nil env aborted hcs, hcs]
    | cons commit commits => simp [handed, Hands, (settleCommit_spec env aborted hcs).2.1]

/-- The replica shows this text, and the session can go on. -/
structure Shows (s : Editor) (text : JsString) : Prop where
  editing : Editing s.controller s.db
  text : s.controller.replica.materialize = .ok text

/-- What a step does to the text of the replica. -/
theorem Shows.step (hsegment : Segments segmentGraphemes) {text : JsString} (h : s.Shows text)
    (e : EditorEvent) : (s.step segmentGraphemes e).Shows
      (((s.settled segmentGraphemes e).toList.filter (·.2)).map (·.1) |>.getLastD text) := by
  cases e with
  | textChange value =>
    show (s.onTextChange value).Shows text
    unfold onTextChange
    split
    · exact ⟨h.editing, h.text⟩
    · exact ⟨h.editing, h.text⟩
  | compositionStart => exact ⟨h.editing, h.text⟩
  | compositionEnd value => exact ⟨h.editing, h.text⟩
  | settle env aborted =>
    show (s.settleCommit segmentGraphemes env aborted).Shows _
    unfold settled settleCommit replaceText
    cases s.commits with
    | nil => exact h
    | cons commit commits =>
      cases aborted with
      | true => exact ⟨h.editing, h.text⟩
      | false =>
        obtain ⟨hediting, ⟨⟨result, hresult⟩, htext⟩ | ⟨⟨e, he⟩, hsame⟩⟩ :=
          h.editing.replaceTextNow hsegment env commit.nextText
        · refine ⟨hediting, ?_⟩
          simp only [Bool.false_eq_true, if_false, List.head?_cons, Option.map_some, hresult]
          exact htext
        · refine ⟨hediting, ?_⟩
          simp only [Bool.false_eq_true, if_false, List.head?_cons, Option.map_some, he, hsame]
          exact h.text

/-- **The text after any events** is the one whose commit was fulfilled last. -/
theorem run_text (hsegment : Segments segmentGraphemes) : ∀ {s : Editor} {text : JsString}
    (events : List EditorEvent), s.Shows text →
      (Runs.run (step segmentGraphemes) s events).Shows ((s.kept segmentGraphemes events).getLastD text)
  | _, _, [], h => h
  | s, text, e :: events, h => by
    have hrest := run_text hsegment events (h.step hsegment e)
    have hkept : (s.kept segmentGraphemes (e :: events)).getLastD text =
        ((s.step segmentGraphemes e).kept segmentGraphemes events).getLastD
          (((s.settled segmentGraphemes e).toList.filter (·.2)).map (·.1) |>.getLastD text) := by
      unfold kept
      rw [Runs.labels, List.filter_append, List.map_append, List.getLastD_eq_getLast?,
        List.getLast?_append, List.getLastD_eq_getLast?, List.getLastD_eq_getLast?, Option.getD_or]
    rw [hkept]
    exact hrest

/-- What a run settles is what it was handed, when nothing waits before and after. -/
theorem settled_of_idle (hstart : s.commits = []) {events : List EditorEvent}
    (hidle : (Runs.run (step segmentGraphemes) s events).commits = []) :
    (Runs.labels (step segmentGraphemes) (settled segmentGraphemes) s events).map (·.1) =
      Runs.labels (step segmentGraphemes) handed s events := by
  have hqueue := @Runs.labels_queue _ _ (step segmentGraphemes) _ handed
    (fun s => s.commits.map (·.nextText)) (fun s e => (settled segmentGraphemes s e).map (·.1))
    queue_step s events
  simp only [hstart, hidle, List.map_nil, List.nil_append, List.append_nil] at hqueue
  rw [hqueue, Runs.labels_map]

/-- The last event that carries a text. -/
theorem split_last {events : List EditorEvent} {v : JsString}
    (h : (events.filterMap (·.value)).getLast? = some v) : ∃ before e after,
      events = before ++ e :: after ∧ e.value = some v ∧ ∀ x ∈ after, x.value = none := by
  induction events using List.reverseRecOn with
  | nil => cases h
  | append_singleton events e ih =>
    rw [List.filterMap_append, List.getLast?_append] at h
    cases he : e.value with
    | some u =>
      have hu : u = v := by simpa [he] using h
      exact ⟨events, e, [], rfl, by rw [he, hu], fun x hx => by cases hx⟩
    | none =>
      obtain ⟨before, e', after, rfl, hv, hafter⟩ := ih (by simpa [he] using h)
      refine ⟨before, e', after ++ [e], by simp, hv, fun x hx => ?_⟩
      rcases List.mem_append.1 hx with hx | hx
      · exact hafter x hx
      · rw [List.mem_singleton.1 hx]
        exact he

theorem labels_handed_nil : ∀ {events : List EditorEvent} {s : Editor},
    (∀ x ∈ events, x.value = none) → Runs.labels (step segmentGraphemes) handed s events = []
  | [], _, _ => rfl
  | e :: events, s, h => by
    have he : s.handed e = none := by
      unfold handed
      split
      · exact h e List.mem_cons_self
      · rfl
    rw [Runs.labels, he, labels_handed_nil fun x hx => h x (List.mem_cons_of_mem e hx)]
    rfl

/-- **When the last change of the text area is in the replica.**  Whenever every commit of a session
has settled, the replica shows the text of the last change exactly if the commit that was fulfilled
last has this text; and when none is rejected, exactly if the change was handed to `replaceText`,
which a text change is not while a composition is active or the gate holds for an earlier one, or
has the text that was handed over last. -/
theorem last_change_kept_iff (hsegment : Segments segmentGraphemes) {c : LocalDocumentController}
    {db : Database} (hopen : OpenedSession c db) {initial : JsString}
    (hinitial : c.replica.materialize = .ok initial) (requestVersion : ℕ)
    {events : List EditorEvent} {v : JsString}
    (hlast : (events.filterMap (·.value)).getLast? = some v)
    (hidle : (Runs.run (step segmentGraphemes) (opened c db initial requestVersion) events).commits =
      []) :
    let start := opened c db initial requestVersion
    let s := Runs.run (step segmentGraphemes) start events
    (s.controller.replica.materialize = .ok v ↔
      (start.kept segmentGraphemes events).getLastD initial = v) ∧
    ((∀ commit ∈ Runs.labels (step segmentGraphemes) (settled segmentGraphemes) start events,
        commit.2 = true) →
      (s.controller.replica.materialize = .ok v ↔ ∃ before e after,
        events = before ++ e :: after ∧ e.value = some v ∧ (∀ x ∈ after, x.value = none) ∧
          ((Runs.run (step segmentGraphemes) start before).Hands e = true ∨
            (Runs.labels (step segmentGraphemes) handed start before).getLastD initial = v))) := by
  intro start s
  have hshows : start.Shows initial := ⟨hopen.editing, hinitial⟩
  have htext : s.controller.replica.materialize = .ok v ↔
      (start.kept segmentGraphemes events).getLastD initial = v := by
    rw [(run_text hsegment events hshows).text]
    exact ⟨Except.ok.inj, congrArg Except.ok⟩
  refine ⟨htext, fun hfulfilled => htext.trans ?_⟩
  have hkept : start.kept segmentGraphemes events =
      Runs.labels (step segmentGraphemes) handed start events := by
    unfold kept
    rw [List.filter_eq_self.2 hfulfilled]
    exact settled_of_idle rfl hidle
  have hsplit : ∀ {before e after}, events = before ++ e :: after → e.value = some v →
      (∀ x ∈ after, x.value = none) → ((start.kept segmentGraphemes events).getLastD initial = v ↔
        (Runs.run (step segmentGraphemes) start before).Hands e = true ∨
          (Runs.labels (step segmentGraphemes) handed start before).getLastD initial = v) := by
    intro before e after heq hv hafter
    rw [hkept, heq, Runs.labels_append, Runs.labels, labels_handed_nil hafter, List.append_nil]
    unfold handed
    split
    · rename_i hhands
      simp [hv, hhands]
    · rename_i hhands
      simp [hhands]
  constructor
  · intro h
    obtain ⟨before, e, after, heq, hv, hafter⟩ := split_last hlast
    exact ⟨before, e, after, heq, hv, hafter, (hsplit heq hv hafter).1 h⟩
  · rintro ⟨before, e, after, heq, hv, hafter, h⟩
    exact (hsplit heq hv hafter).2 h

theorem openedSession_empty {options : LocalDocumentControllerOptions} {env : Surroundings}
    {c : LocalDocumentController} {db : Database}
    (h : LocalDocumentController.create .empty options env = (.ok c, db)) : OpenedSession c db :=
  ⟨[], options, env, fun before e after heq => by simp at heq, h⟩

/-- A composition, and a character typed after its commit has settled. -/
theorem last_change_kept_iff_composed :
    let env : Surroundings := ⟨js "now", 0, js "A", true⟩
    let events : List EditorEvent := [.compositionStart, .textChange (js "n"),
      .compositionEnd (js "你"), .settle env false, .textChange (js "你!"), .settle env false]
    ∃ c db, LocalDocumentController.create .empty ⟨some (js "d"), none, none⟩ env = (.ok c, db) ∧
      (Runs.run (step (·.map ([·]))) (opened c db [] 0) events).controller.replica.materialize =
        .ok (js "你!") := by
  intro env events
  have hcreate : LocalDocumentController.create .empty ⟨some (js "d"), none, none⟩ env =
      (.ok _, _) := rfl
  refine ⟨_, _, hcreate, ?_⟩
  have h := @last_change_kept_iff (·.map ([·])) segments_codeUnits _ _ (openedSession_empty hcreate)
    [] (by decide +kernel) 0 events (js "你!") (by decide +kernel) rfl
  refine (h.2 (by decide +kernel)).2 ?_
  exact ⟨events.take 4, .textChange (js "你!"), [.settle env false], rfl, rfl,
    fun x hx => by rw [List.mem_singleton.1 hx]; rfl, Or.inl (by decide +kernel)⟩

/-- A character typed before the commit of a composition has settled is shown and then lost. -/
theorem last_change_dropped :
    let env : Surroundings := ⟨js "now", 0, js "A", true⟩
    let events : List EditorEvent :=
      [.compositionStart, .compositionEnd (js "你"), .textChange (js "你!"), .settle env false]
    ∃ c db, LocalDocumentController.create .empty ⟨some (js "d"), none, none⟩ env = (.ok c, db) ∧
      let s := Runs.run (step (·.map ([·]))) (opened c db [] 0) events
      (events.filterMap (·.value)).getLast? = some (js "你!") ∧ s.commits = [] ∧
        s.composing = false ∧ s.controller.replica.materialize = .ok (js "你") ∧
        s.text = js "你" := by
  intro env events
  have hcreate : LocalDocumentController.create .empty ⟨some (js "d"), none, none⟩ env =
      (.ok _, _) := rfl
  refine ⟨_, _, hcreate, by decide +kernel, rfl, rfl, by decide +kernel, by decide +kernel⟩

end Editor

end LocalFirst
