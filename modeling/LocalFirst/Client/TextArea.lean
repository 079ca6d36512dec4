import LocalFirst.Client.Editor
import LocalFirst.Client.IngestAtomicity
import LocalFirst.Client.SelectionAnchor

/-!
# The text area under remote ingestion

Model of the part of `apps/web/src/App.tsx` that shares the text area between the user and the
server, in one open session: `commitText`, `onServerOperations`, `onSnapshotBootstrap`, the layout
effect that restores the caret, and the handlers of `DocumentEditor`.

* `App.step` — the events of the text area, the deliveries of the sync client, the write queue and
  the renders, in any order.
* `App.settle_spec`, `App.continuation_frame` — what the end of a job touches.
* `App.step_editor` — the gate does what it does in a session without the server.
-/

set_option autoImplicit false

namespace LocalFirst

/-! ## State -/

inductive SaveState where
  | loading
  | saved
  | saving
  | error
  deriving DecidableEq

/-- The selection of the text area. -/
structure Selection where
  start : ℤ
  end_ : ℤ
  direction : SelectionDirection
  deriving DecidableEq

/-- A caret restore that is only valid for one exact text. -/
structure PendingSelection extends SelectionOffsets where
  forText : JsString

/-- What the sync client hands over: `onServerOperations` or `onSnapshotBootstrap` is called. -/
inductive ServerDelivery where
  | operations (sequencedOperations : List SequencedOperation) (confirmedThroughServerSeq : Int)
  | snapshot (bootstrap : SnapshotBootstrap) (sequencedOperations : List SequencedOperation)
      (confirmedThroughServerSeq : Int)

/-- Where the handler of a delivery stands: it awaits the gate, by the number of its promise; it
awaits `whenIdle`, that is the jobs that were on the write queue; or its own job is on the queue. -/
inductive Ingestion where
  | held (delivery : ServerDelivery) (promise : ℕ)
  | behind (sequencedOperations : List SequencedOperation) (confirmedThroughServerSeq : Int)
      (jobs : ℕ)
  | applying

/-- A job of the write queue, with what its continuation reads. -/
inductive QueuedJob where
  | commit (commit : PendingCommit)
  | ingest (sequencedOperations : List SequencedOperation) (confirmedThroughServerSeq : Int)
      (anchor : Option SelectionAnchor) (editVersion : ℕ)
  | install (bootstrap : SnapshotBootstrap) (sequencedOperations : List SequencedOperation)
      (confirmedThroughServerSeq : Int)

def QueuedJob.job : QueuedJob → Job
  | .commit pending => .replaceText pending.nextText
  | .ingest items confirmed _ _ => .applyServerOperations items confirmed
  | .install bootstrap items confirmed => .installServerSnapshot bootstrap items confirmed

/-- The gate is released after the job. -/
def QueuedJob.releases : QueuedJob → Bool
  | .commit pending => pending.releases
  | _ => false

def QueuedJob.commit? : QueuedJob → Option PendingCommit
  | .commit pending => some pending
  | _ => none

/-- `text` is the state that React renders, `rendered` what it rendered last. -/
structure App where
  controller : LocalDocumentController
  db : Database
  composing : Bool
  compositionGate : CompositionGate
  text : JsString
  rendered : JsString
  selection : Selection
  focused : Bool
  pendingSelection : Option PendingSelection
  saveState : SaveState
  requestVersion : ℕ
  writeQueue : List QueuedJob
  ingestion : Option Ingestion

/-- An event of the text area carries its value and its selection.  `deliver` is the next message
of the inbound chain, `resume` the continuation of a handler after an await, and `settle` the end
of the oldest job, whose transaction may abort. -/
inductive AppEvent where
  | textChange (value : JsString) (selection : Selection)
  | compositionStart
  | compositionEnd (value : JsString) (selection : Selection)
  | select (selection : Selection)
  | focus (focused : Bool)
  | deliver (delivery : ServerDelivery)
  | resume
  | settle (env : Surroundings) (aborted : Bool)
  | render

namespace App

/-- A session that has just been opened and rendered. -/
def opened (controller : LocalDocumentController) (db : Database) (text : JsString)
    (requestVersion : ℕ) : App :=
  { controller := controller
    db := db
    composing := false
    compositionGate := .new
    text := text
    rendered := text
    selection := ⟨0, 0, .none⟩
    focused := false
    pendingSelection := none
    saveState := .saved
    requestVersion := requestVersion
    writeQueue := []
    ingestion := none }

def commits (s : App) : List PendingCommit := s.writeQueue.filterMap (·.commit?)

/-! ## Rendering -/

/-- The layout effect: a restore that is not for this text is dropped. -/
def layoutEffect (s : App) : App :=
  match s.pendingSelection with
  | none => s
  | some pending =>
    if pending.forText = s.text then
      { s with pendingSelection := none, selection := ⟨pending.start, pending.end_, .none⟩ }
    else { s with pendingSelection := none }

/-- The caret goes to the end when React assigns the value. -/
def caretAtEnd (text : JsString) : Selection := ⟨text.length, text.length, .none⟩

/-- A render when the text area holds `value`. -/
def renderOver (s : App) (value : JsString) : App :=
  if s.rendered = s.text then s
  else layoutEffect { s with
    rendered := s.text
    selection := if value = s.text then s.selection else caretAtEnd s.text }

def render (s : App) : App := s.renderOver s.rendered

/-! ## The text area -/

/-- `commitText`, up to the promise of `replaceText`. -/
def commitText (s : App) (nextText : JsString) (releases : Bool) : App :=
  { s with
    text := nextText
    saveState := .saving
    requestVersion := s.requestVersion + 1
    writeQueue := s.writeQueue ++ [.commit ⟨nextText, s.requestVersion + 1, releases⟩] }

/-- React renders within an event of the text area. -/
def onTextChange (s : App) (value : JsString) : App :=
  (if s.composing || s.compositionGate.isHolding then { s with text := value }
    else s.commitText value false).renderOver value

def onCompositionStart (s : App) : App :=
  { s with composing := true, compositionGate := s.compositionGate.begin }

def onCompositionEnd (s : App) (value : JsString) : App :=
  ({ s with composing := false }.commitText value true).renderOver value

/-! ## Ingestion -/

/-- A handler that does not wait for the gate, up to its next await. -/
def ingest (s : App) : ServerDelivery → App
  | .operations items confirmed =>
    { s with ingestion := some (.behind items confirmed s.writeQueue.length) }
  | .snapshot bootstrap items confirmed =>
    { s with
      writeQueue := s.writeQueue ++ [.install bootstrap items confirmed]
      ingestion := some .applying }

/-- The inbound chain calls one handler at a time. -/
def deliver (s : App) (delivery : ServerDelivery) : App :=
  if s.ingestion.isSome then s
  else if s.compositionGate.isHolding then
    match s.compositionGate.waitUntilLocalCommitComplete with
    | some promise => { s with ingestion := some (.held delivery promise) }
    | none => s.ingest delivery
  else s.ingest delivery

def captureAnchor (s : App) : Except JsError (Option SelectionAnchor) :=
  if s.focused then
    match s.controller.getSnapshot with
    | .error e => .error e
    | .ok snapshot => .ok (some (captureSelectionAnchor snapshot.visibleElements s.selection.start
        s.selection.end_ s.selection.direction))
  else .ok none

/-- `onServerOperations` after `whenIdle`. -/
def applyOperations (s : App) (items : List SequencedOperation) (confirmed : Int) : App :=
  match s.captureAnchor with
  | .error _ => { s with ingestion := none }
  | .ok anchor =>
    { s with
      writeQueue := s.writeQueue ++ [.ingest items confirmed anchor s.requestVersion]
      ingestion := some .applying }

/-- A handler goes on when what it awaits has settled. -/
def resume (s : App) : App :=
  match s.ingestion with
  | some (.held delivery promise) =>
    if s.compositionGate.commitComplete = some promise then s else s.ingest delivery
  | some (.behind items confirmed 0) => s.applyOperations items confirmed
  | _ => s

/-- What a settled job does to a handler that waits for the jobs before it. -/
def ingestionAfterJob : Option Ingestion → Option Ingestion
  | some (.behind items confirmed (jobs + 1)) => some (.behind items confirmed jobs)
  | ingestion => ingestion

/-! ## Continuations -/

/-- The continuation of `commitText`, and the release of the gate after it. -/
def commitSettled (s : App) (pending : PendingCommit)
    (outcome : Except JsError LocalDocumentSnapshot) : App :=
  let shown :=
    if pending.requestVersion ≠ s.requestVersion then s
    else match outcome with
      | .ok snapshot => { s with text := snapshot.text, saveState := .saved }
      | .error _ =>
        match s.controller.getSnapshot with
        | .ok snapshot => { s with text := snapshot.text, saveState := .error }
        | .error _ => s
  { shown with
    compositionGate := if pending.releases then s.compositionGate.release else s.compositionGate }

/-- `onServerOperations` after its job. -/
def operationsApplied (s : App) (anchor : Option SelectionAnchor) (editVersion : ℕ)
    (outcome : Except JsError LocalDocumentSnapshot) : App :=
  match outcome with
  | .error _ => { s with ingestion := none }
  | .ok snapshot =>
    if s.requestVersion ≠ editVersion then { s with ingestion := none }
    else
      { s with
        text := snapshot.text
        pendingSelection := (anchor.bind (resolveSelectionAnchor snapshot.visibleElements)).map
          fun restored => ⟨restored, snapshot.text⟩
        ingestion := none }

/-- `onSnapshotBootstrap` after its job. -/
def snapshotInstalled (s : App) (outcome : Except JsError LocalDocumentSnapshot) : App :=
  match outcome with
  | .error _ => { s with ingestion := none }
  | .ok snapshot => { s with text := snapshot.text, ingestion := none }

variable (segmentGraphemes : JsString → List JsString)

/-- The oldest job. -/
def runQueued (s : App) (env : Surroundings) (aborted : Bool) (job : Job) :
    LocalDocumentController × Database × Except JsError LocalDocumentSnapshot :=
  if aborted then (s.controller, s.db, .error abortError)
  else s.controller.runJob segmentGraphemes s.db env job

/-- The state in which the continuation of a job runs. -/
def afterJob (s : App) (ran : LocalDocumentController × Database × Except JsError LocalDocumentSnapshot)
    (writeQueue : List QueuedJob) : App :=
  { s with
    controller := ran.1
    db := ran.2.1
    writeQueue := writeQueue
    ingestion := ingestionAfterJob s.ingestion }

def continuation (s : App) (outcome : Except JsError LocalDocumentSnapshot) : QueuedJob → App
  | .commit pending => s.commitSettled pending outcome
  | .ingest _ _ anchor editVersion => s.operationsApplied anchor editVersion outcome
  | .install _ _ _ => s.snapshotInstalled outcome

def settle (s : App) (env : Surroundings) (aborted : Bool) : App :=
  match s.writeQueue with
  | [] => s
  | queued :: writeQueue =>
    let ran := s.runQueued segmentGraphemes env aborted queued.job
    (s.afterJob ran writeQueue).continuation ran.2.2 queued

def step (s : App) : AppEvent → App
  | .textChange value selection => { s with selection := selection }.onTextChange value
  | .compositionStart => s.onCompositionStart
  | .compositionEnd value selection => { s with selection := selection }.onCompositionEnd value
  | .select selection => { s with selection := selection }
  | .focus focused => { s with focused := focused }
  | .deliver delivery => s.deliver delivery
  | .resume => s.resume
  | .settle env aborted => s.settle segmentGraphemes env aborted
  | .render => s.render

/-! ## What a step leaves alone -/

section

variable {segmentGraphemes} {s : App}

theorem layoutEffect_frame (s : App) : ∃ selection pendingSelection,
    s.layoutEffect = { s with selection := selection, pendingSelection := pendingSelection } := by
  unfold layoutEffect
  split
  · exact ⟨_, _, rfl⟩
  · split
    · exact ⟨_, _, rfl⟩
    · exact ⟨_, _, rfl⟩

/-- A render changes what is rendered, and the caret. -/
theorem renderOver_frame (s : App) (value : JsString) :
    ∃ rendered selection pendingSelection, s.renderOver value = { s with
      rendered := rendered
      selection := selection
      pendingSelection := pendingSelection } := by
  unfold renderOver
  split
  · exact ⟨_, _, _, rfl⟩
  · obtain ⟨selection, pendingSelection, heq⟩ := layoutEffect_frame { s with
      rendered := s.text
      selection := if value = s.text then s.selection else caretAtEnd s.text }
    exact ⟨_, _, _, heq⟩

/-- A delivery enters the gate, or the write queue with a job that is no commit. -/
theorem ingest_frame (s : App) (delivery : ServerDelivery) : ∃ added ingestion,
    s.ingest delivery = { s with writeQueue := s.writeQueue ++ added, ingestion := ingestion } ∧
      ∀ queued ∈ added, ∃ bootstrap items confirmed, queued = .install bootstrap items confirmed := by
  cases delivery with
  | operations items confirmed => exact ⟨[], _, by rw [List.append_nil]; rfl, fun _ h => by cases h⟩
  | snapshot bootstrap items confirmed =>
    exact ⟨_, _, rfl, fun _ h => ⟨_, _, _, List.mem_singleton.1 h⟩⟩

theorem deliver_frame (s : App) (delivery : ServerDelivery) : ∃ added ingestion,
    s.deliver delivery = { s with writeQueue := s.writeQueue ++ added, ingestion := ingestion } ∧
      ∀ queued ∈ added, ∃ bootstrap items confirmed, queued = .install bootstrap items confirmed := by
  have hsame : ∀ ingestion, ∃ added ingestion', { s with ingestion := ingestion } =
      { s with writeQueue := s.writeQueue ++ added, ingestion := ingestion' } ∧
        ∀ queued ∈ added, ∃ bootstrap items confirmed,
          queued = .install bootstrap items confirmed :=
    fun ingestion => ⟨[], ingestion, by rw [List.append_nil], fun _ h => by cases h⟩
  unfold deliver
  split
  · exact hsame s.ingestion
  · split
    · split
      · exact hsame _
      · exact s.ingest_frame delivery
    · exact s.ingest_frame delivery

/-- A handler that goes on puts at most one job on the queue, with the version of now. -/
theorem resume_frame (s : App) : ∃ added ingestion,
    s.resume = { s with writeQueue := s.writeQueue ++ added, ingestion := ingestion } ∧
      ∀ queued ∈ added, (∃ bootstrap items confirmed, queued = .install bootstrap items confirmed) ∨
        ∃ items confirmed anchor, queued = .ingest items confirmed anchor s.requestVersion := by
  have hsame : ∀ ingestion, ∃ added ingestion', { s with ingestion := ingestion } =
      { s with writeQueue := s.writeQueue ++ added, ingestion := ingestion' } ∧
        ∀ queued ∈ added, (∃ bootstrap items confirmed,
          queued = .install bootstrap items confirmed) ∨
          ∃ items confirmed anchor, queued = .ingest items confirmed anchor s.requestVersion :=
    fun ingestion => ⟨[], ingestion, by rw [List.append_nil], fun _ h => by cases h⟩
  unfold resume
  split
  · split
    · exact hsame s.ingestion
    · obtain ⟨added, ingestion, heq, hadded⟩ := s.ingest_frame _
      exact ⟨added, ingestion, heq, fun queued h => Or.inl (hadded queued h)⟩
  · unfold applyOperations
    split
    · exact hsame none
    · exact ⟨_, _, rfl, fun _ h => Or.inr ⟨_, _, _, List.mem_singleton.1 h⟩⟩
  · exact hsame s.ingestion

theorem commits_append {added : List QueuedJob}
    (h : ∀ queued ∈ added, queued.commit? = none) :
    (s.writeQueue ++ added).filterMap (·.commit?) = s.commits := by
  unfold commits
  rw [List.filterMap_append, List.filterMap_eq_nil_iff.2 h, List.append_nil]

/-! ## The gate, as in a session without remote operations -/

/-- The part of the session that the gate depends on. -/
def editor (s : App) : Editor :=
  { controller := s.controller
    db := s.db
    composing := s.composing
    gate := s.compositionGate
    text := s.text
    requestVersion := s.requestVersion
    commits := s.commits }

/-- The event as the gate sees it. -/
def editorEvent (s : App) : AppEvent → Option EditorEvent
  | .textChange value _ => some (.textChange value)
  | .compositionStart => some .compositionStart
  | .compositionEnd value _ => some (.compositionEnd value)
  | .settle env aborted => (s.writeQueue.head?.bind (·.commit?)).map fun _ => .settle env aborted
  | _ => none

/-- Two sessions whose gates do the same. -/
structure SameGate (a b : Editor) : Prop where
  composing : a.composing = b.composing
  gate : a.gate = b.gate
  requestVersion : a.requestVersion = b.requestVersion
  commits : a.commits = b.commits

namespace SameGate

variable {a b : Editor} (h : SameGate a b)
include h

theorem holdsForOne : a.HoldsForOne ↔ b.HoldsForOne := by
  unfold Editor.HoldsForOne Editor.Unsettled
  rw [h.composing, h.gate, h.commits]

theorem excludes : a.Excludes ↔ b.Excludes := by
  rw [Editor.excludes_iff_holding, Editor.excludes_iff_holding]
  unfold Editor.Unsettled
  rw [h.composing, h.gate, h.commits]

theorem trans {c : Editor} (h' : SameGate b c) : SameGate a c :=
  ⟨h.composing.trans h'.composing, h.gate.trans h'.gate,
    h.requestVersion.trans h'.requestVersion, h.commits.trans h'.commits⟩

end SameGate

theorem renderOver_sameGate (s : App) (value : JsString) :
    SameGate (s.renderOver value).editor s.editor := by
  obtain ⟨rendered, selection, pendingSelection, heq⟩ := s.renderOver_frame value
  rw [heq]
  exact ⟨rfl, rfl, rfl, rfl⟩

theorem commits_commitText (s : App) (nextText : JsString) (releases : Bool) :
    (s.commitText nextText releases).commits =
      s.commits ++ [⟨nextText, s.requestVersion + 1, releases⟩] := by
  unfold commits commitText
  rw [List.filterMap_append]
  rfl

theorem commitText_sameGate (s : App) (nextText : JsString) (releases : Bool) :
    SameGate (s.commitText nextText releases).editor (s.editor.commitText nextText releases) :=
  ⟨rfl, rfl, rfl, s.commits_commitText nextText releases⟩

/-- What the continuation of a job leaves alone. -/
theorem continuation_frame (s : App) (outcome : Except JsError LocalDocumentSnapshot)
    (queued : QueuedJob) : ∃ text pendingSelection saveState ingestion,
      s.continuation outcome queued = { s with
        text := text
        pendingSelection := pendingSelection
        saveState := saveState
        ingestion := ingestion
        compositionGate :=
          if queued.releases then s.compositionGate.release else s.compositionGate } := by
  cases queued with
  | commit pending =>
    show ∃ _ _ _ _, s.commitSettled pending outcome = _
    unfold commitSettled
    split
    · exact ⟨_, _, _, _, rfl⟩
    · cases outcome with
      | ok snapshot => exact ⟨_, _, _, _, rfl⟩
      | error e =>
        simp only
        split
        · exact ⟨_, _, _, _, rfl⟩
        · exact ⟨_, _, _, _, rfl⟩
  | ingest items confirmed anchor editVersion =>
    show ∃ _ _ _ _, s.operationsApplied anchor editVersion outcome = _
    unfold operationsApplied
    split
    · exact ⟨_, _, _, _, rfl⟩
    · split
      · exact ⟨_, _, _, _, rfl⟩
      · exact ⟨_, _, _, _, rfl⟩
  | install bootstrap items confirmed =>
    show ∃ _ _ _ _, s.snapshotInstalled outcome = _
    unfold snapshotInstalled
    split
    · exact ⟨_, _, _, _, rfl⟩
    · exact ⟨_, _, _, _, rfl⟩

/-- Only a commit touches the save state. -/
theorem saveState_continuation (s : App) (outcome : Except JsError LocalDocumentSnapshot)
    {queued : QueuedJob} (h : queued.commit? = none) :
    (s.continuation outcome queued).saveState = s.saveState := by
  cases queued with
  | commit pending => cases h
  | ingest items confirmed anchor editVersion =>
    show (s.operationsApplied anchor editVersion outcome).saveState = _
    unfold operationsApplied
    split
    · rfl
    · split <;> rfl
  | install bootstrap items confirmed =>
    show (s.snapshotInstalled outcome).saveState = _
    unfold snapshotInstalled
    split <;> rfl

theorem settle_cons {queued : QueuedJob} {writeQueue : List QueuedJob}
    (h : s.writeQueue = queued :: writeQueue) (env : Surroundings) (aborted : Bool) :
    s.settle segmentGraphemes env aborted =
      (s.afterJob (s.runQueued segmentGraphemes env aborted queued.job) writeQueue).continuation
        (s.runQueued segmentGraphemes env aborted queued.job).2.2 queued := by
  unfold settle
  rw [h]

/-- The handler of a server job is done with it. -/
theorem ingestion_continuation (s : App) (outcome : Except JsError LocalDocumentSnapshot)
    (queued : QueuedJob) : (s.continuation outcome queued).ingestion =
      if queued.commit?.isNone then none else s.ingestion := by
  cases queued with
  | commit pending =>
    show (s.commitSettled pending outcome).ingestion = s.ingestion
    unfold commitSettled
    split
    · rfl
    · cases outcome with
      | ok snapshot => rfl
      | error e =>
        simp only
        split <;> rfl
  | ingest items confirmed anchor editVersion =>
    show (s.operationsApplied anchor editVersion outcome).ingestion = none
    unfold operationsApplied
    split
    · rfl
    · split <;> rfl
  | install bootstrap items confirmed =>
    show (s.snapshotInstalled outcome).ingestion = none
    unfold snapshotInstalled
    split <;> rfl

/-- What an event that settles a job leaves of the queue, the handler and the gate. -/
theorem settle_spec {queued : QueuedJob} {writeQueue : List QueuedJob}
    (hq : s.writeQueue = queued :: writeQueue) (env : Surroundings) (aborted : Bool) :
    (s.settle segmentGraphemes env aborted).writeQueue = writeQueue ∧
      (s.settle segmentGraphemes env aborted).ingestion =
        (if queued.commit?.isNone then none else ingestionAfterJob s.ingestion) ∧
      (s.settle segmentGraphemes env aborted).compositionGate =
        if queued.releases then s.compositionGate.release else s.compositionGate := by
  rw [settle_cons hq]
  refine ⟨?_, ingestion_continuation _ _ _, ?_⟩
  all_goals
    obtain ⟨text, pendingSelection, saveState, ingestion, heq⟩ := continuation_frame
      (s.afterJob (s.runQueued segmentGraphemes env aborted queued.job) writeQueue)
      (s.runQueued segmentGraphemes env aborted queued.job).2.2 queued
    rw [heq]
    rfl

theorem commits_cons {queued : QueuedJob} {writeQueue : List QueuedJob}
    (h : s.writeQueue = queued :: writeQueue) :
    s.commits = queued.commit?.toList ++ writeQueue.filterMap (·.commit?) := by
  unfold commits
  rw [h, List.filterMap_cons]
  cases queued.commit? <;> rfl

/-- The gate does what it does without the server. -/
theorem step_editor (s : App) (e : AppEvent) : SameGate (s.step segmentGraphemes e).editor
    ((s.editorEvent e).elim s.editor (s.editor.step segmentGraphemes)) := by
  cases e with
  | textChange value selection =>
    show SameGate ({ s with selection := selection }.onTextChange value).editor
      (s.editor.onTextChange value)
    unfold onTextChange Editor.onTextChange
    refine (renderOver_sameGate _ value).trans ?_
    show SameGate _ (if s.composing || s.compositionGate.isHolding then _ else _)
    cases s.composing || s.compositionGate.isHolding with
    | true => exact ⟨rfl, rfl, rfl, rfl⟩
    | false => exact commitText_sameGate { s with selection := selection } value false
  | compositionStart => exact ⟨rfl, rfl, rfl, rfl⟩
  | compositionEnd value selection =>
    exact (renderOver_sameGate _ value).trans
      (commitText_sameGate { s with selection := selection, composing := false } value true)
  | select selection => exact ⟨rfl, rfl, rfl, rfl⟩
  | focus focused => exact ⟨rfl, rfl, rfl, rfl⟩
  | deliver delivery =>
    obtain ⟨added, ingestion, heq, hadded⟩ := s.deliver_frame delivery
    show SameGate (s.deliver delivery).editor s.editor
    rw [heq]
    refine ⟨rfl, rfl, rfl, commits_append fun queued h => ?_⟩
    obtain ⟨bootstrap, items, confirmed, rfl⟩ := hadded queued h
    rfl
  | resume =>
    obtain ⟨added, ingestion, heq, hadded⟩ := s.resume_frame
    show SameGate s.resume.editor s.editor
    rw [heq]
    refine ⟨rfl, rfl, rfl, commits_append fun queued h => ?_⟩
    rcases hadded queued h with ⟨bootstrap, items, confirmed, rfl⟩ | ⟨items, confirmed, anchor, rfl⟩
    · rfl
    · rfl
  | settle env aborted =>
    show SameGate (s.settle segmentGraphemes env aborted).editor _
    unfold editorEvent
    cases hq : s.writeQueue with
    | nil =>
      unfold settle
      rw [hq]
      exact ⟨rfl, rfl, rfl, rfl⟩
    | cons queued writeQueue =>
      have hcommits := commits_cons hq
      rw [settle_cons hq]
      generalize s.runQueued segmentGraphemes env aborted queued.job = ran
      obtain ⟨text, pendingSelection, saveState, ingestion, heq⟩ :=
        (s.afterJob ran writeQueue).continuation_frame ran.2.2 queued
      rw [heq]
      cases queued with
      | commit pending =>
        have hcommits : s.editor.commits = pending :: writeQueue.filterMap (·.commit?) := hcommits
        obtain ⟨hcomposing, hrest, hgate⟩ :=
          @Editor.settleCommit_spec segmentGraphemes s.editor env aborted pending _ hcommits
        refine ⟨hcomposing.symm, hgate.symm, ?_, hrest.symm⟩
        show s.requestVersion = (s.editor.settleCommit segmentGraphemes env aborted).requestVersion
        unfold Editor.settleCommit
        split <;> rfl
      | ingest items confirmed anchor editVersion => exact ⟨rfl, rfl, rfl, hcommits.symm⟩
      | install bootstrap items confirmed => exact ⟨rfl, rfl, rfl, hcommits.symm⟩
  | render => exact s.renderOver_sameGate s.rendered

/-- The gate holds only for a composition. -/
theorem holdsForOne_step (e : AppEvent) (h : s.editor.HoldsForOne) :
    (s.step segmentGraphemes e).editor.HoldsForOne := by
  rw [(s.step_editor e).holdsForOne]
  cases s.editorEvent e with
  | none => exact h
  | some e' => exact Editor.HoldsForOne.step s.editor e' h

end

end App

end LocalFirst
