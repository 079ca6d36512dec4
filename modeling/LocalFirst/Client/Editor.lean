import LocalFirst.Client.Controller
import LocalFirst.Lib.Runs

/-!
# The editor of one session

Model of `apps/web/src/editor/composition-gate.ts` and of the editing handlers of
`apps/web/src/App.tsx`, in one session that nothing remote reaches.

* `CompositionGate` — what remote ingestion waits for.
* `Editor.onTextChange`, `onCompositionStart`, `onCompositionEnd` — the handlers of the text area.
* `Editor.settleCommit` — the write queue finishes a `replaceText`, and the continuations of
  `commitText` and `onCompositionEnd` run.
* `Editor.excludes_iff` — when the gate holds through every composition.
-/

set_option autoImplicit false

namespace LocalFirst

/-! ## The gate -/

/-- `commitComplete` is the promise that the gate waits for, by its number; `resolveCommit` settles
this promise and is set and cleared with it. -/
structure CompositionGate where
  commitComplete : Option ℕ
  created : ℕ

namespace CompositionGate

def new : CompositionGate := ⟨none, 0⟩

def isHolding (gate : CompositionGate) : Bool := gate.commitComplete.isSome

def begin (gate : CompositionGate) : CompositionGate :=
  if gate.commitComplete.isSome then gate else ⟨some gate.created, gate.created + 1⟩

/-- The promise that a caller awaits, if any. -/
def waitUntilLocalCommitComplete (gate : CompositionGate) : Option ℕ := gate.commitComplete

def release (gate : CompositionGate) : CompositionGate := { gate with commitComplete := none }

@[simp] theorem isHolding_new : new.isHolding = false := rfl

@[simp] theorem isHolding_begin (gate : CompositionGate) : gate.begin.isHolding = true := by
  unfold begin isHolding
  split
  · assumption
  · rfl

@[simp] theorem isHolding_release (gate : CompositionGate) : gate.release.isHolding = false := rfl

end CompositionGate

/-! ## The handlers -/

/-- A `replaceText` on the write queue, with the version of its request and whether the gate is
released after it. -/
structure PendingCommit where
  nextText : JsString
  requestVersion : ℕ
  releases : Bool
  deriving DecidableEq

/-- `composing` is `composingRef`, `text` what the text area shows, and `commits` the write queue. -/
structure Editor where
  controller : LocalDocumentController
  db : Database
  composing : Bool
  gate : CompositionGate
  text : JsString
  requestVersion : ℕ
  commits : List PendingCommit

/-- An event of the text area, or the settling of the oldest commit, whose transaction may abort. -/
inductive EditorEvent where
  | textChange (value : JsString)
  | compositionStart
  | compositionEnd (value : JsString)
  | settle (env : Surroundings) (aborted : Bool)

/-- The browser aborts a transaction; the text is its own. -/
def abortError : JsError := ⟨.error, []⟩

namespace Editor

/-- A session that has just been opened. -/
def opened (controller : LocalDocumentController) (db : Database) (text : JsString)
    (requestVersion : ℕ) : Editor :=
  { controller := controller
    db := db
    composing := false
    gate := .new
    text := text
    requestVersion := requestVersion
    commits := [] }

/-- `commitText`, up to the promise of `replaceText`. -/
def commitText (s : Editor) (nextText : JsString) (releases : Bool) : Editor :=
  { s with
    text := nextText
    requestVersion := s.requestVersion + 1
    commits := s.commits ++ [⟨nextText, s.requestVersion + 1, releases⟩] }

def onTextChange (s : Editor) (value : JsString) : Editor :=
  if s.composing || s.gate.isHolding then { s with text := value } else s.commitText value false

def onCompositionStart (s : Editor) : Editor :=
  { s with composing := true, gate := s.gate.begin }

def onCompositionEnd (s : Editor) (value : JsString) : Editor :=
  { s with composing := false }.commitText value true

/-- What `onServerOperations` and `onSnapshotBootstrap` await before they go on. -/
def ingestionAwaits (s : Editor) : Option ℕ :=
  if s.gate.isHolding then s.gate.waitUntilLocalCommitComplete else none

variable (segmentGraphemes : JsString → List JsString)

/-- The job of a commit. -/
def replaceText (s : Editor) (env : Surroundings) (aborted : Bool) (nextText : JsString) :
    LocalDocumentController × Database × Except JsError LocalEditResult :=
  if aborted then (s.controller, s.db, .error abortError)
  else s.controller.replaceTextNow segmentGraphemes s.db env nextText

/-- What the continuation of `commitText` shows when its request is the latest. -/
def shownAfter (s : Editor) (controller : LocalDocumentController) :
    Except JsError LocalEditResult → JsString
  | .ok result => result.snapshot.text
  | .error _ =>
    match controller.getSnapshot with
    | .ok snapshot => snapshot.text
    | .error _ => s.text

def settleCommit (s : Editor) (env : Surroundings) (aborted : Bool) : Editor :=
  match s.commits with
  | [] => s
  | commit :: commits =>
    let job := s.replaceText segmentGraphemes env aborted commit.nextText
    { s with
      controller := job.1
      db := job.2.1
      text := if commit.requestVersion = s.requestVersion then s.shownAfter job.1 job.2.2 else s.text
      gate := if commit.releases then s.gate.release else s.gate
      commits := commits }

def step (s : Editor) : EditorEvent → Editor
  | .textChange value => s.onTextChange value
  | .compositionStart => s.onCompositionStart
  | .compositionEnd value => s.onCompositionEnd value
  | .settle env aborted => s.settleCommit segmentGraphemes env aborted

/-! ## Holding through compositions -/

/-- The commit of an ended composition has not settled. -/
def Unsettled (s : Editor) : Prop := ∃ commit ∈ s.commits, commit.releases = true

/-- Whenever a composition is active or the commit of an ended one has not settled, the gate
holds and remote ingestion waits. -/
def Excludes (s : Editor) : Prop := s.composing = true ∨ s.Unsettled →
  s.gate.isHolding = true ∧ s.ingestionAwaits.isSome = true

/-- The event opens the gate too early: a commit settles while another composition is active or
waits for its own commit; or a composition ends that never began. -/
def OpensEarly (s : Editor) : EditorEvent → Prop
  | .settle _ _ => ∃ commit commits, s.commits = commit :: commits ∧ commit.releases = true ∧
      (s.composing = true ∨ ∃ other ∈ commits, other.releases = true)
  | .compositionEnd _ => s.composing = false ∧ ¬ s.Unsettled
  | _ => False

/-- The gate holds only for a composition. -/
def HoldsForOne (s : Editor) : Prop := s.gate.isHolding = true → s.composing = true ∨ s.Unsettled

theorem isSome_ingestionAwaits (s : Editor) : s.ingestionAwaits.isSome = s.gate.isHolding := by
  unfold ingestionAwaits CompositionGate.waitUntilLocalCommitComplete CompositionGate.isHolding
  split
  · rfl
  · rename_i h
    simpa using h

theorem excludes_iff_holding {s : Editor} :
    s.Excludes ↔ (s.composing = true ∨ s.Unsettled → s.gate.isHolding = true) := by
  unfold Excludes
  rw [isSome_ingestionAwaits, and_self]

section

variable {s : Editor}

@[simp] theorem composing_commitText (nextText : JsString) (releases : Bool) :
    (s.commitText nextText releases).composing = s.composing := rfl

@[simp] theorem gate_commitText (nextText : JsString) (releases : Bool) :
    (s.commitText nextText releases).gate = s.gate := rfl

theorem unsettled_commitText {nextText : JsString} {releases : Bool} :
    (s.commitText nextText releases).Unsettled ↔ s.Unsettled ∨ releases = true := by
  unfold Unsettled commitText
  simp only [List.mem_append, List.mem_singleton]
  constructor
  · rintro ⟨commit, hc | rfl, hreleases⟩
    · exact Or.inl ⟨commit, hc, hreleases⟩
    · exact Or.inr hreleases
  · rintro (⟨commit, hc, hreleases⟩ | hreleases)
    · exact ⟨commit, Or.inl hc, hreleases⟩
    · exact ⟨_, Or.inr rfl, hreleases⟩

variable {segmentGraphemes}

/-- The oldest commit settles. -/
theorem settleCommit_spec (env : Surroundings) (aborted : Bool) {commit : PendingCommit}
    {commits : List PendingCommit} (h : s.commits = commit :: commits) :
    (s.settleCommit segmentGraphemes env aborted).composing = s.composing ∧
      (s.settleCommit segmentGraphemes env aborted).commits = commits ∧
      (s.settleCommit segmentGraphemes env aborted).gate =
        if commit.releases then s.gate.release else s.gate := by
  unfold settleCommit
  rw [h]
  exact ⟨rfl, rfl, rfl⟩

theorem settleCommit_nil (env : Surroundings) (aborted : Bool) (h : s.commits = []) :
    s.settleCommit segmentGraphemes env aborted = s := by
  unfold settleCommit
  rw [h]

theorem unsettled_cons {commit : PendingCommit} {commits : List PendingCommit}
    (h : s.commits = commit :: commits) :
    s.Unsettled ↔ commit.releases = true ∨ ∃ other ∈ commits, other.releases = true := by
  unfold Unsettled
  rw [h]
  simp only [List.mem_cons, exists_eq_or_imp]

theorem HoldsForOne.step (s : Editor) (e : EditorEvent) (h : s.HoldsForOne) :
    (s.step segmentGraphemes e).HoldsForOne := by
  cases e with
  | textChange value =>
    show (s.onTextChange value).HoldsForOne
    unfold onTextChange
    split
    · exact h
    · intro hholds
      exact (h hholds).imp_right fun hu => unsettled_commitText.2 (Or.inl hu)
  | compositionStart => exact fun _ => Or.inl rfl
  | compositionEnd value => exact fun _ => Or.inr (unsettled_commitText.2 (Or.inr rfl))
  | settle env aborted =>
    show (s.settleCommit segmentGraphemes env aborted).HoldsForOne
    cases hcs : s.commits with
    | nil => rwa [settleCommit_nil env aborted hcs]
    | cons commit commits =>
      obtain ⟨hcomposing, hcommits, hgate⟩ :=
        @settleCommit_spec segmentGraphemes s env aborted commit commits hcs
      unfold HoldsForOne
      rw [hcomposing, hgate, Unsettled, hcommits]
      cases hreleases : commit.releases with
      | true => simp
      | false =>
        intro hholds
        have hfor := h (by simpa using hholds)
        rw [unsettled_cons hcs, hreleases] at hfor
        simpa using hfor

/-- A step keeps the gate shut through every composition unless it opens it early. -/
theorem Excludes.step (e : EditorEvent) (h : s.Excludes) (hstep : ¬ s.OpensEarly e) :
    (s.step segmentGraphemes e).Excludes := by
  rw [excludes_iff_holding] at h ⊢
  cases e with
  | textChange value =>
    show (s.onTextChange value).composing = true ∨ (s.onTextChange value).Unsettled →
      (s.onTextChange value).gate.isHolding = true
    unfold onTextChange
    split
    · exact h
    · rintro (hcomposing | hunsettled)
      · exact h (Or.inl hcomposing)
      · exact h (Or.inr ((unsettled_commitText.1 hunsettled).resolve_right (by decide)))
  | compositionStart => exact fun _ => s.gate.isHolding_begin
  | compositionEnd value =>
    intro _
    show s.gate.isHolding = true
    apply h
    by_contra hnone
    rw [not_or, Bool.not_eq_true] at hnone
    exact hstep hnone
  | settle env aborted =>
    show _ → (s.settleCommit segmentGraphemes env aborted).gate.isHolding = true
    cases hcs : s.commits with
    | nil =>
      show (s.settleCommit segmentGraphemes env aborted).composing = true ∨
        (s.settleCommit segmentGraphemes env aborted).Unsettled → _
      rwa [settleCommit_nil env aborted hcs]
    | cons commit commits =>
      obtain ⟨hcomposing, hcommits, hgate⟩ :=
        @settleCommit_spec segmentGraphemes s env aborted commit commits hcs
      show (s.settleCommit segmentGraphemes env aborted).composing = true ∨
        (s.settleCommit segmentGraphemes env aborted).Unsettled → _
      rw [hcomposing, hgate, Unsettled, hcommits]
      intro hfor
      cases hreleases : commit.releases with
      | true => exact absurd ⟨commit, commits, hcs, hreleases, hfor⟩ hstep
      | false =>
        refine h (hfor.imp_right fun hother => ?_)
        exact (unsettled_cons hcs).2 (Or.inr hother)

/-- And a step that opens it early leaves it open in a composition. -/
theorem OpensEarly.breaks {e : EditorEvent} (h : s.OpensEarly e) (hfor : s.HoldsForOne) :
    ¬ (s.step segmentGraphemes e).Excludes := by
  rw [excludes_iff_holding]
  cases e with
  | textChange value => exact h.elim
  | compositionStart => exact h.elim
  | compositionEnd value =>
    intro hexcludes
    obtain ⟨hcomposing, hunsettled⟩ := h
    have hholds : s.gate.isHolding = true :=
      hexcludes (Or.inr (unsettled_commitText.2 (Or.inr rfl)))
    rcases hfor hholds with hc | hu
    · rw [hcomposing] at hc
      cases hc
    · exact hunsettled hu
  | settle env aborted =>
    obtain ⟨commit, commits, hcs, hreleases, hother⟩ := h
    obtain ⟨hcomposing, hcommits, hgate⟩ :=
      @settleCommit_spec segmentGraphemes s env aborted commit commits hcs
    intro hexcludes
    have hholds : (s.settleCommit segmentGraphemes env aborted).gate.isHolding = true := by
      apply hexcludes
      show (s.settleCommit segmentGraphemes env aborted).composing = true ∨
        (s.settleCommit segmentGraphemes env aborted).Unsettled
      rw [hcomposing, Unsettled, hcommits]
      exact hother
    rw [hgate, hreleases] at hholds
    cases hholds

end

/-- **When the gate holds through every composition.**  In every run of a session, the gate holds
whenever a composition is active or the commit of an ended one has not settled, exactly if no such
commit settles while another composition is active or waits for its own commit, and no composition
ends that never began. -/
theorem excludes_iff (segmentGraphemes : JsString → List JsString)
    (controller : LocalDocumentController) (db : Database) (text : JsString) (requestVersion : ℕ)
    (events : List EditorEvent) :
    Runs.Always (step segmentGraphemes) Excludes (opened controller db text requestVersion) events ↔
      Runs.Never (step segmentGraphemes) OpensEarly (opened controller db text requestVersion)
        events := by
  refine Runs.always_iff_never (I := HoldsForOne) (fun s e => HoldsForOne.step s e)
    (fun s e _ h hstep => h.step e hstep) (fun s e hfor _ h => h.breaks hfor) ?_ ?_
  · intro hholds
    cases hholds
  · rintro (hcomposing | ⟨commit, hcommit, -⟩)
    · cases hcomposing
    · cases hcommit

/-- A second composition begins before the commit of the first has settled; this commit then opens
the gate, and remote ingestion waits for nothing while the second composition is active. -/
theorem gate_opens_in_composition :
    let env : Surroundings := ⟨js "now", 0, js "A", true⟩
    ∃ c db, LocalDocumentController.create .empty ⟨some (js "d"), none, none⟩ env = (.ok c, db) ∧
      let s := Runs.run (step (·.map ([·]))) (opened c db [] 0)
        [.compositionStart, .compositionEnd (js "你"), .compositionStart, .settle env false]
      s.composing = true ∧ s.gate.isHolding = false ∧ s.ingestionAwaits = none ∧ ¬ s.Excludes := by
  intro env
  have hcreate : LocalDocumentController.create .empty ⟨some (js "d"), none, none⟩ env =
      (.ok _, _) := rfl
  refine ⟨_, _, hcreate, rfl, rfl, rfl, fun h => ?_⟩
  cases (h (Or.inl rfl)).1

end Editor

end LocalFirst
