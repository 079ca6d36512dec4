import LocalFirst.Client.DocumentRows
import LocalFirst.Client.Sessions

/-!
# The work of the sessions

What one input does to the controllers, the write queues and the tables, and for whom work is taken
on.

* `Workspace.step_works` — a session is opened, a job settles, the current session takes on a job, or
  nothing changes that a document is read from.
* `Workspace.work_stays` — work is taken on for the session that is shown, which is the only one that
  is connected.
-/

set_option autoImplicit false

namespace LocalFirst

/-- A session without its gate and its flags. -/
structure SessionWork where
  documentId : JsString
  controller : LocalDocumentController
  writeQueue : List SessionJob

def ActiveSession.work (s : ActiveSession) : SessionWork := ⟨s.documentId, s.controller, s.writeQueue⟩

@[simp] theorem ActiveSession.work_writeQueue (s : ActiveSession) :
    s.work.writeQueue = s.writeQueue := rfl

@[simp] theorem ActiveSession.work_documentId (s : ActiveSession) :
    s.work.documentId = s.documentId := rfl

@[simp] theorem ActiveSession.work_controller (s : ActiveSession) :
    s.work.controller = s.controller := rfl

def SessionWork.add (queued : SessionJob) (work : SessionWork) : SessionWork :=
  { work with writeQueue := work.writeQueue ++ [queued] }

/-- What a job of a session does to its controller and to the tables. -/
def SessionWork.ran (segmentGraphemes : JsString → List JsString) (work : SessionWork)
    (db : Database) (env : Surroundings) (aborted : Bool) (job : Job) :
    LocalDocumentController × Database × Except JsError LocalDocumentSnapshot :=
  if aborted then (work.controller, db, .error abortError)
  else work.controller.runJob segmentGraphemes db env job

namespace Workspace

variable {segmentGraphemes : JsString → List JsString} {w w' : Workspace} {i j : ℕ}
  {s s' : ActiveSession} {opening : Opening}

def works (w : Workspace) : List SessionWork := w.sessions.map (·.work)

theorem works_get? (hs : w.sessions[i]? = some s) : w.works[i]? = some s.work := by
  rw [works, List.getElem?_map, hs]
  rfl

theorem works_get?_iff {work : SessionWork} :
    w.works[i]? = some work ↔ ∃ s, w.sessions[i]? = some s ∧ s.work = work := by
  rw [works, List.getElem?_map, Option.map_eq_some_iff]

theorem works_update {f : ActiveSession → ActiveSession} {g : SessionWork → SessionWork}
    (h : ∀ s, w.sessions[i]? = some s → (f s).work = g s.work) :
    (w.update i f).works = w.works.modify i g := by
  refine List.ext_getElem? fun j => ?_
  unfold works
  rw [List.getElem?_map, List.getElem?_modify, List.getElem?_map, getElem?_update]
  split
  · rename_i hij
    subst hij
    cases hs : w.sessions[i]? with
    | none => rfl
    | some s => exact congrArg some (h s hs)
  · cases w.sessions[j]? <;> rfl

theorem works_update_same {f : ActiveSession → ActiveSession} (h : ∀ s, (f s).work = s.work) :
    (w.update i f).works = w.works := by
  rw [works_update (g := id) fun s _ => h s, List.modify_id]

/-! ## What leaves the work alone -/

/-- Nothing is done for any session. -/
structure Still (w w' : Workspace) : Prop where
  works : w'.works = w.works
  db : w'.db = w.db

theorem Still.refl (w : Workspace) : Still w w := ⟨rfl, rfl⟩

theorem Still.trans {w'' : Workspace} (h : Still w w') (h' : Still w' w'') : Still w w'' :=
  ⟨h'.works.trans h.works, h'.db.trans h.db⟩

/-- Nothing changes that a document is read from. -/
structure Rests (w w' : Workspace) : Prop where
  works : w'.works = w.works
  rows : ∀ d, w.db.SameDocument w'.db d

theorem Still.rests (h : Still w w') : Rests w w' :=
  ⟨h.works, fun d => by rw [h.db]; exact .refl _ d⟩

theorem Rests.still {w'' : Workspace} (h : Rests w w') (h' : Still w' w'') : Rests w w'' :=
  ⟨h'.works.trans h.works, fun d => by rw [h'.db]; exact h.rows d⟩

theorem still_leave (w : Workspace) (i : ℕ) : Still w (w.leave i) :=
  ⟨works_update_same (w := { w with session := none }) fun _ => rfl, rfl⟩

theorem still_teardownSession (w : Workspace) (awaited : Bool) :
    Still w (w.teardownSession awaited) := by
  unfold Workspace.teardownSession
  split
  · exact .refl w
  · split
    · exact ⟨rfl, rfl⟩
    · exact (still_leave w _).trans ⟨rfl, rfl⟩

theorem still_release (w : Workspace) (i : ℕ) : Still w (w.release i) := by
  have hreleased : Still w (w.update i fun s =>
      { s with compositionGate := s.compositionGate.release }) :=
    ⟨works_update_same fun _ => rfl, rfl⟩
  unfold Workspace.release
  simp only
  split
  · exact (hreleased.trans (still_leave _ i)).trans ⟨rfl, rfl⟩
  · exact hreleased

theorem still_closed (w : Workspace) (k : ℕ) : Still w (w.closed k) := by
  unfold Workspace.closed
  split
  · exact .refl w
  · split
    · exact .refl w
    · unfold Workspace.close
      refine Still.trans ?_ (still_release _ _)
      exact ⟨works_update_same (w := { w with teardowns := _ }) fun _ => rfl, rfl⟩

theorem still_transition (w : Workspace) (e : TransitionEvent Unit Unit) :
    Still w (w.transition e) := by
  unfold Workspace.transition
  simp only
  split
  · split
    · unfold Workspace.openSession
      split
      · refine Still.trans ?_ (still_teardownSession _ true)
        exact ⟨rfl, rfl⟩
      · exact ⟨rfl, rfl⟩
    · exact ⟨rfl, rfl⟩
  · exact ⟨rfl, rfl⟩

theorem still_openFailed (w : Workspace) (opening : Opening) : Still w (w.openFailed opening) := by
  unfold Workspace.openFailed
  split
  · exact ⟨rfl, rfl⟩
  · exact ⟨rfl, rfl⟩

theorem still_tornDown (w : Workspace) (opening : Opening) : Still w (w.tornDown opening) := by
  unfold Workspace.tornDown
  split
  · exact .refl w
  · split
    · exact ⟨rfl, rfl⟩
    · exact ⟨rfl, rfl⟩

theorem rests_ensured (w : Workspace) (opening : Opening) (timestamp : JsString) (aborted : Bool) :
    Rests w (w.ensured opening timestamp aborted) := by
  unfold Workspace.ensured
  split
  · exact (still_openFailed w opening).rests
  · split
    · exact (still_openFailed w opening).rests
    · rename_i hensured
      exact ⟨rfl, (Database.ensureDocument_sameLog hensured).sameDocument⟩

theorem still_listed (w : Workspace) (opening : Opening) (aborted : Bool) :
    Still w (w.listed opening aborted) := by
  unfold Workspace.listed
  split
  · exact still_openFailed w opening
  · exact ⟨rfl, rfl⟩

theorem rests_boot (w : Workspace) (timestamp : JsString) (routed : DocumentRouteRead)
    (aborted : Bool) : Rests w (w.boot timestamp routed aborted) := by
  have hfailed : Rests w w.bootFailed := Still.rests ⟨rfl, rfl⟩
  unfold Workspace.boot
  split
  · exact hfailed
  split
  · exact hfailed
  · rename_i hensured
    have hrows := (Database.ensureDocument_sameLog hensured).sameDocument
    split
    · exact ⟨rfl, hrows⟩
    · exact ⟨rfl, hrows⟩

theorem still_navigateToDocument (w : Workspace) (documentId : JsString) :
    Still w (w.navigateToDocument documentId) := by
  unfold Workspace.navigateToDocument
  split
  · exact ⟨rfl, rfl⟩
  · split
    · exact .refl w
    · exact ⟨rfl, rfl⟩

theorem still_handlePopState (w : Workspace) (routed : DocumentRouteRead) :
    Still w (w.handlePopState routed) := by
  unfold Workspace.handlePopState
  split
  · refine Still.trans ?_ (still_teardownSession _ false)
    exact ⟨rfl, rfl⟩
  · exact ⟨rfl, rfl⟩

theorem still_commitSettled (w : Workspace) (i : ℕ) (s : ActiveSession) (queued : SessionJob)
    (outcome : Except JsError LocalDocumentSnapshot) :
    Still w (w.commitSettled i s queued outcome) :=
  commitSettled_of (.refl w) (fun _ _ _ => ⟨rfl, rfl⟩) fun h => h.trans (still_release _ i)

theorem still_ingestSettled (w : Workspace) (i : ℕ) (s : ActiveSession) (queued : SessionJob)
    (outcome : Except JsError LocalDocumentSnapshot) :
    Still w (w.ingestSettled i s queued outcome) :=
  ingestSettled_of (.refl w) fun _ _ _ => ⟨rfl, rfl⟩

theorem still_onCompositionStart (w : Workspace) : Still w w.onCompositionStart := by
  unfold Workspace.onCompositionStart
  split
  · exact ⟨rfl, rfl⟩
  · exact ⟨works_update_same (w := { w with composing := true }) fun _ => rfl, rfl⟩

/-! ## What one input does -/

/-- **What one input does to the work of the sessions.** -/
inductive Works (segmentGraphemes : JsString → List JsString) (w w' : Workspace) :
    WorkspaceInput → Prop
  | rests {e : WorkspaceInput} (h : Rests w w') : Works segmentGraphemes w w' e
  | opens (env : Surroundings) (opening : Opening) (controller : LocalDocumentController)
      (hopening : w.opening = some opening) (hstage : opening.stage = .creating)
      (hcreate : LocalDocumentController.create w.db (createOptions opening.documentId) env =
        (.ok controller, w'.db))
      (hworks : w'.works = w.works ++ [⟨opening.documentId, controller, []⟩]) :
      Works segmentGraphemes w w' (.created env false)
  | settles (i : ℕ) (env : Surroundings) (aborted : Bool) (work : SessionWork) (queued : SessionJob)
      (writeQueue : List SessionJob) (hwork : w.works[i]? = some work)
      (hqueue : work.writeQueue = queued :: writeQueue)
      (hdb : w'.db = (work.ran segmentGraphemes w.db env aborted queued.job).2.1)
      (hworks : w'.works = w.works.modify i fun work => ⟨work.documentId,
        (work.ran segmentGraphemes w.db env aborted queued.job).1, writeQueue⟩) :
      Works segmentGraphemes w w' (.settle i env aborted)
  | takes {e : WorkspaceInput} (i : ℕ) (queued : SessionJob) (hsession : w.session = some i)
      (hdb : w'.db = w.db) (hworks : w'.works = w.works.modify i (.add queued)) :
      Works segmentGraphemes w w' e

theorem works_enqueue (w : Workspace) (i : ℕ) (queued : SessionJob) :
    (w.enqueue i queued).works = w.works.modify i (.add queued) :=
  works_update fun _ _ => rfl

theorem commitText_works (w : Workspace) (nextText : JsString) (releases : Bool)
    (e : WorkspaceInput) : Works segmentGraphemes w (w.commitText nextText releases) e := by
  unfold Workspace.commitText
  split
  · exact .rests (Still.rests ⟨rfl, rfl⟩)
  · rename_i i hsession
    split
    · exact .rests (Still.rests ⟨rfl, rfl⟩)
    · split
      · refine .rests (Still.rests (Still.trans ?_ (still_commitSettled _ _ _ _ _)))
        exact ⟨rfl, rfl⟩
      · exact .takes i _ hsession rfl (works_enqueue _ i _)

theorem deliver_works (w : Workspace) (i : ℕ) (delivery : ServerDelivery) (e : WorkspaceInput) :
    Works segmentGraphemes w (w.deliver i delivery) e := by
  unfold Workspace.deliver
  split
  · exact .rests (Still.refl w).rests
  · split
    · exact .rests (Still.refl w).rests
    · rename_i hlast
      rw [not_or, not_not] at hlast
      split
      · exact .takes i _ hlast.1 rfl (works_enqueue w i _)
      · exact .takes i _ hlast.1 rfl (works_enqueue w i _)

theorem created_works (hopening : w.opening = some opening) (hstage : opening.stage = .creating)
    (env : Surroundings) (aborted : Bool) :
    Works segmentGraphemes w (w.created opening env aborted) (.created env aborted) := by
  unfold Workspace.created
  split
  · exact .rests (still_openFailed w opening).rests
  · rename_i haborted
    rw [Bool.not_eq_true] at haborted
    subst haborted
    have hrows := fun d => LocalDocumentController.create_sameDocument w.db
      (createOptions opening.documentId) env d
    split
    · rename_i db hcreate
      rw [hcreate] at hrows
      have hdb : Rests w { w with db := db } := ⟨rfl, hrows⟩
      exact .rests (hdb.still (still_openFailed _ opening))
    · rename_i controller db hcreate
      rw [hcreate] at hrows
      have hdb : Rests w { w with db := db } := ⟨rfl, hrows⟩
      unfold Workspace.opened
      split
      · split
        · exact .rests (hdb.still (still_openFailed _ opening))
        · exact .opens env opening controller hopening hstage hcreate List.map_append
      · exact .rests (hdb.still ⟨rfl, rfl⟩)

theorem settle_works (w : Workspace) (i : ℕ) (env : Surroundings) (aborted : Bool) :
    Works segmentGraphemes w (w.settle segmentGraphemes i env aborted) (.settle i env aborted) := by
  unfold Workspace.settle
  split
  · exact .rests (Still.refl w).rests
  · rename_i s hs
    split
    · exact .rests (Still.refl w).rests
    · rename_i queued writeQueue hqueue
      simp only
      have hran : w.runQueued segmentGraphemes s env aborted queued.job =
          s.work.ran segmentGraphemes w.db env aborted queued.job := rfl
      rw [hran]
      -- the continuation leaves the work alone
      have hsettles : ∀ {w'}, Still ({ w with
            db := (s.work.ran segmentGraphemes w.db env aborted queued.job).2.1 }.update i fun _ =>
          { s with
            controller := (s.work.ran segmentGraphemes w.db env aborted queued.job).1
            writeQueue := writeQueue }) w' →
          Works segmentGraphemes w w' (.settle i env aborted) := by
        intro w' hstill
        refine .settles i env aborted s.work queued writeQueue (works_get? hs) hqueue hstill.db ?_
        rw [hstill.works]
        refine works_update (w := { w with db := _ }) fun s' hs' => ?_
        have hs' : w.sessions[i]? = some s' := hs'
        rw [hs] at hs'
        cases hs'
        rfl
      split
      · exact hsettles (still_commitSettled _ i _ queued _)
      · exact hsettles (still_ingestSettled _ i _ queued _)

theorem step_works (w : Workspace) (e : WorkspaceInput) :
    Works segmentGraphemes w (w.step segmentGraphemes e) e := by
  have hstill : ∀ {w'}, Still w w' → Works segmentGraphemes w w' e := fun h => .rests h.rests
  have hsame := hstill (Still.refl w)
  cases e with
  | boot timestamp routed aborted => exact .rests (rests_boot w timestamp routed aborted)
  | navigate documentId => exact hstill (still_navigateToDocument w documentId)
  | popState routed => exact hstill (still_handlePopState w routed)
  | start n => exact hstill (still_transition w _)
  | prepared n =>
    simp only [Workspace.step]
    split
    · exact hsame
    · exact hstill (still_transition w _)
  | switched n =>
    simp only [Workspace.step]
    split
    · exact hsame
    · exact hstill (still_transition w _)
  | closed k => exact hstill (still_closed w k)
  | tornDown =>
    refine atStage (P := fun w' => Works segmentGraphemes w w' _) hsame fun opening _ _ => ?_
    exact hstill (still_tornDown w opening)
  | ensured timestamp aborted =>
    refine atStage (P := fun w' => Works segmentGraphemes w w' _) hsame fun opening _ _ => ?_
    exact .rests (rests_ensured w opening timestamp aborted)
  | listed aborted =>
    refine atStage (P := fun w' => Works segmentGraphemes w w' _) hsame fun opening _ _ => ?_
    exact hstill (still_listed w opening aborted)
  | created env aborted =>
    refine atStage (P := fun w' => Works segmentGraphemes w w' _) hsame fun opening hopening hstage => ?_
    exact created_works hopening hstage env aborted
  | textChange value =>
    simp only [Workspace.step]
    split
    · unfold Workspace.onTextChange
      split
      · exact hstill ⟨rfl, rfl⟩
      · exact commitText_works w value false _
    · exact hsame
  | compositionStart =>
    simp only [Workspace.step]
    split
    · exact hstill (still_onCompositionStart w)
    · exact hsame
  | compositionEnd value =>
    cases @commitText_works segmentGraphemes { w with composing := false } value true
      (.compositionEnd value) with
    | rests h => exact .rests ⟨h.works, h.rows⟩
    | takes i queued hsession hdb hworks => exact .takes i queued hsession hdb hworks
  | deliver i delivery => exact deliver_works w i delivery _
  | settle i env aborted => exact settle_works w i env aborted
  | create documentId timestamp =>
    simp only [Workspace.step]
    split
    · exact hsame
    · rename_i hensured
      exact .rests ⟨rfl, (Database.ensureDocument_sameLog hensured).sameDocument⟩
  | rename documentId title timestamp =>
    simp only [Workspace.step]
    split
    · exact hsame
    · rename_i hrenamed
      exact .rests ⟨rfl, (Database.renameDocument_sameLog hrenamed).sameDocument⟩

/-! ## For whom work is taken on -/

/-- A write queue only grows when the current session takes on a job. -/
theorem Works.grows {e : WorkspaceInput} (h : Works segmentGraphemes w w' e)
    (hs : w.sessions[i]? = some s) (hs' : w'.sessions[i]? = some s')
    (hmore : s.writeQueue.length < s'.writeQueue.length) : w.session = some i := by
  have hwork := works_get? hs
  have hwork' := works_get? hs'
  cases h with
  | rests h =>
    rw [h.works, hwork] at hwork'
    have hsame : s.writeQueue = s'.writeQueue :=
      congrArg SessionWork.writeQueue (Option.some.inj hwork')
    rw [hsame] at hmore
    exact absurd hmore (lt_irrefl _)
  | opens env opening controller hopening hstage hcreate hworks =>
    rw [hworks, List.getElem?_append_left (List.getElem?_eq_some_iff.1 hwork).1, hwork] at hwork'
    have hsame : s.writeQueue = s'.writeQueue :=
      congrArg SessionWork.writeQueue (Option.some.inj hwork')
    rw [hsame] at hmore
    exact absurd hmore (lt_irrefl _)
  | settles j env aborted work queued writeQueue hj hqueue hdb hworks =>
    rw [hworks, List.getElem?_modify, hwork] at hwork'
    have hsame := congrArg SessionWork.writeQueue (Option.some.inj hwork')
    by_cases hij : j = i
    · subst hij
      rw [hwork] at hj
      cases hj
      have hsame : writeQueue = s'.writeQueue := by simpa using hsame
      have hqueue : s.writeQueue = queued :: writeQueue := hqueue
      rw [hqueue, ← hsame, List.length_cons] at hmore
      omega
    · have hsame : s.writeQueue = s'.writeQueue := by simpa [hij] using hsame
      rw [hsame] at hmore
      exact absurd hmore (lt_irrefl _)
  | takes j queued hsession hdb hworks =>
    by_cases hij : j = i
    · rwa [← hij]
    · rw [hworks, List.getElem?_modify_ne _ _ hij, hwork] at hwork'
      have hsame : s.writeQueue = s'.writeQueue :=
        congrArg SessionWork.writeQueue (Option.some.inj hwork')
      rw [hsame] at hmore
      exact absurd hmore (lt_irrefl _)

/-- **Work stays with the document that is shown**: in every run only the current session is
connected, the text area and the active document are its own unless the page shows an invalid route,
and a job is only added to its write queue. -/
theorem work_stays (db : Database) (inputs : List WorkspaceInput) :
    let w := run segmentGraphemes db inputs
    (∀ i s, w.sessions[i]? = some s → (s.syncClosed = false ↔ w.session = some i)) ∧
    (∀ i s, w.session = some i → w.sessions[i]? = some s →
      w.invalidRoute = true ∨ w.textOf = some i ∧ w.activeDocumentId = some s.documentId) ∧
    ∀ e i s s', w.sessions[i]? = some s → (w.step segmentGraphemes e).sessions[i]? = some s' →
      s.writeQueue.length < s'.writeQueue.length → w.session = some i := by
  intro w
  have hinv : Inv w := run_inv db inputs
  refine ⟨fun i s hs => ⟨fun hopen => ?_, fun hsession => ?_⟩, fun i s hsession hs => ?_,
    fun e i s s' hs hs' hmore => (w.step_works e).grows hs hs' hmore⟩
  · by_contra hother
    rw [(hinv.left i s hs hother).disconnected] at hopen
    cases hopen
  · exact ((hinv.current i hsession).connected s hs).1
  · exact (hinv.current i hsession).shown.imp_right (And.imp_right fun hactive => hactive s hs)

end Workspace

end LocalFirst
