import LocalFirst.Client.Handover

/-!
# The document in the address

Which session the transitions lead to.

* `Workspace.Follows` — the document that the address asks for is requested, being opened, open, or
  could not be opened.
* `Workspace.Follows.step` — every step keeps it.
* `Workspace.shows_address` — when the transitions have settled, the page shows the document that the
  address asks for, or an error.
-/

set_option autoImplicit false

namespace LocalFirst

namespace Workspace

variable {segmentGraphemes : JsString → List JsString} {w w' : Workspace} {i : ℕ}
  {s : ActiveSession} {opening : Opening} {d : JsString}

/-! ## What the address leads to -/

/-- No teardown waits for a gate. -/
def Ungated (w : Workspace) : Prop := ∀ t ∈ w.teardowns, t.gate = false

/-- The document could not be opened, and no older session is for the last transition. -/
structure Failed (w : Workspace) : Prop where
  idle : w.opening = none
  session : w.session = none
  active : w.activeDocumentId = none
  saveState : w.saveState = .error
  stale : ∀ g ∈ w.generations, g < w.transitions.generation

/-- The current session is for the document, and nothing waits to tear it down. -/
structure Shows (w : Workspace) (d : JsString) : Prop where
  current : ∃ i : ℕ, w.session = some i ∧ w.documents[i]? = some d
  ungated : w.Ungated

/-- The document is requested, being opened, open, or could not be opened. -/
def Answers (w : Workspace) (d : JsString) : Prop :=
  w.transitions.pendingTarget = some d ∨ w.transitions.pendingTarget = none ∧
    ((∃ opening, w.opening = some opening ∧ opening.documentId = d) ∨ w.Shows d ∨ w.Failed)

structure Follows (w : Workspace) : Prop where
  kept : w.transitions.Kept
  answers : ∀ routed d, w.address = some routed → routed.target = some d → w.Answers d

/-! ## What leaves the sessions as they are -/

/-- Nothing is requested, opened or torn down. -/
structure Calm (w w' : Workspace) : Prop where
  address : w'.address = w.address
  transitions : w'.transitions = w.transitions
  opening : w'.opening = w.opening
  generations : w'.generations = w.generations
  session : w.Ungated → w'.session = w.session ∧ w'.Ungated
  failed : w.Failed → w'.Failed

theorem Calm.refl (w : Workspace) : Calm w w := ⟨rfl, rfl, rfl, rfl, fun h => ⟨rfl, h⟩, id⟩

theorem Calm.trans {w'' : Workspace} (h : Calm w w') (h' : Calm w' w'') : Calm w w'' where
  address := h'.address.trans h.address
  transitions := h'.transitions.trans h.transitions
  opening := h'.opening.trans h.opening
  generations := h'.generations.trans h.generations
  session hungated := by
    obtain ⟨hsession, hungated⟩ := h.session hungated
    obtain ⟨hsession', hungated⟩ := h'.session hungated
    exact ⟨hsession'.trans hsession, hungated⟩
  failed hfailed := h'.failed (h.failed hfailed)

theorem Calm.of_eq (haddress : w'.address = w.address) (htransitions : w'.transitions = w.transitions)
    (hopening : w'.opening = w.opening) (hgenerations : w'.generations = w.generations)
    (hsession : w'.session = w.session) (hteardowns : w'.teardowns = w.teardowns)
    (hfailed : w.Failed → w'.activeDocumentId = none ∧ w'.saveState = .error) : Calm w w' where
  address := haddress
  transitions := htransitions
  opening := hopening
  generations := hgenerations
  session hungated := ⟨hsession, by rw [Ungated, hteardowns]; exact hungated⟩
  failed h := by
    obtain ⟨hactive, hsave⟩ := hfailed h
    refine ⟨hopening.trans h.idle, hsession.trans h.session, hactive, hsave, ?_⟩
    rw [hgenerations, htransitions]
    exact h.stale

theorem calm_update (w : Workspace) (i : ℕ) {f : ActiveSession → ActiveSession}
    (h : ∀ s, w.sessions[i]? = some s → (f s).generation = s.generation) : Calm w (w.update i f) :=
  .of_eq rfl rfl rfl (generations_update h) rfl rfl fun h => ⟨h.active, h.saveState⟩

theorem generations_leave (w : Workspace) (i : ℕ) : (w.leave i).generations = w.generations :=
  generations_update (w := { w with session := none }) fun _ _ => rfl

theorem calm_release (w : Workspace) (i : ℕ) : Calm w (w.release i) := by
  have hreleased : Calm w (w.update i fun s =>
      { s with compositionGate := s.compositionGate.release }) := calm_update w i fun _ _ => rfl
  unfold Workspace.release
  simp only
  split
  · rename_i hany
    have hleft := generations_leave (w.update i fun s =>
      { s with compositionGate := s.compositionGate.release }) i
    refine hreleased.trans ⟨rfl, rfl, rfl, hleft, fun hungated => ?_, fun hfailed => ?_⟩
    · -- a teardown that goes on has waited for the gate
      obtain ⟨t, ht, hholds⟩ := List.any_eq_true.1 hany
      have hgate := hungated t ht
      rw [Teardown.holds, hgate] at hholds
      cases hholds
    · refine ⟨hfailed.idle, rfl, hfailed.active, hfailed.saveState, fun g hg => ?_⟩
      exact hfailed.stale g (hleft ▸ hg)
  · exact hreleased

theorem calm_closed (w : Workspace) (k : ℕ) : Calm w (w.closed k) := by
  unfold Workspace.closed
  split
  · exact .refl w
  · split
    · exact .refl w
    · unfold Workspace.close
      have herased : Calm w { w with teardowns := w.teardowns.eraseIdx k } :=
        ⟨rfl, rfl, rfl, rfl,
          fun hungated => ⟨rfl, fun t ht => hungated t (List.mem_of_mem_eraseIdx ht)⟩,
          fun h => ⟨h.idle, h.session, h.active, h.saveState, h.stale⟩⟩
      refine (herased.trans ?_).trans (calm_release _ _)
      exact calm_update _ _ fun _ _ => rfl

theorem stale_of_failed (h : Failed w) (hs : w.sessions[i]? = some s) :
    ¬ w.transitions.isCurrent s.generation = true := by
  have hlt := h.stale s.generation (List.mem_map.2 ⟨s, List.mem_of_getElem? hs, rfl⟩)
  rw [SessionTransitionQueue.isCurrent, decide_eq_true_iff]
  omega

/-- A text is shown, which after a failure it is for no session. -/
theorem calm_commitSettled (hs : w.sessions[i]? = some s) (queued : SessionJob)
    (outcome : Except JsError LocalDocumentSnapshot) : Calm w (w.commitSettled i s queued outcome) := by
  refine commitSettled_of (.refl w) (fun hlast text saveState => ?_) fun h =>
    h.trans (calm_release _ i)
  refine .of_eq rfl rfl rfl rfl rfl rfl fun hfailed => ?_
  exact absurd hlast (stale_of_failed hfailed hs)

theorem calm_ingestSettled (hs : w.sessions[i]? = some s) (queued : SessionJob)
    (outcome : Except JsError LocalDocumentSnapshot) : Calm w (w.ingestSettled i s queued outcome) := by
  refine ingestSettled_of (.refl w) fun hlast text saveState => ?_
  refine .of_eq rfl rfl rfl rfl rfl rfl fun hfailed => ?_
  exact absurd hlast (stale_of_failed hfailed hs)

theorem calm_commitText (w : Workspace) (nextText : JsString) (releases : Bool) :
    Calm w (w.commitText nextText releases) := by
  unfold Workspace.commitText
  split
  · exact .of_eq rfl rfl rfl rfl rfl rfl fun h => ⟨h.active, h.saveState⟩
  · rename_i i hsession
    have hsaving : Calm w { w with
        text := nextText, saveState := .saving, requestVersion := w.requestVersion + 1 } := by
      refine .of_eq rfl rfl rfl rfl rfl rfl fun h => ?_
      have hnone := h.session
      rw [hsession] at hnone
      cases hnone
    split
    · exact hsaving
    · rename_i s hs
      split
      · refine hsaving.trans (calm_commitSettled ?_ _ _)
        exact hs
      · exact hsaving.trans (calm_update _ i fun _ _ => rfl)

theorem calm_deliver (w : Workspace) (i : ℕ) (delivery : ServerDelivery) :
    Calm w (w.deliver i delivery) := by
  unfold Workspace.deliver
  repeat' split
  all_goals first | exact .refl w | exact calm_update w i fun _ _ => rfl

theorem calm_settle (w : Workspace) (i : ℕ) (env : Surroundings) (aborted : Bool) :
    Calm w (w.settle segmentGraphemes i env aborted) := by
  unfold Workspace.settle
  split
  · exact .refl w
  · rename_i s hs
    split
    · exact .refl w
    · rename_i queued writeQueue _
      simp only
      generalize w.runQueued segmentGraphemes s env aborted queued.job = ran
      have hdb : Calm w { w with db := ran.2.1 } :=
        .of_eq rfl rfl rfl rfl rfl rfl fun h => ⟨h.active, h.saveState⟩
      have hran : Calm w ({ w with db := ran.2.1 }.update i fun _ =>
          { s with controller := ran.1, writeQueue := writeQueue }) := by
        refine hdb.trans (calm_update _ i fun s' hs' => ?_)
        have hs' : w.sessions[i]? = some s' := hs'
        rw [hs] at hs'
        cases hs'
        rfl
      have hget : ({ w with db := ran.2.1 }.update i fun _ =>
          { s with controller := ran.1, writeQueue := writeQueue }).sessions[i]? =
          some { s with controller := ran.1, writeQueue := writeQueue } := by
        rw [getElem?_update, if_pos rfl, show _ = some s from hs]
        rfl
      split
      · exact hran.trans (calm_commitSettled hget _ _)
      · exact hran.trans (calm_ingestSettled hget _ _)

theorem calm_onCompositionStart (w : Workspace) : Calm w w.onCompositionStart := by
  have hcomposing : Calm w { w with composing := true } :=
    .of_eq rfl rfl rfl rfl rfl rfl fun h => ⟨h.active, h.saveState⟩
  unfold Workspace.onCompositionStart
  split
  · exact hcomposing
  · exact hcomposing.trans (calm_update _ _ fun _ _ => rfl)

/-! ## Every step -/

theorem Calm.follows (h : Calm w w') (hdocuments : w'.documents = w.documents) (hf : Follows w) :
    Follows w' where
  kept := by
    rw [h.transitions]
    exact hf.kept
  answers routed d haddress hd := by
    rw [h.address] at haddress
    rw [Answers, h.transitions, h.opening]
    refine (hf.answers routed d haddress hd).imp_right (And.imp_right (Or.imp_right ?_))
    refine Or.imp (fun hshows => ?_) h.failed
    obtain ⟨⟨i, hi, hdocument⟩, hungated⟩ := hshows
    obtain ⟨hsession, hungated'⟩ := h.session hungated
    exact ⟨⟨i, hsession.trans hi, by rw [hdocuments]; exact hdocument⟩, hungated'⟩

theorem Follows.request (hf : Follows w) (hinv : Inv w) {routed : DocumentRouteRead}
    (hd : routed.target = some d) (haddress : w'.address = some routed)
    (htransitions : w'.transitions = w.transitions.request d () (some ())) : Follows w' where
  kept := by
    rw [htransitions]
    exact hf.kept.step hinv.queue (e := .request d () (some ())) fun n h => by cases h
  answers routed' d' haddress' hd' := by
    rw [haddress] at haddress'
    cases haddress'
    rw [hd] at hd'
    cases hd'
    rw [Answers, htransitions]
    exact Or.inl rfl

/-- What an opening comes to. -/
theorem Follows.of_opening (hf : Follows w) (hinv : Inv w) (hopening : w.opening = some opening)
    (haddress : w'.address = w.address) (htransitions : w'.transitions = w.transitions)
    (hanswers : (∃ opening', w'.opening = some opening' ∧ opening'.documentId = opening.documentId) ∨
      w'.Shows opening.documentId ∨ w'.Failed) : Follows w' where
  kept := by
    rw [htransitions]
    exact hf.kept
  answers routed d haddress' hd := by
    rw [haddress] at haddress'
    rw [Answers, htransitions]
    refine (hf.answers routed d haddress' hd).imp_right (And.imp_right fun h => ?_)
    rcases h with ⟨opening', hopening', rfl⟩ | hshows | hfailed
    · rw [hopening] at hopening'
      cases hopening'
      exact hanswers
    · obtain ⟨i, hi, -⟩ := hshows.current
      rw [hinv.none_current hopening] at hi
      cases hi
    · have hidle := hfailed.idle
      rw [hopening] at hidle
      cases hidle

theorem failed_openFailed (hinv : Inv w) (hopening : w.opening = some opening) :
    (w.openFailed opening).Failed := by
  obtain ⟨hgeneration, -⟩ := hinv.opening opening hopening
  have hcurrent : w.transitions.isCurrent opening.generation = true := decide_eq_true hgeneration
  have hnone := hinv.none_current hopening
  unfold Workspace.openFailed
  rw [if_pos hcurrent]
  refine ⟨rfl, hnone, rfl, rfl, fun g hg => ?_⟩
  rw [← hgeneration]
  exact hinv.fresh opening hopening g hg

theorem Follows.openFailed (hf : Follows w) (hinv : Inv w) (hopening : w.opening = some opening) :
    Follows (w.openFailed opening) := by
  have hfailed := failed_openFailed hinv hopening
  refine hf.of_opening hinv hopening ?_ ?_ (Or.inr (Or.inr hfailed))
  all_goals
    unfold Workspace.openFailed
    split <;> rfl

theorem Follows.enter (hf : Follows w) (hinv : Inv w) (hopening : w.opening = some opening)
    (stage : OpenStage) : Follows (w.enter opening stage) :=
  hf.of_opening hinv hopening rfl rfl (Or.inl ⟨_, rfl, rfl⟩)

theorem Follows.setDb (hf : Follows w) (db : Database) : Follows { w with db := db } := by
  refine Calm.follows (w := w) ?_ rfl hf
  exact .of_eq rfl rfl rfl rfl rfl rfl fun h => ⟨h.active, h.saveState⟩

theorem Follows.tornDown (hf : Follows w) (hinv : Inv w) (hopening : w.opening = some opening) :
    Follows (w.tornDown opening) := by
  obtain ⟨hgeneration, -⟩ := hinv.opening opening hopening
  have hcurrent : w.transitions.isCurrent opening.generation = true := decide_eq_true hgeneration
  unfold Workspace.tornDown
  rw [if_pos hcurrent]
  split
  · exact hf
  · exact hf.enter hinv hopening _

theorem Follows.ensured (hf : Follows w) (hinv : Inv w) (hopening : w.opening = some opening)
    (timestamp : JsString) (aborted : Bool) : Follows (w.ensured opening timestamp aborted) := by
  unfold Workspace.ensured
  split
  · exact hf.openFailed hinv hopening
  · split
    · exact hf.openFailed hinv hopening
    · rename_i db _
      exact (hf.setDb db).enter (hinv.setDb db) hopening _

theorem Follows.listed (hf : Follows w) (hinv : Inv w) (hopening : w.opening = some opening)
    (aborted : Bool) : Follows (w.listed opening aborted) := by
  unfold Workspace.listed
  split
  · exact hf.openFailed hinv hopening
  · exact hf.enter hinv hopening _

/-- A session is made for the document that the opening is about. -/
theorem Follows.opened (hf : Follows w) (hinv : Inv w) (hopening : w.opening = some opening)
    (controller : LocalDocumentController) : Follows (w.opened opening controller) := by
  obtain ⟨hgeneration, -⟩ := hinv.opening opening hopening
  have hcurrent : w.transitions.isCurrent opening.generation = true := decide_eq_true hgeneration
  unfold Workspace.opened
  rw [if_pos hcurrent]
  split
  · exact hf.openFailed hinv hopening
  · refine hf.of_opening hinv hopening rfl rfl (Or.inr (Or.inl ⟨⟨w.sessions.length, rfl, ?_⟩, ?_⟩))
    · unfold Workspace.documents works
      rw [List.map_append, List.map_append, List.getElem?_append_right (by simp)]
      simp [sessionOf]
    · intro t ht
      cases hgate : t.gate with
      | false => rfl
      | true =>
        have hsession := (hinv.gates t ht hgate).1
        rw [hinv.none_current hopening] at hsession
        cases hsession

theorem Follows.created (hf : Follows w) (hinv : Inv w) (hopening : w.opening = some opening)
    (env : Surroundings) (aborted : Bool) : Follows (w.created opening env aborted) := by
  unfold Workspace.created
  split
  · exact hf.openFailed hinv hopening
  · split
    · rename_i db _
      exact (hf.setDb db).openFailed (hinv.setDb db) hopening
    · rename_i db _
      exact (hf.setDb db).opened (hinv.setDb db) hopening _

theorem address_teardownSession (w : Workspace) (awaited : Bool) :
    (w.teardownSession awaited).address = w.address := by
  unfold Workspace.teardownSession
  repeat' split
  all_goals rfl

theorem transitions_teardownSession (w : Workspace) (awaited : Bool) :
    (w.teardownSession awaited).transitions = w.transitions := by
  unfold Workspace.teardownSession
  repeat' split
  all_goals rfl

/-- An address that asks for no document makes no claim. -/
theorem Follows.invalid (hf : Follows w) {routed : DocumentRouteRead} (hnone : routed.target = none)
    (haddress : w'.address = some routed) (htransitions : w'.transitions = w.transitions) :
    Follows w' where
  kept := by
    rw [htransitions]
    exact hf.kept
  answers routed' d haddress' hd := by
    rw [haddress] at haddress'
    cases haddress'
    rw [hnone] at hd
    cases hd

theorem Follows.boot (hf : Follows w) (hinv : Inv w) (timestamp : JsString)
    (routed : DocumentRouteRead) (aborted : Bool) : Follows (w.boot timestamp routed aborted) := by
  have hfailed : Follows w.bootFailed := by
    refine Calm.follows (w := w) ?_ rfl hf
    exact .of_eq rfl rfl rfl rfl rfl rfl fun h => ⟨h.active, rfl⟩
  unfold Workspace.boot
  split
  · exact hfailed
  split
  · exact hfailed
  · split
    · exact hf.invalid ‹_› rfl rfl
    · exact hf.request hinv ‹_› rfl rfl

theorem Follows.navigateToDocument (hf : Follows w) (hinv : Inv w) (documentId : JsString) :
    Follows (w.navigateToDocument documentId) := by
  unfold Workspace.navigateToDocument
  split
  · refine Calm.follows (w := w) ?_ rfl hf
    exact .of_eq rfl rfl rfl rfl rfl rfl fun h => ⟨h.active, h.saveState⟩
  · split
    · exact hf
    · refine hf.request hinv ?_ rfl rfl
      rfl

theorem Follows.handlePopState (hf : Follows w) (hinv : Inv w) (routed : DocumentRouteRead) :
    Follows (w.handlePopState routed) := by
  unfold Workspace.handlePopState
  split
  · exact hf.invalid ‹_› (address_teardownSession _ false) (transitions_teardownSession _ false)
  · exact hf.request hinv ‹_› rfl rfl

/-- **`switchTo` is called for the document that the address asks for.** -/
theorem Follows.transition (hf : Follows w) (hinv : Inv w) {n : ℕ} {e : TransitionEvent Unit Unit}
    (he : e = .start n ∨ e = .prepared n ∨ e = .switched n ∧ w.opening = none) :
    Follows (w.transition e) := by
  have hkept : (w.transitions.step e).Kept := hf.kept.step hinv.queue fun m hm => by
    rcases he with rfl | rfl | ⟨rfl, -⟩ <;> cases hm
  rcases hinv.reaction he with ⟨target, he', hidle, hpending, hq, hn⟩ | ⟨hwaits, -⟩
  · have heq : w.transition e =
        { w with transitions := w.transitions.step e }.openSession target
          (w.transitions.step e).generation := by
      unfold Workspace.transition
      simp only [hq, List.length_append, List.length_singleton, Nat.lt_succ_self, if_true,
        List.getLast?_concat]
    have hcurrent : (w.transitions.step e).isCurrent (w.transitions.step e).generation = true :=
      decide_eq_true rfl
    rw [heq]
    unfold Workspace.openSession
    rw [if_pos hcurrent]
    constructor
    case kept =>
      rw [transitions_teardownSession]
      exact hkept
    case answers =>
      intro routed d haddress hd
      rw [address_teardownSession] at haddress
      have hanswers := hf.answers routed d haddress hd
      rw [Answers, transitions_teardownSession, opening_teardownSession]
      refine Or.inr ⟨by rw [hq], Or.inl ⟨_, rfl, ?_⟩⟩
      rcases hanswers with hasked | ⟨hnone, -⟩
      · rw [hpending] at hasked
        exact Option.some.inj hasked
      · rw [hpending] at hnone
        cases hnone
  · have heq : w.transition e = { w with transitions := w.transitions.step e } := by
      unfold Workspace.transition
      simp only [hwaits.calls, lt_irrefl, if_false]
    rw [heq]
    refine ⟨hkept, fun routed d haddress hd => ?_⟩
    rw [Answers, show _ = _ from hwaits.pendingTarget]
    refine (hf.answers routed d haddress hd).imp_right (And.imp_right (Or.imp_right ?_))
    refine Or.imp (fun h => ⟨h.current, h.ungated⟩) fun h => ?_
    refine ⟨h.idle, h.session, h.active, h.saveState, ?_⟩
    show ∀ g ∈ w.generations, g < (w.transitions.step e).generation
    rw [hwaits.generation]
    exact h.stale

/-- A step that opens no session is about the same documents. -/
theorem Works.documents {e : WorkspaceInput} (h : Works segmentGraphemes w w' e)
    (he : ∀ env aborted, e ≠ .created env aborted) : w'.documents = w.documents := by
  cases h with
  | rests h =>
    unfold Workspace.documents
    rw [h.works]
  | opens env => exact absurd rfl (he env false)
  | settles i env aborted work queued writeQueue hwork hqueue hdb hworks =>
    exact documents_of_modify hworks fun _ => rfl
  | takes i queued hsession hdb hworks => exact documents_of_modify hworks fun _ => rfl

/-- **Every step keeps it.** -/
theorem Follows.step (hf : Follows w) (hinv : Inv w) (e : WorkspaceInput) :
    Follows (w.step segmentGraphemes e) := by
  have hcalm : (∀ env aborted, e ≠ .created env aborted) → Calm w (w.step segmentGraphemes e) →
      Follows (w.step segmentGraphemes e) := fun he h => h.follows ((w.step_works e).documents he) hf
  cases e with
  | boot timestamp routed aborted => exact hf.boot hinv timestamp routed aborted
  | navigate documentId => exact hf.navigateToDocument hinv documentId
  | popState routed => exact hf.handlePopState hinv routed
  | start n => exact hf.transition hinv (Or.inl rfl)
  | prepared n =>
    simp only [Workspace.step]
    split
    · exact hf
    · exact hf.transition hinv (Or.inr (Or.inl rfl))
  | switched n =>
    simp only [Workspace.step]
    split
    · exact hf
    · rename_i hidle
      exact hf.transition hinv (Or.inr (Or.inr ⟨rfl, by simpa using hidle⟩))
  | closed k => exact hcalm (fun _ _ h => by cases h) (calm_closed w k)
  | tornDown => exact atStage hf fun _ hopening _ => hf.tornDown hinv hopening
  | ensured timestamp aborted =>
    exact atStage hf fun _ hopening _ => hf.ensured hinv hopening timestamp aborted
  | listed aborted => exact atStage hf fun _ hopening _ => hf.listed hinv hopening aborted
  | created env aborted => exact atStage hf fun _ hopening _ => hf.created hinv hopening env aborted
  | textChange value =>
    refine hcalm (fun _ _ h => by cases h) ?_
    simp only [Workspace.step]
    split
    · unfold Workspace.onTextChange
      split
      · exact .of_eq rfl rfl rfl rfl rfl rfl fun h => ⟨h.active, h.saveState⟩
      · exact calm_commitText w value false
    · exact .refl w
  | compositionStart =>
    refine hcalm (fun _ _ h => by cases h) ?_
    simp only [Workspace.step]
    split
    · exact calm_onCompositionStart w
    · exact .refl w
  | compositionEnd value =>
    refine hcalm (fun _ _ h => by cases h) (Calm.trans ?_ (calm_commitText _ value true))
    exact .of_eq rfl rfl rfl rfl rfl rfl fun h => ⟨h.active, h.saveState⟩
  | deliver i delivery => exact hcalm (fun _ _ h => by cases h) (calm_deliver w i delivery)
  | settle i env aborted => exact hcalm (fun _ _ h => by cases h) (calm_settle w i env aborted)
  | create documentId timestamp =>
    simp only [Workspace.step]
    split
    · exact hf
    · exact hf.setDb _
  | rename documentId title timestamp =>
    simp only [Workspace.step]
    split
    · exact hf
    · exact hf.setDb _

theorem run_follows (db : Database) (inputs : List WorkspaceInput) :
    Follows (run segmentGraphemes db inputs) := by
  have hboth : Inv (run segmentGraphemes db inputs) ∧ Follows (run segmentGraphemes db inputs) := by
    refine Runs.invariant (I := fun w => Inv w ∧ Follows w) (fun w e h => ⟨h.1.step e, h.2.step h.1 e⟩)
      _ inputs ⟨.start db, fun h => absurd rfl h, fun _ _ h => ?_⟩
    cases h
  exact hboth.2

/-- **The page follows the address**: in every run, when the flushes of the transition queue have
settled, the current session is for the document that the address asks for, or that document could
not be opened and the page says so. -/
theorem shows_address (db : Database) (inputs : List WorkspaceInput) {routed : DocumentRouteRead}
    (hsettled : ∀ flush ∈ (run segmentGraphemes db inputs).transitions.drain, flush.settled = true)
    (haddress : (run segmentGraphemes db inputs).address = some routed)
    (hd : routed.target = some d) :
    let w := run segmentGraphemes db inputs
    (∃ i s, w.session = some i ∧ w.sessions[i]? = some s ∧ s.documentId = d ∧
      s.syncClosed = false ∧ (w.invalidRoute = true ∨ w.activeDocumentId = some d)) ∨
    (w.session = none ∧ w.activeDocumentId = none ∧ w.saveState = .error) := by
  intro w
  have hinv : Inv w := run_inv db inputs
  have hf : Follows w := run_follows db inputs
  have hwork : ∀ {n : ℕ} {flush : Flush}, w.transitions.drain[n]? = some flush →
      flush.settled = true := fun hn => hsettled _ (List.mem_of_getElem? hn)
  -- a document that is still requested has a flush to come, and an opening has one in progress
  rcases hf.answers routed d haddress hd with hpending | ⟨-, ⟨opening, hopening, -⟩ | hshows | hfailed⟩
  · obtain ⟨n, hn | hn⟩ := hf.kept (by rw [hpending]; exact Option.some_ne_none d)
    · cases hwork hn
    · cases hwork hn
  · obtain ⟨-, n, hn⟩ := hinv.opening opening hopening
    cases hwork hn
  · obtain ⟨i, hi, hdocument⟩ := hshows.current
    rw [Workspace.documents, List.getElem?_map] at hdocument
    obtain ⟨work, hwork, hdocument⟩ := Option.map_eq_some_iff.1 hdocument
    obtain ⟨s, hs, rfl⟩ := works_get?_iff.1 hwork
    have hcurrent := hinv.current i hi
    refine Or.inl ⟨i, s, hi, hs, hdocument, (hcurrent.connected s hs).1, ?_⟩
    refine hcurrent.shown.imp_right fun hshown => ?_
    rw [← hdocument]
    exact hshown.2 s hs
  · exact Or.inr ⟨hfailed.session, hfailed.active, hfailed.saveState⟩

/-- Another document is asked for and at once the default document again: the flush of the first
request opens the default document, and the flush of the second finds nothing to do. -/
theorem shows_address_latest :
    let env : Surroundings := ⟨js "now", 0, js "A", true⟩
    let other := js "00000000-0000-4000-8000-000000000000"
    let inputs := [.boot env.now .missing false] ++ openInputs 0 env ++ [.popState (.valid other),
      .popState .missing, .start 1, .prepared 1, .closed 0] ++ (openInputs 1 env).drop 2 ++ [.start 2]
    let w := run (·.map ([·])) Database.empty inputs
    ∃ i s, w.session = some i ∧ w.sessions[i]? = some s ∧ s.documentId = DEFAULT_DOCUMENT_ID ∧
      s.syncClosed = false := by
  intro env other inputs w
  have hopen : w.session.isSome = true := by decide +kernel
  rcases @shows_address (·.map ([·])) DEFAULT_DOCUMENT_ID .empty inputs .missing (by decide +kernel)
    (by decide +kernel) rfl with ⟨i, s, hsession, hs, hdocument, hconnected, -⟩ | ⟨hnone, -⟩
  · exact ⟨i, s, hsession, hs, hdocument, hconnected⟩
  · rw [show w.session = none from hnone] at hopen
    cases hopen

end Workspace

end LocalFirst
