import LocalFirst.Client.SessionWork

/-!
# From one session to the next

A session of a document stores what the next session of it reads.

* `Workspace.Handed` — only the last session has work left, and the last session of each document
  stands for what the tables hold of it.
* `Workspace.Handed.step` — every step keeps it, unless the teardown of an invalid route is overtaken
  or a job fails after its transaction has committed.
* `Workspace.reopened` — a document that is opened again has the operations and the text that its
  last session had.
-/

set_option autoImplicit false

namespace LocalFirst

namespace Workspace

variable {segmentGraphemes : JsString → List JsString} {w w' : Workspace} {i j : ℕ}
  {s s' : ActiveSession} {opening : Opening}

/-! ## Past the teardown -/

/-- `openSession` has left its first await behind. -/
def Past (w : Workspace) : Prop := ∃ opening, w.opening = some opening ∧ opening.stage ≠ .tearingDown

/-- No opening goes past its teardown, and none that is past it sees a teardown begin. -/
structure Leaves (w w' : Workspace) : Prop where
  past : Past w' → Past w
  teardowns : Past w' → w.teardowns = [] → w'.teardowns = []

theorem Leaves.refl (w : Workspace) : Leaves w w := ⟨id, fun _ => id⟩

theorem Leaves.trans {w'' : Workspace} (h : Leaves w w') (h' : Leaves w' w'') : Leaves w w'' :=
  ⟨fun hpast => h.past (h'.past hpast),
    fun hpast hnil => h'.teardowns hpast (h.teardowns (h'.past hpast) hnil)⟩

theorem Leaves.of_not_past (h : ¬ Past w') : Leaves w w' :=
  ⟨fun hpast => absurd hpast h, fun hpast => absurd hpast h⟩

theorem not_past_of_none (h : w.opening = none) : ¬ Past w := by
  rintro ⟨opening, hopening, -⟩
  rw [h] at hopening
  cases hopening

/-- What an opening does that is past its teardown. -/
theorem Leaves.of_past (h : Past w) (hteardowns : w'.teardowns = w.teardowns) : Leaves w w' :=
  ⟨fun _ => h, fun _ hnil => hteardowns.trans hnil⟩

theorem leaves_release (w : Workspace) (i : ℕ) : Leaves w (w.release i) := by
  unfold Workspace.release
  simp only
  split
  · refine ⟨id, fun _ hnil => ?_⟩
    show w.teardowns.map _ = []
    rw [hnil]
    rfl
  · exact ⟨id, fun _ => id⟩

theorem leaves_closed (w : Workspace) (k : ℕ) : Leaves w (w.closed k) := by
  unfold Workspace.closed
  split
  · exact .refl w
  · split
    · exact .refl w
    · unfold Workspace.close
      refine Leaves.trans ?_ (leaves_release _ _)
      refine ⟨id, fun _ hnil => ?_⟩
      show w.teardowns.eraseIdx k = []
      rw [hnil]
      rfl

theorem leaves_commitSettled (w : Workspace) (i : ℕ) (s : ActiveSession) (queued : SessionJob)
    (outcome : Except JsError LocalDocumentSnapshot) :
    Leaves w (w.commitSettled i s queued outcome) :=
  commitSettled_of (.refl w) (fun _ _ _ => ⟨id, fun _ => id⟩) fun h => h.trans (leaves_release _ i)

theorem leaves_ingestSettled (w : Workspace) (i : ℕ) (s : ActiveSession) (queued : SessionJob)
    (outcome : Except JsError LocalDocumentSnapshot) :
    Leaves w (w.ingestSettled i s queued outcome) :=
  ingestSettled_of (.refl w) fun _ _ _ => ⟨id, fun _ => id⟩

theorem leaves_commitText (w : Workspace) (nextText : JsString) (releases : Bool) :
    Leaves w (w.commitText nextText releases) := by
  unfold Workspace.commitText
  split
  · exact ⟨id, fun _ => id⟩
  · split
    · exact ⟨id, fun _ => id⟩
    · split
      · refine Leaves.trans ?_ (leaves_commitSettled _ _ _ _ _)
        exact ⟨id, fun _ => id⟩
      · exact ⟨id, fun _ => id⟩

theorem leaves_deliver (w : Workspace) (i : ℕ) (delivery : ServerDelivery) :
    Leaves w (w.deliver i delivery) := by
  unfold Workspace.deliver
  repeat' split
  all_goals exact ⟨id, fun _ => id⟩

theorem leaves_settle (w : Workspace) (i : ℕ) (env : Surroundings) (aborted : Bool) :
    Leaves w (w.settle segmentGraphemes i env aborted) := by
  unfold Workspace.settle
  split
  · exact .refl w
  · split
    · exact .refl w
    · simp only
      split
      · refine Leaves.trans ?_ (leaves_commitSettled _ _ _ _ _)
        exact ⟨id, fun _ => id⟩
      · refine Leaves.trans ?_ (leaves_ingestSettled _ _ _ _ _)
        exact ⟨id, fun _ => id⟩

theorem leaves_boot (w : Workspace) (timestamp : JsString) (routed : DocumentRouteRead)
    (aborted : Bool) : Leaves w (w.boot timestamp routed aborted) := by
  unfold Workspace.boot
  repeat' split
  all_goals exact ⟨id, fun _ => id⟩

theorem leaves_navigateToDocument (w : Workspace) (documentId : JsString) :
    Leaves w (w.navigateToDocument documentId) := by
  unfold Workspace.navigateToDocument
  repeat' split
  all_goals exact ⟨id, fun _ => id⟩

theorem opening_teardownSession (w : Workspace) (awaited : Bool) :
    (w.teardownSession awaited).opening = w.opening := by
  unfold Workspace.teardownSession
  repeat' split
  all_goals rfl

/-- While a session is current, nothing is being opened. -/
theorem leaves_handlePopState (h : Inv w) (routed : DocumentRouteRead) :
    Leaves w (w.handlePopState routed) := by
  unfold Workspace.handlePopState
  split
  · obtain hsession | ⟨i, hsession⟩ := Option.eq_none_or_eq_some w.session
    · rw [teardownSession_none]
      · exact ⟨id, fun _ => id⟩
      · exact hsession
    · refine .of_not_past (not_past_of_none ?_)
      rw [opening_teardownSession]
      exact (h.current i hsession).idle
  · exact ⟨id, fun _ => id⟩

/-- An opening that begins is at its teardown. -/
theorem leaves_transition (w : Workspace) (e : TransitionEvent Unit Unit) :
    Leaves w (w.transition e) := by
  unfold Workspace.transition
  simp only
  split
  · split
    · unfold Workspace.openSession
      split
      · refine .of_not_past ?_
        rintro ⟨opening, hopening, hstage⟩
        rw [opening_teardownSession] at hopening
        cases hopening
        exact hstage rfl
      · exact ⟨id, fun _ => id⟩
    · exact ⟨id, fun _ => id⟩
  · exact ⟨id, fun _ => id⟩

theorem teardowns_openFailed (w : Workspace) (opening : Opening) :
    (w.openFailed opening).teardowns = w.teardowns := by
  unfold Workspace.openFailed
  split <;> rfl

theorem teardowns_ensured (w : Workspace) (opening : Opening) (timestamp : JsString)
    (aborted : Bool) : (w.ensured opening timestamp aborted).teardowns = w.teardowns := by
  unfold Workspace.ensured
  repeat' split
  all_goals first | rfl | exact teardowns_openFailed _ _

theorem teardowns_listed (w : Workspace) (opening : Opening) (aborted : Bool) :
    (w.listed opening aborted).teardowns = w.teardowns := by
  unfold Workspace.listed
  split
  · exact teardowns_openFailed w opening
  · rfl

theorem teardowns_created (w : Workspace) (opening : Opening) (env : Surroundings) (aborted : Bool) :
    (w.created opening env aborted).teardowns = w.teardowns := by
  unfold Workspace.created Workspace.opened
  repeat' split
  all_goals first | rfl | exact teardowns_openFailed _ _

/-- Only `openSession` itself goes past its teardown. -/
theorem leaves_step (h : Inv w) {e : WorkspaceInput} (he : e ≠ .tornDown) :
    Leaves w (w.step segmentGraphemes e) := by
  have hsame := Leaves.refl w
  cases e with
  | boot timestamp routed aborted => exact leaves_boot w timestamp routed aborted
  | navigate documentId => exact leaves_navigateToDocument w documentId
  | popState routed => exact leaves_handlePopState h routed
  | start n => exact leaves_transition w _
  | prepared n =>
    simp only [Workspace.step]
    split
    · exact hsame
    · exact leaves_transition w _
  | switched n =>
    simp only [Workspace.step]
    split
    · exact hsame
    · exact leaves_transition w _
  | closed k => exact leaves_closed w k
  | tornDown => exact absurd rfl he
  | ensured timestamp aborted =>
    refine atStage (P := Leaves w) hsame fun opening hopening hstage => ?_
    exact .of_past ⟨opening, hopening, by rw [hstage]; decide⟩ (teardowns_ensured w opening _ _)
  | listed aborted =>
    refine atStage (P := Leaves w) hsame fun opening hopening hstage => ?_
    exact .of_past ⟨opening, hopening, by rw [hstage]; decide⟩ (teardowns_listed w opening _)
  | created env aborted =>
    refine atStage (P := Leaves w) hsame fun opening hopening hstage => ?_
    exact .of_past ⟨opening, hopening, by rw [hstage]; decide⟩ (teardowns_created w opening _ _)
  | textChange value =>
    simp only [Workspace.step]
    split
    · unfold Workspace.onTextChange
      split
      · exact ⟨id, fun _ => id⟩
      · exact leaves_commitText w value false
    · exact hsame
  | compositionStart =>
    simp only [Workspace.step]
    split
    · unfold Workspace.onCompositionStart
      split <;> exact ⟨id, fun _ => id⟩
    · exact hsame
  | compositionEnd value =>
    refine Leaves.trans ?_ (leaves_commitText _ value true)
    exact ⟨id, fun _ => id⟩
  | deliver i delivery => exact leaves_deliver w i delivery
  | settle i env aborted => exact leaves_settle w i env aborted
  | create documentId timestamp =>
    simp only [Workspace.step]
    split <;> exact ⟨id, fun _ => id⟩
  | rename documentId title timestamp =>
    simp only [Workspace.step]
    split <;> exact ⟨id, fun _ => id⟩

/-- `openSession` goes past its own teardown while one that an invalid route began still runs. -/
def Overlaps (w : Workspace) (e : WorkspaceInput) : Prop :=
  e = .tornDown ∧ ∃ t ∈ w.teardowns, t.awaited = false

/-- **An opening that is past its teardown is alone.** -/
theorem past_step (h : Inv w) (hpast : Past w → w.teardowns = []) {e : WorkspaceInput}
    (hno : ¬ Overlaps w e) (hpast' : Past (w.step segmentGraphemes e)) :
    (w.step segmentGraphemes e).teardowns = [] := by
  by_cases he : e = .tornDown
  · subst he
    revert hpast'
    refine atStage (P := fun w' => Past w' → w'.teardowns = []) hpast fun opening _ _ => ?_
    unfold Workspace.tornDown
    by_cases hawaited : w.teardowns.any (·.awaited) = true
    · rw [if_pos hawaited]
      exact hpast
    · -- no teardown is awaited, and there is none that is not
      rw [if_neg hawaited]
      have hnil : w.teardowns = [] := List.eq_nil_iff_forall_not_mem.2 fun t ht => by
        cases ha : t.awaited with
        | false => exact hno ⟨rfl, t, ht, ha⟩
        | true => exact hawaited (List.any_eq_true.2 ⟨t, ht, ha⟩)
      intro _
      split <;> exact hnil
  · have hleaves := @leaves_step segmentGraphemes w h e he
    exact hleaves.teardowns hpast' (hpast (hleaves.past hpast'))

/-! ## The last session of a document -/

def documents (w : Workspace) : List JsString := w.works.map (·.documentId)

/-- No later session is one of the same document. -/
def Latest (w : Workspace) (i : ℕ) : Prop := ∀ j : ℕ, w.documents[j]? = w.documents[i]? → j ≤ i

/-- A job of a session fails after its transaction has committed. -/
def Strands (segmentGraphemes : JsString → List JsString) (w : Workspace) : WorkspaceInput → Prop
  | .settle i env false => ∃ s queued writeQueue, w.sessions[i]? = some s ∧
      s.writeQueue = queued :: writeQueue ∧
      ¬ LocalDocumentController.Settles segmentGraphemes s.controller w.db env queued.job
  | _ => False

/-- Only the last session has work left, and the last session of each document stands for what the
tables hold of it. -/
structure Handed (w : Workspace) : Prop where
  documents : ∀ work ∈ w.works, work.controller.documentId = work.documentId
  drained : ∀ i work, w.works[i]? = some work → i + 1 < w.works.length → work.writeQueue = []
  live : ∀ i work, w.works[i]? = some work → w.Latest i →
    LocalDocumentController.Live work.controller w.db
  past : Past w → w.teardowns = []

theorem Handed.start (db : Database) : Handed (start db) where
  documents work h := by cases h
  drained i work h := by cases h
  live i work h := by cases h
  past _ := rfl

theorem documents_get? {work : SessionWork} (h : w.works[i]? = some work) :
    w.documents[i]? = some work.documentId := by
  rw [documents, List.getElem?_map, h]
  rfl

theorem Latest.congr (h : w.Latest i) (hdocuments : w'.documents = w.documents) : w'.Latest i := by
  unfold Latest
  rw [hdocuments]
  exact h

theorem documents_of_modify {f : SessionWork → SessionWork} (hworks : w'.works = w.works.modify i f)
    (hf : ∀ work, (f work).documentId = work.documentId) : w'.documents = w.documents := by
  unfold Workspace.documents
  rw [hworks]
  refine List.ext_getElem? fun j => ?_
  rw [List.getElem?_map, List.getElem?_map, List.getElem?_modify]
  split
  · cases w.works[j]? with
    | none => rfl
    | some work => exact congrArg some (hf work)
  · cases w.works[j]? <;> rfl

/-- Work that is left is left for the last session. -/
theorem Handed.last (h : Handed w) {work : SessionWork} (hwork : w.works[i]? = some work)
    (hqueue : work.writeQueue ≠ []) : i + 1 = w.works.length := by
  have hi := (List.getElem?_eq_some_iff.1 hwork).1
  by_contra hne
  exact hqueue (h.drained i work hwork (by omega))

theorem latest_of (hs : w.sessions[i]? = some s)
    (h : ∀ (j : ℕ) t, w.sessions[j]? = some t → t.documentId = s.documentId → j ≤ i) : w.Latest i := by
  intro j hj
  rw [documents_get? (works_get? hs), documents, List.getElem?_map] at hj
  obtain ⟨work, hwork, hdocument⟩ := Option.map_eq_some_iff.1 hj
  obtain ⟨t, ht, rfl⟩ := works_get?_iff.1 hwork
  exact h j t ht hdocument

/-- When a session is created, every queue has drained. -/
theorem Handed.all_drained (h : Handed w) (hinv : Inv w) (hopening : w.opening = some opening)
    (hstage : opening.stage ≠ .tearingDown) {s : ActiveSession} (hs : w.sessions[i]? = some s) :
    s.writeQueue = [] := by
  have hnone := hinv.none_current hopening
  rcases (hinv.left i s hs (by rw [hnone]; exact (Option.some_ne_none i).symm)).drained with
    hnil | ⟨t, ht, -⟩
  · exact hnil
  · rw [h.past ⟨opening, hopening, hstage⟩] at ht
    cases ht

/-! ## Every step -/

theorem Handed.rests (h : Handed w) (hrests : Rests w w') (hpast : Past w' → w'.teardowns = []) :
    Handed w' where
  documents := by
    rw [hrests.works]
    exact h.documents
  drained := by
    rw [hrests.works]
    exact h.drained
  live i work hwork hlatest := by
    rw [hrests.works] at hwork
    have hdocuments : w.documents = w'.documents := by
      unfold Workspace.documents
      rw [hrests.works]
    exact (h.live i work hwork (hlatest.congr hdocuments)).sameDocument (hrests.rows _)
  past := hpast

theorem Handed.takes (h : Handed w) {queued : SessionJob} (hlast : i + 1 = w.works.length)
    (hdb : w'.db = w.db) (hworks : w'.works = w.works.modify i (.add queued))
    (hpast : Past w' → w'.teardowns = []) : Handed w' where
  documents work hwork := by
    obtain ⟨j, hj⟩ := List.mem_iff_getElem?.1 hwork
    rw [hworks, List.getElem?_modify] at hj
    obtain ⟨work', hwork', rfl⟩ := Option.map_eq_some_iff.1 hj
    have hdocument := h.documents work' (List.mem_of_getElem? hwork')
    split <;> exact hdocument
  drained j work hwork hlt := by
    rw [hworks, List.length_modify] at hlt
    rw [hworks, List.getElem?_modify_ne _ _ (by omega)] at hwork
    exact h.drained j work hwork hlt
  live j work hwork hlatest := by
    rw [hworks, List.getElem?_modify] at hwork
    obtain ⟨work', hwork', rfl⟩ := Option.map_eq_some_iff.1 hwork
    have hlive := h.live j work' hwork'
      (hlatest.congr (documents_of_modify hworks fun _ => rfl).symm)
    rw [hdb]
    split <;> exact hlive
  past := hpast

theorem Handed.settles (h : Handed w) {env : Surroundings} {aborted : Bool} {work : SessionWork}
    {queued : SessionJob} {writeQueue : List SessionJob} (hwork : w.works[i]? = some work)
    (hqueue : work.writeQueue = queued :: writeQueue)
    (hsettles : aborted = false →
      LocalDocumentController.Settles segmentGraphemes work.controller w.db env queued.job)
    (hdb : w'.db = (work.ran segmentGraphemes w.db env aborted queued.job).2.1)
    (hworks : w'.works = w.works.modify i fun work => ⟨work.documentId,
      (work.ran segmentGraphemes w.db env aborted queued.job).1, writeQueue⟩)
    (hpast : Past w' → w'.teardowns = []) : Handed w' := by
  have hlast := h.last hwork (by rw [hqueue]; exact List.cons_ne_nil _ _)
  have hdocument := h.documents work (List.mem_of_getElem? hwork)
  have hdocuments := documents_of_modify hworks fun _ => rfl
  constructor
  case documents =>
    intro work' hwork'
    obtain ⟨j, hj⟩ := List.mem_iff_getElem?.1 hwork'
    by_cases hij : i = j
    · subst hij
      rw [hworks, List.getElem?_modify_eq, hwork] at hj
      cases hj
      show (work.ran segmentGraphemes w.db env aborted queued.job).1.documentId = work.documentId
      unfold SessionWork.ran
      split
      · exact hdocument
      · rw [LocalDocumentController.runJob_documentId]
        exact hdocument
    · rw [hworks, List.getElem?_modify_ne _ _ hij] at hj
      exact h.documents work' (List.mem_of_getElem? hj)
  case drained =>
    intro j work' hwork' hlt
    rw [hworks, List.length_modify] at hlt
    rw [hworks, List.getElem?_modify_ne _ _ (by omega)] at hwork'
    exact h.drained j work' hwork' hlt
  case live =>
    intro j work' hwork' hlatest
    have hlatest := hlatest.congr hdocuments.symm
    rw [hdb]
    by_cases hij : i = j
    · subst hij
      rw [hworks, List.getElem?_modify_eq, hwork] at hwork'
      cases hwork'
      have hlive := h.live i work hwork hlatest
      unfold SessionWork.ran
      cases aborted with
      | true => exact hlive
      | false => exact LocalDocumentController.runJob_live hlive (hsettles rfl)
    · rw [hworks, List.getElem?_modify_ne _ _ hij] at hwork'
      -- the job is about another document, or this session would not be the latest
      have hother : work'.controller.documentId ≠ work.controller.documentId := by
        intro hsame
        rw [h.documents work' (List.mem_of_getElem? hwork'), hdocument] at hsame
        have hle := hlatest i (by rw [documents_get? hwork, documents_get? hwork', hsame])
        have hj := (List.getElem?_eq_some_iff.1 hwork').1
        omega
      refine (h.live j work' hwork' hlatest).sameDocument ?_
      unfold SessionWork.ran
      split
      · exact .refl _ _
      · exact LocalDocumentController.runJob_others _ _ env queued.job hother
  case past => exact hpast

theorem Handed.opens (h : Handed w) (hinv : Inv w) {env : Surroundings}
    {controller : LocalDocumentController} (hopening : w.opening = some opening)
    (hstage : opening.stage = .creating)
    (hcreate : LocalDocumentController.create w.db (createOptions opening.documentId) env =
      (.ok controller, w'.db))
    (hworks : w'.works = w.works ++ [⟨opening.documentId, controller, []⟩])
    (hpast : Past w' → w'.teardowns = []) : Handed w' := by
  obtain ⟨hlive, hdocument⟩ := LocalDocumentController.create_live hcreate
  have hrows := fun d => LocalDocumentController.create_sameDocument w.db
    (createOptions opening.documentId) env d
  rw [hcreate] at hrows
  have hget : ∀ {j work}, w'.works[j]? = some work → w.works[j]? = some work ∧ j < w.works.length ∨
      j = w.works.length ∧ work = ⟨opening.documentId, controller, []⟩ := by
    intro j work hwork
    rw [hworks] at hwork
    exact getElem?_concat hwork
  constructor
  case documents =>
    intro work hwork
    obtain ⟨j, hj⟩ := List.mem_iff_getElem?.1 hwork
    rcases hget hj with ⟨hold, -⟩ | ⟨-, rfl⟩
    · exact h.documents work (List.mem_of_getElem? hold)
    · exact hdocument
  case drained =>
    intro j work hwork _
    rcases hget hwork with ⟨hold, -⟩ | ⟨-, rfl⟩
    · obtain ⟨s, hs, rfl⟩ := works_get?_iff.1 hold
      exact h.all_drained hinv hopening (by rw [hstage]; decide) hs
    · rfl
  case live =>
    intro j work hwork hlatest
    rcases hget hwork with ⟨hold, hj⟩ | ⟨-, rfl⟩
    · have hsame : ∀ k < w.works.length, w'.documents[k]? = w.documents[k]? := by
        intro k hk
        unfold Workspace.documents
        rw [hworks, List.map_append, List.getElem?_append_left (by rwa [List.length_map])]
      have hlatest' : w.Latest j := by
        intro k hk
        rw [documents_get? hold] at hk
        have hlt := (List.getElem?_eq_some_iff.1 hk).1
        rw [Workspace.documents, List.length_map] at hlt
        exact hlatest k (by rw [hsame k hlt, hsame j hj, hk, documents_get? hold])
      exact (h.live j work hold hlatest').sameDocument (hrows _)
    · exact hlive
  case past => exact hpast

/-- **Every step keeps it**, unless it overtakes a teardown that nothing awaits, or a job fails after
its transaction has committed. -/
theorem Handed.step (h : Handed w) (hinv : Inv w) {e : WorkspaceInput} (hoverlaps : ¬ Overlaps w e)
    (hstrands : ¬ Strands segmentGraphemes w e) : Handed (w.step segmentGraphemes e) := by
  have hpast : Past (w.step segmentGraphemes e) → (w.step segmentGraphemes e).teardowns = [] :=
    past_step hinv h.past hoverlaps
  have hworks := @step_works segmentGraphemes w e
  generalize w.step segmentGraphemes e = w' at hpast hworks ⊢
  cases hworks with
  | rests hrests => exact h.rests hrests hpast
  | opens env opening controller hopening hstage hcreate hworks =>
    exact h.opens hinv hopening hstage hcreate hworks hpast
  | settles i env aborted work queued writeQueue hwork hqueue hdb hworks =>
    refine h.settles hwork hqueue ?_ hdb hworks hpast
    rintro rfl
    obtain ⟨s, hs, rfl⟩ := works_get?_iff.1 hwork
    by_contra hnot
    exact hstrands ⟨s, queued, writeQueue, hs, hqueue, hnot⟩
  | takes i queued hsession hdb hworks =>
    have hlast := (hinv.current i hsession).last
    exact h.takes (by rw [works, List.length_map]; exact hlast) hdb hworks hpast

/-- A step after which a later session would not read what an earlier one stored. -/
def Breaks (segmentGraphemes : JsString → List JsString) (w : Workspace) (e : WorkspaceInput) : Prop :=
  Overlaps w e ∨ Strands segmentGraphemes w e

theorem run_handed {db : Database} {inputs : List WorkspaceInput}
    (hnever : Runs.Never (Workspace.step segmentGraphemes) (Breaks segmentGraphemes) (start db)
      inputs) :
    Inv (run segmentGraphemes db inputs) ∧ Handed (run segmentGraphemes db inputs) := by
  refine Runs.Never.last (P := fun w => Inv w ∧ Handed w) (fun w e h hno => ?_)
    ⟨.start db, .start db⟩ hnever
  rw [Breaks, not_or] at hno
  exact ⟨h.1.step e, h.2.step h.1 hno.1 hno.2⟩

/-! ## Opening a document again -/

theorem sessions_openFailed (w : Workspace) (opening : Opening) :
    (w.openFailed opening).sessions = w.sessions := by
  unfold Workspace.openFailed
  split <;> rfl

/-- What `openSession` has done when a session is new. -/
theorem created_spec {env : Surroundings} {aborted : Bool}
    (hs' : (w.created opening env aborted).sessions[w.sessions.length]? = some s') :
    s'.documentId = opening.documentId ∧
    LocalDocumentController.create w.db (createOptions opening.documentId) env =
      (.ok s'.controller, (w.created opening env aborted).db) ∧
    (∃ snapshot, s'.controller.getSnapshot = .ok snapshot ∧
      (w.created opening env aborted).text = snapshot.text) ∧
    (w.created opening env aborted).session = some w.sessions.length := by
  have hold : ∀ {w' : Workspace}, w'.sessions = w.sessions →
      w'.sessions[w.sessions.length]? ≠ some s' := by
    intro w' hsessions hs
    have hlt := (List.getElem?_eq_some_iff.1 hs).1
    rw [hsessions] at hlt
    exact lt_irrefl _ hlt
  unfold Workspace.created at hs' ⊢
  split at hs'
  · exact absurd hs' (hold (sessions_openFailed w opening))
  · rename_i haborted
    rw [if_neg haborted]
    split at hs'
    · exact absurd hs' (hold (sessions_openFailed _ opening))
    · rename_i controller db hcreate
      unfold Workspace.opened at hs' ⊢
      split at hs'
      · rename_i hgeneration
        split at hs'
        · exact absurd hs' (hold (sessions_openFailed _ opening))
        · rename_i snapshot hsnapshot
          simp only [List.getElem?_append_right (le_refl _), Nat.sub_self,
            List.getElem?_cons_zero, Option.some.injEq] at hs'
          subst hs'
          rw [if_pos hgeneration]
          exact ⟨rfl, hcreate, ⟨snapshot, hsnapshot, rfl⟩, rfl⟩
      · exact absurd hs' (hold rfl)

/-- **A document that is opened again is as it was left.**  In every run in which no opening overtakes
the teardown of an invalid route, and no job fails after its transaction has committed: when a session
is created, the last one of the same document has closed and its write queue has drained, and the new
session knows the operations that it knew and shows the text that it had. -/
theorem reopened {db : Database} {inputs : List WorkspaceInput}
    (hnever : Runs.Never (step segmentGraphemes) (Breaks segmentGraphemes) (start db) inputs)
    (env : Surroundings) (aborted : Bool) :
    let w := run segmentGraphemes db inputs
    let w' := w.step segmentGraphemes (.created env aborted)
    ∀ i s s', w.sessions[i]? = some s → w'.sessions[w.sessions.length]? = some s' →
      s.documentId = s'.documentId →
      (∀ (j : ℕ) t, w.sessions[j]? = some t → t.documentId = s.documentId → j ≤ i) →
        w'.session = some w.sessions.length ∧ s.syncClosed = true ∧ s.writeQueue = [] ∧
        s'.controller.replica.getKnownOperationIds = s.controller.replica.getKnownOperationIds ∧
        s.controller.replica.materialize = .ok w'.text := by
  intro w w' i s s' hs hs' hdocument hlatest
  obtain ⟨hinv, hhanded⟩ : Inv w ∧ Handed w := run_handed hnever
  have hstep : w' = w.opening.elim w fun opening =>
    if opening.stage = .creating then w.created opening env aborted else w := rfl
  have hsame : w' ≠ w := by
    intro hsame
    rw [hsame] at hs'
    exact lt_irrefl _ (List.getElem?_eq_some_iff.1 hs').1
  obtain hopening | ⟨opening, hopening⟩ := Option.eq_none_or_eq_some w.opening
  · rw [hopening] at hstep
    exact absurd hstep hsame
  rw [hopening, Option.elim_some] at hstep
  by_cases hstage : opening.stage = .creating
  · rw [if_pos hstage] at hstep
    rw [hstep] at hs' ⊢
    obtain ⟨hid, hcreate, ⟨snapshot, hsnapshot, htext⟩, hsession⟩ := created_spec hs'
    have hnone := hinv.none_current hopening
    have hleft := hinv.left i s hs (by rw [hnone]; exact (Option.some_ne_none i).symm)
    have hqueue := hhanded.all_drained hinv hopening (by rw [hstage]; decide) hs
    have hlive := hhanded.live i s.work (works_get? hs) (latest_of hs hlatest)
    obtain ⟨hlive', hcontroller⟩ := LocalDocumentController.create_live hcreate
    -- creating the session has added nothing to the rows of the document
    have hrows := LocalDocumentController.create_sameDocument w.db
      (createOptions opening.documentId) env s.documentId
    rw [hcreate] at hrows
    have hsame : s.controller.documentId = s.documentId :=
      hhanded.documents s.work (List.mem_of_getElem? (works_get? hs))
    have hcontroller : s'.controller.documentId = s.documentId := by
      rw [hcontroller, hdocument, hid]
      rfl
    have hops : s'.controller.replica.ops = s.controller.replica.ops := by
      rw [hlive'.ops, hcontroller, hrows.documentOps, ← hsame]
      exact hlive.ops.symm
    have hagree := hlive'.inv.agree hlive.inv hops
    refine ⟨hsession, hleft.disconnected, hqueue, hagree.known_ids, ?_⟩
    rw [htext]
    exact hagree.materialize_eq.symm.trans (LocalDocumentController.getSnapshot_text hsnapshot).1
  · rw [if_neg hstage] at hstep
    exact absurd hstep hsame

/-- No step of a run is one that breaks it. -/
def hands (segmentGraphemes : JsString → List JsString) (w : Workspace) : WorkspaceInput → Bool
  | .tornDown => w.teardowns.all (·.awaited)
  | .settle i env false => w.sessions[i]?.all fun s => s.writeQueue.head?.all fun queued =>
      (s.controller.runJob segmentGraphemes w.db env queued.job).2.2.isOk
  | _ => true

theorem not_breaks_of_hands {e : WorkspaceInput} (h : w.hands segmentGraphemes e = true) :
    ¬ Breaks segmentGraphemes w e := by
  rintro (⟨rfl, t, ht, hawaited⟩ | hstrands)
  · have hall := List.all_eq_true.1 h t ht
    rw [hawaited] at hall
    cases hall
  · unfold Strands at hstrands
    split at hstrands
    · obtain ⟨s, queued, writeQueue, hs, hqueue, hnot⟩ := hstrands
      simp only [hands, hs, Option.all_some, hqueue, List.head?_cons] at h
      exact hnot fun _ => exists_ok_of_isOk h
    · exact hstrands

/-- What the queue and `openSession` do for a request that is the `n`-th, when nothing fails. -/
def openInputs (n : ℕ) (env : Surroundings) : List WorkspaceInput :=
  [.start n, .prepared n, .tornDown, .ensured env.now false, .listed false, .created env false,
    .switched n]

/-- A character is typed into the default document, another document is opened before it is stored,
and the default document is opened again. -/
theorem reopened_typed :
    let env : Surroundings := ⟨js "now", 0, js "A", true⟩
    let other := js "00000000-0000-4000-8000-000000000000"
    let inputs := [.boot env.now .missing false] ++ openInputs 0 env ++ [.textChange (js "a"),
      .popState (.valid other), .start 1, .prepared 1, .settle 0 env false, .closed 0] ++
      (openInputs 1 env).drop 2 ++ [.popState .missing, .start 2, .prepared 2, .closed 0, .tornDown,
        .ensured env.now false, .listed false]
    let w := run (·.map ([·])) Database.empty inputs
    let w' := w.step (·.map ([·])) (.created env false)
    ∃ s s', w.sessions[0]? = some s ∧ w'.sessions[2]? = some s' ∧ w'.session = some 2 ∧
      s'.controller.replica.getKnownOperationIds = s.controller.replica.getKnownOperationIds ∧
      s.controller.replica.materialize = .ok (js "a") := by
  intro env other inputs w w'
  have hdocuments : w.documents = [DEFAULT_DOCUMENT_ID, other] := by decide +kernel
  have hlength : w.sessions.length = 2 := by decide +kernel
  have hfirst : w.sessions[0]?.isSome = true := by decide +kernel
  have hnew : w'.sessions[2]?.map (·.documentId) = some DEFAULT_DOCUMENT_ID := by decide +kernel
  have htext : w'.text = js "a" := by decide +kernel
  have hnever : Runs.Never (step (·.map ([·]))) (Breaks (·.map ([·]))) (start .empty) inputs :=
    Runs.Never.of_allSteps (fun w e => not_breaks_of_hands) (by decide +kernel)
  obtain ⟨s, hs⟩ := Option.isSome_iff_exists.1 hfirst
  obtain ⟨s', hs', hdocument'⟩ := Option.map_eq_some_iff.1 hnew
  have hdocument : s.documentId = DEFAULT_DOCUMENT_ID := by
    have hget := documents_get? (works_get? hs)
    rw [hdocuments] at hget
    exact (Option.some.inj hget).symm
  obtain ⟨hsession, -, -, hknown, hshown⟩ := reopened hnever env false 0 s s' hs
    (by rw [hlength]; exact hs') (hdocument.trans hdocument'.symm) fun j t ht hsame => by
      have hget := documents_get? (works_get? ht)
      rw [hdocuments] at hget
      cases j with
      | zero => exact le_refl 0
      | succ j =>
        cases j with
        | zero =>
          have hother : other = s.documentId := (Option.some.inj hget).trans hsame
          rw [hdocument] at hother
          exact absurd hother (by decide)
        | succ j => cases hget
  refine ⟨s, s', hs, hs', ?_, hknown, ?_⟩
  · rw [hlength] at hsession
    exact hsession
  · rw [← htext]
    exact hshown

/-- Without the condition: the default document is left for an invalid route and opened again before
the character is stored, which then is in the tables but not in the new session. -/
example :
    let env : Surroundings := ⟨js "now", 0, js "A", true⟩
    let inputs := [.boot env.now .missing false] ++ openInputs 0 env ++ [.textChange (js "a"),
      .popState (.invalid (js "x")), .popState .missing] ++ openInputs 1 env ++ [.settle 0 env false]
    let w := run (·.map ([·])) Database.empty inputs
    w.session = some 1 ∧ w.text = [] ∧ w.db.operations.rows.size = 1 := by
  decide +kernel

end Workspace

end LocalFirst
