import LocalFirst.Client.TextArea

/-!
# What the save state says

* `App.Agrees` — the indicator, the write queue and the text of the replica agree.
* `App.Agrees.step` — every step keeps it, unless a job fails after its transaction has committed.
* `App.saved_shows` — a saved text is the replica's, and the one that a reload shows.
-/

set_option autoImplicit false

namespace LocalFirst

namespace App

variable {segmentGraphemes : JsString → List JsString} {s : App}

/-! ## The save state -/

/-- The versions of the commits on the queue, oldest first. -/
def versions (s : App) : List ℕ := s.commits.map (·.requestVersion)

/-- The commit that waits last has the latest version, and a later commit waits behind a batch of
the server that a keystroke has overtaken. -/
structure Ordered (s : App) : Prop where
  below : ∀ v ∈ s.versions, v ≤ s.requestVersion
  latest : ∀ v ∈ s.versions.getLast?, v = s.requestVersion
  sorted : s.versions.Pairwise (· < ·)
  overtaken : ∀ before items confirmed anchor v after,
    s.writeQueue = before ++ .ingest items confirmed anchor v :: after →
      v = s.requestVersion ∨ after.filterMap (·.commit?) ≠ []

/-- The indicator says whether a commit waits, and the text is that of the replica, unless a commit
waits or a composition is active. -/
structure Agrees (s : App) : Prop where
  ordered : s.Ordered
  holds : s.editor.HoldsForOne
  saving : s.saveState = .saving ↔ s.versions ≠ []
  shows : s.composing = true ∨ s.versions ≠ [] ∨ s.controller.replica.materialize = .ok s.text

/-- A job of the session fails after its transaction has committed. -/
def Strands (segmentGraphemes : JsString → List JsString) (s : App) : AppEvent → Prop
  | .settle env false => ∃ queued writeQueue, s.writeQueue = queued :: writeQueue ∧
      ¬ LocalDocumentController.Settles segmentGraphemes s.controller s.db env queued.job
  | _ => False

theorem Agrees.renderOver (h : Agrees s) (value : JsString) : Agrees (s.renderOver value) := by
  obtain ⟨rendered, selection, pendingSelection, heq⟩ := s.renderOver_frame value
  rw [heq]
  exact ⟨⟨h.ordered.below, h.ordered.latest, h.ordered.sorted, h.ordered.overtaken⟩, h.holds,
    h.saving, h.shows⟩

theorem versions_commitText (s : App) (nextText : JsString) (releases : Bool) :
    (s.commitText nextText releases).versions = s.versions ++ [s.requestVersion + 1] := by
  unfold versions
  rw [commits_commitText, List.map_append]
  rfl

theorem Ordered.commitText (h : Ordered s) (nextText : JsString) (releases : Bool) :
    Ordered (s.commitText nextText releases) := by
  have hversions := s.versions_commitText nextText releases
  constructor
  · rw [hversions]
    intro v hv
    show v ≤ s.requestVersion + 1
    rcases List.mem_append.1 hv with hv | hv
    · exact Nat.le_succ_of_le (h.below v hv)
    · exact (List.mem_singleton.1 hv).le
  · rw [hversions, List.getLast?_append]
    simp [App.commitText]
  · rw [hversions, List.pairwise_append]
    refine ⟨h.sorted, List.pairwise_singleton _ _, fun v hv w hw => ?_⟩
    rw [List.mem_singleton.1 hw]
    exact Nat.lt_succ_of_le (h.below v hv)
  · -- the commit is behind every job that was on the queue
    intro before items confirmed anchor v after heq
    right
    have heq : s.writeQueue ++ [.commit ⟨nextText, s.requestVersion + 1, releases⟩] =
      before ++ .ingest items confirmed anchor v :: after := heq
    rcases List.eq_nil_or_concat after with rfl | ⟨after, last, rfl⟩
    · obtain ⟨-, hlast⟩ := List.append_inj' heq rfl
      cases hlast
    · rw [List.concat_eq_append, ← List.cons_append, ← List.append_assoc] at heq
      obtain ⟨-, hlast⟩ := List.append_inj' heq rfl
      cases hlast
      simp [QueuedJob.commit?]

/-- A commit that is handed over waits. -/
theorem Ordered.agrees (h : Ordered s) {nextText : JsString} {releases : Bool}
    (hholds : (s.commitText nextText releases).editor.HoldsForOne) :
    Agrees (s.commitText nextText releases) := by
  have hsome : (s.commitText nextText releases).versions ≠ [] := by
    rw [versions_commitText]
    simp
  exact ⟨h.commitText nextText releases, hholds, iff_of_true rfl hsome,
    Or.inr (Or.inl hsome)⟩

/-- Jobs that are no commits come to the end of the queue, with the version of now. -/
theorem Agrees.enqueue (h : Agrees s) {added : List QueuedJob}
    (hadded : ∀ queued ∈ added, queued.commit? = none ∧
      ∀ items confirmed anchor v, queued = .ingest items confirmed anchor v → v = s.requestVersion)
    (ingestion : Option Ingestion) :
    Agrees { s with writeQueue := s.writeQueue ++ added, ingestion := ingestion } := by
  have hcommits := commits_append (s := s) fun queued hq => (hadded queued hq).1
  have hversions : versions { s with writeQueue := s.writeQueue ++ added, ingestion := ingestion } =
      s.versions := congrArg (List.map PendingCommit.requestVersion) hcommits
  have hsame : SameGate (editor { s with writeQueue := s.writeQueue ++ added
                                         ingestion := ingestion }) s.editor :=
    ⟨rfl, rfl, rfl, hcommits⟩
  refine ⟨⟨?_, ?_, ?_, ?_⟩, hsame.holdsForOne.2 h.holds, ?_, ?_⟩
  · rw [hversions]; exact h.ordered.below
  · rw [hversions]; exact h.ordered.latest
  · rw [hversions]; exact h.ordered.sorted
  · intro before items confirmed anchor v after heq
    have heq : s.writeQueue ++ added = before ++ .ingest items confirmed anchor v :: after := heq
    rcases List.append_eq_append_iff.1 heq with ⟨more, rfl, hmore⟩ | ⟨more, hqueue, hmore⟩
    · left
      have hmem : .ingest items confirmed anchor v ∈ added := by
        rw [hmore]
        simp
      exact (hadded _ hmem).2 _ _ _ _ rfl
    · cases more with
      | nil =>
        left
        have hmem : .ingest items confirmed anchor v ∈ added := by
          rw [show added = .ingest items confirmed anchor v :: after from hmore.symm]
          exact List.mem_cons_self
        exact (hadded _ hmem).2 _ _ _ _ rfl
      | cons first more =>
        cases hmore
        refine (h.ordered.overtaken before items confirmed anchor v more hqueue).imp_right
          fun hmore => ?_
        show (more ++ added).filterMap (·.commit?) ≠ []
        rw [List.filterMap_append]
        exact List.append_ne_nil_of_left_ne_nil hmore _
  · rw [hversions]; exact h.saving
  · rw [hversions]; exact h.shows

/-- What the oldest job leaves: the text of its snapshot, or the controller as it was. -/
structure Ran (s : App) (ran : LocalDocumentController × Database ×
    Except JsError LocalDocumentSnapshot) : Prop where
  inv : TextReplica.Inv ran.1.replica
  fulfilled : ∀ snapshot, ran.2.2 = .ok snapshot → ran.1.getSnapshot = .ok snapshot
  rejected : ∀ e, ran.2.2 = .error e → ran.1 = s.controller ∧ ran.2.1 = s.db

theorem runQueued_ran (hinv : TextReplica.Inv s.controller.replica) {queued : QueuedJob}
    {writeQueue : List QueuedJob} (hq : s.writeQueue = queued :: writeQueue) {env : Surroundings}
    {aborted : Bool} (hstep : ¬ s.Strands segmentGraphemes (.settle env aborted)) :
    s.Ran (s.runQueued segmentGraphemes env aborted queued.job) := by
  unfold runQueued
  cases aborted with
  | true => exact ⟨hinv, fun _ h => (by cases h), fun _ _ => ⟨rfl, rfl⟩⟩
  | false =>
    have hsettles : LocalDocumentController.Settles segmentGraphemes s.controller s.db env
        queued.job := by
      by_contra hnot
      exact hstep ⟨queued, writeQueue, hq, hnot⟩
    exact ⟨LocalDocumentController.runJob_inv hinv _ _ _,
      fun _ => LocalDocumentController.runJob_snapshot,
      fun _ => LocalDocumentController.runJob_rejected hsettles⟩

theorem versions_cons {queued : QueuedJob} {writeQueue : List QueuedJob}
    (hq : s.writeQueue = queued :: writeQueue) : s.versions =
      queued.commit?.toList.map (·.requestVersion) ++
        (writeQueue.filterMap (·.commit?)).map (·.requestVersion) := by
  unfold versions
  rw [commits_cons hq, List.map_append]

/-- The oldest job leaves the queue. -/
theorem Ordered.pop (h : Ordered s) {queued : QueuedJob} {writeQueue : List QueuedJob}
    (hq : s.writeQueue = queued :: writeQueue) {s' : App} (hq' : s'.writeQueue = writeQueue)
    (hversion : s'.requestVersion = s.requestVersion) : Ordered s' := by
  have hversions : s.versions = queued.commit?.toList.map (·.requestVersion) ++ s'.versions := by
    rw [versions_cons hq, ← hq']
    rfl
  have hbelow := h.below
  have hlatest := h.latest
  have hsorted := h.sorted
  rw [hversions] at hbelow hlatest hsorted
  constructor
  · intro v hv
    rw [hversion]
    exact hbelow v (List.mem_append_right _ hv)
  · intro v hv
    rw [hversion]
    refine hlatest v ?_
    rw [List.getLast?_append, hv]
    rfl
  · exact (List.pairwise_append.1 hsorted).2.1
  · intro before items confirmed anchor v after heq
    rw [hversion]
    exact h.overtaken (queued :: before) items confirmed anchor v after
      (by rw [hq, ← hq', heq]; rfl)

/-- The latest commit shows the text of the replica, whether or not it is fulfilled. -/
theorem commitSettled_latest (hinv : TextReplica.Inv s.controller.replica)
    {outcome : Except JsError LocalDocumentSnapshot}
    (hout : ∀ snapshot, outcome = .ok snapshot → s.controller.getSnapshot = .ok snapshot)
    {pending : PendingCommit} (hcurrent : pending.requestVersion = s.requestVersion) :
    (s.commitSettled pending outcome).saveState ≠ .saving ∧
      s.controller.replica.materialize = .ok (s.commitSettled pending outcome).text := by
  unfold commitSettled
  simp only [ne_eq, hcurrent, not_true, if_false]
  cases outcome with
  | ok snapshot =>
    exact ⟨SaveState.noConfusion, (LocalDocumentController.getSnapshot_text (hout _ rfl)).1⟩
  | error e =>
    obtain ⟨snapshot, hsnapshot⟩ := LocalDocumentController.getSnapshot_ok hinv
    simp only [hsnapshot]
    exact ⟨SaveState.noConfusion, (LocalDocumentController.getSnapshot_text hsnapshot).1⟩

/-- An earlier one shows nothing. -/
theorem commitSettled_stale {outcome : Except JsError LocalDocumentSnapshot}
    {pending : PendingCommit} (hstale : pending.requestVersion ≠ s.requestVersion) :
    (s.commitSettled pending outcome).saveState = s.saveState ∧
      (s.commitSettled pending outcome).text = s.text := by
  unfold commitSettled
  simp only [ne_eq, hstale, not_false_eq_true, if_true, and_self]

/-- Operations of the server show the text of the replica unless a keystroke has overtaken them. -/
theorem operationsApplied_text {outcome : Except JsError LocalDocumentSnapshot}
    (anchor : Option SelectionAnchor) (editVersion : ℕ) :
    (s.operationsApplied anchor editVersion outcome).text =
      outcome.toOption.elim s.text fun snapshot =>
        if s.requestVersion = editVersion then snapshot.text else s.text := by
  unfold operationsApplied
  cases outcome with
  | error e => rfl
  | ok snapshot =>
    show _ = if s.requestVersion = editVersion then snapshot.text else s.text
    by_cases h : s.requestVersion = editVersion
    · simp only [ne_eq, h, not_true, if_false, if_true]
    · simp only [ne_eq, h, not_false_eq_true, if_true, if_false]

theorem snapshotInstalled_text {outcome : Except JsError LocalDocumentSnapshot} :
    (s.snapshotInstalled outcome).text =
      outcome.toOption.elim s.text (·.text) := by
  cases outcome <;> rfl

theorem Agrees.settle (h : Agrees s) (hinv : TextReplica.Inv s.controller.replica)
    {env : Surroundings} {aborted : Bool}
    (hstep : ¬ s.Strands segmentGraphemes (.settle env aborted)) :
    Agrees (s.settle segmentGraphemes env aborted) := by
  cases hq : s.writeQueue with
  | nil =>
    unfold App.settle
    rw [hq]
    exact h
  | cons queued writeQueue =>
    have hholds : (s.settle segmentGraphemes env aborted).editor.HoldsForOne :=
      holdsForOne_step (.settle env aborted) h.holds
    have hran := runQueued_ran hinv hq hstep
    have hversions := versions_cons hq
    rw [settle_cons hq] at hholds ⊢
    generalize s.runQueued segmentGraphemes env aborted queued.job = ran at hran hholds
    obtain ⟨text, pendingSelection, saveState, ingestion, heq⟩ :=
      (s.afterJob ran writeQueue).continuation_frame ran.2.2 queued
    have hordered : Ordered ((s.afterJob ran writeQueue).continuation ran.2.2 queued) :=
      h.ordered.pop hq (by rw [heq]; rfl) (by rw [heq]; rfl)
    have hleft : ((s.afterJob ran writeQueue).continuation ran.2.2 queued).versions =
        (writeQueue.filterMap (·.commit?)).map (·.requestVersion) := by
      rw [heq]
      rfl
    -- a job that is rejected leaves the text and the replica together
    have hsame : ∀ e, ran.2.2 = .error e → s.versions = (writeQueue.filterMap (·.commit?)).map
        (·.requestVersion) → s.composing = true ∨ (writeQueue.filterMap (·.commit?)).map
          (·.requestVersion) ≠ [] ∨ ran.1.replica.materialize = .ok s.text := by
      intro e hout hvs
      rw [(hran.rejected e hout).1, ← hvs]
      exact h.shows
    generalize hvs : (writeQueue.filterMap (·.commit?)).map (·.requestVersion) = vs at *
    have hrest : ((s.afterJob ran writeQueue).continuation ran.2.2 queued).composing = s.composing ∧
        ((s.afterJob ran writeQueue).continuation ran.2.2 queued).controller = ran.1 := by
      rw [heq]
      exact ⟨rfl, rfl⟩
    suffices htold : (((s.afterJob ran writeQueue).continuation ran.2.2 queued).saveState = .saving ↔
        vs ≠ []) ∧ (s.composing = true ∨ vs ≠ [] ∨ ran.1.replica.materialize =
          .ok ((s.afterJob ran writeQueue).continuation ran.2.2 queued).text) by
      refine ⟨hordered, hholds, ?_, ?_⟩
      · rw [hleft]; exact htold.1
      · rw [hleft, hrest.1, hrest.2]; exact htold.2
    cases queued with
    | commit pending =>
      have hversions : s.versions = pending.requestVersion :: vs := hversions
      have hsaving : s.saveState = .saving := h.saving.2 (by rw [hversions]; simp)
      by_cases hcurrent : pending.requestVersion = s.requestVersion
      · -- no later commit waits
        have hnone : vs = [] := by
          refine List.eq_nil_iff_forall_not_mem.2 fun v hv => ?_
          have hsorted := h.ordered.sorted
          have hle := h.ordered.below v
          rw [hversions] at hsorted hle
          have := List.rel_of_pairwise_cons hsorted hv
          have := hle (List.mem_cons_of_mem _ hv)
          omega
        obtain ⟨hsaved, htext⟩ := commitSettled_latest (s := s.afterJob ran writeQueue) hran.inv
          hran.fulfilled hcurrent
        exact ⟨iff_of_false hsaved fun hne => hne hnone, Or.inr (Or.inr htext)⟩
      · have hsome : vs ≠ [] := by
          rintro rfl
          have hlatest := h.ordered.latest
          rw [hversions] at hlatest
          exact hcurrent (hlatest _ rfl)
        have hstale := @commitSettled_stale (s.afterJob ran writeQueue) ran.2.2 _ hcurrent
        exact ⟨iff_of_true (hstale.1.trans hsaving) hsome, Or.inr (Or.inl hsome)⟩
    | ingest items confirmed anchor editVersion =>
      have hversions : s.versions = vs := hversions
      have hsaving := h.saving
      rw [hversions] at hsaving
      refine ⟨by rw [saveState_continuation _ _ rfl]; exact hsaving, ?_⟩
      show _ ∨ _ ∨ _ = Except.ok ((s.afterJob ran writeQueue).operationsApplied anchor editVersion
        ran.2.2).text
      rw [operationsApplied_text]
      cases hout : ran.2.2 with
      | error e => exact hsame e hout hversions
      | ok snapshot =>
        show _ ∨ _ ∨ _ = Except.ok (if s.requestVersion = editVersion then _ else _)
        split
        · exact Or.inr (Or.inr (LocalDocumentController.getSnapshot_text (hran.fulfilled _ hout)).1)
        · rename_i hne
          have hmore := (h.ordered.overtaken [] items confirmed anchor editVersion writeQueue
            hq).resolve_left (Ne.symm hne)
          right
          left
          rw [← hvs]
          simpa using hmore
    | install bootstrap items confirmed =>
      have hversions : s.versions = vs := hversions
      have hsaving := h.saving
      rw [hversions] at hsaving
      refine ⟨by rw [saveState_continuation _ _ rfl]; exact hsaving, ?_⟩
      show _ ∨ _ ∨ _ = Except.ok ((s.afterJob ran writeQueue).snapshotInstalled ran.2.2).text
      rw [snapshotInstalled_text]
      cases hout : ran.2.2 with
      | error e => exact hsame e hout hversions
      | ok snapshot =>
        exact Or.inr (Or.inr (LocalDocumentController.getSnapshot_text (hran.fulfilled _ hout)).1)

/-- Every step keeps what the text area says, unless a job fails after its transaction. -/
theorem Agrees.step (h : Agrees s) (hinv : TextReplica.Inv s.controller.replica) (e : AppEvent)
    (hstep : ¬ s.Strands segmentGraphemes e) : Agrees (s.step segmentGraphemes e) := by
  have hholds : (s.step segmentGraphemes e).editor.HoldsForOne := holdsForOne_step e h.holds
  have hordered : ∀ selection composing,
      Ordered { s with selection := selection, composing := composing } := fun _ _ =>
    ⟨h.ordered.below, h.ordered.latest, h.ordered.sorted, h.ordered.overtaken⟩
  cases e with
  | textChange value selection =>
    show Agrees (App.renderOver _ value)
    refine Agrees.renderOver ?_ value
    have hholds := (renderOver_sameGate _ value).holdsForOne.1 hholds
    cases hheld : s.composing || s.compositionGate.isHolding with
    | true =>
      simp only [hheld, if_true] at hholds ⊢
      refine ⟨⟨h.ordered.below, h.ordered.latest, h.ordered.sorted, h.ordered.overtaken⟩, hholds,
        h.saving, ?_⟩
      rcases Bool.or_eq_true_iff.1 hheld with hcomposing | hgate
      · exact Or.inl hcomposing
      · rcases h.holds hgate with hcomposing | ⟨commit, hcommit, -⟩
        · exact Or.inl hcomposing
        · exact Or.inr (Or.inl (List.ne_nil_of_mem (List.mem_map_of_mem hcommit)))
    | false =>
      simp only [hheld, Bool.false_eq_true, if_false] at hholds ⊢
      exact (hordered selection s.composing).agrees hholds
  | compositionStart =>
    exact ⟨⟨h.ordered.below, h.ordered.latest, h.ordered.sorted, h.ordered.overtaken⟩, hholds,
      h.saving, Or.inl rfl⟩
  | compositionEnd value selection =>
    show Agrees (App.renderOver _ value)
    exact Agrees.renderOver ((hordered selection false).agrees
      ((renderOver_sameGate _ value).holdsForOne.1 hholds)) value
  | select selection => exact ⟨hordered selection s.composing, h.holds, h.saving, h.shows⟩
  | focus focused =>
    exact ⟨⟨h.ordered.below, h.ordered.latest, h.ordered.sorted, h.ordered.overtaken⟩, h.holds,
      h.saving, h.shows⟩
  | deliver delivery =>
    obtain ⟨added, ingestion, heq, hadded⟩ := s.deliver_frame delivery
    show Agrees (s.deliver delivery)
    rw [heq]
    refine h.enqueue (fun queued hq => ?_) ingestion
    obtain ⟨bootstrap, items, confirmed, rfl⟩ := hadded queued hq
    exact ⟨rfl, fun _ _ _ _ heq => by cases heq⟩
  | resume =>
    obtain ⟨added, ingestion, heq, hadded⟩ := s.resume_frame
    show Agrees s.resume
    rw [heq]
    refine h.enqueue (fun queued hq => ?_) ingestion
    rcases hadded queued hq with ⟨bootstrap, items, confirmed, rfl⟩ | ⟨items, confirmed, anchor, rfl⟩
    · exact ⟨rfl, fun _ _ _ _ heq => by cases heq⟩
    · exact ⟨rfl, fun _ _ _ _ heq => by cases heq; rfl⟩
  | settle env aborted => exact h.settle hinv hstep
  | render => exact h.renderOver s.rendered

theorem rendered_render (s : App) : s.render.rendered = s.text := by
  unfold render renderOver
  split
  · rename_i hsame
    exact hsame
  · obtain ⟨selection, pendingSelection, heq⟩ := layoutEffect_frame { s with
      rendered := s.text
      selection := caretAtEnd s.text }
    rw [heq]

/-- A session whose replica stands for its tables. -/
structure Session (documentId : JsString) (s : App) : Prop where
  live : s.controller.Live s.db
  document : s.controller.documentId = documentId

/-- Only the write queue touches the controller and the tables. -/
theorem step_tables (s : App) (e : AppEvent) :
    ((s.step segmentGraphemes e).controller = s.controller ∧
      (s.step segmentGraphemes e).db = s.db) ∨
    ∃ env queued writeQueue, e = .settle env false ∧ s.writeQueue = queued :: writeQueue ∧
      (s.step segmentGraphemes e).controller =
        (s.controller.runJob segmentGraphemes s.db env queued.job).1 ∧
      (s.step segmentGraphemes e).db =
        (s.controller.runJob segmentGraphemes s.db env queued.job).2.1 := by
  have hrender : ∀ (t : App) value, (t.renderOver value).controller = t.controller ∧
      (t.renderOver value).db = t.db := by
    intro t value
    obtain ⟨rendered, selection, pendingSelection, heq⟩ := t.renderOver_frame value
    rw [heq]
    exact ⟨rfl, rfl⟩
  cases e with
  | textChange value selection =>
    left
    show (App.renderOver _ value).controller = _ ∧ (App.renderOver _ value).db = _
    rw [(hrender _ value).1, (hrender _ value).2]
    split <;> exact ⟨rfl, rfl⟩
  | compositionStart => exact Or.inl ⟨rfl, rfl⟩
  | compositionEnd value selection => exact Or.inl (hrender _ value)
  | select selection => exact Or.inl ⟨rfl, rfl⟩
  | focus focused => exact Or.inl ⟨rfl, rfl⟩
  | deliver delivery =>
    obtain ⟨added, ingestion, heq, -⟩ := s.deliver_frame delivery
    left
    show (s.deliver delivery).controller = _ ∧ (s.deliver delivery).db = _
    rw [heq]
    exact ⟨rfl, rfl⟩
  | resume =>
    obtain ⟨added, ingestion, heq, -⟩ := s.resume_frame
    left
    show s.resume.controller = _ ∧ s.resume.db = _
    rw [heq]
    exact ⟨rfl, rfl⟩
  | settle env aborted =>
    show ((s.settle segmentGraphemes env aborted).controller = _ ∧
      (s.settle segmentGraphemes env aborted).db = _) ∨ _
    cases hq : s.writeQueue with
    | nil =>
      left
      unfold App.settle
      rw [hq]
      exact ⟨rfl, rfl⟩
    | cons queued writeQueue =>
      have hsettle := @settle_cons segmentGraphemes s queued writeQueue hq env aborted
      obtain ⟨text, pendingSelection, saveState, ingestion, heq⟩ := continuation_frame
        (s.afterJob (s.runQueued segmentGraphemes env aborted queued.job) writeQueue)
        (s.runQueued segmentGraphemes env aborted queued.job).2.2 queued
      rw [heq] at hsettle
      cases aborted with
      | true =>
        left
        rw [hsettle]
        exact ⟨rfl, rfl⟩
      | false =>
        refine Or.inr ⟨env, queued, writeQueue, rfl, rfl, ?_⟩
        show (s.settle segmentGraphemes env false).controller = _ ∧
          (s.settle segmentGraphemes env false).db = _
        rw [hsettle]
        exact ⟨rfl, rfl⟩
  | render => exact Or.inl (hrender _ _)

theorem Session.step {documentId : JsString} (h : Session documentId s) (e : AppEvent)
    (hstep : ¬ s.Strands segmentGraphemes e) :
    Session documentId (s.step segmentGraphemes e) := by
  rcases @step_tables segmentGraphemes s e with
    ⟨hc, hdb⟩ | ⟨env, queued, writeQueue, rfl, hq, hc, hdb⟩
  · constructor
    · rw [hc, hdb]
      exact h.live
    · rw [hc]
      exact h.document
  · have hsettles : LocalDocumentController.Settles segmentGraphemes s.controller s.db env
        queued.job := by
      by_contra hnot
      exact hstep ⟨queued, writeQueue, hq, hnot⟩
    constructor
    · rw [hc, hdb]
      exact LocalDocumentController.runJob_live h.live hsettles
    · rw [hc, LocalDocumentController.runJob_documentId]
      exact h.document

theorem Agrees.opened {c : LocalDocumentController} {text : JsString}
    (htext : c.replica.materialize = .ok text) (db : Database) (requestVersion : ℕ) :
    Agrees (App.opened c db text requestVersion) :=
  ⟨⟨fun _ h => (by cases h), fun _ h => (by cases h), List.Pairwise.nil,
    fun before _ _ _ _ _ h => by cases before <;> cases h⟩, fun h => (by cases h),
    iff_of_false SaveState.noConfusion fun h => h rfl, Or.inr (Or.inr htext)⟩

theorem Agrees.text (h : Agrees s) (hsaved : s.saveState ≠ .saving) (hcomposing : s.composing = false) :
    s.controller.replica.materialize = .ok s.text := by
  rcases h.shows with hc | hwaits | hshows
  · rw [hcomposing] at hc
    cases hc
  · exact absurd (h.saving.2 hwaits) hsaved
  · exact hshows

theorem run_agrees {db₀ db₁ : Database} {options : LocalDocumentControllerOptions}
    {env : Surroundings} {c : LocalDocumentController} {text : JsString}
    (hcreate : LocalDocumentController.create db₀ options env = (.ok c, db₁))
    (htext : c.replica.materialize = .ok text) (requestVersion : ℕ) {events : List AppEvent}
    (hnever : Runs.Never (App.step segmentGraphemes) (Strands segmentGraphemes)
      (App.opened c db₁ text requestVersion) events) :
    let s := Runs.run (App.step segmentGraphemes) (App.opened c db₁ text requestVersion) events
    Agrees s ∧ Session c.documentId s := by
  refine Runs.Never.last (P := fun s => Agrees s ∧ Session c.documentId s) (fun s e h hstep => ?_)
    ⟨Agrees.opened htext db₁ requestVersion, (LocalDocumentController.create_live hcreate).1, rfl⟩
    hnever
  exact ⟨h.1.step h.2.live.inv e hstep, h.2.step e hstep⟩

/-- **Saved means saved.**  In every run of a session in which no job fails after its transaction
has committed, whatever the user types and composes and the server sends in between: the indicator
says `saving` exactly while a commit waits; and when it does not and no composition is active, the
text area shows the text of the live replica once it is rendered, and a page that is opened on the
tables then shows the same text, unless something is unresolved. -/
theorem saved_shows {db₀ db₁ : Database} {options : LocalDocumentControllerOptions}
    {env : Surroundings} {c : LocalDocumentController} {text : JsString}
    (hcreate : LocalDocumentController.create db₀ options env = (.ok c, db₁))
    (htext : c.replica.materialize = .ok text) (requestVersion : ℕ) {events : List AppEvent}
    (hnever : Runs.Never (step segmentGraphemes) (Strands segmentGraphemes)
      (opened c db₁ text requestVersion) events) :
    let s := Runs.run (step segmentGraphemes) (opened c db₁ text requestVersion) events
    (s.saveState = .saving ↔ s.commits ≠ []) ∧
    (s.saveState ≠ .saving → s.composing = false →
      s.controller.replica.materialize = .ok s.text ∧ s.render.rendered = s.text ∧
      (s.controller.replica.getUnresolvedOperationIds = [] → ∀ options' env' interval,
        options'.documentId = options.documentId →
        resolveSnapshotInterval options'.snapshotInterval = .ok interval →
          ∃ c' db', LocalDocumentController.create s.db options' env' = (.ok c', db') ∧
            c'.replica.materialize = .ok s.text)) := by
  intro s
  have hdocument := (LocalDocumentController.create_live hcreate).2
  obtain ⟨hagrees, hsession⟩ := run_agrees hcreate htext requestVersion hnever
  have hversions : s.versions ≠ [] ↔ s.commits ≠ [] := by
    unfold versions
    rw [ne_eq, List.map_eq_nil_iff]
  refine ⟨hagrees.saving.trans hversions, fun hsaved hcomposing => ?_⟩
  have hshows := hagrees.text hsaved hcomposing
  refine ⟨hshows, s.rendered_render, fun hresolved options' env' interval hid hinterval => ?_⟩
  obtain ⟨c', db', hc', hinv', hops'⟩ := @LocalDocumentController.create_ok s.db options' env'
    c.documentId interval s.controller.replica hinterval (by rw [hid, hdocument]) hsession.live.inv
    (by rw [hsession.live.ops, hsession.document])
    (by rw [← hsession.document]; exact hsession.live.baseline) hresolved
  refine ⟨c', db', hc', ?_⟩
  rw [(hinv'.agree hsession.live.inv hops').materialize_eq]
  exact hshows

/-- Every job of a run is fulfilled. -/
def fulfils (segmentGraphemes : JsString → List JsString) (s : App) : AppEvent → Bool
  | .settle env false => s.writeQueue.head?.all fun queued =>
      (s.controller.runJob segmentGraphemes s.db env queued.job).2.2.isOk
  | _ => true

theorem not_strands_of_fulfils {e : AppEvent} (h : s.fulfils segmentGraphemes e = true) :
    ¬ s.Strands segmentGraphemes e := by
  unfold fulfils at h
  unfold Strands
  split
  · rintro ⟨queued, writeQueue, hq, hnot⟩
    simp only [hq, List.head?_cons, Option.all_some] at h
    exact hnot fun _ => exists_ok_of_isOk h
  · exact id

/-- A character is typed and saved, and a character of the server lands after it. -/
theorem saved_shows_typed :
    let env : Surroundings := ⟨js "now", 0, js "A", true⟩
    let options : LocalDocumentControllerOptions := ⟨some (js "d"), none, none⟩
    let events : List AppEvent := [.focus true, .textChange (js "a") ⟨1, 1, .none⟩,
      .settle env false, .deliver (.operations [⟨1, .insert ⟨js "B:1", js "B", 1, 1, ROOT_ID,
        js "b"⟩⟩] 1), .resume, .settle env false]
    ∃ c db, LocalDocumentController.create .empty options env = (.ok c, db) ∧
      let s := Runs.run (step (·.map ([·]))) (opened c db [] 0) events
      s.saveState = .saved ∧ ∃ c' db', LocalDocumentController.create s.db options env =
        (.ok c', db') ∧ c'.replica.materialize = .ok (js "ab") := by
  intro env options events
  have hcreate : LocalDocumentController.create .empty options env = (.ok _, _) := rfl
  refine ⟨_, _, hcreate, ?_⟩
  intro s
  have hshows := (@saved_shows (·.map ([·])) _ _ _ _ _ [] hcreate (by decide +kernel) 0 events
    (Runs.Never.of_allSteps (fun s e => not_strands_of_fulfils) (by decide +kernel))).2
  have hs : s = Runs.run (step (·.map ([·]))) (opened _ _ [] 0) events := rfl
  rw [← hs] at hshows
  clear_value s
  have hsaved : s.saveState = .saved := by rw [hs]; decide +kernel
  have hcomposing : s.composing = false := by rw [hs]; decide +kernel
  have hresolved : s.controller.replica.getUnresolvedOperationIds = [] := by rw [hs]; decide +kernel
  have htext : s.text = js "ab" := by rw [hs]; decide +kernel
  obtain ⟨c', db', hc', hmaterialize⟩ := (hshows (by rw [hsaved]; exact SaveState.noConfusion)
    hcomposing).2.2 hresolved options env 1000 rfl rfl
  exact ⟨hsaved, c', db', hc', htext ▸ hmaterialize⟩

end App

end LocalFirst
