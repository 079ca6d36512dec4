import LocalFirst.Client.TextArea

/-!
# What lands in a composition

* `App.Passed` — a handler that the gate does not hold any more.
* `App.InFlight` — at most one job of the server is on the write queue.
* `App.passed_step` — while the gate holds, no handler gets past it.
* `App.composition_admits` — at most one batch lands in a composition, and only one that was past
  the gate before.
-/

set_option autoImplicit false

namespace LocalFirst

namespace App

variable {segmentGraphemes : JsString → List JsString} {s : App}

/-- The handler of a delivery does not wait for the gate any more. -/
def Passed (s : App) : Prop :=
  match s.ingestion with
  | none => False
  | some (.held _ promise) => s.compositionGate.commitComplete ≠ some promise
  | some _ => True

/-- The job of the server that an event settles. -/
def landing (s : App) : AppEvent → Option QueuedJob
  | .settle _ _ => s.writeQueue.head?.filter (·.commit?.isNone)
  | _ => none

/-- The event opens the gate too early, as in a session without the server. -/
def OpensEarly (s : App) (e : AppEvent) : Prop := ∃ e', s.editorEvent e = some e' ∧
  s.editor.OpensEarly e'

/-- A handler whose job is on the queue waits for it, and no other job of the server is there. -/
def InFlight (s : App) : Prop :=
  (s.writeQueue.filter (·.commit?.isNone) = [] ∧ s.ingestion ≠ some .applying) ∨
    (∃ queued, s.writeQueue.filter (·.commit?.isNone) = [queued]) ∧ s.ingestion = some .applying

theorem InFlight.ingest (h : s.writeQueue.filter (·.commit?.isNone) = []) (delivery : ServerDelivery) :
    InFlight (s.ingest delivery) := by
  cases delivery with
  | operations items confirmed => exact Or.inl ⟨h, fun h => by cases h⟩
  | snapshot bootstrap items confirmed =>
    refine Or.inr ⟨⟨.install bootstrap items confirmed, ?_⟩, rfl⟩
    show (s.writeQueue ++ _).filter (·.commit?.isNone) = _
    rw [List.filter_append, h]
    rfl

theorem afterJob_applying (ingestion : Option Ingestion) :
    ingestionAfterJob ingestion = some .applying ↔ ingestion = some .applying := by
  unfold ingestionAfterJob
  split
  · exact iff_of_false (fun h => by cases h) fun h => by cases h
  · exact Iff.rfl

theorem InFlight.step (h : InFlight s) (e : AppEvent) : InFlight (s.step segmentGraphemes e) := by
  have hrender : ∀ {t : App} value, InFlight t → InFlight (t.renderOver value) := by
    intro t value ht
    obtain ⟨rendered, selection, pendingSelection, heq⟩ := t.renderOver_frame value
    rw [heq]
    exact ht
  have hcommit : ∀ {t : App} nextText releases, InFlight t →
      InFlight (t.commitText nextText releases) := by
    intro t nextText releases ht
    have hqueue : (t.commitText nextText releases).writeQueue.filter (·.commit?.isNone) =
        t.writeQueue.filter (·.commit?.isNone) := by
      show (t.writeQueue ++ _).filter (·.commit?.isNone) = _
      rw [List.filter_append]
      exact List.append_nil _
    unfold InFlight
    rw [hqueue]
    exact ht
  cases e with
  | textChange value selection =>
    refine hrender value ?_
    split
    · exact h
    · exact hcommit value false h
  | compositionStart => exact h
  | compositionEnd value selection => exact hrender value (hcommit value true h)
  | select selection => exact h
  | focus focused => exact h
  | deliver delivery =>
    show InFlight (s.deliver delivery)
    unfold deliver
    split
    · exact h
    · rename_i hidle
      have hnone : s.writeQueue.filter (·.commit?.isNone) = [] :=
        (h.resolve_right fun hflying => hidle (by rw [hflying.2]; rfl)).1
      split
      · split
        · exact Or.inl ⟨hnone, fun h => by cases h⟩
        · exact ingest hnone delivery
      · exact ingest hnone delivery
  | resume =>
    show InFlight s.resume
    unfold resume
    split
    · rename_i delivery promise hheld
      have hnone := (h.resolve_right fun hflying => by
        rw [hheld] at hflying
        cases hflying.2).1
      split
      · exact h
      · exact ingest hnone delivery
    · rename_i items confirmed hbehind
      have hnone := (h.resolve_right fun hflying => by
        rw [hbehind] at hflying
        cases hflying.2).1
      unfold applyOperations
      split
      · exact Or.inl ⟨hnone, fun h => by cases h⟩
      · rename_i anchor hcaptured
        refine Or.inr ⟨⟨.ingest items confirmed anchor s.requestVersion, ?_⟩, rfl⟩
        show (s.writeQueue ++ _).filter (·.commit?.isNone) = _
        rw [List.filter_append, hnone]
        rfl
    · exact h
  | settle env aborted =>
    show InFlight (s.settle segmentGraphemes env aborted)
    cases hq : s.writeQueue with
    | nil =>
      unfold App.settle
      rw [hq]
      exact h
    | cons queued writeQueue =>
      obtain ⟨hqueue, hingestion, -⟩ :=
        @settle_spec segmentGraphemes s queued writeQueue hq env aborted
      unfold InFlight at h ⊢
      rw [hqueue, hingestion]
      rw [hq] at h
      cases hserver : queued.commit?.isNone with
      | true =>
        simp only [List.filter_cons, hserver, if_true] at h
        obtain ⟨⟨only, honly⟩, -⟩ := h.resolve_left fun hempty => by cases hempty.1
        exact Or.inl ⟨(List.cons.inj honly).2, fun h => by cases h⟩
      | false =>
        simp only [List.filter_cons, hserver, Bool.false_eq_true, if_false, ne_eq,
          afterJob_applying] at h ⊢
        exact h
  | render => exact hrender s.rendered h

/-- While the gate holds, no handler gets past it, and the job of one that got past it lands once. -/
theorem passed_step {e : AppEvent} (hholds : s.compositionGate.isHolding = true)
    (hholds' : (s.step segmentGraphemes e).compositionGate.isHolding = true)
    (h : (s.step segmentGraphemes e).Passed) : s.Passed ∧ s.landing e = none := by
  have hrender : ∀ {t : App} {value}, (t.renderOver value).Passed → t.Passed := by
    intro t value ht
    obtain ⟨rendered, selection, pendingSelection, heq⟩ := t.renderOver_frame value
    rwa [heq] at ht
  cases e with
  | textChange value selection =>
    have h := hrender h
    split at h <;> exact ⟨h, rfl⟩
  | compositionStart =>
    have hbegin : s.compositionGate.begin = s.compositionGate := by
      unfold CompositionGate.begin
      rw [if_pos (show s.compositionGate.commitComplete.isSome = true from hholds)]
    have h : Passed { s with composing := true, compositionGate := s.compositionGate.begin } := h
    rw [hbegin] at h
    exact ⟨h, rfl⟩
  | compositionEnd value selection =>
    have h := hrender h
    exact ⟨h, rfl⟩
  | select selection => exact ⟨h, rfl⟩
  | focus focused => exact ⟨h, rfl⟩
  | deliver delivery =>
    have h : (s.deliver delivery).Passed := h
    unfold deliver at h
    split at h
    · exact ⟨h, rfl⟩
    · split at h
      · rename_i promise hpromise
        exact absurd hpromise h
      · rename_i hnone
        exact absurd hnone (Option.isSome_iff_ne_none.1 hholds)
  | resume =>
    have h : s.resume.Passed := h
    refine ⟨?_, rfl⟩
    unfold resume at h
    split at h
    · rename_i delivery promise hheld
      split at h
      · exact h
      · rename_i hopen
        unfold Passed
        rw [hheld]
        exact hopen
    · rename_i items confirmed hbehind
      unfold Passed
      rw [hbehind]
      trivial
    · exact h
  | settle env aborted =>
    have h : (s.settle segmentGraphemes env aborted).Passed := h
    have hholds' : (s.settle segmentGraphemes env aborted).compositionGate.isHolding = true :=
      hholds'
    unfold landing
    cases hq : s.writeQueue with
    | nil =>
      unfold App.settle at h
      rw [hq] at h
      exact ⟨h, rfl⟩
    | cons queued writeQueue =>
      obtain ⟨-, hingestion, hgate⟩ :=
        @settle_spec segmentGraphemes s queued writeQueue hq env aborted
      rw [hgate] at hholds'
      unfold Passed at h ⊢
      rw [hingestion, hgate] at h
      cases hreleases : queued.releases with
      | true =>
        rw [hreleases] at hholds'
        cases hholds'
      | false =>
        cases hserver : queued.commit?.isNone with
        | true =>
          rw [hserver] at h
          exact h.elim
        | false =>
          simp only [hserver, hreleases, Bool.false_eq_true, if_false] at h
          refine ⟨?_, by simp [Option.filter, hserver]⟩
          unfold ingestionAfterJob at h
          revert h
          cases s.ingestion with
          | none => exact id
          | some ingestion =>
            cases ingestion with
            | held delivery promise => exact id
            | behind items confirmed jobs => exact fun _ => trivial
            | applying => exact id
  | render => exact ⟨hrender h, rfl⟩

theorem InFlight.passed (h : InFlight s) {e : AppEvent} (hlands : s.landing e ≠ none) :
    s.Passed := by
  cases e with
  | settle env aborted =>
    unfold landing at hlands
    cases hq : s.writeQueue with
    | nil =>
      rw [hq] at hlands
      exact absurd rfl hlands
    | cons queued writeQueue =>
      cases hserver : queued.commit?.isNone with
      | false => simp [hq, Option.filter, hserver] at hlands
      | true =>
        have happlying := (h.resolve_left fun hempty => by
          have hempty := hempty.1
          rw [hq] at hempty
          simp only [List.filter_cons, hserver, if_true] at hempty
          cases hempty).2
        unfold Passed
        rw [happlying]
        trivial
  | _ => exact absurd rfl hlands

/-- What lands while the gate holds. -/
theorem landings_held : ∀ {s : App} {events : List AppEvent}, InFlight s →
    Runs.Always (step segmentGraphemes) (·.compositionGate.isHolding = true) s events →
      (Runs.labels (step segmentGraphemes) landing s events).length ≤ 1 ∧
        (Runs.labels (step segmentGraphemes) landing s events ≠ [] → s.Passed)
  | _, [], _, _ => ⟨Nat.zero_le 1, fun h => absurd rfl h⟩
  | s, e :: events, h, hholds => by
    obtain ⟨hhere, hholds⟩ := Runs.always_cons.1 hholds
    obtain ⟨hlength, hpassed⟩ := landings_held (h.step e) hholds
    have hback := fun hp => @passed_step segmentGraphemes s e hhere
      (hholds [] events rfl) hp
    unfold Runs.labels
    cases hlands : s.landing e with
    | none => exact ⟨hlength, fun hne => (hback (hpassed hne)).1⟩
    | some queued =>
      have hrest : Runs.labels (step segmentGraphemes) landing (s.step segmentGraphemes e) events =
          [] := by
        by_contra hne
        rw [(hback (hpassed hne)).2] at hlands
        cases hlands
      rw [hrest]
      exact ⟨le_rfl, fun _ => h.passed (by rw [hlands]; exact Option.some_ne_none _)⟩

/-- The text changes with the user, with a commit, or with what lands. -/
theorem step_text {e : AppEvent} (h : (s.step segmentGraphemes e).text ≠ s.text) :
    s.editorEvent e ≠ none ∨ s.landing e ≠ none := by
  cases e with
  | textChange value selection => exact Or.inl (Option.some_ne_none _)
  | compositionStart => exact Or.inl (Option.some_ne_none _)
  | compositionEnd value selection => exact Or.inl (Option.some_ne_none _)
  | select selection => exact absurd rfl h
  | focus focused => exact absurd rfl h
  | deliver delivery =>
    obtain ⟨added, ingestion, heq, -⟩ := s.deliver_frame delivery
    have h : (s.deliver delivery).text ≠ s.text := h
    rw [heq] at h
    exact absurd rfl h
  | resume =>
    obtain ⟨added, ingestion, heq, -⟩ := s.resume_frame
    have h : s.resume.text ≠ s.text := h
    rw [heq] at h
    exact absurd rfl h
  | settle env aborted =>
    have h : (s.settle segmentGraphemes env aborted).text ≠ s.text := h
    unfold editorEvent landing
    cases hq : s.writeQueue with
    | nil =>
      unfold App.settle at h
      rw [hq] at h
      exact absurd rfl h
    | cons queued writeQueue =>
      cases hserver : queued.commit? with
      | none => exact Or.inr (by simp [Option.filter, hserver])
      | some commit => exact Or.inl (by simp [hserver])
  | render =>
    obtain ⟨rendered, selection, pendingSelection, heq⟩ := s.renderOver_frame s.rendered
    have h : (s.renderOver s.rendered).text ≠ s.text := h
    rw [heq] at h
    exact absurd rfl h

/-- The gate excludes ingestion through every composition unless it is opened early. -/
theorem excludes_step {e : AppEvent} (h : s.editor.Excludes) (hstep : ¬ s.OpensEarly e) :
    (s.step segmentGraphemes e).editor.Excludes := by
  rw [(s.step_editor e).excludes]
  unfold OpensEarly at hstep
  cases hevent : s.editorEvent e with
  | none => exact h
  | some e' => exact h.step e' fun hearly => hstep ⟨e', hevent, hearly⟩

/-- **What a composition lets through.**  In a run in which the gate is never opened early, from
the beginning of a composition for as long as it is active or its commit has not settled, at most
one delivery of the server lands, and none unless its handler was past the gate when the composition
began; what else changes the text is the user or a commit. -/
theorem composition_admits (segmentGraphemes : JsString → List JsString)
    (c : LocalDocumentController) (db : Database) (text : JsString) (requestVersion : ℕ)
    {before during : List AppEvent}
    (hearly : Runs.Never (step segmentGraphemes) OpensEarly (opened c db text requestVersion)
      (before ++ .compositionStart :: during))
    (hactive : Runs.Always (step segmentGraphemes)
      (fun s => s.composing = true ∨ s.editor.Unsettled)
      (Runs.run (step segmentGraphemes) (opened c db text requestVersion)
        (before ++ [.compositionStart])) during) :
    let s := Runs.run (step segmentGraphemes) (opened c db text requestVersion) before
    let landed := Runs.labels (step segmentGraphemes) landing s.onCompositionStart during
    landed.length ≤ 1 ∧ (landed ≠ [] → s.Passed) ∧
      ∀ earlier e later, during = earlier ++ e :: later →
        let s' := Runs.run (step segmentGraphemes) s.onCompositionStart earlier
        (s'.step segmentGraphemes e).text ≠ s'.text →
          s'.editorEvent e ≠ none ∨ s'.landing e ≠ none := by
  intro s landed
  have hbegun : Runs.run (step segmentGraphemes) (opened c db text requestVersion)
      (before ++ [.compositionStart]) = s.onCompositionStart := Runs.run_snoc _ _ _
  rw [hbegun] at hactive
  have hflying : InFlight s := Runs.invariant (fun s e h => h.step e) _ before
    (Or.inl ⟨rfl, fun h => by cases h⟩)
  have hexcludes : Runs.Always (step segmentGraphemes) (·.editor.Excludes)
      (opened c db text requestVersion) (before ++ .compositionStart :: during) := by
    refine @Runs.Always.of_never _ _ _ _ _ _ _ (fun _ => True) (fun s e _ h hstep =>
      excludes_step h hstep) ?_ (fun _ _ => trivial) hearly
    rintro (hcomposing | ⟨commit, hcommit, -⟩)
    · cases hcomposing
    · cases hcommit
  have hholds : Runs.Always (step segmentGraphemes) (·.compositionGate.isHolding = true)
      s.onCompositionStart during := by
    intro earlier later heq
    have hhere := hexcludes (before ++ .compositionStart :: earlier) later (by rw [heq]; simp)
    have hrun : Runs.run (step segmentGraphemes) (opened c db text requestVersion)
        (before ++ .compositionStart :: earlier) =
          Runs.run (step segmentGraphemes) s.onCompositionStart earlier := Runs.run_append _ _ _
    rw [hrun] at hhere
    exact (hhere (hactive earlier later heq)).1
  obtain ⟨hlength, hpassed⟩ := landings_held
    (show InFlight s.onCompositionStart from hflying) hholds
  refine ⟨hlength, fun hne => ?_, fun earlier e later heq => step_text⟩
  have hpassed := hpassed hne
  unfold Passed onCompositionStart at hpassed
  unfold Passed
  cases hi : s.ingestion with
  | none =>
    rw [hi] at hpassed
    exact hpassed
  | some ingestion =>
    cases ingestion with
    | held delivery promise =>
      rw [hi] at hpassed
      have hpassed : s.compositionGate.begin.commitComplete ≠ some promise := hpassed
      intro hsame
      unfold CompositionGate.begin at hpassed
      rw [hsame] at hpassed
      exact hpassed hsame
    | behind items confirmed jobs => trivial
    | applying => trivial

/-- The event neither ends a composition nor settles a commit. -/
def keepsGate (s : App) (e : AppEvent) : Bool :=
  match s.editorEvent e with
  | some (.compositionEnd _) => false
  | some (.settle _ _) => false
  | _ => true

theorem not_opensEarly {e : AppEvent} (h : s.keepsGate e = true) : ¬ s.OpensEarly e := by
  rintro ⟨e', he', hearly⟩
  unfold keepsGate at h
  rw [he'] at h
  cases e' with
  | textChange value => exact hearly
  | compositionStart => exact hearly
  | compositionEnd value => cases h
  | settle env aborted => cases h

/-- A batch whose handler was past the gate lands in a composition, and the text that is being
composed is gone from the text area. -/
theorem composition_admits_late :
    let c : LocalDocumentController := ⟨.empty, js "d", js "A", js "d", 1000, false, 0⟩
    let db := (Database.empty.initializeDocument (js "d") (js "d") (js "A") (js "now")).2
    let env : Surroundings := ⟨js "now", 0, js "A", true⟩
    let before : List AppEvent := [.deliver (.operations [⟨1, .insert ⟨js "B:1", js "B", 1, 1,
      ROOT_ID, js "b"⟩⟩] 1), .resume]
    let during : List AppEvent := [.textChange (js "n") ⟨1, 1, .none⟩, .settle env false]
    let s := Runs.run (step (·.map ([·]))) (opened c db [] 0) before
    let s' := Runs.run (step (·.map ([·]))) s.onCompositionStart during
    s.Passed ∧ s'.composing = true ∧ s'.text = js "b" := by
  intro c db env before during s s'
  have hadmits := (@composition_admits (·.map ([·])) c db [] 0 before during ?_ ?_).2.1
  · exact ⟨hadmits (by decide +kernel), by decide +kernel, by decide +kernel⟩
  · exact Runs.Never.of_allSteps (fun s e => not_opensEarly) (by decide +kernel)
  · refine Runs.always_cons.2 ⟨Or.inl (by decide +kernel), Runs.always_cons.2
      ⟨Or.inl (by decide +kernel), fun earlier later heq => ?_⟩⟩
    obtain ⟨rfl, -⟩ := List.append_eq_nil_iff.1 heq.symm
    exact Or.inl (by decide +kernel)

end App

end LocalFirst
