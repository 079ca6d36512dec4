import LocalFirst.Client.SaveIndicator

/-!
# The caret while the server writes

* `App.Carets` — where the anchors on the write queue and the pending restore come from.
* `App.Restores` — a restored caret stands after the closest elements that are left.
* `App.caret_follows` — a render leaves the caret, puts it at the end, or restores it.
-/

set_option autoImplicit false

namespace LocalFirst

namespace App

variable {segmentGraphemes : JsString → List JsString} {s : App}

theorem pendingSelection_renderOver {value : JsString} {pending : PendingSelection}
    (h : (s.renderOver value).pendingSelection = some pending) :
    s.pendingSelection = some pending := by
  have hdrop : ∀ {t : App}, t.layoutEffect.pendingSelection = some pending →
      t.pendingSelection = some pending := by
    intro t ht
    unfold layoutEffect at ht
    split at ht
    · exact ht
    · split at ht <;> cases ht
  unfold renderOver at h
  split at h
  · exact h
  · exact hdrop (t := { s with
      rendered := s.text
      selection := if value = s.text then s.selection else caretAtEnd s.text }) h

/-- A restore is left where operations of the server have just been applied. -/
theorem step_pendingSelection {e : AppEvent} {pending : PendingSelection}
    (hstep : ¬ s.Strands segmentGraphemes e) (hinv : TextReplica.Inv s.controller.replica)
    (h : (s.step segmentGraphemes e).pendingSelection = some pending) :
    s.pendingSelection = some pending ∨ ∃ items confirmed anchor v writeQueue snapshot,
      s.writeQueue = .ingest items confirmed (some anchor) v :: writeQueue ∧
      (s.step segmentGraphemes e).controller.getSnapshot = .ok snapshot ∧
      resolveSelectionAnchor snapshot.visibleElements anchor = some pending.toSelectionOffsets ∧
      pending.forText = snapshot.text := by
  cases e with
  | textChange value selection =>
    left
    have h := pendingSelection_renderOver h
    split at h <;> exact h
  | compositionStart => exact Or.inl h
  | compositionEnd value selection =>
    have h : (onCompositionEnd { s with selection := selection } value).pendingSelection =
      some pending := h
    have h := pendingSelection_renderOver h
    exact Or.inl h
  | select selection => exact Or.inl h
  | focus focused => exact Or.inl h
  | deliver delivery =>
    obtain ⟨added, ingestion, heq, -⟩ := s.deliver_frame delivery
    have h : (s.deliver delivery).pendingSelection = some pending := h
    rw [heq] at h
    exact Or.inl h
  | resume =>
    obtain ⟨added, ingestion, heq, -⟩ := s.resume_frame
    have h : s.resume.pendingSelection = some pending := h
    rw [heq] at h
    exact Or.inl h
  | settle env aborted =>
    have h : (s.settle segmentGraphemes env aborted).pendingSelection = some pending := h
    show _ ∨ ∃ items confirmed anchor v writeQueue snapshot, _ ∧
      (s.settle segmentGraphemes env aborted).controller.getSnapshot = .ok snapshot ∧ _
    cases hq : s.writeQueue with
    | nil =>
      unfold App.settle at h
      rw [hq] at h
      exact Or.inl h
    | cons queued writeQueue =>
      have hran := runQueued_ran hinv hq hstep
      rw [settle_cons hq] at h ⊢
      generalize s.runQueued segmentGraphemes env aborted queued.job = ran at h hran ⊢
      cases queued with
      | commit commit =>
        left
        have h : ((s.afterJob ran writeQueue).commitSettled commit ran.2.2).pendingSelection =
          some pending := h
        unfold commitSettled at h
        split at h
        · exact h
        · cases hout : ran.2.2 with
          | ok snapshot =>
            simp only [hout] at h
            exact h
          | error e =>
            simp only [hout] at h
            split at h <;> exact h
      | ingest items confirmed anchor v =>
        have h : ((s.afterJob ran writeQueue).operationsApplied anchor v ran.2.2).pendingSelection =
          some pending := h
        unfold operationsApplied at h
        cases hout : ran.2.2 with
        | error e =>
          simp only [hout] at h
          exact Or.inl h
        | ok snapshot =>
          simp only [hout] at h
          split at h
          · exact Or.inl h
          · right
            cases anchor with
            | none => cases h
            | some anchor =>
              obtain ⟨restored, hrestored, rfl⟩ := Option.map_eq_some_iff.1 h
              refine ⟨items, confirmed, anchor, v, writeQueue, snapshot, rfl, ?_, hrestored, rfl⟩
              obtain ⟨_, _, _, _, heq⟩ := (s.afterJob ran writeQueue).continuation_frame
                (.ok snapshot) (.ingest items confirmed (some anchor) v)
              rw [heq]
              exact hran.fulfilled _ hout
      | install bootstrap items confirmed =>
        left
        have h : ((s.afterJob ran writeQueue).snapshotInstalled ran.2.2).pendingSelection =
          some pending := h
        unfold snapshotInstalled at h
        split at h <;> exact h
  | render =>
    have h : (s.renderOver s.rendered).pendingSelection = some pending := h
    exact Or.inl (pendingSelection_renderOver h)

/-- An anchor on the queue is captured when a handler goes on. -/
theorem step_ingest {e : AppEvent} {items : List SequencedOperation} {confirmed : Int}
    {anchor : Option SelectionAnchor} {v : ℕ}
    (h : .ingest items confirmed anchor v ∈ (s.step segmentGraphemes e).writeQueue) :
    .ingest items confirmed anchor v ∈ s.writeQueue ∨ e = .resume ∧ s.captureAnchor = .ok anchor := by
  have hrender : ∀ (t : App) value, (t.renderOver value).writeQueue = t.writeQueue := by
    intro t value
    obtain ⟨rendered, selection, pendingSelection, heq⟩ := t.renderOver_frame value
    rw [heq]
  have hcommit : ∀ {t : App} {nextText releases}, .ingest items confirmed anchor v ∈
      (t.commitText nextText releases).writeQueue → .ingest items confirmed anchor v ∈
        t.writeQueue := by
    intro t nextText releases ht
    rcases List.mem_append.1 ht with ht | ht
    · exact ht
    · cases List.mem_singleton.1 ht
  cases e with
  | textChange value selection =>
    left
    have h : .ingest items confirmed anchor v ∈ (App.renderOver _ value).writeQueue := h
    rw [hrender] at h
    split at h
    · exact h
    · exact hcommit h
  | compositionStart => exact Or.inl h
  | compositionEnd value selection =>
    left
    have h : .ingest items confirmed anchor v ∈ (App.renderOver _ value).writeQueue := h
    rw [hrender] at h
    exact hcommit h
  | select selection => exact Or.inl h
  | focus focused => exact Or.inl h
  | deliver delivery =>
    obtain ⟨added, ingestion, heq, hadded⟩ := s.deliver_frame delivery
    have h : .ingest items confirmed anchor v ∈ (s.deliver delivery).writeQueue := h
    rw [heq] at h
    rcases List.mem_append.1 h with h | h
    · exact Or.inl h
    · obtain ⟨bootstrap, items, confirmed, heq⟩ := hadded _ h
      cases heq
  | resume =>
    have h : .ingest items confirmed anchor v ∈ s.resume.writeQueue := h
    unfold resume at h
    split at h
    · split at h
      · exact Or.inl h
      · obtain ⟨added, ingestion, heq, hadded⟩ := s.ingest_frame ‹_›
        rw [heq] at h
        rcases List.mem_append.1 h with h | h
        · exact Or.inl h
        · obtain ⟨bootstrap, items, confirmed, heq⟩ := hadded _ h
          cases heq
    · unfold applyOperations at h
      split at h
      · exact Or.inl h
      · rename_i hcaptured
        rcases List.mem_append.1 h with h | h
        · exact Or.inl h
        · cases List.mem_singleton.1 h
          exact Or.inr ⟨rfl, hcaptured⟩
    · exact Or.inl h
  | settle env aborted =>
    left
    have h : .ingest items confirmed anchor v ∈
      (s.settle segmentGraphemes env aborted).writeQueue := h
    cases hq : s.writeQueue with
    | nil =>
      unfold App.settle at h
      rw [hq] at h
      rwa [← hq]
    | cons queued writeQueue =>
      rw [settle_cons hq] at h
      obtain ⟨text, pendingSelection, saveState, ingestion, heq⟩ := continuation_frame
        (s.afterJob (s.runQueued segmentGraphemes env aborted queued.job) writeQueue)
        (s.runQueued segmentGraphemes env aborted queued.job).2.2 queued
      rw [heq] at h
      exact List.mem_cons_of_mem _ h
  | render =>
    left
    rwa [show (s.step segmentGraphemes .render).writeQueue = s.writeQueue from hrender _ _] at h

theorem Session.ops_step {documentId : JsString} (h : Session documentId s) (e : AppEvent)
    (hstep : ¬ s.Strands segmentGraphemes e) :
    s.controller.replica.ops ⊆ (s.step segmentGraphemes e).controller.replica.ops := by
  rcases @step_tables segmentGraphemes s e with
    ⟨hc, -⟩ | ⟨env, queued, writeQueue, rfl, hq, hc, -⟩
  · rw [hc]
  · have hsettles : LocalDocumentController.Settles segmentGraphemes s.controller s.db env
        queued.job := by
      by_contra hnot
      exact hstep ⟨queued, writeQueue, hq, hnot⟩
    rw [hc]
    exact LocalDocumentController.runJob_ops h.live hsettles

/-- The run captures this anchor in the state `at_`, when a handler goes on to apply a batch. -/
def Captures (segmentGraphemes : JsString → List JsString) (start : App) (events : List AppEvent)
    (anchor : SelectionAnchor) (at_ : App) : Prop :=
  ∃ before after, events = before ++ .resume :: after ∧
    at_ = Runs.run (step segmentGraphemes) start before ∧
    at_.captureAnchor = .ok (some anchor)

theorem Captures.snoc {start at_ : App} {events : List AppEvent} {anchor : SelectionAnchor}
    (h : Captures segmentGraphemes start events anchor at_) (e : AppEvent) :
    Captures segmentGraphemes start (events ++ [e]) anchor at_ := by
  obtain ⟨before, after, rfl, hat, hcaptured⟩ := h
  exact ⟨before, after ++ [e], by simp, hat, hcaptured⟩

/-- Where the anchors and the restores of a run come from: each was captured in a state that knew
no more, and a restore is what its anchor resolves to in the text it is for. -/
structure Carets (segmentGraphemes : JsString → List JsString) (start : App)
    (events : List AppEvent) (s : App) : Prop where
  queued : ∀ items confirmed anchor v, .ingest items confirmed (some anchor) v ∈ s.writeQueue →
    ∃ at_, Captures segmentGraphemes start events anchor at_ ∧ at_.Agrees ∧
      TextReplica.Inv at_.controller.replica ∧
      at_.controller.replica.ops ⊆ s.controller.replica.ops
  pending : ∀ pending, s.pendingSelection = some pending → ∃ applied after anchor at_ elements,
    events = applied ++ after ∧ Captures segmentGraphemes start applied anchor at_ ∧ at_.Agrees ∧
      TextReplica.Inv at_.controller.replica ∧
      let replica := (Runs.run (App.step segmentGraphemes) start applied).controller.replica
      TextReplica.Inv replica ∧ at_.controller.replica.ops ⊆ replica.ops ∧
        replica.getVisibleElements = .ok elements ∧ replica.materialize = .ok pending.forText ∧
        resolveSelectionAnchor elements anchor = some pending.toSelectionOffsets

theorem Carets.step {start : App} {events : List AppEvent} {documentId : JsString}
    (h : Carets segmentGraphemes start events s) (hs : s = Runs.run (App.step segmentGraphemes) start events)
    (hagrees : s.Agrees) (hsession : Session documentId s) (e : AppEvent)
    (hstep : ¬ s.Strands segmentGraphemes e) :
    Carets segmentGraphemes start (events ++ [e]) (s.step segmentGraphemes e) := by
  have hinv := hsession.live.inv
  constructor
  · intro items confirmed anchor v hmem
    rcases step_ingest hmem with hmem | ⟨rfl, hcaptured⟩
    · obtain ⟨at_, hcaptures, hagrees, hinv, hops⟩ := h.queued items confirmed anchor v hmem
      exact ⟨at_, hcaptures.snoc e, hagrees, hinv, hops.trans (hsession.ops_step e hstep)⟩
    · exact ⟨s, ⟨events, [], rfl, hs, hcaptured⟩, hagrees, hinv, hsession.ops_step _ hstep⟩
  · intro pending hpending
    rcases step_pendingSelection hstep hinv hpending with hpending |
      ⟨items, confirmed, anchor, v, writeQueue, snapshot, hq, hsnapshot, hresolved, htext⟩
    · obtain ⟨applied, after, anchor, at_, elements, heq, hrest⟩ := h.pending pending hpending
      exact ⟨applied, after ++ [e], anchor, at_, elements, by rw [heq, List.append_assoc], hrest⟩
    · obtain ⟨at_, hcaptures, hagrees, hat, hops⟩ := h.queued items confirmed anchor v
        (by rw [hq]; exact List.mem_cons_self)
      obtain ⟨hmaterialize, hvisible⟩ := LocalDocumentController.getSnapshot_text hsnapshot
      rw [← htext] at hmaterialize
      refine ⟨events ++ [e], [], anchor, at_, snapshot.visibleElements, (List.append_nil _).symm,
        hcaptures.snoc e, hagrees, hat, ?_⟩
      rw [Runs.run_snoc, ← hs]
      exact ⟨(hsession.step e hstep).live.inv, hops.trans (hsession.ops_step e hstep), hvisible,
        hmaterialize, hresolved⟩

/-- A restored selection: it was captured when a handler went on to apply a batch, and `text` is what
the replica held when the batch had been applied.  Each end that stood between two elements now
stands after the closest of the thirty-two elements before it that are left, unless the trail of the
end alone is exhausted.  When it was captured the text area showed these elements, unless a commit
was waiting or a composition was active. -/
def Restores (segmentGraphemes : JsString → List JsString) (start : App) (events : List AppEvent)
    (text : JsString) (selection : Selection) : Prop :=
  ∃ before between after v v', events = before ++ .resume :: between ++ after ∧
    let at_ := Runs.run (step segmentGraphemes) start before
    let later := Runs.run (step segmentGraphemes) start (before ++ .resume :: between)
    at_.controller.replica.getVisibleElements = .ok v ∧
    later.controller.replica.getVisibleElements = .ok v' ∧
    later.controller.replica.materialize = .ok text ∧
    (at_.saveState ≠ .saving → at_.composing = false →
      at_.controller.replica.materialize = .ok at_.text) ∧
    ∀ i j : ℕ, i ≤ j → j ≤ v.length → at_.selection.start = elementIndexToOffset v i →
      at_.selection.end_ = elementIndexToOffset v j →
      ((closestSurvivor MAX_FALLBACK_TRAIL v v' i).isSome →
        (closestSurvivor MAX_FALLBACK_TRAIL v v' j).isSome) →
      selection = ⟨caretOffset v v' i, caretOffset v v' j, .none⟩ ∧
        caretOffset v v' i ≤ caretOffset v v' j

theorem Carets.restores {start : App} {events : List AppEvent}
    (h : Carets segmentGraphemes start events s) {pending : PendingSelection}
    (hpending : s.pendingSelection = some pending) :
    Restores segmentGraphemes start events pending.forText
      ⟨pending.start, pending.end_, .none⟩ := by
  obtain ⟨applied, after, anchor, at_, v', heq, ⟨before, between, rfl, hat, hcaptured⟩, hagrees,
    hinv, hinv', hops, hv', hmaterialize, hresolved⟩ := h.pending pending hpending
  unfold captureAnchor at hcaptured
  split at hcaptured
  · split at hcaptured
    · cases hcaptured
    · rename_i snapshot hsnapshot
      cases hcaptured
      obtain ⟨-, hv⟩ := LocalDocumentController.getSnapshot_text hsnapshot
      refine ⟨before, between, after, snapshot.visibleElements, v', heq, ?_⟩
      rw [← hat]
      refine ⟨hv, hv', hmaterialize, hagrees.text, fun i j hij hj hstart hend hfound => ?_⟩
      have helements := hinv.elements hv
      have hdistinct := (hinv'.elements hv').distinct
      have hcaret : caretOffset snapshot.visibleElements v' i ≤
          caretOffset snapshot.visibleElements v' j :=
        offsetAfter_le helements hdistinct (hinv.keepsOrder hv hinv' hops hv') hij hj hfound
      rw [hstart, hend, resolveSelectionAnchor_eq helements hdistinct (by omega) hj,
        min_eq_left hcaret, max_eq_right hcaret] at hresolved
      have hoffsets := Option.some.inj hresolved
      rw [← hoffsets]
      exact ⟨rfl, hcaret⟩
  · cases hcaptured

/-- The layout effect of a render leaves the caret where it is, or restores it. -/
theorem Carets.layoutEffect {start t : App} {events : List AppEvent}
    (h : Carets segmentGraphemes start events s) (ht : t.pendingSelection = s.pendingSelection) :
    t.layoutEffect.selection = t.selection ∨
      Restores segmentGraphemes start events t.text t.layoutEffect.selection := by
  unfold App.layoutEffect
  rw [ht]
  cases hpending : s.pendingSelection with
  | none => exact Or.inl rfl
  | some pending =>
    simp only
    split
    · rename_i hfor
      right
      rw [← hfor]
      exact h.restores hpending
    · exact Or.inl rfl

end App

end LocalFirst
