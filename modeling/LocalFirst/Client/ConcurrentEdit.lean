import LocalFirst.Client.IngestAtomicity
import LocalFirst.Lib.CommonPrefix

/-!
# A local edit and the remote edits it has not seen

`replaceText` carries a text, and the difference to the document is taken when the job runs.
Operations ingested since the user last saw the document are part of that difference.

* `keepsPlace_iff`, `deleteTargetIds_iff` — which elements an edit deletes.
* `Respects` — the edit deletes only what the user saw, and keeps what arrived since.
* `replaceText_respects_iff` — when it does.
* `replaceText_reverts_remote` — it does not when the user types at the start of a line where
  another user has just typed.
-/

set_option autoImplicit false

namespace LocalFirst

/-! ## What an edit deletes -/

theorem commonPrefixLength_spec : ∀ xs ys : List JsString,
    LongestCommonPrefix (xs.take (commonPrefixLength xs ys)) xs ys
  | [], ys => LongestCommonPrefix.nil_left ys
  | x :: xs, [] => LongestCommonPrefix.nil_right (x :: xs)
  | x :: xs, y :: ys => by
    unfold commonPrefixLength
    split
    · rename_i h
      rw [h]
      exact (commonPrefixLength_spec xs ys).same y
    · rename_i h
      exact LongestCommonPrefix.differ h

theorem commonPrefixLength_le : ∀ xs ys : List JsString, commonPrefixLength xs ys ≤ xs.length
  | [], ys => le_refl _
  | x :: xs, [] => Nat.zero_le _
  | x :: xs, y :: ys => by
    unfold commonPrefixLength
    split
    · exact Nat.succ_le_succ (commonPrefixLength_le xs ys)
    · exact Nat.zero_le _

theorem mem_slice {α : Type} {start stop : Nat} {items : List α} {x : α} :
    x ∈ slice start stop items ↔ ∃ i, start ≤ i ∧ i < stop ∧ items[i]? = some x := by
  unfold slice
  rw [List.mem_iff_getElem?]
  simp only [List.getElem?_drop, List.getElem?_take]
  constructor
  · rintro ⟨i, hi⟩
    split at hi
    · rename_i hlt
      exact ⟨start + i, Nat.le_add_right _ _, hlt, hi⟩
    · cases hi
  · rintro ⟨i, hle, hlt, hi⟩
    refine ⟨i - start, ?_⟩
    rw [Nat.add_sub_cancel' hle, if_pos hlt]
    exact hi

/-- The new graphemes keep the one at position `i`: they start with all up to it, or what
follows the common start ends with all from it on. -/
def KeepsPlace (current next : List JsString) (i : Nat) : Prop :=
  current.take (i + 1) <+: next ∨
    ∃ q rest, LongestCommonPrefix q current next ∧ next = q ++ rest ∧ current.drop i <:+ rest

theorem keepsPlace_iff {current next : List JsString} {i : Nat} (hi : i < current.length) :
    KeepsPlace current next i ↔ i < commonPrefixLength current next ∨
      current.length - commonSuffixLength (commonPrefixLength current next) current next ≤ i := by
  generalize hp : commonPrefixLength current next = p
  have hpre := commonPrefixLength_spec current next
  have hple := commonPrefixLength_le current next
  rw [hp] at hpre hple
  have hlen : (current.take p).length = p := by rw [List.length_take, Nat.min_eq_left hple]
  -- the rest of the new graphemes, and the suffix found in it
  have hrest : next = current.take p ++ next.drop p := by
    have := List.prefix_iff_eq_take.1 hpre.right
    rw [hlen] at this
    rw [this, List.take_append_drop]
  have hsuf := commonPrefixLength_spec (current.drop p).reverse (next.drop p).reverse
  have hsle := commonPrefixLength_le (current.drop p).reverse (next.drop p).reverse
  have hslen : ((current.drop p).reverse.take (commonSuffixLength p current next)).length =
      commonSuffixLength p current next := by
    rw [List.length_take]
    exact Nat.min_eq_left hsle
  have hdrop : ∀ n, (current.drop p).drop n <:+ next.drop p ↔
      current.length - p - n ≤ commonSuffixLength p current next := by
    intro n
    rw [hsuf.drop_iff, List.length_drop]
    exact Iff.of_eq (congrArg _ hslen)
  by_cases hlt : i < p
  · simp only [hlt, true_or, iff_true]
    exact Or.inl ((hpre.take_iff hi).2 (by rw [hlen]; exact hlt))
  · have hsub : current.drop i = (current.drop p).drop (i - p) := by
      rw [List.drop_drop]
      congr 1
      omega
    have hnot : ¬ current.take (i + 1) <+: next := by
      rw [hpre.take_iff hi, hlen]
      omega
    unfold KeepsPlace
    simp only [hlt, hnot, false_or]
    constructor
    · rintro ⟨q, rest, hq, hnext, hd⟩
      rw [hq.unique hpre] at hnext
      rw [← List.append_cancel_left (hrest.symm.trans hnext), hsub, hdrop] at hd
      omega
    · intro hle
      refine ⟨current.take p, next.drop p, hpre, hrest, ?_⟩
      rw [hsub, hdrop]
      omega

section

variable {segmentGraphemes : JsString → List JsString} {elements : List VisibleElement}
  {nextText : JsString}

theorem mem_deleteSlice {id : JsString} :
    let current := elements.map (·.value)
    let next := segmentGraphemes nextText
    let p := commonPrefixLength current next
    id ∈ (slice p (current.length - commonSuffixLength p current next) elements).map (·.id) ↔
      ∃ i e, elements[i]? = some e ∧ e.id = id ∧ ¬ KeepsPlace current next i := by
  intro current next p
  have hlen : current.length = elements.length := List.length_map _
  simp only [List.mem_map, mem_slice]
  constructor
  · rintro ⟨e, ⟨i, hle, hlt, hi⟩, rfl⟩
    refine ⟨i, e, hi, rfl, ?_⟩
    have := (List.getElem?_eq_some_iff.1 hi).1
    rw [keepsPlace_iff (by omega)]
    show ¬ (i < p ∨ current.length - commonSuffixLength p current next ≤ i)
    omega
  · rintro ⟨i, e, hi, rfl, hk⟩
    have := (List.getElem?_eq_some_iff.1 hi).1
    rw [keepsPlace_iff (by omega)] at hk
    have hk : ¬ (i < p ∨ current.length - commonSuffixLength p current next ≤ i) := hk
    exact ⟨e, ⟨i, by omega, by omega, hi⟩, rfl⟩

/-- An edit deletes the elements whose place the new text does not keep. -/
theorem deleteTargetIds_iff {edit : LocalTextEdit}
    (h : computeLocalTextEdit segmentGraphemes elements nextText = some edit) {id : JsString} :
    id ∈ edit.deleteTargetIds ↔ ∃ i e, elements[i]? = some e ∧ e.id = id ∧
      ¬ KeepsPlace (elements.map (·.value)) (segmentGraphemes nextText) i := by
  unfold computeLocalTextEdit at h
  simp only at h
  split at h
  · cases h
  · cases h
    exact mem_deleteSlice

theorem keepsPlace_of_no_edit
    (h : computeLocalTextEdit segmentGraphemes elements nextText = none) {i : Nat}
    (hi : i < elements.length) :
    KeepsPlace (elements.map (·.value)) (segmentGraphemes nextText) i := by
  unfold computeLocalTextEdit at h
  simp only at h
  split at h
  · rename_i hempty
    by_contra hk
    have := mem_deleteSlice.2 ⟨i, elements[i], List.getElem?_eq_getElem hi, rfl, hk⟩
    rw [List.length_eq_zero_iff.1 hempty.1] at this
    cases this
  · cases h

end

namespace LocalDocumentController

open TextReplica

/-! ## Batches between a look and a keystroke -/

/-- A batch of `applyServerOperations`, with the tables that its job finds. -/
structure Batch where
  db : Database
  env : Surroundings
  items : List SequencedOperation
  confirmed : Int

/-- The controller after the write queue has run the batches, rejected ones included. -/
def ingestBatches : LocalDocumentController → List Batch → LocalDocumentController
  | c, [] => c
  | c, b :: bs => ingestBatches (c.applyServerOperationsNow b.db b.env b.items b.confirmed).1 bs

theorem ingestBatches_inv : ∀ {c : LocalDocumentController} (bs : List Batch), Inv c.replica →
    Inv (c.ingestBatches bs).replica
  | _, [], h => h
  | _, b :: bs, h => ingestBatches_inv bs
      (@runJob_inv (fun _ => []) _ h b.db b.env (.applyServerOperations b.items b.confirmed))

/-- **What an edit must respect**, between the controller that showed `shown`, the batches since,
and the document before and after the edit. -/
structure Respects (c : LocalDocumentController) (shown : LocalDocumentSnapshot) (bs : List Batch)
    (operations : List TextOperation) (before after : List VisibleElement) : Prop where
  deleted : ∀ d, .delete d ∈ operations → d.targetId ∈ shown.visibleElements.map (·.id)
  inserted : ∀ b ∈ bs, ∀ item ∈ b.items, ∀ i, item.operation = .insert i →
    (∀ op ∈ c.replica.ops, op.opId ≠ i.opId) → ∀ e ∈ before, e.id = i.opId → e ∈ after

/-- The new text keeps the place of every element that was not shown. -/
def KeepsUnseen (segmentGraphemes : JsString → List JsString) (shown : LocalDocumentSnapshot)
    (before : List VisibleElement) (nextText : JsString) : Prop :=
  ∀ i e, before[i]? = some e → e.id ∉ shown.visibleElements.map (·.id) →
    KeepsPlace (before.map (·.value)) (segmentGraphemes nextText) i

theorem getSnapshot_visible {c : LocalDocumentController} {snapshot : LocalDocumentSnapshot}
    (h : c.getSnapshot = .ok snapshot) :
    c.replica.getVisibleElements = .ok snapshot.visibleElements := by
  unfold getSnapshot at h
  split at h
  · cases h
  · split at h
    · cases h
    · rename_i hv
      cases h
      exact hv

/-- The edit that a resolved `replaceText` has made. -/
theorem replaceTextNow_ok {segmentGraphemes : JsString → List JsString}
    {c : LocalDocumentController} (hinv : Inv c.replica) {db : Database} {env : Surroundings}
    {nextText : JsString} {before : List VisibleElement}
    (hbefore : c.replica.getVisibleElements = .ok before) {result : LocalEditResult}
    (h : (c.replaceTextNow segmentGraphemes db env nextText).2.2 = .ok result) :
    (∀ t, (∃ d, .delete d ∈ result.operations ∧ d.targetId = t) ↔
      ∃ i e, before[i]? = some e ∧ e.id = t ∧
        ¬ KeepsPlace (before.map (·.value)) (segmentGraphemes nextText) i) ∧
    ∀ e ∈ before, e ∈ result.snapshot.visibleElements ↔
      ¬ ∃ d, .delete d ∈ result.operations ∧ d.targetId = e.id := by
  unfold replaceTextNow at h
  rw [hbefore] at h
  simp only at h
  split at h
  · rename_i hnone
    cases hs : c.getSnapshot with
    | error e => rw [hs] at h; cases h
    | ok snapshot =>
      rw [hs] at h
      cases h
      have hvisible := getSnapshot_visible hs
      rw [hbefore] at hvisible
      refine ⟨fun t => ⟨fun ⟨d, hd, _⟩ => by (cases hd), ?_⟩, fun e he => ?_⟩
      · rintro ⟨i, e, hi, -, hk⟩
        exact absurd (keepsPlace_of_no_edit hnone (List.getElem?_eq_some_iff.1 hi).1) hk
      · rw [← Except.ok.inj hvisible]
        exact ⟨fun _ ⟨d, hd, _⟩ => by (cases hd), fun _ => he⟩
  · rename_i edit hedit
    split at h
    · cases h
    · rename_i operations db' hp
      have htargets := (Database.persistLocalTextEdit_spec hp).1.targets
      obtain ⟨hinv', -, hops⟩ := applyAll_spec operations hinv
      split at h
      · cases h
      · rename_i replica ha
        rw [ha] at hinv' hops
        have hops := hops rfl
        cases hs : ((c.withReplica replica).finish db' env).2.2 with
        | error e => rw [hs] at h; cases h
        | ok snapshot =>
          rw [hs] at h
          cases h
          have hvisible := getSnapshot_visible hs
          have hr : ((c.withReplica replica).finish db' env).1.replica = replica :=
            (maybeCreateCheckpoint_spec (c.withReplica replica) db' env).1
          refine ⟨fun t => (htargets t).trans (deleteTargetIds_iff hedit), fun e he => ?_⟩
          have hvisible : replica.getVisibleElements = .ok snapshot.visibleElements := by
            rw [← hr]
            exact hvisible
          have hsub : c.replica.ops ⊆ replica.ops := by
            rw [hops]
            exact Set.subset_union_left
          rw [hinv.visible_mono hinv' hsub hbefore hvisible he, hops, not_iff_not]
          -- what was visible was not deleted before the edit
          have halive : ¬ Tombstoned c.replica.ops e.id :=
            (hinv.visible_mono hinv (subset_refl _) hbefore hbefore he).1 he
          constructor
          · rintro ⟨d, hd | hd, hid⟩
            · exact absurd ⟨d, hd, hid⟩ halive
            · exact ⟨d, hd, hid⟩
          · rintro ⟨d, hd, hid⟩
            exact ⟨d, Or.inr hd, hid⟩

/-- **When an edit respects what its author has not seen.**  A text typed on the document that
was shown deletes nothing else, and keeps what the batches since then have inserted, exactly
when it keeps the place of every visible element that was not shown. -/
theorem replaceText_respects_iff {segmentGraphemes : JsString → List JsString}
    {c : LocalDocumentController} {db : Database} (h : Reachable segmentGraphemes c db)
    {shown : LocalDocumentSnapshot} (hshown : c.getSnapshot = .ok shown) (bs : List Batch)
    {before : List VisibleElement}
    (hbefore : (c.ingestBatches bs).replica.getVisibleElements = .ok before)
    (db' : Database) (env : Surroundings) (nextText : JsString) {result : LocalEditResult}
    (hresult : ((c.ingestBatches bs).replaceTextNow segmentGraphemes db' env nextText).2.2 =
      .ok result) :
    Respects c shown bs result.operations before result.snapshot.visibleElements ↔
      KeepsUnseen segmentGraphemes shown before nextText := by
  have hinv := ingestBatches_inv bs h.inv
  obtain ⟨htargets, hkept⟩ := replaceTextNow_ok hinv hbefore hresult
  constructor
  · intro hr i e hi hunseen
    by_contra hk
    obtain ⟨d, hd, hid⟩ := (htargets e.id).2 ⟨i, e, hi, rfl, hk⟩
    have := hr.deleted d hd
    rw [hid] at this
    exact hunseen this
  · intro hkeep
    have hdeleted : ∀ d, .delete d ∈ result.operations →
        d.targetId ∈ shown.visibleElements.map (·.id) := by
      intro d hd
      obtain ⟨i, e, hi, hid, hk⟩ := (htargets d.targetId).1 ⟨d, hd, rfl⟩
      by_contra hunseen
      rw [← hid] at hunseen
      exact hk (hkeep i e hi hunseen)
    refine ⟨hdeleted, fun b hb item hitem i hop hunknown e he hid => ?_⟩
    rw [hkept e he]
    rintro ⟨d, hd, htarget⟩
    have hseen := hdeleted d hd
    rw [htarget, hid] at hseen
    obtain ⟨e', he', hid'⟩ := List.mem_map.1 hseen
    obtain ⟨op, hop', hid'', -⟩ := h.inv.visible_insert (getSnapshot_visible hshown) he'
    exact hunknown _ hop' (hid''.trans hid')

/-- A text that ends with what another user has typed meanwhile keeps it. -/
theorem replaceText_respects_iff_kept :
    let seg : JsString → List JsString := (·.map ([·]))
    let env : Surroundings := ⟨js "now", 0, js "A", true⟩
    ∃ c db shown result,
      let bs : List Batch := [⟨db, env, [⟨1, .insert ⟨js "B:1", js "B", 1, 1, ROOT_ID, js "b"⟩⟩], 1⟩]
      create Database.empty ⟨none, none, none⟩ env = (.ok c, db) ∧ c.getSnapshot = .ok shown ∧
      ((c.ingestBatches bs).replaceTextNow seg db env (js "ab")).2.2 = .ok result ∧
      Respects c shown bs result.operations [⟨js "B:1", js "b"⟩] result.snapshot.visibleElements := by
  intro seg env
  obtain ⟨c, db, hcreate, hbefore, hok⟩ : ∃ c db,
      let bs : List Batch := [⟨db, env, [⟨1, .insert ⟨js "B:1", js "B", 1, 1, ROOT_ID, js "b"⟩⟩], 1⟩]
      create Database.empty ⟨none, none, none⟩ env = (.ok c, db) ∧
      (c.ingestBatches bs).replica.getVisibleElements = .ok [⟨js "B:1", js "b"⟩] ∧
      ((c.ingestBatches bs).replaceTextNow seg db env (js "ab")).2.2.isOk = true :=
    ⟨_, _, rfl, by decide +kernel, by decide +kernel⟩
  have h : Reachable seg c db := .opened hcreate
  obtain ⟨shown, hshown⟩ := getSnapshot_ok h.inv
  obtain ⟨result, hresult⟩ := exists_ok_of_isOk hok
  refine ⟨c, db, shown, result, hcreate, hshown, hresult, ?_⟩
  refine (replaceText_respects_iff h hshown _ hbefore _ env (js "ab") hresult).2 ?_
  intro i e hi _
  have hlt : i < 1 := (List.getElem?_eq_some_iff.1 hi).1
  obtain rfl : i = 0 := by omega
  exact (keepsPlace_iff (by decide)).2 (by decide +kernel)

/-- Both users type at the start of an empty document.  The text of the second replaces what the
first has typed, which the second has not seen. -/
theorem replaceText_reverts_remote :
    let seg : JsString → List JsString := (·.map ([·]))
    let env : Surroundings := ⟨js "now", 0, js "A", true⟩
    ∃ c db shown result,
      let bs : List Batch := [⟨db, env, [⟨1, .insert ⟨js "B:1", js "B", 1, 1, ROOT_ID, js "b"⟩⟩], 1⟩]
      create Database.empty ⟨none, none, none⟩ env = (.ok c, db) ∧ c.getSnapshot = .ok shown ∧
      (c.ingestBatches bs).replica.getVisibleElements = .ok [⟨js "B:1", js "b"⟩] ∧
      ((c.ingestBatches bs).replaceTextNow seg db env (js "a")).2.2 = .ok result ∧
      ¬ Respects c shown bs result.operations [⟨js "B:1", js "b"⟩] result.snapshot.visibleElements := by
  intro seg env
  obtain ⟨c, db, hcreate, hempty, hbefore, hok⟩ : ∃ c db,
      let bs : List Batch := [⟨db, env, [⟨1, .insert ⟨js "B:1", js "B", 1, 1, ROOT_ID, js "b"⟩⟩], 1⟩]
      create Database.empty ⟨none, none, none⟩ env = (.ok c, db) ∧
      c.replica.getVisibleElements = .ok [] ∧
      (c.ingestBatches bs).replica.getVisibleElements = .ok [⟨js "B:1", js "b"⟩] ∧
      ((c.ingestBatches bs).replaceTextNow seg db env (js "a")).2.2.isOk = true :=
    ⟨_, _, rfl, by decide +kernel, by decide +kernel, by decide +kernel⟩
  have h : Reachable seg c db := .opened hcreate
  obtain ⟨shown, hshown⟩ := getSnapshot_ok h.inv
  obtain ⟨result, hresult⟩ := exists_ok_of_isOk hok
  refine ⟨c, db, shown, result, hcreate, hshown, hbefore, hresult, fun hr => ?_⟩
  obtain ⟨d, hd, hid⟩ := ((replaceTextNow_ok (ingestBatches_inv _ h.inv) hbefore hresult).1
    (js "B:1")).2 ⟨0, _, rfl, rfl, by rw [keepsPlace_iff (by decide)]; decide +kernel⟩
  have hseen := hr.deleted d hd
  rw [← Except.ok.inj (hempty.symm.trans (getSnapshot_visible hshown))] at hseen
  cases hseen

end LocalDocumentController

end LocalFirst
