import LocalFirst.Crdt.Resolution
import LocalFirst.Crdt.Splice

/-!
# The order of the document

* `Inv.exists_preOrder` — the traversal is the recursive walk over the child lists.
* `traversal_preOrder` — what is anchored below a node stands together, right after it, and what is
  below one sibling does not mix with what is below another.
* `Inv.preOrder_mono` — in a replica that knows more, what was attached keeps its order.
* `text_stable` — applying operations does not reorder the text, and what is deleted stays so.
-/

set_option autoImplicit false

namespace LocalFirst

namespace TextReplica

/-- The chain of anchors that begins with `x` passes through `y`. -/
abbrev Through (S : Set TextOperation) (x y : JsString) : Prop :=
  Relation.ReflTransGen (AnchoredOn S) x y

/-- The nodes in the order of the traversal, tombstones included. -/
structure Traversed (r : TextReplica) (order : List JsString) : Prop where
  walk : PreOrder r.childrenOf (r.childrenOf ROOT_ID) order
  once : order.Nodup
  attached : ∀ id, id ∈ order ↔ Attached r.ops id
  visible : r.getVisibleElements = .ok (order.filterMap r.visibleAt)

section

variable {r : TextReplica} (h : Inv r)
include h

/-- **The traversal is the recursive walk.** -/
theorem Inv.exists_preOrder : ∃ order, Traversed r order := by
  obtain ⟨order, w⟩ := h.exists_walked
  obtain ⟨walk, hnodup, hmem, hvisible⟩ := w
  cases walk with
  | @visit _ _ order rest =>
    rw [List.append_nil] at rest
    obtain ⟨hroot, hnodup⟩ := List.nodup_cons.1 hnodup
    refine ⟨order, PreOrder.iff_depthFirst.2 rest, hnodup, fun id => ?_, ?_⟩
    · have hid := hmem id
      rw [List.mem_cons, h.node_iff_attached] at hid
      constructor
      · intro hm
        refine (hid.1 (Or.inr hm)).resolve_left fun he => hroot ?_
        rw [← he]
        exact hm
      · intro hatt
        refine (hid.2 (Or.inr hatt)).resolve_left fun he => ?_
        obtain ⟨op, hop, hid⟩ := hatt.exists_insert
        exact (h.coherent.valid _ hop).opId_ne_root (hid.trans he)
    · rw [hvisible, List.filterMap_cons, visibleAt_root h]

theorem Inv.attached_ne_root {x : JsString} (hx : Attached r.ops x) : x ≠ ROOT_ID := by
  obtain ⟨op, hop, rfl⟩ := hx.exists_insert
  exact (h.coherent.valid _ hop).opId_ne_root

/-- What is below an attached node is what is attached through it. -/
theorem Inv.below_iff {p x : JsString} (hp : Attached r.ops p) :
    Below r.childrenOf p x ↔ Attached r.ops x ∧ Through r.ops x p := by
  constructor
  · intro hbelow
    induction hbelow with
    | refl => exact ⟨hp, .refl⟩
    | tail _ hchild ih =>
      obtain ⟨hatt, op, hop, hid, hafter⟩ := h.mem_childrenOf_iff.1 hchild
      exact ⟨hatt, .head ⟨op, hop, hid, hafter⟩ ih.2⟩
  · rintro ⟨hatt, hthrough⟩
    induction hthrough using Relation.ReflTransGen.head_induction_on with
    | refl => exact .refl
    | head hlink hrest ih =>
      obtain ⟨op, hop, rfl, rfl⟩ := hlink
      have hanchor : Attached r.ops op.afterId := by
        refine ((h.coherent.attached_iff hop).1 hatt).resolve_left fun hroot => ?_
        rw [hroot] at hrest
        exact h.attached_ne_root hp (h.coherent.reach_root hrest)
      exact (ih hanchor).tail (h.mem_childrenOf_iff.2 ⟨hatt, op, hop, rfl, rfl⟩)

variable {order : List JsString} (t : Traversed r order)
include t

/-- **What is anchored below a node stands together, right after it.** -/
theorem Inv.block {n : JsString} (hn : Attached r.ops n) : ∃ before below after,
    order = before ++ n :: below ++ after ∧
      ∀ x, x ∈ n :: below ↔ Attached r.ops x ∧ Through r.ops x n := by
  obtain ⟨before, below, after, horder, hbelow⟩ := t.walk.block ((t.attached n).2 hn)
  refine ⟨before, below, after, horder, fun x => ?_⟩
  have hone : PreOrder r.childrenOf [n] (n :: (below ++ [])) := .cons hbelow .nil
  rw [List.append_nil] at hone
  rw [hone.mem_iff, ← h.below_iff hn]
  simp

/-- **Siblings do not mix**: what is below one of them stands before all that is below the other. -/
theorem Inv.apart {a p q : JsString} (hp : Attached r.ops p) (hq : Attached r.ops q) (hne : p ≠ q)
    (hpa : AnchoredOn r.ops p a) (hqa : AnchoredOn r.ops q a) :
    (∀ x y, Attached r.ops x → Attached r.ops y → Through r.ops x p → Through r.ops y q →
        [x, y].Sublist order) ∨
      ∀ x y, Attached r.ops x → Attached r.ops y → Through r.ops x p → Through r.ops y q →
        [y, x].Sublist order := by
  obtain ⟨i, hi, rfl, rfl⟩ := hpa
  have hpmem : i.opId ∈ r.childrenOf i.afterId := h.mem_childrenOf_iff.2 ⟨hp, i, hi, rfl, rfl⟩
  have hqmem : q ∈ r.childrenOf i.afterId := by
    obtain ⟨j, hj, rfl, hafter⟩ := hqa
    exact h.mem_childrenOf_iff.2 ⟨hq, j, hj, rfl, hafter⟩
  -- the walk over the siblings is a part of the whole walk
  have hwalk : ∃ inner, PreOrder r.childrenOf (r.childrenOf i.afterId) inner ∧
      inner.Sublist order := by
    rcases (h.coherent.attached_iff hi).1 hp with hroot | hatt
    · rw [hroot]
      exact ⟨order, t.walk, List.Sublist.refl _⟩
    · obtain ⟨before, below, after, horder, hbelow⟩ := t.walk.block ((t.attached _).2 hatt)
      refine ⟨below, hbelow, ?_⟩
      rw [horder, List.append_assoc, List.cons_append]
      exact ((List.sublist_append_left below after).cons _).trans (List.sublist_append_right _ _)
  obtain ⟨inner, hinner, hsub⟩ := hwalk
  obtain ⟨before, after, hsplit⟩ := List.append_of_mem hpmem
  rw [hsplit, List.mem_append, List.mem_cons] at hqmem
  rcases hqmem with hqmem | hqmem | hqmem
  · obtain ⟨front, mid, rfl⟩ := List.append_of_mem hqmem
    rw [hsplit, List.append_assoc, List.cons_append] at hinner
    exact Or.inr fun x y hx hy hxp hyq =>
      (hinner.apart ((h.below_iff hq).2 ⟨hy, hyq⟩) ((h.below_iff hp).2 ⟨hx, hxp⟩)).trans hsub
  · exact absurd hqmem.symm hne
  · obtain ⟨mid, back, rfl⟩ := List.append_of_mem hqmem
    rw [hsplit] at hinner
    exact Or.inl fun x y hx hy hxp hyq =>
      (hinner.apart ((h.below_iff hp).2 ⟨hx, hxp⟩) ((h.below_iff hq).2 ⟨hy, hyq⟩)).trans hsub

end

/-- **The traversal is the pre-order, and runs do not interleave.**  In every replica that the program
can hold, `getVisibleElements` ends and shows the attached nodes that are not tombstoned, each once,
in the order of the recursive walk from `ROOT`; the nodes whose chain of anchors passes through an
attached node stand together, right after it; and of two inserts on the same anchor, all that is
anchored below one stands before all that is anchored below the other. -/
theorem traversal_preOrder {r : TextReplica} (hr : Reachable r) : ∃ order, Traversed r order ∧
    (∀ n, Attached r.ops n → ∃ before below after, order = before ++ n :: below ++ after ∧
      ∀ x, x ∈ n :: below ↔ Attached r.ops x ∧ Through r.ops x n) ∧
    ∀ a p q, Attached r.ops p → Attached r.ops q → p ≠ q → AnchoredOn r.ops p a →
      AnchoredOn r.ops q a →
        (∀ x y, Attached r.ops x → Attached r.ops y → Through r.ops x p → Through r.ops y q →
            [x, y].Sublist order) ∨
          ∀ x y, Attached r.ops x → Attached r.ops y → Through r.ops x p → Through r.ops y q →
            [y, x].Sublist order := by
  obtain ⟨order, t⟩ := hr.inv.exists_preOrder
  exact ⟨order, t, fun n hn => hr.inv.block t hn,
    fun a p q hp hq hne hpa hqa => hr.inv.apart t hp hq hne hpa hqa⟩

/-- Two runs after the same anchor, delivered alternately. -/
theorem traversal_preOrder_runs :
    let a : TextOperation := .insert ⟨js "A:1", js "A", 1, 1, ROOT_ID, js "a"⟩
    let b : TextOperation := .insert ⟨js "B:1", js "B", 1, 1, ROOT_ID, js "c"⟩
    let a' : TextOperation := .insert ⟨js "A:2", js "A", 2, 2, js "A:1", js "b"⟩
    let b' : TextOperation := .insert ⟨js "B:2", js "B", 2, 2, js "B:1", js "d"⟩
    (∃ order, Traversed (empty.applyEach [a, b, a', b']) order) ∧
      (empty.applyEach [a, b, a', b']).materialize = .ok (js "abcd") := by
  intro a b a' b'
  have hreachable : Reachable (empty.applyEach [a, b, a', b']) :=
    .apply (.apply (.apply (.apply .empty a) b) a') b'
  obtain ⟨order, t, -⟩ := traversal_preOrder hreachable
  exact ⟨⟨order, t⟩, by decide +kernel⟩

/-! ## More operations -/

section

variable {r r' : TextReplica} (h : Inv r) (h' : Inv r') (hsub : r.ops ⊆ r'.ops)
include h h' hsub

theorem Inv.childrenOf_mono {keep : JsString → Bool} (hkeep : ∀ x, keep x = true ↔ Attached r.ops x)
    (p : JsString) : r.childrenOf p = (r'.childrenOf p).filter keep := by
  refine eq_of_strict_of_mem_iff (h.child_sorted_mono hsub p) ((h'.child_sorted p).filter _) fun id => ?_
  rw [List.mem_filter, hkeep, h.mem_childrenOf_iff, h'.mem_childrenOf_iff]
  constructor
  · rintro ⟨hatt, op, hop, hid, hafter⟩
    exact ⟨⟨hatt.mono hsub, op, hsub hop, hid, hafter⟩, hatt⟩
  · rintro ⟨⟨-, op, hop, hid, hafter⟩, hatt⟩
    obtain ⟨op', hop', hid'⟩ := hatt.exists_insert
    obtain rfl : op = op' := h'.insert_eq hop (hsub hop') (hid.trans hid'.symm)
    exact ⟨hatt, op, hop', hid, hafter⟩

/-- **What was attached keeps its order.** -/
theorem Inv.preOrder_mono {order order' : List JsString} (t : Traversed r order)
    (t' : Traversed r' order') {keep : JsString → Bool}
    (hkeep : ∀ x, keep x = true ↔ Attached r.ops x) : order = order'.filter keep := by
  have hwalk : PreOrder r.childrenOf (r.childrenOf ROOT_ID) (order'.filter keep) := by
    rw [h.childrenOf_mono h' hsub hkeep ROOT_ID]
    refine t'.walk.filter (fun p _ _ => h.childrenOf_mono h' hsub hkeep p) fun p hp hnot x hx => ?_
    rw [Bool.eq_false_iff, Ne, hkeep] at hnot ⊢
    intro hatt
    -- an anchor of what was attached was attached
    obtain ⟨op, hop, hid⟩ := hatt.exists_insert
    obtain ⟨-, op', hop', hid', hafter⟩ := h'.mem_childrenOf_iff.1 hx
    obtain rfl := h'.insert_eq hop' (hsub hop) (hid'.trans hid.symm)
    rw [← hid', h.coherent.attached_iff hop, hafter] at hatt
    exact hatt.elim (h'.attached_ne_root ((t'.attached p).1 hp)) hnot
  exact (PreOrder.iff_depthFirst.1 t.walk).unique (PreOrder.iff_depthFirst.1 hwalk)

/-- What is visible in both keeps its order. -/
theorem Inv.visible_stable {v v' : List VisibleElement} (hv : r.getVisibleElements = .ok v)
    (hv' : r'.getVisibleElements = .ok v') : v.filter (· ∈ v') = v'.filter (· ∈ v) := by
  classical
  obtain ⟨order, t⟩ := h.exists_preOrder
  obtain ⟨order', t'⟩ := h'.exists_preOrder
  obtain rfl := Except.ok.inj (hv.symm.trans t.visible)
  obtain rfl := Except.ok.inj (hv'.symm.trans t'.visible)
  have horder := @Inv.preOrder_mono _ _ h h' hsub _ _ t t' (fun x => decide (Attached r.ops x))
    fun x => decide_eq_true_iff
  have hshows : ∀ {s : TextReplica} {l : List JsString} (_ : Inv s) {e : VisibleElement},
      Traversed s l → (e ∈ l.filterMap s.visibleAt ↔ s.visibleAt e.id = some e) := by
    intro s l hs e ts
    rw [List.mem_filterMap]
    constructor
    · rintro ⟨id, -, he⟩
      rwa [((visibleAt_eq_some hs).1 he).1]
    · intro he
      refine ⟨e.id, (ts.attached _).2 ?_, he⟩
      exact (hs.visibleAt_iff.1 he).2.1
  rw [List.filter_filterMap, List.filter_filterMap]
  conv_lhs => rw [horder, List.filterMap_filter]
  refine List.filterMap_congr fun id _ => ?_
  ext e
  have hid : ∀ {s : TextReplica} (_ : Inv s), s.visibleAt id = some e → e.id = id :=
    fun hs he => ((visibleAt_eq_some hs).1 he).1
  simp only [Option.ite_none_right_eq_some, Option.filter_eq_some_iff, decide_eq_true_iff, hshows h t,
    hshows h' t']
  constructor
  · rintro ⟨-, he, he'⟩
    rw [hid h he] at he'
    exact ⟨he', by rw [hid h he]; exact he⟩
  · rintro ⟨he', he⟩
    rw [hid h' he'] at he
    exact ⟨(h.visibleAt_iff.1 he).2.1, he, by rw [hid h' he']; exact he'⟩

end

/-- **Applying operations never reorders the text.**  In every replica that the program can hold, and
for operations that apply without an error: what is visible before and after keeps its order; an
element disappears only if one of the operations is a new delete that targets it; and what a known
delete targets does not become visible again. -/
theorem text_stable {r : TextReplica} (hr : Reachable r) {l : List TextOperation}
    (hok : (r.applyAll l).2 = .ok ()) : ∃ v v', r.getVisibleElements = .ok v ∧
      (r.applyAll l).1.getVisibleElements = .ok v' ∧ v.filter (· ∈ v') = v'.filter (· ∈ v) ∧
      (∀ e ∈ v, e ∉ v' → ∃ d : DeleteOperation, .delete d ∈ l ∧ .delete d ∉ r.ops ∧
        d.targetId = e.id) ∧
      ∀ d : DeleteOperation, .delete d ∈ r.ops → ∀ e ∈ v', e.id ≠ d.targetId := by
  have h := hr.inv
  obtain ⟨h', -, hops⟩ := applyAll_spec l h
  have hops := hops hok
  have hsub : r.ops ⊆ (r.applyAll l).1.ops := by
    rw [hops]
    exact Set.subset_union_left
  obtain ⟨v, hv⟩ := h.visible_ok
  obtain ⟨v', hv'⟩ := h'.visible_ok
  have hshown : ∀ {s : TextReplica} {u : List VisibleElement} {e : VisibleElement}, Inv s →
      s.getVisibleElements = .ok u → e ∈ u → ¬ Tombstoned s.ops e.id := by
    intro s u e hs hu he htomb
    obtain ⟨n, hn, ht, -⟩ := (hs.visible_iff hu).1 he
    rw [(hs.node_tombstone e.id n hn).2 htomb] at ht
    cases ht
  refine ⟨v, v', hv, hv', h.visible_stable h' hsub hv hv', fun e he hgone => ?_, fun d hd e he heq => ?_⟩
  · rw [h.visible_mono h' hsub hv hv' he, not_not] at hgone
    obtain ⟨d, hd, htarget⟩ := hgone
    have hnew : .delete d ∉ r.ops := fun hd => hshown h hv he ⟨d, hd, htarget⟩
    rw [hops] at hd
    exact ⟨d, hd.resolve_left hnew, hnew, htarget⟩
  · exact hshown h' hv' he ⟨d, hsub hd, heq.symm⟩

/-- A pending insert is released and an element is deleted. -/
theorem text_stable_released :
    let a : TextOperation := .insert ⟨js "A:1", js "A", 1, 1, ROOT_ID, js "a"⟩
    let c : TextOperation := .insert ⟨js "C:1", js "C", 1, 2, js "B:1", js "c"⟩
    let b : TextOperation := .insert ⟨js "B:1", js "B", 1, 2, ROOT_ID, js "b"⟩
    let d : TextOperation := .delete ⟨js "A:2", js "A", 2, 3, js "B:1"⟩
    ∃ v v', (empty.applyEach [a, c]).getVisibleElements = .ok v ∧
      ((empty.applyEach [a, c]).applyAll [b, d]).1.getVisibleElements = .ok v' ∧
      v.filter (· ∈ v') = v'.filter (· ∈ v) ∧ v' = [⟨js "C:1", js "c"⟩, ⟨js "A:1", js "a"⟩] := by
  intro a c b d
  have hreachable : Reachable (empty.applyEach [a, c]) := .apply (.apply .empty a) c
  obtain ⟨v, v', hv, hv', hstable, -⟩ := @text_stable _ hreachable [b, d] (by decide +kernel)
  refine ⟨v, v', hv, hv', hstable, ?_⟩
  have hshown : ((empty.applyEach [a, c]).applyAll [b, d]).1.getVisibleElements =
      .ok [⟨js "C:1", js "c"⟩, ⟨js "A:1", js "a"⟩] := by
    decide +kernel
  exact Except.ok.inj (hv'.symm.trans hshown)

end TextReplica

end LocalFirst
