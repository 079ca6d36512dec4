import LocalFirst.Crdt.Apply

/-!
# The traversal

`getVisibleElements` walks the child lists from `ROOT` with an explicit stack.  From a state
of the invariant the walk ends without an error and visits every attached node exactly once.

* `TraverseInv` — the invariant of the loop: visited and stacked nodes are distinct, and
  their parents have been visited.
* `traverse_spec` — the loop visits every node once.
* `Inv.visible_spec`, `Inv.visible_iff` — the visible elements are the attached inserts that
  are not tombstoned.
-/

set_option autoImplicit false

namespace LocalFirst

namespace TextReplica

/-- The invariant of the loop: `seen` has been visited and `stack` is still to be. -/
structure TraverseInv (r : TextReplica) (seen stack : List JsString) : Prop where
  nodup : (seen ++ stack).Nodup
  node : ∀ id ∈ seen ++ stack, ∃ n, r.nodes.get? id = some n
  parent : ∀ id ∈ seen ++ stack, ∀ n, r.nodes.get? id = some n →
    n.afterId = ROOT_ID ∨ n.afterId ∈ seen
  child : ∀ p, p = ROOT_ID ∨ p ∈ seen → ∀ id ∈ r.childrenOf p, id ∈ seen ++ stack

/-- The element that a visited node contributes. -/
def visibleAt (r : TextReplica) (id : JsString) : Option VisibleElement :=
  match r.nodes.get? id with
  | some node => if node.tombstone then none else some ⟨node.id, node.value⟩
  | none => none

section

variable {r : TextReplica} (h : Inv r)
include h

theorem children_nodup (p : JsString) : (r.childrenOf p).Nodup :=
  (h.child_sorted p).imp fun hlt he => absurd hlt (by rw [he]; exact lt_irrefl _)

theorem TraverseInv.init : TraverseInv r [] (r.childrenOf ROOT_ID) where
  nodup := children_nodup h ROOT_ID
  node id hid := by
    obtain ⟨n, hn, -⟩ := (h.child_mem _ _).1 hid
    exact ⟨n, hn⟩
  parent id hid n hn := by
    obtain ⟨n', hn', haft⟩ := (h.child_mem _ _).1 hid
    rw [hn] at hn'
    cases hn'
    exact Or.inl haft
  child p hp id hid := by
    rcases hp with rfl | hp
    · exact hid
    · cases hp

/-- One pass of the loop. -/
theorem TraverseInv.step {seen stack : List JsString} {c : JsString}
    (t : TraverseInv r seen (c :: stack)) :
    TraverseInv r (seen ++ [c]) (r.childrenOf c ++ stack) := by
  obtain ⟨cn, hcn⟩ := t.node c (by simp)
  have hcroot : c ≠ ROOT_ID := by
    rintro rfl
    rw [h.root_not_node] at hcn
    cases hcn
  have hcseen : c ∉ seen := by
    intro hm
    have := List.nodup_append.1 t.nodup
    exact this.2.2 c hm c List.mem_cons_self rfl
  -- a child of `c` has not been met: the parent of everything met so far has been visited
  have hnew : ∀ id ∈ r.childrenOf c, id ∉ seen ++ c :: stack := by
    intro id hid hm
    obtain ⟨n, hn, haft⟩ := (h.child_mem _ _).1 hid
    rcases t.parent id hm n hn with hp | hp
    · exact hcroot (haft.symm.trans hp)
    · exact hcseen (by rw [← haft]; exact hp)
  have hperm : (seen ++ [c] ++ (r.childrenOf c ++ stack)).Perm
      (r.childrenOf c ++ (seen ++ c :: stack)) := by
    simp only [List.append_assoc, List.cons_append, List.nil_append]
    refine (List.Perm.append_left seen (List.Perm.cons c (List.perm_append_comm))).trans ?_
    rw [← List.cons_append, ← List.append_assoc]
    exact List.perm_append_comm
  have hmem : ∀ id, id ∈ seen ++ [c] ++ (r.childrenOf c ++ stack) ↔
      id ∈ r.childrenOf c ∨ id ∈ seen ++ c :: stack := by
    intro id
    rw [hperm.mem_iff, List.mem_append]
  constructor
  case nodup =>
    rw [hperm.nodup_iff, List.nodup_append]
    refine ⟨children_nodup h c, t.nodup, ?_⟩
    rintro id hid _ hm rfl
    exact hnew id hid hm
  case node =>
    intro id hid
    rcases (hmem id).1 hid with hid | hid
    · obtain ⟨n, hn, -⟩ := (h.child_mem _ _).1 hid
      exact ⟨n, hn⟩
    · exact t.node id hid
  case parent =>
    intro id hid n hn
    rcases (hmem id).1 hid with hid | hid
    · obtain ⟨n', hn', haft⟩ := (h.child_mem _ _).1 hid
      rw [hn] at hn'
      cases hn'
      exact Or.inr (by simp [haft])
    · rcases t.parent id hid n hn with hp | hp
      · exact Or.inl hp
      · exact Or.inr (List.mem_append_left _ hp)
  case child =>
    intro p hp id hid
    rw [hmem]
    rcases hp with hp | hp
    · exact Or.inr (t.child p (Or.inl hp) id hid)
    · rcases List.mem_append.1 hp with hp | hp
      · exact Or.inr (t.child p (Or.inr hp) id hid)
      · rw [List.mem_singleton.1 hp] at hid
        exact Or.inl hid

/-- When nothing is left to visit, every node has been visited. -/
theorem TraverseInv.complete {seen : List JsString} (t : TraverseInv r seen []) {id : JsString} :
    id ∈ seen ↔ ∃ n, r.nodes.get? id = some n := by
  constructor
  · intro hid
    exact t.node id (List.mem_append_left _ hid)
  · intro hn
    have hchild : ∀ {op : InsertOperation}, .insert op ∈ r.ops → Attached r.ops op.opId →
        op.opId ∈ r.childrenOf op.afterId := by
      intro op hop hatt
      obtain ⟨n, hn⟩ := h.node_of_attached hatt
      exact (h.child_mem _ _).2 ⟨n, hn, congrArg InsertOperation.afterId (h.insertOf_node hop hn)⟩
    have hatt := h.node_iff_attached.1 hn
    clear hn
    induction hatt with
    | base hl =>
      have hatt := Rooted.base hl
      obtain ⟨op, hop, rfl, hroot⟩ := hl
      have := t.child op.afterId (Or.inl hroot) op.opId (hchild hop hatt)
      simpa using this
    | step hl hy ih =>
      have hatt := Rooted.step hl hy
      obtain ⟨op, hop, rfl, rfl⟩ := hl
      have := t.child op.afterId (Or.inr ih) op.opId (hchild hop hatt)
      simpa using this

/-- **The loop visits every node once.** -/
theorem traverse_spec : ∀ (fuel : Nat) (seen stack : List JsString), TraverseInv r seen stack →
    r.nodes.size ≤ fuel + seen.length →
      ∃ rest, r.traverse fuel stack = .ok (rest.filterMap r.visibleAt) ∧
        TraverseInv r (seen ++ rest) []
  | fuel, seen, [], t, _ => ⟨[], by cases fuel <;> rfl, by simpa using t⟩
  | 0, seen, c :: stack, t, hf => by
    have := InsMap.length_le_size t.nodup t.node
    simp only [List.length_append, List.length_cons] at this
    omega
  | fuel + 1, seen, c :: stack, t, hf => by
    obtain ⟨n, hn⟩ := t.node c (by simp)
    have hid := (h.node_insert c n hn).1
    have hchildren : ((r.childrenByParent.get? n.id).getD []).filter (· ≠ []) = r.childrenOf c := by
      rw [hid]
      refine List.filter_eq_self.2 fun x hx => ?_
      obtain ⟨m, hm, -⟩ := (h.child_mem _ _).1 hx
      simpa using h.node_id_ne_nil hm
    obtain ⟨rest, hrest, ht⟩ := traverse_spec fuel (seen ++ [c]) (r.childrenOf c ++ stack)
      (t.step h) (by simp only [List.length_append, List.length_singleton]; omega)
    refine ⟨c :: rest, ?_, by simpa using ht⟩
    simp only [traverse, if_neg (h.node_id_ne_nil hn), hn, hchildren, hrest,
      List.filterMap_cons, visibleAt]
    split
    · rfl
    · rfl

/-- **The visible elements**: the walk succeeds, and it lists the elements of an enumeration
of the nodes. -/
theorem Inv.visible_spec : ∃ order : List JsString,
    r.getVisibleElements = .ok (order.filterMap r.visibleAt) ∧ order.Nodup ∧
      ∀ id, id ∈ order ↔ ∃ n, r.nodes.get? id = some n := by
  obtain ⟨order, hv, ht⟩ := traverse_spec h r.nodes.size [] _ (TraverseInv.init h) (by simp)
  refine ⟨order, hv, by simpa using ht.nodup, fun id => ?_⟩
  have hmem : id ∈ _ ↔ _ := ht.complete h
  simpa using hmem

theorem Inv.visible_ok : ∃ elements, r.getVisibleElements = .ok elements := by
  obtain ⟨order, hv, -⟩ := h.visible_spec
  exact ⟨_, hv⟩

theorem Inv.materialize_ok : ∃ text, r.materialize = .ok text := by
  obtain ⟨elements, hv⟩ := h.visible_ok
  unfold materialize
  rw [hv]
  exact ⟨_, rfl⟩

theorem visibleAt_eq_some {id : JsString} {e : VisibleElement} : r.visibleAt id = some e ↔
    e.id = id ∧ ∃ n, r.nodes.get? id = some n ∧ n.tombstone = false ∧ n.value = e.value := by
  unfold visibleAt
  cases hn : r.nodes.get? id with
  | none => simp
  | some n =>
    have hid := (h.node_insert id n hn).1
    obtain ⟨eid, evalue⟩ := e
    cases ht : n.tombstone with
    | true => simp [ht]
    | false =>
      have : id = eid ↔ eid = id := eq_comm
      simp [ht, hid, this]

/-- An element is visible exactly when it is a node that is not tombstoned. -/
theorem Inv.visible_iff {elements : List VisibleElement}
    (hv : r.getVisibleElements = .ok elements) {e : VisibleElement} : e ∈ elements ↔
      ∃ n, r.nodes.get? e.id = some n ∧ n.tombstone = false ∧ n.value = e.value := by
  obtain ⟨order, hv', -, hmem⟩ := h.visible_spec
  rw [hv] at hv'
  cases hv'
  simp only [List.mem_filterMap]
  constructor
  · rintro ⟨id, -, hid⟩
    obtain ⟨rfl, hn⟩ := (visibleAt_eq_some h).1 hid
    exact hn
  · rintro ⟨n, hn, hrest⟩
    exact ⟨e.id, (hmem _).2 ⟨n, hn⟩, (visibleAt_eq_some h).2 ⟨rfl, n, hn, hrest⟩⟩

/-- A visible element is an insert that the replica knows. -/
theorem Inv.visible_insert {elements : List VisibleElement}
    (hv : r.getVisibleElements = .ok elements) {e : VisibleElement} (he : e ∈ elements) :
    ∃ op : InsertOperation, .insert op ∈ r.ops ∧ op.opId = e.id ∧ op.value = e.value := by
  obtain ⟨n, hn, -, hvalue⟩ := (h.visible_iff hv).1 he
  obtain ⟨hid, hop⟩ := h.node_insert e.id n hn
  exact ⟨insertOf n, hop, hid, hvalue⟩

/-- In a replica that knows more, a visible element stays so unless it is deleted. -/
theorem Inv.visible_mono {r' : TextReplica} (h' : Inv r') (hsub : r.ops ⊆ r'.ops)
    {elements elements' : List VisibleElement} (hv : r.getVisibleElements = .ok elements)
    (hv' : r'.getVisibleElements = .ok elements') {e : VisibleElement} (he : e ∈ elements) :
    e ∈ elements' ↔ ¬ Tombstoned r'.ops e.id := by
  obtain ⟨n, hn, -, hvalue⟩ := (h.visible_iff hv).1 he
  obtain ⟨n', hn'⟩ := h'.node_of_attached ((h.node_attached e.id n hn).mono hsub)
  obtain ⟨hid, hop⟩ := h.node_insert e.id n hn
  obtain ⟨hid', hop'⟩ := h'.node_insert e.id n' hn'
  have heq : insertOf n = insertOf n' := h'.insert_eq (hsub hop) hop' (hid.trans hid'.symm)
  have hval : n.value = n'.value := congrArg InsertOperation.value heq
  rw [h'.visible_iff hv', ← h'.node_tombstone e.id n' hn']
  constructor
  · rintro ⟨m, hm, ht, -⟩
    rw [hn'] at hm
    cases hm
    rw [ht]
    decide
  · intro ht
    exact ⟨n', hn', by simpa using ht, by rw [← hval]; exact hvalue⟩

/-- The visible elements have distinct identities. -/
theorem Inv.visible_nodup {elements : List VisibleElement}
    (hv : r.getVisibleElements = .ok elements) : (elements.map (·.id)).Nodup := by
  obtain ⟨order, hv', hnd, -⟩ := h.visible_spec
  rw [hv] at hv'
  cases hv'
  have hsub : ((order.filterMap r.visibleAt).map (·.id)).Sublist order := by
    clear hv hnd
    induction order with
    | nil => exact List.Sublist.slnil
    | cons id order ih =>
      cases hid : r.visibleAt id with
      | none => simpa [List.filterMap_cons, hid] using ih.cons id
      | some e =>
        have := ((visibleAt_eq_some h).1 hid).1
        simpa [List.filterMap_cons, hid, this] using ih
  exact hnd.sublist hsub

end

end TextReplica

end LocalFirst
