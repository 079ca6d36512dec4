import LocalFirst.Crdt.RoundTrip
import LocalFirst.Lib.DepthFirst

/-!
# Local operations and the order of the document

In a replica without unresolved operations, a delete takes its target out of the visible
elements, and an insert with the largest Lamport value comes right after its anchor, whatever
subtrees and tombstones the anchor has.

* `Walked` — the nodes in the order in which the traversal meets them, `ROOT` first.
* `Inv.walk_insert`, `Inv.walk_delete` — that order after one more operation.
* `Inv.apply_insert`, `Inv.apply_delete` — the visible elements after one more operation.
-/

set_option autoImplicit false

namespace LocalFirst

namespace TextReplica

/-! ## The traversal as a walk -/

/-- `ROOT` and the nodes, in the order of the traversal. -/
structure Walked (r : TextReplica) (order : List JsString) : Prop where
  walk : DepthFirst r.childrenOf [ROOT_ID] order
  nodup : order.Nodup
  mem : ∀ id, id ∈ order ↔ id = ROOT_ID ∨ ∃ n, r.nodes.get? id = some n
  visible : r.getVisibleElements = .ok (order.filterMap r.visibleAt)

section

variable {r : TextReplica} (h : Inv r)
include h

theorem TraverseInv.depthFirst {stack order : List JsString}
    (hwalk : DepthFirst r.childrenOf stack order) : ∀ {seen : List JsString},
      TraverseInv r seen stack → TraverseInv r (seen ++ order) [] := by
  induction hwalk with
  | done =>
    intro seen t
    rwa [List.append_nil]
  | @visit x stack order _ ih =>
    intro seen t
    have t' := ih (t.step h)
    rwa [List.append_assoc] at t'

theorem traverse_depthFirst : ∀ (fuel : Nat) (stack : List JsString)
    {elements : List VisibleElement}, (∀ id ∈ stack, id ≠ []) →
      r.traverse fuel stack = .ok elements →
        ∃ order, DepthFirst r.childrenOf stack order ∧ elements = order.filterMap r.visibleAt
  | fuel, [], elements, _, ht => by
    have hnil : r.traverse fuel [] = .ok [] := by cases fuel <;> rfl
    rw [hnil] at ht
    exact ⟨[], .done, (Except.ok.inj ht).symm⟩
  | 0, _ :: _, _, _, ht => by cases ht
  | fuel + 1, id :: stack, elements, hne, ht => by
    have hid := hne id List.mem_cons_self
    cases hn : r.nodes.get? id with
    | none => simp [traverse, hid, hn] at ht
    | some node =>
      have hnode := (h.node_insert id node hn).1
      have hchild : ∀ x ∈ r.childrenOf id, x ≠ [] := by
        intro x hx
        obtain ⟨m, hm, -⟩ := (h.child_mem id x).1 hx
        exact h.node_id_ne_nil hm
      have hchildren : ((r.childrenByParent.get? node.id).getD []).filter (· ≠ []) =
          r.childrenOf id := by
        rw [hnode]
        refine List.filter_eq_self.2 fun x hx => ?_
        simpa using hchild x hx
      simp only [traverse, if_neg hid, hn, hchildren] at ht
      have hstack : ∀ x ∈ r.childrenOf id ++ stack, x ≠ [] := by
        intro x hx
        rcases List.mem_append.1 hx with hx | hx
        · exact hchild x hx
        · exact hne x (List.mem_cons_of_mem id hx)
      cases htomb : node.tombstone with
      | true =>
        rw [htomb, if_pos rfl] at ht
        obtain ⟨order, hwalk, hel⟩ := traverse_depthFirst fuel _ hstack ht
        refine ⟨id :: order, .visit hwalk, ?_⟩
        simp [visibleAt, hn, htomb, hel]
      | false =>
        rw [htomb, if_neg (by decide)] at ht
        obtain ⟨rest, hrest, hel⟩ := exists_ok_of_map ht
        obtain ⟨order, hwalk, hrest⟩ := traverse_depthFirst fuel _ hstack hrest
        refine ⟨id :: order, .visit hwalk, ?_⟩
        simp [visibleAt, hn, htomb, ← hel, hrest]

theorem visibleAt_root : r.visibleAt ROOT_ID = none := by
  unfold visibleAt
  rw [h.root_not_node]

/-- The traversal of a replica. -/
theorem Inv.exists_walked : ∃ order, Walked r order := by
  obtain ⟨elements, hv⟩ := h.visible_ok
  obtain ⟨order, hwalk, hel⟩ := traverse_depthFirst h r.nodes.size (r.childrenOf ROOT_ID)
    (fun id hid => by
      obtain ⟨n, hn, -⟩ := (h.child_mem _ _).1 hid
      exact h.node_id_ne_nil hn) hv
  have t := TraverseInv.depthFirst h hwalk (TraverseInv.init h)
  rw [List.nil_append] at t
  have hmem : ∀ id, id ∈ order ↔ ∃ n, r.nodes.get? id = some n := fun id => t.complete h
  refine ⟨ROOT_ID :: order, .visit ?_, ?_, fun id => ?_, ?_⟩
  · rwa [List.append_nil]
  · rw [List.nodup_cons, hmem]
    refine ⟨?_, by simpa using t.nodup⟩
    intro ⟨n, hn⟩
    rw [h.root_not_node] at hn
    cases hn
  · rw [List.mem_cons, hmem]
  · rw [hv, hel, List.filterMap_cons, visibleAt_root h]

theorem Walked.of_walk {order : List JsString} (hwalk : DepthFirst r.childrenOf [ROOT_ID] order) :
    Walked r order := by
  obtain ⟨order', hw⟩ := h.exists_walked
  rw [hwalk.unique hw.walk]
  exact hw

/-- What a node shows, by the known operations. -/
theorem Inv.visibleAt_iff {id : JsString} {e : VisibleElement} : r.visibleAt id = some e ↔
    e.id = id ∧ Attached r.ops id ∧ ¬ Tombstoned r.ops id ∧
      ∃ op : InsertOperation, .insert op ∈ r.ops ∧ op.opId = id ∧ op.value = e.value := by
  rw [visibleAt_eq_some h]
  refine and_congr_right fun _ => ?_
  constructor
  · intro ⟨n, hn, ht, hv⟩
    obtain ⟨hid, hop⟩ := h.node_insert id n hn
    refine ⟨h.node_attached id n hn, ?_, insertOf n, hop, hid, hv⟩
    rw [← h.node_tombstone id n hn, ht]
    decide
  · intro ⟨hatt, ht, op, hop, hid, hv⟩
    obtain ⟨n, hn⟩ := h.node_of_attached hatt
    rw [← h.node_tombstone id n hn] at ht
    have hins : insertOf n = op := h.insertOf_node hop (by rw [hid]; exact hn)
    refine ⟨n, hn, by simpa using ht, ?_⟩
    rw [← hv, ← hins]
    rfl

end

/-! ## One more operation -/

/-- An insert that nothing is anchored on attaches itself alone. -/
theorem attached_insert_leaf {S : Set TextOperation} {op : InsertOperation}
    (hready : op.afterId = ROOT_ID ∨ Attached S op.afterId)
    (hleaf : ∀ i : InsertOperation, .insert i ∈ S → i.afterId ≠ op.opId) {x : JsString} :
    Attached (insert (.insert op) S) x ↔ Attached S x ∨ x = op.opId := by
  constructor
  · intro hx
    induction hx with
    | base hl =>
      rcases (anchoredOn_insert op _ _).1 hl with hl | ⟨hx, -⟩
      · exact Or.inl (.base hl)
      · exact Or.inr hx
    | step hl _ ih =>
      rcases (anchoredOn_insert op _ _).1 hl with hl | ⟨hx, -⟩
      · rcases ih with hy | rfl
        · exact Or.inl (.step hl hy)
        · obtain ⟨i, hi, -, hafter⟩ := hl
          exact absurd hafter (hleaf i hi)
      · exact Or.inr hx
  · intro hx
    have hsub := Set.subset_insert (TextOperation.insert op) S
    rcases hx with hx | rfl
    · exact hx.mono hsub
    · rcases hready with hroot | hatt
      · exact .base ⟨op, Or.inl rfl, rfl, hroot⟩
      · exact .step ⟨op, Or.inl rfl, rfl, rfl⟩ (hatt.mono hsub)

theorem attached_insert_delete {S : Set TextOperation} {op : DeleteOperation} {x : JsString} :
    Attached (insert (.delete op) S) x ↔ Attached S x := by
  constructor
  · exact Rooted.mono fun a b => (anchoredOn_delete op a b).1
  · exact Attached.mono (Set.subset_insert _ _)

section

variable {r r' : TextReplica} (h : Inv r)
include h

/-- The children of a node, by the known operations. -/
theorem Inv.mem_childrenOf_iff {p id : JsString} : id ∈ r.childrenOf p ↔ Attached r.ops id ∧
    ∃ op : InsertOperation, .insert op ∈ r.ops ∧ op.opId = id ∧ op.afterId = p := by
  rw [h.child_mem]
  constructor
  · intro ⟨n, hn, hafter⟩
    obtain ⟨hid, hop⟩ := h.node_insert id n hn
    exact ⟨h.node_attached id n hn, insertOf n, hop, hid, hafter⟩
  · intro ⟨hatt, op, hop, hid, hafter⟩
    obtain ⟨n, hn⟩ := h.node_of_attached hatt
    have hins : insertOf n = op := h.insertOf_node hop (by rw [hid]; exact hn)
    exact ⟨n, hn, by rw [← hafter, ← hins]; rfl⟩

/-- Child lists stay sorted by what a larger replica knows. -/
theorem Inv.child_sorted_mono (hsub : r.ops ⊆ r'.ops) (p : JsString) : (r.childrenOf p).Pairwise
    (fun x y => idKey r'.knownOperations x < idKey r'.knownOperations y) := by
  have hkey : ∀ x ∈ r.childrenOf p, idKey r'.knownOperations x = idKey r.knownOperations x := by
    intro x hx
    obtain ⟨-, op, hop, rfl, -⟩ := h.mem_childrenOf_iff.1 hx
    exact (idKey_of_get? (mem_ops.1 (hsub hop))).trans (idKey_of_get? (mem_ops.1 hop)).symm
  refine (h.child_sorted p).imp_of_mem fun hx hy hlt => ?_
  rwa [hkey _ hx, hkey _ hy]

variable (h' : Inv r')
include h'

/-- A delete leaves the order. -/
theorem Inv.walk_delete {op : DeleteOperation} (hops : r'.ops = insert (.delete op) r.ops)
    {order : List JsString} (w : Walked r order) : Walked r' order := by
  refine Walked.of_walk h' (w.walk.congr fun p _ => ?_)
  have hsub : r.ops ⊆ r'.ops := by
    rw [hops]
    exact Set.subset_insert _ _
  refine eq_of_strict_of_mem_iff (h'.child_sorted p) (h.child_sorted_mono hsub p) fun id => ?_
  rw [h'.mem_childrenOf_iff, h.mem_childrenOf_iff, hops, attached_insert_delete]
  simp

theorem Inv.visibleAt_delete {op : DeleteOperation} (hops : r'.ops = insert (.delete op) r.ops)
    (id : JsString) : r'.visibleAt id = if id = op.targetId then none else r.visibleAt id := by
  ext e
  rw [h'.visibleAt_iff, hops, attached_insert_delete, tombstoned_delete]
  split
  · rename_i hid
    simp [hid]
  · rename_i hid
    rw [h.visibleAt_iff]
    simp [Ne.symm hid]

variable {op : InsertOperation} (hops : r'.ops = insert (.insert op) r.ops)
  (hready : op.afterId = ROOT_ID ∨ Attached r.ops op.afterId)
  (hleaf : ∀ i : InsertOperation, .insert i ∈ r.ops → i.afterId ≠ op.opId)
include hops hready hleaf

/-- An insert with the largest Lamport value becomes the first child of its anchor. -/
theorem Inv.childrenOf_insert (hnew : ∀ o ∈ r.ops, o.opId ≠ op.opId)
    (hlamport : ∀ o ∈ r.ops, o.lamport < op.lamport) (p : JsString) :
    r'.childrenOf p = if p = op.afterId then op.opId :: r.childrenOf p else r.childrenOf p := by
  have hsub : r.ops ⊆ r'.ops := by
    rw [hops]
    exact Set.subset_insert _ _
  have hself : TextOperation.insert op ∈ r'.ops := by
    rw [hops]
    exact Set.mem_insert _ _
  have hmem : ∀ id, id ∈ r'.childrenOf p ↔ id ∈ r.childrenOf p ∨ (p = op.afterId ∧ id = op.opId) := by
    intro id
    rw [h'.mem_childrenOf_iff, h.mem_childrenOf_iff, hops, attached_insert_leaf hready hleaf]
    constructor
    · intro ⟨hatt, i, hi, hid, hafter⟩
      rcases hi with hi | hi
      · cases hi
        exact Or.inr ⟨hafter.symm, hid.symm⟩
      · refine Or.inl ⟨hatt.resolve_right fun he => ?_, i, hi, hid, hafter⟩
        exact hnew _ hi (hid.trans he)
    · intro hor
      rcases hor with ⟨hatt, i, hi, hid, hafter⟩ | ⟨rfl, rfl⟩
      · exact ⟨Or.inl hatt, i, Or.inr hi, hid, hafter⟩
      · exact ⟨Or.inr rfl, op, Or.inl rfl, rfl, rfl⟩
  have hsorted := h.child_sorted_mono hsub p
  split
  · rename_i hp
    refine eq_of_strict_of_mem_iff (h'.child_sorted p) (List.pairwise_cons.2 ⟨?_, hsorted⟩) ?_
    · -- the new key is below that of every sibling
      intro id hid
      obtain ⟨-, i, hi, rfl, -⟩ := h.mem_childrenOf_iff.1 hid
      rw [show idKey r'.knownOperations op.opId = opKey (.insert op) from idKey_of_get? hself,
        show idKey r'.knownOperations i.opId = opKey (.insert i) from idKey_of_get? (hsub hi)]
      have hlt := hlamport _ hi
      simp only [TextOperation.lamport_insert] at hlt
      simp [opKey, Prod.Lex.toLex_lt_toLex, hlt]
    · intro id
      rw [hmem, List.mem_cons, or_comm]
      simp [hp]
  · rename_i hp
    refine eq_of_strict_of_mem_iff (h'.child_sorted p) hsorted fun id => ?_
    simp [hmem, hp]

/-- **An insert with the largest Lamport value comes right after its anchor.** -/
theorem Inv.walk_insert (hv : ValidOperation (.insert op)) (hnew : ∀ o ∈ r.ops, o.opId ≠ op.opId)
    (hlamport : ∀ o ∈ r.ops, o.lamport < op.lamport) {before after : List JsString}
    (w : Walked r (before ++ op.afterId :: after)) :
    Walked r' (before ++ op.afterId :: op.opId :: after) := by
  have hchildren := h.childrenOf_insert h' hops hready hleaf hnew hlamport
  have hne := hv.afterId_ne_opId
  refine Walked.of_walk h' (w.walk.graft ?_ w.nodup ?_ ?_ ?_ rfl)
  · intro hm
    rcases (w.mem _).1 hm with hroot | ⟨n, hn⟩
    · exact hv.opId_ne_root hroot
    · obtain ⟨hid, hop⟩ := h.node_insert _ n hn
      exact hnew _ hop hid
  · rw [hchildren, if_neg (Ne.symm hne)]
    refine List.eq_nil_iff_forall_not_mem.2 fun id hid => ?_
    obtain ⟨-, i, hi, -, hafter⟩ := h.mem_childrenOf_iff.1 hid
    exact hleaf i hi hafter
  · rw [hchildren, if_pos rfl]
  · intro x _ hx
    rw [hchildren, if_neg hx]

theorem Inv.visibleAt_insert (hnew : ∀ o ∈ r.ops, o.opId ≠ op.opId)
    (hdelete : ∀ d : DeleteOperation, .delete d ∈ r.ops → d.targetId ≠ op.opId) (id : JsString) :
    r'.visibleAt id = if id = op.opId then some ⟨op.opId, op.value⟩ else r.visibleAt id := by
  ext e
  rw [h'.visibleAt_iff, hops, attached_insert_leaf hready hleaf, tombstoned_insert]
  split
  · rename_i hid
    subst hid
    constructor
    · intro ⟨_, _, _, i, hi, hi', hvalue⟩
      rcases hi with hi | hi
      · cases hi
        cases e
        simp_all
      · exact absurd hi' (hnew _ hi)
    · intro he
      cases he
      refine ⟨rfl, Or.inr rfl, ?_, op, Or.inl rfl, rfl, rfl⟩
      intro ⟨d, hd, htarget⟩
      exact hdelete d hd htarget
  · rename_i hid
    rw [h.visibleAt_iff]
    refine and_congr_right fun _ => ?_
    constructor
    · intro ⟨hatt, ht, i, hi, hi', hvalue⟩
      refine ⟨hatt.resolve_right hid, ht, i, ?_, hi', hvalue⟩
      rcases hi with hi | hi
      · cases hi
        exact absurd hi'.symm hid
      · exact hi
    · intro ⟨hatt, ht, i, hi, hi', hvalue⟩
      exact ⟨Or.inl hatt, ht, i, Or.inr hi, hi', hvalue⟩

end

/-! ## A local operation on a replica without unresolved operations -/

/-- The anchor of an insert that comes after the elements `before`. -/
def anchorOf (before : List VisibleElement) : JsString :=
  (before.getLast?.map (·.id)).getD ROOT_ID

section

variable {r : TextReplica} (h : Inv r) (hres : r.getUnresolvedOperationIds = [])
include h hres

omit hres in
theorem Inv.fresh_of_new {x : JsString} (hnew : ∀ o ∈ r.ops, o.opId ≠ x) :
    r.knownOperations.get? x = none := by
  rw [Option.eq_none_iff_forall_ne_some]
  intro o ho
  exact hnew o (h.known_ops ho) (h.known_id x o ho)

/-- Nothing known refers to an identity that is not known. -/
theorem Inv.unreferenced {x : JsString} (hx : x ≠ ROOT_ID) (hnew : ∀ o ∈ r.ops, o.opId ≠ x) :
    (∀ i : InsertOperation, .insert i ∈ r.ops → i.afterId ≠ x) ∧
      ∀ d : DeleteOperation, .delete d ∈ r.ops → d.targetId ≠ x := by
  obtain ⟨hins, hdel⟩ := h.resolved_iff.1 hres
  have hnone : ¬ Attached r.ops x := by
    intro hatt
    obtain ⟨op, hop, hid⟩ := hatt.exists_insert
    exact hnew _ hop hid
  constructor
  · intro i hi he
    rcases (h.coherent.attached_iff hi).1 (hins i hi) with hroot | hatt
    · exact hx (he.symm.trans hroot)
    · rw [he] at hatt
      exact hnone hatt
  · intro d hd he
    have hatt := hdel d hd
    rw [he] at hatt
    exact hnone hatt

/-- **A delete takes its target out of the visible elements.** -/
theorem Inv.apply_delete {op : DeleteOperation} (hv : ValidOperation (.delete op))
    (hnew : ∀ o ∈ r.ops, o.opId ≠ op.opId) {before after : List VisibleElement}
    {e : VisibleElement} (hvis : r.getVisibleElements = .ok (before ++ e :: after))
    (htarget : op.targetId = e.id) :
    ∃ r', r.apply (.delete op) = (r', .ok .applied) ∧ Inv r' ∧
      r'.getUnresolvedOperationIds = [] ∧ r'.ops = insert (.delete op) r.ops ∧
      r'.getVisibleElements = .ok (before ++ after) := by
  have hfresh := h.fresh_of_new hnew
  have hcoherent : Coherent (insert (.delete op) r.ops) :=
    (coherent_insert_iff h.coherent hv hnew).2 (h.unreferenced hres hv.opId_ne_root hnew).1
  have hatt : Attached r.ops op.targetId := by
    obtain ⟨n, hn, -⟩ := (h.visible_iff hvis (e := e)).1 (by simp)
    rw [htarget]
    exact h.node_attached e.id n hn
  obtain ⟨r', hr, h', hk⟩ := apply_new h hv hfresh hcoherent
  have hops : r'.ops = insert (.delete op) r.ops := ops_of_known hfresh hk
  have hsettles : r.settles (.delete op) = true := by
    show r.nodes.has op.targetId = true
    rw [InsMap.has_iff, h.node_iff_attached]
    exact hatt
  rw [hsettles, if_pos rfl] at hr
  refine ⟨r', hr, h', h'.resolved_iff.2 ?_, hops, ?_⟩
  · obtain ⟨hins, hdel⟩ := h.resolved_iff.1 hres
    rw [hops]
    refine ⟨fun i hi => ?_, fun d hd => ?_⟩
    · rw [attached_insert_delete]
      exact hins i (by simpa using hi)
    · rw [attached_insert_delete]
      rcases hd with hd | hd
      · cases hd
        exact hatt
      · exact hdel d hd
  · -- the order stays, and the target shows nothing
    obtain ⟨order, w⟩ := h.exists_walked
    have hlist : order.filterMap r.visibleAt = before ++ e :: after :=
      Except.ok.inj (w.visible.symm.trans hvis)
    have hids := h.visible_nodup hvis
    have hshow : order.filterMap r'.visibleAt =
        (order.filterMap r.visibleAt).filter (fun x => x.id ≠ op.targetId) := by
      rw [List.filter_filterMap]
      refine List.filterMap_congr fun id _ => ?_
      rw [h.visibleAt_delete h' hops]
      cases hid : r.visibleAt id with
      | none => simp
      | some x =>
        have hx : x.id = id := ((visibleAt_eq_some h).1 hid).1
        by_cases heq : id = op.targetId <;> simp [heq, hx, Option.filter]
    rw [(h.walk_delete h' hops w).visible, hshow, hlist, htarget]
    simp only [List.map_append, List.map_cons] at hids
    rw [List.nodup_middle, List.nodup_cons, List.mem_append, List.mem_map, List.mem_map] at hids
    refine congrArg Except.ok ?_
    rw [List.filter_append, List.filter_cons_of_neg (by simp)]
    congr 1
    · refine List.filter_eq_self.2 fun x hx => ?_
      simp only [ne_eq, decide_eq_true_eq]
      exact fun he => hids.1 (Or.inl ⟨x, hx, he⟩)
    · refine List.filter_eq_self.2 fun x hx => ?_
      simp only [ne_eq, decide_eq_true_eq]
      exact fun he => hids.1 (Or.inr ⟨x, hx, he⟩)

omit hres in
/-- The order, split after the element that an insert is anchored on. -/
theorem Inv.walked_split {before after : List VisibleElement}
    (hvis : r.getVisibleElements = .ok (before ++ after)) :
    ∃ front back, Walked r (front ++ anchorOf before :: back) ∧
      (front ++ [anchorOf before]).filterMap r.visibleAt = before ∧
      back.filterMap r.visibleAt = after := by
  obtain ⟨order, w⟩ := h.exists_walked
  have hlist : order.filterMap r.visibleAt = before ++ after :=
    Except.ok.inj (w.visible.symm.trans hvis)
  rcases List.eq_nil_or_concat before with rfl | ⟨rest, e, rfl⟩
  · obtain ⟨tail, rfl⟩ : ∃ tail, order = ROOT_ID :: tail := by
      cases w.walk with
      | visit _ => exact ⟨_, rfl⟩
    refine ⟨[], tail, w, by simp [anchorOf, visibleAt_root h], ?_⟩
    rw [List.filterMap_cons, visibleAt_root h] at hlist
    exact hlist
  · have he : e ∈ order.filterMap r.visibleAt := by
      rw [hlist]
      simp
    obtain ⟨id, hid, hshow⟩ := List.mem_filterMap.1 he
    have heid := ((visibleAt_eq_some h).1 hshow).1
    obtain ⟨front, back, rfl⟩ := List.append_of_mem hid
    have hids := h.visible_nodup hvis
    rw [← hlist, List.filterMap_append, List.filterMap_cons, hshow] at hids
    rw [List.filterMap_append, List.filterMap_cons, hshow, List.concat_eq_append,
      List.append_assoc, List.singleton_append] at hlist
    simp only [List.map_append, List.map_cons] at hids
    rw [List.nodup_middle, List.nodup_cons, List.mem_append] at hids
    have hno : ∀ {l : List VisibleElement}, e ∈ l → e.id ∈ l.map (·.id) := fun hm =>
      List.mem_map.2 ⟨e, hm, rfl⟩
    -- the element occurs once, so the two ways to split the visible elements at it agree
    obtain ⟨hfront, -, hback⟩ := (List.append_cons_inj_of_notMem
      (fun hm => hids.1 (Or.inl (hno hm))) (fun hm => hids.1 (Or.inr (hno hm)))).1 hlist
    have hanchor : anchorOf (rest.concat e) = id := by
      rw [← heid]
      simp [anchorOf]
    rw [hanchor]
    refine ⟨front, back, w, ?_, hback⟩
    rw [List.filterMap_append, hfront]
    simp [hshow]

/-- An insert anchored on something attached can be added. -/
theorem Inv.coherent_insert {op : InsertOperation} (hv : ValidOperation (.insert op))
    (hnew : ∀ o ∈ r.ops, o.opId ≠ op.opId)
    (hready : op.afterId = ROOT_ID ∨ Attached r.ops op.afterId) :
    Coherent (insert (.insert op) r.ops) := by
  obtain ⟨hleaf, -⟩ := h.unreferenced hres hv.opId_ne_root hnew
  refine (coherent_insert_iff h.coherent hv hnew).2 ⟨fun hreach => ?_, fun d hd he => ?_⟩
  · -- a chain that ends at the new identity would end in a known insert anchored on it
    rcases Relation.ReflTransGen.cases_tail hreach with heq | ⟨y, -, i, hi, -, hi'⟩
    · exact hv.afterId_ne_opId heq.symm
    · exact hleaf i hi hi'
  · rcases hready with hroot | hatt
    · exact (h.coherent.valid _ hd).opId_ne_root (he.symm.trans hroot)
    · obtain ⟨i, hi, hid⟩ := hatt.exists_insert
      cases h.coherent.unique _ hi _ hd (hid.trans he)

/-- **An insert with the largest Lamport value puts its element right after its anchor.** -/
theorem Inv.apply_insert {op : InsertOperation} (hv : ValidOperation (.insert op))
    (hnew : ∀ o ∈ r.ops, o.opId ≠ op.opId) (hlamport : ∀ o ∈ r.ops, o.lamport < op.lamport)
    {before after : List VisibleElement} (hvis : r.getVisibleElements = .ok (before ++ after))
    (hanchor : op.afterId = anchorOf before) :
    ∃ r', r.apply (.insert op) = (r', .ok .applied) ∧ Inv r' ∧
      r'.getUnresolvedOperationIds = [] ∧ r'.ops = insert (.insert op) r.ops ∧
      r'.getVisibleElements = .ok (before ++ ⟨op.opId, op.value⟩ :: after) := by
  have hfresh := h.fresh_of_new hnew
  obtain ⟨hleaf, hdelete⟩ := h.unreferenced hres hv.opId_ne_root hnew
  obtain ⟨front, back, w, hbefore, hafter⟩ := h.walked_split hvis
  rw [← hanchor] at w hbefore
  have hready : op.afterId = ROOT_ID ∨ Attached r.ops op.afterId := by
    rw [← h.node_iff_attached]
    exact (w.mem op.afterId).1 (by simp)
  have hcoherent := h.coherent_insert hres hv hnew hready
  obtain ⟨r', hr, h', hk⟩ := apply_new h hv hfresh hcoherent
  have hops : r'.ops = insert (.insert op) r.ops := ops_of_known hfresh hk
  have hsettles : r.settles (.insert op) = true := by
    show r.anchorExists op.afterId = true
    rw [anchorExists_iff, h.node_iff_attached]
    exact hready
  rw [hsettles, if_pos rfl] at hr
  refine ⟨r', hr, h', h'.resolved_iff.2 ?_, hops, ?_⟩
  · obtain ⟨hins, hdel⟩ := h.resolved_iff.1 hres
    rw [hops]
    refine ⟨fun i hi => ?_, fun d hd => ?_⟩
    · rw [attached_insert_leaf hready hleaf]
      rcases hi with hi | hi
      · cases hi
        exact Or.inr rfl
      · exact Or.inl (hins i hi)
    · rw [attached_insert_leaf hready hleaf]
      exact Or.inl (hdel d (by simpa using hd))
  · have w' := h.walk_insert h' hops hready hleaf hv hnew hlamport w
    have hnot : ∀ id ∈ front ++ op.afterId :: back, id ≠ op.opId := by
      intro id hid he
      rcases (w.mem id).1 hid with hroot | ⟨n, hn⟩
      · exact hv.opId_ne_root (he.symm.trans hroot)
      · obtain ⟨hid', hop⟩ := h.node_insert id n hn
        exact hnew _ hop (hid'.trans he)
    have hsame : ∀ l : List JsString, (∀ id ∈ l, id ∈ front ++ op.afterId :: back) →
        l.filterMap r'.visibleAt = l.filterMap r.visibleAt := by
      intro l hl
      refine List.filterMap_congr fun id hid => ?_
      rw [h.visibleAt_insert h' hops hready hleaf hnew hdelete, if_neg (hnot id (hl id hid))]
    have hself : r'.visibleAt op.opId = some ⟨op.opId, op.value⟩ := by
      rw [h.visibleAt_insert h' hops hready hleaf hnew hdelete, if_pos rfl]
    have hlist : (front ++ op.afterId :: op.opId :: back).filterMap r'.visibleAt =
        (front ++ [op.afterId]).filterMap r'.visibleAt ++
          ⟨op.opId, op.value⟩ :: back.filterMap r'.visibleAt := by
      rw [← List.singleton_append, ← List.append_assoc, List.filterMap_append,
        List.filterMap_cons, hself]
    rw [w'.visible, hlist, hsame (front ++ [op.afterId]) (by grind), hsame back (by grind), hbefore,
      hafter]

end

end TextReplica

end LocalFirst
