import LocalFirst.Crdt.Traversal

/-!
# Convergence

Two replicas of the invariant that know the same operations agree on everything that can be
asked of them, whatever order the operations arrived in.

* `Inv.agree` — the maps of a replica are functions of the set of known operations.
* `Agree.visible`, `Agree.unresolved`, `Agree.exportSnapshot` — so is everything read from it.
* `Agree.apply_status` — and so is the outcome of the next `apply`.
* `strong_convergence` — lists with the same operations are both accepted or both rejected,
  and accepted ones give the same document.
-/

set_option autoImplicit false

namespace LocalFirst

namespace TextReplica

theorem comparesKey_compareCodeUnits {α : Type} (key : α → JsString) :
    ComparesKey (fun left right => compareCodeUnits (key left) (key right)) key where
  le_zero _ _ := compareCodeUnits_le

/-- The two replicas hold the same maps, up to the order in which keys are enumerated. -/
structure Agree (r r' : TextReplica) : Prop where
  known : ∀ id, r.knownOperations.get? id = r'.knownOperations.get? id
  nodes : ∀ id, r.nodes.get? id = r'.nodes.get? id
  children : ∀ p, r.childrenByParent.get? p = r'.childrenByParent.get? p
  inserts : ∀ a id, id ∈ waiting r.pendingInsertsByAnchor a ↔
    id ∈ waiting r'.pendingInsertsByAnchor a
  deletes : ∀ t id, id ∈ waiting r.pendingDeletesByTarget t ↔
    id ∈ waiting r'.pendingDeletesByTarget t

/-! ## The maps are functions of the known operations -/

theorem node_ext {n n' : TextNode} (hi : insertOf n = insertOf n')
    (ht : n.tombstone = n'.tombstone) : n = n' := by
  cases n
  cases n'
  simp only [insertOf, InsertOperation.mk.injEq] at hi
  simp only at ht
  simp only [hi, ht]

section

variable {r r' : TextReplica} (h : Inv r) (h' : Inv r') (hops : r.ops = r'.ops)
include h h' hops

theorem Inv.known_congr (id : JsString) :
    r.knownOperations.get? id = r'.knownOperations.get? id := by
  have hsub : ∀ {s s' : TextReplica}, Inv s → s.ops = s'.ops → ∀ op,
      s.knownOperations.get? id = some op → s'.knownOperations.get? id = some op := by
    intro s s' hs heq op hk
    have hop := hs.known_ops hk
    rw [heq, mem_ops, hs.known_id id op hk] at hop
    exact hop
  ext op
  exact ⟨hsub h hops op, hsub h' hops.symm op⟩

theorem Inv.node_congr (id : JsString) : r.nodes.get? id = r'.nodes.get? id := by
  have hsub : ∀ {s s' : TextReplica}, Inv s → Inv s' → s.ops = s'.ops → ∀ n,
      s.nodes.get? id = some n → s'.nodes.get? id = some n := by
    intro s s' hs hs' heq n hn
    obtain ⟨n', hn'⟩ := hs'.node_of_attached (by rw [← heq]; exact hs.node_attached id n hn)
    obtain ⟨hid, hm⟩ := hs.node_insert id n hn
    obtain ⟨hid', hm'⟩ := hs'.node_insert id n' hn'
    rw [heq] at hm
    have hins : insertOf n = insertOf n' := hs'.insert_eq hm hm' (hid.trans hid'.symm)
    have htomb : n.tombstone = n'.tombstone := by
      rw [Bool.eq_iff_iff, hs.node_tombstone id n hn, hs'.node_tombstone id n' hn', heq]
    rw [hn', node_ext hins htomb]
  ext n
  exact ⟨hsub h h' hops n, hsub h' h hops.symm n⟩

theorem Inv.children_congr (p : JsString) :
    r.childrenByParent.get? p = r'.childrenByParent.get? p := by
  have hkeys : idKey r.knownOperations = idKey r'.knownOperations := by
    funext id
    simp only [idKey, h.known_congr h' hops]
  have hlists : r.childrenOf p = r'.childrenOf p := by
    refine eq_of_strict_of_mem_iff (h.child_sorted p) ?_ fun id => ?_
    · rw [hkeys]; exact h'.child_sorted p
    · rw [h.child_mem, h'.child_mem, h.node_congr h' hops]
  unfold childrenOf at hlists
  have hne := h.child_nonempty p
  have hne' := h'.child_nonempty p
  cases hc : r.childrenByParent.get? p with
  | none =>
    cases hc' : r'.childrenByParent.get? p with
    | none => rfl
    | some l => rw [hc, hc'] at hlists; rw [hc', ← show [] = l from hlists] at hne'; exact absurd rfl hne'
  | some l =>
    cases hc' : r'.childrenByParent.get? p with
    | none => rw [hc, hc'] at hlists; rw [hc, show l = [] from hlists] at hne; exact absurd rfl hne
    | some l' => rw [hc, hc'] at hlists; rw [show l = l' from hlists]

/-- **The maps of a replica are functions of the set of known operations.** -/
theorem Inv.agree : Agree r r' where
  known := h.known_congr h' hops
  nodes := h.node_congr h' hops
  children := h.children_congr h' hops
  inserts a id := by rw [h.insert_mem, h'.insert_mem, hops, h.node_congr h' hops]
  deletes t id := by rw [h.delete_mem, h'.delete_mem, hops, h.node_congr h' hops]

end

/-! ## Reading -/

/-- The unresolved operations are those in some pending set. -/
theorem mem_unresolved {r : TextReplica} {id : JsString} : id ∈ r.getUnresolvedOperationIds ↔
    (∃ a, id ∈ waiting r.pendingInsertsByAnchor a) ∨
      ∃ t, id ∈ waiting r.pendingDeletesByTarget t := by
  have hfold : ∀ (l : List JsString) (s : InsSet JsString),
      id ∈ (l.foldl InsSet.add s).elems ↔ id ∈ s.elems ∨ id ∈ l := by
    intro l
    induction l with
    | nil => simp
    | cons x l ih =>
      intro s
      rw [List.foldl_cons, ih, ← InsSet.mem_def, InsSet.mem_add, InsSet.mem_def, List.mem_cons,
        or_assoc]
  have hpend : ∀ map : InsMap JsString (InsSet JsString),
      id ∈ pendingIds map ↔ ∃ a, id ∈ waiting map a := by
    intro map
    simp only [pendingIds, List.mem_flatMap, InsMap.mem_values, waiting]
    constructor
    · rintro ⟨s, ⟨a, ha⟩, hs⟩
      exact ⟨a, by rw [ha]; exact hs⟩
    · rintro ⟨a, ha⟩
      cases hg : map.get? a with
      | none => rw [hg] at ha; cases ha
      | some s => rw [hg] at ha; exact ⟨s, ⟨a, hg⟩, ha⟩
  unfold getUnresolvedOperationIds
  rw [mem_sortBy, hfold, List.mem_append, hpend, hpend]
  simp [InsSet.empty]

/-- The operations waiting for their dependency, as the sets of known operations say. -/
theorem Inv.unresolved_iff {r : TextReplica} (h : Inv r) {id : JsString} :
    id ∈ r.getUnresolvedOperationIds ↔
      (∃ op : InsertOperation, .insert op ∈ r.ops ∧ op.opId = id ∧ ¬ Attached r.ops id) ∨
      ∃ op : DeleteOperation, .delete op ∈ r.ops ∧ op.opId = id ∧ ¬ Attached r.ops op.targetId := by
  have hnone : ∀ x, r.nodes.get? x = none ↔ ¬ Attached r.ops x := by
    intro x
    rw [← h.node_iff_attached, Option.eq_none_iff_forall_ne_some]
    exact ⟨fun hn ⟨n, he⟩ => hn n he, fun hn n he => hn ⟨n, he⟩⟩
  rw [mem_unresolved]
  refine or_congr ⟨?_, ?_⟩ ⟨?_, ?_⟩
  · rintro ⟨a, ha⟩
    obtain ⟨op, hop, hid, -, hno, -⟩ := (h.insert_mem a id).1 ha
    exact ⟨op, hop, hid, (hnone id).1 hno⟩
  · rintro ⟨op, hop, hid, hno⟩
    exact ⟨op.afterId, (h.insert_mem _ _).2 ⟨op, hop, hid, rfl, (hnone id).2 hno, by simp⟩⟩
  · rintro ⟨t, ht⟩
    obtain ⟨op, hop, hid, htar, hno⟩ := (h.delete_mem t id).1 ht
    exact ⟨op, hop, hid, by rw [htar]; exact (hnone t).1 hno⟩
  · rintro ⟨op, hop, hid, hno⟩
    exact ⟨op.targetId, (h.delete_mem _ _).2 ⟨op, hop, hid, rfl, (hnone _).2 hno⟩⟩

theorem cycleWalk_congr {known known' : InsMap JsString TextOperation} {opId : JsString}
    (hk : ∀ id, known.get? id = known'.get? id) : ∀ fuel cursor visited,
      cycleWalk known opId fuel cursor visited = cycleWalk known' opId fuel cursor visited
  | 0, _, _ => rfl
  | fuel + 1, cursor, visited => by
    simp only [cycleWalk, hk cursor, cycleWalk_congr hk fuel]

theorem traverse_congr {r r' : TextReplica} (hn : ∀ id, r.nodes.get? id = r'.nodes.get? id)
    (hc : ∀ p, r.childrenByParent.get? p = r'.childrenByParent.get? p) : ∀ fuel stack,
      r.traverse fuel stack = r'.traverse fuel stack
  | 0, [] => rfl
  | 0, _ :: _ => rfl
  | _ + 1, [] => rfl
  | fuel + 1, c :: stack => by
    simp only [traverse, hn c, hc, traverse_congr hn hc fuel]

namespace Agree

variable {r r' : TextReplica} (a : Agree r r')
include a

theorem ops_eq : r.ops = r'.ops := by
  ext op
  rw [mem_ops, mem_ops, a.known]

theorem visible : r.getVisibleElements = r'.getVisibleElements := by
  unfold getVisibleElements
  rw [InsMap.size_congr a.nodes, a.children, traverse_congr a.nodes a.children]

theorem materialize_eq : r.materialize = r'.materialize := by
  unfold materialize
  rw [a.visible]

theorem known_ids : r.getKnownOperationIds = r'.getKnownOperationIds := by
  have hperm : r.knownOperations.keys.Perm r'.knownOperations.keys :=
    InsMap.keys_perm fun id => by rw [a.known]
  exact (comparesKey_compareCodeUnits id).sortBy_congr hperm fun _ _ _ _ he => he

theorem unresolved : r.getUnresolvedOperationIds = r'.getUnresolvedOperationIds := by
  have hmem : ∀ id, id ∈ r.getUnresolvedOperationIds ↔ id ∈ r'.getUnresolvedOperationIds := by
    intro id
    simp only [mem_unresolved, a.inserts, a.deletes]
  have hperm : ((pendingIds r.pendingInsertsByAnchor ++
        pendingIds r.pendingDeletesByTarget).foldl InsSet.add .empty).elems.Perm
      ((pendingIds r'.pendingInsertsByAnchor ++
        pendingIds r'.pendingDeletesByTarget).foldl InsSet.add .empty).elems := by
    refine (List.perm_ext_iff_of_nodup (InsSet.nodup _) (InsSet.nodup _)).2 fun id => ?_
    have := hmem id
    unfold getUnresolvedOperationIds at this
    rwa [mem_sortBy, mem_sortBy] at this
  exact (comparesKey_compareCodeUnits id).sortBy_congr hperm fun _ _ _ _ he => he

theorem exportSnapshot_eq (h : Inv r) : r.exportSnapshot = r'.exportSnapshot := by
  have hnodes : sortBy (fun left right => compareCodeUnits left.id right.id) r.nodes.values =
      sortBy (fun left right => compareCodeUnits left.id right.id) r'.nodes.values := by
    refine (comparesKey_compareCodeUnits TextReplicaSnapshotNode.id).sortBy_congr
      (InsMap.values_perm a.nodes) ?_
    intro n hn m hm hid
    obtain ⟨k, hk⟩ := InsMap.mem_values.1 hn
    obtain ⟨k', hk'⟩ := InsMap.mem_values.1 hm
    have : k = k' := (h.node_insert k n hk).1.symm.trans (hid.trans (h.node_insert k' m hk').1)
    subst this
    rw [hk] at hk'
    exact Option.some.inj hk'
  have hdeletes : sortBy (fun left right => compareCodeUnits left.opId right.opId)
        (knownDeletes r.knownOperations.values) =
      sortBy (fun left right => compareCodeUnits left.opId right.opId)
        (knownDeletes r'.knownOperations.values) := by
    refine (comparesKey_compareCodeUnits DeleteOperation.opId).sortBy_congr
      ((InsMap.values_perm a.known).filterMap _) ?_
    have hmem : ∀ d, d ∈ knownDeletes r.knownOperations.values → TextOperation.delete d ∈ r.ops := by
      intro d hd
      obtain ⟨op, hop, he⟩ := List.mem_filterMap.1 hd
      cases op with
      | insert op => cases he
      | delete op =>
        cases he
        obtain ⟨k, hk⟩ := InsMap.mem_values.1 hop
        exact h.known_ops hk
    intro d hd d' hd' hid
    have := h.coherent.unique _ (hmem d hd) _ (hmem d' hd') hid
    cases this
    rfl
  unfold exportSnapshot
  rw [a.unresolved, hnodes, hdeletes]

theorem anchorExists_eq (x : JsString) : r.anchorExists x = r'.anchorExists x := by
  simp only [anchorExists, InsMap.has, a.nodes]

theorem pending_has (h : Inv r) (h' : Inv r') (x : JsString) :
    r.pendingInsertsByAnchor.has x = r'.pendingInsertsByAnchor.has x := by
  have key : ∀ {s : TextReplica}, Inv s → (s.pendingInsertsByAnchor.has x = true ↔
      ∃ id, id ∈ waiting s.pendingInsertsByAnchor x) := by
    intro s hs
    rw [InsMap.has_iff]
    constructor
    · rintro ⟨v, hv⟩
      obtain ⟨id, hid⟩ := List.exists_mem_of_ne_nil _ (hs.insert_nonempty x v hv)
      exact ⟨id, by simpa [waiting, hv] using hid⟩
    · rintro ⟨id, hid⟩
      cases hv : s.pendingInsertsByAnchor.get? x with
      | none => simp [waiting, hv, InsSet.empty] at hid
      | some v => exact ⟨v, rfl⟩
  rw [Bool.eq_iff_iff, key h, key h']
  exact exists_congr (a.inserts x)

theorem admit_eq (h : Inv r) (h' : Inv r') (op : TextOperation) :
    r.checkAdmissible op = r'.checkAdmissible op := by
  cases op with
  | insert op =>
    simp only [checkAdmissible, assertInsertDoesNotCreateCycle, a.anchorExists_eq,
      InsMap.size_congr a.known, cycleWalk_congr a.known]
  | delete op => simp only [checkAdmissible, a.pending_has h h']

/-- **The outcome of the next `apply` is a function of the known operations.** -/
theorem apply_status (h : Inv r) (h' : Inv r') (op : TextOperation) :
    (r.apply op).2 = (r'.apply op).2 := by
  have hk := a.known op.opId
  cases hv : validateOperation op with
  | error e => simp only [apply, hv]
  | ok u =>
    cases hg : r'.knownOperations.get? op.opId with
    | some known =>
      rw [hg] at hk
      simp only [apply, hv, hk, hg]
      split <;> rfl
    | none =>
      rw [hg] at hk
      cases ha : r'.checkAdmissible op with
      | error e => simp only [apply, hv, hk, hg, a.admit_eq h h', ha]
      | ok u' =>
        have hc' := (admit_ok_iff h' hv hg).1 ha
        have hc : Coherent (insert op r.ops) := by rw [a.ops_eq]; exact hc'
        obtain ⟨s, hs, -⟩ := apply_new h hv hk hc
        obtain ⟨s', hs', -⟩ := apply_new h' hv hg hc'
        have hset : r.settles op = r'.settles op := by
          cases op with
          | insert op => exact a.anchorExists_eq _
          | delete op => simp only [settles, InsMap.has, a.nodes]
        rw [hs, hs', hset]

end Agree

/-! ## Strong convergence -/

/-- **Strong convergence, including acceptance.**  Two lists with the same operations, in any
order and with any repetitions, are both accepted by a new replica or both rejected, and two
replicas that accepted them agree. -/
theorem strong_convergence (l l' : List TextOperation) (hset : ∀ op, op ∈ l ↔ op ∈ l') :
    ((empty.applyAll l).2 = .ok () ↔ (empty.applyAll l').2 = .ok ()) ∧
      ((empty.applyAll l).2 = .ok () →
        let r := (empty.applyAll l).1
        let r' := (empty.applyAll l').1
        (∀ id, r.knownOperations.get? id = r'.knownOperations.get? id) ∧
          (∀ id, r.nodes.get? id = r'.nodes.get? id) ∧
          (∀ p, r.childrenByParent.get? p = r'.childrenByParent.get? p) ∧
          r.getUnresolvedOperationIds = r'.getUnresolvedOperationIds ∧
          (∃ elements, r.getVisibleElements = .ok elements ∧ r'.getVisibleElements = .ok elements) ∧
          ∃ text, r.materialize = .ok text ∧ r'.materialize = .ok text) := by
  obtain ⟨hinv, hiff, hops⟩ := applyAll_spec l Inv.empty
  obtain ⟨hinv', hiff', hops'⟩ := applyAll_spec l' Inv.empty
  have hsets : {op | op ∈ l} = {op | op ∈ l'} := Set.ext hset
  have hacc : (empty.applyAll l).2 = .ok () ↔ (empty.applyAll l').2 = .ok () := by
    rw [hiff, hiff', hsets]
  refine ⟨hacc, fun hok => ?_⟩
  have heq : (empty.applyAll l).1.ops = (empty.applyAll l').1.ops := by
    rw [hops hok, hops' (hacc.1 hok), hsets]
  have a := hinv.agree hinv' heq
  obtain ⟨elements, hv⟩ := hinv.visible_ok
  obtain ⟨text, ht⟩ := hinv.materialize_ok
  intro r r'
  refine ⟨a.known, a.nodes, a.children, a.unresolved, ⟨elements, hv, ?_⟩, text, ht, ?_⟩
  · exact a.visible.symm.trans hv
  · exact a.materialize_eq.symm.trans ht

/-- A delete may arrive before its target, which may arrive before its anchor. -/
theorem strong_convergence_reversed :
    let a : TextOperation := .insert ⟨js "A:1", js "A", 1, 1, ROOT_ID, js "x"⟩
    let b : TextOperation := .insert ⟨js "B:1", js "B", 1, 2, js "A:1", js "y"⟩
    let d : TextOperation := .delete ⟨js "A:2", js "A", 2, 3, js "B:1"⟩
    (empty.applyAll [a, b, d]).2 = .ok () ∧ (empty.applyAll [d, b, b, a]).2 = .ok () ∧
      (empty.applyAll [d, b, b, a]).1.materialize = .ok (js "x") := by
  intro a b d
  have hset : ∀ op, op ∈ [a, b, d] ↔ op ∈ [d, b, b, a] := by
    intro op
    simp only [List.mem_cons, List.not_mem_nil, or_false]
    tauto
  have hok : (empty.applyAll [a, b, d]).2 = .ok () := rfl
  obtain ⟨hiff, hsame⟩ := strong_convergence [a, b, d] [d, b, b, a] hset
  obtain ⟨-, -, -, -, -, text, ht, ht'⟩ := hsame hok
  have htext : (empty.applyAll [a, b, d]).1.materialize = .ok (js "x") := rfl
  exact ⟨hok, hiff.1 hok, ht'.trans (ht.symm.trans htext)⟩

end TextReplica

end LocalFirst
