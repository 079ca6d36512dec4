import LocalFirst.Crdt.Drain

/-!
# Applying one operation

What `apply` does from a state of the invariant, for every operation: it rejects an operation
exactly when the operation is invalid or the known operations would stop being coherent, a
rejection leaves the replica as it was, and otherwise the invariant is kept and the set of
known operations grows by the operation.

* `cycleWalk_spec` — the anchor walk ends, and it accepts exactly the admissible inserts.
* `admit_ok_iff` — the checks of `apply` accept exactly the admissible operations.
* `Inv.register` — what a registered operation must do to the other maps.
* `apply_new` — an admissible operation of a fresh identity is registered and settled.
* `apply_spec` — acceptance, preservation and atomicity of `apply`.
* `applyAll_spec` — the same for a list of operations.
-/

set_option autoImplicit false

namespace LocalFirst

namespace TextReplica

/-! ## A fresh identity -/

theorem fresh_of_get?_none {r : TextReplica} {op : TextOperation}
    (hfresh : r.knownOperations.get? op.opId = none) : ∀ o ∈ r.ops, o.opId ≠ op.opId := by
  intro o ho he
  rw [mem_ops, he, hfresh] at ho
  cases ho

theorem ops_of_known {r r' : TextReplica} {op : TextOperation}
    (hfresh : r.knownOperations.get? op.opId = none)
    (hk : r'.knownOperations = r.knownOperations.set op.opId op) : r'.ops = insert op r.ops := by
  ext o
  rw [mem_ops, hk, InsMap.get?_set]
  constructor
  · intro ho
    split at ho
    · cases ho; exact Or.inl rfl
    · exact Or.inr ho
  · rintro (rfl | ho)
    · rw [if_pos rfl]
    · rw [if_neg (Ne.symm (fresh_of_get?_none hfresh o ho))]; exact ho

/-! ## The anchor walk -/

section CycleWalk

variable {r : TextReplica} (h : Inv r) {opId : JsString} (hroot : opId ≠ ROOT_ID)
  (hfresh : r.knownOperations.get? opId = none)
include h hroot hfresh

/-- From a cursor below every visited id the walk ends, and it succeeds exactly when the new
insert is not an ancestor of the cursor and the cursor is no delete. -/
theorem cycleWalk_spec : ∀ (fuel : Nat) (cursor : JsString) (visited : InsSet JsString),
    (∀ v ∈ visited.elems, (∃ op, r.knownOperations.get? v = some op) ∧
      Relation.TransGen (AnchoredOn r.ops) v cursor) →
    r.knownOperations.size + 1 ≤ fuel + visited.size →
      (cycleWalk r.knownOperations opId fuel cursor visited = .ok () ↔
        ¬ Relation.ReflTransGen (AnchoredOn r.ops) cursor opId ∧
          ∀ d, .delete d ∈ r.ops → cursor ≠ d.opId) ∧
      cycleWalk r.knownOperations opId fuel cursor visited ≠ .error outOfFuelError
  | 0, cursor, visited, hv, hf => by
    have := InsMap.length_le_size visited.nodup fun v hm => (hv v hm).1
    simp only [InsSet.size] at hf
    omega
  | fuel + 1, cursor, visited, hv, hf => by
    simp only [cycleWalk]
    by_cases hcroot : cursor = ROOT_ID
    · subst hcroot
      rw [if_pos rfl]
      refine ⟨⟨fun _ => ⟨fun hr => hroot (h.coherent.reach_root hr), fun d hd he => ?_⟩,
        fun _ => rfl⟩, by simp⟩
      exact (h.coherent.valid _ hd).opId_ne_root he.symm
    rw [if_neg hcroot]
    by_cases hcop : cursor = opId
    · subst hcop
      rw [if_pos rfl]
      exact ⟨⟨fun he => by (cases he), fun hn => absurd .refl hn.1⟩,
        by simp [operationDependencyCycleError, outOfFuelError]⟩
    rw [if_neg hcop]
    have hcv : cursor ∉ visited.elems := fun hm => h.coherent.acyclic cursor (hv cursor hm).2
    rw [if_neg hcv]
    cases hk : r.knownOperations.get? cursor with
    | none =>
      have hunlinked : ∀ y, ¬ AnchoredOn r.ops cursor y := by
        rintro y ⟨op, hop, rfl, -⟩
        rw [mem_ops] at hop
        simp only [TextOperation.opId_insert, hk] at hop
        cases hop
      refine ⟨⟨fun _ => ⟨fun hr => ?_, fun d hd he => ?_⟩, fun _ => rfl⟩, by simp⟩
      · rcases Relation.ReflTransGen.cases_head hr with he | ⟨y, hy, -⟩
        · exact hcop he
        · exact hunlinked y hy
      · rw [mem_ops, TextOperation.opId_delete, ← he, hk] at hd
        cases hd
    | some op =>
      have hop := h.known_ops hk
      have hid := h.known_id cursor op hk
      cases op with
      | delete d =>
        exact ⟨⟨fun he => by (cases he), fun hn => absurd hid.symm (hn.2 d hop)⟩,
          by simp [invalidOperationError, outOfFuelError]⟩
      | insert dependency =>
        have hlink : AnchoredOn r.ops cursor dependency.afterId := ⟨dependency, hop, hid, rfl⟩
        have hv' : ∀ v ∈ (visited.add cursor).elems, (∃ op, r.knownOperations.get? v = some op) ∧
            Relation.TransGen (AnchoredOn r.ops) v dependency.afterId := by
          intro v hm
          rcases InsSet.mem_add.1 hm with hm | rfl
          · exact ⟨(hv v hm).1, (hv v hm).2.tail hlink⟩
          · exact ⟨⟨_, hk⟩, .single hlink⟩
        have hsize : (visited.add cursor).size = visited.size + 1 := by
          simp [InsSet.add, InsSet.size, hcv]
        obtain ⟨hiff, hne⟩ := cycleWalk_spec fuel dependency.afterId (visited.add cursor) hv'
          (by rw [hsize]; omega)
        refine ⟨?_, hne⟩
        show cycleWalk r.knownOperations opId fuel dependency.afterId (visited.add cursor) = .ok () ↔ _
        rw [hiff]
        constructor
        · rintro ⟨hreach, -⟩
          refine ⟨fun hr => ?_, fun d hd he => ?_⟩
          · rcases Relation.ReflTransGen.cases_head hr with he | ⟨y, hy, hrest⟩
            · exact hcop he
            · rw [h.coherent.functional _ _ _ hy hlink] at hrest
              exact hreach hrest
          · have := h.coherent.unique _ hop _ hd (hid.trans he)
            cases this
        · rintro ⟨hreach, -⟩
          exact ⟨fun hr => hreach (.head hlink hr), fun d hd => h.coherent.anchor _ hop d hd⟩

end CycleWalk

section

variable {r : TextReplica} (h : Inv r)
include h

/-- **The checks of `apply` accept exactly the admissible operations.** -/
theorem admit_spec {op : TextOperation} (hv : ValidOperation op)
    (hfresh : r.knownOperations.get? op.opId = none) :
    (r.checkAdmissible op = .ok () ↔ Admissible r.ops op) ∧ r.checkAdmissible op ≠ .error outOfFuelError := by
  cases op with
  | insert op =>
    simp only [checkAdmissible]
    by_cases ha : r.anchorExists op.afterId = true
    · simp only [ha, not_true_eq_false, if_false]
      refine ⟨⟨fun _ => ⟨fun hr => ?_, fun d hd he => ?_⟩, fun _ => trivial⟩, by simp⟩
      · -- an attached anchor has only attached ancestors, and the new identity is not one
        have hop : op.opId = ROOT_ID ∨ Attached r.ops op.opId := by
          rcases h.attached_of_anchorExists ha with hroot | hatt
          · rw [hroot] at hr
            exact Or.inl (h.coherent.reach_root hr)
          · rcases Relation.reflTransGen_iff_eq_or_transGen.1 hr with he | ht
            · rw [he]; exact Or.inr hatt
            · exact Rooted.ancestor h.coherent.functional h.coherent.root_not_anchored hatt ht
        rcases hop with hop | hop
        · exact hv.opId_ne_root hop
        · obtain ⟨i, hi, hid⟩ := hop.exists_insert
          rw [mem_ops] at hi
          simp only [TextOperation.opId_insert, hid] at hi hfresh
          rw [hfresh] at hi
          cases hi
      · rcases h.attached_of_anchorExists ha with hroot | hatt
        · exact (h.coherent.valid _ hd).opId_ne_root (he.symm.trans hroot)
        · obtain ⟨i, hi, hid⟩ := hatt.exists_insert
          have := h.coherent.unique _ hi _ hd (hid.trans he)
          cases this
    · simp only [ha, Bool.false_eq_true, not_false_eq_true, if_true]
      exact cycleWalk_spec h hv.opId_ne_root hfresh _ _ _ (fun v hm => by cases hm)
        (by simp [InsSet.size, InsSet.empty])
  | delete op =>
    simp only [checkAdmissible, Admissible]
    by_cases hp : r.pendingInsertsByAnchor.has op.opId = true
    · rw [if_pos hp]
      refine ⟨⟨fun he => by (cases he), fun hn => ?_⟩, by simp [invalidOperationError, outOfFuelError]⟩
      obtain ⟨s, hs⟩ := InsMap.has_iff.1 hp
      obtain ⟨x, hx⟩ := List.exists_mem_of_ne_nil _ (h.insert_nonempty _ _ hs)
      have hw : x ∈ waiting r.pendingInsertsByAnchor op.opId := by simpa [waiting, hs] using hx
      obtain ⟨i, hi, -, haft, -⟩ := (h.insert_mem _ _).1 hw
      exact absurd haft (hn i hi)
    · rw [if_neg hp]
      refine ⟨⟨fun _ i hi he => ?_, fun _ => rfl⟩, by simp⟩
      cases hn : r.nodes.get? i.opId with
      | some n =>
        have hanc := h.node_anchor _ _ hn
        have haft : n.afterId = op.opId :=
          (congrArg InsertOperation.afterId (h.insertOf_node hi hn)).trans he
        rw [haft, anchorExists_iff] at hanc
        rcases hanc with hroot | ⟨m, hm⟩
        · exact hv.opId_ne_root hroot
        · obtain ⟨hid, hmop⟩ := h.node_insert _ _ hm
          have hmk := mem_ops.1 hmop
          rw [show (TextOperation.insert (insertOf m)).opId = op.opId from hid] at hmk
          simp only [TextOperation.opId_delete] at hfresh
          rw [hfresh] at hmk
          cases hmk
      | none =>
        have hw : i.opId ∈ waiting r.pendingInsertsByAnchor op.opId :=
          (h.insert_mem _ _).2 ⟨i, hi, rfl, he, hn, by simp⟩
        apply hp
        cases hs : r.pendingInsertsByAnchor.get? op.opId with
        | none => simp [waiting, hs, InsSet.empty] at hw
        | some s => exact InsMap.has_iff.2 ⟨s, hs⟩

/-! ## Registering -/

/-- An operation of a fresh identity is admitted exactly when it keeps the known operations
coherent. -/
theorem admit_ok_iff {op : TextOperation} (hv : ValidOperation op)
    (hfresh : r.knownOperations.get? op.opId = none) :
    r.checkAdmissible op = .ok () ↔ Coherent (insert op r.ops) := by
  rw [coherent_insert_iff h.coherent hv (fresh_of_get?_none hfresh)]
  exact (admit_spec h hv hfresh).1

/-- Nothing is tombstoned or attached by an operation that only joins a pending set. -/
theorem tombstoned_of_insert {op : InsertOperation} {id : JsString} {n : TextNode}
    (hn : r.nodes.get? id = some n) :
    n.tombstone = true ↔ Tombstoned (insert (.insert op) r.ops) id := by
  rw [tombstoned_insert]
  exact h.node_tombstone id n hn

end

/-- `r'` is `r` with `op` registered: an insert is queued or waits, a delete is applied or waits. -/
structure Registers (r : TextReplica) (op : TextOperation) (r' : TextReplica)
    (queue : List InsertOperation) : Prop where
  fresh : r.knownOperations.get? op.opId = none
  coherent : Coherent (insert op r.ops)
  known : r'.knownOperations = r.knownOperations.set op.opId op
  children : r'.childrenByParent = r.childrenByParent
  nodes : ∀ id, (r'.nodes.get? id).map insertOf = (r.nodes.get? id).map insertOf
  tombstone : ∀ id n, r'.nodes.get? id = some n →
    (n.tombstone = true ↔ Tombstoned (insert op r.ops) id)
  queued : ∀ o, o ∈ queue ↔ TextOperation.insert o = op ∧ r.anchorExists o.afterId = true
  nodup : queue.Nodup
  insert_nonempty : ∀ a s, r'.pendingInsertsByAnchor.get? a = some s → s.elems ≠ []
  waiting_inserts : ∀ a id, id ∈ waiting r'.pendingInsertsByAnchor a ↔
    id ∈ waiting r.pendingInsertsByAnchor a ∨
      ∃ o : InsertOperation, op = .insert o ∧ o.opId = id ∧ o.afterId = a ∧
        r.anchorExists a = false
  delete_nonempty : ∀ t s, r'.pendingDeletesByTarget.get? t = some s → s.elems ≠ []
  waiting_deletes : ∀ t id, id ∈ waiting r'.pendingDeletesByTarget t ↔
    id ∈ waiting r.pendingDeletesByTarget t ∨
      ∃ d : DeleteOperation, op = .delete d ∧ d.opId = id ∧ d.targetId = t ∧
        r.nodes.get? t = none

namespace Registers

variable {r r' : TextReplica} {op : TextOperation} {queue : List InsertOperation}
  (hr : Registers r op r' queue) (h : Inv r)
include hr

theorem ops_eq : r'.ops = insert op r.ops := ops_of_known hr.fresh hr.known

theorem node_old {id : JsString} {n' : TextNode} (hn' : r'.nodes.get? id = some n') :
    ∃ n, r.nodes.get? id = some n ∧ insertOf n = insertOf n' := by
  have hsame := hr.nodes id
  rw [hn', Option.map_some] at hsame
  obtain ⟨n, hn, hi⟩ := Option.map_eq_some_iff.1 hsame.symm
  exact ⟨n, hn, hi⟩

theorem node_new {id : JsString} {n : TextNode} (hn : r.nodes.get? id = some n) :
    ∃ n', r'.nodes.get? id = some n' ∧ insertOf n' = insertOf n := by
  have hsame := hr.nodes id
  rw [hn, Option.map_some] at hsame
  obtain ⟨n', hn', hi⟩ := Option.map_eq_some_iff.1 hsame
  exact ⟨n', hn', hi⟩

theorem node_none {id : JsString} : r'.nodes.get? id = none ↔ r.nodes.get? id = none := by
  rw [← @Option.map_eq_none_iff _ _ _ insertOf, hr.nodes id, Option.map_eq_none_iff]

theorem anchorExists_eq (a : JsString) : r'.anchorExists a = r.anchorExists a := by
  have hsame := congrArg Option.isSome (hr.nodes a)
  simp only [Option.isSome_map] at hsame
  simp [anchorExists, InsMap.has, hsame]

theorem childrenOf_eq (p : JsString) : r'.childrenOf p = r.childrenOf p := by
  simp only [childrenOf, hr.children]

include h

/-- The operation has no node yet. -/
theorem unattached : r.nodes.get? op.opId = none := by
  rw [Option.eq_none_iff_forall_ne_some]
  intro n hn
  obtain ⟨hid, hm⟩ := h.node_insert _ _ hn
  exact fresh_of_get?_none hr.fresh _ hm hid

theorem child_mem (p id : JsString) :
    id ∈ r'.childrenOf p ↔ ∃ n, r'.nodes.get? id = some n ∧ n.afterId = p := by
  rw [hr.childrenOf_eq, h.child_mem]
  constructor
  · rintro ⟨n, hn, haft⟩
    obtain ⟨n', hn', hi⟩ := hr.node_new hn
    exact ⟨n', hn', (congrArg InsertOperation.afterId hi).trans haft⟩
  · rintro ⟨n', hn', haft⟩
    obtain ⟨n, hn, hi⟩ := hr.node_old hn'
    exact ⟨n, hn, (congrArg InsertOperation.afterId hi).trans haft⟩

/-- The sort keys of the children are those of operations that were known. -/
theorem child_sorted (p : JsString) : (r'.childrenOf p).Pairwise
    (fun x y => idKey r'.knownOperations x < idKey r'.knownOperations y) := by
  rw [hr.childrenOf_eq]
  refine List.Pairwise.imp_of_mem ?_ (h.child_sorted p)
  intro x y hx hy hxy
  have hkey : ∀ z ∈ r.childrenOf p, idKey r'.knownOperations z = idKey r.knownOperations z := by
    intro z hz
    obtain ⟨n, hn, -⟩ := (h.child_mem p z).1 hz
    obtain ⟨hid, hm⟩ := h.node_insert z n hn
    have hne : op.opId ≠ z := by
      rw [← hid]
      exact Ne.symm (fresh_of_get?_none hr.fresh _ hm)
    simp only [idKey, hr.known, InsMap.get?_set_ne _ _ hne]
  rw [hkey x hx, hkey y hy]
  exact hxy

theorem insert_mem (a id : JsString) : id ∈ waiting r'.pendingInsertsByAnchor a ↔
    ∃ o : InsertOperation, .insert o ∈ r'.ops ∧ o.opId = id ∧ o.afterId = a ∧
      r'.nodes.get? id = none ∧ o ∉ queue := by
  have hunqueued : ∀ {o : InsertOperation}, .insert o ∈ r.ops → o ∉ queue := by
    intro o ho hq
    obtain ⟨rfl, -⟩ := (hr.queued o).1 hq
    exact fresh_of_get?_none hr.fresh _ ho rfl
  rw [hr.waiting_inserts, h.insert_mem, hr.ops_eq, hr.node_none]
  constructor
  · rintro (⟨o, ho, hid, haft, hno, -⟩ | ⟨o, rfl, hid, haft, ha⟩)
    · exact ⟨o, Or.inr ho, hid, haft, hno, hunqueued ho⟩
    · refine ⟨o, Or.inl rfl, hid, haft, by rw [← hid]; exact hr.unattached h, fun hq => ?_⟩
      have hready := ((hr.queued o).1 hq).2
      rw [haft, ha] at hready
      cases hready
  · rintro ⟨o, ho | ho, hid, haft, hno, hq⟩
    · refine Or.inr ⟨o, ho.symm, hid, haft, ?_⟩
      rw [← haft]
      exact Bool.eq_false_iff.2 fun ha => hq ((hr.queued o).2 ⟨ho, ha⟩)
    · exact Or.inl ⟨o, ho, hid, haft, hno, by simp⟩

theorem delete_mem (t id : JsString) : id ∈ waiting r'.pendingDeletesByTarget t ↔
    ∃ d : DeleteOperation, .delete d ∈ r'.ops ∧ d.opId = id ∧ d.targetId = t ∧
      r'.nodes.get? t = none := by
  rw [hr.waiting_deletes, h.delete_mem, hr.ops_eq, hr.node_none]
  constructor
  · rintro (⟨d, hd, hrest⟩ | ⟨d, rfl, hrest⟩)
    · exact ⟨d, Or.inr hd, hrest⟩
    · exact ⟨d, Or.inl rfl, hrest⟩
  · rintro ⟨d, hd | hd, hrest⟩
    · exact Or.inr ⟨d, hd.symm, hrest⟩
    · exact Or.inl ⟨d, hd, hrest⟩

/-- **Registering an operation leaves the invariant of the drain.** -/
theorem inv : DrainInv r' queue := by
  constructor
  case known_id =>
    intro id o ho
    rw [hr.known, InsMap.get?_set] at ho
    split at ho
    · rename_i hid; cases ho; exact hid
    · exact h.known_id id o ho
  case coherent => rw [hr.ops_eq]; exact hr.coherent
  case node_insert =>
    intro id n' hn'
    obtain ⟨n, hn, hi⟩ := hr.node_old hn'
    obtain ⟨hid, hm⟩ := h.node_insert id n hn
    rw [hr.ops_eq, ← hi]
    exact ⟨(congrArg InsertOperation.opId hi).symm.trans hid, Or.inr hm⟩
  case node_tombstone => rw [hr.ops_eq]; exact hr.tombstone
  case node_attached =>
    intro id n' hn'
    obtain ⟨n, hn, -⟩ := hr.node_old hn'
    rw [hr.ops_eq]
    exact (h.node_attached id n hn).mono (Set.subset_insert _ _)
  case node_anchor =>
    intro id n' hn'
    obtain ⟨n, hn, hi⟩ := hr.node_old hn'
    rw [hr.anchorExists_eq, show n'.afterId = n.afterId from
      (congrArg InsertOperation.afterId hi).symm]
    exact h.node_anchor id n hn
  case child_mem => exact hr.child_mem h
  case child_sorted => exact hr.child_sorted h
  case child_nonempty => rw [hr.children]; exact h.child_nonempty
  case queue_ready =>
    intro o ho
    obtain ⟨rfl, ha⟩ := (hr.queued o).1 ho
    rw [hr.ops_eq, hr.node_none, hr.anchorExists_eq]
    exact ⟨Or.inl rfl, hr.unattached h, ha⟩
  case queue_nodup => exact hr.nodup
  case ready_queued =>
    intro o ho hno ha
    rw [hr.ops_eq] at ho
    rw [hr.node_none] at hno
    rw [hr.anchorExists_eq] at ha
    rcases ho with ho | ho
    · exact (hr.queued o).2 ⟨ho, ha⟩
    · exact absurd (h.ready_queued o ho hno ha) (by simp)
  case insert_nonempty => exact hr.insert_nonempty
  case insert_mem => exact hr.insert_mem h
  case delete_nonempty => exact hr.delete_nonempty
  case delete_mem => exact hr.delete_mem h

end Registers

/-! ## The four ways an admitted operation is applied -/

theorem mem_waiting_addPending {map : InsMap JsString (InsSet JsString)}
    {dependencyId operationId a id : JsString} :
    id ∈ waiting (addPending map dependencyId operationId) a ↔
      id ∈ waiting map a ∨ (id = operationId ∧ a = dependencyId) := by
  unfold waiting addPending
  rw [InsMap.get?_set]
  by_cases ha : dependencyId = a
  · subst ha
    rw [if_pos rfl]
    show id ∈ InsSet.add _ _ ↔ _
    rw [InsSet.mem_add, InsSet.mem_def]
    simp
  · rw [if_neg ha]
    simp [Ne.symm ha]

theorem addPending_nonempty {map : InsMap JsString (InsSet JsString)}
    {dependencyId operationId : JsString}
    (h : ∀ a s, map.get? a = some s → s.elems ≠ []) :
    ∀ a s, (addPending map dependencyId operationId).get? a = some s → s.elems ≠ [] := by
  intro a s hs
  unfold addPending at hs
  rw [InsMap.get?_set] at hs
  split at hs
  · cases hs
    exact List.ne_nil_of_mem (InsSet.mem_def.1 (InsSet.mem_add.2 (Or.inr rfl)))
  · exact h a s hs

/-- The status with which a fresh admissible operation is applied: its dependency is there. -/
def settles (r : TextReplica) : TextOperation → Bool
  | .insert op => r.anchorExists op.afterId
  | .delete op => r.nodes.has op.targetId

section

variable {r : TextReplica} (h : Inv r)
include h

theorem registered_insert_ready {op : InsertOperation}
    (hfresh : r.knownOperations.get? op.opId = none) (hc : Coherent (insert (.insert op) r.ops))
    (ha : r.anchorExists op.afterId = true) : DrainInv (r.register (.insert op)) [op] := by
  refine @Registers.inv r _ (.insert op) _ ⟨hfresh, hc, rfl, rfl, fun _ => rfl,
    fun id n hn => tombstoned_of_insert h hn, fun o => ?_, List.nodup_singleton _,
    h.insert_nonempty, fun a id => ?_, h.delete_nonempty, fun t id => ?_⟩ h
  · rw [List.mem_singleton]
    constructor
    · rintro rfl; exact ⟨rfl, ha⟩
    · rintro ⟨ho, -⟩; cases ho; rfl
  · constructor
    · exact Or.inl
    · rintro (hw | ⟨o, ho, -, haft, hno⟩)
      · exact hw
      · cases ho
        rw [← haft, ha] at hno
        cases hno
  · constructor
    · exact Or.inl
    · rintro (hw | ⟨d, hd, -⟩)
      · exact hw
      · cases hd

theorem registered_insert_pending {op : InsertOperation}
    (hfresh : r.knownOperations.get? op.opId = none) (hc : Coherent (insert (.insert op) r.ops))
    (ha : r.anchorExists op.afterId = false) :
    Inv ((r.register (.insert op)).addPendingInsert op) := by
  refine @Registers.inv r _ (.insert op) _ ⟨hfresh, hc, rfl, rfl, fun _ => rfl,
    fun id n hn => tombstoned_of_insert h hn, fun o => ?_, List.nodup_nil,
    addPending_nonempty h.insert_nonempty, fun a id => ?_, h.delete_nonempty, fun t id => ?_⟩ h
  · constructor
    · intro ho; cases ho
    · rintro ⟨ho, hy⟩
      cases ho
      rw [ha] at hy
      cases hy
  · show id ∈ waiting (addPending r.pendingInsertsByAnchor op.afterId op.opId) a ↔ _
    rw [mem_waiting_addPending]
    refine or_congr Iff.rfl ⟨?_, ?_⟩
    · rintro ⟨rfl, rfl⟩; exact ⟨op, rfl, rfl, rfl, ha⟩
    · rintro ⟨o, ho, rfl, rfl, -⟩; cases ho; exact ⟨rfl, rfl⟩
  · constructor
    · exact Or.inl
    · rintro (hw | ⟨d, hd, -⟩)
      · exact hw
      · cases hd

theorem registered_delete_pending {op : DeleteOperation}
    (hfresh : r.knownOperations.get? op.opId = none) (hc : Coherent (insert (.delete op) r.ops))
    (hn : r.nodes.get? op.targetId = none) :
    Inv ((r.register (.delete op)).addPendingDelete op) := by
  refine @Registers.inv r _ (.delete op) _ ⟨hfresh, hc, rfl, rfl, fun _ => rfl,
    fun id n hn' => ?_, fun o => ?_, List.nodup_nil, h.insert_nonempty, fun a id => ?_,
    addPending_nonempty h.delete_nonempty, fun t id => ?_⟩ h
  · rw [tombstoned_delete, h.node_tombstone id n hn']
    constructor
    · exact Or.inl
    · rintro (ht | rfl)
      · exact ht
      · exact absurd (hn.symm.trans hn') (by simp)
  · constructor
    · intro ho; cases ho
    · rintro ⟨ho, -⟩; cases ho
  · constructor
    · exact Or.inl
    · rintro (hw | ⟨d, hd, -⟩)
      · exact hw
      · cases hd
  · show id ∈ waiting (addPending r.pendingDeletesByTarget op.targetId op.opId) t ↔ _
    rw [mem_waiting_addPending]
    refine or_congr Iff.rfl ⟨?_, ?_⟩
    · rintro ⟨rfl, rfl⟩; exact ⟨op, rfl, rfl, rfl, hn⟩
    · rintro ⟨d, hd, rfl, rfl, -⟩; cases hd; exact ⟨rfl, rfl⟩

theorem registered_delete_applied {op : DeleteOperation} {target : TextNode}
    (hfresh : r.knownOperations.get? op.opId = none) (hc : Coherent (insert (.delete op) r.ops))
    (hn : r.nodes.get? op.targetId = some target) :
    Inv { r.register (.delete op) with
      nodes := r.nodes.set op.targetId { target with tombstone := true } } := by
  have hnodes : ∀ id, (r.nodes.set op.targetId { target with tombstone := true }).get? id =
      if op.targetId = id then some { target with tombstone := true } else r.nodes.get? id :=
    fun id => InsMap.get?_set _ _ _ _
  refine @Registers.inv r _ (.delete op) _ ⟨hfresh, hc, rfl, rfl, fun id => ?_,
    fun id n hn' => ?_, fun o => ?_, List.nodup_nil, h.insert_nonempty, fun a id => ?_,
    h.delete_nonempty, fun t id => ?_⟩ h
  · show ((r.nodes.set op.targetId _).get? id).map insertOf = _
    rw [hnodes]
    split
    · rename_i hid; rw [← hid, hn]; rfl
    · rfl
  · rw [tombstoned_delete]
    have hn'' : (r.nodes.set op.targetId { target with tombstone := true }).get? id = some n := hn'
    rw [hnodes] at hn''
    split at hn''
    · rename_i hid
      cases hn''
      simp [hid]
    · rename_i hid
      rw [h.node_tombstone id n hn'']
      simp [hid]
  · constructor
    · intro ho; cases ho
    · rintro ⟨ho, -⟩; cases ho
  · constructor
    · exact Or.inl
    · rintro (hw | ⟨d, hd, -⟩)
      · exact hw
      · cases hd
  · constructor
    · exact Or.inl
    · rintro (hw | ⟨d, hd, -, rfl, hnone⟩)
      · exact hw
      · cases hd
        rw [hn] at hnone
        cases hnone

/-! ## `apply` -/

/-- **An admissible operation of a fresh identity** is registered, and it is applied at once
exactly when its dependency is attached. -/
theorem apply_new {op : TextOperation} (hv : ValidOperation op)
    (hfresh : r.knownOperations.get? op.opId = none) (hc : Coherent (insert op r.ops)) :
    ∃ r', r.apply op = (r', .ok (if r.settles op then .applied else .pending)) ∧ Inv r' ∧
      r'.knownOperations = r.knownOperations.set op.opId op := by
  have hadmit := (admit_ok_iff h hv hfresh).2 hc
  have hv' : validateOperation op = .ok () := hv
  simp only [apply, hv', hfresh, hadmit]
  cases op with
  | insert op =>
    simp only [settles, applyInsert]
    by_cases ha : r.anchorExists op.afterId = true
    · obtain ⟨r', hr, hinv, hk⟩ :=
        attachInsertAndResolve_spec (registered_insert_ready h hfresh hc ha)
      have ha' : (r.register (.insert op)).anchorExists op.afterId = true := ha
      refine ⟨r', ?_, hinv, hk⟩
      simp only [ha', ha, hr, not_true_eq_false, if_false, if_true]
    · rw [Bool.not_eq_true] at ha
      have ha' : (r.register (.insert op)).anchorExists op.afterId = false := ha
      refine ⟨_, ?_, registered_insert_pending h hfresh hc ha, rfl⟩
      simp only [ha', ha, Bool.false_eq_true, not_false_eq_true, if_true, if_false]
  | delete op =>
    simp only [settles, applyDelete]
    cases hn : r.nodes.get? op.targetId with
    | none =>
      have hn' : (r.register (.delete op)).nodes.get? op.targetId = none := hn
      refine ⟨_, ?_, registered_delete_pending h hfresh hc hn, rfl⟩
      simp only [hn', InsMap.has_eq_false.2 hn, Bool.false_eq_true, if_false]
    | some target =>
      have hn' : (r.register (.delete op)).nodes.get? op.targetId = some target := hn
      refine ⟨_, ?_, registered_delete_applied h hfresh hc hn, rfl⟩
      simp only [hn', InsMap.has_iff.2 ⟨_, hn⟩, if_true]
      rfl

/-- A known operation is a duplicate, and nothing changes. -/
theorem apply_known {op : TextOperation} (hop : op ∈ r.ops) :
    r.apply op = (r, .ok .duplicate) := by
  have hv : validateOperation op = .ok () := h.coherent.valid op hop
  simp [apply, hv, mem_ops.1 hop, operationsEqual_iff.2 rfl]

/-- **What `apply` does.**  It accepts exactly the operations that keep the known operations
coherent and registers them; a rejection leaves the replica as it was. -/
theorem apply_spec (op : TextOperation) :
    (∃ r' status, r.apply op = (r', .ok status) ∧ Coherent (insert op r.ops) ∧ Inv r' ∧
      r'.ops = insert op r.ops) ∨
    (∃ e, r.apply op = (r, .error e) ∧ e ≠ outOfFuelError ∧ ¬ Coherent (insert op r.ops)) := by
  by_cases hv : ValidOperation op
  · cases hk : r.knownOperations.get? op.opId with
    | some known =>
      have hko : known ∈ r.ops := h.known_ops hk
      have hkid := h.known_id _ _ hk
      by_cases he : known = op
      · subst he
        refine Or.inl ⟨r, .duplicate, apply_known h hko, ?_⟩
        rw [Set.insert_eq_of_mem hko]
        exact ⟨h.coherent, h, rfl⟩
      · have hv' : validateOperation op = .ok () := hv
        refine Or.inr ⟨operationIdentityConflictError op.opId, ?_, ?_, fun hc => he ?_⟩
        · have : ¬ operationsEqual known op = true := fun hq => he (operationsEqual_iff.1 hq)
          simp [apply, hv', hk, this]
        · simp [operationIdentityConflictError, outOfFuelError]
        · exact hc.unique known (Or.inr hko) op (Or.inl rfl) hkid
    | none =>
      by_cases hc : Coherent (insert op r.ops)
      · obtain ⟨r', hr, hinv, hknown⟩ := apply_new h hv hk hc
        exact Or.inl ⟨r', _, hr, hc, hinv, ops_of_known hk hknown⟩
      · have hv' : validateOperation op = .ok () := hv
        have hne := mt (admit_ok_iff h hv hk).1 hc
        cases ha : r.checkAdmissible op with
        | ok u => cases u; exact absurd ha hne
        | error e =>
          refine Or.inr ⟨e, by simp [apply, hv', hk, ha], ?_, hc⟩
          rintro rfl
          exact (admit_spec h hv hk).2 ha
  · cases hv' : validateOperation op with
    | ok u => cases u; exact absurd hv' hv
    | error e =>
      refine Or.inr ⟨e, by simp [apply, hv'], ?_, fun hc => hv (hc.valid op (Or.inl rfl))⟩
      rintro rfl
      exact absurd (validateOperation_error_name hv') (by decide)

/-- **`apply` succeeds exactly when the known operations stay coherent.** -/
theorem apply_ok_iff (op : TextOperation) :
    (∃ status, (r.apply op).2 = .ok status) ↔ Coherent (insert op r.ops) := by
  rcases apply_spec h op with ⟨r', status, hr, hc, -⟩ | ⟨e, hr, -, hc⟩
  · rw [hr]; exact ⟨fun _ => hc, fun _ => ⟨status, rfl⟩⟩
  · rw [hr]; exact ⟨fun ⟨_, he⟩ => (by cases he), fun h' => absurd h' hc⟩

/-- `apply` keeps the invariant whether or not it throws. -/
theorem apply_inv (op : TextOperation) : Inv (r.apply op).1 := by
  rcases apply_spec h op with ⟨r', status, hr, -, hinv, -⟩ | ⟨e, hr, -⟩
  · rw [hr]; exact hinv
  · rw [hr]; exact h

end

/-! ## `applyAll` -/

/-- **`applyAll` succeeds exactly when the operations are coherent with the known ones.** -/
theorem applyAll_spec : ∀ {r : TextReplica} (l : List TextOperation), Inv r →
    Inv (r.applyAll l).1 ∧
      ((r.applyAll l).2 = .ok () ↔ Coherent (r.ops ∪ {op | op ∈ l})) ∧
      ((r.applyAll l).2 = .ok () → (r.applyAll l).1.ops = r.ops ∪ {op | op ∈ l})
  | r, [], h => by
    have : r.ops ∪ {op | op ∈ ([] : List TextOperation)} = r.ops := by ext; simp
    rw [this]
    exact ⟨h, ⟨fun _ => h.coherent, fun _ => rfl⟩, fun _ => rfl⟩
  | r, op :: l, h => by
    have hset : r.ops ∪ {o | o ∈ op :: l} = insert op r.ops ∪ {o | o ∈ l} := by
      ext o
      simp [or_left_comm, or_assoc]
    rcases apply_spec h op with ⟨r', status, hr, -, hinv, hops⟩ | ⟨e, hr, -, hc⟩
    · simp only [applyAll, hr]
      rw [hset, ← hops]
      exact applyAll_spec l hinv
    · simp only [applyAll, hr]
      refine ⟨h, ⟨fun he => by (cases he), fun hco => ?_⟩, fun he => by cases he⟩
      rw [hset] at hco
      exact absurd (hco.anti Set.subset_union_left) hc

/-- `applyAll` forgets nothing, whether or not it throws. -/
theorem applyAll_mono : ∀ {r : TextReplica}, Inv r → ∀ l : List TextOperation,
    r.ops ⊆ (r.applyAll l).1.ops
  | _, _, [] => subset_refl _
  | r, h, op :: l => by
    rcases apply_spec h op with ⟨r', status, hr, -, hinv, hops⟩ | ⟨e, hr, -⟩
    · simp only [applyAll, hr]
      refine subset_trans ?_ (applyAll_mono hinv l)
      rw [hops]
      exact Set.subset_insert _ _
    · simp only [applyAll, hr]
      exact subset_refl _

/-- `applyAll` adds nothing else, whether or not it throws. -/
theorem applyAll_adds : ∀ {r : TextReplica}, Inv r → ∀ l : List TextOperation,
    (r.applyAll l).1.ops ⊆ r.ops ∪ {op | op ∈ l}
  | _, _, [] => Set.subset_union_left
  | r, h, op :: l => by
    rcases apply_spec h op with ⟨r', status, hr, -, hinv, hops⟩ | ⟨e, hr, -⟩
    · simp only [applyAll, hr]
      intro o ho
      have ho' := applyAll_adds hinv l ho
      rw [hops] at ho'
      rcases ho' with (rfl | ho') | ho'
      · exact Or.inr List.mem_cons_self
      · exact Or.inl ho'
      · exact Or.inr (List.mem_cons_of_mem _ ho')
    · simp only [applyAll, hr]
      exact Set.subset_union_left

/-- `applyAll` registers every operation before the first that throws. -/
theorem applyAll_accepts : ∀ {r : TextReplica} {l pre : List TextOperation}, Inv r → pre <+: l →
    Coherent (r.ops ∪ {op | op ∈ pre}) → ∀ op ∈ pre, op ∈ (r.applyAll l).1.ops
  | _, _, [], _, _, _, _, hm => by cases hm
  | r, l, op :: pre, h, hp, hc, o, hm => by
    obtain ⟨l, rfl, hp'⟩ := List.cons_prefix_iff.1 hp
    have hset : r.ops ∪ {o | o ∈ op :: pre} = insert op r.ops ∪ {o | o ∈ pre} := by
      ext o
      simp [or_left_comm, or_assoc]
    rw [hset] at hc
    rcases apply_spec h op with ⟨r', status, hr, -, hinv, hops⟩ | ⟨e, hr, -, hn⟩
    · simp only [applyAll, hr]
      rcases List.mem_cons.1 hm with rfl | hm'
      · exact applyAll_mono hinv l (by rw [hops]; exact Or.inl rfl)
      · exact applyAll_accepts hinv hp' (by rw [hops]; exact hc) o hm'
    · exact absurd (hc.anti Set.subset_union_left) hn

/-- When every operation before the first that throws is known, `applyAll` changes nothing. -/
theorem applyAll_eq_self : ∀ {r : TextReplica} {l : List TextOperation}, Inv r →
    (∀ pre, pre <+: l → Coherent (r.ops ∪ {op | op ∈ pre}) → ∀ op ∈ pre, op ∈ r.ops) →
      (r.applyAll l).1 = r
  | _, [], _, _ => rfl
  | r, op :: l, h, hknown => by
    rcases apply_spec h op with ⟨r', status, hr, hc, -⟩ | ⟨e, hr, -⟩
    · have hop : op ∈ r.ops := by
        refine hknown [op] (List.prefix_append [op] l) ?_ op (List.mem_singleton.2 rfl)
        have : r.ops ∪ {o | o ∈ [op]} = insert op r.ops := by ext; simp [or_comm]
        rw [this]
        exact hc
      simp only [applyAll, apply_known h hop]
      refine applyAll_eq_self h fun pre hp hcoh o ho => ?_
      refine hknown (op :: pre) (List.cons_prefix_cons.2 ⟨rfl, hp⟩) ?_ o (List.mem_cons_of_mem _ ho)
      have : r.ops ∪ {o | o ∈ op :: pre} = r.ops ∪ {o | o ∈ pre} := by
        ext o
        simp only [Set.mem_union, List.mem_cons]
        constructor
        · rintro (ho | rfl | ho)
          · exact Or.inl ho
          · exact Or.inl hop
          · exact Or.inr ho
        · rintro (ho | ho)
          · exact Or.inl ho
          · exact Or.inr (Or.inr ho)
      rw [this]
      exact hcoh
    · simp only [applyAll, hr]

end TextReplica

end LocalFirst
