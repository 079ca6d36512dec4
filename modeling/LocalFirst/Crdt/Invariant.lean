import LocalFirst.Crdt.History
import LocalFirst.Crdt.Siblings

/-!
# The replica invariant

`DrainInv r queue` holds at the head of the drain loop: the known operations are coherent,
the nodes are attached known inserts, the children of a node are its sorted attached
children, and every known operation that is not settled waits either in `queue` or in the
pending set of its dependency.  `Inv r` is the invariant between calls, when the queue is
empty; then the nodes are exactly the attached inserts (`Inv.node_iff_attached`) and every
map is a function of the set of known operations.

* `Inv.empty` — a new replica.
* `Inv.node_iff_attached`, `Inv.node_ext` — the nodes of a resolved replica.
* `Attaches.inv` — attaching the operation at the head of the queue keeps the invariant.
-/

set_option autoImplicit false

namespace LocalFirst

namespace TextReplica

/-- The operations the replica knows. -/
def ops (r : TextReplica) : Set TextOperation :=
  {op | r.knownOperations.get? op.opId = some op}

/-- The child list of a node or of `ROOT`. -/
def childrenOf (r : TextReplica) (parentId : JsString) : List JsString :=
  (r.childrenByParent.get? parentId).getD []

/-- The operation ids in the pending set of a dependency. -/
def waiting (map : InsMap JsString (InsSet JsString)) (dependencyId : JsString) : List JsString :=
  ((map.get? dependencyId).getD .empty).elems

theorem mem_ops {r : TextReplica} {op : TextOperation} :
    op ∈ r.ops ↔ r.knownOperations.get? op.opId = some op := Iff.rfl

theorem anchorExists_iff {r : TextReplica} {a : JsString} :
    r.anchorExists a = true ↔ a = ROOT_ID ∨ ∃ n, r.nodes.get? a = some n := by
  simp [anchorExists, InsMap.has_iff]

/-- The invariant at the head of the drain loop. -/
structure DrainInv (r : TextReplica) (queue : List InsertOperation) : Prop where
  known_id : ∀ id op, r.knownOperations.get? id = some op → op.opId = id
  coherent : Coherent r.ops
  node_insert : ∀ id n, r.nodes.get? id = some n → n.id = id ∧ .insert (insertOf n) ∈ r.ops
  node_tombstone : ∀ id n, r.nodes.get? id = some n → (n.tombstone = true ↔ Tombstoned r.ops id)
  node_attached : ∀ id n, r.nodes.get? id = some n → Attached r.ops id
  node_anchor : ∀ id n, r.nodes.get? id = some n → r.anchorExists n.afterId = true
  child_mem : ∀ p id, id ∈ r.childrenOf p ↔ ∃ n, r.nodes.get? id = some n ∧ n.afterId = p
  child_sorted : ∀ p, (r.childrenOf p).Pairwise
    (fun x y => idKey r.knownOperations x < idKey r.knownOperations y)
  child_nonempty : ∀ p, r.childrenByParent.get? p ≠ some []
  queue_ready : ∀ op ∈ queue, .insert op ∈ r.ops ∧ r.nodes.get? op.opId = none ∧
    r.anchorExists op.afterId = true
  queue_nodup : queue.Nodup
  ready_queued : ∀ op, .insert op ∈ r.ops → r.nodes.get? op.opId = none →
    r.anchorExists op.afterId = true → op ∈ queue
  insert_nonempty : ∀ a s, r.pendingInsertsByAnchor.get? a = some s → s.elems ≠ []
  insert_mem : ∀ a id, id ∈ waiting r.pendingInsertsByAnchor a ↔
    ∃ op : InsertOperation, .insert op ∈ r.ops ∧ op.opId = id ∧ op.afterId = a ∧
      r.nodes.get? id = none ∧ op ∉ queue
  delete_nonempty : ∀ t s, r.pendingDeletesByTarget.get? t = some s → s.elems ≠ []
  delete_mem : ∀ t id, id ∈ waiting r.pendingDeletesByTarget t ↔
    ∃ op : DeleteOperation, .delete op ∈ r.ops ∧ op.opId = id ∧ op.targetId = t ∧
      r.nodes.get? t = none

/-- The invariant between calls. -/
def Inv (r : TextReplica) : Prop := DrainInv r []

theorem ops_empty : empty.ops = ∅ := by
  ext op
  simp [mem_ops, empty]

/-- A new replica. -/
theorem Inv.empty : Inv empty where
  known_id _ _ h := by cases h
  coherent := by rw [ops_empty]; exact coherent_empty
  node_insert _ _ h := by cases h
  node_tombstone _ _ h := by cases h
  node_attached _ _ h := by cases h
  node_anchor _ _ h := by cases h
  child_mem p id := by
    constructor
    · intro h; cases h
    · rintro ⟨_, h, _⟩; cases h
  child_sorted _ := List.Pairwise.nil
  child_nonempty _ h := by cases h
  queue_ready _ h := by cases h
  queue_nodup := List.nodup_nil
  ready_queued op h := by rw [ops_empty] at h; cases h
  insert_nonempty _ _ h := by cases h
  insert_mem a id := by
    constructor
    · intro h; cases h
    · rintro ⟨_, h, _⟩; rw [ops_empty] at h; cases h
  delete_nonempty _ _ h := by cases h
  delete_mem t id := by
    constructor
    · intro h; cases h
    · rintro ⟨_, h, _⟩; rw [ops_empty] at h; cases h

namespace DrainInv

variable {r : TextReplica} {queue : List InsertOperation} (h : DrainInv r queue)
include h

theorem known_ops {id : JsString} {op : TextOperation}
    (hk : r.knownOperations.get? id = some op) : op ∈ r.ops := by
  rw [mem_ops, h.known_id id op hk]
  exact hk

theorem insert_eq {op op' : InsertOperation} (ho : .insert op ∈ r.ops) (ho' : .insert op' ∈ r.ops)
    (hid : op.opId = op'.opId) : op = op' := by
  have := h.coherent.unique _ ho _ ho' (by simpa using hid)
  cases this
  rfl

/-- Nodes of known inserts hold the fields of the insert. -/
theorem insertOf_node {op : InsertOperation} {n : TextNode} (ho : .insert op ∈ r.ops)
    (hn : r.nodes.get? op.opId = some n) : insertOf n = op := by
  obtain ⟨hid, hm⟩ := h.node_insert _ _ hn
  exact h.insert_eq hm ho hid

theorem idKey_ne {a b : TextOperation} (ha : a ∈ r.ops) (hb : b ∈ r.ops) (hne : a.opId ≠ b.opId) :
    idKey r.knownOperations a.opId ≠ idKey r.knownOperations b.opId := by
  rw [idKey_of_get? ha, idKey_of_get? hb]
  exact fun he => hne (opId_eq_of_opKey_eq (h.coherent.valid _ ha) (h.coherent.valid _ hb) he)

theorem node_id_ne_nil {id : JsString} {n : TextNode} (hn : r.nodes.get? id = some n) : id ≠ [] := by
  obtain ⟨hid, hm⟩ := h.node_insert _ _ hn
  rw [← hid]
  exact (h.coherent.valid _ hm).opId_ne_nil

theorem root_not_node : r.nodes.get? ROOT_ID = none := by
  rw [Option.eq_none_iff_forall_ne_some]
  intro n hn
  obtain ⟨hid, hm⟩ := h.node_insert _ _ hn
  exact (h.coherent.valid _ hm).opId_ne_root hid

/-- An existing anchor is `ROOT` or attached. -/
theorem attached_of_anchorExists {a : JsString} (ha : r.anchorExists a = true) :
    a = ROOT_ID ∨ Attached r.ops a := by
  rcases anchorExists_iff.1 ha with rfl | ⟨n, hn⟩
  · exact Or.inl rfl
  · exact Or.inr (h.node_attached _ _ hn)

end DrainInv

namespace Inv

variable {r : TextReplica} (h : Inv r)
include h

/-- Between calls the attached inserts are nodes. -/
theorem node_of_attached {x : JsString} (hx : Attached r.ops x) : ∃ n, r.nodes.get? x = some n := by
  have key : ∀ {op : InsertOperation}, .insert op ∈ r.ops → r.anchorExists op.afterId = true →
      ∃ n, r.nodes.get? op.opId = some n := by
    intro op hop ha
    cases hn : r.nodes.get? op.opId with
    | some n => exact ⟨n, rfl⟩
    | none => exact absurd (h.ready_queued op hop hn ha) (by simp)
  induction hx with
  | base hl =>
    obtain ⟨op, hop, rfl, hroot⟩ := hl
    exact key hop (anchorExists_iff.2 (Or.inl hroot))
  | step hl _ ih =>
    obtain ⟨op, hop, rfl, rfl⟩ := hl
    exact key hop (anchorExists_iff.2 (Or.inr ih))

/-- **Between calls the nodes are exactly the attached inserts.** -/
theorem node_iff_attached {x : JsString} :
    (∃ n, r.nodes.get? x = some n) ↔ Attached r.ops x :=
  ⟨fun ⟨n, hn⟩ => h.node_attached x n hn, h.node_of_attached⟩

end Inv

/-! ## Attaching the head of the queue -/

/-- `r'` is `r` with `op` attached, its waiting deletes settled and its pending set released. -/
structure Attaches (r : TextReplica) (op : InsertOperation) (r' : TextReplica) : Prop where
  known : r'.knownOperations = r.knownOperations
  nodes : ∃ t : Bool, (t = true ↔ waiting r.pendingDeletesByTarget op.opId ≠ []) ∧
    ∀ x, r'.nodes.get? x =
      if op.opId = x then some { nodeOf op with tombstone := t } else r.nodes.get? x
  children : ∀ p, r'.childrenByParent.get? p =
    if op.afterId = p then some ((r.childrenOf p).orderedInsert
      (fun x y => idKey r.knownOperations x ≤ idKey r.knownOperations y) op.opId)
    else r.childrenByParent.get? p
  inserts : ∀ a, r'.pendingInsertsByAnchor.get? a =
    if op.opId = a then none else r.pendingInsertsByAnchor.get? a
  deletes : ∀ t, r'.pendingDeletesByTarget.get? t =
    if op.opId = t then none else r.pendingDeletesByTarget.get? t

/-- The inserts released from the pending set of `op`. -/
structure Releases (r : TextReplica) (op : InsertOperation) (released : List InsertOperation) :
    Prop where
  nodup : released.Nodup
  mem : ∀ c, c ∈ released ↔ .insert c ∈ r.ops ∧ c.opId ∈ waiting r.pendingInsertsByAnchor op.opId

theorem Releases.anchor {r : TextReplica} {op c : InsertOperation}
    {queue released : List InsertOperation} (hrel : Releases r op released)
    (h : DrainInv r (op :: queue)) (hc : c ∈ released) :
    c.afterId = op.opId ∧ r.nodes.get? c.opId = none ∧ c ∉ op :: queue := by
  obtain ⟨hop, hw⟩ := (hrel.mem c).1 hc
  obtain ⟨c', hc', hid, haft, hnone, hq⟩ := (h.insert_mem _ _).1 hw
  cases h.insert_eq hc' hop hid
  exact ⟨haft, hnone, hq⟩

namespace Attaches

variable {r r' : TextReplica} {op : InsertOperation} {queue released : List InsertOperation}
  (ha : Attaches r op r') (h : DrainInv r (op :: queue))
include ha

theorem ops_eq : r'.ops = r.ops := by
  ext o
  rw [mem_ops, mem_ops, ha.known]

theorem node_self : ∃ n, r'.nodes.get? op.opId = some n ∧ insertOf n = op := by
  obtain ⟨t, -, hn⟩ := ha.nodes
  exact ⟨_, (hn _).trans (if_pos rfl), rfl⟩

theorem node_ne {x : JsString} (hx : x ≠ op.opId) : r'.nodes.get? x = r.nodes.get? x := by
  obtain ⟨t, -, hn⟩ := ha.nodes
  rw [hn, if_neg (Ne.symm hx)]

theorem node_none {x : JsString} :
    r'.nodes.get? x = none ↔ x ≠ op.opId ∧ r.nodes.get? x = none := by
  by_cases hx : x = op.opId
  · subst hx
    obtain ⟨n, hn, -⟩ := ha.node_self
    simp [hn]
  · simp [hx, ha.node_ne hx]

theorem anchorExists_iff' {a : JsString} :
    r'.anchorExists a = true ↔ r.anchorExists a = true ∨ a = op.opId := by
  rw [anchorExists_iff, anchorExists_iff]
  by_cases hx : a = op.opId
  · subst hx
    obtain ⟨n, hn, -⟩ := ha.node_self
    simp [hn]
  · simp [hx, ha.node_ne hx]

theorem waiting_inserts {a : JsString} : waiting r'.pendingInsertsByAnchor a =
    if op.opId = a then [] else waiting r.pendingInsertsByAnchor a := by
  unfold waiting
  rw [ha.inserts]
  split <;> rfl

theorem waiting_deletes {t : JsString} : waiting r'.pendingDeletesByTarget t =
    if op.opId = t then [] else waiting r.pendingDeletesByTarget t := by
  unfold waiting
  rw [ha.deletes]
  split <;> rfl

theorem mem_childrenOf {p id : JsString} : id ∈ r'.childrenOf p ↔
    id ∈ r.childrenOf p ∨ (id = op.opId ∧ p = op.afterId) := by
  unfold childrenOf
  rw [ha.children]
  by_cases hp : op.afterId = p
  · rw [if_pos hp]
    simp [List.mem_orderedInsert, hp, childrenOf, or_comm]
  · rw [if_neg hp]
    simp [Ne.symm hp]

include h

theorem node_tombstone {id : JsString} {n : TextNode} (hn : r'.nodes.get? id = some n) :
    n.tombstone = true ↔ Tombstoned r.ops id := by
  obtain ⟨t, ht, hnodes⟩ := ha.nodes
  rw [hnodes] at hn
  split at hn
  · rename_i hid
    subst hid
    cases hn
    have hnone := (h.queue_ready op List.mem_cons_self).2.1
    show t = true ↔ _
    rw [ht]
    constructor
    · intro hne
      obtain ⟨x, hx⟩ := List.exists_mem_of_ne_nil _ hne
      obtain ⟨d, hd, -, htar, -⟩ := (h.delete_mem _ _).1 hx
      exact ⟨d, hd, htar⟩
    · rintro ⟨d, hd, htar⟩
      exact List.ne_nil_of_mem ((h.delete_mem _ _).2 ⟨d, hd, rfl, htar, hnone⟩)
  · exact h.node_tombstone id n hn

theorem child_sorted (p : JsString) : (r'.childrenOf p).Pairwise
    (fun x y => idKey r.knownOperations x < idKey r.knownOperations y) := by
  unfold childrenOf
  rw [ha.children]
  split
  · refine orderedInsert_strict (h.child_sorted p) fun b hb => ?_
    obtain ⟨n, hn, -⟩ := (h.child_mem p b).1 hb
    obtain ⟨hid, hm⟩ := h.node_insert b n hn
    obtain ⟨hop, hnone, -⟩ := h.queue_ready op List.mem_cons_self
    have hne : (TextOperation.insert (insertOf n)).opId ≠ (TextOperation.insert op).opId := by
      intro he
      rw [show op.opId = b from he.symm.trans hid, hn] at hnone
      cases hnone
    have := h.idKey_ne hm hop hne
    rwa [show (TextOperation.insert (insertOf n)).opId = b from hid] at this
  · exact h.child_sorted p

theorem child_mem (p id : JsString) :
    id ∈ r'.childrenOf p ↔ ∃ n, r'.nodes.get? id = some n ∧ n.afterId = p := by
  rw [ha.mem_childrenOf, h.child_mem]
  by_cases hid : id = op.opId
  · subst hid
    obtain ⟨n', hn', hins⟩ := ha.node_self
    have haft : n'.afterId = op.afterId := congrArg InsertOperation.afterId hins
    simp [(h.queue_ready op List.mem_cons_self).2.1, hn', haft, eq_comm]
  · simp [hid, ha.node_ne hid]

theorem delete_mem (t id : JsString) : id ∈ waiting r'.pendingDeletesByTarget t ↔
    ∃ d : DeleteOperation, .delete d ∈ r'.ops ∧ d.opId = id ∧ d.targetId = t ∧
      r'.nodes.get? t = none := by
  rw [ha.waiting_deletes, ha.ops_eq]
  by_cases hid : op.opId = t
  · subst hid
    rw [if_pos rfl]
    constructor
    · intro hm; cases hm
    · rintro ⟨d, -, -, -, hnone⟩
      exact absurd rfl (ha.node_none.1 hnone).1
  · rw [if_neg hid, h.delete_mem, ha.node_ne (Ne.symm hid)]

variable (hrel : Releases r op released)
include hrel

/-- A known insert that becomes ready is in the rest of the queue or is released. -/
theorem ready_queued {o : InsertOperation} (ho : .insert o ∈ r.ops)
    (hnone : r'.nodes.get? o.opId = none) (hanc : r'.anchorExists o.afterId = true) :
    o ∈ queue ++ released := by
  obtain ⟨hne, hnone⟩ := ha.node_none.1 hnone
  have hneq : o ≠ op := fun he => hne (by rw [he])
  rw [List.mem_append]
  by_cases hq : o ∈ op :: queue
  · exact Or.inl ((List.mem_cons.1 hq).resolve_left hneq)
  · rcases ha.anchorExists_iff'.1 hanc with hanc | hanc
    · exact absurd (h.ready_queued o ho hnone hanc) hq
    · exact Or.inr ((hrel.mem o).2
        ⟨ho, (h.insert_mem _ _).2 ⟨o, ho, rfl, hanc, hnone, hq⟩⟩)

/-- What is queued then is ready: the rest of the queue was, and what is released is anchored on
the new node. -/
theorem queue_ready {c : InsertOperation} (hc : c ∈ queue ++ released) :
    .insert c ∈ r'.ops ∧ r'.nodes.get? c.opId = none ∧ r'.anchorExists c.afterId = true := by
  obtain ⟨hop, -, -⟩ := h.queue_ready op List.mem_cons_self
  rw [ha.ops_eq, ha.node_none, ha.anchorExists_iff']
  rcases List.mem_append.1 hc with hc | hc
  · obtain ⟨h1, h2, h3⟩ := h.queue_ready c (List.mem_cons_of_mem _ hc)
    refine ⟨h1, ⟨fun hid => ?_, h2⟩, Or.inl h3⟩
    rw [h.insert_eq h1 hop hid] at hc
    exact (List.nodup_cons.1 h.queue_nodup).1 hc
  · obtain ⟨h1, h2, -⟩ := hrel.anchor h hc
    have hcm := ((hrel.mem c).1 hc).1
    refine ⟨hcm, ⟨fun hid => ?_, h2⟩, Or.inr h1⟩
    exact (h.coherent.valid _ hcm).afterId_ne_opId (h1.trans hid.symm)

theorem insert_mem (a id : JsString) : id ∈ waiting r'.pendingInsertsByAnchor a ↔
    ∃ o : InsertOperation, .insert o ∈ r'.ops ∧ o.opId = id ∧ o.afterId = a ∧
      r'.nodes.get? id = none ∧ o ∉ queue ++ released := by
  obtain ⟨hop, -, -⟩ := h.queue_ready op List.mem_cons_self
  rw [ha.waiting_inserts, ha.ops_eq]
  by_cases hid : op.opId = a
  · subst hid
    rw [if_pos rfl]
    constructor
    · intro hm; cases hm
    · rintro ⟨o, ho, rfl, haft, hnone, hq⟩
      exact absurd (ha.ready_queued h hrel ho hnone
        (ha.anchorExists_iff'.2 (Or.inr haft))) hq
  · rw [if_neg hid, h.insert_mem]
    constructor
    · rintro ⟨o, ho, rfl, haft, hnone, hq⟩
      refine ⟨o, ho, rfl, haft, ha.node_none.2 ⟨fun he => ?_, hnone⟩, fun hm => ?_⟩
      · exact hq (by rw [h.insert_eq ho hop he]; exact List.mem_cons_self)
      · rcases List.mem_append.1 hm with hm | hm
        · exact hq (List.mem_cons_of_mem _ hm)
        · exact hid ((hrel.anchor h hm).1.symm.trans haft)
    · rintro ⟨o, ho, rfl, haft, hnone, hq⟩
      obtain ⟨hne, hnone⟩ := ha.node_none.1 hnone
      refine ⟨o, ho, rfl, haft, hnone, fun hm => ?_⟩
      rcases List.mem_cons.1 hm with rfl | hm
      · exact hne rfl
      · exact hq (List.mem_append_left _ hm)

/-- **Attaching the head of the queue keeps the invariant.** -/
theorem inv : DrainInv r' (queue ++ released) := by
  obtain ⟨hop, -, hopanc⟩ := h.queue_ready op List.mem_cons_self
  have hqn := List.nodup_cons.1 h.queue_nodup
  constructor
  case known_id => intro id o; rw [ha.known]; exact h.known_id id o
  case coherent => rw [ha.ops_eq]; exact h.coherent
  case node_insert =>
    intro id n hn
    rw [ha.ops_eq]
    by_cases hid : id = op.opId
    · subst hid
      obtain ⟨n', hn', hins⟩ := ha.node_self
      rw [hn'] at hn
      cases hn
      exact ⟨congrArg InsertOperation.opId hins, by rw [hins]; exact hop⟩
    · rw [ha.node_ne hid] at hn
      exact h.node_insert id n hn
  case node_tombstone => intro id n hn; rw [ha.ops_eq]; exact ha.node_tombstone h hn
  case node_attached =>
    intro id n hn
    rw [ha.ops_eq]
    by_cases hid : id = op.opId
    · subst hid
      exact (h.coherent.attached_iff hop).2 (h.attached_of_anchorExists hopanc)
    · rw [ha.node_ne hid] at hn
      exact h.node_attached id n hn
  case node_anchor =>
    intro id n hn
    by_cases hid : id = op.opId
    · subst hid
      obtain ⟨n', hn', hins⟩ := ha.node_self
      rw [hn'] at hn
      cases hn
      have : n.afterId = op.afterId := congrArg InsertOperation.afterId hins
      rw [this]
      exact ha.anchorExists_iff'.2 (Or.inl hopanc)
    · rw [ha.node_ne hid] at hn
      exact ha.anchorExists_iff'.2 (Or.inl (h.node_anchor id n hn))
  case child_mem => exact ha.child_mem h
  case child_sorted => intro p; rw [ha.known]; exact ha.child_sorted h p
  case child_nonempty =>
    intro p hp
    rw [ha.children] at hp
    split at hp
    · have : op.opId ∈ ([] : List JsString) := by
        rw [← Option.some.inj hp]
        exact (List.mem_orderedInsert _).2 (Or.inl rfl)
      cases this
    · exact h.child_nonempty p hp
  case queue_ready => exact fun c hc => ha.queue_ready h hrel hc
  case queue_nodup =>
    refine List.nodup_append.2 ⟨hqn.2, hrel.nodup, ?_⟩
    rintro c hc _ hc' rfl
    exact (hrel.anchor h hc').2.2 (List.mem_cons_of_mem _ hc)
  case ready_queued =>
    intro o ho hnone hanc
    rw [ha.ops_eq] at ho
    exact ha.ready_queued h hrel ho hnone hanc
  case insert_nonempty =>
    intro a s hs
    rw [ha.inserts] at hs
    split at hs
    · cases hs
    · exact h.insert_nonempty a s hs
  case insert_mem => exact ha.insert_mem h hrel
  case delete_nonempty =>
    intro t s hs
    rw [ha.deletes] at hs
    split at hs
    · cases hs
    · exact h.delete_nonempty t s hs
  case delete_mem => exact ha.delete_mem h

end Attaches

end TextReplica

end LocalFirst
