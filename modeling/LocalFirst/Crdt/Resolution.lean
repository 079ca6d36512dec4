import LocalFirst.Crdt.RoundTrip

/-!
# Resolution

What the five maps of a replica hold, said with the set of known operations alone.

* `Exact` — the nodes are the attached inserts, the pending sets hold the rest, and every child
  list holds the children of its parent once, in the sibling order.
* `Inv.exact` — the invariant between calls says just that.
* `Inv.status_iff` — an operation that is new is applied at once exactly when its dependency is
  attached.
* `resolution_exact` — so it is after any sequence of `apply` calls.
-/

set_option autoImplicit false

namespace LocalFirst

namespace TextReplica

/-- Lamport value descending, client id ascending, counter ascending. -/
def Precedes (left right : TextNode) : Prop :=
  right.lamport < left.lamport ∨ (left.lamport = right.lamport ∧
    (left.clientId < right.clientId ∨
      (left.clientId = right.clientId ∧ left.counter < right.counter)))

/-- The dependency of the operation is attached. -/
def Ready (S : Set TextOperation) : TextOperation → Prop
  | .insert op => op.afterId = ROOT_ID ∨ Attached S op.afterId
  | .delete op => Attached S op.targetId

/-- The maps of the replica, as the set `S` of known operations says. -/
structure Exact (S : Set TextOperation) (r : TextReplica) : Prop where
  known : ∀ id op, r.knownOperations.get? id = some op ↔ op ∈ S ∧ op.opId = id
  attached : ∀ id, (∃ n, r.nodes.get? id = some n) ↔ Attached S id
  node : ∀ id n, r.nodes.get? id = some n → n.id = id ∧ .insert (insertOf n) ∈ S
  tombstone : ∀ id n, r.nodes.get? id = some n → (n.tombstone = true ↔ Tombstoned S id)
  inserts : ∀ a id, id ∈ waiting r.pendingInsertsByAnchor a ↔
    ∃ op : InsertOperation, .insert op ∈ S ∧ op.opId = id ∧ op.afterId = a ∧ ¬ Attached S id
  deletes : ∀ t id, id ∈ waiting r.pendingDeletesByTarget t ↔
    ∃ op : DeleteOperation, .delete op ∈ S ∧ op.opId = id ∧ op.targetId = t ∧ ¬ Attached S t
  children : ∀ p id, id ∈ r.childrenOf p ↔ ∃ n, r.nodes.get? id = some n ∧ n.afterId = p
  once : ∀ p, (r.childrenOf p).Nodup
  ordered : ∀ p, (r.childrenOf p).Pairwise fun left right =>
    ∃ m n, r.nodes.get? left = some m ∧ r.nodes.get? right = some n ∧ Precedes m n

section

variable {r : TextReplica} (h : Inv r)
include h

theorem Inv.node_none_iff {x : JsString} : r.nodes.get? x = none ↔ ¬ Attached r.ops x := by
  rw [← h.node_iff_attached, Option.eq_none_iff_forall_ne_some]
  simp

/-- The key of a sibling is the key of its node. -/
theorem Inv.idKey_node {id : JsString} {n : TextNode} (hn : r.nodes.get? id = some n) :
    idKey r.knownOperations id = nodeKey n := by
  obtain ⟨hid, hop⟩ := h.node_insert id n hn
  have hknown : r.knownOperations.get? id = some (.insert (insertOf n)) := by
    rw [← hid]
    exact hop
  rw [idKey_of_get? hknown]
  rfl

/-- Siblings stand in the order of their nodes. -/
theorem Inv.ordered (p : JsString) : (r.childrenOf p).Pairwise fun left right =>
    ∃ m n, r.nodes.get? left = some m ∧ r.nodes.get? right = some n ∧ Precedes m n := by
  refine (h.child_sorted p).imp_of_mem fun {x y} hx hy hlt => ?_
  obtain ⟨m, hm, -⟩ := (h.child_mem p x).1 hx
  obtain ⟨n, hn, -⟩ := (h.child_mem p y).1 hy
  rw [h.idKey_node hm, h.idKey_node hn] at hlt
  exact ⟨m, n, hm, hn, nodeKey_lt_iff.1 hlt⟩

/-- **The invariant says what every map holds.** -/
theorem Inv.exact : Exact r.ops r where
  known id op := by
    constructor
    · intro hk
      exact ⟨h.known_ops hk, h.known_id id op hk⟩
    · intro ⟨hop, hid⟩
      rw [← hid]
      exact hop
  attached _ := h.node_iff_attached
  node := h.node_insert
  tombstone := h.node_tombstone
  inserts a id := by simp [h.insert_mem, h.node_none_iff]
  deletes t id := by simp [h.delete_mem, h.node_none_iff]
  children := h.child_mem
  once p := (h.child_sorted p).imp fun hlt he => by
    rw [he] at hlt
    exact lt_irrefl _ hlt
  ordered := h.ordered

/-- An operation settles at once exactly when its dependency is attached. -/
theorem Inv.settles_iff (op : TextOperation) : r.settles op = true ↔ Ready r.ops op := by
  cases op with
  | insert op =>
    show r.anchorExists op.afterId = true ↔ _
    rw [anchorExists_iff, h.node_iff_attached]
    rfl
  | delete op =>
    show r.nodes.has op.targetId = true ↔ _
    rw [InsMap.has_iff, h.node_iff_attached]
    rfl

/-- **The status of an operation that is new.** -/
theorem Inv.status_iff {op : TextOperation} {status : ApplyStatus}
    (hfresh : r.knownOperations.get? op.opId = none) (hok : (r.apply op).2 = .ok status) :
    (status = .applied ↔ Ready r.ops op) ∧ (status = .pending ↔ ¬ Ready r.ops op) := by
  have hcoherent := (apply_ok_iff h op).1 ⟨status, hok⟩
  have hvalid := hcoherent.valid op (Set.mem_insert _ _)
  obtain ⟨r', hr, -⟩ := apply_new h hvalid hfresh hcoherent
  rw [hr] at hok
  rw [← Except.ok.inj hok, ← h.settles_iff op]
  cases r.settles op <;> simp

end

/-- **Resolution is exact.**  After any sequence of `apply` calls, some of which may have thrown,
the maps hold what the set of known operations says; sequences that leave the same operations
known leave the same maps; and the next operation that is new and accepted is applied at once
exactly when its dependency is attached. -/
theorem resolution_exact (calls : List TextOperation) :
    Exact (empty.applyEach calls).ops (empty.applyEach calls) ∧
      (∀ calls', (empty.applyEach calls').ops = (empty.applyEach calls).ops →
        Agree (empty.applyEach calls') (empty.applyEach calls)) ∧
      ∀ op status, (empty.applyEach calls).knownOperations.get? op.opId = none →
        ((empty.applyEach calls).apply op).2 = .ok status →
          (status = .applied ↔ Ready (empty.applyEach calls).ops op) ∧
            (status = .pending ↔ ¬ Ready (empty.applyEach calls).ops op) := by
  have h := Inv.empty.applyEach calls
  refine ⟨h.exact, fun calls' hops => ?_, fun op status hfresh hok => h.status_iff hfresh hok⟩
  exact (Inv.empty.applyEach calls').agree h hops

/-- The replicas the program can hold: a new one, one restored from a snapshot, and what any
`apply` leaves, whether or not it throws. -/
inductive Reachable : TextReplica → Prop
  | empty : Reachable empty
  | restored {s : TextReplicaSnapshot} {r : TextReplica} (h : fromSnapshot s = .ok r) : Reachable r
  | apply {r : TextReplica} (h : Reachable r) (op : TextOperation) : Reachable (r.apply op).1

theorem Reachable.inv {r : TextReplica} (h : Reachable r) : Inv r := by
  induction h with
  | empty => exact Inv.empty
  | restored h => exact (fromSnapshot_inv h).1
  | apply _ op ih => exact apply_inv ih op

/-- A delete before its target, and the target before its anchor. -/
example :
    let a : TextOperation := .insert ⟨js "A:1", js "A", 1, 1, ROOT_ID, js "x"⟩
    let b : TextOperation := .insert ⟨js "B:1", js "B", 1, 2, js "A:1", js "y"⟩
    let d : TextOperation := .delete ⟨js "A:2", js "A", 2, 3, js "B:1"⟩
    waiting (empty.applyEach [d, b]).pendingInsertsByAnchor (js "A:1") = [js "B:1"] ∧
      waiting (empty.applyEach [d, b]).pendingDeletesByTarget (js "B:1") = [js "A:2"] ∧
      (empty.applyEach [d, b, a]).getUnresolvedOperationIds = [] := by
  decide +kernel

end TextReplica

end LocalFirst
