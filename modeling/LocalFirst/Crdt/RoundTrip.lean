import LocalFirst.Crdt.FromSnapshot

/-!
# The snapshot round trip

A resolved replica exports its nodes and deletes; the replica restored from them cannot be
told from it, now or after any later operations.

* `exportSnapshot_coherent` — what a resolved replica exports is accepted, and stands for the
  operations the replica knows.
* `trace_congr` — replicas that know the same operations have the same future.
* `snapshot_bisimulation` — the round trip is a bisimulation.
-/

set_option autoImplicit false

namespace LocalFirst

namespace TextReplica

/-! ## What is exported -/

section Exported

variable {r : TextReplica} (h : Inv r)
include h

theorem DrainInv.mem_nodes {n : TextNode} : n ∈ r.nodes.values ↔ r.nodes.get? n.id = some n := by
  rw [InsMap.mem_values]
  constructor
  · rintro ⟨id, hn⟩
    rw [(h.node_insert id n hn).1]
    exact hn
  · intro hn
    exact ⟨_, hn⟩

theorem Inv.mem_knownDeletes {d : DeleteOperation} :
    d ∈ knownDeletes r.knownOperations.values ↔ .delete d ∈ r.ops := by
  unfold knownDeletes
  rw [List.mem_filterMap]
  constructor
  · rintro ⟨op, hop, he⟩
    obtain ⟨id, hid⟩ := InsMap.mem_values.1 hop
    cases op with
    | insert op => cases he
    | delete op => cases he; exact h.known_ops hid
  · intro hd
    exact ⟨.delete d, InsMap.mem_values.2 ⟨_, hd⟩, rfl⟩

theorem nodes_nodup : (r.nodes.values.map (·.id)).Nodup := by
  have : r.nodes.values.map (·.id) = r.nodes.keys := by
    unfold InsMap.values InsMap.keys
    rw [List.map_map]
    refine List.map_congr_left fun e he => ?_
    exact (h.node_insert e.1 e.2 (InsMap.mem_entries.1 he)).1
  rw [this]
  exact r.nodes.nodup_keys

theorem knownDeletes_nodup : ((knownDeletes r.knownOperations.values).map (·.opId)).Nodup := by
  have hsub : ∀ es : List (JsString × TextOperation), (∀ e ∈ es, e.2.opId = e.1) →
      ((knownDeletes (es.map Prod.snd)).map (·.opId)).Sublist (es.map Prod.fst) := by
    intro es
    induction es with
    | nil => exact fun _ => List.Sublist.slnil
    | cons e es ih =>
      intro he
      obtain ⟨id, op⟩ := e
      have ih := ih fun x hx => he x (List.mem_cons_of_mem _ hx)
      have hid : op.opId = id := he (id, op) List.mem_cons_self
      cases op with
      | insert op => exact ih.cons id
      | delete op =>
        subst hid
        exact ih.cons_cons op.opId
  exact r.knownOperations.nodup.sublist
    (hsub r.knownOperations.entries fun e he => h.known_id e.1 e.2 (InsMap.mem_entries.1 he))

/-- Nothing is unresolved exactly when every dependency is attached. -/
theorem Inv.resolved_iff : r.getUnresolvedOperationIds = [] ↔
    (∀ op : InsertOperation, .insert op ∈ r.ops → Attached r.ops op.opId) ∧
      ∀ op : DeleteOperation, .delete op ∈ r.ops → Attached r.ops op.targetId := by
  rw [List.eq_nil_iff_forall_not_mem]
  simp only [h.unresolved_iff, not_or, not_exists, not_and, not_not]
  constructor
  · intro hall
    exact ⟨fun op hop => (hall op.opId).1 op hop rfl, fun op hop => (hall op.opId).2 op hop rfl⟩
  · rintro ⟨hi, hd⟩ id
    exact ⟨fun op hop he => by rw [← he]; exact hi op hop, fun op hop _ => hd op hop⟩

/-- A list of the nodes and the deletes of a resolved replica, in any order, is an accepted
snapshot of the operations that the replica knows. -/
theorem snapshotCoherent_of_perm (hres : r.getUnresolvedOperationIds = [])
    {s : TextReplicaSnapshot} (hversion : s.version = 1) (hn : s.nodes.Perm r.nodes.values)
    (hd : s.deleteOperations.Perm (knownDeletes r.knownOperations.values)) :
    SnapshotCoherent s ∧ snapshotOps s = r.ops := by
  obtain ⟨hins, hdel⟩ := h.resolved_iff.1 hres
  have hnode : ∀ n, n ∈ s.nodes ↔ r.nodes.get? n.id = some n := fun n => by
    rw [hn.mem_iff]
    exact DrainInv.mem_nodes h
  have hdelete : ∀ d, d ∈ s.deleteOperations ↔ .delete d ∈ r.ops := fun d => by
    rw [hd.mem_iff, h.mem_knownDeletes]
  have hinsert : ∀ n ∈ s.nodes, .insert (insertOf n) ∈ r.ops := fun n hm =>
    (h.node_insert _ _ ((hnode n).1 hm)).2
  have hattached : ∀ {x}, Attached r.ops x → ∃ n ∈ s.nodes, n.id = x := by
    intro x hx
    obtain ⟨n, hn⟩ := h.node_of_attached hx
    have hid := (h.node_insert x n hn).1
    exact ⟨n, (hnode n).2 (by rw [hid]; exact hn), hid⟩
  have hops : snapshotOps s = r.ops := by
    ext op
    cases op with
    | insert op =>
      rw [mem_snapshotOps_insert]
      constructor
      · rintro ⟨n, hm, rfl⟩
        exact hinsert n hm
      · intro hop
        obtain ⟨n, hm, hid⟩ := hattached (hins op hop)
        exact ⟨n, hm, h.insert_eq (hinsert n hm) hop hid⟩
    | delete op => rw [mem_snapshotOps_delete, hdelete]
  refine ⟨?_, hops⟩
  constructor
  case version => exact hversion
  case node_nodup => exact (hn.map _).nodup_iff.2 (nodes_nodup h)
  case node_valid => exact fun n hm => h.coherent.valid _ (hinsert n hm)
  case delete_nodup => exact (hd.map _).nodup_iff.2 (knownDeletes_nodup h)
  case delete_valid => exact fun d hm => h.coherent.valid _ ((hdelete d).1 hm)
  case disjoint =>
    intro n hm d hdm he
    have := h.coherent.unique _ (hinsert n hm) _ ((hdelete d).1 hdm) he
    cases this
  case target => exact fun d hm => hattached (hdel d ((hdelete d).1 hm))
  case anchor =>
    intro n hm
    refine (h.attached_of_anchorExists (h.node_anchor _ _ ((hnode n).1 hm))).imp_right hattached
  case tombstone =>
    intro n hm
    rw [h.node_tombstone _ _ ((hnode n).1 hm)]
    exact exists_congr fun d => and_congr (hdelete d).symm Iff.rfl
  case rooted =>
    intro n hm
    refine Rooted.mono (fun x y hl => ?_) (h.node_attached _ _ ((hnode n).1 hm))
    rw [← hops] at hl
    exact anchoredOn_snapshotOps.1 hl

/-- **What a resolved replica exports** is accepted and stands for what the replica knows. -/
theorem exportSnapshot_coherent (hres : r.getUnresolvedOperationIds = []) :
    ∃ s, r.exportSnapshot = .ok s ∧ SnapshotCoherent s ∧ snapshotOps s = r.ops := by
  have hexp : r.exportSnapshot = .ok _ := if_neg (by rw [hres]; simp)
  exact ⟨_, hexp, snapshotCoherent_of_perm h hres rfl (sortBy_perm _ _) (sortBy_perm _ _)⟩

/-- An exported snapshot restores to a replica that knows the same operations. -/
theorem fromSnapshot_exportSnapshot (hres : r.getUnresolvedOperationIds = []) :
    ∃ snapshot r', r.exportSnapshot = .ok snapshot ∧ fromSnapshot snapshot = .ok r' ∧ Inv r' ∧
      r'.ops = r.ops := by
  obtain ⟨snapshot, hexp, hcoh, hops⟩ := exportSnapshot_coherent h hres
  obtain ⟨r', hr', hinv, hops', -⟩ := fromSnapshot_ok hcoh
  exact ⟨snapshot, r', hexp, hr', hinv, hops'.trans hops⟩

end Exported

/-! ## Bisimulation -/

/-- What can be read from a replica. -/
structure Observation where
  visibleElements : Except JsError (List VisibleElement)
  knownOperationIds : List JsString
  unresolvedOperationIds : List JsString
  snapshot : Except JsError TextReplicaSnapshot

def observe (r : TextReplica) : Observation :=
  ⟨r.getVisibleElements, r.getKnownOperationIds, r.getUnresolvedOperationIds, r.exportSnapshot⟩

/-- The replica after a list of `apply` calls, whether or not they throw. -/
def applyEach : TextReplica → List TextOperation → TextReplica
  | r, [] => r
  | r, op :: l => applyEach (r.apply op).1 l

/-- What each of a list of `apply` calls returns or throws, and what can be read after it. -/
def trace : TextReplica → List TextOperation → List (Except JsError ApplyStatus × Observation)
  | _, [] => []
  | r, op :: l => ((r.apply op).2, observe (r.apply op).1) :: trace (r.apply op).1 l

theorem Inv.applyEach {r : TextReplica} (h : Inv r) : ∀ l : List TextOperation,
    Inv (r.applyEach l)
  | [] => h
  | op :: l => Inv.applyEach (apply_inv h op) l

theorem applyEach_append (r : TextReplica) : ∀ l l' : List TextOperation,
    r.applyEach (l ++ l') = (r.applyEach l).applyEach l'
  | [], _ => rfl
  | op :: l, l' => applyEach_append (r.apply op).1 l l'

section Bisimulation

variable {r r' : TextReplica} (h : Inv r) (h' : Inv r') (hops : r.ops = r'.ops)
include h h' hops

theorem observe_congr : observe r = observe r' := by
  have a := h.agree h' hops
  unfold observe
  rw [a.visible, a.known_ids, a.unresolved, a.exportSnapshot_eq h]

/-- One step of the bisimulation: the next operation leaves the same operations known. -/
theorem apply_ops_congr (op : TextOperation) : (r.apply op).1.ops = (r'.apply op).1.ops := by
  rcases apply_spec h op with ⟨s, status, hs, hc, -, hsops⟩ | ⟨e, hs, -, hc⟩
  · rcases apply_spec h' op with ⟨s', status', hs', -, -, hsops'⟩ | ⟨e, -, -, hc'⟩
    · rw [hs, hs', hsops, hsops', hops]
    · exact absurd (hops ▸ hc) hc'
  · rcases apply_spec h' op with ⟨s', status', -, hc', -⟩ | ⟨e', hs', -⟩
    · exact absurd (hops ▸ hc') hc
    · rw [hs, hs', hops]

end Bisimulation

theorem trace_congr : ∀ {r r' : TextReplica} (l : List TextOperation), Inv r → Inv r' →
    r.ops = r'.ops → trace r l = trace r' l ∧ (r.applyEach l).ops = (r'.applyEach l).ops
  | _, _, [], _, _, hops => ⟨rfl, hops⟩
  | r, r', op :: l, h, h', hops => by
    have hstep := apply_ops_congr h h' hops op
    obtain ⟨htrace, hend⟩ := trace_congr l (apply_inv h op) (apply_inv h' op) hstep
    refine ⟨?_, hend⟩
    unfold trace
    rw [(h.agree h' hops).apply_status h h', observe_congr (apply_inv h op) (apply_inv h' op) hstep,
      htrace]

/-- **The snapshot round trip is a bisimulation.**  A resolved replica, reached by any `apply`
calls, exports a snapshot; the replica restored from it shows the same, and every later
sequence of operations has the same outcomes and shows the same after each of them. -/
theorem snapshot_bisimulation (history : List TextOperation)
    (hres : (empty.applyEach history).getUnresolvedOperationIds = []) :
    ∃ snapshot r', (empty.applyEach history).exportSnapshot = .ok snapshot ∧
      fromSnapshot snapshot = .ok r' ∧ observe r' = observe (empty.applyEach history) ∧
      (∀ later, trace r' later = trace (empty.applyEach history) later) ∧
      ∀ suffix, observe (r'.applyEach suffix) = observe (empty.applyEach (history ++ suffix)) := by
  have h := Inv.empty.applyEach history
  obtain ⟨snapshot, r', hexp, hfrom, h', hops⟩ := fromSnapshot_exportSnapshot h hres
  refine ⟨snapshot, r', hexp, hfrom, observe_congr h' h hops, fun later => ?_, fun suffix => ?_⟩
  · exact (trace_congr later h' h hops).1
  · rw [applyEach_append]
    exact observe_congr (h'.applyEach suffix) (h.applyEach suffix) (trace_congr suffix h' h hops).2

/-- A tombstone survives the round trip: the delete delivered again is a duplicate. -/
theorem snapshot_bisimulation_tombstone :
    let a : TextOperation := .insert ⟨js "A:1", js "A", 1, 1, ROOT_ID, js "x"⟩
    let d : TextOperation := .delete ⟨js "B:1", js "B", 1, 2, js "A:1"⟩
    ∃ snapshot r', (empty.applyEach [d, a]).exportSnapshot = .ok snapshot ∧
      fromSnapshot snapshot = .ok r' ∧ trace r' [d, a] = trace (empty.applyEach [d, a]) [d, a] := by
  intro a d
  obtain ⟨snapshot, r', hexp, hfrom, -, htrace, -⟩ := snapshot_bisimulation [d, a] (by decide +kernel)
  exact ⟨snapshot, r', hexp, hfrom, htrace [d, a]⟩

end TextReplica

end LocalFirst
