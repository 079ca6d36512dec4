import LocalFirst.Crdt.RoundTrip

/-!
# The snapshots that are accepted

* `assertSnapshotGraphIsAcyclic_iff` — the colouring walk accepts exactly the nodes that are rooted.
* `Inv.exports` — a replica that knows the operations of an accepted snapshot exports it, sorted.
* `fromSnapshot_exact` — accepted is what some replica exports, in any order.
-/

set_option autoImplicit false

namespace LocalFirst

namespace TextReplica

/-! ## The colouring walk -/

section Colouring

variable {nodes : InsMap JsString TextNode}

/-- The inner loop ends: the nodes on the stack are coloured, and it pushes no coloured node. -/
theorem climb_ends : ∀ (fuel : Nat) (cursor : JsString) (color : InsMap JsString Color)
    (stack : List JsString), stack.Nodup →
    (∀ x ∈ stack, (∃ n, nodes.get? x = some n) ∧ color.get? x ≠ none) →
    nodes.size ≤ fuel + stack.length →
      climb nodes fuel cursor color stack ≠ .error outOfFuelError
  | fuel, cursor, color, stack, hnd, hst, hf => by
    unfold climb
    split
    · simp
    · split
      · simp
      · simp [invalidReplicaSnapshotError, outOfFuelError]
      · rename_i hnone
        split
        · simp [invalidReplicaSnapshotError, outOfFuelError]
        · rename_i n hn
          split
          · simp [invalidReplicaSnapshotError, outOfFuelError]
          · have hnd' : (stack ++ [cursor]).Nodup := by
              refine List.nodup_append.2 ⟨hnd, List.nodup_singleton _, ?_⟩
              rintro x hx _ hc rfl
              rw [List.mem_singleton.1 hc] at hx
              exact (hst cursor hx).2 hnone
            have hst' : ∀ x ∈ stack ++ [cursor], (∃ n, nodes.get? x = some n) ∧
                (color.set cursor .gray).get? x ≠ none := by
              intro x hx
              rw [InsMap.get?_set]
              rcases List.mem_append.1 hx with hx | hx
              · refine ⟨(hst x hx).1, ?_⟩
                split
                · simp
                · exact (hst x hx).2
              · rw [List.mem_singleton.1 hx, if_pos rfl]
                exact ⟨⟨n, hn⟩, by simp⟩
            cases fuel with
            | zero =>
              have hle := InsMap.length_le_size hnd' fun x hx => (hst' x hx).1
              simp only [List.length_append, List.length_singleton] at hle
              omega
            | succ fuel =>
              refine climb_ends fuel n.afterId _ _ hnd' hst' ?_
              simp only [List.length_append, List.length_singleton]
              omega

theorem colorFrom_ends : ∀ (starts : List JsString) (color : InsMap JsString Color),
    colorFrom nodes starts color ≠ .error outOfFuelError
  | [], color => by simp [colorFrom]
  | start :: starts, color => by
    simp only [colorFrom]
    split
    · exact colorFrom_ends starts color
    · have hends := climb_ends nodes.size start color [] List.nodup_nil
        (fun x hx => by cases hx) (Nat.le_add_right _ _)
      split
      · rename_i e he
        intro hc
        cases hc
        exact hends he
      · exact colorFrom_ends starts _

/-- **The colouring walk accepts exactly the nodes whose chain of anchors reaches `ROOT`.** -/
theorem assertSnapshotGraphIsAcyclic_iff (hroot : nodes.get? ROOT_ID = none) :
    assertSnapshotGraphIsAcyclic nodes = .ok () ↔
      ∀ x n, nodes.get? x = some n → Rooted (NodeLink nodes) ROOT_ID x := by
  have hfunctional : Functional (NodeLink nodes) := by
    rintro x y z ⟨n, hn, rfl⟩ ⟨m, hm, rfl⟩
    rw [Option.some.inj (hn.symm.trans hm)]
  have hunlinked : ∀ z, ¬ NodeLink nodes ROOT_ID z := by
    rintro z ⟨n, hn, -⟩
    rw [hroot] at hn
    cases hn
  constructor
  · intro hok x n hn
    have hrooted := colorFrom_sound (fun y hy => by cases hy) hok x (InsMap.mem_keys.2 ⟨n, hn⟩)
    refine hrooted.resolve_left fun he => ?_
    rw [he, hroot] at hn
    cases hn
  · intro hrooted
    refine assertSnapshotGraphIsAcyclic_ok (fun x n hn => ?_) fun x hcycle => ?_
    · refine ((hrooted x n hn).parent hfunctional ⟨n, hn, rfl⟩).imp_right fun hanchor => ?_
      obtain ⟨y, m, hm, -⟩ := hanchor.exists_link
      exact InsMap.has_iff.2 ⟨m, hm⟩
    · obtain ⟨y, ⟨n, hn, -⟩, -⟩ := Relation.TransGen.head'_iff.1 hcycle
      exact (hrooted x n hn).not_cycle hfunctional hunlinked hcycle

/-- The nodes that are read from a snapshot. -/
theorem restoreNodes_nodes {s : TextReplicaSnapshot} {t : RestoreState}
    (h : restoreNodes s.nodes ⟨.empty, .empty⟩ = .ok t) (id : JsString) (n : TextNode) :
    t.nodes.get? id = some n ↔ n ∈ s.nodes ∧ n.id = id := by
  obtain ⟨hnodup, -, hvalid⟩ := restoreNodes_sound h
  obtain ⟨t', ht', hnodes, -⟩ := restoreNodes_ok s.nodes ⟨.empty, .empty⟩ hnodup
    (fun _ _ => ⟨rfl, rfl⟩) hvalid
  cases h.symm.trans ht'
  rw [hnodes]
  exact or_iff_left (by simp)

/-- **The colouring walk rejects a snapshot exactly if the chain of some node does not reach
`ROOT`.** -/
theorem coloring_rejects_iff {s : TextReplicaSnapshot} {t : RestoreState}
    (h : restoreNodes s.nodes ⟨.empty, .empty⟩ = .ok t) :
    (∃ e, assertSnapshotGraphIsAcyclic t.nodes = .error e) ↔
      ∃ n ∈ s.nodes, ¬ Rooted (SnapshotLink s) ROOT_ID n.id := by
  have hnodes := restoreNodes_nodes h
  have hlink : ∀ x y, NodeLink t.nodes x y ↔ SnapshotLink s x y := by
    intro x y
    constructor
    · rintro ⟨n, hn, hafter⟩
      obtain ⟨hm, hid⟩ := (hnodes x n).1 hn
      exact ⟨n, hm, hid, hafter⟩
    · rintro ⟨n, hm, hid, hafter⟩
      exact ⟨n, (hnodes x n).2 ⟨hm, hid⟩, hafter⟩
  have hroot : t.nodes.get? ROOT_ID = none := by
    rw [Option.eq_none_iff_forall_ne_some]
    intro n hn
    obtain ⟨hm, hid⟩ := (hnodes _ n).1 hn
    exact ((restoreNodes_sound h).2.2 n hm).opId_ne_root hid
  have herror : (∃ e, assertSnapshotGraphIsAcyclic t.nodes = .error e) ↔
      ¬ assertSnapshotGraphIsAcyclic t.nodes = .ok () := by
    cases assertSnapshotGraphIsAcyclic t.nodes <;> simp
  rw [herror, assertSnapshotGraphIsAcyclic_iff hroot]
  constructor
  · intro hnot
    by_contra hall
    simp only [not_exists, not_and, not_not] at hall
    refine hnot fun x n hn => ?_
    obtain ⟨hm, hid⟩ := (hnodes x n).1 hn
    rw [← hid]
    exact (hall n hm).mono fun a b => (hlink a b).2
  · rintro ⟨n, hm, hnot⟩ hall
    exact hnot ((hall n.id n ((hnodes _ n).2 ⟨hm, rfl⟩)).mono fun a b => (hlink a b).1)

end Colouring

/-! ## What is exported -/

/-- The two snapshots hold the same nodes and deletes, in some order. -/
structure SameUpToOrder (s s' : TextReplicaSnapshot) : Prop where
  version : s.version = s'.version
  nodes : s.nodes.Perm s'.nodes
  deleteOperations : s.deleteOperations.Perm s'.deleteOperations

/-- The snapshot with both arrays sorted by code units. -/
def sorted (s : TextReplicaSnapshot) : TextReplicaSnapshot :=
  ⟨s.version, sortBy (fun left right => compareCodeUnits left.id right.id) s.nodes,
    sortBy (fun left right => compareCodeUnits left.opId right.opId) s.deleteOperations⟩

section

variable {r : TextReplica} (h : Inv r) {s : TextReplicaSnapshot} (hs : SnapshotCoherent s)
  (hops : r.ops = snapshotOps s)
include h hs hops

theorem Inv.nodes_perm : r.nodes.values.Perm s.nodes := by
  refine (List.perm_ext_iff_of_nodup (List.Nodup.of_map _ (nodes_nodup h))
    (List.Nodup.of_map _ hs.node_nodup)).2 fun n => ?_
  have htomb : ∀ {id : JsString}, Tombstoned r.ops id ↔
      ∃ d ∈ s.deleteOperations, d.targetId = id := by
    intro id
    rw [hops]
    exact exists_congr fun d => and_congr mem_snapshotOps_delete Iff.rfl
  have hsame : ∀ {n m : TextNode}, r.nodes.get? n.id = some n → m ∈ s.nodes →
      insertOf m = insertOf n → m = n := by
    intro n m hn hm hi
    have hid : m.id = n.id := congrArg InsertOperation.opId hi
    refine node_ext hi ?_
    rw [Bool.eq_iff_iff, hs.tombstone m hm, h.node_tombstone _ _ hn, htomb, hid]
  rw [DrainInv.mem_nodes h]
  constructor
  · intro hn
    have hop := (h.node_insert _ _ hn).2
    rw [hops] at hop
    obtain ⟨m, hm, hi⟩ := mem_snapshotOps_insert.1 hop
    rwa [← hsame hn hm hi]
  · intro hm
    have hop : TextOperation.insert (insertOf n) ∈ r.ops := by
      rw [hops]
      exact mem_snapshotOps_insert.2 ⟨n, hm, rfl⟩
    obtain ⟨m, hn⟩ := h.node_of_attached (by rw [hops]; exact hs.attached hm)
    have hid := (h.node_insert _ _ hn).1
    have hi : insertOf m = insertOf n := h.insertOf_node hop hn
    rw [hsame (n := m) (by rw [hid]; exact hn) hm hi.symm]
    rw [hid]
    exact hn

theorem Inv.deletes_perm : (knownDeletes r.knownOperations.values).Perm s.deleteOperations := by
  refine (List.perm_ext_iff_of_nodup (List.Nodup.of_map _ (knownDeletes_nodup h))
    (List.Nodup.of_map _ hs.delete_nodup)).2 fun d => ?_
  rw [h.mem_knownDeletes, hops, mem_snapshotOps_delete]

/-- **A replica that knows the operations of an accepted snapshot exports it**, sorted. -/
theorem Inv.exports : r.getUnresolvedOperationIds = [] ∧ r.exportSnapshot = .ok (sorted s) := by
  have hres : r.getUnresolvedOperationIds = [] := by
    obtain ⟨r', -, h', hops', hres'⟩ := fromSnapshot_ok hs
    rw [(h.agree h' (hops.trans hops'.symm)).unresolved]
    exact hres'
  refine ⟨hres, ?_⟩
  have hnodes : sortBy (fun left right : TextNode => compareCodeUnits left.id right.id)
      r.nodes.values = sortBy (fun left right => compareCodeUnits left.id right.id) s.nodes := by
    refine (comparesKey_compareCodeUnits _).sortBy_congr (h.nodes_perm hs hops) fun a ha b hb he => ?_
    exact List.inj_on_of_nodup_map (nodes_nodup h) ha hb he
  have hdeletes : sortBy (fun left right : DeleteOperation => compareCodeUnits left.opId right.opId)
      (knownDeletes r.knownOperations.values) =
        sortBy (fun left right => compareCodeUnits left.opId right.opId) s.deleteOperations := by
    refine (comparesKey_compareCodeUnits _).sortBy_congr (h.deletes_perm hs hops) fun a ha b hb he => ?_
    exact List.inj_on_of_nodup_map (knownDeletes_nodup h) ha hb he
  unfold exportSnapshot sorted
  rw [hres, if_neg (by simp), hnodes, hdeletes, hs.version]

end

/-- The operations of a snapshot, as a list. -/
def snapshotOperations (s : TextReplicaSnapshot) : List TextOperation :=
  s.nodes.map (fun n => .insert (insertOf n)) ++ s.deleteOperations.map .delete

theorem mem_snapshotOperations {s : TextReplicaSnapshot} {op : TextOperation} :
    op ∈ snapshotOperations s ↔ op ∈ snapshotOps s := by
  simp [snapshotOperations, snapshotOps, eq_comm]

/-- **`fromSnapshot` accepts exactly the snapshots that can be exported.**  A snapshot is accepted if
and only if some list of valid operations applies to an empty replica without an error, leaves
nothing unresolved, and is exported as that snapshot, up to the order of the arrays; what is restored
exports it sorted; and the colouring walk ends, and rejects a snapshot exactly if the chain of
anchors of one of its nodes does not reach `ROOT`. -/
theorem fromSnapshot_exact (s : TextReplicaSnapshot) :
    ((∃ r, fromSnapshot s = .ok r) ↔ ∃ l : List TextOperation, (∀ op ∈ l, ValidOperation op) ∧
      (empty.applyAll l).2 = .ok () ∧ (empty.applyAll l).1.getUnresolvedOperationIds = [] ∧
        ∃ s', (empty.applyAll l).1.exportSnapshot = .ok s' ∧ SameUpToOrder s s') ∧
    (∀ r, fromSnapshot s = .ok r → r.exportSnapshot = .ok (sorted s)) ∧
    ∀ t, restoreNodes s.nodes ⟨.empty, .empty⟩ = .ok t →
      assertSnapshotGraphIsAcyclic t.nodes ≠ .error outOfFuelError ∧
      ((∃ e, assertSnapshotGraphIsAcyclic t.nodes = .error e) ↔
        ∃ n ∈ s.nodes, ¬ Rooted (SnapshotLink s) ROOT_ID n.id) := by
  refine ⟨fromSnapshot_iff.trans ⟨fun hs => ?_, ?_⟩, fun r hr => ?_,
    fun t ht => ⟨colorFrom_ends _ _, coloring_rejects_iff ht⟩⟩
  · have hset : {op | op ∈ snapshotOperations s} = snapshotOps s :=
      Set.ext fun _ => mem_snapshotOperations
    obtain ⟨h, hiff, hops⟩ := applyAll_spec (snapshotOperations s) Inv.empty
    rw [ops_empty, Set.empty_union, hset] at hiff hops
    have hok := hiff.2 hs.coherent
    obtain ⟨hres, hexport⟩ := h.exports hs (hops hok)
    have hvalid : ∀ op ∈ snapshotOperations s, ValidOperation op := fun op hop =>
      hs.coherent.valid op (mem_snapshotOperations.1 hop)
    exact ⟨snapshotOperations s, hvalid, hok, hres, _, hexport, rfl,
      (sortBy_perm _ _).symm, (sortBy_perm _ _).symm⟩
  · rintro ⟨l, -, -, hres, s', hexport, hversion, hnodes, hdeletes⟩
    have h := (applyAll_spec l Inv.empty).1
    unfold exportSnapshot at hexport
    rw [hres, if_neg (by simp)] at hexport
    cases hexport
    exact (snapshotCoherent_of_perm h hres hversion (hnodes.trans (sortBy_perm _ _))
      (hdeletes.trans (sortBy_perm _ _))).1
  · obtain ⟨h, hops, -⟩ := fromSnapshot_inv hr
    exact (h.exports (fromSnapshot_sound hr) hops).2

end TextReplica

end LocalFirst
