import LocalFirst.Crdt.FromSnapshot

/-!
# One order on both code paths

* `siblingKey` — the key of an identity among given inserts.
* `insertChildren_spec` — the nodes inserted one by one, in any order.
* `sortSiblings_spec` — the sort of a restored snapshot, whatever order the nodes come in.
* `sibling_order_unique` — both give the same strictly sorted list.
-/

set_option autoImplicit false

namespace LocalFirst

namespace TextReplica

/-- The nodes of a batch inserted one by one with `insertChild`, each set before, as in
`attachNode`. -/
def insertChildren (r : TextReplica) (parentId : JsString) :
    List TextNode → Except JsError TextReplica
  | [] => .ok r
  | node :: nodes =>
    match (r.setNode node).insertChild parentId node with
    | .error e => .error e
    | .ok r' => insertChildren r' parentId nodes

/-- The identities of the inserts in sibling order. -/
def siblingOrder (ops : List InsertOperation) : List JsString :=
  (sortBy compareNodes (ops.map nodeOf)).map (·.id)

/-- The sort key of an identity among the inserts. -/
def siblingKey (ops : List InsertOperation) (id : JsString) : SiblingKey :=
  match ops.find? (·.opId = id) with
  | some op => nodeKey (nodeOf op)
  | none => toLex (0, toLex ([], 0))

/-- Valid inserts with pairwise different identities. -/
structure Siblings (ops : List InsertOperation) : Prop where
  valid : ∀ op ∈ ops, ValidOperation (.insert op)
  distinct : (ops.map (·.opId)).Nodup

namespace Siblings

variable {ops : List InsertOperation} (h : Siblings ops)
include h

theorem eq_of_opId {a b : InsertOperation} (ha : a ∈ ops) (hb : b ∈ ops) (hid : a.opId = b.opId) :
    a = b := List.inj_on_of_nodup_map h.distinct ha hb hid

theorem siblingKey_eq {op : InsertOperation} (hop : op ∈ ops) :
    siblingKey ops op.opId = nodeKey (nodeOf op) := by
  unfold siblingKey
  cases hfind : ops.find? (·.opId = op.opId) with
  | none =>
    have hmissed := List.find?_eq_none.1 hfind op hop
    simp at hmissed
  | some other =>
    have hid : other.opId = op.opId := by simpa using List.find?_some hfind
    rw [h.eq_of_opId (List.mem_of_find?_eq_some hfind) hop hid]

/-- Equal keys force equal inserts. -/
theorem eq_of_nodeKey {a b : InsertOperation} (ha : a ∈ ops) (hb : b ∈ ops)
    (hkey : nodeKey (nodeOf a) = nodeKey (nodeOf b)) : a = b :=
  h.eq_of_opId ha hb (opId_eq_of_opKey_eq (h.valid a ha) (h.valid b hb) hkey)

theorem ne_of_siblingKey {a b : InsertOperation} (ha : a ∈ ops) (hb : b ∈ ops) (hne : a ≠ b) :
    siblingKey ops a.opId ≠ siblingKey ops b.opId := by
  rw [h.siblingKey_eq ha, h.siblingKey_eq hb]
  exact fun hkey => hne (h.eq_of_nodeKey ha hb hkey)

theorem sortBy_nodes : (sortBy compareNodes (ops.map nodeOf)).Pairwise fun a b =>
    nodeKey a < nodeKey b := by
  have hids : ((ops.map nodeOf).map (·.id)).Nodup := by
    rw [List.map_map]
    exact h.distinct
  refine comparesKey_compareNodes.sortBy_strict hids.of_map fun a ha b hb hkey => ?_
  obtain ⟨op, hop, rfl⟩ := List.mem_map.1 ha
  obtain ⟨op', hop', rfl⟩ := List.mem_map.1 hb
  rw [h.eq_of_nodeKey hop hop' hkey]

/-- The sibling order is strict. -/
theorem siblingOrder_strict :
    (siblingOrder ops).Pairwise fun x y => siblingKey ops x < siblingKey ops y := by
  refine List.pairwise_map.2 ((List.Pairwise.and_mem.1 h.sortBy_nodes).imp ?_)
  rintro a b ⟨ha, hb, hlt⟩
  obtain ⟨op, hop, rfl⟩ := List.mem_map.1 (mem_sortBy.1 ha)
  obtain ⟨op', hop', rfl⟩ := List.mem_map.1 (mem_sortBy.1 hb)
  show siblingKey ops op.opId < siblingKey ops op'.opId
  rw [h.siblingKey_eq hop, h.siblingKey_eq hop']
  exact hlt

omit h in
theorem mem_siblingOrder {id : JsString} : id ∈ siblingOrder ops ↔ id ∈ ops.map (·.opId) := by
  unfold siblingOrder
  simp only [List.mem_map, mem_sortBy, exists_exists_and_eq_and]
  rfl

/-- A list of these identities in strict order is the sibling order. -/
theorem eq_siblingOrder {l : List JsString}
    (hstrict : l.Pairwise fun x y => siblingKey ops x < siblingKey ops y)
    (hmem : ∀ id, id ∈ l ↔ id ∈ ops.map (·.opId)) : l = siblingOrder ops :=
  eq_of_strict_of_mem_iff hstrict h.siblingOrder_strict fun id =>
    (hmem id).trans mem_siblingOrder.symm

/-- What the nodes and the child list hold after some of the inserts. -/
structure Inserted (ops : List InsertOperation) (r : TextReplica) (parentId : JsString)
    (done : List InsertOperation) : Prop where
  subset : ∀ op ∈ done, op ∈ ops
  nodes : ∀ op ∈ done, r.nodes.get? op.opId = some (nodeOf op)
  strict : ((r.childrenByParent.get? parentId).getD []).Pairwise fun x y =>
    siblingKey ops x < siblingKey ops y
  mem : ∀ id, id ∈ (r.childrenByParent.get? parentId).getD [] ↔ id ∈ done.map (·.opId)

/-- **One `insertChild`.** -/
theorem Inserted.insertChild {r : TextReplica} {parentId : JsString} {done : List InsertOperation}
    (hi : Inserted ops r parentId done) {op : InsertOperation} (hop : op ∈ ops) (hnew : op ∉ done) :
    ∃ r', (r.setNode (nodeOf op)).insertChild parentId (nodeOf op) = .ok r' ∧
      Inserted ops r' parentId (done ++ [op]) := by
  have hids : ∀ op' ∈ done, op'.opId ≠ op.opId := by
    intro op' hop' hid
    rw [h.eq_of_opId (hi.subset op' hop') hop hid] at hop'
    exact hnew hop'
  have hnodes : ∀ op' ∈ done ++ [op], (r.setNode (nodeOf op)).nodes.get? op'.opId =
      some (nodeOf op') := by
    intro op' hop'
    rcases List.mem_append.1 hop' with hop' | hop'
    · exact (InsMap.get?_set_ne _ _ (hids op' hop').symm).trans (hi.nodes op' hop')
    · rw [List.mem_singleton.1 hop']
      exact InsMap.get?_set_self _ _ _
  have hkeys : ∀ s ∈ (r.childrenByParent.get? parentId).getD [],
      s ≠ [] ∧ siblingKey ops s ≠ siblingKey ops (nodeOf op).id ∧
        ∃ n, (r.setNode (nodeOf op)).nodes.get? s = some n ∧ nodeKey n = siblingKey ops s := by
    intro s hs
    obtain ⟨op', hop', rfl⟩ := List.mem_map.1 ((hi.mem s).1 hs)
    have hin := hi.subset op' hop'
    have hne : op' ≠ op := fun heq => hnew (heq ▸ hop')
    exact ⟨(h.valid op' hin).opId_ne_nil, h.ne_of_siblingKey hin hop hne, _,
      hnodes op' (List.mem_append_left _ hop'), (h.siblingKey_eq hin).symm⟩
  have hspliced := @spliceSibling_eq (r.setNode (nodeOf op)).nodes (nodeOf op) (siblingKey ops)
    (h.siblingKey_eq hop) _ hkeys
  have hchildren : (r.setNode (nodeOf op)).childrenByParent = r.childrenByParent := rfl
  unfold TextReplica.insertChild
  rw [hchildren, hspliced]
  refine ⟨_, rfl, fun op' hop' => ?_, hnodes, ?_, fun id => ?_⟩
  · rcases List.mem_append.1 hop' with hop' | hop'
    · exact hi.subset op' hop'
    · rwa [List.mem_singleton.1 hop']
  · simp only [InsMap.get?_set_self, Option.getD_some]
    exact orderedInsert_strict hi.strict fun s hs => (hkeys s hs).2.1
  · simp only [InsMap.get?_set_self, Option.getD_some, List.mem_orderedInsert, hi.mem,
      List.map_append, List.mem_append, List.map_cons, List.map_nil, List.mem_singleton]
    exact or_comm

/-- **The nodes inserted one by one**, in any order. -/
theorem insertChildren_spec : ∀ {rest : List InsertOperation} {r : TextReplica} {parentId : JsString}
    {done : List InsertOperation}, Inserted ops r parentId done → (done ++ rest).Perm ops →
      ∃ r', r.insertChildren parentId (rest.map nodeOf) = .ok r' ∧
        (r'.childrenByParent.get? parentId).getD [] = siblingOrder ops
  | [], r, parentId, done, hi, hperm => by
    rw [List.append_nil] at hperm
    refine ⟨r, rfl, h.eq_siblingOrder hi.strict fun id => ?_⟩
    rw [hi.mem, (hperm.map _).mem_iff]
  | op :: rest, r, parentId, done, hi, hperm => by
    have hop : op ∈ ops := hperm.mem_iff.1 (by simp)
    have hnew : op ∉ done := by
      intro hdone
      have hnodup := (hperm.map (·.opId)).nodup_iff.2 h.distinct
      rw [List.map_append, List.nodup_append] at hnodup
      exact hnodup.2.2 _ (List.mem_map_of_mem hdone) _ (List.mem_map_of_mem List.mem_cons_self) rfl
    obtain ⟨r₁, hr₁, hi₁⟩ := hi.insertChild h hop hnew
    obtain ⟨r', hr', hsorted⟩ := insertChildren_spec hi₁ (by simpa using hperm)
    exact ⟨r', by simp only [List.map_cons, insertChildren, hr₁, hr'], hsorted⟩

/-- **The sort of a restored snapshot**, on any nodes of these inserts in any order. -/
theorem sortSiblings_spec {nodes : InsMap JsString TextNode}
    (hnodes : ∀ op ∈ ops, ∃ n, nodes.get? op.opId = some n ∧ insertOf n = op)
    {siblings : List JsString} (hperm : siblings.Perm (ops.map (·.opId))) :
    sortSiblings nodes siblings = .ok (siblingOrder ops) := by
  have hids : ∀ id ∈ siblings, ∃ n, nodes.get? id = some n ∧ n.id = id := by
    intro id hid
    obtain ⟨op, hop, rfl⟩ := List.mem_map.1 (hperm.mem_iff.1 hid)
    obtain ⟨n, hn, rfl⟩ := hnodes op hop
    exact ⟨n, hn, rfl⟩
  obtain ⟨-, hmap⟩ := lookupAll_ok hids
  have hnodup : (siblings.filterMap nodes.get?).map (·.id) |>.Nodup := by
    rw [hmap]
    exact hperm.nodup_iff.2 h.distinct
  have hnode : ∀ n ∈ siblings.filterMap nodes.get?, insertOf n ∈ ops := by
    intro n hn
    obtain ⟨id, hid, hget⟩ := List.mem_filterMap.1 hn
    obtain ⟨op, hop, rfl⟩ := List.mem_map.1 (hperm.mem_iff.1 hid)
    obtain ⟨n', hn', rfl⟩ := hnodes op hop
    rw [hget] at hn'
    cases hn'
    exact hop
  have hstrict := comparesKey_compareNodes.sortBy_strict hnodup.of_map fun a ha b hb hkey => by
    have hin : insertOf a = insertOf b := h.eq_of_nodeKey (hnode a ha) (hnode b hb) hkey
    exact List.inj_on_of_nodup_map hnodup ha hb (congrArg InsertOperation.opId hin)
  rw [sortSiblings_ok hids]
  congr 1
  refine h.eq_siblingOrder (List.pairwise_map.2 ((List.Pairwise.and_mem.1 hstrict).imp ?_)) ?_
  · rintro a b ⟨ha, hb, hlt⟩
    have ha := hnode a (mem_sortBy.1 ha)
    have hb := hnode b (mem_sortBy.1 hb)
    show siblingKey ops (insertOf a).opId < siblingKey ops (insertOf b).opId
    rw [h.siblingKey_eq ha, h.siblingKey_eq hb]
    exact hlt
  · intro id
    have hsame : id ∈ sortedIds nodes siblings ↔ id ∈ (siblings.filterMap nodes.get?).map (·.id) := by
      unfold sortedIds
      simp only [List.mem_map, mem_sortBy]
    rw [hsame, hmap]
    exact hperm.mem_iff

end Siblings

theorem compareNodes_neg (a b : TextNode) : compareNodes a b = -compareNodes b a := by
  unfold compareNodes
  grind

/-- **Sibling order is one order on both code paths.**  On valid inserts with pairwise different
identities `compareNodes` is a strict total order, so that inserting the nodes one by one, in any
order, under a parent without children gives the list that the sort of a restored snapshot gives,
whatever order that one finds them in; and this list is strictly sorted. -/
theorem sibling_order_unique {ops : List InsertOperation}
    (hvalid : ∀ op ∈ ops, ValidOperation (.insert op)) (hdistinct : (ops.map (·.opId)).Nodup)
    {r : TextReplica} {parentId : JsString}
    (hempty : (r.childrenByParent.get? parentId).getD [] = []) :
    (∀ a ∈ ops, ∀ b ∈ ops, compareNodes (nodeOf a) (nodeOf b) = -compareNodes (nodeOf b) (nodeOf a) ∧
      (compareNodes (nodeOf a) (nodeOf b) = 0 ↔ a = b) ∧
      ∀ c ∈ ops, compareNodes (nodeOf a) (nodeOf b) < 0 → compareNodes (nodeOf b) (nodeOf c) < 0 →
        compareNodes (nodeOf a) (nodeOf c) < 0) ∧
    ∃ sorted : List InsertOperation, sorted.Perm ops ∧
      (sorted.Pairwise fun a b => compareNodes (nodeOf a) (nodeOf b) < 0) ∧
      (∀ order : List InsertOperation, order.Perm ops →
        ∃ r', r.insertChildren parentId (order.map nodeOf) = .ok r' ∧
          (r'.childrenByParent.get? parentId).getD [] = sorted.map (·.opId)) ∧
      ∀ (nodes : InsMap JsString TextNode) (siblings : List JsString),
        (∀ op ∈ ops, ∃ n, nodes.get? op.opId = some n ∧ insertOf n = op) →
        siblings.Perm (ops.map (·.opId)) →
        sortSiblings nodes siblings = .ok (sorted.map (·.opId)) := by
  have h : Siblings ops := ⟨hvalid, hdistinct⟩
  have hids : ((sortBy compareNodes (ops.map nodeOf)).map insertOf).map (·.opId) =
      siblingOrder ops := by
    rw [List.map_map]
    rfl
  refine ⟨fun a ha b hb => ⟨compareNodes_neg _ _, ?_, fun c _ hab hbc => ?_⟩,
    (sortBy compareNodes (ops.map nodeOf)).map insertOf, ?_, ?_, fun order hperm => ?_,
    fun nodes siblings hnodes hperm => ?_⟩
  · rw [compareNodes_eq_zero_iff]
    exact ⟨h.eq_of_nodeKey ha hb, fun heq => by rw [heq]⟩
  · rw [compareNodes_lt_iff] at hab hbc ⊢
    exact hab.trans hbc
  · have hback : (ops.map nodeOf).map insertOf = ops := by
      rw [List.map_map]
      exact List.map_id ops
    have hperm := (sortBy_perm compareNodes (ops.map nodeOf)).map insertOf
    rwa [hback] at hperm
  · refine List.pairwise_map.2 (h.sortBy_nodes.imp fun hlt => ?_)
    rw [compareNodes_lt_iff]
    exact hlt
  · rw [hids]
    have hstart : Siblings.Inserted ops r parentId [] := by
      refine ⟨fun _ h => by (cases h), fun _ h => by (cases h), ?_, fun id => ?_⟩
      · rw [hempty]
        exact List.Pairwise.nil
      · rw [hempty]
        rfl
    exact h.insertChildren_spec hstart hperm
  · rw [hids]
    exact h.sortSiblings_spec hnodes hperm

/-- Three children of the root: two of one Lamport value, and a later one. -/
theorem sibling_order_unique_three :
    let a : InsertOperation := ⟨js "A:1", js "A", 1, 1, ROOT_ID, js "a"⟩
    let b : InsertOperation := ⟨js "B:1", js "B", 1, 1, ROOT_ID, js "b"⟩
    let c : InsertOperation := ⟨js "A:2", js "A", 2, 5, ROOT_ID, js "c"⟩
    ∃ r' r'', empty.insertChildren ROOT_ID [nodeOf a, nodeOf b, nodeOf c] = .ok r' ∧
      empty.insertChildren ROOT_ID [nodeOf b, nodeOf c, nodeOf a] = .ok r'' ∧
      (r'.childrenByParent.get? ROOT_ID).getD [] = (r''.childrenByParent.get? ROOT_ID).getD [] := by
  intro a b c
  obtain ⟨-, sorted, -, -, hinsert, -⟩ := @sibling_order_unique [a, b, c] (by decide) (by decide)
    empty ROOT_ID rfl
  obtain ⟨r', hr', hsorted⟩ := hinsert [a, b, c] (.refl _)
  obtain ⟨r'', hr'', hsorted'⟩ := hinsert [b, c, a] (by decide)
  exact ⟨r', r'', hr', hr'', hsorted.trans hsorted'.symm⟩

end TextReplica

end LocalFirst
