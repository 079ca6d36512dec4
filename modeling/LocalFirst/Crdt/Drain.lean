import LocalFirst.Crdt.Invariant

/-!
# The drain loop

`attachInsertAndResolve` attaches an insert and, breadth first, everything that was waiting
for it.  From a state of the invariant the loop never throws, it settles the whole queue, and
the number of known operations bounds its steps.

* `attachNode_spec` — one pass attaches the head of the queue and releases its pending set.
* `drain_spec` — the loop ends with the queue settled, whatever forest was pending.
-/

set_option autoImplicit false

namespace LocalFirst

namespace TextReplica

/-- A pending set of known inserts resolves to them. -/
theorem waitingInserts_ok {known : InsMap JsString TextOperation} : ∀ {ids : List JsString},
    (∀ id ∈ ids, ∃ op : InsertOperation, op.opId = id ∧ known.get? id = some (.insert op)) →
      ∃ released, waitingInserts known ids = .ok released ∧ released.map (·.opId) = ids ∧
        ∀ c ∈ released, known.get? c.opId = some (.insert c)
  | [], _ => ⟨[], rfl, rfl, fun _ h => by cases h⟩
  | id :: ids, h => by
    obtain ⟨op, hid, hop⟩ := h id List.mem_cons_self
    obtain ⟨released, hw, hids, hk⟩ := waitingInserts_ok fun i hi => h i (List.mem_cons_of_mem _ hi)
    refine ⟨op :: released, by simp [waitingInserts, hop, hw, Except.map], by simp [hid, hids], ?_⟩
    intro c hc
    rcases List.mem_cons.1 hc with rfl | hc
    · rw [hid]; exact hop
    · exact hk c hc

theorem settlePendingDeletes_none {r : TextReplica} {node : TextNode}
    (h : r.pendingDeletesByTarget.get? node.id = none) : r.settlePendingDeletes node = r := by
  simp [settlePendingDeletes, h]

theorem settlePendingDeletes_some {r : TextReplica} {node : TextNode} {s : InsSet JsString}
    (h : r.pendingDeletesByTarget.get? node.id = some s) (hne : s.elems ≠ []) :
    r.settlePendingDeletes node =
      { r with
        nodes := r.nodes.set node.id { node with tombstone := true }
        pendingDeletesByTarget := r.pendingDeletesByTarget.delete node.id } := by
  have hpos : s.size > 0 := List.length_pos_of_ne_nil hne
  simp [settlePendingDeletes, h, hpos]

/-- What settling the waiting deletes of a node just attached does to the five maps. -/
theorem settlePendingDeletes_spec (r : TextReplica) (node : TextNode)
    (hne : ∀ s, r.pendingDeletesByTarget.get? node.id = some s → s.elems ≠ [])
    (hnode : r.nodes.get? node.id = some node) (ht : node.tombstone = false) :
    ∃ (r' : TextReplica) (t : Bool), r.settlePendingDeletes node = r' ∧
      r'.knownOperations = r.knownOperations ∧ r'.childrenByParent = r.childrenByParent ∧
      r'.pendingInsertsByAnchor = r.pendingInsertsByAnchor ∧
      (∀ x, r'.pendingDeletesByTarget.get? x =
        if node.id = x then none else r.pendingDeletesByTarget.get? x) ∧
      (t = true ↔ waiting r.pendingDeletesByTarget node.id ≠ []) ∧
      ∀ x, r'.nodes.get? x =
        if node.id = x then some { node with tombstone := t } else r.nodes.get? x := by
  cases hs : r.pendingDeletesByTarget.get? node.id with
  | none =>
    refine ⟨r, false, settlePendingDeletes_none hs, rfl, rfl, rfl, fun x => ?_,
      by simp [waiting, hs, InsSet.empty], fun x => ?_⟩
    · split
      · rename_i h; rw [← h]; exact hs
      · rfl
    · split
      · rename_i h; rw [← h, hnode, ← ht]
      · rfl
  | some s =>
    exact ⟨_, true, settlePendingDeletes_some hs (hne s hs), rfl, rfl, rfl,
      fun x => InsMap.get?_delete _ _ _, by simpa [waiting, hs] using hne s hs,
      fun x => InsMap.get?_set _ _ _ _⟩

variable {r : TextReplica} {op : InsertOperation} {queue : List InsertOperation}

/-- The child list of the anchor after `insertChild`. -/
theorem insertChild_ok (h : DrainInv r (op :: queue)) :
    (r.setNode (nodeOf op)).insertChild op.afterId (nodeOf op) = .ok { r.setNode (nodeOf op) with
      childrenByParent := r.childrenByParent.set op.afterId ((r.childrenOf op.afterId).orderedInsert
        (fun x y => idKey r.knownOperations x ≤ idKey r.knownOperations y) op.opId) } := by
  obtain ⟨hop, hnone, -⟩ := h.queue_ready op List.mem_cons_self
  have hkey : idKey r.knownOperations op.opId = nodeKey (nodeOf op) := idKey_of_get? hop
  have hsib : ∀ s ∈ r.childrenOf op.afterId, s ≠ [] ∧
      idKey r.knownOperations s ≠ idKey r.knownOperations (nodeOf op).id ∧
      ∃ n, (r.setNode (nodeOf op)).nodes.get? s = some n ∧
        nodeKey n = idKey r.knownOperations s := by
    intro s hs
    obtain ⟨n, hn, -⟩ := (h.child_mem _ _).1 hs
    obtain ⟨hid, hm⟩ := h.node_insert s n hn
    have hne : s ≠ op.opId := by
      rintro rfl
      rw [hn] at hnone
      cases hnone
    have hins : (TextOperation.insert (insertOf n)).opId = s := hid
    have hidkey : idKey r.knownOperations s = nodeKey n := by
      rw [← hid]
      exact idKey_of_get? hm
    refine ⟨h.node_id_ne_nil hn, ?_, n, ?_, hidkey.symm⟩
    · have := h.idKey_ne hm hop (by rw [hins]; exact hne)
      rwa [hins] at this
    · exact (InsMap.get?_set_ne _ _ (Ne.symm hne)).trans hn
  have hspl := spliceSibling_eq hkey hsib
  simp only [insertChild]
  rw [show ((r.setNode (nodeOf op)).childrenByParent.get? op.afterId).getD [] =
    r.childrenOf op.afterId from rfl, hspl]
  rfl

/-- **One pass of the loop** attaches the head of the queue and releases its pending set. -/
theorem attachNode_spec (h : DrainInv r (op :: queue)) : ∃ r' released,
    r.attachNode op = (r', .ok released) ∧ Attaches r op r' ∧ Releases r op released := by
  obtain ⟨hop, -, -⟩ := h.queue_ready op List.mem_cons_self
  have hchild := insertChild_ok h
  generalize hwith : ({ r.setNode (nodeOf op) with
      childrenByParent := r.childrenByParent.set op.afterId ((r.childrenOf op.afterId).orderedInsert
        (fun x y => idKey r.knownOperations x ≤ idKey r.knownOperations y) op.opId) } : TextReplica)
    = withChild at hchild
  obtain ⟨settled, t, hsettled, hk, hc, hi, hd, ht, hn⟩ :=
    settlePendingDeletes_spec withChild (nodeOf op)
      (fun s hs => h.delete_nonempty op.opId s (by rw [← hwith] at hs; exact hs))
      (by rw [← hwith]; exact InsMap.get?_set_self _ _ _) rfl
  have hknown : settled.knownOperations = r.knownOperations := by rw [hk, ← hwith]; rfl
  have hpend : settled.pendingInsertsByAnchor = r.pendingInsertsByAnchor := by
    rw [hi, ← hwith]; rfl
  -- everything but the pending inserts is as `Attaches` says, before and after the release
  have hatt : ∀ r' : TextReplica, r'.knownOperations = settled.knownOperations →
      r'.nodes = settled.nodes → r'.childrenByParent = settled.childrenByParent →
      r'.pendingDeletesByTarget = settled.pendingDeletesByTarget →
      (∀ a, r'.pendingInsertsByAnchor.get? a =
        if op.opId = a then none else r.pendingInsertsByAnchor.get? a) → Attaches r op r' := by
    intro r' h1 h2 h3 h4 h5
    refine ⟨h1.trans hknown, ⟨t, by rw [ht, ← hwith]; rfl, fun x => ?_⟩, fun p => ?_, h5,
      fun t => ?_⟩
    · rw [h2, hn x, ← hwith]
      show (if op.opId = x then _ else (r.nodes.set op.opId (nodeOf op)).get? x) = _
      split
      · rfl
      · rename_i hx; exact InsMap.get?_set_ne _ _ hx
    · rw [h3, hc, ← hwith]
      show (r.childrenByParent.set op.afterId _).get? p = _
      rw [InsMap.get?_set]
      split
      · rename_i hp; rw [hp]
      · rfl
    · rw [h4, hd, ← hwith]
      rfl
  simp only [attachNode]
  rw [show (nodeOf op).id = op.opId from rfl, show (nodeOf op).afterId = op.afterId from rfl, hchild]
  simp only [hsettled, hpend]
  cases hw : r.pendingInsertsByAnchor.get? op.opId with
  | none =>
    refine ⟨settled, [], rfl, hatt settled rfl rfl rfl rfl fun a => ?_, List.nodup_nil, fun c => ?_⟩
    · rw [hpend]
      split
      · rename_i ha; rw [← ha]; exact hw
      · rfl
    · simp [waiting, hw, InsSet.empty]
  | some s =>
    have hids : ∀ id ∈ s.elems, ∃ c : InsertOperation, c.opId = id ∧
        settled.knownOperations.get? id = some (.insert c) := by
      intro id hid
      obtain ⟨c, hc, hcid, -⟩ := (h.insert_mem op.opId id).1 (by simpa [waiting, hw] using hid)
      exact ⟨c, hcid, by rw [← hcid, hknown]; exact hc⟩
    obtain ⟨released, hok, hmap, hkc⟩ := waitingInserts_ok hids
    refine ⟨settled.releasePending op.opId, released, ?_, hatt _ rfl rfl rfl rfl fun a => ?_, ?_,
      fun c => ?_⟩
    · exact Prod.ext rfl hok
    · show (settled.pendingInsertsByAnchor.delete op.opId).get? a = _
      rw [hpend]
      exact InsMap.get?_delete _ _ _
    · exact List.Nodup.of_map _ (by rw [hmap]; exact s.nodup)
    · simp only [waiting, hw, Option.getD_some]
      rw [← hmap]
      constructor
      · intro hc
        exact ⟨by rw [mem_ops, ← hknown]; exact hkc c hc, List.mem_map_of_mem (f := (·.opId)) hc⟩
      · rintro ⟨hc, hm⟩
        obtain ⟨c', hc', hid⟩ := List.mem_map.1 hm
        cases h.insert_eq (by rw [mem_ops, ← hknown]; exact hkc c' hc') hc hid
        exact hc'

/-! ## The whole loop -/

/-- The known operations that are not nodes. -/
def unattached (r : TextReplica) : List JsString :=
  r.knownOperations.keys.filter (fun id => !r.nodes.has id)

theorem Attaches.unattached_lt {r' : TextReplica} (ha : Attaches r op r')
    (h : DrainInv r (op :: queue)) : r'.unattached.length < r.unattached.length := by
  obtain ⟨hop, hnone, -⟩ := h.queue_ready op List.mem_cons_self
  have hmem : op.opId ∈ r.unattached := by
    refine List.mem_filter.2 ⟨InsMap.mem_keys.2 ⟨_, hop⟩, ?_⟩
    rw [InsMap.has_eq_false.2 hnone]
    rfl
  have hsub : r'.unattached ⊆ r.unattached.erase op.opId := by
    intro id hid
    obtain ⟨hkey, hhas⟩ := List.mem_filter.1 hid
    rw [Bool.not_eq_true', InsMap.has_eq_false, ha.node_none] at hhas
    rw [ha.known] at hkey
    refine (List.mem_erase_of_ne hhas.1).2 (List.mem_filter.2 ⟨hkey, ?_⟩)
    rw [InsMap.has_eq_false.2 hhas.2]
    rfl
  have hnd : r'.unattached.Nodup := (InsMap.nodup_keys _).filter _
  have hle := (hnd.subperm hsub).length_le
  rw [List.length_erase_of_mem hmem] at hle
  have hpos := List.length_pos_of_mem hmem
  omega

/-- **The loop settles the whole queue** in as many steps as there are unattached operations. -/
theorem drain_spec : ∀ (fuel : Nat) (r : TextReplica) (queue : List InsertOperation),
    DrainInv r queue → r.unattached.length ≤ fuel →
      ∃ r', drain fuel r queue = (r', .ok ()) ∧ Inv r' ∧ r'.knownOperations = r.knownOperations
  | fuel, r, [], h, _ => ⟨r, by cases fuel <;> rfl, h, rfl⟩
  | fuel, r, op :: queue, h, hf => by
    obtain ⟨-, hnone, hanc⟩ := h.queue_ready op List.mem_cons_self
    obtain ⟨r', released, hnode, hatt, hrel⟩ := attachNode_spec h
    have hlt := hatt.unattached_lt h
    obtain ⟨f, rfl⟩ : ∃ f, fuel = f + 1 := ⟨fuel - 1, by omega⟩
    obtain ⟨r'', hd, hinv, hk⟩ := drain_spec f r' (queue ++ released) (hatt.inv h hrel) (by omega)
    refine ⟨r'', ?_, hinv, hk.trans hatt.known⟩
    simp only [drain, InsMap.has_eq_false.2 hnone, hanc, Bool.false_eq_true, not_true_eq_false,
      if_false, hnode]
    exact hd

theorem attachInsertAndResolve_spec (h : DrainInv r [op]) : ∃ r',
    r.attachInsertAndResolve op = (r', .ok ()) ∧ Inv r' ∧
      r'.knownOperations = r.knownOperations := by
  refine drain_spec _ r [op] h ?_
  rw [← InsMap.length_keys]
  exact List.length_filter_le _ _

end TextReplica

end LocalFirst
