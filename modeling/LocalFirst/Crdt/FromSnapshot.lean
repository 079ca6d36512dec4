import LocalFirst.Crdt.Convergence

/-!
# Restoring a snapshot

`fromSnapshot` rebuilds by another path what `apply` builds operation by operation.  This file
follows it stage by stage, for any snapshot.

* `restoreNodes_ok`, `restoreDeletes_ok`, `checkNodes_ok` — the operations read back.
* `climb_ok`, `climb_sound` — the colouring walk accepts exactly the rooted nodes.
* `restored_children` — the child lists, grouped and sorted.
* `fromSnapshot_iff` — the snapshots that are accepted.
* `fromSnapshot_ok` — the restored replica satisfies the invariant, knows the operations of
  the snapshot and has nothing unresolved.
-/

set_option autoImplicit false

namespace LocalFirst

namespace TextReplica

/-! ## Reading the operations back -/

theorem not_eq_of_nodup_map {α : Type} {key : α → JsString} {a b : α} {l : List α}
    (h : ((a :: l).map key).Nodup) (hb : b ∈ l) : key a ≠ key b := by
  intro he
  obtain ⟨hn, -⟩ := List.nodup_cons.1 h
  exact hn (by rw [he]; exact List.mem_map_of_mem hb)

/-- The loop over the nodes adds the nodes and their insert operations. -/
theorem restoreNodes_ok : ∀ (ns : List TextReplicaSnapshotNode) (s : RestoreState),
    (ns.map (·.id)).Nodup →
    (∀ n ∈ ns, s.nodes.get? n.id = none ∧ s.knownOperations.get? n.id = none) →
    (∀ n ∈ ns, ValidOperation (.insert (insertOf n))) →
      ∃ s', restoreNodes ns s = .ok s' ∧
        (∀ id n, s'.nodes.get? id = some n ↔ (n ∈ ns ∧ n.id = id) ∨ s.nodes.get? id = some n) ∧
        ∀ id op, s'.knownOperations.get? id = some op ↔
          (∃ n ∈ ns, n.id = id ∧ op = .insert (insertOf n)) ∨ s.knownOperations.get? id = some op
  | [], s, _, _, _ => ⟨s, rfl, by simp, by simp⟩
  | n :: ns, s, hnd, hnew, hv => by
    have hvn := hv n List.mem_cons_self
    obtain ⟨hn1, hn2⟩ := hnew n List.mem_cons_self
    have hstep : restoreNode s n =
        .ok ⟨s.knownOperations.set n.id (.insert (insertOf n)), s.nodes.set n.id n⟩ := by
      have h1 : n.id ≠ ROOT_ID := hvn.opId_ne_root
      have h3 : n.id = makeOperationId n.clientId n.counter := hvn.opId_eq
      have h4 : validateOperation (.insert (insertOf n)) = .ok () := hvn
      simp only [restoreNode, if_neg h1, InsMap.has_eq_false.2 hn1, Bool.false_eq_true, if_false,
        ← h3, ne_eq, not_true_eq_false, h4]
    have hnew' : ∀ m ∈ ns, (s.nodes.set n.id n).get? m.id = none ∧
        (s.knownOperations.set n.id (.insert (insertOf n))).get? m.id = none := by
      intro m hm
      have hne : n.id ≠ m.id := not_eq_of_nodup_map hnd hm
      rw [InsMap.get?_set_ne _ _ hne, InsMap.get?_set_ne _ _ hne]
      exact hnew m (List.mem_cons_of_mem _ hm)
    obtain ⟨s', hs', hnodes, hknown⟩ := restoreNodes_ok ns
      ⟨s.knownOperations.set n.id (.insert (insertOf n)), s.nodes.set n.id n⟩
      (List.nodup_cons.1 hnd).2 hnew' fun m hm => hv m (List.mem_cons_of_mem _ hm)
    refine ⟨s', by simp only [restoreNodes, hstep, hs'], fun id m => ?_, fun id op => ?_⟩
    · rw [hnodes, InsMap.get?_set_fresh hn1, ← or_assoc]
      refine or_congr ⟨?_, ?_⟩ Iff.rfl
      · rintro (⟨hm, he⟩ | ⟨he, rfl⟩)
        · exact ⟨List.mem_cons_of_mem _ hm, he⟩
        · exact ⟨List.mem_cons_self, he⟩
      · rintro ⟨hm, he⟩
        rcases List.mem_cons.1 hm with rfl | hm
        · exact Or.inr ⟨he, rfl⟩
        · exact Or.inl ⟨hm, he⟩
    · rw [hknown, InsMap.get?_set_fresh hn2, ← or_assoc]
      refine or_congr ⟨?_, ?_⟩ Iff.rfl
      · rintro (⟨m, hm, he⟩ | he)
        · exact ⟨m, List.mem_cons_of_mem _ hm, he⟩
        · exact ⟨n, List.mem_cons_self, he⟩
      · rintro ⟨m, hm, he⟩
        rcases List.mem_cons.1 hm with rfl | hm
        · exact Or.inr he
        · exact Or.inl ⟨m, hm, he⟩

/-- The loop over the deletes adds the delete operations and their targets. -/
theorem restoreDeletes_ok (nodes : InsMap JsString TextNode) :
    ∀ (ds : List DeleteOperation) (known : InsMap JsString TextOperation)
      (targets : InsSet JsString), (ds.map (·.opId)).Nodup →
      (∀ d ∈ ds, known.get? d.opId = none) → (∀ d ∈ ds, ValidOperation (.delete d)) →
      (∀ d ∈ ds, nodes.has d.targetId = true) →
        ∃ known' targets', restoreDeletes nodes ds known targets = .ok (known', targets') ∧
          (∀ id op, known'.get? id = some op ↔
            (∃ d ∈ ds, d.opId = id ∧ op = .delete d) ∨ known.get? id = some op) ∧
          ∀ x, x ∈ targets'.elems ↔ x ∈ targets.elems ∨ ∃ d ∈ ds, d.targetId = x
  | [], known, targets, _, _, _, _ => ⟨known, targets, rfl, by simp, by simp⟩
  | d :: ds, known, targets, hnd, hnew, hv, ht => by
    have hd := hnew d List.mem_cons_self
    have hnew' : ∀ m ∈ ds, (known.set d.opId (.delete d)).get? m.opId = none := by
      intro m hm
      have hne : d.opId ≠ m.opId := not_eq_of_nodup_map hnd hm
      rw [InsMap.get?_set_ne _ _ hne]
      exact hnew m (List.mem_cons_of_mem _ hm)
    obtain ⟨known', targets', hok, hknown, htargets⟩ := restoreDeletes_ok nodes ds
      (known.set d.opId (.delete d)) (targets.add d.targetId) (List.nodup_cons.1 hnd).2 hnew'
      (fun m hm => hv m (List.mem_cons_of_mem _ hm)) fun m hm => ht m (List.mem_cons_of_mem _ hm)
    have hvd : validateOperation (.delete d) = .ok () := hv d List.mem_cons_self
    refine ⟨known', targets', ?_, fun id op => ?_, fun x => ?_⟩
    · simp only [restoreDeletes, hvd, hd, ht d List.mem_cons_self, not_true_eq_false, if_false, hok]
    · rw [hknown, InsMap.get?_set_fresh hd, ← or_assoc]
      refine or_congr ⟨?_, ?_⟩ Iff.rfl
      · rintro (⟨m, hm, he⟩ | he)
        · exact ⟨m, List.mem_cons_of_mem _ hm, he⟩
        · exact ⟨d, List.mem_cons_self, he⟩
      · rintro ⟨m, hm, he⟩
        rcases List.mem_cons.1 hm with rfl | hm
        · exact Or.inr he
        · exact Or.inl ⟨m, hm, he⟩
    · rw [htargets, ← InsSet.mem_def, InsSet.mem_add, InsSet.mem_def, or_assoc]
      refine or_congr Iff.rfl ?_
      simp [eq_comm]

theorem checkNodes_ok {nodes : InsMap JsString TextNode} {targets : InsSet JsString} :
    ∀ {ns : List TextNode}, (∀ n ∈ ns, (n.afterId = ROOT_ID ∨ nodes.has n.afterId = true) ∧
      (n.tombstone = true ↔ n.id ∈ targets.elems)) → checkNodes nodes targets ns = .ok ()
  | [], _ => rfl
  | n :: ns, h => by
    obtain ⟨hanc, htomb⟩ := h n List.mem_cons_self
    have h1 : ¬ (n.afterId ≠ ROOT_ID ∧ ¬ nodes.has n.afterId = true) := by
      rintro ⟨ha, hb⟩
      rcases hanc with hanc | hanc
      · exact ha hanc
      · exact hb hanc
    have h2 : ¬ (n.tombstone = true ∧ n.id ∉ targets.elems) := fun ⟨ha, hb⟩ => hb (htomb.1 ha)
    have h3 : ¬ (¬ n.tombstone = true ∧ n.id ∈ targets.elems) := fun ⟨ha, hb⟩ => ha (htomb.2 hb)
    simp only [checkNodes, checkNode, if_neg h1, if_neg h2, if_neg h3]
    exact checkNodes_ok fun m hm => h m (List.mem_cons_of_mem _ hm)

theorem restoreNode_sound {s s' : RestoreState} {n : TextReplicaSnapshotNode}
    (h : restoreNode s n = .ok s') : s.nodes.get? n.id = none ∧ ValidOperation (.insert (insertOf n)) ∧
      s' = ⟨s.knownOperations.set n.id (.insert (insertOf n)), s.nodes.set n.id n⟩ := by
  unfold restoreNode at h
  split at h
  · cases h
  · split at h
    · cases h
    · rename_i hnew
      split at h
      · cases h
      · split at h
        · cases h
        · rename_i hv
          cases h
          exact ⟨InsMap.has_eq_false.1 (by simpa using hnew), hv, rfl⟩

/-- An accepted node list has distinct new identities and valid inserts. -/
theorem restoreNodes_sound : ∀ {ns : List TextReplicaSnapshotNode} {s s' : RestoreState},
    restoreNodes ns s = .ok s' → (ns.map (·.id)).Nodup ∧
      (∀ n ∈ ns, s.nodes.get? n.id = none) ∧ ∀ n ∈ ns, ValidOperation (.insert (insertOf n))
  | [], _, _, _ => ⟨List.nodup_nil, fun _ h => by (cases h), fun _ h => by cases h⟩
  | n :: ns, s, s', h => by
    unfold restoreNodes at h
    split at h
    · cases h
    · rename_i t ht
      obtain ⟨hnew, hv, rfl⟩ := restoreNode_sound ht
      obtain ⟨hnd, hrest, hvs⟩ := restoreNodes_sound h
      obtain ⟨hnd, hnew⟩ := InsMap.fresh_cons hnew hrest hnd
      exact ⟨hnd, hnew, List.forall_mem_cons.2 ⟨hv, hvs⟩⟩

/-- An accepted delete list has distinct new identities, valid deletes and existing targets. -/
theorem restoreDeletes_sound {nodes : InsMap JsString TextNode} :
    ∀ {ds : List DeleteOperation} {known known' : InsMap JsString TextOperation}
      {targets targets' : InsSet JsString},
      restoreDeletes nodes ds known targets = .ok (known', targets') →
        (ds.map (·.opId)).Nodup ∧ (∀ d ∈ ds, known.get? d.opId = none) ∧
          (∀ d ∈ ds, ValidOperation (.delete d)) ∧ ∀ d ∈ ds, nodes.has d.targetId = true
  | [], _, _, _, _, _ => ⟨List.nodup_nil, fun _ h => by (cases h), fun _ h => by (cases h),
      fun _ h => by cases h⟩
  | d :: ds, known, known', targets, targets', h => by
    unfold restoreDeletes at h
    split at h
    · cases h
    · rename_i hv
      split at h
      · split at h <;> cases h
      · rename_i hnew
        split at h
        · cases h
        · rename_i htarget
          obtain ⟨hnd, hrest, hvs, hts⟩ := restoreDeletes_sound h
          obtain ⟨hnd, hnew⟩ := InsMap.fresh_cons hnew hrest hnd
          exact ⟨hnd, hnew, List.forall_mem_cons.2 ⟨hv, hvs⟩,
            List.forall_mem_cons.2 ⟨by simpa using htarget, hts⟩⟩

theorem checkNodes_sound {nodes : InsMap JsString TextNode} {targets : InsSet JsString} :
    ∀ {ns : List TextNode}, checkNodes nodes targets ns = .ok () →
      ∀ n ∈ ns, (n.afterId = ROOT_ID ∨ nodes.has n.afterId = true) ∧
        (n.tombstone = true ↔ n.id ∈ targets.elems)
  | [], _, _, hm => by cases hm
  | m :: ns, h, n, hm => by
    unfold checkNodes at h
    split at h
    · cases h
    · rename_i hc
      rcases List.mem_cons.1 hm with rfl | hm
      · unfold checkNode at hc
        split at hc
        · cases hc
        · rename_i h1
          split at hc
          · cases hc
          · rename_i h2
            split at hc
            · cases hc
            · rename_i h3
              refine ⟨?_, fun ht => by_contra fun hn => h2 ⟨ht, hn⟩,
                fun hn => by_contra fun ht => h3 ⟨ht, hn⟩⟩
              exact or_iff_not_imp_left.2 fun ha => by_contra fun hb => h1 ⟨ha, hb⟩
      · exact checkNodes_sound h n hm

/-! ## The colouring walk -/

theorem get?_foldl_black (color : InsMap JsString Color) (stack : List JsString) (x : JsString) :
    (stack.foldl (fun c id => c.set id .black) color).get? x =
      if x ∈ stack then some .black else color.get? x := by
  induction stack generalizing color with
  | nil => simp
  | cons y stack ih =>
    rw [List.foldl_cons, ih, InsMap.get?_set]
    by_cases hx : x ∈ stack
    · simp [hx]
    · by_cases hy : y = x
      · simp [hy]
      · simp [hx, hy, Ne.symm hy]

/-- The anchor links between nodes. -/
def NodeLink (nodes : InsMap JsString TextNode) (x y : JsString) : Prop :=
  ∃ n, nodes.get? x = some n ∧ n.afterId = y

section Colouring

variable {nodes : InsMap JsString TextNode}

/-- When the inner loop ends without an error, the cursor it started from is rooted. -/
theorem climb_sound : ∀ {fuel : Nat} {cursor : JsString} {color color' : InsMap JsString Color}
    {stack stack' : List JsString},
    (∀ x, color.get? x = some .black → Rooted (NodeLink nodes) ROOT_ID x) →
    climb nodes fuel cursor color stack = .ok (color', stack') →
      (cursor = ROOT_ID ∨ Rooted (NodeLink nodes) ROOT_ID cursor) ∧
      (∀ x ∈ stack', x ∈ stack ∨ Rooted (NodeLink nodes) ROOT_ID x) ∧
      ∀ x, color'.get? x = some .black → color.get? x = some .black
  | fuel, cursor, color, color', stack, stack', hblack, h => by
    unfold climb at h
    split at h
    · rename_i hroot
      cases h
      exact ⟨Or.inl hroot, fun _ => Or.inl, fun _ => id⟩
    · split at h
      · rename_i hb
        cases h
        exact ⟨Or.inr (hblack cursor hb), fun _ => Or.inl, fun _ => id⟩
      · cases h
      · rename_i hroot hnone
        split at h
        · cases h
        · rename_i n hn
          split at h
          · cases h
          · cases fuel with
            | zero => cases h
            | succ fuel =>
              have hlink : NodeLink nodes cursor n.afterId := ⟨n, hn, rfl⟩
              have hset : ∀ x, (color.set cursor .gray).get? x = some .black →
                  color.get? x = some .black := by
                intro x hx
                rw [InsMap.get?_set] at hx
                split at hx
                · cases hx
                · exact hx
              obtain ⟨hcur, hst, hbl⟩ := climb_sound (fun x hx => hblack x (hset x hx)) h
              have hrooted : Rooted (NodeLink nodes) ROOT_ID cursor := by
                rcases hcur with hr | hr
                · exact .base (hr ▸ hlink)
                · exact .step hlink hr
              refine ⟨Or.inr hrooted, fun x hx => ?_, fun x hx => hset x (hbl x hx)⟩
              rcases hst x hx with hx | hx
              · rcases List.mem_append.1 hx with hx | hx
                · exact Or.inl hx
                · exact Or.inr (List.mem_singleton.1 hx ▸ hrooted)
              · exact Or.inr hx

/-- When the outer loop ends without an error, every start node is rooted. -/
theorem colorFrom_sound : ∀ {starts : List JsString} {color : InsMap JsString Color},
    (∀ x, color.get? x = some .black → Rooted (NodeLink nodes) ROOT_ID x) →
    colorFrom nodes starts color = .ok () →
      ∀ x ∈ starts, x = ROOT_ID ∨ Rooted (NodeLink nodes) ROOT_ID x
  | [], _, _, _, _, hm => by cases hm
  | start :: starts, color, hblack, h, x, hm => by
    unfold colorFrom at h
    split at h
    · rename_i hb
      rcases List.mem_cons.1 hm with rfl | hm
      · exact Or.inr (hblack x hb)
      · exact colorFrom_sound hblack h x hm
    · split at h
      · cases h
      · rename_i climbed stack hclimb
        obtain ⟨hcur, hst, hbl⟩ := climb_sound hblack hclimb
        rcases List.mem_cons.1 hm with rfl | hm
        · exact hcur
        · refine colorFrom_sound (fun y hy => ?_) h x hm
          rw [get?_foldl_black] at hy
          split at hy
          · rename_i hys
            exact (hst y hys).resolve_left (by simp)
          · exact hblack y (hbl y hy)

variable (hanc : ∀ x n, nodes.get? x = some n → n.afterId = ROOT_ID ∨ nodes.has n.afterId = true)
  (hac : Acyclic (NodeLink nodes))
include hanc hac

/-- The inner loop climbs until it meets `ROOT` or a black node; the gray nodes are below the
cursor, so in an acyclic graph the cursor is never one of them. -/
theorem climb_ok : ∀ (fuel : Nat) (cursor : JsString) (color : InsMap JsString Color)
    (stack : List JsString), cursor = ROOT_ID ∨ nodes.has cursor = true → stack.Nodup →
    (∀ x ∈ stack, (∃ n, nodes.get? x = some n) ∧ Relation.TransGen (NodeLink nodes) x cursor) →
    (∀ x, color.get? x = some .gray → x ∈ stack) → nodes.size ≤ fuel + stack.length →
      ∃ color' stack', climb nodes fuel cursor color stack = .ok (color', stack') ∧
        ∀ x, color'.get? x = some .gray → x ∈ stack'
  | fuel, cursor, color, stack, hcur, hnd, hst, hgray, hf => by
    unfold climb
    by_cases hroot : cursor = ROOT_ID
    · exact ⟨color, stack, by rw [if_pos hroot], hgray⟩
    rw [if_neg hroot]
    have hnotin : cursor ∉ stack := fun hm => hac cursor (hst cursor hm).2
    obtain ⟨n, hn⟩ := InsMap.has_iff.1 (hcur.resolve_left hroot)
    cases hcol : color.get? cursor with
    | some c =>
      cases c with
      | black => exact ⟨color, stack, rfl, hgray⟩
      | gray => exact absurd (hgray cursor hcol) hnotin
    | none =>
      have hn' : ¬ (n.afterId ≠ ROOT_ID ∧ ¬ nodes.has n.afterId = true) := by
        rintro ⟨ha, hb⟩
        rcases hanc cursor n hn with h | h
        · exact ha h
        · exact hb h
      have hlink : NodeLink nodes cursor n.afterId := ⟨n, hn, rfl⟩
      have hnd' : (stack ++ [cursor]).Nodup :=
        List.nodup_append.2 ⟨hnd, by simp, by rintro x hx _ hc rfl; simp_all⟩
      have hst' : ∀ x ∈ stack ++ [cursor], (∃ n, nodes.get? x = some n) ∧
          Relation.TransGen (NodeLink nodes) x n.afterId := by
        intro x hx
        rcases List.mem_append.1 hx with hx | hx
        · exact ⟨(hst x hx).1, (hst x hx).2.tail hlink⟩
        · rw [List.mem_singleton.1 hx]
          exact ⟨⟨n, hn⟩, .single hlink⟩
      simp only [hn, if_neg hn']
      cases fuel with
      | zero =>
        have := InsMap.length_le_size hnd' fun x hx => (hst' x hx).1
        simp only [List.length_append, List.length_singleton] at this
        omega
      | succ fuel =>
        refine climb_ok fuel n.afterId _ _ (hanc cursor n hn) hnd' hst' (fun x hx => ?_) ?_
        · rw [InsMap.get?_set] at hx
          split at hx
          · rename_i he; exact List.mem_append_right _ (by simp [he])
          · exact List.mem_append_left _ (hgray x hx)
        · simp only [List.length_append, List.length_singleton]
          omega

theorem colorFrom_ok : ∀ (starts : List JsString) (color : InsMap JsString Color),
    (∀ x ∈ starts, nodes.has x = true) → (∀ x, color.get? x ≠ some .gray) →
      colorFrom nodes starts color = .ok ()
  | [], _, _, _ => rfl
  | x :: starts, color, hs, hgray => by
    have hs' : ∀ y ∈ starts, nodes.has y = true := fun y hy => hs y (List.mem_cons_of_mem _ hy)
    simp only [colorFrom]
    split
    · exact colorFrom_ok starts color hs' hgray
    · obtain ⟨color', stack', hok, hg⟩ := climb_ok hanc hac nodes.size x color []
        (Or.inr (hs x List.mem_cons_self)) List.nodup_nil (fun _ hm => by cases hm)
        (fun y hy => absurd hy (hgray y)) (by simp)
      simp only [hok]
      refine colorFrom_ok starts _ hs' fun y hy => ?_
      rw [get?_foldl_black] at hy
      split at hy
      · cases hy
      · rename_i hm; exact hm (hg y hy)

/-- **The colouring walk accepts an acyclic graph.** -/
theorem assertSnapshotGraphIsAcyclic_ok : assertSnapshotGraphIsAcyclic nodes = .ok () :=
  colorFrom_ok hanc hac _ _ (fun _ hx => InsMap.has_iff.2 (InsMap.mem_keys.1 hx)) (by simp)

end Colouring

/-! ## The child lists -/

theorem groupByAnchor_get? (ns : List TextNode) (p : JsString) : (groupByAnchor ns).get? p =
    if ns.filter (fun n => n.afterId = p) = [] then none
    else some ((ns.filter (fun n => n.afterId = p)).map (·.id)) := by
  have hfold : ∀ (ns : List TextNode) (c : InsMap JsString (List JsString)),
      (ns.foldl (fun children node =>
        children.set node.afterId ((children.get? node.afterId).getD [] ++ [node.id])) c).get? p =
      if ns.filter (fun n => n.afterId = p) = [] then c.get? p
      else some ((c.get? p).getD [] ++ (ns.filter (fun n => n.afterId = p)).map (·.id)) := by
    intro ns
    induction ns with
    | nil => simp
    | cons n ns ih =>
      intro c
      rw [List.foldl_cons, ih, InsMap.get?_set]
      by_cases hp : n.afterId = p
      · subst hp
        by_cases hrest : ns.filter (fun m => m.afterId = n.afterId) = []
        · simp [hrest]
        · simp [hrest]
      · simp [hp]
  have := hfold ns .empty
  simpa [groupByAnchor] using this

/-- The sibling ids in the order of the sort. -/
def sortedIds (nodes : InsMap JsString TextNode) (siblings : List JsString) : List JsString :=
  (sortBy compareNodes (siblings.filterMap nodes.get?)).map (·.id)

theorem lookupAll_ok {nodes : InsMap JsString TextNode} : ∀ {siblings : List JsString},
    (∀ id ∈ siblings, ∃ n, nodes.get? id = some n ∧ n.id = id) →
      lookupAll nodes siblings = some (siblings.filterMap nodes.get?) ∧
        (siblings.filterMap nodes.get?).map (·.id) = siblings
  | [], _ => ⟨rfl, rfl⟩
  | id :: siblings, h => by
    obtain ⟨n, hn, hid⟩ := h id List.mem_cons_self
    obtain ⟨h1, h2⟩ := lookupAll_ok fun x hx => h x (List.mem_cons_of_mem _ hx)
    simp [lookupAll, hn, h1, h2, hid]

theorem sortSiblings_ok {nodes : InsMap JsString TextNode} {siblings : List JsString}
    (h : ∀ id ∈ siblings, ∃ n, nodes.get? id = some n ∧ n.id = id) :
    sortSiblings nodes siblings = .ok (sortedIds nodes siblings) := by
  obtain ⟨hlook, hids⟩ := lookupAll_ok h
  unfold sortSiblings
  split
  · rename_i hlen
    -- fewer than two siblings: sorting them changes nothing
    congr 1
    rcases siblings with _ | ⟨x, _ | ⟨y, rest⟩⟩
    · rfl
    · obtain ⟨n, hn, hid⟩ := h x List.mem_cons_self
      simp [sortedIds, hn, sortBy, hid]
    · rw [List.length_cons, List.length_cons] at hlen
      omega
  · simp [hlook, sortedIds]

theorem sortChildren_ok {nodes : InsMap JsString TextNode} :
    ∀ (es : List (JsString × List JsString)) (children : InsMap JsString (List JsString)),
      (es.map Prod.fst).Nodup →
      (∀ e ∈ es, ∀ id ∈ e.2, ∃ n, nodes.get? id = some n ∧ n.id = id) →
        ∃ children', sortChildren nodes es children = .ok children' ∧
          (∀ p l, (p, l) ∈ es → children'.get? p = some (sortedIds nodes l)) ∧
          ∀ p, p ∉ es.map Prod.fst → children'.get? p = children.get? p
  | [], children, _, _ => ⟨children, rfl, fun _ _ h => by (cases h), fun _ _ => rfl⟩
  | (p, l) :: es, children, hnd, h => by
    obtain ⟨hp, hnd⟩ := List.nodup_cons.1 hnd
    obtain ⟨children', hok, hin, hout⟩ := sortChildren_ok es
      (children.set p (sortedIds nodes l)) hnd fun e he => h e (List.mem_cons_of_mem _ he)
    refine ⟨children', ?_, fun q m hm => ?_, fun q hq => ?_⟩
    · simp only [sortChildren, sortSiblings_ok (h (p, l) List.mem_cons_self), hok]
    · rcases List.mem_cons.1 hm with he | hm
      · cases he
        rw [hout _ hp, InsMap.get?_set_self]
      · exact hin q m hm
    · simp only [List.map_cons, List.mem_cons, not_or] at hq
      rw [hout q hq.2, InsMap.get?_set_ne _ _ (Ne.symm hq.1)]

/-- The nodes with one anchor, in the order of the map. -/
def anchoredAt (nodes : InsMap JsString TextNode) (p : JsString) : List TextNode :=
  nodes.values.filter fun n => n.afterId = p

section

variable {nodes : InsMap JsString TextNode} (hid : ∀ id n, nodes.get? id = some n → n.id = id)
include hid

theorem mem_anchoredAt {p : JsString} {n : TextNode} :
    n ∈ anchoredAt nodes p ↔ nodes.get? n.id = some n ∧ n.afterId = p := by
  unfold anchoredAt
  rw [List.mem_filter, InsMap.mem_values, decide_eq_true_eq]
  refine and_congr_left fun _ => ⟨?_, fun hn => ⟨_, hn⟩⟩
  rintro ⟨id, hn⟩
  rw [hid id n hn]
  exact hn

theorem anchoredAt_nodup (p : JsString) : (anchoredAt nodes p).Nodup := by
  have hkeys : nodes.values.map (fun n => n.id) = nodes.keys := by
    unfold InsMap.values InsMap.keys
    rw [List.map_map]
    exact List.map_congr_left fun e he => hid e.1 e.2 (InsMap.mem_entries.1 he)
  refine List.Nodup.filter _ (List.Nodup.of_map (fun n => n.id) ?_)
  rw [hkeys]
  exact nodes.nodup_keys

theorem sortedIds_anchoredAt (p : JsString) : sortedIds nodes ((anchoredAt nodes p).map (·.id)) =
    (sortBy compareNodes (anchoredAt nodes p)).map (·.id) := by
  unfold sortedIds
  rw [List.filterMap_map]
  congr 2
  exact (List.filterMap_congr fun n hn => ((mem_anchoredAt hid).1 hn).1).trans List.filterMap_some

/-- Every child list is sorted. -/
theorem sortChildren_grouped : ∃ children,
    sortChildren nodes (groupByAnchor nodes.values).entries (groupByAnchor nodes.values) =
      .ok children ∧
    ∀ p, children.get? p = if anchoredAt nodes p = [] then none
      else some ((sortBy compareNodes (anchoredAt nodes p)).map (·.id)) := by
  have hgroup : ∀ p, (groupByAnchor nodes.values).get? p = if anchoredAt nodes p = [] then none
      else some ((anchoredAt nodes p).map (·.id)) := groupByAnchor_get? nodes.values
  obtain ⟨children, hok, hin, hout⟩ := @sortChildren_ok nodes
    (groupByAnchor nodes.values).entries (groupByAnchor nodes.values)
    (groupByAnchor nodes.values).nodup (by
      rintro ⟨p, l⟩ he id hid'
      have hl := InsMap.mem_entries.1 he
      rw [hgroup] at hl
      split at hl
      · cases hl
      · obtain rfl := Option.some.inj hl
        obtain ⟨n, hn, rfl⟩ := List.mem_map.1 hid'
        exact ⟨n, ((mem_anchoredAt hid).1 hn).1, rfl⟩)
  refine ⟨children, hok, fun p => ?_⟩
  split
  · rename_i hnil
    have hnone : (groupByAnchor nodes.values).get? p = none := by rw [hgroup, if_pos hnil]
    rw [hout p fun hm => ?_, hnone]
    obtain ⟨l, hl⟩ := InsMap.mem_keys.1 hm
    rw [hnone] at hl
    cases hl
  · rename_i hne
    rw [← sortedIds_anchoredAt hid p]
    exact hin p _ (InsMap.mem_entries.2 (by rw [hgroup, if_neg hne]))

/-- The child lists, grouped by anchor and sorted. -/
theorem restored_children {key : JsString → SiblingKey}
    (hkey : ∀ id n, nodes.get? id = some n → key id = nodeKey n)
    (hinj : ∀ n m, nodes.get? n.id = some n → nodes.get? m.id = some m →
      nodeKey n = nodeKey m → n.id = m.id) : ∃ children,
      sortChildren nodes (groupByAnchor nodes.values).entries (groupByAnchor nodes.values) =
        .ok children ∧
      (∀ p, children.get? p ≠ some []) ∧
      (∀ p id, id ∈ (children.get? p).getD [] ↔ ∃ n, nodes.get? id = some n ∧ n.afterId = p) ∧
      ∀ p, ((children.get? p).getD []).Pairwise (fun x y => key x < key y) := by
  obtain ⟨children, hok, hres⟩ := sortChildren_grouped hid
  refine ⟨children, hok, fun p hp => ?_, fun p id => ?_, fun p => ?_⟩
  · rw [hres] at hp
    split at hp
    · cases hp
    · rename_i hne
      apply hne
      have hnil := List.map_eq_nil_iff.1 (Option.some.inj hp)
      exact List.Perm.eq_nil (hnil ▸ (sortBy_perm compareNodes _).symm)
  · have hmem : id ∈ (children.get? p).getD [] ↔ ∃ n ∈ anchoredAt nodes p, n.id = id := by
      rw [hres]
      split
      · rename_i hnil
        simp [hnil]
      · simp [mem_sortBy]
    rw [hmem]
    constructor
    · rintro ⟨n, hn, rfl⟩
      exact ⟨n, (mem_anchoredAt hid).1 hn⟩
    · rintro ⟨n, hn, hafter⟩
      have hnid := hid id n hn
      exact ⟨n, (mem_anchoredAt hid).2 ⟨by rw [hnid]; exact hn, hafter⟩, hnid⟩
  · rw [hres]
    split
    · exact List.Pairwise.nil
    · have hget : ∀ n ∈ anchoredAt nodes p, nodes.get? n.id = some n :=
        fun n hn => ((mem_anchoredAt hid).1 hn).1
      have hstrict := comparesKey_compareNodes.sortBy_strict (anchoredAt_nodup hid p)
        fun n hn m hm he => by
          have hnm := hinj n m (hget n hn) (hget m hm) he
          have hn := hget n hn
          rw [hnm, hget m hm] at hn
          exact (Option.some.inj hn).symm
      refine List.pairwise_map.2 (List.Pairwise.imp_of_mem ?_ hstrict)
      intro n m hn hm hlt
      rw [hkey _ n (hget n (mem_sortBy.1 hn)), hkey _ m (hget m (mem_sortBy.1 hm))]
      exact hlt

end

/-! ## Accepted snapshots -/

/-- The operations that a snapshot stands for. -/
def snapshotOps (s : TextReplicaSnapshot) : Set TextOperation :=
  {op | (∃ n ∈ s.nodes, op = .insert (insertOf n)) ∨ ∃ d ∈ s.deleteOperations, op = .delete d}

/-- The anchor links between the nodes of a snapshot. -/
def SnapshotLink (s : TextReplicaSnapshot) (x y : JsString) : Prop :=
  ∃ n ∈ s.nodes, n.id = x ∧ n.afterId = y

/-- The conditions under which a snapshot is accepted. -/
structure SnapshotCoherent (s : TextReplicaSnapshot) : Prop where
  version : s.version = 1
  node_nodup : (s.nodes.map (·.id)).Nodup
  node_valid : ∀ n ∈ s.nodes, ValidOperation (.insert (insertOf n))
  delete_nodup : (s.deleteOperations.map (·.opId)).Nodup
  delete_valid : ∀ d ∈ s.deleteOperations, ValidOperation (.delete d)
  disjoint : ∀ n ∈ s.nodes, ∀ d ∈ s.deleteOperations, n.id ≠ d.opId
  target : ∀ d ∈ s.deleteOperations, ∃ n ∈ s.nodes, n.id = d.targetId
  anchor : ∀ n ∈ s.nodes, n.afterId = ROOT_ID ∨ ∃ m ∈ s.nodes, m.id = n.afterId
  tombstone : ∀ n ∈ s.nodes, n.tombstone = true ↔ ∃ d ∈ s.deleteOperations, d.targetId = n.id
  rooted : ∀ n ∈ s.nodes, Rooted (SnapshotLink s) ROOT_ID n.id

theorem mem_snapshotOps_insert {s : TextReplicaSnapshot} {op : InsertOperation} :
    .insert op ∈ snapshotOps s ↔ ∃ n ∈ s.nodes, insertOf n = op := by
  constructor
  · rintro (⟨n, hn, he⟩ | ⟨d, hd, he⟩)
    · cases he; exact ⟨n, hn, rfl⟩
    · cases he
  · rintro ⟨n, hn, rfl⟩
    exact Or.inl ⟨n, hn, rfl⟩

theorem mem_snapshotOps_delete {s : TextReplicaSnapshot} {op : DeleteOperation} :
    .delete op ∈ snapshotOps s ↔ op ∈ s.deleteOperations := by
  constructor
  · rintro (⟨n, hn, he⟩ | ⟨d, hd, he⟩)
    · cases he
    · cases he; exact hd
  · intro hd
    exact Or.inr ⟨op, hd, rfl⟩

theorem anchoredOn_snapshotOps {s : TextReplicaSnapshot} {x y : JsString} :
    AnchoredOn (snapshotOps s) x y ↔ SnapshotLink s x y := by
  constructor
  · rintro ⟨op, hop, rfl, rfl⟩
    obtain ⟨n, hn, rfl⟩ := mem_snapshotOps_insert.1 hop
    exact ⟨n, hn, rfl, rfl⟩
  · rintro ⟨n, hn, rfl, rfl⟩
    exact ⟨insertOf n, mem_snapshotOps_insert.2 ⟨n, hn, rfl⟩, rfl, rfl⟩

namespace SnapshotCoherent

variable {s : TextReplicaSnapshot} (hs : SnapshotCoherent s)
include hs

theorem node_eq {n m : TextReplicaSnapshotNode} (hn : n ∈ s.nodes) (hm : m ∈ s.nodes)
    (hid : n.id = m.id) : n = m := List.inj_on_of_nodup_map hs.node_nodup hn hm hid

theorem attached {n : TextReplicaSnapshotNode} (hn : n ∈ s.nodes) :
    Attached (snapshotOps s) n.id :=
  (hs.rooted n hn).mono fun _ _ => anchoredOn_snapshotOps.2

/-- The operations of an accepted snapshot are coherent. -/
theorem coherent : Coherent (snapshotOps s) := by
  have hvalid : ∀ op ∈ snapshotOps s, ValidOperation op := by
    rintro op (⟨n, hn, rfl⟩ | ⟨d, hd, rfl⟩)
    · exact hs.node_valid n hn
    · exact hs.delete_valid d hd
  have hfun : Functional (SnapshotLink s) := by
    rintro x y z ⟨n, hn, rfl, rfl⟩ ⟨m, hm, hid, rfl⟩
    rw [hs.node_eq hn hm hid.symm]
  have hroot : ∀ z, ¬ SnapshotLink s ROOT_ID z := by
    rintro z ⟨n, hn, hid, -⟩
    exact (hs.node_valid n hn).opId_ne_root hid
  refine ⟨hvalid, ?_, ?_, ?_⟩
  · rintro _ (⟨n, hn, rfl⟩ | ⟨d, hd, rfl⟩) _ (⟨m, hm, rfl⟩ | ⟨e, he, rfl⟩) hid
    · rw [hs.node_eq hn hm hid]
    · exact absurd hid (hs.disjoint n hn e he)
    · exact absurd hid.symm (hs.disjoint m hm d hd)
    · rw [List.inj_on_of_nodup_map hs.delete_nodup hd he hid]
  · intro x hx
    have hx' : Relation.TransGen (SnapshotLink s) x x :=
      Relation.TransGen.mono (fun _ _ => anchoredOn_snapshotOps.1) _ _ hx
    obtain ⟨_, ⟨n, hn, rfl, -⟩, -⟩ := Relation.TransGen.head'_iff.1 hx'
    exact (hs.rooted n hn).not_cycle hfun hroot hx'
  · intro i hi d hd
    obtain ⟨n, hn, rfl⟩ := mem_snapshotOps_insert.1 hi
    have hd := mem_snapshotOps_delete.1 hd
    rcases hs.anchor n hn with ha | ⟨m, hm, ha⟩
    · exact fun he => (hs.delete_valid d hd).opId_ne_root (he.symm.trans ha)
    · exact fun he => hs.disjoint m hm d hd (ha.trans he)

/-- Maps that hold the nodes and the operations of an accepted snapshot, with no pending
operations, satisfy the invariant. -/
theorem inv {nodes : InsMap JsString TextNode} {known : InsMap JsString TextOperation}
    {children : InsMap JsString (List JsString)}
    (hn : ∀ id n, nodes.get? id = some n ↔ n ∈ s.nodes ∧ n.id = id)
    (hk : ∀ id op, known.get? id = some op ↔ op ∈ snapshotOps s ∧ op.opId = id)
    (hne : ∀ p, children.get? p ≠ some [])
    (hmem : ∀ p id, id ∈ (children.get? p).getD [] ↔ ∃ n, nodes.get? id = some n ∧ n.afterId = p)
    (hsort : ∀ p, ((children.get? p).getD []).Pairwise (fun x y => idKey known x < idKey known y)) :
    Inv ⟨nodes, children, known, .empty, .empty⟩ ∧
      ops ⟨nodes, children, known, .empty, .empty⟩ = snapshotOps s := by
  have hops : ops ⟨nodes, children, known, .empty, .empty⟩ = snapshotOps s := by
    ext op
    rw [mem_ops, hk]
    exact and_iff_left rfl
  have hnode : ∀ {n}, n ∈ s.nodes → nodes.get? n.id ≠ none := by
    intro n hm
    rw [(hn n.id n).2 ⟨hm, rfl⟩]
    simp
  refine ⟨?_, hops⟩
  constructor
  case known_id => intro id op ho; exact ((hk id op).1 ho).2
  case coherent => rw [hops]; exact hs.coherent
  case node_insert =>
    intro id n hx
    obtain ⟨hm, hid⟩ := (hn id n).1 hx
    rw [hops]
    exact ⟨hid, mem_snapshotOps_insert.2 ⟨n, hm, rfl⟩⟩
  case node_tombstone =>
    intro id n hx
    obtain ⟨hm, rfl⟩ := (hn id n).1 hx
    rw [hops, hs.tombstone n hm]
    exact exists_congr fun d => and_congr mem_snapshotOps_delete.symm Iff.rfl
  case node_attached =>
    intro id n hx
    obtain ⟨hm, rfl⟩ := (hn id n).1 hx
    rw [hops]
    exact hs.attached hm
  case node_anchor =>
    intro id n hx
    rw [anchorExists_iff]
    refine (hs.anchor n ((hn id n).1 hx).1).imp_right ?_
    rintro ⟨m, hm, ha⟩
    exact ⟨m, (hn _ m).2 ⟨hm, ha⟩⟩
  case child_mem => exact hmem
  case child_sorted => exact hsort
  case child_nonempty => exact hne
  case queue_ready => intro _ hq; cases hq
  case queue_nodup => exact List.nodup_nil
  case ready_queued =>
    intro op hop hno _
    rw [hops] at hop
    obtain ⟨n, hm, rfl⟩ := mem_snapshotOps_insert.1 hop
    exact absurd hno (hnode hm)
  case insert_nonempty => intro _ _ hq; cases hq
  case insert_mem =>
    intro a id
    constructor
    · intro hq; cases hq
    · rintro ⟨op, hop, rfl, -, hno, -⟩
      rw [hops] at hop
      obtain ⟨n, hm, rfl⟩ := mem_snapshotOps_insert.1 hop
      exact absurd hno (hnode hm)
  case delete_nonempty => intro _ _ hq; cases hq
  case delete_mem =>
    intro t id
    constructor
    · intro hq; cases hq
    · rintro ⟨op, hop, -, rfl, hno⟩
      rw [hops] at hop
      obtain ⟨n, hm, ht⟩ := hs.target op (mem_snapshotOps_delete.1 hop)
      rw [← ht] at hno
      exact absurd hno (hnode hm)

end SnapshotCoherent

/-- **What `fromSnapshot` restores**: a replica of the invariant that knows the operations of
the snapshot. -/
theorem fromSnapshot_ok {s : TextReplicaSnapshot} (hs : SnapshotCoherent s) :
    ∃ r, fromSnapshot s = .ok r ∧ Inv r ∧ r.ops = snapshotOps s ∧
      r.getUnresolvedOperationIds = [] := by
  obtain ⟨t, ht, htn, htk⟩ := restoreNodes_ok s.nodes ⟨.empty, .empty⟩ hs.node_nodup
    (fun _ _ => ⟨rfl, rfl⟩) hs.node_valid
  have hn : ∀ id n, t.nodes.get? id = some n ↔ n ∈ s.nodes ∧ n.id = id := by
    intro id n
    rw [htn]
    exact or_iff_left (by simp)
  have hhas : ∀ id, t.nodes.has id = true ↔ ∃ n ∈ s.nodes, n.id = id := by
    intro id
    rw [InsMap.has_iff]
    exact exists_congr (hn id)
  have htk' : ∀ id op, t.knownOperations.get? id = some op ↔
      ∃ n ∈ s.nodes, n.id = id ∧ op = .insert (insertOf n) := by
    intro id op
    rw [htk]
    exact or_iff_left (by simp)
  obtain ⟨known, targets, hd, hdk, hdt⟩ := restoreDeletes_ok t.nodes s.deleteOperations
    t.knownOperations .empty hs.delete_nodup (fun d hm => by
      rw [Option.eq_none_iff_forall_ne_some]
      intro op hop
      obtain ⟨n, hn, hid, -⟩ := (htk' _ _).1 hop
      exact hs.disjoint n hn d hm hid) hs.delete_valid fun d hm => (hhas _).2 (hs.target d hm)
  have hk : ∀ id op, known.get? id = some op ↔ op ∈ snapshotOps s ∧ op.opId = id := by
    intro id op
    rw [hdk, htk']
    constructor
    · rintro (⟨d, hm, rfl, rfl⟩ | ⟨n, hm, rfl, rfl⟩)
      · exact ⟨mem_snapshotOps_delete.2 hm, rfl⟩
      · exact ⟨mem_snapshotOps_insert.2 ⟨n, hm, rfl⟩, rfl⟩
    · rintro ⟨⟨n, hm, rfl⟩ | ⟨d, hm, rfl⟩, rfl⟩
      · exact Or.inr ⟨n, hm, rfl, rfl⟩
      · exact Or.inl ⟨d, hm, rfl, rfl⟩
  have hcheck : checkNodes t.nodes targets t.nodes.values = .ok () := by
    refine checkNodes_ok fun n hm => ?_
    obtain ⟨id, hid⟩ := InsMap.mem_values.1 hm
    obtain ⟨hm, -⟩ := (hn id n).1 hid
    refine ⟨(hs.anchor n hm).imp_right (hhas _).2, ?_⟩
    rw [hs.tombstone n hm, hdt]
    exact (or_iff_right (by simp [InsSet.empty])).symm
  have hlink : ∀ x y, NodeLink t.nodes x y → SnapshotLink s x y := by
    rintro x y ⟨n, hx, hy⟩
    obtain ⟨hm, hid⟩ := (hn x n).1 hx
    exact ⟨n, hm, hid, hy⟩
  have hacyc : assertSnapshotGraphIsAcyclic t.nodes = .ok () := by
    refine assertSnapshotGraphIsAcyclic_ok (fun x n hx => ?_) ?_
    · exact (hs.anchor n ((hn x n).1 hx).1).imp_right (hhas _).2
    · exact hs.coherent.acyclic.anti fun x y hl => anchoredOn_snapshotOps.2 (hlink x y hl)
  have hkey : ∀ id n, t.nodes.get? id = some n → idKey known id = nodeKey n := by
    intro id n hx
    obtain ⟨hm, hid⟩ := (hn id n).1 hx
    exact idKey_of_get? ((hk id _).2 ⟨mem_snapshotOps_insert.2 ⟨n, hm, rfl⟩, hid⟩)
  obtain ⟨children, hch, hne, hmem, hsort⟩ := restored_children
    (fun id n hx => ((hn id n).1 hx).2) hkey fun n m hx hy he =>
      opId_eq_of_opKey_eq (a := .insert (insertOf n)) (b := .insert (insertOf m))
        (hs.node_valid n ((hn _ n).1 hx).1) (hs.node_valid m ((hn _ m).1 hy).1) he
  have hshape : validateSnapshotShape s = .ok () := by simp [validateSnapshotShape, hs.version]
  obtain ⟨hinv, hops⟩ := hs.inv hn hk hne hmem hsort
  refine ⟨⟨t.nodes, children, known, .empty, .empty⟩, ?_, hinv, hops, rfl⟩
  simp only [fromSnapshot, hshape, ht, hd, hcheck, hacyc, hch]

/-- An accepted snapshot meets the conditions. -/
theorem fromSnapshot_sound {s : TextReplicaSnapshot} {r : TextReplica}
    (h : fromSnapshot s = .ok r) : SnapshotCoherent s := by
  unfold fromSnapshot at h
  split at h
  · cases h
  · rename_i hshape
    split at h
    · cases h
    · rename_i t ht
      split at h
      · cases h
      · rename_i known targets hd
        split at h
        · cases h
        · rename_i hcheck
          split at h
          · cases h
          · rename_i hacyc
            clear h
            obtain ⟨hnd, -, hnv⟩ := restoreNodes_sound ht
            obtain ⟨t', ht', htn, htk⟩ := restoreNodes_ok s.nodes ⟨.empty, .empty⟩ hnd
              (fun _ _ => ⟨rfl, rfl⟩) hnv
            cases ht.symm.trans ht'
            obtain ⟨hdd, hdnew, hdv, hdt⟩ := restoreDeletes_sound hd
            obtain ⟨known', targets', hd', -, htargets⟩ := restoreDeletes_ok t.nodes
              s.deleteOperations t.knownOperations .empty hdd hdnew hdv hdt
            cases hd.symm.trans hd'
            have hn : ∀ id n, t.nodes.get? id = some n ↔ n ∈ s.nodes ∧ n.id = id := by
              intro id n
              rw [htn]
              exact or_iff_left (by simp)
            have hhas : ∀ {id}, t.nodes.has id = true → ∃ n ∈ s.nodes, n.id = id := by
              intro id hx
              obtain ⟨n, hx⟩ := InsMap.has_iff.1 hx
              exact ⟨n, (hn id n).1 hx⟩
            have hc : ∀ n ∈ s.nodes, _ := fun n hm =>
              checkNodes_sound hcheck n (InsMap.mem_values.2 ⟨n.id, (hn _ _).2 ⟨hm, rfl⟩⟩)
            refine ⟨?_, hnd, hnv, hdd, hdv, fun n hm d hdm he => ?_, fun d hdm => hhas (hdt d hdm),
              fun n hm => (hc n hm).1.imp_right hhas, fun n hm => ?_, fun n hm => ?_⟩
            · unfold validateSnapshotShape at hshape
              split at hshape
              · cases hshape
              · rename_i hv
                simpa using hv
            · have := (htk n.id (.insert (insertOf n))).2 (Or.inl ⟨n, hm, rfl, rfl⟩)
              rw [he, hdnew d hdm] at this
              cases this
            · rw [(hc n hm).2, htargets]
              exact or_iff_right (by simp [InsSet.empty])
            · have hstart : n.id ∈ t.nodes.keys := InsMap.mem_keys.2 ⟨n, (hn _ _).2 ⟨hm, rfl⟩⟩
              have hr := (colorFrom_sound (fun x hx => by (cases hx)) hacyc n.id hstart).resolve_left
                (hnv n hm).opId_ne_root
              refine Rooted.mono ?_ hr
              rintro x y ⟨m, hx, hy⟩
              obtain ⟨hm, hid⟩ := (hn x m).1 hx
              exact ⟨m, hm, hid, hy⟩

/-- **The snapshots that are accepted.** -/
theorem fromSnapshot_iff {s : TextReplicaSnapshot} :
    (∃ r, fromSnapshot s = .ok r) ↔ SnapshotCoherent s := by
  constructor
  · rintro ⟨r, hr⟩
    exact fromSnapshot_sound hr
  · intro hs
    obtain ⟨r, hr, -⟩ := fromSnapshot_ok hs
    exact ⟨r, hr⟩

/-- Whatever `fromSnapshot` returns satisfies the invariant, knows the operations of the
snapshot and has nothing unresolved. -/
theorem fromSnapshot_inv {s : TextReplicaSnapshot} {r : TextReplica} (h : fromSnapshot s = .ok r) :
    Inv r ∧ r.ops = snapshotOps s ∧ r.getUnresolvedOperationIds = [] := by
  obtain ⟨r', hr', hinv, hops, hres⟩ := fromSnapshot_ok (fromSnapshot_sound h)
  cases h.symm.trans hr'
  exact ⟨hinv, hops, hres⟩

end TextReplica

end LocalFirst
