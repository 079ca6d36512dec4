import LocalFirst.Crdt.Resolution
import LocalFirst.Lib.Runs

/-!
# What an unresolved operation waits for

* `LeadsToUnknown` — the anchors of pending inserts lead to an identity that is not known yet.
* `Resolvable` — every unresolved operation can still be resolved.
* `Inv.resolvable_iff` — so it is unless a known delete targets the identity of a known delete.
* `resolvable_iff_never` — a run keeps its operations resolvable exactly if no accepted delete
  targets a delete, or is the target of one.
-/

set_option autoImplicit false

namespace LocalFirst

/-- The identity that an operation depends on; it may be `ROOT`. -/
def TextOperation.dependsOn : TextOperation → JsString
  | .insert op => op.afterId
  | .delete op => op.targetId

namespace TextReplica

/-- From `id` on, the anchors of known pending inserts lead to an identity that is not known. -/
inductive LeadsToUnknown (r : TextReplica) : JsString → Prop
  | unknown {id : JsString} (hroot : id ≠ ROOT_ID) (hnew : r.knownOperations.get? id = none) :
      LeadsToUnknown r id
  | pending {id : JsString} {op : InsertOperation}
      (hknown : r.knownOperations.get? id = some (.insert op))
      (hwaits : id ∈ waiting r.pendingInsertsByAnchor op.afterId)
      (h : LeadsToUnknown r op.afterId) : LeadsToUnknown r id

/-- Every unresolved operation can still be resolved, and nothing waits for a delete. -/
structure Resolvable (r : TextReplica) : Prop where
  chains : ∀ id ∈ r.getUnresolvedOperationIds,
    ∃ op, r.knownOperations.get? id = some op ∧ LeadsToUnknown r op.dependsOn
  inserts : ∀ dependency id, id ∈ waiting r.pendingInsertsByAnchor dependency →
    ∀ d, r.knownOperations.get? dependency ≠ some (.delete d)
  deletes : ∀ dependency id, id ∈ waiting r.pendingDeletesByTarget dependency →
    ∀ d, r.knownOperations.get? dependency ≠ some (.delete d)

/-- A delete of the set targets the identity of a delete of the set. -/
def TargetsDelete (S : Set TextOperation) : Prop :=
  ∃ d target : DeleteOperation, .delete d ∈ S ∧ .delete target ∈ S ∧ d.targetId = target.opId

section

variable {r : TextReplica} (h : Inv r)
include h

/-- The chain of an identity that is not attached ends at one that is not known, unless it begins
with a delete. -/
theorem Inv.leadsToUnknown {x : JsString} (hroot : x ≠ ROOT_ID) (hatt : ¬ Attached r.ops x)
    (hdelete : ∀ d, .delete d ∈ r.ops → x ≠ d.opId) : LeadsToUnknown r x := by
  have hfinite : {x | ∃ y, AnchoredOn r.ops x y}.Finite := by
    refine (List.finite_toSet r.knownOperations.keys).subset ?_
    rintro x ⟨y, op, hop, rfl, -⟩
    exact InsMap.mem_keys.2 ⟨_, hop⟩
  obtain ⟨y, hreach, hend⟩ := h.coherent.acyclic.exists_end hfinite x
  induction hreach using Relation.ReflTransGen.head_induction_on with
  | refl =>
    refine .unknown hroot ?_
    cases hk : r.knownOperations.get? y with
    | none => rfl
    | some op =>
      have hop := h.known_ops hk
      have hid := h.known_id y op hk
      cases op with
      | insert op => exact absurd ⟨op, hop, hid, rfl⟩ (hend op.afterId)
      | delete d => exact absurd hid.symm (hdelete d hop)
  | head hlink _ ih =>
    obtain ⟨op, hop, rfl, rfl⟩ := hlink
    rw [h.coherent.attached_iff hop, not_or] at hatt
    have hwaits : op.opId ∈ waiting r.pendingInsertsByAnchor op.afterId := by
      refine (h.insert_mem _ _).2 ⟨op, hop, rfl, rfl, h.node_none_iff.2 ?_, List.not_mem_nil⟩
      rw [h.coherent.attached_iff hop, not_or]
      exact hatt
    exact .pending hop hwaits (ih hatt.1 hatt.2 (h.coherent.anchor op hop))

/-- **Every unresolved operation can still be resolved**, unless a known delete targets the identity
of a known delete. -/
theorem Inv.resolvable_iff : Resolvable r ↔ ¬ TargetsDelete r.ops := by
  constructor
  · rintro hr ⟨d, target, hd, htarget, hid⟩
    have hnode : r.nodes.get? d.targetId = none := by
      rw [h.node_none_iff]
      intro hatt
      obtain ⟨i, hi, hi'⟩ := hatt.exists_insert
      cases h.coherent.unique _ hi _ htarget (hi'.trans hid)
    refine hr.deletes d.targetId d.opId ((h.delete_mem _ _).2 ⟨d, hd, rfl, rfl, hnode⟩) target ?_
    rw [hid]
    exact htarget
  · intro hno
    refine ⟨fun id hid => ?_, fun dependency id hid d hd => ?_, fun dependency id hid d hd => ?_⟩
    · rcases h.unresolved_iff.1 hid with ⟨op, hop, rfl, hatt⟩ | ⟨op, hop, rfl, hatt⟩
      · rw [h.coherent.attached_iff hop, not_or] at hatt
        exact ⟨_, hop, h.leadsToUnknown hatt.1 hatt.2 (h.coherent.anchor op hop)⟩
      · have hvalid := h.coherent.valid _ hop
        have hroot : op.targetId ≠ ROOT_ID := (validateOperation_iff.1 hvalid).2.2.2.2
        refine ⟨_, hop, h.leadsToUnknown hroot hatt fun d hd he => ?_⟩
        exact hno ⟨op, d, hop, hd, he⟩
    · obtain ⟨op, hop, -, hafter, -⟩ := (h.insert_mem _ _).1 hid
      exact h.coherent.anchor op hop d (h.known_ops hd) (hafter.trans (h.known_id _ _ hd).symm)
    · obtain ⟨op, hop, -, htarget, -⟩ := (h.delete_mem _ _).1 hid
      exact hno ⟨op, d, hop, h.known_ops hd, htarget.trans (h.known_id _ _ hd).symm⟩

end

/-! ## Runs -/

/-- The replica after an `apply`, whether or not it throws. -/
def step (r : TextReplica) (op : TextOperation) : TextReplica := (r.apply op).1

/-- A delete comes in, valid, new and not the anchor of a known insert, that targets itself or a
known delete, or is the target of a known delete. -/
def StrandsDelete (r : TextReplica) (op : TextOperation) : Prop :=
  ∃ d : DeleteOperation, op = .delete d ∧ ValidOperation op ∧
    r.knownOperations.get? d.opId = none ∧ (∀ i : InsertOperation, .insert i ∈ r.ops → i.afterId ≠ d.opId) ∧
    (d.targetId = d.opId ∨ ∃ known : DeleteOperation, .delete known ∈ r.ops ∧
      (d.targetId = known.opId ∨ known.targetId = d.opId))

theorem targetsDelete_insert {S : Set TextOperation} {op : TextOperation} :
    TargetsDelete (insert op S) ↔ TargetsDelete S ∨ ∃ d : DeleteOperation, op = .delete d ∧
      (d.targetId = d.opId ∨ ∃ known : DeleteOperation, .delete known ∈ S ∧
        (d.targetId = known.opId ∨ known.targetId = d.opId)) := by
  constructor
  · rintro ⟨d, target, hd | hd, htarget | htarget, hid⟩
    · rw [← hd] at htarget
      cases htarget
      exact Or.inr ⟨d, hd.symm, Or.inl hid⟩
    · exact Or.inr ⟨d, hd.symm, Or.inr ⟨target, htarget, Or.inl hid⟩⟩
    · exact Or.inr ⟨target, htarget.symm, Or.inr ⟨d, hd, Or.inr hid⟩⟩
    · exact Or.inl ⟨d, target, hd, htarget, hid⟩
  · rintro (⟨d, target, hd, htarget, hid⟩ | ⟨d, rfl, hid | ⟨known, hknown, hid | hid⟩⟩)
    · exact ⟨d, target, Or.inr hd, Or.inr htarget, hid⟩
    · exact ⟨d, d, Or.inl rfl, Or.inl rfl, hid⟩
    · exact ⟨d, known, Or.inl rfl, Or.inr hknown, hid⟩
    · exact ⟨known, d, Or.inr hknown, Or.inl rfl, hid⟩

/-- **Unresolved operations stay resolvable** in a run of `apply` calls exactly if no call is given a
delete, which it accepts, that targets a delete or is the target of one. -/
theorem resolvable_iff_never (calls : List TextOperation) :
    Runs.Always step Resolvable empty calls ↔ Runs.Never step StrandsDelete empty calls := by
  refine Runs.always_iff_never (I := Inv) (fun r op h => apply_inv h op)
    (fun r op h hr hgood => ?_) (fun r op h hr hbad => ?_) .empty ?_
  · have hnext : Inv (step r op) := apply_inv h op
    rw [hnext.resolvable_iff]
    rw [h.resolvable_iff] at hr
    by_cases hold : op ∈ r.ops
    · rw [step, apply_known h hold]
      exact hr
    rcases apply_spec h op with ⟨r', status, heq, hc, -, hops⟩ | ⟨e, heq, -⟩
    · rw [step, heq, hops, targetsDelete_insert, not_or]
      refine ⟨hr, fun ⟨d, hd, hself⟩ => hgood ⟨d, hd, hc.valid op (Or.inl rfl), ?_, ?_, hself⟩⟩
      · cases hk : r.knownOperations.get? d.opId with
        | none => rfl
        | some known =>
          have hid : known.opId = op.opId := (h.known_id _ _ hk).trans (by rw [hd]; rfl)
          have heq := hc.unique known (Or.inr (h.known_ops hk)) op (Or.inl rfl) hid
          exact absurd (heq ▸ h.known_ops hk) hold
      · exact fun i hi => hc.anchor i (Or.inr hi) d (Or.inl hd.symm)
    · rw [step, heq]
      exact hr
  · have hnext : Inv (step r op) := apply_inv h op
    rw [hnext.resolvable_iff, not_not]
    obtain ⟨d, rfl, hv, hfresh, hanchors, hself⟩ := hbad
    have hadmissible : Coherent (insert (.delete d) r.ops) :=
      (coherent_insert_iff h.coherent hv (fresh_of_get?_none hfresh)).2 hanchors
    obtain ⟨r', heq, -, hk⟩ := apply_new h hv hfresh hadmissible
    rw [step, heq, ops_of_known hfresh hk, targetsDelete_insert]
    exact Or.inr ⟨d, rfl, hself⟩
  · rw [Inv.empty.resolvable_iff, ops_empty]
    rintro ⟨d, target, hd, -⟩
    cases hd

/-- Two deletes, the first of which targets the second: the first waits for ever. -/
theorem delete_waits_for_delete :
    let first : TextOperation := .delete ⟨js "B:1", js "B", 1, 1, js "A:1"⟩
    let second : TextOperation := .delete ⟨js "A:1", js "A", 1, 2, js "C:1"⟩
    ¬ Runs.Always step Resolvable empty [first, second] := by
  intro first second h
  have hwaits : js "B:1" ∈ waiting
      (Runs.run step empty [first, second]).pendingDeletesByTarget (js "A:1") := by
    decide +kernel
  have hknown : (Runs.run step empty [first, second]).knownOperations.get? (js "A:1") =
      some second := by
    decide +kernel
  exact h.last.deletes _ _ hwaits _ hknown

end TextReplica

end LocalFirst
