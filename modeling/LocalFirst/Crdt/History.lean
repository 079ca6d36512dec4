import Mathlib.Data.Set.Insert
import LocalFirst.Crdt.Operation
import LocalFirst.Lib.Forest

/-!
# Sets of operations

What a replica is for: a set of operations determines a document.  This file says which sets
of operations make sense together and which of their inserts are part of the document, with
no reference to how a replica stores them or in which order they arrived.

* `Coherent` — valid operations, one per identity, no anchor cycle, no insert anchored on a
  delete.
* `Coherent.anti` — a part of a coherent set is coherent.
* `coherent_insert_iff` — when one more operation keeps a set coherent.
* `attached_iff` — an insert is attached exactly when its anchor is.
-/

set_option autoImplicit false

namespace LocalFirst

/-- `x` is an insert of the set and `y` is its anchor. -/
def AnchoredOn (S : Set TextOperation) (x y : JsString) : Prop :=
  ∃ op : InsertOperation, .insert op ∈ S ∧ op.opId = x ∧ op.afterId = y

/-- The anchor chain of `x` through the inserts of the set reaches `ROOT`. -/
def Attached (S : Set TextOperation) (x : JsString) : Prop := Rooted (AnchoredOn S) ROOT_ID x

/-- Some delete of the set targets `x`. -/
def Tombstoned (S : Set TextOperation) (x : JsString) : Prop :=
  ∃ op : DeleteOperation, .delete op ∈ S ∧ op.targetId = x

/-- The operations of the set can belong to one document. -/
structure Coherent (S : Set TextOperation) : Prop where
  valid : ∀ op ∈ S, ValidOperation op
  unique : ∀ a ∈ S, ∀ b ∈ S, a.opId = b.opId → a = b
  acyclic : Acyclic (AnchoredOn S)
  anchor : ∀ i, .insert i ∈ S → ∀ d, .delete d ∈ S → i.afterId ≠ d.opId

variable {S T : Set TextOperation}

theorem AnchoredOn.mono (h : S ⊆ T) {x y : JsString} (hl : AnchoredOn S x y) :
    AnchoredOn T x y := by
  obtain ⟨op, hm, hx, hy⟩ := hl
  exact ⟨op, h hm, hx, hy⟩

theorem Attached.mono (h : S ⊆ T) {x : JsString} (hx : Attached S x) : Attached T x :=
  Rooted.mono (fun _ _ => AnchoredOn.mono h) hx

/-- A part of a coherent set is coherent. -/
theorem Coherent.anti (hsub : S ⊆ T) (h : Coherent T) : Coherent S where
  valid op hop := h.valid op (hsub hop)
  unique a ha b hb := h.unique a (hsub ha) b (hsub hb)
  acyclic := h.acyclic.anti fun _ _ => AnchoredOn.mono hsub
  anchor i hi d hd := h.anchor i (hsub hi) d (hsub hd)

theorem coherent_empty : Coherent ∅ where
  valid _ h := by cases h
  unique _ h := by cases h
  acyclic x hx := by
    obtain ⟨_, ⟨_, hm, _⟩, _⟩ := Relation.TransGen.head'_iff.1 hx
    cases hm
  anchor _ h := by cases h

namespace Coherent

variable (h : Coherent S)
include h

theorem functional : Functional (AnchoredOn S) := by
  rintro x y z ⟨op, hop, rfl, rfl⟩ ⟨op', hop', hx, rfl⟩
  have := h.unique _ hop _ hop' (by simpa using hx.symm)
  cases this
  rfl

theorem root_not_anchored (y : JsString) : ¬ AnchoredOn S ROOT_ID y := by
  rintro ⟨op, hop, hx, -⟩
  exact (h.valid _ hop).opId_ne_root hx

theorem reach_root {x : JsString} (hr : Relation.ReflTransGen (AnchoredOn S) ROOT_ID x) :
    x = ROOT_ID := by
  rcases Relation.ReflTransGen.cases_head hr with rfl | ⟨y, hy, -⟩
  · rfl
  · exact absurd hy (h.root_not_anchored y)

/-- An insert is attached exactly when its anchor is `ROOT` or attached. -/
theorem attached_iff {op : InsertOperation} (hop : .insert op ∈ S) :
    Attached S op.opId ↔ op.afterId = ROOT_ID ∨ Attached S op.afterId := by
  constructor
  · intro ha
    exact Rooted.parent h.functional ha ⟨op, hop, rfl, rfl⟩
  · rintro (hr | ha)
    · exact .base ⟨op, hop, rfl, hr⟩
    · exact .step ⟨op, hop, rfl, rfl⟩ ha

end Coherent

theorem Attached.exists_insert {x : JsString} (h : Attached S x) :
    ∃ op : InsertOperation, .insert op ∈ S ∧ op.opId = x := by
  obtain ⟨_, op, hop, hx, -⟩ := Rooted.exists_link h
  exact ⟨op, hop, hx⟩

/-! ## One more operation -/

theorem anchoredOn_insert (op : InsertOperation) (a b : JsString) :
    AnchoredOn (insert (.insert op) S) a b ↔ AnchoredOn S a b ∨ (a = op.opId ∧ b = op.afterId) := by
  constructor
  · rintro ⟨i, hi | hi, rfl, rfl⟩
    · cases hi; exact Or.inr ⟨rfl, rfl⟩
    · exact Or.inl ⟨i, hi, rfl, rfl⟩
  · rintro (⟨i, hi, rfl, rfl⟩ | ⟨rfl, rfl⟩)
    · exact ⟨i, Or.inr hi, rfl, rfl⟩
    · exact ⟨op, Or.inl rfl, rfl, rfl⟩

theorem anchoredOn_delete (op : DeleteOperation) (a b : JsString) :
    AnchoredOn (insert (.delete op) S) a b ↔ AnchoredOn S a b := by
  constructor
  · rintro ⟨i, hi | hi, rfl, rfl⟩
    · cases hi
    · exact ⟨i, hi, rfl, rfl⟩
  · exact AnchoredOn.mono (Set.subset_insert _ _)

theorem tombstoned_insert (op : InsertOperation) (x : JsString) :
    Tombstoned (insert (.insert op) S) x ↔ Tombstoned S x := by
  constructor
  · rintro ⟨d, hd | hd, rfl⟩
    · cases hd
    · exact ⟨d, hd, rfl⟩
  · rintro ⟨d, hd, rfl⟩
    exact ⟨d, Or.inr hd, rfl⟩

theorem tombstoned_delete (op : DeleteOperation) (x : JsString) :
    Tombstoned (insert (.delete op) S) x ↔ Tombstoned S x ∨ op.targetId = x := by
  constructor
  · rintro ⟨d, hd | hd, rfl⟩
    · cases hd; exact Or.inr rfl
    · exact Or.inl ⟨d, hd, rfl⟩
  · rintro (⟨d, hd, rfl⟩ | rfl)
    · exact ⟨d, Or.inr hd, rfl⟩
    · exact ⟨op, Or.inl rfl, rfl⟩

/-- What an operation of a fresh identity must satisfy to join the set. -/
def Admissible (S : Set TextOperation) : TextOperation → Prop
  | .insert op => ¬ Relation.ReflTransGen (AnchoredOn S) op.afterId op.opId ∧
      ∀ d, .delete d ∈ S → op.afterId ≠ d.opId
  | .delete op => ∀ i, .insert i ∈ S → i.afterId ≠ op.opId

theorem unique_insert (h : Coherent S) {op : TextOperation} (hfresh : ∀ o ∈ S, o.opId ≠ op.opId) :
    ∀ a ∈ insert op S, ∀ b ∈ insert op S, a.opId = b.opId → a = b := by
  rintro a (rfl | ha) b (rfl | hb) hab
  · rfl
  · exact absurd hab.symm (hfresh b hb)
  · exact absurd hab (hfresh a ha)
  · exact h.unique a ha b hb hab

/-- **When one more operation keeps the set coherent.** -/
theorem coherent_insert_iff (h : Coherent S) {op : TextOperation} (hv : ValidOperation op)
    (hfresh : ∀ o ∈ S, o.opId ≠ op.opId) : Coherent (insert op S) ↔ Admissible S op := by
  have hvalid : ∀ o ∈ insert op S, ValidOperation o := by
    rintro o (rfl | ho)
    · exact hv
    · exact h.valid o ho
  have huniq := unique_insert h hfresh
  cases op with
  | insert op =>
    have hac := acyclic_extend_iff (anchoredOn_insert (S := S) op)
    constructor
    · intro hc
      exact ⟨(hac.1 hc.acyclic).2, fun d hd => hc.anchor op (Or.inl rfl) d (Or.inr hd)⟩
    · rintro ⟨hreach, hdel⟩
      refine ⟨hvalid, huniq, hac.2 ⟨h.acyclic, hreach⟩, ?_⟩
      rintro i (hi | hi) d (hd | hd)
      · cases hd
      · cases hi; exact hdel d hd
      · cases hd
      · exact h.anchor i hi d hd
  | delete op =>
    constructor
    · intro hc i hi
      exact hc.anchor i (Or.inr hi) op (Or.inl rfl)
    · intro hins
      refine ⟨hvalid, huniq, h.acyclic.anti fun a b => (anchoredOn_delete op a b).1, ?_⟩
      rintro i (hi | hi) d (hd | hd)
      · cases hi
      · cases hi
      · cases hd; exact hins i hi
      · exact h.anchor i hi d hd

end LocalFirst
