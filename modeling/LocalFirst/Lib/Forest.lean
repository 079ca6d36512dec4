import Mathlib.Data.Finite.Defs
import Mathlib.Data.Fintype.Card
import Mathlib.Data.Set.Finite.Basic
import Mathlib.Logic.Relation

/-!
# Functional links towards a root

A relation `link x y` reads "the parent of `x` is `y`".  Every node has at most one parent,
and the root has none.

* `Rooted` — the parent chain of a node reaches the root.
* `Rooted.not_cycle` — a rooted node lies on no cycle.
* `Acyclic.exists_end` — without cycles every chain ends.
* `acyclic_extend_iff` — a fresh link `x → p` keeps the links acyclic exactly when `x` is not
  reachable from `p`.
-/

set_option autoImplicit false

namespace LocalFirst

open Relation

variable {α : Type}

/-- The parent chain of the node reaches the root. -/
inductive Rooted (link : α → α → Prop) (root : α) : α → Prop
  | base {x : α} (h : link x root) : Rooted link root x
  | step {x y : α} (h : link x y) (hy : Rooted link root y) : Rooted link root x

/-- No node is its own ancestor. -/
def Acyclic (link : α → α → Prop) : Prop := ∀ x, ¬ TransGen link x x

/-- Every node has at most one parent. -/
def Functional (link : α → α → Prop) : Prop := ∀ x y z, link x y → link x z → y = z

variable {link link' : α → α → Prop} {root x y p : α}

theorem Rooted.exists_link (h : Rooted link root x) : ∃ y, link x y := by
  cases h with
  | base h => exact ⟨_, h⟩
  | step h _ => exact ⟨_, h⟩

theorem Rooted.mono (hsub : ∀ a b, link a b → link' a b) (h : Rooted link root x) :
    Rooted link' root x := by
  induction h with
  | base h => exact .base (hsub _ _ h)
  | step h _ ih => exact .step (hsub _ _ h) ih

/-- The parent of a rooted node is the root or rooted. -/
theorem Rooted.parent (hf : Functional link) (h : Rooted link root x) (hl : link x y) :
    y = root ∨ Rooted link root y := by
  cases h with
  | base hb => exact Or.inl (hf _ _ _ hl hb)
  | step hs hy => rw [hf _ _ _ hl hs]; exact Or.inr hy

/-- Every proper ancestor of a rooted node is the root or rooted. -/
theorem Rooted.ancestor (hf : Functional link) (hroot : ∀ z, ¬ link root z)
    (h : Rooted link root x) (hxy : TransGen link x y) : y = root ∨ Rooted link root y := by
  induction hxy with
  | single hl => exact h.parent hf hl
  | tail _ hl ih =>
    rcases ih with rfl | hy
    · exact absurd hl (hroot _)
    · exact hy.parent hf hl

/-- **A rooted node lies on no cycle.** -/
theorem Rooted.not_cycle (hf : Functional link) (hroot : ∀ z, ¬ link root z)
    (h : Rooted link root x) : ¬ TransGen link x x := by
  induction h with
  | base hb =>
    intro hc
    obtain ⟨z, hz, hrest⟩ := TransGen.head'_iff.1 hc
    obtain rfl := hf _ _ _ hz hb
    rcases ReflTransGen.cases_head hrest with rfl | ⟨w, hw, -⟩
    · exact hroot _ hz
    · exact hroot _ hw
  | step hs _ ih =>
    intro hc
    obtain ⟨z, hz, hrest⟩ := TransGen.head'_iff.1 hc
    obtain rfl := hf _ _ _ hz hs
    exact ih (TransGen.tail' hrest hs)

theorem Acyclic.anti (hsub : ∀ a b, link a b → link' a b) (h : Acyclic link') : Acyclic link :=
  fun x hc => h x (TransGen.mono hsub _ _ hc)

/-- **Without cycles every chain ends**, when finitely many nodes have a parent. -/
theorem Acyclic.exists_end (h : Acyclic link) (hfinite : {x | ∃ y, link x y}.Finite) (x : α) :
    ∃ y, ReflTransGen link x y ∧ ∀ z, ¬ link y z := by
  have : Finite {x // ∃ y, link x y} := hfinite
  have : IsTrans {x // ∃ y, link x y} (fun a b => TransGen link b.1 a.1) :=
    ⟨fun _ _ _ hab hbc => hbc.trans hab⟩
  have : Std.Irrefl (fun a b : {x // ∃ y, link x y} => TransGen link b.1 a.1) := ⟨fun a => h a.1⟩
  have hwf := Finite.wellFounded_of_trans_of_irrefl
    (fun a b : {x // ∃ y, link x y} => TransGen link b.1 a.1)
  by_cases hx : ∃ y, link x y
  swap
  · exact ⟨x, .refl, fun z hz => hx ⟨z, hz⟩⟩
  refine hwf.induction (C := fun a => ∃ y, ReflTransGen link a.1 y ∧ ∀ z, ¬ link y z) ⟨x, hx⟩ ?_
  rintro ⟨a, b, hab⟩ ih
  by_cases hb : ∃ y, link b y
  · obtain ⟨y, hy, hend⟩ := ih ⟨b, hb⟩ (.single hab)
    exact ⟨y, .head hab hy, hend⟩
  · exact ⟨b, .single hab, fun z hz => hb ⟨z, hz⟩⟩

/-! ## A fresh link -/

section Extend

variable (hext : ∀ a b, link' a b ↔ link a b ∨ (a = x ∧ b = p))
include hext

theorem reach_of_extend (hp : ¬ ReflTransGen link p x) {b : α} (h : ReflTransGen link' p b) :
    ReflTransGen link p b := by
  induction h with
  | refl => exact .refl
  | tail _ hl ih =>
    rcases (hext _ _).1 hl with hl | ⟨rfl, -⟩
    · exact ih.tail hl
    · exact absurd ih hp

theorem transGen_of_extend {a b : α} (h : TransGen link' a b) :
    TransGen link a b ∨ (ReflTransGen link a x ∧ ReflTransGen link' p b) := by
  induction h with
  | single hl =>
    rcases (hext _ _).1 hl with hl | ⟨rfl, rfl⟩
    · exact Or.inl (.single hl)
    · exact Or.inr ⟨.refl, .refl⟩
  | tail _ hl ih =>
    rcases ih with ih | ⟨h1, h2⟩
    · rcases (hext _ _).1 hl with hl | ⟨rfl, rfl⟩
      · exact Or.inl (ih.tail hl)
      · exact Or.inr ⟨ih.to_reflTransGen, .refl⟩
    · exact Or.inr ⟨h1, h2.tail hl⟩

/-- **A fresh link closes a cycle exactly when it points below itself.** -/
theorem acyclic_extend_iff : Acyclic link' ↔ Acyclic link ∧ ¬ ReflTransGen link p x := by
  constructor
  · intro h
    refine ⟨h.anti fun a b hl => (hext a b).2 (Or.inl hl), fun hr => ?_⟩
    have hmono : ReflTransGen link' p x := 
      ReflTransGen.mono (fun a b hl => (hext a b).2 (Or.inl hl)) _ _ hr
    exact h x (TransGen.head' ((hext x p).2 (Or.inr ⟨rfl, rfl⟩)) hmono)
  · rintro ⟨hac, hp⟩ y hc
    rcases transGen_of_extend hext hc with hc | ⟨h1, h2⟩
    · exact hac y hc
    · exact hp ((reach_of_extend hext hp h2).trans h1)

end Extend

end LocalFirst
