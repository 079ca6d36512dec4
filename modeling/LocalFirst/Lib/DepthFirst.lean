import Mathlib.Data.List.Nodup
import Mathlib.Logic.Relation

/-!
# Depth-first order

The order in which a walk with an explicit stack meets the nodes of a forest, each before its
children, and what becomes of it when a node without children is put in front of the children of
another.

* `DepthFirst` — the walk from a stack.
* `DepthFirst.unique` — it meets the nodes in one order.
* `DepthFirst.congr` — the order depends on the children of the nodes it meets.
* `DepthFirst.graft` — a new first child comes right after its parent.
* `PreOrder` — the recursive walk; the walk with a stack is the same (`PreOrder.iff_depthFirst`).
* `PreOrder.block` — what is below a node stands together, right after it.
* `PreOrder.apart` — what is below one sibling stands before what is below a later one.
* `PreOrder.filter` — the walk of a part of the forest that is closed upwards.
-/

set_option autoImplicit false

namespace LocalFirst

variable {α : Type} {children children' : α → List α}

/-- The walk that starts from `stack` meets the nodes of `order`. -/
inductive DepthFirst (children : α → List α) : List α → List α → Prop
  | done : DepthFirst children [] []
  | visit {x : α} {stack order : List α} (rest : DepthFirst children (children x ++ stack) order) :
      DepthFirst children (x :: stack) (x :: order)

namespace DepthFirst

theorem unique {stack order : List α} (h : DepthFirst children stack order) :
    ∀ {order' : List α}, DepthFirst children stack order' → order = order' := by
  induction h with
  | done =>
    intro order' h'
    cases h'
    rfl
  | visit _ ih =>
    intro order' h'
    cases h' with
    | visit rest' => rw [ih rest']

/-- The order depends on the children of the nodes that are met. -/
theorem congr {stack order : List α} (h : DepthFirst children stack order)
    (hsame : ∀ x ∈ order, children' x = children x) : DepthFirst children' stack order := by
  induction h with
  | done => exact .done
  | @visit x stack order _ ih =>
    refine .visit ?_
    rw [hsame x List.mem_cons_self]
    exact ih fun y hy => hsame y (List.mem_cons_of_mem x hy)

/-- **A new first child comes right after its parent.** -/
theorem graft {stack order : List α} {parent child : α} (h : DepthFirst children stack order)
    (hnew : child ∉ order) (hnodup : order.Nodup) (hleaf : children' child = [])
    (hparent : children' parent = child :: children parent)
    (hother : ∀ x ∈ order, x ≠ parent → children' x = children x) :
    ∀ {before after : List α}, order = before ++ parent :: after →
      DepthFirst children' stack (before ++ parent :: child :: after) := by
  induction h with
  | done =>
    intro before after he
    simp at he
  | @visit x stack order rest ih =>
    intro before after he
    rw [List.nodup_cons] at hnodup
    cases before with
    | nil =>
      -- the parent is met now, and not again
      obtain ⟨rfl, rfl⟩ := List.cons.inj he
      have hrest : DepthFirst children' (children x ++ stack) order :=
        rest.congr fun y hy => hother y (List.mem_cons_of_mem x hy) fun hyx => by
          rw [hyx] at hy
          exact hnodup.1 hy
      refine .visit ?_
      rw [hparent]
      refine .visit ?_
      rw [hleaf]
      exact hrest
    | cons y before =>
      obtain ⟨rfl, htail⟩ := List.cons.inj he
      have hx : x ≠ parent := by
        intro hxp
        rw [htail, hxp] at hnodup
        simp at hnodup
      refine .visit ?_
      rw [hother x List.mem_cons_self hx]
      exact ih (fun hm => hnew (List.mem_cons_of_mem x hm)) hnodup.2
        (fun y hy => hother y (List.mem_cons_of_mem x hy)) htail

end DepthFirst

/-! ## The recursive walk -/

/-- The recursive walk over the trees of a forest, from left to right: each node, then what is below
it. -/
inductive PreOrder (children : α → List α) : List α → List α → Prop
  | nil : PreOrder children [] []
  | cons {x : α} {siblings below after : List α} (hbelow : PreOrder children (children x) below)
      (hafter : PreOrder children siblings after) :
      PreOrder children (x :: siblings) (x :: (below ++ after))

/-- `y` is `x`, or below it. -/
abbrev Below (children : α → List α) (x y : α) : Prop :=
  Relation.ReflTransGen (fun parent child => child ∈ children parent) x y

namespace PreOrder

variable {forest order : List α}

theorem append {forest' order' : List α} (h : PreOrder children forest order)
    (h' : PreOrder children forest' order') :
    PreOrder children (forest ++ forest') (order ++ order') := by
  induction h with
  | nil => exact h'
  | cons hbelow _ _ ih =>
    rw [List.cons_append, List.cons_append, List.append_assoc]
    exact .cons hbelow ih

theorem split : ∀ {forest forest' order : List α}, PreOrder children (forest ++ forest') order →
    ∃ order₁ order₂, PreOrder children forest order₁ ∧ PreOrder children forest' order₂ ∧
      order = order₁ ++ order₂
  | [], _, order, h => ⟨[], order, .nil, h, rfl⟩
  | x :: forest, forest', _, h => by
    cases h with
    | cons hbelow hafter =>
      obtain ⟨order₁, order₂, h₁, h₂, rfl⟩ := split hafter
      exact ⟨_, order₂, .cons hbelow h₁, h₂, by simp⟩

theorem depthFirst (h : PreOrder children forest order) : ∀ {stack rest : List α},
    DepthFirst children stack rest → DepthFirst children (forest ++ stack) (order ++ rest) := by
  induction h with
  | nil => exact fun hrest => hrest
  | cons _ _ ihbelow ihafter =>
    intro stack rest hrest
    rw [List.cons_append, List.cons_append, List.append_assoc]
    exact .visit (ihbelow (ihafter hrest))

/-- **The walk with a stack is the recursive walk.** -/
theorem iff_depthFirst :
    PreOrder children forest order ↔ DepthFirst children forest order := by
  constructor
  · intro h
    have hwalk := h.depthFirst .done
    rwa [List.append_nil, List.append_nil] at hwalk
  · intro h
    induction h with
    | done => exact .nil
    | visit _ ih =>
      obtain ⟨below, after, hbelow, hafter, rfl⟩ := split ih
      exact .cons hbelow hafter

/-- The walk meets what is below the forest. -/
theorem mem_iff (h : PreOrder children forest order) {y : α} :
    y ∈ order ↔ ∃ x ∈ forest, Below children x y := by
  induction h with
  | nil => simp
  | @cons x siblings below after _ _ ihbelow ihafter =>
    rw [List.mem_cons, List.mem_append, ihbelow, ihafter]
    constructor
    · rintro (rfl | ⟨z, hz, hy⟩ | ⟨z, hz, hy⟩)
      · exact ⟨y, List.mem_cons_self, .refl⟩
      · exact ⟨x, List.mem_cons_self, .head hz hy⟩
      · exact ⟨z, List.mem_cons_of_mem _ hz, hy⟩
    · rintro ⟨z, hz, hy⟩
      rcases List.mem_cons.1 hz with rfl | hz
      · rcases Relation.ReflTransGen.cases_head hy with rfl | ⟨c, hc, hy⟩
        · exact Or.inl rfl
        · exact Or.inr (Or.inl ⟨c, hc, hy⟩)
      · exact Or.inr (Or.inr ⟨z, hz, hy⟩)

/-- **What is below a node stands together, right after it.** -/
theorem block (h : PreOrder children forest order) {x : α} (hx : x ∈ order) :
    ∃ before below after, order = before ++ x :: below ++ after ∧
      PreOrder children (children x) below := by
  induction h with
  | nil => cases hx
  | @cons y siblings below after hbelow _ ihbelow ihafter =>
    rcases List.mem_cons.1 hx with rfl | hx
    · exact ⟨[], below, after, rfl, hbelow⟩
    rcases List.mem_append.1 hx with hx | hx
    · obtain ⟨before, inner, rest, rfl, hinner⟩ := ihbelow hx
      exact ⟨y :: before, inner, rest ++ after, by simp, hinner⟩
    · obtain ⟨before, inner, rest, rfl, hinner⟩ := ihafter hx
      exact ⟨y :: (below ++ before), inner, rest, by simp, hinner⟩

/-- **What is below one tree stands before what is below a later one.** -/
theorem apart {before between after : List α} {p q : α}
    (h : PreOrder children (before ++ p :: (between ++ q :: after)) order) {x y : α}
    (hx : Below children p x) (hy : Below children q y) : [x, y].Sublist order := by
  obtain ⟨_, _, -, hp, rfl⟩ := split h
  cases hp with
  | @cons _ _ belowp rest hbelow hafter =>
    obtain ⟨mid, _, -, hq, rfl⟩ := split hafter
    have hmemx : x ∈ p :: belowp := by
      have hone : PreOrder children [p] (p :: (belowp ++ [])) := .cons hbelow .nil
      rw [List.append_nil] at hone
      exact hone.mem_iff.2 ⟨p, List.mem_cons_self, hx⟩
    have hmemy := List.mem_append_right mid (hq.mem_iff.2 ⟨q, List.mem_cons_self, hy⟩)
    have hboth := (List.singleton_sublist.2 hmemx).append (List.singleton_sublist.2 hmemy)
    exact hboth.trans (List.sublist_append_right _ _)

/-- **The walk of a part of the forest**: what is kept has its kept children, and nothing below what
is not kept is kept. -/
theorem filter {keep : α → Bool} (h : PreOrder children forest order)
    (hkept : ∀ x ∈ order, keep x = true → children' x = (children x).filter keep)
    (hdown : ∀ x ∈ order, keep x = false → ∀ y ∈ children x, keep y = false) :
    PreOrder children' (forest.filter keep) (order.filter keep) := by
  induction h with
  | nil => exact .nil
  | @cons x siblings below after _ _ ihbelow ihafter =>
    have hbelow := ihbelow
      (fun y hy => hkept y (List.mem_cons_of_mem _ (List.mem_append_left _ hy)))
      (fun y hy => hdown y (List.mem_cons_of_mem _ (List.mem_append_left _ hy)))
    have hafter := ihafter
      (fun y hy => hkept y (List.mem_cons_of_mem _ (List.mem_append_right _ hy)))
      (fun y hy => hdown y (List.mem_cons_of_mem _ (List.mem_append_right _ hy)))
    cases hx : keep x with
    | true =>
      rw [List.filter_cons_of_pos hx, List.filter_cons_of_pos hx, List.filter_append]
      rw [← hkept x List.mem_cons_self hx] at hbelow
      exact .cons hbelow hafter
    | false =>
      have hnil : (children x).filter keep = [] := by
        refine List.filter_eq_nil_iff.2 fun y hy => ?_
        rw [hdown x List.mem_cons_self hx y hy]
        exact Bool.false_ne_true
      rw [hnil] at hbelow
      have hx' : ¬ keep x = true := by rw [hx]; exact Bool.false_ne_true
      rw [List.filter_cons_of_neg hx', List.filter_cons_of_neg hx', List.filter_append]
      generalize List.filter keep below = kept at hbelow
      cases hbelow
      exact hafter

end PreOrder

end LocalFirst
