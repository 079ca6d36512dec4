import LocalFirst.Lib.Sequenced
import Mathlib.Data.List.Induction
import Mathlib.Data.Set.Basic

/-!
# Lists that are closed under dependencies

An element may need a key that another element gives.  A list is closed over a set of elements
that are there already, if each of its elements is supplied by the set or by those before it.

* `closedOver_append` — a list, and a list on top of it.
* `ClosedOver.mem` — each element is supplied in the end.
* `ClosedOver.of_sorted` — a list that is sorted by a rank that grows along the dependencies.
* `ClosedOver.filter` — the elements of one kind.
-/

set_option autoImplicit false

namespace LocalFirst

variable {α κ : Type} (needs gives : α → Option κ)

/-- What the element needs is given in the set. -/
def Supplied (S : Set α) (a : α) : Prop := ∀ k, needs a = some k → ∃ x ∈ S, gives x = some k

/-- Each element is supplied by the base or by the elements before it. -/
def ClosedOver (base : Set α) (l : List α) : Prop :=
  ∀ before a after, l = before ++ a :: after → Supplied needs gives (base ∪ {x | x ∈ before}) a

variable {needs gives} {S S' : Set α} {l l' : List α} {a : α}

theorem Supplied.mono (h : Supplied needs gives S a) (hsub : S ⊆ S') : Supplied needs gives S' a := by
  intro k hk
  obtain ⟨x, hx, hgives⟩ := h k hk
  exact ⟨x, hsub hx, hgives⟩

theorem ClosedOver.mono (h : ClosedOver needs gives S l) (hsub : S ⊆ S') :
    ClosedOver needs gives S' l :=
  fun before a after heq => (h before a after heq).mono (Set.union_subset_union_left _ hsub)

@[simp] theorem closedOver_nil : ClosedOver needs gives S [] := by
  intro before a after heq
  simp at heq

/-- **A list on top of a list.** -/
theorem closedOver_append : ClosedOver needs gives S (l ++ l') ↔
    ClosedOver needs gives S l ∧ ClosedOver needs gives (S ∪ {x | x ∈ l}) l' := by
  have hunion : ∀ before : List α, S ∪ {x | x ∈ l ++ before} = S ∪ {x | x ∈ l} ∪ {x | x ∈ before} := by
    intro before
    ext x
    simp [or_assoc]
  constructor
  · intro h
    refine ⟨fun before a after heq => ?_, fun before a after heq => ?_⟩
    · exact h before a (after ++ l') (by rw [heq]; simp)
    · rw [← hunion]
      exact h (l ++ before) a after (by rw [heq]; simp)
  · rintro ⟨h, h'⟩ before a after heq
    rcases split_append heq with ⟨rest, hl⟩ | ⟨before', hbefore, hl'⟩
    · exact h before a rest hl
    · rw [hbefore, hunion]
      exact h' before' a after hl'

@[simp] theorem closedOver_singleton : ClosedOver needs gives S [a] ↔ Supplied needs gives S a := by
  constructor
  · intro h
    exact (h [] a [] rfl).mono (by simp)
  · intro h before b after heq
    obtain ⟨rfl, rfl, rfl⟩ : before = [] ∧ b = a ∧ after = [] := by
      cases before <;> simp_all
    exact h.mono Set.subset_union_left

/-- In the end every element is supplied. -/
theorem ClosedOver.mem (h : ClosedOver needs gives S l) (ha : a ∈ l) :
    Supplied needs gives (S ∪ {x | x ∈ l}) a := by
  obtain ⟨before, after, rfl⟩ := List.append_of_mem ha
  refine (h before a after rfl).mono (Set.union_subset_union_right _ fun x hx => ?_)
  exact List.mem_append_left _ hx

/-- **A list that is sorted by a rank that grows along the dependencies** is closed. -/
theorem ClosedOver.of_sorted {rank : α → Int} (hsorted : l.Pairwise fun x y => rank x ≤ rank y)
    (h : ∀ a ∈ l, Supplied needs gives (S ∪ {x | x ∈ l ∧ rank x < rank a}) a) :
    ClosedOver needs gives S l := by
  rintro before a after rfl
  refine (h a (by simp)).mono (Set.union_subset_union_right _ fun x ⟨hx, hlt⟩ => ?_)
  rcases List.mem_append.1 hx with hx | hx
  · exact hx
  · -- what is not before `a` has no smaller rank
    have htail := (List.pairwise_cons.1 (List.pairwise_append.1 hsorted).2.1).1
    rcases List.mem_cons.1 hx with rfl | hx
    · exact absurd hlt (lt_irrefl _)
    · have := htail x hx
      omega

/-- The elements of one kind, each supplied by those of its kind before it. -/
theorem ClosedOver.filter {p : α → Bool}
    (h : ∀ before a after, l = before ++ a :: after → p a = true →
      Supplied needs gives (S ∪ {x | x ∈ before ∧ p x = true}) a) :
    ClosedOver needs gives S (l.filter p) := by
  induction l using List.reverseRecOn with
  | nil => exact closedOver_nil
  | append_singleton l a ih =>
    rw [List.filter_append, closedOver_append]
    refine ⟨ih fun before b after heq hb => h before b (after ++ [a]) (by simp [heq]) hb, ?_⟩
    by_cases ha : p a = true
    · rw [List.filter_cons_of_pos ha, List.filter_nil, closedOver_singleton]
      exact (h l a [] rfl ha).mono (Set.union_subset_union_right _ fun x hx => List.mem_filter.2 hx)
    · rw [List.filter_cons_of_neg ha, List.filter_nil]
      exact closedOver_nil

end LocalFirst
