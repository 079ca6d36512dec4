import Mathlib.Data.List.Sort

/-!
# Sorting by a comparator

`Array.prototype.sort` with a comparator that returns a signed number.  The result of a
stable sort is `List.insertionSort`; when the comparator separates the elements, it depends
only on which elements are sorted (`sortBy_congr`).
-/

set_option autoImplicit false

namespace LocalFirst

variable {α β : Type}

/-- Sort by a comparator whose non-positive values mean "in order". -/
def sortBy (compare : α → α → Int) (l : List α) : List α :=
  l.insertionSort (fun a b => compare a b ≤ 0)

theorem sortBy_perm (compare : α → α → Int) (l : List α) : (sortBy compare l).Perm l :=
  List.perm_insertionSort _ l

@[simp] theorem mem_sortBy {compare : α → α → Int} {l : List α} {a : α} :
    a ∈ sortBy compare l ↔ a ∈ l := (sortBy_perm compare l).mem_iff

/-- A comparator that compares keys in a linear order. -/
structure ComparesKey [LinearOrder β] (compare : α → α → Int) (key : α → β) : Prop where
  le_zero : ∀ a b, compare a b ≤ 0 ↔ key a ≤ key b

namespace ComparesKey

variable [LinearOrder β] {compare : α → α → Int} {key : α → β}

theorem sortBy_pairwise (h : ComparesKey compare key) (l : List α) :
    (sortBy compare l).Pairwise (fun a b => key a ≤ key b) := by
  have total : Std.Total (fun a b => compare a b ≤ 0) :=
    ⟨fun a b => by rw [h.le_zero, h.le_zero]; exact le_total _ _⟩
  have trans : IsTrans α (fun a b => compare a b ≤ 0) :=
    ⟨fun a b c hab hbc => by rw [h.le_zero] at *; exact le_trans hab hbc⟩
  exact (List.pairwise_insertionSort (fun a b => compare a b ≤ 0) l).imp
    fun hab => (h.le_zero _ _).1 hab

/-- **A sort of separated elements depends only on the elements.** -/
theorem sortBy_congr (h : ComparesKey compare key) {l l' : List α} (hp : l.Perm l')
    (hinj : ∀ a ∈ l, ∀ b ∈ l, key a = key b → a = b) : sortBy compare l = sortBy compare l' := by
  have hperm : (sortBy compare l).Perm (sortBy compare l') :=
    (sortBy_perm compare l).trans (hp.trans (sortBy_perm compare l').symm)
  refine hperm.eq_of_pairwise ?_ (h.sortBy_pairwise l) (h.sortBy_pairwise l')
  intro a b ha hb hab hba
  exact hinj a (mem_sortBy.1 ha) b (hp.mem_iff.2 (mem_sortBy.1 hb)) (le_antisymm hab hba)

/-- Sorting separated elements gives a strictly increasing list. -/
theorem sortBy_strict (h : ComparesKey compare key) {l : List α} (hn : l.Nodup)
    (hinj : ∀ a ∈ l, ∀ b ∈ l, key a = key b → a = b) :
    (sortBy compare l).Pairwise (fun a b => key a < key b) := by
  have hnd : (sortBy compare l).Nodup := (sortBy_perm compare l).nodup_iff.2 hn
  refine (List.Pairwise.and_mem.1 ((h.sortBy_pairwise l).and hnd)).imp ?_
  intro a b hab
  obtain ⟨ha, hb, hle, hne⟩ := hab
  exact lt_of_le_of_ne hle fun he => hne (hinj a (mem_sortBy.1 ha) b (mem_sortBy.1 hb) he)

end ComparesKey

/-- Insertion of a new key keeps a strictly increasing list strictly increasing. -/
theorem orderedInsert_strict [LinearOrder β] {key : α → β} {a : α} : ∀ {l : List α},
    l.Pairwise (fun x y => key x < key y) → (∀ b ∈ l, key b ≠ key a) →
      (l.orderedInsert (fun x y => key x ≤ key y) a).Pairwise (fun x y => key x < key y)
  | [], _, _ => List.pairwise_singleton _ a
  | b :: l, hs, hne => by
    obtain ⟨hb, hl⟩ := List.pairwise_cons.1 hs
    rw [List.orderedInsert_cons]
    split
    · rename_i hle
      have hab : key a < key b := lt_of_le_of_ne hle (Ne.symm (hne b List.mem_cons_self))
      refine List.pairwise_cons.2 ⟨fun c hc => ?_, hs⟩
      rcases List.mem_cons.1 hc with rfl | hc
      · exact hab
      · exact hab.trans (hb c hc)
    · rename_i hlt
      refine List.pairwise_cons.2 ⟨fun c hc => ?_, ?_⟩
      · rcases (List.mem_orderedInsert _).1 hc with rfl | hc
        · exact lt_of_not_ge hlt
        · exact hb c hc
      · exact orderedInsert_strict hl fun c hc => hne c (List.mem_cons_of_mem _ hc)

/-- Strictly increasing lists with the same members are equal. -/
theorem eq_of_strict_of_mem_iff [LinearOrder β] {key : α → β} {l l' : List α}
    (h : l.Pairwise (fun a b => key a < key b)) (h' : l'.Pairwise (fun a b => key a < key b))
    (hm : ∀ a, a ∈ l ↔ a ∈ l') : l = l' := by
  have irrefl : Std.Irrefl (fun a b : α => key a < key b) := ⟨fun a => lt_irrefl _⟩
  have antisymm : Std.Antisymm (fun a b : α => key a < key b) :=
    ⟨fun _ _ hab hba => absurd hab (lt_asymm hba)⟩
  exact List.Pairwise.eq_of_mem_iff h h' hm

end LocalFirst
