import Mathlib.Algebra.BigOperators.Group.List.Basic
import Mathlib.Order.Monotone.Basic
import Mathlib.Algebra.GroupWithZero.Nat

/-!
# Boundaries of a list of widths

Items of various widths are laid end to end.

* `boundary width l i` — the position at which item `i` of `l` starts.
* `ceilIndex width l o` — the number of items up to the one that covers position `o`.
* `ceilIndex_le_iff` — the two are adjoint on the positions that the list covers.
* `ceilIndex_boundary` — with no empty item, `ceilIndex` undoes `boundary`.
-/

set_option autoImplicit false

namespace LocalFirst

variable {α : Type} (width : α → ℕ)

/-- Where item `i` starts, or where the list ends. -/
def boundary (l : List α) (i : ℕ) : ℕ := ((l.take i).map width).sum

/-- Number of items up to the first one that ends at `o` or later, or of all items. -/
def ceilIndex : List α → ℕ → ℕ
  | [], _ => 0
  | _ :: _, 0 => 0
  | a :: l, o + 1 => ceilIndex l (o + 1 - width a) + 1

@[simp] theorem boundary_zero (l : List α) : boundary width l 0 = 0 := by simp [boundary]

@[simp] theorem boundary_nil (i : ℕ) : boundary width [] i = 0 := by simp [boundary]

@[simp] theorem boundary_cons_succ (a : α) (l : List α) (i : ℕ) :
    boundary width (a :: l) (i + 1) = width a + boundary width l i := by
  simp [boundary]

@[simp] theorem ceilIndex_nil (o : ℕ) : ceilIndex width [] o = 0 := by simp [ceilIndex]

@[simp] theorem ceilIndex_zero (l : List α) : ceilIndex width l 0 = 0 := by
  cases l with
  | nil => rfl
  | cons a l => rfl

theorem ceilIndex_cons_of_pos {a : α} {l : List α} {o : ℕ} (ho : 0 < o) :
    ceilIndex width (a :: l) o = ceilIndex width l (o - width a) + 1 := by
  obtain ⟨o, rfl⟩ := Nat.exists_eq_succ_of_ne_zero ho.ne'
  rfl

theorem boundary_mono (l : List α) : Monotone (boundary width l) := by
  intro i j hij
  induction l generalizing i j with
  | nil => simp
  | cons a l ih =>
    cases i with
    | zero => simp
    | succ i =>
      obtain ⟨j, rfl⟩ := Nat.exists_eq_succ_of_ne_zero (show j ≠ 0 by omega)
      have htail := ih (show i ≤ j by omega)
      simp only [boundary_cons_succ]
      omega

/-- Past the end nothing is added. -/
theorem boundary_of_length_le {l : List α} {i : ℕ} (h : l.length ≤ i) :
    boundary width l i = boundary width l l.length := by
  simp [boundary, List.take_of_length_le h]

theorem boundary_le_total (l : List α) (i : ℕ) :
    boundary width l i ≤ boundary width l l.length := by
  rcases le_total i l.length with h | h
  · exact boundary_mono width l h
  · exact (boundary_of_length_le width h).le

theorem ceilIndex_le_length (l : List α) (o : ℕ) : ceilIndex width l o ≤ l.length := by
  induction l generalizing o with
  | nil => simp
  | cons a l ih =>
    cases o with
    | zero => simp
    | succ o => exact Nat.succ_le_succ (ih _)

/-- On the positions the list covers, `ceilIndex` is left adjoint to `boundary`. -/
theorem ceilIndex_le_iff {l : List α} {o i : ℕ} (ho : o ≤ boundary width l l.length) :
    ceilIndex width l o ≤ i ↔ o ≤ boundary width l i := by
  induction l generalizing o i with
  | nil => simpa using ho
  | cons a l ih =>
    rcases o.eq_zero_or_pos with rfl | hpos
    · simp
    · rw [ceilIndex_cons_of_pos width hpos]
      cases i with
      | zero =>
        simp only [boundary_zero]
        omega
      | succ i =>
        simp only [List.length_cons, boundary_cons_succ] at ho ⊢
        have htail := @ih (o - width a) i (by omega)
        omega

theorem ceilIndex_of_total_lt {l : List α} {o : ℕ} (ho : boundary width l l.length < o) :
    ceilIndex width l o = l.length := by
  induction l generalizing o with
  | nil => simp
  | cons a l ih =>
    rw [ceilIndex_cons_of_pos width (by omega)]
    simp only [List.length_cons, boundary_cons_succ] at ho ⊢
    rw [ih (by omega)]

theorem ceilIndex_mono (l : List α) : Monotone (ceilIndex width l) := by
  intro o o' h
  rcases le_or_gt o' (boundary width l l.length) with ho' | ho'
  · -- the boundary of the later position's index covers the earlier position too
    have hcover := (ceilIndex_le_iff width ho').1 le_rfl
    exact (ceilIndex_le_iff width (h.trans ho')).2 (h.trans hcover)
  · rw [ceilIndex_of_total_lt width ho']
    exact ceilIndex_le_length width l o

section Positive

variable {width} {l : List α} (hpos : ∀ a ∈ l, 0 < width a)
include hpos

theorem boundary_lt {i j : ℕ} (hij : i < j) (hj : j ≤ l.length) :
    boundary width l i < boundary width l j := by
  induction l generalizing i j with
  | nil => simp at hj; omega
  | cons a l ih =>
    obtain ⟨j, rfl⟩ := Nat.exists_eq_succ_of_ne_zero (show j ≠ 0 by omega)
    have ha := hpos a List.mem_cons_self
    have hl : ∀ b ∈ l, 0 < width b := fun b hb => hpos b (List.mem_cons_of_mem a hb)
    cases i with
    | zero =>
      simp only [boundary_zero, boundary_cons_succ]
      omega
    | succ i =>
      have htail := ih hl (show i < j by omega) (by simpa using hj)
      simp only [boundary_cons_succ]
      omega

theorem boundary_le_iff {i j : ℕ} (hi : i ≤ l.length) :
    boundary width l i ≤ boundary width l j ↔ i ≤ j := by
  constructor
  · intro h
    by_contra hlt
    have := boundary_lt hpos (show j < i by omega) hi
    omega
  · exact fun h => boundary_mono width l h

/-- With no empty item, a boundary is covered by the items before it and by no fewer. -/
theorem ceilIndex_boundary {i : ℕ} (hi : i ≤ l.length) :
    ceilIndex width l (boundary width l i) = i := by
  have hcovered := boundary_le_total width l i
  apply le_antisymm
  · exact (ceilIndex_le_iff width hcovered).2 le_rfl
  · exact (boundary_le_iff hpos hi).1 ((ceilIndex_le_iff width hcovered).1 le_rfl)

end Positive

end LocalFirst
