import Mathlib.Data.List.Infix

/-!
# Longest common prefixes

* `LongestCommonPrefix q xs ys` — `q` starts both lists and is longest with that property.
* `LongestCommonPrefix.nil_left`, `.nil_right`, `.same`, `.differ` — finding it from the left.
* `LongestCommonPrefix.take_iff` — which prefixes of one list start the other.
* `LongestCommonPrefix.drop_iff` — the same from the right, for the reversed lists.
-/

set_option autoImplicit false

namespace LocalFirst

variable {α : Type} {q xs ys : List α}

/-- The longest list that starts both `xs` and `ys`. -/
structure LongestCommonPrefix (q xs ys : List α) : Prop where
  left : q <+: xs
  right : q <+: ys
  longest : ∀ p, p <+: xs → p <+: ys → p <+: q

namespace LongestCommonPrefix

theorem nil_left (ys : List α) : LongestCommonPrefix [] [] ys :=
  ⟨List.prefix_rfl, List.nil_prefix, fun _ h _ => h⟩

theorem nil_right (xs : List α) : LongestCommonPrefix [] xs [] :=
  ⟨List.nil_prefix, List.prefix_rfl, fun _ _ h => h⟩

theorem same (x : α) (h : LongestCommonPrefix q xs ys) :
    LongestCommonPrefix (x :: q) (x :: xs) (x :: ys) where
  left := List.cons_prefix_cons.2 ⟨rfl, h.left⟩
  right := List.cons_prefix_cons.2 ⟨rfl, h.right⟩
  longest p hx hy := by
    cases p with
    | nil => exact List.nil_prefix
    | cons z p =>
      obtain ⟨rfl, hx'⟩ := List.cons_prefix_cons.1 hx
      exact List.cons_prefix_cons.2 ⟨rfl, h.longest p hx' (List.cons_prefix_cons.1 hy).2⟩

theorem differ {x y : α} (h : x ≠ y) : LongestCommonPrefix [] (x :: xs) (y :: ys) where
  left := List.nil_prefix
  right := List.nil_prefix
  longest p hx hy := by
    cases p with
    | nil => exact List.nil_prefix
    | cons z p =>
      have hzx := (List.cons_prefix_cons.1 hx).1
      have hzy := (List.cons_prefix_cons.1 hy).1
      exact absurd (hzx.symm.trans hzy) h

/-- There is only one. -/
theorem unique {q' : List α} (h : LongestCommonPrefix q xs ys)
    (h' : LongestCommonPrefix q' xs ys) : q = q' := by
  have hle := h'.longest q h.left h.right
  exact hle.eq_of_length
    (le_antisymm hle.length_le (h.longest q' h'.left h'.right).length_le)

/-- The prefixes of `xs` that start `ys` are those no longer than the longest. -/
theorem take_iff (h : LongestCommonPrefix q xs ys) {n : Nat} (hn : n ≤ xs.length) :
    xs.take n <+: ys ↔ n ≤ q.length := by
  have hlen : (xs.take n).length = n := by rw [List.length_take, Nat.min_eq_left hn]
  constructor
  · intro hp
    have := (h.longest _ (List.take_prefix n xs) hp).length_le
    rwa [hlen] at this
  · intro hle
    have hq : xs.take n <+: q :=
      List.prefix_of_prefix_length_le (List.take_prefix n xs) h.left (by rw [hlen]; exact hle)
    exact hq.trans h.right

/-- The suffixes of `xs` that end `ys` are those no longer than the longest. -/
theorem drop_iff (h : LongestCommonPrefix q xs.reverse ys.reverse) {n : Nat} :
    xs.drop n <:+ ys ↔ xs.length - n ≤ q.length := by
  rw [← List.reverse_prefix, List.reverse_drop]
  exact h.take_iff (by rw [List.length_reverse]; omega)

end LongestCommonPrefix

end LocalFirst
