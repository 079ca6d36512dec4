import Mathlib.Data.List.Nodup
import Mathlib.Data.List.Pairwise

/-!
# What is left of a list

* `nearestBefore k p l i` — the last of the `k` items before index `i` that satisfies `p`.
* `nearestBefore_spec` — where it stands, and that nothing between it and `i` satisfies `p`.
* `nearestBefore_idxOf_le` — a later index finds an item that stands no earlier.
* `nearestBefore_length` — without a bound, the last of all items before the index.
* `idxOf_lt_of_filter_eq` — two lists that keep the order of what they share.
-/

set_option autoImplicit false

namespace LocalFirst

variable {α : Type}

/-- The last of the `k` items before index `i` that satisfies `p`. -/
def nearestBefore (k : ℕ) (p : α → Bool) (l : List α) (i : ℕ) : Option α :=
  ((l.take i).reverse.take k).find? p

section

variable {k : ℕ} {p : α → Bool} {l : List α} {i j : ℕ} {a : α}

/-- Without a bound, the last of all items before the index. -/
theorem nearestBefore_length : nearestBefore l.length p l i = (l.take i).reverse.find? p := by
  have hlength : (l.take i).reverse.length ≤ l.length := by
    rw [List.length_reverse]
    exact List.length_take_le' i l
  rw [nearestBefore, List.take_of_length_le hlength]

/-- What is found among the nearest items is the last of all. -/
theorem nearestBefore_length_of_some (h : nearestBefore k p l i = some a) :
    nearestBefore l.length p l i = some a := by
  rw [nearestBefore_length]
  exact (List.take_prefix k _).find?_eq_some h

/-- Without a bound, a later index finds an item if an earlier one does. -/
theorem nearestBefore_length_isSome (hij : i ≤ j) (h : (nearestBefore l.length p l i).isSome) :
    (nearestBefore l.length p l j).isSome := by
  rw [nearestBefore_length, List.find?_isSome] at h ⊢
  obtain ⟨x, hx, hp⟩ := h
  refine ⟨x, ?_, hp⟩
  rw [List.mem_reverse] at hx ⊢
  exact (List.take_sublist_take_left hij).subset hx

end

variable [BEq α] [LawfulBEq α] {k : ℕ} {p : α → Bool} {l l' : List α} {i j : ℕ} {a b : α}

theorem nearestBefore_spec (hl : l.Nodup) (hi : i ≤ l.length)
    (h : nearestBefore k p l i = some a) : a ∈ l ∧ p a = true ∧ l.idxOf a < i ∧
      ∀ c ∈ l, p c = true → l.idxOf a < l.idxOf c → i ≤ l.idxOf c := by
  obtain ⟨hpa, n, hn, hget, hbefore⟩ := List.find?_eq_some_iff_getElem.1 h
  simp only [List.length_take, List.length_reverse] at hn
  have hitem : ∀ m (hm : m < ((l.take i).reverse.take k).length) (hm' : i - 1 - m < l.length),
      ((l.take i).reverse.take k)[m] = l[i - 1 - m] := by
    intro m hm hm'
    simp only [List.getElem_take, List.getElem_reverse, List.length_take]
    congr 1
    omega
  have hat : i - 1 - n < l.length := by omega
  have hidx : l.idxOf a = i - 1 - n := by
    rw [← hget, hitem n (by simp; omega) hat]
    exact hl.idxOf_getElem _ _
  refine ⟨?_, hpa, by omega, fun c hc hpc hlt => ?_⟩
  · rw [← hget, hitem n (by simp; omega) hat]
    exact List.getElem_mem _
  · by_contra hlast
    -- `c` would have been met before `a`
    have hcl := List.idxOf_lt_length_of_mem hc
    have hcget : l[l.idxOf c] = c := List.getElem_idxOf _
    have hmissed := hbefore (i - 1 - l.idxOf c) (by omega)
    rw [hitem _ (by simp; omega) (by omega)] at hmissed
    have hback : i - 1 - (i - 1 - l.idxOf c) = l.idxOf c := by omega
    simp only [hback, hcget, hpc] at hmissed
    simp at hmissed

/-- A later index finds an item that stands no earlier. -/
theorem nearestBefore_idxOf_le (hl : l.Nodup) (hij : i ≤ j) (hj : j ≤ l.length)
    (ha : nearestBefore k p l i = some a) (hb : nearestBefore k p l j = some b) :
    l.idxOf a ≤ l.idxOf b := by
  obtain ⟨hal, hpa, hai, -⟩ := nearestBefore_spec hl (Nat.le_trans hij hj) ha
  obtain ⟨-, -, -, hlast⟩ := nearestBefore_spec hl hj hb
  by_contra hlt
  have := hlast a hal hpa (by omega)
  omega

theorem pairwise_idxOf (hl : l.Nodup) : l.Pairwise fun x y => l.idxOf x < l.idxOf y := by
  rw [List.pairwise_iff_getElem]
  intro m n hm hn hmn
  rwa [hl.idxOf_getElem, hl.idxOf_getElem]

/-- Two lists that keep the order of what they share agree on which of two shared items is first. -/
theorem idxOf_lt_of_filter_eq (hl : l.Nodup) (hl' : l'.Nodup)
    (h : l.filter (· ∈ l') = l'.filter (· ∈ l)) (ha : a ∈ l) (ha' : a ∈ l') (hb : b ∈ l)
    (hb' : b ∈ l') (hab : l.idxOf a < l.idxOf b) : l'.idxOf a < l'.idxOf b := by
  have hleft := (pairwise_idxOf hl).filter (· ∈ l')
  have hright := (pairwise_idxOf hl').filter (· ∈ l)
  rw [← h] at hright
  have hma : a ∈ l.filter (· ∈ l') := List.mem_filter.2 ⟨ha, by simpa using ha'⟩
  have hmb : b ∈ l.filter (· ∈ l') := List.mem_filter.2 ⟨hb, by simpa using hb'⟩
  obtain ⟨m, hm, rfl⟩ := List.getElem_of_mem hma
  obtain ⟨n, hn, rfl⟩ := List.getElem_of_mem hmb
  rcases Nat.lt_trichotomy m n with hmn | rfl | hnm
  · exact List.pairwise_iff_getElem.1 hright m n hm hn hmn
  · omega
  · have := List.pairwise_iff_getElem.1 hleft n m hn hm hnm
    omega

end LocalFirst
