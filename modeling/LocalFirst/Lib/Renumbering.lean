import LocalFirst.Lib.Sequenced
import Mathlib.Order.Monotone.Basic
import Mathlib.Data.Int.ConditionallyCompleteOrder
import Mathlib.Order.Lattice.Nat

/-!
# Renumberings

A strictly order-preserving function on a set of sequence numbers, tabled by the pairs of numbers
that it relates.

* `tabled_eq`, `tabled_strictMonoOn` — pairs that keep their order table such a function.
* `matched_zip` — the entries of two increasing lists, taken in turn, keep their order.
* `between_map` — a renumbering carries a part of a log to the same part.
-/

set_option autoImplicit false

namespace LocalFirst

/-! ## Tables -/

section

variable {α : Type} [LinearOrder α] {pairs : List (α × α)} {p q : α × α}

/-- The two numbers of one pair are in the same order as those of the other. -/
def Matched (p q : α × α) : Prop := (p.1 < q.1 ↔ p.2 < q.2) ∧ (q.1 < p.1 ↔ q.2 < p.2)

instance : Decidable (Matched p q) := inferInstanceAs (Decidable (_ ∧ _))

theorem Matched.symm (h : Matched p q) : Matched q p := ⟨h.2, h.1⟩

theorem Matched.refl (p : α × α) : Matched p p := by simp [Matched]

/-- The second number of a pair is settled by the first. -/
theorem Matched.snd_eq (h : Matched p q) (heq : p.1 = q.1) : p.2 = q.2 := by
  refine le_antisymm (not_lt.1 fun hlt => ?_) (not_lt.1 fun hlt => ?_)
  · exact absurd (h.2.2 hlt) (by rw [heq]; exact lt_irrefl _)
  · exact absurd (h.1.2 hlt) (by rw [heq]; exact lt_irrefl _)

/-- The function that the pairs table; it leaves other numbers as they are. -/
def tabled (pairs : List (α × α)) (n : α) : α :=
  match pairs.find? (·.1 = n) with
  | some p => p.2
  | none => n

theorem tabled_eq (h : ∀ p ∈ pairs, ∀ q ∈ pairs, Matched p q) (hp : p ∈ pairs) :
    tabled pairs p.1 = p.2 := by
  unfold tabled
  split
  · rename_i q hq
    have hfst : q.1 = p.1 := by simpa using List.find?_some hq
    exact (h q (List.mem_of_find?_eq_some hq) p hp).snd_eq hfst
  · rename_i hnone
    rw [List.find?_eq_none] at hnone
    exact absurd (decide_eq_true rfl) (hnone p hp)

/-- **Pairs that keep their order table a strictly order-preserving function.** -/
theorem tabled_strictMonoOn (h : ∀ p ∈ pairs, ∀ q ∈ pairs, Matched p q) :
    StrictMonoOn (tabled pairs) {n | n ∈ pairs.map Prod.fst} := by
  intro a ha b hb hlt
  obtain ⟨p, hp, rfl⟩ := List.mem_map.1 ha
  obtain ⟨q, hq, rfl⟩ := List.mem_map.1 hb
  rw [tabled_eq h hp, tabled_eq h hq]
  exact (h p hp q hq).1.1 hlt

omit [LinearOrder α] in
theorem mem_zip_iff {l l' : List α} :
    p ∈ l.zip l' ↔ ∃ i : Nat, l[i]? = some p.1 ∧ l'[i]? = some p.2 := by
  rw [List.mem_iff_getElem?]
  simp only [List.getElem?_zip_eq_some]

/-- **The entries of two increasing lists keep their order.** -/
theorem matched_zip {l l' : List α} (h : l.Pairwise (· < ·)) (h' : l'.Pairwise (· < ·)) :
    ∀ p ∈ l.zip l', ∀ q ∈ l.zip l', Matched p q := by
  intro p hp q hq
  obtain ⟨i, hi, hi'⟩ := mem_zip_iff.1 hp
  obtain ⟨j, hj, hj'⟩ := mem_zip_iff.1 hq
  have hlt : ∀ {l : List α} {i j : Nat} {a b : α}, l.Pairwise (· < ·) → l[i]? = some a →
      l[j]? = some b → i < j → a < b := by
    intro l i j a b h hi hj hij
    obtain ⟨hilt, rfl⟩ := List.getElem?_eq_some_iff.1 hi
    obtain ⟨hjlt, rfl⟩ := List.getElem?_eq_some_iff.1 hj
    exact List.pairwise_iff_getElem.1 h i j hilt hjlt hij
  rcases lt_trichotomy i j with hij | rfl | hij
  · have h₁ := hlt h hi hj hij
    have h₂ := hlt h' hi' hj' hij
    exact ⟨iff_of_true h₁ h₂, iff_of_false h₁.not_gt h₂.not_gt⟩
  · obtain rfl : p = q := Prod.ext (Option.some.inj (hi.symm.trans hj)) (Option.some.inj (hi'.symm.trans hj'))
    exact .refl p
  · have h₁ := hlt h hj hi hij
    have h₂ := hlt h' hj' hi' hij
    exact ⟨iff_of_false h₁.not_gt h₂.not_gt, iff_of_true h₁ h₂⟩

end

/-! ## Logs -/

section

variable {ρ τ : Type} {key : ρ → Int} {key' : τ → Int} {r : ρ → τ} {φ : Int → Int} {S : Set Int}
  {l : List ρ} {a b : Int}

/-- **A renumbering carries a part of a log to the same part.** -/
theorem between_map (hmono : StrictMonoOn φ S) (hkey : ∀ x ∈ l, key' (r x) = φ (key x))
    (hl : ∀ x ∈ l, key x ∈ S) (ha : a ∈ S) (hb : b ∈ S) :
    between key' (φ a) (φ b) (l.map r) = (between key a b l).map r := by
  unfold between
  rw [List.filter_map]
  congr 1
  refine List.filter_congr fun x hx => ?_
  simp only [Function.comp_apply, hkey x hx, hmono.lt_iff_lt ha (hl x hx),
    hmono.le_iff_le (hl x hx) hb]

end

end LocalFirst
