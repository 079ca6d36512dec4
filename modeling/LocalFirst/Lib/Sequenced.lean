import Mathlib.Data.List.Pairwise
import Mathlib.Order.Interval.Set.Basic

/-!
# Logs ordered by a sequence number

A log is a list whose entries carry strictly increasing sequence numbers; gaps are allowed.
`between` is the part of a log above one number and up to another.

* `between_append` — what is appended above the upper bound is not seen.
* `between_split` — two adjacent parts make one.
* `Increasing.append`, `split_append` — a log grows at its end.
* `foldl_deliver_old`, `foldl_deliver_new` — what a reader that skips numbers it has keeps.
-/

set_option autoImplicit false

namespace LocalFirst

variable {ρ : Type} {key : ρ → Int} {l l' : List ρ} {a b m : Int}

/-- The sequence numbers increase strictly. -/
def Increasing (key : ρ → Int) (l : List ρ) : Prop := l.Pairwise fun x y => key x < key y

/-- The entries with a number in `(a, b]`. -/
def between (key : ρ → Int) (a b : Int) (l : List ρ) : List ρ :=
  l.filter fun x => a < key x ∧ key x ≤ b

@[simp] theorem mem_between {x : ρ} : x ∈ between key a b l ↔ x ∈ l ∧ a < key x ∧ key x ≤ b := by
  simp [between]

theorem Increasing.between (h : Increasing key l) : Increasing key (between key a b l) :=
  List.Pairwise.filter _ h

theorem between_append (h : ∀ x ∈ l', b < key x) :
    between key a b (l ++ l') = between key a b l := by
  unfold between
  rw [List.filter_append, List.append_right_eq_self, List.filter_eq_nil_iff]
  intro x hx
  have := h x hx
  simp only [decide_eq_true_eq, not_and, not_le]
  omega

theorem between_eq_self (h : ∀ x ∈ l, a < key x ∧ key x ≤ b) : between key a b l = l := by
  unfold between
  rw [List.filter_eq_self]
  intro x hx
  simpa using h x hx

theorem between_eq_nil (h : b ≤ a) : between key a b l = [] := by
  unfold between
  rw [List.filter_eq_nil_iff]
  intro x _
  simp only [decide_eq_true_eq, not_and, not_le]
  omega

/-- The entries up to `m` come before those above it. -/
theorem between_split (h : Increasing key l) (ham : a ≤ m) (hmb : m ≤ b) :
    between key a b l = between key a m l ++ between key m b l := by
  induction l with
  | nil => rfl
  | cons x l ih =>
    obtain ⟨hx, hl⟩ := List.pairwise_cons.1 h
    have ih := ih hl
    unfold between at ih ⊢
    simp only [List.filter_cons, decide_eq_true_eq]
    by_cases hxm : key x ≤ m
    · have hnot : ¬ (m < key x ∧ key x ≤ b) := by omega
      rw [if_neg hnot, ih]
      by_cases hax : a < key x
      · rw [if_pos ⟨hax, by omega⟩, if_pos ⟨hax, hxm⟩, List.cons_append]
      · rw [if_neg (by omega), if_neg (by omega)]
    · -- everything from here on is above `m`
      have hnil : l.filter (fun y => decide (a < key y ∧ key y ≤ m)) = [] := by
        rw [List.filter_eq_nil_iff]
        intro y hy
        have := hx y hy
        simp only [decide_eq_true_eq, not_and, not_le]
        omega
      rw [if_neg (show ¬ (a < key x ∧ key x ≤ m) by omega), hnil, List.nil_append]
      rw [hnil, List.nil_append] at ih
      rw [ih]
      by_cases hxb : key x ≤ b
      · rw [if_pos ⟨by omega, hxb⟩, if_pos ⟨by omega, hxb⟩]
      · rw [if_neg (by omega), if_neg (by omega)]

theorem Increasing.append (h : Increasing key l) {x : ρ} (hx : ∀ y ∈ l, key y < key x) :
    Increasing key (l ++ [x]) := by
  refine List.pairwise_append.2 ⟨h, List.pairwise_singleton _ _, fun y hy z hz => ?_⟩
  rw [List.mem_singleton.1 hz]
  exact hx y hy

/-- A number belongs to one entry. -/
theorem Increasing.eq_of_key (h : Increasing key l) {x y : ρ} (hx : x ∈ l) (hy : y ∈ l)
    (heq : key x = key y) : x = y := by
  have hall : ∀ ⦃x⦄, x ∈ l → ∀ ⦃y⦄, y ∈ l → key x = key y → x = y := by
    refine List.Pairwise.forall_of_forall_of_flip (fun _ _ _ => rfl) ?_ ?_
    · refine h.imp fun {a b} hlt hab => ?_
      omega
    · refine h.imp fun {a b} hlt => ?_
      show key b = key a → b = a
      omega
  exact hall hx hy heq

/-- A list that grows at its end is split where it was, or in what is new. -/
theorem split_append {before after : List ρ} {x : ρ}
    (h : l ++ l' = before ++ x :: after) :
    (∃ rest, l = before ++ x :: rest) ∨ ∃ before', before = l ++ before' ∧
      l' = before' ++ x :: after := by
  rcases List.append_eq_append_iff.1 h with ⟨before', hbefore, hl'⟩ | ⟨rest, hl, hrest⟩
  · exact Or.inr ⟨before', hbefore, hl'⟩
  · cases rest with
    | nil =>
      rw [List.append_nil] at hl
      exact Or.inr ⟨[], by rw [hl, List.append_nil], hrest.symm⟩
    | cons y rest =>
      obtain ⟨rfl, -⟩ := List.cons.inj hrest
      exact Or.inl ⟨rest, hl⟩

/-! ## Deliveries -/

section

variable (key) (cursor : Int)

/-- One more entry arrives: it is skipped if its number is not above the cursor, or has arrived. -/
def deliver (delivered : List ρ) (x : ρ) : List ρ :=
  if key x ≤ cursor ∨ key x ∈ delivered.map key then delivered else delivered ++ [x]

/-- What is left of a list of arrivals without the skipped ones. -/
def firstDeliveries (arrivals : List ρ) : List ρ := arrivals.foldl (deliver key cursor) []

end

/-- What is kept has arrived. -/
theorem mem_foldl_deliver {cursor : Int} {x : ρ} : ∀ {arrivals delivered : List ρ},
    x ∈ arrivals.foldl (deliver key cursor) delivered → x ∈ delivered ∨ x ∈ arrivals
  | [], _, h => Or.inl h
  | y :: ys, delivered, h => by
    rw [List.foldl_cons] at h
    rcases mem_foldl_deliver h with h | h
    · unfold deliver at h
      split at h
      · exact Or.inl h
      · rcases List.mem_append.1 h with h | h
        · exact Or.inl h
        · rw [List.mem_singleton.1 h]
          exact Or.inr List.mem_cons_self
    · exact Or.inr (List.mem_cons_of_mem y h)

theorem foldl_deliver_old {cursor : Int} {delivered : List ρ} :
    ∀ {arrivals : List ρ}, (∀ x ∈ arrivals, key x ≤ cursor ∨ key x ∈ delivered.map key) →
      arrivals.foldl (deliver key cursor) delivered = delivered
  | [], _ => rfl
  | x :: xs, h => by
    have hx : deliver key cursor delivered x = delivered := if_pos (h x List.mem_cons_self)
    rw [List.foldl_cons, hx]
    exact foldl_deliver_old fun y hy => h y (List.mem_cons_of_mem x hy)

theorem foldl_deliver_new {cursor : Int} :
    ∀ {arrivals delivered : List ρ}, Increasing key (delivered ++ arrivals) →
      (∀ x ∈ arrivals, cursor < key x) →
      arrivals.foldl (deliver key cursor) delivered = delivered ++ arrivals
  | [], delivered, _, _ => (List.append_nil delivered).symm
  | x :: xs, delivered, h, hc => by
    have hx : deliver key cursor delivered x = delivered ++ [x] := by
      refine if_neg fun hor => ?_
      rcases hor with hle | hmem
      · have := hc x List.mem_cons_self
        omega
      · obtain ⟨y, hy, heq⟩ := List.mem_map.1 hmem
        have := (List.pairwise_append.1 h).2.2 y hy x List.mem_cons_self
        omega
    rw [List.append_cons] at h ⊢
    rw [List.foldl_cons, hx]
    exact foldl_deliver_new h fun y hy => hc y (List.mem_cons_of_mem x hy)

end LocalFirst
