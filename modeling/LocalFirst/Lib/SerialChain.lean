import Mathlib.Data.List.Basic
import Mathlib.Data.Nat.Basic

/-!
# Jobs in a chain

A chain of jobs of which each starts when the one before has settled, such as the reactions of
`then` on the promise that the one before returned.  A job waits, is active, or has settled.

* `Serial jobs m` — the jobs before `m` have settled, and the jobs after `m` wait.
* `Serial.starts`, `Serial.active` — the job that may start and a job that is active are job `m`.
* `Serial.append`, `Serial.set`, `Serial.settle` — what may happen to the chain.
-/

set_option autoImplicit false

namespace LocalFirst

/-- The jobs before `m` have settled, those after `m` wait, and job `m`, if there is one, has not
settled. -/
structure Serial {α : Type} (waiting : α) (Settled : α → Prop) (jobs : List α) (m : ℕ) : Prop where
  done : ∀ n a, n < m → jobs[n]? = some a → Settled a
  later : ∀ n a, m < n → jobs[n]? = some a → a = waiting
  head : ∀ a, jobs[m]? = some a → ¬ Settled a
  le : m ≤ jobs.length

namespace Serial

variable {α : Type} {waiting a : α} {Settled : α → Prop} {jobs : List α} {m n : ℕ}

theorem nil : Serial waiting Settled [] 0 where
  done n a h := absurd h (Nat.not_lt_zero n)
  later n a _ ha := by cases ha
  head a ha := by cases ha
  le := le_refl _

/-- One more job waits. -/
theorem append (h : Serial waiting Settled jobs m) (hw : ¬ Settled waiting) :
    Serial waiting Settled (jobs ++ [waiting]) m := by
  have hlast : ∀ n a, (jobs ++ [waiting])[n]? = some a → jobs[n]? = some a ∨
      (n = jobs.length ∧ a = waiting) := by
    intro n a ha
    by_cases hn : n < jobs.length
    · rw [List.getElem?_append_left hn] at ha
      exact Or.inl ha
    · rw [List.getElem?_append_right (not_lt.1 hn), List.getElem?_singleton] at ha
      split at ha
      · cases ha
        exact Or.inr ⟨by omega, rfl⟩
      · cases ha
  have hle := h.le
  refine ⟨fun n a hn ha => ?_, fun n a hn ha => ?_, fun a ha => ?_, ?_⟩
  · exact h.done n a hn ((hlast n a ha).resolve_right fun hend => by omega)
  · rcases hlast n a ha with hold | ⟨-, rfl⟩
    · exact h.later n a hn hold
    · rfl
  · rcases hlast m a ha with hold | ⟨-, rfl⟩
    · exact h.head a hold
    · exact hw
  · rw [List.length_append]
    omega

/-- A job that neither waits nor has settled is job `m`. -/
theorem active (h : Serial waiting Settled jobs m) (ha : jobs[n]? = some a) (hw : a ≠ waiting)
    (hs : ¬ Settled a) : n = m := by
  rcases lt_trichotomy n m with hlt | heq | hgt
  · exact absurd (h.done n a hlt ha) hs
  · exact heq
  · exact absurd (h.later n a hgt ha) hw

/-- A job that waits, when the one before it has settled, is job `m`. -/
theorem starts (h : Serial waiting Settled jobs m) (hw : ¬ Settled waiting)
    (ha : jobs[n]? = some waiting)
    (hbefore : ∀ n', n = n' + 1 → ∃ a, jobs[n']? = some a ∧ Settled a) : n = m := by
  rcases lt_trichotomy n m with hlt | heq | hgt
  · exact absurd (h.done n waiting hlt ha) hw
  · exact heq
  · obtain ⟨n', rfl⟩ : ∃ n', n = n' + 1 := ⟨n - 1, by omega⟩
    obtain ⟨a, ha', hs⟩ := hbefore n' rfl
    by_cases heq : n' = m
    · rw [heq] at ha'
      exact absurd hs (h.head a ha')
    · rw [h.later n' a (by omega) ha'] at hs
      exact absurd hs hw

/-- Job `m` goes on. -/
theorem set (h : Serial waiting Settled jobs m) (hs : ¬ Settled a) :
    Serial waiting Settled (jobs.set m a) m := by
  have hother : ∀ n, n ≠ m → (jobs.set m a)[n]? = jobs[n]? := fun n hn =>
    List.getElem?_set_ne (Ne.symm hn)
  refine ⟨fun n b hn hb => ?_, fun n b hn hb => ?_, fun b hb => ?_, ?_⟩
  · rw [hother n (by omega)] at hb
    exact h.done n b hn hb
  · rw [hother n (by omega)] at hb
    exact h.later n b hn hb
  · rw [List.getElem?_set_self'] at hb
    cases hm : jobs[m]? with
    | none =>
      rw [hm] at hb
      cases hb
    | some old =>
      rw [hm] at hb
      cases hb
      exact hs
  · rw [List.length_set]
    exact h.le

/-- Job `m` settles. -/
theorem settle (h : Serial waiting Settled jobs m) (hm : m < jobs.length) (hw : ¬ Settled waiting)
    (hs : Settled a) : Serial waiting Settled (jobs.set m a) (m + 1) := by
  have hother : ∀ n, n ≠ m → (jobs.set m a)[n]? = jobs[n]? := fun n hn =>
    List.getElem?_set_ne (Ne.symm hn)
  refine ⟨fun n b hn hb => ?_, fun n b hn hb => ?_, fun b hb => ?_, ?_⟩
  · by_cases heq : n = m
    · subst heq
      rw [List.getElem?_set_self hm] at hb
      cases hb
      exact hs
    · rw [hother n heq] at hb
      exact h.done n b (by omega) hb
  · rw [hother n (by omega)] at hb
    exact h.later n b (by omega) hb
  · rw [hother (m + 1) (by omega)] at hb
    rw [h.later (m + 1) b (by omega) hb]
    exact hw
  · rw [List.length_set]
    omega

/-- The chain has settled when there is no job `m`. -/
theorem settled_iff (h : Serial waiting Settled jobs m) :
    (∀ a ∈ jobs, Settled a) ↔ m = jobs.length := by
  have hle := h.le
  constructor
  · intro hall
    by_contra hne
    have hm : m < jobs.length := by omega
    exact h.head _ (List.getElem?_eq_getElem hm) (hall _ (List.getElem_mem hm))
  · intro heq a ha
    obtain ⟨n, hn, rfl⟩ := List.getElem_of_mem ha
    exact h.done n _ (by omega) (List.getElem?_eq_getElem hn)

end Serial

end LocalFirst
