import Mathlib.Data.List.Nodup
import Mathlib.Data.List.Perm.Subperm

/-!
# Insertion-ordered maps and sets

A finite map that enumerates its keys in the order in which they were first set, and the
finite set that enumerates its members in the order in which they were first added.  Both
carry the distinctness of their keys as a field, so a lookup is never ambiguous.

* `get?_set`, `get?_delete` — the lookup equations.
* `mem_entries`, `mem_keys`, `mem_values` — enumeration agrees with lookup.
* `keys_perm`, `size_congr` — maps with the same domain enumerate the same keys.
* `length_le_size` — distinct keys of the domain are at most `size` many.
-/

set_option autoImplicit false

namespace LocalFirst

/-! ## Maps -/

/-- A finite map with distinct keys, in insertion order. -/
structure InsMap (κ ν : Type) where
  entries : List (κ × ν)
  nodup : (entries.map Prod.fst).Nodup

namespace InsMap

variable {κ ν : Type}

def empty : InsMap κ ν := ⟨[], List.nodup_nil⟩

def keys (m : InsMap κ ν) : List κ := m.entries.map Prod.fst

def values (m : InsMap κ ν) : List ν := m.entries.map Prod.snd

def size (m : InsMap κ ν) : Nat := m.entries.length

theorem nodup_keys (m : InsMap κ ν) : m.keys.Nodup := m.nodup

@[simp] theorem length_keys (m : InsMap κ ν) : m.keys.length = m.size := by simp [keys, size]

variable [DecidableEq κ]

/-- First entry under a key. -/
def lookup (k : κ) : List (κ × ν) → Option ν
  | [] => none
  | (k', v) :: es => if k' = k then some v else lookup k es

/-- Overwrite in place, or append at the end. -/
def setEntry (k : κ) (v : ν) : List (κ × ν) → List (κ × ν)
  | [] => [(k, v)]
  | (k', v') :: es => if k' = k then (k', v) :: es else (k', v') :: setEntry k v es

theorem lookup_eq_none {k : κ} : ∀ {es : List (κ × ν)}, lookup k es = none ↔ k ∉ es.map Prod.fst
  | [] => by simp [lookup]
  | (k', v) :: es => by
    simp only [lookup, List.map_cons, List.mem_cons, not_or]
    split
    · rename_i h; simp [h]
    · rename_i h; rw [lookup_eq_none]; exact ⟨fun hn => ⟨Ne.symm h, hn⟩, And.right⟩

theorem mem_iff_lookup {k : κ} {v : ν} : ∀ {es : List (κ × ν)}, (es.map Prod.fst).Nodup →
    ((k, v) ∈ es ↔ lookup k es = some v)
  | [], _ => by simp [lookup]
  | (k', v') :: es, hn => by
    simp only [List.map_cons, List.nodup_cons] at hn
    simp only [lookup, List.mem_cons, Prod.mk.injEq]
    split
    · rename_i h
      subst h
      constructor
      · rintro (⟨-, rfl⟩ | hm)
        · rfl
        · exact absurd (List.mem_map_of_mem (f := Prod.fst) hm) hn.1
      · intro h; cases h; exact Or.inl ⟨rfl, rfl⟩
    · rename_i h
      rw [mem_iff_lookup hn.2]
      exact ⟨fun hm => hm.resolve_left (fun e => h e.1.symm), Or.inr⟩

theorem lookup_setEntry (k k' : κ) (v : ν) : ∀ es : List (κ × ν),
    lookup k' (setEntry k v es) = if k = k' then some v else lookup k' es
  | [] => by simp [setEntry, lookup]
  | (a, b) :: es => by
    simp only [setEntry]
    by_cases ha : a = k
    · subst ha; simp only [if_true, lookup]; split <;> rfl
    · rw [if_neg ha]
      simp only [lookup]
      rw [lookup_setEntry k k' v es]
      by_cases hk : a = k'
      · subst hk; rw [if_pos rfl, if_neg (Ne.symm ha), if_pos rfl]
      · rw [if_neg hk, if_neg hk]

theorem setEntry_keys_of_mem {k : κ} {v : ν} : ∀ {es : List (κ × ν)}, k ∈ es.map Prod.fst →
    (setEntry k v es).map Prod.fst = es.map Prod.fst
  | [], h => by cases h
  | (a, b) :: es, h => by
    simp only [setEntry]
    by_cases ha : a = k
    · rw [if_pos ha]; rfl
    · rw [if_neg ha]
      have hm : k ∈ es.map Prod.fst := by
        simpa [Ne.symm ha] using h
      simp only [List.map_cons, setEntry_keys_of_mem hm]

theorem setEntry_of_not_mem {k : κ} {v : ν} : ∀ {es : List (κ × ν)}, k ∉ es.map Prod.fst →
    setEntry k v es = es ++ [(k, v)]
  | [], _ => rfl
  | (a, b) :: es, h => by
    simp only [List.map_cons, List.mem_cons, not_or] at h
    simp only [setEntry, if_neg (Ne.symm h.1), setEntry_of_not_mem h.2, List.cons_append]

theorem setEntry_nodup {k : κ} {v : ν} {es : List (κ × ν)} (hn : (es.map Prod.fst).Nodup) :
    ((setEntry k v es).map Prod.fst).Nodup := by
  by_cases hm : k ∈ es.map Prod.fst
  · rw [setEntry_keys_of_mem hm]; exact hn
  · rw [setEntry_of_not_mem hm, List.map_append, List.nodup_append]
    refine ⟨hn, by simp, ?_⟩
    intro a ha b hb hab
    simp only [List.map_cons, List.map_nil, List.mem_singleton] at hb
    subst hb; subst hab
    exact hm ha

def get? (m : InsMap κ ν) (k : κ) : Option ν := lookup k m.entries

def has (m : InsMap κ ν) (k : κ) : Bool := (m.get? k).isSome

def set (m : InsMap κ ν) (k : κ) (v : ν) : InsMap κ ν :=
  ⟨setEntry k v m.entries, setEntry_nodup m.nodup⟩

def delete (m : InsMap κ ν) (k : κ) : InsMap κ ν :=
  ⟨m.entries.filter (fun e => e.1 ≠ k),
    m.nodup.sublist (List.Sublist.map _ List.filter_sublist)⟩

@[simp] theorem get?_empty (k : κ) : (empty : InsMap κ ν).get? k = none := rfl

theorem get?_set (m : InsMap κ ν) (k k' : κ) (v : ν) :
    (m.set k v).get? k' = if k = k' then some v else m.get? k' :=
  lookup_setEntry k k' v m.entries

@[simp] theorem get?_set_self (m : InsMap κ ν) (k : κ) (v : ν) : (m.set k v).get? k = some v := by
  simp [get?_set]

theorem get?_set_ne (m : InsMap κ ν) {k k' : κ} (v : ν) (h : k ≠ k') :
    (m.set k v).get? k' = m.get? k' := by
  simp [get?_set, h]

/-- Under a fresh key nothing is overwritten. -/
theorem get?_set_fresh {m : InsMap κ ν} {k k' : κ} {v w : ν} (h : m.get? k = none) :
    (m.set k v).get? k' = some w ↔ (k = k' ∧ w = v) ∨ m.get? k' = some w := by
  rw [get?_set]
  split
  · rename_i he
    subst he
    simp [h, eq_comm]
  · rename_i he
    simp [he]

/-- Fresh, distinct keys, when they are set one after the other. -/
theorem fresh_cons {α : Type} {key : α → κ} {m : InsMap κ ν} {a : α} {l : List α} {v : ν}
    (hnew : m.get? (key a) = none) (hrest : ∀ b ∈ l, (m.set (key a) v).get? (key b) = none)
    (hnd : (l.map key).Nodup) :
    ((a :: l).map key).Nodup ∧ ∀ b ∈ a :: l, m.get? (key b) = none := by
  have hne : ∀ b ∈ l, key a ≠ key b := by
    intro b hb heq
    have hnone := hrest b hb
    rw [← heq, get?_set_self] at hnone
    cases hnone
  refine ⟨List.nodup_cons.2 ⟨fun hmem => ?_, hnd⟩, List.forall_mem_cons.2 ⟨hnew, fun b hb => ?_⟩⟩
  · obtain ⟨b, hb, heq⟩ := List.mem_map.1 hmem
    exact hne b hb heq.symm
  · have hnone := hrest b hb
    rwa [get?_set_ne _ _ (hne b hb)] at hnone

theorem lookup_filter_ne (k k' : κ) : ∀ es : List (κ × ν),
    lookup k' (es.filter (fun e => e.1 ≠ k)) = if k = k' then none else lookup k' es
  | [] => by simp [lookup]
  | (a, b) :: es => by
    have ih := lookup_filter_ne k k' es
    by_cases ha : a = k
    · subst ha
      rw [List.filter_cons_of_neg (by simp), ih]
      simp only [lookup]
      split <;> rfl
    · rw [List.filter_cons_of_pos (by simpa using ha)]
      simp only [lookup, ih]
      by_cases hk : a = k'
      · subst hk; simp [Ne.symm ha]
      · simp [hk]

theorem get?_delete (m : InsMap κ ν) (k k' : κ) :
    (m.delete k).get? k' = if k = k' then none else m.get? k' :=
  lookup_filter_ne k k' m.entries

@[simp] theorem get?_delete_self (m : InsMap κ ν) (k : κ) : (m.delete k).get? k = none := by
  simp [get?_delete]

theorem has_iff {m : InsMap κ ν} {k : κ} : m.has k = true ↔ ∃ v, m.get? k = some v := by
  simp [has, Option.isSome_iff_exists]

theorem has_eq_false {m : InsMap κ ν} {k : κ} : m.has k = false ↔ m.get? k = none := by
  simp [has]

theorem mem_entries {m : InsMap κ ν} {k : κ} {v : ν} : (k, v) ∈ m.entries ↔ m.get? k = some v :=
  mem_iff_lookup m.nodup

theorem mem_keys {m : InsMap κ ν} {k : κ} : k ∈ m.keys ↔ ∃ v, m.get? k = some v := by
  simp only [keys, List.mem_map, Prod.exists, exists_and_right, exists_eq_right]
  exact exists_congr fun _ => mem_entries

theorem mem_values {m : InsMap κ ν} {v : ν} : v ∈ m.values ↔ ∃ k, m.get? k = some v := by
  simp only [values, List.mem_map, Prod.exists, exists_eq_right]
  exact exists_congr fun _ => mem_entries

/-- Distinct keys of the domain are at most `size` many. -/
theorem length_le_size {m : InsMap κ ν} {l : List κ} (hl : l.Nodup)
    (h : ∀ k ∈ l, ∃ v, m.get? k = some v) : l.length ≤ m.size := by
  rw [← length_keys]
  exact (hl.subperm fun k hk => mem_keys.2 (h k hk)).length_le

/-- Maps with the same domain enumerate the same keys. -/
theorem keys_perm {μ : Type} {m : InsMap κ ν} {m' : InsMap κ μ}
    (h : ∀ k, (∃ v, m.get? k = some v) ↔ ∃ v, m'.get? k = some v) : m.keys.Perm m'.keys :=
  (List.perm_ext_iff_of_nodup m.nodup_keys m'.nodup_keys).2 fun k => by
    rw [mem_keys, mem_keys, h k]

theorem entries_perm {m m' : InsMap κ ν} (h : ∀ k, m.get? k = m'.get? k) :
    m.entries.Perm m'.entries :=
  (List.perm_ext_iff_of_nodup (List.Nodup.of_map _ m.nodup) (List.Nodup.of_map _ m'.nodup)).2
    fun e => by rw [mem_entries (k := e.1) (v := e.2), mem_entries (k := e.1) (v := e.2), h]

theorem values_perm {m m' : InsMap κ ν} (h : ∀ k, m.get? k = m'.get? k) :
    m.values.Perm m'.values := (entries_perm h).map _

theorem size_congr {m m' : InsMap κ ν} (h : ∀ k, m.get? k = m'.get? k) : m.size = m'.size :=
  (entries_perm h).length_eq

end InsMap

/-! ## Sets -/

/-- A finite set without repetitions, in insertion order. -/
structure InsSet (α : Type) where
  elems : List α
  nodup : elems.Nodup

namespace InsSet

variable {α : Type}

def empty : InsSet α := ⟨[], List.nodup_nil⟩

def size (s : InsSet α) : Nat := s.elems.length

instance : Membership α (InsSet α) := ⟨fun s a => a ∈ s.elems⟩

theorem mem_def {s : InsSet α} {a : α} : a ∈ s ↔ a ∈ s.elems := Iff.rfl

@[simp] theorem not_mem_empty (a : α) : a ∉ (empty : InsSet α) := by simp [mem_def, empty]

variable [DecidableEq α]

def add (s : InsSet α) (a : α) : InsSet α :=
  if h : a ∈ s.elems then s
  else ⟨s.elems ++ [a], List.nodup_append.2 ⟨s.nodup, by simp, fun _ hx _ hy hxy => by
    simp only [List.mem_singleton] at hy; subst hy; subst hxy; exact h hx⟩⟩

def delete (s : InsSet α) (a : α) : InsSet α :=
  ⟨s.elems.filter (fun x => x ≠ a), s.nodup.filter _⟩

@[simp] theorem mem_add {s : InsSet α} {a b : α} : b ∈ s.add a ↔ b ∈ s ∨ b = a := by
  unfold add
  split
  · rename_i h
    constructor
    · exact Or.inl
    · rintro (hb | rfl)
      · exact hb
      · exact h
  · simp [mem_def]

@[simp] theorem mem_delete {s : InsSet α} {a b : α} : b ∈ s.delete a ↔ b ∈ s ∧ b ≠ a := by
  simp [mem_def, delete]

end InsSet

end LocalFirst
