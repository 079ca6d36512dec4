import LocalFirst.Crdt.Resolution

/-!
# What `apply` rejects

* `cycleWalk_ends` — the walk over the anchors ends, whatever is known.
* `apply_rejects_iff` — `apply` rejects exactly the operations that contradict what is known.
* `Corrupt` — the errors that a corrupt structure would raise.
* `apply_atomic` — a rejection changes nothing, and no structure is ever corrupt.
-/

set_option autoImplicit false

namespace LocalFirst

namespace TextReplica

/-! ## The walk over the anchors -/

/-- **The walk ends**: it visits a known identity at most once. -/
theorem cycleWalk_ends {known : InsMap JsString TextOperation} {opId : JsString} :
    ∀ (fuel : Nat) (cursor : JsString) (visited : InsSet JsString),
      (∀ v ∈ visited.elems, ∃ op, known.get? v = some op) → known.size + 1 ≤ fuel + visited.size →
        cycleWalk known opId fuel cursor visited ≠ .error outOfFuelError
  | 0, cursor, visited, hv, hf => by
    have hle := InsMap.length_le_size visited.nodup hv
    simp only [InsSet.size] at hf
    omega
  | fuel + 1, cursor, visited, hv, hf => by
    simp only [cycleWalk]
    split
    · simp
    · split
      · simp [operationDependencyCycleError, outOfFuelError]
      · split
        · simp [operationDependencyCycleError, outOfFuelError]
        · rename_i hnew
          split
          · simp
          · simp [invalidOperationError, outOfFuelError]
          · rename_i dependency hk
            have hsize : (visited.add cursor).size = visited.size + 1 := by
              simp [InsSet.add, InsSet.size, hnew]
            refine cycleWalk_ends fuel dependency.afterId (visited.add cursor) (fun v hm => ?_)
              (by omega)
            rcases InsSet.mem_add.1 hm with hm | rfl
            · exact hv v hm
            · exact ⟨_, hk⟩

/-! ## Contradictions -/

/-- Another operation has the identity. -/
def Conflicts (S : Set TextOperation) (op : TextOperation) : Prop :=
  ∃ known ∈ S, known.opId = op.opId ∧ known ≠ op

/-- No operation has the identity. -/
def IsNew (S : Set TextOperation) (op : TextOperation) : Prop := ∀ known ∈ S, known.opId ≠ op.opId

/-- An insert of the set is anchored on the identity of a delete of the set. -/
def AnchorsOnDelete (S : Set TextOperation) : Prop :=
  ∃ (i : InsertOperation) (d : DeleteOperation), .insert i ∈ S ∧ .delete d ∈ S ∧ i.afterId = d.opId

/-- What keeps a valid operation out of a coherent set. -/
theorem not_coherent_insert_iff {S : Set TextOperation} (h : Coherent S) {op : TextOperation}
    (hv : ValidOperation op) : ¬ Coherent (insert op S) ↔
      Conflicts S op ∨ (IsNew S op ∧ ¬ Acyclic (AnchoredOn (insert op S))) ∨
        (IsNew S op ∧ AnchorsOnDelete (insert op S)) := by
  constructor
  · intro hbad
    by_contra hno
    simp only [not_or, not_and, not_not] at hno
    obtain ⟨hconflict, hcycle, hanchor⟩ := hno
    by_cases hop : op ∈ S
    · rw [Set.insert_eq_of_mem hop] at hbad
      exact hbad h
    · have hnew : IsNew S op := fun known hknown he =>
        hconflict ⟨known, hknown, he, fun heq => hop (heq ▸ hknown)⟩
      refine hbad ⟨?_, unique_insert h hnew, hcycle hnew, fun i hi d hd he => ?_⟩
      · rintro o (rfl | ho)
        · exact hv
        · exact h.valid o ho
      · exact hanchor hnew ⟨i, d, hi, hd, he⟩
  · rintro (⟨known, hknown, he, hne⟩ | ⟨-, hcycle⟩ | ⟨-, i, d, hi, hd, he⟩) hc
    · exact hne (hc.unique known (Or.inr hknown) op (Or.inl rfl) he)
    · exact hcycle hc.acyclic
    · exact hc.anchor i hi d hd he

/-- **`apply` rejects exactly the contradictory operations.**  After any `apply` calls, a valid
operation is rejected exactly if another operation is known under its identity, or it is new and
closes a cycle of anchors or has an insert anchored on a delete; and the walk that looks for the
cycle ends. -/
theorem apply_rejects_iff (calls : List TextOperation) {op : TextOperation} (hv : ValidOperation op) :
    let r := empty.applyEach calls
    ((∃ e, (r.apply op).2 = .error e) ↔
      Conflicts r.ops op ∨ (IsNew r.ops op ∧ ¬ Acyclic (AnchoredOn (insert op r.ops))) ∨
        (IsNew r.ops op ∧ AnchorsOnDelete (insert op r.ops))) ∧
      ∀ i : InsertOperation, r.assertInsertDoesNotCreateCycle i ≠ .error outOfFuelError := by
  intro r
  have h : Inv r := Inv.empty.applyEach calls
  refine ⟨?_, fun i => cycleWalk_ends _ _ _ (fun v hm => by cases hm) (Nat.le_add_right _ _)⟩
  rw [← not_coherent_insert_iff h.coherent hv]
  rcases apply_spec h op with ⟨r', status, hr, hc, -⟩ | ⟨e, hr, -, hc⟩
  · rw [hr]
    exact ⟨fun ⟨e, he⟩ => (by cases he), fun hbad => absurd hc hbad⟩
  · rw [hr]
    exact ⟨fun _ => hc, fun _ => ⟨e, rfl⟩⟩

/-- A cycle of two inserts, the second of which closes it. -/
theorem apply_rejects_iff_cycle :
    let a : TextOperation := .insert ⟨js "A:1", js "A", 1, 1, js "B:1", js "x"⟩
    let b : TextOperation := .insert ⟨js "B:1", js "B", 1, 2, js "A:1", js "y"⟩
    IsNew (empty.applyEach [a]).ops b ∧
      ¬ Acyclic (AnchoredOn (insert b (empty.applyEach [a]).ops)) := by
  intro a b
  have hrejected : ∃ e, ((empty.applyEach [a]).apply b).2 = .error e :=
    ⟨operationDependencyCycleError (js "B:1"), by decide +kernel⟩
  have hknown : ∀ o ∈ (empty.applyEach [a]).ops, o = a := by
    intro o ho
    have hentries : (empty.applyEach [a]).knownOperations.entries = [(js "A:1", a)] := by
      decide +kernel
    have hmem := InsMap.mem_entries.2 (mem_ops.1 ho)
    rw [hentries, List.mem_singleton] at hmem
    exact (Prod.mk.inj hmem).2
  rcases (@apply_rejects_iff [a] b (by decide +kernel)).1.1 hrejected with
    ⟨known, hk, hid, -⟩ | hcycle | ⟨-, i, d, -, hd, -⟩
  · rw [hknown known hk] at hid
    exact absurd hid (by decide)
  · exact hcycle
  · rcases hd with hd | hd
    · exact absurd hd (by simp [b])
    · exact absurd (hknown _ hd) (by simp [a])

/-! ## A rejection changes nothing -/

/-- The errors that a corrupt structure would raise. -/
def Corrupt (e : JsError) : Prop := ∃ id : JsString,
  e = invalidOperationError (js "Pending insert \"" ++ id ++
    js "\" does not resolve to an insert operation.") ∨
  e = invalidOperationError (js "Replica structure references missing sibling \"" ++ id ++ js "\".") ∨
  e = invalidOperationError (js "Replica structure references missing node \"" ++ id ++ js "\".")

theorem Corrupt.begins {e : JsError} (h : Corrupt e) : e.name = .invalidOperation ∧
    (e.message.take 8 = js "Pending " ∨ e.message.take 8 = js "Replica ") := by
  obtain ⟨id, rfl | rfl | rfl⟩ := h
  all_goals
    refine ⟨rfl, ?_⟩
    simp only [invalidOperationError, List.append_assoc]
    rw [List.take_append_of_le_length (by decide)]
    decide

/-- `validateOperation` finds nothing corrupt. -/
theorem not_corrupt_of_invalid {op : TextOperation} {e : JsError}
    (h : validateOperation op = .error e) : ¬ Corrupt e := by
  intro hc
  obtain ⟨-, hbegins⟩ := hc.begins
  unfold validateOperation at h
  cases op with
  | insert op => (repeat' split at h) <;> cases h <;> revert hbegins <;> decide
  | delete op => (repeat' split at h) <;> cases h <;> revert hbegins <;> decide

/-- Nor does the walk over the anchors. -/
theorem cycleWalk_not_corrupt {known : InsMap JsString TextOperation} {opId : JsString} {e : JsError} :
    ∀ {fuel : Nat} {cursor : JsString} {visited : InsSet JsString},
      cycleWalk known opId fuel cursor visited = .error e → ¬ Corrupt e
  | 0, _, _, h => by
    cases h
    exact fun hc => absurd hc.begins.1 (by decide)
  | fuel + 1, cursor, visited, h => by
    intro hc
    obtain ⟨hname, hbegins⟩ := hc.begins
    simp only [cycleWalk] at h
    split at h
    · cases h
    · split at h
      · cases h
        cases hname
      · split at h
        · cases h
          cases hname
        · split at h
          · cases h
          · cases h
            simp only [invalidOperationError, List.append_assoc] at hbegins
            rw [List.take_append_of_le_length (by decide)] at hbegins
            revert hbegins
            decide
          · exact cycleWalk_not_corrupt h hc

theorem checkAdmissible_not_corrupt {r : TextReplica} {op : TextOperation} {e : JsError}
    (h : r.checkAdmissible op = .error e) : ¬ Corrupt e := by
  cases op with
  | insert op =>
    simp only [checkAdmissible] at h
    split at h
    · exact cycleWalk_not_corrupt h
    · cases h
  | delete op =>
    intro hc
    obtain ⟨-, hbegins⟩ := hc.begins
    simp only [checkAdmissible] at h
    split at h
    · cases h
      simp only [invalidOperationError, List.append_assoc] at hbegins
      rw [List.take_append_of_le_length (by decide)] at hbegins
      revert hbegins
      decide
    · cases h

/-- The errors of `apply` are those of its checks. -/
theorem Inv.apply_error {r : TextReplica} (h : Inv r) {op : TextOperation} {e : JsError}
    (he : (r.apply op).2 = .error e) : validateOperation op = .error e ∨
      e = operationIdentityConflictError op.opId ∨ r.checkAdmissible op = .error e := by
  cases hv : validateOperation op with
  | error e' =>
    simp only [apply, hv, Except.error.injEq] at he
    exact Or.inl (by rw [he])
  | ok u =>
    cases hk : r.knownOperations.get? op.opId with
    | some known =>
      simp only [apply, hv, hk] at he
      split at he
      · cases he
        exact Or.inr (Or.inl rfl)
      · cases he
    | none =>
      cases ha : r.checkAdmissible op with
      | error e' =>
        simp only [apply, hv, hk, ha, Except.error.injEq] at he
        exact Or.inr (Or.inr (by rw [he]))
      | ok u =>
        obtain ⟨r', hr, -⟩ := apply_new h hv hk ((admit_ok_iff h hv hk).1 ha)
        rw [hr] at he
        cases he

/-- **A failed `apply` changes nothing.**  In every replica that the program can hold, an `apply`
that throws leaves every map as it was, and neither it nor `getVisibleElements` finds a pending
insert that does not resolve, a missing sibling or a missing node. -/
theorem apply_atomic {r : TextReplica} (h : Reachable r) (op : TextOperation) :
    (∀ e, (r.apply op).2 = .error e → (r.apply op).1 = r ∧ ¬ Corrupt e ∧ e ≠ outOfFuelError) ∧
      ∀ e, r.getVisibleElements ≠ .error e := by
  have hinv := h.inv
  constructor
  · intro e he
    have hcorrupt : ¬ Corrupt e := by
      rcases hinv.apply_error he with hinvalid | rfl | hadmit
      · exact not_corrupt_of_invalid hinvalid
      · exact fun hc => absurd hc.begins.1 (by simp [operationIdentityConflictError])
      · exact checkAdmissible_not_corrupt hadmit
    rcases apply_spec hinv op with ⟨r', status, hr, -⟩ | ⟨e', hr, hfuel, -⟩
    · rw [hr] at he
      cases he
    · rw [hr] at he
      cases he
      exact ⟨by rw [hr], hcorrupt, hfuel⟩
  · intro e he
    obtain ⟨elements, hv⟩ := hinv.visible_ok
    rw [hv] at he
    cases he

/-- A delete on whose identity a pending insert is anchored. -/
theorem apply_atomic_delete :
    let b : TextOperation := .insert ⟨js "B:1", js "B", 1, 2, js "A:1", js "y"⟩
    let d : TextOperation := .delete ⟨js "A:1", js "A", 1, 1, js "C:1"⟩
    (∃ e, ((empty.apply b).1.apply d).2 = .error e) ∧
      ((empty.apply b).1.apply d).1 = (empty.apply b).1 := by
  intro b d
  have herror : ((empty.apply b).1.apply d).2 = .error (invalidOperationError
      (js "Element dependency \"A:1\" resolved to a delete operation instead of an insert.")) := by
    decide +kernel
  have hatomic := apply_atomic (.apply .empty b) d
  exact ⟨⟨_, herror⟩, (hatomic.1 _ herror).1⟩

end TextReplica

end LocalFirst
