import LocalFirst.Client.Workspace

/-!
# Which session is open

What holds of the sessions of a page in every run: whatever is clicked, typed and delivered, and
whatever aborts.

* `Workspace.Inv` — a session is the current one, or its sync client is closed, and its write queue
  is empty or awaited by a teardown.
* `Inv.leave`, `Inv.release`, `Inv.closed` — what ends a session.
* `Inv.called`, `Inv.opened` — what begins one.
* `run_inv` — the invariant holds in every run.
-/

set_option autoImplicit false

namespace LocalFirst

namespace Teardown

theorem gate_goOn {t : Teardown} {i : ℕ} (h : t.gate = true → t.previous = i) :
    (t.goOn i).gate = false := by
  unfold goOn holds
  cases hgate : t.gate with
  | false => simp [hgate]
  | true => simp [h hgate]

theorem previous_goOn (t : Teardown) (i : ℕ) : (t.goOn i).previous = t.previous := by
  unfold goOn
  split <;> rfl

end Teardown

namespace Workspace

variable {segmentGraphemes : JsString → List JsString} {w w' : Workspace} {i j : ℕ}
  {s s' : ActiveSession} {opening : Opening}

/-! ## The invariant -/

/-- The current session: the last one that was opened, for the last transition. -/
structure Current (w : Workspace) (i : ℕ) : Prop where
  last : i + 1 = w.sessions.length
  generation : ∀ s, w.sessions[i]? = some s → s.generation = w.transitions.generation
  connected : ∀ s, w.sessions[i]? = some s → s.syncClosed = false ∧ s.closing = false
  idle : w.opening = none
  shown : w.invalidRoute = true ∨ w.textOf = some i ∧ ∀ s, w.sessions[i]? = some s →
    w.activeDocumentId = some s.documentId

/-- A session that is not the current one. -/
structure Left (w : Workspace) (i : ℕ) (s : ActiveSession) : Prop where
  disconnected : s.syncClosed = true
  drained : s.writeQueue = [] ∨ ∃ t ∈ w.teardowns, t.previous = i ∧ t.gate = false

/-- The generations of the sessions, in the order in which these were opened. -/
def generations (w : Workspace) : List ℕ := w.sessions.map (·.generation)

structure Inv (w : Workspace) : Prop where
  queue : w.transitions.Inv
  armed : w.transitions.pendingTarget ≠ none → w.transitions.prepare = some ()
  current : ∀ i, w.session = some i → w.Current i
  left : ∀ i s, w.sessions[i]? = some s → w.session ≠ some i → w.Left i s
  opening : ∀ opening, w.opening = some opening →
    opening.generation = w.transitions.generation ∧
      ∃ n : ℕ, w.transitions.drain[n]? = some .switching
  gates : ∀ t ∈ w.teardowns, t.gate = true → w.session = some t.previous ∧ w.isHolding = true
  passed : ∀ t ∈ w.teardowns, t.gate = false →
    w.session ≠ some t.previous ∧ t.previous < w.sessions.length
  ordered : w.generations.Pairwise (· < ·)
  bounded : ∀ g ∈ w.generations, g ≤ w.transitions.generation
  fresh : ∀ opening, w.opening = some opening → ∀ g ∈ w.generations, g < opening.generation

theorem Inv.start (db : Database) : Inv (start db) where
  queue := .new
  armed h := absurd rfl h
  current i h := by cases h
  left i s h := by cases h
  opening o h := by cases h
  gates t h := by cases h
  passed t h := by cases h
  ordered := .nil
  bounded g h := by cases h
  fresh o h := by cases h

/-- What the invariant reads. -/
theorem Inv.frame (h : Inv w) (htransitions : w'.transitions = w.transitions)
    (hsessions : w'.sessions = w.sessions) (hsession : w'.session = w.session)
    (hopening : w'.opening = w.opening) (hteardowns : w'.teardowns = w.teardowns)
    (hshown : w'.invalidRoute = true ∨ w'.textOf = w.textOf ∧
      w'.activeDocumentId = w.activeDocumentId ∧ w'.invalidRoute = w.invalidRoute) : Inv w' := by
  obtain ⟨db, transitions, sessions, session, opening, teardowns, address, active, composing, version,
    text, textOf, saveState, switching, invalid⟩ := w'
  cases htransitions
  cases hsessions
  cases hsession
  cases hopening
  cases hteardowns
  exact ⟨h.queue, h.armed, fun i hi => ⟨(h.current i hi).last, (h.current i hi).generation,
    (h.current i hi).connected, (h.current i hi).idle, by
      rcases hshown with hinvalid | ⟨htext, hactive, hinvalid⟩
      · exact Or.inl hinvalid
      · rw [htext, hactive, hinvalid]
        exact (h.current i hi).shown⟩,
    fun i s hs hi => ⟨(h.left i s hs hi).disconnected, (h.left i s hs hi).drained⟩, h.opening,
    h.gates, h.passed, h.ordered, h.bounded, h.fresh⟩

theorem Inv.setDb (h : Inv w) (db : Database) : Inv { w with db := db } :=
  h.frame rfl rfl rfl rfl rfl (Or.inr ⟨rfl, rfl, rfl⟩)

/-- No session is current while one is being opened. -/
theorem Inv.none_current (h : Inv w) (hopening : w.opening = some opening) : w.session = none := by
  cases hsession : w.session with
  | none => rfl
  | some i =>
    have hidle := (h.current i hsession).idle
    rw [hopening] at hidle
    cases hidle

theorem current_eq (hsession : w.session = some i) : w.current = w.sessions[i]? := by
  unfold Workspace.current
  rw [hsession]
  rfl

/-! ## One session changes -/

@[simp] theorem getElem?_update (w : Workspace) (f : ActiveSession → ActiveSession) :
    (w.update i f).sessions[j]? = if i = j then w.sessions[j]?.map f else w.sessions[j]? := by
  show (w.sessions.modify i f)[j]? = _
  rw [List.getElem?_modify]
  split
  · rfl
  · exact Option.map_id'

@[simp] theorem length_update (w : Workspace) (f : ActiveSession → ActiveSession) :
    (w.update i f).sessions.length = w.sessions.length := List.length_modify ..

theorem generations_update {f : ActiveSession → ActiveSession}
    (h : ∀ s, w.sessions[i]? = some s → (f s).generation = s.generation) :
    (w.update i f).generations = w.generations := by
  refine List.ext_getElem? fun j => ?_
  unfold generations
  rw [List.getElem?_map, List.getElem?_map, getElem?_update]
  split
  · rename_i hij
    subst hij
    cases hs : w.sessions[i]? with
    | none => rfl
    | some s => exact congrArg some (h s hs)
  · rfl

/-- Only the current session has the generation of the last transition, if there is a current one. -/
theorem Inv.index_eq (h : Inv w) (hi : w.session = some i) (hs : w.sessions[j]? = some s)
    (hgeneration : w.transitions.isCurrent s.generation = true) : j = i := by
  have hcurrent := h.current i hi
  have hj := (List.getElem?_eq_some_iff.1 hs).1
  by_contra hne
  have hlt : j < i := by
    have := hcurrent.last
    omega
  have hi' : i < w.sessions.length := by
    have := hcurrent.last
    omega
  have hless := List.pairwise_iff_getElem.1 h.ordered j i (by rwa [generations, List.length_map])
    (by rwa [generations, List.length_map]) hlt
  simp only [generations, List.getElem_map] at hless
  have hlast := hcurrent.generation _ (List.getElem?_eq_getElem hi')
  have hsame := (List.getElem?_eq_some_iff.1 hs).2
  rw [SessionTransitionQueue.isCurrent, decide_eq_true_iff] at hgeneration
  rw [hsame, hgeneration, hlast] at hless
  exact lt_irrefl _ hless

/-- A session changes, but not in what the invariant says of it. -/
theorem Inv.update (h : Inv w) {f : ActiveSession → ActiveSession}
    (hkeeps : ∀ s, w.sessions[i]? = some s → (f s).generation = s.generation ∧
      (f s).documentId = s.documentId ∧ (f s).syncClosed = s.syncClosed ∧
      (w.session = some i → (f s).closing = s.closing))
    (hqueue : ∀ s, w.sessions[i]? = some s → w.session ≠ some i → s.writeQueue = [] →
      (f s).writeQueue = [])
    (hgates : ∀ t ∈ w.teardowns, t.gate = true → t.previous = i →
      ∀ s, w.sessions[i]? = some s → s.compositionGate.isHolding = true →
        (f s).compositionGate.isHolding = true) : Inv (w.update i f) := by
  have hgenerations := generations_update fun s hs => (hkeeps s hs).1
  have hget : ∀ {j s'}, (w.update i f).sessions[j]? = some s' → ∃ s, w.sessions[j]? = some s ∧
      (i = j ∧ s' = f s ∨ i ≠ j ∧ s' = s) := by
    intro j s' hs'
    rw [getElem?_update] at hs'
    split at hs'
    · rename_i hij
      obtain ⟨s, hs, rfl⟩ := Option.map_eq_some_iff.1 hs'
      exact ⟨s, hs, Or.inl ⟨hij, rfl⟩⟩
    · rename_i hij
      exact ⟨s', hs', Or.inr ⟨hij, rfl⟩⟩
  constructor
  case queue => exact h.queue
  case armed => exact h.armed
  case opening => exact h.opening
  case ordered => rw [hgenerations]; exact h.ordered
  case bounded => rw [hgenerations]; exact h.bounded
  case fresh => rw [hgenerations]; exact h.fresh
  case passed =>
    intro t ht hgate
    rw [length_update]
    exact h.passed t ht hgate
  case current =>
    intro j hj
    have hcurrent := h.current j hj
    refine ⟨by rw [length_update]; exact hcurrent.last, fun s' hs' => ?_, fun s' hs' => ?_,
      hcurrent.idle, hcurrent.shown.imp_right (And.imp_right fun hactive s' hs' => ?_)⟩
    · obtain ⟨s, hs, ⟨rfl, rfl⟩ | ⟨-, rfl⟩⟩ := hget hs'
      · rw [(hkeeps s hs).1]
        exact hcurrent.generation s hs
      · exact hcurrent.generation s' hs
    · obtain ⟨s, hs, ⟨rfl, rfl⟩ | ⟨-, rfl⟩⟩ := hget hs'
      · rw [(hkeeps s hs).2.2.1, (hkeeps s hs).2.2.2 hj]
        exact hcurrent.connected s hs
      · exact hcurrent.connected s' hs
    · obtain ⟨s, hs, ⟨rfl, rfl⟩ | ⟨-, rfl⟩⟩ := hget hs'
      · rw [(hkeeps s hs).2.1]
        exact hactive s hs
      · exact hactive s' hs
  case left =>
    intro j s' hs' hj
    obtain ⟨s, hs, ⟨rfl, rfl⟩ | ⟨-, rfl⟩⟩ := hget hs'
    · have hleft := h.left i s hs hj
      exact ⟨by rw [(hkeeps s hs).2.2.1]; exact hleft.disconnected,
        hleft.drained.imp_left (hqueue s hs hj)⟩
    · exact ⟨(h.left j s' hs hj).disconnected, (h.left j s' hs hj).drained⟩
  case gates =>
    intro t ht hgate
    obtain ⟨hsession, hholding⟩ := h.gates t ht hgate
    refine ⟨hsession, ?_⟩
    unfold isHolding at hholding ⊢
    rw [current_eq hsession] at hholding
    rw [current_eq (w := w.update i f) hsession, getElem?_update]
    split
    · rename_i hij
      obtain ⟨s, hs, hholds⟩ := (Option.any_eq_true _ _).1 hholding
      rw [hs]
      exact hgates t ht hgate hij.symm s (by rw [hij]; exact hs) hholds
    · exact hholding

/-! ## Leaving a session -/

/-- The current session is left, and a teardown awaits its write queue; none awaits a gate. -/
theorem Inv.leave (h : Inv w) (hi : w.session = some i) {teardowns : List Teardown}
    (hmem : ∃ t ∈ teardowns, t.previous = i ∧ t.gate = false)
    (hgates : ∀ t ∈ teardowns, t.gate = false ∧ t.previous < w.sessions.length)
    (hkeep : ∀ t ∈ w.teardowns, t.gate = false →
      ∃ t' ∈ teardowns, t'.previous = t.previous ∧ t'.gate = false) :
    Inv { w.leave i with teardowns := teardowns } := by
  have hgenerations : { w.leave i with teardowns := teardowns }.generations = w.generations :=
    generations_update (w := w) fun _ _ => rfl
  constructor
  case queue => exact h.queue
  case armed => exact h.armed
  case opening => exact h.opening
  case ordered => rw [hgenerations]; exact h.ordered
  case bounded => rw [hgenerations]; exact h.bounded
  case fresh => rw [hgenerations]; exact h.fresh
  case current => exact fun j hj => by (cases hj)
  case passed =>
    intro t ht _
    refine ⟨fun hnone => by (cases hnone), ?_⟩
    show t.previous < (w.sessions.modify i _).length
    rw [List.length_modify]
    exact (hgates t ht).2
  case gates =>
    intro t ht hgate
    rw [(hgates t ht).1] at hgate
    cases hgate
  case left =>
    intro j s' hs' _
    have hs' : (w.update i fun s => { s with syncClosed := true }).sessions[j]? = some s' := hs'
    rw [getElem?_update] at hs'
    split at hs'
    · rename_i hij
      obtain ⟨s, hs, rfl⟩ := Option.map_eq_some_iff.1 hs'
      exact ⟨rfl, Or.inr (by rw [← hij]; exact hmem)⟩
    · rename_i hij
      have hleft := h.left j s' hs' (by rw [hi]; simpa using hij)
      refine ⟨hleft.disconnected, hleft.drained.imp_right ?_⟩
      rintro ⟨t, ht, hprevious, hgate⟩
      obtain ⟨t', ht', hprevious', hgate'⟩ := hkeep t ht hgate
      exact ⟨t', ht', hprevious'.trans hprevious, hgate'⟩

theorem teardownSession_none (hsession : w.session = none) (awaited : Bool) :
    w.teardownSession awaited = w := by
  unfold Workspace.teardownSession
  rw [hsession]

theorem teardownSession_holding (hsession : w.session = some i) (hholding : w.isHolding = true)
    (awaited : Bool) :
    w.teardownSession awaited = { w with teardowns := w.teardowns ++ [⟨i, true, awaited⟩] } := by
  unfold Workspace.teardownSession
  rw [hsession]
  exact if_pos hholding

theorem teardownSession_leaves (hsession : w.session = some i) (hholding : w.isHolding = false)
    (awaited : Bool) : w.teardownSession awaited =
      { w.leave i with teardowns := w.teardowns ++ [⟨i, false, awaited⟩] } := by
  unfold Workspace.teardownSession
  rw [hsession]
  exact if_neg (by rw [hholding]; exact Bool.false_ne_true)

/-- Where a gate does not hold, no teardown awaits one. -/
theorem Inv.gates_passed (h : Inv w) (hholding : w.isHolding = false) {t : Teardown}
    (ht : t ∈ w.teardowns) : t.gate = false := by
  rw [← Bool.not_eq_true]
  intro hgate
  rw [(h.gates t ht hgate).2] at hholding
  cases hholding

theorem Inv.current_lt (h : Inv w) (hi : w.session = some i) : i < w.sessions.length := by
  have := (h.current i hi).last
  omega

theorem Inv.previous_lt (h : Inv w) {t : Teardown} (ht : t ∈ w.teardowns) :
    t.previous < w.sessions.length := by
  cases hgate : t.gate with
  | false => exact (h.passed t ht hgate).2
  | true => exact h.current_lt (h.gates t ht hgate).1

theorem Inv.teardownSession (h : Inv w) (awaited : Bool) : Inv (w.teardownSession awaited) := by
  obtain hsession | ⟨i, hsession⟩ := Option.eq_none_or_eq_some w.session
  · rwa [teardownSession_none hsession]
  · cases hholding : w.isHolding with
    | true =>
      rw [teardownSession_holding hsession hholding]
      refine ⟨h.queue, h.armed, fun j hj => ?_, fun j s hs hj => ?_, h.opening, fun t ht hgate => ?_,
        fun t ht hgate => ?_, h.ordered, h.bounded, h.fresh⟩
      · have hcurrent := h.current j hj
        exact ⟨hcurrent.last, hcurrent.generation, hcurrent.connected, hcurrent.idle, hcurrent.shown⟩
      · have hleft := h.left j s hs hj
        refine ⟨hleft.disconnected, hleft.drained.imp_right ?_⟩
        rintro ⟨t, ht, hprevious⟩
        exact ⟨t, List.mem_append_left _ ht, hprevious⟩
      · rcases List.mem_append.1 ht with ht | ht
        · exact h.gates t ht hgate
        · rw [List.mem_singleton.1 ht]
          exact ⟨hsession, hholding⟩
      · rcases List.mem_append.1 ht with ht | ht
        · exact h.passed t ht hgate
        · rw [List.mem_singleton.1 ht] at hgate
          cases hgate
    | false =>
      rw [teardownSession_leaves hsession hholding]
      refine h.leave hsession ⟨_, List.mem_append_right _ (List.mem_singleton_self _), rfl, rfl⟩
        (fun t ht => ?_) fun t ht hgate => ⟨t, List.mem_append_left _ ht, rfl, hgate⟩
      rcases List.mem_append.1 ht with ht | ht
      · exact ⟨h.gates_passed hholding ht, h.previous_lt ht⟩
      · rw [List.mem_singleton.1 ht]
        exact ⟨rfl, h.current_lt hsession⟩

/-! ## Releasing a gate -/

theorem Inv.release (h : Inv w) (i : ℕ) : Inv (w.release i) := by
  unfold Workspace.release
  simp only
  split
  · rename_i hany
    obtain ⟨t, ht, hholds⟩ := List.any_eq_true.1 hany
    have ht : t ∈ w.teardowns := ht
    obtain ⟨hgate, hprevious⟩ := Bool.and_eq_true_iff.1 hholds
    have hsession : w.session = some i := by
      rw [(h.gates t ht hgate).1, eq_of_beq hprevious]
    have hgates : ∀ t ∈ w.teardowns, (t.goOn i).gate = false := fun t ht =>
      Teardown.gate_goOn fun hgate => by
        have heq := (h.gates t ht hgate).1
        rw [hsession] at heq
        exact (Option.some.inj heq).symm
    have hleft : Inv { w.leave i with teardowns := w.teardowns.map (·.goOn i) } := by
      refine h.leave hsession ⟨_, List.mem_map_of_mem ht, ?_, hgates t ht⟩ (fun t' ht' => ?_)
        fun t' ht' _ => ⟨_, List.mem_map_of_mem ht', t'.previous_goOn i, hgates t' ht'⟩
      · rw [t.previous_goOn i, eq_of_beq hprevious]
      · obtain ⟨t, ht, rfl⟩ := List.mem_map.1 ht'
        rw [t.previous_goOn i]
        exact ⟨hgates t ht, h.previous_lt ht⟩
    have hreleased := hleft.update (i := i)
      (f := fun s => { s with compositionGate := s.compositionGate.release })
      (fun s _ => ⟨rfl, rfl, rfl, fun _ => rfl⟩) (fun s _ _ hnil => hnil) fun t' ht' hgate => by
        obtain ⟨t, ht, rfl⟩ := List.mem_map.1 ht'
        rw [hgates t ht] at hgate
        cases hgate
    refine hreleased.frame rfl ?_ rfl rfl rfl (Or.inr ⟨rfl, rfl, rfl⟩)
    show (w.sessions.modify i _).modify i _ = (w.sessions.modify i _).modify i _
    rw [List.modify_modify_eq, List.modify_modify_eq]
    rfl
  · rename_i hany
    refine h.update (fun s _ => ⟨rfl, rfl, rfl, fun _ => rfl⟩) (fun s _ _ hnil => hnil)
      fun t ht hgate hprevious => ?_
    refine absurd (List.any_eq_true.2 ⟨t, ht, ?_⟩) hany
    unfold Teardown.holds
    rw [hgate, hprevious]
    exact beq_self_eq_true i

/-- A teardown ends with the session it is about. -/
theorem Inv.closed (h : Inv w) (k : ℕ) : Inv (w.closed k) := by
  unfold Workspace.closed
  cases hk : w.teardowns[k]? with
  | none => exact h
  | some t =>
    simp only
    split
    · exact h
    · rename_i hends
      rw [not_or, Bool.not_eq_true, Bool.not_eq_true] at hends
      obtain ⟨hgate, hqueue⟩ := hends
      have ht := List.mem_of_getElem? hk
      have hsession := (h.passed t ht hgate).1
      have hkeep : ∀ {t'}, t' ∈ w.teardowns.eraseIdx k → t' ∈ w.teardowns := fun ht' =>
        List.mem_of_mem_eraseIdx ht'
      have herased : Inv { w with teardowns := w.teardowns.eraseIdx k } := by
        refine ⟨h.queue, h.armed, fun j hj => ?_, fun j s hs hj => ?_, h.opening,
          fun t ht hgate => h.gates t (hkeep ht) hgate, fun t ht hgate => h.passed t (hkeep ht) hgate,
          h.ordered, h.bounded, h.fresh⟩
        · have hcurrent := h.current j hj
          exact ⟨hcurrent.last, hcurrent.generation, hcurrent.connected, hcurrent.idle, hcurrent.shown⟩
        · have hleft := h.left j s hs hj
          refine ⟨hleft.disconnected, ?_⟩
          by_cases hsame : t.previous = j
          · rw [← hsame] at hs
            rw [hs] at hqueue
            exact Or.inl (by simpa using hqueue)
          · refine hleft.drained.imp_right ?_
            rintro ⟨t', ht', hprevious, hgate'⟩
            obtain ⟨k', hk'⟩ := List.mem_iff_getElem?.1 ht'
            refine ⟨t', List.mem_eraseIdx_iff_getElem?.2 ⟨k', ?_, hk'⟩, hprevious, hgate'⟩
            rintro rfl
            rw [hk] at hk'
            cases hk'
            exact hsame hprevious
      refine Inv.release ?_ _
      exact herased.update (fun s _ => ⟨rfl, rfl, rfl, fun hsame => absurd hsame hsession⟩)
        (fun s _ _ hnil => hnil) fun t' _ _ _ s _ hholds => hholds

/-! ## Transitions -/

end Workspace

namespace SessionTransitionQueue

variable {q : SessionTransitionQueue Unit Unit} {n : ℕ}

/-- A flush awaits `prepare` before it calls `switchTo`. -/
theorem flushLoop_calls (harmed : q.pendingTarget ≠ none → q.prepare = some ()) :
    (q.flushLoop n).calls = q.calls := by
  unfold flushLoop
  split
  · rename_i hpending hswitch
    rw [harmed (by rw [hpending]; exact Option.some_ne_none _)]
    rfl
  · rfl

theorem step_calls (harmed : q.pendingTarget ≠ none → q.prepare = some ())
    {e : TransitionEvent Unit Unit} (he : e = .start n ∨ e = .switched n) :
    (q.step e).calls = q.calls := by
  rcases he with rfl | rfl
  · unfold step
    simp only
    split
    · unfold flush
      split
      · rfl
      · exact flushLoop_calls harmed
    · rfl
  · unfold step
    simp only
    split
    · exact flushLoop_calls harmed
    · rfl

end SessionTransitionQueue

namespace Workspace

variable {segmentGraphemes : JsString → List JsString} {w w' : Workspace} {i j n : ℕ}
  {s s' : ActiveSession} {opening : Opening}

/-- What a reaction of the queue does to it, if it does not call `switchTo`. -/
structure Waits (q q' : SessionTransitionQueue Unit Unit) : Prop where
  calls : q'.calls = q.calls
  generation : q'.generation = q.generation
  pendingTarget : q'.pendingTarget = q.pendingTarget
  prepare : q'.prepare = q.prepare
  switchTo : q'.switchTo = q.switchTo

theorem Waits.refl (q : SessionTransitionQueue Unit Unit) : Waits q q := ⟨rfl, rfl, rfl, rfl, rfl⟩

/-- **A reaction of the queue** calls `switchTo` after `prepare`, or waits.  While `switchTo` runs, it
does nothing. -/
theorem Inv.reaction (h : Inv w) {e : TransitionEvent Unit Unit}
    (he : e = .start n ∨ e = .prepared n ∨ e = .switched n ∧ w.opening = none) :
    (∃ target, e = .prepared n ∧ w.opening = none ∧ w.transitions.pendingTarget = some target ∧
      w.transitions.step e = { w.transitions with
        inFlight := true
        pendingTarget := none
        generation := w.transitions.generation + 1
        calls := w.transitions.calls ++ [⟨(), target, w.transitions.generation + 1⟩]
        drain := w.transitions.drain.set n .switching } ∧ n < w.transitions.drain.length) ∨
    Waits w.transitions (w.transitions.step e) ∧
      (w.opening.isSome = true → w.transitions.step e = w.transitions) := by
  have hrequested : SessionTransitionQueue.requested e = none := by
    rcases he with rfl | rfl | ⟨rfl, -⟩ <;> rfl
  rcases h.queue.step_cases e with ⟨-, heq⟩ | ⟨documentId, switchTo, prepare, rfl, -⟩ |
    ⟨m, flush, hresumes, hflush, hcontinues⟩
  · rw [heq]
    exact Or.inr ⟨.refl _, fun _ => rfl⟩
  · cases hrequested
  · -- a flush goes on, so no call is in progress but one that has ended
    have hidle : w.opening = none := by
      cases hopening : w.opening with
      | none => rfl
      | some opening =>
        obtain ⟨-, n', hswitching⟩ := h.opening opening hopening
        have hm := (h.queue.resumes hresumes hflush).active hswitching (by decide) (by decide)
        rw [hm, hflush] at hswitching
        cases hswitching
        rcases he with rfl | rfl | ⟨rfl, hnone⟩
        · cases hresumes
        · cases hresumes
        · rw [hopening] at hnone
          cases hnone
    have hsome : w.opening.isSome = true → w.transitions.step e = w.transitions := by
      rw [hidle]
      exact fun hsome => by (cases hsome)
    have hm : m = n := by
      rcases he with rfl | rfl | ⟨rfl, -⟩ <;> cases hresumes <;> rfl
    subst hm
    cases hcontinues with
    | calls target switchTo hpending hswitch hq _ =>
      refine Or.inl ⟨target, ?_, hidle, hpending, hq, (List.getElem?_eq_some_iff.1 hflush).1⟩
      rcases he with he | he | ⟨he, -⟩
      · have hcalls := SessionTransitionQueue.step_calls h.armed (Or.inl he)
        rw [hq] at hcalls
        exact absurd (congrArg List.length hcalls) (by simp)
      · exact he
      · have hcalls := SessionTransitionQueue.step_calls h.armed (Or.inr he)
        rw [hq] at hcalls
        exact absurd (congrArg List.length hcalls) (by simp)
    | prepares _ hq => exact Or.inr ⟨by rw [hq]; exact ⟨rfl, rfl, rfl, rfl, rfl⟩, hsome⟩
    | ends result hsettled hdone hq => exact Or.inr ⟨by rw [hq]; exact ⟨rfl, rfl, rfl, rfl, rfl⟩, hsome⟩

/-- Where the gate does not hold, the current session is left at once. -/
theorem session_teardownSession (hholding : w.isHolding = false) (awaited : Bool) :
    (w.teardownSession awaited).session = none := by
  obtain hsession | ⟨i, hsession⟩ := Option.eq_none_or_eq_some w.session
  · rw [teardownSession_none hsession, hsession]
  · rw [teardownSession_leaves hsession hholding]
    rfl

/-- **`openSession` leaves the current session** before its first await. -/
theorem Inv.called (h : Inv w) (hholding : w.isHolding = false)
    {q : SessionTransitionQueue Unit Unit} (hq : q.Inv) (hpending : q.pendingTarget = none)
    (hgeneration : q.generation = w.transitions.generation + 1)
    (hswitching : ∃ n : ℕ, q.drain[n]? = some .switching) (documentId : JsString) :
    Inv ({ w with transitions := q }.openSession documentId q.generation) := by
  have heq : { w with transitions := q }.openSession documentId q.generation =
      { w.teardownSession true with
        transitions := q
        switching := true
        invalidRoute := false
        text := []
        textOf := none
        saveState := .loading
        opening := some ⟨documentId, q.generation, .tearingDown⟩ } := by
    have hcurrent : q.isCurrent q.generation = true := decide_eq_true rfl
    unfold openSession
    rw [if_pos hcurrent]
    obtain hsession | ⟨i, hsession⟩ := Option.eq_none_or_eq_some w.session
    · rw [teardownSession_none hsession]
      refine teardownSession_none ?_ true
      exact hsession
    · rw [teardownSession_leaves hsession hholding]
      refine teardownSession_leaves ?_ ?_ true
      · exact hsession
      · exact hholding
  have hleft := h.teardownSession true
  have hnone := session_teardownSession hholding true
  have hbounded : ∀ g ∈ (w.teardownSession true).generations, g ≤ w.transitions.generation := by
    have := hleft.bounded
    obtain hsession | ⟨i, hsession⟩ := Option.eq_none_or_eq_some w.session
    · rwa [teardownSession_none hsession] at this ⊢
    · rwa [teardownSession_leaves hsession hholding] at this ⊢
  rw [heq]
  constructor
  case queue => exact hq
  case armed => exact fun hsome => absurd hpending hsome
  case current =>
    intro i hi
    have hi : (w.teardownSession true).session = some i := hi
    rw [hnone] at hi
    cases hi
  case left =>
    intro i s hs hi
    have := hleft.left i s hs hi
    exact ⟨this.disconnected, this.drained⟩
  case opening =>
    rintro opening hopening
    cases hopening
    exact ⟨rfl, hswitching⟩
  case gates => exact hleft.gates
  case passed => exact hleft.passed
  case ordered => exact hleft.ordered
  case bounded =>
    intro g hg
    have := hbounded g hg
    show g ≤ q.generation
    omega
  case fresh =>
    rintro opening hopening g hg
    cases hopening
    have := hbounded g hg
    show g < q.generation
    omega

theorem Inv.transition (h : Inv w) {e : TransitionEvent Unit Unit}
    (he : e = .start n ∨ e = .prepared n ∧ w.isHolding = false ∨ e = .switched n ∧ w.opening = none) :
    Inv (w.transition e) := by
  have hqueue := h.queue.step e
  rcases h.reaction (he.imp_right (Or.imp_left And.left)) with
    ⟨target, he', hidle, hpending, hq, hn⟩ | ⟨hwaits, hsame⟩
  · have hholding : w.isHolding = false := by
      rcases he with rfl | ⟨-, hholding⟩ | ⟨rfl, -⟩
      · cases he'
      · exact hholding
      · cases he'
    have heq : w.transition e =
        { w with transitions := w.transitions.step e }.openSession target
          (w.transitions.step e).generation := by
      unfold Workspace.transition
      simp only [hq, List.length_append, List.length_singleton, Nat.lt_succ_self, if_true,
        List.getLast?_concat]
    rw [heq]
    exact h.called hholding hqueue (by rw [hq]) (by rw [hq])
      ⟨n, by rw [hq]; exact List.getElem?_set_self hn⟩ target
  · have heq : w.transition e = { w with transitions := w.transitions.step e } := by
      unfold Workspace.transition
      simp only [hwaits.calls, lt_irrefl, if_false]
    rw [heq]
    refine ⟨hqueue, ?_, fun i hi => ?_, fun i s hs hi => ?_, fun opening hopening => ?_, h.gates,
      h.passed, h.ordered, ?_, h.fresh⟩
    · show (w.transitions.step e).pendingTarget ≠ none → (w.transitions.step e).prepare = some ()
      rw [hwaits.pendingTarget, hwaits.prepare]
      exact h.armed
    · have hcurrent := h.current i hi
      refine ⟨hcurrent.last, ?_, hcurrent.connected, hcurrent.idle, hcurrent.shown⟩
      show ∀ s, w.sessions[i]? = some s → s.generation = (w.transitions.step e).generation
      rw [hwaits.generation]
      exact hcurrent.generation
    · have hleft := h.left i s hs hi
      exact ⟨hleft.disconnected, hleft.drained⟩
    · have hopening : w.opening = some opening := hopening
      show opening.generation = (w.transitions.step e).generation ∧
        ∃ n : ℕ, (w.transitions.step e).drain[n]? = some .switching
      rw [hsame (by rw [hopening]; rfl)]
      exact h.opening opening hopening
    · show ∀ g ∈ w.generations, g ≤ (w.transitions.step e).generation
      rw [hwaits.generation]
      exact h.bounded

/-- A request waits for its flush. -/
theorem Inv.requestSession (h : Inv w) (documentId : JsString) : Inv (w.requestSession documentId) := by
  refine ⟨h.queue.step (.request documentId () (some ())), fun _ => rfl, fun i hi => ?_,
    fun i s hs hi => ?_, fun opening hopening => ?_, h.gates, h.passed, h.ordered, h.bounded, h.fresh⟩
  · have hcurrent := h.current i hi
    exact ⟨hcurrent.last, hcurrent.generation, hcurrent.connected, hcurrent.idle, hcurrent.shown⟩
  · have hleft := h.left i s hs hi
    exact ⟨hleft.disconnected, hleft.drained⟩
  · obtain ⟨hgeneration, n, hn⟩ := h.opening opening hopening
    exact ⟨hgeneration, n, by
      show (w.transitions.drain ++ [Flush.waiting])[n]? = some .switching
      rw [List.getElem?_append_left (List.getElem?_eq_some_iff.1 hn).1, hn]⟩

/-! ## Opening a session -/

/-- An entry of a list that got one more is an old one, or the new one. -/
theorem getElem?_concat {α : Type} {l : List α} {x y : α} (h : (l ++ [x])[i]? = some y) :
    l[i]? = some y ∧ i < l.length ∨ i = l.length ∧ y = x := by
  rcases Nat.lt_or_ge i l.length with hi | hi
  · rw [List.getElem?_append_left hi] at h
    exact Or.inl ⟨h, hi⟩
  · rw [List.getElem?_append_right hi, List.getElem?_singleton] at h
    split at h
    · cases h
      exact Or.inr ⟨by omega, rfl⟩
    · cases h

/-- What `openSession` does between its awaits. -/
theorem Inv.enter (h : Inv w) (hopening : w.opening = some opening) (stage : OpenStage) :
    Inv (w.enter opening stage) := by
  have hnone := h.none_current hopening
  refine ⟨h.queue, h.armed, fun i hi => ?_, fun i s hs hi => ?_, fun o ho => ?_, h.gates, h.passed,
    h.ordered, h.bounded, fun o ho => ?_⟩
  · have hi : w.session = some i := hi
    rw [hnone] at hi
    cases hi
  · have hleft := h.left i s hs hi
    exact ⟨hleft.disconnected, hleft.drained⟩
  · cases ho
    exact h.opening opening hopening
  · cases ho
    exact h.fresh opening hopening

/-- `openSession` ends without a session. -/
theorem Inv.abandon (h : Inv w) (hopening : w.opening = some opening) :
    Inv { w with opening := none } := by
  have hnone := h.none_current hopening
  refine ⟨h.queue, h.armed, fun i hi => ?_, fun i s hs hi => ?_, fun o ho => by (cases ho), h.gates,
    h.passed, h.ordered, h.bounded, fun o ho => by (cases ho)⟩
  · have hi : w.session = some i := hi
    rw [hnone] at hi
    cases hi
  · have hleft := h.left i s hs hi
    exact ⟨hleft.disconnected, hleft.drained⟩

theorem Inv.openFailed (h : Inv w) (hopening : w.opening = some opening) :
    Inv (w.openFailed opening) := by
  have habandon := h.abandon hopening
  have hnone := h.none_current hopening
  unfold Workspace.openFailed
  split
  · refine ⟨habandon.queue, habandon.armed, fun i hi => ?_, fun i s hs hi => ?_, habandon.opening,
      habandon.gates, habandon.passed, habandon.ordered, habandon.bounded, habandon.fresh⟩
    · have hi : w.session = some i := hi
      rw [hnone] at hi
      cases hi
    · have hleft := h.left i s hs hi
      exact ⟨hleft.disconnected, hleft.drained⟩
  · exact habandon

/-- A new session is the current one. -/
theorem Inv.opened (h : Inv w) (hopening : w.opening = some opening)
    (controller : LocalDocumentController) : Inv (w.opened opening controller) := by
  have hnone := h.none_current hopening
  obtain ⟨hgeneration, -⟩ := h.opening opening hopening
  unfold Workspace.opened
  split
  · split
    · exact h.openFailed hopening
    · have hnew : ∀ s, (w.sessions ++ [sessionOf opening controller])[w.sessions.length]? = some s →
          s = sessionOf opening controller := by
        intro s hs
        rw [List.getElem?_concat_length] at hs
        exact (Option.some.inj hs).symm
      constructor
      case queue => exact h.queue
      case armed => exact h.armed
      case opening => exact fun o ho => by (cases ho)
      case fresh => exact fun o ho => by (cases ho)
      case gates =>
        intro t ht hgate
        have := (h.gates t ht hgate).1
        rw [hnone] at this
        cases this
      case passed =>
        intro t ht hgate
        have hlt := (h.passed t ht hgate).2
        refine ⟨fun hsame => ?_, ?_⟩
        · have := Option.some.inj hsame
          omega
        · show t.previous < (w.sessions ++ [sessionOf opening controller]).length
          rw [List.length_append]
          omega
      case current =>
        intro i hi
        cases hi
        refine ⟨?_, fun s hs => ?_, fun s hs => ?_, rfl, Or.inr ⟨rfl, fun s hs => ?_⟩⟩
        · show w.sessions.length + 1 = (w.sessions ++ [sessionOf opening controller]).length
          rw [List.length_append]
          rfl
        · rw [hnew s hs]
          exact hgeneration
        · rw [hnew s hs]
          exact ⟨rfl, rfl⟩
        · rw [hnew s hs]
          rfl
      case left =>
        intro i s hs hi
        rcases getElem?_concat hs with ⟨hs, -⟩ | ⟨rfl, -⟩
        · have hleft := h.left i s hs (by rw [hnone]; exact (Option.some_ne_none i).symm)
          exact ⟨hleft.disconnected, hleft.drained⟩
        · exact absurd rfl hi
      case ordered =>
        show ((w.sessions ++ [sessionOf opening controller]).map _).Pairwise _
        rw [List.map_append, List.pairwise_append]
        refine ⟨h.ordered, List.pairwise_singleton _ _, fun g hg g' hg' => ?_⟩
        rw [List.mem_singleton.1 hg']
        exact h.fresh opening hopening g hg
      case bounded =>
        show ∀ g ∈ (w.sessions ++ [sessionOf opening controller]).map _, g ≤ w.transitions.generation
        intro g hg
        rw [List.map_append] at hg
        rcases List.mem_append.1 hg with hg | hg
        · exact h.bounded g hg
        · rw [List.mem_singleton.1 hg]
          exact hgeneration.le
  · exact h.abandon hopening

theorem Inv.tornDown (h : Inv w) (hopening : w.opening = some opening) : Inv (w.tornDown opening) := by
  unfold Workspace.tornDown
  split
  · exact h
  · split
    · exact h.enter hopening _
    · exact h.abandon hopening

theorem Inv.ensured (h : Inv w) (hopening : w.opening = some opening) (timestamp : JsString)
    (aborted : Bool) : Inv (w.ensured opening timestamp aborted) := by
  unfold Workspace.ensured
  split
  · exact h.openFailed hopening
  · split
    · exact h.openFailed hopening
    · rename_i db _
      exact (h.setDb db).enter hopening _

theorem Inv.listed (h : Inv w) (hopening : w.opening = some opening) (aborted : Bool) :
    Inv (w.listed opening aborted) := by
  unfold Workspace.listed
  split
  · exact h.openFailed hopening
  · exact h.enter hopening _

theorem Inv.created (h : Inv w) (hopening : w.opening = some opening) (env : Surroundings)
    (aborted : Bool) : Inv (w.created opening env aborted) := by
  unfold Workspace.created
  split
  · exact h.openFailed hopening
  · split
    · rename_i db _
      exact (h.setDb db).openFailed hopening
    · rename_i db _
      exact (h.setDb db).opened hopening _

/-! ## Navigation -/

theorem Inv.navigateToDocument (h : Inv w) (documentId : JsString) :
    Inv (w.navigateToDocument documentId) := by
  unfold Workspace.navigateToDocument
  split
  · exact h.frame rfl rfl rfl rfl rfl (Or.inl rfl)
  · split
    · exact h
    · refine Inv.requestSession ?_ documentId
      exact h.frame rfl rfl rfl rfl rfl (Or.inr ⟨rfl, rfl, rfl⟩)

theorem Inv.handlePopState (h : Inv w) (routed : DocumentRouteRead) :
    Inv (w.handlePopState routed) := by
  unfold Workspace.handlePopState
  split
  · refine Inv.teardownSession ?_ false
    exact h.frame rfl rfl rfl rfl rfl (Or.inl rfl)
  · refine Inv.requestSession ?_ _
    exact h.frame rfl rfl rfl rfl rfl (Or.inr ⟨rfl, rfl, rfl⟩)

theorem Inv.boot (h : Inv w) (timestamp : JsString) (routed : DocumentRouteRead) (aborted : Bool) :
    Inv (w.boot timestamp routed aborted) := by
  have hfailed : Inv w.bootFailed := h.frame rfl rfl rfl rfl rfl (Or.inr ⟨rfl, rfl, rfl⟩)
  unfold Workspace.boot
  split
  · exact hfailed
  split
  · exact hfailed
  · split
    · exact h.frame rfl rfl rfl rfl rfl (Or.inl rfl)
    · refine Inv.requestSession ?_ _
      exact h.frame rfl rfl rfl rfl rfl (Or.inr ⟨rfl, rfl, rfl⟩)

/-! ## Jobs -/

/-- A job for the current session. -/
theorem Inv.enqueue (h : Inv w) (hsession : w.session = some i) (queued : SessionJob) :
    Inv (w.enqueue i queued) :=
  h.update (fun _ _ => ⟨rfl, rfl, rfl, fun _ => rfl⟩) (fun _ _ hother => absurd hsession hother)
    fun _ _ _ _ _ _ hholds => hholds

/-- A text is shown for a session whose generation is the last. -/
theorem Inv.shows (h : Inv w) (hs : w.sessions[i]? = some s)
    (hgeneration : w.transitions.isCurrent s.generation = true)
    (htransitions : w'.transitions = w.transitions) (hsessions : w'.sessions = w.sessions)
    (hsession : w'.session = w.session) (hopening : w'.opening = w.opening)
    (hteardowns : w'.teardowns = w.teardowns) (htext : w'.textOf = some i)
    (hactive : w'.activeDocumentId = w.activeDocumentId) (hinvalid : w'.invalidRoute = w.invalidRoute) :
    Inv w' := by
  cases hcurrent : w.session with
  | none =>
    have hnone : Inv { w with textOf := some i } := by
      refine ⟨h.queue, h.armed, fun j hj => ?_, fun j s hs hj => ?_, h.opening, h.gates, h.passed,
        h.ordered, h.bounded, h.fresh⟩
      · have hj : w.session = some j := hj
        rw [hcurrent] at hj
        cases hj
      · have hleft := h.left j s hs hj
        exact ⟨hleft.disconnected, hleft.drained⟩
    exact hnone.frame htransitions hsessions hsession hopening hteardowns
      (Or.inr ⟨htext, hactive, hinvalid⟩)
  | some j =>
    have hij := h.index_eq hcurrent hs hgeneration
    refine h.frame htransitions hsessions hsession hopening hteardowns ?_
    rcases (h.current j hcurrent).shown with hroute | ⟨hshown, -⟩
    · exact Or.inl (hinvalid.trans hroute)
    · exact Or.inr ⟨by rw [htext, hshown, hij], hactive, hinvalid⟩

/-- What the continuation of a commit does: it shows a text for a session whose generation is the
last, and it releases the gate. -/
theorem commitSettled_of {P : Workspace → Prop} {queued : SessionJob}
    {outcome : Except JsError LocalDocumentSnapshot} (h : P w)
    (hshown : w.transitions.isCurrent s.generation = true → ∀ text saveState,
      P { w with text := text, textOf := some i, saveState := saveState })
    (hrelease : ∀ {w' : Workspace}, P w' → P (w'.release i)) :
    P (w.commitSettled i s queued outcome) := by
  have hreleased : ∀ {shown : Workspace}, P shown →
      P (if queued.releases then shown.release i else shown) := by
    intro shown hshown
    split
    · exact hrelease hshown
    · exact hshown
  unfold Workspace.commitSettled
  refine hreleased ?_
  split
  · exact h
  · rename_i hlast
    rw [not_or, not_not, not_not] at hlast
    split
    · exact hshown hlast.2 _ _
    · split
      · exact hshown hlast.2 _ _
      · exact h

theorem ingestSettled_of {P : Workspace → Prop} {queued : SessionJob}
    {outcome : Except JsError LocalDocumentSnapshot} (h : P w)
    (hshown : w.transitions.isCurrent s.generation = true → ∀ text saveState,
      P { w with text := text, textOf := some i, saveState := saveState }) :
    P (w.ingestSettled i s queued outcome) := by
  unfold Workspace.ingestSettled
  split
  · exact h
  · split
    · exact h
    · rename_i hlast
      rw [not_or, not_not, not_not] at hlast
      exact hshown hlast.1 _ w.saveState

theorem Inv.commitSettled (h : Inv w) (hs : w.sessions[i]? = some s) (queued : SessionJob)
    (outcome : Except JsError LocalDocumentSnapshot) : Inv (w.commitSettled i s queued outcome) :=
  commitSettled_of h (fun hlast _ _ => h.shows hs hlast rfl rfl rfl rfl rfl rfl rfl rfl)
    fun hinv => hinv.release i

theorem Inv.ingestSettled (h : Inv w) (hs : w.sessions[i]? = some s) (queued : SessionJob)
    (outcome : Except JsError LocalDocumentSnapshot) : Inv (w.ingestSettled i s queued outcome) :=
  ingestSettled_of h fun hlast _ _ => h.shows hs hlast rfl rfl rfl rfl rfl rfl rfl rfl

theorem Inv.commitText (h : Inv w) (nextText : JsString) (releases : Bool) :
    Inv (w.commitText nextText releases) := by
  unfold Workspace.commitText
  split
  · exact h.frame rfl rfl rfl rfl rfl (Or.inr ⟨rfl, rfl, rfl⟩)
  · rename_i i hsession
    have hsaving : Inv { w with
        text := nextText, saveState := .saving, requestVersion := w.requestVersion + 1 } :=
      h.frame rfl rfl rfl rfl rfl (Or.inr ⟨rfl, rfl, rfl⟩)
    split
    · exact hsaving
    · rename_i s hs
      split
      · exact hsaving.commitSettled hs _ _
      · exact hsaving.enqueue hsession _

theorem Inv.onTextChange (h : Inv w) (value : JsString) : Inv (w.onTextChange value) := by
  unfold Workspace.onTextChange
  split
  · exact h.frame rfl rfl rfl rfl rfl (Or.inr ⟨rfl, rfl, rfl⟩)
  · exact h.commitText value false

theorem Inv.onCompositionStart (h : Inv w) : Inv w.onCompositionStart := by
  have hcomposing : Inv { w with composing := true } :=
    h.frame rfl rfl rfl rfl rfl (Or.inr ⟨rfl, rfl, rfl⟩)
  unfold Workspace.onCompositionStart
  split
  · exact hcomposing
  · exact hcomposing.update (fun _ _ => ⟨rfl, rfl, rfl, fun _ => rfl⟩) (fun _ _ _ hnil => hnil)
      fun _ _ _ _ s _ _ => CompositionGate.isHolding_begin s.compositionGate

theorem Inv.deliver (h : Inv w) (i : ℕ) (delivery : ServerDelivery) : Inv (w.deliver i delivery) := by
  unfold Workspace.deliver
  split
  · exact h
  · split
    · exact h
    · rename_i hlast
      rw [not_or, not_not] at hlast
      split
      · exact h.enqueue hlast.1 _
      · exact h.enqueue hlast.1 _

theorem Inv.settle (h : Inv w) (i : ℕ) (env : Surroundings) (aborted : Bool) :
    Inv (w.settle segmentGraphemes i env aborted) := by
  unfold Workspace.settle
  split
  · exact h
  · rename_i s hs
    split
    · exact h
    · rename_i queued writeQueue hqueue
      simp only
      generalize w.runQueued segmentGraphemes s env aborted queued.job = ran
      have hran : Inv ({ w with db := ran.2.1 }.update i fun _ =>
          { s with controller := ran.1, writeQueue := writeQueue }) := by
        refine (h.setDb ran.2.1).update (fun s' hs' => ?_) (fun s' hs' _ hnil => ?_) fun t ht hgate _ s' hs' hholds => ?_
        · have hs' : w.sessions[i]? = some s' := hs'
          rw [hs] at hs'
          cases hs'
          exact ⟨rfl, rfl, rfl, fun _ => rfl⟩
        · have hs' : w.sessions[i]? = some s' := hs'
          rw [hs] at hs'
          cases hs'
          rw [hqueue] at hnil
          cases hnil
        · have hs' : w.sessions[i]? = some s' := hs'
          rw [hs] at hs'
          cases hs'
          exact hholds
      have hget : ({ w with db := ran.2.1 }.update i fun _ =>
          { s with controller := ran.1, writeQueue := writeQueue }).sessions[i]? =
          some { s with controller := ran.1, writeQueue := writeQueue } := by
        rw [getElem?_update, if_pos rfl, show _ = some s from hs]
        rfl
      split
      · exact hran.commitSettled hget _ _
      · exact hran.ingestSettled hget _ _

/-! ## Every run -/

/-- A stage of `openSession` that is not the one reached changes nothing. -/
theorem atStage {P : Workspace → Prop} {stage : OpenStage} {f : Opening → Workspace} (hsame : P w)
    (h : ∀ opening, w.opening = some opening → opening.stage = stage → P (f opening)) :
    P (w.opening.elim w fun opening => if opening.stage = stage then f opening else w) := by
  obtain hopening | ⟨opening, hopening⟩ := Option.eq_none_or_eq_some w.opening
  · rw [hopening]
    exact hsame
  · rw [hopening, Option.elim_some]
    split
    · exact h opening hopening ‹_›
    · exact hsame

/-- **Every input keeps the invariant.** -/
theorem Inv.step (h : Inv w) (e : WorkspaceInput) : Inv (w.step segmentGraphemes e) := by
  cases e with
  | boot timestamp routed aborted => exact h.boot timestamp routed aborted
  | navigate documentId => exact h.navigateToDocument documentId
  | popState routed => exact h.handlePopState routed
  | start n => exact h.transition (Or.inl rfl)
  | prepared n =>
    simp only [Workspace.step]
    split
    · exact h
    · rename_i hholding
      exact h.transition (Or.inr (Or.inl ⟨rfl, Bool.not_eq_true _ ▸ hholding⟩))
  | switched n =>
    simp only [Workspace.step]
    split
    · exact h
    · rename_i hidle
      exact h.transition (Or.inr (Or.inr ⟨rfl, by simpa using hidle⟩))
  | closed k => exact h.closed k
  | tornDown => exact atStage h fun _ hopening _ => h.tornDown hopening
  | ensured timestamp aborted => exact atStage h fun _ hopening _ => h.ensured hopening timestamp aborted
  | listed aborted => exact atStage h fun _ hopening _ => h.listed hopening aborted
  | created env aborted => exact atStage h fun _ hopening _ => h.created hopening env aborted
  | textChange value =>
    simp only [Workspace.step]
    split
    · exact h.onTextChange value
    · exact h
  | compositionStart =>
    simp only [Workspace.step]
    split
    · exact h.onCompositionStart
    · exact h
  | compositionEnd value =>
    refine Inv.commitText ?_ value true
    exact h.frame rfl rfl rfl rfl rfl (Or.inr ⟨rfl, rfl, rfl⟩)
  | deliver i delivery => exact h.deliver i delivery
  | settle i env aborted => exact h.settle i env aborted
  | create documentId timestamp =>
    simp only [Workspace.step]
    split
    · exact h
    · exact h.setDb _
  | rename documentId title timestamp =>
    simp only [Workspace.step]
    split
    · exact h
    · exact h.setDb _

theorem run_inv (db : Database) (inputs : List WorkspaceInput) :
    Inv (run segmentGraphemes db inputs) :=
  Runs.invariant (fun _ e h => h.step e) _ inputs (.start db)

end Workspace

end LocalFirst
