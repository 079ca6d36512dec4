import LocalFirst.Js
import LocalFirst.Lib.Runs
import LocalFirst.Lib.SerialChain
import Mathlib.Algebra.GroupWithZero.Nat

/-!
# Switching between sessions

Model of `apps/web/src/workspace/session-transition.ts`.  Every request chains one more `flush` on
`drain`; a flush runs when the one before it has settled, and stops at each `await` until the
promise it awaits settles.  Requests come at any moment, and promises settle at any later one.

* `SessionTransitionQueue.step_cases` — what one event does.
* `SessionTransitionQueue.Inv`, `Served` — the invariant, and what the calls owe to the requests.
* `SessionTransitionQueue.switches_serialized` — the calls do not overlap, and the latest request
  wins.
* `SessionTransitionQueue.drain_progress`, `drain_settles` — the drain is never stuck, and settles.
-/

set_option autoImplicit false

namespace LocalFirst

/-- A flush that is chained on `drain`: it has not started, awaits `prepare` or `switchTo`, or its
promise has settled. -/
inductive Flush where
  | waiting
  | preparing
  | switching
  | fulfilled
  | rejected
  deriving DecidableEq

def Flush.settled : Flush → Bool
  | .fulfilled => true
  | .rejected => true
  | _ => false

/-- A call of `switchTo`. -/
structure SwitchCall (Switch : Type) where
  switchTo : Switch
  target : JsString
  generation : ℕ

/-- The queue.  `drain` holds the flushes in the order of the requests that chained them, and `calls`
the calls of `switchTo` in the order in which they were made. -/
structure SessionTransitionQueue (Switch Prepare : Type) where
  inFlight : Bool
  pendingTarget : Option JsString
  generation : ℕ
  drain : List Flush
  switchTo : Option Switch
  prepare : Option Prepare
  calls : List (SwitchCall Switch)

/-- What happens to the queue.  `start` is the reaction of `drain` to the flush before; the others
settle the promise that a flush awaits. -/
inductive TransitionEvent (Switch Prepare : Type) where
  | request (documentId : JsString) (switchTo : Switch) (prepare : Option Prepare)
  | start (n : ℕ)
  | prepared (n : ℕ)
  | prepareRejected (n : ℕ)
  | switched (n : ℕ)
  | switchRejected (n : ℕ)

namespace SessionTransitionQueue

variable {Switch Prepare : Type}

def new : SessionTransitionQueue Switch Prepare := ⟨false, none, 0, [], none, none, []⟩

def getGeneration (q : SessionTransitionQueue Switch Prepare) : ℕ := q.generation

def isInFlight (q : SessionTransitionQueue Switch Prepare) : Bool := q.inFlight

def isCurrent (q : SessionTransitionQueue Switch Prepare) (generation : ℕ) : Bool :=
  generation = q.generation

def setFlush (q : SessionTransitionQueue Switch Prepare) (n : ℕ) (flush : Flush) :
    SessionTransitionQueue Switch Prepare :=
  { q with drain := q.drain.set n flush }

def request (q : SessionTransitionQueue Switch Prepare) (documentId : JsString) (switchTo : Switch)
    (prepare : Option Prepare) : SessionTransitionQueue Switch Prepare :=
  { q with
    pendingTarget := some documentId
    switchTo := some switchTo
    prepare := prepare.orElse fun _ => q.prepare
    drain := q.drain ++ [.waiting] }

/-- The `finally` of `flush`, which ends it. -/
def finish (q : SessionTransitionQueue Switch Prepare) (n : ℕ) (result : Flush) :
    SessionTransitionQueue Switch Prepare :=
  { q with inFlight := false }.setFlush n result

/-- The body of the loop of `flush` from `const target` on. -/
def callSwitchTo (q : SessionTransitionQueue Switch Prepare) (n : ℕ) :
    SessionTransitionQueue Switch Prepare :=
  match q.pendingTarget, q.switchTo with
  | some target, some switchTo =>
    let called : SessionTransitionQueue Switch Prepare :=
      { q with
        pendingTarget := none
        generation := q.generation + 1
        calls := q.calls ++ [⟨switchTo, target, q.generation + 1⟩] }
    called.setFlush n .switching
  | _, _ => q.finish n .fulfilled

/-- The loop of `flush`, up to the first `await`. -/
def flushLoop (q : SessionTransitionQueue Switch Prepare) (n : ℕ) :
    SessionTransitionQueue Switch Prepare :=
  match q.pendingTarget, q.switchTo with
  | some _, some _ =>
    match q.prepare with
    | some _ => q.setFlush n .preparing
    | none => q.callSwitchTo n
  | _, _ => q.finish n .fulfilled

def flush (q : SessionTransitionQueue Switch Prepare) (n : ℕ) : SessionTransitionQueue Switch Prepare :=
  if q.inFlight then q.setFlush n .fulfilled else { q with inFlight := true }.flushLoop n

/-- The promise that a flush is chained on has settled. -/
def settledBefore (q : SessionTransitionQueue Switch Prepare) : ℕ → Bool
  | 0 => true
  | n + 1 => q.drain[n]?.any Flush.settled

def step (q : SessionTransitionQueue Switch Prepare) :
    TransitionEvent Switch Prepare → SessionTransitionQueue Switch Prepare
  | .request documentId switchTo prepare => q.request documentId switchTo prepare
  | .start n => if q.drain[n]? = some .waiting ∧ q.settledBefore n = true then q.flush n else q
  | .prepared n => if q.drain[n]? = some .preparing then q.callSwitchTo n else q
  | .prepareRejected n => if q.drain[n]? = some .preparing then q.finish n .rejected else q
  | .switched n => if q.drain[n]? = some .switching then q.flushLoop n else q
  | .switchRejected n => if q.drain[n]? = some .switching then q.finish n .rejected else q

variable {q q' : SessionTransitionQueue Switch Prepare} {e : TransitionEvent Switch Prepare} {n m : ℕ}

/-! ## What one event does -/

def requested : TransitionEvent Switch Prepare → Option (JsString × Switch)
  | .request documentId switchTo _ => some (documentId, switchTo)
  | _ => none

/-- An event lets flush `n` go on, which was in the given state. -/
inductive Resumes (q : SessionTransitionQueue Switch Prepare) :
    TransitionEvent Switch Prepare → ℕ → Flush → Prop
  | start (n : ℕ) (hbefore : q.settledBefore n = true) : Resumes q (.start n) n .waiting
  | prepared (n : ℕ) : Resumes q (.prepared n) n .preparing
  | prepareRejected (n : ℕ) : Resumes q (.prepareRejected n) n .preparing
  | switched (n : ℕ) : Resumes q (.switched n) n .switching
  | switchRejected (n : ℕ) : Resumes q (.switchRejected n) n .switching

/-- A flush goes on: it calls `switchTo`, awaits `prepare`, or ends. -/
inductive Continues (q q' : SessionTransitionQueue Switch Prepare)
    (e : TransitionEvent Switch Prepare) (n : ℕ) : Prop
  | calls (target : JsString) (switchTo : Switch) (hpending : q.pendingTarget = some target)
      (hswitch : q.switchTo = some switchTo)
      (hq : q' = { q with
        inFlight := true
        pendingTarget := none
        generation := q.generation + 1
        calls := q.calls ++ [⟨switchTo, target, q.generation + 1⟩]
        drain := q.drain.set n .switching })
      (he : e = .start n ∨ e = .prepared n ∨ e = .switched n)
  | prepares (he : e = .start n ∨ e = .switched n)
      (hq : q' = { q with inFlight := true, drain := q.drain.set n .preparing })
  | ends (result : Flush) (hsettled : result.settled = true)
      (hdone : q.pendingTarget = none ∨ q.switchTo = none ∨ e = .prepareRejected n ∨
        e = .switchRejected n)
      (hq : q' = { q with inFlight := false, drain := q.drain.set n result })

/-- The loop ends when nothing is pending. -/
theorem Continues.finished (hnot : ∀ target switchTo, q.pendingTarget = some target →
    q.switchTo = some switchTo → False) : Continues q (q.finish n .fulfilled) e n := by
  refine .ends .fulfilled rfl ?_ rfl
  cases hpending : q.pendingTarget with
  | none => exact Or.inl rfl
  | some target =>
    cases hswitch : q.switchTo with
    | none => exact Or.inr (Or.inl rfl)
    | some switchTo => exact (hnot target switchTo hpending hswitch).elim

theorem callSwitchTo_continues (hflight : q.inFlight = true)
    (he : e = .start n ∨ e = .prepared n ∨ e = .switched n) :
    Continues q (q.callSwitchTo n) e n := by
  unfold callSwitchTo
  split
  · rename_i target switchTo hpending hswitch
    refine .calls target switchTo hpending hswitch ?_ he
    rw [← hflight]
    rfl
  · rename_i hnot
    exact .finished hnot

theorem flushLoop_continues (hflight : q.inFlight = true) (he : e = .start n ∨ e = .switched n) :
    Continues q (q.flushLoop n) e n := by
  unfold flushLoop
  split
  · split
    · refine .prepares he ?_
      rw [← hflight]
      rfl
    · exact callSwitchTo_continues hflight (he.imp_right Or.inr)
  · rename_i hnot
    exact .finished hnot

/-- A flush that starts when none is in flight. -/
theorem flush_continues (hflight : q.inFlight = false) : Continues q (q.flush n) (.start n) n := by
  unfold flush
  rw [hflight, if_neg Bool.false_ne_true]
  have hloop : Continues { q with inFlight := true } ({ q with inFlight := true }.flushLoop n)
      (.start n) n := flushLoop_continues rfl (Or.inl rfl)
  cases hloop with
  | calls target switchTo hpending hswitch hq he =>
    exact .calls target switchTo hpending hswitch hq he
  | prepares he hq => exact .prepares he hq
  | ends result hsettled hdone hq => exact .ends result hsettled hdone hq

/-! ## The invariant -/

/-- The invariant: the flushes are in a chain, `inFlight` tells whether one of them is active, the
calls are numbered by their generations, and a pending target has a `switchTo` to be passed to. -/
structure Inv (q : SessionTransitionQueue Switch Prepare) : Prop where
  chain : ∃ m, Serial .waiting (Flush.settled · = true) q.drain m
  inFlight : q.inFlight = true ↔ ∃ n : ℕ, q.drain[n]? = some .preparing ∨ q.drain[n]? = some .switching
  generation : q.generation = q.calls.length
  armed : q.pendingTarget ≠ none → q.switchTo ≠ none

theorem Inv.new : Inv (new : SessionTransitionQueue Switch Prepare) where
  chain := ⟨0, Serial.nil⟩
  inFlight := by simp [SessionTransitionQueue.new]
  generation := rfl
  armed h := absurd rfl h

/-- The flush that an event lets go on is the one that all flushes before have settled. -/
theorem Inv.resumes (h : Inv q) {flush : Flush} (hresumes : Resumes q e n flush)
    (hflush : q.drain[n]? = some flush) :
    Serial .waiting (Flush.settled · = true) q.drain n := by
  obtain ⟨m, hchain⟩ := h.chain
  have heq : n = m := by
    cases hresumes with
    | start n hbefore =>
      refine hchain.starts (by decide) hflush fun n' hn => ?_
      subst hn
      obtain ⟨a, ha, hs⟩ := (Option.any_eq_true _ _).1 hbefore
      exact ⟨a, ha, hs⟩
    | prepared n => exact hchain.active hflush (by decide) (by decide)
    | prepareRejected n => exact hchain.active hflush (by decide) (by decide)
    | switched n => exact hchain.active hflush (by decide) (by decide)
    | switchRejected n => exact hchain.active hflush (by decide) (by decide)
  rwa [heq]

/-- A flush that an event lets go on does so. -/
theorem Inv.continues (h : Inv q) {flush : Flush} (hresumes : Resumes q e n flush)
    (hflush : q.drain[n]? = some flush) : Continues q (q.step e) e n := by
  have hchain := h.resumes hresumes hflush
  cases hresumes with
  | start n hbefore =>
    have hflight : q.inFlight = false := by
      rw [← Bool.not_eq_true, h.inFlight]
      rintro ⟨n', hn' | hn'⟩ <;>
        · have heq := hchain.active hn' (by decide) (by decide)
          rw [heq, hflush] at hn'
          cases hn'
    simp only [step, if_pos (And.intro hflush hbefore)]
    exact flush_continues hflight
  | prepared n =>
    simp only [step, if_pos hflush]
    exact callSwitchTo_continues (h.inFlight.2 ⟨n, Or.inl hflush⟩) (Or.inr (Or.inl rfl))
  | prepareRejected n =>
    simp only [step, if_pos hflush]
    exact .ends .rejected rfl (Or.inr (Or.inr (Or.inl rfl))) rfl
  | switched n =>
    simp only [step, if_pos hflush]
    exact flushLoop_continues (h.inFlight.2 ⟨n, Or.inr hflush⟩) (Or.inr rfl)
  | switchRejected n =>
    simp only [step, if_pos hflush]
    exact .ends .rejected rfl (Or.inr (Or.inr (Or.inr rfl))) rfl

/-- **What one event does**: nothing, a request, or it lets a flush go on. -/
theorem Inv.step_cases (h : Inv q) (e : TransitionEvent Switch Prepare) :
    (requested e = none ∧ q.step e = q) ∨
    (∃ documentId switchTo prepare, e = .request documentId switchTo prepare ∧
      q.step e = q.request documentId switchTo prepare) ∨
    ∃ n flush, Resumes q e n flush ∧ q.drain[n]? = some flush ∧ Continues q (q.step e) e n := by
  have hgoes : ∀ {n : ℕ} {flush : Flush}, Resumes q e n flush → q.drain[n]? = some flush →
      ∃ n flush, Resumes q e n flush ∧ q.drain[n]? = some flush ∧ Continues q (q.step e) e n :=
    fun hresumes hflush => ⟨_, _, hresumes, hflush, h.continues hresumes hflush⟩
  cases e with
  | request documentId switchTo prepare => exact Or.inr (Or.inl ⟨_, _, _, rfl, rfl⟩)
  | start n =>
    by_cases hn : q.drain[n]? = some .waiting ∧ q.settledBefore n = true
    · exact Or.inr (Or.inr (hgoes (.start n hn.2) hn.1))
    · exact Or.inl ⟨rfl, if_neg hn⟩
  | prepared n =>
    by_cases hn : q.drain[n]? = some .preparing
    · exact Or.inr (Or.inr (hgoes (.prepared n) hn))
    · exact Or.inl ⟨rfl, if_neg hn⟩
  | prepareRejected n =>
    by_cases hn : q.drain[n]? = some .preparing
    · exact Or.inr (Or.inr (hgoes (.prepareRejected n) hn))
    · exact Or.inl ⟨rfl, if_neg hn⟩
  | switched n =>
    by_cases hn : q.drain[n]? = some .switching
    · exact Or.inr (Or.inr (hgoes (.switched n) hn))
    · exact Or.inl ⟨rfl, if_neg hn⟩
  | switchRejected n =>
    by_cases hn : q.drain[n]? = some .switching
    · exact Or.inr (Or.inr (hgoes (.switchRejected n) hn))
    · exact Or.inl ⟨rfl, if_neg hn⟩

/-- No flush is active once the one that was has ended. -/
theorem ends_idle {flush result : Flush} (hchain : Serial .waiting (Flush.settled · = true) q.drain n)
    (hflush : q.drain[n]? = some flush) (hsettled : result.settled = true) :
    ¬ ∃ n' : ℕ, (q.drain.set n result)[n']? = some .preparing ∨
      (q.drain.set n result)[n']? = some .switching := by
  have hn := (List.getElem?_eq_some_iff.1 hflush).1
  have hafter := hchain.settle hn (by decide) hsettled
  rintro ⟨n', hn' | hn'⟩ <;>
    · have heq := hafter.active hn' (by decide) (by decide)
      rw [List.getElem?_set_ne (by omega)] at hn'
      cases hchain.later n' _ (by omega) hn'

/-- **Every event keeps the invariant.** -/
theorem Inv.step (h : Inv q) (e : TransitionEvent Switch Prepare) : Inv (q.step e) := by
  rcases h.step_cases e with ⟨-, heq⟩ | ⟨documentId, switchTo, prepare, -, heq⟩ |
    ⟨n, flush, hresumes, hflush, hcontinues⟩
  · rwa [heq]
  · rw [heq]
    obtain ⟨⟨m, hchain⟩, hflight, hgeneration, -⟩ := h
    refine ⟨⟨m, hchain.append (by decide)⟩, hflight.trans ?_, hgeneration, fun _ hnone => by cases hnone⟩
    have hold : ∀ {f : Flush}, f ≠ .waiting → ∀ n : ℕ,
        ((q.drain ++ [.waiting])[n]? = some f ↔ q.drain[n]? = some f) := by
      intro f hf n
      rw [List.getElem?_append]
      split
      · exact Iff.rfl
      · rename_i hn
        rw [List.getElem?_eq_none (not_lt.1 hn), List.getElem?_singleton]
        split
        · simp [Ne.symm hf]
        · exact Iff.rfl
    refine exists_congr fun n => or_congr ?_ ?_
    · exact (hold (by decide) n).symm
    · exact (hold (by decide) n).symm
  · have hchain := h.resumes hresumes hflush
    have hn := (List.getElem?_eq_some_iff.1 hflush).1
    cases hcontinues with
    | calls target switchTo hpending hswitch hq he =>
      rw [hq]
      refine ⟨⟨n, hchain.set (by decide)⟩, ⟨fun _ => ⟨n, Or.inr (List.getElem?_set_self hn)⟩,
        fun _ => rfl⟩, ?_, fun hnone => absurd rfl hnone⟩
      show q.generation + 1 = (q.calls ++ [_]).length
      rw [List.length_append, h.generation]
      rfl
    | prepares he hq =>
      rw [hq]
      exact ⟨⟨n, hchain.set (by decide)⟩, ⟨fun _ => ⟨n, Or.inl (List.getElem?_set_self hn)⟩,
        fun _ => rfl⟩, h.generation, h.armed⟩
    | ends result hsettled hdone hq =>
      rw [hq]
      exact ⟨⟨n + 1, hchain.settle hn (by decide) hsettled⟩,
        ⟨fun hflight => by (cases hflight), fun hactive =>
          absurd hactive (ends_idle hchain hflush hsettled)⟩, h.generation, h.armed⟩

/-! ## The requests and the calls -/

/-- The target and the `switchTo` of the most recent request. -/
def lastRequest (es : List (TransitionEvent Switch Prepare)) : Option (JsString × Switch) :=
  (es.filterMap requested).getLast?

theorem lastRequest_snoc (es : List (TransitionEvent Switch Prepare))
    (e : TransitionEvent Switch Prepare) :
    lastRequest (es ++ [e]) = (requested e).or (lastRequest es) := by
  unfold lastRequest
  rw [List.filterMap_append]
  cases he : requested e with
  | none => simp [he]
  | some request => simp [he]

/-- What was requested last is pending, or was passed to the last call. -/
structure Served (es : List (TransitionEvent Switch Prepare))
    (q : SessionTransitionQueue Switch Prepare) : Prop where
  target : (lastRequest es).map Prod.fst = q.pendingTarget.or (q.calls.getLast?.map (·.target))
  switchTo : (lastRequest es).map Prod.snd = q.switchTo

theorem Served.nil : Served [] (new : SessionTransitionQueue Switch Prepare) := ⟨rfl, rfl⟩

/-- Only a request is one. -/
theorem Resumes.not_requested {flush : Flush} (h : Resumes q e n flush) : requested e = none := by
  cases h <;> rfl

theorem Served.step {es : List (TransitionEvent Switch Prepare)} (h : Served es q) (hinv : Inv q)
    (e : TransitionEvent Switch Prepare) : Served (es ++ [e]) (q.step e) := by
  obtain ⟨htarget, hswitchTo⟩ := h
  -- an event that changes neither the target nor the calls
  have hstill : requested e = none → (q.step e).pendingTarget = q.pendingTarget →
      (q.step e).calls = q.calls → (q.step e).switchTo = q.switchTo →
      Served (es ++ [e]) (q.step e) := by
    intro hnone hpending hcalls hswitch
    refine ⟨?_, ?_⟩
    · rw [lastRequest_snoc, hnone, Option.none_or, hpending, hcalls]
      exact htarget
    · rw [lastRequest_snoc, hnone, Option.none_or, hswitch]
      exact hswitchTo
  rcases hinv.step_cases e with ⟨hnone, heq⟩ | ⟨documentId, switchTo, prepare, he, heq⟩ |
    ⟨n, flush, hresumes, hflush, hcontinues⟩
  · exact hstill hnone (by rw [heq]) (by rw [heq]) (by rw [heq])
  · rw [heq, he]
    refine ⟨?_, ?_⟩ <;>
      · rw [lastRequest_snoc]
        rfl
  · have hnone := hresumes.not_requested
    cases hcontinues with
    | calls target switchTo hpending hswitch hq he =>
      refine ⟨?_, ?_⟩
      · rw [lastRequest_snoc, hnone, Option.none_or, htarget, hq, hpending]
        simp
      · rw [lastRequest_snoc, hnone, Option.none_or, hswitchTo, hq]
    | prepares he hq => exact hstill hnone (by rw [hq]) (by rw [hq]) (by rw [hq])
    | ends result hsettled hdone hq => exact hstill hnone (by rw [hq]) (by rw [hq]) (by rw [hq])

/-- A pending target has a flush to come that takes it. -/
def Kept (q : SessionTransitionQueue Switch Prepare) : Prop :=
  q.pendingTarget ≠ none → ∃ n : ℕ, q.drain[n]? = some .waiting ∨ q.drain[n]? = some .preparing

/-- **No pending target is left behind**, unless a `prepare` rejects. -/
theorem Kept.step (h : Kept q) (hinv : Inv q) {e : TransitionEvent Switch Prepare}
    (hprepare : ∀ n, e ≠ .prepareRejected n) : Kept (q.step e) := by
  rcases hinv.step_cases e with ⟨-, heq⟩ | ⟨documentId, switchTo, prepare, he, heq⟩ |
    ⟨n, flush, hresumes, hflush, hcontinues⟩
  · rwa [heq]
  · rw [heq]
    exact fun _ => ⟨q.drain.length, Or.inl (by simp [request])⟩
  · have hn := (List.getElem?_eq_some_iff.1 hflush).1
    cases hcontinues with
    | calls target switchTo hpending hswitch hq he =>
      rw [hq]
      exact fun hnone => absurd rfl hnone
    | prepares he hq =>
      rw [hq]
      exact fun _ => ⟨n, Or.inr (List.getElem?_set_self hn)⟩
    | ends result hsettled hdone hq =>
      rw [hq]
      intro hpending
      have hrejected : e = .switchRejected n := by
        rcases hdone with hnone | hnone | he | he
        · exact absurd hnone hpending
        · exact absurd hnone (hinv.armed hpending)
        · exact absurd he (hprepare n)
        · exact he
      obtain ⟨n', hn'⟩ := h hpending
      have hne : n ≠ n' := by
        rintro rfl
        rw [hrejected] at hresumes
        cases hresumes
        rw [hflush] at hn'
        rcases hn' with hn' | hn' <;> cases hn'
      refine ⟨n', ?_⟩
      simp only [List.getElem?_set_ne hne]
      exact hn'

/-- **A call starts** when no other is in progress but the one that has just resolved; it is passed
the target of the most recent request, and the next generation. -/
theorem Served.call {es : List (TransitionEvent Switch Prepare)} (h : Served es q) (hinv : Inv q)
    (hcalls : (q.step e).calls ≠ q.calls) :
    (∀ n : ℕ, q.drain[n]? = some .switching → e = .switched n) ∧
    ∃ c : SwitchCall Switch, (q.step e).calls = q.calls ++ [c] ∧
      lastRequest es = some (c.target, c.switchTo) ∧ c.generation = q.calls.length + 1 := by
  rcases hinv.step_cases e with ⟨-, heq⟩ | ⟨documentId, switchTo, prepare, -, heq⟩ |
    ⟨n, flush, hresumes, hflush, hcontinues⟩
  · exact absurd (by rw [heq]) hcalls
  · exact absurd (by rw [heq]; rfl) hcalls
  · cases hcontinues with
    | calls target switchTo hpending hswitch hq he =>
      refine ⟨fun n' hn' => ?_, ⟨switchTo, target, q.generation + 1⟩, by rw [hq], ?_, ?_⟩
      · have heq := (hinv.resumes hresumes hflush).active hn' (by decide) (by decide)
        rw [heq, hflush] at hn'
        cases hn'
        cases hresumes with
        | switched n => rw [heq]
        | switchRejected n => rcases he with he | he | he <;> cases he
      · obtain ⟨htarget, hswitchTo⟩ := h
        rw [hpending] at htarget
        rw [hswitch] at hswitchTo
        cases hlast : lastRequest es with
        | none =>
          rw [hlast] at hswitchTo
          cases hswitchTo
        | some request =>
          rw [hlast] at htarget hswitchTo
          obtain ⟨target', switchTo'⟩ := request
          cases htarget
          cases hswitchTo
          rfl
      · rw [hinv.generation]
    | prepares he hq => exact absurd (by rw [hq]) hcalls
    | ends result hsettled hdone hq => exact absurd (by rw [hq]) hcalls

theorem run_served (es : List (TransitionEvent Switch Prepare)) :
    Inv (Runs.run step new es) ∧ Served es (Runs.run step new es) := by
  induction es using List.reverseRecOn with
  | nil => exact ⟨.new, .nil⟩
  | append_singleton es e ih =>
    rw [Runs.run_snoc]
    exact ⟨ih.1.step e, ih.2.step ih.1 e⟩

theorem run_kept {es : List (TransitionEvent Switch Prepare)} (hprepare : ∀ n, .prepareRejected n ∉ es) :
    Kept (Runs.run step new es) := by
  induction es using List.reverseRecOn with
  | nil => exact fun hpending => absurd rfl hpending
  | append_singleton es e ih =>
    rw [Runs.run_snoc]
    refine (ih fun n hn => hprepare n (List.mem_append_left _ hn)).step (run_served es).1 fun n he => ?_
    exact hprepare n (by simp [he])

/-- **Switches are serialized, and the latest request wins**: the calls of `switchTo` do not overlap;
each is passed what was requested last before it, and a generation one above that of the call before;
a generation is current from the start of its call to the start of the next one; and when the drain
has settled, the last call was for the last target, if no `prepare` rejects. -/
theorem switches_serialized (es : List (TransitionEvent Switch Prepare)) :
    let q := Runs.run step new es
    (∀ n m : ℕ, q.drain[n]? = some .switching → q.drain[m]? = some .switching → n = m) ∧
    (∀ e, (q.step e).calls ≠ q.calls →
      (∀ n : ℕ, q.drain[n]? = some .switching → e = .switched n) ∧
      ∃ c : SwitchCall Switch, (q.step e).calls = q.calls ++ [c] ∧
        lastRequest es = some (c.target, c.switchTo) ∧ c.generation = q.calls.length + 1) ∧
    (∀ g, q.isCurrent g = true ↔ q.calls.length = g) ∧
    ((∀ n, .prepareRejected n ∉ es) → (∀ flush ∈ q.drain, flush.settled = true) →
      (q.calls.getLast?).map (·.target) = (lastRequest es).map Prod.fst) := by
  intro q
  obtain ⟨hinv, hserved⟩ := run_served es
  obtain ⟨m, hchain⟩ := hinv.chain
  refine ⟨fun n n' hn hn' => ?_, fun e hcalls => hserved.call hinv hcalls, fun g => ?_,
    fun hprepare hsettled => ?_⟩
  · exact (hchain.active hn (by decide) (by decide)).trans
      (hchain.active hn' (by decide) (by decide)).symm
  · rw [isCurrent, decide_eq_true_iff, hinv.generation]
    exact eq_comm
  · rw [hserved.target]
    have hnone : q.pendingTarget = none := by
      by_contra hpending
      obtain ⟨n, hn | hn⟩ := run_kept hprepare hpending <;> cases hsettled _ (List.mem_of_getElem? hn)
    rw [hnone, Option.none_or]

/-- Two documents are requested while the first session opens, which fails. -/
theorem switches_serialized_failing :
    let es : List (TransitionEvent Unit Unit) := [.request (js "A") () none, .start 0,
      .request (js "B") () (some ()), .request (js "C") () none, .switchRejected 0, .start 1,
      .prepared 1, .switched 1, .start 2]
    let q := Runs.run step new es
    q.isCurrent 2 = true ∧ (q.calls.getLast?).map (·.target) = some (js "C") := by
  intro es q
  obtain ⟨-, -, hcurrent, hlast⟩ := switches_serialized es
  exact ⟨(hcurrent 2).2 (by decide +kernel), hlast (by simp [es]) (by decide +kernel)⟩

end SessionTransitionQueue

/-! ## The drain settles -/

/-- The steps that a flush may still take. -/
def Flush.work : Flush → ℕ
  | .waiting => 4
  | .switching => 2
  | .preparing => 1
  | _ => 0

theorem Flush.sum_work_set {old : Flush} (flush : Flush) {drain : List Flush} {n : ℕ}
    (h : drain[n]? = some old) : ((drain.set n flush).map Flush.work).sum + old.work =
      (drain.map Flush.work).sum + flush.work := by
  induction drain generalizing n with
  | nil => cases h
  | cons first rest ih =>
    cases n with
    | zero =>
      cases h
      simp only [List.set_cons_zero, List.map_cons, List.sum_cons]
      omega
    | succ n =>
      have hrest : rest[n]? = some old := h
      have := ih hrest
      simp only [List.set_cons_succ, List.map_cons, List.sum_cons]
      omega

namespace SessionTransitionQueue

variable {Switch Prepare : Type} {q q' : SessionTransitionQueue Switch Prepare}
  {e : TransitionEvent Switch Prepare} {n : ℕ}

/-- The events that the queue may still need before it has settled. -/
def load (q : SessionTransitionQueue Switch Prepare) : ℕ :=
  (q.drain.map Flush.work).sum + if q.pendingTarget.isSome then 2 else 0

/-- A flush that goes on comes closer to its end. -/
theorem Continues.load_lt {flush : Flush} (hresumes : Resumes q e n flush)
    (hflush : q.drain[n]? = some flush) (h : Continues q q' e n) : q'.load < q.load := by
  unfold load
  cases h with
  | calls target switchTo hpending hswitch hq he =>
    have hsum := Flush.sum_work_set .switching hflush
    rw [hq, hpending]
    simp only [Option.isSome_none, Option.isSome_some, Bool.false_eq_true, if_false, if_true]
    cases hresumes <;> simp only [Flush.work] at hsum <;> omega
  | prepares he hq =>
    have hsum := Flush.sum_work_set .preparing hflush
    simp only [hq]
    cases hresumes with
    | start n hbefore =>
      simp only [Flush.work] at hsum
      omega
    | switched n =>
      simp only [Flush.work] at hsum
      omega
    | prepared n => rcases he with he | he <;> cases he
    | prepareRejected n => rcases he with he | he <;> cases he
    | switchRejected n => rcases he with he | he <;> cases he
  | ends result hsettled hdone hq =>
    have hsum := Flush.sum_work_set result hflush
    have hwork : result.work = 0 := by
      cases result <;> first | rfl | cases hsettled
    rw [hwork] at hsum
    simp only [hq]
    cases hresumes <;> simp only [Flush.work] at hsum <;> omega

/-- **The drain is never stuck**: until it has settled, a flush awaits a promise or may start. -/
theorem drain_progress (es : List (TransitionEvent Switch Prepare)) {flush : Flush}
    (hmem : flush ∈ (Runs.run step new es).drain) (hflush : flush.settled = false) :
    ∃ e, requested e = none ∧ (Runs.run step new es).step e ≠ Runs.run step new es := by
  obtain ⟨hinv, -⟩ := run_served es
  obtain ⟨m, hchain⟩ := hinv.chain
  generalize Runs.run step new es = q at *
  have hm : m < q.drain.length := by
    refine lt_of_le_of_ne hchain.le fun heq => ?_
    have hall := hchain.settled_iff.2 heq flush hmem
    rw [hflush] at hall
    cases hall
  have hnext : ∀ {e : TransitionEvent Switch Prepare} {old : Flush}, Resumes q e m old →
      q.drain[m]? = some old → ∃ e, requested e = none ∧ q.step e ≠ q := by
    intro e old hresumes hold
    refine ⟨e, hresumes.not_requested, fun heq => ?_⟩
    have hlt := (hinv.continues hresumes hold).load_lt hresumes hold
    rw [heq] at hlt
    exact absurd hlt (lt_irrefl _)
  have hget := List.getElem?_eq_getElem hm
  have hhead := hchain.head _ hget
  cases hcase : q.drain[m] with
  | waiting =>
    rw [hcase] at hget
    refine hnext (.start m ?_) hget
    cases m with
    | zero => rfl
    | succ m =>
      have hbefore := List.getElem?_eq_getElem (Nat.lt_of_succ_lt hm)
      rw [settledBefore, hbefore]
      exact hchain.done m _ (Nat.lt_succ_self m) hbefore
  | preparing =>
    rw [hcase] at hget
    exact hnext (.prepared m) hget
  | switching =>
    rw [hcase] at hget
    exact hnext (.switched m) hget
  | fulfilled => exact absurd (by rw [hcase]; rfl) hhead
  | rejected => exact absurd (by rw [hcase]; rfl) hhead

/-- **The drain settles**: without further requests only so many events can let a flush go on. -/
theorem drain_settles (hinv : Inv q) {es : List (TransitionEvent Switch Prepare)}
    (hrequests : ∀ e ∈ es, requested e = none)
    (hgoes : Runs.Never step (fun q e => q.step e = q) q es) : es.length ≤ q.load := by
  induction es generalizing q with
  | nil => exact Nat.zero_le _
  | cons e es ih =>
    obtain ⟨hfirst, hrest⟩ := List.forall_mem_cons.1 hrequests
    have hle := ih (hinv.step e) hrest hgoes.tail
    rcases hinv.step_cases e with ⟨-, heq⟩ | ⟨documentId, switchTo, prepare, rfl, -⟩ |
      ⟨n, flush, hresumes, hflush, hcontinues⟩
    · exact absurd heq hgoes.first
    · cases hfirst
    · have hlt := hcontinues.load_lt hresumes hflush
      rw [List.length_cons]
      omega

end SessionTransitionQueue

end LocalFirst
