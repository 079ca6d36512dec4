import Mathlib.Data.List.Forall2
import Mathlib.Data.List.Induction

/-!
# Runs of a machine

The runs of a machine that takes one step for each event of a list.

* `run_append` — a run in two parts.
* `Always.of_never` — what every step keeps but the bad ones holds in a run without bad steps.
* `always_iff_never`, `always_iff_never_of` — and only there, if a bad step breaks it.
* `Never.history` — the same for what is said of the whole run so far.
* `since_iff` — what begins with one kind of step and ends with one kind of event.
* `labels_queue` — what goes through a queue comes out in order.
* `unwinding` — two runs whose labelled steps correspond stay related.
* `answers_eq` — two machines that answer alike.
* `run_keys` — a run over keys that touches each of them alone.
-/

set_option autoImplicit false

namespace LocalFirst

namespace Runs

variable {σ ε : Type} (step : σ → ε → σ)

/-- The state after a list of events. -/
def run (s : σ) : List ε → σ
  | [] => s
  | e :: es => run (step s e) es

/-- `P` holds in every state of the run. -/
def Always (P : σ → Prop) (s : σ) (es : List ε) : Prop :=
  ∀ before after, es = before ++ after → P (run step s before)

/-- No step of the run is one of `B`. -/
def Never (B : σ → ε → Prop) (s : σ) (es : List ε) : Prop :=
  ∀ before e after, es = before ++ e :: after → ¬ B (run step s before) e

variable {step} {s : σ} {es : List ε} {P I : σ → Prop} {B : σ → ε → Prop}

theorem run_append : ∀ (s : σ) (before after : List ε),
    run step s (before ++ after) = run step (run step s before) after
  | _, [], _ => rfl
  | s, e :: before, after => run_append (step s e) before after

theorem run_snoc (s : σ) (before : List ε) (e : ε) :
    run step s (before ++ [e]) = step (run step s before) e := run_append s before [e]

theorem Always.imp {Q : σ → Prop} (h : Always step P s es) (himp : ∀ s, P s → Q s) :
    Always step Q s es :=
  fun before after heq => himp _ (h before after heq)

theorem Always.last (h : Always step P s es) : P (run step s es) := h es [] (by simp)

theorem Never.first {e : ε} (h : Never step B s (e :: es)) : ¬ B s e := h [] e es rfl

theorem Never.tail {e : ε} (h : Never step B s (e :: es)) : Never step B (step s e) es :=
  fun before e' after heq => h (e :: before) e' after (by rw [heq]; rfl)

theorem Never.split {before after : List ε} (h : Never step B s (before ++ after)) :
    Never step B s before :=
  fun before' e after' heq => h before' e (after' ++ after) (by rw [heq]; simp)

/-- **What every step keeps, the run keeps.**  `Ok` is what is known of the events. -/
theorem invariant_of {Ok : ε → Prop} (hstep : ∀ s e, Ok e → I s → I (step s e)) :
    ∀ {s : σ} {es : List ε}, I s → (∀ e ∈ es, Ok e) → I (run step s es)
  | _, [], h, _ => h
  | s, e :: es, h, hok => by
    obtain ⟨he, hok⟩ := List.forall_mem_cons.1 hok
    show I (run step (step s e) es)
    exact invariant_of hstep (hstep s e he h) hok

theorem invariant (hstep : ∀ s e, I s → I (step s e)) (s : σ) (es : List ε) (h : I s) :
    I (run step s es) :=
  @invariant_of _ _ step I (fun _ => True) (fun s e _ => hstep s e) s es h fun _ _ => trivial

theorem always_cons {e : ε} :
    Always step P s (e :: es) ↔ P s ∧ Always step P (step s e) es := by
  refine ⟨fun h => ⟨h [] (e :: es) rfl, fun before after heq => ?_⟩, fun ⟨hP, h⟩ before after heq => ?_⟩
  · exact h (e :: before) after (by rw [heq]; rfl)
  · cases before with
    | nil => exact hP
    | cons first before =>
      cases heq
      exact h before after rfl

theorem never_cons {e : ε} : Never step B s (e :: es) ↔ ¬ B s e ∧ Never step B (step s e) es := by
  refine ⟨fun h => ⟨h.first, h.tail⟩, fun ⟨hB, h⟩ before e' after heq => ?_⟩
  cases before with
  | nil =>
    cases heq
    exact hB
  | cons first before =>
    cases heq
    exact h before e' after rfl

/-- **What every step keeps but the bad ones holds in a run without bad steps.**  `Ok` is what is
known of the events. -/
theorem Always.of_never {Ok : ε → Prop} (hkeep : ∀ s e, Ok e → P s → ¬ B s e → P (step s e))
    (hP : P s) (hok : ∀ e ∈ es, Ok e) (hnever : Never step B s es) : Always step P s es := by
  induction es generalizing s with
  | nil =>
    intro before after heq
    obtain ⟨rfl, -⟩ := List.append_eq_nil_iff.1 heq.symm
    exact hP
  | cons e es ih =>
    obtain ⟨he, hok⟩ := List.forall_mem_cons.1 hok
    exact always_cons.2 ⟨hP, ih (hkeep s e he hP hnever.first) hok hnever.tail⟩

theorem Never.last (hkeep : ∀ s e, P s → ¬ B s e → P (step s e)) (hP : P s)
    (hnever : Never step B s es) : P (run step s es) :=
  (@Always.of_never _ _ step s es P B (fun _ => True) (fun s e _ => hkeep s e) hP
    (fun _ _ => trivial) hnever).last

/-- **It holds in every state exactly if no step is bad**, when each bad step breaks it. -/
theorem always_iff_never_of {Ok : ε → Prop} (hinv : ∀ s e, Ok e → I s → I (step s e))
    (hkeep : ∀ s e, Ok e → I s → P s → ¬ B s e → P (step s e))
    (hbreak : ∀ s e, Ok e → I s → P s → B s e → ¬ P (step s e)) (hI : I s) (hP : P s)
    (hok : ∀ e ∈ es, Ok e) : Always step P s es ↔ Never step B s es := by
  constructor
  · intro halways
    induction es generalizing s with
    | nil => exact fun before e after heq => by simp at heq
    | cons e es ih =>
      obtain ⟨he, hok⟩ := List.forall_mem_cons.1 hok
      obtain ⟨-, halways⟩ := always_cons.1 halways
      have hafter : P (step s e) := halways [] es rfl
      exact never_cons.2 ⟨fun hB => hbreak s e he hI hP hB hafter,
        ih (hinv s e he hI) hafter hok halways⟩
  · intro hnever
    have hboth : Always step (fun s => I s ∧ P s) s es := by
      refine Always.of_never (fun s e he h hB => ?_) ⟨hI, hP⟩ hok hnever
      exact ⟨hinv s e he h.1, hkeep s e he h.1 h.2 hB⟩
    exact hboth.imp fun _ h => h.2

theorem always_iff_never (hinv : ∀ s e, I s → I (step s e))
    (hkeep : ∀ s e, I s → P s → ¬ B s e → P (step s e))
    (hbreak : ∀ s e, I s → P s → B s e → ¬ P (step s e)) (hI : I s) (hP : P s) :
    Always step P s es ↔ Never step B s es :=
  @always_iff_never_of _ _ _ s es P I B (fun _ => True) (fun s e _ => hinv s e)
    (fun s e _ => hkeep s e) (fun s e _ => hbreak s e) hI hP fun _ _ => trivial

/-- **What is said of the run so far**, and is kept by each step that is not bad. -/
theorem Never.history {Q : List ε → Prop} (hnever : Never step B s es) (hnil : Q [])
    (hsnoc : ∀ before e, Q before → ¬ B (run step s before) e → Q (before ++ [e])) : Q es := by
  induction es using List.reverseRecOn with
  | nil => exact hnil
  | append_singleton before e ih => exact hsnoc before e (ih hnever.split) (hnever before e [] rfl)

variable (step) in
/-- A step of the run is one of `B`, and no event after it is one of `Ends`. -/
def Since (B : σ → ε → Prop) (Ends : ε → Prop) (s : σ) (es : List ε) : Prop :=
  ∃ before e after, es = before ++ e :: after ∧ B (run step s before) e ∧ ∀ e' ∈ after, ¬ Ends e'

theorem since_snoc {Ends : ε → Prop} {e : ε} : Since step B Ends s (es ++ [e]) ↔
    B (run step s es) e ∨ (Since step B Ends s es ∧ ¬ Ends e) := by
  constructor
  · rintro ⟨before, e', after, heq, hB, hends⟩
    rcases List.eq_nil_or_concat after with rfl | ⟨after, last, rfl⟩
    · obtain ⟨rfl, hlast⟩ := List.append_inj' heq rfl
      cases hlast
      exact Or.inl hB
    · rw [List.concat_eq_append, ← List.cons_append, ← List.append_assoc] at heq
      obtain ⟨rfl, hlast⟩ := List.append_inj' heq rfl
      cases hlast
      exact Or.inr ⟨⟨before, e', after, rfl, hB, fun x hx => hends x (by simp [hx])⟩,
        hends e (by simp)⟩
  · rintro (hB | ⟨⟨before, e', after, rfl, hB, hends⟩, he⟩)
    · exact ⟨es, e, [], rfl, hB, fun _ h => by cases h⟩
    · refine ⟨before, e', after ++ [e], by simp, hB, fun x hx => ?_⟩
      rcases List.mem_append.1 hx with hx | hx
      · exact hends x hx
      · rw [List.mem_singleton.1 hx]
        exact he

/-- **What begins with a step of `B` and ends with an event of `Ends`.** -/
theorem since_iff {Ends : ε → Prop} (hP : ¬ P s) (hstep : ∀ before e after,
      es = before ++ e :: after → (P (step (run step s before) e) ↔
        B (run step s before) e ∨ (P (run step s before) ∧ ¬ Ends e))) :
    P (run step s es) ↔ Since step B Ends s es := by
  induction es using List.reverseRecOn with
  | nil => exact ⟨fun h => absurd h hP, fun ⟨_, _, _, heq, _⟩ => by simp at heq⟩
  | append_singleton before e ih =>
    have ih := ih fun before' e' after heq => hstep before' e' (after ++ [e]) (by rw [heq]; simp)
    rw [run_snoc, since_snoc, ← ih]
    exact hstep before e [] rfl

variable (step) in
/-- Checks every step of a run. -/
def allSteps (check : σ → ε → Bool) (s : σ) : List ε → Bool
  | [] => true
  | e :: es => check s e && allSteps check (step s e) es

theorem Never.of_allSteps {check : σ → ε → Bool} (hcheck : ∀ s e, check s e = true → ¬ B s e) :
    ∀ {s : σ} {es : List ε}, allSteps step check s es = true → Never step B s es
  | _, [], _ => fun before e after heq => by simp at heq
  | s, e :: es, hall => by
    rw [allSteps, Bool.and_eq_true] at hall
    exact never_cons.2 ⟨hcheck s e hall.1, Never.of_allSteps hcheck hall.2⟩

/-! ## Two runs -/

section

variable {ℓ : Type} (step) (label : σ → ε → Option ℓ)

/-- The labels of the steps that have one. -/
def labels (s : σ) : List ε → List ℓ
  | [] => []
  | e :: es => (label s e).toList ++ labels (step s e) es

variable {step label}

theorem labels_append : ∀ (s : σ) (before after : List ε), labels step label s (before ++ after) =
    labels step label s before ++ labels step label (run step s before) after
  | _, [], _ => rfl
  | s, e :: before, after => by
    rw [List.cons_append, labels, labels, labels_append (step s e) before after, List.append_assoc]
    rfl

theorem labels_map {μ : Type} (g : ℓ → μ) : ∀ (s : σ) (es : List ε),
    labels step (fun s e => (label s e).map g) s es = (labels step label s es).map g
  | _, [] => rfl
  | s, e :: es => by
    rw [labels, labels, labels_map g (step s e) es, List.map_append]
    cases label s e with
    | none => rfl
    | some a => rfl

/-- **A queue loses and reorders nothing**: what was in it and what came in is what went out and what
is in it, if each step keeps this. -/
theorem labels_queue {queue : σ → List ℓ} {out : σ → ε → Option ℓ}
    (hstep : ∀ s e, queue s ++ (label s e).toList = (out s e).toList ++ queue (step s e)) :
    ∀ (s : σ) (es : List ε),
      queue s ++ labels step label s es = labels step out s es ++ queue (run step s es)
  | s, [] => by simp [labels, run]
  | s, e :: es => by
    rw [labels, labels, ← List.append_assoc, hstep, List.append_assoc, labels_queue hstep,
      ← List.append_assoc]
    rfl

variable {R : σ → σ → Prop} {Same : ℓ → ℓ → Prop} {Ok : ε → Prop} {F F' : σ → Prop}

theorem run_unlabelled (hright : ∀ s s' e, R s s' → Ok e → label s' e = none → R s (step s' e)) :
    ∀ {s s' : σ} {es : List ε}, R s s' → (∀ e ∈ es, Ok e) → labels step label s' es = [] →
      R s (run step s' es)
  | _, _, [], h, _, _ => h
  | s, s', e :: es, h, hok, hnil => by
    rw [labels, List.append_eq_nil_iff, Option.toList_eq_nil_iff] at hnil
    obtain ⟨hfirst, hok⟩ := List.forall_mem_cons.1 hok
    show R s (run step (step s' e) es)
    exact run_unlabelled hright (hright s s' e h hfirst hnil.1) hok hnil.2

/-- The first labelled step, with the steps before it. -/
theorem labels_cons : ∀ {s : σ} {es : List ε} {a : ℓ} {rest : List ℓ},
    labels step label s es = a :: rest → ∃ before e after, es = before ++ e :: after ∧
      labels step label s before = [] ∧ label (run step s before) e = some a ∧
      labels step label (step (run step s before) e) after = rest
  | _, [], _, _, h => by cases h
  | s, e :: es, a, rest, h => by
    rw [labels] at h
    cases hlabel : label s e with
    | some b =>
      rw [hlabel] at h
      cases h
      exact ⟨[], e, es, rfl, rfl, hlabel, rfl⟩
    | none =>
      rw [hlabel] at h
      obtain ⟨before, e', after, hes, hnil, hfirst, hrest⟩ := labels_cons h
      refine ⟨e :: before, e', after, by rw [hes]; rfl, ?_, hfirst, hrest⟩
      rw [labels, hlabel, hnil]
      rfl

/-- **Two runs whose labelled steps correspond stay related**, if a step without a label keeps the
relation on either side, and corresponding steps keep it together.  `F` and `F'` are facts about the
ends of the runs that hold all along. -/
theorem unwinding (hleft : ∀ s s' e, R s s' → Ok e → label s e = none → R (step s e) s')
    (hright : ∀ s s' e, R s s' → Ok e → label s' e = none → R s (step s' e))
    (hboth : ∀ s s' e e' a a', R s s' → Ok e → Ok e' → label s e = some a → label s' e' = some a' →
      Same a a' → F (step s e) → F' (step s' e') → R (step s e) (step s' e'))
    (hF : ∀ s es, F (run step s es) → F s) (hF' : ∀ s es, F' (run step s es) → F' s) :
    ∀ {s s' : σ} {es es' : List ε}, R s s' → (∀ e ∈ es, Ok e) → (∀ e ∈ es', Ok e) →
      List.Forall₂ Same (labels step label s es) (labels step label s' es') →
      F (run step s es) → F' (run step s' es') → R (run step s es) (run step s' es') := by
  intro s s' es
  induction es generalizing s s' with
  | nil =>
    intro es' h _ hok' hsame _ _
    exact run_unlabelled hright h hok' (List.forall₂_nil_left_iff.1 hsame)
  | cons e es ih =>
    intro es' h hok hok' hsame hend hend'
    obtain ⟨hfirst, hok⟩ := List.forall_mem_cons.1 hok
    rw [labels] at hsame
    cases hlabel : label s e with
    | none =>
      rw [hlabel] at hsame
      exact ih (hleft s s' e h hfirst hlabel) hok hok' hsame hend hend'
    | some a =>
      rw [hlabel] at hsame
      obtain ⟨a', rest, haa, hrest, hlabels⟩ := List.forall₂_cons_left_iff.1 hsame
      -- the other run gets to the corresponding step without labels
      obtain ⟨before, e', after, rfl, hnil, hlabel', hafter⟩ := labels_cons hlabels
      have hbefore := run_unlabelled hright h
        (fun x hx => hok' x (List.mem_append_left _ hx)) hnil
      rw [run_append] at hend' ⊢
      show R (run step (step s e) es) (run step (step (run step s' before) e') after)
      refine ih (hboth s _ e e' a a' hbefore hfirst (hok' e' (by simp)) hlabel hlabel' haa
        (hF _ es hend) (hF' _ after hend')) hok (fun x hx => hok' x (by simp [hx])) ?_ hend hend'
      rw [hafter]
      exact hrest

end

/-! ## Machines that answer -/

section

variable {τ ω : Type}

/-- The answers to a list of calls. -/
def answers (call : σ → ε → ω × σ) : σ → List ε → List ω
  | _, [] => []
  | s, e :: es => (call s e).1 :: answers call (call s e).2 es

/-- **Two machines that answer alike, and stay related, give the same answers.**  `Ok` is what is known
of the calls. -/
theorem answers_eq {R : σ → τ → Prop} {Ok : ε → Prop} {call : σ → ε → ω × σ} {call' : τ → ε → ω × τ}
    (hcall : ∀ s t e, Ok e → R s t →
      (call s e).1 = (call' t e).1 ∧ R (call s e).2 (call' t e).2) :
    ∀ {s : σ} {t : τ} {es : List ε}, R s t → (∀ e ∈ es, Ok e) →
      answers call s es = answers call' t es ∧
        R (run (fun s e => (call s e).2) s es) (run (fun t e => (call' t e).2) t es)
  | _, _, [], h, _ => ⟨rfl, h⟩
  | s, t, e :: es, h, hok => by
    obtain ⟨he, hok⟩ := List.forall_mem_cons.1 hok
    obtain ⟨hanswer, hnext⟩ := hcall s t e he h
    obtain ⟨hanswers, hlast⟩ := answers_eq hcall hnext hok
    refine ⟨?_, hlast⟩
    rw [answers, answers, hanswer, hanswers]

end

/-! ## Each key once -/

/-- **A run over keys, each touching what is seen of it alone**, touches each of them once. -/
theorem run_keys {κ β : Type} [DecidableEq κ] {step : σ → κ → σ} {view : σ → κ → β} {u : κ → β → β}
    (hown : ∀ s k, view (step s k) k = u k (view s k))
    (hframe : ∀ s k j, j ≠ k → view (step s k) j = view s j) :
    ∀ {s : σ} {ks : List κ}, ks.Nodup → ∀ k,
      view (run step s ks) k = if k ∈ ks then u k (view s k) else view s k
  | _, [], _, _ => rfl
  | s, first :: ks, hnodup, k => by
    obtain ⟨hfirst, hnodup⟩ := List.nodup_cons.1 hnodup
    show view (run step (step s first) ks) k = _
    rw [run_keys hown hframe hnodup k]
    by_cases hk : k = first
    · subst hk
      rw [if_neg hfirst, if_pos (List.mem_cons_self ..), hown]
    · simp only [hframe s first k hk, List.mem_cons, hk, false_or]

end Runs

end LocalFirst
