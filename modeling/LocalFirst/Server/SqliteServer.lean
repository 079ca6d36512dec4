import LocalFirst.Server.GapFree
import LocalFirst.Server.NonInterference
import LocalFirst.Server.Sqlite

/-!
# The server over the database

What a server over one store shows, an alike server over another store shows too.  So the results
about the store in memory hold over the database in every run whose names stay apart in UTF-8.  Where
two documents have names that are kept as one text, they fail.

* `Alike.stream`, `Alike.numbersOf`, `Alike.leaks` — what is shown along a simulation.
* `represents_run` — the tables stay those of a reachable store.
* `gap_free_apart`, `non_interference_apart` — the runs whose names stay apart.
* `gap_free_surrogate`, `non_interference_surrogate` — the document U+FFFD, and one that is kept as it.
-/

set_option autoImplicit false

namespace LocalFirst

namespace SyncServer

/-! ## Along a simulation -/

section

variable {σ τ : Type} {R : σ → τ → Prop} {w : SyncServer σ} {v : SyncServer τ} {k : SocketId}
  {d : JsString} {e : Event}

theorem Alike.joinedTo (h : Alike R w v) : v.joinedTo k = w.joinedTo k := by
  unfold SyncServer.joinedTo
  rw [h.sessions]

theorem Alike.sentTo (h : Alike R w v) : v.sentTo k = w.sentTo k := by
  unfold SyncServer.sentTo
  rw [h.sent]

theorem Alike.historyOf (h : Alike R w v) : v.historyOf d k = w.historyOf d k := by
  unfold SyncServer.historyOf
  rw [h.sentTo]

theorem Alike.documentEvent (h : Alike R w v) : documentEvent d v e = documentEvent d w e := by
  unfold SyncServer.documentEvent
  simp only [h.joinedTo, h.sessions, h.readyState]

variable [ServerStore σ] [ServerStore τ] {names : Names} (hsim : Simulates names R)
include hsim

theorem Alike.stream (h : Alike R w v) (hd : d ∈ names.documents) (cursor : Int) :
    v.stream k d cursor = w.stream k d cursor := by
  unfold SyncServer.stream
  rw [h.sentTo, h.log hsim hd]

theorem Alike.eventsOf : ∀ {w : SyncServer σ} {v : SyncServer τ} {es : List Event}, Alike R w v →
    (∀ e ∈ es, e.Named names) → eventsOf d v es = eventsOf d w es
  | _, _, [], _, _ => rfl
  | w, v, e :: es, h, hnamed => by
    obtain ⟨he, hnamed⟩ := List.forall_mem_cons.1 hnamed
    have hrest := Alike.eventsOf (h.handle hsim he) hnamed
    unfold SyncServer.eventsOf at hrest ⊢
    rw [Runs.labels, Runs.labels, h.documentEvent, hrest]

section

variable {es : List Event} (h : Alike R w v) (hnamed : ∀ e ∈ es, e.Named names)
include h hnamed

theorem Alike.cursorsOf : cursorsOf d v es = cursorsOf d w es := by
  unfold SyncServer.cursorsOf
  rw [Alike.eventsOf hsim h hnamed]

theorem Alike.numbersOf (hd : d ∈ names.documents) : numbersOf d v es = numbersOf d w es := by
  unfold SyncServer.numbersOf
  rw [Alike.cursorsOf hsim h hnamed, (h.run hsim es hnamed).log hsim hd]

theorem Alike.historyOf_run : (v.run es).historyOf d k = (w.run es).historyOf d k :=
  (h.run hsim es hnamed).historyOf

end

/-- A leak over one store is one over the other. -/
theorem Alike.leaks (h : Alike R w v) (hnamed : e.Named names) (hd : d ∈ names.documents)
    (hleaks : Leaks d w e) : Leaks d v e := by
  have hafter := h.handle hsim hnamed
  obtain ⟨added, k, m, dl, hsent, hm, hdl, hof, hnot⟩ := hleaks
  refine ⟨added, k, m, dl, ?_, hm, hdl, ?_, ?_⟩
  · rw [hafter.sent, h.sent]
    exact hsent
  · rw [hafter.log hsim hd]
    exact hof
  · rw [hafter.joinedTo]
    exact hnot

end

/-! ## Names that stay apart -/

section

variable {names names' : Names} {db db' : SqliteDatabase} {s s' : OperationStore} {d : JsString}

/-- An event leads from a reachable store to one. -/
theorem reachable_handle (w : SyncServer) (e : Event) (h : w.store.Reachable) :
    (w.handle e).store.Reachable := by
  cases handle_effect w e with
  | moved he added hstore hsent hadded => exact hstore ▸ h
  | quiet added hrooms hstore hsent hadded => exact hstore ▸ h
  | stalled socket session message env added he hsession hnew hschema hthrows hrooms hstore hsent
      hadded => exact hstore ▸ h
  | synced socket session message env rest he hsession hnew hschema hcursor hrooms hstore hsent
      hrest =>
    rw [hstore]
    exact .sync env.rowWritten message.documentId message.lastServerSeq _ h
  | echoed socket session documentId item env he hsession hdocument hclient hrooms hitem hstore
      hsent => exact hstore ▸ h
  | appended socket session documentId operation env he hsession hdocument hclient hvalid hschema
      hrooms hnew hstore hsent =>
    rw [hstore]
    exact .append documentId operation h
      (OperationStore.appendOperation_new hvalid (OperationStore.findOperation_none.2 hnew))

/-- A run over the tables of a reachable store ends with the tables of one. -/
theorem represents_run (hdb : Represents names db s) (hstore : s.Reachable) (es : List Event)
    (hnamed : ∀ e ∈ es, e.Named names) :
    ∃ s' : OperationStore, s'.Reachable ∧ Represents names ((attach db).run es).store s' := by
  obtain ⟨db', heq, hrep⟩ := (Alike.attach hdb).run (sqlite_simulates names) es hnamed
  have hreachable : ((start s).run es).store.Reachable := by
    rw [run_eq]
    exact Runs.invariant (I := fun w : SyncServer => w.store.Reachable) reachable_handle _ es hstore
  refine ⟨_, hreachable, ?_⟩
  rw [heq]
  exact hrep

/-- **A joined socket receives a gap-free stream**, if no two names of the run, or of the database that
it begins with, are kept as one text. -/
theorem gap_free_apart (hdb : Represents names db s) (hstore : s.Reachable) (before : List Event)
    (k : SocketId) (message : JoinMessage) {env : ServerEnv} (henv : env.Reliable)
    (after : List Event)
    (hnamed : ∀ e ∈ before ++ .message k (.message (.join message)) env :: after, e.Named names)
    (hnew : ((attach db).run before).joinedTo k = none)
    (hjoin : (((attach db).run before).handle
      (.message k (.message (.join message)) env)).joinedTo k = some message.documentId) :
    let w := (((attach db).run before).handle (.message k (.message (.join message)) env)).run after
    let log := w.log message.documentId
    let stream := w.stream k message.documentId message.lastServerSeq
    (∀ k' m, (k', .operation m) ∈ w.sent → ⟨m.serverSeq, m.operation⟩ ∈ w.log m.documentId) ∧
    Increasing SequencedOperation.serverSeq stream ∧
    (∃ n, stream = between SequencedOperation.serverSeq message.lastServerSeq n log) ∧
    (w.readyState k = .opened → stream = log.filter (message.lastServerSeq < ·.serverSeq)) := by
  intro w log stream
  have hsim := sqlite_simulates names
  obtain ⟨hbefore, hrest⟩ := List.forall_mem_append.1 hnamed
  obtain ⟨hmessage, hafter⟩ := List.forall_mem_cons.1 hrest
  have hd : message.documentId ∈ names.documents := hmessage
  have hran := (Alike.attach hdb).run hsim before hbefore
  have hjoined := hran.handle hsim hmessage
  have halike := hjoined.run hsim after hafter
  obtain ⟨hlogged, hincreasing, hpart, hall⟩ := gap_free hstore before k message henv after
    (hran.joinedTo.trans hnew) (hjoined.joinedTo.trans hjoin)
  rw [← log_plain, halike.log hsim hd, halike.stream hsim hd] at hpart hall
  rw [halike.stream hsim hd] at hincreasing
  rw [halike.readyState] at hall
  refine ⟨fun k' m hm => ?_, hincreasing, hpart, hall⟩
  -- the row that was sent has a name that is kept apart
  have hlog := hlogged k' m (halike.sent ▸ hm)
  obtain ⟨store, heq, hrep⟩ := id halike
  have hm : m.documentId ∈ names.documents := by
    obtain ⟨row, hrow, hdocument, -⟩ := OperationStore.mem_log.1 hlog
    rw [heq] at hrow
    rw [← hdocument]
    exact (hrep.named row hrow).1
  rw [← log_plain, halike.log hsim hm] at hlog
  exact hlog

/-- A client joins a document that holds one row, and another client appends a second one. -/
theorem gap_free_apart_pair :
    let env : ServerEnv := ⟨none, none, none, true, id⟩
    let first : TextOperation := .insert ⟨js "A:1", js "A", 1, 1, ROOT_ID, js "a"⟩
    let second : TextOperation := .insert ⟨js "B:1", js "B", 1, 2, js "A:1", js "b"⟩
    let db := SqliteDatabase.created.insertOperation (js "d") first
    let after : List Event :=
      [.connection 1 6, .message 1 (.message (.join ⟨js "d", js "B", 1, none, none⟩)) env,
        .message 1 (.message (.submitOperation ⟨js "d", second⟩)) env]
    ((((attach db).run [.connection 0 5]).handle
      (.message 0 (.message (.join ⟨js "d", js "C", 0, none, none⟩)) env)).run after).stream
        0 (js "d") 0 = [⟨1, first⟩, ⟨2, second⟩] := by
  intro env first second db after
  have hd : Json.wellFormed (js "d") = true := by decide
  have hb : Json.wellFormed (js "B:1") = true := by decide
  have hdb : Represents .wellFormed db (OperationStore.empty.insertOperation (js "d") first) :=
    (Represents.created Names.apart_wellFormed).insertOperation hd
      (show Json.wellFormed (js "A:1") = true by decide) rfl
  have hstore : (OperationStore.empty.insertOperation (js "d") first).Reachable :=
    .append (js "d") first .empty rfl
  obtain ⟨-, -, -, hopen⟩ := gap_free_apart hdb hstore [.connection 0 5] 0
    ⟨js "d", js "C", 0, none, none⟩ (show env.Reliable from ⟨rfl, rfl, rfl⟩) after
    (by
      simp only [after, List.cons_append, List.nil_append, List.forall_mem_cons]
      exact ⟨trivial, hd, trivial, hd, ⟨hd, hb⟩, fun _ h => by cases h⟩)
    rfl (by decide +kernel)
  exact (hopen (by decide +kernel)).trans (by decide +kernel)

/-- **Documents do not interfere**, if in each run no two names, of the events or of the database, are
kept as one text. -/
theorem non_interference_apart {es es' : List Event} (hdb : Represents names db s)
    (hdb' : Represents names' db' s') (hstore : s.Reachable) (hstore' : s'.Reachable)
    (hsame : OperationStore.SameDocument d s s') (hd : d ∈ names.documents)
    (hd' : d ∈ names'.documents) (hnamed : ∀ e ∈ es, e.Named names)
    (hnamed' : ∀ e ∈ es', e.Named names') (hok : ∀ e ∈ es, e.Reliable)
    (hok' : ∀ e ∈ es', e.Reliable) (hevents : SameEvents d (attach db) (attach db') es es') :
    SameHistories d (attach db) (attach db') es es' ∧
      Runs.Never SyncServer.handle (Leaks d) (attach db) es ∧
      Runs.Never SyncServer.handle (Leaks d) (attach db') es' := by
  have hsim := sqlite_simulates names
  have hsim' := sqlite_simulates names'
  have h := Alike.attach hdb
  have h' := Alike.attach hdb'
  have hplain : SameEvents d (start s) (start s') es es' := by
    refine ⟨?_, ?_⟩
    · rw [Alike.eventsOf hsim h hnamed, Alike.eventsOf hsim' h' hnamed']
      exact hevents.events
    · rw [Alike.cursorsOf hsim h hnamed, Alike.cursorsOf hsim' h' hnamed',
        Alike.numbersOf hsim h hnamed hd, Alike.numbersOf hsim' h' hnamed' hd']
      exact hevents.cursors
  have hleaks : ∀ {names : Names} {db : SqliteDatabase} {s : OperationStore} {es : List Event},
      Represents names db s → d ∈ names.documents → (∀ e ∈ es, e.Named names) →
      Runs.Never SyncServer.handle (Leaks d) (start s) es →
      Runs.Never SyncServer.handle (Leaks d) (attach db) es := by
    intro names db s es hdb hd hnamed hnever before e after heq hleak
    refine hnever before e after heq ?_
    have hsim := sqlite_simulates names
    have hbefore : ∀ e ∈ before, e.Named names := fun e he => hnamed e (by rw [heq]; simp [he])
    have hran := (Alike.attach hdb).run hsim before hbefore
    rw [run_eq, run_eq] at hran
    exact hran.leaks hsim (hnamed e (by rw [heq]; simp)) hd hleak
  obtain ⟨hhistories, hnever, hnever'⟩ := non_interference hstore hstore' hsame hok hok' hplain
  refine ⟨?_, hleaks hdb hd hnamed hnever, hleaks hdb' hd' hnamed' hnever'⟩
  obtain ⟨φ, hzero, hmono, hrenumbered, hhistory⟩ := hhistories
  refine ⟨φ, hzero, ?_, ?_, fun k => ?_⟩
  · rw [← Alike.numbersOf hsim h hnamed hd]
    exact hmono
  · rw [← Alike.eventsOf hsim h hnamed, ← Alike.eventsOf hsim' h' hnamed']
    exact hrenumbered
  · rw [← Alike.historyOf_run hsim h hnamed, ← Alike.historyOf_run hsim' h' hnamed',
      ← Alike.numbersOf hsim h hnamed hd]
    exact hhistory k

end

def reliable : ServerEnv := ⟨none, none, none, true, id⟩

def typed (clientId value : JsString) (counter : Nat) : TextOperation :=
  .insert ⟨makeOperationId clientId counter, clientId, counter, counter, ROOT_ID, value⟩

/-- One client edits the document `d`, and another then joins with the number of that edit. -/
def alone : List Event :=
  [.connection 0 5, .message 0 (.message (.join ⟨js "d", js "A", 0, none, none⟩)) reliable,
    .message 0 (.message (.submitOperation ⟨js "d", typed (js "A") (js "a") 1⟩)) reliable,
    .connection 1 6, .message 1 (.message (.join ⟨js "d", js "B", 1, none, none⟩)) reliable]

/-- The same, while a third client edits another document. -/
def besides : List Event :=
  [.connection 7 1, .message 7 (.message (.join ⟨js "other", js "X", 0, none, none⟩)) reliable,
    .message 7 (.message (.submitOperation ⟨js "other", typed (js "X") (js "x") 1⟩)) reliable,
    .connection 0 5, .message 0 (.message (.join ⟨js "d", js "A", 0, none, none⟩)) reliable,
    .message 0 (.message (.submitOperation ⟨js "d", typed (js "A") (js "a") 1⟩)) reliable,
    .message 7 (.message (.submitOperation ⟨js "other", typed (js "X") (js "y") 2⟩)) reliable,
    .connection 1 6, .message 1 (.message (.join ⟨js "d", js "B", 2, none, none⟩)) reliable]

/-- Both runs show the same of `d`. -/
theorem non_interference_apart_pair :
    SameHistories (js "d") (attach SqliteDatabase.created) (attach SqliteDatabase.created) alone
        besides ∧
      Runs.Never SyncServer.handle (Leaks (js "d")) (attach SqliteDatabase.created) alone ∧
      Runs.Never SyncServer.handle (Leaks (js "d")) (attach SqliteDatabase.created) besides := by
  have hd : Json.wellFormed (js "d") = true := by decide
  have hother : Json.wellFormed (js "other") = true := by decide
  have hcreated : Represents .wellFormed .created .empty := .created Names.apart_wellFormed
  have hedit : ∀ n ∈ [1, 2], ∀ clientId ∈ [js "A", js "X"],
      Json.wellFormed (makeOperationId clientId n) = true := by decide
  refine non_interference_apart hcreated hcreated .empty .empty
    (OperationStore.Reachable.empty.sameDocument _) hd hd ?_ ?_
    (by simp [alone, Event.Reliable, ServerEnv.Reliable, reliable])
    (by simp [besides, Event.Reliable, ServerEnv.Reliable, reliable])
    ⟨by decide +kernel, by decide +kernel⟩
  · simp only [alone, List.forall_mem_cons]
    exact ⟨trivial, hd, ⟨hd, hedit 1 (by simp) _ (by simp)⟩, trivial, hd, fun _ h => by cases h⟩
  · simp only [besides, List.forall_mem_cons]
    exact ⟨trivial, hother, ⟨hother, hedit 1 (by simp) _ (by simp)⟩, trivial, hd,
      ⟨hd, hedit 1 (by simp) _ (by simp)⟩, ⟨hother, hedit 2 (by simp) _ (by simp)⟩, trivial, hd,
      fun _ h => by cases h⟩

/-! ## Two documents that are kept as one -/

/-- Half a surrogate pair, and what it is kept as. -/
def half : JsString := [0xD800]

def replaced : JsString := [0xFFFD]

/-- A row that is appended through the one room is in the log of the other document, and a socket that
has joined that is not sent it. -/
theorem gap_free_surrogate :
    let w := (attach SqliteDatabase.created).run
      [.connection 0 5, .message 0 (.message (.join ⟨replaced, js "A", 0, none, none⟩)) reliable,
        .connection 1 6, .message 1 (.message (.join ⟨half, js "B", 0, none, none⟩)) reliable,
        .message 1 (.message (.submitOperation ⟨half, typed (js "B") (js "b") 1⟩)) reliable]
    w.readyState 0 = .opened ∧ w.joinedTo 0 = some replaced ∧
      w.log replaced = [⟨1, typed (js "B") (js "b") 1⟩] ∧ w.stream 0 replaced 0 = [] ∧
      w.stream 0 replaced 0 ≠ (w.log replaced).filter (0 < ·.serverSeq) := by
  decide +kernel

/-- A client joins the document, and before that another one edits the other document, or not. -/
theorem non_interference_surrogate :
    let join : List Event :=
      [.connection 0 5, .message 0 (.message (.join ⟨replaced, js "A", 0, none, none⟩)) reliable]
    let aside : List Event :=
      [.connection 1 6, .message 1 (.message (.join ⟨half, js "B", 0, none, none⟩)) reliable,
        .message 1 (.message (.submitOperation ⟨half, typed (js "B") (js "b") 1⟩)) reliable]
    let w := attach SqliteDatabase.created
    SameEvents replaced w w join (aside ++ join) ∧
      (∀ e ∈ aside ++ join, e.Reliable) ∧ ¬ SameHistories replaced w w join (aside ++ join) ∧
      ¬ Runs.Never SyncServer.handle (Leaks replaced) w (aside ++ join) := by
  intro join aside w
  refine ⟨⟨by decide +kernel, by decide +kernel⟩,
    by simp [aside, join, Event.Reliable, ServerEnv.Reliable, reliable], ?_, ?_⟩
  · rintro ⟨φ, -, -, -, hhistory⟩
    have hempty : (w.run join).historyOf replaced 0 = [.sync ⟨replaced, [], 0, none⟩] := by
      decide +kernel
    have hrow : (w.run (aside ++ join)).historyOf replaced 0 =
        [.sync ⟨replaced, [⟨1, typed (js "B") (js "b") 1⟩], 1, none⟩] := by decide +kernel
    have hsame := (hhistory 0).1
    rw [hempty, hrow] at hsame
    cases hsame
  · -- the edit is a row of the document, and is sent to the socket of the other one
    intro hnever
    refine hnever (aside.take 2) aside[2] join rfl
      ⟨[(1, .operation ⟨half, 1, typed (js "B") (js "b") 1⟩)], 1, _, _, by decide +kernel,
        List.mem_singleton.2 rfl, rfl, Or.inr ⟨⟨1, typed (js "B") (js "b") 1⟩,
          List.mem_singleton.2 rfl, by decide +kernel⟩, by decide +kernel⟩

end SyncServer

end LocalFirst
