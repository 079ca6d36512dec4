import LocalFirst.Client.Clock

/-!
# The workspace catalog

Model of `apps/web/src/persistence/local-workspace-catalog.ts`, and the runs of everything that
writes the tables of one browser: the transactions of the store, the checkpoints, and the catalog.
-/

set_option autoImplicit false

namespace LocalFirst

def UNTITLED_DOCUMENT_TITLE : JsString := js "Untitled Document"

def MAX_DOCUMENT_TITLE_CODE_POINTS : ℕ := 80

structure InvalidDocumentTitleError where
  message : JsString
  deriving DecidableEq

/-- `Array.from(s).length`: a surrogate pair counts once. -/
def codePointCount : JsString → ℕ
  | [] => 0
  | [_] => 1
  | high :: low :: rest =>
    if (0xD800 ≤ high.val ∧ high.val ≤ 0xDBFF) ∧ (0xDC00 ≤ low.val ∧ low.val ≤ 0xDFFF) then
      codePointCount rest + 1
    else codePointCount (low :: rest) + 1

def normalizeDocumentTitle (title : JsString) : Except InvalidDocumentTitleError JsString :=
  let trimmed := trim title
  if trimmed.length = 0 then .error ⟨js "Document title must not be empty."⟩
  else if codePointCount trimmed > MAX_DOCUMENT_TITLE_CODE_POINTS then
    .error ⟨js "Document title must be at most " ++ decimal MAX_DOCUMENT_TITLE_CODE_POINTS ++
      js " characters."⟩
  else .ok trimmed

def defaultTitleFor (documentId : JsString) : JsString :=
  if documentId = DEFAULT_DOCUMENT_ID then DEFAULT_DOCUMENT_TITLE else UNTITLED_DOCUMENT_TITLE

/-- Every default title passes its own check. -/
theorem normalizeDocumentTitle_defaultTitleFor (documentId : JsString) :
    normalizeDocumentTitle (defaultTitleFor documentId) = .ok (defaultTitleFor documentId) := by
  unfold defaultTitleFor
  split <;> rfl

namespace Database

def ensureSyncState (db : Database) (documentId : JsString) : Database :=
  match db.syncState.get? documentId with
  | some _ => db
  | none => { db with syncState := db.syncState.put ⟨documentId, 0⟩ }

def ensureDocument (db : Database) (documentId defaultTitle timestamp : JsString) :
    Except InvalidDocumentTitleError (DocumentRecord × Database) :=
  match db.documents.get? documentId with
  | some existing => .ok (existing, db.ensureSyncState documentId)
  | none =>
    match normalizeDocumentTitle defaultTitle with
    | .error e => .error e
    | .ok title =>
      let record : DocumentRecord := ⟨documentId, title, timestamp, timestamp⟩
      .ok (record, { db with documents := db.documents.put record }.ensureSyncState documentId)

def renameDocument (db : Database) (documentId title timestamp : JsString) :
    Except (InvalidDocumentTitleError ⊕ JsError) (DocumentRecord × Database) :=
  match normalizeDocumentTitle title with
  | .error e => .error (.inl e)
  | .ok normalized =>
    match db.documents.get? documentId with
    | none => .error (.inr (missingDocumentError documentId))
    | some existing =>
      let next := { existing with title := normalized, updatedAt := timestamp }
      .ok (next, { db with documents := db.documents.put next })

end Database

/-! ## Runs -/

/-- A write to the tables of one browser. -/
inductive WorkspaceEvent where
  | store (event : StoreEvent)
  | saveReplicaSnapshot (documentId : JsString) (snapshot : TextReplicaSnapshot)
      (knownOperationCount : ℕ) (timestamp : JsString)
  | ensureDocument (documentId defaultTitle timestamp : JsString)
  | renameDocument (documentId title timestamp : JsString)

namespace WorkspaceEvent

/-- The tables after a write, and all that local edits have returned. -/
def step (s : StoreRun) : WorkspaceEvent → StoreRun
  | .store event => s.step event
  | .saveReplicaSnapshot documentId snapshot knownOperationCount timestamp =>
    { s with db := s.db.saveReplicaSnapshot documentId snapshot knownOperationCount timestamp }
  | .ensureDocument documentId defaultTitle timestamp =>
    match s.db.ensureDocument documentId defaultTitle timestamp with
    | .error _ => s
    | .ok (_, db) => { s with db := db }
  | .renameDocument documentId title timestamp =>
    match s.db.renameDocument documentId title timestamp with
    | .error _ => s
    | .ok (_, db) => { s with db := db }

def run (events : List WorkspaceEvent) : StoreRun := Runs.run step StoreRun.start events

end WorkspaceEvent

/-- What the catalog and the checkpoints leave alone: they touch titles, checkpoints, and the
cursors that do not exist yet. -/
structure Database.SameLog (db db' : Database) : Prop where
  clientMeta : db'.clientMeta = db.clientMeta
  operations : db'.operations = db.operations
  outbox : db'.outbox = db.outbox
  serverBaselines : db'.serverBaselines = db.serverBaselines
  documents : ∀ k, (db.documents.get? k).isSome → (db'.documents.get? k).isSome
  cursor : ∀ k, db'.getLastServerSeq k = db.getLastServerSeq k

namespace Database

theorem getLastServerSeq_ensureSyncState (db : Database) (documentId k : JsString) :
    (db.ensureSyncState documentId).getLastServerSeq k = db.getLastServerSeq k := by
  unfold ensureSyncState
  split
  · rfl
  · rename_i hnone
    unfold getLastServerSeq
    rw [Table.get?_put]
    by_cases hk : documentId = k
    · rw [if_pos hk, ← hk, hnone]
    · rw [if_neg hk]

theorem documents_ensureSyncState (db : Database) (documentId : JsString) :
    (db.ensureSyncState documentId).documents = db.documents := by
  unfold ensureSyncState
  split <;> rfl

/-- Under its default title a document can always be opened, and exists from then on. -/
theorem ensureDocument_default (db : Database) (documentId timestamp : JsString) :
    ∃ record db', db.ensureDocument documentId (defaultTitleFor documentId) timestamp =
      .ok (record, db') ∧ db'.documents.get? documentId = some record := by
  unfold ensureDocument
  cases hdoc : db.documents.get? documentId with
  | some existing =>
    refine ⟨existing, _, rfl, ?_⟩
    rw [documents_ensureSyncState, hdoc]
  | none =>
    rw [normalizeDocumentTitle_defaultTitleFor]
    refine ⟨_, _, rfl, ?_⟩
    rw [documents_ensureSyncState]
    exact Table.get?_put_self _ _

theorem sameLog_ensureSyncState {db db' : Database} (documentId : JsString) (h : SameLog db db') :
    SameLog db (db'.ensureSyncState documentId) := by
  have hcursor := fun k => (getLastServerSeq_ensureSyncState db' documentId k).trans (h.cursor k)
  unfold ensureSyncState at hcursor ⊢
  split at hcursor
  · exact h
  · exact ⟨h.clientMeta, h.operations, h.outbox, h.serverBaselines, h.documents, hcursor⟩

theorem sameLog_put (db : Database) (record : DocumentRecord) :
    SameLog db { db with documents := db.documents.put record } :=
  ⟨rfl, rfl, rfl, rfl, fun _ hk => Table.isSome_get?_put record hk, fun _ => rfl⟩

theorem SameLog.refl (db : Database) : SameLog db db :=
  ⟨rfl, rfl, rfl, rfl, fun _ => id, fun _ => rfl⟩

theorem ensureDocument_sameLog {db db' : Database} {documentId defaultTitle timestamp : JsString}
    {record : DocumentRecord}
    (h : db.ensureDocument documentId defaultTitle timestamp = .ok (record, db')) :
    SameLog db db' := by
  unfold ensureDocument at h
  split at h
  · cases h
    exact sameLog_ensureSyncState _ (.refl _)
  · split at h
    · cases h
    · cases h
      exact sameLog_ensureSyncState _ (sameLog_put _ _)

theorem renameDocument_sameLog {db db' : Database} {documentId title timestamp : JsString}
    {record : DocumentRecord}
    (h : db.renameDocument documentId title timestamp = .ok (record, db')) : SameLog db db' := by
  unfold renameDocument at h
  split at h
  · cases h
  · split at h
    · cases h
    · cases h
      exact sameLog_put _ _

end Database

/-- A write is a transaction of the store, or it leaves the log alone. -/
theorem WorkspaceEvent.step_cases (s : StoreRun) (e : WorkspaceEvent) :
    (∃ event, e = .store event ∧ step s e = s.step event) ∨
      (step s e).returned = s.returned ∧ s.db.SameLog (step s e).db := by
  cases e with
  | store event => exact Or.inl ⟨event, rfl, rfl⟩
  | saveReplicaSnapshot documentId snapshot count timestamp =>
    exact Or.inr ⟨rfl, rfl, rfl, rfl, rfl, fun _ => id, fun _ => rfl⟩
  | ensureDocument documentId defaultTitle timestamp =>
    simp only [step]
    split
    · exact Or.inr ⟨rfl, .refl _⟩
    · rename_i record db h
      exact Or.inr ⟨rfl, Database.ensureDocument_sameLog h⟩
  | renameDocument documentId title timestamp =>
    simp only [step]
    split
    · exact Or.inr ⟨rfl, .refl _⟩
    · rename_i record db h
      exact Or.inr ⟨rfl, Database.renameDocument_sameLog h⟩

namespace WorkspaceEvent

/-- As for a transaction of the store. -/
def Honest (s : StoreRun) : WorkspaceEvent → Prop
  | .store event => s.Honest event
  | _ => True

theorem clockInv_sameLog {s : StoreRun} (h : s.ClockInv) {db : Database} (hsame : s.db.SameLog db) :
    StoreRun.ClockInv ⟨db, s.returned⟩ := by
  have hholds : ∀ op, db.Holds op → s.db.Holds op := by
    unfold Database.Holds
    rw [hsame.operations, hsame.serverBaselines]
    exact fun _ h => h
  refine ⟨fun op hop => ?_, fun op hop => ?_, h.sorted⟩
  · show ∃ m, db.clientMeta = some m ∧ _
    rw [hsame.clientMeta]
    exact h.holds op (hholds op hop)
  · show _ ∧ ∃ m, db.clientMeta = some m ∧ _
    rw [hsame.clientMeta]
    exact h.returned op hop

theorem clockInv_run {events : List WorkspaceEvent}
    (hown : Runs.Never step (fun s e => ¬ Honest s e) StoreRun.start events) :
    (run events).ClockInv := by
  refine hown.last (fun s e h hnot => ?_) StoreRun.ClockInv.start
  rcases step_cases s e with ⟨event, rfl, hstep⟩ | ⟨hreturned, hsame⟩
  · rw [hstep]
    exact h.step (not_not.1 hnot)
  · have := clockInv_sameLog h hsame
    rwa [← hreturned] at this

end WorkspaceEvent

end LocalFirst
