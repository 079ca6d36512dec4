import LocalFirst.Client.Acceptable
import LocalFirst.Client.Catalog
import LocalFirst.Client.SessionTransition
import LocalFirst.Client.TextArea

/-!
# One session after another

Model of the part of `apps/web/src/App.tsx` that opens and tears down sessions: `requestSession`,
`teardownSession`, `openSession`, `handlePopState`, `navigateToDocument` and `boot`, with the editing
handlers as far as they depend on the session.  All sessions share the tables of the browser.

An `await` ends a step.  What comes after it is an event of its own, or a part of the event that
settles the promise.

* `Workspace.step` — navigation, the stages of `openSession`, the text area, the write queues and the
  deliveries of the sync clients, in any order.
* `Workspace.run` — a run of the page, over the tables that the browser has.
-/

set_option autoImplicit false

namespace LocalFirst

/-! ## State -/

/-- What `readDocumentIdFromSearch` finds in the address. -/
inductive DocumentRouteRead where
  | missing
  | valid (documentId : JsString)
  | invalid (raw : JsString)
  deriving DecidableEq

/-- The document that a route asks for. -/
def DocumentRouteRead.target : DocumentRouteRead → Option JsString
  | .missing => some DEFAULT_DOCUMENT_ID
  | .valid documentId => some documentId
  | .invalid _ => none

/-- A job of a write queue with what its continuation reads: the version that it compares, and
whether the gate is released after it. -/
structure SessionJob where
  job : Job
  requestVersion : Option ℕ
  releases : Bool

/-- An `ActiveSession`, with the write queue of its controller. -/
structure ActiveSession where
  documentId : JsString
  generation : ℕ
  controller : LocalDocumentController
  compositionGate : CompositionGate
  writeQueue : List SessionJob
  closing : Bool
  syncClosed : Bool

/-- A `teardownSession` that found a session.  It awaits the gate, or the write queue; `awaited` says
whether `openSession` awaits it. -/
structure Teardown where
  previous : ℕ
  gate : Bool
  awaited : Bool

def Teardown.holds (t : Teardown) (i : ℕ) : Bool := t.gate && t.previous == i

def Teardown.goOn (t : Teardown) (i : ℕ) : Teardown :=
  if t.holds i then { t with gate := false } else t

/-- What `openSession` awaits. -/
inductive OpenStage where
  | tearingDown
  | ensuring
  | listing
  | creating
  deriving DecidableEq

structure Opening where
  documentId : JsString
  generation : ℕ
  stage : OpenStage

/-- `sessions` holds every session that was opened, in this order, and `session` is
`sessionRef.current`.  `textOf` is no state of the program: it is the session whose text the text
area was last given. -/
structure Workspace where
  db : Database
  transitions : SessionTransitionQueue Unit Unit
  sessions : List ActiveSession
  session : Option ℕ
  opening : Option Opening
  teardowns : List Teardown
  address : Option DocumentRouteRead
  activeDocumentId : Option JsString
  composing : Bool
  requestVersion : ℕ
  text : JsString
  textOf : Option ℕ
  saveState : SaveState
  switching : Bool
  invalidRoute : Bool

/-- `navigate` is a click on a document, `popState` a step in the history of the browser.  `start`,
`prepared` and `switched` are the reactions of the transition queue, `closed` the end of a teardown,
and `tornDown` to `created` what follows the awaits of `openSession`.  `deliver` is the last check
of a handler of the sync client, after its awaits, and `settle` the end of the oldest job of a write
queue.  `create` and `rename` are the writes of `createDocument` and `renameActive`, which land after
other inputs.  A transaction may abort. -/
inductive WorkspaceInput where
  | boot (timestamp : JsString) (routed : DocumentRouteRead) (aborted : Bool)
  | navigate (documentId : JsString)
  | popState (routed : DocumentRouteRead)
  | start (n : ℕ)
  | prepared (n : ℕ)
  | switched (n : ℕ)
  | closed (k : ℕ)
  | tornDown
  | ensured (timestamp : JsString) (aborted : Bool)
  | listed (aborted : Bool)
  | created (env : Surroundings) (aborted : Bool)
  | textChange (value : JsString)
  | compositionStart
  | compositionEnd (value : JsString)
  | deliver (i : ℕ) (delivery : ServerDelivery)
  | settle (i : ℕ) (env : Surroundings) (aborted : Bool)
  | create (documentId timestamp : JsString)
  | rename (documentId title timestamp : JsString)

namespace Workspace

/-- The page before `boot`, over the tables that the browser has. -/
def start (db : Database) : Workspace :=
  { db := db
    transitions := .new
    sessions := []
    session := none
    opening := none
    teardowns := []
    address := none
    activeDocumentId := none
    composing := false
    requestVersion := 0
    text := []
    textOf := none
    saveState := .loading
    switching := true
    invalidRoute := false }

def update (w : Workspace) (i : ℕ) (f : ActiveSession → ActiveSession) : Workspace :=
  { w with sessions := w.sessions.modify i f }

def current (w : Workspace) : Option ActiveSession := w.session.bind fun i => w.sessions[i]?

def isHolding (w : Workspace) : Bool := w.current.any (·.compositionGate.isHolding)

/-! ## Tearing down -/

/-- `teardownSession` after the gate, up to the promise of `whenIdle`. -/
def leave (w : Workspace) (previous : ℕ) : Workspace :=
  { w with session := none }.update previous fun s => { s with syncClosed := true }

def teardownSession (w : Workspace) (awaited : Bool) : Workspace :=
  match w.session with
  | none => w
  | some previous =>
    if w.isHolding then { w with teardowns := w.teardowns ++ [⟨previous, true, awaited⟩] }
    else
      let left := w.leave previous
      { left with teardowns := left.teardowns ++ [⟨previous, false, awaited⟩] }

/-- The gate is released, and the teardowns that await it go on. -/
def release (w : Workspace) (i : ℕ) : Workspace :=
  let released := w.update i fun s => { s with compositionGate := s.compositionGate.release }
  if released.teardowns.any (·.holds i) then
    { released.leave i with teardowns := released.teardowns.map (·.goOn i) }
  else released

/-- `teardownSession` after `whenIdle`: the write queue is empty, so `close` ends at once. -/
def close (w : Workspace) (i : ℕ) : Workspace :=
  (w.update i fun s => { s with closing := true }).release i

/-- The end of a teardown that has passed the gate, when the write queue has settled. -/
def closed (w : Workspace) (k : ℕ) : Workspace :=
  match w.teardowns[k]? with
  | none => w
  | some t =>
    if t.gate ∨ (w.sessions[t.previous]?.any fun s => !s.writeQueue.isEmpty) then w
    else { w with teardowns := w.teardowns.eraseIdx k }.close t.previous

/-! ## Opening -/

/-- The `catch` of `openSession`. -/
def openFailed (w : Workspace) (opening : Opening) : Workspace :=
  if w.transitions.isCurrent opening.generation then
    { w with
      opening := none
      activeDocumentId := none
      text := []
      textOf := none
      saveState := .error
      switching := false }
  else { w with opening := none }

/-- `openSession`, up to the promise of `teardownSession`. -/
def openSession (w : Workspace) (documentId : JsString) (generation : ℕ) : Workspace :=
  if w.transitions.isCurrent generation then
    { w with
      switching := true
      invalidRoute := false
      text := []
      textOf := none
      saveState := .loading
      opening := some ⟨documentId, generation, .tearingDown⟩ }.teardownSession true
  else w

def enter (w : Workspace) (opening : Opening) (stage : OpenStage) : Workspace :=
  { w with opening := some { opening with stage := stage } }

/-- `openSession` after `teardownSession`. -/
def tornDown (w : Workspace) (opening : Opening) : Workspace :=
  if w.teardowns.any (·.awaited) then w
  else if w.transitions.isCurrent opening.generation then w.enter opening .ensuring
  else { w with opening := none }

def ensured (w : Workspace) (opening : Opening) (timestamp : JsString) (aborted : Bool) : Workspace :=
  if aborted then w.openFailed opening
  else match w.db.ensureDocument opening.documentId (defaultTitleFor opening.documentId) timestamp with
    | .error _ => w.openFailed opening
    | .ok (_, db) => { w with db := db }.enter opening .listing

def listed (w : Workspace) (opening : Opening) (aborted : Bool) : Workspace :=
  if aborted then w.openFailed opening else w.enter opening .creating

/-- The session that `openSession` makes of a controller. -/
def sessionOf (opening : Opening) (controller : LocalDocumentController) : ActiveSession :=
  { documentId := opening.documentId
    generation := opening.generation
    controller := controller
    compositionGate := .new
    writeQueue := []
    closing := false
    syncClosed := false }

/-- `openSession` after `LocalDocumentController.create`. -/
def opened (w : Workspace) (opening : Opening) (controller : LocalDocumentController) : Workspace :=
  if w.transitions.isCurrent opening.generation then
    match controller.getSnapshot with
    | .error _ => w.openFailed opening
    | .ok snapshot =>
      { w with
        opening := none
        sessions := w.sessions ++ [sessionOf opening controller]
        session := some w.sessions.length
        activeDocumentId := some opening.documentId
        text := snapshot.text
        textOf := some w.sessions.length
        saveState := .saved
        switching := false }
  else { w with opening := none }

def createOptions (documentId : JsString) : LocalDocumentControllerOptions :=
  ⟨some documentId, some (defaultTitleFor documentId), none⟩

def created (w : Workspace) (opening : Opening) (env : Surroundings) (aborted : Bool) : Workspace :=
  if aborted then w.openFailed opening
  else match LocalDocumentController.create w.db (createOptions opening.documentId) env with
    | (.error _, db) => { w with db := db }.openFailed opening
    | (.ok controller, db) => { w with db := db }.opened opening controller

/-! ## Navigation -/

def transitionPending (w : Workspace) : Bool :=
  w.transitions.drain.getLast?.any fun flush => !flush.settled

def navigationLocked (w : Workspace) : Bool := w.transitionPending || w.switching

def requestSession (w : Workspace) (documentId : JsString) : Workspace :=
  { w with transitions := w.transitions.request documentId () (some ()) }

def navigateToDocument (w : Workspace) (documentId : JsString) : Workspace :=
  if ¬ isValidWorkspaceDocumentId documentId then { w with invalidRoute := true, switching := false }
  else if w.activeDocumentId = some documentId ∧ ¬ w.navigationLocked ∧ ¬ w.invalidRoute then w
  else { w with address := some (.valid documentId) }.requestSession documentId

/-- `handlePopState`.  An invalid route shows a page without the text area. -/
def handlePopState (w : Workspace) (routed : DocumentRouteRead) : Workspace :=
  match routed.target with
  | none =>
    { w with
      address := some routed
      invalidRoute := true
      switching := false
      activeDocumentId := none
      text := []
      textOf := none }.teardownSession false
  | some documentId => { w with address := some routed }.requestSession documentId

/-- The `catch` of `boot`. -/
def bootFailed (w : Workspace) : Workspace := { w with switching := false, saveState := .error }

/-- `boot`, with the transaction that ensures the default document. -/
def boot (w : Workspace) (timestamp : JsString) (routed : DocumentRouteRead) (aborted : Bool) :
    Workspace :=
  if aborted then w.bootFailed
  else match w.db.ensureDocument DEFAULT_DOCUMENT_ID (defaultTitleFor DEFAULT_DOCUMENT_ID) timestamp with
  | .error _ => w.bootFailed
  | .ok (_, db) =>
    match routed.target with
    | none => { w with db := db, address := some routed, invalidRoute := true, switching := false }
    | some documentId => { w with db := db, address := some routed }.requestSession documentId

/-- A reaction of the queue.  Where it calls `switchTo`, `openSession` runs up to its first await. -/
def transition (w : Workspace) (e : TransitionEvent Unit Unit) : Workspace :=
  let w' := { w with transitions := w.transitions.step e }
  if w.transitions.calls.length < w'.transitions.calls.length then
    match w'.transitions.calls.getLast? with
    | some call => w'.openSession call.target call.generation
    | none => w'
  else w'

/-! ## Editing -/

/-- The job of an edit, and of a delivery, on a controller that is not closing. -/
def enqueue (w : Workspace) (i : ℕ) (queued : SessionJob) : Workspace :=
  w.update i fun s => { s with writeQueue := s.writeQueue ++ [queued] }

/-- The continuation of `commitText`, and the release of the gate after it. -/
def commitSettled (w : Workspace) (i : ℕ) (s : ActiveSession) (queued : SessionJob)
    (outcome : Except JsError LocalDocumentSnapshot) : Workspace :=
  let shown :=
    if queued.requestVersion ≠ some w.requestVersion ∨ ¬ w.transitions.isCurrent s.generation then w
    else match outcome with
      | .ok snapshot => { w with text := snapshot.text, textOf := some i, saveState := .saved }
      | .error _ =>
        match s.controller.getSnapshot with
        | .ok snapshot => { w with text := snapshot.text, textOf := some i, saveState := .error }
        | .error _ => w
  if queued.releases then shown.release i else shown

/-- `commitText`: a controller that is closing rejects. -/
def commitText (w : Workspace) (nextText : JsString) (releases : Bool) : Workspace :=
  let typed := { w with text := nextText }
  match w.session with
  | none => typed
  | some i =>
    let saving := { typed with saveState := .saving, requestVersion := w.requestVersion + 1 }
    let queued : SessionJob := ⟨.replaceText nextText, some (w.requestVersion + 1), releases⟩
    match w.sessions[i]? with
    | none => saving
    | some s =>
      if s.closing then saving.commitSettled i s queued (.error ⟨.error, []⟩)
      else saving.enqueue i queued

/-- The text area is there, and enabled. -/
def editable (w : Workspace) : Bool :=
  !w.invalidRoute && !w.switching && w.saveState != .loading

def onTextChange (w : Workspace) (value : JsString) : Workspace :=
  if w.composing || w.isHolding then { w with text := value } else w.commitText value false

def onCompositionStart (w : Workspace) : Workspace :=
  let composing := { w with composing := true }
  match w.session with
  | none => composing
  | some i => composing.update i fun s => { s with compositionGate := s.compositionGate.begin }

def onCompositionEnd (w : Workspace) (value : JsString) : Workspace :=
  { w with composing := false }.commitText value true

/-! ## Ingestion -/

/-- The last check of `onServerOperations` and of `onSnapshotBootstrap`, and the job behind it. -/
def deliver (w : Workspace) (i : ℕ) (delivery : ServerDelivery) : Workspace :=
  match w.sessions[i]? with
  | none => w
  | some s =>
    if w.session ≠ some i ∨ ¬ w.transitions.isCurrent s.generation ∨ s.closing then w
    else match delivery with
      | .operations items confirmed =>
        w.enqueue i ⟨.applyServerOperations items confirmed, some w.requestVersion, false⟩
      | .snapshot bootstrap items confirmed =>
        w.enqueue i ⟨.installServerSnapshot bootstrap items confirmed, none, false⟩

/-- The handlers after their job. -/
def ingestSettled (w : Workspace) (i : ℕ) (s : ActiveSession) (queued : SessionJob)
    (outcome : Except JsError LocalDocumentSnapshot) : Workspace :=
  match outcome with
  | .error _ => w
  | .ok snapshot =>
    if ¬ w.transitions.isCurrent s.generation ∨ ¬ queued.requestVersion.all (· == w.requestVersion) then
      w
    else { w with text := snapshot.text, textOf := some i }

/-! ## Jobs -/

variable (segmentGraphemes : JsString → List JsString)

def runQueued (w : Workspace) (s : ActiveSession) (env : Surroundings) (aborted : Bool) (job : Job) :
    LocalDocumentController × Database × Except JsError LocalDocumentSnapshot :=
  if aborted then (s.controller, w.db, .error abortError)
  else s.controller.runJob segmentGraphemes w.db env job

def settle (w : Workspace) (i : ℕ) (env : Surroundings) (aborted : Bool) : Workspace :=
  match w.sessions[i]? with
  | none => w
  | some s =>
    match s.writeQueue with
    | [] => w
    | queued :: writeQueue =>
      let ran := w.runQueued segmentGraphemes s env aborted queued.job
      let s' := { s with controller := ran.1, writeQueue := writeQueue }
      let w' := { w with db := ran.2.1 }.update i fun _ => s'
      match queued.job with
      | .replaceText _ => w'.commitSettled i s' queued ran.2.2
      | _ => w'.ingestSettled i s' queued ran.2.2

def step (w : Workspace) : WorkspaceInput → Workspace
  | .boot timestamp routed aborted => w.boot timestamp routed aborted
  | .navigate documentId => w.navigateToDocument documentId
  | .popState routed => w.handlePopState routed
  | .start n => w.transition (.start n)
  -- `prepare` awaits the gate of the session that it finds
  | .prepared n => if w.isHolding then w else w.transition (.prepared n)
  | .switched n => if w.opening.isSome then w else w.transition (.switched n)
  | .closed k => w.closed k
  | .tornDown => w.opening.elim w fun opening =>
    if opening.stage = .tearingDown then w.tornDown opening else w
  | .ensured timestamp aborted => w.opening.elim w fun opening =>
    if opening.stage = .ensuring then w.ensured opening timestamp aborted else w
  | .listed aborted => w.opening.elim w fun opening =>
    if opening.stage = .listing then w.listed opening aborted else w
  | .created env aborted => w.opening.elim w fun opening =>
    if opening.stage = .creating then w.created opening env aborted else w
  | .textChange value => if w.editable then w.onTextChange value else w
  | .compositionStart => if w.editable then w.onCompositionStart else w
  | .compositionEnd value => w.onCompositionEnd value
  | .deliver i delivery => w.deliver i delivery
  | .settle i env aborted => w.settle segmentGraphemes i env aborted
  | .create documentId timestamp =>
    match w.db.ensureDocument documentId (defaultTitleFor documentId) timestamp with
    | .error _ => w
    | .ok (_, db) => { w with db := db }
  | .rename documentId title timestamp =>
    match w.db.renameDocument documentId title timestamp with
    | .error _ => w
    | .ok (_, db) => { w with db := db }

def run (db : Database) (inputs : List WorkspaceInput) : Workspace :=
  Runs.run (step segmentGraphemes) (start db) inputs

end Workspace

end LocalFirst
