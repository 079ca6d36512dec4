import LocalFirst.Sync.Connection
import LocalFirst.Sync.CursorCompleteness

/-!
# The fallback to the full history

When the snapshot of a sync message cannot be installed, `fallbackToFullHistorySync` switches the
snapshots off and closes the socket.  The end of that socket is then handled like any other, and so
are the messages that have come in on it.

* `Page.step` — a page under any inputs: events of its own, and messages of the server.
* `Recovers` — what holds in every state after a fallback that finds an empty queue and a patient
  client.
* `fallback_iff` — the fallback leads to the full history in every continuation exactly then.
* `fallback_ingests_queued` — a message behind the failed one is ingested, and the next join asks
  for what follows it.
-/

set_option autoImplicit false

namespace LocalFirst

/-! ## Errors -/

theorem exists_error_of_map {α β : Type} {x : Except JsError α} {f : α → β} {error : JsError}
    (h : x.map f = .error error) : x = .error error := by
  cases x with
  | error e => rw [Except.error.inj h]
  | ok a => cases h

/-- What goes wrong in a traversal. -/
theorem TextReplica.traverse_error {r : TextReplica} {error : JsError} :
    ∀ (fuel : Nat) (stack : List JsString), r.traverse fuel stack = .error error →
      error.name = .outOfFuel ∨ error.name = .invalidOperation
  | 0, [], h => by cases h
  | _ + 1, [], h => by cases h
  | 0, _ :: _, h => by cases h; exact Or.inl rfl
  | fuel + 1, currentId :: stack, h => by
    unfold traverse at h
    split at h
    · exact traverse_error fuel stack h
    · split at h
      · cases h
        exact Or.inr rfl
      · simp only at h
        split at h
        · exact traverse_error fuel _ h
        · exact traverse_error fuel _ (exists_error_of_map h)

/-- A document that cannot be shown is no reason to fall back. -/
theorem LocalDocumentController.getSnapshot_error {c : LocalDocumentController} {error : JsError}
    (h : c.getSnapshot = .error error) : DocumentSyncClient.fallsBack error = false := by
  have hvisible : c.replica.getVisibleElements = .error error := by
    unfold getSnapshot at h
    split at h
    · rename_i e hm
      cases h
      exact exists_error_of_map hm
    · split at h
      · rename_i e hv
        cases h
        exact hv
      · cases h
  unfold DocumentSyncClient.fallsBack
  rcases TextReplica.traverse_error _ _ hvisible with hname | hname <;> simp [hname]

/-! ## Runs of a page -/

/-- What happens to a page: an event of its own, or a message of the server comes in. -/
inductive PageInput where
  | event (e : PageEvent)
  | message (socket : SocketId) (message : ServerMessage)

/-- The session stays, and a handler that waits does not go on yet. -/
def PageInput.waits : PageInput → Bool
  | .event .resumeHandler => false
  | .event (.opens _ _ _) => false
  | _ => true

namespace Page

section

variable (segmentGraphemes : JsString → List JsString)

/-- A new `WebSocket` has not been used before. -/
def admits (page : Page) (e : PageEvent) : Bool :=
  match PageEvent.fresh e with
  | none => true
  | some fresh => page.sync.readyState fresh = .connecting

def step (page : Page) : PageInput → Page
  | .event e => if page.admits e then page.handle segmentGraphemes e else page
  | .message socket message => { page with sync := page.sync.onMessage socket message }

def run (page : Page) (inputs : List PageInput) : Page := Runs.run (step segmentGraphemes) page inputs

end

variable {segmentGraphemes : JsString → List JsString} {page : Page}

open DocumentSyncClient

/-- What holds of every page that can be reached: a message that waits has come in on a socket that
is not connecting any more, and the one that is handled has been parsed. -/
structure Ground (page : Page) : Prop where
  base : PageInv page
  joins : JoinInv page
  attached : page.sync.Attached
  parsed : ∀ handler, page.sync.handling = some handler →
    (parseServerMessage handler.message).isSome = true
  heard : ∀ p ∈ page.received, page.sync.readyState p.1 ≠ .connecting

theorem Ground.start : Ground Page.start where
  base := .start
  joins := .start
  attached := ⟨fun h => by (cases h), fun h => by (cases h)⟩
  parsed handler h := by cases h
  heard p hp := by cases hp

/-- The message that is handled is taken. -/
theorem Ground.takes (h : Ground page) {handler : Handler} (hh : page.sync.handling = some handler) :
    Takes page.sync.documentId handler.message :=
  ⟨h.parsed handler hh, h.base.handling handler hh⟩

theorem Ground.handle (h : Ground page) (e : PageEvent) : Ground (page.handle segmentGraphemes e) := by
  have hclient := @handle_client segmentGraphemes page e
  have hlinks := @handle_links segmentGraphemes page e
  obtain ⟨-, hreceived, -⟩ := (@handle_moves segmentGraphemes page e).receives
  refine ⟨h.base.handle e, h.joins.handle e, ?_, fun handler hh => ?_, fun p hp hconnecting => ?_⟩
  · cases hclient with
    | kept heq => rw [heq]; exact h.attached
    | event ce hce heq => rw [heq]; exact h.attached.handle ce
    | renewed documentId clientId displayName readyState heq =>
      rw [heq]
      exact ⟨fun h => by (cases h), fun h => by (cases h)⟩
  · cases hclient with
    | kept heq => rw [heq] at hh; exact h.parsed handler hh
    | event ce hce heq =>
      rw [heq] at hh
      cases handle_handles page.sync ce with
      | kept hkept => exact h.parsed handler (hkept ▸ hh)
      | takes k message inbound hnone hinbound htakes hnew =>
        rw [hnew] at hh
        cases hh
        exact htakes.1
      | settles k message outcome hold hnew =>
        rw [hnew] at hh
        cases hh
        exact h.parsed ⟨k, message, .ingesting⟩ hold
      | loads k message stage stage' hstage hold hnew =>
        rw [hnew] at hh
        cases hh
        exact h.parsed ⟨k, message, stage⟩ hold
      | resumes old hresumes hold hnew =>
        rcases hnew with hnew | ⟨stage, hnew⟩
        · rw [hnew] at hh
          cases hh
        · rw [hnew] at hh
          cases hh
          exact h.parsed old hold
    | renewed documentId clientId displayName readyState heq =>
      rw [heq] at hh
      cases hh
  · exact h.heard p (hreceived p hp) (hlinks.connecting p.1 hconnecting)

theorem Ground.onMessage (h : Ground page) (k : SocketId) (message : ServerMessage) :
    Ground { page with sync := page.sync.onMessage k message } := by
  have hlinks := @onMessage_links page.sync none k message
  refine ⟨h.base.onMessage k message, h.joins.onMessage k message, h.attached.handle (.onMessage k message),
    fun handler hh => ?_, fun p hp hconnecting => ?_⟩
  · have hsame : (page.sync.onMessage k message).handling = page.sync.handling := by
      unfold DocumentSyncClient.onMessage
      split <;> rfl
    exact h.parsed handler (hsame ▸ hh)
  · have hconnecting := hlinks.connecting p.1 hconnecting
    rcases page.sync.onMessage_cases (k := k) message with ⟨-, heq⟩ | ⟨hopen, -, -⟩
    · rw [heq] at hp
      exact h.heard p hp hconnecting
    · rcases received_onMessage p hp with hp | rfl
      · exact h.heard p hp hconnecting
      · rw [hopen] at hconnecting
        cases hconnecting

theorem Ground.step (h : Ground page) (input : PageInput) :
    Ground (page.step segmentGraphemes input) := by
  cases input with
  | event e =>
    simp only [Page.step]
    split
    · exact h.handle e
    · exact h
  | message k message => exact h.onMessage k message

theorem Ground.run (h : Ground page) (inputs : List PageInput) :
    Ground (page.run segmentGraphemes inputs) :=
  Runs.invariant (fun _ input h => h.step input) page inputs h

/-! ## What the fallback leads to -/

section

variable (segmentGraphemes : JsString → List JsString)

/-- The installation of the snapshot of a sync message fails, with an error that falls back. -/
def FailsInstall (page : Page) (callback : Callback) : Prop :=
  ∃ socket sync bootstrap error,
    page.sync.handling = some ⟨socket, .sync sync, .ingesting⟩ ∧
      sync.snapshotBootstrap = some bootstrap ∧
      (page.ingest callback).sync.handling = some ⟨socket, .sync sync, .settled (.error error)⟩ ∧
      fallsBack error = true

/-- A sync message for the document has come in on a socket that was opened after the fallback. -/
def Arrived (fallen : Page) (inputs : List PageInput) (socket : SocketId) : Prop :=
  fallen.sync.readyState socket = .connecting ∧
    ∃ sync, .message socket (.sync sync) ∈ inputs ∧ sync.documentId = fallen.sync.documentId

/-- What may happen after a fallback: the session stays, and on a socket that is opened later the
server says nothing of the document before the page has joined there, and first the sync message. -/
structure Orderly (fallen : Page) (after : List PageInput) : Prop where
  stays : ∀ e, .event e ∈ after → isOpen e = false
  answers : ∀ before socket message rest, after = before ++ .message socket message :: rest →
    fallen.sync.readyState socket = .connecting →
    (∃ d, delivery message = some d ∧ d.documentId = fallen.sync.documentId) →
    (∃ join, (socket, join) ∈ (fallen.run segmentGraphemes before).sync.joinMessages) ∧
      Arrived fallen (before ++ [.message socket message]) socket

/-- The fallback leads to the full history: nothing is ingested before the sync message of a later
socket, the end of the socket arms a reconnect, and the next join carries no capability and the
cursor. -/
structure FallsBack (fallen : Page) (cursor : Int) (after : List PageInput) : Prop where
  ingests : ∀ before env rest socket message,
    after = before ++ .event (.ingest (.runs env)) :: rest →
    (fallen.run segmentGraphemes before).controller.isSome = true →
    (fallen.run segmentGraphemes before).sync.handling = some ⟨socket, message, .ingesting⟩ →
    Arrived fallen before socket
  armed : fallen.sync.socket = none → fallen.sync.closedByClient = false →
    fallen.sync.suspended = false → fallen.sync.reconnectTimer.isSome = true
  reconnects : ∀ before socket rest, after = before ++ .event (.socketClosed socket) :: rest →
    fallen.sync.socket = some socket →
    (fallen.run segmentGraphemes before).sync.socket = some socket →
    (fallen.run segmentGraphemes (before ++ [.event (.socketClosed socket)])).sync.reconnectTimer.isSome =
      true
  joins : ∀ before rest socket message more, after = before ++ rest →
    (fallen.run segmentGraphemes before).sync.joinMessages =
      fallen.sync.joinMessages ++ (socket, message) :: more →
    message.capabilities = none ∧ message.lastServerSeq = cursor

end

/-- No message behind the failed one is taken, and the end of the socket arms a reconnect. -/
structure CanFallBack (page : Page) : Prop where
  alone : page.controller.isSome = true → ∀ p ∈ page.sync.inbound, ¬ Takes page.sync.documentId p.2
  patient : page.sync.socket.isSome = true → page.sync.Patient
  armed : page.sync.socket = none → page.sync.closedByClient = false →
    page.sync.suspended = false → page.sync.reconnectTimer.isSome = true

/-! ## Joining again -/

/-- What the fallback leaves: the snapshots are off, and the socket has ended. -/
structure Fallen (page : Page) : Prop where
  ground : Ground page
  disabled : page.sync.snapshotBootstrapDisabled = true
  ended : ∀ k, page.sync.socket = some k →
    page.sync.readyState k ≠ .connecting ∧ page.sync.readyState k ≠ .opened

/-- The page has not joined since, and every call of `sendJoin` on a later socket will send the
cursor. -/
structure Unjoined (fallen : Page) (cursor : Int) (page : Page) : Prop where
  messages : page.sync.joinMessages = fallen.sync.joinMessages
  lastServerSeq : page.db.getLastServerSeq page.sync.documentId = cursor
  calls : ∀ call ∈ page.sync.joins, fallen.sync.readyState call.socket = .connecting →
    JoinStage.lastServerSeq call.stage = none ∨ JoinStage.lastServerSeq call.stage = some cursor

/-- The page has joined since, without a capability and from the cursor. -/
def Rejoined (fallen : Page) (cursor : Int) (page : Page) : Prop :=
  ∃ k message more, page.sync.joinMessages = fallen.sync.joinMessages ++ (k, message) :: more ∧
    message.capabilities = none ∧ message.lastServerSeq = cursor

/-- The invariant of the runs after a fallback. -/
structure Recovers (fallen : Page) (cursor : Int) (before : List PageInput) (page : Page) : Prop where
  ground : Ground page
  disabled : page.sync.snapshotBootstrapDisabled = true
  documentId : page.sync.documentId = fallen.sync.documentId
  later : ∀ k, page.sync.readyState k = .connecting → fallen.sync.readyState k = .connecting
  live : ∀ k, page.sync.socket = some k →
    page.sync.readyState k = .connecting ∨ page.sync.readyState k = .opened →
    fallen.sync.readyState k = .connecting
  received : page.controller.isSome = true → ∀ p ∈ page.received, Takes page.sync.documentId p.2 →
    Arrived fallen before p.1 ∧ ∃ join, (p.1, join) ∈ page.sync.joinMessages
  checks : ∀ call ∈ page.sync.joins, fallen.sync.readyState call.socket = .connecting →
    call.stage.checks = false
  patient : ∀ k, page.sync.socket = some k → fallen.sync.socket = some k → page.sync.Patient
  joined : Unjoined fallen cursor page ∨ Rejoined fallen cursor page

variable {fallen : Page} {cursor : Int} {before : List PageInput} {e : PageEvent}

theorem Arrived.append {k : SocketId} (h : Arrived fallen before k) (inputs : List PageInput) :
    Arrived fallen (before ++ inputs) k := by
  obtain ⟨hlater, sync, hsync, hd⟩ := h
  exact ⟨hlater, sync, List.mem_append_left _ hsync, hd⟩

theorem Rejoined.kept {page' : Page} (h : Rejoined fallen cursor page)
    (hjoining : Joining page.sync page'.sync) : Rejoined fallen cursor page' := by
  obtain ⟨k, message, more, heq, hgood⟩ := h
  rcases hjoining.messages with hsame | ⟨call, -, message', -, -, -, -, hmore⟩
  · exact ⟨k, message, more, hsame.trans heq, hgood⟩
  · exact ⟨k, message, more ++ [(call.socket, message')], by rw [hmore, heq]; simp, hgood⟩

/-- A page has joined on no later socket before the fallback. -/
theorem Fallen.unjoined (h : Fallen fallen) {k : SocketId} {message : JoinMessage}
    (hlater : fallen.sync.readyState k = .connecting) : (k, message) ∉ fallen.sync.joinMessages :=
  fun hp => h.ground.joins.opened k message (mem_joinMessages.1 hp) hlater

/-- Until the page has joined again nothing is ingested. -/
theorem Recovers.unheard (h : Recovers fallen cursor before page) (hfallen : Fallen fallen)
    (hunjoined : Unjoined fallen cursor page) (hcontroller : page.controller.isSome = true)
    (handler : Handler) : page.sync.handling ≠ some handler := by
  intro hh
  obtain ⟨⟨hlater, -⟩, join, hjoin⟩ :=
    h.received hcontroller _ (received_handler hh) (h.ground.takes hh)
  rw [hunjoined.messages] at hjoin
  exact hfallen.unjoined hlater hjoin

theorem Recovers.append (h : Recovers fallen cursor before page) (inputs : List PageInput) :
    Recovers fallen cursor (before ++ inputs) page :=
  { h with received := fun hc p hp ht =>
      ⟨(h.received hc p hp ht).1.append inputs, (h.received hc p hp ht).2⟩ }

theorem Unjoined.event (h : Unjoined fallen cursor page) (hrecovers : Recovers fallen cursor before page)
    (hfallen : Fallen fallen) (hsession : isOpen e = false)
    (hsame : (page.handle segmentGraphemes e).sync.joinMessages = page.sync.joinMessages) :
    Unjoined fallen cursor (page.handle segmentGraphemes e) := by
  have hmoves := @handle_moves segmentGraphemes page e
  have hdocument : (page.handle segmentGraphemes e).sync.documentId = page.sync.documentId :=
    hmoves.documentId.resolve_right fun ⟨hopen, _⟩ => by (rw [hsession] at hopen; cases hopen)
  refine ⟨hsame.trans h.messages, ?_, fun call hcall hlater => ?_⟩
  · rw [hdocument, ← h.lastServerSeq]
    rcases (@handle_stores segmentGraphemes page e).lastServerSeq with hkept |
      ⟨env, c, socket, message, dl, -, hc, hh, -, -⟩
    · exact hkept _
    · exact absurd hh (hrecovers.unheard hfallen h (by rw [hc]; rfl) _)
  · rcases hmoves.calls hcall with ⟨old, hold, hsocket, hseq⟩ | ⟨hreading, -, -⟩
    · rcases hseq with hseq | hseq | hseq
      · rw [hseq]
        exact h.calls old hold (hsocket ▸ hlater)
      · exact Or.inl hseq
      · exact Or.inr (hseq.trans (congrArg some h.lastServerSeq))
    · rw [hreading]
      exact Or.inl rfl

/-- A join after the fallback is sent on a later socket, by a call that does not ask for a
snapshot. -/
theorem Recovers.joins (h : Recovers fallen cursor before page) (hunjoined : Unjoined fallen cursor page)
    {c' : DocumentSyncClient} (hjoining : Joining page.sync c') :
    c'.joinMessages = page.sync.joinMessages ∨ ∃ k message,
      c'.joinMessages = page.sync.joinMessages ++ [(k, message)] ∧ message.capabilities = none ∧
        message.lastServerSeq = cursor := by
  rcases hjoining.messages with hsame | ⟨call, hcall, message, hsocket, hopen, hseq, hcap, hmore⟩
  · exact Or.inl hsame
  · have hlater := h.live call.socket hsocket (Or.inr hopen)
    refine Or.inr ⟨call.socket, message, hmore, ?_, ?_⟩
    · refine hcap.resolve_right fun hchecks => ?_
      rw [h.checks call hcall hlater] at hchecks
      cases hchecks
    · rcases hunjoined.calls call hcall hlater with hnone | hsome
      · rw [hseq] at hnone
        cases hnone
      · rw [hseq] at hsome
        exact Option.some.inj hsome

/-- **Every event of the session keeps the invariant.** -/
theorem Recovers.event (h : Recovers fallen cursor before page) (hfallen : Fallen fallen)
    (hadmits : page.admits e = true) (hsession : isOpen e = false) :
    Recovers fallen cursor (before ++ [.event e]) (page.handle segmentGraphemes e) := by
  have hmoves := @handle_moves segmentGraphemes page e
  have hlinks := @handle_links segmentGraphemes page e
  have hfresh : ∀ k, PageEvent.fresh e = some k → fallen.sync.readyState k = .connecting := by
    intro k hk
    refine h.later k ?_
    simpa [admits, hk] using hadmits
  have hdocument : (page.handle segmentGraphemes e).sync.documentId = page.sync.documentId :=
    hmoves.documentId.resolve_right fun ⟨hopen, _⟩ => by (rw [hsession] at hopen; cases hopen)
  obtain ⟨hdisabled, hjoining, hpatient⟩ :
      (page.handle segmentGraphemes e).sync.snapshotBootstrapDisabled = true ∧
      Joining page.sync (page.handle segmentGraphemes e).sync ∧
      (page.sync.Patient → (page.handle segmentGraphemes e).sync.socket.isSome = true →
        (page.handle segmentGraphemes e).sync.Patient) := by
    rcases @handle_event segmentGraphemes page e hsession with heq | ⟨ce, -, heq⟩
    · rw [heq]
      exact ⟨h.disabled, .same rfl rfl, fun hpatient _ => hpatient⟩
    · rw [heq]
      exact ⟨handle_disabled h.disabled, handle_joining _ _, fun hpatient hs => hpatient.handle hs⟩
  refine ⟨h.ground.handle e, hdisabled, hdocument.trans h.documentId,
    fun k hk => h.later k (hlinks.connecting k hk), fun k hk hready => ?_,
    fun hcontroller p hp htakes => ?_, fun call hcall hlater => ?_, fun k hk hold => ?_, ?_⟩
  · rcases hlinks.socket k hk with hk | hk
    · refine h.live k hk ?_
      rcases hready with hready | hready
      · exact Or.inl (hlinks.connecting k hready)
      · exact (hlinks.opened k hready).symm
    · exact hfresh k hk
  · obtain ⟨c', hc'⟩ := Option.isSome_iff_exists.1 hcontroller
    rcases handle_controller hc' with ⟨hopen, -, -⟩ | ⟨-, c, hc, -, -⟩
    · rw [hsession] at hopen
      cases hopen
    · obtain ⟨harrived, join, hjoin⟩ := h.received (by rw [hc]; rfl) p (hmoves.receives.received p hp)
        (hdocument ▸ htakes)
      exact ⟨harrived.append _, join, hjoining.kept hjoin⟩
  · refine Bool.eq_false_iff.2 fun hchecks => ?_
    obtain ⟨old, hold, hsocket, hasks⟩ := hjoining.checks h.disabled call hcall hchecks
    rw [h.checks old hold (hsocket ▸ hlater)] at hasks
    cases hasks
  · rcases hlinks.socket k hk with hk' | hk'
    · exact hpatient (h.patient k hk' hold) (by rw [hk]; rfl)
    · exact absurd (hfresh k hk') (hfallen.ended k hold).1
  · rcases h.joined with hunjoined | hrejoined
    · rcases h.joins hunjoined hjoining with hsame | ⟨k, message, hmore, hgood⟩
      · exact Or.inl (hunjoined.event h hfallen hsession hsame)
      · exact Or.inr ⟨k, message, [], by rw [hmore, hunjoined.messages], hgood⟩
    · exact Or.inr (hrejoined.kept hjoining)

/-- **So does a message of an orderly server.** -/
theorem Recovers.onMessage (h : Recovers fallen cursor before page) {k : SocketId}
    {message : ServerMessage}
    (hanswers : fallen.sync.readyState k = .connecting →
      (∃ d, delivery message = some d ∧ d.documentId = fallen.sync.documentId) →
      (∃ join, (k, join) ∈ page.sync.joinMessages) ∧ Arrived fallen (before ++ [.message k message]) k) :
    Recovers fallen cursor (before ++ [.message k message])
      { page with sync := page.sync.onMessage k message } := by
  have hground := h.ground.onMessage k message
  rcases page.sync.onMessage_cases (k := k) message with ⟨-, heq⟩ | ⟨hopen, hsocket, heq⟩
  · rw [heq]
    exact h.append _
  · have hjoined : Unjoined fallen cursor { page with sync := page.sync.onMessage k message } ∨
        Rejoined fallen cursor { page with sync := page.sync.onMessage k message } := by
      rw [heq]
      exact h.joined.imp (fun ⟨hmessages, hseq, hcalls⟩ => ⟨hmessages, hseq, hcalls⟩) id
    have hreceived := @received_onMessage page k message
    rw [heq] at hground hjoined hreceived ⊢
    refine ⟨hground, h.disabled, h.documentId, h.later, h.live, fun hc p hp ht => ?_, h.checks,
      h.patient, hjoined⟩
    rcases hreceived p hp with hp | rfl
    · obtain ⟨harrived, join⟩ := h.received hc p hp ht
      exact ⟨harrived.append _, join⟩
    · -- the message has just come in, on a later socket
      have hlater := h.live k hsocket (Or.inr hopen)
      obtain ⟨-, d, hd, hdoc⟩ := ht
      obtain ⟨hjoin, harrived⟩ := hanswers hlater ⟨d, hd, hdoc.trans h.documentId⟩
      exact ⟨harrived, hjoin⟩

theorem run_snoc (page : Page) (before : List PageInput) (input : PageInput) :
    page.run segmentGraphemes (before ++ [input]) =
      (page.run segmentGraphemes before).step segmentGraphemes input :=
  Runs.run_snoc page before input

/-- The invariant holds in every state after the fallback. -/
theorem Recovers.run (h : Recovers fallen cursor [] fallen) (hfallen : Fallen fallen)
    {after : List PageInput} (horderly : Orderly segmentGraphemes fallen after) :
    ∀ before rest, after = before ++ rest →
      Recovers fallen cursor before (fallen.run segmentGraphemes before) := by
  intro before
  induction before using List.reverseRecOn with
  | nil => exact fun rest _ => h
  | append_singleton before input ih =>
    intro rest heq
    have heq' : after = before ++ input :: rest := by rw [heq]; simp
    have hbefore := ih (input :: rest) heq'
    rw [run_snoc]
    cases input with
    | event e =>
      simp only [Page.step]
      split
      · rename_i hadmits
        exact hbefore.event hfallen hadmits (horderly.stays e (by rw [heq']; simp))
      · exact hbefore.append _
    | message k message => exact hbefore.onMessage (horderly.answers before k message rest heq')

/-- A fallback that the invariant follows leads to the full history. -/
theorem Recovers.fallsBack (h : Recovers fallen cursor [] fallen) (hfallen : Fallen fallen)
    (harmed : fallen.sync.socket = none → fallen.sync.closedByClient = false →
      fallen.sync.suspended = false → fallen.sync.reconnectTimer.isSome = true)
    {after : List PageInput} (horderly : Orderly segmentGraphemes fallen after) :
    FallsBack segmentGraphemes fallen cursor after := by
  have hrun := h.run hfallen horderly
  refine ⟨fun before env rest socket message heq hcontroller hh => ?_, harmed,
    fun before socket rest heq hsocket hk => ?_, fun before rest socket message more heq hmore => ?_⟩
  · have hbefore := hrun before _ heq
    exact (hbefore.received hcontroller _ (received_handler hh) (hbefore.ground.takes hh)).1
  · have hbefore := hrun before _ heq
    rw [run_snoc]
    exact (onClose_armed hbefore.ground.attached hk (hbefore.patient socket hk hsocket)).2
  · rcases (hrun before rest heq).joined with hunjoined | ⟨k, message', more', hmessages, hgood⟩
    · rw [hunjoined.messages] at hmore
      simp at hmore
    · rw [hmessages] at hmore
      cases List.append_cancel_left hmore
      exact hgood

/-! ## The failed install -/

/-- A failed install leaves the cursor. -/
theorem FailsInstall.lastServerSeq {callback : Callback} (h : page.FailsInstall callback)
    (d : JsString) : (page.ingest callback).db.getLastServerSeq d = page.db.getLastServerSeq d := by
  obtain ⟨socket, sync, bootstrap, error, hh, hb, hfailed, hback⟩ := h
  unfold ingest at hfailed ⊢
  split
  · rename_i c socket' message hc hh'
    rw [hh] at hh'
    cases hh'
    simp only [hc, hh] at hfailed
    split
    · rfl
    · rfl
    · rfl
    · rename_i dl env hd
      cases hd
      simp only [delivery] at hfailed ⊢
      rw [show (page.sync.ingestSettled _ _).handling = _ from congrArg Traffic.handling
        (ingestSettled_traffic _ _ hh)] at hfailed
      have houtcome := exists_error_of_map
        (HandlerStage.settled.inj (congrArg Handler.stage (Option.some.inj hfailed)))
      unfold runDelivery at houtcome ⊢
      simp only [hb] at houtcome ⊢
      unfold LocalDocumentController.installServerSnapshotNow at houtcome ⊢
      split at houtcome
      · rfl
      · rw [LocalDocumentController.getSnapshot_error houtcome] at hback
        cases hback
  · rfl

/-- The handler whose ingest has settled waits, and the document and the cursor are those of
`page₀`. -/
structure Stalled (page₀ : Page) (k : SocketId) (message : ServerMessage) (outcome : Except JsError Unit)
    (page : Page) : Prop where
  handling : page.sync.handling = some ⟨k, message, .settled outcome⟩
  documentId : page.sync.documentId = page₀.sync.documentId
  lastServerSeq : ∀ d, page.db.getLastServerSeq d = page₀.db.getLastServerSeq d

theorem Stalled.step {page₀ : Page} {k : SocketId} {message : ServerMessage}
    {outcome : Except JsError Unit} (h : Stalled page₀ k message outcome page) {input : PageInput}
    (hwaits : input.waits = true) :
    Stalled page₀ k message outcome (page.step segmentGraphemes input) := by
  obtain ⟨hh, hdoc, hcursor⟩ := h
  cases input with
  | message socket message' =>
    simp only [Page.step]
    rcases page.sync.onMessage_cases (k := socket) message' with ⟨-, heq⟩ | ⟨-, -, heq⟩
    · rw [heq]
      exact ⟨hh, hdoc, hcursor⟩
    · rw [heq]
      exact ⟨hh, hdoc, hcursor⟩
  | event e =>
    simp only [Page.step]
    split
    · have hsession : isOpen e = false := by
        cases e with
        | opens options env displayName => cases hwaits
        | _ => rfl
      refine ⟨?_, Eq.trans ?_ hdoc, fun d => Eq.trans ?_ (hcursor d)⟩
      · rcases @handle_event segmentGraphemes page e hsession with heq | ⟨ce, hce, heq⟩
        · rw [heq]
          exact hh
        · rw [heq]
          refine (handle_handles page.sync ce).settled hh fun hresumes => ?_
          rw [hce hresumes] at hwaits
          cases hwaits
      · refine (@handle_moves segmentGraphemes page e).documentId.resolve_right fun ⟨hopen, _⟩ => ?_
        rw [hsession] at hopen
        cases hopen
      · rcases (@handle_stores segmentGraphemes page e).lastServerSeq with hkept |
          ⟨_, _, _, _, _, _, _, hingesting, _⟩
        · exact hkept d
        · rw [hh] at hingesting
          cases hingesting
    · exact ⟨hh, hdoc, hcursor⟩

/-- The handler of the failed install goes on next. -/
def Failed (page : Page) : Prop :=
  ∃ socket sync bootstrap error,
    page.sync.handling = some ⟨socket, .sync sync, .settled (.error error)⟩ ∧
      sync.snapshotBootstrap = some bootstrap ∧ fallsBack error = true

/-- The page after the failed install, when its handler has waited for a while. -/
theorem FailsInstall.failed {callback : Callback} (h : page.FailsInstall callback)
    {between : List PageInput} (hwaits : ∀ input ∈ between, input.waits = true) :
    Failed ((page.ingest callback).run segmentGraphemes between) ∧
      ((page.ingest callback).run segmentGraphemes between).db.getLastServerSeq
        ((page.ingest callback).run segmentGraphemes between).sync.documentId =
      page.db.getLastServerSeq page.sync.documentId := by
  have hseq := h.lastServerSeq page.sync.documentId
  obtain ⟨socket, sync, bootstrap, error, hh, hb, hfailed, hback⟩ := h
  have hdocument : (page.ingest callback).sync.documentId = page.sync.documentId :=
    (@handle_moves segmentGraphemes page (.ingest callback)).documentId.resolve_right
      fun ⟨hopen, _⟩ => by cases hopen
  have hstart : Stalled (page.ingest callback) socket (.sync sync) (.error error)
      (page.ingest callback) := ⟨hfailed, rfl, fun _ => rfl⟩
  obtain ⟨hstay, hdoc, hcursor⟩ : Stalled (page.ingest callback) socket (.sync sync) (.error error)
      ((page.ingest callback).run segmentGraphemes between) :=
    Runs.invariant_of (fun _ _ hinput h => h.step hinput) hstart hwaits
  exact ⟨⟨socket, sync, bootstrap, error, hstay, hb, hback⟩,
    (congrArg _ (hdoc.trans hdocument)).trans ((hcursor _).trans hseq)⟩

theorem Failed.resumes (h : Failed page) :
    page.step segmentGraphemes (.event .resumeHandler) =
      { page with sync := page.sync.fallbackToFullHistorySync.handled } := by
  obtain ⟨socket, sync, bootstrap, error, hh, hb, hback⟩ := h
  show { page with sync := page.sync.resumeHandler } = _
  have hresumes : page.sync.resumeHandler = page.sync.fallbackToFullHistorySync.handled := by
    unfold resumeHandler
    simp only [hh, ingestDone, hb]
    exact if_pos hback
  rw [hresumes]

/-- The fallback ends the socket. -/
theorem fallbackToFullHistorySync_ended {c : DocumentSyncClient} {k : SocketId}
    (hk : c.socket = some k) : c.fallbackToFullHistorySync.readyState k ≠ .connecting ∧
      c.fallbackToFullHistorySync.readyState k ≠ .opened := by
  unfold fallbackToFullHistorySync
  simp only [hk]
  unfold closeSocket
  simp only
  split
  · exact ⟨by simp [setReadyState], by simp [setReadyState]⟩
  · exact ⟨by simp [setReadyState], by simp [setReadyState]⟩
  · rename_i hready
    simp [hready]
  · rename_i hready
    simp [hready]

theorem Failed.falls (h : Failed page) (hground : Ground page) :
    Fallen (page.step segmentGraphemes (.event .resumeHandler)) := by
  have hstep := @Ground.step segmentGraphemes page hground (.event .resumeHandler)
  rw [h.resumes] at hstep ⊢
  have hconnection := @fallbackToFullHistorySync_connection page.sync
  refine ⟨hstep, congrArg Connection.snapshotBootstrapDisabled hconnection, fun k hk => ?_⟩
  exact fallbackToFullHistorySync_ended ((congrArg Connection.socket hconnection).symm.trans hk)

/-- A page that can fall back starts in the invariant. -/
theorem Failed.recovers (h : Failed page) (hground : Ground page) (hcan : CanFallBack page) :
    Recovers (page.step segmentGraphemes (.event .resumeHandler))
      (page.db.getLastServerSeq page.sync.documentId) []
      (page.step segmentGraphemes (.event .resumeHandler)) := by
  have hfallen := @falls segmentGraphemes page h hground
  rw [h.resumes] at hfallen ⊢
  have hconnection := @fallbackToFullHistorySync_connection page.sync
  have htraffic := page.sync.fallbackToFullHistorySync_traffic
  have hnever : ∀ call ∈ page.sync.fallbackToFullHistorySync.joins,
      page.sync.fallbackToFullHistorySync.readyState call.socket ≠ .connecting :=
    fun call hcall => (hfallen.ground.joins.calls call hcall).1
  refine ⟨hfallen.ground, hfallen.disabled, rfl, fun _ hk => hk, fun k hk hready => ?_,
    fun hcontroller p hp htakes => ?_, fun call hcall hlater => absurd hlater (hnever call hcall),
    fun k hk _ => ?_, Or.inl ⟨rfl, ?_, fun call hcall hlater => absurd hlater (hnever call hcall)⟩⟩
  · obtain ⟨hconnecting, hopened⟩ := hfallen.ended k hk
    exact absurd hready (not_or.2 ⟨hconnecting, hopened⟩)
  · -- no message behind the failed one is taken
    have hp : p ∈ page.sync.inbound := by
      rw [← show page.sync.fallbackToFullHistorySync.inbound = page.sync.inbound from
        congrArg Traffic.inbound htraffic]
      exact hp
    rw [show page.sync.fallbackToFullHistorySync.handled.documentId = page.sync.documentId from
      congrArg Traffic.documentId htraffic] at htakes
    exact absurd htakes (hcan.alone hcontroller p hp)
  · have hsocket : page.sync.socket = some k := (congrArg Connection.socket hconnection).symm.trans hk
    obtain ⟨hfew, hunreachable⟩ := hcan.patient (by rw [hsocket]; rfl)
    refine ⟨?_, (congrArg Connection.unreachable hconnection).trans hunreachable⟩
    rw [← show page.sync.fallbackToFullHistorySync.consecutiveFailures = page.sync.consecutiveFailures
      from congrArg Connection.consecutiveFailures hconnection] at hfew
    exact hfew
  · exact congrArg _ (congrArg Traffic.documentId htraffic)

/-! ## Exactly then -/

/-- A run without new sessions and without messages of the server is orderly. -/
theorem orderly_of_events {after : List PageInput}
    (h : ∀ input ∈ after, ∃ e, input = .event e ∧ isOpen e = false) :
    Orderly segmentGraphemes fallen after where
  stays e he := by
    obtain ⟨e', heq, hsession⟩ := h _ he
    cases heq
    exact hsession
  answers before socket message rest heq := by
    obtain ⟨e, he, -⟩ := h (.message socket message) (by rw [heq]; simp)
    cases he

/-- A queue with a message that is taken gets to it. -/
theorem takes_next : ∀ (inbound : List (SocketId × ServerMessage)) {page : Page},
    page.sync.handling = none → page.sync.inbound = inbound →
    (∃ p ∈ inbound, Takes page.sync.documentId p.2) → ∃ n k message, (k, message) ∈ inbound ∧
      (page.run segmentGraphemes (.replicate n (.event .handleNext))).controller = page.controller ∧
      (page.run segmentGraphemes (.replicate n (.event .handleNext))).sync.handling =
        some ⟨k, message, .ingesting⟩
  | [], _, _, _, h => by
    obtain ⟨p, hp, -⟩ := h
    cases hp
  | (k, message) :: inbound, page, hh, hinbound, h => by
    obtain ⟨hrest, hdocument, ⟨-, hnext⟩ | ⟨hnot, hnext⟩⟩ := handleNext_cases hh hinbound
    · exact ⟨1, k, message, by simp, rfl, hnext⟩
    · -- the first message is dropped
      obtain ⟨p, hp, htakes⟩ := h
      rcases List.mem_cons.1 hp with rfl | hp
      · exact absurd htakes hnot
      · obtain ⟨n, k', message', hmem, hcontroller, hhandling⟩ :=
          @takes_next inbound { page with sync := page.sync.handleNext } hnext hrest
            ⟨p, hp, by rw [hdocument]; exact htakes⟩
        exact ⟨n + 1, k', message', List.mem_cons_of_mem _ hmem, hcontroller, hhandling⟩

/-- The queue goes on, and what its next message that is taken brings is ingested. -/
def goesOn (n : Nat) : List PageEvent := .replicate n .handleNext ++ [.ingest (.runs ⟨[], 0, [], true⟩)]

theorem mem_goesOn {n : Nat} (h : e ∈ goesOn n) :
    e = .handleNext ∨ e = .ingest (.runs ⟨[], 0, [], true⟩) :=
  (List.mem_append.1 h).imp List.eq_of_mem_replicate List.mem_singleton.1

/-- A message behind the failed one that is taken is ingested on the old socket. -/
theorem Fallen.alone (h : Fallen fallen) (hidle : fallen.sync.handling = none)
    (hall : ∀ n, FallsBack segmentGraphemes fallen cursor ((goesOn n).map .event))
    (hcontroller : fallen.controller.isSome = true) {p : SocketId × ServerMessage}
    (hp : p ∈ fallen.sync.inbound) : ¬ Takes fallen.sync.documentId p.2 := by
  intro htakes
  obtain ⟨n, k, message, hmem, hsame, hh⟩ :=
    @takes_next segmentGraphemes fallen.sync.inbound fallen hidle rfl ⟨p, hp, htakes⟩
  have hsplit : (goesOn n).map PageInput.event =
      .replicate n (.event .handleNext) ++ .event (.ingest (.runs ⟨[], 0, [], true⟩)) :: [] := by
    simp [goesOn]
  have harrived := (hall n).ingests _ _ [] k message hsplit (by rw [hsame]; exact hcontroller) hh
  exact h.ground.heard (k, message) (List.mem_append_right _ hmem) harrived.1

/-- The end of the socket of an impatient client arms no reconnect. -/
theorem Fallen.patient (h : Fallen fallen) {k : SocketId}
    (hback : FallsBack segmentGraphemes fallen cursor [.event (.socketClosed k)])
    (hk : fallen.sync.socket = some k) : fallen.sync.Patient := by
  by_contra hpatient
  have harmed := hback.reconnects [] k [] rfl hk hk
  have htimer : (fallen.run segmentGraphemes [.event (.socketClosed k)]).sync.reconnectTimer = none :=
    (onClose_unarmed h.ground.attached hk hpatient).2
  rw [List.nil_append, htimer] at harmed
  cases harmed

/-- The fallback leads to the full history in a set of orderly runs exactly if it can, when the queue
may go on and the socket may end there. -/
theorem Failed.fallsBack_iff (h : Failed page) (hground : Ground page) {Runs : List PageInput → Prop}
    (horderly : ∀ after, Runs after →
      Orderly segmentGraphemes (page.step segmentGraphemes (.event .resumeHandler)) after)
    (hnil : Runs []) (hends : ∀ k, page.sync.socket = some k → Runs [.event (.socketClosed k)])
    (hgoes : ∀ n, Runs ((goesOn n).map .event)) :
    (∀ after, Runs after → FallsBack segmentGraphemes
      (page.step segmentGraphemes (.event .resumeHandler))
      (page.db.getLastServerSeq page.sync.documentId) after) ↔ CanFallBack page := by
  have hfallen := @falls segmentGraphemes page h hground
  have hrecovers := @recovers segmentGraphemes page h hground
  rw [h.resumes] at hfallen hrecovers horderly ⊢
  have hconnection := @fallbackToFullHistorySync_connection page.sync
  have htraffic := page.sync.fallbackToFullHistorySync_traffic
  simp only [connection, Connection.mk.injEq] at hconnection
  obtain ⟨hsocket, hclosed, hsuspended, hunreachable, hfailures, htimer, -⟩ := hconnection
  constructor
  · intro hall
    refine ⟨fun hc p hp => ?_, fun hs => ?_, fun hnone hc hsusp => ?_⟩
    · rw [← show page.sync.fallbackToFullHistorySync.documentId = page.sync.documentId from
        congrArg Traffic.documentId htraffic]
      refine hfallen.alone rfl (fun n => hall _ (hgoes n)) hc ?_
      rw [← show page.sync.fallbackToFullHistorySync.inbound = page.sync.inbound from
        congrArg Traffic.inbound htraffic] at hp
      exact hp
    · obtain ⟨k, hk⟩ := Option.isSome_iff_exists.1 hs
      obtain ⟨hfew, hreachable⟩ := hfallen.patient (hall _ (hends k hk)) (hsocket.trans hk)
      have hfew : page.sync.fallbackToFullHistorySync.consecutiveFailures + 1 <
        UNREACHABLE_AFTER_ATTEMPTS := hfew
      have hreachable : page.sync.fallbackToFullHistorySync.unreachable = false := hreachable
      exact ⟨hfailures ▸ hfew, hunreachable ▸ hreachable⟩
    · rw [← htimer]
      exact (hall [] hnil).armed (hsocket.trans hnone) (hclosed.trans hc) (hsuspended.trans hsusp)
  · intro hcan after hruns
    refine (hrecovers hcan).fallsBack hfallen (fun hnone hc hsusp => ?_) (horderly after hruns)
    exact (congrArg Option.isSome htimer).trans (hcan.armed (hsocket.symm.trans hnone)
      (hclosed.symm.trans hc) (hsuspended.symm.trans hsusp))

/-- **A failed install leads to the full history exactly if** no message that is taken waits behind
it, a client that holds a socket is patient, and one that has lost it has a timer pending. -/
theorem fallback_iff (before : List PageInput) (callback : Callback) (between : List PageInput)
    (hfails : (start.run segmentGraphemes before).FailsInstall callback)
    (hwaits : ∀ input ∈ between, input.waits = true) :
    let page := start.run segmentGraphemes before
    let failed := start.run segmentGraphemes (before ++ .event (.ingest callback) :: between)
    let fallen := failed.step segmentGraphemes (.event .resumeHandler)
    (∀ after, Orderly segmentGraphemes fallen after →
      FallsBack segmentGraphemes fallen (page.db.getLastServerSeq page.sync.documentId) after) ↔
      CanFallBack failed := by
  intro page failed fallen
  have hground : Ground failed := Ground.start.run _
  obtain ⟨hfailed, hcursor⟩ : Failed failed ∧ failed.db.getLastServerSeq failed.sync.documentId =
      page.db.getLastServerSeq page.sync.documentId := by
    have heq : failed = (page.ingest callback).run segmentGraphemes between :=
      Runs.run_append _ before (.event (.ingest callback) :: between)
    rw [heq]
    exact hfails.failed hwaits
  rw [← hcursor]
  refine hfailed.fallsBack_iff hground (fun _ horderly => horderly) ?_ (fun k _ => ?_) fun n => ?_
  · exact orderly_of_events fun input hinput => by cases hinput
  · exact orderly_of_events fun input hinput => ⟨_, List.mem_singleton.1 hinput, rfl⟩
  · refine orderly_of_events fun input hinput => ?_
    obtain ⟨e, he, rfl⟩ := List.mem_map.1 hinput
    rcases mem_goesOn he with rfl | rfl <;> exact ⟨_, rfl, rfl⟩

/-! ## A page that is typed into while the snapshot is on its way -/

deriving instance DecidableEq for HandlerStage
deriving instance DecidableEq for Handler

/-- The answer to the join: a snapshot of the first operation of another client. -/
def raced : SyncMessage :=
  ⟨js "d", [], 1, some ⟨1, 1, ⟨1, [⟨js "B:1", ROOT_ID, js "b", js "B", 1, 1, false⟩], []⟩⟩⟩

/-- The page joins with the capability, and an edit is committed before the answer comes in. -/
def racing : List PageInput :=
  [.event (.opens ⟨some (js "d"), none, none⟩ ⟨js "now", 0, js "A", true⟩ none), .event (.connect 0),
    .event (.socketOpened 0), .event (.readLastServerSeq 0), .event (.resumeJoin 0),
    .event (.readEligible 0), .event (.resumeJoin 0),
    .event (.edit ⟨js "now", 0, js "A", true⟩ (js "a")), .message 0 (.sync raced), .event .handleNext]

/-- An operation of the other client comes in behind the answer. -/
def queueing : List PageInput :=
  racing ++ [.message 0
    (.operation ⟨js "d", 2, .insert ⟨js "B:2", js "B", 2, 2, js "B:1", js "c"⟩⟩)]

/-- The queue goes on, the socket ends, and the page connects again. -/
def rejoining : List PageInput :=
  [.event .handleNext, .event (.ingest (.runs ⟨js "now", 0, js "A", true⟩)), .event .resumeHandler,
    .event (.socketClosed 0), .event (.timerFired 1), .event (.socketOpened 1),
    .event (.readLastServerSeq 1), .event (.resumeJoin 1)]

/-- The error of the install that the edit has overtaken. -/
def overtaken : JsError :=
  snapshotBootstrapIneligibleError
    (js "Document \"" ++ js "d" ++ js "\" is no longer eligible for snapshot bootstrap.")

/-- With nothing behind the answer the fallback leads to the full history. -/
theorem fallback_iff_raced :
    let segment : JsString → List JsString := fun text => text.map ([·])
    let env : Surroundings := ⟨js "now", 0, js "A", true⟩
    let page := start.run segment racing
    let failed := start.run segment (racing ++ [.event (.ingest (.runs env))])
    let fallen := failed.step segment (.event .resumeHandler)
    CanFallBack failed ∧ ∀ after, Orderly segment fallen after →
      FallsBack segment fallen (page.db.getLastServerSeq page.sync.documentId) after := by
  intro segment env page failed fallen
  have hfails : page.FailsInstall (.runs env) :=
    ⟨0, raced, _, overtaken, by decide +kernel, rfl, by decide +kernel, by decide +kernel⟩
  have hempty : failed.sync.inbound = [] := by decide +kernel
  have hsocket : failed.sync.socket = some 0 := by decide +kernel
  have hcan : CanFallBack failed := by
    refine ⟨fun _ p hp => ?_, fun _ => by decide +kernel, fun hnone => ?_⟩
    · rw [hempty] at hp
      cases hp
    · rw [hsocket] at hnone
      cases hnone
  exact ⟨hcan, (fallback_iff racing (.runs env) [] hfails fun _ h => by cases h).2 hcan⟩

/-- The operation behind the answer is ingested, and the next join skips the first operation. -/
theorem fallback_ingests_queued :
    let segment : JsString → List JsString := fun text => text.map ([·])
    let env : Surroundings := ⟨js "now", 0, js "A", true⟩
    let page := start.run segment queueing
    let failed := start.run segment (queueing ++ [.event (.ingest (.runs env))])
    let fallen := failed.step segment (.event .resumeHandler)
    page.FailsInstall (.runs env) ∧ page.db.getLastServerSeq page.sync.documentId = 0 ∧
      Orderly segment fallen rejoining ∧
      (fallen.run segment rejoining).sync.joinMessages =
        fallen.sync.joinMessages ++ [(1, ⟨js "d", js "A", 2, none, none⟩)] ∧
      ¬ FallsBack segment fallen 0 rejoining := by
  intro segment env page failed fallen
  have hfails : page.FailsInstall (.runs env) :=
    ⟨0, raced, _, overtaken, by decide +kernel, rfl, by decide +kernel, by decide +kernel⟩
  have horderly : Orderly segment fallen rejoining := by
    refine orderly_of_events fun input hinput => ?_
    simp only [rejoining, List.mem_cons, List.not_mem_nil, or_false] at hinput
    rcases hinput with rfl | rfl | rfl | rfl | rfl | rfl | rfl | rfl <;> exact ⟨_, rfl, rfl⟩
  have hjoins : (fallen.run segment rejoining).sync.joinMessages =
      fallen.sync.joinMessages ++ [(1, ⟨js "d", js "A", 2, none, none⟩)] := by
    decide +kernel
  refine ⟨hfails, by decide +kernel, horderly, hjoins, fun hback => ?_⟩
  obtain ⟨-, hseq⟩ := hback.joins rejoining [] 1 _ [] (List.append_nil _).symm hjoins
  cases hseq

end Page

end LocalFirst
