import LocalFirst.Sync.PageEffect
import LocalFirst.Sync.PageSockets

/-!
# The frames that a page sends

* `Moves.sent` — an event adds frames at the end: one join, or submitted operations.
* `JoinInv` — a page joins at most once on a socket, after the socket has opened.
-/

set_option autoImplicit false

namespace LocalFirst

namespace Page

variable {segmentGraphemes : JsString → List JsString} {page page' : Page} {e : PageEvent}

open DocumentSyncClient

/-- The frames that an event adds. -/
inductive Sends (page page' : Page) : Prop
  | none (h : page'.sync.sent = page.sync.sent)
  | joins (k : SocketId) (call : JoinCall) (message : JoinMessage) (hcall : call ∈ page.sync.joins)
      (hdocument : message.documentId = page.sync.documentId)
      (hseq : JoinStage.lastServerSeq call.stage = some message.lastServerSeq)
      (hsocket : call.socket = k) (hopen : page.sync.readyState k = .opened)
      (hgone : ∀ call ∈ page'.sync.joins, call.socket ≠ k)
      (h : page'.sync.sent = page.sync.sent ++ [(k, .join message)])
  | submits (k : SocketId) (documentId : JsString) (operations : List TextOperation)
      (h : page'.sync.sent =
        page.sync.sent ++ DocumentSyncClient.submits documentId k operations)

theorem Moves.sends (h : Moves page page' e) : Sends page page' := by
  have hnone : ∀ {t : Traffic}, page'.sync.traffic = t → t.sent = page.sync.sent →
      Sends page page' := fun h hs => .none ((congrArg Traffic.sent h).trans hs)
  cases h with
  | same h => exact hnone h rfl
  | opened c he hc h => exact hnone h rfl
  | begins k hk hnew hopen h => exact hnone h rfl
  | reads read joins hread hjoins h => exact hnone h rfl
  | joins k call lastServerSeq capabilities displayName joins hjoins hgone hcall hsocket hseq hk hopen
      h =>
    refine .joins k call _ hcall rfl hseq hsocket hopen ?_ (congrArg Traffic.sent h)
    rw [show page'.sync.joins = joins from congrArg Traffic.joins h]
    exact hgone
  | submits k operations rest he hsubmits hk h => exact .submits k _ operations (congrArg Traffic.sent h)
  | drops k message inbound hh hinbound h => exact hnone h rfl
  | takes k message inbound d hh hinbound hd hdocument h => exact hnone h rfl
  | settles k message d outcome dropped hh hd hdropped h => exact hnone h rfl
  | loads handler stage hh hstage hloaded h => exact hnone h rfl
  | resumes he h =>
    cases h with
    | same h => exact hnone h rfl
    | ended handler hh hstage h => exact hnone h rfl
    | waits handler stage hh hstage hwaits h => exact hnone h rfl
    | sends handler pending socket hh hstage hsocket hopen h =>
      exact .submits socket _ pending (congrArg Traffic.sent h)

/-- What has been sent stays. -/
theorem Sends.kept (h : Sends page page') {p : SocketId × ClientMessage} (hp : p ∈ page.sync.sent) :
    p ∈ page'.sync.sent := by
  cases h with
  | none h => rw [h]; exact hp
  | joins k call message hcall hdocument hseq hsocket hopen hgone h => rw [h]; exact List.mem_append_left _ hp
  | submits k documentId operations h => rw [h]; exact List.mem_append_left _ hp

theorem mem_submits {documentId : JsString} {k j : SocketId} {operations : List TextOperation}
    {message : ClientMessage} :
    (j, message) ∈ DocumentSyncClient.submits documentId k operations ↔
      j = k ∧ ∃ operation ∈ operations, message = .submitOperation ⟨documentId, operation⟩ := by
  unfold DocumentSyncClient.submits
  rw [List.mem_map]
  constructor
  · intro ⟨operation, ho, heq⟩
    cases heq
    exact ⟨rfl, operation, ho, rfl⟩
  · intro ⟨hj, operation, ho, hm⟩
    exact ⟨operation, ho, by rw [hj, hm]⟩

/-- A join goes out alone, for a call on an open socket that has no call afterwards. -/
theorem Sends.joined (h : Sends page page') : ∃ added, page'.sync.sent = page.sync.sent ++ added ∧
    ∀ k message, (k, .join message) ∈ added → added = [(k, .join message)] ∧
      (∃ call ∈ page.sync.joins, call.socket = k) ∧ page.sync.readyState k = .opened ∧
      ∀ call ∈ page'.sync.joins, call.socket ≠ k := by
  cases h with
  | none h => exact ⟨[], by rw [h, List.append_nil], fun k message hm => by cases hm⟩
  | joins k call message hcall hdocument hseq hsocket hopen hgone h =>
    refine ⟨_, h, fun k' message' hm => ?_⟩
    cases List.mem_singleton.1 hm
    exact ⟨rfl, ⟨call, hcall, hsocket⟩, hopen, hgone⟩
  | submits k documentId operations h =>
    refine ⟨_, h, fun k' message hm => ?_⟩
    obtain ⟨-, operation, -, heq⟩ := mem_submits.1 hm
    cases heq

theorem mem_sentOn {k : SocketId} {message : ClientMessage}
    (h : message ∈ page.sentOn k) : (k, message) ∈ page.sync.sent := by
  obtain ⟨p, hp, heq⟩ := List.mem_filterMap.1 h
  split at heq
  · rename_i hk
    cases heq
    rw [← hk]
    exact hp
  · cases heq

/-! ## Joining once -/

/-- A call of `sendJoin` is for a socket that has opened and on which nothing has joined yet; a
page joins on a socket that has opened, and only once. -/
structure JoinInv (page : Page) : Prop where
  calls : ∀ call ∈ page.sync.joins, page.sync.readyState call.socket ≠ .connecting ∧
    ∀ message, (call.socket, .join message) ∉ page.sync.sent
  opened : ∀ k message, (k, .join message) ∈ page.sync.sent → page.sync.readyState k ≠ .connecting
  once : ∀ k before message after, page.sync.sent = before ++ (k, .join message) :: after →
    ∀ message', (k, .join message') ∉ before

theorem JoinInv.start : JoinInv Page.start where
  calls call h := by cases h
  opened k message h := by cases h
  once k before message after h := by
    have hnil : Page.start.sync.sent = [] := rfl
    rw [hnil] at h
    simp at h

/-- The calls of `sendJoin` after an event. -/
theorem Moves.calls (h : Moves page page' e) {call : JoinCall} (hcall : call ∈ page'.sync.joins) :
    (∃ old ∈ page.sync.joins, old.socket = call.socket ∧
      (JoinStage.lastServerSeq call.stage = JoinStage.lastServerSeq old.stage ∨
        JoinStage.lastServerSeq call.stage = none ∨ JoinStage.lastServerSeq call.stage =
          some (page.db.getLastServerSeq page.sync.documentId))) ∨
      (call.stage = .readingSeq ∧ page.sync.readyState call.socket = .connecting ∧
        page'.sync.readyState call.socket = .opened) := by
  have hsame : ∀ {t : Traffic}, page'.sync.traffic = t → t.joins = page.sync.joins →
      ∃ old ∈ page.sync.joins, old.socket = call.socket ∧
        (JoinStage.lastServerSeq call.stage = JoinStage.lastServerSeq old.stage ∨
          JoinStage.lastServerSeq call.stage = none ∨ JoinStage.lastServerSeq call.stage =
            some (page.db.getLastServerSeq page.sync.documentId)) := by
    intro t h hj
    rw [show page'.sync.joins = _ from (congrArg Traffic.joins h).trans hj] at hcall
    exact ⟨call, hcall, rfl, Or.inl rfl⟩
  have hfrom : ∀ {t : Traffic} {read : Option Int} {joins : List JoinCall},
      read = none ∨ read = some (page.db.getLastServerSeq page.sync.documentId) →
      page.sync.JoinsFrom read joins → page'.sync.traffic = t → t.joins = joins →
      ∃ old ∈ page.sync.joins, old.socket = call.socket ∧
        (JoinStage.lastServerSeq call.stage = JoinStage.lastServerSeq old.stage ∨
          JoinStage.lastServerSeq call.stage = none ∨ JoinStage.lastServerSeq call.stage =
            some (page.db.getLastServerSeq page.sync.documentId)) := by
    intro t read joins hread hjoins h hj
    rw [show page'.sync.joins = _ from (congrArg Traffic.joins h).trans hj] at hcall
    rcases hjoins call hcall with hcall | ⟨old, hold, hsocket, hseq | hseq⟩
    · exact ⟨call, hcall, rfl, Or.inl rfl⟩
    · exact ⟨old, hold, hsocket, Or.inl hseq⟩
    · refine ⟨old, hold, hsocket, Or.inr ?_⟩
      rcases hread with rfl | rfl
      · exact Or.inl hseq
      · exact Or.inr hseq
  cases h with
  | same h => exact Or.inl (hsame h rfl)
  | opened c he hc h =>
    rw [show page'.sync.joins = [] from congrArg Traffic.joins h] at hcall
    cases hcall
  | begins k hk hnew hopen h =>
    rw [show page'.sync.joins = page.sync.joins ++ [⟨k, .readingSeq⟩] from
      congrArg Traffic.joins h] at hcall
    rcases List.mem_append.1 hcall with hcall | hcall
    · exact Or.inl ⟨call, hcall, rfl, Or.inl rfl⟩
    · rw [List.mem_singleton.1 hcall]
      exact Or.inr ⟨rfl, hnew, hopen⟩
  | reads read joins hread hjoins h => exact Or.inl (hfrom hread hjoins h rfl)
  | joins k call' lastServerSeq capabilities displayName joins hjoins hgone hcall' hsocket hseq hk
      hopen h => exact Or.inl (hfrom (Or.inl rfl) hjoins h rfl)
  | submits k operations rest he hsubmits hk h => exact Or.inl (hsame h rfl)
  | drops k message inbound hh hinbound h => exact Or.inl (hsame h rfl)
  | takes k message inbound d hh hinbound hd hdocument h => exact Or.inl (hsame h rfl)
  | settles k message d outcome dropped hh hd hdropped h => exact Or.inl (hsame h rfl)
  | loads handler stage hh hstage hloaded h => exact Or.inl (hsame h rfl)
  | resumes he h =>
    cases h with
    | same h => exact Or.inl (hsame h rfl)
    | ended handler hh hstage h => exact Or.inl (hsame h rfl)
    | waits handler stage hh hstage hwaits h => exact Or.inl (hsame h rfl)
    | sends handler pending socket hh hstage hsocket hopen h => exact Or.inl (hsame h rfl)

/-- A session that stays keeps its document. -/
theorem Moves.documentId (h : Moves page page' e) :
    page'.sync.documentId = page.sync.documentId ∨ (isOpen e = true ∧ page'.sync.joins = []) := by
  have hsame : ∀ {t : Traffic}, page'.sync.traffic = t → t.documentId = page.sync.documentId →
      page'.sync.documentId = page.sync.documentId :=
    fun h hd => (congrArg Traffic.documentId h).trans hd
  cases h with
  | same h => exact Or.inl (hsame h rfl)
  | opened c he hc h => exact Or.inr ⟨he, congrArg Traffic.joins h⟩
  | begins k hk hnew hopen h => exact Or.inl (hsame h rfl)
  | reads read joins hread hjoins h => exact Or.inl (hsame h rfl)
  | joins k call lastServerSeq capabilities displayName joins hjoins hgone hcall hsocket hseq hk hopen
      h => exact Or.inl (hsame h rfl)
  | submits k operations rest he hsubmits hk h => exact Or.inl (hsame h rfl)
  | drops k message inbound hh hinbound h => exact Or.inl (hsame h rfl)
  | takes k message inbound d hh hinbound hd hdocument h => exact Or.inl (hsame h rfl)
  | settles k message d outcome dropped hh hd hdropped h => exact Or.inl (hsame h rfl)
  | loads handler stage hh hstage hloaded h => exact Or.inl (hsame h rfl)
  | resumes he h =>
    cases h with
    | same h => exact Or.inl (hsame h rfl)
    | ended handler hh hstage h => exact Or.inl (hsame h rfl)
    | waits handler stage hh hstage hwaits h => exact Or.inl (hsame h rfl)
    | sends handler pending socket hh hstage hsocket hopen h => exact Or.inl (hsame h rfl)

theorem JoinInv.handle (h : JoinInv page) (e : PageEvent) :
    JoinInv (page.handle segmentGraphemes e) := by
  have hmoves := @handle_moves segmentGraphemes page e
  have hlinks := @handle_links segmentGraphemes page e
  obtain ⟨added, hsent, hadded⟩ := hmoves.sends.joined
  have hfresh : ∀ call ∈ (page.handle segmentGraphemes e).sync.joins, ∀ message,
      (call.socket, .join message) ∉ added :=
    fun call hcall message hm => (hadded _ _ hm).2.2.2 call hcall rfl
  refine ⟨fun call hcall => ?_, fun k message hk hc => ?_, fun k before message after hsplit => ?_⟩
  · rcases hmoves.calls hcall with ⟨old, hold, hsocket, -⟩ | ⟨-, hnew, hopen⟩
    · obtain ⟨hready, hunjoined⟩ := h.calls old hold
      rw [hsocket] at hready hunjoined
      refine ⟨fun hc => hready (hlinks.connecting _ hc), fun message hm => ?_⟩
      rw [hsent] at hm
      rcases List.mem_append.1 hm with hm | hm
      · exact hunjoined message hm
      · exact hfresh call hcall message hm
    · refine ⟨fun hc => by (rw [hopen] at hc; cases hc), fun message hm => ?_⟩
      rw [hsent] at hm
      -- the socket was connecting, so nothing had joined on it
      rcases List.mem_append.1 hm with hm | hm
      · exact h.opened _ _ hm hnew
      · exact hfresh call hcall message hm
  · have hconnecting := hlinks.connecting k hc
    rw [hsent] at hk
    rcases List.mem_append.1 hk with hk | hk
    · exact h.opened k message hk hconnecting
    · obtain ⟨-, -, hopen, -⟩ := hadded k message hk
      rw [hopen] at hconnecting
      cases hconnecting
  · rw [hsent] at hsplit
    rcases split_append hsplit with ⟨rest, hold⟩ | ⟨before', hbefore, hnew⟩
    · exact h.once k before message rest hold
    · obtain ⟨hone, ⟨call, hcall, hsocket⟩, -, -⟩ := hadded k message (by rw [hnew]; simp)
      rw [hone] at hnew
      cases before' with
      | nil =>
        rw [hbefore, List.append_nil]
        exact fun message' => hsocket ▸ (h.calls call hcall).2 message'
      | cons x before' =>
        have hlength := congrArg List.length hnew
        simp at hlength

/-- A message that comes in changes nothing of this. -/
theorem JoinInv.onMessage (h : JoinInv page) (k : SocketId) (message : ServerMessage) :
    JoinInv { page with sync := page.sync.onMessage k message } := by
  obtain ⟨hcalls, hopened, honce⟩ := h
  unfold DocumentSyncClient.onMessage
  split <;> exact ⟨hcalls, hopened, honce⟩

end Page

end LocalFirst
