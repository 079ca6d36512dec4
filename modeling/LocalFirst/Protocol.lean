import LocalFirst.Crdt.Operation

/-!
# The wire protocol

Model of `packages/protocol/src/schemas.ts`: the messages and the bounds their fields must
meet.  A frame that is not JSON, or whose fields have other types, is `Frame.malformed`.
-/

set_option autoImplicit false

namespace LocalFirst

def MAX_DOCUMENT_ID_LENGTH : Nat := 64
def MAX_CLIENT_ID_LENGTH : Nat := 128
def MAX_OPERATION_ID_LENGTH : Nat := 256
def MAX_ELEMENT_ID_LENGTH : Nat := 256
def MAX_OPERATION_VALUE_LENGTH : Nat := 16384
def MAX_CAPABILITY_LENGTH : Nat := 64
def MAX_CAPABILITIES : Nat := 16
def MAX_DISPLAY_NAME_LENGTH : Nat := 40
def MAX_PRESENCE_PARTICIPANTS : Nat := 64

def SNAPSHOT_BOOTSTRAP_CAPABILITY : JsString := js "snapshot-bootstrap-v1"

/-! ## Messages -/

structure SequencedOperation where
  serverSeq : Int
  operation : TextOperation
  deriving DecidableEq

structure SnapshotBootstrap where
  version : Int
  snapshotSeq : Int
  snapshot : TextReplicaSnapshot
  deriving DecidableEq

structure JoinMessage where
  documentId : JsString
  clientId : JsString
  lastServerSeq : Int
  capabilities : Option (List JsString)
  displayName : Option JsString
  deriving DecidableEq

structure SubmitOperationMessage where
  documentId : JsString
  operation : TextOperation
  deriving DecidableEq

inductive ClientMessage where
  | join (message : JoinMessage)
  | submitOperation (message : SubmitOperationMessage)
  deriving DecidableEq

structure SyncMessage where
  documentId : JsString
  operations : List SequencedOperation
  latestServerSeq : Int
  snapshotBootstrap : Option SnapshotBootstrap
  deriving DecidableEq

structure OperationMessage where
  documentId : JsString
  serverSeq : Int
  operation : TextOperation
  deriving DecidableEq

structure PresenceParticipant where
  clientId : JsString
  displayName : JsString
  joinedAt : Int
  deriving DecidableEq

structure PresenceMessage where
  documentId : JsString
  participants : List PresenceParticipant
  deriving DecidableEq

structure ErrorMessage where
  code : JsString
  message : JsString
  deriving DecidableEq

inductive ServerMessage where
  | sync (message : SyncMessage)
  | operation (message : OperationMessage)
  | presence (message : PresenceMessage)
  | error (message : ErrorMessage)
  deriving DecidableEq

/-- What arrives on a socket of the server. -/
inductive Frame where
  | notJson
  | malformed
  | message (message : ClientMessage)
  deriving DecidableEq

/-! ## Schemas -/

/-- `z.string().min(1).max(max)`, which counts code points. -/
def boundedString (max : Nat) (s : JsString) : Bool := 1 ≤ codePoints s && codePoints s ≤ max

theorem boundedString_iff {max : Nat} {s : JsString} :
    boundedString max s = true ↔ 1 ≤ s.length ∧ codePoints s ≤ max := by
  rw [← codePoints_pos]
  simp [boundedString]

/-- A string that is short enough in code units is short enough. -/
theorem boundedString_of_length {max : Nat} {s : JsString} (hpos : 1 ≤ s.length)
    (hmax : s.length ≤ max) : boundedString max s = true :=
  boundedString_iff.2 ⟨hpos, (codePoints_le s).trans hmax⟩

def nonNegativeSafeInteger (n : Int) : Bool := 0 ≤ n && isSafeInteger n

def textOperationSchema : TextOperation → Bool
  | .insert op =>
    boundedString MAX_OPERATION_ID_LENGTH op.opId && boundedString MAX_CLIENT_ID_LENGTH op.clientId &&
      isPositiveSafeInteger op.counter && isPositiveSafeInteger op.lamport &&
      boundedString MAX_ELEMENT_ID_LENGTH op.afterId &&
      boundedString MAX_OPERATION_VALUE_LENGTH op.value
  | .delete op =>
    boundedString MAX_OPERATION_ID_LENGTH op.opId && boundedString MAX_CLIENT_ID_LENGTH op.clientId &&
      isPositiveSafeInteger op.counter && isPositiveSafeInteger op.lamport &&
      boundedString MAX_ELEMENT_ID_LENGTH op.targetId

def joinMessageSchema (message : JoinMessage) : Bool :=
  boundedString MAX_DOCUMENT_ID_LENGTH message.documentId &&
    boundedString MAX_CLIENT_ID_LENGTH message.clientId &&
    nonNegativeSafeInteger message.lastServerSeq &&
    (match message.capabilities with
      | none => true
      | some capabilities => capabilities.all (boundedString MAX_CAPABILITY_LENGTH) &&
          capabilities.length ≤ MAX_CAPABILITIES) &&
    (match message.displayName with
      | none => true
      | some displayName => boundedString MAX_DISPLAY_NAME_LENGTH displayName)

/-- What the schema admits of a join. -/
theorem joinMessageSchema_spec {message : JoinMessage} (h : joinMessageSchema message = true) :
    boundedString MAX_DOCUMENT_ID_LENGTH message.documentId = true ∧
      boundedString MAX_CLIENT_ID_LENGTH message.clientId = true ∧ 0 ≤ message.lastServerSeq := by
  simp only [joinMessageSchema, nonNegativeSafeInteger, Bool.and_eq_true, decide_eq_true_eq] at h
  obtain ⟨⟨⟨⟨hdocument, hclient⟩, hcursor, -⟩, -⟩, -⟩ := h
  exact ⟨hdocument, hclient, hcursor⟩

def submitOperationMessageSchema (message : SubmitOperationMessage) : Bool :=
  boundedString MAX_DOCUMENT_ID_LENGTH message.documentId && textOperationSchema message.operation

def clientMessageSchema : ClientMessage → Bool
  | .join message => joinMessageSchema message
  | .submitOperation message => submitOperationMessageSchema message

/-- The checks of `positiveSafeInteger` are those of `isPositiveSafeInteger`. -/
def sequencedOperationSchema (item : SequencedOperation) : Bool :=
  isPositiveSafeInteger item.serverSeq && textOperationSchema item.operation

/-- The snapshot itself is `z.unknown()`. -/
def snapshotBootstrapSchema (bootstrap : SnapshotBootstrap) : Bool :=
  bootstrap.version == 1 && isPositiveSafeInteger bootstrap.snapshotSeq

def syncMessageSchema (message : SyncMessage) : Bool :=
  boundedString MAX_DOCUMENT_ID_LENGTH message.documentId &&
    message.operations.all sequencedOperationSchema &&
    nonNegativeSafeInteger message.latestServerSeq &&
    (match message.snapshotBootstrap with
      | none => true
      | some bootstrap => snapshotBootstrapSchema bootstrap)

def operationMessageSchema (message : OperationMessage) : Bool :=
  boundedString MAX_DOCUMENT_ID_LENGTH message.documentId &&
    isPositiveSafeInteger message.serverSeq && textOperationSchema message.operation

def errorMessageSchema (message : ErrorMessage) : Bool := 1 ≤ message.code.length

def presenceParticipantSchema (participant : PresenceParticipant) : Bool :=
  boundedString MAX_CLIENT_ID_LENGTH participant.clientId &&
    boundedString MAX_DISPLAY_NAME_LENGTH participant.displayName &&
    nonNegativeSafeInteger participant.joinedAt

def presenceMessageSchema (message : PresenceMessage) : Bool :=
  boundedString MAX_DOCUMENT_ID_LENGTH message.documentId &&
    message.participants.all presenceParticipantSchema &&
    message.participants.length ≤ MAX_PRESENCE_PARTICIPANTS

def serverMessageSchema : ServerMessage → Bool
  | .sync message => syncMessageSchema message
  | .operation message => operationMessageSchema message
  | .presence message => presenceMessageSchema message
  | .error message => errorMessageSchema message

/-- `parseClientMessage`; the error is not looked at. -/
def parseClientMessage (message : ClientMessage) : Option ClientMessage :=
  if clientMessageSchema message then some message else none

/-- `parseServerMessage`; the error is not looked at. -/
def parseServerMessage (message : ServerMessage) : Option ServerMessage :=
  if serverMessageSchema message then some message else none

/-- What a message brings of the log of a document: operations, perhaps after a snapshot, and the
number through which the log is then complete. -/
structure Delivery where
  documentId : JsString
  bootstrap : Option SnapshotBootstrap
  items : List SequencedOperation
  confirmed : Int

def delivery : ServerMessage → Option Delivery
  | .sync m => some ⟨m.documentId, m.snapshotBootstrap, m.operations, m.latestServerSeq⟩
  | .operation m => some ⟨m.documentId, none, [⟨m.serverSeq, m.operation⟩], m.serverSeq⟩
  | .presence _ => none
  | .error _ => none

def hasSnapshotBootstrapCapability (capabilities : Option (List JsString)) : Bool :=
  match capabilities with
  | none => false
  | some capabilities => capabilities.contains SNAPSHOT_BOOTSTRAP_CAPABILITY

end LocalFirst
