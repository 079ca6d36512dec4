import LocalFirst.Lib.JsonNumber
import LocalFirst.Server.ServerInvariant

/-!
# Messages as texts

The sockets carry texts: a message is written with `JSON.stringify`, and what arrives is read with
`JSON.parse` and the schemas of `packages/protocol/src/schemas.ts`, which take any JSON value.
Elsewhere a socket carries messages.

* `Wire.clientMessageSchema`, `Wire.serverMessageSchema` — the schemas on JSON values; members that
  no schema names are passed over.
* `frameOf_sent` — a client message arrives as itself when its fields meet the bounds, and as a
  malformed frame otherwise.
* `frameOf_accepts` — what is read from any text meets the bounds.
* `serverFrameOf_send` — what the server sends arrives as itself, snapshots included.
-/

set_option autoImplicit false

namespace LocalFirst

/-! ## Writing -/

namespace Wire

def insertMembers (op : InsertOperation) : List (JsString × Json Int) :=
  [(js "kind", .string (js "insert")), (js "opId", .string op.opId),
    (js "clientId", .string op.clientId), (js "counter", .number op.counter),
    (js "lamport", .number op.lamport), (js "afterId", .string op.afterId),
    (js "value", .string op.value)]

def deleteMembers (op : DeleteOperation) : List (JsString × Json Int) :=
  [(js "kind", .string (js "delete")), (js "opId", .string op.opId),
    (js "clientId", .string op.clientId), (js "counter", .number op.counter),
    (js "lamport", .number op.lamport), (js "targetId", .string op.targetId)]

def ofOperation : TextOperation → Json Int
  | .insert op => .object (insertMembers op)
  | .delete op => .object (deleteMembers op)

/-- A member that is there or not. -/
def optionalMember (key : JsString) : Option (Json Int) → List (JsString × Json Int)
  | none => []
  | some v => [(key, v)]

/-- The message of `sendJoin`. -/
def joinMembers (m : JoinMessage) : List (JsString × Json Int) :=
  [(js "type", .string (js "join")), (js "documentId", .string m.documentId),
    (js "clientId", .string m.clientId), (js "lastServerSeq", .number m.lastServerSeq)] ++
    optionalMember (js "capabilities") (m.capabilities.map fun cs => .array (cs.map .string)) ++
    optionalMember (js "displayName") (m.displayName.map .string)

/-- The messages of `sendOperations`. -/
def submitMembers (m : SubmitOperationMessage) : List (JsString × Json Int) :=
  [(js "type", .string (js "submit-operation")), (js "documentId", .string m.documentId),
    (js "operation", ofOperation m.operation)]

def ofClientMessage : ClientMessage → Json Int
  | .join m => .object (joinMembers m)
  | .submitOperation m => .object (submitMembers m)

def ofSequencedOperation (item : SequencedOperation) : Json Int :=
  .object [(js "serverSeq", .number item.serverSeq), (js "operation", ofOperation item.operation)]

def ofNode (n : TextReplicaSnapshotNode) : Json Int :=
  .object [(js "id", .string n.id), (js "afterId", .string n.afterId), (js "value", .string n.value),
    (js "clientId", .string n.clientId), (js "counter", .number n.counter),
    (js "lamport", .number n.lamport), (js "tombstone", .bool n.tombstone)]

def ofSnapshot (s : TextReplicaSnapshot) : Json Int :=
  .object [(js "version", .number s.version), (js "nodes", .array (s.nodes.map ofNode)),
    (js "deleteOperations", .array (s.deleteOperations.map fun op => .object (deleteMembers op)))]

def ofBootstrap (b : SnapshotBootstrap) : Json Int :=
  .object [(js "version", .number b.version), (js "snapshotSeq", .number b.snapshotSeq),
    (js "snapshot", ofSnapshot b.snapshot)]

def syncMembers (m : SyncMessage) : List (JsString × Json Int) :=
  [(js "type", .string (js "sync")), (js "documentId", .string m.documentId),
    (js "operations", .array (m.operations.map ofSequencedOperation)),
    (js "latestServerSeq", .number m.latestServerSeq)] ++
    optionalMember (js "snapshotBootstrap") (m.snapshotBootstrap.map ofBootstrap)

def operationMembers (m : OperationMessage) : List (JsString × Json Int) :=
  [(js "type", .string (js "operation")), (js "documentId", .string m.documentId),
    (js "serverSeq", .number m.serverSeq), (js "operation", ofOperation m.operation)]

def ofParticipant (p : PresenceParticipant) : Json Int :=
  .object [(js "clientId", .string p.clientId), (js "displayName", .string p.displayName),
    (js "joinedAt", .number p.joinedAt)]

def presenceMembers (m : PresenceMessage) : List (JsString × Json Int) :=
  [(js "type", .string (js "presence")), (js "documentId", .string m.documentId),
    (js "participants", .array (m.participants.map ofParticipant))]

def errorMembers (m : ErrorMessage) : List (JsString × Json Int) :=
  [(js "type", .string (js "error")), (js "code", .string m.code), (js "message", .string m.message)]

def ofServerMessage : ServerMessage → Json Int
  | .sync m => .object (syncMembers m)
  | .operation m => .object (operationMembers m)
  | .presence m => .object (presenceMembers m)
  | .error m => .object (errorMembers m)

/-! ## Schemas -/

/-- The members of an object that has been read. -/
abbrev Members := List (JsString × Json JsNumber)

/-- The property of an object: the last member of that name. -/
def lookup (key : JsString) : Members → Option (Json JsNumber)
  | [] => none
  | (k, v) :: members =>
    match lookup key members with
    | some w => some w
    | none => if k = key then some v else none

/-- A property that must be there. -/
def required {α : Type} (members : Members) (key : JsString)
    (schema : Json JsNumber → Option α) : Option α :=
  (lookup key members).bind schema

/-- `.optional()`. -/
def optional {α : Type} (members : Members) (key : JsString)
    (schema : Json JsNumber → Option α) : Option (Option α) :=
  match lookup key members with
  | none => some none
  | some v => (schema v).map some

def boundedStringSchema (max : Nat) : Json JsNumber → Option JsString
  | .string s => if boundedString max s then some s else none
  | _ => none

def positiveSafeIntegerSchema : Json JsNumber → Option Int
  | .number n => n.integer.filter isPositiveSafeInteger
  | _ => none

def nonNegativeSafeIntegerSchema : Json JsNumber → Option Int
  | .number n => n.integer.filter nonNegativeSafeInteger
  | _ => none

/-- `z.array(schema)`. -/
def array {α : Type} (schema : Json JsNumber → Option α) : Json JsNumber → Option (List α)
  | .array elements => elements.mapM schema
  | _ => none

/-- `z.discriminatedUnion(key, …)`: the members of the object, by the value of the property. -/
def discriminated (key : JsString) : Json JsNumber → Option (JsString × Members)
  | .object members =>
    match lookup key members with
    | some (.string kind) => some (kind, members)
    | _ => none
  | _ => none

def insertOperationSchema (members : Members) : Option InsertOperation := do
  let opId ← required members (js "opId") (boundedStringSchema MAX_OPERATION_ID_LENGTH)
  let clientId ← required members (js "clientId") (boundedStringSchema MAX_CLIENT_ID_LENGTH)
  let counter ← required members (js "counter") positiveSafeIntegerSchema
  let lamport ← required members (js "lamport") positiveSafeIntegerSchema
  let afterId ← required members (js "afterId") (boundedStringSchema MAX_ELEMENT_ID_LENGTH)
  let value ← required members (js "value") (boundedStringSchema MAX_OPERATION_VALUE_LENGTH)
  pure ⟨opId, clientId, counter, lamport, afterId, value⟩

def deleteOperationSchema (members : Members) : Option DeleteOperation := do
  let opId ← required members (js "opId") (boundedStringSchema MAX_OPERATION_ID_LENGTH)
  let clientId ← required members (js "clientId") (boundedStringSchema MAX_CLIENT_ID_LENGTH)
  let counter ← required members (js "counter") positiveSafeIntegerSchema
  let lamport ← required members (js "lamport") positiveSafeIntegerSchema
  let targetId ← required members (js "targetId") (boundedStringSchema MAX_ELEMENT_ID_LENGTH)
  pure ⟨opId, clientId, counter, lamport, targetId⟩

def textOperationSchema (v : Json JsNumber) : Option TextOperation := do
  let (kind, members) ← discriminated (js "kind") v
  if kind = js "insert" then (insertOperationSchema members).map .insert
  else if kind = js "delete" then (deleteOperationSchema members).map .delete
  else none

/-- `.max(max)` of an array. -/
def atMost {α : Type} (max : Nat) (l : List α) : Bool := l.length ≤ max

def joinMessageSchema (members : Members) : Option JoinMessage := do
  let documentId ← required members (js "documentId") (boundedStringSchema MAX_DOCUMENT_ID_LENGTH)
  let clientId ← required members (js "clientId") (boundedStringSchema MAX_CLIENT_ID_LENGTH)
  let lastServerSeq ← required members (js "lastServerSeq") nonNegativeSafeIntegerSchema
  let capabilities ← optional members (js "capabilities") fun v =>
    (array (boundedStringSchema MAX_CAPABILITY_LENGTH) v).filter (atMost MAX_CAPABILITIES)
  let displayName ← optional members (js "displayName") (boundedStringSchema MAX_DISPLAY_NAME_LENGTH)
  pure ⟨documentId, clientId, lastServerSeq, capabilities, displayName⟩

def submitOperationMessageSchema (members : Members) :
    Option SubmitOperationMessage := do
  let documentId ← required members (js "documentId") (boundedStringSchema MAX_DOCUMENT_ID_LENGTH)
  let operation ← required members (js "operation") textOperationSchema
  pure ⟨documentId, operation⟩

def clientMessageSchema (v : Json JsNumber) : Option ClientMessage := do
  let (type, members) ← discriminated (js "type") v
  if type = js "join" then (joinMessageSchema members).map .join
  else if type = js "submit-operation" then
    (submitOperationMessageSchema members).map .submitOperation
  else none

/-! ## Schemas of the messages of the server -/

/-- What the schema leaves of a bootstrap: the snapshot is `z.unknown()`. -/
structure BootstrapFrame where
  version : Int
  snapshotSeq : Int
  snapshot : Option (Json JsNumber)

structure SyncFrame where
  documentId : JsString
  operations : List SequencedOperation
  latestServerSeq : Int
  snapshotBootstrap : Option BootstrapFrame

inductive ServerFrame where
  | sync (message : SyncFrame)
  | operation (message : OperationMessage)
  | presence (message : PresenceMessage)
  | error (message : ErrorMessage)

/-- A schema that takes an object. -/
def object {α : Type} (schema : Members → Option α) :
    Json JsNumber → Option α
  | .object members => schema members
  | _ => none

def sequencedOperationSchema : Json JsNumber → Option SequencedOperation :=
  object fun members => do
    let serverSeq ← required members (js "serverSeq") positiveSafeIntegerSchema
    let operation ← required members (js "operation") textOperationSchema
    pure ⟨serverSeq, operation⟩

/-- `z.literal(1)`. -/
def literalOne : Json JsNumber → Option Int
  | .number n => n.integer.filter (· == 1)
  | _ => none

def snapshotBootstrapSchema : Json JsNumber → Option BootstrapFrame :=
  object fun members => do
    let version ← required members (js "version") literalOne
    let snapshotSeq ← required members (js "snapshotSeq") positiveSafeIntegerSchema
    pure ⟨version, snapshotSeq, lookup (js "snapshot") members⟩

def syncMessageSchema (members : Members) : Option SyncFrame := do
  let documentId ← required members (js "documentId") (boundedStringSchema MAX_DOCUMENT_ID_LENGTH)
  let operations ← required members (js "operations") (array sequencedOperationSchema)
  let latestServerSeq ← required members (js "latestServerSeq") nonNegativeSafeIntegerSchema
  let snapshotBootstrap ← optional members (js "snapshotBootstrap") snapshotBootstrapSchema
  pure ⟨documentId, operations, latestServerSeq, snapshotBootstrap⟩

def operationMessageSchema (members : Members) : Option OperationMessage := do
  let documentId ← required members (js "documentId") (boundedStringSchema MAX_DOCUMENT_ID_LENGTH)
  let serverSeq ← required members (js "serverSeq") positiveSafeIntegerSchema
  let operation ← required members (js "operation") textOperationSchema
  pure ⟨documentId, serverSeq, operation⟩

/-- `z.string().min(min)`. -/
def stringOf (min : Nat) : Json JsNumber → Option JsString
  | .string s => if min ≤ s.length then some s else none
  | _ => none

def errorMessageSchema (members : Members) : Option ErrorMessage := do
  let code ← required members (js "code") (stringOf 1)
  let message ← required members (js "message") (stringOf 0)
  pure ⟨code, message⟩

def presenceParticipantSchema : Json JsNumber → Option PresenceParticipant :=
  object fun members => do
    let clientId ← required members (js "clientId") (boundedStringSchema MAX_CLIENT_ID_LENGTH)
    let displayName ← required members (js "displayName") (boundedStringSchema MAX_DISPLAY_NAME_LENGTH)
    let joinedAt ← required members (js "joinedAt") nonNegativeSafeIntegerSchema
    pure ⟨clientId, displayName, joinedAt⟩

def presenceMessageSchema (members : Members) : Option PresenceMessage := do
  let documentId ← required members (js "documentId") (boundedStringSchema MAX_DOCUMENT_ID_LENGTH)
  let participants ← required members (js "participants") fun v =>
    (array presenceParticipantSchema v).filter (atMost MAX_PRESENCE_PARTICIPANTS)
  pure ⟨documentId, participants⟩

def serverMessageSchema (v : Json JsNumber) : Option ServerFrame := do
  let (type, members) ← discriminated (js "type") v
  if type = js "sync" then (syncMessageSchema members).map .sync
  else if type = js "operation" then (operationMessageSchema members).map .operation
  else if type = js "presence" then (presenceMessageSchema members).map .presence
  else if type = js "error" then (errorMessageSchema members).map .error
  else none

/-! ## Frames -/

/-- `JSON.parse(raw.toString())` and `parseClientMessage`. -/
def frameOf (data : JsString) : Frame :=
  match Json.parse NumberLiteral.toNumber data with
  | none => .notJson
  | some parsed =>
    match clientMessageSchema parsed with
    | none => .malformed
    | some message => .message message

/-- What `socket.send` puts on the wire: text travels as UTF-8. -/
def send (text : JsString) : JsString := Json.toWellFormed text

/-- `JSON.parse(data)` and `parseServerMessage`; the error is not looked at. -/
def serverFrameOf (data : JsString) : Option ServerFrame :=
  (Json.parse NumberLiteral.toNumber data).bind serverMessageSchema

/-! ## The snapshot of a frame -/

def integer : Json JsNumber → Option Int
  | .number n => n.integer
  | _ => none

def boolean : Json JsNumber → Option Bool
  | .bool b => some b
  | _ => none

def snapshotNode : Json JsNumber → Option TextReplicaSnapshotNode :=
  object fun members => do
    let id ← required members (js "id") (stringOf 0)
    let afterId ← required members (js "afterId") (stringOf 0)
    let value ← required members (js "value") (stringOf 0)
    let clientId ← required members (js "clientId") (stringOf 0)
    let counter ← required members (js "counter") integer
    let lamport ← required members (js "lamport") integer
    let tombstone ← required members (js "tombstone") boolean
    pure ⟨id, afterId, value, clientId, counter, lamport, tombstone⟩

def snapshotDelete : Json JsNumber → Option DeleteOperation :=
  object fun members => do
    let opId ← required members (js "opId") (stringOf 0)
    let clientId ← required members (js "clientId") (stringOf 0)
    let counter ← required members (js "counter") integer
    let lamport ← required members (js "lamport") integer
    let targetId ← required members (js "targetId") (stringOf 0)
    pure ⟨opId, clientId, counter, lamport, targetId⟩

/-- A value as a `TextReplicaSnapshot`, when it is one. -/
def snapshotOf : Json JsNumber → Option TextReplicaSnapshot :=
  object fun members => do
    let version ← required members (js "version") integer
    let nodes ← required members (js "nodes") (array snapshotNode)
    let deleteOperations ← required members (js "deleteOperations") (array snapshotDelete)
    pure ⟨version, nodes, deleteOperations⟩

/-- A message of the server as the schema leaves it. -/
def ServerFrame.of : ServerMessage → ServerFrame
  | .sync m => .sync ⟨m.documentId, m.operations, m.latestServerSeq,
      m.snapshotBootstrap.map fun b =>
        ⟨b.version, b.snapshotSeq, some ((ofSnapshot b.snapshot).map ofInteger)⟩⟩
  | .operation m => .operation m
  | .presence m => .presence m
  | .error m => .error m

/-! ## What has been written is read -/

/-- A value that has been written, as it is read. -/
abbrev arrived (v : Json Int) : Json JsNumber := v.map ofInteger

abbrev arrivedMembers (members : List (JsString × Json Int)) : Members :=
  Json.mapMembers ofInteger members

theorem parse_arrived (v : Json Int) :
    Json.parse NumberLiteral.toNumber (send (v.stringify decimal)) = some (arrived v) := by
  unfold send
  rw [Json.toWellFormed_eq (Json.stringify_wellFormed decimal_wellFormed v),
    Json.parse_stringify decimal_reads]

section

variable {α β : Type} {b : Bool}

theorem guard_bind {a : α} {f : α → Option β} :
    (if b = true then some a else none).bind f = if b = true then f a else none := by
  cases b <;> rfl

theorem guard_guard {c : Bool} {a : Option α} :
    (if b = true then (if c = true then a else none) else none) =
      if (b && c) = true then a else none := by
  cases b <;> rfl

theorem guard_map {a : α} {f : α → β} :
    (if b = true then some a else none).map f = if b = true then some (f a) else none := by
  cases b <;> rfl

end

theorem positiveSafeInteger_ofInteger (n : Int) : positiveSafeIntegerSchema (.number (ofInteger n)) =
    if isPositiveSafeInteger n then some n else none :=
  filter_ofInteger (fun _ h => (Bool.and_eq_true_iff.1 h).1) n

theorem nonNegativeSafeInteger_ofInteger (n : Int) :
    nonNegativeSafeIntegerSchema (.number (ofInteger n)) =
      if nonNegativeSafeInteger n then some n else none :=
  filter_ofInteger (fun _ h => (Bool.and_eq_true_iff.1 h).2) n

theorem insertOperationSchema_eq (op : InsertOperation) :
    insertOperationSchema (arrivedMembers (insertMembers op)) =
      if LocalFirst.textOperationSchema (.insert op) then some op else none := by
  show (boundedStringSchema MAX_OPERATION_ID_LENGTH (.string op.opId)).bind (fun opId =>
    (boundedStringSchema MAX_CLIENT_ID_LENGTH (.string op.clientId)).bind fun clientId =>
    (positiveSafeIntegerSchema (.number (ofInteger op.counter))).bind fun counter =>
    (positiveSafeIntegerSchema (.number (ofInteger op.lamport))).bind fun lamport =>
    (boundedStringSchema MAX_ELEMENT_ID_LENGTH (.string op.afterId)).bind fun afterId =>
    (boundedStringSchema MAX_OPERATION_VALUE_LENGTH (.string op.value)).bind fun value =>
    some (InsertOperation.mk opId clientId counter lamport afterId value)) = _
  simp only [boundedStringSchema, positiveSafeInteger_ofInteger, guard_bind, guard_guard,
    LocalFirst.textOperationSchema, Bool.and_assoc]

theorem deleteOperationSchema_eq (op : DeleteOperation) :
    deleteOperationSchema (arrivedMembers (deleteMembers op)) =
      if LocalFirst.textOperationSchema (.delete op) then some op else none := by
  show (boundedStringSchema MAX_OPERATION_ID_LENGTH (.string op.opId)).bind (fun opId =>
    (boundedStringSchema MAX_CLIENT_ID_LENGTH (.string op.clientId)).bind fun clientId =>
    (positiveSafeIntegerSchema (.number (ofInteger op.counter))).bind fun counter =>
    (positiveSafeIntegerSchema (.number (ofInteger op.lamport))).bind fun lamport =>
    (boundedStringSchema MAX_ELEMENT_ID_LENGTH (.string op.targetId)).bind fun targetId =>
    some (DeleteOperation.mk opId clientId counter lamport targetId)) = _
  simp only [boundedStringSchema, positiveSafeInteger_ofInteger, guard_bind, guard_guard,
    LocalFirst.textOperationSchema, Bool.and_assoc]

/-- **An operation is read as itself** when its fields meet the bounds, and refused otherwise. -/
theorem textOperationSchema_eq (op : TextOperation) : textOperationSchema (arrived (ofOperation op)) =
    if LocalFirst.textOperationSchema op then some op else none := by
  cases op with
  | insert op =>
    show (insertOperationSchema (arrivedMembers (insertMembers op))).map TextOperation.insert = _
    rw [insertOperationSchema_eq, guard_map]
  | delete op =>
    show (deleteOperationSchema (arrivedMembers (deleteMembers op))).map TextOperation.delete = _
    rw [deleteOperationSchema_eq, guard_map]

theorem submitOperationMessageSchema_eq (m : SubmitOperationMessage) :
    submitOperationMessageSchema (arrivedMembers (submitMembers m)) =
      if LocalFirst.submitOperationMessageSchema m then some m else none := by
  obtain ⟨documentId, operation⟩ := m
  show (boundedStringSchema MAX_DOCUMENT_ID_LENGTH (.string documentId)).bind (fun documentId =>
    (textOperationSchema (arrived (ofOperation operation))).bind fun operation =>
    some (SubmitOperationMessage.mk documentId operation)) = _
  simp only [boundedStringSchema, textOperationSchema_eq, guard_bind, guard_guard,
    LocalFirst.submitOperationMessageSchema]
  rfl

/-- A list is read when each of its elements is. -/
theorem array_eq {α : Type} {schema : Json JsNumber → Option α} {write : α → Json Int}
    {admits : α → Bool} (l : List α)
    (h : ∀ a ∈ l, schema (arrived (write a)) = if admits a then some a else none) :
    array schema (arrived (.array (l.map write))) = if l.all admits then some l else none := by
  show (Json.mapElements ofInteger (l.map write)).mapM schema = _
  induction l with
  | nil => rfl
  | cons a l ih =>
    show (arrived (write a) :: Json.mapElements ofInteger (l.map write)).mapM schema = _
    rw [List.mapM_cons, ih fun a' ha' => h a' (List.mem_cons_of_mem a ha'), h a List.mem_cons_self]
    show (if admits a = true then some a else none).bind (fun a =>
      (if l.all admits = true then some l else none).bind fun as => some (a :: as)) = _
    simp only [guard_bind, guard_guard, List.all_cons]
    rfl

theorem array_strings (max : Nat) (l : List JsString) :
    array (boundedStringSchema max) (arrived (.array (l.map .string))) =
      if l.all (boundedString max) then some l else none :=
  array_eq l fun _ _ => rfl

theorem joinMessageSchema_eq (m : JoinMessage) :
    joinMessageSchema (arrivedMembers (joinMembers m)) =
      if LocalFirst.joinMessageSchema m then some m else none := by
  obtain ⟨documentId, clientId, lastServerSeq, capabilities, displayName⟩ := m
  have hrest : ∀ (capabilities : Option (List JsString)) (displayName : Option JsString),
      joinMessageSchema (arrivedMembers
        (joinMembers ⟨documentId, clientId, lastServerSeq, capabilities, displayName⟩)) =
      (boundedStringSchema MAX_DOCUMENT_ID_LENGTH (.string documentId)).bind fun documentId =>
      (boundedStringSchema MAX_CLIENT_ID_LENGTH (.string clientId)).bind fun clientId =>
      (nonNegativeSafeIntegerSchema (.number (ofInteger lastServerSeq))).bind fun lastServerSeq =>
      (capabilities.elim (some none) fun cs => ((array (boundedStringSchema MAX_CAPABILITY_LENGTH)
        (arrived (.array (cs.map .string)))).filter (atMost MAX_CAPABILITIES)).map some).bind
        fun capabilities =>
      (displayName.elim (some none) fun name =>
        (boundedStringSchema MAX_DISPLAY_NAME_LENGTH (.string name)).map some).bind fun displayName =>
      some (JoinMessage.mk documentId clientId lastServerSeq capabilities displayName) := by
    intro capabilities displayName
    cases capabilities <;> cases displayName <;> rfl
  rw [hrest]
  cases capabilities with
  | none =>
    cases displayName with
    | none =>
      simp only [boundedStringSchema, nonNegativeSafeInteger_ofInteger, guard_bind, guard_guard,
        Option.elim_none, Option.bind_some, LocalFirst.joinMessageSchema, Bool.and_true, Bool.and_assoc]
    | some name =>
      simp only [boundedStringSchema, nonNegativeSafeInteger_ofInteger, guard_bind, guard_guard, guard_map,
        Option.elim_none, Option.elim_some, Option.bind_some, LocalFirst.joinMessageSchema,
        Bool.and_true, Bool.and_assoc]
  | some cs =>
    have hfilter : (array (boundedStringSchema MAX_CAPABILITY_LENGTH)
        (arrived (.array (cs.map .string)))).filter (atMost MAX_CAPABILITIES) =
        if (cs.all (boundedString MAX_CAPABILITY_LENGTH) &&
          decide (cs.length ≤ MAX_CAPABILITIES)) = true then some cs else none := by
      rw [array_strings, ← guard_guard]
      cases cs.all (boundedString MAX_CAPABILITY_LENGTH) <;> rfl
    cases displayName with
    | none =>
      simp only [boundedStringSchema, nonNegativeSafeInteger_ofInteger, guard_bind, guard_guard, guard_map,
        hfilter, Option.elim_none, Option.elim_some, Option.bind_some, LocalFirst.joinMessageSchema,
        Bool.and_true, Bool.and_assoc]
    | some name =>
      simp only [boundedStringSchema, nonNegativeSafeInteger_ofInteger, guard_bind, guard_guard, guard_map,
        hfilter, Option.elim_some, LocalFirst.joinMessageSchema, Bool.and_assoc]

/-- **A client message is read as itself** when its fields meet the bounds, and refused otherwise. -/
theorem clientMessageSchema_eq (m : ClientMessage) :
    clientMessageSchema (arrived (ofClientMessage m)) =
      if LocalFirst.clientMessageSchema m then some m else none := by
  cases m with
  | join m =>
    have htype : clientMessageSchema (arrived (ofClientMessage (.join m))) =
        (joinMessageSchema (arrivedMembers (joinMembers m))).map ClientMessage.join := by
      obtain ⟨documentId, clientId, lastServerSeq, capabilities, displayName⟩ := m
      cases capabilities <;> cases displayName <;> rfl
    rw [htype, joinMessageSchema_eq, guard_map]
    rfl
  | submitOperation m =>
    show (submitOperationMessageSchema (arrivedMembers (submitMembers m))).map
      ClientMessage.submitOperation = _
    rw [submitOperationMessageSchema_eq, guard_map]
    rfl

/-! ## The messages of the server -/

theorem filter_guard {α : Type} (b : Bool) (a : α) (p : α → Bool) :
    (if b = true then some a else none).filter p = if (b && p a) = true then some a else none := by
  cases b with
  | false => rfl
  | true => rfl

theorem sequencedOperationSchema_eq (item : SequencedOperation) :
    sequencedOperationSchema (arrived (ofSequencedOperation item)) =
      if LocalFirst.sequencedOperationSchema item then some item else none := by
  obtain ⟨serverSeq, operation⟩ := item
  show (positiveSafeIntegerSchema (.number (ofInteger serverSeq))).bind (fun serverSeq =>
    (textOperationSchema (arrived (ofOperation operation))).bind fun operation =>
    some (SequencedOperation.mk serverSeq operation)) = _
  simp only [positiveSafeInteger_ofInteger, textOperationSchema_eq, guard_bind, guard_guard,
    LocalFirst.sequencedOperationSchema]
  rfl

theorem snapshotBootstrapSchema_eq (b : SnapshotBootstrap) :
    snapshotBootstrapSchema (arrived (ofBootstrap b)) = if LocalFirst.snapshotBootstrapSchema b then
      some ⟨b.version, b.snapshotSeq, some (arrived (ofSnapshot b.snapshot))⟩ else none := by
  obtain ⟨version, snapshotSeq, snapshot⟩ := b
  have hversion : literalOne (.number (ofInteger version)) =
      if (version == 1) = true then some version else none :=
    filter_ofInteger (fun n h => by
      rw [eq_of_beq h]
      rfl) version
  show (literalOne (.number (ofInteger version))).bind (fun version =>
    (positiveSafeIntegerSchema (.number (ofInteger snapshotSeq))).bind fun snapshotSeq =>
    some (BootstrapFrame.mk version snapshotSeq (some (arrived (ofSnapshot snapshot))))) = _
  simp only [hversion, positiveSafeInteger_ofInteger, guard_bind, guard_guard,
    LocalFirst.snapshotBootstrapSchema]
  rfl

theorem presenceParticipantSchema_eq (p : PresenceParticipant) :
    presenceParticipantSchema (arrived (ofParticipant p)) =
      if LocalFirst.presenceParticipantSchema p then some p else none := by
  obtain ⟨clientId, displayName, joinedAt⟩ := p
  show (boundedStringSchema MAX_CLIENT_ID_LENGTH (.string clientId)).bind (fun clientId =>
    (boundedStringSchema MAX_DISPLAY_NAME_LENGTH (.string displayName)).bind fun displayName =>
    (nonNegativeSafeIntegerSchema (.number (ofInteger joinedAt))).bind fun joinedAt =>
    some (PresenceParticipant.mk clientId displayName joinedAt)) = _
  simp only [boundedStringSchema, nonNegativeSafeInteger_ofInteger, guard_bind, guard_guard,
    LocalFirst.presenceParticipantSchema, Bool.and_assoc]

theorem syncMessageSchema_eq (m : SyncMessage) : syncMessageSchema (arrivedMembers (syncMembers m)) =
    if LocalFirst.syncMessageSchema m then some ⟨m.documentId, m.operations, m.latestServerSeq,
      m.snapshotBootstrap.map fun b =>
        ⟨b.version, b.snapshotSeq, some (arrived (ofSnapshot b.snapshot))⟩⟩ else none := by
  obtain ⟨documentId, operations, latestServerSeq, snapshotBootstrap⟩ := m
  have hoptional : ∀ snapshotBootstrap : Option SnapshotBootstrap,
      syncMessageSchema (arrivedMembers
        (syncMembers ⟨documentId, operations, latestServerSeq, snapshotBootstrap⟩)) =
      (boundedStringSchema MAX_DOCUMENT_ID_LENGTH (.string documentId)).bind fun documentId =>
      (array sequencedOperationSchema (arrived (.array (operations.map ofSequencedOperation)))).bind
        fun operations =>
      (nonNegativeSafeIntegerSchema (.number (ofInteger latestServerSeq))).bind fun latestServerSeq =>
      (snapshotBootstrap.elim (some none) fun b =>
        (snapshotBootstrapSchema (arrived (ofBootstrap b))).map some).bind fun snapshotBootstrap =>
      some (SyncFrame.mk documentId operations latestServerSeq snapshotBootstrap) := by
    intro snapshotBootstrap
    cases snapshotBootstrap <;> rfl
  rw [hoptional]
  cases snapshotBootstrap with
  | none =>
    simp only [boundedStringSchema, array_eq _ fun item _ => sequencedOperationSchema_eq item,
      nonNegativeSafeInteger_ofInteger, guard_bind, guard_guard, Option.elim_none, Option.bind_some,
      LocalFirst.syncMessageSchema, Bool.and_true, Bool.and_assoc, Option.map_none]
  | some b =>
    simp only [boundedStringSchema, array_eq _ fun item _ => sequencedOperationSchema_eq item,
      nonNegativeSafeInteger_ofInteger,
      snapshotBootstrapSchema_eq, guard_bind, guard_guard, guard_map, Option.elim_some,
      LocalFirst.syncMessageSchema,
      Bool.and_assoc, Option.map_some]

theorem operationMessageSchema_eq (m : OperationMessage) :
    operationMessageSchema (arrivedMembers (operationMembers m)) =
      if LocalFirst.operationMessageSchema m then some m else none := by
  obtain ⟨documentId, serverSeq, operation⟩ := m
  show (boundedStringSchema MAX_DOCUMENT_ID_LENGTH (.string documentId)).bind (fun documentId =>
    (positiveSafeIntegerSchema (.number (ofInteger serverSeq))).bind fun serverSeq =>
    (textOperationSchema (arrived (ofOperation operation))).bind fun operation =>
    some (OperationMessage.mk documentId serverSeq operation)) = _
  simp only [boundedStringSchema, positiveSafeInteger_ofInteger, textOperationSchema_eq, guard_bind,
    guard_guard, LocalFirst.operationMessageSchema, Bool.and_assoc]

theorem presenceMessageSchema_eq (m : PresenceMessage) :
    presenceMessageSchema (arrivedMembers (presenceMembers m)) =
      if LocalFirst.presenceMessageSchema m then some m else none := by
  obtain ⟨documentId, participants⟩ := m
  have hparticipants : (array presenceParticipantSchema
      (arrived (.array (participants.map ofParticipant)))).filter (atMost MAX_PRESENCE_PARTICIPANTS) =
      if (participants.all LocalFirst.presenceParticipantSchema &&
        decide (participants.length ≤ MAX_PRESENCE_PARTICIPANTS)) = true then some participants
      else none := by
    rw [array_eq _ fun p _ => presenceParticipantSchema_eq p, filter_guard]
    rfl
  show (boundedStringSchema MAX_DOCUMENT_ID_LENGTH (.string documentId)).bind (fun documentId =>
    ((array presenceParticipantSchema (arrived (.array (participants.map ofParticipant)))).filter
      (atMost MAX_PRESENCE_PARTICIPANTS)).bind fun participants =>
    some (PresenceMessage.mk documentId participants)) = _
  simp only [boundedStringSchema, hparticipants, guard_bind, guard_guard, LocalFirst.presenceMessageSchema,
    Bool.and_assoc]

theorem errorMessageSchema_eq (m : ErrorMessage) :
    errorMessageSchema (arrivedMembers (errorMembers m)) =
      if LocalFirst.errorMessageSchema m then some m else none := by
  obtain ⟨code, message⟩ := m
  show (stringOf 1 (.string code)).bind (fun code => (stringOf 0 (.string message)).bind fun message =>
    some (ErrorMessage.mk code message)) = _
  simp only [stringOf, LocalFirst.errorMessageSchema, decide_eq_true_eq, Nat.zero_le, if_true]
  by_cases hcode : 1 ≤ code.length
  · rw [if_pos hcode, if_pos hcode]
    rfl
  · rw [if_neg hcode, if_neg hcode]
    rfl

/-- **A message of the server is read as the schema leaves it** when its fields meet the bounds, and
refused otherwise. -/
theorem serverMessageSchema_eq (m : ServerMessage) :
    serverMessageSchema (arrived (ofServerMessage m)) =
      if LocalFirst.serverMessageSchema m then some (ServerFrame.of m) else none := by
  cases m with
  | sync m =>
    have htype : serverMessageSchema (arrived (ofServerMessage (.sync m))) =
        (syncMessageSchema (arrivedMembers (syncMembers m))).map ServerFrame.sync := by
      obtain ⟨documentId, operations, latestServerSeq, snapshotBootstrap⟩ := m
      cases snapshotBootstrap <;> rfl
    rw [htype, syncMessageSchema_eq, guard_map]
    rfl
  | operation m =>
    show (operationMessageSchema (arrivedMembers (operationMembers m))).map ServerFrame.operation = _
    rw [operationMessageSchema_eq, guard_map]
    rfl
  | presence m =>
    show (presenceMessageSchema (arrivedMembers (presenceMembers m))).map ServerFrame.presence = _
    rw [presenceMessageSchema_eq, guard_map]
    rfl
  | error m =>
    show (errorMessageSchema (arrivedMembers (errorMembers m))).map ServerFrame.error = _
    rw [errorMessageSchema_eq, guard_map]
    rfl

/-! ## Snapshots -/

theorem stringOf_zero (s : JsString) : stringOf 0 (.string s) = some s := by
  show (if 0 ≤ s.length then some s else none) = some s
  rw [if_pos (Nat.zero_le _)]

theorem snapshotNode_eq {n : TextReplicaSnapshotNode} (hcounter : isSafeInteger n.counter = true)
    (hlamport : isSafeInteger n.lamport = true) : snapshotNode (arrived (ofNode n)) = some n := by
  obtain ⟨id, afterId, value, clientId, counter, lamport, tombstone⟩ := n
  show (stringOf 0 (.string id)).bind (fun id => (stringOf 0 (.string afterId)).bind fun afterId =>
    (stringOf 0 (.string value)).bind fun value => (stringOf 0 (.string clientId)).bind fun clientId =>
    (ofInteger counter).integer.bind fun counter => (ofInteger lamport).integer.bind fun lamport =>
    some (TextReplicaSnapshotNode.mk id afterId value clientId counter lamport tombstone)) = _
  simp only [stringOf_zero, integer_ofInteger hcounter, integer_ofInteger hlamport, Option.bind_some]

theorem snapshotDelete_eq {op : DeleteOperation} (hcounter : isSafeInteger op.counter = true)
    (hlamport : isSafeInteger op.lamport = true) :
    snapshotDelete (arrived (.object (deleteMembers op))) = some op := by
  obtain ⟨opId, clientId, counter, lamport, targetId⟩ := op
  show (stringOf 0 (.string opId)).bind (fun opId =>
    (stringOf 0 (.string clientId)).bind fun clientId =>
    (ofInteger counter).integer.bind fun counter => (ofInteger lamport).integer.bind fun lamport =>
    (stringOf 0 (.string targetId)).bind fun targetId =>
    some (DeleteOperation.mk opId clientId counter lamport targetId)) = _
  simp only [stringOf_zero, integer_ofInteger hcounter, integer_ofInteger hlamport, Option.bind_some]

/-- **A snapshot of a replica is read as itself.** -/
theorem snapshotOf_eq {s : TextReplicaSnapshot} (h : TextReplica.SnapshotCoherent s) :
    snapshotOf (arrived (ofSnapshot s)) = some s := by
  have hsafe : ∀ {op : TextOperation}, ValidOperation op →
      isSafeInteger op.counter = true ∧ isSafeInteger op.lamport = true := by
    intro op hop
    obtain ⟨-, hcounter, hlamport, -⟩ := validateOperation_iff.1 hop
    exact ⟨(Bool.and_eq_true_iff.1 (isPositiveSafeInteger_iff.2 hcounter)).1,
      (Bool.and_eq_true_iff.1 (isPositiveSafeInteger_iff.2 hlamport)).1⟩
  have hnodes : array snapshotNode (arrived (.array (s.nodes.map ofNode))) = some s.nodes := by
    have hread := @array_eq _ snapshotNode ofNode (fun _ => true) s.nodes fun n hn => by
      obtain ⟨hcounter, hlamport⟩ := hsafe (h.node_valid n hn)
      exact snapshotNode_eq hcounter hlamport
    rw [hread]
    exact if_pos (List.all_eq_true.2 fun _ _ => rfl)
  have hdeletes : array snapshotDelete (arrived (.array (s.deleteOperations.map fun op =>
      .object (deleteMembers op)))) = some s.deleteOperations := by
    have hread := @array_eq _ snapshotDelete (fun op => .object (deleteMembers op)) (fun _ => true)
      s.deleteOperations fun op hop => by
        obtain ⟨hcounter, hlamport⟩ := hsafe (h.delete_valid op hop)
        exact snapshotDelete_eq hcounter hlamport
    rw [hread]
    exact if_pos (List.all_eq_true.2 fun _ _ => rfl)
  have hversion : isSafeInteger s.version = true := by
    rw [h.version]
    decide
  obtain ⟨version, nodes, deleteOperations⟩ := s
  show (ofInteger version).integer.bind (fun version =>
    (array snapshotNode (arrived (.array (nodes.map ofNode)))).bind fun nodes =>
    (array snapshotDelete (arrived (.array (deleteOperations.map fun op =>
      .object (deleteMembers op))))).bind fun deleteOperations =>
    some (TextReplicaSnapshot.mk version nodes deleteOperations)) = _
  simp only [integer_ofInteger hversion, hnodes, hdeletes, Option.bind_some]

/-! ## What is accepted meets the bounds -/

/-- The frame that carries a client message is that of the message when its fields meet the bounds, and
malformed otherwise. -/
theorem frameOf_sent (m : ClientMessage) : frameOf (send ((ofClientMessage m).stringify decimal)) =
    if LocalFirst.clientMessageSchema m then .message m else .malformed := by
  unfold frameOf
  rw [parse_arrived]
  simp only [clientMessageSchema_eq]
  cases LocalFirst.clientMessageSchema m <;> rfl

/-- The server does the same with it as with the message. -/
theorem handleMessage_sent {σ : Type} [ServerStore σ] (env : ServerEnv) (w : SyncServer σ)
    (socket : SocketId) (m : ClientMessage) :
    SyncServer.handleMessage env w socket (frameOf (send ((ofClientMessage m).stringify decimal))) =
      SyncServer.handleMessage env w socket (.message m) := by
  rw [frameOf_sent]
  by_cases hm : LocalFirst.clientMessageSchema m = true
  · rw [if_pos hm]
  · rw [if_neg hm]
    unfold SyncServer.handleMessage parseClientMessage
    cases w.sessions.get? socket with
    | none => rfl
    | some session => simp only [if_neg hm]

example : (ofClientMessage (.submitOperation
    ⟨js "d", .delete ⟨js "A:2", js "A", 2, 3, js "B:1"⟩⟩)).stringify decimal =
    js ("\x7b\"type\":\"submit-operation\",\"documentId\":\"d\",\"operation\":" ++
      "\x7b\"kind\":\"delete\",\"opId\":\"A:2\",\"clientId\":\"A\",\"counter\":2,\"lamport\":3," ++
      "\"targetId\":\"B:1\"\x7d\x7d") := by
  decide +kernel

/-- **A message of the server on the wire.**  In every run of the server: what a client reads from the
text of a message that has been sent is that message, snapshot included, when its fields meet the
bounds, and nothing otherwise. -/
theorem serverFrameOf_send {store : OperationStore} (hstore : store.Reachable)
    (es : List SyncServer.Event) :
    ∀ p ∈ ((SyncServer.start store).run es).sent,
      serverFrameOf (send ((ofServerMessage p.2).stringify decimal)) =
        (parseServerMessage p.2).map ServerFrame.of ∧
      ∀ m b, p.2 = .sync m → m.snapshotBootstrap = some b →
        snapshotOf (arrived (ofSnapshot b.snapshot)) = some b.snapshot := by
  intro p hp
  refine ⟨?_, fun m b hm hb => ?_⟩
  · unfold serverFrameOf parseServerMessage
    rw [parse_arrived, Option.bind_some, serverMessageSchema_eq, guard_map]
  · have hdescribes := ((SyncServer.run_inv hstore es).sent p hp).2
    rw [hm] at hdescribes
    obtain ⟨cursor, hdescribes⟩ := hdescribes
    obtain ⟨-, -, -, hexport, -⟩ := hdescribes.bootstrap b hb
    exact snapshotOf_eq (exportPrefixSnapshot_sound hexport).1

/-- The answer to a join. -/
theorem serverFrameOf_send_joined :
    let es : List SyncServer.Event := [.connection 0 5,
      .message 0 (.message (.join ⟨js "d", js "A", 0, none, none⟩)) ⟨none, none, none, true, id⟩]
    let answer : ServerMessage := .sync ⟨js "d", [], 0, none⟩
    (0, answer) ∈ ((SyncServer.start .empty).run es).sent ∧
      serverFrameOf (send ((ofServerMessage answer).stringify decimal)) =
        some (.sync ⟨js "d", [], 0, none⟩) := by
  intro es answer
  have hsent : (0, answer) ∈ ((SyncServer.start .empty).run es).sent := by decide +kernel
  exact ⟨hsent, (serverFrameOf_send .empty es _ hsent).1⟩

end Wire

end LocalFirst
