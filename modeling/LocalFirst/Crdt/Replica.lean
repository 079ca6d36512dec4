import LocalFirst.Crdt.Operation
import LocalFirst.Lib.InsMap
import LocalFirst.Lib.Sorting

/-!
# The replica

Model of `packages/crdt/src/replica.ts`: the class `TextReplica` with its five maps, the
breadth-first drain of pending operations, the traversal, and the export and restoration of
snapshots.

A method that may throw returns the replica it leaves behind together with its outcome, so
that a throw in the middle of an update is visible.  The `while` loops take a number of
steps; `outOfFuelError` marks a loop that would need more.
-/

set_option autoImplicit false

namespace LocalFirst

/-- `TextNode` has the fields of a snapshot node. -/
abbrev TextNode := TextReplicaSnapshotNode

structure TextReplica where
  nodes : InsMap JsString TextNode
  childrenByParent : InsMap JsString (List JsString)
  knownOperations : InsMap JsString TextOperation
  pendingInsertsByAnchor : InsMap JsString (InsSet JsString)
  pendingDeletesByTarget : InsMap JsString (InsSet JsString)

def compareNodes (left right : TextNode) : Int :=
  if left.lamport ≠ right.lamport then
    if left.lamport > right.lamport then -1 else 1
  else if left.clientId ≠ right.clientId then
    if left.clientId < right.clientId then -1 else 1
  else if left.counter ≠ right.counter then
    if left.counter < right.counter then -1 else 1
  else 0

namespace TextReplica

/-- `new TextReplica()`. -/
def empty : TextReplica := ⟨.empty, .empty, .empty, .empty, .empty⟩

/-! ## Applying operations -/

def anchorExists (r : TextReplica) (anchorId : JsString) : Bool :=
  anchorId == ROOT_ID || r.nodes.has anchorId

def addPending (map : InsMap JsString (InsSet JsString)) (dependencyId operationId : JsString) :
    InsMap JsString (InsSet JsString) :=
  map.set dependencyId (((map.get? dependencyId).getD .empty).add operationId)

def addPendingInsert (r : TextReplica) (operation : InsertOperation) : TextReplica :=
  { r with pendingInsertsByAnchor :=
      addPending r.pendingInsertsByAnchor operation.afterId operation.opId }

def addPendingDelete (r : TextReplica) (operation : DeleteOperation) : TextReplica :=
  { r with pendingDeletesByTarget :=
      addPending r.pendingDeletesByTarget operation.targetId operation.opId }

/-- The loop of `assertInsertDoesNotCreateCycle`. -/
def cycleWalk (knownOperations : InsMap JsString TextOperation) (opId : JsString) :
    Nat → JsString → InsSet JsString → Except JsError Unit
  | 0, _, _ => .error outOfFuelError
  | fuel + 1, cursor, visited =>
    if cursor = ROOT_ID then .ok ()
    else if cursor = opId then .error (operationDependencyCycleError opId)
    else if cursor ∈ visited.elems then .error (operationDependencyCycleError opId)
    else match knownOperations.get? cursor with
      | none => .ok ()
      | some (.delete _) =>
        .error (invalidOperationError
          (js "Insert anchor \"" ++ cursor ++ js "\" resolves to a non-insert operation."))
      | some (.insert dependency) =>
        cycleWalk knownOperations opId fuel dependency.afterId (visited.add cursor)

def assertInsertDoesNotCreateCycle (r : TextReplica) (operation : InsertOperation) :
    Except JsError Unit :=
  cycleWalk r.knownOperations operation.opId (r.knownOperations.size + 1) operation.afterId .empty

/-- The sibling list with the node spliced in before the first sibling it precedes. -/
def spliceSibling (nodes : InsMap JsString TextNode) (node : TextNode) :
    List JsString → Except JsError (List JsString)
  | [] => .ok [node.id]
  | existingId :: siblings =>
    if existingId = [] then (spliceSibling nodes node siblings).map (existingId :: ·)
    else match nodes.get? existingId with
      | none => .error (invalidOperationError
          (js "Replica structure references missing sibling \"" ++ existingId ++ js "\"."))
      | some existingNode =>
        if compareNodes node existingNode < 0 then .ok (node.id :: existingId :: siblings)
        else (spliceSibling nodes node siblings).map (existingId :: ·)

def insertChild (r : TextReplica) (parentId : JsString) (node : TextNode) :
    Except JsError TextReplica :=
  match spliceSibling r.nodes node ((r.childrenByParent.get? parentId).getD []) with
  | .error e => .error e
  | .ok siblings =>
    .ok { r with childrenByParent := r.childrenByParent.set parentId siblings }

/-- The node that an insert attaches, before any tombstone. -/
def nodeOf (operation : InsertOperation) : TextNode :=
  ⟨operation.opId, operation.afterId, operation.value, operation.clientId, operation.counter,
    operation.lamport, false⟩

/-- The insert operations waiting in a pending set, in the order of the set. -/
def waitingInserts (knownOperations : InsMap JsString TextOperation) :
    List JsString → Except JsError (List InsertOperation)
  | [] => .ok []
  | childOperationId :: ids =>
    match knownOperations.get? childOperationId with
    | some (.insert childOperation) =>
      (waitingInserts knownOperations ids).map (childOperation :: ·)
    | _ => .error (invalidOperationError
        (js "Pending insert \"" ++ childOperationId ++
          js "\" does not resolve to an insert operation."))

/-- Settle the deletes that waited for a node just attached. -/
def settlePendingDeletes (r : TextReplica) (node : TextNode) : TextReplica :=
  match r.pendingDeletesByTarget.get? node.id with
  | some pendingDeletes =>
    if pendingDeletes.size > 0 then
      { r with
        nodes := r.nodes.set node.id { node with tombstone := true }
        pendingDeletesByTarget := r.pendingDeletesByTarget.delete node.id }
    else r
  | none => r

def setNode (r : TextReplica) (node : TextNode) : TextReplica :=
  { r with nodes := r.nodes.set node.id node }

def releasePending (r : TextReplica) (id : JsString) : TextReplica :=
  { r with pendingInsertsByAnchor := r.pendingInsertsByAnchor.delete id }

/-- The part of a pass of `attachInsertAndResolve` that attaches an operation whose anchor
exists, with the operations it pushes onto the queue. -/
def attachNode (r : TextReplica) (operation : InsertOperation) :
    TextReplica × Except JsError (List InsertOperation) :=
  let node := nodeOf operation
  let withNode := r.setNode node
  match withNode.insertChild node.afterId node with
  | .error e => (withNode, .error e)
  | .ok withChild =>
    let settled := withChild.settlePendingDeletes node
    match settled.pendingInsertsByAnchor.get? node.id with
    | none => (settled, .ok [])
    | some waitingChildren =>
      let released := settled.releasePending node.id
      (released, waitingInserts released.knownOperations waitingChildren.elems)

/-- The loop of `attachInsertAndResolve`. -/
def drain : Nat → TextReplica → List InsertOperation → TextReplica × Except JsError Unit
  | _, r, [] => (r, .ok ())
  | 0, r, _ :: _ => (r, .error outOfFuelError)
  | fuel + 1, r, operation :: queue =>
    if r.nodes.has operation.opId then drain fuel r queue
    else if ¬ r.anchorExists operation.afterId then
      drain fuel (r.addPendingInsert operation) queue
    else match r.attachNode operation with
      | (r', .error e) => (r', .error e)
      | (r', .ok children) => drain fuel r' (queue ++ children)

def attachInsertAndResolve (r : TextReplica) (initialOperation : InsertOperation) :
    TextReplica × Except JsError Unit :=
  drain r.knownOperations.size r [initialOperation]

def applyInsert (r : TextReplica) (operation : InsertOperation) :
    TextReplica × Except JsError ApplyStatus :=
  if ¬ r.anchorExists operation.afterId then
    (r.addPendingInsert operation, .ok .pending)
  else
    match r.attachInsertAndResolve operation with
    | (r', .ok ()) => (r', .ok .applied)
    | (r', .error e) => (r', .error e)

def applyDelete (r : TextReplica) (operation : DeleteOperation) :
    TextReplica × Except JsError ApplyStatus :=
  match r.nodes.get? operation.targetId with
  | none =>
    (r.addPendingDelete operation, .ok .pending)
  | some target =>
    ({ r with nodes := r.nodes.set operation.targetId { target with tombstone := true } },
      .ok .applied)

/-- The two checks that `apply` makes before it registers an unknown operation. -/
def checkAdmissible (r : TextReplica) (operation : TextOperation) : Except JsError Unit :=
  match operation with
  | .insert op =>
    if ¬ r.anchorExists op.afterId then r.assertInsertDoesNotCreateCycle op else .ok ()
  | .delete op =>
    if r.pendingInsertsByAnchor.has op.opId then
      .error (invalidOperationError (js "Element dependency \"" ++ op.opId ++
        js "\" resolved to a delete operation instead of an insert."))
    else .ok ()

def register (r : TextReplica) (operation : TextOperation) : TextReplica :=
  { r with knownOperations := r.knownOperations.set operation.opId operation }

def apply (r : TextReplica) (operation : TextOperation) :
    TextReplica × Except JsError ApplyStatus :=
  match validateOperation operation with
  | .error e => (r, .error e)
  | .ok () =>
    match r.knownOperations.get? operation.opId with
    | some known =>
      if ¬ operationsEqual known operation then
        (r, .error (operationIdentityConflictError operation.opId))
      else (r, .ok .duplicate)
    | none =>
      match r.checkAdmissible operation with
      | .error e => (r, .error e)
      | .ok () =>
        match operation with
        | .insert op => (r.register operation).applyInsert op
        | .delete op => (r.register operation).applyDelete op

/-- `applyAll`: stops at the first operation that throws. -/
def applyAll : TextReplica → List TextOperation → TextReplica × Except JsError Unit
  | r, [] => (r, .ok ())
  | r, operation :: operations =>
    match r.apply operation with
    | (r', .error e) => (r', .error e)
    | (r', .ok _) => applyAll r' operations

/-! ## Reading the replica -/

/-- The loop of `getVisibleElements`; the head of the list is the top of the stack. -/
def traverse (r : TextReplica) : Nat → List JsString → Except JsError (List VisibleElement)
  | _, [] => .ok []
  | 0, _ :: _ => .error outOfFuelError
  | fuel + 1, currentId :: stack =>
    if currentId = [] then r.traverse fuel stack
    else match r.nodes.get? currentId with
      | none => .error (invalidOperationError
          (js "Replica structure references missing node \"" ++ currentId ++ js "\"."))
      | some node =>
        let children := (r.childrenByParent.get? node.id).getD []
        let rest := r.traverse fuel (children.filter (· ≠ []) ++ stack)
        if node.tombstone then rest else rest.map (⟨node.id, node.value⟩ :: ·)

def getVisibleElements (r : TextReplica) : Except JsError (List VisibleElement) :=
  r.traverse r.nodes.size ((r.childrenByParent.get? ROOT_ID).getD [])

def materialize (r : TextReplica) : Except JsError JsString :=
  r.getVisibleElements.map fun elements => (elements.map (·.value)).flatten

def getKnownOperationCount (r : TextReplica) : Nat := r.knownOperations.size

def getKnownOperationIds (r : TextReplica) : List JsString :=
  sortBy compareCodeUnits r.knownOperations.keys

/-- The operation ids held by a pending map, in the order of its sets. -/
def pendingIds (map : InsMap JsString (InsSet JsString)) : List JsString :=
  map.values.flatMap (·.elems)

def getUnresolvedOperationIds (r : TextReplica) : List JsString :=
  sortBy compareCodeUnits
    ((pendingIds r.pendingInsertsByAnchor ++ pendingIds r.pendingDeletesByTarget).foldl
      InsSet.add .empty).elems

/-! ## Snapshots -/

/-- The delete operations among the known operations, in the order of the map. -/
def knownDeletes (operations : List TextOperation) : List DeleteOperation :=
  operations.filterMap fun
    | .delete operation => some operation
    | .insert _ => none

def exportSnapshot (r : TextReplica) : Except JsError TextReplicaSnapshot :=
  if r.getUnresolvedOperationIds.length > 0 then
    .error (unresolvedReplicaSnapshotError r.getUnresolvedOperationIds)
  else
    .ok ⟨1,
      sortBy (fun left right => compareCodeUnits left.id right.id) r.nodes.values,
      sortBy (fun left right => compareCodeUnits left.opId right.opId)
        (knownDeletes r.knownOperations.values)⟩

/-- The insert operation that a snapshot node stands for. -/
def insertOf (node : TextReplicaSnapshotNode) : InsertOperation :=
  ⟨node.id, node.clientId, node.counter, node.lamport, node.afterId, node.value⟩

/-- An error met while a snapshot is restored, as the `catch` around it rethrows it. -/
def asSnapshotError (e : JsError) : JsError := invalidReplicaSnapshotError e.message

/-- The part of a snapshot read so far. -/
structure RestoreState where
  knownOperations : InsMap JsString TextOperation
  nodes : InsMap JsString TextNode

/-- One pass of the loop over `snapshot.nodes`; `nodeIds` is the key set of `nodes`. -/
def restoreNode (s : RestoreState) (node : TextReplicaSnapshotNode) :
    Except JsError RestoreState :=
  if node.id = ROOT_ID then
    .error (invalidReplicaSnapshotError (js "ROOT cannot be used as an inserted node id."))
  else if s.nodes.has node.id then
    .error (invalidReplicaSnapshotError
      (js "Duplicate snapshot node id \"" ++ node.id ++ js "\"."))
  else if node.id ≠ makeOperationId node.clientId node.counter then
    .error (invalidReplicaSnapshotError
      (js "Snapshot node id \"" ++ node.id ++ js "\" does not match clientId and counter."))
  else match validateOperation (.insert (insertOf node)) with
    | .error e => .error (asSnapshotError e)
    | .ok () =>
      .ok ⟨s.knownOperations.set node.id (.insert (insertOf node)), s.nodes.set node.id node⟩

def restoreNodes : List TextReplicaSnapshotNode → RestoreState → Except JsError RestoreState
  | [], s => .ok s
  | node :: nodes, s =>
    match restoreNode s node with
    | .error e => .error e
    | .ok s' => restoreNodes nodes s'

/-- The loop over `snapshot.deleteOperations`, with the ids it finds deleted. -/
def restoreDeletes (nodes : InsMap JsString TextNode) :
    List DeleteOperation → InsMap JsString TextOperation → InsSet JsString →
      Except JsError (InsMap JsString TextOperation × InsSet JsString)
  | [], known, deletedTargets => .ok (known, deletedTargets)
  | operation :: operations, known, deletedTargets =>
    match validateOperation (.delete operation) with
    | .error e => .error (asSnapshotError e)
    | .ok () =>
      match known.get? operation.opId with
      | some existing =>
        if ¬ operationsEqual existing (.delete operation) then
          .error (operationIdentityConflictError operation.opId)
        else .error (invalidReplicaSnapshotError
          (js "Duplicate snapshot operation identity \"" ++ operation.opId ++ js "\"."))
      | none =>
        if ¬ nodes.has operation.targetId then
          .error (invalidReplicaSnapshotError (js "Delete operation \"" ++ operation.opId ++
            js "\" targets missing node \"" ++ operation.targetId ++ js "\"."))
        else restoreDeletes nodes operations
          (known.set operation.opId (.delete operation)) (deletedTargets.add operation.targetId)

/-- The checks of one restored node against the anchors and the deletes. -/
def checkNode (nodes : InsMap JsString TextNode) (deletedTargets : InsSet JsString)
    (node : TextNode) : Except JsError Unit :=
  if node.afterId ≠ ROOT_ID ∧ ¬ nodes.has node.afterId then
    .error (invalidReplicaSnapshotError (js "Snapshot node \"" ++ node.id ++
      js "\" references missing anchor \"" ++ node.afterId ++ js "\"."))
  else if node.tombstone ∧ node.id ∉ deletedTargets.elems then
    .error (invalidReplicaSnapshotError (js "Snapshot node \"" ++ node.id ++
      js "\" is tombstoned without a known delete."))
  else if ¬ node.tombstone ∧ node.id ∈ deletedTargets.elems then
    .error (invalidReplicaSnapshotError (js "Snapshot node \"" ++ node.id ++
      js "\" is visible but targeted by a known delete."))
  else .ok ()

def checkNodes (nodes : InsMap JsString TextNode) (deletedTargets : InsSet JsString) :
    List TextNode → Except JsError Unit
  | [] => .ok ()
  | node :: rest =>
    match checkNode nodes deletedTargets node with
    | .error e => .error e
    | .ok () => checkNodes nodes deletedTargets rest

inductive Color where
  | gray
  | black
  deriving DecidableEq, Repr

/-- The inner loop of `assertSnapshotGraphIsAcyclic`: climb from `cursor`, colouring gray. -/
def climb (nodes : InsMap JsString TextNode) :
    Nat → JsString → InsMap JsString Color → List JsString →
      Except JsError (InsMap JsString Color × List JsString)
  | fuel, cursor, color, stack =>
    if cursor = ROOT_ID then .ok (color, stack)
    else match color.get? cursor with
      | some .black => .ok (color, stack)
      | some .gray => .error (invalidReplicaSnapshotError
          (js "Snapshot graph contains a cycle at \"" ++ cursor ++ js "\"."))
      | none =>
        match nodes.get? cursor with
        | none => .error (invalidReplicaSnapshotError
            (js "Snapshot graph references missing node \"" ++ cursor ++ js "\"."))
        | some node =>
          if node.afterId ≠ ROOT_ID ∧ ¬ nodes.has node.afterId then
            .error (invalidReplicaSnapshotError
              (js "Snapshot node references missing non-ROOT anchor \"" ++ node.afterId ++
                js "\"."))
          else match fuel with
            | 0 => .error outOfFuelError
            | fuel + 1 => climb nodes fuel node.afterId (color.set cursor .gray)
                (stack ++ [cursor])

/-- The outer loop of `assertSnapshotGraphIsAcyclic` over the start nodes. -/
def colorFrom (nodes : InsMap JsString TextNode) :
    List JsString → InsMap JsString Color → Except JsError Unit
  | [], _ => .ok ()
  | startId :: starts, color =>
    if color.get? startId = some .black then colorFrom nodes starts color
    else match climb nodes nodes.size startId color [] with
      | .error e => .error e
      | .ok (climbed, stack) =>
        colorFrom nodes starts (stack.foldl (fun c id => c.set id .black) climbed)

def assertSnapshotGraphIsAcyclic (nodes : InsMap JsString TextNode) : Except JsError Unit :=
  colorFrom nodes nodes.keys .empty

/-- The sibling lists in the order of `nodes`, before they are sorted. -/
def groupByAnchor (nodes : List TextNode) : InsMap JsString (List JsString) :=
  nodes.foldl (fun children node =>
    children.set node.afterId ((children.get? node.afterId).getD [] ++ [node.id])) .empty

/-- The nodes of a sibling list, or `none` when one is missing. -/
def lookupAll (nodes : InsMap JsString TextNode) : List JsString → Option (List TextNode)
  | [] => some []
  | id :: ids =>
    match nodes.get? id, lookupAll nodes ids with
    | some node, some rest => some (node :: rest)
    | _, _ => none

/-- `siblings.sort`: with fewer than two siblings the comparator is not called. -/
def sortSiblings (nodes : InsMap JsString TextNode) (siblings : List JsString) :
    Except JsError (List JsString) :=
  if siblings.length < 2 then .ok siblings
  else match lookupAll nodes siblings with
    | none => .error (invalidReplicaSnapshotError
        (js "Snapshot sibling list references a missing node."))
    | some siblingNodes => .ok ((sortBy compareNodes siblingNodes).map (·.id))

def sortChildren (nodes : InsMap JsString TextNode) :
    List (JsString × List JsString) → InsMap JsString (List JsString) →
      Except JsError (InsMap JsString (List JsString))
  | [], children => .ok children
  | (parentId, siblings) :: rest, children =>
    match sortSiblings nodes siblings with
    | .error e => .error e
    | .ok sorted => sortChildren nodes rest (children.set parentId sorted)

/-- `validateSnapshotShape`, on a value that has the type of a snapshot. -/
def validateSnapshotShape (snapshot : TextReplicaSnapshot) : Except JsError Unit :=
  if snapshot.version ≠ 1 then
    .error (invalidReplicaSnapshotError
      (js "Unsupported snapshot version \"" ++ decimal snapshot.version ++ js "\"."))
  else .ok ()

/-- `fromSnapshot`: `restoreFromSnapshot` on a new replica. -/
def fromSnapshot (snapshot : TextReplicaSnapshot) : Except JsError TextReplica :=
  match validateSnapshotShape snapshot with
  | .error e => .error e
  | .ok () =>
    match restoreNodes snapshot.nodes ⟨.empty, .empty⟩ with
    | .error e => .error e
    | .ok s =>
      match restoreDeletes s.nodes snapshot.deleteOperations s.knownOperations .empty with
      | .error e => .error e
      | .ok (knownOperations, deletedTargets) =>
        match checkNodes s.nodes deletedTargets s.nodes.values with
        | .error e => .error e
        | .ok () =>
          match assertSnapshotGraphIsAcyclic s.nodes with
          | .error e => .error e
          | .ok () =>
            let children := groupByAnchor s.nodes.values
            match sortChildren s.nodes children.entries children with
            | .error e => .error e
            | .ok childrenByParent =>
              .ok ⟨s.nodes, childrenByParent, knownOperations, .empty, .empty⟩

end TextReplica

end LocalFirst
