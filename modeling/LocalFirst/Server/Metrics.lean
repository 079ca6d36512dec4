import LocalFirst.Server.StoreSimulation
import LocalFirst.Sync.Wire

/-!
# The metered server

What `server-snapshot.ts` counts, and the server over a store that keeps the counters.

* `MeteredServer` — the sync server over a store with its metrics.
* `MeteredServer.run_plain` — metering changes nothing.
-/

set_option autoImplicit false

namespace LocalFirst

/-! ## Sync messages -/

/-- The bytes of a code unit of a well-formed text in UTF-8; a surrogate is one half of four. -/
def unitBytes (c : CodeUnit) : ℕ :=
  if c.toNat < 0x80 then 1
  else if c.toNat < 0x800 then 2
  else if isHighSurrogate c || isLowSurrogate c then 2
  else 3

/-- `Buffer.byteLength`. -/
def byteLength (text : JsString) : ℕ := ((Json.toWellFormed text).map unitBytes).sum

namespace OperationStore

/-- `tryBuildSnapshot`, as the metrics see it. -/
def tryBuildMetrics (s : OperationStore) (rowWritten : Bool) (documentId : JsString) (barrier : Int)
    (m : ServerMetrics) : ServerMetrics :=
  match exportPrefixSnapshot (s.loadOperationsThrough documentId barrier) with
  | .error _ => m.recordSnapshotBuildFailure
  | .ok _ => if rowWritten then m.recordSnapshotBuild else m.recordSnapshotBuildFailure

/-- `prepareSnapshotBootstrap`, as the metrics see it. -/
def prepareMetrics (s : OperationStore) (rowWritten : Bool) (documentId : JsString) (barrier : Int)
    (m : ServerMetrics) : ServerMetrics :=
  let historyCount := s.countOperations documentId
  if historyCount = 0 ∨ barrier < 1 then m
  else match s.loadValidSnapshot documentId with
    | none =>
      if historyCount < SNAPSHOT_OPERATION_THRESHOLD then m
      else s.tryBuildMetrics rowWritten documentId barrier m
    | some existing =>
      let suffixCount := s.countOperationsAfter documentId existing.snapshotSeq barrier
      if suffixCount ≥ SNAPSHOT_OPERATION_THRESHOLD then
        s.tryBuildMetrics rowWritten documentId barrier m
      else m

/-- `buildSyncMessage`, as the metrics see it. -/
def buildSyncMetrics (s : OperationStore) (rowWritten : Bool) (documentId : JsString)
    (lastServerSeq : Int) (snapshotCapable : Bool) (m : ServerMetrics) : ServerMetrics :=
  let barrier := s.getLatestServerSeq documentId
  if ¬ snapshotCapable ∨ lastServerSeq > 0 then m
  else
    let prepared := s.prepareSnapshotBootstrap rowWritten documentId barrier
    let m' := s.prepareMetrics rowWritten documentId barrier m
    match prepared.1 with
    | none => m'
    | some bootstrap =>
      m'.recordSnapshotBootstrap
        (byteLength ((Wire.ofSnapshot bootstrap.snapshot).stringify decimal))
        (prepared.2.loadOperationsAfter documentId bootstrap.snapshotSeq barrier).length

end OperationStore

/-! ## The server -/

/-- A store with its metrics. -/
structure MeteredStore where
  store : OperationStore
  metrics : ServerMetrics

instance : ServerStore MeteredStore where
  log s := s.store.log
  getLatestServerSeq s := s.store.getLatestServerSeq
  appendOperation s documentId operation :=
    (s.store.appendOperation documentId operation).map fun appended =>
      (appended.1, { s with store := appended.2 })
  buildSyncMessage s rowWritten documentId lastServerSeq snapshotCapable :=
    let built := s.store.buildSyncMessage rowWritten documentId lastServerSeq snapshotCapable
    .ok (built.1, ⟨built.2, s.store.buildSyncMetrics rowWritten documentId lastServerSeq
      snapshotCapable s.metrics⟩)
  record count s := { s with metrics := count s.metrics }

abbrev MeteredServer := SyncServer MeteredStore

/-- The server without its metrics. -/
def SyncServer.plain (w : MeteredServer) : SyncServer := w.withStore w.store.store

def SyncServer.metrics (w : MeteredServer) : ServerMetrics := w.store.metrics

namespace MeteredServer

open SyncServer (Event Alike Agrees)

def start (store : OperationStore) : MeteredServer := .attach ⟨store, .zero⟩

theorem append_metered (s : MeteredStore) (d : JsString) (operation : TextOperation) :
    ServerStore.appendOperation s d operation =
      (s.store.appendOperation d operation).map fun appended =>
        (appended.1, { s with store := appended.2 }) := rfl

/-! ## Metering changes nothing -/

/-- The store is that of the metered one. -/
def Metered (s : MeteredStore) (store : OperationStore) : Prop := store = s.store

theorem simulates : SyncServer.Simulates .all Metered where
  log := by
    rintro s _ rfl d -
    rfl
  latest := by
    rintro s _ rfl d -
    rfl
  append := by
    rintro s _ rfl d - operation -
    rw [append_metered]
    show Agrees Metered _ (s.store.appendOperation d operation)
    cases s.store.appendOperation d operation with
    | error e => exact Or.inl ⟨e, rfl, rfl⟩
    | ok appended => exact Or.inr ⟨_, _, _, rfl, rfl, rfl⟩
  sync := by
    rintro s _ rfl d - rowWritten lastServerSeq capable
    exact Or.inr ⟨_, _, _, rfl, rfl, rfl⟩
  record := by
    rintro s _ rfl count
    rfl

theorem plain_of_alike {w : MeteredServer} {v : SyncServer} (h : Alike Metered w v) :
    w.plain = v := by
  obtain ⟨store, rfl, rfl⟩ := h
  rfl

theorem alike_plain (w : MeteredServer) : Alike Metered w w.plain := ⟨_, rfl, rfl⟩

theorem handle_plain (w : MeteredServer) (e : Event) : (w.handle e).plain = w.plain.handle e :=
  plain_of_alike ((alike_plain w).handle simulates e.named_all)

end MeteredServer

end LocalFirst
