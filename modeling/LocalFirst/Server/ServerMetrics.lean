import LocalFirst.Protocol

/-!
# The counters of the server

Model of `apps/server/src/observability/server-metrics.ts`.  The gauge of active rooms is
`SyncServer.activeRooms`; the totals of milliseconds are left out.
-/

set_option autoImplicit false

namespace LocalFirst

structure ServerMetrics where
  wsConnections : ℕ
  wsConnectionsTotal : ℕ
  joinTotal : ℕ
  syncTotal : ℕ
  syncOperationsSentTotal : ℕ
  submitOperationsTotal : ℕ
  insertedOperationsTotal : ℕ
  duplicateOperationsTotal : ℕ
  identityConflictsTotal : ℕ
  protocolErrorsTotal : ℕ
  internalErrorsTotal : ℕ
  syncQueryDurationCount : ℕ
  appendOperationDurationCount : ℕ
  snapshotBuildTotal : ℕ
  snapshotBuildFailuresTotal : ℕ
  snapshotBootstrapTotal : ℕ
  snapshotBytesSentTotal : ℕ
  snapshotSuffixOperationsSentTotal : ℕ
  deriving DecidableEq

namespace ServerMetrics

def zero : ServerMetrics := ⟨0, 0, 0, 0, 0, 0, 0, 0, 0, 0, 0, 0, 0, 0, 0, 0, 0, 0⟩

variable (m : ServerMetrics)

def recordConnectionOpened : ServerMetrics :=
  { m with
    wsConnections := m.wsConnections + 1
    wsConnectionsTotal := m.wsConnectionsTotal + 1 }

def recordConnectionClosed : ServerMetrics :=
  { m with wsConnections := max 0 (m.wsConnections - 1) }

def recordJoin : ServerMetrics := { m with joinTotal := m.joinTotal + 1 }

def recordSync (operationCount : ℕ) : ServerMetrics :=
  { m with
    syncTotal := m.syncTotal + 1
    syncOperationsSentTotal := m.syncOperationsSentTotal + operationCount
    syncQueryDurationCount := m.syncQueryDurationCount + 1 }

def recordSubmit : ServerMetrics := { m with submitOperationsTotal := m.submitOperationsTotal + 1 }

def recordInsert : ServerMetrics :=
  { m with insertedOperationsTotal := m.insertedOperationsTotal + 1 }

def recordDuplicate : ServerMetrics :=
  { m with duplicateOperationsTotal := m.duplicateOperationsTotal + 1 }

def recordIdentityConflict : ServerMetrics :=
  { m with identityConflictsTotal := m.identityConflictsTotal + 1 }

def recordProtocolError : ServerMetrics := { m with protocolErrorsTotal := m.protocolErrorsTotal + 1 }

def recordInternalError : ServerMetrics := { m with internalErrorsTotal := m.internalErrorsTotal + 1 }

def recordAppendDuration : ServerMetrics :=
  { m with appendOperationDurationCount := m.appendOperationDurationCount + 1 }

def recordSnapshotBuild : ServerMetrics := { m with snapshotBuildTotal := m.snapshotBuildTotal + 1 }

def recordSnapshotBuildFailure : ServerMetrics :=
  { m with snapshotBuildFailuresTotal := m.snapshotBuildFailuresTotal + 1 }

def recordSnapshotBootstrap (snapshotBytes suffixOperationCount : ℕ) : ServerMetrics :=
  { m with
    snapshotBootstrapTotal := m.snapshotBootstrapTotal + 1
    snapshotBytesSentTotal := m.snapshotBytesSentTotal + snapshotBytes
    snapshotSuffixOperationsSentTotal := m.snapshotSuffixOperationsSentTotal + suffixOperationCount }

end ServerMetrics

end LocalFirst
