import LocalFirst.Lib.InsMap
import LocalFirst.Lib.Sorting
import LocalFirst.Lib.Forest
import LocalFirst.Lib.DepthFirst
import LocalFirst.Lib.Runs
import LocalFirst.Lib.Renumbering
import LocalFirst.Crdt.Operation
import LocalFirst.Crdt.Identity
import LocalFirst.Crdt.History
import LocalFirst.Crdt.Replica
import LocalFirst.Crdt.Siblings
import LocalFirst.Crdt.Invariant
import LocalFirst.Crdt.Drain
import LocalFirst.Crdt.Apply
import LocalFirst.Crdt.Traversal
import LocalFirst.Crdt.Convergence
import LocalFirst.Crdt.FromSnapshot
import LocalFirst.Crdt.RoundTrip
import LocalFirst.Crdt.Resolution
import LocalFirst.Crdt.Splice
import LocalFirst.Lib.Table
import LocalFirst.Client.Database
import LocalFirst.Protocol
import LocalFirst.Client.TextEdit
import LocalFirst.Client.Store
import LocalFirst.Client.Transactions
import LocalFirst.Client.Controller
import LocalFirst.Client.Restore
import LocalFirst.Client.Reload
import LocalFirst.Client.IngestAtomicity
import LocalFirst.Lib.CommonPrefix
import LocalFirst.Client.ConcurrentEdit
import LocalFirst.Client.EditExact
import LocalFirst.Client.Acceptable
import LocalFirst.Lib.Sequenced
import LocalFirst.Server.OperationStore
import LocalFirst.Server.Snapshot
import LocalFirst.Sync.Bootstrap
import LocalFirst.Server.SyncServer
import LocalFirst.Server.ServerInvariant
import LocalFirst.Server.GapFree
import LocalFirst.Server.MessageOrder
import LocalFirst.Server.JoinAtomic
import LocalFirst.Server.Renumber
import LocalFirst.Server.DocumentView
import LocalFirst.Server.NonInterference
import LocalFirst.Server.Roster
import LocalFirst.Server.Speech
import LocalFirst.Sync.AcceptableMessages
import LocalFirst.Sync.SyncClient
import LocalFirst.Sync.System
import LocalFirst.Sync.PageEffect
import LocalFirst.Sync.PageSockets
import LocalFirst.Sync.Frames
import LocalFirst.Sync.SystemInvariant
import LocalFirst.Sync.ClientRun
import LocalFirst.Sync.ClientStatus
import LocalFirst.Sync.CatchUp
import LocalFirst.Sync.NoLoss
import LocalFirst.Sync.CursorCompleteness
import LocalFirst.Lib.Dependencies
import LocalFirst.Sync.PendingOrder
import LocalFirst.Sync.DependencyOrder
import LocalFirst.Crdt.Rejection
import LocalFirst.Crdt.Waiting
import LocalFirst.Crdt.Order
import LocalFirst.Crdt.Exported
import LocalFirst.Client.Clock
import LocalFirst.Client.Allocation
import LocalFirst.Sync.Connection
import LocalFirst.Sync.Fallback
import LocalFirst.Sync.PageRun
import LocalFirst.Lib.Boundaries
import LocalFirst.Lib.Survivors
import LocalFirst.Client.SelectionAnchor
import LocalFirst.Client.Editor
import LocalFirst.Client.Catalog
import LocalFirst.Client.Redelivery
import LocalFirst.Client.Keystrokes
import LocalFirst.Crdt.SiblingOrder
import LocalFirst.Server.Presence
import LocalFirst.Lib.SerialChain
import LocalFirst.Client.SessionTransition
import LocalFirst.Sync.Quiescence
import LocalFirst.Lib.Json
import LocalFirst.Lib.JsonNumber
import LocalFirst.Sync.Wire
import LocalFirst.Client.TextArea
import LocalFirst.Client.SaveIndicator
import LocalFirst.Client.Caret
import LocalFirst.Client.Composition
import LocalFirst.Server.Metrics
import LocalFirst.Server.Reconciled
import LocalFirst.Server.Gateway
import LocalFirst.Server.Shutdown
import LocalFirst.Server.Sqlite
import LocalFirst.Server.SqliteServer
import LocalFirst.Server.Ownership
import LocalFirst.Client.Workspace
import LocalFirst.Client.Sessions
import LocalFirst.Client.DocumentRows
import LocalFirst.Client.SessionWork
import LocalFirst.Client.Handover
import LocalFirst.Client.Address
