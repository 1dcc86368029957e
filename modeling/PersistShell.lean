import PersistShell.Cli.Attach
import PersistShell.Cli.AttachInput
import PersistShell.Cli.AttachOutput
import PersistShell.Cli.Capture
import PersistShell.Cli.CommitInput
import PersistShell.Cli.DashboardApp
import PersistShell.Cli.DashboardClient
import PersistShell.Cli.PolicyVariables
import PersistShell.Cli.RecordedDirectory
import PersistShell.Cli.ShellState
import PersistShell.Cli.StateCommit
import PersistShell.Core.CaptureHistory
import PersistShell.Core.CommandHistory
import PersistShell.Core.Config
import PersistShell.Core.ConfigValues
import PersistShell.Core.EnvelopeSize
import PersistShell.Core.Environment
import PersistShell.Core.Error
import PersistShell.Core.HistoryCodec
import PersistShell.Core.HistoryCrashes
import PersistShell.Core.HistoryRuns
import PersistShell.Core.Json
import PersistShell.Core.JsonSize
import PersistShell.Core.Launch
import PersistShell.Core.Policy
import PersistShell.Core.RingBuffer
import PersistShell.Core.ShellState
import PersistShell.Core.Snapshot
import PersistShell.Core.Validity
import PersistShell.Daemon.AttachEnds
import PersistShell.Daemon.AttachHistory
import PersistShell.Daemon.Attachments
import PersistShell.Daemon.ClientSockets
import PersistShell.Daemon.ControlClient
import PersistShell.Daemon.Creation
import PersistShell.Daemon.Finalize
import PersistShell.Daemon.Handover
import PersistShell.Daemon.Idempotence
import PersistShell.Daemon.IdleGc
import PersistShell.Daemon.Inventory
import PersistShell.Daemon.PidFile
import PersistShell.Daemon.ProxyDelivery
import PersistShell.Daemon.ProxyForwarding
import PersistShell.Daemon.ProxyInput
import PersistShell.Daemon.ProxyOrder
import PersistShell.Daemon.PublicAttach
import PersistShell.Daemon.Reconcile
import PersistShell.Daemon.SessionIds
import PersistShell.Daemon.SessionList
import PersistShell.Daemon.SessionLocks
import PersistShell.Daemon.State
import PersistShell.Daemon.Unavailable
import PersistShell.Dashboard.Appends
import PersistShell.Dashboard.Attribution
import PersistShell.Dashboard.Canonical
import PersistShell.Dashboard.DiskTrend
import PersistShell.Dashboard.Eviction
import PersistShell.Dashboard.FieldLaws
import PersistShell.Dashboard.Format
import PersistShell.Dashboard.History
import PersistShell.Dashboard.MinuteRecords
import PersistShell.Dashboard.Model
import PersistShell.Dashboard.Procfs
import PersistShell.Dashboard.Rates
import PersistShell.Dashboard.Recovery
import PersistShell.Dashboard.Retained
import PersistShell.Dashboard.Runs
import PersistShell.Dashboard.Segments
import PersistShell.Dashboard.Service
import PersistShell.Dashboard.Storage
import PersistShell.Dashboard.Trend
import PersistShell.Dashboard.Worker
import PersistShell.Holder.Acceptance
import PersistShell.Holder.Answers
import PersistShell.Holder.Arrivals
import PersistShell.Holder.Attach
import PersistShell.Holder.Backpressure
import PersistShell.Holder.Connection
import PersistShell.Holder.Detach
import PersistShell.Holder.ExitOutput
import PersistShell.Holder.Exits
import PersistShell.Holder.Faults
import PersistShell.Holder.Handled
import PersistShell.Holder.Handlers
import PersistShell.Holder.Incarnations
import PersistShell.Holder.Invariant
import PersistShell.Holder.Launch
import PersistShell.Holder.Lifecycles
import PersistShell.Holder.Listing
import PersistShell.Holder.LogWorker
import PersistShell.Holder.Moved
import PersistShell.Holder.Moves
import PersistShell.Holder.Openings
import PersistShell.Holder.Output
import PersistShell.Holder.PidLock
import PersistShell.Holder.Quiet
import PersistShell.Holder.Registrations
import PersistShell.Holder.Reports
import PersistShell.Holder.Representation
import PersistShell.Holder.Roles
import PersistShell.Holder.Runtime
import PersistShell.Holder.Safety
import PersistShell.Holder.Script
import PersistShell.Holder.Server
import PersistShell.Holder.Sessions
import PersistShell.Holder.Tokens
import PersistShell.Holder.World
import PersistShell.Holder.Writers
import PersistShell.Ipc.AttachContext
import PersistShell.Ipc.ByOffset
import PersistShell.Ipc.Codec
import PersistShell.Ipc.Context
import PersistShell.Ipc.Create
import PersistShell.Ipc.CreateCodecs
import PersistShell.Ipc.Dashboard
import PersistShell.Ipc.DashboardCodecs
import PersistShell.Ipc.Frame
import PersistShell.Ipc.Handshake
import PersistShell.Ipc.HolderChunks
import PersistShell.Ipc.Lossless
import PersistShell.Ipc.Operation
import PersistShell.Ipc.OperationCodecs
import PersistShell.Ipc.Public
import PersistShell.Ipc.PublicChunks
import PersistShell.Ipc.Session
import PersistShell.Ipc.SessionList
import PersistShell.Ipc.Streams
import PersistShell.Ipc.Wire
import PersistShell.Metadata.Environment
import PersistShell.Metadata.Limits
import PersistShell.Metadata.Migration
import PersistShell.Metadata.Store
import PersistShell.Metadata.Timestamps
import PersistShell.Program.Arbiter
import PersistShell.Program.BinarySearch
import PersistShell.Program.Buckets
import PersistShell.Program.ByteQueue
import PersistShell.Program.Calendar
import PersistShell.Program.Chains
import PersistShell.Program.Crash
import PersistShell.Program.Decimal
import PersistShell.Program.Environ
import PersistShell.Program.Framing
import PersistShell.Program.Handles
import PersistShell.Program.Indexed
import PersistShell.Program.NamedLock
import PersistShell.Program.NatMap
import PersistShell.Program.Outcome
import PersistShell.Program.Paging
import PersistShell.Program.QueueRun
import PersistShell.Program.Reading
import PersistShell.Program.Retention
import PersistShell.Program.Rotation
import PersistShell.Program.Run
import PersistShell.Program.Summary
import PersistShell.Program.Windows
