import SyncEngine.Js.Map
import SyncEngine.Js.Doc
import SyncEngine.Js.Object
import SyncEngine.Js.Number
import SyncEngine.Js.Json
import SyncEngine.Js.Walk
import SyncEngine.Js.Local
import SyncEngine.Js.Buffer
import SyncEngine.Machine.Runs
import SyncEngine.Machine.BoundedQueue
import SyncEngine.Js.Sort
import SyncEngine.Js.Collator
import SyncEngine.Js.Double
import SyncEngine.Core.Types
import SyncEngine.Core.Operation
import SyncEngine.Core.OperationLaws
import SyncEngine.Core.UnrelatedPaths
import SyncEngine.Core.PathLaws
import SyncEngine.Core.Memory
import SyncEngine.Core.StateManager
import SyncEngine.Core.TreeMemory
import SyncEngine.Core.RawUpdate
import SyncEngine.Core.History
import SyncEngine.Core.HistoryReplay
import SyncEngine.Core.HeapMemory
import SyncEngine.Core.RealmMemory
import SyncEngine.Core.MissingPaths
import SyncEngine.Core.Pollution
import SyncEngine.Core.OrdinaryPaths
import SyncEngine.Core.RecordedDeltas
import SyncEngine.Core.RecordStore
import SyncEngine.Core.SnapshotIsolation
import SyncEngine.Core.SnapshotCache
import SyncEngine.Core.Increments
import SyncEngine.Core.RingBuffer
import SyncEngine.Core.RingQueue
import SyncEngine.Core.MessageBroker
import SyncEngine.Core.RecentMessages
import SyncEngine.Core.DeliveryOrder
import SyncEngine.Core.EventBus
import SyncEngine.Core.EventAccounting
import SyncEngine.Persistence.WriteAheadLog
import SyncEngine.Persistence.Lifetimes
import SyncEngine.Persistence.SnapshotManager
import SyncEngine.Persistence.ByteLog
import SyncEngine.Persistence.TornTail
import SyncEngine.Persistence.LogLines
import SyncEngine.Persistence.ReturnedSequences
import SyncEngine.Persistence.Truncation
import SyncEngine.Persistence.Engine
import SyncEngine.Persistence.SnapshotIndex
import SyncEngine.Persistence.SnapshotOrder
import SyncEngine.Persistence.SnapshotRoundTrip
import SyncEngine.Persistence.Recovery
import SyncEngine.Persistence.Restart
import SyncEngine.Persistence.Durability
import SyncEngine.Persistence.DamagedSnapshots
import SyncEngine.Sync.DeltaCompressor
import SyncEngine.Sync.Compression
import SyncEngine.Sync.CompressedPaths
import SyncEngine.Cluster.ClusterCoordinator
import SyncEngine.Cluster.SplitBrain
import SyncEngine.Cluster.Announcements
import SyncEngine.Machine.Clock
import SyncEngine.Cluster.NodeHealth
import SyncEngine.Cluster.Leadership
import SyncEngine.Network.Protocol
import SyncEngine.Network.Framing
import SyncEngine.Network.DamagedFrames
import SyncEngine.Network.WebSocketServer
import SyncEngine.Network.AuthGate
import SyncEngine.Network.Disconnects
import SyncEngine.Network.ConnectionPool
import SyncEngine.Network.PoolRaces
import SyncEngine.Orchestration.GameServerManager
import SyncEngine.Orchestration.Matchmaker
import SyncEngine.Orchestration.Ticks
import SyncEngine.Orchestration.Conservation
import SyncEngine.Orchestration.FailedTicks
import SyncEngine.Orchestration.Booking
import SyncEngine.Orchestration.Accounting
import SyncEngine.Orchestration.Lifecycle
import SyncEngine.Orchestration.ServerStates
import SyncEngine.Js.Overlay
import SyncEngine.Js.Reach
import SyncEngine.Js.Heap
import SyncEngine.Js.Realm
import SyncEngine.Js.Alike
import SyncEngine.Sync.ConflictResolver
import SyncEngine.Sync.DeepMerge
import SyncEngine.Sync.MergedOperations
import SyncEngine.Sync.Interpreters
import SyncEngine.Sync.StateSynchronizer
import SyncEngine.Sync.RemoteDelta
import SyncEngine.Sync.OwnUpdates
import SyncEngine.Sync.InStep
import SyncEngine.Sync.LocalSide
import SyncEngine.Sync.Lag
import SyncEngine.Sync.Replication
import SyncEngine.Sync.CatchUp
import SyncEngine.Sync.Redelivery
import SyncEngine.Sync.Addressing
import SyncEngine.Machine.FixedWindow
import SyncEngine.Security.Auth
import SyncEngine.Security.RateLimiter
import SyncEngine.Security.TieredRateLimiter
import SyncEngine.Security.TierFairness
import SyncEngine.Api.Routes
import SyncEngine.Api.Privileges
import SyncEngine.Security.Registration
import SyncEngine.Monitoring.MetricsCollector
import SyncEngine.Monitoring.MetricKeys
import SyncEngine.Monitoring.AlertManager
import SyncEngine.Monitoring.AlertTurns
import SyncEngine.Monitoring.ActiveAlerts
import SyncEngine.Monitoring.AlertFiring
import SyncEngine.Api.RateLimiting
import SyncEngine.Network.PoolLeases
import SyncEngine.Cluster.Failover
import SyncEngine.Core.DeliveryOnce
import SyncEngine.Core.DeliveryCounts
import SyncEngine.Network.Wire
import SyncEngine.Monitoring.Instruments
import SyncEngine.Js.Rounding
import SyncEngine.Js.Statistics
import SyncEngine.Machine.Recent
import SyncEngine.Monitoring.MetricHistory
import SyncEngine.Monitoring.AlertHistory
import SyncEngine.Security.Sessions
import SyncEngine.Persistence.LaterLives
import SyncEngine.Sync.Echo
import SyncEngine.Sync.RepeatedIncrements
import SyncEngine.Js.Tally
import SyncEngine.Monitoring.Exposition
