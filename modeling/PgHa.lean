import PgHa.Transition
import PgHa.StateMachine
import PgHa.LeaderLock
import PgHa.BoundedWrite
import PgHa.LateLockWrite
import PgHa.SharedKeys
import PgHa.Lease
import PgHa.RaftStore
import PgHa.SyncNames
import PgHa.SyncReplication
import PgHa.SyncCommit
import PgHa.LatestTimeline
import PgHa.TimelineProtocol
import PgHa.TimelineNumbers
import PgHa.Interruptible
import PgHa.Identity
import PgHa.HaState
import PgHa.Election
import PgHa.HaHelpers
import PgHa.HaFollow
import PgHa.HaCycle
import PgHa.HaFrames
import PgHa.PrimaryFenced
import PgHa.ElectionAgreement
import PgHa.MemberRecord
import PgHa.LogStore
import PgHa.DurableStore
import PgHa.ConfigTiming
import PgHa.ConfigPatch
import PgHa.HaShutdown
import PgHa.CallOrder
import PgHa.CallSteps
import PgHa.CallGates
import PgHa.CallRuns
import PgHa.ShutdownSafe
import PgHa.WatchdogRuns
import PgHa.VersionCas
import PgHa.HistoryLog
import PgHa.ClusterSnapshot
import PgHa.ExpiryTransparent
import PgHa.RaftIdentity
import PgHa.TimelineWrites
import PgHa.TimingUse
import PgHa.MergePatch
import PgHa.DynamicConfig
import PgHa.SyncChoice
import PgHa.ReplicaWal
import PgHa.TextLines
import PgHa.TimelineFiles
import PgHa.ConnInfo
import PgHa.ConfFile
import PgHa.StandbyConfig
import PgHa.Upstream
import PgHa.DataRemoval
import PgHa.SwitchoverSuccessor
import PgHa.RootReach
import PgHa.CascadeTopology
import PgHa.HistoryFiles
import PgHa.KeyMask
import PgHa.Redaction
import PgHa.WalAppend
import PgHa.KeyedTable
import PgHa.RiseFall
import PgHa.SessionMonitor
import PgHa.Proxy
import PgHa.ProxyRegistry
import PgHa.ProxyPrimary
import PgHa.ProxySessions
import PgHa.ProxyRouting
import PgHa.ProxyLimits
import PgHa.RoundRobin
import PgHa.ProxyListener
import PgHa.Hysteresis
import PgHa.ProxyOutcomes
import PgHa.ProxyFailover
import PgHa.Base64
import PgHa.RestAuth
import PgHa.PollWait
import PgHa.LeaseWait
import PgHa.Simulation
import PgHa.Replication
import PgHa.RaftCluster
import PgHa.NumberedList
import PgHa.LogReader
import PgHa.PauseSteps
import PgHa.PauseSafe
import PgHa.RankedPrefix
import PgHa.SyncSettles
import PgHa.ManagedBlock
import PgHa.ProxyRefresh
import PgHa.CommandQueue
import PgHa.LastingKey
import PgHa.TimelineUpdates
import PgHa.ClusterBootstrap
import PgHa.CrashDisk
import PgHa.AtomicWrite
