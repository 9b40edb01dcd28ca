import PgHa.Identity
import PgHa.Interruptible
import PgHa.LatestTimeline
import PgHa.Lease
import PgHa.SyncReplication

/-!
The state of the HA engine (`struct Ha` of `pg-ha-core/src/ha/mod.rs`) and the
world it acts on. A cycle waits only at environment calls. Each wait is one tick,
and the environment answers by tick, so that a run of the engine is a function of
its state and of all the answers. While the engine waits PostgreSQL may crash and
recovery that pg-ha did not configure may end; only pg-ha starts or promotes
PostgreSQL, and only pg-ha and PostgreSQL write `standby.signal`. Connection
strings, logging, the REST snapshot and the published member record are left out.
-/

namespace PgHa.HaState

open Text Cluster Identity Interruptible Lease SyncReplication LatestTimeline SyncNames

structure StandbyClusterConfig where
  host : Str
  port : Nat
  deriving DecidableEq

/-- The HA parameters of the `/config` key. -/
structure GlobalConfig where
  loopWait : Option Nat
  ttl : Option Nat
  retryTimeout : Option Nat
  maximumLagOnFailover : Option Nat
  sync : SyncConfig
  pause : Option Bool
  standbyCluster : Option StandbyClusterConfig
  deriving DecidableEq

/-- The `/failover` key. -/
structure Failover where
  leader : Option Str
  candidate : Option Str
  deriving DecidableEq

/-- `pause` is the flag in the view's own copy of `/config`. -/
structure ClusterView where
  leader : Option Str
  members : List Member
  initializeKey : Option Str
  failover : Option Failover
  syncState : Option SyncState
  timeline : ClusterTimeline
  dcsVoters : Option Nat
  pause : Option Bool

def ClusterView.isUnlocked (cluster : ClusterView) : Bool := cluster.leader.isNone

def ClusterView.getMember (cluster : ClusterView) (name : Str) : Option Member :=
  cluster.members.find? fun member => member.name == name

def ClusterView.hasMember (cluster : ClusterView) (name : Str) : Bool :=
  cluster.members.any fun member => member.name == name

inductive WatchdogMode where
  | off
  | automatic
  | required
  deriving DecidableEq

/-- The local configuration. -/
structure Config where
  name : Str
  nofailover : Bool
  failoverPriority : Nat
  replicatefrom : Option Str
  removeDataDirectoryOnRewindFailure : Bool
  watchdogMode : WatchdogMode
  safetyMargin : Nat
  deriving DecidableEq

/-- What the postmaster is; `recovering` is a recovery pg-ha did not configure. -/
inductive Server where
  | stopped
  | primary
  | standby
  | recovering
  deriving DecidableEq

/-- What pg-ha reads in the data directory, `standby.signal` apart. Reading the
generation, the histories or the postmaster's file may fail. -/
structure DataDirectory where
  empty : Except Str Bool
  recoverySignal : Bool
  rewindCheck : Bool
  rewindHold : Bool
  acceptTimelineLoss : Bool
  generation : Except Str Nat
  newestHistory : Except Str HistoryEvidence
  serverRun : Except Str (Option Str)

inductive ManagementCommand where
  | switchover (leader candidate scheduledAt : Option Str)
  | failover (candidate : Option Str)
  | cancelSwitchover
  | restart
  | reinitializeNode
  deriving DecidableEq

/-- The calls of `Postgresql::stop` in the source, by the function that makes them. -/
inductive StopSite where
  | stopPublishingNotPrimary
  | stopHeldPostgres
  | rejoinAsReplica
  | reconfigureReplica
  | handleRestartCommand
  | handleReinitializeCommand
  | stopObservedPostgresForShutdown
  deriving DecidableEq

/-- What pg-ha does as one operation. -/
inductive Operation where
  | cycle
  | leaseFence
  | command (command : ManagementCommand)
  | gracefulShutdown
  | continueShutdown
  | cascadePromote
  deriving DecidableEq

/-- What held when the engine made a call. -/
structure Moment where
  running : Bool
  identity : PgIdentity
  isLeader : Bool
  isLockOwner : Bool
  leaseLost : Bool
  stopPending : Bool
  watchdogActive : Bool
  recoverySignal : Bool
  deriving DecidableEq

/-- What held when the engine pets or disarms the watchdog. -/
structure WatchdogMoment where
  running : Bool
  paused : Bool
  isLeader : Bool
  unexpired : Bool
  deriving DecidableEq

/-- What a shutdown step came to (`ha/shutdown.rs`). -/
inductive ShutdownOutcome where
  | released
  | stoppedLockKept
  | fenced
  | standbyLeftRunning
  | keepRunning
  deriving DecidableEq

/-- What the engine did, for statements about the order of its calls. No step reads
it. -/
inductive Event where
  | began (operation : Operation)
  | observed (inRecovery : Option Bool)
  | wroteSignal (written : Bool)
  | removing (moment : Moment)
  | removedSignal
  | stop (site : StopSite) (moment : Moment)
  | stopEnded (site : StopSite) (failed : Bool)
  | start (moment : Moment)
  | promote (moment : Moment)
  | promoted
  | lockMissing
  | acquiring
  | lockWritten
  | deleteLeader (moment : Moment)
  | pendingWritten (pending : PendingPromote)
  | wonInitialize
  | armed
  | petted (moment : WatchdogMoment)
  | disarmed (moment : WatchdogMoment)
  | concluded (outcome : ShutdownOutcome)
  deriving DecidableEq

structure Ha where
  config : Config
  ttl : Nat
  cluster : ClusterView
  isLeader : Bool
  isPaused : Bool
  lastConfig : GlobalConfig
  startFailCount : Nat
  appliedSyncStandbyNames : Option Str
  syncPgListChangedFlushLsn : Option Nat
  stopPending : Bool
  promotePending : Option PendingPromote
  pendingHistory : Bool
  rewindHold : Bool
  rewindHoldPersisted : Bool
  leaderLease : Option LeaderLease
  fenceDeadline : Option LeaderLease
  shuttingDown : Bool
  watchdogActive : Bool
  role : MemberRole
  inRecovery : Option Bool
  startsBlocked : Bool
  server : Server
  standbySignal : Bool
  directory : DataDirectory
  -- A deadline was published that the wait for the lease has not looked at yet.
  unseen : Bool
  tick : Nat
  -- The newest event first.
  trace : List Event := []

/-- The answers of one run, by tick. `raced` while `run_cycle_bounded` waits for the
lease beside the cycle. -/
structure Env where
  raced : Bool
  mono : Nat → Nat
  wall : Nat → Nat
  /-- The wait for the lease looks at its clocks: at least once a second. -/
  noticed : Nat → Bool
  /-- A signal comes while `main.rs` waits for one beside the cycle. -/
  interrupted : Nat → Bool := fun _ => false
  crashes : Nat → Bool
  endsRecovery : Nat → Bool
  launches : Nat → Bool
  promotes : Nat → Bool
  /-- Files of the data directory that others write. -/
  files : Nat → DataDirectory → DataDirectory
  call : Nat → Except Str Unit
  /-- A file operation that the engine does not wait for. -/
  fileCall : Nat → Except Str Unit
  /-- A conditional write: applied, refused, or failed. -/
  swap : Nat → Except Str Bool
  cluster : Nat → Except Str ClusterView
  globalConfig : Nat → Option GlobalConfig
  answersAsPrimary : Nat → Option Bool
  controldataState : Nat → Option Str
  controldataTimeline : Nat → Option Nat
  primaryTimeline : Nat → Except Str TimelineId
  replicationStatus : Nat → Option ReplicationSnapshot
  watchdogDevice : Nat → Bool
  needsReload : Nat → Bool
  /-- A failed file operation did its part on `standby.signal` all the same. -/
  halfDone : Nat → Bool
  /-- The clone source the members' tags lead to. -/
  cloneSource : Nat → Option Str
  upstreamHost : Nat → Str
  needsUpstreamReconfig : Nat → Bool
  recentlyReconfigured : Nat → Bool
  commands : List ManagementCommand

abbrev HaProg := Prog Env Ha

def read {Value : Type} (field : Ha → Value) : HaProg Value := ask fun _ ha => field ha

def answer {Value : Type} (answers : Env → Nat → Value) : HaProg Value :=
  ask fun env ha => answers env ha.tick

def update (next : Ha → Ha) : HaProg Unit := change fun _ ha => next ha

def Ha.expired (ha : Ha) (env : Env) (lease : LeaderLease) : Bool :=
  lease.expiredAt (env.mono ha.tick) (env.wall ha.tick)

def Ha.isRunning (ha : Ha) : Bool := ha.server != .stopped

def Ha.pgIdentity (ha : Ha) : PgIdentity := classify ha.inRecovery ha.standbySignal

def Ha.isLockOwner (ha : Ha) : Bool := ha.cluster.leader == some ha.config.name

/-- The lease does not cover acting as the lock holder; never in pause mode. -/
def Ha.lostLease (ha : Ha) (env : Env) : Bool :=
  !ha.isPaused && (match ha.leaderLease with
    | none => true
    | some lease => ha.expired env lease)

def Ha.moment (ha : Ha) (env : Env) : Moment :=
  { running := ha.isRunning
    identity := ha.pgIdentity
    isLeader := ha.isLeader
    isLockOwner := ha.isLockOwner
    leaseLost := ha.lostLease env
    stopPending := ha.stopPending
    watchdogActive := ha.watchdogActive
    recoverySignal := ha.directory.recoverySignal }

def Ha.noted (ha : Ha) (event : Event) : Ha := { ha with trace := event :: ha.trace }

@[simp]
theorem noted_tick (ha : Ha) (event : Event) : (ha.noted event).tick = ha.tick := rfl

def note (event : Event) : HaProg Unit := update fun ha => ha.noted event

/-- What happens to the world during one wait. -/
def elapse (env : Env) (ha : Ha) : Ha :=
  let tick := ha.tick + 1
  { ha with
    tick := tick
    server :=
      if env.crashes tick then .stopped
      else if ha.server = .recovering ∧ env.endsRecovery tick then .primary
      else ha.server
    directory := env.files tick ha.directory }

/-- A wait beside the cycle returns: a signal has come, or the wait for the lease looks,
and the lease is over. -/
def dropped (env : Env) (ha : Ha) : Bool :=
  env.raced && (env.interrupted ha.tick ||
    (ha.unseen || env.noticed ha.tick) && ha.fenceDeadline.any (ha.expired env))

def await : HaProg Unit := do
  change elapse
  cutIf dropped
  update fun ha => { ha with unseen := false }

/-- An environment call that only succeeds or fails. -/
def attempt : HaProg (Except Str Unit) := do
  await
  answer Env.call

def swapWrite : HaProg (Except Str Bool) := do
  await
  answer Env.swap

/-- The lock is deleted if this node still holds it. -/
def deleteLeader : HaProg (Except Str Bool) := do
  change fun env ha => ha.noted (.deleteLeader (ha.moment env))
  swapWrite

def attemptToAcquireLeader : HaProg (Except Str Bool) := do
  note .acquiring
  swapWrite

/-! ### `postgresql.rs` -/

/-- The display of `Error::Postgres`. -/
def postgresError (message : Str) : Str := "PostgreSQL error: ".toList ++ message

/-- The truth, or no answer in time. -/
def observation (env : Env) (ha : Ha) : Option Bool :=
  match env.call ha.tick, ha.server with
  | .error _, _ | .ok (), .stopped => none
  | .ok (), .primary => some false
  | .ok (), .standby | .ok (), .recovering => some true

def observeRecovery : HaProg Unit := do
  let running ← read Ha.isRunning
  if running then do
    await
    change fun env ha =>
      Ha.noted { ha with inRecovery := observation env ha } (.observed (observation env ha))
  else update fun ha => { ha with inRecovery := none }

def stop (site : StopSite) : HaProg (Except Str Unit) := do
  change fun env ha => Ha.noted { ha with inRecovery := none } (.stop site (ha.moment env))
  await
  change fun env ha =>
    match env.call ha.tick with
    | .ok () => Ha.noted { ha with server := .stopped } (.stopEnded site false)
    | .error _ => ha.noted (.stopEnded site true)
  let stopped ← answer Env.call
  await
  match stopped with
  | .ok () => pure (.ok ())
  | .error _ => pure (.error (postgresError "pg_ctl stop failed".toList))

/-- What a server that starts now becomes. -/
def bootKind (ha : Ha) : Server :=
  if ha.standbySignal then .standby
  else if ha.directory.recoverySignal then .recovering
  else .primary

def launch : HaProg Unit :=
  change fun env ha =>
    if ha.server = .stopped ∧ env.launches ha.tick then { ha with server := bootKind ha } else ha

/-- The ten looks at `postmaster.pid` after `pg_ctl start` reported success. -/
def pollStarted : Nat → HaProg (Except Str Unit)
  | 0 => pure (.error (postgresError "PostgreSQL did not start within timeout".toList))
  | looks + 1 => do
      await
      launch
      let running ← read Ha.isRunning
      if running then pure (.ok ()) else pollStarted looks

def start : HaProg (Except Str Unit) := do
  let blocked ← read Ha.startsBlocked
  if blocked then
    pure (.error
      (postgresError "graceful shutdown in progress: not starting PostgreSQL".toList))
  else do
    change fun env ha => Ha.noted { ha with inRecovery := none } (.start (ha.moment env))
    await
    launch
    let started ← answer Env.call
    await
    match started with
    | .error e => pure (.error (postgresError ("pg_ctl start failed: ".toList ++ e)))
    | .ok () => do
        let running ← read Ha.isRunning
        if running then pure (.ok ()) else pollStarted 10

/-- PostgreSQL removes `standby.signal` when it is promoted. -/
def promote : HaProg (Except Str Unit) := do
  change fun env ha => Ha.noted { ha with inRecovery := none } (.promote (ha.moment env))
  await
  change fun env ha =>
    if (ha.server = .standby ∨ ha.server = .recovering) ∧ env.promotes ha.tick then
      Ha.noted { ha with server := .primary, standbySignal := false } .promoted
    else ha
  let promoted ← answer Env.call
  await
  match promoted with
  | .ok () => pure (.ok ())
  | .error e => pure (.error (postgresError ("pg_ctl promote failed: ".toList ++ e)))

/-- The entries go one by one, so a failed removal may have taken any of them. -/
def removeDataDirectory : HaProg (Except Str Unit) := do
  change fun env ha => ha.noted (.removing (ha.moment env))
  change fun env ha =>
    match env.fileCall ha.tick with
    | .ok () =>
        Ha.noted
          { ha with
            standbySignal := false
            directory :=
              { ha.directory with
                empty := .ok true
                recoverySignal := false
                rewindCheck := false
                rewindHold := false
                acceptTimelineLoss := false } }
          .removedSignal
    | .error _ =>
        Ha.noted
          { ha with
            standbySignal := ha.standbySignal && !env.halfDone ha.tick
            directory := env.files ha.tick ha.directory }
          .removedSignal
  answer Env.fileCall

/-! ### `ha/lease.rs` and the watchdog -/

def leaseAnchor : HaProg LeaseAnchor :=
  ask fun env ha => ⟨env.mono ha.tick, env.wall ha.tick⟩

def publishFenceDeadline : HaProg Unit :=
  update fun ha =>
    { ha with
      fenceDeadline := if ha.isPaused then none else ha.leaderLease
      unseen := true }

def setLeaderLease (lease : Option LeaderLease) : HaProg Unit := do
  update fun ha => { ha with leaderLease := lease }
  publishFenceDeadline

def extendLeaderLease (anchor : LeaseAnchor) : HaProg Unit := do
  let ttl ← read Ha.ttl
  let margin ← read fun ha => ha.config.safetyMargin
  note .lockWritten
  setLeaderLease (some (.new anchor ttl margin))

def leaseLost : HaProg Bool := ask fun env ha => ha.lostLease env

def Ha.unexpired (ha : Ha) (env : Env) : Bool :=
  ha.leaderLease.any fun lease => !ha.expired env lease

def Ha.watchdogMoment (ha : Ha) (env : Env) : WatchdogMoment :=
  { running := ha.isRunning
    paused := ha.isPaused
    isLeader := ha.isLeader
    unexpired := ha.unexpired env }

def watchdogUsable (env : Env) (ha : Ha) : Bool :=
  ha.config.watchdogMode != .required || ha.watchdogActive || env.watchdogDevice ha.tick

/-- Only a required watchdog whose device cannot be opened is an error. -/
def armWatchdog : HaProg (Except Str Unit) := do
  let active ← read Ha.watchdogActive
  let mode ← read fun ha => ha.config.watchdogMode
  let device ← answer Env.watchdogDevice
  if active || mode == .off then pure (.ok ())
  else if device then do
    update fun ha => Ha.noted { ha with watchdogActive := true } .armed
    pure (.ok ())
  else if mode == .required then
    pure (.error "the watchdog is required but could not be activated".toList)
  else pure (.ok ())

def keepalive : HaProg Unit :=
  change fun env ha =>
    if ha.watchdogActive then ha.noted (.petted (ha.watchdogMoment env)) else ha

def disarm : HaProg Unit :=
  change fun env ha =>
    if ha.watchdogActive then
      Ha.noted { ha with watchdogActive := false } (.disarmed (ha.watchdogMoment env))
    else ha

def reconcileWatchdog : HaProg Unit := do
  let active ← read Ha.watchdogActive
  if active then do
    let unobserved ← read fun ha => ha.isRunning && ha.inRecovery.isNone
    (if unobserved then observeRecovery else pure ())
    let action ← ask fun env ha =>
      watchdogAction ha.isRunning ha.inRecovery ha.isPaused (ha.isLeader && ha.unexpired env)
    match action with
    | .pet => keepalive
    | .hold => pure ()
    | .disarm => disarm
  else pure ()

end PgHa.HaState
