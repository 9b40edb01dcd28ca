import PgHa.HaFollow

/-!
`ha/mod.rs` and the election of `ha/election.rs`: one HA cycle with every branch, and
`run_cycle_bounded`, which drops it when the leader lease runs out.
-/

namespace PgHa.HaCycle

open Text Cluster Identity LatestTimeline Interruptible Lease HaState Election HaHelpers HaFollow

/-! ### Under the lock -/

def promoteAndConfirm : HaProg CycleResult := do
  let armed ← armWatchdog
  match armed with
  | .error e => do
      releaseLockAsStandby
      pure (.error ("not promoting: ".toList ++ e))
  | .ok () => do
      let recorded ← recordPendingPromote
      match recorded with
      | .error e => pure (.error ("not promoting: ".toList ++ e))
      | .ok pending => do
          let lost ← leaseLost
          if lost then fenceAtLeaseCheck "pg_ctl promote".toList
          else do
            let promoted ← promote
            match promoted with
            | .error e => pure (.error ("Promote failed: ".toList ++ e))
            | .ok () => do
                observeRecovery
                let identity ← read Ha.pgIdentity
                if identity = .primary then do
                  setRole .primary
                  confirmPromote pending
                  touchMember
                  enforceSynchronousReplication
                  let name ← read fun ha => ha.config.name
                  pure (.leader ("promoted to primary. I am (".toList ++ name ++
                    "), the leader with the lock".toList))
                else do
                  touchMember
                  pure (.error ("promote reported success but PostgreSQL is ".toList ++
                    identity.describe ++ "; not acting as primary".toList))

/-- PostgreSQL is stopped before the lock is given back. -/
def relinquishUnmanagedRecovery : HaProg CycleResult := do
  let recovery ← read fun ha => ha.directory.recoverySignal
  let paused ← read Ha.isPaused
  let cause := unmanagedCause recovery
  if paused then do
    touchMember
    pure (.error ("holding the leader lock in unmanaged recovery (".toList ++ cause ++
      "); paused, not acting as primary".toList))
  else do
    let stopped ←
      (if recovery then stopPreservingRecoveryIntent
      else do
        let _ ← prepareDemotion true
        stopAfterDemotionWrite)
    let running ← read Ha.isRunning
    if !stopped.isOk || running then do
      touchMember
      pure (.error ("holding the leader lock in unmanaged recovery (".toList ++ cause ++
        "); stop failed, fencing until stopped".toList))
    else do
      let released ← releaseLeaderLockIfStopped
      touchMember
      if released then
        pure (.error ("released leader lock: PostgreSQL in unmanaged recovery (".toList ++ cause ++
          "); operator action required".toList))
      else
        pure (.error ("stopped PostgreSQL in unmanaged recovery (".toList ++ cause ++
          "), but the leader lock was not released".toList))

/-- The standby leader holds the lock and replicates from the remote source.
`enforce_follow_remote_member` asks whether PostgreSQL is observed in recovery. -/
def enforceStandbyLeaderRole : HaProg CycleResult := do
  let config ← read fun ha => ha.lastConfig.standbyCluster
  let name ← read fun ha => ha.config.name
  match config with
  | none => pure (.leader "standby_cluster config missing — cascade promote may be needed".toList)
  | some remote => do
      let source := remote.host ++ ":".toList ++ decimal remote.port
      let following ← read fun ha => ha.isRunning && ha.inRecovery == some true
      if following then do
        setRole .standbyLeader
        touchMember
        recordStandbyLeaderTimeline
        pure (.leader ("no action. I am (".toList ++ name ++
          "), the standby leader replicating from ".toList ++ source))
      else do
        touchMember
        pure (.leader ("standby leader (".toList ++ name ++
          "), reconfiguration needed for remote ".toList ++ source))

/-- Staying primary under the lock. -/
def hold : HaProg CycleResult := do
  let lost ← leaseLost
  if lost then fenceAtLeaseCheck "reporting the leader role".toList
  else do
    let armed ← armWatchdog
    match armed with
    | .error _ => do
        setLeaderLease none
        fenceAtLeaseCheck "activating the required watchdog".toList
    | .ok () => do
        setRole .primary
        touchMember
        recordClusterTimeline
        enforceSynchronousReplication
        appendPendingHistory
        let name ← read fun ha => ha.config.name
        pure (.leader ("no action. I am (".toList ++ name ++ "), the leader with the lock".toList))

def enforcePrimaryRole : HaProg CycleResult := do
  let isStandby ← read fun ha => ha.lastConfig.standbyCluster.isSome
  let identity ← read Ha.pgIdentity
  if isStandby then enforceStandbyLeaderRole
  else match leaderAction identity with
    | .hold => hold
    | .promote => promoteAndConfirm
    | .relinquish => relinquishUnmanagedRecovery
    | .wait => do
        touchMember
        pure (.error ("holding the leader lock but PostgreSQL is ".toList ++ identity.describe ++
          "; not acting as primary this cycle".toList))

/-- A failed write still stops PostgreSQL. -/
def demote : HaProg CycleResult := do
  resetSyncCache
  let written ← prepareDemotion true
  let _ ← stopAfterDemotionWrite
  setRole .replica
  match written with
  | .ok () =>
      pure (.follower "demoted self because failed to update leader lock in DCS".toList)
  | .error e =>
      pure (.error (("demoted self because failed to update leader lock in DCS, but standby " ++
        "configuration could not be written: ").toList ++ e))

/-- The cluster has a leader: renew the lock, or follow its holder. -/
def processHealthyCluster (lockOwner : Str) : HaProg CycleResult := do
  let name ← read fun ha => ha.config.name
  if lockOwner = name then do
    let anchor ← leaseAnchor
    let renewed ← swapWrite
    match renewed with
    | .ok true => do
        setLeader true
        extendLeaderLease anchor
        let pending ← read fun ha => ha.stopPending && ha.isRunning
        if pending then do
          let _ ← retryPendingStop
          pure (.error "leader lock held but PostgreSQL stop is still pending".toList)
        else enforcePrimaryRole
    | .ok false => do
        setLeaderLease none
        setLeader false
        let paused ← read Ha.isPaused
        if paused then
          pure (.leader "continue running as primary in pause mode despite lock failure".toList)
        else demote
    | .error _ => do
        setLeaderLease none
        setLeader false
        let paused ← read Ha.isPaused
        if paused then pure (.leader "continue in pause mode despite DCS error".toList)
        else demote
  else do
    setLeader false
    followUpstream lockOwner

/-! ### Election -/

/-- May this node take part at all? Some result ends the cycle. -/
def checkStance : HaProg (Option CycleResult) := do
  let identity ← read Ha.pgIdentity
  let pending ← read Ha.stopPending
  match electionStance identity pending with
  | .participate => pure none
  | .standAside => do
      touchMember
      pure (some (.error
        "PostgreSQL in unmanaged recovery; not taking part in the election".toList))
  | .fence => do
      let fenced ← fencePrimary
      match fenced with
      | .ok () => pure (some (.follower "stopped PostgreSQL: a demotion stop had failed".toList))
      | .error e => pure (some (.error ("Fence stop failed: ".toList ++ e)))
  | .wait => do
      touchMember
      pure (some (.follower ("PostgreSQL is ".toList ++ identity.describe ++
        "; not taking part in the election this cycle".toList)))

/-- Why this node stands aside, when its own record says so. -/
def standAside : OwnEligibility → Option Ineligible
  | .eligible | .override _ => none
  | .overrideIgnored why _ | .ineligible why => some why

/-- A primary that may not campaign is stopped; a standby only waits. -/
def checkEligible : HaProg (Option CycleResult) := do
  let own ← ask fun env ha => ownEligibility (watchdogUsable env ha) ha
  match standAside own with
  | none => pure none
  | some why => do
      let message := "not taking part in the election: ".toList ++ displayIneligible why
      let identity ← read Ha.pgIdentity
      if identity = .primary then do
        let fenced ← fencePrimary
        match fenced with
        | .error e =>
            pure (some (.error ("stop failed for an ineligible primary: ".toList ++ e)))
        | .ok () => pure (some (.follower (message ++ "; stopped PostgreSQL".toList)))
      else do
        touchMember
        pure (some (.follower message))

/-- A former primary that is not the healthiest is stopped. -/
def checkStale : HaProg (Option CycleResult) := do
  let stale ← ask fun env ha =>
    ha.pgIdentity == .primary && !isHealthiestNode (watchdogUsable env ha) ha &&
      !ha.cluster.members.isEmpty
  if stale then do
    let fenced ← fencePrimary
    match fenced with
    | .error e => pure (some (.error ("stale primary: stop failed: ".toList ++ e)))
    | .ok () => do
        touchMember
        pure (some (.follower
          ("stale primary: stopped PostgreSQL; it will start as a standby and be rewound once a " ++
            "leader runs as a primary").toList))
  else pure none

/-- A designated candidate alone may attempt; the leader that was asked to step
down may not; otherwise the healthiest node does. -/
def shouldAttempt (env : Env) (ha : Ha) : Bool :=
  match honouredCandidate ha with
  | some candidate =>
      candidate == ha.config.name &&
        syncFailoverAllowed ha.config.name (syncMode ha) ha.cluster.syncState
  | none =>
      excludedSwitchoverLeader ha != some ha.config.name &&
        isHealthiestNode (watchdogUsable env ha) ha

/-- What a node that makes no attempt reports. -/
def noAttempt (ha : Ha) : CycleResult :=
  match honouredCandidate ha with
  | some candidate =>
      if candidate = ha.config.name then
        .follower "designated candidate is not sync-eligible — not acquiring lock".toList
      else .follower ("deferring to designated candidate (".toList ++ candidate ++ ")".toList)
  | none =>
      if excludedSwitchoverLeader ha = some ha.config.name then
        .follower "switchover asked this node to step down; not taking part in the election".toList
      else .follower "not the healthiest node, waiting for election".toList

/-- The lock is acquired; a pending history entry is noted, unless this is a
standby cluster, and the failover key cleared. -/
def acquireLeader : HaProg CycleResult := do
  let anchor ← leaseAnchor
  let acquired ← attemptToAcquireLeader
  match acquired with
  | .ok true => do
      setLeader true
      extendLeaderLease anchor
      update fun ha => { ha with pendingHistory := ha.lastConfig.standbyCluster.isNone }
      let _ ← attempt
      enforcePrimaryRole
  | .ok false => do
      setLeader false
      pure (.follower "failed to acquire lock, following new leader".toList)
  | .error e => pure (.error ("Leader acquisition error: ".toList ++ e))

def campaign : HaProg CycleResult := do
  let attempts ← ask shouldAttempt
  if attempts then acquireLeader
  else do
    setLeader false
    read noAttempt

/-- The first of the checks with a result ends the cycle. -/
def firstResult : List (HaProg (Option CycleResult)) → HaProg CycleResult → HaProg CycleResult
  | [], last => last
  | check :: rest, last => do
      let found ← check
      match found with
      | some result => pure result
      | none => firstResult rest last

/-- The cluster has no leader: run the election. -/
def processUnhealthyCluster : HaProg CycleResult := do
  let paused ← read Ha.isPaused
  if paused then pure (.follower "no action in pause mode (cluster has no leader)".toList)
  else
    firstResult [enforceGeneration, enforceRewindHold, checkStance, checkEligible, checkStale]
      campaign

/-! ### PostgreSQL is not there -/

/-- The lock is given back first; some result ends the cycle. -/
def releaseWhileDown : HaProg (Option CycleResult) := do
  let owner ← read Ha.isLockOwner
  let paused ← read Ha.isPaused
  if !owner then pure none
  else if paused then pure (some (.leader "postgres not running (paused)".toList))
  else do
    let deleted ← deleteLeader
    match deleted with
    | .ok _ => do
        setLeader false
        resetSyncCache
        pure none
    | .error e =>
        pure (some (.error ("not starting PostgreSQL: leader lock release failed: ".toList ++ e)))

def checkPaused (message : Str) : HaProg (Option CycleResult) := do
  let paused ← read Ha.isPaused
  pure (if paused then some (.follower message) else none)

/-- After three failed starts the node rejoins by pg_rewind. -/
def rejoinAfterFailedStarts : HaProg (Option CycleResult) := do
  let failing ← read fun ha => decide (3 ≤ ha.startFailCount) && ha.standbySignal
  if failing then do
    update fun ha => { ha with startFailCount := 0 }
    let leader ← read fun ha => ha.cluster.leader.filter fun name => name != ha.config.name
    match leader with
    | some name => do
        let result ← rejoinAsReplica name
        pure (some result)
    | none => pure none
  else pure none

def startAsStandby : HaProg CycleResult := do
  let prepared ← prepareStandbyStart
  match prepared with
  | .error e =>
      pure (.error ("not starting PostgreSQL: standby configuration could not be written: ".toList
        ++ e))
  | .ok () => do
      let started ← start
      match started with
      | .ok () => do
          update fun ha => { ha with startFailCount := 0 }
          pure (.follower "started PostgreSQL, recovering".toList)
      | .error e => do
          update fun ha => { ha with startFailCount := ha.startFailCount + 1 }
          let count ← read Ha.startFailCount
          pure (.error ("Failed to start PostgreSQL: ".toList ++ e ++ " (attempt ".toList ++
            decimal count ++ ")".toList))

def handlePostgresNotRunning : HaProg CycleResult :=
  firstResult
    [releaseWhileDown, checkPaused "postgres is not running (paused)".toList, enforceGeneration,
      enforceRewindHold, rejoinAfterFailedStarts]
    startAsStandby

inductive BootstrapResult where
  | initializedAsPrimary
  | clonedAsReplica
  | lostRace
  | failed (message : Str)

/-- The winner of the race for `/initialize` runs initdb or the configured command
and starts PostgreSQL. The SQL and the `/config` value written after the start are
one wait. -/
def bootstrapNewCluster : HaProg BootstrapResult := do
  let won ← swapWrite
  match won with
  | .error e => pure (.failed ("DCS initialize error: ".toList ++ e))
  | .ok false => pure .lostRace
  | .ok true => do
      note .wonInitialize
      let created ← attempt
      match created with
      | .error e => do
          let _ ← removeDataDirectory
          pure (.failed e)
      | .ok () => do
          let started ← start
          match started with
          | .error e => do
              let _ ← removeDataDirectory
              pure (.failed ("Start after bootstrap failed: ".toList ++ e))
          | .ok () => do
              await
              pure .initializedAsPrimary

def configureClone : HaProg (Except Str Unit) := do
  let removed ← removeNodeStateFiles
  match removed with
  | .error e => pure (.error e)
  | .ok () => writeStandbyConfig

def cloneFromMember : HaProg BootstrapResult := do
  let source ← answer Env.cloneSource
  match source with
  | none => pure (.failed "No suitable clone source found".toList)
  | some name => do
      let cloned ← basebackup
      match cloned with
      | .error e => do
          let _ ← removeDataDirectory
          pure (.failed ("Clone from ".toList ++ name ++ " failed: ".toList ++ e))
      | .ok () => do
          let configured ← configureClone
          match configured with
          | .error e => do
              let _ ← removeDataDirectory
              pure (.failed ("Standby configuration after clone failed: ".toList ++ e))
          | .ok () => pure .clonedAsReplica

def lockBootstrapped : HaProg CycleResult := do
  observeRecovery
  let primary ← read fun ha => ha.inRecovery == some false
  (if primary then setRole .primary else pure ())
  let anchor ← leaseAnchor
  let acquired ← attemptToAcquireLeader
  match acquired with
  | .ok true => do
      setLeader true
      extendLeaderLease anchor
      touchMember
      pure (.leader "bootstrapped new cluster as leader".toList)
  | .ok false | .error _ => do
      setLeader false
      pure (.acquiring "bootstrapped but failed to acquire leader lock".toList)

def initializeCluster : HaProg CycleResult := do
  let usable ← ask watchdogUsable
  if !usable then do
    touchMember
    pure (.follower
      ("not bootstrapping: the watchdog is required but cannot be used on this node; waiting " ++
        "for another node to initialize the cluster").toList)
  else do
    let bootstrapped ← bootstrapNewCluster
    match bootstrapped with
    | .initializedAsPrimary => lockBootstrapped
    | .lostRace => pure (.acquiring "lost initialization race, waiting".toList)
    | .failed e => pure (.error ("Bootstrap failed: ".toList ++ e))
    | .clonedAsReplica => pure (.follower "cloned as replica".toList)

def cloneAndStart : HaProg CycleResult := do
  let cloned ← cloneFromMember
  match cloned with
  | .clonedAsReplica => do
      let started ← start
      match started with
      | .ok () => do
          setRole .replica
          resetSyncCache
          pure (.follower "cloned and started as replica".toList)
      | .error e => pure (.error ("Start after clone failed: ".toList ++ e))
  | .failed e => pure (.error ("Clone failed: ".toList ++ e))
  | .initializedAsPrimary | .lostRace => pure (.acquiring "waiting for leader to clone from".toList)

def handleEmptyDataDir : HaProg CycleResult := do
  let paused ← read Ha.isPaused
  let fresh ← read fun ha => ha.cluster.isUnlocked && ha.cluster.initializeKey.isNone
  let peers ← read fun ha => !ha.cluster.members.isEmpty || ha.cluster.leader.isSome
  if paused then pure (.follower "data directory empty (paused)".toList)
  else if fresh then initializeCluster
  else if peers then cloneAndStart
  else pure (.acquiring "waiting for leader to clone from".toList)

/-! ### Commands -/

inductive CommandResponse where
  | accepted (message : Str)
  | rejected (message : Str)
  | error (message : Str)

def rejectIfIneligibleCandidate (ha : Ha) (candidate : Str) : Option Str :=
  let named (text : Str) : Str := "Candidate '".toList ++ candidate ++ text
  match ha.cluster.getMember candidate with
  | none => some (named "' not found".toList)
  | some member =>
      if member.isNofailover then some (named "' has nofailover tag".toList)
      else if member.state != .running then some (named "' is not running".toList)
      else if member.rewindCheck then
        some (named "' has a rewind-check marker (not yet verified with pg_rewind)".toList)
      else if member.watchdogFailed then
        some (named "' cannot use its required watchdog".toList)
      else if syncFailoverAllowed candidate (syncMode ha) ha.cluster.syncState then none
      else some (named
        "' is not a synchronous standby (sync mode requires /sync membership)".toList)

/-- The checks of a switchover, in their order. -/
def refuseSwitchover (ha : Ha) (leader candidate scheduledAt : Option Str) : Option Str :=
  if !ha.isLeader then some "This node is not the leader".toList
  else match leader.filter fun expected => expected != ha.config.name with
    | some expected =>
        some ("Leader mismatch: expected '".toList ++ expected ++ "', actual '".toList ++
          ha.config.name ++ "'".toList)
    | none =>
        match candidate.bind (rejectIfIneligibleCandidate ha) with
        | some reason => some reason
        | none =>
            if scheduledAt.isSome then
              some ("scheduled switchover is not implemented; omit scheduled_at for an " ++
                "immediate switchover").toList
            else if candidate.isNone && !hasSwitchoverSuccessor ha then
              some ("No other running member can take over; refusing switchover without a " ++
                "candidate").toList
            else none

def alsoFailed (written : Except Str Unit) : Str :=
  match written with
  | .ok () => []
  | .error e => "; writing standby configuration also failed: ".toList ++ e

/-- Standby configuration, stop, and only then the lock. -/
def stepDown : HaProg CommandResponse := do
  let written ← prepareDemotion false
  let stopped ← stopAfterDemotionWrite
  setRole .replica
  match stopped with
  | .error e =>
      pure (.error ("Switchover initiated, but stopping PostgreSQL failed: ".toList ++ e ++
        "; pg-ha keeps fencing it and holds the leader lock".toList ++ alsoFailed written))
  | .ok () => do
      let released ← releaseLeaderLockIfStopped
      if !released then
        pure (.error (("Switchover stopped PostgreSQL, but the leader lock was not " ++
          "released").toList ++ alsoFailed written))
      else match written with
        | .error e =>
            pure (.error (("Switchover initiated and PostgreSQL stopped, but writing standby " ++
              "configuration failed: ").toList ++ e))
        | .ok () => pure (.accepted "Switchover initiated, leader lock released".toList)

def handleSwitchoverCommand (leader candidate scheduledAt : Option Str) :
    HaProg CommandResponse := do
  let refused ← read fun ha => refuseSwitchover ha leader candidate scheduledAt
  match refused with
  | some reason => pure (.rejected reason)
  | none => do
      let written ← attempt
      match written with
      | .error e =>
          pure (.error ("Switchover aborted: failed to write /failover: ".toList ++ e))
      | .ok () => do
          let renewed ← renewHeldLock
          if renewed then stepDown
          else do
            let _ ← fenceForLostLease
            pure (.error ("Switchover aborted: leader lock renewal failed; pg-ha keeps fencing " ++
              "it and holds the leader lock").toList)

def handleFailoverCommand (candidate : Option Str) : HaProg CommandResponse := do
  let refused ← read fun ha => candidate.bind (rejectIfIneligibleCandidate ha)
  match refused with
  | some reason => pure (.rejected reason)
  | none => do
      let written ← attempt
      match written with
      | .error e => pure (.error ("Failover aborted: failed to write /failover: ".toList ++ e))
      | .ok () => pure (.accepted "Failover request submitted".toList)

/-- Under the lock `standby.signal` stays absent. -/
def stopUnderLock : HaProg (Except Str Unit) := do
  publishNotPrimary
  let stopped ← stop .handleRestartCommand
  publishNotPrimary
  update fun ha => { ha with stopPending := !stopped.isOk }
  pure stopped

def startRestarted : HaProg CommandResponse := do
  let started ← start
  match started with
  | .error e => pure (.error ("Start failed: ".toList ++ e))
  | .ok () => pure (.accepted "PostgreSQL restarted".toList)

def restart : HaProg CommandResponse := do
  let holding ← read fun ha => ha.isLeader && ha.isLockOwner
  if holding then do
    let stopped ← stopUnderLock
    match stopped with
    | .error e =>
        pure (.error ("Stop failed: ".toList ++ e ++
          "; pg-ha keeps fencing it and holds the leader lock".toList))
    | .ok () => startRestarted
  else do
    let prepared ← prepareStandbyStart
    match prepared with
    | .error e =>
        pure (.error (("Not restarting PostgreSQL: standby configuration could not be " ++
          "written: ").toList ++ e))
    | .ok () => do
        let stopped ← stopAfterDemotionWrite
        match stopped with
        | .error e => pure (.error ("Stop failed: ".toList ++ e))
        | .ok () => startRestarted

def handleRestartCommand : HaProg CommandResponse := do
  let stale ← read fun ha => (staleGeneration ha).isSome
  if stale then
    pure (.rejected
      ("Restart refused: this node's data belongs to an older history generation; POST " ++
        "/reinitialize it").toList)
  else do
    let held ← refreshRewindHold
    if held then
      pure (.rejected
        ("PostgreSQL is held after a pg_rewind failure; use POST /reinitialize (see the ERROR " ++
          "log)").toList)
    else restart

def reinitializeStopped : HaProg CommandResponse := do
  let removed ← removeDataDirectory
  match removed with
  | .error e => pure (.error ("Remove data dir failed: ".toList ++ e))
  | .ok () => do
      clearRewindHold
      pure (.accepted "Node reinitialized, will clone on next cycle".toList)

def handleReinitializeCommand : HaProg CommandResponse := do
  let isLeader ← read Ha.isLeader
  let exposed ← read fun ha => ha.isRunning && ha.pgIdentity == .primary
  if isLeader then pure (.rejected "Cannot reinitialize the leader node".toList)
  else if exposed then do
    let fenced ← fencePrimary
    match fenced with
    | .error e =>
        pure (.error ("Reinitialize: stopping PostgreSQL failed: ".toList ++ e ++
          "; data directory not removed (pg-ha keeps fencing it)".toList))
    | .ok () => reinitializeStopped
  else do
    let _ ← stop .handleReinitializeCommand
    reinitializeStopped

def handleCommand (command : ManagementCommand) : HaProg CommandResponse := do
  note (.began (.command command))
  let shuttingDown ← read Ha.shuttingDown
  if shuttingDown then
    pure (.rejected "Graceful shutdown in progress; command rejected".toList)
  else match command with
    | .switchover leader candidate scheduledAt =>
        handleSwitchoverCommand leader candidate scheduledAt
    | .failover candidate => handleFailoverCommand candidate
    | .cancelSwitchover => pure (.accepted "Scheduled switchover cancelled".toList)
    | .restart => handleRestartCommand
    | .reinitializeNode => handleReinitializeCommand

/-- Each answer goes back to its sender. -/
def processCommands : List ManagementCommand → HaProg Unit
  | [] => pure ()
  | command :: rest => do
      let _ ← handleCommand command
      await
      processCommands rest

/-! ### The cycle -/

/-- Takes effect at once, the lock TTL with it. -/
def applyNewConfig (new : GlobalConfig) (ha : Ha) : Ha :=
  { ha with
    isPaused := new.pause.getD ha.isPaused
    ttl := if ha.lastConfig = new then ha.ttl else new.ttl.getD ha.ttl
    lastConfig := new }

def processDynamicConfig : HaProg Unit := do
  await
  let config ← answer Env.globalConfig
  match config with
  | none => pure ()
  | some new => do
      update (applyNewConfig new)
      let reloads ← ask fun env ha => env.needsReload ha.tick && ha.isRunning
      if reloads then await else pure ()

def handleDcsError : HaProg CycleResult := do
  let isLeader ← read Ha.isLeader
  if isLeader then do
    setLeader false
    resetSyncCache
    let written ← prepareDemotion true
    let _ ← stopAfterDemotionWrite
    setRole .replica
    match written with
    | .ok () => pure (.error "DCS unreachable: demoted to prevent split-brain".toList)
    | .error e =>
        pure (.error (("DCS unreachable: demoted to prevent split-brain, but standby " ++
          "configuration could not be written: ").toList ++ e))
  else do
    let pending ← read fun ha => ha.stopPending && ha.isRunning
    (if pending then do
      let _ ← retryPendingStop
      pure ()
    else pure ())
    pure (.error "DCS unreachable".toList)

/-- The view of this cycle. The pending promote and the lease belong to one lock
term. -/
def takeView (view : ClusterView) : HaProg Unit := do
  update fun ha => { ha with cluster := view, isPaused := view.pause.getD false }
  let owner ← read Ha.isLockOwner
  if owner then pure ()
  else do
    update fun ha =>
      Ha.noted { ha with promotePending := none, pendingHistory := false } .lockMissing
    setLeaderLease none

/-- Steps 1b to 4; some result ends the cycle. -/
def prepareCycle (view : ClusterView) : HaProg (Option CycleResult) := do
  takeView view
  processDynamicConfig
  publishFenceDeadline
  let registered ← read fun ha => ha.cluster.hasMember ha.config.name
  (if registered then pure () else touchMember)
  let empty ← read fun ha => ha.directory.empty
  match empty with
  | .error e => pure (some (.error ("Data directory error: ".toList ++ e)))
  | .ok true => do
      let result ← handleEmptyDataDir
      pure (some result)
  | .ok false => do
      let running ← read Ha.isRunning
      let shuttingDown ← read Ha.shuttingDown
      if running then pure none
      else do
        update fun ha => { ha with stopPending := false }
        if shuttingDown then
          pure (some (.follower "PostgreSQL stopped; graceful shutdown finishing".toList))
        else do
          let result ← handlePostgresNotRunning
          pure (some result)

/-- Step 4b: every decision below uses this observation. -/
def observeIdentity : HaProg PgIdentity := do
  observeRecovery
  update fun ha => { ha with role := reconcileRole ha.role ha.pgIdentity }
  read Ha.pgIdentity

/-- Steps 4c and 5. -/
def decideCycle : HaProg CycleResult := do
  let stranded ← read fun ha => ha.shuttingDown && ha.stopPending && !ha.isLockOwner
  let leader ← read fun ha => ha.cluster.leader
  if stranded then do
    let _ ← retryPendingStop
    pure (.error
      "graceful shutdown: PostgreSQL stop is still pending (not holding the leader lock)".toList)
  else match leader with
    | none => processUnhealthyCluster
    | some lockOwner => processHealthyCluster lockOwner

/-- What step 4b found, and when. -/
structure Observed where
  identity : PgIdentity
  paused : Bool
  tick : Nat
  deriving DecidableEq

/-- What a cycle reports, what step 4b found if the cycle got there, and whether the
cycle was dropped for the lease. -/
structure Cycle where
  result : CycleResult
  observed : Option Observed
  dropped : Bool

def runCycle : HaProg Cycle := do
  let commands ← ask fun env _ => env.commands
  processCommands commands
  note (.began .cycle)
  await
  let loaded ← answer Env.cluster
  match loaded with
  | .error _ => do
      let result ← handleDcsError
      pure ⟨result, none, false⟩
  | .ok view => do
      let ended ← prepareCycle view
      match ended with
      | some result => pure ⟨result, none, false⟩
      | none => do
          let identity ← observeIdentity
          let observed ← read fun ha => ⟨identity, ha.isPaused, ha.tick⟩
          let result ← decideCycle
          pure ⟨result, some observed, false⟩

/-- The cycle beside the wait for the lease, which is asked first. -/
def racedCycle : HaProg Cycle := do
  publishFenceDeadline
  cutIf dropped
  update fun ha => { ha with unseen := false }
  runCycle

/-- Beside the lease alone, or beside nothing. -/
def racing (raced : Bool) (env : Env) : Env :=
  { env with raced := raced, interrupted := fun _ => false }

/-- The cycle came to its end before the lease did. -/
def finishedCycle : HaProg Cycle := do
  let cycle ← under (racing true) racedCycle
  let isLeader ← read Ha.isLeader
  (if isLeader then pure () else setLeaderLease none)
  under (racing false) reconcileWatchdog
  pure cycle

def leaseExpiredResult : CycleResult :=
  .error ("leader lease expired before the lock renewal completed (no DCS answer in time); " ++
    "PostgreSQL fenced").toList

/-- The cycle is dropped and PostgreSQL fenced without waiting for the DCS. -/
def droppedCycle : HaProg Cycle := do
  note (.began .leaseFence)
  let _ ← under (racing false) fenceForLostLease
  pure ⟨leaseExpiredResult, none, true⟩

def runCycleBounded : HaProg Cycle := onCut finishedCycle droppedCycle

end PgHa.HaCycle
