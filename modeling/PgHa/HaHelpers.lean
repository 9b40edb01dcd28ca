import PgHa.Election

/-!
`ha/helpers.rs`: the steps the cycle is made of. File writes run on a blocking
thread, so each is a wait. What a failed stop, write or read leaves behind is the
environment's choice; the log lines are left out.
-/

namespace PgHa.HaHelpers

open Text Cluster Identity LatestTimeline Interruptible Lease SyncReplication HaState Election

/-- What a cycle reports. -/
inductive CycleResult where
  | leader (message : Str)
  | follower (message : Str)
  | acquiring (message : Str)
  | error (message : Str)
  deriving DecidableEq

def resetSyncCache : HaProg Unit :=
  update fun ha =>
    { ha with appliedSyncStandbyNames := none, syncPgListChangedFlushLsn := none }

/-- The member record goes to the DCS; nobody reads the answer. -/
def touchMember : HaProg Unit := await

def publishNotPrimary : HaProg Unit := await

def writeSignal (written : Except Str Unit) (half : Bool) (ha : Ha) : Ha :=
  match written with
  | .ok () => Ha.noted { ha with standbySignal := true } (.wroteSignal true)
  | .error _ => Ha.noted { ha with standbySignal := ha.standbySignal || half } (.wroteSignal false)

/-- `standby.signal` and the rewritten `postgresql.auto.conf`. -/
def writeStandbyConfig : HaProg (Except Str Unit) := do
  resetSyncCache
  await
  change fun env ha => writeSignal (env.call ha.tick) (env.halfDone ha.tick) ha
  answer Env.call

/-- The same without `postgresql.auto.conf`. -/
def ensureStandbySignal : HaProg (Except Str Unit) := writeStandbyConfig

def createRewindCheckMarker : HaProg (Except Str Unit) := do
  await
  change fun env ha =>
    match env.call ha.tick with
    | .ok () => { ha with directory := { ha.directory with rewindCheck := true } }
    | .error _ => ha
  answer Env.call

/-- Everything on disk before PostgreSQL is started without the leader lock. The
upstream goes into `primary_conninfo` only. -/
def prepareStandbyStart : HaProg (Except Str Unit) := do
  await
  let state ← answer Env.controldataState
  let marked ← (if lastRanAsPrimary state then createRewindCheckMarker else pure (.ok ()))
  match marked with
  | .error e => pure (.error e)
  | .ok () => do
      let other ← read fun ha => ha.cluster.leader.any fun name =>
        name != ha.config.name && ha.cluster.hasMember name
      if other then writeStandbyConfig else ensureStandbySignal

/-- Both steps are attempted; the first error is returned. -/
def prepareDemotion (rewindCheck : Bool) : HaProg (Except Str Unit) := do
  let marked ← (if rewindCheck then createRewindCheckMarker else pure (.ok ()))
  let written ← writeStandbyConfig
  match marked, written with
  | .error e, _ => pure (.error e)
  | .ok (), result => pure result

def stopPublishingNotPrimary : HaProg (Except Str Unit) := do
  publishNotPrimary
  let stopped ← stop .stopPublishingNotPrimary
  publishNotPrimary
  match stopped with
  | .error e => do
      update fun ha => { ha with stopPending := true }
      pure (.error e)
  | .ok () => do
      update fun ha => { ha with stopPending := false }
      reconcileWatchdog
      touchMember
      pure (.ok ())

def stopAfterDemotionWrite : HaProg (Except Str Unit) := stopPublishingNotPrimary

/-- Writes nothing: `recovery.signal` is the operator's. -/
def stopPreservingRecoveryIntent : HaProg (Except Str Unit) := stopPublishingNotPrimary

def retryPendingStop : HaProg (Except Str Unit) := do
  let recovery ← read fun ha => ha.directory.recoverySignal
  if recovery then stopPreservingRecoveryIntent else stopAfterDemotionWrite

/-- Stops a PostgreSQL that may be a writable primary without the lock. -/
def fencePrimary : HaProg (Except Str Unit) := do
  resetSyncCache
  let _ ← prepareDemotion true
  stopAfterDemotionWrite

def setRole (role : MemberRole) : HaProg Unit := update fun ha => { ha with role := role }

def setLeader (isLeader : Bool) : HaProg Unit := update fun ha => { ha with isLeader := isLeader }

/-- Handled as loss of the lock. -/
def fenceForLostLease : HaProg (Except Str Unit) := do
  setLeader false
  setLeaderLease none
  let stopped ← fencePrimary
  setRole .replica
  reconcileWatchdog
  pure stopped

def fenceAtLeaseCheck (step : Str) : HaProg CycleResult := do
  let _ ← fenceForLostLease
  pure (.error ("leader lease expired before ".toList ++ step ++ "; PostgreSQL fenced".toList))

/-- PostgreSQL never became writable in this term. -/
def releaseLockAsStandby : HaProg Unit := do
  let leader ← read fun ha => ha.cluster.leader
  (if leader.isSome then do
    let _ ← deleteLeader
    pure ()
  else pure ())
  setLeader false
  setLeaderLease none
  resetSyncCache

def renewHeldLock : HaProg Bool := do
  let owner ← read Ha.isLockOwner
  if owner then do
    let anchor ← leaseAnchor
    let renewed ← swapWrite
    match renewed with
    | .ok true => do
        setLeader true
        extendLeaderLease anchor
        pure true
    | .ok false | .error _ => do
        setLeaderLease none
        pure false
  else pure false

/-- False when PostgreSQL still runs or the lock was not deleted. -/
def releaseLeaderLockIfStopped : HaProg Bool := do
  let running ← read Ha.isRunning
  let isLeader ← read Ha.isLeader
  let leader ← read fun ha => ha.cluster.leader
  if running then pure false
  else if !isLeader then pure true
  else match leader with
    | none => do
        setLeader false
        resetSyncCache
        pure true
    | some _ => do
        let deleted ← deleteLeader
        match deleted with
        | .ok true => do
            setLeader false
            resetSyncCache
            pure true
        | .ok false | .error _ => pure false

/-! ### Rewind hold -/

def clearRewindHold : HaProg Unit :=
  update fun ha => { ha with rewindHold := false, rewindHoldPersisted := false }

/-- The hold file is the source of truth. -/
def refreshRewindHold : HaProg Bool := do
  let state ← read fun ha =>
    rewindHoldState ha.directory.rewindHold ha.rewindHold ha.rewindHoldPersisted
  (if state.2 then clearRewindHold else pure ())
  pure state.1

def rewindHoldResult : CycleResult :=
  .error ("PostgreSQL stopped after a pg_rewind failure; operator action required (see the " ++
    "ERROR log)").toList

/-- A writable primary is fenced, anything else that runs is stopped directly. -/
def fenceOrStop (site : StopSite) : HaProg (Except Str Unit) := do
  let running ← read Ha.isRunning
  let identity ← read Ha.pgIdentity
  if !running then pure (.ok ())
  else if identity = .primary then fencePrimary
  else stop site

def stopHeldPostgres : HaProg (Except Str Unit) := fenceOrStop .stopHeldPostgres

def holdStopFailed (e : Str) : CycleResult := .error ("rewind hold: stop failed: ".toList ++ e)

/-- The size of the data directory is measured for the log. -/
def reportRewindHold : HaProg CycleResult := do
  await
  touchMember
  pure rewindHoldResult

def enterRewindHold : HaProg CycleResult := do
  update fun ha => { ha with rewindHold := true }
  await
  change fun env ha =>
    match env.call ha.tick with
    | .ok () =>
        { ha with
          rewindHoldPersisted := true
          directory := { ha.directory with rewindHold := true } }
    | .error _ => { ha with rewindHoldPersisted := false }
  let stopped ← stopHeldPostgres
  match stopped with
  | .error e => pure (holdStopFailed e)
  | .ok () => reportRewindHold

def holdStopAndReport : HaProg CycleResult := do
  let stopped ← stopHeldPostgres
  match stopped with
  | .error e => pure (holdStopFailed e)
  | .ok () => reportRewindHold

/-! ### `/timeline` -/

def primaryTimelineId : HaProg (Except Str TimelineId) := do
  await
  answer Env.primaryTimeline

/-- The override was recorded; its file has done its job. -/
def finishOverride : HaProg Unit :=
  change fun env ha =>
    match env.fileCall ha.tick with
    | .ok () => { ha with directory := { ha.directory with acceptTimelineLoss := false } }
    | .error _ => ha

def recordOwnTimeline (own : TimelineId) : HaProg Unit := do
  let generation ← read fun ha => ha.directory.generation
  match generation with
  | .error _ => pure ()
  | .ok ownGeneration => do
      let action ← read fun ha =>
        holdAction ha.config.name ha.cluster.timeline ha.cluster.members ha.cluster.dcsVoters own
          ownGeneration
      match action with
      | .upToDate => finishOverride
      | .write _ => do
          let written ← swapWrite
          match written with
          | .ok true => finishOverride
          | .ok false | .error _ => pure ()
      | .conflict _ => pure ()

def recordClusterTimeline : HaProg Unit := do
  let own ← primaryTimelineId
  match own with
  | .ok own => recordOwnTimeline own
  | .error _ => pure ()

def recordStandbyLeaderTimeline : HaProg Unit := do
  let newest ← read fun ha => ha.directory.newestHistory
  match newest with
  | .ok history => if history.wal then recordOwnTimeline history.id else pure ()
  | .error _ => pure ()

/-- The entry to write; read before the write, so a later server run voids it. -/
def plannedPromote (env : Env) (ha : Ha) : Except Str PendingPromote :=
  match ha.directory.newestHistory, ha.directory.serverRun with
  | .error e, _ => .error e
  | .ok _, .error e => .error e
  | .ok _, .ok none =>
      .error "postmaster.pid is missing: cannot identify the server run to promote".toList
  | .ok newest, .ok (some run) =>
      let acceptLoss := match ownEligibility (watchdogUsable env ha) ha with
        | .override _ => true
        | .eligible | .ineligible _ | .overrideIgnored _ _ => false
      planPromote ha.config.name (latestTimeline ha.cluster) ha.cluster.timeline.generation newest
        acceptLoss (some run)

def recordPendingPromote : HaProg (Except Str PendingPromote) := do
  let written ← read Ha.promotePending
  match written with
  | some pending => pure (.ok pending)
  | none => do
      let planned ← ask plannedPromote
      match planned with
      | .error e => pure (.error e)
      | .ok pending => do
          -- The record is `pendingRecord`, swapped against the cycle's version.
          let swapped ← swapWrite
          match swapped with
          | .ok true => do
              update fun ha =>
                Ha.noted { ha with promotePending := some pending } (.pendingWritten pending)
              pure (.ok pending)
          | .ok false =>
              pure (.error "/timeline changed since it was read; trying again next cycle".toList)
          | .error e =>
              pure (.error ("could not record the pending promote in DCS: ".toList ++ e))

/-- A new generation is written to the data directory before it is recorded. -/
def writeGeneration (pending : PendingPromote) : HaProg (Except Str Unit) := do
  let newer ← read fun ha => decide (ha.cluster.timeline.generation < pending.generation)
  if newer then do
    change fun env ha =>
      match env.fileCall ha.tick with
      | .ok () =>
          { ha with directory := { ha.directory with generation := .ok pending.generation } }
      | .error _ => ha
    answer Env.fileCall
  else pure (.ok ())

def confirmPromote (pending : PendingPromote) : HaProg Unit := do
  let name ← read fun ha => ha.config.name
  let new ← primaryTimelineId
  match new.bind (confirmedRecord name pending) with
  | .error _ => pure ()
  | .ok _ => do
      let written ← writeGeneration pending
      match written with
      | .error _ => pure ()
      | .ok () => do
          await
          let current ← answer Env.cluster
          match current with
          | .error _ => pure ()
          | .ok view =>
              if view.timeline.recordOf.bind TimelineRecord.pending = some pending then do
                let swapped ← swapWrite
                match swapped with
                | .ok true => do
                    update fun ha => { ha with promotePending := none }
                    finishOverride
                | .ok false | .error _ => pure ()
              else pure ()

/-! ### Synchronous replication and history -/

def performEffects : List Effect → HaProg Unit
  | [] => pure ()
  | .remember value mark :: rest => do
      update fun ha =>
        { ha with appliedSyncStandbyNames := some value, syncPgListChangedFlushLsn := mark }
      performEffects rest
  | .writeSync _ :: rest | .alterSystem _ :: rest | .reload :: rest => do
      let written ← attempt
      match written with
      | .ok () => performEffects rest
      | .error _ => pure ()

/-- The part of the state that `enforce_synchronous_replication` decides from. -/
def syncWorld (ha : Ha) : SyncWorld :=
  { name := ha.config.name
    sync := ha.cluster.syncState
    pgFile := []
    pgList := []
    applied := ha.appliedSyncStandbyNames
    mark := ha.syncPgListChangedFlushLsn
    running := none
    pending := [] }

def enforceSynchronousReplication : HaProg Unit := do
  let config ← read fun ha => ha.lastConfig.sync
  let snapshot ←
    (if config.enabled then do
      await
      answer Env.replicationStatus
    else pure (some ⟨0, []⟩))
  match snapshot with
  | none => pure ()
  | some snapshot => do
      let writes ← read fun ha =>
        effects (syncWorld ha) ⟨config, ha.cluster.members, snapshot⟩
      performEffects writes

/-- Within what is left of the lease; a failure keeps the entry pending. -/
def appendPendingHistory : HaProg Unit := do
  let pending ← read Ha.pendingHistory
  let lost ← leaseLost
  if pending && !lost then do
    let appended ← attempt
    match appended with
    | .ok () => update fun ha => { ha with pendingHistory := false }
    | .error _ => pure ()
  else pure ()

end PgHa.HaHelpers
