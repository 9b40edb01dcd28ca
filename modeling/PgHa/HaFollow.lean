import PgHa.HaHelpers

/-!
`ha/follow.rs`: rejoining the lock holder as a replica and following an upstream,
with the two checks of `ha/helpers.rs` that may end a cycle there, the rewind hold
and the history generation.
-/

namespace PgHa.HaFollow

open Text Cluster Identity LatestTimeline Interruptible HaState Election HaHelpers

def sourceAnswersAsPrimary : HaProg (Option Bool) := do
  await
  answer Env.answersAsPrimary

def rewind : HaProg (Except Str Unit) := do
  let done ← attempt
  match done with
  | .ok () => pure (.ok ())
  | .error e => pure (.error (postgresError ("pg_rewind failed: ".toList ++ e)))

def basebackup : HaProg (Except Str Unit) := do
  let done ← attempt
  match done with
  | .ok () => pure (.ok ())
  | .error e => pure (.error (postgresError ("pg_basebackup failed: ".toList ++ e)))

def removeNodeStateFiles : HaProg (Except Str Unit) := do
  await
  change fun env ha =>
    match env.call ha.tick with
    | .ok () =>
        { ha with directory := { ha.directory with rewindCheck := false, rewindHold := false } }
    | .error _ => ha
  answer Env.call

def signalNotWritten (e : Str) : CycleResult :=
  .error ("Rejoin: not starting PostgreSQL, standby configuration could not be written: ".toList ++
    e)

/-- `failed` names the step that failed, with its error. -/
def rebuildFromLeader (leaderName : Str) (failed : Str) : HaProg CycleResult := do
  let removed ← removeDataDirectory
  match removed with
  | .error re =>
      pure (.error ("Rejoin failed: ".toList ++ failed ++ ", cleanup=".toList ++ re))
  | .ok () => do
      let cloned ← basebackup
      match cloned with
      | .error be =>
          pure (.error ("Rejoin failed: ".toList ++ failed ++ ", basebackup=".toList ++ be))
      | .ok () => do
          let _ ← removeNodeStateFiles
          clearRewindHold
          let written ← writeStandbyConfig
          match written with
          | .error e => pure (signalNotWritten e)
          | .ok () => do
              let started ← start
              match started with
              | .ok () => do
                  setRole .replica
                  touchMember
                  pure (.follower ("rejoined as replica via basebackup fallback, following (".toList
                    ++ leaderName ++ ")".toList))
              | .error e =>
                  pure (.error ("Failed to start after basebackup fallback: ".toList ++ e))

/-- Step 4: start as a standby, the signal written. -/
def startRejoined (leaderName : Str) (rebuildEnabled : Bool) : HaProg CycleResult := do
  let started ← start
  let running ← read Ha.isRunning
  match afterRewindStart started.isOk running, started with
  | .started, _ | _, .ok () => do
      setRole .replica
      touchMember
      pure (.follower ("rejoined as replica via pg_rewind, following (".toList ++ leaderName ++
        ")".toList))
  | .stillStarting, .error _ => do
      setRole .replica
      touchMember
      pure (.follower "rejoined via pg_rewind; PostgreSQL still starting".toList)
  | .failed, .error e =>
      if rebuildEnabled then rebuildFromLeader leaderName ("start=".toList ++ e)
      else enterRewindHold

/-- Steps 2 and 3, with PostgreSQL stopped: the source is checked again, rewound
against, and the standby configuration written. -/
def rewindAndStart (leaderName : Str) (rebuildEnabled : Bool) : HaProg CycleResult := do
  let probe ← sourceAnswersAsPrimary
  let ready ← read fun ha =>
    leaderReadyForRewind ha.cluster.leader leaderName (ha.cluster.getMember leaderName) probe
  if !ready then do
    touchMember
    pure (.follower ("not running pg_rewind: ".toList ++ leaderName ++ " ".toList ++
      rewindSourceNotReadyReason true probe ++
      "; PostgreSQL stopped, it starts as a standby next cycle".toList))
  else do
    let rewound ← rewind
    match rewound with
    | .error e =>
        if rebuildEnabled then rebuildFromLeader leaderName ("rewind=".toList ++ e)
        else enterRewindHold
    | .ok () => do
        let _ ← removeNodeStateFiles
        clearRewindHold
        let written ← writeStandbyConfig
        match written with
        | .error e => pure (signalNotWritten e)
        | .ok () => startRejoined leaderName rebuildEnabled

/-- Step 1: a primary without the lock is fenced, a standby stopped directly. -/
def stopForRejoin : HaProg (Except Str Unit) := fenceOrStop .rejoinAsReplica

/-- Not a failure, so the node is not held. -/
def sourceNotReady (leaderName why : Str) : HaProg CycleResult := do
  let identity ← read Ha.pgIdentity
  if identity = .primary then do
    let fenced ← fencePrimary
    match fenced with
    | .error e => pure (.error ("Rejoin stop failed: ".toList ++ e))
    | .ok () =>
        pure (.follower ("stopped PostgreSQL: ".toList ++ leaderName ++ " ".toList ++ why ++
          "; pg_rewind will run once it is ready".toList))
  else do
    touchMember
    pure (.follower ("not running pg_rewind: ".toList ++ leaderName ++ " ".toList ++ why))

/-- The live check of step 0b, made only when the DCS view already says ready. -/
def probeSource (leaderName : Str) : HaProg (Bool × Option Bool) := do
  let dcsReady ← read fun ha =>
    leaderReadyInDcs ha.cluster.leader leaderName (ha.cluster.getMember leaderName)
  if dcsReady then do
    let probe ← sourceAnswersAsPrimary
    pure (true, probe)
  else pure (false, none)

def rejoinAsReplica (leaderName : Str) : HaProg CycleResult := do
  let rebuildEnabled ← read fun ha => ha.config.removeDataDirectoryOnRewindFailure
  let held ← refreshRewindHold
  if held && !rebuildEnabled then holdStopAndReport
  else do
    let (dcsReady, probe) ← probeSource leaderName
    let member ← read fun ha => ha.cluster.getMember leaderName
    let ready ← read fun ha => leaderReadyForRewind ha.cluster.leader leaderName member probe
    if !ready then sourceNotReady leaderName (rewindSourceNotReadyReason dcsReady probe)
    else match member with
      | none =>
          pure (.error ("Cannot rejoin: leader '".toList ++ leaderName ++ "' not found".toList))
      | some _ => do
          let stopped ← stopForRejoin
          match stopped with
          | .error e => pure (.error ("Rejoin stop failed: ".toList ++ e))
          | .ok () => rewindAndStart leaderName rebuildEnabled

/-- Some result ends the cycle. -/
def enforceRewindHold : HaProg (Option CycleResult) := do
  let held ← refreshRewindHold
  let leader ← read fun ha => ha.cluster.leader.filter fun name => name != ha.config.name
  let ready ← read fun ha =>
    leader.any fun name => leaderReadyInDcs (some name) name (ha.cluster.getMember name)
  let rebuildEnabled ← read fun ha => ha.config.removeDataDirectoryOnRewindFailure
  match heldNodeAction held rebuildEnabled ready, leader with
  | .notHeld, _ => pure none
  | .hold, _ => do
      let result ← holdStopAndReport
      pure (some result)
  | .rebuild, some name => do
      let result ← rejoinAsReplica name
      pure (some result)
  | .rebuild, none | .waitForLeader, _ => do
      let stopped ← stopHeldPostgres
      match stopped with
      | .error e => pure (some (holdStopFailed e))
      | .ok () => do
          touchMember
          pure (some (.error
            "rewind hold: waiting for a leader running as a primary to rebuild from".toList))

/-- Data of an older history generation keeps PostgreSQL stopped. -/
def enforceGeneration : HaProg (Option CycleResult) := do
  let stale ← read staleGeneration
  match stale with
  | none => pure none
  | some _ => do
      let stopped ← stopHeldPostgres
      match stopped with
      | .error e =>
          pure (some (.error ("older history generation: stop failed: ".toList ++ e)))
      | .ok () => do
          touchMember
          pure (some (.error
            ("data of an older history generation; operator action required (see the ERROR " ++
              "log)").toList))

/-- `CascadeManager::select_upstream`. -/
def selectUpstream (name : Str) (replicatefrom : Option Str) (cluster : ClusterView) :
    Option Member :=
  let primary := cluster.leader.bind cluster.getMember
  match replicatefrom with
  | none => primary
  | some source =>
      if source = name then primary
      else match cluster.getMember source with
        | some member => if member.state = .running then some member else primary
        | none => primary

/-- The new upstream is in `primary_conninfo`; PostgreSQL restarts to follow it
unless its timeline is another one. -/
def reconfigureReplica : HaProg Unit := do
  let written ← writeStandbyConfig
  match written with
  | .error _ => pure ()
  | .ok () => do
      await
      let own ← answer fun env tick => (env.controldataTimeline tick).getD 0
      let host ← answer Env.upstreamHost
      let upstream ← read fun ha => ((ha.cluster.getMember host).bind Member.timeline).getD 0
      let stopped ← stop .reconfigureReplica
      if 0 < own ∧ 0 < upstream ∧ own ≠ upstream then pure ()
      else match stopped with
        | .error _ => pure ()
        | .ok () => do
            let _ ← start
            pure ()

def fenceUnobserved (retry : Bool) : HaProg CycleResult := do
  let written ← prepareDemotion false
  let stopped ← stopAfterDemotionWrite
  match stopped, written with
  | .error e, _ => pure (.error ("Fence stop failed: ".toList ++ e))
  | .ok (), .error e =>
      pure (.error (("Fence: stopped PostgreSQL, but standby configuration could not be " ++
        "written: ").toList ++ e))
  | .ok (), .ok () =>
      pure (.follower (if retry then "stopped PostgreSQL: a demotion stop had failed".toList
        else "stopped PostgreSQL: recovery state unobserved and no standby.signal".toList))

def unmanagedCause (recoverySignal : Bool) : Str :=
  if recoverySignal then "recovery.signal present (archive or point-in-time recovery)".toList
  else "neither standby.signal nor recovery.signal present".toList

/-- A standby pg-ha configured, kept on the right upstream. -/
def followStandby (upstreamName : Str) : HaProg CycleResult := do
  setRole .replica
  let differs ← answer Env.needsUpstreamReconfig
  let recent ← answer Env.recentlyReconfigured
  let known ← read fun ha => ha.cluster.hasMember upstreamName
  (if known && differs && !recent then reconfigureReplica else pure ())
  touchMember
  let name ← read fun ha => ha.config.name
  pure (.follower
    ("no action. I am (".toList ++ name ++ "), a secondary, following upstream (".toList
    ++ upstreamName ++ ")".toList))

/-- A standby that may hold WAL beyond a fork point. -/
def checkRewind (lockOwner : Str) : HaProg CycleResult := do
  touchMember
  let ready ← read fun ha =>
    leaderReadyInDcs (some lockOwner) lockOwner (ha.cluster.getMember lockOwner)
  if ready then rejoinAsReplica lockOwner
  else
    pure (.follower ("rewind-check marker present; waiting for ".toList ++ lockOwner ++
      " to run as a primary before pg_rewind".toList))

def actAsFollower (lockOwner : Str) : HaProg CycleResult := do
  let upstreamName ← read fun ha =>
    ((selectUpstream ha.config.name ha.config.replicatefrom ha.cluster).map Member.name).getD
      lockOwner
  let identity ← read Ha.pgIdentity
  let retry ← read Ha.stopPending
  let marked ← read fun ha => ha.directory.rewindCheck
  match followerAction identity retry marked with
  | .rejoin => rejoinAsReplica lockOwner
  | .rewindCheck => checkRewind lockOwner
  | .handOff => do
      let recovery ← read fun ha => ha.directory.recoverySignal
      touchMember
      pure (.error ("PostgreSQL in unmanaged recovery (".toList ++ unmanagedCause recovery ++
        "); operator action required".toList))
  | .fence => fenceUnobserved retry
  | .wait => do
      touchMember
      pure (.follower ("PostgreSQL is ".toList ++ identity.describe ++
        "; waiting for the next cycle before following (".toList ++ upstreamName ++ ")".toList))
  | .follow => followStandby upstreamName

/-- `follow_upstream`: the two checks, then what this node is. -/
def followUpstream (lockOwner : Str) : HaProg CycleResult := do
  let stale ← enforceGeneration
  match stale with
  | some result => pure result
  | none => do
      let held ← enforceRewindHold
      match held with
      | some result => pure result
      | none => actAsFollower lockOwner

end PgHa.HaFollow
