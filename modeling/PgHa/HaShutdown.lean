import PgHa.HaCycle

/-!
`ha/shutdown.rs` with its steps in `ha/helpers.rs`: the graceful shutdown and what
`keep_running_until_stopped` of `main.rs` repeats while PostgreSQL cannot be stopped.
`Ha::cascade_promote` of `ha/mod.rs` follows, and with it every method of the engine
that acts, and the cycle that a signal drops before the shutdown. The drain is given by the number
of renewals that fit in it.
-/

namespace PgHa.HaShutdown

open Text Cluster Identity Interruptible Lease HaState Election HaHelpers HaFollow HaCycle

/-- The marks, and the state published to the REST API. -/
def beginShutdown : HaProg Unit := do
  note (.began .gracefulShutdown)
  update fun ha => { ha with shuttingDown := true, startsBlocked := true }
  await

def shutdownFenceIfLeaseExpired : HaProg Bool := do
  let expired ← ask fun env ha => ha.isLeader && ha.lostLease env
  if expired then do
    let _ ← fenceForLostLease
    pure true
  else pure false

/-- One renewal; true when it failed and PostgreSQL was fenced. -/
def drainSlice : HaProg Bool := do
  let renewed ← renewHeldLock
  reconcileWatchdog
  let paused ← read Ha.isPaused
  if renewed || paused then pure false
  else do
    let _ ← fenceForLostLease
    pure true

def drainSlices : Nat → HaProg Bool
  | 0 => drainSlice
  | slices + 1 => do
      let fenced ← drainSlice
      if fenced then pure true
      else do
        await
        drainSlices slices

def drainRenewingLeaderLock (slices : Nat) : HaProg Bool := do
  let isLeader ← read Ha.isLeader
  if isLeader then drainSlices slices
  else do
    await
    pure false

/-- The stop that failed is tried once more with `-m immediate`; `observed` is what
PostgreSQL was before the first one. -/
def stopAgainForShutdown (observed : PgIdentity) : HaProg (Except Str Unit) :=
  if shutdownNeedsFence observed then stopAfterDemotionWrite
  else do
    let stopped ← stop .stopObservedPostgresForShutdown
    let stuck ← read fun ha => ha.isRunning && !shutdownMayLeaveRunning observed ha.isLeader
    (if !stopped.isOk && stuck then update fun ha => { ha with stopPending := true }
    else pure ())
    pure stopped

def stopObservedPostgresForShutdown : HaProg (Except Str Unit) := do
  let observed ← read Ha.pgIdentity
  let fast ←
    (if shutdownNeedsFence observed then fencePrimary
    else stop .stopObservedPostgresForShutdown)
  let running ← read Ha.isRunning
  match fast with
  | .ok () => pure (.ok ())
  | .error _ => if running then stopAgainForShutdown observed else pure (.ok ())

def stopPostgresForShutdown : HaProg (Except Str Unit) := do
  let running ← read Ha.isRunning
  if running then do
    observeRecovery
    stopObservedPostgresForShutdown
  else pure (.ok ())

/-- A failed CHECKPOINT or stop is logged. -/
def checkpointAndStop : HaProg Unit := do
  let isLeader ← read Ha.isLeader
  (if isLeader then do
    let _ ← attempt
    pure ()
  else pure ())
  let _ ← stopPostgresForShutdown
  pure ()

def racedStop : HaProg Bool := do
  publishFenceDeadline
  cutIf dropped
  update fun ha => { ha with unseen := false }
  checkpointAndStop
  pure true

/-- False: the lease expired first and PostgreSQL was fenced. -/
def stopPostgresWithinLease : HaProg Bool :=
  onCut (under (racing true) racedStop) do
    let _ ← fenceForLostLease
    pure false

/-- Commands that queued up get their rejection. -/
def rejectCommands : HaProg Unit := do
  let commands ← ask fun env _ => env.commands
  processCommands commands

def finishShutdown : HaProg ShutdownOutcome := do
  rejectCommands
  let running ← read Ha.isRunning
  let stuck ← read fun ha => ha.stopPending || ha.isLeader
  if running then
    if stuck then do
      update fun ha => { ha with stopPending := true }
      pure .keepRunning
    else pure .standbyLeftRunning
  else do
    let released ← releaseLeaderLockIfStopped
    pure (if released then .released else .stoppedLockKept)

/-- The lock is never released here. -/
def outcomeAfterFence : HaProg ShutdownOutcome := do
  rejectCommands
  let running ← read Ha.isRunning
  pure (if running then .keepRunning else .fenced)

def watchdogAfterShutdown : ShutdownOutcome → HaProg Unit
  | .standbyLeftRunning => disarm
  | .keepRunning | .released | .stoppedLockKept | .fenced => reconcileWatchdog

/-- The end of a shutdown whose PostgreSQL was stopped in time, or fenced. -/
def conclude (stoppedInTime : Bool) : HaProg ShutdownOutcome := do
  let outcome ← (if stoppedInTime then finishShutdown else outcomeAfterFence)
  note (.concluded outcome)
  watchdogAfterShutdown outcome
  pure outcome

def shutdownSteps (slices : Nat) : HaProg ShutdownOutcome := do
  beginShutdown
  let expired ← shutdownFenceIfLeaseExpired
  if expired then conclude false
  else do
    let fenced ← drainRenewingLeaderLock slices
    if fenced then conclude false
    else do
      let stopped ← stopPostgresWithinLease
      conclude stopped

/-- Only the stop is raced against the lease. -/
def gracefulShutdown (slices : Nat) : HaProg ShutdownOutcome :=
  under (racing false) (shutdownSteps slices)

def continueShutdown : HaProg ShutdownOutcome :=
  under (racing false) do
    note (.began .continueShutdown)
    conclude true

/-- `StandbyCluster::cascade_promote`: the configuration without `standby_cluster` is
written, PostgreSQL promoted, and its recovery observed. -/
def cascadePromoteStandby : HaProg (Except Str Unit) := do
  let written ← attempt
  match written with
  | .error e => pure (.error e)
  | .ok () => do
      let promoted ← promote
      match promoted with
      | .error e => pure (.error e)
      | .ok () => do
          observeRecovery
          let inRecovery ← read Ha.inRecovery
          if inRecovery = some false then do
            setRole .primary
            pure (.ok ())
          else
            pure (.error (postgresError
              ("pg_ctl promote reported success but PostgreSQL was not observed out of " ++
                "recovery").toList))

/-- The checks `Ha::cascade_promote` makes. -/
def refusesCascade (ha : Ha) : Option Str :=
  if !ha.isLeader then some "Cannot cascade promote: not the leader".toList
  else if ha.lastConfig.standbyCluster.isNone then
    some "Cannot cascade promote: not in standby cluster mode".toList
  else none

def cascadePromote : HaProg (Except Str Unit) :=
  under (racing false) do
    note (.began .cascadePromote)
    let refused ← read refusesCascade
    match refused with
    | some reason => pure (.error reason)
    | none => do
        let promoted ← cascadePromoteStandby
        match promoted with
        | .error e => pure (.error ("Cascade promote failed: ".toList ++ e))
        | .ok () => do
            update fun ha => { ha with lastConfig := { ha.lastConfig with standbyCluster := none } }
            pure (.ok ())

/-! ### Signals -/

/-- Beside the lease and the signals of `main.rs`. -/
def signalling (env : Env) : Env := { env with raced := true }

/-- Beside the signals alone. -/
def fencing (env : Env) : Env := { env with raced := true, noticed := fun _ => false }

/-- What follows a finished cycle in `run_cycle_bounded`. -/
def closeCycle : HaProg Unit := do
  let isLeader ← read Ha.isLeader
  (if isLeader then pure () else setLeaderLease none)
  reconcileWatchdog

def fenceCycle : HaProg Unit := do
  note (.began .leaseFence)
  let _ ← fenceForLostLease
  pure ()

/-- `run_cycle_bounded` in the `select!` of `main.rs`: a signal drops it in any wait, those
of its fence among them, and what it did until then stays. -/
def interruptedCycle : HaProg Unit := do
  let finished ← onCut (under signalling do
    let _ ← racedCycle
    pure true) (pure false)
  -- where the lease is due as well the signal counts; a signal that comes second comes in
  -- the first wait of the fence
  let signalled ← answer Env.interrupted
  -- the wait for the lease is over, so no deadline is left for it to look at
  update fun ha => { ha with unseen := false }
  if finished then under fencing closeCycle
  else if signalled then pure ()
  else under fencing fenceCycle

/-! ### Runs -/

/-- The methods of the engine that act, as its owner may call them. -/
inductive Method where
  | runCycle
  | runCycleBounded
  | gracefulShutdown (slices : Nat)
  | continueShutdown
  | cascadePromote
  deriving DecidableEq

def Method.perform : Method → HaProg Unit
  | .runCycle => under (racing false) do
      let _ ← HaCycle.runCycle
      pure ()
  | .runCycleBounded => do
      let _ ← HaCycle.runCycleBounded
      pure ()
  | .gracefulShutdown slices => do
      let _ ← HaShutdown.gracefulShutdown slices
      pure ()
  | .continueShutdown => do
      let _ ← HaShutdown.continueShutdown
      pure ()
  | .cascadePromote => do
      let _ ← HaShutdown.cascadePromote
      pure ()

def stateAfter {Value : Type} : Outcome Ha Value → Ha
  | .done _ after | .cut after => after

/-- Each method with the answers it meets, one after the other. -/
def run : List (Method × Env) → Ha → Ha
  | [], ha => ha
  | (method, env) :: rest, ha => run rest (stateAfter (method.perform env ha))

/-- A run that a signal ends in the middle of a cycle, and what `main.rs` calls then. -/
def interruptedRun (steps : List (Method × Env)) (env : Env) (rest : List (Method × Env))
    (ha : Ha) : Ha :=
  run rest (stateAfter (interruptedCycle env (run steps ha)))

end PgHa.HaShutdown
