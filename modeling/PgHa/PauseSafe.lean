import PgHa.PauseSteps
import PgHa.PrimaryFenced
import PgHa.Transition

/-!
Pause mode (W1). A node that sees the cluster paused takes no lock, initializes no cluster, and
is not fenced for its lease. It gives the lock up only for a command of the operator, or when a
required watchdog cannot be armed.
-/

namespace PgHa.PauseSafe

open Text Cluster Identity Interruptible Lease LatestTimeline SyncReplication Trace HaState Election
open HaHelpers HaFollow HaCycle HaFrames HaShutdown Transition PauseSteps

variable {takes gives : Bool} {env : Env} {ha : Ha} {Value Next : Type}

/-! ### Under the lock -/

theorem eases_promoteAndConfirm : Eases takes gives promoteAndConfirm := by
  intro env ha allowed
  unfold promoteAndConfirm
  apply carries_bind armWatchdog_rested
  intro armed reached moved needs
  have still := allowed_rests moved allowed
  cases armed with
  | error e =>
      -- only a required watchdog gets here, and then the lock may be given up
      have free := allowed.required (needs rfl)
      subst free
      exact eases_bind eases_releaseLockAsStandby (fun _ => eases_pure _) env reached still
  | ok =>
      refine eases_outcome eases_recordPendingPromote ?_ ?_ env reached still
      · exact fun _ => eases_pure _
      · intro pending
        apply eases_bind (eases_ask _)
        intro lost
        apply eases_ite (eases_fenceAtLeaseCheck _)
        apply eases_outcome eases_promote
        · exact fun _ => eases_pure _
        · intro _
          apply eases_bind eases_observeRecovery
          intro _
          apply eases_bind (eases_read _)
          intro identity
          apply eases_ite
          · exact eases_bind (eases_setRole _) fun _ =>
              eases_bind (eases_confirmPromote pending) fun _ =>
              eases_bind eases_await fun _ =>
                eases_bind eases_enforceSynchronousReplication fun _ =>
                eases_bind (eases_read _) fun _ => eases_pure _
          · exact eases_bind eases_await fun _ => eases_pure _

/-- In pause mode the lock is kept; otherwise everything is permitted. -/
theorem eases_relinquishUnmanagedRecovery : Eases takes gives relinquishUnmanagedRecovery := by
  intro env ha allowed
  unfold relinquishUnmanagedRecovery
  apply carries_ask_bind
  apply carries_ask_bind
  cases paused : ha.isPaused with
  | true => exact eases_bind eases_await (fun _ => eases_pure _) env ha allowed
  | false =>
      obtain ⟨rfl, rfl⟩ := allowed.unpaused paused
      simp only [Bool.false_eq_true, if_false]
      apply eases_bind (eases_ite eases_stopPublishingNotPrimary
        (eases_bind (eases_prepareDemotion true) fun _ => eases_stopPublishingNotPrimary)) _ env
          ha allowed
      intro stopped
      apply eases_bind (eases_read _)
      intro running
      apply eases_ite
      · exact eases_bind eases_await fun _ => eases_pure _
      · exact eases_bind eases_releaseLeaderLockIfStopped fun _ => eases_bind eases_await fun _ =>
          eases_ite (eases_pure _) (eases_pure _)

theorem eases_enforceStandbyLeaderRole : Eases takes gives enforceStandbyLeaderRole := by
  apply eases_bind (eases_read _)
  intro config
  apply eases_bind (eases_read _)
  intro name
  cases config with
  | none => exact eases_pure _
  | some =>
      apply eases_bind (eases_read _)
      intro following
      apply eases_ite
      · exact eases_bind (eases_setRole _) fun _ => eases_bind eases_await fun _ =>
          eases_bind eases_recordStandbyLeaderTimeline fun _ => eases_pure _
      · exact eases_bind eases_await fun _ => eases_pure _

theorem eases_hold : Eases takes gives hold := by
  apply eases_bind (eases_ask _)
  intro lost
  apply eases_ite (eases_fenceAtLeaseCheck _)
  apply eases_bind fun env ha _ => carries_weaken armWatchdog_rested fun _ _ _ _ => trivial
  intro armed
  cases armed with
  | error => exact eases_bind (eases_setLeaderLease none) fun _ => eases_fenceAtLeaseCheck _
  | ok =>
      exact eases_bind (eases_setRole _) fun _ => eases_bind eases_await fun _ =>
        eases_bind eases_recordClusterTimeline fun _ =>
          eases_bind eases_enforceSynchronousReplication fun _ =>
          eases_bind eases_appendPendingHistory fun _ => eases_bind (eases_read _) fun _ =>
            eases_pure _

theorem eases_enforcePrimaryRole : Eases takes gives enforcePrimaryRole := by
  apply eases_bind (eases_read _)
  intro isStandby
  apply eases_bind (eases_read _)
  intro identity
  apply eases_ite eases_enforceStandbyLeaderRole
  cases leaderAction identity with
  | hold => exact eases_hold
  | promote => exact eases_promoteAndConfirm
  | relinquish => exact eases_relinquishUnmanagedRecovery
  | wait => exact eases_bind eases_await fun _ => eases_pure _

theorem eases_demote : Eases takes gives demote := by
  apply eases_bind eases_resetSyncCache
  intro _
  apply eases_bind (eases_prepareDemotion true)
  intro written
  apply eases_bind eases_stopPublishingNotPrimary
  intro _
  apply eases_bind (eases_setRole _)
  intro _
  cases written with
  | ok => exact eases_pure _
  | error => exact eases_pure _

theorem eases_processHealthyCluster (lockOwner : Str) :
    Eases takes gives (processHealthyCluster lockOwner) := by
  have refused (message : Str) : Eases takes gives (do
      setLeaderLease none
      setLeader false
      let paused ← HaState.read Ha.isPaused
      if paused then pure (.leader message) else demote) :=
    eases_bind (eases_setLeaderLease none) fun _ => eases_bind (eases_setLeader false) fun _ =>
      eases_bind (eases_read _) fun _ => eases_ite (eases_pure _) eases_demote
  apply eases_bind (eases_read _)
  intro name
  apply eases_ite
  · apply eases_bind (eases_ask _)
    intro anchor
    apply eases_bind eases_swapWrite
    intro renewed
    rcases renewed with _ | _ | _
    · exact refused _
    · exact refused _
    · exact eases_bind (eases_setLeader true) fun _ =>
        eases_bind (eases_extendLeaderLease anchor) fun _ =>
        eases_bind (eases_read _) fun _ =>
          eases_ite (eases_bind eases_retryPendingStop fun _ => eases_pure _)
            eases_enforcePrimaryRole
  · exact eases_bind (eases_setLeader false) fun _ => eases_followUpstream lockOwner

/-! ### Without a leader -/

theorem eases_checkStance : Eases takes gives checkStance := by
  apply eases_bind (eases_read _)
  intro identity
  apply eases_bind (eases_read _)
  intro pending
  cases electionStance identity pending with
  | participate => exact eases_pure _
  | standAside => exact eases_bind eases_await fun _ => eases_pure _
  | fence =>
      apply eases_bind eases_fencePrimary
      intro fenced
      cases fenced with
      | ok => exact eases_pure _
      | error => exact eases_pure _
  | wait => exact eases_bind eases_await fun _ => eases_pure _

theorem eases_checkEligible : Eases takes gives checkEligible := by
  apply eases_bind (eases_ask _)
  intro own
  cases standAside own with
  | none => exact eases_pure _
  | some =>
      apply eases_bind (eases_read _)
      intro identity
      apply eases_ite
      · apply eases_bind eases_fencePrimary
        intro fenced
        cases fenced with
        | error => exact eases_pure _
        | ok => exact eases_pure _
      · exact eases_bind eases_await fun _ => eases_pure _

theorem eases_checkStale : Eases takes gives checkStale := by
  apply eases_bind (eases_ask _)
  intro stale
  apply eases_ite
  · apply eases_bind eases_fencePrimary
    intro fenced
    cases fenced with
    | error => exact eases_pure _
    | ok => exact eases_bind eases_await fun _ => eases_pure _
  · exact eases_pure _

theorem eases_attemptToAcquireLeader : Eases true gives attemptToAcquireLeader :=
  eases_bind (eases_noted .acquiring rfl) fun _ => eases_swapWrite

theorem eases_campaign : Eases true gives campaign := by
  apply eases_bind (eases_ask _)
  intro attempts
  apply eases_ite
  · apply eases_bind (eases_ask _)
    intro anchor
    apply eases_bind eases_attemptToAcquireLeader
    intro acquired
    rcases acquired with _ | _ | _
    · exact eases_pure _
    · exact eases_bind (eases_setLeader false) fun _ => eases_pure _
    · apply eases_bind (eases_setLeader true)
      intro _
      apply eases_bind (eases_extendLeaderLease anchor)
      intro _
      apply eases_bind
      · exact eases_update fun _ => rfl
      · exact fun _ => eases_bind eases_attempt fun _ => eases_enforcePrimaryRole
  · exact eases_bind (eases_setLeader false) fun _ => eases_read _

/-- By induction on the checks that are left. -/
theorem eases_firstResult {checks : List (HaProg (Option CycleResult))} {last : HaProg CycleResult}
    (each : ∀ check ∈ checks, Eases takes gives check) (final : Eases takes gives last) :
    Eases takes gives (firstResult checks last) := by
  induction checks with
  | nil => exact final
  | cons check rest ih =>
      apply eases_bind (each check List.mem_cons_self)
      intro found
      cases found with
      | some => exact eases_pure _
      | none => exact ih fun other member => each other (List.mem_cons_of_mem _ member)

/-- In pause mode nothing is done. -/
theorem eases_processUnhealthyCluster : Eases takes gives processUnhealthyCluster := by
  intro env ha allowed
  unfold processUnhealthyCluster
  apply carries_ask_bind
  cases paused : ha.isPaused with
  | true => exact carries_pure trivial
  | false =>
      obtain ⟨rfl, rfl⟩ := allowed.unpaused paused
      apply eases_firstResult _ eases_campaign env ha allowed
      simp only [List.forall_mem_cons]
      exact ⟨eases_enforceGeneration, eases_enforceRewindHold, eases_checkStance,
        eases_checkEligible,
        eases_checkStale, fun _ none => by cases none⟩

/-! ### PostgreSQL is not there -/

theorem eases_releaseWhileDown : Eases takes gives releaseWhileDown := by
  intro env ha allowed
  unfold releaseWhileDown
  apply carries_ask_bind
  apply carries_ask_bind
  split
  · exact carries_pure trivial
  · cases paused : ha.isPaused with
    | true => exact carries_pure trivial
    | false =>
        obtain ⟨rfl, rfl⟩ := allowed.unpaused paused
        simp only [Bool.false_eq_true, if_false]
        apply eases_bind eases_deleteLeader _ env ha allowed
        intro deleted
        cases deleted with
        | ok =>
            exact eases_bind (eases_setLeader false) fun _ =>
              eases_bind eases_resetSyncCache fun _ => eases_pure _
        | error => exact eases_pure _

theorem eases_rejoinAfterFailedStarts : Eases takes gives rejoinAfterFailedStarts := by
  apply eases_bind (eases_read _)
  intro failing
  apply eases_ite
  · apply eases_bind
    · exact eases_update fun _ => rfl
    intro _
    apply eases_bind (eases_read _)
    intro leader
    cases leader with
    | some name => exact eases_bind (eases_rejoinAsReplica name) fun _ => eases_pure _
    | none => exact eases_pure _
  · exact eases_pure _

theorem eases_startAsStandby : Eases takes gives startAsStandby := by
  apply eases_bind eases_prepareStandbyStart
  intro prepared
  cases prepared with
  | error => exact eases_pure _
  | ok =>
      apply eases_bind eases_start
      intro started
      cases started with
      | ok => exact eases_bind (eases_update fun _ => rfl) fun _ => eases_pure _
      | error =>
          exact eases_bind (eases_update fun _ => rfl) fun _ => eases_bind (eases_read _) fun _ =>
            eases_pure _

theorem eases_handlePostgresNotRunning : Eases takes gives handlePostgresNotRunning := by
  apply eases_firstResult _ eases_startAsStandby
  simp only [List.forall_mem_cons]
  exact ⟨eases_releaseWhileDown, eases_bind (eases_read _) fun _ => eases_pure _,
    eases_enforceGeneration,
    eases_enforceRewindHold, eases_rejoinAfterFailedStarts, fun _ none => by cases none⟩

theorem eases_bootstrapNewCluster : Eases true gives bootstrapNewCluster := by
  have fails (message : Str) : Eases true gives (do
      let _ ← removeDataDirectory
      pure (BootstrapResult.failed message)) := eases_bind eases_removeDataDirectory fun _ =>
        eases_pure _
  apply eases_bind eases_swapWrite
  intro won
  rcases won with _ | _ | _
  · exact eases_pure _
  · exact eases_pure _
  · apply eases_bind (eases_noted .wonInitialize rfl)
    intro _
    apply eases_bind eases_attempt
    intro created
    cases created with
    | error => exact fails _
    | ok =>
        apply eases_bind eases_start
        intro started
        cases started with
        | error => exact fails _
        | ok => exact eases_bind eases_await fun _ => eases_pure _

theorem eases_lockBootstrapped : Eases true gives lockBootstrapped := by
  apply eases_bind eases_observeRecovery
  intro _
  apply eases_bind (eases_read _)
  intro primary
  apply eases_bind (eases_ite (eases_setRole _) (eases_pure _))
  intro _
  apply eases_bind (eases_ask _)
  intro anchor
  apply eases_bind eases_attemptToAcquireLeader
  intro acquired
  rcases acquired with _ | _ | _
  · exact eases_bind (eases_setLeader false) fun _ => eases_pure _
  · exact eases_bind (eases_setLeader false) fun _ => eases_pure _
  · exact eases_bind (eases_setLeader true) fun _ =>
      eases_bind (eases_extendLeaderLease anchor) fun _ =>
      eases_bind eases_await fun _ => eases_pure _

theorem eases_initializeCluster : Eases true gives initializeCluster := by
  apply eases_bind (eases_ask _)
  intro usable
  apply eases_ite
  · exact eases_bind eases_await fun _ => eases_pure _
  · apply eases_bind eases_bootstrapNewCluster
    intro bootstrapped
    cases bootstrapped with
    | initializedAsPrimary => exact eases_lockBootstrapped
    | lostRace => exact eases_pure _
    | failed => exact eases_pure _
    | clonedAsReplica => exact eases_pure _

theorem eases_cloneFromMember : Eases takes gives cloneFromMember := by
  have fails (message : Str) : Eases takes gives (do
      let _ ← removeDataDirectory
      pure (BootstrapResult.failed message)) := eases_bind eases_removeDataDirectory fun _ =>
        eases_pure _
  have configures : Eases takes gives configureClone := by
    apply eases_bind eases_removeNodeStateFiles
    intro removed
    cases removed with
    | error => exact eases_pure _
    | ok => exact eases_writeStandbyConfig
  apply eases_bind (eases_answer _)
  intro source
  cases source with
  | none => exact eases_pure _
  | some name =>
      apply eases_bind eases_basebackup
      intro cloned
      cases cloned with
      | error => exact fails _
      | ok =>
          apply eases_bind configures
          intro configured
          cases configured with
          | error => exact fails _
          | ok => exact eases_pure _

theorem eases_cloneAndStart : Eases takes gives cloneAndStart := by
  apply eases_bind eases_cloneFromMember
  intro cloned
  cases cloned with
  | clonedAsReplica =>
      apply eases_bind eases_start
      intro started
      cases started with
      | ok =>
          exact eases_bind (eases_setRole _) fun _ => eases_bind eases_resetSyncCache fun _ =>
            eases_pure _
      | error => exact eases_pure _
  | failed => exact eases_pure _
  | initializedAsPrimary => exact eases_pure _
  | lostRace => exact eases_pure _

/-- In pause mode nothing is done. -/
theorem eases_handleEmptyDataDir : Eases takes gives handleEmptyDataDir := by
  intro env ha allowed
  unfold handleEmptyDataDir
  apply carries_ask_bind
  apply carries_ask_bind
  apply carries_ask_bind
  cases paused : ha.isPaused with
  | true => exact carries_pure trivial
  | false =>
      obtain ⟨rfl, rfl⟩ := allowed.unpaused paused
      simp only [Bool.false_eq_true, if_false]
      exact eases_ite eases_initializeCluster (eases_ite eases_cloneAndStart (eases_pure _)) env
        ha allowed

/-! ### Commands -/

theorem eases_stepDown : Eases takes true stepDown := by
  apply eases_bind (eases_prepareDemotion false)
  intro written
  apply eases_bind eases_stopPublishingNotPrimary
  intro stopped
  apply eases_bind (eases_setRole _)
  intro _
  cases stopped with
  | error => exact eases_pure _
  | ok =>
      apply eases_bind eases_releaseLeaderLockIfStopped
      intro released
      apply eases_ite (eases_pure _)
      cases written with
      | error => exact eases_pure _
      | ok => exact eases_pure _

theorem eases_handleSwitchoverCommand (leader candidate scheduledAt : Option Str) :
    Eases takes true (handleSwitchoverCommand leader candidate scheduledAt) := by
  apply eases_bind (eases_read _)
  intro refused
  cases refused with
  | some => exact eases_pure _
  | none =>
      apply eases_bind eases_attempt
      intro written
      cases written with
      | error => exact eases_pure _
      | ok =>
          apply eases_bind eases_renewHeldLock
          intro renewed
          exact eases_ite eases_stepDown (eases_bind eases_fenceForLostLease fun _ => eases_pure _)

theorem eases_handleFailoverCommand (candidate : Option Str) :
    Eases takes gives (handleFailoverCommand candidate) := by
  apply eases_bind (eases_read _)
  intro refused
  cases refused with
  | some => exact eases_pure _
  | none =>
      apply eases_bind eases_attempt
      intro written
      cases written with
      | error => exact eases_pure _
      | ok => exact eases_pure _

theorem eases_stopUnderLock : Eases takes gives stopUnderLock := by
  apply eases_bind eases_await
  intro _
  apply eases_bind (eases_stop _)
  intro stopped
  apply eases_bind eases_await
  intro _
  apply eases_bind
  · exact eases_update fun _ => rfl
  · exact fun _ => eases_pure _

theorem eases_handleRestartCommand : Eases takes gives handleRestartCommand := by
  have starts : Eases takes gives startRestarted := by
    apply eases_bind eases_start
    intro started
    cases started with
    | error => exact eases_pure _
    | ok => exact eases_pure _
  apply eases_bind (eases_read _)
  intro stale
  apply eases_ite (eases_pure _)
  apply eases_bind eases_refreshRewindHold
  intro held
  apply eases_ite (eases_pure _)
  apply eases_bind (eases_read _)
  intro holding
  apply eases_ite
  · apply eases_bind eases_stopUnderLock
    intro stopped
    cases stopped with
    | error => exact eases_pure _
    | ok => exact starts
  · apply eases_bind eases_prepareStandbyStart
    intro prepared
    cases prepared with
    | error => exact eases_pure _
    | ok =>
        apply eases_bind eases_stopPublishingNotPrimary
        intro stopped
        cases stopped with
        | error => exact eases_pure _
        | ok => exact starts

theorem eases_handleReinitializeCommand : Eases takes gives handleReinitializeCommand := by
  have removes : Eases takes gives reinitializeStopped := by
    apply eases_bind eases_removeDataDirectory
    intro removed
    cases removed with
    | error => exact eases_pure _
    | ok => exact eases_bind eases_clearRewindHold fun _ => eases_pure _
  apply eases_bind (eases_read _)
  intro isLeader
  apply eases_bind (eases_read _)
  intro exposed
  apply eases_ite (eases_pure _)
  apply eases_ite
  · apply eases_bind eases_fencePrimary
    intro fenced
    cases fenced with
    | error => exact eases_pure _
    | ok => exact removes
  · exact eases_bind (eases_stop _) fun _ => removes

theorem eases_handleCommand (command : ManagementCommand) :
    Eases takes true (handleCommand command) := by
  apply eases_bind (eases_noted (.began (.command command)) trivial)
  intro _
  apply eases_bind (eases_read _)
  intro shuttingDown
  apply eases_ite (eases_pure _)
  cases command with
  | switchover leader candidate scheduledAt =>
      exact eases_handleSwitchoverCommand leader candidate scheduledAt
  | failover candidate => exact eases_handleFailoverCommand candidate
  | cancelSwitchover => exact eases_pure _
  | restart => exact eases_handleRestartCommand
  | reinitializeNode => exact eases_handleReinitializeCommand

/-- By induction on the commands; without one nothing is given up. -/
theorem eases_processCommands (commands : List ManagementCommand)
    (permits : gives = false → commands = []) :
    Eases takes gives (processCommands commands) := by
  induction commands with
  | nil => exact eases_pure _
  | cons command rest ih =>
      cases gives with
      | false => cases permits rfl
      | true =>
          exact eases_bind (eases_handleCommand command) fun _ => eases_bind eases_await fun _ =>
            ih fun no => by cases no

/-! ### A cycle in a paused cluster -/

/-- What a cycle is given during the pause: a paused view, if any, and a configuration that does
not lift it. The operator commands only where the node `gives`. -/
structure Paused (gives : Bool) (env : Env) : Prop where
  view : ∀ tick view, env.cluster tick = .ok view → view.pause = some true
  config : ∀ tick new, env.globalConfig tick = some new → new.pause ≠ some false
  commands : gives = false → env.commands = []

theorem paused_of_allowed (allowed : Allowed false gives ha) : ha.isPaused = true := by
  cases paused : ha.isPaused with
  | true => rfl
  | false => cases (allowed.unpaused paused).1

theorem eases_handleDcsError : Eases takes gives handleDcsError := by
  apply eases_bind (eases_read _)
  intro isLeader
  apply eases_ite
  · apply eases_bind (eases_setLeader _)
    intro _
    apply eases_bind eases_resetSyncCache
    intro _
    apply eases_bind (eases_prepareDemotion true)
    intro written
    apply eases_bind eases_stopPublishingNotPrimary
    intro _
    apply eases_bind (eases_setRole _)
    intro _
    cases written with
    | ok => exact eases_pure _
    | error => exact eases_pure _
  · exact eases_bind (eases_read _) fun _ =>
      eases_bind (eases_ite (eases_bind eases_retryPendingStop fun _ => eases_pure _)
        (eases_pure _)) fun _ =>
        eases_pure _

theorem eases_takeView {view : ClusterView} (pause : view.pause = some true) :
    Eases false gives (takeView view) := by
  intro env ha allowed
  have paused := paused_of_allowed allowed
  unfold takeView
  apply carries_change_bind
  · constructor
    · simp [pause, paused]
    · rfl
    · exact fun _ none => none
    · exact appends_refl _
  apply carries_ask_bind
  split
  · exact carries_pure trivial
  · apply carries_change_bind (rests_noted .lockMissing trivial rfl)
    apply eases_setLeaderLease none env
    constructor
    · simp [Ha.noted, pause]
    · exact allowed.required

theorem processDynamicConfig_rested (given : Paused gives env) (allowed : Allowed false gives ha) :
    Rested false gives processDynamicConfig env ha fun _ _ => True := by
  unfold processDynamicConfig
  apply carries_bind (eases_await env ha allowed)
  intro _ waited first _
  have still := allowed_rests first allowed
  have paused := paused_of_allowed still
  apply carries_ask_bind
  cases answered : env.globalConfig waited.tick with
  | none => exact carries_pure trivial
  | some new =>
      have stays : new.pause.getD waited.isPaused = waited.isPaused := by
        rcases asked : new.pause with _ | _ | _
        · rfl
        · exact absurd asked (given.config _ new answered)
        · exact paused.symm
      have applied : Rests false gives waited (applyNewConfig new waited) :=
        ⟨stays, rfl, fun _ none => none, appends_refl _⟩
      have moved : Rested false gives (update (applyNewConfig new)) env waited
          fun _ after => after = applyNewConfig new waited := ⟨applied, rfl⟩
      apply carries_bind moved
      rintro _ _ _ rfl
      exact eases_bind (eases_ask _) (fun _ => eases_ite eases_await (eases_pure _)) env _
        (allowed_rests applied still)

/-- The steps of `prepareCycle` after the flag is set. -/
def enterCycle : HaProg (Option CycleResult) := do
  let registered ← read fun ha => ha.cluster.hasMember ha.config.name
  (if registered then pure () else touchMember)
  let empty ← read fun ha => ha.directory.empty
  match empty with
  | .error e => pure (some (.error ("Data directory error: ".toList ++ e)))
  | .ok true => do
      let result ← handleEmptyDataDir
      pure (some result)
  | .ok false => do
      let running ← read Ha.isRunning
      let shuttingDown ← read Ha.shuttingDown
      if running then pure none
      else do
        update fun ha => { ha with stopPending := false }
        if shuttingDown then
          pure (some (.follower "PostgreSQL stopped; graceful shutdown finishing".toList))
        else do
          let result ← handlePostgresNotRunning
          pure (some result)

theorem prepareCycle_eq (view : ClusterView) : prepareCycle view = (do
    takeView view
    processDynamicConfig
    publishFenceDeadline
    enterCycle) := rfl

theorem eases_enterCycle : Eases takes gives enterCycle := by
  apply eases_bind (eases_read _)
  intro registered
  apply eases_bind (eases_ite (eases_pure _) eases_await)
  intro _
  apply eases_bind (eases_read _)
  intro empty
  rcases empty with _ | _ | _
  · exact eases_pure _
  · apply eases_bind (eases_read _)
    intro running
    apply eases_bind (eases_read _)
    intro shuttingDown
    apply eases_ite (eases_pure _)
    apply eases_bind
    · exact eases_update fun _ => rfl
    intro _
    apply eases_ite (eases_pure _)
    exact eases_bind eases_handlePostgresNotRunning fun _ => eases_pure _
  · exact eases_bind eases_handleEmptyDataDir fun _ => eases_pure _

theorem prepareCycle_rested (given : Paused gives env) {view : ClusterView}
    (pause : view.pause = some true)
    (allowed : Allowed false gives ha) : Rested false gives (prepareCycle view) env ha fun _ _ =>
    True := by
  rw [prepareCycle_eq]
  apply carries_bind (eases_takeView pause env ha allowed)
  intro _ viewed first _
  have still := allowed_rests first allowed
  apply carries_bind (processDynamicConfig_rested given still)
  intro _ configured second _
  exact eases_bind eases_publishFenceDeadline (fun _ => eases_enterCycle) env configured
    (allowed_rests second still)

theorem eases_observeIdentity : Eases takes gives observeIdentity := by
  apply eases_bind eases_observeRecovery
  intro _
  apply eases_bind
  · exact eases_update fun _ => rfl
  · exact fun _ => eases_read _

theorem eases_decideCycle : Eases takes gives decideCycle := by
  apply eases_bind (eases_read _)
  intro stranded
  apply eases_bind (eases_read _)
  intro leader
  apply eases_ite
  · exact eases_bind eases_retryPendingStop fun _ => eases_pure _
  · cases leader with
    | none => exact eases_processUnhealthyCluster
    | some lockOwner => exact eases_processHealthyCluster lockOwner

theorem runCycle_rested (given : Paused gives env) (allowed : Allowed false gives ha) :
    Rested false gives runCycle env ha fun _ _ => True := by
  unfold runCycle
  apply carries_ask_bind
  apply carries_bind (eases_processCommands env.commands given.commands env ha allowed)
  intro _ commanded first _
  apply carries_change_bind (rests_noted (.began .cycle) trivial rfl)
  have began : Rests false gives commanded (commanded.noted (.began .cycle)) :=
    rests_noted (.began .cycle) trivial rfl
  apply carries_bind (eases_await env _ (allowed_rests began (allowed_rests first allowed)))
  intro _ waited second _
  have still := allowed_rests second (allowed_rests began (allowed_rests first allowed))
  apply carries_ask_bind
  cases loaded : env.cluster waited.tick with
  | error => exact eases_bind eases_handleDcsError (fun _ => eases_pure _) env waited still
  | ok view =>
      apply carries_bind (prepareCycle_rested given (given.view _ view loaded) still)
      intro ended prepared third _
      have ready := allowed_rests third still
      cases ended with
      | some => exact carries_pure trivial
      | none =>
          exact eases_bind eases_observeIdentity (fun _ => eases_bind (eases_ask _) fun _ =>
            eases_bind eases_decideCycle fun _ => eases_pure _) env prepared ready

/-- No deadline is published in pause mode, so the wait for the lease never ends. -/
theorem racedCycle_rests (given : Paused gives env) (alone : ∀ tick, env.interrupted tick = false)
    (allowed : Allowed false gives ha) :
    Ends racedCycle env ha (fun _ after => Rests false gives ha after) fun _ => False := by
  have paused := paused_of_allowed allowed
  unfold racedCycle
  apply ends_change_bind
  apply ends_cutIf_bind
  · intro expires
    exact due_of_dropped expires alone (if_pos paused)
  intro _
  apply ends_change_bind
  have published : Rests false gives ha
      { ha with fenceDeadline := if ha.isPaused then none else ha.leaderLease, unseen := false } :=
    ⟨rfl, rfl, fun _ _ => if_pos paused, appends_refl _⟩
  apply ends_mono (runCycle_rested given (allowed_rests published allowed))
  · exact fun _ after ended => IsTrans.trans _ _ _ published ended.1
  · intro after ⟨cut, _⟩
    exact cut.due alone (cut.deadline paused (if_pos paused))

theorem forgets_rests (allowed : Allowed false gives ha) :
    Ends (do
        let isLeader ← HaState.read Ha.isLeader
        (if isLeader then pure () else setLeaderLease none)) env ha
      (fun _ after => Rests false gives ha after) fun _ => False := by
  apply ends_ask_bind
  split
  · exact ends_pure (Std.Refl.refl ha)
  · have forgets : Rested false gives (setLeaderLease none) env ha fun _ _ => True :=
      eases_setLeaderLease none env ha allowed
    exact forgets.1

theorem finishedCycle_rests (given : Paused gives env) (allowed : Allowed false gives ha) :
    Ends finishedCycle env ha (fun _ after => Rests false gives ha after) fun _ => False := by
  have raced : Paused gives (racing true env) := ⟨given.view, given.config, given.commands⟩
  apply ends_bind (ends_under (racedCycle_rests raced (fun _ => rfl) allowed))
  intro cycle reached first
  have still := allowed_rests first allowed
  apply ends_bind (forgets_rests still)
  intro _ closed second
  have after := IsTrans.trans _ _ _ first second
  have watches : Ends (under (racing false) reconcileWatchdog) env closed
      (fun _ last => Rests false gives ha last) fun _ => False := by
    apply ends_under
    apply ends_mono (eases_reconcileWatchdog (racing false env) closed (allowed_rests second still))
    · exact fun _ last ended => IsTrans.trans _ _ _ after ended.1
    · exact fun _ cut => by cases cut.2
  exact ends_bind watches fun _ last rests => ends_pure rests

theorem runCycleBounded_rests (given : Paused gives env) (allowed : Allowed false gives ha) :
    Ends runCycleBounded env ha (fun _ after => Rests false gives ha after) fun _ => False :=
  ends_onCut (finishedCycle_rests given allowed) fun _ impossible => impossible.elim

/-! ### Runs -/

/-- A round of the loop, whatever it reports. -/
def cycle (ha : Ha) (env : Env) : Option Ha := some (stateAfter (runCycleBounded env ha))

theorem cycle_rests {after : Ha} (given : Paused gives env) (allowed : Allowed false gives ha)
    (stepped : cycle ha env = some after) : Rests false gives ha after := by
  obtain ⟨report, reached, ran, rests⟩ := ends_completes (runCycleBounded_rests given allowed)
  have ended : stateAfter (runCycleBounded env ha) = reached := by rw [ran]; rfl
  cases stepped
  rw [ended]
  exact rests

theorem run_rests {after : Ha} (allowed : Allowed false gives ha)
    (path : Reaches cycle (fun _ env => Paused gives env) ha after) :
    Rests false gives ha after := by
  apply reaches_invariant (fun reached => Rests false gives ha reached) (Std.Refl.refl ha) _ path
  intro reached env next rests given stepped
  exact IsTrans.trans _ _ _ rests (cycle_rests given (allowed_rests rests allowed) stepped)

/-- While the pause lasts, the cycles take no lock, initialize no cluster and fence for no
lease. Without a command and a required watchdog they give no lock up either. -/
theorem paused_run_takes_nothing {after : Ha} (paused : ha.isPaused = true)
    (required : ha.config.watchdogMode = .required → gives = true)
    (path : Reaches cycle (fun _ env => Paused gives env) ha after) :
    after.isPaused = true ∧ ∃ new, after.trace = new ++ ha.trace ∧ ∀ event ∈ new,
      event ≠ .acquiring ∧ event ≠ .wonInitialize ∧ event ≠ .began .leaseFence ∧
        (gives = false → ∀ moment, event ≠ .deleteLeader moment) := by
  have allowed : Allowed false gives ha :=
    ⟨fun unpaused => by simp [paused] at unpaused, required⟩
  have rests := run_rests allowed path
  obtain ⟨new, appended, idles⟩ := rests.trace
  refine ⟨rests.isPaused.trans paused, new, appended, ?_⟩
  intro event seen
  have ok := idles event seen
  refine ⟨?_, ?_, ?_, ?_⟩
  · rintro rfl
    cases ok
  · rintro rfl
    cases ok
  · rintro rfl
    exact ok
  · rintro keeps moment rfl
    rw [keeps] at ok
    cases ok

def pausedView : ClusterView := { PrimaryFenced.viewOf ['a'] with pause := some true }

/-- The lock holder of a paused cluster whose renewal the DCS refuses. -/
def pausedCycle : Env :=
  { PrimaryFenced.quick ['a'] PrimaryFenced.steadyWall with
    cluster := fun _ => .ok pausedView
    swap := fun _ => .ok false }

def pausedPrimary : Ha := { PrimaryFenced.primaryNode with isPaused := true, cluster := pausedView }

theorem paused_run_takes_nothing_refusedRenewal :
    ∃ after : Ha, after.isPaused = true ∧ ∃ new, after.trace = new ++ pausedPrimary.trace ∧
      ∀ event ∈ new,
      event ≠ .acquiring ∧ event ≠ .wonInitialize ∧ event ≠ .began .leaseFence ∧
        (false = false → ∀ moment, event ≠ .deleteLeader moment) := by
  have given : Paused false pausedCycle := by
    constructor
    · rintro tick view ⟨⟩
      rfl
    · rintro tick new ⟨⟩
    · exact fun _ => rfl
  have path : Reaches cycle (fun _ env => Paused false env) pausedPrimary _ :=
    .next pausedCycle (.next pausedCycle .refl given rfl) given rfl
  exact ⟨_, paused_run_takes_nothing rfl (fun needs => by cases needs) path⟩

end PgHa.PauseSafe
