import PgHa.CallSteps

/-!
The steps of `ha/mod.rs`, `ha/election.rs` and `ha/commands.rs` obey the laws of the call
order. Most stay inside one operation and one lock term; those that take the lock or
promote are followed through the pending promote of the term.
-/

namespace PgHa.CallGates

open Text Cluster Identity Interruptible Lease LatestTimeline Trace SyncReplication HaState Election
open HaHelpers HaFollow HaCycle HaFrames HaShutdown CallOrder CallSteps

variable {gated : Prop} {env : Env} {ha : Ha} {Value Next : Type}

/-! ### Programs inside an operation -/

theorem tidy_recordStandbyLeaderTimeline : Tidy gated recordStandbyLeaderTimeline := by
  refine tidy_bind (tidy_read _) fun newest => ?_
  cases newest with
  | ok history => exact tidy_ite (tidy_quiet (recordOwnTimeline_quiet _)) (tidy_pure _)
  | error e => exact tidy_pure _

theorem tidy_enforceStandbyLeaderRole : Tidy gated enforceStandbyLeaderRole := by
  refine tidy_bind (tidy_read _) fun config => tidy_bind (tidy_read _) fun _ => ?_
  cases config with
  | none => exact tidy_pure _
  | some remote =>
      exact tidy_bind (tidy_read _) fun _ => tidy_ite
        (tidy_bind (tidy_quiet (setRole_quiet _)) fun _ => tidy_bind tidy_await fun _ =>
          tidy_bind tidy_recordStandbyLeaderTimeline fun _ => tidy_pure _)
        (tidy_bind tidy_await fun _ => tidy_pure _)

theorem sound_armed : Sound gated ha (Ha.noted { ha with watchdogActive := true } .armed) :=
  ⟨orderly_event .armed rfl rfl rfl (seen_event rfl rfl rfl rfl)
    (fun watched => ⟨⟨trivial, watched.each⟩, watched.known, rfl⟩) fun _ => trivial,
    owed_kept rfl rfl id⟩

/-- A required watchdog that was armed is active. -/
theorem armWatchdog_ordered : Ordered gated armWatchdog env ha (fun armed after =>
    after.pgIdentity = ha.pgIdentity ∧ after.isLeader = ha.isLeader ∧
      (armed = .ok () → after.config.watchdogMode = .required →
        after.watchdogActive = true)) := by
  unfold armWatchdog
  apply carries_ask_bind
  apply carries_ask_bind
  apply carries_ask_bind
  split
  · rename_i covered
    refine carries_pure ⟨rfl, rfl, fun _ required => ?_⟩
    rcases Bool.or_eq_true _ _ |>.mp covered with active | off
    · exact active
    · simp [required] at off
  · split
    · exact carries_change_bind sound_armed (carries_pure ⟨rfl, rfl, fun _ _ => rfl⟩)
    · split
      · refine carries_pure ⟨rfl, rfl, fun no => ?_⟩
        cases no
      · rename_i optional
        refine carries_pure ⟨rfl, rfl, fun _ required => ?_⟩
        simp [required] at optional

theorem tidy_hold : Tidy gated hold := by
  refine tidy_bind (tidy_ask _) fun _ => tidy_ite (tidy_fenceAtLeaseCheck _)
    (tidy_bind (fun _ _ => ordered_tidy armWatchdog_ordered) fun armed => ?_)
  cases armed with
  | error e => exact tidy_bind (tidy_setLeaderLease none) fun _ => tidy_fenceAtLeaseCheck _
  | ok =>
      exact tidy_bind (tidy_quiet (setRole_quiet _)) fun _ => tidy_bind tidy_await fun _ =>
        tidy_bind (tidy_quiet recordClusterTimeline_quiet) fun _ =>
          tidy_bind (tidy_quiet enforceSynchronousReplication_quiet) fun _ =>
            tidy_bind (tidy_quiet appendPendingHistory_quiet) fun _ =>
              tidy_bind (tidy_read _) fun _ => tidy_pure _

/-- A stop that follows its demotion write. -/
theorem tidy_demotionStop (rewindCheck : Bool)
    {next : Except Str Unit → Except Str Unit → HaProg Value}
    (rest : ∀ written stopped, Tidy gated (next written stopped)) :
    Tidy gated (do
      let written ← prepareDemotion rewindCheck
      let stopped ← stopAfterDemotionWrite
      next written stopped) := by
  intro env ha
  apply carries_bind (prepareDemotion_ordered rewindCheck)
  intro written prepared _ wrote
  apply carries_bind (stopAfterDemotionWrite_ordered (.inr (.inl wrote)))
  intro stopped after _ _
  exact rest written stopped env after

theorem tidy_demote : Tidy gated demote := by
  refine tidy_bind (tidy_quiet resetSyncCache_quiet) fun _ =>
    tidy_demotionStop true fun written _ => tidy_bind (tidy_quiet (setRole_quiet _)) fun _ => ?_
  cases written with
  | ok => exact tidy_pure _
  | error e => exact tidy_pure _

/-- The lock is held, so the operator's `recovery.signal` may stay. -/
theorem relinquishUnmanagedRecovery_ordered (leads : ha.isLeader = true)
    (holds : granted ha.trace = true) :
    Ordered gated relinquishUnmanagedRecovery env ha (fun _ _ => True) := by
  have may : MayStop ha := .inl ⟨leads, .inr holds⟩
  have ends (stopped : Except Str Unit) (running : Bool) (cause : Str) : Tidy gated (
      if !stopped.isOk || running then do
        touchMember
        pure (CycleResult.error
          ("holding the leader lock in unmanaged recovery (".toList ++ cause ++
          "); stop failed, fencing until stopped".toList))
      else do
        let released ← releaseLeaderLockIfStopped
        touchMember
        if released then
          pure (.error ("released leader lock: PostgreSQL in unmanaged recovery (".toList ++
            cause ++
            "); operator action required".toList))
        else
          pure (.error ("stopped PostgreSQL in unmanaged recovery (".toList ++ cause ++
            "), but the leader lock was not released".toList))) :=
    tidy_ite (tidy_bind tidy_await fun _ => tidy_pure _)
      (tidy_bind tidy_releaseLeaderLockIfStopped fun _ => tidy_bind tidy_await fun _ =>
        tidy_ite (tidy_pure _) (tidy_pure _))
  unfold relinquishUnmanagedRecovery
  apply carries_ask_bind
  apply carries_ask_bind
  split
  · exact tidy_bind tidy_await (fun _ => tidy_pure _) env ha
  · have stops (recovery : Bool) : Ordered gated (if recovery then stopPreservingRecoveryIntent
        else do
          let _ ← prepareDemotion true
          stopAfterDemotionWrite) env ha (fun _ _ => True) := by
      split
      · exact ordered_tidy (stopPublishing_ordered may)
      · apply carries_bind (prepareDemotion_ordered true)
        intro _ prepared _ wrote
        exact ordered_tidy (stopAfterDemotionWrite_ordered (.inr (.inl wrote)))
    apply carries_bind (stops _)
    intro stopped after _ _
    apply carries_ask_bind
    exact ends stopped _ _ env after

theorem tidy_checkStance : Tidy gated checkStance := by
  refine tidy_bind (tidy_read _) fun identity => tidy_bind (tidy_read _) fun pending => ?_
  split
  · exact tidy_pure _
  · exact tidy_bind tidy_await fun _ => tidy_pure _
  · refine tidy_bind tidy_fencePrimary fun fenced => ?_
    cases fenced with
    | ok => exact tidy_pure _
    | error e => exact tidy_pure _
  · exact tidy_bind tidy_await fun _ => tidy_pure _

theorem tidy_checkEligible : Tidy gated checkEligible := by
  refine tidy_bind (tidy_ask _) fun own => ?_
  split
  · exact tidy_pure _
  · refine tidy_bind (tidy_read _) fun identity => tidy_ite
      (tidy_bind tidy_fencePrimary fun fenced => ?_) (tidy_bind tidy_await fun _ => tidy_pure _)
    cases fenced with
    | ok => exact tidy_pure _
    | error e => exact tidy_pure _

theorem tidy_checkStale : Tidy gated checkStale := by
  refine tidy_bind (tidy_ask _) fun stale => tidy_ite
    (tidy_bind tidy_fencePrimary fun fenced => ?_) (tidy_pure _)
  cases fenced with
  | ok => exact tidy_bind tidy_await fun _ => tidy_pure _
  | error e => exact tidy_pure _

theorem tidy_releaseWhileDown : Tidy gated releaseWhileDown := by
  refine tidy_bind (tidy_read _) fun _ => tidy_bind (tidy_read _) fun _ =>
    tidy_ite (tidy_pure _) (tidy_ite (tidy_pure _) (tidy_bind tidy_deleteLeader fun deleted => ?_))
  cases deleted with
  | ok =>
      exact tidy_bind (tidy_setLeader false) fun _ =>
        tidy_bind (tidy_quiet resetSyncCache_quiet) fun _ => tidy_pure _
  | error e => exact tidy_pure _

theorem tidy_rejoinAfterFailedStarts : Tidy gated rejoinAfterFailedStarts := by
  refine tidy_bind (tidy_read _) fun _ => tidy_ite
    (tidy_bind (tidy_update fun _ => rfl) fun _ => tidy_bind (tidy_read _) fun leader => ?_)
    (tidy_pure _)
  cases leader with
  | none => exact tidy_pure _
  | some name => exact tidy_bind (tidy_rejoinAsReplica name) fun _ => tidy_pure _

theorem tidy_startAsStandby : Tidy gated startAsStandby := by
  intro env ha
  unfold startAsStandby
  apply carries_bind prepareStandbyStart_ordered
  intro prepared ready _ wrote
  cases prepared with
  | error e => exact carries_pure trivial
  | ok =>
      apply carries_bind (start_ordered (.inl (wrote rfl).2))
      intro started after _ _
      cases started with
      | ok => exact carries_change_bind (sound_of_steady rfl) (carries_pure trivial)
      | error e =>
          exact carries_change_bind (sound_of_steady rfl) (carries_ask_bind (carries_pure trivial))

/-- By induction on the checks that are left. -/
theorem tidy_firstResult {checks : List (HaProg (Option CycleResult))} {last : HaProg CycleResult}
    (each : ∀ check ∈ checks, Tidy gated check) (final : Tidy gated last) :
    Tidy gated (firstResult checks last) := by
  induction checks with
  | nil => exact final
  | cons check rest ih =>
      refine tidy_bind (each check List.mem_cons_self) fun found => ?_
      cases found with
      | some result => exact tidy_pure _
      | none => exact ih fun other member => each other (List.mem_cons_of_mem _ member)

theorem tidy_handlePostgresNotRunning : Tidy gated handlePostgresNotRunning := by
  refine tidy_firstResult ?_ tidy_startAsStandby
  simp only [List.forall_mem_cons]
  exact ⟨tidy_releaseWhileDown, tidy_bind (tidy_read _) fun _ => tidy_pure _,
    tidy_enforceGeneration, tidy_enforceRewindHold, tidy_rejoinAfterFailedStarts,
    fun _ none => by cases none⟩

/-! ### Bootstrap and clone -/

theorem configureClone_ordered : Ordered gated configureClone env ha
    (fun configured after => configured = .ok () → signalled after.trace = true) := by
  unfold configureClone
  apply carries_bind (tidy_quiet removeNodeStateFiles_quiet env ha)
  intro removed cleared _ _
  cases removed with
  | error e =>
      refine carries_pure fun no => ?_
      cases no
  | ok => exact carries_weaken writeStandbyConfig_ordered fun _ _ _ wrote ok => wrote.2 ok

/-- A clone that is ready to start has its signal. -/
theorem cloneFromMember_ordered : Ordered gated cloneFromMember env ha
    (fun cloned after => cloned = .clonedAsReplica → signalled after.trace = true) := by
  unfold cloneFromMember
  have fails (message : Str) {reached : Ha} : Ordered gated (do
      let _ ← removeDataDirectory
      pure (BootstrapResult.failed message)) env reached
      (fun cloned after => cloned = .clonedAsReplica → signalled after.trace = true) := by
    apply carries_bind (tidy_removeDataDirectory env reached)
    intro _ after _ _
    refine carries_pure fun no => ?_
    cases no
  apply carries_ask_bind
  split
  · refine carries_pure fun no => ?_
    cases no
  · apply carries_bind (tidy_quiet basebackup_quiet env ha)
    intro cloned copied _ _
    cases cloned with
    | error e => exact fails _
    | ok =>
        apply carries_bind configureClone_ordered
        intro configured after _ wrote
        cases configured with
        | error e => exact fails _
        | ok => exact carries_pure fun _ => wrote rfl

theorem tidy_cloneAndStart : Tidy gated cloneAndStart := by
  intro env ha
  unfold cloneAndStart
  apply carries_bind cloneFromMember_ordered
  intro cloned ready _ wrote
  cases cloned with
  | clonedAsReplica =>
      apply carries_bind (start_ordered (.inl (wrote rfl)))
      intro started after _ _
      cases started with
      | error e => exact carries_pure trivial
      | ok =>
          exact tidy_bind (tidy_quiet (setRole_quiet _))
            (fun _ => tidy_bind (tidy_quiet resetSyncCache_quiet) fun _ => tidy_pure _) env after
  | failed e => exact carries_pure trivial
  | initializedAsPrimary => exact carries_pure trivial
  | lostRace => exact carries_pure trivial

/-- Only the winner of the race starts a server without a signal. -/
theorem tidy_bootstrapNewCluster : Tidy gated bootstrapNewCluster := by
  refine tidy_bind tidy_swapWrite fun race env ha => ?_
  match race with
  | .error e => exact carries_pure trivial
  | .ok false => exact carries_pure trivial
  | .ok true =>
      refine carries_change_bind
        (sound_noted .wonInitialize rfl rfl) ?_
      have first : won (ha.noted .wonInitialize).trace = true := rfl
      apply carries_bind (tidy_attempt env _)
      intro created made kept _
      have still := kept.won first
      cases created with
      | error e => exact tidy_bind tidy_removeDataDirectory (fun _ => tidy_pure _) env made
      | ok =>
          apply carries_bind (start_ordered (.inr (.inr still)))
          intro started after _ _
          cases started with
          | error e => exact tidy_bind tidy_removeDataDirectory (fun _ => tidy_pure _) env after
          | ok => exact tidy_bind tidy_await (fun _ => tidy_pure _) env after

/-! ### Commands -/

theorem tidy_stepDown : Tidy gated stepDown := by
  refine tidy_demotionStop false fun written stopped =>
    tidy_bind (tidy_quiet (setRole_quiet _)) fun _ => ?_
  cases stopped with
  | error e => exact tidy_pure _
  | ok =>
      refine tidy_bind tidy_releaseLeaderLockIfStopped fun _ => tidy_ite (tidy_pure _) ?_
      cases written with
      | ok => exact tidy_pure _
      | error e => exact tidy_pure _

theorem tidy_handleSwitchoverCommand (leader candidate scheduledAt : Option Str) :
    Tidy gated (handleSwitchoverCommand leader candidate scheduledAt) := by
  refine tidy_bind (tidy_read _) fun refused => ?_
  cases refused with
  | some reason => exact tidy_pure _
  | none =>
      refine tidy_bind tidy_attempt fun written => ?_
      cases written with
      | error e => exact tidy_pure _
      | ok =>
          exact tidy_bind tidy_renewHeldLock fun _ => tidy_ite tidy_stepDown
            (tidy_bind tidy_fenceForLostLease fun _ => tidy_pure _)

theorem tidy_handleFailoverCommand (candidate : Option Str) :
    Tidy gated (handleFailoverCommand candidate) := by
  refine tidy_bind (tidy_read _) fun refused => ?_
  cases refused with
  | some reason => exact tidy_pure _
  | none =>
      refine tidy_bind tidy_attempt fun written => ?_
      cases written with
      | error e => exact tidy_pure _
      | ok => exact tidy_pure _

theorem startRestarted_ordered (may : MayStart ha) :
    Ordered gated startRestarted env ha (fun _ _ => True) := by
  unfold startRestarted
  apply carries_bind (start_ordered may)
  intro started after _ _
  cases started with
  | error e => exact carries_pure trivial
  | ok => exact carries_pure trivial

/-- Under the lock: the node leads from before the stop until after it. -/
theorem stopUnderLock_ordered (leads : ha.isLeader = true) (owner : ha.isLockOwner = true) :
    Ordered gated stopUnderLock env ha
      (fun _ after => after.isLeader = true ∧ after.isLockOwner = true) := by
  unfold stopUnderLock
  apply carries_bind (ordered_quiet await_quiet)
  intro _ published begun first
  have leading : published.isLeader = true := first.isLeader.trans leads
  have owning : published.isLockOwner = true := by
    rw [Ha.isLockOwner, first.cluster, first.config]
    exact owner
  have law : StopLaw .handleRestartCommand (published.moment env) published.trace := by
    intro free _ _
    have held : holdsLock (published.moment env) published.trace = true := by
      change (published.isLeader && (published.isLockOwner || granted published.trace)) = true
      rw [leading, owning]
      rfl
    rw [held] at free
    cases free
  apply carries_bind (stop_ordered (by decide) law)
  intro stopped down moved halted
  apply carries_bind (ordered_quiet await_quiet)
  intro _ again last second
  have leaderStill : again.isLeader = true :=
    second.isLeader.trans (halted.loose.isLeader.trans leading)
  have ownerStill : again.isLockOwner = true := by
    rw [Ha.isLockOwner, second.cluster, second.config, moved.cluster, moved.config]
    exact owning
  refine carries_change_bind
    ⟨orderly_silent rfl rfl (seen_silent rfl rfl) (watched_silent rfl rfl), ?_⟩
    (carries_pure ⟨leaderStill, ownerStill⟩)
  cases stopped with
  | ok =>
      have stops : again.server = .stopped := stopped_drift second.toDrift (halted.server rfl)
      exact fun _ _ => .inr stops
  | error e => exact fun _ _ => .inl rfl

theorem restart_ordered (command : operation ha.trace = some (.command .restart)) :
    Ordered gated restart env ha (fun _ _ => True) := by
  unfold restart
  apply carries_ask_bind
  split
  · rename_i holding
    obtain ⟨leads, owner⟩ := Bool.and_eq_true _ _ |>.mp holding
    apply carries_bind (stopUnderLock_ordered leads owner)
    intro stopped after moved still
    cases stopped with
    | error e => exact carries_pure trivial
    | ok => exact startRestarted_ordered (.inr (.inl ⟨moved.operation.trans command, still⟩))
  · apply carries_bind prepareStandbyStart_ordered
    intro prepared ready _ wrote
    cases prepared with
    | error e => exact carries_pure trivial
    | ok =>
        apply carries_bind (stopAfterDemotionWrite_ordered (.inr (.inl (wrote rfl).1)))
        intro stopped after _ halted
        cases stopped with
        | error e => exact carries_pure trivial
        | ok => exact startRestarted_ordered (.inl (halted.1 (wrote rfl).2))

theorem handleRestartCommand_ordered (command : operation ha.trace = some (.command .restart)) :
    Ordered gated handleRestartCommand env ha (fun _ _ => True) := by
  unfold handleRestartCommand
  apply carries_ask_bind
  split
  · exact carries_pure trivial
  · apply carries_bind (tidy_quiet refreshRewindHold_quiet env ha)
    intro held fresh moved _
    split
    · exact carries_pure trivial
    · exact restart_ordered (moved.operation.trans command)

theorem tidy_handleReinitializeCommand : Tidy gated handleReinitializeCommand := by
  have removes : Tidy gated reinitializeStopped := by
    refine tidy_bind tidy_removeDataDirectory fun removed => ?_
    cases removed with
    | error e => exact tidy_pure _
    | ok => exact tidy_bind (tidy_quiet clearRewindHold_quiet) fun _ => tidy_pure _
  intro env ha
  unfold handleReinitializeCommand
  apply carries_ask_bind
  apply carries_ask_bind
  split
  · exact carries_pure trivial
  · split
    · apply carries_bind (tidy_fencePrimary env ha)
      intro fenced after _ _
      cases fenced with
      | error e => exact carries_pure trivial
      | ok => exact removes env after
    · rename_i harmless
      have law : StopLaw .handleReinitializeCommand (ha.moment env) ha.trace := by
        intro _ running _ primary
        change ha.isRunning = true at running
        change ha.pgIdentity = .primary at primary
        simp [running, primary] at harmless
      apply carries_bind (stop_ordered (by decide) law)
      intro _ after _ _
      exact removes env after

theorem tidy_processDynamicConfig : Tidy gated processDynamicConfig := by
  refine tidy_bind tidy_await fun _ => tidy_bind (tidy_answer _) fun config => ?_
  cases config with
  | none => exact tidy_pure _
  | some new =>
      exact tidy_bind (tidy_update fun _ => rfl) fun _ => tidy_bind (tidy_ask _) fun _ =>
        tidy_ite tidy_await (tidy_pure _)

theorem tidy_handleDcsError : Tidy gated handleDcsError := by
  intro env ha
  unfold handleDcsError
  apply carries_ask_bind
  split
  · refine tidy_bind (tidy_setLeader false) (fun _ =>
      tidy_bind (tidy_quiet resetSyncCache_quiet) fun _ => tidy_demotionStop true fun written _ =>
        tidy_bind (tidy_quiet (setRole_quiet _)) fun _ => ?_) env ha
    cases written with
    | ok => exact tidy_pure _
    | error e => exact tidy_pure _
  · apply carries_ask_bind
    have retries (again : Bool) (pending : again = true → ha.stopPending = true) :
        Ordered gated (if again then do
          let _ ← retryPendingStop
          pure ()
        else pure ()) env ha (fun _ _ => True) := by
      split
      · rename_i chosen
        apply carries_bind (retryPendingStop_ordered (pending chosen))
        intro _ after _ _
        exact carries_pure trivial
      · exact carries_pure trivial
    apply carries_bind (retries _ fun both => (Bool.and_eq_true _ _ |>.mp both).1)
    intro _ after _ _
    exact carries_pure trivial

theorem observeIdentity_ordered : Ordered gated observeIdentity env ha
    (fun _ after => Seen after) := by
  unfold observeIdentity
  apply carries_bind observeRecovery_ordered
  intro _ observed _ looked
  exact carries_change_bind (sound_of_steady rfl) (carries_ask (seen_silent rfl rfl looked.2))

/-! ### Steps that begin an operation or end a lock term -/

/-- The calls so far obey the laws, and a pending promote that is kept is one of this
lock term and names this node. -/
structure Good (gated : Prop) (ha : Ha) : Prop where
  lawful : Lawful gated ha
  pending : gated → ∀ pending, ha.promotePending = some pending →
    pendingOfTerm ha.trace = some pending ∧ pending.node = ha.config.name

structure Upright (gated : Prop) (before after : Ha) : Prop where
  config : after.config = before.config
  good : Good gated before → Good gated after
  watched : Watched before → Watched after

structure Whole (gated : Prop) (before after : Ha) : Prop extends Upright gated before after where
  owed : Owed before → Owed after

instance : Std.Refl (Upright gated) := ⟨fun _ => ⟨rfl, id, id⟩⟩

instance : IsTrans Ha (Upright gated) := ⟨fun _ _ _ first second =>
  ⟨second.config.trans first.config, second.good ∘ first.good,
    second.watched ∘ first.watched⟩⟩

instance : Std.Refl (Whole gated) := ⟨fun ha => ⟨Std.Refl.refl ha, id⟩⟩

instance : IsTrans Ha (Whole gated) := ⟨fun _ _ _ first second =>
  ⟨IsTrans.trans _ _ _ first.toUpright second.toUpright, second.owed ∘ first.owed⟩⟩

instance : Trans (Whole gated) (Upright gated) (Upright gated) :=
  ⟨fun first second => IsTrans.trans _ _ _ first.toUpright second⟩

theorem upright_of_orderly {before after : Ha} (orderly : Orderly gated before after) :
    Upright gated before after := by
  refine ⟨orderly.config, fun good => ⟨orderly.lawful good.lawful, ?_⟩, orderly.watched⟩
  intro judged pending found
  rw [orderly.term, orderly.config]
  exact good.pending judged pending (orderly.promotePending.symm.trans found)

theorem whole_of_sound {before after : Ha} (sound : Sound gated before after) :
    Whole gated before after := ⟨upright_of_orderly sound.toOrderly, sound.owed⟩

abbrev Guided (gated : Prop) (prog : HaProg Value) (env : Env) (ha : Ha)
    (post : Value → Ha → Prop) : Prop :=
  Carries (Whole gated) (Upright gated) (fun env => env.raced = true) prog env ha post

theorem guided_tidy {prog : HaProg Value} {post : Value → Ha → Prop}
    (guided : Guided gated prog env ha post) : Guided gated prog env ha fun _ _ => True :=
  carries_weaken guided fun _ _ _ _ => trivial

/-- An orderly program, with what its caller may go on to use. -/
theorem guided_of_ordered {prog : HaProg Value} {post : Value → Ha → Prop}
    (ordered : Ordered gated prog env ha post) :
    Guided gated prog env ha (fun value after => Sound gated ha after ∧ post value after) :=
  ends_mono ordered (fun _ _ ended => ⟨whole_of_sound ended.1, ended⟩)
    fun _ cut => ⟨upright_of_orderly cut.1, cut.2⟩

theorem guided_of_tidy {prog : HaProg Value} (tidy : Tidy gated prog) :
    Guided gated prog env ha (fun _ after => Sound gated ha after) :=
  carries_weaken (guided_of_ordered (tidy env ha)) fun _ _ _ ended => ended.1

/-- Nothing the pending promote of another term could be mistaken for. -/
theorem upright_forgotten {before after : Ha} (config : after.config = before.config)
    (lawful : Lawful gated before → Lawful gated after) (none : after.promotePending = none)
    (watched : Watched before → Watched after) : Upright gated before after := by
  refine ⟨config, fun good => ⟨lawful good.lawful, ?_⟩, watched⟩
  intro _ pending found
  rw [none] at found
  cases found

/-- Events that begin an operation or end a lock term, and are no call. -/
def turns : Event → Bool
  | .began _ | .lockMissing | .acquiring | .pendingWritten _ => true
  | _ => false

/-- An event that is no call and begins no shutdown. -/
theorem lawful_noted {event : Event} {after : Ha} (lawful : Lawful gated ha)
    (turn : turns event = true) (trace : after.trace = event :: ha.trace)
    (config : after.config = ha.config) (blocked : after.startsBlocked = ha.startsBlocked)
    (other : (event == .began .gracefulShutdown) = false) : Lawful gated after := by
  have free : Law gated ha.config event ha.trace := by cases event <;> trivial
  constructor
  · rw [trace, config]
    exact ⟨free, lawful.each⟩
  · rw [trace, shutdownBegan, List.any_cons, other, Bool.false_or, blocked]
    exact lawful.blocked

theorem watched_turn {event : Event} {before after : Ha} (turn : turns event = true)
    (trace : after.trace = event :: before.trace) (kept : watch after = watch before)
    (watched : Watched before) : Watched after := by
  have other : ofWatchdog event = false := by cases event <;> first | rfl | cases turn
  have unknown : recoveryMeaning event = none := by cases event <;> first | rfl | cases turn
  simp only [watch, Prod.mk.injEq] at kept
  exact watched_event trace other kept.2 (.inr (.inr ⟨unknown, kept.1⟩)) watched

/-! ### Promoting -/

theorem planPromote_node {me : Str} {latest : Latest} {generation : Nat} {newest : HistoryEvidence}
    {acceptLoss : Bool} {postmasterStart : Option Str} {pending : PendingPromote}
    (planned : planPromote me latest generation newest acceptLoss postmasterStart = .ok pending) :
    pending.node = me := by
  unfold planPromote at planned
  split at planned
  · cases planned
    rfl
  · split at planned
    · split at planned
      · cases planned
        rfl
      · cases planned
    · split at planned
      · split at planned
        · cases planned
        · cases planned
          rfl
      · cases planned
    · cases planned

theorem plannedPromote_node {pending : PendingPromote}
    (planned : plannedPromote env ha = .ok pending) :
    pending.node = ha.config.name := by
  unfold plannedPromote at planned
  split at planned
  · cases planned
  · cases planned
  · cases planned
  · exact planPromote_node planned

/-- What a promote needs, the watchdog, the pending promote and the lease apart. -/
structure Gate (ha : Ha) : Prop where
  cycle : operation ha.trace = some .cycle
  seen : Seen ha
  identity : ha.pgIdentity = .managedStandby
  leader : ha.isLeader = true

theorem gate_quiet {after : Ha} (quiet : Quiet ha after) (gate : Gate ha) : Gate after := by
  refine ⟨?_, seen_silent quiet.trace quiet.inRecovery gate.seen, ?_,
    quiet.isLeader.trans gate.leader⟩
  · rw [quiet.trace]
    exact gate.cycle
  · rw [Ha.pgIdentity, quiet.inRecovery, quiet.standbySignal]
    exact gate.identity

/-- The entry is written under the version that was read, and kept only then. -/
theorem recordPendingPromote_guided (gate : Gate ha) : Guided gated recordPendingPromote env ha
    (fun recorded after => Gate after ∧ after.watchdogActive = ha.watchdogActive ∧
      ∀ pending, recorded = .ok pending → after.promotePending = some pending) := by
  unfold recordPendingPromote
  apply carries_ask_bind
  cases kept : ha.promotePending with
  | some written =>
      refine carries_pure ⟨gate, rfl, fun pending recorded => ?_⟩
      cases recorded
      exact kept
  | none =>
      apply carries_ask_bind
      cases planned : plannedPromote env ha with
      | error e => exact carries_pure ⟨gate, rfl, fun pending no => by cases no⟩
      | ok pending =>
          apply carries_bind (guided_of_ordered (ordered_quiet swapWrite_quiet))
          intro swapped waited _ quiet
          have still := gate_quiet quiet.2 gate
          match swapped with
          | .ok false =>
              exact carries_pure ⟨still, quiet.2.watchdogActive, fun _ no => by cases no⟩
          | .error e =>
              exact carries_pure ⟨still, quiet.2.watchdogActive, fun _ no => by cases no⟩
          | .ok true =>
              have named : pending.node = waited.config.name := by
                rw [quiet.2.config]
                exact plannedPromote_node planned
              refine carries_change_bind
                ⟨⟨rfl, fun good => ⟨?_, ?_⟩, watched_turn rfl rfl rfl⟩,
                  owed_kept rfl rfl id⟩ ?_
              · exact lawful_noted good.lawful rfl rfl rfl rfl rfl
              · intro _ other found
                cases found
                exact ⟨rfl, named⟩
              · refine carries_pure ⟨⟨still.cycle, ?_, still.identity, still.leader⟩,
                  quiet.2.watchdogActive, fun other same => ?_⟩
                · intro inRecovery seen
                  exact still.seen inRecovery seen
                · cases same
                  rfl

/-- PostgreSQL takes the promote or not; a server that was stopped is left alone. -/
theorem tidy_promoted : Tidy gated (change fun env ha =>
    if (ha.server = .standby ∨ ha.server = .recovering) ∧ env.promotes ha.tick then
      Ha.noted { ha with server := .primary, standbySignal := false } .promoted
    else ha) := by
  refine tidy_change fun env ha => ?_
  split
  · rename_i taken
    refine ⟨orderly_event .promoted rfl rfl rfl (seen_event rfl rfl rfl rfl)
      (watched_event rfl rfl rfl (.inr (.inr ⟨rfl, rfl⟩))) fun _ => trivial, ?_⟩
    refine owed_kept rfl rfl fun stopped => ?_
    rcases taken.1 with up | up <;> rw [stopped] at up <;> cases up
  · exact Std.Refl.refl ha

theorem promote_guided
    (law : Good gated ha → gated → PromoteLaw ha.config (ha.moment env) ha.trace) :
    Guided gated promote env ha (fun _ _ => True) := by
  have calls : Whole gated ha
      (Ha.noted { ha with inRecovery := none } (.promote (ha.moment env))) := by
    refine ⟨⟨rfl, fun good =>
      ⟨⟨⟨law good, good.lawful.each⟩, good.lawful.blocked⟩, good.pending⟩,
      watched_event rfl rfl rfl (.inl rfl)⟩, owed_kept rfl rfl id⟩
  unfold promote
  refine carries_change_bind calls ?_
  apply carries_bind (guided_of_tidy tidy_await)
  intro _ waited _ _
  apply carries_bind (guided_of_tidy tidy_promoted)
  intro _ promoted _ _
  apply carries_ask_bind
  apply carries_bind (guided_of_tidy tidy_await)
  intro _ after _ _
  split
  · exact carries_pure trivial
  · exact carries_pure trivial

theorem writeGeneration_quiet (pending : PendingPromote) :
    Moves Quiet (writeGeneration pending) := by
  refine keeps_bind (read_quiet _) fun _ => keeps_ite
    (keeps_bind (change_quiet fun env ha => ?_) fun _ => answer_quiet _) (keeps_pure _)
  cases env.fileCall ha.tick <;> rfl

theorem confirmPromote_guided (pending : PendingPromote) :
    Guided gated (confirmPromote pending) env ha (fun _ _ => True) := by
  unfold confirmPromote
  apply carries_ask_bind
  apply carries_bind (guided_of_tidy
    (tidy_quiet (keeps_bind await_quiet fun _ => answer_quiet Env.primaryTimeline)))
  intro new read _ _
  split
  · exact carries_pure trivial
  · apply carries_bind (guided_of_tidy (tidy_quiet (writeGeneration_quiet pending)))
    intro written persisted _ _
    cases written with
    | error e => exact carries_pure trivial
    | ok =>
        apply carries_bind (guided_of_tidy tidy_await)
        intro _ waited _ _
        apply carries_ask_bind
        split
        · exact carries_pure trivial
        · split
          · apply carries_bind (guided_of_tidy tidy_swapWrite)
            intro swapped confirmed _ _
            match swapped with
            | .ok false => exact carries_pure trivial
            | .error e => exact carries_pure trivial
            | .ok true =>
                refine carries_change_bind
                  ⟨upright_forgotten rfl (fun lawful => ⟨lawful.each, lawful.blocked⟩) rfl
                    (watched_silent rfl rfl),
                    owed_kept rfl rfl id⟩ ?_
                exact guided_tidy (guided_of_tidy (tidy_quiet finishOverride_quiet))
          · exact carries_pure trivial

theorem promoteAndConfirm_guided (gate : Gate ha) :
    Guided gated promoteAndConfirm env ha (fun _ _ => True) := by
  unfold promoteAndConfirm
  apply carries_bind (guided_of_ordered armWatchdog_ordered)
  intro armed ready _ covered
  obtain ⟨moved, identity, leader, active⟩ := covered
  cases armed with
  | error e =>
      apply carries_bind (guided_of_tidy tidy_releaseLockAsStandby)
      intro _ released _ _
      exact carries_pure trivial
  | ok =>
      have begun : Gate ready := ⟨moved.operation.trans gate.cycle, moved.seen gate.seen,
        identity.trans gate.identity, leader.trans gate.leader⟩
      apply carries_bind (recordPendingPromote_guided begun)
      intro recorded written kept noted
      obtain ⟨still, watchdog, pending⟩ := noted
      cases recorded with
      | error e => exact carries_pure trivial
      | ok entry =>
          apply carries_ask_bind
          split
          · exact guided_tidy (guided_of_tidy (tidy_fenceAtLeaseCheck _))
          · rename_i held
            have law : Good gated written → gated →
                PromoteLaw written.config (written.moment env) written.trace := by
              intro good judged
              refine ⟨still.cycle, ?_, still.identity, still.leader, ?_, ?_, ?_⟩
              · have standby := still.identity
                unfold Ha.pgIdentity classify at standby
                split at standby
                · cases standby
                · rename_i recovering
                  exact still.seen true recovering
                · cases standby
              · exact Bool.eq_false_iff.mpr held
              · exact ⟨entry, good.pending judged entry (pending entry rfl)⟩
              · intro required
                rw [kept.config] at required
                exact watchdog.trans (active rfl required)
            apply carries_bind (promote_guided law)
            intro promoted done _ _
            cases promoted with
            | error e => exact carries_pure trivial
            | ok =>
                apply carries_bind (guided_of_tidy tidy_observeRecovery)
                intro _ observed _ _
                apply carries_ask_bind
                split
                · apply carries_bind (guided_of_tidy (tidy_quiet (setRole_quiet .primary)))
                  intro _ renamed _ _
                  apply carries_bind (confirmPromote_guided entry)
                  intro _ confirmed _ _
                  exact guided_tidy (guided_of_tidy (tidy_bind tidy_await fun _ =>
                    tidy_bind (tidy_quiet enforceSynchronousReplication_quiet) fun _ =>
                      tidy_bind (tidy_read _) fun _ => tidy_pure _))
                · exact guided_tidy (guided_of_tidy (tidy_bind tidy_await fun _ => tidy_pure _))

/-- Under the lock, which was granted in this cycle. -/
theorem enforcePrimaryRole_guided (cycle : operation ha.trace = some .cycle) (seen : Seen ha)
    (leads : ha.isLeader = true) (holds : granted ha.trace = true) :
    Guided gated enforcePrimaryRole env ha (fun _ _ => True) := by
  unfold enforcePrimaryRole
  apply carries_ask_bind
  apply carries_ask_bind
  split
  · exact guided_tidy (guided_of_tidy tidy_enforceStandbyLeaderRole)
  · cases identity : ha.pgIdentity with
    | primary => exact guided_tidy (guided_of_tidy tidy_hold)
    | managedStandby => exact promoteAndConfirm_guided ⟨cycle, seen, identity, leads⟩
    | unmanagedRecovery =>
        exact guided_tidy (guided_of_ordered (relinquishUnmanagedRecovery_ordered leads holds))
    | unknown signal =>
        exact guided_tidy (guided_of_tidy (tidy_bind tidy_await fun _ => tidy_pure _))

/-- The lock write was granted. -/
theorem renewed_guided {anchor : LeaseAnchor} {next : HaProg CycleResult}
    (rest : ∀ reached, Sound gated ha reached → reached.isLeader = true →
      granted reached.trace = true → Guided gated next env reached (fun _ _ => True)) :
    Guided gated (do
      setLeader true
      extendLeaderLease anchor
      next) env ha (fun _ _ => True) := by
  have led : Sound gated ha { ha with isLeader := true } := sound_of_steady rfl
  refine carries_change_bind (whole_of_sound led) ?_
  apply carries_bind (guided_of_ordered (extendLeaderLease_ordered anchor))
  intro _ extended _ granted
  exact rest extended (IsTrans.trans _ _ _ led granted.1) granted.2.2 granted.2.1

theorem processHealthyCluster_guided (lockOwner : Str) (cycle : operation ha.trace = some .cycle)
    (seen : Seen ha) : Guided gated (processHealthyCluster lockOwner) env ha (fun _ _ => True) := by
  have loses (result : CycleResult) : Tidy gated (do
      setLeaderLease none
      setLeader false
      let paused ← HaState.read Ha.isPaused
      if paused then pure result else demote) :=
    tidy_bind (tidy_setLeaderLease none) fun _ => tidy_bind (tidy_setLeader false) fun _ =>
      tidy_bind (tidy_read _) fun _ => tidy_ite (tidy_pure _) tidy_demote
  unfold processHealthyCluster
  apply carries_ask_bind
  split
  · apply carries_ask_bind
    apply carries_bind (guided_of_tidy tidy_swapWrite)
    intro renewed waited _ moved
    match renewed with
    | .ok false => exact guided_tidy (guided_of_tidy (loses _))
    | .error e => exact guided_tidy (guided_of_tidy (loses _))
    | .ok true =>
        refine renewed_guided fun reached further leads holds => ?_
        apply carries_ask_bind
        split
        · rename_i both
          have pending := (Bool.and_eq_true _ _ |>.mp both).1
          apply carries_bind (guided_of_ordered (retryPendingStop_ordered pending))
          intro _ after _ _
          exact carries_pure trivial
        · exact enforcePrimaryRole_guided
            (further.operation.trans (moved.operation.trans cycle)) (further.seen (moved.seen seen))
            leads holds
  · exact guided_tidy (guided_of_tidy (tidy_bind (tidy_setLeader false) fun _ =>
      tidy_followUpstream lockOwner))

/-- Setting out for the lock ends the term, and with it a pending promote: there is
none. -/
theorem attemptToAcquireLeader_guided (none : ha.promotePending = none) :
    Guided gated attemptToAcquireLeader env ha (fun _ after =>
      operation after.trace = operation ha.trace ∧ (Seen ha → Seen after)) := by
  unfold attemptToAcquireLeader
  have begins : Whole gated ha (ha.noted .acquiring) :=
    ⟨upright_forgotten rfl
      (fun lawful => lawful_noted lawful rfl rfl rfl rfl rfl) none (watched_turn rfl rfl rfl),
      owed_kept rfl rfl id⟩
  refine carries_change_bind begins ?_
  refine carries_weaken (guided_of_tidy tidy_swapWrite) fun _ after _ moved =>
    ⟨moved.operation, ?_⟩
  intro seen
  exact moved.seen fun inRecovery found => seen inRecovery found

theorem acquireLeader_guided (cycle : operation ha.trace = some .cycle) (seen : Seen ha)
    (none : ha.promotePending = none) :
    Guided gated acquireLeader env ha (fun _ _ => True) := by
  unfold acquireLeader
  apply carries_ask_bind
  apply carries_bind (attemptToAcquireLeader_guided none)
  intro acquired waited _ moved
  match acquired with
  | .ok false =>
      exact guided_tidy (guided_of_tidy (tidy_bind (tidy_setLeader false) fun _ => tidy_pure _))
  | .error e => exact carries_pure trivial
  | .ok true =>
      refine renewed_guided fun reached further leads holds => ?_
      refine carries_change_bind (whole_of_sound (sound_of_steady rfl)) ?_
      apply carries_bind (guided_of_ordered (ordered_quiet attempt_quiet))
      intro _ after _ quiet
      refine enforcePrimaryRole_guided ?_ ?_ ?_ ?_
      · exact quiet.1.operation.trans (further.operation.trans (moved.1.trans cycle))
      · exact quiet.1.seen (seen_silent rfl rfl (further.seen (moved.2 seen)))
      · exact quiet.2.isLeader.trans leads
      · exact quiet.1.granted holds

theorem campaign_guided (cycle : operation ha.trace = some .cycle) (seen : Seen ha)
    (none : ha.promotePending = none) : Guided gated campaign env ha (fun _ _ => True) := by
  unfold campaign
  apply carries_ask_bind
  split
  · exact acquireLeader_guided cycle seen none
  · exact guided_tidy (guided_of_tidy (tidy_bind (tidy_setLeader false) fun _ => tidy_read _))

/-- By induction on the checks: none of them ends the term. -/
theorem firstResult_guided {checks : List (HaProg (Option CycleResult))} {last : HaProg CycleResult}
    (each : ∀ check ∈ checks, Tidy gated check)
    (final : ∀ reached, Sound gated ha reached →
      Guided gated last env reached (fun _ _ => True)) :
    Guided gated (firstResult checks last) env ha (fun _ _ => True) := by
  induction checks generalizing ha with
  | nil => exact final ha (Std.Refl.refl ha)
  | cons check rest ih =>
      apply carries_bind (guided_of_tidy (each check List.mem_cons_self))
      intro found reached _ moved
      cases found with
      | some result => exact carries_pure trivial
      | none =>
          refine ih (fun other member => each other (List.mem_cons_of_mem _ member)) ?_
          intro after further
          exact final after (IsTrans.trans _ _ _ moved further)

theorem processUnhealthyCluster_guided (cycle : operation ha.trace = some .cycle) (seen : Seen ha)
    (none : ha.promotePending = none) :
    Guided gated processUnhealthyCluster env ha (fun _ _ => True) := by
  unfold processUnhealthyCluster
  apply carries_ask_bind
  split
  · exact carries_pure trivial
  · refine firstResult_guided ?_ fun reached moved => ?_
    · simp only [List.forall_mem_cons]
      exact ⟨tidy_enforceGeneration, tidy_enforceRewindHold, tidy_checkStance, tidy_checkEligible,
        tidy_checkStale, fun _ no => by cases no⟩
    · exact campaign_guided (moved.operation.trans cycle) (moved.seen seen)
        (moved.promotePending.trans none)

end PgHa.CallGates
