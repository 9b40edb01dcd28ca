import PgHa.CallGates
import PgHa.PrimaryFenced

/-!
Every run of the engine obeys the laws of the call order. An operation begins with its
mark in the trace; what follows is lawful by the steps it is made of, and a run by
induction on its methods.
-/

namespace PgHa.CallRuns

open Text Cluster Identity Interruptible Lease Trace HaState Election HaHelpers HaFollow HaCycle
open HaFrames HaShutdown CallOrder CallSteps CallGates PrimaryFenced

variable {gated : Prop} {env : Env} {ha : Ha} {Value Next : Type}

/-! ### Operations -/

/-- An operation other than the shutdown begins. -/
theorem whole_began (begins : Operation) (other : begins ≠ .gracefulShutdown) :
    Whole gated ha (ha.noted (.began begins)) := by
  refine ⟨⟨rfl, fun good => ⟨?_, good.pending⟩, watched_turn rfl rfl rfl⟩,
    owed_kept rfl rfl id⟩
  refine lawful_noted good.lawful rfl rfl rfl rfl ?_
  cases begins <;> first | rfl | exact absurd rfl other

/-- No command is handled before its mark, so none inherits another's signal. -/
theorem handleCommand_guided (command : ManagementCommand) :
    Guided gated (handleCommand command) env ha (fun _ _ => True) := by
  unfold handleCommand
  refine carries_change_bind (whole_began _ (by simp)) ?_
  apply carries_ask_bind
  split
  · exact carries_pure trivial
  · cases command with
    | switchover leader candidate scheduledAt =>
        exact guided_tidy
          (guided_of_tidy (tidy_handleSwitchoverCommand leader candidate scheduledAt))
    | failover candidate =>
        exact guided_tidy (guided_of_tidy (tidy_handleFailoverCommand candidate))
    | cancelSwitchover => exact carries_pure trivial
    | restart => exact guided_tidy (guided_of_ordered (handleRestartCommand_ordered rfl))
    | reinitializeNode => exact guided_tidy (guided_of_tidy tidy_handleReinitializeCommand)

theorem processCommands_guided (commands : List ManagementCommand) :
    Guided gated (processCommands commands) env ha (fun _ _ => True) := by
  induction commands generalizing ha with
  | nil => exact carries_pure trivial
  | cons command rest ih =>
      apply carries_bind (handleCommand_guided command)
      intro _ handled _ _
      apply carries_bind (guided_of_tidy tidy_await)
      intro _ answered _ _
      exact ih

/-- Without the lock in its view the node keeps no pending promote. -/
def Termed (ha : Ha) : Prop := ha.isLockOwner = false → ha.promotePending = none

theorem termed_of_sound {after : Ha} (sound : Sound gated ha after) (termed : Termed ha) :
    Termed after := by
  rw [Termed, Ha.isLockOwner, sound.cluster, sound.config, sound.promotePending]
  exact termed

theorem takeView_guided (view : ClusterView) : Guided gated (takeView view) env ha
    (fun _ after => operation after.trace = operation ha.trace ∧ Termed after) := by
  have viewed (paused : Bool) : Whole gated ha { ha with cluster := view, isPaused := paused } :=
    ⟨⟨rfl, fun good => ⟨⟨good.lawful.each, good.lawful.blocked⟩, good.pending⟩,
      watched_silent rfl rfl⟩, owed_kept rfl rfl id⟩
  unfold takeView
  refine carries_change_bind (viewed _) ?_
  apply carries_ask_bind
  split
  · rename_i owner
    refine carries_pure ⟨rfl, fun other => ?_⟩
    rw [owner] at other
    cases other
  · refine carries_change_bind
      ⟨upright_forgotten rfl ?_ rfl (watched_turn rfl rfl rfl), owed_kept rfl rfl id⟩ ?_
    · exact fun lawful => lawful_noted lawful rfl rfl rfl rfl rfl
    · refine carries_weaken (guided_of_tidy (tidy_setLeaderLease none)) ?_
      intro _ after _ moved
      exact ⟨moved.operation, termed_of_sound moved fun _ => rfl⟩

/-- The lock is not there to be kept, so no pending promote is lost with it. -/
theorem lockBootstrapped_guided (none : ha.promotePending = none) :
    Guided gated lockBootstrapped env ha (fun _ _ => True) := by
  unfold lockBootstrapped
  apply carries_bind (guided_of_tidy tidy_observeRecovery)
  intro _ observed _ first
  apply carries_ask_bind
  apply carries_bind
    (guided_of_tidy (tidy_ite (tidy_quiet (setRole_quiet .primary)) (tidy_pure ())))
  intro _ renamed _ second
  apply carries_ask_bind
  have still : renamed.promotePending = .none :=
    second.promotePending.trans (first.promotePending.trans none)
  apply carries_bind (attemptToAcquireLeader_guided still)
  intro acquired waited _ _
  have loses : Tidy gated (do
      setLeader false
      pure (CycleResult.acquiring "bootstrapped but failed to acquire leader lock".toList)) :=
    tidy_bind (tidy_setLeader false) fun _ => tidy_pure _
  match acquired with
  | .ok true =>
      exact guided_tidy (guided_of_tidy (tidy_bind (tidy_setLeader true) fun _ =>
        tidy_bind (tidy_extendLeaderLease _) fun _ => tidy_bind tidy_await fun _ => tidy_pure _))
  | .ok false => exact guided_tidy (guided_of_tidy loses)
  | .error e => exact guided_tidy (guided_of_tidy loses)

theorem initializeCluster_guided (none : ha.promotePending = none) :
    Guided gated initializeCluster env ha (fun _ _ => True) := by
  unfold initializeCluster
  apply carries_ask_bind
  split
  · exact guided_tidy (guided_of_tidy (tidy_bind tidy_await fun _ => tidy_pure _))
  · apply carries_bind (guided_of_tidy tidy_bootstrapNewCluster)
    intro bootstrapped after _ moved
    cases bootstrapped with
    | initializedAsPrimary => exact lockBootstrapped_guided (moved.promotePending.trans none)
    | lostRace => exact carries_pure trivial
    | failed e => exact carries_pure trivial
    | clonedAsReplica => exact carries_pure trivial

theorem handleEmptyDataDir_guided (termed : Termed ha) :
    Guided gated handleEmptyDataDir env ha (fun _ _ => True) := by
  unfold handleEmptyDataDir
  apply carries_ask_bind
  apply carries_ask_bind
  apply carries_ask_bind
  split
  · exact carries_pure trivial
  · split
    · rename_i fresh
      have unlocked := (Bool.and_eq_true _ _ |>.mp fresh).1
      refine initializeCluster_guided (termed ?_)
      rw [ClusterView.isUnlocked, Option.isNone_iff_eq_none] at unlocked
      rw [Ha.isLockOwner, unlocked]
      rfl
    · split
      · exact guided_tidy (guided_of_tidy tidy_cloneAndStart)
      · exact carries_pure trivial

/-- A cycle that goes on to its decision is still the cycle that took the view. -/
theorem prepareCycle_guided (view : ClusterView) : Guided gated (prepareCycle view) env ha
    (fun ended after => ended = none →
      operation after.trace = operation ha.trace ∧ Termed after) := by
  have final {result : CycleResult} {reached : Ha} : (some result = none →
      operation reached.trace = operation ha.trace ∧ Termed reached) := fun no => by cases no
  unfold prepareCycle
  apply carries_bind (takeView_guided view)
  intro _ viewed _ taken
  apply carries_bind (guided_of_tidy tidy_processDynamicConfig)
  intro _ configured _ first
  apply carries_bind (guided_of_tidy tidy_publishFenceDeadline)
  intro _ published _ second
  apply carries_ask_bind
  apply carries_bind (guided_of_tidy (tidy_ite (tidy_pure ()) tidy_await))
  intro _ registered _ third
  have moved : Sound gated viewed registered :=
    IsTrans.trans _ _ _ (IsTrans.trans _ _ _ first second) third
  have termed := termed_of_sound moved taken.2
  apply carries_ask_bind
  split
  · exact carries_pure final
  · apply carries_bind (handleEmptyDataDir_guided termed)
    intro _ _ _ _
    exact carries_pure final
  · apply carries_ask_bind
    apply carries_ask_bind
    split
    · exact carries_pure fun _ => ⟨moved.operation.trans taken.1, termed⟩
    · rename_i stopped
      have gone := stopped_of_down stopped
      refine carries_change_bind
        ⟨⟨rfl, fun good => ⟨⟨good.lawful.each, good.lawful.blocked⟩, good.pending⟩,
          watched_silent rfl rfl⟩, fun _ _ => .inr gone⟩ ?_
      split
      · exact carries_pure final
      · apply carries_bind (guided_of_tidy tidy_handlePostgresNotRunning)
        intro _ _ _ _
        exact carries_pure final

theorem decideCycle_guided (cycle : operation ha.trace = some .cycle) (seen : Seen ha)
    (termed : Termed ha) : Guided gated decideCycle env ha (fun _ _ => True) := by
  unfold decideCycle
  apply carries_ask_bind
  apply carries_ask_bind
  split
  · rename_i stranded
    have pending := (Bool.and_eq_true _ _ |>.mp (Bool.and_eq_true _ _ |>.mp stranded).1).2
    apply carries_bind (guided_of_ordered (retryPendingStop_ordered pending))
    intro _ _ _ _
    exact carries_pure trivial
  · split
    · rename_i unlocked
      refine processUnhealthyCluster_guided cycle seen (termed ?_)
      change ha.cluster.leader = none at unlocked
      rw [Ha.isLockOwner, unlocked]
      rfl
    · exact processHealthyCluster_guided _ cycle seen

theorem runCycle_guided : Guided gated runCycle env ha (fun _ _ => True) := by
  unfold runCycle
  apply carries_ask_bind
  apply carries_bind (processCommands_guided _)
  intro _ handled _ _
  refine carries_change_bind (whole_began .cycle (by simp)) ?_
  apply carries_bind (guided_of_tidy tidy_await)
  intro _ waited _ moved
  have cycle : operation waited.trace = some .cycle := moved.operation
  apply carries_ask_bind
  split
  · apply carries_bind (guided_of_tidy tidy_handleDcsError)
    intro _ _ _ _
    exact carries_pure trivial
  · apply carries_bind (prepareCycle_guided _)
    intro ended prepared _ going
    cases ended with
    | some result => exact carries_pure trivial
    | none =>
        obtain ⟨same, termed⟩ := going rfl
        apply carries_bind (guided_of_ordered observeIdentity_ordered)
        intro identity observed _ looked
        apply carries_ask_bind
        apply carries_bind
          (decideCycle_guided (looked.1.operation.trans (same.trans cycle)) looked.2
          (termed_of_sound looked.1 termed))
        intro _ _ _ _
        exact carries_pure trivial

/-! ### Cycles beside the lease -/

/-- Away from the race nothing is dropped. -/
theorem unraced_whole {prog : HaProg Value}
    (guided : Guided gated prog (racing false env) ha fun _ _ => True) :
    Ends (under (racing false) prog) env ha (fun _ after => Whole gated ha after)
      (fun _ => False) :=
  ends_mono guided (fun _ _ ended => ended.1) fun _ cut => by cases cut.2

theorem tidy_unraced {prog : HaProg Value} (tidy : Tidy gated prog) :
    Tidy gated (under (racing false) prog) := fun env ha =>
  ends_mono (tidy (racing false env) ha) (fun _ _ ended => ended) fun _ cut => by cases cut.2

theorem tidy_cutIf : Tidy gated (cutIf dropped) := tidy_quiet (keeps_cutIf dropped_raced)

theorem racedCycle_guided : Guided gated racedCycle env ha (fun _ _ => True) := by
  unfold racedCycle
  apply carries_bind (guided_of_tidy tidy_publishFenceDeadline)
  intro _ published _ _
  apply carries_bind (guided_of_tidy tidy_cutIf)
  intro _ looked _ _
  refine carries_change_bind (whole_of_sound (sound_of_steady rfl)) ?_
  exact runCycle_guided

theorem finishedCycle_whole : Ends finishedCycle env ha (fun _ after => Whole gated ha after)
    (fun after => Upright gated ha after) := by
  have cycles : Ends (under (racing true) racedCycle) env ha
      (fun _ reached => Whole gated ha reached) (fun reached => Upright gated ha reached) :=
    ends_mono racedCycle_guided (fun _ _ ended => ended.1) fun _ cut => cut.1
  unfold finishedCycle
  apply ends_bind cycles
  intro cycle reached whole
  have tidies : Tidy gated (do
      let isLeader ← HaState.read Ha.isLeader
      (if isLeader then pure () else setLeaderLease none)
      under (racing false) reconcileWatchdog
      pure cycle) :=
    tidy_bind (tidy_read _) fun _ => tidy_bind (tidy_ite (tidy_pure _) (tidy_setLeaderLease none))
      fun _ => tidy_bind (tidy_unraced tidy_reconcileWatchdog) fun _ => tidy_pure _
  refine ends_mono (tidies env reached) ?_ ?_
  · exact fun _ after ended => IsTrans.trans _ _ _ whole (whole_of_sound ended.1)
  · exact fun after cut => Trans.trans whole (upright_of_orderly cut.1)

/-- What the dropped cycle still owed is paid, or owed again. -/
theorem droppedCycle_whole {before : Ha} (upright : Upright gated before ha) :
    Ends droppedCycle env ha (fun _ after => Whole gated before after) (fun _ => False) := by
  have marked : Whole gated ha (ha.noted (.began .leaseFence)) := whole_began .leaseFence (by simp)
  have owes : Ordered gated fenceForLostLease (racing false env) (ha.noted (.began .leaseFence))
      (fun _ after => Owed after) := fenceForLostLease_ordered
  have fences : Ends (under (racing false) fenceForLostLease) env (ha.noted (.began .leaseFence))
      (fun _ after => Whole gated before after) (fun _ => False) := by
    refine ends_mono owes ?_ ?_
    · intro _ after ended
      have fenced := upright_of_orderly ended.1.toOrderly
      exact ⟨IsTrans.trans _ _ _ (IsTrans.trans _ _ _ upright marked.toUpright) fenced,
        fun _ => ended.2⟩
    · intro _ cut
      cases cut.2
  unfold droppedCycle
  refine ends_change_bind (ends_bind fences ?_)
  intro _ after whole
  exact ends_pure whole

theorem runCycleBounded_whole : Ends runCycleBounded env ha (fun _ after => Whole gated ha after)
    (fun _ => False) := ends_onCut finishedCycle_whole fun _ upright => droppedCycle_whole upright

/-! ### The shutdown -/

theorem tidy_shutdownFenceIfLeaseExpired : Tidy gated shutdownFenceIfLeaseExpired :=
  tidy_bind (tidy_ask _) fun _ =>
    tidy_ite (tidy_bind tidy_fenceForLostLease fun _ => tidy_pure _) (tidy_pure _)

theorem tidy_drainSlice : Tidy gated drainSlice :=
  tidy_bind tidy_renewHeldLock fun _ => tidy_bind tidy_reconcileWatchdog fun _ =>
    tidy_bind (tidy_read _) fun _ =>
      tidy_ite (tidy_pure _) (tidy_bind tidy_fenceForLostLease fun _ => tidy_pure _)

theorem tidy_drainSlices (slices : Nat) : Tidy gated (drainSlices slices) := by
  induction slices with
  | zero => exact tidy_drainSlice
  | succ slices ih =>
      exact tidy_bind tidy_drainSlice fun _ =>
        tidy_ite (tidy_pure _) (tidy_bind tidy_await fun _ => ih)

theorem tidy_drainRenewingLeaderLock (slices : Nat) :
    Tidy gated (drainRenewingLeaderLock slices) :=
  tidy_bind (tidy_read _) fun _ =>
    tidy_ite (tidy_drainSlices slices) (tidy_bind tidy_await fun _ => tidy_pure _)

theorem recovering_of_unfenced (unfenced : ¬shutdownNeedsFence ha.pgIdentity = true) :
    ha.inRecovery = some true := by
  unfold Ha.pgIdentity classify at unfenced
  split at unfenced
  · exact absurd rfl unfenced
  · assumption
  · exact absurd rfl unfenced

/-- A fence that is tried again comes after the write of the first; a direct stop that
is tried again, after the same observation. -/
theorem stopObservedPostgresForShutdown_ordered (seen : Seen ha) :
    Ordered gated stopObservedPostgresForShutdown env ha (fun _ _ => True) := by
  unfold stopObservedPostgresForShutdown stopAgainForShutdown
  apply carries_ask_bind
  by_cases fence : shutdownNeedsFence ha.pgIdentity = true
  · simp only [fence, if_true]
    apply carries_bind fencePrimary_ordered
    intro fast fenced _ owed
    apply carries_ask_bind
    cases fast with
    | ok => exact carries_pure trivial
    | error e =>
        dsimp only
        split
        · exact ordered_tidy (stopAfterDemotionWrite_ordered (.inr (.inl owed.2)))
        · exact carries_pure trivial
  · simp only [fence, Bool.false_eq_true, if_false]
    have direct : StopSite.stopObservedPostgresForShutdown ≠ .stopPublishingNotPrimary := by
      decide
    have observed : lastObserved ha.trace = some (some true) :=
      seen true (recovering_of_unfenced fence)
    apply carries_bind (stop_ordered direct fun _ _ _ => observed)
    intro fast down _ halted
    apply carries_ask_bind
    cases fast with
    | ok => exact carries_pure trivial
    | error e =>
        dsimp only
        split
        · apply carries_bind (stop_ordered direct fun _ _ _ => halted.observed.trans observed)
          intro stopped again _ _
          apply carries_ask_bind
          have marks (stuck : Bool) : Ordered gated (if stuck then
                update fun ha => { ha with stopPending := true }
              else pure ()) env again (fun _ _ => True) := by
            split
            · exact ⟨⟨orderly_silent rfl rfl (seen_silent rfl rfl) (watched_silent rfl rfl),
                fun _ _ => .inl rfl⟩, trivial⟩
            · exact carries_pure trivial
          exact carries_bind (marks _) fun _ _ _ _ => carries_pure trivial
        · exact carries_pure trivial

theorem tidy_stopPostgresForShutdown : Tidy gated stopPostgresForShutdown := by
  intro env ha
  unfold stopPostgresForShutdown
  apply carries_ask_bind
  split
  · apply carries_bind observeRecovery_ordered
    intro _ observed _ looked
    exact stopObservedPostgresForShutdown_ordered looked.2
  · exact carries_pure trivial

theorem tidy_checkpointAndStop : Tidy gated checkpointAndStop :=
  tidy_bind (tidy_read _) fun _ =>
    tidy_bind (tidy_ite (tidy_bind tidy_attempt fun _ => tidy_pure _) (tidy_pure _)) fun _ =>
      tidy_bind tidy_stopPostgresForShutdown fun _ => tidy_pure _

theorem tidy_racedStop : Tidy gated racedStop :=
  tidy_bind tidy_publishFenceDeadline fun _ => tidy_bind tidy_cutIf fun _ =>
    tidy_bind (tidy_update fun _ => rfl) fun _ =>
      tidy_bind tidy_checkpointAndStop fun _ => tidy_pure _

/-- A stop that the lease cuts short is followed by the fence. -/
theorem stopPostgresWithinLease_guided :
    Guided gated stopPostgresWithinLease env ha (fun _ _ => True) := by
  have stops : Ends (under (racing true) racedStop) env ha
      (fun _ after => Whole gated ha after ∧ True)
      (fun reached => Upright gated ha reached) :=
    ends_mono (tidy_racedStop (racing true env) ha)
      (fun _ _ ended => ⟨whole_of_sound ended.1, trivial⟩) fun _ cut => upright_of_orderly cut.1
  refine ends_onCut stops fun reached upright => ?_
  have fences : Ordered gated (do
      let _ ← fenceForLostLease
      pure false) env reached (fun _ after => Owed after) :=
    carries_bind fenceForLostLease_ordered fun _ _ _ owed => carries_pure owed
  refine ends_mono fences ?_ ?_
  · intro _ after ended
    exact ⟨⟨IsTrans.trans _ _ _ upright (upright_of_orderly ended.1.toOrderly),
      fun _ => ended.2⟩,
      trivial⟩
  · intro after cut
    exact ⟨IsTrans.trans _ _ _ upright (upright_of_orderly cut.1), cut.2⟩

/-- The marks block every start that follows. -/
theorem whole_beginShutdown : Whole gated ha
    { ha.noted (.began .gracefulShutdown) with shuttingDown := true, startsBlocked := true } :=
  ⟨⟨rfl, fun good => ⟨⟨⟨trivial, good.lawful.each⟩, fun _ => rfl⟩, good.pending⟩,
    watched_turn rfl rfl rfl⟩, owed_kept rfl rfl id⟩

theorem beginShutdown_guided : Guided gated beginShutdown env ha (fun _ _ => True) := by
  have marks : Guided gated (do
      update fun ha =>
        { ha.noted (.began .gracefulShutdown) with shuttingDown := true, startsBlocked := true }
      await) env ha (fun _ _ => True) :=
    carries_change_bind whole_beginShutdown (guided_tidy (guided_of_tidy tidy_await))
  exact marks

theorem finishShutdown_guided : Guided gated finishShutdown env ha (fun _ _ => True) := by
  unfold finishShutdown rejectCommands
  apply carries_bind (carries_ask_bind (processCommands_guided _))
  intro _ handled _ _
  apply carries_ask_bind
  apply carries_ask_bind
  split
  · split
    · refine carries_change_bind ⟨upright_of_orderly ?_, fun _ _ => .inl rfl⟩
        (carries_pure trivial)
      exact orderly_silent rfl rfl (seen_silent rfl rfl) (watched_silent rfl rfl)
    · exact carries_pure trivial
  · exact guided_tidy (guided_of_tidy
      (tidy_bind tidy_releaseLeaderLockIfStopped fun _ => tidy_pure _))

theorem outcomeAfterFence_guided : Guided gated outcomeAfterFence env ha (fun _ _ => True) := by
  unfold outcomeAfterFence rejectCommands
  apply carries_bind (carries_ask_bind (processCommands_guided _))
  intro _ handled _ _
  exact carries_ask_bind (carries_pure trivial)

theorem watchdogAfterShutdown_ordered {outcome : ShutdownOutcome}
    (concluded : shutdownOutcome ha.trace = some outcome) :
    Ordered gated (watchdogAfterShutdown outcome) env ha (fun _ _ => True) := by
  cases outcome with
  | standbyLeftRunning =>
      exact ordered_tidy (disarm_ordered fun _ => .inr (.inr (.inr concluded)))
  | keepRunning => exact tidy_reconcileWatchdog env ha
  | released => exact tidy_reconcileWatchdog env ha
  | stoppedLockKept => exact tidy_reconcileWatchdog env ha
  | fenced => exact tidy_reconcileWatchdog env ha

theorem conclude_guided (stoppedInTime : Bool) :
    Guided gated (conclude stoppedInTime) env ha (fun _ _ => True) := by
  have decides : Guided gated (if stoppedInTime then finishShutdown else outcomeAfterFence) env ha
      (fun _ _ => True) := by
    split
    · exact finishShutdown_guided
    · exact outcomeAfterFence_guided
  unfold conclude
  apply carries_bind decides
  intro outcome decided _ _
  refine carries_change_bind (whole_of_sound (sound_noted (.concluded outcome) rfl rfl)) ?_
  apply carries_bind (guided_of_ordered (watchdogAfterShutdown_ordered rfl))
  intro _ _ _ _
  exact carries_pure trivial

theorem shutdownSteps_guided (slices : Nat) :
    Guided gated (shutdownSteps slices) env ha (fun _ _ => True) := by
  unfold shutdownSteps
  apply carries_bind beginShutdown_guided
  intro _ begun _ _
  apply carries_bind (guided_of_tidy tidy_shutdownFenceIfLeaseExpired)
  intro expired checked _ _
  split
  · exact conclude_guided false
  · apply carries_bind (guided_of_tidy (tidy_drainRenewingLeaderLock slices))
    intro fenced drained _ _
    split
    · exact conclude_guided false
    · apply carries_bind stopPostgresWithinLease_guided
      intro stopped after _ _
      exact conclude_guided stopped

/-! ### `cascade_promote` -/

theorem cascadePromoteStandby_guided (free : ¬gated) :
    Guided gated cascadePromoteStandby env ha (fun _ _ => True) := by
  unfold cascadePromoteStandby
  apply carries_bind (guided_of_tidy tidy_attempt)
  intro written waited _ _
  cases written with
  | error e => exact carries_pure trivial
  | ok =>
      apply carries_bind (promote_guided fun _ judged => absurd judged free)
      intro promoted after _ _
      cases promoted with
      | error e => exact carries_pure trivial
      | ok =>
          exact guided_tidy (guided_of_tidy (tidy_bind tidy_observeRecovery fun _ =>
            tidy_bind (tidy_read _) fun _ => tidy_ite
              (tidy_bind (tidy_quiet (setRole_quiet .primary)) fun _ => tidy_pure _) (tidy_pure _)))

theorem cascadePromote_whole (refused : gated → (refusesCascade ha).isSome = true) :
    Ends cascadePromote env ha (fun _ after => Whole gated ha after) (fun _ => False) := by
  unfold cascadePromote
  apply unraced_whole
  refine carries_change_bind (whole_began .cascadePromote (by simp)) ?_
  apply carries_ask_bind
  split
  · exact carries_pure trivial
  · rename_i passes
    have free : ¬gated := by
      intro judged
      have stopped := refused judged
      change refusesCascade ha = none at passes
      rw [passes] at stopped
      cases stopped
    apply carries_bind (cascadePromoteStandby_guided free)
    intro promoted after _ _
    cases promoted with
    | error e => exact carries_pure trivial
    | ok => exact carries_change_bind (whole_of_sound (sound_of_steady rfl)) (carries_pure trivial)

/-! ### Runs -/

/-- The call is refused, if it is one of `cascade_promote`. -/
def noCascade (method : Method) (ha : Ha) : Bool :=
  method != .cascadePromote || (refusesCascade ha).isSome

/-- Every call of `cascade_promote` in the run is refused. -/
def cascadesRefused : List (Method × Env) → Ha → Bool
  | [], _ => true
  | (method, env) :: rest, ha =>
      noCascade method ha && cascadesRefused rest (stateAfter (method.perform env ha))

/-- No method is ever dropped, and each keeps the laws. -/
theorem perform_whole (method : Method) (refused : gated → noCascade method ha = true) :
    Ends method.perform env ha (fun _ after => Whole gated ha after) (fun _ => False) := by
  have ignores {Result : Type} {prog : HaProg Result}
      (ends : Ends prog env ha (fun _ after => Whole gated ha after) (fun _ => False)) :
      Ends (do
        let _ ← prog
        pure ()) env ha (fun _ after => Whole gated ha after) (fun _ => False) :=
    ends_bind ends fun _ _ whole => ends_pure whole
  cases method with
  | runCycle =>
      exact unraced_whole (carries_bind runCycle_guided fun _ _ _ _ => carries_pure trivial)
  | runCycleBounded => exact ignores runCycleBounded_whole
  | gracefulShutdown slices => exact ignores (unraced_whole (shutdownSteps_guided slices))
  | continueShutdown =>
      refine ignores (unraced_whole ?_)
      exact carries_change_bind (whole_began .continueShutdown (by simp)) (conclude_guided true)
  | cascadePromote =>
      refine ignores (cascadePromote_whole fun judged => ?_)
      simpa [noCascade] using refused judged

theorem stateAfter_whole {prog : HaProg Value}
    (ends : Ends prog env ha (fun _ after => Whole gated ha after) (fun _ => False)) :
    Whole gated ha (stateAfter (prog env ha)) := by
  obtain ⟨value, after, ran, whole⟩ := ends_completes ends
  rw [ran]
  exact whole

/-- By induction on the methods that are called. -/
theorem run_whole (steps : List (Method × Env))
    (refused : gated → cascadesRefused steps ha = true) :
    Whole gated ha (run steps ha) := by
  induction steps generalizing ha with
  | nil => exact Std.Refl.refl ha
  | cons step rest ih =>
      obtain ⟨method, env⟩ := step
      have both (judged : gated) := Bool.and_eq_true _ _ |>.mp (refused judged)
      have first : Whole gated ha (stateAfter (method.perform env ha)) :=
        stateAfter_whole (perform_whole method fun judged => (both judged).1)
      exact IsTrans.trans _ _ _ first (ih fun judged => (both judged).2)

theorem closeCycle_guided : Guided gated closeCycle env ha (fun _ _ => True) :=
  guided_tidy (guided_of_tidy (tidy_bind (tidy_read _) fun _ =>
    tidy_bind (tidy_ite (tidy_pure _) (tidy_setLeaderLease none)) fun _ => tidy_reconcileWatchdog))

theorem fenceCycle_guided : Guided gated fenceCycle env ha (fun _ _ => True) :=
  carries_change_bind (whole_began .leaseFence (by simp))
    (guided_tidy (guided_of_tidy (tidy_bind tidy_fenceForLostLease fun _ => tidy_pure _)))

theorem upright_guided {prog : HaProg Value} (guided : Guided gated prog env ha fun _ _ => True) :
    Ends prog env ha (fun _ after => Upright gated ha after)
      (fun after => Upright gated ha after) :=
  ends_mono guided (fun _ _ ended => ended.1.toUpright) fun _ cut => cut.1

/-- Dropped in whichever wait, the cycle has kept the laws so far. -/
theorem interruptedCycle_upright : Ends interruptedCycle env ha
    (fun _ after => Upright gated ha after) (fun after => Upright gated ha after) := by
  have cycles : Guided gated (do
      let _ ← racedCycle
      pure true) (signalling env) ha (fun _ _ => True) :=
    carries_bind racedCycle_guided fun _ _ _ _ => carries_pure trivial
  have begun : Ends (onCut (under signalling do
      let _ ← racedCycle
      pure true) (pure false)) env ha (fun _ after => Upright gated ha after)
      (fun after => Upright gated ha after) :=
    ends_onCut (ends_under (upright_guided cycles)) fun _ upright => ends_pure upright
  unfold interruptedCycle
  apply ends_bind begun
  intro finished reached upright
  apply ends_ask_bind
  apply ends_change_bind
  have seen : Whole gated reached { reached with unseen := false } :=
    whole_of_sound (sound_of_steady rfl)
  have looked : Upright gated ha { reached with unseen := false } :=
    IsTrans.trans _ _ _ upright seen.toUpright
  have goes {prog : HaProg Unit}
      (guided : Guided gated prog (fencing env) { reached with unseen := false }
        fun _ _ => True) : Ends (under fencing prog) env { reached with unseen := false }
        (fun _ after => Upright gated ha after) (fun after => Upright gated ha after) :=
    ends_mono (ends_under (upright_guided guided))
      (fun _ _ moved => IsTrans.trans _ _ _ looked moved)
      fun _ moved => IsTrans.trans _ _ _ looked moved
  split
  · exact goes closeCycle_guided
  · split
    · exact ends_pure looked
    · exact goes fenceCycle_guided

/-- The shutdown that follows a dropped cycle included. -/
theorem interruptedRun_upright (steps rest : List (Method × Env))
    (refused : gated → cascadesRefused steps ha = true ∧
      cascadesRefused rest (stateAfter (interruptedCycle env (run steps ha))) = true) :
    Upright gated ha (interruptedRun steps env rest ha) := by
  have before : Whole gated ha (run steps ha) := run_whole steps fun judged => (refused judged).1
  have dropped : Upright gated (run steps ha)
      (stateAfter (interruptedCycle env (run steps ha))) := by
    have ends : Ends interruptedCycle env (run steps ha)
        (fun _ after => Upright gated (run steps ha) after)
        (fun after => Upright gated (run steps ha) after) := interruptedCycle_upright
    unfold Ends at ends
    cases ran : interruptedCycle env (run steps ha) with
    | done _ after | cut after =>
        rw [ran] at ends
        exact ends
  have after : Whole gated _ (interruptedRun steps env rest ha) :=
    run_whole rest fun judged => (refused judged).2
  exact IsTrans.trans _ _ _ (IsTrans.trans _ _ _ before.toUpright dropped) after.toUpright

/-- An engine that has done nothing yet has broken no law. -/
theorem good_fresh (fresh : ha.trace = []) (unplanned : gated → ha.promotePending = none) :
    Good gated ha := by
  refine ⟨⟨?_, ?_⟩, ?_⟩
  · rw [fresh]
    trivial
  · intro began
    rw [fresh] at began
    cases began
  · intro judged pending found
    rw [unplanned judged] at found
    cases found

/-- The laws that hold of every run, whoever calls `cascade_promote`. -/
theorem run_lawful (steps : List (Method × Env)) (fresh : ha.trace = []) :
    Each (Law False ha.config) (run steps ha).trace ∧ Owed (run steps ha) := by
  have whole : Whole False ha (run steps ha) := run_whole steps fun no => no.elim
  refine ⟨?_, whole.owed ?_⟩
  · rw [← whole.config]
    exact (whole.good (good_fresh fresh fun no => no.elim)).lawful.each
  · intro owed
    rw [fresh] at owed
    cases owed

/-- The laws do not depend on the cycles being finished. What a dropped cycle still owed is
left to the shutdown. -/
theorem interruptedRun_lawful (steps rest : List (Method × Env)) (env : Env)
    (fresh : ha.trace = []) :
    Each (Law False ha.config) (interruptedRun steps env rest ha).trace := by
  have upright : Upright False ha (interruptedRun steps env rest ha) :=
    interruptedRun_upright steps rest fun no => no.elim
  rw [← upright.config]
  exact (upright.good (good_fresh fresh fun no => no.elim)).lawful.each

-- The signal comes while the cycle waits for the DCS.
example : (interruptedRun [] { quick ['b'] steadyWall with interrupted := fun tick => tick == 1 } []
    primaryNode).trace = [.began .cycle] := rfl

/-! ### Starts -/

/-- Every `pg_ctl start` comes after `standby.signal` was written in the same operation,
or under the lock in a restart, or on the node that won the race to initialize the
cluster; and none comes after a shutdown began. -/
theorem starts_are_gated (steps : List (Method × Env)) (ha : Ha) (fresh : ha.trace = []) :
    Each (fun event before => ∀ moment, event = .start moment → StartLaw moment before)
      (run steps ha).trace := by
  refine each_mono (run_lawful steps fresh).1 ?_
  rintro event before law moment rfl
  exact law

def stoppedNode : Ha :=
  { primaryNode with isLeader := false, server := .stopped, inRecovery := none }

def isStart : Event → Bool
  | .start _ => true
  | _ => false

/-- A stopped member of a cluster that `b` leads is started as a standby. -/
theorem starts_are_gated_asStandby :
    (run [(.runCycle, quick ['b'] steadyWall)] stoppedNode).trace.any isStart = true ∧
      Each (fun event before => ∀ moment, event = .start moment → StartLaw moment before)
        (run [(.runCycle, quick ['b'] steadyWall)] stoppedNode).trace :=
  ⟨rfl, starts_are_gated _ stoppedNode rfl⟩

/-! ### Stops -/

/-- Every `pg_ctl stop` keeps the order of a demotion, and a demotion stop that failed is
pending, as long as no stop succeeds and PostgreSQL is neither gone nor started anew. -/
theorem stops_keep_demotion_order (steps : List (Method × Env)) (ha : Ha) (fresh : ha.trace = []) :
    Each (fun event before => ∀ site moment, event = .stop site moment →
      StopLaw site moment before)
        (run steps ha).trace ∧
      Owed (run steps ha) := by
  have lawful := run_lawful steps fresh
  refine ⟨each_mono lawful.1 ?_, lawful.2⟩
  rintro event before law site moment rfl
  exact law

/-- Neither the DCS nor PostgreSQL answers. -/
def failing : Env :=
  { quick ['b'] steadyWall with
    call := fun _ => .error ['x']
    cluster := fun _ => .error ['x'] }

/-- The demotion stop of a leader without the DCS fails, and is owed. -/
theorem stops_keep_demotion_order_withoutDcs :
    stopOwed (run [(.runCycle, failing)] primaryNode).trace = true ∧
      (Each (fun event before => ∀ site moment, event = .stop site moment →
          StopLaw site moment before) (run [(.runCycle, failing)] primaryNode).trace ∧
        Owed (run [(.runCycle, failing)] primaryNode)) :=
  ⟨rfl, stops_keep_demotion_order _ primaryNode rfl⟩

/-- D2 to the letter: a write for every stop of what may be a primary. -/
def WritesFirst (event : Event) (before : List Event) : Prop :=
  ∀ site moment, event = .stop site moment → holdsLock moment before = false →
    moment.running = true → moment.recoverySignal = false →
    moment.identity = .primary ∨ (∃ signal, moment.identity = .unknown signal) →
    attempted before = true

def heldNode : Ha :=
  { primaryNode with
    isLeader := false
    rewindHold := true
    directory := { primaryNode.directory with rewindHold := true } }

def unobservable : Env := { quick ['b'] steadyWall with call := fun _ => .error ['x'] }

/-- A pending stop is repeated in the next cycle without another write, and a held node
stops a server that it could not observe directly. -/
theorem stops_without_a_write :
    ¬Each WritesFirst (run [(.runCycle, failing), (.runCycle, failing)] primaryNode).trace ∧
      ¬Each WritesFirst (run [(.runCycle, unobservable)] heldNode).trace := by
  constructor
  · intro each
    have repeated := each.2.1 .stopPublishingNotPrimary _ rfl rfl rfl rfl (.inr ⟨false, rfl⟩)
    exact absurd repeated (by decide)
  · intro each
    have direct := each.2.1 .stopHeldPostgres _ rfl rfl rfl rfl (.inr ⟨false, rfl⟩)
    exact absurd direct (by decide)

/-! ### Promotes -/

/-- In a run in which `cascade_promote` is refused whenever it is called, PostgreSQL is
promoted only under the lock and its lease, as a managed standby that this cycle
observed, with the pending promote of this lock term written and a required watchdog
armed. -/
theorem promotes_are_gated (steps : List (Method × Env)) (ha : Ha) (fresh : ha.trace = [])
    (unplanned : ha.promotePending = none) (refused : cascadesRefused steps ha = true) :
    Each (fun event before => ∀ moment, event = .promote moment →
      PromoteLaw ha.config moment before) (run steps ha).trace := by
  have whole : Whole True ha (run steps ha) := run_whole steps fun _ => refused
  have good := whole.good (good_fresh fresh fun _ => unplanned)
  rw [← whole.config]
  refine each_mono good.lawful.each ?_
  rintro event before law moment rfl
  exact law trivial

def standbyNode : Ha :=
  { primaryNode with
    isLeader := false
    role := .replica
    inRecovery := none
    server := .standby
    standbySignal := true }

def isPromote : Event → Bool
  | .promote _ => true
  | _ => false

/-- A standby that still has the lock is promoted. -/
theorem promotes_are_gated_underLock :
    (run [(.runCycle, quick ['a'] steadyWall)] standbyNode).trace.any isPromote = true ∧
      Each (fun event before => ∀ moment, event = .promote moment →
        PromoteLaw standbyNode.config moment before)
        (run [(.runCycle, quick ['a'] steadyWall)] standbyNode).trace :=
  ⟨rfl, promotes_are_gated _ standbyNode rfl rfl rfl⟩

/-- The cluster is a standby of another one. -/
def standbyCluster : Env :=
  { quick ['a'] steadyWall with
    globalConfig := fun _ =>
      some { primaryNode.lastConfig with standbyCluster := some ⟨['r'], 5432⟩ } }

/-- The leader of a standby cluster promotes on `cascade_promote` with no pending promote
written. -/
theorem cascade_promotes_unplanned :
    ¬Each (fun event before => ∀ moment, event = .promote moment →
      PromoteLaw standbyNode.config moment before)
      (run [(.runCycle, standbyCluster), (.cascadePromote, standbyCluster)] standbyNode).trace := by
  intro each
  obtain ⟨pending, written, _⟩ := (each.2.2.1 _ rfl).pending
  cases written

end PgHa.CallRuns
