import PgHa.HaFrames

/-!
What a finished HA cycle leaves behind when it found PostgreSQL running as a
primary: the lock with its lease, or a server that cannot write, or a stop that
the next cycles repeat.
-/

namespace PgHa.PrimaryFenced

open Text Cluster Identity Interruptible Lease HaState Election HaHelpers HaFollow HaCycle HaFrames

variable {env : Env} {ha : Ha}

/-- PostgreSQL is stopped or a standby, or its stop is repeated until it succeeds. -/
def Settled (ha : Ha) : Prop :=
  ha.server = .stopped ∨ ha.server = .standby ∨ ha.stopPending = true

/-- A stop that succeeded left PostgreSQL stopped, a failed one is pending. -/
def Halted (stopped : Except Str Unit) (ha : Ha) : Prop :=
  match stopped with
  | .ok () => ha.server = .stopped
  | .error _ => ha.stopPending = true

/-- Observed out of recovery, and at most stopped since. -/
structure Exposed (ha : Ha) : Prop where
  inRecovery : ha.inRecovery = some false
  server : ha.server = .primary ∨ ha.server = .stopped

def Grounded (ha : Ha) : Prop := ha.server = .stopped ∨ ha.server = .standby

theorem halted_settled {stopped : Except Str Unit} (halted : Halted stopped ha) : Settled ha := by
  cases stopped with
  | ok => exact .inl halted
  | error => exact .inr (.inr halted)

theorem grounded_settled (grounded : Grounded ha) : Settled ha := by
  rcases grounded with stopped | standby
  · exact .inl stopped
  · exact .inr (.inl standby)

theorem grounded_drift {after : Ha} (moved : Drift ha after) (grounded : Grounded ha) :
    Grounded after := by
  rcases moved.server with same | stopped | recovering
  · rw [Grounded, same]
    exact grounded
  · exact .inl stopped
  · rcases grounded with no | no <;> rw [no] at recovering <;> cases recovering

theorem settled_loose {after : Ha} (moved : Loose ha after) (settled : Settled ha) :
    Settled after := by
  rcases settled with stopped | standby | pending
  · exact grounded_settled (grounded_drift moved.toDrift (.inl stopped))
  · exact grounded_settled (grounded_drift moved.toDrift (.inr standby))
  · exact .inr (.inr (moved.stopPending.trans pending))

theorem exposed_calm {after : Ha} (moved : Calm ha after) (exposed : Exposed ha) :
    Exposed after := by
  refine ⟨moved.inRecovery.trans exposed.inRecovery, ?_⟩
  rcases moved.server with same | stopped | recovering
  · rw [same]
    exact exposed.server
  · exact .inr stopped
  · rcases exposed.server with no | no <;> rw [no] at recovering <;> cases recovering

theorem exposed_identity (exposed : Exposed ha) : ha.pgIdentity = .primary := by
  simp [Ha.pgIdentity, classify, exposed.inRecovery]

/-! ### Stopping -/

theorem stop_ends {site : StopSite} : Finishes (stop site) env ha
    (fun stopped after => Loose ha after ∧ (stopped = .ok () → after.server = .stopped)) := by
  have ran : Carries Loose Loose (fun env => env.raced = true) (stop site) env ha
      (fun stopped after => StopRan site (ha.moment env) ha stopped after) :=
    stop_carries (fun _ _ quiet => quiet.toLoose) (forget_noted_loose ha none _)
      (stopReturned_loose site)
  exact ends_mono ran (fun _ _ ended => ⟨ended.2.loose, ended.2.server⟩) fun _ cut => cut.2

theorem stopPublishing_ends : Finishes stopPublishingNotPrimary env ha
    (fun stopped after => Drift ha after ∧ Halted stopped after) := by
  unfold stopPublishingNotPrimary
  apply ends_bind (ends_keeps (loose_of_calm await_calm))
  intro _ published before
  apply ends_bind stop_ends
  intro stopped down moved
  apply ends_bind (ends_keeps (loose_of_calm await_calm))
  intro _ again quiet
  have drift : Loose ha again :=
    IsTrans.trans _ _ _ before (IsTrans.trans _ _ _ moved.1 quiet)
  cases stopped with
  | error e =>
      apply ends_change_bind
      exact ends_pure ⟨⟨drift.tick, drift.server, drift.config, drift.ttl, drift.isPaused,
        drift.isLeader, drift.leaderLease⟩, rfl⟩
  | ok =>
      apply ends_change_bind
      apply ends_bind (ends_keeps reconcileWatchdog_loose)
      intro _ reconciled kept
      apply ends_bind (ends_keeps (loose_of_calm await_calm))
      intro _ final last
      have cleared : Drift ha { again with stopPending := false } :=
        ⟨drift.tick, drift.server, drift.config, drift.ttl, drift.isPaused, drift.isLeader,
          drift.leaderLease⟩
      have rest : Loose { again with stopPending := false } final :=
        IsTrans.trans _ _ _ kept last
      have stopped : again.server = .stopped := stopped_drift quiet.toDrift (moved.2 rfl)
      exact ends_pure ⟨IsTrans.trans _ _ _ cleared rest.toDrift,
        stopped_drift rest.toDrift stopped⟩

theorem fencePrimary_ends : Finishes fencePrimary env ha
    (fun stopped after => Drift ha after ∧ Halted stopped after) := by
  unfold fencePrimary
  apply ends_bind (ends_keeps (drift_of_calm (calm_of_quiet resetSyncCache_quiet)))
  intro _ cleared first
  apply ends_bind (ends_keeps (drift_of_calm (prepareDemotion_calm true)))
  intro _ prepared second
  refine ends_weaken stopPublishing_ends fun stopped after moved => ?_
  exact ⟨IsTrans.trans _ _ _ first (IsTrans.trans _ _ _ second moved.1), moved.2⟩

theorem fencePrimary_settles : Finishes fencePrimary env ha (fun _ after => Settled after) :=
  ends_weaken fencePrimary_ends fun _ _ moved => halted_settled moved.2

theorem retryPendingStop_ends : Finishes retryPendingStop env ha
    (fun _ after => Settled after) := by
  unfold retryPendingStop
  apply ends_ask_bind
  have stops : Finishes stopPublishingNotPrimary env ha (fun _ after => Settled after) :=
    ends_weaken stopPublishing_ends fun _ _ moved => halted_settled moved.2
  split
  · exact stops
  · exact stops

/-- The state once a lease, or none, is published. -/
def leased (lease : Option LeaderLease) (ha : Ha) : Ha :=
  { ha with
    leaderLease := lease
    fenceDeadline := if ha.isPaused then none else lease
    unseen := true }

theorem setLeaderLease_bind {Value : Type} {lease : Option LeaderLease}
    {next : Unit → HaProg Value} {post : Value → Ha → Prop} {dropped : Ha → Prop}
    (rest : Ends (next ()) env (leased lease ha) post dropped) :
    Ends (setLeaderLease lease >>= next) env ha post dropped := rest

theorem extendLeaderLease_bind {Value : Type} {anchor : LeaseAnchor}
    {next : Unit → HaProg Value} {post : Value → Ha → Prop} {dropped : Ha → Prop}
    (rest : Ends (next ()) env
      (leased (some (.new anchor ha.ttl ha.config.safetyMargin)) (ha.noted .lockWritten)) post
      dropped) :
    Ends (extendLeaderLease anchor >>= next) env ha post dropped := rest

theorem fenceForLostLease_ends : Finishes fenceForLostLease env ha
    (fun _ after => Settled after) := by
  unfold fenceForLostLease
  apply ends_change_bind
  apply setLeaderLease_bind
  apply ends_bind fencePrimary_settles
  intro stopped fenced settled
  apply ends_bind (ends_keeps (loose_of_quiet (setRole_quiet .replica)))
  intro _ renamed first
  apply ends_bind (ends_keeps reconcileWatchdog_loose)
  intro _ final second
  exact ends_pure (settled_loose (IsTrans.trans _ _ _ first second) settled)

theorem fenceAtLeaseCheck_ends (step : Str) : Finishes (fenceAtLeaseCheck step) env ha
    (fun _ after => Settled after) := by
  unfold fenceAtLeaseCheck
  exact ends_bind fenceForLostLease_ends fun _ after settled => ends_pure settled

/-- On a held node, or one of an older generation, a primary is fenced. -/
theorem fenceOrStop_ends {site : StopSite} (exposed : Exposed ha) :
    Finishes (fenceOrStop site) env ha
      (fun stopped after => Drift ha after ∧ Halted stopped after) := by
  unfold fenceOrStop
  apply ends_ask_bind
  apply ends_ask_bind
  simp only [exposed_identity exposed, if_true]
  split
  · rename_i down
    refine ends_pure ⟨Std.Refl.refl ha, ?_⟩
    exact stopped_of_down (by simpa using down)
  · exact fencePrimary_ends

theorem stopHeldPostgres_settles (exposed : Exposed ha) : Finishes stopHeldPostgres env ha
    (fun _ after => Settled after) :=
  ends_weaken (fenceOrStop_ends exposed) fun _ _ moved => halted_settled moved.2

theorem holdStopAndReport_ends (exposed : Exposed ha) : Finishes holdStopAndReport env ha
    (fun _ after => Settled after) := by
  unfold holdStopAndReport
  apply ends_bind (stopHeldPostgres_settles exposed)
  intro stopped down settled
  cases stopped with
  | error e => exact ends_pure settled
  | ok =>
      exact ends_weaken (ends_keeps (loose_of_quiet reportRewindHold_quiet)) fun _ _ quiet =>
        settled_loose quiet settled

/-! ### Rejoining -/

/-- A calm step after which nothing but the stopped server matters. -/
theorem calm_grounded {Value : Type} {prog : HaProg Value} (calm : Moves Calm prog)
    (grounded : Grounded ha) : Finishes prog env ha (fun _ after => Grounded after) :=
  ends_weaken (ends_keeps (drift_of_calm calm)) fun _ _ moved => grounded_drift moved grounded

theorem stopHeldPostgres_grounded (grounded : Grounded ha) : Finishes stopHeldPostgres env ha
    (fun _ after => Grounded after) := by
  unfold stopHeldPostgres fenceOrStop
  apply ends_ask_bind
  apply ends_ask_bind
  split
  · exact ends_pure grounded
  · split
    · exact ends_weaken fencePrimary_ends fun _ _ moved => grounded_drift moved.1 grounded
    · exact ends_weaken stop_ends fun _ _ moved => grounded_drift moved.1.toDrift grounded

theorem enterRewindHold_grounded (grounded : Grounded ha) : Finishes enterRewindHold env ha
    (fun _ after => Grounded after) := by
  unfold enterRewindHold
  apply ends_change_bind
  refine ends_bind (calm_grounded await_calm grounded) fun _ waited down => ?_
  apply ends_change_bind
  have written : Grounded (match env.call waited.tick with
      | .ok () =>
          { waited with
            rewindHoldPersisted := true
            directory := { waited.directory with rewindHold := true } }
      | .error _ => { waited with rewindHoldPersisted := false }) := by
    cases env.call waited.tick with
    | ok => exact down
    | error => exact down
  apply ends_bind (stopHeldPostgres_grounded written)
  intro stopped held still
  cases stopped with
  | error e => exact ends_pure still
  | ok => exact calm_grounded (calm_of_quiet reportRewindHold_quiet) still

/-- With `standby.signal` there, whatever starts is a standby. -/
structure Signalled (ha : Ha) : Prop where
  grounded : Grounded ha
  signal : ha.standbySignal = true

theorem await_signalled (ready : Signalled ha) : Finishes await env ha
    (fun _ after => Signalled after) := by
  unfold await
  apply ends_change_bind
  have passed : Signalled (elapse env ha) :=
    ⟨grounded_drift (calm_elapse env ha).toDrift ready.grounded, ready.signal⟩
  refine ends_cutIf_bind (dropped_raced env _) fun _ => ?_
  exact (⟨passed.grounded, passed.signal⟩ : Signalled { elapse env ha with unseen := false })

theorem launch_signalled (ready : Signalled ha) : Finishes launch env ha
    (fun _ after => Signalled after) := by
  change Signalled (if ha.server = .stopped ∧ env.launches ha.tick = true then
    { ha with server := bootKind ha } else ha)
  split
  · exact ⟨.inr (by simp [bootKind, ready.signal]), ready.signal⟩
  · exact ready

/-- By induction on the looks that are left. -/
theorem pollStarted_signalled (looks : Nat) (ready : Signalled ha) :
    Finishes (pollStarted looks) env ha (fun _ after => Signalled after) := by
  induction looks generalizing ha with
  | zero => exact ends_pure ready
  | succ looks ih =>
      unfold pollStarted
      apply ends_bind (await_signalled ready)
      intro _ waited still
      apply ends_bind (launch_signalled still)
      intro _ launched booted
      apply ends_ask_bind
      split
      · exact ends_pure booted
      · exact ih booted

theorem start_signalled (ready : Signalled ha) : Finishes start env ha
    (fun _ after => Signalled after) := by
  unfold start
  apply ends_ask_bind
  split
  · exact ends_pure ready
  · apply ends_change_bind
    have forgot : Signalled (Ha.noted { ha with inRecovery := none } (.start (ha.moment env))) :=
      ⟨ready.grounded, ready.signal⟩
    apply ends_bind (await_signalled forgot)
    intro _ waited still
    apply ends_bind (launch_signalled still)
    intro _ launched booted
    apply ends_ask_bind
    apply ends_bind (await_signalled booted)
    intro _ ended up
    split
    · exact ends_pure up
    · apply ends_ask_bind
      split
      · exact ends_pure up
      · exact pollStarted_signalled 10 up

theorem writeStandbyConfig_signalled (grounded : Grounded ha) : Finishes writeStandbyConfig env ha
    (fun written after => Grounded after ∧ (written = .ok () → Signalled after)) := by
  unfold writeStandbyConfig
  apply ends_change_bind
  refine ends_bind (calm_grounded await_calm grounded) fun _ waited down => ?_
  apply ends_change_bind
  cases called : env.call waited.tick with
  | ok =>
      simp only [writeSignal]
      exact ends_ask ⟨down, fun _ => ⟨down, rfl⟩⟩
  | error e =>
      simp only [writeSignal]
      refine ends_ask ⟨down, fun written => ?_⟩
      exact absurd (called.symm.trans written) (by simp)

/-- What follows a written standby configuration, or reports that it was not. -/
theorem afterSignal_grounded {next : HaProg CycleResult} (grounded : Grounded ha)
    (rest : ∀ ready, Signalled ready →
      Finishes next env ready (fun _ after => Grounded after)) :
    Finishes (writeStandbyConfig >>= fun written =>
      match written with
      | .error e => pure (signalNotWritten e)
      | .ok () => next) env ha (fun _ after => Grounded after) := by
  apply ends_bind (writeStandbyConfig_signalled grounded)
  intro written ready down
  cases written with
  | error e => exact ends_pure down.1
  | ok => exact rest ready (down.2 rfl)

theorem rebuildFromLeader_grounded (leaderName failed : Str) (grounded : Grounded ha) :
    Finishes (rebuildFromLeader leaderName failed) env ha (fun _ after => Grounded after) := by
  unfold rebuildFromLeader
  apply ends_bind (calm_grounded removeDataDirectory_calm grounded)
  intro removed emptied down
  cases removed with
  | error re => exact ends_pure down
  | ok =>
      apply ends_bind (calm_grounded (calm_of_quiet basebackup_quiet) down)
      intro cloned copied still
      cases cloned with
      | error be => exact ends_pure still
      | ok =>
          apply ends_bind (calm_grounded (calm_of_quiet removeNodeStateFiles_quiet) still)
          intro _ cleaned quiet
          apply ends_bind (calm_grounded (calm_of_quiet clearRewindHold_quiet) quiet)
          intro _ freed free
          refine afterSignal_grounded free fun ready signalled => ?_
          apply ends_bind (start_signalled signalled)
          intro started up booted
          cases started with
          | error e => exact ends_pure booted.grounded
          | ok =>
              apply ends_bind
                (calm_grounded (calm_of_quiet (setRole_quiet .replica)) booted.grounded)
              intro _ renamed named
              exact ends_bind (calm_grounded await_calm named) fun _ _ final => ends_pure final

theorem startRejoined_grounded (leaderName : Str) (rebuildEnabled : Bool)
    (ready : Signalled ha) : Finishes (startRejoined leaderName rebuildEnabled) env ha
      (fun _ after => Grounded after) := by
  unfold startRejoined
  apply ends_bind (start_signalled ready)
  intro started up booted
  apply ends_ask_bind
  have joined (message : Str) : Finishes (setRole .replica >>= fun _ => touchMember >>= fun _ =>
      (pure (.follower message) : HaProg CycleResult)) env up (fun _ after => Grounded after) := by
    apply ends_bind (calm_grounded (calm_of_quiet (setRole_quiet .replica)) booted.grounded)
    intro _ _ named
    exact ends_bind (calm_grounded await_calm named) fun _ _ final => ends_pure final
  cases started with
  | ok => exact joined _
  | error e =>
      cases running : up.isRunning with
      | true => exact joined _
      | false =>
          change Ends (if rebuildEnabled then _ else _) _ _ _ _
          split
          · exact rebuildFromLeader_grounded leaderName _ booted.grounded
          · exact enterRewindHold_grounded booted.grounded

theorem rewindAndStart_grounded (leaderName : Str) (rebuildEnabled : Bool)
    (grounded : Grounded ha) : Finishes (rewindAndStart leaderName rebuildEnabled) env ha
      (fun _ after => Grounded after) := by
  unfold rewindAndStart
  apply ends_bind (calm_grounded (calm_of_quiet sourceAnswersAsPrimary_quiet) grounded)
  intro probe probed down
  apply ends_ask_bind
  split
  · exact ends_bind (calm_grounded await_calm down) fun _ _ final => ends_pure final
  · apply ends_bind (calm_grounded (calm_of_quiet rewind_quiet) down)
    intro rewound after still
    cases rewound with
    | error e =>
        change Ends (if rebuildEnabled then _ else _) _ _ _ _
        split
        · exact rebuildFromLeader_grounded leaderName _ still
        · exact enterRewindHold_grounded still
    | ok =>
        apply ends_bind (calm_grounded (calm_of_quiet removeNodeStateFiles_quiet) still)
        intro _ cleaned quiet
        apply ends_bind (calm_grounded (calm_of_quiet clearRewindHold_quiet) quiet)
        intro _ freed free
        exact afterSignal_grounded free fun ready signalled =>
          startRejoined_grounded leaderName rebuildEnabled signalled

theorem sourceNotReady_ends (leaderName why : Str) (exposed : Exposed ha) :
    Finishes (sourceNotReady leaderName why) env ha (fun _ after => Settled after) := by
  unfold sourceNotReady
  apply ends_ask_bind
  simp only [exposed_identity exposed, if_true]
  apply ends_bind fencePrimary_settles
  intro fenced down settled
  cases fenced with
  | error e => exact ends_pure settled
  | ok => exact ends_pure settled

theorem ready_member {lockHolder : Option Str} {source : Str} {member : Option Member}
    {probe : Option Bool} (ready : leaderReadyForRewind lockHolder source member probe = true) :
    member ≠ none := by
  intro none
  simp [leaderReadyForRewind, leaderReadyInDcs, none] at ready

/-- A primary that rejoins ends stopped, restarted as a standby, or with its stop
pending. -/
theorem rejoinAsReplica_ends (leaderName : Str) (exposed : Exposed ha) :
    Finishes (rejoinAsReplica leaderName) env ha (fun _ after => Settled after) := by
  unfold rejoinAsReplica
  apply ends_ask_bind
  apply ends_bind (ends_keeps (calm_of_quiet refreshRewindHold_quiet))
  intro held refreshed calm
  have fresh := exposed_calm calm exposed
  split
  · exact holdStopAndReport_ends fresh
  · apply ends_bind (ends_keeps (calm_of_quiet (probeSource_quiet leaderName)))
    intro probe probed quiet
    have still := exposed_calm quiet fresh
    apply ends_ask_bind
    apply ends_ask_bind
    split
    · exact sourceNotReady_ends leaderName _ still
    · rename_i ready
      cases found : probed.cluster.getMember leaderName with
      | none =>
          simp only [Bool.not_eq_true, Bool.not_eq_false'] at ready
          exact absurd found (ready_member (by simpa using ready))
      | some member =>
          simp only [found]
          apply ends_bind (fenceOrStop_ends still)
          intro stopped down moved
          cases stopped with
          | error e => exact ends_pure (halted_settled moved.2)
          | ok =>
              exact ends_weaken (rewindAndStart_grounded leaderName _ (.inl moved.2))
                fun _ _ final => grounded_settled final

/-! ### The checks that may end a cycle -/

/-- A check passes calmly, or ends the cycle with PostgreSQL settled. -/
def Passes (before : Ha) (found : Option CycleResult) (after : Ha) : Prop :=
  match found with
  | none => Calm before after
  | some _ => Settled after

theorem enforceRewindHold_ends (exposed : Exposed ha) :
    Finishes enforceRewindHold env ha (Passes ha) := by
  unfold enforceRewindHold
  apply ends_bind (ends_keeps (calm_of_quiet refreshRewindHold_quiet))
  intro held refreshed calm
  have fresh := exposed_calm calm exposed
  apply ends_ask_bind
  apply ends_ask_bind
  apply ends_ask_bind
  have waits : Finishes (stopHeldPostgres >>= fun stopped =>
      match stopped with
      | .error e => pure (some (holdStopFailed e))
      | .ok () => do
          touchMember
          pure (some (.error
            "rewind hold: waiting for a leader running as a primary to rebuild from".toList)))
      env refreshed (Passes ha) := by
    apply ends_bind (stopHeldPostgres_settles fresh)
    intro stopped down settled
    cases stopped with
    | error e => exact ends_pure settled
    | ok =>
        apply ends_bind (ends_keeps (loose_of_calm await_calm))
        intro _ final quiet
        exact ends_pure (settled_loose quiet settled)
  split
  · exact ends_pure calm
  · exact ends_bind (holdStopAndReport_ends fresh) fun _ _ settled => ends_pure settled
  · exact ends_bind (rejoinAsReplica_ends _ fresh) fun _ _ settled => ends_pure settled
  · exact waits
  · exact waits

theorem enforceGeneration_ends (exposed : Exposed ha) :
    Finishes enforceGeneration env ha (Passes ha) := by
  unfold enforceGeneration
  apply ends_ask_bind
  split
  · exact ends_pure (Std.Refl.refl ha : Calm ha ha)
  · apply ends_bind (stopHeldPostgres_settles exposed)
    intro stopped down settled
    cases stopped with
    | error e => exact ends_pure settled
    | ok =>
        apply ends_bind (ends_keeps (loose_of_calm await_calm))
        intro _ final quiet
        exact ends_pure (settled_loose quiet settled)

theorem checkStance_ends (exposed : Exposed ha) :
    Finishes checkStance env ha (Passes ha) := by
  unfold checkStance
  apply ends_ask_bind
  apply ends_ask_bind
  simp only [exposed_identity exposed]
  cases pending : ha.stopPending with
  | false => exact ends_pure (Std.Refl.refl ha : Calm ha ha)
  | true =>
      apply ends_bind fencePrimary_settles
      intro fenced down settled
      cases fenced with
      | error e => exact ends_pure settled
      | ok => exact ends_pure settled

theorem checkEligible_ends (exposed : Exposed ha) :
    Finishes checkEligible env ha (Passes ha) := by
  unfold checkEligible
  apply ends_ask_bind
  split
  · exact ends_pure (Std.Refl.refl ha : Calm ha ha)
  · apply ends_ask_bind
    simp only [exposed_identity exposed, if_true]
    apply ends_bind fencePrimary_settles
    intro fenced down settled
    cases fenced with
    | error e => exact ends_pure settled
    | ok => exact ends_pure settled

theorem checkStale_ends :
    Finishes checkStale env ha (Passes ha) := by
  unfold checkStale
  apply ends_ask_bind
  split
  · apply ends_bind fencePrimary_settles
    intro fenced down settled
    cases fenced with
    | error e => exact ends_pure settled
    | ok =>
        apply ends_bind (ends_keeps (loose_of_calm await_calm))
        intro _ final quiet
        exact ends_pure (settled_loose quiet settled)
  · exact ends_pure (Std.Refl.refl ha : Calm ha ha)

/-- By induction on the checks: the last program starts where all of them passed. -/
theorem firstResult_ends {checks : List (HaProg (Option CycleResult))} {last : HaProg CycleResult}
    {post : CycleResult → Ha → Prop} (exposed : Exposed ha)
    (each : ∀ check ∈ checks, ∀ before, Exposed before →
      Finishes check env before (Passes before))
    (settles : ∀ result after, Settled after → post result after)
    (rest : ∀ passed, Calm ha passed → Exposed passed →
      Finishes last env passed post) :
    Finishes (firstResult checks last) env ha post := by
  induction checks generalizing ha with
  | nil => exact rest ha (Std.Refl.refl ha) exposed
  | cons check checks ih =>
      unfold firstResult
      apply ends_bind (each check List.mem_cons_self ha exposed)
      intro found after passed
      cases found with
      | some result => exact ends_pure (settles result after passed)
      | none =>
          have calm : Calm ha after := passed
          exact ih (exposed_calm calm exposed)
            (fun other member => each other (List.mem_cons_of_mem _ member))
            fun final quiet => rest final (IsTrans.trans _ _ _ calm quiet)

theorem actAsFollower_ends (lockOwner : Str) (exposed : Exposed ha) :
    Finishes (actAsFollower lockOwner) env ha (fun _ after => Settled after) := by
  unfold actAsFollower
  apply ends_ask_bind
  apply ends_ask_bind
  apply ends_ask_bind
  apply ends_ask_bind
  simp only [exposed_identity exposed, followerAction]
  exact rejoinAsReplica_ends lockOwner exposed

theorem followUpstream_ends (lockOwner : Str) (exposed : Exposed ha) :
    Finishes (followUpstream lockOwner) env ha (fun _ after => Settled after) := by
  unfold followUpstream
  apply ends_bind (enforceGeneration_ends exposed)
  intro stale first passed
  cases stale with
  | some result => exact ends_pure passed
  | none =>
      have fresh := exposed_calm passed exposed
      apply ends_bind (enforceRewindHold_ends fresh)
      intro held second through
      cases held with
      | some result => exact ends_pure through
      | none => exact actAsFollower_ends lockOwner (exposed_calm through fresh)

/-! ### The lock and its lease -/

/-- The lease that a lock write asked for at this tick grants. -/
def leaseAsked (env : Env) (ha : Ha) (asked : Nat) : LeaderLease :=
  .new ⟨env.mono asked, env.wall asked⟩ ha.ttl ha.config.safetyMargin

/-- The node is leader by a lock write made since the tick. -/
structure GrantedAt (env : Env) (since asked : Nat) (ha : Ha) : Prop where
  isLeader : ha.isLeader = true
  recent : since ≤ asked
  past : asked < ha.tick
  swapped : env.swap (asked + 1) = .ok true
  leaderLease : ha.leaderLease = some (leaseAsked env ha asked)

/-- The node is leader by a lock write made since the tick, and the lease of that
write was found unexpired after it. -/
def Held (env : Env) (since : Nat) (ha : Ha) : Prop :=
  ∃ asked look, GrantedAt env since asked ha ∧ asked < look ∧ look ≤ ha.tick ∧
    (leaseAsked env ha asked).expiredAt (env.mono look) (env.wall look) = false

theorem leaseAsked_drift {after : Ha} (moved : Drift ha after) (asked : Nat) :
    leaseAsked env after asked = leaseAsked env ha asked := by
  rw [leaseAsked, leaseAsked, moved.ttl, moved.config]

theorem granted_drift {since asked : Nat} {after : Ha} (moved : Drift ha after)
    (granted : GrantedAt env since asked ha) : GrantedAt env since asked after := by
  refine ⟨moved.isLeader.trans granted.isLeader, granted.recent,
    Nat.lt_of_lt_of_le granted.past moved.tick, granted.swapped, ?_⟩
  rw [leaseAsked_drift moved]
  exact moved.leaderLease.trans granted.leaderLease

theorem held_drift {since : Nat} {after : Ha} (moved : Drift ha after)
    (held : Held env since ha) : Held env since after := by
  obtain ⟨asked, look, granted, later, looked, valid⟩ := held
  refine ⟨asked, look, granted_drift moved granted, later, looked.trans moved.tick, ?_⟩
  rw [leaseAsked_drift moved]
  exact valid

/-- The election ended without an attempt for the lock, or with one that failed. -/
def LostElection (result : CycleResult) : Prop :=
  result = .follower "failed to acquire lock, following new leader".toList ∨
    (∃ e, result = .error ("Leader acquisition error: ".toList ++ e)) ∨
    ∃ ha, result = noAttempt ha

/-- What a cycle that found a primary leaves behind. -/
def Fenced (env : Env) (since : Nat) (result : CycleResult) (ha : Ha) : Prop :=
  Held env since ha ∨ Settled ha ∨ LostElection result

theorem fenced_settled {since : Nat} {result : CycleResult} (settled : Settled ha) :
    Fenced env since result ha := .inr (.inl settled)

theorem settles_fenced {since : Nat} {prog : HaProg CycleResult}
    (settles : Finishes prog env ha fun _ after => Settled after) :
    Finishes prog env ha (Fenced env since) :=
  ends_weaken settles fun _ _ settled => fenced_settled settled

/-- A wait that is not cut has looked at a lease published before it. -/
theorem await_looks : Finishes await env ha
    (fun _ after => Calm ha after ∧ after.tick = ha.tick + 1 ∧
      (env.raced = true → ha.unseen = true → ∀ lease, ha.fenceDeadline = some lease →
        lease.expiredAt (env.mono after.tick) (env.wall after.tick) = false)) := by
  unfold await
  apply ends_change_bind
  refine ends_cutIf_bind (dropped_raced env _) fun still => ?_
  have calm : Calm ha { elapse env ha with unseen := false } :=
    IsTrans.trans _ _ _ (calm_elapse env ha) (calm_of_core rfl)
  refine (⟨calm, rfl, fun raced unseen lease published => ?_⟩ : _ ∧ _ ∧ _)
  have fresh : (elapse env ha).unseen = true := unseen
  have deadline : (elapse env ha).fenceDeadline = some lease := published
  simp only [dropped, raced, fresh, deadline, Bool.true_and, Bool.true_or, Option.any_some,
    Bool.or_eq_false_iff] at still
  exact still.2

theorem swapWrite_ends : Finishes swapWrite env ha
    (fun swapped after => Calm ha after ∧ after.tick = ha.tick + 1 ∧
      env.swap (ha.tick + 1) = swapped) := by
  unfold swapWrite
  apply ends_bind await_looks
  intro _ waited moved
  refine ends_ask ⟨moved.1, moved.2.1, ?_⟩
  rw [moved.2.1]

theorem attemptToAcquireLeader_ends : Finishes attemptToAcquireLeader env ha
    (fun acquired after => Calm ha after ∧ after.tick = ha.tick + 1 ∧
      env.swap (ha.tick + 1) = acquired) := by
  unfold attemptToAcquireLeader
  apply ends_change_bind
  refine ends_weaken swapWrite_ends fun acquired after moved => ?_
  exact ⟨IsTrans.trans _ _ _ (noted_calm ha .acquiring) moved.1, moved.2⟩

/-- The lease of a granted lock write that the race has not seen expired. -/
def Published (env : Env) (since : Nat) (ha : Ha) : Prop :=
  ∃ asked, GrantedAt env since asked ha ∧
    (Held env since ha ∨ ha.unseen = true ∧ ha.fenceDeadline = some (leaseAsked env ha asked))

theorem await_held {since : Nat} (raced : env.raced = true) (published : Published env since ha) :
    Finishes await env ha (fun _ after => Calm ha after ∧ Held env since after) := by
  obtain ⟨asked, granted, checked⟩ := published
  refine ends_weaken await_looks fun _ after looked => ⟨looked.1, ?_⟩
  have drift := looked.1.toDrift
  rcases checked with held | ⟨unseen, deadline⟩
  · exact held_drift drift held
  · have valid := looked.2.2 raced unseen _ deadline
    refine ⟨asked, after.tick, granted_drift drift granted, ?_, le_rfl, ?_⟩
    · exact Nat.lt_of_lt_of_le granted.past drift.tick
    · rw [leaseAsked_drift drift]
      exact valid

theorem attempt_held {since : Nat} (raced : env.raced = true)
    (published : Published env since ha) :
    Finishes attempt env ha (fun _ after => Calm ha after ∧ Held env since after) := by
  unfold attempt
  apply ends_bind (await_held raced published)
  intro _ after kept
  exact kept

/-- What `hold` finds when the lease check passes. -/
theorem held_of_check {since : Nat} (notPaused : ha.isPaused = false)
    (published : Published env since ha) (valid : ha.lostLease env = false) :
    Held env since ha := by
  obtain ⟨asked, granted, _⟩ := published
  refine ⟨asked, ha.tick, granted, granted.past, le_rfl, ?_⟩
  simpa [Ha.lostLease, granted.leaderLease, notPaused, Ha.expired] using valid

/-- Calm steps keep the lease that `hold` checked. -/
theorem calm_held {Value : Type} {prog : HaProg Value} {since : Nat} (calm : Moves Calm prog)
    (held : Held env since ha) : Finishes prog env ha (fun _ after => Held env since after) :=
  ends_weaken (ends_keeps (drift_of_calm calm)) fun _ _ moved => held_drift moved held

theorem hold_ends {since : Nat} (notPaused : ha.isPaused = false)
    (published : Published env since ha) :
    Finishes hold env ha (Fenced env since) := by
  unfold hold
  apply ends_ask_bind
  split
  · exact settles_fenced (fenceAtLeaseCheck_ends _)
  · rename_i valid
    have held := held_of_check notPaused published (Bool.eq_false_iff.mpr valid)
    apply ends_bind (calm_held armWatchdog_calm held)
    intro armed after kept
    cases armed with
    | error e =>
        apply setLeaderLease_bind
        exact settles_fenced (fenceAtLeaseCheck_ends _)
    | ok =>
        apply ends_bind (calm_held (calm_of_quiet (setRole_quiet .primary)) kept)
        intro _ _ named
        apply ends_bind (calm_held await_calm named)
        intro _ _ touched
        apply ends_bind (calm_held (calm_of_quiet recordClusterTimeline_quiet) touched)
        intro _ _ recorded
        apply ends_bind (calm_held (calm_of_quiet enforceSynchronousReplication_quiet) recorded)
        intro _ _ synced
        apply ends_bind (calm_held (calm_of_quiet appendPendingHistory_quiet) synced)
        intro _ _ appended
        apply ends_ask_bind
        exact ends_pure (.inl appended)

/-- A standby leader that is a primary keeps the lock it was granted. -/
theorem enforceStandbyLeaderRole_ends {since : Nat} (raced : env.raced = true)
    (exposed : Exposed ha) (published : Published env since ha)
    (standby : ha.lastConfig.standbyCluster.isSome = true) :
    Finishes enforceStandbyLeaderRole env ha (Fenced env since) := by
  unfold enforceStandbyLeaderRole
  apply ends_ask_bind
  apply ends_ask_bind
  cases remote : ha.lastConfig.standbyCluster with
  | none => simp [remote] at standby
  | some config =>
      simp only [remote]
      apply ends_ask_bind
      simp only [exposed.inRecovery]
      split
      · rename_i following
        simp at following
      · apply ends_bind (await_held raced published)
        intro _ after kept
        exact ends_pure (.inl kept.2)

theorem enforcePrimaryRole_ends {since : Nat} (raced : env.raced = true)
    (notPaused : ha.isPaused = false) (exposed : Exposed ha)
    (published : Published env since ha) :
    Finishes enforcePrimaryRole env ha (Fenced env since) := by
  unfold enforcePrimaryRole
  apply ends_ask_bind
  apply ends_ask_bind
  split
  · rename_i standby
    exact enforceStandbyLeaderRole_ends raced exposed published standby
  · simp only [exposed_identity exposed, leaderAction]
    exact hold_ends notPaused published

theorem demote_ends : Finishes demote env ha (fun _ after => Settled after) := by
  unfold demote
  apply ends_bind (ends_keeps (calm_of_quiet resetSyncCache_quiet))
  intro _ cleared _
  apply ends_bind (ends_keeps (prepareDemotion_calm true))
  intro written prepared _
  apply ends_bind stopPublishing_ends
  intro stopped down moved
  apply ends_bind (ends_keeps (loose_of_quiet (setRole_quiet .replica)))
  intro _ final quiet
  have settled := settled_loose quiet (halted_settled moved.2)
  cases written with
  | ok => exact ends_pure settled
  | error e => exact ends_pure settled

/-- The state once the lock write that was asked for in `ha` is granted. -/
def grantedState (env : Env) (ha waited : Ha) : Ha :=
  leased (some (.new ⟨env.mono ha.tick, env.wall ha.tick⟩ waited.ttl
    waited.config.safetyMargin))
    (Ha.noted { waited with isLeader := true } .lockWritten)

theorem published_granted {since : Nat} {waited : Ha} (calm : Calm ha waited)
    (ticked : waited.tick = ha.tick + 1) (recent : since ≤ ha.tick)
    (swapped : env.swap (ha.tick + 1) = .ok true) (notPaused : ha.isPaused = false) :
    Published env since (grantedState env ha waited) := by
  have paused : waited.isPaused = false := calm.isPaused.trans notPaused
  refine ⟨ha.tick, ⟨rfl, recent, ?_, swapped, rfl⟩, .inr ⟨rfl, ?_⟩⟩
  · change ha.tick < waited.tick
    omega
  · simp [grantedState, leased, Ha.noted, paused, leaseAsked]

theorem exposed_granted {waited : Ha} (exposed : Exposed waited) :
    Exposed (grantedState env ha waited) := ⟨exposed.inRecovery, exposed.server⟩

theorem processHealthyCluster_ends {since : Nat} (lockOwner : Str) (raced : env.raced = true)
    (notPaused : ha.isPaused = false) (exposed : Exposed ha) (recent : since ≤ ha.tick) :
    Finishes (processHealthyCluster lockOwner) env ha (Fenced env since) := by
  unfold processHealthyCluster
  apply ends_ask_bind
  split
  · apply ends_ask_bind
    apply ends_bind swapWrite_ends
    intro renewed waited moved
    have still := exposed_calm moved.1 exposed
    have paused : waited.isPaused = false := moved.1.isPaused.trans notPaused
    have demotes : Finishes (setLeaderLease none >>= fun _ => setLeader false >>= fun _ =>
        read Ha.isPaused >>= fun paused =>
          if paused then
            (pure (.leader
              "continue running as primary in pause mode despite lock failure".toList) :
              HaProg CycleResult)
          else demote) env waited (Fenced env since) := by
      apply setLeaderLease_bind
      apply ends_change_bind
      apply ends_ask_bind
      simp only [leased, paused, Bool.false_eq_true, if_false]
      exact settles_fenced demote_ends
    match renewed, moved with
    | .ok true, moved =>
        apply ends_change_bind
        apply extendLeaderLease_bind
        apply ends_ask_bind
        split
        · apply ends_bind retryPendingStop_ends
          intro _ after settled
          exact ends_pure (fenced_settled settled)
        · have granted : Published env since (grantedState env ha waited) :=
            published_granted moved.1 moved.2.1 recent moved.2.2 notPaused
          have up : Exposed (grantedState env ha waited) := exposed_granted still
          exact enforcePrimaryRole_ends raced paused up granted
    | .ok false, moved => exact demotes
    | .error e, moved =>
        apply setLeaderLease_bind
        apply ends_change_bind
        apply ends_ask_bind
        simp only [leased, paused, Bool.false_eq_true, if_false]
        exact settles_fenced demote_ends
  · apply ends_change_bind
    have renamed : Exposed { ha with isLeader := false } := ⟨exposed.inRecovery, exposed.server⟩
    exact settles_fenced (followUpstream_ends lockOwner renamed)

theorem published_noted {since : Nat} (published : Published env since ha) (pending : Bool) :
    Published env since { ha with pendingHistory := pending } := by
  have moved : Calm ha { ha with pendingHistory := pending } := calm_of_core rfl
  obtain ⟨asked, granted, checked⟩ := published
  refine ⟨asked, granted_drift moved.toDrift granted, ?_⟩
  rcases checked with held | unseen
  · exact .inl (held_drift moved.toDrift held)
  · exact .inr unseen

/-! ### The cycle -/

theorem acquireLeader_ends {since : Nat} (raced : env.raced = true)
    (notPaused : ha.isPaused = false) (exposed : Exposed ha) (recent : since ≤ ha.tick) :
    Finishes acquireLeader env ha (Fenced env since) := by
  unfold acquireLeader
  apply ends_ask_bind
  apply ends_bind attemptToAcquireLeader_ends
  intro acquired waited moved
  match acquired, moved with
  | .ok true, moved =>
      have granted : Published env since (grantedState env ha waited) :=
        published_granted moved.1 moved.2.1 recent moved.2.2 notPaused
      have up : Exposed (grantedState env ha waited) :=
        exposed_granted (exposed_calm moved.1 exposed)
      have paused : waited.isPaused = false := moved.1.isPaused.trans notPaused
      apply ends_change_bind
      apply extendLeaderLease_bind
      apply ends_change_bind
      have noted := published_noted granted waited.lastConfig.standbyCluster.isNone
      apply ends_bind (attempt_held raced noted)
      intro _ after kept
      obtain ⟨asked, look, leads, rest⟩ := kept.2
      exact enforcePrimaryRole_ends raced (kept.1.isPaused.trans paused)
        (exposed_calm kept.1 ⟨up.inRecovery, up.server⟩) ⟨asked, leads, .inl kept.2⟩
  | .ok false, moved =>
      apply ends_change_bind
      exact ends_pure (.inr (.inr (.inl rfl)))
  | .error e, moved => exact ends_pure (.inr (.inr (.inr (.inl ⟨e, rfl⟩))))

theorem campaign_ends {since : Nat} (raced : env.raced = true)
    (notPaused : ha.isPaused = false) (exposed : Exposed ha) (recent : since ≤ ha.tick) :
    Finishes campaign env ha (Fenced env since) := by
  unfold campaign
  apply ends_ask_bind
  split
  · exact acquireLeader_ends raced notPaused exposed recent
  · apply ends_change_bind
    exact ends_ask (.inr (.inr (.inr (.inr ⟨_, rfl⟩))))

theorem processUnhealthyCluster_ends {since : Nat} (raced : env.raced = true)
    (notPaused : ha.isPaused = false) (exposed : Exposed ha) (recent : since ≤ ha.tick) :
    Finishes processUnhealthyCluster env ha (Fenced env since) := by
  unfold processUnhealthyCluster
  apply ends_ask_bind
  simp only [notPaused, Bool.false_eq_true, if_false]
  refine firstResult_ends exposed ?_ (fun _ _ settled => fenced_settled settled) ?_
  · intro check member before fresh
    simp only [List.mem_cons, List.not_mem_nil, or_false] at member
    rcases member with rfl | rfl | rfl | rfl | rfl
    · exact enforceGeneration_ends fresh
    · exact enforceRewindHold_ends fresh
    · exact checkStance_ends fresh
    · exact checkEligible_ends fresh
    · exact checkStale_ends
  · intro passed calm still
    exact campaign_ends raced (calm.isPaused.trans notPaused) still (recent.trans calm.tick)

theorem decideCycle_ends (raced : env.raced = true) (notPaused : ha.isPaused = false)
    (exposed : Exposed ha) :
    Finishes decideCycle env ha (Fenced env ha.tick) := by
  unfold decideCycle
  apply ends_ask_bind
  apply ends_ask_bind
  split
  · exact ends_bind retryPendingStop_ends fun _ _ settled => ends_pure (fenced_settled settled)
  · split
    · exact processUnhealthyCluster_ends raced notPaused exposed le_rfl
    · exact processHealthyCluster_ends _ raced notPaused exposed le_rfl

/-- Step 4b calls a server a primary only when it is one. -/
theorem observeIdentity_ends : Ends observeIdentity env ha
    (fun identity after => identity = .primary → Exposed after) (fun _ => True) := by
  unfold observeIdentity
  have seen : Ends observeRecovery env ha
      (fun _ after => after.inRecovery = some false → Exposed after) (fun _ => True) := by
    unfold observeRecovery
    apply ends_ask_bind
    split
    · refine ends_bind (ends_mono (ends_keeps await_calm) (fun _ _ _ => trivial)
        fun _ _ => trivial) fun _ waited _ => ?_
      intro observed
      refine ⟨observed, .inl ?_⟩
      change observation env waited = some false at observed
      change waited.server = .primary
      unfold observation at observed
      split at observed <;> simp_all
    · intro observed
      cases observed
  apply ends_bind seen
  intro _ after exposed
  apply ends_change_bind
  refine ends_ask fun primary => ?_
  have observed : after.inRecovery = some false := by
    change classify after.inRecovery after.standbySignal = .primary at primary
    unfold classify at primary
    split at primary
    · assumption
    · split at primary <;> cases primary
    · cases primary
  have found := exposed observed
  exact ⟨found.inRecovery, found.server⟩

theorem ends_any {Value : Type} {prog : HaProg Value} :
    Ends prog env ha (fun _ _ => True) (fun _ => True) := by
  unfold Ends
  cases prog env ha with
  | done => trivial
  | cut => trivial

/-- What the whole call promises. -/
def Promised (env : Env) (cycle : Cycle) (final : Ha) : Prop :=
  (∀ tick, cycle.observed = some ⟨.primary, false, tick⟩ →
    Fenced env tick cycle.result final) ∧ (cycle.dropped = true → Settled final)

theorem promised_unobserved {result : CycleResult} : Promised env ⟨result, none, false⟩ ha := by
  constructor
  · intro tick observed
    cases observed
  · intro dropped
    cases dropped

/-- Everything before step 4b is free to do what it likes. -/
theorem runCycle_ends (raced : env.raced = true) :
    Ends runCycle env ha (Promised env) (fun _ => True) := by
  unfold runCycle
  apply ends_ask_bind
  apply ends_bind ends_any
  intro _ commanded _
  apply ends_change_bind
  apply ends_bind ends_any
  intro _ waited _
  apply ends_ask_bind
  split
  · exact ends_bind ends_any fun result after _ => ends_pure promised_unobserved
  · apply ends_bind ends_any
    intro ended prepared _
    cases ended with
    | some result => exact ends_pure promised_unobserved
    | none =>
        apply ends_bind observeIdentity_ends
        intro identity seen exposed
        apply ends_ask_bind
        by_cases primary : identity = .primary ∧ seen.isPaused = false
        · obtain ⟨rfl, notPaused⟩ := primary
          have decided := decideCycle_ends raced notPaused (exposed rfl)
          refine ends_bind (ends_mono decided (fun _ _ fenced => fenced) fun _ _ => trivial)
            fun result after fenced => ends_pure ⟨?_, ?_⟩
          · intro tick observed
            simp only [Option.some.injEq, Observed.mk.injEq] at observed
            rw [← observed.2.2]
            exact fenced
          · intro dropped
            cases dropped
        · refine ends_bind ends_any fun result after _ => ends_pure ⟨?_, ?_⟩
          · intro tick observed
            simp only [Option.some.injEq, Observed.mk.injEq] at observed
            exact absurd ⟨observed.1, observed.2.1⟩ primary
          · intro dropped
            cases dropped

/-- The race is over: the lease of a node that is not leader is dropped, and the
watchdog looked after. -/
theorem fenced_loose {since : Nat} {result : CycleResult} {after : Ha} (moved : Loose ha after)
    (fenced : Fenced env since result ha) : Fenced env since result after := by
  rcases fenced with held | settled | lost
  · exact .inl (held_drift moved.toDrift held)
  · exact .inr (.inl (settled_loose moved settled))
  · exact .inr (.inr lost)

theorem fenced_unleased {since : Nat} {result : CycleResult}
    (fenced : Fenced env since result ha) (follower : ha.isLeader = false) :
    Fenced env since result (leased none ha) := by
  rcases fenced with held | settled | lost
  · obtain ⟨asked, look, granted, rest⟩ := held
    exact absurd (granted.isLeader.symm.trans follower) (by decide)
  · exact .inr (.inl settled)
  · exact .inr (.inr lost)

theorem promised_loose {cycle : Cycle} {after : Ha} (moved : Loose ha after)
    (promised : Promised env cycle ha) : Promised env cycle after :=
  ⟨fun tick observed => fenced_loose moved (promised.1 tick observed),
    fun dropped => settled_loose moved (promised.2 dropped)⟩

theorem promised_unleased {cycle : Cycle} (promised : Promised env cycle ha)
    (follower : ha.isLeader = false) : Promised env cycle (leased none ha) :=
  ⟨fun tick observed => fenced_unleased (promised.1 tick observed) follower, promised.2⟩

/-- The race changes no answer. -/
theorem promised_racing {raced : Bool} {cycle : Cycle}
    (promised : Promised (racing raced env) cycle ha) : Promised env cycle ha := by
  refine ⟨fun tick observed => ?_, promised.2⟩
  rcases promised.1 tick observed with held | rest
  · obtain ⟨asked, look, granted, valid⟩ := held
    exact .inl ⟨asked, look, ⟨granted.isLeader, granted.recent, granted.past, granted.swapped,
      granted.leaderLease⟩, valid⟩
  · exact .inr rest

theorem racedCycle_ends : Ends racedCycle (racing true env) ha (Promised (racing true env))
    (fun _ => True) := by
  unfold racedCycle
  apply ends_change_bind
  refine ends_cutIf_bind (fun _ => trivial) fun _ => ?_
  apply ends_change_bind
  exact runCycle_ends rfl

theorem finishedCycle_ends : Ends finishedCycle env ha (Promised env) (fun _ => True) := by
  unfold finishedCycle
  apply ends_bind (ends_under racedCycle_ends)
  intro cycle after raced
  have promised := promised_racing raced
  apply ends_ask_bind
  have watched (ended : Ha) (kept : Promised env cycle ended) :
      Ends (under (racing false) reconcileWatchdog >>= fun _ => pure cycle) env ended (Promised env)
        (fun _ => True) := by
    have loose : Ends reconcileWatchdog (racing false env) ended
        (fun _ final => Loose ended final) (fun _ => True) :=
      ends_mono (ends_keeps reconcileWatchdog_loose) (fun _ _ moved => moved) fun _ _ => trivial
    exact ends_bind (ends_under loose) fun _ final moved => ends_pure (promised_loose moved kept)
  cases leads : after.isLeader with
  | true =>
      simp only [if_true]
      exact watched after promised
  | false =>
      simp only [Bool.false_eq_true, if_false]
      apply setLeaderLease_bind
      exact watched _ (promised_unleased promised leads)

theorem droppedCycle_ends : Ends droppedCycle env ha (Promised env) (fun _ => False) := by
  unfold droppedCycle
  apply ends_change_bind
  have fenced : Ends fenceForLostLease (racing false env) (ha.noted (.began .leaseFence))
      (fun _ after => Settled after) (fun _ => False) :=
    ends_mono fenceForLostLease_ends (fun _ _ settled => settled) fun _ raced => by cases raced
  refine ends_bind (ends_under fenced) fun _ final settled => ends_pure ⟨?_, ?_⟩
  · intro tick observed
    cases observed
  · intro dropped
    exact settled

theorem runCycleBounded_ends : Ends runCycleBounded env ha (Promised env) (fun _ => False) :=
  ends_onCut finishedCycle_ends fun _ _ => droppedCycle_ends

/-- A call of `run_cycle_bounded` that returns: if it was not paused and step 4b found
a primary, or if it was dropped for the lease, then the node leads by a lock write
of this cycle whose lease was found unexpired after it, or PostgreSQL is stopped or
a standby, or its stop is pending, or the election was lost. -/
theorem bounded_cycle_fences_primary (env : Env) (ha : Ha) (cycle : Cycle) (final : Ha)
    (completed : runCycleBounded env ha = .done cycle final) : Promised env cycle final :=
  ends_done runCycleBounded_ends completed

/-! ### Node `a` of two, running as a primary -/

def viewOf (leader : Str) : ClusterView :=
  let member (name : Str) : Member :=
    ⟨name, .running, .primary, some 100, some 1, ⟨none, none, none, none⟩, false,
      none, false⟩
  { leader := some leader
    members := [member ['a'], member ['b']]
    initializeKey := some ['1']
    failover := none
    syncState := none
    timeline := .record ⟨1, 0, ['a'], 0, none⟩ 7
    dcsVoters := some 2
    pause := none }

/-- Every call succeeds, each wait takes a millisecond, and no look at the lease
comes due in that time. -/
def quick (leader : Str) (wall : Nat → Nat) : Env where
  raced := false
  mono tick := tick * nanosPerMilli
  wall := wall
  noticed _ := false
  crashes _ := false
  endsRecovery _ := false
  launches _ := true
  promotes _ := true
  files _ directory := directory
  call _ := .ok ()
  fileCall _ := .ok ()
  swap _ := .ok true
  cluster _ := .ok (viewOf leader)
  globalConfig _ := none
  answersAsPrimary _ := some true
  controldataState _ := none
  controldataTimeline _ := none
  primaryTimeline _ := .ok ⟨1, 0⟩
  replicationStatus _ := none
  watchdogDevice _ := false
  needsReload _ := false
  halfDone _ := false
  cloneSource _ := none
  upstreamHost _ := []
  needsUpstreamReconfig _ := false
  recentlyReconfigured _ := false
  commands := []

def steadyWall (tick : Nat) : Nat := tick * nanosPerMilli

/-- The wall clock is set forward a minute while the timeline is being read, after the
lease check. -/
def setForward (tick : Nat) : Nat :=
  tick * nanosPerMilli + if tick < 6 then 0 else 60 * nanosPerSecond

def primaryNode : Ha where
  config := ⟨['a'], false, 1, none, false, .off, 5⟩
  ttl := 30
  cluster := viewOf ['a']
  isLeader := true
  isPaused := false
  lastConfig := ⟨none, none, none, none, ⟨none, none, none, none⟩, none, none⟩
  startFailCount := 0
  appliedSyncStandbyNames := none
  syncPgListChangedFlushLsn := none
  stopPending := false
  promotePending := none
  pendingHistory := false
  rewindHold := false
  rewindHoldPersisted := false
  leaderLease := none
  fenceDeadline := none
  shuttingDown := false
  watchdogActive := false
  role := .primary
  inRecovery := some false
  startsBlocked := false
  server := .primary
  standbySignal := false
  directory := ⟨.ok false, false, false, false, false, .ok 0, .ok ⟨1, 0, true⟩,
    .ok (some ['r'])⟩
  unseen := false
  tick := 0

/-- A cycle that finds a primary and keeps it under the lock. -/
def keepsPrimary (cycle : Cycle) (final : Ha) : Bool :=
  cycle.observed == some ⟨.primary, false, 3⟩ && final.server == .primary &&
    !final.stopPending &&
    (match cycle.result with
      | .leader _ => true
      | .follower _ | .acquiring _ | .error _ => false)

theorem leader_not_lost {message : Str} : ¬ LostElection (.leader message) := by
  rintro (acquired | ⟨e, failed⟩ | ⟨ha, idle⟩)
  · cases acquired
  · cases failed
  · unfold noAttempt at idle
    repeat' split at idle
    all_goals cases idle

/-- The lock holder keeps its primary by the lock write of this cycle. -/
theorem bounded_cycle_fences_primary_underLock :
    ∃ cycle final, runCycleBounded (quick ['a'] steadyWall) primaryNode = .done cycle final ∧
      keepsPrimary cycle final = true ∧ Held (quick ['a'] steadyWall) 3 final := by
  obtain ⟨cycle, final, ran, kept⟩ := yields_done
    (show yields runCycleBounded (quick ['a'] steadyWall) primaryNode keepsPrimary = true from rfl)
  have promised :=
    bounded_cycle_fences_primary (quick ['a'] steadyWall) primaryNode cycle final ran
  refine ⟨cycle, final, ran, kept, ?_⟩
  simp only [keepsPrimary, Bool.and_eq_true, beq_iff_eq, Bool.not_eq_true'] at kept
  obtain ⟨⟨⟨observed, running⟩, noStop⟩, reported⟩ := kept
  rcases promised.1 3 observed with held | settled | lost
  · exact held
  · rcases settled with stopped | standby | pending
    · exact absurd (running.symm.trans stopped) (by decide)
    · exact absurd (running.symm.trans standby) (by decide)
    · exact absurd (noStop.symm.trans pending) (by decide)
  · cases result : cycle.result with
    | leader message => exact absurd (result ▸ lost) leader_not_lost
    | follower message => simp [result] at reported
    | acquiring message => simp [result] at reported
    | error message => simp [result] at reported

/-- A leader whose lease is unexpired on return, a server that does not run, or a
pending stop. -/
def fencedOnReturn (env : Env) (cycle : Cycle) (final : Ha) : Bool :=
  match cycle.observed with
  | some ⟨.primary, false, _⟩ =>
      (final.isLeader && final.leaderLease.any fun lease => !final.expired env lease) ||
        final.server == .stopped || final.stopPending
  | _ => true

/-- A primary that rejoins the lock holder runs again, as a standby; and the lease of
a lock holder may run out on the wall clock just before the cycle returns. -/
theorem not_fenced_on_return :
    (∃ cycle final, runCycleBounded (quick ['b'] steadyWall) primaryNode = .done cycle final ∧
      (!fencedOnReturn (quick ['b'] steadyWall) cycle final && final.server == .standby) = true) ∧
    ∃ cycle final, runCycleBounded (quick ['a'] setForward) primaryNode = .done cycle final ∧
      (!fencedOnReturn (quick ['a'] setForward) cycle final && final.isLeader) = true :=
  ⟨yields_done (show yields runCycleBounded _ _ (fun cycle final =>
      !fencedOnReturn (quick ['b'] steadyWall) cycle final && final.server == .standby) = true
      from rfl),
    yields_done (show yields runCycleBounded _ _ (fun cycle final =>
      !fencedOnReturn (quick ['a'] setForward) cycle final && final.isLeader) = true from rfl)⟩

end PgHa.PrimaryFenced
