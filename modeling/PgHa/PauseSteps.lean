import PgHa.HaFrames
import PgHa.HaShutdown
import PgHa.Trace

/-!
What the steps of `ha/helpers.rs` and `ha/follow.rs` do in pause mode: none takes the leader
lock, publishes a deadline for the lease or changes the flag. A program is dropped only for a
deadline, so a program that begins paused, with none published, is not dropped.
-/

namespace PgHa.PauseSteps

open Text Cluster Identity Interruptible Lease LatestTimeline SyncReplication Trace HaState Election
open HaHelpers HaFollow HaCycle HaFrames HaShutdown Transition

variable {takes gives : Bool} {env : Env} {ha : Ha} {Value Next : Type}

/-- What a step may do: `takes` the leader lock or `/initialize`, `gives` the lock up. -/
def idle (takes gives : Bool) : Event → Prop
  | .acquiring | .wonInitialize => takes = true
  | .deleteLeader _ => gives = true
  | .began .leaseFence => False
  | _ => True

/-- The flag stays, and in pause mode no deadline is published. -/
structure Rests (takes gives : Bool) (before after : Ha) : Prop where
  isPaused : after.isPaused = before.isPaused
  config : after.config = before.config
  deadline : before.isPaused = true → before.fenceDeadline = none → after.fenceDeadline = none
  trace : Appends (idle takes gives) before.trace after.trace

/-- Where no signal comes, a program is dropped for a deadline. -/
structure Dropped (takes gives : Bool) (env : Env) (before after : Ha) : Prop
    extends Rests takes gives before after where
  due : (∀ tick, env.interrupted tick = false) → after.fenceDeadline ≠ none

instance : Std.Refl (Rests takes gives) :=
  ⟨fun ha => ⟨rfl, rfl, fun _ => id, appends_refl ha.trace⟩⟩

instance : IsTrans Ha (Rests takes gives) := ⟨fun _ _ _ first second =>
  ⟨second.isPaused.trans first.isPaused, second.config.trans first.config,
    fun paused none => second.deadline (first.isPaused.trans paused) (first.deadline paused none),
    appends_trans first.trace second.trace⟩⟩

instance : Trans (Rests takes gives) (Dropped takes gives env) (Dropped takes gives env) :=
  ⟨fun first second => ⟨IsTrans.trans _ _ _ first second.toRests, second.due⟩⟩

/-- The permissions suffice for a node that is not paused, and for a required watchdog. -/
structure Allowed (takes gives : Bool) (ha : Ha) : Prop where
  unpaused : ha.isPaused = false → takes = true ∧ gives = true
  required : ha.config.watchdogMode = .required → gives = true

theorem allowed_rests {after : Ha} (moved : Rests takes gives ha after)
    (allowed : Allowed takes gives ha) :
    Allowed takes gives after :=
  ⟨fun unpaused => allowed.unpaused (moved.isPaused.symm.trans unpaused),
    fun required => allowed.required (by rw [← moved.config]; exact required)⟩

abbrev Rested (takes gives : Bool) (prog : HaProg Value) (env : Env) (ha : Ha)
    (post : Value → Ha → Prop) :
    Prop :=
  Carries (Rests takes gives) (Dropped takes gives env) (fun env => env.raced = true) prog
    env ha post

def Eases (takes gives : Bool) (prog : HaProg Value) : Prop :=
  ∀ env ha, Allowed takes gives ha → Rested takes gives prog env ha fun _ _ => True

theorem eases_pure (value : Value) : Eases takes gives (pure value) := fun _ _ _ =>
    carries_pure trivial

theorem eases_ask (question : Env → Ha → Value) : Eases takes gives (ask question) :=
  fun _ _ _ => carries_ask trivial

theorem eases_read (field : Ha → Value) : Eases takes gives (HaState.read field) := eases_ask _

theorem eases_answer (answers : Env → Nat → Value) : Eases takes gives (answer answers) :=
  eases_ask _

theorem eases_bind {prog : HaProg Value} {next : Value → HaProg Next}
    (first : Eases takes gives prog)
    (rest : ∀ value, Eases takes gives (next value)) : Eases takes gives (prog >>= next) := by
  intro env ha allowed
  apply carries_bind (first env ha allowed)
  intro value reached moved _
  exact rest value env reached (allowed_rests moved allowed)

theorem eases_outcome {prog : HaProg (Except Problem Value)}
    {next : Except Problem Value → HaProg Next}
    (first : Eases takes gives prog)
    (failed : ∀ problem, Eases takes gives (next (.error problem)))
    (done : ∀ value, Eases takes gives (next (.ok value))) :
    Eases takes gives (prog >>= next) := by
  apply eases_bind first
  intro outcome
  cases outcome with
  | error problem => exact failed problem
  | ok value => exact done value

theorem eases_ite {choice : Prop} [Decidable choice] {yes no : HaProg Value}
    (first : Eases takes gives yes)
    (second : Eases takes gives no) : Eases takes gives (if choice then yes else no) :=
      either first second

theorem eases_change {next : Env → Ha → Ha}
    (moves : ∀ env ha, Rests takes gives ha (next env ha)) :
    Eases takes gives (change next) := fun env ha _ => ⟨moves env ha, trivial⟩

/-- The fields the relation speaks of. -/
def stance (ha : Ha) := (ha.isPaused, ha.config, ha.fenceDeadline, ha.trace)

theorem rests_of_stance {after : Ha} (same : stance after = stance ha) :
    Rests takes gives ha after := by
  simp only [stance, Prod.mk.injEq] at same
  obtain ⟨paused, config, deadline, trace⟩ := same
  constructor
  · exact paused
  · exact config
  · exact fun _ none => deadline.trans none
  · rw [trace]
    exact appends_refl _

theorem eases_update {next : Ha → Ha} (same : ∀ ha, stance (next ha) = stance ha) :
    Eases takes gives (update next) := eases_change fun _ ha => rests_of_stance (same ha)

theorem rests_noted {after : Ha} (event : Event) (ok : idle takes gives event)
    (same : stance after = stance (ha.noted event)) : Rests takes gives ha after := by
  have noted : Rests takes gives ha (ha.noted event) :=
    ⟨rfl, rfl, fun _ => id, appends_one _ ok⟩
  exact IsTrans.trans _ _ _ noted (rests_of_stance same)

theorem eases_noted (event : Event) (ok : idle takes gives event) :
    Eases takes gives (note event) :=
  eases_change fun _ _ => rests_noted event ok rfl

/-! ### `postgresql.rs` and the watchdog -/

theorem due_of_dropped (expires : dropped env ha = true)
    (alone : ∀ tick, env.interrupted tick = false) : ha.fenceDeadline ≠ none := by
  intro none
  simp [dropped, none, alone] at expires

theorem eases_cutIf : Eases takes gives (cutIf dropped) := by
  intro env ha _
  unfold Rested Carries Ends cutIf
  cases now : dropped env ha with
  | true => exact ⟨⟨Std.Refl.refl ha, due_of_dropped now⟩, dropped_raced env ha now⟩
  | false => exact ⟨Std.Refl.refl ha, trivial⟩

theorem eases_await : Eases takes gives await :=
  eases_bind (eases_change fun _ _ => rests_of_stance rfl) fun _ =>
    eases_bind eases_cutIf fun _ => eases_update fun _ => rfl

theorem eases_attempt : Eases takes gives attempt := eases_bind eases_await fun _ => eases_answer _

theorem eases_swapWrite : Eases takes gives swapWrite := eases_bind eases_await fun _ =>
    eases_answer _

theorem eases_observeRecovery : Eases takes gives observeRecovery :=
  eases_bind (eases_read _) fun _ => eases_ite
    (eases_bind eases_await fun _ => eases_change fun env ha =>
      rests_noted (.observed (observation env ha)) trivial rfl)
    (eases_update fun _ => rfl)

theorem eases_stop (site : StopSite) : Eases takes gives (stop site) := by
  apply eases_bind
  · exact eases_change fun env ha => rests_noted (.stop site (ha.moment env)) trivial rfl
  intro _
  apply eases_bind eases_await
  intro _
  apply eases_bind
  · apply eases_change
    intro env ha
    cases env.call ha.tick with
    | ok => exact rests_noted (.stopEnded site false) trivial rfl
    | error => exact rests_noted (.stopEnded site true) trivial rfl
  · intro _
    apply eases_bind (eases_answer _)
    intro stopped
    apply eases_bind eases_await
    intro _
    cases stopped with
    | ok => exact eases_pure _
    | error => exact eases_pure _

theorem eases_launch : Eases takes gives launch := by
  apply eases_change
  intro env ha
  split
  · exact rests_of_stance rfl
  · exact Std.Refl.refl ha

/-- By induction on the looks that are left. -/
theorem eases_pollStarted (looks : Nat) : Eases takes gives (pollStarted looks) := by
  induction looks with
  | zero => exact eases_pure _
  | succ looks ih =>
      exact eases_bind eases_await fun _ => eases_bind eases_launch fun _ =>
        eases_bind (eases_read _) fun _ => eases_ite (eases_pure _) ih

theorem eases_start : Eases takes gives start := by
  apply eases_bind (eases_read _)
  intro blocked
  apply eases_ite (eases_pure _)
  apply eases_bind
  · exact eases_change fun env ha => rests_noted (.start (ha.moment env)) trivial rfl
  intro _
  apply eases_bind eases_await
  intro _
  apply eases_bind eases_launch
  intro _
  apply eases_bind (eases_answer _)
  intro started
  apply eases_bind eases_await
  intro _
  cases started with
  | error => exact eases_pure _
  | ok => exact eases_bind (eases_read _) fun _ => eases_ite (eases_pure _) (eases_pollStarted 10)

theorem eases_promote : Eases takes gives promote := by
  apply eases_bind
  · exact eases_change fun env ha => rests_noted (.promote (ha.moment env)) trivial rfl
  intro _
  apply eases_bind eases_await
  intro _
  apply eases_bind
  · apply eases_change
    intro env ha
    split
    · exact rests_noted .promoted trivial rfl
    · exact Std.Refl.refl ha
  · intro _
    apply eases_bind (eases_answer _)
    intro promoted
    apply eases_bind eases_await
    intro _
    cases promoted with
    | ok => exact eases_pure _
    | error => exact eases_pure _

theorem eases_removeDataDirectory : Eases takes gives removeDataDirectory := by
  apply eases_bind
  · exact eases_change fun env ha => rests_noted (.removing (ha.moment env)) trivial rfl
  intro _
  apply eases_bind
  · apply eases_change
    intro env ha
    cases env.fileCall ha.tick with
    | ok => exact rests_noted .removedSignal trivial rfl
    | error => exact rests_noted .removedSignal trivial rfl
  · exact fun _ => eases_answer _

/-- In pause mode no deadline comes of it. -/
theorem eases_publishFenceDeadline : Eases takes gives publishFenceDeadline := by
  apply eases_change
  intro _ ha
  constructor
  · rfl
  · rfl
  · intro paused _
    exact if_pos paused
  · exact appends_refl _

theorem eases_setLeaderLease (lease : Option LeaderLease) :
    Eases takes gives (setLeaderLease lease) :=
  eases_bind (eases_update fun _ => rfl) fun _ => eases_publishFenceDeadline

theorem eases_extendLeaderLease (anchor : LeaseAnchor) :
    Eases takes gives (extendLeaderLease anchor) :=
  eases_bind (eases_read _) fun _ => eases_bind (eases_read _) fun _ =>
    eases_bind (eases_noted .lockWritten trivial) fun _ => eases_setLeaderLease _

/-- Only a required watchdog fails to arm. -/
theorem armWatchdog_rested : Rested takes gives armWatchdog env ha (fun armed _ =>
    armed.isOk = false → ha.config.watchdogMode = .required) := by
  unfold armWatchdog
  apply carries_ask_bind
  apply carries_ask_bind
  apply carries_ask_bind
  split
  · exact carries_pure (by simp [Except.isOk, Except.toBool])
  · split
    · apply carries_change_bind (rests_noted .armed trivial rfl)
      exact carries_pure (by simp [Except.isOk, Except.toBool])
    · split
      · rename_i required
        exact carries_pure fun _ => by simpa using required
      · exact carries_pure (by simp [Except.isOk, Except.toBool])

theorem eases_keepalive : Eases takes gives keepalive := by
  apply eases_change
  intro env ha
  cases ha.watchdogActive with
  | true => exact rests_noted (.petted (ha.watchdogMoment env)) trivial rfl
  | false => exact Std.Refl.refl ha

theorem eases_disarm : Eases takes gives disarm := by
  apply eases_change
  intro env ha
  cases ha.watchdogActive with
  | true => exact rests_noted (.disarmed (ha.watchdogMoment env)) trivial rfl
  | false => exact Std.Refl.refl ha

theorem eases_reconcileWatchdog : Eases takes gives reconcileWatchdog := by
  apply eases_bind (eases_read _)
  intro active
  apply eases_ite
  · apply eases_bind (eases_read _)
    intro unobserved
    apply eases_bind (eases_ite eases_observeRecovery (eases_pure _))
    intro _
    apply eases_bind (eases_ask _)
    intro action
    cases action with
    | pet => exact eases_keepalive
    | hold => exact eases_pure _
    | disarm => exact eases_disarm
  · exact eases_pure _

/-! ### `ha/helpers.rs` -/

theorem eases_resetSyncCache : Eases takes gives resetSyncCache := eases_update fun _ => rfl

theorem eases_setRole (role : MemberRole) : Eases takes gives (setRole role) :=
  eases_update fun _ => rfl

theorem eases_setLeader (isLeader : Bool) : Eases takes gives (setLeader isLeader) :=
  eases_update fun _ => rfl

theorem eases_writeStandbyConfig : Eases takes gives writeStandbyConfig := by
  apply eases_bind eases_resetSyncCache
  intro _
  apply eases_bind eases_await
  intro _
  apply eases_bind
  · apply eases_change
    intro env ha
    cases env.call ha.tick with
    | ok => exact rests_noted (.wroteSignal true) trivial rfl
    | error => exact rests_noted (.wroteSignal false) trivial rfl
  · exact fun _ => eases_answer _

theorem eases_createRewindCheckMarker : Eases takes gives createRewindCheckMarker := by
  apply eases_bind eases_await
  intro _
  apply eases_bind
  · apply eases_change
    intro env ha
    cases env.call ha.tick with
    | ok => exact rests_of_stance rfl
    | error => exact Std.Refl.refl ha
  · exact fun _ => eases_answer _

theorem eases_prepareStandbyStart : Eases takes gives prepareStandbyStart := by
  apply eases_bind eases_await
  intro _
  apply eases_bind (eases_answer _)
  intro _
  apply eases_bind (eases_ite eases_createRewindCheckMarker (eases_pure _))
  intro marked
  cases marked with
  | error => exact eases_pure _
  | ok =>
      exact eases_bind (eases_read _) fun _ =>
        eases_ite eases_writeStandbyConfig eases_writeStandbyConfig

theorem eases_prepareDemotion (rewindCheck : Bool) :
    Eases takes gives (prepareDemotion rewindCheck) := by
  apply eases_bind (eases_ite eases_createRewindCheckMarker (eases_pure _))
  intro marked
  apply eases_bind eases_writeStandbyConfig
  intro _
  cases marked with
  | ok => exact eases_pure _
  | error => exact eases_pure _

theorem eases_stopPublishingNotPrimary : Eases takes gives stopPublishingNotPrimary := by
  apply eases_bind eases_await
  intro _
  apply eases_bind (eases_stop _)
  intro stopped
  apply eases_bind eases_await
  intro _
  cases stopped with
  | error => exact eases_bind (eases_update fun _ => rfl) fun _ => eases_pure _
  | ok =>
      exact eases_bind (eases_update fun _ => rfl) fun _ =>
        eases_bind eases_reconcileWatchdog fun _ =>
        eases_bind eases_await fun _ => eases_pure _

theorem eases_retryPendingStop : Eases takes gives retryPendingStop :=
  eases_bind (eases_read _) fun _ =>
    eases_ite eases_stopPublishingNotPrimary eases_stopPublishingNotPrimary

theorem eases_fencePrimary : Eases takes gives fencePrimary :=
  eases_bind eases_resetSyncCache fun _ => eases_bind (eases_prepareDemotion true) fun _ =>
    eases_stopPublishingNotPrimary

theorem eases_fenceForLostLease : Eases takes gives fenceForLostLease :=
  eases_bind (eases_setLeader false) fun _ => eases_bind (eases_setLeaderLease none) fun _ =>
    eases_bind eases_fencePrimary fun _ => eases_bind (eases_setRole _) fun _ =>
      eases_bind eases_reconcileWatchdog fun _ => eases_pure _

theorem eases_fenceAtLeaseCheck (step : Str) : Eases takes gives (fenceAtLeaseCheck step) :=
  eases_bind eases_fenceForLostLease fun _ => eases_pure _

theorem eases_deleteLeader : Eases takes true deleteLeader := by
  apply eases_bind
  · exact eases_change fun env ha => rests_noted (.deleteLeader (ha.moment env)) rfl rfl
  · exact fun _ => eases_swapWrite

theorem eases_releaseLockAsStandby : Eases takes true releaseLockAsStandby :=
  eases_bind (eases_read _) fun _ =>
    eases_bind (eases_ite (eases_bind eases_deleteLeader fun _ => eases_pure _) (eases_pure _))
      fun _ =>
      eases_bind (eases_setLeader false) fun _ => eases_bind (eases_setLeaderLease none) fun _ =>
        eases_resetSyncCache

theorem eases_renewHeldLock : Eases takes gives renewHeldLock := by
  apply eases_bind (eases_read _)
  intro _
  apply eases_ite
  · apply eases_bind (eases_ask _)
    intro anchor
    apply eases_bind eases_swapWrite
    intro renewed
    rcases renewed with _ | _ | _
    · exact eases_bind (eases_setLeaderLease none) fun _ => eases_pure _
    · exact eases_bind (eases_setLeaderLease none) fun _ => eases_pure _
    · exact eases_bind (eases_setLeader true) fun _ =>
        eases_bind (eases_extendLeaderLease anchor) fun _ => eases_pure _
  · exact eases_pure _

theorem eases_releaseLeaderLockIfStopped : Eases takes true releaseLeaderLockIfStopped := by
  apply eases_bind (eases_read _)
  intro _
  apply eases_bind (eases_read _)
  intro _
  apply eases_bind (eases_read _)
  intro leader
  apply eases_ite (eases_pure _)
  apply eases_ite (eases_pure _)
  cases leader with
  | none =>
      exact eases_bind (eases_setLeader false) fun _ => eases_bind eases_resetSyncCache fun _ =>
        eases_pure _
  | some _ =>
      apply eases_bind eases_deleteLeader
      intro deleted
      rcases deleted with _ | _ | _
      · exact eases_pure _
      · exact eases_pure _
      · exact eases_bind (eases_setLeader false) fun _ => eases_bind eases_resetSyncCache fun _ =>
          eases_pure _

theorem eases_clearRewindHold : Eases takes gives clearRewindHold := eases_update fun _ => rfl

theorem eases_refreshRewindHold : Eases takes gives refreshRewindHold :=
  eases_bind (eases_read _) fun _ =>
    eases_bind (eases_ite eases_clearRewindHold (eases_pure _)) fun _ => eases_pure _

theorem eases_fenceOrStop (site : StopSite) : Eases takes gives (fenceOrStop site) :=
  eases_bind (eases_read _) fun _ => eases_bind (eases_read _) fun _ =>
    eases_ite (eases_pure _) (eases_ite eases_fencePrimary (eases_stop site))

theorem eases_reportRewindHold : Eases takes gives reportRewindHold :=
  eases_bind eases_await fun _ => eases_bind eases_await fun _ => eases_pure _

theorem eases_enterRewindHold : Eases takes gives enterRewindHold := by
  apply eases_bind
  · exact eases_update fun _ => rfl
  intro _
  apply eases_bind eases_await
  intro _
  apply eases_bind
  · apply eases_change
    intro env ha
    cases env.call ha.tick with
    | ok => exact rests_of_stance rfl
    | error => exact rests_of_stance rfl
  · intro _
    apply eases_bind (eases_fenceOrStop _)
    intro stopped
    cases stopped with
    | error => exact eases_pure _
    | ok => exact eases_reportRewindHold

theorem eases_holdStopAndReport : Eases takes gives holdStopAndReport := by
  apply eases_bind (eases_fenceOrStop _)
  intro stopped
  cases stopped with
  | error => exact eases_pure _
  | ok => exact eases_reportRewindHold

theorem eases_finishOverride : Eases takes gives finishOverride := by
  apply eases_change
  intro env ha
  cases env.fileCall ha.tick with
  | ok => exact rests_of_stance rfl
  | error => exact Std.Refl.refl ha

theorem eases_recordOwnTimeline (own : TimelineId) : Eases takes gives (recordOwnTimeline own) := by
  apply eases_bind (eases_read _)
  intro generation
  cases generation with
  | error => exact eases_pure _
  | ok =>
      apply eases_bind (eases_read _)
      intro action
      cases action with
      | upToDate => exact eases_finishOverride
      | conflict => exact eases_pure _
      | write =>
          apply eases_bind eases_swapWrite
          intro written
          rcases written with _ | _ | _
          · exact eases_pure _
          · exact eases_pure _
          · exact eases_finishOverride

theorem eases_recordClusterTimeline : Eases takes gives recordClusterTimeline := by
  apply eases_bind (eases_bind eases_await fun _ => eases_answer _)
  intro own
  cases own with
  | ok own => exact eases_recordOwnTimeline own
  | error => exact eases_pure _

theorem eases_recordStandbyLeaderTimeline : Eases takes gives recordStandbyLeaderTimeline := by
  apply eases_bind (eases_read _)
  intro newest
  cases newest with
  | ok history => exact eases_ite (eases_recordOwnTimeline history.id) (eases_pure _)
  | error => exact eases_pure _

theorem eases_recordPendingPromote : Eases takes gives recordPendingPromote := by
  apply eases_bind (eases_read _)
  intro written
  cases written with
  | some => exact eases_pure _
  | none =>
      apply eases_bind (eases_ask _)
      intro planned
      cases planned with
      | error => exact eases_pure _
      | ok pending =>
          apply eases_bind eases_swapWrite
          intro swapped
          rcases swapped with _ | _ | _
          · exact eases_pure _
          · exact eases_pure _
          · apply eases_bind
            · exact eases_change fun _ _ => rests_noted (.pendingWritten pending) trivial rfl
            · exact fun _ => eases_pure _

theorem eases_writeGeneration (pending : PendingPromote) :
    Eases takes gives (writeGeneration pending) := by
  apply eases_bind (eases_read _)
  intro _
  apply eases_ite
  · apply eases_bind
    · apply eases_change
      intro env ha
      cases env.fileCall ha.tick with
      | ok => exact rests_of_stance rfl
      | error => exact Std.Refl.refl ha
    · exact fun _ => eases_answer _
  · exact eases_pure _

theorem eases_confirmPromote (pending : PendingPromote) :
    Eases takes gives (confirmPromote pending) := by
  apply eases_bind (eases_read _)
  intro name
  apply eases_bind (eases_bind eases_await fun _ => eases_answer _)
  intro new
  cases new.bind (confirmedRecord name pending) with
  | error => exact eases_pure _
  | ok =>
      apply eases_bind (eases_writeGeneration pending)
      intro written
      cases written with
      | error => exact eases_pure _
      | ok =>
          apply eases_bind eases_await
          intro _
          apply eases_bind (eases_answer _)
          intro current
          cases current with
          | error => exact eases_pure _
          | ok view =>
              apply eases_ite
              · apply eases_bind eases_swapWrite
                intro swapped
                rcases swapped with _ | _ | _
                · exact eases_pure _
                · exact eases_pure _
                · exact eases_bind (eases_update fun _ => rfl) fun _ => eases_finishOverride
              · exact eases_pure _

/-- By induction on the writes that are left. -/
theorem eases_performEffects (writes : List Effect) :
    Eases takes gives (performEffects writes) := by
  induction writes with
  | nil => exact eases_pure _
  | cons effect rest ih =>
      cases effect with
      | remember => exact eases_bind (eases_update fun _ => rfl) fun _ => ih
      | writeSync => exact eases_outcome eases_attempt (fun _ => eases_pure _) fun _ => ih
      | alterSystem => exact eases_outcome eases_attempt (fun _ => eases_pure _) fun _ => ih
      | reload => exact eases_outcome eases_attempt (fun _ => eases_pure _) fun _ => ih

theorem eases_enforceSynchronousReplication : Eases takes gives enforceSynchronousReplication := by
  apply eases_bind (eases_read _)
  intro config
  apply eases_bind (eases_ite (eases_bind eases_await fun _ => eases_answer _) (eases_pure _))
  intro snapshot
  cases snapshot with
  | none => exact eases_pure _
  | some => exact eases_bind (eases_read _) fun writes => eases_performEffects writes

theorem eases_appendPendingHistory : Eases takes gives appendPendingHistory := by
  apply eases_bind (eases_read _)
  intro pending
  apply eases_bind (eases_ask _)
  intro lost
  apply eases_ite
  · apply eases_bind eases_attempt
    intro appended
    cases appended with
    | ok => exact eases_update fun _ => rfl
    | error => exact eases_pure _
  · exact eases_pure _

/-! ### `ha/follow.rs` -/

/-- A file operation or a query of `postgresql.rs` that nothing else waits for. -/
theorem eases_report {prog : HaProg (Except Str Unit)} (eases : Eases takes gives prog)
    (message : Str → Str) : Eases takes gives (do
      let done ← prog
      match done with
      | .ok () => pure (.ok ())
      | .error e => pure (.error (message e)) : HaProg (Except Str Unit)) := by
  apply eases_bind eases
  intro done
  cases done with
  | ok => exact eases_pure _
  | error => exact eases_pure _

theorem eases_rewind : Eases takes gives rewind :=
  eases_report eases_attempt fun e => postgresError ("pg_rewind failed: ".toList ++ e)

theorem eases_basebackup : Eases takes gives basebackup :=
  eases_report eases_attempt fun e => postgresError ("pg_basebackup failed: ".toList ++ e)

theorem eases_removeNodeStateFiles : Eases takes gives removeNodeStateFiles := by
  apply eases_bind eases_await
  intro _
  apply eases_bind
  · apply eases_change
    intro env ha
    cases env.call ha.tick with
    | ok => exact rests_of_stance rfl
    | error => exact Std.Refl.refl ha
  · exact fun _ => eases_answer _

theorem eases_rebuildFromLeader (leaderName failed : Str) :
    Eases takes gives (rebuildFromLeader leaderName failed) := by
  apply eases_bind eases_removeDataDirectory
  intro removed
  cases removed with
  | error => exact eases_pure _
  | ok =>
      apply eases_bind eases_basebackup
      intro cloned
      cases cloned with
      | error => exact eases_pure _
      | ok =>
          apply eases_bind eases_removeNodeStateFiles
          intro _
          apply eases_bind eases_clearRewindHold
          intro _
          apply eases_bind eases_writeStandbyConfig
          intro written
          cases written with
          | error => exact eases_pure _
          | ok =>
              apply eases_bind eases_start
              intro started
              cases started with
              | ok =>
                  exact eases_bind (eases_setRole _) fun _ => eases_bind eases_await fun _ =>
                    eases_pure _
              | error => exact eases_pure _

theorem eases_startRejoined (leaderName : Str) (rebuildEnabled : Bool) :
    Eases takes gives (startRejoined leaderName rebuildEnabled) := by
  have follows (result : CycleResult) : Eases takes gives (do
      setRole .replica
      touchMember
      pure result) := eases_bind (eases_setRole _) fun _ => eases_bind eases_await fun _ =>
        eases_pure _
  apply eases_bind eases_start
  intro started
  apply eases_bind (eases_read _)
  intro running
  cases afterRewindStart started.isOk running with
  | started => exact follows _
  | stillStarting =>
      cases started with
      | ok => exact follows _
      | error => exact follows _
  | failed =>
      cases started with
      | ok => exact follows _
      | error => exact eases_ite (eases_rebuildFromLeader _ _) eases_enterRewindHold

theorem eases_rewindAndStart (leaderName : Str) (rebuildEnabled : Bool) :
    Eases takes gives (rewindAndStart leaderName rebuildEnabled) := by
  apply eases_bind (eases_bind eases_await fun _ => eases_answer _)
  intro probe
  apply eases_bind (eases_read _)
  intro ready
  apply eases_ite
  · exact eases_bind eases_await fun _ => eases_pure _
  · apply eases_bind eases_rewind
    intro rewound
    cases rewound with
    | error => exact eases_ite (eases_rebuildFromLeader _ _) eases_enterRewindHold
    | ok =>
        apply eases_bind eases_removeNodeStateFiles
        intro _
        apply eases_bind eases_clearRewindHold
        intro _
        apply eases_bind eases_writeStandbyConfig
        intro written
        cases written with
        | error => exact eases_pure _
        | ok => exact eases_startRejoined leaderName rebuildEnabled

theorem eases_sourceNotReady (leaderName why : Str) :
    Eases takes gives (sourceNotReady leaderName why) := by
  apply eases_bind (eases_read _)
  intro identity
  apply eases_ite
  · apply eases_bind eases_fencePrimary
    intro fenced
    cases fenced with
    | error => exact eases_pure _
    | ok => exact eases_pure _
  · exact eases_bind eases_await fun _ => eases_pure _

theorem eases_probeSource (leaderName : Str) : Eases takes gives (probeSource leaderName) :=
  eases_bind (eases_read _) fun _ => eases_ite
    (eases_bind (eases_bind eases_await fun _ => eases_answer _) fun _ => eases_pure _)
      (eases_pure _)

theorem eases_rejoinAsReplica (leaderName : Str) :
    Eases takes gives (rejoinAsReplica leaderName) := by
  apply eases_bind (eases_read _)
  intro rebuildEnabled
  apply eases_bind eases_refreshRewindHold
  intro held
  apply eases_ite eases_holdStopAndReport
  apply eases_bind (eases_probeSource leaderName)
  intro probed
  apply eases_bind (eases_read _)
  intro member
  apply eases_bind (eases_read _)
  intro ready
  apply eases_ite (eases_sourceNotReady _ _)
  cases member with
  | none => exact eases_pure _
  | some =>
      apply eases_bind (eases_fenceOrStop _)
      intro stopped
      cases stopped with
      | error => exact eases_pure _
      | ok => exact eases_rewindAndStart leaderName rebuildEnabled

theorem eases_enforceRewindHold : Eases takes gives enforceRewindHold := by
  apply eases_bind eases_refreshRewindHold
  intro held
  apply eases_bind (eases_read _)
  intro leader
  apply eases_bind (eases_read _)
  intro ready
  apply eases_bind (eases_read _)
  intro rebuildEnabled
  cases heldNodeAction held rebuildEnabled ready with
  | notHeld => exact eases_pure _
  | hold => exact eases_bind eases_holdStopAndReport fun _ => eases_pure _
  | waitForLeader =>
      exact eases_outcome (eases_fenceOrStop _) (fun _ => eases_pure _) fun _ =>
        eases_bind eases_await fun _ => eases_pure _
  | rebuild =>
      cases leader with
      | none =>
          exact eases_outcome (eases_fenceOrStop _) (fun _ => eases_pure _) fun _ =>
            eases_bind eases_await fun _ => eases_pure _
      | some name => exact eases_bind (eases_rejoinAsReplica name) fun _ => eases_pure _

theorem eases_enforceGeneration : Eases takes gives enforceGeneration := by
  apply eases_bind (eases_read _)
  intro stale
  cases stale with
  | none => exact eases_pure _
  | some =>
      apply eases_bind (eases_fenceOrStop _)
      intro stopped
      cases stopped with
      | error => exact eases_pure _
      | ok => exact eases_bind eases_await fun _ => eases_pure _

theorem eases_reconfigureReplica : Eases takes gives reconfigureReplica := by
  apply eases_bind eases_writeStandbyConfig
  intro written
  cases written with
  | error => exact eases_pure _
  | ok =>
      apply eases_bind eases_await
      intro _
      apply eases_bind (eases_answer _)
      intro own
      apply eases_bind (eases_answer _)
      intro host
      apply eases_bind (eases_read _)
      intro upstream
      apply eases_bind (eases_stop _)
      intro stopped
      apply eases_ite (eases_pure _)
      cases stopped with
      | error => exact eases_pure _
      | ok => exact eases_bind eases_start fun _ => eases_pure _

theorem eases_fenceUnobserved (retry : Bool) : Eases takes gives (fenceUnobserved retry) := by
  apply eases_bind (eases_prepareDemotion false)
  intro written
  apply eases_bind eases_stopPublishingNotPrimary
  intro stopped
  cases stopped with
  | error => exact eases_pure _
  | ok =>
      cases written with
      | error => exact eases_pure _
      | ok => exact eases_pure _

theorem eases_followStandby (upstreamName : Str) : Eases takes gives (followStandby upstreamName) :=
  eases_bind (eases_setRole _) fun _ => eases_bind (eases_answer _) fun _ =>
    eases_bind (eases_answer _) fun _ =>
    eases_bind (eases_read _) fun _ =>
      eases_bind (eases_ite eases_reconfigureReplica (eases_pure _)) fun _ =>
      eases_bind eases_await fun _ => eases_bind (eases_read _) fun _ => eases_pure _

theorem eases_actAsFollower (lockOwner : Str) : Eases takes gives (actAsFollower lockOwner) := by
  apply eases_bind (eases_read _)
  intro upstreamName
  apply eases_bind (eases_read _)
  intro identity
  apply eases_bind (eases_read _)
  intro retry
  apply eases_bind (eases_read _)
  intro marked
  cases followerAction identity retry marked with
  | rejoin => exact eases_rejoinAsReplica lockOwner
  | rewindCheck =>
      exact eases_bind eases_await fun _ => eases_bind (eases_read _) fun _ =>
        eases_ite (eases_rejoinAsReplica lockOwner) (eases_pure _)
  | handOff => exact eases_bind (eases_read _) fun _ => eases_bind eases_await fun _ => eases_pure _
  | fence => exact eases_fenceUnobserved retry
  | wait => exact eases_bind eases_await fun _ => eases_pure _
  | follow => exact eases_followStandby upstreamName

theorem eases_followUpstream (lockOwner : Str) : Eases takes gives (followUpstream lockOwner) := by
  apply eases_bind eases_enforceGeneration
  intro stale
  cases stale with
  | some => exact eases_pure _
  | none =>
      apply eases_bind eases_enforceRewindHold
      intro held
      cases held with
      | some => exact eases_pure _
      | none => exact eases_actAsFollower lockOwner

end PgHa.PauseSteps
