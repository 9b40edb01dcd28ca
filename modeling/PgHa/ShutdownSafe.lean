import PgHa.CallRuns

/-!
A graceful shutdown never abandons a server that may write. While it lasts every step
leaves the marks of the shutdown, starts and promotes nothing, and deletes the lock only
from under a stopped server; a server that still runs has its stop pending before the
next cycle begins.
-/

namespace PgHa.ShutdownSafe

open Text Cluster Identity Interruptible Lease LatestTimeline Trace HaState Election HaHelpers
open HaFollow HaCycle HaFrames HaShutdown CallOrder CallSteps CallGates CallRuns PrimaryFenced

variable {env : Env} {ha : Ha} {idle : Bool} {Value Next : Type}

/-- What a shutdown may still do. Promoting a stopped server does nothing. -/
def harmless : Event → Prop
  | .start _ | .promoted => False
  | .promote moment | .deleteLeader moment => moment.running = false
  | _ => True

def Closed (ha : Ha) : Prop := ha.shuttingDown = true ∧ ha.startsBlocked = true

/-- A server that still runs has its stop pending. -/
def Pinned (ha : Ha) : Prop := ha.server = .stopped ∨ ha.stopPending = true

structure Winding (before after : Ha) : Prop where
  shuttingDown : after.shuttingDown = before.shuttingDown
  startsBlocked : after.startsBlocked = before.startsBlocked
  stopped : before.server = .stopped → after.server = .stopped
  pinned : Pinned before → Pinned after
  trace : Appends harmless before.trace after.trace

instance : Std.Refl Winding := ⟨fun ha => ⟨rfl, rfl, id, id, appends_refl ha.trace⟩⟩

instance : IsTrans Ha Winding := ⟨fun _ _ _ first second =>
  ⟨second.shuttingDown.trans first.shuttingDown, second.startsBlocked.trans first.startsBlocked,
    second.stopped ∘ first.stopped, second.pinned ∘ first.pinned,
    appends_trans first.trace second.trace⟩⟩

theorem closed_winding {after : Ha} (moved : Winding ha after) (closed : Closed ha) :
    Closed after :=
  ⟨moved.shuttingDown.trans closed.1, moved.startsBlocked.trans closed.2⟩

theorem pinned_loose {after : Ha} (loose : Loose ha after) (pinned : Pinned ha) : Pinned after := by
  rcases pinned with stopped | pending
  · exact .inl (stopped_drift loose.toDrift stopped)
  · exact .inr (loose.stopPending.trans pending)

theorem winding_of_quiet {after : Ha} (quiet : Quiet ha after) : Winding ha after := by
  refine ⟨quiet.shuttingDown, quiet.startsBlocked, stopped_drift quiet.toDrift,
    pinned_loose quiet.toLoose, ?_⟩
  rw [quiet.trace]
  exact appends_refl _

/-- The fields of which a step that winds down has something to keep. -/
def moorings (ha : Ha) :=
  (ha.shuttingDown, ha.startsBlocked, ha.server, ha.stopPending, ha.trace)

theorem winding_of_moorings {after : Ha} (same : moorings after = moorings ha) :
    Winding ha after := by
  simp only [moorings, Prod.mk.injEq] at same
  obtain ⟨shutting, blocked, server, pending, trace⟩ := same
  refine ⟨shutting, blocked, server.trans, ?_, ?_⟩
  · rw [Pinned, Pinned, server, pending]
    exact id
  · rw [trace]
    exact appends_refl _

theorem winding_noted {after : Ha} (event : Event) (ok : harmless event)
    (same : moorings after = moorings (ha.noted event)) : Winding ha after := by
  have noted : Winding ha (ha.noted event) := ⟨rfl, rfl, id, id, appends_one ha.trace ok⟩
  exact IsTrans.trans _ _ _ noted (winding_of_moorings same)

/-- From this state the program only winds down, and ends as `post` says. -/
abbrev Winds (prog : HaProg Value) (env : Env) (ha : Ha) (post : Value → Ha → Prop) : Prop :=
  Carries Winding Winding (fun env => env.raced = true) prog env ha post

/-- During a shutdown the program only winds down; `idle` asks for a stopped server. -/
def Ebbs (idle : Bool) (prog : HaProg Value) : Prop :=
  ∀ env ha, Closed ha → (idle = true → ha.server = .stopped) →
    Winds prog env ha fun _ _ => True

theorem winds_ebb {prog : HaProg Value} {post : Value → Ha → Prop}
    (winds : Winds prog env ha post) :
    Winds prog env ha fun _ _ => True := carries_weaken winds fun _ _ _ _ => trivial

theorem winds_quiet {prog : HaProg Value} (quiet : Moves Quiet prog) :
    Winds prog env ha (fun _ after => Quiet ha after) :=
  carries_of_keeps quiet (fun _ _ => winding_of_quiet) fun _ _ => winding_of_quiet

theorem ebbs_quiet {prog : HaProg Value} (quiet : Moves Quiet prog) : Ebbs idle prog :=
  fun _ _ _ _ => winds_ebb (winds_quiet quiet)

theorem ebbs_pure (value : Value) : Ebbs idle (pure value) := fun _ _ _ _ => carries_pure trivial

theorem ebbs_ask (question : Env → Ha → Value) : Ebbs idle (ask question) :=
  fun _ _ _ _ => carries_ask trivial

theorem ebbs_read (field : Ha → Value) : Ebbs idle (HaState.read field) := ebbs_ask _

theorem ebbs_answer (answers : Env → Nat → Value) : Ebbs idle (answer answers) := ebbs_ask _

theorem ebbs_bind {prog : HaProg Value} {next : Value → HaProg Next} (first : Ebbs idle prog)
    (rest : ∀ value, Ebbs idle (next value)) : Ebbs idle (prog >>= next) := by
  intro env ha closed waits
  apply carries_bind (first env ha closed waits)
  intro value reached moved _
  exact rest value env reached (closed_winding moved closed) fun asks => moved.stopped (waits asks)

/-- A step before a program that says more of how it ends. -/
theorem winds_step {prog : HaProg Value} {next : Value → HaProg Next}
    {post : Next → Ha → Prop}
    (closed : Closed ha) (first : Ebbs false prog)
    (rest : ∀ value reached, Winding ha reached → Closed reached →
      Winds (next value) env reached post) : Winds (prog >>= next) env ha post := by
  apply carries_bind (first env ha closed (by simp))
  intro value reached moved _
  exact rest value reached moved (closed_winding moved closed)

theorem ebbs_ite {choice : Prop} [Decidable choice] {yes no : HaProg Value} (first : Ebbs idle yes)
    (second : Ebbs idle no) : Ebbs idle (if choice then yes else no) := either first second

theorem winds_ebbs {prog : HaProg Value} (closed : Closed ha) (ebbs : Ebbs false prog) :
    Winds prog env ha fun _ _ => True := ebbs env ha closed (by simp)

theorem ebbs_change {next : Env → Ha → Ha} (moves : ∀ env ha, Winding ha (next env ha)) :
    Ebbs idle (change next) := fun env ha _ _ => ⟨moves env ha, trivial⟩

theorem ebbs_update {next : Ha → Ha} (same : ∀ ha, moorings (next ha) = moorings ha) :
    Ebbs idle (update next) := ebbs_change fun _ ha => winding_of_moorings (same ha)

/-! ### Steps -/

theorem ebbs_await : Ebbs idle await := ebbs_quiet await_quiet

theorem ebbs_setLeader (isLeader : Bool) : Ebbs idle (setLeader isLeader) :=
  ebbs_update fun _ => rfl

theorem ebbs_publishFenceDeadline : Ebbs idle publishFenceDeadline := ebbs_update fun _ => rfl

theorem ebbs_setLeaderLease (lease : Option LeaderLease) : Ebbs idle (setLeaderLease lease) :=
  ebbs_bind (ebbs_update fun _ => rfl) fun _ => ebbs_publishFenceDeadline

theorem extendLeaderLease_winds (anchor : LeaseAnchor) : Winds (extendLeaderLease anchor) env ha
    (fun _ after => after.stopPending = ha.stopPending) := by
  unfold extendLeaderLease
  apply carries_ask_bind
  apply carries_ask_bind
  refine carries_change_bind (winding_noted .lockWritten trivial rfl) ?_
  exact ⟨winding_of_moorings rfl, rfl⟩

theorem ebbs_extendLeaderLease (anchor : LeaseAnchor) : Ebbs idle (extendLeaderLease anchor) :=
  fun _ _ _ _ => winds_ebb (extendLeaderLease_winds anchor)

theorem ebbs_writeStandbyConfig : Ebbs idle writeStandbyConfig := by
  refine ebbs_bind (ebbs_quiet resetSyncCache_quiet) fun _ => ebbs_bind ebbs_await fun _ =>
    ebbs_bind (ebbs_change fun env ha => ?_) fun _ => ebbs_answer _
  cases env.call ha.tick with
  | ok => exact winding_noted (.wroteSignal true) trivial rfl
  | error => exact winding_noted (.wroteSignal false) trivial rfl

theorem ebbs_prepareDemotion (rewindCheck : Bool) : Ebbs idle (prepareDemotion rewindCheck) := by
  refine ebbs_bind (ebbs_ite (ebbs_quiet createRewindCheckMarker_quiet) (ebbs_pure _)) fun marked =>
    ebbs_bind ebbs_writeStandbyConfig fun _ => ?_
  cases marked with
  | ok => exact ebbs_pure _
  | error e => exact ebbs_pure _

theorem ebbs_removeDataDirectory : Ebbs idle removeDataDirectory := by
  refine ebbs_bind
    (ebbs_change fun env ha => winding_noted (.removing (ha.moment env)) trivial rfl) fun _ =>
      ebbs_bind (ebbs_change fun env ha => ?_) fun _ => ebbs_answer _
  refine winding_noted .removedSignal trivial ?_
  cases env.fileCall ha.tick <;> rfl

theorem ebbs_observeRecovery : Ebbs idle observeRecovery :=
  ebbs_bind (ebbs_read _) fun _ => ebbs_ite
    (ebbs_bind ebbs_await fun _ => ebbs_change fun env ha =>
      winding_noted (.observed (observation env ha)) trivial rfl)
    (ebbs_update fun _ => rfl)

theorem ebbs_keepalive : Ebbs idle keepalive := by
  refine ebbs_change fun env ha => ?_
  cases ha.watchdogActive with
  | true => exact winding_noted (.petted (ha.watchdogMoment env)) trivial rfl
  | false => exact Std.Refl.refl ha

theorem ebbs_disarm : Ebbs idle disarm := by
  refine ebbs_change fun env ha => ?_
  cases ha.watchdogActive with
  | true => exact winding_noted (.disarmed (ha.watchdogMoment env)) trivial rfl
  | false => exact Std.Refl.refl ha

theorem ebbs_reconcileWatchdog : Ebbs idle reconcileWatchdog := by
  refine ebbs_bind (ebbs_read _) fun _ => ebbs_ite
    (ebbs_bind (ebbs_read _) fun _ => ebbs_bind (ebbs_ite ebbs_observeRecovery (ebbs_pure _))
      fun _ =>
      ebbs_bind (ebbs_ask _) fun action => ?_) (ebbs_pure _)
  cases action with
  | pet => exact ebbs_keepalive
  | hold => exact ebbs_pure _
  | disarm => exact ebbs_disarm

/-- A start is refused. -/
theorem ebbs_start : Ebbs idle start := by
  intro env ha closed _
  unfold start
  apply carries_ask_bind
  simp only [closed.2, if_true]
  exact carries_pure trivial

theorem stop_winds (site : StopSite) : Winds (stop site) env ha
    (fun stopped after => StopRan site (ha.moment env) ha stopped after) := by
  have calls : Winding ha (Ha.noted { ha with inRecovery := none } (.stop site (ha.moment env))) :=
    winding_noted (.stop site (ha.moment env)) trivial rfl
  refine stop_carries (fun _ _ => winding_of_quiet) calls ?_
  intro failed waited
  cases failed with
  | true => exact winding_noted (.stopEnded site true) trivial rfl
  | false => exact ⟨rfl, rfl, fun _ => rfl, fun _ => .inl rfl, appends_one _ trivial⟩

/-- The program leaves PostgreSQL stopped, or its stop pending. -/
def Settles (prog : HaProg Value) : Prop :=
  ∀ env ha, Closed ha → Winds prog env ha fun _ after => Pinned after

theorem ebbs_settles {prog : HaProg Value} (settles : Settles prog) : Ebbs idle prog :=
  fun env ha closed _ => winds_ebb (settles env ha closed)

theorem settles_last {prog : HaProg Value} {next : Value → HaProg Next} (first : Ebbs false prog)
    (last : ∀ value, Settles (next value)) : Settles (prog >>= next) := by
  intro env ha closed
  apply winds_step closed first
  intro value reached _ still
  exact last value env reached still

theorem settles_first {prog : HaProg Value} {next : Value → HaProg Next} (first : Settles prog)
    (rest : ∀ value, Ebbs false (next value)) : Settles (prog >>= next) := by
  intro env ha closed
  apply carries_bind (first env ha closed)
  intro value reached moved pinned
  refine carries_weaken (rest value env reached (closed_winding moved closed) (by simp)) ?_
  intro _ after further _
  exact further.pinned pinned

theorem settles_stopPublishing : Settles stopPublishingNotPrimary := by
  intro env ha closed
  unfold stopPublishingNotPrimary
  apply carries_bind (winds_quiet await_quiet)
  intro _ published first _
  apply carries_bind (stop_winds .stopPublishingNotPrimary)
  intro stopped down second halted
  apply carries_bind (winds_quiet await_quiet)
  intro _ again third last
  have still : Closed again :=
    closed_winding third (closed_winding second (closed_winding first closed))
  cases stopped with
  | error e =>
      refine carries_change_bind ⟨rfl, rfl, id, fun _ => .inr rfl, appends_refl _⟩ ?_
      exact carries_pure (.inr rfl)
  | ok =>
      have gone : again.server = .stopped := stopped_drift last.toDrift (halted.server rfl)
      have ends : Ebbs false (do
          reconcileWatchdog
          touchMember
          pure (.ok () : Except Str Unit)) :=
        ebbs_bind ebbs_reconcileWatchdog fun _ => ebbs_bind ebbs_await fun _ => ebbs_pure _
      refine carries_change_bind ⟨rfl, rfl, id, fun _ => .inl gone, appends_refl _⟩ ?_
      exact carries_weaken (ends env _ ⟨still.1, still.2⟩ (by simp)) fun _ _ moved _ =>
        .inl (moved.stopped gone)

theorem settles_retryPendingStop : Settles retryPendingStop := by
  refine settles_last (ebbs_read _) fun recovery => ?_
  cases recovery with
  | true => exact settles_stopPublishing
  | false => exact settles_stopPublishing

theorem settles_fencePrimary : Settles fencePrimary :=
  settles_last (ebbs_quiet resetSyncCache_quiet) fun _ =>
    settles_last (ebbs_prepareDemotion true) fun _ => settles_stopPublishing

theorem settles_fenceForLostLease : Settles fenceForLostLease :=
  settles_last (ebbs_setLeader false) fun _ => settles_last (ebbs_setLeaderLease none) fun _ =>
    settles_first settles_fencePrimary fun _ => ebbs_bind (ebbs_quiet (setRole_quiet _)) fun _ =>
      ebbs_bind ebbs_reconcileWatchdog fun _ => ebbs_pure _

theorem ebbs_fenceAtLeaseCheck (step : Str) : Ebbs idle (fenceAtLeaseCheck step) :=
  ebbs_bind (ebbs_settles settles_fenceForLostLease) fun _ => ebbs_pure _

theorem ebbs_demote : Ebbs idle demote := by
  refine ebbs_bind (ebbs_quiet resetSyncCache_quiet) fun _ =>
    ebbs_bind (ebbs_prepareDemotion true) fun written =>
      ebbs_bind (ebbs_settles settles_stopPublishing) fun _ =>
        ebbs_bind (ebbs_quiet (setRole_quiet _)) fun _ => ?_
  cases written with
  | ok => exact ebbs_pure _
  | error e => exact ebbs_pure _

theorem ebbs_handleDcsError : Ebbs idle handleDcsError := by
  refine ebbs_bind (ebbs_read _) fun _ => ebbs_ite
    (ebbs_bind (ebbs_setLeader false) fun _ => ebbs_bind (ebbs_quiet resetSyncCache_quiet) fun _ =>
      ebbs_bind (ebbs_prepareDemotion true) fun written =>
        ebbs_bind (ebbs_settles settles_stopPublishing) fun _ =>
          ebbs_bind (ebbs_quiet (setRole_quiet _)) fun _ => ?_)
    (ebbs_bind (ebbs_read _) fun _ => ebbs_bind
      (ebbs_ite (ebbs_bind (ebbs_settles settles_retryPendingStop) fun _ => ebbs_pure _)
        (ebbs_pure _))
      fun _ => ebbs_pure _)
  cases written with
  | ok => exact ebbs_pure _
  | error e => exact ebbs_pure _

theorem ebbs_renewHeldLock : Ebbs idle renewHeldLock := by
  refine ebbs_bind (ebbs_read _) fun _ => ebbs_ite (ebbs_bind (ebbs_ask _) fun anchor =>
    ebbs_bind (ebbs_quiet swapWrite_quiet) fun renewed => ?_) (ebbs_pure _)
  match renewed with
  | .ok true =>
      exact ebbs_bind (ebbs_setLeader true) fun _ =>
        ebbs_bind (ebbs_extendLeaderLease anchor) fun _ => ebbs_pure _
  | .ok false => exact ebbs_bind (ebbs_setLeaderLease none) fun _ => ebbs_pure _
  | .error e => exact ebbs_bind (ebbs_setLeaderLease none) fun _ => ebbs_pure _

/-! ### The lock and the promote of a stopped server -/

theorem stopped_not_running (stopped : ha.server = .stopped) : ha.isRunning = false := by
  rw [Ha.isRunning, stopped]
  rfl

theorem ebbs_deleteLeader : Ebbs true deleteLeader := by
  intro env ha closed waits
  have down : harmless (.deleteLeader (ha.moment env)) := stopped_not_running (waits rfl)
  refine carries_change_bind (winding_noted (.deleteLeader (ha.moment env)) down rfl) ?_
  exact winds_ebb (winds_quiet swapWrite_quiet)

theorem ebbs_releaseLockAsStandby : Ebbs true releaseLockAsStandby :=
  ebbs_bind (ebbs_read _) fun _ =>
    ebbs_bind (ebbs_ite (ebbs_bind ebbs_deleteLeader fun _ => ebbs_pure _) (ebbs_pure _)) fun _ =>
      ebbs_bind (ebbs_setLeader false) fun _ => ebbs_bind (ebbs_setLeaderLease none) fun _ =>
        ebbs_quiet resetSyncCache_quiet

/-- The lock is looked at only after the server. -/
theorem ebbs_releaseLeaderLockIfStopped : Ebbs idle releaseLeaderLockIfStopped := by
  have forgets : Ebbs true (do
      setLeader false
      resetSyncCache
      pure true) :=
    ebbs_bind (ebbs_setLeader false) fun _ => ebbs_bind (ebbs_quiet resetSyncCache_quiet) fun _ =>
      ebbs_pure _
  intro env ha closed _
  unfold releaseLeaderLockIfStopped
  apply carries_ask_bind
  apply carries_ask_bind
  apply carries_ask_bind
  split
  · exact carries_pure trivial
  · rename_i down
    have gone := stopped_of_down down
    split
    · exact carries_pure trivial
    · split
      · exact forgets env ha closed fun _ => gone
      · refine ebbs_bind ebbs_deleteLeader (fun deleted => ?_) env ha closed fun _ => gone
        cases deleted with
        | error e => exact ebbs_pure _
        | ok found =>
            cases found with
            | false => exact ebbs_pure _
            | true => exact forgets

/-- `pg_ctl promote` finds no server. -/
theorem ebbs_promote : Ebbs true promote := by
  intro env ha closed waits
  have gone := waits rfl
  have down : harmless (.promote (ha.moment env)) := stopped_not_running gone
  unfold promote
  refine carries_change_bind (winding_noted (.promote (ha.moment env)) down rfl) ?_
  apply carries_bind (winds_quiet await_quiet)
  intro _ waited first _
  have still : waited.server = .stopped := first.stopped gone
  have nothing : Winding waited (if (waited.server = .standby ∨ waited.server = .recovering) ∧
      env.promotes waited.tick then
        Ha.noted { waited with server := .primary, standbySignal := false } .promoted
      else waited) := by
    rw [if_neg (by simp [still])]
    exact Std.Refl.refl waited
  refine carries_change_bind nothing ?_
  apply carries_ask_bind
  apply carries_bind (winds_quiet await_quiet)
  intro _ final _ _
  split
  · exact carries_pure trivial
  · exact carries_pure trivial

theorem ebbs_armWatchdog : Ebbs idle armWatchdog :=
  ebbs_bind (ebbs_read _) fun _ => ebbs_bind (ebbs_read _) fun _ =>
    ebbs_bind (ebbs_answer _) fun _ =>
    ebbs_ite (ebbs_pure _) (ebbs_ite
      (ebbs_bind (ebbs_change fun _ _ => winding_noted .armed trivial rfl) fun _ => ebbs_pure _)
      (ebbs_ite (ebbs_pure _) (ebbs_pure _)))

theorem ebbs_recordPendingPromote : Ebbs idle recordPendingPromote := by
  refine ebbs_bind (ebbs_read _) fun written => ?_
  cases written with
  | some pending => exact ebbs_pure _
  | none =>
      refine ebbs_bind (ebbs_ask _) fun planned => ?_
      cases planned with
      | error e => exact ebbs_pure _
      | ok pending =>
          refine ebbs_bind (ebbs_quiet swapWrite_quiet) fun swapped => ?_
          match swapped with
          | .ok true =>
              refine ebbs_bind (ebbs_change fun _ _ => ?_) fun _ => ebbs_pure _
              exact winding_noted (.pendingWritten pending) trivial rfl
          | .ok false => exact ebbs_pure _
          | .error e => exact ebbs_pure _

theorem ebbs_confirmPromote (pending : PendingPromote) : Ebbs idle (confirmPromote pending) := by
  refine ebbs_bind (ebbs_read _) fun name => ebbs_bind
    (ebbs_quiet (keeps_bind await_quiet fun _ => answer_quiet Env.primaryTimeline)) fun new => ?_
  cases new.bind (confirmedRecord name pending) with
  | error e => exact ebbs_pure _
  | ok record =>
      refine ebbs_bind (ebbs_quiet (writeGeneration_quiet pending)) fun written => ?_
      cases written with
      | error e => exact ebbs_pure _
      | ok =>
          refine ebbs_bind ebbs_await fun _ => ebbs_bind (ebbs_answer _) fun current => ?_
          cases current with
          | error e => exact ebbs_pure _
          | ok view =>
              refine ebbs_ite (ebbs_bind (ebbs_quiet swapWrite_quiet) fun swapped => ?_)
                (ebbs_pure _)
              match swapped with
              | .ok true =>
                  exact ebbs_bind (ebbs_update fun _ => rfl) fun _ =>
                    ebbs_quiet finishOverride_quiet
              | .ok false => exact ebbs_pure _
              | .error e => exact ebbs_pure _

theorem ebbs_promoteAndConfirm : Ebbs true promoteAndConfirm := by
  refine ebbs_bind ebbs_armWatchdog fun armed => ?_
  cases armed with
  | error e => exact ebbs_bind ebbs_releaseLockAsStandby fun _ => ebbs_pure _
  | ok =>
      refine ebbs_bind ebbs_recordPendingPromote fun recorded => ?_
      cases recorded with
      | error e => exact ebbs_pure _
      | ok pending =>
          refine ebbs_bind (ebbs_ask _) fun _ => ebbs_ite (ebbs_fenceAtLeaseCheck _)
            (ebbs_bind ebbs_promote fun promoted => ?_)
          cases promoted with
          | error e => exact ebbs_pure _
          | ok =>
              exact ebbs_bind ebbs_observeRecovery fun _ =>
                ebbs_bind (ebbs_read _) fun _ => ebbs_ite
                (ebbs_bind (ebbs_quiet (setRole_quiet _)) fun _ =>
                  ebbs_bind (ebbs_confirmPromote pending) fun _ => ebbs_bind ebbs_await fun _ =>
                    ebbs_bind (ebbs_quiet enforceSynchronousReplication_quiet) fun _ =>
                      ebbs_bind (ebbs_read _) fun _ => ebbs_pure _)
                (ebbs_bind ebbs_await fun _ => ebbs_pure _)

theorem ebbs_relinquishUnmanagedRecovery : Ebbs idle relinquishUnmanagedRecovery :=
  ebbs_bind (ebbs_read _) fun _ => ebbs_bind (ebbs_read _) fun _ => ebbs_ite
    (ebbs_bind ebbs_await fun _ => ebbs_pure _)
    (ebbs_bind (ebbs_ite (ebbs_settles settles_stopPublishing)
        (ebbs_bind (ebbs_prepareDemotion true) fun _ => ebbs_settles settles_stopPublishing))
          fun _ =>
      ebbs_bind (ebbs_read _) fun _ => ebbs_ite (ebbs_bind ebbs_await fun _ => ebbs_pure _)
        (ebbs_bind ebbs_releaseLeaderLockIfStopped fun _ => ebbs_bind ebbs_await fun _ =>
          ebbs_ite (ebbs_pure _) (ebbs_pure _)))

theorem ebbs_enforceStandbyLeaderRole : Ebbs idle enforceStandbyLeaderRole := by
  refine ebbs_bind (ebbs_read _) fun config => ebbs_bind (ebbs_read _) fun _ => ?_
  cases config with
  | none => exact ebbs_pure _
  | some remote =>
      refine ebbs_bind (ebbs_read _) fun _ => ebbs_ite
        (ebbs_bind (ebbs_quiet (setRole_quiet _)) fun _ => ebbs_bind ebbs_await fun _ =>
          ebbs_bind (ebbs_bind (ebbs_read _) fun newest => ?_) fun _ => ebbs_pure _)
        (ebbs_bind ebbs_await fun _ => ebbs_pure _)
      cases newest with
      | ok history => exact ebbs_ite (ebbs_quiet (recordOwnTimeline_quiet _)) (ebbs_pure _)
      | error e => exact ebbs_pure _

theorem ebbs_hold : Ebbs idle hold := by
  refine ebbs_bind (ebbs_ask _) fun _ => ebbs_ite (ebbs_fenceAtLeaseCheck _)
    (ebbs_bind ebbs_armWatchdog fun armed => ?_)
  cases armed with
  | error e => exact ebbs_bind (ebbs_setLeaderLease none) fun _ => ebbs_fenceAtLeaseCheck _
  | ok =>
      exact ebbs_bind (ebbs_quiet (setRole_quiet _)) fun _ => ebbs_bind ebbs_await fun _ =>
        ebbs_bind (ebbs_quiet recordClusterTimeline_quiet) fun _ =>
          ebbs_bind (ebbs_quiet enforceSynchronousReplication_quiet) fun _ =>
            ebbs_bind (ebbs_quiet appendPendingHistory_quiet) fun _ =>
              ebbs_bind (ebbs_read _) fun _ => ebbs_pure _

/-- Whatever the node was found to be, there is no server to act on. -/
theorem ebbs_enforcePrimaryRole : Ebbs true enforcePrimaryRole := by
  refine ebbs_bind (ebbs_read _) fun _ => ebbs_bind (ebbs_read _) fun identity =>
    ebbs_ite ebbs_enforceStandbyLeaderRole ?_
  cases leaderAction identity with
  | hold => exact ebbs_hold
  | promote => exact ebbs_promoteAndConfirm
  | relinquish => exact ebbs_relinquishUnmanagedRecovery
  | wait => exact ebbs_bind ebbs_await fun _ => ebbs_pure _

/-! ### The parts of a cycle -/

/-- A command is rejected; PostgreSQL, the lock, a pending stop and what is known of the
recovery are left alone. -/
theorem handleCommand_winds (command : ManagementCommand) (closed : Closed ha) :
    Winds (handleCommand command) env ha (fun _ after =>
      Loose ha after ∧ lastKnown after.trace = lastKnown ha.trace) := by
  unfold handleCommand
  refine carries_change_bind (winding_noted (.began (.command command)) trivial rfl) ?_
  apply carries_ask_bind
  have shutting : (ha.noted (.began (.command command))).shuttingDown = true := closed.1
  simp only [shutting, if_true]
  exact carries_pure ⟨(noted_calm ha _).toLoose, lastKnown_silent rfl⟩

/-- By induction on the commands that are left. -/
theorem processCommands_winds (commands : List ManagementCommand) (closed : Closed ha) :
    Winds (processCommands commands) env ha (fun _ after =>
      Loose ha after ∧ lastKnown after.trace = lastKnown ha.trace) := by
  induction commands generalizing ha with
  | nil => exact carries_pure ⟨Std.Refl.refl ha, rfl⟩
  | cons command rest ih =>
      apply carries_bind (handleCommand_winds command closed)
      rintro _ handled first ⟨loose, known⟩
      apply carries_bind (winds_quiet await_quiet)
      intro _ answered second quiet
      refine carries_weaken (ih (closed_winding second (closed_winding first closed))) ?_
      rintro _ after _ ⟨last, still⟩
      rw [quiet.trace] at still
      exact ⟨IsTrans.trans _ _ _ (IsTrans.trans _ _ _ loose quiet.toLoose) last,
        still.trans known⟩

theorem ebbs_processCommands (commands : List ManagementCommand) :
    Ebbs idle (processCommands commands) :=
  fun _ _ closed _ => winds_ebb (processCommands_winds commands closed)

theorem ebbs_takeView (view : ClusterView) : Ebbs idle (takeView view) :=
  ebbs_bind (ebbs_update fun _ => rfl) fun _ => ebbs_bind (ebbs_read _) fun _ =>
    ebbs_ite (ebbs_pure _)
    (ebbs_bind (ebbs_change fun _ _ => winding_noted .lockMissing trivial rfl) fun _ =>
      ebbs_setLeaderLease none)

theorem ebbs_processDynamicConfig : Ebbs idle processDynamicConfig := by
  refine ebbs_bind ebbs_await fun _ => ebbs_bind (ebbs_answer _) fun config => ?_
  cases config with
  | none => exact ebbs_pure _
  | some new =>
      exact ebbs_bind (ebbs_update fun _ => rfl) fun _ => ebbs_bind (ebbs_ask _) fun _ =>
        ebbs_ite ebbs_await (ebbs_pure _)

theorem ebbs_discard (message : Str) : Ebbs idle (do
    let _ ← removeDataDirectory
    pure (BootstrapResult.failed message)) :=
  ebbs_bind ebbs_removeDataDirectory fun _ => ebbs_pure _

theorem ebbs_bootstrapNewCluster : Ebbs idle bootstrapNewCluster := by
  refine ebbs_bind (ebbs_quiet swapWrite_quiet) fun race => ?_
  match race with
  | .error e => exact ebbs_pure _
  | .ok false => exact ebbs_pure _
  | .ok true =>
      refine ebbs_bind (ebbs_change fun _ _ => winding_noted .wonInitialize trivial rfl) fun _ =>
        ebbs_bind (ebbs_quiet attempt_quiet) fun created => ?_
      cases created with
      | error e => exact ebbs_discard _
      | ok =>
          refine ebbs_bind ebbs_start fun started => ?_
          cases started with
          | error e => exact ebbs_discard _
          | ok => exact ebbs_bind ebbs_await fun _ => ebbs_pure _

theorem ebbs_lockBootstrapped : Ebbs idle lockBootstrapped := by
  have loses : Ebbs idle (do
      setLeader false
      pure (CycleResult.acquiring "bootstrapped but failed to acquire leader lock".toList)) :=
    ebbs_bind (ebbs_setLeader false) fun _ => ebbs_pure _
  refine ebbs_bind ebbs_observeRecovery fun _ => ebbs_bind (ebbs_read _) fun _ =>
    ebbs_bind (ebbs_ite (ebbs_quiet (setRole_quiet _)) (ebbs_pure _)) fun _ =>
      ebbs_bind (ebbs_ask _) fun anchor => ebbs_bind
        (ebbs_bind (ebbs_change fun _ _ => winding_noted .acquiring trivial rfl) fun _ =>
          ebbs_quiet swapWrite_quiet) fun acquired => ?_
  match acquired with
  | .ok true =>
      exact ebbs_bind (ebbs_setLeader true) fun _ =>
        ebbs_bind (ebbs_extendLeaderLease anchor) fun _ =>
        ebbs_bind ebbs_await fun _ => ebbs_pure _
  | .ok false => exact loses
  | .error e => exact loses

theorem ebbs_cloneFromMember : Ebbs idle cloneFromMember := by
  have configures : Ebbs idle configureClone := by
    refine ebbs_bind (ebbs_quiet removeNodeStateFiles_quiet) fun removed => ?_
    cases removed with
    | error e => exact ebbs_pure _
    | ok => exact ebbs_writeStandbyConfig
  refine ebbs_bind (ebbs_answer _) fun source => ?_
  cases source with
  | none => exact ebbs_pure _
  | some name =>
      refine ebbs_bind (ebbs_quiet basebackup_quiet) fun cloned => ?_
      cases cloned with
      | error e => exact ebbs_discard _
      | ok =>
          refine ebbs_bind configures fun configured => ?_
          cases configured with
          | error e => exact ebbs_discard _
          | ok => exact ebbs_pure _

/-- Nothing is started, so a data directory that is made is only thrown away. -/
theorem ebbs_handleEmptyDataDir : Ebbs idle handleEmptyDataDir := by
  have initializes : Ebbs idle initializeCluster := by
    refine ebbs_bind (ebbs_ask _) fun _ => ebbs_ite (ebbs_bind ebbs_await fun _ => ebbs_pure _)
      (ebbs_bind ebbs_bootstrapNewCluster fun bootstrapped => ?_)
    cases bootstrapped with
    | initializedAsPrimary => exact ebbs_lockBootstrapped
    | clonedAsReplica => exact ebbs_pure _
    | lostRace => exact ebbs_pure _
    | failed e => exact ebbs_pure _
  have clones : Ebbs idle cloneAndStart := by
    refine ebbs_bind ebbs_cloneFromMember fun cloned => ?_
    cases cloned with
    | clonedAsReplica =>
        refine ebbs_bind ebbs_start fun started => ?_
        cases started with
        | error e => exact ebbs_pure _
        | ok =>
            exact ebbs_bind (ebbs_quiet (setRole_quiet _)) fun _ =>
              ebbs_bind (ebbs_quiet resetSyncCache_quiet) fun _ => ebbs_pure _
    | failed e => exact ebbs_pure _
    | initializedAsPrimary => exact ebbs_pure _
    | lostRace => exact ebbs_pure _
  exact ebbs_bind (ebbs_read _) fun _ => ebbs_bind (ebbs_read _) fun _ =>
    ebbs_bind (ebbs_read _) fun _ => ebbs_ite (ebbs_pure _)
      (ebbs_ite initializes (ebbs_ite clones (ebbs_pure _)))

/-- A cycle that goes on found a running server, whose stop is pending. -/
theorem prepareCycle_winds (view : ClusterView) (closed : Closed ha) (pinned : Pinned ha) :
    Winds (prepareCycle view) env ha
      (fun ended after => ended = none → after.stopPending = true) := by
  have final {result : CycleResult} {reached : Ha} :
      some result = none → reached.stopPending = true := fun no => by cases no
  unfold prepareCycle
  apply winds_step closed (ebbs_takeView view)
  intro _ viewed first closed
  apply winds_step closed ebbs_processDynamicConfig
  intro _ configured second closed
  apply winds_step closed ebbs_publishFenceDeadline
  intro _ published third closed
  apply carries_ask_bind
  apply winds_step closed (ebbs_ite (ebbs_pure ()) ebbs_await)
  intro _ registered fourth closed
  have pinned := fourth.pinned (third.pinned (second.pinned (first.pinned pinned)))
  apply carries_ask_bind
  split
  · exact carries_pure final
  · apply winds_step closed ebbs_handleEmptyDataDir
    intro _ _ _ _
    exact carries_pure final
  · apply carries_ask_bind
    apply carries_ask_bind
    split
    · rename_i running
      refine carries_pure fun _ => ?_
      rcases pinned with stopped | pending
      · simp [Ha.isRunning, stopped] at running
      · exact pending
    · rename_i down
      have gone := stopped_of_down down
      refine carries_change_bind ⟨rfl, rfl, id, fun _ => .inl gone, appends_refl _⟩ ?_
      have shutting : registered.shuttingDown = true := closed.1
      simp only [shutting, if_true]
      exact carries_pure final

theorem ebbs_lostLock (result : CycleResult) : Ebbs idle (do
    setLeaderLease none
    setLeader false
    let paused ← HaState.read Ha.isPaused
    if paused then pure result else demote) :=
  ebbs_bind (ebbs_setLeaderLease none) fun _ => ebbs_bind (ebbs_setLeader false) fun _ =>
    ebbs_bind (ebbs_read _) fun _ => ebbs_ite (ebbs_pure _) ebbs_demote

/-- The lock holder renews and stops again; only when the server is gone does it go on. -/
theorem processHealthyCluster_winds {lockOwner : Str} (closed : Closed ha)
    (owner : lockOwner = ha.config.name) (pending : ha.stopPending = true) :
    Winds (processHealthyCluster lockOwner) env ha (fun _ _ => True) := by
  unfold processHealthyCluster
  apply carries_ask_bind
  rw [if_pos owner]
  apply carries_ask_bind
  apply carries_bind (winds_quiet swapWrite_quiet)
  intro renewed waited first quiet
  have closed := closed_winding first closed
  match renewed with
  | .ok false => exact winds_ebbs closed (ebbs_lostLock _)
  | .error e => exact winds_ebbs closed (ebbs_lostLock _)
  | .ok true =>
      have led : Winding waited { waited with isLeader := true } := winding_of_moorings rfl
      refine carries_change_bind led ?_
      apply carries_bind (extendLeaderLease_winds _)
      intro _ extended second same
      have closed := closed_winding second (closed_winding led closed)
      have still : extended.stopPending = true := same.trans (quiet.stopPending.trans pending)
      apply carries_ask_bind
      split
      · apply winds_step closed (ebbs_settles settles_retryPendingStop)
        intro _ _ _ _
        exact carries_pure trivial
      · rename_i down
        have gone : extended.server = .stopped := by simpa [Ha.isRunning, still] using down
        exact ebbs_enforcePrimaryRole env extended closed fun _ => gone

/-- With its stop pending a node either stops again or is the lock holder. -/
theorem decideCycle_winds (closed : Closed ha) (pending : ha.stopPending = true) :
    Winds decideCycle env ha (fun _ _ => True) := by
  unfold decideCycle
  apply carries_ask_bind
  apply carries_ask_bind
  split
  · apply winds_step closed (ebbs_settles settles_retryPendingStop)
    intro _ _ _ _
    exact carries_pure trivial
  · rename_i other
    have owner : ha.cluster.leader = some ha.config.name := by
      simpa [closed.1, pending, Ha.isLockOwner] using other
    simp only [owner]
    exact processHealthyCluster_winds closed rfl pending

theorem observeIdentity_winds (closed : Closed ha) : Winds observeIdentity env ha
    (fun _ after => after.stopPending = ha.stopPending) := by
  have ebbs : Ebbs false observeIdentity :=
    ebbs_bind ebbs_observeRecovery fun _ => ebbs_bind (ebbs_update fun _ => rfl) fun _ =>
      ebbs_read _
  have loose : Moves Loose observeIdentity :=
    keeps_bind observeRecovery_loose fun _ =>
      keeps_bind (loose_of_quiet (update_quiet fun _ => rfl)) fun _ => loose_of_quiet (read_quiet _)
  exact carries_weaken (carries_and (winds_ebbs closed ebbs) (ends_keeps loose)) fun _ _ _ both =>
    both.2.stopPending

theorem runCycle_winds (closed : Closed ha) (pinned : Pinned ha) :
    Winds runCycle env ha (fun _ _ => True) := by
  unfold runCycle
  apply carries_ask_bind
  apply winds_step closed (ebbs_processCommands _)
  intro _ handled first closed
  refine carries_change_bind (winding_noted (.began .cycle) trivial rfl) ?_
  have began : Closed (handled.noted (.began .cycle)) := ⟨closed.1, closed.2⟩
  apply winds_step began ebbs_await
  intro _ waited second closed
  have pinned := second.pinned (first.pinned pinned)
  apply carries_ask_bind
  split
  · apply winds_step closed ebbs_handleDcsError
    intro _ _ _ _
    exact carries_pure trivial
  · apply carries_bind (prepareCycle_winds _ closed pinned)
    intro ended prepared third pending
    cases ended with
    | some result => exact carries_pure trivial
    | none =>
        have closed := closed_winding third closed
        apply carries_bind (observeIdentity_winds closed)
        intro identity observed fourth same
        apply carries_ask_bind
        apply carries_bind
          (decideCycle_winds (closed_winding fourth closed) (same.trans (pending rfl)))
        intro _ _ _ _
        exact carries_pure trivial

theorem ebbs_unraced {prog : HaProg Value} (ebbs : Ebbs idle prog) :
    Ebbs idle (under (racing false) prog) := fun env ha closed waits =>
  ends_mono (ebbs (racing false env) ha closed waits) (fun _ _ ended => ended)
    fun _ cut => by cases cut.2

/-- The wait for the lease looks once before what it is raced with. -/
theorem raced_winds {next : HaProg Value} {post : Value → Ha → Prop} (closed : Closed ha)
    (rest : ∀ reached, Winding ha reached → Closed reached → Winds next env reached post) :
    Winds (do
      publishFenceDeadline
      cutIf dropped
      update fun ha => { ha with unseen := false }
      next) env ha post := by
  apply winds_step closed ebbs_publishFenceDeadline
  intro _ published first closed
  apply winds_step closed (ebbs_quiet (keeps_cutIf dropped_raced))
  intro _ looked second closed
  have unseen : Winding looked { looked with unseen := false } := winding_of_moorings rfl
  refine carries_change_bind unseen ?_
  exact rest _ (IsTrans.trans _ _ _ first (IsTrans.trans _ _ _ second unseen))
    (closed_winding unseen closed)

theorem racedCycle_winds (closed : Closed ha) (pinned : Pinned ha) :
    Winds racedCycle env ha (fun _ _ => True) :=
  raced_winds closed fun _ moved still => runCycle_winds still (moved.pinned pinned)

theorem finishedCycle_winds (closed : Closed ha) (pinned : Pinned ha) :
    Ends finishedCycle env ha (fun _ after => Winding ha after)
      (fun after => Winding ha after) := by
  have cycles : Ends (under (racing true) racedCycle) env ha (fun _ reached => Winding ha reached)
      (fun reached => Winding ha reached) :=
    ends_mono (racedCycle_winds closed pinned) (fun _ _ ended => ended.1) fun _ cut => cut.1
  unfold finishedCycle
  apply ends_bind cycles
  intro cycle reached moved
  have ends : Ebbs false (do
      let isLeader ← HaState.read Ha.isLeader
      (if isLeader then pure () else setLeaderLease none)
      under (racing false) reconcileWatchdog
      pure cycle) :=
    ebbs_bind (ebbs_read _) fun _ => ebbs_bind (ebbs_ite (ebbs_pure _) (ebbs_setLeaderLease none))
      fun _ => ebbs_bind (ebbs_unraced ebbs_reconcileWatchdog) fun _ => ebbs_pure _
  refine ends_mono (winds_ebbs (closed_winding moved closed) ends) ?_ ?_
  · exact fun _ after ended => IsTrans.trans _ _ _ moved ended.1
  · exact fun after cut => IsTrans.trans _ _ _ moved cut.1

/-- A cycle that is dropped winds down all the same, and so does the fence after it. -/
theorem runCycleBounded_winds (closed : Closed ha) (pinned : Pinned ha) :
    Ends runCycleBounded env ha (fun _ after => Winding ha after) (fun _ => False) := by
  refine ends_onCut (finishedCycle_winds closed pinned) fun reached moved => ?_
  have marked : Winding ha (reached.noted (.began .leaseFence)) :=
    IsTrans.trans _ _ _ moved (winding_noted (.began .leaseFence) trivial rfl)
  have fences : Winds fenceForLostLease (racing false env) (reached.noted (.began .leaseFence))
      (fun _ _ => True) :=
    winds_ebbs (closed_winding marked closed) (ebbs_settles settles_fenceForLostLease)
  have fenced : Ends (under (racing false) fenceForLostLease) env
      (reached.noted (.began .leaseFence)) (fun _ after => Winding ha after) (fun _ => False) :=
    ends_mono fences (fun _ _ ended => IsTrans.trans _ _ _ marked ended.1)
      fun _ cut => by cases cut.2
  exact ends_change_bind (ends_bind fenced fun _ _ whole => ends_pure whole)

/-! ### The shutdown -/

/-- Since `old` PostgreSQL was observed as a standby with its signal, and its stop was
called right then. -/
def LeftStanding (old new : List Event) : Prop :=
  ∃ later moment earlier,
    new = later ++ .stop .stopObservedPostgresForShutdown moment :: .observed (some true) ::
      (earlier ++ old) ∧ moment.identity = .managedStandby

/-- A standby that may be left running: nothing will promote it, and it was neither
started nor promoted since it was found in recovery. -/
structure LeftBehind (old : List Event) (ha : Ha) : Prop where
  standing : LeftStanding old ha.trace
  follower : ha.isLeader = false
  known : lastKnown ha.trace = some true

/-- PostgreSQL is stopped, or its stop is pending, or it may be left running. -/
def Resolved (old : List Event) (ha : Ha) : Prop := Pinned ha ∨ LeftBehind old ha

theorem leftStanding_appends {old middle new : List Event} (grows : Appends harmless middle new)
    (left : LeftStanding old middle) : LeftStanding old new := by
  obtain ⟨extra, rfl, _⟩ := grows
  obtain ⟨later, moment, earlier, rfl, standby⟩ := left
  exact ⟨extra ++ later, moment, earlier, (List.append_assoc _ _ _).symm, standby⟩

theorem leftBehind_winding {old : List Event} {after : Ha} (moved : Winding ha after)
    (leader : after.isLeader = ha.isLeader) (kept : lastKnown after.trace = lastKnown ha.trace)
    (left : LeftBehind old ha) : LeftBehind old after :=
  ⟨leftStanding_appends moved.trace left.standing, leader.trans left.follower,
    kept.trans left.known⟩

theorem resolved_winding {old : List Event} {after : Ha} (moved : Winding ha after)
    (leader : after.isLeader = ha.isLeader) (kept : lastKnown after.trace = lastKnown ha.trace)
    (resolved : Resolved old ha) : Resolved old after := by
  rcases resolved with pinned | left
  · exact .inl (moved.pinned pinned)
  · exact .inr (leftBehind_winding moved leader kept left)

theorem pinned_of_down (down : ¬ha.isRunning = true) : Pinned ha := .inl (stopped_of_down down)

/-- The stop that failed twice is pending, unless the server may be left. -/
theorem markStuck_winds {old : List Event} {stopped : Except Str Unit} (observed : PgIdentity)
    (ok : stopped = .ok () → ha.server = .stopped)
    (left : ha.isLeader = false → observed = .managedStandby → Resolved old ha) :
    Winds (do
      (if !stopped.isOk && (ha.isRunning && !shutdownMayLeaveRunning observed ha.isLeader) then
        update fun ha => { ha with stopPending := true }
      else pure ())
      pure stopped) env ha (fun _ after => Resolved old after) := by
  split
  · refine carries_change_bind ⟨rfl, rfl, id, fun _ => .inr rfl, appends_refl _⟩ ?_
    exact carries_pure (.inl (.inr rfl))
  · rename_i fine
    refine carries_pure ?_
    cases stopped with
    | ok => exact .inl (.inl (ok rfl))
    | error e =>
        by_cases running : ha.isRunning = true
        · have may : shutdownMayLeaveRunning observed ha.isLeader = true := by
            simpa [Except.isOk, Except.toBool, running] using fine
          simp only [shutdownMayLeaveRunning, Bool.and_eq_true, Bool.not_eq_true', beq_iff_eq]
            at may
          exact left may.1 may.2
        · exact .inl (pinned_of_down running)

/-- A standby that could not be stopped was observed right before its first stop. -/
theorem stopObservedPostgresForShutdown_winds {old earlier : List Event} (closed : Closed ha)
    (looked : ha.trace = .observed ha.inRecovery :: (earlier ++ old)) :
    Winds stopObservedPostgresForShutdown env ha (fun _ after => Resolved old after) := by
  unfold stopObservedPostgresForShutdown stopAgainForShutdown
  apply carries_ask_bind
  by_cases fence : shutdownNeedsFence ha.pgIdentity = true
  · simp only [fence, if_true]
    apply carries_bind (settles_fencePrimary env ha closed)
    intro fast fenced moved pinned
    apply carries_ask_bind
    cases fast with
    | ok => exact carries_pure (.inl pinned)
    | error e =>
        dsimp only
        split
        · exact carries_weaken (settles_stopPublishing env fenced (closed_winding moved closed))
            fun _ _ _ settled => .inl settled
        · exact carries_pure (.inl pinned)
  · simp only [fence, Bool.false_eq_true, if_false]
    apply carries_bind (stop_winds .stopObservedPostgresForShutdown)
    intro fast down _ halted
    apply carries_ask_bind
    cases fast with
    | ok => exact carries_pure (.inl (.inl (halted.server rfl)))
    | error e =>
        dsimp only
        split
        · apply carries_bind (stop_winds .stopObservedPostgresForShutdown)
          intro stopped again moved twice
          apply carries_ask_bind
          have left (standby : ha.pgIdentity = .managedStandby) : LeftStanding old again.trace := by
            have called := halted.trace
            rw [looked, recovering_of_unfenced fence] at called
            exact leftStanding_appends moved.trace
              ⟨[_], ha.moment env, earlier, called, standby⟩
          have known : lastKnown again.trace = some true := by
            rw [twice.trace, halted.trace, looked, recovering_of_unfenced fence]
            rfl
          exact markStuck_winds ha.pgIdentity twice.server fun follower standby =>
            .inr ⟨left standby, follower, known⟩
        · rename_i gone
          exact carries_pure (.inl (pinned_of_down gone))

theorem stopPostgresForShutdown_winds {old : List Event} (closed : Closed ha)
    (grows : Appends harmless old ha.trace) :
    Winds stopPostgresForShutdown env ha (fun _ after => Resolved old after) := by
  unfold stopPostgresForShutdown
  apply carries_ask_bind
  split
  · rename_i running
    have observes : Winds observeRecovery env ha (fun _ after =>
        ∃ earlier, after.trace = .observed after.inRecovery :: (earlier ++ old)) := by
      unfold observeRecovery
      apply carries_ask_bind
      rw [if_pos running]
      apply carries_bind (winds_quiet await_quiet)
      intro _ waited moved _
      obtain ⟨earlier, trace, _⟩ := appends_trans grows moved.trace
      exact ⟨winding_noted (.observed (observation env waited)) trivial rfl, earlier,
        congrArg _ trace⟩
    apply carries_bind observes
    intro _ observed moved looked
    obtain ⟨earlier, trace⟩ := looked
    exact stopObservedPostgresForShutdown_winds (closed_winding moved closed) trace
  · rename_i down
    exact carries_pure (.inl (pinned_of_down down))

theorem checkpointAndStop_winds {old : List Event} (closed : Closed ha)
    (grows : Appends harmless old ha.trace) :
    Winds checkpointAndStop env ha (fun _ after => Resolved old after) := by
  unfold checkpointAndStop
  apply carries_ask_bind
  apply winds_step closed
    (ebbs_ite (ebbs_bind (ebbs_quiet attempt_quiet) fun _ => ebbs_pure _) (ebbs_pure _))
  intro _ checkpointed moved closed
  apply carries_bind (stopPostgresForShutdown_winds closed (appends_trans grows moved.trace))
  intro _ _ _ resolved
  exact carries_pure resolved

theorem racedStop_winds {old : List Event} (closed : Closed ha)
    (grows : Appends harmless old ha.trace) :
    Winds racedStop env ha (fun stopped after => stopped = true ∧ Resolved old after) := by
  refine raced_winds closed fun reached moved still => ?_
  apply carries_bind (checkpointAndStop_winds still (appends_trans grows moved.trace))
  intro _ _ _ resolved
  exact carries_pure ⟨rfl, resolved⟩

/-- What is known of a server that was stopped in time, or fenced. -/
def Tried (old : List Event) (inTime : Bool) (ha : Ha) : Prop :=
  if inTime then Resolved old ha else Pinned ha

/-- A stop that came to its end is resolved; a dropped one was fenced. -/
theorem stopPostgresWithinLease_winds {old : List Event} (closed : Closed ha)
    (grows : Appends harmless old ha.trace) :
    Winds stopPostgresWithinLease env ha (fun inTime after => Tried old inTime after) := by
  have stops : Ends (under (racing true) racedStop) env ha
      (fun inTime after => Winding ha after ∧ Tried old inTime after)
      (fun reached => Winding ha reached) := by
    refine ends_mono (racedStop_winds closed grows) ?_ fun _ cut => cut.1
    rintro inTime after ⟨moved, rfl, resolved⟩
    exact ⟨moved, resolved⟩
  refine ends_onCut stops fun reached moved => ?_
  have fences : Winds (do
      let _ ← fenceForLostLease
      pure false) env reached (fun inTime after => Tried old inTime after) := by
    apply carries_bind (settles_fenceForLostLease env reached (closed_winding moved closed))
    intro _ _ _ pinned
    exact carries_pure pinned
  refine ends_mono fences ?_ ?_
  · exact fun _ after ended => ⟨IsTrans.trans _ _ _ moved ended.1, ended.2⟩
  · exact fun after cut => ⟨IsTrans.trans _ _ _ moved cut.1, cut.2⟩

/-- Programs that answer whether they fenced PostgreSQL. -/
def Fences (prog : HaProg Bool) : Prop :=
  ∀ env ha, Closed ha → Winds prog env ha fun fenced after => fenced = true → Pinned after

theorem fences_pure : Fences (pure false) :=
  fun _ _ _ => carries_pure fun no => by cases no

theorem fences_lostLease : Fences (do
    let _ ← fenceForLostLease
    pure true) := by
  intro env ha closed
  apply carries_bind (settles_fenceForLostLease env ha closed)
  intro _ _ _ pinned
  exact carries_pure fun _ => pinned

theorem fences_step {prog : HaProg Value} {next : Value → HaProg Bool} (first : Ebbs false prog)
    (rest : ∀ value, Fences (next value)) : Fences (prog >>= next) :=
  fun env _ closed => winds_step closed first fun value reached _ still =>
    rest value env reached still

theorem fences_ite {choice : Prop} [Decidable choice] {yes no : HaProg Bool} (first : Fences yes)
    (second : Fences no) : Fences (if choice then yes else no) := either first second

theorem fences_shutdownFenceIfLeaseExpired : Fences shutdownFenceIfLeaseExpired :=
  fences_step (ebbs_ask _) fun _ => fences_ite fences_lostLease fences_pure

theorem fences_drainSlice : Fences drainSlice :=
  fences_step ebbs_renewHeldLock fun _ => fences_step ebbs_reconcileWatchdog fun _ =>
    fences_step (ebbs_read _) fun _ => fences_ite fences_pure fences_lostLease

/-- By induction on the renewals; the first that fails fences. -/
theorem fences_drainSlices (slices : Nat) : Fences (drainSlices slices) := by
  induction slices with
  | zero => exact fences_drainSlice
  | succ slices ih =>
      intro env ha closed
      apply carries_bind (fences_drainSlice env ha closed)
      intro fenced drained moved pinned
      split
      · rename_i done
        exact carries_pure fun _ => pinned done
      · exact fences_step ebbs_await (fun _ => ih) env drained (closed_winding moved closed)

theorem fences_drainRenewingLeaderLock (slices : Nat) : Fences (drainRenewingLeaderLock slices) :=
  fences_step (ebbs_read _) fun _ => fences_ite (fences_drainSlices slices)
    (fences_step ebbs_await fun _ => fences_pure)

/-- What the shutdown returns, and what it then leaves. -/
def Concluded (old : List Event) : ShutdownOutcome → Ha → Prop
  | .keepRunning, ha => Pinned ha
  | .standbyLeftRunning, ha => LeftBehind old ha
  | .released, ha | .stoppedLockKept, ha | .fenced, ha => ha.server = .stopped

theorem rejectCommands_winds (closed : Closed ha) :
    Winds rejectCommands env ha (fun _ after =>
      Loose ha after ∧ lastKnown after.trace = lastKnown ha.trace) :=
  carries_ask_bind (processCommands_winds _ closed)

theorem finishShutdown_winds {old : List Event} (closed : Closed ha) (resolved : Resolved old ha) :
    Winds finishShutdown env ha (fun outcome after => Concluded old outcome after) := by
  unfold finishShutdown
  apply carries_bind (rejectCommands_winds closed)
  rintro _ handled moved ⟨loose, known⟩
  have still := resolved_winding moved loose.isLeader known resolved
  apply carries_ask_bind
  apply carries_ask_bind
  split
  · rename_i running
    have alive : ¬handled.server = .stopped := by simpa [Ha.isRunning] using running
    split
    · refine carries_change_bind ⟨rfl, rfl, id, fun _ => .inr rfl, appends_refl _⟩ ?_
      exact carries_pure (.inr rfl)
    · rename_i free
      refine carries_pure ?_
      rcases still with (stopped | pending) | left
      · exact absurd stopped alive
      · simp [pending] at free
      · exact left
  · rename_i down
    have gone := stopped_of_down down
    apply winds_step (closed_winding moved closed) ebbs_releaseLeaderLockIfStopped
    intro released after further _
    refine carries_pure ?_
    split
    · exact further.stopped gone
    · exact further.stopped gone

theorem outcomeAfterFence_winds {old : List Event} (closed : Closed ha) (pinned : Pinned ha) :
    Winds outcomeAfterFence env ha (fun outcome after => Concluded old outcome after) := by
  unfold outcomeAfterFence
  apply carries_bind (rejectCommands_winds closed)
  intro _ handled moved _
  apply carries_ask_bind
  refine carries_pure ?_
  split
  · exact moved.pinned pinned
  · rename_i down
    exact stopped_of_down down

theorem disarm_winds {old : List Event} (left : LeftBehind old ha) :
    Winds disarm env ha (fun _ after => LeftBehind old after) := by
  cases active : ha.watchdogActive with
  | true =>
      simp only [disarm, change, Carries, Ends, active, if_true]
      have noted : Winding ha (Ha.noted { ha with watchdogActive := false }
          (.disarmed (ha.watchdogMoment env))) :=
        winding_noted (.disarmed (ha.watchdogMoment env)) trivial rfl
      exact ⟨noted, leftBehind_winding noted rfl (lastKnown_silent rfl) left⟩
  | false =>
      simp only [disarm, change, Carries, Ends, active]
      exact ⟨Std.Refl.refl ha, left⟩

theorem watchdogAfterShutdown_winds {old : List Event} {outcome : ShutdownOutcome}
    (closed : Closed ha) (concluded : Concluded old outcome ha) :
    Winds (watchdogAfterShutdown outcome) env ha (fun _ after => Concluded old outcome after) := by
  have reconciles : Winds reconcileWatchdog env ha fun _ _ => True :=
    winds_ebbs closed ebbs_reconcileWatchdog
  cases outcome with
  | standbyLeftRunning => exact disarm_winds concluded
  | keepRunning => exact carries_weaken reconciles fun _ _ moved _ => moved.pinned concluded
  | released => exact carries_weaken reconciles fun _ _ moved _ => moved.stopped concluded
  | stoppedLockKept => exact carries_weaken reconciles fun _ _ moved _ => moved.stopped concluded
  | fenced => exact carries_weaken reconciles fun _ _ moved _ => moved.stopped concluded

theorem concluded_noted {old : List Event} {outcome : ShutdownOutcome}
    (concluded : Concluded old outcome ha) :
    Concluded old outcome (ha.noted (.concluded outcome)) := by
  cases outcome with
  | standbyLeftRunning =>
      exact leftBehind_winding (winding_noted (.concluded .standbyLeftRunning) trivial rfl) rfl
        (lastKnown_silent rfl) concluded
  | keepRunning => exact concluded
  | released => exact concluded
  | stoppedLockKept => exact concluded
  | fenced => exact concluded

theorem conclude_winds {old : List Event} {inTime : Bool} (closed : Closed ha)
    (tried : Tried old inTime ha) :
    Winds (conclude inTime) env ha (fun outcome after => Concluded old outcome after) := by
  have decides : Winds (if inTime then finishShutdown else outcomeAfterFence) env ha
      (fun outcome after => Concluded old outcome after) := by
    cases inTime with
    | true => exact finishShutdown_winds closed tried
    | false => exact outcomeAfterFence_winds closed tried
  unfold conclude
  apply carries_bind decides
  intro outcome decided moved concluded
  have noted : Winding decided (decided.noted (.concluded outcome)) :=
    winding_noted (.concluded outcome) trivial rfl
  refine carries_change_bind noted ?_
  apply carries_bind (watchdogAfterShutdown_winds
    (closed_winding noted (closed_winding moved closed)) (concluded_noted concluded))
  intro _ _ _ still
  exact carries_pure still

/-! ### Runs of a shutdown -/

/-- The state in which the shutdown sets out. -/
def begun (ha : Ha) : Ha :=
  { ha.noted (.began .gracefulShutdown) with shuttingDown := true, startsBlocked := true }

theorem begun_closed (ha : Ha) : Closed (begun ha) := ⟨rfl, rfl⟩

theorem beginShutdown_winds : Ends beginShutdown env ha (fun _ after => Winding (begun ha) after)
    (fun _ => env.raced = true) := by
  have waits : Winds await env (begun ha) (fun _ _ => True) := winds_ebb (winds_quiet await_quiet)
  have ends : Ends await env (begun ha) (fun _ after => Winding (begun ha) after)
      (fun _ => env.raced = true) := ends_mono waits (fun _ _ ended => ended.1) fun _ cut => cut.2
  exact ends

theorem afterBegin_winds (slices : Nat) {old : List Event} (closed : Closed ha)
    (grows : Appends harmless old ha.trace) :
    Winds (do
      let expired ← shutdownFenceIfLeaseExpired
      if expired then conclude false
      else do
        let fenced ← drainRenewingLeaderLock slices
        if fenced then conclude false
        else do
          let stopped ← stopPostgresWithinLease
          conclude stopped) env ha (fun outcome after => Concluded old outcome after) := by
  apply carries_bind (fences_shutdownFenceIfLeaseExpired env ha closed)
  intro expired checked first pinned
  have closed := closed_winding first closed
  split
  · rename_i done
    exact conclude_winds closed (pinned done)
  · apply carries_bind (fences_drainRenewingLeaderLock slices env checked closed)
    intro fenced drained second pinned
    have closed := closed_winding second closed
    split
    · rename_i done
      exact conclude_winds closed (pinned done)
    · have grown := appends_trans grows (appends_trans first.trace second.trace)
      apply carries_bind (stopPostgresWithinLease_winds closed grown)
      intro inTime stopped third tried
      exact conclude_winds (closed_winding third closed) tried

theorem gracefulShutdown_ends (slices : Nat) : Ends (gracefulShutdown slices) env ha
    (fun outcome after => Winding (begun ha) after ∧ Concluded (begun ha).trace outcome after)
    (fun _ => False) := by
  have begins : Ends beginShutdown (racing false env) ha (fun _ after => Winding (begun ha) after)
      (fun _ => False) :=
    ends_mono beginShutdown_winds (fun _ _ moved => moved) fun _ cut => by cases cut
  unfold gracefulShutdown shutdownSteps
  apply ends_under
  apply ends_bind begins
  intro _ reached moved
  refine ends_mono
    (afterBegin_winds slices (closed_winding moved (begun_closed ha)) moved.trace) ?_ ?_
  · exact fun _ after ended => ⟨IsTrans.trans _ _ _ moved ended.1, ended.2⟩
  · exact fun _ cut => by cases cut.2

theorem continueShutdown_ends (old : List Event) (closed : Closed ha) (pinned : Pinned ha) :
    Ends continueShutdown env ha
      (fun outcome after => Winding ha after ∧ Concluded old outcome after) (fun _ => False) := by
  have marked : Winding ha (ha.noted (.began .continueShutdown)) :=
    winding_noted (.began .continueShutdown) trivial rfl
  have concludes : Winds (conclude true) (racing false env) (ha.noted (.began .continueShutdown))
      (fun outcome after => Concluded old outcome after) :=
    conclude_winds (closed_winding marked closed) (.inl (marked.pinned pinned))
  unfold continueShutdown
  apply ends_under
  refine ends_change_bind (ends_mono concludes ?_ ?_)
  · exact fun _ after ended => ⟨IsTrans.trans _ _ _ marked ended.1, ended.2⟩
  · exact fun _ cut => by cases cut.2

/-- `graceful_shutdown`, and as long as it returns `KeepRunning` one HA cycle after the
other, each followed by `continue_shutdown`. -/
inductive ShutdownRun (ha : Ha) : ShutdownOutcome → Ha → Prop where
  | graceful {slices : Nat} {env : Env} {outcome : ShutdownOutcome} {after : Ha}
      (returned : gracefulShutdown slices env ha = .done outcome after) :
      ShutdownRun ha outcome after
  | again {reached cycled after : Ha} {cycleEnv env : Env} {cycle : Cycle}
      {outcome : ShutdownOutcome} (stuck : ShutdownRun ha .keepRunning reached)
      (ran : runCycleBounded cycleEnv reached = .done cycle cycled)
      (returned : continueShutdown env cycled = .done outcome after) : ShutdownRun ha outcome after

/-- By induction on the rounds: each begins with a pending stop or a stopped server. -/
theorem shutdownRun_winds {outcome : ShutdownOutcome} {after : Ha}
    (run : ShutdownRun ha outcome after) :
    Winding (begun ha) after ∧ Concluded (begun ha).trace outcome after := by
  induction run with
  | graceful returned =>
      have ended := ends_done (gracefulShutdown_ends _) returned
      exact ended
  | again stuck ran returned ih =>
      obtain ⟨wound, pinned⟩ := ih
      have closed := closed_winding wound (begun_closed ha)
      have cycled := ends_done (runCycleBounded_winds closed pinned) ran
      have still := closed_winding cycled closed
      have ended := ends_done
        (continueShutdown_ends (begun ha).trace still (cycled.pinned pinned)) returned
      exact ⟨IsTrans.trans _ _ _ wound (IsTrans.trans _ _ _ cycled ended.1), ended.2⟩

/-- A shutdown starts and promotes nothing, deletes the lock only from under a stopped
server, and returns for good only when PostgreSQL is stopped, or was observed as a
standby with its signal on a node that does not lead. -/
theorem shutdown_abandons_no_writable_server (ha : Ha) (outcome : ShutdownOutcome) (after : Ha)
    (run : ShutdownRun ha outcome after) :
    Appends harmless ha.trace after.trace ∧
      (outcome ≠ .keepRunning → after.server = .stopped ∨
        (LeftStanding (.began .gracefulShutdown :: ha.trace) after.trace ∧
          after.isLeader = false)) := by
  obtain ⟨wound, concluded⟩ := shutdownRun_winds run
  have marked : Appends harmless ha.trace (begun ha).trace := appends_one ha.trace trivial
  refine ⟨appends_trans marked wound.trace, ?_⟩
  intro final
  cases outcome with
  | keepRunning => exact absurd rfl final
  | released => exact .inl concluded
  | stoppedLockKept => exact .inl concluded
  | fenced => exact .inl concluded
  | standbyLeftRunning => exact .inr ⟨concluded.standing, concluded.follower⟩

/-- The fence of the shutdown fails, the stop of the next cycle succeeds. -/
theorem shutdown_abandons_no_writable_server_secondStop :
    ∃ after, ShutdownRun primaryNode .released after ∧
      (Appends harmless primaryNode.trace after.trace ∧
        (ShutdownOutcome.released ≠ .keepRunning → after.server = .stopped ∨
          (LeftStanding (.began .gracefulShutdown :: primaryNode.trace) after.trace ∧
            after.isLeader = false))) := by
  obtain ⟨first, stuck, graceful, kept⟩ := yields_done (show yields (gracefulShutdown 0) failing
    primaryNode (fun outcome stuck => outcome == .keepRunning &&
      yields runCycleBounded (quick ['b'] steadyWall) stuck fun _ cycled =>
        yields continueShutdown (quick ['b'] steadyWall) cycled fun outcome _ =>
          outcome == .released) = true from rfl)
  rw [Bool.and_eq_true, beq_iff_eq] at kept
  obtain ⟨rfl, goesOn⟩ := kept
  obtain ⟨cycle, cycled, ran, continues⟩ := yields_done goesOn
  obtain ⟨last, after, returned, released⟩ := yields_done continues
  rw [beq_iff_eq] at released
  obtain rfl := released
  have run : ShutdownRun primaryNode .released after := .again (.graceful graceful) ran returned
  exact ⟨after, run, shutdown_abandons_no_writable_server primaryNode .released after run⟩

end PgHa.ShutdownSafe
