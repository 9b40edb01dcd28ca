import PgHa.HaCycle

/-!
What the steps of a cycle leave alone. Every step moves time forward and may find
PostgreSQL stopped; few touch the lock, the pending stop or the observation.
-/

namespace PgHa.HaFrames

open Text Cluster Identity Interruptible SyncReplication HaState HaHelpers HaFollow

/-- Time passes, PostgreSQL may stop, and the lock state stays. Only a recovery that
pg-ha did not configure may end in a primary. -/
structure Drift (before after : Ha) : Prop where
  tick : before.tick ≤ after.tick
  server : after.server = before.server ∨ after.server = .stopped ∨ before.server = .recovering
  config : after.config = before.config
  ttl : after.ttl = before.ttl
  isPaused : after.isPaused = before.isPaused
  isLeader : after.isLeader = before.isLeader
  leaderLease : after.leaderLease = before.leaderLease

structure Loose (before after : Ha) : Prop extends Drift before after where
  stopPending : after.stopPending = before.stopPending

structure Calm (before after : Ha) : Prop extends Loose before after where
  inRecovery : after.inRecovery = before.inRecovery

/-- No call is made, and the view, the marks of a shutdown, the watchdog and
`standby.signal` stay. -/
structure Quiet (before after : Ha) : Prop extends Calm before after where
  cluster : after.cluster = before.cluster
  promotePending : after.promotePending = before.promotePending
  shuttingDown : after.shuttingDown = before.shuttingDown
  startsBlocked : after.startsBlocked = before.startsBlocked
  watchdogActive : after.watchdogActive = before.watchdogActive
  standbySignal : after.standbySignal = before.standbySignal
  trace : after.trace = before.trace

theorem drift_server {before middle after : Ha}
    (first : middle.server = before.server ∨ middle.server = .stopped ∨
      before.server = .recovering)
    (second : after.server = middle.server ∨ after.server = .stopped ∨
      middle.server = .recovering) :
    after.server = before.server ∨ after.server = .stopped ∨ before.server = .recovering := by
  rcases first with same | stopped | recovering
  · rw [same] at second
    exact second
  · rw [stopped] at second
    rcases second with still | again | no
    · exact .inr (.inl still)
    · exact .inr (.inl again)
    · cases no
  · exact .inr (.inr recovering)

theorem stopped_drift {before after : Ha} (moved : Drift before after)
    (stopped : before.server = .stopped) : after.server = .stopped := by
  rcases moved.server with same | gone | recovering
  · exact same.trans stopped
  · exact gone
  · rw [stopped] at recovering
    cases recovering

instance : Std.Refl Drift := ⟨fun _ => ⟨le_rfl, .inl rfl, rfl, rfl, rfl, rfl, rfl⟩⟩

instance : IsTrans Ha Drift := ⟨fun _ _ _ first second =>
  ⟨first.tick.trans second.tick, drift_server first.server second.server,
    second.config.trans first.config, second.ttl.trans first.ttl,
    second.isPaused.trans first.isPaused, second.isLeader.trans first.isLeader,
    second.leaderLease.trans first.leaderLease⟩⟩

instance : Std.Refl Loose := ⟨fun ha => ⟨Std.Refl.refl ha, rfl⟩⟩

instance : IsTrans Ha Loose := ⟨fun _ _ _ first second =>
  ⟨IsTrans.trans _ _ _ first.toDrift second.toDrift,
    second.stopPending.trans first.stopPending⟩⟩

instance : Std.Refl Calm := ⟨fun ha => ⟨Std.Refl.refl ha, rfl⟩⟩

instance : IsTrans Ha Calm := ⟨fun _ _ _ first second =>
  ⟨IsTrans.trans _ _ _ first.toLoose second.toLoose,
    second.inRecovery.trans first.inRecovery⟩⟩

instance : Std.Refl Quiet :=
  ⟨fun ha => ⟨Std.Refl.refl ha, rfl, rfl, rfl, rfl, rfl, rfl, rfl⟩⟩

instance : IsTrans Ha Quiet := ⟨fun _ _ _ first second =>
  ⟨IsTrans.trans _ _ _ first.toCalm second.toCalm, second.cluster.trans first.cluster,
    second.promotePending.trans first.promotePending,
    second.shuttingDown.trans first.shuttingDown, second.startsBlocked.trans first.startsBlocked,
    second.watchdogActive.trans first.watchdogActive,
      second.standbySignal.trans first.standbySignal,
    second.trace.trans first.trace⟩⟩

/-- A program of the engine moves the state along the relation and is dropped only
while the lease is raced. -/
def Moves {Value : Type} (rel : Ha → Ha → Prop) (prog : HaProg Value) : Prop :=
  Keeps rel (fun env => env.raced = true) prog

/-- A postcondition of a program of the engine, which may be dropped while raced. -/
abbrev Finishes {Value : Type} (prog : HaProg Value) (env : Env) (ha : Ha)
    (post : Value → Ha → Prop) : Prop :=
  Ends prog env ha post fun _ => env.raced = true

/-- The fields the relations speak of. -/
def core (ha : Ha) :=
  (ha.tick, ha.server, ha.config, ha.ttl, ha.isPaused, ha.isLeader, ha.leaderLease, ha.stopPending,
    ha.inRecovery)

theorem calm_of_core {before after : Ha} (same : core after = core before) :
    Calm before after := by
  simp only [core, Prod.mk.injEq] at same
  obtain ⟨tick, server, config, ttl, paused, leader, lease, stopPending, inRecovery⟩ := same
  exact ⟨⟨⟨tick.ge, .inl server, config, ttl, paused, leader, lease⟩, stopPending⟩,
    inRecovery⟩

/-- The fields a quiet step leaves alone. -/
def quietCore (ha : Ha) :=
  (core ha, ha.cluster, ha.promotePending, ha.shuttingDown, ha.startsBlocked, ha.watchdogActive,
    ha.standbySignal, ha.trace)

theorem quiet_of_core {before after : Ha} (same : quietCore after = quietCore before) :
    Quiet before after := by
  simp only [quietCore, Prod.mk.injEq] at same
  obtain ⟨core, cluster, pending, shutting, blocked, watchdog, signal, trace⟩ := same
  exact ⟨calm_of_core core, cluster, pending, shutting, blocked, watchdog, signal, trace⟩

theorem change_calm {next : Env → Ha → Ha} (same : ∀ env ha, core (next env ha) = core ha) :
    Moves Calm (change next) := keeps_change fun env ha => calm_of_core (same env ha)

theorem change_quiet {next : Env → Ha → Ha}
    (same : ∀ env ha, quietCore (next env ha) = quietCore ha) : Moves Quiet (change next) :=
  keeps_change fun env ha => quiet_of_core (same env ha)

theorem update_quiet {next : Ha → Ha} (same : ∀ ha, quietCore (next ha) = quietCore ha) :
    Moves Quiet (update next) := change_quiet fun _ ha => same ha

theorem calm_of_quiet {Value : Type} {prog : HaProg Value} (quiet : Moves Quiet prog) :
    Moves Calm prog := keeps_mono quiet fun _ _ moved => moved.toCalm

theorem read_quiet {Value : Type} (field : Ha → Value) : Moves Quiet (read field) := keeps_ask _

theorem answer_quiet {Value : Type} (answers : Env → Nat → Value) :
    Moves Quiet (answer answers) :=
  keeps_ask _

theorem calm_elapse (env : Env) (ha : Ha) : Calm ha (elapse env ha) := by
  refine ⟨⟨⟨Nat.le_succ _, ?_, rfl, rfl, rfl, rfl, rfl⟩, rfl⟩, rfl⟩
  dsimp only [elapse]
  split
  · exact .inr (.inl rfl)
  · split
    · rename_i ending
      exact .inr (.inr ending.1)
    · exact .inl rfl

theorem quiet_elapse (env : Env) (ha : Ha) : Quiet ha (elapse env ha) :=
  ⟨calm_elapse env ha, rfl, rfl, rfl, rfl, rfl, rfl, rfl⟩

theorem dropped_raced (env : Env) (ha : Ha) (expires : dropped env ha = true) :
    env.raced = true := by
  unfold dropped at expires
  simp only [Bool.and_eq_true] at expires
  exact expires.1

theorem await_quiet : Moves Quiet await :=
  keeps_bind (keeps_change quiet_elapse) fun _ =>
    keeps_bind (keeps_cutIf dropped_raced) fun _ => update_quiet fun _ => rfl

theorem await_calm : Moves Calm await := calm_of_quiet await_quiet

theorem attempt_quiet : Moves Quiet attempt := keeps_bind await_quiet fun _ => answer_quiet _

theorem swapWrite_quiet : Moves Quiet swapWrite := keeps_bind await_quiet fun _ => answer_quiet _

theorem resetSyncCache_quiet : Moves Quiet resetSyncCache := update_quiet fun _ => rfl

theorem writeStandbyConfig_calm : Moves Calm writeStandbyConfig := by
  refine keeps_bind (calm_of_quiet resetSyncCache_quiet) fun _ => keeps_bind await_calm fun _ =>
    keeps_bind (change_calm fun env ha => ?_) fun _ => calm_of_quiet (answer_quiet _)
  cases env.call ha.tick <;> rfl

theorem createRewindCheckMarker_quiet : Moves Quiet createRewindCheckMarker := by
  refine keeps_bind await_quiet fun _ => keeps_bind (change_quiet fun env ha => ?_) fun _ =>
    answer_quiet _
  cases env.call ha.tick <;> rfl

theorem prepareDemotion_calm (rewindCheck : Bool) : Moves Calm (prepareDemotion rewindCheck) := by
  refine keeps_bind
    (keeps_ite (calm_of_quiet createRewindCheckMarker_quiet) (keeps_pure _)) fun marked =>
    keeps_bind writeStandbyConfig_calm fun written => ?_
  cases marked with
  | ok => exact keeps_pure _
  | error => exact keeps_pure _

theorem removeNodeStateFiles_quiet : Moves Quiet removeNodeStateFiles := by
  refine keeps_bind await_quiet fun _ => keeps_bind (change_quiet fun env ha => ?_) fun _ =>
    answer_quiet _
  cases env.call ha.tick <;> rfl

theorem removeDataDirectory_calm : Moves Calm removeDataDirectory := by
  refine keeps_bind (change_calm fun _ _ => rfl) fun _ =>
    keeps_bind (change_calm fun env ha => ?_) fun _ => calm_of_quiet (answer_quiet _)
  cases env.fileCall ha.tick <;> rfl

theorem clearRewindHold_quiet : Moves Quiet clearRewindHold := update_quiet fun _ => rfl

theorem refreshRewindHold_quiet : Moves Quiet refreshRewindHold :=
  keeps_bind (read_quiet _) fun _ =>
    keeps_bind (keeps_ite clearRewindHold_quiet (keeps_pure _)) fun _ => keeps_pure _

theorem reportRewindHold_quiet : Moves Quiet reportRewindHold :=
  keeps_bind await_quiet fun _ => keeps_bind await_quiet fun _ => keeps_pure _

theorem setRole_quiet (role : MemberRole) : Moves Quiet (setRole role) := update_quiet fun _ => rfl

theorem sourceAnswersAsPrimary_quiet : Moves Quiet sourceAnswersAsPrimary :=
  keeps_bind await_quiet fun _ => answer_quiet _

theorem probeSource_quiet (leaderName : Str) : Moves Quiet (probeSource leaderName) :=
  keeps_bind (read_quiet _) fun _ =>
    keeps_ite (keeps_bind sourceAnswersAsPrimary_quiet fun _ => keeps_pure _) (keeps_pure _)

theorem rewind_quiet : Moves Quiet rewind := by
  refine keeps_bind attempt_quiet fun done => ?_
  cases done with
  | ok => exact keeps_pure _
  | error => exact keeps_pure _

theorem basebackup_quiet : Moves Quiet basebackup := by
  refine keeps_bind attempt_quiet fun done => ?_
  cases done with
  | ok => exact keeps_pure _
  | error => exact keeps_pure _

theorem armWatchdog_calm : Moves Calm armWatchdog :=
  keeps_bind (calm_of_quiet (read_quiet _)) fun _ =>
    keeps_bind (calm_of_quiet (read_quiet _)) fun _ =>
    keeps_bind (calm_of_quiet (answer_quiet _)) fun _ => keeps_ite (keeps_pure _)
      (keeps_ite (keeps_bind (change_calm fun _ _ => rfl) fun _ => keeps_pure _)
        (keeps_ite (keeps_pure _) (keeps_pure _)))

theorem finishOverride_quiet : Moves Quiet finishOverride := by
  refine change_quiet fun env ha => ?_
  cases env.fileCall ha.tick <;> rfl

theorem recordOwnTimeline_quiet (own : TimelineId) : Moves Quiet (recordOwnTimeline own) := by
  refine keeps_bind (read_quiet _) fun generation => ?_
  cases generation with
  | error => exact keeps_pure _
  | ok ownGeneration =>
      refine keeps_bind (read_quiet _) fun action => ?_
      cases action with
      | upToDate => exact finishOverride_quiet
      | conflict => exact keeps_pure _
      | write =>
          refine keeps_bind swapWrite_quiet fun written => ?_
          match written with
          | .ok true => exact finishOverride_quiet
          | .ok false => exact keeps_pure _
          | .error _ => exact keeps_pure _

theorem recordClusterTimeline_quiet : Moves Quiet recordClusterTimeline := by
  refine keeps_bind (keeps_bind await_quiet fun _ => answer_quiet _) fun own => ?_
  cases own with
  | ok own => exact recordOwnTimeline_quiet own
  | error => exact keeps_pure _

/-- By induction on the writes that are left. -/
theorem performEffects_quiet (writes : List Effect) : Moves Quiet (performEffects writes) := by
  induction writes with
  | nil => exact keeps_pure _
  | cons write rest ih =>
      cases write with
      | remember => exact keeps_bind (update_quiet fun _ => rfl) fun _ => ih
      | _ =>
          refine keeps_bind attempt_quiet fun written => ?_
          cases written with
          | ok => exact ih
          | error => exact keeps_pure _

theorem enforceSynchronousReplication_quiet : Moves Quiet enforceSynchronousReplication := by
  refine keeps_bind (read_quiet _) fun config => keeps_bind
    (keeps_ite (keeps_bind await_quiet fun _ => answer_quiet _) (keeps_pure _)) fun snapshot => ?_
  cases snapshot with
  | none => exact keeps_pure _
  | some => exact keeps_bind (read_quiet _) fun writes => performEffects_quiet writes

theorem appendPendingHistory_quiet : Moves Quiet appendPendingHistory := by
  refine keeps_bind (read_quiet _) fun _ => keeps_bind (keeps_ask _) fun _ =>
    keeps_ite (keeps_bind attempt_quiet fun appended => ?_) (keeps_pure _)
  cases appended with
  | ok => exact update_quiet fun _ => rfl
  | error => exact keeps_pure _

/-! ### Steps that stop PostgreSQL or observe it again -/

theorem loose_of_calm {Value : Type} {prog : HaProg Value} (calm : Moves Calm prog) :
    Moves Loose prog := keeps_mono calm fun _ _ moved => moved.toLoose

theorem loose_of_quiet {Value : Type} {prog : HaProg Value} (quiet : Moves Quiet prog) :
    Moves Loose prog := loose_of_calm (calm_of_quiet quiet)

theorem drift_of_calm {Value : Type} {prog : HaProg Value} (calm : Moves Calm prog) :
    Moves Drift prog := keeps_mono calm fun _ _ moved => moved.toDrift

theorem forget_loose (ha : Ha) (seen : Option Bool) : Loose ha { ha with inRecovery := seen } :=
  ⟨⟨le_rfl, .inl rfl, rfl, rfl, rfl, rfl, rfl⟩, rfl⟩

theorem noted_calm (ha : Ha) (event : Event) : Calm ha (ha.noted event) := calm_of_core rfl

theorem forget_noted_loose (ha : Ha) (seen : Option Bool) (event : Event) :
    Loose ha (Ha.noted { ha with inRecovery := seen } event) :=
  IsTrans.trans _ _ _ (forget_loose ha seen) (noted_calm _ event).toLoose

theorem observeRecovery_loose : Moves Loose observeRecovery :=
  keeps_bind (loose_of_quiet (read_quiet _)) fun _ =>
    keeps_ite
      (keeps_bind (loose_of_calm await_calm) fun _ =>
        keeps_change fun _ _ => forget_noted_loose _ _ _)
      (keeps_change fun _ _ => forget_loose _ _)

theorem keepalive_calm : Moves Calm keepalive := by
  refine change_calm fun env ha => ?_
  cases ha.watchdogActive <;> rfl

theorem disarm_calm : Moves Calm disarm := by
  refine change_calm fun env ha => ?_
  cases ha.watchdogActive <;> rfl

theorem reconcileWatchdog_loose : Moves Loose reconcileWatchdog := by
  refine keeps_bind (loose_of_quiet (read_quiet _)) fun _ => keeps_ite
    (keeps_bind (loose_of_quiet (read_quiet _)) fun _ =>
      keeps_bind (keeps_ite observeRecovery_loose (keeps_pure _)) fun _ =>
        keeps_bind (keeps_ask _) fun action => ?_) (keeps_pure _)
  cases action with
  | pet => exact loose_of_calm keepalive_calm
  | hold => exact keeps_pure _
  | disarm => exact loose_of_calm disarm_calm

theorem stopped_of_down {ha : Ha} (down : ¬ha.isRunning = true) : ha.server = .stopped := by
  simpa [Ha.isRunning] using down

/-- What a stop leaves, and its events. -/
structure StopRan (site : StopSite) (moment : Moment) (before : Ha) (stopped : Except Str Unit)
    (after : Ha) : Prop where
  loose : Loose before after
  server : stopped = .ok () → after.server = .stopped
  trace : after.trace = .stopEnded site (!stopped.isOk) :: .stop site moment :: before.trace

/-- The state in which `pg_ctl stop` comes back. -/
def stopReturned (site : StopSite) (failed : Bool) (ha : Ha) : Ha :=
  Ha.noted { ha with server := if failed then ha.server else .stopped } (.stopEnded site failed)

theorem stopReturned_loose (site : StopSite) (failed : Bool) (ha : Ha) :
    Loose ha (stopReturned site failed ha) := by
  refine ⟨⟨le_rfl, ?_, rfl, rfl, rfl, rfl, rfl⟩, rfl⟩
  cases failed with
  | true => exact .inl rfl
  | false => exact .inr (.inl rfl)

/-- A stop moves along a relation that its call, its return and waiting move along. -/
theorem stop_carries {env : Env} {ha : Ha} {rel : Ha → Ha → Prop} [IsTrans Ha rel]
    [Std.Refl rel] {site : StopSite}
      (quiet : ∀ before after, Quiet before after → rel before after)
    (calls : rel ha (Ha.noted { ha with inRecovery := none } (.stop site (ha.moment env))))
    (returns : ∀ failed waited, rel waited (stopReturned site failed waited)) :
    Carries rel rel (fun env => env.raced = true) (stop site) env ha
      (fun stopped after => StopRan site (ha.moment env) ha stopped after) := by
  have waits {reached : Ha} : Carries rel rel (fun env => env.raced = true) await env reached
      (fun _ after => Quiet reached after) := carries_of_keeps await_quiet quiet quiet
  unfold stop
  refine carries_change_bind calls ?_
  apply carries_bind waits
  intro _ waited _ first
  have returned (failed : Bool) : Loose ha (stopReturned site failed waited) :=
    IsTrans.trans _ _ _ (IsTrans.trans _ _ _ (forget_noted_loose ha none _) first.toLoose)
      (stopReturned_loose site failed waited)
  have begun : waited.trace = .stop site (ha.moment env) :: ha.trace := first.trace
  apply carries_change_bind
  · cases env.call waited.tick with
    | ok => exact returns false waited
    | error e => exact returns true waited
  cases call : env.call waited.tick with
  | ok =>
      dsimp only
      apply carries_ask_bind
      apply carries_bind waits
      intro _ final _ last
      simp only [noted_tick, call]
      exact carries_pure ⟨IsTrans.trans _ _ _ (returned false) last.toLoose,
        fun _ => stopped_drift last.toDrift rfl, last.trace.trans (congrArg _ begun)⟩
  | error e =>
      dsimp only
      apply carries_ask_bind
      apply carries_bind waits
      intro _ final _ last
      simp only [noted_tick, call]
      refine carries_pure ⟨IsTrans.trans _ _ _ (returned true) last.toLoose, ?_,
        last.trace.trans (congrArg _ begun)⟩
      intro no
      cases no

end PgHa.HaFrames
