import PgHa.CallRuns

/-!
Deleting the data directory: `handle_reinitialize_command` (commands.rs),
`rejoin_as_replica` and `rebuild_from_leader` (follow.rs). The directory goes only from
under a stopped server, except where a reinitialize ignores that its stop failed.
-/

namespace PgHa.DataRemoval

open Text Cluster Identity Interruptible Trace HaState Election HaHelpers HaFollow HaCycle HaFrames

variable {env : Env} {ha : Ha} {Value Next : Type}

/-! ### The law of a removal -/

def stopEnd : Event → Option Bool
  | .stopEnded _ failed => some failed
  | _ => none

/-- Whether the last stop failed, if there was one. -/
def lastStopFailed (trace : List Event) : Option Bool := trace.findSome? stopEnd

/-- The directory is removed when PostgreSQL does not run or the last stop succeeded. -/
def RemovalLaw : Event → List Event → Prop
  | .removing moment, before => moment.running = false ∨ lastStopFailed before = some false
  | _, _ => True

/-- Each removal of an execution obeys the law; `before` are events of the execution. -/
def Removes (before after : Ha) : Prop :=
  ∃ new, after.trace = new ++ before.trace ∧ Each RemovalLaw new

/-- The three functions as they are entered: `rebuild_from_leader` runs only inside
`rejoin_as_replica`. -/
inductive Execution where
  | reinitializing
  | rejoin (leaderName : Str)

/-- An execution removes lawfully, whether it ends or is dropped. -/
def RemovesLawfully (env : Env) (ha : Ha) : Execution → Prop
  | .reinitializing =>
      Ends handleReinitializeCommand env ha (fun _ after => Removes ha after) (Removes ha)
  | .rejoin leaderName =>
      Ends (rejoinAsReplica leaderName) env ha (fun _ after => Removes ha after) (Removes ha)

/-! ### Steps that remove nothing from under a server -/

/-- A removal only from under a stopped server. -/
def spares : Event → Prop
  | .removing moment => moment.running = false
  | _ => True

def Spares (before after : Ha) : Prop := Appends spares before.trace after.trace

instance : Std.Refl Spares := ⟨fun ha => appends_refl ha.trace⟩

instance : IsTrans Ha Spares := ⟨fun _ _ _ first second => appends_trans first second⟩

/-- A stopped server stays stopped, too. -/
structure Idle (before after : Ha) : Prop where
  spared : Spares before after
  stopped : before.server = .stopped → after.server = .stopped

instance : Std.Refl Idle := ⟨fun ha => ⟨Std.Refl.refl ha, id⟩⟩

instance : IsTrans Ha Idle := ⟨fun _ _ _ first second =>
  ⟨IsTrans.trans _ _ _ first.spared second.spared, second.stopped ∘ first.stopped⟩⟩

theorem each_spared {new : List Event} (all : ∀ event ∈ new, spares event) :
    Each RemovalLaw new := by
  induction new with
  | nil => trivial
  | cons event before ih =>
      constructor
      · have here := all event List.mem_cons_self
        cases event with
        | removing moment => exact .inl here
        | _ => trivial
      · exact ih fun other mem => all other (List.mem_cons_of_mem _ mem)

theorem removes_of_spares {before after : Ha} (spared : Spares before after) :
    Removes before after := by
  obtain ⟨new, trace, all⟩ := spared
  exact ⟨new, trace, each_spared all⟩

theorem idle_of_quiet {after : Ha} (quiet : Quiet ha after) : Idle ha after := by
  constructor
  · rw [Spares, quiet.trace]
    exact appends_refl _
  · exact stopped_drift quiet.toDrift

/-- What a removal law and a stopped server are read from. -/
def berth (ha : Ha) := (ha.server, ha.trace)

theorem idle_of_berth {after : Ha} (same : berth after = berth ha) : Idle ha after := by
  simp only [berth, Prod.mk.injEq] at same
  obtain ⟨server, trace⟩ := same
  constructor
  · rw [Spares, trace]
    exact appends_refl _
  · exact server.trans

theorem idle_noted {after : Ha} (event : Event) (ok : spares event)
    (same : berth after = berth (ha.noted event)) : Idle ha after := by
  have noted : Idle ha (ha.noted event) := ⟨appends_one ha.trace ok, id⟩
  exact IsTrans.trans _ _ _ noted (idle_of_berth same)

theorem quiet_idle {prog : HaProg Value} (quiet : Moves Quiet prog) : Moves Idle prog :=
  keeps_mono quiet fun _ _ => idle_of_quiet

theorem read_idle (field : Ha → Value) : Moves Idle (HaState.read field) := keeps_ask _

theorem writeStandbyConfig_idle : Moves Idle writeStandbyConfig := by
  refine keeps_bind (quiet_idle resetSyncCache_quiet) fun _ => keeps_bind (quiet_idle await_quiet)
    fun _ => keeps_bind (keeps_change fun env ha => ?_) fun _ => keeps_ask _
  cases env.call ha.tick with
  | ok => exact idle_noted (.wroteSignal true) trivial rfl
  | error => exact idle_noted (.wroteSignal false) trivial rfl

theorem prepareDemotion_idle (rewindCheck : Bool) : Moves Idle (prepareDemotion rewindCheck) := by
  refine keeps_bind (keeps_ite (quiet_idle createRewindCheckMarker_quiet) (keeps_pure _))
    fun marked => keeps_bind writeStandbyConfig_idle fun _ => ?_
  cases marked with
  | ok => exact keeps_pure _
  | error => exact keeps_pure _

theorem observeRecovery_idle : Moves Idle observeRecovery :=
  keeps_bind (read_idle _) fun _ => keeps_ite
    (keeps_bind (quiet_idle await_quiet) fun _ => keeps_change fun env ha =>
      idle_noted (.observed (observation env ha)) trivial rfl)
    (keeps_change fun _ _ => idle_of_berth rfl)

theorem keepalive_idle : Moves Idle keepalive := by
  refine keeps_change fun env ha => ?_
  cases ha.watchdogActive with
  | true => exact idle_noted (.petted (ha.watchdogMoment env)) trivial rfl
  | false => exact Std.Refl.refl ha

theorem disarm_idle : Moves Idle disarm := by
  refine keeps_change fun env ha => ?_
  cases ha.watchdogActive with
  | true => exact idle_noted (.disarmed (ha.watchdogMoment env)) trivial rfl
  | false => exact Std.Refl.refl ha

theorem reconcileWatchdog_idle : Moves Idle reconcileWatchdog := by
  refine keeps_bind (read_idle _) fun _ => keeps_ite
    (keeps_bind (read_idle _) fun _ => keeps_bind (keeps_ite observeRecovery_idle (keeps_pure _))
      fun _ => keeps_bind (keeps_ask _) fun action => ?_) (keeps_pure _)
  cases action with
  | pet => exact keepalive_idle
  | hold => exact keeps_pure _
  | disarm => exact disarm_idle

/-- The program removes nothing from under a server, and ends as `post` says. -/
abbrev Idles (prog : HaProg Value) (env : Env) (ha : Ha) (post : Value → Ha → Prop) : Prop :=
  Carries Idle Idle (fun env => env.raced = true) prog env ha post

theorem idles_moves {prog : HaProg Value} (moves : Moves Idle prog) :
    Idles prog env ha (fun _ after => Idle ha after) :=
  carries_of_keeps moves (fun _ _ => id) fun _ _ => id

/-- A stop that succeeded leaves PostgreSQL stopped. -/
def Downs (stopped : Except Str Unit) (after : Ha) : Prop :=
  stopped = .ok () → after.server = .stopped

theorem stop_idles (site : StopSite) : Idles (stop site) env ha Downs := by
  have calls : Idle ha (Ha.noted { ha with inRecovery := none } (.stop site (ha.moment env))) :=
    idle_noted (.stop site (ha.moment env)) trivial rfl
  have returns : ∀ failed waited, Idle waited (stopReturned site failed waited) := by
    intro failed waited
    constructor
    · exact appends_one _ trivial
    · intro stopped
      cases failed with
      | true => exact stopped
      | false => rfl
  exact carries_weaken (stop_carries (fun _ _ => idle_of_quiet) calls returns) fun _ _ _ ran =>
    ran.server

theorem stopPublishing_idles : Idles stopPublishingNotPrimary env ha Downs := by
  unfold stopPublishingNotPrimary
  apply carries_bind (idles_moves (quiet_idle await_quiet))
  intro _ published _ _
  apply carries_bind (stop_idles _)
  intro stopped _ _ downs
  apply carries_bind (idles_moves (quiet_idle await_quiet))
  intro _ again _ idle
  cases stopped with
  | error e =>
      refine carries_change_bind (idle_of_berth rfl) (carries_pure ?_)
      intro no
      cases no
  | ok =>
      have gone : again.server = .stopped := idle.stopped (downs rfl)
      refine carries_change_bind (idle_of_berth rfl) ?_
      apply carries_bind (idles_moves reconcileWatchdog_idle)
      intro _ _ _ looked
      apply carries_bind (idles_moves (quiet_idle await_quiet))
      intro _ _ _ last
      exact carries_pure fun _ => last.stopped (looked.stopped gone)

theorem fencePrimary_idles : Idles fencePrimary env ha Downs := by
  unfold fencePrimary
  apply carries_bind (idles_moves (quiet_idle resetSyncCache_quiet))
  intro _ _ _ _
  apply carries_bind (idles_moves (prepareDemotion_idle true))
  intro _ _ _ _
  exact stopPublishing_idles

/-- Nothing is stopped where PostgreSQL does not run. -/
theorem fenceOrStop_idles (site : StopSite) : Idles (fenceOrStop site) env ha Downs := by
  unfold fenceOrStop
  apply carries_ask_bind
  apply carries_ask_bind
  split
  · rename_i down
    exact carries_pure fun _ => stopped_of_down (by simpa using down)
  · split
    · exact fencePrimary_idles
    · exact stop_idles site

/-! ### Rejoining -/

/-- The program removes only from under a stopped server, and ends as `post` says. -/
abbrev Sparing (prog : HaProg Value) (env : Env) (ha : Ha) (post : Value → Ha → Prop) : Prop :=
  Carries Spares Spares (fun env => env.raced = true) prog env ha post

/-- The program is such from every state. -/
def Gentle (prog : HaProg Value) : Prop := ∀ env ha, Sparing prog env ha fun _ _ => True

theorem sparing_idles {prog : HaProg Value} {post : Value → Ha → Prop}
    (idles : Idles prog env ha post) :
    Sparing prog env ha (fun value after => Idle ha after ∧ post value after) :=
  ends_mono idles (fun _ _ ended => ⟨ended.1.spared, ended⟩) fun _ cut =>
    ⟨cut.1.spared, cut.2⟩

theorem sparing_gentle {prog : HaProg Value} {post : Value → Ha → Prop}
    (sparing : Sparing prog env ha post) : Sparing prog env ha fun _ _ => True :=
  carries_weaken sparing fun _ _ _ _ => trivial

theorem gentle_idles {prog : HaProg Value} {post : Value → Ha → Prop}
    (idles : ∀ env ha, Idles prog env ha post) : Gentle prog :=
  fun env ha => sparing_gentle (sparing_idles (idles env ha))

theorem gentle_moves {prog : HaProg Value} (moves : Moves Idle prog) : Gentle prog :=
  fun _ _ => sparing_gentle (sparing_idles (idles_moves moves))

theorem gentle_quiet {prog : HaProg Value} (quiet : Moves Quiet prog) : Gentle prog :=
  gentle_moves (quiet_idle quiet)

theorem gentle_pure (value : Value) : Gentle (pure value) := fun _ _ => carries_pure trivial

theorem gentle_ask (question : Env → Ha → Value) : Gentle (ask question) := fun _ _ =>
    carries_ask trivial

theorem gentle_bind {prog : HaProg Value} {next : Value → HaProg Next} (first : Gentle prog)
    (rest : ∀ value, Gentle (next value)) : Gentle (prog >>= next) :=
  fun env ha => carries_bind (first env ha) fun value reached _ _ => rest value env reached

theorem gentle_ite {choice : Prop} [Decidable choice] {yes no : HaProg Value} (first : Gentle yes)
    (second : Gentle no) : Gentle (if choice then yes else no) := either first second

theorem gentle_change {next : Env → Ha → Ha} (spared : ∀ env ha, Spares ha (next env ha)) :
    Gentle (change next) := fun env ha => ⟨spared env ha, trivial⟩

theorem gentle_await : Gentle await := gentle_quiet await_quiet

theorem gentle_launch : Gentle launch := by
  refine gentle_change fun env ha => ?_
  split
  · exact appends_refl _
  · exact appends_refl _

/-- By induction on the looks that are left. -/
theorem gentle_pollStarted (looks : Nat) : Gentle (pollStarted looks) := by
  induction looks with
  | zero => exact gentle_pure _
  | succ looks ih =>
      exact gentle_bind gentle_await fun _ => gentle_bind gentle_launch fun _ =>
        gentle_bind (gentle_ask _) fun _ => gentle_ite (gentle_pure _) ih

theorem gentle_start : Gentle start := by
  refine gentle_bind (gentle_ask _) fun _ => gentle_ite (gentle_pure _)
    (gentle_bind (gentle_change fun env ha => appends_one ha.trace trivial) fun _ =>
      gentle_bind gentle_await fun _ => gentle_bind gentle_launch fun _ =>
        gentle_bind (gentle_ask _) fun started => gentle_bind gentle_await fun _ => ?_)
  cases started with
  | error e => exact gentle_pure _
  | ok =>
      exact gentle_bind (gentle_ask _) fun _ => gentle_ite (gentle_pure _) (gentle_pollStarted 10)

/-- A removal from under a stopped server. -/
theorem removeDataDirectory_spares (stopped : ha.server = .stopped) :
    Sparing removeDataDirectory env ha fun _ _ => True := by
  have down : (ha.moment env).running = false := by
    change (ha.server != .stopped) = false
    rw [stopped]
    rfl
  unfold removeDataDirectory
  have removal : Spares ha (ha.noted (.removing (ha.moment env))) := appends_one ha.trace down
  refine carries_change_bind removal ?_
  refine gentle_bind (gentle_change fun env ha => ?_) (fun _ => gentle_ask _) env _
  cases env.fileCall ha.tick with
  | ok => exact appends_one ha.trace trivial
  | error => exact appends_one ha.trace trivial

theorem rebuildFromLeader_spares (stopped : ha.server = .stopped) (leaderName failed : Str) :
    Sparing (rebuildFromLeader leaderName failed) env ha fun _ _ => True := by
  unfold rebuildFromLeader
  apply carries_bind (removeDataDirectory_spares stopped)
  intro removed reached _ _
  cases removed with
  | error re => exact carries_pure trivial
  | ok =>
      refine gentle_bind (gentle_quiet basebackup_quiet) (fun cloned => ?_) env reached
      cases cloned with
      | error be => exact gentle_pure _
      | ok =>
          refine gentle_bind (gentle_quiet removeNodeStateFiles_quiet) fun _ =>
            gentle_bind (gentle_quiet clearRewindHold_quiet) fun _ =>
              gentle_bind (gentle_moves writeStandbyConfig_idle) fun written => ?_
          cases written with
          | error e => exact gentle_pure _
          | ok =>
              refine gentle_bind gentle_start fun started => ?_
              cases started with
              | ok =>
                  exact gentle_bind (gentle_quiet (setRole_quiet _)) fun _ =>
                    gentle_bind gentle_await fun _ => gentle_pure _
              | error e => exact gentle_pure _

theorem gentle_enterRewindHold : Gentle enterRewindHold := by
  refine gentle_bind (gentle_change fun _ _ => appends_refl _) fun _ =>
    gentle_bind gentle_await fun _ =>
    gentle_bind (gentle_change fun env ha => ?_) fun _ =>
      gentle_bind (gentle_idles fun _ _ => fenceOrStop_idles _) fun stopped => ?_
  · cases env.call ha.tick with
    | ok => exact appends_refl _
    | error => exact appends_refl _
  · cases stopped with
    | error e => exact gentle_pure _
    | ok => exact gentle_quiet reportRewindHold_quiet

theorem gentle_holdStopAndReport : Gentle holdStopAndReport := by
  refine gentle_bind (gentle_idles fun _ _ => fenceOrStop_idles _) fun stopped => ?_
  cases stopped with
  | error e => exact gentle_pure _
  | ok => exact gentle_quiet reportRewindHold_quiet

/-- The start failed and PostgreSQL does not run: only then the rebuild removes. -/
theorem gentle_startRejoined (leaderName : Str) (rebuildEnabled : Bool) :
    Gentle (startRejoined leaderName rebuildEnabled) := by
  intro env ha
  unfold startRejoined
  apply carries_bind (gentle_start env ha)
  intro started reached _ _
  apply carries_ask_bind
  have joins : ∀ result : CycleResult, Gentle (do
      setRole .replica
      touchMember
      pure result) := fun result =>
    gentle_bind (gentle_quiet (setRole_quiet _)) fun _ => gentle_bind gentle_await fun _ =>
      gentle_pure _
  cases started with
  | ok =>
      cases reached.isRunning with
      | true => exact joins _ env reached
      | false => exact joins _ env reached
  | error e =>
      cases running : reached.isRunning with
      | true => exact joins _ env reached
      | false =>
          have stopped : reached.server = .stopped := stopped_of_down (by simp [running])
          cases rebuildEnabled with
          | true => exact rebuildFromLeader_spares stopped _ _
          | false => exact gentle_enterRewindHold env reached

theorem rewindAndStart_spares (stopped : ha.server = .stopped) (leaderName : Str)
    (rebuildEnabled : Bool) :
    Sparing (rewindAndStart leaderName rebuildEnabled) env ha fun _ _ => True := by
  unfold rewindAndStart
  apply carries_bind (sparing_idles (idles_moves (quiet_idle sourceAnswersAsPrimary_quiet)))
  intro probe probed _ first
  apply carries_ask_bind
  split
  · exact gentle_bind gentle_await (fun _ => gentle_pure _) env probed
  · apply carries_bind (sparing_idles (idles_moves (quiet_idle rewind_quiet)))
    intro rewound reached _ second
    have still : reached.server = .stopped := second.1.stopped (first.1.stopped stopped)
    cases rewound with
    | error e =>
        cases rebuildEnabled with
        | true => exact rebuildFromLeader_spares still _ _
        | false => exact gentle_enterRewindHold env reached
    | ok =>
        refine gentle_bind (gentle_quiet removeNodeStateFiles_quiet) (fun _ =>
          gentle_bind (gentle_quiet clearRewindHold_quiet) fun _ =>
            gentle_bind (gentle_moves writeStandbyConfig_idle) fun written => ?_)
          env reached
        cases written with
        | error e => exact gentle_pure _
        | ok => exact gentle_startRejoined _ _

theorem gentle_sourceNotReady (leaderName why : Str) : Gentle (sourceNotReady leaderName why) := by
  refine gentle_bind (gentle_ask _) fun identity => gentle_ite
    (gentle_bind (gentle_idles fun _ _ => fencePrimary_idles) fun fenced => ?_)
    (gentle_bind gentle_await fun _ => gentle_pure _)
  cases fenced with
  | error e => exact gentle_pure _
  | ok => exact gentle_pure _

/-- A rejoin removes the directory only from under a stopped server. -/
theorem rejoinAsReplica_spares (leaderName : Str) : Gentle (rejoinAsReplica leaderName) := by
  refine gentle_bind (gentle_ask _) fun rebuildEnabled =>
    gentle_bind (gentle_quiet refreshRewindHold_quiet) fun held =>
      gentle_ite gentle_holdStopAndReport
        (gentle_bind (gentle_quiet (probeSource_quiet _)) fun probed =>
        gentle_bind (gentle_ask _) fun member => gentle_bind (gentle_ask _) fun ready =>
          gentle_ite (gentle_sourceNotReady _ _) ?_)
  cases member with
  | none => exact gentle_pure _
  | some _ =>
      intro env ha
      apply carries_bind (sparing_idles (fenceOrStop_idles _))
      intro stopped reached _ ended
      cases stopped with
      | error e => exact carries_pure trivial
      | ok => exact rewindAndStart_spares (ended.2 rfl) _ _

/-! ### Reinitializing -/

/-- One wait: it is cut, or it only passes time. -/
theorem await_ends {post : Unit → Ha → Prop} {cut : Ha → Prop}
    (drops : dropped env (elapse env ha) = true → cut (elapse env ha))
    (passes : dropped env (elapse env ha) = false →
      post () { elapse env ha with unseen := false }) :
    Ends await env ha post cut := by
  unfold await
  apply ends_change_bind
  exact ends_cutIf_bind drops passes

theorem isRunning_elapse (env : Env) (ha : Ha) :
    (elapse env ha).isRunning = (!env.crashes (ha.tick + 1) && ha.isRunning) := by
  cases crashes : env.crashes (ha.tick + 1) with
  | true => simp [elapse, Ha.isRunning, crashes]
  | false =>
      by_cases ends : ha.server = .recovering ∧ env.endsRecovery (ha.tick + 1) = true
      · have live : (Server.primary != .stopped) = (Server.recovering != .stopped) := rfl
        simpa [elapse, Ha.isRunning, crashes, ends] using live
      · simp [elapse, Ha.isRunning, crashes, ends]

/-- The stop of a reinitialize fails, with a server behind it that still runs, was not found
to be a primary and lasts through both waits of the stop. -/
structure StopIgnored (env : Env) (ha : Ha) : Prop where
  follower : ha.isLeader = false
  running : ha.isRunning = true
  unproven : ha.pgIdentity ≠ .primary
  failed : (env.call (ha.tick + 1)).isOk = false
  survived : env.crashes (ha.tick + 1) = false ∧ env.crashes (ha.tick + 2) = false
  /-- Neither wait is cut. -/
  uncut : dropped env { ha with tick := ha.tick + 1 } = false ∧
    dropped env { ha with tick := ha.tick + 2, unseen := false } = false

/-- The state in which a reinitialize removes, and how its stop ended. -/
structure Reaches (env : Env) (ha : Ha) (stopped : Except Str Unit) (reached : Ha) : Prop where
  trace : reached.trace = [.stopEnded .handleReinitializeCommand (!stopped.isOk),
    .stop .handleReinitializeCommand (ha.moment env)] ++ ha.trace
  called : stopped.isOk = (env.call (ha.tick + 1)).isOk
  down : stopped = .ok () → reached.isRunning = false
  running : stopped.isOk = false → reached.isRunning =
    (!env.crashes (ha.tick + 2) && (!env.crashes (ha.tick + 1) && ha.isRunning))
  uncut : dropped env { ha with tick := ha.tick + 1 } = false ∧
    dropped env { ha with tick := ha.tick + 2, unseen := false } = false

theorem removes_stopped {after : Ha} {events : List Event}
    (trace : after.trace = events ++ ha.trace)
    (none : ∀ event ∈ events, spares event) : Removes ha after :=
      ⟨events, trace, each_spared none⟩

theorem dropped_congr {first second : Ha} (tick : first.tick = second.tick)
    (unseen : first.unseen = second.unseen)
    (deadline : first.fenceDeadline = second.fenceDeadline) :
    dropped env first = dropped env second := by
  have expired : first.expired env = second.expired env := by
    funext lease
    simp only [Ha.expired, tick]
  simp only [dropped, tick, unseen, deadline, expired]

/-- The first wait of the stop has passed. -/
structure Waited (env : Env) (ha waited : Ha) : Prop where
  tick : waited.tick = ha.tick + 1
  unseen : waited.unseen = false
  deadline : waited.fenceDeadline = ha.fenceDeadline
  running : waited.isRunning = (!env.crashes (ha.tick + 1) && ha.isRunning)
  trace : waited.trace = .stop .handleReinitializeCommand (ha.moment env) :: ha.trace
  uncut : dropped env { ha with tick := ha.tick + 1 } = false

/-- A stop that is cut removes nothing, and then is not ignored. -/
abbrev CutShort (env : Env) (ha after : Ha) : Prop := Removes ha after ∧ ¬ StopIgnored env ha

theorem firstWait_ends : Ends await env
    (Ha.noted { ha with inRecovery := none } (.stop .handleReinitializeCommand (ha.moment env)))
    (fun _ after => Waited env ha after) (CutShort env ha) := by
  apply await_ends
  · intro drops
    have only : ∀ event ∈ [Event.stop .handleReinitializeCommand (ha.moment env)],
        spares event := by
      simp [spares]
    refine ⟨removes_stopped rfl only, fun ignored => ?_⟩
    have both : false = true := ignored.uncut.1.symm.trans drops
    cases both
  · intro passes
    exact ⟨rfl, rfl, rfl, isRunning_elapse env _, rfl, passes⟩

theorem secondWait_ends {waited returned : Ha} (first : Waited env ha waited) {failed : Bool}
    (back : returned = stopReturned .handleReinitializeCommand failed waited) :
    Ends await env returned
      (fun _ after => after.trace = [.stopEnded .handleReinitializeCommand failed,
          .stop .handleReinitializeCommand (ha.moment env)] ++ ha.trace ∧
        after.isRunning = (!env.crashes (ha.tick + 2) && returned.isRunning) ∧
        dropped env { ha with tick := ha.tick + 2, unseen := false } = false)
      (CutShort env ha) := by
  have tick : returned.tick = ha.tick + 1 := by
    rw [back]
    exact first.tick
  have trace : returned.trace = [.stopEnded .handleReinitializeCommand failed,
      .stop .handleReinitializeCommand (ha.moment env)] ++ ha.trace := by
    rw [back]
    exact congrArg _ first.trace
  have looks : dropped env (elapse env returned) =
      dropped env { ha with tick := ha.tick + 2, unseen := false } := by
    apply dropped_congr
    · exact congrArg (· + 1) tick
    · rw [back]
      exact first.unseen
    · rw [back]
      exact first.deadline
  apply await_ends
  · intro drops
    have only : ∀ event ∈ [Event.stopEnded .handleReinitializeCommand failed,
        .stop .handleReinitializeCommand (ha.moment env)], spares event := by
      simp [spares]
    refine ⟨removes_stopped trace only, fun ignored => ?_⟩
    rw [looks, ignored.uncut.2] at drops
    cases drops
  · intro passes
    refine ⟨trace, ?_, looks.symm.trans passes⟩
    have running := isRunning_elapse env returned
    rw [tick] at running
    exact running

theorem stop_reaches : Ends (stop .handleReinitializeCommand) env ha (Reaches env ha)
    (CutShort env ha) := by
  unfold stop
  apply ends_change_bind
  apply ends_bind firstWait_ends
  intro _ waited first
  apply ends_change_bind
  cases call : env.call waited.tick with
  | ok =>
      dsimp only
      apply ends_ask_bind
      have back : Ha.noted { waited with server := .stopped }
          (.stopEnded .handleReinitializeCommand false) =
          stopReturned .handleReinitializeCommand false waited := rfl
      apply ends_bind (secondWait_ends first back)
      rintro _ reached ⟨trace, running, uncut⟩
      simp only [noted_tick, call]
      refine ends_pure
        ⟨trace, ?_, fun _ => ?_, (fun failed => by cases failed), first.uncut, uncut⟩
      · rw [← first.tick, call]
      · rw [running]
        exact Bool.and_false _
  | error e =>
      dsimp only
      apply ends_ask_bind
      have back : waited.noted (.stopEnded .handleReinitializeCommand true) =
          stopReturned .handleReinitializeCommand true waited := rfl
      apply ends_bind (secondWait_ends first back)
      rintro _ reached ⟨trace, running, uncut⟩
      simp only [noted_tick, call]
      refine ends_pure ⟨trace, ?_, ?_, fun _ => ?_, first.uncut, uncut⟩
      · rw [← first.tick, call]
        rfl
      · intro no
        cases no
      · rw [running, ← first.running]
        rfl

theorem removeDataDirectory_ends : Ends removeDataDirectory env ha
    (fun _ after => after.trace = .removedSignal :: .removing (ha.moment env) :: ha.trace)
    (fun _ => False) := by
  unfold removeDataDirectory
  apply ends_change_bind
  apply ends_change_bind
  apply ends_ask
  cases env.fileCall (ha.noted (.removing (ha.moment env))).tick with
  | ok => rfl
  | error => rfl

/-- The events of the stop, the newest first. -/
abbrev stopEvents (env : Env) (ha : Ha) (stopped : Except Str Unit) : List Event :=
  [.stopEnded .handleReinitializeCommand (!stopped.isOk),
    .stop .handleReinitializeCommand (ha.moment env)]

/-- A removal after the stop is lawful exactly if the stop was not ignored. -/
theorem removalLaw_iff {stopped : Except Str Unit} {reached : Ha} (follower : ha.isLeader = false)
    (unproven : (ha.isRunning && ha.pgIdentity == .primary) = false)
    (reaches : Reaches env ha stopped reached) :
    RemovalLaw (.removing (reached.moment env)) (stopEvents env ha stopped) ↔
      ¬ StopIgnored env ha := by
  change reached.isRunning = false ∨ some (!stopped.isOk) = some false ↔ _
  constructor
  · rintro lawful ⟨_, running, _, failed, survived, _⟩
    rw [← reaches.called] at failed
    rw [reaches.running failed, survived.1, survived.2, running, failed] at lawful
    simp at lawful
  · intro heeded
    cases ended : stopped.isOk with
    | true => exact .inr rfl
    | false =>
        by_contra unlawful
        rw [not_or, Bool.not_eq_false, reaches.running ended] at unlawful
        simp only [Bool.and_eq_true, Bool.not_eq_true'] at unlawful
        obtain ⟨⟨second, first, running⟩, _⟩ := unlawful
        refine heeded ⟨follower, running, ?_, ?_, ⟨first, second⟩, reaches.uncut⟩
        · simpa [running] using unproven
        · rw [← reaches.called, ended]

/-- Of the events since the reinitialize began only the removal has a law. -/
theorem removes_removal {stopped : Except Str Unit} {reached after : Ha}
    (reaches : Reaches env ha stopped reached)
    (trace : after.trace = .removedSignal :: .removing (reached.moment env) :: reached.trace) :
    Removes ha after ↔
      RemovalLaw (.removing (reached.moment env)) (stopEvents env ha stopped) := by
  rw [reaches.trace] at trace
  constructor
  · rintro ⟨new, whole, each⟩
    rw [trace, ← List.cons_append, ← List.cons_append, List.append_cancel_right_eq] at whole
    rw [← whole] at each
    exact each.2.1
  · intro lawful
    exact ⟨.removedSignal :: .removing (reached.moment env) :: [_, _], trace, trivial,
      lawful, trivial,
      trivial, trivial⟩

theorem reinitializeStopped_ends {stopped : Except Str Unit} {reached : Ha}
    (follower : ha.isLeader = false)
    (unproven : (ha.isRunning && ha.pgIdentity == .primary) = false)
    (reaches : Reaches env ha stopped reached) :
    Ends reinitializeStopped env reached (fun _ after => Removes ha after ↔ ¬ StopIgnored env ha)
      (fun _ => False) := by
  have law := removalLaw_iff follower unproven reaches
  unfold reinitializeStopped
  apply ends_bind removeDataDirectory_ends
  intro answered gone trace
  cases answered with
  | error e => exact ends_pure ((removes_removal reaches trace).trans law)
  | ok => exact ends_change_bind (ends_pure ((removes_removal reaches trace).trans law))

/-- A primary is fenced first, and its directory stays unless that succeeded. -/
theorem reinitialize_fenced (follower : ha.isLeader = false)
    (exposed : (ha.isRunning && ha.pgIdentity == .primary) = true) :
    Sparing handleReinitializeCommand env ha fun _ _ => True := by
  unfold handleReinitializeCommand
  apply carries_ask_bind
  apply carries_ask_bind
  simp only [follower, exposed, Bool.false_eq_true, if_false, if_true]
  apply carries_bind (sparing_idles fencePrimary_idles)
  intro fenced reached _ ended
  cases fenced with
  | error e => exact carries_pure trivial
  | ok =>
      unfold reinitializeStopped
      apply carries_bind (removeDataDirectory_spares (ended.2 rfl))
      intro removed gone _ _
      cases removed with
      | error e => exact carries_pure trivial
      | ok =>
          exact gentle_bind (gentle_quiet clearRewindHold_quiet) (fun _ => gentle_pure _) env gone

theorem reinitialize_ends : Ends handleReinitializeCommand env ha
    (fun _ after => Removes ha after ↔ ¬ StopIgnored env ha) (CutShort env ha) := by
  cases leads : ha.isLeader with
  | true =>
      have spoken : ¬ StopIgnored env ha := by
        intro ignored
        rw [ignored.follower] at leads
        cases leads
      unfold handleReinitializeCommand
      apply ends_ask_bind
      apply ends_ask_bind
      rw [leads]
      exact ends_pure ⟨fun _ => spoken, fun _ => removes_of_spares (Std.Refl.refl ha)⟩
  | false =>
      cases exposed : ha.isRunning && ha.pgIdentity == .primary with
      | true =>
          have heeded : ¬ StopIgnored env ha := by
            intro ignored
            simp only [Bool.and_eq_true, beq_iff_eq] at exposed
            exact ignored.unproven exposed.2
          refine ends_mono (reinitialize_fenced leads exposed) ?_ ?_
          · intro _ after ended
            exact ⟨fun _ => heeded, fun _ => removes_of_spares ended.1⟩
          · intro after cut
            exact ⟨removes_of_spares cut.1, heeded⟩
      | false =>
          unfold handleReinitializeCommand
          apply ends_ask_bind
          apply ends_ask_bind
          simp only [leads, exposed, Bool.false_eq_true, if_false]
          apply ends_bind stop_reaches
          intro stopped reached reaches
          refine ends_mono (reinitializeStopped_ends leads exposed reaches)
            (fun _ _ removes => removes) ?_
          intro _ no
          exact no.elim

theorem unlawful_ignored (ignored : StopIgnored env ha) :
    ¬ RemovesLawfully env ha .reinitializing := by
  intro lawful
  have begun : Ends handleReinitializeCommand env ha (fun _ after => Removes ha after)
      (Removes ha) :=
    lawful
  have both := ends_and begun reinitialize_ends
  obtain ⟨_, _, _, removes, removed⟩ := ends_completes
    (ends_mono both (fun _ _ ended => ended) fun _ cut => cut.2.2 ignored)
  exact removed.mp removes ignored

/-- Every execution removes lawfully, except a reinitialize whose failed stop is ignored. -/
theorem removesLawfully_iff (env : Env) (ha : Ha) (execution : Execution) :
    RemovesLawfully env ha execution ↔
      ¬ (execution = .reinitializing ∧ StopIgnored env ha) := by
  cases execution with
  | rejoin leaderName =>
      have lawful : RemovesLawfully env ha (.rejoin leaderName) :=
        ends_mono (rejoinAsReplica_spares leaderName env ha)
          (fun _ _ ended => removes_of_spares ended.1)
          fun _ cut => removes_of_spares cut.1
      simp [lawful]
  | reinitializing =>
      have runs := @reinitialize_ends env ha
      constructor
      · rintro lawful ⟨_, ignored⟩
        exact unlawful_ignored ignored lawful
      · intro heeded
        have free : ¬ StopIgnored env ha := fun ignored => heeded ⟨rfl, ignored⟩
        exact ends_mono runs (fun _ _ removes => removes.mpr free) fun _ cut => cut.1

/-- A node of which nothing was observed, with a standby running on it. -/
def unobservedNode : Ha :=
  { PrimaryFenced.primaryNode with isLeader := false, inRecovery := none, server := .standby }

/-- Every call fails: the stop, too. -/
def unstoppable : Env :=
  { PrimaryFenced.quick ['b'] PrimaryFenced.steadyWall with call := fun _ => .error ['x'] }

/-- The stop of an unobserved server fails, and its data directory is deleted under it. -/
theorem reinitialize_removes_under_server :
    ¬ RemovesLawfully unstoppable unobservedNode .reinitializing := by
  apply unlawful_ignored
  constructor
  · rfl
  · rfl
  · decide
  · rfl
  · exact ⟨rfl, rfl⟩
  · exact ⟨rfl, rfl⟩

end PgHa.DataRemoval
