import PgHa.CallOrder

/-!
The steps of `ha/helpers.rs` and `ha/follow.rs` obey the laws of the call order. A
stop or a start is lawful in the state its caller has made ready; the programs around
them are lawful in every state.
-/

namespace PgHa.CallSteps

open Text Cluster Identity Interruptible Lease Trace SyncReplication HaState Election HaHelpers
open HaFollow HaCycle HaFrames CallOrder

variable {gated : Prop} {env : Env} {ha : Ha} {Value Next : Type}

/-- The program obeys the laws from this state, and ends as `post` says. -/
abbrev Ordered (gated : Prop) (prog : HaProg Value) (env : Env) (ha : Ha)
    (post : Value → Ha → Prop) : Prop :=
  Carries (Sound gated) (Orderly gated) (fun env => env.raced = true) prog env ha post

/-- The program obeys the laws from every state. -/
def Tidy (gated : Prop) (prog : HaProg Value) : Prop :=
  ∀ env ha, Ordered gated prog env ha fun _ _ => True

theorem ordered_tidy {prog : HaProg Value} {post : Value → Ha → Prop}
    (ordered : Ordered gated prog env ha post) : Ordered gated prog env ha fun _ _ => True :=
  carries_weaken ordered fun _ _ _ _ => trivial

theorem ordered_quiet {prog : HaProg Value} (quiet : Moves Quiet prog) :
    Ordered gated prog env ha (fun _ after => Quiet ha after) :=
  carries_of_keeps quiet (fun _ _ => sound_of_quiet) fun _ _ moved =>
    (sound_of_quiet moved).toOrderly

theorem tidy_quiet {prog : HaProg Value} (quiet : Moves Quiet prog) : Tidy gated prog :=
  fun _ _ => ordered_tidy (ordered_quiet quiet)

theorem tidy_pure (value : Value) : Tidy gated (pure value) := fun _ _ => carries_pure trivial

theorem tidy_ask (question : Env → Ha → Value) : Tidy gated (ask question) :=
  fun _ _ => carries_ask trivial

theorem tidy_read (field : Ha → Value) : Tidy gated (read field) := tidy_ask _

theorem tidy_answer (answers : Env → Nat → Value) : Tidy gated (answer answers) := tidy_ask _

theorem tidy_bind {prog : HaProg Value} {next : Value → HaProg Next} (first : Tidy gated prog)
    (rest : ∀ value, Tidy gated (next value)) : Tidy gated (prog >>= next) :=
  fun env ha => carries_bind (first env ha) fun value reached _ _ => rest value env reached

theorem tidy_ite {choice : Prop} [Decidable choice] {yes no : HaProg Value}
    (first : Tidy gated yes) (second : Tidy gated no) :
    Tidy gated (if choice then yes else no) := either first second

/-- What the laws and their bookkeeping read. -/
def steady (ha : Ha) := (frame ha, ha.trace, watch ha, ha.stopPending, ha.server)

theorem sound_of_steady {before after : Ha} (same : steady after = steady before) :
    Sound gated before after := by
  simp only [steady, Prod.mk.injEq] at same
  obtain ⟨frame, trace, kept, pending, server⟩ := same
  exact ⟨orderly_silent trace frame (seen_silent trace (Prod.mk.inj kept).1)
    (watched_silent trace kept),
    owed_kept (by rw [trace]) pending fun stopped => server.trans stopped⟩

theorem tidy_change {next : Env → Ha → Ha} (sound : ∀ env ha, Sound gated ha (next env ha)) :
    Tidy gated (change next) := fun env ha => ⟨sound env ha, trivial⟩

theorem tidy_update {next : Ha → Ha} (same : ∀ ha, steady (next ha) = steady ha) :
    Tidy gated (update next) := tidy_change fun _ ha => sound_of_steady (same ha)

theorem tidy_await : Tidy gated await := tidy_quiet await_quiet

theorem tidy_attempt : Tidy gated attempt := tidy_quiet attempt_quiet

theorem tidy_swapWrite : Tidy gated swapWrite := tidy_quiet swapWrite_quiet

theorem tidy_setLeader (isLeader : Bool) : Tidy gated (setLeader isLeader) :=
  tidy_update fun _ => rfl

theorem tidy_publishFenceDeadline : Tidy gated publishFenceDeadline := tidy_update fun _ => rfl

theorem tidy_setLeaderLease (lease : Option LeaderLease) : Tidy gated (setLeaderLease lease) :=
  tidy_bind (tidy_update fun _ => rfl) fun _ => tidy_publishFenceDeadline

/-! ### Writing `standby.signal` -/

/-- A change with a plain event. -/
theorem sound_noted {after : Ha} (event : Event) (clear : plain event = true)
    (same : steady after = steady (ha.noted event)) : Sound gated ha after := by
  simp only [steady, Prod.mk.injEq] at same
  obtain ⟨frame, trace, kept, pending, server⟩ := same
  exact sound_event clear trace frame kept pending server

theorem sound_writeSignal (written : Except Str Unit) (half : Bool) :
    Sound gated ha (writeSignal written half ha) := by
  cases written with
  | ok => exact sound_noted (.wroteSignal true) rfl rfl
  | error => exact sound_noted (.wroteSignal false) rfl rfl

theorem attempted_writeSignal (written : Except Str Unit) (half : Bool) :
    attempted (writeSignal written half ha).trace = true := by
  cases written with
  | ok => rfl
  | error => rfl

theorem writeStandbyConfig_ordered : Ordered gated writeStandbyConfig env ha
    (fun written after => attempted after.trace = true ∧
      (written = .ok () → signalled after.trace = true)) := by
  unfold writeStandbyConfig
  apply carries_bind (tidy_quiet resetSyncCache_quiet env ha)
  intro _ cleared _ _
  apply carries_bind (tidy_await env cleared)
  intro _ waited _ _
  refine carries_change_bind (sound_writeSignal _ _)
    (carries_ask ⟨attempted_writeSignal _ _, ?_⟩)
  intro written
  have called : env.call waited.tick = .ok () := by
    cases call : env.call waited.tick with
    | ok => rfl
    | error e =>
        simp only [call, writeSignal, noted_tick] at written
        cases written
  simp only [called]
  rfl

theorem tidy_createRewindCheckMarker : Tidy gated createRewindCheckMarker :=
  tidy_quiet createRewindCheckMarker_quiet

theorem prepareDemotion_ordered (rewindCheck : Bool) :
    Ordered gated (prepareDemotion rewindCheck) env ha
      (fun _ after => attempted after.trace = true) := by
  unfold prepareDemotion
  apply carries_bind (tidy_ite tidy_createRewindCheckMarker (tidy_pure _) env ha)
  intro marked _ _ _
  apply carries_bind writeStandbyConfig_ordered
  intro written after _ wrote
  cases marked with
  | ok => exact carries_pure wrote.1
  | error e => exact carries_pure wrote.1

theorem prepareStandbyStart_ordered : Ordered gated prepareStandbyStart env ha
    (fun prepared after => prepared = .ok () →
      attempted after.trace = true ∧ signalled after.trace = true) := by
  unfold prepareStandbyStart
  apply carries_bind (tidy_await env ha)
  intro _ waited _ _
  apply carries_ask_bind
  apply carries_bind (tidy_ite tidy_createRewindCheckMarker (tidy_pure _) env waited)
  intro marked checked _ _
  cases marked with
  | error e => exact carries_pure (fun prepared => by cases prepared)
  | ok =>
      apply carries_ask_bind
      have writes : Ordered gated writeStandbyConfig env checked (fun written after =>
          written = .ok () → attempted after.trace = true ∧ signalled after.trace = true) :=
        carries_weaken writeStandbyConfig_ordered fun _ _ _ wrote ok => ⟨wrote.1, wrote.2 ok⟩
      split
      · exact writes
      · exact writes

theorem tidy_removeDataDirectory : Tidy gated removeDataDirectory := by
  refine tidy_bind (tidy_change fun env ha => sound_noted (.removing (ha.moment env)) rfl rfl)
    fun _ =>
    tidy_bind (tidy_change fun env ha => ?_) fun _ => tidy_answer _
  refine sound_noted .removedSignal rfl ?_
  cases env.fileCall ha.tick <;> rfl

/-! ### Observing, stopping and fencing -/

theorem seen_observed (seen : Option Bool) :
    Seen (Ha.noted { ha with inRecovery := seen } (.observed seen)) := by
  intro inRecovery found
  change seen = some inRecovery at found
  rw [found]
  rfl

theorem sound_observed (seen : Option Bool) :
    Sound gated ha (Ha.noted { ha with inRecovery := seen } (.observed seen)) :=
  ⟨orderly_event (.observed seen) rfl rfl rfl (fun _ => seen_observed seen)
    (watched_event rfl rfl rfl (.inr (.inl rfl))) fun _ => trivial, owed_kept rfl rfl id⟩

theorem sound_forget : Sound gated ha { ha with inRecovery := none } :=
  ⟨orderly_silent rfl rfl (fun _ => seen_none rfl) (watched_forgets rfl rfl rfl),
    owed_kept rfl rfl id⟩

/-- The signal that this operation wrote is still there. -/
def Signals (before after : Ha) : Prop :=
  signalled before.trace = true → signalled after.trace = true

theorem signals_trans {first second third : Ha} (begun : Signals first second)
    (ended : Signals second third) : Signals first third := ended ∘ begun

theorem signals_quiet {after : Ha} (quiet : Quiet ha after) : Signals ha after := by
  intro signalled
  rw [quiet.trace]
  exact signalled

theorem signals_event {after : Ha} {event : Event} (within : inside event = true)
    (silent : signalMeaning event = none) (trace : after.trace = event :: ha.trace) :
    Signals ha after := by
  intro written
  rw [trace, signalled, latestSince_silent (isBegan_inside within) silent]
  exact written

theorem observeRecovery_ordered : Ordered gated observeRecovery env ha
    (fun _ after => Signals ha after ∧ Seen after) := by
  unfold observeRecovery
  apply carries_ask_bind
  split
  · apply carries_bind (ordered_quiet await_quiet)
    intro _ waited _ quiet
    exact ⟨sound_observed _, signals_trans (signals_quiet quiet) (signals_event rfl rfl rfl),
      seen_observed _⟩
  · exact ⟨sound_forget, id, seen_none rfl⟩

theorem sound_petted (valid : (ha.isLeader && ha.unexpired env) = true)
    (active : ha.watchdogActive = true) :
    Sound gated ha (ha.noted (.petted (ha.watchdogMoment env))) := by
  rw [Bool.and_eq_true] at valid
  refine ⟨orderly_event (.petted (ha.watchdogMoment env)) rfl rfl rfl (seen_event rfl rfl rfl rfl)
    ?_ fun _ => trivial, owed_kept rfl rfl id⟩
  intro watched
  have law : PetLaw (ha.watchdogMoment env) ha.trace :=
    ⟨watched.active.symm.trans active, valid.1, valid.2⟩
  exact ⟨⟨law, watched.each⟩, watched.known, watched.active⟩

theorem sound_disarmed (active : ha.watchdogActive = true)
    (harmless : Watched ha → ha.isRunning = false ∨ lastKnown ha.trace = some true ∨
      ha.isPaused = true ∨ shutdownOutcome ha.trace = some .standbyLeftRunning) :
    Sound gated ha
      (Ha.noted { ha with watchdogActive := false } (.disarmed (ha.watchdogMoment env))) := by
  refine ⟨orderly_event (.disarmed (ha.watchdogMoment env)) rfl rfl rfl
    (seen_event rfl rfl rfl rfl) ?_ fun _ => trivial, owed_kept rfl rfl id⟩
  intro watched
  have law : DisarmLaw (ha.watchdogMoment env) ha.trace :=
    ⟨watched.active.symm.trans active, harmless watched⟩
  exact ⟨⟨law, watched.each⟩, watched.known, rfl⟩

theorem keepalive_ordered (valid : (ha.isLeader && ha.unexpired env) = true) :
    Ordered gated keepalive env ha (fun _ after => Signals ha after) := by
  cases active : ha.watchdogActive with
  | true =>
      simp only [keepalive, change, Carries, Ends, active, if_true]
      exact ⟨sound_petted valid active, signals_event rfl rfl rfl⟩
  | false =>
      simp only [keepalive, change, Carries, Ends, active]
      exact ⟨Std.Refl.refl ha, id⟩

theorem disarm_ordered
    (harmless : Watched ha → ha.isRunning = false ∨ lastKnown ha.trace = some true ∨
      ha.isPaused = true ∨ shutdownOutcome ha.trace = some .standbyLeftRunning) :
    Ordered gated disarm env ha (fun _ after => Signals ha after) := by
  cases active : ha.watchdogActive with
  | true =>
      simp only [disarm, change, Carries, Ends, active, if_true]
      exact ⟨sound_disarmed active harmless, signals_event rfl rfl rfl⟩
  | false =>
      simp only [disarm, change, Carries, Ends, active]
      exact ⟨Std.Refl.refl ha, id⟩

theorem reconcileWatchdog_ordered : Ordered gated reconcileWatchdog env ha
    (fun _ after => Signals ha after) := by
  unfold reconcileWatchdog
  apply carries_ask_bind
  split
  · apply carries_ask_bind
    have observes : Ordered gated (if ha.isRunning && ha.inRecovery.isNone then observeRecovery
        else pure ()) env ha (fun _ after => Signals ha after) := by
      split
      · exact carries_weaken observeRecovery_ordered fun _ _ _ looked => looked.1
      · exact carries_pure id
    apply carries_bind observes
    intro _ looked _ kept
    apply carries_ask_bind
    split
    · rename_i pets
      exact carries_weaken (keepalive_ordered (watchdogAction_pet pets)) fun _ _ _ same =>
        signals_trans kept same
    · exact carries_pure kept
    · rename_i disarms
      refine carries_weaken (disarm_ordered ?_) fun _ _ _ same => signals_trans kept same
      intro watched
      rcases watchdogAction_disarm disarms with down | standby | paused
      · exact .inl down
      · exact .inr (.inl (watched.known true standby))
      · exact .inr (.inr (.inl paused))
  · exact carries_pure id

theorem tidy_observeRecovery : Tidy gated observeRecovery :=
  fun _ _ => ordered_tidy observeRecovery_ordered

theorem tidy_reconcileWatchdog : Tidy gated reconcileWatchdog :=
  fun _ _ => ordered_tidy reconcileWatchdog_ordered

/-- What a stop leaves. A direct stop that fails leaves nothing pending. -/
structure Stopped (site : StopSite) (before : Ha) (stopped : Except Str Unit) (after : Ha) :
    Prop where
  loose : Loose before after
  observed : lastObserved after.trace = lastObserved before.trace
  signals : Signals before after
  server : stopped = .ok () → after.server = .stopped
  owed : site ≠ .stopPublishingNotPrimary → Owed before → Owed after

theorem stopMeaning_failed {site : StopSite} (direct : site ≠ .stopPublishingNotPrimary) :
    stopMeaning (.stopEnded site true) = none := by
  cases site <;> first | rfl | exact absurd rfl direct

theorem stopOwed_silent {event : Event} {trace : List Event} (silent : stopMeaning event = none) :
    stopOwed (event :: trace) = stopOwed trace := by
  rw [stopOwed, List.findSome?_cons, silent]
  rfl

/-- The events of a stop, on top of the trace it began with. -/
theorem stopped_intro {site : StopSite} {moment : Moment} {stopped : Except Str Unit} {after : Ha}
    (ran : StopRan site moment ha stopped after) : Stopped site ha stopped after := by
  refine ⟨ran.loose, ?_, ?_, ran.server, ?_⟩
  · rw [ran.trace, lastObserved, latestSince_silent rfl rfl, latestSince_silent rfl rfl]
    rfl
  · intro written
    rw [ran.trace, signalled, latestSince_silent rfl rfl, latestSince_silent rfl rfl]
    exact written
  · intro direct owed
    cases stopped with
    | ok => exact fun _ => .inr (ran.server rfl)
    | error e =>
        refine owed_kept ?_ ran.loose.stopPending (stopped_drift ran.loose.toDrift) owed
        rw [ran.trace]
        exact (stopOwed_silent (stopMeaning_failed direct)).trans (stopOwed_silent rfl)

/-- What an orderly wait is, when only the order of the calls matters. -/
theorem await_orderly : Carries (Orderly gated) (Orderly gated) (fun env => env.raced = true) await
    env ha (fun _ after => Quiet ha after) :=
  carries_mono (ordered_quiet await_quiet) (fun _ sound => sound.toOrderly) fun _ part => part

theorem stop_orderly {site : StopSite} (law : StopLaw site (ha.moment env) ha.trace) :
    Carries (Orderly gated) (Orderly gated) (fun env => env.raced = true) (stop site) env ha
      (fun stopped after => Stopped site ha stopped after) := by
  have calls : Orderly gated ha
      (Ha.noted { ha with inRecovery := none } (.stop site (ha.moment env))) :=
    orderly_event (.stop site (ha.moment env)) rfl rfl rfl (fun _ => seen_none rfl)
      (watched_event rfl rfl rfl (.inl rfl)) fun _ => law
  have returns (failed : Bool) (waited : Ha) :
      Orderly gated waited (stopReturned site failed waited) :=
    orderly_event (.stopEnded site failed) rfl rfl rfl (seen_event rfl rfl rfl rfl)
      (watched_event rfl rfl rfl (.inr (.inr ⟨rfl, rfl⟩))) fun _ => trivial
  refine carries_weaken (stop_carries ?_ calls returns) fun _ _ _ ran => stopped_intro ran
  exact fun _ _ quiet => (sound_of_quiet quiet).toOrderly

theorem ordered_owed {prog : HaProg Value} {post : Value → Ha → Prop}
    (carries : Carries (Orderly gated) (Orderly gated) (fun env => env.raced = true) prog env ha
      post)
    (owed : ∀ value after, post value after → Owed ha → Owed after) :
    Ordered gated prog env ha post :=
  ends_mono carries
    (fun value after ended => ⟨⟨ended.1, owed value after ended.2⟩, ended.2⟩)
    fun _ cut => cut

theorem orderly_of_ordered {prog : HaProg Value} {post : Value → Ha → Prop}
    (ordered : Ordered gated prog env ha post) :
    Carries (Orderly gated) (Orderly gated) (fun env => env.raced = true) prog env ha
      (fun value after => Sound gated ha after ∧ post value after) :=
  ends_mono ordered (fun _ _ ended => ⟨ended.1.toOrderly, ended⟩) fun _ cut => cut

theorem stop_ordered {site : StopSite} (direct : site ≠ .stopPublishingNotPrimary)
    (law : StopLaw site (ha.moment env) ha.trace) :
    Ordered gated (stop site) env ha (fun stopped after => Stopped site ha stopped after) :=
  ordered_owed (stop_orderly law) fun _ _ ended => ended.owed direct

/-- Why `stop_publishing_not_primary` may be called. -/
def MayStop (ha : Ha) : Prop :=
  (ha.isLeader = true ∧ (ha.isLockOwner = true ∨ granted ha.trace = true)) ∨
    attempted ha.trace = true ∨ ha.stopPending = true

theorem mayStop_quiet {after : Ha} (quiet : Quiet ha after) (may : MayStop ha) : MayStop after := by
  rw [MayStop, Ha.isLockOwner, quiet.isLeader, quiet.cluster, quiet.config, quiet.trace,
    quiet.stopPending]
  exact may

theorem mayStop_law (may : MayStop ha) :
    StopLaw .stopPublishingNotPrimary (ha.moment env) ha.trace := by
  intro free _ _
  rcases may with ⟨leads, holds⟩ | waits
  · have held : holdsLock (ha.moment env) ha.trace = true := by
      change (ha.isLeader && (ha.isLockOwner || granted ha.trace)) = true
      rw [leads, Bool.true_and, Bool.or_eq_true]
      exact holds
    rw [held] at free
    cases free
  · exact waits

/-- A stop that succeeded left PostgreSQL stopped; a failed one is pending. -/
theorem stopPublishing_ordered (may : MayStop ha) : Ordered gated stopPublishingNotPrimary env ha
    (fun stopped after => Signals ha after ∧ (stopped = .ok () → after.server = .stopped) ∧
      Owed after) := by
  refine ordered_owed ?_ fun _ _ ended _ => ended.2.2
  unfold stopPublishingNotPrimary
  apply carries_bind await_orderly
  intro _ published _ first
  apply carries_bind (stop_orderly (mayStop_law (mayStop_quiet first may)))
  intro stopped down _ halted
  apply carries_bind await_orderly
  intro _ again _ second
  have kept : Signals ha again :=
    signals_trans (signals_quiet first) (signals_trans halted.signals (signals_quiet second))
  cases stopped with
  | error e =>
      refine carries_change_bind (orderly_silent rfl rfl (seen_silent rfl rfl)
        (watched_silent rfl rfl)) ?_
      refine carries_pure ⟨kept, ?_, fun _ => .inl rfl⟩
      intro no
      cases no
  | ok =>
      have stops : again.server = .stopped := stopped_drift second.toDrift (halted.server rfl)
      refine carries_change_bind (orderly_silent rfl rfl (seen_silent rfl rfl)
        (watched_silent rfl rfl)) ?_
      have cleared : Owed { again with stopPending := false } := fun _ => .inr stops
      apply carries_bind (orderly_of_ordered (carries_and reconcileWatchdog_ordered
        (ends_keeps reconcileWatchdog_loose)))
      intro _ reconciled _ third
      apply carries_bind (orderly_of_ordered (ordered_quiet await_quiet))
      intro _ final _ fourth
      refine carries_pure ⟨?_, ?_, ?_⟩
      · exact signals_trans kept (signals_trans third.2.1 (signals_quiet fourth.2))
      · intro _
        exact stopped_drift fourth.2.toDrift (stopped_drift third.2.2.toDrift stops)
      · exact fourth.1.owed (third.1.owed cleared)

theorem stopAfterDemotionWrite_ordered (may : MayStop ha) :
    Ordered gated stopAfterDemotionWrite env ha
      (fun stopped after => Signals ha after ∧ (stopped = .ok () → after.server = .stopped) ∧
        Owed after) := stopPublishing_ordered may

theorem retryPendingStop_ordered (pending : ha.stopPending = true) :
    Ordered gated retryPendingStop env ha (fun _ _ => True) := by
  unfold retryPendingStop
  apply carries_ask_bind
  have stops : Ordered gated stopPublishingNotPrimary env ha (fun _ _ => True) :=
    ordered_tidy (stopPublishing_ordered (.inr (.inr pending)))
  split
  · exact stops
  · exact stops

theorem fencePrimary_ordered : Ordered gated fencePrimary env ha
    (fun _ after => Owed after ∧ attempted after.trace = true) := by
  unfold fencePrimary
  apply carries_bind (tidy_quiet resetSyncCache_quiet env ha)
  intro _ cleared _ _
  apply carries_bind (prepareDemotion_ordered true)
  intro _ prepared _ wrote
  exact carries_weaken (stopAfterDemotionWrite_ordered (.inr (.inl wrote))) fun _ _ moved ended =>
    ⟨ended.2.2, moved.attempted wrote⟩

theorem tidy_fencePrimary : Tidy gated fencePrimary := fun _ _ => ordered_tidy fencePrimary_ordered

/-- Whatever was owed before, the fence pays or is owed itself. -/
theorem fenceForLostLease_ordered : Ordered gated fenceForLostLease env ha
    (fun _ after => Owed after) := by
  unfold fenceForLostLease
  apply carries_bind (tidy_setLeader false env ha)
  intro _ demoted _ _
  apply carries_bind (tidy_setLeaderLease none env demoted)
  intro _ unleased _ _
  apply carries_bind fencePrimary_ordered
  intro stopped fenced _ owed
  apply carries_bind (tidy_quiet (setRole_quiet .replica) env fenced)
  intro _ renamed first _
  apply carries_bind (tidy_reconcileWatchdog env renamed)
  intro _ final second _
  exact carries_pure (second.owed (first.owed owed.1))

theorem tidy_fenceForLostLease : Tidy gated fenceForLostLease :=
  fun _ _ => ordered_tidy fenceForLostLease_ordered

theorem tidy_fenceAtLeaseCheck (step : Str) : Tidy gated (fenceAtLeaseCheck step) :=
  tidy_bind tidy_fenceForLostLease fun _ => tidy_pure _

theorem tidy_deleteLeader : Tidy gated deleteLeader :=
  tidy_bind (tidy_change fun env ha =>
    sound_noted (.deleteLeader (ha.moment env)) rfl rfl)
    fun _ => tidy_swapWrite

theorem tidy_releaseLockAsStandby : Tidy gated releaseLockAsStandby :=
  tidy_bind (tidy_read _) fun _ =>
    tidy_bind (tidy_ite (tidy_bind tidy_deleteLeader fun _ => tidy_pure _) (tidy_pure _)) fun _ =>
      tidy_bind (tidy_setLeader false) fun _ => tidy_bind (tidy_setLeaderLease none) fun _ =>
        tidy_quiet resetSyncCache_quiet

theorem extendLeaderLease_ordered (anchor : LeaseAnchor) :
    Ordered gated (extendLeaderLease anchor) env ha
      (fun _ after => granted after.trace = true ∧ after.isLeader = ha.isLeader) := by
  unfold extendLeaderLease
  apply carries_ask_bind
  apply carries_ask_bind
  refine carries_change_bind
    (sound_noted .lockWritten rfl rfl) ?_
  exact ⟨sound_of_steady rfl, rfl, rfl⟩

theorem tidy_extendLeaderLease (anchor : LeaseAnchor) : Tidy gated (extendLeaderLease anchor) :=
  fun _ _ => ordered_tidy (extendLeaderLease_ordered anchor)

theorem tidy_renewHeldLock : Tidy gated renewHeldLock := by
  refine tidy_bind (tidy_read _) fun owner => tidy_ite ?_ (tidy_pure _)
  refine tidy_bind (tidy_ask _) fun anchor => tidy_bind tidy_swapWrite fun renewed => ?_
  match renewed with
  | .ok true =>
      exact tidy_bind (tidy_setLeader true) fun _ =>
        tidy_bind (tidy_extendLeaderLease anchor) fun _ => tidy_pure _
  | .ok false => exact tidy_bind (tidy_setLeaderLease none) fun _ => tidy_pure _
  | .error e => exact tidy_bind (tidy_setLeaderLease none) fun _ => tidy_pure _

theorem tidy_releaseLeaderLockIfStopped : Tidy gated releaseLeaderLockIfStopped := by
  refine tidy_bind (tidy_read _) fun _ => tidy_bind (tidy_read _) fun _ =>
    tidy_bind (tidy_read _) fun leader => tidy_ite (tidy_pure _) (tidy_ite (tidy_pure _) ?_)
  cases leader with
  | none =>
      exact tidy_bind (tidy_setLeader false) fun _ =>
        tidy_bind (tidy_quiet resetSyncCache_quiet) fun _ => tidy_pure _
  | some name =>
      refine tidy_bind tidy_deleteLeader fun deleted => ?_
      match deleted with
      | .ok true =>
          exact tidy_bind (tidy_setLeader false) fun _ =>
            tidy_bind (tidy_quiet resetSyncCache_quiet) fun _ => tidy_pure _
      | .ok false => exact tidy_pure _
      | .error e => exact tidy_pure _

/-! ### Held nodes -/

/-- A direct stop is lawful for what was not found to be a primary. -/
theorem direct_law {site : StopSite} (chooses : choosesByIdentity site = true)
    (other : ha.pgIdentity ≠ .primary) : StopLaw site (ha.moment env) ha.trace := by
  intro _ _ _
  cases site <;> first | exact other | cases chooses

theorem direct_site {site : StopSite} (chooses : choosesByIdentity site = true) :
    site ≠ .stopPublishingNotPrimary := by
  rintro rfl
  cases chooses

theorem tidy_fenceOrStop {site : StopSite} (chooses : choosesByIdentity site = true) :
    Tidy gated (fenceOrStop site) := by
  intro env ha
  unfold fenceOrStop
  apply carries_ask_bind
  apply carries_ask_bind
  split
  · exact carries_pure trivial
  · split
    · exact tidy_fencePrimary env ha
    · rename_i other
      exact ordered_tidy (stop_ordered (direct_site chooses) (direct_law chooses other))

theorem tidy_stopHeldPostgres : Tidy gated stopHeldPostgres := tidy_fenceOrStop rfl

theorem tidy_enterRewindHold : Tidy gated enterRewindHold := by
  refine tidy_bind (tidy_update fun _ => rfl) fun _ => tidy_bind tidy_await fun _ =>
    tidy_bind (tidy_change fun env ha => sound_of_steady ?_) fun _ =>
      tidy_bind tidy_stopHeldPostgres fun stopped => ?_
  · cases env.call ha.tick <;> rfl
  · cases stopped with
    | ok => exact tidy_quiet reportRewindHold_quiet
    | error e => exact tidy_pure _

theorem tidy_holdStopAndReport : Tidy gated holdStopAndReport := by
  refine tidy_bind tidy_stopHeldPostgres fun stopped => ?_
  cases stopped with
  | ok => exact tidy_quiet reportRewindHold_quiet
  | error e => exact tidy_pure _

/-! ### Starting -/

/-- Why PostgreSQL may be started. -/
def MayStart (ha : Ha) : Prop :=
  signalled ha.trace = true ∨
    (operation ha.trace = some (.command .restart) ∧ ha.isLeader = true ∧
      ha.isLockOwner = true) ∨
    won ha.trace = true

theorem launch_carries :
    Carries (Orderly gated) (Orderly gated) (fun env => env.raced = true) launch
    env ha (fun _ after => after.trace = ha.trace) := by
  refine ⟨orderly_silent ?_ ?_ (seen_silent ?_ ?_) (watched_silent ?_ ?_), ?_⟩
    <;> dsimp only <;> split <;> rfl

/-- By induction on the looks that are left. -/
theorem pollStarted_carries (looks : Nat) :
    Carries (Orderly gated) (Orderly gated) (fun env => env.raced = true) (pollStarted looks) env ha
      (fun _ after => after.trace = ha.trace) := by
  induction looks generalizing ha with
  | zero => exact carries_pure rfl
  | succ looks ih =>
      unfold pollStarted
      apply carries_bind await_orderly
      intro _ waited _ quiet
      apply carries_bind launch_carries
      intro _ launched _ same
      have trace : launched.trace = ha.trace := same.trans quiet.trace
      apply carries_ask_bind
      split
      · exact carries_pure trace
      · exact carries_weaken ih fun _ _ _ still => still.trans trace

theorem start_ordered (may : MayStart ha) : Ordered gated start env ha (fun _ _ => True) := by
  have begins : Carries (Orderly gated) (Orderly gated) (fun env => env.raced = true) start env ha
      (fun _ after => Owed ha → Owed after) := by
    unfold start
    apply carries_ask_bind
    split
    · exact carries_pure id
    · rename_i free
      refine carries_change_bind
        (orderly_event (.start (ha.moment env)) rfl rfl rfl (fun _ => seen_none rfl)
          (watched_event rfl rfl rfl (.inl rfl)) ?_) ?_
      · intro lawful
        refine ⟨?_, may⟩
        cases begun : shutdownBegan ha.trace with
        | false => rfl
        | true => exact absurd (lawful.blocked begun) free
      · have paid {after : Ha} (trace : after.trace = .start (ha.moment env) :: ha.trace) :
            Owed ha → Owed after := by
          intro _ owes
          rw [trace] at owes
          cases owes
        apply carries_bind await_orderly
        intro _ waited _ first
        apply carries_bind launch_carries
        intro _ launched _ second
        apply carries_ask_bind
        apply carries_bind await_orderly
        intro _ ended _ third
        have trace : ended.trace = .start (ha.moment env) :: ha.trace :=
          third.trace.trans (second.trans first.trace)
        split
        · exact carries_pure (paid trace)
        · apply carries_ask_bind
          split
          · exact carries_pure (paid trace)
          · exact carries_weaken (pollStarted_carries 10) fun _ _ _ same => paid (same.trans trace)
  exact ordered_tidy (ordered_owed begins fun _ _ owed => owed)

/-! ### Rejoining and following -/

theorem tidy_rebuildFromLeader (leaderName failed : Str) :
    Tidy gated (rebuildFromLeader leaderName failed) := by
  refine tidy_bind tidy_removeDataDirectory fun removed => ?_
  cases removed with
  | error e => exact tidy_pure _
  | ok =>
      refine tidy_bind (tidy_quiet basebackup_quiet) fun cloned => ?_
      cases cloned with
      | error e => exact tidy_pure _
      | ok =>
          refine tidy_bind (tidy_quiet removeNodeStateFiles_quiet) fun _ =>
            tidy_bind (tidy_quiet clearRewindHold_quiet) fun _ env ha => ?_
          apply carries_bind writeStandbyConfig_ordered
          intro written configured _ wrote
          cases written with
          | error e => exact carries_pure trivial
          | ok =>
              apply carries_bind (start_ordered (.inl (wrote.2 rfl)))
              intro started after _ _
              cases started with
              | error e => exact carries_pure trivial
              | ok =>
                  exact tidy_bind (tidy_quiet (setRole_quiet _))
                    (fun _ => tidy_bind tidy_await fun _ => tidy_pure _) env after

theorem startRejoined_ordered (leaderName : Str) (rebuildEnabled : Bool)
    (ready : signalled ha.trace = true) :
    Ordered gated (startRejoined leaderName rebuildEnabled) env ha (fun _ _ => True) := by
  have reports (result : CycleResult) : Tidy gated (do
      setRole .replica
      touchMember
      pure result) :=
    tidy_bind (tidy_quiet (setRole_quiet _)) fun _ => tidy_bind tidy_await fun _ => tidy_pure _
  unfold startRejoined
  apply carries_bind (start_ordered (.inl ready))
  intro started after _ _
  apply carries_ask_bind
  split
  · exact reports _ env after
  · exact reports _ env after
  · exact reports _ env after
  · exact tidy_ite (tidy_rebuildFromLeader _ _) tidy_enterRewindHold env after

theorem tidy_rewindAndStart (leaderName : Str) (rebuildEnabled : Bool) :
    Tidy gated (rewindAndStart leaderName rebuildEnabled) := by
  refine tidy_bind (tidy_quiet sourceAnswersAsPrimary_quiet) fun _ =>
    tidy_bind (tidy_read _) fun _ =>
    tidy_ite (tidy_bind tidy_await fun _ => tidy_pure _)
      (tidy_bind (tidy_quiet rewind_quiet) fun rewound => ?_)
  cases rewound with
  | error e => exact tidy_ite (tidy_rebuildFromLeader _ _) tidy_enterRewindHold
  | ok =>
      refine tidy_bind (tidy_quiet removeNodeStateFiles_quiet) fun _ =>
        tidy_bind (tidy_quiet clearRewindHold_quiet) fun _ env ha => ?_
      apply carries_bind writeStandbyConfig_ordered
      intro written configured _ wrote
      cases written with
      | error e => exact carries_pure trivial
      | ok => exact startRejoined_ordered leaderName rebuildEnabled (wrote.2 rfl)

theorem tidy_sourceNotReady (leaderName why : Str) :
    Tidy gated (sourceNotReady leaderName why) := by
  refine tidy_bind (tidy_read _) fun _ => tidy_ite (tidy_bind tidy_fencePrimary fun fenced => ?_)
    (tidy_bind tidy_await fun _ => tidy_pure _)
  cases fenced with
  | error e => exact tidy_pure _
  | ok => exact tidy_pure _

theorem tidy_rejoinAsReplica (leaderName : Str) : Tidy gated (rejoinAsReplica leaderName) := by
  refine tidy_bind (tidy_read _) fun _ => tidy_bind (tidy_quiet refreshRewindHold_quiet) fun _ =>
    tidy_ite tidy_holdStopAndReport
      (tidy_bind (tidy_quiet (probeSource_quiet leaderName)) fun probed =>
      tidy_bind (tidy_read _) fun member => tidy_bind (tidy_read _) fun _ =>
        tidy_ite (tidy_sourceNotReady _ _) ?_)
  cases member with
  | none => exact tidy_pure _
  | some member =>
      refine tidy_bind (tidy_fenceOrStop rfl) fun stopped => ?_
      cases stopped with
      | error e => exact tidy_pure _
      | ok => exact tidy_rewindAndStart _ _

theorem tidy_enforceRewindHold : Tidy gated enforceRewindHold := by
  refine tidy_bind (tidy_quiet refreshRewindHold_quiet) fun _ =>
    tidy_bind (tidy_read _) fun leader =>
    tidy_bind (tidy_read _) fun _ => tidy_bind (tidy_read _) fun _ => ?_
  split
  · exact tidy_pure _
  · exact tidy_bind tidy_holdStopAndReport fun _ => tidy_pure _
  · exact tidy_bind (tidy_rejoinAsReplica _) fun _ => tidy_pure _
  -- both ways of waiting for a leader stop PostgreSQL first
  all_goals
    refine tidy_bind tidy_stopHeldPostgres fun stopped => ?_
    cases stopped with
    | error e => exact tidy_pure _
    | ok => exact tidy_bind tidy_await fun _ => tidy_pure _

theorem tidy_enforceGeneration : Tidy gated enforceGeneration := by
  refine tidy_bind (tidy_read _) fun stale => ?_
  cases stale with
  | none => exact tidy_pure _
  | some why =>
      refine tidy_bind tidy_stopHeldPostgres fun stopped => ?_
      cases stopped with
      | error e => exact tidy_pure _
      | ok => exact tidy_bind tidy_await fun _ => tidy_pure _

/-- A standby is stopped with its signal written, and started as it was. -/
theorem tidy_reconfigureReplica : Tidy gated reconfigureReplica := by
  intro env ha
  unfold reconfigureReplica
  apply carries_bind writeStandbyConfig_ordered
  intro written configured _ wrote
  cases written with
  | error e => exact carries_pure trivial
  | ok =>
      apply carries_bind (ordered_quiet await_quiet)
      intro _ waited begun quiet
      apply carries_ask_bind
      apply carries_ask_bind
      apply carries_ask_bind
      have law : StopLaw .reconfigureReplica (waited.moment env) waited.trace :=
        fun _ _ _ => begun.attempted wrote.1
      apply carries_bind (stop_ordered (by decide) law)
      intro stopped after _ halted
      split
      · exact carries_pure trivial
      · cases stopped with
        | error e => exact carries_pure trivial
        | ok =>
            have ready := halted.signals (signals_quiet quiet (wrote.2 rfl))
            exact carries_bind (start_ordered (.inl ready)) fun _ _ _ _ => carries_pure trivial

theorem tidy_fenceUnobserved (retry : Bool) : Tidy gated (fenceUnobserved retry) := by
  intro env ha
  unfold fenceUnobserved
  apply carries_bind (prepareDemotion_ordered false)
  intro written prepared _ wrote
  apply carries_bind (stopAfterDemotionWrite_ordered (.inr (.inl wrote)))
  intro stopped after _ _
  split
  · exact carries_pure trivial
  · exact carries_pure trivial
  · exact carries_pure trivial

theorem tidy_followStandby (upstreamName : Str) : Tidy gated (followStandby upstreamName) :=
  tidy_bind (tidy_quiet (setRole_quiet .replica)) fun _ => tidy_bind (tidy_answer _) fun _ =>
    tidy_bind (tidy_answer _) fun _ => tidy_bind (tidy_read _) fun _ =>
      tidy_bind (tidy_ite tidy_reconfigureReplica (tidy_pure _)) fun _ =>
        tidy_bind tidy_await fun _ => tidy_bind (tidy_read _) fun _ => tidy_pure _

theorem tidy_checkRewind (lockOwner : Str) : Tidy gated (checkRewind lockOwner) :=
  tidy_bind tidy_await fun _ => tidy_bind (tidy_read _) fun _ =>
    tidy_ite (tidy_rejoinAsReplica _) (tidy_pure _)

theorem tidy_actAsFollower (lockOwner : Str) : Tidy gated (actAsFollower lockOwner) := by
  refine tidy_bind (tidy_read _) fun _ => tidy_bind (tidy_read _) fun identity =>
    tidy_bind (tidy_read _) fun retry => tidy_bind (tidy_read _) fun marked => ?_
  cases followerAction identity retry marked with
  | rejoin => exact tidy_rejoinAsReplica _
  | rewindCheck => exact tidy_checkRewind _
  | handOff => exact tidy_bind (tidy_read _) fun _ => tidy_bind tidy_await fun _ => tidy_pure _
  | fence => exact tidy_fenceUnobserved _
  | wait => exact tidy_bind tidy_await fun _ => tidy_pure _
  | follow => exact tidy_followStandby _

theorem tidy_followUpstream (lockOwner : Str) : Tidy gated (followUpstream lockOwner) := by
  refine tidy_bind tidy_enforceGeneration fun stale => ?_
  cases stale with
  | some result => exact tidy_pure _
  | none =>
      refine tidy_bind tidy_enforceRewindHold fun held => ?_
      cases held with
      | some result => exact tidy_pure _
      | none => exact tidy_actAsFollower lockOwner

end PgHa.CallSteps
