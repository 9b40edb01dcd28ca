import PgHa.HaFrames
import PgHa.HaShutdown
import PgHa.Trace

/-!
The laws of the order in which pg-ha calls `pg_ctl`: a start needs `standby.signal` or
the lock (D1), a stop of a primary without the lock comes after the signal (D2), and a
promote is gated. The watchdog is petted and disarmed by a law of its own (W2). They are
stated over the events of a run.
-/

namespace PgHa.CallOrder

open Text Cluster Identity Interruptible Lease Trace HaState Election HaHelpers HaFollow HaCycle
open HaFrames HaShutdown

/-! ### Reading a trace -/

def isBegan : Event → Bool
  | .began _ => true
  | _ => false

def operationOf : Event → Option Operation
  | .began operation => some operation
  | _ => none

def operation (trace : List Event) : Option Operation := trace.findSome? operationOf

def signalAttempt : Event → Option Unit
  | .wroteSignal _ => some ()
  | _ => none

/-- This operation tried to write `standby.signal`. -/
def attempted (trace : List Event) : Bool := (latestSince isBegan signalAttempt trace).isSome

def signalMeaning : Event → Option Bool
  | .wroteSignal true => some true
  | .removedSignal | .promoted => some false
  | _ => none

/-- This operation wrote `standby.signal`, and nothing removed it since. -/
def signalled (trace : List Event) : Bool :=
  latestSince isBegan signalMeaning trace == some true

def lockGrant : Event → Option Unit
  | .lockWritten => some ()
  | _ => none

/-- A lock write of this operation was granted. -/
def granted (trace : List Event) : Bool := (latestSince isBegan lockGrant trace).isSome

def initializeWin : Event → Option Unit
  | .wonInitialize => some ()
  | _ => none

/-- This operation won the race for `/initialize`. -/
def won (trace : List Event) : Bool := (latestSince isBegan initializeWin trace).isSome

def observedMeaning : Event → Option (Option Bool)
  | .observed inRecovery => some inRecovery
  | _ => none

def lastObserved (trace : List Event) : Option (Option Bool) :=
  latestSince isBegan observedMeaning trace

def termMeaning : Event → Option (Option PendingPromote)
  | .pendingWritten pending => some (some pending)
  | .lockMissing | .acquiring => some none
  | _ => none

/-- The pending promote written since this node last set out for the lock and since its
last view without the lock. -/
def pendingOfTerm (trace : List Event) : Option PendingPromote :=
  (trace.findSome? termMeaning).join

def shutdownBegan (trace : List Event) : Bool := trace.any (· == .began .gracefulShutdown)

def stopMeaning : Event → Option Bool
  | .stopEnded .stopPublishingNotPrimary true => some true
  | .stopEnded _ false | .start _ => some false
  | _ => none

/-- A demotion stop failed, and no stop succeeded and no server was started since. -/
def stopOwed (trace : List Event) : Bool := (trace.findSome? stopMeaning).getD false

def recoveryMeaning : Event → Option (Option Bool)
  | .observed inRecovery => some inRecovery
  | .start _ | .promote _ => some none
  | _ => none

/-- The last observation, if PostgreSQL was neither started nor promoted since. -/
def lastKnown (trace : List Event) : Option Bool := (trace.findSome? recoveryMeaning).join

def armedMeaning : Event → Option Bool
  | .armed => some true
  | .disarmed _ => some false
  | _ => none

/-- The watchdog was armed, and not disarmed since. -/
def armed (trace : List Event) : Bool := (trace.findSome? armedMeaning).getD false

def outcomeMeaning : Event → Option ShutdownOutcome
  | .concluded outcome => some outcome
  | _ => none

def shutdownOutcome (trace : List Event) : Option ShutdownOutcome :=
  latestSince isBegan outcomeMeaning trace

/-! ### The laws -/

/-- The node is recorded as leader, and its view or a write of this operation gives it
the lock. -/
def holdsLock (moment : Moment) (before : List Event) : Bool :=
  moment.isLeader && (moment.isLockOwner || granted before)

/-- The stops that are direct unless PostgreSQL was found to be a primary. -/
def choosesByIdentity : StopSite → Bool
  | .stopHeldPostgres | .rejoinAsReplica | .handleReinitializeCommand => true
  | _ => false

/-- D2. A stop that may hit a primary without the lock comes after an attempt to write
`standby.signal`, or repeats a stop that is pending. The shutdown stops directly what it
observed in recovery, a restart only under the lock, and three other places what was not
found to be a primary. -/
def StopLaw (site : StopSite) (moment : Moment) (before : List Event) : Prop :=
  holdsLock moment before = false → moment.running = true → moment.recoverySignal = false →
    match site with
    | .stopPublishingNotPrimary => attempted before = true ∨ moment.stopPending = true
    | .reconfigureReplica => attempted before = true
    | .stopObservedPostgresForShutdown => lastObserved before = some (some true)
    | .handleRestartCommand => False
    | .stopHeldPostgres | .rejoinAsReplica | .handleReinitializeCommand =>
        moment.identity ≠ .primary

/-- D1. -/
def StartLaw (moment : Moment) (before : List Event) : Prop :=
  shutdownBegan before = false ∧
    (signalled before = true ∨
      (operation before = some (.command .restart) ∧ moment.isLeader = true ∧
        moment.isLockOwner = true) ∨
      won before = true)

/-- What must hold when `pg_ctl promote` is called. -/
structure PromoteLaw (config : Config) (moment : Moment) (before : List Event) : Prop where
  cycle : operation before = some .cycle
  observed : lastObserved before = some (some true)
  identity : moment.identity = .managedStandby
  leader : moment.isLeader = true
  leased : moment.leaseLost = false
  pending : ∃ pending, pendingOfTerm before = some pending ∧ pending.node = config.name
  watchdog : config.watchdogMode = .required → moment.watchdogActive = true

/-- The law of every event; promotes are judged only where `gated` holds. -/
def Law (gated : Prop) (config : Config) : Event → List Event → Prop
  | .stop site moment, before => StopLaw site moment before
  | .start moment, before => StartLaw moment before
  | .promote moment, before => gated → PromoteLaw config moment before
  | _, _ => True

/-- W2. The watchdog that is petted is armed, and the node is recorded as leader with an
unexpired lease. -/
def PetLaw (moment : WatchdogMoment) (before : List Event) : Prop :=
  armed before = true ∧ moment.isLeader = true ∧ moment.unexpired = true

/-- W2. The watchdog that is disarmed is armed, and PostgreSQL is down or was found in
recovery with no start and no promote since, or the cluster is paused, or the shutdown
leaves a standby running. -/
def DisarmLaw (moment : WatchdogMoment) (before : List Event) : Prop :=
  armed before = true ∧
    (moment.running = false ∨ lastKnown before = some true ∨ moment.paused = true ∨
      shutdownOutcome before = some .standbyLeftRunning)

def WatchdogLaw : Event → List Event → Prop
  | .petted moment, before => PetLaw moment before
  | .disarmed moment, before => DisarmLaw moment before
  | _, _ => True

/-! ### What a step inside an operation leaves alone -/

section Relations

variable {gated : Prop}

/-- The observation the node still goes by is one of this operation. -/
def Seen (ha : Ha) : Prop :=
  ∀ inRecovery, ha.inRecovery = some inRecovery → lastObserved ha.trace = some (some inRecovery)

/-- The observation the node still goes by is older than no start and no promote, and the
flag of the watchdog is what the trace says. -/
structure Watched (ha : Ha) : Prop where
  each : Each WatchdogLaw ha.trace
  known : ∀ inRecovery, ha.inRecovery = some inRecovery → lastKnown ha.trace = some inRecovery
  active : ha.watchdogActive = armed ha.trace

structure Lawful (gated : Prop) (ha : Ha) : Prop where
  each : Each (Law gated ha.config) ha.trace
  blocked : shutdownBegan ha.trace = true → ha.startsBlocked = true

/-- A step inside one operation and one lock term whose calls obey the laws. -/
structure Orderly (gated : Prop) (before after : Ha) : Prop where
  config : after.config = before.config
  cluster : after.cluster = before.cluster
  promotePending : after.promotePending = before.promotePending
  operation : operation after.trace = operation before.trace
  term : pendingOfTerm after.trace = pendingOfTerm before.trace
  attempted : attempted before.trace = true → attempted after.trace = true
  granted : granted before.trace = true → granted after.trace = true
  won : won before.trace = true → won after.trace = true
  seen : Seen before → Seen after
  lawful : Lawful gated before → Lawful gated after
  watched : Watched before → Watched after

/-- A demotion stop that failed is pending, unless PostgreSQL is gone. -/
def Owed (ha : Ha) : Prop :=
  stopOwed ha.trace = true → ha.stopPending = true ∨ ha.server = .stopped

structure Sound (gated : Prop) (before after : Ha) : Prop extends Orderly gated before after where
  owed : Owed before → Owed after

instance : Std.Refl (Orderly gated) :=
  ⟨fun _ => ⟨rfl, rfl, rfl, rfl, rfl, id, id, id, id, id, id⟩⟩

instance : IsTrans Ha (Orderly gated) := ⟨fun _ _ _ first second =>
  ⟨second.config.trans first.config, second.cluster.trans first.cluster,
    second.promotePending.trans first.promotePending, second.operation.trans first.operation,
    second.term.trans first.term, second.attempted ∘ first.attempted,
    second.granted ∘ first.granted, second.won ∘ first.won, second.seen ∘ first.seen,
    second.lawful ∘ first.lawful, second.watched ∘ first.watched⟩⟩

instance : Std.Refl (Sound gated) := ⟨fun ha => ⟨Std.Refl.refl ha, id⟩⟩

instance : IsTrans Ha (Sound gated) := ⟨fun _ _ _ first second =>
  ⟨IsTrans.trans _ _ _ first.toOrderly second.toOrderly, second.owed ∘ first.owed⟩⟩

instance : Trans (Sound gated) (Orderly gated) (Orderly gated) :=
  ⟨fun first second => IsTrans.trans _ _ _ first.toOrderly second⟩

/-- Events that neither begin an operation nor end a lock term. -/
def inside : Event → Bool
  | .began _ | .promote _ | .lockMissing | .acquiring | .pendingWritten _ => false
  | _ => true

/-- The fields no step inside an operation changes. -/
def frame (ha : Ha) := (ha.config, ha.cluster, ha.promotePending, ha.startsBlocked)

theorem isBegan_inside {event : Event} (within : inside event = true) : isBegan event = false := by
  cases event <;> first | rfl | cases within

theorem seen_none {ha : Ha} (none : ha.inRecovery = none) : Seen ha := by
  intro inRecovery some
  rw [none] at some
  cases some

theorem seen_silent {before after : Ha} (trace : after.trace = before.trace)
    (kept : after.inRecovery = before.inRecovery) (seen : Seen before) : Seen after := by
  intro inRecovery some
  rw [trace]
  exact seen inRecovery (kept.symm.trans some)

theorem seen_event {before after : Ha} {event : Event}
    (trace : after.trace = event :: before.trace) (within : inside event = true)
    (silent : observedMeaning event = none) (kept : after.inRecovery = before.inRecovery)
    (seen : Seen before) : Seen after := by
  intro inRecovery some
  rw [trace, lastObserved, latestSince_silent (isBegan_inside within) silent]
  exact seen inRecovery (kept.symm.trans some)

def watch (ha : Ha) := (ha.inRecovery, ha.watchdogActive)

theorem watched_silent {before after : Ha} (trace : after.trace = before.trace)
    (kept : watch after = watch before) (watched : Watched before) : Watched after := by
  simp only [watch, Prod.mk.injEq] at kept
  constructor
  · rw [trace]
    exact watched.each
  · intro inRecovery some
    rw [trace]
    exact watched.known inRecovery (kept.1.symm.trans some)
  · rw [trace, kept.2]
    exact watched.active

theorem watched_forgets {before after : Ha} (trace : after.trace = before.trace)
    (none : after.inRecovery = none) (kept : after.watchdogActive = before.watchdogActive)
    (watched : Watched before) : Watched after := by
  constructor
  · rw [trace]
    exact watched.each
  · intro inRecovery some
    rw [none] at some
    cases some
  · rw [trace, kept]
    exact watched.active

theorem armed_silent {event : Event} {trace : List Event} (silent : armedMeaning event = none) :
    armed (event :: trace) = armed trace := by
  rw [armed, List.findSome?_cons, silent]
  rfl

theorem lastKnown_silent {event : Event} {trace : List Event}
    (silent : recoveryMeaning event = none) : lastKnown (event :: trace) = lastKnown trace := by
  rw [lastKnown, List.findSome?_cons, silent]
  rfl

def ofWatchdog : Event → Bool
  | .armed | .petted _ | .disarmed _ => true
  | _ => false

/-- An event that is none of the watchdog's, with an observation that is forgotten, kept or
the event itself. -/
theorem watched_event {before after : Ha} {event : Event}
    (trace : after.trace = event :: before.trace) (other : ofWatchdog event = false)
    (kept : after.watchdogActive = before.watchdogActive)
    (known : after.inRecovery = none ∨ event = .observed after.inRecovery ∨
      (recoveryMeaning event = none ∧ after.inRecovery = before.inRecovery))
    (watched : Watched before) : Watched after := by
  have free : WatchdogLaw event before.trace := by cases event <;> trivial
  have unarmed : armedMeaning event = none := by cases event <;> first | rfl | cases other
  constructor
  · rw [trace]
    exact ⟨free, watched.each⟩
  · intro inRecovery found
    rw [trace]
    rcases known with none | rfl | ⟨silent, same⟩
    · rw [none] at found
      cases found
    · rw [found]
      rfl
    · rw [lastKnown_silent silent]
      exact watched.known inRecovery (same.symm.trans found)
  · rw [trace, armed_silent unarmed, kept]
    exact watched.active

theorem orderly_silent {before after : Ha} (trace : after.trace = before.trace)
    (same : frame after = frame before) (seen : Seen before → Seen after)
    (watched : Watched before → Watched after) : Orderly gated before after := by
  simp only [frame, Prod.mk.injEq] at same
  obtain ⟨config, cluster, pending, blocked⟩ := same
  refine ⟨config, cluster, pending, ?_, ?_, ?_, ?_, ?_, seen, ?_, watched⟩
  · rw [trace]
  · rw [trace]
  · rw [trace]
    exact id
  · rw [trace]
    exact id
  · rw [trace]
    exact id
  · intro lawful
    constructor
    · rw [trace, config]
      exact lawful.each
    · rw [trace, blocked]
      exact lawful.blocked

theorem orderly_event {before after : Ha} (event : Event) (within : inside event = true)
    (trace : after.trace = event :: before.trace) (same : frame after = frame before)
    (seen : Seen before → Seen after) (watched : Watched before → Watched after)
    (law : Lawful gated before → Law gated before.config event before.trace) :
    Orderly gated before after := by
  have unmarked := isBegan_inside within
  have unasked : operationOf event = none := by cases event <;> first | rfl | cases within
  have untermed : termMeaning event = none := by cases event <;> first | rfl | cases within
  have unbegun : (event == .began .gracefulShutdown) = false := by
    cases event <;> first | rfl | cases within
  simp only [frame, Prod.mk.injEq] at same
  obtain ⟨config, cluster, pending, blocked⟩ := same
  refine ⟨config, cluster, pending, ?_, ?_, ?_, ?_, ?_, seen, ?_, watched⟩
  · rw [trace, operation, List.findSome?_cons, unasked]
    rfl
  · rw [trace, pendingOfTerm, List.findSome?_cons, untermed]
    rfl
  · rw [trace]
    exact latestSince_mono unmarked
  · rw [trace]
    exact latestSince_mono unmarked
  · rw [trace]
    exact latestSince_mono unmarked
  · intro lawful
    constructor
    · rw [trace, config]
      exact ⟨law lawful, lawful.each⟩
    · rw [trace, shutdownBegan, List.any_cons, unbegun, Bool.false_or, blocked]
      exact lawful.blocked

theorem owed_kept {before after : Ha} (owes : stopOwed after.trace = stopOwed before.trace)
    (pending : after.stopPending = before.stopPending)
    (stopped : before.server = .stopped → after.server = .stopped) (owed : Owed before) :
    Owed after := by
  intro still
  rcases owed (owes.symm.trans still) with waits | gone
  · exact .inl (pending.trans waits)
  · exact .inr (stopped gone)

theorem sound_of_quiet {before after : Ha} (quiet : Quiet before after) :
    Sound gated before after := by
  refine ⟨orderly_silent quiet.trace ?_ (seen_silent quiet.trace quiet.inRecovery)
    (watched_silent quiet.trace ?_), ?_⟩
  · rw [frame, frame, quiet.config, quiet.cluster, quiet.promotePending, quiet.startsBlocked]
  · rw [watch, watch, quiet.inRecovery, quiet.watchdogActive]
  · exact owed_kept (by rw [quiet.trace]) quiet.stopPending (stopped_drift quiet.toDrift)

/-- Events that no law and no bookkeeping but that of signals and grants speaks of. -/
def plain : Event → Bool
  | .wroteSignal _ | .removing _ | .removedSignal | .lockWritten | .deleteLeader _
  | .wonInitialize | .concluded _ => true
  | _ => false

/-- A plain event, with a change that stays clear of what the laws speak of. -/
theorem sound_event {before after : Ha} {event : Event} (clear : plain event = true)
    (trace : after.trace = event :: before.trace) (same : frame after = frame before)
    (kept : watch after = watch before) (pending : after.stopPending = before.stopPending)
    (server : after.server = before.server) : Sound gated before after := by
  have within : inside event = true := by cases event <;> first | rfl | cases clear
  have free : ∀ config trace, Law gated config event trace := by
    cases event <;> first | exact fun _ _ => trivial | cases clear
  have unobserved : observedMeaning event = none := by cases event <;> first | rfl | cases clear
  have unknown : recoveryMeaning event = none := by cases event <;> first | rfl | cases clear
  have other : ofWatchdog event = false := by cases event <;> first | rfl | cases clear
  have unstopped : stopMeaning event = none := by cases event <;> first | rfl | cases clear
  simp only [watch, Prod.mk.injEq] at kept
  refine ⟨orderly_event event within trace same (seen_event trace within unobserved kept.1)
    (watched_event trace other kept.2 (.inr (.inr ⟨unknown, kept.1⟩))) (fun _ => free _ _),
      ?_⟩
  refine owed_kept ?_ pending (fun stopped => server.trans stopped)
  rw [trace, stopOwed, List.findSome?_cons, unstopped]
  rfl

end Relations

end PgHa.CallOrder
