import PgHa.ShutdownSafe

/-!
The watchdog in every run of the engine (W2). It is petted only under a lease of the
leader and disarmed only when PostgreSQL cannot write, so that a fence that hangs ends
in a reset of the machine. The law of each call is kept with the other laws of the call
order; here it is read as what a run may not do.
-/

namespace PgHa.WatchdogRuns

open Text Cluster Identity Interruptible Lease Trace HaState HaHelpers HaCycle HaShutdown
open CallOrder CallSteps CallGates CallRuns PrimaryFenced ShutdownSafe

variable {ha : Ha}

/-- PostgreSQL runs, was not found in recovery since its last start and its last promote,
and is not the standby that a shutdown leaves running. -/
def MayWrite (moment : WatchdogMoment) (before : List Event) : Prop :=
  moment.running = true ∧ lastKnown before ≠ some true ∧
    shutdownOutcome before ≠ some .standbyLeftRunning

/-- PostgreSQL may be writable without a valid lease, outside pause. -/
def Exposed (moment : WatchdogMoment) (before : List Event) : Prop :=
  MayWrite moment before ∧ (moment.isLeader && moment.unexpired) = false ∧ moment.paused = false

/-- W2. Where PostgreSQL is exposed the watchdog is left as it is. -/
structure Disciplined (event : Event) (before : List Event) : Prop where
  pet : ∀ moment, event = .petted moment → PetLaw moment before
  disarm : ∀ moment, event = .disarmed moment → DisarmLaw moment before
  hold : ∀ moment, Exposed moment before → event ≠ .petted moment ∧
    event ≠ .disarmed moment

theorem pet_not_exposed {moment : WatchdogMoment} {before : List Event}
    (law : PetLaw moment before) : ¬Exposed moment before := by
  rintro ⟨_, unleased, _⟩
  rw [law.2.1, law.2.2] at unleased
  cases unleased

theorem disarm_not_exposed {moment : WatchdogMoment} {before : List Event}
    (law : DisarmLaw moment before) : ¬Exposed moment before := by
  rintro ⟨⟨running, unknown, kept⟩, _, unpaused⟩
  rcases law.2 with down | standby | paused | left
  · rw [down] at running
    cases running
  · exact unknown standby
  · rw [paused] at unpaused
    cases unpaused
  · exact kept left

theorem watched_fresh (fresh : ha.trace = []) (unobserved : ha.inRecovery = none)
    (unarmed : ha.watchdogActive = false) : Watched ha := by
  constructor
  · rw [fresh]
    trivial
  · intro inRecovery found
    rw [unobserved] at found
    cases found
  · rw [unarmed, fresh]
    rfl

theorem disciplined_of_law {event : Event} {before : List Event} (law : WatchdogLaw event before) :
    Disciplined event before := by
  constructor
  · rintro moment rfl
    exact law
  · rintro moment rfl
    exact law
  · intro moment exposed
    constructor
    · rintro rfl
      exact pet_not_exposed law exposed
    · rintro rfl
      exact disarm_not_exposed law exposed

/-- An armed watchdog is petted only under a lease of the leader, and disarmed only when
PostgreSQL is down or in recovery, in pause, or when a shutdown leaves a standby running.
So it is neither petted nor disarmed where PostgreSQL may be writable without a valid
lease outside pause, and it is active as long as it is not disarmed. A standby that a
shutdown leaves running was neither started nor promoted since it was found in
recovery. -/
theorem watchdog_stays_armed (steps : List (Method × Env)) (ha : Ha) (fresh : ha.trace = [])
    (unobserved : ha.inRecovery = none) (unarmed : ha.watchdogActive = false) :
    Each Disciplined (run steps ha).trace ∧
      (run steps ha).watchdogActive = armed (run steps ha).trace ∧
      ∀ after, ShutdownRun (run steps ha) .standbyLeftRunning after →
        lastKnown after.trace = some true := by
  have whole : Whole False ha (run steps ha) := run_whole steps fun no => no.elim
  have watched := whole.watched (watched_fresh fresh unobserved unarmed)
  refine ⟨each_mono watched.each fun _ _ => disciplined_of_law, watched.active, ?_⟩
  intro after shutdown
  exact (shutdownRun_winds shutdown).2.known

/-- A signal in the middle of a cycle changes nothing in this. -/
theorem interruptedRun_disciplined (steps rest : List (Method × Env)) (env : Env) (ha : Ha)
    (fresh : ha.trace = []) (unobserved : ha.inRecovery = none)
    (unarmed : ha.watchdogActive = false) :
    Each Disciplined (interruptedRun steps env rest ha).trace ∧
      (interruptedRun steps env rest ha).watchdogActive =
        armed (interruptedRun steps env rest ha).trace := by
  have upright : Upright False ha (interruptedRun steps env rest ha) :=
    interruptedRun_upright steps rest fun no => no.elim
  have watched := upright.watched (watched_fresh fresh unobserved unarmed)
  exact ⟨each_mono watched.each fun _ _ => disciplined_of_law, watched.active⟩

def guardedNode : Ha :=
  { standbyNode with config := { standbyNode.config with watchdogMode := .required } }

def guarded : Env := { quick ['a'] steadyWall with watchdogDevice := fun _ => true }

def isPet : Event → Bool
  | .petted _ => true
  | _ => false

def isDisarm : Event → Bool
  | .disarmed _ => true
  | _ => false

def cycleAndShutdown : List (Method × Env) :=
  [(.runCycleBounded, guarded), (.gracefulShutdown 0, guarded)]

theorem watchdog_stays_armed_untilShutdown :
    (run [(.runCycleBounded, guarded)] guardedNode).watchdogActive = true ∧
      (run [(.runCycleBounded, guarded)] guardedNode).trace.any isPet = true ∧
      (run cycleAndShutdown guardedNode).trace.any isDisarm = true ∧
      Each Disciplined (run cycleAndShutdown guardedNode).trace ∧
      (run cycleAndShutdown guardedNode).watchdogActive =
        armed (run cycleAndShutdown guardedNode).trace := by
  obtain ⟨each, active, _⟩ := watchdog_stays_armed cycleAndShutdown guardedNode rfl rfl rfl
  exact ⟨rfl, rfl, rfl, each, active⟩

end PgHa.WatchdogRuns
