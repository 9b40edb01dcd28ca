import PgHa.HaCycle
import PgHa.StaticConfig

/-!
Where accepted timing values are used: the lock TTL in the sum of `apply_set` and in the
deadlines of the leader lease, `loop_wait` as the period of the HA timer. The checks
compare the values with each other; nothing bounds the TTL, and nothing keeps the loop
from being 0. The engine of `HaCycle` takes the TTL of an update as a running node does.
-/

namespace PgHa.TimingUse

open Text Serde StateMachine ConfigTiming StaticConfig Lease Interruptible
open HaState (Ha Env elapse)

/-- A timing that a check let through, with the lock TTL the DCS adapter then uses: the
static values, those `bootstrap.dcs` starts the dynamic configuration with, or an update
of it. -/
inductive Accepted : LeaseTiming → Nat → Prop where
  | static (config : Config) (checked : config.validate = .ok ()) :
      Accepted config.leaseTiming config.ttl
  | bootstrap (config : Config) (dcs : List (Str × Json)) (given : config.bootstrapDcs = some dcs)
      (checked : config.validate = .ok ()) :
      Accepted (config.initialTiming dcs) (max (config.initialTiming dcs).ttl 1)
  | dynamic (current new : GlobalConfig) (base : LeaseTiming)
      (checked : checkLeaseTimingChange current new base = .ok ()) :
      Accepted (new.leaseTiming base) (max (new.leaseTiming base).ttl 1)

/-- `Instant` and `SystemTime` hold their seconds in an `i64`; an addition that leaves it
panics. -/
def Representable (instant : Nat) : Prop := instant / nanosPerSecond < 2 ^ 63

/-- `ha_interval`: the period of the timer, or no timer because a period of 0 panics. -/
def haInterval (loopWait : Nat) : Option Nat := if loopWait = 0 then none else some loopWait

structure UsesSafely (timing : LeaseTiming) (lockTtl : Nat) : Prop where
  expiry : ∀ now < 2 ^ 63, expiry now lockTtl = now + lockTtl * 1000
  lease : ∀ anchor : LeaseAnchor, anchor.mono / nanosPerMilli < 2 ^ 63 →
    anchor.wall / nanosPerMilli < 2 ^ 63 →
      Representable (LeaderLease.new anchor lockTtl timing.safetyMargin).monoDeadline ∧
      Representable (LeaderLease.new anchor lockTtl timing.safetyMargin).wallDeadline
  interval : (haInterval timing.loopWait).isSome = true

theorem expiry_exact_iff (lockTtl : Nat) :
    (∀ now < 2 ^ 63, expiry now lockTtl = now + lockTtl * 1000) ↔
      lockTtl * 1000 ≤ 2 ^ 63 := by
  constructor
  · intro exact
    have last := exact (2 ^ 63 - 1) (by decide)
    simp only [StateMachine.expiry] at last
    omega
  · intro small now below
    simp only [StateMachine.expiry]
    omega

theorem deadline_representable {instant lockTtl margin : Nat} (small : lockTtl * 1000 ≤ 2 ^ 63)
    (below : instant / nanosPerMilli < 2 ^ 63) :
    Representable (instant + (lockTtl - margin) * nanosPerSecond) := by
  simp only [Representable, nanosPerMilli, nanosPerSecond] at *
  omega

theorem accepted_lockTtl {timing : LeaseTiming} {lockTtl : Nat}
    (accepted : Accepted timing lockTtl) :
    lockTtl * 1000 ≤ 2 ^ 63 ↔ timing.ttl * 1000 ≤ 2 ^ 63 := by
  cases accepted with
  | static config _ => exact Iff.rfl
  | bootstrap config dcs _ _ => omega
  | dynamic current new base _ => omega

theorem accepted_timing_safe_iff {timing : LeaseTiming} {lockTtl : Nat}
    (accepted : Accepted timing lockTtl) :
    UsesSafely timing lockTtl ↔ 1 ≤ timing.loopWait ∧ timing.ttl * 1000 ≤ 2 ^ 63 := by
  rw [← accepted_lockTtl accepted]
  constructor
  · intro safe
    refine ⟨?_, (expiry_exact_iff lockTtl).mp safe.expiry⟩
    have timer := safe.interval
    unfold haInterval at timer
    split at timer
    · cases timer
    · omega
  · rintro ⟨waits, small⟩
    refine ⟨(expiry_exact_iff lockTtl).mpr small, ?_, ?_⟩
    · intro anchor mono wall
      exact ⟨deadline_representable small mono, deadline_representable small wall⟩
    · rw [haInterval, if_neg (by omega)]
      rfl

theorem accepted_timing_safe_iff_sample : UsesSafely Config.sample.leaseTiming 30 :=
  (accepted_timing_safe_iff (.static Config.sample rfl)).mpr (by decide)

def busyLoop : Config := { Config.sample with loopWait := 0, bootstrapDcs := none }

def endlessTtl : Config := { Config.sample with ttl := 2 ^ 64 - 1, bootstrapDcs := none }

/-- Both are accepted. The first has no timer, the second an expiry in the past. -/
theorem accepted_timing_unsafe :
    (Accepted busyLoop.leaseTiming 30 ∧ haInterval busyLoop.loopWait = none ∧
      ¬ UsesSafely busyLoop.leaseTiming 30) ∧
    Accepted endlessTtl.leaseTiming (2 ^ 64 - 1) ∧
      expiry 1700000000000 endlessTtl.ttl < 1700000000000 ∧
      ¬ UsesSafely endlessTtl.leaseTiming (2 ^ 64 - 1) := by
  refine ⟨⟨.static busyLoop rfl, rfl, ?_⟩, .static endlessTtl rfl, by decide, ?_⟩
  · intro safe
    exact absurd safe.interval (by decide)
  · intro safe
    exact absurd (safe.expiry 0 (by decide)) (by decide)

/-! ### The engine -/

/-- What the engine reads of `/config`. -/
def engineConfig (config : GlobalConfig) : HaState.GlobalConfig where
  loopWait := config.loopWait
  ttl := config.ttl
  retryTimeout := config.retryTimeout
  maximumLagOnFailover := config.maximumLagOnFailover
  sync := ⟨config.synchronousMode, config.synchronousModeStrict, config.synchronousNodeCount,
    config.maximumLagOnSyncnode⟩
  pause := config.pause
  standbyCluster := config.standbyCluster.map fun cluster => ⟨cluster.host, cluster.port⟩

/-- Both have read the same configuration last, and use the TTL it gives, if it gives one. -/
structure Alike (node : RunningNode) (ha : Ha) : Prop where
  lastConfig : ha.lastConfig = engineConfig node.lastConfig
  ttl : ha.ttl = node.ttl
  used : ∀ ttl, node.lastConfig.ttl = some ttl → node.ttl = ttl

variable {node : RunningNode} {env : Env} {ha : Ha}

theorem alike_started (base : LeaseTiming) (fresh : ha.lastConfig = engineConfig .default)
    (ttl : ha.ttl = base.ttl) : Alike (.started base) ha := by
  refine ⟨fresh, ttl, ?_⟩
  intro _ given
  cases given

/-- The engine compares less of two configurations, but enough for the TTL. -/
theorem applyNewConfig_alike (alike : Alike node ha) (new : GlobalConfig) :
    Alike (processDynamicConfig node new) (HaCycle.applyNewConfig (engineConfig new) ha) := by
  have ttl : (HaCycle.applyNewConfig (engineConfig new) ha).ttl = new.ttl.getD node.ttl := by
    change (if ha.lastConfig = engineConfig new then ha.ttl else new.ttl.getD ha.ttl) = _
    rw [alike.ttl]
    split
    · -- an unchanged configuration is not applied again, and its TTL is in use already
      rename_i same
      have sameTtl : node.lastConfig.ttl = new.ttl :=
        congrArg HaState.GlobalConfig.ttl (alike.lastConfig.symm.trans same)
      cases given : new.ttl with
      | none => rfl
      | some value => exact alike.used value (sameTtl.trans given)
    · rfl
  have taken : (processDynamicConfig node new).ttl = new.ttl.getD node.ttl := by
    cases changed : haParamsChanged node.lastConfig new with
    | true => simp [processDynamicConfig, changed, RunningNode.setLockTiming]
    | false =>
        have same : node.lastConfig.ttl = new.ttl := by
          simp only [haParamsChanged, Bool.or_eq_false_iff, bne_eq_false_iff_eq] at changed
          simp [changed]
        simp only [processDynamicConfig, changed, Bool.false_eq_true, if_false]
        cases given : new.ttl with
        | none => rfl
        | some value => exact alike.used value (same.trans given)
  have last : (processDynamicConfig node new).lastConfig = new := by
    cases changed : haParamsChanged node.lastConfig new <;>
      simp [processDynamicConfig, changed, RunningNode.setLockTiming]
  refine ⟨by rw [last]; rfl, ttl.trans taken.symm, ?_⟩
  intro value given
  rw [last] at given
  rw [taken, given]
  rfl

theorem await_alike (alike : Alike node ha) : Ends HaState.await env ha
    (fun _ after => Alike node after ∧ after.tick = ha.tick + 1) (Alike node) := by
  unfold HaState.await
  apply ends_change_bind
  have elapsed : Alike node (elapse env ha) := ⟨alike.lastConfig, alike.ttl, alike.used⟩
  refine ends_cutIf_bind (fun _ => elapsed) fun _ => ?_
  exact (⟨⟨alike.lastConfig, alike.ttl, alike.used⟩, rfl⟩ :
    Alike node { elapse env ha with unseen := false } ∧ _)

/-- What the DCS answers is read by both alike, also by an engine that is dropped meanwhile. -/
theorem processDynamicConfig_alike (alike : Alike node ha) (answered : Option GlobalConfig)
    (answers : env.globalConfig (ha.tick + 1) = answered.map engineConfig) :
    Ends HaCycle.processDynamicConfig env ha
      (fun _ after => Alike (answered.elim node (processDynamicConfig node)) after)
      (fun after => Alike node after ∨
        Alike (answered.elim node (processDynamicConfig node)) after) := by
  unfold HaCycle.processDynamicConfig
  have waits : Ends HaState.await env ha
      (fun _ after => Alike node after ∧ after.tick = ha.tick + 1)
      (fun after => Alike node after ∨
        Alike (answered.elim node (processDynamicConfig node)) after) :=
    ends_mono (await_alike alike) (fun _ _ ended => ended) fun _ cut => .inl cut
  apply ends_bind waits
  rintro _ reached ⟨still, tick⟩
  apply ends_ask_bind
  rw [tick, answers]
  cases answered with
  | none => exact ends_pure still
  | some new =>
      have read := applyNewConfig_alike still new
      apply ends_change_bind
      apply ends_ask_bind
      split
      · exact ends_mono (await_alike read) (fun _ _ ended => ended.1) fun _ cut => .inr cut
      · exact ends_pure read

end PgHa.TimingUse
