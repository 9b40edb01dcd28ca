import PgHa.Lease
import PgHa.PollWait

/-!
`wait_for_expiry` of `pg-ha-core/src/ha/lease.rs`, which the HA cycle is raced against: the
wait on the deadline that the engine publishes, none where there is no lease or the cluster
is paused. A wall clock may jump at any time.
-/

namespace PgHa.LeaseWait

open Transition Watch PollWait Lease

variable (clock : NodeClock) (slack : Nat)

/-- `LEASE_POLL_INTERVAL`. -/
def leasePollInterval : Nat := nanosPerSecond

def remaining (lease : LeaderLease) (real : Nat) : Nat :=
  min (lease.monoDeadline - (clock.origin + real)) (lease.wallDeadline - clock.wall real)

def rules : Rules LeaderLease where
  ended := clock.expired
  left := remaining clock
  poll := leasePollInterval
  slack := slack

def Ended (state : State LeaderLease) : Prop := ∃ instant lease, state.phase = .done instant lease

variable {clock slack} {start : Nat} {deadline : Option LeaderLease} {state : State LeaderLease}

/-- The wait ends only at an instant at which the newest deadline that was published has
passed on one of the clocks. -/
theorem expiry_of_newest
    (path : Reaches (step (rules clock slack)) anyAct (.start start deadline) state)
    {instant : Nat} {lease : LeaderLease} (ended : state.phase = .done instant lease) :
    clock.expired lease instant = true ∧ Newest state.sent instant (some lease) :=
  sound_of_good (good_reaches path) ended

theorem remaining_mono {lease : LeaderLease} {since instant : Nat}
    (passed : lease.monoDeadline ≤ clock.origin + since) (before : instant < since) :
    instant + min (remaining clock lease instant) leasePollInterval ≤ since := by
  have left : remaining clock lease instant ≤ lease.monoDeadline - (clock.origin + instant) :=
    Nat.min_le_left _ _
  omega

/-- A deadline that nothing replaced ends the wait within the scheduler's slack of its
monotonic instant, and within the poll interval more while the wall clock is past its own. -/
theorem expiry_noticed
    (path : Reaches (step (rules clock slack)) anyAct (.start start deadline) state)
    {published : Nat} {lease : LeaderLease} {earlier : List (Nat × Option LeaderLease)}
    (since : Nat)
    (sent : state.sent = (published, some lease) :: earlier) (open_ : state.channel.closed = false)
    (after : published ≤ since) :
    (lease.monoDeadline ≤ clock.origin + since → since + slack < state.now → Ended state) ∧
      ((∀ instant, since ≤ instant → instant ≤ state.now →
        lease.wallDeadline ≤ clock.wall instant) →
        since + leasePollInterval + slack < state.now → Ended state) := by
  have good := good_reaches path
  constructor
  · intro passed late
    apply prompt_of_good since 0 good sent open_ after
    · intro instant reached _
      have ended : lease.monoDeadline ≤ clock.origin + instant := by omega
      simp [rules, NodeClock.expired, LeaderLease.expiredAt, ended]
    · intro instant before
      exact remaining_mono passed before
    · simpa [rules] using late
  · intro passed late
    apply prompt_of_good since leasePollInterval good sent open_ after
    · intro instant reached past
      have ended := passed instant reached past
      simp [rules, NodeClock.expired, LeaderLease.expiredAt, ended]
    · intro instant before
      have short : min ((rules clock slack).left lease instant) (rules clock slack).poll ≤
          leasePollInterval := Nat.min_le_right _ _
      omega
    · simpa [rules] using late

/-- A clock that runs with real time, and a lease of three nanoseconds. -/
def straight : NodeClock := ⟨0, id⟩

def shortLease : LeaderLease := ⟨3, 3⟩

def expired (now : Nat) : State LeaderLease where
  now := now
  channel := .new (some shortLease)
  seen := 0
  phase := .done 3 shortLease
  sent := [(0, some shortLease)]

/-- The wait sleeps until the deadline and looks again. -/
theorem reaches_expired (later : Nat) :
    Reaches (step (rules straight 0)) anyAct (.start 0 (some shortLease))
      (expired (3 + later)) := by
  have asleep : Reaches (step (rules straight 0)) anyAct (.start 0 (some shortLease))
      ⟨0, .new (some shortLease), 0, .asleep 3, [(0, some shortLease)]⟩ :=
    .next .turn .refl trivial rfl
  have due : Reaches (step (rules straight 0)) anyAct (.start 0 (some shortLease))
      ⟨3, .new (some shortLease), 0, .asleep 3, [(0, some shortLease)]⟩ :=
    .next (.elapse 3) asleep trivial rfl
  have ended : Reaches (step (rules straight 0)) anyAct (.start 0 (some shortLease)) (expired 3) :=
    .next .turn due trivial rfl
  exact .next (.elapse later) ended trivial rfl

theorem expiry_of_newest_short :
    straight.expired shortLease 3 = true ∧ Newest (expired 3).sent 3 (some shortLease) :=
  expiry_of_newest (reaches_expired 0) rfl

theorem expiry_noticed_short : Ended (expired 4) :=
  (expiry_noticed (reaches_expired 1) 3 rfl rfl (by decide)).1 (by decide) (by decide)

end PgHa.LeaseWait
