import PgHa.Transition
import PgHa.Watch

/-!
The loop in which a session waits for the shutdown signal of its backend, on a channel
that is sent a list of values and then loses its sender or falls silent.
-/

namespace PgHa.SessionMonitor

open Transition Watch

/-- `changed` has returned where `woken`, and `borrow` is next. -/
structure Monitor where
  seen : Nat
  woken : Bool
  deriving DecidableEq

/-- One call of the loop in `handle_connection`: none while `changed` waits, and
`some none` once the loop is left. -/
def Monitor.step (monitor : Monitor) (channel : Channel Bool) : Option (Option Monitor) :=
  if monitor.woken then
    if channel.value then some none else some (some ⟨monitor.seen, false⟩)
  else
    match channel.changed monitor.seen with
    | none => none
    -- `.ok()`: an error is dropped, and the value read all the same
    | some (_, seen) => some (some ⟨seen, true⟩)

structure Watched where
  channel : Channel Bool
  sends : List Bool
  dropping : Bool
  monitor : Option Monitor

inductive Event where
  | send
  | drop
  | turn

/-- The session holds its receiver, so a value that is sent is kept. -/
def Watched.step (state : Watched) : Event → Option Watched
  | .send =>
      match state.sends with
      | [] => none
      | value :: rest => some { state with channel := state.channel.send true value, sends := rest }
  | .drop =>
      if state.sends = [] ∧ state.dropping = true then
        some { state with channel := state.channel.dropSender, dropping := false }
      else none
  | .turn =>
      match state.monitor with
      | none => none
      | some monitor =>
          (monitor.step state.channel).map fun monitor => { state with monitor := monitor }

/-- A session that subscribes, and what its channel is sent afterwards. -/
def Watched.start (value : Bool) (version : Nat) (sends : List Bool) (dropping : Bool) :
    Watched where
  channel := ⟨value, version, false⟩
  sends := sends
  dropping := dropping
  monitor := some ⟨version, false⟩

/-- No value is newer than the one seen, and the sender is there. -/
def Watched.Waits (state : Watched) : Prop :=
  ∃ monitor, state.monitor = some monitor ∧ monitor.woken = false ∧
    state.channel.version = monitor.seen ∧ state.channel.closed = false

/-- Every run ends, with the loop left or waiting for what has not happened. -/
def Progresses (start : Watched) : Prop :=
  Terminates Watched.step start ∧ ∀ state, Reaches Watched.step anyAct start state →
    (∀ event, state.step event = none) → state.monitor = none ∨ state.Waits

def Watched.last (state : Watched) : Bool := (state.channel.value :: state.sends).getLast (by simp)

/-! ### The loop stops -/

theorem stuck_waits {state : Watched} (stuck : ∀ event, state.step event = none) :
    state.monitor = none ∨ state.Waits := by
  cases monitored : state.monitor with
  | none => exact .inl rfl
  | some monitor =>
      right
      have still := stuck .turn
      simp only [Watched.step, monitored, Option.map_eq_none_iff] at still
      unfold Monitor.step at still
      split at still
      · split at still
        · cases still
        · cases still
      · rename_i asleep
        split at still
        · rename_i waiting
          exact ⟨monitor, monitored, by simpa using asleep, changed_waits.mp waiting⟩
        · cases still

/-- A sender that is gone, or will be, leaves the value that ends the loop. -/
structure Signals (state : Watched) : Prop where
  closed : state.channel.closed = true →
    state.sends = [] ∧ state.dropping = false ∧ state.channel.value = true
  dropping : state.dropping = true → state.last = true

def monitorRank (channel : Channel Bool) : Option Monitor → Nat
  | none => 0
  | some monitor =>
      if channel.closed then if monitor.woken then 1 else 2
      else 1 + (if monitor.woken then 1 else 0) + (if channel.version = monitor.seen then 0 else 2)

def rank (state : Watched) : Nat :=
  5 * state.sends.length + (if state.dropping then 5 else 0) +
    monitorRank state.channel state.monitor

theorem monitorRank_le (channel : Channel Bool) (monitor : Option Monitor) :
    monitorRank channel monitor ≤ 4 := by
  unfold monitorRank
  split
  · omega
  · split <;> split <;> try split
    all_goals omega

/-- A call of the loop lowers the rank, unless the sender is gone and left a false value. -/
theorem monitor_step_rank {monitor : Monitor} {channel : Channel Bool} {after : Option Monitor}
    (stepped : monitor.step channel = some after)
    (signals : channel.closed = true → channel.value = true) :
    monitorRank channel after < monitorRank channel (some monitor) := by
  unfold Monitor.step at stepped
  split at stepped
  · rename_i woken
    split at stepped
    · cases stepped
      by_cases closed : channel.closed = true
      · simp [monitorRank, woken, closed]
      · simp only [monitorRank, closed, woken, Bool.false_eq_true, if_false, if_true]
        omega
    · rename_i cleared
      cases stepped
      have opened : channel.closed = false := by
        by_contra closed
        exact cleared (signals (by simpa using closed))
      simp only [monitorRank, woken, opened, Bool.false_eq_true, if_false, if_true]
      omega
  · rename_i asleep
    split at stepped
    · cases stepped
    · rename_i result seen changed
      cases stepped
      have current := changed_seen changed
      subst current
      by_cases closed : channel.closed = true
      · simp [monitorRank, asleep, closed]
      · have newer : channel.version ≠ monitor.seen := by
          intro same
          rw [changed_waits.mpr ⟨same, by simpa using closed⟩] at changed
          cases changed
        simp [monitorRank, asleep, closed, newer]

theorem step_signals {before after : Watched} {event : Event} (signals : Signals before)
    (stepped : before.step event = some after) : Signals after := by
  cases event with
  | send =>
      cases pending : before.sends with
      | nil => simp [Watched.step, pending] at stepped
      | cons value rest =>
          simp only [Watched.step, pending, Option.some.injEq] at stepped
          subst stepped
          constructor
          · intro closed
            have none := (signals.closed (by simpa [Channel.send] using closed)).1
            rw [pending] at none
            cases none
          · intro dropping
            simpa [Watched.last, pending, Channel.send] using signals.dropping dropping
  | drop =>
      simp only [Watched.step] at stepped
      split at stepped
      · rename_i due
        cases stepped
        constructor
        · intro _
          have last := signals.dropping due.2
          simp only [Watched.last, due.1, List.getLast_singleton] at last
          exact ⟨due.1, rfl, last⟩
        · intro dropping
          cases dropping
      · cases stepped
  | turn =>
      simp only [Watched.step] at stepped
      split at stepped
      · cases stepped
      · obtain ⟨monitor, _, same⟩ := Option.map_eq_some_iff.mp stepped
        subst same
        exact ⟨signals.closed, signals.dropping⟩

theorem step_rank {before after : Watched} {event : Event} (signals : Signals before)
    (stepped : before.step event = some after) : rank after < rank before := by
  cases event with
  | send =>
      cases pending : before.sends with
      | nil => simp [Watched.step, pending] at stepped
      | cons value rest =>
          simp only [Watched.step, pending, Option.some.injEq] at stepped
          subst stepped
          have bound := monitorRank_le (before.channel.send true value) before.monitor
          simp only [rank, pending, List.length_cons]
          omega
  | drop =>
      simp only [Watched.step] at stepped
      split at stepped
      · rename_i due
        cases stepped
        have bound := monitorRank_le before.channel.dropSender before.monitor
        simp only [rank, due.2, Bool.false_eq_true, if_false, if_true]
        omega
      · cases stepped
  | turn =>
      simp only [Watched.step] at stepped
      split at stepped
      · cases stepped
      · rename_i monitor monitored
        obtain ⟨next, turned, same⟩ := Option.map_eq_some_iff.mp stepped
        subst same
        have falls := monitor_step_rank turned fun closed => (signals.closed closed).2.2
        simp only [rank, monitored]
        omega

/-! ### The loop does not stop -/

/-- The sender is gone and left a false value. -/
structure Spins (state : Watched) : Prop where
  closed : state.channel.closed = true
  cleared : state.channel.value = false
  monitored : state.monitor.isSome = true

theorem spins_on {state : Watched} (spins : Spins state) :
    ∃ event after, state.step event = some after ∧ Spins after := by
  obtain ⟨monitor, monitored⟩ := Option.isSome_iff_exists.mp spins.monitored
  cases woken : monitor.woken with
  | true =>
      refine ⟨.turn, { state with monitor := some ⟨monitor.seen, false⟩ }, ?_,
        ⟨spins.closed, spins.cleared, rfl⟩⟩
      simp [Watched.step, monitored, Monitor.step, woken, spins.cleared]
  | false =>
      cases changed : state.channel.changed monitor.seen with
      | none =>
          have opened := (changed_waits.mp changed).2
          rw [spins.closed] at opened
          cases opened
      | some found =>
          refine ⟨.turn, { state with monitor := some ⟨found.2, true⟩ }, ?_,
            ⟨spins.closed, spins.cleared, rfl⟩⟩
          simp [Watched.step, monitored, Monitor.step, woken, changed]

/-- Everything is sent, and the sender dropped, before the loop takes a turn. -/
theorem reaches_dropped (sends : List Bool) (state : Watched) (pending : state.sends = sends)
    (dropping : state.dropping = true) :
    ∃ after, Reaches Watched.step anyAct state after ∧ after.channel.closed = true ∧
      after.channel.value = state.last ∧ after.monitor = state.monitor := by
  induction sends generalizing state with
  | nil =>
      have dropped : state.step .drop =
          some { state with channel := state.channel.dropSender, dropping := false } := by
        simp [Watched.step, pending, dropping]
      exact ⟨_, .next .drop .refl trivial dropped, rfl,
        by simp [Watched.last, pending, Channel.dropSender], rfl⟩
  | cons value rest ih =>
      have sent : state.step .send =
          some { state with channel := state.channel.send true value, sends := rest } := by
        simp [Watched.step, pending]
      obtain ⟨after, path, closed, last, same⟩ :=
        ih { state with channel := state.channel.send true value, sends := rest } rfl dropping
      refine ⟨after, reaches_trans (.next .send .refl trivial sent) path, closed, ?_, same⟩
      rw [last]
      simp [Watched.last, pending, Channel.send]

/-- From every value at the subscription, whatever is sent afterwards: the loop makes progress
if and only if a sender that is dropped leaves a true value. -/
theorem monitor_progresses_iff (value : Bool) (version : Nat) (sends : List Bool)
    (dropping : Bool) :
    Progresses (.start value version sends dropping) ↔
      (dropping = true → (value :: sends).getLast (by simp) = true) := by
  constructor
  · rintro ⟨ends, _⟩ dropped
    by_contra cleared
    obtain ⟨after, path, closed, last, same⟩ :=
      reaches_dropped sends (.start value version sends dropping) rfl dropped
    have spins : Spins after := by
      constructor
      · exact closed
      · rw [last]
        simpa [Watched.last, Watched.start] using cleared
      · rw [same]
        rfl
    exact not_terminates_of_stays Spins (fun _ => spins_on) spins (terminates_along path ends)
  · intro signals
    constructor
    · have initial : Signals (.start value version sends dropping) := by
        constructor
        · intro closed
          cases closed
        · exact signals
      exact terminates_of_rank Signals rank (fun _ _ _ => step_signals)
        (fun _ _ _ => step_rank) initial
    · exact fun _ _ => stuck_waits

/-- A backend that leaves the cluster without having been marked down. -/
theorem removed_backend_spins : ¬ Progresses (.start false 0 [] true) := by
  rintro ⟨ends, _⟩
  have dropped : Reaches Watched.step anyAct (.start false 0 [] true)
      ⟨⟨false, 0, true⟩, [], false, some ⟨0, false⟩⟩ := .next .drop .refl trivial rfl
  exact not_terminates_of_stays Spins (fun _ => spins_on) ⟨rfl, rfl, rfl⟩
    (terminates_along dropped ends)

end PgHa.SessionMonitor
