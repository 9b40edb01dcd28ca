import Mathlib.Order.Nat
import PgHa.Transition
import PgHa.Watch

/-!
A task that waits until what a watch channel holds is over. It looks at the present value,
sleeps no longer than what is left and no longer than a poll interval, and looks again; a
new value wakes it. Woken, it runs within the slack of the scheduler.
-/

namespace PgHa.PollWait

open Transition Watch

variable {Value : Type}

/-- `ended` and `left` say of a value and an instant whether it is over and what is left. -/
structure Rules (Value : Type) where
  ended : Value → Nat → Bool
  left : Value → Nat → Nat
  poll : Nat
  slack : Nat

inductive Phase (Value : Type) where
  /-- to be run since this instant -/
  | woken (since : Nat)
  | asleep (due : Nat)
  /-- waits for a value -/
  | parked
  | done (at_ : Nat) (value : Value)
  /-- waits for ever -/
  | stranded

/-- `sent` has what was published and when, the newest first. -/
structure State (Value : Type) where
  now : Nat
  channel : Channel (Option Value)
  seen : Nat
  phase : Phase Value
  sent : List (Nat × Option Value)

inductive Act (Value : Type) where
  | elapse (time : Nat)
  | publish (value : Option Value)
  | dropSender
  | turn

def State.start (now : Nat) (value : Option Value) : State Value where
  now := now
  channel := .new value
  seen := 0
  phase := .woken now
  sent := [(now, value)]

/-- The latest instant at which the task is run. -/
def State.limit (rules : Rules Value) (state : State Value) : Option Nat :=
  match state.phase with
  | .woken since => some (since + rules.slack)
  | .asleep due => some (due + rules.slack)
  | .parked | .done _ _ | .stranded => none

def State.elapse (rules : Rules Value) (state : State Value) (time : Nat) : Option (State Value) :=
  if (state.limit rules).all fun limit => decide (state.now + time ≤ limit) then
    some { state with now := state.now + time }
  else none

def State.publish (state : State Value) (value : Option Value) : State Value :=
  { state with
    channel := state.channel.send true value
    phase :=
      match state.phase with
      | .asleep _ | .parked => .woken state.now
      | phase => phase
    sent := (state.now, value) :: state.sent }

/-- A change that fails strands the task. -/
def State.dropSender (state : State Value) : State Value :=
  { state with
    channel := state.channel.dropSender
    phase :=
      match state.phase with
      | .asleep _ | .parked => .stranded
      | phase => phase }

/-- One turn of the loop: the value is marked as seen, and the clocks are read at one instant. -/
def State.look (rules : Rules Value) (state : State Value) : State Value :=
  let waits (phase : Phase Value) := if state.channel.closed then .stranded else phase
  { state with
    seen := state.channel.version
    phase :=
      match state.channel.value with
      | some value =>
          if rules.ended value state.now then .done state.now value
          else waits (.asleep (state.now + min (rules.left value state.now) rules.poll))
      | none => waits .parked }

def State.turn (rules : Rules Value) (state : State Value) : Option (State Value) :=
  match state.phase with
  | .woken _ => some (state.look rules)
  | .asleep due => if due ≤ state.now then some (state.look rules) else none
  | .parked | .done _ _ | .stranded => none

def step (rules : Rules Value) (state : State Value) : Act Value → Option (State Value)
  | .elapse time => state.elapse rules time
  | .publish value => if state.channel.closed then none else some (state.publish value)
  | .dropSender => some state.dropSender
  | .turn => state.turn rules

/-! ### What a run keeps -/

/-- The newest value published by an instant. -/
def Newest (sent : List (Nat × Option Value)) (instant : Nat) (value : Option Value) : Prop :=
  ∃ later published earlier, sent = later ++ (published, value) :: earlier ∧
    published ≤ instant ∧ ∀ entry ∈ later, instant ≤ entry.1

/-- What the phase of a task has come from. -/
def Explained (rules : Rules Value) (state : State Value) (published : Nat) : Phase Value → Prop
  | .woken since => since ≤ published ∧ state.now ≤ since + rules.slack
  | .asleep due =>
      ∃ value looked, state.channel.value = some value ∧ published ≤ looked ∧
        looked ≤ state.now ∧
        rules.ended value looked = false ∧
          due = looked + min (rules.left value looked) rules.poll ∧
        state.now ≤ due + rules.slack
  | .parked => state.channel.value = none
  | .done instant value =>
      instant ≤ state.now ∧ rules.ended value instant = true ∧
        Newest state.sent instant (some value)
  | .stranded => state.channel.closed = true

/-- The head of what was sent is what the channel holds. -/
structure Good (rules : Rules Value) (state : State Value) : Prop where
  ordered : ∀ entry ∈ state.sent, entry.1 ≤ state.now
  newest : ∃ published earlier, state.sent = (published, state.channel.value) :: earlier ∧
    Explained rules state published state.phase

section Run

variable {rules : Rules Value} {state after : State Value}

theorem newest_published {sent : List (Nat × Option Value)} {instant now : Nat}
    {value new : Option Value} (held : Newest sent instant value) (later : instant ≤ now) :
    Newest ((now, new) :: sent) instant value := by
  obtain ⟨rest, published, earlier, split, before, since⟩ := held
  refine ⟨(now, new) :: rest, published, earlier, by rw [split]; rfl, before, ?_⟩
  intro entry member
  rcases List.mem_cons.mp member with rfl | old
  · exact later
  · exact since entry old

theorem good_start (now : Nat) (value : Option Value) : Good rules (.start now value) := by
  refine ⟨?_, now, [], rfl, le_refl now, Nat.le_add_right now rules.slack⟩
  intro entry member
  rw [List.mem_singleton.mp member]
  exact le_refl now

theorem good_elapse {time : Nat} (good : Good rules state)
    (stepped : state.elapse rules time = some after) : Good rules after := by
  unfold State.elapse at stepped
  split at stepped
  · rename_i inTime
    cases stepped
    obtain ⟨published, earlier, sent, explained⟩ := good.newest
    refine ⟨?_, published, earlier, sent, ?_⟩
    · intro entry member
      exact (good.ordered entry member).trans (Nat.le_add_right _ _)
    · dsimp only
      unfold State.limit at inTime
      cases phase : state.phase with
      | woken since =>
          rw [phase] at explained inTime
          exact ⟨explained.1, by simpa using inTime⟩
      | asleep due =>
          rw [phase] at explained inTime
          obtain ⟨value, looked, held, since, past, still, wakes, _⟩ := explained
          exact ⟨value, looked, held, since, past.trans (Nat.le_add_right _ _), still, wakes,
            by simpa using inTime⟩
      | parked =>
          rw [phase] at explained
          exact explained
      | done instant value =>
          rw [phase] at explained
          exact ⟨explained.1.trans (Nat.le_add_right _ _), explained.2⟩
      | stranded =>
          rw [phase] at explained
          exact explained
  · cases stepped

theorem good_publish (good : Good rules state) (value : Option Value) :
    Good rules (state.publish value) := by
  obtain ⟨published, earlier, sent, explained⟩ := good.newest
  have past : published ≤ state.now :=
    good.ordered (published, state.channel.value) (by simp [sent])
  refine ⟨?_, state.now, state.sent, rfl, ?_⟩
  · intro entry member
    rcases List.mem_cons.mp member with rfl | old
    · exact le_refl _
    · exact good.ordered entry old
  · unfold State.publish
    dsimp only
    cases phase : state.phase with
    | woken since =>
        rw [phase] at explained
        exact ⟨explained.1.trans past, explained.2⟩
    | asleep due => exact ⟨le_refl _, Nat.le_add_right _ _⟩
    | parked => exact ⟨le_refl _, Nat.le_add_right _ _⟩
    | done instant value =>
        rw [phase] at explained
        exact ⟨explained.1, explained.2.1, newest_published explained.2.2 explained.1⟩
    | stranded =>
        rw [phase] at explained
        exact (closed_send _ _ _).trans explained

theorem good_dropSender (good : Good rules state) : Good rules state.dropSender := by
  obtain ⟨published, earlier, sent, explained⟩ := good.newest
  refine ⟨good.ordered, published, earlier, sent, ?_⟩
  unfold State.dropSender
  dsimp only
  cases phase : state.phase with
  | woken since =>
      rw [phase] at explained
      exact explained
  | asleep due => rfl
  | parked => rfl
  | done instant value =>
      rw [phase] at explained
      exact explained
  | stranded => rfl

/-- The new phase is explained by the instant of the look. -/
theorem good_look (good : Good rules state) : Good rules (state.look rules) := by
  obtain ⟨published, earlier, sent, _⟩ := good.newest
  have past : published ≤ state.now :=
    good.ordered (published, state.channel.value) (by simp [sent])
  refine ⟨good.ordered, published, earlier, sent, ?_⟩
  unfold State.look
  dsimp only
  cases held : state.channel.value with
  | none =>
      dsimp only
      split
      · assumption
      · exact held
  | some value =>
      dsimp only
      split
      · rename_i ended
        refine ⟨le_refl _, ended, [], published, earlier,
          by rw [← held]; exact sent, past, ?_⟩
        intro entry member
        cases member
      · rename_i still
        split
        · assumption
        · exact ⟨value, state.now, held, past, le_refl _, by simpa using still, rfl,
            (Nat.le_add_right _ _).trans (Nat.le_add_right _ _)⟩

theorem good_step {act : Act Value} (good : Good rules state)
    (stepped : step rules state act = some after) : Good rules after := by
  cases act with
  | elapse time => exact good_elapse good stepped
  | publish value =>
      simp only [step] at stepped
      split at stepped
      · cases stepped
      · cases stepped
        exact good_publish good value
  | dropSender =>
      cases stepped
      exact good_dropSender good
  | turn =>
      simp only [step, State.turn] at stepped
      split at stepped
      · cases stepped
        exact good_look good
      · split at stepped
        · cases stepped
          exact good_look good
        · cases stepped
      · cases stepped
      · cases stepped
      · cases stepped

theorem good_reaches {start : Nat} {value : Option Value}
    {allowed : State Value → Act Value → Prop}
    (path : Reaches (step rules) allowed (.start start value) state) : Good rules state :=
  reaches_invariant (Good rules) (good_start start value)
    (fun _ _ _ good _ stepped => good_step good stepped) path

/-- The task ends only when the newest value it could see was over. -/
theorem sound_of_good (good : Good rules state) {instant : Nat} {value : Value}
    (ended : state.phase = .done instant value) :
    rules.ended value instant = true ∧ Newest state.sent instant (some value) := by
  obtain ⟨_, _, _, explained⟩ := good.newest
  rw [ended] at explained
  exact explained.2

/-- A value that has been over for a sleep has ended the task: its last look was before, and
no sleep begun before goes further than the gap. -/
theorem prompt_of_good (since gap : Nat) (good : Good rules state) {published : Nat} {value : Value}
    {earlier : List (Nat × Option Value)} (sent : state.sent = (published, some value) :: earlier)
    (open_ : state.channel.closed = false) (after : published ≤ since)
    (ended : ∀ instant, since ≤ instant → instant ≤ state.now →
      rules.ended value instant = true)
    (short : ∀ instant, instant < since →
      instant + min (rules.left value instant) rules.poll ≤ since + gap)
    (late : since + gap + rules.slack < state.now) :
    ∃ instant ended, state.phase = .done instant ended := by
  obtain ⟨published', earlier', sent', explained⟩ := good.newest
  rw [sent] at sent'
  obtain ⟨⟨rfl, held⟩, rfl⟩ :
      (published = published' ∧ some value = state.channel.value) ∧
      earlier = earlier' := by simpa using sent'
  cases phase : state.phase with
  | woken woke =>
      rw [phase] at explained
      obtain ⟨before, inTime⟩ := explained
      omega
  | asleep due =>
      rw [phase] at explained
      obtain ⟨other, looked, same, _, past, still, wakes, inTime⟩ := explained
      cases held.trans same
      have early : looked < since := by
        by_contra reached
        rw [ended looked (by omega) past] at still
        cases still
      have bound := short looked early
      omega
  | parked =>
      rw [phase] at explained
      cases held.trans explained
  | done instant ended => exact ⟨instant, ended, rfl⟩
  | stranded =>
      rw [phase] at explained
      cases explained.symm.trans open_

end Run

end PgHa.PollWait
