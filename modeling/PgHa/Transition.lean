import Mathlib.Tactic.ByContra

/-!
Runs of a partial step function. An action carries every choice of the
environment, so a step is a function and a run is a list of actions. `Reaches`
keeps the actions that a side condition `allowed` admits in the state before
them; the unrestricted system is the one where every action is allowed.
-/

namespace PgHa.Transition

variable {State Act : Type}

inductive Reaches (step : State → Act → Option State) (allowed : State → Act → Prop)
    (start : State) : State → Prop where
  | refl : Reaches step allowed start start
  | next {before after : State} (act : Act) :
      Reaches step allowed start before → allowed before act →
      step before act = some after → Reaches step allowed start after

/-- No action is excluded. -/
def anyAct (_ : State) (_ : Act) : Prop := True

instance (state : State) (act : Act) : Decidable (anyAct state act) :=
  inferInstanceAs (Decidable True)

/-- What holds at the start and is kept by every allowed step holds wherever
allowed steps lead. -/
theorem reaches_invariant {step : State → Act → Option State}
    {allowed : State → Act → Prop} {start state : State} (Inv : State → Prop)
    (initial : Inv start)
    (kept : ∀ before act after, Inv before → allowed before act →
      step before act = some after → Inv after)
    (path : Reaches step allowed start state) : Inv state := by
  induction path with
  | refl => exact initial
  | next act _ admitted stepped ih => exact kept _ act _ ih admitted stepped

/-- Fewer runs are allowed under a stronger side condition. -/
theorem reaches_weaken {step : State → Act → Option State}
    {allowed weaker : State → Act → Prop} {start state : State}
    (implied : ∀ before act, allowed before act → weaker before act)
    (path : Reaches step allowed start state) : Reaches step weaker start state := by
  induction path with
  | refl => exact .refl
  | next act _ admitted stepped ih => exact .next act ih (implied _ act admitted) stepped

theorem reaches_trans {step : State → Act → Option State}
    {allowed : State → Act → Prop} {start middle finish : State}
    (first : Reaches step allowed start middle)
    (second : Reaches step allowed middle finish) :
    Reaches step allowed start finish := by
  induction second with
  | refl => exact first
  | next act _ admitted stepped ih => exact .next act ih admitted stepped

/-- Plays a list of actions and stops at the first one that is not allowed or
has no successor. -/
def play (step : State → Act → Option State) (allowed : State → Act → Prop)
    [∀ state act, Decidable (allowed state act)] : State → List Act → Option State
  | state, [] => some state
  | state, act :: rest =>
      if allowed state act then
        match step state act with
        | some after => play step allowed after rest
        | none => none
      else none

theorem play_reaches {step : State → Act → Option State}
    {allowed : State → Act → Prop} [∀ state act, Decidable (allowed state act)]
    {start finish : State} {acts : List Act}
    (played : play step allowed start acts = some finish) :
    Reaches step allowed start finish := by
  induction acts generalizing start with
  | nil =>
      simp only [play, Option.some.injEq] at played
      subst finish
      exact .refl
  | cons act rest ih =>
      simp only [play] at played
      split at played
      · rename_i admitted
        cases stepped : step start act with
        | none => simp [stepped] at played
        | some after =>
            simp only [stepped] at played
            exact reaches_trans (.next act .refl admitted stepped) (ih played)
      · cases played

/-- A play that ends in a state with a checked property reaches such a state. -/
theorem play_exhibits {step : State → Act → Option State}
    {allowed : State → Act → Prop} [∀ state act, Decidable (allowed state act)]
    {start : State} {acts : List Act} {check : State → Bool}
    (played : (play step allowed start acts).map check = some true) :
    ∃ finish, Reaches step allowed start finish ∧ check finish = true := by
  cases ended : play step allowed start acts with
  | none => simp [ended] at played
  | some finish =>
      simp only [ended, Option.map_some, Option.some.injEq] at played
      exact ⟨finish, play_reaches ended, played⟩

/-! ### Runs that end -/

/-- No run goes on for ever. -/
def Terminates (step : State → Act → Option State) (start : State) : Prop :=
  Acc (fun after before => ∃ act, step before act = some after) start

/-- By a rank that every step lowers while an invariant holds. -/
theorem terminates_of_rank {step : State → Act → Option State} {start : State}
    (Inv : State → Prop)
    (rank : State → Nat)
    (kept : ∀ before act after, Inv before → step before act = some after → Inv after)
    (falls : ∀ before act after, Inv before → step before act = some after →
      rank after < rank before)
    (initial : Inv start) : Terminates step start := by
  induction size : rank start using Nat.strongRecOn generalizing start with
  | ind size ih =>
      constructor
      rintro after ⟨act, stepped⟩
      have less := falls start act after initial stepped
      exact ih (rank after) (size ▸ less) (kept start act after initial stepped) rfl

theorem terminates_along {step : State → Act → Option State} {allowed : State → Act → Prop}
    {start state : State} (path : Reaches step allowed start state) (ends : Terminates step start) :
    Terminates step state := by
  induction path with
  | refl => exact ends
  | next act _ _ stepped ih => exact ih.inv ⟨act, stepped⟩

/-- Where a step can always stay among some states a run can go on for ever. -/
theorem not_terminates_of_stays {step : State → Act → Option State} (Stays : State → Prop)
    (stays : ∀ state, Stays state → ∃ act after, step state act = some after ∧ Stays after)
    {state : State} (there : Stays state) : ¬ Terminates step state := by
  intro ends
  induction ends with
  | intro state _ ih =>
      obtain ⟨act, after, stepped, still⟩ := stays state there
      exact ih after ⟨act, stepped⟩ still

/-- The last event of a trace with a property that some event of it has. -/
theorem exists_last_event {Event : Type} (P : Event → Prop) (trace : List Event)
    (some : ∃ event ∈ trace, P event) :
    ∃ earlier last later, trace = earlier ++ last :: later ∧ P last ∧
      ∀ event ∈ later, ¬ P event := by
  classical
  induction trace with
  | nil => simp at some
  | cons head tail ih =>
      by_cases again : ∃ event ∈ tail, P event
      · obtain ⟨earlier, last, later, split, isLast, none⟩ := ih again
        exact ⟨head :: earlier, last, later, by simp [split], isLast, none⟩
      · obtain ⟨event, member, holds⟩ := some
        rcases List.mem_cons.mp member with same | inTail
        · subst event
          exact ⟨[], head, tail, rfl, holds,
            fun event inTail holds => again ⟨event, inTail, holds⟩⟩
        · exact absurd ⟨event, inTail, holds⟩ again

end PgHa.Transition
