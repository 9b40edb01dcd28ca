import Mathlib.Data.List.Basic
import Mathlib.Order.Defs.Unbundled

/-!
Traces of events, the newest first: laws that each event obeys given the events
before it, what a run may append, and the newest event with a meaning since a mark.
-/

namespace PgHa.Trace

variable {Event Found : Type}

/-- Every event obeys the law, given the events before it. -/
def Each (law : Event → List Event → Prop) : List Event → Prop
  | [] => True
  | event :: before => law event before ∧ Each law before

theorem each_mono {law wider : Event → List Event → Prop} {trace : List Event}
    (each : Each law trace) (weaker : ∀ event before, law event before → wider event before) :
    Each wider trace := by
  induction trace with
  | nil => trivial
  | cons event before ih => exact ⟨weaker event before each.1, ih each.2⟩

/-- The new events lie on top of the old ones, and each of them is allowed. -/
def Appends (allowed : Event → Prop) (before after : List Event) : Prop :=
  ∃ new, after = new ++ before ∧ ∀ event ∈ new, allowed event

section Appends

variable {allowed : Event → Prop}

theorem appends_refl (trace : List Event) : Appends allowed trace trace :=
  ⟨[], rfl, fun _ member => by cases member⟩

theorem appends_one {event : Event} (trace : List Event) (ok : allowed event) :
    Appends allowed trace (event :: trace) := by
  refine ⟨[event], rfl, ?_⟩
  intro other member
  rw [List.mem_singleton] at member
  rw [member]
  exact ok

theorem appends_trans {first second third : List Event} (begun : Appends allowed first second)
    (ended : Appends allowed second third) : Appends allowed first third := by
  obtain ⟨early, rfl, earlyOk⟩ := begun
  obtain ⟨late, rfl, lateOk⟩ := ended
  refine ⟨late ++ early, (List.append_assoc _ _ _).symm, ?_⟩
  intro event member
  rcases List.mem_append.mp member with new | old
  · exact lateOk event new
  · exact earlyOk event old

end Appends

/-- What the newest event with a meaning means, looking back as far as the mark. -/
def latestSince (mark : Event → Bool) (meaning : Event → Option Found) : List Event →
    Option Found
  | [] => none
  | event :: before =>
      if mark event then none
      else (meaning event).or (latestSince mark meaning before)

section latestSince

variable {mark : Event → Bool} {meaning : Event → Option Found} {event : Event}
  {before : List Event}

theorem latestSince_means {found : Found} (unmarked : mark event = false)
    (means : meaning event = some found) :
    latestSince mark meaning (event :: before) = some found := by
  simp [latestSince, unmarked, means]

theorem latestSince_silent (unmarked : mark event = false) (silent : meaning event = none) :
    latestSince mark meaning (event :: before) = latestSince mark meaning before := by
  simp [latestSince, unmarked, silent]

/-- Something found stays found until the mark. -/
theorem latestSince_mono (unmarked : mark event = false)
    (found : (latestSince mark meaning before).isSome = true) :
    (latestSince mark meaning (event :: before)).isSome = true := by
  cases means : meaning event with
  | none =>
      rw [latestSince_silent unmarked means]
      exact found
  | some value => rw [latestSince_means unmarked means, Option.isSome_some]

end latestSince

end PgHa.Trace
