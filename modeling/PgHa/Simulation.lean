import PgHa.Transition

/-!
Runs of one step function that follow those of another one: a step may be any number of
steps of the abstract machine, or none.
-/

namespace PgHa.Transition

variable {State Act Abstract Event : Type} {step : State → Act → Option State}
  {move : Abstract → Event → Option Abstract} {allowed : State → Act → Prop}
  {admitted : Abstract → Event → Prop}

/-- Each allowed step is a run of the abstract machine, from and to a related state. -/
def Simulates (step : State → Act → Option State) (allowed : State → Act → Prop)
    (move : Abstract → Event → Option Abstract) (admitted : Abstract → Event → Prop)
    (related : State → Abstract → Prop) : Prop :=
  ∀ before act after abstract, related before abstract → allowed before act →
    step before act = some after →
    ∃ next, Reaches move admitted abstract next ∧ related after next

theorem simulates_reaches {related : State → Abstract → Prop} {start finish : State}
    {abstract : Abstract}
    (simulates : Simulates step allowed move admitted related) (initial : related start abstract)
    (path : Reaches step allowed start finish) :
    ∃ next, Reaches move admitted abstract next ∧ related finish next := by
  induction path with
  | refl => exact ⟨abstract, .refl, initial⟩
  | next act _ admits stepped ih =>
      obtain ⟨middle, path, relates⟩ := ih
      obtain ⟨next, more, relates'⟩ := simulates _ act _ middle relates admits stepped
      exact ⟨next, reaches_trans path more, relates'⟩

theorem reaches_one {abstract next : Abstract} (event : Event) (admits : admitted abstract event)
    (moved : move abstract event = some next) : Reaches move admitted abstract next :=
  .next event .refl admits moved

end PgHa.Transition
