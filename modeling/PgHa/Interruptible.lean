import Mathlib.Order.Defs.Unbundled

/-!
Programs over a state that read an environment and may be dropped while they
wait. A program ends with a value, or is cut with the state it had reached. `Ends`
is its postcondition for both ways out; `Keeps` says that it moves the state only
along a relation, however it ends, and is cut only where the environment can do so.
-/

namespace PgHa.Interruptible

inductive Outcome (State Value : Type) where
  | done (value : Value) (state : State)
  | cut (state : State)

def Prog (Env State Value : Type) : Type := Env → State → Outcome State Value

variable {Env State Value Next : Type}

/-- What holds of both branches holds of the choice. -/
theorem either {Branch : Type} {holds : Branch → Prop} {choice : Prop} [Decidable choice]
    {yes no : Branch} (first : holds yes) (second : holds no) :
    holds (if choice then yes else no) := by
  by_cases chosen : choice
  · rw [if_pos chosen]
    exact first
  · rw [if_neg chosen]
    exact second

instance : Monad (Prog Env State) where
  pure value := fun _ state => .done value state
  bind prog next := fun env state =>
    match prog env state with
    | .done value after => next value env after
    | .cut after => .cut after

def ask (read : Env → State → Value) : Prog Env State Value :=
  fun env state => .done (read env state) state

def change (update : Env → State → State) : Prog Env State Unit :=
  fun env state => .done () (update env state)

def cutIf (expired : Env → State → Bool) : Prog Env State Unit :=
  fun env state => if expired env state then .cut state else .done () state

/-- The program in another environment. -/
def under (adapt : Env → Env) (prog : Prog Env State Value) : Prog Env State Value :=
  fun env state => prog (adapt env) state

/-- What takes over, and in which state, when the program is cut. -/
def onCut (prog handler : Prog Env State Value) : Prog Env State Value :=
  fun env state =>
    match prog env state with
    | .done value after => .done value after
    | .cut after => handler env after

/-- The rest runs from where the first program came to its end. -/
theorem bind_done {prog : Prog Env State Value} {next : Value → Prog Env State Next} {env : Env}
    {state reached : State} {value : Value} (ran : prog env state = .done value reached) :
    (prog >>= next) env state = next value env reached := by
  change (match prog env state with
    | .done value after => next value env after
    | .cut after => .cut after) = _
  rw [ran]

theorem bind_assoc {Last : Type} (prog : Prog Env State Value)
    (next : Value → Prog Env State Next)
    (last : Next → Prog Env State Last) :
    (prog >>= next) >>= last = prog >>= fun value => next value >>= last := by
  funext env state
  simp only [Bind.bind]
  cases prog env state with
  | done value reached => rfl
  | cut reached => rfl

def Ends (prog : Prog Env State Value) (env : Env) (state : State)
    (post : Value → State → Prop) (dropped : State → Prop) : Prop :=
  match prog env state with
  | .done value after => post value after
  | .cut after => dropped after

section Ends

variable {env : Env} {state : State} {post : Value → State → Prop} {dropped : State → Prop}

theorem ends_pure {value : Value} (holds : post value state) :
    Ends (pure value) env state post dropped := holds

theorem ends_ask {read : Env → State → Value} (holds : post (read env state) state) :
    Ends (ask read) env state post dropped := holds

theorem ends_under {adapt : Env → Env} {prog : Prog Env State Value}
    (ends : Ends prog (adapt env) state post dropped) :
    Ends (under adapt prog) env state post dropped := ends

theorem ends_bind {prog : Prog Env State Value} {next : Value → Prog Env State Next}
    {middle : Value → State → Prop} {after : Next → State → Prop}
    (first : Ends prog env state middle dropped)
    (rest : ∀ value reached, middle value reached →
      Ends (next value) env reached after dropped) :
    Ends (prog >>= next) env state after dropped := by
  unfold Ends at first
  change match (match prog env state with
      | .done value reached => next value env reached
      | .cut reached => .cut reached : Outcome State Next) with
    | .done value reached => after value reached
    | .cut reached => dropped reached
  cases ran : prog env state with
  | done value reached =>
      simp only [ran] at first ⊢
      exact rest value reached first
  | cut reached =>
      simp only [ran] at first ⊢
      exact first

/-- A question leaves the state where it is. -/
theorem ends_ask_bind {read : Env → State → Value} {next : Value → Prog Env State Next}
    {after : Next → State → Prop}
    (rest : Ends (next (read env state)) env state after dropped) :
    Ends (ask read >>= next) env state after dropped := rest

theorem ends_change_bind {update : Env → State → State} {next : Unit → Prog Env State Next}
    {after : Next → State → Prop}
    (rest : Ends (next ()) env (update env state) after dropped) :
    Ends (change update >>= next) env state after dropped := rest

theorem ends_cutIf_bind {expired : Env → State → Bool} {next : Unit → Prog Env State Next}
    {after : Next → State → Prop} (cut : expired env state = true → dropped state)
    (rest : expired env state = false → Ends (next ()) env state after dropped) :
    Ends (cutIf expired >>= next) env state after dropped := by
  have looked : Ends (cutIf expired) env state
      (fun _ reached => reached = state ∧ expired env state = false) dropped := by
    unfold Ends cutIf
    cases now : expired env state with
    | true => simpa using cut now
    | false => simp
  refine ends_bind looked ?_
  rintro _ _ ⟨rfl, still⟩
  exact rest still

theorem ends_mono {prog : Prog Env State Value} {wider : Value → State → Prop}
    {more : State → Prop} (ends : Ends prog env state post dropped)
    (weaker : ∀ value reached, post value reached → wider value reached)
    (looser : ∀ reached, dropped reached → more reached) :
    Ends prog env state wider more := by
  unfold Ends at ends ⊢
  cases ran : prog env state with
  | done value reached =>
      simp only [ran] at ends ⊢
      exact weaker value reached ends
  | cut reached =>
      simp only [ran] at ends ⊢
      exact looser reached ends

theorem ends_and {prog : Prog Env State Value} {also : Value → State → Prop}
    {too : State → Prop} (first : Ends prog env state post dropped)
    (second : Ends prog env state also too) :
    Ends prog env state (fun value reached => post value reached ∧ also value reached)
      (fun reached => dropped reached ∧ too reached) := by
  unfold Ends at first second ⊢
  cases ran : prog env state with
  | done value reached =>
      simp only [ran] at first second ⊢
      exact ⟨first, second⟩
  | cut reached =>
      simp only [ran] at first second ⊢
      exact ⟨first, second⟩

theorem ends_weaken {prog : Prog Env State Value} {wider : Value → State → Prop}
    (ends : Ends prog env state post dropped)
    (weaker : ∀ value reached, post value reached → wider value reached) :
    Ends prog env state wider dropped := ends_mono ends weaker fun _ cut => cut

/-- The handler starts where the program was cut. -/
theorem ends_onCut {prog handler : Prog Env State Value} {reached : State → Prop}
    (first : Ends prog env state post reached)
    (second : ∀ after, reached after → Ends handler env after post dropped) :
    Ends (onCut prog handler) env state post dropped := by
  unfold Ends onCut
  unfold Ends at first
  cases ran : prog env state with
  | done value after =>
      simp only [ran] at first ⊢
      exact first
  | cut after =>
      simp only [ran] at first ⊢
      exact second after first

/-- A program that cannot be dropped comes to its end. -/
theorem ends_completes {prog : Prog Env State Value}
    (ends : Ends prog env state post fun _ => False) :
    ∃ value reached, prog env state = .done value reached ∧ post value reached := by
  unfold Ends at ends
  cases ran : prog env state with
  | done value reached => exact ⟨value, reached, rfl, by simpa only [ran] using ends⟩
  | cut reached =>
      simp only [ran] at ends

theorem ends_done {prog : Prog Env State Value} {value : Value} {reached : State}
    (ends : Ends prog env state post dropped) (ran : prog env state = .done value reached) :
    post value reached := by
  unfold Ends at ends
  rw [ran] at ends
  exact ends

/-- A test of the state a program comes to its end in. -/
def yields (prog : Prog Env State Value) (env : Env) (state : State)
    (check : Value → State → Bool) : Bool :=
  match prog env state with
  | .done value reached => check value reached
  | .cut _ => false

theorem yields_done {prog : Prog Env State Value} {check : Value → State → Bool}
    (passes : yields prog env state check = true) :
    ∃ value reached, prog env state = .done value reached ∧ check value reached = true := by
  unfold yields at passes
  cases ran : prog env state with
  | done value reached => exact ⟨value, reached, rfl, by simpa only [ran] using passes⟩
  | cut reached => simp [ran] at passes

end Ends

/-- The program moves the state along the relation, whichever way it ends; it is
cut only in an environment with the cause. -/
def Keeps (rel : State → State → Prop) (cause : Env → Prop) (prog : Prog Env State Value) :
    Prop :=
  ∀ env state, Ends prog env state (fun _ after => rel state after)
    (fun after => rel state after ∧ cause env)

section Keeps

variable {rel : State → State → Prop} {cause : Env → Prop}

theorem keeps_pure [Std.Refl rel] (value : Value) :
    Keeps rel cause (pure value : Prog Env State Value) := fun _ state => Std.Refl.refl state

theorem keeps_ask [Std.Refl rel] (read : Env → State → Value) : Keeps rel cause (ask read) :=
  fun _ state => Std.Refl.refl state

theorem keeps_change {update : Env → State → State}
    (related : ∀ env state, rel state (update env state)) : Keeps rel cause (change update) :=
  fun env state => related env state

theorem keeps_cutIf [Std.Refl rel] {expired : Env → State → Bool}
    (only : ∀ env state, expired env state = true → cause env) :
    Keeps rel cause (cutIf expired) := by
  intro env state
  unfold Ends cutIf
  cases now : expired env state with
  | true => simpa using ⟨Std.Refl.refl state, only env state now⟩
  | false => simpa using Std.Refl.refl state

theorem keeps_bind [IsTrans State rel] {prog : Prog Env State Value}
    {next : Value → Prog Env State Next} (first : Keeps rel cause prog)
    (rest : ∀ value, Keeps rel cause (next value)) : Keeps rel cause (prog >>= next) := by
  intro env state
  have begun := first env state
  unfold Ends at begun
  change match (match prog env state with
      | .done value after => next value env after
      | .cut after => .cut after : Outcome State Next) with
    | .done _ after => rel state after
    | .cut after => rel state after ∧ cause env
  cases ran : prog env state with
  | done value after =>
      simp only [ran] at begun ⊢
      have ended := rest value env after
      unfold Ends at ended
      cases ran' : next value env after with
      | done result final =>
          simp only [ran'] at ended ⊢
          exact IsTrans.trans _ _ _ begun ended
      | cut final =>
          simp only [ran'] at ended ⊢
          exact ⟨IsTrans.trans _ _ _ begun ended.1, ended.2⟩
  | cut after =>
      simp only [ran] at begun ⊢
      exact begun

theorem keeps_ite {choice : Prop} [Decidable choice] {yes no : Prog Env State Value}
    (first : Keeps rel cause yes) (second : Keeps rel cause no) :
    Keeps rel cause (if choice then yes else no) := either first second

theorem keeps_mono {wider : State → State → Prop} {prog : Prog Env State Value}
    (keeps : Keeps rel cause prog)
    (weaker : ∀ before after, rel before after → wider before after) :
    Keeps wider cause prog := fun env state =>
  ends_mono (keeps env state) (fun _ after moved => weaker state after moved)
    fun after moved => ⟨weaker state after moved.1, moved.2⟩

/-- What a kept relation says of the states a program ends in. -/
theorem ends_keeps {prog : Prog Env State Value} {env : Env} {state : State}
    (keeps : Keeps rel cause prog) :
    Ends prog env state (fun _ after => rel state after) (fun _ => cause env) :=
  ends_mono (keeps env state) (fun _ _ moved => moved) fun _ moved => moved.2

end Keeps

/-- From this state the program moves along one relation when it ends, along another
when it is cut, and is cut only with the cause. `post` says more of how it ends. -/
def Carries (rel broken : State → State → Prop) (cause : Env → Prop)
    (prog : Prog Env State Value)
    (env : Env) (state : State) (post : Value → State → Prop) : Prop :=
  Ends prog env state (fun value after => rel state after ∧ post value after)
    (fun after => broken state after ∧ cause env)

section Carries

variable {rel broken : State → State → Prop} {cause : Env → Prop} {env : Env} {state : State}

theorem carries_pure [Std.Refl rel] {value : Value} {post : Value → State → Prop}
    (holds : post value state) : Carries rel broken cause (pure value) env state post :=
  ⟨Std.Refl.refl state, holds⟩

theorem carries_ask [Std.Refl rel] {read : Env → State → Value}
    {post : Value → State → Prop}
    (holds : post (read env state) state) : Carries rel broken cause (ask read) env state post :=
  ⟨Std.Refl.refl state, holds⟩

theorem carries_ask_bind {read : Env → State → Value} {next : Value → Prog Env State Next}
    {post : Next → State → Prop}
    (rest : Carries rel broken cause (next (read env state)) env state post) :
    Carries rel broken cause (ask read >>= next) env state post := rest

/-- The rest starts where the first program ended. -/
theorem carries_bind [IsTrans State rel] [Trans rel broken broken] {prog : Prog Env State Value}
    {next : Value → Prog Env State Next} {middle : Value → State → Prop}
    {post : Next → State → Prop} (first : Carries rel broken cause prog env state middle)
    (rest : ∀ value reached, rel state reached → middle value reached →
      Carries rel broken cause (next value) env reached post) :
    Carries rel broken cause (prog >>= next) env state post := by
  apply ends_bind first
  intro value reached moved
  refine ends_mono (rest value reached moved.1 moved.2) ?_ ?_
  · intro result after ended
    exact ⟨IsTrans.trans _ _ _ moved.1 ended.1, ended.2⟩
  · intro after cut
    exact ⟨Trans.trans moved.1 cut.1, cut.2⟩

theorem carries_change_bind [IsTrans State rel] [Trans rel broken broken]
    {update : Env → State → State} {next : Unit → Prog Env State Next}
    {post : Next → State → Prop} (moved : rel state (update env state))
    (rest : Carries rel broken cause (next ()) env (update env state) post) :
    Carries rel broken cause (change update >>= next) env state post := by
  refine ends_mono (ends_change_bind rest) ?_ ?_
  · intro result after ended
    exact ⟨IsTrans.trans _ _ _ moved ended.1, ended.2⟩
  · intro after cut
    exact ⟨Trans.trans moved cut.1, cut.2⟩

theorem carries_weaken {prog : Prog Env State Value} {post wider : Value → State → Prop}
    (carries : Carries rel broken cause prog env state post)
    (weaker : ∀ value after, rel state after → post value after → wider value after) :
    Carries rel broken cause prog env state wider :=
  ends_weaken carries fun value after ended => ⟨ended.1, weaker value after ended.1 ended.2⟩

/-- What else is known of how the program ends. -/
theorem carries_and {prog : Prog Env State Value} {post also : Value → State → Prop}
    {too : State → Prop} (carries : Carries rel broken cause prog env state post)
    (ends : Ends prog env state also too) :
    Carries rel broken cause prog env state
      (fun value after => post value after ∧ also value after) :=
  ends_mono (ends_and carries ends) (fun _ _ both => ⟨both.1.1, both.1.2, both.2⟩)
    fun _ both => both.1

/-- A finer relation that is kept whichever way the program ends. -/
theorem carries_of_keeps {fine : State → State → Prop} {prog : Prog Env State Value}
    (keeps : Keeps fine cause prog)
    (whole : ∀ before after, fine before after → rel before after)
    (part : ∀ before after, fine before after → broken before after) :
    Carries rel broken cause prog env state (fun _ after => fine state after) :=
  ends_mono (keeps env state) (fun _ after moved => ⟨whole state after moved, moved⟩)
    fun after moved => ⟨part state after moved.1, moved.2⟩

theorem carries_mono {wider wrecked : State → State → Prop} {prog : Prog Env State Value}
    {post : Value → State → Prop} (carries : Carries rel broken cause prog env state post)
    (whole : ∀ after, rel state after → wider state after)
    (part : ∀ after, broken state after → wrecked state after) :
    Carries wider wrecked cause prog env state post :=
  ends_mono carries (fun _ after ended => ⟨whole after ended.1, ended.2⟩)
    fun after cut => ⟨part after cut.1, cut.2⟩

end Carries

end PgHa.Interruptible
