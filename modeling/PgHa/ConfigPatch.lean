import PgHa.ConfigFields

/-!
Concurrent `PATCH /config` requests (`patch_config_endpoint` of
`pg-ha-api/src/routes/config.rs`). A handler reads the configuration its node has
applied, which may be an older one, patches it and writes the whole of it back with a
plain Set. A write that timed out may still be applied. `set_config_value` is never
answered `NotChanged`, so the 409 reply is left out.
-/

namespace PgHa.ConfigPatch

open Text Serde Transition ConfigTiming ConfigFields

inductive Reply where
  | ok (config : GlobalConfig)
  | badRequest (error : Str)
  | internalServerError (error : Str)
  | serviceUnavailable (error : Str)
  deriving DecidableEq

/-- `told` is the error the client got before the write was applied. -/
inductive Phase where
  | reading
  | writing (read patched : GlobalConfig) (told : Option Reply)
  | written (patched : GlobalConfig) (told : Option Reply)
  | answered (reply : Reply)
  deriving DecidableEq

/-- `timing` is the static lease timing of the node that handles the request, if known. -/
structure PatchRequest where
  body : Json
  timing : Option LeaseTiming
  phase : Phase

/-- The stored configuration as the handlers read it, the values before it, and the
requests in the order in which they arrived. -/
structure World where
  config : GlobalConfig
  earlier : List GlobalConfig
  requests : List PatchRequest

/-- A value that is absent or cannot be read counts as the default. -/
def readStored (stored : Option Json) : GlobalConfig :=
  (stored.bind GlobalConfig.fromJson).getD .default

def World.start (stored : Option Json) : World := ⟨readStored stored, [], []⟩

inductive Act where
  | arrive (body : Json) (timing : Option LeaseTiming)
  | unavailable (request : Nat)
  | readFails (request : Nat) (error : Str)
  | read (request back : Nat) (error : Str)
  | commit (request : Nat)
  | answer (request : Nat)
  | timeOut (request : Nat) (error : Str)

/-- `reject_lease_timing`. -/
def rejectLeaseTiming (timing : Option LeaseTiming) (current new : GlobalConfig) : Option Reply :=
  match timing with
  | none => none
  | some base =>
      match checkLeaseTimingChange current new base with
      | .ok () => none
      | .error problem =>
          some (.badRequest ("Rejected, configuration not changed: ".toList ++ problem))

/-- The handler from its read to its write; `error` is the text of a failed patch. -/
def PatchRequest.handle (request : PatchRequest) (current : GlobalConfig) (error : Str) : Phase :=
  match patchConfig current request.body with
  | none => .answered (.badRequest ("Invalid patch: ".toList ++ error))
  | some patched =>
      match rejectLeaseTiming request.timing current patched with
      | some reply => .answered reply
      | none => .writing current patched none

def writeFailed (error : Str) : Reply := .internalServerError ("DCS write failed: ".toList ++ error)

def World.setPhase (world : World) (position : Nat) (request : PatchRequest) (phase : Phase) :
    World :=
  { world with requests := world.requests.set position { request with phase := phase } }

/-- What the act does to the phase of the request it is about. -/
def Act.phase (world : World) (request : PatchRequest) : Act → Option Phase
  | .arrive _ _ => none
  | .unavailable _ =>
      if request.phase = .reading then
        some (.answered (.serviceUnavailable "DCS not available".toList))
      else none
  | .readFails _ error =>
      if request.phase = .reading then
        some (.answered (.internalServerError
          ("Failed to read current config: ".toList ++ error)))
      else none
  | .read _ back error =>
      if request.phase = .reading then
        ((world.config :: world.earlier)[back]?).map fun current => request.handle current error
      else none
  | .commit _ =>
      match request.phase with
      | .writing _ patched told => some (.written patched told)
      | .reading | .written _ _ | .answered _ => none
  | .answer _ =>
      match request.phase with
      | .written patched none => some (.answered (.ok patched))
      | .reading | .writing _ _ _ | .written _ (some _) | .answered _ => none
  | .timeOut _ error =>
      match request.phase with
      | .writing current patched none => some (.writing current patched (some (writeFailed error)))
      | .written patched none => some (.written patched (some (writeFailed error)))
      | .reading | .writing _ _ (some _) | .written _ (some _) | .answered _ => none

def Act.position : Act → Nat
  | .arrive _ _ => 0
  | .unavailable request | .readFails request _ | .read request _ _ => request
  | .commit request | .answer request | .timeOut request _ => request

/-- The stored value after the act: an applied write replaces it. -/
def Act.stores (act : Act) (request : PatchRequest) : Option GlobalConfig :=
  match act, request.phase with
  | .commit _, .writing _ patched _ => some patched
  | _, _ => none

def World.store (world : World) : Option GlobalConfig → World
  | some new => { world with config := new, earlier := world.config :: world.earlier }
  | none => world

def step (world : World) (act : Act) : Option World :=
  match act with
  | .arrive body timing =>
      some { world with requests := world.requests ++ [⟨body, timing, .reading⟩] }
  | _ => do
      let request ← world.requests[act.position]?
      let phase ← act.phase world request
      pure ((world.store (act.stores request)).setPhase act.position request phase)

/-- A write is applied only while the key holds what its handler read. -/
def Meets (world : World) : Act → Prop
  | .commit position =>
      match world.requests[position]? with
      | some ⟨_, _, .writing current _ _⟩ => current = world.config
      | _ => True
  | _ => True

instance (world : World) (act : Act) : Decidable (Meets world act) := by
  unfold Meets
  split
  · split <;> infer_instance
  · infer_instance

/-- No two requests name the same top-level key. -/
def DisjointKeys (world : World) : Prop :=
  (world.requests.map fun request => bodyKeys request.body).Pairwise List.Disjoint

def Answered (request : PatchRequest) : Prop := ∃ config, request.phase = .answered (.ok config)

/-- The configuration has, at every key the body names, what the body makes of the first
one. -/
def Contains (initial config : GlobalConfig) (body : Json) : Prop :=
  ∃ patched, patchConfig initial body = some patched ∧
    ∀ field : Field, field.key.toList ∈ bodyKeys body → field.of config = field.of patched

theorem typed_readStored (stored : Option Json) : Typed (readStored stored) := by
  unfold readStored
  cases read : stored.bind GlobalConfig.fromJson with
  | none => exact typed_default
  | some config =>
      obtain ⟨json, _, read⟩ := Option.bind_eq_some_iff.mp read
      exact fromJson_typed read

/-! ### The invariant -/

/-- The write of the request has been applied. -/
def Applied (request : PatchRequest) : Prop :=
  (∃ patched told, request.phase = .written patched told) ∨ Answered request

structure Kept (initial : GlobalConfig) (world : World) : Prop where
  typed : Typed world.config
  based : ∀ (position : Nat) (request : PatchRequest) (current patched : GlobalConfig)
    (told : Option Reply), world.requests[position]? = some request →
    request.phase = .writing current patched told →
      patchConfig current request.body = some patched
  applied : ∀ (position : Nat) (request : PatchRequest),
    world.requests[position]? = some request →
    Applied request → Contains initial world.config request.body
  untouched : ∀ field : Field, (∀ (position : Nat) (request : PatchRequest),
    world.requests[position]? = some request → Applied request →
    field.key.toList ∉ bodyKeys request.body) → field.of world.config = field.of initial

theorem disjoint_keys {world : World} (disjoint : DisjointKeys world) {first second : Nat}
    {request request' : PatchRequest} (found : world.requests[first]? = some request)
    (found' : world.requests[second]? = some request') (different : first ≠ second) {key : Str}
    (named : key ∈ bodyKeys request.body) : key ∉ bodyKeys request'.body := by
  intro named'
  obtain ⟨within, rfl⟩ := List.getElem?_eq_some_iff.mp found
  obtain ⟨within', rfl⟩ := List.getElem?_eq_some_iff.mp found'
  have pairs := List.pairwise_iff_getElem.mp disjoint
  simp only [List.getElem_map, List.length_map] at pairs
  rcases Nat.lt_or_gt_of_ne different with before | behind
  · exact pairs first second within within' before named named'
  · exact pairs second first within' within behind named' named

theorem arrived_cases {requests : List PatchRequest} {new request : PatchRequest} {position : Nat}
    (found : (requests ++ [new])[position]? = some request) :
    requests[position]? = some request ∨ request = new := by
  rcases List.mem_append.mp (List.mem_of_getElem? found) with _ | last
  · rw [List.getElem?_append] at found
    split at found
    · exact .inl found
    · rw [List.getElem?_singleton] at found
      split at found
      · exact .inr (Option.some.inj found).symm
      · cases found
  · exact .inr (List.mem_singleton.mp last)

theorem set_cases {requests : List PatchRequest} {new request : PatchRequest}
    {position other : Nat} (found : (requests.set position new)[other]? = some request) :
    (other = position ∧ request = new) ∨
      (other ≠ position ∧ requests[other]? = some request) := by
  rw [List.getElem?_set] at found
  split at found
  · rename_i same
    split at found
    · exact .inl ⟨same.symm, (Option.some.inj found).symm⟩
    · cases found
  · rename_i apart
    exact .inr ⟨Ne.symm apart, found⟩

theorem kept_arrive {initial : GlobalConfig} {world : World} (kept : Kept initial world)
    (body : Json)
    (timing : Option LeaseTiming) :
    Kept initial { world with requests := world.requests ++ [⟨body, timing, .reading⟩] } := by
  have unapplied : ¬ Applied ⟨body, timing, .reading⟩ := by
    rintro (⟨_, _, phase⟩ | ⟨_, phase⟩) <;> cases phase
  constructor
  · exact kept.typed
  · intro position request current patched told found phase
    rcases arrived_cases found with older | rfl
    · exact kept.based position request current patched told older phase
    · cases phase
  · intro position request found applied
    rcases arrived_cases found with older | rfl
    · exact kept.applied position request older applied
    · exact absurd applied unapplied
  · intro field unnamed
    refine kept.untouched field fun position request found applied => ?_
    refine unnamed position request ?_ applied
    rw [List.getElem?_append_left (List.getElem?_eq_some_iff.mp found).1]
    exact found

/-- A handled request was refused, or is about to write its patch of what it read. -/
theorem handle_cases (request : PatchRequest) (current : GlobalConfig) (error : Str) :
    (∃ error', request.handle current error = .answered (.badRequest error')) ∨
    ∃ patched, patchConfig current request.body = some patched ∧
      request.handle current error = .writing current patched none := by
  unfold PatchRequest.handle
  cases patchConfig current request.body with
  | none => exact .inl ⟨_, rfl⟩
  | some patched =>
      unfold rejectLeaseTiming
      cases request.timing with
      | none => exact .inr ⟨patched, rfl, rfl⟩
      | some base =>
          cases checked : checkLeaseTimingChange current patched base with
          | ok _ =>
              simp only [checked]
              exact .inr ⟨patched, rfl, rfl⟩
          | error problem =>
              simp only [checked]
              exact .inl ⟨_, rfl⟩

/-- The act stores nothing, and neither applies the request nor takes it back. -/
structure Unstored (act : Act) (request : PatchRequest) (phase : Phase) : Prop where
  stores : act.stores request = none
  applied : Applied { request with phase := phase } ↔ Applied request
  based : ∀ current patched told, phase = .writing current patched told →
    patchConfig current request.body = some patched

theorem unstored_read {world : World} {request : PatchRequest} {phase : Phase}
    (position back : Nat) (error : Str)
    (next : (Act.read position back error).phase world request = some phase) :
    Unstored (.read position back error) request phase := by
  obtain ⟨body, timing, before⟩ := request
  simp only [Act.phase] at next
  split at next
  · rename_i reading
    subst before
    obtain ⟨current, _, rfl⟩ := Option.map_eq_some_iff.mp next
    rcases handle_cases ⟨body, timing, .reading⟩ current error with
      ⟨error', refused⟩ | ⟨patched, accepted, writes⟩
    · constructor
      · rfl
      · simp [Applied, Answered, refused]
      · simp [refused]
    · constructor
      · rfl
      · simp [Applied, Answered, writes]
      · intro _ _ _ same
        rw [writes, Phase.writing.injEq] at same
        rw [← same.1, ← same.2.1]
        exact accepted
  · cases next

theorem unstored_timeOut {world : World} {request : PatchRequest} {phase : Phase}
    (position : Nat) (error : Str)
    (next : (Act.timeOut position error).phase world request = some phase)
    (based : ∀ current patched told, request.phase = .writing current patched told →
      patchConfig current request.body = some patched) :
    Unstored (.timeOut position error) request phase := by
  obtain ⟨body, timing, before⟩ := request
  cases before with
  | writing current patched told =>
      cases told with
      | none =>
          cases next
          refine ⟨rfl, by simp [Applied, Answered], ?_⟩
          rintro _ _ _ ⟨⟩
          exact based current patched none rfl
      | some _ => cases next
  | written patched told =>
      cases told with
      | none =>
          cases next
          exact ⟨rfl, by simp [Applied, Answered], by simp⟩
      | some _ => cases next
  | reading | answered _ => cases next

/-- Besides the applied write, no act stores anything. -/
theorem act_cases {world : World} {request : PatchRequest} {act : Act} {phase : Phase}
    (next : act.phase world request = some phase)
    (based : ∀ current patched told, request.phase = .writing current patched told →
      patchConfig current request.body = some patched) :
    Unstored act request phase ∨
    (∃ current patched told, act = .commit act.position ∧
      request.phase = .writing current patched told ∧ phase = .written patched told ∧
      act.stores request = some patched) := by
  cases act with
  | arrive _ _ => cases next
  | read position back error => exact .inl (unstored_read position back error next)
  | timeOut position error => exact .inl (unstored_timeOut position error next based)
  | unavailable _ | readFails _ _ =>
      left
      simp only [Act.phase] at next
      split at next
      · rename_i reading
        cases next
        exact ⟨rfl, by simp [Applied, Answered, reading], by simp⟩
      · cases next
  | commit _ =>
      right
      obtain ⟨body, timing, before⟩ := request
      cases before with
      | writing current patched told =>
          cases next
          exact ⟨current, patched, told, rfl, rfl, rfl, rfl⟩
      | reading | written _ _ | answered _ => cases next
  | answer _ =>
      left
      obtain ⟨body, timing, before⟩ := request
      cases before with
      | written patched told =>
          cases told with
          | none =>
              cases next
              exact ⟨rfl, by simp [Applied, Answered], by simp⟩
          | some _ => cases next
      | reading | writing _ _ _ | answered _ => cases next

theorem disjoint_setPhase {world : World} {position : Nat} {request : PatchRequest} {phase : Phase}
    {stored : Option GlobalConfig} (found : world.requests[position]? = some request)
    (disjoint : DisjointKeys ((world.store stored).setPhase position request phase)) :
    DisjointKeys world := by
  have same : ((world.store stored).setPhase position request phase).requests.map
      (fun request => bodyKeys request.body) =
        world.requests.map fun request => bodyKeys request.body := by
    have kept : (world.store stored).requests = world.requests := by cases stored <;> rfl
    simp only [World.setPhase, List.map_set, kept]
    obtain ⟨within, rfl⟩ := List.getElem?_eq_some_iff.mp found
    apply List.ext_getElem (by simp)
    intro other _ _
    by_cases here : position = other
    · subst other
      simp
    · simp [here]
  unfold DisjointKeys at disjoint ⊢
  rw [← same]
  exact disjoint

/-- A step that stores nothing. -/
theorem kept_quiet {initial : GlobalConfig} {world : World} (kept : Kept initial world)
    {act : Act} {position : Nat} {request : PatchRequest} {phase : Phase}
    (found : world.requests[position]? = some request) (unstored : Unstored act request phase) :
    Kept initial (world.setPhase position request phase) := by
  constructor
  · exact kept.typed
  · intro other request' current patched told found' writing
    rcases set_cases found' with ⟨_, rfl⟩ | ⟨_, older⟩
    · exact unstored.based current patched told writing
    · exact kept.based other request' current patched told older writing
  · intro other request' found' done
    rcases set_cases found' with ⟨_, rfl⟩ | ⟨_, older⟩
    · exact kept.applied position request found (unstored.applied.mp done)
    · exact kept.applied other request' older done
  · intro field unnamed
    refine kept.untouched field fun other request' found' done => ?_
    by_cases here : other = position
    · subst other
      rw [found, Option.some.injEq] at found'
      subst request'
      refine unnamed position { request with phase := phase } ?_ (unstored.applied.mpr done)
      exact List.getElem?_set_self (List.getElem?_eq_some_iff.mp found).1
    · refine unnamed other request' ?_ done
      exact (List.getElem?_set_ne (Ne.symm here)).trans found'

theorem applied_elsewhere {world : World} {position other : Nat} {request request' : PatchRequest}
    (found : world.requests[position]? = some request) (unapplied : ¬ Applied request)
    (found' : world.requests[other]? = some request') (done : Applied request') :
    other ≠ position := by
  rintro rfl
  rw [found, Option.some.injEq] at found'
  exact absurd (found' ▸ done) unapplied

/-- A write that is applied while the key holds what its handler read: the fields it names
were those of the first configuration, and the others stay. -/
theorem kept_commit {initial : GlobalConfig} (initialTyped : Typed initial) {world : World}
    (kept : Kept initial world) (disjoint : DisjointKeys world) {position : Nat}
    {request : PatchRequest} {patched : GlobalConfig} {told told' : Option Reply}
    (found : world.requests[position]? = some request)
    (writing : request.phase = .writing world.config patched told) :
    Kept initial ((world.store (some patched)).setPhase position request
      (.written patched told')) := by
  have accepted := kept.based position request world.config patched told found writing
  have others : ∀ field : Field, field.key.toList ∉ bodyKeys request.body →
      field.of patched = field.of world.config :=
    fun field unnamed => patch_unnamed kept.typed accepted unnamed
  have unapplied : ¬ Applied request := by
    rintro (⟨_, _, phase⟩ | ⟨_, phase⟩) <;> rw [writing] at phase <;> cases phase
  constructor
  · exact patch_typed accepted
  · intro other request' current patched' told' found' writing'
    rcases set_cases found' with ⟨_, rfl⟩ | ⟨_, older⟩
    · cases writing'
    · exact kept.based other request' current patched' told' older writing'
  · intro other request' found' done
    rcases set_cases found' with ⟨_, rfl⟩ | ⟨apart, older⟩
    · have first : ∀ field : Field, field.key.toList ∈ bodyKeys request.body →
          field.of initial = field.of world.config := by
        intro field named
        refine (kept.untouched field fun other request' found' done => ?_).symm
        have apart := applied_elsewhere found unapplied found' done
        exact disjoint_keys disjoint found found' (Ne.symm apart) named
      obtain ⟨result, patches, same⟩ := patch_local accepted initialTyped first
      exact ⟨result, patches, fun field named => (same field named).symm⟩
    · obtain ⟨result, patches, same⟩ := kept.applied other request' older done
      refine ⟨result, patches, fun field named => ?_⟩
      exact (others field (disjoint_keys disjoint older found apart named)).trans (same field named)
  · intro field unnamed
    have notHere : field.key.toList ∉ bodyKeys request.body := by
      refine unnamed position { request with phase := .written patched told' } ?_
        (.inl ⟨patched, told', rfl⟩)
      exact List.getElem?_set_self (List.getElem?_eq_some_iff.mp found).1
    refine (others field notHere).trans (kept.untouched field fun other request' found' done => ?_)
    have apart := applied_elsewhere found unapplied found' done
    exact unnamed other request' ((List.getElem?_set_ne (Ne.symm apart)).trans found') done

theorem disjoint_arrive {world : World} {body : Json} {timing : Option LeaseTiming}
    (disjoint : DisjointKeys { world with
      requests := world.requests ++ [⟨body, timing, .reading⟩] }) : DisjointKeys world := by
  simp only [DisjointKeys, List.map_append] at disjoint
  exact (List.pairwise_append.mp disjoint).1

theorem kept_step {initial : GlobalConfig} (initialTyped : Typed initial) {world after : World}
    (kept : DisjointKeys world → Kept initial world) (act : Act) (meets : Meets world act)
    (stepped : step world act = some after) : DisjointKeys after → Kept initial after := by
  intro disjoint
  by_cases arrives : ∃ body timing, act = .arrive body timing
  · obtain ⟨body, timing, rfl⟩ := arrives
    rw [← Option.some.inj stepped] at disjoint ⊢
    exact kept_arrive (kept (disjoint_arrive disjoint)) body timing
  · have inner : ∃ request phase, world.requests[act.position]? = some request ∧
        act.phase world request = some phase ∧
        after = (world.store (act.stores request)).setPhase act.position request phase := by
      cases act with
      | arrive body timing => exact absurd ⟨body, timing, rfl⟩ arrives
      | _ =>
          simp only [step, Option.bind_eq_bind, Option.bind_eq_some_iff, Option.pure_def,
            Option.some.injEq] at stepped
          obtain ⟨request, found, phase, next, same⟩ := stepped
          exact ⟨request, phase, found, next, same.symm⟩
    obtain ⟨request, phase, found, next, rfl⟩ := inner
    have before := disjoint_setPhase found disjoint
    have kept := kept before
    rcases act_cases next
      (fun current patched told => kept.based _ request current patched told found)
      with unstored | ⟨current, patched, told, commits, writing, rfl, stores⟩
    · rw [unstored.stores]
      exact kept_quiet kept found unstored
    · have fresh : current = world.config := by
        rw [commits, Meets, found] at meets
        obtain ⟨body, timing, phase⟩ := request
        cases writing
        exact meets
      subst current
      rw [stores]
      exact kept_commit initialTyped kept before found writing

/-- In every run in which each write is applied while `/config` still holds what its
handler read: when the requests name different top-level keys and all were answered 200,
the configuration has at every key what the request that names it makes of the first
configuration. -/
theorem config_patches_kept (stored : Option Json) {world : World}
    (path : Reaches step Meets (.start stored) world) (disjoint : DisjointKeys world)
    (answered : ∀ request ∈ world.requests, Answered request) :
    ∀ request ∈ world.requests, Contains (readStored stored) world.config request.body := by
  have kept : DisjointKeys world → Kept (readStored stored) world := by
    refine reaches_invariant (fun world => DisjointKeys world → Kept (readStored stored) world)
      ?_ (fun _ act _ kept meets stepped => kept_step (typed_readStored stored) kept act
        meets stepped)
      path
    intro _
    exact ⟨typed_readStored stored,
      by simp [World.start], by simp [World.start], fun _ _ => rfl⟩
  intro request member
  obtain ⟨position, found⟩ := List.mem_iff_getElem?.mp member
  exact (kept disjoint).applied position request found (.inr (answered request member))

def pauseBody : Json := .object [("pause".toList, .bool true)]

def lagBody : Json := .object [("maximum_lag_on_failover".toList, .number 1048576)]

/-- Two requests on two keys, all answered. -/
def bothAnswered (world : World) : Bool :=
  (world.requests.map fun request => bodyKeys request.body) ==
      [["pause".toList], ["maximum_lag_on_failover".toList]] &&
    world.requests.all fun request =>
      match request.phase with
      | .answered (.ok _) => true
      | _ => false

theorem bothAnswered_spec {world : World} (both : bothAnswered world = true) :
    DisjointKeys world ∧ ∀ request ∈ world.requests, Answered request := by
  simp only [bothAnswered, Bool.and_eq_true, beq_iff_eq, List.all_eq_true] at both
  constructor
  · rw [DisjointKeys, both.1]
    simp
  · intro request member
    have done := both.2 request member
    split at done
    · rename_i config phase
      exact ⟨config, phase⟩
    · cases done

/-- The second handler reads after the first write was applied. -/
def oneAfterTheOther : List Act :=
  [.arrive pauseBody none, .arrive lagBody (some sampleTiming), .read 0 0 [], .commit 0, .answer 0,
    .read 1 0 [], .commit 1, .answer 1]

theorem config_patches_kept_oneAfterTheOther :
    ∃ world, Reaches step Meets (.start none) world ∧ bothAnswered world = true ∧
      ∀ request ∈ world.requests, Contains (readStored none) world.config request.body := by
  have played : (play step Meets (.start none) oneAfterTheOther).map bothAnswered =
      some true := by decide +kernel
  obtain ⟨world, path, both⟩ := play_exhibits played
  obtain ⟨disjoint, answered⟩ := bothAnswered_spec both
  exact ⟨world, path, both, config_patches_kept none path disjoint answered⟩

/-- Both handlers read before either write is applied. -/
def readTogether : List Act :=
  [.arrive pauseBody none, .arrive lagBody (some sampleTiming), .read 0 0 [], .read 1 0 [],
    .commit 0, .commit 1, .answer 0, .answer 1]

def pausedConfig : GlobalConfig := { GlobalConfig.default with pause := some true }

def laggedConfig : GlobalConfig :=
  { GlobalConfig.default with maximumLagOnFailover := some 1048576 }

def readTogetherWorld : World :=
  ⟨laggedConfig, [pausedConfig, .default], [⟨pauseBody, none, .answered (.ok pausedConfig)⟩,
    ⟨lagBody, some sampleTiming, .answered (.ok laggedConfig)⟩]⟩

/-- The pause that was answered 200 is gone. -/
theorem concurrent_patch_lost :
    Reaches step anyAct (.start none) readTogetherWorld ∧ DisjointKeys readTogetherWorld ∧
      (∀ request ∈ readTogetherWorld.requests, Answered request) ∧
      ∃ request ∈ readTogetherWorld.requests,
        ¬ Contains (readStored none) readTogetherWorld.config request.body := by
  have played : play step anyAct (.start none) readTogether = some readTogetherWorld := rfl
  obtain ⟨disjoint, answered⟩ := bothAnswered_spec
    (show bothAnswered readTogetherWorld = true by decide +kernel)
  refine ⟨play_reaches played, disjoint, answered, _, List.mem_cons_self, ?_⟩
  rintro ⟨patched, patches, same⟩
  have paused : patchConfig (readStored none) pauseBody = some pausedConfig := rfl
  rw [paused, Option.some.injEq] at patches
  subst patched
  have pause := same .pause (by decide)
  cases pause

end PgHa.ConfigPatch
