import PgHa.ProxyRegistry
import PgHa.Transition

/-!
The upstream list and the health state are changed by two tasks. They stay in step as long as
the calls of `update_backends` leave the registered names and addresses as they are, once the
health checker has completed a round.
-/

namespace PgHa.Proxy

open KeyedTable RiseFall Text Transition

variable {config : HealthCheckConfig} {state after : ProxyState}

/-! ### The two tables -/

structure Route where
  name : Str
  addr : Str
  isPrimary : Bool
  isHealthy : Bool
  deriving DecidableEq

def PgBackend.route (backend : PgBackend) : Route :=
  ⟨backend.name, backend.addr, backend.isPrimary, backend.isHealthy⟩

/-- The projection of a health entry. -/
def BackendHealth.route (backend : BackendHealth) : Route :=
  ⟨backend.name, backend.addr, backend.rw.healthy, backend.rw.healthy || backend.ro.healthy⟩

/-- What `primary` or `replicas` can return. -/
def Routable (upstream : UpstreamState) (backend : PgBackend) : Prop :=
  upstream.primary = some backend ∨ backend ∈ upstream.replicas

instance (upstream : UpstreamState) (backend : PgBackend) : Decidable (Routable upstream backend) :=
  inferInstanceAs (Decidable (_ ∨ _))

instance (health : HealthState) (name : Str) : Decidable (Registered health name) :=
  inferInstanceAs (Decidable (∃ _ ∈ _, _))

/-- The upstream list is the projection of the health state, in some order. -/
def Mirrors (state : ProxyState) : Prop :=
  (state.upstream.backends.map PgBackend.route).Perm
    (state.health.backends.entries.map BackendHealth.route)

instance (state : ProxyState) : Decidable (Mirrors state) :=
  inferInstanceAs (Decidable (List.Perm _ _))

structure InStep (state : ProxyState) : Prop where
  registered : ∀ backend, Routable state.upstream backend → Registered state.health backend.name
  mirrors : state.checked = true → Mirrors state

/-- A step that ends an `update_backends` call or a round. -/
def completes (state : ProxyState) : Act → Bool
  | .register => true
  | .rebuild _ => true
  | .finish =>
      match state.checker with
      | .applying [] false => true
      | _ => false
  | _ => false

/-! ### The condition -/

def Updater.backends : Updater → List PgBackend
  | .idle => []
  | .writing backends => backends
  | .registering backends => backends

/-- A round whose marks are not in the upstream list yet. -/
def Checker.marked : Checker → Bool
  | .applying _ changed => changed
  | .rebuilding => true
  | _ => false

def Checker.unmarkedEnd : Checker → Bool
  | .applying [] false => true
  | _ => false

/-- A call lists the registered backends and registers no other one, each at its address, and the
marks that are not in the upstream list yet change no route. -/
def ListsRegistered (state : ProxyState) (backends : List PgBackend) : Prop :=
  (state.checker.marked = true → Mirrors state) ∧
    (∀ backend ∈ state.health.backends.entries, listed backends backend.name = true ∧
      (lastAddr backends backend.name).getD backend.addr = backend.addr) ∧
    ∀ backend ∈ backends, backend.apiUrl ≠ [] → Registered state.health backend.name

instance (state : ProxyState) (backends : List PgBackend) :
    Decidable (ListsRegistered state backends) :=
  inferInstanceAs (Decidable (_ ∧ _ ∧ _))

/-- A call lists every backend that clients are routed to, and it is registered or comes with a
REST API URL. -/
def ListsRoutable (state : ProxyState) (backends : List PgBackend) : Prop :=
  ∀ backend ∈ state.upstream.backends, Routable state.upstream backend →
    listed backends backend.name = true ∧
      (Registered state.health backend.name ∨
        ∃ other ∈ backends, other.name = backend.name ∧ other.apiUrl ≠ [])

instance (state : ProxyState) (backends : List PgBackend) :
    Decidable (ListsRoutable state backends) :=
  inferInstanceAs (Decidable (∀ _ ∈ _, _ → _ ∧ (_ ∨ ∃ _ ∈ _, _ ∧ _)))

/-- A first round without a mark finds the registered backends in the upstream list, with their
addresses, and none of them primary or healthy. -/
def ListsUnmarked (state : ProxyState) : Prop :=
  (state.upstream.backends.map PgBackend.route).Perm
    (state.health.backends.entries.map
      fun backend => ⟨backend.name, backend.addr, false, false⟩)

instance (state : ProxyState) : Decidable (ListsUnmarked state) :=
  inferInstanceAs (Decidable (List.Perm _ _))

/-- What keeps the two tables in step. -/
def KeepsStep (state : ProxyState) : Act → Prop
  | .writeUpstream => state.checked = true → state.updater.backends = []
  | .register =>
      (state.checked = true → ListsRegistered state state.updater.backends) ∧
        (state.checked = false → ListsRoutable state state.updater.backends)
  | .finish => state.checked = false → state.checker.unmarkedEnd = true → ListsUnmarked state
  | _ => True

instance (state : ProxyState) : ∀ act, Decidable (KeepsStep state act)
  | .update _ => .isTrue trivial
  | .writeUpstream => inferInstanceAs (Decidable (_ → _))
  | .register => inferInstanceAs (Decidable ((_ → _) ∧ (_ → _)))
  | .tick _ => .isTrue trivial
  | .probe _ _ => .isTrue trivial
  | .count => .isTrue trivial
  | .finish => inferInstanceAs (Decidable (_ → _ → _))
  | .rebuild _ => .isTrue trivial
  | .connect _ _ => .isTrue trivial
  | .permit _ => .isTrue trivial
  | .connected _ => .isTrue trivial
  | .ended _ => .isTrue trivial
  | .monitor _ => .isTrue trivial

/-! ### The tables over a run -/

/-- Name and address of what is in a table. -/
def PgBackend.place (backend : PgBackend) : Str × Str := (backend.name, backend.addr)

def BackendHealth.place (backend : BackendHealth) : Str × Str := (backend.name, backend.addr)

/-- Before the first round is complete, and after it. -/
structure Tracking (state : ProxyState) : Prop where
  writing : ∀ backends, state.updater = .writing backends → state.health.backends.entries = []
  routable : state.checked = false → state.health.backends.entries ≠ [] →
    ∀ backend, Routable state.upstream backend → Registered state.health backend.name
  unmarked : state.checked = false → state.checker.marked = false →
    ∀ backend ∈ state.health.backends.entries, backend.rw.healthy = false ∧
      backend.ro.healthy = false
  places : state.checked = true →
    (state.upstream.backends.map PgBackend.place).Perm
      (state.health.backends.entries.map BackendHealth.place)
  mirrors : state.checked = true → state.checker.marked = false → Mirrors state

theorem routable_mem {upstream : UpstreamState} {backend : PgBackend}
    (routable : Routable upstream backend) :
    backend ∈ upstream.backends := by
  rcases routable with picked | replica
  · exact List.mem_of_find?_eq_some picked
  · exact (List.mem_filter.mp replica).1

theorem registered_of_places
    (places : (state.upstream.backends.map PgBackend.place).Perm
      (state.health.backends.entries.map BackendHealth.place))
    {backend : PgBackend} (routable : Routable state.upstream backend) :
    Registered state.health backend.name := by
  have there := places.subset (List.mem_map_of_mem (routable_mem routable))
  obtain ⟨entry, member, same⟩ := List.mem_map.mp there
  exact ⟨entry, member, congrArg Prod.fst same⟩

theorem places_of_mirrors (mirrors : Mirrors state) :
    (state.upstream.backends.map PgBackend.place).Perm
      (state.health.backends.entries.map BackendHealth.place) := by
  have projected := List.Perm.map (fun route : Route => (route.name, route.addr)) mirrors
  rw [List.map_map, List.map_map] at projected
  exact projected

/-- A routed backend is registered, once one backend is. -/
theorem tracking_registered (tracking : Tracking state)
    (some : state.health.backends.entries ≠ [])
    {backend : PgBackend} (routable : Routable state.upstream backend) :
    Registered state.health backend.name := by
  cases checked : state.checked with
  | true => exact registered_of_places (tracking.places checked) routable
  | false => exact tracking.routable checked some backend routable

theorem tracking_new : Tracking .new where
  writing := by
    intro backends writing
    cases writing
  routable := by
    intro _ some
    exact absurd rfl some
  unmarked := by
    intro _ _ backend member
    cases member
  places := by
    intro checked
    cases checked
  mirrors := by
    intro checked
    cases checked

/-! ### Calls of `update_backends` -/

theorem tracking_writeUpstream (tracking : Tracking state) (keeps : KeepsStep state .writeUpstream)
    (stepped : state.writeUpstream = some after) : Tracking after := by
  obtain ⟨backends, writing, same⟩ := writeUpstream_cases stepped
  have none := tracking.writing backends writing
  subst same
  constructor
  · intro backends writing
    cases writing
  · exact fun _ some => absurd none some
  · exact tracking.unmarked
  · intro checked
    have empty : backends = [] := by simpa [writing, Updater.backends] using keeps checked
    simp [empty, none]
  · intro checked _
    have empty : backends = [] := by simpa [writing, Updater.backends] using keeps checked
    simp [Mirrors, empty, none]

/-- A call that lists the registered backends moves no entry and adds none. -/
theorem registerAll_routes {backends : List PgBackend} (lists : ListsRegistered state backends) :
    (state.health.registerAll backends).backends.entries.map BackendHealth.route =
      state.health.backends.entries.map BackendHealth.route := by
  have all : (state.health.registerAll backends).backends.entries =
      state.health.backends.entries.map (backends.foldl refreshBy) := by
    unfold HealthState.registerAll HealthState.retainListed Keyed.retain
    dsimp only
    rw [foldl_refreshes backends lists.2.2, List.filter_eq_self]
    intro backend member
    obtain ⟨old, there, rfl⟩ := List.mem_map.mp member
    rw [(keeps_refreshAll backends old).name]
    exact (lists.2.1 old there).1
  rw [all, List.map_map]
  apply List.map_congr_left
  intro old there
  have keeps := keeps_refreshAll backends old
  have addr := (addr_refreshAll backends old).trans (lists.2.1 old there).2
  simp [BackendHealth.route, keeps.name, keeps.rw, keeps.ro, addr]

/-- After the first round a call leaves the projection as it is. -/
theorem mirrors_register {backends : List PgBackend} (tracking : Tracking state)
    (checked : state.checked = true) (lists : ListsRegistered state backends) :
    Mirrors { state with health := state.health.registerAll backends, updater := .idle } := by
  have before : Mirrors state := by
    cases marked : state.checker.marked with
    | true => exact lists.1 marked
    | false => exact tracking.mirrors checked marked
  unfold Mirrors
  dsimp only
  rw [registerAll_routes lists]
  exact before

theorem tracking_register (tracking : Tracking state) (keeps : KeepsStep state .register)
    (stepped : state.register = some after) : Tracking after ∧ InStep after := by
  obtain ⟨backends, registering, _, same⟩ := register_cases stepped
  have call : state.updater.backends = backends := by
    rw [registering]
    rfl
  subst same
  cases checked : state.checked with
  | true =>
      have lists := keeps.1 checked
      rw [call] at lists
      have mirrors := mirrors_register tracking checked lists
      have places := places_of_mirrors mirrors
      constructor
      · constructor
        · intro backends writing
          cases writing
        · intro unchecked
          cases unchecked
        · intro unchecked
          cases unchecked
        · exact fun _ => places
        · exact fun _ _ => mirrors
      · exact ⟨fun _ routable => registered_of_places places routable, fun _ => mirrors⟩
  | false =>
      have lists := keeps.2 checked
      rw [call] at lists
      have registered : ∀ backend, Routable state.upstream backend →
          Registered (state.health.registerAll backends) backend.name := by
        intro backend routable
        obtain ⟨isListed, known⟩ := lists backend (routable_mem routable) routable
        exact registerAll_registers isListed known
      constructor
      · constructor
        · intro backends writing
          cases writing
        · exact fun _ _ => registered
        · intro _ unmarked backend member
          rcases registerAll_entries member with ⟨old, there, keeps⟩ | fresh
          · rw [keeps.rw, keeps.ro]
            exact tracking.unmarked checked unmarked old there
          · rw [fresh.rw, fresh.ro]
            exact ⟨rfl, rfl⟩
        · intro done
          cases done
        · intro done
          cases done
      · refine ⟨registered, ?_⟩
        intro done
        cases done

/-! ### Rounds -/

/-- The checker goes on without a mark, and nothing else changes. -/
theorem tracking_checker {checker : Checker} (tracking : Tracking state)
    (marked : checker.marked = false → state.checker.marked = false) :
    Tracking { state with checker := checker } where
  writing := tracking.writing
  routable := tracking.routable
  unmarked checked unmarked := tracking.unmarked checked (marked unmarked)
  places := tracking.places
  mirrors checked unmarked := tracking.mirrors checked (marked unmarked)

theorem place_countEntry (config : HealthCheckConfig) (result : ProbeResult) :
    BackendHealth.place ∘ (countEntry config · result) = BackendHealth.place := by
  funext backend
  simp [BackendHealth.place]

theorem tracking_count (tracking : Tracking state) (stepped : state.count config = some after) :
    Tracking after := by
  obtain ⟨result, rest, changed, applying, same⟩ := count_cases stepped
  have entries := countResult_entries config state result
  have kept := @countResult_unchanged config state result
  obtain ⟨health, sessions, frame, _⟩ := countResult_frame config state result
  rw [frame] at same entries
  dsimp only at same entries
  subst same
  -- a mark that is not there leaves the flags, and so the routes, as they are
  have quiet : (changed || (state.countResult config result).2) = false →
      state.checker.marked = false ∧ ∀ backend ∈ state.health.backends.entries,
        (countEntry config backend result).rw.healthy = backend.rw.healthy ∧
          (countEntry config backend result).ro.healthy = backend.ro.healthy := by
    intro none
    rw [Bool.or_eq_false_iff] at none
    rw [applying]
    exact ⟨none.1, fun backend member =>
      ⟨kept none.2 member .readWrite, kept none.2 member .readOnly⟩⟩
  constructor
  · intro backends writing
    rw [entries, tracking.writing backends writing, List.map_nil]
  · intro checked some backend routable
    have before : state.health.backends.entries ≠ [] := by
      intro none
      rw [entries, none] at some
      exact some rfl
    obtain ⟨entry, member, named⟩ := tracking.routable checked before backend routable
    exact ⟨_, entries ▸ List.mem_map_of_mem member,
      (name_countEntry entry result).trans named⟩
  · intro checked none backend member
    rw [entries] at member
    obtain ⟨old, there, rfl⟩ := List.mem_map.mp member
    obtain ⟨before, same⟩ := quiet none
    rw [(same old there).1, (same old there).2]
    exact tracking.unmarked checked before old there
  · intro checked
    rw [entries, List.map_map, place_countEntry]
    exact tracking.places checked
  · intro checked none
    obtain ⟨before, same⟩ := quiet none
    have routes : state.health.backends.entries.map
        (BackendHealth.route ∘ (countEntry config · result)) =
        state.health.backends.entries.map BackendHealth.route := by
      apply List.map_congr_left
      intro entry member
      simp [BackendHealth.route, same entry member]
    unfold Mirrors
    dsimp only
    rw [entries, List.map_map, routes]
    exact tracking.mirrors checked before

theorem route_unmarked {backend : BackendHealth}
    (unmarked : backend.rw.healthy = false ∧ backend.ro.healthy = false) :
    backend.route = ⟨backend.name, backend.addr, false, false⟩ := by
  simp [BackendHealth.route, unmarked]

/-- A round without a mark. -/
theorem mirrors_finish (tracking : Tracking state) (keeps : KeepsStep state .finish)
    (unchanged : state.checker = .applying [] false) : Mirrors state := by
  have unmarked : state.checker.marked = false := by
    rw [unchanged]
    rfl
  cases checked : state.checked with
  | true => exact tracking.mirrors checked unmarked
  | false =>
      have lists := keeps checked (by rw [unchanged]; rfl)
      have routes : state.health.backends.entries.map BackendHealth.route =
          state.health.backends.entries.map fun backend =>
            ⟨backend.name, backend.addr, false, false⟩ :=
        List.map_congr_left fun backend member =>
          route_unmarked (tracking.unmarked checked unmarked backend member)
      unfold Mirrors
      rw [routes]
      exact lists

theorem route_toUpstream : PgBackend.route ∘ BackendHealth.toUpstream = BackendHealth.route := by
  funext backend
  cases rw : backend.rw.healthy <;> cases ro : backend.ro.healthy <;>
    simp [BackendHealth.toUpstream, PgBackend.route, BackendHealth.route, rw, ro]

/-- From any tables that mirror each other. -/
theorem tracking_checked {upstream : UpstreamState} (built : Bool) (tracking : Tracking state)
    (mirrors : (upstream.backends.map PgBackend.route).Perm
      (state.health.backends.entries.map BackendHealth.route)) :
    Tracking { state with
      upstream := upstream, built := built, checker := .idle, checked := true } ∧
      InStep { state with
        upstream := upstream, built := built, checker := .idle, checked := true } := by
  have after : Mirrors
      { state with upstream := upstream, built := built, checker := .idle, checked := true } :=
        mirrors
  have places := places_of_mirrors after
  constructor
  · constructor
    · exact tracking.writing
    · intro unchecked
      cases unchecked
    · intro unchecked
      cases unchecked
    · exact fun _ => places
    · exact fun _ _ => after
  · exact ⟨fun _ routable => registered_of_places places routable, fun _ => after⟩

theorem tracking_rebuild {order : List BackendHealth} (tracking : Tracking state)
    (stepped : state.rebuild order = some after) : Tracking after ∧ InStep after := by
  obtain ⟨_, yields, same⟩ := rebuild_cases stepped
  subst same
  apply tracking_checked true tracking
  dsimp only
  rw [List.map_map, route_toUpstream]
  exact yields.map BackendHealth.route

theorem tracking_step (act : Act) (tracking : Tracking state) (keeps : KeepsStep state act)
    (stepped : step config state act = some after) :
    Tracking after ∧ (completes state act = true → InStep after) := by
  cases act with
  | update backends =>
      refine ⟨?_, fun completed => by cases completed⟩
      rcases (update_cases stepped).2.2 with ⟨none, same⟩ | ⟨_, same⟩
      · subst same
        exact ⟨fun _ _ => none, tracking.routable, tracking.unmarked, tracking.places,
          tracking.mirrors⟩
      · subst same
        refine ⟨?_, tracking.routable, tracking.unmarked, tracking.places, tracking.mirrors⟩
        intro backends writing
        cases writing
  | writeUpstream =>
      exact ⟨tracking_writeUpstream tracking keeps stepped, fun completed => by cases completed⟩
  | register =>
      have kept := tracking_register tracking keeps stepped
      exact ⟨kept.1, fun _ => kept.2⟩
  | tick order =>
      refine ⟨?_, fun completed => by cases completed⟩
      obtain ⟨idle, _, ⟨_, same⟩ | ⟨_, same⟩⟩ := tick_cases stepped
      · subst same
        exact tracking
      · subst same
        exact tracking_checker tracking fun _ => by rw [idle]; rfl
  | probe rw ro =>
      obtain ⟨names, probing, same⟩ := probe_cases stepped
      subst same
      refine ⟨tracking_checker tracking ?_, fun completed => by cases completed⟩
      intro _
      rw [probing]
      rfl
  | count => exact ⟨tracking_count tracking stepped, fun completed => by cases completed⟩
  | finish =>
      rcases finish_cases stepped with ⟨changed, same⟩ | ⟨unchanged, same⟩
      · subst same
        refine ⟨tracking_checker tracking (fun marked => by cases marked), ?_⟩
        intro completed
        simp [completes, changed] at completed
      · subst same
        have kept := tracking_checked state.built tracking (mirrors_finish tracking keeps unchanged)
        exact ⟨kept.1, fun _ => kept.2⟩
  | rebuild order =>
      have kept := tracking_rebuild tracking stepped
      exact ⟨kept.1, fun _ => kept.2⟩
  | _ =>
      obtain ⟨sessions, cuts, same⟩ := session_step rfl stepped
      subst same
      exact ⟨⟨tracking.writing, tracking.routable, tracking.unmarked, tracking.places,
        tracking.mirrors⟩,
        fun completed => by cases completed⟩

theorem tracking_reaches (path : Reaches (step config) KeepsStep .new state) : Tracking state :=
  reaches_invariant Tracking tracking_new
    (fun _ act _ before keeps stepped => (tracking_step act before keeps stepped).1) path

/-! ### Connections -/

theorem select_routable {upstream : UpstreamState} {counter : Nat} {mode : ProxyMode} {name : Str}
    {toReplica : Bool} (selected : upstream.select counter mode = some (name, toReplica)) :
    ∃ backend, Routable upstream backend ∧ backend.name = name := by
  have ofPrimary : (upstream.primary.map fun b => (b.name, false)) = some (name, toReplica) →
      ∃ backend, Routable upstream backend ∧ backend.name = name := by
    intro picked
    obtain ⟨backend, found, same⟩ := Option.map_eq_some_iff.mp picked
    exact ⟨backend, .inl found, congrArg Prod.fst same⟩
  cases mode with
  | readWrite => exact ofPrimary selected
  | readOnly =>
      unfold UpstreamState.select at selected
      dsimp only at selected
      split at selected
      · exact ofPrimary selected
      · obtain ⟨backend, found, same⟩ := Option.map_eq_some_iff.mp selected
        exact ⟨backend, .inr (List.mem_of_getElem? found), congrArg Prod.fst same⟩

/-- While a backend is registered no client is dropped for one that is not. -/
theorem tracking_found (tracking : Tracking state) (some : state.health.backends.entries ≠ [])
    (mode : ProxyMode) (counter : Nat) (name : Str) :
    state.selectBackend mode counter ≠ .notFound name := by
  intro dropped
  unfold ProxyState.selectBackend at dropped
  split at dropped
  · cases dropped
  · rename_i selectedName toReplica selected
    split at dropped
    · rename_i absent
      obtain ⟨backend, routable, named⟩ := select_routable selected
      have registered := tracking_registered tracking some routable
      exact registered_iff.mp (named ▸ registered) absent
    · cases dropped

/-- In every run whose calls and rounds meet the condition, in any interleaving: what completes
leaves the tables in step, and no client is dropped over a healthy backend. -/
theorem routing_in_step (path : Reaches (step config) KeepsStep .new state) :
    (∀ act after, KeepsStep state act → completes state act = true →
      step config state act = some after → InStep after) ∧
    ((∃ backend ∈ state.health.backends.entries, backend.rw.healthy = true ∨
      backend.ro.healthy = true) →
      ∀ mode counter name, state.selectBackend mode counter ≠ .notFound name) := by
  have tracking := tracking_reaches path
  constructor
  · exact fun act after keeps completed stepped =>
      (tracking_step act tracking keeps stepped).2 completed
  · rintro ⟨backend, member, _⟩
    exact tracking_found tracking (List.ne_nil_of_mem member)

def reader (name : Str) (healthy : Bool) : PgBackend where
  addr := name ++ ":5432".toList
  name := name
  isPrimary := false
  isHealthy := healthy
  apiUrl := "http://".toList ++ name ++ ":8008".toList

def readerHealth (name : Str) (channel : Nat) (rw ro : Streak) : BackendHealth :=
  { BackendHealth.new (reader name false) channel with rw := rw, ro := ro }

/-- Two replicas that are not running yet, which come up for reading. -/
def startUp : List Act :=
  [.update [reader ['a'] false, reader ['b'] false], .writeUpstream, .register] ++
    round [readerHealth ['a'] 0 .fresh .fresh, readerHealth ['b'] 1 .fresh .fresh] false true ++
    round [readerHealth ['b'] 1 ⟨false, 1, 0⟩ ⟨false, 0, 1⟩,
      readerHealth ['a'] 0 ⟨false, 1, 0⟩ ⟨false, 0, 1⟩]
      false true ++
    [.rebuild [readerHealth ['a'] 0 ⟨false, 2, 0⟩ ⟨true, 0, 2⟩,
      readerHealth ['b'] 1 ⟨false, 2, 0⟩ ⟨true, 0, 2⟩]]

/-- The call that follows lists the same replicas, as running. -/
theorem startUp_in_step :
    ∃ state after, Reaches (step .default) KeepsStep .new state ∧
      step .default state .register = some after ∧ after.checked = true ∧ InStep after := by
  have played : (play (step .default) KeepsStep .new
      (startUp ++ [.update [reader ['a'] true, reader ['b'] true]])).map
        (fun state => decide (KeepsStep state .register) &&
          ((step .default state .register).map ProxyState.checked == some true)) = some true := by
    decide +kernel
  obtain ⟨state, path, done⟩ := play_exhibits played
  simp only [Bool.and_eq_true, decide_eq_true_eq, beq_iff_eq] at done
  obtain ⟨after, stepped, checked⟩ := Option.map_eq_some_iff.mp done.2
  exact ⟨state, after, path, stepped, checked,
    (routing_in_step path).1 .register after done.1 rfl stepped⟩

/-- A replica is routed to that is not registered, and one is up that a client does not get. -/
def dropsReader (state : ProxyState) : Bool :=
  (state.upstream.replicas.any fun backend => !decide (Registered state.health backend.name)) &&
    (state.health.backends.entries.any fun backend => backend.ro.healthy) &&
    match state.selectBackend .readOnly 0 with
    | .notFound _ => true
    | _ => false

/-- One of two replicas that are up leaves the cluster. -/
theorem removed_replica_routed :
    ∃ before after, Reaches (step .default) anyAct .new before ∧
      completes before .register = true ∧
      step .default before .register = some after ∧ ¬ InStep after ∧
      (∃ backend ∈ after.health.backends.entries, backend.ro.healthy = true) ∧
      ∃ name, after.selectBackend .readOnly 0 = .notFound name := by
  have played : (play (step .default) anyAct .new (startUp ++ [.update [reader ['b'] true]])).map
      (fun state => (step .default state .register).any dropsReader) = some true := by
    decide +kernel
  obtain ⟨before, path, drops⟩ := play_exhibits played
  obtain ⟨after, stepped, dropped⟩ := (Option.any_eq_true ..).mp drops
  simp only [dropsReader, Bool.and_eq_true, List.any_eq_true, Bool.not_eq_true',
    decide_eq_false_iff_not] at dropped
  obtain ⟨⟨⟨backend, routed, unregistered⟩, healthy⟩, selected⟩ := dropped
  refine ⟨before, after, path, rfl, stepped, ?_, healthy, ?_⟩
  · intro inStep
    exact unregistered (inStep.registered backend (.inr routed))
  · split at selected
    · rename_i name notFound
      exact ⟨name, notFound⟩
    · cases selected

end PgHa.Proxy
