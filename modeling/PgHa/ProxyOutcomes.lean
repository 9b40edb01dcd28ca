import PgHa.Hysteresis
import PgHa.ProxyLimits

/-!
What the probes of a backend say, and where clients are sent: in every run a backend is up
for a mode exactly by the outcomes that were counted for it since it was registered, and a
list built from the health state routes by them.
-/

namespace PgHa.Proxy

open KeyedTable RiseFall Text Transition

/-- The proxy, and the outcomes counted for each registered name, the last one at the end. -/
structure Recorded where
  proxy : ProxyState
  outcomes : ProxyMode → Str → List Bool

def Recorded.new : Recorded := ⟨.new, fun _ _ => []⟩

/-- The outcomes after a step, which are those of a registration. -/
def Recorded.noted (recorded : Recorded) (after : ProxyState) (act : Act) (mode : ProxyMode)
    (name : Str) :
    List Bool :=
  match act with
  | .count =>
      match recorded.proxy.checker with
      | .applying ((probed, counted, ok) :: _) _ =>
          if probed = mode ∧ counted = name ∧ (after.health.backends.get? name).isSome then
            recorded.outcomes mode name ++ [ok]
          else recorded.outcomes mode name
      | _ => recorded.outcomes mode name
  | .register =>
      if (after.health.backends.get? name).isSome then recorded.outcomes mode name else []
  | _ => recorded.outcomes mode name

def record (config : HealthCheckConfig) (recorded : Recorded) (act : Act) : Option Recorded :=
  (step config recorded.proxy act).map fun after => ⟨after, recorded.noted after act⟩

variable {config : HealthCheckConfig} {recorded next : Recorded} {name : Str}

/-! ### The counts of a registration -/

/-- The streaks of a backend are those of its outcomes, and a name that is not registered has
none. -/
structure Counts (config : HealthCheckConfig) (recorded : Recorded) : Prop where
  streaks : ∀ backend ∈ recorded.proxy.health.backends.entries, ∀ mode,
    backend.streak mode = Streak.after config.rise config.fall (recorded.outcomes mode backend.name)
  absent : ∀ name, recorded.proxy.health.backends.get? name = none →
    ∀ mode, recorded.outcomes mode name = []

theorem counts_new (config : HealthCheckConfig) : Counts config .new where
  streaks := by
    intro backend member
    cases member
  absent _ _ _ := rfl

theorem streak_countEntry (backend : BackendHealth) (mode probed : ProxyMode) (ok : Bool) :
    ((countEntry config backend (probed, name, ok)).streak mode) =
      if probed = mode ∧ name = backend.name then
        ((backend.streak mode).count config.rise config.fall ok).1
      else backend.streak mode := by
  by_cases own : backend.name = name
  · cases mode <;> cases probed
      <;> simp [countEntry, own, BackendHealth.setStreak, BackendHealth.streak]
  · simp [countEntry, own, Ne.symm own]

theorem counts_count (counts : Counts config recorded)
    (recording : record config recorded .count = some next) :
    Counts config next := by
  obtain ⟨after, stepped, same⟩ := Option.map_eq_some_iff.mp recording
  obtain ⟨⟨probed, counted, ok⟩, rest, changed, applying, after_eq⟩ := count_cases stepped
  have entries := countResult_entries config recorded.proxy (probed, counted, ok)
  subst same after_eq
  have names : ∀ name,
      ((recorded.proxy.countResult config (probed, counted, ok)).1.health.backends.get?
      name).isSome =
      (recorded.proxy.health.backends.get? name).isSome := by
    intro name
    simp only [Keyed.get?, entries, List.find?_map, Option.isSome_map]
    congr 2
    funext backend
    simp
  constructor
  · intro backend member mode
    rw [entries] at member
    obtain ⟨old, there, rfl⟩ := List.mem_map.mp member
    have before := counts.streaks old there mode
    have present : (recorded.proxy.health.backends.get? old.name).isSome = true := by
      rw [get?_self there]
      rfl
    rw [name_countEntry, streak_countEntry, before]
    simp only [Recorded.noted, applying, names, present, and_true]
    split
    · exact (after_concat _ _).symm
    · rfl
  · intro name none mode
    have absent : recorded.proxy.health.backends.get? name = Option.none := by
      rw [← Option.not_isSome_iff_eq_none, ← names, none]
      simp
    simp [Recorded.noted, applying, none, counts.absent name absent mode]

theorem counts_register (counts : Counts config recorded)
    (recording : record config recorded .register = some next) : Counts config next := by
  obtain ⟨after, stepped, same⟩ := Option.map_eq_some_iff.mp recording
  obtain ⟨backends, _, _, after_eq⟩ := register_cases stepped
  subst same after_eq
  constructor
  · intro backend member mode
    have present := get?_self member
    simp only [Recorded.noted]
    dsimp only at present
    rw [present]
    cases found : recorded.proxy.health.backends.get? backend.name with
    | none =>
        rcases registerAll_entries member with ⟨old, there, keeps⟩ | fresh
        · exact absurd keeps.name.symm (get?_none.mp found old there)
        · rw [counts.absent backend.name found mode]
          cases mode with
          | readWrite => exact fresh.rw
          | readOnly => exact fresh.ro
    | some old =>
        -- the entry is the one that was there
        have there := mem_of_get? found
        obtain ⟨kept, member', keeps⟩ :=
          (grows_foldl backends recorded.proxy.health).kept old there.1
        have same := same_entry (mem_retainListed.mp member).1 member'
            (there.2.symm.trans keeps.name.symm)
        have before := counts.streaks old there.1 mode
        rw [there.2] at before
        rw [Option.isSome_some, if_pos rfl, ← before, same]
        cases mode with
        | readWrite => exact keeps.rw
        | readOnly => exact keeps.ro
  · intro name none mode
    dsimp only at none
    simp [Recorded.noted, none]

theorem counts_step (act : Act) (counts : Counts config recorded)
    (recording : record config recorded act = some next) : Counts config next := by
  cases act with
  | count => exact counts_count counts recording
  | register => exact counts_register counts recording
  | update _ | writeUpstream | tick _ | probe _ _ | finish | rebuild _ =>
      obtain ⟨after, stepped, same⟩ := Option.map_eq_some_iff.mp recording
      have health := (plain_step rfl stepped).1
      subst same
      exact ⟨by rw [health]; exact counts.streaks, by rw [health]; exact counts.absent⟩
  | connect _ _ | permit _ | connected _ | ended _ | monitor _ =>
      obtain ⟨after, stepped, same⟩ := Option.map_eq_some_iff.mp recording
      obtain ⟨sessions, cuts, after_eq⟩ := session_step rfl stepped
      subst same after_eq
      exact ⟨counts.streaks, counts.absent⟩

theorem counts_reaches (path : Reaches (record config) anyAct .new recorded) :
    Counts config recorded :=
  reaches_invariant (Counts config) (counts_new config)
    (fun _ act _ before _ recording => counts_step act before recording) path

/-! ### Routes -/

/-- The outcomes of a name have it up for a mode. -/
def Recorded.up (config : HealthCheckConfig) (recorded : Recorded) (mode : ProxyMode)
    (name : Str) : Prop :=
  Risen config.rise config.fall (recorded.outcomes mode name)

theorem counts_up (counts : Counts config recorded) {backend : BackendHealth}
    (member : backend ∈ recorded.proxy.health.backends.entries) (mode : ProxyMode) :
    (backend.streak mode).healthy = true ↔ recorded.up config mode backend.name := by
  rw [counts.streaks backend member mode]
  exact healthy_iff _ _ _

/-- The upstream list has the registered names, each with the marks of its outcomes. -/
structure RoutesByOutcomes (config : HealthCheckConfig) (recorded : Recorded) : Prop where
  names : ∀ name, Registered recorded.proxy.health name ↔
    ∃ backend ∈ recorded.proxy.upstream.backends, backend.name = name
  primary : ∀ backend ∈ recorded.proxy.upstream.backends,
    backend.isPrimary = true ↔ recorded.up config .readWrite backend.name
  healthy : ∀ backend ∈ recorded.proxy.upstream.backends,
    backend.isHealthy = true ↔ recorded.up config .readWrite backend.name ∨
      recorded.up config .readOnly backend.name

theorem routes_rebuild {order : List BackendHealth} (counts : Counts config recorded)
    (recording : record config recorded (.rebuild order) = some next) :
    RoutesByOutcomes config next := by
  obtain ⟨after, stepped, same⟩ := Option.map_eq_some_iff.mp recording
  obtain ⟨_, yields, after_eq⟩ := rebuild_cases stepped
  subst same after_eq
  constructor
  · intro name
    constructor
    · rintro ⟨entry, member, named⟩
      exact ⟨entry.toUpstream, List.mem_map_of_mem (yields.symm.subset member), named⟩
    · rintro ⟨backend, member, named⟩
      obtain ⟨entry, there, rfl⟩ := List.mem_map.mp member
      exact ⟨entry, yields.subset there, named⟩
  · intro backend member
    obtain ⟨entry, there, rfl⟩ := List.mem_map.mp member
    exact counts_up counts (yields.subset there) .readWrite
  · intro backend member
    obtain ⟨entry, there, rfl⟩ := List.mem_map.mp member
    have up := counts_up counts (yields.subset there) .readWrite
    have up' := counts_up counts (yields.subset there) .readOnly
    have marks : entry.toUpstream.isHealthy = true ↔ entry.rw.healthy = true ∨
        entry.ro.healthy = true := by
      cases rw : entry.rw.healthy <;> cases ro : entry.ro.healthy
        <;> simp [BackendHealth.toUpstream, rw, ro]
    exact marks.trans (or_congr up up')

/-- A client for writes gets a backend that is up for writing, and is turned away where none is. -/
theorem routes_write (routes : RoutesByOutcomes config recorded) (counter : Nat) :
    (∀ session, recorded.proxy.selectBackend .readWrite counter = .routed session →
        recorded.up config .readWrite session.backend) ∧
      (recorded.proxy.selectBackend .readWrite counter = .noBackend ↔
        ∀ name, Registered recorded.proxy.health name →
          ¬ recorded.up config .readWrite name) := by
  have picked : ∀ backend, recorded.proxy.upstream.primary = some backend →
      backend ∈ recorded.proxy.upstream.backends ∧
        recorded.up config .readWrite backend.name := by
    intro backend found
    have member := List.mem_of_find?_eq_some found
    have marked := List.find?_some found
    rw [Bool.and_eq_true] at marked
    exact ⟨member, (routes.primary backend member).mp marked.1⟩
  constructor
  · intro session routed
    unfold ProxyState.selectBackend at routed
    split at routed
    · cases routed
    · rename_i name toReplica selected
      split at routed
      · cases routed
      · cases routed
        obtain ⟨backend, found, same⟩ := Option.map_eq_some_iff.mp selected
        cases same
        exact (picked backend found).2
  · constructor
    · intro turned name registered up
      obtain ⟨backend, member, rfl⟩ := (routes.names name).mp registered
      have marked := (routes.primary backend member).mpr up
      have healthy := (routes.healthy backend member).mpr (.inl up)
      unfold ProxyState.selectBackend at turned
      split at turned
      · rename_i none
        have absent : recorded.proxy.upstream.primary = Option.none := by
          simpa [UpstreamState.select] using none
        have unmarked := List.find?_eq_none.mp absent backend member
        simp [marked, healthy] at unmarked
      · split at turned
        · cases turned
        · cases turned
    · intro down
      have absent : recorded.proxy.upstream.primary = none := by
        cases found : recorded.proxy.upstream.primary with
        | none => rfl
        | some backend =>
            have there := picked backend found
            exact absurd there.2
              (down backend.name ((routes.names backend.name).mpr ⟨backend, there.1, rfl⟩))
      simp [ProxyState.selectBackend, UpstreamState.select, absent]

/-- In every run, whatever the probes return, and with `update_backends` calls and connections
anywhere between: a registered backend is up for a mode exactly by its outcomes since it was
registered, and whenever the upstream list is built from the health state its marks, and the
connections for writing, go by them. -/
theorem marks_by_outcomes (path : Reaches (record config) anyAct .new recorded) :
    (∀ backend ∈ recorded.proxy.health.backends.entries, ∀ mode,
        (backend.streak mode).healthy = true ↔ recorded.up config mode backend.name) ∧
      ∀ order next, record config recorded (.rebuild order) = some next →
        RoutesByOutcomes config next ∧ ∀ counter,
          (∀ session, next.proxy.selectBackend .readWrite counter = .routed session →
              next.up config .readWrite session.backend) ∧
            (next.proxy.selectBackend .readWrite counter = .noBackend ↔
              ∀ name, Registered next.proxy.health name →
                ¬ next.up config .readWrite name) := by
  have counts := counts_reaches path
  constructor
  · exact fun backend member mode => counts_up counts member mode
  · intro order next recording
    have routes := routes_rebuild counts recording
    exact ⟨routes, routes_write routes⟩

/-- A backend that answers `/primary` in the first two rounds. -/
theorem marks_by_outcomes_first :
    ∃ recorded, Reaches (record .default) anyAct .new recorded ∧
      recorded.up .default .readWrite ['a'] := by
  let backend : PgBackend := ⟨"a:5432".toList, ['a'], false, true, "http://a:8008".toList⟩
  have played : (play (record .default) anyAct .new
      ([.update [backend], .writeUpstream, .register] ++
        round [BackendHealth.new backend 0] true true ++
        round [{ BackendHealth.new backend 0 with
          rw := ⟨false, 0, 1⟩, ro := ⟨false, 0, 1⟩ }] true true)).map
          (fun recorded => (recorded.proxy.health.backends.get? ['a']).any
            fun entry => entry.rw.healthy) =
        some true := by
    decide +kernel
  obtain ⟨recorded, path, healthy⟩ := play_exhibits played
  obtain ⟨entry, found, marked⟩ := (Option.any_eq_true ..).mp healthy
  have there := mem_of_get? found
  exact ⟨recorded, path,
    there.2 ▸ ((marks_by_outcomes path).1 entry there.1 .readWrite).mp marked⟩

end PgHa.Proxy
