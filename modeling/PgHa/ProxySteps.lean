import PgHa.Proxy

/-!
What each step of the proxy can do, and what a call of `update_backends` does to the health
state.
-/

namespace PgHa.Proxy

open KeyedTable RiseFall SessionMonitor Text Watch

variable {config : HealthCheckConfig} {state after : ProxyState}

/-! ### Steps by their task -/

theorem update_cases {backends : List PgBackend} (stepped : state.update backends = some after) :
    state.updater = .idle ∧ state.counting = false ∧
      ((state.health.backends.entries = [] ∧
        after = { state with updater := .writing backends }) ∨
        (state.health.backends.entries ≠ [] ∧
          after = { state with updater := .registering backends })) := by
  unfold ProxyState.update at stepped
  split at stepped
  · rename_i idle
    by_cases counting : state.counting = true
    · simp [counting] at stepped
    · by_cases none : state.health.backends.entries = []
      · simp only [counting, none, Bool.false_eq_true, if_false, if_true, Option.some.injEq]
          at stepped
        exact ⟨idle, by simpa using counting, .inl ⟨none, stepped.symm⟩⟩
      · simp only [counting, none, Bool.false_eq_true, if_false, Option.some.injEq] at stepped
        exact ⟨idle, by simpa using counting, .inr ⟨none, stepped.symm⟩⟩
  · cases stepped

theorem writeUpstream_cases (stepped : state.writeUpstream = some after) :
    ∃ backends, state.updater = .writing backends ∧
      after = { state with
        upstream := ⟨backends⟩, built := false, updater := .registering backends } := by
  unfold ProxyState.writeUpstream at stepped
  split at stepped
  · rename_i backends writing
    exact ⟨backends, writing, (Option.some.inj stepped).symm⟩
  · cases stepped

theorem register_cases (stepped : state.register = some after) :
    ∃ backends, state.updater = .registering backends ∧ state.counting = false ∧
      after = { state with health := state.health.registerAll backends, updater := .idle } := by
  unfold ProxyState.register at stepped
  split at stepped
  · rename_i backends registering
    by_cases counting : state.counting = true
    · simp [counting] at stepped
    · simp only [counting, Bool.false_eq_true, if_false, Option.some.injEq] at stepped
      exact ⟨backends, registering, by simpa using counting, stepped.symm⟩
  · cases stepped

theorem tick_cases {order : List BackendHealth} (stepped : state.tick order = some after) :
    state.checker = .idle ∧ order.Perm state.health.backends.entries ∧
      ((order = [] ∧ after = state) ∨
        (order ≠ [] ∧ after =
          { state with checker := .probing (order.map BackendHealth.name) })) := by
  unfold ProxyState.tick at stepped
  split at stepped
  · rename_i idle
    by_cases yields : order.Perm state.health.backends.entries
    · rw [if_pos yields] at stepped
      by_cases none : order = []
      · rw [if_pos none] at stepped
        exact ⟨idle, yields, .inl ⟨none, (Option.some.inj stepped).symm⟩⟩
      · rw [if_neg none] at stepped
        exact ⟨idle, yields, .inr ⟨none, (Option.some.inj stepped).symm⟩⟩
    · simp [yields] at stepped
  · cases stepped

theorem probe_cases {rw ro : Str → Option Bool} (stepped : state.probe rw ro = some after) :
    ∃ names, state.checker = .probing names ∧
      after = { state with checker := .applying (probeResults names rw ro) false } := by
  unfold ProxyState.probe at stepped
  split at stepped
  · rename_i names probing
    exact ⟨names, probing, (Option.some.inj stepped).symm⟩
  · cases stepped

theorem count_cases (stepped : state.count config = some after) :
    ∃ result rest changed, state.checker = .applying (result :: rest) changed ∧
      after = { (state.countResult config result).1 with
        checker := .applying rest (changed || (state.countResult config result).2) } := by
  unfold ProxyState.count at stepped
  split at stepped
  · rename_i result rest changed applying
    exact ⟨result, rest, changed, applying, (Option.some.inj stepped).symm⟩
  · cases stepped

theorem finish_cases (stepped : state.finish = some after) :
    (state.checker = .applying [] true ∧ after = { state with checker := .rebuilding }) ∨
      (state.checker = .applying [] false ∧
        after = { state with checker := .idle, checked := true }) := by
  unfold ProxyState.finish at stepped
  split at stepped
  · rename_i changed
    exact .inl ⟨changed, (Option.some.inj stepped).symm⟩
  · rename_i unchanged
    exact .inr ⟨unchanged, (Option.some.inj stepped).symm⟩
  · cases stepped

theorem rebuild_cases {order : List BackendHealth} (stepped : state.rebuild order = some after) :
    state.checker = .rebuilding ∧ order.Perm state.health.backends.entries ∧
      after = { state with
        upstream := ⟨order.map BackendHealth.toUpstream⟩
        built := true
        checker := .idle
        checked := true } := by
  unfold ProxyState.rebuild at stepped
  split at stepped
  · rename_i rebuilding
    by_cases yields : order.Perm state.health.backends.entries
    · simp only [yields, if_true, Option.some.injEq] at stepped
      exact ⟨rebuilding, yields, stepped.symm⟩
    · simp [yields] at stepped
  · cases stepped

theorem connect_cases {mode : ProxyMode} {counter : Nat}
    (stepped : state.connect mode counter = some after) :
    state.counting = false ∧
      (after = state ∨ ∃ session, state.selectBackend mode counter = .routed session ∧
        after = { state with sessions := state.sessions ++ [session] }) := by
  unfold ProxyState.connect at stepped
  by_cases counting : state.counting = true
  · simp [counting] at stepped
  · simp only [counting, Bool.false_eq_true, if_false] at stepped
    split at stepped
    · exact ⟨by simpa using counting, .inl (Option.some.inj stepped).symm⟩
    · exact ⟨by simpa using counting, .inl (Option.some.inj stepped).symm⟩
    · rename_i session routed
      exact ⟨by simpa using counting,
        .inr ⟨session, routed, (Option.some.inj stepped).symm⟩⟩

/-- A session goes on to its next phase, or is over. -/
theorem permit_cases {index : Nat} (stepped : state.permit config index = some after) :
    ∃ session, state.sessions[index]? = some session ∧
      ((∃ phase, after = state.setSession index { session with phase := phase }) ∨
        after = state.endSession index) := by
  unfold ProxyState.permit at stepped
  split at stepped
  · cases stepped
  · rename_i session present
    split at stepped
    · cases stepped
    · split at stepped
      · exact ⟨session, present, .inl ⟨_, (Option.some.inj stepped).symm⟩⟩
      · exact ⟨session, present, .inr (Option.some.inj stepped).symm⟩

theorem connected_cases {index : Nat} (stepped : state.connected index = some after) :
    ∃ session, state.sessions[index]? = some session ∧
      after = state.setSession index { session with phase := .piping } := by
  unfold ProxyState.connected at stepped
  split at stepped
  · cases stepped
  · rename_i session present
    split at stepped
    · cases stepped
    · exact ⟨session, present, (Option.some.inj stepped).symm⟩

theorem ended_cases {index : Nat} (stepped : state.ended index = some after) :
    after = state.endSession index := by
  unfold ProxyState.ended at stepped
  split at stepped
  · cases stepped
  · split at stepped
    · cases stepped
    · exact (Option.some.inj stepped).symm

theorem monitor_cases {index : Nat} (stepped : state.monitor config index = some after) :
    ∃ session, state.sessions[index]? = some session ∧
      ((∃ monitor, session.monitor.step (state.health.channels session.shutdownRx) =
        some (some monitor) ∧
          after = state.setSession index { session with monitor := monitor }) ∨
        (session.monitor.step (state.health.channels session.shutdownRx) = some none ∧
          after = { state.endSession index with cuts := session :: state.cuts })) := by
  unfold ProxyState.monitor at stepped
  split at stepped
  · cases stepped
  · rename_i session present
    split at stepped
    · cases stepped
    · split at stepped
      · cases stepped
      · rename_i monitor turned
        exact ⟨session, present, .inl ⟨monitor, turned, (Option.some.inj stepped).symm⟩⟩
      · rename_i turned
        exact ⟨session, present, .inr ⟨turned, (Option.some.inj stepped).symm⟩⟩

/-- The steps of connections. -/
def Act.ofSession : Act → Bool
  | .connect _ _ => true
  | .permit _ => true
  | .connected _ => true
  | .ended _ => true
  | .monitor _ => true
  | _ => false

/-- They leave the upstream list, the health state and the other tasks alone. -/
theorem session_step {act : Act} (ofSession : act.ofSession = true)
    (stepped : step config state act = some after) :
    ∃ sessions cuts, after = { state with sessions := sessions, cuts := cuts } := by
  cases act with
  | connect mode counter =>
      rcases (connect_cases stepped).2 with same | ⟨session, _, same⟩
      · exact ⟨state.sessions, state.cuts, same⟩
      · exact ⟨_, state.cuts, same⟩
  | permit index =>
      obtain ⟨session, _, ⟨phase, same⟩ | same⟩ := permit_cases stepped
      · exact ⟨_, state.cuts, same⟩
      · exact ⟨_, state.cuts, same⟩
  | connected index =>
      obtain ⟨session, _, same⟩ := connected_cases stepped
      exact ⟨_, state.cuts, same⟩
  | ended index => exact ⟨_, state.cuts, ended_cases stepped⟩
  | monitor index =>
      obtain ⟨session, _, ⟨monitor, _, same⟩ | ⟨_, same⟩⟩ := monitor_cases stepped
      · exact ⟨_, state.cuts, same⟩
      · exact ⟨_, _, same⟩
  | _ => cases ofSession

/-! ### A result is counted -/

/-- The results of other backends and modes left aside. -/
def countEntry (config : HealthCheckConfig) (backend : BackendHealth) : ProbeResult →
    BackendHealth
  | (mode, name, ok) =>
      if backend.name = name then
        backend.setStreak mode ((backend.streak mode).count config.rise config.fall ok).1
      else backend

@[simp] theorem name_countEntry (backend : BackendHealth) (result : ProbeResult) :
    (countEntry config backend result).name = backend.name := by
  obtain ⟨mode, name, ok⟩ := result
  by_cases own : backend.name = name
  · simp [countEntry, own]
  · simp [countEntry, own]

@[simp] theorem addr_countEntry (backend : BackendHealth) (result : ProbeResult) :
    (countEntry config backend result).addr = backend.addr := by
  obtain ⟨mode, name, ok⟩ := result
  by_cases own : backend.name = name
  · simp [countEntry, own]
  · simp [countEntry, own]

@[simp] theorem shutdownTx_countEntry (backend : BackendHealth) (result : ProbeResult) :
    (countEntry config backend result).shutdownTx = backend.shutdownTx := by
  obtain ⟨mode, name, ok⟩ := result
  by_cases own : backend.name = name
  · simp [countEntry, own]
  · simp [countEntry, own]

theorem markDown_backends (wasHealthy : Bool) (channel : Nat) (mode : ProxyMode) :
    (state.markDown config wasHealthy channel mode).health.backends = state.health.backends := by
  unfold ProxyState.markDown
  dsimp only
  split
  · rfl
  · rfl

/-- A counted result concerns the health state and the sessions, and opens no channel. -/
theorem countResult_frame (config : HealthCheckConfig) (state : ProxyState) (result : ProbeResult) :
    ∃ health sessions,
      (state.countResult config result).1 =
        { state with health := health, sessions := sessions } ∧
        health.nextChannel = state.health.nextChannel := by
  obtain ⟨mode, name, ok⟩ := result
  unfold ProxyState.countResult
  dsimp only
  split
  · exact ⟨state.health, state.sessions, rfl, rfl⟩
  · split
    · exact ⟨_, state.sessions, rfl, rfl⟩
    · exact ⟨_, state.sessions, rfl, rfl⟩
    · unfold ProxyState.markDown
      dsimp only
      split
      · exact ⟨_, _, rfl, rfl⟩
      · exact ⟨_, _, rfl, rfl⟩

/-- Counting a result changes, of all backends, the one it is about. -/
theorem countResult_entries (config : HealthCheckConfig) (state : ProxyState)
    (result : ProbeResult) :
    (state.countResult config result).1.health.backends.entries =
      state.health.backends.entries.map (countEntry config · result) := by
  obtain ⟨mode, name, ok⟩ := result
  unfold ProxyState.countResult
  dsimp only
  split
  · rename_i absent
    rw [List.map_congr_left (g := id), List.map_id]
    intro backend member
    simp [countEntry, get?_none.mp absent backend member]
  · rename_i backend found
    have counts : ∀ other ∈ state.health.backends.entries,
        adjustEntry BackendHealth.name name
          (fun backend' => backend'.setStreak mode
            ((backend.streak mode).count config.rise config.fall ok).1)
          other = countEntry config other (mode, name, ok) := by
      intro other member
      by_cases own : other.name = name
      · have there := mem_of_get? found
        have same := same_entry member there.1 (own.trans there.2.symm)
        simp [adjustEntry, countEntry, same, there.2]
      · simp [adjustEntry, countEntry, own]
    split
    · exact List.map_congr_left counts
    · exact List.map_congr_left counts
    · rw [markDown_backends]
      exact List.map_congr_left counts

/-- Where `upstream_changed` is not set no backend becomes healthy or unhealthy. -/
theorem countResult_unchanged {result : ProbeResult}
    (unchanged : (state.countResult config result).2 = false)
    {backend : BackendHealth} (member : backend ∈ state.health.backends.entries)
    (mode : ProxyMode) :
    ((countEntry config backend result).streak mode).healthy = (backend.streak mode).healthy := by
  obtain ⟨probed, name, ok⟩ := result
  by_cases own : backend.name = name
  · have found : state.health.backends.get? name = some backend := own ▸ get?_self member
    have unmarked : ((backend.streak probed).count config.rise config.fall ok).2 = none := by
      cases marked : ((backend.streak probed).count config.rise config.fall ok).2 with
      | none => rfl
      | some mark => cases mark <;> simp [ProxyState.countResult, found, marked] at unchanged
    have same := count_unmarked unmarked
    cases mode <;> cases probed
      <;> simp_all [countEntry, BackendHealth.setStreak, BackendHealth.streak]
  · simp [countEntry, own]

/-- Sessions and channels are left alone, unless a backend is marked down. -/
theorem countResult_sessions (config : HealthCheckConfig) (state : ProxyState) (mode : ProxyMode)
    (name : Str) (ok : Bool) :
    ((state.countResult config (mode, name, ok)).1.sessions = state.sessions ∧
        (state.countResult config (mode, name, ok)).1.health.channels = state.health.channels) ∨
      ∃ backend receivers, state.health.backends.get? name = some backend ∧
        (backend.streak mode).healthy = true ∧ ok = false ∧
        config.fall ≤ (backend.streak mode).failCount + 1 ∧
        (state.countResult config (mode, name, ok)).1.sessions =
          state.sessions.map (Session.noteDown backend.shutdownTx mode) ∧
        (state.countResult config (mode, name, ok)).1.health.channels =
          if config.shutdownOnDown then
            Function.update state.health.channels backend.shutdownTx
              ((state.health.channels backend.shutdownTx).send receivers true)
          else state.health.channels := by
  unfold ProxyState.countResult
  dsimp only
  split
  · exact .inl ⟨rfl, rfl⟩
  · rename_i backend found
    split
    · exact .inl ⟨rfl, rfl⟩
    · exact .inl ⟨rfl, rfl⟩
    · rename_i marked
      obtain ⟨healthy, failed, falls⟩ := count_down marked
      right
      refine ⟨backend, (state.sessions.map (Session.noteDown backend.shutdownTx mode)).any
        (·.shutdownRx = backend.shutdownTx), found, healthy, failed, falls, ?_⟩
      unfold ProxyState.markDown
      dsimp only
      rw [healthy, Bool.and_true]
      split
      · exact ⟨rfl, rfl⟩
      · exact ⟨rfl, rfl⟩

end PgHa.Proxy
