import PgHa.ProxyRegistry
import PgHa.Transition

/-!
The connection limit. A semaphore is never overdrawn; a name is not either, as long as no
call of `update_backends` drops a backend that has connections, since the backend has a new
semaphore when it comes back.
-/

namespace PgHa.Proxy

open KeyedTable RiseFall Text Transition

variable {config : HealthCheckConfig} {state after : ProxyState}

/-- The sessions of a kind that are past `try_acquire`. -/
def ProxyState.held (state : ProxyState) (kind : Session → Bool) : Nat :=
  state.sessions.countP fun session => kind session && decide (session.phase ≠ .selected)

/-- The connections to a backend by its name, for writing and for reading. -/
def ProxyState.connections (state : ProxyState) (name : Str) : Nat :=
  state.held fun session => session.backend = name

theorem permits_eq (state : ProxyState) (channel : Nat) :
    state.permits channel = state.held fun session => session.shutdownRx = channel := by
  unfold ProxyState.permits ProxyState.held
  exact (List.countP_eq_length_filter).symm

/-- A call of `update_backends` lists every registered backend that has a session. -/
def KeepsBusy (state : ProxyState) : Act → Prop
  | .register => ∀ backends, state.updater = .registering backends →
      ∀ session ∈ state.sessions, listed backends session.backend = true
  | _ => True

/-! ### Steps that leave the health state and the sessions alone -/

def Act.plain : Act → Bool
  | .update _ => true
  | .writeUpstream => true
  | .tick _ => true
  | .probe _ _ => true
  | .finish => true
  | .rebuild _ => true
  | _ => false

theorem plain_step {act : Act} (plain : act.plain = true)
    (stepped : step config state act = some after) :
    after.health = state.health ∧ after.sessions = state.sessions := by
  cases act with
  | update backends =>
      rcases (update_cases stepped).2.2 with ⟨_, same⟩ | ⟨_, same⟩
      · exact same ▸ ⟨rfl, rfl⟩
      · exact same ▸ ⟨rfl, rfl⟩
  | writeUpstream =>
      obtain ⟨backends, _, same⟩ := writeUpstream_cases stepped
      exact same ▸ ⟨rfl, rfl⟩
  | tick order =>
      obtain ⟨_, _, ⟨_, same⟩ | ⟨_, same⟩⟩ := tick_cases stepped
      · exact same ▸ ⟨rfl, rfl⟩
      · exact same ▸ ⟨rfl, rfl⟩
  | probe rw ro =>
      obtain ⟨names, _, same⟩ := probe_cases stepped
      exact same ▸ ⟨rfl, rfl⟩
  | finish =>
      rcases finish_cases stepped with ⟨_, same⟩ | ⟨_, same⟩
      · exact same ▸ ⟨rfl, rfl⟩
      · exact same ▸ ⟨rfl, rfl⟩
  | rebuild order =>
      obtain ⟨_, _, same⟩ := rebuild_cases stepped
      exact same ▸ ⟨rfl, rfl⟩
  | _ => cases plain

/-! ### Sessions that are replaced or over -/

theorem held_endSession (state : ProxyState) (index : Nat) (kind : Session → Bool) :
    (state.endSession index).held kind ≤ state.held kind :=
  (List.eraseIdx_sublist state.sessions index).countP_le

/-- A session that is as far as before, whatever has been noted in it. -/
theorem held_setSession {index : Nat} {session next : Session} {kind : Session → Bool}
    (present : state.sessions[index]? = some session) (same : kind next = kind session)
    (phase : next.phase = .selected ↔ session.phase = .selected) :
    (state.setSession index next).held kind = state.held kind := by
  obtain ⟨bound, found⟩ := List.getElem?_eq_some_iff.mp present
  unfold ProxyState.setSession ProxyState.held
  rw [List.countP_set bound, found]
  have alike : (kind next && decide (next.phase ≠ .selected)) =
      (kind session && decide (session.phase ≠ .selected)) := by
    simp [same, phase]
  rw [alike]
  split
  · rename_i counted
    have some : 0 < state.sessions.countP fun session =>
        kind session && decide (session.phase ≠ .selected) :=
      List.countP_pos_iff.mpr ⟨session, List.mem_of_getElem? present, counted⟩
    omega
  · omega

theorem held_setSession_le {index : Nat} {session : Session} (next : Session)
    (kind : Session → Bool)
    (present : state.sessions[index]? = some session) :
    (state.setSession index next).held kind ≤ state.held kind + (if kind next then 1 else 0) := by
  obtain ⟨bound, found⟩ := List.getElem?_eq_some_iff.mp present
  unfold ProxyState.setSession ProxyState.held
  rw [List.countP_set bound]
  have less : (if (kind next && decide (next.phase ≠ .selected)) = true then 1 else 0) ≤
      if kind next = true then 1 else 0 := by
    cases kind next with
    | false => simp
    | true => split <;> simp
  omega

theorem phase_noteDown (channel : Nat) (mode : ProxyMode) (session : Session) :
    (session.noteDown channel mode).phase = session.phase := by
  unfold Session.noteDown
  split
  · rfl
  · rfl

theorem route_noteDown (channel : Nat) (mode : ProxyMode) (session : Session) :
    (session.noteDown channel mode).backend = session.backend ∧
      (session.noteDown channel mode).shutdownRx = session.shutdownRx := by
  unfold Session.noteDown
  split
  · exact ⟨rfl, rfl⟩
  · exact ⟨rfl, rfl⟩

/-- A routed session is of a registered backend, and holds no permit yet. -/
theorem selectBackend_routed {mode : ProxyMode} {counter : Nat} {session : Session}
    (routed : state.selectBackend mode counter = .routed session) :
    session.phase = .selected ∧ ∃ info ∈ state.health.backends.entries,
      info.name = session.backend ∧ info.shutdownTx = session.shutdownRx := by
  unfold ProxyState.selectBackend at routed
  split at routed
  · cases routed
  · split at routed
    · cases routed
    · rename_i info found
      cases routed
      have there := mem_of_get? found
      exact ⟨rfl, info, there.1, there.2, rfl⟩

theorem permit_spec {index : Nat} (stepped : state.permit config index = some after) :
    ∃ session, state.sessions[index]? = some session ∧
      ((state.permits session.shutdownRx < config.maxConnections ∧
          after = state.setSession index { session with phase := .connecting }) ∨
        after = state.endSession index) := by
  unfold ProxyState.permit at stepped
  split at stepped
  · cases stepped
  · rename_i session present
    split at stepped
    · cases stepped
    · split at stepped
      · rename_i free
        exact ⟨session, present, .inl ⟨free, (Option.some.inj stepped).symm⟩⟩
      · exact ⟨session, present, .inr (Option.some.inj stepped).symm⟩

theorem connected_spec {index : Nat} (stepped : state.connected index = some after) :
    ∃ session, state.sessions[index]? = some session ∧ session.phase = .connecting ∧
      after = state.setSession index { session with phase := .piping } := by
  unfold ProxyState.connected at stepped
  split at stepped
  · cases stepped
  · rename_i session present
    split at stepped
    · cases stepped
    · rename_i connecting
      exact ⟨session, present, by simpa using connecting, (Option.some.inj stepped).symm⟩

/-! ### One semaphore -/

/-- Only a step that takes a permit adds to a channel, and it finds one free. -/
theorem permits_step (act : Act) (stepped : step config state act = some after) (channel : Nat) :
    after.permits channel ≤ state.permits channel ∨
      after.permits channel ≤ config.maxConnections := by
  simp only [permits_eq]
  cases act with
  | register =>
      obtain ⟨backends, _, _, same⟩ := register_cases stepped
      subst same
      exact .inl (Nat.le_refl _)
  | count =>
      left
      obtain ⟨⟨mode, name, ok⟩, rest, changed, _, same⟩ := count_cases stepped
      subst same
      unfold ProxyState.held
      rcases countResult_sessions config state mode name ok
        with ⟨kept, _⟩ | ⟨backend, _, _, _, _, _, noted, _⟩
      · exact Nat.le_of_eq (by rw [kept])
      · apply Nat.le_of_eq
        dsimp only
        rw [noted, List.countP_map]
        congr 1
        funext session
        simp [phase_noteDown, (route_noteDown _ _ session).2]
  | connect mode counter =>
      left
      rcases (connect_cases stepped).2 with same | ⟨session, routed, same⟩
      · subst same
        exact Nat.le_refl _
      · subst same
        simp [ProxyState.held, List.countP_append, (selectBackend_routed routed).1]
  | permit index =>
      obtain ⟨session, present, ⟨free, same⟩ | same⟩ := permit_spec stepped
      · rw [permits_eq] at free
        subst same
        have more := held_setSession_le { session with phase := .connecting }
          (fun session => session.shutdownRx = channel) present
        by_cases own : session.shutdownRx = channel
        · right
          subst own
          simp only [decide_true, if_true] at more
          omega
        · left
          simpa [own] using more
      · subst same
        exact .inl (held_endSession state index _)
  | connected index =>
      left
      obtain ⟨session, present, connecting, same⟩ := connected_spec stepped
      subst same
      apply Nat.le_of_eq
      apply held_setSession present
      · rfl
      · simp [connecting]
  | ended index =>
      rw [ended_cases stepped]
      exact .inl (held_endSession state index _)
  | monitor index =>
      left
      obtain ⟨session, present, ⟨monitor, _, same⟩ | ⟨_, same⟩⟩ := monitor_cases stepped
      · subst same
        apply Nat.le_of_eq
        apply held_setSession present
        · rfl
        · exact Iff.rfl
      · subst same
        exact held_endSession state index _
  | _ =>
      have same := plain_step rfl stepped
      exact .inl (Nat.le_of_eq (by rw [ProxyState.held, ProxyState.held, same.2]))

theorem permits_limited (path : Reaches (step config) anyAct .new state) (channel : Nat) :
    state.permits channel ≤ config.maxConnections := by
  induction path with
  | refl => exact Nat.zero_le _
  | next act _ _ stepped ih =>
      rcases permits_step act stepped channel with fewer | limited
      · exact Nat.le_trans fewer ih
      · exact limited

/-! ### One name -/

/-- Every session is of a registered backend, on the channel that the backend has now. -/
def Owned (state : ProxyState) : Prop :=
  ∀ session ∈ state.sessions, ∃ backend ∈ state.health.backends.entries,
    backend.name = session.backend ∧ backend.shutdownTx = session.shutdownRx

theorem owned_of_same (owned : Owned state) (health : after.health = state.health)
    (sessions : ∀ session ∈ after.sessions, ∃ old ∈ state.sessions,
      session.backend = old.backend ∧ session.shutdownRx = old.shutdownRx) : Owned after := by
  intro session member
  obtain ⟨old, member', name, channel⟩ := sessions session member
  rw [health, name, channel]
  exact owned old member'

theorem setSession_routes {index : Nat} {session next : Session}
    (present : state.sessions[index]? = some session) (name : next.backend = session.backend)
    (channel : next.shutdownRx = session.shutdownRx) :
    ∀ other ∈ (state.setSession index next).sessions, ∃ old ∈ state.sessions,
      other.backend = old.backend ∧ other.shutdownRx = old.shutdownRx := by
  intro other member
  rcases List.mem_or_eq_of_mem_set member with before | same
  · exact ⟨other, before, rfl, rfl⟩
  · exact ⟨session, List.mem_of_getElem? present, same ▸ name, same ▸ channel⟩

theorem endSession_routes (state : ProxyState) (index : Nat) :
    ∀ other ∈ (state.endSession index).sessions, ∃ old ∈ state.sessions,
      other.backend = old.backend ∧ other.shutdownRx = old.shutdownRx :=
  fun other member => ⟨other, List.mem_of_mem_eraseIdx member, rfl, rfl⟩

/-- A backend that stays listed keeps its channel. -/
theorem owned_register (owned : Owned state) (keeps : KeepsBusy state .register)
    (stepped : state.register = some after) : Owned after := by
  obtain ⟨backends, registering, _, same⟩ := register_cases stepped
  subst same
  intro session member
  obtain ⟨old, there, name, channel⟩ := owned session member
  obtain ⟨new, there', kept⟩ := (grows_foldl backends state.health).kept old there
  have isListed := keeps backends registering session member
  refine ⟨new, mem_retainListed.mpr ⟨there', ?_⟩, kept.name.trans name,
    kept.channel.trans channel⟩
  rw [kept.name, name]
  exact isListed

theorem owned_step (act : Act) (owned : Owned state) (keeps : KeepsBusy state act)
    (stepped : step config state act = some after) : Owned after := by
  cases act with
  | register => exact owned_register owned keeps stepped
  | count =>
      obtain ⟨⟨mode, name, ok⟩, rest, changed, _, same⟩ := count_cases stepped
      have entries := countResult_entries config state (mode, name, ok)
      subst same
      intro session member
      have before : ∃ old ∈ state.sessions,
          old.backend = session.backend ∧ old.shutdownRx = session.shutdownRx := by
        rcases countResult_sessions config state mode name ok
          with ⟨kept, _⟩ | ⟨backend, _, _, _, _, _, noted, _⟩
        · rw [kept] at member
          exact ⟨session, member, rfl, rfl⟩
        · rw [noted] at member
          obtain ⟨old, member', rfl⟩ := List.mem_map.mp member
          exact ⟨old, member', (route_noteDown _ _ old).1.symm, (route_noteDown _ _ old).2.symm⟩
      obtain ⟨old, member', name', channel⟩ := before
      obtain ⟨backend, there, named, owns⟩ := owned old member'
      dsimp only
      rw [entries]
      refine ⟨_, List.mem_map_of_mem there, ?_, ?_⟩
      · rw [name_countEntry, named, name']
      · rw [shutdownTx_countEntry, owns, channel]
  | connect mode counter =>
      rcases (connect_cases stepped).2 with same | ⟨session, routed, same⟩
      · subst same
        exact owned
      · subst same
        intro other member
        rcases List.mem_append.mp member with before | new
        · exact owned other before
        · cases List.mem_singleton.mp new
          exact (selectBackend_routed routed).2
  | permit index =>
      obtain ⟨session, present, ⟨_, same⟩ | same⟩ := permit_spec stepped
      · subst same
        exact owned_of_same owned rfl (setSession_routes present rfl rfl)
      · subst same
        exact owned_of_same owned rfl (endSession_routes _ index)
  | connected index =>
      obtain ⟨session, present, _, same⟩ := connected_spec stepped
      subst same
      exact owned_of_same owned rfl (setSession_routes present rfl rfl)
  | ended index =>
      rw [ended_cases stepped]
      exact owned_of_same owned rfl (endSession_routes _ index)
  | monitor index =>
      obtain ⟨session, present, ⟨monitor, _, same⟩ | ⟨_, same⟩⟩ := monitor_cases stepped
      · subst same
        exact owned_of_same owned rfl (setSession_routes present rfl rfl)
      · subst same
        exact owned_of_same owned rfl (endSession_routes state index)
  | _ =>
      have same := plain_step rfl stepped
      exact owned_of_same owned same.1 fun session member =>
        ⟨session, same.2 ▸ member, rfl, rfl⟩

theorem owned_reaches (path : Reaches (step config) KeepsBusy .new state) : Owned state := by
  have initial : Owned .new := by
    intro session member
    cases member
  exact reaches_invariant Owned initial
    (fun _ act _ before keeps stepped => owned_step act before keeps stepped) path

/-- All connections to a name are on one channel. -/
theorem connections_le_permits (owned : Owned state) (name : Str) :
    state.connections name = 0 ∨ ∃ channel,
      state.connections name ≤ state.permits channel := by
  cases found : state.health.backends.get? name with
  | none =>
      left
      apply List.countP_eq_zero.mpr
      intro session member counted
      obtain ⟨backend, there, named, _⟩ := owned session member
      simp only [Bool.and_eq_true, decide_eq_true_eq] at counted
      exact get?_none.mp found backend there (named.trans counted.1)
  | some backend =>
      right
      refine ⟨backend.shutdownTx, ?_⟩
      rw [permits_eq]
      apply List.countP_mono_left
      intro session member counted
      obtain ⟨own, there, named, owns⟩ := owned session member
      simp only [Bool.and_eq_true, decide_eq_true_eq] at counted
      have known := mem_of_get? found
      have same := same_entry there known.1 (named.trans (counted.1.trans known.2.symm))
      simp [← owns, same, counted.2]

/-- In every run the permits of each semaphore are within `max_connections`; the connections to
each backend are, reading and writing together, where no call drops a backend that has a session. -/
theorem connections_limited (config : HealthCheckConfig) :
    (∀ state, Reaches (step config) anyAct .new state → ∀ channel,
        state.permits channel ≤ config.maxConnections) ∧
      ∀ state, Reaches (step config) KeepsBusy .new state → ∀ name,
        state.connections name ≤ config.maxConnections := by
  constructor
  · exact fun state path channel => permits_limited path channel
  · intro state path name
    rcases connections_le_permits (owned_reaches path) name with none | ⟨channel, few⟩
    · omega
    · exact Nat.le_trans few (permits_limited (reaches_weaken (fun _ _ _ => trivial) path) channel)

end PgHa.Proxy
