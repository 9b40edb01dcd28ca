import PgHa.ProxyRegistry
import PgHa.Transition

/-!
A session is shut down for its own mode: reading and writing share the channel of a backend,
so a session is safe from the marks of the other mode only where its own mode has gone down
before them.
-/

namespace PgHa.Proxy

open KeyedTable RiseFall SessionMonitor Text Transition Watch

variable {config : HealthCheckConfig} {state after : ProxyState}

/-- The mode that the backend of a session was selected for. -/
def Session.own (session : Session) : Option ProxyMode :=
  match session.mode with
  | .readWrite => some .readWrite
  | .readOnly => if session.toReplica then some .readOnly else none

/-- Every session that was shut down has had its backend marked down for its own mode. -/
def CutsOwn (state : ProxyState) : Prop :=
  ∀ session ∈ state.cuts, ∀ mode, session.own = some mode → mode ∈ session.downs

def Session.marked (session : Session) : Bool :=
  match session.own with
  | none => true
  | some mode => session.downs.contains mode

/-- A backend is marked down for a mode only when its open sessions of the other mode have seen
their own mark, and it is removed after a mark down only when all of them have. -/
def ownMarksFirst (config : HealthCheckConfig) (state : ProxyState) : Act → Bool
  | .count =>
      match state.checker with
      | .applying ((mode, name, ok) :: _) _ =>
          match state.health.backends.get? name with
          | none => true
          | some backend =>
              !(config.shutdownOnDown && (backend.streak mode).healthy && !ok &&
                  config.fall ≤ (backend.streak mode).failCount + 1) ||
                state.sessions.all fun session =>
                  session.shutdownRx ≠ backend.shutdownTx || session.own = some mode ||
                    session.marked
      | _ => true
  | .register =>
      match state.updater with
      | .registering backends =>
          state.health.backends.entries.all fun backend =>
            listed backends backend.name || !(state.health.channels backend.shutdownTx).value ||
              state.sessions.all fun session =>
                session.shutdownRx ≠ backend.shutdownTx || session.marked
      | _ => true
  | _ => true

def OwnMarksFirst (config : HealthCheckConfig) (state : ProxyState) (act : Act) : Prop :=
  ownMarksFirst config state act = true

instance (config : HealthCheckConfig) (state : ProxyState) (act : Act) :
    Decidable (OwnMarksFirst config state act) :=
  inferInstanceAs (Decidable (_ = true))

/-! ### Sessions without a mark -/

/-- Nothing has been sent since the session subscribed, and what it wakes up to, a sender that is
gone, does not end it. -/
structure Quiet (channels : Nat → Channel Bool) (session : Session) : Prop where
  version : (channels session.shutdownRx).version = session.monitor.seen
  cleared : (channels session.shutdownRx).closed = true →
    (channels session.shutdownRx).value = false
  woken : session.monitor.woken = true → (channels session.shutdownRx).closed = true

structure Shielded (state : ProxyState) : Prop where
  wellFormed : WellFormed state.health
  known : ∀ session ∈ state.sessions, session.shutdownRx < state.health.nextChannel
  quiet : ∀ session ∈ state.sessions, session.marked = false →
    Quiet state.health.channels session
  cuts : CutsOwn state

theorem marked_of_own {session : Session} (marked : session.marked = true) {mode : ProxyMode}
    (own : session.own = some mode) : mode ∈ session.downs := by
  simpa [Session.marked, own] using marked

theorem quiet_of_same {channels channels' : Nat → Channel Bool} {session next : Session}
    (receiver : next.shutdownRx = session.shutdownRx) (monitor : next.monitor = session.monitor)
    (same : channels' session.shutdownRx = channels session.shutdownRx)
    (quiet : Quiet channels session) :
    Quiet channels' next := by
  constructor
  · rw [receiver, monitor, same]
    exact quiet.version
  · rw [receiver, same]
    exact quiet.cleared
  · rw [receiver, monitor, same]
    exact quiet.woken

/-- A quiet session stays quiet, and does not leave its loop. -/
theorem quiet_monitor {channels : Nat → Channel Bool} {session : Session} {next : Option Monitor}
    (quiet : Quiet channels session)
    (stepped : session.monitor.step (channels session.shutdownRx) = some next) :
    ∃ monitor, next = some monitor ∧ Quiet channels { session with monitor := monitor } := by
  unfold Monitor.step at stepped
  split at stepped
  · rename_i woken
    have closed := quiet.woken woken
    rw [quiet.cleared closed] at stepped
    cases stepped
    refine ⟨_, rfl, quiet.version, quiet.cleared, ?_⟩
    intro asleep
    cases asleep
  · split at stepped
    · cases stepped
    · rename_i result seen changed
      cases stepped
      have current := changed_seen changed
      refine ⟨_, rfl, current.symm, quiet.cleared, ?_⟩
      intro _
      by_contra opened
      rw [changed_waits.mpr ⟨quiet.version, by simpa using opened⟩] at changed
      cases changed

/-- A step of another task. -/
theorem shielded_of_same (shielded : Shielded state) (health : after.health = state.health)
    (sessions : after.sessions = state.sessions) (cuts : after.cuts = state.cuts) :
    Shielded after := by
  constructor
  · rw [health]
    exact shielded.wellFormed
  · rw [sessions, health]
    exact shielded.known
  · rw [sessions, health]
    exact shielded.quiet
  · unfold CutsOwn
    rw [cuts]
    exact shielded.cuts

/-- Replacing a session by one that is as good. -/
theorem shielded_setSession {index : Nat} {session next : Session} (shielded : Shielded state)
    (present : state.sessions[index]? = some session)
    (receiver : next.shutdownRx = session.shutdownRx)
    (quiet : next.marked = false → Quiet state.health.channels next) :
    Shielded (state.setSession index next) where
  wellFormed := shielded.wellFormed
  known := by
    intro other member
    rcases List.mem_or_eq_of_mem_set member with before | same
    · exact shielded.known other before
    · rw [same, receiver]
      exact shielded.known session (List.mem_of_getElem? present)
  quiet := by
    intro other member
    rcases List.mem_or_eq_of_mem_set member with before | same
    · exact shielded.quiet other before
    · rw [same]
      exact quiet
  cuts := shielded.cuts

theorem shielded_endSession (index : Nat) (shielded : Shielded state) :
    Shielded (state.endSession index) where
  wellFormed := shielded.wellFormed
  known session member := shielded.known session (List.mem_of_mem_eraseIdx member)
  quiet session member := shielded.quiet session (List.mem_of_mem_eraseIdx member)
  cuts := shielded.cuts

theorem shielded_monitor {index : Nat} (shielded : Shielded state)
    (stepped : state.monitor config index = some after) : Shielded after := by
  obtain ⟨session, present, next⟩ := monitor_cases stepped
  have member := List.mem_of_getElem? present
  rcases next with ⟨monitor, turned, same⟩ | ⟨left, same⟩
  · subst same
    apply shielded_setSession shielded present
    · rfl
    · intro unmarked
      obtain ⟨monitor', same, quiet⟩ :=
        quiet_monitor (shielded.quiet session member unmarked) turned
      cases same
      exact quiet
  · subst same
    have ended := shielded_endSession index shielded
    refine ⟨ended.wellFormed, ended.known, ended.quiet, ?_⟩
    intro cut cutMember mode own
    rcases List.mem_cons.mp cutMember with same | before
    · subst same
      cases marked : cut.marked with
      | true => exact marked_of_own marked own
      | false =>
          obtain ⟨monitor, same, _⟩ := quiet_monitor (shielded.quiet cut member marked) left
          cases same
    · exact shielded.cuts cut before mode own

/-- A connection subscribes to the open channel of a registered backend. -/
theorem shielded_connect {mode : ProxyMode} {counter : Nat} (shielded : Shielded state)
    (stepped : state.connect mode counter = some after) : Shielded after := by
  rcases (connect_cases stepped).2 with same | ⟨session, routed, same⟩
  · subst same
    exact shielded
  · subst same
    unfold ProxyState.selectBackend at routed
    split at routed
    · cases routed
    · split at routed
      · cases routed
      · rename_i info found
        cases routed
        have member := (mem_of_get? found).1
        constructor
        · exact shielded.wellFormed
        · intro session there
          rcases List.mem_append.mp there with before | new
          · exact shielded.known session before
          · cases List.mem_singleton.mp new
            exact shielded.wellFormed.bound info member
        · intro session there
          rcases List.mem_append.mp there with before | new
          · exact shielded.quiet session before
          · cases List.mem_singleton.mp new
            intro _
            have opened := shielded.wellFormed.opened info member
            refine ⟨rfl, ?_, ?_⟩
            · intro closed
              rw [opened] at closed
              cases closed
            · intro woken
              cases woken
        · exact shielded.cuts

/-! ### Marks and removals -/

@[simp] theorem shutdownRx_noteDown (channel : Nat) (mode : ProxyMode) (session : Session) :
    (session.noteDown channel mode).shutdownRx = session.shutdownRx := by
  unfold Session.noteDown
  split
  · rfl
  · rfl

@[simp] theorem monitor_noteDown (channel : Nat) (mode : ProxyMode) (session : Session) :
    (session.noteDown channel mode).monitor = session.monitor := by
  unfold Session.noteDown
  split
  · rfl
  · rfl

theorem noteDown_other {channel : Nat} {session : Session} (mode : ProxyMode)
    (other : session.shutdownRx ≠ channel) : session.noteDown channel mode = session :=
      if_neg other

/-- A mark is added, and none is lost. -/
theorem marked_noteDown {channel : Nat} {mode : ProxyMode} {session : Session}
    (unmarked : (session.noteDown channel mode).marked = false) :
    session.marked = false ∧ (session.shutdownRx = channel → session.own ≠ some mode) := by
  by_cases there : session.shutdownRx = channel
  · have noted : session.noteDown channel mode = { session with downs := mode :: session.downs } :=
      if_pos there
    rw [noted] at unmarked
    unfold Session.marked at unmarked ⊢
    have own : ({ session with downs := mode :: session.downs } : Session).own = session.own := rfl
    rw [own] at unmarked
    cases owns : session.own with
    | none => simp [owns] at unmarked
    | some own =>
        simp only [owns, List.contains_cons, Bool.or_eq_false_iff, beq_eq_false_iff_ne, ne_eq]
          at unmarked
        refine ⟨unmarked.2, fun _ same => ?_⟩
        cases same
        exact unmarked.1 rfl
  · rw [noteDown_other mode there] at unmarked
    exact ⟨unmarked, fun same => absurd same there⟩

theorem wellFormed_counted {before after : HealthState} {result : ProbeResult}
    (wellFormed : WellFormed before)
    (entries : after.backends.entries = before.backends.entries.map (countEntry config · result))
    (next : after.nextChannel = before.nextChannel)
    (closed : ∀ channel, (after.channels channel).closed = (before.channels channel).closed) :
    WellFormed after := by
  constructor
  · intro backend member
    rw [entries] at member
    obtain ⟨old, there, rfl⟩ := List.mem_map.mp member
    rw [shutdownTx_countEntry, next]
    exact wellFormed.bound old there
  · intro backend member other member'
    rw [entries] at member member'
    obtain ⟨old, there, rfl⟩ := List.mem_map.mp member
    obtain ⟨old', there', rfl⟩ := List.mem_map.mp member'
    rw [shutdownTx_countEntry, shutdownTx_countEntry, name_countEntry, name_countEntry]
    exact wellFormed.own old there old' there'
  · intro backend member
    rw [entries] at member
    obtain ⟨old, there, rfl⟩ := List.mem_map.mp member
    rw [shutdownTx_countEntry, closed]
    exact wellFormed.opened old there

/-- What the condition says of a session without its own mark, where its backend is marked down. -/
theorem others_marked {mode : ProxyMode} {name : Str} {rest : List ProbeResult} {changed : Bool}
    {backend : BackendHealth} {session : Session} (fair : OwnMarksFirst config state .count)
    (applying : state.checker = .applying ((mode, name, false) :: rest) changed)
    (found : state.health.backends.get? name = some backend) (shuts : config.shutdownOnDown = true)
    (healthy : (backend.streak mode).healthy = true)
    (falls : config.fall ≤ (backend.streak mode).failCount + 1)
    (member : session ∈ state.sessions)
    (there : session.shutdownRx = backend.shutdownTx) (unmarked : session.marked = false) :
    session.own = some mode := by
  simp only [OwnMarksFirst, ownMarksFirst, applying, found, shuts, healthy, falls, Bool.not_false,
    decide_true, Bool.and_self, Bool.not_true, Bool.false_or, List.all_eq_true] at fair
  simpa [there, unmarked] using fair session member

theorem shielded_count (shielded : Shielded state) (fair : OwnMarksFirst config state .count)
    (stepped : state.count config = some after) : Shielded after := by
  obtain ⟨⟨mode, name, ok⟩, rest, changed, applying, same⟩ := count_cases stepped
  obtain ⟨health, sessions, frame, next⟩ := countResult_frame config state (mode, name, ok)
  have entries := countResult_entries config state (mode, name, ok)
  have spec := countResult_sessions config state mode name ok
  rw [frame] at same entries spec
  dsimp only at same entries spec
  subst same
  rcases spec with ⟨sameSessions, sameChannels⟩ | ⟨backend, receivers, found, healthy, failed,
    falls, noted, sent⟩
  · subst sameSessions
    constructor
    · exact wellFormed_counted shielded.wellFormed entries next fun channel => by rw [sameChannels]
    · rw [next]
      exact shielded.known
    · rw [sameChannels]
      exact shielded.quiet
    · exact shielded.cuts
  · subst failed noted
    constructor
    · apply wellFormed_counted shielded.wellFormed entries next
      intro channel
      rw [sent]
      split
      · by_cases own : channel = backend.shutdownTx
        · subst own
          rw [Function.update_self, closed_send]
        · rw [Function.update_of_ne own]
      · rfl
    · rw [next]
      intro session member
      obtain ⟨old, there, rfl⟩ := List.mem_map.mp member
      rw [shutdownRx_noteDown]
      exact shielded.known old there
    · intro session member unmarked
      obtain ⟨old, there, rfl⟩ := List.mem_map.mp member
      obtain ⟨unmarked', others⟩ := marked_noteDown unmarked
      have quiet := shielded.quiet old there unmarked'
      have same : health.channels old.shutdownRx = state.health.channels old.shutdownRx := by
        rw [sent]
        split
        · rename_i shuts
          apply Function.update_of_ne
          intro own
          exact others own
            (others_marked fair applying found shuts healthy falls there own unmarked')
        · rfl
      exact quiet_of_same (shutdownRx_noteDown _ _ old) (monitor_noteDown _ _ old) same quiet
    · exact shielded.cuts

/-- The sender of a removed backend leaves a false value to a session without its mark. -/
theorem shielded_register (shielded : Shielded state) (fair : OwnMarksFirst config state .register)
    (stepped : state.register = some after) : Shielded after := by
  obtain ⟨backends, registering, _, same⟩ := register_cases stepped
  subst same
  constructor
  · exact wellFormed_registerAll backends shielded.wellFormed
  · intro session member
    exact Nat.lt_of_lt_of_le (shielded.known session member)
      (grows_foldl backends state.health).next
  · intro session member unmarked
    have quiet := shielded.quiet session member unmarked
    rcases registerAll_channel backends (shielded.known session member) with
      same | ⟨backend, there, owns, dropped, closed⟩
    · exact quiet_of_same rfl rfl same quiet
    · constructor
      · rw [closed]
        exact quiet.version
      · intro _
        rw [closed]
        by_contra signalled
        simp only [OwnMarksFirst, ownMarksFirst, registering, List.all_eq_true] at fair
        have first := fair backend there
        rw [owns] at first
        have value : (state.health.channels session.shutdownRx).value = true := by
          simpa [Channel.dropSender] using signalled
        rw [dropped, value] at first
        simp only [Bool.not_true, Bool.or_self, Bool.false_or, List.all_eq_true] at first
        have marked := first session member
        simp [unmarked] at marked
      · intro _
        rw [closed]
        rfl
  · exact shielded.cuts

theorem shielded_step (act : Act) (shielded : Shielded state)
    (fair : OwnMarksFirst config state act)
    (stepped : step config state act = some after) : Shielded after := by
  cases act with
  | update backends =>
      rcases (update_cases stepped).2.2 with ⟨_, same⟩ | ⟨_, same⟩
      · subst same
        exact shielded_of_same shielded rfl rfl rfl
      · subst same
        exact shielded_of_same shielded rfl rfl rfl
  | writeUpstream =>
      obtain ⟨backends, _, same⟩ := writeUpstream_cases stepped
      subst same
      exact shielded_of_same shielded rfl rfl rfl
  | register => exact shielded_register shielded fair stepped
  | tick order =>
      obtain ⟨_, _, ⟨_, same⟩ | ⟨_, same⟩⟩ := tick_cases stepped
      · subst same
        exact shielded
      · subst same
        exact shielded_of_same shielded rfl rfl rfl
  | probe rw ro =>
      obtain ⟨names, _, same⟩ := probe_cases stepped
      subst same
      exact shielded_of_same shielded rfl rfl rfl
  | count => exact shielded_count shielded fair stepped
  | finish =>
      rcases finish_cases stepped with ⟨_, same⟩ | ⟨_, same⟩
      · subst same
        exact shielded_of_same shielded rfl rfl rfl
      · subst same
        exact shielded_of_same shielded rfl rfl rfl
  | rebuild order =>
      obtain ⟨_, _, same⟩ := rebuild_cases stepped
      subst same
      exact shielded_of_same shielded rfl rfl rfl
  | connect mode counter => exact shielded_connect shielded stepped
  | permit index =>
      obtain ⟨session, present, ⟨phase, same⟩ | same⟩ := permit_cases stepped
      · subst same
        apply shielded_setSession shielded present
        · rfl
        · intro unmarked
          have quiet := shielded.quiet session (List.mem_of_getElem? present) unmarked
          exact ⟨quiet.version, quiet.cleared, quiet.woken⟩
      · subst same
        exact shielded_endSession index shielded
  | connected index =>
      obtain ⟨session, present, same⟩ := connected_cases stepped
      subst same
      apply shielded_setSession shielded present
      · rfl
      · intro unmarked
        have quiet := shielded.quiet session (List.mem_of_getElem? present) unmarked
        exact ⟨quiet.version, quiet.cleared, quiet.woken⟩
  | ended index =>
      rw [ended_cases stepped]
      exact shielded_endSession index shielded
  | monitor index => exact shielded_monitor shielded stepped

theorem shielded_new : Shielded .new := by
  constructor
  · constructor
    · intro backend member
      cases member
    · intro backend member
      cases member
    · intro backend member
      cases member
  · intro session member
    cases member
  · intro session member
    cases member
  · intro session member
    cases member

/-- In every run of the proxy, whatever the probes return and whenever clients connect, as long as
no backend is marked down or removed over a session whose own mode is not down yet. -/
theorem sessions_cut_for_own (config : HealthCheckConfig) {state : ProxyState}
    (path : Reaches (step config) (OwnMarksFirst config) .new state) : CutsOwn state := by
  have shielded := reaches_invariant Shielded shielded_new
    (fun _ act _ before fair stepped => shielded_step act before fair stepped) path
  exact shielded.cuts

def replica : PgBackend where
  addr := "10.0.0.1:5432".toList
  name := ['a']
  isPrimary := false
  isHealthy := true
  apiUrl := "http://a:8008".toList

def replicaHealth (rw ro : Streak) : BackendHealth :=
  { BackendHealth.new replica 0 with rw := rw, ro := ro }

/-- A client connects, and its session reaches the pipes. -/
def client (mode : ProxyMode) : List Act := [.connect mode 0, .permit 0, .connected 0]

/-- A session for writing, and a backend that stops answering `/primary`. -/
def demotion : List Act :=
  [.update [replica], .writeUpstream, .register] ++
    round [replicaHealth .fresh .fresh] true false ++
    round [replicaHealth ⟨false, 0, 1⟩ ⟨false, 1, 0⟩] true false ++
    [.rebuild [replicaHealth ⟨true, 0, 2⟩ ⟨false, 2, 0⟩]] ++
    client .readWrite ++
    round [replicaHealth ⟨true, 0, 2⟩ ⟨false, 2, 0⟩] false false ++
    round [replicaHealth ⟨true, 1, 0⟩ ⟨false, 3, 0⟩] false false ++
    round [replicaHealth ⟨true, 2, 0⟩ ⟨false, 4, 0⟩] false false ++
    [.monitor 0, .monitor 0]

theorem demotion_cuts_writer :
    ∃ state, Reaches (step .default) (OwnMarksFirst .default) .new state ∧ CutsOwn state ∧
      state.cuts ≠ [] := by
  have played : (play (step .default) (OwnMarksFirst .default) .new demotion).map
      (fun state => !state.cuts.isEmpty) = some true := by
    decide +kernel
  obtain ⟨state, path, cut⟩ := play_exhibits played
  exact ⟨state, path, sessions_cut_for_own .default path, by simpa using cut⟩

/-! ### A promoted replica -/

def promotion : List Act :=
  [.update [replica], .writeUpstream, .register] ++
    round [replicaHealth .fresh .fresh] false true ++
    round [replicaHealth ⟨false, 1, 0⟩ ⟨false, 0, 1⟩] false true ++
    [.rebuild [replicaHealth ⟨false, 2, 0⟩ ⟨true, 0, 2⟩]] ++
    round [replicaHealth ⟨false, 2, 0⟩ ⟨true, 0, 2⟩] true false ++
    round [replicaHealth ⟨false, 0, 1⟩ ⟨true, 1, 0⟩] true false ++
    [.rebuild [replicaHealth ⟨true, 0, 2⟩ ⟨true, 2, 0⟩]] ++
    client .readWrite ++
    round [replicaHealth ⟨true, 0, 2⟩ ⟨true, 2, 0⟩] true false ++
    [.monitor 0, .monitor 0]

def cutForOther (state : ProxyState) : Bool := state.cuts.any fun session => !session.marked

theorem cutForOther_not_own (cut : cutForOther state = true) : ¬ CutsOwn state := by
  intro own
  obtain ⟨session, member, unmarked⟩ := List.any_eq_true.mp cut
  unfold Session.marked at unmarked
  cases owns : session.own with
  | none => simp [owns] at unmarked
  | some mode => simp [owns, own session member mode owns] at unmarked

/-- The replica is marked up for writes, a client connects, and the mark down for reading
ends the session. -/
theorem promotion_cuts_writer :
    ¬ ∀ state, Reaches (step .default) anyAct .new state → CutsOwn state := by
  intro always
  have played : (play (step .default) anyAct .new promotion).map cutForOther = some true := by
    decide +kernel
  obtain ⟨state, path, cut⟩ := play_exhibits played
  exact cutForOther_not_own cut (always state path)

end PgHa.Proxy
