import PgHa.ProxyLimits
import PgHa.ProxyPrimary
import PgHa.ProxyRouting

/-!
Failover at the proxy: once a backend that was not up for writing is the only one to answer
`/primary`, it takes `rise` rounds until connections for writing reach it, and `fall` rounds
until they reach no other one.
-/

namespace PgHa.Proxy

open KeyedTable RiseFall Text Transition

variable {config : HealthCheckConfig} {state after : ProxyState} {name : Str}

def Checker.probed : Checker → List Str
  | .probing names => names
  | _ => []

/-- A call lists every registered backend. -/
def ListsAll (state : ProxyState) (backends : List PgBackend) : Prop :=
  ∀ backend ∈ state.health.backends.entries, listed backends backend.name = true

/-- Of the backends of a round one answers `/primary`, and no registered backend leaves the
cluster. -/
def AnswersAlone (name : Str) (state : ProxyState) : Act → Prop
  | .probe rw _ => ∀ other ∈ state.checker.probed, rw other = some true ↔ other = name
  | .register => ListsAll state state.updater.backends
  | _ => True

instance (name : Str) (state : ProxyState) : ∀ act, Decidable (AnswersAlone name state act)
  | .update _ => .isTrue trivial
  | .writeUpstream => .isTrue trivial
  | .register => inferInstanceAs (Decidable (∀ _ ∈ _, _ = _))
  | .tick _ => .isTrue trivial
  | .probe _ _ => inferInstanceAs (Decidable (∀ _ ∈ _, _ ↔ _))
  | .count => .isTrue trivial
  | .finish => .isTrue trivial
  | .rebuild _ => .isTrue trivial
  | .connect _ _ => .isTrue trivial
  | .permit _ => .isTrue trivial
  | .connected _ => .isTrue trivial
  | .ended _ => .isTrue trivial
  | .monitor _ => .isTrue trivial

/-- The step with which a round of the health checker is complete. -/
def endsRound (state : ProxyState) : Act → Bool
  | .rebuild _ => true
  | .finish =>
      match state.checker with
      | .applying [] false => true
      | _ => false
  | _ => false

/-- The proxy, and the rounds completed since the start. -/
structure Timed where
  proxy : ProxyState
  rounds : Nat

def timed (config : HealthCheckConfig) (state : Timed) (act : Act) : Option Timed :=
  (step config state.proxy act).map fun after =>
    ⟨after, if endsRound state.proxy act then state.rounds + 1 else state.rounds⟩

/-- Every connection for writing goes to a backend. -/
def WritesTo (name : Str) (state : ProxyState) : Prop :=
  ∀ counter, ∃ session, state.selectBackend .readWrite counter = .routed session ∧
    session.backend = name

/-! ### The streaks of a failover -/

/-- The streak of the backend that answers, after a number of probes. -/
structure Rises (config : HealthCheckConfig) (probes : Nat) (streak : Streak) : Prop where
  successes : probes ≤ streak.successCount
  healthy : 1 ≤ probes → config.rise ≤ probes → streak.healthy = true

/-- The streak of another one, which is down unless it has not failed often enough. -/
structure Falls (config : HealthCheckConfig) (probes : Nat) (streak : Streak) : Prop where
  failures : streak.healthy = true → probes ≤ streak.failCount
  few : streak.healthy = true → 1 ≤ probes → streak.failCount < config.fall

theorem rises_count {probes : Nat} {streak : Streak} (rises : Rises config probes streak) :
    Rises config (probes + 1) (streak.count config.rise config.fall true).1 := by
  rw [count_ok]
  constructor
  · exact Nat.succ_le_succ rises.successes
  · intro _ enough
    have counted := Nat.le_trans enough (Nat.succ_le_succ rises.successes)
    simp [counted]

theorem falls_count {probes : Nat} {streak : Streak} (falls : Falls config probes streak) :
    Falls config (probes + 1) (streak.count config.rise config.fall false).1 := by
  rw [count_failed]
  constructor
  · intro healthy
    rw [Bool.and_eq_true] at healthy
    exact Nat.succ_le_succ (falls.failures healthy.1)
  · intro healthy _
    simp only [Bool.and_eq_true, Bool.not_eq_true', decide_eq_false_iff_not] at healthy
    exact Nat.not_le.mp healthy.2

theorem falls_down {probes : Nat} {streak : Streak} (down : streak.healthy = false) :
    Falls config probes streak := by
  constructor
  · intro healthy
    simp [down] at healthy
  · intro healthy
    simp [down] at healthy

/-! ### Rounds -/

/-- A round whose probes have been answered. -/
def Checker.answered : Checker → Nat
  | .applying _ _ => 1
  | .rebuilding => 1
  | _ => 0

/-- The upstream list has the marks for writing of the health state. -/
structure Reflects (state : ProxyState) : Prop where
  listed : ∀ backend ∈ state.upstream.backends, backend.isPrimary = true →
    ∃ entry ∈ state.health.backends.entries, entry.name = backend.name ∧
      entry.rw.healthy = true
  marked : ∀ entry ∈ state.health.backends.entries, entry.rw.healthy = true →
    ∃ backend ∈ state.upstream.backends, backend.name = entry.name ∧
      backend.isPrimary = true ∧
      backend.isHealthy = true

/-- A failover under way, after the probes of a number of rounds. -/
structure FailingOver (config : HealthCheckConfig) (name : Str) (probes : Nat)
    (state : ProxyState) : Prop where
  registered : Registered state.health name
  writing : ∀ backends, state.updater ≠ .writing backends
  distinct : ∀ names, state.checker = .probing names → names.Nodup
  unprobed : ∀ names, state.checker = .probing names → name ∈ names ∧
    ∀ entry ∈ state.health.backends.entries, entry.name ∉ names → entry.rw.healthy = false
  own : ∀ entry ∈ state.health.backends.entries, entry.name = name →
    Rises config probes (settle config state.checker.results entry).rw
  others : ∀ entry ∈ state.health.backends.entries, entry.name ≠ name →
    Falls config probes (settle config state.checker.results entry).rw
  reflects : state.checker.marked = false →
    (∃ entry ∈ state.health.backends.entries, entry.name = name ∧ entry.rw.healthy = true) →
      Reflects state

/-! ### Calls of `update_backends` -/

/-- What was registered is so still, with its counts. -/
theorem kept_registerAll {backends : List PgBackend} (lists : ListsAll state backends)
    {old : BackendHealth}
    (there : old ∈ state.health.backends.entries) :
    ∃ entry ∈ (state.health.registerAll backends).backends.entries, Keeps old entry := by
  obtain ⟨entry, there', keeps⟩ := (grows_foldl backends state.health).kept old there
  exact ⟨entry, mem_retainListed.mpr ⟨there', keeps.name ▸ lists old there⟩, keeps⟩

theorem known_registerAll {backends : List PgBackend} {entry : BackendHealth}
    (member : entry ∈ (state.health.registerAll backends).backends.entries) :
    (∃ old ∈ state.health.backends.entries, Keeps old entry) ∨ entry.rw = .fresh := by
  rcases registerAll_entries member with before | fresh
  · exact .inl before
  · exact .inr fresh.rw

/-- A backend under a registered name is the one that was there. -/
theorem owns_registerAll {backends : List PgBackend} (lists : ListsAll state backends)
    {entry : BackendHealth}
    (registered : Registered state.health entry.name)
    (member : entry ∈ (state.health.registerAll backends).backends.entries) :
    ∃ old ∈ state.health.backends.entries, Keeps old entry := by
  obtain ⟨old, there, named⟩ := registered
  obtain ⟨entry', member', keeps⟩ := kept_registerAll lists there
  exact ⟨old, there, same_entry member member' (named.symm.trans keeps.name.symm) ▸ keeps⟩

theorem reflects_registerAll {backends : List PgBackend} (lists : ListsAll state backends)
    (reflects : Reflects state) :
    Reflects { state with health := state.health.registerAll backends, updater := .idle } := by
  constructor
  · intro backend there primary
    obtain ⟨old, there, named, healthy⟩ := reflects.listed backend there primary
    obtain ⟨entry, member, keeps⟩ := kept_registerAll lists there
    exact ⟨entry, member, keeps.name.trans named, keeps.rw ▸ healthy⟩
  · intro entry member healthy
    rcases known_registerAll member with ⟨old, there, keeps⟩ | fresh
    · obtain ⟨backend, there, named, marks⟩ := reflects.marked old there (keeps.rw ▸ healthy)
      exact ⟨backend, there, named.trans keeps.name.symm, marks⟩
    · rw [fresh] at healthy
      cases healthy

theorem failingOver_register {probes : Nat} (failing : FailingOver config name probes state)
    (alone : AnswersAlone name state .register) (stepped : state.register = some after) :
    FailingOver config name probes after := by
  obtain ⟨backends, registering, idle, same⟩ := register_cases stepped
  have lists : ListsAll state backends := by
    simpa [AnswersAlone, registering, Updater.backends] using alone
  have settled := results_not_counting idle
  have own := failing.own
  have others := failing.others
  rw [settled] at own others
  simp only [settle, List.foldl_nil] at own others
  subst same
  constructor
  · obtain ⟨old, there, registered⟩ := failing.registered
    obtain ⟨entry, member, keeps⟩ := kept_registerAll lists there
    exact ⟨entry, member, keeps.name.trans registered⟩
  · rintro backends ⟨⟩
  · exact failing.distinct
  · intro names probing
    have before := failing.unprobed names probing
    refine ⟨before.1, fun entry member absent => ?_⟩
    rcases known_registerAll member with ⟨old, there, keeps⟩ | fresh
    · rw [keeps.rw]
      exact before.2 old there (keeps.name ▸ absent)
    · rw [fresh]
      rfl
  · intro entry member named
    obtain ⟨old, there, keeps⟩ := owns_registerAll lists (named ▸ failing.registered) member
    simpa only [settled, settle, List.foldl_nil, keeps.rw]
      using own old there (keeps.name ▸ named)
  · intro entry member other
    simp only [settled, settle, List.foldl_nil]
    rcases known_registerAll member with ⟨old, there, keeps⟩ | fresh
    · rw [keeps.rw]
      exact others old there (keeps.name ▸ other)
    · exact falls_down (by rw [fresh]; rfl)
  · rintro unmarked ⟨entry, member, named, healthy⟩
    obtain ⟨old, there, keeps⟩ := owns_registerAll lists (named ▸ failing.registered) member
    have before := failing.reflects unmarked
        ⟨old, there, keeps.name ▸ named, keeps.rw ▸ healthy⟩
    exact reflects_registerAll lists before

/-! ### Rounds of a failover -/

theorem failingOver_probe {probes : Nat} {rw ro : Str → Option Bool}
    (failing : FailingOver config name probes state)
    (alone : AnswersAlone name state (.probe rw ro)) (stepped : state.probe rw ro = some after) :
    FailingOver config name (probes + 1) after := by
  obtain ⟨names, probing, same⟩ := probe_cases stepped
  simp only [AnswersAlone, probing, Checker.probed] at alone
  have distinct := failing.distinct names probing
  have unprobed := failing.unprobed names probing
  have own := failing.own
  have others := failing.others
  simp only [probing, Checker.results, settle, List.foldl_nil] at own others
  subst same
  refine ⟨failing.registered, failing.writing, ?_, ?_, ?_, ?_, ?_⟩
  · rintro names ⟨⟩
  · rintro names ⟨⟩
  · intro entry member named
    simp only [Checker.results, settle_probe]
    have probed : entry.name ∈ names := named ▸ unprobed.1
    rw [settle_mode rw distinct probed, (alone entry.name probed).mpr named]
    exact rises_count (own entry member named)
  · intro entry member other
    simp only [Checker.results, settle_probe]
    by_cases probed : entry.name ∈ names
    · have fails : (rw entry.name).getD false = false := by
        have silent := (alone entry.name probed).not.mpr other
        cases answer : rw entry.name with
        | none => rfl
        | some ok =>
            cases ok with
            | false => rfl
            | true => exact absurd answer silent
      rw [settle_mode rw distinct probed, fails]
      exact falls_count (others entry member other)
    · rw [settle_other rw probed]
      exact falls_down (unprobed.2 entry member probed)
  · intro _ healthy
    have reflects := failing.reflects (by rw [probing]; rfl) healthy
    exact ⟨reflects.listed, reflects.marked⟩

/-- A result that changes no mark for writing. -/
theorem reflects_counted {result : ProbeResult} (reflects : Reflects state)
    (upstream : after.upstream = state.upstream)
    (entries : after.health.backends.entries =
      state.health.backends.entries.map (countEntry config · result))
    (same : ∀ entry ∈ state.health.backends.entries,
      (countEntry config entry result).rw.healthy = entry.rw.healthy) : Reflects after := by
  constructor
  · intro backend listed primary
    obtain ⟨old, there, named, healthy⟩ := reflects.listed backend (upstream ▸ listed) primary
    exact ⟨_, entries ▸ List.mem_map_of_mem there, (name_countEntry old result).trans named,
      (same old there).trans healthy⟩
  · intro entry member healthy
    rw [entries] at member
    obtain ⟨old, there, rfl⟩ := List.mem_map.mp member
    obtain ⟨backend, listed, named, marks⟩ :=
      reflects.marked old there ((same old there).symm.trans healthy)
    exact ⟨backend, upstream ▸ listed, named.trans (name_countEntry old result).symm, marks⟩

theorem failingOver_count {probes : Nat} (failing : FailingOver config name probes state)
    (stepped : state.count config = some after) : FailingOver config name probes after := by
  obtain ⟨result, rest, changed, applying, same⟩ := count_cases stepped
  have entries := countResult_entries config state result
  have unchanged := @countResult_unchanged config state result
  obtain ⟨health, sessions, frame, _⟩ := countResult_frame config state result
  have own := failing.own
  have others := failing.others
  rw [applying] at own others
  rw [frame] at same entries
  dsimp only at same entries
  subst same
  constructor
  · obtain ⟨old, there, registered⟩ := failing.registered
    exact ⟨_, entries ▸ List.mem_map_of_mem there,
      (name_countEntry old result).trans registered⟩
  · exact failing.writing
  · rintro names ⟨⟩
  · rintro names ⟨⟩
  · intro entry member named
    rw [entries] at member
    obtain ⟨old, there, rfl⟩ := List.mem_map.mp member
    exact own old there ((name_countEntry old result).symm.trans named)
  · intro entry member other
    rw [entries] at member
    obtain ⟨old, there, rfl⟩ := List.mem_map.mp member
    exact others old there (name_countEntry old result ▸ other)
  · intro unmarked
    -- without a mark the flags are those from before
    rw [Checker.marked, Bool.or_eq_false_iff] at unmarked
    have same : ∀ entry ∈ state.health.backends.entries,
        (countEntry config entry result).rw.healthy = entry.rw.healthy :=
      fun entry member => unchanged unmarked.2 member .readWrite
    rintro ⟨entry, member, named, healthy⟩
    rw [entries] at member
    obtain ⟨old, there, rfl⟩ := List.mem_map.mp member
    have before := failing.reflects (by rw [applying]; exact unmarked.1)
      ⟨old, there, (name_countEntry old result).symm.trans named,
        (same old there).symm.trans healthy⟩
    exact reflects_counted before rfl entries same

/-- The list that is built has the marks of the health state. -/
theorem reflects_rebuild {order : List BackendHealth} (stepped : state.rebuild order = some after) :
    Reflects after := by
  obtain ⟨_, yields, same⟩ := rebuild_cases stepped
  subst same
  constructor
  · intro backend member primary
    obtain ⟨entry, there, rfl⟩ := List.mem_map.mp member
    exact ⟨entry, yields.subset there, rfl, primary⟩
  · intro entry member healthy
    refine ⟨entry.toUpstream, List.mem_map_of_mem (yields.symm.subset member), rfl, healthy, ?_⟩
    simp [BackendHealth.toUpstream, healthy]

/-- Nothing is counted any more, and the round goes on or is over. -/
theorem failingOver_idle {probes : Nat} (checker : Checker)
    (failing : FailingOver config name probes state)
    (counted : state.checker.results = []) (results : checker.results = [])
    (unprobed : ∀ names, checker ≠ .probing names)
    (marked : checker.marked = false → state.checker.marked = false) (checked : Bool) :
    FailingOver config name probes { state with checker := checker, checked := checked } := by
  have own := failing.own
  have others := failing.others
  rw [counted] at own others
  refine ⟨failing.registered, failing.writing, ?_, ?_, ?_, ?_, ?_⟩
  · exact fun names probing => absurd probing (unprobed names)
  · exact fun names probing => absurd probing (unprobed names)
  · rw [results]
    exact own
  · rw [results]
    exact others
  · intro unmarked healthy
    have before := failing.reflects (marked unmarked) healthy
    exact ⟨before.listed, before.marked⟩

/-- The rounds that are complete, and the one under way where its probes are answered. -/
def Timed.FailsOver (config : HealthCheckConfig) (name : Str) (state : Timed) : Prop :=
  FailingOver config name (state.rounds + state.proxy.checker.answered) state.proxy

section Rounds

variable {before : Timed}

theorem failsOver_update {backends : List PgBackend} (failing : before.FailsOver config name)
    (stepped : before.proxy.update backends = some after) :
    Timed.FailsOver config name ⟨after, before.rounds⟩ := by
  unfold Timed.FailsOver at failing ⊢
  rcases (update_cases stepped).2.2 with ⟨none, _⟩ | ⟨_, same⟩
  · obtain ⟨entry, member, _⟩ := failing.registered
    rw [none] at member
    cases member
  · subst same
    refine ⟨failing.registered, ?_, failing.distinct, failing.unprobed, failing.own,
      failing.others, ?_⟩
    · intro backends writing
      cases writing
    · intro unmarked healthy
      have reflects := failing.reflects unmarked healthy
      exact ⟨reflects.listed, reflects.marked⟩

theorem failsOver_register (failing : before.FailsOver config name)
    (alone : AnswersAlone name before.proxy .register)
    (stepped : before.proxy.register = some after) :
    Timed.FailsOver config name ⟨after, before.rounds⟩ := by
  obtain ⟨_, _, _, same⟩ := register_cases stepped
  have kept := failingOver_register failing alone stepped
  subst same
  exact kept

/-- The probes of a new round are to be sent. -/
theorem failsOver_tick {order : List BackendHealth} (failing : before.FailsOver config name)
    (stepped : before.proxy.tick order = some after) :
    Timed.FailsOver config name ⟨after, before.rounds⟩ := by
  unfold Timed.FailsOver at failing ⊢
  obtain ⟨idle, yields, ⟨_, same⟩ | ⟨_, same⟩⟩ := tick_cases stepped
  · subst same
    exact failing
  · subst same
    have own := failing.own
    have others := failing.others
    simp only [idle, Checker.results, Checker.answered] at own others
    refine ⟨failing.registered, failing.writing, ?_, ?_, own, others, ?_⟩
    · rintro names ⟨⟩
      exact (yields.map BackendHealth.name).nodup_iff.mpr before.proxy.health.backends.distinct
    · rintro names ⟨⟩
      obtain ⟨entry, member, named⟩ := failing.registered
      refine ⟨named ▸ List.mem_map_of_mem (yields.symm.subset member), ?_⟩
      intro entry member absent
      exact absurd (List.mem_map_of_mem (yields.symm.subset member)) absent
    · intro _ healthy
      have reflects := failing.reflects (by rw [idle]; rfl) healthy
      exact ⟨reflects.listed, reflects.marked⟩

theorem failsOver_probe {rw ro : Str → Option Bool} (failing : before.FailsOver config name)
    (alone : AnswersAlone name before.proxy (.probe rw ro))
    (stepped : before.proxy.probe rw ro = some after) :
    Timed.FailsOver config name ⟨after, before.rounds⟩ := by
  obtain ⟨names, probing, same⟩ := probe_cases stepped
  unfold Timed.FailsOver at failing
  rw [probing] at failing
  have answered := failingOver_probe failing alone stepped
  subst same
  exact answered

theorem failsOver_count (failing : before.FailsOver config name)
    (stepped : before.proxy.count config = some after) :
    Timed.FailsOver config name ⟨after, before.rounds⟩ := by
  obtain ⟨result, rest, changed, applying, same⟩ := count_cases stepped
  unfold Timed.FailsOver at failing
  rw [applying] at failing
  have counted := failingOver_count failing stepped
  subst same
  exact counted

/-- A round without a new mark ends here. -/
theorem failsOver_finish (failing : before.FailsOver config name)
    (stepped : before.proxy.finish = some after) :
    Timed.FailsOver config name
      ⟨after, if endsRound before.proxy .finish then before.rounds + 1 else before.rounds⟩ := by
  unfold Timed.FailsOver at failing ⊢
  rcases finish_cases stepped with ⟨counted, same⟩ | ⟨counted, same⟩
  · subst same
    have ends := failingOver_idle .rebuilding failing (by rw [counted]; rfl) rfl
      (by rintro names ⟨⟩) (fun marked => by cases marked) before.proxy.checked
    simpa [counted, Checker.answered, endsRound] using ends
  · subst same
    have ends := failingOver_idle .idle failing (by rw [counted]; rfl) rfl
      (by rintro names ⟨⟩) (fun _ => by rw [counted]; rfl) true
    simpa [counted, Checker.answered, endsRound] using ends

theorem failsOver_rebuild {order : List BackendHealth} (failing : before.FailsOver config name)
    (stepped : before.proxy.rebuild order = some after) :
    Timed.FailsOver config name ⟨after, before.rounds + 1⟩ := by
  unfold Timed.FailsOver at failing ⊢
  have reflects := reflects_rebuild stepped
  obtain ⟨rebuilding, _, same⟩ := rebuild_cases stepped
  have own := failing.own
  have others := failing.others
  simp only [rebuilding, Checker.results, Checker.answered] at own others
  subst same
  refine ⟨failing.registered, failing.writing, ?_, ?_, own, others, fun _ _ => reflects⟩
  · rintro names ⟨⟩
  · rintro names ⟨⟩

theorem failsOver_session {act : Act} (ofSession : act.ofSession = true)
    (failing : before.FailsOver config name)
    (stepped : step config before.proxy act = some after) :
    Timed.FailsOver config name ⟨after, before.rounds⟩ := by
  unfold Timed.FailsOver at failing ⊢
  obtain ⟨sessions, cuts, same⟩ := session_step ofSession stepped
  subst same
  refine ⟨failing.registered, failing.writing, failing.distinct, failing.unprobed, failing.own,
    failing.others, ?_⟩
  intro unmarked healthy
  have reflects := failing.reflects unmarked healthy
  exact ⟨reflects.listed, reflects.marked⟩

theorem failsOver_step {next : Timed} (act : Act) (failing : before.FailsOver config name)
    (alone : AnswersAlone name before.proxy act) (timing : timed config before act = some next) :
    next.FailsOver config name := by
  obtain ⟨after, stepped, same⟩ := Option.map_eq_some_iff.mp timing
  subst same
  cases act with
  | update backends => exact failsOver_update failing stepped
  | writeUpstream =>
      obtain ⟨backends, writing, _⟩ := writeUpstream_cases stepped
      exact absurd writing (failing.writing backends)
  | register => exact failsOver_register failing alone stepped
  | tick order => exact failsOver_tick failing stepped
  | probe rw ro => exact failsOver_probe failing alone stepped
  | count => exact failsOver_count failing stepped
  | finish => exact failsOver_finish failing stepped
  | rebuild order => exact failsOver_rebuild failing stepped
  | _ => exact failsOver_session rfl failing stepped

end Rounds

/-! ### After the failover -/

/-- One backend is up for writing, and only it will be. -/
structure Settled (name : Str) (state : ProxyState) : Prop where
  registered : Registered state.health name
  writing : ∀ backends, state.updater ≠ .writing backends
  flags : ∀ entry ∈ state.health.backends.entries, entry.rw.healthy = true ↔ entry.name = name
  pending : ∀ result ∈ state.checker.results, result.1 = .readWrite →
    (result.2.2 = true ↔ result.2.1 = name)
  reflects : Reflects state

theorem settled_of_failingOver {rounds : Nat} (failing : FailingOver config name rounds state)
    (idle : state.checker = .idle) (some : 1 ≤ rounds) (rises : config.rise ≤ rounds)
    (falls : config.fall ≤ rounds) : Settled name state := by
  have own := failing.own
  have others := failing.others
  simp only [idle, Checker.results, settle, List.foldl_nil] at own others
  have flags : ∀ entry ∈ state.health.backends.entries, entry.rw.healthy = true ↔
      entry.name = name := by
    intro entry member
    constructor
    · intro healthy
      by_contra other
      have failed := others entry member other
      have many := failed.failures healthy
      have few := failed.few healthy some
      omega
    · exact fun named => (own entry member named).healthy some rises
  obtain ⟨entry, member, named⟩ := failing.registered
  refine ⟨failing.registered, failing.writing, flags, ?_, ?_⟩
  · rw [idle]
    intro result none
    cases none
  · exact failing.reflects (by rw [idle]; rfl)
      ⟨entry, member, named, (flags entry member).mpr named⟩

/-- An answer like those before changes no mark for writing. -/
theorem settled_countEntry {entry : BackendHealth} {result : ProbeResult}
    (flag : entry.rw.healthy = true ↔ entry.name = name)
    (answers : result.1 = .readWrite → (result.2.2 = true ↔ result.2.1 = name)) :
    (countEntry config entry result).rw.healthy = entry.rw.healthy := by
  obtain ⟨mode, probed, ok⟩ := result
  by_cases own : entry.name = probed
  · cases mode with
    | readOnly => simp [countEntry, own, BackendHealth.setStreak]
    | readWrite =>
        have answer := answers rfl
        dsimp only at answer
        subst own
        cases ok with
        | true =>
            have healthy := flag.mpr (answer.mp rfl)
            simp [countEntry, BackendHealth.setStreak, BackendHealth.streak, healthy]
        | false =>
            have down : entry.rw.healthy = false := by
              by_contra healthy
              have wrong := answer.mpr (flag.mp (by simpa using healthy))
              cases wrong
            simp [countEntry, BackendHealth.setStreak, BackendHealth.streak, down]
  · simp [countEntry, own]

theorem settled_update {backends : List PgBackend} (settled : Settled name state)
    (stepped : state.update backends = some after) : Settled name after := by
  rcases (update_cases stepped).2.2 with ⟨none, _⟩ | ⟨_, same⟩
  · obtain ⟨entry, member, _⟩ := settled.registered
    rw [none] at member
    cases member
  · subst same
    refine ⟨settled.registered, ?_, settled.flags, settled.pending, settled.reflects.listed,
      settled.reflects.marked⟩
    rintro backends ⟨⟩

theorem settled_register (settled : Settled name state) (alone : AnswersAlone name state .register)
    (stepped : state.register = some after) : Settled name after := by
  obtain ⟨backends, registering, _, same⟩ := register_cases stepped
  have lists : ListsAll state backends := by
    simpa [AnswersAlone, registering, Updater.backends] using alone
  subst same
  refine ⟨?_, ?_, ?_, settled.pending, reflects_registerAll lists settled.reflects⟩
  · obtain ⟨old, there, registered⟩ := settled.registered
    obtain ⟨entry, member, keeps⟩ := kept_registerAll lists there
    exact ⟨entry, member, keeps.name.trans registered⟩
  · rintro backends ⟨⟩
  · intro entry member
    rcases known_registerAll member with ⟨old, there, keeps⟩ | fresh
    · rw [keeps.rw, keeps.name]
      exact settled.flags old there
    · constructor
      · intro healthy
        rw [fresh] at healthy
        cases healthy
      · intro named
        obtain ⟨old, there, keeps⟩ :=
          owns_registerAll lists (named ▸ settled.registered) member
        rw [keeps.rw]
        exact (settled.flags old there).mpr (keeps.name ▸ named)

theorem settled_probe {rw ro : Str → Option Bool} (settled : Settled name state)
    (alone : AnswersAlone name state (.probe rw ro)) (stepped : state.probe rw ro = some after) :
    Settled name after := by
  obtain ⟨names, probing, same⟩ := probe_cases stepped
  simp only [AnswersAlone, probing, Checker.probed] at alone
  subst same
  refine ⟨settled.registered, settled.writing, settled.flags, ?_, settled.reflects.listed,
    settled.reflects.marked⟩
  intro result member write
  rcases List.mem_append.mp member with read | other
  · obtain ⟨probed, there, rfl⟩ := List.mem_map.mp read
    rw [← alone probed there]
    cases answer : rw probed with
    | none => simp
    | some ok => simp
  · obtain ⟨probed, _, rfl⟩ := List.mem_map.mp other
    cases write

theorem settled_count (settled : Settled name state) (stepped : state.count config = some after) :
    Settled name after := by
  obtain ⟨result, rest, changed, applying, same⟩ := count_cases stepped
  have entries := countResult_entries config state result
  obtain ⟨health, sessions, frame, _⟩ := countResult_frame config state result
  have pending := settled.pending
  rw [applying] at pending
  rw [frame] at same entries
  dsimp only at same entries
  subst same
  have flag : ∀ entry ∈ state.health.backends.entries,
      (countEntry config entry result).rw.healthy = entry.rw.healthy := fun entry member =>
    settled_countEntry (settled.flags entry member) (pending result List.mem_cons_self)
  refine ⟨?_, settled.writing, ?_, ?_, reflects_counted settled.reflects rfl entries flag⟩
  · obtain ⟨old, there, registered⟩ := settled.registered
    exact ⟨_, entries ▸ List.mem_map_of_mem there,
      (name_countEntry old result).trans registered⟩
  · intro entry member
    rw [entries] at member
    obtain ⟨old, there, rfl⟩ := List.mem_map.mp member
    rw [flag old there, name_countEntry]
    exact settled.flags old there
  · exact fun later member => pending later (List.mem_cons_of_mem result member)

/-- The checker goes on with nothing to count. -/
theorem settled_checker (settled : Settled name state) {checker : Checker}
    (results : checker.results = []) (checked : Bool) :
    Settled name { state with checker := checker, checked := checked } := by
  refine ⟨settled.registered, settled.writing, settled.flags, ?_, settled.reflects.listed,
    settled.reflects.marked⟩
  intro result member
  change result ∈ checker.results at member
  rw [results] at member
  cases member

theorem settled_tick {order : List BackendHealth} (settled : Settled name state)
    (stepped : state.tick order = some after) : Settled name after := by
  obtain ⟨_, _, ⟨_, same⟩ | ⟨_, same⟩⟩ := tick_cases stepped
  · subst same
    exact settled
  · subst same
    exact settled_checker settled rfl state.checked

theorem settled_finish (settled : Settled name state) (stepped : state.finish = some after) :
    Settled name after := by
  rcases finish_cases stepped with ⟨_, same⟩ | ⟨_, same⟩
  · subst same
    exact settled_checker settled rfl state.checked
  · subst same
    exact settled_checker settled rfl true

theorem settled_rebuild {order : List BackendHealth} (settled : Settled name state)
    (stepped : state.rebuild order = some after) : Settled name after := by
  have reflects := reflects_rebuild stepped
  obtain ⟨_, _, same⟩ := rebuild_cases stepped
  subst same
  refine ⟨settled.registered, settled.writing, settled.flags, ?_, reflects⟩
  intro result none
  cases none

theorem settled_session {act : Act} (ofSession : act.ofSession = true)
    (settled : Settled name state)
    (stepped : step config state act = some after) : Settled name after := by
  obtain ⟨sessions, cuts, same⟩ := session_step ofSession stepped
  subst same
  exact ⟨settled.registered, settled.writing, settled.flags, settled.pending,
    settled.reflects.listed, settled.reflects.marked⟩

theorem settled_step (act : Act) (settled : Settled name state)
    (alone : AnswersAlone name state act) (stepped : step config state act = some after) :
    Settled name after := by
  cases act with
  | update backends => exact settled_update settled stepped
  | writeUpstream =>
      obtain ⟨backends, writing, _⟩ := writeUpstream_cases stepped
      exact absurd writing (settled.writing backends)
  | register => exact settled_register settled alone stepped
  | probe rw ro => exact settled_probe settled alone stepped
  | count => exact settled_count settled stepped
  | tick order => exact settled_tick settled stepped
  | finish => exact settled_finish settled stepped
  | rebuild order => exact settled_rebuild settled stepped
  | _ => exact settled_session rfl settled stepped

/-- The only entry that is marked primary is of the backend that answers. -/
theorem writesTo_of_settled (settled : Settled name state) : WritesTo name state := by
  intro counter
  obtain ⟨entry, member, named⟩ := settled.registered
  obtain ⟨backend, there, _, primary, healthy⟩ :=
    settled.reflects.marked entry member ((settled.flags entry member).mpr named)
  cases found : state.upstream.primary with
  | none =>
      have none := List.find?_eq_none.mp found backend there
      simp [primary, healthy] at none
  | some picked =>
      have marked := List.find?_some found
      rw [Bool.and_eq_true] at marked
      obtain ⟨own, member', same, healthy⟩ :=
        settled.reflects.listed picked (List.mem_of_find?_eq_some found) marked.1
      have alone : picked.name = name := same.symm.trans ((settled.flags own member').mp healthy)
      have info := get?_self member
      rw [named, ← alone] at info
      simp only [ProxyState.selectBackend, UpstreamState.select, found, Option.map_some, info]
      exact ⟨_, rfl, alone⟩

/-! ### The run -/

/-- A call of `update_backends` writes the upstream list only while no backend is registered. -/
def WritesFirst (state : ProxyState) : Prop :=
  ∀ backends, state.updater = .writing backends → state.health.backends.entries = []

theorem writesFirst_step (act : Act) (first : WritesFirst state)
    (stepped : step config state act = some after) :
    WritesFirst after := by
  cases act with
  | update backends =>
      rcases (update_cases stepped).2.2 with ⟨none, same⟩ | ⟨_, same⟩
      · subst same
        exact fun _ _ => none
      · subst same
        rintro backends ⟨⟩
  | writeUpstream =>
      obtain ⟨backends, _, same⟩ := writeUpstream_cases stepped
      subst same
      rintro backends ⟨⟩
  | register =>
      obtain ⟨backends, _, _, same⟩ := register_cases stepped
      subst same
      rintro backends ⟨⟩
  | tick order =>
      obtain ⟨_, _, ⟨_, same⟩ | ⟨_, same⟩⟩ := tick_cases stepped
      · exact same ▸ first
      · exact same ▸ first
  | probe rw ro =>
      obtain ⟨names, _, same⟩ := probe_cases stepped
      exact same ▸ first
  | count =>
      obtain ⟨result, rest, changed, _, same⟩ := count_cases stepped
      have entries := countResult_entries config state result
      obtain ⟨health, sessions, frame, _⟩ := countResult_frame config state result
      rw [frame] at same entries
      subst same
      intro backends writing
      have none := first backends writing
      dsimp only at entries
      rw [entries, none, List.map_nil]
  | finish =>
      rcases finish_cases stepped with ⟨_, same⟩ | ⟨_, same⟩
      · exact same ▸ first
      · exact same ▸ first
  | rebuild order =>
      obtain ⟨_, _, same⟩ := rebuild_cases stepped
      exact same ▸ first
  | _ =>
      obtain ⟨sessions, cuts, same⟩ := session_step rfl stepped
      exact same ▸ first

theorem writesFirst_reaches (path : Reaches (step config) anyAct .new state) :
    WritesFirst state := by
  have initial : WritesFirst .new := by rintro backends ⟨⟩
  exact reaches_invariant WritesFirst initial
    (fun _ act _ before _ stepped => writesFirst_step act before stepped) path

/-- A registered backend that is not up for writing, between two rounds. -/
def AwaitsFailover (name : Str) (state : ProxyState) : Prop :=
  state.checker = .idle ∧ ∃ entry ∈ state.health.backends.entries, entry.name = name ∧
    entry.rw.healthy = false

theorem failsOver_start (path : Reaches (step config) anyAct .new state)
    (awaits : AwaitsFailover name state) :
    Timed.FailsOver config name ⟨state, 0⟩ := by
  obtain ⟨idle, entry, member, named, down⟩ := awaits
  unfold Timed.FailsOver
  simp only [idle, Checker.answered, Nat.add_zero]
  constructor
  · exact ⟨entry, member, named⟩
  · intro backends writing
    rw [writesFirst_reaches path backends writing] at member
    cases member
  · intro names probing
    rw [idle] at probing
    cases probing
  · intro names probing
    rw [idle] at probing
    cases probing
  · intro own _ _
    constructor
    · exact Nat.zero_le _
    · intro none
      cases none
  · intro other _ _
    constructor
    · exact fun _ => Nat.zero_le _
    · intro _ none
      cases none
  · rintro _ ⟨own, member', named', healthy⟩
    rw [same_entry member' member (named'.trans named.symm), down] at healthy
    cases healthy

theorem idle_of_endsRound {act : Act} (ends : endsRound state act = true)
    (stepped : step config state act = some after) :
    after.checker = .idle := by
  cases act with
  | finish =>
      rcases finish_cases stepped with ⟨counted, _⟩ | ⟨_, same⟩
      · simp [endsRound, counted] at ends
      · rw [same]
  | rebuild order =>
      obtain ⟨_, _, same⟩ := rebuild_cases stepped
      rw [same]
  | _ => cases ends

/-- The rounds are complete, and what the failover leads to is there. -/
def Timed.Converges (config : HealthCheckConfig) (name : Str) (state : Timed) : Prop :=
  state.FailsOver config name ∧
    (1 ≤ state.rounds → config.rise ≤ state.rounds → config.fall ≤ state.rounds →
      Settled name state.proxy)

theorem converges_step {before next : Timed} (act : Act) (converges : before.Converges config name)
    (alone : AnswersAlone name before.proxy act) (timing : timed config before act = some next) :
    next.Converges config name := by
  have failing := failsOver_step act converges.1 alone timing
  obtain ⟨after, stepped, same⟩ := Option.map_eq_some_iff.mp timing
  refine ⟨failing, fun some rises falls => ?_⟩
  subst same
  cases ends : endsRound before.proxy act with
  | true =>
      have idle := idle_of_endsRound ends stepped
      simp only [Timed.FailsOver, idle, Checker.answered, Nat.add_zero] at failing
      exact settled_of_failingOver failing idle some rises falls
  | false =>
      simp only [ends, Bool.false_eq_true, if_false] at some rises falls
      exact settled_step act (converges.2 some rises falls) alone stepped

/-- From every reachable state in which a registered backend is not up for writing: if from then
on it is the only one to answer `/primary` and no backend leaves the cluster, then as soon as
`rise` and `fall` rounds are complete every connection for writing goes to it, in every run. -/
theorem failover_converges {start : ProxyState} {reached : Timed}
    (path : Reaches (step config) anyAct .new start)
    (awaits : AwaitsFailover name start)
    (run : Reaches (timed config) (fun before act => AnswersAlone name before.proxy act)
      ⟨start, 0⟩ reached)
    (rises : max 1 config.rise ≤ reached.rounds) (falls : config.fall ≤ reached.rounds) :
    WritesTo name reached.proxy := by
  have initial : Timed.Converges config name ⟨start, 0⟩ :=
    ⟨failsOver_start path awaits, fun none => by cases none⟩
  have converges := reaches_invariant (Timed.Converges config name) initial
    (fun _ act _ before alone timing => converges_step act before alone timing) run
  exact writesTo_of_settled (converges.2 (by omega) (by omega) falls)

/-- A round of two nodes with the given counts, of which one answers `/primary`. -/
def nodesRound (answering : Str) (rw rw' ro : Streak) : List Act :=
  [.tick [{ BackendHealth.new (node ['a']) 0 with rw := rw, ro := ro },
      { BackendHealth.new (node ['b']) 1 with rw := rw', ro := ro }],
    .probe (only answering) fun _ => none] ++ List.replicate 4 .count ++ [.finish]

def nodesRebuild (rw rw' ro : Streak) : Act :=
  .rebuild [{ BackendHealth.new (node ['b']) 1 with rw := rw', ro := ro },
    { BackendHealth.new (node ['a']) 0 with rw := rw, ro := ro }]

/-- The first of two nodes comes up. -/
def nodesStart : List Act :=
  [.update [node ['a'], node ['b']], .writeUpstream, .register] ++
    nodesRound ['a'] .fresh .fresh .fresh ++
    nodesRound ['a'] ⟨false, 0, 1⟩ ⟨false, 1, 0⟩ ⟨false, 1, 0⟩ ++
    [nodesRebuild ⟨true, 0, 2⟩ ⟨false, 2, 0⟩ ⟨false, 2, 0⟩]

/-- The second one is promoted. -/
def nodesFailover : List Act :=
  nodesRound ['b'] ⟨true, 0, 2⟩ ⟨false, 2, 0⟩ ⟨false, 2, 0⟩ ++
    nodesRound ['b'] ⟨true, 1, 0⟩ ⟨false, 0, 1⟩ ⟨false, 3, 0⟩ ++
    [nodesRebuild ⟨true, 2, 0⟩ ⟨true, 0, 2⟩ ⟨false, 4, 0⟩] ++
    nodesRound ['b'] ⟨true, 2, 0⟩ ⟨true, 0, 2⟩ ⟨false, 4, 0⟩ ++
    [nodesRebuild ⟨false, 3, 0⟩ ⟨true, 0, 3⟩ ⟨false, 5, 0⟩]

instance (name : Str) (state : ProxyState) : Decidable (AwaitsFailover name state) :=
  have : Decidable (state.checker = .idle) :=
    match state.checker with
    | .idle => .isTrue rfl
    | .probing _ => .isFalse (by rintro ⟨⟩)
    | .applying _ _ => .isFalse (by rintro ⟨⟩)
    | .rebuilding => .isFalse (by rintro ⟨⟩)
  inferInstanceAs (Decidable (_ ∧ ∃ _ ∈ _, _ ∧ _))

theorem failover_converges_default :
    ∃ start reached, Reaches (step .default) anyAct .new start ∧ AwaitsFailover ['b'] start ∧
      Reaches (timed .default) (fun before act => AnswersAlone ['b'] before.proxy act)
        ⟨start, 0⟩ reached ∧
      WritesTo ['b'] reached.proxy := by
  have played : (play (step .default) anyAct .new nodesStart).map (fun start =>
      decide (AwaitsFailover ['b'] start) &&
        (play (timed .default) (fun before act => AnswersAlone ['b'] before.proxy act)
          ⟨start, 0⟩ nodesFailover).any
          fun reached => decide (3 ≤ reached.rounds)) = some true := by
    decide +kernel
  obtain ⟨start, path, done⟩ := play_exhibits played
  rw [Bool.and_eq_true, decide_eq_true_eq] at done
  obtain ⟨reached, ended, enough⟩ := (Option.any_eq_true ..).mp done.2
  have run := play_reaches ended
  have rounds : 3 ≤ reached.rounds := of_decide_eq_true enough
  exact ⟨start, reached, path, done.1, run,
    failover_converges path done.1 run (Nat.le_trans (by decide) rounds) rounds⟩

end PgHa.Proxy
