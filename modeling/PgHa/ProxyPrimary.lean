import PgHa.ProxyRegistry
import PgHa.Transition

/-!
One target for writes: in rounds of which at most one backend answers `/primary`, the
upstream list that the health checker builds has at most one primary exactly when a backend
falls no later than another one rises.
-/

namespace PgHa.Proxy

open KeyedTable RiseFall Text Transition

variable {config : HealthCheckConfig} {state after : ProxyState}

/-- At most one backend of a round answers `/primary` with success. -/
def SingleAnswer (state : ProxyState) : Act → Prop
  | .probe rw _ => ∀ names, state.checker = .probing names →
      ∀ name ∈ names, ∀ other ∈ names, rw name = some true → rw other = some true →
        name = other
  | _ => True

/-- Of the list that the health checker has built, no two entries are primary. -/
def SinglePrimary (state : ProxyState) : Prop :=
  state.built = true → (state.upstream.backends.filter PgBackend.isPrimary).length ≤ 1

/-- What `primary` picks of such a list is the only entry that is marked primary. -/
def PickedAlone (state : ProxyState) : Prop :=
  state.built = true → ∀ picked, state.upstream.primary = some picked →
    ∀ other ∈ state.upstream.backends, other.isPrimary = true → other = picked

theorem pickedAlone_of_single (single : SinglePrimary state) : PickedAlone state := by
  intro built picked found other member primary
  have few := single built
  unfold UpstreamState.primary at found
  have marked : picked.isPrimary = true := by
    have both := List.find?_some found
    rw [Bool.and_eq_true] at both
    exact both.1
  have there := List.mem_filter.mpr ⟨List.mem_of_find?_eq_some found, marked⟩
  have there' := List.mem_filter.mpr ⟨member, primary⟩
  cases primaries : state.upstream.backends.filter PgBackend.isPrimary with
  | nil =>
      rw [primaries] at there
      cases there
  | cons first rest =>
      cases rest with
      | nil =>
          rw [primaries, List.mem_singleton] at there there'
          exact there'.trans there.symm
      | cons second rest =>
          rw [primaries] at few
          simp at few

/-! ### The results of a round -/

/-- A backend as it is once the results are counted. -/
def settle (config : HealthCheckConfig) (results : List ProbeResult) (backend : BackendHealth) :
    BackendHealth :=
  results.foldl (countEntry config) backend

@[simp] theorem name_settle (results : List ProbeResult) (backend : BackendHealth) :
    (settle config results backend).name = backend.name := by
  induction results generalizing backend with
  | nil => rfl
  | cons result rest ih => exact (ih _).trans (name_countEntry backend result)

theorem settle_other {mode : ProxyMode} {names : List Str} {backend : BackendHealth}
    (answers : Str → Option Bool) (absent : backend.name ∉ names) :
    settle config (modeResults mode names answers) backend = backend := by
  induction names with
  | nil => rfl
  | cons name rest ih =>
      rw [List.mem_cons, not_or] at absent
      have skipped : countEntry config backend (mode, name, (answers name).getD false) = backend :=
        if_neg absent.1
      rw [modeResults, List.map_cons, settle, List.foldl_cons, skipped]
      exact ih absent.2

/-- A backend is counted once for the results of a mode. -/
theorem settle_mode {mode : ProxyMode} {names : List Str} {backend : BackendHealth}
    (answers : Str → Option Bool) (distinct : names.Nodup) (probed : backend.name ∈ names) :
    settle config (modeResults mode names answers) backend =
      backend.setStreak mode
        ((backend.streak mode).count config.rise config.fall
          ((answers backend.name).getD false)).1 := by
  induction names with
  | nil => cases probed
  | cons name rest ih =>
      rw [List.nodup_cons] at distinct
      rw [modeResults, List.map_cons, settle, List.foldl_cons]
      by_cases own : backend.name = name
      · subst own
        have counted : countEntry config backend
            (mode, backend.name, (answers backend.name).getD false) =
            backend.setStreak mode
              ((backend.streak mode).count config.rise config.fall
                ((answers backend.name).getD false)).1 :=
          if_pos rfl
        rw [counted]
        exact settle_other answers (by simpa using distinct.1)
      · have skipped : countEntry config backend (mode, name, (answers name).getD false) =
            backend :=
          if_neg own
        rw [skipped]
        exact ih distinct.2 ((List.mem_cons.mp probed).resolve_left own)

/-- The results for reading leave the counts for writing alone. -/
theorem settle_readOnly_rw (names : List Str) (answers : Str → Option Bool)
    (backend : BackendHealth) :
    (settle config (modeResults .readOnly names answers) backend).rw = backend.rw := by
  induction names generalizing backend with
  | nil => rfl
  | cons name rest ih =>
      have same : (countEntry config backend (.readOnly, name, (answers name).getD false)).rw =
          backend.rw := by
        by_cases own : backend.name = name
        · simp [countEntry, own, BackendHealth.setStreak]
        · simp [countEntry, own]
      rw [modeResults, List.map_cons, settle, List.foldl_cons]
      exact (ih _).trans same

theorem settle_probe (names : List Str) (rw ro : Str → Option Bool) (backend : BackendHealth) :
    (settle config (probeResults names rw ro) backend).rw =
      (settle config (modeResults .readWrite names rw) backend).rw := by
  unfold probeResults
  rw [settle, List.foldl_append]
  exact settle_readOnly_rw names ro _

/-! ### Runs -/

def Checker.results : Checker → List ProbeResult
  | .applying results _ => results
  | _ => []

/-- Of the results that are still to be counted nothing is left out, and a backend that was not
there when the round began has no marks. -/
structure Yielding (config : HealthCheckConfig) (state : ProxyState) : Prop where
  pairs : ∀ backend ∈ state.health.backends.entries,
    ∀ other ∈ state.health.backends.entries,
    backend.name ≠ other.name →
      Yields (settle config state.checker.results backend).rw
        (settle config state.checker.results other).rw
  distinct : ∀ names, state.checker = .probing names → names.Nodup
  fresh : ∀ names, state.checker = .probing names →
    ∀ backend ∈ state.health.backends.entries, backend.name ∉ names → backend.rw = .fresh
  single : SinglePrimary state

theorem results_not_counting (idle : state.counting = false) : state.checker.results = [] := by
  unfold ProxyState.counting at idle
  unfold Checker.results
  cases checker : state.checker with
  | applying results changed => simp [checker] at idle
  | _ => rfl

/-- The backends of the list that any order of the health state gives are primary where no other
one is. -/
theorem single_toUpstream {order : List BackendHealth} {table : Keyed BackendHealth.name}
    (yields : order.Perm table.entries)
    (pairs : ∀ backend ∈ table.entries, ∀ other ∈ table.entries,
      backend.name ≠ other.name →
        Yields backend.rw other.rw) :
    ((order.map BackendHealth.toUpstream).filter PgBackend.isPrimary).length ≤ 1 := by
  have only : ∀ backend ∈ order, ∀ other ∈ order, backend.rw.healthy = true →
      other.rw.healthy = true →
      backend = other := by
    intro backend member other member' healthy healthy'
    by_contra differs
    have names : backend.name ≠ other.name := fun same =>
      differs (same_entry (yields.subset member) (yields.subset member') same)
    have down := (pairs backend (yields.subset member) other (yields.subset member') names
        healthy).1
    rw [healthy'] at down
    cases down
  have distinct : order.Nodup := yields.nodup_iff.mpr (List.Nodup.of_map _ table.distinct)
  rw [List.filter_map, List.length_map]
  cases primaries : order.filter (PgBackend.isPrimary ∘ BackendHealth.toUpstream) with
  | nil => exact Nat.zero_le 1
  | cons first rest =>
      cases rest with
      | nil => exact Nat.le_refl 1
      | cons second rest =>
          have there : ∀ backend ∈ first :: second :: rest, backend ∈ order ∧
              backend.rw.healthy = true := by
            rw [← primaries]
            exact fun backend member => List.mem_filter.mp member
          have same := only first (there first (by simp)).1 second (there second (by simp)).1
            (there first (by simp)).2 (there second (by simp)).2
          have apart := distinct.filter (PgBackend.isPrimary ∘ BackendHealth.toUpstream)
          rw [primaries, same] at apart
          simp at apart

theorem yielding_new (config : HealthCheckConfig) : Yielding config .new where
  pairs := by
    intro backend member
    cases member
  distinct := by
    intro names probing
    cases probing
  fresh := by
    intro names probing
    cases probing
  single := by
    intro built
    cases built

theorem yielding_probe {rw ro : Str → Option Bool} (quick : config.fall ≤ config.rise)
    (yielding : Yielding config state) (answer : SingleAnswer state (.probe rw ro))
    (stepped : state.probe rw ro = some after) : Yielding config after := by
  obtain ⟨names, probing, same⟩ := probe_cases stepped
  have settled : state.checker.results = [] := by
    rw [probing]
    rfl
  subst same
  constructor
  · intro backend member other member' differs
    have yields := yielding.pairs backend member other member' differs
    have yields' := yielding.pairs other member' backend member differs.symm
    rw [settled] at yields yields'
    simp only [Checker.results, settle_probe]
    have distinct := yielding.distinct names probing
    by_cases probed : backend.name ∈ names
    · by_cases probed' : other.name ∈ names
      · rw [settle_mode rw distinct probed, settle_mode rw distinct probed']
        apply yields_count quick _ yields yields'
        rintro ⟨ok, ok'⟩
        have found : rw backend.name = some true := by simpa [Option.getD_eq_iff] using ok
        have found' : rw other.name = some true := by simpa [Option.getD_eq_iff] using ok'
        exact differs (answer names probing _ probed _ probed' found found')
      · rw [settle_other rw probed', yielding.fresh names probing other member' probed']
        exact yields_fresh _
    · rw [settle_other rw probed, yielding.fresh names probing backend member probed]
      exact fresh_yields _
  · intro names probing
    cases probing
  · intro names probing
    cases probing
  · exact yielding.single

theorem yielding_register (yielding : Yielding config state)
    (stepped : state.register = some after) :
    Yielding config after := by
  obtain ⟨backends, _, idle, same⟩ := register_cases stepped
  have settled := results_not_counting idle
  subst same
  constructor
  · intro backend member other member' differs
    simp only [settled, settle, List.foldl_nil]
    rcases registerAll_entries member with ⟨old, memberOld, keeps⟩ | fresh
    · rcases registerAll_entries member' with ⟨old', memberOld', keeps'⟩ | fresh'
      · have yields :=
          yielding.pairs old memberOld old' memberOld' (keeps.name ▸ keeps'.name ▸ differs)
        rw [settled] at yields
        rw [keeps.rw, keeps'.rw]
        exact yields
      · rw [fresh'.rw]
        exact yields_fresh _
    · rw [fresh.rw]
      exact fresh_yields _
  · exact yielding.distinct
  · intro names probing backend member unprobed
    rcases registerAll_entries member with ⟨old, memberOld, keeps⟩ | fresh
    · rw [keeps.rw]
      exact yielding.fresh names probing old memberOld (keeps.name ▸ unprobed)
    · exact fresh.rw
  · exact yielding.single

theorem yielding_count (yielding : Yielding config state)
    (stepped : state.count config = some after) :
    Yielding config after := by
  obtain ⟨result, rest, changed, applying, same⟩ := count_cases stepped
  subst same
  constructor
  · intro backend member other member' differs
    rw [countResult_entries] at member member'
    obtain ⟨old, memberOld, rfl⟩ := List.mem_map.mp member
    obtain ⟨old', memberOld', rfl⟩ := List.mem_map.mp member'
    simp only [name_countEntry] at differs
    have yields := yielding.pairs old memberOld old' memberOld' differs
    rw [applying] at yields
    exact yields
  · intro names probing
    cases probing
  · intro names probing
    cases probing
  · obtain ⟨health, sessions, same, _⟩ := countResult_frame config state result
    rw [same]
    exact yielding.single

/-- The invariant of a round that is not at the counting of its results. -/
theorem yielding_idle (yielding : Yielding config state) {checker : Checker}
    (before : state.checker.results = []) (idle : checker.results = [])
    (unprobed : ∀ names, checker ≠ .probing names) (checked : Bool) :
    Yielding config { state with checker := checker, checked := checked } where
  pairs := by
    have yields := yielding.pairs
    rw [before] at yields
    simp only [idle]
    exact yields
  distinct := fun names probing => absurd probing (unprobed names)
  fresh := fun names probing => absurd probing (unprobed names)
  single := yielding.single

theorem yielding_step (quick : config.fall ≤ config.rise) (act : Act)
    (yielding : Yielding config state)
    (answer : SingleAnswer state act) (stepped : step config state act = some after) :
    Yielding config after := by
  cases act with
  | update backends =>
      rcases (update_cases stepped).2.2 with ⟨_, same⟩ | ⟨_, same⟩
      · subst same
        exact ⟨yielding.pairs, yielding.distinct, yielding.fresh, yielding.single⟩
      · subst same
        exact ⟨yielding.pairs, yielding.distinct, yielding.fresh, yielding.single⟩
  | writeUpstream =>
      obtain ⟨backends, _, same⟩ := writeUpstream_cases stepped
      subst same
      refine ⟨yielding.pairs, yielding.distinct, yielding.fresh, ?_⟩
      intro built
      cases built
  | register => exact yielding_register yielding stepped
  | tick order =>
      obtain ⟨idle, yields, ⟨_, same⟩ | ⟨_, same⟩⟩ := tick_cases stepped
      · subst same
        exact yielding
      · subst same
        have settled : state.checker.results = [] := by
          rw [idle]
          rfl
        constructor
        · have pairs := yielding.pairs
          rw [settled] at pairs
          exact pairs
        · rintro names ⟨⟩
          exact (yields.map BackendHealth.name).nodup_iff.mpr state.health.backends.distinct
        · rintro names ⟨⟩ backend member unprobed
          exact absurd (List.mem_map_of_mem (yields.symm.subset member)) unprobed
        · exact yielding.single
  | probe rw ro => exact yielding_probe quick yielding answer stepped
  | count => exact yielding_count yielding stepped
  | finish =>
      rcases finish_cases stepped with ⟨counted, same⟩ | ⟨counted, same⟩
      · subst same
        exact yielding_idle yielding (by rw [counted]; rfl) rfl (by rintro names ⟨⟩)
          state.checked
      · subst same
        exact yielding_idle yielding (by rw [counted]; rfl) rfl (by rintro names ⟨⟩) true
  | rebuild order =>
      obtain ⟨rebuilding, yields, same⟩ := rebuild_cases stepped
      subst same
      have settled : state.checker.results = [] := by
        rw [rebuilding]
        rfl
      have pairs := yielding.pairs
      rw [settled] at pairs
      constructor
      · exact pairs
      · rintro names ⟨⟩
      · rintro names ⟨⟩
      · exact fun _ => single_toUpstream yields pairs
  | _ =>
      obtain ⟨sessions, cuts, same⟩ := session_step rfl stepped
      subst same
      exact ⟨yielding.pairs, yielding.distinct, yielding.fresh, yielding.single⟩

theorem single_of_quick (quick : config.fall ≤ config.rise)
    (path : Reaches (step config) SingleAnswer .new state) : SinglePrimary state := by
  have yielding := reaches_invariant (Yielding config) (yielding_new config)
    (fun _ act _ before answer stepped => yielding_step quick act before answer stepped) path
  exact yielding.single

/-! ### Rounds that can be played -/

/-- `upstream_changed` is set where a backend becomes healthy or unhealthy. -/
theorem counts_run (state : ProxyState) (results : List ProbeResult) {changed : Bool}
    (applying : state.checker = .applying results changed) :
    ∃ after changed', Reaches (step config) SingleAnswer state after ∧
      after.checker = .applying [] changed' ∧
      after.health.backends.entries = state.health.backends.entries.map (settle config results) ∧
      (changed' = false → changed = false ∧ ∀ backend ∈ state.health.backends.entries,
        (settle config results backend).rw.healthy = backend.rw.healthy) := by
  induction results generalizing state changed with
  | nil =>
      exact ⟨state, changed, .refl, applying, (List.map_id _).symm,
        fun same => ⟨same, fun _ _ => rfl⟩⟩
  | cons result rest ih =>
      have stepped : step config state .count = some { (state.countResult config result).1 with
          checker := .applying rest (changed || (state.countResult config result).2) } := by
        simp only [step, ProxyState.count, applying]
      obtain ⟨after, changed', path, done, entries, unchanged⟩ := ih
        { (state.countResult config result).1 with
          checker := .applying rest (changed || (state.countResult config result).2) } rfl
      refine ⟨after, changed', reaches_trans (.next .count .refl trivial stepped) path,
        done, ?_, ?_⟩
      · rw [entries]
        dsimp only
        rw [countResult_entries, List.map_map]
        rfl
      · intro same
        have before := unchanged same
        rw [Bool.or_eq_false_iff] at before
        refine ⟨before.1.1, fun backend member => ?_⟩
        have counted := List.mem_map_of_mem (f := (countEntry config · result)) member
        rw [← countResult_entries] at counted
        exact (before.2 _ counted).trans (countResult_unchanged before.1.2 member .readWrite)

/-- A whole round; where a backend is marked up or down for writes the upstream list is built. -/
theorem round_run (config : HealthCheckConfig) (rw ro : Str → Option Bool)
    (idle : state.checker = .idle)
    (some : state.health.backends.entries ≠ [])
    (single : ∀ backend ∈ state.health.backends.entries,
      ∀ other ∈ state.health.backends.entries,
        rw backend.name = Option.some true → rw other.name = Option.some true →
          backend.name = other.name) :
    ∃ after, Reaches (step config) SingleAnswer state after ∧ after.checker = .idle ∧
      after.health.backends.entries = state.health.backends.entries.map
        (settle config (probeResults
          (state.health.backends.entries.map BackendHealth.name) rw ro)) ∧
      ((∃ backend ∈ state.health.backends.entries,
        (settle config (probeResults (state.health.backends.entries.map BackendHealth.name) rw ro)
          backend).rw.healthy ≠ backend.rw.healthy) →
        after.built = true ∧
          after.upstream.backends = after.health.backends.entries.map
            BackendHealth.toUpstream) := by
  let names := state.health.backends.entries.map BackendHealth.name
  have ticked : step config state (.tick state.health.backends.entries) =
      Option.some { state with checker := .probing names } := by
    simp [step, ProxyState.tick, idle, some, names]
  have probed : step config { state with checker := .probing names } (.probe rw ro) =
      Option.some { state with checker := .applying (probeResults names rw ro) false } := rfl
  have answers : SingleAnswer { state with checker := .probing names } (.probe rw ro) := by
    rintro _ ⟨⟩ name member other member'
    obtain ⟨backend, there, rfl⟩ := List.mem_map.mp member
    obtain ⟨backend', there', rfl⟩ := List.mem_map.mp member'
    exact single backend there backend' there'
  obtain ⟨counted, changed, path, done, entries, unchanged⟩ := counts_run
    { state with checker := .applying (probeResults names rw ro) false } _ rfl
  have round : Reaches (step config) SingleAnswer state counted :=
    reaches_trans (.next (.probe rw ro)
      (.next (.tick state.health.backends.entries) .refl trivial ticked) answers probed) path
  cases changed with
  | false =>
      have finished : step config counted .finish =
          Option.some { counted with checker := .idle, checked := true } := by
        simp [step, ProxyState.finish, done]
      refine ⟨_, .next .finish round trivial finished, rfl, entries, ?_⟩
      rintro ⟨backend, member, marked⟩
      exact absurd ((unchanged rfl).2 backend member) marked
  | true =>
      have finished : step config counted .finish = Option.some
          { counted with checker := .rebuilding } := by
        simp [step, ProxyState.finish, done]
      have rebuilt : step config
          { counted with checker := .rebuilding } (.rebuild counted.health.backends.entries) =
          Option.some { counted with
            upstream := ⟨counted.health.backends.entries.map BackendHealth.toUpstream⟩
            built := true
            checker := .idle
            checked := true } := by
        simp [step, ProxyState.rebuild]
      have ended : Reaches (step config) SingleAnswer state
          { counted with checker := .rebuilding } :=
        .next .finish round trivial finished
      exact ⟨_, .next (.rebuild counted.health.backends.entries) ended trivial rebuilt,
        rfl, entries,
        fun _ => ⟨rfl, rfl⟩⟩

/-! ### A quick rise -/

/-- Between rounds, with two backends and the counts for writing of each. -/
structure Pair (first second : Str) (rw rw' : Streak) (state : ProxyState) : Prop where
  idle : state.checker = .idle
  entries : ∃ backend other, state.health.backends.entries = [backend, other] ∧
    backend.name = first ∧ other.name = second ∧ backend.rw = rw ∧ other.rw = rw'

/-- The backend of one name answers `/primary`, and no other one does. -/
def only (answering : Str) (name : Str) : Option Bool := some (name = answering)

variable {first second : Str} {rw rw' : Streak}

theorem pair_round (config : HealthCheckConfig) (answering : Str) (differs : first ≠ second)
    (pair : Pair first second rw rw' state) :
    ∃ after, Reaches (step config) SingleAnswer state after ∧
      Pair first second (rw.count config.rise config.fall (first = answering)).1
        (rw'.count config.rise config.fall (second = answering)).1 after ∧
      ((rw'.count config.rise config.fall (second = answering)).1.healthy ≠ rw'.healthy →
        after.built = true ∧
          after.upstream.backends = after.health.backends.entries.map
            BackendHealth.toUpstream) := by
  obtain ⟨backend, other, entries, named, named', counts, counts'⟩ := pair.entries
  have single : ∀ backend ∈ state.health.backends.entries,
      ∀ other ∈ state.health.backends.entries,
      only answering backend.name = some true → only answering other.name = some true →
        backend.name = other.name := by
    intro one _ two _ answers answers'
    simp only [only, Option.some.injEq, decide_eq_true_eq] at answers answers'
    exact answers.trans answers'.symm
  obtain ⟨after, path, idle, settled, built⟩ :=
    round_run config (only answering) (fun _ => none) pair.idle (by simp [entries]) single
  have distinct : [first, second].Nodup := by simp [differs]
  have names : state.health.backends.entries.map BackendHealth.name = [first, second] := by
    simp [entries, named, named']
  rw [names] at settled built
  have head : (settle config (probeResults [first, second] (only answering) fun _ => none)
      backend).rw =
      (rw.count config.rise config.fall (first = answering)).1 := by
    rw [settle_probe, settle_mode (only answering) distinct (by simp [named])]
    simp [BackendHealth.setStreak, BackendHealth.streak, only, counts, named]
  have last : (settle config (probeResults [first, second] (only answering) fun _ => none)
      other).rw =
      (rw'.count config.rise config.fall (second = answering)).1 := by
    rw [settle_probe, settle_mode (only answering) distinct (by simp [named'])]
    simp [BackendHealth.setStreak, BackendHealth.streak, only, counts', named']
  refine ⟨after, path, ⟨idle, _, _, ?_, ?_, ?_, head, last⟩, ?_⟩
  · rw [settled, entries]
    rfl
  · rw [name_settle, named]
  · rw [name_settle, named']
  · intro marked
    exact built ⟨other, by simp [entries], by rw [last, counts']; exact marked⟩

/-- The first of the backends answers for a number of rounds. -/
theorem first_answers (rises : 1 ≤ config.rise) (differs : first ≠ second)
    (pair : Pair first second .fresh .fresh state) (rounds : Nat) :
    ∃ after, Reaches (step config) SingleAnswer state after ∧
      Pair first second ⟨decide (config.rise ≤ rounds), 0, rounds⟩ ⟨false, rounds, 0⟩
        after := by
  induction rounds with
  | zero =>
      have notYet : decide (config.rise ≤ 0) = false := decide_eq_false (by omega)
      rw [notYet]
      exact ⟨state, .refl, pair⟩
  | succ rounds ih =>
      obtain ⟨middle, path, before⟩ := ih
      obtain ⟨after, round, counted, _⟩ := pair_round config first differs before
      refine ⟨after, reaches_trans path round, ?_⟩
      simpa [differs.symm, risen_succ] using counted

/-- The second one answers, not yet for as many rounds as the first needs to fall. -/
theorem second_answers {fails successes : Nat} (rises : 1 ≤ config.rise)
    (differs : first ≠ second)
    (pair : Pair first second ⟨true, 0, successes⟩ ⟨false, fails, 0⟩ state) (rounds : Nat)
    (short : rounds < config.fall) :
    ∃ after successes fails, Reaches (step config) SingleAnswer state after ∧
      Pair first second ⟨true, rounds, successes⟩
        ⟨decide (config.rise ≤ rounds), fails, rounds⟩ after := by
  induction rounds with
  | zero =>
      have notYet : decide (config.rise ≤ 0) = false := decide_eq_false (by omega)
      rw [notYet]
      exact ⟨state, successes, fails, .refl, pair⟩
  | succ rounds ih =>
      obtain ⟨middle, successes, fails, path, before⟩ := ih (Nat.lt_of_succ_lt short)
      obtain ⟨after, round, counted, _⟩ := pair_round config second differs before
      refine ⟨after, 0, 0, reaches_trans path round, ?_⟩
      have stays : decide (config.fall ≤ rounds + 1) = false :=
        decide_eq_false (Nat.not_le.mpr short)
      simpa [differs, risen_succ, stays] using counted

/-- Two backends that come with a REST API URL are registered. -/
theorem pair_start (config : HealthCheckConfig) {backend other : PgBackend}
    (url : backend.apiUrl ≠ []) (url' : other.apiUrl ≠ [])
    (differs : backend.name ≠ other.name) :
    ∃ state, Reaches (step config) SingleAnswer .new state ∧
      Pair backend.name other.name .fresh .fresh state := by
  let writing := { ProxyState.new with updater := .writing [backend, other] }
  let written := { ProxyState.new with
      upstream := ⟨[backend, other]⟩, updater := .registering [backend, other] }
  let registered :=
    { written with health := HealthState.new.registerAll [backend, other], updater := .idle }
  have first : Reaches (step config) SingleAnswer .new writing :=
    .next (.update [backend, other]) .refl trivial rfl
  have second : Reaches (step config) SingleAnswer .new written :=
    .next .writeUpstream first trivial rfl
  refine ⟨registered, .next .register second trivial rfl, rfl, BackendHealth.new backend 0,
    BackendHealth.new other 1, ?_, rfl, rfl, rfl, rfl⟩
  simp [registered, HealthState.registerAll, HealthState.retainListed, HealthState.register,
    url, url',
    Keyed.retain, Keyed.get?, Keyed.insert, Keyed.empty, HealthState.new, BackendHealth.new,
      listed, differs]

/-- With a rise that is quicker than a fall, of two backends that answer one after the other
the second is marked up while the first one is. -/
theorem two_primaries {backend other : PgBackend} (url : backend.apiUrl ≠ [])
    (url' : other.apiUrl ≠ [])
    (differs : backend.name ≠ other.name) (rises : 1 ≤ config.rise)
    (slow : config.rise < config.fall) :
    ∃ state, Reaches (step config) SingleAnswer .new state ∧ ¬ SinglePrimary state := by
  obtain ⟨registered, start, fresh⟩ := pair_start config url url' differs
  obtain ⟨risen, up, answered⟩ := first_answers rises differs fresh config.rise
  rw [decide_eq_true (Nat.le_refl config.rise)] at answered
  obtain ⟨rest, last⟩ : ∃ rest, config.rise = rest + 1 := ⟨config.rise - 1, by omega⟩
  obtain ⟨before, successes, fails, path, answered'⟩ :=
    second_answers rises differs answered rest (by omega)
  obtain ⟨after, round, counted, built⟩ := pair_round config other.name differs answered'
  have down : decide (config.rise ≤ rest) = false := decide_eq_false (by omega)
  have stays : decide (config.fall ≤ rest + 1) = false := decide_eq_false (by omega)
  have now : decide (config.rise ≤ rest + 1) = true := decide_eq_true (by omega)
  refine ⟨after, reaches_trans (reaches_trans (reaches_trans start up) path) round, ?_⟩
  have shown := built (by simp [down, now])
  obtain ⟨first, second, entries, _, _, counts, counts'⟩ := counted.entries
  intro single
  have few := single shown.1
  have healthy : first.rw.healthy = true := by simp [counts, differs, stays]
  have healthy' : second.rw.healthy = true := by simp [counts', now]
  simp [shown.2, entries, BackendHealth.toUpstream, healthy, healthy'] at few

def node (name : Str) : PgBackend where
  addr := name ++ ":5432".toList
  name := name
  isPrimary := false
  isHealthy := true
  apiUrl := "http://".toList ++ name ++ ":8008".toList

theorem two_nodes (rises : 1 ≤ config.rise) (slow : config.rise < config.fall) :
    ∃ state, Reaches (step config) SingleAnswer .new state ∧ ¬ SinglePrimary state :=
  @two_primaries config (node ['a']) (node ['b']) (by simp [node]) (by simp [node]) (by decide)
    rises slow

/-- In every run of rounds with at most one answer to `/primary`, with `update_backends` calls and
connections anywhere between: there is one primary in what the health checker builds if and only if
`fall` is at most `rise`. -/
theorem single_primary_iff (rises : 1 ≤ config.rise) :
    (∀ state, Reaches (step config) SingleAnswer .new state → SinglePrimary state ∧
      PickedAlone state) ↔
      config.fall ≤ config.rise := by
  constructor
  · intro always
    by_contra slow
    obtain ⟨state, path, two⟩ := two_nodes rises (Nat.not_le.mp slow)
    exact two (always state path).1
  · intro quick state path
    have single := single_of_quick quick path
    exact ⟨single, pickedAlone_of_single single⟩

theorem single_primary_even :
    (∀ state, Reaches (step { HealthCheckConfig.default with rise := 3 }) SingleAnswer
      .new state →
      SinglePrimary state ∧ PickedAlone state) ↔ 3 ≤ 3 :=
  @single_primary_iff { HealthCheckConfig.default with rise := 3 } (by decide)

/-- By default a backend rises in two rounds and falls in three. -/
theorem default_two_primaries :
    ¬ ∀ state, Reaches (step .default) SingleAnswer .new state → SinglePrimary state := by
  intro always
  obtain ⟨state, path, two⟩ := @two_nodes .default (by decide) (by decide)
  exact two (always state path)

end PgHa.Proxy
