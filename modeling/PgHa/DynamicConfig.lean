import Mathlib.Data.List.Dedup
import PgHa.ConfigTiming

/-!
`detect_changes` and `DynamicConfigState` of dynamic_config.rs: which PostgreSQL parameters
an update of `/config` changes, and when a restart is pending. A parameter map is a list of
which the first entry of a name counts.
-/

namespace PgHa.DynamicConfig

open Text ConfigTiming

inductive PgParamClassification where
  | needsReload
  | needsRestart
  deriving DecidableEq

def restartParams : List String :=
  ["shared_buffers", "max_connections", "max_prepared_transactions", "max_worker_processes",
    "max_wal_senders", "max_replication_slots", "wal_level", "wal_buffers",
    "max_locks_per_transaction", "max_pred_locks_per_transaction", "track_commit_timestamp",
    "shared_preload_libraries", "listen_addresses", "port", "superuser_reserved_connections",
    "unix_socket_directories", "huge_pages", "cluster_name", "bonjour", "bonjour_name", "ssl",
    "ssl_ca_file", "ssl_cert_file", "ssl_key_file", "ssl_crl_file", "password_encryption",
    "hot_standby", "max_files_per_process", "archive_mode", "restore_command", "recovery_target",
    "recovery_target_name", "recovery_target_time", "recovery_target_xid", "recovery_target_lsn",
    "recovery_target_inclusive", "recovery_target_timeline", "recovery_target_action",
    "primary_conninfo", "primary_slot_name"]

/-- `str::to_lowercase`, as far as an ASCII name can tell: beside `A` to `Z` only the Kelvin
sign has its lower case in ASCII. -/
def toLowercase (name : Str) : Str :=
  name.map fun letter => if letter = '\u212A' then 'k' else lowerChar letter

def classifyPgParam (name : Str) : PgParamClassification :=
  if restartParams.any fun param => param.toList == toLowercase name then .needsRestart
  else .needsReload

/-! ### Parameter maps -/

def getParam (params : List (Str × Str)) (name : Str) : Option Str :=
  (params.find? fun entry => entry.1 == name).map Prod.snd

def paramNames (params : List (Str × Str)) : List Str := (params.map Prod.fst).dedup

def insertParam (params : List (Str × Str)) (name value : Str) : List (Str × Str) :=
  params.filter (fun entry => entry.1 != name) ++ [(name, value)]

def paramsOf (config : GlobalConfig) : List (Str × Str) := config.postgresql.getD []

/-! ### Changes -/

structure ConfigChanges where
  haParamsChanged : Bool
  pgReloadParams : List (Str × Str)
  pgRestartParams : List (Str × Str)
  pgRemovedParams : List Str

def ConfigChanges.hasChanges (changes : ConfigChanges) : Bool :=
  changes.haParamsChanged || !changes.pgReloadParams.isEmpty || !changes.pgRestartParams.isEmpty ||
    !changes.pgRemovedParams.isEmpty

def ConfigChanges.needsRestart (changes : ConfigChanges) : Bool := !changes.pgRestartParams.isEmpty

def ConfigChanges.needsReload (changes : ConfigChanges) : Bool :=
  !changes.pgReloadParams.isEmpty || !changes.pgRemovedParams.isEmpty

/-- One turn of the loop over the new parameters. -/
def recordParam (oldParams newParams : List (Str × Str)) (changes : ConfigChanges) (name : Str) :
    ConfigChanges :=
  match getParam newParams name with
  | none => changes
  | some newVal =>
      let changed := match getParam oldParams name with
        | some oldVal => oldVal != newVal
        | none => true
      if changed then
        match classifyPgParam name with
        | .needsReload =>
            { changes with pgReloadParams := insertParam changes.pgReloadParams name newVal }
        | .needsRestart =>
            { changes with pgRestartParams := insertParam changes.pgRestartParams name newVal }
      else changes

def detectChanges (old new : GlobalConfig) : ConfigChanges :=
  let changes : ConfigChanges := ⟨haParamsChanged old new, [], [], []⟩
  let changes := (paramNames (paramsOf new)).foldl
      (recordParam (paramsOf old) (paramsOf new)) changes
  { changes with
    pgRemovedParams := (paramNames (paramsOf old)).filter fun name =>
      (getParam (paramsOf new) name).isNone }

/-! ### The state -/

structure DynamicConfigState where
  lastConfig : GlobalConfig
  pendingRestart : Bool
  pendingRestartParams : List (Str × Str)

def DynamicConfigState.new : DynamicConfigState := ⟨.default, false, []⟩

def DynamicConfigState.applyNewConfig (state : DynamicConfigState) (newConfig : GlobalConfig) :
    DynamicConfigState × ConfigChanges :=
  let changes := detectChanges state.lastConfig newConfig
  let state :=
    if changes.hasChanges && changes.needsRestart then
      { state with
        pendingRestart := true
        pendingRestartParams := changes.pgRestartParams.foldl
          (fun params entry => insertParam params entry.1 entry.2) state.pendingRestartParams }
    else state
  ({ state with lastConfig := newConfig }, changes)

def DynamicConfigState.clearPendingRestart (state : DynamicConfigState) : DynamicConfigState :=
  { state with pendingRestart := false, pendingRestartParams := [] }

/-- The state after a sequence of configurations. -/
def applyAll (state : DynamicConfigState) : List GlobalConfig → DynamicConfigState
  | [] => state
  | config :: rest => applyAll (state.applyNewConfig config).1 rest

/-- The calls of a sequence: the state before each, and the configuration it is given. -/
def calls (state : DynamicConfigState) :
    List GlobalConfig → List (DynamicConfigState × GlobalConfig)
  | [] => []
  | config :: rest => (state, config) :: calls (state.applyNewConfig config).1 rest

/-! ### What a step changes -/

/-- A parameter is added or gets another value. -/
def Assigned (old new : GlobalConfig) (name : Str) : Prop :=
  getParam (paramsOf new) name ≠ none ∧
    getParam (paramsOf old) name ≠ getParam (paramsOf new) name

def Removed (old new : GlobalConfig) (name : Str) : Prop :=
  getParam (paramsOf old) name ≠ none ∧ getParam (paramsOf new) name = none

instance (old new : GlobalConfig) (name : Str) : Decidable (Removed old new name) :=
  inferInstanceAs (Decidable (_ ∧ _))

/-- A parameter is added, gets another value or is removed. -/
def Changed (old new : GlobalConfig) (name : Str) : Prop :=
  Assigned old new name ∨ Removed old new name

theorem mem_paramNames (params : List (Str × Str)) (name : Str) :
    name ∈ paramNames params ↔ getParam params name ≠ none := by
  rw [paramNames, List.mem_dedup, getParam, Ne, Option.map_eq_none_iff, List.find?_eq_none]
  constructor
  · intro mem none
    obtain ⟨entry, inside, rfl⟩ := List.mem_map.mp mem
    exact none entry inside (beq_self_eq_true _)
  · intro some
    by_contra outside
    exact some fun entry inside same =>
      outside (List.mem_map.mpr ⟨entry, inside, beq_iff_eq.mp same⟩)

theorem insertParam_ne_nil (params : List (Str × Str)) (name value : Str) :
    insertParam params name value ≠ [] := by
  simp [insertParam]

/-- What the loop does to the parameters of one class. -/
theorem recordParam_records (old new : GlobalConfig) (changes : ConfigChanges) (name : Str) :
    ((recordParam (paramsOf old) (paramsOf new) changes name).pgReloadParams ≠ [] ↔
        changes.pgReloadParams ≠ [] ∨ classifyPgParam name = .needsReload ∧
          Assigned old new name) ∧
      ((recordParam (paramsOf old) (paramsOf new) changes name).pgRestartParams ≠ [] ↔
        changes.pgRestartParams ≠ [] ∨ classifyPgParam name = .needsRestart ∧
          Assigned old new name) := by
  unfold recordParam Assigned
  cases newVal : getParam (paramsOf new) name with
  | none => simp
  | some value =>
      cases classified : classifyPgParam name with
      | needsReload =>
          cases oldVal : getParam (paramsOf old) name with
          | none => simp [insertParam_ne_nil]
          | some before => by_cases same : before = value <;> simp [same, insertParam_ne_nil]
      | needsRestart =>
          cases oldVal : getParam (paramsOf old) name with
          | none => simp [insertParam_ne_nil]
          | some before => by_cases same : before = value <;> simp [same, insertParam_ne_nil]

theorem recordAll_records (old new : GlobalConfig) (names : List Str) (changes : ConfigChanges) :
    let after := names.foldl (recordParam (paramsOf old) (paramsOf new)) changes
    (after.pgReloadParams ≠ [] ↔ changes.pgReloadParams ≠ [] ∨
        ∃ name ∈ names, classifyPgParam name = .needsReload ∧ Assigned old new name) ∧
      (after.pgRestartParams ≠ [] ↔ changes.pgRestartParams ≠ [] ∨
        ∃ name ∈ names, classifyPgParam name = .needsRestart ∧ Assigned old new name) := by
  induction names generalizing changes with
  | nil => simp
  | cons name rest ih =>
      have first := recordParam_records old new changes name
      have others := ih (recordParam (paramsOf old) (paramsOf new) changes name)
      simp only [List.foldl_cons, List.mem_cons, exists_eq_or_imp] at others ⊢
      rw [others.1, others.2, first.1, first.2, or_assoc, or_assoc]
      exact ⟨Iff.rfl, Iff.rfl⟩

theorem needsRestart_iff (old new : GlobalConfig) :
    (detectChanges old new).needsRestart = true ↔
      ∃ name, classifyPgParam name = .needsRestart ∧ Assigned old new name := by
  have recorded := (recordAll_records old new (paramNames (paramsOf new))
    ⟨haParamsChanged old new, [], [], []⟩).2
  simp only [ne_eq, not_true_eq_false, false_or] at recorded
  rw [ConfigChanges.needsRestart, detectChanges, Bool.not_eq_true',
    List.isEmpty_eq_false_iff, ne_eq,
    recorded]
  constructor
  · rintro ⟨name, _, restart, assigned⟩
    exact ⟨name, restart, assigned⟩
  · rintro ⟨name, restart, assigned⟩
    exact ⟨name, (mem_paramNames _ _).mpr assigned.1, restart, assigned⟩

theorem needsReload_iff (old new : GlobalConfig) :
    (detectChanges old new).needsReload = true ↔
      (∃ name, classifyPgParam name = .needsReload ∧ Assigned old new name) ∨
        ∃ name, Removed old new name := by
  have recorded := (recordAll_records old new (paramNames (paramsOf new))
    ⟨haParamsChanged old new, [], [], []⟩).1
  simp only [ne_eq, not_true_eq_false, false_or] at recorded
  rw [ConfigChanges.needsReload, detectChanges, Bool.or_eq_true, Bool.not_eq_true',
    Bool.not_eq_true',
    List.isEmpty_eq_false_iff, List.isEmpty_eq_false_iff, ne_eq, recorded]
  refine or_congr ?_ ?_
  · constructor
    · rintro ⟨name, _, reload, assigned⟩
      exact ⟨name, reload, assigned⟩
    · rintro ⟨name, reload, assigned⟩
      exact ⟨name, (mem_paramNames _ _).mpr assigned.1, reload, assigned⟩
  · rw [ne_eq, List.filter_eq_nil_iff]
    simp [mem_paramNames, Removed]

/-! ### Sequences of configurations -/

theorem hasChanges_of_needsRestart {changes : ConfigChanges}
    (restart : changes.needsRestart = true) :
    changes.hasChanges = true := by
  rw [ConfigChanges.needsRestart] at restart
  simp [ConfigChanges.hasChanges, restart]

theorem pendingRestart_applyNewConfig (state : DynamicConfigState) (config : GlobalConfig) :
    (state.applyNewConfig config).1.pendingRestart = true ↔ state.pendingRestart = true ∨
      ∃ name, classifyPgParam name = .needsRestart ∧ Assigned state.lastConfig config name := by
  rw [← needsRestart_iff]
  unfold DynamicConfigState.applyNewConfig
  cases restart : (detectChanges state.lastConfig config).needsRestart with
  | true => simp [hasChanges_of_needsRestart restart, restart]
  | false => simp [restart]

/-- Once set the flag stays, so it tells whether any call has set it. -/
theorem pendingRestart_applyAll (state : DynamicConfigState) (configs : List GlobalConfig) :
    (applyAll state configs).pendingRestart = true ↔ state.pendingRestart = true ∨
      ∃ call ∈ calls state configs, ∃ name, classifyPgParam name = .needsRestart ∧
        Assigned call.1.lastConfig call.2 name := by
  induction configs generalizing state with
  | nil => simp [applyAll, calls]
  | cons config rest ih =>
      rw [applyAll, calls, ih, pendingRestart_applyNewConfig, or_assoc]
      simp only [List.mem_cons, exists_eq_or_imp]

/-- Of the calls of a sequence: one that removes a parameter that needs a restart also
changes one that needs a reload, and the sequence gives some such parameter a value. -/
structure RemovalsCovered (state : DynamicConfigState) (configs : List GlobalConfig) : Prop where
  assigns : ∀ call ∈ calls state configs, ∀ name, classifyPgParam name = .needsRestart →
    Removed call.1.lastConfig call.2 name →
    ∃ other ∈ calls state configs, ∃ param, classifyPgParam param = .needsRestart ∧
      Assigned other.1.lastConfig other.2 param
  reloads : ∀ call ∈ calls state configs, ∀ name, classifyPgParam name = .needsRestart →
    Removed call.1.lastConfig call.2 name →
    ∃ param, classifyPgParam param = .needsReload ∧ Changed call.1.lastConfig call.2 param

/-- What the flag and the reload are to tell of a sequence of configurations. -/
structure PendingExact (state : DynamicConfigState) (configs : List GlobalConfig) : Prop where
  pending : (applyAll state configs).pendingRestart = true ↔
    ∃ call ∈ calls state configs, ∃ name, classifyPgParam name = .needsRestart ∧
      Changed call.1.lastConfig call.2 name
  reload : ∀ call ∈ calls state configs,
    (∀ name, Changed call.1.lastConfig call.2 name → classifyPgParam name = .needsRestart) →
    (call.1.applyNewConfig call.2).2.needsReload = false

theorem classify_reload {name : Str} (other : classifyPgParam name ≠ .needsRestart) :
    classifyPgParam name = .needsReload := by
  cases classified : classifyPgParam name with
  | needsReload => rfl
  | needsRestart => exact absurd classified other

/-- A call asks for no reload though it changes parameters that need a restart only, exactly
if it removes none of them. -/
theorem needsReload_only_restart (old new : GlobalConfig)
    (only : ∀ name, Changed old new name → classifyPgParam name = .needsRestart) :
    (detectChanges old new).needsReload = false ↔ ∀ name, ¬Removed old new name := by
  rw [← Bool.not_eq_true, needsReload_iff, not_or]
  constructor
  · rintro ⟨_, none⟩ name removed
    exact none ⟨name, removed⟩
  · intro none
    constructor
    · rintro ⟨name, reload, assigned⟩
      rw [only name (.inl assigned)] at reload
      cases reload
    · rintro ⟨name, removed⟩
      exact none name removed

theorem pendingExact_iff_removalsCovered (state : DynamicConfigState)
    (configs : List GlobalConfig) :
    PendingExact state.clearPendingRestart configs ↔
      RemovalsCovered state.clearPendingRestart configs := by
  have flag := pendingRestart_applyAll state.clearPendingRestart configs
  have clear : ¬state.clearPendingRestart.pendingRestart = true := Bool.false_ne_true
  rw [or_iff_right clear] at flag
  constructor
  · intro exact
    constructor
    · intro call mem name restart removed
      exact flag.mp (exact.pending.mpr ⟨call, mem, name, restart, .inr removed⟩)
    · intro call mem name restart removed
      by_contra none
      have only : ∀ param, Changed call.1.lastConfig call.2 param →
          classifyPgParam param = .needsRestart := by
        intro param changed
        by_contra other
        exact none ⟨param, classify_reload other, changed⟩
      exact (needsReload_only_restart _ _ only).mp (exact.reload call mem only) name removed
  · intro covered
    constructor
    · rw [flag]
      constructor
      · rintro ⟨call, mem, name, restart, assigned⟩
        exact ⟨call, mem, name, restart, .inl assigned⟩
      · rintro ⟨call, mem, name, restart, assigned | removed⟩
        · exact ⟨call, mem, name, restart, assigned⟩
        · exact covered.assigns call mem name restart removed
    · intro call mem only
      refine (needsReload_only_restart _ _ only).mpr ?_
      intro name removed
      obtain ⟨param, reload, changed⟩ :=
        covered.reloads call mem name (only name (.inr removed)) removed
      rw [only param changed] at reload
      cases reload

/-- A configuration that raises `max_connections`. -/
def connectionsConfig : GlobalConfig :=
  { GlobalConfig.default with postgresql := some [("max_connections".toList, "200".toList)] }

/-- Taking `max_connections` out again asks for a reload and leaves no restart pending. -/
theorem removed_restart_param_unnoticed :
    let state : DynamicConfigState := (DynamicConfigState.new.applyNewConfig connectionsConfig).1
    classifyPgParam "max_connections".toList = .needsRestart ∧
      Removed state.lastConfig .default "max_connections".toList ∧
      (∀ name, Changed state.lastConfig .default name → name = "max_connections".toList) ∧
      (applyAll state.clearPendingRestart [.default]).pendingRestart = false ∧
      (state.clearPendingRestart.applyNewConfig .default).2.needsReload = true ∧
      ¬PendingExact state.clearPendingRestart [.default] := by
  have restart : classifyPgParam "max_connections".toList = .needsRestart := by decide
  have removed : Removed connectionsConfig .default "max_connections".toList := by decide
  refine ⟨restart, removed, ?_, by decide, by decide, ?_⟩
  · rintro name (⟨present, _⟩ | ⟨present, _⟩)
    · exact absurd rfl present
    · have named : name ∈ ["max_connections".toList] := (mem_paramNames _ _).mpr present
      exact List.mem_singleton.mp named
  · intro exact
    have pending := exact.pending.mpr ⟨_, List.mem_singleton_self _, _, restart, .inr removed⟩
    revert pending
    decide

end PgHa.DynamicConfig
