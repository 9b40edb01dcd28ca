import PgHa.ConfigTiming

/-!
`/config` field by field. A patch acts on each top-level key alone: what it makes of a
field depends on that field and on what the patch says of it, and a field it does not
name comes back from its JSON as it was.
-/

namespace PgHa.ConfigFields

open Text Serde ConfigTiming

inductive Field where
  | loopWait
  | ttl
  | retryTimeout
  | maximumLagOnFailover
  | maximumLagOnSyncnode
  | synchronousMode
  | synchronousModeStrict
  | synchronousNodeCount
  | failsafeMode
  | pause
  | postgresql
  | standbyCluster
  deriving DecidableEq

def Field.Value : Field → Type
  | .loopWait | .ttl | .retryTimeout | .maximumLagOnFailover | .maximumLagOnSyncnode => Nat
  | .synchronousNodeCount => Nat
  | .synchronousMode | .synchronousModeStrict | .failsafeMode | .pause => Bool
  | .postgresql => List (Str × Str)
  | .standbyCluster => StandbyClusterConfig

/-- The key in the JSON object. -/
def Field.key : Field → String
  | .loopWait => "loop_wait"
  | .ttl => "ttl"
  | .retryTimeout => "retry_timeout"
  | .maximumLagOnFailover => "maximum_lag_on_failover"
  | .maximumLagOnSyncnode => "maximum_lag_on_syncnode"
  | .synchronousMode => "synchronous_mode"
  | .synchronousModeStrict => "synchronous_mode_strict"
  | .synchronousNodeCount => "synchronous_node_count"
  | .failsafeMode => "failsafe_mode"
  | .pause => "pause"
  | .postgresql => "postgresql"
  | .standbyCluster => "standby_cluster"

def Field.of (config : GlobalConfig) : (field : Field) → Option field.Value
  | .loopWait => config.loopWait
  | .ttl => config.ttl
  | .retryTimeout => config.retryTimeout
  | .maximumLagOnFailover => config.maximumLagOnFailover
  | .maximumLagOnSyncnode => config.maximumLagOnSyncnode
  | .synchronousMode => config.synchronousMode
  | .synchronousModeStrict => config.synchronousModeStrict
  | .synchronousNodeCount => config.synchronousNodeCount
  | .failsafeMode => config.failsafeMode
  | .pause => config.pause
  | .postgresql => config.postgresql
  | .standbyCluster => config.standbyCluster

def Field.read : (field : Field) → Json → Option field.Value
  | .loopWait | .ttl | .retryTimeout | .maximumLagOnFailover | .maximumLagOnSyncnode => Json.asU64
  | .synchronousNodeCount => asBelow (2 ^ 32)
  | .synchronousMode | .synchronousModeStrict | .failsafeMode | .pause => Json.asBool
  | .postgresql => readPostgresql
  | .standbyCluster => readStandbyCluster

def Field.write : (field : Field) → field.Value → Json
  | .loopWait | .ttl | .retryTimeout | .maximumLagOnFailover | .maximumLagOnSyncnode => .number
  | .synchronousNodeCount => .number
  | .synchronousMode | .synchronousModeStrict | .failsafeMode | .pause => .bool
  | .postgresql => parametersJson
  | .standbyCluster => standbyClusterJson

/-- The configuration with given fields. -/
def assemble (value : (field : Field) → Option field.Value) : GlobalConfig where
  loopWait := value .loopWait
  ttl := value .ttl
  retryTimeout := value .retryTimeout
  maximumLagOnFailover := value .maximumLagOnFailover
  maximumLagOnSyncnode := value .maximumLagOnSyncnode
  synchronousMode := value .synchronousMode
  synchronousModeStrict := value .synchronousModeStrict
  synchronousNodeCount := value .synchronousNodeCount
  failsafeMode := value .failsafeMode
  pause := value .pause
  postgresql := value .postgresql
  standbyCluster := value .standbyCluster

theorem of_assemble (value : (field : Field) → Option field.Value) (field : Field) :
    field.of (assemble value) = value field := by
  cases field <;> rfl

/-- The value fits the Rust type: `u32` nodes, a `u16` port. -/
def Field.Fits : (field : Field) → field.Value → Prop
  | .synchronousNodeCount, count => (show Nat from count) < 2 ^ 32
  | .standbyCluster, cluster => (show StandbyClusterConfig from cluster).port < 2 ^ 16
  | _, _ => True

def Typed (config : GlobalConfig) : Prop :=
  ∀ field : Field, ∀ value, field.of config = some value → field.Fits value

theorem typed_default : Typed .default := by
  intro field value present
  cases field <;> cases present

/-! ### Reading and writing one field -/

theorem fromJson_iff (fields : List (Str × Json)) (config : GlobalConfig) :
    GlobalConfig.fromJson (.object fields) = some config ↔
      ∀ field : Field, defaulted fields field.key (nullable field.read) none =
        some (field.of config) := by
  constructor
  · intro read field
    -- One bind of the reader after the other.
    obtain ⟨_, loopWait, read⟩ := Option.bind_eq_some_iff.mp read
    obtain ⟨_, ttl, read⟩ := Option.bind_eq_some_iff.mp read
    obtain ⟨_, retryTimeout, read⟩ := Option.bind_eq_some_iff.mp read
    obtain ⟨_, failoverLag, read⟩ := Option.bind_eq_some_iff.mp read
    obtain ⟨_, syncnodeLag, read⟩ := Option.bind_eq_some_iff.mp read
    obtain ⟨_, mode, read⟩ := Option.bind_eq_some_iff.mp read
    obtain ⟨_, strict, read⟩ := Option.bind_eq_some_iff.mp read
    obtain ⟨_, count, read⟩ := Option.bind_eq_some_iff.mp read
    obtain ⟨_, failsafe, read⟩ := Option.bind_eq_some_iff.mp read
    obtain ⟨_, pause, read⟩ := Option.bind_eq_some_iff.mp read
    obtain ⟨_, postgresql, read⟩ := Option.bind_eq_some_iff.mp read
    obtain ⟨_, standby, read⟩ := Option.bind_eq_some_iff.mp read
    cases read
    cases field with
    | loopWait => exact loopWait
    | ttl => exact ttl
    | retryTimeout => exact retryTimeout
    | maximumLagOnFailover => exact failoverLag
    | maximumLagOnSyncnode => exact syncnodeLag
    | synchronousMode => exact mode
    | synchronousModeStrict => exact strict
    | synchronousNodeCount => exact count
    | failsafeMode => exact failsafe
    | pause => exact pause
    | postgresql => exact postgresql
    | standbyCluster => exact standby
  · intro read
    refine Option.bind_eq_some_iff.mpr ⟨_, read .loopWait, ?_⟩
    refine Option.bind_eq_some_iff.mpr ⟨_, read .ttl, ?_⟩
    refine Option.bind_eq_some_iff.mpr ⟨_, read .retryTimeout, ?_⟩
    refine Option.bind_eq_some_iff.mpr ⟨_, read .maximumLagOnFailover, ?_⟩
    refine Option.bind_eq_some_iff.mpr ⟨_, read .maximumLagOnSyncnode, ?_⟩
    refine Option.bind_eq_some_iff.mpr ⟨_, read .synchronousMode, ?_⟩
    refine Option.bind_eq_some_iff.mpr ⟨_, read .synchronousModeStrict, ?_⟩
    refine Option.bind_eq_some_iff.mpr ⟨_, read .synchronousNodeCount, ?_⟩
    refine Option.bind_eq_some_iff.mpr ⟨_, read .failsafeMode, ?_⟩
    refine Option.bind_eq_some_iff.mpr ⟨_, read .pause, ?_⟩
    refine Option.bind_eq_some_iff.mpr ⟨_, read .postgresql, ?_⟩
    refine Option.bind_eq_some_iff.mpr ⟨_, read .standbyCluster, ?_⟩
    rfl

theorem key_injective {first second : Field} (same : first.key.toList = second.key.toList) :
    first = second := by
  cases first <;> cases second <;> first | rfl | exact absurd same (by decide)

/-- The order in which a configuration is written. -/
def Field.all : List Field :=
  [.loopWait, .ttl, .retryTimeout, .maximumLagOnFailover, .maximumLagOnSyncnode, .synchronousMode,
    .synchronousModeStrict, .synchronousNodeCount, .failsafeMode, .pause, .postgresql,
    .standbyCluster]

theorem mem_all (field : Field) : field ∈ Field.all := by
  cases field <;> decide

/-- The JSON fields of some of the configuration's fields. -/
def written (config : GlobalConfig) (fields : List Field) : List (Str × Json) :=
  fields.flatMap fun field => known field.key field.write (field.of config)

theorem toJson_written (config : GlobalConfig) :
    config.toJson = .object (written config Field.all) := by
  simp only [GlobalConfig.toJson, written, Field.all, List.flatMap_cons, List.flatMap_nil,
    List.append_assoc, List.append_nil]
  rfl

theorem lookup_written (config : GlobalConfig) (field : Field) (fields : List Field) :
    lookup field.key (written config fields) =
      if field ∈ fields then (field.of config).map field.write else none := by
  induction fields with
  | nil => rfl
  | cons head rest ih =>
      have split : written config (head :: rest) =
          known head.key head.write (head.of config) ++ written config rest := rfl
      rw [split, lookup_append, known, lookup_known, ih]
      by_cases here : head = field
      · subst head
        cases field.of config <;> simp
      · have apart : head.key.toList ≠ field.key.toList := fun same => here (key_injective same)
        simp [apart, Ne.symm here]

theorem lookup_toJson (config : GlobalConfig) (field : Field) :
    lookup field.key (written config Field.all) = (field.of config).map field.write := by
  rw [lookup_written, if_pos (mem_all field)]

theorem readParameters_strings (parameters : List (Str × Str)) :
    readParameters (parameters.map fun entry => (entry.1, .string entry.2)) = some parameters := by
  induction parameters with
  | nil => rfl
  | cons entry rest ih => simp [readParameters, Json.asStr, ih]

theorem readPostgresql_parameters (parameters : List (Str × Str)) :
    readPostgresql (parametersJson parameters) = some parameters := by
  cases parameters with
  | nil => rfl
  | cons entry rest => exact readParameters_strings (entry :: rest)

theorem readStrings_strings (items : List Str) : readStrings (items.map .string) = some items := by
  induction items with
  | nil => rfl
  | cons item rest ih => simp [readStrings, Json.asStr, ih]

theorem asBelow_number {bound value : Nat} (fits : value < bound) :
    asBelow bound (.number value) = some value :=
  Option.filter_some_pos (by simpa using fits)

theorem readStandbyCluster_json (config : StandbyClusterConfig) (fits : config.port < 2 ^ 16) :
    readStandbyCluster (standbyClusterJson config) = some config := by
  obtain ⟨host, port, slot, command, methods⟩ := config
  generalize written : [("host".toList, Json.string host), ("port".toList, .number port)] ++
    known "primary_slot_name" .string slot ++ known "restore_command" .string command ++
    (if methods.isEmpty then []
      else [("create_replica_methods".toList, .array (methods.map .string))])
    = fields
  have hostRead : required fields "host" Json.asStr = some host := by
    subst fields
    rfl
  have portRead : defaulted fields "port" (asBelow (2 ^ 16)) 5432 = some port := by
    subst fields
    exact asBelow_number fits
  have slotRead : defaulted fields "primary_slot_name" (nullable Json.asStr) none = some slot := by
    subst fields
    cases slot <;> cases command <;> cases methods <;> rfl
  have commandRead : defaulted fields "restore_command" (nullable Json.asStr) none =
      some command := by
    subst fields
    cases slot <;> cases command <;> cases methods <;> rfl
  have methodsRead : defaulted fields "create_replica_methods" asStrings [] = some methods := by
    subst fields
    cases methods with
    | nil => cases slot <;> cases command <;> rfl
    | cons first rest =>
        have strings := readStrings_strings (first :: rest)
        cases slot <;> cases command <;> exact strings
  have object : standbyClusterJson ⟨host, port, slot, command, methods⟩ = .object fields := by
    rw [← written]
    rfl
  simp only [object, readStandbyCluster, Json.asObject, Option.bind_eq_bind,
    Option.bind_some, hostRead,
    portRead, slotRead, commandRead, methodsRead]
  rfl

theorem read_write (field : Field) (value : field.Value) (fits : field.Fits value) :
    nullable field.read (field.write value) = some (some value) := by
  cases field with
  | loopWait | ttl | retryTimeout | maximumLagOnFailover | maximumLagOnSyncnode => rfl
  | synchronousMode | synchronousModeStrict | failsafeMode | pause => rfl
  | synchronousNodeCount => exact congrArg (Option.map some) (asBelow_number fits)
  | postgresql => exact congrArg (Option.map some) (readPostgresql_parameters value)
  | standbyCluster => exact congrArg (Option.map some) (readStandbyCluster_json value fits)

/-! ### One key of a patch -/

/-- What a patch makes of the value at a key. -/
def mergeValue (current : Option Json) : Json → Option Json
  | .null => none
  | .object patch =>
      match current with
      | some (.object fields) => some (.object (mergeFields fields patch))
      | some other => some other
      | none => some (.object (mergeFields [] patch))
  | value => some value

def mergeAt (key : String) (patch : List (Str × Json)) (current : Option Json) : Option Json :=
  patch.foldl (fun current entry =>
    if entry.1 = key.toList then mergeValue current entry.2 else current) current

theorem lookup_cons (key : String) (head : Str × Json) (rest : List (Str × Json)) :
    lookup key (head :: rest) = if head.1 = key.toList then some head.2 else lookup key rest := by
  by_cases here : head.1 = key.toList
  · simp [lookup, here]
  · simp [lookup, here]

theorem lookup_filter (key : String) (fields : List (Str × Json)) (removed : Str) :
    lookup key (fields.filter fun field => field.1 != removed) =
      if removed = key.toList then none else lookup key fields := by
  induction fields with
  | nil => simp [lookup]
  | cons head rest ih =>
      by_cases dropped : head.1 = removed
      · rw [List.filter_cons_of_neg (by simp [dropped]), ih, lookup_cons, dropped]
        split
        · rfl
        · rfl
      · rw [List.filter_cons_of_pos (by simp [dropped]), lookup_cons, lookup_cons, ih]
        by_cases found : head.1 = key.toList
        · rw [if_pos found, if_pos found, if_neg fun same => dropped (found.trans same.symm)]
        · rw [if_neg found, if_neg found]

theorem lookup_insertField (key : String) (fields : List (Str × Json)) (target : Str)
    (value : Json) :
    lookup key (insertField target value fields) =
      if target = key.toList then some value else lookup key fields := by
  rw [insertField, lookup_append, lookup_filter]
  by_cases here : target = key.toList
  · simp [here, lookup]
  · simp [here, lookup]

theorem lookup_mergeField (key : String) (fields : List (Str × Json)) (target : Str)
    (value : Json) :
    lookup key (mergeField fields target value) =
      if target = key.toList then mergeValue (lookup key fields) value else lookup key fields := by
  cases value with
  | null => rw [mergeField, lookup_filter, mergeValue]
  | bool _ | number _ | negative _ | float _ | string _ | array _ =>
      simp only [mergeField, mergeValue]
      exact lookup_insertField key fields target _
  | object patch =>
      simp only [mergeField]
      by_cases here : target = key.toList
      · subst target
        rw [if_pos rfl]
        cases found : fields.find? fun field => field.1 == key.toList with
        | none =>
            have absent : lookup key fields = none := by simp [lookup, found]
            rw [absent, lookup_insertField, if_pos rfl]
            rfl
        | some entry =>
            obtain ⟨name, current⟩ := entry
            have present : lookup key fields = some current := by simp [lookup, found]
            rw [present]
            cases current with
            | object inner =>
                rw [lookup_insertField, if_pos rfl]
                rfl
            | null | bool _ | number _ | negative _ | float _ | string _ | array _ => exact present
      · rw [if_neg here]
        split
        · rw [lookup_insertField, if_neg here]
        · rfl
        · rw [lookup_insertField, if_neg here]

theorem lookup_mergeFields (key : String) (fields patch : List (Str × Json)) :
    lookup key (mergeFields fields patch) = mergeAt key patch (lookup key fields) := by
  induction patch generalizing fields with
  | nil => rfl
  | cons entry rest ih =>
      obtain ⟨target, value⟩ := entry
      rw [mergeFields, ih, lookup_mergeField]
      rfl

/-- The entries of a body; one that is no object has none. -/
def entriesOf : Json → List (Str × Json)
  | .object patch => patch
  | _ => []

/-- The top-level keys of a body. -/
def bodyKeys (body : Json) : List Str := (entriesOf body).map Prod.fst

theorem mergeAt_unnamed {key : String} {patch : List (Str × Json)} (current : Option Json)
    (unnamed : key.toList ∉ patch.map Prod.fst) : mergeAt key patch current = current := by
  induction patch with
  | nil => rfl
  | cons entry rest ih =>
      simp only [List.map_cons, List.mem_cons, not_or] at unnamed
      rw [mergeAt, List.foldl_cons, if_neg (Ne.symm unnamed.1)]
      exact ih unnamed.2

/-- What a patch makes of a field, if it can be read back. -/
def patchField (field : Field) (patch : List (Str × Json)) (value : Option field.Value) :
    Option (Option field.Value) :=
  match mergeAt field.key patch (value.map field.write) with
  | none => some none
  | some json => nullable field.read json

theorem patchConfig_iff (config result : GlobalConfig) (patch : List (Str × Json)) :
    patchConfig config (.object patch) = some result ↔
      ∀ field : Field, patchField field patch (field.of config) = some (field.of result) := by
  have whole : patchConfig config (.object patch) =
      GlobalConfig.fromJson (.object (mergeFields (written config Field.all) patch)) := by
    simp only [patchConfig, toJson_written]
  rw [whole, fromJson_iff]
  refine forall_congr' fun field => ?_
  have read : defaulted (mergeFields (written config Field.all) patch) field.key
      (nullable field.read) none = patchField field patch (field.of config) := by
    cases merged : mergeAt field.key patch ((field.of config).map field.write) with
    | none => simp [defaulted, lookup_mergeFields, lookup_toJson, patchField, merged]
    | some json => simp [defaulted, lookup_mergeFields, lookup_toJson, patchField, merged]
  rw [read]

theorem patchField_unnamed {field : Field} {patch : List (Str × Json)} {value : Option field.Value}
    (unnamed : field.key.toList ∉ patch.map Prod.fst)
    (fits : ∀ known, value = some known → field.Fits known) :
    patchField field patch value = some value := by
  rw [patchField, mergeAt_unnamed _ unnamed]
  cases value with
  | none => rfl
  | some known => exact read_write field known (fits known rfl)

theorem asBelow_lt {bound value : Nat} {json : Json} (read : asBelow bound json = some value) :
    value < bound := by
  simpa using (Option.filter_eq_some_iff.mp read).2

theorem readStandbyCluster_port {json : Json} {config : StandbyClusterConfig}
    (read : readStandbyCluster json = some config) : config.port < 2 ^ 16 := by
  simp only [readStandbyCluster, Option.bind_eq_bind, Option.bind_eq_some_iff, Option.pure_def,
    Option.some.injEq] at read
  obtain ⟨fields, _, host, _, port, portRead, _, _, _, _, _, _, rfl⟩ := read
  simp only [defaulted] at portRead
  split at portRead
  · rw [← Option.some.inj portRead]
    exact (by decide : 5432 < 2 ^ 16)
  · exact asBelow_lt portRead

theorem read_fits (field : Field) (json : Json) (value : field.Value)
    (read : field.read json = some value) : field.Fits value := by
  cases field with
  | synchronousNodeCount => exact asBelow_lt read
  | standbyCluster => exact readStandbyCluster_port read
  | _ => trivial

theorem nullable_fits {field : Field} {json : Json} {value : field.Value}
    (read : nullable field.read json = some (some value)) : field.Fits value := by
  cases json <;>
    first
    | cases read
    | exact read_fits field _ value (by simpa [nullable] using read)

theorem fromJson_typed {json : Json} {config : GlobalConfig}
    (read : GlobalConfig.fromJson json = some config) : Typed config := by
  cases json with
  | object fields =>
      intro field value present
      have here := (fromJson_iff fields config).mp read field
      rw [present, defaulted] at here
      split at here
      · cases here
      · exact nullable_fits here
  | null | bool _ | number _ | negative _ | float _ | string _ | array _ => cases read

/-! ### Patches -/

theorem patchConfig_fields {config result : GlobalConfig} {body : Json} :
    patchConfig config body = some result ↔
      ∀ field : Field, patchField field (entriesOf body) (field.of config) =
        some (field.of result) := by
  have entries : patchConfig config body = patchConfig config (.object (entriesOf body)) := by
    cases body <;> rfl
  rw [entries, patchConfig_iff]

theorem patch_typed {config result : GlobalConfig} {body : Json}
    (patched : patchConfig config body = some result) : Typed result := by
  unfold patchConfig at patched
  split at patched
  · exact fromJson_typed patched
  · exact fromJson_typed patched

/-- A field the body does not name stays. -/
theorem patch_unnamed {config result : GlobalConfig} {body : Json} (typed : Typed config)
    (patched : patchConfig config body = some result) {field : Field}
    (unnamed : field.key.toList ∉ bodyKeys body) : field.of result = field.of config := by
  have read := patchConfig_fields.mp patched field
  rw [patchField_unnamed unnamed (typed field)] at read
  exact (Option.some.inj read).symm

/-- A body that was accepted on one configuration is accepted on every other that agrees
with it on the fields the body names, and makes the same of them. -/
theorem patch_local {config other result : GlobalConfig} {body : Json}
    (patched : patchConfig config body = some result) (typed : Typed other)
    (agree : ∀ field : Field, field.key.toList ∈ bodyKeys body →
      field.of other = field.of config) :
    ∃ result', patchConfig other body = some result' ∧
      ∀ field : Field, field.key.toList ∈ bodyKeys body →
        field.of result' = field.of result := by
  refine ⟨assemble fun field =>
    if field.key.toList ∈ bodyKeys body then field.of result else field.of other, ?_, ?_⟩
  · rw [patchConfig_fields]
    intro field
    rw [of_assemble]
    by_cases named : field.key.toList ∈ bodyKeys body
    · rw [if_pos named, agree field named]
      exact patchConfig_fields.mp patched field
    · rw [if_neg named]
      exact patchField_unnamed named (typed field)
  · intro field named
    rw [of_assemble, if_pos named]

end PgHa.ConfigFields
