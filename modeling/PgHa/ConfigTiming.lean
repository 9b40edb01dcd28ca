import PgHa.LatestTimeline
import PgHa.Serde
import PgHa.Transition

/-!
The lease timing under updates of `/config` (`pg-ha-core/src/dynamic_config.rs`,
`pg-ha-api/src/routes/config.rs`, `process_dynamic_config` of `ha/mod.rs`). An update is
checked with its missing fields taken from the static configuration; a running node
takes over only the fields that are there. A configuration that was written parses back
to itself.
-/

namespace PgHa.ConfigTiming

open Text Serde Transition
open LatestTimeline (decimal)

structure StandbyClusterConfig where
  host : Str
  port : Nat
  primarySlotName : Option Str
  restoreCommand : Option Str
  createReplicaMethods : List Str
  deriving DecidableEq

/-- The `/config` key. -/
structure GlobalConfig where
  loopWait : Option Nat
  ttl : Option Nat
  retryTimeout : Option Nat
  maximumLagOnFailover : Option Nat
  maximumLagOnSyncnode : Option Nat
  synchronousMode : Option Bool
  synchronousModeStrict : Option Bool
  synchronousNodeCount : Option Nat
  failsafeMode : Option Bool
  pause : Option Bool
  postgresql : Option (List (Str × Str))
  standbyCluster : Option StandbyClusterConfig
  deriving DecidableEq

def GlobalConfig.default : GlobalConfig :=
  ⟨none, none, none, none, none, none, none, none, none, none, none, none⟩

structure LeaseTiming where
  ttl : Nat
  loopWait : Nat
  retryTimeout : Nat
  safetyMargin : Nat
  deriving DecidableEq

def saturatingAdd (first second : Nat) : Nat := min (first + second) (2 ^ 64 - 1)

/-- Why these values are not allowed. -/
def LeaseTiming.violation (timing : LeaseTiming) : Option Str :=
  if timing.retryTimeout = 0 then some "retry_timeout must be at least 1 second".toList
  else
    let required :=
      saturatingAdd (saturatingAdd timing.loopWait timing.retryTimeout) timing.safetyMargin
    if timing.ttl < required then
      some ("ttl (".toList ++ decimal timing.ttl ++ ") must be >= loop_wait (".toList ++
        decimal timing.loopWait ++ ") + retry_timeout (".toList ++ decimal timing.retryTimeout ++
        ") + watchdog.safety_margin (".toList ++ decimal timing.safetyMargin ++ ") = ".toList ++
        decimal required ++
        (": a primary that cannot renew the leader lock stops PostgreSQL ttl - safety_margin " ++
          "seconds after its last renewal began, and one HA cycle plus one DCS write must fit " ++
          "in that time").toList)
    else none

/-- The timing of a configuration over a node's static values. -/
def GlobalConfig.leaseTiming (config : GlobalConfig) (base : LeaseTiming) : LeaseTiming :=
  { ttl := config.ttl.getD base.ttl
    loopWait := config.loopWait.getD base.loopWait
    retryTimeout := config.retryTimeout.getD base.retryTimeout
    safetyMargin := base.safetyMargin }

/-- An update that leaves the three fields as they are is not checked. -/
def checkLeaseTimingChange (current new : GlobalConfig) (base : LeaseTiming) :
    Except Str Unit :=
  if current.ttl = new.ttl ∧ current.loopWait = new.loopWait ∧
      current.retryTimeout = new.retryTimeout then
    .ok ()
  else match (new.leaseTiming base).violation with
    | some problem => .error problem
    | none => .ok ()

/-! ### Bodies of requests -/

def readStrings : List Json → Option (List Str)
  | [] => some []
  | item :: rest => do
      let first ← item.asStr
      let others ← readStrings rest
      pure (first :: others)

def asStrings : Json → Option (List Str)
  | .array items => readStrings items
  | _ => none

def readParameters : List (Str × Json) → Option (List (Str × Str))
  | [] => some []
  | (name, value) :: rest => do
      let text ← value.asStr
      let others ← readParameters rest
      pure ((name, text) :: others)

def readPostgresql (json : Json) : Option (List (Str × Str)) := do
  let fields ← json.asObject
  let parameters ← defaulted fields "parameters" Json.asObject []
  readParameters parameters

def asBelow (bound : Nat) (json : Json) : Option Nat := json.asU64.filter (· < bound)

def readStandbyCluster (json : Json) : Option StandbyClusterConfig := do
  let fields ← json.asObject
  let host ← required fields "host" Json.asStr
  let port ← defaulted fields "port" (asBelow (2 ^ 16)) 5432
  let primarySlotName ← defaulted fields "primary_slot_name" (nullable Json.asStr) none
  let restoreCommand ← defaulted fields "restore_command" (nullable Json.asStr) none
  let createReplicaMethods ← defaulted fields "create_replica_methods" asStrings []
  pure ⟨host, port, primarySlotName, restoreCommand, createReplicaMethods⟩

/-- `serde_json::from_value::<GlobalConfig>`. -/
def GlobalConfig.fromJson (json : Json) : Option GlobalConfig := do
  let fields ← json.asObject
  let loopWait ← defaulted fields "loop_wait" (nullable Json.asU64) none
  let ttl ← defaulted fields "ttl" (nullable Json.asU64) none
  let retryTimeout ← defaulted fields "retry_timeout" (nullable Json.asU64) none
  let maximumLagOnFailover ← defaulted fields "maximum_lag_on_failover" (nullable Json.asU64) none
  let maximumLagOnSyncnode ← defaulted fields "maximum_lag_on_syncnode" (nullable Json.asU64) none
  let synchronousMode ← defaulted fields "synchronous_mode" (nullable Json.asBool) none
  let synchronousModeStrict ← defaulted fields "synchronous_mode_strict"
      (nullable Json.asBool) none
  let synchronousNodeCount ←
    defaulted fields "synchronous_node_count" (nullable (asBelow (2 ^ 32))) none
  let failsafeMode ← defaulted fields "failsafe_mode" (nullable Json.asBool) none
  let pause ← defaulted fields "pause" (nullable Json.asBool) none
  let postgresql ← defaulted fields "postgresql" (nullable readPostgresql) none
  let standbyCluster ← defaulted fields "standby_cluster" (nullable readStandbyCluster) none
  pure ⟨loopWait, ttl, retryTimeout, maximumLagOnFailover, maximumLagOnSyncnode, synchronousMode,
    synchronousModeStrict, synchronousNodeCount, failsafeMode, pause, postgresql, standbyCluster⟩

/-- A field with `skip_serializing_if`. -/
def known {Value : Type} (key : String) (write : Value → Json) (field : Option Value) :
    List (Str × Json) :=
  field.toList.map fun value => (key.toList, write value)

def parametersJson (parameters : List (Str × Str)) : Json :=
  .object (if parameters.isEmpty then []
    else [("parameters".toList, .object (parameters.map fun entry => (entry.1, .string entry.2)))])

def standbyClusterJson (config : StandbyClusterConfig) : Json :=
  .object ([("host".toList, .string config.host), ("port".toList, .number config.port)] ++
    known "primary_slot_name" .string config.primarySlotName ++
    known "restore_command" .string config.restoreCommand ++
    (if config.createReplicaMethods.isEmpty then []
      else [("create_replica_methods".toList, .array (config.createReplicaMethods.map .string))]))

def GlobalConfig.toJson (config : GlobalConfig) : Json :=
  .object (known "loop_wait" .number config.loopWait ++ known "ttl" .number config.ttl ++
    known "retry_timeout" .number config.retryTimeout ++
    known "maximum_lag_on_failover" .number config.maximumLagOnFailover ++
    known "maximum_lag_on_syncnode" .number config.maximumLagOnSyncnode ++
    known "synchronous_mode" .bool config.synchronousMode ++
    known "synchronous_mode_strict" .bool config.synchronousModeStrict ++
    known "synchronous_node_count" .number config.synchronousNodeCount ++
    known "failsafe_mode" .bool config.failsafeMode ++ known "pause" .bool config.pause ++
    known "postgresql" parametersJson config.postgresql ++
    known "standby_cluster" standbyClusterJson config.standbyCluster)

def insertField (key : Str) (value : Json) (fields : List (Str × Json)) : List (Str × Json) :=
  fields.filter (fun field => field.1 != key) ++ [(key, value)]

mutual

/-- `merge_json_patch` on the fields of two objects. -/
def mergeFields (base : List (Str × Json)) : List (Str × Json) → List (Str × Json)
  | [] => base
  | (key, value) :: rest => mergeFields (mergeField base key value) rest

def mergeField (base : List (Str × Json)) (key : Str) : Json → List (Str × Json)
  | .null => base.filter fun field => field.1 != key
  | .object patch =>
      match base.find? fun field => field.1 == key with
      | some (_, .object fields) => insertField key (.object (mergeFields fields patch)) base
      | some _ => base
      | none => insertField key (.object (mergeFields [] patch)) base
  | value => insertField key value base

end

def patchConfig (base : GlobalConfig) (patch : Json) : Option GlobalConfig :=
  match base.toJson, patch with
  | .object fields, .object patch => GlobalConfig.fromJson (.object (mergeFields fields patch))
  | json, _ => GlobalConfig.fromJson json

/-! ### Nodes -/

/-- What a running node uses: `config.ttl`, `loop_wait` and `retry_timeout`, the lock TTL
and the write timeout of its DCS adapter, and the last configuration it has read. -/
structure RunningNode where
  ttl : Nat
  loopWait : Nat
  retryTimeout : Nat
  lockTtl : Nat
  writeTimeout : Nat
  lastConfig : GlobalConfig

def RunningNode.timing (node : RunningNode) (safetyMargin : Nat) : LeaseTiming :=
  ⟨node.ttl, node.loopWait, node.retryTimeout, safetyMargin⟩

/-- A node that has just started with its static configuration. -/
def RunningNode.started (base : LeaseTiming) : RunningNode :=
  ⟨base.ttl, base.loopWait, base.retryTimeout, base.ttl, max base.retryTimeout 1, .default⟩

/-- `ha_params_changed` of `detect_changes`. -/
def haParamsChanged (old new : GlobalConfig) : Bool :=
  old.loopWait != new.loopWait || old.ttl != new.ttl || old.retryTimeout != new.retryTimeout ||
    old.maximumLagOnFailover != new.maximumLagOnFailover ||
    old.maximumLagOnSyncnode != new.maximumLagOnSyncnode ||
    old.synchronousMode != new.synchronousMode ||
    old.synchronousModeStrict != new.synchronousModeStrict ||
    old.synchronousNodeCount != new.synchronousNodeCount || old.pause != new.pause ||
    old.standbyCluster != new.standbyCluster

/-- `set_lock_timing` of the DCS adapter. -/
def RunningNode.setLockTiming (node : RunningNode) (ttl retryTimeout : Nat) : RunningNode :=
  { node with lockTtl := max ttl 1, writeTimeout := max retryTimeout 1 }

/-- `process_dynamic_config`, as far as the timing goes: a field that is missing is not
touched. -/
def processDynamicConfig (node : RunningNode) (new : GlobalConfig) : RunningNode :=
  let changed := haParamsChanged node.lastConfig new
  let node := { node with lastConfig := new }
  if changed then
    let node :=
      { node with
        loopWait := new.loopWait.getD node.loopWait
        ttl := new.ttl.getD node.ttl
        retryTimeout := new.retryTimeout.getD node.retryTimeout }
    node.setLockTiming node.ttl node.retryTimeout
  else node

/-! ### Histories -/

/-- `accepted` are the updates that were checked and are about to be written. -/
structure World where
  config : Option GlobalConfig
  accepted : List GlobalConfig
  nodes : Nat → RunningNode

inductive Act where
  | put (body : Json)
  | patch (body : Json)
  | write (position : Nat)
  | consume (node : Nat)
  | restart (node : Nat)

def World.current (world : World) : GlobalConfig := world.config.getD .default

def World.setNode (world : World) (node : Nat) (value : RunningNode) : World :=
  { world with nodes := fun other => if other = node then value else world.nodes other }

/-- `put_config` and `patch_config_endpoint` after the body was read: `reject_lease_timing`. -/
def World.accept (base : LeaseTiming) (world : World) (new : GlobalConfig) : Option World :=
  match checkLeaseTimingChange world.current new base with
  | .ok () => some { world with accepted := new :: world.accepted }
  | .error _ => none

def step (base : LeaseTiming) (world : World) : Act → Option World
  | .put body => (GlobalConfig.fromJson body).bind (world.accept base)
  | .patch body => (patchConfig world.current body).bind (world.accept base)
  | .write position =>
      (world.accepted[position]?).map fun new =>
        { world with config := some new, accepted := world.accepted.eraseIdx position }
  | .consume node =>
      world.config.map fun config =>
        world.setNode node (processDynamicConfig (world.nodes node) config)
  | .restart node => some (world.setNode node (.started base))

def World.start (base : LeaseTiming) : World := ⟨none, [], fun _ => .started base⟩

/-- Every node that has read the current configuration uses the timing it gives over the
static values, with a lock TTL to match; the timing is allowed, and a node that restarts
and reads the configuration uses the same. -/
def Aligned (base : LeaseTiming) (world : World) : Prop :=
  ∀ node, (world.nodes node).lastConfig = world.current →
    (world.nodes node).timing base.safetyMargin = world.current.leaseTiming base ∧
      (world.nodes node).lockTtl = (world.current.leaseTiming base).ttl ∧
      ((world.nodes node).timing base.safetyMargin).violation = none ∧
      ∀ config, world.config = some config →
        (processDynamicConfig (.started base) config).timing base.safetyMargin =
          (world.nodes node).timing base.safetyMargin

/-- A field that is missing was not set before, or to its static value. -/
def Keeps (last new : Option Nat) (static : Nat) : Prop := new = none → last.getD static = static

/-- What a node reads omits no timing field that its last configuration had changed. -/
def Meets (base : LeaseTiming) (world : World) : Act → Prop
  | .consume node =>
      let last := (world.nodes node).lastConfig
      Keeps last.ttl world.current.ttl base.ttl ∧
        Keeps last.loopWait world.current.loopWait base.loopWait ∧
        Keeps last.retryTimeout world.current.retryTimeout base.retryTimeout
  | .put _ | .patch _ | .write _ | .restart _ => True

/-! ### Every history -/

/-- The node uses the timing of the configuration it has read. -/
structure Uses (base : LeaseTiming) (node : RunningNode) : Prop where
  timing : node.timing base.safetyMargin = node.lastConfig.leaseTiming base
  lockTtl : node.lockTtl = max node.ttl 1

theorem unchanged_timing {old new : GlobalConfig} (same : haParamsChanged old new = false)
    (base : LeaseTiming) : old.leaseTiming base = new.leaseTiming base := by
  simp only [haParamsChanged, Bool.or_eq_false_iff, bne_eq_false_iff_eq] at same
  obtain ⟨⟨⟨⟨⟨⟨⟨⟨⟨loopWait, ttl⟩, retryTimeout⟩, -⟩, -⟩, -⟩, -⟩, -⟩,
      -⟩, -⟩ := same
  simp only [GlobalConfig.leaseTiming, loopWait, ttl, retryTimeout]

/-- A field after a configuration was read. -/
theorem taken_over {last new : Option Nat} {static running : Nat} (keeps : Keeps last new static)
    (uses : running = last.getD static) : new.getD running = new.getD static := by
  cases new with
  | some value => rfl
  | none => exact uses.trans (keeps rfl)

theorem processDynamicConfig_uses {base : LeaseTiming} {node : RunningNode} {new : GlobalConfig}
    (uses : Uses base node) (keepsTtl : Keeps node.lastConfig.ttl new.ttl base.ttl)
    (keepsLoopWait : Keeps node.lastConfig.loopWait new.loopWait base.loopWait)
    (keepsRetryTimeout : Keeps node.lastConfig.retryTimeout new.retryTimeout base.retryTimeout) :
    Uses base (processDynamicConfig node new) := by
  have parts := uses.timing
  simp only [RunningNode.timing, GlobalConfig.leaseTiming, LeaseTiming.mk.injEq, and_true] at parts
  obtain ⟨ttl, loopWait, retryTimeout⟩ := parts
  unfold processDynamicConfig
  cases changed : haParamsChanged node.lastConfig new with
  | true =>
      refine ⟨?_, rfl⟩
      simp only [if_true, RunningNode.timing, RunningNode.setLockTiming, GlobalConfig.leaseTiming,
        taken_over keepsTtl ttl, taken_over keepsLoopWait loopWait,
        taken_over keepsRetryTimeout retryTimeout]
  | false => exact ⟨uses.timing.trans (unchanged_timing changed base), uses.lockTtl⟩

/-- An allowed timing has a TTL of at least one second. -/
theorem allowed_positive {timing : LeaseTiming} (allowed : timing.violation = none) :
    1 ≤ timing.ttl := by
  unfold LeaseTiming.violation at allowed
  split at allowed
  · cases allowed
  · rename_i positive
    simp only at allowed
    split at allowed
    · cases allowed
    · rename_i enough
      simp only [saturatingAdd] at enough
      omega

theorem started_uses {base : LeaseTiming} (valid : base.violation = none) :
    Uses base (.started base) :=
  ⟨rfl, (Nat.max_eq_left (allowed_positive valid)).symm⟩

/-- A node that has just started has nothing to keep. -/
theorem started_processes {base : LeaseTiming} (valid : base.violation = none)
    (new : GlobalConfig) : Uses base (processDynamicConfig (.started base) new) :=
  processDynamicConfig_uses (started_uses valid) (fun _ => rfl) (fun _ => rfl) (fun _ => rfl)

theorem processDynamicConfig_reads (node : RunningNode) (new : GlobalConfig) :
    (processDynamicConfig node new).lastConfig = new := by
  unfold processDynamicConfig
  cases haParamsChanged node.lastConfig new with
  | true => rfl
  | false => rfl

structure Sound (base : LeaseTiming) (world : World) : Prop where
  static : base.violation = none
  config : (world.current.leaseTiming base).violation = none
  accepted : ∀ new ∈ world.accepted, (new.leaseTiming base).violation = none
  nodes : ∀ node, Uses base (world.nodes node)

/-- What passes the check is allowed, if what is in place is. -/
theorem check_allowed {current new : GlobalConfig} {base : LeaseTiming}
    (allowed : (current.leaseTiming base).violation = none)
    (checked : checkLeaseTimingChange current new base = .ok ()) :
    (new.leaseTiming base).violation = none := by
  unfold checkLeaseTimingChange at checked
  split at checked
  · rename_i same
    have timing : new.leaseTiming base = current.leaseTiming base := by
      simp only [GlobalConfig.leaseTiming, same.1, same.2.1, same.2.2]
    rw [timing]
    exact allowed
  · split at checked
    · cases checked
    · rename_i none
      exact none

theorem sound_accept {base : LeaseTiming} {world after : World} {new : GlobalConfig}
    (sound : Sound base world) (accepts : world.accept base new = some after) :
    Sound base after := by
  unfold World.accept at accepts
  split at accepts
  · rename_i checked
    cases accepts
    refine ⟨sound.static, sound.config, fun other member => ?_, sound.nodes⟩
    rcases List.mem_cons.mp member with rfl | earlier
    · exact check_allowed sound.config checked
    · exact sound.accepted other earlier
  · cases accepts

theorem sound_setNode {base : LeaseTiming} {world : World} (sound : Sound base world) (node : Nat)
    {value : RunningNode} (uses : Uses base value) : Sound base (world.setNode node value) := by
  refine ⟨sound.static, sound.config, sound.accepted, fun other => ?_⟩
  by_cases here : other = node
  · simp only [World.setNode, here, if_true]
    exact uses
  · simp only [World.setNode, here, if_false]
    exact sound.nodes other

theorem sound_step {base : LeaseTiming} {world after : World} (sound : Sound base world) (act : Act)
    (meets : Meets base world act) (stepped : step base world act = some after) :
    Sound base after := by
  cases act with
  | put body =>
      obtain ⟨new, _, accepts⟩ := Option.bind_eq_some_iff.mp stepped
      exact sound_accept sound accepts
  | patch body =>
      obtain ⟨new, _, accepts⟩ := Option.bind_eq_some_iff.mp stepped
      exact sound_accept sound accepts
  | write position =>
      obtain ⟨new, listed, rfl⟩ := Option.map_eq_some_iff.mp stepped
      refine ⟨sound.static, sound.accepted new (List.mem_of_getElem? listed),
        fun other member => ?_, sound.nodes⟩
      exact sound.accepted other (List.mem_of_mem_eraseIdx member)
  | consume node =>
      obtain ⟨config, written, rfl⟩ := Option.map_eq_some_iff.mp stepped
      obtain ⟨keepsTtl, keepsLoopWait, keepsRetryTimeout⟩ := meets
      have current : world.current = config := by simp [World.current, written]
      rw [current] at keepsTtl keepsLoopWait keepsRetryTimeout
      exact sound_setNode sound node
        (processDynamicConfig_uses (sound.nodes node) keepsTtl keepsLoopWait keepsRetryTimeout)
  | restart node =>
      cases stepped
      exact sound_setNode sound node (started_uses sound.static)

theorem sound_aligned {base : LeaseTiming} {world : World} (sound : Sound base world) :
    Aligned base world := by
  intro node reads
  have timing := (sound.nodes node).timing
  rw [reads] at timing
  have allowed : ((world.nodes node).timing base.safetyMargin).violation = none := by
    rw [timing]
    exact sound.config
  have ttl : (world.nodes node).ttl = (world.current.leaseTiming base).ttl :=
    congrArg LeaseTiming.ttl timing
  refine ⟨timing, ?_, allowed, ?_⟩
  · rw [(sound.nodes node).lockTtl, ← ttl]
    exact Nat.max_eq_left (allowed_positive allowed)
  · intro config written
    have fresh := (started_processes sound.static config).timing
    have current : world.current = config := by simp [World.current, written]
    rw [fresh, processDynamicConfig_reads, timing, current]

/-- In every history of updates, reads and restarts in which no node reads a configuration
without a timing field that its last one had changed, every node that has read the current
configuration uses the timing it gives. -/
theorem running_timing_follows_config (base : LeaseTiming) (valid : base.violation = none)
    (world : World) (path : Reaches (step base) (Meets base) (.start base) world) :
    Aligned base world := by
  have initial : Sound base (.start base) := by
    refine ⟨valid, valid, ?_, fun _ => started_uses valid⟩
    intro new member
    cases member
  exact sound_aligned (reaches_invariant (Sound base) initial
    (fun _ act _ sound meets stepped => sound_step sound act meets stepped) path)

def timingBody (ttl loopWait : Option Nat) : Json :=
  .object (known "ttl" .number ttl ++ known "loop_wait" .number loopWait)

/-- The timing that the sample configuration ships with. -/
def sampleTiming : LeaseTiming := ⟨30, 10, 10, 5⟩

/-- Node 0 reads a longer TTL and loop. -/
theorem running_timing_follows_config_longerLoop :
    ∃ world, Reaches (step sampleTiming) (Meets sampleTiming) (.start sampleTiming) world ∧
      (world.nodes 0).loopWait = 60 ∧ Aligned sampleTiming world := by
  have path : Reaches (step sampleTiming) (Meets sampleTiming) (.start sampleTiming) _ :=
    .next (.consume 0)
      (.next (.write 0)
        (.next (.put (timingBody (some 100) (some 60))) .refl trivial rfl) trivial rfl)
      ⟨fun _ => rfl, fun _ => rfl, fun _ => rfl⟩ rfl
  exact ⟨_, path, rfl, running_timing_follows_config sampleTiming rfl _ path⟩

/-- A longer TTL and loop are set and read by node 0; then the TTL alone is set back. -/
def dropsLoopWait : List Act :=
  [.put (timingBody (some 100) (some 60)), .write 0, .consume 0,
    .put (timingBody (some 30) none), .write 0, .consume 0]

/-- Node 0 has read the configuration and its timing is not allowed. -/
def breaksLease (world : World) : Bool :=
  decide ((world.nodes 0).lastConfig = world.current) &&
    (((world.nodes 0).timing sampleTiming.safetyMargin).violation).isSome

/-- Node 0 keeps the longer loop under the short TTL. -/
theorem omitted_field_keeps_old_timing :
    ¬ ∀ (base : LeaseTiming) (_ : base.violation = none) (world : World),
      Reaches (step base) anyAct (.start base) world → Aligned base world := by
  intro aligned
  obtain ⟨world, path, broken⟩ := play_exhibits
    (show (play (step sampleTiming) anyAct (.start sampleTiming) dropsLoopWait).map breaksLease =
      some true by decide)
  simp only [breaksLease, Bool.and_eq_true, decide_eq_true_eq] at broken
  obtain ⟨_, _, allowed, _⟩ := aligned sampleTiming rfl world path 0 broken.1
  rw [allowed] at broken
  cases broken.2

end PgHa.ConfigTiming
