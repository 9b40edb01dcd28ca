import PgHa.KeyedTable
import PgHa.RiseFall
import PgHa.SessionMonitor
import PgHa.Text

/-!
The TCP proxy: `update_backends`, the health checker and the connections as three tasks
over the upstream list and the health state, one step for each section under a lock.
Whether a backend is the target for writes is `rw`, whether it may be read from is `ro`.
-/

namespace PgHa.Proxy

open KeyedTable RiseFall SessionMonitor Text Watch

/-- `HealthCheckConfig`, times in seconds. -/
structure HealthCheckConfig where
  interval : Nat
  fall : Nat
  rise : Nat
  timeout : Nat
  maxConnections : Nat
  shutdownOnDown : Bool

def HealthCheckConfig.default : HealthCheckConfig where
  interval := 3
  fall := 3
  rise := 2
  timeout := 5
  maxConnections := 300
  shutdownOnDown := true

structure PgBackend where
  addr : Str
  name : Str
  isPrimary : Bool
  isHealthy : Bool
  apiUrl : Str
  deriving DecidableEq

inductive ProxyMode where
  | readWrite
  | readOnly
  deriving DecidableEq

/-- `BackendHealth`; `shutdownTx` is the number of its channel. -/
structure BackendHealth where
  addr : Str
  apiUrl : Str
  name : Str
  rw : Streak
  ro : Streak
  shutdownTx : Nat
  deriving DecidableEq

def BackendHealth.streak (backend : BackendHealth) : ProxyMode → Streak
  | .readWrite => backend.rw
  | .readOnly => backend.ro

def BackendHealth.setStreak (backend : BackendHealth) : ProxyMode → Streak → BackendHealth
  | .readWrite, streak => { backend with rw := streak }
  | .readOnly, streak => { backend with ro := streak }

@[simp] theorem name_setStreak (backend : BackendHealth) (mode : ProxyMode) (streak : Streak) :
    (backend.setStreak mode streak).name = backend.name := by
  cases mode <;> rfl

@[simp] theorem addr_setStreak (backend : BackendHealth) (mode : ProxyMode) (streak : Streak) :
    (backend.setStreak mode streak).addr = backend.addr := by
  cases mode <;> rfl

@[simp] theorem shutdownTx_setStreak (backend : BackendHealth) (mode : ProxyMode)
    (streak : Streak) :
    (backend.setStreak mode streak).shutdownTx = backend.shutdownTx := by
  cases mode <;> rfl

/-! ### Upstream -/

structure UpstreamState where
  backends : List PgBackend

def UpstreamState.primary (upstream : UpstreamState) : Option PgBackend :=
  upstream.backends.find? fun b => b.isPrimary && b.isHealthy

def UpstreamState.replicas (upstream : UpstreamState) : List PgBackend :=
  upstream.backends.filter fun b => !b.isPrimary && b.isHealthy

/-- The entry of the upstream list that the health checker writes for a backend. -/
def BackendHealth.toUpstream (backend : BackendHealth) : PgBackend :=
  let isPrimary := backend.rw.healthy
  let isReplica := backend.ro.healthy && !backend.rw.healthy
  { addr := backend.addr
    name := backend.name
    isPrimary := isPrimary
    isHealthy := isPrimary || isReplica
    apiUrl := backend.apiUrl }

/-! ### Health state -/

/-- The map from names to backends, and the channels that its senders write. -/
structure HealthState where
  backends : Keyed BackendHealth.name
  channels : Nat → Channel Bool
  nextChannel : Nat

def HealthState.new : HealthState := ⟨.empty, fun _ => .new false, 0⟩

def BackendHealth.refresh (backend : PgBackend) (existing : BackendHealth) : BackendHealth :=
  { existing with addr := backend.addr, apiUrl := backend.apiUrl }

def BackendHealth.new (backend : PgBackend) (channel : Nat) : BackendHealth where
  addr := backend.addr
  apiUrl := backend.apiUrl
  name := backend.name
  rw := .fresh
  ro := .fresh
  shutdownTx := channel

def HealthState.register (health : HealthState) (backend : PgBackend) : HealthState :=
  if backend.apiUrl = [] then health
  else
    match health.backends.get? backend.name with
    | some _ =>
        { health with
          backends := health.backends.adjust backend.name (BackendHealth.refresh backend) fun _ =>
            rfl }
    | none =>
        { backends := health.backends.insert (BackendHealth.new backend health.nextChannel)
          channels := Function.update health.channels health.nextChannel (.new false)
          nextChannel := health.nextChannel + 1 }

def listed (backends : List PgBackend) (name : Str) : Bool :=
  (backends.map PgBackend.name).contains name

/-- `retain`: a sender is dropped with its backend. -/
def HealthState.retainListed (health : HealthState) (backends : List PgBackend) : HealthState :=
  { health with
    backends := health.backends.retain fun backend => listed backends backend.name
    channels := fun channel =>
      if health.backends.entries.any fun backend =>
          backend.shutdownTx = channel && !listed backends backend.name then
        (health.channels channel).dropSender
      else health.channels channel }

/-- The part of `update_backends` under the write lock of the health state. -/
def HealthState.registerAll (health : HealthState) (backends : List PgBackend) : HealthState :=
  (backends.foldl HealthState.register health).retainListed backends

/-! ### Sessions -/

inductive Phase where
  /-- the backend is chosen and its channel subscribed to -/
  | selected
  /-- the permit is held -/
  | connecting
  | piping
  deriving DecidableEq

/-- A connection; `toReplica` where `replicas` had the backend, and `downs` what the backend
was marked down for since. -/
structure Session where
  mode : ProxyMode
  toReplica : Bool
  backend : Str
  addr : Str
  shutdownRx : Nat
  phase : Phase
  monitor : Monitor
  downs : List ProxyMode
  deriving DecidableEq

inductive Updater where
  | idle
  | writing (backends : List PgBackend)
  | registering (backends : List PgBackend)

/-- A probed result that is still to be counted. -/
abbrev ProbeResult := ProxyMode × Str × Bool

inductive Checker where
  | idle
  | probing (names : List Str)
  | applying (results : List ProbeResult) (changed : Bool)
  | rebuilding

/-- `built` where the upstream list is the health checker's, `checked` once a round of it is
complete. -/
structure ProxyState where
  upstream : UpstreamState
  built : Bool
  health : HealthState
  updater : Updater
  checker : Checker
  checked : Bool
  sessions : List Session
  cuts : List Session

def ProxyState.new : ProxyState where
  upstream := ⟨[]⟩
  built := false
  health := .new
  updater := .idle
  checker := .idle
  checked := false
  sessions := []
  cuts := []

/-- The health state is locked for writing while the results are counted. -/
def ProxyState.counting (state : ProxyState) : Bool :=
  match state.checker with
  | .applying _ _ => true
  | _ => false

/-! ### Health checker -/

def ProxyState.shutdownSessions (state : ProxyState) (channel : Nat) : ProxyState :=
  { state with
    health := { state.health with
      channels := Function.update state.health.channels channel
        ((state.health.channels channel).send
          (state.sessions.any (·.shutdownRx = channel)) true) } }

def Session.noteDown (channel : Nat) (mode : ProxyMode) (session : Session) : Session :=
  if session.shutdownRx = channel then { session with downs := mode :: session.downs } else session

/-- A backend marked down for a mode. -/
def ProxyState.markDown (state : ProxyState) (config : HealthCheckConfig) (wasHealthy : Bool)
    (channel : Nat) (mode : ProxyMode) : ProxyState :=
  let noted := { state with sessions := state.sessions.map (Session.noteDown channel mode) }
  if config.shutdownOnDown && wasHealthy then noted.shutdownSessions channel else noted

/-- One turn of the loop over `rw_results` or `ro_results`, and whether it sets
`upstream_changed`. -/
def ProxyState.countResult (state : ProxyState) (config : HealthCheckConfig) :
    ProbeResult → ProxyState × Bool
  | (mode, name, ok) =>
      match state.health.backends.get? name with
      | none => (state, false)
      | some backend =>
          let wasHealthy := (backend.streak mode).healthy
          let counted := (backend.streak mode).count config.rise config.fall ok
          let backends := state.health.backends.adjust name
            (fun backend => backend.setStreak mode counted.1) fun _ => name_setStreak _ _ _
          let after := { state with health := { state.health with backends := backends } }
          match counted.2 with
          | none => (after, false)
          | some .up => (after, true)
          | some .down => (after.markDown config wasHealthy backend.shutdownTx mode, true)

/-! ### Connections -/

/-- The name of the selected backend, and whether it is one of `replicas`. -/
def UpstreamState.select (upstream : UpstreamState) (counter : Nat) : ProxyMode →
    Option (Str × Bool)
  | .readWrite => upstream.primary.map fun b => (b.name, false)
  | .readOnly =>
      if upstream.replicas = [] then upstream.primary.map fun b => (b.name, false)
      else upstream.replicas[counter % upstream.replicas.length]?.map fun b => (b.name, true)

inductive Selection where
  | noBackend
  | notFound (name : Str)
  | routed (session : Session)

/-- The first block of `handle_connection`. -/
def ProxyState.selectBackend (state : ProxyState) (mode : ProxyMode) (counter : Nat) : Selection :=
  match state.upstream.select counter mode with
  | none => .noBackend
  | some (name, toReplica) =>
      match state.health.backends.get? name with
      | none => .notFound name
      | some info => .routed
          { mode := mode
            toReplica := toReplica
            backend := name
            addr := info.addr
            shutdownRx := info.shutdownTx
            phase := .selected
            monitor := ⟨(state.health.channels info.shutdownTx).subscribe, false⟩
            downs := [] }

/-- The permits of a semaphore that are held: one for each session past `try_acquire`. -/
def ProxyState.permits (state : ProxyState) (channel : Nat) : Nat :=
  (state.sessions.filter fun session => session.shutdownRx = channel &&
    session.phase ≠ .selected).length

def ProxyState.setSession (state : ProxyState) (index : Nat) (session : Session) : ProxyState :=
  { state with sessions := state.sessions.set index session }

/-- The end of `handle_connection`, which drops the permit and the receiver. -/
def ProxyState.endSession (state : ProxyState) (index : Nat) : ProxyState :=
  { state with sessions := state.sessions.eraseIdx index }

/-! ### Steps -/

/-- `order` is what the iteration over the health state yields, `rw` and `ro` are what the probes
of a backend return, and none is a transport failure. -/
inductive Act where
  | update (backends : List PgBackend)
  | writeUpstream
  | register
  | tick (order : List BackendHealth)
  | probe (rw ro : Str → Option Bool)
  | count
  | finish
  | rebuild (order : List BackendHealth)
  | connect (mode : ProxyMode) (counter : Nat)
  | permit (index : Nat)
  | connected (index : Nat)
  | ended (index : Nat)
  | monitor (index : Nat)

/-- `rw_results` or `ro_results`. -/
def modeResults (mode : ProxyMode) (names : List Str) (answers : Str → Option Bool) :
    List ProbeResult :=
  names.map fun name => (mode, name, (answers name).getD false)

def probeResults (names : List Str) (rw ro : Str → Option Bool) : List ProbeResult :=
  modeResults .readWrite names rw ++ modeResults .readOnly names ro

def ProxyState.update (state : ProxyState) (backends : List PgBackend) : Option ProxyState :=
  match state.updater with
  | .idle =>
      if state.counting then none
      else if state.health.backends.entries = [] then some
        { state with updater := .writing backends }
      else some { state with updater := .registering backends }
  | _ => none

def ProxyState.writeUpstream (state : ProxyState) : Option ProxyState :=
  match state.updater with
  | .writing backends =>
      some { state with
        upstream := ⟨backends⟩, built := false, updater := .registering backends }
  | _ => none

def ProxyState.register (state : ProxyState) : Option ProxyState :=
  match state.updater with
  | .registering backends =>
      if state.counting then none
      else some { state with health := state.health.registerAll backends, updater := .idle }
  | _ => none

def ProxyState.tick (state : ProxyState) (order : List BackendHealth) : Option ProxyState :=
  match state.checker with
  | .idle =>
      if order.Perm state.health.backends.entries then
        if order = [] then some state
        else some { state with checker := .probing (order.map BackendHealth.name) }
      else none
  | _ => none

def ProxyState.probe (state : ProxyState) (rw ro : Str → Option Bool) : Option ProxyState :=
  match state.checker with
  | .probing names => some { state with checker := .applying (probeResults names rw ro) false }
  | _ => none

def ProxyState.count (state : ProxyState) (config : HealthCheckConfig) : Option ProxyState :=
  match state.checker with
  | .applying (result :: rest) changed =>
      let counted := state.countResult config result
      some { counted.1 with checker := .applying rest (changed || counted.2) }
  | _ => none

def ProxyState.finish (state : ProxyState) : Option ProxyState :=
  match state.checker with
  | .applying [] true => some { state with checker := .rebuilding }
  | .applying [] false => some { state with checker := .idle, checked := true }
  | _ => none

def ProxyState.rebuild (state : ProxyState) (order : List BackendHealth) : Option ProxyState :=
  match state.checker with
  | .rebuilding =>
      if order.Perm state.health.backends.entries then
        some { state with
          upstream := ⟨order.map BackendHealth.toUpstream⟩
          built := true
          checker := .idle
          checked := true }
      else none
  | _ => none

def ProxyState.connect (state : ProxyState) (mode : ProxyMode) (counter : Nat) :
    Option ProxyState :=
  if state.counting then none
  else
    match state.selectBackend mode counter with
    | .noBackend => some state
    | .notFound _ => some state
    | .routed session => some { state with sessions := state.sessions ++ [session] }

def ProxyState.permit (state : ProxyState) (config : HealthCheckConfig) (index : Nat) :
    Option ProxyState :=
  match state.sessions[index]? with
  | none => none
  | some session =>
      if session.phase ≠ .selected then none
      else if state.permits session.shutdownRx < config.maxConnections then
        some (state.setSession index { session with phase := .connecting })
      else some (state.endSession index)

def ProxyState.connected (state : ProxyState) (index : Nat) : Option ProxyState :=
  match state.sessions[index]? with
  | none => none
  | some session =>
      if session.phase ≠ .connecting then none
      else some (state.setSession index { session with phase := .piping })

/-- The connect fails, or both directions have been copied. -/
def ProxyState.ended (state : ProxyState) (index : Nat) : Option ProxyState :=
  match state.sessions[index]? with
  | none => none
  | some session => if session.phase = .selected then none else some (state.endSession index)

/-- A call of the monitor loop, which shuts the session down when it leaves the loop. -/
def ProxyState.monitor (state : ProxyState) (config : HealthCheckConfig) (index : Nat) :
    Option ProxyState :=
  match state.sessions[index]? with
  | none => none
  | some session =>
      if session.phase ≠ .piping || !config.shutdownOnDown then none
      else
        match session.monitor.step (state.health.channels session.shutdownRx) with
        | none => none
        | some (some monitor) => some (state.setSession index { session with monitor := monitor })
        | some none => some { state.endSession index with cuts := session :: state.cuts }

def step (config : HealthCheckConfig) (state : ProxyState) : Act → Option ProxyState
  | .update backends => state.update backends
  | .writeUpstream => state.writeUpstream
  | .register => state.register
  | .tick order => state.tick order
  | .probe rw ro => state.probe rw ro
  | .count => state.count config
  | .finish => state.finish
  | .rebuild order => state.rebuild order
  | .connect mode counter => state.connect mode counter
  | .permit index => state.permit config index
  | .connected index => state.connected index
  | .ended index => state.ended index
  | .monitor index => state.monitor config index

/-- The steps of a round over backends that answer every probe for a mode alike. -/
def round (order : List BackendHealth) (rw ro : Bool) : List Act :=
  [.tick order, .probe (fun _ => some rw) (fun _ => some ro)] ++
    List.replicate (2 * order.length) .count ++ [.finish]

end PgHa.Proxy
