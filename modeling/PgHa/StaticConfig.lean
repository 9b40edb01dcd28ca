import PgHa.ConfigTiming

/-!
The static configuration of a node (`pg-ha-core/src/config.rs`) and what
`Config::validate` checks of it, in the order of the source. An error is the text that
`Error::Config` carries. Fields that neither the check nor the Raft identity reads are
left out.
-/

namespace PgHa.StaticConfig

open Text Serde ConfigTiming
open LatestTimeline (decimal)

structure RaftConfig where
  selfAddr : Str
  partnerAddrs : List Str
  nodeId : Option Nat
  deriving DecidableEq

structure Config where
  name : Str
  scope : Str
  loopWait : Nat
  ttl : Nat
  retryTimeout : Nat
  safetyMargin : Nat
  bootstrapDcs : Option (List (Str × Json))
  raft : RaftConfig

def Config.leaseTiming (config : Config) : LeaseTiming :=
  ⟨config.ttl, config.loopWait, config.retryTimeout, config.safetyMargin⟩

/-- What `bootstrap.dcs` makes the dynamic configuration start with. -/
def Config.initialTiming (config : Config) (dcs : List (Str × Json)) : LeaseTiming :=
  let dcsValue (key : String) : Option Nat := (lookup key dcs).bind Json.asU64
  ⟨(dcsValue "ttl").getD config.ttl, (dcsValue "loop_wait").getD config.loopWait,
    (dcsValue "retry_timeout").getD config.retryTimeout, config.safetyMargin⟩

def Config.validate (config : Config) : Except Str Unit := do
  if config.name.isEmpty then
    .error "'name' is required and cannot be empty".toList
  if config.scope.isEmpty then
    .error "'scope' is required and cannot be empty".toList
  if config.ttl ≤ config.loopWait then
    .error ("ttl (".toList ++ decimal config.ttl ++ ") must be greater than loop_wait (".toList ++
      decimal config.loopWait ++ ")".toList)
  match config.leaseTiming.violation with
  | some problem => .error problem
  | none => .ok ()
  match config.bootstrapDcs with
  | some dcs =>
      match (config.initialTiming dcs).violation with
      | some problem => .error ("bootstrap.dcs: ".toList ++ problem)
      | none => .ok ()
  | none => .ok ()
  if config.raft.selfAddr.isEmpty then
    .error "raft.self_addr is required".toList
  if config.raft.partnerAddrs.isEmpty then
    .error "raft.partner_addrs must contain at least one peer address".toList
  .ok ()

/-- What `Config::sample` writes out. -/
def Config.sample : Config :=
  { name := "node1".toList
    scope := "pg-cluster".toList
    loopWait := 10
    ttl := 30
    retryTimeout := 10
    safetyMargin := 5
    bootstrapDcs := some [("loop_wait".toList, .number 10), ("ttl".toList, .number 30),
      ("maximum_lag_on_failover".toList, .number 1048576)]
    raft := ⟨"node1:2380".toList, ["node2:2380".toList, "node3:2380".toList], none⟩ }

example : Config.sample.validate = .ok () := by rfl

end PgHa.StaticConfig
