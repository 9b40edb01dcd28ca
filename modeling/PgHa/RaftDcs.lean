import PgHa.StateMachine

/-!
The requests `RaftDcs` (`pg-ha-dcs/src/raft_dcs.rs`) proposes: acquire, renew and release are
those of `attempt_to_acquire_leader`, `update_leader` and `delete_leader`. Every path is the
base path followed by the key's name; `now` is the stamp the Raft leader writes into the entry
it appends.
-/

namespace PgHa.RaftDcs

open StateMachine

def leaderPath (base : String) : String := base ++ "leader"

def membersPath (base : String) : String := base ++ "members/"

def memberPath (base node : String) : String := base ++ "members/" ++ node

def initializePath (base : String) : String := base ++ "initialize"

def syncPath (base : String) : String := base ++ "sync"

def failoverPath (base : String) : String := base ++ "failover"

def configPath (base : String) : String := base ++ "config"

def timelinePath (base : String) : String := base ++ "timeline"

def historyPath (base : String) : String := base ++ "history"

def acquireRequest (leader node : String) (ttl now : Nat) : Request :=
  .set leader node (some ttl) (some false) none none now

def renewRequest (leader node : String) (ttl now : Nat) : Request :=
  .set leader node (some ttl) none (some node) none now

def releaseRequest (leader node : String) : Request := .delete leader (some node) false

/-- `set_sync_value`, `set_config_value` and `set_failover_value` are one plain
Set: no condition on what the key holds. -/
def plainSetRequest (key value : String) (ttl : Option Nat) (now : Nat) : Request :=
  .set key value ttl none none none now

def setSyncRequest (base value : String) (now : Nat) : Request :=
  plainSetRequest (syncPath base) value none now

def setConfigRequest (base value : String) (now : Nat) : Request :=
  plainSetRequest (configPath base) value none now

/-- Only a non-empty intent carries the lock TTL; the clearing write keeps the
key forever. -/
def setFailoverRequest (base value : String) (lockTtl now : Nat) : Request :=
  plainSetRequest (failoverPath base) value (if value = "" then none else some lockTtl) now

/-- `timeline_write_request` and `history_write_request` are one Set: only while the key
has the version that was read, or does not exist when none was. -/
def versionedSetRequest (key value : String) (expected : Option Nat) (now : Nat) : Request :=
  .set key value none (if expected.isNone then some false else none) none expected now

def timelineWriteRequest (base value : String) (expected : Option Nat) (now : Nat) : Request :=
  versionedSetRequest (timelinePath base) value expected now

def historyWriteRequest (base value : String) (expected : Option Nat) (now : Nat) : Request :=
  versionedSetRequest (historyPath base) value expected now

end PgHa.RaftDcs
