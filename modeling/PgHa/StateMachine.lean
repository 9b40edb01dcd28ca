import Mathlib.Algebra.Group.Nat.Defs
import Mathlib.Logic.Basic

/-!
The replicated key-value store of `pg-ha-dcs/src/state_machine.rs`. The hash
map is a partial function on keys. Times are milliseconds, `u64` in the source:
the one sum that can leave that range (`now + t * 1000`) is taken modulo 2^64.
`clock` is the applying node's own wall clock, read only for a request whose
stamp is 0.
-/

namespace PgHa.StateMachine

structure KvEntry where
  value : String
  createdAt : Nat
  updatedAt : Nat
  expireAt : Option Nat
  version : Nat
  deriving DecidableEq, Repr

inductive Request where
  | set (key value : String) (ttl : Option Nat) (prevExist : Option Bool)
      (prevValue : Option String) (prevVersion : Option Nat) (now : Nat)
  | delete (key : String) (prevValue : Option String) (recursive : Bool)
  | expireKeys (now : Nat)
  deriving DecidableEq, Repr

inductive Response where
  | ok (version : Nat)
  | notChanged
  deriving DecidableEq, Repr

def Response.succeeded : Response → Bool
  | .ok _ => true
  | .notChanged => false

abbrev Entries := String → Option KvEntry

structure KvStateMachine where
  data : Entries
  lastAppliedLog : Nat

def KvStateMachine.new : KvStateMachine := ⟨fun _ => none, 0⟩

def insert (data : Entries) (key : String) (entry : KvEntry) : Entries :=
  fun k => if k = key then some entry else data k

def remove (data : Entries) (key : String) : Entries :=
  fun k => if k = key then none else data k

@[simp] theorem insert_same (data : Entries) (key : String) (entry : KvEntry) :
    insert data key entry key = some entry := by
  simp [insert]

theorem insert_other (data : Entries) (key other : String) (entry : KvEntry)
    (apart : other ≠ key) : insert data key entry other = data other := by
  simp [insert, apart]

@[simp] theorem remove_same (data : Entries) (key : String) : remove data key key = none := by
  simp [remove]

theorem remove_other (data : Entries) (key other : String) (apart : other ≠ key) :
    remove data key other = data other := by
  simp [remove, apart]

/-- `expire_at.is_none_or(|exp| exp > now)`: the test of `apply_set` and of
`apply_expire`. -/
def live (now : Nat) (entry : KvEntry) : Bool :=
  match entry.expireAt with
  | none => true
  | some exp => decide (now < exp)

def startsWith (key pre : String) : Bool := pre.toList.isPrefixOf key.toList

/-- Milliseconds at which a key written at `now` with a TTL of `ttl` seconds
expires, in `u64` arithmetic. -/
def expiry (now ttl : Nat) : Nat := (now + ttl * 1000) % 2 ^ 64

def existPasses (prevExist : Option Bool) (current : Option KvEntry) : Bool :=
  match prevExist with
  | none => true
  | some shouldExist => shouldExist == current.isSome

def valuePasses (prevValue : Option String) (current : Option KvEntry) : Bool :=
  match prevValue, current with
  | none, _ => true
  | some expected, some entry => entry.value == expected
  | some _, none => false

def versionPasses (prevVersion : Option Nat) (current : Option KvEntry) : Bool :=
  match prevVersion, current with
  | none, _ => true
  | some expected, some entry => entry.version == expected
  | some _, none => false

/-- The entry `apply_set` inserts once every condition passed. -/
def writtenEntry (sm : KvStateMachine) (current : Option KvEntry) (value : String)
    (ttl : Option Nat) (now : Nat) : KvEntry :=
  { value := value
    createdAt := (current.map KvEntry.createdAt).getD now
    updatedAt := now
    expireAt := ttl.map (expiry now)
    version := sm.lastAppliedLog }

/-- Entries written before the stamp existed carry 0 and use the local clock. -/
def effectiveNow (clock stamp : Nat) : Nat := if stamp = 0 then clock else stamp

theorem effectiveNow_nonzero (clock stamp : Nat) (nonzero : stamp ≠ 0) :
    effectiveNow clock stamp = stamp := by
  simp [effectiveNow, nonzero]

def applySet (clock : Nat) (sm : KvStateMachine) (key value : String) (ttl : Option Nat)
    (prevExist : Option Bool) (prevValue : Option String) (prevVersion : Option Nat)
    (stamp : Nat) : KvStateMachine × Response :=
  let now := effectiveNow clock stamp
  let current := (sm.data key).filter (live now)
  if existPasses prevExist current && valuePasses prevValue current &&
      versionPasses prevVersion current then
    ({ sm with data := insert sm.data key (writtenEntry sm current value ttl now) },
      .ok sm.lastAppliedLog)
  else (sm, .notChanged)

def applyDelete (sm : KvStateMachine) (key : String) (prevValue : Option String)
    (recursive : Bool) : KvStateMachine × Response :=
  if recursive then
    ({ sm with data := fun k => if startsWith k key then none else sm.data k },
      .ok sm.lastAppliedLog)
  else if valuePasses prevValue (sm.data key) then
    match sm.data key with
    | some _ => ({ sm with data := remove sm.data key }, .ok sm.lastAppliedLog)
    | none => (sm, .notChanged)
  else (sm, .notChanged)

def applyExpire (sm : KvStateMachine) (now : Nat) : KvStateMachine × Response :=
  ({ sm with data := fun k => (sm.data k).filter (live now) }, .ok sm.lastAppliedLog)

def apply (clock : Nat) (sm : KvStateMachine) (request : Request) (logIndex : Nat) :
    KvStateMachine × Response :=
  let sm := { sm with lastAppliedLog := logIndex }
  match request with
  | .set key value ttl prevExist prevValue prevVersion now =>
      applySet clock sm key value ttl prevExist prevValue prevVersion now
  | .delete key prevValue recursive => applyDelete sm key prevValue recursive
  | .expireKeys now => applyExpire sm now

/-- The Raft leader's clock replaces the request's before it is appended. -/
def stampLeaderTime (request : Request) (now : Nat) : Request :=
  match request with
  | .set key value ttl prevExist prevValue prevVersion _ =>
      .set key value ttl prevExist prevValue prevVersion now
  | .expireKeys _ => .expireKeys now
  | other => other

theorem filter_live_some (now : Nat) (slot : Option KvEntry) (entry : KvEntry) :
    slot.filter (live now) = some entry ↔ slot = some entry ∧ live now entry = true := by
  simp [Option.filter_eq_some_iff]

/-- A Set either fails a condition and changes nothing, or passes all three
against the unexpired entry and inserts the new one. -/
theorem applySet_cases (clock : Nat) (sm : KvStateMachine) (key value : String)
    (ttl : Option Nat) (prevExist : Option Bool) (prevValue : Option String)
    (prevVersion : Option Nat) (stamp : Nat) :
    applySet clock sm key value ttl prevExist prevValue prevVersion stamp = (sm, .notChanged) ∨
    (∃ current, current = (sm.data key).filter (live (effectiveNow clock stamp)) ∧
      existPasses prevExist current = true ∧ valuePasses prevValue current = true ∧
      versionPasses prevVersion current = true ∧
      applySet clock sm key value ttl prevExist prevValue prevVersion stamp =
        ({ sm with data := (insert sm.data key
            (writtenEntry sm current value ttl (effectiveNow clock stamp))) },
          .ok sm.lastAppliedLog)) := by
  simp only [applySet]
  split
  · rename_i passed
    simp only [Bool.and_eq_true] at passed
    exact Or.inr ⟨_, rfl, passed.1.1, passed.1.2, passed.2, rfl⟩
  · exact Or.inl rfl

theorem applyDelete_cases (sm : KvStateMachine) (key : String) (prevValue : Option String) :
    applyDelete sm key prevValue false = (sm, .notChanged) ∨
    (∃ entry, sm.data key = some entry ∧ valuePasses prevValue (some entry) = true ∧
      applyDelete sm key prevValue false =
        ({ sm with data := remove sm.data key }, .ok sm.lastAppliedLog)) := by
  cases found : sm.data key with
  | none =>
      left
      simp [applyDelete, found]
  | some entry =>
      by_cases passed : valuePasses prevValue (some entry) = true
      · exact Or.inr ⟨entry, rfl, passed, by simp [applyDelete, found, passed]⟩
      · left
        simp [applyDelete, found, passed]

/-- A request that was answered `NotChanged` left every entry as it was. -/
theorem notChanged_data (clock : Nat) (sm : KvStateMachine) (request : Request)
    (logIndex : Nat) (refused : (apply clock sm request logIndex).2 = .notChanged) :
    (apply clock sm request logIndex).1.data = sm.data := by
  cases request with
  | set key value ttl prevExist prevValue prevVersion now =>
      simp only [apply] at refused ⊢
      rcases applySet_cases clock { sm with lastAppliedLog := logIndex } key value ttl prevExist
        prevValue prevVersion now with same | ⟨current, _, _, _, _, written⟩
      · rw [same]
      · simp [written] at refused
  | delete key prevValue recursive =>
      simp only [apply] at refused ⊢
      cases recursive with
      | true => simp [applyDelete] at refused
      | false =>
          rcases applyDelete_cases { sm with lastAppliedLog := logIndex } key prevValue with
            same | ⟨entry, _, _, removed⟩
          · rw [same]
          · simp [removed] at refused
  | expireKeys now => simp [apply, applyExpire] at refused

/-- `KvStateMachine::get` at wall-clock time `clock`. -/
def get (clock : Nat) (sm : KvStateMachine) (key : String) : Option KvEntry :=
  (sm.data key).filter (live clock)

/-- `KvStateMachine::get_prefix` at wall-clock time `clock`. -/
def getPrefix (clock : Nat) (sm : KvStateMachine) (pre : String) : Entries :=
  fun key => if startsWith key pre then get clock sm key else none

end PgHa.StateMachine
