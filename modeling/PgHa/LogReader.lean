import Mathlib.Data.List.Sort
import PgHa.LogStore
import PgHa.NumberedList

/-!
What openraft reads of the log of `MemStore`: `try_get_log_entries` and `get_log_state` of
`pg-ha-dcs/src/store.rs`. openraft appends behind the last entry, deletes what is not yet
purged and purges forward; under these calls the log is an interval without a gap, and every
read is a piece of it.
-/

namespace PgHa.LogReader

open Std (ExtTreeMap)
open Transition Wal LogStore NumberedList

variable {Payload : Type} (crc32 : Bytes → UInt32) (codec : Bincode Payload)

/-! ### The reads -/

/-- `core::ops::Bound`. -/
inductive Bound where
  | included (index : UInt64)
  | excluded (index : UInt64)
  | unbounded

/-- A range of indices, by its two bounds. -/
structure Range where
  start : Bound
  stop : Bound

def Range.contains (range : Range) (index : UInt64) : Bool :=
  (match range.start with
    | .included low => decide (low ≤ index)
    | .excluded low => decide (low < index)
    | .unbounded => true) &&
  match range.stop with
    | .included high => decide (index ≤ high)
    | .excluded high => decide (index < high)
    | .unbounded => true

/-- The ranges on which `BTreeMap::range` panics. -/
def Range.panics (range : Range) : Bool :=
  match range.start, range.stop with
  | .excluded low, .excluded high => decide (high ≤ low)
  | .included low, .included high | .included low, .excluded high | .excluded low, .included high =>
      decide (high < low)
  | _, _ => false

/-- `start..stop` -/
def Range.between (start stop : UInt64) : Range := ⟨.included start, .excluded stop⟩

/-- Some entries, unless the call panics. -/
def tryGetLogEntries (state : LogState Payload) (range : Range) :
    Option (List (LogEntry Payload)) :=
  if range.panics then none
  else some ((state.log.toList.filter fun binding => range.contains binding.1).map Prod.snd)

/-- openraft's `LogState`. -/
structure RaftLogState where
  lastPurgedLogId : Option LogId
  lastLogId : Option LogId
  deriving DecidableEq

def getLogState (state : LogState Payload) : RaftLogState where
  lastPurgedLogId := state.lastPurged
  lastLogId := (state.log.toList.getLast?.map fun binding => binding.2.logId).or state.lastPurged

/-! ### The log as openraft sees it -/

/-- The entries behind the last purge. -/
structure RaftLog (Payload : Type) where
  purged : Option LogId
  entries : List (LogEntry Payload)

def RaftLog.new : RaftLog Payload := ⟨none, []⟩

def number (entry : LogEntry Payload) : Nat := entry.logId.index.toNat

def nextIndex : Option LogId → Nat
  | none => 0
  | some logId => logId.index.toNat + 1

namespace RaftLog

def first (log : RaftLog Payload) : Nat := nextIndex log.purged

def next (log : RaftLog Payload) : Nat := log.first + log.entries.length

def last (log : RaftLog Payload) : Option LogId :=
  (log.entries.getLast?.map LogEntry.logId).or log.purged

def perform (log : RaftLog Payload) : LogCall Payload → RaftLog Payload
  | .appendToLog entries => { log with entries := log.entries ++ entries }
  | .deleteConflictLogsSince logId =>
      { log with entries := log.entries.take (logId.index.toNat - log.first) }
  | .purgeLogsUpto logId => ⟨some logId, log.entries.drop (logId.index.toNat + 1 - log.first)⟩

/-- What openraft promises of a call: entries follow the last one, nothing purged is deleted,
and a purge goes forward, past the last entry too. -/
def Admits (log : RaftLog Payload) : LogCall Payload → Prop
  | .appendToLog entries => Numbered number log.next entries
  | .deleteConflictLogsSince logId => log.first ≤ logId.index.toNat
  | .purgeLogsUpto logId => log.first ≤ logId.index.toNat + 1

instance (log : RaftLog Payload) : (call : LogCall Payload) → Decidable (log.Admits call)
  | .appendToLog entries => inferInstanceAs (Decidable (entries.map number = _))
  | .deleteConflictLogsSince logId => inferInstanceAs (Decidable (log.first ≤ logId.index.toNat))
  | .purgeLogsUpto logId => inferInstanceAs (Decidable (log.first ≤ logId.index.toNat + 1))

end RaftLog

/-- The store, with the log as it should be beside it. -/
structure Store (Payload : Type) where
  world : LogWorld Payload
  log : RaftLog Payload

def callOf : LogStep Payload → Option (LogCall Payload)
  | .call call _ | .crash call _ => some call
  | .restart => none

def act (store : Store Payload) (act : LogStep Payload) : Option (Store Payload) :=
  (step crc32 codec store.world act).map fun world =>
    ⟨world, ((callOf act).map store.log.perform).getD store.log⟩

/-- Every call keeps openraft's promise, and what it writes fits. -/
def Kept (store : Store Payload) (act : LogStep Payload) : Prop :=
  Writes codec store.world act ∧ ∀ call, callOf act = some call → store.log.Admits call

/-- A node that starts in an empty directory. -/
def Store.new : Store Payload := ⟨.opened crc32 codec none, .new⟩

/-! ### The store holds the log -/

structure Holds (state : LogState Payload) (log : RaftLog Payload) : Prop where
  purged : state.lastPurged = log.purged
  numbered : Numbered number log.first log.entries
  entries : ∀ (key : UInt64) entry, state.log[key]? = some entry ↔
    entry ∈ log.entries ∧ entry.logId.index = key

variable {state : LogState Payload} {log : RaftLog Payload}

theorem holds_append {entry : LogEntry Payload} (holds : Holds state log)
    (next : number entry = log.next) :
    Holds ((Mutation.append entry).apply state) { log with entries := log.entries ++ [entry] } := by
  constructor
  · exact holds.purged
  · apply numbered_append.mpr
    exact ⟨holds.numbered, numbered_cons.mpr ⟨next, numbered_nil⟩⟩
  · intro key other
    simp only [Mutation.apply, ExtTreeMap.getElem?_insert, List.mem_append, List.mem_singleton]
    by_cases same : entry.logId.index = key
    · -- no entry before has the number of the new one
      have fresh : ∀ old ∈ log.entries, old.logId.index ≠ key := by
        intro old member equal
        have below := (mem_bounds holds.numbered member).2
        have number : number old = number entry := by rw [number, number, equal, same]
        rw [number, next] at below
        exact absurd below (Nat.lt_irrefl _)
      rw [if_pos (by rw [same]; exact Std.ReflCmp.compare_self)]
      constructor
      · rintro ⟨⟩
        exact ⟨.inr rfl, same⟩
      · rintro ⟨old | rfl, number⟩
        · exact absurd number (fresh other old)
        · rfl
    · rw [if_neg fun equal => same (Std.LawfulEqOrd.eq_of_compare equal), holds.entries]
      constructor
      · rintro ⟨member, number⟩
        exact ⟨.inl member, number⟩
      · rintro ⟨member | rfl, number⟩
        · exact ⟨member, number⟩
        · exact absurd number same

/-- By induction on the entries, each of which follows the one before. -/
theorem holds_appends {entries : List (LogEntry Payload)} (holds : Holds state log)
    (numbered : Numbered number log.next entries) :
    Holds ((entries.map Mutation.append).foldl Mutation.apply state)
      { log with entries := log.entries ++ entries } := by
  induction entries generalizing state log with
  | nil =>
      rw [List.append_nil]
      exact holds
  | cons entry rest ih =>
      obtain ⟨next, follows⟩ := numbered_cons.mp numbered
      have appended := holds_append holds next
      have rest' := ih appended (by
        rw [RaftLog.next, List.length_append, List.length_singleton, ← Nat.add_assoc]
        exact follows)
      rw [List.append_assoc] at rest'
      exact rest'

theorem holds_truncate {since : UInt64} (holds : Holds state log) :
    Holds ((Mutation.truncate since).apply state)
      { log with entries := log.entries.take (since.toNat - log.first) } := by
  constructor
  · exact holds.purged
  · exact numbered_take holds.numbered _
  · intro key entry
    rw [← filter_below holds.numbered]
    simp only [Mutation.apply, ExtTreeMap.getElem?_filter', Option.filter_eq_some_iff,
      holds.entries,
      List.mem_filter, decide_eq_true_eq]
    constructor
    · rintro ⟨⟨member, rfl⟩, below⟩
      exact ⟨⟨member, UInt64.lt_iff_toNat_lt.mp below⟩, rfl⟩
    · rintro ⟨⟨member, below⟩, rfl⟩
      exact ⟨⟨member, rfl⟩, UInt64.lt_iff_toNat_lt.mpr below⟩

theorem holds_purge {logId : LogId} (holds : Holds state log)
    (forward : log.first ≤ logId.index.toNat + 1) :
    Holds ((Mutation.purge logId).apply state)
      ⟨some logId, log.entries.drop (logId.index.toNat + 1 - log.first)⟩ := by
  constructor
  · rfl
  · change Numbered number (logId.index.toNat + 1) _
    by_cases short : log.entries.length ≤ logId.index.toNat + 1 - log.first
    · rw [List.drop_eq_nil_of_le short]
      exact numbered_nil
    · have dropped := numbered_drop holds.numbered (logId.index.toNat + 1 - log.first)
      have starts : log.first + min (logId.index.toNat + 1 - log.first) log.entries.length =
          logId.index.toNat + 1 := by omega
      rw [starts] at dropped
      exact dropped
  · intro key entry
    rw [← filter_from holds.numbered]
    simp only [Mutation.apply, ExtTreeMap.getElem?_filter', Option.filter_eq_some_iff,
      holds.entries,
      List.mem_filter, decide_eq_true_eq]
    constructor
    · rintro ⟨⟨member, rfl⟩, past⟩
      exact ⟨⟨member, UInt64.lt_iff_toNat_lt.mp past⟩, rfl⟩
    · rintro ⟨⟨member, past⟩, rfl⟩
      exact ⟨⟨member, rfl⟩, UInt64.lt_iff_toNat_lt.mpr past⟩

theorem holds_call {call : LogCall Payload} (holds : Holds state log) (admits : log.Admits call) :
    Holds (call.remember state) (log.perform call) := by
  rw [remember_mutations]
  cases call with
  | appendToLog entries => exact holds_appends holds admits
  | deleteConflictLogsSince logId => exact holds_truncate holds
  | purgeLogsUpto logId => exact holds_purge holds admits

/-! ### Every run -/

/-- The file replays to the memory, which holds the log. -/
structure Serves (store : Store Payload) : Prop where
  replays : Replays crc32 codec store.world
  holds : Holds store.world.memory store.log

theorem serves_new : Serves crc32 codec (Store.new crc32 codec) := by
  constructor
  · exact replays_opened crc32 codec none
  · constructor
    · rfl
    · exact numbered_nil
    · intro key entry
      simp [Store.new, LogWorld.opened, openWal, replayWal, WalReplayResult.empty, LogState.empty,
        RaftLog.new]

theorem serves_step {before after : Store Payload} (step : LogStep Payload)
    (serves : Serves crc32 codec before) (kept : Kept codec before step)
    (stepped : act crc32 codec before step = some after) : Serves crc32 codec after := by
  obtain ⟨world, moved, rfl⟩ := Option.map_eq_some_iff.mp stepped
  constructor
  · exact replays_step crc32 codec serves.replays step kept.1 moved
  · cases step with
    | call call compacts =>
        cases moved
        exact holds_call serves.holds (kept.2 call rfl)
    | crash call renamed =>
        cases moved
        exact holds_call serves.holds (kept.2 call rfl)
    | restart =>
        -- the file of the node replays to what its memory was
        cases moved
        have same : (LogWorld.opened crc32 codec (some before.world.file)).memory =
            before.world.memory := by
          change (replayWal crc32 codec (some before.world.file)).state = before.world.memory
          rw [serves.replays.file]
        change Holds (LogWorld.opened crc32 codec (some before.world.file)).memory before.log
        rw [same]
        exact serves.holds

/-- The bindings of the map are the entries under their indices, in order. -/
theorem toList_entries (holds : Holds state log) :
    state.log.toList = log.entries.map fun entry => (entry.logId.index, entry) := by
  let before (binding other : UInt64 × LogEntry Payload) : Prop := binding.1 < other.1
  have : Std.Irrefl before := ⟨fun binding => UInt64.lt_irrefl binding.1⟩
  have : Std.Antisymm before :=
    ⟨fun binding other less more => absurd more (UInt64.lt_asymm less)⟩
  apply List.Pairwise.eq_of_mem_iff (r := before)
  · apply ExtTreeMap.ordered_keys_toList.imp
    exact fun less => Std.compare_eq_lt.mp less
  · rw [List.pairwise_map]
    apply (numbered_pairwise holds.numbered).imp
    exact fun less => UInt64.lt_iff_toNat_lt.mpr less
  · rintro ⟨key, entry⟩
    rw [ExtTreeMap.mem_toList_iff_getElem?_eq_some, holds.entries]
    simp [List.mem_map, and_comm]

theorem getLogState_holds (holds : Holds state log) :
    getLogState state = ⟨log.purged, log.last⟩ := by
  simp only [getLogState, toList_entries holds, List.getLast?_map, Option.map_map, RaftLog.last,
    holds.purged]
  rfl

theorem contains_between (start stop : UInt64) (entry : LogEntry Payload) :
    (Range.between start stop).contains entry.logId.index =
      (decide (number entry < stop.toNat) && decide (start.toNat ≤ number entry)) := by
  change (decide (start ≤ entry.logId.index) && decide (entry.logId.index < stop)) = _
  rw [Bool.and_comm]
  exact congrArg₂ and (decide_eq_decide.mpr UInt64.lt_iff_toNat_lt)
    (decide_eq_decide.mpr UInt64.le_iff_toNat_le)

/-- A read is a piece of the log. -/
theorem tryGetLogEntries_holds (holds : Holds state log) {start stop : UInt64}
    (ordered : start ≤ stop)
    (unpurged : log.first ≤ start.toNat) :
    tryGetLogEntries state (.between start stop) =
      some ((log.entries.drop (start.toNat - log.first)).take (stop.toNat - start.toNat)) := by
  have calm : (Range.between start stop).panics = false := by
    simpa [Range.panics, Range.between] using ordered
  rw [tryGetLogEntries, calm, toList_entries holds, List.filter_map, List.map_map,
    ← filter_between holds.numbered _ unpurged]
  have selected :
      log.entries.filter ((fun binding => (Range.between start stop).contains binding.1) ∘
        fun entry => (entry.logId.index, entry)) =
      log.entries.filter fun entry =>
        decide (number entry < stop.toNat) && decide (start.toNat ≤ number entry) :=
    List.filter_congr fun entry _ => contains_between start stop entry
  rw [selected]
  exact congrArg some (List.map_id _)

/-- The last id is one before the next index. -/
theorem nextIndex_last (numbered : Numbered number log.first log.entries) :
    nextIndex log.last = log.next := by
  unfold RaftLog.last RaftLog.next
  cases last : log.entries.getLast? with
  | none =>
      rw [List.getLast?_eq_none_iff.mp last]
      rfl
  | some entry => exact last_number numbered last

/-- In every run of a store that starts empty, with compactions, crashes and restarts, and with
every call as openraft promises it: the state of the log is that of the last purge and the last
entry, a read of what is not purged is a piece of the entries, and between the two ids no index
is missing. -/
theorem reads_complete {store : Store Payload}
    (path : Reaches (act crc32 codec) (Kept codec) (.new crc32 codec) store) :
    let found := getLogState store.world.memory
    found = ⟨store.log.purged, store.log.last⟩ ∧
      ∀ start stop : UInt64, start ≤ stop →
        nextIndex found.lastPurgedLogId ≤ start.toNat →
        ∃ entries, tryGetLogEntries store.world.memory (.between start stop) = some entries ∧
          entries = (store.log.entries.drop (start.toNat - store.log.first)).take
            (stop.toNat - start.toNat) ∧
          (stop.toNat ≤ nextIndex found.lastLogId →
            entries.map number = List.range' start.toNat (stop.toNat - start.toNat)) := by
  have serves : Serves crc32 codec store :=
    reaches_invariant (Serves crc32 codec) (serves_new crc32 codec)
      (fun _ step _ before kept stepped => serves_step crc32 codec step before kept stepped) path
  have holds := serves.holds
  dsimp only
  rw [getLogState_holds holds]
  constructor
  · rfl
  · intro start stop ordered unpurged
    refine ⟨_, tryGetLogEntries_holds holds ordered unpurged, rfl, ?_⟩
    intro upto
    rw [nextIndex_last holds.numbered] at upto
    exact numbered_between holds.numbered unpurged upto

/-- Three entries, of which the first is purged and the others replaced by one. -/
theorem reads_complete_replacedTail :
    ∃ store : Store Unit, Reaches (act crc32fast blankBincode) (Kept blankBincode)
        (.new crc32fast blankBincode) store ∧
      ∃ entries, tryGetLogEntries store.world.memory (.between 1 2) = some entries ∧
        entries = [⟨⟨2, 2, 1⟩, ()⟩] := by
  have one : Reaches (act crc32fast blankBincode) (Kept blankBincode)
      (.new crc32fast blankBincode) _ :=
    .next (.call (.appendToLog
      [⟨⟨1, 1, 0⟩, ()⟩, ⟨⟨1, 1, 1⟩, ()⟩, ⟨⟨1, 1, 2⟩, ()⟩]) false) .refl
      ⟨writes_blank _ _, by rintro _ ⟨⟩; decide⟩ rfl
  have two := Reaches.next (.crash (.purgeLogsUpto ⟨1, 1, 0⟩) true) one
    ⟨writes_blank _ _, by rintro _ ⟨⟩; decide⟩ rfl
  have three := Reaches.next .restart two ⟨writes_blank _ _, by rintro _ ⟨⟩⟩ rfl
  have four := Reaches.next (.call (.deleteConflictLogsSince ⟨1, 1, 1⟩) false) three
    ⟨writes_blank _ _, by rintro _ ⟨⟩; decide⟩ rfl
  have five := Reaches.next (.call (.appendToLog [⟨⟨2, 2, 1⟩, ()⟩]) false) four
    ⟨writes_blank _ _, by rintro _ ⟨⟩; decide⟩ rfl
  obtain ⟨found, reads⟩ := reads_complete crc32fast blankBincode five
  obtain ⟨entries, read, piece, _⟩ := reads 1 2 (by decide) (by rw [found]; decide)
  exact ⟨_, five, entries, read, piece⟩

end PgHa.LogReader
