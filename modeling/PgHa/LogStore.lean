import PgHa.Transition
import PgHa.Wal

/-!
The Raft log of `MemStore` (`pg-ha-dcs/src/store.rs`) and its write-ahead log. A log
call changes the memory first and then appends its records to the file; when the file
has grown too long it is replaced by a compacted one. The memory removes the keys of a
range one by one, a replay retains what lies outside it.
-/

namespace PgHa.LogStore

open Std (ExtTreeMap)
open Transition Wal

variable {Payload : Type} (crc32 : Bytes → UInt32) (codec : Bincode Payload)

inductive LogCall (Payload : Type) where
  | appendToLog (entries : List (LogEntry Payload))
  | deleteConflictLogsSince (logId : LogId)
  | purgeLogsUpto (logId : LogId)

def removeKeys (log : ExtTreeMap UInt64 (LogEntry Payload)) (keys : List UInt64) :
    ExtTreeMap UInt64 (LogEntry Payload) :=
  keys.foldl (fun log key => log.erase key) log

/-- What a call does to the memory. -/
def LogCall.remember (state : LogState Payload) : LogCall Payload → LogState Payload
  | .appendToLog entries =>
      { state with
        log := entries.foldl (fun log entry => log.insert entry.logId.index entry) state.log }
  | .deleteConflictLogsSince logId =>
      { state with
        log := removeKeys state.log
          (state.log.keys.filter fun key => decide (logId.index ≤ key)) }
  | .purgeLogsUpto logId =>
      { log := removeKeys state.log (state.log.keys.filter fun key => decide (key ≤ logId.index))
        lastPurged := some logId }

/-- The records a call appends. -/
def LogCall.records : LogCall Payload → List Record
  | .appendToLog entries => entries.map fun entry => (.append, codec.entry entry)
  | .deleteConflictLogsSince logId => [(.truncate, codec.truncate logId.index)]
  | .purgeLogsUpto logId => [(.purge, codec.purge logId)]

/-- The records of a compacted file, the entries in the order of their indices. -/
def compactRecords (state : LogState Payload) : List Record :=
  state.lastPurged.toList.map (fun logId => (.purge, codec.purge logId)) ++
    state.log.toList.map fun binding => (.append, codec.entry binding.2)

/-- The memory and the file. -/
structure LogWorld (Payload : Type) where
  memory : LogState Payload
  file : Bytes

/-- The file after a call, which `compact` may have replaced. -/
def LogWorld.perform (world : LogWorld Payload) (call : LogCall Payload) (compacted : Bool) :
    LogWorld Payload :=
  let memory := call.remember world.memory
  ⟨memory,
    if compacted then writeRecords crc32 (compactRecords codec memory)
    else world.file ++ writeRecords crc32 (call.records codec)⟩

def LogWorld.opened (file : Option Bytes) : LogWorld Payload :=
  ⟨(openWal crc32 codec file).2.state, (openWal crc32 codec file).1⟩

/-- `crash` falls into the compaction after a call, before or after its rename; what a
restart loads is the file. -/
inductive LogStep (Payload : Type) where
  | call (call : LogCall Payload) (compacts : Bool)
  | crash (call : LogCall Payload) (renamed : Bool)
  | restart

def step (world : LogWorld Payload) : LogStep Payload → Option (LogWorld Payload)
  | .call call compacts => some (world.perform crc32 codec call compacts)
  | .crash call renamed => some (world.perform crc32 codec call renamed)
  | .restart => some (.opened crc32 codec (some world.file))

/-- Every payload that is written fits a record. -/
def Fits (records : List Record) : Prop := ∀ record ∈ records,
    record.2.length ≤ maxPayloadSize

/-- What a step writes fits. -/
def Writes (world : LogWorld Payload) : LogStep Payload → Prop
  | .call call compacts | .crash call compacts =>
      Fits (call.records codec) ∧
        (compacts = true → Fits (compactRecords codec (call.remember world.memory)))
  | .restart => True

/-! ### The two implementations -/

theorem removeKeys_get (log : ExtTreeMap UInt64 (LogEntry Payload)) (keys : List UInt64)
    (key : UInt64) : (removeKeys log keys)[key]? = if key ∈ keys then none else log[key]? := by
  induction keys generalizing log with
  | nil => simp [removeKeys]
  | cons first rest ih =>
      have unfolded : removeKeys log (first :: rest) = removeKeys (log.erase first) rest := rfl
      rw [unfolded, ih, ExtTreeMap.getElem?_erase]
      by_cases same : first = key
      · simp [same]
      · have apart : compare first key ≠ .eq := fun eq => same (Std.LawfulEqOrd.eq_of_compare eq)
        have other : ¬ key = first := fun eq => same eq.symm
        simp [apart, other]

/-- Removing a range key by key is retaining the rest. -/
theorem removeKeys_range (log : ExtTreeMap UInt64 (LogEntry Payload)) (gone : UInt64 → Bool) :
    removeKeys log (log.keys.filter gone) = log.filter fun key _ => !gone key := by
  apply ExtTreeMap.ext_getElem?
  intro key
  rw [removeKeys_get, ExtTreeMap.getElem?_filter']
  by_cases present : key ∈ log
  · cases held : gone key with
    | true => simp [present, held]
    | false =>
        simp only [List.mem_filter, held, Bool.false_eq_true, and_false, if_false, Bool.not_false]
        cases log[key]? <;> rfl
  · have absent : log[key]? = none := ExtTreeMap.getElem?_eq_none present
    simp [absent]

def LogCall.mutations : LogCall Payload → List (Mutation Payload)
  | .appendToLog entries => entries.map .append
  | .deleteConflictLogsSince logId => [.truncate logId.index]
  | .purgeLogsUpto logId => [.purge logId]

theorem remember_mutations (state : LogState Payload) (call : LogCall Payload) :
    call.remember state = call.mutations.foldl Mutation.apply state := by
  cases call with
  | appendToLog entries =>
      simp only [LogCall.remember, LogCall.mutations, List.foldl_map]
      induction entries generalizing state with
      | nil => rfl
      | cons entry entries ih => exact ih ((Mutation.append entry).apply state)
  | deleteConflictLogsSince logId =>
      simp only [LogCall.remember, LogCall.mutations, List.foldl_cons, List.foldl_nil,
        Mutation.apply, removeKeys_range]
      congr 2
      funext key _
      simp [← decide_not, UInt64.not_le]
  | purgeLogsUpto logId =>
      simp only [LogCall.remember, LogCall.mutations, List.foldl_cons, List.foldl_nil,
        Mutation.apply, removeKeys_range]
      congr 2
      funext key _
      simp [← decide_not, UInt64.not_le]

/-- The record of a mutation. -/
def recordOf : Mutation Payload → Record
  | .append entry => (.append, codec.entry entry)
  | .purge logId => (.purge, codec.purge logId)
  | .truncate since => (.truncate, codec.truncate since)

theorem decode_recordOf (mutation : Mutation Payload) :
    decode codec (recordOf codec mutation) = some mutation := by
  cases mutation with
  | append entry => simp [decode, recordOf, codec.read_entry]
  | purge logId => simp [decode, recordOf, codec.read_purge]
  | truncate since => simp [decode, recordOf, codec.read_truncate]

theorem records_mutations (call : LogCall Payload) :
    call.records codec = call.mutations.map (recordOf codec) := by
  cases call with
  | appendToLog entries =>
      simp only [LogCall.records, LogCall.mutations, List.map_map]
      rfl
  | deleteConflictLogsSince logId => rfl
  | purgeLogsUpto logId => rfl

theorem logStateOf_recordOf (mutations : List (Mutation Payload)) (state : LogState Payload) :
    logStateOf codec state (mutations.map (recordOf codec)) =
      mutations.foldl Mutation.apply state := by
  unfold logStateOf
  rw [List.foldl_map]
  simp only [decode_recordOf, Option.map_some, Option.getD_some]

/-- A replay of a call's records does what the call did to the memory. -/
theorem logStateOf_records (call : LogCall Payload) (state : LogState Payload) :
    logStateOf codec state (call.records codec) = call.remember state := by
  rw [records_mutations, logStateOf_recordOf, remember_mutations]

theorem accepted_recordOf {mutations : List (Mutation Payload)}
    (fits : Fits (mutations.map (recordOf codec))) :
    ∀ record ∈ mutations.map (recordOf codec), Accepted codec record := by
  intro record member
  obtain ⟨mutation, _, rfl⟩ := List.mem_map.mp member
  exact ⟨fits _ member, by rw [decode_recordOf]; rfl⟩

/-! ### Compaction -/

/-- Every entry is kept under its own index. -/
def Indexed (state : LogState Payload) : Prop :=
  ∀ (key : UInt64) (entry : LogEntry Payload), state.log[key]? = some entry →
    entry.logId.index = key

theorem indexed_apply {state : LogState Payload} (indexed : Indexed state)
    (mutation : Mutation Payload) : Indexed (mutation.apply state) := by
  intro key entry held
  cases mutation with
  | append new =>
      simp only [Mutation.apply, ExtTreeMap.getElem?_insert] at held
      split at held
      · rename_i same
        cases held
        exact Std.LawfulEqOrd.eq_of_compare same
      · exact indexed key entry held
  | purge logId =>
      simp only [Mutation.apply, ExtTreeMap.getElem?_filter', Option.filter_eq_some_iff] at held
      exact indexed key entry held.1
  | truncate since =>
      simp only [Mutation.apply, ExtTreeMap.getElem?_filter', Option.filter_eq_some_iff] at held
      exact indexed key entry held.1

theorem indexed_empty : Indexed (.empty : LogState Payload) := by
  intro key entry held
  simp [LogState.empty] at held

theorem indexed_mutations {state : LogState Payload} (indexed : Indexed state)
    (mutations : List (Mutation Payload)) : Indexed (mutations.foldl Mutation.apply state) := by
  induction mutations generalizing state with
  | nil => exact indexed
  | cons mutation mutations ih => exact ih (indexed_apply indexed mutation)

/-- By induction on the turns of the replay. -/
theorem indexed_replayLoop (turns : Nat) (result : WalReplayResult Payload) (reader : Bytes)
    (indexed : Indexed result.state) :
    Indexed (replayLoop crc32 codec turns result reader).state := by
  induction turns generalizing result reader with
  | zero => exact indexed
  | succ turns ih =>
      unfold replayLoop
      split
      · split
        · rename_i next applied
          obtain ⟨mutation, _, rfl⟩ := Option.map_eq_some_iff.mp applied
          exact ih _ _ (indexed_apply indexed mutation)
        · exact indexed
      · exact indexed
      · exact indexed

def compactMutations (state : LogState Payload) : List (Mutation Payload) :=
  state.lastPurged.toList.map .purge ++ state.log.toList.map fun binding => .append binding.2

theorem compactRecords_mutations (state : LogState Payload) :
    compactRecords codec state = (compactMutations state).map (recordOf codec) := by
  simp only [compactRecords, compactMutations, List.map_append, List.map_map]
  rfl

/-- Appending entries one by one: the last with a key wins. -/
theorem appended_get (bindings : List (UInt64 × LogEntry Payload)) (state : LogState Payload)
    (key : UInt64) (own : ∀ binding ∈ bindings, binding.2.logId.index = binding.1)
    (distinct : bindings.Pairwise fun first second => first.1 ≠ second.1) :
    ((bindings.map fun binding => Mutation.append binding.2).foldl Mutation.apply state).log[key]? =
      ((bindings.find? fun binding => binding.1 == key).map Prod.snd).or state.log[key]? := by
  induction bindings generalizing state with
  | nil => simp
  | cons binding bindings ih =>
      obtain ⟨apart, distinct⟩ := List.pairwise_cons.mp distinct
      have others := fun other member => own other (List.mem_cons_of_mem binding member)
      rw [List.map_cons, List.foldl_cons, ih _ others distinct]
      simp only [Mutation.apply, ExtTreeMap.getElem?_insert, own binding List.mem_cons_self,
        List.find?_cons]
      by_cases same : binding.1 = key
      · have absent : bindings.find? (fun other => other.1 == key) = none := by
          rw [List.find?_eq_none]
          intro other member equal
          exact apart other member (same.trans (beq_iff_eq.mp equal).symm)
        simp [same, absent, Std.ReflOrd.compare_self]
      · have differ : compare binding.1 key ≠ .eq :=
          fun eq => same (Std.LawfulEqOrd.eq_of_compare eq)
        have other : (binding.1 == key) = false := by simpa using same
        simp [differ, other]

theorem find_binding (log : ExtTreeMap UInt64 (LogEntry Payload)) (key : UInt64) :
    (log.toList.find? fun binding => binding.1 == key).map Prod.snd = log[key]? := by
  cases found : log.toList.find? fun binding => binding.1 == key with
  | none =>
      cases held : log[key]? with
      | none => rfl
      | some entry =>
          have member := ExtTreeMap.mem_toList_iff_getElem?_eq_some.mpr held
          have differs := List.find?_eq_none.mp found _ member
          simp at differs
  | some binding =>
      have matched := List.find?_some found
      have same : binding.1 = key := beq_iff_eq.mp matched
      have member : (binding.1, binding.2) ∈ log.toList := List.mem_of_find?_eq_some found
      rw [← same]
      exact (ExtTreeMap.mem_toList_iff_getElem?_eq_some.mp member).symm

/-- A compacted file replays to the memory it was written from. -/
theorem compactMutations_state (state : LogState Payload) (indexed : Indexed state) :
    (compactMutations state).foldl Mutation.apply .empty = state := by
  have purged : (state.lastPurged.toList.map fun logId => (.purge logId : Mutation Payload)).foldl
      Mutation.apply .empty = ⟨∅, state.lastPurged⟩ := by
    cases state.lastPurged with
    | none => rfl
    | some logId =>
        simp only [Option.toList_some, List.map_cons, List.map_nil, List.foldl_cons, List.foldl_nil,
          Mutation.apply, LogState.empty]
        congr 1
  have own : ∀ binding ∈ state.log.toList, binding.2.logId.index = binding.1 :=
    fun binding member => indexed binding.1 binding.2
      (ExtTreeMap.mem_toList_iff_getElem?_eq_some.mp member)
  have distinct : state.log.toList.Pairwise fun first second => first.1 ≠ second.1 :=
    ExtTreeMap.distinct_keys_toList.imp fun differ same => differ (by simp [same])
  have entries (key : UInt64) :=
    appended_get state.log.toList ⟨∅, state.lastPurged⟩ key own distinct
  have untouched (bindings : List (UInt64 × LogEntry Payload)) (start : LogState Payload) :
      ((bindings.map fun binding => Mutation.append binding.2).foldl Mutation.apply
        start).lastPurged = start.lastPurged := by
    induction bindings generalizing start with
    | nil => rfl
    | cons binding bindings ih => exact ih _
  rw [compactMutations, List.foldl_append, purged]
  have same : ∀ rebuilt : LogState Payload, rebuilt.lastPurged = state.lastPurged →
      (∀ key : UInt64, rebuilt.log[key]? = state.log[key]?) → rebuilt = state := by
    rintro ⟨log, lastPurged⟩ rfl equal
    rw [show log = state.log from ExtTreeMap.ext_getElem? fun key => equal key]
  refine same _ (untouched _ _) fun key => ?_
  rw [entries key, find_binding]
  simp

/-! ### Every run -/

/-- The file replays to the memory, to its last byte. -/
structure Replays (world : LogWorld Payload) : Prop where
  file : replayWal crc32 codec (some world.file) = ⟨world.memory, world.file.length⟩
  indexed : Indexed world.memory

/-- Whatever a file holds, opening it leaves the part that replays. -/
theorem replays_opened (file : Option Bytes) :
    Replays crc32 codec (LogWorld.opened crc32 codec file : LogWorld Payload) := by
  cases file with
  | none => exact ⟨rfl, indexed_empty⟩
  | some bytes =>
      have indexed : Indexed (replayWal crc32 codec (some bytes)).state :=
        indexed_replayLoop crc32 codec _ _ _ indexed_empty
      refine ⟨?_, indexed⟩
      obtain ⟨used, within, valid, continues⟩ := replayRest_continues crc32 codec .empty bytes
      have whole : (replayWal crc32 codec (some bytes)).validLen = used := by
        rw [replayWal_some, valid]
        exact Nat.zero_add used
      have again := continues []
      rw [List.append_nil] at again
      change replayRest crc32 codec .empty (openWal crc32 codec (some bytes)).1 =
        ⟨(replayWal crc32 codec (some bytes)).state,
          (openWal crc32 codec (some bytes)).1.length⟩
      rw [openWal_bytes, whole, again, List.length_take, Nat.min_eq_left within]
      have ended : replayRest crc32 codec (replayRest crc32 codec .empty bytes) [] =
        replayWal crc32 codec (some bytes) := rfl
      rw [ended, ← whole]

/-- A file that replays to its last byte goes on with what is appended. -/
theorem replayWal_append {file : Bytes} {state : LogState Payload} (rest : Bytes)
    (replayed : replayWal crc32 codec (some file) = ⟨state, file.length⟩) :
    replayWal crc32 codec (some (file ++ rest)) =
      replayRest crc32 codec ⟨state, file.length⟩ rest := by
  obtain ⟨used, within, valid, continues⟩ := replayRest_continues crc32 codec .empty file
  rw [← replayWal_some, replayed] at valid
  have all : used = file.length := by
    simpa [WalReplayResult.empty] using valid.symm
  have goes := continues rest
  rw [all, List.take_length, ← replayWal_some, ← replayWal_some, replayed] at goes
  exact goes

theorem replays_perform {world : LogWorld Payload} (replays : Replays crc32 codec world)
    (call : LogCall Payload) (compacts : Bool) (fits : Fits (call.records codec))
    (compactFits : compacts = true → Fits (compactRecords codec (call.remember world.memory))) :
    Replays crc32 codec (world.perform crc32 codec call compacts) := by
  have indexed : Indexed (call.remember world.memory) := by
    rw [remember_mutations]
    exact indexed_mutations replays.indexed _
  refine ⟨?_, indexed⟩
  cases compacts with
  | false =>
      have accepted := fits
      rw [records_mutations] at accepted
      have written := replayRest_written crc32 codec _ (accepted_recordOf codec accepted)
        ⟨world.memory, world.file.length⟩ []
      rw [List.append_nil, ← records_mutations, logStateOf_records] at written
      change replayWal crc32 codec (some (world.file ++ writeRecords crc32 (call.records codec))) =
        ⟨call.remember world.memory,
          (world.file ++ writeRecords crc32 (call.records codec)).length⟩
      rw [replayWal_append crc32 codec _ replays.file, written, List.length_append]
      rfl
  | true =>
      have accepted := compactFits rfl
      rw [compactRecords_mutations] at accepted
      have written := replayRest_written crc32 codec _ (accepted_recordOf codec accepted) .empty []
      rw [List.append_nil, logStateOf_recordOf, ← compactRecords_mutations] at written
      change replayWal crc32 codec
          (some (writeRecords crc32 (compactRecords codec (call.remember world.memory)))) =
        ⟨call.remember world.memory,
          (writeRecords crc32 (compactRecords codec (call.remember world.memory))).length⟩
      rw [replayWal_some, written]
      simp only [WalReplayResult.empty, Nat.zero_add, compactMutations_state _ indexed]
      rfl

theorem replays_step {world after : LogWorld Payload} (replays : Replays crc32 codec world)
    (act : LogStep Payload) (writes : Writes codec world act)
    (stepped : step crc32 codec world act = some after) : Replays crc32 codec after := by
  cases act with
  | call call compacts =>
      cases stepped
      exact replays_perform crc32 codec replays call compacts writes.1 writes.2
  | crash call renamed =>
      cases stepped
      exact replays_perform crc32 codec replays call renamed writes.1 writes.2
  | restart =>
      cases stepped
      exact replays_opened crc32 codec _

/-- In every run of log calls, from any file that was there, with compactions and
crashes around their rename, the file replays to exactly the log and the last purge
in memory. -/
theorem wal_replays_memory (file : Option Bytes) (world : LogWorld Payload)
    (path : Reaches (step crc32 codec) (Writes codec) (LogWorld.opened crc32 codec file) world) :
    (replayWal crc32 codec (some world.file)).state = world.memory := by
  have replays : Replays crc32 codec world :=
    reaches_invariant (Replays crc32 codec) (replays_opened crc32 codec file)
      (fun _ act _ kept writes stepped => replays_step crc32 codec kept act writes stepped) path
  rw [replays.file]

theorem fits_blank (mutations : List (Mutation Unit)) :
    Fits (mutations.map (recordOf blankBincode)) := by
  intro record member
  obtain ⟨mutation, _, rfl⟩ := List.mem_map.mp member
  cases mutation with
  | append entry => simp [recordOf, blankBincode, logIdBytes, u64Bytes, maxPayloadSize]
  | purge logId => simp [recordOf, blankBincode, logIdBytes, u64Bytes, maxPayloadSize]
  | truncate since => simp [recordOf, blankBincode, u64Bytes, maxPayloadSize]

theorem writes_blank (world : LogWorld Unit) (act : LogStep Unit) :
    Writes blankBincode world act := by
  cases act with
  | call call compacts =>
      refine ⟨?_, fun _ => ?_⟩
      · rw [records_mutations]
        exact fits_blank _
      · rw [compactRecords_mutations]
        exact fits_blank _
  | crash call renamed =>
      refine ⟨?_, fun _ => ?_⟩
      · rw [records_mutations]
        exact fits_blank _
      · rw [compactRecords_mutations]
        exact fits_blank _
  | restart => trivial

/-- Two entries are appended, the first is purged, and the node crashes after the rename
of the compaction. -/
def purgedAndCrashed : LogWorld Unit :=
  ((LogWorld.opened crc32fast blankBincode none).perform crc32fast blankBincode
    (.appendToLog [⟨⟨1, 1, 1⟩, ()⟩, ⟨⟨1, 1, 2⟩, ()⟩]) false).perform crc32fast
      blankBincode
      (.purgeLogsUpto ⟨1, 1, 1⟩) true

theorem wal_replays_memory_purgedAndCrashed :
    (replayWal crc32fast blankBincode (some purgedAndCrashed.file)).state =
      purgedAndCrashed.memory := by
  refine wal_replays_memory crc32fast blankBincode none purgedAndCrashed ?_
  refine .next (.crash (.purgeLogsUpto ⟨1, 1, 1⟩) true) ?_ (writes_blank _ _) rfl
  exact .next (.call (.appendToLog [⟨⟨1, 1, 1⟩, ()⟩, ⟨⟨1, 1, 2⟩, ()⟩]) false) .refl
    (writes_blank _ _) rfl

end PgHa.LogStore
