import PgHa.LogStore
import PgHa.RaftStore

/-!
What a storage call of `MemStore` leaves on disk when file operations fail, from
`new_persistent` on any directory. A JSON file is written to a temporary file and
renamed, so a failed write leaves the old one. The writer of the log buffers: a failed
write or sync leaves some of the bytes in the file, some in the buffer and loses the
rest. A compaction that fails after its rename leaves the writer on the file that the
rename unlinked.
-/

namespace PgHa.DurableStore

open Std (ExtTreeMap)
open Transition Wal LogStore RaftStore

variable {Members Vote Payload : Type} (crc32 : Bytes → UInt32) (codec : Bincode Payload)

structure HardState (Vote : Type) where
  vote : Option Vote
  committed : Option LogId

/-- `MemStoreInner`. -/
structure Memory (Members Vote Payload : Type) where
  inner : RaftStore.Inner Members (HardState Vote)
  log : LogState Payload

/-- `linked` while the file the writer appends to is the one named `raft_log.wal`. -/
structure Writer where
  linked : Bool
  own : Bytes
  buffer : Bytes
  fileSize : Nat

structure Directory (Members Vote : Type) where
  files : Disk Members (HardState Vote)
  wal : Option Bytes

structure Store (Members Vote Payload : Type) where
  memory : Memory Members Vote Payload
  writer : Option Writer
  directory : Directory Members Vote

/-! ### Start-up -/

/-- A read of the log fails after so many bytes, or a file operation of
`WalWriter::open` fails, before or after the torn tail was cut off. -/
inductive WalOpening where
  | readable (bytes : Nat)
  | fails (truncated : Bool)

structure StartFaults where
  hardState : Bool
  stateMachine : Bool
  membership : Bool
  snapshot : Bool
  wal : WalOpening

/-- A file that cannot be read counts as missing. -/
def readable (faults : StartFaults) (files : Disk Members (HardState Vote)) :
    Disk Members (HardState Vote) :=
  { hardState := if faults.hardState then none else files.hardState
    stateMachine := if faults.stateMachine then none else files.stateMachine
    membership := if faults.membership then none else files.membership
    snapshot := if faults.snapshot then none else files.snapshot }

/-- `MemStore::new_persistent`. -/
def newPersistent (faults : StartFaults) (directory : Directory Members Vote) :
    Store Members Vote Payload :=
  let inner := RaftStore.newPersistent ⟨none, none⟩ (readable faults directory.files)
  match faults.wal with
  | .readable bytes =>
      let opened := openWal crc32 codec (directory.wal.map (List.take bytes))
      { memory := ⟨inner, opened.2.state⟩
        writer := some ⟨true, opened.1, [], opened.1.length⟩
        directory := { directory with wal := some opened.1 } }
  | .fails truncated =>
      { memory := ⟨inner, .empty⟩
        writer := none
        directory :=
          if truncated then
            { directory with
              wal := directory.wal.map fun _ => (openWal crc32 codec directory.wal).1 }
          else directory }

/-- Every file operation succeeds. -/
def noFaults (directory : Directory Members Vote) : StartFaults :=
  ⟨false, false, false, false, .readable (directory.wal.getD []).length⟩

/-- What a store created now contains. -/
def reload (directory : Directory Members Vote) : Memory Members Vote Payload :=
  (newPersistent crc32 codec (noFaults directory) directory).memory

/-! ### Calls -/

inductive Call (Members Vote Payload : Type) where
  | saveVote (vote : Vote)
  | saveCommitted (committed : Option LogId)
  | log (call : LogCall Payload)
  | applyToStateMachine (clock : Nat) (entries : List (Nat × RaftStore.Payload Members))
  | installSnapshot (snapshot : StoredSnapshot Members)
  | buildSnapshot

/-- What a call does to the memory, before any file is written. -/
def Call.remember (memory : Memory Members Vote Payload) :
    Call Members Vote Payload → Memory Members Vote Payload
  | .saveVote vote =>
      { memory with
        inner := { memory.inner with
          hardState := { memory.inner.hardState with vote := some vote } } }
  | .saveCommitted committed =>
      { memory with
        inner :=
          { memory.inner with
            hardState := { memory.inner.hardState with committed := committed } } }
  | .log call => { memory with log := call.remember memory.log }
  | .applyToStateMachine clock entries =>
      { memory with inner := RaftStore.applyToStateMachine clock memory.inner entries }
  | .installSnapshot snapshot =>
      { memory with inner := RaftStore.installSnapshot memory.inner snapshot }
  | .buildSnapshot =>
      { memory with
        inner := { memory.inner with snapshot := some (RaftStore.buildSnapshot memory.inner) } }

/-- The JSON files a call writes, in its order. -/
def Call.files : Call Members Vote Payload → List File
  | .saveVote _ | .saveCommitted _ => [.hardState]
  | .log _ => []
  | .applyToStateMachine _ _ => [.stateMachine, .membership]
  | .installSnapshot _ => [.stateMachine, .membership, .snapshot, .hardState]
  | .buildSnapshot => [.snapshot]

/-- `write`: of the bytes that were to be written so many entered the writer, of its
buffer so many reached the file, and the size it tracks grew by so much. `compaction`:
before or after the rename. -/
inductive WalFault where
  | none
  | write (entered reached counted : Nat)
  | compaction (renamed : Bool)
  deriving DecidableEq

/-- `json` is how many of the JSON files are written if one of them fails. -/
structure Faults where
  json : Option Nat
  wal : WalFault

def Writer.appends (writer : Writer) (bytes : Bytes) (reached counted : Nat) : Writer :=
  let stream := writer.buffer ++ bytes
  { writer with
    own := writer.own ++ stream.take reached
    buffer := stream.drop reached
    fileSize := writer.fileSize + counted }

/-- The file named `raft_log.wal` after the writer wrote to its own. -/
def Directory.wrote (directory : Directory Members Vote) (writer : Writer) :
    Directory Members Vote :=
  if writer.linked then { directory with wal := some writer.own } else directory

/-- `wal_append_entries`, `wal_truncate_since` and `wal_purge_upto`; true is `Ok`. -/
def Store.writeLog (store : Store Members Vote Payload) (writer : Writer)
    (call : LogCall Payload) (fault : WalFault) : Store Members Vote Payload × Bool :=
  let bytes := writeRecords crc32 (call.records codec)
  let compacted := writeRecords crc32 (compactRecords codec store.memory.log)
  let failed (entered reached counted : Nat) : Store Members Vote Payload × Bool :=
    let written := writer.appends (bytes.take entered) reached counted
    ({ store with writer := some written, directory := store.directory.wrote written }, false)
  let written := writer.appends bytes (writer.buffer ++ bytes).length bytes.length
  let directory := store.directory.wrote written
  match fault with
  | .write entered reached counted => failed entered reached counted
  | .none =>
      if compactionThreshold < written.fileSize then
        ({ store with
          writer := some ⟨true, compacted, [], compacted.length⟩
          directory := { directory with wal := some compacted } }, true)
      else ({ store with writer := some written, directory := directory }, true)
  | .compaction renamed =>
      if compactionThreshold < written.fileSize then
        if renamed then
          ({ store with
            writer := some { written with linked := false }
            directory := { directory with wal := some compacted } }, false)
        else ({ store with writer := some written, directory := directory }, false)
      else ({ store with writer := some written, directory := directory }, true)

/-- `persist_hard_state`, `persist_state_machine` and the others, up to the one that fails. -/
def Store.writeFiles (store : Store Members Vote Payload) (files : List File)
    (fault : Option Nat) : Store Members Vote Payload × Bool :=
  let written := match fault with
    | none => files
    | some count => files.take count
  ({ store with
    directory :=
      { store.directory with
        files := persistAll store.memory.inner store.directory.files written } }, fault.isNone)

/-- A storage call; true is `Ok`. Without a writer the log is not written. -/
def Store.perform (store : Store Members Vote Payload) (call : Call Members Vote Payload)
    (faults : Faults) : Store Members Vote Payload × Bool :=
  let store := { store with memory := call.remember store.memory }
  match call with
  | .log call =>
      match store.writer with
      | none => (store, true)
      | some writer => store.writeLog crc32 codec writer call faults.wal
  | call => store.writeFiles call.files faults.json

/-! ### What was acknowledged -/

/-- The parts of a store that a call may write. -/
inductive Part where
  | vote
  | committed
  | entry (index : UInt64)
  | lastPurged
  | stateMachine
  | lastApplied
  | snapshot

/-- The parts of the log that a record writes. -/
def Mutation.touches : Mutation Payload → Part → Bool
  | .append entry, .entry index => entry.logId.index == index
  | .truncate since, .entry index => decide (since ≤ index)
  | .purge logId, .entry index => decide (index ≤ logId.index)
  | .purge _, .lastPurged => true
  | _, _ => false

def LogCall.touches (call : LogCall Payload) (part : Part) : Bool :=
  call.mutations.any fun mutation => Mutation.touches mutation part

def Call.touches : Call Members Vote Payload → Part → Bool
  | .saveVote _, .vote => true
  | .saveCommitted _, .committed => true
  | .log call, part => LogCall.touches call part
  | .applyToStateMachine _ _, .stateMachine | .applyToStateMachine _ _, .lastApplied => true
  | .installSnapshot _, .stateMachine | .installSnapshot _, .lastApplied
  | .installSnapshot _, .snapshot => true
  | .buildSnapshot, .snapshot => true
  | _, _ => false

/-- Two logs agree on a part. -/
def LogAgree (part : Part) (first second : LogState Payload) : Prop :=
  match part with
  | .entry index => first.log[index]? = second.log[index]?
  | .lastPurged => first.lastPurged = second.lastPurged
  | .vote | .committed | .stateMachine | .lastApplied | .snapshot => True

def InnerAgree (part : Part) (first second : RaftStore.Inner Members (HardState Vote)) : Prop :=
  match part with
  | .vote => first.hardState.vote = second.hardState.vote
  | .committed => first.hardState.committed = second.hardState.committed
  | .stateMachine => first.stateMachine = second.stateMachine
  | .lastApplied =>
      first.lastAppliedLog = second.lastAppliedLog ∧ first.lastMembership = second.lastMembership
  | .snapshot => first.snapshot = second.snapshot
  | .entry _ | .lastPurged => True

def Agree (part : Part) (first second : Memory Members Vote Payload) : Prop :=
  InnerAgree part first.inner second.inner ∧ LogAgree part first.log second.log

/-- What a call that fails may have left: of a batch of log entries, the first ones. -/
def Call.partly (memory : Memory Members Vote Payload) :
    Call Members Vote Payload → List (Memory Members Vote Payload)
  | .log call =>
      (List.range (call.mutations.length + 1)).map fun count =>
        { memory with log := (call.mutations.take count).foldl Mutation.apply memory.log }
  | call => [call.remember memory]

/-- For every part that some call wrote and returned `Ok`: what the last such call made
of it, and what the calls that failed since then may have made of it. -/
abbrev Promises (Members Vote Payload : Type) := Part →
    Option (List (Memory Members Vote Payload))

def promise (promised : Promises Members Vote Payload) (memory : Memory Members Vote Payload)
    (call : Call Members Vote Payload) (ok : Bool) : Promises Members Vote Payload := fun part =>
  if call.touches part then
    if ok then some [call.remember memory] else (promised part).map (call.partly memory ++ ·)
  else promised part

structure World (Members Vote Payload : Type) where
  store : Store Members Vote Payload
  promised : Promises Members Vote Payload

def World.start (faults : StartFaults) (directory : Directory Members Vote) :
    World Members Vote Payload :=
  ⟨newPersistent crc32 codec faults directory, fun _ => none⟩

def World.after (world : World Members Vote Payload) (act : Call Members Vote Payload × Faults) :
    World Members Vote Payload :=
  let performed := world.store.perform crc32 codec act.1 act.2
  ⟨performed.1, promise world.promised world.store.memory act.1 performed.2⟩

def step (world : World Members Vote Payload) (act : Call Members Vote Payload × Faults) :
    Option (World Members Vote Payload) :=
  some (world.after crc32 codec act)

/-- A store that is created now has the effect of every call that returned `Ok`, up to
what later calls did to the same part. -/
def Durable (world : World Members Vote Payload) : Prop :=
  ∀ part kept, world.promised part = some kept →
    ∃ memory ∈ kept, Agree part (reload crc32 codec world.store.directory) memory

/-! ### When the promises are kept -/

/-- The file and the buffer of the writer are records to the last byte. -/
def Whole (writer : Writer) : Prop :=
  (replayWal crc32 codec (some (writer.own ++ writer.buffer))).validLen =
    (writer.own ++ writer.buffer).length

/-- A torn record is not completed by the bytes that follow it. -/
def StaysTorn (writer : Writer) (bytes : Bytes) : Prop :=
  ∀ count, replayWal crc32 codec (some (writer.own ++ writer.buffer ++ bytes.take count)) =
    replayWal crc32 codec (some (writer.own ++ writer.buffer))

def compactionDue (writer : Writer) (bytes : Bytes) : Bool :=
  decide (compactionThreshold < writer.fileSize + bytes.length)

/-- The call returns `Ok`. -/
def WalFault.acknowledges (due : Bool) : WalFault → Bool
  | .none => true
  | .write _ _ _ => false
  | .compaction _ => !due

/-- A log call finds the writer open and whole records behind it; or the compaction that
is due replaces them; or the call fails. -/
def MeetsLog (memory : Memory Members Vote Payload) (writer : Option Writer)
    (call : LogCall Payload) (fault : WalFault) : Prop :=
  ∃ opened, writer = some opened ∧
    let bytes := writeRecords crc32 (call.records codec)
    let due := compactionDue opened bytes
    (Whole crc32 codec opened ∨ opened.linked = false ∨ (due = true ∧ fault = .none) ∨
      (fault.acknowledges due = false ∧ StaysTorn crc32 codec opened bytes)) ∧
    Fits (call.records codec) ∧
    (due = true → Fits (compactRecords codec (call.remember memory.log)))

def Meets (world : World Members Vote Payload) (act : Call Members Vote Payload × Faults) : Prop :=
  match act.1 with
  | .log call => MeetsLog crc32 codec world.store.memory world.store.writer call act.2.wal
  | _ => True

/-! ### One record -/

theorem LogAgree.refl (part : Part) (log : LogState Payload) : LogAgree part log log := by
  cases part <;> simp [LogAgree]

theorem LogAgree.trans {part : Part} {first second third : LogState Payload}
    (left : LogAgree part first second) (right : LogAgree part second third) :
    LogAgree part first third := by
  cases part with
  | entry index => exact Eq.trans left right
  | lastPurged => exact Eq.trans left right
  | vote | committed | stateMachine | lastApplied | snapshot => trivial

theorem untouched_apply {mutation : Mutation Payload} {part : Part}
    (untouched : Mutation.touches mutation part = false) (log : LogState Payload) :
    LogAgree part (mutation.apply log) log := by
  cases part with
  | entry index =>
      cases mutation with
      | append entry =>
          have other : compare entry.logId.index index ≠ .eq := by
            intro same
            simp [Mutation.touches, Std.LawfulEqOrd.eq_of_compare same] at untouched
          simp [LogAgree, Mutation.apply, ExtTreeMap.getElem?_insert, other]
      | purge logId =>
          have kept : logId.index < index := by simpa [Mutation.touches] using untouched
          simp only [LogAgree, Mutation.apply, ExtTreeMap.getElem?_filter', kept, decide_true]
          cases log.log[index]? <;> rfl
      | truncate since =>
          have kept : index < since := by simpa [Mutation.touches] using untouched
          simp only [LogAgree, Mutation.apply, ExtTreeMap.getElem?_filter', kept, decide_true]
          cases log.log[index]? <;> rfl
  | lastPurged =>
      cases mutation with
      | append entry => rfl
      | purge logId => simp [Mutation.touches] at untouched
      | truncate since => rfl
  | vote | committed | stateMachine | lastApplied | snapshot => trivial

/-- A part after a record is what the record says or what the part was. -/
theorem agree_apply {mutation : Mutation Payload} {part : Part} {first second : LogState Payload}
    (before : Mutation.touches mutation part = true ∨ LogAgree part first second) :
    LogAgree part (mutation.apply first) (mutation.apply second) := by
  cases part with
  | entry index =>
      cases mutation with
      | append entry =>
          simp only [LogAgree, Mutation.apply, ExtTreeMap.getElem?_insert]
          rcases before with touched | same
          · have same : entry.logId.index = index := by simpa [Mutation.touches] using touched
            simp [same]
          · rw [show first.log[index]? = second.log[index]? from same]
      | purge logId =>
          simp only [LogAgree, Mutation.apply, ExtTreeMap.getElem?_filter']
          rcases before with touched | same
          · have gone : ¬ logId.index < index := by simpa [Mutation.touches] using touched
            simp [gone]
          · rw [show first.log[index]? = second.log[index]? from same]
      | truncate since =>
          simp only [LogAgree, Mutation.apply, ExtTreeMap.getElem?_filter']
          rcases before with touched | same
          · have gone : ¬ index < since := by simpa [Mutation.touches] using touched
            simp [gone]
          · rw [show first.log[index]? = second.log[index]? from same]
  | lastPurged =>
      cases mutation with
      | append entry => exact before.resolve_left (by simp [Mutation.touches])
      | purge logId => rfl
      | truncate since => exact before.resolve_left (by simp [Mutation.touches])
  | vote | committed | stateMachine | lastApplied | snapshot => trivial

theorem untouched_foldl {mutations : List (Mutation Payload)} {part : Part}
    (untouched : mutations.any (fun mutation => Mutation.touches mutation part) = false)
    (log : LogState Payload) : LogAgree part (mutations.foldl Mutation.apply log) log := by
  induction mutations generalizing log with
  | nil => exact .refl part log
  | cons mutation mutations ih =>
      simp only [List.any_cons, Bool.or_eq_false_iff] at untouched
      exact (ih untouched.2 _).trans (untouched_apply untouched.1 log)

theorem agree_foldl {mutations : List (Mutation Payload)} {part : Part}
    {first second : LogState Payload}
    (before : mutations.any (fun mutation => Mutation.touches mutation part) = true ∨
      LogAgree part first second) :
    LogAgree part (mutations.foldl Mutation.apply first)
      (mutations.foldl Mutation.apply second) := by
  induction mutations generalizing first second with
  | nil => exact before.resolve_left (by simp)
  | cons mutation mutations ih =>
      apply ih
      simp only [List.any_cons, Bool.or_eq_true] at before
      rcases before with (here | later) | same
      · exact Or.inr (agree_apply (Or.inl here))
      · exact Or.inl later
      · exact Or.inr (agree_apply (Or.inr same))

/-! ### Promises that a log and the JSON files keep -/

/-- Every promise is kept by a memory that agrees. -/
def Held (promised : Promises Members Vote Payload)
    (agrees : Part → Memory Members Vote Payload → Prop) : Prop :=
  ∀ part kept, promised part = some kept → ∃ memory ∈ kept, agrees part memory

def LogHeld (promised : Promises Members Vote Payload) (log : LogState Payload) : Prop :=
  Held promised fun part memory => LogAgree part log memory.log

def InnerHeld (promised : Promises Members Vote Payload)
    (inner : RaftStore.Inner Members (HardState Vote)) : Prop :=
  Held promised fun part memory => InnerAgree part inner memory.inner

/-- A call makes no difference where the parts it touches agree with anything. -/
theorem held_frame {promised : Promises Members Vote Payload}
    {memory : Memory Members Vote Payload} {call : Call Members Vote Payload} {ok : Bool}
    {agrees : Part → Memory Members Vote Payload → Prop} (held : Held promised agrees)
    (free : ∀ part, call.touches part = true → ∀ other, agrees part other) :
    Held (promise promised memory call ok) agrees := by
  intro part kept here
  cases touched : call.touches part with
  | false =>
      simp only [promise, touched, Bool.false_eq_true, if_false] at here
      exact held part kept here
  | true =>
      cases ok with
      | true =>
          simp only [promise, touched, if_true, Option.some.injEq] at here
          subst kept
          exact ⟨_, List.mem_singleton_self _, free part touched _⟩
      | false =>
          simp only [promise, touched, if_true, Bool.false_eq_true, if_false,
            Option.map_eq_some_iff] at here
          obtain ⟨earlier, promisedHere, rfl⟩ := here
          obtain ⟨old, member, agree⟩ := held part earlier promisedHere
          exact ⟨old, List.mem_append_right _ member, agree⟩

/-- A log that kept the promises and takes the first records of a call, all of them if
the call returns `Ok`. -/
theorem logHeld_records {promised : Promises Members Vote Payload}
    {memory : Memory Members Vote Payload} {call : LogCall Payload} {ok : Bool}
    {log : LogState Payload} (count : Nat) (held : LogHeld promised log)
    (all : ok = true → call.mutations.length ≤ count) :
    LogHeld (promise promised memory (.log call) ok)
      ((call.mutations.take count).foldl Mutation.apply log) := by
  intro part kept here
  cases reached : (call.mutations.take count).any fun mutation =>
    Mutation.touches mutation part with
  | true =>
      have touched : (Call.log call : Call Members Vote Payload).touches part = true := by
        obtain ⟨mutation, member, touches⟩ := List.any_eq_true.mp reached
        exact List.any_eq_true.mpr ⟨mutation, List.mem_of_mem_take member, touches⟩
      cases ok with
      | true =>
          simp only [promise, touched, if_true, Option.some.injEq] at here
          subst kept
          refine ⟨_, List.mem_singleton_self _, ?_⟩
          simp only [Call.remember, remember_mutations]
          rw [List.take_of_length_le (all rfl)] at reached ⊢
          exact agree_foldl (Or.inl reached)
      | false =>
          simp only [promise, touched, if_true, Bool.false_eq_true, if_false,
            Option.map_eq_some_iff] at here
          obtain ⟨earlier, _, rfl⟩ := here
          refine ⟨{ memory with
            log := (call.mutations.take count).foldl Mutation.apply memory.log }, ?_, ?_⟩
          · refine List.mem_append_left _
              (List.mem_map.mpr ⟨min count call.mutations.length, ?_, ?_⟩)
            · exact List.mem_range.mpr (by omega)
            · rw [List.take_eq_take_min (i := count)]
          · exact agree_foldl (Or.inl reached)
  | false =>
      have unchanged := untouched_foldl reached log
      cases touched : (Call.log call : Call Members Vote Payload).touches part with
      | false =>
          simp only [promise, touched, Bool.false_eq_true, if_false] at here
          obtain ⟨old, member, agree⟩ := held part kept here
          exact ⟨old, member, unchanged.trans agree⟩
      | true =>
          cases ok with
          | true =>
              rw [List.take_of_length_le (all rfl)] at reached
              exact absurd (touched.symm.trans reached) (by decide)
          | false =>
              simp only [promise, touched, if_true, Bool.false_eq_true, if_false,
                Option.map_eq_some_iff] at here
              obtain ⟨earlier, promisedHere, rfl⟩ := here
              obtain ⟨old, member, agree⟩ := held part earlier promisedHere
              exact ⟨old, List.mem_append_right _ member, unchanged.trans agree⟩

/-- A call that writes no part of the log. -/
def Call.json : Call Members Vote Payload → Bool
  | .log _ => false
  | _ => true

/-- A call that writes JSON files touches no part of the log. -/
theorem logHeld_json {promised : Promises Members Vote Payload}
    {memory : Memory Members Vote Payload} {call : Call Members Vote Payload} {ok : Bool}
    {log : LogState Payload} (json : call.json = true) (held : LogHeld promised log) :
    LogHeld (promise promised memory call ok) log := by
  refine held_frame held fun part touched other => ?_
  cases call with
  | log call => cases json
  | saveVote vote => cases part <;> trivial
  | saveCommitted committed => cases part <;> trivial
  | applyToStateMachine clock entries => cases part <;> trivial
  | installSnapshot snapshot => cases part <;> trivial
  | buildSnapshot => cases part <;> trivial

theorem InnerAgree.refl (part : Part) (inner : RaftStore.Inner Members (HardState Vote)) :
    InnerAgree part inner inner := by
  cases part <;> simp [InnerAgree]

theorem InnerAgree.trans {part : Part}
    {first second third : RaftStore.Inner Members (HardState Vote)}
    (left : InnerAgree part first second) (right : InnerAgree part second third) :
    InnerAgree part first third := by
  cases part with
  | lastApplied => exact ⟨left.1.trans right.1, left.2.trans right.2⟩
  | vote | committed | stateMachine | snapshot => exact Eq.trans left right
  | entry _ | lastPurged => trivial

theorem applyToStateMachine_frame (clock : Nat) (inner : RaftStore.Inner Members (HardState Vote))
    (entries : List (Nat × RaftStore.Payload Members)) :
    (RaftStore.applyToStateMachine clock inner entries).hardState = inner.hardState ∧
      (RaftStore.applyToStateMachine clock inner entries).snapshot = inner.snapshot := by
  induction entries generalizing inner with
  | nil => exact ⟨rfl, rfl⟩
  | cons entry rest ih =>
      obtain ⟨index, payload⟩ := entry
      have one : (applyEntry clock inner (index, payload)).hardState = inner.hardState ∧
          (applyEntry clock inner (index, payload)).snapshot = inner.snapshot := by
        cases payload <;> exact ⟨rfl, rfl⟩
      have later := ih (applyEntry clock inner (index, payload))
      exact ⟨later.1.trans one.1, later.2.trans one.2⟩

/-- A call leaves the parts it does not touch as they were in the memory. -/
theorem untouched_remember {call : Call Members Vote Payload} {part : Part}
    (untouched : call.touches part = false) (memory : Memory Members Vote Payload) :
    InnerAgree part (call.remember memory).inner memory.inner := by
  cases call with
  | saveVote vote => cases part <;> trivial
  | saveCommitted committed => cases part <;> trivial
  | log call => exact .refl _ _
  | applyToStateMachine clock entries =>
      obtain ⟨hardState, snapshot⟩ := applyToStateMachine_frame clock memory.inner entries
      cases part with
      | vote => exact congrArg HardState.vote hardState
      | committed => exact congrArg HardState.committed hardState
      | snapshot => exact snapshot
      | entry _ | lastPurged => trivial
      | stateMachine | lastApplied => cases untouched
  | installSnapshot snapshot => cases part <;> trivial
  | buildSnapshot => cases part <;> trivial

/-- What the JSON files load to. -/
def loaded (disk : Disk Members (HardState Vote)) : RaftStore.Inner Members (HardState Vote) :=
  RaftStore.newPersistent ⟨none, none⟩ disk

/-- A part of the JSON files after one was written comes from the memory or from the
files before. -/
theorem persist_part (inner : RaftStore.Inner Members (HardState Vote))
    (disk : Disk Members (HardState Vote))
    (file : File) (part : Part) :
    InnerAgree part (loaded (persist inner disk file)) inner ∨
      InnerAgree part (loaded (persist inner disk file)) (loaded disk) := by
  cases file with
  | stateMachine =>
      cases part with
      | stateMachine => exact Or.inl rfl
      | _ => exact Or.inr (by trivial)
  | membership =>
      cases part with
      | lastApplied => exact Or.inl ⟨rfl, rfl⟩
      | _ => exact Or.inr (by trivial)
  | snapshot =>
      cases taken : inner.snapshot with
      | none => exact Or.inr (by simp only [persist, taken]; exact .refl _ _)
      | some snapshot =>
          simp only [persist, taken]
          cases part with
          | snapshot => exact Or.inl taken.symm
          | _ => exact Or.inr (by trivial)
  | hardState =>
      cases part with
      | vote | committed => exact Or.inl rfl
      | _ => exact Or.inr (by trivial)

/-- By induction on the files that are written. -/
theorem persistAll_part (inner : RaftStore.Inner Members (HardState Vote))
    (disk : Disk Members (HardState Vote)) (files : List File) (part : Part) :
    InnerAgree part (loaded (persistAll inner disk files)) inner ∨
      InnerAgree part (loaded (persistAll inner disk files)) (loaded disk) := by
  induction files generalizing disk with
  | nil => exact Or.inr (.refl _ _)
  | cons file files ih =>
      rcases ih (persist inner disk file) with new | same
      · exact Or.inl new
      · exact (persist_part inner disk file part).imp same.trans same.trans

/-- A call that returns `Ok` wrote every file of the parts it touches. -/
theorem touched_persisted {call : Call Members Vote Payload} {part : Part}
    (json : call.json = true) (touched : call.touches part = true)
    (memory : Memory Members Vote Payload) (disk : Disk Members (HardState Vote)) :
    InnerAgree part (loaded (persistAll (call.remember memory).inner disk call.files))
      (call.remember memory).inner := by
  cases call with
  | log call => cases json
  | saveVote vote => cases part <;> trivial
  | saveCommitted committed => cases part <;> trivial
  | applyToStateMachine clock entries => cases part <;> trivial
  | installSnapshot snapshot => cases part <;> trivial
  | buildSnapshot => cases part <;> trivial

/-- What a call makes of the memory or of the files: each part is the new one, or the old
one if the call failed or did not touch it. -/
theorem innerHeld_call {promised : Promises Members Vote Payload}
    {memory : Memory Members Vote Payload} {call : Call Members Vote Payload} {ok : Bool}
    {old inner : RaftStore.Inner Members (HardState Vote)} (json : call.json = true)
    (remembered : InnerHeld promised memory.inner) (held : InnerHeld promised old)
    (source : ∀ part, InnerAgree part inner (call.remember memory).inner ∨
      InnerAgree part inner old ∧ (ok = true → call.touches part = false)) :
    InnerHeld (promise promised memory call ok) inner := by
  intro part kept here
  cases touched : call.touches part with
  | false =>
      simp only [promise, touched, Bool.false_eq_true, if_false] at here
      rcases source part with new | ⟨same, _⟩
      · obtain ⟨candidate, member, agree⟩ := remembered part kept here
        exact ⟨candidate, member, (new.trans (untouched_remember touched memory)).trans agree⟩
      · obtain ⟨candidate, member, agree⟩ := held part kept here
        exact ⟨candidate, member, same.trans agree⟩
  | true =>
      cases ok with
      | true =>
          simp only [promise, touched, if_true, Option.some.injEq] at here
          subst kept
          rcases source part with new | ⟨_, untouched⟩
          · exact ⟨_, List.mem_singleton_self _, new⟩
          · exact absurd (touched.symm.trans (untouched rfl)) (by decide)
      | false =>
          simp only [promise, touched, if_true, Bool.false_eq_true, if_false,
            Option.map_eq_some_iff] at here
          obtain ⟨earlier, promisedHere, rfl⟩ := here
          rcases source part with new | ⟨same, _⟩
          · have partly : call.partly memory = [call.remember memory] := by
              cases call <;> first | rfl | cases json
            exact ⟨call.remember memory, List.mem_append_left _ (by simp [partly]), new⟩
          · obtain ⟨candidate, member, agree⟩ := held part earlier promisedHere
            exact ⟨candidate, List.mem_append_right _ member, same.trans agree⟩

/-- A log call touches no part of the JSON files. -/
theorem innerHeld_log {promised : Promises Members Vote Payload}
    {memory : Memory Members Vote Payload} {call : LogCall Payload} {ok : Bool}
    {inner : RaftStore.Inner Members (HardState Vote)} (held : InnerHeld promised inner) :
    InnerHeld (promise promised memory (.log call) ok) inner := by
  refine held_frame held fun part touched other => ?_
  obtain ⟨mutation, _, touches⟩ := List.any_eq_true.mp touched
  cases part <;> first | trivial | cases mutation <;> cases touches

/-! ### The file behind the writer -/

/-- The bytes of a call, cut anywhere, after whole records or after a torn one that stays
torn: the replay takes some first records of the call. -/
theorem replay_cut {writer : Writer} {call : LogCall Payload} (fits : Fits (call.records codec))
    (sound : Whole crc32 codec writer ∨
      StaysTorn crc32 codec writer (writeRecords crc32 (call.records codec))) (bytes : Nat) :
    ∃ count, (replayWal crc32 codec (some (writer.own ++ writer.buffer ++
        (writeRecords crc32 (call.records codec)).take bytes))).state =
      (call.mutations.take count).foldl Mutation.apply
        (replayWal crc32 codec (some (writer.own ++ writer.buffer))).state := by
  rcases sound with whole | torn
  · rw [records_mutations] at fits ⊢
    have accepted := accepted_recordOf codec fits
    refine ⟨wholeRecords (call.mutations.map (recordOf codec)) bytes, ?_⟩
    rw [replayWal_append crc32 codec _ (by rw [← whole]), replayRest_cut crc32 codec _ accepted,
      ← List.map_take]
    exact logStateOf_recordOf codec _ _
  · exact ⟨0, by rw [torn bytes]; rfl⟩

/-- All the bytes of a call after whole records. -/
theorem replay_whole {writer : Writer} {call : LogCall Payload} (fits : Fits (call.records codec))
    (whole : Whole crc32 codec writer) :
    (replayWal crc32 codec (some (writer.own ++ (writer.buffer ++
        writeRecords crc32 (call.records codec))))).state =
      call.mutations.foldl Mutation.apply
        (replayWal crc32 codec (some (writer.own ++ writer.buffer))).state := by
  have accepted := fits
  rw [records_mutations] at accepted
  have written := replayRest_written crc32 codec _ (accepted_recordOf codec accepted)
    ⟨(replayWal crc32 codec (some (writer.own ++ writer.buffer))).state,
      (writer.own ++ writer.buffer).length⟩ []
  rw [List.append_nil, logStateOf_recordOf, ← records_mutations] at written
  rw [← List.append_assoc, replayWal_append crc32 codec _ (by rw [← whole]), written]
  rfl

/-- A compacted file loads to the memory it was written from. -/
theorem replay_compacted {log : LogState Payload} (indexed : Indexed log)
    (fits : Fits (compactRecords codec log)) :
    (replayWal crc32 codec (some (writeRecords crc32 (compactRecords codec log)))).state = log := by
  rw [compactRecords_mutations] at fits ⊢
  have written := replayRest_written crc32 codec _ (accepted_recordOf codec fits) .empty []
  rw [List.append_nil, logStateOf_recordOf] at written
  rw [replayWal_some, written]
  exact compactMutations_state log indexed

/-- While the writer is linked the promises hold of its file, however much of the buffer
follows. After that they hold of the file that replaced it, and a compaction is due. -/
structure Linked (promised : Promises Members Vote Payload) (directory : Directory Members Vote)
    (writer : Writer) : Prop where
  file : directory.wal = some writer.own
  held : ∀ count,
    LogHeld promised (replayWal crc32 codec (some (writer.own ++ writer.buffer.take count))).state

structure Unlinked (promised : Promises Members Vote Payload) (directory : Directory Members Vote)
    (writer : Writer) : Prop where
  due : compactionThreshold < writer.fileSize
  held : LogHeld promised (replayWal crc32 codec directory.wal).state

def OnDisk (promised : Promises Members Vote Payload) (directory : Directory Members Vote)
    (writer : Writer) : Prop :=
  if writer.linked then Linked crc32 codec promised directory writer
  else Unlinked crc32 codec promised directory writer

/-- Without a writer no part of the log is promised. -/
def LogOnDisk (promised : Promises Members Vote Payload) (directory : Directory Members Vote) :
    Option Writer → Prop
  | none => ∀ log : LogState Payload, LogHeld promised log
  | some writer => OnDisk crc32 codec promised directory writer

structure Kept (world : World Members Vote Payload) : Prop where
  indexed : Indexed world.store.memory.log
  log : LogHeld world.promised world.store.memory.log
  inner : InnerHeld world.promised world.store.memory.inner
  files : InnerHeld world.promised (loaded world.store.directory.files)
  wal : LogOnDisk crc32 codec world.promised world.store.directory world.store.writer

/-- What is written beyond the buffer, cut anywhere. -/
theorem appended_cut (writer : Writer) (bytes : Bytes) (reached counted count : Nat) :
    (writer.appends bytes reached counted).own ++
        (writer.appends bytes reached counted).buffer.take count =
      writer.own ++ (writer.buffer.take (reached + count) ++
        bytes.take (reached + count - writer.buffer.length)) := by
  simp only [Writer.appends]
  rw [List.append_assoc, ← List.take_add, List.take_append]

/-- A call that fails, with any part of its bytes in the file. -/
theorem onDisk_failed {promised : Promises Members Vote Payload}
    (memory : Memory Members Vote Payload) {directory : Directory Members Vote} {writer : Writer}
    {call : LogCall Payload} (fits : Fits (call.records codec))
    (sound : Whole crc32 codec writer ∨ writer.linked = false ∨
      StaysTorn crc32 codec writer (writeRecords crc32 (call.records codec)))
    (disk : OnDisk crc32 codec promised directory writer) (entered reached counted : Nat) :
    OnDisk crc32 codec (promise promised memory (.log call) false)
      (directory.wrote (writer.appends
        ((writeRecords crc32 (call.records codec)).take entered) reached counted))
      (writer.appends ((writeRecords crc32 (call.records codec)).take entered) reached
        counted) := by
  have nothing {log : LogState Payload} (held : LogHeld promised log) :
      LogHeld (promise promised memory (.log call) false) log :=
    logHeld_records 0 held (fun impossible => by cases impossible)
  cases linked : writer.linked with
  | false =>
      simp only [OnDisk, linked, Directory.wrote, Writer.appends, Bool.false_eq_true, if_false]
        at disk ⊢
      exact ⟨Nat.lt_of_lt_of_le disk.due (Nat.le_add_right _ _), nothing disk.held⟩
  | true =>
      have sound : Whole crc32 codec writer ∨
          StaysTorn crc32 codec writer (writeRecords crc32 (call.records codec)) := by
        simpa [linked] using sound
      simp only [OnDisk, linked, if_true] at disk
      have kept : (writer.appends ((writeRecords crc32 (call.records codec)).take entered) reached
          counted).linked = true := linked
      simp only [OnDisk, kept, if_true]
      refine ⟨by simp [Directory.wrote, kept], fun count => ?_⟩
      rw [appended_cut]
      by_cases short : reached + count ≤ writer.buffer.length
      · rw [Nat.sub_eq_zero_of_le short, List.take_zero, List.append_nil]
        exact nothing (disk.held _)
      · rw [List.take_of_length_le (Nat.le_of_not_le short), List.take_take, ← List.append_assoc]
        obtain ⟨taken, replayed⟩ := replay_cut crc32 codec fits sound
          (min (reached + count - writer.buffer.length) entered)
        rw [replayed]
        have all := disk.held writer.buffer.length
        rw [List.take_length] at all
        exact logHeld_records taken all (fun impossible => by cases impossible)

/-- A call that returns `Ok` after it appended its records to whole ones. -/
theorem onDisk_appended {promised : Promises Members Vote Payload}
    (memory : Memory Members Vote Payload) {directory : Directory Members Vote} {writer : Writer}
    {call : LogCall Payload} (fits : Fits (call.records codec)) (linked : writer.linked = true)
    (whole : Whole crc32 codec writer) (disk : OnDisk crc32 codec promised directory writer) :
    let bytes := writeRecords crc32 (call.records codec)
    let written := writer.appends bytes (writer.buffer ++ bytes).length bytes.length
    OnDisk crc32 codec (promise promised memory (.log call) true) (directory.wrote written)
      written := by
  intro bytes written
  have kept : written.linked = true := linked
  simp only [OnDisk, linked, if_true] at disk
  simp only [OnDisk, kept, if_true]
  refine ⟨by simp [Directory.wrote, kept], fun count => ?_⟩
  have file : written.own ++ written.buffer.take count = writer.own ++
      (writer.buffer ++ bytes) := by
    simp only [written, Writer.appends, List.take_length, List.drop_length, List.take_nil,
      List.append_nil]
  rw [file, replay_whole crc32 codec fits whole, ← List.take_length (l := call.mutations)]
  have all := disk.held writer.buffer.length
  rw [List.take_length] at all
  exact logHeld_records _ all fun _ => le_rfl

theorem logHeld_remember {promised : Promises Members Vote Payload}
    {memory : Memory Members Vote Payload} (call : LogCall Payload) (ok : Bool)
    (held : LogHeld promised memory.log) :
    LogHeld (promise promised memory (.log call) ok) (call.remember memory.log) := by
  rw [remember_mutations, ← List.take_length (l := call.mutations)]
  exact logHeld_records _ held fun _ => le_rfl

/-- A compaction that got as far as its rename. -/
theorem onDisk_compacted {promised : Promises Members Vote Payload} {log : LogState Payload}
    (directory : Directory Members Vote) (indexed : Indexed log)
    (fits : Fits (compactRecords codec log)) (held : LogHeld promised log) {writer : Writer}
    (renamed : writer.linked = true ∧
      writer.own = writeRecords crc32 (compactRecords codec log) ∧
          writer.buffer = [] ∨
        writer.linked = false ∧ compactionThreshold < writer.fileSize) :
    OnDisk crc32 codec promised
      { directory with wal := some (writeRecords crc32 (compactRecords codec log)) } writer := by
  have loads := replay_compacted crc32 codec indexed fits
  rcases renamed with ⟨linked, own, buffer⟩ | ⟨linked, due⟩
  · simp only [OnDisk, linked, if_true]
    refine ⟨by rw [own], fun count => ?_⟩
    rw [buffer, List.take_nil, List.append_nil, own, loads]
    exact held
  · simp only [OnDisk, linked, Bool.false_eq_true, if_false]
    exact ⟨due, by rw [loads]; exact held⟩

/-- The writer after a call that was written without a fault. -/
def Writer.wrote (writer : Writer) (bytes : Bytes) : Writer :=
  writer.appends bytes (writer.buffer ++ bytes).length bytes.length

theorem unlinked_due {promised : Promises Members Vote Payload} {directory : Directory Members Vote}
    {writer : Writer} (disk : OnDisk crc32 codec promised directory writer)
    (unlinked : writer.linked = false) (bytes : Bytes) : compactionDue writer bytes = true := by
  simp only [OnDisk, unlinked, Bool.false_eq_true, if_false] at disk
  simp only [compactionDue, decide_eq_true_eq]
  exact Nat.lt_of_lt_of_le disk.due (Nat.le_add_right _ _)

/-- What a log call leaves, by how far it got. -/
inductive Wrote (store : Store Members Vote Payload) (writer : Writer) (call : LogCall Payload)
    (fault : WalFault) : Store Members Vote Payload × Bool → Prop where
  | appended (due : compactionDue writer (writeRecords crc32 (call.records codec)) = false)
      (acknowledged : fault.acknowledges false = true) :
      Wrote store writer call fault
        ({ store with
          writer := some (writer.wrote (writeRecords crc32 (call.records codec)))
          directory :=
            store.directory.wrote (writer.wrote (writeRecords crc32 (call.records codec))) }, true)
  | compacted (due : compactionDue writer (writeRecords crc32 (call.records codec)) = true)
      (next : Writer) (ok : Bool)
      (renamed : next.linked = true ∧
          next.own = writeRecords crc32 (compactRecords codec store.memory.log) ∧
          next.buffer = [] ∨
        next.linked = false ∧ compactionThreshold < next.fileSize) :
      Wrote store writer call fault
        ({ store with
          writer := some next
          directory :=
            { store.directory with
              wal := some (writeRecords crc32 (compactRecords codec store.memory.log)) } }, ok)
  | failed
      (fails : fault.acknowledges
        (compactionDue writer (writeRecords crc32 (call.records codec))) = false)
      (entered reached counted : Nat) :
      Wrote store writer call fault
        ({ store with
          writer := some (writer.appends
            ((writeRecords crc32 (call.records codec)).take entered) reached counted)
          directory := store.directory.wrote (writer.appends
            ((writeRecords crc32 (call.records codec)).take entered) reached counted) }, false)

theorem wrote_wal (directory : Directory Members Vote) (writer : Writer) (wal : Option Bytes) :
    { directory.wrote writer with wal := wal } = { directory with wal := wal } := by
  unfold Directory.wrote
  split <;> rfl

theorem writeLog_cases (store : Store Members Vote Payload) (writer : Writer)
    (call : LogCall Payload) (fault : WalFault) :
    Wrote crc32 codec store writer call fault (store.writeLog crc32 codec writer call fault) := by
  cases due : compactionDue writer (writeRecords crc32 (call.records codec)) with
  | false =>
      have late : ¬ compactionThreshold <
          writer.fileSize + (writeRecords crc32 (call.records codec)).length := by
        simpa [compactionDue] using due
      cases fault with
      | write entered reached counted => exact .failed (by rfl) entered reached counted
      | none =>
          simp only [Store.writeLog, Writer.appends, late, if_false]
          exact .appended due rfl
      | compaction renamed =>
          simp only [Store.writeLog, Writer.appends, late, if_false]
          exact .appended due rfl
  | true =>
      have exceeded : compactionThreshold <
          writer.fileSize + (writeRecords crc32 (call.records codec)).length := by
        simpa [compactionDue] using due
      cases fault with
      | write entered reached counted => exact .failed (by rfl) entered reached counted
      | none =>
          simp only [Store.writeLog, Writer.appends, exceeded, if_true, wrote_wal]
          exact .compacted due _ _ (Or.inl ⟨rfl, rfl, rfl⟩)
      | compaction renamed =>
          cases renamed with
          | true =>
              simp only [Store.writeLog, Writer.appends, exceeded, if_true, wrote_wal]
              exact .compacted due _ _ (Or.inr ⟨rfl, exceeded⟩)
          | false =>
              have all : Wrote crc32 codec store writer call (.compaction false) _ :=
                .failed (by simp [WalFault.acknowledges, due])
                  (writeRecords crc32 (call.records codec)).length
                  (writer.buffer ++ writeRecords crc32 (call.records codec)).length
                  (writeRecords crc32 (call.records codec)).length
              rw [List.take_length] at all
              simp only [Store.writeLog, Writer.appends, exceeded, if_true, Bool.false_eq_true,
                if_false]
              exact all

/-! ### Every run -/

theorem wrote_files (directory : Directory Members Vote) (writer : Writer) :
    (directory.wrote writer).files = directory.files := by
  unfold Directory.wrote
  split <;> rfl

theorem kept_log {world : World Members Vote Payload} (kept : Kept crc32 codec world)
    {call : LogCall Payload} {faults : Faults}
    (meets : MeetsLog crc32 codec world.store.memory world.store.writer call faults.wal)
    {after : World Members Vote Payload}
    (stepped : step crc32 codec world (.log call, faults) = some after) :
    Kept crc32 codec after := by
  obtain ⟨writer, opened, sound, fits, compactFits⟩ := meets
  have indexed : Indexed (call.remember world.store.memory.log) := by
    rw [remember_mutations]
    exact indexed_mutations kept.indexed _
  have disk : OnDisk crc32 codec world.promised world.store.directory writer := by
    have wal := kept.wal
    rw [opened] at wal
    exact wal
  have performed : world.store.perform crc32 codec (.log call) faults =
      { world.store with memory := (Call.log call).remember world.store.memory }.writeLog
        crc32 codec
        writer call faults.wal := by
    simp only [Store.perform, opened]
  have wrote := writeLog_cases crc32 codec
    { world.store with memory := (Call.log call).remember world.store.memory } writer call
      faults.wal
  cases stepped
  rw [World.after, performed]
  generalize Store.writeLog crc32 codec _ writer call faults.wal = result at wrote
  cases wrote with
  | appended due acknowledged =>
      have linked : writer.linked = true := by
        cases linked : writer.linked with
        | true => rfl
        | false =>
            rw [unlinked_due crc32 codec disk linked] at due
            cases due
      have whole : Whole crc32 codec writer := by
        simpa [linked, due, acknowledged] using sound
      refine ⟨indexed, logHeld_remember call true kept.log, innerHeld_log kept.inner, ?_,
        onDisk_appended crc32 codec world.store.memory fits linked whole disk⟩
      rw [wrote_files]
      exact innerHeld_log kept.files
  | compacted due next ok renamed =>
      have held := logHeld_remember call ok kept.log
      exact ⟨indexed, held, innerHeld_log kept.inner, innerHeld_log kept.files,
        onDisk_compacted crc32 codec world.store.directory indexed (compactFits due) held renamed⟩
  | failed fails entered reached counted =>
      have stays : Whole crc32 codec writer ∨ writer.linked = false ∨
          StaysTorn crc32 codec writer (writeRecords crc32 (call.records codec)) := by
        rcases sound with whole | unlinked | ⟨_, success⟩ | ⟨_, torn⟩
        · exact Or.inl whole
        · exact Or.inr (Or.inl unlinked)
        · rw [success] at fails
          cases fails
        · exact Or.inr (Or.inr torn)
      refine ⟨indexed, logHeld_remember call false kept.log, innerHeld_log kept.inner, ?_,
        onDisk_failed crc32 codec world.store.memory fits stays disk entered reached counted⟩
      rw [wrote_files]
      exact innerHeld_log kept.files

/-- The log of a world whose JSON files are written. -/
theorem logOnDisk_json {promised : Promises Members Vote Payload}
    {memory : Memory Members Vote Payload} {call : Call Members Vote Payload} {ok : Bool}
    {directory : Directory Members Vote} {files : Disk Members (HardState Vote)}
    (json : call.json = true) {writer : Option Writer}
    (disk : LogOnDisk crc32 codec promised directory writer) :
    LogOnDisk crc32 codec (promise promised memory call ok) { directory with files := files }
      writer := by
  cases writer with
  | none => exact fun log => logHeld_json json (disk log)
  | some writer =>
      simp only [LogOnDisk, OnDisk] at disk ⊢
      split
      · rename_i linked
        simp only [linked, if_true] at disk
        exact ⟨disk.file, fun count => logHeld_json json (disk.held count)⟩
      · rename_i unlinked
        simp only [unlinked, Bool.false_eq_true, if_false] at disk
        exact ⟨disk.due, logHeld_json json disk.held⟩

theorem kept_json {world : World Members Vote Payload} (kept : Kept crc32 codec world)
    {call : Call Members Vote Payload} (json : call.json = true) {faults : Faults}
    {after : World Members Vote Payload}
    (stepped : step crc32 codec world (call, faults) = some after) : Kept crc32 codec after := by
  have unlogged : (call.remember world.store.memory).log = world.store.memory.log := by
    cases call <;> first | rfl | cases json
  have performed : ∃ files ok, world.store.perform crc32 codec call faults =
      ({ world.store with
        memory := call.remember world.store.memory
        directory :=
          { world.store.directory with
            files := persistAll (call.remember world.store.memory).inner
              world.store.directory.files files } }, ok) ∧
                (ok = true → files = call.files) := by
    have wrote : world.store.perform crc32 codec call faults =
        { world.store with memory := call.remember world.store.memory }.writeFiles call.files
          faults.json := by
      cases call <;> first | rfl | cases json
    rw [wrote]
    cases faults.json with
    | none => exact ⟨call.files, true, rfl, fun _ => rfl⟩
    | some written =>
        exact ⟨call.files.take written, false, rfl, fun impossible => by cases impossible⟩
  obtain ⟨files, ok, performed, all⟩ := performed
  have result : after = ⟨(world.store.perform crc32 codec call faults).1,
      promise world.promised world.store.memory call
        (world.store.perform crc32 codec call faults).2⟩ := by
    cases stepped
    rfl
  rw [performed] at result
  subst after
  refine ⟨?_, ?_, ?_, ?_, logOnDisk_json crc32 codec json kept.wal⟩
  · exact unlogged ▸ kept.indexed
  · exact unlogged ▸ logHeld_json json kept.log
  · exact innerHeld_call json kept.inner kept.inner fun part => Or.inl (.refl _ _)
  · refine innerHeld_call json kept.inner kept.files fun part => ?_
    cases touched : call.touches part with
    | false =>
        exact (persistAll_part _ _ files part).imp id fun same => ⟨same, fun _ => rfl⟩
    | true =>
        cases ok with
        | true =>
            rw [all rfl]
            exact Or.inl (touched_persisted json touched _ _)
        | false =>
            refine (persistAll_part _ _ files part).imp id fun same =>
              ⟨same, fun impossible => ?_⟩
            cases impossible

theorem kept_start (faults : StartFaults) (directory : Directory Members Vote) :
    Kept crc32 codec (World.start crc32 codec faults directory : World Members Vote Payload) := by
  have nothing {agrees : Part → Memory Members Vote Payload → Prop} :
      Held (fun _ => none) agrees := fun part kept here => by cases here
  have opened (file : Option Bytes) := (replays_opened crc32 codec file).indexed
  cases opening : faults.wal with
  | readable bytes =>
      simp only [World.start, newPersistent, opening]
      exact ⟨opened _, nothing, nothing, nothing, ⟨rfl, fun count => nothing⟩⟩
  | fails truncated =>
      simp only [World.start, newPersistent, opening]
      exact ⟨indexed_empty, nothing, nothing, nothing, fun log => nothing⟩

theorem kept_step {world after : World Members Vote Payload} (kept : Kept crc32 codec world)
    (act : Call Members Vote Payload × Faults) (meets : Meets crc32 codec world act)
    (stepped : step crc32 codec world act = some after) : Kept crc32 codec after := by
  obtain ⟨call, faults⟩ := act
  cases call with
  | log call => exact kept_log crc32 codec kept meets stepped
  | saveVote vote => exact kept_json crc32 codec kept rfl stepped
  | saveCommitted committed => exact kept_json crc32 codec kept rfl stepped
  | applyToStateMachine clock entries => exact kept_json crc32 codec kept rfl stepped
  | installSnapshot snapshot => exact kept_json crc32 codec kept rfl stepped
  | buildSnapshot => exact kept_json crc32 codec kept rfl stepped

theorem reload_log (directory : Directory Members Vote) :
    (reload crc32 codec directory).log = (replayWal crc32 codec directory.wal).state := by
  cases wal : directory.wal with
  | none => simp [reload, newPersistent, noFaults, openWal, wal]
  | some bytes => simp [reload, newPersistent, noFaults, openWal, wal]

theorem kept_durable {world : World Members Vote Payload} (kept : Kept crc32 codec world) :
    Durable crc32 codec world := by
  have log : LogHeld world.promised
      (reload crc32 codec world.store.directory : Memory Members Vote Payload).log := by
    rw [reload_log]
    have wal := kept.wal
    cases writer : world.store.writer with
    | none =>
        rw [writer] at wal
        exact wal _
    | some opened =>
        simp only [writer, LogOnDisk, OnDisk] at wal
        split at wal
        · have whole := wal.held 0
          rw [List.take_zero, List.append_nil, ← wal.file] at whole
          exact whole
        · exact wal.held
  intro part promised here
  obtain ⟨one, memberOne, agreeOne⟩ := kept.files part promised here
  obtain ⟨other, memberOther, agreeOther⟩ := log part promised here
  cases part with
  | entry index => exact ⟨other, memberOther, trivial, agreeOther⟩
  | lastPurged => exact ⟨other, memberOther, trivial, agreeOther⟩
  | vote | committed | stateMachine | lastApplied | snapshot =>
      exact ⟨one, memberOne, agreeOne, trivial⟩

/-- In every run whose log calls find the log as `Meets` says, whatever the directory
held and whichever file operations fail, every acknowledged effect is loaded by a store
that is created afterwards. -/
theorem acknowledged_effects_reload (faults : StartFaults) (directory : Directory Members Vote)
    (world : World Members Vote Payload)
    (path : Reaches (step crc32 codec) (Meets crc32 codec) (.start crc32 codec faults directory)
      world) :
    Durable crc32 codec world :=
  kept_durable crc32 codec
    (reaches_invariant (Kept crc32 codec) (kept_start crc32 codec faults directory)
      (fun _ act _ kept meets stepped => kept_step crc32 codec kept act meets stepped) path)

def emptyDirectory : Directory Unit Unit := ⟨.empty, none⟩

def firstEntry : Call Unit Unit Unit := .log (.appendToLog [⟨⟨1, 1, 1⟩, ()⟩])

def unfailing : Faults := ⟨none, .none⟩

/-- An entry is appended and a vote saved. -/
def appendedAndVoted : World Unit Unit Unit :=
  let world := World.start crc32fast blankBincode (noFaults emptyDirectory) emptyDirectory
  (world.after crc32fast blankBincode (firstEntry, unfailing)).after crc32fast blankBincode
    (.saveVote (), unfailing)

theorem acknowledged_effects_reload_appendedAndVoted :
    Durable crc32fast blankBincode appendedAndVoted := by
  refine acknowledged_effects_reload crc32fast blankBincode (noFaults emptyDirectory) emptyDirectory
    appendedAndVoted ?_
  refine .next (.saveVote (), unfailing) ?_ trivial rfl
  refine .next (firstEntry, unfailing) .refl ⟨_, rfl, Or.inl rfl, ?_, fun _ => ?_⟩ rfl
  · rw [records_mutations]
    exact fits_blank _
  · rw [compactRecords_mutations]
    exact fits_blank _

/-- `raft_log.wal` cannot be opened at start-up. -/
def noWal : StartFaults := ⟨false, false, false, false, .fails false⟩

/-- Without the log an entry is acknowledged that no later store loads. -/
theorem acknowledged_entry_lost :
    ¬ ∀ (faults : StartFaults) (directory : Directory Unit Unit) (world : World Unit Unit Unit),
      Reaches (step crc32fast blankBincode) anyAct (.start crc32fast blankBincode faults directory)
        world → Durable crc32fast blankBincode world := by
  intro durable
  obtain ⟨memory, member, agree⟩ := durable noWal emptyDirectory _
    (.next (firstEntry, unfailing) .refl trivial rfl) (.entry 1) _ rfl
  cases List.mem_singleton.mp member
  have missing := agree.2
  simp only [LogAgree, reload_log] at missing
  cases missing

end PgHa.DurableStore
