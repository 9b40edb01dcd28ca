import PgHa.RaftDcs

/-!
The persistent Raft store of `pg-ha-dcs/src/store.rs`. `apply_to_state_machine`
and `install_snapshot` change the memory first and then write one file after
the other; a crash keeps a prefix of these writes. `state_machine.json` holds
the entries and `membership.json` the index up to which they were applied, so
a crash between the two makes the restarted node apply a batch to its own
result. A file's content is the value written to it. Log index `i` is the
entry at position `i`; `Members` and `Hard` are a membership and the vote with
the committed index.
-/

namespace PgHa.RaftStore

open StateMachine

variable {Members Hard : Type}

-- The leader stamps every Set before it is appended.
def StampedRequest : Request → Prop
  | .set _ _ _ _ _ _ now => now ≠ 0
  | .delete _ _ _ | .expireKeys _ => True

instance (request : Request) : Decidable (StampedRequest request) := by
  cases request <;> unfold StampedRequest <;> infer_instance

theorem stampLeaderTime_stamped (request : Request) {now : Nat} (later : now ≠ 0) :
    StampedRequest (stampLeaderTime request now) := by
  cases request with
  | set key value ttl prevExist prevValue prevVersion stamp => exact later
  | delete key prevValue recursive => trivial
  | expireKeys stamp => trivial

inductive Payload (Members : Type) where
  | blank
  | normal (request : Request) (stamped : StampedRequest request)
  | membership (config : Members)

structure StoredSnapshot (Members : Type) where
  lastLogId : Option Nat
  lastMembership : Option (Nat × Members)
  data : KvStateMachine

structure Inner (Members Hard : Type) where
  hardState : Hard
  stateMachine : KvStateMachine
  lastAppliedLog : Option Nat
  lastMembership : Option (Nat × Members)
  snapshot : Option (StoredSnapshot Members)

structure Disk (Members Hard : Type) where
  hardState : Option Hard
  stateMachine : Option KvStateMachine
  membership : Option (Option Nat × Option (Nat × Members))
  snapshot : Option (StoredSnapshot Members)

def Inner.initial (hard : Hard) : Inner Members Hard := ⟨hard, .new, none, none, none⟩

def Disk.empty : Disk Members Hard := ⟨none, none, none, none⟩

/-- `MemStore::new_persistent`: a missing file leaves the default. -/
def newPersistent (hard : Hard) (disk : Disk Members Hard) : Inner Members Hard :=
  { hardState := disk.hardState.getD hard
    stateMachine := disk.stateMachine.getD .new
    lastAppliedLog := (disk.membership.getD (none, none)).1
    lastMembership := (disk.membership.getD (none, none)).2
    snapshot := disk.snapshot }

inductive File where
  | stateMachine
  | membership
  | snapshot
  | hardState

/-- One atomic write of a file from the memory. -/
def persist (inner : Inner Members Hard) (disk : Disk Members Hard) : File → Disk Members Hard
  | .stateMachine => { disk with stateMachine := some inner.stateMachine }
  | .membership => { disk with membership := some (inner.lastAppliedLog, inner.lastMembership) }
  | .snapshot =>
      match inner.snapshot with
      | some snapshot => { disk with snapshot := some snapshot }
      | none => disk
  | .hardState => { disk with hardState := some inner.hardState }

def persistAll (inner : Inner Members Hard) (disk : Disk Members Hard) (files : List File) :
    Disk Members Hard :=
  files.foldl (persist inner) disk

/-- One turn of the loop of `apply_to_state_machine`. -/
def applyEntry (clock : Nat) (inner : Inner Members Hard) (entry : Nat × Payload Members) :
    Inner Members Hard :=
  let inner := { inner with lastAppliedLog := some entry.1 }
  match entry.2 with
  | .blank => inner
  | .normal request _ =>
      { inner with stateMachine := (apply clock inner.stateMachine request entry.1).1 }
  | .membership config => { inner with lastMembership := some (entry.1, config) }

def applyToStateMachine (clock : Nat) (inner : Inner Members Hard)
    (entries : List (Nat × Payload Members)) : Inner Members Hard :=
  entries.foldl (applyEntry clock) inner

def buildSnapshot (inner : Inner Members Hard) : StoredSnapshot Members :=
  ⟨inner.lastAppliedLog, inner.lastMembership, inner.stateMachine⟩

def installSnapshot (inner : Inner Members Hard) (snapshot : StoredSnapshot Members) :
    Inner Members Hard :=
  { inner with
    stateMachine := snapshot.data
    lastAppliedLog := snapshot.lastLogId
    lastMembership := snapshot.lastMembership
    snapshot := some snapshot }

def numbered (start : Nat) : List (Payload Members) → List (Nat × Payload Members)
  | [] => []
  | payload :: rest => (start, payload) :: numbered (start + 1) rest

-- `installSnapshot` is given the entries the newer snapshot adds.
inductive Op (Members Hard : Type) where
  | applyBatch (entries : List (Payload Members))
  | installSnapshot (entries : List (Payload Members))
  | buildSnapshot
  | saveHardState (hard : Hard)

def Op.entries : Op Members Hard → List (Payload Members)
  | .applyBatch entries | .installSnapshot entries => entries
  | .buildSnapshot | .saveHardState _ => []

/-- The files an operation writes, in its order. -/
def Op.files : Op Members Hard → List File
  | .applyBatch _ => [.stateMachine, .membership]
  | .installSnapshot _ => [.stateMachine, .membership, .snapshot, .hardState]
  | .buildSnapshot => [.snapshot]
  | .saveHardState _ => [.hardState]

/-- A node that applied the whole log once, in one go. -/
def wholeLog (clock : Nat) (hard : Hard) (log : List (Payload Members)) : Inner Members Hard :=
  applyToStateMachine clock (.initial hard) (numbered 0 log)

structure Store (Members Hard : Type) where
  applied : List (Payload Members)
  inner : Inner Members Hard
  disk : Disk Members Hard

-- What an operation does to the memory, before any file is written.
def Op.remember (clock : Nat) (store : Store Members Hard) : Op Members Hard → Inner Members Hard
  | .applyBatch entries =>
      applyToStateMachine clock store.inner (numbered store.applied.length entries)
  | .installSnapshot entries =>
      RaftStore.installSnapshot store.inner
        (RaftStore.buildSnapshot (wholeLog clock store.inner.hardState (store.applied ++ entries)))
  | .buildSnapshot => { store.inner with snapshot := some (RaftStore.buildSnapshot store.inner) }
  | .saveHardState hard => { store.inner with hardState := hard }

def perform (clock : Nat) (store : Store Members Hard) (op : Op Members Hard) :
    Store Members Hard :=
  let inner := op.remember clock store
  ⟨store.applied ++ op.entries, inner, persistAll inner store.disk op.files⟩

def run (clock : Nat) (hard : Hard) (ops : List (Op Members Hard)) : Store Members Hard :=
  ops.foldl (perform clock) ⟨[], .initial hard, .empty⟩

/-- The disk a crash leaves after `writes` of the files of `op` were written. -/
def crashDisk (clock : Nat) (store : Store Members Hard) (op : Op Members Hard) (writes : Nat) :
    Disk Members Hard :=
  persistAll (op.remember clock store) store.disk (op.files.take writes)

def nextIndex : Option Nat → Nat
  | none => 0
  | some index => index + 1

/-- Restart, and re-apply the committed entries after the reloaded index. -/
def recovered (clock : Nat) (hard : Hard) (disk : Disk Members Hard)
    (log : List (Payload Members)) : Inner Members Hard :=
  let inner := newPersistent hard disk
  let next := nextIndex inner.lastAppliedLog
  applyToStateMachine clock inner (numbered next (log.drop next))

-- The entries a memory holds are all an entry's effect on them depends on.
def kvStep (clock : Nat) (data : Entries) (entry : Nat × Payload Members) : Entries :=
  match entry.2 with
  | .normal request _ => (apply clock ⟨data, 0⟩ request entry.1).1.data
  | .blank | .membership _ => data

def kvAfter (clock : Nat) (data : Entries) (entries : List (Nat × Payload Members)) : Entries :=
  entries.foldl (kvStep clock) data

theorem apply_data_congr (clock clock' : Nat) (sm sm' : KvStateMachine) (request : Request)
    (index : Nat) (same : sm.data = sm'.data) (stamped : StampedRequest request) :
    (apply clock sm request index).1.data = (apply clock' sm' request index).1.data := by
  cases request with
  | set key value ttl prevExist prevValue prevVersion now =>
      simp only [apply, applySet, effectiveNow_nonzero _ now stamped, same]
  | delete key prevValue recursive => simp only [apply, same]
  | expireKeys now => simp only [apply, same]

theorem kvStep_clock (clock clock' : Nat) (data : Entries) (entry : Nat × Payload Members) :
    kvStep clock data entry = kvStep clock' data entry := by
  obtain ⟨index, payload⟩ := entry
  cases payload with
  | blank => rfl
  | normal request stamped => exact apply_data_congr _ _ _ _ request index rfl stamped
  | membership config => rfl

theorem kvAfter_clock (clock clock' : Nat) (data : Entries)
    (entries : List (Nat × Payload Members)) :
    kvAfter clock data entries = kvAfter clock' data entries := by
  induction entries generalizing data with
  | nil => rfl
  | cons entry rest ih =>
      simp only [kvAfter, List.foldl_cons] at ih ⊢
      rw [kvStep_clock clock clock', ih]

theorem kvAfter_append (clock : Nat) (data : Entries)
    (first second : List (Nat × Payload Members)) :
    kvAfter clock data (first ++ second) = kvAfter clock (kvAfter clock data first) second := by
  simp [kvAfter]

theorem applyEntry_data (clock : Nat) (inner : Inner Members Hard)
    (entry : Nat × Payload Members) :
    (applyEntry clock inner entry).stateMachine.data =
      kvStep clock inner.stateMachine.data entry := by
  obtain ⟨index, payload⟩ := entry
  cases payload with
  | blank => rfl
  | normal request stamped => exact apply_data_congr _ _ _ _ request index rfl stamped
  | membership config => rfl

theorem applyEntry_index (clock : Nat) (inner : Inner Members Hard)
    (entry : Nat × Payload Members) :
    (applyEntry clock inner entry).lastAppliedLog = some entry.1 := by
  obtain ⟨index, payload⟩ := entry
  cases payload <;> rfl

theorem applied_data (clock : Nat) (inner : Inner Members Hard)
    (entries : List (Nat × Payload Members)) :
    (applyToStateMachine clock inner entries).stateMachine.data =
      kvAfter clock inner.stateMachine.data entries := by
  induction entries generalizing inner with
  | nil => rfl
  | cons entry rest ih =>
      simp only [applyToStateMachine, kvAfter, List.foldl_cons] at ih ⊢
      rw [ih, applyEntry_data]

theorem numbered_append (start : Nat) (first second : List (Payload Members)) :
    numbered start (first ++ second) =
      numbered start first ++ numbered (start + first.length) second := by
  induction first generalizing start with
  | nil => rfl
  | cons payload rest ih =>
      have shift : start + 1 + rest.length = start + (rest.length + 1) := by omega
      simp [numbered, ih, shift]

theorem applied_index (clock : Nat) (inner : Inner Members Hard) (start : Nat)
    (entries : List (Payload Members)) (starts : nextIndex inner.lastAppliedLog = start) :
    nextIndex (applyToStateMachine clock inner (numbered start entries)).lastAppliedLog =
      start + entries.length := by
  induction entries generalizing inner start with
  | nil => exact starts
  | cons payload rest ih =>
      simp only [applyToStateMachine, numbered, List.foldl_cons] at ih ⊢
      rw [ih _ (start + 1) (by rw [applyEntry_index]; rfl)]
      simp only [List.length_cons]
      omega

-- The entries after the first `log` of a committed log were applied once.
def logData (clock : Nat) (log : List (Payload Members)) : Entries :=
  kvAfter clock KvStateMachine.new.data (numbered 0 log)

theorem logData_append (clock : Nat) (log more : List (Payload Members)) :
    logData clock (log ++ more) = kvAfter clock (logData clock log) (numbered log.length more) := by
  simp [logData, numbered_append, kvAfter_append]

theorem wholeLog_data (clock : Nat) (hard : Hard) (log : List (Payload Members)) :
    (wholeLog clock hard log).stateMachine.data = logData clock log :=
  applied_data clock _ _

theorem wholeLog_index (clock : Nat) (hard : Hard) (log : List (Payload Members)) :
    nextIndex (wholeLog clock hard log).lastAppliedLog = log.length := by
  simpa [wholeLog] using applied_index clock (Inner.initial hard) 0 log rfl

-- `inner` holds the entries and the index of the log `applied`.
def Holds (clock : Nat) (applied : List (Payload Members)) (inner : Inner Members Hard) : Prop :=
  inner.stateMachine.data = logData clock applied ∧
    nextIndex inner.lastAppliedLog = applied.length

theorem remember_holds (clock : Nat) (store : Store Members Hard) (op : Op Members Hard)
    (holds : Holds clock store.applied store.inner) :
    Holds clock (store.applied ++ op.entries) (op.remember clock store) := by
  cases op with
  | applyBatch entries =>
      constructor
      · rw [Op.remember, applied_data, holds.1, Op.entries, logData_append]
      · rw [Op.remember, applied_index clock _ _ _ holds.2, Op.entries, List.length_append]
  | installSnapshot entries =>
      constructor
      · exact wholeLog_data clock _ _
      · exact wholeLog_index clock _ _
  | buildSnapshot => simpa [Op.entries, Op.remember, Holds] using holds
  | saveHardState hard => simpa [Op.entries, Op.remember, Holds] using holds

-- Both the memory and what a restart would load.
structure Synced (clock : Nat) (hard : Hard) (store : Store Members Hard) : Prop where
  memory : Holds clock store.applied store.inner
  disk : Holds clock store.applied (newPersistent hard store.disk)

theorem perform_synced (clock : Nat) (hard : Hard) (store : Store Members Hard)
    (op : Op Members Hard) (synced : Synced clock hard store) :
    Synced clock hard (perform clock store op) := by
  have memory := remember_holds clock store op synced.memory
  constructor
  · exact memory
  · cases op with
    | applyBatch entries => exact memory
    | installSnapshot entries => exact memory
    | buildSnapshot => simpa [perform, Op.entries, Op.files, persistAll, persist, Op.remember,
        newPersistent, Holds] using synced.disk
    | saveHardState hard => simpa [perform, Op.entries, Op.files, persistAll, persist, Op.remember,
        newPersistent, Holds] using synced.disk

theorem run_synced (clock : Nat) (hard : Hard) (ops : List (Op Members Hard)) :
    Synced clock hard (run clock hard ops) := by
  have all : ∀ store : Store Members Hard, Synced clock hard store →
      Synced clock hard (ops.foldl (perform clock) store) := by
    induction ops with
    | nil => exact fun _ synced => synced
    | cons op rest ih => exact fun store synced => ih _ (perform_synced clock hard store op synced)
  exact all _ ⟨⟨rfl, rfl⟩, ⟨rfl, rfl⟩⟩

/-- `state_machine.json` of the operation is written, `membership.json` is not. -/
def midway (op : Op Members Hard) (writes : Nat) : Bool :=
  match op with
  | .applyBatch _ | .installSnapshot _ => writes == 1
  | .buildSnapshot | .saveHardState _ => false

/-- Applying the entries once more to what they led to changes nothing. -/
def Absorbed (clock : Nat) (applied entries : List (Payload Members)) : Prop :=
  kvAfter clock (logData clock (applied ++ entries)) (numbered applied.length entries) =
    logData clock (applied ++ entries)

/-- A restart after the crash ends in the entries of the whole log, whatever
was committed after the entries of `op`. -/
def Recovers (clock later : Nat) (hard : Hard) (store : Store Members Hard)
    (op : Op Members Hard) (writes : Nat) : Prop :=
  ∀ rest, (recovered later hard (crashDisk clock store op writes)
      (store.applied ++ op.entries ++ rest)).stateMachine.data =
    (wholeLog clock hard (store.applied ++ op.entries ++ rest)).stateMachine.data

theorem recovered_data (clock : Nat) (hard : Hard) (disk : Disk Members Hard)
    (log : List (Payload Members)) (next : Nat)
    (starts : nextIndex (newPersistent hard disk).lastAppliedLog = next) :
    (recovered clock hard disk log).stateMachine.data =
      kvAfter clock (newPersistent hard disk).stateMachine.data
        (numbered next (log.drop next)) := by
  subst next
  exact applied_data clock _ _

-- A restart from entries and index of one and the same prefix of the log.
theorem holds_recovers (clock later : Nat) (hard : Hard) (disk : Disk Members Hard)
    (applied rest : List (Payload Members))
    (holds : Holds clock applied (newPersistent hard disk)) :
    (recovered later hard disk (applied ++ rest)).stateMachine.data =
      logData clock (applied ++ rest) := by
  rw [recovered_data later hard disk _ _ holds.2, holds.1, List.drop_left,
    kvAfter_clock later clock, logData_append]

-- The three disks a crash can leave, for an operation that moves the index.
theorem crash_holds (clock : Nat) (hard : Hard) (store : Store Members Hard)
    (synced : Synced clock hard store) (op : Op Members Hard) (writes : Nat)
    (outside : midway op writes = false) :
    Holds clock store.applied (newPersistent hard (crashDisk clock store op writes)) ∨
      Holds clock (store.applied ++ op.entries)
        (newPersistent hard (crashDisk clock store op writes)) := by
  have memory := remember_holds clock store op synced.memory
  cases op with
  | applyBatch entries =>
      match writes with
      | 0 => exact Or.inl synced.disk
      | 1 => simp [midway] at outside
      | more + 2 =>
          right
          simpa [crashDisk, Op.files, persistAll, persist, newPersistent, Holds] using memory
  | installSnapshot entries =>
      match writes with
      | 0 => exact Or.inl synced.disk
      | 1 => simp [midway] at outside
      | 2 => exact Or.inr memory
      | 3 => exact Or.inr memory
      | more + 4 =>
          right
          simpa [crashDisk, Op.files, persistAll, persist, newPersistent, Holds, Op.remember,
            RaftStore.installSnapshot] using memory
  | buildSnapshot =>
      match writes with
      | 0 => exact Or.inl synced.disk
      | more + 1 =>
          left
          simpa [crashDisk, Op.files, persistAll, persist, newPersistent, Holds, Op.remember]
            using synced.disk
  | saveHardState hard =>
      match writes with
      | 0 => exact Or.inl synced.disk
      | more + 1 =>
          left
          simpa [crashDisk, Op.files, persistAll, persist, newPersistent, Holds, Op.remember]
            using synced.disk

-- Between the two files: the entries of the new prefix, the index of the old.
theorem crash_midway (clock : Nat) (hard : Hard) (store : Store Members Hard)
    (synced : Synced clock hard store) (op : Op Members Hard) (writes : Nat)
    (between : midway op writes = true) :
    (newPersistent hard (crashDisk clock store op writes)).stateMachine.data =
        logData clock (store.applied ++ op.entries) ∧
      nextIndex (newPersistent hard (crashDisk clock store op writes)).lastAppliedLog =
        store.applied.length := by
  have memory := remember_holds clock store op synced.memory
  have index := synced.disk.2
  cases op with
  | applyBatch entries =>
      simp only [midway, beq_iff_eq] at between
      subst writes
      exact ⟨memory.1, index⟩
  | installSnapshot entries =>
      simp only [midway, beq_iff_eq] at between
      subst writes
      exact ⟨memory.1, index⟩
  | buildSnapshot => simp [midway] at between
  | saveHardState hard => simp [midway] at between

theorem outside_recovers (clock later : Nat) (hard : Hard) (store : Store Members Hard)
    (synced : Synced clock hard store) (op : Op Members Hard) (writes : Nat)
    (outside : midway op writes = false) : Recovers clock later hard store op writes := by
  intro rest
  rw [wholeLog_data]
  rcases crash_holds clock hard store synced op writes outside with old | new
  · rw [List.append_assoc]
    exact holds_recovers clock later hard _ _ _ old
  · exact holds_recovers clock later hard _ _ _ new

theorem midway_recovers_iff (clock later : Nat) (hard : Hard) (store : Store Members Hard)
    (synced : Synced clock hard store) (op : Op Members Hard) (writes : Nat)
    (between : midway op writes = true) :
    Recovers clock later hard store op writes ↔ Absorbed clock store.applied op.entries := by
  obtain ⟨data, index⟩ := crash_midway clock hard store synced op writes between
  constructor
  · intro recovers
    have here := recovers []
    rw [recovered_data later hard _ _ _ index, data, wholeLog_data, List.append_nil,
      List.drop_left, kvAfter_clock later clock] at here
    exact here
  · intro absorbed rest
    rw [wholeLog_data, recovered_data later hard _ _ _ index, data, List.append_assoc,
      List.drop_left, kvAfter_clock later clock, numbered_append, kvAfter_append, absorbed,
      ← List.append_assoc, logData_append clock (store.applied ++ op.entries), List.length_append]

/-- A crash after any write of any operation of any run is recovered from if
and only if it does not separate `state_machine.json` from `membership.json`,
or the entries between them are absorbed. -/
theorem crash_recovery_iff (clock later : Nat) (hard : Hard) (ops : List (Op Members Hard))
    (op : Op Members Hard) (writes : Nat) :
    Recovers clock later hard (run clock hard ops) op writes ↔
      midway op writes = false ∨ Absorbed clock (run clock hard ops).applied op.entries := by
  have synced := run_synced clock hard ops
  cases between : midway op writes with
  | false => simp [outside_recovers clock later hard _ synced op writes between]
  | true => simp [midway_recovers_iff clock later hard _ synced op writes between]

/-- `node2` holds the lock; then an acquire of `node1`, which is refused, and
the release of `node2` are one batch. -/
def heldLock : List (Op Unit Unit) :=
  [.applyBatch [.normal (RaftDcs.acquireRequest "/service/pg/leader" "node2" 30 1000) (by decide)]]

def handoverBatch : Op Unit Unit :=
  .applyBatch
    [.normal (RaftDcs.acquireRequest "/service/pg/leader" "node1" 30 2000) (by decide),
     .normal (RaftDcs.releaseRequest "/service/pg/leader" "node2") (by decide)]

/-- The replayed batch grants `node1` a lock that nobody holds. -/
theorem crash_midway_grants_lock :
    ¬ Recovers 0 0 () (run 0 () heldLock) handoverBatch 1 ∧
      ((recovered 0 () (crashDisk 0 (run 0 () heldLock) handoverBatch 1)
        ((run 0 () heldLock).applied ++ handoverBatch.entries)).stateMachine.data
          "/service/pg/leader").map KvEntry.value = some "node1" ∧
      (wholeLog 0 () ((run 0 () heldLock).applied ++ handoverBatch.entries)).stateMachine.data
        "/service/pg/leader" = none := by
  refine ⟨?_, rfl, rfl⟩
  intro recovers
  have here := congrFun (recovers []) "/service/pg/leader"
  cases here

end PgHa.RaftStore
