import PgHa.RaftStore
import PgHa.Replication
import PgHa.Simulation

/-!
The stores of a cluster. Each node applies the entries that Raft has committed in batches of
its own, stamped by nothing but the log, builds snapshots and installs those of other nodes,
however old, and restarts from its files. Two stores that have applied as many entries hold
the same state machine and the same membership.
-/

namespace PgHa.RaftCluster

open RaftStore Replication StateMachine Transition

variable {Id Members Hard : Type}

/-- The memory of a node's store, and its files. -/
structure Node (Members Hard : Type) where
  inner : RaftStore.Inner Members Hard
  disk : Disk Members Hard

/-- The committed log, the nodes, and the snapshots that `get_current_snapshot` has returned. -/
structure Stores (Id Members Hard : Type) where
  log : List (Payload Members)
  nodes : Id → Node Members Hard
  sent : List (StoredSnapshot Members)

def Stores.new (hard : Hard) : Stores Id Members Hard :=
  ⟨[], fun _ => ⟨.initial hard, .empty⟩, []⟩

/-- A call that Raft makes on a store; `clock` is the wall clock of the node. -/
inductive Call (Hard : Type) where
  | applyToStateMachine (clock count : Nat)
  | buildSnapshot
  | installSnapshot (index : Nat)
  | saveHardState (hard : Hard)

/-- The files that a call writes, in its order. -/
def Call.files : Call Hard → List File
  | .applyToStateMachine _ _ => [.stateMachine, .membership]
  | .buildSnapshot => [.snapshot]
  | .installSnapshot _ => [.stateMachine, .membership, .snapshot, .hardState]
  | .saveHardState _ => [.hardState]

/-- The committed entries that a store is handed next. -/
def nextEntries (log : List (Payload Members)) (inner : RaftStore.Inner Members Hard)
    (count : Nat) :
    List (Nat × Payload Members) :=
  numbered (nextIndex inner.lastAppliedLog) ((log.drop (nextIndex inner.lastAppliedLog)).take count)

/-- The memory after a call, before any file is written. -/
def Call.remember (stores : Stores Id Members Hard) (inner : RaftStore.Inner Members Hard) :
    Call Hard → Option (RaftStore.Inner Members Hard)
  | .applyToStateMachine clock count =>
      some (RaftStore.applyToStateMachine clock inner (nextEntries stores.log inner count))
  | .buildSnapshot => some { inner with snapshot := some (RaftStore.buildSnapshot inner) }
  | .installSnapshot index => (stores.sent[index]?).map (RaftStore.installSnapshot inner)
  | .saveHardState hard => some { inner with hardState := hard }

/-- `crash` is a restart after some of the files of a call were written. -/
inductive ClusterAct (Id Members Hard : Type) where
  | commit (entries : List (Payload Members))
  | call (id : Id) (call : Call Hard)
  | crash (id : Id) (call : Call Hard) (writes : Nat)
  | send (id : Id)

variable [DecidableEq Id]

def step (hard : Hard) (stores : Stores Id Members Hard) :
    ClusterAct Id Members Hard → Option (Stores Id Members Hard)
  | .commit entries => some { stores with log := stores.log ++ entries }
  | .call id call =>
      (call.remember stores (stores.nodes id).inner).map fun inner =>
        { stores with
          nodes := Function.update stores.nodes id
            ⟨inner, persistAll inner (stores.nodes id).disk call.files⟩ }
  | .crash id call writes =>
      (call.remember stores (stores.nodes id).inner).map fun inner =>
        let disk := persistAll inner (stores.nodes id).disk (call.files.take writes)
        { stores with nodes := Function.update stores.nodes id ⟨newPersistent hard disk, disk⟩ }
  | .send id =>
      (stores.nodes id).inner.snapshot.map fun snapshot =>
        { stores with sent := snapshot :: stores.sent }

def Call.twoFiles : Call Hard → Bool
  | .applyToStateMachine _ _ => true
  | .installSnapshot _ => true
  | _ => false

/-- No crash comes between `state_machine.json` and `membership.json`. -/
def WritesBoth (_ : Stores Id Members Hard) : ClusterAct Id Members Hard → Prop
  | .crash _ call writes => call.twoFiles = true → writes ≠ 1
  | _ => True

instance (stores : Stores Id Members Hard) : ∀ act, Decidable (WritesBoth stores act)
  | .commit _ => .isTrue trivial
  | .call _ _ => .isTrue trivial
  | .crash _ _ _ => inferInstanceAs (Decidable (_ → _))
  | .send _ => .isTrue trivial

/-! ### A store as a replica -/

/-- What an entry does to the state machine and to the membership. -/
def effect (state : KvStateMachine × Option (Nat × Members)) (index : Nat) :
    Payload Members → KvStateMachine × Option (Nat × Members)
  | .blank => state
  | .normal request _ => ((apply 0 state.1 request index).1, state.2)
  | .membership config => (state.1, some (index, config))

def view (inner : RaftStore.Inner Members Hard) :
    Replica (KvStateMachine × Option (Nat × Members)) :=
  ⟨nextIndex inner.lastAppliedLog, (inner.stateMachine, inner.lastMembership)⟩

def viewSnapshot (snapshot : StoredSnapshot Members) :
    Replica (KvStateMachine × Option (Nat × Members)) :=
  ⟨nextIndex snapshot.lastLogId, (snapshot.data, snapshot.lastMembership)⟩

/-- A stamped request is applied by its stamp, whatever the clock of the node says. -/
theorem apply_clock (clock : Nat) (sm : KvStateMachine) (request : Request) (index : Nat)
    (stamped : StampedRequest request) : (apply clock sm request index).1 =
    (apply 0 sm request index).1 := by
  cases request with
  | set key value ttl prevExist prevValue prevVersion now =>
      simp only [apply, applySet, effectiveNow_nonzero _ now stamped]
  | delete key prevValue recursive => rfl
  | expireKeys now => rfl

theorem view_applyEntry (clock : Nat) (inner : RaftStore.Inner Members Hard) (index : Nat)
    (payload : Payload Members) :
    view (applyEntry clock inner (index, payload)) =
      ⟨index + 1, effect (view inner).state index payload⟩ := by
  cases payload with
  | blank => rfl
  | normal request stamped =>
      simp [view, applyEntry, effect, nextIndex, apply_clock clock _ request index stamped]
  | membership config => rfl

theorem view_applied (clock : Nat) (inner : RaftStore.Inner Members Hard)
    (entries : List (Payload Members)) :
    view (RaftStore.applyToStateMachine clock inner
      (numbered (nextIndex inner.lastAppliedLog) entries)) =
      (view inner).take effect entries := by
  induction entries generalizing inner with
  | nil => rfl
  | cons payload rest ih =>
      have head := view_applyEntry clock inner (nextIndex inner.lastAppliedLog) payload
      have index : nextIndex
          (applyEntry clock inner (nextIndex inner.lastAppliedLog, payload)).lastAppliedLog =
          nextIndex inner.lastAppliedLog + 1 := congrArg Replica.taken head
      have tail := ih (applyEntry clock inner (nextIndex inner.lastAppliedLog, payload))
      rw [index] at tail
      simp only [RaftStore.applyToStateMachine, numbered, List.foldl_cons] at tail ⊢
      rw [tail, head]
      simp only [Replica.take, takeEntries, List.length_cons, view]
      congr 1
      omega

theorem applied_snapshot (clock : Nat) (inner : RaftStore.Inner Members Hard)
    (entries : List (Nat × Payload Members)) :
    (RaftStore.applyToStateMachine clock inner entries).snapshot = inner.snapshot := by
  induction entries generalizing inner with
  | nil => rfl
  | cons entry rest ih =>
      refine (ih _).trans ?_
      obtain ⟨index, payload⟩ := entry
      cases payload <;> rfl

/-- What the files of a call leave for a restart. -/
theorem view_persisted (hard : Hard) (inner : RaftStore.Inner Members Hard)
    (disk : Disk Members Hard) (call : Call Hard)
    (writes : Nat) (both : call.twoFiles = true → writes ≠ 1) :
    view (newPersistent hard (persistAll inner disk (call.files.take writes))) =
      if call.twoFiles = true ∧ 2 ≤ writes then view inner
        else view (newPersistent hard disk) := by
  cases call with
  | applyToStateMachine clock count =>
      rcases writes with _ | _ | more
      · rfl
      · exact absurd rfl (both rfl)
      · simp [Call.files, Call.twoFiles, persistAll, persist, newPersistent, view]
  | buildSnapshot =>
      rcases writes with _ | more
      · rfl
      · cases built : inner.snapshot with
        | none => simp [Call.files, Call.twoFiles, persistAll, persist, built]
        | some snapshot =>
            simp [Call.files, Call.twoFiles, persistAll, persist, newPersistent, view, built]
  | installSnapshot index =>
      rcases writes with _ | _ | _ | more
      · rfl
      · exact absurd rfl (both rfl)
      · simp [Call.files, Call.twoFiles, persistAll, persist, newPersistent, view]
      · cases built : inner.snapshot with
        | none =>
            cases more <;> simp [Call.files, Call.twoFiles, persistAll, persist, newPersistent,
              view, built]
        | some snapshot =>
            cases more <;> simp [Call.files, Call.twoFiles, persistAll, persist, newPersistent,
              view, built]
  | saveHardState saved =>
      rcases writes with _ | more
      · rfl
      · simp [Call.files, Call.twoFiles, persistAll, persist, newPersistent, view]

theorem snapshot_persisted {inner : RaftStore.Inner Members Hard} {disk : Disk Members Hard}
    {files : List File}
    {snapshot : StoredSnapshot Members}
    (saved : (persistAll inner disk files).snapshot = some snapshot) :
    inner.snapshot = some snapshot ∨ disk.snapshot = some snapshot := by
  induction files generalizing disk with
  | nil => exact .inr saved
  | cons file rest ih =>
      rcases ih saved with built | before
      · exact .inl built
      · cases file with
        | snapshot =>
            cases built : inner.snapshot with
            | none =>
                simp only [persist, built] at before
                exact .inr before
            | some snapshot' =>
                simp only [persist, built] at before
                exact .inl before
        | _ => exact .inr before

/-! ### The cluster of replicas behind the stores -/

structure Related (hard : Hard) (stores : Stores Id Members Hard)
    (cluster : Cluster Id (Payload Members) (KvStateMachine × Option (Nat × Members))) :
    Prop where
  log : cluster.log = stores.log
  memory : ∀ id, cluster.memory id = view (stores.nodes id).inner
  stored : ∀ id, cluster.stored id = view (newPersistent hard (stores.nodes id).disk)
  sent : ∀ snapshot ∈ stores.sent, viewSnapshot snapshot ∈ cluster.snapshots
  built : ∀ id snapshot, (stores.nodes id).inner.snapshot = some snapshot →
    viewSnapshot snapshot ∈ cluster.snapshots
  saved : ∀ id snapshot, (stores.nodes id).disk.snapshot = some snapshot →
    viewSnapshot snapshot ∈ cluster.snapshots

variable {hard : Hard} {stores after : Stores Id Members Hard}
  {cluster : Cluster Id (Payload Members) (KvStateMachine × Option (Nat × Members))}

/-- The replica's side of a call, before it is stored. -/
structure Remembered
    (cluster next : Cluster Id (Payload Members) (KvStateMachine × Option (Nat × Members)))
    (id : Id) (inner : RaftStore.Inner Members Hard) : Prop where
  path : Reaches (Cluster.step effect) anyAct cluster next
  log : next.log = cluster.log
  memory : next.memory = Function.update cluster.memory id (view inner)
  stored : next.stored = cluster.stored
  snapshots : ∀ snapshot ∈ cluster.snapshots, snapshot ∈ next.snapshots
  built : ∀ snapshot, inner.snapshot = some snapshot → viewSnapshot snapshot ∈ next.snapshots

theorem remember_simulates {id : Id} {call : Call Hard} {inner : RaftStore.Inner Members Hard}
    (related : Related hard stores cluster)
    (remembered : call.remember stores (stores.nodes id).inner = some inner) :
    ∃ next, Remembered cluster next id inner := by
  have own := related.memory id
  have before := related.built id
  cases call with
  | applyToStateMachine clock count =>
      cases remembered
      have applied := view_applied clock (stores.nodes id).inner
        ((stores.log.drop (nextIndex (stores.nodes id).inner.lastAppliedLog)).take count)
      refine ⟨_, reaches_one (.take id count) trivial rfl, rfl, ?_, rfl,
        fun _ member => member, ?_⟩
      · simp only [own, related.log]
        congr 1
        exact applied.symm
      · intro snapshot there
        rw [applied_snapshot] at there
        exact before snapshot there
  | buildSnapshot =>
      cases remembered
      refine ⟨_, reaches_one (.snapshot id) trivial rfl, rfl, ?_, rfl, ?_, ?_⟩
      · rw [Function.eq_update_iff]
        exact ⟨own, fun _ _ => rfl⟩
      · exact fun snapshot member => List.mem_cons_of_mem _ member
      · rintro snapshot ⟨⟩
        rw [own]
        exact List.mem_cons_self
  | installSnapshot index =>
      obtain ⟨snapshot, found, same⟩ := Option.map_eq_some_iff.mp remembered
      subst same
      have known := related.sent snapshot (List.mem_of_getElem? found)
      obtain ⟨place, there⟩ := List.mem_iff_getElem?.mp known
      have installed : Cluster.step effect cluster (.install id place) = some { cluster with
          memory := Function.update cluster.memory id (viewSnapshot snapshot) } := by
        simp [Cluster.step, there]
      refine ⟨_, reaches_one (.install id place) trivial installed, rfl, rfl, rfl,
        fun _ member => member, ?_⟩
      rintro built ⟨⟩
      exact known
  | saveHardState saved =>
      cases remembered
      refine ⟨cluster, .refl, rfl, ?_, rfl, fun _ member => member, before⟩
      rw [Function.eq_update_iff]
      exact ⟨own, fun _ _ => rfl⟩

/-- The files of the call, as many as are written, and for a crash the restart. -/
theorem call_simulates {id : Id} {call : Call Hard} {inner : RaftStore.Inner Members Hard}
    {writes : Nat}
    (related : Related hard stores cluster) (both : call.twoFiles = true → writes ≠ 1)
    (remembered : call.remember stores (stores.nodes id).inner = some inner)
    (disk : Disk Members Hard)
    (written : disk = persistAll inner (stores.nodes id).disk (call.files.take writes)) :
    ∃ next, Reaches (Cluster.step effect) anyAct cluster next ∧
      Related hard { stores with nodes := Function.update stores.nodes id ⟨inner, disk⟩ }
        next := by
  obtain ⟨next, remember⟩ := remember_simulates related remembered
  have files := view_persisted hard inner (stores.nodes id).disk call writes both
  rw [← written] at files
  have restarts : ∀ snapshot, disk.snapshot = some snapshot →
      viewSnapshot snapshot ∈ next.snapshots := by
    intro snapshot saved
    rw [written] at saved
    rcases snapshot_persisted saved with built | before
    · exact remember.built snapshot built
    · exact remember.snapshots _ (related.saved id snapshot before)
  -- with both files written the memory is what a restart finds
  have stores' : ∃ after, Reaches (Cluster.step effect) anyAct next after ∧
      after.log = next.log ∧
      after.memory = next.memory ∧ after.snapshots = next.snapshots ∧
      after.stored = Function.update cluster.stored id (view (newPersistent hard disk)) := by
    by_cases complete : call.twoFiles = true ∧ 2 ≤ writes
    · refine ⟨_, reaches_one (.store id) trivial rfl, rfl, rfl, rfl, ?_⟩
      simp [files, complete, remember.memory, remember.stored]
    · refine ⟨next, .refl, rfl, rfl, rfl, ?_⟩
      rw [files, if_neg complete, remember.stored, ← related.stored id, Function.update_eq_self]
  obtain ⟨last, more, log, memory, snapshots, stored⟩ := stores'
  refine ⟨last, reaches_trans remember.path more, ?_⟩
  constructor
  · rw [log, remember.log, related.log]
  · intro other
    rw [memory, remember.memory]
    by_cases same : other = id
    · subst same
      simp
    · simp [Function.update_of_ne same, related.memory other]
  · intro other
    rw [stored]
    by_cases same : other = id
    · subst same
      simp
    · simp [Function.update_of_ne same, related.stored other]
  · intro snapshot member
    rw [snapshots]
    exact remember.snapshots _ (related.sent snapshot member)
  · intro other snapshot built
    rw [snapshots]
    by_cases same : other = id
    · subst same
      simp only [Function.update_self] at built
      exact remember.built snapshot built
    · simp only [Function.update_of_ne same] at built
      exact remember.snapshots _ (related.built other snapshot built)
  · intro other snapshot saved
    rw [snapshots]
    by_cases same : other = id
    · subst same
      simp only [Function.update_self] at saved
      exact restarts snapshot saved
    · simp only [Function.update_of_ne same] at saved
      exact remember.snapshots _ (related.saved other snapshot saved)

/-- A restart goes back to what the files hold. -/
theorem restart_simulates (id : Id) (related : Related hard stores cluster) :
    ∃ next, Reaches (Cluster.step effect) anyAct cluster next ∧
      Related hard { stores with
        nodes := Function.update stores.nodes id
          ⟨newPersistent hard (stores.nodes id).disk, (stores.nodes id).disk⟩ } next := by
  refine ⟨_, reaches_one (.restart id) trivial rfl, ?_⟩
  constructor
  · exact related.log
  · intro other
    by_cases same : other = id
    · subst same
      simp [related.stored]
    · simp [Function.update_of_ne same, related.memory other]
  · intro other
    by_cases same : other = id
    · subst same
      simp [related.stored]
    · simp [Function.update_of_ne same, related.stored other]
  · exact related.sent
  · intro other snapshot built
    by_cases same : other = id
    · subst same
      simp only [Function.update_self] at built
      exact related.saved other snapshot built
    · simp only [Function.update_of_ne same] at built
      exact related.built other snapshot built
  · intro other snapshot saved
    by_cases same : other = id
    · subst same
      simp only [Function.update_self] at saved
      exact related.saved other snapshot saved
    · simp only [Function.update_of_ne same] at saved
      exact related.saved other snapshot saved

theorem stores_simulate (hard : Hard) :
    Simulates (@step Id Members Hard _ hard) WritesBoth (Cluster.step effect) anyAct
      (Related hard) := by
  intro before act after cluster related both stepped
  cases act with
  | commit entries =>
      cases stepped
      refine ⟨_, reaches_one (.commit entries) trivial rfl, ?_⟩
      exact ⟨by simp [related.log], related.memory, related.stored, related.sent, related.built,
        related.saved⟩
  | call id call =>
      obtain ⟨inner, remembered, same⟩ := Option.map_eq_some_iff.mp stepped
      have all : call.files.take 4 = call.files := by cases call <;> rfl
      have complete : call.twoFiles = true → 4 ≠ 1 := fun _ => by decide
      subst same
      exact call_simulates related complete remembered _ (by rw [all])
  | crash id call writes =>
      obtain ⟨inner, remembered, same⟩ := Option.map_eq_some_iff.mp stepped
      obtain ⟨middle, path, related'⟩ := call_simulates related both remembered _ rfl
      obtain ⟨next, more, related''⟩ := restart_simulates id related'
      subst same
      refine ⟨next, reaches_trans path more, ?_⟩
      simpa using related''
  | send id =>
      obtain ⟨snapshot, built, same⟩ := Option.map_eq_some_iff.mp stepped
      subst same
      refine ⟨cluster, .refl, related.log, related.memory, related.stored, ?_, related.built,
        related.saved⟩
      intro other member
      rcases List.mem_cons.mp member with rfl | before
      · exact related.built id other built
      · exact related.sent other before

/-! ### One state for one index -/

omit [DecidableEq Id] in
theorem related_new (hard : Hard) :
    Related hard (.new hard : Stores Id Members Hard) (.new (KvStateMachine.new, none)) where
  log := rfl
  memory _ := rfl
  stored _ := rfl
  sent := by
    intro snapshot member
    cases member
  built := by
    rintro id snapshot ⟨⟩
  saved := by
    rintro id snapshot ⟨⟩

/-- A node that has applied the committed log up to an index, once and in one go. -/
def appliedAlone (hard : Hard) (log : List (Payload Members)) (count : Nat) :
    RaftStore.Inner Members Hard :=
  RaftStore.applyToStateMachine 0 (.initial hard) (numbered 0 (log.take count))

theorem view_appliedAlone (hard : Hard) (log : List (Payload Members)) (count : Nat) :
    (view (appliedAlone hard log count)).state =
      takeEntries effect (KvStateMachine.new, none) 0 (log.take count) := by
  have applied := view_applied 0 (.initial hard : RaftStore.Inner Members Hard) (log.take count)
  exact congrArg Replica.state applied

/-- The first node applies two entries in two batches, the second one crashes in the installation of
its snapshot. -/
def snapshotHandover : List (ClusterAct Nat Unit Unit) :=
  [.commit [.normal (RaftDcs.acquireRequest "/service/pg/leader" "node1" 30 1000) (by decide),
    .membership ()],
    .call 0 (.applyToStateMachine 5000 1), .call 0 (.applyToStateMachine 7000 3),
      .call 0 .buildSnapshot, .send 0,
    .crash 1 (.installSnapshot 0) 2]

end PgHa.RaftCluster
