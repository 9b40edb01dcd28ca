import PgHa.Transition
import Mathlib.Logic.Function.Basic

/-!
State machine replication: replicas apply one growing log in pieces of any size, hand each
other snapshots of any age, and go back to what they stored when they restart. A state is
determined by the log and the number of entries it has taken.
-/

namespace PgHa.Replication

open Transition

variable {Node Entry State : Type}

/-- A state, and how many entries of the log it has taken. -/
structure Replica (State : Type) where
  taken : Nat
  state : State

variable (effect : State → Nat → Entry → State)

/-- The entries in their order, the first of them at an index. -/
def takeEntries : State → Nat → List Entry → State
  | state, _, [] => state
  | state, index, entry :: rest => takeEntries (effect state index entry) (index + 1) rest

theorem takeEntries_append (state : State) (index : Nat) (first second : List Entry) :
    takeEntries effect state index (first ++ second) =
      takeEntries effect (takeEntries effect state index first) (index + first.length) second := by
  induction first generalizing state index with
  | nil => rfl
  | cons entry rest ih =>
      simp only [List.cons_append, takeEntries, ih, List.length_cons]
      congr 1
      omega

def Replica.take (replica : Replica State) (entries : List Entry) : Replica State :=
  ⟨replica.taken + entries.length, takeEntries effect replica.state replica.taken entries⟩

/-- What the log says of a replica. -/
def Follows (init : State) (log : List Entry) (replica : Replica State) : Prop :=
  replica.taken ≤ log.length ∧
    replica.state = takeEntries effect init 0 (log.take replica.taken)

variable {effect} {init : State} {log : List Entry} {replica other : Replica State}

theorem follows_init (log : List Entry) : Follows effect init log ⟨0, init⟩ :=
  ⟨Nat.zero_le _, by simp [takeEntries]⟩

theorem follows_append (more : List Entry) (follows : Follows effect init log replica) :
    Follows effect init (log ++ more) replica := by
  constructor
  · rw [List.length_append]
    exact Nat.le_trans follows.1 (Nat.le_add_right _ _)
  · rw [follows.2, List.take_append_of_le_length follows.1]

/-- The next entries of the log, as many as one likes. -/
theorem follows_take (count : Nat) (follows : Follows effect init log replica) :
    Follows effect init log (replica.take effect ((log.drop replica.taken).take count)) := by
  have within := List.length_take_le count (log.drop replica.taken)
  have rest := List.length_take_le' count (log.drop replica.taken)
  rw [List.length_drop] at rest
  have all := follows.1
  constructor
  · simp only [Replica.take]
    omega
  · have split : log.take (replica.taken + ((log.drop replica.taken).take count).length) =
        log.take replica.taken ++ (log.drop replica.taken).take count := by
      rw [List.take_add]
      congr 1
      rw [List.length_take, List.take_eq_take_iff]
      simp
    simp only [Replica.take]
    rw [split, takeEntries_append, ← follows.2, List.length_take, Nat.min_eq_left all,
      Nat.zero_add]

/-- Two states of one log that have taken as many entries. -/
theorem follows_agree (follows : Follows effect init log replica)
    (follows' : Follows effect init log other)
    (same : replica.taken = other.taken) : replica.state = other.state := by
  rw [follows.2, follows'.2, same]

/-! ### A cluster -/

/-- What each node has in memory and has stored, and the snapshots that were ever built. -/
structure Cluster (Node Entry State : Type) where
  log : List Entry
  memory : Node → Replica State
  stored : Node → Replica State
  snapshots : List (Replica State)

def Cluster.new (init : State) : Cluster Node Entry State where
  log := []
  memory := fun _ => ⟨0, init⟩
  stored := fun _ => ⟨0, init⟩
  snapshots := []

inductive Act (Node Entry : Type) where
  | commit (entries : List Entry)
  | take (node : Node) (count : Nat)
  | store (node : Node)
  | snapshot (node : Node)
  | install (node : Node) (index : Nat)
  | restart (node : Node)

variable [DecidableEq Node]

def Cluster.step (effect : State → Nat → Entry → State) (cluster : Cluster Node Entry State) :
    Act Node Entry → Option (Cluster Node Entry State)
  | .commit entries => some { cluster with log := cluster.log ++ entries }
  | .take node count =>
      let replica := cluster.memory node
      some { cluster with
        memory := Function.update cluster.memory node
          (replica.take effect ((cluster.log.drop replica.taken).take count)) }
  | .store node =>
      some { cluster with stored := Function.update cluster.stored node (cluster.memory node) }
  | .snapshot node => some { cluster with snapshots := cluster.memory node :: cluster.snapshots }
  | .install node index =>
      (cluster.snapshots[index]?).map fun snapshot =>
        { cluster with memory := Function.update cluster.memory node snapshot }
  | .restart node =>
      some { cluster with memory := Function.update cluster.memory node (cluster.stored node) }

/-- Everything in the cluster follows its log. -/
structure Coherent (effect : State → Nat → Entry → State) (init : State)
    (cluster : Cluster Node Entry State) :
    Prop where
  memory : ∀ node, Follows effect init cluster.log (cluster.memory node)
  stored : ∀ node, Follows effect init cluster.log (cluster.stored node)
  snapshots : ∀ snapshot ∈ cluster.snapshots, Follows effect init cluster.log snapshot

theorem forall_update {P : Replica State → Prop} {replicas : Node → Replica State}
    {replica : Replica State}
    (all : ∀ node, P (replicas node)) (holds : P replica) (changed : Node) :
    ∀ node, P (Function.update replicas changed replica node) := by
  intro node
  by_cases same : node = changed
  · subst same
    rwa [Function.update_self]
  · rw [Function.update_of_ne same]
    exact all node

theorem coherent_step {before after : Cluster Node Entry State} (act : Act Node Entry)
    (coherent : Coherent effect init before) (stepped : before.step effect act = some after) :
    Coherent effect init after := by
  cases act with
  | commit entries =>
      cases stepped
      constructor
      · exact fun node => follows_append entries (coherent.memory node)
      · exact fun node => follows_append entries (coherent.stored node)
      · exact fun snapshot member => follows_append entries (coherent.snapshots snapshot member)
  | take node count =>
      cases stepped
      refine ⟨?_, coherent.stored, coherent.snapshots⟩
      exact forall_update coherent.memory (follows_take count (coherent.memory node)) node
  | store node =>
      cases stepped
      exact ⟨coherent.memory, forall_update coherent.stored (coherent.memory node) node,
        coherent.snapshots⟩
  | snapshot node =>
      cases stepped
      refine ⟨coherent.memory, coherent.stored, ?_⟩
      intro snapshot member
      rcases List.mem_cons.mp member with rfl | before
      · exact coherent.memory node
      · exact coherent.snapshots snapshot before
  | install node index =>
      obtain ⟨snapshot, found, same⟩ := Option.map_eq_some_iff.mp stepped
      subst same
      refine ⟨?_, coherent.stored, coherent.snapshots⟩
      exact forall_update coherent.memory
        (coherent.snapshots snapshot (List.mem_of_getElem? found)) node
  | restart node =>
      cases stepped
      exact ⟨forall_update coherent.memory (coherent.stored node) node, coherent.stored,
        coherent.snapshots⟩

theorem coherent_reaches {cluster : Cluster Node Entry State}
    (path : Reaches (Cluster.step effect) anyAct (.new init) cluster) :
    Coherent effect init cluster := by
  have initial : Coherent effect init (.new init : Cluster Node Entry State) := by
    constructor
    · exact fun _ => follows_init _
    · exact fun _ => follows_init _
    · intro snapshot member
      cases member
  exact reaches_invariant (Coherent effect init) initial
    (fun _ act _ before _ stepped => coherent_step act before stepped) path

end PgHa.Replication
