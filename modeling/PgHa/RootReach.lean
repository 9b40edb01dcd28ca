import Mathlib.Data.List.Perm.Subperm
import Mathlib.Logic.Function.Iterate
import Mathlib.Logic.Relation

/-!
Following one successor from node to node until a root is reached. Among finitely many
nodes this comes to the root from everywhere exactly if no path that stays off the root
returns to where it began.
-/

namespace PgHa.RootReach

open Relation

variable {Node : Type*} (next : Node → Node) (root : Node)

def Reaches (node : Node) : Prop := ∃ steps, next^[steps] node = root

/-- One step that does not come to the root. -/
def Strays (source target : Node) : Prop := next source = target ∧ target ≠ root

variable {next root}

/-- The successor of a node on a cycle is on it too. -/
theorem cycle_next {node : Node} (cycle : TransGen (Strays next root) node node) :
    TransGen (Strays next root) (next node) (next node) := by
  obtain ⟨target, first, back⟩ := TransGen.head'_iff.mp cycle
  rw [first.1]
  exact TransGen.tail' back first

theorem cycle_off_root {node : Node} (cycle : TransGen (Strays next root) node node) :
    node ≠ root := by
  obtain ⟨_, _, last⟩ := TransGen.tail'_iff.mp cycle
  exact last.2

theorem not_reaches_of_cycle {node : Node} (cycle : TransGen (Strays next root) node node) :
    ¬ Reaches next root node := by
  rintro ⟨steps, reached⟩
  induction steps generalizing node with
  | zero => exact cycle_off_root cycle reached
  | succ steps ih => exact ih (cycle_next cycle) reached

/-- A node that never reaches the root strays from each of its successors to every later one. -/
theorem strays_of_not_reaches {node : Node} (lost : ¬ Reaches next root node) (early more : ℕ) :
    TransGen (Strays next root) (next^[early] node) (next^[early + (more + 1)] node) := by
  have step : ∀ count, Strays next root (next^[count] node) (next^[count + 1] node) := by
    intro count
    constructor
    · rw [Function.iterate_succ_apply']
    · intro reached
      exact lost ⟨count + 1, reached⟩
  induction more with
  | zero => exact .single (step early)
  | succ more ih => exact ih.tail (step (early + (more + 1)))

/-- The successors stay among the nodes until the root is reached. -/
theorem iterate_mem {nodes : List Node}
    (closed : ∀ node ∈ nodes, next node = root ∨ next node ∈ nodes)
    {node : Node} (member : node ∈ nodes) (lost : ¬ Reaches next root node) (steps : ℕ) :
    next^[steps] node ∈ nodes := by
  induction steps with
  | zero => exact member
  | succ steps ih =>
      rcases closed _ ih with reached | inside
      · rw [← Function.iterate_succ_apply' next] at reached
        exact absurd ⟨steps + 1, reached⟩ lost
      · rw [Function.iterate_succ_apply']
        exact inside

theorem reaches_iff_no_cycle {nodes : List Node}
    (closed : ∀ node ∈ nodes, next node = root ∨ next node ∈ nodes) :
    (∀ node ∈ nodes, Reaches next root node) ↔
      ∀ node ∈ nodes, ¬ TransGen (Strays next root) node node := by
  constructor
  · intro reaches node member cycle
    exact not_reaches_of_cycle cycle (reaches node member)
  · intro acyclic node member
    by_contra lost
    have inside := iterate_mem closed member lost
    have returns : ∀ early late, early < late → next^[early] node ≠ next^[late] node := by
      intro early late before met
      obtain ⟨more, rfl⟩ := Nat.exists_eq_add_of_lt before
      have path := strays_of_not_reaches lost early more
      rw [← Nat.add_assoc, ← met] at path
      exact acyclic _ (inside early) path
    -- One step more than there are nodes: two of them come to the same one.
    have distinct : ((List.range (nodes.length + 1)).map fun steps => next^[steps] node).Nodup :=
      List.Pairwise.map _ returns List.pairwise_lt_range
    have among : ((List.range (nodes.length + 1)).map fun steps => next^[steps] node) ⊆
        nodes := by
      intro other there
      obtain ⟨steps, _, rfl⟩ := List.mem_map.mp there
      exact inside steps
    have few := (distinct.subperm among).length_le
    rw [List.length_map, List.length_range] at few
    exact absurd few (Nat.not_succ_le_self _)

end PgHa.RootReach
