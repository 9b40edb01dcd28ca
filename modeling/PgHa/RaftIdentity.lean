import PgHa.StaticConfig
import Mathlib.Data.List.Duplicate
import Mathlib.Data.List.NodupEquivFin
import Mathlib.Data.List.Sort
import Mathlib.Data.List.Lex
import Mathlib.Data.Char

/-!
The Raft identity of a node (`src/main.rs`). Every node sorts its own address and those
of its partners and numbers them from 1; the member list it offers to
`bootstrap_cluster` and its own id both come from this list, the id unless `raft.node_id`
is set. Strings are ordered character by character, which is the byte order of UTF-8.
-/

namespace PgHa.RaftIdentity

open Text StaticConfig

def allAddrs (raft : RaftConfig) : List Str :=
  (raft.selfAddr :: raft.partnerAddrs).insertionSort (· ≤ ·)

/-- The explicit id, or the position in the sorted list plus one. -/
def nodeId (raft : RaftConfig) : Nat :=
  raft.nodeId.getD (((allAddrs raft).findIdx? (· == raft.selfAddr)).getD 0 + 1)

/-- The member list of the bootstrap. -/
def members (raft : RaftConfig) : List (Nat × Str) :=
  (allAddrs raft).mapIdx fun i addr => (i + 1, addr)

abbrev MemberMap := Nat → Option Str

/-- `bootstrap_cluster` up to `Raft::initialize`: one insert after the other. -/
def bootstrapCluster (members : List (Nat × Str)) : MemberMap :=
  members.foldl (fun map member id => if id = member.1 then some member.2 else map id)
    fun _ => none

def memberMap (raft : RaftConfig) : MemberMap := bootstrapCluster (members raft)

theorem bootstrapCluster_get (addrs : List Str) (id : Nat) :
    bootstrapCluster (addrs.mapIdx fun i addr => (i + 1, addr)) id =
      if id = 0 then none else addrs[id - 1]? := by
  induction addrs using List.reverseRecOn with
  | nil => simp [bootstrapCluster]
  | append_singleton addrs last ih =>
      simp only [bootstrapCluster, List.mapIdx_concat, List.foldl_append, List.foldl_cons,
        List.foldl_nil] at ih ⊢
      rw [ih]
      by_cases newest : id = addrs.length + 1
      · simp [newest]
      · by_cases first : id = 0
        · simp [first]
        · simp only [newest, first, if_false]
          by_cases inside : id - 1 < addrs.length
          · rw [List.getElem?_append_left inside]
          · rw [List.getElem?_eq_none (by omega), List.getElem?_eq_none (by simp; omega)]

theorem memberMap_get (raft : RaftConfig) (id : Nat) :
    memberMap raft id = if id = 0 then none else (allAddrs raft)[id - 1]? :=
  bootstrapCluster_get (allAddrs raft) id

/-! ### A cluster -/

def addresses (nodes : List Config) : List Str := nodes.map fun node => node.raft.selfAddr

/-- Nodes with valid configurations and distinct addresses; each lists the others in any
order, and perhaps itself. -/
structure RaftCluster (nodes : List Config) : Prop where
  valid : ∀ node ∈ nodes, node.validate = .ok ()
  distinct : (addresses nodes).Nodup
  lists : ∀ node ∈ nodes,
    (node.raft.partnerAddrs.filter (· != node.raft.selfAddr)).Perm
      ((addresses nodes).filter (· != node.raft.selfAddr))

/-- All nodes offer one member map, no two have one id, and the id under which the map
has a node's address, and the only one, is the node's own. -/
structure Agrees (nodes : List Config) : Prop where
  sameMap : ∀ first ∈ nodes, ∀ second ∈ nodes, memberMap first.raft = memberMap second.raft
  distinct : (nodes.map fun node => nodeId node.raft).Nodup
  own : ∀ node ∈ nodes, ∀ id, memberMap node.raft id = some node.raft.selfAddr ↔
    id = nodeId node.raft

/-- The place of an address among those of the cluster, from 1. -/
def rank (nodes : List Config) (addr : Str) : Nat :=
  ((addresses nodes).filter (· < addr)).length + 1

/-- No node lists itself, and an explicit id is the node's place in the sorted addresses. -/
def Plain (nodes : List Config) : Prop :=
  ∀ node ∈ nodes, node.raft.selfAddr ∉ node.raft.partnerAddrs ∧
    ∀ id, node.raft.nodeId = some id → id = rank nodes node.raft.selfAddr

/-! ### Positions in a sorted list -/

theorem filter_below_length {addrs : List Str} {addr : Str} (sorted : addrs.Pairwise (· < ·))
    (position : Nat) (found : addrs[position]? = some addr) :
    (addrs.filter (· < addr)).length = position := by
  induction addrs generalizing position with
  | nil => simp at found
  | cons first rest ih =>
      obtain ⟨above, sorted⟩ := List.pairwise_cons.mp sorted
      cases position with
      | zero =>
          simp only [List.getElem?_cons_zero, Option.some.injEq] at found
          subst first
          have none : rest.filter (· < addr) = [] := by
            rw [List.filter_eq_nil_iff]
            intro other member
            simp only [decide_eq_true_eq]
            exact (above other member).not_gt
          simp [none]
      | succ position =>
          simp only [List.getElem?_cons_succ] at found
          have below : first < addr := above addr (List.mem_of_getElem? found)
          simp [below, ih sorted position found]

section Cluster

variable {nodes : List Config} {node : Config}

def sortedAddrs (nodes : List Config) : List Str := (addresses nodes).insertionSort (· ≤ ·)

theorem sortedAddrs_perm : (sortedAddrs nodes).Perm (addresses nodes) :=
  List.perm_insertionSort _ _

theorem sortedAddrs_increasing (cluster : RaftCluster nodes) :
    (sortedAddrs nodes).Pairwise (· < ·) := by
  have distinct : (sortedAddrs nodes).Nodup := sortedAddrs_perm.nodup_iff.mpr cluster.distinct
  have ordered : (sortedAddrs nodes).SortedLE := List.sortedLE_insertionSort
  exact (ordered.sortedLT_of_nodup distinct).pairwise

theorem self_mem (member : node ∈ nodes) : node.raft.selfAddr ∈ addresses nodes :=
  List.mem_map_of_mem member

/-- A node that does not list itself sorts exactly the addresses of the cluster. -/
theorem allAddrs_sorted (cluster : RaftCluster nodes) (member : node ∈ nodes)
    (apart : node.raft.selfAddr ∉ node.raft.partnerAddrs) :
    allAddrs node.raft = sortedAddrs nodes := by
  have partners : node.raft.partnerAddrs.filter (· != node.raft.selfAddr) =
      node.raft.partnerAddrs := by
    rw [List.filter_eq_self]
    intro addr listed
    simp only [bne_iff_ne, ne_eq]
    rintro rfl
    exact apart listed
  have others := cluster.lists node member
  rw [partners] at others
  have split := List.perm_cons_erase (self_mem member)
  rw [cluster.distinct.erase_eq_filter] at split
  have whole : (node.raft.selfAddr :: node.raft.partnerAddrs).Perm (addresses nodes) :=
    (others.cons _).trans split.symm
  refine List.Perm.eq_of_sortedLE List.sortedLE_insertionSort List.sortedLE_insertionSort ?_
  exact (List.perm_insertionSort _ _).trans (whole.trans (List.perm_insertionSort _ _).symm)

/-- An address stands in the sorted list at its rank. -/
theorem sorted_position (cluster : RaftCluster nodes) {addr : Str} {position : Nat}
    (found : (sortedAddrs nodes)[position]? = some addr) : position + 1 = rank nodes addr := by
  have count := filter_below_length (sortedAddrs_increasing cluster) position found
  rw [rank, ← (sortedAddrs_perm.filter _).length_eq, count]

/-- The map of a node that does not list itself has its address at its rank only. -/
theorem memberMap_self (cluster : RaftCluster nodes) (member : node ∈ nodes)
    (apart : node.raft.selfAddr ∉ node.raft.partnerAddrs) (id : Nat) :
    memberMap node.raft id = some node.raft.selfAddr ↔ id = rank nodes node.raft.selfAddr := by
  rw [memberMap_get, allAddrs_sorted cluster member apart]
  constructor
  · intro found
    split at found
    · cases found
    · rename_i positive
      have position := sorted_position cluster found
      omega
  · rintro rfl
    have present : node.raft.selfAddr ∈ sortedAddrs nodes :=
      sortedAddrs_perm.mem_iff.mpr (self_mem member)
    obtain ⟨position, found⟩ := List.mem_iff_getElem?.mp present
    rw [← sorted_position cluster found]
    exact found

/-- Without an explicit id the node takes its rank. -/
theorem derived_id (cluster : RaftCluster nodes) (member : node ∈ nodes)
    (apart : node.raft.selfAddr ∉ node.raft.partnerAddrs) :
    ((allAddrs node.raft).findIdx? (· == node.raft.selfAddr)).getD 0 + 1 =
      rank nodes node.raft.selfAddr := by
  rw [allAddrs_sorted cluster member apart]
  have present : node.raft.selfAddr ∈ sortedAddrs nodes :=
    sortedAddrs_perm.mem_iff.mpr (self_mem member)
  cases found : (sortedAddrs nodes).findIdx? (· == node.raft.selfAddr) with
  | none =>
      rw [List.findIdx?_eq_none_iff] at found
      simpa using found _ present
  | some position =>
      obtain ⟨inside, here, _⟩ := List.findIdx?_eq_some_iff_getElem.mp found
      have place : (sortedAddrs nodes)[position]? = some node.raft.selfAddr := by
        rw [List.getElem?_eq_getElem inside, beq_iff_eq.mp here]
      exact sorted_position cluster place

theorem nodeId_rank (cluster : RaftCluster nodes) (plain : Plain nodes) (member : node ∈ nodes) :
    nodeId node.raft = rank nodes node.raft.selfAddr := by
  obtain ⟨apart, explicit⟩ := plain node member
  unfold nodeId
  cases chosen : node.raft.nodeId with
  | some id => exact explicit id chosen
  | none => exact derived_id cluster member apart

/-- A node that lists itself numbers its own address twice. -/
theorem self_twice (listed : node.raft.selfAddr ∈ node.raft.partnerAddrs) :
    ∃ first second, first ≠ second ∧ memberMap node.raft first = some node.raft.selfAddr ∧
      memberMap node.raft second = some node.raft.selfAddr := by
  have twice : List.Duplicate node.raft.selfAddr (allAddrs node.raft) := by
    rw [List.duplicate_iff_sublist]
    refine List.sublist_insertionSort' (by simp) ?_
    exact ((List.singleton_sublist.mpr listed).cons_cons _).subperm
  obtain ⟨first, second, below, isFirst, isSecond⟩ :=
    List.duplicate_iff_exists_distinct_get.mp twice
  refine ⟨first + 1, second + 1, by omega, ?_, ?_⟩
  · rw [memberMap_get, if_neg (by omega)]
    simp [isFirst]
  · rw [memberMap_get, if_neg (by omega)]
    simp [isSecond]

/-- The nodes of a cluster agree on their Raft identities exactly when none lists its own
address among its partners and every explicit id is the node's place in the sorted
addresses. -/
theorem raft_identities_agree_iff (cluster : RaftCluster nodes) : Agrees nodes ↔ Plain nodes := by
  constructor
  · intro agrees node member
    have apart : node.raft.selfAddr ∉ node.raft.partnerAddrs := by
      intro listed
      obtain ⟨first, second, differ, isFirst, isSecond⟩ := self_twice listed
      have same := ((agrees.own node member first).mp isFirst).trans
        ((agrees.own node member second).mp isSecond).symm
      exact differ same
    refine ⟨apart, ?_⟩
    intro id chosen
    have own := (memberMap_self cluster member apart _).mp
      ((agrees.own node member _).mpr rfl)
    rwa [nodeId, chosen] at own
  · intro plain
    have sameMap : ∀ first ∈ nodes, ∀ second ∈ nodes,
        memberMap first.raft = memberMap second.raft := by
      intro first isFirst second isSecond
      funext id
      rw [memberMap_get, memberMap_get, allAddrs_sorted cluster isFirst (plain first isFirst).1,
        allAddrs_sorted cluster isSecond (plain second isSecond).1]
    have own : ∀ node ∈ nodes, ∀ id, memberMap node.raft id = some node.raft.selfAddr ↔
        id = nodeId node.raft := by
      intro node member id
      rw [nodeId_rank cluster plain member]
      exact memberMap_self cluster member (plain node member).1 id
    refine ⟨sameMap, ?_, own⟩
    -- The map gives every node its address back from its id, and the addresses differ.
    have back : (nodes.map fun node => nodeId node.raft).map
        (fun id => if id = 0 then none else (sortedAddrs nodes)[id - 1]?) =
          (addresses nodes).map some := by
      rw [addresses, List.map_map, List.map_map]
      apply List.map_congr_left
      intro node member
      have found := (own node member _).mpr rfl
      rw [memberMap_get, allAddrs_sorted cluster member (plain node member).1] at found
      exact found
    have mapped : ((addresses nodes).map some).Nodup :=
      cluster.distinct.map (Option.some_injective _)
    rw [← back] at mapped
    exact mapped.of_map _

end Cluster

/-- The sample configuration with these Raft settings. -/
def sampleNode (self : String) (partners : List String) (id : Option Nat) : Config :=
  { Config.sample with raft := ⟨self.toList, partners.map String.toList, id⟩ }

def pair (ownAddress : List String) (id : Option Nat) : List Config :=
  [sampleNode "a:1" (ownAddress ++ ["b:1"]) id, sampleNode "b:1" ["a:1"] none]

theorem pair_valid (ownAddress : List String) (id : Option Nat) :
    ∀ node ∈ pair ownAddress id, node.validate = .ok () := by
  intro node member
  simp only [pair, List.mem_cons, List.not_mem_nil, or_false] at member
  rcases member with rfl | rfl
  · cases ownAddress with
    | nil => rfl
    | cons addr rest => rfl
  · rfl

/-- Two nodes that list each other; one spells out the id it would get. -/
theorem raft_identities_agree_iff_pair : Agrees (pair [] (some 1)) := by
  have cluster : RaftCluster (pair [] (some 1)) := ⟨pair_valid _ _, by decide, by decide⟩
  rw [raft_identities_agree_iff cluster]
  intro node member
  simp only [pair, List.mem_cons, List.not_mem_nil, or_false] at member
  rcases member with rfl | rfl
  · refine ⟨by decide, ?_⟩
    intro id chosen
    cases chosen
    decide
  · refine ⟨by decide, ?_⟩
    intro id chosen
    cases chosen

/-- A node that lists itself offers another map than its partner, with its address twice;
a node with an explicit id may share it with another. -/
theorem raft_identities_disagree :
    (RaftCluster (pair ["a:1"] none) ∧ ¬ Agrees (pair ["a:1"] none)) ∧
      RaftCluster (pair [] (some 2)) ∧ ¬ Agrees (pair [] (some 2)) := by
  refine ⟨⟨⟨pair_valid _ _, by decide, by decide⟩, ?_⟩,
    ⟨pair_valid _ _, by decide, by decide⟩, ?_⟩
  · intro agrees
    have same := congrFun (agrees.sameMap _ (List.mem_cons_self) _
      (List.mem_cons_of_mem _ List.mem_cons_self)) 2
    exact absurd same (by decide)
  · intro agrees
    exact absurd agrees.distinct (by decide)

end PgHa.RaftIdentity
