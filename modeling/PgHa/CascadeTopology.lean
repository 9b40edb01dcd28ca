import PgHa.HaFollow
import PgHa.RootReach

/-!
Whom the nodes of a cluster follow, taken together (cascading.rs, ha/follow.rs). Each
node looks at its own `replicatefrom` tag and at the state of the one member it names;
the paths that result lead to the leader exactly if the tags of the running members do
not form a ring.
-/

namespace PgHa.CascadeTopology

open Relation
open Text Cluster HaState HaFollow RootReach

/-- `CascadeManager::is_cascade_source_healthy`. -/
def isCascadeSourceHealthy (source : Str) (cluster : ClusterView) : Bool :=
  (cluster.getMember source).any fun member => member.state == .running

/-- The upstream of `follow_upstream`, for the node `name` with this tag. -/
def followedUpstream (cluster : ClusterView) (replicatefrom : Str → Option Str)
    (lockOwner name : Str) :
    Str :=
  ((selectUpstream name (replicatefrom name) cluster).map Member.name).getD lockOwner

/-- The tag names another member that runs and is not the leader. -/
def Cascades (cluster : ClusterView) (replicatefrom : Str → Option Str)
    (leader name source : Str) :
    Prop :=
  replicatefrom name = some source ∧ source ≠ name ∧ source ≠ leader ∧
    isCascadeSourceHealthy source cluster = true

variable {cluster : ClusterView} {replicatefrom : Str → Option Str} {leader : Str}

theorem getMember_name {name : Str} {member : Member}
    (found : cluster.getMember name = some member) :
    member.name = name := by
  have named := List.find?_some found
  simpa using named

theorem getMember_listed {name : Str} {member : Member}
    (found : cluster.getMember name = some member) :
    name ∈ cluster.members.map Member.name := by
  rw [← getMember_name found]
  exact List.mem_map_of_mem (List.mem_of_find?_eq_some found)

theorem healthy_listed {source : Str} (healthy : isCascadeSourceHealthy source cluster = true) :
    ∃ member, cluster.getMember source = some member ∧ member.state = .running := by
  rw [isCascadeSourceHealthy, Option.any_eq_true] at healthy
  obtain ⟨member, found, running⟩ := healthy
  exact ⟨member, found, by simpa using running⟩

/-- The source that the tag names, if it is another member that runs, and else the leader. -/
theorem selectUpstream_cases (cluster : ClusterView) (name : Str) (tag : Option Str) :
    (∃ source, tag = some source ∧ source ≠ name ∧
      isCascadeSourceHealthy source cluster = true ∧
        selectUpstream name tag cluster = cluster.getMember source) ∨
      (∀ source, tag = some source → source ≠ name →
        isCascadeSourceHealthy source cluster = false) ∧
        selectUpstream name tag cluster = cluster.leader.bind cluster.getMember := by
  cases tag with
  | none =>
      right
      constructor
      · rintro source ⟨⟩
      · rfl
  | some source =>
      by_cases self : source = name
      · right
        constructor
        · rintro _ ⟨⟩ other
          exact absurd self other
        · simp only [selectUpstream, if_pos self]
      · cases found : cluster.getMember source with
        | none =>
            right
            constructor
            · rintro _ ⟨⟩ _
              simp [isCascadeSourceHealthy, found]
            · simp only [selectUpstream, if_neg self, found]
        | some member =>
            by_cases running : member.state = .running
            · left
              refine ⟨source, rfl, self, ?_, ?_⟩
              · simp [isCascadeSourceHealthy, found, running]
              · simp only [selectUpstream, if_neg self, found, if_pos running]
            · right
              constructor
              · rintro _ ⟨⟩ _
                simp [isCascadeSourceHealthy, found, running]
              · simp only [selectUpstream, if_neg self, found, if_neg running]

theorem followedUpstream_cases (lockOwner name : Str) {holder : Member}
    (locked : cluster.leader = some leader) (listed : cluster.getMember leader = some holder) :
    Cascades cluster replicatefrom leader name
      (followedUpstream cluster replicatefrom lockOwner name) ∨
      followedUpstream cluster replicatefrom lockOwner name = leader ∧
        ∀ source, ¬ Cascades cluster replicatefrom leader name source := by
  rcases selectUpstream_cases cluster name (replicatefrom name) with
    ⟨source, named, other, healthy, selected⟩ | ⟨unhealthy, selected⟩
  · obtain ⟨member, found, _⟩ := healthy_listed healthy
    have follows : followedUpstream cluster replicatefrom lockOwner name = source := by
      rw [followedUpstream, selected, found]
      exact getMember_name found
    rw [follows]
    by_cases direct : source = leader
    · right
      refine ⟨direct, ?_⟩
      rintro target ⟨tagged, _, cascaded, _⟩
      rw [named, Option.some.injEq] at tagged
      exact cascaded (tagged ▸ direct)
    · exact .inl ⟨named, other, direct, healthy⟩
  · right
    constructor
    · rw [followedUpstream, selected, locked, Option.bind_some, listed]
      exact getMember_name listed
    · rintro source ⟨named, other, _, healthy⟩
      rw [unhealthy source named other] at healthy
      cases healthy

/-- To stray from the leader is to stream from the member that one's tag names. -/
theorem strays_iff_cascades (lockOwner name source : Str) {holder : Member}
    (locked : cluster.leader = some leader) (listed : cluster.getMember leader = some holder) :
    Strays (followedUpstream cluster replicatefrom lockOwner) leader name source ↔
      Cascades cluster replicatefrom leader name source := by
  rcases followedUpstream_cases lockOwner name locked listed with cascaded | ⟨direct, none⟩
  · constructor
    · rintro ⟨rfl, _⟩
      exact cascaded
    · rintro ⟨named, _, indirect, _⟩
      have same := cascaded.1.symm.trans named
      exact ⟨Option.some.inj same, indirect⟩
  · constructor
    · rintro ⟨rfl, indirect⟩
      exact absurd direct indirect
    · intro cascaded
      exact absurd cascaded (none source)

/-- For every tag assignment and every state of the members: each member comes to the
leader by following upstreams exactly if no tags form a ring of running members. -/
theorem followers_reach_leader_iff (cluster : ClusterView) (leader : Str) (holder : Member)
    (locked : cluster.leader = some leader) (listed : cluster.getMember leader = some holder)
    (replicatefrom : Str → Option Str) (lockOwner : Str) :
    (∀ name ∈ cluster.members.map Member.name, name ≠ leader →
        ∃ steps, (followedUpstream cluster replicatefrom lockOwner)^[steps] name = leader) ↔
      ∀ name, ¬ TransGen (Cascades cluster replicatefrom leader) name name := by
  have same : Strays (followedUpstream cluster replicatefrom lockOwner) leader =
      Cascades cluster replicatefrom leader := by
    funext name source
    exact propext (strays_iff_cascades lockOwner name source locked listed)
  have closed : ∀ name ∈ cluster.members.map Member.name,
      followedUpstream cluster replicatefrom lockOwner name = leader ∨
        followedUpstream cluster replicatefrom lockOwner name ∈
          cluster.members.map Member.name := by
    intro name _
    rcases followedUpstream_cases lockOwner name locked listed with cascaded | ⟨direct, _⟩
    · obtain ⟨member, found, _⟩ := healthy_listed cascaded.2.2.2
      exact .inr (getMember_listed found)
    · exact .inl direct
  have whole := reaches_iff_no_cycle closed
  rw [same] at whole
  constructor
  · intro reach name cycle
    have onRing : name ∈ cluster.members.map Member.name := by
      obtain ⟨_, _, last⟩ := TransGen.tail'_iff.mp cycle
      obtain ⟨member, found, _⟩ := healthy_listed last.2.2.2
      exact getMember_listed found
    refine whole.mp ?_ name onRing cycle
    intro other member
    by_cases isLeader : other = leader
    · exact ⟨0, isLeader⟩
    · exact reach other member isLeader
  · intro acyclic name member _
    exact whole.mpr (fun other _ => acyclic other) name member

def runningMember (name : Str) : Member :=
  ⟨name, .running, .replica, none, none, ⟨none, none, none, none⟩, false, none, false⟩

/-- The leader `a` and the standbys `b` and `c`, all running. -/
def threeNodes : ClusterView :=
  ⟨some "a".toList, ["a".toList, "b".toList, "c".toList].map runningMember, none, none,
    none, .absent,
    none, none⟩

/-- `c` streams from `b`. -/
def chainTags (name : Str) : Option Str := if name = "c".toList then some "b".toList else none

theorem followers_reach_leader_chain :
    "c".toList ∈ threeNodes.members.map Member.name ∧
      ∀ name ∈ threeNodes.members.map Member.name, name ≠ "a".toList →
        ∃ steps, (followedUpstream threeNodes chainTags "a".toList)^[steps] name =
          "a".toList := by
  refine ⟨by decide,
    (followers_reach_leader_iff threeNodes "a".toList (runningMember "a".toList) rfl rfl
    chainTags "a".toList).mpr ?_⟩
  have onlyEdge : ∀ name source, Cascades threeNodes chainTags "a".toList name source →
      name = "c".toList ∧ source = "b".toList := by
    rintro name source ⟨named, _⟩
    by_cases third : name = "c".toList
    · rw [chainTags, if_pos third, Option.some.injEq] at named
      exact ⟨third, named.symm⟩
    · rw [chainTags, if_neg third] at named
      cases named
  intro name cycle
  obtain ⟨_, first, _⟩ := TransGen.head'_iff.mp cycle
  obtain ⟨_, _, last⟩ := TransGen.tail'_iff.mp cycle
  have apart : "c".toList ≠ "b".toList := by decide
  exact apart ((onlyEdge _ _ first).1.symm.trans (onlyEdge _ _ last).2)

/-- `b` streams from `c` and `c` from `b`. -/
def ringTags (name : Str) : Option Str :=
  if name = "b".toList then some "c".toList
  else if name = "c".toList then some "b".toList
  else none

/-- Both standbys of a ring run, and neither is fed by the leader. -/
theorem ring_never_reaches_leader :
    threeNodes.leader = some "a".toList ∧
      (threeNodes.getMember "a".toList).map Member.state = some .running ∧
      "b".toList ∈ threeNodes.members.map Member.name ∧
      ¬ ∃ steps, (followedUpstream threeNodes ringTags "a".toList)^[steps] "b".toList =
        "a".toList := by
  have listed : threeNodes.getMember "a".toList = some (runningMember "a".toList) := rfl
  have toThird : Strays (followedUpstream threeNodes ringTags "a".toList) "a".toList "b".toList
      "c".toList :=
    (strays_iff_cascades _ _ _ rfl listed).mpr ⟨rfl, by decide, by decide, rfl⟩
  have toSecond : Strays (followedUpstream threeNodes ringTags "a".toList) "a".toList "c".toList
      "b".toList :=
    (strays_iff_cascades _ _ _ rfl listed).mpr ⟨rfl, by decide, by decide, rfl⟩
  exact ⟨rfl, rfl, by decide, not_reaches_of_cycle (.tail (.single toThird) toSecond)⟩

end PgHa.CascadeTopology
