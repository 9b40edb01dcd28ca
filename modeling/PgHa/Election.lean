import PgHa.HaState

/-!
`ha/election.rs` and the verdicts of `ha/helpers.rs` it rests on: who may campaign,
who is deferred to, and which node is the healthiest. All are read off the cycle's
view; `usable` says whether the node's own watchdog may be armed.
-/

namespace PgHa.Election

open Text Cluster Identity LatestTimeline HaState

/-- With sync mode on only a name in `/sync` may take the lock. -/
def syncFailoverAllowed (name : Str) (syncModeEnabled : Bool) (syncState : Option SyncState) :
    Bool :=
  if !syncModeEnabled then true
  else match syncState with
    | none => false
    | some state =>
        match state.syncStandby with
        | none => false
        | some raw =>
            let trimmed := trim raw
            if trimmed.isEmpty || trimmed == ['*'] then false else state.matchesName name

def exceedsFailoverLag (ownWal : Option Nat) (maxWal : Nat) (threshold : Option Nat) : Bool :=
  match threshold, ownWal with
  | none, _ => false
  | some _, none => true
  | some limit, some own => decide (limit < maxWal - own)

def latestTimeline (cluster : ClusterView) : Latest :=
  resolveLatest cluster.timeline cluster.members cluster.dcsVoters

def memberEligibility (cluster : ClusterView) (member : Member) : Except Ineligible Unit :=
  if member.watchdogFailed then .error .watchdogUnavailable
  else eligibility member (latestTimeline cluster)

def mayCampaign (cluster : ClusterView) (member : Member) : Bool :=
  (memberEligibility cluster member).isOk

theorem mayCampaign_iff {cluster : ClusterView} {member : Member} :
    mayCampaign cluster member = true ↔
      member.watchdogFailed = false ∧ eligibility member (latestTimeline cluster) = .ok () := by
  unfold mayCampaign memberEligibility
  cases member.watchdogFailed with
  | true => simp [Except.isOk, Except.toBool]
  | false =>
      cases eligibility member (latestTimeline cluster) with
      | ok => simp [Except.isOk, Except.toBool]
      | error why => simp [Except.isOk, Except.toBool]

inductive OwnEligibility where
  | eligible
  | ineligible (why : Ineligible)
  | override (why : Ineligible)
  | overrideIgnored (why : Ineligible) (eligible : Str)

def ownEligibility (usable : Bool) (ha : Ha) : OwnEligibility :=
  if !usable then .ineligible .watchdogUnavailable
  else
    let verdict := match ha.cluster.getMember ha.config.name with
      | some member => memberEligibility ha.cluster member
      | none => .error .noEvidence
    match verdict with
    | .ok () => .eligible
    | .error why =>
        if !ha.directory.acceptTimelineLoss then .ineligible why
        else match ha.cluster.members.find? fun member =>
            member.name != ha.config.name && mayCampaign ha.cluster member with
          | some other => .overrideIgnored why other.name
          | none => .override why

def OwnEligibility.campaigns : OwnEligibility → Bool
  | .eligible | .override _ => true
  | .ineligible _ | .overrideIgnored _ _ => false

/-- A candidate in the member list that may not campaign is not deferred to. -/
def honouredCandidate (ha : Ha) : Option Str :=
  match ha.cluster.failover.bind Failover.candidate with
  | none => none
  | some candidate =>
      let member := ha.cluster.getMember candidate
      if member.any fun found => found.isNofailover || found.state != .running then none
      else if honourDesignatedCandidate (candidate == ha.config.name)
          (member.map (mayCampaign ha.cluster)) then
        some candidate
      else none

def excludedSwitchoverLeader (ha : Ha) : Option Str :=
  if (honouredCandidate ha).isSome then none
  else (ha.cluster.failover.bind Failover.leader).filter fun name => !name.isEmpty

def syncMode (ha : Ha) : Bool := ha.lastConfig.sync.enabled

/-- The gates of a peer that may take the lock; `excluded` is the leader that was
asked to step down. -/
def peerPassesGates (ha : Ha) (excluded : Option Str) (member : Member) : Bool :=
  member.name != ha.config.name && excluded != some member.name && !member.isNofailover &&
    member.failoverPriority != 0 && member.state == .running &&
    syncFailoverAllowed member.name (syncMode ha) ha.cluster.syncState &&
    mayCampaign ha.cluster member

/-- Someone other than this node could win the election after a switchover. -/
def hasSwitchoverSuccessor (ha : Ha) : Bool := ha.cluster.members.any (peerPassesGates ha none)

/-- More WAL, then the higher priority, then the lower name. -/
def outranks (member : Member) (wal priority : Nat) (name : Str) : Bool :=
  let theirs := member.walPosition.getD 0
  decide (wal < theirs) ||
    (theirs == wal &&
      (decide (priority < member.failoverPriority) ||
        (member.failoverPriority == priority && decide (member.name < name))))

def isHealthiestNode (usable : Bool) (ha : Ha) : Bool :=
  let excluded := excludedSwitchoverLeader ha
  let maxLag := ha.lastConfig.maximumLagOnFailover
  let ownWal := (ha.cluster.getMember ha.config.name).bind Member.walPosition
  let maxWal :=
    if maxLag.isSome then
      ((ha.cluster.members.filter fun member =>
        member.name == ha.config.name || peerPassesGates ha excluded member).filterMap
          Member.walPosition).max?.getD 0
    else 0
  if ha.config.nofailover || ha.config.failoverPriority == 0 then false
  else if !(ownEligibility usable ha).campaigns then false
  else if !ha.isRunning then false
  else if !syncFailoverAllowed ha.config.name (syncMode ha) ha.cluster.syncState then false
  else if excluded == some ha.config.name then false
  else if exceedsFailoverLag ownWal maxWal maxLag then false
  else ha.cluster.members.all fun member =>
    !(peerPassesGates ha excluded member &&
      !exceedsFailoverLag member.walPosition maxWal maxLag &&
      outranks member (ownWal.getD 0) ha.config.failoverPriority ha.config.name)

/-- Is the local data of an older generation than the cluster's? The cluster's
generation, the local one, and whether an override promote is in progress. -/
def staleGeneration (ha : Ha) : Option (Nat × Except Str Nat × Bool) :=
  let recorded := ha.cluster.timeline.generation
  let compare (generation : Nat) (inProgress : Bool) : Option (Nat × Except Str Nat × Bool) :=
    match ha.directory.generation with
    | .ok own =>
        if generation ≤ own then none else some (generation, .ok own, inProgress)
    | .error e => some (generation, .error e, inProgress)
  match latestTimeline ha.cluster with
  | .known _ generation _ => compare generation false
  | .pendingUnresolved pending =>
      if pending.node = ha.config.name then none
      else compare (max recorded pending.generation) (decide (recorded < pending.generation))
  | .unknown _ => compare recorded false

end PgHa.Election
