import PgHa.Cluster

/-!
`ha/identity.rs`: what PostgreSQL is, from this cycle's observation and
`standby.signal`, and the tables of what pg-ha may do about it.
-/

namespace PgHa.Identity

open Text Cluster

inductive PgIdentity where
  | primary
  | managedStandby
  | unmanagedRecovery
  | unknown (hasStandbySignal : Bool)
  deriving DecidableEq, Repr

def classify (inRecovery : Option Bool) (hasStandbySignal : Bool) : PgIdentity :=
  match inRecovery with
  | some false => .primary
  | some true => if hasStandbySignal then .managedStandby else .unmanagedRecovery
  | none => .unknown hasStandbySignal

def PgIdentity.describe : PgIdentity → Str
  | .primary => "a primary (not in recovery)".toList
  | .managedStandby => "a standby configured by pg-ha".toList
  | .unmanagedRecovery => "in recovery without standby.signal".toList
  | .unknown _ => "in an unobserved recovery state".toList

inductive LeaderAction where
  | hold
  | promote
  | relinquish
  | wait
  deriving DecidableEq, Repr

def leaderAction : PgIdentity → LeaderAction
  | .primary => .hold
  | .managedStandby => .promote
  | .unmanagedRecovery => .relinquish
  | .unknown _ => .wait

inductive FollowerAction where
  | rejoin
  | follow
  | rewindCheck
  | handOff
  | fence
  | wait
  deriving DecidableEq, Repr

def followerAction (identity : PgIdentity) (stopPending hasRewindMarker : Bool) :
    FollowerAction :=
  match identity with
  | .primary => .rejoin
  | .managedStandby => if hasRewindMarker then .rewindCheck else .follow
  | .unmanagedRecovery => .handOff
  | .unknown false => .fence
  | .unknown true => if stopPending then .fence else .wait

inductive ElectionStance where
  | participate
  | standAside
  | wait
  | fence
  deriving DecidableEq, Repr

def electionStance (identity : PgIdentity) (stopPending : Bool) : ElectionStance :=
  match identity with
  | .primary => if stopPending then .fence else .participate
  | .unknown _ => if stopPending then .fence else .wait
  | .managedStandby => .participate
  | .unmanagedRecovery => .standAside

/-- Only the two recovery states of `pg_controldata` say no. -/
def lastRanAsPrimary (controldataState : Option Str) : Bool :=
  match controldataState.map trim with
  | some state =>
      !(state == "shut down in recovery".toList || state == "in archive recovery".toList)
  | none => true

def honourDesignatedCandidate (isSelf : Bool) (candidateMayCampaign : Option Bool) : Bool :=
  isSelf || candidateMayCampaign != some false

def leaderReadyInDcs (lockHolder : Option Str) (source : Str) (sourceMember : Option Member) :
    Bool :=
  lockHolder == some source &&
    sourceMember.any fun member => member.state == .running && member.role == .primary

def leaderReadyForRewind (lockHolder : Option Str) (source : Str) (sourceMember : Option Member)
    (sourceAnswersAsPrimary : Option Bool) : Bool :=
  leaderReadyInDcs lockHolder source sourceMember && sourceAnswersAsPrimary == some true

def rewindSourceNotReadyReason (dcsReady : Bool) (probe : Option Bool) : Str :=
  match dcsReady, probe with
  | false, _ => "is not the leader-lock holder running as a primary yet".toList
  | true, some false => "does not answer as a primary yet (it is in recovery)".toList
  | true, none => "does not answer as a primary yet (connection or query failed)".toList
  | true, some true => []

inductive AfterRewindStart where
  | started
  | stillStarting
  | failed
  deriving DecidableEq, Repr

def afterRewindStart (startOk runningAfter : Bool) : AfterRewindStart :=
  match startOk, runningAfter with
  | true, _ => .started
  | false, true => .stillStarting
  | false, false => .failed

inductive HeldNodeAction where
  | notHeld
  | hold
  | rebuild
  | waitForLeader
  deriving DecidableEq, Repr

def heldNodeAction (hold rebuildEnabled leaderReady : Bool) : HeldNodeAction :=
  match hold, rebuildEnabled, leaderReady with
  | false, _, _ => .notHeld
  | true, false, _ => .hold
  | true, true, true => .rebuild
  | true, true, false => .waitForLeader

/-- Held, and whether the operator removed the file pg-ha wrote. -/
def rewindHoldState (fileExists inMemory persisted : Bool) : Bool × Bool :=
  match fileExists, inMemory, persisted with
  | true, _, _ => (true, false)
  | false, true, false => (true, false)
  | false, true, true => (false, true)
  | false, false, _ => (false, false)

def reconcileRole (role : MemberRole) (identity : PgIdentity) : MemberRole :=
  match role, identity with
  | .primary, .managedStandby | .primary, .unmanagedRecovery => .replica
  | role, _ => role

def shutdownNeedsFence : PgIdentity → Bool
  | .primary | .unknown _ => true
  | .managedStandby | .unmanagedRecovery => false

/-- Nothing promotes a standby that pg-ha configured once pg-ha is gone. -/
def shutdownMayLeaveRunning (identity : PgIdentity) (isLeader : Bool) : Bool :=
  !isLeader && identity == .managedStandby

inductive WatchdogAction where
  | pet
  | hold
  | disarm
  deriving DecidableEq, Repr

def watchdogAction (pgRunning : Bool) (inRecovery : Option Bool) (paused leaseValid : Bool) :
    WatchdogAction :=
  let cannotWrite := !pgRunning || inRecovery == some true
  if cannotWrite || paused then .disarm
  else if leaseValid then .pet
  else .hold

section watchdogAction

variable {pgRunning paused leaseValid : Bool} {inRecovery : Option Bool}

theorem watchdogAction_pet
    (pets : watchdogAction pgRunning inRecovery paused leaseValid = .pet) : leaseValid = true := by
  simp only [watchdogAction] at pets
  split at pets
  · cases pets
  · split at pets
    · assumption
    · cases pets

theorem watchdogAction_disarm
    (disarms : watchdogAction pgRunning inRecovery paused leaseValid = .disarm) :
    pgRunning = false ∨ inRecovery = some true ∨ paused = true := by
  simp only [watchdogAction] at disarms
  split at disarms
  · rename_i harmless
    simpa [or_assoc] using harmless
  · split at disarms
    · cases disarms
    · cases disarms

end watchdogAction

end PgHa.Identity
