import PgHa.Text

/-!
The cluster view of `pg-ha-core/src/cluster.rs`, with the fields the decisions
read. A member's tags are the values `as_bool` and `as_u64` find in them; URLs,
versions and the configuration map are left out.
-/

namespace PgHa.Cluster

open Text

inductive MemberState where
  | running
  | stopped
  | starting
  | crashed
  | unknown
  deriving DecidableEq, Repr

inductive MemberRole where
  | primary
  | replica
  | standbyLeader
  | uninitialized
  deriving DecidableEq, Repr

structure TimelineId where
  timeline : Nat
  begin : Nat
  deriving DecidableEq, Repr

/-- Newest timeline history file in a data directory. -/
structure HistoryEvidence where
  timeline : Nat
  begin : Nat
  wal : Bool
  deriving DecidableEq, Repr

def HistoryEvidence.id (evidence : HistoryEvidence) : TimelineId :=
  ⟨evidence.timeline, evidence.begin⟩

/-- What a member publishes about its timelines. -/
structure Lineage where
  timelineBegin : Option Nat
  history : Option HistoryEvidence
  postmasterStart : Option Str
  generation : Nat
  deriving DecidableEq, Repr

structure Tags where
  nofailover : Option Bool
  nosync : Option Bool
  failoverPriority : Option Nat
  syncPriority : Option Nat
  deriving DecidableEq, Repr

structure Member where
  name : Str
  state : MemberState
  role : MemberRole
  walPosition : Option Nat
  timeline : Option Nat
  tags : Tags
  rewindCheck : Bool
  lineage : Option Lineage
  watchdogFailed : Bool
  deriving DecidableEq, Repr

def Member.isNofailover (member : Member) : Bool := member.tags.nofailover.getD false

def Member.isNosync (member : Member) : Bool := member.tags.nosync.getD false

-- Both priorities are cut to `u32`.
def Member.failoverPriority (member : Member) : Nat :=
  (member.tags.failoverPriority.getD 1) % 2 ^ 32

def Member.syncPriority (member : Member) : Nat := (member.tags.syncPriority.getD 0) % 2 ^ 32

/-- A promote that may have created a timeline above its base. -/
structure PendingPromote where
  node : Str
  baseTimeline : Nat
  baseBegin : Nat
  generation : Nat
  postmasterStart : Option Str
  deriving DecidableEq, Repr

def PendingPromote.base (pending : PendingPromote) : TimelineId :=
  ⟨pending.baseTimeline, pending.baseBegin⟩

structure TimelineRecord where
  timeline : Nat
  begin : Nat
  primary : Str
  generation : Nat
  pending : Option PendingPromote
  deriving DecidableEq, Repr

def TimelineRecord.id (record : TimelineRecord) : TimelineId := ⟨record.timeline, record.begin⟩

/-- The `/timeline` key as read, with the version for CAS writes. -/
inductive ClusterTimeline where
  | absent
  | legacy (value version : Nat)
  | record (record : TimelineRecord) (version : Nat)
  | unreadable (version : Nat)
  deriving DecidableEq, Repr

def ClusterTimeline.recordOf : ClusterTimeline → Option TimelineRecord
  | .record found _ => some found
  | .absent | .legacy _ _ | .unreadable _ => none

def ClusterTimeline.version : ClusterTimeline → Option Nat
  | .absent => none
  | .legacy _ version | .record _ version | .unreadable version => some version

def ClusterTimeline.generation (timeline : ClusterTimeline) : Nat :=
  (timeline.recordOf.map TimelineRecord.generation).getD 0

structure SyncState where
  leader : Str
  syncStandby : Option Str
  quorum : Nat
  deriving DecidableEq, Repr

/-- The names of `/sync`: split at commas, trimmed, empty ones dropped. -/
def SyncState.syncStandbyNames (state : SyncState) : List Str :=
  match state.syncStandby with
  | some names => ((names.splitOn ',').map trim).filter (fun name => !name.isEmpty)
  | none => []

def SyncState.matchesName (state : SyncState) (name : Str) : Bool :=
  state.syncStandbyNames.any fun standby => eqIgnoreAsciiCase standby name

end PgHa.Cluster
