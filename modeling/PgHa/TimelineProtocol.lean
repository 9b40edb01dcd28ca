import PgHa.LatestTimeline
import PgHa.Transition

/-!
Promotes against the `/timeline` record. Nodes publish what they sampled, now or
late; the lock comes and goes; `record_pending_promote`, `confirm_promote` and the
Hold path decide on the cycle's view and send a compare-and-swap that commits
later, or never. PostgreSQL gives a new timeline the number after its newest
history, and starts with no promote signal left from an earlier server run. There
is no operator override, so the history generation of the record never changes.
-/

namespace PgHa.TimelineProtocol

open Text Cluster LatestTimeline Transition

inductive Role where
  | standby
  | primary
  deriving DecidableEq, Repr

/-- The cluster as a cycle read it. -/
structure View where
  timeline : ClusterTimeline
  members : List Member
  leader : Option Str
  voters : Option Nat

/-- `history` and `run` are what `newest_history` and `server_run` find in the
data directory. `goAhead` is the entry under which this cycle may call
`pg_ctl promote`, `promotePending` the one kept for the lock term. -/
structure Node where
  history : TimelineId
  generation : Nat
  run : Option Str
  role : Role
  signalled : Bool
  lockOwner : Bool
  view : Option View
  promotePending : Option PendingPromote
  asked : Option PendingPromote
  goAhead : Option PendingPromote

inductive Purpose where
  | pendingEntry
  | confirmation
  | hold
  deriving DecidableEq, Repr

/-- A compare-and-swap of `/timeline` on its way to the store. -/
structure Write where
  node : Str
  purpose : Purpose
  record : TimelineRecord
  version : Option Nat

/-- A timeline that a promote created. -/
structure Promote where
  node : Str
  run : Str
  id : TimelineId
  generation : Nat
  deriving DecidableEq, Repr

structure World where
  nodes : Str → Node
  record : TimelineRecord
  version : Nat
  members : List Member
  leader : Option Str
  samples : List Member
  writes : List Write
  promotes : List Promote
  runs : List (Str × Str)

inductive Act where
  | sample (node : Str) (member : Member)
  | publish (member : Member)
  | forget (node : Str)
  | read (node : Str) (voters : Option Nat)
  | acquire (node : Str) (heard : Bool)
  | dropLock
  | plan (node : Str)
  | land (index : Nat) (heard : Bool)
  | promote (node : Str)
  | promoteFails (node : Str)
  | create (node : Str) (begin : Nat) (interrupted : Bool)
  | confirm (node : Str)
  | hold (node : Str)
  | stop (node : Str)
  | start (node : Str) (run : Str) (asStandby : Bool)
  | follow (node source : Str)

def World.update (world : World) (name : Str) (node : Node) : World :=
  { world with nodes := fun other => if other = name then node else world.nodes other }

def Node.evidence (node : Node) (wal : Bool) : HistoryEvidence :=
  ⟨node.history.timeline, node.history.begin, wal⟩

/-- What `touch_member` may send for the node as it is: evidence that cannot be
read is left out as a whole, the begin of the newest timeline is the local one. -/
def describes (name : Str) (node : Node) (member : Member) : Bool :=
  member.name == name &&
  ((member.state == .stopped || member.state == .crashed) == node.run.isNone) &&
  (match member.lineage with
  | none => true
  | some lineage =>
      lineage.history.any (fun history => history.id == node.history) &&
      lineage.postmasterStart == node.run && lineage.generation == node.generation &&
      member.timeline.all (fun timeline =>
        timeline < node.history.timeline ||
          (timeline == node.history.timeline &&
            lineage.timelineBegin == some node.history.begin)))

def View.latest (view : View) : Latest :=
  resolveLatest view.timeline view.members view.voters

/-- The guards of the election on the node's own data: history generation not
stale, and on the latest timeline as it published. -/
def mayCampaign (name : Str) (node : Node) (view : View) : Bool :=
  let current : Bool :=
    match view.latest with
    | .known _ generation _ => generation ≤ node.generation
    | .pendingUnresolved pending =>
        pending.node = name ∨ max view.timeline.generation pending.generation ≤ node.generation
    | .unknown _ => view.timeline.generation ≤ node.generation
  current && (match view.members.find? (fun member => member.name == name) with
    | none => false
    | some member => !member.watchdogFailed && (eligibility member view.latest).isOk)

/-- `record_pending_promote` up to its write. -/
def planEntry (name : Str) (node : Node) (view : View) (run : Str) : Except Str PendingPromote :=
  planPromote name view.latest view.timeline.generation (node.evidence false) false (some run)

/-- The store takes the write, and its sender may hear of it. -/
def World.commit (world : World) (write : Write) (heard : Bool) : World :=
  let node := world.nodes write.node
  let written := { world with record := write.record, version := world.version + 1 }
  match heard, write.purpose with
  | true, .pendingEntry =>
      if node.asked = write.record.pending then
        written.update write.node
          { node with
            promotePending := write.record.pending, goAhead := write.record.pending, asked := none }
      else written
  | true, .confirmation =>
      written.update write.node { node with promotePending := none, goAhead := none }
  | true, .hold | false, _ => written

def step (world : World) : Act → Option World
  | .sample name member =>
      if describes name (world.nodes name) member then
        some { world with samples := member :: world.samples }
      else none
  | .publish member =>
      if member ∈ world.samples then
        some { world with
          members := member :: world.members.filter fun other => other.name != member.name }
      else none
  | .forget name =>
      some { world with members := world.members.filter fun other => other.name != name }
  | .read name voters =>
      let node := world.nodes name
      let owner : Bool := world.leader = some name
      some (world.update name
        { node with
          lockOwner := owner
          view := some
            { timeline := .record world.record world.version
              members := world.members
              leader := world.leader
              voters := voters }
          promotePending := if owner then node.promotePending else none
          asked := none
          goAhead := none })
  | .acquire name heard =>
      let node := world.nodes name
      match node.view with
      | none => none
      | some view =>
          if view.leader.isNone ∧ mayCampaign name node view ∧ world.leader = none then
            some ({ world with leader := some name }.update name { node with lockOwner := heard })
          else none
  | .dropLock => some { world with leader := none }
  | .plan name =>
      let node := world.nodes name
      match node.lockOwner, node.view, node.promotePending, node.run with
      | true, some _, some pending, _ =>
          some (world.update name { node with goAhead := some pending })
      | true, some view, none, some run =>
          match planEntry name node view run with
          | .error _ => none
          | .ok pending =>
              some { world.update name { node with asked := some pending } with
                writes := ⟨name, .pendingEntry, pendingRecord view.timeline pending,
                  view.timeline.version⟩ :: world.writes }
      | _, _, _, _ => none
  | .land index heard =>
      match world.writes[index]? with
      | none => none
      | some write =>
          let rest := { world with writes := world.writes.eraseIdx index }
          if write.version = some world.version then some (rest.commit write heard)
          else some rest
  | .promote name =>
      let node := world.nodes name
      if node.lockOwner ∧ node.goAhead.isSome ∧ node.run.isSome ∧ node.role = .standby then
        some (world.update name { node with signalled := true })
      else none
  | .promoteFails name =>
      some (world.update name { world.nodes name with signalled := false })
  | .create name begin interrupted =>
      let node := world.nodes name
      match node.run with
      | none => none
      | some run =>
          if node.signalled ∧ node.role = .standby then
            let id : TimelineId := ⟨node.history.timeline + 1, begin⟩
            some { world.update name
                { node with
                  history := id, signalled := false
                  role := if interrupted then .standby else .primary } with
              promotes := ⟨name, run, id, node.generation⟩ :: world.promotes }
          else none
  | .confirm name =>
      let node := world.nodes name
      match node.goAhead with
      | none => none
      | some pending =>
          if node.run.isSome ∧ node.role = .primary ∧ world.record.pending = some pending then
            match confirmedRecord name pending node.history with
            | .error _ => none
            | .ok record =>
                some { world with
                  writes := ⟨name, .confirmation, record, some world.version⟩ :: world.writes }
          else none
  | .hold name =>
      let node := world.nodes name
      match node.view with
      | none => none
      | some view =>
          if node.lockOwner ∧ node.run.isSome ∧ node.role = .primary then
            match holdAction name view.timeline view.members view.voters node.history
                node.generation with
            | .write record =>
                some { world with
                  writes := ⟨name, .hold, record, view.timeline.version⟩ :: world.writes }
            | .upToDate | .conflict _ => none
          else none
  | .stop name =>
      some (world.update name { world.nodes name with run := none, signalled := false })
  | .start name run asStandby =>
      let node := world.nodes name
      if node.run = none ∧ (name, run) ∉ world.runs then
        some { world.update name
            { node with run := some run, role := if asStandby then .standby else node.role } with
          runs := (name, run) :: world.runs }
      else none
  | .follow name source =>
      let node := world.nodes name
      let upstream := world.nodes source
      if node.run.isSome ∧ node.role = .standby ∧ upstream.generation = node.generation ∧
          node.history.timeline < upstream.history.timeline then
        some (world.update name { node with history := upstream.history })
      else none

/-- A history of the record's generation is below the record or is the one it
names. -/
def AtOrBelow (record : TimelineRecord) (id : TimelineId) : Prop :=
  id.timeline < record.timeline ∨ id = record.id

/-- A record that names the highest timeline of its generation, and a cluster
in which no promote and no write is under way. -/
structure Start (world : World) : Prop where
  settled : world.record.pending = none
  highest : ∀ name, (world.nodes name).generation = world.record.generation →
    AtOrBelow world.record (world.nodes name).history
  published : ∀ member ∈ world.members ++ world.samples, ∀ lineage,
    member.lineage = some lineage →
    lineage.generation = world.record.generation → ∀ history, lineage.history = some history →
      AtOrBelow world.record history.id
  generations : ∀ name, (world.nodes name).generation ≤ world.record.generation
  leading : ∀ name, world.leader = some name ∨ (world.nodes name).lockOwner →
    (world.nodes name).generation = world.record.generation
  quiet : ∀ name, (world.nodes name).signalled = false ∧ (world.nodes name).view = none ∧
    (world.nodes name).promotePending = none ∧ (world.nodes name).goAhead = none
  running : ∀ name run, (world.nodes name).run = some run → (name, run) ∈ world.runs
  unwritten : world.writes = []
  unpromoted : world.promotes = []

/-- Within a history generation every promote created a number of its own. -/
def NumbersUnique (world : World) : Prop :=
  (world.promotes.map fun promote => (promote.generation, promote.id.timeline)).Nodup

end PgHa.TimelineProtocol
