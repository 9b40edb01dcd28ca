import PgHa.CascadeTopology
import PgHa.Serde
import PgHa.Upstream

/-!
The record a node publishes about itself: `touch_member` of `ha/helpers.rs` builds a JSON
object by hand, the other nodes read it as the serde struct `Member` of `cluster.rs`,
where a missing field takes its default.
-/

namespace PgHa.MemberRecord

open Text Cluster Identity LatestTimeline HaState Election SyncNames Serde

/-- `Tags` of the node's own configuration. -/
structure ConfigTags where
  nofailover : Bool
  noloadbalance : Bool
  noclone : Bool
  nosync : Bool
  nostream : Bool
  clonefrom : Bool
  replicatefrom : Option Str
  failoverPriority : UInt32
  syncPriority : UInt32

/-- What `touch_member` reads of the configuration. -/
structure NodeConfig where
  name : Str
  selfAddr : Str
  postgresqlPort : Nat
  superuser : StandbyConfig.ConnectionParams
  restapiTls : Bool
  restapiPort : Nat
  tags : ConfigTags

inductive PgState where
  | running
  | stopped
  | starting
  | crashed
  | unknown
  deriving DecidableEq

/-- What `touch_member` reads of PostgreSQL and its data directory. -/
structure Observed where
  isRunning : Bool
  pgState : PgState
  identity : PgIdentity
  role : MemberRole
  walStatus : Except Str (Nat × Option Nat)
  hasRewindCheckMarker : Bool
  watchdogUsable : Bool
  localLineage : Option Nat → Option Lineage

def advertisedState (isRunning : Bool) (pgState : PgState) (identity : PgIdentity) : MemberState :=
  if !isRunning then
    if pgState = .crashed then .crashed else .stopped
  else match identity with
    | .primary | .managedStandby => .running
    | .unmanagedRecovery | .unknown _ => .unknown

def stateText : MemberState → Str
  | .running => "running".toList
  | .stopped => "stopped".toList
  | .starting => "starting".toList
  | .crashed => "crashed".toList
  | .unknown => "unknown".toList

def roleText : MemberRole → Str
  | .primary => "primary".toList
  | .replica => "replica".toList
  | .standbyLeader => "standby_leader".toList
  | .uninitialized => "uninitialized".toList

def historyJson (history : HistoryEvidence) : Json :=
  .object [("timeline".toList, .number history.timeline), ("begin".toList, .number history.begin),
    ("wal".toList, .bool history.wal)]

def lineageJson (lineage : Lineage) : Json :=
  .object [("timeline_begin".toList, optional .number lineage.timelineBegin),
    ("history".toList, optional historyJson lineage.history),
    ("postmaster_start".toList, optional .string lineage.postmasterStart),
    ("generation".toList, .number lineage.generation)]

/-- The object of `touch_member`. -/
def touchMember (config : NodeConfig) (observed : Observed) : Json :=
  let reachableHost := Upstream.reachableHost config.selfAddr
  let connUrl := Upstream.connUrl config.selfAddr config.postgresqlPort config.superuser
  let apiUrl := (if config.restapiTls then "https".toList else "http".toList) ++ "://".toList ++
    reachableHost ++ ":".toList ++ decimal config.restapiPort
  let status : Option Nat × Option Nat :=
    if observed.isRunning then
      match observed.walStatus with
      | .ok status => (some status.1, status.2)
      | .error _ => (none, none)
    else (none, none)
  .object
    ([("name".toList, .string config.name), ("conn_url".toList, .string connUrl),
      ("api_url".toList, .string apiUrl),
      ("state".toList, .string (stateText (advertisedState observed.isRunning observed.pgState
        observed.identity))),
      ("role".toList, .string (roleText observed.role)),
      ("rewind_check".toList, .bool observed.hasRewindCheckMarker),
      ("watchdog_failed".toList, .bool (!observed.watchdogUsable))] ++
    status.1.toList.map (fun position => ("wal_position".toList, .number position)) ++
    status.2.toList.map (fun timeline => ("timeline".toList, .number timeline)) ++
    (observed.localLineage status.2).toList.map fun lineage =>
      ("lineage".toList, lineageJson lineage))

/-! ### The record as the other nodes read it -/

structure MemberData where
  name : Str
  connUrl : Str
  apiUrl : Str
  state : MemberState
  role : MemberRole
  walPosition : Option Nat
  timeline : Option Nat
  tags : List (Str × Json)
  version : Option Str
  rewindCheck : Bool
  lineage : Option Lineage
  watchdogFailed : Bool

def readState (json : Json) : Option MemberState :=
  [.running, .stopped, .starting, .crashed, .unknown].find? fun state =>
    json.asStr == some (stateText state)

def readRole (json : Json) : Option MemberRole :=
  [.primary, .replica, .standbyLeader, .uninitialized].find? fun role =>
    json.asStr == some (roleText role)

def readHistory (json : Json) : Option HistoryEvidence := do
  let fields ← json.asObject
  let timeline ← required fields "timeline" Json.asU64
  let begin ← required fields "begin" Json.asU64
  let wal ← required fields "wal" Json.asBool
  pure ⟨timeline, begin, wal⟩

def readLineage (json : Json) : Option Lineage := do
  let fields ← json.asObject
  let timelineBegin ← defaulted fields "timeline_begin" (nullable Json.asU64) none
  let history ← defaulted fields "history" (nullable readHistory) none
  let postmasterStart ← defaulted fields "postmaster_start" (nullable Json.asStr) none
  let generation ← defaulted fields "generation" Json.asU64 0
  pure ⟨timelineBegin, history, postmasterStart, generation⟩

/-- `serde_json::from_str::<Member>`. -/
def MemberData.fromJson (json : Json) : Option MemberData := do
  let fields ← json.asObject
  let name ← required fields "name" Json.asStr
  let connUrl ← required fields "conn_url" Json.asStr
  let apiUrl ← required fields "api_url" Json.asStr
  let state ← required fields "state" readState
  let role ← required fields "role" readRole
  let walPosition ← defaulted fields "wal_position" (nullable Json.asU64) none
  let timeline ← defaulted fields "timeline" (nullable Json.asU64) none
  let tags ← defaulted fields "tags" Json.asObject []
  let version ← defaulted fields "version" (nullable Json.asStr) none
  let rewindCheck ← defaulted fields "rewind_check" Json.asBool false
  let lineage ← defaulted fields "lineage" (nullable readLineage) none
  let watchdogFailed ← defaulted fields "watchdog_failed" Json.asBool false
  pure ⟨name, connUrl, apiUrl, state, role, walPosition, timeline, tags, version, rewindCheck,
    lineage, watchdogFailed⟩

def MemberData.isNofailover (member : MemberData) : Bool :=
  ((lookup "nofailover" member.tags).bind Json.asBool).getD false

def MemberData.isNosync (member : MemberData) : Bool :=
  ((lookup "nosync" member.tags).bind Json.asBool).getD false

def MemberData.failoverPriority (member : MemberData) : UInt32 :=
  .ofNat (((lookup "failover_priority" member.tags).bind Json.asU64).getD 1)

def MemberData.syncPriority (member : MemberData) : UInt32 :=
  .ofNat (((lookup "sync_priority" member.tags).bind Json.asU64).getD 0)

/-- The test of `get_clone_member`. -/
def MemberData.isClonefrom (member : MemberData) : Bool :=
  (lookup "clonefrom" member.tags).bind Json.asBool == some true

/-- The lookup of `build_cascade_topology`. -/
def MemberData.replicatefrom (member : MemberData) : Option Str :=
  (lookup "replicatefrom" member.tags).bind Json.asStr

/-- What the decisions of the engine read of a member. -/
def MemberData.toMember (member : MemberData) : Member where
  name := member.name
  state := member.state
  role := member.role
  walPosition := member.walPosition
  timeline := member.timeline
  tags :=
    { nofailover := (lookup "nofailover" member.tags).bind Json.asBool
      nosync := (lookup "nosync" member.tags).bind Json.asBool
      failoverPriority := (lookup "failover_priority" member.tags).bind Json.asU64
      syncPriority := (lookup "sync_priority" member.tags).bind Json.asU64 }
  rewindCheck := member.rewindCheck
  lineage := member.lineage
  watchdogFailed := member.watchdogFailed

/-! ### Who reads the tags of a record -/

/-- `Cluster::get_clone_member`. -/
def getCloneMember (leader : Option Str) (members : List MemberData) (excludeName : Str) :
    Option MemberData :=
  match members.find? fun member => member.name != excludeName && member.isClonefrom with
  | some source => some source
  | none =>
      match leader with
      | some leader =>
          members.find? fun member => member.name == leader && member.name != excludeName
      | none => none

structure CascadeNode where
  name : Str
  role : Str
  upstream : Option Str
  replicatefrom : Option Str

def isCascadeSourceHealthy (members : List MemberData) (source : Str) : Bool :=
  (members.find? fun member => member.name == source).any fun member => member.state == .running

/-- `CascadeManager::build_cascade_topology`. -/
def buildCascadeTopology (leader : Option Str) (members : List MemberData) : List CascadeNode :=
  members.map fun member =>
    if leader = some member.name then ⟨member.name, roleText member.role, none, none⟩
    else
      let upstream := match member.replicatefrom with
        | some source =>
            if isCascadeSourceHealthy members source && source != member.name then some source
            else leader
        | none => leader
      ⟨member.name, roleText member.role, upstream, member.replicatefrom⟩

/-- The test of the source is the one `select_upstream` makes of the view. -/
theorem isCascadeSourceHealthy_view {cluster : ClusterView} {members : List MemberData}
    (view : cluster.members = members.map MemberData.toMember) (source : Str) :
    isCascadeSourceHealthy members source =
      CascadeTopology.isCascadeSourceHealthy source cluster := by
  unfold isCascadeSourceHealthy CascadeTopology.isCascadeSourceHealthy ClusterView.getMember
  rw [view, List.find?_map, Option.any_map]
  rfl

/-- Under a listed leader every other node is shown with the upstream that it selects. -/
theorem buildCascadeTopology_selects {cluster : ClusterView} {members : List MemberData}
    (view : cluster.members = members.map MemberData.toMember)
    (listed : ∀ leader, cluster.leader = some leader → (cluster.getMember leader).isSome = true)
    {node : CascadeNode} (shown : node ∈ buildCascadeTopology cluster.leader members)
    (follower : cluster.leader ≠ some node.name) :
    node.upstream = (HaFollow.selectUpstream node.name node.replicatefrom cluster).map
      Member.name := by
  have led : (cluster.leader.bind cluster.getMember).map Member.name = cluster.leader := by
    cases leads : cluster.leader with
    | none => rfl
    | some leader =>
        obtain ⟨member, found⟩ := Option.isSome_iff_exists.mp (listed leader leads)
        rw [Option.bind_some, found, Option.map_some, CascadeTopology.getMember_name found]
  obtain ⟨member, _, rfl⟩ := List.mem_map.mp shown
  split at follower
  · rename_i leads
    exact absurd leads follower
  · rename_i follows
    simp only [follows, if_false]
    rcases CascadeTopology.selectUpstream_cases cluster member.name member.replicatefrom with
      ⟨source, named, other, healthy, selected⟩ | ⟨unhealthy, selected⟩
    · obtain ⟨found, there, _⟩ := CascadeTopology.healthy_listed healthy
      rw [selected, named, there, Option.map_some, CascadeTopology.getMember_name there]
      simp [isCascadeSourceHealthy_view view, healthy, other]
    · rw [selected, led]
      cases named : member.replicatefrom with
      | none => rfl
      | some source =>
          by_cases self : source = member.name
          · simp [self]
          · simp [isCascadeSourceHealthy_view view, unhealthy source named self]

/-! ### What is published -/

theorem readState_text (state : MemberState) :
    readState (.string (stateText state)) = some state := by
  cases state <;> rfl

theorem readRole_text (role : MemberRole) : readRole (.string (roleText role)) = some role := by
  cases role <;> rfl

theorem readLineage_json (lineage : Lineage) :
    readLineage (lineageJson lineage) = some lineage := by
  obtain ⟨timelineBegin, history, postmasterStart, generation⟩ := lineage
  cases timelineBegin <;> cases history <;> cases postmasterStart <;> rfl

/-- The fields of the object; the last three are there only if they are known. -/
def publishedFields (name connUrl apiUrl : Str) (state : MemberState) (role : MemberRole)
    (rewindCheck watchdogFailed : Bool) (walPosition timeline : Option Nat)
    (lineage : Option Lineage) : List (Str × Json) :=
  [("name".toList, .string name), ("conn_url".toList, .string connUrl),
    ("api_url".toList, .string apiUrl), ("state".toList, .string (stateText state)),
    ("role".toList, .string (roleText role)), ("rewind_check".toList, .bool rewindCheck),
    ("watchdog_failed".toList, .bool watchdogFailed)] ++
  walPosition.toList.map (fun position => ("wal_position".toList, .number position)) ++
  timeline.toList.map (fun timeline => ("timeline".toList, .number timeline)) ++
  lineage.toList.map fun lineage => ("lineage".toList, lineageJson lineage)

/-- The seven fields that are always there come first. -/
theorem lookup_published (key : String) (name connUrl apiUrl : Str) (state : MemberState)
    (role : MemberRole) (rewindCheck watchdogFailed : Bool) (walPosition timeline : Option Nat)
    (lineage : Option Lineage) :
    lookup key (publishedFields name connUrl apiUrl state role rewindCheck watchdogFailed
      walPosition
        timeline lineage) =
      (((lookup key (publishedFields name connUrl apiUrl state role rewindCheck watchdogFailed none
          none none)).or
        (if "wal_position".toList == key.toList then walPosition.map .number else none)).or
        (if "timeline".toList == key.toList then timeline.map .number else none)).or
        (if "lineage".toList == key.toList then lineage.map lineageJson else none) := by
  simp only [publishedFields, lookup_append, lookup_known, Option.map_none, ite_self,
    Option.or_none]

theorem fromJson_published (name connUrl apiUrl : Str) (state : MemberState) (role : MemberRole)
    (rewindCheck watchdogFailed : Bool) (walPosition timeline : Option Nat)
    (lineage : Option Lineage) :
    MemberData.fromJson (.object (publishedFields name connUrl apiUrl state role rewindCheck
        watchdogFailed walPosition timeline lineage)) =
      some ⟨name, connUrl, apiUrl, state, role, walPosition, timeline, [], none, rewindCheck,
        lineage, watchdogFailed⟩ := by
  generalize found : publishedFields name connUrl apiUrl state role rewindCheck watchdogFailed
    walPosition timeline lineage = fields
  have nameRead : required fields "name" Json.asStr = some name := by
    subst fields
    rfl
  have connUrlRead : required fields "conn_url" Json.asStr = some connUrl := by
    subst fields
    rfl
  have apiUrlRead : required fields "api_url" Json.asStr = some apiUrl := by
    subst fields
    rfl
  have stateRead : required fields "state" readState = some state := by
    subst fields
    exact readState_text state
  have roleRead : required fields "role" readRole = some role := by
    subst fields
    exact readRole_text role
  have walRead : defaulted fields "wal_position" (nullable Json.asU64) none = some walPosition := by
    refine defaulted_known .number ?_ fun _ => rfl
    subst fields
    rw [lookup_published]
    cases walPosition <;> rfl
  have timelineRead : defaulted fields "timeline" (nullable Json.asU64) none = some timeline := by
    refine defaulted_known .number ?_ fun _ => rfl
    subst fields
    rw [lookup_published]
    cases timeline <;> rfl
  have tagsRead : defaulted fields "tags" Json.asObject [] = some [] := by
    subst fields
    rw [defaulted, lookup_published]
    rfl
  have versionRead : defaulted fields "version" (nullable Json.asStr) none = some none := by
    subst fields
    rw [defaulted, lookup_published]
    rfl
  have rewindRead : defaulted fields "rewind_check" Json.asBool false = some rewindCheck := by
    subst fields
    rfl
  have lineageRead : defaulted fields "lineage" (nullable readLineage) none = some lineage := by
    refine defaulted_known lineageJson ?_ fun value => ?_
    · subst fields
      rw [lookup_published]
      cases lineage <;> rfl
    · change (readLineage (lineageJson value)).map some = _
      rw [readLineage_json]
      rfl
  have watchdogRead : defaulted fields "watchdog_failed" Json.asBool false =
      some watchdogFailed := by
    subst fields
    rfl
  unfold MemberData.fromJson
  refine Option.bind_eq_some_iff.mpr ⟨fields, rfl, ?_⟩
  refine Option.bind_eq_some_iff.mpr ⟨_, nameRead, ?_⟩
  refine Option.bind_eq_some_iff.mpr ⟨_, connUrlRead, ?_⟩
  refine Option.bind_eq_some_iff.mpr ⟨_, apiUrlRead, ?_⟩
  refine Option.bind_eq_some_iff.mpr ⟨_, stateRead, ?_⟩
  refine Option.bind_eq_some_iff.mpr ⟨_, roleRead, ?_⟩
  refine Option.bind_eq_some_iff.mpr ⟨_, walRead, ?_⟩
  refine Option.bind_eq_some_iff.mpr ⟨_, timelineRead, ?_⟩
  refine Option.bind_eq_some_iff.mpr ⟨_, tagsRead, ?_⟩
  refine Option.bind_eq_some_iff.mpr ⟨_, versionRead, ?_⟩
  refine Option.bind_eq_some_iff.mpr ⟨_, rewindRead, ?_⟩
  refine Option.bind_eq_some_iff.mpr ⟨_, lineageRead, ?_⟩
  refine Option.bind_eq_some_iff.mpr ⟨_, watchdogRead, ?_⟩
  rfl

/-- Every node reads the record, and without tags. -/
theorem fromJson_touchMember (config : NodeConfig) (observed : Observed) :
    ∃ member, MemberData.fromJson (touchMember config observed) = some member ∧
      member.tags = [] :=
  ⟨_, fromJson_published config.name _ _ _ observed.role observed.hasRewindCheckMarker
    (!observed.watchdogUsable) _ _ _, rfl⟩

/-! ### What the tags should say -/

/-- `Tags` as serde writes it. -/
def ConfigTags.fields (tags : ConfigTags) : List (Str × Json) :=
  [("nofailover".toList, .bool tags.nofailover), ("noloadbalance".toList, .bool tags.noloadbalance),
    ("noclone".toList, .bool tags.noclone), ("nosync".toList, .bool tags.nosync),
    ("nostream".toList, .bool tags.nostream), ("clonefrom".toList, .bool tags.clonefrom),
    ("replicatefrom".toList, optional .string tags.replicatefrom),
    ("failover_priority".toList, .number tags.failoverPriority.toNat),
    ("sync_priority".toList, .number tags.syncPriority.toNat)]

/-- The record as it would be with the node's own tags in it. -/
def MemberData.withTags (member : MemberData) (tags : ConfigTags) : MemberData :=
  { member with tags := tags.fields }

/-- The lookups give the node's own values. -/
structure TagsAgree (tags : ConfigTags) (member : MemberData) : Prop where
  nofailover : member.isNofailover = tags.nofailover
  failoverPriority : member.failoverPriority = tags.failoverPriority
  nosync : member.isNosync = tags.nosync
  syncPriority : member.syncPriority = tags.syncPriority
  clonefrom : member.isClonefrom = tags.clonefrom
  replicatefrom : member.replicatefrom = tags.replicatefrom

/-- The decisions of the other nodes about the member are those they would take with its
own tags; `own` is the first test of `is_healthiest_node` on oneself. -/
structure GatesAgree (tags : ConfigTags) (member : MemberData) : Prop where
  own : (!member.isNofailover && member.failoverPriority != 0) =
    !(tags.nofailover || tags.failoverPriority == 0)
  election : ∀ (ha : Ha) (excluded : Option Str),
    peerPassesGates ha excluded member.toMember =
      peerPassesGates ha excluded (member.withTags tags).toMember
  sync : ∀ (manager : SyncManager) (before after : List Member) (myName : Str)
      (snapshot : ReplicationSnapshot) (threshold : Option Nat) (currentVoters : List Str),
    manager.computeSyncStandbyNames (before ++ member.toMember :: after) myName snapshot threshold
        currentVoters =
      manager.computeSyncStandbyNames (before ++ (member.withTags tags).toMember :: after) myName
        snapshot threshold currentVoters
  clone : ∀ (leader : Option Str) (before after : List MemberData) (excludeName : Str),
    (getCloneMember leader (before ++ member :: after) excludeName).map MemberData.name =
      (getCloneMember leader (before ++ member.withTags tags :: after) excludeName).map
        MemberData.name
  cascade : ∀ (leader : Option Str) (before after : List MemberData),
    buildCascadeTopology leader (before ++ member :: after) =
      buildCascadeTopology leader (before ++ member.withTags tags :: after)

theorem withTags_agree (tags : ConfigTags) (member : MemberData) :
    TagsAgree tags (member.withTags tags) := by
  refine ⟨rfl, ?_, rfl, ?_, ?_, ?_⟩
  · exact UInt32.ofNat_toNat
  · exact UInt32.ofNat_toNat
  · change (some tags.clonefrom == some true) = tags.clonefrom
    cases tags.clonefrom <;> rfl
  · change (optional Json.string tags.replicatefrom).asStr = tags.replicatefrom
    cases tags.replicatefrom <;> rfl

/-! ### Consumers read the tags by their lookups only -/

/-- A member with its tags as the engine reads them. -/
def canonical (member : Member) : Member :=
  { member with
    tags := ⟨some member.isNofailover, some member.isNosync, some member.failoverPriority,
      some member.syncPriority⟩ }

theorem canonical_priorities (member : Member) :
    (canonical member).failoverPriority = member.failoverPriority ∧
      (canonical member).syncPriority = member.syncPriority := by
  simp [canonical, Member.failoverPriority, Member.syncPriority]

theorem peerPassesGates_canonical (ha : Ha) (excluded : Option Str) (member : Member) :
    peerPassesGates ha excluded (canonical member) = peerPassesGates ha excluded member := by
  unfold peerPassesGates
  rw [(canonical_priorities member).1]
  rfl

def canonicalCandidate (candidate : Candidate) : Candidate :=
  { candidate with member := canonical candidate.member }

theorem candidates_canonical (members : List Member) (myName : Str)
    (snapshot : ReplicationSnapshot) (currentVoters : List Str) :
    candidates (members.map canonical) myName snapshot currentVoters =
      (candidates members myName snapshot currentVoters).map canonicalCandidate := by
  unfold candidates
  rw [List.filter_map, List.filterMap_map, List.map_filterMap]
  refine List.filterMap_congr fun member _ => ?_
  simp only [Function.comp_apply, Option.map_map, (canonical_priorities member).2]
  rfl

theorem withinLag_canonical (found : List Candidate) (snapshot : ReplicationSnapshot)
    (threshold : Option Nat) :
    withinLag (found.map canonicalCandidate) snapshot threshold =
      (withinLag found snapshot threshold).map canonicalCandidate := by
  have base : baseline (found.map canonicalCandidate) snapshot = baseline found snapshot := by
    cases found with
    | nil => rfl
    | cons first rest =>
        cases rest with
        | nil => rfl
        | cons second rest =>
            simp only [List.map_cons, baseline, List.foldl_cons, List.foldl_map]
            rfl
  cases threshold with
  | none => rfl
  | some limit =>
      simp only [withinLag, base, List.filter_map]
      rfl

theorem eligible_canonical (members : List Member) (myName : Str) (snapshot : ReplicationSnapshot)
    (threshold : Option Nat) (currentVoters : List Str) :
    SyncManager.eligible (members.map canonical) myName snapshot threshold currentVoters =
      (SyncManager.eligible members myName snapshot threshold currentVoters).map
        canonicalCandidate := by
  unfold SyncManager.eligible
  rw [candidates_canonical, withinLag_canonical,
    List.map_insertionSort _ (fun a b => candidateLe a b = true)]
  intro a _ b _
  rfl

theorem computeSyncStandbyNames_canonical (manager : SyncManager) (members : List Member)
    (myName : Str) (snapshot : ReplicationSnapshot) (threshold : Option Nat)
    (currentVoters : List Str) :
    manager.computeSyncStandbyNames (members.map canonical) myName snapshot threshold
      currentVoters =
      manager.computeSyncStandbyNames members myName snapshot threshold currentVoters := by
  have names (found : List Candidate) :
      manager.count (found.map canonicalCandidate) = manager.count found ∧
        manager.chosen (found.map canonicalCandidate) = manager.chosen found := by
    have count : manager.count (found.map canonicalCandidate) = manager.count found := by
      simp [SyncManager.count]
    refine ⟨count, ?_⟩
    unfold SyncManager.chosen
    rw [count, ← List.map_take, List.map_map]
    rfl
  unfold SyncManager.computeSyncStandbyNames
  rw [eligible_canonical]
  simp only [List.isEmpty_map, names]

theorem canonical_withTags {tags : ConfigTags} {member : MemberData}
    (agrees : TagsAgree tags member) :
    canonical member.toMember = canonical (member.withTags tags).toMember := by
  have own := withTags_agree tags member
  have priority (record : MemberData) :
      record.toMember.failoverPriority = record.failoverPriority.toNat ∧
        record.toMember.syncPriority = record.syncPriority.toNat :=
    ⟨(UInt32.toNat_ofNat' ..).symm, (UInt32.toNat_ofNat' ..).symm⟩
  have nofailover : member.toMember.isNofailover = (member.withTags tags).toMember.isNofailover :=
    agrees.nofailover.trans own.nofailover.symm
  have nosync : member.toMember.isNosync = (member.withTags tags).toMember.isNosync :=
    agrees.nosync.trans own.nosync.symm
  unfold canonical
  rw [nofailover, nosync, (priority member).1, (priority member).2,
    (priority (member.withTags tags)).1, (priority (member.withTags tags)).2,
    agrees.failoverPriority, agrees.syncPriority, own.failoverPriority, own.syncPriority]
  rfl

/-- A search through a list in which one member is replaced by one it does not tell
apart. -/
theorem find_replaced {Value : Type} (test : MemberData → Bool) (read : MemberData → Value)
    {first second : MemberData} (sameTest : test first = test second)
    (sameRead : read first = read second) (before after : List MemberData) :
    ((before ++ first :: after).find? test).map read =
      ((before ++ second :: after).find? test).map read := by
  rw [List.find?_append, List.find?_append, List.find?_cons, List.find?_cons, sameTest]
  cases before.find? test with
  | some found => rfl
  | none =>
      cases test second with
      | true => simp [sameRead]
      | false => rfl

theorem getCloneMember_names (leader : Option Str) (members : List MemberData)
    (excludeName : Str) :
    (getCloneMember leader members excludeName).map MemberData.name =
      ((members.find? fun member => member.name != excludeName && member.isClonefrom).map
        MemberData.name).or
        (leader.bind fun leader => (members.find? fun member =>
          member.name == leader && member.name != excludeName).map MemberData.name) := by
  unfold getCloneMember
  cases members.find? fun member => member.name != excludeName && member.isClonefrom with
  | some source => rfl
  | none => cases leader <;> rfl

/-- Where the lookups agree, so do the gates. -/
theorem gates_of_tags {tags : ConfigTags} {member : MemberData} (agrees : TagsAgree tags member) :
    GatesAgree tags member := by
  have own := withTags_agree tags member
  have alike := canonical_withTags agrees
  have clonefrom : member.isClonefrom = (member.withTags tags).isClonefrom :=
    agrees.clonefrom.trans own.clonefrom.symm
  have replicatefrom : member.replicatefrom = (member.withTags tags).replicatefrom :=
    agrees.replicatefrom.trans own.replicatefrom.symm
  constructor
  · rw [agrees.nofailover, agrees.failoverPriority, Bool.not_or]
    rfl
  · intro ha excluded
    rw [← peerPassesGates_canonical, alike, peerPassesGates_canonical]
  · intro manager before after myName snapshot threshold currentVoters
    rw [← computeSyncStandbyNames_canonical,
      ← computeSyncStandbyNames_canonical manager (before ++ _ :: after)]
    simp only [List.map_append, List.map_cons, alike]
  · intro leader before after excludeName
    rw [getCloneMember_names, getCloneMember_names]
    congr 1
    · apply find_replaced _ MemberData.name
      · rw [clonefrom]
        rfl
      · rfl
    · cases leader with
      | none => rfl
      | some leader =>
          apply find_replaced _ MemberData.name
          · rfl
          · rfl
  · intro leader before after
    have healthy : isCascadeSourceHealthy (before ++ member :: after) =
        isCascadeSourceHealthy (before ++ member.withTags tags :: after) := by
      funext source
      have states (members : List MemberData) : isCascadeSourceHealthy members source =
          ((members.find? fun member => member.name == source).map MemberData.state).any
            (· == .running) := by
        unfold isCascadeSourceHealthy
        cases members.find? fun member => member.name == source <;> rfl
      rw [states, states, find_replaced _ MemberData.state _ _ before after]
      · rfl
      · rfl
    unfold buildCascadeTopology
    rw [healthy]
    simp only [List.map_append, List.map_cons, replicatefrom]
    rfl

/-- Every tag that another node looks up has its default. -/
def DefaultTags (tags : ConfigTags) : Prop :=
  tags.nofailover = false ∧ tags.failoverPriority = 1 ∧ tags.nosync = false ∧
    tags.syncPriority = 0 ∧ tags.clonefrom = false ∧ tags.replicatefrom = none

/-- Without tags every lookup gives its default. -/
theorem untagged_agrees_iff {tags : ConfigTags} {member : MemberData}
    (untagged : member.tags = []) :
    TagsAgree tags member ↔ DefaultTags tags := by
  have nofailover : member.isNofailover = false := by rw [MemberData.isNofailover, untagged]; rfl
  have failoverPriority : member.failoverPriority = 1 := by
    rw [MemberData.failoverPriority, untagged]
    rfl
  have nosync : member.isNosync = false := by rw [MemberData.isNosync, untagged]; rfl
  have syncPriority : member.syncPriority = 0 := by rw [MemberData.syncPriority, untagged]; rfl
  have clonefrom : member.isClonefrom = false := by rw [MemberData.isClonefrom, untagged]; rfl
  have replicatefrom : member.replicatefrom = none := by
    rw [MemberData.replicatefrom, untagged]
    rfl
  constructor
  · intro agrees
    exact ⟨agrees.nofailover.symm.trans nofailover,
      agrees.failoverPriority.symm.trans failoverPriority, agrees.nosync.symm.trans nosync,
      agrees.syncPriority.symm.trans syncPriority, agrees.clonefrom.symm.trans clonefrom,
      agrees.replicatefrom.symm.trans replicatefrom⟩
  · rintro ⟨one, two, three, four, five, six⟩
    exact ⟨nofailover.trans one.symm, failoverPriority.trans two.symm, nosync.trans three.symm,
      syncPriority.trans four.symm, clonefrom.trans five.symm, replicatefrom.trans six.symm⟩

/-- The record a node publishes agrees with its own tags, in every lookup and every gate,
exactly if these tags have their defaults. -/
theorem published_tags_agree_iff (config : NodeConfig) (observed : Observed) :
    (∃ member, MemberData.fromJson (touchMember config observed) = some member ∧
      TagsAgree config.tags member ∧ GatesAgree config.tags member) ↔
        DefaultTags config.tags := by
  obtain ⟨published, read, untagged⟩ := fromJson_touchMember config observed
  constructor
  · rintro ⟨member, readToo, agrees, _⟩
    rw [read] at readToo
    cases readToo
    exact (untagged_agrees_iff untagged).mp agrees
  · intro defaults
    have agrees := (untagged_agrees_iff untagged).mpr defaults
    exact ⟨published, read, agrees, gates_of_tags agrees⟩

/-- A replica that must not be promoted. -/
def nofailoverNode : NodeConfig where
  name := "node3".toList
  selfAddr := "10.0.0.3:2380".toList
  postgresqlPort := 5432
  superuser := ⟨"postgres".toList, none, "postgres".toList⟩
  restapiTls := false
  restapiPort := 8008
  tags := ⟨true, false, false, false, false, false, none, 1, 0⟩

def runningReplica : Observed where
  isRunning := true
  pgState := .running
  identity := .managedStandby
  role := .replica
  walStatus := .ok (5000, some 2)
  hasRewindCheckMarker := false
  watchdogUsable := true
  localLineage _ := some ⟨some 100, some ⟨2, 100, true⟩, none, 0⟩

/-- Its peers read that it may be promoted. -/
theorem nofailover_not_published :
    ¬ ∀ (config : NodeConfig) (observed : Observed),
      ∃ member, MemberData.fromJson (touchMember config observed) = some member ∧
        TagsAgree config.tags member ∧ GatesAgree config.tags member := by
  intro published
  obtain ⟨member, read, agrees, _⟩ := published nofailoverNode runningReplica
  obtain ⟨same, readSame, untagged⟩ := fromJson_touchMember nofailoverNode runningReplica
  rw [readSame] at read
  cases read
  have wrong := agrees.nofailover
  rw [MemberData.isNofailover, untagged] at wrong
  cases wrong

end PgHa.MemberRecord
