import PgHa.HistoryBuffer
import PgHa.LatestTimeline
import PgHa.MemberRecord
import PgHa.RaftDcs
import PgHa.Transition

/-!
`RaftDcs::get_cluster` against the entries that are applied while it runs. The view is
put together from eight reads, each with the store's lock of its own, and every read
leaves out what has expired by the node's clock. The number of voters, which comes from
Raft and not from the store, is left out of the view.
-/

namespace PgHa.ClusterSnapshot

open Text Serde Cluster HistoryBuffer LatestTimeline MemberRecord StateMachine RaftDcs Transition

/-- `str::parse::<u64>`. -/
def parseU64 (text : Str) : Option Nat :=
  let digits := stripPrefix '+' text
  if digits.isEmpty || digits.any fun c => !c.isDigit then none
  else some (digits.foldl (fun value c => value * 10 + (c.toNat - '0'.toNat)) 0) |>.filter
    (· < 2 ^ 64)

/-- The structs `serde_json` reads from a value's text. -/
structure Readers (Failover : Type) where
  member : String → Option MemberData
  failover : String → Option Failover
  syncState : String → Option SyncState
  config : String → Option (List (Str × Json))
  record : Str → Option TimelineRecord
  history : String → Option (List HistoryEntry)

structure Leader where
  name : String
  version : Nat
  deriving DecidableEq

structure ClusterConfig where
  version : Nat
  data : List (Str × Json)

/-- The returned `Cluster`. The members are under their keys: the list has them in the
order of a hash map. -/
structure View (Failover : Type) where
  leader : Option Leader
  members : String → Option MemberData
  initializeKey : Option String
  failover : Option Failover
  syncState : Option SyncState
  config : Option ClusterConfig
  timeline : ClusterTimeline
  history : List HistoryEntry

inductive Part where
  | leader
  | members
  | initializeKey
  | failover
  | sync
  | config
  | timeline
  | history
  deriving DecidableEq

/-- The reads in the order of the source. -/
def getClusterParts : List Part :=
  [.leader, .members, .initializeKey, .failover, .sync, .config, .timeline, .history]

/-- The store of a node and the node's clock. -/
structure Moment where
  sm : KvStateMachine
  clock : Nat

variable {Failover : Type} (readers : Readers Failover) (base : String)

/-- What one read returns. -/
def look (moment : Moment) (part : Part) : Entries :=
  let one (path : String) : Entries := fun key =>
    if key = path then StateMachine.get moment.clock moment.sm key else none
  match part with
  | .leader => one (leaderPath base)
  | .members => getPrefix moment.clock moment.sm (membersPath base)
  | .initializeKey => one (initializePath base)
  | .failover => one (failoverPath base)
  | .sync => one (syncPath base)
  | .config => one (configPath base)
  | .timeline => one (timelinePath base)
  | .history => one (historyPath base)

/-- `strip_prefix` of the members' path, or the key itself. -/
def memberName (key : String) : Str :=
  if startsWith key (membersPath base) then key.toList.drop (membersPath base).toList.length
  else key.toList

/-- A record that cannot be read. -/
def fallbackMember (name : Str) : MemberData where
  name := name
  connUrl := []
  apiUrl := []
  state := .unknown
  role := .uninitialized
  walPosition := none
  timeline := none
  tags := []
  version := none
  rewindCheck := false
  lineage := none
  watchdogFailed := false

/-- `ClusterTimeline::parse`. -/
def parseTimeline (value : String) (version : Nat) : ClusterTimeline :=
  let trimmed := trim value.toList
  match parseU64 trimmed with
  | some value => .legacy value version
  | none =>
      match readers.record trimmed with
      | some record => .record record version
      | none => .unreadable version

def assemble (found : Part → Entries) : View Failover where
  leader := (found .leader (leaderPath base)).map fun entry => ⟨entry.value, entry.version⟩
  members key := (found .members key).map fun entry =>
    (readers.member entry.value).getD (fallbackMember (memberName base key))
  initializeKey := (found .initializeKey (initializePath base)).map KvEntry.value
  failover := (found .failover (failoverPath base)).bind fun entry => readers.failover entry.value
  syncState := (found .sync (syncPath base)).bind fun entry => readers.syncState entry.value
  config := (found .config (configPath base)).map fun entry =>
    ⟨entry.version, (readers.config entry.value).getD []⟩
  timeline := match found .timeline (timelinePath base) with
    | none => .absent
    | some entry => parseTimeline readers entry.value entry.version
  history := ((found .history (historyPath base)).bind fun entry =>
    readers.history entry.value).getD []

/-- The view of a single moment. -/
def project (moment : Moment) : View Failover := assemble readers base (look base moment)

/-! ### A call among applied entries -/

structure Call where
  unread : List Part
  found : Part → Entries

/-- `passed` are the moments the node has been in, the present one included. -/
structure World where
  now : Moment
  passed : List Moment
  call : Option Call

def World.start (clock : Nat) : World := ⟨⟨.new, clock⟩, [⟨.new, clock⟩], none⟩

def World.moveTo (world : World) (moment : Moment) : World :=
  { world with now := moment, passed := moment :: world.passed }

inductive Act where
  | applied (index : Nat) (request : Request)
  | ticked (clock : Nat)
  | getCluster
  | read

/-- The next moment, for an act that changes the store or the clock. -/
def Act.moment (before : Moment) : Act → Option Moment
  | .applied index request =>
      if before.sm.lastAppliedLog < index then
        some ⟨(apply before.clock before.sm request index).1, before.clock⟩
      else none
  | .ticked clock => some ⟨before.sm, clock⟩
  | .getCluster | .read => none

def Call.readNext (call : Call) (moment : Moment) : Option Call :=
  match call.unread with
  | [] => none
  | part :: rest =>
      some ⟨rest, fun other => if other = part then look base moment part else call.found other⟩

def step (world : World) : Act → Option World
  | .getCluster => some { world with call := some ⟨getClusterParts, fun _ _ => none⟩ }
  | .read => (world.call.bind fun call => call.readNext base world.now).map fun call =>
      { world with call := some call }
  | act => (act.moment world.now).map world.moveTo

/-- A change of the store or the clock is invisible to the reads that remain, or leaves
everything that was read as it was read. -/
def Call.Keeps (call : Call) (before after : Moment) : Prop :=
  (∀ part ∈ call.unread, look base after part = look base before part) ∨
    ∀ part, part ∉ call.unread → look base after part = call.found part

def Meets (world : World) (act : Act) : Prop :=
  ∀ call after, world.call = some call → act.moment world.now = some after →
    call.Keeps base world.now after

variable {readers base}

/-- One moment has all that was read, and what is still to be read has not changed since. -/
structure Fits (base : String) (call : Call) (now moment : Moment) : Prop where
  read : ∀ part, part ∉ call.unread → look base moment part = call.found part
  unread : ∀ part ∈ call.unread, look base moment part = look base now part

structure Consistent (base : String) (world : World) : Prop where
  now : world.now ∈ world.passed
  call : ∀ call, world.call = some call → ∃ moment ∈ world.passed,
    Fits base call world.now moment

theorem consistent_move {world : World} {moment : Moment} (consistent : Consistent base world)
    (keeps : ∀ call, world.call = some call → call.Keeps base world.now moment) :
    Consistent base (world.moveTo moment) := by
  constructor
  · exact List.mem_cons_self
  · intro call running
    rcases keeps call running with invisible | intact
    · obtain ⟨earlier, passed, fits⟩ := consistent.call call running
      refine ⟨earlier, List.mem_cons_of_mem _ passed, fits.read, ?_⟩
      intro part remains
      exact (fits.unread part remains).trans (invisible part remains).symm
    · exact ⟨moment, List.mem_cons_self, intact, fun _ _ => rfl⟩

theorem fits_readNext {call next : Call} {now moment : Moment} (fits : Fits base call now moment)
    (read : call.readNext base now = some next) : Fits base next now moment := by
  obtain ⟨unread, found⟩ := call
  cases unread with
  | nil => simp [Call.readNext] at read
  | cons part rest =>
      simp only [Call.readNext, Option.some.injEq] at read
      subst next
      constructor
      · intro other notLeft
        by_cases here : other = part
        · simp only [here, if_true]
          exact fits.unread part List.mem_cons_self
        · simp only [here, if_false]
          exact fits.read other (by simp [here, notLeft])
      · intro other remains
        exact fits.unread other (List.mem_cons_of_mem _ remains)

theorem consistent_step {world after : World} (consistent : Consistent base world) (act : Act)
    (meets : Meets base world act) (stepped : step base world act = some after) :
    Consistent base after := by
  cases act with
  | applied index request =>
      obtain ⟨moment, next, rfl⟩ := Option.map_eq_some_iff.mp stepped
      exact consistent_move consistent fun call running => meets call moment running next
  | ticked clock =>
      rw [← Option.some.inj stepped]
      exact consistent_move consistent fun call running => meets call _ running rfl
  | getCluster =>
      rw [← Option.some.inj stepped]
      refine ⟨consistent.now, ?_⟩
      rintro call ⟨⟩
      refine ⟨world.now, consistent.now, ?_, fun _ _ => rfl⟩
      intro part absent
      cases part <;> simp [getClusterParts] at absent
  | read =>
      obtain ⟨next, read, rfl⟩ := Option.map_eq_some_iff.mp stepped
      obtain ⟨call, running, read⟩ := Option.bind_eq_some_iff.mp read
      refine ⟨consistent.now, ?_⟩
      rintro _ ⟨⟩
      obtain ⟨moment, passed, fits⟩ := consistent.call call running
      exact ⟨moment, passed, fits_readNext fits read⟩

/-! ### Writes of keys that were read already -/

def Part.covers (base : String) (part : Part) (key : String) : Bool :=
  match part with
  | .leader => key == leaderPath base
  | .members => startsWith key (membersPath base)
  | .initializeKey => key == initializePath base
  | .failover => key == failoverPath base
  | .sync => key == syncPath base
  | .config => key == configPath base
  | .timeline => key == timelinePath base
  | .history => key == historyPath base

theorem look_congr {before after : Moment} {part : Part}
    (same : ∀ key, part.covers base key = true →
      StateMachine.get after.clock after.sm key = StateMachine.get before.clock before.sm key) :
    look base after part = look base before part := by
  funext key
  cases part <;> simp only [look, getPrefix]
  all_goals
    split
    · rename_i covered
      exact same key (by simpa [Part.covers] using covered)
    · rfl

theorem set_apart {before : Moment} {part : Part} {key value : String} {ttl : Option Nat}
    {prevExist : Option Bool} {prevValue : Option String} {prevVersion : Option Nat}
    {now index : Nat} (apart : part.covers base key = false) :
    look base ⟨(apply before.clock before.sm
      (.set key value ttl prevExist prevValue prevVersion now) index).1, before.clock⟩ part =
      look base before part := by
  apply look_congr
  intro other covered
  have different : other ≠ key := by
    rintro rfl
    rw [covered] at apart
    cases apart
  simp only [StateMachine.get, apply]
  rcases applySet_cases before.clock
    { before.sm with lastAppliedLog := index } key value ttl prevExist
    prevValue prevVersion now with same | ⟨_, _, _, _, _, written⟩
  · rw [same]
  · rw [written]
    simp only [insert_other _ _ _ _ different]

/-- Outside a call anything goes; during one, only Sets of keys that are not read any more. -/
def writesBehind (base : String) (world : World) : Act → Bool
  | .getCluster | .read => true
  | .applied _ (.set key _ _ _ _ _ _) =>
      world.call.all fun call => call.unread.all fun part => !part.covers base key
  | .applied _ _ | .ticked _ => world.call.isNone

theorem writesBehind_meets {world : World} {act : Act}
    (behind : writesBehind base world act = true) :
    Meets base world act := by
  intro call after running next
  cases act with
  | getCluster => cases next
  | read => cases next
  | ticked clock => simp [writesBehind, running] at behind
  | applied index request =>
      cases request with
      | delete key prevValue recursive => simp [writesBehind, running] at behind
      | expireKeys now => simp [writesBehind, running] at behind
      | set key value ttl prevExist prevValue prevVersion now =>
          simp only [Act.moment] at next
          split at next
          · rw [← Option.some.inj next]
            left
            intro part remains
            apply set_apart
            simp only [writesBehind, running, Option.all_some, List.all_eq_true,
              Bool.not_eq_true'] at behind
            exact behind part remains
          · cases next

/-- In every run in which each change of the store or the clock meets the condition, the
view a finished call returns is the projection of one moment the node was in. -/
theorem cluster_view_is_snapshot (readers : Readers Failover) (base : String) {clock : Nat}
    {world : World} (path : Reaches (step base) (Meets base) (.start clock) world) {call : Call}
    (returned : world.call = some call) (finished : call.unread = []) :
    ∃ moment ∈ world.passed, assemble readers base call.found =
      project readers base moment := by
  have consistent : Consistent base world :=
    reaches_invariant (Consistent base) ⟨List.mem_cons_self, fun _ none => by cases none⟩
      (fun _ act _ consistent meets stepped => consistent_step consistent act meets stepped) path
  obtain ⟨moment, passed, fits⟩ := consistent.call call returned
  refine ⟨moment, passed, ?_⟩
  have same : look base moment = call.found := by
    funext part
    exact fits.read part (by simp [finished])
  rw [project, same]

/-! ### A promoter that comes up between two reads -/

/-- What the decisions make of a view whose only member is `b`. -/
def judged (view : View Failover) : Latest :=
  resolveLatest view.timeline
    ((view.members (memberPath "/service/c/" "b")).toList.map MemberData.toMember) none

def stoppedText : String :=
  "\x7b\"api_url\":\"http://b:8008\",\"conn_url\":\"host=b port=5432 dbname=postgres user=ha\"," ++
  "\"lineage\":\x7b\"generation\":0,\"history\":\x7b\"begin\":1280,\"timeline\":5,\"wal\":true\x7d," ++
  "\"postmaster_start\":null,\"timeline_begin\":null\x7d,\"name\":\"b\",\"rewind_check\":false," ++
  "\"role\":\"replica\",\"state\":\"stopped\",\"watchdog_failed\":false\x7d"

def runningText : String :=
  "\x7b\"api_url\":\"http://b:8008\",\"conn_url\":\"host=b port=5432 dbname=postgres user=ha\"," ++
  "\"lineage\":\x7b\"generation\":0,\"history\":\x7b\"begin\":1280,\"timeline\":5,\"wal\":true\x7d," ++
  "\"postmaster_start\":\"812 990\",\"timeline_begin\":1280\x7d,\"name\":\"b\",\"rewind_check\":false," ++
  "\"role\":\"replica\",\"state\":\"running\",\"timeline\":5,\"wal_position\":2048," ++
  "\"watchdog_failed\":false\x7d"

def confirmedText : String :=
  "\x7b\"timeline\":5,\"begin\":1280,\"primary\":\"a\",\"generation\":0\x7d"

def promotingText : String :=
  "\x7b\"timeline\":5,\"begin\":1280,\"primary\":\"a\",\"generation\":0," ++
  "\"pending\":\x7b\"node\":\"b\",\"base_timeline\":5,\"base_begin\":1280,\"generation\":0," ++
  "\"postmaster_start\":\"812 990\"\x7d\x7d"

/-- The record of `b`, without and with a server that runs. -/
def memberB (running : Bool) : MemberData where
  name := "b".toList
  connUrl := "host=b port=5432 dbname=postgres user=ha".toList
  apiUrl := "http://b:8008".toList
  state := if running then .running else .stopped
  role := .replica
  walPosition := if running then some 2048 else none
  timeline := if running then some 5 else none
  tags := []
  version := none
  rewindCheck := false
  lineage := some ⟨if running then some 1280 else none, some ⟨5, 1280, true⟩,
    if running then some "812 990".toList else none, 0⟩
  watchdogFailed := false

def pendingOfB : PendingPromote := ⟨"b".toList, 5, 1280, 0, some "812 990".toList⟩

def sampleReaders : Readers Unit where
  member text :=
    if text = stoppedText then some (memberB false)
    else if text = runningText then some (memberB true) else none
  failover _ := none
  syncState _ := none
  config _ := none
  record text :=
    if text = confirmedText.toList then some ⟨5, 1280, "a".toList, 0, none⟩
    else if text = promotingText.toList then some ⟨5, 1280, "a".toList, 0, some pendingOfB⟩
    else none
  history _ := none

/-- The confirmed record is there, and `b` publishes while a call is at its last read. -/
def quietRun : List Act :=
  [.applied 2 (timelineWriteRequest "/service/c/" confirmedText none 1000000), .getCluster,
    .read, .read, .read, .read, .read, .read, .read,
    .applied 3 (plainSetRequest (memberPath "/service/c/" "b") runningText (some 30) 1001000),
      .read]

theorem cluster_view_is_snapshot_quiet :
    ∃ world call, Reaches (step "/service/c/") (Meets "/service/c/") (.start 1000500) world ∧
      world.call = some call ∧ call.unread = [] ∧
      ∃ moment ∈ world.passed,
        assemble sampleReaders "/service/c/" call.found =
          project sampleReaders "/service/c/" moment := by
  have played : (play (step "/service/c/")
      (fun world act => writesBehind "/service/c/" world act = true)
      (.start 1000500) quietRun).map (fun world => world.call.any fun call => call.unread.isEmpty) =
        some true := by decide +kernel
  obtain ⟨world, path, done⟩ := play_exhibits played
  have path := reaches_weaken (fun _ _ => writesBehind_meets) path
  simp only [Option.any_eq_true, List.isEmpty_iff] at done
  obtain ⟨call, running, finished⟩ := done
  exact ⟨world, call, path, running, finished,
    cluster_view_is_snapshot sampleReaders "/service/c/" path running finished⟩

/-- `b` is stopped when its record is read. Before `/timeline` is read, entries arrive in
which `b` runs again, takes the lock and sets out to promote. -/
def tornRun : List Act :=
  [.applied 2 (timelineWriteRequest "/service/c/" confirmedText none 1000000),
    .applied 3 (plainSetRequest (memberPath "/service/c/" "b") stoppedText (some 30) 1001000),
    .getCluster, .read, .read,
    .applied 4 (plainSetRequest (memberPath "/service/c/" "b") runningText (some 30) 1011000),
    .applied 5 (acquireRequest (leaderPath "/service/c/") "b" 30 1012000),
    .applied 6 (timelineWriteRequest "/service/c/" promotingText (some 2) 1013000),
    .read, .read, .read, .read, .read, .read]

def isVoid : Latest → Bool
  | .known _ _ (.pendingVoid _) => true
  | _ => false

def tears (world : World) : Bool :=
  (world.call.any fun call => call.unread.isEmpty &&
    isVoid (judged (assemble sampleReaders "/service/c/" call.found))) &&
  world.passed.all fun moment => !isVoid (judged (project sampleReaders "/service/c/" moment))

/-- The view takes the promote for void by a record of `b` that is older than the promote.
At no moment the node was in would it have. -/
theorem view_mixes_moments :
    ∃ world call, Reaches (step "/service/c/") anyAct (.start 1014000) world ∧
      world.call = some call ∧ call.unread = [] ∧
      isVoid (judged (assemble sampleReaders "/service/c/" call.found)) = true ∧
      ∀ moment ∈ world.passed,
        isVoid (judged (project sampleReaders "/service/c/" moment)) = false ∧
        assemble sampleReaders "/service/c/" call.found ≠
          project sampleReaders "/service/c/" moment := by
  have played : (play (step "/service/c/") anyAct (.start 1014000) tornRun).map tears =
      some true := by decide +kernel
  obtain ⟨world, path, torn⟩ := play_exhibits played
  simp only [tears, Bool.and_eq_true, List.all_eq_true, Option.any_eq_true, Bool.not_eq_true',
    List.isEmpty_iff] at torn
  obtain ⟨⟨call, running, finished, void⟩, others⟩ := torn
  refine ⟨world, call, path, running, finished, void, ?_⟩
  intro moment passed
  refine ⟨others moment passed, ?_⟩
  intro same
  rw [same, others moment passed] at void
  cases void

end PgHa.ClusterSnapshot
