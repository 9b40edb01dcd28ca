import PgHa.ClusterSnapshot
import PgHa.LastingKey

/-!
The `/timeline` key as the nodes use it: the text of a record, and reads and conditional
writes of any nodes in any order. A node decides on what its own replica showed it at
some time before. The writes that succeed form one line all the same, each decided on
exactly what the one before it left, which is what the protocol of promotes assumes of
its record.
-/

namespace PgHa.TimelineUpdates

open Text Serde Cluster StateMachine RaftDcs VersionCas LastingKey ClusterSnapshot
open Transition

/-! ### The record's text -/

def pendingJson (pending : PendingPromote) : Json :=
  .object [("node".toList, .string pending.node),
    ("base_timeline".toList, .number pending.baseTimeline),
    ("base_begin".toList, .number pending.baseBegin),
    ("generation".toList, .number pending.generation),
    ("postmaster_start".toList, optional .string pending.postmasterStart)]

/-- `pending` is left out when there is none. -/
def recordJson (record : TimelineRecord) : Json :=
  .object ([("timeline".toList, .number record.timeline), ("begin".toList, .number record.begin),
      ("primary".toList, .string record.primary),
        ("generation".toList, .number record.generation)] ++
    record.pending.toList.map fun pending => ("pending".toList, pendingJson pending))

def readPending (json : Json) : Option PendingPromote := do
  let fields ← json.asObject
  let node ← required fields "node" Json.asStr
  let baseTimeline ← required fields "base_timeline" Json.asU64
  let baseBegin ← required fields "base_begin" Json.asU64
  let generation ← required fields "generation" Json.asU64
  let postmasterStart ← defaulted fields "postmaster_start" (nullable Json.asStr) none
  pure ⟨node, baseTimeline, baseBegin, generation, postmasterStart⟩

def readRecord (json : Json) : Option TimelineRecord := do
  let fields ← json.asObject
  let timeline ← required fields "timeline" Json.asU64
  let begin ← required fields "begin" Json.asU64
  let primary ← defaulted fields "primary" Json.asStr []
  let generation ← defaulted fields "generation" Json.asU64 0
  let pending ← defaulted fields "pending" (nullable readPending) none
  pure ⟨timeline, begin, primary, generation, pending⟩

theorem readPending_json (pending : PendingPromote) :
    readPending (pendingJson pending) = some pending := by
  obtain ⟨node, baseTimeline, baseBegin, generation, postmasterStart⟩ := pending
  cases postmasterStart with
  | none => rfl
  | some run => rfl

theorem readRecord_json (record : TimelineRecord) :
    readRecord (recordJson record) = some record := by
  obtain ⟨timeline, begin, primary, generation, pending⟩ := record
  cases pending with
  | none => rfl
  | some pending =>
      have entry : nullable readPending (pendingJson pending) = some (some pending) := by
        change (readPending (pendingJson pending)).map some = _
        rw [readPending_json]
        rfl
      change ((nullable readPending (pendingJson pending)).bind fun pending =>
        some (TimelineRecord.mk timeline begin primary generation pending)) = _
      rw [entry]
      rfl

/-- A record of an older node, without the fields that came later. -/
example : readRecord (.object [("timeline".toList, .number 5), ("begin".toList, .number 1280)]) =
    some ⟨5, 1280, [], 0, none⟩ := rfl

/-- `serde_json` between values and texts. -/
structure JsonText where
  toString : Json → Str
  fromStr : Str → Option Json

variable {Failover : Type} (json : JsonText) (readers : Readers Failover) (base : String)

/-- The text of the record is that of an object, and reads back. -/
def JsonText.Faithful (record : TimelineRecord) : Prop :=
  json.fromStr (json.toString (recordJson record)) = some (recordJson record) ∧
    ∃ inside, json.toString (recordJson record) = '{' :: (inside ++ ['}'])

def JsonText.reading : Readers Failover :=
  { readers with record := fun text => (json.fromStr text).bind readRecord }

theorem parseTimeline_text {record : TimelineRecord} (faithful : json.Faithful record)
    (version : Nat) :
    parseTimeline (json.reading readers)
      (String.ofList (json.toString (recordJson record))) version =
      .record record version := by
  obtain ⟨reads, inside, text⟩ := faithful
  have trimmed : trim (json.toString (recordJson record)) = json.toString (recordJson record) := by
    rw [text]
    exact SyncNames.trimmed_between '{' '}' inside (by decide) (by decide)
  have number : parseU64 (json.toString (recordJson record)) = none := by
    rw [text]
    rfl
  simp only [parseTimeline, String.toList_ofList, trimmed, number, JsonText.reading, reads]
  simp [readRecord_json]

/-! ### The key -/

/-- `timeline` of the view `get_cluster` returns. -/
def timelineAt (clock : Nat) (log : List LogEntry) : ClusterTimeline :=
  (project readers base ⟨after log, clock⟩).timeline

variable {readers base}

/-- No reader's clock matters. -/
theorem timelineAt_eq {log : List LogEntry} (lasts : Lasting (timelinePath base) log)
    (clock : Nat) :
    timelineAt readers base clock log = ((after log).data (timelinePath base)).elim .absent
      fun entry => parseTimeline readers entry.value entry.version := by
  rw [← get_forever lasts clock]
  cases found : StateMachine.get clock (after log) (timelinePath base) <;>
    simp [timelineAt, project, assemble, look, found]

theorem parseTimeline_version (value : String) (version : Nat) :
    (parseTimeline readers value version).version = some version := by
  unfold parseTimeline
  dsimp only
  split
  · rfl
  · split <;> rfl

theorem timelineAt_version {log : List LogEntry} (lasts : Lasting (timelinePath base) log)
    (clock : Nat) :
    (timelineAt readers base clock log).version =
      ((after log).data (timelinePath base)).map KvEntry.version := by
  rw [timelineAt_eq lasts]
  cases (after log).data (timelinePath base) with
  | none => rfl
  | some held => exact parseTimeline_version held.value held.version

/-- The version a view shows names all that it shows. -/
theorem timelineAt_same {log : List LogEntry} {position : Nat} (increasing : Increasing log)
    (lasts : Lasting (timelinePath base) log) {clock clock' : Nat}
    (same : (timelineAt readers base clock (log.take position)).version =
      (timelineAt readers base clock' log).version) :
    timelineAt readers base clock (log.take position) = timelineAt readers base clock' log := by
  have before := lasting_take lasts position
  rw [timelineAt_version before, timelineAt_version lasts] at same
  rw [timelineAt_eq before, timelineAt_eq lasts]
  cases found : (after (log.take position)).data (timelinePath base) with
  | none =>
      rw [found] at same
      rw [Option.map_eq_none_iff.mp same.symm]
  | some earlier =>
      rw [found] at same
      obtain ⟨current, present, version⟩ := Option.map_eq_some_iff.mp same.symm
      rw [present, same_version_same_entry increasing found present version.symm]

/-- `write_cluster_timeline`, in the log. -/
def writeEntry (base : String) (record : TimelineRecord) (expected : Option Nat)
    (index stamp clock : Nat) : LogEntry :=
  ⟨index, clock,
    timelineWriteRequest base (String.ofList (json.toString (recordJson record))) expected stamp⟩

theorem lasting_write (record : TimelineRecord) (expected : Option Nat) (index stamp clock : Nat) :
    lasting (timelinePath base) (writeEntry json base record expected index stamp clock).request =
      true := by
  simp [writeEntry, timelineWriteRequest, versionedSetRequest, lasting]

variable {json}

/-- A write is a compare-and-swap on what a view shows. -/
theorem write_succeeds_iff {log : List LogEntry} (lasts : Lasting (timelinePath base) log)
    (record : TimelineRecord)
    (expected : Option Nat) (index stamp clock now : Nat) :
    (applyEntry (after log) (writeEntry json base record expected index stamp clock)).2.succeeded =
      true ↔
      (timelineAt readers base now log).version = expected := by
  have current := get_forever lasts (effectiveNow clock stamp)
  unfold StateMachine.get at current
  rw [timelineAt_version lasts]
  simp only [applyEntry, writeEntry, timelineWriteRequest, versionedSetRequest, apply,
    applySet, current]
  cases found : (after log).data (timelinePath base) with
  | none =>
      cases expected with
      | none => simp [existPasses, valuePasses, versionPasses, Response.succeeded]
      | some version => simp [existPasses, valuePasses, versionPasses, Response.succeeded]
  | some held =>
      cases expected with
      | none => simp [existPasses, valuePasses, versionPasses, Response.succeeded]
      | some version =>
          by_cases same : held.version = version
          · simp [existPasses, valuePasses, versionPasses, Response.succeeded, same]
          · simp [existPasses, valuePasses, versionPasses, Response.succeeded, same]

/-- What was written is what every view shows from then on. -/
theorem write_shown {log : List LogEntry} (lasts : Lasting (timelinePath base) log)
    {record : TimelineRecord}
    (faithful : json.Faithful record) {expected : Option Nat} {index stamp clock : Nat}
    (succeeded : (applyEntry (after log)
      (writeEntry json base record expected index stamp clock)).2.succeeded = true) (now : Nat) :
    timelineAt (json.reading readers) base now
      (log ++ [writeEntry json base record expected index stamp clock]) = .record record index := by
  have request : (writeEntry json base record expected index stamp clock).request =
      .set (timelinePath base) (String.ofList (json.toString (recordJson record))) none
        (if expected.isNone then some false else none) none expected stamp := rfl
  rw [timelineAt_eq (lasting_append lasts (lasting_write json record expected index stamp clock)),
    after_concat]
  obtain ⟨_, _, held, present, _, text⟩ := set_succeeded request succeeded
  rw [present, Option.elim_some]
  rcases applyEntry_cases (timelinePath base) (after log)
    (writeEntry json base record expected index stamp clock) with ⟨kept, _⟩ | ⟨_, wrote⟩
  · exact absurd (set_ends request succeeded) kept
  · rw [text, (wrote held present).2]
    exact parseTimeline_text json readers faithful index

theorem timelineAt_congr {log : List LogEntry} {entry : LogEntry}
    (lasts : Lasting (timelinePath base) log)
    (last : lasting (timelinePath base) entry.request = true)
    (same : (applyEntry (after log) entry).1.data (timelinePath base) =
      (after log).data (timelinePath base)) (now now' : Nat) :
    timelineAt readers base now (log ++ [entry]) = timelineAt readers base now' log := by
  rw [timelineAt_eq (lasting_append lasts last), timelineAt_eq lasts, after_concat, same]

/-! ### Reads and writes in any order -/

/-- A write that succeeded: what its sender had seen, and what it left. -/
structure Update where
  seen : ClusterTimeline
  record : TimelineRecord
  version : Nat

/-- From `first` to `last` by the updates, each made on what the one before it left. -/
inductive Serial (first : ClusterTimeline) : List Update → ClusterTimeline → Prop where
  | start : Serial first [] first
  | next {updates : List Update} {last : ClusterTimeline} (update : Update) :
      Serial first updates last → update.seen = last →
      Serial first (updates ++ [update]) (.record update.record update.version)

/-- `seen` is what the view of each call showed: a call reads once, or again, and decides. -/
structure World where
  log : List LogEntry
  seen : Nat → Option ClusterTimeline
  updates : List Update

def World.start (log : List LogEntry) : World := ⟨log, fun _ => none, []⟩

/-- A call reads on a replica that has applied the log up to `position`, and its write is
committed at any time after, or never, or more than once. -/
inductive Act where
  | read (call position clock : Nat)
  | commit (call : Nat) (record : TimelineRecord) (index stamp clock : Nat)
  | other (entry : LogEntry)

variable (json readers base)

def step (world : World) : Act → Option World
  | .read call position clock =>
      let shown := timelineAt (json.reading readers) base clock (world.log.take position)
      some { world with seen := fun other => if other = call then some shown else world.seen other }
  | .commit call record index stamp clock => do
      let seen ← world.seen call
      let entry := writeEntry json base record seen.version index stamp clock
      let log := world.log ++ [entry]
      if (applyEntry (after world.log) entry).2.succeeded then
        some { world with log := log, updates := world.updates ++ [⟨seen, record, index⟩] }
      else some { world with log := log }
  | .other entry => some { world with log := world.log ++ [entry] }

/-- Log indices grow, and nothing but `write_cluster_timeline` touches the key. -/
def Meets (world : World) : Act → Prop
  | .read _ _ _ => True
  | .commit _ record index _ _ =>
      (∀ earlier ∈ world.log, earlier.index < index) ∧ json.Faithful record
  | .other entry =>
      (∀ earlier ∈ world.log, earlier.index < entry.index) ∧
        elsewhere (timelinePath base) entry.request = true

structure Inv (first : ClusterTimeline) (world : World) : Prop where
  increasing : Increasing world.log
  lasts : Lasting (timelinePath base) world.log
  shown : ∀ call seen, world.seen call = some seen →
    ∃ position, position ≤ world.log.length ∧
    seen = timelineAt (json.reading readers) base 0 (world.log.take position)
  serial : Serial first world.updates (timelineAt (json.reading readers) base 0 world.log)

variable {json readers base}

theorem increasing_append {log : List LogEntry} {entry : LogEntry} (increasing : Increasing log)
    (newest : ∀ earlier ∈ log, earlier.index < entry.index) : Increasing (log ++ [entry]) := by
  apply List.pairwise_append.mpr
  refine ⟨increasing, List.pairwise_singleton _ _, ?_⟩
  intro earlier member last same
  rw [List.mem_singleton.mp same]
  exact newest earlier member

/-- What a replica showed at some place of the log it shows there for ever. -/
theorem shown_append {log : List LogEntry} {seen : ClusterTimeline} (more : List LogEntry)
    (shown : ∃ position, position ≤ log.length ∧
      seen = timelineAt (json.reading readers) base 0 (log.take position)) :
    ∃ position, position ≤ (log ++ more).length ∧
      seen = timelineAt (json.reading readers) base 0 ((log ++ more).take position) := by
  obtain ⟨position, within, same⟩ := shown
  refine ⟨position, ?_, ?_⟩
  · rw [List.length_append]
    exact Nat.le_add_right_of_le within
  · rw [List.take_append_of_le_length within]
    exact same

theorem inv_read {first : ClusterTimeline} {world after : World} {call position clock : Nat}
    (inv : Inv json readers base first world)
    (stepped : step json readers base world (.read call position clock) = some after) :
    Inv json readers base first after := by
  cases stepped
  constructor
  · exact inv.increasing
  · exact inv.lasts
  · intro other seen present
    dsimp only at present
    by_cases same : other = call
    · rw [if_pos same] at present
      cases present
      refine ⟨min position world.log.length, Nat.min_le_right _ _, ?_⟩
      rw [← List.take_eq_take_min]
      have before := lasting_take inv.lasts position
      rw [timelineAt_eq before, timelineAt_eq before]
    · rw [if_neg same] at present
      exact inv.shown other seen present
  · exact inv.serial

/-- The version the sender saw is still the current one, and so is all that it saw. -/
theorem inv_commit {first : ClusterTimeline} {world after : World} {call index stamp clock : Nat}
    {record : TimelineRecord} (inv : Inv json readers base first world)
    (meets : Meets json base world (.commit call record index stamp clock))
    (stepped : step json readers base world (.commit call record index stamp clock) = some after) :
    Inv json readers base first after := by
  obtain ⟨newest, faithful⟩ := meets
  simp only [step, Option.bind_eq_bind, Option.bind_eq_some_iff] at stepped
  obtain ⟨seen, present, stepped⟩ := stepped
  obtain ⟨position, within, view⟩ := inv.shown call seen present
  have last : lasting (timelinePath base)
      (writeEntry json base record seen.version index stamp clock).request = true :=
    lasting_write json record seen.version index stamp clock
  have increasing : Increasing
      (world.log ++ [writeEntry json base record seen.version index stamp clock]) :=
    increasing_append inv.increasing newest
  split at stepped
  · rename_i succeeded
    cases stepped
    have version : (timelineAt (json.reading readers) base 0 world.log).version = seen.version :=
      (write_succeeds_iff inv.lasts record seen.version index stamp clock 0).mp succeeded
    have whole : seen = timelineAt (json.reading readers) base 0 world.log := by
      rw [view] at version ⊢
      exact timelineAt_same inv.increasing inv.lasts version.symm
    constructor
    · exact increasing
    · exact lasting_append inv.lasts last
    · exact fun other seen present => shown_append _ (inv.shown other seen present)
    · dsimp only
      rw [write_shown inv.lasts faithful succeeded 0]
      exact .next ⟨seen, record, index⟩ inv.serial whole
  · rename_i refused
    cases stepped
    have same := refused_data refused (timelinePath base)
    constructor
    · exact increasing
    · exact lasting_append inv.lasts last
    · exact fun other seen present => shown_append _ (inv.shown other seen present)
    · dsimp only
      rw [timelineAt_congr inv.lasts last same 0 0]
      exact inv.serial

theorem inv_other {first : ClusterTimeline} {world after : World} {entry : LogEntry}
    (inv : Inv json readers base first world) (meets : Meets json base world (.other entry))
    (stepped : step json readers base world (.other entry) = some after) :
    Inv json readers base first after := by
  obtain ⟨newest, apart⟩ := meets
  cases stepped
  have last := lasting_elsewhere apart
  constructor
  · exact increasing_append inv.increasing newest
  · exact lasting_append inv.lasts last
  · exact fun call seen present => shown_append [entry] (inv.shown call seen present)
  · dsimp only
    rw [timelineAt_congr inv.lasts last (elsewhere_kept inv.lasts apart) 0 0]
    exact inv.serial

/-- The record changes as under one lock: in every run of reads on any replicas and writes
in any order, the writes that succeed are one line of updates from what the key held at
first, whatever its format, to what every reader of the whole log is shown, and each was
decided on exactly what the one before it left. -/
theorem timeline_updates_serial {log : List LogEntry} {world : World} (increasing : Increasing log)
    (lasts : Lasting (timelinePath base) log)
    (path : Reaches (step json readers base) (Meets json base) (World.start log) world)
    (clock : Nat) :
    Serial (timelineAt (json.reading readers) base clock log) world.updates
      (timelineAt (json.reading readers) base clock world.log) := by
  have inv : Inv json readers base (timelineAt (json.reading readers) base 0 log) world := by
    apply reaches_invariant (Inv json readers base _) _ _ path
    · constructor
      · exact increasing
      · exact lasts
      · intro call seen present
        cases present
      · exact .start
    · intro before act after inv meets stepped
      cases act with
      | read call position clock => exact inv_read inv stepped
      | commit call record index stamp clock => exact inv_commit inv meets stepped
      | other entry => exact inv_other inv meets stepped
  have serial := inv.serial
  rw [timelineAt_eq lasts, timelineAt_eq inv.lasts] at serial ⊢
  exact serial

def confirmed : TimelineRecord := ⟨5, 1280, "a".toList, 0, none⟩

def promoting : TimelineRecord := { confirmed with pending := some pendingOfB }

/-- The text of the record with these fields. -/
def textOf (fields : List (Str × Json)) : Str :=
  if fields.length = 4 then confirmedText.toList else promotingText.toList

def sampleText : JsonText where
  toString
    | .object fields => textOf fields
    | _ => []
  fromStr text :=
    if text = confirmedText.toList then some (recordJson confirmed)
    else if text = promotingText.toList then some (recordJson promoting) else none

theorem toString_object (fields : List (Str × Json)) :
    sampleText.toString (.object fields) = textOf fields := rfl

theorem sampleText_faithful {record : TimelineRecord}
    (known : record = confirmed ∨ record = promoting) :
    sampleText.Faithful record := by
  have apart : promotingText.toList ≠ confirmedText.toList := by decide +kernel
  rcases known with rfl | rfl
  · have text : sampleText.toString (recordJson confirmed) = confirmedText.toList := by
      rw [recordJson, toString_object, textOf, if_pos (by rfl)]
    constructor
    · rw [text]
      simp only [sampleText, if_true]
    · exact ⟨confirmedText.toList.tail.dropLast, by decide +kernel⟩
  · have text : sampleText.toString (recordJson promoting) = promotingText.toList := by
      rw [recordJson, toString_object, textOf, if_neg (by simp [promoting, confirmed])]
    constructor
    · rw [text]
      simp only [sampleText, if_neg apart, if_true]
    · exact ⟨promotingText.toList.tail.dropLast, by decide +kernel⟩

/-- The number an old node left. Two calls see it and one of them writes first; a third
sees what was written. -/
def legacyLog : List LogEntry := [⟨2, 0, plainSetRequest "/service/c/timeline" "17" none 1000⟩]

def contestedRun : List Act :=
  [.read 0 1 1500, .read 1 1 1600, .commit 0 confirmed 3 2000 0, .commit 1 promoting 4 2100 0,
    .other ⟨5, 0, .expireKeys 2200⟩, .read 2 4 2300, .commit 2 promoting 6 2400 0]

def meets (world : World) : Act → Bool
  | .read _ _ _ => true
  | .commit _ record index _ _ =>
      (world.log.all fun earlier => earlier.index < index) &&
        (record == confirmed || record == promoting)
  | .other entry =>
      (world.log.all fun earlier => earlier.index < entry.index) &&
        elsewhere "/service/c/timeline" entry.request

theorem meets_sound {world : World} {act : Act} (checked : meets world act = true) :
    Meets sampleText "/service/c/" world act := by
  cases act with
  | read call position clock => trivial
  | commit call record index stamp clock =>
      simp only [meets, Bool.and_eq_true, List.all_eq_true, decide_eq_true_eq, Bool.or_eq_true,
        beq_iff_eq] at checked
      exact ⟨checked.1, sampleText_faithful checked.2⟩
  | other entry =>
      simp only [meets, Bool.and_eq_true, List.all_eq_true, decide_eq_true_eq] at checked
      exact checked

theorem timeline_updates_serial_contested :
    ∃ world, Reaches (step sampleText sampleReaders "/service/c/")
      (Meets sampleText "/service/c/")
        (World.start legacyLog) world ∧ world.updates.length = 2 ∧
      Serial (.legacy 17 2) world.updates
        (timelineAt (sampleText.reading sampleReaders) "/service/c/" 3000 world.log) := by
  have played : (play (step sampleText sampleReaders "/service/c/")
      (fun world act => meets world act = true) (World.start legacyLog) contestedRun).map
        (fun world => world.updates.length == 2) = some true := by decide +kernel
  obtain ⟨world, path, two⟩ := play_exhibits played
  have path := reaches_weaken (fun _ _ => meets_sound) path
  have first : timelineAt (sampleText.reading sampleReaders) "/service/c/" 3000 legacyLog =
      .legacy 17 2 := by decide +kernel
  have lasts : Lasting (timelinePath "/service/c/") legacyLog := by
    intro entry member
    rw [List.mem_singleton.mp member]
    decide +kernel
  refine ⟨world, path, by simpa using two, ?_⟩
  rw [← first]
  exact timeline_updates_serial (List.pairwise_singleton _ _) lasts path 3000

end PgHa.TimelineUpdates
