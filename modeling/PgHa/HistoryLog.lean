import PgHa.Cluster
import PgHa.HistoryBuffer
import PgHa.LeaderLock
import PgHa.Transition
import PgHa.VersionCas
import Mathlib.Data.Countable.Basic
import Mathlib.Logic.Equiv.List

/-!
Appending to `/history` (`ha/history_log.rs`). Every node reads the array, pushes its
entry and writes the array back on the version it read, up to three times. A read sees
any position of the log that was applied so far; a write is appended at some later
point, or never, whether or not its caller still waits for it. `log` is the oldest
entry first.
-/

namespace PgHa.HistoryLog

open Text Cluster HistoryBuffer StateMachine RaftDcs LeaderLock VersionCas Transition

def historyCasAttempts : Nat := 3

/-- A history entry waiting for its append. -/
structure PendingHistory where
  timestamp : Nat
  eventType : HistoryEventType
  oldLeader : Option Str
  reason : Str
  prevTimeline : Option Nat
  deriving DecidableEq

inductive HistoryAppend where
  | written
  | notAPromotion
  | failed (why : Str)
  deriving DecidableEq

/-- The pending entry of the node that acquired the lock. -/
structure Event where
  node : Str
  pending : PendingHistory
  deriving DecidableEq

def Event.key (event : Event) : Nat × HistoryEventType × Str :=
  (event.pending.timestamp, event.pending.eventType, event.node)

/-- The entry `try_append_history` pushes; `id` is what `history_timeline` found. -/
def Event.entry (event : Event) (id : Option TimelineId) : HistoryEntry where
  timestamp := event.pending.timestamp
  eventType := event.pending.eventType
  oldLeader := event.pending.oldLeader
  newLeader := some event.node
  reason := event.pending.reason
  timeline := id.map TimelineId.timeline
  lsn := id.map TimelineId.begin

/-- `serde_json` on the stored array. -/
structure Codec where
  toJson : List HistoryEntry → String
  fromJson : String → Option (List HistoryEntry)
  fromJson_toJson : ∀ entries, fromJson (toJson entries) = some entries

variable (codec : Codec) (base : String)

/-- `History::from_json`: a text that cannot be read is the empty array. -/
def Codec.entries (text : String) : List HistoryEntry := (codec.fromJson text).getD []

def readHistory (clock : Nat) (sm : KvStateMachine) : List HistoryEntry × Option Nat :=
  match get clock sm (historyPath base) with
  | none => ([], none)
  | some held => (codec.entries held.value, some held.version)

inductive Phase where
  | reading
  | writing (entries : List HistoryEntry) (expected : Option Nat) (reply : Option Response)
  | done (outcome : HistoryAppend) (position : Nat)
  deriving DecidableEq

/-- One call of `try_append_history`; `left` counts the attempts that remain, the present
one included. A finished call keeps the length the log had. -/
structure Append where
  event : Event
  id : Option TimelineId
  left : Nat
  phase : Phase
  deriving DecidableEq

/-- `late` are the calls that gave up on a write that had not been applied. -/
structure World where
  log : List LogEntry
  begun : List Event
  appends : Nat → Option Append
  late : List Append

def World.start : World := ⟨[], [], fun _ => none, []⟩

def World.setAppend (world : World) (call : Nat) (append : Append) : World :=
  { world with appends := fun other => if other = call then some append else world.appends other }

inductive Act where
  | begin (call : Nat) (event : Event) (id : Option TimelineId) (authoritative : Bool)
  | read (call position clock : Nat)
  | readFails (call : Nat) (error : Str)
  | commit (call index stamp clock : Nat)
  | answer (call : Nat)
  | writeFails (call : Nat) (error : Str)
  | timeOut (call budget : Nat)
  | commitLate (place index stamp clock : Nat)
  | other (entry : LogEntry)

/-- An entry that neither sets nor deletes `/history`. -/
def Apart : Request → Prop
  | .expireKeys _ => True
  | request => ¬ Touches (historyPath base) request

instance : (request : Request) → Decidable (Apart base request)
  | .expireKeys _ => .isTrue trivial
  | .set _ _ _ _ _ _ _ => inferInstanceAs (Decidable (¬ Touches _ _))
  | .delete _ _ _ => inferInstanceAs (Decidable (¬ Touches _ _))

/-- The test before the loop: the node is on the timeline of the last confirmed primary. -/
def notAPromotion (event : Event) (id : Option TimelineId) (authoritative : Bool) : Bool :=
  authoritative &&
    match event.pending.prevTimeline, id with
    | some prev, some id => prev == id.timeline
    | _, _ => false

/-- One read and the push, in a call that has an attempt left. -/
def Append.readOnce (append : Append) (read : List HistoryEntry × Option Nat) (position : Nat) :
    Append :=
  match (History.fromEntries read.1).push (append.event.entry append.id) with
  | (_, false) => { append with phase := .done .written position }
  | (history, true) => { append with phase := .writing history.entries read.2 none }

/-- What the loop does with the answer to its write. -/
def Append.answered (append : Append) (reply : Response) (position : Nat) : Append :=
  match reply with
  | .ok _ => { append with phase := .done .written position }
  | .notChanged =>
      if append.left ≤ 1 then
        { append with
          left := 0
          phase := .done (.failed "/history kept changing (version conflict)".toList) position }
      else { append with left := append.left - 1, phase := .reading }

def Append.failed (append : Append) (why : Str) (position : Nat) : Append :=
  { append with phase := .done (.failed why) position }

def historyEntry (entries : List HistoryEntry) (expected : Option Nat) (index stamp clock : Nat) :
    LogEntry :=
  ⟨index, clock, historyWriteRequest base (codec.toJson entries) expected stamp⟩

/-- The call gives up on its write, which stays in flight unless it was applied. -/
def World.giveUp (world : World) (call : Nat) (append : Append) (why : Str) : World :=
  let after := world.setAppend call (append.failed why world.log.length)
  match append.phase with
  | .writing _ _ none => { after with late := append :: world.late }
  | .writing _ _ (some _) | .reading | .done _ _ => after

def step (world : World) : Act → Option World
  | .begin call event id authoritative =>
      if world.appends call = none then
        let phase := if notAPromotion event id authoritative then
          .done .notAPromotion world.log.length else .reading
        some ({ world with begun := event :: world.begun }.setAppend call
          ⟨event, id, historyCasAttempts, phase⟩)
      else none
  | .read call position clock =>
      match world.appends call with
      | some ⟨event, id, left, .reading⟩ =>
          if position ≤ world.log.length then
            some (world.setAppend call (Append.readOnce ⟨event, id, left, .reading⟩
              (readHistory codec base clock (after (world.log.take position))) world.log.length))
          else none
      | _ => none
  | .readFails call error =>
      match world.appends call with
      | some ⟨event, id, left, .reading⟩ =>
          some (world.setAppend call (Append.failed ⟨event, id, left, .reading⟩
            ("read /history: ".toList ++ error) world.log.length))
      | _ => none
  | .commit call index stamp clock =>
      match world.appends call with
      | some ⟨event, id, left, .writing entries expected none⟩ =>
          if (after world.log).lastAppliedLog < index then
            let entry := historyEntry codec base entries expected index stamp clock
            some ({ world with log := world.log ++ [entry] }.setAppend call
              ⟨event, id, left, .writing entries expected
                (some (applyEntry (after world.log) entry).2)⟩)
          else none
      | _ => none
  | .answer call =>
      match world.appends call with
      | some ⟨event, id, left, .writing entries expected (some reply)⟩ =>
          some (world.setAppend call (Append.answered
            ⟨event, id, left, .writing entries expected (some reply)⟩ reply world.log.length))
      | _ => none
  | .writeFails call error =>
      match world.appends call with
      | some ⟨event, id, left, .writing entries expected reply⟩ =>
          some (world.giveUp call ⟨event, id, left, .writing entries expected reply⟩
            ("write /history: ".toList ++ error))
      | _ => none
  | .timeOut call budget =>
      match world.appends call with
      | some ⟨_, _, _, .done _ _⟩ | none => none
      | some append => some (world.giveUp call append
          ("timed out after ".toList ++ Nat.toDigits 10 budget ++ "s".toList))
  | .commitLate place index stamp clock =>
      match world.late[place]? with
      | some ⟨_, _, _, .writing entries expected none⟩ =>
          if (after world.log).lastAppliedLog < index then
            some { world with
              log := world.log ++ [historyEntry codec base entries expected index stamp clock]
              late := world.late.eraseIdx place }
          else none
      | _ => none
  | .other entry =>
      if (after world.log).lastAppliedLog < entry.index ∧ Apart base entry.request then
        some { world with log := world.log ++ [entry] }
      else none

/-- Distinct events differ in timestamp, type or new leader. -/
def TellsApart (world : World) : Act → Prop
  | .begin _ event _ _ => ∀ other ∈ world.begun, other.key = event.key → other = event
  | _ => True

instance (world : World) (act : Act) : Decidable (TellsApart world act) := by
  cases act <;> unfold TellsApart <;> infer_instance

/-- The array at a position of the log. -/
def stored (sm : KvStateMachine) : List HistoryEntry :=
  match sm.data (historyPath base) with
  | none => []
  | some held => codec.entries held.value

def storedAt (log : List LogEntry) (position : Nat) : List HistoryEntry :=
  stored codec base (after (log.take position))

variable {codec base}

/-! ### The array -/

/-- The buffer is within its cap, lists no event twice and only events that were begun. -/
structure Sound (begun : List Event) (entries : List HistoryEntry) : Prop where
  capped : entries.length ≤ maxHistoryEntries
  distinct : Distinct entries
  known : ∀ entry ∈ entries, ∃ event ∈ begun, ∃ id, entry = event.entry id

/-- The array stays, or an entry that was not in it is pushed. -/
def Pushes (before after : List HistoryEntry) : Prop :=
  after = before ∨ ∃ entry, History.push ⟨before⟩ entry = (⟨after⟩, true)

def Forever (base : String) (sm : KvStateMachine) : Prop :=
  ∀ held, sm.data (historyPath base) = some held → held.expireAt = none

theorem sound_begun {begun more : List Event} {entries : List HistoryEntry}
    (sound : Sound begun entries) (grown : ∀ event ∈ begun, event ∈ more) :
    Sound more entries := by
  refine ⟨sound.capped, sound.distinct, ?_⟩
  intro entry member
  obtain ⟨event, old, id, same⟩ := sound.known entry member
  exact ⟨event, grown event old, id, same⟩

theorem push_true {entries pushed : List HistoryEntry} {entry : HistoryEntry}
    (fits : entries.length ≤ maxHistoryEntries)
    (push : History.push ⟨entries⟩ entry = (⟨pushed⟩, true)) :
    (∀ known ∈ entries, known.sameEvent entry = false) ∧
      pushed = (History.fromEntries (entries ++ [entry])).entries := by
  rcases push_cases ⟨entries⟩ entry fits with ⟨_, same⟩ | ⟨fresh, added⟩
  · simp [same] at push
  · rw [added] at push
    exact ⟨fresh, by rw [(Prod.mk.inj push).1]⟩

theorem fromEntries_subset {entries : List HistoryEntry} {entry : HistoryEntry}
    (member : entry ∈ (History.fromEntries entries).entries) : entry ∈ entries := by
  rw [fromEntries_entries] at member
  exact List.mem_of_mem_drop member

theorem push_sound {begun : List Event} {entries pushed : List HistoryEntry} {event : Event}
    {id : Option TimelineId} (sound : Sound begun entries) (member : event ∈ begun)
    (push : History.push ⟨entries⟩ (event.entry id) = (⟨pushed⟩, true)) :
    Sound begun pushed := by
  obtain ⟨fresh, rfl⟩ := push_true sound.capped push
  refine ⟨fromEntries_length _, distinct_append sound.distinct fresh, ?_⟩
  intro entry kept
  rcases List.mem_append.mp (fromEntries_subset kept) with old | last
  · exact sound.known entry old
  · exact ⟨event, member, id, List.mem_singleton.mp last⟩

/-- The pushed entry is at the end. -/
theorem pushed_member {entries pushed : List HistoryEntry} {entry : HistoryEntry}
    (push : History.push ⟨entries⟩ entry = (⟨pushed⟩, true)) : entry ∈ pushed := by
  unfold History.push at push
  split at push
  · simp at push
  · split at push
    · simp only [Prod.mk.injEq, History.mk.injEq, and_true] at push
      simp [← push]
    · simp only [Prod.mk.injEq, History.mk.injEq, and_true] at push
      simp [← push]

/-! ### The array along the log -/

structure Recorded (codec : Codec) (base : String) (begun : List Event) (log : List LogEntry) :
    Prop where
  increasing : Increasing log
  forever : ∀ position, Forever base (after (log.take position))
  sound : ∀ position, Sound begun (storedAt codec base log position)
  pushes : ∀ position, Pushes (storedAt codec base log position)
    (storedAt codec base log (position + 1))

theorem storedAt_earlier {log : List LogEntry} {position : Nat} (entry : LogEntry)
    (earlier : position ≤ log.length) :
    storedAt codec base (log ++ [entry]) position = storedAt codec base log position := by
  rw [storedAt, List.take_append_of_le_length earlier, storedAt]

theorem storedAt_whole {log : List LogEntry} {position : Nat} (whole : log.length ≤ position) :
    storedAt codec base log position = stored codec base (after log) := by
  rw [storedAt, List.take_of_length_le whole]

theorem recorded_start : Recorded codec base [] [] := by
  refine ⟨List.Pairwise.nil, ?_, ?_, ?_⟩
  · intro position held found
    simp [after, KvStateMachine.new] at found
  · intro position
    rw [storedAt_whole (Nat.zero_le _)]
    exact ⟨Nat.zero_le _, List.Pairwise.nil, by simp [stored, after, KvStateMachine.new]⟩
  · intro position
    left
    rw [storedAt_whole (Nat.zero_le _), storedAt_whole (Nat.zero_le _)]

theorem recorded_begun {begun more : List Event} {log : List LogEntry}
    (recorded : Recorded codec base begun log) (grown : ∀ event ∈ begun, event ∈ more) :
    Recorded codec base more log :=
  ⟨recorded.increasing, recorded.forever,
    fun position => sound_begun (recorded.sound position) grown,
    recorded.pushes⟩

/-- What an appended entry has to keep. -/
theorem recorded_append {begun : List Event} {log : List LogEntry} {entry : LogEntry}
    (recorded : Recorded codec base begun log)
    (above : (after log).lastAppliedLog < entry.index)
    (forever : Forever base (after (log ++ [entry])))
    (sound : Sound begun (stored codec base (after (log ++ [entry]))))
    (pushes : Pushes (stored codec base (after log)) (stored codec base (after (log ++ [entry])))) :
    Recorded codec base begun (log ++ [entry]) := by
  constructor
  · refine List.pairwise_append.mpr ⟨recorded.increasing, List.pairwise_singleton _ _, ?_⟩
    intro older member last newest
    rw [List.mem_singleton.mp newest]
    exact Nat.lt_of_le_of_lt (index_le_applied log recorded.increasing older member) above
  · intro position
    by_cases earlier : position ≤ log.length
    · rw [List.take_append_of_le_length earlier]
      exact recorded.forever position
    · rw [List.take_of_length_le (by simp; omega)]
      exact forever
  · intro position
    by_cases earlier : position ≤ log.length
    · rw [storedAt_earlier entry earlier]
      exact recorded.sound position
    · rw [storedAt_whole (by simp; omega)]
      exact sound
  · intro position
    rcases Nat.lt_trichotomy position log.length with earlier | here | later
    · rw [storedAt_earlier entry (Nat.le_of_lt earlier), storedAt_earlier entry earlier]
      exact recorded.pushes position
    · rw [storedAt_earlier entry (Nat.le_of_eq here), storedAt_whole (Nat.le_of_eq here.symm),
        storedAt_whole (by simp [here])]
      exact pushes
    · left
      rw [storedAt_whole (by simp; omega), storedAt_whole (by simp; omega)]

/-- An entry that leaves `/history` as it is. -/
theorem recorded_same {begun : List Event} {log : List LogEntry} {entry : LogEntry}
    (recorded : Recorded codec base begun log)
    (above : (after log).lastAppliedLog < entry.index)
    (same : (after (log ++ [entry])).data (historyPath base) =
      (after log).data (historyPath base)) :
    Recorded codec base begun (log ++ [entry]) := by
  have now := recorded.forever log.length
  rw [List.take_length] at now
  have kept : stored codec base (after (log ++ [entry])) = stored codec base (after log) := by
    rw [stored, same, stored]
  have current := recorded.sound log.length
  rw [storedAt_whole (Nat.le_refl _)] at current
  refine recorded_append recorded above ?_ ?_ (.inl kept)
  · intro held found
    exact now held (same ▸ found)
  · rw [kept]
    exact current

theorem recorded_other {begun : List Event} {log : List LogEntry} {entry : LogEntry}
    (recorded : Recorded codec base begun log)
    (above : (after log).lastAppliedLog < entry.index) (apart : Apart base entry.request) :
    Recorded codec base begun (log ++ [entry]) := by
  refine recorded_same recorded above ?_
  rw [after_concat]
  cases request : entry.request with
  | set key value ttl prevExist prevValue prevVersion now =>
      rw [request] at apart
      rw [applyEntry, request]
      exact untouched_data _ _ _ _ apart
  | delete key prevValue recursive =>
      rw [request] at apart
      rw [applyEntry, request]
      exact untouched_data _ _ _ _ apart
  | expireKeys now =>
      -- The array has no TTL.
      have forever := recorded.forever log.length
      rw [List.take_length] at forever
      rcases applyEntry_cases (historyPath base) (after log) entry
        with ⟨_, same⟩ | ⟨ended, _⟩
      · exact same
      · rw [Ends, request] at ended
        obtain ⟨held, found, lapsed⟩ := ended
        simp [live, forever held found] at lapsed

/-! ### A write in flight -/

/-- The write was made from the array at some position: its version, and its entries with
one pushed. -/
def Based (codec : Codec) (base : String) (log : List LogEntry) (entry : HistoryEntry)
    (entries : List HistoryEntry) (expected : Option Nat) : Prop :=
  ∃ position ≤ log.length,
    expected = ((after (log.take position)).data (historyPath base)).map KvEntry.version ∧
    History.push ⟨storedAt codec base log position⟩ entry = (⟨entries⟩, true)

theorem based_append {log : List LogEntry} {entry : HistoryEntry} {entries : List HistoryEntry}
    {expected : Option Nat} (based : Based codec base log entry entries expected)
    (next : LogEntry) : Based codec base (log ++ [next]) entry entries expected := by
  obtain ⟨position, earlier, version, push⟩ := based
  refine ⟨position, by simp; omega, ?_, ?_⟩
  · rw [List.take_append_of_le_length earlier]
    exact version
  · rw [storedAt_earlier next earlier]
    exact push

/-- A write that succeeds finds the key as its writer read it: a version stands for one
entry, and an absent key that is still absent was never written. -/
theorem write_finds_read {begun : List Event} {log : List LogEntry} {position : Nat}
    {value : String} {expected : Option Nat} {index stamp clock : Nat}
    (recorded : Recorded codec base begun log)
    (version : expected = ((after (log.take position)).data (historyPath base)).map KvEntry.version)
    (succeeded : (applyEntry (after log)
      ⟨index, clock, historyWriteRequest base value expected stamp⟩).2.succeeded = true) :
    (after log).data (historyPath base) = (after (log.take position)).data (historyPath base) := by
  cases read : (after (log.take position)).data (historyPath base) with
  | none =>
      rw [read] at version
      subst expected
      have absent := absent_when_created rfl succeeded
      have forever := recorded.forever log.length
      rw [List.take_length] at forever
      cases now : (after log).data (historyPath base) with
      | none => rfl
      | some held =>
          rw [now, Option.filter_some_pos] at absent
          · cases absent
          · simp [live, forever held now]
  | some earlier =>
      rw [read] at version
      subst expected
      obtain ⟨held, found, same, _, _⟩ := version_still_current rfl succeeded
      rw [found, same_version_same_entry recorded.increasing read found same.symm]

/-- A write in flight, applied: it changes nothing, or pushes its entry. -/
theorem recorded_write {begun : List Event} {log : List LogEntry} {event : Event}
    {id : Option TimelineId} {entries : List HistoryEntry} {expected : Option Nat} {index : Nat}
    (recorded : Recorded codec base begun log) (member : event ∈ begun)
    (based : Based codec base log (event.entry id) entries expected)
    (above : (after log).lastAppliedLog < index) (stamp clock : Nat) :
    Recorded codec base begun
        (log ++ [historyEntry codec base entries expected index stamp clock]) ∧
      ((applyEntry (after log) (historyEntry codec base entries expected index stamp
          clock)).2.succeeded = true →
        event.entry id ∈ stored codec base
          (after (log ++ [historyEntry codec base entries expected index stamp clock]))) := by
  obtain ⟨position, _, version, push⟩ := based
  cases outcome : (applyEntry (after log) (historyEntry codec base entries expected index stamp
      clock)).2.succeeded with
  | false =>
      refine ⟨recorded_same recorded above ?_, by simp⟩
      rw [after_concat]
      rcases applyEntry_cases (historyPath base) (after log)
        (historyEntry codec base entries expected index stamp clock)
          with ⟨_, same⟩ | ⟨ended, _⟩
      · exact same
      · exact absurd (ended.2.symm.trans outcome) (by decide)
  | true =>
      have unchanged := write_finds_read recorded version outcome
      obtain ⟨_, _, written, found, forever, value⟩ := set_succeeded rfl outcome
      have found' : (after (log ++ [historyEntry codec base entries expected index stamp
          clock])).data (historyPath base) = some written := by
        rw [after_concat]
        exact found
      have array : stored codec base (after (log ++ [historyEntry codec base entries expected index
          stamp clock])) = entries := by
        rw [stored, found']
        simp [Codec.entries, value, codec.fromJson_toJson]
      have current : storedAt codec base log position = stored codec base (after log) := by
        rw [storedAt, stored, ← unchanged, stored]
      have sound := recorded.sound log.length
      rw [storedAt_whole (Nat.le_refl _)] at sound
      rw [current] at push
      constructor
      · refine recorded_append recorded above ?_ ?_ ?_
        · intro held now
          rw [found', Option.some.injEq] at now
          rw [← now, forever]
          rfl
        · rw [array]
          exact push_sound sound member push
        · rw [array]
          exact .inr ⟨_, push⟩
      · intro _
        rw [array]
        exact pushed_member push

/-! ### The calls -/

/-- An entry of the event was in the array at a position up to the given one. -/
def Listed (codec : Codec) (base : String) (log : List LogEntry) (bound : Nat) (event : Event) :
    Prop :=
  ∃ position ≤ bound, position ≤ log.length ∧
    ∃ id, event.entry id ∈ storedAt codec base log position

theorem listed_append {log : List LogEntry} {bound : Nat} {event : Event}
    (listed : Listed codec base log bound event) (next : LogEntry) :
    Listed codec base (log ++ [next]) bound event := by
  obtain ⟨position, within, earlier, id, member⟩ := listed
  refine ⟨position, within, by simp; omega, id, ?_⟩
  rw [storedAt_earlier next earlier]
  exact member

theorem listed_now {log : List LogEntry} {event : Event} {id : Option TimelineId}
    (member : event.entry id ∈ stored codec base (after log)) :
    Listed codec base log log.length event := by
  refine ⟨log.length, Nat.le_refl _, Nat.le_refl _, id, ?_⟩
  rw [storedAt_whole (Nat.le_refl _)]
  exact member

/-- What a call may rely on in its phase. -/
def PhaseSound (codec : Codec) (base : String) (log : List LogEntry) (event : Event)
    (id : Option TimelineId) : Phase → Prop
  | .writing entries expected none => Based codec base log (event.entry id) entries expected
  | .writing _ _ (some (.ok _)) => Listed codec base log log.length event
  | .done .written position => Listed codec base log position event
  | .reading | .writing _ _ (some .notChanged) | .done .notAPromotion _ | .done (.failed _) _ =>
      True

structure CallSound (codec : Codec) (base : String) (begun : List Event) (log : List LogEntry)
    (append : Append) : Prop where
  begun : append.event ∈ begun
  phase : PhaseSound codec base log append.event append.id append.phase

theorem callSound_begun {begun more : List Event} {log : List LogEntry} {append : Append}
    (sound : CallSound codec base begun log append) (grown : ∀ event ∈ begun, event ∈ more) :
    CallSound codec base more log append :=
  ⟨grown _ sound.begun, sound.phase⟩

theorem callSound_append {begun : List Event} {log : List LogEntry} {append : Append}
    (sound : CallSound codec base begun log append) (next : LogEntry) :
    CallSound codec base begun (log ++ [next]) append := by
  obtain ⟨event, id, left, phase⟩ := append
  refine ⟨sound.begun, ?_⟩
  have kept := sound.phase
  cases phase with
  | reading => trivial
  | writing entries expected reply =>
      cases reply with
      | none => exact based_append kept next
      | some reply =>
          cases reply with
          | ok version =>
              obtain ⟨position, within, rest⟩ := listed_append kept next
              exact ⟨position, by simp; omega, rest⟩
          | notChanged => trivial
  | done outcome position =>
      cases outcome with
      | written => exact listed_append kept next
      | notAPromotion => trivial
      | failed why => trivial

structure WorldSound (codec : Codec) (base : String) (world : World) : Prop where
  recorded : Recorded codec base world.begun world.log
  apart : ∀ first ∈ world.begun, ∀ second ∈ world.begun, first.key = second.key →
    first = second
  calls : ∀ call append, world.appends call = some append →
    CallSound codec base world.begun world.log append
  late : ∀ append ∈ world.late, CallSound codec base world.begun world.log append

theorem worldSound_start : WorldSound codec base .start :=
  ⟨recorded_start, by simp [World.start], by simp [World.start], by simp [World.start]⟩

theorem worldSound_setAppend {world : World} (sound : WorldSound codec base world) (call : Nat)
    {append : Append} (kept : CallSound codec base world.begun world.log append) :
    WorldSound codec base (world.setAppend call append) := by
  refine ⟨sound.recorded, sound.apart, ?_, sound.late⟩
  intro other found present
  simp only [World.setAppend] at present
  split at present
  · rw [← Option.some.inj present]
    exact kept
  · exact sound.calls other found present

theorem worldSound_log {world : World} (sound : WorldSound codec base world) {next : LogEntry}
    (recorded : Recorded codec base world.begun (world.log ++ [next])) :
    WorldSound codec base { world with log := world.log ++ [next] } :=
  ⟨recorded, sound.apart,
    fun call append found => callSound_append (sound.calls call append found) next,
    fun append member => callSound_append (sound.late append member) next⟩

/-- An array that holds an entry with the key of a begun event holds one of that event. -/
theorem listed_of_sameEvent {world : World} (sound : WorldSound codec base world) {position : Nat}
    (within : position ≤ world.log.length) {event : Event} {id : Option TimelineId}
    (begun : event ∈ world.begun) {known : HistoryEntry}
    (member : known ∈ storedAt codec base world.log position)
    (same : known.sameEvent (event.entry id) = true) :
    Listed codec base world.log world.log.length event := by
  obtain ⟨other, otherBegun, otherId, rfl⟩ := (sound.recorded.sound position).known known member
  have sameKey : other.key = event.key := by
    simp only [HistoryEntry.sameEvent, Event.entry, Bool.and_eq_true, beq_iff_eq,
      Option.some.injEq] at same
    simp only [Event.key, same.1.1, same.1.2, same.2]
  rw [sound.apart other otherBegun event begun sameKey] at member
  exact ⟨position, within, within, otherId, member⟩

theorem readHistory_forever {sm : KvStateMachine} (forever : Forever base sm) (clock : Nat) :
    readHistory codec base clock sm =
      (stored codec base sm, (sm.data (historyPath base)).map KvEntry.version) := by
  unfold readHistory stored StateMachine.get
  cases found : sm.data (historyPath base) with
  | none => rfl
  | some held =>
      rw [Option.filter_some_pos (by simp [live, forever held found])]
      rfl

theorem readOnce_sound {world : World} (sound : WorldSound codec base world) {event : Event}
    {id : Option TimelineId} {left position clock : Nat} (begun : event ∈ world.begun)
    (within : position ≤ world.log.length) :
    CallSound codec base world.begun world.log (Append.readOnce ⟨event, id, left, .reading⟩
      (readHistory codec base clock (after (world.log.take position))) world.log.length) := by
  have array := sound.recorded.sound position
  rw [readHistory_forever (sound.recorded.forever position)]
  simp only [Append.readOnce]
  rw [show stored codec base (after (world.log.take position)) =
    storedAt codec base world.log position from rfl, fromEntries_fits array.capped]
  rcases push_cases ⟨storedAt codec base world.log position⟩ (event.entry id)
    array.capped with ⟨⟨known, member, same⟩, push⟩ | ⟨_, push⟩
  · rw [push]
    exact ⟨begun, listed_of_sameEvent sound within begun member same⟩
  · rw [push]
    exact ⟨begun, position, within, rfl, push⟩

theorem answered_sound {begun : List Event} {log : List LogEntry} {event : Event}
    {id : Option TimelineId} {left : Nat} {entries : List HistoryEntry} {expected : Option Nat}
    {reply : Response}
    (sound : CallSound codec base begun log
      ⟨event, id, left, .writing entries expected (some reply)⟩) :
    CallSound codec base begun log (Append.answered
      ⟨event, id, left, .writing entries expected (some reply)⟩ reply log.length) := by
  cases reply with
  | ok version => exact ⟨sound.begun, sound.phase⟩
  | notChanged =>
      simp only [Append.answered]
      split
      · exact ⟨sound.begun, trivial⟩
      · exact ⟨sound.begun, trivial⟩

theorem worldSound_giveUp {world : World} (sound : WorldSound codec base world) {call : Nat}
    {append : Append} (found : world.appends call = some append) (why : Str) :
    WorldSound codec base (world.giveUp call append why) := by
  have kept := sound.calls call append found
  have set := worldSound_setAppend sound call
    (show CallSound codec base _ _ (append.failed why world.log.length)
      from ⟨kept.begun, trivial⟩)
  obtain ⟨event, id, left, phase⟩ := append
  simp only [World.giveUp]
  split
  · refine ⟨set.recorded, set.apart, set.calls, ?_⟩
    intro other member
    rcases List.mem_cons.mp member with same | older
    · rw [same]
      exact kept
    · exact sound.late other older
  · exact set
  · exact set
  · exact set

/-- A new call, for an event that its key tells from the others. -/
theorem worldSound_begun {world : World} (sound : WorldSound codec base world) {event : Event}
    (tells : ∀ other ∈ world.begun, other.key = event.key → other = event) :
    WorldSound codec base { world with begun := event :: world.begun } := by
  have grown : ∀ other ∈ world.begun, other ∈ event :: world.begun :=
    fun other member => List.mem_cons_of_mem _ member
  refine ⟨recorded_begun sound.recorded grown, ?_,
    fun call append found => callSound_begun (sound.calls call append found) grown,
    fun append member => callSound_begun (sound.late append member) grown⟩
  intro first firstBegun second secondBegun same
  rcases List.mem_cons.mp firstBegun with rfl | firstOld
  · rcases List.mem_cons.mp secondBegun with rfl | secondOld
    · rfl
    · exact (tells second secondOld same.symm).symm
  · rcases List.mem_cons.mp secondBegun with rfl | secondOld
    · exact tells first firstOld same
    · exact sound.apart first firstOld second secondOld same

/-- A write that was applied while its call waits: if it was answered Ok, its event is
in the array now. -/
theorem worldSound_commit {world : World} (sound : WorldSound codec base world) {call : Nat}
    {event : Event} {id : Option TimelineId} {left : Nat} {entries : List HistoryEntry}
    {expected : Option Nat} {index : Nat} (stamp clock : Nat)
    (found : world.appends call = some ⟨event, id, left, .writing entries expected none⟩)
    (above : (after world.log).lastAppliedLog < index) :
    let entry := historyEntry codec base entries expected index stamp clock
    WorldSound codec base ({ world with log := world.log ++ [entry] }.setAppend call
      ⟨event, id, left,
        .writing entries expected (some (applyEntry (after world.log) entry).2)⟩) := by
  have kept := sound.calls call _ found
  obtain ⟨recorded, listed⟩ :=
    recorded_write sound.recorded kept.begun kept.phase above stamp clock
  refine worldSound_setAppend (worldSound_log sound recorded) call ⟨kept.begun, ?_⟩
  cases reply : (applyEntry (after world.log)
      (historyEntry codec base entries expected index stamp clock)).2 with
  | ok version => exact listed_now (listed (by rw [reply]; rfl))
  | notChanged => trivial

theorem worldSound_commitLate {world : World} (sound : WorldSound codec base world) {place : Nat}
    {event : Event} {id : Option TimelineId} {left : Nat} {entries : List HistoryEntry}
    {expected : Option Nat} {index : Nat} (stamp clock : Nat)
    (found : world.late[place]? = some ⟨event, id, left, .writing entries expected none⟩)
    (above : (after world.log).lastAppliedLog < index) :
    WorldSound codec base
      { world with
        log := world.log ++ [historyEntry codec base entries expected index stamp clock]
        late := world.late.eraseIdx place } := by
  have kept := sound.late _ (List.mem_of_getElem? found)
  have logged := worldSound_log sound
    (recorded_write sound.recorded kept.begun kept.phase above stamp clock).1
  exact ⟨logged.recorded, logged.apart, logged.calls,
    fun append member => logged.late append (List.mem_of_mem_eraseIdx member)⟩

/-! One lemma for each kind of step. -/

section Steps

variable {world after : World} (sound : WorldSound codec base world)
include sound

theorem sound_begin {call : Nat} {event : Event} {id : Option TimelineId} {authoritative : Bool}
    (tells : ∀ other ∈ world.begun, other.key = event.key → other = event)
    (stepped : step codec base world (.begin call event id authoritative) = some after) :
    WorldSound codec base after := by
  simp only [step] at stepped
  split at stepped
  · rw [← Option.some.inj stepped]
    refine worldSound_setAppend (worldSound_begun sound tells) call ⟨List.mem_cons_self, ?_⟩
    split
    · trivial
    · trivial
  · cases stepped

theorem sound_read {call position clock : Nat}
    (stepped : step codec base world (.read call position clock) = some after) :
    WorldSound codec base after := by
  simp only [step] at stepped
  split at stepped
  · rename_i event id left found
    split at stepped
    · rename_i within
      rw [← Option.some.inj stepped]
      exact worldSound_setAppend sound call
        (readOnce_sound sound (sound.calls call _ found).begun within)
    · cases stepped
  · cases stepped

theorem sound_readFails {call : Nat} {error : Str}
    (stepped : step codec base world (.readFails call error) = some after) :
    WorldSound codec base after := by
  simp only [step] at stepped
  split at stepped
  · rename_i event id left found
    rw [← Option.some.inj stepped]
    exact worldSound_setAppend sound call ⟨(sound.calls call _ found).begun, trivial⟩
  · cases stepped

theorem sound_commit {call index stamp clock : Nat}
    (stepped : step codec base world (.commit call index stamp clock) = some after) :
    WorldSound codec base after := by
  simp only [step] at stepped
  split at stepped
  · rename_i event id left entries expected found
    split at stepped
    · rename_i above
      rw [← Option.some.inj stepped]
      exact worldSound_commit sound stamp clock found above
    · cases stepped
  · cases stepped

theorem sound_answer {call : Nat} (stepped : step codec base world (.answer call) = some after) :
    WorldSound codec base after := by
  simp only [step] at stepped
  split at stepped
  · rename_i event id left entries expected reply found
    rw [← Option.some.inj stepped]
    exact worldSound_setAppend sound call (answered_sound (sound.calls call _ found))
  · cases stepped

theorem sound_writeFails {call : Nat} {error : Str}
    (stepped : step codec base world (.writeFails call error) = some after) :
    WorldSound codec base after := by
  simp only [step] at stepped
  split at stepped
  · rename_i event id left entries expected reply found
    rw [← Option.some.inj stepped]
    exact worldSound_giveUp sound found _
  · cases stepped

theorem sound_timeOut {call budget : Nat}
    (stepped : step codec base world (.timeOut call budget) = some after) :
    WorldSound codec base after := by
  simp only [step] at stepped
  split at stepped
  · cases stepped
  · cases stepped
  · rename_i append _ found
    rw [← Option.some.inj stepped]
    exact worldSound_giveUp sound found _

theorem sound_commitLate {place index stamp clock : Nat}
    (stepped : step codec base world (.commitLate place index stamp clock) = some after) :
    WorldSound codec base after := by
  simp only [step] at stepped
  split at stepped
  · rename_i event id left entries expected found
    split at stepped
    · rename_i above
      rw [← Option.some.inj stepped]
      exact worldSound_commitLate sound stamp clock found above
    · cases stepped
  · cases stepped

theorem sound_other {entry : LogEntry}
    (stepped : step codec base world (.other entry) = some after) :
    WorldSound codec base after := by
  simp only [step] at stepped
  split at stepped
  · rename_i admitted
    rw [← Option.some.inj stepped]
    exact worldSound_log sound (recorded_other sound.recorded admitted.1 admitted.2)
  · cases stepped

/-- One step of any node, of the log or of a write that was given up. -/
theorem worldSound_step (act : Act) (tells : TellsApart world act)
    (stepped : step codec base world act = some after) : WorldSound codec base after := by
  cases act with
  | begin call event id authoritative => exact sound_begin sound tells stepped
  | read call position clock => exact sound_read sound stepped
  | readFails call error => exact sound_readFails sound stepped
  | commit call index stamp clock => exact sound_commit sound stepped
  | answer call => exact sound_answer sound stepped
  | writeFails call error => exact sound_writeFails sound stepped
  | timeOut call budget => exact sound_timeOut sound stepped
  | commitLate place index stamp clock => exact sound_commitLate sound stepped
  | other entry => exact sound_other sound stepped

end Steps

theorem worldSound_run {world : World} (path : Reaches (step codec base) TellsApart .start world) :
    WorldSound codec base world :=
  reaches_invariant (WorldSound codec base) worldSound_start
    (fun _ act _ sound tells stepped => worldSound_step sound act tells stepped) path

/-- Later arrays are earlier ones with entries added at the end and the oldest dropped. -/
theorem storedAt_later {begun : List Event} {log : List LogEntry}
    (recorded : Recorded codec base begun log) {earlier later : Nat} (order : earlier ≤ later) :
    ∃ added, storedAt codec base log later =
      (History.fromEntries (storedAt codec base log earlier ++ added)).entries := by
  induction later, order using Nat.le_induction with
  | base =>
      refine ⟨[], ?_⟩
      rw [List.append_nil, fromEntries_fits (recorded.sound earlier).capped]
  | succ later _ ih =>
      obtain ⟨added, same⟩ := ih
      rcases recorded.pushes later with kept | ⟨entry, push⟩
      · exact ⟨added, kept.trans same⟩
      · refine ⟨added ++ [entry], ?_⟩
        rw [(push_true (recorded.sound later).capped push).2, same, fromEntries_append,
          List.append_assoc]

/-- Appending to `/history` by any number of nodes, with reads of any applied position and
writes that may be applied after they were given up: no event is listed twice; along the
log the array changes only by a push, so an entry leaves only as the oldest of a full
array and the order of the others stays; and a call that reported Written has an entry of
its event in the array at a position up to the report. -/
theorem history_append_exactly_once (codec : Codec) (base : String) {world : World}
    (path : Reaches (step codec base) TellsApart .start world) :
    (∀ position, Distinct (storedAt codec base world.log position)) ∧
    (∀ position, Pushes (storedAt codec base world.log position)
      (storedAt codec base world.log (position + 1))) ∧
    (∀ earlier later, earlier ≤ later → ∃ added, storedAt codec base world.log later =
      (History.fromEntries (storedAt codec base world.log earlier ++ added)).entries) ∧
    (∀ call append report, world.appends call = some append →
      append.phase = .done .written report →
      ∃ position ≤ report, position ≤ world.log.length ∧
        ∃ id, append.event.entry id ∈ storedAt codec base world.log position) := by
  have sound := worldSound_run path
  refine ⟨?_, sound.recorded.pushes, ?_, ?_⟩
  · intro position
    exact (sound.recorded.sound position).distinct
  · intro earlier later order
    exact storedAt_later sound.recorded order
  · intro call append report found reported
    have kept := (sound.calls call append found).phase
    rw [reported] at kept
    exact kept

/-! ### Two nodes, and a write that is applied after it was given up -/

theorem countable_arrays : Countable (List HistoryEntry) := by
  have chars : Countable Char :=
    Function.Injective.countable (f := Char.toNat) fun _ _ same => Char.toNat_inj.mp same
  have texts : Countable Str := inferInstanceAs (Countable (List Char))
  have types : Countable HistoryEventType := by
    refine Function.Injective.countable (f := fun eventType => eventType.ctorIdx) ?_
    intro first second same
    cases first <;> cases second <;> first | rfl | exact absurd same (by decide)
  have entries : Countable HistoryEntry := by
    refine Function.Injective.countable (f := fun (entry : HistoryEntry) =>
      (entry.timestamp, entry.eventType, entry.oldLeader, entry.newLeader, entry.reason,
        entry.timeline, entry.lsn)) ?_
    rintro ⟨⟩ ⟨⟩ same
    simpa using same
  infer_instance

def failoverToA : Event :=
  ⟨"a".toList, ⟨1700000000, .failover, none, "manual failover requested".toList, some 4⟩⟩

def switchoverToB : Event :=
  ⟨"b".toList, ⟨1700000600, .switchover, some "a".toList, "switchover requested from a".toList,
    some 5⟩⟩

def firstArray : List HistoryEntry := [failoverToA.entry (some ⟨5, 1280⟩)]

def secondArray : List HistoryEntry := firstArray ++ [switchoverToB.entry (some ⟨6, 1536⟩)]

def firstText : String :=
  "[\x7b\"timestamp\":1700000000,\"event_type\":\"failover\",\"old_leader\":null," ++
  "\"new_leader\":\"a\",\"reason\":\"manual failover requested\"," ++
  "\"timeline\":5,\"lsn\":1280\x7d]"

def secondText : String :=
  "[\x7b\"timestamp\":1700000000,\"event_type\":\"failover\",\"old_leader\":null," ++
  "\"new_leader\":\"a\",\"reason\":\"manual failover requested\"," ++
  "\"timeline\":5,\"lsn\":1280\x7d," ++
  "\x7b\"timestamp\":1700000600,\"event_type\":\"switchover\",\"old_leader\":\"a\"," ++
  "\"new_leader\":\"b\",\"reason\":\"switchover requested from a\"," ++
  "\"timeline\":6,\"lsn\":1536\x7d]"

/-- A text for the arrays the run does not write: a row of marks. -/
noncomputable def otherText (entries : List HistoryEntry) : String :=
  String.ofList ('#' :: List.replicate (countable_arrays.exists_injective_nat.choose entries) '#')

theorem otherText_injective : Function.Injective otherText := by
  intro first second same
  apply countable_arrays.exists_injective_nat.choose_spec
  have lengths := congrArg (fun text => text.toList.length) same
  simpa [otherText] using lengths

/-- The first byte tells: a whole text is slow to decode. -/
theorem otherText_marked (entries : List HistoryEntry) :
    otherText entries ≠ firstText ∧ otherText entries ≠ secondText := by
  have marked : (otherText entries).toByteArray.data[0]? = some 35 := by
    rw [otherText, String.toByteArray_ofList, List.utf8Encode_cons, ByteArray.data_append,
      Array.getElem?_append_left (by simp [List.utf8Encode_singleton, String.utf8EncodeChar])]
    simp [List.utf8Encode_singleton, String.utf8EncodeChar]
  have bracket : firstText.toByteArray.data[0]? = some 91 ∧
      secondText.toByteArray.data[0]? = some 91 := by
    decide +kernel
  constructor
  · intro same
    rw [same, bracket.1] at marked
    exact absurd marked (by decide)
  · intro same
    rw [same, bracket.2] at marked
    exact absurd marked (by decide)

/-- The texts `serde_json` gives the two arrays of the run. -/
noncomputable def sampleCodec : Codec where
  toJson entries :=
    if entries = firstArray then firstText
    else if entries = secondArray then secondText else otherText entries
  fromJson text :=
    if text = firstText then some firstArray
    else if text = secondText then some secondArray else some (Function.invFun otherText text)
  fromJson_toJson := by
    intro entries
    have different : secondText ≠ firstText := by decide +kernel
    by_cases first : entries = firstArray
    · simp [first]
    · by_cases second : entries = secondArray
      · rw [if_neg first, if_pos second, if_neg different, if_pos rfl, second]
      · rw [if_neg first, if_neg second, if_neg (otherText_marked entries).1,
          if_neg (otherText_marked entries).2,
          Function.leftInverse_invFun otherText_injective entries]

/-- Both nodes find no array. `a` is first; `b` retries on what `a` wrote, is timed out and
tries again in the next cycle, while its first write is still applied. -/
def contendedRun : List Act :=
  [.begin 0 failoverToA (some ⟨5, 1280⟩) true, .begin 1 switchoverToB (some ⟨6, 1536⟩) true,
    .read 0 0 1700000001000, .read 1 0 1700000601000,
    .commit 0 7 1700000601100 0, .commit 1 8 1700000601200 0, .answer 0, .answer 1,
    .read 1 1 1700000601300, .timeOut 1 5,
    .begin 2 switchoverToB (some ⟨6, 1536⟩) true, .read 2 1 1700000611000,
    .commitLate 0 9 1700000611100 0, .commit 2 10 1700000611200 0, .answer 2,
    .read 2 4 1700000611300]

/-- `b` reported Written in its second call, after the late write. -/
def reportsWritten (world : World) : Bool :=
  (world.appends 2).any (fun append => decide (append.phase = .done .written 4 ∧
    append.event = switchoverToB)) && world.log.length == 4

theorem history_append_exactly_once_contended :
    ∃ world, Reaches (step sampleCodec "/service/c/") TellsApart .start world ∧
      reportsWritten world = true ∧
      ∃ position ≤ 4, position ≤ world.log.length ∧
        ∃ id, switchoverToB.entry id ∈
          storedAt sampleCodec "/service/c/" world.log position := by
  have played : (play (step sampleCodec "/service/c/") TellsApart .start contendedRun).map
      reportsWritten = some true := by decide +kernel
  obtain ⟨world, path, reported⟩ := play_exhibits played
  refine ⟨world, path, reported, ?_⟩
  obtain ⟨_, _, _, written⟩ := history_append_exactly_once sampleCodec "/service/c/" path
  simp only [reportsWritten, Bool.and_eq_true, Option.any_eq_true, decide_eq_true_eq] at reported
  obtain ⟨⟨append, found, phase, event⟩, _⟩ := reported
  rw [← event]
  exact written 2 append 4 found phase

end PgHa.HistoryLog
