import PgHa.LatestTimeline
import PgHa.TextLines

/-!
Timeline evidence in a data directory (timeline_files.rs), and what it takes for a node
that was judged eligible from it to promote. The names in `pg_wal` that are no UTF-8 are
left out: every reader skips them.
-/

namespace PgHa.TimelineFiles

open Text TextLines Cluster LatestTimeline

/-! ### Files -/

inductive FileRead where
  | missing
  | failed (error : Str)
  | text (content : Str)

/-- `pg_wal` is the listing of the directory, with what reading each file gives. -/
structure DataDir where
  path : Str
  pgWal : Except Str (List (Str × Except Str Str))
  generationFile : FileRead
  postmasterPid : FileRead

/-- `Path::join` with a relative name. -/
def joinPath (base name : Str) : Str :=
  if base.isEmpty || base.getLast? == some '/' then base ++ name else base ++ '/' :: name

def DataDir.walPath (dir : DataDir) : Str := joinPath dir.path "pg_wal".toList

def DataDir.readWal (dir : DataDir) (name : Str) : FileRead :=
  match dir.pgWal with
  | .error error => .failed error
  | .ok entries =>
      match entries.find? fun entry => entry.1 == name with
      | none => .missing
      | some (_, .error error) => .failed error
      | some (_, .ok content) => .text content

/-! ### History files -/

structure HistoryLine where
  parent : Nat
  switchpoint : Nat
  deriving DecidableEq

def parseLsn (lsn : Str) : Option Nat :=
  match lsn.splitOn '/' with
  | [high, low] => do
      let hi ← fromStrRadix 16 high
      let lo ← fromStrRadix 16 low
      pure ((hi * 2 ^ 32 % 2 ^ 64) ||| lo)
  | _ => none

def lineError (n : Nat) (problem : Str) : Str :=
  "line ".toList ++ decimal n ++ ": ".toList ++ problem

/-- One line that is neither blank nor a comment, after the line `prev`. -/
def parseHistoryLine (n : Nat) (line : Str) (prev : Option HistoryLine) : Except Str HistoryLine :=
  match splitWhitespace line with
  | tli :: lsn :: _ =>
      match fromStrRadix 10 tli with
      | none => .error (lineError n ("bad timeline '".toList ++ tli ++ ['\'']))
      | some parent =>
          match parseLsn lsn with
          | none => .error (lineError n ("bad LSN '".toList ++ lsn ++ ['\'']))
          | some switchpoint =>
              if prev.any fun prev => parent ≤ prev.parent || switchpoint < prev.switchpoint then
                .error (lineError n "timelines out of order".toList)
              else .ok ⟨parent, switchpoint⟩
  | _ => .error (lineError n "expected '<timeline> <lsn>'".toList)

/-- The loop of `parse_history` from line `n` on. -/
def parseHistoryFrom (n : Nat) (parsed : List HistoryLine) : List Str →
    Except Str (List HistoryLine)
  | [] => .ok parsed
  | raw :: rest =>
      let line := trim raw
      if line.isEmpty || line.head? == some '#' then parseHistoryFrom (n + 1) parsed rest
      else do
        let next ← parseHistoryLine n line parsed.getLast?
        parseHistoryFrom (n + 1) (parsed ++ [next]) rest

def parseHistory (content : Str) : Except Str (List HistoryLine) :=
  parseHistoryFrom 1 [] (lines content)

def historyFileName (timeline : Nat) : Str := paddedHex 8 timeline ++ ".history".toList

def historyFileTimeline (name : Str) : Option Nat :=
  if ".history".toList.isSuffixOf name then
    let hex := name.take (name.length - ".history".toList.length)
    if hex.length = 8 ∧ hex.all isAsciiHexdigit then fromStrRadix 16 hex else none
  else none

def segmentTimeline (name : Str) : Option Nat :=
  if name.length = 24 ∧ name.all isAsciiHexdigit then fromStrRadix 16 (name.take 8) else none

def timelineBegin (dir : DataDir) (timeline : Nat) : Except Str (Option Nat) :=
  if timeline ≤ 1 then .ok (some 0)
  else
    let path := joinPath dir.walPath (historyFileName timeline)
    let fails (problem : Str) : Except Str (Option Nat) := .error (path ++ ": ".toList ++ problem)
    match dir.readWal (historyFileName timeline) with
    | .missing => .ok none
    | .failed error => fails error
    | .text content =>
        match parseHistory content with
        | .error problem => fails problem
        | .ok parsed =>
            match parsed.getLast? with
            | some last =>
                if last.parent < timeline then .ok (some last.switchpoint)
                else fails ("parent timeline not below ".toList ++ decimal timeline)
            | none => fails "no entries".toList

/-- The highest timeline of a listing's history files, at least 1. -/
def newestTimeline (names : List Str) : Nat := (names.filterMap historyFileTimeline).foldl max 1

/-- The timelines of the segments; a name is tried as a history file first. -/
def segmentTimelines (names : List Str) : List Nat :=
  (names.filter fun name => (historyFileTimeline name).isNone).filterMap segmentTimeline

def newestHistory (dir : DataDir) : Except Str HistoryEvidence :=
  match dir.pgWal with
  | .error error => .error (dir.walPath ++ ": ".toList ++ error)
  | .ok entries => do
      let names := entries.map Prod.fst
      let newest := newestTimeline names
      match ← timelineBegin dir newest with
      | none => .error ("history file of timeline ".toList ++ decimal newest ++ " vanished".toList)
      | some begin => pure ⟨newest, begin, (segmentTimelines names).contains newest⟩

/-! ### The other two files -/

def readGeneration (dir : DataDir) : Except Str Nat :=
  let path := joinPath dir.path "pg-ha.generation".toList
  match dir.generationFile with
  | .missing => .ok 0
  | .failed error => .error (path ++ ": ".toList ++ error)
  | .text content =>
      match fromStrRadix 10 (trim content) with
      | some generation => .ok generation
      | none => .error (path ++ ": not a number".toList)

def serverRun (dir : DataDir) : Except Str (Option Str) :=
  let path := joinPath dir.path "postmaster.pid".toList
  match dir.postmasterPid with
  | .missing => .ok none
  | .failed error => .error (path ++ ": ".toList ++ error)
  | .text content =>
      let pid := trim ((lines content)[0]?.getD [])
      let start := trim ((lines content)[2]?.getD [])
      if (fromStrRadix 10 pid).isNone || (fromStrRadix 10 start).isNone then
        .error (path ++ ": unexpected content".toList)
      else .ok (some ("pid=".toList ++ pid ++ " start=".toList ++ start))

/-- `local_lineage`; a failed read publishes nothing. -/
def localLineage (dir : DataDir) (timeline : Option Nat) : Option Lineage :=
  let read : Except Str Lineage := do
    let history ← newestHistory dir
    let timelineBegin ← match timeline with
      | some t => timelineBegin dir t
      | none => pure none
    let postmasterStart ← serverRun dir
    let generation ← readGeneration dir
    pure ⟨timelineBegin, some history, postmasterStart, generation⟩
  read.toOption

/-! ### The timeline of a promote -/

/-- A `TimeLineID` has 32 bits. -/
def hasHistoryFile (dir : DataDir) (timeline : Nat) : Bool :=
  timeline < 2 ^ 32 &&
    match dir.pgWal with
    | .error _ => false
    | .ok entries => (entries.map Prod.fst).contains (historyFileName timeline)

/-- `findNewestTimeLine` of PostgreSQL: from `start` upwards as long as there is a history
file, in at most `steps` steps. A promote takes the number after it. -/
def findNewestTimeline (dir : DataDir) (start : Nat) : Nat → Nat
  | 0 => start
  | steps + 1 =>
      if hasHistoryFile dir (start + 1) then findNewestTimeline dir (start + 1) steps else start

/-! ### Names and listings -/

theorem historyFileTimeline_name {timeline : Nat} (fits : timeline < 2 ^ 32) :
    historyFileTimeline (historyFileName timeline) = some timeline := by
  have length := paddedHex_length (show 0 < 8 by decide) (show timeline < 16 ^ 8 from fits)
  have digits := readDigits_hex (readDigits_paddedHex 8 timeline)
  have isFile : ".history".toList.isSuffixOf (historyFileName timeline) = true := by
    rw [List.isSuffixOf_iff_suffix]
    exact ⟨paddedHex 8 timeline, rfl⟩
  have front : (historyFileName timeline).take
      ((historyFileName timeline).length - ".history".toList.length) = paddedHex 8 timeline := by
    rw [historyFileName, List.length_append, Nat.add_sub_cancel, List.take_left]
  rw [historyFileTimeline, if_pos isFile]
  simp only [front, length, List.all_eq_true, true_and]
  rw [if_pos digits]
  exact fromStrRadix_paddedHex (by decide) fits (by omega)

theorem foldl_max_ge (known : List Nat) (start : Nat) :
    start ≤ known.foldl max start ∧ ∀ value ∈ known, value ≤ known.foldl max start := by
  rw [List.foldl_max]
  constructor
  · exact Nat.le_max_left _ _
  · intro value mem
    cases greatest : known.max? with
    | none =>
        rw [List.max?_eq_none_iff] at greatest
        rw [greatest] at mem
        cases mem
    | some top =>
        have below := (List.max?_eq_some_iff.mp greatest).2 value mem
        exact below.trans (Nat.le_max_right _ _)

theorem one_le_newestTimeline (names : List Str) : 1 ≤ newestTimeline names :=
  (foldl_max_ge _ 1).1

theorem le_newestTimeline {names : List Str} {name : Str} {timeline : Nat} (mem : name ∈ names)
    (named : historyFileTimeline name = some timeline) : timeline ≤ newestTimeline names :=
  (foldl_max_ge _ 1).2 timeline (List.mem_filterMap.mpr ⟨name, mem, named⟩)

theorem readWal_listed {dir : DataDir} {entries : List (Str × Except Str Str)} {name content : Str}
    (listing : dir.pgWal = .ok entries) (read : dir.readWal name = .text content) :
    name ∈ entries.map Prod.fst := by
  rw [DataDir.readWal, listing] at read
  dsimp only at read
  split at read
  · cases read
  · cases read
  · rename_i entry _ found
    have named := List.find?_some found
    rw [beq_iff_eq] at named
    exact List.mem_map.mpr ⟨_, List.mem_of_find?_eq_some found, named⟩

/-! ### The evidence -/

/-- A program that ends well ran each of its steps to a value. -/
theorem except_bind {Error First Second : Type} {first : Except Error First}
    {next : First → Except Error Second} {result : Second} (ran : first >>= next = .ok result) :
    ∃ value, first = .ok value ∧ next value = .ok result := by
  cases first with
  | error error => cases ran
  | ok value => exact ⟨value, rfl, ran⟩

theorem toOption_some {Error Value : Type} {read : Except Error Value} {value : Value}
    (found : read.toOption = some value) : read = .ok value := by
  cases read with
  | error error => cases found
  | ok known =>
      cases found
      rfl

/-- What `newest_history` returns was read from the history file of its timeline. -/
theorem newestHistory_ok {dir : DataDir} {newest : HistoryEvidence}
    (read : newestHistory dir = .ok newest) :
    ∃ entries, dir.pgWal = .ok entries ∧
      newest.timeline = newestTimeline (entries.map Prod.fst) ∧
      timelineBegin dir newest.timeline = .ok (some newest.begin) := by
  unfold newestHistory at read
  cases listing : dir.pgWal with
  | error error => simp [listing] at read
  | ok entries =>
      rw [listing] at read
      dsimp only at read
      obtain ⟨known, began, rest⟩ := except_bind read
      cases known with
      | none => cases rest
      | some begin =>
          cases rest
          exact ⟨entries, rfl, rfl, began⟩

/-- A timeline above 1 whose begin is known has its history file in the listing. -/
theorem timelineBegin_listed {dir : DataDir} {entries : List (Str × Except Str Str)}
    {timeline begin : Nat}
    (listing : dir.pgWal = .ok entries) (above : 1 < timeline)
    (began : timelineBegin dir timeline = .ok (some begin)) :
    historyFileName timeline ∈ entries.map Prod.fst := by
  unfold timelineBegin at began
  rw [if_neg (by omega)] at began
  cases read : dir.readWal (historyFileName timeline) with
  | missing => simp [read] at began
  | failed error => simp [read] at began
  | text content => exact readWal_listed listing read

/-- The newest history of a directory is not below a timeline whose begin is known there. -/
theorem known_le_newest {dir : DataDir} {newest : HistoryEvidence} {timeline begin : Nat}
    (read : newestHistory dir = .ok newest) (fits : timeline < 2 ^ 32)
    (began : timelineBegin dir timeline = .ok (some begin)) : timeline ≤ newest.timeline := by
  obtain ⟨entries, listing, isNewest, _⟩ := newestHistory_ok read
  rw [isNewest]
  by_cases above : 1 < timeline
  · exact le_newestTimeline (timelineBegin_listed listing above began)
      (historyFileTimeline_name fits)
  · exact (Nat.le_of_not_lt above).trans (one_le_newestTimeline _)

/-- What `local_lineage` publishes is what the readers return. -/
theorem localLineage_some {dir : DataDir} {timeline : Option Nat} {lineage : Lineage}
    (evidence : localLineage dir timeline = some lineage) :
    ∃ newest, newestHistory dir = .ok newest ∧ lineage.history = some newest ∧
      ∀ begin ∈ lineage.timelineBegin, ∃ known ∈ timeline,
        timelineBegin dir known = .ok (some begin) := by
  obtain ⟨newest, history, rest⟩ := except_bind (toOption_some evidence)
  refine ⟨newest, history, ?_⟩
  cases timeline with
  | none =>
      dsimp only at rest
      obtain ⟨begin, absent, rest⟩ := except_bind rest
      obtain ⟨start, _, rest⟩ := except_bind rest
      obtain ⟨generation, _, rest⟩ := except_bind rest
      cases absent
      cases rest
      exact ⟨rfl, fun begin mem => by cases mem⟩
  | some known =>
      dsimp only at rest
      obtain ⟨begin, began, rest⟩ := except_bind rest
      obtain ⟨start, _, rest⟩ := except_bind rest
      obtain ⟨generation, _, rest⟩ := except_bind rest
      cases rest
      exact ⟨rfl, fun found mem => ⟨known, rfl, began.trans (congrArg Except.ok mem)⟩⟩

/-! ### Eligible nodes -/

/-- The latest timeline is the member's own published one, or the newest history that it
holds WAL of. -/
theorem onLatest_ok {member : Member} {lineage : Lineage} {newest : HistoryEvidence}
    {id : TimelineId}
    (known : lineage.history = some newest) (on : onLatest member lineage id = .ok ()) :
    member.timeline = some id.timeline ∧ lineage.timelineBegin = some id.begin ∨
      newest.id = id := by
  by_cases holds : newest.timeline = id.timeline ∧ newest.wal = true
  · by_cases sameBegin : newest.begin = id.begin
    · exact .inr (by rw [HistoryEvidence.id, holds.1, sameBegin])
    · simp only [onLatest, known, holds, and_self, if_true, ne_eq, sameBegin, not_false_eq_true]
        at on
      split at on
      · split at on
        · split at on
          · cases on
          · cases on
        · cases on
      · cases on
  · simp only [onLatest, known, holds, if_false] at on
    by_cases own : member.timeline = some id.timeline
    · cases began : lineage.timelineBegin with
      | none => simp [own, began, bind, Except.bind] at on
      | some begin =>
          by_cases sameBegin : begin = id.begin
          · exact .inl ⟨own, by rw [sameBegin]⟩
          · simp [own, began, sameBegin, bind, Except.bind] at on
    · simp [own, bind, Except.bind] at on

theorem eligibility_ok {member : Member} {id : TimelineId} {generation : Nat} {via : LatestVia}
    {lineage : Lineage} {newest : HistoryEvidence} (carried : member.lineage = some lineage)
    (known : lineage.history = some newest)
    (eligible : eligibility member (.known id generation via) = .ok ()) :
    newest.timeline ≤ id.timeline ∧
      (member.timeline = some id.timeline ∧ lineage.timelineBegin = some id.begin ∨
        newest.id = id) := by
  simp only [eligibility, carried, known] at eligible
  split at eligible
  · cases eligible
  · split at eligible
    · cases eligible
    · rename_i notAbove
      exact ⟨Nat.le_of_not_lt notAbove, onLatest_ok known eligible⟩

/-! ### The promote -/

theorem hasHistoryFile_le {dir : DataDir} {newest : HistoryEvidence} {timeline : Nat}
    (read : newestHistory dir = .ok newest) (file : hasHistoryFile dir timeline = true) :
    timeline ≤ newest.timeline := by
  obtain ⟨entries, listing, isNewest, _⟩ := newestHistory_ok read
  rw [hasHistoryFile, listing, Bool.and_eq_true, decide_eq_true_eq, List.contains_iff_mem] at file
  rw [isNewest]
  exact le_newestTimeline file.2 (historyFileTimeline_name file.1)

/-- The search goes through the files up to the newest and finds none after it. -/
theorem findNewestTimeline_newest {dir : DataDir} {newest : HistoryEvidence}
    (read : newestHistory dir = .ok newest) (steps start : Nat) (low : start ≤ newest.timeline)
    (far : newest.timeline ≤ start + steps)
    (files : ∀ timeline, start < timeline → timeline ≤ newest.timeline →
      hasHistoryFile dir timeline = true) :
    findNewestTimeline dir start steps = newest.timeline := by
  induction steps generalizing start with
  | zero => exact Nat.le_antisymm low far
  | succ steps ih =>
      rw [findNewestTimeline]
      by_cases more : start < newest.timeline
      · rw [if_pos (files (start + 1) (Nat.lt_succ_self start) more)]
        exact ih (start + 1) more (by omega) fun timeline above => files timeline (by omega)
      · rw [if_neg]
        · omega
        · intro file
          have bounded := hasHistoryFile_le read file
          omega

/-- The newest history of the directory is the latest timeline, a promote is planned on it
and takes the number after it. -/
structure CanPromote (dir : DataDir) (id : TimelineId) (generation : Nat) (via : LatestVia)
    (newest : HistoryEvidence) : Prop where
  base : newest.id = id
  planned : ∀ me recordGeneration start,
    planPromote me (.known id generation via) recordGeneration newest false start =
      .ok ⟨me, id.timeline, id.begin, generation, start⟩
  next : ∀ start steps, start ≤ id.timeline → id.timeline ≤ start + steps →
    (∀ timeline, start < timeline → timeline ≤ id.timeline →
      hasHistoryFile dir timeline = true) →
    findNewestTimeline dir start steps + 1 = id.timeline + 1

theorem newest_of_eligible {dir : DataDir} {timeline : Option Nat} {lineage : Lineage}
    {member : Member}
    {id : TimelineId} {generation : Nat} {via : LatestVia}
    (below : ∀ known ∈ timeline, known < 2 ^ 32)
    (evidence : localLineage dir timeline = some lineage) (published : member.timeline = timeline)
    (carried : member.lineage = some lineage)
    (eligible : eligibility member (.known id generation via) = .ok ()) :
    ∃ newest, newestHistory dir = .ok newest ∧ newest.id = id := by
  obtain ⟨newest, read, known, begins⟩ := localLineage_some evidence
  refine ⟨newest, read, ?_⟩
  obtain ⟨notAbove, ⟨own, began⟩ | same⟩ := eligibility_ok carried known eligible
  · obtain ⟨timelineOf, isOwn, began⟩ := begins _ began
    have ownTimeline : timelineOf = id.timeline := by
      rw [← published, own] at isOwn
      exact (Option.some.inj isOwn).symm
    subst ownTimeline
    -- The begin was read from a history file, so the newest is not below it.
    have notBelow := known_le_newest read (below _ isOwn) began
    have level : newest.timeline = id.timeline := Nat.le_antisymm notAbove notBelow
    obtain ⟨_, _, _, newestBegan⟩ := newestHistory_ok read
    rw [level, began] at newestBegan
    have begin : id.begin = newest.begin := by simpa using newestBegan
    rw [HistoryEvidence.id, level, ← begin]
  · exact same

theorem canPromote_of_newest {dir : DataDir} {newest : HistoryEvidence} {id : TimelineId}
    (read : newestHistory dir = .ok newest) (same : newest.id = id) (generation : Nat)
    (via : LatestVia) :
    CanPromote dir id generation via newest := by
  constructor
  · exact same
  · intro me recordGeneration start
    simp [planPromote, same]
  · intro start steps low far files
    subst id
    rw [findNewestTimeline_newest read steps start low far files]
    rfl

/-- A node that is judged eligible from what it publishes can promote, and one whose newest
history is another than the latest timeline is not judged so. -/
theorem eligible_canPromote (dir : DataDir) (timeline : Option Nat)
    (below : ∀ known ∈ timeline, known < 2 ^ 32)
    (lineage : Lineage) (evidence : localLineage dir timeline = some lineage) (member : Member)
    (published : member.timeline = timeline) (carried : member.lineage = some lineage)
    (id : TimelineId)
    (generation : Nat) (via : LatestVia) :
    (eligibility member (.known id generation via) = .ok () →
      ∃ newest, newestHistory dir = .ok newest ∧ CanPromote dir id generation via newest) ∧
    ∀ newest, newestHistory dir = .ok newest → newest.id ≠ id →
      eligibility member (.known id generation via) ≠ .ok () := by
  constructor
  · intro eligible
    obtain ⟨newest, read, same⟩ := newest_of_eligible below evidence published carried eligible
    exact ⟨newest, read, canPromote_of_newest read same generation via⟩
  · intro newest read other eligible
    obtain ⟨found, again, same⟩ := newest_of_eligible below evidence published carried eligible
    rw [read, Except.ok.injEq] at again
    exact other (again ▸ same)

/-- A stopped server on timeline 2 that holds WAL on it. -/
def secondTimelineDir : DataDir where
  path := "/data".toList
  pgWal := .ok [("00000002.history".toList, .ok "1\t0/3000\tno recovery target\n".toList),
    ("000000020000000000000003".toList, .ok [])]
  generationFile := .missing
  postmasterPid := .missing

def secondTimelineLineage : Lineage := ⟨some 12288, some ⟨2, 12288, true⟩, none, 0⟩

def secondTimelineMember : Member :=
  ⟨"a".toList, .stopped, .replica, some 12290, some 2, ⟨none, none, none, none⟩, false,
    some secondTimelineLineage, false⟩

theorem eligible_canPromote_second :
    localLineage secondTimelineDir (some 2) = some secondTimelineLineage ∧
      eligibility secondTimelineMember (.known ⟨2, 12288⟩ 0 .record) = .ok () ∧
      ∃ newest, newestHistory secondTimelineDir = .ok newest ∧
        CanPromote secondTimelineDir ⟨2, 12288⟩ 0 .record newest := by
  have evidence : localLineage secondTimelineDir (some 2) = some secondTimelineLineage := by rfl
  have eligible : eligibility secondTimelineMember (.known ⟨2, 12288⟩ 0 .record) = .ok () := by
    rfl
  exact ⟨evidence, eligible, (eligible_canPromote secondTimelineDir (some 2) (by decide)
    secondTimelineLineage evidence secondTimelineMember rfl rfl ⟨2, 12288⟩ 0 .record).1
      eligible⟩

end PgHa.TimelineFiles
