import Mathlib.Data.Set.Insert
import Mathlib.Order.Bounds.Basic
import PgHa.ConfFile
import PgHa.LsnText

/-!
Timeline history files (timeline_files.rs): what `parse_history` accepts, that it reads
back the text PostgreSQL writes, and what `newest_history` makes of a `pg_wal` directory.
-/

namespace PgHa.HistoryFiles

open Text TextLines LatestTimeline TimelineFiles LsnText
open Cluster (HistoryEvidence)
open ConfFile (joinLines lines_join)

/-! ### What is accepted -/

/-- Neither blank nor a comment. -/
def isRecord : List Str → Bool
  | [] => false
  | first :: _ => first.head? != some '#'

def recordWords (raws : List Str) : List (List Str) := (raws.map splitWhitespace).filter isRecord

/-- A line is an entry; what follows the two fields is not looked at. -/
def Reads (words : List Str) (entry : HistoryLine) : Prop :=
  ∃ tli lsn more, words = tli :: lsn :: more ∧ fromStrRadix 10 tli = some entry.parent ∧
    parseLsn lsn = some entry.switchpoint

def Follows (before next : HistoryLine) : Prop :=
  before.parent < next.parent ∧ before.switchpoint ≤ next.switchpoint

theorem parseHistoryLine_ok {n : Nat} {line : Str} {before : Option HistoryLine}
    {entry : HistoryLine} :
    parseHistoryLine n line before = .ok entry ↔
      Reads (splitWhitespace line) entry ∧ ∀ prev ∈ before, Follows prev entry := by
  constructor
  · intro accepted
    unfold parseHistoryLine at accepted
    split at accepted
    · rename_i tli lsn more words
      split at accepted
      · cases accepted
      · rename_i parent isParent
        split at accepted
        · cases accepted
        · rename_i switchpoint isSwitchpoint
          split at accepted
          · cases accepted
          · rename_i inOrder
            cases accepted
            refine ⟨⟨tli, lsn, more, words, isParent, isSwitchpoint⟩, ?_⟩
            rintro prev ⟨⟩
            simp only [Option.any_some, Bool.or_eq_true, decide_eq_true_eq, not_or, Nat.not_le,
              Nat.not_lt] at inOrder
            exact inOrder
    · cases accepted
  · rintro ⟨⟨tli, lsn, more, words, isParent, isSwitchpoint⟩, inOrder⟩
    have accepted : (before.any fun prev =>
        decide (entry.parent ≤ prev.parent) || decide (entry.switchpoint < prev.switchpoint)) =
          false := by
      rw [Option.any_eq_false]
      intro prev mem
      have follows := inOrder prev mem
      simp [Nat.not_le.mpr follows.1, Nat.not_lt.mpr follows.2]
    simp only [parseHistoryLine, words, isParent, isSwitchpoint, accepted]
    rfl

theorem recordWords_cons (raw : Str) (rest : List Str) :
    recordWords (raw :: rest) = recordWords rest ∧
        ((trim raw).isEmpty || (trim raw).head? == some '#') = true ∨
      recordWords (raw :: rest) = splitWhitespace raw :: recordWords rest ∧
        ((trim raw).isEmpty || (trim raw).head? == some '#') = false := by
  rw [recordWords, List.map_cons]
  rcases trim_words raw with ⟨blank, words⟩ | ⟨c, front, word, more, shown, words⟩
  · left
    rw [words, List.filter_cons_of_neg (by simp [isRecord]), blank]
    exact ⟨rfl, rfl⟩
  · by_cases comment : c = '#'
    · left
      rw [words, List.filter_cons_of_neg (by simp [isRecord, comment]), shown, comment]
      exact ⟨rfl, rfl⟩
    · right
      rw [words, List.filter_cons_of_pos (by simp [isRecord, comment]), shown]
      exact ⟨rfl, by simp [comment]⟩

/-- By induction on the lines, with what was parsed before them. -/
theorem parseHistoryFrom_ok {n : Nat} {parsed result : List HistoryLine} {raws : List Str} :
    parseHistoryFrom n parsed raws = .ok result ↔
      ∃ entries, result = parsed ++ entries ∧
        List.Forall₂ Reads (recordWords raws) entries ∧
        (parsed.getLast?.toList ++ entries).IsChain Follows := by
  induction raws generalizing n parsed result with
  | nil =>
      constructor
      · intro accepted
        cases accepted
        refine ⟨[], (List.append_nil _).symm, .nil, ?_⟩
        cases parsed.getLast? with
        | none => exact .nil
        | some last => exact .singleton last
      · rintro ⟨entries, rfl, ⟨⟩, _⟩
        rw [parseHistoryFrom, List.append_nil]
  | cons raw rest ih =>
      rcases recordWords_cons raw rest with ⟨same, skipped⟩ | ⟨added, kept⟩
      · rw [parseHistoryFrom, if_pos skipped, same]
        exact ih
      · rw [parseHistoryFrom, if_neg (by simp [kept]), added]
        have chained : ∀ entry entries,
            (parsed.getLast?.toList ++ entry :: entries).IsChain Follows ↔
              (∀ prev ∈ parsed.getLast?, Follows prev entry) ∧
                (entry :: entries).IsChain Follows := by
          intro entry entries
          cases parsed.getLast? with
          | none => simp
          | some last => simp
        have last : ∀ entry : HistoryLine, (parsed ++ [entry]).getLast?.toList = [entry] := by
          intro entry
          rw [List.getLast?_concat]
          rfl
        constructor
        · intro accepted
          obtain ⟨entry, line, accepted⟩ := except_bind accepted
          obtain ⟨reads, follows⟩ := parseHistoryLine_ok.mp line
          obtain ⟨entries, rfl, others, chain⟩ := ih.mp accepted
          rw [splitWhitespace_trim] at reads
          rw [last] at chain
          exact ⟨entry :: entries,
            by simp, .cons reads others, (chained entry entries).mpr ⟨follows, chain⟩⟩
        · rintro ⟨entries, rfl, matched, chain⟩
          cases matched with
          | cons reads others =>
              rename_i entry entries
              obtain ⟨follows, chain⟩ := (chained entry entries).mp chain
              have line : parseHistoryLine n (trim raw) parsed.getLast? = .ok entry := by
                rw [parseHistoryLine_ok, splitWhitespace_trim]
                exact ⟨reads, follows⟩
              simp only [line, bind, Except.bind]
              rw [ih, last]
              exact ⟨entries, by simp, others, chain⟩

instance : IsTrans HistoryLine Follows :=
  ⟨fun _ _ _ first second => ⟨first.1.trans second.1, first.2.trans second.2⟩⟩

/-- The accepted texts are those whose lines are entries in order. -/
theorem parseHistory_ok {content : Str} {parsed : List HistoryLine} :
    parseHistory content = .ok parsed ↔
      List.Forall₂ Reads (recordWords (lines content)) parsed ∧ parsed.Pairwise Follows := by
  rw [parseHistory, parseHistoryFrom_ok, ← List.isChain_iff_pairwise]
  simp

/-! ### What PostgreSQL writes -/

/-- The format `%X/%X`; later versions fill the lower half to a width. -/
def writtenLsn (width lsn : Nat) : Str :=
  paddedHex 0 (lsn / 2 ^ 32) ++ '/' :: paddedHex width (lsn % 2 ^ 32)

inductive Line where
  | record (entry : HistoryLine) (reason : Str)
  | blank (spaces : Str)
  | comment (indent text : Str)

def Line.text (width : Nat) : Line → Str
  | .record entry reason =>
      decimal entry.parent ++ '\t' :: (writtenLsn width entry.switchpoint ++ '\t' :: reason)
  | .blank spaces => spaces
  | .comment indent text => indent ++ '#' :: text

def Line.entry? : Line → Option HistoryLine
  | .record entry _ => some entry
  | .blank _ | .comment _ _ => none

def entriesOf (history : List Line) : List HistoryLine := history.filterMap Line.entry?

def writtenHistory (width : Nat) (history : List Line) : Str :=
  joinLines (history.map (Line.text width))

/-- One line, whose numbers are 64-bit words. -/
def Line.Whole : Line → Prop
  | .record entry reason => entry.parent < 2 ^ 64 ∧ entry.switchpoint < 2 ^ 64 ∧ '\n' ∉ reason
  | .blank spaces => (∀ c ∈ spaces, isWhitespace c = true) ∧ '\n' ∉ spaces
  | .comment indent text =>
      (∀ c ∈ indent, isWhitespace c = true) ∧ '\n' ∉ indent ∧ '\n' ∉ text

theorem paddedHex_field {width n : Nat} (narrow : width ≤ 8) (fits : n < 2 ^ 32) :
    LsnField (paddedHex width n) n := by
  have short := (Nat.length_toDigits_le_iff (show 1 < 16 by decide) (show 0 < 8 by decide)).mpr
    (show n < 16 ^ 8 from fits)
  have filled : 0 < (Nat.toDigits 16 n).length := Nat.length_toDigits_pos
  have length : (paddedHex width n).length = max width (Nat.toDigits 16 n).length := by
    rw [paddedHex, List.length_leftpad, List.length_map]
  constructor
  · rw [← List.length_pos_iff]
    omega
  · omega
  · exact readDigits_paddedHex width n

theorem writtenLsn_denotes {width lsn : Nat} (narrow : width ≤ 8) (fits : lsn < 2 ^ 64) :
    Denotes (writtenLsn width lsn) ⟨lsn / 2 ^ 32, lsn % 2 ^ 32⟩ :=
  ⟨_, _, rfl, paddedHex_field (Nat.zero_le 8) (by omega), paddedHex_field narrow (by omega)⟩

theorem parseLsn_written {width lsn : Nat} (narrow : width ≤ 8) (fits : lsn < 2 ^ 64) :
    parseLsn (writtenLsn width lsn) = some lsn := by
  rw [parseLsn_denotes (writtenLsn_denotes narrow fits), Position.lsn]
  dsimp only
  rw [Nat.div_add_mod']

theorem decimal_filled (n : Nat) : decimal n ≠ [] := Nat.toDigits_ne_nil

theorem fromStrRadix_decimal {n : Nat} (fits : n < 2 ^ 64) :
    fromStrRadix 10 (decimal n) = some n := by
  have digits : readDigits 10 (decimal n) 0 = some n := readDigits_decimal n
  have unsigned : (decimal n).head? ≠ some '+' := by
    intro signed
    have plus := readDigits_digit digits '+' (List.mem_of_mem_head? signed)
    revert plus
    decide
  have filled : (decimal n).isEmpty = false := by simpa using decimal_filled n
  simp only [fromStrRadix, stripPrefix_unsigned unsigned, filled, digits]
  rw [if_neg Bool.false_ne_true, Option.filter_some, if_pos (decide_eq_true fits)]

theorem splitWhitespace_written {width lsn : Nat} (narrow : width ≤ 8) (fits : lsn < 2 ^ 64) :
    splitWhitespace (writtenLsn width lsn) = [writtenLsn width lsn] := by
  obtain ⟨high, low, shape, first, second⟩ := (writtenLsn_denotes narrow fits).fields
  apply splitWhitespace_word
  · rw [shape]
    simp
  · intro c mem
    rw [shape] at mem
    rcases List.mem_append.mp mem with front | back
    · exact readDigits_visible first.digits c front
    · rcases List.mem_cons.mp back with rfl | inside
      · decide
      · exact readDigits_visible second.digits c inside

theorem words_entry {width : Nat} (narrow : width ≤ 8) {entry : HistoryLine} {reason : Str}
    (whole : (Line.record entry reason).Whole) :
    splitWhitespace ((Line.record entry reason).text width) =
      decimal entry.parent :: writtenLsn width entry.switchpoint :: splitWhitespace reason := by
  have tab : isWhitespace '\t' = true := by decide
  rw [Line.text, splitWhitespace_append tab, splitWhitespace_append tab,
    splitWhitespace_written narrow whole.2.1,
    splitWhitespace_word (decimal_filled _) (readDigits_visible (readDigits_decimal entry.parent))]
  rfl

theorem isRecord_decimal (n : Nat) (rest : List Str) : isRecord (decimal n :: rest) = true := by
  rw [isRecord, bne_iff_ne]
  intro comment
  have hash := readDigits_digit (readDigits_decimal n) '#' (List.mem_of_mem_head? comment)
  revert hash
  decide

theorem isRecord_blank {spaces : Str} (space : ∀ c ∈ spaces, isWhitespace c = true) :
    isRecord (splitWhitespace spaces) = false := by
  have words := splitWhitespace_blanks space []
  rw [List.append_nil] at words
  rw [words]
  rfl

theorem isRecord_comment {indent : Str} (space : ∀ c ∈ indent, isWhitespace c = true)
    (text : Str) :
    isRecord (splitWhitespace (indent ++ '#' :: text)) = false := by
  obtain ⟨more, words⟩ := splitWhitespace_first (show isWhitespace '#' = false by decide) text
  rw [splitWhitespace_blanks space, words, List.takeWhile_cons_of_pos (by decide)]
  rfl

theorem recordWords_written {width : Nat} (narrow : width ≤ 8) {history : List Line}
    (whole : ∀ line ∈ history, line.Whole) :
    List.Forall₂ Reads (recordWords (history.map (Line.text width))) (entriesOf history) := by
  induction history with
  | nil => exact .nil
  | cons line rest ih =>
      have others := ih fun other mem => whole other (List.mem_cons_of_mem line mem)
      have here := whole line List.mem_cons_self
      rw [recordWords] at others ⊢
      rw [List.map_cons, List.map_cons]
      cases line with
      | record entry reason =>
          rw [words_entry narrow here, List.filter_cons_of_pos (isRecord_decimal _ _)]
          exact .cons ⟨_, _, _, rfl, fromStrRadix_decimal here.1,
            parseLsn_written narrow here.2.1⟩ others
      | blank spaces =>
          rw [List.filter_cons_of_neg (by simp [Line.text, isRecord_blank here.1])]
          exact others
      | comment indent text =>
          rw [List.filter_cons_of_neg (by simp [Line.text, isRecord_comment here.1])]
          exact others

theorem recordWords_return (raws : List Str) :
    recordWords (raws.map (stripSuffix '\r')) = recordWords raws := by
  rw [recordWords, List.map_map, recordWords]
  congr 2
  exact funext splitWhitespace_return

/-- No text of a line has a line feed. -/
theorem text_whole {width : Nat} (narrow : width ≤ 8) {line : Line} (whole : line.Whole) :
    '\n' ∉ line.text width := by
  have blank : isWhitespace '\n' = true := by decide
  cases line with
  | record entry reason =>
      have visible : ∀ {text : Str}, (∀ c ∈ text, isWhitespace c = false) →
          '\n' ∉ text := by
        intro text shown mem
        rw [shown _ mem] at blank
        cases blank
      obtain ⟨high, low, shape, first, second⟩ := (writtenLsn_denotes narrow whole.2.1).fields
      have decimals := visible (readDigits_visible (readDigits_decimal entry.parent))
      have highs := visible (readDigits_visible first.digits)
      have lows := visible (readDigits_visible second.digits)
      rw [Line.text, shape]
      simp only [List.mem_append, List.mem_cons, not_or]
      exact ⟨decimals, by decide, ⟨highs, by decide, lows⟩, by decide, whole.2.2⟩
  | blank spaces => exact whole.2
  | comment indent text =>
      simp only [Line.text, List.mem_append, List.mem_cons, not_or]
      exact ⟨whole.2.1, by decide, whole.2.2⟩

theorem parseHistory_written {width : Nat} (narrow : width ≤ 8) {history : List Line}
    (whole : ∀ line ∈ history, line.Whole) (ordered : (entriesOf history).Pairwise Follows) :
    parseHistory (writtenHistory width history) = .ok (entriesOf history) := by
  have each : ∀ part ∈ history.map (Line.text width), '\n' ∉ part := by
    intro part mem
    obtain ⟨line, inside, rfl⟩ := List.mem_map.mp mem
    exact text_whole narrow (whole line inside)
  have written := lines_join each []
  rw [List.append_nil] at written
  rw [parseHistory_ok, writtenHistory, written]
  constructor
  · have none : lines ([] : Str) = [] := rfl
    rw [none, List.append_nil, recordWords_return]
    exact recordWords_written narrow whole
  · exact ordered

/-! ### The directory -/

def HistoryName (name : Str) (timeline : Nat) : Prop :=
  ∃ hex, name = hex ++ ".history".toList ∧ hex.length = 8 ∧
    readDigits 16 hex 0 = some timeline

def SegmentName (name : Str) (timeline : Nat) : Prop :=
  name.length = 24 ∧ (∀ c ∈ name, isAsciiHexdigit c = true) ∧
    readDigits 16 (name.take 8) 0 = some timeline

/-- What the history file of a timeline says about its begin; timeline 1 has none. -/
def BeginsAt (dir : DataDir) (timeline begin : Nat) : Prop :=
  timeline ≤ 1 ∧ begin = 0 ∨
    1 < timeline ∧ ∃ content parsed last,
      dir.readWal (historyFileName timeline) = .text content ∧
      parseHistory content = .ok parsed ∧ parsed.getLast? = some last ∧
        last.parent < timeline ∧
      begin = last.switchpoint

structure NewestOf (dir : DataDir) (entries : List (Str × Except Str Str))
    (newest : HistoryEvidence) :
    Prop where
  listing : dir.pgWal = .ok entries
  greatest : IsGreatest
    (insert 1 {timeline | ∃ name ∈ entries.map Prod.fst, HistoryName name timeline})
    newest.timeline
  begins : BeginsAt dir newest.timeline newest.begin
  wal : newest.wal = true ↔ ∃ name ∈ entries.map Prod.fst, SegmentName name newest.timeline

/-- Eight digits are read as what they are. -/
theorem fromStrRadix_eight {hex : Str} {timeline : Nat} (length : hex.length = 8)
    (digits : ∀ c ∈ hex, isAsciiHexdigit c = true) :
    fromStrRadix 16 hex = some timeline ↔ readDigits 16 hex 0 = some timeline := by
  have filled : hex ≠ [] := by
    rintro rfl
    cases length
  have unsigned : hex.head? ≠ some '+' := by
    intro signed
    have plus := digits '+' (List.mem_of_mem_head? signed)
    rw [plus_no_digit] at plus
    cases plus
  constructor
  · intro read
    exact (field_of_plain ⟨unsigned, length.le⟩ read).digits
  · intro read
    exact fromStrRadix_field ⟨filled, length.le, read⟩

theorem historyFileTimeline_iff {name : Str} {timeline : Nat} :
    historyFileTimeline name = some timeline ↔ HistoryName name timeline := by
  have front : ∀ hex : Str, (hex ++ ".history".toList).take
      ((hex ++ ".history".toList).length - ".history".toList.length) = hex := by
    intro hex
    rw [List.length_append, Nat.add_sub_cancel, List.take_left]
  constructor
  · intro found
    unfold historyFileTimeline at found
    split at found
    · rename_i isFile
      obtain ⟨hex, rfl⟩ := List.isSuffixOf_iff_suffix.mp isFile
      dsimp only at found
      rw [front] at found
      split at found
      · rename_i shape
        have digits := List.all_eq_true.mp shape.2
        exact ⟨hex, rfl, shape.1, (fromStrRadix_eight shape.1 digits).mp found⟩
      · cases found
    · cases found
  · rintro ⟨hex, rfl, length, read⟩
    have isFile : ".history".toList.isSuffixOf (hex ++ ".history".toList) = true :=
      List.isSuffixOf_iff_suffix.mpr (List.suffix_append hex _)
    have digits := readDigits_hex read
    rw [historyFileTimeline, if_pos isFile]
    dsimp only
    rw [front, if_pos ⟨length, List.all_eq_true.mpr digits⟩]
    exact (fromStrRadix_eight length digits).mpr read

theorem segmentTimeline_iff {name : Str} {timeline : Nat} :
    segmentTimeline name = some timeline ↔ SegmentName name timeline := by
  rw [segmentTimeline, SegmentName]
  by_cases shape : name.length = 24 ∧ name.all isAsciiHexdigit = true
  · have digits := List.all_eq_true.mp shape.2
    have front : (name.take 8).length = 8 := by
      rw [List.length_take, shape.1]
      rfl
    rw [if_pos shape, fromStrRadix_eight front fun c mem => digits c (List.mem_of_mem_take mem)]
    exact ⟨fun read => ⟨shape.1, digits, read⟩, fun segment => segment.2.2⟩
  · rw [if_neg shape]
    constructor
    · intro found
      cases found
    · rintro ⟨length, digits, _⟩
      exact absurd ⟨length, List.all_eq_true.mpr digits⟩ shape

theorem foldl_max_mem (known : List Nat) (start : Nat) :
    known.foldl max start = start ∨ known.foldl max start ∈ known := by
  induction known generalizing start with
  | nil => exact .inl rfl
  | cons value rest ih =>
      rw [List.foldl_cons]
      rcases ih (max start value) with same | later
      · rw [same]
        rcases Nat.le_total value start with below | above
        · exact .inl (Nat.max_eq_left below)
        · rw [Nat.max_eq_right above]
          exact .inr List.mem_cons_self
      · exact .inr (List.mem_cons_of_mem value later)

theorem newestTimeline_greatest (names : List Str) :
    IsGreatest (insert 1 {timeline | ∃ name ∈ names, HistoryName name timeline})
      (newestTimeline names) := by
  constructor
  · rcases foldl_max_mem (names.filterMap historyFileTimeline) 1 with none | found
    · exact .inl none
    · obtain ⟨name, mem, named⟩ := List.mem_filterMap.mp found
      exact .inr ⟨name, mem, historyFileTimeline_iff.mp named⟩
  · rintro timeline (rfl | ⟨name, mem, named⟩)
    · exact one_le_newestTimeline names
    · exact le_newestTimeline mem (historyFileTimeline_iff.mpr named)

/-- No segment name is taken for a history file. -/
theorem segmentTimelines_mem {names : List Str} {timeline : Nat} :
    timeline ∈ segmentTimelines names ↔ ∃ name ∈ names, SegmentName name timeline := by
  rw [segmentTimelines, List.mem_filterMap]
  constructor
  · rintro ⟨name, mem, segment⟩
    exact ⟨name, List.mem_of_mem_filter mem, segmentTimeline_iff.mp segment⟩
  · rintro ⟨name, mem, segment⟩
    refine ⟨name, List.mem_filter.mpr ⟨mem, ?_⟩, segmentTimeline_iff.mpr segment⟩
    cases history : historyFileTimeline name with
    | none => rfl
    | some other =>
        obtain ⟨hex, rfl, length, _⟩ := historyFileTimeline_iff.mp history
        have long := segment.1
        rw [List.length_append, length] at long
        cases long

theorem timelineBegin_iff {dir : DataDir} {timeline begin : Nat} :
    timelineBegin dir timeline = .ok (some begin) ↔ BeginsAt dir timeline begin := by
  by_cases first : timeline ≤ 1
  · rw [timelineBegin, if_pos first, BeginsAt]
    constructor
    · rintro ⟨⟩
      exact .inl ⟨first, rfl⟩
    · rintro (⟨_, rfl⟩ | ⟨above, _⟩)
      · rfl
      · exact absurd first (Nat.not_le.mpr above)
  · rw [timelineBegin, if_neg first]
    constructor
    · intro began
      dsimp only at began
      split at began
      · cases began
      · cases began
      · rename_i content read
        split at began
        · cases began
        · rename_i parsed accepted
          split at began
          · rename_i last isLast
            split at began
            · rename_i below
              cases began
              exact .inr ⟨Nat.lt_of_not_le first, content, parsed, last, read, accepted, isLast,
                below, rfl⟩
            · cases began
          · cases began
    · rintro (⟨isFirst, _⟩ | ⟨_, content, parsed, last, read, accepted, isLast,
        below, rfl⟩)
      · exact absurd isFirst first
      · simp only [read, accepted, isLast, if_pos below]

theorem newestHistory_iff {dir : DataDir} {newest : HistoryEvidence} :
    newestHistory dir = .ok newest ↔ ∃ entries, NewestOf dir entries newest := by
  constructor
  · intro read
    obtain ⟨entries, listing, isNewest, began⟩ := newestHistory_ok read
    refine ⟨entries, listing, isNewest ▸ newestTimeline_greatest _,
      timelineBegin_iff.mp began, ?_⟩
    simp only [newestHistory, listing, ← isNewest, began, bind, Except.bind, pure, Except.pure,
      Except.ok.injEq] at read
    have segments := congrArg HistoryEvidence.wal read
    dsimp only at segments
    rw [← segments, List.contains_iff_mem, segmentTimelines_mem]
  · rintro ⟨entries, listing, greatest, begins, wal⟩
    have isNewest := greatest.unique (newestTimeline_greatest (entries.map Prod.fst))
    have segments : newest.wal = (segmentTimelines (entries.map Prod.fst)).contains
        newest.timeline := by
      rw [Bool.eq_iff_iff, wal, List.contains_iff_mem, segmentTimelines_mem]
    have began := timelineBegin_iff.mpr begins
    simp only [newestHistory, listing, ← isNewest, began, bind, Except.bind, pure, Except.pure,
      ← segments]

/-- The texts PostgreSQL writes are read back, whatever is accepted is in order, and the
newest history is the begin of the highest named timeline, or an error. -/
theorem history_files_exact :
    (∀ width ≤ 8, ∀ history : List Line, (∀ line ∈ history, line.Whole) →
        (entriesOf history).Pairwise Follows →
        parseHistory (writtenHistory width history) = .ok (entriesOf history)) ∧
      (∀ content parsed, parseHistory content = .ok parsed → parsed.Pairwise Follows) ∧
      ∀ dir newest, newestHistory dir = .ok newest ↔
        ∃ entries, NewestOf dir entries newest := by
  constructor
  · intro width narrow history whole ordered
    exact parseHistory_written narrow whole ordered
  constructor
  · intro content parsed accepted
    exact (parseHistory_ok.mp accepted).2
  · intro dir newest
    exact newestHistory_iff

/-- PostgreSQL writes history names in upper case: of a name in lower case the begin is not
read. A file of timeline 1 is never read. -/
theorem newest_history_odd_names :
    (∃ name content, HistoryName name 10 ∧ parseHistory content = .ok [⟨9, 0x9000⟩] ∧
        newestHistory ⟨"/data".toList, .ok [(name, .ok content)], .missing, .missing⟩ =
          .error "history file of timeline 10 vanished".toList) ∧
      ∃ name content problem, HistoryName name 1 ∧ parseHistory content = .error problem ∧
        newestHistory ⟨"/data".toList, .ok [(name, .ok content)], .missing, .missing⟩ =
          .ok ⟨1, 0, false⟩ := by
  constructor
  · refine ⟨"0000000a.history".toList, "9\t0/9000\tx\n".toList, ?_, ?_, ?_⟩
    · exact ⟨"0000000a".toList, rfl, rfl, by decide⟩
    · rfl
    · rfl
  · refine ⟨"00000001.history".toList, "garbage\n".toList, _, ?_, rfl, ?_⟩
    · exact ⟨"00000001".toList, rfl, rfl, by decide⟩
    · rfl

/-! ### The positions of a history -/

/-- The texts that `parse_history` hands to `parse_lsn`. -/
def lsnFields (content : Str) : List Str :=
  (recordWords (lines content)).filterMap fun words => words[1]?

theorem positions_of_reads {records : List (List Str)} {parsed : List HistoryLine}
    (matched : List.Forall₂ Reads records parsed)
    (regular : ∀ field ∈ records.filterMap fun words => words[1]?, Regular field) :
    ∃ positions, List.Forall₂ Denotes (records.filterMap fun words => words[1]?) positions ∧
      parsed.map HistoryLine.switchpoint = positions.map Position.lsn ∧
      ∀ position ∈ positions, position.low < 2 ^ 32 := by
  induction matched with
  | nil => exact ⟨[], .nil, rfl, by simp⟩
  | cons reads _ ih =>
      rename_i words entry records entries _
      obtain ⟨tli, lsn, more, rfl, _, isSwitchpoint⟩ := reads
      have fields : ((tli :: lsn :: more) :: records).filterMap (fun words => words[1]?) =
          lsn :: records.filterMap fun words => words[1]? := rfl
      rw [fields] at regular ⊢
      obtain ⟨positions, denote, same, low⟩ :=
        ih fun field mem => regular field (List.mem_cons_of_mem lsn mem)
      obtain ⟨position, denotes, switchpoint⟩ :=
        denotes_of_regular (regular lsn List.mem_cons_self) isSwitchpoint
      refine ⟨position :: positions, .cons denotes denote, ?_, ?_⟩
      · rw [List.map_cons, List.map_cons, same, switchpoint]
      · exact List.forall_mem_cons.mpr ⟨denotes_low denotes, low⟩

/-- `parse_lsn` takes exactly the LSNs of PostgreSQL on the regular texts; on these its
values, and with them the switchpoints of a text that is an accepted history, compare as WAL
positions. -/
theorem parse_lsn_exact_iff (text : Str) :
    (Exact text ↔ Regular text) ∧
      (∀ other value value', Regular text → Regular other → parseLsn text = some value →
        parseLsn other = some value' →
        ∃ position position', Denotes text position ∧ Denotes other position' ∧
          (value = value' ↔ position = position') ∧
            (value ≤ value' ↔ position.notAfter position')) ∧
      ∀ parsed, parseHistory text = .ok parsed →
        (∀ field ∈ lsnFields text, Regular field) →
        ∃ positions, List.Forall₂ Denotes (lsnFields text) positions ∧
          parsed.map HistoryLine.switchpoint = positions.map Position.lsn ∧
          positions.Pairwise Position.notAfter := by
  refine ⟨exact_iff_regular text, ?_, ?_⟩
  · intro other value value' regular regular' parsed parsed'
    exact regular_order regular regular' parsed parsed'
  · intro parsed accepted regular
    obtain ⟨matched, ordered⟩ := parseHistory_ok.mp accepted
    obtain ⟨positions, denote, same, low⟩ := positions_of_reads matched regular
    refine ⟨positions, denote, same, ?_⟩
    have lsns : (positions.map Position.lsn).Pairwise (· ≤ ·) := by
      rw [← same, List.pairwise_map]
      exact ordered.imp fun follows => follows.2
    rw [List.pairwise_map] at lsns
    exact lsns.imp_of_mem fun mem mem' below => (lsn_le_iff (low _ mem) (low _ mem')).mp below

end PgHa.HistoryFiles
