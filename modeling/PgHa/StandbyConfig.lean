import PgHa.ConfFile
import PgHa.ConnInfo

/-!
standby_config.rs: the connection string of a standby and the rewrite of
`postgresql.auto.conf`. What PostgreSQL and libpq read back from them is in `ConfFile` and
`ConnInfo`.
-/

namespace PgHa.StandbyConfig

open Text TextLines ConfFile

structure ConnectionParams where
  username : Str
  password : Option Str
  dbname : Str

/-! ### Quoting -/

/-- `str::replace` of one character. -/
def replaceChar (c : Char) (by_ : Str) (text : Str) : Str :=
  text.flatMap fun letter => if letter = c then by_ else [letter]

def libpqQuote (value : Str) : Str :=
  let needsQuotes := value.isEmpty || value.any fun c => isWhitespace c || c == '\'' || c == '\\'
  if !needsQuotes then value
  else '\'' :: (replaceChar '\'' ['\\', '\''] (replaceChar '\\' ['\\', '\\'] value) ++ ['\''])

def confQuote (value : Str) : Str :=
  '\'' :: (replaceChar '\'' ['\'', '\''] (replaceChar '\\' ['\\', '\\'] value) ++ ['\''])

/-! ### The connection string -/

def stripFront (front : String) (word : Str) : Option Str :=
  if front.toList.isPrefixOf word then some (word.drop front.toList.length) else none

/-- The last `host=` and the last `port=` count. -/
def connUrlHostPort (connUrl : Str) : Option (Str × Str) :=
  let words := splitWhitespace connUrl
  let host := (words.filterMap (stripFront "host=")).getLast?
  let port := (words.filterMap (stripFront "port=")).getLast?
  match host.filter fun host => !host.isEmpty with
  | none => none
  | some host => some (host, (port.filter fun port => !port.isEmpty).getD "5432".toList)

def connUrlHasHost (connUrl : Str) : Bool := (connUrlHostPort connUrl).isSome

def buildPrimaryConninfo (upstreamConnUrl : Str) (replication : ConnectionParams)
    (applicationName : Str) : Option Str :=
  if !connUrlHasHost upstreamConnUrl then none
  else
    (connUrlHostPort upstreamConnUrl).map fun (host, port) =>
      let conninfo := "host=".toList ++ libpqQuote host ++ " port=".toList ++ libpqQuote port ++
        " user=".toList ++ libpqQuote replication.username
      let conninfo := match replication.password with
        | some password => conninfo ++ " password=".toList ++ libpqQuote password
        | none => conninfo
      conninfo ++ " application_name=".toList ++ libpqQuote applicationName

/-! ### The rewrite -/

def pgHaHeader : Str := "# pg-ha managed standby configuration".toList

def pgHaHeaderPrefix : Str := "# pg-ha managed".toList

def isKeyChar (c : Char) : Bool := c.isAlphanum || c == '_' || c == '.'

def trimStart (text : Str) : Str := text.dropWhile isWhitespace

def confLineKey (line : Str) : Str := (trimStart line).takeWhile isKeyChar

/-- The lines that the loop leaves out. -/
def dropped (withConninfo : Bool) (line : Str) : Bool :=
  pgHaHeaderPrefix.isPrefixOf (trimStart line) ||
    eqIgnoreAsciiCase (confLineKey line) "primary_conninfo".toList ||
    (withConninfo && eqIgnoreAsciiCase (confLineKey line) "recovery_target_timeline".toList)

def rewriteAutoConf (existing : Str) (primaryConninfo : Option Str) : Str :=
  let out := joinLines ((lines existing).filter fun line => !dropped primaryConninfo.isSome line)
  match primaryConninfo with
  | none => out
  | some conninfo =>
      out ++ (pgHaHeader ++ ['\n']) ++
        ("primary_conninfo = ".toList ++ confQuote conninfo ++ ['\n']) ++
        ("recovery_target_timeline = 'latest'".toList ++ ['\n'])

/-! ### Quoting as the readers undo it -/

theorem replaceChar_pair (mark : Char) (value : Str) :
    replaceChar '\'' [mark, '\''] (replaceChar '\\' ['\\', '\\'] value) =
      value.flatMap fun c =>
        if c = '\\' then ['\\', '\\'] else if c = '\'' then [mark, '\''] else [c] := by
  rw [replaceChar, replaceChar, List.flatMap_assoc]
  refine List.flatMap_congr fun c _ => ?_
  by_cases slash : c = '\\'
  · simp [slash]
  · simp [slash]

theorem libpqQuote_eq (value : Str) : libpqQuote value = ConnInfo.quote value := by
  have escaped : replaceChar '\'' ['\\', '\''] (replaceChar '\\' ['\\', '\\'] value) =
      ConnInfo.escape value := by
    rw [replaceChar_pair, ConnInfo.escape]
    refine List.flatMap_congr fun c _ => ?_
    by_cases slash : c = '\\'
    · simp [slash]
    · by_cases mark : c = '\''
      · simp [mark]
      · simp [slash, mark]
  have flip : ∀ (b : Bool) (x y : Str), (if (!b) = true then x else y) = if b = true then y
      else x := by
    intro b x y
    cases b <;> rfl
  simp only [libpqQuote, escaped, ConnInfo.quote, ConnInfo.needsQuotes]
  exact flip _ _ _

theorem confQuote_eq (value : Str) : confQuote value = ConfFile.quote value := by
  have escaped : replaceChar '\'' ['\'', '\''] (replaceChar '\\' ['\\', '\\'] value) =
      ConfFile.escape value := by
    rw [replaceChar_pair, ConfFile.escape]
    refine List.flatMap_congr fun c _ => ?_
    by_cases slash : c = '\\'
    · simp [slash]
    · by_cases mark : c = '\''
      · simp [mark]
      · simp [slash, mark]
  rw [confQuote, escaped, ConfFile.quote]

/-! ### The connection string -/

/-- The settings of a standby's connection string. -/
def settings (host port : Str) (replication : ConnectionParams) (applicationName : Str) :
    List (Str × Str) :=
  [("host".toList, host), ("port".toList, port), ("user".toList, replication.username)] ++
    replication.password.toList.map (("password".toList, ·)) ++
    [("application_name".toList, applicationName)]

theorem buildPrimaryConninfo_some {connUrl applicationName conninfo : Str}
    {replication : ConnectionParams}
    (built : buildPrimaryConninfo connUrl replication applicationName = some conninfo) :
    ∃ host port, connUrlHostPort connUrl = some (host, port) ∧
      conninfo = ConnInfo.render (settings host port replication applicationName) := by
  unfold buildPrimaryConninfo connUrlHasHost at built
  cases found : connUrlHostPort connUrl with
  | none => simp [found] at built
  | some pair =>
      obtain ⟨host, port⟩ := pair
      refine ⟨host, port, rfl, ?_⟩
      simp only [found, Option.isSome_some, Bool.not_true, Bool.false_eq_true, if_false,
        Option.map_some, Option.some.injEq, libpqQuote_eq] at built
      rw [← built, settings, ConnInfo.render, joinWith]
      cases replication.password with
      | none => simp [List.intercalate_cons_cons]
      | some password => simp [List.intercalate_cons_cons]

theorem settings_keywords (host port : Str) (replication : ConnectionParams)
    (applicationName : Str) :
    ∀ setting ∈ settings host port replication applicationName, ConnInfo.Keyword setting.1 := by
  intro setting mem
  simp only [settings, List.mem_append, List.mem_cons, List.not_mem_nil, or_false, List.mem_map]
    at mem
  rcases mem with ((rfl | rfl | rfl) | ⟨password, _, rfl⟩) | rfl
  · exact (by decide : ConnInfo.Keyword "host".toList)
  · exact (by decide : ConnInfo.Keyword "port".toList)
  · exact (by decide : ConnInfo.Keyword "user".toList)
  · exact (by decide : ConnInfo.Keyword "password".toList)
  · exact (by decide : ConnInfo.Keyword "application_name".toList)

/-! ### Lines -/

/-- The lines of a file that a rewrite with a connection string keeps. -/
def keptLines (existing : Str) : List Str := (lines existing).filter fun line => !dropped true line

def settingLine (conninfo : Str) : Str := "primary_conninfo = ".toList ++ ConfFile.quote conninfo

def latestLine : Str := "recovery_target_timeline = 'latest'".toList

/-- The text that follows the kept lines. -/
def ownText (conninfo : Str) : Str :=
  pgHaHeader ++ '\n' :: (settingLine conninfo ++ '\n' :: (latestLine ++ ['\n']))

theorem settingLine_conf (conninfo : Str) :
    "primary_conninfo = ".toList ++ confQuote conninfo = settingLine conninfo := by
  rw [confQuote_eq]
  rfl

theorem rewrite_some (existing conninfo : Str) :
    rewriteAutoConf existing (some conninfo) = joinLines (keptLines existing) ++
      ownText conninfo := by
  have parts : rewriteAutoConf existing (some conninfo) =
      joinLines (keptLines existing) ++ (pgHaHeader ++ ['\n']) ++
        (settingLine conninfo ++ ['\n']) ++
        (latestLine ++ ['\n']) := by
    rw [← settingLine_conf]
    rfl
  rw [parts, ownText]
  generalize joinLines (keptLines existing) = kept
  generalize settingLine conninfo = setting
  generalize pgHaHeader = header
  generalize latestLine = latest
  simp

theorem keptLines_whole (existing : Str) : ∀ line ∈ keptLines existing, '\n' ∉ line := by
  intro line mem
  have inside : line ∈ lines existing := List.mem_of_mem_filter mem
  exact lines_whole inside

/-! ### The keys of lines -/

theorem isKeyChar_visible {c : Char} (key : isKeyChar c = true) : isWhitespace c = false := by
  have range : 46 ≤ c.toNat ∧ c.toNat ≤ 122 := by
    delta isKeyChar Char.isAlphanum Char.isAlpha Char.isUpper Char.isLower Char.isDigit at key
    simp only [Bool.or_eq_true, Bool.and_eq_true, decide_eq_true_eq, beq_iff_eq] at key
    rcases key with (((⟨low, high⟩ | ⟨low, high⟩) | ⟨low, high⟩) | rfl) | rfl
    · exact ⟨Nat.le_trans (by decide) (UInt32.le_iff_toNat_le.mp low),
        Nat.le_trans (UInt32.le_iff_toNat_le.mp high) (by decide)⟩
    · exact ⟨Nat.le_trans (by decide) (UInt32.le_iff_toNat_le.mp low),
        Nat.le_trans (UInt32.le_iff_toNat_le.mp high) (by decide)⟩
    · exact ⟨Nat.le_trans (by decide) (UInt32.le_iff_toNat_le.mp low),
        Nat.le_trans (UInt32.le_iff_toNat_le.mp high) (by decide)⟩
    · decide
    · decide
  simp only [isWhitespace, Bool.or_eq_false_iff, Bool.and_eq_false_iff, decide_eq_false_iff_not,
    beq_eq_false_iff_ne]
  omega

theorem isKeyChar_lower (c : Char) : isKeyChar (lowerChar c) = isKeyChar c :=
  lowerChar_cases (P := fun c d => isKeyChar d = isKeyChar c) (fun _ => rfl) (by decide) c

theorem isBlank_whitespace {c : Char} (blank : isBlank c = true) : isWhitespace c = true := by
  simp only [isBlank, Bool.or_eq_true, beq_iff_eq] at blank
  rcases blank with (rfl | rfl) | rfl
  · decide
  · decide
  · decide

theorem dropWhile_of_imp {first second : Char → Bool}
    (imp : ∀ c, first c = true → second c = true)
    (text : Str) : (text.dropWhile first).dropWhile second = text.dropWhile second := by
  induction text with
  | nil => rfl
  | cons c rest ih =>
      by_cases drops : first c = true
      · rw [List.dropWhile_cons_of_pos drops, List.dropWhile_cons_of_pos (imp c drops), ih]
      · rw [List.dropWhile_cons_of_neg drops]

theorem takeWhile_of_imp {first second : Char → Bool}
    (imp : ∀ c, first c = true → second c = true)
    {text : Str} (within : ∀ c ∈ text.takeWhile second, first c = true) :
    text.takeWhile first = text.takeWhile second := by
  induction text with
  | nil => rfl
  | cons c rest ih =>
      by_cases takes : second c = true
      · rw [List.takeWhile_cons_of_pos takes] at within ⊢
        rw [List.takeWhile_cons_of_pos (within c List.mem_cons_self),
          ih fun other mem => within other (List.mem_cons_of_mem _ mem)]
      · rw [List.takeWhile_cons_of_neg takes,
          List.takeWhile_cons_of_neg fun own => takes (imp c own)]

def conninfoKey : Str := "primary_conninfo".toList

/-- A line that PostgreSQL reads as a setting of `primary_conninfo`. -/
def setsConninfo (line : Str) : Bool := eqIgnoreAsciiCase (settingName line) conninfoKey

theorem key_of_setsConninfo {line : Str} (sets : setsConninfo line = true) :
    eqIgnoreAsciiCase (confLineKey line) conninfoKey = true := by
  have folded : toAsciiLowercase (settingName line) = toAsciiLowercase conninfoKey := by
    simpa [setsConninfo, eqIgnoreAsciiCase] using sets
  have keyChars : ∀ c ∈ settingName line, isKeyChar c = true := by
    intro c mem
    have lower : lowerChar c ∈ toAsciiLowercase conninfoKey := by
      rw [← folded]
      exact List.mem_map_of_mem mem
    have plain : (toAsciiLowercase conninfoKey).all isKeyChar = true := by decide
    rw [← isKeyChar_lower]
    exact List.all_eq_true.mp plain _ lower
  have start : trimStart line = line.dropWhile isBlank := by
    rw [trimStart, ← dropWhile_of_imp fun c => isBlank_whitespace]
    cases rest : line.dropWhile isBlank with
    | nil => rfl
    | cons c more =>
        by_cases named : isNameChar c = true
        · have visible := isKeyChar_visible (keyChars c (by simp [settingName, rest, named]))
          rw [List.dropWhile_cons_of_neg (by simp [visible])]
        · have empty : settingName line = [] := by simp [settingName, rest, named]
          rw [empty] at folded
          exact absurd folded (by decide)
  have key : confLineKey line = settingName line := by
    rw [confLineKey, start, settingName]
    refine takeWhile_of_imp ?_ keyChars
    intro c own
    simp only [isKeyChar, Bool.or_eq_true] at own
    simp only [isNameChar, Bool.or_eq_true]
    exact .inl own
  rw [key]
  exact sets

/-! ### Carriage returns -/

theorem getLast?_stripSuffix (c : Char) (text : Str) : stripSuffix c text = text ↔
    text.getLast? ≠ some c := by
  cases text using List.reverseRecOn with
  | nil => simp [stripSuffix, stripPrefix]
  | append_singleton front last =>
      by_cases same : last = c
      · simp [same, stripSuffix_concat]
      · simp [same, stripSuffix, stripPrefix]

theorem trimStart_return (text : Str) :
    trimStart (text ++ ['\r']) = trimStart text ++ ['\r'] ∨
      trimStart (text ++ ['\r']) = [] ∧ trimStart text = [] := by
  induction text with
  | nil => exact .inr ⟨rfl, rfl⟩
  | cons c rest ih =>
      simp only [trimStart, List.cons_append] at ih ⊢
      by_cases blank : isWhitespace c = true
      · rw [List.dropWhile_cons_of_pos blank, List.dropWhile_cons_of_pos blank]
        exact ih
      · rw [List.dropWhile_cons_of_neg blank, List.dropWhile_cons_of_neg blank]
        exact .inl rfl

theorem confLineKey_return (text : Str) : confLineKey (text ++ ['\r']) = confLineKey text := by
  have ends : isKeyChar '\r' = false := by decide
  rw [confLineKey, confLineKey]
  rcases trimStart_return text with same | ⟨left, right⟩
  · rw [same, List.takeWhile_append]
    split
    · rename_i whole
      rw [List.takeWhile_cons_of_neg (by simp [ends]), List.append_nil]
      exact (List.takeWhile_prefix _).eq_of_length whole |>.symm
    · rfl
  · rw [left, right]

theorem isPrefixOf_return {front : Str} (other : front.getLast? ≠ some '\r') (text : Str) :
    front.isPrefixOf (text ++ ['\r']) = front.isPrefixOf text := by
  rw [Bool.eq_iff_iff, List.isPrefixOf_iff_prefix, List.isPrefixOf_iff_prefix,
    List.prefix_concat_iff]
  constructor
  · rintro (whole | front)
    · exact absurd (by simp [whole]) other
    · exact front
  · exact .inr

theorem isHeader_return (text : Str) :
    pgHaHeaderPrefix.isPrefixOf (trimStart (text ++ ['\r'])) =
      pgHaHeaderPrefix.isPrefixOf (trimStart text) := by
  rcases trimStart_return text with same | ⟨left, right⟩
  · rw [same]
    exact isPrefixOf_return (by decide) _
  · rw [left, right]

theorem dropped_return (withConninfo : Bool) (line : Str) :
    dropped withConninfo (stripSuffix '\r' line) = dropped withConninfo line := by
  cases line using List.reverseRecOn with
  | nil => rfl
  | append_singleton front last =>
      by_cases returns : last = '\r'
      · rw [returns, stripSuffix_concat, dropped, dropped, isHeader_return, confLineKey_return]
      · rw [(getLast?_stripSuffix '\r' _).mpr (by simp [returns])]

/-! ### The written setting -/

def settingOpen : Str := "primary_conninfo = '".toList

theorem settingLine_open (conninfo : Str) :
    settingLine conninfo = settingOpen ++ (ConfFile.escape conninfo ++ ['\'']) := by
  have opened : settingOpen = "primary_conninfo = ".toList ++ ['\''] := by decide
  rw [opened, List.append_assoc]
  rfl

/-- The letters of the text, for evaluation. -/
theorem settingOpen_letters : settingOpen =
    ['p', 'r', 'i', 'm', 'a', 'r', 'y', '_', 'c', 'o', 'n', 'n', 'i', 'n', 'f', 'o', ' ', '=', ' ',
      '\''] := by
  decide

theorem setsConninfo_open (text : Str) : setsConninfo (settingOpen ++ text) = true := by
  rw [settingOpen_letters]
  rfl

theorem valueText_open (text : Str) : valueText (settingOpen ++ text) = '\'' :: text := by
  rw [settingOpen_letters]
  rfl

theorem dropped_open (withConninfo : Bool) (text : Str) :
    dropped withConninfo (settingOpen ++ text) = true := by
  rw [settingOpen_letters]
  rfl

theorem dropped_header (withConninfo : Bool) : dropped withConninfo pgHaHeader = true := by
  rfl

theorem dropped_latest (withConninfo : Bool) : dropped withConninfo latestLine = withConninfo := by
  cases withConninfo <;> rfl

theorem setsConninfo_own : setsConninfo pgHaHeader = false ∧ setsConninfo latestLine = false := by
  decide

/-- The line reads as the connection string unless something in it ends the literal. -/
theorem settingValue_settingLine (conninfo : Str) :
    settingValue (settingLine conninfo) = if conninfo.any breaks then none else some conninfo := by
  have literal : valueText (settingLine conninfo) = '\'' ::
      (ConfFile.escape conninfo ++ ['\'']) := by
    rw [settingLine_open, valueText_open]
  refine settingValue_literal literal ?_
  rw [readLiteral_escape]
  cases conninfo.any breaks with
  | true => rfl
  | false => simp [readLiteral, (by decide : breaks '\'' = false)]

/-- A literal that is cut off has no value. -/
theorem settingValue_cut (text : Str) : settingValue (settingOpen ++ ConfFile.escape text) =
    none := by
  have literal := valueText_open (ConfFile.escape text)
  refine settingValue_literal literal ?_
  have read := readLiteral_escape text []
  rw [List.append_nil] at read
  rw [read]
  cases text.any breaks <;> rfl

theorem settingOpen_whole : '\n' ∉ settingOpen := by
  decide

theorem pgHaHeader_whole : '\n' ∉ pgHaHeader := by
  decide

theorem latestLine_whole : '\n' ∉ latestLine := by
  decide

theorem settingOpen_escape_whole {text : Str} (whole : '\n' ∉ text) :
    '\n' ∉ settingOpen ++ ConfFile.escape text := by
  rw [List.mem_append, ConfFile.mem_escape]
  rintro (start | inside)
  · exact settingOpen_whole start
  · exact whole inside

theorem settingLine_whole {conninfo : Str} (whole : '\n' ∉ conninfo) :
    '\n' ∉ settingLine conninfo := by
  rw [settingLine_open, ← List.append_assoc, List.mem_append]
  rintro (start | last)
  · exact settingOpen_escape_whole whole start
  · exact absurd (List.mem_singleton.mp last) (by decide)

/-- The lines after the kept ones. -/
def ownLines (conninfo : Str) : List Str := [pgHaHeader, settingLine conninfo, latestLine]

theorem ownLines_whole {conninfo : Str} (whole : '\n' ∉ conninfo) :
    ∀ line ∈ ownLines conninfo, '\n' ∉ line := by
  intro line mem
  simp only [ownLines, List.mem_cons, List.not_mem_nil, or_false] at mem
  rcases mem with rfl | rfl | rfl
  · exact pgHaHeader_whole
  · exact settingLine_whole whole
  · exact latestLine_whole

theorem ownText_lines (conninfo : Str) : ownText conninfo = joinLines (ownLines conninfo) := by
  rw [ownText, ownLines]
  generalize settingLine conninfo = setting
  generalize pgHaHeader = header
  generalize latestLine = latest
  simp [joinLines]

/-- The first two lines, where a line feed cuts the setting off. -/
theorem ownText_cut {front : Str} (whole : '\n' ∉ front) (back : Str) :
    ∃ rest, fileLines (ownText (front ++ '\n' :: back)) =
      pgHaHeader :: (settingOpen ++ ConfFile.escape front) :: rest := by
  have shape : ∃ tail, ownText (front ++ '\n' :: back) =
      joinLines [pgHaHeader, settingOpen ++ ConfFile.escape front] ++ tail := by
    rw [ownText, settingLine_open, ConfFile.escape_append]
    have feed : ConfFile.escape ('\n' :: back) = '\n' :: ConfFile.escape back := rfl
    rw [feed]
    generalize settingOpen = start
    generalize pgHaHeader = header
    generalize latestLine = latest
    exact ⟨ConfFile.escape back ++ '\'' :: '\n' :: (latest ++ ['\n']), by simp [joinLines]⟩
  obtain ⟨tail, shape⟩ := shape
  rw [shape, fileLines_join]
  · exact ⟨fileLines tail, rfl⟩
  · intro line mem
    simp only [List.mem_cons, List.not_mem_nil, or_false] at mem
    rcases mem with rfl | rfl
    · exact pgHaHeader_whole
    · exact settingOpen_escape_whole whole

/-! ### A file that was rewritten -/

theorem dropped_weaken {line : Str} (drops : dropped false line = true) :
    dropped true line = true := by
  simp only [dropped, Bool.false_and, Bool.or_false, Bool.or_eq_true] at drops ⊢
  exact .inl drops

theorem keptLines_kept {existing line : Str} (kept : line ∈ keptLines existing)
    (withConninfo : Bool) :
    dropped withConninfo line = false := by
  have stays : dropped true line = false := by
    simpa using (List.mem_filter.mp kept).2
  cases withConninfo with
  | true => exact stays
  | false =>
      by_contra drops
      rw [Bool.not_eq_false] at drops
      rw [dropped_weaken drops] at stays
      cases stays

theorem keptLines_setsConninfo {existing line : Str} (kept : line ∈ keptLines existing) :
    setsConninfo line = false := by
  by_contra sets
  rw [Bool.not_eq_false] at sets
  have key := key_of_setsConninfo sets
  have stays := keptLines_kept kept false
  simp only [dropped, Bool.or_eq_false_iff] at stays
  rw [show eqIgnoreAsciiCase (confLineKey line) conninfoKey = false from stays.1.2] at key
  cases key

/-- The lines that a second rewrite reads. -/
theorem lines_rewrite {conninfo : Str} (existing : Str) (whole : '\n' ∉ conninfo) :
    lines (rewriteAutoConf existing (some conninfo)) =
      (keptLines existing).map (stripSuffix '\r') ++ ownLines conninfo := by
  have plain : (ownLines conninfo).map (stripSuffix '\r') = ownLines conninfo := by
    refine (List.map_congr_left fun line mem => ?_).trans (List.map_id _)
    simp only [ownLines, List.mem_cons, List.not_mem_nil, or_false] at mem
    rw [id, getLast?_stripSuffix]
    rcases mem with rfl | rfl | rfl
    · decide
    · rw [settingLine_open, ← List.append_assoc, List.getLast?_concat]
      decide
    · decide
  have own := lines_join (ownLines_whole whole) []
  rw [List.append_nil, plain] at own
  rw [rewrite_some, lines_join (keptLines_whole existing), ownText_lines, own]
  simp [lines, splitLines]

/-- What a second rewrite keeps. -/
theorem kept_rewrite {conninfo : Str} (existing : Str) (whole : '\n' ∉ conninfo)
    (withConninfo : Bool) :
    ((lines (rewriteAutoConf existing (some conninfo))).filter
      fun line => !dropped withConninfo line) =
      (keptLines existing).map (stripSuffix '\r') ++ if withConninfo then [] else [latestLine] := by
  have front : ((keptLines existing).map (stripSuffix '\r')).filter
      (fun line => !dropped withConninfo line) =
      (keptLines existing).map (stripSuffix '\r') := by
    rw [List.filter_eq_self]
    intro line mem
    obtain ⟨raw, kept, rfl⟩ := List.mem_map.mp mem
    rw [dropped_return, keptLines_kept kept]
    rfl
  have own : (ownLines conninfo).filter (fun line => !dropped withConninfo line) =
      if withConninfo then [] else [latestLine] := by
    rw [ownLines, settingLine_open]
    simp only [List.filter_cons, dropped_header, dropped_open, dropped_latest]
    cases withConninfo <;> rfl
  rw [lines_rewrite existing whole, List.filter_append, front, own]

/-- The settings of `primary_conninfo` in the result are the one in the own text. -/
theorem filter_rewrite (existing conninfo : Str) :
    (fileLines (rewriteAutoConf existing (some conninfo))).filter setsConninfo =
      (fileLines (ownText conninfo)).filter setsConninfo := by
  have front : (keptLines existing).filter setsConninfo = [] := by
    rw [List.filter_eq_nil_iff]
    intro line kept
    simp [keptLines_setsConninfo kept]
  rw [rewrite_some, fileLines_join (keptLines_whole existing), List.filter_append, front,
    List.nil_append]

theorem filter_own {conninfo : Str} (whole : '\n' ∉ conninfo) :
    (fileLines (ownText conninfo)).filter setsConninfo = [settingLine conninfo] := by
  have own := fileLines_join (ownLines_whole whole) []
  have nothing : fileLines [] = [] := rfl
  rw [List.append_nil, nothing, List.append_nil] at own
  rw [ownText_lines, own, ownLines, settingLine_open]
  simp only [List.filter_cons, setsConninfo_own.1, setsConninfo_own.2, setsConninfo_open]
  rfl

theorem filter_cut {front : Str} (whole : '\n' ∉ front) (back : Str) :
    ∃ others, (fileLines (ownText (front ++ '\n' :: back))).filter setsConninfo =
      (settingOpen ++ ConfFile.escape front) :: others := by
  obtain ⟨rest, own⟩ := ownText_cut whole back
  rw [own]
  simp only [List.filter_cons, setsConninfo_own.1, setsConninfo_open]
  exact ⟨_, rfl⟩

/-! ### What ends the literal -/

/-- Quoting adds no character that ends a literal. -/
theorem mem_quote {c : Char} (ends : breaks c = true) (value : Str) :
    c ∈ ConnInfo.quote value ↔ c ∈ value := by
  have plain : c ≠ '\'' ∧ c ≠ '\\' := by
    constructor
    · rintro rfl
      exact absurd ends (by decide)
    · rintro rfl
      exact absurd ends (by decide)
  have escaped : c ∈ ConnInfo.escape value ↔ c ∈ value := by
    induction value with
    | nil => simp [ConnInfo.escape]
    | cons head rest ih =>
        simp only [ConnInfo.escape, List.flatMap_cons, List.mem_append, List.mem_cons] at ih ⊢
        rw [ih]
        split <;> simp [plain.2]
  unfold ConnInfo.quote
  split
  · simp [plain.1, escaped]
  · rfl

theorem mem_render {c : Char} (ends : breaks c = true) {settings : List (Str × Str)}
    (plain : ∀ setting ∈ settings, c ∉ setting.1) :
    c ∈ ConnInfo.render settings ↔ ∃ setting ∈ settings, c ∈ setting.2 := by
  have blank : c ≠ ' ' ∧ c ≠ '=' := by
    constructor
    · rintro rfl
      exact absurd ends (by decide)
    · rintro rfl
      exact absurd ends (by decide)
  induction settings with
  | nil => simp [ConnInfo.render, joinWith]
  | cons setting rest ih =>
      have named := plain setting List.mem_cons_self
      have others : c ∈ ConnInfo.render rest ↔ ∃ setting ∈ rest, c ∈ setting.2 :=
        ih fun other mem => plain other (List.mem_cons_of_mem _ mem)
      have here : c ∈ setting.1 ++ '=' :: ConnInfo.quote setting.2 ↔ c ∈ setting.2 := by
        simp [named, blank.2, mem_quote ends]
      have shape : c ∈ ConnInfo.render (setting :: rest) ↔
          c ∈ setting.2 ∨ c ∈ ConnInfo.render rest := by
        cases rest with
        | nil => simp [ConnInfo.render, joinWith, named, blank.2, mem_quote ends]
        | cons next more =>
            simp only [ConnInfo.render, joinWith, List.map_cons, List.intercalate_cons_cons,
              List.mem_append, List.mem_cons, List.not_mem_nil, or_false] at here ⊢
            rw [here]
            simp [blank.1]
      rw [shape, others]
      simp

theorem settings_plain {c : Char} (ends : breaks c = true) (host port : Str)
    (replication : ConnectionParams) (applicationName : Str) :
    ∀ setting ∈ settings host port replication applicationName, c ∉ setting.1 := by
  have keywords : ∀ keyword ∈ ["host".toList, "port".toList, "user".toList, "password".toList,
      "application_name".toList], keyword.any breaks = false := by
    decide
  intro setting mem inside
  have keyword : setting.1 ∈ ["host".toList, "port".toList, "user".toList, "password".toList,
      "application_name".toList] := by
    simp only [settings, List.mem_append, List.mem_cons, List.not_mem_nil, or_false, List.mem_map]
      at mem ⊢
    rcases mem with ((rfl | rfl | rfl) | ⟨password, _, rfl⟩) | rfl <;> simp
  exact List.any_eq_false.mp (keywords _ keyword) c inside ends

/-! ### The rewrite -/

/-- What a rewrite of `existing` is for. -/
structure Rewritten (existing conninfo : Str) (settings : List (Str × Str)) : Prop where
  /-- The kept lines stand in order before the lines written for an empty file. -/
  keeps : fileLines (rewriteAutoConf existing (some conninfo)) =
    keptLines existing ++ fileLines (rewriteAutoConf [] (some conninfo))
  /-- PostgreSQL reads one setting, and its value is the connection string. -/
  setting : ∃ line,
    (fileLines (rewriteAutoConf existing (some conninfo))).filter setsConninfo = [line] ∧
      settingValue line = some conninfo
  /-- libpq reads the settings back. -/
  parsed : ConnInfo.parse conninfo = some settings
  /-- A later connection string leaves no trace of this one. -/
  again : ∀ other, rewriteAutoConf (rewriteAutoConf existing (some conninfo)) (some other) =
    rewriteAutoConf existing (some other)
  /-- Without a connection string only the timeline setting remains. -/
  removed : rewriteAutoConf (rewriteAutoConf existing (some conninfo)) none =
    joinLines (keptLines existing ++ [latestLine])

/-- The texts that a rewrite can write and read again: no value ends the literal early, and no
kept line loses a carriage return. -/
structure Writable (existing : Str) (settings : List (Str × Str)) : Prop where
  values : ∀ setting ∈ settings, ∀ c ∈ setting.2, breaks c = false
  returns : ∀ line ∈ keptLines existing, line.getLast? ≠ some '\r'

theorem any_breaks_iff {conninfo host port applicationName : Str} {replication : ConnectionParams}
    (rendered : conninfo = ConnInfo.render (settings host port replication applicationName)) :
    conninfo.any breaks = false ↔
      ∀ setting ∈ settings host port replication applicationName, ∀ c ∈ setting.2,
        breaks c = false := by
  rw [List.any_eq_false]
  constructor
  · intro plain setting mem c inside
    by_contra ends
    rw [Bool.not_eq_false] at ends
    refine plain c ?_ ends
    rw [rendered]
    exact (mem_render ends (settings_plain ends _ _ _ _)).mpr ⟨setting, mem, inside⟩
  · intro plain c mem ends
    rw [rendered] at mem
    obtain ⟨setting, inside, letter⟩ := (mem_render ends (settings_plain ends _ _ _ _)).mp mem
    rw [plain setting inside c letter] at ends
    cases ends

/-- The one setting in the file has a value only if nothing in the connection string ends the
literal. -/
theorem setting_iff (existing conninfo : Str) :
    (∃ line, (fileLines (rewriteAutoConf existing (some conninfo))).filter setsConninfo =
      [line] ∧
      settingValue line = some conninfo) ↔ conninfo.any breaks = false := by
  rw [filter_rewrite]
  constructor
  · rintro ⟨line, only, value⟩
    by_cases feed : '\n' ∈ conninfo
    · obtain ⟨front, back, rfl, whole⟩ := List.eq_append_cons_of_mem feed
      obtain ⟨others, cut⟩ := filter_cut whole back
      rw [only] at cut
      rw [(List.cons.inj cut).1, settingValue_cut] at value
      cases value
    · rw [filter_own feed] at only
      rw [← (List.cons.inj only).1, settingValue_settingLine] at value
      cases ends : conninfo.any breaks with
      | false => rfl
      | true =>
          rw [ends] at value
          cases value
  · intro plain
    have feed : '\n' ∉ conninfo := by
      intro inside
      exact List.any_eq_false.mp plain _ inside rfl
    refine ⟨_, filter_own feed, ?_⟩
    rw [settingValue_settingLine, plain]
    rfl

/-- A second rewrite of the file keeps its lines as they are exactly if none ends with a
carriage return. -/
theorem keptLines_again {existing conninfo : Str} (whole : '\n' ∉ conninfo) :
    keptLines (rewriteAutoConf existing (some conninfo)) =
      (keptLines existing).map (stripSuffix '\r') := by
  rw [keptLines, kept_rewrite existing whole true]
  exact List.append_nil _

theorem map_stripSuffix_iff (kept : List Str) :
    kept.map (stripSuffix '\r') = kept ↔ ∀ line ∈ kept, line.getLast? ≠ some '\r' := by
  constructor
  · intro same line mem
    rw [← getLast?_stripSuffix]
    have each : ∀ line ∈ kept, stripSuffix '\r' line = id line :=
      List.map_inj_left.mp (same.trans (List.map_id _).symm)
    exact each line mem
  · intro plain
    exact (List.map_congr_left fun line mem =>
      (getLast?_stripSuffix '\r' line).mpr (plain line mem)).trans (List.map_id _)

theorem mem_stripped_whole {existing : Str} :
    ∀ line ∈ (keptLines existing).map (stripSuffix '\r'), '\n' ∉ line := by
  intro line mem
  obtain ⟨raw, kept, rfl⟩ := List.mem_map.mp mem
  exact fun feed => keptLines_whole existing raw kept (stripSuffix_subset feed)

/-- A rewrite does all it is for exactly on writable texts. -/
theorem rewritten_iff_writable (existing connUrl applicationName conninfo host port : Str)
    (replication : ConnectionParams) (upstream : connUrlHostPort connUrl = some (host, port))
    (built : buildPrimaryConninfo connUrl replication applicationName = some conninfo) :
    Rewritten existing conninfo (settings host port replication applicationName) ↔
      Writable existing (settings host port replication applicationName) := by
  obtain ⟨ownHost, ownPort, found, rendered⟩ := buildPrimaryConninfo_some built
  obtain ⟨rfl, rfl⟩ := Prod.mk.inj (Option.some.inj (upstream.symm.trans found))
  constructor
  · intro rewritten
    have plain := (setting_iff existing conninfo).mp rewritten.setting
    have feed : '\n' ∉ conninfo := fun inside => List.any_eq_false.mp plain _ inside rfl
    constructor
    · exact (any_breaks_iff rendered).mp plain
    · have again := rewritten.again conninfo
      rw [rewrite_some (rewriteAutoConf _ _), rewrite_some existing conninfo,
        List.append_cancel_right_eq, ← rewrite_some, keptLines_again feed] at again
      exact (map_stripSuffix_iff _).mp
        (joinLines_injective mem_stripped_whole (keptLines_whole existing) again)
  · intro writable
    have plain := (any_breaks_iff rendered).mpr writable.values
    have feed : '\n' ∉ conninfo := fun inside => List.any_eq_false.mp plain _ inside rfl
    have same := (map_stripSuffix_iff _).mpr writable.returns
    constructor
    · rw [rewrite_some, rewrite_some [], fileLines_join (keptLines_whole existing)]
      rfl
    · exact (setting_iff existing conninfo).mpr plain
    · rw [rendered]
      exact ConnInfo.parse_render _ (settings_keywords _ _ _ _)
    · intro other
      rw [rewrite_some _ other, keptLines_again feed, same, ← rewrite_some]
    · have kept := kept_rewrite existing feed false
      rw [same] at kept
      exact congrArg joinLines kept

theorem rewritten_iff_writable_quoted :
    Rewritten "port = 5432\nprimary_conninfo = 'host=old'\n".toList
        "host=n1 port=5433 user='a b' password='it\\'s' application_name=n2".toList
        (settings "n1".toList "5433".toList ⟨"a b".toList, some "it's".toList, []⟩
          "n2".toList) ↔
      Writable "port = 5432\nprimary_conninfo = 'host=old'\n".toList
        (settings "n1".toList "5433".toList ⟨"a b".toList, some "it's".toList, []⟩
          "n2".toList) :=
  rewritten_iff_writable _ "host=n1 port=5433".toList _ _ _ _ _ (by decide) (by decide)

/-- A password with a line feed: PostgreSQL reads no value, and taking the setting away leaves
the rest of the password in the file. -/
theorem password_line_cuts_setting :
    ∃ conninfo,
      buildPrimaryConninfo "host=n1".toList ⟨"u".toList, some "a\nb".toList, []⟩ "n2".toList =
        some conninfo ∧
      ¬ Rewritten [] conninfo
        (settings "n1".toList "5432".toList ⟨"u".toList, some "a\nb".toList, []⟩
          "n2".toList) ∧
      rewriteAutoConf (rewriteAutoConf [] (some conninfo)) none =
        "b'' application_name=n2'\nrecovery_target_timeline = 'latest'\n".toList := by
  refine ⟨"host=n1 port=5432 user=u password='a\nb' application_name=n2".toList,
    by decide, ?_, ?_⟩
  · intro rewritten
    have plain := (setting_iff _ _).mp rewritten.setting
    exact absurd plain (by decide)
  · decide +kernel

end PgHa.StandbyConfig
