import Mathlib.Data.List.Infix
import PgHa.Upstream

/-!
`Bootstrap::write_pg_config`: the settings pg-ha manages stand in a block at the end of
`postgresql.conf`, and a block that is there is cut off with all that follows it.
-/

namespace PgHa.ManagedBlock

open Text TextLines ConfFile
open Upstream (trimMatches)

/-! ### The text before a pattern -/

/-- `split(pattern).next()`: the text before the first match, or all of it. -/
def upTo (pattern : Str) : Str → Str
  | [] => []
  | c :: rest => if pattern <+: c :: rest then [] else c :: upTo pattern rest

theorem upTo_prefix (pattern text : Str) : upTo pattern text <+: text := by
  induction text with
  | nil => exact List.prefix_rfl
  | cons c rest ih =>
      rw [upTo]
      split
      · exact List.nil_prefix
      · exact List.cons_prefix_cons.mpr ⟨rfl, ih⟩

theorem upTo_absent {pattern : Str} (filled : pattern ≠ []) (text : Str) :
    ¬pattern <:+: upTo pattern text := by
  induction text with
  | nil => simpa [upTo] using filled
  | cons c rest ih =>
      rw [upTo]
      split
      · simpa using filled
      · rename_i starts
        rw [List.infix_cons_iff]
        rintro (here | later)
        · exact starts (here.trans (List.cons_prefix_cons.mpr ⟨rfl, upTo_prefix pattern rest⟩))
        · exact ih later

/-- A pattern within a line is found behind a text that has it not, once a line feed stands
between the two. -/
theorem upTo_append {pattern front : Str} (line : '\n' ∉ pattern) (filled : pattern ≠ [])
    (absent : ¬pattern <:+: front) (back : Str) :
    upTo pattern (front ++ '\n' :: (pattern ++ back)) = front ++ ['\n'] := by
  have feed (rest : Str) : ¬pattern <+: '\n' :: rest := by
    cases pattern with
    | nil => exact absurd rfl filled
    | cons first more =>
        intro starts
        have same := (List.cons_prefix_cons.mp starts).1
        exact line (same ▸ List.mem_cons_self)
  induction front with
  | nil =>
      rw [List.nil_append, upTo, if_neg (feed _)]
      cases pattern with
      | nil => exact absurd rfl filled
      | cons first more =>
          rw [List.cons_append, upTo, if_pos]
          · rfl
          · rw [← List.cons_append]
            exact List.prefix_append _ _
  | cons c rest ih =>
      rw [List.infix_cons_iff, not_or] at absent
      have starts : ¬pattern <+: c :: (rest ++ '\n' :: (pattern ++ back)) := by
        intro starts
        have whole : (c :: rest) ++ ['\n'] <+: c :: (rest ++ '\n' :: (pattern ++ back)) :=
          ⟨pattern ++ back, by simp⟩
        rcases List.prefix_or_prefix_of_prefix starts whole with within | across
        · rcases List.prefix_concat_iff.mp within with same | inside
          · exact line (same ▸ by simp)
          · exact absent.1 inside
        · exact line (across.subset (by simp))
      rw [List.cons_append, upTo, if_neg starts, ih absent.2]
      rfl

/-! ### `write_pg_config` -/

/-- What `parse::<f64>` takes: digits with at most one point and an exponent, or one of three
words. -/
def isDigits (text : Str) : Bool := !text.isEmpty && text.all Char.isDigit

def stripSign : Str → Str
  | '+' :: rest => rest
  | '-' :: rest => rest
  | text => text

def isMantissa (text : Str) : Bool :=
  let whole := text.takeWhile Char.isDigit
  match text.dropWhile Char.isDigit with
  | [] => !whole.isEmpty
  | '.' :: fraction => fraction.all Char.isDigit && !(whole.isEmpty && fraction.isEmpty)
  | _ => false

def parsesF64 (text : Str) : Bool :=
  let body := toAsciiLowercase (stripSign text)
  body == "inf".toList || body == "infinity".toList || body == "nan".toList ||
    match body.dropWhile (· != 'e') with
    | [] => isMantissa body
    | _ :: exponent => isMantissa (body.takeWhile (· != 'e')) && isDigits (stripSign exponent)

structure PgSettings where
  listen : Str
  port : Nat
  parameters : List (Str × Str)

def builtinKeys : List Str :=
  ["listen_addresses".toList, "port".toList, "wal_level".toList, "max_wal_senders".toList,
    "max_replication_slots".toList, "hot_standby".toList]

def plainWords : List Str :=
  ["on".toList, "off".toList, "true".toList, "false".toList, "yes".toList, "no".toList]

def parameterLine (key value : Str) : Str :=
  let clean := trimMatches '"' (trimMatches '\'' value)
  let needsQuoting := !parsesF64 clean && !plainWords.contains clean
  if needsQuoting then key ++ " = '".toList ++ clean ++ "'".toList else key ++ " = ".toList ++ clean

def marker : Str := "# pg-ha managed settings".toList

/-- The keys of the block and their lines. -/
def managedSettings (config : PgSettings) : List (Str × Str) :=
  [("listen_addresses".toList, "listen_addresses = '".toList ++ config.listen ++ "'".toList),
    ("port".toList, "port = ".toList ++ Nat.toDigits 10 config.port),
    ("wal_level".toList, "wal_level = replica".toList),
    ("max_wal_senders".toList, "max_wal_senders = 10".toList),
    ("max_replication_slots".toList, "max_replication_slots = 10".toList),
    ("hot_standby".toList, "hot_standby = on".toList)] ++
  (config.parameters.filter fun (key, _) => !builtinKeys.contains key).map fun (key, value) =>
    (key, parameterLine key value)

def managedBlock (config : PgSettings) : Str :=
  joinLines (marker :: (managedSettings config).map fun setting => setting.2)

def cleaned (existing : Str) : Str :=
  if marker <:+: existing then upTo marker existing else existing

def trimEnd (text : Str) : Str := text.rdropWhile isWhitespace

def writePgConfig (config : PgSettings) (existing : Str) : Str :=
  trimEnd (cleaned existing) ++ '\n' :: managedBlock config

/-- What was not written by pg-ha. -/
def userText (existing : Str) : Str := trimEnd (cleaned existing)

theorem userText_absent (existing : Str) : ¬marker <:+: userText existing := by
  have absent : ¬marker <:+: cleaned existing := by
    unfold cleaned
    split
    · exact upTo_absent (by decide) existing
    · assumption
  exact fun inside => absent (inside.trans (List.rdropWhile_prefix _ _).isInfix)

theorem trimEnd_feed (text : Str) : trimEnd (trimEnd text ++ ['\n']) = trimEnd text := by
  rw [trimEnd, List.rdropWhile_concat_pos _ _ _ (by decide)]
  exact List.rdropWhile_idempotent _ _

theorem managedBlock_eq (config : PgSettings) : managedBlock config = marker ++
    '\n' :: joinLines ((managedSettings config).map fun setting => setting.2) := by
  simp [managedBlock, joinLines]

/-- The text of the user is what it was. -/
theorem userText_written (config : PgSettings) (existing : Str) :
    userText (writePgConfig config existing) = userText existing := by
  have shape : writePgConfig config existing = userText existing ++ '\n' :: (marker ++
      '\n' :: joinLines ((managedSettings config).map fun setting => setting.2)) := by
    rw [← managedBlock_eq]
    rfl
  have here : marker <:+: writePgConfig config existing := by
    rw [shape]
    refine ⟨userText existing ++ ['\n'],
      '\n' :: joinLines ((managedSettings config).map fun setting => setting.2), ?_⟩
    rw [List.append_assoc, List.append_assoc]
    rfl
  have cut : cleaned (writePgConfig config existing) = userText existing ++ ['\n'] := by
    rw [cleaned, if_pos here, shape]
    exact upTo_append (by decide) (by decide) (userText_absent existing) _
  rw [userText, cut]
  exact trimEnd_feed _

/-! ### The line of a setting -/

def names (key line : Str) : Bool := eqIgnoreAsciiCase (settingName line) key

/-- The line that counts: the last one with the name of the setting. -/
def lastLine (key file : Str) : Option Str := ((fileLines file).filter (names key)).getLast?

theorem splitLines_feed (front back : Str) : splitLines (front ++ '\n' :: back) =
    ((splitLines front).1 ++ (splitLines front).2 :: (splitLines back).1, (splitLines back).2) := by
  induction front with
  | nil => simp [splitLines]
  | cons c rest ih =>
      rw [List.cons_append, splitLines, ih, splitLines]
      by_cases feed : c = '\n'
      · simp [feed]
      · cases ended : (splitLines rest).1 with
        | nil => simp [feed, ended]
        | cons first others => simp [feed, ended]

theorem lastLine_append {key : Str} (filled : key ≠ []) (front back : Str) :
    lastLine key (front ++ '\n' :: back) = (lastLine key back).or (lastLine key front) := by
  have blank : names key [] = false := by
    cases key with
    | nil => exact absurd rfl filled
    | cons => rfl
  have own : (fileLines front).filter (names key) =
      (splitLines front).1.filter (names key) ++ [(splitLines front).2].filter (names key) := by
    rw [fileLines, List.filter_append]
    cases (splitLines front).2 with
    | nil => simp [blank]
    | cons => rfl
  have joined : fileLines (front ++ '\n' :: back) =
      (splitLines front).1 ++ ([(splitLines front).2] ++ fileLines back) := by
    simp [fileLines, splitLines_feed]
  have lines : (fileLines (front ++ '\n' :: back)).filter (names key) =
      (fileLines front).filter (names key) ++ (fileLines back).filter (names key) := by
    rw [joined, own, List.filter_append, List.filter_append, List.append_assoc]
  rw [lastLine, lines, List.getLast?_append]
  rfl

theorem settingName_line {key : Str} (filled : key ≠ []) (word : key.all isNameChar = true)
    (rest : Str) :
    settingName (key ++ ' ' :: rest) = key := by
  cases key with
  | nil => exact absurd rfl filled
  | cons first more =>
      have visible : isBlank first = false := by
        have letter := List.all_eq_true.mp word first List.mem_cons_self
        by_contra blank
        simp only [Bool.not_eq_false, isBlank, Bool.or_eq_true, beq_iff_eq] at blank
        rcases blank with (rfl | rfl) | rfl <;> exact absurd letter (by decide)
      rw [settingName, List.cons_append, List.dropWhile_cons_of_neg (by simp [visible]),
        ← List.cons_append,
        List.takeWhile_append_of_pos (List.all_eq_true.mp word)]
      simp [show isNameChar ' ' = false from by decide]

/-- Settings whose lines stand for themselves in a file. -/
structure Separate (settings : List (Str × Str)) : Prop where
  distinct : settings.Pairwise fun first second => eqIgnoreAsciiCase first.1 second.1 = false
  named : ∀ setting ∈ settings, settingName setting.2 = setting.1
  whole : ∀ setting ∈ settings, '\n' ∉ setting.2

theorem find_of_distinct {settings : List (Str × Str)}
    (distinct : settings.Pairwise fun first second => eqIgnoreAsciiCase first.1 second.1 = false)
    (key : Str) :
    (settings.filter fun setting => eqIgnoreAsciiCase setting.1 key).getLast? =
      settings.find? fun setting => eqIgnoreAsciiCase setting.1 key := by
  induction settings with
  | nil => rfl
  | cons setting rest ih =>
      obtain ⟨apart, inner⟩ := List.pairwise_cons.mp distinct
      cases same : eqIgnoreAsciiCase setting.1 key with
      | false => simpa [same] using ih inner
      | true =>
          have others : (rest.filter fun later => eqIgnoreAsciiCase later.1 key) = [] := by
            rw [List.filter_eq_nil_iff]
            intro later inRest also
            have different := apart later inRest
            simp only [eqIgnoreAsciiCase, beq_iff_eq, beq_eq_false_iff_ne] at same also different
            exact different (same.trans also.symm)
          simp [same, others]

theorem lastLine_joinLines {settings : List (Str × Str)} (separate : Separate settings)
    (key : Str) :
    lastLine key (joinLines (settings.map fun setting => setting.2)) =
      (settings.find? fun setting => eqIgnoreAsciiCase setting.1 key).map fun setting =>
        setting.2 := by
  have whole : ∀ part ∈ settings.map fun setting => setting.2, '\n' ∉ part := by
    intro part inside
    obtain ⟨setting, mem, rfl⟩ := List.mem_map.mp inside
    exact separate.whole setting mem
  have lines := fileLines_join whole []
  rw [List.append_nil] at lines
  have named : (settings.filter fun setting => names key setting.2) =
      settings.filter fun setting => eqIgnoreAsciiCase setting.1 key := by
    refine List.filter_congr fun setting mem => ?_
    rw [names, separate.named setting mem]
  have none : fileLines [] = [] := rfl
  rw [lastLine, lines, none, List.append_nil, List.filter_map,
    ← find_of_distinct separate.distinct,
    List.getLast?_map]
  exact congrArg (fun kept => Option.map (fun setting => setting.2) kept.getLast?) named

/-- Settings that stand for themselves in the block. -/
structure Plain (config : PgSettings) : Prop where
  listen : '\n' ∉ config.listen
  keys : ∀ setting ∈ config.parameters, setting.1 ≠ [] ∧ setting.1.all isNameChar = true
  values : ∀ setting ∈ config.parameters, '\n' ∉ setting.2
  distinct : (managedSettings config).Pairwise fun first second =>
    eqIgnoreAsciiCase first.1 second.1 = false

theorem parameterLine_eq (key value : Str) : ∃ rest,
    parameterLine key value = key ++ ' ' :: rest ∧
    ('\n' ∉ value → '\n' ∉ rest) := by
  have clean : '\n' ∉ value → '\n' ∉ trimMatches '"' (trimMatches '\'' value) := by
    intro plain feed
    have inner := (List.dropWhile_suffix _).subset ((List.rdropWhile_prefix _ _).subset feed)
    exact plain ((List.dropWhile_suffix _).subset ((List.rdropWhile_prefix _ _).subset inner))
  unfold parameterLine
  dsimp only
  split
  · refine ⟨"= '".toList ++ trimMatches '"' (trimMatches '\'' value) ++ "'".toList, ?_, ?_⟩
    · simp
    · intro plain
      simp [clean plain]
  · refine ⟨"= ".toList ++ trimMatches '"' (trimMatches '\'' value), ?_, ?_⟩
    · simp
    · intro plain
      simp [clean plain]

theorem builtin_words : ∀ key ∈ builtinKeys, key ≠ [] ∧
    key.all isNameChar = true := by decide

theorem builtin_shape {config : PgSettings} (listen : '\n' ∉ config.listen) :
    ∀ setting ∈ [("listen_addresses".toList, "listen_addresses = '".toList ++ config.listen ++
      "'".toList),
      ("port".toList, "port = ".toList ++ Nat.toDigits 10 config.port),
      ("wal_level".toList, "wal_level = replica".toList),
      ("max_wal_senders".toList, "max_wal_senders = 10".toList),
      ("max_replication_slots".toList, "max_replication_slots = 10".toList),
      ("hot_standby".toList, "hot_standby = on".toList)],
      ∃ rest, setting.2 = setting.1 ++ ' ' :: rest ∧ '\n' ∉ rest ∧ setting.1 ≠ [] ∧
        setting.1.all isNameChar = true := by
  have digits : '\n' ∉ Nat.toDigits 10 config.port := by
    intro feed
    have digit := Nat.isDigit_of_mem_toDigits (by decide) (by decide) feed
    revert digit
    decide
  intro setting mem
  simp only [List.mem_cons, List.not_mem_nil, or_false] at mem
  rcases mem with rfl | rfl | rfl | rfl | rfl | rfl
  · exact ⟨"= '".toList ++ config.listen ++ "'".toList, rfl, by simp [listen],
      builtin_words "listen_addresses".toList (by decide)⟩
  · exact ⟨"= ".toList ++ Nat.toDigits 10 config.port, rfl, by simp [digits],
      builtin_words "port".toList (by decide)⟩
  · exact ⟨"= replica".toList, rfl, by simp, builtin_words _ (by decide)⟩
  · exact ⟨"= 10".toList, rfl, by simp, builtin_words _ (by decide)⟩
  · exact ⟨"= 10".toList, rfl, by simp, builtin_words _ (by decide)⟩
  · exact ⟨"= on".toList, rfl, by simp, builtin_words _ (by decide)⟩

theorem separate_managed {config : PgSettings} (plain : Plain config) :
    Separate (managedSettings config) := by
  have shape : ∀ setting ∈ managedSettings config, ∃ rest,
      setting.2 = setting.1 ++ ' ' :: rest ∧
      '\n' ∉ rest ∧ setting.1 ≠ [] ∧ setting.1.all isNameChar = true := by
    intro setting mem
    rcases List.mem_append.mp mem with builtin | parameter
    · exact builtin_shape plain.listen setting builtin
    · obtain ⟨⟨key, value⟩, kept, rfl⟩ := List.mem_map.mp parameter
      have given := List.mem_of_mem_filter kept
      obtain ⟨rest, line, whole⟩ := parameterLine_eq key value
      exact ⟨rest, line, whole (plain.values (key, value) given), plain.keys (key, value) given⟩
  constructor
  · exact plain.distinct
  · intro setting mem
    obtain ⟨rest, line, _, filled, word⟩ := shape setting mem
    rw [line]
    exact settingName_line filled word rest
  · intro setting mem
    obtain ⟨rest, line, whole, _, word⟩ := shape setting mem
    rw [line]
    intro feed
    rcases List.mem_append.mp feed with inKey | later
    · exact absurd (List.all_eq_true.mp word _ inKey) (by decide)
    · simp [whole] at later

/-- A clone's file comes with the block of the node that it was copied from. -/
def sourceSettings : PgSettings :=
  ⟨"0.0.0.0".toList, 5432, [("shared_buffers".toList, "'1GB'".toList)]⟩

def cloneSettings : PgSettings := ⟨"0.0.0.0".toList, 5433, [("port".toList, "1".toList)]⟩

end PgHa.ManagedBlock
