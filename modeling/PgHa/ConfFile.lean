import PgHa.TextLines

/-!
A PostgreSQL configuration file: its lines, the setting on a line, and how a value is
quoted for it.
-/

namespace PgHa.ConfFile

open Text TextLines

/-! ### Lines -/

/-- A file is read line by line; the last line may have no line feed. -/
def fileLines (text : Str) : List Str :=
  (splitLines text).1 ++ if (splitLines text).2.isEmpty then [] else [(splitLines text).2]

def joinLines (parts : List Str) : Str := parts.flatMap fun part => part ++ ['\n']

theorem splitLines_line {line : Str} (whole : '\n' ∉ line) (rest : Str) :
    splitLines (line ++ '\n' :: rest) = (line :: (splitLines rest).1, (splitLines rest).2) := by
  induction line with
  | nil => simp [splitLines]
  | cons c more ih =>
      rw [List.mem_cons, not_or] at whole
      rw [List.cons_append, splitLines, ih whole.2]
      simp [Ne.symm whole.1]

theorem splitLines_open {line : Str} (whole : '\n' ∉ line) : splitLines line = ([], line) := by
  induction line with
  | nil => rfl
  | cons c more ih =>
      rw [List.mem_cons, not_or] at whole
      rw [splitLines, ih whole.2]
      simp [Ne.symm whole.1]

theorem splitLines_join {parts : List Str} (whole : ∀ part ∈ parts, '\n' ∉ part)
    (rest : Str) :
    splitLines (joinLines parts ++ rest) = (parts ++ (splitLines rest).1, (splitLines rest).2) := by
  induction parts with
  | nil => rfl
  | cons part more ih =>
      have others := ih fun other mem => whole other (List.mem_cons_of_mem _ mem)
      have shape : joinLines (part :: more) ++ rest = part ++ '\n' :: (joinLines more ++ rest) := by
        simp [joinLines]
      rw [shape, splitLines_line (whole part List.mem_cons_self), others]
      rfl

theorem fileLines_join {parts : List Str} (whole : ∀ part ∈ parts, '\n' ∉ part) (rest : Str) :
    fileLines (joinLines parts ++ rest) = parts ++ fileLines rest := by
  simp only [fileLines, splitLines_join whole, List.append_assoc]

theorem lines_join {parts : List Str} (whole : ∀ part ∈ parts, '\n' ∉ part) (rest : Str) :
    lines (joinLines parts ++ rest) = parts.map (stripSuffix '\r') ++ lines rest := by
  simp only [lines, splitLines_join whole, List.map_append, List.append_assoc]

theorem joinLines_injective {first second : List Str} (whole : ∀ part ∈ first, '\n' ∉ part)
    (others : ∀ part ∈ second, '\n' ∉ part) (same : joinLines first = joinLines second) :
    first = second := by
  have left := splitLines_join whole []
  have right := splitLines_join others []
  rw [same, right] at left
  simpa [splitLines] using (congrArg Prod.fst left).symm

theorem splitLines_whole (text : Str) :
    (∀ line ∈ (splitLines text).1, '\n' ∉ line) ∧ '\n' ∉ (splitLines text).2 := by
  induction text with
  | nil => simp [splitLines]
  | cons c rest ih =>
      rw [splitLines]
      by_cases ends : c = '\n'
      · simpa [ends] using ih
      · cases ended : (splitLines rest).1 with
        | nil => simpa [ends, ended, Ne.symm ends] using ih.2
        | cons first others =>
            have each := ih.1
            rw [ended] at each
            simp only [ends, if_false, ended]
            constructor
            · intro line mem
              rcases List.mem_cons.mp mem with rfl | later
              · simpa [Ne.symm ends] using each first List.mem_cons_self
              · exact each line (List.mem_cons_of_mem _ later)
            · exact ih.2

theorem lines_whole {text line : Str} (mem : line ∈ lines text) : '\n' ∉ line := by
  have whole := splitLines_whole text
  rcases List.mem_append.mp mem with ended | last
  · obtain ⟨raw, inside, rfl⟩ := List.mem_map.mp ended
    exact fun feed => whole.1 raw inside (stripSuffix_subset feed)
  · split at last
    · cases last
    · rw [List.mem_singleton.mp last]
      exact whole.2

/-- A text without a line feed begins the first line. -/
theorem fileLines_front {front : Str} (filled : front ≠ []) (whole : '\n' ∉ front)
    (back : Str) :
    ∃ tail rest, fileLines (front ++ back) = (front ++ tail) :: rest := by
  by_cases feed : '\n' ∈ back
  · obtain ⟨tail, below, rfl, plain⟩ := List.eq_append_cons_of_mem feed
    have line : '\n' ∉ front ++ tail := by simp [whole, plain]
    rw [← List.append_assoc, fileLines, splitLines_line line]
    exact ⟨tail, _, rfl⟩
  · have line : '\n' ∉ front ++ back := by simp [whole, feed]
    rw [fileLines, splitLines_open line]
    exact ⟨back, [], by simp [filled]⟩

/-- A search that does not see a carriage return finds the same in both kinds of lines. -/
theorem findSome_lines {Found : Type} {find : Str → Option Found}
    (blind : ∀ line, find (stripSuffix '\r' line) = find line) (text : Str) :
    (lines text).findSome? find = (fileLines text).findSome? find := by
  have same : find ∘ stripSuffix '\r' = find := funext blind
  simp only [lines, fileLines, List.findSome?_append, List.findSome?_map, same]

/-! ### Settings -/

def isBlank (c : Char) : Bool := c == ' ' || c == '\t' || c == '\r'

def isNameChar (c : Char) : Bool := c.isAlphanum || c == '_' || c == '.' || 128 ≤ c.toNat

def settingName (line : Str) : Str := (line.dropWhile isBlank).takeWhile isNameChar

/-- The text after the name and a `=`, if there is one. -/
def valueText (line : Str) : Str :=
  let rest := ((line.dropWhile isBlank).dropWhile isNameChar).dropWhile isBlank
  (stripPrefix '=' rest).dropWhile isBlank

/-- The letter after a backslash. An octal number stands for a byte and not for a letter: no
text is read from it here. -/
def unescape (c : Char) : Option Char :=
  if c = 'b' then some '\x08'
  else if c = 'f' then some '\x0C'
  else if c = 'n' then some '\n'
  else if c = 'r' then some '\r'
  else if c = 't' then some '\t'
  else if '0' ≤ c ∧ c ≤ '7' then none
  else some c

inductive Literal where
  | plain
  | escaped
  | closed

/-- What a literal ends a file at. -/
def breaks (c : Char) : Bool := c == '\n' || c == '\x00'

/-- A literal after its opening quote: its value and the text after it. A quote closes it
unless another one follows. -/
def readLiteral : Literal → Str → Option (Str × Str)
  | .plain, [] => none
  | .escaped, [] => none
  | .closed, [] => some ([], [])
  | .plain, c :: rest =>
      if breaks c then none
      else if c = '\\' then readLiteral .escaped rest
      else if c = '\'' then readLiteral .closed rest
      else (readLiteral .plain rest).map fun read => (c :: read.1, read.2)
  | .escaped, c :: rest =>
      if breaks c then none
      else (unescape c).bind fun letter =>
        (readLiteral .plain rest).map fun read => (letter :: read.1, read.2)
  | .closed, c :: rest =>
      if c = '\'' then (readLiteral .plain rest).map fun read => (c :: read.1, read.2)
      else some ([], c :: rest)

/-- The value on a line. Only a comment may follow a literal. -/
def settingValue (line : Str) : Option Str :=
  match valueText line with
  | '\'' :: text =>
      match readLiteral .plain text with
      | some (value, rest) =>
          match rest.dropWhile isBlank with
          | [] => some value
          | c :: _ => if c = '#' then some value else none
      | none => none
  | text => some (text.takeWhile fun c => !isBlank c && c != '#')

/-! ### Quoting -/

def escape (value : Str) : Str :=
  value.flatMap fun c => if c = '\\' ∨ c = '\'' then [c, c] else [c]

def quote (value : Str) : Str := '\'' :: (escape value ++ ['\''])

theorem escape_append (front back : Str) : escape (front ++ back) = escape front ++
    escape back := by
  simp [escape]

theorem mem_escape {c : Char} {value : Str} : c ∈ escape value ↔ c ∈ value := by
  induction value with
  | nil => simp [escape]
  | cons head rest ih =>
      simp only [escape, List.flatMap_cons, List.mem_append, List.mem_cons] at ih ⊢
      rw [ih]
      split <;> simp

/-- A quoted text is read up to a character that breaks it. -/
theorem readLiteral_escape (value tail : Str) :
    readLiteral .plain (escape value ++ tail) =
      if value.any breaks then none
      else (readLiteral .plain tail).map fun read => (value ++ read.1, read.2) := by
  induction value with
  | nil =>
      simp only [escape, List.flatMap_nil, List.nil_append, List.any_nil,
        Bool.false_eq_true, if_false]
      cases readLiteral .plain tail <;> rfl
  | cons c rest ih =>
      have step : readLiteral .plain (escape (c :: rest) ++ tail) =
          if breaks c then none
          else (readLiteral .plain (escape rest ++ tail)).map fun read =>
            (c :: read.1, read.2) := by
        by_cases special : c = '\\' ∨ c = '\''
        · have pair : escape (c :: rest) = c :: c :: escape rest := by simp [escape, special]
          rw [pair]
          rcases special with rfl | rfl
          · rfl
          · rfl
        · have single : escape (c :: rest) = c :: escape rest := by simp [escape, special]
          rw [not_or] at special
          rw [single, List.cons_append, readLiteral, if_neg special.1, if_neg special.2]
      rw [step, ih, List.any_cons]
      cases breaks c with
      | true => rfl
      | false =>
          cases rest.any breaks with
          | true => rfl
          | false =>
              simp only [Bool.false_eq_true, if_false, Bool.or_self]
              cases readLiteral .plain tail <;> rfl

theorem settingValue_literal {line text : Str} (literal : valueText line = '\'' :: text)
    {value : Option Str} (read : readLiteral .plain text = value.map fun value => (value, [])) :
    settingValue line = value := by
  cases value with
  | none => simp [settingValue, literal, read]
  | some value => simp [settingValue, literal, read]

end PgHa.ConfFile
