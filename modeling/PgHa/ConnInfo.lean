import PgHa.Text

/-!
libpq connection strings: how `conninfo_parse` reads one, and how a value is quoted for it.
-/

namespace PgHa.ConnInfo

open Text

/-- `isspace` of the C locale. -/
def isSpace (c : Char) : Bool :=
  let n := c.toNat
  (9 ≤ n && n ≤ 13) || n == 32

/-- Where `conninfo_parse` stands: before a name, in it, before and after the `=`, and in a
value, where a backslash may be open. -/
inductive Reader where
  | blank
  | name (text : Str)
  | named (name : Str)
  | value (name : Str)
  | plain (name text : Str)
  | plainEscape (name text : Str)
  | quoted (name text : Str)
  | quotedEscape (name text : Str)

def parseFrom : Reader → Str → Option (List (Str × Str))
  | .blank, [] => some []
  | .name _, [] => none
  | .named _, [] => none
  | .value name, [] => some [(name, [])]
  | .plain name text, [] => some [(name, text)]
  | .plainEscape name text, [] => some [(name, text)]
  | .quoted _ _, [] => none
  | .quotedEscape _ _, [] => none
  | .blank, c :: rest =>
      if isSpace c then parseFrom .blank rest
      else if c = '=' then parseFrom (.value []) rest
      else parseFrom (.name [c]) rest
  | .name text, c :: rest =>
      if c = '=' then parseFrom (.value text) rest
      else if isSpace c then parseFrom (.named text) rest
      else parseFrom (.name (text ++ [c])) rest
  | .named name, c :: rest =>
      if isSpace c then parseFrom (.named name) rest
      else if c = '=' then parseFrom (.value name) rest
      else none
  | .value name, c :: rest =>
      if isSpace c then parseFrom (.value name) rest
      else if c = '\'' then parseFrom (.quoted name []) rest
      else if c = '\\' then parseFrom (.plainEscape name []) rest
      else parseFrom (.plain name [c]) rest
  | .plain name text, c :: rest =>
      if isSpace c then (parseFrom .blank rest).map ((name, text) :: ·)
      else if c = '\\' then parseFrom (.plainEscape name text) rest
      else parseFrom (.plain name (text ++ [c])) rest
  | .plainEscape name text, c :: rest => parseFrom (.plain name (text ++ [c])) rest
  | .quoted name text, c :: rest =>
      if c = '\\' then parseFrom (.quotedEscape name text) rest
      else if c = '\'' then (parseFrom .blank rest).map ((name, text) :: ·)
      else parseFrom (.quoted name (text ++ [c])) rest
  | .quotedEscape name text, c :: rest => parseFrom (.quoted name (text ++ [c])) rest

/-- The settings of a connection string, in order. -/
def parse (conninfo : Str) : Option (List (Str × Str)) := parseFrom .blank conninfo

/-- A backslash before every quote and backslash. -/
def escape (value : Str) : Str :=
  value.flatMap fun c => if c = '\\' ∨ c = '\'' then ['\\', c] else [c]

def needsQuotes (value : Str) : Bool :=
  value.isEmpty || value.any fun c => isWhitespace c || c == '\'' || c == '\\'

def quote (value : Str) : Str :=
  if needsQuotes value then '\'' :: (escape value ++ ['\'']) else value

/-- A character that needs no escape stands in the quoted text where it stands in the value. -/
theorem mem_quoted {c : Char} (slash : c ≠ '\\') (mark : c ≠ '\'') {value : Str} :
    c ∈ '\'' :: (escape value ++ ['\'']) ↔ c ∈ value := by
  simp only [List.mem_cons, List.mem_append, List.not_mem_nil, or_false, mark, false_or, escape,
    List.mem_flatMap]
  constructor
  · rintro ⟨letter, inside, among⟩
    split at among
    · rcases List.mem_pair.mp among with escaped | same
      · exact absurd escaped slash
      · exact same ▸ inside
    · exact List.mem_singleton.mp among ▸ inside
  · intro inside
    refine ⟨c, inside, ?_⟩
    simp [slash, mark]

/-- Keywords and values, one blank between two settings. -/
def render (settings : List (Str × Str)) : Str :=
  joinWith ' ' (settings.map fun setting => setting.1 ++ '=' :: quote setting.2)

/-- A keyword of libpq. -/
structure Keyword (name : Str) : Prop where
  filled : name ≠ []
  noBlank : ∀ c ∈ name, isSpace c = false
  noEquals : '=' ∉ name

instance (name : Str) : Decidable (Keyword name) :=
  decidable_of_iff (name ≠ [] ∧ name.any isSpace = false ∧ '=' ∉ name) (by
    constructor
    · rintro ⟨filled, noBlank, noEquals⟩
      exact ⟨filled, fun c mem => by simpa using List.any_eq_false.mp noBlank c mem, noEquals⟩
    · rintro ⟨filled, noBlank, noEquals⟩
      exact ⟨filled, List.any_eq_false.mpr fun c mem => by simp [noBlank c mem], noEquals⟩)

theorem isSpace_whitespace {c : Char} (visible : isWhitespace c = false) : isSpace c = false := by
  simp only [isWhitespace, Bool.or_eq_false_iff] at visible
  simp only [isSpace, Bool.or_eq_false_iff]
  exact ⟨visible.1.1.1.1.1.1.1.1.1.1, visible.1.1.1.1.1.1.1.1.1.2⟩

/-! ### Reading what was written -/

theorem parse_escaped (name value read tail : Str) :
    parseFrom (.quoted name read) (escape value ++ tail) =
      parseFrom (.quoted name (read ++ value)) tail := by
  induction value generalizing read with
  | nil => simp [escape]
  | cons c rest ih =>
      by_cases special : c = '\\' ∨ c = '\''
      · simp only [escape, List.flatMap_cons, special, if_true, List.cons_append, List.nil_append]
        simp only [parseFrom, if_true]
        simpa [escape] using ih (read ++ [c])
      · simp only [escape, List.flatMap_cons, special, if_false, List.cons_append, List.nil_append]
        rw [not_or] at special
        simp only [parseFrom, special.1, special.2, if_false]
        simpa [escape] using ih (read ++ [c])

theorem parse_plain (name value read tail : Str)
    (plain : ∀ c ∈ value, isSpace c = false ∧ c ≠ '\\') :
    parseFrom (.plain name read) (value ++ tail) =
      parseFrom (.plain name (read ++ value)) tail := by
  induction value generalizing read with
  | nil => simp
  | cons c rest ih =>
      have here := plain c List.mem_cons_self
      rw [List.cons_append, parseFrom, if_neg (by simp [here.1]), if_neg here.2,
        ih _ fun other mem => plain other (List.mem_cons_of_mem _ mem)]
      simp

theorem parse_name (name read tail : Str) (noBlank : ∀ c ∈ name, isSpace c = false)
    (noEquals : '=' ∉ name) :
    parseFrom (.name read) (name ++ tail) = parseFrom (.name (read ++ name)) tail := by
  induction name generalizing read with
  | nil => simp
  | cons c rest ih =>
      have visible := noBlank c List.mem_cons_self
      rw [List.mem_cons, not_or] at noEquals
      rw [List.cons_append, parseFrom, if_neg (Ne.symm noEquals.1), if_neg (by simp [visible]),
        ih _ (fun other mem => noBlank other (List.mem_cons_of_mem _ mem)) noEquals.2]
      simp

theorem parse_keyword {name : Str} (keyword : Keyword name) (tail : Str) :
    parseFrom .blank (name ++ '=' :: tail) = parseFrom (.value name) tail := by
  obtain ⟨filled, noBlank, noEquals⟩ := keyword
  cases name with
  | nil => exact absurd rfl filled
  | cons c rest =>
      have visible := noBlank c List.mem_cons_self
      rw [List.mem_cons, not_or] at noEquals
      rw [List.cons_append, parseFrom, if_neg (by simp [visible]), if_neg (Ne.symm noEquals.1),
        parse_name rest [c] _ (fun other mem => noBlank other (List.mem_cons_of_mem _ mem))
          noEquals.2,
        parseFrom, if_pos rfl]
      rfl

/-- A value ends with the string or at a blank. -/
theorem parse_value (name value : Str) {tail : Str}
    (ends : tail = [] ∨ ∃ rest, tail = ' ' :: rest) :
    parseFrom (.value name) (quote value ++ tail) =
      (parseFrom .blank tail).map ((name, value) :: ·) := by
  unfold quote
  cases quotes : needsQuotes value with
  | true =>
      have opened : parseFrom (.value name) ('\'' :: (escape value ++ '\'' :: tail)) =
          parseFrom (.quoted name []) (escape value ++ '\'' :: tail) := rfl
      have closed : parseFrom (.quoted name value) ('\'' :: tail) =
          (parseFrom .blank tail).map ((name, value) :: ·) := rfl
      simp only [if_true, List.cons_append, List.append_assoc, List.nil_append]
      rw [opened, parse_escaped, List.nil_append, closed]
  | false =>
      simp only [needsQuotes, Bool.or_eq_false_iff, List.any_eq_false, Bool.or_eq_true, not_or,
        Bool.not_eq_true, beq_eq_false_iff_ne] at quotes
      obtain ⟨filled, plain⟩ := quotes
      cases value with
      | nil => cases filled
      | cons c rest =>
          have here := plain c List.mem_cons_self
          have whole : parseFrom (.value name) (c :: rest ++ tail) =
              parseFrom (.plain name (c :: rest)) tail := by
            rw [List.cons_append, parseFrom, if_neg (by simp [isSpace_whitespace here.1.1]),
              if_neg here.1.2, if_neg here.2, parse_plain name rest]
            · rfl
            · intro other mem
              have there := plain other (List.mem_cons_of_mem _ mem)
              exact ⟨isSpace_whitespace there.1.1, there.2⟩
          simp only [Bool.false_eq_true, if_false]
          rw [whole]
          rcases ends with rfl | ⟨more, rfl⟩
          · rfl
          · rfl

/-- Every value is read back as it was. -/
theorem parse_render (settings : List (Str × Str))
    (keywords : ∀ setting ∈ settings, Keyword setting.1) :
    parse (render settings) = some settings := by
  induction settings with
  | nil => rfl
  | cons setting rest ih =>
      have keyword := keywords setting List.mem_cons_self
      have others := ih fun other mem => keywords other (List.mem_cons_of_mem _ mem)
      cases rest with
      | nil =>
          have read := parse_value setting.1 setting.2 (.inl rfl)
          rw [List.append_nil] at read
          simp only [render, joinWith, List.map_cons, List.map_nil, List.intercalate_singleton]
          rw [parse, parse_keyword keyword, read]
          rfl
      | cons next more =>
          simp only [render, joinWith, List.map_cons, List.intercalate_cons_cons, List.append_assoc,
            List.cons_append, List.nil_append] at others ⊢
          rw [parse, parse_keyword keyword, parse_value _ _ (.inr ⟨_, rfl⟩)]
          have blank : ∀ tail, parseFrom .blank (' ' :: tail) = parse tail := fun _ => rfl
          rw [blank, others]
          rfl

end PgHa.ConnInfo
