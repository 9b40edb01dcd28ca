import Mathlib.Algebra.Group.Nat.Defs
import Mathlib.Data.List.DropRight
import Mathlib.Data.List.TakeWhile

/-!
Strings as lists of characters, with the operations of the Rust standard
library that name lists are read and written with: `trim`, `split`, `join`,
ASCII case folding, quotes doubled and undoubled.
-/

namespace PgHa.Text

abbrev Str := List Char

/-- `char::is_whitespace`: the Unicode property White_Space. -/
def isWhitespace (c : Char) : Bool :=
  let n := c.toNat
  (9 ≤ n && n ≤ 13) || n == 0x20 || n == 0x85 || n == 0xA0 || n == 0x1680 ||
    (0x2000 ≤ n && n ≤ 0x200A) || n == 0x2028 || n == 0x2029 || n == 0x202F || n == 0x205F ||
    n == 0x3000

def trim (text : Str) : Str := (text.dropWhile isWhitespace).rdropWhile isWhitespace

def lowerChar (c : Char) : Char :=
  if 65 ≤ c.toNat && c.toNat ≤ 90 then Char.ofNat (c.toNat + 32) else c

/-- `str::to_ascii_lowercase`. -/
def toAsciiLowercase (text : Str) : Str := text.map lowerChar

/-- `str::eq_ignore_ascii_case`. -/
def eqIgnoreAsciiCase (first second : Str) : Bool :=
  toAsciiLowercase first == toAsciiLowercase second

/-- `[..].join(",")`. -/
def joinWith (separator : Char) (parts : List Str) : Str := [separator].intercalate parts

/-- The text after the first `c`. -/
def afterFirst (c : Char) (text : Str) : Option Str :=
  match text.dropWhile (· != c) with
  | [] => none
  | _ :: rest => some rest

/-- The text before the last `c`. -/
def beforeLast (c : Char) (text : Str) : Option Str := (afterFirst c text.reverse).map List.reverse

def stripPrefix (c : Char) : Str → Str
  | [] => []
  | head :: rest => if head = c then rest else head :: rest

def stripSuffix (c : Char) (text : Str) : Str := (stripPrefix c text.reverse).reverse

/-- `replace("\"", "\"\"")`. -/
def doubleQuotes (text : Str) : Str := text.flatMap fun c => if c = '"' then ['"', '"'] else [c]

/-- `replace("\"\"", "\"")`, from left to right. -/
def undoubleQuotes : Str → Str
  | '"' :: '"' :: rest => '"' :: undoubleQuotes rest
  | c :: rest => c :: undoubleQuotes rest
  | [] => []

def Trimmed (text : Str) : Prop := trim text = text

-- A fact about characters need only be checked on the capitals it changes.
theorem lowerChar_cases {P : Char → Char → Prop} (same : ∀ c, P c c)
    (capital : ∀ n, n < 91 → 65 ≤ n → P (Char.ofNat n) (Char.ofNat (n + 32))) (c : Char) :
    P c (lowerChar c) := by
  unfold lowerChar
  split
  · rename_i isCapital
    simp only [Bool.and_eq_true, decide_eq_true_eq] at isCapital
    have checked := capital c.toNat (by omega) isCapital.1
    rwa [Char.ofNat_toNat] at checked
  · exact same c

theorem lowerChar_whitespace (c : Char) : isWhitespace (lowerChar c) = isWhitespace c :=
  lowerChar_cases (P := fun c d => isWhitespace d = isWhitespace c) (fun _ => rfl) (by decide) c

theorem lowerChar_separator (c d : Char) (plain : d.toNat < 65) : lowerChar c = d ↔ c = d := by
  unfold lowerChar
  split
  · rename_i isCapital
    simp only [Bool.and_eq_true, decide_eq_true_eq] at isCapital
    constructor
    · intro same
      have checked : ∀ n, n < 91 → 65 ≤ n → 65 ≤ (Char.ofNat (n + 32)).toNat := by decide
      have large := checked c.toNat (by omega) isCapital.1
      rw [same] at large
      omega
    · intro same
      subst d
      omega
  · rfl

theorem lowerChar_idempotent (c : Char) : lowerChar (lowerChar c) = lowerChar c := by
  by_cases isCapital : 65 ≤ c.toNat ∧ c.toNat ≤ 90
  · have checked : ∀ n, n < 91 → 65 ≤ n →
        lowerChar (lowerChar (Char.ofNat n)) = lowerChar (Char.ofNat n) := by decide
    have here := checked c.toNat (by omega) isCapital.1
    rwa [Char.ofNat_toNat] at here
  · have unchanged : lowerChar c = c := by simp [lowerChar, isCapital]
    rw [unchanged, unchanged]

theorem lower_idempotent (text : Str) :
    toAsciiLowercase (toAsciiLowercase text) = toAsciiLowercase text := by
  simp [toAsciiLowercase, lowerChar_idempotent]

theorem trim_lower (text : Str) : trim (toAsciiLowercase text) = toAsciiLowercase (trim text) := by
  have blind : isWhitespace ∘ lowerChar = isWhitespace := funext lowerChar_whitespace
  simp only [trim, toAsciiLowercase, List.rdropWhile, List.dropWhile_map,
    ← List.map_reverse, blind]

theorem trim_trimmed (text : Str) : Trimmed (trim text) := by
  unfold Trimmed trim
  -- The inner `dropWhile` leaves a head that is kept, so the outer one has nothing to drop.
  have kept : ((text.dropWhile isWhitespace).rdropWhile isWhitespace).dropWhile isWhitespace =
      (text.dropWhile isWhitespace).rdropWhile isWhitespace := by
    cases rest : (text.dropWhile isWhitespace).rdropWhile isWhitespace with
    | nil => rfl
    | cons head tail =>
        obtain ⟨dropped, whole⟩ :=
          List.rdropWhile_prefix isWhitespace (text.dropWhile isWhitespace)
        rw [rest, List.cons_append] at whole
        have filled : text.dropWhile isWhitespace ≠ [] := by simp [← whole]
        have visible := List.head_dropWhile_not isWhitespace filled
        simp only [← whole, List.head_cons] at visible
        simp [visible]
  rw [kept, List.rdropWhile_idempotent]

theorem trimmed_lower {text : Str} (trimmed : Trimmed text) : Trimmed (toAsciiLowercase text) := by
  unfold Trimmed at trimmed ⊢
  rw [trim_lower, trimmed]

theorem trim_subset {c : Char} {text : Str} (member : c ∈ trim text) : c ∈ text :=
  (List.dropWhile_sublist _).subset ((List.rdropWhile_prefix _ _).subset member)

theorem stripPrefix_subset {c d : Char} {text : Str} (member : d ∈ stripPrefix c text) :
    d ∈ text := by
  cases text with
  | nil => exact member
  | cons head rest =>
      simp only [stripPrefix] at member
      split at member
      · exact List.mem_cons_of_mem _ member
      · exact member

theorem stripSuffix_subset {c d : Char} {text : Str} (member : d ∈ stripSuffix c text) :
    d ∈ text := by
  have inside := stripPrefix_subset (List.mem_reverse.mp member)
  exact List.mem_reverse.mp inside

theorem undouble_subset {c : Char} {text : Str} (member : c ∈ undoubleQuotes text) :
    c ∈ text := by
  fun_induction undoubleQuotes text with
  | case1 rest ih =>
      rcases List.mem_cons.mp member with same | tail
      · simp [same]
      · simp [ih tail]
  | case2 head rest _ ih =>
      rcases List.mem_cons.mp member with same | tail
      · simp [same]
      · simp [ih tail]
  | case3 => exact member

theorem undouble_cons (c : Char) (rest : Str) (plain : c ≠ '"') :
    undoubleQuotes (c :: rest) = c :: undoubleQuotes rest := by
  conv_lhs => unfold undoubleQuotes
  split <;> simp_all

theorem undouble_double (text : Str) : undoubleQuotes (doubleQuotes text) = text := by
  induction text with
  | nil => rfl
  | cons head rest ih =>
      simp only [doubleQuotes, List.flatMap_cons] at ih ⊢
      split
      · rename_i quote
        subst head
        simp [undoubleQuotes, ih]
      · rename_i plain
        simp only [List.cons_append, List.nil_append]
        rw [undouble_cons head _ plain, ih]

theorem split_no_separator {separator : Char} {text part : Str}
    (member : part ∈ text.splitOn separator) : separator ∉ part := by
  induction text generalizing part with
  | nil => simp_all
  | cons head rest ih =>
      rw [List.splitOn_cons_eq_if_modifyHead] at member
      split at member
      · rcases List.mem_cons.mp member with same | tail
        · simp [same]
        · exact ih tail
      · rename_i plain
        cases parts : rest.splitOn separator with
        | nil => simp [parts] at member
        | cons first more =>
            rw [parts, List.modifyHead_cons] at member
            have inFirst : separator ∉ first := ih (by simp [parts])
            rcases List.mem_cons.mp member with same | tail
            · subst part
              simp only [List.mem_cons, not_or]
              exact ⟨fun same => plain (by simp [same]), inFirst⟩
            · exact ih (by simp [parts, tail])

theorem split_join (separator : Char) (parts : List Str) (filled : parts ≠ [])
    (plain : ∀ part ∈ parts, separator ∉ part) :
    (joinWith separator parts).splitOn separator = parts :=
  List.splitOn_intercalate separator plain filled

theorem afterFirst_append (c : Char) (front rest : Str) (absent : c ∉ front) :
    afterFirst c (front ++ c :: rest) = some rest := by
  induction front with
  | nil => simp [afterFirst]
  | cons head tail ih =>
      simp only [List.mem_cons, not_or] at absent
      have skip : (head != c) = true := by simpa using Ne.symm absent.1
      simpa [afterFirst, skip] using ih absent.2

theorem beforeLast_concat (c : Char) (body : Str) : beforeLast c (body ++ [c]) = some body := by
  simp [beforeLast, afterFirst]

theorem stripPrefix_cons (c : Char) (rest : Str) : stripPrefix c (c :: rest) = rest := by
  simp [stripPrefix]

theorem stripSuffix_concat (c : Char) (body : Str) : stripSuffix c (body ++ [c]) = body := by
  simp [stripSuffix, stripPrefix]

end PgHa.Text
