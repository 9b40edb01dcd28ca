import PgHa.Text

/-!
Lines, words and numbers of a text, as Rust's standard library reads them.
-/

namespace PgHa.TextLines

open Text

/-! ### Lines and words -/

/-- The pieces that are ended by a line feed, and the one after the last of them. -/
def splitLines : Str → List Str × Str
  | [] => ([], [])
  | c :: rest =>
      let (ended, open_) := splitLines rest
      if c = '\n' then ([] :: ended, open_)
      else match ended with
        | [] => ([], c :: open_)
        | first :: others => ((c :: first) :: others, open_)

/-- `str::lines`: a carriage return goes with the line feed after it. -/
def lines (text : Str) : List Str :=
  let (ended, last) := splitLines text
  ended.map (stripSuffix '\r') ++ if last.isEmpty then [] else [last]

/-- `str::split_whitespace`. -/
def splitWhitespace (text : Str) : List Str :=
  (text.splitOnP isWhitespace).filter fun word => !word.isEmpty

/-! ### Numbers -/

/-- `char::to_digit`. -/
def toDigit (radix : Nat) (c : Char) : Option Nat :=
  let n := c.toNat
  let value := if 48 ≤ n ∧ n ≤ 57 then some (n - 48)
    else if 97 ≤ n ∧ n ≤ 122 then some (n - 87)
    else if 65 ≤ n ∧ n ≤ 90 then some (n - 55)
    else none
  value.filter (· < radix)

def isAsciiHexdigit (c : Char) : Bool := (toDigit 16 c).isSome

def readDigits (radix : Nat) : Str → Nat → Option Nat
  | [], value => some value
  | c :: rest, value =>
      (toDigit radix c).bind fun digit => readDigits radix rest (value * radix + digit)

/-- `u64::from_str_radix`; `parse::<u64>` is the one of radix 10. -/
def fromStrRadix (radix : Nat) (text : Str) : Option Nat :=
  let digits := stripPrefix '+' text
  if digits.isEmpty then none else (readDigits radix digits 0).filter (· < 2 ^ 64)

/-- The format `X` with a width, filled with zeros. -/
def paddedHex (width n : Nat) : Str := ((Nat.toDigits 16 n).map Char.toUpper).leftpad width '0'

theorem readDigits_append (radix : Nat) (front back : Str) (value : Nat) :
    readDigits radix (front ++ back) value =
      (readDigits radix front value).bind (readDigits radix back) := by
  induction front generalizing value with
  | nil => rfl
  | cons c rest ih =>
      simp only [List.cons_append, readDigits, Option.bind_assoc, ih]

theorem readDigits_zeros (count : Nat) (back : Str) :
    readDigits 16 (List.replicate count '0' ++ back) 0 = readDigits 16 back 0 := by
  induction count with
  | zero => rfl
  | succ count ih => exact ih

theorem toDigit_digitChar : ∀ digit < 16,
    toDigit 16 (Char.toUpper (Nat.digitChar digit)) = some digit := by decide

theorem toDigit_decimal : ∀ digit < 10, toDigit 10 (Nat.digitChar digit) = some digit := by decide

/-- Digits that are read one by one are read together, in whatever letters they are written. -/
theorem readDigits_toDigits {radix : Nat} (several : 1 < radix) (letter : Char → Char)
    (read : ∀ digit < radix, toDigit radix (letter (Nat.digitChar digit)) = some digit)
    (n : Nat) :
    readDigits radix ((Nat.toDigits radix n).map letter) 0 = some n := by
  induction n using Nat.strongRecOn with
  | ind n ih =>
      by_cases small : n < radix
      · rw [Nat.toDigits_of_lt_base small]
        simp [readDigits, read n small]
      · have positive : 0 < radix := Nat.lt_of_succ_lt several
        have large := Nat.le_of_not_lt small
        have step := Nat.toDigits_of_base_le several large
        have shorter : n / radix < n := Nat.div_lt_self (by omega) several
        rw [step, List.map_append, readDigits_append, ih (n / radix) shorter]
        simp only [Option.bind_some, List.map_cons, List.map_nil, readDigits,
          read (n % radix) (Nat.mod_lt n positive)]
        rw [Nat.div_add_mod']

theorem readDigits_decimal (n : Nat) : readDigits 10 (Nat.toDigits 10 n) 0 = some n := by
  have read := readDigits_toDigits (by decide) id toDigit_decimal n
  rwa [List.map_id] at read

theorem readDigits_digit {radix : Nat} {digits : Str} {value result : Nat}
    (read : readDigits radix digits value = some result) : ∀ c ∈ digits,
    (toDigit radix c).isSome = true := by
  induction digits generalizing value with
  | nil => simp
  | cons c rest ih =>
      obtain ⟨digit, isDigit, read⟩ := Option.bind_eq_some_iff.mp read
      intro other mem
      rcases List.mem_cons.mp mem with rfl | later
      · rw [isDigit, Option.isSome_some]
      · exact ih read other later

theorem readDigits_hex {digits : Str} {value result : Nat}
    (read : readDigits 16 digits value = some result) : ∀ c ∈ digits,
    isAsciiHexdigit c = true :=
  readDigits_digit read

/-- No digit is a blank. -/
theorem toDigit_visible {radix : Nat} {c : Char} (digit : (toDigit radix c).isSome = true) :
    isWhitespace c = false := by
  by_contra blank
  simp only [isWhitespace, Bool.not_eq_false, Bool.or_eq_true, Bool.and_eq_true, decide_eq_true_eq,
    beq_iff_eq] at blank
  have outside : ¬ (48 ≤ c.toNat ∧ c.toNat ≤ 57) ∧
      ¬ (97 ≤ c.toNat ∧ c.toNat ≤ 122) ∧
      ¬ (65 ≤ c.toNat ∧ c.toNat ≤ 90) := by omega
  simp [toDigit, outside.1, outside.2.1, outside.2.2] at digit

theorem readDigits_visible {radix : Nat} {digits : Str} {value result : Nat}
    (read : readDigits radix digits value = some result) : ∀ c ∈ digits,
    isWhitespace c = false :=
  fun c mem => toDigit_visible (readDigits_digit read c mem)

theorem readDigits_paddedHex (width n : Nat) : readDigits 16 (paddedHex width n) 0 = some n := by
  rw [paddedHex, List.leftpad, readDigits_zeros,
    readDigits_toDigits (by decide) Char.toUpper toDigit_digitChar]

theorem paddedHex_length {width n : Nat} (positive : 0 < width) (fits : n < 16 ^ width) :
    (paddedHex width n).length = width := by
  have short := (Nat.length_toDigits_le_iff (show 1 < 16 by decide) positive).mpr fits
  rw [paddedHex, List.length_leftpad, List.length_map]
  omega

/-- A number in hexadecimal digits, which has no sign, is read back. -/
theorem fromStrRadix_paddedHex {width n : Nat} (positive : 0 < width) (fits : n < 16 ^ width)
    (small : n < 2 ^ 64) : fromStrRadix 16 (paddedHex width n) = some n := by
  have length := paddedHex_length positive fits
  have digits := readDigits_hex (readDigits_paddedHex width n)
  have unsigned : stripPrefix '+' (paddedHex width n) = paddedHex width n := by
    cases text : paddedHex width n with
    | nil => rfl
    | cons first rest =>
        rw [stripPrefix, if_neg]
        rintro rfl
        have plus := digits '+' (by simp [text])
        revert plus
        decide
  have filled : (paddedHex width n).isEmpty = false := by
    rw [List.isEmpty_eq_false_iff, ← List.length_pos_iff]
    omega
  simp only [fromStrRadix, unsigned, filled, Bool.false_eq_true, if_false, readDigits_paddedHex]
  rw [Option.filter_some, if_pos (decide_eq_true small)]

/-! ### Words -/

theorem visible_of_any {text : Str} (plain : text.any isWhitespace = false) :
    ∀ c ∈ text, isWhitespace c = false := by
  intro c mem
  simpa using List.any_eq_false.mp plain c mem

theorem splitWhitespace_append {blank : Char} (space : isWhitespace blank = true)
    (front back : Str) :
    splitWhitespace (front ++ blank :: back) = splitWhitespace front ++ splitWhitespace back := by
  rw [splitWhitespace, List.splitOnP_append_cons _ _ space, List.filter_append]
  rfl

theorem splitWhitespace_word {word : Str} (filled : word ≠ [])
    (visible : ∀ c ∈ word, isWhitespace c = false) : splitWhitespace word = [word] := by
  rw [splitWhitespace, List.splitOnP_eq_singleton visible]
  simp [filled]

theorem splitWhitespace_blanks {blanks : Str} (space : ∀ c ∈ blanks, isWhitespace c = true)
    (text : Str) :
    splitWhitespace (blanks ++ text) = splitWhitespace text := by
  induction blanks with
  | nil => rfl
  | cons c rest ih =>
      have skipped := splitWhitespace_append (space c List.mem_cons_self) [] (rest ++ text)
      rw [List.cons_append]
      exact skipped.trans (ih fun d mem => space d (List.mem_cons_of_mem c mem))

theorem splitWhitespace_tail {blanks : Str} (space : ∀ c ∈ blanks, isWhitespace c = true)
    (text : Str) :
    splitWhitespace (text ++ blanks) = splitWhitespace text := by
  cases blanks with
  | nil => rw [List.append_nil]
  | cons c rest =>
      have none := splitWhitespace_blanks (fun d mem => space d (List.mem_cons_of_mem c mem)) []
      rw [splitWhitespace_append (space c List.mem_cons_self), ← List.append_nil rest, none]
      exact List.append_nil _

theorem splitWhitespace_trim (text : Str) : splitWhitespace (trim text) = splitWhitespace text := by
  have front : splitWhitespace (text.takeWhile isWhitespace ++ text.dropWhile isWhitespace) =
      splitWhitespace (text.dropWhile isWhitespace) :=
    splitWhitespace_blanks (fun c mem => List.mem_takeWhile_imp mem) _
  have back : splitWhitespace (trim text ++ (text.dropWhile isWhitespace).rtakeWhile isWhitespace) =
      splitWhitespace (trim text) :=
    splitWhitespace_tail (fun c mem => List.mem_rtakeWhile_imp mem) _
  rw [List.takeWhile_append_dropWhile] at front
  rw [front, ← back, trim, List.rdropWhile, List.rtakeWhile, ← List.reverse_append,
    List.takeWhile_append_dropWhile, List.reverse_reverse]

/-- A carriage return at the end of a line is a blank. -/
theorem splitWhitespace_return (line : Str) :
    splitWhitespace (stripSuffix '\r' line) = splitWhitespace line := by
  cases line using List.reverseRecOn with
  | nil => rfl
  | append_singleton front last =>
      by_cases returns : last = '\r'
      · rw [returns, stripSuffix_concat]
        exact (splitWhitespace_tail (by simp; decide) front).symm
      · have same : stripSuffix '\r' (front ++ [last]) = front ++ [last] := by
          simp [stripSuffix, stripPrefix, returns]
        rw [same]

/-- The first word of a text that does not begin with a blank. -/
theorem splitWhitespace_first {c : Char} (visible : isWhitespace c = false) (rest : Str) :
    ∃ more, splitWhitespace (c :: rest) =
      (c :: rest).takeWhile (fun letter => !isWhitespace letter) :: more := by
  have filled : (c :: rest).takeWhile (fun letter => !isWhitespace letter) ≠ [] := by
    simp [visible]
  have word := splitWhitespace_word filled fun letter mem => by
    simpa using List.mem_takeWhile_imp mem
  have whole := List.takeWhile_append_dropWhile (p := fun letter => !isWhitespace letter)
      (l := c :: rest)
  cases left : (c :: rest).dropWhile (fun letter => !isWhitespace letter) with
  | nil =>
      rw [left, List.append_nil] at whole
      rw [whole] at word ⊢
      exact ⟨[], word⟩
  | cons blank back =>
      have space : isWhitespace blank = true := by
        have stops := List.head_dropWhile_not (fun letter => !isWhitespace letter)
          (show (c :: rest).dropWhile (fun letter => !isWhitespace letter) ≠ [] by simp [left])
        simpa [left] using stops
      refine ⟨splitWhitespace back, ?_⟩
      rw [left] at whole
      conv_lhs => rw [← whole]
      rw [splitWhitespace_append space, word]
      rfl

/-- A trimmed line is empty if it has no words, and else begins as its first word does. -/
theorem trim_words (text : Str) :
    trim text = [] ∧ splitWhitespace text = [] ∨
      ∃ c rest word more, trim text = c :: rest ∧
        splitWhitespace text = (c :: word) :: more := by
  have trimmed := trim_trimmed text
  rw [← splitWhitespace_trim text]
  cases shown : trim text with
  | nil => exact .inl ⟨rfl, rfl⟩
  | cons c rest =>
      have visible : isWhitespace c = false := by
        rw [shown] at trimmed
        by_contra blank
        rw [Bool.not_eq_false] at blank
        have shorter := congrArg List.length trimmed
        rw [trim, List.dropWhile_cons_of_pos blank] at shorter
        have kept := (List.rdropWhile_prefix isWhitespace (rest.dropWhile isWhitespace)).length_le
        have dropped := (List.dropWhile_sublist (l := rest) isWhitespace).length_le
        rw [shorter, List.length_cons] at kept
        omega
      obtain ⟨more, words⟩ := splitWhitespace_first visible rest
      rw [List.takeWhile_cons_of_pos (by simp [visible])] at words
      exact .inr ⟨c, rest, _, more, rfl, words⟩

end PgHa.TextLines
