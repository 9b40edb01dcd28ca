import PgHa.TimelineFiles

/-!
What `parse_lsn` takes for an LSN (postgresql.rs), against the two fields of one to eight
hexadecimal digits that PostgreSQL writes and reads. `u64::from_str_radix` also takes a
plus sign and any number of digits that fits 64 bits, and the shift drops what does not
fit the upper half.
-/

namespace PgHa.LsnText

open Text TextLines TimelineFiles

/-- One half of an LSN. -/
structure LsnField (text : Str) (value : Nat) : Prop where
  filled : text ≠ []
  short : text.length ≤ 8
  digits : readDigits 16 text 0 = some value

/-- A position in the WAL: what the two fields say. -/
structure Position where
  high : Nat
  low : Nat
  deriving DecidableEq

def Position.lsn (position : Position) : Nat := position.high * 2 ^ 32 + position.low

/-- The order of the WAL. -/
def Position.notAfter (first second : Position) : Prop :=
  first.high < second.high ∨ first.high = second.high ∧ first.low ≤ second.low

structure Denotes (text : Str) (position : Position) : Prop where
  fields : ∃ high low, text = high ++ '/' :: low ∧ LsnField high position.high ∧
    LsnField low position.low

/-- Neither a sign nor more digits than a field has. -/
def Plain (half : Str) : Prop := half.head? ≠ some '+' ∧ half.length ≤ 8

/-- If both halves of the text are numbers to `from_str_radix`, they are plain ones. -/
def Regular (text : Str) : Prop :=
  ∀ high low, text.splitOn '/' = [high, low] → (fromStrRadix 16 high).isSome →
    (fromStrRadix 16 low).isSome → Plain high ∧ Plain low

/-- `parse_lsn` takes exactly the LSNs of PostgreSQL. -/
def Exact (text : Str) : Prop :=
  ∀ value, parseLsn text = some value ↔ ∃ position, Denotes text position ∧
    value = position.lsn

/-! ### Fields -/

theorem toDigit_lt {radix : Nat} {c : Char} {digit : Nat} (read : toDigit radix c = some digit) :
    digit < radix := by
  have small := (Option.filter_eq_some_iff.mp read).2
  simpa using small

theorem readDigits_lt {radix : Nat} {digits : Str} {value result : Nat}
    (read : readDigits radix digits value = some result) :
    result < (value + 1) * radix ^ digits.length := by
  induction digits generalizing value with
  | nil =>
      cases read
      simp
  | cons c rest ih =>
      obtain ⟨digit, isDigit, read⟩ := Option.bind_eq_some_iff.mp read
      have below := ih read
      have small := toDigit_lt isDigit
      calc
        result < (value * radix + digit + 1) * radix ^ rest.length := below
        _ ≤ ((value + 1) * radix) * radix ^ rest.length := by
            apply Nat.mul_le_mul_right
            rw [Nat.succ_mul]
            omega
        _ = (value + 1) * radix ^ (c :: rest).length := by
            rw [List.length_cons, Nat.pow_succ, Nat.mul_assoc, Nat.mul_comm radix]

theorem field_lt {text : Str} {value : Nat} (field : LsnField text value) : value < 2 ^ 32 := by
  have below := readDigits_lt field.digits
  have fits : 16 ^ text.length ≤ 16 ^ 8 := Nat.pow_le_pow_right (by decide) field.short
  omega

theorem plus_no_digit : isAsciiHexdigit '+' = false := by decide

theorem slash_no_digit : isAsciiHexdigit '/' = false := by decide

theorem stripPrefix_unsigned {text : Str} (unsigned : text.head? ≠ some '+') :
    stripPrefix '+' text = text := by
  cases text with
  | nil => rfl
  | cons first rest =>
      rw [stripPrefix, if_neg]
      rintro rfl
      exact unsigned rfl

theorem digits_unsigned {text : Str} {value : Nat} (digits : readDigits 16 text 0 = some value) :
    text.head? ≠ some '+' := by
  intro signed
  have plus := readDigits_hex digits '+' (List.mem_of_mem_head? signed)
  rw [plus_no_digit] at plus
  cases plus

theorem fromStrRadix_field {text : Str} {value : Nat} (field : LsnField text value) :
    fromStrRadix 16 text = some value := by
  have small := field_lt field
  have filled : text.isEmpty = false := by simpa using field.filled
  simp only [fromStrRadix, stripPrefix_unsigned (digits_unsigned field.digits), filled,
    field.digits]
  rw [if_neg Bool.false_ne_true, Option.filter_some, if_pos (decide_eq_true (by omega))]

theorem field_of_plain {text : Str} {value : Nat} (plain : Plain text)
    (read : fromStrRadix 16 text = some value) : LsnField text value := by
  simp only [fromStrRadix, stripPrefix_unsigned plain.1] at read
  split at read
  · cases read
  · rename_i filled
    exact ⟨by simpa using filled, plain.2, (Option.filter_eq_some_iff.mp read).1⟩

theorem field_plain {text : Str} {value : Nat} (field : LsnField text value) : Plain text :=
  ⟨digits_unsigned field.digits, field.short⟩

theorem field_no_slash {text : Str} {value : Nat} (field : LsnField text value) : '/' ∉ text := by
  intro slash
  have digit := readDigits_hex field.digits '/' slash
  rw [slash_no_digit] at digit
  cases digit

/-! ### The two halves -/

theorem splitOn_fields {high low : Str} (noSlash : '/' ∉ high) (noSlash' : '/' ∉ low) :
    (high ++ '/' :: low).splitOn '/' = [high, low] := by
  have joined := split_join '/' [high, low] (by simp) (by
    intro part member
    rcases List.mem_pair.mp member with rfl | rfl
    · exact noSlash
    · exact noSlash')
  simpa [joinWith, List.intercalate, List.intersperse] using joined

theorem splitOn_halves {text high low : Str} (halves : text.splitOn '/' = [high, low]) :
    text = high ++ '/' :: low := by
  have whole : ['/'].intercalate (text.splitOn '/') = text := List.intercalate_splitOn '/'
  rw [halves] at whole
  simpa [List.intercalate, List.intersperse] using whole.symm

/-- The shift loses nothing of a field, and the lower half does not reach into the upper. -/
theorem shift_or {high low : Nat} (fits : high < 2 ^ 32) (fits' : low < 2 ^ 32) :
    (high * 2 ^ 32 % 2 ^ 64) ||| low = high * 2 ^ 32 + low := by
  rw [Nat.mod_eq_of_lt (by omega), Nat.mul_comm, Nat.two_pow_add_eq_or_of_lt fits']

theorem parseLsn_halves {text high low : Str} {hi lo : Nat}
    (halves : text.splitOn '/' = [high, low])
    (first : fromStrRadix 16 high = some hi) (second : fromStrRadix 16 low = some lo) :
    parseLsn text = some ((hi * 2 ^ 32 % 2 ^ 64) ||| lo) := by
  simp [parseLsn, halves, first, second]

theorem parseLsn_some {text : Str} {value : Nat} (parsed : parseLsn text = some value) :
    ∃ high low hi lo, text.splitOn '/' = [high, low] ∧ fromStrRadix 16 high = some hi ∧
      fromStrRadix 16 low = some lo ∧ value = (hi * 2 ^ 32 % 2 ^ 64) ||| lo := by
  unfold parseLsn at parsed
  split at parsed
  · rename_i high low halves
    obtain ⟨hi, first, parsed⟩ := Option.bind_eq_some_iff.mp parsed
    obtain ⟨lo, second, parsed⟩ := Option.bind_eq_some_iff.mp parsed
    cases parsed
    exact ⟨high, low, hi, lo, halves, first, second, rfl⟩
  · cases parsed

theorem parseLsn_denotes {text : Str} {position : Position} (denotes : Denotes text position) :
    parseLsn text = some position.lsn := by
  obtain ⟨high, low, rfl, first, second⟩ := denotes.fields
  rw [parseLsn_halves (splitOn_fields (field_no_slash first) (field_no_slash second))
    (fromStrRadix_field first) (fromStrRadix_field second),
      shift_or (field_lt first) (field_lt second)]
  rfl

theorem denotes_of_regular {text : Str} {value : Nat} (regular : Regular text)
    (parsed : parseLsn text = some value) :
    ∃ position, Denotes text position ∧ value = position.lsn := by
  obtain ⟨high, low, hi, lo, halves, first, second, rfl⟩ := parseLsn_some parsed
  obtain ⟨plain, plain'⟩ := regular high low halves (by rw [first]; rfl) (by rw [second]; rfl)
  have highField := field_of_plain plain first
  have lowField := field_of_plain plain' second
  refine ⟨⟨hi, lo⟩, ⟨high, low, splitOn_halves halves, highField, lowField⟩, ?_⟩
  exact shift_or (field_lt highField) (field_lt lowField)

theorem regular_of_denotes {text : Str} {position : Position} (denotes : Denotes text position) :
    Regular text := by
  obtain ⟨high, low, rfl, first, second⟩ := denotes.fields
  intro front back halves _ _
  rw [splitOn_fields (field_no_slash first) (field_no_slash second)] at halves
  cases halves
  exact ⟨field_plain first, field_plain second⟩

theorem exact_iff_regular (text : Str) : Exact text ↔ Regular text := by
  constructor
  · intro accepts high low halves first second
    obtain ⟨hi, read⟩ := Option.isSome_iff_exists.mp first
    obtain ⟨lo, read'⟩ := Option.isSome_iff_exists.mp second
    obtain ⟨position, denotes, _⟩ := (accepts _).mp (parseLsn_halves halves read read')
    exact regular_of_denotes denotes high low halves first second
  · intro regular value
    constructor
    · exact denotes_of_regular regular
    · rintro ⟨position, denotes, rfl⟩
      exact parseLsn_denotes denotes

/-! ### The order of the WAL -/

theorem denotes_low {text : Str} {position : Position} (denotes : Denotes text position) :
    position.low < 2 ^ 32 := by
  obtain ⟨_, _, _, _, low⟩ := denotes.fields
  exact field_lt low

theorem lsn_le_iff {first second : Position} (fits : first.low < 2 ^ 32)
    (fits' : second.low < 2 ^ 32) :
    first.lsn ≤ second.lsn ↔ first.notAfter second := by
  simp only [Position.lsn, Position.notAfter]
  omega

theorem lsn_injective {first second : Position} (fits : first.low < 2 ^ 32)
    (fits' : second.low < 2 ^ 32)
    (same : first.lsn = second.lsn) : first = second := by
  obtain ⟨high, low⟩ := first
  obtain ⟨high', low'⟩ := second
  simp only [Position.lsn] at same fits fits'
  have highs : high = high' := by omega
  have lows : low = low' := by omega
  rw [highs, lows]

/-- The numbers of two regular texts compare as the positions they denote. -/
theorem regular_order {first second : Str} {value value' : Nat} (regular : Regular first)
    (regular' : Regular second) (parsed : parseLsn first = some value)
    (parsed' : parseLsn second = some value') :
    ∃ position position', Denotes first position ∧ Denotes second position' ∧
      (value = value' ↔ position = position') ∧
        (value ≤ value' ↔ position.notAfter position') := by
  obtain ⟨position, denotes, rfl⟩ := denotes_of_regular regular parsed
  obtain ⟨position', denotes', rfl⟩ := denotes_of_regular regular' parsed'
  refine ⟨position, position', denotes, denotes', ?_,
    lsn_le_iff (denotes_low denotes) (denotes_low denotes')⟩
  constructor
  · exact lsn_injective (denotes_low denotes) (denotes_low denotes')
  · rintro rfl
    rfl

theorem not_exact {text : Str} (high low : Str) (halves : text.splitOn '/' = [high, low])
    (first : (fromStrRadix 16 high).isSome) (second : (fromStrRadix 16 low).isSome)
    (odd : ¬ (Plain high ∧ Plain low)) : ¬ Exact text := by
  rw [exact_iff_regular]
  intro regular
  exact odd (regular high low halves first second)

/-- A ninth digit of the lower half reaches into the upper one, one of the upper half is
dropped, and a sign is taken. -/
theorem parseLsn_liberal :
    parseLsn "0/100000000".toList = parseLsn "1/0".toList ∧ ¬ Exact "0/100000000".toList ∧
      parseLsn "100000000/0".toList = parseLsn "0/0".toList ∧ ¬ Exact "100000000/0".toList ∧
      parseLsn "+0/1".toList = parseLsn "0/1".toList ∧ ¬ Exact "+0/1".toList := by
  have long : ¬ Plain "100000000".toList := fun plain => absurd plain.2 (by decide)
  have signed : ¬ Plain "+0".toList := fun plain => plain.1 (by decide)
  constructor
  · decide
  constructor
  · exact not_exact "0".toList "100000000".toList (by decide) (by decide) (by decide) fun both =>
      long both.2
  constructor
  · decide
  constructor
  · exact not_exact "100000000".toList "0".toList (by decide) (by decide) (by decide) fun both =>
      long both.1
  constructor
  · decide
  · exact not_exact "+0".toList "1".toList (by decide) (by decide) (by decide) fun both =>
      signed both.1

end PgHa.LsnText
