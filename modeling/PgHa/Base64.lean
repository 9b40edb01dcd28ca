import Mathlib.Data.List.GetD
import PgHa.Text

/-!
Base64 with the standard alphabet and canonical padding: every byte string has one text,
and a text that is not the one of its bytes is refused.
-/

namespace PgHa.Base64

open Text

/-- What an engine for canonical base64 promises. -/
structure Engine where
  encode : List UInt8 → Str
  decode : Str → Option (List UInt8)
  decode_encode : ∀ bytes, decode (encode bytes) = some bytes
  encode_decode : ∀ text bytes, decode text = some bytes → encode bytes = text
  encode_graphic : ∀ bytes, ∀ c ∈ encode bytes, 33 ≤ c.toNat ∧ c.toNat ≤ 126

theorem Engine.decode_iff (engine : Engine) (text : Str) (bytes : List UInt8) :
    engine.decode text = some bytes ↔ text = engine.encode bytes := by
  constructor
  · intro decoded
    exact (engine.encode_decode text bytes decoded).symm
  · rintro rfl
    exact engine.decode_encode bytes

theorem Engine.encode_injective (engine : Engine) {first second : List UInt8}
    (same : engine.encode first = engine.encode second) : first = second := by
  have decoded := engine.decode_encode first
  rw [same, engine.decode_encode, Option.some.injEq] at decoded
  exact decoded.symm

theorem graphic_visible {c : Char} (graphic : 33 ≤ c.toNat ∧ c.toNat ≤ 126) :
    isWhitespace c = false := by
  have checked : ∀ n < 127, 33 ≤ n → isWhitespace (Char.ofNat n) = false := by decide +kernel
  have here := checked c.toNat (by omega) graphic.1
  rwa [Char.ofNat_toNat] at here

/-- No blank is cut off what was encoded. -/
theorem Engine.trim_encode (engine : Engine) (bytes : List UInt8) :
    trim (engine.encode bytes) = engine.encode bytes := by
  have visible : ∀ c ∈ engine.encode bytes, isWhitespace c = false :=
    fun c member => graphic_visible (engine.encode_graphic bytes c member)
  unfold trim
  rw [List.dropWhile_eq_self_iff.mpr, List.rdropWhile_eq_self_iff.mpr]
  · intro filled blank
    rw [visible _ (List.getLast_mem filled)] at blank
    cases blank
  · intro filled blank
    rw [visible _ (List.getElem_mem filled)] at blank
    cases blank

/-! ### The standard engine -/

def alphabet : Str :=
  "ABCDEFGHIJKLMNOPQRSTUVWXYZabcdefghijklmnopqrstuvwxyz0123456789+/".toList

def symbol (sextet : Nat) : Char := alphabet.getD sextet '='

def digit (c : Char) : Option Nat :=
  if alphabet.idxOf c < 64 then some (alphabet.idxOf c) else none

/-- Three bytes are four digits; one byte left is two of them, two bytes are three. -/
def encode : List UInt8 → Str
  | [] => []
  | [a] => [symbol (a.toNat / 4), symbol (a.toNat % 4 * 16), '=', '=']
  | [a, b] =>
      [symbol (a.toNat / 4), symbol (a.toNat % 4 * 16 + b.toNat / 16),
        symbol (b.toNat % 16 * 4), '=']
  | a :: b :: c :: rest =>
      symbol (a.toNat / 4) :: symbol (a.toNat % 4 * 16 + b.toNat / 16) ::
        symbol (b.toNat % 16 * 4 + c.toNat / 64) :: symbol (c.toNat % 64) :: encode rest

def byteOf (n : Nat) : UInt8 := UInt8.ofNat n

/-- The last four characters, `=` where there is no digit; the bits that no byte takes are
zero. -/
def decodeLast (a b : Nat) (c d : Char) : Option (List UInt8) :=
  if d ≠ '=' then none
  else if c = '=' then if b % 16 = 0 then some [byteOf (a * 4 + b / 16)] else none
  else match digit c with
    | none => none
    | some c =>
        if c % 4 = 0 then some [byteOf (a * 4 + b / 16), byteOf (b % 16 * 16 + c / 4)] else none

def decode : Str → Option (List UInt8)
  | [] => some []
  | a :: b :: c :: d :: rest =>
      match digit a, digit b with
      | some x, some y =>
          match digit c, digit d with
          | some z, some w =>
              (decode rest).map fun bytes =>
                byteOf (x * 4 + y / 16) :: byteOf (y % 16 * 16 + z / 4) ::
                  byteOf (z % 4 * 64 + w) :: bytes
          | _, _ => if rest = [] then decodeLast x y c d else none
      | _, _ => none
  | _ => none

theorem digit_symbol : ∀ sextet < 64, digit (symbol sextet) = some sextet := by decide +kernel

theorem digit_some {c : Char} {sextet : Nat} (read : digit c = some sextet) :
    sextet < 64 ∧ symbol sextet = c := by
  unfold digit at read
  split at read
  · rename_i inside
    cases read
    refine ⟨inside, ?_⟩
    have found : alphabet.idxOf c < alphabet.length := inside
    rw [symbol, List.getD_eq_getElem _ _ found, List.getElem_idxOf found]
  · cases read

theorem digit_pad : digit '=' = none := by decide +kernel

theorem symbol_graphic : ∀ sextet < 64,
    33 ≤ (symbol sextet).toNat ∧ (symbol sextet).toNat ≤ 126 := by decide +kernel

theorem toNat_byteOf {n : Nat} (small : n < 256) : (byteOf n).toNat = n := by
  rw [byteOf, UInt8.toNat_ofNat']
  omega

theorem byteOf_toNat {n : Nat} (byte : UInt8) (same : n = byte.toNat) : byteOf n = byte := by
  rw [same, byteOf, UInt8.ofNat_toNat]

/-! ### Round trips -/

/-- Four digits are three bytes, whatever follows. -/
theorem decode_digits {x y z w : Nat} (hx : x < 64) (hy : y < 64) (hz : z < 64) (hw : w < 64)
    (rest : Str) :
    decode (symbol x :: symbol y :: symbol z :: symbol w :: rest) =
      (decode rest).map fun bytes =>
        byteOf (x * 4 + y / 16) :: byteOf (y % 16 * 16 + z / 4) :: byteOf (z % 4 * 64 + w) ::
          bytes := by
  simp only [decode, digit_symbol _ hx, digit_symbol _ hy, digit_symbol _ hz, digit_symbol _ hw]

theorem decode_last {x y : Nat} (hx : x < 64) (hy : y < 64) (c : Char) :
    decode [symbol x, symbol y, c, '='] = decodeLast x y c '=' := by
  simp only [decode, digit_symbol _ hx, digit_symbol _ hy, digit_pad]
  cases digit c <;> rfl

theorem decode_encode (bytes : List UInt8) : decode (encode bytes) = some bytes := by
  fun_induction encode bytes with
  | case1 => rfl
  | case2 a =>
      have := a.toNat_lt
      rw [decode_last (by omega) (by omega)]
      simp only [decodeLast, ne_eq, not_true_eq_false, if_false, if_true]
      rw [if_pos (by omega), byteOf_toNat a (by omega)]
  | case3 a b =>
      have := a.toNat_lt
      have := b.toNat_lt
      have marked : symbol (b.toNat % 16 * 4) ≠ '=' := by
        intro same
        have read := digit_symbol (b.toNat % 16 * 4) (by omega)
        rw [same, digit_pad] at read
        cases read
      rw [decode_last (by omega) (by omega)]
      simp only [decodeLast, ne_eq, not_true_eq_false, if_false, if_neg marked,
        digit_symbol _ (show b.toNat % 16 * 4 < 64 by omega)]
      rw [if_pos (by omega), byteOf_toNat a (by omega), byteOf_toNat b (by omega)]
  | case4 a b c rest ih =>
      have := a.toNat_lt
      have := b.toNat_lt
      have := c.toNat_lt
      rw [decode_digits (by omega) (by omega) (by omega) (by omega), ih, Option.map_some,
        byteOf_toNat a (by omega), byteOf_toNat b (by omega),
        byteOf_toNat c (by omega)]

theorem encode_bytes {x y z w : Nat} (hx : x < 64) (hy : y < 64) (hz : z < 64) (hw : w < 64)
    (rest : List UInt8) :
    encode (byteOf (x * 4 + y / 16) :: byteOf (y % 16 * 16 + z / 4) ::
      byteOf (z % 4 * 64 + w) :: rest) =
      symbol x :: symbol y :: symbol z :: symbol w :: encode rest := by
  have first : (x * 4 + y / 16) / 4 = x := by omega
  have second : (x * 4 + y / 16) % 4 * 16 + (y % 16 * 16 + z / 4) / 16 = y := by omega
  have third : (y % 16 * 16 + z / 4) % 16 * 4 + (z % 4 * 64 + w) / 64 = z := by omega
  have fourth : (z % 4 * 64 + w) % 64 = w := by omega
  rw [encode, toNat_byteOf (by omega), toNat_byteOf (by omega), toNat_byteOf (by omega), first,
    second, third, fourth]

theorem encode_decodeLast {x y : Nat} (hx : x < 64) (hy : y < 64) {c d : Char} {bytes : List UInt8}
    (decoded : decodeLast x y c d = some bytes) : encode bytes = [symbol x, symbol y, c, d] := by
  unfold decodeLast at decoded
  split at decoded
  · cases decoded
  · rename_i pad
    have last : d = '=' := not_not.mp pad
    have first : (x * 4 + y / 16) / 4 = x := by omega
    split at decoded
    · rename_i padded
      split at decoded
      · rename_i spare
        cases decoded
        have second : (x * 4 + y / 16) % 4 * 16 = y := by omega
        rw [encode, toNat_byteOf (by omega), first, second, padded, last]
      · cases decoded
    · split at decoded
      · cases decoded
      · rename_i z read
        obtain ⟨hz, shown⟩ := digit_some read
        split at decoded
        · rename_i spare
          cases decoded
          have second : (x * 4 + y / 16) % 4 * 16 + (y % 16 * 16 + z / 4) / 16 = y := by omega
          have third : (y % 16 * 16 + z / 4) % 16 * 4 = z := by omega
          rw [encode, toNat_byteOf (by omega), toNat_byteOf (by omega), first, second, third, shown,
            last]
        · cases decoded

theorem encode_decode (text : Str) (bytes : List UInt8) (decoded : decode text = some bytes) :
    encode bytes = text := by
  fun_induction decode text generalizing bytes with
  | case1 =>
      cases decoded
      rfl
  | case2 a b c d rest x y readB readA z w readD readC ih =>
      obtain ⟨tail, read, rfl⟩ := Option.map_eq_some_iff.mp decoded
      obtain ⟨hx, shownA⟩ := digit_some readA
      obtain ⟨hy, shownB⟩ := digit_some readB
      obtain ⟨hz, shownC⟩ := digit_some readC
      obtain ⟨hw, shownD⟩ := digit_some readD
      rw [encode_bytes hx hy hz hw, ih tail read, shownA, shownB, shownC, shownD]
  | case3 a b c d x y readB readA =>
      obtain ⟨hx, shownA⟩ := digit_some readA
      obtain ⟨hy, shownB⟩ := digit_some readB
      rw [encode_decodeLast hx hy decoded, shownA, shownB]
  | case4 => cases decoded
  | case5 => cases decoded
  | case6 => cases decoded

theorem encode_graphic (bytes : List UInt8) :
    ∀ c ∈ encode bytes, 33 ≤ c.toNat ∧ c.toNat ≤ 126 := by
  have pad : 33 ≤ '='.toNat ∧ '='.toNat ≤ 126 := by decide
  fun_induction encode bytes with
  | case1 => simp
  | case2 a =>
      have := a.toNat_lt
      simp only [List.mem_cons, List.not_mem_nil, or_false, forall_eq_or_imp, forall_eq]
      exact ⟨symbol_graphic _ (by omega), symbol_graphic _ (by omega), pad, pad⟩
  | case3 a b =>
      have := a.toNat_lt
      have := b.toNat_lt
      simp only [List.mem_cons, List.not_mem_nil, or_false, forall_eq_or_imp, forall_eq]
      exact ⟨symbol_graphic _ (by omega), symbol_graphic _ (by omega),
        symbol_graphic _ (by omega), pad⟩
  | case4 a b c rest ih =>
      have := a.toNat_lt
      have := b.toNat_lt
      have := c.toNat_lt
      simp only [List.mem_cons, forall_eq_or_imp]
      exact ⟨symbol_graphic _ (by omega), symbol_graphic _ (by omega),
        symbol_graphic _ (by omega),
        symbol_graphic _ (by omega), ih⟩

def standard : Engine where
  encode := encode
  decode := decode
  decode_encode := decode_encode
  encode_decode := encode_decode
  encode_graphic := encode_graphic

example : encode [0x4D, 0x61, 0x6E, 0x4D] = "TWFuTQ==".toList := by decide

end PgHa.Base64
