import Mathlib.Data.List.Basic
import Mathlib.Tactic

/-!
# Base64

Bytes as text, six bits a character, and two lenient readings that skip what is no character of the
alphabet: one stops at the first padding, the other at complete padding only.

## Main definitions

* `encode`: the padded text of some bytes;
* `decode`: the bytes of a text;
* `decodePadded`: the bytes of a text that is padded.

## Main results

* `decode_encode`, `decodePadded_encode`: a text gives back the bytes it was made of.
-/

namespace Base64

/-- The character of six bits. -/
def charOf (n : ℕ) : Char :=
  if n < 26 then Char.ofNat (65 + n)
  else if n < 52 then Char.ofNat (97 + (n - 26))
  else if n < 62 then Char.ofNat (48 + (n - 52))
  else if n = 62 then '+'
  else '/'

/-- The six bits of a character, of the URL alphabet too. -/
def sextet? (c : Char) : Option ℕ :=
  if 65 ≤ c.toNat ∧ c.toNat ≤ 90 then some (c.toNat - 65)
  else if 97 ≤ c.toNat ∧ c.toNat ≤ 122 then some (c.toNat - 97 + 26)
  else if 48 ≤ c.toNat ∧ c.toNat ≤ 57 then some (c.toNat - 48 + 52)
  else if c = '+' ∨ c = '-' then some 62
  else if c = '/' ∨ c = '_' then some 63
  else none

/-- Three bytes are four characters; what is missing at the end is padded. -/
def encode : List UInt8 → List Char
  | [] => []
  | [a] => [charOf (a.toNat / 4), charOf (a.toNat % 4 * 16), '=', '=']
  | [a, b] =>
      [charOf (a.toNat / 4), charOf (a.toNat % 4 * 16 + b.toNat / 16),
        charOf (b.toNat % 16 * 4), '=']
  | a :: b :: c :: rest =>
      charOf (a.toNat / 4) :: charOf (a.toNat % 4 * 16 + b.toNat / 16) ::
        charOf (b.toNat % 16 * 4 + c.toNat / 64) :: charOf (c.toNat % 64) :: encode rest

/-- The bytes of a row of six bits each. -/
def joinSextets : List ℕ → List UInt8
  | p :: q :: r :: s :: rest =>
      UInt8.ofNat (p * 4 + q / 16) :: UInt8.ofNat (q % 16 * 16 + r / 4) ::
        UInt8.ofNat (r % 4 * 64 + s) :: joinSextets rest
  | [p, q, r] => [UInt8.ofNat (p * 4 + q / 16), UInt8.ofNat (q % 16 * 16 + r / 4)]
  | [p, q] => [UInt8.ofNat (p * 4 + q / 16)]
  | _ => []

/-- The six bits of every character up to the padding. -/
def sextets (cs : List Char) : List ℕ := (cs.takeWhile (· ≠ '=')).filterMap sextet?

/-- The bytes of a text. -/
def decode (cs : List Char) : List UInt8 := joinSextets (sextets cs)

/-- The character of a sextet decodes to it. -/
theorem sextet?_charOf {n : ℕ} (h : n < 64) : sextet? (charOf n) = some n := by
  have hall : ∀ n < 64, sextet? (charOf n) = some n := by decide
  exact hall n h

/-- No sextet is written as the padding. -/
theorem charOf_ne_pad {n : ℕ} (h : n < 64) : charOf n ≠ '=' := by
  have hall : ∀ n < 64, charOf n ≠ '=' := by decide
  exact hall n h

/-- The character of a sextet is one of the decoded sextets. -/
@[simp]
theorem sextets_charOf_cons {n : ℕ} (h : n < 64) (cs : List Char) :
    sextets (charOf n :: cs) = n :: sextets cs := by
  have hpad := charOf_ne_pad h
  simp only [sextets, List.takeWhile_cons, ne_eq, hpad, not_false_eq_true, decide_true, if_true,
    List.filterMap_cons_some (sextet?_charOf h)]

/-- The padding ends the sextets. -/
@[simp]
theorem sextets_pad (cs : List Char) : sextets ('=' :: cs) = [] := rfl

/-- A byte is known by its value. -/
theorem ofNat_eq {n : ℕ} {a : UInt8} (h : n = a.toNat) : UInt8.ofNat n = a := by
  rw [h, UInt8.ofNat_toNat]

/-- A text gives back the bytes it was made of. -/
theorem decode_encode (bytes : List UInt8) : decode (encode bytes) = bytes := by
  -- as the encoder does it: three bytes at a time, with one or two at the end
  induction bytes using encode.induct with
  | case1 => rfl
  | case2 a =>
    have ha := a.toNat_lt
    have h : sextets (encode [a]) = [a.toNat / 4, a.toNat % 4 * 16] := by
      simp (disch := omega) only [encode, sextets_charOf_cons, sextets_pad]
    rw [decode, h, joinSextets, ofNat_eq (a := a) (by omega)]
  | case3 a b =>
    have ha := a.toNat_lt
    have hb := b.toNat_lt
    have h : sextets (encode [a, b]) =
        [a.toNat / 4, a.toNat % 4 * 16 + b.toNat / 16, b.toNat % 16 * 4] := by
      simp (disch := omega) only [encode, sextets_charOf_cons, sextets_pad]
    rw [decode, h, joinSextets, ofNat_eq (a := a) (by omega), ofNat_eq (a := b) (by omega)]
  | case4 a b c rest ih =>
    have ha := a.toNat_lt
    have hb := b.toNat_lt
    have hc := c.toNat_lt
    have h : sextets (encode (a :: b :: c :: rest)) =
        a.toNat / 4 :: (a.toNat % 4 * 16 + b.toNat / 16) :: (b.toNat % 16 * 4 + c.toNat / 64) ::
          c.toNat % 64 :: sextets (encode rest) := by
      simp (disch := omega) only [encode, sextets_charOf_cons]
    rw [decode, h, joinSextets, ofNat_eq (a := a) (by omega), ofNat_eq (a := b) (by omega),
      ofNat_eq (a := c) (by omega)]
    exact congrArg (a :: b :: c :: ·) ih

/-! ## Padded texts -/

/-- The six bits of a character. -/
def sextetStandard? (c : Char) : Option ℕ := if c = '-' ∨ c = '_' then none else sextet? c

/-- The bytes of a text, from a position in a group of four on, with the padding seen and the bits
left over. A text that ends within a group has none. -/
def decodeFrom (quad pads left : ℕ) : List Char → Option (List UInt8)
  | [] => if quad = 0 then some [] else none
  | c :: cs =>
      if c = '=' then
        if 2 ≤ quad then
          -- the padding that completes a group ends the text
          if 4 ≤ quad + (pads + 1) then some [] else decodeFrom quad (pads + 1) left cs
        else decodeFrom quad pads left cs
      else
        match sextetStandard? c with
        -- characters outside the alphabet are passed over
        | none => decodeFrom quad pads left cs
        | some s =>
            match quad with
            -- the bits of a group that fill no byte yet are carried in `left`
            | 0 => decodeFrom 1 0 s cs
            | 1 => (decodeFrom 2 0 (s % 16) cs).map (UInt8.ofNat (left * 4 + s / 16) :: ·)
            | 2 => (decodeFrom 3 0 (s % 4) cs).map (UInt8.ofNat (left * 16 + s / 4) :: ·)
            | _ => (decodeFrom 0 0 0 cs).map (UInt8.ofNat (left * 64 + s) :: ·)

/-- The bytes of a padded text. -/
def decodePadded (cs : List Char) : Option (List UInt8) := decodeFrom 0 0 0 cs

/-- The standard alphabet decodes the character of a sextet. -/
theorem sextetStandard?_charOf {n : ℕ} (h : n < 64) : sextetStandard? (charOf n) = some n := by
  have hall : ∀ n < 64, sextetStandard? (charOf n) = some n := by decide
  exact hall n h

section Group

variable {n pads left : ℕ} {cs : List Char}

/-- The first sextet of four is kept whole. -/
theorem decodeFrom_zero (h : n < 64) :
    decodeFrom 0 pads left (charOf n :: cs) = decodeFrom 1 0 n cs := by
  rw [decodeFrom, if_neg (charOf_ne_pad h), sextetStandard?_charOf h]
  rfl

/-- The second sextet completes the first byte. -/
theorem decodeFrom_one (h : n < 64) : decodeFrom 1 pads left (charOf n :: cs) =
    (decodeFrom 2 0 (n % 16) cs).map (UInt8.ofNat (left * 4 + n / 16) :: ·) := by
  rw [decodeFrom, if_neg (charOf_ne_pad h), sextetStandard?_charOf h]
  rfl

/-- The third sextet completes the second byte. -/
theorem decodeFrom_two (h : n < 64) : decodeFrom 2 pads left (charOf n :: cs) =
    (decodeFrom 3 0 (n % 4) cs).map (UInt8.ofNat (left * 16 + n / 4) :: ·) := by
  rw [decodeFrom, if_neg (charOf_ne_pad h), sextetStandard?_charOf h]
  rfl

/-- The fourth sextet completes the third byte. -/
theorem decodeFrom_three (h : n < 64) : decodeFrom 3 pads left (charOf n :: cs) =
    (decodeFrom 0 0 0 cs).map (UInt8.ofNat (left * 64 + n) :: ·) := by
  rw [decodeFrom, if_neg (charOf_ne_pad h), sextetStandard?_charOf h]
  rfl

end Group

/-- A padded text gives back the bytes it was made of. -/
theorem decodePadded_encode (bytes : List UInt8) : decodePadded (encode bytes) = some bytes := by
  unfold decodePadded
  -- as the encoder does it: three bytes at a time, with one or two at the end
  induction bytes using encode.induct with
  | case1 => rfl
  | case2 a =>
    have ha := a.toNat_lt
    have hpadding (left : ℕ) : decodeFrom 2 0 left ['=', '='] = some [] := rfl
    rw [encode, decodeFrom_zero (by omega), decodeFrom_one (by omega), hpadding, Option.map_some,
      ofNat_eq (a := a) (by omega)]
  | case3 a b =>
    have ha := a.toNat_lt
    have hb := b.toNat_lt
    have hpadding (left : ℕ) : decodeFrom 3 0 left ['='] = some [] := rfl
    rw [encode, decodeFrom_zero (by omega), decodeFrom_one (by omega), decodeFrom_two (by omega),
      hpadding, Option.map_some, Option.map_some, ofNat_eq (a := a) (by omega),
      ofNat_eq (a := b) (by omega)]
  | case4 a b c rest ih =>
    have ha := a.toNat_lt
    have hb := b.toNat_lt
    have hc := c.toNat_lt
    rw [encode, decodeFrom_zero (by omega), decodeFrom_one (by omega), decodeFrom_two (by omega),
      decodeFrom_three (by omega), ih]
    simp only [Option.map_some]
    rw [ofNat_eq (a := a) (by omega), ofNat_eq (a := b) (by omega), ofNat_eq (a := c) (by omega)]

end Base64
