import MetaframerKernel.Js.CodeUnits

/-!
# UTF-8

The UTF-8 decoder of the Encoding Standard, one byte at a time. What it writes is either a scalar
value or an error, which `TextDecoder` turns into U+FFFD or into an exception.

## Main definitions

* `utf8Encode`: the bytes of a text;
* `utf8Items`: the scalar values and errors a sequence of bytes decodes to;
* `utf8Decode`, `utf8DecodeFatal?`: the two ways to treat an error.

## Main results

* `utf8Items_utf8Encode`: an encoded text decodes to itself, without errors.
-/

namespace Js

/-- The bytes of a text. -/
def utf8Encode (cs : List Char) : List UInt8 := cs.flatMap String.utf8EncodeChar

/-- A character some of whose bytes have been read. -/
structure PartialChar where
  /-- The bits read so far. -/
  point : ℕ
  /-- The number of bytes to come, less one. -/
  more : ℕ
  /-- The bounds of the next byte. -/
  lower : ℕ
  upper : ℕ

/-- What a byte leaves: the item it completes, if any, and the character it leaves open, if any. -/
structure ByteResult where
  item : Option (Option Char)
  rest : Option PartialChar

/-- A byte between characters. -/
def firstByte (b : ℕ) : ByteResult :=
  if b < 0x80 then ⟨some (some (Char.ofNat b)), none⟩
  else if b < 0xC2 then ⟨some none, none⟩
  else if b < 0xE0 then ⟨none, some ⟨b - 0xC0, 0, 0x80, 0xBF⟩⟩
  else if b < 0xF0 then
    ⟨none, some ⟨b - 0xE0, 1, if b = 0xE0 then 0xA0 else 0x80, if b = 0xED then 0x9F else 0xBF⟩⟩
  else if b < 0xF5 then
    ⟨none, some ⟨b - 0xF0, 2, if b = 0xF0 then 0x90 else 0x80, if b = 0xF4 then 0x8F else 0xBF⟩⟩
  else ⟨some none, none⟩

/-- A byte within its bounds. -/
def nextByte (p : PartialChar) (b : ℕ) : ByteResult :=
  match p.more with
  | 0 => ⟨some (some (Char.ofNat (p.point * 64 + (b - 0x80)))), none⟩
  | more + 1 => ⟨none, some ⟨p.point * 64 + (b - 0x80), more, 0x80, 0xBF⟩⟩

/-- The items a sequence of bytes decodes to. A byte out of bounds ends the open character with an
error and is then read between characters. -/
def utf8ItemsFrom : Option PartialChar → List UInt8 → List (Option Char)
  | none, [] => []
  | some _, [] => [none]
  | none, b :: bs =>
      (firstByte b.toNat).item.toList ++ utf8ItemsFrom (firstByte b.toNat).rest bs
  | some p, b :: bs =>
      if p.lower ≤ b.toNat ∧ b.toNat ≤ p.upper then
        (nextByte p b.toNat).item.toList ++ utf8ItemsFrom (nextByte p b.toNat).rest bs
      else
        -- the byte that does not continue the sequence is read again as a first one
        none :: ((firstByte b.toNat).item.toList ++ utf8ItemsFrom (firstByte b.toNat).rest bs)

/-- The items a whole sequence decodes to. -/
def utf8Items (bs : List UInt8) : List (Option Char) := utf8ItemsFrom none bs

/-- The text with U+FFFD in place of each error. -/
def utf8Decode (bs : List UInt8) : List Char :=
  (utf8Items bs).map fun item => item.getD (Char.ofNat 0xFFFD)

/-- The text, where there is no error. -/
def utf8DecodeFatal? (bs : List UInt8) : Option (List Char) := (utf8Items bs).mapM id

/-! ## Reading back -/

/-- A byte has the value it is made of. -/
theorem toNat_ofNat_of_lt {n : ℕ} (h : n < 256) : (UInt8.ofNat n).toNat = n :=
  Nat.mod_eq_of_lt h

/-- A byte that opens a character. -/
theorem utf8ItemsFrom_first {n : ℕ} {p : PartialChar} (hn : n < 256)
    (h : firstByte n = ⟨none, some p⟩) (bs : List UInt8) :
    utf8ItemsFrom none (UInt8.ofNat n :: bs) = utf8ItemsFrom (some p) bs := by
  rw [utf8ItemsFrom, toNat_ofNat_of_lt hn, h]
  rfl

/-- A byte in the middle of a character. -/
theorem utf8ItemsFrom_middle {n point more lower upper : ℕ} (hn : n < 64)
    (h : lower ≤ n + 0x80 ∧ n + 0x80 ≤ upper) (bs : List UInt8) :
    utf8ItemsFrom (some ⟨point, more + 1, lower, upper⟩) (UInt8.ofNat (n + 0x80) :: bs) =
      utf8ItemsFrom (some ⟨point * 64 + n, more, 0x80, 0xBF⟩) bs := by
  rw [utf8ItemsFrom, toNat_ofNat_of_lt (by omega), if_pos h, nextByte, Nat.add_sub_cancel]
  rfl

/-- The last byte of a character. -/
theorem utf8ItemsFrom_last {n point : ℕ} (hn : n < 64) (bs : List UInt8) :
    utf8ItemsFrom (some ⟨point, 0, 0x80, 0xBF⟩) (UInt8.ofNat (n + 0x80) :: bs) =
      some (Char.ofNat (point * 64 + n)) :: utf8Items bs := by
  have hbounds : 0x80 ≤ n + 0x80 ∧ n + 0x80 ≤ 0xBF := ⟨by omega, by omega⟩
  rw [utf8ItemsFrom, toNat_ofNat_of_lt (by omega), if_pos hbounds, nextByte, Nat.add_sub_cancel]
  rfl

/-- A first byte of two announces one more. -/
theorem firstByte_two {n : ℕ} (h : 2 ≤ n ∧ n < 0x20) :
    firstByte (n + 0xC0) = ⟨none, some ⟨n, 0, 0x80, 0xBF⟩⟩ := by
  rw [firstByte, if_neg (by omega), if_neg (by omega), if_pos (by omega), Nat.add_sub_cancel]

/-- A first byte of three announces two more, of which the first is bounded. -/
theorem firstByte_three {n : ℕ} (h : n < 0x10) :
    firstByte (n + 0xE0) =
      ⟨none, some ⟨n, 1, if n = 0 then 0xA0 else 0x80, if n = 0xD then 0x9F else 0xBF⟩⟩ := by
  rw [firstByte, if_neg (by omega), if_neg (by omega), if_neg (by omega), if_pos (by omega),
    Nat.add_sub_cancel]
  simp only [Nat.reduceEqDiff, Nat.add_eq_right]

/-- A first byte of four announces three more, of which the first is bounded. -/
theorem firstByte_four {n : ℕ} (h : n < 5) :
    firstByte (n + 0xF0) =
      ⟨none, some ⟨n, 2, if n = 0 then 0x90 else 0x80, if n = 4 then 0x8F else 0xBF⟩⟩ := by
  rw [firstByte, if_neg (by omega), if_neg (by omega), if_neg (by omega), if_neg (by omega),
    if_pos (by omega), Nat.add_sub_cancel]
  simp only [Nat.reduceEqDiff, Nat.add_eq_right]

/-- An encoded character decodes to itself. -/
theorem utf8Items_encodeChar_append (c : Char) (bs : List UInt8) :
    utf8Items (String.utf8EncodeChar c ++ bs) = some c :: utf8Items bs := by
  have hbounds := char_bounds c
  have hback : Char.ofNat c.toNat = c := ofNat_toNat c
  unfold String.utf8EncodeChar
  generalize hv : c.toNat = v at hbounds hback
  have hval : c.val.toNat = v := hv
  simp only [hval]
  -- by the number of bytes: the point is put together from what they hold
  split_ifs with hone htwo hthree
  · rw [utf8Items, List.singleton_append, utf8ItemsFrom, toNat_ofNat_of_lt (by omega), firstByte,
      if_pos (by omega), hback]
    rfl
  · have hpoint : v / 64 * 64 + v % 64 = v := by omega
    rw [utf8Items, List.cons_append, List.cons_append, List.nil_append,
      utf8ItemsFrom_first (by omega) (firstByte_two (by omega)),
      utf8ItemsFrom_last (by omega)]
    rw [Nat.mod_eq_of_lt (show v / 64 < 0x20 by omega), hpoint, hback]
  · have hpoint : (v / 4096 * 64 + v / 64 % 64) * 64 + v % 64 = v := by omega
    rw [utf8Items, List.cons_append, List.cons_append, List.cons_append, List.nil_append,
      utf8ItemsFrom_first (by omega) (firstByte_three (by omega)),
      utf8ItemsFrom_middle (by omega) (by split_ifs <;> omega),
      utf8ItemsFrom_last (by omega)]
    rw [Nat.mod_eq_of_lt (show v / 4096 < 0x10 by omega), hpoint, hback]
  · have hpoint : ((v / 262144 * 64 + v / 4096 % 64) * 64 + v / 64 % 64) * 64 + v % 64 = v := by
      omega
    rw [utf8Items, List.cons_append, List.cons_append, List.cons_append, List.cons_append,
      List.nil_append, utf8ItemsFrom_first (by omega) (firstByte_four (by omega)),
      utf8ItemsFrom_middle (by omega) (by split_ifs <;> omega),
      utf8ItemsFrom_middle (by omega) (by omega),
      utf8ItemsFrom_last (by omega)]
    rw [Nat.mod_eq_of_lt (show v / 262144 < 0x08 by omega), hpoint, hback]

/-- An encoded text decodes to itself, without errors. -/
theorem utf8Items_utf8Encode (cs : List Char) : utf8Items (utf8Encode cs) = cs.map some := by
  induction cs with
  | nil => rfl
  | cons c cs ih =>
    rw [utf8Encode, List.flatMap_cons, utf8Items_encodeChar_append, ← utf8Encode, ih, List.map_cons]

/-- What is encoded decodes to itself. -/
@[simp]
theorem utf8Decode_utf8Encode (cs : List Char) : utf8Decode (utf8Encode cs) = cs := by
  simp [utf8Decode, utf8Items_utf8Encode, Function.comp_def]

/-- What is encoded is never refused. -/
@[simp]
theorem utf8DecodeFatal?_utf8Encode (cs : List Char) :
    utf8DecodeFatal? (utf8Encode cs) = some cs := by
  rw [utf8DecodeFatal?, utf8Items_utf8Encode]
  induction cs with
  | nil => rfl
  | cons c cs ih =>
    rw [List.map_cons, List.mapM_cons, ih]
    rfl

end Js
