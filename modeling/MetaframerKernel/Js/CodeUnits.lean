import Mathlib.Data.Fin.Basic
import Mathlib.Data.List.Lex
import Mathlib.Order.Fin.Basic
import Mathlib.Tactic

/-!
# JavaScript strings

An ECMAScript string is a finite sequence of 16-bit code units, in which a surrogate may stand
alone. This file fixes that representation, the Unicode reading of it, and the fixed-width
character forms that regular expressions such as `/^[0-9a-f]{64}$/` describe.

Strings are ordered lexicographically by code unit, which is both what `<` does on strings and
what the default comparator of `Array.prototype.sort` does.

## Main definitions

* `JsString`: the code units of a string;
* `ofText`: the code units of a text of Unicode scalar values;
* `toScalars`: the scalar values a UTF-8 encoder writes, a lone surrogate becoming U+FFFD;
* `matchesForm`: a string spelled by one character class a position.

## Main results

* `toScalars_ofText`: a text survives the passage through code units;
* `utf8Bytes_ofText_inj`: distinct texts have distinct UTF-8 bytes.
-/

namespace Js

/-- A UTF-16 code unit. -/
abbrev CodeUnit := Fin 65536

/-- An ECMAScript string: any finite sequence of code units. -/
abbrev JsString := List CodeUnit

instance neZeroUnits : NeZero 65536 := ⟨by decide⟩

instance lawfulBEqString : LawfulBEq JsString := inferInstance

instance decidableEqByteArray : DecidableEq ByteArray := ByteArray.decEq

namespace CodeUnit

/-- The unit is a leading surrogate. -/
def isHigh (u : CodeUnit) : Bool := 0xD800 ≤ u.val && u.val ≤ 0xDBFF

/-- The unit is a trailing surrogate. -/
def isLow (u : CodeUnit) : Bool := 0xDC00 ≤ u.val && u.val ≤ 0xDFFF

/-- The unit lies between two characters, inclusive. -/
def inRange (lo hi : Char) (u : CodeUnit) : Bool := lo.toNat ≤ u.val && u.val ≤ hi.toNat

/-- The unit is the given character. -/
def isChar (c : Char) (u : CodeUnit) : Bool := u.val == c.toNat

/-- The unit is one of the characters of `cs`. -/
def oneOf (cs : String) (u : CodeUnit) : Bool := cs.toList.any fun c => u.isChar c

end CodeUnit

/-- The code point of a surrogate pair. -/
def pairPoint (hi lo : CodeUnit) : ℕ := 0x10000 + (hi.val - 0xD800) * 0x400 + (lo.val - 0xDC00)

/-- The code units of one scalar value. -/
def ofChar (c : Char) : JsString :=
  if c.toNat < 0x10000 then [Fin.ofNat 65536 c.toNat]
  else
    [Fin.ofNat 65536 (0xD800 + (c.toNat - 0x10000) / 0x400),
      Fin.ofNat 65536 (0xDC00 + (c.toNat - 0x10000) % 0x400)]

/-- The code units of a text. -/
def ofText (cs : List Char) : JsString := cs.flatMap ofChar

/-- The code units of a string literal of the source. -/
def lit (s : String) : JsString := ofText s.toList

/-- The scalar values of a string. A surrogate that is not half of a pair has none and is read as
the replacement character, as `TextEncoder` and Node's `"utf8"` encoding do. -/
def toScalars : JsString → List Char
  | [] => []
  | [u] => [if u.isHigh || u.isLow then Char.ofNat 0xFFFD else Char.ofNat u.val]
  | u :: v :: rest =>
      if u.isHigh && v.isLow then Char.ofNat (pairPoint u v) :: toScalars rest
      else
        (if u.isHigh || u.isLow then Char.ofNat 0xFFFD else Char.ofNat u.val)
          :: toScalars (v :: rest)

/-- The UTF-8 bytes of a string. -/
def utf8Bytes (s : JsString) : ByteArray := (String.ofList (toScalars s)).toUTF8

/-! ## Units of a scalar value -/

/-- A scalar value is a code point outside the surrogate range. -/
theorem char_bounds (c : Char) :
    c.toNat < 0xD800 ∨ (0xDFFF < c.toNat ∧ c.toNat < 0x110000) := by
  have h := c.valid
  simpa [UInt32.isValidChar, Nat.isValidChar] using h

theorem ofNat_toNat (c : Char) : Char.ofNat c.toNat = c := by
  simp

/-- A scalar value of the basic plane is one unit, and that unit is no surrogate. -/
theorem ofChar_of_lt {c : Char} (h : c.toNat < 0x10000) :
    ∃ u : CodeUnit, ofChar c = [u] ∧ u.val = c.toNat ∧ u.isHigh = false ∧ u.isLow = false := by
  refine ⟨Fin.ofNat 65536 c.toNat, by rw [ofChar, if_pos h], ?_, ?_, ?_⟩
  · exact Nat.mod_eq_of_lt h
  all_goals
    have hb := char_bounds c
    have hv : (Fin.ofNat 65536 c.toNat).val = c.toNat := Nat.mod_eq_of_lt h
    simp only [CodeUnit.isHigh, CodeUnit.isLow, hv]
    rw [Bool.and_eq_false_iff, decide_eq_false_iff_not, decide_eq_false_iff_not]
    omega

/-- A scalar value outside the basic plane is a leading and a trailing surrogate whose code point
it is. -/
theorem ofChar_of_ge {c : Char} (h : 0x10000 ≤ c.toNat) :
    ∃ hi lo : CodeUnit, ofChar c = [hi, lo] ∧ hi.isHigh = true ∧ lo.isLow = true ∧
      pairPoint hi lo = c.toNat := by
  have hb := char_bounds c
  have hnot : ¬ c.toNat < 0x10000 := by omega
  have hhi : (Fin.ofNat 65536 (0xD800 + (c.toNat - 0x10000) / 0x400)).val =
      0xD800 + (c.toNat - 0x10000) / 0x400 := Nat.mod_eq_of_lt (by omega)
  have hlo : (Fin.ofNat 65536 (0xDC00 + (c.toNat - 0x10000) % 0x400)).val =
      0xDC00 + (c.toNat - 0x10000) % 0x400 := Nat.mod_eq_of_lt (by omega)
  rw [ofChar, if_neg hnot]
  generalize Fin.ofNat 65536 (0xD800 + (c.toNat - 0x10000) / 0x400) = hi at hhi
  generalize Fin.ofNat 65536 (0xDC00 + (c.toNat - 0x10000) % 0x400) = lo at hlo
  refine ⟨hi, lo, rfl, ?_, ?_, ?_⟩
  · rw [CodeUnit.isHigh, Bool.and_eq_true, decide_eq_true_eq, decide_eq_true_eq]
    omega
  · rw [CodeUnit.isLow, Bool.and_eq_true, decide_eq_true_eq, decide_eq_true_eq]
    omega
  · unfold pairPoint
    omega

/-- An ASCII character that a text lacks is none of its code units. -/
theorem notMem_ofText {cs : List Char} {c : Char} (hc : c.toNat < 0x80) (h : c ∉ cs) :
    Fin.ofNat 65536 c.toNat ∉ ofText cs := by
  rintro hmem
  obtain ⟨d, hd, hu⟩ := List.mem_flatMap.mp hmem
  by_cases hlt : d.toNat < 0x10000
  · rw [ofChar, if_pos hlt, List.mem_singleton] at hu
    have hval := congrArg Fin.val hu
    rw [Fin.val_ofNat, Fin.val_ofNat, Nat.mod_eq_of_lt (by omega), Nat.mod_eq_of_lt hlt] at hval
    exact h (Char.toNat_inj.mp hval ▸ hd)
  · obtain ⟨hi, lo, hunits, hhi, hlo, -⟩ := ofChar_of_ge (Nat.le_of_not_lt hlt)
    simp only [CodeUnit.isHigh, CodeUnit.isLow, Bool.and_eq_true, decide_eq_true_eq] at hhi hlo
    rw [hunits] at hu
    have hval : (Fin.ofNat 65536 c.toNat).val = c.toNat := Nat.mod_eq_of_lt (by omega)
    rcases List.mem_cons.mp hu with rfl | hu
    · omega
    · rw [List.mem_singleton] at hu
      subst hu
      omega

/-- Reading one leading character back from its units. -/
theorem toScalars_ofChar_append (c : Char) (s : JsString) :
    toScalars (ofChar c ++ s) = c :: toScalars s := by
  rcases Nat.lt_or_ge c.toNat 0x10000 with h | h
  · obtain ⟨u, hu, hval, hhigh, hlow⟩ := ofChar_of_lt h
    rw [hu]
    cases s with
    | nil => simp [toScalars, hhigh, hlow, hval]
    | cons v rest => simp [toScalars, hhigh, hlow, hval]
  · obtain ⟨hi, lo, hu, hhigh, hlow, hpoint⟩ := ofChar_of_ge h
    rw [hu]
    simp [toScalars, hhigh, hlow, hpoint]

/-- A text survives the passage through code units. -/
theorem toScalars_ofText (cs : List Char) : toScalars (ofText cs) = cs := by
  induction cs with
  | nil => rfl
  | cons c cs ih =>
    rw [ofText, List.flatMap_cons, toScalars_ofChar_append, ← ofText, ih]

/-- Texts are told apart by their code units. -/
theorem ofText_injective : Function.Injective ofText :=
  Function.LeftInverse.injective toScalars_ofText

/-- Texts are told apart by their UTF-8 bytes. -/
theorem utf8Bytes_ofText_inj {cs ds : List Char} :
    utf8Bytes (ofText cs) = utf8Bytes (ofText ds) ↔ cs = ds := by
  rw [utf8Bytes, utf8Bytes, toScalars_ofText, toScalars_ofText]
  exact String.toByteArray_inj.trans String.ofList_inj

/-- Bytes are told apart by the units of the same value. -/
theorem unitOfByte_injective :
    Function.Injective fun b : UInt8 => (Fin.ofNat 65536 b.toNat : CodeUnit) := by
  intro x y hxy
  have hx := x.toNat_lt
  have hy := y.toNat_lt
  have hval := congrArg Fin.val hxy
  simp only [Fin.val_ofNat] at hval
  exact UInt8.toNat_inj.mp (by omega)

/-! ## Fixed-width forms -/

/-- The string is spelled by the classes of `form`, one a position: the reading of an anchored
regular expression without alternatives or unbounded repetition. -/
def matchesForm : List (CodeUnit → Bool) → JsString → Bool
  | [], [] => true
  | p :: form, u :: s => p u && matchesForm form s
  | _, _ => false

/-- Every unit of a string that has a form belongs to a class of the form. -/
theorem exists_class_of_matchesForm {form : List (CodeUnit → Bool)} {s : JsString}
    (h : matchesForm form s = true) {u : CodeUnit} (hu : u ∈ s) :
    ∃ p ∈ form, p u = true := by
  induction form generalizing s with
  | nil => cases s with
    | nil => cases hu
    | cons v s => simp [matchesForm] at h
  | cons p form ih =>
    cases s with
    | nil => cases hu
    | cons v s =>
      simp only [matchesForm, Bool.and_eq_true] at h
      rcases List.mem_cons.mp hu with rfl | hmem
      · exact ⟨p, by simp, h.1⟩
      · obtain ⟨q, hq, hqu⟩ := ih h.2 hmem
        exact ⟨q, by simp [hq], hqu⟩

/-- A string that has a form is as long as the form. -/
theorem length_of_matchesForm {form : List (CodeUnit → Bool)} {s : JsString}
    (h : matchesForm form s = true) : s.length = form.length := by
  induction form generalizing s with
  | nil => cases s with
    | nil => rfl
    | cons v s => simp [matchesForm] at h
  | cons p form ih =>
    cases s with
    | nil => simp [matchesForm] at h
    | cons v s =>
      simp only [matchesForm, Bool.and_eq_true] at h
      simp [ih h.2]

/-- A form in two parts is a string in two parts. -/
theorem matchesForm_append {f g : List (CodeUnit → Bool)} {s : JsString} :
    matchesForm (f ++ g) s = true ↔
      ∃ a b, s = a ++ b ∧ matchesForm f a = true ∧ matchesForm g b = true := by
  -- on the first form, which takes a letter for each of its classes
  induction f generalizing s with
  | nil =>
    constructor
    · exact fun h => ⟨[], s, rfl, rfl, h⟩
    · rintro ⟨a, b, rfl, ha, hb⟩
      obtain rfl := List.eq_nil_of_length_eq_zero (length_of_matchesForm ha)
      exact hb
  | cons p f ih =>
    cases s with
    | nil =>
      refine ⟨fun h => (nomatch h), ?_⟩
      rintro ⟨a, b, hab, ha, -⟩
      obtain ⟨rfl, -⟩ := List.append_eq_nil_iff.mp hab.symm
      cases ha
    | cons u s =>
      rw [List.cons_append, matchesForm, Bool.and_eq_true, ih]
      constructor
      · rintro ⟨hu, a, b, rfl, ha, hb⟩
        exact ⟨u :: a, b, rfl, Bool.and_eq_true_iff.mpr ⟨hu, ha⟩, hb⟩
      · rintro ⟨a, b, hab, ha, hb⟩
        cases a with
        | nil => cases ha
        | cons v a =>
          obtain ⟨rfl, rfl⟩ := List.cons_eq_cons.mp hab
          obtain ⟨hu, ha⟩ := Bool.and_eq_true_iff.mp ha
          exact ⟨hu, a, b, rfl, ha, hb⟩

/-- A class repeated is a string of that length in the class. -/
theorem matchesForm_replicate {width : ℕ} {p : CodeUnit → Bool} {s : JsString} :
    matchesForm (List.replicate width p) s = true ↔ s.length = width ∧ ∀ u ∈ s, p u = true := by
  induction width generalizing s with
  | zero => cases s <;> simp [matchesForm]
  | succ width ih =>
    cases s with
    | nil => simp [matchesForm, List.replicate_succ]
    | cons u s =>
      rw [List.replicate_succ, matchesForm, Bool.and_eq_true, ih, List.length_cons,
        Nat.add_left_inj, List.forall_mem_cons]
      tauto

end Js
