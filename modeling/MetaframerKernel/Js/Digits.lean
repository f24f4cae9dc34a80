import MetaframerKernel.Js.CodeUnits

/-!
# Decimal digits

Strings of digits and the numbers they spell, digit by digit from the left.

## Main definitions

* `decimal`: the number a string of digits spells;
* `padded`: the digits of a number, at a fixed width.

## Main results

* `decimal_padded`, `padded_decimal`: each determines the other;
* `eq_of_decimal_eq`: a canonical spelling is the only one of its number.
-/

namespace Js

/-- `[0-9]` -/
def isDigitUnit (u : CodeUnit) : Bool := u.inRange '0' '9'

/-- `Number(digits)` -/
def decimal (digits : JsString) : ℕ := digits.foldl (fun n u => 10 * n + (u.val - 48)) 0

/-- The digit of a number below ten. -/
def digit (n : ℕ) : CodeUnit := Fin.ofNat 65536 (48 + n % 10)

/-- The last `width` decimal digits of a number. -/
def padded : ℕ → ℕ → JsString
  | 0, _ => []
  | width + 1, n => padded width (n / 10) ++ [digit n]

/-- The unit of a digit. -/
theorem val_digit (n : ℕ) : (digit n).val = 48 + n % 10 :=
  Nat.mod_eq_of_lt (by omega)

/-- The units of digits. -/
theorem isDigitUnit_iff (u : CodeUnit) : isDigitUnit u = true ↔ 48 ≤ u.val ∧ u.val ≤ 57 := by
  rw [isDigitUnit, CodeUnit.inRange, Bool.and_eq_true, decide_eq_true_iff, decide_eq_true_iff]
  rfl

/-- A digit has the unit of one. -/
theorem isDigitUnit_digit (n : ℕ) : isDigitUnit (digit n) = true := by
  rw [isDigitUnit_iff, val_digit]
  omega

/-- The digit a unit is. -/
theorem digit_of_isDigitUnit {u : CodeUnit} (h : isDigitUnit u = true) (n : ℕ) :
    digit (10 * n + (u.val - 48)) = u := by
  rw [isDigitUnit_iff] at h
  apply Fin.ext
  rw [val_digit]
  omega

/-- One more digit makes the value ten times as large, and adds its own. -/
@[simp]
theorem decimal_append (digits : JsString) (u : CodeUnit) :
    decimal (digits ++ [u]) = 10 * decimal digits + (u.val - 48) := by
  simp [decimal]

/-- A padded number has its width. -/
theorem length_padded (width n : ℕ) : (padded width n).length = width := by
  induction width generalizing n with
  | zero => rfl
  | succ width ih => rw [padded, List.length_append, ih, List.length_singleton]

/-- A padded number is made of digits. -/
theorem isDigitUnit_of_mem_padded {width n : ℕ} {u : CodeUnit} (h : u ∈ padded width n) :
    isDigitUnit u = true := by
  induction width generalizing n with
  | zero => cases h
  | succ width ih =>
    rw [padded, List.mem_append, List.mem_singleton] at h
    rcases h with h | rfl
    · exact ih h
    · exact isDigitUnit_digit n

/-- The digits of a number that fits spell it. -/
theorem decimal_padded {width n : ℕ} (h : n < 10 ^ width) : decimal (padded width n) = n := by
  induction width generalizing n with
  | zero =>
    rw [pow_zero, Nat.lt_one_iff] at h
    rw [h]
    rfl
  | succ width ih =>
    rw [pow_succ] at h
    rw [padded, decimal_append, ih (by omega), val_digit]
    omega

/-- Digits are those of the number they spell. -/
theorem padded_decimal {digits : JsString} (h : ∀ u ∈ digits, isDigitUnit u = true) :
    padded digits.length (decimal digits) = digits := by
  induction digits using List.reverseRecOn with
  | nil => rfl
  | append_singleton digits u ih =>
    have hu : isDigitUnit u = true := h u (by simp)
    have hle := (isDigitUnit_iff u).mp hu
    have hdiv : (10 * decimal digits + (u.val - 48)) / 10 = decimal digits := by omega
    rw [List.length_append, List.length_singleton, padded, decimal_append, hdiv,
      ih fun v hv => h v (List.mem_append_left _ hv), digit_of_isDigitUnit hu]

/-- Digits spell a number that fits. -/
theorem decimal_lt {digits : JsString} (h : ∀ u ∈ digits, isDigitUnit u = true) :
    decimal digits < 10 ^ digits.length := by
  induction digits using List.reverseRecOn with
  | nil => exact Nat.one_pos
  | append_singleton digits u ih =>
    have hle := (isDigitUnit_iff u).mp (h u (by simp))
    have hlt := ih fun v hv => h v (List.mem_append_left _ hv)
    rw [decimal_append, List.length_append, List.length_singleton, pow_succ]
    omega

/-- Digits that do not start with a zero spell no small number. -/
theorem le_decimal {u : CodeUnit} {digits : JsString} (hu : isDigitUnit u = true) (hne : u ≠ 48) :
    10 ^ digits.length ≤ decimal (u :: digits) := by
  induction digits using List.reverseRecOn with
  | nil =>
    have hle := (isDigitUnit_iff u).mp hu
    have hval : u.val ≠ 48 := fun h => hne (Fin.ext h)
    simp only [decimal, List.foldl_cons, List.foldl_nil, List.length_nil, pow_zero]
    omega
  | append_singleton digits v ih =>
    rw [← List.cons_append, decimal_append, List.length_append, List.length_singleton, pow_succ]
    omega

/-- Digits of one length that spell one number are the same. -/
theorem eq_of_decimal_eq_of_length {s t : JsString} (hs : ∀ u ∈ s, isDigitUnit u = true)
    (ht : ∀ u ∈ t, isDigitUnit u = true) (hlength : s.length = t.length)
    (h : decimal s = decimal t) : s = t := by
  rw [← padded_decimal hs, ← padded_decimal ht, hlength, h]

/-- A canonical spelling has a digit, and no leading zero beside it. -/
def IsCanonical (s : JsString) : Prop :=
  (∀ u ∈ s, isDigitUnit u = true) ∧ s ≠ [] ∧ (s.length = 1 ∨ s.head? ≠ some 48)

/-- Canonical decimals of one value have one length. -/
theorem IsCanonical.length_le {s t : JsString} (hs : IsCanonical s) (ht : IsCanonical t)
    (h : decimal s = decimal t) : t.length ≤ s.length := by
  obtain ⟨htd, -, hhead⟩ := ht
  by_contra! hlt
  have hone : 1 ≤ s.length := List.length_pos_iff.mpr hs.2.1
  cases t with
  | nil => simp at hlt
  | cons u t =>
    rcases hhead with hhead | hhead
    · omega
    · have hle : 10 ^ t.length ≤ decimal (u :: t) :=
        le_decimal (htd u List.mem_cons_self) fun h => hhead (h ▸ rfl)
      have hpow : 10 ^ s.length ≤ 10 ^ t.length :=
        Nat.pow_le_pow_right (by decide) (Nat.le_of_lt_succ hlt)
      have hbound := decimal_lt hs.1
      omega

/-- A canonical spelling is the only one of its number. -/
theorem eq_of_decimal_eq {s t : JsString} (hs : IsCanonical s) (ht : IsCanonical t)
    (h : decimal s = decimal t) : s = t :=
  eq_of_decimal_eq_of_length hs.1 ht.1 (le_antisymm (ht.length_le hs h.symm) (hs.length_le ht h)) h

end Js
