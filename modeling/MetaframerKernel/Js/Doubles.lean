import Mathlib.Order.WithBot
import MetaframerKernel.Js.Coercions
import MetaframerKernel.Js.Digits

/-!
# The Number of a natural number

A natural number becomes a Number by rounding it to 53 significant bits, to the even one of two
that are as near; from `2 ^ 1024` on the Number is infinite. Its text is the shortest decimal that
is rounded to it.

## Main definitions

* `numberOf`: the Number of a natural number;
* `naturalText`: `Number.prototype.toString`.

## Main results

* `numberOf_mono`: rounding keeps the order;
* `numberOf_of_lt`: a number below `2 ^ 53` is exact;
* `decimal_naturalText`: and its text spells it.
-/

namespace Js

/-- The first power of two that is no Number. -/
def overflow : ℕ := 2 ^ 1024

/-- The Number of a natural number. -/
def numberOf (n : ℕ) : WithTop ℕ := if rounded n < overflow then rounded n else ⊤

section Rounding

variable {m n : ℕ}

/-- A natural number below `2 ^ 53` is a double. -/
theorem rounded_of_lt (h : n < 2 ^ 53) : rounded n = n := by
  simpa using rounded_two_pow_mul h.le 0

/-- The Numbers of natural numbers keep their order. -/
theorem numberOf_mono : Monotone numberOf := by
  intro m n h
  have hrounded := rounded_mono h
  rw [numberOf, numberOf]
  split_ifs with hm hn
  · exact WithTop.coe_le_coe.mpr hrounded
  · exact le_top
  · omega
  · exact le_rfl

/-- Those numbers do not overflow. -/
theorem two_pow_lt_overflow : 2 ^ 53 < overflow := by
  rw [overflow]
  exact pow_lt_pow_right₀ (by norm_num) (by norm_num)

/-- A number below `2 ^ 53` is exact. -/
theorem numberOf_of_lt (h : n < 2 ^ 53) : numberOf n = n := by
  have hbound : rounded n < overflow := by
    rw [rounded_of_lt h]
    exact h.trans two_pow_lt_overflow
  rw [numberOf, if_pos hbound, rounded_of_lt h]

/-- A Number that is exact belongs to one natural number. -/
theorem numberOf_eq_coe_iff (hn : n < 2 ^ 53) : numberOf m = n ↔ m = n := by
  constructor
  · intro h
    rcases Nat.lt_or_ge m (2 ^ 53) with hlt | hge
    · rw [numberOf_of_lt hlt] at h
      exact WithTop.coe_injective h
    · exfalso
      have hle : numberOf (2 ^ 53) ≤ numberOf m := numberOf_mono hge
      have hpower : numberOf (2 ^ 53) = (2 ^ 53 : ℕ) := by decide +kernel
      rw [h, hpower] at hle
      have hle' : 2 ^ 53 ≤ n := by exact_mod_cast hle
      omega
  · rintro rfl
    exact numberOf_of_lt hn

end Rounding

/-! ## Text -/

/-- `Number.prototype.toString` of a non-negative integer or `Infinity`. -/
def naturalText : WithTop ℕ → JsString
  | none => lit "Infinity"
  | some n => (JsNumber.ofInt n).toText

section Text

variable {n : ℕ} {ds : List ℕ}

/-- Printed digits are the units of the digits. -/
theorem ofText_digitText (h : ∀ d ∈ ds, d < 10) : ofText (digitText ds) = ds.map digit := by
  induction ds with
  | nil => rfl
  | cons d ds ih =>
    rw [List.forall_mem_cons] at h
    have hunit : ofChar (digitChar d) = [digit d] := by
      have hd := h.1
      interval_cases d <;> rfl
    rw [digitText, List.map_cons, ofText, List.flatMap_cons, hunit, List.map_cons, ← ih h.2]
    rfl

/-- Units of digits have the value of the digits. -/
theorem decimal_map_digit (h : ∀ d ∈ ds, d < 10) : decimal (ds.map digit) = digitsValue ds := by
  induction ds using List.reverseRecOn with
  | nil => rfl
  | append_singleton ds d ih =>
    rw [List.forall_mem_append, List.forall_mem_singleton] at h
    rw [List.map_append, List.map_singleton, decimal_append, ih h.1, val_digit, digitsValue,
      digitsValue, List.reverse_append, List.reverse_singleton, List.singleton_append,
      Nat.ofDigits_cons, Nat.mod_eq_of_lt h.2]
    simp
    omega

/-- The text of a number that is exact and not zero is its digits. -/
theorem exists_naturalText_eq (hpos : n ≠ 0) (h : n < 2 ^ 53) :
    ∃ d rest, (∀ e ∈ d :: rest, e < 10) ∧ d ≠ 0 ∧ digitsValue (d :: rest) = n ∧
      naturalText n = (d :: rest).map digit := by
  obtain ⟨x, exp, hx, hneg, hexp, hvalue⟩ := JsNumber.exists_ofInt (z := n) (by omega)
  rw [Int.natAbs_natCast] at hvalue
  have hc : x.coeff ≠ 0 := by
    intro hzero
    exact hpos (by rw [← hvalue, hzero, Nat.zero_mul])
  obtain ⟨d, rest, hdigits, hd⟩ := exists_decimalDigits_cons hc
  -- the digits and the zeros behind them are few enough for a text without an exponent
  have hlength : (decimalDigits x.coeff).length + exp ≤ 21 := by
    have hle : 10 ^ (decimalDigits x.coeff).length ≤ 10 * x.coeff := by
      rw [decimalDigits, List.length_reverse]
      exact Nat.base_pow_length_digits_le 10 x.coeff (by decide) hc
    by_contra! hlong
    have hpow : 10 ^ 22 ≤ 10 ^ ((decimalDigits x.coeff).length + exp) :=
      Nat.pow_le_pow_right (by decide) hlong
    have hbound : 10 ^ ((decimalDigits x.coeff).length + exp) ≤ 10 * n := by
      rw [pow_add, ← hvalue, ← Nat.mul_assoc]
      exact Nat.mul_le_mul_right _ hle
    omega
  have hall : ∀ e ∈ d :: (rest ++ List.replicate exp 0), e < 10 := by
    rw [← List.cons_append, ← hdigits, List.forall_mem_append]
    refine ⟨fun e he => lt_ten_of_mem_decimalDigits he, fun e he => ?_⟩
    rw [List.eq_of_mem_replicate he]
    decide
  refine ⟨d, rest ++ List.replicate exp 0, hall, hd, ?_, ?_⟩
  · rw [← List.cons_append, ← hdigits, digitsValue_append_zeros, digitsValue_decimalDigits, hvalue]
  · have htext : magnitudeText (decimalDigits x.coeff) ((decimalDigits x.coeff).length + exp) =
        digitText (d :: (rest ++ List.replicate exp 0)) := by
      unfold magnitudeText
      rw [if_pos (by omega), ← List.cons_append, ← hdigits, digitText_append,
        ← digitText_zeros]
      congr 2
      omega
    have hprinted : x.text = magnitudeText (decimalDigits x.coeff)
        ((decimalDigits x.coeff).length + exp) := by
      rw [Finite.text, if_neg hc, hneg, hexp, if_neg (by simp), List.nil_append]
    change (JsNumber.ofInt n).toText = _
    rw [hx, JsNumber.toText, hprinted, htext, ofText_digitText hall]

/-- The text of an exact number spells it. -/
theorem decimal_naturalText (hpos : n ≠ 0) (h : n < 2 ^ 53) : decimal (naturalText n) = n := by
  obtain ⟨d, rest, hall, -, hvalue, htext⟩ := exists_naturalText_eq hpos h
  rw [htext, decimal_map_digit hall, hvalue]

/-- A positive number is printed as a canonical decimal. -/
theorem isCanonical_naturalText (hpos : n ≠ 0) (h : n < 2 ^ 53) : IsCanonical (naturalText n) := by
  obtain ⟨d, rest, hall, hd, -, htext⟩ := exists_naturalText_eq hpos h
  rw [htext]
  refine ⟨fun u hu => ?_, by simp, .inr ?_⟩
  · obtain ⟨e, -, rfl⟩ := List.mem_map.mp hu
    exact isDigitUnit_digit e
  · rw [List.map_cons, List.head?_cons, Option.some_inj.ne]
    intro hzero
    have hval := congrArg Fin.val hzero
    have hten := hall d List.mem_cons_self
    rw [val_digit] at hval
    have : (48 : CodeUnit).val = 48 := rfl
    omega

end Text

end Js
