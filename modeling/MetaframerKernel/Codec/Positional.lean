import Mathlib.Data.List.Lex
import Mathlib.Tactic

/-!
# Numerals of a fixed width

The digits of a natural number in a base, most significant first, cut to a width. Numbers that fit
the width are told apart by their numerals, and ordered as these are lexicographically; letters in
the order of the digits they stand for keep this.

## Main definitions

* `numeral`: the numeral of a number;
* `value`: the number of a numeral.

## Main results

* `value_numeral`: a number that fits is read back;
* `numeral_lt_numeral_iff`: numerals are ordered as the numbers.
-/

namespace Positional

variable {b : ℕ} [NeZero b]

/-- The last `width` digits of a number. -/
def numeral (b : ℕ) [NeZero b] : ℕ → ℕ → List (Fin b)
  | 0, _ => []
  | width + 1, n => numeral b width (n / b) ++ [Fin.ofNat b n]

/-- The number the digits spell. -/
def value (digits : List (Fin b)) : ℕ := digits.foldl (fun (n : ℕ) (d : Fin b) => b * n + d.val) 0

/-- A numeral has its width. -/
theorem length_numeral (width n : ℕ) : (numeral b width n).length = width := by
  induction width generalizing n with
  | zero => rfl
  | succ width ih => rw [numeral, List.length_append, ih, List.length_singleton]

omit [NeZero b] in
/-- One more digit makes the value `b` times as large, and adds its own. -/
theorem value_append (digits : List (Fin b)) (d : Fin b) :
    value (digits ++ [d]) = b * value digits + d := by
  rw [value, List.foldl_append]
  rfl

/-- A number that fits the width is read back. -/
theorem value_numeral {width n : ℕ} (h : n < b ^ width) : value (numeral b width n) = n := by
  induction width generalizing n with
  | zero =>
    rw [pow_zero, Nat.lt_one_iff] at h
    exact h.symm
  | succ width ih =>
    have hquotient : n / b < b ^ width := Nat.div_lt_of_lt_mul (by rwa [← pow_succ'])
    rw [numeral, value_append, ih hquotient, Fin.val_ofNat]
    exact Nat.div_add_mod n b

/-- The leading digit of a numeral. -/
theorem numeral_succ (width n : ℕ) :
    numeral b (width + 1) n = Fin.ofNat b (n / b ^ width) :: numeral b width n := by
  induction width generalizing n with
  | zero =>
    rw [pow_zero, Nat.div_one]
    rfl
  | succ width ih =>
    calc numeral b (width + 1 + 1) n
        = numeral b (width + 1) (n / b) ++ [Fin.ofNat b n] := rfl
      _ = Fin.ofNat b (n / b / b ^ width) :: (numeral b width (n / b) ++ [Fin.ofNat b n]) := by
          rw [ih, List.cons_append]
      _ = Fin.ofNat b (n / b ^ (width + 1)) :: numeral b (width + 1) n := by
          rw [Nat.div_div_eq_div_mul, ← pow_succ', numeral]

/-- A letter for each digit. -/
def spelled {α : Type} (letter : Fin b → α) (width n : ℕ) : List α :=
  (numeral b width n).map letter

section Order

variable {α : Type} [LinearOrder α]

/-- Lists of one length are in the order of their beginnings. -/
theorem append_lt_append {xs ys : List α} (hlength : xs.length = ys.length) (h : xs < ys)
    (xs' ys' : List α) : xs ++ xs' < ys ++ ys' := by
  induction xs generalizing ys with
  | nil =>
    rw [List.eq_nil_of_length_eq_zero hlength.symm] at h
    exact absurd h (lt_irrefl _)
  | cons x xs ih =>
    cases ys with
    | nil => cases hlength
    | cons y ys =>
      rw [List.cons_append, List.cons_append, List.cons_lt_cons_iff]
      rcases List.cons_lt_cons_iff.mp h with hlt | ⟨rfl, hlt⟩
      · exact .inl hlt
      · exact .inr ⟨rfl, ih (Nat.succ.inj hlength) hlt⟩

/-- Lists that differ in their last element are in its order. -/
theorem append_lt_append_left {x y : α} (xs : List α) (h : x < y) : xs ++ [x] < xs ++ [y] := by
  induction xs with
  | nil => exact List.cons_lt_cons_iff.mpr (.inl h)
  | cons x' xs ih => exact List.cons_lt_cons_iff.mpr (.inr ⟨rfl, ih⟩)

/-- The numeral of a smaller number comes first. -/
theorem numeral_lt_numeral {width m n : ℕ} (hn : n < b ^ width) (h : m < n) :
    numeral b width m < numeral b width n := by
  induction width generalizing m n with
  | zero =>
    rw [pow_zero, Nat.lt_one_iff] at hn
    exact absurd (hn ▸ h) (Nat.not_lt_zero m)
  | succ width ih =>
    have hquotient : n / b < b ^ width := Nat.div_lt_of_lt_mul (by rwa [← pow_succ'])
    rw [numeral, numeral]
    rcases (Nat.div_le_div_right h.le : m / b ≤ n / b).lt_or_eq with hlt | heq
    · exact append_lt_append (by rw [length_numeral, length_numeral]) (ih hquotient hlt) _ _
    · -- the quotients agree, so the remainders decide
      rw [heq]
      refine append_lt_append_left _ (Fin.lt_def.mpr ?_)
      rw [Fin.val_ofNat, Fin.val_ofNat]
      have hm := Nat.div_add_mod m b
      have hn' := Nat.div_add_mod n b
      rw [heq] at hm
      omega

/-- Letters in the order of the digits keep that of the digits' lists. -/
theorem map_lt_map {β : Type} [LinearOrder β] {f : β → α} (hf : StrictMono f) {xs ys : List β}
    (h : xs < ys) : xs.map f < ys.map f := by
  induction xs generalizing ys with
  | nil =>
    cases ys with
    | nil => exact absurd h (lt_irrefl _)
    | cons y ys => exact List.nil_lt_cons _ _
  | cons x xs ih =>
    cases ys with
    | nil => exact absurd h (List.not_lt_nil _)
    | cons y ys =>
      rw [List.map_cons, List.map_cons, List.cons_lt_cons_iff]
      rcases List.cons_lt_cons_iff.mp h with hlt | ⟨rfl, hlt⟩
      · exact .inl (hf hlt)
      · exact .inr ⟨rfl, ih hlt⟩

/-- Numbers that fit are ordered as their numerals, spelled with letters in the order of the
digits. -/
theorem spelled_lt_spelled_iff {letter : Fin b → α} (hletter : StrictMono letter) {width m n : ℕ}
    (hm : m < b ^ width) (hn : n < b ^ width) :
    spelled letter width m < spelled letter width n ↔ m < n := by
  have hlt {m n : ℕ} (hn : n < b ^ width) (h : m < n) :
      spelled letter width m < spelled letter width n :=
    map_lt_map hletter (numeral_lt_numeral hn h)
  refine ⟨fun h => ?_, hlt hn⟩
  by_contra hle
  rcases (not_lt.mp hle).lt_or_eq with hnm | rfl
  · exact lt_asymm h (hlt hm hnm)
  · exact lt_irrefl _ h

end Order

end Positional
