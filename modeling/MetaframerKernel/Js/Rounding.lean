import Mathlib.Data.Nat.Log
import Mathlib.Tactic.NormNum
import Mathlib.Tactic.Positivity
import Mathlib.Tactic.Ring

/-!
# Rounding to doubles

Every finite double is a multiple of `2 ^ -1074`, so a magnitude is counted in these units. A
decimal is rounded to 53 significant bits, or to a whole unit where that is coarser, and to the
even one of two doubles that are as near. From `2 ^ 1024` on it is infinite. A double is written
as the shortest decimal that is rounded to it.

## Main definitions

* `nearestMultiple`: rounding to the multiples of a unit;
* `rounded`: rounding to 53 significant bits;
* `decimalDouble`: the double nearest to a decimal, in units of `2 ^ -1074`;
* `shortestDecimal`: the shortest decimal that is rounded to a double;
* `roundDecimal`: the shortest decimal of the double nearest to a decimal.

## Main results

* `rounded_mono`: rounding keeps the order;
* `decimalDouble_shortestDecimal`: a shortest decimal is rounded to its double;
* `roundDecimal_idem`: rounding a second time changes nothing;
* `roundDecimal_integer`: an integer below `2 ^ 53` is exact.
-/

namespace Js

/-- The nearest multiple of a unit; of two that are as near, the even one. -/
def nearestMultiple (unit n : ℕ) : ℕ :=
  if 2 * (n % unit) < unit ∨ (2 * (n % unit) = unit ∧ n / unit % 2 = 0) then unit * (n / unit)
  else unit * (n / unit + 1)

/-- The unit of the last of 53 significant bits. -/
def lastUnit (n : ℕ) : ℕ := 2 ^ (n.log2 - 52)

/-- The number rounded to 53 significant bits. -/
def rounded (n : ℕ) : ℕ := nearestMultiple (lastUnit n) n

/-- The least positive double is two to the power of its negative. -/
@[irreducible]
def minExponent : ℕ := 1074

/-- The double nearest to `num / den`, in units of `2 ^ -1074`. -/
def nearestDouble (num den : ℕ) : ℕ :=
  nearestMultiple (den * lastUnit (2 ^ minExponent * num / den)) (2 ^ minExponent * num) / den

/-- The double nearest to `coeff · 10 ^ exp`, in units of `2 ^ -1074`. -/
def decimalDouble (coeff : ℕ) (exp : ℤ) : ℕ :=
  nearestDouble (10 ^ exp.toNat * coeff) (10 ^ (-exp).toNat)

/-- The shortest decimal that is rounded to a double, its exponent at most
`place - minExponent`. Of two coefficients the nearer one is taken. -/
def shortestDecimal (double : ℕ) : ℕ → ℕ × ℤ
  | 0 => (5 ^ minExponent * double, -minExponent)
  | place + 1 =>
      let below := 5 ^ minExponent * double / 10 ^ (place + 1)
      let near := nearestMultiple (10 ^ (place + 1)) (5 ^ minExponent * double) / 10 ^ (place + 1)
      -- both neighbours of the double at this place: the nearer one is preferred
      let far := if near = below then below + 1 else below
      let exp : ℤ := place + 1 - minExponent
      if decimalDouble near exp = double then (near, exp)
      else if decimalDouble far exp = double then (far, exp)
      else shortestDecimal double place

/-- The first power of two that is no double, in units of `2 ^ -1074`. -/
def doubleBound : ℕ := 2 ^ (1024 + minExponent)

/-- The first place that is above all digits of a double. -/
def topPlace (double : ℕ) : ℕ := Nat.log 10 (5 ^ minExponent * double) + 1

/-- The shortest decimal of the double nearest to `coeff · 10 ^ exp`; none when that is
infinite. -/
@[irreducible]
def roundDecimal (coeff : ℕ) (exp : ℤ) : Option (ℕ × ℤ) :=
  if decimalDouble coeff exp = 0 then some (0, 0)
  else if decimalDouble coeff exp < doubleBound then
    some (shortestDecimal (decimalDouble coeff exp) (topPlace (decimalDouble coeff exp)))
  else none

section Rounding

variable {unit m n : ℕ}

/-- The nearest multiple is not below the one at or below the number. -/
theorem le_nearestMultiple : unit * (n / unit) ≤ nearestMultiple unit n := by
  rw [nearestMultiple]
  split_ifs
  · exact le_rfl
  · exact Nat.mul_le_mul_left unit (Nat.le_succ _)

/-- The nearest multiple is not above the one after it. -/
theorem nearestMultiple_le : nearestMultiple unit n ≤ unit * (n / unit + 1) := by
  rw [nearestMultiple]
  split_ifs
  · exact Nat.mul_le_mul_left unit (Nat.le_succ _)
  · exact le_rfl

/-- Rounding to multiples keeps the order. -/
theorem nearestMultiple_mono (h : m ≤ n) : nearestMultiple unit m ≤ nearestMultiple unit n := by
  rcases Nat.lt_or_ge (m / unit) (n / unit) with hlt | hge
  · calc nearestMultiple unit m ≤ unit * (m / unit + 1) := nearestMultiple_le
      _ ≤ unit * (n / unit) := Nat.mul_le_mul_left unit hlt
      _ ≤ nearestMultiple unit n := le_nearestMultiple
  · have hquotient : m / unit = n / unit := le_antisymm (Nat.div_le_div_right h) hge
    have hremainder : m % unit ≤ n % unit := by
      have hm := Nat.div_add_mod m unit
      have hn := Nat.div_add_mod n unit
      rw [hquotient] at hm
      omega
    rw [nearestMultiple, nearestMultiple, hquotient]
    split_ifs with hdown hdown'
    · exact le_rfl
    · exact Nat.mul_le_mul_left unit (Nat.le_succ _)
    · omega
    · exact le_rfl

/-- The coefficient of a rounded number has 53 bits. -/
theorem div_lastUnit_lt : n / lastUnit n < 2 ^ 53 := by
  rw [lastUnit, Nat.div_lt_iff_lt_mul (Nat.two_pow_pos _), ← pow_add]
  exact Nat.lt_of_lt_of_le Nat.lt_log2_self (Nat.pow_le_pow_right (by decide) (by omega))

/-- Rounding to 53 bits keeps the order. -/
theorem rounded_mono (h : m ≤ n) : rounded m ≤ rounded n := by
  rcases Nat.eq_zero_or_pos m with rfl | hpos
  · exact Nat.zero_le _
  have hm : m ≠ 0 := by omega
  have hn : n ≠ 0 := by omega
  have hlog : m.log2 ≤ n.log2 := by
    rw [Nat.le_log2 hn]
    exact (Nat.log2_self_le hm).trans h
  -- the unit of the last place grows with the number
  rcases Nat.lt_or_ge (n.log2 - 52) (m.log2 - 52 + 1) with heq | hlt
  · -- the unit is the same
    have hunit : lastUnit n = lastUnit m := by
      rw [lastUnit, lastUnit]
      congr 1
      omega
    rw [rounded, rounded, hunit]
    exact nearestMultiple_mono h
  · -- a power of two stands between them
    have hle : rounded m ≤ 2 ^ (m.log2 - 52 + 53) := by
      calc rounded m ≤ lastUnit m * (m / lastUnit m + 1) := nearestMultiple_le
        _ ≤ lastUnit m * 2 ^ 53 := Nat.mul_le_mul_left _ div_lastUnit_lt
        _ = 2 ^ (m.log2 - 52 + 53) := by rw [lastUnit, ← pow_add]
    have hge : 2 ^ (n.log2 - 52 + 52) ≤ rounded n := by
      have hquotient : 2 ^ 52 ≤ n / lastUnit n := by
        rw [lastUnit, Nat.le_div_iff_mul_le (Nat.two_pow_pos _), ← pow_add]
        refine le_trans (Nat.pow_le_pow_right (by decide) ?_) (Nat.log2_self_le hn)
        omega
      calc 2 ^ (n.log2 - 52 + 52) = lastUnit n * 2 ^ 52 := by rw [lastUnit, ← pow_add]
        _ ≤ lastUnit n * (n / lastUnit n) := Nat.mul_le_mul_left _ hquotient
        _ ≤ rounded n := le_nearestMultiple
    exact hle.trans ((Nat.pow_le_pow_right (by decide) (by omega)).trans hge)

/-- A multiple of the unit stays what it is. -/
theorem nearestMultiple_of_dvd (hunit : 0 < unit) (h : unit ∣ n) : nearestMultiple unit n = n := by
  have hmod : n % unit = 0 := Nat.mod_eq_zero_of_dvd h
  rw [nearestMultiple, hmod, if_pos (.inl (by omega)), Nat.mul_div_cancel' h]

/-- A rounded number is the multiple below it or the one above. -/
theorem nearestMultiple_div (hunit : 0 < unit) :
    nearestMultiple unit n / unit = n / unit ∨ nearestMultiple unit n / unit = n / unit + 1 := by
  rw [nearestMultiple]
  split_ifs
  · exact .inl (Nat.mul_div_cancel_left _ hunit)
  · exact .inr (Nat.mul_div_cancel_left _ hunit)

/-- Rounding commutes with a change of scale. -/
theorem nearestMultiple_mul {scale : ℕ} (hscale : 0 < scale) :
    nearestMultiple (scale * unit) (scale * n) = scale * nearestMultiple unit n := by
  have hlt : 2 * (scale * (n % unit)) < scale * unit ↔ 2 * (n % unit) < unit := by
    rw [Nat.mul_left_comm, Nat.mul_lt_mul_left hscale]
  have heq : 2 * (scale * (n % unit)) = scale * unit ↔ 2 * (n % unit) = unit := by
    rw [Nat.mul_left_comm, Nat.mul_right_inj hscale.ne']
  rw [nearestMultiple, nearestMultiple, Nat.mul_mod_mul_left, Nat.mul_div_mul_left _ _ hscale]
  simp only [hlt, heq]
  split_ifs
  · rw [Nat.mul_assoc]
  · rw [Nat.mul_assoc]

/-- The last place has a positive unit. -/
theorem lastUnit_pos : 0 < lastUnit n := Nat.two_pow_pos _

/-- A number of 53 significant bits is one already. -/
theorem rounded_two_pow_mul {k : ℕ} (h : k ≤ 2 ^ 53) (a : ℕ) : rounded (2 ^ a * k) = 2 ^ a * k := by
  apply nearestMultiple_of_dvd lastUnit_pos
  rcases Nat.eq_zero_or_pos k with rfl | hpos
  · rw [Nat.mul_zero]
    exact Nat.dvd_zero _
  rcases Nat.lt_or_ge k (2 ^ 53) with hlt | hge
  · -- the last bit stands for no more than `2 ^ a`
    have hne : 2 ^ a * k ≠ 0 := (Nat.mul_pos (Nat.two_pow_pos a) hpos).ne'
    have hlog : (2 ^ a * k).log2 < a + 53 := by
      rw [Nat.log2_lt hne, pow_add]
      exact Nat.mul_lt_mul_of_pos_left hlt (Nat.two_pow_pos a)
    exact (Nat.pow_dvd_pow 2 (by omega)).trans (Nat.dvd_mul_right _ _)
  · rw [Nat.le_antisymm h hge, ← pow_add, lastUnit, Nat.log2_two_pow]
    exact Nat.pow_dvd_pow 2 (by omega)

end Rounding

section Doubles

variable {num den double : ℕ}

/-- A fraction that is expanded has the same nearest double. -/
theorem nearestDouble_mul {scale : ℕ} (hscale : 0 < scale) :
    nearestDouble (scale * num) (scale * den) = nearestDouble num den := by
  rw [nearestDouble, nearestDouble, Nat.mul_left_comm _ scale, Nat.mul_div_mul_left _ _ hscale,
    Nat.mul_assoc, nearestMultiple_mul hscale, Nat.mul_div_mul_left _ _ hscale]

/-- The nearest double depends on the fraction only. -/
theorem nearestDouble_congr {num' den' : ℕ} (hden : 0 < den) (hden' : 0 < den')
    (h : den' * num = den * num') : nearestDouble num den = nearestDouble num' den' := by
  rw [← nearestDouble_mul hden', h, Nat.mul_comm den' den, nearestDouble_mul hden]

/-- A whole number of units is rounded as it is. -/
theorem nearestDouble_of_eq (hden : 0 < den) (h : 2 ^ minExponent * num = den * double) :
    nearestDouble num den = rounded double := by
  rw [nearestDouble, h, Nat.mul_div_cancel_left _ hden, nearestMultiple_mul hden,
    Nat.mul_div_cancel_left _ hden, rounded]

/-- Rounding a second time changes nothing. -/
theorem rounded_nearestDouble (hden : 0 < den) :
    rounded (nearestDouble num den) = nearestDouble num den := by
  obtain ⟨q, hq⟩ : ∃ q, q = 2 ^ minExponent * num / den := ⟨_, rfl⟩
  obtain ⟨k, hk, hmultiple⟩ : ∃ k, k ≤ q / lastUnit q + 1 ∧
      nearestDouble num den = lastUnit q * k := by
    have hdiv : 2 ^ minExponent * num / (den * lastUnit q) = q / lastUnit q := by
      rw [hq, Nat.div_div_eq_div_mul]
    rw [nearestDouble, ← hq, nearestMultiple]
    split_ifs
    · exact ⟨_, Nat.le_succ _, by rw [hdiv, Nat.mul_assoc, Nat.mul_div_cancel_left _ hden]⟩
    · exact ⟨_, le_rfl, by rw [hdiv, Nat.mul_assoc, Nat.mul_div_cancel_left _ hden]⟩
  rw [hmultiple]
  exact rounded_two_pow_mul (hk.trans div_lastUnit_lt) _

/-- The double of a decimal is a double. -/
theorem rounded_decimalDouble (coeff : ℕ) (exp : ℤ) :
    rounded (decimalDouble coeff exp) = decimalDouble coeff exp :=
  rounded_nearestDouble (Nat.pow_pos (by decide))

/-- Trailing zeros only move the exponent. -/
theorem decimalDouble_mul_pow (coeff k : ℕ) (exp : ℤ) :
    decimalDouble (coeff * 10 ^ k) (exp - k) = decimalDouble coeff exp := by
  apply nearestDouble_congr (Nat.pow_pos (by decide)) (Nat.pow_pos (by decide))
  rw [Nat.mul_comm coeff, ← Nat.mul_assoc, ← Nat.mul_assoc, ← Nat.mul_assoc, ← pow_add, ← pow_add,
    ← pow_add]
  congr 2
  omega

/-- A double is rounded to itself. -/
theorem decimalDouble_exact (h : rounded double = double) :
    decimalDouble (5 ^ minExponent * double) (-minExponent) = double := by
  have hunits : 2 ^ minExponent * (10 ^ (-minExponent : ℤ).toNat * (5 ^ minExponent * double)) =
      10 ^ (-(-minExponent) : ℤ).toNat * double := by
    rw [Int.toNat_neg_natCast, neg_neg, Int.toNat_natCast, pow_zero, Nat.one_mul, ← Nat.mul_assoc,
      ← Nat.mul_pow]
  rw [decimalDouble, nearestDouble_of_eq (Nat.pow_pos (by decide)) hunits, h]

/-- A decimal next to a double, its exponent `place - minExponent`, that is rounded to it. -/
def Candidate (double place coeff : ℕ) : Prop :=
  (coeff = 5 ^ minExponent * double / 10 ^ place ∨
      coeff = 5 ^ minExponent * double / 10 ^ place + 1) ∧
    decimalDouble coeff (place - minExponent) = double

/-- A candidate without its last zero is one at the place above. -/
theorem Candidate.up {place coeff : ℕ} (h : Candidate double place coeff) (hmod : coeff % 10 = 0) :
    Candidate double (place + 1) (coeff / 10) := by
  obtain ⟨hnext, hdouble⟩ := h
  refine ⟨?_, ?_⟩
  · rw [pow_succ, ← Nat.div_div_eq_div_mul]
    omega
  · have hmove := decimalDouble_mul_pow (coeff / 10) 1 ((place + 1 : ℕ) - minExponent)
    rw [pow_one, Nat.div_mul_cancel (Nat.dvd_of_mod_eq_zero hmod),
      show ((place + 1 : ℕ) : ℤ) - minExponent - (1 : ℕ) = place - minExponent by omega,
      hdouble] at hmove
    exact hmove.symm

/-- The search ends at a candidate, and there is none at a place above it. -/
theorem shortestDecimal_spec (h : rounded double = double) (place : ℕ) :
    ∃ p ≤ place, (shortestDecimal double place).2 = p - minExponent ∧
      Candidate double p (shortestDecimal double place).1 ∧
      ∀ q, p < q → q ≤ place → ∀ coeff, ¬Candidate double q coeff := by
  induction place with
  | zero =>
    rw [shortestDecimal]
    refine ⟨0, le_rfl, by rw [Nat.cast_zero, zero_sub], ⟨.inl ?_, ?_⟩, by omega⟩
    · rw [pow_zero, Nat.div_one]
    · rw [Nat.cast_zero, zero_sub]
      exact decimalDouble_exact h
  | succ place ih =>
    have hexp : ((place + 1 : ℕ) : ℤ) - minExponent = place + 1 - minExponent := by push_cast; rfl
    have hnext := nearestMultiple_div (n := 5 ^ minExponent * double)
      (Nat.pow_pos (n := place + 1) (show 0 < 10 by decide))
    rw [shortestDecimal]
    generalize hnear : nearestMultiple (10 ^ (place + 1)) (5 ^ minExponent * double) /
      10 ^ (place + 1) = near at hnext
    -- at each place two decimals are tried, on either side of the double
    by_cases hfirst : decimalDouble near (place + 1 - minExponent) = double
    · rw [if_pos hfirst]
      exact ⟨place + 1, le_rfl, hexp.symm, ⟨hnext, by rwa [hexp]⟩, by omega⟩
    rw [if_neg hfirst]
    generalize hfar : (if near = 5 ^ minExponent * double / 10 ^ (place + 1) then
      5 ^ minExponent * double / 10 ^ (place + 1) + 1 else
      5 ^ minExponent * double / 10 ^ (place + 1)) = far
    by_cases hsecond : decimalDouble far (place + 1 - minExponent) = double
    · rw [if_pos hsecond]
      refine ⟨place + 1, le_rfl, hexp.symm, ⟨?_, by rwa [hexp]⟩, by omega⟩
      rw [← hfar]
      split_ifs
      · exact .inr rfl
      · exact .inl rfl
    · rw [if_neg hsecond]
      obtain ⟨p, hp, hplace, hcandidate, hnone⟩ := ih
      refine ⟨p, hp.trans (Nat.le_succ _), hplace, hcandidate, fun q hq hle coeff hc => ?_⟩
      rcases Nat.lt_or_ge q (place + 1) with hlt | hge
      · exact hnone q hq (by omega) coeff hc
      · -- neither of the two decimals at this place was rounded to the double
        obtain rfl : q = place + 1 := by omega
        obtain ⟨hside, hdouble⟩ := hc
        rw [hexp] at hdouble
        have hor : coeff = near ∨ coeff = far := by
          rw [← hfar]
          split_ifs with hbelow
          · rw [hbelow]
            exact hside
          · rcases hnext with hnext | hnext
            · exact absurd hnext hbelow
            · rw [hnext]
              exact hside.symm
        rcases hor with rfl | rfl
        · exact hfirst hdouble
        · exact hsecond hdouble

/-- A shortest decimal is rounded to its double. -/
theorem decimalDouble_shortestDecimal (h : rounded double = double) (place : ℕ) :
    decimalDouble (shortestDecimal double place).1 (shortestDecimal double place).2 = double := by
  obtain ⟨p, -, hexp, hcandidate, -⟩ := shortestDecimal_spec h place
  rw [hexp]
  exact hcandidate.2

/-- The double of zero is zero. -/
theorem decimalDouble_zero (exp : ℤ) : decimalDouble 0 exp = 0 := by
  have hzero : nearestDouble 0 (10 ^ (-exp).toNat) = rounded 0 :=
    nearestDouble_of_eq (Nat.pow_pos (by decide)) (by rw [Nat.mul_zero, Nat.mul_zero])
  rw [decimalDouble, Nat.mul_zero, hzero]
  rfl

/-- The last digit of a shortest decimal is not zero. -/
theorem shortestDecimal_mod_ne_zero (h : rounded double = double) (hdouble : double ≠ 0) :
    (shortestDecimal double (topPlace double)).1 % 10 ≠ 0 := by
  intro hmod
  obtain ⟨p, hp, -, hcandidate, hnone⟩ := shortestDecimal_spec h (topPlace double)
  rcases Nat.lt_or_ge p (topPlace double) with hlt | hge
  · exact hnone (p + 1) (Nat.lt_succ_self p) hlt _ (hcandidate.up hmod)
  · -- above all digits the coefficient is zero or one
    have hbelow : 5 ^ minExponent * double / 10 ^ p = 0 := by
      rw [Nat.le_antisymm hp hge]
      exact Nat.div_eq_of_lt (Nat.lt_pow_succ_log_self (by decide) _)
    obtain ⟨hside, hvalue⟩ := hcandidate
    rw [hbelow] at hside
    have hzero : (shortestDecimal double (topPlace double)).1 = 0 := by omega
    rw [hzero, decimalDouble_zero] at hvalue
    exact hdouble hvalue.symm

end Doubles

section Decimals

variable {coeff : ℕ} {exp : ℤ} {d : ℕ × ℤ}

/-- The decimal that is found is rounded to the double of the one that is read. -/
theorem decimalDouble_of_roundDecimal (h : roundDecimal coeff exp = some d) :
    decimalDouble d.1 d.2 = decimalDouble coeff exp := by
  rw [roundDecimal] at h
  split_ifs at h with hzero hrange
  · rw [← Option.some.inj h, decimalDouble_zero, hzero]
  · rw [← Option.some.inj h]
    exact decimalDouble_shortestDecimal (rounded_decimalDouble coeff exp) _

/-- Rounding a second time changes nothing. -/
theorem roundDecimal_idem (h : roundDecimal coeff exp = some d) :
    roundDecimal d.1 d.2 = some (d.1, d.2) := by
  have hagain : roundDecimal d.1 d.2 = roundDecimal coeff exp := by
    rw [roundDecimal, roundDecimal, decimalDouble_of_roundDecimal h]
  rw [hagain, h]

/-- A rounded decimal is zero, or its last digit is not. -/
theorem roundDecimal_lowest (h : roundDecimal coeff exp = some d) :
    (d.1 = 0 ∧ d.2 = 0) ∨ d.1 % 10 ≠ 0 := by
  rw [roundDecimal] at h
  split_ifs at h with hzero hrange
  · rw [← Option.some.inj h]
    exact .inl ⟨rfl, rfl⟩
  · rw [← Option.some.inj h]
    exact .inr (shortestDecimal_mod_ne_zero (rounded_decimalDouble coeff exp) hzero)

/-- Zero rounds to zero. -/
theorem roundDecimal_zero (exp : ℤ) : roundDecimal 0 exp = some (0, 0) := by
  rw [roundDecimal, if_pos (decimalDouble_zero exp)]

/-- Zeros at the end of a decimal change nothing. -/
theorem roundDecimal_mul_pow (coeff k : ℕ) (exp : ℤ) :
    roundDecimal (coeff * 10 ^ k) (exp - k) = roundDecimal coeff exp := by
  rw [roundDecimal, roundDecimal, decimalDouble_mul_pow]

/-- An integer is rounded to 53 bits. -/
theorem decimalDouble_natCast (coeff k : ℕ) :
    decimalDouble coeff k = rounded (2 ^ minExponent * (coeff * 10 ^ k)) := by
  rw [decimalDouble, Int.toNat_neg_natCast, pow_zero, Int.toNat_natCast, Nat.mul_comm _ coeff,
    nearestDouble_of_eq Nat.one_pos (Nat.one_mul _).symm]

/-- An integer below `2 ^ 53` is the only one that is rounded to it. -/
theorem rounded_units_eq_iff {m n : ℕ} (hn : n < 2 ^ 53) :
    rounded (2 ^ minExponent * m) = 2 ^ minExponent * n ↔ m = n := by
  have hunit : 0 < 2 ^ minExponent := Nat.two_pow_pos _
  constructor
  · intro h
    rcases Nat.lt_or_ge m (2 ^ 53) with hlt | hge
    · rw [rounded_two_pow_mul hlt.le] at h
      exact Nat.eq_of_mul_eq_mul_left hunit h
    · have hle := rounded_mono (Nat.mul_le_mul_left (2 ^ minExponent) hge)
      rw [rounded_two_pow_mul le_rfl, h] at hle
      exact absurd (Nat.le_of_mul_le_mul_left hle hunit) (by omega)
  · rintro rfl
    exact rounded_two_pow_mul hn.le _

/-- An integer below `2 ^ 53` is exact. -/
theorem roundDecimal_integer {n : ℕ} (hn : n < 2 ^ 53) :
    ∃ c k : ℕ, roundDecimal n 0 = some (c, (k : ℤ)) ∧ c * 10 ^ k = n := by
  rcases Nat.eq_zero_or_pos n with rfl | hpos
  · exact ⟨0, 0, roundDecimal_zero 0, rfl⟩
  have hdouble : decimalDouble n 0 = 2 ^ minExponent * n := by
    have hcast := decimalDouble_natCast n 0
    rwa [Nat.cast_zero, pow_zero, Nat.mul_one, (rounded_units_eq_iff hn).mpr rfl] at hcast
  have hrounded : rounded (2 ^ minExponent * n) = 2 ^ minExponent * n :=
    (rounded_units_eq_iff hn).mpr rfl
  have hne : 2 ^ minExponent * n ≠ 0 := (Nat.mul_pos (Nat.two_pow_pos _) hpos).ne'
  have hrange : 2 ^ minExponent * n < doubleBound := by
    rw [doubleBound, pow_add, Nat.mul_comm]
    refine Nat.mul_lt_mul_of_pos_right (hn.trans ?_) (Nat.two_pow_pos _)
    exact pow_lt_pow_right₀ (by decide) (by decide)
  -- the integer itself is a candidate, at the place of the units
  have hself : Candidate (2 ^ minExponent * n) minExponent n := by
    refine ⟨.inl ?_, ?_⟩
    · rw [← Nat.mul_assoc, ← Nat.mul_pow, Nat.mul_div_cancel_left _ (Nat.pow_pos (by decide))]
    · rw [sub_self, hdouble]
  obtain ⟨p, hp, hexp, hcandidate, hnone⟩ := shortestDecimal_spec hrounded
    (topPlace (2 ^ minExponent * n))
  rw [roundDecimal, hdouble, if_neg hne, if_pos hrange]
  generalize shortestDecimal (2 ^ minExponent * n) (topPlace (2 ^ minExponent * n)) = found
    at hexp hcandidate ⊢
  obtain ⟨c, e⟩ := found
  have hplace : minExponent ≤ p := by
    by_contra! hlt
    refine hnone minExponent hlt ?_ n hself
    -- the double has digits at the place of the units
    have hunits : 10 ^ minExponent ≤ 5 ^ minExponent * (2 ^ minExponent * n) := by
      rw [← Nat.mul_assoc, ← Nat.mul_pow]
      exact Nat.le_mul_of_pos_right _ hpos
    exact (Nat.le_log_of_pow_le (by decide) hunits).trans (Nat.le_succ _)
  obtain ⟨k, rfl⟩ := Nat.exists_eq_add_of_le hplace
  have hk : ((minExponent + k : ℕ) : ℤ) - minExponent = k := by push_cast; ring
  have hexp : e = k := hexp.trans hk
  have hvalue := hcandidate.2
  rw [hk, decimalDouble_natCast, rounded_units_eq_iff hn] at hvalue
  exact ⟨c, k, by rw [hexp], hvalue⟩

end Decimals

end Js
