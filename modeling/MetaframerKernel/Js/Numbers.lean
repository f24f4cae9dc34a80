import MetaframerKernel.Js.CodeUnits
import MetaframerKernel.Js.Rounding
import Mathlib.Data.Nat.Digits.Lemmas

/-!
# JavaScript numbers

A finite Number is represented by the decimal that `Number.prototype.toString` prints for it, the
shortest one that reads back as that Number: a sign, a coefficient not divisible by ten and a
decimal exponent. A literal is rounded to the nearest double, so that longer literals are read as
the decimals of their doubles.

## Main definitions

* `JsNumber`: finite numbers, both infinities and NaN;
* `JsNumber.Finite.text`: `Number.prototype.toString` in radix ten;
* `readNumber`: the number literal at the head of a JSON text;
* `JsNumber.safeInteger?`: the integer a safe-integer Number is.

## Main results

* `readNumber_text`: a printed number reads back as itself, a negative zero as zero.
-/

namespace Js

/-- A finite Number, by its shortest decimal. -/
@[ext]
structure Finite where
  /-- The sign bit, which zero has too. -/
  neg : Bool
  /-- The digits, read as an integer. -/
  coeff : ℕ
  /-- The power of ten the digits are multiplied by. -/
  exp : ℤ
  /-- It is the shortest decimal of a double. -/
  rounded : roundDecimal coeff exp = some (coeff, exp)
deriving DecidableEq

/-- Zero has exponent zero; the last digit of any other coefficient is not zero. -/
theorem Finite.lowest (x : Finite) : (x.coeff = 0 ∧ x.exp = 0) ∨ x.coeff % 10 ≠ 0 :=
  roundDecimal_lowest x.rounded

/-- A Number. -/
inductive JsNumber where
  | finite (x : Finite)
  | infinity (neg : Bool)
  | nan
deriving DecidableEq

namespace JsNumber

/-- The Number of a decimal that has been rounded, infinite when there is none. -/
def ofRounded (neg : Bool) : (o : Option (ℕ × ℤ)) →
    (∀ d, o = some d → roundDecimal d.1 d.2 = some (d.1, d.2)) → JsNumber
  | some d, h => .finite ⟨neg, d.1, d.2, h d rfl⟩
  | none, _ => .infinity neg

/-- The Number nearest to `± coeff · 10 ^ exp`. -/
def ofDecimal (neg : Bool) (coeff : ℕ) (exp : ℤ) : JsNumber :=
  ofRounded neg (roundDecimal coeff exp) fun _ => roundDecimal_idem

/-- A decimal that rounds to a Number is that Number. -/
theorem ofRounded_eq_finite {x : Finite} {o : Option (ℕ × ℤ)} (ho : o = some (x.coeff, x.exp))
    (h : ∀ d, o = some d → roundDecimal d.1 d.2 = some (d.1, d.2)) :
    ofRounded x.neg o h = .finite x := by
  subst ho
  rfl

/-- The Number of a decimal is the one it rounds to. -/
theorem ofDecimal_eq_finite {x : Finite} {coeff : ℕ} {exp : ℤ}
    (h : roundDecimal coeff exp = some (x.coeff, x.exp)) :
    ofDecimal x.neg coeff exp = .finite x :=
  ofRounded_eq_finite h _

/-- The Number of an integer. -/
def ofInt (z : ℤ) : JsNumber := ofDecimal (z < 0) z.natAbs 0

/-- `Number.isFinite`. -/
def isFinite : JsNumber → Bool
  | .finite _ => true
  | _ => false

/-- `value === 0 ? 0 : value`: negative zero becomes zero. -/
def unsignZero : JsNumber → JsNumber
  | .finite x => .finite { x with neg := x.neg && x.coeff != 0 }
  | n => n

/-- The integer a Number is, when `Number.isSafeInteger` holds of it. -/
def safeInteger? : JsNumber → Option ℤ
  | .finite x =>
      if 0 ≤ x.exp ∧ x.coeff * 10 ^ x.exp.toNat ≤ 2 ^ 53 - 1 then
        some (if x.neg then -(x.coeff * 10 ^ x.exp.toNat : ℕ) else (x.coeff * 10 ^ x.exp.toNat : ℕ))
      else none
  | _ => none

/-- A safe integer is below `2 ^ 53` in magnitude. -/
theorem natAbs_le_of_safeInteger? {n : JsNumber} {z : ℤ} (h : n.safeInteger? = some z) :
    z.natAbs ≤ 2 ^ 53 - 1 := by
  cases n with
  | finite x =>
    simp only [safeInteger?] at h
    split at h
    · next hbound =>
      obtain rfl := Option.some.inj h
      generalize x.coeff * 10 ^ x.exp.toNat = k at hbound
      split <;> omega
    · cases h
  | infinity neg => cases h
  | nan => cases h

/-- A safe integer is a finite Number with the sign of the integer. -/
theorem exists_ofInt {z : ℤ} (h : z.natAbs ≤ 2 ^ 53 - 1) :
    ∃ (x : Finite) (k : ℕ), ofInt z = .finite x ∧ x.neg = decide (z < 0) ∧ x.exp = k ∧
      x.coeff * 10 ^ k = z.natAbs := by
  obtain ⟨c, k, hround, hvalue⟩ := roundDecimal_integer (n := z.natAbs) (by omega)
  exact ⟨⟨decide (z < 0), c, k, roundDecimal_idem hround⟩, k,
    ofDecimal_eq_finite (x := ⟨decide (z < 0), c, k, roundDecimal_idem hround⟩) hround, rfl, rfl,
    hvalue⟩

/-- The Number of a safe integer is that integer. -/
theorem safeInteger?_ofInt {z : ℤ} (h : z.natAbs ≤ 2 ^ 53 - 1) :
    (ofInt z).safeInteger? = some z := by
  obtain ⟨x, k, hx, hneg, hexp, hvalue⟩ := exists_ofInt h
  rw [hx, safeInteger?]
  simp only [hexp, Int.toNat_natCast, hvalue, hneg]
  rw [if_pos ⟨Int.natCast_nonneg k, h⟩]
  split_ifs with hsign <;> simp only [decide_eq_true_eq] at hsign <;> congr 1 <;> omega

/-- The Number of an integer that is not negative has no sign. -/
theorem exists_ofInt_eq {z : ℤ} (hsafe : z.natAbs ≤ 2 ^ 53 - 1) (hz : 0 ≤ z) :
    ∃ x, ofInt z = .finite x ∧ x.neg = false := by
  obtain ⟨x, k, hx, hneg, -, -⟩ := exists_ofInt hsafe
  exact ⟨x, hx, hneg.trans (decide_eq_false (not_lt.mpr hz))⟩

/-- A Number without a sign is kept. -/
theorem unsignZero_of_neg_eq_false {x : Finite} (h : x.neg = false) :
    (finite x).unsignZero = finite x :=
  congrArg finite (Finite.ext (by simp [h]) rfl rfl)

/-- A zero loses its sign once. -/
@[simp]
theorem unsignZero_unsignZero (n : JsNumber) : n.unsignZero.unsignZero = n.unsignZero := by
  cases n <;> simp [unsignZero]

/-- A zero without its sign is as finite. -/
@[simp]
theorem isFinite_unsignZero (n : JsNumber) : n.unsignZero.isFinite = n.isFinite := by
  cases n <;> rfl

end JsNumber

/-! ## Printing -/

/-- The decimal digits of a natural number, most significant first; zero has none. -/
def decimalDigits (n : ℕ) : List ℕ := (Nat.digits 10 n).reverse

/-- The character of a decimal digit. -/
def digitChar (d : ℕ) : Char := Char.ofNat (48 + d)

/-- The number a list of decimal digits spells, most significant first. -/
def digitsValue (ds : List ℕ) : ℕ := Nat.ofDigits 10 ds.reverse

/-- The characters of a natural number other than zero. -/
def digitText (ds : List ℕ) : List Char := ds.map digitChar

/-- The exponent part of scientific notation, its sign always written. -/
def exponentText (e : ℤ) : List Char :=
  'e' :: (if 0 ≤ e then '+' else '-') :: digitText (decimalDigits e.natAbs)

/-- Steps 6 to 12 of `Number::toString`: the digits `ds` with the decimal point after the first
`n` of them. -/
def magnitudeText (ds : List ℕ) (n : ℤ) : List Char :=
  if ds.length ≤ n ∧ n ≤ 21 then digitText ds ++ List.replicate (n - ds.length).toNat '0'
  else if 0 < n ∧ n ≤ 21 then digitText (ds.take n.toNat) ++ '.' :: digitText (ds.drop n.toNat)
  else if -6 < n ∧ n ≤ 0 then '0' :: '.' :: (List.replicate (-n).toNat '0' ++ digitText ds)
  else
    match ds with
    | [] => []
    | [d] => digitChar d :: exponentText (n - 1)
    | d :: rest => digitChar d :: '.' :: (digitText rest ++ exponentText (n - 1))

/-- `Number.prototype.toString` of a finite Number. -/
def Finite.text (x : Finite) : List Char :=
  if x.coeff = 0 then ['0']
  else
    (if x.neg then ['-'] else []) ++
      magnitudeText (decimalDigits x.coeff) ((decimalDigits x.coeff).length + x.exp)

/-! ## Reading -/

/-- The character is a decimal digit. -/
def isDigit (c : Char) : Bool := 48 ≤ c.toNat && c.toNat ≤ 57

/-- The value of a decimal digit. -/
def digitOf (c : Char) : ℕ := c.toNat - 48

/-- The longest run of digits at the head of a text, and what follows it. -/
def readDigits (cs : List Char) : List ℕ × List Char :=
  ((cs.takeWhile isDigit).map digitOf, cs.dropWhile isDigit)

/-- The integer part of a JSON number: zero, or digits that do not start with zero. -/
def readInteger (cs : List Char) : Option (List ℕ × List Char) :=
  match readDigits cs with
  | ([], _) => none
  | (0 :: _ :: _, _) => none
  | (ds, rest) => some (ds, rest)

/-- The fraction of a JSON number, when there is one. -/
def readFraction : List Char → Option (List ℕ × List Char)
  | '.' :: cs =>
      match readDigits cs with
      | ([], _) => none
      | (ds, rest) => some (ds, rest)
  | cs => some ([], cs)

/-- The sign of an exponent. -/
def readSign : List Char → Bool × List Char
  | '-' :: cs => (true, cs)
  | '+' :: cs => (false, cs)
  | cs => (false, cs)

/-- The exponent of a JSON number, zero when there is none. -/
def readExponent (cs : List Char) : Option (ℤ × List Char) :=
  match cs with
  | c :: rest =>
      if c = 'e' ∨ c = 'E' then
        match readDigits (readSign rest).2 with
        | ([], _) => none
        | (ds, rest') =>
            some (if (readSign rest).1 then -(digitsValue ds : ℤ) else digitsValue ds, rest')
      else some (0, cs)
  | [] => some (0, [])

/-- A JSON number without its sign. -/
def readMagnitude (neg : Bool) (cs : List Char) : Option (JsNumber × List Char) := do
  let (int, cs) ← readInteger cs
  let (frac, cs) ← readFraction cs
  let (e, cs) ← readExponent cs
  return (.ofDecimal neg (digitsValue (int ++ frac)) (e - frac.length), cs)

/-- A JSON number literal at the head of a text. -/
def readNumber : List Char → Option (JsNumber × List Char)
  | '-' :: cs => readMagnitude true cs
  | cs => readMagnitude false cs

/-! ## A printed number reads back -/

/-- A digit is printed as a digit. -/
theorem isDigit_digitChar {d : ℕ} (h : d < 10) : isDigit (digitChar d) = true := by
  interval_cases d <;> decide

/-- A printed digit has its value. -/
theorem digitOf_digitChar {d : ℕ} (h : d < 10) : digitOf (digitChar d) = d := by
  interval_cases d <;> decide

/-- Decimal digits are below ten. -/
theorem lt_ten_of_mem_decimalDigits {n d : ℕ} (h : d ∈ decimalDigits n) : d < 10 :=
  Nat.digits_lt_base (by norm_num) (List.mem_reverse.mp h)

/-- The digits of a number have its value. -/
theorem digitsValue_decimalDigits (n : ℕ) : digitsValue (decimalDigits n) = n := by
  rw [digitsValue, decimalDigits, List.reverse_reverse, Nat.ofDigits_digits]

/-- Zeros after the digits multiply by powers of ten. -/
theorem digitsValue_append_zeros (ds : List ℕ) (k : ℕ) :
    digitsValue (ds ++ List.replicate k 0) = digitsValue ds * 10 ^ k := by
  rw [digitsValue, List.reverse_append, List.reverse_replicate, Nat.ofDigits_append,
    Nat.ofDigits_replicate_zero, List.length_replicate, zero_add, mul_comm, digitsValue]

/-- Zeros before the digits change nothing. -/
theorem digitsValue_zeros_append (ds : List ℕ) (k : ℕ) :
    digitsValue (List.replicate k 0 ++ ds) = digitsValue ds := by
  rw [digitsValue, List.reverse_append, List.reverse_replicate,
    Nat.ofDigits_append_replicate_zero, digitsValue]

/-- The digits of a positive number start with one that is not zero. -/
theorem exists_decimalDigits_cons {n : ℕ} (h : n ≠ 0) :
    ∃ d rest, decimalDigits n = d :: rest ∧ d ≠ 0 := by
  have hne : Nat.digits 10 n ≠ [] := Nat.digits_ne_nil_iff_ne_zero.mpr h
  refine ⟨(Nat.digits 10 n).getLast hne, (Nat.digits 10 n).dropLast.reverse, ?_,
    Nat.getLast_digit_ne_zero 10 h⟩
  conv_lhs => rw [decimalDigits, ← List.dropLast_append_getLast hne]
  rw [List.reverse_append, List.reverse_singleton, List.singleton_append]

/-- No digit stands at the head of the text. -/
def NoDigitAhead (cs : List Char) : Prop := ∀ c ∈ cs.head?, isDigit c = false

/-- Nothing at the head of the text would continue a number. -/
def EndsNumber (cs : List Char) : Prop :=
  ∀ c ∈ cs.head?, isDigit c = false ∧ c ≠ '.' ∧ c ≠ 'e' ∧ c ≠ 'E'

/-- Where a number ends no digit is ahead. -/
theorem EndsNumber.noDigitAhead {cs : List Char} (h : EndsNumber cs) : NoDigitAhead cs :=
  fun c hc => (h c hc).1

/-- Without a digit ahead none is read. -/
theorem readDigits_of_noDigitAhead {cs : List Char} (h : NoDigitAhead cs) :
    readDigits cs = ([], cs) := by
  cases cs with
  | nil => rfl
  | cons c cs =>
    have hc : isDigit c = false := h c rfl
    simp [readDigits, hc]

/-- Printed digits read back, up to what is no digit. -/
theorem readDigits_digitText {ds : List ℕ} (hds : ∀ d ∈ ds, d < 10) {rest : List Char}
    (hrest : NoDigitAhead rest) : readDigits (digitText ds ++ rest) = (ds, rest) := by
  induction ds with
  | nil => exact readDigits_of_noDigitAhead hrest
  | cons d ds ih =>
    have hd : d < 10 := hds d (by simp)
    have hrec := ih fun e he => hds e (by simp [he])
    simp only [readDigits, Prod.mk.injEq] at hrec
    simp only [readDigits, digitText, List.map_cons, List.cons_append, List.takeWhile_cons,
      List.dropWhile_cons, isDigit_digitChar hd, if_true, digitOf_digitChar hd, Prod.mk.injEq]
    exact ⟨congrArg (d :: ·) hrec.1, hrec.2⟩

/-- Digits that do not start with zero are an integer part. -/
theorem readInteger_digitText {d : ℕ} {ds : List ℕ} (hd : d ≠ 0) (hds : ∀ e ∈ d :: ds, e < 10)
    {rest : List Char} (hrest : NoDigitAhead rest) :
    readInteger (digitText (d :: ds) ++ rest) = some (d :: ds, rest) := by
  rw [readInteger, readDigits_digitText hds hrest]
  cases d with
  | zero => exact absurd rfl hd
  | succ d => rfl

/-- A single zero is an integer part. -/
theorem readInteger_zero {rest : List Char} (hrest : NoDigitAhead rest) :
    readInteger ('0' :: rest) = some ([0], rest) := by
  have hread : readDigits (digitText [0] ++ rest) = ([0], rest) :=
    readDigits_digitText (by simp) hrest
  change readDigits ('0' :: rest) = _ at hread
  rw [readInteger, hread]
  rfl

/-- Where a number ends it has no fraction. -/
theorem readFraction_of_endsNumber {cs : List Char} (h : EndsNumber cs) :
    readFraction cs = some ([], cs) := by
  unfold readFraction
  split
  next rest => exact absurd rfl (h '.' rfl).2.1
  next => rfl

/-- A printed fraction reads back. -/
theorem readFraction_digitText {ds : List ℕ} (hne : ds ≠ []) (hds : ∀ d ∈ ds, d < 10)
    {rest : List Char} (hrest : NoDigitAhead rest) :
    readFraction ('.' :: (digitText ds ++ rest)) = some (ds, rest) := by
  rw [readFraction, readDigits_digitText hds hrest]
  cases ds with
  | nil => exact absurd rfl hne
  | cons d ds => rfl

/-- Where a number ends it has no exponent. -/
theorem readExponent_of_endsNumber {cs : List Char} (h : EndsNumber cs) :
    readExponent cs = some (0, cs) := by
  cases cs with
  | nil => rfl
  | cons c cs =>
    have hc := h c rfl
    simp [readExponent, hc.2.2.1, hc.2.2.2]

/-- A printed exponent reads back. -/
theorem readExponent_exponentText {e : ℤ} (he : e ≠ 0) {rest : List Char}
    (hrest : NoDigitAhead rest) : readExponent (exponentText e ++ rest) = some (e, rest) := by
  obtain ⟨d, ds, hdigits, -⟩ := exists_decimalDigits_cons (Int.natAbs_ne_zero.mpr he)
  have hread := readDigits_digitText (fun _ => lt_ten_of_mem_decimalDigits (n := e.natAbs)) hrest
  have hvalue := digitsValue_decimalDigits e.natAbs
  rw [hdigits] at hread hvalue
  rcases le_or_gt 0 e with h | h
  · simp only [exponentText, h, if_true, List.cons_append, readExponent, readSign, hdigits, hread,
      true_or, hvalue, Bool.false_eq_true, if_false]
    rw [Int.natAbs_of_nonneg h]
  · simp only [exponentText, not_le.mpr h, if_false, List.cons_append, readExponent, readSign,
      hdigits, hread, true_or, if_true, hvalue]
    rw [Int.ofNat_natAbs_of_nonpos h.le, neg_neg]

/-- Zeros are printed as zeros. -/
theorem digitText_zeros (k : ℕ) : List.replicate k '0' = digitText (List.replicate k 0) := by
  rw [digitText, List.map_replicate]
  rfl

/-- Digits are printed one after the other. -/
theorem digitText_append (ds es : List ℕ) : digitText (ds ++ es) = digitText ds ++ digitText es :=
  List.map_append

/-- The decimal a Number is represented by is the one its digits spell. -/
theorem ofDecimal_mul_pow (x : Finite) (k : ℕ) :
    JsNumber.ofDecimal x.neg (x.coeff * 10 ^ k) (x.exp - k) = .finite x :=
  JsNumber.ofDecimal_eq_finite ((roundDecimal_mul_pow _ _ _).trans x.rounded)

/-- A Number is the one its own decimal rounds to. -/
theorem ofDecimal_self (x : Finite) : JsNumber.ofDecimal x.neg x.coeff x.exp = .finite x :=
  JsNumber.ofDecimal_eq_finite x.rounded

/-- Digits written out with trailing zeros. -/
theorem readMagnitude_integer {neg : Bool} {d : ℕ} {ds : List ℕ} (hd : d ≠ 0)
    (hds : ∀ e ∈ d :: ds, e < 10) (k : ℕ) {rest : List Char} (hrest : EndsNumber rest) :
    readMagnitude neg (digitText (d :: ds) ++ List.replicate k '0' ++ rest) =
      some (.ofDecimal neg (digitsValue (d :: ds) * 10 ^ k) 0, rest) := by
  have hall : ∀ e ∈ d :: (ds ++ List.replicate k 0), e < 10 := by
    intro e he
    rw [← List.cons_append, List.mem_append, List.mem_replicate] at he
    rcases he with he | ⟨-, rfl⟩
    · exact hds e he
    · norm_num
  rw [digitText_zeros, ← digitText_append, List.cons_append, readMagnitude,
    readInteger_digitText hd hall hrest.noDigitAhead]
  simp only [Option.bind_eq_bind, Option.bind_some, readFraction_of_endsNumber hrest,
    readExponent_of_endsNumber hrest, List.append_nil, List.length_nil, Nat.cast_zero, sub_zero]
  rw [← List.cons_append, digitsValue_append_zeros]
  rfl

/-- Digits with a decimal point among them, and perhaps an exponent. -/
theorem readMagnitude_fraction {neg : Bool} {int frac : List ℕ} {e : ℤ} {tail rest : List Char}
    (hint : ∀ cs, NoDigitAhead cs → readInteger (digitText int ++ cs) = some (int, cs))
    (hne : frac ≠ []) (hfrac : ∀ d ∈ frac, d < 10) (htail : NoDigitAhead tail)
    (hexp : readExponent tail = some (e, rest)) :
    readMagnitude neg (digitText int ++ '.' :: (digitText frac ++ tail)) =
      some (.ofDecimal neg (digitsValue (int ++ frac)) (e - frac.length), rest) := by
  have hpoint : NoDigitAhead ('.' :: (digitText frac ++ tail)) := by
    rintro c ⟨⟩
    decide
  rw [readMagnitude, hint _ hpoint]
  simp only [Option.bind_eq_bind, Option.bind_some, readFraction_digitText hne hfrac htail, hexp]
  rfl

/-- An exponent begins with no digit. -/
theorem noDigitAhead_exponentText (e : ℤ) (rest : List Char) :
    NoDigitAhead (exponentText e ++ rest) := by
  rintro c ⟨⟩
  decide

/-- A printed magnitude reads back as the Number it was printed for. -/
theorem readMagnitude_magnitudeText (x : Finite) (hx : x.coeff ≠ 0) {rest : List Char}
    (hrest : EndsNumber rest) :
    readMagnitude x.neg (magnitudeText (decimalDigits x.coeff)
      ((decimalDigits x.coeff).length + x.exp) ++ rest) = some (.finite x, rest) := by
  obtain ⟨d, ds, hdigits, hd⟩ := exists_decimalDigits_cons hx
  have hvalue := digitsValue_decimalDigits x.coeff
  have hall : ∀ e ∈ decimalDigits x.coeff, e < 10 := fun _ => lt_ten_of_mem_decimalDigits
  rw [hdigits] at hvalue hall ⊢
  have hlen : ((d :: ds).length : ℤ) = ds.length + 1 := by simp
  -- by the place of the decimal point, as the text is printed
  unfold magnitudeText
  split_ifs with h1 h2 h3
  · -- the decimal point stands after the last digit
    rw [readMagnitude_integer hd hall _ hrest, hvalue]
    have hexp : x.exp - ((d :: ds).length + x.exp - (d :: ds).length).toNat = 0 := by omega
    rw [← hexp, ofDecimal_mul_pow x]
  · -- the decimal point stands among the digits
    obtain ⟨n, hn⟩ : ∃ n : ℕ, ((d :: ds).length + x.exp).toNat = n + 1 :=
      ⟨((d :: ds).length + x.exp).toNat - 1, by omega⟩
    have hlong : n < ds.length := by omega
    rw [hn, List.append_assoc, List.cons_append, List.take_succ_cons, List.drop_succ_cons,
      readMagnitude_fraction _ _ _ hrest.noDigitAhead (readExponent_of_endsNumber hrest)]
    · rw [List.cons_append, List.take_append_drop, hvalue, List.length_drop]
      have hexp : (0 : ℤ) - ((ds.length - n : ℕ) : ℤ) = x.exp := by omega
      rw [hexp, ofDecimal_self x]
    · intro cs hcs
      exact readInteger_digitText hd (fun e he => hall e (List.take_subset (n + 1) _ he)) hcs
    · exact List.ne_nil_of_length_pos (by rw [List.length_drop]; omega)
    · exact fun e he => hall e (List.mem_cons_of_mem _ (List.mem_of_mem_drop he))
  · -- zeros stand between the decimal point and the digits
    have hzeros : '0' :: '.' :: (List.replicate (-((d :: ds).length + x.exp)).toNat '0' ++
        digitText (d :: ds)) ++ rest = digitText [0] ++ '.' ::
          (digitText (List.replicate (-((d :: ds).length + x.exp)).toNat 0 ++ d :: ds) ++
            rest) := by
      rw [digitText_append, ← digitText_zeros]
      rfl
    rw [hzeros, readMagnitude_fraction _ _ _ hrest.noDigitAhead (readExponent_of_endsNumber hrest)]
    · rw [show [0] ++ (List.replicate (-((d :: ds).length + x.exp)).toNat 0 ++ d :: ds) =
          List.replicate ((-((d :: ds).length + x.exp)).toNat + 1) 0 ++ d :: ds from rfl,
        digitsValue_zeros_append, hvalue, List.length_append, List.length_replicate]
      have hexp : (0 : ℤ) - (((-((d :: ds).length + x.exp)).toNat + (d :: ds).length : ℕ) : ℤ) =
          x.exp := by omega
      rw [hexp, ofDecimal_self x]
    · intro cs hcs
      exact readInteger_zero hcs
    · simp
    · intro e he
      rw [List.mem_append, List.mem_replicate] at he
      rcases he with ⟨-, rfl⟩ | he
      · norm_num
      · exact hall e he
  · -- scientific notation
    have he : ((d :: ds).length : ℤ) + x.exp - 1 ≠ 0 := by omega
    have hread := readExponent_exponentText he hrest.noDigitAhead
    cases ds with
    | nil =>
      have hexp : (([d] : List ℕ).length : ℤ) + x.exp - 1 = x.exp := by simp
      rw [hexp] at hread
      have hint := readInteger_digitText hd hall (noDigitAhead_exponentText x.exp rest)
      have hfrac : readFraction (exponentText x.exp ++ rest) =
          some ([], exponentText x.exp ++ rest) := rfl
      change readMagnitude x.neg (digitText [d] ++
        (exponentText (([d] : List ℕ).length + x.exp - 1) ++ rest)) = _
      rw [hexp, readMagnitude, hint]
      simp only [Option.bind_eq_bind, Option.bind_some, hfrac, hread, List.append_nil, hvalue,
        List.length_nil, Nat.cast_zero, sub_zero]
      rw [ofDecimal_self x]
      rfl
    | cons d' ds =>
      change readMagnitude x.neg (digitText [d] ++ '.' :: (digitText (d' :: ds) ++
        exponentText ((d :: d' :: ds).length + x.exp - 1) ++ rest)) = _
      rw [List.append_assoc, readMagnitude_fraction _ (by simp) _
        (noDigitAhead_exponentText _ _) hread]
      · rw [List.singleton_append, hvalue]
        have hexp : (((d :: d' :: ds).length : ℤ) + x.exp - 1) - ((d' :: ds).length : ℕ) =
            x.exp := by simp; omega
        rw [hexp, ofDecimal_self x]
      · intro cs hcs
        exact readInteger_digitText hd (by simpa using hall d (by simp)) hcs
      · exact fun e he => hall e (List.mem_cons_of_mem _ he)

/-- A zero of either sign is printed as zero. -/
theorem ofDecimal_zero {x : Finite} (hx : x.coeff = 0) :
    JsNumber.ofDecimal false 0 0 = (JsNumber.finite x).unsignZero := by
  have hexp : x.exp = 0 := by
    rcases x.lowest with h | h
    · exact h.2
    · rw [hx] at h
      exact absurd rfl h
  have hneg : (x.neg && x.coeff != 0) = false := by simp [hx]
  have hround : roundDecimal 0 0 = some (x.coeff, x.exp) := by
    rw [roundDecimal_zero, hx, hexp]
  rw [JsNumber.unsignZero]
  exact (congrArg (JsNumber.ofDecimal · 0 0) hneg.symm).trans
    (JsNumber.ofDecimal_eq_finite (x := ⟨x.neg && x.coeff != 0, x.coeff, x.exp, x.rounded⟩) hround)

/-- A printed magnitude starts with a digit. -/
theorem exists_magnitudeText_cons (x : Finite) (hx : x.coeff ≠ 0) :
    ∃ c cs, magnitudeText (decimalDigits x.coeff) ((decimalDigits x.coeff).length + x.exp) =
      c :: cs ∧ isDigit c = true := by
  obtain ⟨d, ds, hdigits, -⟩ := exists_decimalDigits_cons hx
  have hd : d < 10 := lt_ten_of_mem_decimalDigits (by rw [hdigits]; simp)
  rw [hdigits]
  unfold magnitudeText
  split_ifs with h1 h2 h3
  · exact ⟨_, _, rfl, isDigit_digitChar hd⟩
  · obtain ⟨n, hn⟩ : ∃ n : ℕ, ((d :: ds).length + x.exp).toNat = n + 1 :=
      ⟨((d :: ds).length + x.exp).toNat - 1, by omega⟩
    rw [hn]
    exact ⟨_, _, rfl, isDigit_digitChar hd⟩
  · exact ⟨_, _, rfl, by decide⟩
  · cases ds with
    | nil => exact ⟨_, _, rfl, isDigit_digitChar hd⟩
    | cons d' ds => exact ⟨_, _, rfl, isDigit_digitChar hd⟩

/-- A literal that begins with a digit has no sign. -/
theorem readNumber_of_isDigit {c : Char} {cs : List Char} (hc : isDigit c = true) :
    readNumber (c :: cs) = readMagnitude false (c :: cs) := by
  unfold readNumber
  split
  next rest heq =>
    obtain ⟨rfl, rfl⟩ := List.cons.inj heq
    exact absurd hc (by decide)
  next => rfl

/-- A printed number reads back as itself, a negative zero as zero. -/
theorem readNumber_text (x : Finite) {rest : List Char} (hrest : EndsNumber rest) :
    readNumber (x.text ++ rest) = some ((JsNumber.finite x).unsignZero, rest) := by
  -- a zero of either sign is printed as "0"
  by_cases hx : x.coeff = 0
  · rw [Finite.text, if_pos hx]
    change readMagnitude false ('0' :: rest) = _
    rw [readMagnitude, readInteger_zero hrest.noDigitAhead]
    simp only [Option.bind_eq_bind, Option.bind_some, readFraction_of_endsNumber hrest,
      readExponent_of_endsNumber hrest]
    rw [← ofDecimal_zero hx]
    rfl
  · have hread := readMagnitude_magnitudeText x hx hrest
    have hsign : (JsNumber.finite x).unsignZero = .finite x :=
      congrArg JsNumber.finite (Finite.ext (by simp [hx]) rfl rfl)
    rw [Finite.text, if_neg hx, hsign]
    cases hneg : x.neg with
    | true =>
      rw [hneg] at hread
      rw [if_pos rfl]
      exact hread
    | false =>
      obtain ⟨c, cs, hhead, hc⟩ := exists_magnitudeText_cons x hx
      rw [hneg] at hread
      rw [if_neg (by decide), List.nil_append]
      rw [hhead, List.cons_append] at hread ⊢
      rw [readNumber_of_isDigit hc]
      exact hread

-- a literal between two Numbers is the nearest one, at either end of the range as well
example : readNumber "1.0000000000000000001".toList = some (.ofInt 1, []) := by decide +kernel

example : readNumber "1e-400".toList = some (.ofInt 0, []) := by decide +kernel

example : readNumber "-1e400".toList = some (.infinity true, []) := by decide +kernel

end Js
