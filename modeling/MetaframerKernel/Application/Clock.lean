import MetaframerKernel.Application.Collaborators
import MetaframerKernel.Application.CommitReceipt
import MetaframerKernel.Js.Digits

/-!
# The calendar of the clock

The port `Clock` takes a reading apart with slices of fixed positions, a decision log entry and a
commit receipt with the capture groups of a pattern. All three are compared with the instants there
are: a date of the proleptic Gregorian calendar of the standard library, and a time of day.

## Main definitions

* `Clock.namesARealInstant`: the check of `clock.mjs`;
* `Instant`: an instant of the years 1 to 9999, to the millisecond;
* `Instant.spell`: its canonical spelling.

## Main results

* `Instant.isInstant_iff`: the strings admitted are the spellings of instants;
* `Clock.validators_agree`: the three checks accept the same strings.
-/

namespace MetaframerKernel

open Js
open Std.Time (PlainDate)

/-! ## The one accepted spelling -/

/-- A string of so many digits. -/
def IsDigits (width : ℕ) (s : JsString) : Prop :=
  s.length = width ∧ ∀ u ∈ s, digitClass u = true

/-- Padded numbers are digits. -/
theorem isDigits_padded (width n : ℕ) : IsDigits width (padded width n) :=
  ⟨length_padded width n, fun _ => isDigitUnit_of_mem_padded⟩

/-- Digits are their own value, padded. -/
theorem IsDigits.padded_decimal {width : ℕ} {s : JsString} (h : IsDigits width s) :
    padded width (decimal s) = s :=
  h.1 ▸ Js.padded_decimal h.2

/-- Digits of a width have a value below its power of ten. -/
theorem IsDigits.decimal_lt {width : ℕ} {s : JsString} (h : IsDigits width s) :
    decimal s < 10 ^ width :=
  h.1 ▸ Js.decimal_lt h.2

/-- `YYYY-MM-DDTHH:MM:SS.sssZ` of its parts. -/
def layout (year month day hour minute second fraction : JsString) : JsString :=
  year ++ (lit "-" ++ (month ++ (lit "-" ++ (day ++ (lit "T" ++ (hour ++ (lit ":" ++ (minute ++
    (lit ":" ++ (second ++ (lit "." ++ (fraction ++ lit "Z"))))))))))))

/-- The parts of a reading are strings of digits. -/
structure IsParts (year month day hour minute second fraction : JsString) : Prop where
  year : IsDigits 4 year
  month : IsDigits 2 month
  day : IsDigits 2 day
  hour : IsDigits 2 hour
  minute : IsDigits 2 minute
  second : IsDigits 2 second
  fraction : IsDigits 3 fraction

/-- The class of one character is matched by it alone. -/
theorem matchesForm_charClass {c : Char} (hc : c.toNat < 65536) {s : JsString} :
    matchesForm [charClass c] s = true ↔ s = ofText [c] := by
  have hunit : ofText [c] = [Fin.ofNat 65536 c.toNat] := by simp [ofText, ofChar, hc]
  rw [hunit]
  rcases s with _ | ⟨u, _ | ⟨v, s⟩⟩
  · simp [matchesForm]
  · simp [matchesForm, charClass, CodeUnit.isChar, Fin.ext_iff, Nat.mod_eq_of_lt hc]
  · simp [matchesForm]

/-- A string in the form of a timestamp is laid out of its parts. -/
theorem isTimestampForm_iff {s : JsString} : isTimestampForm s = true ↔
    ∃ year month day hour minute second fraction,
      IsParts year month day hour minute second fraction ∧
        s = layout year month day hour minute second fraction := by
  have hform : timestampForm = List.replicate 4 digitClass ++ ([charClass '-'] ++
      (List.replicate 2 digitClass ++ ([charClass '-'] ++ (List.replicate 2 digitClass ++
      ([charClass 'T'] ++ (List.replicate 2 digitClass ++ ([charClass ':'] ++
      (List.replicate 2 digitClass ++ ([charClass ':'] ++ (List.replicate 2 digitClass ++
      ([charClass '.'] ++ (List.replicate 3 digitClass ++ [charClass 'Z'])))))))))))) := rfl
  have hchar (c : Char) (hc : c.toNat < 65536) (t : JsString) :
      matchesForm [charClass c] t = true ↔ t = ofText [c] := matchesForm_charClass hc
  -- the form is cut at its separators, which are matched by themselves only
  simp only [isTimestampForm, hform, matchesForm_append, matchesForm_replicate,
    hchar '-' (by decide), hchar 'T' (by decide), hchar ':' (by decide), hchar '.' (by decide),
    hchar 'Z' (by decide)]
  constructor
  · rintro ⟨y, -, rfl, hy, -, -, rfl, rfl, mo, -, rfl, hmo, -, -, rfl, rfl, d, -, rfl, hd, -, -,
      rfl, rfl, h, -, rfl, hh, -, -, rfl, rfl, mi, -, rfl, hmi, -, -, rfl, rfl, se, -, rfl, hse, -,
      -, rfl, rfl, ms, -, rfl, hms, rfl⟩
    exact ⟨y, mo, d, h, mi, se, ms, ⟨hy, hmo, hd, hh, hmi, hse, hms⟩, rfl⟩
  · rintro ⟨y, mo, d, h, mi, se, ms, ⟨hy, hmo, hd, hh, hmi, hse, hms⟩, rfl⟩
    exact ⟨y, _, rfl, hy, _, _, rfl, rfl, mo, _, rfl, hmo, _, _, rfl, rfl, d, _, rfl, hd, _, _,
      rfl, rfl, h, _, rfl, hh, _, _, rfl, rfl, mi, _, rfl, hmi, _, _, rfl, rfl, se, _, rfl, hse, _,
      _, rfl, rfl, ms, _, rfl, hms, rfl⟩

/-! ## The three checks -/

/-- The fields of a reading name a time that exists: what the three checks ask of them. -/
def IsReal (year month day hour minute second : ℕ) : Prop :=
  1 ≤ year ∧ (1 ≤ month ∧ month ≤ 12) ∧ (1 ≤ day ∧ day ≤ lengthOfMonth year month) ∧
    hour ≤ 23 ∧ minute ≤ 59 ∧ second ≤ 59

namespace Clock

/-- `READING_LENGTH` -/
def readingLength : ℕ := 24

/-- `candidate.slice(start, stop)`, for positions in order. -/
def slice (candidate : JsString) (start stop : ℕ) : JsString :=
  (candidate.drop start).take (stop - start)

/-- `namesARealInstant` -/
def namesARealInstant (candidate : JsString) : Bool :=
  if candidate.length ≠ readingLength || !isTimestampForm candidate then false
  else
    let year := decimal (slice candidate 0 4)
    let month := decimal (slice candidate 5 7)
    let day := decimal (slice candidate 8 10)
    let hour := decimal (slice candidate 11 13)
    let minute := decimal (slice candidate 14 16)
    let second := decimal (slice candidate 17 19)
    if year < 1 then false
    else if month < 1 || 12 < month then false
    else if day < 1 || lengthOfMonth year month < day then false
    else if 23 < hour || 59 < minute || 59 < second then false
    else true

/-- A timestamp is admitted when its numbers name a real instant. -/
theorem namesARealInstant_iff {s : JsString} :
    namesARealInstant s = true ↔ isTimestampForm s = true ∧
      IsReal (decimal (slice s 0 4)) (decimal (slice s 5 7)) (decimal (slice s 8 10))
        (decimal (slice s 11 13)) (decimal (slice s 14 16)) (decimal (slice s 17 19)) := by
  by_cases hform : isTimestampForm s = true
  · have hlength : s.length = readingLength := length_of_matchesForm hform
    simp only [namesARealInstant, hlength, hform, IsReal]
    grind
  · simp [namesARealInstant, hform]

end Clock

/-- A decision log entry takes the strings that are instants. -/
theorem DecisionLogEntry.timestampValue_string {s : JsString} :
    (timestampValue (.string s)).map Subtype.val = .ok s ↔ isInstant s = true := by
  rw [timestampValue]
  split
  · next e he =>
    have hnot : ¬isInstant s = true := fun h =>
      nomatch he.symm.trans (timestampRefusal_eq_none.mpr h)
    exact iff_of_false (fun h => nomatch h) hnot
  · next hnone => exact iff_of_true rfl (timestampRefusal_eq_none.mp hnone)

/-- So does a commit receipt. -/
theorem CommitReceipt.committedAtValue_eq_ok {s : JsString} :
    (committedAtValue s).map Subtype.val = .ok s ↔ isInstant s = true := by
  rw [committedAtValue]
  split
  · next e he =>
    have hnot : ¬isInstant s = true := fun h =>
      nomatch he.symm.trans (timestampRefusal_eq_none.mpr h)
    exact iff_of_false (fun h => nomatch h) hnot
  · next hnone => exact iff_of_true rfl (timestampRefusal_eq_none.mp hnone)

/-- The capture groups are the slices. -/
theorem isInstant_eq (s : JsString) : isInstant s = Clock.namesARealInstant s := by
  have hcapture (start stop : ℕ) :
      capturedNumber s start (stop - start) = decimal (Clock.slice s start stop) := rfl
  rw [Bool.eq_iff_iff, Clock.namesARealInstant_iff, ← hcapture, ← hcapture, ← hcapture, ← hcapture,
    ← hcapture, ← hcapture]
  simp only [isInstant, timestampRefusal, IsReal]
  grind

/-- The port hands on the readings `namesARealInstant` accepts. -/
theorem canonicalReading_string {s : JsString} :
    canonicalReading (.string s) = .ok (.string s) ↔ Clock.namesARealInstant s = true := by
  rw [canonicalReading, isInstant_eq]
  by_cases h : Clock.namesARealInstant s = true <;> simp [h]

/-! ## The calendar -/

/-- An instant of the years 1 to 9999 of the proleptic Gregorian calendar, to the millisecond. -/
structure Instant where
  date : PlainDate
  hour : ℕ
  minute : ℕ
  second : ℕ
  millisecond : ℕ
  yearOk : 1 ≤ date.year.toInt ∧ date.year.toInt ≤ 9999
  timeOk : hour < 24 ∧ minute < 60 ∧ second < 60 ∧ millisecond < 1000

namespace Instant

def year (t : Instant) : ℕ := t.date.year.toInt.toNat

def month (t : Instant) : ℕ := t.date.month.val.toNat

def day (t : Instant) : ℕ := t.date.day.val.toNat

/-- `YYYY-MM-DDTHH:MM:SS.sssZ` -/
def spell (t : Instant) : JsString :=
  layout (padded 4 t.year) (padded 2 t.month) (padded 2 t.day) (padded 2 t.hour)
    (padded 2 t.minute) (padded 2 t.second) (padded 3 t.millisecond)

end Instant

/-- The leap years of the source are those of the calendar. -/
theorem isLeapYear_eq (year : ℕ) :
    isLeapYear year = Std.Time.Year.Offset.isLeap (Std.Time.Year.Offset.ofNat year) := by
  rw [Bool.eq_iff_iff]
  simp only [isLeapYear, Std.Time.Year.Offset.isLeap, Std.Time.Year.Offset.toInt,
    Std.Time.Year.Offset.ofNat]
  grind

/-- The months of the source have the length they have in the calendar. -/
theorem lengthOfMonth_eq (year : ℕ) (month : Std.Time.Month.Ordinal) :
    lengthOfMonth year month.val.toNat = (month.days (isLeapYear year)).val := by
  have hdays : ∀ (leap : Bool) (n : ℕ) (h : 1 ≤ (n : ℤ) ∧ (n : ℤ) ≤ 12),
      ((if n = 2 && leap then 29
        else [31, 28, 31, 30, 31, 30, 31, 31, 30, 31, 30, 31].getD (n - 1) 0 : ℕ) : ℤ) =
        (Std.Time.Month.Ordinal.days leap ⟨n, h⟩).val := by
    intro leap n h
    obtain ⟨h1, h12⟩ := h
    have hn : n ∈ Finset.Icc 1 12 := Finset.mem_Icc.mpr ⟨by omega, by omega⟩
    fin_cases hn <;> cases leap <;> rfl
  obtain ⟨m, hm⟩ := month
  obtain ⟨n, rfl⟩ := Int.eq_ofNat_of_zero_le (le_trans (by decide) hm.1)
  exact hdays (isLeapYear year) n hm

namespace Instant

/-- The numbers of an instant name a real one. -/
theorem isReal (t : Instant) : IsReal t.year t.month t.day t.hour t.minute t.second := by
  have hyear : ((t.year : ℕ) : ℤ) = t.date.year.toInt :=
    Int.toNat_of_nonneg (le_trans (by decide) t.yearOk.1)
  have hleap : isLeapYear t.year = t.date.year.isLeap := by
    rw [isLeapYear_eq]
    exact congrArg Std.Time.Year.Offset.isLeap hyear
  have hmonth := t.date.month.property
  have hday := t.date.day.property
  have hvalid : t.date.day.val ≤ (t.date.month.days t.date.year.isLeap).val := t.date.valid
  rw [← hleap, ← lengthOfMonth_eq] at hvalid
  have htime := t.timeOk
  have hyearOk := t.yearOk
  refine ⟨by omega, ⟨?_, ?_⟩, ⟨?_, ?_⟩, by omega, by omega, by omega⟩
  · exact (Int.le_toNat (le_trans (by decide) hmonth.1)).mpr hmonth.1
  · exact Int.toNat_le.mpr hmonth.2
  · exact (Int.le_toNat (le_trans (by decide) hday.1)).mpr hday.1
  · exact Int.toNat_le.mpr hvalid

/-- Fields that are real are those of an instant. -/
theorem exists_of_isReal {year month day hour minute second millisecond : ℕ}
    (hyear : year ≤ 9999) (hmillisecond : millisecond < 1000)
    (h : IsReal year month day hour minute second) :
    ∃ t : Instant, t.year = year ∧ t.month = month ∧ t.day = day ∧ t.hour = hour ∧
      t.minute = minute ∧ t.second = second ∧ t.millisecond = millisecond := by
  obtain ⟨hone, hmonth, hday, hhour, hminute, hsecond⟩ := h
  let ordinal : Std.Time.Month.Ordinal := ⟨month, by omega, by omega⟩
  have hlength : (lengthOfMonth year month : ℤ) = (ordinal.days (isLeapYear year)).val :=
    lengthOfMonth_eq year ordinal
  have hbound := (ordinal.days (isLeapYear year)).property.2
  have hvalid : (day : ℤ) ≤ (ordinal.days (isLeapYear year)).val := by omega
  rw [isLeapYear_eq] at hvalid
  exact ⟨⟨⟨Std.Time.Year.Offset.ofNat year, ordinal, ⟨day, by omega, by omega⟩, hvalid⟩, hour,
      minute, second, millisecond,
      ⟨Int.ofNat_le.mpr hone, Int.ofNat_le.mpr hyear⟩, by omega, by omega, by omega, hmillisecond⟩,
    rfl, rfl, rfl, rfl, rfl, rfl, rfl⟩

end Instant

section Layout

variable {year month day hour minute second fraction : JsString}

/-- The fixed positions are where the parts are. -/
theorem namesARealInstant_layout (h : IsParts year month day hour minute second fraction) :
    Clock.namesARealInstant (layout year month day hour minute second fraction) = true ↔
      IsReal (decimal year) (decimal month) (decimal day) (decimal hour) (decimal minute)
        (decimal second) := by
  have hform : isTimestampForm (layout year month day hour minute second fraction) = true :=
    isTimestampForm_iff.mpr ⟨year, month, day, hour, minute, second, fraction, h, rfl⟩
  rw [Clock.namesARealInstant_iff, and_iff_right hform]
  have hy := h.year.1
  have hmo := h.month.1
  have hd := h.day.1
  have hh := h.hour.1
  have hmi := h.minute.1
  have hse := h.second.1
  have hdash : (lit "-").length = 1 := rfl
  have ht : (lit "T").length = 1 := rfl
  have hcolon : (lit ":").length = 1 := rfl
  simp (disch := omega) [Clock.slice, layout, List.drop_append,
    List.drop_of_length_le, hy, hmo, hd, hh, hmi, hse, hdash, ht, hcolon]

end Layout

namespace Instant

/-- The numbers of an instant are padded to their widths. -/
theorem isParts (t : Instant) : IsParts (padded 4 t.year) (padded 2 t.month) (padded 2 t.day)
    (padded 2 t.hour) (padded 2 t.minute) (padded 2 t.second) (padded 3 t.millisecond) :=
  ⟨isDigits_padded _ _, isDigits_padded _ _, isDigits_padded _ _, isDigits_padded _ _,
    isDigits_padded _ _, isDigits_padded _ _, isDigits_padded _ _⟩

/-- The strings that are admitted are the spellings of instants. -/
theorem namesARealInstant_iff_spell {s : JsString} :
    Clock.namesARealInstant s = true ↔ ∃ t : Instant, t.spell = s := by
  constructor
  · intro h
    obtain ⟨y, mo, d, hr, mi, se, ms, hparts, rfl⟩ :=
      isTimestampForm_iff.mp (Clock.namesARealInstant_iff.mp h).1
    have hyear := hparts.year.decimal_lt
    -- the numbers between the separators name an instant, and are its numbers padded
    obtain ⟨t, hty, htmo, htd, hth, htmi, htse, htms⟩ := exists_of_isReal (by omega)
      hparts.fraction.decimal_lt ((namesARealInstant_layout hparts).mp h)
    refine ⟨t, ?_⟩
    rw [spell, hty, htmo, htd, hth, htmi, htse, htms, hparts.year.padded_decimal,
      hparts.month.padded_decimal, hparts.day.padded_decimal, hparts.hour.padded_decimal,
      hparts.minute.padded_decimal, hparts.second.padded_decimal,
      hparts.fraction.padded_decimal]
  · rintro ⟨t, rfl⟩
    have hreal := t.isReal
    obtain ⟨-, hmonth, hday, hhour, hminute, hsecond⟩ := t.isReal
    have hyear : t.year ≤ 9999 := Int.toNat_le.mpr t.yearOk.2
    have hlast : t.day ≤ 31 := Int.toNat_le.mpr t.date.day.property.2
    refine (namesARealInstant_layout t.isParts).mpr ?_
    rw [decimal_padded (by omega), decimal_padded (by omega), decimal_padded (by omega),
      decimal_padded (by omega), decimal_padded (by omega), decimal_padded (by omega)]
    exact hreal

end Instant

namespace Clock

/-- The clock, a decision log entry and a commit receipt accept the same strings, and those are
the spellings of the instants there are. -/
theorem validators_agree (s : JsString) :
    (namesARealInstant s = true ↔
      (DecisionLogEntry.timestampValue (.string s)).map Subtype.val = .ok s) ∧
    (namesARealInstant s = true ↔
      (CommitReceipt.committedAtValue s).map Subtype.val = .ok s) ∧
    (namesARealInstant s = true ↔ ∃ t : Instant, t.spell = s) := by
  refine ⟨?_, ?_, Instant.namesARealInstant_iff_spell⟩
  · rw [← isInstant_eq]
    exact DecisionLogEntry.timestampValue_string.symm
  · rw [← isInstant_eq]
    exact CommitReceipt.committedAtValue_eq_ok.symm

end Clock

end MetaframerKernel
