import MetaframerKernel.Adapters.DecisionLogRow
import MetaframerKernel.Codec.Positional

/-!
# The identifiers of the audit log

The runner mints the identifier of each entry of the audit log from its reading of the clock and
random bytes: ten letters for the milliseconds, sixteen for the bytes. A reading is a natural
number below `2 ^ 48`, which a `Number` holds exactly through every division by 32.

## Main definitions

* `mintUlid`: the identifier of a reading and random bytes;
* `timePrefix`, `decodeBase32`: its first letters, and the number they spell.

## Main results

* `mintUlid_isCanonical`: an identifier has the form every reader of the log demands, spells its
  reading, and identifiers are ordered as the readings.
-/

namespace MetaframerKernel.CreateCustomerAsgiRunner

open Js

/-- `CROCKFORD_BASE32` -/
def crockfordBase32 : JsString := lit "0123456789ABCDEFGHJKMNPQRSTVWXYZ"

/-- `ULID_TIME_LENGTH` -/
def ulidTimeLength : ℕ := 10

/-- `ULID_RANDOM_LENGTH` -/
def ulidRandomLength : ℕ := 16

/-- `CROCKFORD_BASE32[n % 32]` -/
def crockford (n : ℕ) : CodeUnit := crockfordBase32.getD (n % 32) 0

/-- The loop over the positions of the time. -/
def timeLoop : ℕ → ℕ → JsString → JsString
  | 0, _, time => time
  | positions + 1, remaining, time =>
      timeLoop positions (remaining / 32) (crockford (remaining % 32) :: time)

/-- `mintUlid`, of the reading `Date.now()` returns and the bytes of `randomBytes`. -/
def mintUlid (now : ℕ) (random : List UInt8) : JsString :=
  timeLoop ulidTimeLength now [] ++ random.map fun byte => crockford (byte.toNat % 32)

/-- The time an identifier opens with. -/
def timePrefix (id : JsString) : JsString := id.take ulidTimeLength

/-- The number that letters of the alphabet spell in base 32. -/
def decodeBase32 (s : JsString) : Option ℕ :=
  (s.mapM fun u => crockfordBase32.idxOf? u).map fun digits =>
    digits.foldl (fun n d => 32 * n + d) 0

/-! ## Letters -/

/-- The letter of a digit. -/
def letter (d : Fin 32) : CodeUnit := crockford d.val

/-- Letters are in the order of their digits. -/
theorem letter_strictMono : StrictMono letter := by
  have hlt : ∀ d e : Fin 32, d < e → letter d < letter e := by decide +kernel
  exact fun d e => hlt d e

/-- A letter is found at its digit. -/
theorem idxOf?_letter (d : Fin 32) : crockfordBase32.idxOf? (letter d) = some d.val := by
  revert d
  decide +kernel

/-- A letter is of the alphabet. -/
theorem crockfordClass_letter (d : Fin 32) : crockfordClass (letter d) = true := by
  revert d
  decide +kernel

/-- The character of a remainder is the letter of that digit. -/
theorem crockford_eq_letter (n : ℕ) : crockford (n % 32) = letter (Fin.ofNat 32 n) := rfl

/-- Every written character is of the alphabet. -/
theorem crockfordClass_crockford (n : ℕ) : crockfordClass (crockford n) = true := by
  rw [crockford, ← Nat.mod_mod n 32, ← crockford]
  exact crockfordClass_letter (Fin.ofNat 32 n)

/-! ## The time -/

/-- The letters that have been put down, before those there were. -/
theorem timeLoop_eq (positions remaining : ℕ) (time : JsString) :
    timeLoop positions remaining time =
      Positional.spelled letter positions remaining ++ time := by
  induction positions generalizing remaining time with
  | zero => rfl
  | succ positions ih =>
    rw [timeLoop, ih, crockford_eq_letter, Positional.spelled, Positional.spelled,
      Positional.numeral, List.map_append, List.append_assoc]
    rfl

/-- A number is spelled with as many letters as asked for. -/
theorem length_spelled (width n : ℕ) : (Positional.spelled letter width n).length = width := by
  rw [Positional.spelled, List.length_map, Positional.length_numeral]

/-- A minted ULID is the time, spelled out, and a letter for each random byte. -/
theorem mintUlid_eq (now : ℕ) (random : List UInt8) :
    mintUlid now random = Positional.spelled letter ulidTimeLength now ++
      random.map fun byte => crockford (byte.toNat % 32) := by
  rw [mintUlid, timeLoop_eq, List.append_nil]

/-- It begins with the time. -/
theorem timePrefix_mintUlid (now : ℕ) (random : List UInt8) :
    timePrefix (mintUlid now random) = Positional.spelled letter ulidTimeLength now := by
  rw [timePrefix, mintUlid_eq]
  exact List.take_left' (length_spelled _ _)

/-- Letters are read back as the number of their digits. -/
theorem decodeBase32_map_letter (digits : List (Fin 32)) :
    decodeBase32 (digits.map letter) = some (Positional.value digits) := by
  have hdigits : (digits.map letter).mapM (fun u => crockfordBase32.idxOf? u) =
      some (digits.map Fin.val) := by
    induction digits with
    | nil => rfl
    | cons d digits ih =>
      rw [List.map_cons, List.mapM_cons, ih, idxOf?_letter]
      rfl
  rw [decodeBase32, hdigits, Option.map_some, List.foldl_map]
  rfl

/-- The leading letter of a time is one of eight. -/
theorem spelled_time_eq_cons {now : ℕ} (hnow : now < 2 ^ 48) :
    ∃ d : Fin 32, d.val < 8 ∧ Positional.spelled letter ulidTimeLength now =
      letter d :: Positional.spelled letter 9 now := by
  refine ⟨Fin.ofNat 32 (now / 32 ^ 9), ?_, ?_⟩
  · rw [Fin.val_ofNat]
    omega
  · rw [Positional.spelled, ulidTimeLength, Positional.numeral_succ, List.map_cons]
    rfl

/-! ## The form -/

/-- It has the form of a ULID. -/
theorem isUlid_mintUlid {now : ℕ} (hnow : now < 2 ^ 48) {random : List UInt8}
    (hrandom : random.length = ulidRandomLength) : isUlid (mintUlid now random) = true := by
  have hleading : ∀ d : Fin 32, d.val < 8 → CodeUnit.inRange '0' '7' (letter d) = true := by
    decide +kernel
  obtain ⟨d, hd, hspelled⟩ := spelled_time_eq_cons hnow
  rw [mintUlid_eq, hspelled, isUlid, ulidForm, List.cons_append, matchesForm, Bool.and_eq_true,
    matchesForm_replicate]
  refine ⟨hleading d hd, ?_, fun u hu => ?_⟩
  · rw [List.length_append, length_spelled, List.length_map, hrandom]
    rfl
  · rcases List.mem_append.mp hu with hu | hu
    · obtain ⟨e, -, rfl⟩ := List.mem_map.mp hu
      exact crockfordClass_letter e
    · obtain ⟨byte, -, rfl⟩ := List.mem_map.mp hu
      exact crockfordClass_crockford _

/-- Of a reading of the clock and sixteen random bytes, an identifier has the form that an entry of
the log, the verifier of its rows and the table demand; its first ten letters spell the reading,
and come in the order of the readings. -/
theorem mintUlid_isCanonical {now : ℕ} (hnow : now < 2 ^ 48) {random : List UInt8}
    (hrandom : random.length = ulidRandomLength) :
    isUlid (mintUlid now random) = true ∧
    (∃ h, DecisionLogEntry.ulidValue (.string (mintUlid now random)) =
      .ok ⟨mintUlid now random, h⟩) ∧
    DecisionLogRow.isStringOf isUlid (some (.str (mintUlid now random))) = true ∧
    decodeBase32 (timePrefix (mintUlid now random)) = some now ∧
    ∀ later : ℕ, later < 2 ^ 48 → ∀ random' : List UInt8,
      (timePrefix (mintUlid now random) < timePrefix (mintUlid later random') ↔ now < later) := by
  have hfits {n : ℕ} (hn : n < 2 ^ 48) : n < 32 ^ ulidTimeLength :=
    hn.trans (by decide)
  have hform := isUlid_mintUlid hnow hrandom
  refine ⟨hform, ⟨hform, dif_pos hform⟩, hform, ?_, fun later hlater random' => ?_⟩
  · rw [timePrefix_mintUlid, Positional.spelled, decodeBase32_map_letter,
      Positional.value_numeral (hfits hnow)]
  · rw [timePrefix_mintUlid, timePrefix_mintUlid]
    exact Positional.spelled_lt_spelled_iff letter_strictMono (hfits hnow) (hfits hlater)

/-- The last reading that fits has the leading letter 7. -/
theorem mintUlid_isCanonical_last :
    isUlid (mintUlid (2 ^ 48 - 1) (List.replicate 16 255)) = true :=
  (mintUlid_isCanonical (by decide : 2 ^ 48 - 1 < 2 ^ 48) rfl).1

end MetaframerKernel.CreateCustomerAsgiRunner
