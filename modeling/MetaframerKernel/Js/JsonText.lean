import MetaframerKernel.Js.Json

/-!
# JSON texts

`JSON.stringify` and `JSON.parse` on JSON values. A text is a list of Unicode scalar values: the
printer escapes a surrogate that stands alone, so what it prints is always well-formed Unicode.

## Main definitions

* `Json.stringify`: `JSON.stringify` without a replacer or indentation;
* `jsonParse`: `JSON.parse` without a reviver;
* `Json.readBack`: the value a printed value reads back as.

## Main results

* `jsonParse_stringify`: printing and reading back only reorders the members of objects and drops
  the sign of zero;
* `stringify_inj`: values printed alike are the same value.
-/

namespace Js

/-! ## Printing -/

/-- A lower-case hexadecimal digit. -/
def hexChar (n : ℕ) : Char := Char.ofNat (if n < 10 then 48 + n else 87 + n)

/-- `\\uXXXX`. -/
def unicodeEscape (n : ℕ) : List Char :=
  ['\\', 'u', hexChar (n / 4096 % 16), hexChar (n / 256 % 16), hexChar (n / 16 % 16),
    hexChar (n % 16)]

/-- The characters `QuoteJSONString` writes for a code unit that is not part of a pair. -/
def quoteUnit (u : CodeUnit) : List Char :=
  if u.val = 0x08 then ['\\', 'b']
  else if u.val = 0x09 then ['\\', 't']
  else if u.val = 0x0A then ['\\', 'n']
  else if u.val = 0x0C then ['\\', 'f']
  else if u.val = 0x0D then ['\\', 'r']
  else if u.val = 0x22 then ['\\', '"']
  else if u.val = 0x5C then ['\\', '\\']
  -- a surrogate that stands alone is escaped; one that is part of a pair never comes here
  else if u.val < 0x20 || u.isHigh || u.isLow then unicodeEscape u.val
  else [Char.ofNat u.val]

/-- The characters `QuoteJSONString` writes for a string, without the quotation marks. -/
def quoteUnits : JsString → List Char
  | [] => []
  | [u] => quoteUnit u
  | u :: v :: rest =>
      if u.isHigh && v.isLow then Char.ofNat (pairPoint u v) :: quoteUnits rest
      else quoteUnit u ++ quoteUnits (v :: rest)

/-- A string literal. -/
def quote (s : JsString) : List Char := '"' :: (quoteUnits s ++ ['"'])

/-- A number, `null` when it is not finite. -/
def numberText : JsNumber → List Char
  | .finite x => x.text
  | _ => ['n', 'u', 'l', 'l']

/-- Texts separated by commas. -/
def commaSep : List (List Char) → List Char
  | [] => []
  | [t] => t
  | t :: ts => t ++ ',' :: commaSep ts

namespace Json

mutual

/-- `JSON.stringify`. The members of an object are printed in the order JavaScript enumerates
them. -/
def stringify : Json → List Char
  | .null => ['n', 'u', 'l', 'l']
  | .bool true => ['t', 'r', 'u', 'e']
  | .bool false => ['f', 'a', 'l', 's', 'e']
  | .num n => numberText n
  | .str s => quote s
  | .arr l => '[' :: (commaSep (elemTexts l) ++ [']'])
  | .obj m => '{' :: (commaSep ((ownOrder (memberTexts m)).map Prod.snd) ++ ['}'])

/-- The texts of the elements of an array. -/
def elemTexts : List Json → List (List Char)
  | [] => []
  | v :: l => stringify v :: elemTexts l

/-- The texts of the members of an object, each under its key. -/
def memberTexts : List (JsString × Json) → List (JsString × List Char)
  | [] => []
  | (k, v) :: m => (k, quote k ++ ':' :: stringify v) :: memberTexts m

end

/-- The text of one member. -/
def memberText (p : JsString × Json) : List Char := quote p.1 ++ ':' :: stringify p.2

/-- The texts of elements are those of each. -/
theorem elemTexts_eq (l : List Json) : elemTexts l = l.map stringify := by
  induction l with
  | nil => rfl
  | cons v l ih => rw [elemTexts, ih, List.map_cons]

/-- An array is printed with commas between its elements. -/
theorem stringify_arr (l : List Json) :
    stringify (.arr l) = '[' :: (commaSep (l.map stringify) ++ [']']) := by
  rw [stringify, elemTexts_eq]

/-- The texts of members are those of each, under its key. -/
theorem memberTexts_eq (m : List (JsString × Json)) :
    memberTexts m = m.map fun p => (p.1, memberText p) := by
  induction m with
  | nil => rfl
  | cons p m ih => rw [memberTexts, ih, List.map_cons]; rfl

/-- An object is printed with its members in own-property order. -/
theorem stringify_obj (m : List (JsString × Json)) :
    stringify (.obj m) = '{' :: (commaSep ((ownOrder m).map memberText) ++ ['}']) := by
  rw [stringify, memberTexts_eq, ownOrder_map (fun p => (p.1, memberText p)) fun _ => rfl,
    List.map_map]
  rfl

end Json

/-! ## Reading -/

/-- JSON whitespace. -/
def isSpace (c : Char) : Bool := c == ' ' || c == '\t' || c == '\n' || c == '\r'

/-- The text after its leading whitespace. -/
def skipSpace (cs : List Char) : List Char := cs.dropWhile isSpace

/-- The value of a hexadecimal digit of either case. -/
def hexValue (c : Char) : Option ℕ :=
  if isDigit c then some (c.toNat - 48)
  else if 'a' ≤ c ∧ c ≤ 'f' then some (c.toNat - 87)
  else if 'A' ≤ c ∧ c ≤ 'F' then some (c.toNat - 55)
  else none

/-- The code unit four hexadecimal digits spell. -/
def readHex (a b c d : Char) : Option CodeUnit := do
  let a ← hexValue a
  let b ← hexValue b
  let c ← hexValue c
  let d ← hexValue d
  return Fin.ofNat 65536 (4096 * a + 256 * b + 16 * c + d)

/-- The code unit of a one-character escape. -/
def readEscape (c : Char) : Option CodeUnit :=
  if c = '"' then some 0x22
  else if c = '\\' then some 0x5C
  else if c = '/' then some 0x2F
  else if c = 'b' then some 0x08
  else if c = 'f' then some 0x0C
  else if c = 'n' then some 0x0A
  else if c = 'r' then some 0x0D
  else if c = 't' then some 0x09
  else none

/-- Put units in front of the string that has been read. -/
def prepend (s : JsString) (r : Option (JsString × List Char)) : Option (JsString × List Char) :=
  r.map fun p => (s ++ p.1, p.2)

/-- A string literal after its opening quotation mark. -/
def readString : List Char → Option (JsString × List Char)
  | [] => none
  | c :: rest =>
      if c = '"' then some ([], rest)
      else if c = '\\' then
        match rest with
        | [] => none
        | e :: rest =>
            if e = 'u' then
              match rest with
              | a :: b :: c :: d :: rest =>
                  (readHex a b c d).bind fun u => prepend [u] (readString rest)
              | _ => none
            else (readEscape e).bind fun u => prepend [u] (readString rest)
      -- a control character has to be escaped
      else if c.toNat < 0x20 then none
      else prepend (ofChar c) (readString rest)

/-- The rest of a text after a word. -/
def readWord : List Char → List Char → Option (List Char)
  | [], cs => some cs
  | w :: ws, c :: cs => if c = w then readWord ws cs else none
  | _ :: _, [] => none

mutual

/-- A JSON value at the head of a text. The fuel bounds the number of values and commas read. -/
def parseValue : ℕ → List Char → Option (Json × List Char)
  | 0, _ => none
  | fuel + 1, cs =>
      match skipSpace cs with
      | [] => none
      | c :: rest =>
          if c = '"' then (readString rest).map fun p => (.str p.1, p.2)
          else if c = '[' then
            if (skipSpace rest).head? = some ']' then some (.arr [], (skipSpace rest).tail)
            else (parseElems fuel rest).map fun p => (.arr p.1, p.2)
          else if c = '{' then
            if (skipSpace rest).head? = some '}' then some (.obj [], (skipSpace rest).tail)
            else (parseMembers fuel rest).map fun p => (.obj (collectMembers p.1), p.2)
          else if c = 'n' then (readWord ['u', 'l', 'l'] rest).map fun cs => (.null, cs)
          else if c = 't' then (readWord ['r', 'u', 'e'] rest).map fun cs => (.bool true, cs)
          else if c = 'f' then (readWord ['a', 'l', 's', 'e'] rest).map fun cs => (.bool false, cs)
          -- what begins no other value is read as a number
          else (readNumber (c :: rest)).map fun p => (.num p.1, p.2)

/-- The elements of an array up to its closing bracket. -/
def parseElems : ℕ → List Char → Option (List Json × List Char)
  | 0, _ => none
  | fuel + 1, cs =>
      (parseValue fuel cs).bind fun p =>
        match skipSpace p.2 with
        | [] => none
        | c :: rest =>
            if c = ',' then (parseElems fuel rest).map fun q => (p.1 :: q.1, q.2)
            else if c = ']' then some ([p.1], rest)
            else none

/-- The members of an object up to its closing brace, as they are written. -/
def parseMembers : ℕ → List Char → Option (List (JsString × Json) × List Char)
  | 0, _ => none
  | fuel + 1, cs =>
      (readWord ['"'] (skipSpace cs)).bind fun cs =>
        (readString cs).bind fun k =>
          (readWord [':'] (skipSpace k.2)).bind fun cs =>
            (parseValue fuel cs).bind fun p =>
              -- a member is followed by a comma and another, or by the brace that ends the object
              match skipSpace p.2 with
              | [] => none
              | c :: rest =>
                  if c = ',' then
                    (parseMembers fuel rest).map fun q => ((k.1, p.1) :: q.1, q.2)
                  else if c = '}' then some ([(k.1, p.1)], rest)
                  else none

end

/-- `JSON.parse`: one value, with whitespace around it and nothing else. -/
def jsonParse (cs : List Char) : Option Json :=
  (parseValue (cs.length + 1) cs).bind fun p =>
    if (skipSpace p.2).isEmpty then some p.1 else none

/-! ## Strings read back -/

/-- A printed hexadecimal digit reads back. -/
theorem hexValue_hexChar {n : ℕ} (h : n < 16) : hexValue (hexChar n) = some n := by
  interval_cases n <;> decide

/-- The four digits of a code unit read back as the unit. -/
theorem readHex_hexChar (u : CodeUnit) :
    readHex (hexChar (u.val / 4096 % 16)) (hexChar (u.val / 256 % 16)) (hexChar (u.val / 16 % 16))
      (hexChar (u.val % 16)) = some u := by
  have hu := u.isLt
  rw [readHex, hexValue_hexChar (Nat.mod_lt _ (by norm_num)),
    hexValue_hexChar (Nat.mod_lt _ (by norm_num)), hexValue_hexChar (Nat.mod_lt _ (by norm_num)),
    hexValue_hexChar (Nat.mod_lt _ (by norm_num))]
  simp only [Option.bind_eq_bind, Option.bind_some, Option.pure_def, Option.some.injEq]
  apply Fin.ext
  rw [Fin.val_ofNat]
  omega

/-- A scalar value is the code point of its character. -/
theorem toNat_ofNat_of_isValidChar {n : ℕ} (h : n.isValidChar) : (Char.ofNat n).toNat = n := by
  rw [Char.ofNat, dif_pos h]
  rfl

/-- A code unit that is no surrogate is a character. -/
theorem toNat_ofNat_unit {u : CodeUnit} (hhigh : u.isHigh = false) (hlow : u.isLow = false) :
    (Char.ofNat u.val).toNat = u.val := by
  have hu := u.isLt
  simp only [CodeUnit.isHigh, CodeUnit.isLow, Bool.and_eq_false_iff,
    decide_eq_false_iff_not] at hhigh hlow
  exact toNat_ofNat_of_isValidChar (by unfold Nat.isValidChar; omega)

/-- A unit that is no surrogate is the one unit of its character. -/
theorem ofChar_ofNat_unit {u : CodeUnit} (hhigh : u.isHigh = false) (hlow : u.isLow = false) :
    ofChar (Char.ofNat u.val) = [u] := by
  have hval := toNat_ofNat_unit hhigh hlow
  rw [ofChar, hval, if_pos u.isLt]
  exact congrArg (fun u => [u]) (Fin.ext (Nat.mod_eq_of_lt u.isLt))

/-- A surrogate pair is a character. -/
theorem ofChar_ofNat_pair {u v : CodeUnit} (hu : u.isHigh = true) (hv : v.isLow = true) :
    ofChar (Char.ofNat (pairPoint u v)) = [u, v] := by
  simp only [CodeUnit.isHigh, CodeUnit.isLow, Bool.and_eq_true, decide_eq_true_eq] at hu hv
  have hval : (Char.ofNat (pairPoint u v)).toNat = pairPoint u v :=
    toNat_ofNat_of_isValidChar (by unfold Nat.isValidChar pairPoint; omega)
  rw [ofChar, hval, if_neg (by unfold pairPoint; omega), List.cons.injEq, List.cons.injEq]
  refine ⟨Fin.ext ?_, Fin.ext ?_, rfl⟩
  · rw [Fin.val_ofNat]
    unfold pairPoint
    omega
  · rw [Fin.val_ofNat]
    unfold pairPoint
    omega

/-- A plain character is read as its own code units. -/
theorem readString_plain {c : Char} (h : c.toNat ≠ 0x22 ∧ c.toNat ≠ 0x5C ∧ 0x20 ≤ c.toNat)
    (cs : List Char) : readString (c :: cs) = prepend (ofChar c) (readString cs) := by
  have hquote : c ≠ '"' := by
    rintro rfl
    exact h.1 rfl
  have hslash : c ≠ '\\' := by
    rintro rfl
    exact h.2.1 rfl
  rw [readString.eq_def]
  simp only [if_neg hquote, if_neg hslash, if_neg (show ¬c.toNat < 0x20 by omega)]

/-- A `\u` escape reads back as its unit. -/
theorem readString_unicodeEscape (u : CodeUnit) (cs : List Char) :
    readString (unicodeEscape u.val ++ cs) = prepend [u] (readString cs) := by
  simp only [unicodeEscape, List.cons_append, List.nil_append]
  rw [readString.eq_def]
  simp only [if_true, readHex_hexChar, Option.bind_some, if_neg (show ¬('\\' = '"') by decide)]

/-- A short escape reads as the unit it stands for. -/
theorem readString_escape {c : Char} (hc : c ≠ 'u') {u : CodeUnit} (hu : readEscape c = some u)
    (cs : List Char) : readString ('\\' :: c :: cs) = prepend [u] (readString cs) := by
  rw [readString.eq_def]
  simp only [if_neg hc, hu, Option.bind_some, if_true, if_neg (show ¬('\\' = '"') by decide)]

/-- An escaped code unit is read back. -/
theorem readString_quoteUnit (u : CodeUnit) (cs : List Char) :
    readString (quoteUnit u ++ cs) = prepend [u] (readString cs) := by
  have hfin (n : ℕ) (hn : u.val = n) (h : n < 65536) : (⟨n, h⟩ : CodeUnit) = u := Fin.ext hn.symm
  unfold quoteUnit
  split_ifs with h1 h2 h3 h4 h5 h6 h7 h8
  · exact readString_escape (c := 'b') (by decide) (congrArg some (hfin _ h1 (by decide))) cs
  · exact readString_escape (c := 't') (by decide) (congrArg some (hfin _ h2 (by decide))) cs
  · exact readString_escape (c := 'n') (by decide) (congrArg some (hfin _ h3 (by decide))) cs
  · exact readString_escape (c := 'f') (by decide) (congrArg some (hfin _ h4 (by decide))) cs
  · exact readString_escape (c := 'r') (by decide) (congrArg some (hfin _ h5 (by decide))) cs
  · exact readString_escape (c := '"') (by decide) (congrArg some (hfin _ h6 (by decide))) cs
  · exact readString_escape (c := '\\') (by decide) (congrArg some (hfin _ h7 (by decide))) cs
  · exact readString_unicodeEscape u cs
  · simp only [Bool.or_eq_true, decide_eq_true_eq, not_or, Bool.not_eq_true] at h8
    obtain ⟨⟨hctl, hhigh⟩, hlow⟩ := h8
    have hval := toNat_ofNat_unit hhigh hlow
    rw [List.singleton_append, readString_plain (by omega), ofChar_ofNat_unit hhigh hlow]

/-- Two texts put before what is read are put there as one. -/
theorem prepend_prepend (s t : JsString) (r : Option (JsString × List Char)) :
    prepend s (prepend t r) = prepend (s ++ t) r := by
  cases r <;> simp [prepend]

/-- The inside of a string literal is read back, whatever follows it. -/
theorem readString_quoteUnits (s : JsString) (cs : List Char) :
    readString (quoteUnits s ++ cs) = prepend s (readString cs) := by
  induction s using quoteUnits.induct with
  | case1 => cases h : readString cs <;> simp [quoteUnits, prepend, h]
  | case2 u => exact readString_quoteUnit u cs
  | case3 u v rest hpair ih =>
    obtain ⟨hu, hv⟩ := Bool.and_eq_true_iff.mp hpair
    have hunits := ofChar_ofNat_pair hu hv
    have hge : 0x10000 ≤ (Char.ofNat (pairPoint u v)).toNat := by
      by_contra hlt
      obtain ⟨w, hw, -⟩ := ofChar_of_lt (Nat.lt_of_not_le hlt)
      simp [hw] at hunits
    rw [quoteUnits, if_pos hpair, List.cons_append, readString_plain (by omega), ih, hunits,
      prepend_prepend]
    rfl
  | case4 u v rest hpair ih =>
    rw [quoteUnits, if_neg hpair, List.append_assoc, readString_quoteUnit, ih, prepend_prepend]
    rfl

/-- A string literal is read back. -/
theorem readString_quote (s : JsString) (rest : List Char) :
    readString (quoteUnits s ++ '"' :: rest) = some (s, rest) := by
  have hend : readString ('"' :: rest) = some ([], rest) := by
    rw [readString.eq_def]
    simp
  rw [readString_quoteUnits, hend]
  simp [prepend]

/-! ## Values read back -/

/-- At a character that is no white space nothing is skipped. -/
theorem skipSpace_cons {c : Char} (h : isSpace c = false) (cs : List Char) :
    skipSpace (c :: cs) = c :: cs := by
  rw [skipSpace, List.dropWhile_cons_of_neg (by simp [h])]

/-- A character a printed value can start with. -/
def StartsValue (c : Char) : Prop := isSpace c = false ∧ c ≠ ']' ∧ c ≠ '}'

/-- A printed number starts with a digit or a minus sign. -/
theorem exists_text_cons (x : Finite) :
    ∃ c cs, x.text = c :: cs ∧ (isDigit c = true ∨ c = '-') := by
  by_cases hx : x.coeff = 0
  · exact ⟨'0', [], if_pos hx, Or.inl rfl⟩
  · rw [Finite.text, if_neg hx]
    cases x.neg with
    | true => exact ⟨'-', _, rfl, Or.inr rfl⟩
    | false =>
      obtain ⟨c, cs, hhead, hc⟩ := exists_magnitudeText_cons x hx
      exact ⟨c, cs, hhead, Or.inl hc⟩

/-- A digit or a minus begins a number and no other value. -/
theorem startsValue_of_isDigit {c : Char} (h : isDigit c = true ∨ c = '-') :
    StartsValue c ∧ c ≠ '"' ∧ c ≠ '[' ∧ c ≠ '{' ∧ c ≠ 'n' ∧ c ≠ 't' ∧ c ≠ 'f' := by
  rcases h with h | rfl
  · rw [StartsValue, isSpace, ← Bool.not_eq_true]
    refine ⟨⟨fun hspace => ?_, ?_, ?_⟩, ?_, ?_, ?_, ?_, ?_, ?_⟩
    · simp only [Bool.or_eq_true, beq_iff_eq] at hspace
      rcases hspace with ((rfl | rfl) | rfl) | rfl <;> exact absurd h (by decide)
    all_goals
      rintro rfl
      exact absurd h (by decide)
  · exact ⟨⟨by decide, by decide, by decide⟩, by decide, by decide, by decide, by decide,
      by decide, by decide⟩

namespace Json

/-- The value a printed value reads back as: members in enumeration order, zeros unsigned. -/
def readBack : Json → Json :=
  rebuild (fun n => if n.isFinite then .num n.unsignZero else .null) ownOrder

/-- No printed value is empty, and none starts like the end of an array or object. -/
theorem exists_stringify_cons (v : Json) :
    ∃ c cs, stringify v = c :: cs ∧ StartsValue c := by
  have start (c : Char) (cs : List Char) (h : StartsValue c) :
      ∃ d ds, c :: cs = d :: ds ∧ StartsValue d := ⟨c, cs, rfl, h⟩
  cases v with
  | null => exact start _ _ ⟨by decide, by decide, by decide⟩
  | bool b => cases b <;> exact start _ _ ⟨by decide, by decide, by decide⟩
  | num n =>
    cases n with
    | finite x =>
      obtain ⟨c, cs, hx, hc⟩ := exists_text_cons x
      exact ⟨c, cs, hx, (startsValue_of_isDigit hc).1⟩
    | infinity neg => exact start _ _ ⟨by decide, by decide, by decide⟩
    | nan => exact start _ _ ⟨by decide, by decide, by decide⟩
  | str s => exact start _ _ ⟨by decide, by decide, by decide⟩
  | arr l => exact start _ _ ⟨by decide, by decide, by decide⟩
  | obj m => exact start _ _ ⟨by decide, by decide, by decide⟩

end Json

/-- A value is read back from the head of any text that does not continue it as a number. -/
def ReadsBack (v : Json) : Prop :=
  ∀ fuel rest, (Json.stringify v).length ≤ fuel → EndsNumber rest →
    parseValue fuel (Json.stringify v ++ rest) = some (Json.readBack v, rest)

/-- A character that no number goes on with ends one. -/
theorem endsNumber_cons {c : Char} (h : isDigit c = false ∧ c ≠ '.' ∧ c ≠ 'e' ∧ c ≠ 'E')
    (cs : List Char) : EndsNumber (c :: cs) := by
  intro d hd
  obtain rfl := Option.some.inj hd
  exact h

/-- A word is read off the text it begins. -/
theorem readWord_append (ws rest : List Char) : readWord ws (ws ++ rest) = some rest := by
  induction ws with
  | nil => rfl
  | cons w ws ih => rw [List.cons_append, readWord, if_pos rfl, ih]

/-- The text of a value is not empty. -/
theorem length_stringify_pos (v : Json) : 0 < (Json.stringify v).length := by
  obtain ⟨c, cs, h, -⟩ := v.exists_stringify_cons
  simp [h]

/-- A number reads back. -/
theorem readsBack_number (n : JsNumber) : ReadsBack (.num n) := by
  rintro (_ | fuel) rest hfuel hrest
  · exact absurd (length_stringify_pos (.num n)) (by omega)
  · cases n with
    | finite x =>
      have hread := readNumber_text x hrest
      obtain ⟨c, cs, hx, hc⟩ := exists_text_cons x
      obtain ⟨hstart, h1, h2, h3, h4, h5, h6⟩ := startsValue_of_isDigit hc
      simp only [Json.stringify, numberText]
      rw [hx, List.cons_append] at hread ⊢
      rw [parseValue, skipSpace_cons hstart.1]
      simp only [if_neg h1, if_neg h2, if_neg h3, if_neg h4, if_neg h5, if_neg h6, hread]
      rfl
    | infinity neg => rfl
    | nan => rfl

/-- Elements that read back are read back up to the closing bracket. -/
theorem parseElems_commaSep {v : Json} {l : List Json} (h : ∀ w ∈ v :: l, ReadsBack w)
    {fuel : ℕ} (hfuel : (commaSep ((v :: l).map Json.stringify)).length < fuel)
    (rest : List Char) :
    parseElems fuel (commaSep ((v :: l).map Json.stringify) ++ ']' :: rest) =
      some ((v :: l).map Json.readBack, rest) := by
  induction l generalizing v fuel with
  | nil =>
    obtain ⟨fuel, rfl⟩ : ∃ n, fuel = n + 1 := ⟨fuel - 1, by omega⟩
    simp only [List.map_cons, List.map_nil, commaSep] at hfuel ⊢
    rw [parseElems, h v (by simp) fuel _ (by omega) (endsNumber_cons (by decide) rest),
      Option.bind_some, skipSpace_cons (by decide)]
    rfl
  | cons w l ih =>
    obtain ⟨fuel, rfl⟩ : ∃ n, fuel = n + 1 := ⟨fuel - 1, by omega⟩
    simp only [List.map_cons, commaSep, List.length_append, List.length_cons] at hfuel ih ⊢
    -- each element takes at least one character, so the fuel lasts
    have hpos := length_stringify_pos v
    have hrest : parseElems fuel
        (commaSep (w.stringify :: l.map Json.stringify) ++ ']' :: rest) =
          some (w.readBack :: l.map Json.readBack, rest) :=
      ih (fun u hu => h u (List.mem_cons_of_mem v hu)) (by omega)
    rw [List.append_assoc, List.cons_append, parseElems,
      h v (by simp) fuel _ (by omega) (endsNumber_cons (by decide) _), Option.bind_some,
      skipSpace_cons (by decide)]
    simp only [if_true, hrest, Option.map_some]

/-- Members that read back are read back up to the closing brace. -/
theorem parseMembers_commaSep {p : JsString × Json} {m : List (JsString × Json)}
    (h : ∀ q ∈ p :: m, ReadsBack q.2) {fuel : ℕ}
    (hfuel : (commaSep ((p :: m).map Json.memberText)).length < fuel) (rest : List Char) :
    parseMembers fuel (commaSep ((p :: m).map Json.memberText) ++ '}' :: rest) =
      some ((p :: m).map (Prod.map id Json.readBack), rest) := by
  have hkey (k : JsString) (cs : List Char) :
      (readWord ['"'] (skipSpace (quote k ++ cs))).bind readString = some (k, cs) := by
    rw [quote, List.cons_append, List.append_assoc, skipSpace_cons (by decide), readWord,
      if_pos rfl, readWord, Option.bind_some]
    exact readString_quote k cs
  -- on the members behind the first: its comma or the closing brace comes next
  induction m generalizing p fuel with
  | nil =>
    obtain ⟨fuel, rfl⟩ : ∃ n, fuel = n + 1 := ⟨fuel - 1, by omega⟩
    simp only [List.map_cons, List.map_nil, commaSep, Json.memberText, List.length_append,
      List.length_cons] at hfuel ⊢
    rw [List.append_assoc, List.cons_append, parseMembers, ← Option.bind_assoc, hkey,
      Option.bind_some, skipSpace_cons (by decide), readWord, if_pos rfl, readWord,
      Option.bind_some, h p (by simp) fuel _ (by omega) (endsNumber_cons (by decide) rest),
      Option.bind_some, skipSpace_cons (by decide)]
    rfl
  | cons q m ih =>
    obtain ⟨fuel, rfl⟩ : ∃ n, fuel = n + 1 := ⟨fuel - 1, by omega⟩
    have htext : (Json.memberText p).length = (quote p.1).length + 1 + p.2.stringify.length := by
      simp [Json.memberText, add_assoc, add_comm]
    have hpos := length_stringify_pos p.2
    simp only [List.map_cons, commaSep, List.length_append, List.length_cons, htext]
      at hfuel ih ⊢
    have hrest : parseMembers fuel
        (commaSep (Json.memberText q :: m.map Json.memberText) ++ '}' :: rest) =
          some (Prod.map id Json.readBack q :: m.map (Prod.map id Json.readBack), rest) :=
      ih (fun u hu => h u (List.mem_cons_of_mem p hu)) (by omega)
    rw [Json.memberText, List.append_assoc, List.append_assoc, List.cons_append, List.cons_append,
      parseMembers, ← Option.bind_assoc, hkey, Option.bind_some, skipSpace_cons (by decide),
      readWord, if_pos rfl, readWord, Option.bind_some,
      h p (by simp) fuel _ (by omega) (endsNumber_cons (by decide) _), Option.bind_some,
      skipSpace_cons (by decide)]
    simp only [if_true, hrest, Option.map_some]
    rfl

/-- A list with commas begins with its first text. -/
theorem exists_commaSep_cons (t : List Char) (ts : List (List Char)) :
    ∃ u, commaSep (t :: ts) = t ++ u := by
  cases ts with
  | nil => exact ⟨[], (List.append_nil t).symm⟩
  | cons t' ts => exact ⟨_, rfl⟩

/-- A bracket opens an array, which is empty when one that closes it follows. -/
theorem parseValue_bracket (fuel : ℕ) (cs : List Char) :
    parseValue (fuel + 1) ('[' :: cs) =
      if (skipSpace cs).head? = some ']' then some (.arr [], (skipSpace cs).tail)
      else (parseElems fuel cs).map fun p => (.arr p.1, p.2) := rfl

/-- A brace opens an object, which is empty when one that closes it follows. -/
theorem parseValue_brace (fuel : ℕ) (cs : List Char) :
    parseValue (fuel + 1) ('{' :: cs) =
      if (skipSpace cs).head? = some '}' then some (.obj [], (skipSpace cs).tail)
      else (parseMembers fuel cs).map fun p => (.obj (collectMembers p.1), p.2) := rfl

/-- An array reads back when its elements do. -/
theorem readsBack_arr {l : List Json} (h : ∀ v ∈ l, ReadsBack v) : ReadsBack (.arr l) := by
  rintro (_ | fuel) rest hfuel -
  · exact absurd (length_stringify_pos (.arr l)) (by omega)
  · rw [Json.stringify_arr] at hfuel ⊢
    rw [Json.readBack, Json.rebuild, Json.rebuildElems_eq, ← Json.readBack, List.cons_append,
      parseValue_bracket]
    cases l with
    | nil => rfl
    | cons w l =>
      have hbound : (commaSep ((w :: l).map Json.stringify)).length < fuel := by
        simp at hfuel ⊢
        omega
      have helems := parseElems_commaSep h hbound rest
      obtain ⟨u, hu⟩ := exists_commaSep_cons w.stringify (l.map Json.stringify)
      obtain ⟨c, cs, hc, hstart⟩ := w.exists_stringify_cons
      -- the text of the first element does not begin with the bracket that ends the array
      have hopen : (skipSpace (commaSep ((w :: l).map Json.stringify) ++ ']' :: rest)).head? ≠
          some ']' := by
        rw [List.map_cons, hu, hc, List.cons_append, List.cons_append, skipSpace_cons hstart.1]
        simpa using hstart.2.1
      rw [List.append_assoc, List.singleton_append, if_neg hopen, helems, Option.map_some]

/-- An object reads back when its members do. -/
theorem readsBack_obj {m : List (JsString × Json)} (hkeys : (m.map Prod.fst).Nodup)
    (h : ∀ p ∈ m, ReadsBack p.2) : ReadsBack (.obj m) := by
  rintro (_ | fuel) rest hfuel -
  · exact absurd (length_stringify_pos (.obj m)) (by omega)
  · have horder := ownOrder_perm m
    rw [Json.stringify_obj] at hfuel ⊢
    rw [Json.readBack, Json.rebuild, Json.rebuildMembers_eq, ← Json.readBack,
      ownOrder_map (Prod.map id _) fun _ => rfl, List.cons_append,
      parseValue_brace]
    have hnodup : ((ownOrder m).map Prod.fst).Nodup := (horder.map _).nodup_iff.mpr hkeys
    replace h : ∀ p ∈ ownOrder m, ReadsBack p.2 := fun p hp => h p (horder.subset hp)
    cases hm : ownOrder m with
    | nil => rfl
    | cons p l =>
      rw [hm] at h hfuel hnodup
      have hbound : (commaSep ((p :: l).map Json.memberText)).length < fuel := by
        simp at hfuel ⊢
        omega
      have hmembers := parseMembers_commaSep h hbound rest
      obtain ⟨u, hu⟩ := exists_commaSep_cons (Json.memberText p) (l.map Json.memberText)
      -- an object that is not empty goes on with the quote of a key
      have hopen : (skipSpace (commaSep ((p :: l).map Json.memberText) ++ '}' :: rest)).head? ≠
          some '}' := by
        rw [List.map_cons, hu, Json.memberText, quote, List.cons_append, List.cons_append,
          List.cons_append, skipSpace_cons (by decide)]
        simp
      rw [List.append_assoc, List.singleton_append, if_neg hopen, hmembers, Option.map_some,
        collectMembers_of_nodup (by rwa [Json.map_fst_map])]

/-- Every value with distinct keys reads back. -/
theorem readsBack_of_wellFormed {v : Json} (hv : v.wellFormed = true) : ReadsBack v := by
  -- without fuel there is nothing to show, as no text is empty
  induction v using Json.ind with
  | null =>
    rintro (_ | fuel) rest hfuel -
    · exact absurd (length_stringify_pos .null) (by omega)
    · rfl
  | bool b =>
    rintro (_ | fuel) rest hfuel -
    · exact absurd (length_stringify_pos (.bool b)) (by omega)
    · cases b <;> rfl
  | num n => exact readsBack_number n
  | str s =>
    rintro (_ | fuel) rest hfuel -
    · exact absurd (length_stringify_pos (.str s)) (by omega)
    · rw [Json.stringify, quote, List.cons_append, parseValue, skipSpace_cons (by decide)]
      simp only [if_true, List.append_assoc, List.singleton_append, readString_quote]
      rfl
  | arr l ih =>
    rw [Json.wellFormed_arr] at hv
    exact readsBack_arr fun v hmem => ih v hmem (hv v hmem)
  | obj m ih =>
    rw [Json.wellFormed_obj] at hv
    exact readsBack_obj hv.1 fun p hp => ih p hp (hv.2 p hp)

/-- Printing and reading back only reorders the members of objects and drops the sign of zero. -/
theorem jsonParse_stringify {v : Json} (hv : v.wellFormed = true) :
    jsonParse v.stringify = some v.readBack := by
  have hread := readsBack_of_wellFormed hv (v.stringify.length + 1) [] (by omega)
    (fun c hc => by simp at hc)
  rw [List.append_nil] at hread
  rw [jsonParse, hread, Option.bind_some]
  rfl

/-- A printed line is read back like the value printed on it. -/
theorem jsonParse_stringify_newline {v : Json} (hv : v.wellFormed = true) :
    jsonParse (v.stringify ++ ['\n']) = some v.readBack := by
  have hread := readsBack_of_wellFormed hv ((v.stringify ++ ['\n']).length + 1) ['\n'] (by
      rw [List.length_append]
      omega) (endsNumber_cons (by decide) _)
  rw [jsonParse, hread, Option.bind_some]
  rfl

/-- A string reads back unchanged. -/
theorem readBack_str (s : JsString) : Json.readBack (.str s) = .str s := by
  rw [Json.readBack, Json.rebuild]

/-- An object reads back with its members in own-property order. -/
theorem readBack_obj (m : List (JsString × Json)) :
    Json.readBack (.obj m) = .obj ((ownOrder m).map (Prod.map id Json.readBack)) :=
  Json.rebuild_obj Json.rearranges_ownOrder m

/-- Values of one text read back as one value. -/
theorem readBack_eq_of_stringify {v w : Json} (hv : v.wellFormed = true) (hw : w.wellFormed = true)
    (h : v.stringify = w.stringify) : v.readBack = w.readBack := by
  rw [← Option.some_inj, ← jsonParse_stringify hv, h, jsonParse_stringify hw]

/-- The value read back is the value printed. -/
theorem canonical_readBack {v : Json} (hv : v.wellFormed = true) :
    v.readBack.canonical = v.canonical := by
  conv_rhs => rw [← Json.rebuild_id v]
  refine Json.canonical_rebuild_congr (fun n hn => ?_) Json.rearranges_ownOrder Json.rearranges_id
    (fun m _ => ownOrder_perm m) hv
  rw [if_pos hn, Json.canonical, Json.rebuild, Json.rebuild, JsNumber.unsignZero_unsignZero]

/-- The value read back is again well formed. -/
theorem wellFormed_readBack {v : Json} (hv : v.wellFormed = true) :
    v.readBack.wellFormed = true := by
  refine Json.wellFormed_rebuild (fun n hn => ?_) Json.rearranges_ownOrder hv
  rw [if_pos hn, Json.wellFormed, JsNumber.isFinite_unsignZero, hn]

/-- Values printed alike are the same value. -/
theorem stringify_inj {v w : Json} (hv : v.wellFormed = true) (hw : w.wellFormed = true)
    (h : v.stringify = w.stringify) : v.canonical = w.canonical := by
  rw [← canonical_readBack hv, readBack_eq_of_stringify hv hw h, canonical_readBack hw]

end Js
