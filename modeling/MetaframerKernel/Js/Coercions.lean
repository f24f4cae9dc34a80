import MetaframerKernel.Js.Values

/-!
# Coercions of JSON values

What the operators of the language make of a JSON value that is not of the type they expect, and
the two-space form of `JSON.stringify`.

## Main definitions

* `Json.toText`: `String(value)`, also where a property key or a regular expression asks for it;
* `Json.indented`: `JSON.stringify(value, null, 2)`.
-/

namespace Js

/-- `Number.prototype.toString` -/
def JsNumber.toText : JsNumber → JsString
  | .finite x => ofText x.text
  | .infinity neg => if neg then lit "-Infinity" else lit "Infinity"
  | .nan => lit "NaN"

/-! ## Characters of a number -/

/-- The characters of a number. -/
def isNumberChar (c : Char) : Bool := isDigit c || ['-', '+', '.', 'e'].contains c

/-- Digits are characters of a number. -/
theorem isNumberChar_of_mem_digitText {ds : List ℕ} (h : ∀ d ∈ ds, d < 10) {c : Char}
    (hc : c ∈ digitText ds) : isNumberChar c = true := by
  obtain ⟨d, hd, rfl⟩ := List.mem_map.mp hc
  rw [isNumberChar, isDigit_digitChar (h d hd), Bool.true_or]

/-- An exponent is made of characters of a number. -/
theorem isNumberChar_of_mem_exponentText {e : ℤ} {c : Char} (hc : c ∈ exponentText e) :
    isNumberChar c = true := by
  rcases List.mem_cons.mp hc with rfl | hc
  · decide
  · rcases List.mem_cons.mp hc with rfl | hc
    · split <;> decide
    · exact isNumberChar_of_mem_digitText (fun d => lt_ten_of_mem_decimalDigits) hc

/-- A number is made of characters of a number. -/
theorem isNumberChar_of_mem_magnitudeText {ds : List ℕ} (h : ∀ d ∈ ds, d < 10) {n : ℤ} {c : Char}
    (hc : c ∈ magnitudeText ds n) : isNumberChar c = true := by
  -- by the four forms of a magnitude
  unfold magnitudeText at hc
  split at hc
  · rcases List.mem_append.mp hc with hc | hc
    · exact isNumberChar_of_mem_digitText h hc
    · rw [List.eq_of_mem_replicate hc]
      decide
  · split at hc
    · rcases List.mem_append.mp hc with hc | hc
      · exact isNumberChar_of_mem_digitText (fun d hd => h d (List.mem_of_mem_take hd)) hc
      · rcases List.mem_cons.mp hc with rfl | hc
        · decide
        · exact isNumberChar_of_mem_digitText (fun d hd => h d (List.mem_of_mem_drop hd)) hc
    · split at hc
      · rcases List.mem_cons.mp hc with rfl | hc
        · decide
        · rcases List.mem_cons.mp hc with rfl | hc
          · decide
          · rcases List.mem_append.mp hc with hc | hc
            · rw [List.eq_of_mem_replicate hc]
              decide
            · exact isNumberChar_of_mem_digitText h hc
      · match ds, h with
        | [], _ => cases hc
        | [d], h =>
          rcases List.mem_cons.mp hc with rfl | hc
          · exact isNumberChar_of_mem_digitText h (List.mem_cons_self)
          · exact isNumberChar_of_mem_exponentText hc
        | d :: d' :: ds, h =>
          rcases List.mem_cons.mp hc with rfl | hc
          · exact isNumberChar_of_mem_digitText h (List.mem_cons_self)
          · rcases List.mem_cons.mp hc with rfl | hc
            · decide
            · rcases List.mem_append.mp hc with hc | hc
              · exact isNumberChar_of_mem_digitText (fun d hd => h d (List.mem_cons_of_mem _ hd)) hc
              · exact isNumberChar_of_mem_exponentText hc

/-- A printed number is made of digits, signs, a point and an exponent letter. -/
theorem isNumberChar_of_mem_text {x : Finite} {c : Char} (hc : c ∈ x.text) :
    isNumberChar c = true := by
  unfold Finite.text at hc
  split at hc
  · rw [List.mem_singleton.mp hc]
    decide
  · rcases List.mem_append.mp hc with hc | hc
    · split at hc
      · rw [List.mem_singleton.mp hc]
        decide
      · cases hc
    · exact isNumberChar_of_mem_magnitudeText (fun d => lt_ten_of_mem_decimalDigits) hc

namespace Json

/-! ## Strings -/

mutual

/-- `String(value)`. An object that has an own `toString` keeps the inherited one from being
called, and what is left makes no primitive value. -/
def toText : Json → Except NativeError JsString
  | .null => .ok (lit "null")
  | .bool b => .ok (if b then lit "true" else lit "false")
  | .num n => .ok n.toText
  | .str s => .ok s
  | .arr l => (arrayTexts l).map fun ts => (ts.intersperse (lit ",")).flatten
  | .obj m =>
      -- an own `toString` that is JSON data is no function
      if (m.lookup (lit "toString")).isSome then
        .error (.typeError (lit "Cannot convert object to primitive value"))
      else .ok (lit "[object Object]")

/-- The texts `Array.prototype.join` puts together: `null` is empty. -/
def arrayTexts : List Json → Except NativeError (List JsString)
  | [] => .ok []
  | .null :: l => (arrayTexts l).map fun ts => [] :: ts
  | v :: l => (toText v).bind fun t => (arrayTexts l).map fun ts => t :: ts

end

/-! ## Indented texts -/

/-- A bracketed list of lines, two spaces deeper than the brackets. -/
def block (depth : ℕ) (brackets : Char × Char) (lines : List (List Char)) : List Char :=
  let indent := List.replicate (2 * depth) ' '
  brackets.1 :: '\n' ::
    ((lines.map fun line => ' ' :: ' ' :: (indent ++ line)).intersperse [',', '\n']).flatten ++
    '\n' :: (indent ++ [brackets.2])

mutual

/-- `JSON.stringify(value, null, 2)` at a depth. -/
def indented (depth : ℕ) : Json → List Char
  | .null => ['n', 'u', 'l', 'l']
  | .bool true => ['t', 'r', 'u', 'e']
  | .bool false => ['f', 'a', 'l', 's', 'e']
  | .num n => numberText n
  | .str s => quote s
  | .arr [] => ['[', ']']
  | .arr (v :: l) => block depth ('[', ']') (indentedElems (depth + 1) (v :: l))
  | .obj [] => ['{', '}']
  | .obj (p :: m) =>
      block depth ('{', '}') ((ownOrder (indentedMembers (depth + 1) (p :: m))).map fun line =>
        quote line.1 ++ ':' :: ' ' :: line.2)

/-- The texts of the elements. -/
def indentedElems (depth : ℕ) : List Json → List (List Char)
  | [] => []
  | v :: l => indented depth v :: indentedElems depth l

/-- The texts of the values of the members. -/
def indentedMembers (depth : ℕ) : List (JsString × Json) → List (JsString × List Char)
  | [] => []
  | (k, v) :: m => (k, indented depth v) :: indentedMembers depth m

end

end Json

end Js
