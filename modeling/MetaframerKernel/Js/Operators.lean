import MetaframerKernel.Domain.Identity
import MetaframerKernel.Js.Coercions

/-!
# Operators on JSON values

What reading a property and the operators of the language make of JSON values, `undefined` being
`none`. Two containers that were parsed are never the same object.

## Main definitions

* `Json.property`: `value.name`, for a name that no prototype carries;
* `Json.entries`: `Object.keys`, with the values;
* `Json.isTruthy`, `Json.strictEq`, `Json.lessEq`, `Json.greater`: the operators.

## Main results

* `Json.exists_templateText_of_strictEq`: what is identical to something has a text.
-/

namespace Js

open MetaframerKernel (trim)

/-! ## Numbers -/

namespace JsNumber

/-- The sign and magnitude of a finite number, times ten to the power `shift`. -/
def scaled (shift : ℕ) (x : Finite) : ℤ :=
  (if x.neg then -1 else 1) * (x.coeff * 10 ^ (x.exp + shift).toNat : ℕ)

/-- `x < y`, which is `false` when either is `NaN`. -/
def less : JsNumber → JsNumber → Bool
  | .nan, _ => false
  | _, .nan => false
  | .infinity neg, .infinity neg' => neg && !neg'
  | .infinity neg, .finite _ => neg
  | .finite _, .infinity neg => !neg
  | .finite x, .finite y =>
      let shift := (max (-x.exp) (-y.exp)).toNat
      scaled shift x < scaled shift y

/-- `x === y` -/
def strictEq : JsNumber → JsNumber → Bool
  | .nan, _ => false
  | _, .nan => false
  | x, y => x.unsignZero == y.unsignZero

/-- `Boolean(x)` -/
def isTruthy : JsNumber → Bool
  | .finite x => x.coeff != 0
  | .infinity _ => true
  | .nan => false

end JsNumber

/-- The digits of an integer literal in base 2, 8 or 16. -/
def readPrefixed (base : ℕ) (cs : List Char) : Option JsNumber := do
  let ds ← cs.mapM fun c => (hexValue c.toLower).filter (· < base)
  if ds = [] then none else some (.ofInt (ds.foldl (fun n d => base * n + d) 0 : ℕ))

/-- A decimal literal, which may open with zeros or with its point. -/
def readDecimal (neg : Bool) (cs : List Char) : Option JsNumber := do
  let (int, cs) := readDigits cs
  let (frac, cs) := match cs with
    | '.' :: cs => readDigits cs
    | cs => ([], cs)
  let (e, cs) ← readExponent cs
  if int ++ frac = [] ∨ cs ≠ [] then none
  else some (.ofDecimal neg (digitsValue (int ++ frac)) (e - frac.length))

/-- The Number of a text without its sign. -/
def readSigned (neg : Bool) (cs : List Char) : Option JsNumber :=
  if cs = "Infinity".toList then some (.infinity neg) else readDecimal neg cs

/-- `Number(text)` -/
def numberOfString (s : JsString) : JsNumber :=
  match toScalars (trim s) with
  | [] => .ofInt 0
  | '0' :: 'x' :: cs | '0' :: 'X' :: cs => (readPrefixed 16 cs).getD .nan
  | '0' :: 'o' :: cs | '0' :: 'O' :: cs => (readPrefixed 8 cs).getD .nan
  | '0' :: 'b' :: cs | '0' :: 'B' :: cs => (readPrefixed 2 cs).getD .nan
  | '-' :: cs => (readSigned true cs).getD .nan
  | '+' :: cs => (readSigned false cs).getD .nan
  | cs => (readSigned false cs).getD .nan

namespace Json

/-! ## Reading -/

/-- `value.name`, for a name that no prototype carries. -/
def property (value : Json) (name : JsString) : Except NativeError (Option Json) :=
  match value with
  | .null => .error (.typeError (lit "Cannot read properties of null"))
  | .obj m => .ok (m.lookup name)
  | _ => .ok none

/-- `value[index]` -/
def index (value : Json) (index : ℕ) : Except NativeError (Option Json) :=
  match value with
  | .arr l => .ok l[index]?
  | .str s => .ok (s[index]?.map fun u => .str [u])
  | v => v.property (ofText (digitText (decimalDigits index)))

/-- `Object.keys(value)`, with the values. -/
def entries : Json → List (JsString × Json)
  | .obj m => ownOrder m
  | .arr l => (l.zipIdx).map fun p => (ofText (digitText (decimalDigits p.2)), p.1)
  | .str s => (s.zipIdx).map fun p => (ofText (digitText (decimalDigits p.2)), .str [p.1])
  | _ => []

/-- `Boolean(value)` -/
def isTruthy : Option Json → Bool
  | none => false
  | some .null => false
  | some (.bool b) => b
  | some (.num n) => n.isTruthy
  | some (.str s) => !s.isEmpty
  | some _ => true

/-- `x === y` -/
def strictEq : Option Json → Option Json → Bool
  | none, none => true
  | some .null, some .null => true
  | some (.bool b), some (.bool c) => b == c
  | some (.num n), some (.num k) => n.strictEq k
  | some (.str s), some (.str t) => s == t
  | _, _ => false

/-- `Array.isArray` -/
def isArray : Option Json → Bool
  | some (.arr _) => true
  | _ => false

/-- `typeof value === "string"` -/
def isString : Option Json → Bool
  | some (.str _) => true
  | _ => false

/-- `typeof value === "boolean"` -/
def isBoolean : Option Json → Bool
  | some (.bool _) => true
  | _ => false

/-- A container is identical to nothing. -/
theorem strictEq_arr (l : List Json) (y : Option Json) : strictEq (some (.arr l)) y = false := by
  cases y with
  | none => rfl
  | some v => cases v <;> rfl

theorem strictEq_obj (m : List (JsString × Json)) (y : Option Json) :
    strictEq (some (.obj m)) y = false := by
  cases y with
  | none => rfl
  | some v => cases v <;> rfl

/-- `x === true` -/
theorem strictEq_true {x : Option Json} :
    strictEq x (some (.bool true)) = true ↔ x = some (.bool true) := by
  cases x with
  | none => simp [strictEq]
  | some v => cases v <;> simp [strictEq]

/-! ## Texts -/

/-- What a template makes of a value. -/
def templateText : Option Json → Except NativeError JsString
  | none => .ok (lit "undefined")
  | some v => v.toText

/-- What a template makes of `JSON.stringify(value)`. -/
def stringifyText : Option Json → JsString
  | none => lit "undefined"
  | some v => ofText v.stringify

/-- `values.join(", ")`, in which `undefined` and `null` are empty. -/
def joinTexts (values : List (Option Json)) : Except NativeError JsString := do
  let texts ← values.mapM fun
    | none => .ok []
    | some .null => .ok []
    | some v => v.toText
  return (texts.intersperse (lit ", ")).flatten

/-- What is identical to something is a primitive value, which has a text. -/
theorem exists_templateText_of_strictEq {x y : Option Json} (h : strictEq x y = true) :
    ∃ text, templateText x = .ok text := by
  cases x with
  | none => exact ⟨_, rfl⟩
  | some v =>
    cases v with
    | null | bool | num | str =>
      rw [templateText, toText]
      exact ⟨_, rfl⟩
    | arr l =>
      rw [strictEq_arr] at h
      cases h
    | obj m =>
      rw [strictEq_obj] at h
      cases h

/-! ## Comparison -/

/-- A value that is compared: a string, or else a Number. -/
inductive Primitive where
  | string (s : JsString)
  | number (n : JsNumber)

/-- The primitive value of an operand. -/
def primitive : Option Json → Except NativeError Primitive
  | none => .ok (.number .nan)
  | some .null => .ok (.number (.ofInt 0))
  | some (.bool b) => .ok (.number (.ofInt (if b then 1 else 0)))
  | some (.num n) => .ok (.number n)
  | some v => v.toText.map .string

/-- The Number of a primitive value. -/
def Primitive.toNumber : Primitive → JsNumber
  | .string s => numberOfString s
  | .number n => n

/-- `x < y`, or nothing when an operand is `NaN`. -/
def Primitive.less? (x y : Primitive) : Option Bool :=
  match x, y with
  | .string s, .string t => some (s < t)
  | x, y =>
      if x.toNumber = .nan ∨ y.toNumber = .nan then none else some (x.toNumber.less y.toNumber)

/-- `x <= y` -/
def lessEq (x y : Option Json) : Except NativeError Bool := do
  let x ← primitive x
  let y ← primitive y
  return y.less? x == some false

/-- `x > y` -/
def greater (x y : Option Json) : Except NativeError Bool := do
  let x ← primitive x
  let y ← primitive y
  return y.less? x == some true

end Json

end Js
