import MetaframerKernel.Js.JsonSchema

/-!
# The schema validator

`validateAgainstSchema` walks a schema and an instance, both as `JSON.parse` returns them, and lists
the violations. It asks for members with `in`, which finds those of `Object.prototype` too, so what
it descends into may be one of these.

## Main definitions

* `Instance`: what is validated;
* `validateAgainstSchema`: the walk.
-/

namespace MetaframerKernel.ClosureSemantics

open Js

/-! ## Keywords -/

/-- `KNOWN_SCHEMA_KEYWORDS` -/
def knownSchemaKeywords : List JsString :=
  [lit "$schema", lit "$id", lit "title", lit "description", lit "type", lit "required",
    lit "additionalProperties", lit "properties", lit "items", lit "const", lit "enum",
    lit "pattern", lit "minLength"]

/-- `SUPPORTED_SCHEMA_TYPES` -/
def supportedSchemaTypes : List JsString :=
  [lit "object", lit "array", lit "string", lit "boolean"]

/-- What a call throws. -/
inductive Raised where
  | typeError
  | syntaxError

/-- A text of a value, or what making it throws. -/
def raisedText (text : Except NativeError JsString) : Except Raised JsString :=
  text.mapError fun _ => .typeError

/-! ## Members -/

/-- The members of `Object.prototype`. -/
def objectPrototypeNames : List JsString :=
  [lit "constructor", lit "__defineGetter__", lit "__defineSetter__", lit "hasOwnProperty",
    lit "__lookupGetter__", lit "__lookupSetter__", lit "isPrototypeOf",
    lit "propertyIsEnumerable", lit "toString", lit "valueOf", protoKey, lit "toLocaleString"]

/-- The members of `Array.prototype`, and `length`. -/
def arrayPrototypeNames : List JsString :=
  [lit "length", lit "at", lit "concat", lit "copyWithin", lit "fill", lit "find",
    lit "findIndex", lit "findLast", lit "findLastIndex", lit "lastIndexOf", lit "pop",
    lit "push", lit "reverse", lit "shift", lit "unshift", lit "slice", lit "sort",
    lit "splice", lit "includes", lit "indexOf", lit "join", lit "keys", lit "entries",
    lit "values", lit "forEach", lit "filter", lit "flat", lit "flatMap", lit "map", lit "every",
    lit "some", lit "reduce", lit "reduceRight", lit "toReversed", lit "toSorted",
    lit "toSpliced", lit "with"]

/-- What is validated: a JSON value, or a member of `Object.prototype`. -/
inductive Instance where
  | json (v : Json)
  | function
  | objectPrototype

/-- `key in value` -/
def isIn (key : JsString) : Json → Except Raised Bool
  | .obj m => .ok ((m.lookup key).isSome || objectPrototypeNames.contains key)
  | .arr l =>
      .ok ((arrayIndex? key).any (· < l.length) || arrayPrototypeNames.contains key ||
        objectPrototypeNames.contains key)
  | _ => .error .typeError

namespace Instance

/-- `typeof instance === "object" && instance !== null && !Array.isArray(instance)` -/
def isObject : Instance → Bool
  | json (.obj _) => true
  | objectPrototype => true
  | _ => false

/-- `key in instance`, of an object. -/
def has (key : JsString) : Instance → Bool
  | json (.obj m) => (m.lookup key).isSome || objectPrototypeNames.contains key
  | objectPrototype => objectPrototypeNames.contains key
  | _ => false

/-- `instance[key]`, of an object that has the key. -/
def get (key : JsString) : Instance → Instance
  | json (.obj m) =>
      match m.lookup key with
      | some v => json v
      | none => if key = protoKey then objectPrototype else function
  | _ => if key = protoKey then json .null else function

/-- `Object.keys(instance)` -/
def keys : Instance → List JsString
  | json v => v.entries.map Prod.fst
  | _ => []

/-- `instance === value` -/
def isIdentical (value : Option Json) : Instance → Bool
  | json v => Json.strictEq (some v) value
  | _ => false

/-- What a template makes of `JSON.stringify(instance)`. -/
def text : Instance → JsString
  | json v => Json.stringifyText (some v)
  | function => lit "undefined"
  | objectPrototype => lit "\x7b\x7d"

end Instance

/-! ## The checks of a node -/

section Checks

variable (m : List (JsString × Json)) (inst : Instance) (pointer : JsString)

/-- `describe` -/
def describe : JsString := if pointer = [] then lit "<root>" else pointer

/-- One violation per keyword that is not known. -/
def unsupportedKeywords : List JsString :=
  ((ownOrder m).filter fun p => !knownSchemaKeywords.contains p.1).map fun p =>
    describe pointer ++ lit ": unsupported schema keyword \"" ++ p.1 ++ lit "\""

/-- `"type" in schema && !SUPPORTED_SCHEMA_TYPES.has(schema.type)` -/
def hasUnsupportedType : Bool :=
  match m.lookup (lit "type") with
  | none => false
  | some (.str name) => !supportedSchemaTypes.contains name
  | some _ => true

/-- The violation of a type that is not supported. -/
def typeViolations : Except Raised (List JsString) := do
  let typeText ← raisedText (Json.templateText (m.lookup (lit "type")))
  return [describe pointer ++ lit ": unsupported schema type \"" ++ typeText ++ lit "\""]

/-- The check of `const`. -/
def constViolations : List JsString :=
  match m.lookup (lit "const") with
  | none => []
  | some c =>
      if inst.isIdentical (some c) then []
      else [describe pointer ++ lit ": expected const " ++ Json.stringifyText (some c) ++
        lit ", got " ++ inst.text]

/-- `Array.isArray(schema.enum) && schema.enum.includes(instance)` -/
def isEnumMember (members : Json) : Bool :=
  match members with
  | .arr l => l.any fun c => inst.isIdentical (some c)
  | _ => false

/-- The check of `enum`. -/
def enumViolations : List JsString :=
  match m.lookup (lit "enum") with
  | none => []
  | some members =>
      if isEnumMember inst members then []
      else [describe pointer ++ lit ": expected enum member of " ++
        Json.stringifyText (some members) ++ lit ", got " ++ inst.text]

/-- What `for (const c of s)` runs over: code points, a lone surrogate on its own. -/
def codePoints : JsString → List JsString
  | [] => []
  | [u] => [[u]]
  | u :: v :: s =>
      if u.isHigh && v.isLow then [u, v] :: codePoints s else [u] :: codePoints (v :: s)

/-- What `for (const key of schema.required ?? [])` runs over. -/
def requiredKeys : Except Raised (List Json) :=
  match m.lookup (lit "required") with
  | none | some .null => .ok []
  | some (.arr l) => .ok l
  | some (.str s) => .ok ((codePoints s).map .str)
  | some _ => .error .typeError

/-- The check of `required`. -/
def requiredViolations : Except Raised (List JsString) := do
  let violations ← (← requiredKeys m).mapM fun key => do
    let key ← raisedText key.toText
    return if inst.has key then []
      else [describe pointer ++ lit ": missing required property \"" ++ key ++ lit "\""]
  return violations.flatten

/-- `schema.properties ?? {}` -/
def properties : Json :=
  match m.lookup (lit "properties") with
  | none | some .null => .obj []
  | some v => v

/-- The check of `additionalProperties`. -/
def unknownViolations : Except Raised (List JsString) := do
  if m.lookup (lit "additionalProperties") matches some (.bool false) then
    let violations ← inst.keys.mapM fun key => do
      return if ← isIn key (properties m) then []
        else [describe pointer ++ lit ": unknown property \"" ++ key ++ lit "\""]
    return violations.flatten
  return []

/-- The check of `minLength`. -/
def lengthViolations (s : JsString) : List JsString :=
  match m.lookup (lit "minLength") with
  | some (.num n) =>
      if (JsNumber.ofInt s.length).less n then
        [describe pointer ++ lit ": shorter than minLength " ++ n.toText]
      else []
  | _ => []

/-- The check of `pattern`. -/
def patternViolations (regExpTest : JsString → JsString → Option Bool) (s : JsString) :
    Except Raised (List JsString) :=
  match m.lookup (lit "pattern") with
  | some (.str pattern) =>
      match regExpTest pattern s with
      -- `new RegExp` throws, and no one catches it
      | none => .error .syntaxError
      | some true => .ok []
      | some false =>
          .ok [describe pointer ++ lit ": \"" ++ s ++ lit "\" does not match pattern " ++ pattern]
  | _ => .ok []

/-- `schema.type === "type"` -/
def typeIs (type : String) : Bool :=
  match m.lookup (lit "type") with
  | some (.str name) => name == lit type
  | _ => false

/-- The violation of a type that an instance is not of. -/
def expected (type : String) : List JsString :=
  [describe pointer ++ lit ": expected " ++ lit type ++ lit ", got " ++ inst.text]

/-- The checks under `schema.type`, with the violations of members and of elements. -/
def typedViolations (regExpTest : JsString → JsString → Option Bool)
    (nested : Except Raised (List (List JsString)))
    (items : List Json → Except Raised (List (List JsString))) : Except Raised (List JsString) :=
  if typeIs m "object" then
    if inst.isObject then do
      let required ← requiredViolations m inst pointer
      let unknown ← unknownViolations m inst pointer
      -- the properties are walked only on an instance that is an object
      return required ++ unknown ++ (← nested).flatten
    else return expected inst pointer "object"
  else if typeIs m "array" then
    match inst with
    | .json (.arr l) => do return (← items l).flatten
    | _ => return expected inst pointer "array"
  else if typeIs m "string" then
    match inst with
    | .json (.str s) => do
        return lengthViolations m pointer s ++ (← patternViolations m pointer regExpTest s)
    | _ => return expected inst pointer "string"
  else if typeIs m "boolean" then
    match inst with
    | .json (.bool _) => return []
    | _ => return expected inst pointer "boolean"
  else return []

end Checks

/-! ## The walk -/

/-- A unit of a string is no larger than the string. -/
theorem sizeOf_singleton_le {u : CodeUnit} {s : JsString} (h : u ∈ s) :
    sizeOf [u] ≤ sizeOf s := by
  induction s with
  | nil => cases h
  | cons v s ih =>
    rw [List.cons.sizeOf_spec, List.cons.sizeOf_spec, List.nil.sizeOf_spec]
    rcases List.mem_cons.mp h with rfl | h
    · cases s <;> simp
      omega
    · have hle := ih h
      rw [List.cons.sizeOf_spec, List.nil.sizeOf_spec] at hle
      omega

/-- An entry of a value is no larger than the value. -/
theorem sizeOf_le_of_mem_entries {v : Json} {p : JsString × Json} (h : p ∈ v.entries) :
    sizeOf p.2 ≤ sizeOf v := by
  cases v with
  | obj m =>
    have hmem := List.sizeOf_lt_of_mem ((ownOrder_perm m).mem_iff.mp h)
    rw [Json.obj.sizeOf_spec]
    obtain ⟨k, v⟩ := p
    rw [Prod.mk.sizeOf_spec] at hmem
    dsimp only
    omega
  | arr l =>
    obtain ⟨q, hq, rfl⟩ := List.mem_map.mp h
    have hmem := List.sizeOf_lt_of_mem (List.fst_mem_of_mem_zipIdx hq)
    rw [Json.arr.sizeOf_spec]
    dsimp only
    omega
  | str s =>
    obtain ⟨q, hq, rfl⟩ := List.mem_map.mp h
    have hle := sizeOf_singleton_le (List.fst_mem_of_mem_zipIdx hq)
    rw [Json.str.sizeOf_spec, Json.str.sizeOf_spec]
    omega
  | _ => cases h

/-- The schema of a property is smaller than the schema. -/
theorem sizeOf_lt_of_mem_properties {m : List (JsString × Json)} {p : JsString × Json}
    (h : p ∈ (properties m).entries) : sizeOf p.2 < sizeOf (Json.obj m) := by
  unfold properties at h
  split at h
  · cases h
  · cases h
  · next v _ hv => exact (sizeOf_le_of_mem_entries h).trans_lt (JsonSchema.sizeOf_lt_of_lookup hv)

/-- `validateAgainstSchema` -/
def validateAgainstSchema (regExpTest : JsString → JsString → Option Bool) (schema : Json)
    (inst : Instance) (pointer : JsString) : Except Raised (List JsString) :=
  match schema with
  | .obj m => do
      let unsupported := unsupportedKeywords m pointer
      -- a type the checker does not know ends the walk of the node
      if hasUnsupportedType m then return unsupported ++ (← typeViolations m pointer)
      let violations := unsupported ++ constViolations m inst pointer ++
        enumViolations m inst pointer
      let nested := (properties m).entries.attach.mapM fun p =>
        if inst.has p.1.1 then
          validateAgainstSchema regExpTest p.1.2 (inst.get p.1.1) (pointer ++ lit "/" ++ p.1.1)
        else .ok []
      let items (l : List Json) := match _hitems : m.lookup (lit "items") with
        | none => .ok []
        | some items =>
            -- `schema.items && …`
            if Json.isTruthy (some items) then
              l.zipIdx.mapM fun p => validateAgainstSchema regExpTest items (.json p.1)
                (pointer ++ lit "/" ++ ofText (digitText (decimalDigits p.2)))
            else .ok []
      return violations ++ (← typedViolations m inst pointer regExpTest nested items)
  | _ => .ok [describe pointer ++ lit ": schema node is not an object"]
termination_by sizeOf schema
decreasing_by
  · exact sizeOf_lt_of_mem_properties p.2
  · exact JsonSchema.sizeOf_lt_of_lookup _hitems

end MetaframerKernel.ClosureSemantics
