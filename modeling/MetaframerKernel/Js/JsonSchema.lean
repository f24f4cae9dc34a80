import MetaframerKernel.Js.Operators

/-!
# JSON Schema

What the keywords of a schema assert of a JSON value. Every keyword speaks of values of one type
and asserts nothing of any other; a keyword whose own value is malformed asserts nothing. Whether a
text matches a pattern, read with the flag `u`, is a parameter; a text that is no pattern has no
answer.

## Main definitions

* `JsonSchema.Valid`: the value is valid for the schema;
* `JsonSchema.Declared`: the schema names the property;
* `JsonSchema.Applies`: where a schema and the value it is asserted of occur in larger ones;
* `JsonSchema.Met`: the assertions of a schema that speak of the value itself.

## Main results

* `JsonSchema.valid_obj_iff`: the assertions of a schema, keyword by keyword;
* `JsonSchema.valid_iff_forall_met`: a value is valid when every assertion that applies is met.
-/

namespace Js.JsonSchema

/-- A member is smaller than its object. -/
theorem sizeOf_lt_of_lookup {m : List (JsString × Json)} {k : JsString} {v : Json}
    (h : m.lookup k = some v) : sizeOf v < sizeOf (Json.obj m) := by
  have hmem := List.sizeOf_lt_of_mem (mem_of_lookup_eq_some h)
  rw [Prod.mk.sizeOf_spec] at hmem
  rw [Json.obj.sizeOf_spec]
  omega

/-- A number without a fraction. -/
def isInteger : JsNumber → Bool
  | .finite x => 0 ≤ x.exp
  | _ => false

/-- The values of a type. -/
def isOfType : Json → JsString → Bool
  | .null, t => t == lit "null"
  | .bool _, t => t == lit "boolean"
  | .obj _, t => t == lit "object"
  | .arr _, t => t == lit "array"
  | .str _, t => t == lit "string"
  | .num n, t => t == lit "number" || t == lit "integer" && isInteger n

/-- `type` -/
def Typed (m : List (JsString × Json)) (v : Json) : Prop :=
  ∀ t, m.lookup (lit "type") = some t →
    (∀ name, t = .str name → isOfType v name = true) ∧
    (∀ names, t = .arr names → ∃ name, .str name ∈ names ∧ isOfType v name = true)

/-- `const` -/
def Constant (m : List (JsString × Json)) (v : Json) : Prop :=
  ∀ c, m.lookup (lit "const") = some c → Json.sameValue v c = true

/-- `enum` -/
def Enumerated (m : List (JsString × Json)) (v : Json) : Prop :=
  ∀ l, m.lookup (lit "enum") = some (.arr l) → ∃ c ∈ l, Json.sameValue v c = true

/-- `required` -/
def Required (m : List (JsString × Json)) (v : Json) : Prop :=
  ∀ names o name, m.lookup (lit "required") = some (.arr names) → v = .obj o →
    .str name ∈ names → (o.lookup name).isSome = true

/-- `minLength`, in characters. -/
def LongEnough (m : List (JsString × Json)) (v : Json) : Prop :=
  ∀ n s, m.lookup (lit "minLength") = some (.num n) → v = .str s →
    (JsNumber.ofInt (toScalars s).length).less n = false

/-- `pattern` -/
def Patterned (patternTest : JsString → JsString → Option Bool) (m : List (JsString × Json))
    (v : Json) : Prop :=
  ∀ p s, m.lookup (lit "pattern") = some (.str p) → v = .str s → patternTest p s ≠ some false

/-- `properties` names the key. -/
def Declared (m : List (JsString × Json)) (key : JsString) : Prop :=
  ∃ props, m.lookup (lit "properties") = some (.obj props) ∧ (props.lookup key).isSome = true

/-- The value is valid for the schema. -/
inductive Valid (patternTest : JsString → JsString → Option Bool) : Json → Json → Prop
  /-- The schema `true`. -/
  | true (v : Json) : Valid patternTest (.bool Bool.true) v
  /-- What is no schema asserts nothing. -/
  | malformed (s v : Json) : (∀ b, s ≠ .bool b) → (∀ m, s ≠ .obj m) → Valid patternTest s v
  | keywords (m : List (JsString × Json)) (v : Json) : Typed m v → Constant m v →
      Enumerated m v → Required m v → LongEnough m v → Patterned patternTest m v →
      (∀ props o key s w, m.lookup (lit "properties") = some (.obj props) → v = .obj o →
        props.lookup key = some s → o.lookup key = some w → Valid patternTest s w) →
      (∀ s o key w, m.lookup (lit "additionalProperties") = some s → v = .obj o →
        o.lookup key = some w → ¬Declared m key → Valid patternTest s w) →
      (∀ s l w, m.lookup (lit "items") = some s → v = .arr l → w ∈ l → Valid patternTest s w) →
      Valid patternTest (.obj m) v

variable {patternTest : JsString → JsString → Option Bool} {m : List (JsString × Json)} {v : Json}

/-- A length is asserted of strings only. -/
theorem longEnough_of_ne_str (h : ∀ s, v ≠ .str s) : LongEnough m v :=
  fun _ s _ hv => absurd hv (h s)

/-- Nothing is valid for the schema `false`. -/
theorem not_valid_false : ¬Valid patternTest (.bool false) v := by
  rintro (_ | ⟨_, _, hbool, -⟩)
  exact hbool false rfl

/-- The assertions of a schema, keyword by keyword. -/
theorem valid_obj_iff :
    Valid patternTest (.obj m) v ↔
      Typed m v ∧ Constant m v ∧ Enumerated m v ∧ Required m v ∧ LongEnough m v ∧
      Patterned patternTest m v ∧
      (∀ props o key s w, m.lookup (lit "properties") = some (.obj props) → v = .obj o →
        props.lookup key = some s → o.lookup key = some w → Valid patternTest s w) ∧
      (∀ s o key w, m.lookup (lit "additionalProperties") = some s → v = .obj o →
        o.lookup key = some w → ¬Declared m key → Valid patternTest s w) ∧
      (∀ s l w, m.lookup (lit "items") = some s → v = .arr l → w ∈ l →
        Valid patternTest s w) := by
  constructor
  · rintro (_ | ⟨_, _, -, hobj⟩ | ⟨_, _, htyped, hconst, henum, hrequired, hlong, hpattern, hprops,
      hadditional, hitems⟩)
    · exact absurd rfl (hobj m)
    · exact ⟨htyped, hconst, henum, hrequired, hlong, hpattern, hprops, hadditional, hitems⟩
  · rintro ⟨htyped, hconst, henum, hrequired, hlong, hpattern, hprops, hadditional, hitems⟩
    exact .keywords m v htyped hconst henum hrequired hlong hpattern hprops hadditional hitems

/-! ## The assertions that apply -/

/-- Somewhere in a schema and a value, a schema is asserted of a value. -/
inductive Applies (schema v : Json) : Json → Json → Prop
  | root : Applies schema v schema v
  | member {m props o : List (JsString × Json)} {key : JsString} {s w : Json} :
      Applies schema v (.obj m) (.obj o) → m.lookup (lit "properties") = some (.obj props) →
      props.lookup key = some s → o.lookup key = some w → Applies schema v s w
  | additional {m o : List (JsString × Json)} {key : JsString} {s w : Json} :
      Applies schema v (.obj m) (.obj o) → m.lookup (lit "additionalProperties") = some s →
      o.lookup key = some w → ¬Declared m key → Applies schema v s w
  | element {m : List (JsString × Json)} {l : List Json} {s w : Json} :
      Applies schema v (.obj m) (.arr l) → m.lookup (lit "items") = some s → w ∈ l →
      Applies schema v s w

/-- The assertions of a schema that speak of the value itself, not of what is in it. -/
structure Met (patternTest : JsString → JsString → Option Bool) (s w : Json) : Prop where
  notRefused : s ≠ .bool false
  typed : ∀ m, s = .obj m → Typed m w
  constant : ∀ m, s = .obj m → Constant m w
  enumerated : ∀ m, s = .obj m → Enumerated m w
  required : ∀ m, s = .obj m → Required m w
  longEnough : ∀ m, s = .obj m → LongEnough m w
  patterned : ∀ m, s = .obj m → Patterned patternTest m w

/-- The assertions of an object of keywords. -/
theorem met_obj {w : Json} (htyped : Typed m w) (hconst : Constant m w) (henum : Enumerated m w)
    (hrequired : Required m w) (hlong : LongEnough m w) (hpattern : Patterned patternTest m w) :
    Met patternTest (.obj m) w where
  notRefused := nofun
  typed := by rintro _ ⟨⟩; exact htyped
  constant := by rintro _ ⟨⟩; exact hconst
  enumerated := by rintro _ ⟨⟩; exact henum
  required := by rintro _ ⟨⟩; exact hrequired
  longEnough := by rintro _ ⟨⟩; exact hlong
  patterned := by rintro _ ⟨⟩; exact hpattern

/-- A schema asserts of the value itself what it asserts. -/
theorem Valid.met {s w : Json} (h : Valid patternTest s w) : Met patternTest s w where
  notRefused := by
    rintro rfl
    exact not_valid_false h
  typed m hm := (valid_obj_iff.mp (hm ▸ h)).1
  constant m hm := (valid_obj_iff.mp (hm ▸ h)).2.1
  enumerated m hm := (valid_obj_iff.mp (hm ▸ h)).2.2.1
  required m hm := (valid_obj_iff.mp (hm ▸ h)).2.2.2.1
  longEnough m hm := (valid_obj_iff.mp (hm ▸ h)).2.2.2.2.1
  patterned m hm := (valid_obj_iff.mp (hm ▸ h)).2.2.2.2.2.1

/-- What applies to a valid value is valid. -/
theorem Valid.of_applies {schema s w : Json} (h : Valid patternTest schema v)
    (happlies : Applies schema v s w) : Valid patternTest s w := by
  induction happlies with
  | root => exact h
  | member _ hprops hs hw ih =>
    obtain ⟨-, -, -, -, -, -, hmembers, -⟩ := valid_obj_iff.mp ih
    exact hmembers _ _ _ _ _ hprops rfl hs hw
  | additional _ hs hw hundeclared ih =>
    obtain ⟨-, -, -, -, -, -, -, hadditional, -⟩ := valid_obj_iff.mp ih
    exact hadditional _ _ _ _ hs rfl hw hundeclared
  | element _ hs hw ih =>
    obtain ⟨-, -, -, -, -, -, -, -, hitems⟩ := valid_obj_iff.mp ih
    exact hitems _ _ _ hs rfl hw

/-- A value is valid when every assertion that applies is met. -/
theorem valid_iff_forall_met {schema : Json} :
    Valid patternTest schema v ↔ ∀ s w, Applies schema v s w → Met patternTest s w := by
  refine ⟨fun h s w happlies => (h.of_applies happlies).met, fun h => ?_⟩
  -- from below: every schema that applies is one of a smaller size than those it is in
  suffices hall : ∀ n s w, sizeOf s = n → Applies schema v s w → Valid patternTest s w from
    hall _ schema v rfl .root
  intro n
  induction n using Nat.strong_induction_on with
  | _ n ih =>
    intro s w hn happlies
    subst hn
    have hmet := h s w happlies
    cases s with
    | bool b =>
      cases b with
      | true => exact .true w
      | false => exact absurd rfl hmet.notRefused
    | obj m =>
      refine valid_obj_iff.mpr ⟨hmet.typed m rfl, hmet.constant m rfl, hmet.enumerated m rfl,
        hmet.required m rfl, hmet.longEnough m rfl, hmet.patterned m rfl, ?_, ?_, ?_⟩
      · rintro props o key s w hprops rfl hs hw
        exact ih _ ((sizeOf_lt_of_lookup hs).trans (sizeOf_lt_of_lookup hprops)) s w rfl
          (.member happlies hprops hs hw)
      · rintro s o key w hs rfl hw hundeclared
        exact ih _ (sizeOf_lt_of_lookup hs) s w rfl (.additional happlies hs hw hundeclared)
      · rintro s l w hs rfl hw
        exact ih _ (sizeOf_lt_of_lookup hs) s w rfl (.element happlies hs hw)
    | _ => exact .malformed _ _ nofun nofun

end Js.JsonSchema
