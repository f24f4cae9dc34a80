import MetaframerKernel.Tools.ClosureSchema

/-!
# What the schema validator leaves out

A schema the validator finds no violation of may still refuse the instance: keywords that stand
beside no type are not looked at, a name that every object inherits passes for a member and for a
declared property, and a length is one in code units. A pattern is compiled without the flag `u`,
so what it matches is one thing for the validator and another for the schema.

## Main definitions

* `Seen`: the walk comes to a schema with a value;
* `Honoured`: what the validator leaves out holds all the same.

## Main results

* `valid_iff_honoured`: where no violation is found, the instance is valid if and only if what is
  left out holds;
* `isSound_iff`: when the validator is sound.
-/

namespace MetaframerKernel.ClosureSemantics

open Js JsonSchema

variable {regExpTest patternTest : JsString → JsString → Option Bool}
  {m : List (JsString × Json)} {pointer : JsString}

/-! ## A node without violations -/

/-- What the checks of a node come to when they find no violation. -/
structure NodePasses (regExpTest : JsString → JsString → Option Bool) (m : List (JsString × Json))
    (inst : Instance) : Prop where
  supported : hasUnsupportedType m = false
  constant : ∀ c, m.lookup (lit "const") = some c → inst.isIdentical (some c) = true
  enumerated : ∀ members, m.lookup (lit "enum") = some members → isEnumMember inst members = true
  object : typeIs m "object" = true → inst.isObject = true ∧
    (∀ names name, m.lookup (lit "required") = some (.arr names) → .str name ∈ names →
      inst.has name = true) ∧
    (m.lookup (lit "additionalProperties") = some (.bool false) →
      ∀ key ∈ inst.keys, isIn key (properties m) = .ok true) ∧
    ∀ p ∈ (properties m).entries, inst.has p.1 = true → ∃ pointer,
      validateAgainstSchema regExpTest p.2 (inst.get p.1) pointer = .ok []
  array : typeIs m "array" = true → ∃ l, inst = .json (.arr l) ∧
    ∀ items v, m.lookup (lit "items") = some items → Json.isTruthy (some items) = true → v ∈ l →
      ∃ pointer, validateAgainstSchema regExpTest items (.json v) pointer = .ok []
  string : typeIs m "string" = true → ∃ s, inst = .json (.str s) ∧
    (∀ n, m.lookup (lit "minLength") = some (.num n) → (JsNumber.ofInt s.length).less n = false) ∧
    ∀ pattern, m.lookup (lit "pattern") = some (.str pattern) → regExpTest pattern s = some true
  boolean : typeIs m "boolean" = true → ∃ b, inst = .json (.bool b)

/-- Parts that are all returned empty. -/
theorem forall_of_flatten_eq_nil {α β : Type} {f : α → Except Raised (List β)} {l : List α}
    {r : List (List β)} (h : l.mapM f = .ok r) (hnil : r.flatten = []) {a : α} (ha : a ∈ l) :
    f a = .ok [] := by
  obtain ⟨b, hb, hf⟩ := exists_of_forall₂_left (mapM_eq_ok.mp h) ha
  rw [hf, List.flatten_eq_nil_iff.mp hnil b hb]

/-- Without a violation every required key is there. -/
theorem requiredViolations_eq_nil {inst : Instance} (h : requiredViolations m inst pointer = .ok [])
    {names : List Json} (hnames : m.lookup (lit "required") = some (.arr names)) {name : JsString}
    (hname : .str name ∈ names) : inst.has name = true := by
  obtain ⟨keys, hkeys, h⟩ := bind_eq_ok.mp h
  rw [requiredKeys, hnames] at hkeys
  obtain rfl := Except.ok.inj hkeys
  obtain ⟨r, hr, h⟩ := bind_eq_ok.mp h
  obtain ⟨key, hkey, h⟩ := bind_eq_ok.mp
    (forall_of_flatten_eq_nil hr (Except.ok.inj h) hname)
  obtain rfl := Except.ok.inj (hkey : raisedText (.ok name) = .ok key)
  by_contra hnot
  rw [if_neg hnot] at h
  cases h

/-- Without a violation a closed object has no other keys than its properties. -/
theorem unknownViolations_eq_nil {inst : Instance} (h : unknownViolations m inst pointer = .ok [])
    (hclosed : m.lookup (lit "additionalProperties") = some (.bool false)) {key : JsString}
    (hkey : key ∈ inst.keys) : isIn key (properties m) = .ok true := by
  rw [unknownViolations, hclosed] at h
  obtain ⟨r, hr, h⟩ := bind_eq_ok.mp h
  obtain ⟨known, hknown, h⟩ := bind_eq_ok.mp
    (forall_of_flatten_eq_nil hr (Except.ok.inj h) hkey)
  cases known with
  | true => exact hknown
  | false => cases h

/-- Without a violation a string is long enough. -/
theorem lengthViolations_eq_nil {s : JsString} (h : lengthViolations m pointer s = [])
    {n : JsNumber} (hn : m.lookup (lit "minLength") = some (.num n)) :
    (JsNumber.ofInt s.length).less n = false := by
  rw [lengthViolations, hn] at h
  by_contra hless
  rw [Bool.not_eq_false] at hless
  dsimp only at h
  rw [if_pos hless] at h
  cases h

/-- Without a violation a string matches the compiled pattern. -/
theorem patternViolations_eq_nil {s : JsString}
    (h : patternViolations m pointer regExpTest s = .ok []) {pattern : JsString}
    (hpattern : m.lookup (lit "pattern") = some (.str pattern)) :
    regExpTest pattern s = some true := by
  rw [patternViolations, hpattern] at h
  dsimp only at h
  split at h
  · cases h
  · assumption
  · cases h

/-- Without a violation the value is the constant. -/
theorem constViolations_eq_nil {inst : Instance} (h : constViolations m inst pointer = [])
    {c : Json} (hc : m.lookup (lit "const") = some c) : inst.isIdentical (some c) = true := by
  rw [constViolations, hc] at h
  by_contra hnot
  dsimp only at h
  rw [if_neg hnot] at h
  cases h

/-- Without a violation the value is one of the enumerated ones. -/
theorem enumViolations_eq_nil {inst : Instance} (h : enumViolations m inst pointer = [])
    {members : Json} (hmembers : m.lookup (lit "enum") = some members) :
    isEnumMember inst members = true := by
  rw [enumViolations, hmembers] at h
  by_contra hnot
  dsimp only at h
  rw [if_neg hnot] at h
  cases h

/-- A type is one of its names. -/
theorem typeIs_iff {type : String} :
    typeIs m type = true ↔ m.lookup (lit "type") = some (.str (lit type)) := by
  unfold typeIs
  split
  · next name hname =>
    rw [beq_iff_eq, hname]
    exact ⟨fun h => h ▸ rfl, fun h => Json.str.inj (Option.some.inj h)⟩
  · next hother => exact iff_of_false Bool.false_ne_true fun h => hother _ h

/-- A schema has one type. -/
theorem typeIs_eq_false {type type' : String} (h : typeIs m type = true)
    (hne : lit type ≠ lit type') : typeIs m type' = false := by
  rw [Bool.eq_false_iff]
  intro h'
  rw [typeIs_iff] at h h'
  exact hne (Json.str.inj (Option.some.inj (h.symm.trans h')))

/-- A node without a violation. -/
theorem nodePasses_of_validate {inst : Instance}
    (h : validateAgainstSchema regExpTest (.obj m) inst pointer = .ok []) :
    NodePasses regExpTest m inst := by
  rw [validateAgainstSchema] at h
  dsimp only at h
  split at h
  · obtain ⟨violations, hviolations, h⟩ := bind_eq_ok.mp h
    obtain ⟨text, -, hviolations⟩ := bind_eq_ok.mp hviolations
    obtain rfl := Except.ok.inj hviolations
    exact absurd (List.append_eq_nil_iff.mp (Except.ok.inj h)).2 (List.cons_ne_nil _ _)
  · next hsupported =>
    -- no findings in all means none of each kind
    obtain ⟨typed, htyped, h⟩ := bind_eq_ok.mp h
    have hnil := Except.ok.inj h
    clear h
    simp only [List.append_eq_nil_iff] at hnil
    obtain ⟨⟨⟨-, hconst⟩, henum⟩, rfl⟩ := hnil
    unfold typedViolations at htyped
    refine ⟨Bool.not_eq_true _ ▸ hsupported, fun c => constViolations_eq_nil hconst,
      fun members => enumViolations_eq_nil henum, fun htype => ?_, fun htype => ?_,
      fun htype => ?_, fun htype => ?_⟩
    · -- then by the type that is asked for, in the order in which the validator asks
      rw [if_pos htype] at htyped
      split at htyped
      · next hobject =>
        obtain ⟨required, hrequired, htyped⟩ := bind_eq_ok.mp htyped
        obtain ⟨unknown, hunknown, htyped⟩ := bind_eq_ok.mp htyped
        obtain ⟨nested, hnested, htyped⟩ := bind_eq_ok.mp htyped
        have hnil := Except.ok.inj htyped
        simp only [List.append_eq_nil_iff] at hnil
        obtain ⟨⟨rfl, rfl⟩, hflatten⟩ := hnil
        refine ⟨hobject, fun names name hnames => requiredViolations_eq_nil hrequired hnames,
          fun hclosed key => unknownViolations_eq_nil hunknown hclosed, fun p hp hhas => ?_⟩
        have hmember := forall_of_flatten_eq_nil hnested hflatten (List.mem_attach _ ⟨p, hp⟩)
        rw [if_pos hhas] at hmember
        exact ⟨_, hmember⟩
      · cases htyped
    · rw [typeIs_eq_false htype (by decide), if_neg Bool.false_ne_true, if_pos htype] at htyped
      split at htyped
      · next l =>
        refine ⟨l, rfl, fun items v hitems htruthy hv => ?_⟩
        obtain ⟨nested, hnested, htyped⟩ := bind_eq_ok.mp htyped
        split at hnested
        · next hnone => cases hnone.symm.trans hitems
        · next items' hitems' =>
          obtain rfl := Option.some.inj (hitems'.symm.trans hitems)
          dsimp only at hnested
          rw [if_pos htruthy] at hnested
          obtain ⟨i, hi⟩ := List.mem_iff_getElem?.mp hv
          have hmem : (v, i) ∈ l.zipIdx := List.mem_zipIdx_iff_getElem?.mpr hi
          exact ⟨_, forall_of_flatten_eq_nil hnested (Except.ok.inj htyped) hmem⟩
      · cases htyped
    · rw [typeIs_eq_false htype (by decide), if_neg Bool.false_ne_true,
        typeIs_eq_false htype (by decide), if_neg Bool.false_ne_true, if_pos htype] at htyped
      split at htyped
      · next s =>
        obtain ⟨violations, hpattern, htyped⟩ := bind_eq_ok.mp htyped
        obtain ⟨hlength, rfl⟩ := List.append_eq_nil_iff.mp (Except.ok.inj htyped)
        exact ⟨s, rfl, fun n => lengthViolations_eq_nil hlength,
          fun pattern => patternViolations_eq_nil hpattern⟩
      · cases htyped
    · rw [typeIs_eq_false htype (by decide), if_neg Bool.false_ne_true,
        typeIs_eq_false htype (by decide), if_neg Bool.false_ne_true,
        typeIs_eq_false htype (by decide), if_neg Bool.false_ne_true, if_pos htype] at htyped
      split at htyped
      · exact ⟨_, rfl⟩
      · cases htyped

/-! ## What is left out -/

/-- The walk comes to a schema with a value: through the declared members of objects and the
elements of arrays, where the type is asked for. -/
inductive Seen (schema v : Json) : Json → Json → Prop
  | root : Seen schema v schema v
  | member {m props o : List (JsString × Json)} {key : JsString} {s w : Json} :
      Seen schema v (.obj m) (.obj o) → typeIs m "object" = true →
      m.lookup (lit "properties") = some (.obj props) → props.lookup key = some s →
      o.lookup key = some w → Seen schema v s w
  | element {m : List (JsString × Json)} {l : List Json} {s w : Json} :
      Seen schema v (.obj m) (.arr l) → typeIs m "array" = true →
      m.lookup (lit "items") = some s → Json.isTruthy (some s) = true → w ∈ l → Seen schema v s w

/-- What the checks of a node leave out holds. -/
structure LeftOut (regExpTest patternTest : JsString → JsString → Option Bool)
    (m : List (JsString × Json)) (w : Json) : Prop where
  /-- A required name that every object inherits is a name of its own. -/
  inherited : typeIs m "object" = true → ∀ names o name,
    m.lookup (lit "required") = some (.arr names) → w = .obj o → .str name ∈ names →
      name ∈ objectPrototypeNames → (o.lookup name).isSome = true
  /-- What is long enough in code units is so in characters. -/
  characters : typeIs m "string" = true → ∀ n s, m.lookup (lit "minLength") = some (.num n) →
    w = .str s → (JsNumber.ofInt s.length).less n = false →
      (JsNumber.ofInt (toScalars s).length).less n = false
  /-- What matches a pattern without the flag `u` does so with it. -/
  flagged : typeIs m "string" = true → ∀ p s, m.lookup (lit "pattern") = some (.str p) →
    w = .str s → regExpTest p s = some true → patternTest p s ≠ some false
  /-- Without a type, no keyword is looked at but `const` and `enum`. -/
  untyped : m.lookup (lit "type") = none →
    Required m w ∧ LongEnough m w ∧ Patterned patternTest m w

/-- What the validator leaves out holds: at the places it comes to what its checks leave out, and
at the others every assertion. -/
structure Honoured (regExpTest patternTest : JsString → JsString → Option Bool) (schema v : Json) :
    Prop where
  seen : ∀ m w, Seen schema v (.obj m) w → LeftOut regExpTest patternTest m w
  unseen : ∀ s w, Applies schema v s w → ¬Seen schema v s w → Met patternTest s w

/-! ## Equality -/

/-- Identical values are equal. -/
theorem sameValue_of_strictEq {v c : Json} (h : Json.strictEq (some v) (some c) = true) :
    Json.sameValue v c = true := by
  cases v with
  | arr l => rw [Json.strictEq_arr] at h; cases h
  | obj m => rw [Json.strictEq_obj] at h; cases h
  | num n =>
    cases c with
    | num k => cases n <;> cases k <;> first | exact h | cases h
    | _ => cases h
  | _ => cases c <;> exact h

/-- A node that passes meets its constant. -/
theorem constant_of_passes {v : Json} (h : NodePasses regExpTest m (.json v)) : Constant m v :=
  fun c hc => sameValue_of_strictEq (h.constant c hc)

/-- A node that passes meets its enumeration. -/
theorem enumerated_of_passes {v : Json} (h : NodePasses regExpTest m (.json v)) :
    Enumerated m v := by
  intro l hl
  obtain ⟨c, hc, hsame⟩ := List.any_eq_true.mp (h.enumerated _ hl)
  exact ⟨c, hc, sameValue_of_strictEq hsame⟩

/-- A type that is looked at is the type of the value. -/
theorem typed_of_typeIs {type : String} {v : Json} (htype : typeIs m type = true)
    (hv : isOfType v (lit type) = true) : Typed m v := by
  intro t ht
  rw [typeIs_iff] at htype
  obtain rfl := Option.some.inj (htype.symm.trans ht)
  refine ⟨fun name hname => ?_, fun names hnames => ?_⟩
  · obtain rfl := Json.str.inj hname
    exact hv
  · cases hnames

/-- A schema whose type is supported has one of four types, or none. -/
theorem type_cases (h : hasUnsupportedType m = false) :
    m.lookup (lit "type") = none ∨ typeIs m "object" = true ∨ typeIs m "array" = true ∨
      typeIs m "string" = true ∨ typeIs m "boolean" = true := by
  simp only [typeIs_iff]
  unfold hasUnsupportedType at h
  split at h
  · exact .inl ‹_›
  · next name hname =>
    have hmem : name ∈ supportedSchemaTypes := by simpa using h
    simp only [supportedSchemaTypes, List.mem_cons, List.not_mem_nil, or_false] at hmem
    rw [hname]
    rcases hmem with rfl | rfl | rfl | rfl
    · exact .inr (.inl rfl)
    · exact .inr (.inr (.inl rfl))
    · exact .inr (.inr (.inr (.inl rfl)))
    · exact .inr (.inr (.inr (.inr rfl)))
  · cases h

/-! ## Soundness, as far as it goes -/

/-- No violation is found of a schema that is no object: there is none. -/
theorem exists_obj_of_validate {s : Json} {inst : Instance}
    (h : validateAgainstSchema regExpTest s inst pointer = .ok []) : ∃ m, s = .obj m := by
  cases s with
  | obj m => exact ⟨m, rfl⟩
  | _ =>
    rw [validateAgainstSchema] at h
    · cases h
    · rintro _ ⟨⟩

/-- A member that is named in `properties` is validated under its schema. -/
theorem exists_validate_member {o props : List (JsString × Json)} {key : JsString} {s w : Json}
    (hpasses : NodePasses regExpTest m (.json (.obj o))) (htype : typeIs m "object" = true)
    (hprops : m.lookup (lit "properties") = some (.obj props))
    (hs : props.lookup key = some s) (hw : o.lookup key = some w) :
    ∃ pointer, validateAgainstSchema regExpTest s (.json w) pointer = .ok [] := by
  have hproperties : properties m = .obj props := by rw [properties, hprops]
  have hentry : (key, s) ∈ (properties m).entries := by
    rw [hproperties]
    exact (ownOrder_perm props).mem_iff.mpr (mem_of_lookup_eq_some hs)
  have hhas : Instance.has key (.json (.obj o)) = true := by
    rw [Instance.has, hw]
    rfl
  obtain ⟨-, -, -, hnested⟩ := hpasses.object htype
  obtain ⟨pointer, hvalidate⟩ := hnested _ hentry hhas
  have hget : Instance.get key (.json (.obj o)) = .json w := by rw [Instance.get, hw]
  rw [hget] at hvalidate
  exact ⟨pointer, hvalidate⟩

/-- What the walk comes to has no violation, when there is none at all. -/
theorem exists_validate_of_seen {schema v s w : Json}
    (h : validateAgainstSchema regExpTest schema (.json v) pointer = .ok [])
    (hseen : Seen schema v s w) :
    ∃ pointer, validateAgainstSchema regExpTest s (.json w) pointer = .ok [] := by
  induction hseen with
  | root => exact ⟨pointer, h⟩
  | member _ htype hprops hs hw ih =>
    obtain ⟨_, hvalidate⟩ := ih
    exact exists_validate_member (nodePasses_of_validate hvalidate) htype hprops hs hw
  | element _ htype hs htruthy hw ih =>
    obtain ⟨_, hvalidate⟩ := ih
    obtain ⟨l, hl, helements⟩ := (nodePasses_of_validate hvalidate).array htype
    obtain rfl := Json.arr.inj (Instance.json.inj hl)
    exact helements _ _ hs htruthy hw

section Nodes

variable {w : Json}

/-- A node without a type meets its schema, if it meets what the check leaves out. -/
theorem met_untyped (hpasses : NodePasses regExpTest m (.json w))
    (htype : m.lookup (lit "type") = none) (hleft : LeftOut regExpTest patternTest m w) :
    Met patternTest (.obj m) w := by
  have htyped : Typed m w := fun t ht => by cases htype.symm.trans ht
  obtain ⟨hrequired, hlong, hpattern⟩ := hleft.untyped htype
  exact met_obj htyped (constant_of_passes hpasses) (enumerated_of_passes hpasses) hrequired hlong
    hpattern

/-- An object meets its schema, if it meets what the check leaves out. -/
theorem met_object (hpasses : NodePasses regExpTest m (.json w)) (htype : typeIs m "object" = true)
    (hleft : LeftOut regExpTest patternTest m w) : Met patternTest (.obj m) w := by
  obtain ⟨hobject, hhas, -⟩ := hpasses.object htype
  obtain ⟨o, rfl⟩ : ∃ o, w = .obj o := by
    cases w with
    | obj o => exact ⟨o, rfl⟩
    | _ => cases hobject
  refine met_obj (typed_of_typeIs htype rfl) (constant_of_passes hpasses)
    (enumerated_of_passes hpasses) ?_ (longEnough_of_ne_str nofun) nofun
  rintro names _ name hnames ⟨⟩ hname
  -- a name that the object has is its own, or one that it inherits
  have hown := hhas names name hnames hname
  rw [Instance.has, Bool.or_eq_true, List.contains_iff_mem] at hown
  exact hown.elim id fun hinherited =>
    hleft.inherited htype names o name hnames rfl hname hinherited

/-- An array meets its schema. -/
theorem met_array (hpasses : NodePasses regExpTest m (.json w)) (htype : typeIs m "array" = true) :
    Met patternTest (.obj m) w := by
  obtain ⟨l, hl, -⟩ := hpasses.array htype
  obtain rfl := Instance.json.inj hl
  exact met_obj (typed_of_typeIs htype rfl) (constant_of_passes hpasses)
    (enumerated_of_passes hpasses) nofun (longEnough_of_ne_str nofun) nofun

/-- A string meets its schema, if it meets what the check leaves out. -/
theorem met_string (hpasses : NodePasses regExpTest m (.json w)) (htype : typeIs m "string" = true)
    (hleft : LeftOut regExpTest patternTest m w) : Met patternTest (.obj m) w := by
  obtain ⟨s, hs, hlength, hpattern⟩ := hpasses.string htype
  obtain rfl := Instance.json.inj hs
  refine met_obj (typed_of_typeIs htype rfl) (constant_of_passes hpasses)
    (enumerated_of_passes hpasses) nofun ?_ ?_
  · rintro n _ hn ⟨⟩
    exact hleft.characters htype n s hn rfl (hlength n hn)
  · rintro p _ hp ⟨⟩
    exact hleft.flagged htype p s hp rfl (hpattern p hp)

/-- A boolean meets its schema. -/
theorem met_boolean (hpasses : NodePasses regExpTest m (.json w))
    (htype : typeIs m "boolean" = true) : Met patternTest (.obj m) w := by
  obtain ⟨b, hb⟩ := hpasses.boolean htype
  obtain rfl := Instance.json.inj hb
  exact met_obj (typed_of_typeIs htype rfl) (constant_of_passes hpasses)
    (enumerated_of_passes hpasses) nofun (longEnough_of_ne_str nofun) nofun

/-- What the checks find and what they leave out make up the assertions of a node. -/
theorem met_of_passes (hpasses : NodePasses regExpTest m (.json w))
    (hleft : LeftOut regExpTest patternTest m w) : Met patternTest (.obj m) w := by
  rcases type_cases hpasses.supported with htype | htype | htype | htype | htype
  · exact met_untyped hpasses htype hleft
  · exact met_object hpasses htype hleft
  · exact met_array hpasses htype
  · exact met_string hpasses htype hleft
  · exact met_boolean hpasses htype

/-- Of a node whose assertions are met, those that are left out are met. -/
theorem leftOut_of_met (h : Met patternTest (.obj m) w) : LeftOut regExpTest patternTest m w where
  inherited _ names o name hnames hw hname _ := h.required m rfl names o name hnames hw hname
  characters _ n s hn hw _ := h.longEnough m rfl n s hn hw
  flagged _ p s hp hw _ := h.patterned m rfl p s hp hw
  untyped _ := ⟨h.required m rfl, h.longEnough m rfl, h.patterned m rfl⟩

end Nodes

/-- The walk comes only to where an assertion applies. -/
theorem Seen.applies {schema v s w : Json} (h : Seen schema v s w) : Applies schema v s w := by
  induction h with
  | root => exact .root
  | member _ _ hprops hs hw ih => exact .member ih hprops hs hw
  | element _ _ hs _ hw ih => exact .element ih hs hw

/-- Where the validator finds no violation, the instance is valid for the schema if and only if what
the validator leaves out holds. -/
theorem valid_iff_honoured {schema v : Json}
    (h : validateAgainstSchema regExpTest schema (.json v) pointer = .ok []) :
    Valid patternTest schema v ↔ Honoured regExpTest patternTest schema v := by
  rw [valid_iff_forall_met]
  constructor
  · intro hmet
    exact ⟨fun m w hseen => leftOut_of_met (hmet _ w hseen.applies),
      fun s w happlies _ => hmet s w happlies⟩
  · intro hhonoured s w happlies
    by_cases hseen : Seen schema v s w
    · obtain ⟨_, hvalidate⟩ := exists_validate_of_seen h hseen
      obtain ⟨m, rfl⟩ := exists_obj_of_validate hvalidate
      exact met_of_passes (nodePasses_of_validate hvalidate) (hhonoured.seen m w hseen)
    · exact hhonoured.unseen s w happlies hseen

/-- The schema validator is sound: what it finds no violation of is valid. -/
def IsSound (regExpTest patternTest : JsString → JsString → Option Bool) (schema v : Json) : Prop :=
  ∀ pointer, validateAgainstSchema regExpTest schema (.json v) pointer = .ok [] →
    Valid patternTest schema v

/-- Where the validator has no violation, it is sound if and only if what it leaves out holds; and
where what it leaves out holds, it is sound whatever it finds. -/
theorem isSound_iff (schema v : Json) :
    (Honoured regExpTest patternTest schema v → IsSound regExpTest patternTest schema v) ∧
    ∀ pointer, validateAgainstSchema regExpTest schema (.json v) pointer = .ok [] →
      (IsSound regExpTest patternTest schema v ↔ Honoured regExpTest patternTest schema v) := by
  refine ⟨fun hhonoured pointer h => (valid_iff_honoured h).mpr hhonoured, fun pointer h => ?_⟩
  exact ⟨fun hsound => (valid_iff_honoured h).mp (hsound pointer h),
    fun hhonoured _ h' => (valid_iff_honoured h').mpr hhonoured⟩

/-- A schema that requires a member `toString`, for examples. -/
def requiresToString : Json :=
  .obj [(lit "type", .str (lit "object")), (lit "required", .arr [.str (lit "toString")])]

/-- The empty object passes for one that has a member `toString`. -/
theorem not_isSound_requiresToString :
    ¬∀ (regExpTest patternTest : JsString → JsString → Option Bool) (schema v : Json),
      IsSound regExpTest patternTest schema v := by
  intro h
  have hvalidate : validateAgainstSchema (fun _ _ => none) requiresToString (.json (.obj [])) [] =
      .ok [] := by
    rw [requiresToString, validateAgainstSchema]
    rfl
  obtain ⟨-, -, -, hrequired, -⟩ :=
    valid_obj_iff.mp (h (fun _ _ => none) (fun _ _ => none) requiresToString (.obj []) [] hvalidate)
  exact absurd (hrequired _ [] (lit "toString") rfl rfl List.mem_cons_self) (by decide)

end MetaframerKernel.ClosureSemantics
