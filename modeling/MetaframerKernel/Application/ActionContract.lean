import MetaframerKernel.Application.ActionPrimitives

/-!
# Action contracts

The shape of an action: its kind, its coordinate, and the lists of identifiers it carries, answers
with and reports errors in. The lists keep the order they are declared in.

## Main definitions

* `ActionContract`, `ActionContract.ofRaw`, `ActionContract.construct`, `ActionContract.toJson`.

## Main results

* `ActionContract.ofRaw_raw`: the constructor takes the declaration of every contract;
* `ActionContract.construct_toJson`: and what every contract shows as JSON.
-/

namespace MetaframerKernel

open Js

/-- `KIND_VALUES` -/
inductive ActionKind where
  | command
  | query
deriving DecidableEq

/-- The string of a kind. -/
def ActionKind.name : ActionKind → JsString
  | command => lit "command"
  | query => lit "query"

namespace ActionContract

/-! ## Identifiers -/

/-- `[A-Za-z]` -/
def letterClass (u : CodeUnit) : Bool := u.inRange 'A' 'Z' || u.inRange 'a' 'z'

/-- `[A-Za-z0-9_]` -/
def wordClass (u : CodeUnit) : Bool := letterClass u || digitClass u || u.isChar '_'

/-- `IDENTIFIER.test(value)`: `/^[A-Za-z][A-Za-z0-9_]*$/`. -/
def isIdentifierForm (s : JsString) : Bool := s.head?.any letterClass && s.all wordClass

/-- `REFUSED_IDENTIFIERS` -/
def refusedIdentifiers : List JsString := [lit "__proto__", lit "constructor", lit "prototype"]

/-- A string that `identifier` admits. -/
def IsIdentifier (s : JsString) : Prop :=
  (s.length ≠ 0 ∧ s.length ≤ 64) ∧ isIdentifierForm s = true ∧ s ∉ refusedIdentifiers

instance (s : JsString) : Decidable (IsIdentifier s) := inferInstanceAs (Decidable (_ ∧ _))

/-- `identifier` -/
def identifier (what : JsString) (value : JsValue) : Except NativeError JsString :=
  match value with
  | .string s => do
      throwIf (s.length = 0 ∨ 64 < s.length)
        (.rangeError (what ++ lit " needs an identifier of 1 to 64 characters"))
      throwIf (isIdentifierForm s = false) (refusal what
        " needs a safe identifier: letters, digits and underscore, starting with a letter")
      throwIf (s ∈ refusedIdentifiers) (.typeError (what ++ lit " refuses the identifier " ++ s ++
        lit ": it is a key a consumer's prototype chain would honor"))
      return s
  | _ => .error (refusal what " admits only primitive string identifiers")

/-- An identifier is admitted as a string of its form. -/
theorem identifier_eq_ok {what : JsString} {value : JsValue} {s : JsString} :
    identifier what value = .ok s ↔ value = .string s ∧ IsIdentifier s := by
  unfold identifier
  split
  · next t =>
    simp only [bind_eq_ok, throwIf_eq_ok, exists_const, not_or, not_lt, Bool.not_eq_false,
      JsValue.string.injEq, IsIdentifier]
    constructor
    · rintro ⟨hlength, hform, hrefused, hs⟩
      obtain rfl := Except.ok.inj hs
      exact ⟨rfl, hlength, hform, hrefused⟩
    · rintro ⟨rfl, hlength, hform, hrefused⟩
      exact ⟨hlength, hform, hrefused, rfl⟩
  · next hother => exact iff_of_false nofun fun h => hother s h.1

/-- The loop over the entries that refuses one it has seen. -/
def refuseDuplicates (what : JsString) (seen : List JsString) :
    List JsString → Except NativeError Unit
  | [] => .ok ()
  | entry :: entries =>
      if entry ∈ seen then
        .error (.typeError (what ++ lit " admits no duplicate entry: " ++ entry))
      else refuseDuplicates what (entry :: seen) entries

/-- Entries pass when no two are equal and none was seen before. -/
theorem refuseDuplicates_eq_ok {what : JsString} {seen entries : List JsString} {u : Unit} :
    refuseDuplicates what seen entries = .ok u ↔
      entries.Nodup ∧ ∀ entry ∈ entries, entry ∉ seen := by
  induction entries generalizing seen with
  | nil => simp [refuseDuplicates]
  | cons entry entries ih =>
    rw [refuseDuplicates]
    -- an entry joins what has been seen before the rest is looked at
    by_cases hseen : entry ∈ seen
    · rw [if_pos hseen]
      exact iff_of_false nofun fun h => h.2 entry List.mem_cons_self hseen
    · rw [if_neg hseen, ih, List.nodup_cons, List.forall_mem_cons]
      constructor
      · rintro ⟨hnodup, hfresh⟩
        refine ⟨⟨fun hmem => ?_, hnodup⟩, hseen, fun e he hmem => ?_⟩
        · exact hfresh entry hmem List.mem_cons_self
        · exact hfresh e he (List.mem_cons_of_mem _ hmem)
      · rintro ⟨⟨hmem, hnodup⟩, -, hfresh⟩
        refine ⟨hnodup, fun e he hin => ?_⟩
        rcases List.mem_cons.mp hin with rfl | hin
        · exact hmem he
        · exact hfresh e he hin

end ActionContract

/-- An ordered list of distinct identifiers. -/
structure IdentifierList where
  names : List JsString
  identifiers : ∀ s ∈ names, ActionContract.IsIdentifier s
  nodup : names.Nodup

/-- A genuine action contract. -/
structure ActionContract where
  kind : ActionKind
  name : JsString
  version : ℤ
  fields : IdentifierList
  outcomes : IdentifierList
  errorEnvelopeFields : IdentifierList
  nameOk : isActionName name = true
  versionOk : IsActionVersion version

namespace ActionContract

/-! ## The constructor -/

/-- `kind` -/
def kindOf (what : JsString) (value : JsValue) : Except NativeError ActionKind :=
  match value with
  | .string s =>
      if s = ActionKind.command.name then .ok .command
      else if s = ActionKind.query.name then .ok .query
      else .error (refusal what " kind must be exactly \"command\" or \"query\"")
  | _ => .error (refusal what " kind must be exactly \"command\" or \"query\"")

/-- `actionName` -/
def contractName (what : JsString) (value : JsValue) :
    Except NativeError {s : JsString // isActionName s = true} :=
  match value with
  | .string s => actionName what (.string s)
  | _ => .error (refusal what " needs a primitive string name")

/-- The entries of an array that `identifierList` admits. -/
def entries (what : JsString) (value : JsValue) : Except NativeError (List JsString) :=
  match value with
  | .array .arrayPrototype elems extra => do
      checkElements what elems
      throwIf (extra ≠ 0) (refusal what " admits no property on an array beside its elements")
      elems.mapM fun e => identifier what e.2
  | _ => .error (refusal what " must be an ordinary array")

/-- All the admitted entries are identifiers. -/
theorem identifiers_of_entries {what : JsString} {value : JsValue} {names : List JsString}
    (h : entries what value = .ok names) : ∀ s ∈ names, IsIdentifier s := by
  unfold entries at h
  split at h
  · simp only [bind_eq_ok] at h
    obtain ⟨_, -, _, -, h⟩ := h
    intro s hs
    obtain ⟨e, -, hidentifier⟩ := exists_of_forall₂_left (mapM_eq_ok.mp h).flip hs
    exact (identifier_eq_ok.mp hidentifier).2
  · cases h

/-- `identifierList` -/
def identifierList (what : JsString) (value : JsValue) : Except NativeError IdentifierList :=
  match hnames : entries what value with
  | .error e => .error e
  | .ok names =>
      match hdistinct : refuseDuplicates what [] names with
      | .error e => .error e
      | .ok _ =>
          .ok ⟨names, identifiers_of_entries hnames, (refuseDuplicates_eq_ok.mp hdistinct).1⟩

/-- `new ActionContract(options)`. -/
def ofRaw (kind name version fields outcomes errorEnvelopeFields : JsValue) :
    Except NativeError ActionContract := do
  let kind ← kindOf (lit "ActionContract") kind
  let name ← contractName (lit "ActionContract") name
  let version ← actionVersion (lit "ActionContract") version
  let fields ← identifierList (lit "ActionContract fields") fields
  let outcomes ← identifierList (lit "ActionContract outcomes") outcomes
  let errorEnvelopeFields ←
    identifierList (lit "ActionContract errorEnvelopeFields") errorEnvelopeFields
  return ⟨kind, name.1, version.1, fields, outcomes, errorEnvelopeFields,
    isActionName_coe name, isActionVersion_coe version⟩

/-- One turn of the loop of `exactOptions` over the keys. -/
def checkOption (what : JsString) (p : (PropertyKey × Descriptor) × JsValue) :
    Except NativeError Unit := do
  throwIf (p.1.1 = .symbol) (refusal what " admits no symbol-keyed option")
  throwIf (p.1.2.accessor = true) (refusal what " admits no accessor option")
  throwIf (p.1.2.enumerable = false) (refusal what " admits no non-enumerable option")

/-- `exactOptions`, with the options. -/
def exactOptions (what : JsString) (expected : List JsString) (options : JsValue) :
    Except NativeError (List ((PropertyKey × Descriptor) × JsValue)) :=
  match options with
  | .object .objectPrototype props => do
      props.forM (checkOption what)
      -- with as many keys as are expected, having each of them is having no other
      let keys := props.map fun p => p.1.1
      throwIf (¬(∀ key ∈ expected, .string key ∈ keys) ∨ keys.length ≠ expected.length)
        (.typeError (what ++ lit " takes exactly these options: " ++
          (lit ", ").intercalate expected))
      return props
  | .object .. => .error (refusal what
      " needs an ordinary object literal, not a custom or null-prototype object")
  | _ => .error (refusal what " needs an ordinary options object")

/-- `OPTIONS` -/
def optionKeys : List JsString :=
  [lit "kind", lit "name", lit "version", lit "fields", lit "outcomes", lit "errorEnvelopeFields"]

/-- `new ActionContract(options)`, on any value. -/
def construct (options : JsValue) : Except NativeError ActionContract := do
  let props ← exactOptions (lit "ActionContract") optionKeys options
  ofRaw (JsValue.get props (lit "kind")) (JsValue.get props (lit "name"))
    (JsValue.get props (lit "version")) (JsValue.get props (lit "fields"))
    (JsValue.get props (lit "outcomes")) (JsValue.get props (lit "errorEnvelopeFields"))

/-- `toJSON` -/
def toJson (c : ActionContract) : Json :=
  .obj [(lit "kind", .str c.kind.name), (lit "name", .str c.name),
    (lit "version", .num (.ofInt c.version)), (lit "fields", .arr (c.fields.names.map .str)),
    (lit "outcomes", .arr (c.outcomes.names.map .str)),
    (lit "errorEnvelopeFields", .arr (c.errorEnvelopeFields.names.map .str))]

/-! ## Every contract is constructed -/

/-- The array literal of a list of strings. -/
def arrayLiteral (names : List JsString) : JsValue :=
  .array .arrayPrototype (names.map fun s => (some .data, .string s)) 0

/-- An array of identifiers is admitted. -/
theorem entries_arrayLiteral {what : JsString} {names : List JsString}
    (h : ∀ s ∈ names, IsIdentifier s) : entries what (arrayLiteral names) = .ok names := by
  have hcheck : checkElements what (names.map fun s => (some .data, .string s)) = .ok () := by
    induction names with
    | nil => rfl
    | cons s names ih => exact ih fun t ht => h t (List.mem_cons_of_mem _ ht)
  have hmap : ((names.map fun s => (some Descriptor.data, JsValue.string s)).mapM fun e =>
      identifier what e.2) = .ok names := by
    rw [mapM_eq_ok, List.forall₂_map_left_iff, List.forall₂_same]
    exact fun s hs => identifier_eq_ok.mpr ⟨rfl, h s hs⟩
  simp only [entries, arrayLiteral, bind_eq_ok, throwIf_eq_ok]
  exact ⟨(), hcheck, (), not_not.mpr rfl, hmap⟩

/-- An array of the names of a list is admitted as the list. -/
theorem identifierList_arrayLiteral (what : JsString) (l : IdentifierList) :
    identifierList what (arrayLiteral l.names) = .ok l := by
  have hentries : entries what (arrayLiteral l.names) = .ok l.names :=
    entries_arrayLiteral l.identifiers
  have hdistinct : refuseDuplicates what [] l.names = .ok () :=
    refuseDuplicates_eq_ok.mpr ⟨l.nodup, by simp⟩
  unfold identifierList
  split
  · next e he => exact nomatch he.symm.trans hentries
  · next names hnames =>
    obtain rfl := Except.ok.inj (hentries.symm.trans hnames)
    split
    · next e he => exact nomatch he.symm.trans hdistinct
    · rfl

/-- The constructor takes the declaration of every contract. -/
theorem ofRaw_raw (c : ActionContract) :
    ofRaw (.string c.kind.name) (.string c.name) (.number (.ofInt c.version))
      (arrayLiteral c.fields.names) (arrayLiteral c.outcomes.names)
      (arrayLiteral c.errorEnvelopeFields.names) = .ok c := by
  have hkind : kindOf (lit "ActionContract") (.string c.kind.name) = .ok c.kind := by
    cases c.kind <;> decide
  have hname : contractName (lit "ActionContract") (.string c.name) = .ok ⟨c.name, c.nameOk⟩ :=
    actionName_string c.nameOk
  have hversion : actionVersion (lit "ActionContract") (.number (.ofInt c.version)) =
      .ok ⟨c.version, c.versionOk⟩ :=
    actionVersion_number c.versionOk (safeInteger?_of_isActionVersion c.versionOk)
  rw [ofRaw, hkind, hname, hversion, identifierList_arrayLiteral, identifierList_arrayLiteral,
    identifierList_arrayLiteral]
  rfl

/-- A JSON array of strings is an array literal. -/
theorem ofJson_strings (names : List JsString) :
    JsValue.ofJson (.arr (names.map .str)) = arrayLiteral names := by
  rw [JsValue.ofJson, JsValue.ofElems_eq, List.map_map]
  rfl

/-- A contract is constructed again from what it shows as JSON. -/
theorem construct_toJson (c : ActionContract) : construct (.ofJson c.toJson) = .ok c := by
  have hobject : JsValue.ofJson c.toJson = .object .objectPrototype
      [((.string (lit "kind"), .data), .string c.kind.name),
        ((.string (lit "name"), .data), .string c.name),
        ((.string (lit "version"), .data), .number (.ofInt c.version)),
        ((.string (lit "fields"), .data), arrayLiteral c.fields.names),
        ((.string (lit "outcomes"), .data), arrayLiteral c.outcomes.names),
        ((.string (lit "errorEnvelopeFields"), .data),
          arrayLiteral c.errorEnvelopeFields.names)] := by
    rw [toJson, JsValue.ofJson]
    simp only [JsValue.ofMembers_eq, List.map_cons, List.map_nil, ofJson_strings]
    rfl
  have hkeys : ¬(¬(∀ key ∈ optionKeys, PropertyKey.string key ∈
      optionKeys.map PropertyKey.string) ∨ optionKeys.length ≠ optionKeys.length) := by
    decide
  rw [construct, hobject]
  exact ofRaw_raw c

/-- What is constructed into a contract is an ordinary object. -/
theorem exists_object_of_construct {options : JsValue} {c : ActionContract}
    (h : construct options = .ok c) : ∃ props, options = .object .objectPrototype props := by
  obtain ⟨props, hprops, -⟩ := bind_eq_ok.mp h
  unfold exactOptions at hprops
  split at hprops
  · next props => exact ⟨props, rfl⟩
  · cases hprops
  · cases hprops

end ActionContract

end MetaframerKernel
