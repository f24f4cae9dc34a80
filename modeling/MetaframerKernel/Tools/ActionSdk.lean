import MetaframerKernel.Application.ActionContract

/-!
# The action SDK

The module rendered from an action contract: constants, printed as JSON, and three functions over
them. A module text is evaluated by reading its constants back.

## Main definitions

* `renderActionSdk`: the text of the module of a contract;
* `evaluateModule`: the module of a text;
* `Module.buildActionSpec`, `Module.isOutcome`, `Module.isErrorEnvelope`: its functions.

## Main results

* `evaluateModule_renderActionSdk`: a rendered module evaluates to the constants of its contract;
* `Module.buildActionSpec_fromEntries`: distinct fields, given values, build a specification.
-/

namespace MetaframerKernel.ActionSdk

open Js

/-! ## Texts -/

/-- What stands around the literal of an exported constant. -/
structure ConstantForm where
  before : String
  after : String

/-- `export const NAME = …;` -/
def ConstantForm.plain (name : String) : ConstantForm := ⟨"export const " ++ name ++ " = ", ";\n"⟩

/-- `export const NAME = Object.freeze(…);` -/
def ConstantForm.frozen (name : String) : ConstantForm :=
  ⟨"export const " ++ name ++ " = Object.freeze(", ");\n"⟩

/-- The constants of a module, in the order they are declared in. -/
def constantForms : List ConstantForm :=
  [.plain "ACTION_KIND", .plain "ACTION_NAME", .plain "ACTION_VERSION", .frozen "ACTION_FIELDS",
    .frozen "OUTCOMES", .frozen "ERROR_ENVELOPE_FIELDS"]

/-- The declaration of a constant. -/
def ConstantForm.declare (form : ConstantForm) (v : Json) : List Char :=
  form.before.toList ++ (v.stringify ++ form.after.toList)

/-- The functions of every module. -/
def functionsText : List Char :=
  ("\nconst isOrdinaryObject = (value) =>\n" ++
  "  value !== null && typeof value === \"object\" && " ++
  "Object.getPrototypeOf(value) === Object.prototype;\n\n" ++
  "export function buildActionSpec(spec) \x7b\n" ++
  "  if (!isOrdinaryObject(spec)) \x7b\n" ++
  "    throw new TypeError(\"buildActionSpec needs an ordinary object\");\n" ++
  "  \x7d\n" ++
  "  const keys = Reflect.ownKeys(spec);\n" ++
  "  if (keys.length !== ACTION_FIELDS.length || " ++
  "!ACTION_FIELDS.every((field) => keys.includes(field))) \x7b\n" ++
  "    throw new TypeError(\"buildActionSpec needs exactly the declared fields\");\n" ++
  "  \x7d\n" ++
  "  const out = \x7b\x7d;\n" ++
  "  for (const field of ACTION_FIELDS) out[field] = spec[field];\n" ++
  "  return Object.freeze(out);\n" ++
  "\x7d\n\n" ++
  "export function isOutcome(value) \x7b\n" ++
  "  return typeof value === \"string\" && OUTCOMES.includes(value);\n" ++
  "\x7d\n\n" ++
  "export function isErrorEnvelope(value) \x7b\n" ++
  "  if (!isOrdinaryObject(value)) return false;\n" ++
  "  const keys = Reflect.ownKeys(value);\n" ++
  "  return keys.length === ERROR_ENVELOPE_FIELDS.length && " ++
  "ERROR_ENVELOPE_FIELDS.every((field) => keys.includes(field));\n" ++
  "\x7d\n\n" ++
  "Object.freeze(buildActionSpec);\n" ++
  "Object.freeze(isOutcome);\n" ++
  "Object.freeze(isErrorEnvelope);\n").toList

/-- A line terminator of the language. -/
def isLineTerminator (c : Char) : Bool :=
  [0x0A, 0x0D, 0x2028, 0x2029].contains c.toNat

/-- The lines of the notice that opens every module. -/
structure Notice where
  lines : List (List Char)
  oneLine : ∀ line ∈ lines, ∀ c ∈ line, isLineTerminator c = false

/-- One line of the notice, as a comment. -/
def commentLine (line : List Char) : List Char :=
  (if line = [] then "//".toList else "// ".toList ++ line) ++ ['\n']

/-- `LICENSE_NOTICE` -/
def Notice.text (notice : Notice) : List Char := notice.lines.flatMap commentLine

/-- An array of strings. -/
def strings (names : List JsString) : Json := .arr (names.map .str)

/-- The values of the constants. -/
def constantsOf (contract : ActionContract) : List Json :=
  [.str contract.kind.name, .str contract.name, .num (.ofInt contract.version),
    strings contract.fields.names, strings contract.outcomes.names,
    strings contract.errorEnvelopeFields.names]

/-- The declarations of constants, each in its form. -/
def declareAll (forms : List ConstantForm) (values : List Json) : List Char :=
  (forms.zip values).flatMap fun p => p.1.declare p.2

/-- `renderActionSdk` -/
def renderActionSdk (notice : Notice) (contract : ActionContract) : List Char :=
  notice.text ++ '\n' :: (declareAll constantForms (constantsOf contract) ++ functionsText)

/-! ## Modules -/

/-- The constants a module exports. -/
structure Module where
  actionKind : JsString
  actionName : JsString
  actionVersion : JsNumber
  actionFields : List JsString
  outcomes : List JsString
  errorEnvelopeFields : List JsString

namespace Module

variable (mod : Module)

/-- The keys are as many as the names and contain each of them. -/
def hasExactly (keys : List PropertyKey) (names : List JsString) : Bool :=
  keys.length == names.length && names.all fun name => keys.contains (.string name)

/-- `buildActionSpec`: the own properties of the frozen object. -/
def buildActionSpec (spec : JsValue) : Except NativeError (List (JsString × JsValue)) :=
  match spec with
  | .object .objectPrototype props =>
      if hasExactly (props.map fun p => p.1.1) mod.actionFields then
        .ok (assignMembers (mod.actionFields.map fun field => (field, JsValue.get props field)))
      else .error (.typeError (lit "buildActionSpec needs exactly the declared fields"))
  | _ => .error (.typeError (lit "buildActionSpec needs an ordinary object"))

/-- `isOutcome` -/
def isOutcome (value : JsValue) : Bool :=
  match value with
  | .string s => mod.outcomes.contains s
  | _ => false

/-- `isErrorEnvelope` -/
def isErrorEnvelope (value : JsValue) : Bool :=
  match value with
  | .object .objectPrototype props =>
      hasExactly (props.map fun p => p.1.1) mod.errorEnvelopeFields
  | _ => false

end Module

/-- The module of a contract. -/
def moduleOf (contract : ActionContract) : Module where
  actionKind := contract.kind.name
  actionName := contract.name
  actionVersion := .ofInt contract.version
  actionFields := contract.fields.names
  outcomes := contract.outcomes.names
  errorEnvelopeFields := contract.errorEnvelopeFields.names

/-! ## Evaluation -/

/-- The text after its comments and blank lines, from within a comment or from outside. -/
def skipComments : Bool → List Char → List Char
  | _, [] => []
  | true, c :: cs => skipComments (!isLineTerminator c) cs
  | false, c :: cs =>
      if isLineTerminator c then skipComments false cs
      else if c = '/' ∧ cs.head? = some '/' then skipComments true cs
      else c :: cs

/-- The literal of a constant and the text after its declaration. -/
def ConstantForm.read (form : ConstantForm) (cs : List Char) : Option (Json × List Char) := do
  let cs ← readWord form.before.toList cs
  let (v, cs) ← parseValue (cs.length + 1) cs
  let cs ← readWord form.after.toList cs
  return (v, cs)

/-- The literals of constants, one after the other, and the text after them. -/
def readAll : List ConstantForm → List Char → Option (List Json × List Char)
  | [], cs => some ([], cs)
  | form :: forms, cs =>
      (form.read cs).bind fun p => (readAll forms p.2).map fun q => (p.1 :: q.1, q.2)

/-- The string a literal spells. -/
def string? : Json → Option JsString
  | .str s => some s
  | _ => none

/-- The strings an array literal spells. -/
def strings? : Json → Option (List JsString)
  | .arr l => l.mapM string?
  | _ => none

/-- The module of the values of its constants. -/
def moduleOfConstants : List Json → Option Module
  | [.str kind, .str name, .num version, fields, outcomes, errorFields] => do
      return ⟨kind, name, version, ← strings? fields, ← strings? outcomes, ← strings? errorFields⟩
  | _ => none

/-- The module a text evaluates to. Only modules of the rendered form are read. -/
def evaluateModule (cs : List Char) : Option Module :=
  (readAll constantForms (skipComments false cs)).bind fun p =>
    if p.2 = functionsText then moduleOfConstants p.1 else none

/-! ## A rendered module evaluates -/

/-- A comment is skipped to the end of its line. -/
theorem skipComments_line {line : List Char} (h : ∀ c ∈ line, isLineTerminator c = false)
    (cs : List Char) : skipComments true (line ++ '\n' :: cs) = skipComments false cs := by
  induction line with
  | nil => rfl
  | cons c line ih =>
    obtain ⟨hc, hline⟩ := List.forall_mem_cons.mp h
    rw [List.cons_append, skipComments, hc]
    exact ih hline

/-- A comment line is skipped. -/
theorem skipComments_commentLine {line : List Char}
    (h : ∀ c ∈ line, isLineTerminator c = false) (cs : List Char) :
    skipComments false (commentLine line ++ cs) = skipComments false cs := by
  unfold commentLine
  split
  · rfl
  · rw [List.append_assoc, List.append_assoc]
    have hline : ∀ c ∈ "/ ".toList ++ line, isLineTerminator c = false := by
      simpa using ⟨by decide, by decide, h⟩
    exact skipComments_line hline cs

/-- The notice is skipped. -/
theorem skipComments_notice (notice : Notice) (cs : List Char) :
    skipComments false (notice.text ++ cs) = skipComments false cs := by
  obtain ⟨lines, honeLine⟩ := notice
  unfold Notice.text
  induction lines with
  | nil => rfl
  | cons line lines ih =>
    obtain ⟨hline, hlines⟩ := List.forall_mem_cons.mp honeLine
    rw [List.flatMap_cons, List.append_assoc, skipComments_commentLine hline]
    exact ih hlines

/-- What follows the literal ends a number. -/
def ConstantForm.Ends (form : ConstantForm) : Prop :=
  ∀ cs, EndsNumber (form.after.toList ++ cs)

/-- A plain constant ends where its text does. -/
theorem ends_plain (name : String) : (ConstantForm.plain name).Ends := by
  intro cs
  have hafter : ";\n".toList = [';', '\n'] := by decide
  change EndsNumber (";\n".toList ++ cs)
  rw [hafter]
  exact endsNumber_cons (by decide) _

/-- A frozen constant ends where its text does. -/
theorem ends_frozen (name : String) : (ConstantForm.frozen name).Ends := by
  intro cs
  have hafter : ");\n".toList = [')', ';', '\n'] := by decide
  change EndsNumber (");\n".toList ++ cs)
  rw [hafter]
  exact endsNumber_cons (by decide) _

/-- A constant is read back, up to the order of members and the sign of zero. -/
theorem read_declare {form : ConstantForm} (hform : form.Ends) {v : Json}
    (hv : v.wellFormed = true) (cs : List Char) :
    form.read (form.declare v ++ cs) = some (v.readBack, cs) := by
  have hfuel : v.stringify.length ≤
      ((v.stringify ++ (form.after.toList ++ cs)).length + 1) := by
    rw [List.length_append]
    omega
  rw [ConstantForm.declare, List.append_assoc, List.append_assoc, ConstantForm.read,
    readWord_append]
  simp only [Option.bind_eq_bind, Option.bind_some,
    readsBack_of_wellFormed hv _ _ hfuel (hform cs), readWord_append]
  rfl

/-- A list of names reads back unchanged. -/
theorem readBack_strings (names : List JsString) :
    Json.readBack (strings names) = strings names := by
  rw [strings, Json.readBack, Json.rebuild, Json.rebuildElems_eq, List.map_map]
  refine congrArg Json.arr (List.map_congr_left fun s _ => ?_)
  exact readBack_str s

/-- A list of names is well formed. -/
theorem wellFormed_strings (names : List JsString) : (strings names).wellFormed = true := by
  rw [strings, Json.wellFormed_arr]
  rintro v hv
  obtain ⟨s, -, rfl⟩ := List.mem_map.mp hv
  rfl

/-- A list of names is read as its names. -/
theorem strings?_strings (names : List JsString) : strings? (strings names) = some names := by
  rw [strings, strings?, List.mapM_map]
  induction names with
  | nil => rfl
  | cons s names ih =>
    rw [List.mapM_cons, ih]
    rfl

/-- Constants are read back one after the other. -/
theorem readAll_declareAll {forms : List ConstantForm} (hforms : ∀ form ∈ forms, form.Ends)
    {values : List Json} (hlength : values.length = forms.length)
    (hvalues : ∀ v ∈ values, v.wellFormed = true) (cs : List Char) :
    readAll forms (declareAll forms values ++ cs) = some (values.map Json.readBack, cs) := by
  induction forms generalizing values with
  | nil =>
    obtain rfl := List.length_eq_zero_iff.mp hlength
    rfl
  | cons form forms ih =>
    obtain ⟨v, values, rfl⟩ := List.exists_cons_of_length_eq_add_one hlength
    obtain ⟨hform, hforms⟩ := List.forall_mem_cons.mp hforms
    obtain ⟨hv, hvalues⟩ := List.forall_mem_cons.mp hvalues
    have hrest := ih hforms (Nat.succ.inj hlength) hvalues
    rw [declareAll, List.zip_cons_cons, List.flatMap_cons, List.append_assoc, readAll,
      read_declare hform hv, Option.bind_some, ← declareAll, hrest]
    rfl

/-- All the constants of a module end where their texts do. -/
theorem ends_of_mem_constantForms {form : ConstantForm} (h : form ∈ constantForms) :
    form.Ends := by
  simp only [constantForms, List.mem_cons, List.not_mem_nil, or_false] at h
  rcases h with rfl | rfl | rfl | rfl | rfl | rfl
  · exact ends_plain _
  · exact ends_plain _
  · exact ends_plain _
  · exact ends_frozen _
  · exact ends_frozen _
  · exact ends_frozen _

/-- The constants of a contract are well formed. -/
theorem wellFormed_constantsOf {contract : ActionContract} {v : Json}
    (h : v ∈ constantsOf contract) : v.wellFormed = true := by
  simp only [constantsOf, List.mem_cons, List.not_mem_nil, or_false] at h
  rcases h with rfl | rfl | rfl | rfl | rfl | rfl
  · rfl
  · rfl
  · exact wellFormed_version contract.versionOk
  · exact wellFormed_strings _
  · exact wellFormed_strings _
  · exact wellFormed_strings _

/-- The constants of a contract read back unchanged. -/
theorem readBack_constantsOf (contract : ActionContract) :
    (constantsOf contract).map Json.readBack = constantsOf contract := by
  simp only [constantsOf, List.map_cons, List.map_nil, readBack_str, readBack_strings,
    readBack_version contract.versionOk]

/-- The constants of a module open with a word, not a comment. -/
theorem skipComments_declareAll (contract : ActionContract) (cs : List Char) :
    skipComments false ('\n' :: (declareAll constantForms (constantsOf contract) ++ cs)) =
      declareAll constantForms (constantsOf contract) ++ cs := by
  obtain ⟨rest, hrest⟩ : ∃ rest, (ConstantForm.plain "ACTION_KIND").before.toList =
    'e' :: rest := by
    refine ⟨"xport const ".toList ++ ("ACTION_KIND".toList ++ " = ".toList), ?_⟩
    rw [ConstantForm.plain, String.toList_append, String.toList_append, List.append_assoc]
    exact congrArg (· ++ _) (by decide : "export const ".toList = 'e' :: "xport const ".toList)
  rw [constantForms, constantsOf, declareAll, List.zip_cons_cons, List.flatMap_cons,
    ConstantForm.declare, hrest]
  rfl

/-- A rendered module evaluates to the constants of its contract. -/
theorem evaluateModule_renderActionSdk (notice : Notice) (contract : ActionContract) :
    evaluateModule (renderActionSdk notice contract) = some (moduleOf contract) := by
  have hread : readAll constantForms (declareAll constantForms (constantsOf contract) ++
      functionsText) = some ((constantsOf contract).map Json.readBack, functionsText) :=
    readAll_declareAll (fun _ => ends_of_mem_constantForms) rfl (fun _ => wellFormed_constantsOf) _
  rw [readBack_constantsOf] at hread
  rw [evaluateModule, renderActionSdk, skipComments_notice, skipComments_declareAll, hread,
    Option.bind_some, if_pos rfl]
  simp only [constantsOf, moduleOfConstants, strings?_strings]
  rfl

/-! ## The functions of a module -/

/-- `Object.fromEntries` of names that are all given one value. -/
def fromEntries (names : List JsString) (v : Json) : JsValue :=
  .ofJson (.obj (ownOrder (collectMembers (names.map fun name => (name, v)))))

/-- An object has exactly the fields when its keys are these in any order. -/
theorem hasExactly_of_perm {keys : List PropertyKey} {names : List JsString}
    (h : keys.Perm (names.map .string)) : Module.hasExactly keys names = true := by
  rw [Module.hasExactly, Bool.and_eq_true, beq_iff_eq, List.all_eq_true]
  refine ⟨by rw [h.length_eq, List.length_map], fun name hname => ?_⟩
  rw [List.contains_iff_mem, h.mem_iff]
  exact List.mem_map_of_mem hname

/-- Distinct names are the keys of the object they make. -/
theorem exists_fromEntries_eq {names : List JsString} (h : names.Nodup) (v : Json) :
    ∃ props, fromEntries names v = .object .objectPrototype props ∧
      (props.map fun p => p.1.1).Perm (names.map .string) := by
  have hkeys : ((names.map fun name => (name, v)).map Prod.fst) = names := by
    simp [Function.comp_def]
  refine ⟨_, rfl, ?_⟩
  rw [collectMembers_of_nodup (hkeys.symm ▸ h), JsValue.ofMembers_eq, List.map_map]
  have hperm := (ownOrder_perm (names.map fun name => (name, v))).map
    fun p => PropertyKey.string p.1
  refine hperm.trans (List.Perm.of_eq ?_)
  simp [Function.comp_def]

namespace Module

/-- Distinct fields other than `__proto__`, given values, build a specification of their own. -/
theorem buildActionSpec_fromEntries {mod : Module} (hnodup : mod.actionFields.Nodup)
    (hproto : protoKey ∉ mod.actionFields) (v : Json) :
    ∃ built, mod.buildActionSpec (fromEntries mod.actionFields v) = .ok built ∧
      built.map Prod.fst = mod.actionFields := by
  obtain ⟨props, hprops, hkeys⟩ := exists_fromEntries_eq hnodup v
  have hfields : (mod.actionFields.map fun field => (field, JsValue.get props field)).map Prod.fst =
      mod.actionFields := by
    simp [Function.comp_def]
  rw [hprops, buildActionSpec, if_pos (hasExactly_of_perm hkeys)]
  refine ⟨_, rfl, ?_⟩
  rw [assignMembers_eq, List.filter_eq_self.mpr, collectMembers_of_nodup (hfields.symm ▸ hnodup),
    hfields]
  rintro p hp
  obtain ⟨field, hfield, rfl⟩ := List.mem_map.mp hp
  exact decide_eq_true fun heq => hproto (heq ▸ hfield)

/-- An object with the declared fields is an error envelope. -/
theorem isErrorEnvelope_fromEntries {mod : Module} (hnodup : mod.errorEnvelopeFields.Nodup)
    (v : Json) : mod.isErrorEnvelope (fromEntries mod.errorEnvelopeFields v) = true := by
  obtain ⟨props, hprops, hkeys⟩ := exists_fromEntries_eq hnodup v
  rw [hprops, isErrorEnvelope]
  exact hasExactly_of_perm hkeys

end Module

end MetaframerKernel.ActionSdk
