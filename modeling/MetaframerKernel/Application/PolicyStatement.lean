import MetaframerKernel.Application.PolicyDecision

/-!
# Policy statements

One declarative policy row. A genuine statement carries the proofs of its constructor's checks;
`targetActor` and `condition` are canonical objects of any contents, because a statement describes
a rule and does not interpret it.

## Main definitions

* `PolicyStatement`, `PolicyStatement.ofRaw`.
-/

namespace MetaframerKernel

open Js

/-! ## Bounded canonical scalars -/

/-- `DOTTED_NAME.test(value)`: `/^[a-z][a-z0-9]*(\.[a-z][a-z0-9]*)+$/`. -/
def isDottedActionForm (s : JsString) : Bool := isDottedName 2 s

/-- `RESOURCE_TYPE.test(value)`: `/^[a-z][a-z0-9]*(\.[a-z][a-z0-9]*)*$/`. -/
def isResourceTypeForm (s : JsString) : Bool := isDottedName 1 s

/-- `0|[1-9]\d*` -/
def isNumericIdentifier (s : JsString) : Bool :=
  s == lit "0" || (s.head?.any (CodeUnit.inRange '1' '9') && s.all digitClass)

/-- `[0-9a-zA-Z-]` -/
def identifierClass (u : CodeUnit) : Bool :=
  digitClass u || lowerClass u || u.inRange 'A' 'Z' || charClass '-' u

/-- `0|[1-9]\d*|\d*[a-zA-Z-][0-9a-zA-Z-]*` -/
def isPreReleaseIdentifier (s : JsString) : Bool :=
  isNumericIdentifier s || (s.all identifierClass && s.any fun u => !digitClass u)

/-- `[0-9a-zA-Z-]+` -/
def isBuildIdentifier (s : JsString) : Bool := !s.isEmpty && s.all identifierClass

/-- `SEMVER.test(value)`. The first plus sign starts the build, the first hyphen before it the
pre-release. -/
def isSemVer (s : JsString) : Bool :=
  let main := s.takeWhile fun u => !charClass '+' u
  let build := s.dropWhile fun u => !charClass '+' u
  let core := main.takeWhile fun u => !charClass '-' u
  let pre := main.dropWhile fun u => !charClass '-' u
  (core.splitOnP (charClass '.')).length == 3 &&
    (core.splitOnP (charClass '.')).all isNumericIdentifier &&
    (pre.isEmpty || (pre.tail.splitOnP (charClass '.')).all isPreReleaseIdentifier) &&
    (build.isEmpty || (build.tail.splitOnP (charClass '.')).all isBuildIdentifier)

theorem boundedForm_ok {form : JsString → Bool} {least : ℕ} {s : JsString}
    (hlength : ¬(s.length < least ∨ 128 < s.length)) (hform : form s = true) :
    least ≤ s.length ∧ s.length ≤ 128 ∧ form s = true := by
  rw [not_or, not_lt, not_lt] at hlength
  exact ⟨hlength.1, hlength.2, hform⟩

/-- The three checks of a bounded form: a primitive string, its length, its form. -/
def boundedForm (form : JsString → Bool) (what : JsString) (bound rule : String) (least : ℕ)
    (value : JsValue) :
    Except NativeError {s : JsString // least ≤ s.length ∧ s.length ≤ 128 ∧ form s = true} :=
  match value with
  | .string s =>
      -- the bound is a range error, the form a type error
      if hlength : s.length < least ∨ 128 < s.length then
        .error (.rangeError (what ++ lit bound))
      else if hform : form s = true then .ok ⟨s, boundedForm_ok hlength hform⟩
      else .error (.typeError (what ++ lit rule))
  | _ => .error (.typeError (what ++ lit " needs a primitive string"))

/-- `canonicalId` -/
def canonicalId := boundedForm isCanonicalIdForm (lit "PolicyStatement id")
  " is bounded to 1 to 128 characters"
  " needs a lowercase canonical id of letters, digits, dot or hyphen" 1

/-- `targetActionValue` -/
def targetActionValue := boundedForm isDottedActionForm (lit "PolicyStatement targetAction")
  " needs a name of at most 128 characters"
  " needs a dotted lowercase name of at least two segments" 0

/-- `targetResourceTypeValue` -/
def targetResourceTypeValue :=
  boundedForm isResourceTypeForm (lit "PolicyStatement targetResourceType")
    " is bounded to 1 to 128 characters" " needs a dotted lowercase resource-type token" 1

/-- `effectValue` of a statement. -/
def statementEffect (value : JsValue) : Except NativeError Effect :=
  match value with
  | .string s =>
      match Effect.ofName? s with
      | some e => .ok e
      | none =>
          .error (.typeError (lit "PolicyStatement effect must be exactly \"allow\" or \"deny\""))
  | _ => .error (.typeError (lit "PolicyStatement effect must be exactly \"allow\" or \"deny\""))

/-- `layerValue` -/
def layerValue (value : JsValue) : Except NativeError Layer :=
  match value with
  | .string s =>
      match Layer.ofName? s with
      | some l => .ok l
      | none => .error (.typeError
          (lit "PolicyStatement layer must be exactly \"system\", \"platform\" or \"tenant\""))
  | _ => .error (.typeError
      (lit "PolicyStatement layer must be exactly \"system\", \"platform\" or \"tenant\""))

/-- `priorityValue` -/
def priorityValue (value : JsValue) :
    Except NativeError {n : JsNumber // n.safeInteger?.isSome = true} :=
  match value with
  | .number n =>
      if h : n.safeInteger?.isSome = true then .ok ⟨n, h⟩
      else .error (.typeError (lit "PolicyStatement priority needs a safe integer"))
  | _ => .error (.typeError (lit "PolicyStatement priority needs a safe integer"))

/-- `semverValue` -/
def semverValue (value : JsValue) : Except NativeError {s : JsString // isSemVer s = true} :=
  match value with
  | .string s =>
      if h : isSemVer s = true then .ok ⟨s, h⟩
      else .error (.typeError (lit "PolicyStatement version needs an exact SemVer 2.0.0 string"))
  | _ => .error (.typeError (lit "PolicyStatement version needs an exact SemVer 2.0.0 string"))

/-- `enabledValue` -/
def enabledValue (value : JsValue) : Except NativeError Bool :=
  match value with
  | .boolean b => .ok b
  | _ => .error (.typeError (lit "PolicyStatement enabled needs a primitive boolean"))

/-! ## The statement -/

/-- An immutable policy row. -/
structure PolicyStatement where
  id : JsString
  effect : Effect
  targetActor : CanonicalObject
  targetAction : JsString
  targetResourceType : JsString
  condition : CanonicalObject
  priority : JsNumber
  layer : Layer
  version : JsString
  enabled : Bool
  idOk : 1 ≤ id.length ∧ id.length ≤ 128 ∧ isCanonicalIdForm id = true
  targetActionOk : 0 ≤ targetAction.length ∧ targetAction.length ≤ 128 ∧
    isDottedActionForm targetAction = true
  targetResourceTypeOk : 1 ≤ targetResourceType.length ∧ targetResourceType.length ≤ 128 ∧
    isResourceTypeForm targetResourceType = true
  priorityOk : priority.safeInteger?.isSome = true
  versionOk : isSemVer version = true

namespace PolicyStatement

/-- `new PolicyStatement(options)` with exactly its ten options. -/
def ofRaw (id effect targetActor targetAction targetResourceType condition priority layer version
    enabled : JsValue) : Except NativeError PolicyStatement := do
  let id ← canonicalId id
  let effect ← statementEffect effect
  -- each field is refused with a message of its own, and the first refusal is thrown
  let targetActor ← canonicalRoot [] (lit "PolicyStatement targetActor") targetActor
  let targetAction ← targetActionValue targetAction
  let targetResourceType ← targetResourceTypeValue targetResourceType
  let condition ← canonicalRoot [] (lit "PolicyStatement condition") condition
  let priority ← priorityValue priority
  let layer ← layerValue layer
  let version ← semverValue version
  let enabled ← enabledValue enabled
  return ⟨id.1, effect, targetActor, targetAction.1, targetResourceType.1, condition, priority.1,
    layer, version.1, enabled, id.2, targetAction.2, targetResourceType.2, priority.2, version.2⟩

/-- The identifier of a statement is one a decision can name. -/
theorem isPolicyId_id (s : PolicyStatement) : isPolicyId s.id = true := by
  obtain ⟨hpos, hbound, hform⟩ := s.idOk
  have hne : s.id ≠ [] := List.ne_nil_of_length_pos hpos
  simp [isPolicyId, hne, hbound, hform]

end PolicyStatement

end MetaframerKernel
