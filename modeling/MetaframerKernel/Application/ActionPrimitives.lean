import MetaframerKernel.Application.CanonicalValue

/-!
# Commands and queries

A command or query is a name, a version, the identity coordinates it was issued under and a
payload. The constructors take the identity coordinates as genuine values, which is what the
source requires of them, and check everything else.

## Main definitions

* `Command`, `Query`: the two kinds of act;
* `Action`: a genuine act of either kind, as a policy request carries one.
-/

namespace MetaframerKernel

open Js

/-! ## Action coordinates -/

/-- `[a-z]` -/
def lowerClass (u : CodeUnit) : Bool := u.inRange 'a' 'z'

/-- `[a-z0-9]` -/
def lowerAlnumClass (u : CodeUnit) : Bool := lowerClass u || digitClass u

/-- `[a-z][a-z0-9]*` -/
def isLowerWord (s : JsString) : Bool := s.head?.any lowerClass && s.all lowerAlnumClass

/-- Lower-case words separated by dots, at least `least` of them. -/
def isDottedName (least : ℕ) (s : JsString) : Bool :=
  least ≤ (s.splitOnP (charClass '.')).length && (s.splitOnP (charClass '.')).all isLowerWord

/-- `ACTION_NAME.test(value)`: `/^[a-z][a-z0-9]*(\.[a-z][a-z0-9]*)+$/`. -/
def isActionNameForm (s : JsString) : Bool := isDottedName 2 s

/-- The name of an act: a dotted name of at most 128 characters. -/
def isActionName (s : JsString) : Bool := s.length ≤ 128 && isActionNameForm s

/-- `actionName` -/
def actionName (what : JsString) (value : JsValue) :
    Except NativeError {s : JsString // isActionName s = true} :=
  match value with
  | .string s =>
      if hlength : 128 < s.length then
        .error (.rangeError (what ++ lit " needs a name of at most 128 characters"))
      else if hform : isActionNameForm s = true then .ok ⟨s, by simp_all [isActionName]⟩
      else .error (refusal what " needs a dotted lowercase name of at least two segments")
  | v => .error (.typeError (what ++ lit " needs a primitive string name, not " ++ v.nullOrTypeOf))

/-- The version of an act: a positive safe integer. -/
def IsActionVersion (z : ℤ) : Prop := 1 ≤ z ∧ z ≤ 2 ^ 53 - 1

instance (z : ℤ) : Decidable (IsActionVersion z) := inferInstanceAs (Decidable (_ ∧ _))

/-- `actionVersion` -/
def actionVersion (what : JsString) (value : JsValue) :
    Except NativeError {z : ℤ // IsActionVersion z} :=
  match value with
  | .number n =>
      match hn : n.safeInteger? with
      -- `Number.isSafeInteger(value)`, and then the bound
      | some z =>
          if hz : z < 1 then .error (refusal what " needs a safe integer version of at least 1")
          else
            have hbound := JsNumber.natAbs_le_of_safeInteger? hn
            .ok ⟨z, by omega, by omega⟩
      | none => .error (refusal what " needs a safe integer version of at least 1")
  | _ => .error (refusal what " needs a safe integer version of at least 1")

/-- A text of the form of action names is admitted. -/
theorem actionName_string {what s : JsString} (h : isActionName s = true) :
    actionName what (.string s) = .ok ⟨s, h⟩ := by
  have hsplit := h
  rw [isActionName, Bool.and_eq_true, decide_eq_true_eq] at hsplit
  unfold actionName
  simp only [dif_neg (not_lt.mpr hsplit.1), dif_pos hsplit.2]

/-- A number that is a version is admitted. -/
theorem actionVersion_number {what : JsString} {n : JsNumber} {z : ℤ} (h : IsActionVersion z)
    (hn : n.safeInteger? = some z) : actionVersion what (.number n) = .ok ⟨z, h⟩ := by
  have hone := h.1
  unfold actionVersion
  simp only
  split
  · next z' hz' =>
    obtain rfl := Option.some.inj (hn.symm.trans hz')
    rw [dif_neg (by omega)]
  · next hnone => exact nomatch hn.symm.trans hnone

/-- A version is a safe integer. -/
theorem safeInteger?_of_isActionVersion {z : ℤ} (h : IsActionVersion z) :
    (JsNumber.ofInt z).safeInteger? = some z := by
  obtain ⟨hone, hsafe⟩ := h
  exact JsNumber.safeInteger?_ofInt (by omega)

/-- A version carries no sign. -/
theorem unsignZero_version {z : ℤ} (h : IsActionVersion z) :
    (JsNumber.ofInt z).unsignZero = .ofInt z := by
  have hsafe : z.natAbs ≤ 2 ^ 53 - 1 := by
    obtain ⟨hone, hmax⟩ := h
    omega
  obtain ⟨x, hx, hneg⟩ := JsNumber.exists_ofInt_eq hsafe (by have := h.1; omega)
  rw [hx, JsNumber.unsignZero, hneg, Bool.false_and, ← hneg]

/-- A version is finite. -/
theorem isFinite_version {z : ℤ} (h : IsActionVersion z) : (JsNumber.ofInt z).isFinite = true := by
  have hsafe : z.natAbs ≤ 2 ^ 53 - 1 := by
    obtain ⟨hone, hmax⟩ := h
    omega
  obtain ⟨x, hx, -⟩ := JsNumber.exists_ofInt_eq hsafe (by have := h.1; omega)
  exact hx ▸ rfl

/-- A version is read back as it is. -/
theorem readBack_version {z : ℤ} (h : IsActionVersion z) :
    Json.readBack (.num (.ofInt z)) = .num (.ofInt z) := by
  rw [Json.readBack, Json.rebuild, if_pos (isFinite_version h), unsignZero_version h]

/-- A version is well formed. -/
theorem wellFormed_version {z : ℤ} (h : IsActionVersion z) :
    (Json.num (.ofInt z)).wellFormed = true := by
  rw [Json.wellFormed]
  exact isFinite_version h

/-- The payload of an act: the canonical JSON value of `action-primitives.mjs`. -/
def actionPayload (what : JsString) (value : JsValue) : Except NativeError CanonicalObject :=
  canonicalRoot (lit ", and this one has no JSON form") what value

/-! ## The two kinds of act -/

/-- An act that changes state. -/
structure Command where
  name : JsString
  version : ℤ
  principal : Principal
  correlationId : CorrelationId
  causationId : Option CausationId
  idempotencyKey : IdempotencyKey
  payload : CanonicalObject
  nameOk : isActionName name = true
  versionOk : IsActionVersion version

/-- An act that changes nothing. -/
structure Query where
  name : JsString
  version : ℤ
  principal : Principal
  correlationId : CorrelationId
  causationId : Option CausationId
  payload : CanonicalObject
  nameOk : isActionName name = true
  versionOk : IsActionVersion version

/-- An admitted name has the form of one. -/
theorem isActionName_coe (name : {s : JsString // isActionName s = true}) :
    isActionName name.1 = true := name.2

/-- An admitted version is one. -/
theorem isActionVersion_coe (version : {z : ℤ // IsActionVersion z}) :
    IsActionVersion version.1 := version.2

/-- `new Command(options)`. -/
def Command.ofRaw (name version : JsValue) (principal : Principal) (correlationId : CorrelationId)
    (causationId : Option CausationId) (idempotencyKey : IdempotencyKey) (payload : JsValue) :
    Except NativeError Command := do
  let name ← actionName (lit "Command") name
  let version ← actionVersion (lit "Command") version
  let payload ← actionPayload (lit "a Command payload") payload
  return ⟨name.1, version.1, principal, correlationId, causationId, idempotencyKey, payload,
    isActionName_coe name, isActionVersion_coe version⟩

/-- A command carries the identity values it was issued under. -/
theorem Command.ofRaw_eq_ok {name version : JsValue} {principal : Principal}
    {correlationId : CorrelationId} {causationId : Option CausationId}
    {idempotencyKey : IdempotencyKey} {payload : JsValue} {command : Command}
    (h : Command.ofRaw name version principal correlationId causationId idempotencyKey payload =
      .ok command) :
    command.principal = principal ∧ command.correlationId = correlationId ∧
      command.idempotencyKey = idempotencyKey := by
  simp only [Command.ofRaw, bind_eq_ok] at h
  obtain ⟨_, -, _, -, _, -, h⟩ := h
  obtain rfl := Except.ok.inj h
  exact ⟨rfl, rfl, rfl⟩

/-- `new Query(options)`. -/
def Query.ofRaw (name version : JsValue) (principal : Principal) (correlationId : CorrelationId)
    (causationId : Option CausationId) (payload : JsValue) : Except NativeError Query := do
  let name ← actionName (lit "Query") name
  let version ← actionVersion (lit "Query") version
  let payload ← actionPayload (lit "a Query payload") payload
  return ⟨name.1, version.1, principal, correlationId, causationId, payload,
    isActionName_coe name, isActionVersion_coe version⟩

/-- A genuine act. -/
inductive Action where
  | command (c : Command)
  | query (q : Query)

namespace Action

/-- `action.name` -/
def name : Action → JsString
  | command c => c.name
  | query q => q.name

/-- `action.principal` -/
def principal : Action → Principal
  | command c => c.principal
  | query q => q.principal

/-- `action.correlationId` -/
def correlationId : Action → CorrelationId
  | command c => c.correlationId
  | query q => q.correlationId

end Action

end MetaframerKernel
