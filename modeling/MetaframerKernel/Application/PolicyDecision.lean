import MetaframerKernel.Application.ActionPrimitives

/-!
# Policy requests and decisions

The protocol values of authorization: a `PolicyRequest` names an act, what it targets and the
situation it arrives in; a `PolicyDecision` carries an outcome. Both are closed under their
constructors' checks, which the structures keep as fields.

## Main definitions

* `PolicyRequest`, `PolicyRequest.ofRaw`;
* `Effect`, `PolicyDecision`, `PolicyDecision.ofRaw`.
-/

namespace MetaframerKernel

open Js

/-! ## Requests -/

/-- What is asked, what it targets, and the situation it arrives in. -/
structure PolicyRequest where
  action : Action
  resource : CanonicalObject
  context : CanonicalObject

namespace PolicyRequest

/-- `request.tenantId`, read off the action. -/
def tenantId (r : PolicyRequest) : TenantId := r.action.principal.tenantId

/-- `request.actorId`, read off the action. -/
def actorId (r : PolicyRequest) : ActorId := r.action.principal.actorId

/-- `new PolicyRequest({ action, resource, context })`. -/
def ofRaw (action : Action) (resource context : JsValue) : Except NativeError PolicyRequest := do
  let resource ← canonicalRoot [] (lit "a PolicyRequest resource") resource
  let context ← canonicalRoot [] (lit "a PolicyRequest context") context
  return { action, resource, context }

end PolicyRequest

/-- `customer.create` has the form of an action name. -/
theorem isActionName_create : isActionName (lit "customer.create") = true := by decide

/-- One is a version. -/
theorem isActionVersion_one : IsActionVersion 1 := by decide

/-- The empty object is canonical. -/
theorem isHardened_empty : isHardened (.obj []) 1 = true := by decide

/-- A request to create a customer, for examples. -/
def PolicyRequest.sample : PolicyRequest where
  action := .command {
    name := lit "customer.create"
    version := 1
    principal := {
      tenantId := ⟨lit "11111111-1111-4111-8111-111111111111", by decide, by decide⟩
      actorId := ⟨lit "clerk", by decide⟩ }
    correlationId := ⟨lit "22222222-2222-4222-8222-222222222222", by decide, by decide⟩
    causationId := none
    idempotencyKey := ⟨[]⟩
    payload := ⟨[], isHardened_empty⟩
    nameOk := isActionName_create
    versionOk := isActionVersion_one }
  resource := ⟨[(lit "type", .str (lit "customer"))], by decide⟩
  context := ⟨[], isHardened_empty⟩

/-! ## Decisions -/

/-- An authorization outcome. -/
inductive Effect where
  | allow
  | deny
deriving DecidableEq

/-- The string an outcome is spelled by. -/
def Effect.name : Effect → JsString
  | .allow => lit "allow"
  | .deny => lit "deny"

/-- `EFFECTS.has(value)` on a primitive string. -/
def Effect.ofName? (s : JsString) : Option Effect :=
  if s = lit "allow" then some .allow else if s = lit "deny" then some .deny else none

/-- An effect is found by its name. -/
theorem Effect.ofName?_name (e : Effect) : Effect.ofName? e.name = some e := by
  cases e <;> decide

/-- A name is that of one effect. -/
theorem Effect.ofName?_eq_some {s : JsString} {e : Effect} :
    Effect.ofName? s = some e ↔ s = e.name := by
  constructor
  · intro h
    unfold Effect.ofName? at h
    split_ifs at h <;> cases h <;> assumption
  · rintro rfl
    exact ofName?_name e

/-- The layer a policy is written in. -/
inductive Layer where
  | system
  | platform
  | tenant
deriving DecidableEq

/-- The string a layer is spelled by. -/
def Layer.name : Layer → JsString
  | .system => lit "system"
  | .platform => lit "platform"
  | .tenant => lit "tenant"

/-- `LAYERS.has(value)` on a primitive string. -/
def Layer.ofName? (s : JsString) : Option Layer :=
  if s = lit "system" then some .system
  else if s = lit "platform" then some .platform
  else if s = lit "tenant" then some .tenant
  else none

/-- A layer is found by its name. -/
theorem Layer.ofName?_name (l : Layer) : Layer.ofName? l.name = some l := by
  cases l <;> decide

/-- A name is that of one layer. -/
theorem Layer.ofName?_eq_some {s : JsString} {l : Layer} :
    Layer.ofName? s = some l ↔ s = l.name := by
  constructor
  · intro h
    unfold Layer.ofName? at h
    split_ifs at h <;> cases h <;> assumption
  · rintro rfl
    exact ofName?_name l

/-- `/[\x00-\x1f\x7f-\x9f]/` -/
def isReasonControl (u : CodeUnit) : Bool := u.val ≤ 0x1F || (0x7F ≤ u.val && u.val ≤ 0x9F)

/-- A reason `reasonValue` lets pass: bounded prose without padding or control characters. -/
def isReason (s : JsString) : Bool :=
  s.length ≤ 512 && !(trim s).isEmpty && trim s == s && !s.any isReasonControl

/-- `POLICY_ID_FORM.test(value)`: `/^[a-z0-9]+([.-][a-z0-9]+)*$/`. -/
def isCanonicalIdForm (s : JsString) : Bool :=
  (s.splitOnP fun u => charClass '.' u || charClass '-' u).all fun t =>
    !t.isEmpty && t.all lowerAlnumClass

/-- A policy identifier: a canonical id of 1 to 128 characters. -/
def isPolicyId (s : JsString) : Bool :=
  !s.isEmpty && s.length ≤ 128 && isCanonicalIdForm s

/-- An outcome carried as a value. -/
structure PolicyDecision where
  effect : Effect
  reason : JsString
  matchedPolicyId : Option JsString
  traceId : CorrelationId
  reasonOk : isReason reason = true
  /-- A matched policy has a canonical id; without one, the outcome is a deny. -/
  matchedOk : matchedPolicyId.elim (effect = .deny) fun id => isPolicyId id = true
deriving DecidableEq

namespace PolicyDecision

/-- `effectValue` -/
def effectValue (value : JsValue) : Except NativeError Effect :=
  match value with
  | .string s =>
      match Effect.ofName? s with
      | some e => .ok e
      | none => .error (.typeError (lit "PolicyDecision effect needs exactly \"allow\" or \"deny\""))
  | _ => .error (.typeError (lit "PolicyDecision effect needs exactly \"allow\" or \"deny\""))

/-- `reasonValue` -/
def reasonValue (value : JsValue) : Except NativeError {s : JsString // isReason s = true} :=
  match value with
  | .string s =>
      -- the length is looked at first, in code units
      if hlength : 512 < s.length then
        .error (.rangeError (lit "PolicyDecision reason is bounded to 512 characters"))
      else if hempty : (trim s).isEmpty = true then
        .error (.rangeError (lit "PolicyDecision reason must not be empty once trimmed"))
      else if htrim : trim s ≠ s then
        .error (.typeError
          (lit "PolicyDecision reason must carry no leading or trailing whitespace"))
      else if hcontrol : s.any isReasonControl = true then
        .error (.rangeError (lit "PolicyDecision reason admits no C0 or C1 control character"))
      else .ok ⟨s, by simp_all [isReason]⟩
  | _ => .error (.typeError (lit "PolicyDecision reason needs a primitive string"))

/-- `matchedPolicyIdValue` -/
def matchedPolicyIdValue (value : JsValue) (effect : Effect) : Except NativeError
    {id : Option JsString // id.elim (effect = .deny) fun id => isPolicyId id = true} :=
  match value with
  | .null =>
      -- no policy matched: this is a refusal by default, and nothing else may claim it
      if hdeny : effect = .deny then .ok ⟨none, hdeny⟩
      else
        .error (.typeError
          (lit "PolicyDecision matchedPolicyId may be null only when effect is deny"))
  | .string s =>
      if hbound : s.isEmpty = true ∨ 128 < s.length then
        .error (.rangeError (lit "PolicyDecision matchedPolicyId is bounded to 1 to 128 characters"))
      else if hform : isCanonicalIdForm s = true then .ok ⟨some s, by simp_all [isPolicyId]⟩
      else
        .error (.typeError (lit "PolicyDecision matchedPolicyId needs a lowercase canonical id " ++
          lit "of letters, digits, dot or hyphen"))
  | _ =>
      .error (.typeError (lit "PolicyDecision matchedPolicyId needs a primitive string or null"))

/-- `new PolicyDecision({ effect, reason, matchedPolicyId, traceId })`. -/
def ofRaw (effect reason matchedPolicyId : JsValue) (traceId : CorrelationId) :
    Except NativeError PolicyDecision := do
  let effect ← effectValue effect
  let reason ← reasonValue reason
  let matched ← matchedPolicyIdValue matchedPolicyId effect
  return ⟨effect, reason.1, matched.1, traceId, reason.2, matched.2⟩

/-- A text of the form of reasons is admitted as one. -/
theorem reasonValue_string {s : JsString} (h : isReason s = true) :
    reasonValue (.string s) = .ok ⟨s, h⟩ := by
  have hparts := h
  simp only [isReason, Bool.and_eq_true, decide_eq_true_eq, Bool.not_eq_true', beq_iff_eq]
    at hparts
  obtain ⟨⟨⟨hlength, hempty⟩, htrim⟩, hcontrol⟩ := hparts
  rw [reasonValue, dif_neg (by omega), dif_neg (by simp [hempty]), dif_neg (by simp [htrim]),
    dif_neg (by simp [hcontrol])]

/-- A text of the form of policy ids is admitted with any effect. -/
theorem matchedPolicyIdValue_string {id : JsString} (h : isPolicyId id = true) (e : Effect) :
    matchedPolicyIdValue (.string id) e = .ok ⟨some id, h⟩ := by
  have hparts := h
  simp only [isPolicyId, Bool.and_eq_true, decide_eq_true_eq, Bool.not_eq_true'] at hparts
  obtain ⟨⟨hempty, hlength⟩, hform⟩ := hparts
  rw [matchedPolicyIdValue, dif_neg (by simp [hempty, hlength]), dif_pos hform]

/-- A decision with a canonical matched id is built as asked for. -/
theorem ofRaw_string {e : Effect} {reason id : JsString} (traceId : CorrelationId)
    (hreason : isReason reason = true) (hid : isPolicyId id = true) :
    ofRaw (.string e.name) (.string reason) (.string id) traceId =
      .ok ⟨e, reason, some id, traceId, hreason, hid⟩ := by
  simp only [ofRaw, effectValue, Effect.ofName?_name, reasonValue_string hreason,
    matchedPolicyIdValue_string hid]
  rfl

/-- A deny without a matched policy is built as asked for. -/
theorem ofRaw_null {reason : JsString} (traceId : CorrelationId)
    (hreason : isReason reason = true) :
    ofRaw (.string Effect.deny.name) (.string reason) .null traceId =
      .ok ⟨.deny, reason, none, traceId, hreason, rfl⟩ := by
  simp only [ofRaw, effectValue, Effect.ofName?_name, reasonValue_string hreason,
    matchedPolicyIdValue]
  rfl

end PolicyDecision

end MetaframerKernel
