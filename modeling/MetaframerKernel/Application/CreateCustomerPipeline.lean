import MetaframerKernel.Application.AuthorizationEvaluator
import MetaframerKernel.Application.Collaborators

/-!
# The create-customer pipeline

From the raw fields of an `ActionSpec` to one of four outcomes: shape check, identity guards,
policy decision, invariants, prepared change set. The decision point and the witness of the guards
are given by the composition.

## Main definitions

* `ActionSpec`, `buildCreateCustomerActionSpec`: the fields a request supplies;
* `PreparedChangeSet`, `Outcome`: what the pipeline answers;
* `Ports`, `run`: the pipeline.
-/

namespace MetaframerKernel

open Js Async

/-! ## Requests -/

/-- The fields of an `ActionSpec`, none of them checked yet. -/
structure ActionSpec where
  requestId : JsValue
  actorId : JsValue
  tenantId : JsValue
  payload : JsValue
  idempotencyKey : JsValue

/-- `ACTION_SPEC_FIELDS` -/
def actionSpecFields : List JsString :=
  [lit "requestId", lit "actorId", lit "tenantId", lit "payload", lit "idempotencyKey"]

/-- `buildCreateCustomerActionSpec` -/
def buildCreateCustomerActionSpec (input : JsValue) : Except NativeError ActionSpec :=
  match input with
  | .object .objectPrototype props =>
      if props.length ≠ actionSpecFields.length ∨
          ¬actionSpecFields.all fun key => props.any fun p => p.1.1 == .string key then
        .error (.typeError (lit "CreateCustomer@1 ActionSpec must carry exactly these keys: " ++
          lit "requestId, actorId, tenantId, payload, idempotencyKey"))
      else
        .ok {
          requestId := JsValue.get props (lit "requestId")
          actorId := JsValue.get props (lit "actorId")
          tenantId := JsValue.get props (lit "tenantId")
          payload := JsValue.get props (lit "payload")
          idempotencyKey := JsValue.get props (lit "idempotencyKey") }
  | _ => .error (.typeError (lit "CreateCustomer@1 ActionSpec needs an ordinary object"))

/-- `rawRequestIdOf` of a request. -/
def rawRequestIdOf (request : JsValue) : JsString :=
  match request with
  | .object .objectPrototype props =>
      match JsValue.get props (lit "requestId") with
      | .string s => s
      | _ => []
  | _ => []

/-- The raw request id of the fields is the one of the request they were taken from. -/
theorem rawRequestIdOf_of_build {input : JsValue} {spec : ActionSpec}
    (h : buildCreateCustomerActionSpec input = .ok spec) {s : JsString}
    (hs : spec.requestId = .string s) : rawRequestIdOf input = s := by
  unfold buildCreateCustomerActionSpec at h
  split at h
  · split_ifs at h
    obtain rfl := Except.ok.inj h
    simp only at hs
    simp only [rawRequestIdOf, hs]
  · cases h

namespace CreateCustomerPipeline

/-! ## Outcomes -/

/-- The codes of the error envelopes. -/
inductive ErrorCode where
  | actionSpecInvalid
  | invariantViolation
  | identityMismatch
  | crossTenantDeny
  | policyDeny
deriving DecidableEq

/-- The string a code is spelled by. -/
def ErrorCode.name : ErrorCode → JsString
  | .actionSpecInvalid => lit "ACTION_SPEC_INVALID"
  | .invariantViolation => lit "INVARIANT_VIOLATION"
  | .identityMismatch => lit "IDENTITY_MISMATCH"
  | .crossTenantDeny => lit "CROSS_TENANT_DENY"
  | .policyDeny => lit "POLICY_DENY"

/-- `ERROR_MESSAGES` -/
def ErrorCode.message : ErrorCode → JsString
  | .actionSpecInvalid => lit "the ActionSpec did not satisfy its exact raw field shape"
  | .invariantViolation => lit "the action violated a domain invariant"
  | .identityMismatch => lit "the acting identity does not match the ActionSpec actor"
  | .crossTenantDeny => lit "the acting identity does not match the ActionSpec tenant"
  | .policyDeny => lit "the policy decision point denied this action"

/-- An error envelope. -/
structure ErrorEnvelope where
  code : JsString
  message : JsString
  requestId : JsString
  retryable : Bool
deriving DecidableEq

/-- The outcomes without a change set. -/
inductive Refusal where
  | deny
  | invalid
  | crossTenantDeny
deriving DecidableEq

/-- The string a refusal is spelled by. -/
def Refusal.name : Refusal → JsString
  | .deny => lit "DENY"
  | .invalid => lit "INVALID"
  | .crossTenantDeny => lit "CROSS_TENANT_DENY"

/-- `intents.customer` -/
structure CustomerIntent where
  type : JsString
  tenantId : JsString
  payload : CanonicalObject

/-- `intents.audit` -/
structure AuditIntent where
  type : JsString
  tenantId : JsString
  actorId : JsString
  action : JsString
  correlationId : JsString

/-- `intents.transactionalOutbox` -/
structure OutboxIntent where
  type : JsString
  eventName : JsString
  tenantId : JsString
  correlationId : JsString

/-- `intents.idempotency` -/
structure IdempotencyIntent where
  type : JsString
  tenantId : JsString
  fingerprint : JsString
  correlationId : JsString

/-- The write intents of an allowed request, its `persistenceState` being `pending`. -/
structure PreparedChangeSet where
  customer : CustomerIntent
  audit : AuditIntent
  transactionalOutbox : OutboxIntent
  idempotency : IdempotencyIntent

/-- What the pipeline answers. -/
inductive Outcome where
  | allowCommit (requestId : JsString) (preparedChangeSet : PreparedChangeSet)
  | refused (outcome : Refusal) (requestId : JsString) (error : ErrorEnvelope)

/-- `errorOutcome` -/
def errorOutcome (outcome : Refusal) (requestId : JsString) (code : ErrorCode)
    (retryable : Bool) : Outcome :=
  .refused outcome requestId ⟨code.name, code.message, requestId, retryable⟩

/-- `invalidOutcome` -/
def invalidOutcome (requestId : JsString) (code : ErrorCode) : Outcome :=
  errorOutcome .invalid requestId code false

/-! ## The pipeline -/

/-- What the guards hand to their witness. -/
structure Guard where
  code : ErrorCode
  principal : Principal
  correlationId : CorrelationId
  idempotencyKey : IdempotencyKey

/-- The collaborators that a composition chooses. -/
structure Ports where
  /-- `policyDecisionPoint.decide` -/
  decide : PolicyRequest → Program kernel PolicyDecision
  auditIdentityGuard : Option (Guard → Program kernel Unit)

/-- The fields of an `ActionSpec` that passes the shape check. -/
structure Shaped where
  correlationId : CorrelationId
  claimedActorId : ActorId
  claimedTenantId : TenantId
  idempotencyKey : IdempotencyKey
  payload : JsValue

section Run

variable (sha256 : ByteArray → JsString)

/-- `shapeCheck` on the object the SDK has built, which has exactly the five keys. -/
def shapeCheck (actionSpec : ActionSpec) : Except NativeError Shaped := do
  let correlationId ← CorrelationId.ofRaw actionSpec.requestId
  let claimedActorId ← ActorId.ofRaw actionSpec.actorId
  let claimedTenantId ← TenantId.ofRaw actionSpec.tenantId
  let idempotencyKey ← IdempotencyKey.ofRaw sha256 actionSpec.idempotencyKey
  return { correlationId, claimedActorId, claimedTenantId, idempotencyKey,
           payload := actionSpec.payload }

/-- `rawRequestIdOf` of an `ActionSpec`. -/
def rawRequestId (actionSpec : ActionSpec) : JsString :=
  match actionSpec.requestId with
  | .string s => s
  | _ => []

/-- `preparedChangeSetOf` -/
def preparedChangeSetOf (command : Command) : PreparedChangeSet :=
  let tenantId := command.principal.tenantId.value
  let actorId := command.principal.actorId.value
  let correlationId := command.correlationId.value
  let fingerprint := command.idempotencyKey.fingerprint
  { customer := { type := lit "customer.create", tenantId, payload := command.payload }
    audit := { type := lit "audit.append", tenantId, actorId, action := lit "customer.create",
               correlationId }
    transactionalOutbox := { type := lit "outbox.enqueue", eventName := lit "customer.created",
                             tenantId, correlationId }
    idempotency := { type := lit "idempotency.record", tenantId, fingerprint, correlationId } }

/-- The object literal with these members. -/
def literal (members : List (String × JsValue)) : JsValue :=
  .object .objectPrototype (members.map fun p => ((.string (lit p.1), .data), p.2))

/-- The `Command` of a request. -/
def commandOf (principal : Principal) (correlationId : CorrelationId)
    (idempotencyKey : IdempotencyKey) (payload : JsValue) : Except NativeError Command :=
  Command.ofRaw (.string (lit "customer.create")) (.number (JsNumber.ofInt 1)) principal
    correlationId none idempotencyKey payload

/-- The `resource` of a policy request. -/
def resourceOf (tenantId : TenantId) : JsValue :=
  literal [("type", .string (lit "customer")), ("tenantId", .string tenantId.value)]

/-- The `PolicyRequest` of a command. -/
def policyRequestOf (command : Command) (context : JsValue) : Except NativeError PolicyRequest :=
  PolicyRequest.ofRaw (.command command) (resourceOf command.principal.tenantId) context

/-- `run` past the invariants: `!invariants || invariants.ok !== true` is a violation. -/
def projectOutcome (command : Command) : Invariants → Outcome
  | .truthy (.boolean true) =>
      .allowCommit command.correlationId.value (preparedChangeSetOf command)
  | _ => invalidOutcome command.correlationId.value .invariantViolation

variable (ports : Ports)

/-- `#refuseAtGuard` -/
def refuseAtGuard (outcome : Refusal) (code : ErrorCode) (authenticated : Principal)
    (shaped : Shaped) : Program kernel Outcome := do
  match ports.auditIdentityGuard with
  | some auditIdentityGuard =>
      auditIdentityGuard ⟨code, authenticated, shaped.correlationId, shaped.idempotencyKey⟩
  | none => pure ()
  return errorOutcome outcome shaped.correlationId.value code false

/-- `run` from the policy decision on. -/
def runCommand (command : Command) : Program kernel Outcome := do
  let requestId := command.correlationId.value
  let request ← Program.sync (orThrow (policyRequestOf command (literal [])))
  let decision ← ports.decide request
  if decision.effect ≠ .allow then
    return errorOutcome .deny requestId .policyDeny false
  else
    let invariants : Invariants ← Program.ask (I := kernel) (.evaluateInvariants command)
    return projectOutcome command invariants

/-- `run` on fields that passed the shape check. -/
def runShaped (shaped : Shaped) : Program kernel Outcome := do
  let authenticated ← identityCurrent
  if authenticated.tenantId ≠ shaped.claimedTenantId then
    refuseAtGuard ports .crossTenantDeny .crossTenantDeny authenticated shaped
  else if authenticated.actorId ≠ shaped.claimedActorId then
    refuseAtGuard ports .deny .identityMismatch authenticated shaped
  else
    match commandOf authenticated shaped.correlationId shaped.idempotencyKey shaped.payload with
    | .error _ => return invalidOutcome shaped.correlationId.value .actionSpecInvalid
    | .ok command => runCommand ports command

/-- `run` -/
def run (actionSpec : ActionSpec) : Program kernel Outcome :=
  match shapeCheck sha256 actionSpec with
  | .error _ => return invalidOutcome (rawRequestId actionSpec) .actionSpecInvalid
  | .ok shaped => runShaped ports shaped

end Run

/-! ## What the checks let through -/

section Checks

variable {sha256 : ByteArray → JsString}

/-- The fields that pass the shape check are the raw strings, the idempotency key aside. -/
theorem shapeCheck_eq_ok {actionSpec : ActionSpec} {shaped : Shaped}
    (h : shapeCheck sha256 actionSpec = .ok shaped) :
    actionSpec.requestId = .string shaped.correlationId.value ∧
      actionSpec.actorId = .string shaped.claimedActorId.value ∧
      actionSpec.tenantId = .string shaped.claimedTenantId.value ∧
      IdempotencyKey.ofRaw sha256 actionSpec.idempotencyKey = .ok shaped.idempotencyKey := by
  simp only [shapeCheck, bind_eq_ok] at h
  obtain ⟨correlationId, hcorrelation, actorId, hactor, tenantId, htenant, key, hkey, h⟩ := h
  obtain rfl := Except.ok.inj h
  exact ⟨CorrelationId.ofRaw_eq_ok hcorrelation, ActorId.ofRaw_eq_ok hactor,
    TenantId.ofRaw_eq_ok htenant, hkey⟩

/-- The command of a request carries the identity values it was issued under. -/
theorem commandOf_eq_ok {principal : Principal} {correlationId : CorrelationId}
    {idempotencyKey : IdempotencyKey} {payload : JsValue} {command : Command}
    (h : commandOf principal correlationId idempotencyKey payload = .ok command) :
    command.principal = principal ∧ command.correlationId = correlationId ∧
      command.idempotencyKey = idempotencyKey := by
  rw [commandOf] at h
  exact Command.ofRaw_eq_ok h

attribute [irreducible] commandOf

/-- A policy request carries its command. -/
theorem policyRequestOf_eq_ok {command : Command} {context : JsValue} {request : PolicyRequest}
    (h : policyRequestOf command context = .ok request) : request.action = .command command := by
  simp only [policyRequestOf, PolicyRequest.ofRaw, bind_eq_ok] at h
  obtain ⟨_, -, _, -, h⟩ := h
  obtain rfl := Except.ok.inj h
  rfl

end Checks

/-! ## What the pipeline calls and prepares -/

/-- The pipeline's own calls and those of its ports have the property. -/
structure PortsCall (P : Call → Prop) (ports : Ports) : Prop where
  current : P .current
  evaluateInvariants : ∀ command, P (.evaluateInvariants command)
  decide : ∀ request, Calls P (ports.decide request)
  auditIdentityGuard : ∀ f, ports.auditIdentityGuard = some f → ∀ guard, Calls P (f guard)

/-- An allowed change set is that of a command which carries the identities of the request, as
raw values that passed the checks, under the principal that was authenticated. -/
structure Prepared (sha256 : ByteArray → JsString) (actionSpec : ActionSpec)
    (requestId : JsString) (changeSet : PreparedChangeSet) : Prop where
  exists_command : ∃ command shaped, shapeCheck sha256 actionSpec = .ok shaped ∧
    commandOf ⟨shaped.claimedTenantId, shaped.claimedActorId⟩ shaped.correlationId
      shaped.idempotencyKey shaped.payload = .ok command ∧
    changeSet = preparedChangeSetOf command ∧ requestId = command.correlationId.value

section Ports

variable {sha256 : ByteArray → JsString} {ports : Ports} {P : Call → Prop}

/-- A command makes the calls of its ports. -/
theorem calls_runCommand (h : PortsCall P ports) (command : Command) :
    Calls P (runCommand ports command) := by
  refine Calls.syncBind fun request => ?_
  refine (h.decide request).bind fun decision => ?_
  split_ifs
  · trivial
  · exact Calls.askBind (h.evaluateInvariants command) fun _ => trivial

/-- A guard that refuses makes the calls of its ports. -/
theorem calls_refuseAtGuard (h : PortsCall P ports) (outcome : Refusal) (code : ErrorCode)
    (principal : Principal) (shaped : Shaped) :
    Calls P (refuseAtGuard ports outcome code principal shaped) := by
  unfold refuseAtGuard
  split
  · exact (h.auditIdentityGuard _ ‹_› _).bind fun _ => trivial
  · trivial

/-- The calls of the pipeline are its own and those of its ports. -/
theorem calls_run (h : PortsCall P ports) (actionSpec : ActionSpec) :
    Calls P (run sha256 ports actionSpec) := by
  have hidentity : Calls P identityCurrent := Calls.askBind h.current fun _ => trivial
  unfold run
  split
  · trivial
  · refine hidentity.bind fun principal => ?_
    split_ifs
    · exact calls_refuseAtGuard h _ _ _ _
    · exact calls_refuseAtGuard h _ _ _ _
    · split
      · trivial
      · exact calls_runCommand h _

/-- Every program keeps the guarantee that asks for nothing. -/
theorem safe_any {α : Type} (p : Program kernel α) (past : History kernel) :
    Safe (fun _ _ => True) (fun _ _ => True) past p := by
  induction p generalizing past with
  | settled o => trivial
  | await c next ih => exact ⟨trivial, fun r => ih r _⟩

/-- A guard allows nothing. -/
theorem refused_of_refuseAtGuard (ports : Ports) (outcome : Refusal) (code : ErrorCode)
    (principal : Principal) (shaped : Shaped) (past : History kernel) :
    Safe (fun _ _ => True)
      (fun _ o => ∀ requestId changeSet, o ≠ .ok (.allowCommit requestId changeSet)) past
      (refuseAtGuard ports outcome code principal shaped) := by
  unfold refuseAtGuard
  split
  · refine (safe_any _ past).bind ?_ (fun _ _ _ => nofun)
    exact fun _ _ _ => nofun
  · exact nofun

/-- What is allowed of a command is its own change set. -/
theorem allowed_of_runCommand (command : Command) (past : History kernel) :
    Safe (fun _ _ => True)
      (fun _ o => ∀ requestId changeSet, o = .ok (.allowCommit requestId changeSet) →
        changeSet = preparedChangeSetOf command ∧ requestId = command.correlationId.value) past
      (runCommand ports command) := by
  unfold runCommand
  refine Safe.bind (safe_any (Program.sync _) past) ?_ (fun _ _ _ => nofun)
  intro past request _
  refine (safe_any (ports.decide request) past).bind ?_ (fun _ _ _ => nofun)
  intro past decision _
  split_ifs
  · exact nofun
  · refine (safe_any (Program.ask (I := kernel) (.evaluateInvariants command)) past).bind ?_
      (fun _ _ _ => nofun)
    intro past invariants _ requestId changeSet houtcome
    -- only the projection of the invariants can allow the commit
    have hproject : projectOutcome command invariants = .allowCommit requestId changeSet :=
      Except.ok.inj houtcome
    unfold projectOutcome at hproject
    split at hproject
    · obtain ⟨rfl, rfl⟩ := Outcome.allowCommit.inj hproject
      exact ⟨rfl, rfl⟩
    · cases hproject

/-- What the pipeline allows is prepared from the request. -/
theorem prepared_of_run (actionSpec : ActionSpec) (past : History kernel) :
    Safe (fun _ _ => True)
      (fun _ o => ∀ requestId changeSet, o = .ok (.allowCommit requestId changeSet) →
        Prepared sha256 actionSpec requestId changeSet) past (run sha256 ports actionSpec) := by
  unfold run
  cases hshape : shapeCheck sha256 actionSpec with
  | error e => exact nofun
  | ok shaped =>
    refine (safe_any identityCurrent past).bind ?_ (fun _ _ _ => nofun)
    intro past principal _
    -- a run that a guard refuses returns no change set
    have hrefused (outcome : Refusal) (code : ErrorCode) := (refused_of_refuseAtGuard ports
      outcome code principal shaped past).mono fun _ _ h requestId changeSet houtcome =>
        (show Prepared sha256 actionSpec requestId changeSet from
          absurd houtcome (h requestId changeSet))
    split_ifs with htenant hactor
    · exact hrefused _ _
    · exact hrefused _ _
    · -- past both guards the principal is the one that is claimed
      have hprincipal : principal = ⟨shaped.claimedTenantId, shaped.claimedActorId⟩ := by
        rw [← not_ne_iff.mp htenant, ← not_ne_iff.mp hactor]
      cases hcommand : commandOf principal shaped.correlationId shaped.idempotencyKey
          shaped.payload with
      | error e => exact nofun
      | ok command =>
        refine (allowed_of_runCommand command past).mono ?_
        rintro past o h requestId changeSet houtcome
        rw [hprincipal] at hcommand
        exact ⟨command, shaped, hshape, hcommand, h requestId changeSet houtcome⟩

end Ports

end CreateCustomerPipeline

end MetaframerKernel
