import MetaframerKernel.Adapters.PostgresWriteEnvelopeWrite
import MetaframerKernel.Application.DecisionLoggingPolicyDecisionPoint

/-!
# The create-customer request handler

A request through the pipeline and, where it is allowed, through the write transaction, answered
with a status and a body; and the two compositions the handler is built in.

## Main definitions

* `Response`: what a request is answered with;
* `serviceHandle`, `handle`: the commit service and the handler;
* `plainPorts`, `auditedPorts`: the ports the two compositions give the pipeline.
-/

namespace MetaframerKernel

open Js Async CreateCustomerPipeline

/-! ## Responses -/

/-- The outcome of a response. -/
inductive ResponseOutcome where
  | committed
  | refused (outcome : Refusal)
  | idempotencyConflict
deriving DecidableEq

/-- The string an outcome is spelled by. -/
def ResponseOutcome.name : ResponseOutcome → JsString
  | committed => lit "COMMITTED"
  | refused outcome => outcome.name
  | idempotencyConflict => lit "IDEMPOTENCY_CONFLICT"

/-- The body of a response. -/
inductive ResponseBody where
  | commitReceipt (receipt : CommitReceipt)
  | error (e : ErrorEnvelope)
deriving DecidableEq

/-- A delivery response. -/
structure Response where
  status : ℕ
  requestId : JsString
  outcome : ResponseOutcome
  body : ResponseBody
deriving DecidableEq

/-- `idempotencyConflictResponse` -/
def idempotencyConflictResponse (requestId : JsString) : Response where
  status := 409
  requestId := requestId
  outcome := .idempotencyConflict
  body := .error {
    code := lit "IDEMPOTENCY_CONFLICT"
    message := lit "a request with this idempotency fingerprint was already committed"
    requestId := requestId
    retryable := false }

/-- `invalidActionSpecResponse` -/
def invalidActionSpecResponse (request : JsValue) : Response where
  status := 400
  requestId := rawRequestIdOf request
  outcome := .refused .invalid
  body := .error {
    code := lit "ACTION_SPEC_INVALID"
    message := lit "the request did not satisfy the CreateCustomer@1 delivery shape"
    requestId := rawRequestIdOf request
    retryable := false }

/-- The request of the sample principal to create a customer, for examples. -/
def sampleRequest : JsValue :=
  literal
    [("requestId", .string (lit "22222222-2222-4222-8222-222222222222")),
      ("actorId", .string (lit "clerk")),
      ("tenantId", .string (lit "11111111-1111-4111-8111-111111111111")),
      ("payload", literal [("name", .string (lit "Ada"))]),
      ("idempotencyKey", .string (lit "key-1"))]

/-! ## The commit service -/

/-- What the commit service answers. -/
inductive ServiceResult where
  | committed (requestId : JsString) (commitReceipt : CommitReceipt)
  | refused (outcome : Refusal) (requestId : JsString) (error : ErrorEnvelope)

section Handler

variable (sha256 : ByteArray → JsString) (ports : Ports)

/-- `handle` of `CreateCustomerCommitService`. -/
def serviceHandle (actionSpec : ActionSpec) : Program kernel ServiceResult := do
  let outcome ← CreateCustomerPipeline.run sha256 ports actionSpec
  match outcome with
  | .refused outcome requestId error => return .refused outcome requestId error
  | .allowCommit requestId preparedChangeSet => do
      let commitReceipt ←
        commitChangeSet preparedChangeSet requestId actionSpec.idempotencyKey
      return .committed requestId commitReceipt

/-! ## The handler -/

/-- The response to what the service answers. -/
def responseOf : ServiceResult → Response
  | .committed requestId commitReceipt =>
      { status := 201, requestId, outcome := .committed, body := .commitReceipt commitReceipt }
  | .refused outcome requestId error =>
      { status := if outcome = .invalid then 400 else 403
        requestId
        outcome := .refused outcome
        body := .error error }

/-- `handle` of `CreateCustomerRequestHandler`. -/
def handle (request : JsValue) : Program kernel Response :=
  match buildCreateCustomerActionSpec request with
  | .error _ => return invalidActionSpecResponse request
  | .ok actionSpec =>
      tryCatch (responseOf <$> serviceHandle sha256 ports actionSpec) fun error =>
        if error.isIdempotencyConflictError then
          return idempotencyConflictResponse (rawRequestIdOf request)
        else throw error

end Handler

/-! ## The compositions -/

/-- `decide` of `PolicyDecisionPoint`. -/
def PolicyDecisionPoint.decide (request : PolicyRequest) : Program kernel PolicyDecision := do
  let candidates : JsValue ← Program.ask (I := kernel) (.candidatesFor request)
  Program.sync (orThrow (AuthorizationEvaluator.decide request candidates))

/-- The ports of `createCustomerComposition`. -/
def plainPorts : Ports where
  decide := PolicyDecisionPoint.decide
  auditIdentityGuard := none

/-- `IDENTITY_GUARD_REASONS` -/
def identityGuardReason? : ErrorCode → Option JsString
  | .crossTenantDeny => some (lit ("identity guard: the authenticated principal does not hold " ++
      "the tenant this request claimed, so the request was refused at the system layer before " ++
      "any policy was consulted"))
  | .identityMismatch => some (lit ("identity guard: the authenticated principal is not the " ++
      "actor this request claimed, so the request was refused at the system layer before any " ++
      "policy was consulted"))
  | _ => none

/-- The request, and the decision that was never taken, of a guard refusal. -/
def guardDecision (guard : Guard) (reason : JsString) :
    Except NativeError (PolicyRequest × PolicyDecision) := do
  let action ← commandOf guard.principal guard.correlationId guard.idempotencyKey (literal [])
  let request ← policyRequestOf action
    (literal [("stage", .string (lit "identityTenantGuard")), ("guard", .string guard.code.name)])
  let decision ← PolicyDecision.ofRaw (.string Effect.deny.name) (.string reason) .null
    guard.correlationId
  return (request, decision)

/-- `createIdentityGuardAuditor` -/
def identityGuardAuditor (guard : Guard) : Program kernel Unit :=
  match identityGuardReason? guard.code with
  | none =>
      Program.sync (orThrow (.error (.typeError
        (lit "createAuditedCustomerComposition cannot audit an unknown identity-guard code: " ++
          guard.code.name))))
  | some reason => do
      -- the refusal is logged as a decision of its own, under the trusted principal
      let (request, decision) ← Program.sync (orThrow (guardDecision guard reason))
      let prevHash : JsValue ← Program.ask (I := kernel) (.chainHead guard.principal.tenantId)
      let id : JsValue ← Program.ask (I := kernel) .idGenerator
      let ts ← clockNow
      let entry ← Program.sync
        (orThrow (DecisionLogEntry.ofRaw id request decision .null ts prevHash))
      Program.ask (I := kernel) (.append entry)

/-- The ports of `createAuditedCustomerComposition`. -/
def auditedPorts : Ports where
  decide := DecisionLoggingPolicyDecisionPoint.decide
  auditIdentityGuard := some identityGuardAuditor

/-! ## What the ports call -/

/-- The calls of collaborators, as opposed to those of the connection pool. -/
def IsCollaborator : Call → Prop
  | .connect => False
  | .query .. => False
  | .release _ => False
  | _ => True

theorem portsCall_plain : PortsCall IsCollaborator plainPorts where
  current := trivial
  evaluateInvariants _ := trivial
  decide _ := Calls.askBind trivial fun _ => trivial
  auditIdentityGuard _ := nofun

theorem portsCall_audited : PortsCall IsCollaborator auditedPorts where
  current := trivial
  evaluateInvariants _ := trivial
  -- the audited decision asks for candidates, head, id and time, and appends
  decide request := by
    refine Calls.bind (p := DecisionLoggingPolicyDecisionPoint.logOne _ _) ?_ fun _ => trivial
    refine Calls.askBind trivial fun candidates => ?_
    refine Calls.syncBind fun decision => ?_
    refine Calls.syncBind fun layerResolved => ?_
    refine Calls.bind (Calls.ask trivial) fun prevHash => ?_
    refine Calls.askBind trivial fun id => ?_
    refine Calls.bind (p := clockNow) (Calls.askBind trivial fun _ => trivial) fun ts => ?_
    refine Calls.syncBind fun entry => ?_
    exact Calls.askBind trivial fun _ => trivial
  auditIdentityGuard := by
    rintro _ ⟨⟩ guard
    unfold identityGuardAuditor
    split
    · trivial
    · refine Calls.syncBind fun d => ?_
      refine Calls.askBind trivial fun prevHash => ?_
      refine Calls.askBind trivial fun id => ?_
      refine Calls.bind (p := clockNow) (Calls.askBind trivial fun _ => trivial) fun ts => ?_
      exact Calls.syncBind fun entry => Calls.ask trivial

end MetaframerKernel
