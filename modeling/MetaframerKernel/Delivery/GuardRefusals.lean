import MetaframerKernel.Delivery.AuditBeforeAct

/-!
# Guard refusals

What the audited handler answers and appends when a guard refuses a request is made from the
authenticated principal, the request id, the idempotency key and what the collaborators answer, and
from no value the request claims. Whatever a request writes carries the tenant of its principal.

## Main definitions

* `GuardRun`: the calls of a guard refusal, and its response;
* `SameAnswers`: two runs whose collaborators answer alike;
* `rowTenant?`, `touchedTenant?`: the tenant of the row a call writes, and of those it asks for.

## Main results

* `guardRun_of_response`: every guard refusal is such a run;
* `guard_refusals_leak_nothing`: two refusals by the same guard on the same answers are the same
  run, and every row carries the tenant of the authenticated principal.
-/

namespace MetaframerKernel

open Js Async CreateCustomerPipeline DecisionLoggingPolicyDecisionPoint

/-! ## The run of a guard refusal -/

/-- The code is one of the two guards. -/
def IsGuardCode (code : ErrorCode) : Prop := code = .crossTenantDeny ∨ code = .identityMismatch

/-- The outcome a guard refuses with. -/
def guardOutcome : ErrorCode → Refusal
  | .crossTenantDeny => .crossTenantDeny
  | _ => .deny

/-- The code of the error a response carries. -/
def Response.errorCode? (response : Response) : Option JsString :=
  match response.body with
  | .error e => some e.code
  | .commitReceipt _ => none

/-- A response that refuses with a code. -/
def RefusedWith (code : ErrorCode) (response : Response) : Prop :=
  response.errorCode? = some code.name

/-- A refusal with a code answers an error of that code. -/
theorem error_of_refusedWith {code : ErrorCode} {response : Response}
    (h : RefusedWith code response) :
    ∃ e, response.body = .error e ∧ e.code = code.name := by
  unfold RefusedWith Response.errorCode? at h
  split at h
  · next e hbody => exact ⟨e, hbody, Option.some.inj h⟩
  · cases h

/-- The calls of a guard refusal, in their order. -/
def GuardHistory (guard : Guard) (history : History kernel) : Prop :=
  ∃ reason policyRequest decision head id reading ts entry,
    identityGuardReason? guard.code = some reason ∧
    guardDecision guard reason = .ok (policyRequest, decision) ∧
    canonicalReading reading = .ok ts ∧
    DecisionLogEntry.ofRaw id policyRequest decision .null ts head = .ok entry ∧
    history = [⟨.current, .ok (some guard.principal)⟩,
      ⟨.chainHead guard.principal.tenantId, .ok head⟩, ⟨.idGenerator, .ok id⟩,
      ⟨.now, .ok reading⟩, ⟨.append entry, .ok ()⟩]

/-- A request that a guard has refused: its calls, and the response made of its request id. -/
def GuardRun (sha256 : ByteArray → JsString) (actionSpec : ActionSpec) (code : ErrorCode)
    (history : History kernel) (response : Response) : Prop :=
  ∃ shaped principal, shapeCheck sha256 actionSpec = .ok shaped ∧
    GuardHistory ⟨code, principal, shaped.correlationId, shaped.idempotencyKey⟩ history ∧
    response = responseOf (.refused (guardOutcome code) shaped.correlationId.value
      ⟨code.name, code.message, shaped.correlationId.value, false⟩)

/-- A request that a guard has refused has passed the shape check. -/
theorem GuardRun.exists_shaped {sha256 : ByteArray → JsString} {actionSpec : ActionSpec}
    {code : ErrorCode} {history : History kernel} {response : Response}
    (h : GuardRun sha256 actionSpec code history response) :
    ∃ shaped, shapeCheck sha256 actionSpec = .ok shaped := by
  obtain ⟨shaped, -, hshape, -⟩ := h
  exact ⟨shaped, hshape⟩

/-- The codes are spelled apart. -/
theorem ErrorCode.name_inj {code code' : ErrorCode} (h : code.name = code'.name) :
    code = code' := by
  revert h
  cases code <;> cases code' <;> decide

section Refusals

variable {sha256 : ByteArray → JsString} {code : ErrorCode}

variable {σ : Type} {outside : Outside kernel σ} {s : σ}

/-- The witness of a guard asks for the chain head of the principal, an id and an instant, and
appends one entry. -/
theorem history_of_identityGuardAuditor {guard : Guard}
    (h : (run outside (identityGuardAuditor guard) s).outcome = .ok ()) :
    GuardHistory guard (⟨.current, .ok (some guard.principal)⟩ ::
      (run outside (identityGuardAuditor guard) s).history) := by
  unfold identityGuardAuditor at h ⊢
  cases hreason : identityGuardReason? guard.code with
  | none =>
    rw [hreason] at h
    cases h
  | some reason =>
    simp only [hreason, clockNow, bind_assoc] at h ⊢
    -- the run is followed call by call: each of them was fulfilled
    obtain ⟨⟨policyRequest, decision⟩, hdecision, hrun⟩ := run_syncBind_eq_ok h
    rw [hrun] at h ⊢
    obtain ⟨head, s₁, h, hhead⟩ := run_askBind_eq_ok h
    obtain ⟨id, s₂, h, hid⟩ := run_askBind_eq_ok h
    obtain ⟨reading, s₃, h, hreading⟩ := run_askBind_eq_ok h
    obtain ⟨ts, hts, hrun⟩ := run_syncBind_eq_ok h
    rw [hrun] at h hreading
    obtain ⟨entry, hentry, hrun⟩ := run_syncBind_eq_ok h
    rw [hrun] at h hreading
    rw [orThrow_eq_ok] at hdecision hts hentry
    refine ⟨reason, policyRequest, decision, head, id, reading, ts, entry, hreason, hdecision, hts,
      hentry, ?_⟩
    rw [hhead, hid, hreading, history_ask_of_ok h]

/-- A guard that refuses leaves one append and the rejection in the history. -/
theorem guardHistory_of_refuseAtGuard {refusal outcome : Refusal} {code : ErrorCode}
    {principal : Principal} {shaped : Shaped} {requestId : JsString} {e : ErrorEnvelope}
    (h : (run outside (refuseAtGuard auditedPorts refusal code principal shaped) s).outcome =
      .ok (.refused outcome requestId e)) :
    GuardHistory ⟨code, principal, shaped.correlationId, shaped.idempotencyKey⟩
        (⟨.current, .ok (some principal)⟩ ::
          (run outside (refuseAtGuard auditedPorts refusal code principal shaped) s).history) ∧
      outcome = refusal ∧ requestId = shaped.correlationId.value ∧
      e = ⟨code.name, code.message, shaped.correlationId.value, false⟩ := by
  have hshape : refuseAtGuard auditedPorts refusal code principal shaped =
      identityGuardAuditor ⟨code, principal, shaped.correlationId, shaped.idempotencyKey⟩ >>=
        fun _ => pure (errorOutcome refusal shaped.correlationId.value code false) := rfl
  rw [hshape] at h ⊢
  obtain ⟨⟨⟩, haudited, h, hhistory⟩ := run_bind_eq_ok h
  obtain ⟨rfl, rfl, rfl⟩ := Outcome.refused.inj (Except.ok.inj h)
  refine ⟨?_, rfl, rfl, rfl⟩
  rw [hhistory, Program.pure_eq, run_settled, List.append_nil]
  exact history_of_identityGuardAuditor haudited

/-- A command is refused by the policy or for its invariants. -/
theorem code_of_runCommand {ports : Ports} {command : Command} {outcome : Refusal}
    {requestId : JsString} {e : ErrorEnvelope}
    (h : (run outside (runCommand ports command) s).outcome = .ok (.refused outcome requestId e)) :
    e.code = ErrorCode.policyDeny.name ∨ e.code = ErrorCode.invariantViolation.name := by
  unfold runCommand at h
  obtain ⟨request, -, hrun⟩ := run_syncBind_eq_ok h
  rw [hrun] at h
  obtain ⟨decision, -, h, -⟩ := run_bind_eq_ok h
  split_ifs at h
  · obtain ⟨-, -, rfl⟩ := Outcome.refused.inj (Except.ok.inj h)
    exact .inl rfl
  · obtain ⟨invariants, s', h, -⟩ := run_askBind_eq_ok h
    have hproject : projectOutcome command invariants = .refused outcome requestId e :=
      Except.ok.inj h
    unfold projectOutcome at hproject
    split at hproject
    · cases hproject
    · obtain ⟨-, -, rfl⟩ := Outcome.refused.inj hproject
      exact .inr rfl

/-- A refusal by a guard of the pipeline. -/
theorem guardRun_of_run {actionSpec : ActionSpec} (hcode : IsGuardCode code) {outcome : Refusal}
    {requestId : JsString} {e : ErrorEnvelope}
    (h : (run outside (CreateCustomerPipeline.run sha256 auditedPorts actionSpec) s).outcome =
      .ok (.refused outcome requestId e)) (he : e.code = code.name) :
    GuardRun sha256 actionSpec code
      (run outside (CreateCustomerPipeline.run sha256 auditedPorts actionSpec) s).history
      (responseOf (.refused outcome requestId e)) := by
  have hinvalid : code ≠ .actionSpecInvalid := by rcases hcode with rfl | rfl <;> nofun
  unfold CreateCustomerPipeline.run at h ⊢
  cases hshape : shapeCheck sha256 actionSpec with
  | error _ =>
    rw [hshape] at h
    obtain ⟨-, -, rfl⟩ := Outcome.refused.inj (Except.ok.inj h)
    exact absurd (ErrorCode.name_inj he).symm hinvalid
  | ok shaped =>
    simp only [hshape, runShaped, identityCurrent, bind_assoc] at h ⊢
    obtain ⟨candidate, s₁, h, hcurrent⟩ := run_askBind_eq_ok h
    obtain ⟨principal, hprincipal, hrun⟩ := run_syncBind_eq_ok h
    rw [hrun] at h hcurrent
    obtain rfl : candidate = some principal := by
      rw [orThrow_eq_ok] at hprincipal
      cases candidate with
      | none => cases hprincipal
      | some p => rw [Except.ok.inj hprincipal]
    have hrefuse {refusal : Refusal} {code' : ErrorCode} (hrefusal : refusal = guardOutcome code')
        (h : (run outside (refuseAtGuard auditedPorts refusal code' principal shaped) s₁).outcome =
          .ok (.refused outcome requestId e)) :
        GuardRun sha256 actionSpec code (⟨.current, .ok (some principal)⟩ ::
          (run outside (refuseAtGuard auditedPorts refusal code' principal shaped) s₁).history)
          (responseOf (.refused outcome requestId e)) := by
      obtain ⟨hhistory, rfl, rfl, rfl⟩ := guardHistory_of_refuseAtGuard h
      obtain rfl : code' = code := ErrorCode.name_inj he
      exact ⟨shaped, principal, hshape, hhistory, by rw [hrefusal]⟩
    split_ifs at h with htenant hactor
    · rw [hcurrent]
      rw [if_pos htenant]
      exact hrefuse rfl h
    · rw [hcurrent]
      rw [if_neg htenant, if_pos hactor]
      exact hrefuse rfl h
    · cases hcommand : commandOf principal shaped.correlationId shaped.idempotencyKey
          shaped.payload with
      | error _ =>
        rw [hcommand] at h
        obtain ⟨-, -, rfl⟩ := Outcome.refused.inj (Except.ok.inj h)
        exact absurd (ErrorCode.name_inj he).symm hinvalid
      | ok command =>
        rw [hcommand] at h
        -- the policy and the invariants have codes of their own
        rcases code_of_runCommand h with hother | hother
        · rw [he] at hother
          rcases hcode with rfl | rfl <;> cases ErrorCode.name_inj hother
        · rw [he] at hother
          rcases hcode with rfl | rfl <;> cases ErrorCode.name_inj hother

/-- A refusal by a guard of the service. -/
theorem guardRun_of_serviceHandle {actionSpec : ActionSpec} (hcode : IsGuardCode code)
    {outcome : Refusal} {requestId : JsString} {e : ErrorEnvelope}
    (h : (run outside (serviceHandle sha256 auditedPorts actionSpec) s).outcome =
      .ok (.refused outcome requestId e)) (he : e.code = code.name) :
    GuardRun sha256 actionSpec code
      (run outside (serviceHandle sha256 auditedPorts actionSpec) s).history
      (responseOf (.refused outcome requestId e)) := by
  unfold serviceHandle at h ⊢
  obtain ⟨answer, hanswer, h, hhistory⟩ := run_bind_eq_ok h
  rw [hhistory]
  -- a refusal is handed on as it is; what is allowed does not end as a refusal of a guard
  cases answer with
  | refused outcome' requestId' e' =>
    obtain ⟨rfl, rfl, rfl⟩ := ServiceResult.refused.inj (Except.ok.inj h)
    change GuardRun sha256 actionSpec code
      ((run outside (CreateCustomerPipeline.run sha256 auditedPorts actionSpec) s).history ++ []) _
    rw [List.append_nil]
    exact guardRun_of_run hcode hanswer he
  | allowCommit requestId' changeSet =>
    obtain ⟨receipt, -, h, -⟩ := run_bind_eq_ok h
    cases h

/-- A response that refuses with the code of a guard comes from a run of that guard. -/
theorem guardRun_of_response {request : JsValue} (hcode : IsGuardCode code) {response : Response}
    (h : (run outside (handle sha256 auditedPorts request) s).outcome = .ok response)
    (hrefused : RefusedWith code response) :
    ∃ actionSpec, buildCreateCustomerActionSpec request = .ok actionSpec ∧
      GuardRun sha256 actionSpec code
        (run outside (handle sha256 auditedPorts request) s).history response := by
  obtain ⟨e, hbody, he⟩ := error_of_refusedWith hrefused
  unfold handle at h ⊢
  cases hspec : buildCreateCustomerActionSpec request with
  | error _ =>
    rw [hspec] at h
    obtain rfl := Except.ok.inj h
    obtain rfl := ResponseBody.error.inj hbody
    rcases hcode with rfl | rfl <;> cases @ErrorCode.name_inj .actionSpecInvalid _ he
  | ok actionSpec =>
    refine ⟨actionSpec, rfl, ?_⟩
    simp only [hspec] at h ⊢
    -- the response is that of the service, or that of a conflict, which has a code of its own
    rcases run_tryCatch_eq_ok h with ⟨h, hhistory⟩ | ⟨error, -, h⟩
    · rw [hhistory]
      obtain ⟨result, hresult, h, hmap⟩ := run_bind_eq_ok h
      obtain rfl := Except.ok.inj h
      cases result with
      | committed requestId receipt => cases hbody
      | refused outcome requestId e' =>
        obtain rfl := ResponseBody.error.inj hbody
        have hrun := guardRun_of_serviceHandle hcode hresult he
        rw [← List.append_nil (run outside (serviceHandle sha256 auditedPorts actionSpec)
          s).history]
          at hrun
        exact hmap ▸ hrun
    · split_ifs at h
      · obtain rfl := Except.ok.inj h
        obtain rfl := ResponseBody.error.inj hbody
        have hconflict : lit "IDEMPOTENCY_CONFLICT" = code.name := he
        rcases hcode with rfl | rfl <;> exact absurd hconflict (by decide)
      · cases h

end Refusals

/-! ## Two refusals -/

/-- A field of a request that is a string. -/
def stringField (request : JsValue) (key : JsString) : Option JsString :=
  match request with
  | .object .objectPrototype props =>
      match JsValue.get props key with
      | .string s => some s
      | _ => none
  | _ => none

/-- The strings among the fields of a request. -/
theorem stringField_of_build {request : JsValue} {actionSpec : ActionSpec}
    (h : buildCreateCustomerActionSpec request = .ok actionSpec) {s : JsString} :
    (actionSpec.requestId = .string s → stringField request (lit "requestId") = some s) ∧
      (actionSpec.idempotencyKey = .string s →
        stringField request (lit "idempotencyKey") = some s) := by
  unfold buildCreateCustomerActionSpec at h
  split at h
  · split_ifs at h
    obtain rfl := Except.ok.inj h
    constructor
    · intro hs
      have hget : JsValue.get _ (lit "requestId") = .string s := hs
      simp only [stringField, hget]
    · intro hs
      have hget : JsValue.get _ (lit "idempotencyKey") = .string s := hs
      simp only [stringField, hget]
  · cases h

/-- Two runs whose collaborators answer alike. -/
structure SameAnswers (history history' : History kernel) : Prop where
  principal : ∀ p p', (⟨.current, .ok (some p)⟩ : Event kernel) ∈ history →
    (⟨.current, .ok (some p')⟩ : Event kernel) ∈ history' → p = p'
  chainHead : ∀ t t' v v', (⟨.chainHead t, .ok v⟩ : Event kernel) ∈ history →
    (⟨.chainHead t', .ok v'⟩ : Event kernel) ∈ history' → v = v'
  id : ∀ v v', (⟨.idGenerator, .ok v⟩ : Event kernel) ∈ history →
    (⟨.idGenerator, .ok v'⟩ : Event kernel) ∈ history' → v = v'
  now : ∀ v v', (⟨.now, .ok v⟩ : Event kernel) ∈ history →
    (⟨.now, .ok v'⟩ : Event kernel) ∈ history' → v = v'

/-- On the same answers a guard has one history. -/
theorem GuardHistory.unique {guard guard' : Guard} {history history' : History kernel}
    (h : GuardHistory guard history) (h' : GuardHistory guard' history')
    (hanswers : SameAnswers history history') (hcode : guard.code = guard'.code)
    (hcorrelation : guard.correlationId = guard'.correlationId)
    (hkey : guard.idempotencyKey = guard'.idempotencyKey) : history = history' := by
  obtain ⟨reason, policyRequest, decision, head, id, reading, ts, entry, hreason, hdecision, hts,
    hentry, rfl⟩ := h
  obtain ⟨reason', policyRequest', decision', head', id', reading', ts', entry', hreason',
    hdecision', hts', hentry', rfl⟩ := h'
  -- the answers are the same in turn, and each makes the next call the same
  have hprincipal := hanswers.principal guard.principal guard'.principal (.head _) (.head _)
  obtain rfl := hanswers.chainHead _ _ head head' (.tail _ (.head _)) (.tail _ (.head _))
  obtain rfl := hanswers.id id id' (.tail _ (.tail _ (.head _))) (.tail _ (.tail _ (.head _)))
  obtain rfl := hanswers.now reading reading' (.tail _ (.tail _ (.tail _ (.head _))))
    (.tail _ (.tail _ (.tail _ (.head _))))
  obtain rfl : guard = guard' := by
    obtain ⟨code, principal, correlationId, idempotencyKey⟩ := guard
    obtain rfl := hcode
    obtain rfl := hcorrelation
    obtain rfl := hkey
    obtain rfl : principal = guard'.principal := hprincipal
    rfl
  obtain rfl : reason = reason' := Option.some.inj (hreason.symm.trans hreason')
  obtain ⟨rfl, rfl⟩ := Prod.mk.inj (Except.ok.inj (hdecision.symm.trans hdecision'))
  obtain rfl : ts = ts' := Except.ok.inj (hts.symm.trans hts')
  obtain rfl : entry = entry' := Except.ok.inj (hentry.symm.trans hentry')
  rfl

/-- A key that passes its checks is a string. -/
theorem string_of_idempotencyKey {sha256 : ByteArray → JsString} {raw : JsValue}
    {key : IdempotencyKey} (h : IdempotencyKey.ofRaw sha256 raw = .ok key) :
    ∃ s, raw = .string s := by
  cases raw with
  | string s => exact ⟨s, rfl⟩
  | _ => cases h

/-- The string fields of a request tell its id and its key, where they pass the shape check. -/
theorem raw_eq_of_stringField {sha256 : ByteArray → JsString} {request request' : JsValue}
    {actionSpec actionSpec' : ActionSpec} {shaped shaped' : Shaped}
    (hspec : buildCreateCustomerActionSpec request = .ok actionSpec)
    (hspec' : buildCreateCustomerActionSpec request' = .ok actionSpec')
    (hshape : shapeCheck sha256 actionSpec = .ok shaped)
    (hshape' : shapeCheck sha256 actionSpec' = .ok shaped')
    (hid : stringField request (lit "requestId") = stringField request' (lit "requestId"))
    (hkey : stringField request (lit "idempotencyKey") =
      stringField request' (lit "idempotencyKey")) :
    actionSpec.requestId = actionSpec'.requestId ∧
      actionSpec.idempotencyKey = actionSpec'.idempotencyKey := by
  obtain ⟨hraw, -, -, hrawKey⟩ := shapeCheck_eq_ok hshape
  obtain ⟨hraw', -, -, hrawKey'⟩ := shapeCheck_eq_ok hshape'
  obtain ⟨key, hstring⟩ := string_of_idempotencyKey hrawKey
  obtain ⟨key', hstring'⟩ := string_of_idempotencyKey hrawKey'
  -- past the shape check the two fields are strings, and the raw fields say which
  rw [(stringField_of_build hspec).1 hraw, (stringField_of_build hspec').1 hraw',
    Option.some.injEq] at hid
  rw [(stringField_of_build hspec).2 hstring, (stringField_of_build hspec').2 hstring',
    Option.some.injEq] at hkey
  exact ⟨by rw [hraw, hraw', hid], by rw [hstring, hstring', hkey]⟩

/-- On the same answers a guard refuses two requests of one id and key with one run. -/
theorem GuardRun.unique {sha256 : ByteArray → JsString} {actionSpec actionSpec' : ActionSpec}
    {code : ErrorCode} {history history' : History kernel} {response response' : Response}
    (h : GuardRun sha256 actionSpec code history response)
    (h' : GuardRun sha256 actionSpec' code history' response')
    (hrequestId : actionSpec.requestId = actionSpec'.requestId)
    (hkey : actionSpec.idempotencyKey = actionSpec'.idempotencyKey)
    (hanswers : SameAnswers history history') : history = history' ∧ response = response' := by
  obtain ⟨shaped, principal, hshape, hhistory, rfl⟩ := h
  obtain ⟨shaped', principal', hshape', hhistory', rfl⟩ := h'
  obtain ⟨hid, -, -, hkeyOf⟩ := shapeCheck_eq_ok hshape
  obtain ⟨hid', -, -, hkeyOf'⟩ := shapeCheck_eq_ok hshape'
  have hcorrelation : shaped.correlationId = shaped'.correlationId := by
    refine CorrelationId.value_inj (JsValue.string.inj ?_)
    rw [← hid, ← hid', hrequestId]
  have hsameKey : shaped.idempotencyKey = shaped'.idempotencyKey := by
    rw [hkey] at hkeyOf
    exact Except.ok.inj (hkeyOf.symm.trans hkeyOf')
  refine ⟨hhistory.unique hhistory' hanswers rfl hcorrelation hsameKey, ?_⟩
  rw [hcorrelation]

/-! ## The tenant of a row -/

/-- The tenant of the row a call writes, and of the context it is written in. -/
def rowTenant? : Call → Option JsString
  | .append entry => some entry.request.tenantId.value
  | .query _ statement => statement.tenantId?
  | _ => none

/-- The tenant whose rows a call writes or asks for. -/
def touchedTenant? : Call → Option JsString
  | .chainHead tenantId => some tenantId.value
  | c => rowTenant? c

/-- A row that is written is touched. -/
theorem touchedTenant?_of_row {c : Call} {t : JsString} (h : rowTenant? c = some t) :
    touchedTenant? c = some t := by
  cases c with
  | chainHead tenantId => cases h
  | _ => exact h

/-- The call writes and asks for rows of the tenant of the principal only, and asks for no other
principal. -/
def IsRowOf (principal : Principal) (c : Call) : Prop :=
  c ≠ .current ∧ ∀ t, touchedTenant? c = some t → t = principal.tenantId.value

/-- The history of a request of this principal. -/
def IsOf (principal : Principal) (past : History kernel) : Prop :=
  ∃ rest, past = ⟨.current, .ok (some principal)⟩ :: rest

/-- The principal is asked for by the first call, and every later one touches rows of its tenant. -/
def TenantGuard (past : History kernel) (c : Call) : Prop :=
  c = .current ∧ past = [] ∨ ∃ principal, IsOf principal past ∧ IsRowOf principal c

section Tenant

variable {sha256 : ByteArray → JsString} {principal : Principal} {past : History kernel}

/-- The principal of a history stays so. -/
theorem IsOf.snoc (h : IsOf principal past) (ev : Event kernel) :
    IsOf principal (past ++ [ev]) := by
  obtain ⟨rest, rfl⟩ := h
  exact ⟨rest ++ [ev], rfl⟩

/-- Calls of the principal keep the guard. -/
theorem safe_rows {α : Type} {p : Program kernel α} (hp : Calls (IsRowOf principal) p)
    (h : IsOf principal past) :
    Safe TenantGuard (fun past _ => IsOf principal past) past p := by
  have hkeep := (hp.safe past).keep h fun _ _ _ _ h => h.snoc _
  exact (hkeep.weaken fun past c hc => .inr ⟨principal, hc.2, hc.1⟩).mono fun _ _ h => h.2

/-- A call that touches no row. -/
theorem isRowOf_of_none {c : Call} (hc : c ≠ .current) (h : touchedTenant? c = none) :
    IsRowOf principal c := by
  refine ⟨hc, fun t ht => ?_⟩
  rw [h] at ht
  cases ht

/-- The chain head of the principal's tenant. -/
theorem isRowOf_chainHead {tenantId : TenantId} (h : tenantId = principal.tenantId) :
    IsRowOf principal (.chainHead tenantId) := by
  refine ⟨nofun, ?_⟩
  rintro t ⟨⟩
  rw [h]

/-- An append of an entry on a request of the principal's tenant. -/
theorem isRowOf_append {entry : DecisionLogEntry}
    (h : entry.request.tenantId = principal.tenantId) : IsRowOf principal (.append entry) := by
  refine ⟨nofun, ?_⟩
  rintro t ⟨⟩
  rw [h]

/-- The witness of a guard writes a row of the principal's tenant. -/
theorem rows_identityGuardAuditor (guard : Guard) :
    Calls (IsRowOf guard.principal) (identityGuardAuditor guard) := by
  unfold identityGuardAuditor
  split
  · trivial
  rename_i reason _
  cases hguard : guardDecision guard reason with
  | error e => trivial
  | ok d =>
    obtain ⟨policyRequest, decision⟩ := d
    refine Calls.askBind (isRowOf_chainHead rfl) fun head => ?_
    refine Calls.askBind (isRowOf_of_none nofun rfl) fun id => ?_
    refine Calls.bind (p := clockNow)
      (Calls.askBind (isRowOf_of_none nofun rfl) fun _ => trivial) fun ts => ?_
    cases hentry : DecisionLogEntry.ofRaw id policyRequest decision .null ts head with
    | error e => trivial
    | ok entry =>
      refine Calls.ask (isRowOf_append ?_)
      rw [(fields_of_ofRaw hentry).1, PolicyRequest.tenantId, (guardDecision_eq_ok hguard).1]

/-- A decision writes a row of the tenant of its request. -/
theorem rows_decide {policyRequest : PolicyRequest}
    (h : policyRequest.tenantId = principal.tenantId) :
    Calls (IsRowOf principal) (auditedPorts.decide policyRequest) := by
  refine Calls.bind (p := logOne policyRequest (readChainHead policyRequest)) ?_ fun _ => trivial
  refine Calls.askBind (isRowOf_of_none nofun rfl) fun candidates => ?_
  refine Calls.syncBind fun decision => Calls.syncBind fun layer => ?_
  refine Calls.askBind (isRowOf_chainHead h) fun head => ?_
  refine Calls.askBind (isRowOf_of_none nofun rfl) fun id => ?_
  refine Calls.bind (p := clockNow)
    (Calls.askBind (isRowOf_of_none nofun rfl) fun _ => trivial) fun ts => ?_
  cases hentry : DecisionLogEntry.ofRaw id policyRequest decision layer ts head with
  | error e => trivial
  | ok entry =>
    refine Calls.askBind (isRowOf_append ?_) fun _ => trivial
    rw [(fields_of_ofRaw hentry).1, h]

/-- What ports write for a principal are rows of its tenant. -/
structure PortsRow (ports : Ports) : Prop where
  decide : ∀ {principal : Principal} {policyRequest : PolicyRequest},
    policyRequest.tenantId = principal.tenantId →
      Calls (IsRowOf principal) (ports.decide policyRequest)
  auditIdentityGuard : ∀ f, ports.auditIdentityGuard = some f →
    ∀ guard : Guard, Calls (IsRowOf guard.principal) (f guard)

/-- The audited ports write rows of the principal's tenant only. -/
theorem portsRow_audited : PortsRow auditedPorts where
  decide := rows_decide
  auditIdentityGuard := by
    rintro _ ⟨⟩ guard
    exact rows_identityGuardAuditor guard

/-- The plain ports write rows of the principal's tenant only. -/
theorem portsRow_plain : PortsRow plainPorts where
  decide _ := Calls.askBind (isRowOf_of_none nofun rfl) fun _ => trivial
  auditIdentityGuard _ := nofun

/-- A command of the principal writes rows of its tenant. -/
theorem rows_runCommand {ports : Ports} (hports : PortsRow ports) {command : Command}
    (h : command.principal = principal) :
    Calls (IsRowOf principal) (runCommand ports command) := by
  unfold runCommand
  cases hrequest : policyRequestOf command (literal []) with
  | error e => trivial
  | ok policyRequest =>
    have htenant : policyRequest.tenantId = principal.tenantId := by
      rw [PolicyRequest.tenantId, policyRequestOf_eq_ok hrequest, ← h]
      rfl
    refine (hports.decide htenant).bind fun decision => ?_
    split_ifs
    · trivial
    · exact Calls.askBind (isRowOf_of_none (by rintro ⟨⟩) rfl) fun _ => trivial

/-- A refusal by a guard writes rows of the principal's tenant. -/
theorem rows_refuseAtGuard {ports : Ports} (hports : PortsRow ports) (outcome : Refusal)
    (code : ErrorCode) (shaped : Shaped) :
    Calls (IsRowOf principal) (refuseAtGuard ports outcome code principal shaped) := by
  unfold refuseAtGuard
  split
  · exact (hports.auditIdentityGuard _ ‹_› ⟨code, principal, shaped.correlationId,
      shaped.idempotencyKey⟩).bind fun _ => trivial
  · trivial

/-- What the pipeline lets through is a change set of the principal's tenant. -/
theorem safe_tenant_run {ports : Ports} (hports : PortsRow ports) (actionSpec : ActionSpec) :
    Safe TenantGuard
      (fun past o => ∀ requestId changeSet, o = .ok (.allowCommit requestId changeSet) →
        ∃ principal, IsOf principal past ∧
          changeSet.customer.tenantId = principal.tenantId.value) []
      (CreateCustomerPipeline.run sha256 ports actionSpec) := by
  unfold CreateCustomerPipeline.run
  cases hshape : shapeCheck sha256 actionSpec with
  | error e => exact nofun
  | ok shaped =>
    have hidentity : Safe TenantGuard
        (fun past o => ∀ principal, o = .ok principal → IsOf principal past) []
        identityCurrent := by
      refine ⟨.inl ⟨rfl, rfl⟩, fun r => ?_⟩
      rcases r with e | _ | principal
      · exact nofun
      · exact nofun
      · rintro _ ⟨⟩
        exact ⟨[], rfl⟩
    refine hidentity.bind ?_ fun _ _ _ => nofun
    intro past principal hprincipal
    have hof := hprincipal principal rfl
    -- a refusal writes rows of the principal, and lets nothing through
    have hrefuse (outcome : Refusal) (code : ErrorCode) : Safe TenantGuard
        (fun past o => ∀ requestId changeSet, o = .ok (.allowCommit requestId changeSet) →
          ∃ principal, IsOf principal past ∧
            changeSet.customer.tenantId = principal.tenantId.value) past
        (refuseAtGuard ports outcome code principal shaped) := by
      have hrows := safe_rows (rows_refuseAtGuard hports outcome code shaped) hof
      refine ((hrows.and (refused_of_refuseAtGuard ports outcome code
        principal shaped past)).weaken fun _ _ h => h.1).mono ?_
      rintro past o ⟨-, hrefused⟩ requestId changeSet houtcome
      exact absurd houtcome (hrefused requestId changeSet)
    split_ifs
    · exact hrefuse _ _
    · exact hrefuse _ _
    · cases hcommand : commandOf principal shaped.correlationId shaped.idempotencyKey
          shaped.payload with
      | error e => exact nofun
      | ok command =>
        -- the command, and so the change set, is of the principal that was asked for
        have hown : command.principal = principal := (commandOf_eq_ok hcommand).1
        refine (((safe_rows (rows_runCommand hports hown) hof).and
          (allowed_of_runCommand command past)).weaken fun _ _ h => h.1).mono ?_
        rintro past o ⟨hof, hallowed⟩ requestId changeSet houtcome
        refine ⟨principal, hof, ?_⟩
        rw [(hallowed requestId changeSet houtcome).1, preparedChangeSetOf, hown]

/-- The commit of a change set touches rows of its tenant. -/
theorem rows_commitChangeSet {changeSet : PreparedChangeSet} {requestId : JsString}
    {idempotencyKey : JsValue} (h : changeSet.customer.tenantId = principal.tenantId.value) :
    Calls (IsRowOf principal) (commitChangeSet changeSet requestId idempotencyKey) := by
  refine calls_commitChangeSet_of (isRowOf_of_none nofun rfl)
    (fun _ => isRowOf_of_none nofun rfl) fun client statement htenant => ?_
  refine ⟨nofun, fun t ht => ?_⟩
  rw [htenant t ht, h]

/-- The handler asks for the principal first, and whatever it writes carries its tenant. -/
theorem safe_tenant_handle {ports : Ports} (hports : PortsRow ports)
    (sha256 : ByteArray → JsString) (request : JsValue) :
    Safe TenantGuard (fun _ _ => True) [] (handle sha256 ports request) := by
  unfold handle
  cases hspec : buildCreateCustomerActionSpec request with
  | error e => trivial
  | ok actionSpec =>
    -- a change set carries the tenant of the principal that was asked for it
    have hservice : Safe TenantGuard (fun _ _ => True) []
        (serviceHandle sha256 ports actionSpec) := by
      refine (safe_tenant_run hports actionSpec).bind ?_ fun _ _ _ => trivial
      intro past outcome houtcome
      cases outcome with
      | refused outcome requestId e => trivial
      | allowCommit requestId changeSet =>
        obtain ⟨principal, hof, htenant⟩ := houtcome requestId changeSet rfl
        refine (safe_rows (rows_commitChangeSet htenant) hof).bind ?_ fun _ _ _ => trivial
        exact fun _ _ _ => trivial
    refine Safe.tryCatch (Q := fun _ _ => True) ?_ (fun _ _ _ => trivial) fun past error _ => ?_
    · exact hservice.bind (fun _ _ _ => trivial) fun _ _ _ => trivial
    · split_ifs <;> trivial

/-- A call of a run that writes a row comes after the principal was authenticated, and the row is
of its tenant. -/
theorem rowTenant_of_run {σ : Type} (outside : Outside kernel σ) (s : σ) (request : JsValue)
    {before after : History kernel} {ev : Event kernel}
    (h : (run outside (handle sha256 auditedPorts request) s).history = before ++ ev :: after)
    {t : JsString} (ht : rowTenant? ev.1 = some t) :
    ∃ principal, Authenticated before principal ∧ t = principal.tenantId.value ∧
      ∀ other, Authenticated (run outside (handle sha256 auditedPorts request) s).history other →
        other = principal := by
  have hsafe := safe_tenant_handle portsRow_audited sha256 request
  have hsteps := steps_run outside (handle sha256 auditedPorts request) s
  obtain ⟨hcurrent, -⟩ | ⟨principal, ⟨rest, hrest⟩, -, hrow⟩ := hsafe.guard_of_steps hsteps h
  · rw [hcurrent] at ht
    cases ht
  · rw [List.nil_append] at hrest
    have hsame := hrow t (touchedTenant?_of_row ht)
    refine ⟨principal, by rw [hrest]; exact List.mem_cons_self, hsame, fun other hother => ?_⟩
    -- the principal is asked for once, by the first call
    obtain ⟨before', after', hsplit⟩ := List.append_of_mem hother
    obtain ⟨-, hnil⟩ | ⟨_, _, hne, -⟩ := hsafe.guard_of_steps hsteps hsplit
    · rw [List.nil_append] at hnil
      rw [h, hrest, hnil] at hsplit
      have hsame := (List.cons.inj hsplit).1
      simpa using hsame.symm
    · exact absurd rfl hne

end Tenant

/-- Two requests of one id and idempotency key that the same guard refuses, on the same principal,
chain head, id and instant, are answered alike and append the same entries, whatever else they
claim; and every row a request writes, of the decision log or of the three tables, carries the
tenant of the principal it was authenticated as. -/
theorem guard_refusals_leak_nothing {σ τ : Type} (sha256 : ByteArray → JsString)
    (outside : Outside kernel σ) (outside' : Outside kernel τ) (s : σ) (s' : τ)
    (request request' : JsValue) :
    let r := run outside (handle sha256 auditedPorts request) s
    let r' := run outside' (handle sha256 auditedPorts request') s'
    (∀ code response response', IsGuardCode code →
      r.outcome = .ok response → RefusedWith code response →
      r'.outcome = .ok response' → RefusedWith code response' →
      stringField request (lit "requestId") = stringField request' (lit "requestId") →
      stringField request (lit "idempotencyKey") = stringField request' (lit "idempotencyKey") →
      SameAnswers r.history r'.history →
        response = response' ∧ appended r.history = appended r'.history ∧
          r.history = r'.history) ∧
    ∀ before ev after t, r.history = before ++ ev :: after → rowTenant? ev.1 = some t →
      ∃ principal, Authenticated before principal ∧ t = principal.tenantId.value ∧
        ∀ other, Authenticated r.history other → other = principal := by
  intro r r'
  constructor
  · -- a run that a guard refuses is determined by the id, the key and the answers
    intro code response response' hcode hanswered hrefused hanswered' hrefused' hid hkey hanswers
    obtain ⟨actionSpec, hspec, hrun⟩ := guardRun_of_response hcode hanswered hrefused
    obtain ⟨actionSpec', hspec', hrun'⟩ := guardRun_of_response hcode hanswered' hrefused'
    obtain ⟨shaped, hshape⟩ := hrun.exists_shaped
    obtain ⟨shaped', hshape'⟩ := hrun'.exists_shaped
    obtain ⟨hrequestId, hrawKey⟩ := raw_eq_of_stringField hspec hspec' hshape hshape' hid hkey
    obtain ⟨hhistory, hresponse⟩ := hrun.unique hrun' hrequestId hrawKey hanswers
    exact ⟨hresponse, congrArg appended hhistory, hhistory⟩
  · intro before ev after t h ht
    exact rowTenant_of_run outside s request h ht

/-- Collaborators that authenticate the sample principal, over an empty log. -/
def guarding : Outside kernel Unit := fun c s =>
  match c with
  | .current => (.ok (some PolicyRequest.sample.action.principal), s)
  | .chainHead _ => (.ok .null, s)
  | .idGenerator => (.ok (.string (lit "01ARZ3NDEKTSV4RRFFQ69G5FAV")), s)
  | .now => (.ok (.string (lit "2026-01-01T00:00:00.000Z")), s)
  | .append _ => (.ok (), s)
  | _ => (.error (.foreign none none), s)

/-- A request that claims another tenant. -/
def foreignRequest (tenantId actorId : String) (payload : JsValue) : JsValue :=
  literal
    [("requestId", .string (lit "22222222-2222-4222-8222-222222222222")),
      ("actorId", .string (lit actorId)), ("tenantId", .string (lit tenantId)),
      ("payload", payload), ("idempotencyKey", .string (lit "key-1"))]

/-- The answers of these collaborators are the same in all runs. -/
theorem sameAnswers_guarding (p q : Program kernel Response) :
    SameAnswers (run guarding p ()).history (run guarding q ()).history where
  principal p p' h h' := by
    obtain ⟨_, hp⟩ := mem_history_run h
    obtain ⟨_, hp'⟩ := mem_history_run h'
    exact Option.some.inj (Except.ok.inj (hp.trans hp'.symm))
  chainHead t t' v v' h h' := by
    obtain ⟨_, hv⟩ := mem_history_run h
    obtain ⟨_, hv'⟩ := mem_history_run h'
    exact Except.ok.inj (hv.trans hv'.symm)
  id v v' h h' := by
    obtain ⟨_, hv⟩ := mem_history_run h
    obtain ⟨_, hv'⟩ := mem_history_run h'
    exact Except.ok.inj (hv.trans hv'.symm)
  now v v' h h' := by
    obtain ⟨_, hv⟩ := mem_history_run h
    obtain ⟨_, hv'⟩ := mem_history_run h'
    exact Except.ok.inj (hv.trans hv'.symm)

/-- The code an outcome carries. -/
def codeOf : Except Thrown Response → Option JsString
  | .ok response => response.errorCode?
  | .error _ => none

/-- A response of that code is a refusal with it. -/
theorem refused_of_codeOf {o : Except Thrown Response} {code : ErrorCode}
    (h : codeOf o = some code.name) : ∃ response, o = .ok response ∧ RefusedWith code response := by
  cases o with
  | ok response => exact ⟨response, rfl, h⟩
  | error e => cases h

/-- Two requests to other tenants, with other actors and payloads. -/
theorem guard_refusals_leak_nothing_sample :
    ∃ response,
      (run guarding (handle (fun _ => lit "0") auditedPorts
        (foreignRequest "55555555-5555-4555-8555-555555555555" "mallory" (literal [])))
          ()).outcome =
          .ok response ∧
      (run guarding (handle (fun _ => lit "0") auditedPorts
        (foreignRequest "66666666-6666-4666-8666-666666666666" "clerk"
          (literal [("name", .string (lit "Ada"))]))) ()).outcome = .ok response ∧
      RefusedWith .crossTenantDeny response := by
  obtain ⟨response, hanswered, hrefused⟩ := @refused_of_codeOf
    (run guarding (handle (fun _ => lit "0") auditedPorts
      (foreignRequest "55555555-5555-4555-8555-555555555555" "mallory" (literal []))) ()).outcome
    .crossTenantDeny (by decide +kernel)
  -- another actor of another tenant, with another payload
  obtain ⟨response', hanswered', hrefused'⟩ := @refused_of_codeOf
    (run guarding (handle (fun _ => lit "0") auditedPorts
      (foreignRequest "66666666-6666-4666-8666-666666666666" "clerk"
        (literal [("name", .string (lit "Ada"))]))) ()).outcome
    .crossTenantDeny (by decide +kernel)
  have hsame := (guard_refusals_leak_nothing (fun _ => lit "0") guarding guarding () () _ _).1
    .crossTenantDeny response response' (.inl rfl) hanswered hrefused hanswered' hrefused'
    (by decide +kernel) (by decide +kernel) (sameAnswers_guarding _ _)
  exact ⟨response, hanswered, hsame.1 ▸ hanswered', hrefused⟩

end MetaframerKernel
