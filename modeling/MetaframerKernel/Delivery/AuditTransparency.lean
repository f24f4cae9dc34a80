import MetaframerKernel.Application.CanonicalText
import MetaframerKernel.Application.Clock
import MetaframerKernel.Application.LoggedDecision
import MetaframerKernel.Async.Simulation
import MetaframerKernel.Delivery.CreateCustomerRequestHandler

/-!
# The transparency of the audit

The audited composition looks a layer up, reads a chain head, an id and an instant and appends an
entry, for a decision and for a refusal of the guards alike. As long as these calls resolve validly,
nothing else about a request changes: it is answered as the unaudited composition answers it, after
the same statements.

## Main definitions

* `audited`: the calls the two compositions share, and which of their answers are alike;
* `Response.UpToGenerated`: the same response, up to generated row ids and times.

## Main results

* `simulates_decide`: the logging decision point answers what the plain one answers;
* `simulates_refuseAtGuard`: a guard refuses the same with its witness and without;
* `audit_transparent`: a request is answered alike in both compositions.
-/

namespace MetaframerKernel

open Js Async CreateCustomerPipeline

/-! ## The two compositions compared -/

/-- The calls that only the audited composition makes. -/
def isAuditCall : Call → Bool
  | .idGenerator => true
  | .now => true
  | .chainHead _ => true
  | .append _ => true
  | _ => false

/-- What the calls of the audit resolve to: a ULID, an instant, the hash of an entry or none, and
nothing. -/
def ResolvesValidly : (c : Call) → kernel.Settled c → Prop
  | .idGenerator, r => ∃ s, isUlid s = true ∧ r = .ok (.string s)
  | .now, r => ∃ s, isInstant s = true ∧ r = .ok (.string s)
  | .chainHead _, r => ∃ hash : Option JsString, (∀ h ∈ hash, isHex64 h = true) ∧
      r = .ok (DecisionLoggingPolicyDecisionPoint.headValue hash)
  | .append _, r => r = .ok ()
  | _, _ => True

/-- A generated value: both times the same, or any two of their kind. -/
def Generated (kind : JsString → Bool) (s s' : JsString) : Prop :=
  s = s' ∨ kind s = true ∧ kind s' = true

/-- Answers that are the same up to generated row ids and times. -/
def UpToGenerated : (c : Call) → kernel.Settled c → kernel.Settled c → Prop
  | .query _ (.insertCustomer ..), r, r' =>
      Alike (fun row row' : InsertedCustomer => Generated isNonBlank row.id row'.id ∧
        Generated isInstant row.recordedAt row'.recordedAt) r r'
  | .query _ (.insertAudit ..), r, r' => Alike (Generated isNonBlank) r r'
  | .query _ (.insertOutbox ..), r, r' => Alike (Generated isNonBlank) r r'
  | _, r, r' => r = r'

/-- The unaudited composition and the audited one. -/
def audited : View kernel where
  shared c := !isAuditCall c
  valid := ResolvesValidly
  like := UpToGenerated

/-- Receipts of the same request. -/
def CommitReceipt.SameRequest (r r' : CommitReceipt) : Prop :=
  r.requestId = r'.requestId ∧ r.tenantId = r'.tenantId ∧ r.idempotencyKey = r'.idempotencyKey

/-- Bodies that are the same up to generated row ids and times. -/
def ResponseBody.UpToGenerated : ResponseBody → ResponseBody → Prop
  | .commitReceipt r, .commitReceipt r' => r.SameRequest r'
  | .error e, .error e' => e = e'
  | _, _ => False

/-- Responses that are the same up to generated row ids and times. -/
structure Response.UpToGenerated (r r' : Response) : Prop where
  status : r.status = r'.status
  requestId : r.requestId = r'.requestId
  outcome : r.outcome = r'.outcome
  body : r.body.UpToGenerated r'.body

/-! ## The record of a decision -/

namespace DecisionLogEntry

/-- An instant is admitted as a timestamp. -/
theorem exists_timestampValue {s : JsString} (h : isInstant s = true) :
    ∃ ts, timestampValue (.string s) = .ok ts := by
  obtain ⟨ts, hts, -⟩ := map_eq_ok.mp (timestampValue_string.mpr h)
  exact ⟨ts, hts⟩

/-- A digest, or none, is admitted as a previous hash. -/
theorem exists_prevHashValue {hash : Option JsString} (h : ∀ s ∈ hash, isHex64 s = true) :
    ∃ prevHash, prevHashValue (DecisionLoggingPolicyDecisionPoint.headValue hash) =
      .ok prevHash := by
  cases hash with
  | none => exact ⟨_, rfl⟩
  | some s => exact ⟨_, dif_pos (h s rfl)⟩

/-- Valid answers make an entry of a decision on its own request, under a layer it takes. -/
theorem exists_ofRaw {request : PolicyRequest} {decision : PolicyDecision} {value : JsValue}
    {layer : {l : Option Layer // l = none ↔ decision.matchedPolicyId = none}}
    (htrace : decision.traceId = request.action.correlationId)
    (hlayer : layerResolvedValue value decision = .ok layer) {id ts : JsString}
    {hash : Option JsString} (hid : isUlid id = true) (hts : isInstant ts = true)
    (hhash : ∀ s ∈ hash, isHex64 s = true) :
    ∃ e, ofRaw (.string id) request decision value (.string ts)
      (DecisionLoggingPolicyDecisionPoint.headValue hash) = .ok e := by
  have hulid : ulidValue (.string id) = .ok ⟨id, hid⟩ := dif_pos hid
  obtain ⟨ts', hts'⟩ := exists_timestampValue hts
  obtain ⟨hash', hhash'⟩ := exists_prevHashValue hhash
  simp only [ofRaw, hulid, bind, Except.bind, dif_pos htrace, hlayer, hts', hhash']
  exact ⟨_, rfl⟩

end DecisionLogEntry

section Simulation

variable {α β : Type} {W : α → β → Prop}

/-- A decision is recorded without a trace in what follows: the chain head, an id and an instant are
asked for, and one entry is appended. -/
theorem simulates_record {request : PolicyRequest} {decision : PolicyDecision} {value : JsValue}
    {layer : {l : Option Layer // l = none ↔ decision.matchedPolicyId = none}}
    (htrace : decision.traceId = request.action.correlationId)
    (hlayer : DecisionLogEntry.layerResolvedValue value decision = .ok layer) {tenantId : TenantId}
    {p : Program kernel α} {next : DecisionLogEntry → Program kernel β}
    (hnext : ∀ entry, Simulates audited W p (next entry)) :
    Simulates audited W p (do
      let prevHash : JsValue ← Program.ask (I := kernel) (.chainHead tenantId)
      let id : JsValue ← Program.ask (I := kernel) .idGenerator
      let ts ← clockNow
      let entry ← Program.sync
        (orThrow (DecisionLogEntry.ofRaw id request decision value ts prevHash))
      let _ : Unit ← Program.ask (I := kernel) (.append entry)
      next entry) := by
  simp only [clockNow, bind_assoc]
  -- four calls that the plain program does not make, each documented to resolve
  refine Simulates.extraBind rfl ?_
  rintro _ ⟨hash, hhash, rfl⟩
  refine ⟨_, rfl, Simulates.extraBind rfl ?_⟩
  rintro _ ⟨id, hid, rfl⟩
  refine ⟨_, rfl, Simulates.extraBind rfl ?_⟩
  rintro _ ⟨ts, hts, rfl⟩
  have hreading : canonicalReading (.string ts) = .ok (.string ts) := if_pos hts
  obtain ⟨entry, hentry⟩ := DecisionLogEntry.exists_ofRaw htrace hlayer hid hts hhash
  refine ⟨_, rfl, ?_⟩
  rw [hreading]
  change Simulates audited W p (Program.sync (orThrow
    (DecisionLogEntry.ofRaw (.string id) request decision value (.string ts) _)) >>= _)
  rw [hentry]
  refine Simulates.extraBind rfl ?_
  rintro _ rfl
  exact ⟨_, rfl, hnext entry⟩

end Simulation

/-! ## The decision point -/

/-- The evaluator's decision resolves to a layer that its log entry takes. -/
theorem exists_layer_of_decide {request : PolicyRequest} {candidates : JsValue}
    {decision : PolicyDecision}
    (h : AuthorizationEvaluator.decide request candidates = .ok decision) :
    ∃ value layer,
      DecisionLoggingPolicyDecisionPoint.layerOf candidates decision.matchedPolicyId = .ok value ∧
      DecisionLogEntry.layerResolvedValue value decision = .ok layer := by
  obtain ⟨checked, hadmits, hcombines, -⟩ := AuthorizationEvaluator.decide_eq_ok_iff.mp h
  rcases DecisionLoggingPolicyDecisionPoint.combines_winner hcombines with
    ⟨c, hwins, hid⟩ | ⟨hid, -⟩
  · have hread := DecisionLoggingPolicyDecisionPoint.layerOf_of_mem hadmits hwins.1
    have hmatched : decision.matchedPolicyId ≠ none := by simp [hid]
    refine ⟨_, ⟨some c.layer, iff_of_false (by simp) hmatched⟩, hid ▸ hread, ?_⟩
    simp only [DecisionLogEntry.layerResolvedValue, dif_neg hmatched, Layer.ofName?_name]
  · refine ⟨.null, ⟨none, iff_of_true rfl hid⟩, by rw [hid]; rfl, ?_⟩
    rw [DecisionLogEntry.layerResolvedValue, dif_pos hid]

/-- The logging decision point answers what the plain one answers, and throws where it throws. -/
theorem simulates_decide (request : PolicyRequest) :
    Simulates audited Eq (PolicyDecisionPoint.decide request)
      (DecisionLoggingPolicyDecisionPoint.decide request) := by
  simp only [PolicyDecisionPoint.decide, DecisionLoggingPolicyDecisionPoint.decide,
    DecisionLoggingPolicyDecisionPoint.logOne, DecisionLoggingPolicyDecisionPoint.readChainHead,
    bind_assoc, pure_bind]
  refine Simulates.bind (V := Eq) (Simulates.ask rfl fun r r' hr => ?_) ?_
  · obtain rfl : r = r' := hr
    exact Alike.refl r
  rintro candidates _ rfl
  cases hdecide : AuthorizationEvaluator.decide request candidates with
  | error e => exact .settled rfl
  | ok decision =>
    obtain ⟨value, layer, hread, hlayer⟩ := exists_layer_of_decide hdecide
    obtain ⟨-, -, -, -, htrace⟩ := AuthorizationEvaluator.decide_eq_ok_iff.mp hdecide
    change Simulates audited Eq (pure decision) (Program.sync (orThrow
      (DecisionLoggingPolicyDecisionPoint.layerOf candidates decision.matchedPolicyId)) >>= _)
    rw [hread]
    exact simulates_record htrace hlayer fun _ => .settled rfl

/-! ## The witness of the guards -/

/-- An object literal of strings under distinct keys is a canonical root. -/
theorem exists_canonicalRoot_literal {nonFinite what : JsString}
    (members : List (String × JsString)) (hkeys : (members.map fun p => lit p.1).Nodup)
    (hrefused : ∀ p ∈ members, lit p.1 ∉ refusedKeys) :
    ∃ r, canonicalRoot nonFinite what (literal (members.map fun p => (p.1, .string p.2))) =
      .ok r := by
  have hstrings : stringKeys ((members.map fun p => (p.1, JsValue.string p.2)).map fun p =>
      ((PropertyKey.string (lit p.1), Descriptor.data), p.2)) = members.map fun p => lit p.1 := by
    rw [stringKeys, List.map_map, List.filterMap_map]
    exact List.filterMap_eq_map (f := fun p : String × JsString => lit p.1) ▸ rfl
  -- strings are admitted at any depth
  have hadmits : List.Forall₂ (AdmitsMember nonFinite what 2)
      ((members.map fun p => (p.1, JsValue.string p.2)).map fun p =>
        ((PropertyKey.string (lit p.1), Descriptor.data), p.2))
      (members.map fun p => (lit p.1, Json.str p.2)) := by
    rw [List.map_map, List.forall₂_map_left_iff, List.forall₂_map_right_iff, List.forall₂_same]
    exact fun p hp => ⟨rfl, hrefused p hp, rfl⟩
  have hvalue := (canonicalValue_object_iff (hstrings.symm ▸ hkeys)).mpr
    ⟨by decide, rfl, _, hadmits, rfl⟩
  have hroot := canonicalRoot_map_eq_ok.mpr ⟨⟨_, _, rfl⟩, hvalue⟩
  obtain ⟨r, hr, -⟩ := map_eq_ok.mp hroot
  exact ⟨r, hr⟩

/-- A command over the empty payload can be built. -/
theorem exists_commandOf (principal : Principal) (correlationId : CorrelationId)
    (idempotencyKey : IdempotencyKey) :
    ∃ command, commandOf principal correlationId idempotencyKey (literal []) = .ok command := by
  have hname : isActionName (lit "customer.create") = true := by decide
  have hversion : IsActionVersion 1 := by decide
  obtain ⟨payload, hpayload⟩ :
      ∃ r, actionPayload (lit "a Command payload") (literal []) = .ok r :=
    exists_canonicalRoot_literal [] List.nodup_nil (List.forall_mem_nil _)
  rw [commandOf, Command.ofRaw, actionName_string hname,
    actionVersion_number hversion (safeInteger?_of_isActionVersion hversion)]
  simp only [bind, Except.bind, hpayload]
  exact ⟨_, rfl⟩

/-- A policy request about a command, in a context of strings, can be built. -/
theorem exists_policyRequestOf (command : Command) (context : List (String × JsString))
    (hkeys : (context.map fun p => lit p.1).Nodup)
    (hrefused : ∀ p ∈ context, lit p.1 ∉ refusedKeys) :
    ∃ request, policyRequestOf command (literal (context.map fun p => (p.1, .string p.2))) =
      .ok request := by
  obtain ⟨resource, hresource⟩ :
      ∃ r, canonicalRoot [] (lit "a PolicyRequest resource")
        (resourceOf command.principal.tenantId) = .ok r :=
    exists_canonicalRoot_literal
      [("type", lit "customer"), ("tenantId", command.principal.tenantId.value)]
      (by simp only [List.map_cons, List.map_nil]; decide) (by
        simp only [List.forall_mem_cons]
        exact ⟨by decide, by decide, List.forall_mem_nil _⟩)
  obtain ⟨canonical, hcontext⟩ := @exists_canonicalRoot_literal []
    (lit "a PolicyRequest context") context hkeys hrefused
  rw [policyRequestOf, PolicyRequest.ofRaw, hresource, hcontext]
  exact ⟨_, rfl⟩

/-- The decision of a guard refusal can be built, and it matches no policy. -/
theorem exists_guardDecision (guard : Guard) {reason : JsString}
    (hreason : isReason reason = true) :
    ∃ request decision, guardDecision guard reason = .ok (request, decision) ∧
      decision.matchedPolicyId = none ∧ decision.traceId = request.action.correlationId := by
  obtain ⟨action, haction⟩ :=
    exists_commandOf guard.principal guard.correlationId guard.idempotencyKey
  obtain ⟨request, hrequest⟩ := exists_policyRequestOf action
    [("stage", lit "identityTenantGuard"), ("guard", guard.code.name)]
    (by simp only [List.map_cons, List.map_nil]; decide) (by
      simp only [List.forall_mem_cons]
      exact ⟨by decide, by decide, List.forall_mem_nil _⟩)
  simp only [List.map_cons, List.map_nil] at hrequest
  -- a deny without a policy: the reason is the only part that could be refused
  have hdecision : PolicyDecision.ofRaw (.string Effect.deny.name) (.string reason) .null
      guard.correlationId = .ok ⟨.deny, reason, none, guard.correlationId, hreason, rfl⟩ := by
    simp only [PolicyDecision.ofRaw, PolicyDecision.effectValue, Effect.ofName?_name,
      PolicyDecision.reasonValue_string hreason]
    rfl
  refine ⟨request, ⟨.deny, reason, none, guard.correlationId, hreason, rfl⟩, ?_, rfl, ?_⟩
  · rw [guardDecision, haction]
    change (policyRequestOf action _ >>= _) = _
    rw [hrequest]
    change (PolicyDecision.ofRaw _ _ _ _ >>= _) = _
    rw [hdecision]
    rfl
  · rw [policyRequestOf_eq_ok hrequest]
    exact (commandOf_eq_ok haction).2.1.symm

/-- The two codes of the guards have a reason, which is one. -/
theorem exists_identityGuardReason {code : ErrorCode}
    (h : code = .crossTenantDeny ∨ code = .identityMismatch) :
    ∃ reason, identityGuardReason? code = some reason ∧ isReason reason = true := by
  rcases h with rfl | rfl
  · exact ⟨_, rfl, by decide +kernel⟩
  · exact ⟨_, rfl, by decide +kernel⟩

/-- A guard refuses the same with its witness and without. -/
theorem simulates_refuseAtGuard {outcome : Refusal} {code : ErrorCode}
    (hcode : code = .crossTenantDeny ∨ code = .identityMismatch) (principal : Principal)
    (shaped : Shaped) :
    Simulates audited Eq (refuseAtGuard plainPorts outcome code principal shaped)
      (refuseAtGuard auditedPorts outcome code principal shaped) := by
  obtain ⟨reason, hreason, hok⟩ := exists_identityGuardReason hcode
  obtain ⟨request, decision, hguard, hmatched, htrace⟩ := exists_guardDecision
    ⟨code, principal, shaped.correlationId, shaped.idempotencyKey⟩ hok
  have hlayer : DecisionLogEntry.layerResolvedValue .null decision =
      .ok ⟨none, iff_of_true rfl hmatched⟩ := by
    rw [DecisionLogEntry.layerResolvedValue, dif_pos hmatched]
  have hwitness : auditedPorts.auditIdentityGuard = some identityGuardAuditor := rfl
  simp only [refuseAtGuard, hwitness, identityGuardAuditor, hreason, hguard]
  simp only [bind_assoc]
  exact simulates_record htrace hlayer fun _ => .settled rfl

/-! ## The pipeline -/

/-- A call whose answers are the same in both compositions. -/
def IsSame (c : Call) : Prop :=
  audited.shared c = true ∧ ∀ r r' : kernel.Settled c, audited.like c r r' → r = r'

/-- A command is decided alike with and without the audit. -/
theorem simulates_runCommand (command : Command) :
    Simulates audited Eq (runCommand plainPorts command) (runCommand auditedPorts command) := by
  unfold runCommand
  refine Simulates.syncBind (Alike.refl _) ?_
  rintro request _ - - rfl
  refine Simulates.bind (simulates_decide request) ?_
  rintro decision _ rfl
  split_ifs
  · exact .settled rfl
  · refine Simulates.self (p := Program.ask (I := kernel) (.evaluateInvariants command) >>= _) ?_
    exact Calls.askBind ⟨rfl, fun _ _ h => h⟩ fun _ => trivial

/-- The pipeline answers the same in both compositions. -/
theorem simulates_run (sha256 : ByteArray → JsString) (actionSpec : ActionSpec) :
    Simulates audited Eq (CreateCustomerPipeline.run sha256 plainPorts actionSpec)
      (CreateCustomerPipeline.run sha256 auditedPorts actionSpec) := by
  unfold CreateCustomerPipeline.run
  split
  · exact .settled rfl
  · next shaped _ =>
    unfold runShaped
    have hidentity : Calls IsSame identityCurrent :=
      Calls.askBind ⟨rfl, fun _ _ h => h⟩ fun _ => trivial
    refine Simulates.bind (Simulates.self hidentity) ?_
    rintro principal _ rfl
    split_ifs
    · exact simulates_refuseAtGuard (.inl rfl) principal shaped
    · exact simulates_refuseAtGuard (.inr rfl) principal shaped
    · split
      · exact .settled rfl
      · exact simulates_runCommand _

/-! ## The commit -/

namespace CommitReceipt

/-- A non-blank field is checked alike where both values are the same, or both are non-blank. -/
theorem alike_nonEmptyString {s s' : JsString} (h : Generated isNonBlank s s') (field : String) :
    Alike (fun _ _ => True) (nonEmptyString s field) (nonEmptyString s' field) := by
  rcases h with rfl | ⟨hs, hs'⟩
  · exact (Alike.refl _).mono fun _ _ _ _ _ => trivial
  · rw [nonEmptyString, nonEmptyString, dif_pos hs, dif_pos hs']
    trivial

/-- Two instants of a commit are admitted alike. -/
theorem alike_committedAtValue {s s' : JsString} (h : Generated isInstant s s') :
    Alike (fun _ _ => True) (committedAtValue s) (committedAtValue s') := by
  rcases h with rfl | ⟨hs, hs'⟩
  · exact (Alike.refl _).mono fun _ _ _ _ _ => trivial
  · obtain ⟨ts, hts, -⟩ := map_eq_ok.mp (committedAtValue_eq_ok.mpr hs)
    obtain ⟨ts', hts', -⟩ := map_eq_ok.mp (committedAtValue_eq_ok.mpr hs')
    rw [hts, hts']
    trivial

/-- An event id that is not blank is admitted. -/
theorem exists_outboxEventIdsValue {s : JsString} (h : isNonBlank s = true) :
    ∃ ids, outboxEventIdsValue [s] = .ok ids := by
  have hcheck : checkEventIds [] [s] = .ok () := by simp [checkEventIds, h]
  unfold outboxEventIdsValue
  rw [dif_neg (List.cons_ne_nil _ _)]
  split
  · next e he =>
    rw [hcheck] at he
    cases he
  · exact ⟨_, rfl⟩

/-- Two event ids are admitted alike. -/
theorem alike_outboxEventIdsValue {s s' : JsString} (h : Generated isNonBlank s s') :
    Alike (fun _ _ => True) (outboxEventIdsValue [s]) (outboxEventIdsValue [s']) := by
  rcases h with rfl | ⟨hs, hs'⟩
  · exact (Alike.refl _).mono fun _ _ _ _ _ => trivial
  · obtain ⟨ids, hids⟩ := exists_outboxEventIdsValue hs
    obtain ⟨ids', hids'⟩ := exists_outboxEventIdsValue hs'
    rw [hids, hids']
    trivial

/-- Receipts over generated values are made alike. -/
theorem alike_ofRaw {requestId tenantId resourceId resourceId' committedAt committedAt' auditId
    auditId' outboxId outboxId' idempotencyKey : JsString}
    (hresource : Generated isNonBlank resourceId resourceId')
    (hcommitted : Generated isInstant committedAt committedAt')
    (haudit : Generated isNonBlank auditId auditId')
    (houtbox : Generated isNonBlank outboxId outboxId') :
    Alike SameRequest
      (ofRaw requestId tenantId resourceId committedAt auditId [outboxId] idempotencyKey)
      (ofRaw requestId tenantId resourceId' committedAt' auditId' [outboxId'] idempotencyKey) := by
  -- each check passes on both sides, or on neither
  have hmade : Alike (fun _ _ => True)
      (ofRaw requestId tenantId resourceId committedAt auditId [outboxId] idempotencyKey)
      (ofRaw requestId tenantId resourceId' committedAt' auditId' [outboxId'] idempotencyKey) := by
    refine Alike.bind (alike_nonEmptyString (.inl rfl) _) fun _ _ _ _ _ => ?_
    refine Alike.bind (alike_nonEmptyString (.inl rfl) _) fun _ _ _ _ _ => ?_
    refine Alike.bind (alike_nonEmptyString hresource _) fun _ _ _ _ _ => ?_
    refine Alike.bind (alike_committedAtValue hcommitted) fun _ _ _ _ _ => ?_
    refine Alike.bind (alike_nonEmptyString haudit _) fun _ _ _ _ _ => ?_
    refine Alike.bind (alike_outboxEventIdsValue houtbox) fun _ _ _ _ _ => ?_
    exact Alike.bind (alike_nonEmptyString (.inl rfl) _) fun _ _ _ _ _ => trivial
  refine hmade.mono fun r r' hr hr' _ => ?_
  obtain ⟨hrequest, htenant, -, -, -, -, hkey⟩ := ofRaw_eq_ok hr
  obtain ⟨hrequest', htenant', -, -, -, -, hkey'⟩ := ofRaw_eq_ok hr'
  exact ⟨hrequest.trans hrequest'.symm, htenant.trans htenant'.symm, hkey.trans hkey'.symm⟩

end CommitReceipt

/-- Checks that end alike do so when they throw. -/
theorem alike_orThrow {α α' : Type} {V : α → α' → Prop} {r : Except NativeError α}
    {r' : Except NativeError α'} (h : Alike V r r') : Alike V (orThrow r) (orThrow r') := by
  cases r with
  | ok a =>
    cases r' with
    | ok a' => exact h
    | error e => exact h.elim
  | error e =>
    cases r' with
    | ok a' => exact h.elim
    | error e' =>
      obtain rfl : e = e' := h
      exact rfl

section Commit

variable {changeSet : PreparedChangeSet}

/-- The calls of a statement that generates nothing. -/
theorem isSame_query (client : ClientId) {statement : Statement}
    (h : statement = .begin ∨ statement = .commit ∨ statement = .rollback ∨
      ∃ tenantId, statement = .beginTenantContext tenantId) : IsSame (.query client statement) := by
  rcases h with rfl | rfl | rfl | ⟨tenantId, rfl⟩
  · exact ⟨rfl, fun _ _ h => h⟩
  · exact ⟨rfl, fun _ _ h => h⟩
  · exact ⟨rfl, fun _ _ h => h⟩
  · exact ⟨rfl, fun _ _ h => h⟩

/-- A release is made by both. -/
theorem calls_release (client : ClientId) : Calls IsSame (release client) :=
  Calls.regardless (Calls.ask ⟨rfl, fun _ _ h => h⟩)

/-- The rows are inserted alike, and the receipts over them are of the same request. -/
theorem simulates_insertRows (requestId idempotencyKey name : JsString) (client : ClientId) :
    Simulates audited CommitReceipt.SameRequest
      (insertRows requestId idempotencyKey name changeSet client)
      (insertRows requestId idempotencyKey name changeSet client) := by
  refine Simulates.bind (Simulates.ask rfl fun _ _ h => h) ?_
  rintro customer customer' ⟨hresource, hcommitted⟩
  refine Simulates.bind (Simulates.ask rfl fun _ _ h => h) ?_
  intro auditId auditId' haudit
  refine Simulates.bind (Simulates.ask rfl fun _ _ h => h) ?_
  intro outboxId outboxId' houtbox
  exact .settled (alike_orThrow
    (CommitReceipt.alike_ofRaw hresource hcommitted haudit houtbox))

/-- The same change set is written alike. -/
theorem simulates_write (requestId idempotencyKey : JsString) (client : ClientId) :
    Simulates audited CommitReceipt.SameRequest (write requestId idempotencyKey changeSet client)
      (write requestId idempotencyKey changeSet client) := by
  refine Simulates.syncBind (Alike.refl _) ?_
  rintro name _ - - rfl
  refine Simulates.syncBind (Alike.refl _) ?_
  rintro _ _ - - rfl
  have hcontext : Calls IsSame (query client (.beginTenantContext changeSet.customer.tenantId)) :=
    Calls.ask (isSame_query client (.inr (.inr (.inr ⟨_, rfl⟩))))
  refine Simulates.bind (Simulates.self hcontext) ?_
  rintro _ _ rfl
  refine (simulates_insertRows requestId idempotencyKey name client).tryCatch fun error => ?_
  split_ifs
  · exact .settled rfl
  · exact .settled rfl

/-- The transaction of a change set runs alike. -/
theorem simulates_commitChangeSet (requestId : JsString) (idempotencyKey : JsValue) :
    Simulates audited CommitReceipt.SameRequest (commitChangeSet changeSet requestId idempotencyKey)
      (commitChangeSet changeSet requestId idempotencyKey) := by
  have hbegin : Calls IsSame PostgresUnitOfWork.begin := by
    refine Calls.askBind ⟨rfl, fun _ _ h => h⟩ fun client => ?_
    refine Calls.bind ?_ fun _ => trivial
    exact (Calls.ask (isSame_query client (.inl rfl))).tryCatch fun error =>
      (calls_release client).bind fun _ => trivial
  have hcommit (client : ClientId) : Calls IsSame (PostgresUnitOfWork.commit client) := by
    refine Calls.ensuring ?_ (calls_release client)
    refine (Calls.ask (isSame_query client (.inr (.inl rfl)))).tryCatch fun error => ?_
    exact (Calls.regardless (Calls.ask (isSame_query client (.inr (.inr (.inl rfl)))))).bind
      fun _ => trivial
  have hrollback (client : ClientId) : Calls IsSame (PostgresUnitOfWork.rollback client) :=
    (Calls.ask (isSame_query client (.inr (.inr (.inl rfl))))).ensuring (calls_release client)
  -- up to the write the two runs make the same calls
  refine Simulates.syncBind (Alike.refl _) ?_
  rintro requestId _ - - rfl
  refine Simulates.syncBind (Alike.refl _) ?_
  rintro idempotencyKey _ - - rfl
  refine Simulates.bind (Simulates.self hbegin) ?_
  rintro client _ rfl
  have hwrite := @simulates_write changeSet requestId idempotencyKey client
  -- the rows that are written get ids of their own on each side
  refine Simulates.bind (hwrite.tryCatch fun error => ?_) ?_
  · exact (Simulates.self (hrollback client).regardless).bind fun _ _ _ => .settled rfl
  · intro receipt receipt' hreceipt
    exact (Simulates.self (hcommit client)).bind fun _ _ _ => .settled hreceipt

end Commit

/-! ## The handler -/

/-- What the service answers, up to generated row ids and times. -/
def ServiceResult.UpToGenerated : ServiceResult → ServiceResult → Prop
  | .committed requestId receipt, .committed requestId' receipt' =>
      requestId = requestId' ∧ receipt.SameRequest receipt'
  | .refused outcome requestId error, .refused outcome' requestId' error' =>
      outcome = outcome' ∧ requestId = requestId' ∧ error = error'
  | _, _ => False

/-- The service is simulated with the audit, up to generated values. -/
theorem simulates_serviceHandle (sha256 : ByteArray → JsString) (actionSpec : ActionSpec) :
    Simulates audited ServiceResult.UpToGenerated (serviceHandle sha256 plainPorts actionSpec)
      (serviceHandle sha256 auditedPorts actionSpec) := by
  refine Simulates.bind (simulates_run sha256 actionSpec) ?_
  rintro outcome _ rfl
  cases outcome with
  | refused outcome requestId error => exact .settled ⟨rfl, rfl, rfl⟩
  | allowCommit requestId preparedChangeSet =>
    exact Simulates.bind (simulates_commitChangeSet requestId actionSpec.idempotencyKey)
      fun receipt receipt' h => .settled ⟨rfl, h⟩

/-- Responses to results that differ in generated values differ in these only. -/
theorem upToGenerated_responseOf {r r' : ServiceResult} (h : r.UpToGenerated r') :
    (responseOf r).UpToGenerated (responseOf r') := by
  cases r with
  | committed requestId receipt =>
    cases r' with
    | committed requestId' receipt' =>
      obtain ⟨rfl, hreceipt⟩ := h
      exact ⟨rfl, rfl, rfl, hreceipt⟩
    | refused outcome requestId' error => exact h.elim
  | refused outcome requestId error =>
    cases r' with
    | committed requestId' receipt' => exact h.elim
    | refused outcome' requestId' error' =>
      obtain ⟨rfl, rfl, rfl⟩ := h
      exact ⟨rfl, rfl, rfl, rfl⟩

/-- A request is handled alike in both compositions. -/
theorem simulates_handle (sha256 : ByteArray → JsString) (request : JsValue) :
    Simulates audited Response.UpToGenerated (handle sha256 plainPorts request)
      (handle sha256 auditedPorts request) := by
  unfold handle
  split
  · exact .settled ⟨rfl, rfl, rfl, rfl⟩
  · next actionSpec _ =>
    refine Simulates.tryCatch ?_ fun error => ?_
    · rw [map_eq_pure_bind, map_eq_pure_bind]
      exact (simulates_serviceHandle sha256 actionSpec).bind fun _ _ h =>
        .settled (upToGenerated_responseOf h)
    · split_ifs
      · exact .settled ⟨rfl, rfl, rfl, rfl⟩
      · exact .settled rfl

/-- The statements of a run, each with its client and whether it was fulfilled. -/
def statements (history : History kernel) : List (ClientId × Statement × Bool) :=
  history.filterMap fun ev =>
    match ev with
    | ⟨.query client statement, r⟩ => some (client, statement, r.isOk)
    | _ => none

/-- The shared calls hold all the statements. -/
theorem statements_filter_shared (history : History kernel) :
    statements (history.filter fun ev => audited.shared ev.1) = statements history := by
  rw [statements, statements, List.filterMap_filter]
  congr 1
  funext ⟨c, r⟩
  cases c <;> rfl

/-- Outcomes that are alike both succeed or both fail. -/
theorem isOk_eq_of_alike {ε α α' : Type} {V : α → α' → Prop} {o : Except ε α} {o' : Except ε α'}
    (h : Alike V o o') : o.isOk = o'.isOk := by
  cases o with
  | ok a =>
    cases o' with
    | ok a' => rfl
    | error e => exact h.elim
  | error e =>
    cases o' with
    | ok a' => exact h.elim
    | error e' => rfl

/-- Answers alike fulfil the same calls. -/
theorem isOk_eq_of_upToGenerated {c : Call} {r r' : kernel.Settled c} (h : UpToGenerated c r r') :
    r.isOk = r'.isOk := by
  cases c with
  | query client statement =>
    cases statement with
    | insertCustomer => exact isOk_eq_of_alike h
    | insertAudit => exact isOk_eq_of_alike h
    | insertOutbox => exact isOk_eq_of_alike h
    | _ =>
      obtain rfl : r = r' := h
      rfl
  | _ =>
    obtain rfl : r = r' := h
    rfl

/-- Shared calls alike make the same statements. -/
theorem statements_eq_of_like {history history' : History kernel}
    (h : List.Forall₂ audited.LikeEvent history history') :
    statements history = statements history' := by
  induction h with
  | nil => rfl
  | @cons ev ev' rest rest' hev _ ih =>
    obtain ⟨hlike⟩ := hev
    have hok := isOk_eq_of_upToGenerated hlike
    rename_i c r r'
    have hhead (r : kernel.Settled c) (rest : History kernel) :
        statements (⟨c, r⟩ :: rest) = statements [⟨c, r⟩] ++ statements rest := by
      rw [statements, statements, statements, ← List.filterMap_append]
      rfl
    rw [hhead, hhead r', ih]
    congr 1
    cases c with
    | query client statement => simp only [statements, List.filterMap_cons, hok]
    | _ => rfl

/-- Against the same collaborators and the same database, up to generated row ids and times, and
with an audit all of whose calls resolve validly, a request is answered by both compositions alike,
after the same statements, each fulfilled in both or rejected in both, and is rejected by both or by
neither, for the same reason. A decision is the very same one. -/
theorem audit_transparent {σ τ : Type} {outside : Outside kernel σ} {outside' : Outside kernel τ}
    {R : σ → τ → Prop} (h : Matches audited outside outside' R) {s : σ} {t : τ} (hst : R s t) :
    (∀ (sha256 : ByteArray → JsString) (request : JsValue),
      let r := Async.run outside (handle sha256 plainPorts request) s
      let r' := Async.run outside' (handle sha256 auditedPorts request) t
      Alike Response.UpToGenerated r.outcome r'.outcome ∧
        statements r.history = statements r'.history ∧ R r.state r'.state) ∧
    ∀ request : PolicyRequest,
      (Async.run outside' (DecisionLoggingPolicyDecisionPoint.decide request) t).outcome =
        (Async.run outside (PolicyDecisionPoint.decide request) s).outcome := by
  refine ⟨fun sha256 request => ?_, fun request => ?_⟩
  · obtain ⟨houtcome, hhistory, hstate⟩ := (simulates_handle sha256 request).run h hst
    refine ⟨houtcome, ?_, hstate⟩
    rw [statements_eq_of_like hhistory, statements_filter_shared]
  · exact ((simulates_decide request).run h hst).1.eq.symm

/-- Collaborators that grant everything over a database that generates the given row id and time,
for examples. -/
def generating (rowId recordedAt : String) : Outside kernel Unit := fun c s =>
  match c with
  | .current => (.ok (some PolicyRequest.sample.action.principal), s)
  | .candidatesFor _ =>
      (.ok (.array .arrayPrototype
        [(some .data, AuthorizationEvaluator.legacyEntry "a" "allow" true)] 0), s)
  | .evaluateInvariants _ => (.ok (.truthy (.boolean true)), s)
  | .idGenerator => (.ok (.string (lit "01ARZ3NDEKTSV4RRFFQ69G5FAV")), s)
  | .now => (.ok (.string (lit "2026-01-01T00:00:00.000Z")), s)
  | .chainHead _ => (.ok .null, s)
  | .append _ => (.ok (), s)
  | .connect => (.ok (0 : ℕ), s)
  | .query _ statement =>
      (.ok (match statement with
        | .begin => ()
        | .beginTenantContext _ => ()
        | .insertCustomer .. => ⟨lit rowId, lit recordedAt⟩
        | .insertAudit .. => lit rowId
        | .insertOutbox .. => lit rowId
        | .commit => ()
        | .rollback => ()), s)
  | .release _ => (.ok (), s)

/-- They answer alike, whatever valid id and time each generates. -/
theorem matches_generating {rowId rowId' recordedAt recordedAt' : String}
    (hid : isNonBlank (lit rowId) = true) (hid' : isNonBlank (lit rowId') = true)
    (hat : isInstant (lit recordedAt) = true) (hat' : isInstant (lit recordedAt') = true) :
    Matches audited (generating rowId recordedAt) (generating rowId' recordedAt')
      fun _ _ => True where
  -- both outsides answer alike, but for the generated ids and instants
  both c s t hc _ := by
    refine ⟨?_, trivial⟩
    cases c with
    | query client statement =>
      cases statement with
      | insertCustomer => exact ⟨.inr ⟨hid, hid'⟩, .inr ⟨hat, hat'⟩⟩
      | insertAudit => exact .inr ⟨hid, hid'⟩
      | insertOutbox => exact .inr ⟨hid, hid'⟩
      | _ => exact rfl
    | _ => exact rfl
  -- the calls the audit adds are answered as documented
  extra c s t hc _ := by
    refine ⟨?_, trivial⟩
    cases c with
    | idGenerator => exact ⟨_, by decide, rfl⟩
    | now => exact ⟨_, by decide, rfl⟩
    | chainHead tenantId => exact ⟨none, nofun, rfl⟩
    | append entry => exact rfl
    | _ => cases hc

/-- A request that commits in both compositions, under different ids and at different times. -/
theorem audit_transparent_sample :
    Alike Response.UpToGenerated
        (Async.run (generating "1" "2026-01-01T00:00:00.000Z")
          (handle (fun _ => lit "0") plainPorts sampleRequest) ()).outcome
        (Async.run (generating "2" "2027-01-01T00:00:00.000Z")
          (handle (fun _ => lit "0") auditedPorts sampleRequest) ()).outcome ∧
      ((Async.run (generating "1" "2026-01-01T00:00:00.000Z")
        (handle (fun _ => lit "0") plainPorts sampleRequest) ()).outcome.map
          Response.status).toOption = some 201 := by
  have hmatches : Matches audited (generating "1" "2026-01-01T00:00:00.000Z")
      (generating "2" "2027-01-01T00:00:00.000Z") fun _ _ => True :=
    matches_generating (by decide) (by decide) (by decide) (by decide)
  exact ⟨((audit_transparent hmatches trivial).1 (fun _ => lit "0") sampleRequest).1,
    by decide +kernel⟩

end MetaframerKernel
