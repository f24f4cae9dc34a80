import MetaframerKernel.Adapters.ChangeSetAdmission
import MetaframerKernel.Async.Answers
import MetaframerKernel.Delivery.AuditTransparency

/-!
# Documented answers

The request handler when every collaborator and every statement resolves with its documented
result. The handler answers then, unless the request is let through and names no customer.

## Main definitions

* `Documented`: the results the calls are documented to resolve with;
* `Granted`: the answers that let a request through;
* `PortsSettle`: ports that resolve under documented answers.

## Main results

* `portsSettle_plain`, `portsSettle_audited`: the ports of both compositions do;
* `settles_handle`: how the handler ends under documented answers.
-/

namespace MetaframerKernel

open Js Async CreateCustomerPipeline

/-! ## What is documented -/

/-- What a statement resolves with: a row with an id and a time, an id, or nothing. -/
def Statement.Resolves : (statement : Statement) → Except Thrown statement.Answer → Prop
  | .insertCustomer .., r => ∃ row : InsertedCustomer,
      isNonBlank row.id = true ∧ isInstant row.recordedAt = true ∧ r = .ok row
  | .insertAudit .., r => ∃ id : JsString, isNonBlank id = true ∧ r = .ok id
  | .insertOutbox .., r => ∃ id : JsString, isNonBlank id = true ∧ r = .ok id
  | _, r => ∃ u, r = .ok u

/-- What a call resolves with: a principal, a candidate array the evaluator admits, any answer about
the invariants, valid answers to the audit, and the results of the statements. -/
def Documented : (c : Call) → kernel.Settled c → Prop
  | .current, r => ∃ principal : Principal, r = .ok (some principal)
  | .candidatesFor _, r => ∃ candidates checked,
      AuthorizationEvaluator.Admits candidates checked ∧ r = .ok candidates
  | .evaluateInvariants _, r => ∃ invariants : Invariants, r = .ok invariants
  | .connect, r => ∃ client : ClientId, r = .ok client
  | .query _ statement, r => statement.Resolves r
  | .release _, r => ∃ u, r = .ok u
  | c, r => ResolvesValidly c r

/-- The event is a documented answer. -/
def IsDocumented (ev : Event kernel) : Prop := Documented ev.1 ev.2

/-- The answer that the invariants of a command hold. -/
def IsGrant (ev : Event kernel) : Prop :=
  ∃ command, ev = ⟨.evaluateInvariants command, .ok (.truthy (.boolean true))⟩

/-- The answers that let a request through: the principal is the actor of the tenant it claims, the
candidates allow the command, and its invariants hold. -/
structure Granted (sha256 : ByteArray → JsString) (actionSpec : ActionSpec)
    (past : History kernel) : Prop where
  exists_answers : ∃ shaped principal command request candidates decision,
    shapeCheck sha256 actionSpec = .ok shaped ∧
    (⟨.current, .ok (some principal)⟩ : Event kernel) ∈ past ∧
    principal.tenantId = shaped.claimedTenantId ∧ principal.actorId = shaped.claimedActorId ∧
    commandOf principal shaped.correlationId shaped.idempotencyKey shaped.payload = .ok command ∧
    policyRequestOf command (literal []) = .ok request ∧
    (⟨.candidatesFor request, .ok candidates⟩ : Event kernel) ∈ past ∧
    AuthorizationEvaluator.decide request candidates = .ok decision ∧ decision.effect = .allow ∧
    (⟨.evaluateInvariants command, .ok (.truthy (.boolean true))⟩ : Event kernel) ∈ past

/-- The call asks about invariants. -/
def isAboutInvariants : Call → Bool
  | .evaluateInvariants _ => true
  | _ => false

/-- The history after further calls, none of them about invariants. -/
structure Extends (past past' : History kernel) : Prop where
  subset : past ⊆ past'
  noGrant : (∀ ev ∈ past, ¬IsGrant ev) → ∀ ev ∈ past', ¬IsGrant ev

/-- A history extends itself. -/
theorem Extends.refl (past : History kernel) : Extends past past := ⟨List.Subset.refl past, id⟩

/-- Extensions follow one another. -/
theorem Extends.trans {past past' past'' : History kernel} (h : Extends past past')
    (h' : Extends past' past'') : Extends past past'' :=
  ⟨List.Subset.trans h.subset h'.subset, fun hpast => h'.noGrant (h.noGrant hpast)⟩

/-- A call that is not about the invariants extends a history. -/
theorem Extends.snoc {past past' : History kernel} (h : Extends past past') {c : Call}
    (hc : isAboutInvariants c = false) (r : kernel.Settled c) :
    Extends past (past' ++ [⟨c, r⟩]) where
  subset := List.Subset.trans h.subset (List.subset_append_left past' _)
  noGrant hpast := by
    refine List.forall_mem_append.mpr ⟨h.noGrant hpast, List.forall_mem_singleton.mpr ?_⟩
    rintro ⟨command, hgrant⟩
    obtain rfl : c = .evaluateInvariants command := congrArg Sigma.fst hgrant
    cases hc

/-! ## The ports -/

section Ports

variable {start past : History kernel}

/-- A record of a decision is made: every one of its calls resolves. -/
theorem settles_record {α : Type} {Q : History kernel → Except Thrown α → Prop}
    {request : PolicyRequest} {decision : PolicyDecision} {value : JsValue}
    {layer : {l : Option Layer // l = none ↔ decision.matchedPolicyId = none}}
    (htrace : decision.traceId = request.action.correlationId)
    (hlayer : DecisionLogEntry.layerResolvedValue value decision = .ok layer) {tenantId : TenantId}
    {next : DecisionLogEntry → Program kernel α} (h : Extends start past)
    (hnext : ∀ past entry, Extends start past → Settles IsDocumented Q past (next entry)) :
    Settles IsDocumented Q past (do
      let prevHash : JsValue ← Program.ask (I := kernel) (.chainHead tenantId)
      let id : JsValue ← Program.ask (I := kernel) .idGenerator
      let ts ← clockNow
      let entry ← Program.sync
        (orThrow (DecisionLogEntry.ofRaw id request decision value ts prevHash))
      let _ : Unit ← Program.ask (I := kernel) (.append entry)
      next entry) := by
  simp only [clockNow, bind_assoc]
  -- the head, the id and the time are documented to be what an entry can be made of
  refine Settles.askBind (by rintro _ ⟨hash, -, rfl⟩; exact ⟨_, rfl⟩) ?_
  rintro _ ⟨hash, hhash, ⟨⟩⟩
  refine Settles.askBind (by rintro _ ⟨id, -, rfl⟩; exact ⟨_, rfl⟩) ?_
  rintro _ ⟨id, hid, ⟨⟩⟩
  refine Settles.askBind (by rintro _ ⟨ts, -, rfl⟩; exact ⟨_, rfl⟩) ?_
  rintro _ ⟨ts, hts, ⟨⟩⟩
  have hreading : canonicalReading (.string ts) = .ok (.string ts) := if_pos hts
  obtain ⟨entry, hentry⟩ := DecisionLogEntry.exists_ofRaw htrace hlayer hid hts hhash
  rw [hreading]
  change Settles IsDocumented Q _ (Program.sync (orThrow
    (DecisionLogEntry.ofRaw (.string id) request decision value (.string ts) _)) >>= _)
  rw [hentry]
  refine Settles.askBind (by rintro _ ⟨⟩; exact ⟨_, rfl⟩) fun _ _ => hnext _ entry ?_
  exact (((h.snoc rfl _).snoc rfl _).snoc rfl _).snoc rfl _

/-- The decision on candidates that were answered. -/
def Decided (request : PolicyRequest) (start past : History kernel) (decision : PolicyDecision) :
    Prop :=
  Extends start past ∧ ∃ candidates,
    (⟨.candidatesFor request, .ok candidates⟩ : Event kernel) ∈ past ∧
      AuthorizationEvaluator.decide request candidates = .ok decision

/-- Under documented answers the ports are fulfilled. -/
structure PortsSettle (ports : Ports) : Prop where
  decide : ∀ {start past} request, Extends start past →
    Fulfils IsDocumented (Decided request start) past (ports.decide request)
  auditIdentityGuard : ∀ f, ports.auditIdentityGuard = some f → ∀ {start past} (guard : Guard),
    (guard.code = .crossTenantDeny ∨ guard.code = .identityMismatch) → Extends start past →
      Fulfils IsDocumented (fun past _ => Extends start past) past (f guard)

/-- The evaluator decides on an array it admits. -/
theorem exists_decide_of_admits (request : PolicyRequest) {candidates : JsValue}
    {checked : List AuthorizationEvaluator.Candidate}
    (h : AuthorizationEvaluator.Admits candidates checked) :
    ∃ decision, AuthorizationEvaluator.decide request candidates = .ok decision := by
  obtain ⟨entries, helements, hspells, hnodup⟩ := h
  obtain ⟨decision, -, hdecides⟩ := AuthorizationEvaluator.combine_eq_ok request hnodup
  exact ⟨decision, AuthorizationEvaluator.decide_eq_ok_iff.mpr
    ⟨checked, ⟨entries, helements, hspells, hnodup⟩, hdecides⟩⟩

/-- The plain ports settle. -/
theorem portsSettle_plain : PortsSettle plainPorts where
  decide request h := by
    refine Settles.askBind (by rintro _ ⟨_, _, -, rfl⟩; exact ⟨_, rfl⟩) ?_
    rintro candidates ⟨_, _, hadmits, ⟨⟩⟩
    obtain ⟨decision, hdecide⟩ := exists_decide_of_admits request hadmits
    refine ⟨decision, congrArg orThrow hdecide, h.snoc rfl _, candidates, ?_, hdecide⟩
    exact List.mem_append_right _ List.mem_cons_self
  auditIdentityGuard := nofun

/-- The audited ports settle. -/
theorem portsSettle_audited : PortsSettle auditedPorts where
  decide request h := by
    change Fulfils IsDocumented _ _ (DecisionLoggingPolicyDecisionPoint.decide request)
    simp only [Fulfils, DecisionLoggingPolicyDecisionPoint.decide,
      DecisionLoggingPolicyDecisionPoint.logOne,
      DecisionLoggingPolicyDecisionPoint.readChainHead, bind_assoc, pure_bind]
    refine Settles.askBind (by rintro _ ⟨_, _, -, rfl⟩; exact ⟨_, rfl⟩) ?_
    rintro candidates ⟨_, _, hadmits, ⟨⟩⟩
    -- documented candidates can be decided, and the decision can be recorded
    obtain ⟨decision, hdecide⟩ := exists_decide_of_admits request hadmits
    obtain ⟨value, layer, hread, hlayer⟩ := exists_layer_of_decide hdecide
    obtain ⟨-, -, -, -, htrace⟩ := AuthorizationEvaluator.decide_eq_ok_iff.mp hdecide
    rw [hdecide]
    change Settles IsDocumented _ _ (Program.sync (orThrow
      (DecisionLoggingPolicyDecisionPoint.layerOf candidates decision.matchedPolicyId)) >>= _)
    rw [hread]
    refine settles_record htrace hlayer (Extends.refl _) fun past entry hpast => ?_
    refine ⟨decision, rfl, (h.snoc rfl _).trans hpast, candidates, hpast.subset ?_, hdecide⟩
    exact List.mem_append_right _ List.mem_cons_self
  auditIdentityGuard := by
    rintro _ ⟨⟩ start past guard hcode h
    obtain ⟨reason, hreason, hok⟩ := exists_identityGuardReason hcode
    obtain ⟨request, decision, hguard, hmatched, htrace⟩ := exists_guardDecision guard hok
    have hlayer : DecisionLogEntry.layerResolvedValue .null decision =
        .ok ⟨none, iff_of_true rfl hmatched⟩ := by
      rw [DecisionLogEntry.layerResolvedValue, dif_pos hmatched]
    simp only [identityGuardAuditor, hreason, hguard]
    have hrecord : Settles IsDocumented (fun past o => ∃ a, o = .ok a ∧ Extends start past) past (do
        let prevHash : JsValue ← Program.ask (I := kernel) (.chainHead guard.principal.tenantId)
        let id : JsValue ← Program.ask (I := kernel) .idGenerator
        let ts ← clockNow
        let entry ← Program.sync (orThrow
          (DecisionLogEntry.ofRaw id request decision .null ts prevHash))
        let _ : Unit ← Program.ask (I := kernel) (.append entry)
        (pure () : Program kernel Unit)) :=
      settles_record htrace hlayer h fun past entry hpast => ⟨(), rfl, hpast⟩
    simp only [bind_pure_unit] at hrecord
    exact hrecord

end Ports

/-! ## The pipeline -/

/-- How the pipeline ends: it refuses a request that is not let through, and prepares the change set
of one that is. -/
inductive RunEnds (sha256 : ByteArray → JsString) (actionSpec : ActionSpec)
    (past : History kernel) : Except Thrown Outcome → Prop
  | refused (outcome : Refusal) (error : ErrorEnvelope) : (∀ ev ∈ past, ¬IsGrant ev) →
      RunEnds sha256 actionSpec past (.ok (.refused outcome (rawRequestId actionSpec) error))
  | allowed (changeSet : PreparedChangeSet) : Granted sha256 actionSpec past →
      Prepared sha256 actionSpec (rawRequestId actionSpec) changeSet →
      RunEnds sha256 actionSpec past (.ok (.allowCommit (rawRequestId actionSpec) changeSet))

/-- A request that is let through was answered with a grant. -/
theorem Granted.exists_isGrant {sha256 : ByteArray → JsString} {actionSpec : ActionSpec}
    {past : History kernel} (h : Granted sha256 actionSpec past) : ∃ ev ∈ past, IsGrant ev := by
  obtain ⟨_, _, command, _, _, _, -, -, -, -, -, -, -, -, -, hgrant⟩ := h
  exact ⟨_, hgrant, command, rfl⟩

/-- What was granted stays so. -/
theorem Granted.mono {sha256 : ByteArray → JsString} {actionSpec : ActionSpec}
    {past past' : History kernel} (h : Granted sha256 actionSpec past) (hsubset : past ⊆ past') :
    Granted sha256 actionSpec past' := by
  obtain ⟨shaped, principal, command, request, candidates, decision, hshape, hcurrent, htenant,
    hactor, hcommand, hrequest, hcandidates, hdecide, heffect, hgrant⟩ := h
  exact ⟨shaped, principal, command, request, candidates, decision, hshape, hsubset hcurrent,
    htenant, hactor, hcommand, hrequest, hsubset hcandidates, hdecide, heffect, hsubset hgrant⟩

section Pipeline

variable {sha256 : ByteArray → JsString} {ports : Ports}

/-- A guard refuses. -/
theorem fulfils_refuseAtGuard (hports : PortsSettle ports) {outcome : Refusal} {code : ErrorCode}
    (hcode : code = .crossTenantDeny ∨ code = .identityMismatch) (principal : Principal)
    (shaped : Shaped) {start past : History kernel} (h : Extends start past) :
    Fulfils IsDocumented (fun past a => Extends start past ∧
        a = errorOutcome outcome shaped.correlationId.value code false) past
      (refuseAtGuard ports outcome code principal shaped) := by
  unfold refuseAtGuard
  split
  · next f hf =>
    refine (hports.auditIdentityGuard f hf _ hcode h).bind fun past _ hpast => ?_
    exact ⟨_, rfl, hpast, rfl⟩
  · exact ⟨_, rfl, h, rfl⟩

/-- How the pipeline ends under documented answers. -/
theorem settles_run (hports : PortsSettle ports) (actionSpec : ActionSpec) :
    Settles IsDocumented (RunEnds sha256 actionSpec) []
      (CreateCustomerPipeline.run sha256 ports actionSpec) := by
  unfold CreateCustomerPipeline.run
  cases hshape : shapeCheck sha256 actionSpec with
  | error e => exact .refused _ _ (List.forall_mem_nil _)
  | ok shaped =>
    have hraw : shaped.correlationId.value = rawRequestId actionSpec := by
      rw [rawRequestId, (shapeCheck_eq_ok hshape).1]
    have hidentity : Fulfils IsDocumented (fun past principal =>
        past = [(⟨.current, .ok (some principal)⟩ : Event kernel)]) [] identityCurrent := by
      refine Settles.askBind (by rintro _ ⟨principal, rfl⟩; exact ⟨_, rfl⟩) ?_
      rintro _ ⟨principal, ⟨⟩⟩
      exact ⟨principal, rfl, rfl⟩
    -- nothing has been granted when the principal is known,
    -- so a refusal at a guard ends as it should
    refine hidentity.bind fun past principal hpast => ?_
    have hnone : ∀ ev ∈ past, ¬IsGrant ev := by
      rw [hpast, List.forall_mem_singleton]
      rintro ⟨command, hgrant⟩
      cases congrArg Sigma.fst hgrant
    have hrefused {outcome : Refusal} {code : ErrorCode}
        (hcode : code = .crossTenantDeny ∨ code = .identityMismatch) :
        Settles IsDocumented (RunEnds sha256 actionSpec) past
          (refuseAtGuard ports outcome code principal shaped) := by
      refine (fulfils_refuseAtGuard hports hcode principal shaped (Extends.refl past)).mono ?_
      rintro past' _ ⟨_, rfl, hextends, rfl⟩
      rw [hraw]
      exact .refused _ _ (hextends.noGrant hnone)
    split_ifs with htenant hactor
    · exact hrefused (.inl rfl)
    · exact hrefused (.inr rfl)
    · cases hcommand : commandOf principal shaped.correlationId shaped.idempotencyKey
          shaped.payload with
      | error e =>
        rw [hraw]
        exact .refused _ _ hnone
      | ok command =>
        have hcorrelation : command.correlationId.value = rawRequestId actionSpec := by
          rw [(commandOf_eq_ok hcommand).2.1, hraw]
        obtain ⟨request, hrequest⟩ := exists_policyRequestOf command [] List.nodup_nil
          (List.forall_mem_nil _)
        change Settles IsDocumented _ past (runCommand ports command)
        rw [runCommand, show policyRequestOf command (literal []) = .ok request from hrequest]
        -- the decision is on candidates that the past has,
        -- and the invariants are asked for behind it
        refine (hports.decide request (Extends.refl past)).bind ?_
        rintro past' decision ⟨hextends, candidates, hcandidates, hdecide⟩
        rw [hcorrelation]
        split_ifs with heffect
        · exact .refused _ _ (hextends.noGrant hnone)
        · refine Settles.askBind (by rintro _ ⟨_, rfl⟩; exact ⟨_, rfl⟩) fun invariants _ => ?_
          have hlast : (⟨.evaluateInvariants command, .ok invariants⟩ : Event kernel) ∈
              past' ++ [⟨.evaluateInvariants command, .ok invariants⟩] :=
            List.mem_append_right _ List.mem_cons_self
          by_cases hholds : invariants = .truthy (.boolean true)
          · subst hholds
            have hprincipal : principal = ⟨shaped.claimedTenantId, shaped.claimedActorId⟩ := by
              rw [← not_ne_iff.mp htenant, ← not_ne_iff.mp hactor]
            change RunEnds sha256 actionSpec _
              (.ok (.allowCommit command.correlationId.value (preparedChangeSetOf command)))
            rw [hcorrelation]
            refine .allowed _ ⟨shaped, principal, command, request, candidates, decision, hshape,
              List.mem_append_left _ (hextends.subset ?_), not_ne_iff.mp htenant,
              not_ne_iff.mp hactor, hcommand, hrequest, List.mem_append_left _ hcandidates,
              hdecide, not_ne_iff.mp heffect, hlast⟩ ?_
            · rw [hpast]
              exact List.mem_cons_self
            · rw [hprincipal] at hcommand
              exact ⟨command, shaped, hshape, hcommand, rfl, hcorrelation.symm⟩
          · -- an answer that is not `true` itself is a violation, and is no grant
            have hproject : projectOutcome command invariants =
                invalidOutcome command.correlationId.value .invariantViolation := by
              unfold projectOutcome
              split
              · exact absurd rfl hholds
              · rfl
            rw [hproject, hcorrelation]
            refine .refused _ _ (List.forall_mem_append.mpr
              ⟨hextends.noGrant hnone, List.forall_mem_singleton.mpr ?_⟩)
            rintro ⟨command', hgrant⟩
            cases hgrant
            exact hholds rfl

end Pipeline

/-! ## The commit -/

section Commit

variable {past : History kernel}

/-- A statement that resolves has an answer. -/
theorem Statement.Resolves.exists_ok {statement : Statement} {r : Except Thrown statement.Answer}
    (h : statement.Resolves r) : ∃ a, r = .ok a := by
  cases statement with
  | insertCustomer =>
    obtain ⟨row, -, -, rfl⟩ := h
    exact ⟨row, rfl⟩
  | insertAudit =>
    obtain ⟨id, -, rfl⟩ := h
    exact ⟨id, rfl⟩
  | insertOutbox =>
    obtain ⟨id, -, rfl⟩ := h
    exact ⟨id, rfl⟩
  | _ => exact h

/-- Under documented answers a statement is fulfilled. -/
theorem fulfils_query (client : ClientId) (statement : Statement) :
    Fulfils IsDocumented (fun _ a => statement.Resolves (.ok a)) past (query client statement) :=
  Fulfils.ask (fun _ h => h.exists_ok) fun _ h => h

/-- Whatever a program ends with, it is not looked at. -/
theorem fulfils_regardless {α : Type} (p : Program kernel α) :
    Fulfils IsDocumented (fun _ _ => True) past p.regardless :=
  (Settles.subset p).andThen fun _ _ _ => ⟨(), rfl, trivial⟩

/-- Under documented answers a transaction is begun. -/
theorem fulfils_begin :
    Fulfils IsDocumented (fun _ _ => True) past PostgresUnitOfWork.begin := by
  refine Settles.askBind (by rintro _ ⟨_, rfl⟩; exact ⟨_, rfl⟩) fun client _ => ?_
  exact ((fulfils_query client .begin).tryCatch _).bind fun _ _ _ => ⟨client, rfl, trivial⟩

/-- Under documented answers a transaction is committed. -/
theorem fulfils_commit (client : ClientId) :
    Fulfils IsDocumented (fun _ _ => True) past (PostgresUnitOfWork.commit client) := by
  refine Settles.ensuring ((fulfils_query client .commit).tryCatch _) ?_
  rintro past _ ⟨u, rfl, -⟩
  refine (fulfils_regardless (Program.ask (I := kernel) (.release client))).mono ?_
  rintro past _ ⟨_, rfl, -⟩
  exact ⟨u, rfl, trivial⟩

/-- A receipt can be made of values that are not blank. -/
theorem CommitReceipt.exists_ofRaw {requestId tenantId resourceId committedAt auditId outboxId
    idempotencyKey : JsString} (hrequest : isNonBlank requestId = true)
    (htenant : isNonBlank tenantId = true) (hresource : isNonBlank resourceId = true)
    (hcommitted : isInstant committedAt = true) (haudit : isNonBlank auditId = true)
    (houtbox : isNonBlank outboxId = true) (hkey : isNonBlank idempotencyKey = true) :
    ∃ receipt, ofRaw requestId tenantId resourceId committedAt auditId [outboxId] idempotencyKey =
      .ok receipt := by
  obtain ⟨ts, hts, -⟩ := map_eq_ok.mp (committedAtValue_eq_ok.mpr hcommitted)
  obtain ⟨ids, hids⟩ := exists_outboxEventIdsValue houtbox
  simp only [ofRaw, nonEmptyString, dif_pos hrequest, dif_pos htenant, dif_pos hresource,
    dif_pos haudit, dif_pos hkey, hts, hids, bind, Except.bind]
  exact ⟨_, rfl⟩

variable {requestId idempotencyKey : JsString} {changeSet : PreparedChangeSet}

/-- The rows of an accepted change set are inserted. -/
theorem fulfils_write (hrequest : isNonBlank requestId = true)
    (htenant : isNonBlank changeSet.customer.tenantId = true)
    (hkey : isNonBlank idempotencyKey = true) {name : JsString}
    (hname : checkPreparedChangeSet changeSet = .ok name)
    (hchecked : checkTenantId changeSet.customer.tenantId = .ok ()) (client : ClientId) :
    Fulfils IsDocumented (fun _ _ => True) past
      (write requestId idempotencyKey changeSet client) := by
  rw [write, hname]
  change Settles IsDocumented _ past
    (Program.sync (orThrow (checkTenantId changeSet.customer.tenantId)) >>= _)
  rw [hchecked]
  refine (fulfils_query client _).bind fun past _ _ => Fulfils.tryCatch ?_ _
  refine (fulfils_query client _).bind ?_
  -- each row comes back with what the receipt needs of it
  rintro past customer ⟨_, hid, hat, ⟨⟩⟩
  refine (fulfils_query client _).bind ?_
  rintro past auditId ⟨_, haudit, ⟨⟩⟩
  refine (fulfils_query client _).bind ?_
  rintro past outboxId ⟨_, houtbox, ⟨⟩⟩
  obtain ⟨receipt, hreceipt⟩ :=
    CommitReceipt.exists_ofRaw hrequest htenant hid hat haudit houtbox hkey
  exact ⟨receipt, congrArg orThrow hreceipt, trivial⟩

/-- A change set the writer accepts is committed, and of any other the commit is rejected. -/
theorem settles_commitChangeSet (hrequest : isNonBlank requestId = true)
    (htenant : isNonBlank changeSet.customer.tenantId = true)
    (hkey : isNonBlank idempotencyKey = true)
    (hchecked : checkTenantId changeSet.customer.tenantId = .ok ()) :
    Settles IsDocumented
      (fun _ o => ((∃ name, checkPreparedChangeSet changeSet = .ok name) ∧ ∃ r, o = .ok r) ∨
        (¬∃ name, checkPreparedChangeSet changeSet = .ok name) ∧ ∃ e, o = .error (.native e)) past
      (commitChangeSet changeSet requestId (.string idempotencyKey)) := by
  have hstring {s : JsString} (hs : isNonBlank s = true) (label : String) :
      nonEmptyString (.string s) label = .ok s := by
    cases s with
    | nil => cases hs
    | cons u s => rfl
  rw [commitChangeSet, hstring hrequest, hstring hkey]
  change Settles IsDocumented _ past (writeEnvelopeCommit requestId idempotencyKey changeSet)
  refine fulfils_begin.bind fun past client _ => ?_
  -- the writer checks before its first statement, so a refusal has only the client to give back
  cases hname : checkPreparedChangeSet changeSet with
  | ok name =>
    have hwrite : Fulfils IsDocumented (fun _ _ => True) past
        (write requestId idempotencyKey changeSet client) :=
      fulfils_write hrequest htenant hkey hname hchecked client
    refine (hwrite.tryCatch _).bind fun past receipt _ => ?_
    refine (fulfils_commit client).bind fun past _ _ => ?_
    exact .inl ⟨⟨name, rfl⟩, receipt, rfl⟩
  | error e =>
    have hwrite : write requestId idempotencyKey changeSet client =
        .settled (.error (.native e)) := by
      rw [write, hname]
      rfl
    rw [hwrite]
    refine Settles.bind (Q := fun _ o => o = .error (Thrown.native e)) ?_ (by rintro _ _ ⟨⟩) ?_
    · change Settles IsDocumented _ past
        ((PostgresUnitOfWork.rollback client).regardless >>= fun _ => throw (.native e))
      exact (fulfils_regardless _).bind fun _ _ _ => rfl
    · rintro past _ ⟨⟩
      refine .inr ⟨?_, e, rfl⟩
      rintro ⟨_, ⟨⟩⟩

end Commit

/-! ## The handler -/

/-- A UUID is not blank. -/
theorem CanonicalUuid.isNonBlank_value (id : CanonicalUuid) : isNonBlank id.value = true := by
  obtain ⟨u, s, hvalue⟩ : ∃ u s, id.value = u :: s := by
    cases hvalue : id.value with
    | nil =>
      have hform := id.form
      rw [hvalue] at hform
      cases hform
    | cons u s => exact ⟨u, s, rfl⟩
  have hmem : u ∈ id.value := by
    rw [hvalue]
    exact List.mem_cons_self
  obtain ⟨p, hp, hu⟩ := exists_class_of_matchesForm id.form hmem
  -- its first unit is a hexadecimal digit or a hyphen
  have hclass : p = hexClass ∨ p = charClass '-' := by
    simp only [uuidForm, List.mem_append, List.mem_cons, List.mem_replicate] at hp
    tauto
  refine isNonBlank_of_mem hmem ?_
  rcases hclass with rfl | rfl
  · simp only [hexClass, CodeUnit.inRange, Bool.or_eq_true, Bool.and_eq_true,
      decide_eq_true_iff, Char.reduceToNat] at hu
    simp [isTrimmed]
    omega
  · simp only [charClass, CodeUnit.isChar, beq_iff_eq, Char.reduceToNat] at hu
    simp [isTrimmed]
    omega

/-- A raw idempotency string is not blank. -/
theorem exists_isNonBlank_of_ofRaw {sha256 : ByteArray → JsString} {raw : JsValue}
    {key : IdempotencyKey} (h : IdempotencyKey.ofRaw sha256 raw = .ok key) :
    ∃ s, raw = .string s ∧ isNonBlank s = true := by
  obtain ⟨fingerprint, hfingerprint, -⟩ := map_eq_ok.mp h
  unfold fingerprintOf at hfingerprint
  split at hfingerprint
  · next s =>
    split_ifs at hfingerprint with htrim hcontrol hsize
    refine ⟨s, rfl, ?_⟩
    rw [isNonBlank, not_ne_iff.mp htrim]
    cases s with
    | nil => exact absurd (.inl (by decide)) hsize
    | cons u s => rfl
  · cases hfingerprint

/-- The fields carry the raw request id of the request. -/
theorem rawRequestId_of_build {request : JsValue} {spec : ActionSpec}
    (h : buildCreateCustomerActionSpec request = .ok spec) :
    rawRequestId spec = rawRequestIdOf request := by
  unfold buildCreateCustomerActionSpec at h
  split at h
  · split_ifs at h
    obtain rfl := Except.ok.inj h
    rfl
  · cases h

/-- The request is let through, and there is no name in its payload. -/
def Stuck (sha256 : ByteArray → JsString) (request : JsValue) (past : History kernel) : Prop :=
  ∃ spec, buildCreateCustomerActionSpec request = .ok spec ∧ Granted sha256 spec past ∧
    ¬NamesCustomer spec.payload

/-- How the handler ends: with a response to the request, or stuck. -/
inductive HandleEnds (sha256 : ByteArray → JsString) (request : JsValue)
    (past : History kernel) : Except Thrown Response → Prop
  | answered (response : Response) : response.requestId = rawRequestIdOf request →
      100 ≤ response.status → response.status ≤ 599 → ¬Stuck sha256 request past →
      HandleEnds sha256 request past (.ok response)
  | stuck (e : NativeError) : Stuck sha256 request past →
      HandleEnds sha256 request past (.error (.native e))

section Handler

variable {sha256 : ByteArray → JsString} {ports : Ports}

/-- What the commit service answers to, and what stops it. -/
theorem settles_serviceHandle (hsha : ∀ bytes, isHex64 (sha256 bytes) = true)
    (hports : PortsSettle ports) {request : JsValue} {spec : ActionSpec}
    (hbuild : buildCreateCustomerActionSpec request = .ok spec) :
    Settles IsDocumented (HandleEnds sha256 request) []
      (responseOf <$> serviceHandle sha256 ports spec) := by
  have hraw := rawRequestId_of_build hbuild
  have hstuck {past : History kernel} :
      Stuck sha256 request past ↔ Granted sha256 spec past ∧ ¬NamesCustomer spec.payload := by
    rw [Stuck, hbuild]
    simp only [Except.ok.injEq, exists_eq_left']
  rw [map_eq_bind_pure_comp, serviceHandle, bind_assoc]
  -- a refusal is answered by itself; what is allowed goes on to the commit
  refine (settles_run hports spec).bind ?_ (by rintro _ _ ⟨⟩)
  rintro past _ (⟨outcome, error, hnone⟩ | ⟨changeSet, hgranted, hprepared⟩)
  · refine .answered _ hraw ?_ ?_ ?_
    · simp only [responseOf]
      split <;> decide
    · simp only [responseOf]
      split <;> decide
    · rintro ⟨spec', hbuild', hgranted, -⟩
      obtain ⟨ev, hev, hgrant⟩ := hgranted.exists_isGrant
      exact hnone ev hev hgrant
  · -- a prepared change set is admitted when the payload names a customer:
    -- all else has been checked
    have hadmitted := (ChangeSetAdmission.admitted_iff_write_checks changeSet).symm.trans
      (hprepared.admitted_iff hsha)
    obtain ⟨command, shaped, hshape, hcommand, rfl, hid⟩ := hprepared
    obtain ⟨-, -, -, hkey⟩ := shapeCheck_eq_ok hshape
    obtain ⟨key, hkey, hnonBlank⟩ := exists_isNonBlank_of_ofRaw hkey
    have htenant : isNonBlank (preparedChangeSetOf command).customer.tenantId = true :=
      command.principal.tenantId.isNonBlank_value
    have hchecked : checkTenantId (preparedChangeSetOf command).customer.tenantId = .ok () := by
      rw [checkTenantId, demandNonEmpty, throwIf_eq_ok]
      intro hempty
      rw [hempty] at htenant
      cases htenant
    have hrequest : isNonBlank (rawRequestId spec) = true := by
      rw [hid]
      exact command.correlationId.isNonBlank_value
    change Settles IsDocumented _ past (_ >>= _)
    simp only [bind_assoc]
    rw [hkey]
    refine ((settles_commitChangeSet hrequest htenant hnonBlank hchecked).and
      (Settles.subset _)).bind ?_ ?_
    · rintro past' receipt ⟨⟨haccepted, -⟩ | ⟨-, _, ⟨⟩⟩, -⟩
      refine .answered _ hraw (show 100 ≤ 201 by decide) (show 201 ≤ 599 by decide) ?_
      rw [hstuck]
      rintro ⟨-, hname⟩
      exact hname (hadmitted.mp ⟨haccepted, hchecked⟩)
    · rintro past' _ ⟨⟨-, _, ⟨⟩⟩ | ⟨hrefused, e, ⟨⟩⟩, hsubset⟩
      refine .stuck e (hstuck.mpr ⟨hgranted.mono hsubset, fun hname => hrefused ?_⟩)
      exact (hadmitted.mpr hname).1

/-- Under documented answers the handler answers, unless it is stuck. -/
theorem settles_handle (hsha : ∀ bytes, isHex64 (sha256 bytes) = true)
    (hports : PortsSettle ports) {request : JsValue} :
    Settles IsDocumented (HandleEnds sha256 request) [] (handle sha256 ports request) := by
  unfold handle
  cases hbuild : buildCreateCustomerActionSpec request with
  | error e =>
    refine .answered _ rfl (show 100 ≤ 400 by decide) (show 400 ≤ 599 by decide) ?_
    rintro ⟨spec, hspec, -⟩
    rw [hbuild] at hspec
    cases hspec
  | ok spec =>
    refine (settles_serviceHandle hsha hports hbuild).tryCatch
      (fun _ _ h => h) ?_
    rintro past _ ⟨⟩
    exact .stuck _ ‹_›

end Handler

end MetaframerKernel
