import MetaframerKernel.Async.System
import MetaframerKernel.Delivery.CreateCustomerRequestHandler

/-!
# Audit before act

In the audited composition nothing is written, and no refusal by identity or policy is answered,
before the decision behind it has been committed to the decision log.

## Main definitions

* `Recorded`: a decision of an effect on a request has been appended for the principal that was
  authenticated;
* `auditedSystem`: any number of requests to the audited handler next to each other.

## Main results

* `audit_before_act`: what holds in every configuration any interleaving can reach.
-/

namespace MetaframerKernel

open Js Async CreateCustomerPipeline DecisionLoggingPolicyDecisionPoint

/-! ## Histories -/

/-- The identity collaborator has answered this principal. -/
def Authenticated (past : History kernel) (principal : Principal) : Prop :=
  (⟨.current, .ok (some principal)⟩ : Event kernel) ∈ past

/-- An entry is about a request: its trace is the raw request id, and its tenant and actor are
those of the principal that was authenticated. -/
def IsAbout (request : JsValue) (past : History kernel) (entry : DecisionLogEntry) : Prop :=
  entry.decision.traceId.value = rawRequestIdOf request ∧
    ∃ principal, Authenticated past principal ∧ entry.request.tenantId = principal.tenantId ∧
      entry.request.actorId = principal.actorId

/-- A decision of this effect on the request has been appended. -/
def Recorded (request : JsValue) (effect : Effect) (past : History kernel) : Prop :=
  ∃ entry ∈ appended past, entry.decision.effect = effect ∧ IsAbout request past entry

/-- No append has been rejected. -/
def NoneRejected (past : History kernel) : Prop :=
  ∀ entry e, (⟨.append entry, .error e⟩ : Event kernel) ∉ past

/-- The call is no statement. -/
def IsNoQuery : Call → Prop
  | .query .. => False
  | _ => True

/-- A call of a collaborator is no statement. -/
theorem IsCollaborator.isNoQuery {c : Call} (h : IsCollaborator c) : IsNoQuery c := by
  cases c with
  | query client statement => exact h
  | _ => trivial

/-- The call is no append. -/
def IsNoAppend : Call → Prop
  | .append _ => False
  | _ => True

section Histories

variable {request : JsValue} {effect : Effect} {past : History kernel}

/-- What has been appended stays in the history. -/
theorem mem_appended {entry : DecisionLogEntry} {rest : History kernel}
    (h : entry ∈ appended rest) : entry ∈ appended (past ++ rest) := by
  rw [appended_append]
  exact List.mem_append_right _ h

/-- A recorded decision stays so. -/
theorem Recorded.snoc (h : Recorded request effect past) (ev : Event kernel) :
    Recorded request effect (past ++ [ev]) := by
  obtain ⟨entry, hentry, heffect, htrace, principal, hauthenticated, hprincipal⟩ := h
  refine ⟨entry, ?_, heffect, htrace, principal, List.mem_append_left _ hauthenticated, hprincipal⟩
  rw [appended_append]
  exact List.mem_append_left _ hentry

/-- A call that is no append rejects none. -/
theorem NoneRejected.snoc (h : NoneRejected past) {c : Call} (hc : IsNoAppend c)
    (r : kernel.Settled c) : NoneRejected (past ++ [⟨c, r⟩]) := by
  intro entry e hmem
  rcases List.mem_append.mp hmem with hmem | hmem
  · exact h entry e hmem
  · cases List.mem_singleton.mp hmem
    exact hc

end Histories

/-! ## What the pipeline records -/

/-- What has been recorded when the audited pipeline answers. -/
def PipelineRecords (request : JsValue) (past : History kernel) : Except Thrown Outcome → Prop
  | .ok (.allowCommit _ _) => Recorded request .allow past
  | .ok (.refused outcome _ _) => outcome ≠ .invalid → Recorded request .deny past
  | .error _ => True

section Pipeline

variable {sha256 : ByteArray → JsString} {request : JsValue}

/-- The audited decision point appends the decision it answers. -/
theorem safe_decide (policyRequest : PolicyRequest) (past : History kernel) :
    Safe (fun _ _ => True)
      (fun past' o => past <+: past' ∧ ∀ decision, o = .ok decision →
        ∃ entry ∈ appended past', entry.request = policyRequest ∧ entry.decision = decision)
      past (auditedPorts.decide policyRequest) := by
  have hresolve (past : History kernel) (hpast : appended past = []) :
      Quiet policyRequest past (readChainHead policyRequest) :=
    quiet_ask hpast rfl fun _ => rfl
  have hone := safe_logOne policyRequest hresolve
  -- stated for a run from the start, and moved behind any history afterwards
  have hdecide : Safe (fun _ c => Concerns policyRequest c)
      (fun past (o : Except Thrown PolicyDecision) => ∀ decision, o = .ok decision →
        ∃ entry ∈ appended past, entry.request = policyRequest ∧ entry.decision = decision)
      [] (auditedPorts.decide policyRequest) := by
    refine hone.bind ?_ ?_
    · rintro past ⟨decision, entry⟩ ⟨happended, hrequest, hdecision⟩ _ ⟨⟩
      exact ⟨entry, by rw [happended]; exact List.mem_singleton_self _, hrequest, hdecision⟩
    · rintro past e - decision ⟨⟩
  rw [← List.append_nil past]
  refine hdecide.after (fun _ _ _ => trivial) fun rest o h => ?_
  rw [List.append_nil]
  refine ⟨List.prefix_append _ _, fun decision ho => ?_⟩
  obtain ⟨entry, hentry, hfields⟩ := h decision ho
  exact ⟨entry, mem_appended hentry, hfields⟩

/-- A decision is built with the effect and the trace it is given. -/
theorem fields_of_policyDecision {effect : Effect} {reason matched : JsValue}
    {traceId : CorrelationId} {decision : PolicyDecision}
    (h : PolicyDecision.ofRaw (.string effect.name) reason matched traceId = .ok decision) :
    decision.effect = effect ∧ decision.traceId = traceId := by
  simp only [PolicyDecision.ofRaw, bind_eq_ok] at h
  obtain ⟨effect', heffect, _, -, _, -, h⟩ := h
  obtain rfl := Except.ok.inj h
  simp only [PolicyDecision.effectValue, Effect.ofName?_name, Except.ok.injEq] at heffect
  exact ⟨heffect.symm, rfl⟩

/-- The decision of a guard refusal is a deny for the principal that was authenticated. -/
theorem guardDecision_eq_ok {guard : Guard} {reason : JsString} {policyRequest : PolicyRequest}
    {decision : PolicyDecision}
    (h : guardDecision guard reason = .ok (policyRequest, decision)) :
    policyRequest.action.principal = guard.principal ∧ decision.effect = .deny ∧
      decision.traceId = guard.correlationId := by
  simp only [guardDecision, bind_eq_ok] at h
  obtain ⟨action, haction, policyRequest', hrequest, decision', hdecision, h⟩ := h
  obtain ⟨rfl, rfl⟩ := Prod.mk.inj (Except.ok.inj h)
  refine ⟨?_, fields_of_policyDecision hdecision⟩
  rw [policyRequestOf_eq_ok hrequest]
  exact (commandOf_eq_ok haction).1

/-- The witness of the guards appends a deny for the principal that was authenticated. -/
theorem safe_identityGuardAuditor {guard : Guard} {past : History kernel}
    (htrace : guard.correlationId.value = rawRequestIdOf request)
    (hauthenticated : Authenticated past guard.principal) :
    Safe (fun _ _ => True) (fun past o => o = .ok () → Recorded request .deny past) past
      (identityGuardAuditor guard) := by
  unfold identityGuardAuditor
  split
  · exact nofun
  rename_i reason _
  -- whatever is asked, the principal stays authenticated
  have hask {past : History kernel} (hpast : Authenticated past guard.principal) (c : Call) :
      Safe (fun _ _ => True) (fun past _ => Authenticated past guard.principal) past
        (Program.ask (I := kernel) c) :=
    Safe.ask trivial fun _ => List.mem_append_left _ hpast
  cases hguard : guardDecision guard reason with
  | error e => exact nofun
  | ok d =>
    obtain ⟨policyRequest, decision⟩ := d
    obtain ⟨hprincipal, hdeny, hguardTrace⟩ := guardDecision_eq_ok hguard
    refine (hask hauthenticated (.chainHead guard.principal.tenantId)).bind ?_ (fun _ _ _ => nofun)
    intro past prevHash hpast
    refine (hask hpast .idGenerator).bind ?_ (fun _ _ _ => nofun)
    intro past id hpast
    refine Safe.bind (Q := fun past _ => Authenticated past guard.principal)
      ((hask hpast .now).bind (fun _ _ h => h) fun _ _ h => h) ?_ (fun _ _ _ => nofun)
    intro past ts hpast
    cases hentry : DecisionLogEntry.ofRaw id policyRequest decision .null ts prevHash with
    | error e => exact nofun
    | ok entry =>
      obtain ⟨hrequest, hdecision⟩ := fields_of_ofRaw hentry
      refine ⟨trivial, fun r hr => ?_⟩
      obtain rfl : r = .ok () := hr
      refine ⟨entry, mem_appended (List.mem_singleton_self _), ?_, ?_, guard.principal,
        List.mem_append_left _ hpast, ?_, ?_⟩
      · rw [hdecision, hdeny]
      · rw [hdecision, hguardTrace, htrace]
      · rw [hrequest, PolicyRequest.tenantId, hprincipal]
      · rw [hrequest, PolicyRequest.actorId, hprincipal]

/-- A refusal of a guard is recorded. -/
theorem safe_refuseAtGuard {outcome : Refusal} {code : ErrorCode} {principal : Principal}
    {shaped : Shaped} {past : History kernel}
    (htrace : shaped.correlationId.value = rawRequestIdOf request)
    (hauthenticated : Authenticated past principal) :
    Safe (fun _ _ => True) (PipelineRecords request) past
      (refuseAtGuard auditedPorts outcome code principal shaped) := by
  refine (safe_identityGuardAuditor htrace hauthenticated).bind ?_ (fun _ _ _ => trivial)
  intro past _ hrecorded _
  exact hrecorded rfl

/-- What a command is allowed or denied is recorded. -/
theorem safe_runCommand {command : Command} {past : History kernel}
    (htrace : command.correlationId.value = rawRequestIdOf request)
    (hauthenticated : Authenticated past command.principal) :
    Safe (fun _ _ => True) (PipelineRecords request) past (runCommand auditedPorts command) := by
  unfold runCommand
  cases hrequest : policyRequestOf command (literal []) with
  | error e => trivial
  | ok policyRequest =>
    have haction := policyRequestOf_eq_ok hrequest
    refine (safe_decide policyRequest past).bind ?_ (fun _ _ _ => trivial)
    rintro past' decision ⟨hpast, happended⟩
    obtain ⟨entry, hentry, hentryRequest, rfl⟩ := happended decision rfl
    have hrecorded : Recorded request entry.decision.effect past' := by
      refine ⟨entry, hentry, rfl, ?_, command.principal, hpast.subset hauthenticated, ?_, ?_⟩
      · rw [entry.sameTrace, hentryRequest, haction]
        exact htrace
      · rw [hentryRequest, PolicyRequest.tenantId, haction]
        rfl
      · rw [hentryRequest, PolicyRequest.actorId, haction]
        rfl
    by_cases hallow : entry.decision.effect = .allow
    · rw [if_neg (not_not_intro hallow)]
      rw [hallow] at hrecorded
      refine ⟨trivial, fun r => ?_⟩
      -- only an answer whose `ok` is true lets the command pass
      have hafter := hrecorded.snoc ⟨.evaluateInvariants command, r⟩
      rcases r with e | invariants
      · trivial
      · show PipelineRecords request _ (.ok (projectOutcome command invariants))
        unfold projectOutcome
        split
        · exact hafter
        · exact fun h => absurd rfl h
    · rw [if_pos hallow]
      intro _
      cases heffect : entry.decision.effect with
      | allow => exact absurd heffect hallow
      | deny =>
        rw [heffect] at hrecorded
        exact hrecorded

/-- Whatever the audited pipeline answers for reasons of identity or policy is recorded. -/
theorem safe_run (sha256 : ByteArray → JsString) {actionSpec : ActionSpec}
    (hspec : buildCreateCustomerActionSpec request = .ok actionSpec) :
    Safe (fun _ _ => True) (PipelineRecords request) []
      (CreateCustomerPipeline.run sha256 auditedPorts actionSpec) := by
  unfold CreateCustomerPipeline.run
  cases hshape : shapeCheck sha256 actionSpec with
  | error e => exact fun h => absurd rfl h
  | ok shaped =>
    have htrace : shaped.correlationId.value = rawRequestIdOf request :=
      (rawRequestIdOf_of_build hspec (shapeCheck_eq_ok hshape).1).symm
    -- the principal is the one that the identity provider answered
    have hidentity : Safe (fun _ _ => True)
        (fun past o => ∀ principal, o = .ok principal → Authenticated past principal) []
        identityCurrent := by
      refine ⟨trivial, fun r => ?_⟩
      rcases r with e | _ | principal
      · exact nofun
      · exact nofun
      · rintro _ ⟨⟩
        exact List.mem_singleton_self _
    refine hidentity.bind ?_ (fun _ _ _ => trivial)
    intro past principal hprincipal
    have hauthenticated := hprincipal principal rfl
    split_ifs
    · exact safe_refuseAtGuard htrace hauthenticated
    · exact safe_refuseAtGuard htrace hauthenticated
    · cases hcommand : commandOf principal shaped.correlationId shaped.idempotencyKey
          shaped.payload with
      | error e => exact fun h => absurd rfl h
      | ok command =>
        obtain ⟨hcommandPrincipal, hcorrelation, -⟩ := commandOf_eq_ok hcommand
        refine safe_runCommand ?_ ?_
        · rw [hcorrelation, htrace]
        · rwa [hcommandPrincipal]

/-- The audited pipeline makes no call after a rejected one. -/
theorem failsFast_run (actionSpec : ActionSpec) :
    FailsFast (CreateCustomerPipeline.run sha256 auditedPorts actionSpec) := by
  -- no part of the pipeline catches a failure
  have hclock : FailsFast clockNow := (FailsFast.ask _).bind fun _ => .settled _
  have hauditor (guard : Guard) : FailsFast (identityGuardAuditor guard) := by
    unfold identityGuardAuditor
    split
    · exact .settled _
    · refine (FailsFast.settled _).bind fun d => ?_
      refine (FailsFast.ask _).bind fun prevHash => ?_
      refine (FailsFast.ask _).bind fun id => ?_
      refine hclock.bind fun ts => ?_
      exact (FailsFast.settled _).bind fun entry => .ask _
  have hdecide (policyRequest : PolicyRequest) : FailsFast (auditedPorts.decide policyRequest) :=
    (failsFast_logOne (FailsFast.ask _)).bind fun _ => .settled _
  have hrefuse (outcome : Refusal) (code : ErrorCode) (principal : Principal) (shaped : Shaped) :
      FailsFast (refuseAtGuard auditedPorts outcome code principal shaped) :=
    (hauditor _).bind fun _ => .settled _
  have hcommand (command : Command) : FailsFast (runCommand auditedPorts command) := by
    refine (FailsFast.settled _).bind fun policyRequest => ?_
    refine (hdecide policyRequest).bind fun decision => ?_
    split_ifs
    · exact .settled _
    · exact (FailsFast.ask _).bind fun _ => .settled _
  unfold CreateCustomerPipeline.run
  split
  · exact .settled _
  · refine ((FailsFast.ask _).bind fun _ => .settled _).bind fun principal => ?_
    split_ifs
    · exact hrefuse _ _ _ _
    · exact hrefuse _ _ _ _
    · split
      · exact .settled _
      · exact hcommand _

/-- The write transaction appends nothing. -/
theorem calls_commitChangeSet (changeSet : PreparedChangeSet) (requestId : JsString)
    (idempotencyKey : JsValue) :
    Calls IsNoAppend (commitChangeSet changeSet requestId idempotencyKey) :=
  calls_commitChangeSet_of trivial (fun _ => trivial) fun _ _ _ => trivial

end Pipeline

/-! ## What the handler records -/

/-- No statement has been made. -/
def NoneQueried (past : History kernel) : Prop :=
  ∀ client statement r, (⟨.query client statement, r⟩ : Event kernel) ∉ past

/-- What has to have happened before a call: no statement before an append, no rejected append
before a statement, and a recorded allow before a transaction is begun. -/
def AuditGuard (request : JsValue) (past : History kernel) : Call → Prop
  | .append _ => NoneQueried past
  | .query _ statement => NoneRejected past ∧
      (statement = .begin → Recorded request .allow past)
  | _ => True

/-- What has happened when the commit service answers. -/
def ServiceAudited (request : JsValue) (past : History kernel) :
    Except Thrown ServiceResult → Prop
  | .ok (.committed _ _) => NoneRejected past
  | .ok (.refused outcome _ _) =>
      NoneRejected past ∧ (outcome ≠ .invalid → Recorded request .deny past)
  | .error e => ∀ entry r, (⟨.append entry, .error r⟩ : Event kernel) ∈ past → r = e

/-- What has happened when the handler answers. -/
def HandlerAudited (request : JsValue) (past : History kernel) : Except Thrown Response → Prop
  | .ok response =>
      (∀ entry r, (⟨.append entry, .error r⟩ : Event kernel) ∈ past →
        r.isIdempotencyConflictError = true) ∧
      (response.status = 403 → Recorded request .deny past)
  | .error _ => True

section Handler

variable {sha256 : ByteArray → JsString} {request : JsValue}

/-- A call that is no statement queries nothing. -/
theorem NoneQueried.snoc {past : History kernel} (h : NoneQueried past) {c : Call}
    (hc : IsNoQuery c) (r : kernel.Settled c) : NoneQueried (past ++ [⟨c, r⟩]) := by
  intro client statement r' hmem
  rcases List.mem_append.mp hmem with hmem | hmem
  · exact h client statement r' hmem
  · cases List.mem_singleton.mp hmem
    exact hc

/-- The service records its decision before any statement. -/
theorem safe_serviceHandle {actionSpec : ActionSpec}
    (hspec : buildCreateCustomerActionSpec request = .ok actionSpec) :
    Safe (AuditGuard request) (ServiceAudited request) []
      (serviceHandle sha256 auditedPorts actionSpec) := by
  have hcalls : Calls IsCollaborator (CreateCustomerPipeline.run sha256 auditedPorts actionSpec) :=
    calls_run portsCall_audited actionSpec
  -- the pipeline makes no statement, so an append can come before the first one only
  have hquiet := (hcalls.safe []).keep (W := NoneQueried)
    (fun _ _ _ => List.not_mem_nil) fun _ c r hc h => h.snoc hc.isNoQuery r
  have hpipeline := ((safe_run sha256 hspec).and
    ((failsFast_run actionSpec).safe fun _ _ => List.not_mem_nil)).and hquiet
  have hguard (past : History kernel) (c : Call) (hc : IsCollaborator c)
    (hpast : NoneQueried past) :
      AuditGuard request past c := by
    cases c with
    | append entry => exact hpast
    | query client statement => exact hc.isNoQuery.elim
    | _ => trivial
  refine (hpipeline.weaken fun past c h => hguard past c h.2.1 h.2.2).bind ?_ ?_
  · rintro past outcome ⟨⟨hrecords, hfulfilled⟩, -⟩
    have hnone : NoneRejected past := fun entry e => hfulfilled (.append entry) e
    cases outcome with
    | refused outcome requestId error => exact ⟨hnone, hrecords⟩
    | allowCommit requestId changeSet =>
      -- behind it the commit makes statements only, with the allow recorded
      have hcommit := ((calls_commitChangeSet changeSet requestId
        actionSpec.idempotencyKey).safe past).keep
        (W := fun past => NoneRejected past ∧ Recorded request .allow past) ⟨hnone, hrecords⟩
        fun _ c r hc h => ⟨h.1.snoc hc r, h.2.snoc _⟩
      refine (hcommit.weaken fun past c h => ?_).bind ?_ ?_
      · obtain ⟨hc, hnone, hrecorded⟩ := h
        cases c with
        | append entry => exact hc.elim
        | query client statement => exact ⟨hnone, fun _ => hrecorded⟩
        | _ => trivial
      · rintro past receipt ⟨-, hnone, -⟩
        exact hnone
      · rintro past e ⟨-, hnone, -⟩ entry r hmem
        exact absurd hmem (hnone entry r)
  · rintro past e ⟨⟨-, hrejected⟩, -⟩ entry r hmem
    exact hrejected (.append entry) r hmem

/-- The guard and the postcondition of the audited handler. -/
theorem safe_handle (sha256 : ByteArray → JsString) (request : JsValue) :
    Safe (AuditGuard request) (HandlerAudited request) [] (handle sha256 auditedPorts request) := by
  unfold handle
  cases hspec : buildCreateCustomerActionSpec request with
  | error e => exact ⟨fun _ _ h => absurd h List.not_mem_nil, nofun⟩
  | ok actionSpec =>
    -- a status of 403 is that of a refusal by policy
    have hservice : Safe (AuditGuard request)
        (fun past (o : Except Thrown Response) => match o with
          | .ok response => NoneRejected past ∧
              (response.status = 403 → Recorded request .deny past)
          | .error e => ∀ entry r, (⟨.append entry, .error r⟩ : Event kernel) ∈ past → r = e) []
        (responseOf <$> serviceHandle sha256 auditedPorts actionSpec) := by
      refine (safe_serviceHandle hspec).bind ?_ fun _ _ h => h
      intro past result hresult
      cases result with
      | committed requestId receipt => exact ⟨hresult, nofun⟩
      | refused outcome requestId error =>
        refine ⟨hresult.1, fun hstatus => hresult.2 ?_⟩
        rintro rfl
        cases hstatus
    refine hservice.tryCatch ?_ ?_
    · rintro past response ⟨hnone, hrecorded⟩
      exact ⟨fun entry r h => absurd h (hnone entry r), hrecorded⟩
    · intro past error hrejected
      split_ifs with hconflict
      · exact ⟨fun entry r h => hrejected entry r h ▸ hconflict, nofun⟩
      · trivial

end Handler

/-! ## Requests next to each other -/

/-- The audited handler called any number of times, over a log that takes the entries of fulfilled
appends. A rejected append may have been committed or not. -/
def auditedSystem (sha256 : ByteArray → JsString) (requests : ℕ → JsValue) :
    System kernel ℕ (List DecisionLogEntry) Response where
  program i := handle sha256 auditedPorts (requests i)
  Answers committed _ ev committed' :=
    (∀ entry e, ev = ⟨.append entry, .error e⟩ → e.IsAppendRejection) ∧
      (committed' = committed ++ appended [ev] ∨
        ∃ entry e, ev = ⟨.append entry, .error e⟩ ∧ committed' = committed ++ [entry])

section System

variable {sha256 : ByteArray → JsString} {requests : ℕ → JsValue}
  {cfg : Config kernel ℕ (List DecisionLogEntry) Response}

/-- What the calls of the requests have appended is committed, and appends have been rejected for
the reasons of the adapter only. -/
structure LogAgrees (committed : List DecisionLogEntry) (past : ℕ → History kernel) : Prop where
  committed : ∀ i, ∀ entry ∈ appended (past i), entry ∈ committed
  rejected : ∀ i entry e, (⟨.append entry, .error e⟩ : Event kernel) ∈ past i →
    e.IsAppendRejection

/-- A call that is no append appends nothing. -/
theorem appended_of_isNoAppend {c : Call} (hc : IsNoAppend c) (r : kernel.Settled c) :
    appended [⟨c, r⟩] = [] := by
  cases c with
  | append entry => exact hc.elim
  | _ => rfl

/-- One answer adds to the log what it appends. -/
theorem log_of_answers {committed committed' : List DecisionLogEntry} {i : ℕ} {ev : Event kernel}
    (h : (auditedSystem sha256 requests).Answers committed i ev committed') :
    committed ⊆ committed' ∧ ∀ entry ∈ appended [ev], entry ∈ committed' := by
  obtain ⟨-, rfl | ⟨entry, e, rfl, rfl⟩⟩ := h
  · exact ⟨List.subset_append_left _ _, fun entry hentry => List.mem_append_right _ hentry⟩
  · exact ⟨List.subset_append_left _ _, fun _ he => absurd he List.not_mem_nil⟩

/-- In every reachable configuration the log agrees with the histories. -/
theorem logAgrees_of_reachable (h : (auditedSystem sha256 requests).Reachable [] cfg) :
    LogAgrees cfg.state cfg.past := by
  refine h.invariant (P := LogAgrees) (fun i => safe_handle sha256 (requests i))
    ⟨fun _ _ h => absurd h List.not_mem_nil, fun _ _ _ h => absurd h List.not_mem_nil⟩ ?_
  intro committed past i c r committed' hagrees _ hanswers
  obtain ⟨hsubset, happended⟩ := log_of_answers hanswers
  -- both parts are about the history of one program; only that of `i` has grown
  refine ⟨fun j entry hentry => ?_, fun j entry e hmem => ?_⟩
  · by_cases hj : j = i
    · subst hj
      rw [Function.update_self, appended_append] at hentry
      rcases List.mem_append.mp hentry with hentry | hentry
      · exact hsubset (hagrees.committed j entry hentry)
      · exact happended entry hentry
    · rw [Function.update_of_ne hj] at hentry
      exact hsubset (hagrees.committed j entry hentry)
  · by_cases hj : j = i
    · subst hj
      rw [Function.update_self] at hmem
      rcases List.mem_append.mp hmem with hmem | hmem
      · exact hagrees.rejected j entry e hmem
      · exact hanswers.1 entry e (List.mem_singleton.mp hmem).symm
    · rw [Function.update_of_ne hj] at hmem
      exact hagrees.rejected j entry e hmem

/-- A statement and a rejected append do not go together, whichever came first. -/
theorem not_queried_of_rejected {request : JsValue} {past : History kernel}
    {p : Program kernel Response}
    (hsteps : Steps (handle sha256 auditedPorts request) past p) {entry : DecisionLogEntry}
    {e : Thrown} (hrejected : (⟨.append entry, .error e⟩ : Event kernel) ∈ past) :
    NoneQueried past := by
  intro client statement r hqueried
  obtain ⟨before, after, rfl⟩ := List.append_of_mem hqueried
  have hguard := (safe_handle sha256 request).guard_of_steps hsteps rfl
  rcases List.mem_append.mp hrejected with hbefore | hafter
  · exact hguard.1 entry e hbefore
  · rcases List.mem_cons.mp hafter with heq | hafter
    · cases heq
    · obtain ⟨middle, rest, rfl⟩ := List.append_of_mem hafter
      have hsplit : before ++ ⟨.query client statement, r⟩ ::
          (middle ++ ⟨.append entry, .error e⟩ :: rest) =
        (before ++ ⟨.query client statement, r⟩ :: middle) ++
          ⟨.append entry, .error e⟩ :: rest := by
        simp
      have hguard := (safe_handle sha256 request).guard_of_steps hsteps hsplit
      exact hguard client statement r (by simp)

/-- In any interleaving of any number of requests, a transaction is about to begin only when an
allow for its request has been committed, a request has been answered 403 only when a deny for it
has been committed, and a request whose append was rejected makes no statement and is not
answered. -/
theorem audit_before_act (sha256 : ByteArray → JsString) (requests : ℕ → JsValue)
    {cfg : Config kernel ℕ (List DecisionLogEntry) Response}
    (h : (auditedSystem sha256 requests).Reachable [] cfg) (i : ℕ) :
    (∀ client next, cfg.left i = .await (.query client .begin) next →
      ∃ entry ∈ cfg.state, entry.decision.effect = .allow ∧
        IsAbout (requests i) (cfg.past i) entry) ∧
    (∀ response, cfg.left i = .settled (.ok response) → response.status = 403 →
      ∃ entry ∈ cfg.state, entry.decision.effect = .deny ∧
        IsAbout (requests i) (cfg.past i) entry) ∧
    ∀ entry e, ⟨.append entry, .error e⟩ ∈ cfg.past i →
      (∀ client statement r, ⟨.query client statement, r⟩ ∉ cfg.past i) ∧
      (∀ client statement next, cfg.left i ≠ .await (.query client statement) next) ∧
      ∀ response, cfg.left i ≠ .settled (.ok response) := by
  have hagrees := logAgrees_of_reachable h
  have hsafe := h.safe (safe_handle sha256 (requests i))
  -- what a request has appended is in the log that all of them share
  have hcommitted {effect : Effect} (hrecorded : Recorded (requests i) effect (cfg.past i)) :
      ∃ entry ∈ cfg.state, entry.decision.effect = effect ∧
        IsAbout (requests i) (cfg.past i) entry := by
    obtain ⟨entry, hentry, hfields⟩ := hrecorded
    exact ⟨entry, hagrees.committed i entry hentry, hfields⟩
  refine ⟨fun client next hleft => ?_, fun response hleft hstatus => ?_,
    fun entry e hrejected => ⟨?_, fun client statement next hleft => ?_, fun response hleft => ?_⟩⟩
  · rw [hleft] at hsafe
    exact hcommitted (hsafe.1.2 rfl)
  · rw [hleft] at hsafe
    exact hcommitted (hsafe.2 hstatus)
  · exact not_queried_of_rejected (h.steps i) hrejected
  · rw [hleft] at hsafe
    exact hsafe.1.1 entry e hrejected
  · rw [hleft] at hsafe
    have hconflict := hsafe.1 entry e hrejected
    rw [(hagrees.rejected i entry e hrejected).not_conflict] at hconflict
    cases hconflict

end System

/-! ## A request that is denied -/

/-- A log kept in memory beside an identity collaborator and no grants, for examples. -/
def noGrants : Outside kernel (List DecisionLogEntry) := fun c committed =>
  match c with
  | .current => (.ok (some PolicyRequest.sample.action.principal), committed)
  | .append entry => (.ok (), committed ++ [entry])
  | c => ((memory (fun _ => []) c []).1, committed)

/-- The sample's answers are ones that the outside can give. -/
theorem answers_noGrants (requests : ℕ → JsValue) (i : ℕ) (c : Call)
    (committed : List DecisionLogEntry) :
    (auditedSystem (fun _ => []) requests).Answers committed i
      ⟨c, (noGrants c committed).1⟩ (noGrants c committed).2 := by
  by_cases hc : IsNoAppend c
  · have hstate : (noGrants c committed).2 = committed := by
      cases c with
      | append entry => exact hc.elim
      | _ => rfl
    refine ⟨fun entry e h => ?_, .inl ?_⟩
    · obtain rfl : c = .append entry := congrArg Sigma.fst h
      exact hc.elim
    · rw [hstate, appended_of_isNoAppend hc, List.append_nil]
  · cases c with
    | append entry => exact ⟨fun _ e h => absurd h (Event.ok_ne_error _ e), .inl rfl⟩
    | _ => exact absurd trivial hc

/-- The request is refused for want of a grant. -/
theorem sampleRequest_forbidden :
    ((run noGrants (handle (fun _ => []) auditedPorts sampleRequest) []).outcome.map
      Response.status).toOption = some 403 := by
  decide +kernel

theorem audit_before_act_sample :
    ∃ cfg response, (auditedSystem (fun _ => []) fun _ => sampleRequest).Reachable [] cfg ∧
      cfg.left 0 = .settled (.ok response) ∧ response.status = 403 ∧
      ∃ entry ∈ cfg.state, entry.decision.effect = .deny ∧
        IsAbout sampleRequest (cfg.past 0) entry := by
  let sys := auditedSystem (fun _ => []) fun _ => sampleRequest
  have hinit : sys.Reachable [] _ := .init
  have h := hinit.ran (answers_noGrants (fun _ => sampleRequest) 0)
  -- the run is taken whole, and only its status is evaluated
  generalize hcfg : Config.ran _ noGrants 0 = cfg at h
  have hleft : cfg.left 0 =
      .settled (run noGrants (handle (fun _ => []) auditedPorts sampleRequest) []).outcome := by
    rw [← hcfg]
    rfl
  have hforbidden := sampleRequest_forbidden
  cases houtcome : (run noGrants (handle (fun _ => []) auditedPorts sampleRequest) []).outcome with
  | error e =>
    rw [houtcome] at hforbidden
    cases hforbidden
  | ok response =>
    rw [houtcome] at hforbidden hleft
    have hstatus : response.status = 403 := Option.some.inj hforbidden
    exact ⟨cfg, response, h, hleft, hstatus, (audit_before_act _ _ h 0).2.1 response hleft hstatus⟩

end MetaframerKernel
