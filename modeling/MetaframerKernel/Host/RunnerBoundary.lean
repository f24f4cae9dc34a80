import MetaframerKernel.Delivery.GuardRefusals
import MetaframerKernel.Domain.HexDigest
import MetaframerKernel.Host.CustomerAsgiRunner

/-!
# The boundary of the runner

Any number of processes of the runner next to each other over one decision log. What the request
claims decides nothing about the database: the arguments of the process do.

## Main definitions

* `Boundary`: what has to hold before each call of a process;
* `runnerSystem`: processes next to each other.

## Main results

* `runner_boundary`: the database is touched in allow mode only and for the trusted tenant, with the
  audit on no transaction begins before an allow for the trusted principal is in the log, and
  nothing is printed after an entry could not be appended.
-/

namespace MetaframerKernel.CreateCustomerAsgiRunner

open Js Async Program CreateCustomerPipeline DecisionLoggingPolicyDecisionPoint

/-! ## The plain composition -/

/-- The candidates that were answered allow what was asked. -/
def Permitted (past : History kernel) : Prop :=
  ∃ request candidates d, (⟨.candidatesFor request, .ok candidates⟩ : Event kernel) ∈ past ∧
    AuthorizationEvaluator.decide request candidates = .ok d ∧ d.effect = .allow

/-- The call is none of the decision log. -/
def IsNoLog : Call → Prop
  | .chainHead _ => False
  | .append _ => False
  | _ => True

/-- Before a call of the plain composition: it is none of the log, and one of the pool comes after
candidates that allow. -/
def PlainGuard (past : History kernel) (c : Call) : Prop :=
  IsNoLog c ∧ (IsCollaborator c ∨ Permitted past)

section Plain

variable {sha256 : ByteArray → JsString} {past : History kernel}

/-- What was permitted stays so. -/
theorem Permitted.append (h : Permitted past) (rest : History kernel) :
    Permitted (past ++ rest) := by
  obtain ⟨request, candidates, d, hmem, hd⟩ := h
  exact ⟨request, candidates, d, List.mem_append_left _ hmem, hd⟩

/-- A command is let through when its decision permits it. -/
theorem permitted_of_runCommand (command : Command) (past : History kernel) :
    Safe (fun _ _ => True)
      (fun past o => ∀ requestId changeSet, o = .ok (.allowCommit requestId changeSet) →
        Permitted past) past (runCommand plainPorts command) := by
  unfold runCommand
  refine Safe.syncBind (fun request _ => ?_) fun _ _ => nofun
  -- the plain decision is made of the candidates that were just read
  have hdecide : Safe (fun _ _ => True)
      (fun past o => ∀ d, o = .ok d → d.effect = .allow → Permitted past) past
      (plainPorts.decide request) := by
    refine ⟨trivial, fun r => ?_⟩
    cases r with
    | error e => exact nofun
    | ok candidates =>
      intro d hd hallow
      exact ⟨request, candidates, d, List.mem_append_right _ List.mem_cons_self,
        orThrow_eq_ok.mp hd, hallow⟩
  refine hdecide.bind (fun past d hd => ?_) fun _ _ _ => nofun
  split_ifs with heffect
  · exact nofun
  · have hpermitted := hd d rfl (not_not.mp heffect)
    refine ⟨trivial, fun r => ?_⟩
    cases r with
    | error e => exact nofun
    | ok invariants => exact fun _ _ _ => hpermitted.append _

/-- What the plain pipeline lets through was permitted. -/
theorem permitted_of_run (actionSpec : ActionSpec) :
    Safe (fun _ _ => True)
      (fun past o => ∀ requestId changeSet, o = .ok (.allowCommit requestId changeSet) →
        Permitted past) [] (CreateCustomerPipeline.run sha256 plainPorts actionSpec) := by
  unfold CreateCustomerPipeline.run
  cases shapeCheck sha256 actionSpec with
  | error e => exact nofun
  | ok shaped =>
    refine (safe_any identityCurrent []).bind ?_ fun _ _ _ => nofun
    intro past principal _
    have hrefused (outcome : Refusal) (code : ErrorCode) := (refused_of_refuseAtGuard plainPorts
      outcome code principal shaped past).mono fun past _ h requestId changeSet houtcome =>
        (show Permitted past from absurd houtcome (h requestId changeSet))
    split_ifs
    · exact hrefused _ _
    · exact hrefused _ _
    · split
      · exact nofun
      · exact permitted_of_runCommand _ _

/-- The plain ports ask the collaborators and write no log. -/
theorem portsCall_noLog : PortsCall (fun c => IsNoLog c ∧ IsCollaborator c) plainPorts where
  current := ⟨trivial, trivial⟩
  evaluateInvariants _ := ⟨trivial, trivial⟩
  decide _ := Calls.askBind ⟨trivial, trivial⟩ fun _ => trivial
  auditIdentityGuard _ := nofun

/-- With the plain ports the handler writes no log. -/
theorem safe_plain_handle (sha256 : ByteArray → JsString) (request : JsValue) :
    Safe PlainGuard (fun _ _ => True) [] (handle sha256 plainPorts request) := by
  unfold handle
  cases buildCreateCustomerActionSpec request with
  | error e => trivial
  | ok actionSpec =>
    have hcalls : Calls _ (CreateCustomerPipeline.run sha256 plainPorts actionSpec) :=
      calls_run portsCall_noLog actionSpec
    have hrun : Safe PlainGuard _ [] (CreateCustomerPipeline.run sha256 plainPorts actionSpec) :=
      ((hcalls.safe []).and (permitted_of_run actionSpec)).weaken fun past c h =>
        ⟨h.1.1, .inl h.1.2⟩
    -- only a permitted outcome comes to the commit, and the history keeps the permission
    have hservice : Safe PlainGuard (fun _ _ => True) []
        (serviceHandle sha256 plainPorts actionSpec) := by
      refine hrun.bind ?_ fun _ _ _ => trivial
      rintro past outcome ⟨-, hpermitted⟩
      cases outcome with
      | refused outcome requestId e => trivial
      | allowCommit requestId changeSet =>
        have hcommit : Calls IsNoLog
            (commitChangeSet changeSet requestId actionSpec.idempotencyKey) :=
          calls_commitChangeSet_of trivial (fun _ => trivial) fun _ _ _ => trivial
        have hkeep := (hcommit.safe past).keep (W := Permitted)
          (hpermitted requestId changeSet rfl) fun _ _ _ _ h => h.append _
        refine (hkeep.weaken fun past c h => ⟨h.1, .inr h.2⟩).bind ?_ fun _ _ _ => trivial
        exact fun _ _ _ => trivial
    refine Safe.tryCatch (Q := fun _ _ => True) ?_ (fun _ _ _ => trivial) fun past error _ => ?_
    · exact hservice.bind (fun _ _ _ => trivial) fun _ _ _ => trivial
    · split_ifs <;> trivial

end Plain

/-! ## Either composition -/

/-- Before a call of the composition that the arguments select. -/
def KernelGuard (args : Args) (past : History kernel) (c : Call) : Prop :=
  TenantGuard past c ∧
    if args.policy = .allow ∧ args.audit = true then ∃ request, AuditGuard request past c
    else PlainGuard past c

/-- No append was rejected, but for what passes for a conflict of idempotency keys. -/
def Recordable (past : History kernel) : Prop :=
  ∀ entry e, (⟨.append entry, .error e⟩ : Event kernel) ∈ past →
    e.isIdempotencyConflictError = true

/-- The handler is guarded, and answers when its appends went through. -/
theorem safe_handler (sha256 : ByteArray → JsString) (args : Args) (request : JsValue) :
    Safe (KernelGuard args) (fun past o => ∀ response, o = .ok response → Recordable past) []
      (handle sha256 (portsOf args) request) := by
  unfold KernelGuard portsOf
  -- the audited ports are used in allow mode with --audit, the plain ones otherwise
  by_cases haudited : args.policy = .allow ∧ args.audit = true
  · simp only [if_pos haudited]
    refine (((safe_tenant_handle portsRow_audited sha256 request).and
      (safe_handle sha256 request)).weaken fun past c h => ⟨h.1, request, h.2⟩).mono ?_
    rintro past _ ⟨-, haudit⟩ response rfl
    exact haudit.1
  · simp only [if_neg haudited]
    have hplain := (safe_plain_handle sha256 request).keep (W := Recordable)
      (fun _ _ h => absurd h List.not_mem_nil) ?_
    · refine (((safe_tenant_handle portsRow_plain sha256 request).and
        hplain).weaken fun past c h => ⟨h.1, h.2.1⟩).mono ?_
      rintro past _ ⟨-, -, hrecordable⟩ _ _
      exact hrecordable
    · intro past c r hc h entry e hmem
      rcases List.mem_append.mp hmem with hmem | hmem
      · exact h entry e hmem
      · cases List.mem_singleton.mp hmem
        exact hc.1.elim

/-- The status of a response is one of HTTP. -/
theorem status_of_toResponseEvents {response : HttpResponse}
    {events : AsgiCoreProfile.ResponseEvents}
    (h : AsgiCoreProfile.toResponseEvents response = .ok events) :
    100 ≤ events.status ∧ events.status ≤ 599 := by
  simp only [AsgiCoreProfile.toResponseEvents, AsgiCoreProfile.checkRouterResponse, bind_eq_ok,
    throwIf_eq_ok] at h
  obtain ⟨_, ⟨_, hstatus, -⟩, h⟩ := h
  obtain rfl := Except.ok.inj h
  push Not at hstatus
  exact hstatus

/-- What holds of the handler on every request holds of the profile adapter. -/
theorem safe_profileHandle {sha256 : ByteArray → JsString} {ports : Ports}
    {G : History kernel → Call → Prop} {W : History kernel → Prop} (hW : W [])
    (h : ∀ request, Safe G (fun past o => ∀ response, o = .ok response → W past) []
      (handle sha256 ports request)) (scope : Scope) (body : JsValue) :
    Safe G (fun past o => ∀ events, o = .ok events →
        W past ∧ 100 ≤ events.status ∧ events.status ≤ 599) []
      (AsgiCoreProfile.handle (routes sha256 ports) scope body) := by
  have hadapter (message : Message) :
      Safe G (fun past o => ∀ response, o = .ok response → W past) []
        (HttpMessageAdapter.handle sha256 ports message) := by
    unfold HttpMessageAdapter.handle
    split_ifs
    · exact fun _ _ => hW
    · exact fun _ _ => hW
    · exact fun _ _ => hW
    · refine (h _).bind (fun past response hpast => ?_) fun _ _ _ => nofun
      exact fun _ _ => hpast response rfl
  -- the one route is that of the adapter
  have hrouter (message : Message) :
      Safe G (fun past o => ∀ response, o = .ok response → W past) []
        (StandardRouter.handle (routes sha256 ports) message) := by
    unfold StandardRouter.handle
    split
    · exact fun _ _ => hW
    · split
      · exact fun _ _ => hW
      · rename_i route hroute
        have hmem := (List.mem_filter.mp (List.mem_of_find?_eq_some hroute)).1
        obtain rfl := List.mem_singleton.mp hmem
        exact hadapter message
  unfold AsgiCoreProfile.handle
  split
  · refine (hrouter _).bind (fun past response hpast => ?_) fun _ _ _ => nofun
    exact fun events hevents => ⟨hpast response rfl,
      status_of_toResponseEvents (orThrow_eq_ok.mp hevents)⟩
  · rintro _ ⟨⟩
    exact ⟨hW, by decide⟩

/-! ## Collaborators in the process -/

/-- The call is one of a pool or of the log. -/
def isPool : Call → Bool
  | .current => false
  | .candidatesFor _ => false
  | .evaluateInvariants _ => false
  | .idGenerator => false
  | .now => false
  | _ => true

/-- The calls of pools and of the log. -/
def poolPart (past : History runner) : History kernel := past.filterMap fun
  | ⟨.inl c, r⟩ => some ⟨c, r⟩
  | ⟨.inr _, _⟩ => none

/-- What the collaborators of the process answer. -/
def AnsweredInProcess (policy : Policy) (identity : JsString × JsString) : Event kernel → Prop
  | ⟨.current, r⟩ => r = orThrow (some <$> principalOf identity)
  | ⟨.candidatesFor _, r⟩ => r = .ok (.array .arrayPrototype [(some .data, candidate policy)] 0)
  | _ => True

/-- What the composition has called, and what the process has called for it. -/
structure Mirrors (policy : Policy) (identity : JsString × JsString) (past : History kernel)
    (past' : History runner) : Prop where
  pools : poolPart past' = past.filter fun ev => isPool ev.1
  answers : ∀ ev ∈ past, AnsweredInProcess policy identity ev

/-- Before a call of the process on behalf of the composition. -/
def OnBehalf (policy : Policy) (identity : JsString × JsString) (G : History kernel → Call → Prop)
    (past' : History runner) : runner.Call → Prop
  | .inl c => ∃ past, Mirrors policy identity past past' ∧ G past c ∧ isPool c = true
  | .inr (.write _) => False
  | .inr .close => False
  | _ => True

section Collaborators

variable {policy : Policy} {identity : JsString × JsString} {past : History kernel}
  {past' : History runner} {G : History kernel → Call → Prop}

/-- The calls of the pool are those of the two histories. -/
theorem poolPart_append (past rest : History runner) :
    poolPart (past ++ rest) = poolPart past ++ poolPart rest := List.filterMap_append

/-- A call that a collaborator has answered. -/
theorem Mirrors.own (h : Mirrors policy identity past past') {c : Call} {r : kernel.Settled c}
    (hc : isPool c = false) (hanswer : AnsweredInProcess policy identity ⟨c, r⟩)
    {rest : History runner} (hrest : poolPart rest = []) :
    Mirrors policy identity (past ++ [⟨c, r⟩]) (past' ++ rest) where
  pools := by
    rw [poolPart_append, hrest, h.pools, List.filter_append]
    simp [hc]
  answers := by
    intro ev hmem
    rcases List.mem_append.mp hmem with hmem | hmem
    · exact h.answers ev hmem
    · rw [List.mem_singleton.mp hmem]
      exact hanswer

/-- A call that a pool or the log has answered. -/
theorem Mirrors.pool (h : Mirrors policy identity past past') {c : Call} (hc : isPool c = true)
    (r : kernel.Settled c) :
    Mirrors policy identity (past ++ [⟨c, r⟩]) (past' ++ [⟨.inl c, r⟩]) where
  pools := by
    rw [poolPart_append, h.pools, List.filter_append]
    simp [hc, poolPart]
  answers := by
    intro ev hmem
    rcases List.mem_append.mp hmem with hmem | hmem
    · exact h.answers ev hmem
    · rw [List.mem_singleton.mp hmem]
      cases c with
      | current => cases hc
      | candidatesFor request => cases hc
      | _ => trivial

/-- Each call of the composition is answered in step. -/
theorem safe_collaborators (h : Mirrors policy identity past past') (c : Call) (hG : G past c) :
    Safe (OnBehalf policy identity G)
      (fun past' r => Mirrors policy identity (past ++ [⟨c, r⟩]) past') past'
      (collaborators policy identity (.inl c)) := by
  have hown {c : Call} {r : kernel.Settled c} (hc : isPool c = false)
      (hanswer : AnsweredInProcess policy identity ⟨c, r⟩) :
      Mirrors policy identity (past ++ [⟨c, r⟩]) past' := by
    rw [← List.append_nil past']
    exact h.own hc hanswer rfl
  have hpool (hc : isPool c = true) : Safe (OnBehalf policy identity G)
      (fun past' r => Mirrors policy identity (past ++ [⟨c, r⟩]) past') past'
      (Program.ask (I := runner) (.inl c)) :=
    Safe.ask ⟨past, h, hG, hc⟩ fun r => h.pool hc r
  -- the calls that are answered in the process stand first, those of the pool and of the log last
  cases c with
  | current => exact hown rfl rfl
  | candidatesFor request => exact hown rfl rfl
  | evaluateInvariants command => exact hown rfl trivial
  | idGenerator =>
    refine ⟨trivial, fun now => ?_⟩
    cases now with
    | error e => exact h.own rfl (by trivial) rfl
    | ok now =>
      refine ⟨trivial, fun random => ?_⟩
      rw [List.append_assoc]
      cases random with
      | error e => exact h.own rfl (by trivial) rfl
      | ok random => exact h.own rfl (by trivial) rfl
  | now =>
    refine ⟨trivial, fun instant => ?_⟩
    cases instant with
    | error e => exact h.own rfl (by trivial) rfl
    | ok instant => exact h.own rfl (by trivial) rfl
  | chainHead tenantId => exact hpool rfl
  | append entry => exact hpool rfl
  | connect => exact hpool rfl
  | query client statement => exact hpool rfl
  | release client => exact hpool rfl

end Collaborators

/-! ## The application in the process -/

/-- A start with a status of HTTP, and a body. -/
def IsResponse (events : List SentEvent) : Prop :=
  ∃ status headers body, events = [.start status headers, .body body false] ∧
    100 ≤ status ∧ status ≤ 599

section Process

variable {sha256 : ByteArray → JsString} {args : Args} {identity : JsString × JsString}

/-- The process takes every event that is sent. -/
theorem answeredBy_sendAll (policy : Policy) (events : List SentEvent) :
    (AsgiCoreProfile.sendAll events).answeredBy (collaborators policy identity) = pure () := by
  induction events with
  | nil => rfl
  | cons event events ih => exact ih

/-- What the process has done on behalf of the composition when it has events to print. -/
def Responded (args : Args) (identity : JsString × JsString) (past' : History runner)
    (o : Except Thrown (List SentEvent)) : Prop :=
  ∀ events, o = .ok events → IsResponse events ∧
    ∃ past, Mirrors args.policy identity past past' ∧ Recordable past

/-- An empty history can be recorded. -/
theorem recordable_nil : Recordable [] := fun _ _ h => absurd h List.not_mem_nil

/-- Nothing mirrors nothing. -/
theorem Mirrors.nil {policy : Policy} : Mirrors policy identity [] [] :=
  ⟨rfl, fun _ h => absurd h List.not_mem_nil⟩

/-- A response is made on behalf of the identity alone. -/
theorem safe_respond (scope : JsValue) (body : List UInt8) :
    Safe (OnBehalf args.policy identity (KernelGuard args)) (Responded args identity) []
      (respond sha256 args identity scope body) := by
  have herror : Safe (OnBehalf args.policy identity (KernelGuard args)) (Responded args identity)
      [] (AsgiCoreProfile.sendErrorEvents.answeredBy (collaborators args.policy identity)) := by
    unfold AsgiCoreProfile.sendErrorEvents
    rw [answeredBy_bind, answeredBy_sendAll]
    rintro _ ⟨⟩
    exact ⟨⟨_, _, _, rfl, by decide⟩, [], .nil, recordable_nil⟩
  unfold respond app AsgiCoreProfile.callFromReceive
  split_ifs
  · exact herror
  · split
    · exact herror
    · rename_i body _
      unfold AsgiCoreProfile.call
      rw [answeredBy_bind, answeredBy_widen]
      -- what the application has recorded is recorded in the history that mirrors its own
      have hkept (past : History kernel) (past' : History runner)
          (o : Except Thrown AsgiCoreProfile.ResponseEvents)
          (h : Mirrors args.policy identity past past')
          (hpast : ∀ events, o = .ok events →
            Recordable past ∧ 100 ≤ events.status ∧ events.status ≤ 599) :
          ∀ events, o = .ok events → (100 ≤ events.status ∧ events.status ≤ 599) ∧
            ∃ past, Mirrors args.policy identity past past' ∧ Recordable past :=
        fun events ho => ⟨(hpast events ho).2, past, h, (hpast events ho).1⟩
      have hhandle := (safe_profileHandle recordable_nil (safe_handler sha256 args)
        (scopeOf scope) body).answeredBy (f := fun c => collaborators args.policy identity (.inl c))
        Mirrors.nil (fun past past' c h hG => safe_collaborators h c hG) hkept
      refine hhandle.bind (fun past' events hpast => ?_) fun _ _ _ => nofun
      rw [answeredBy_bind, answeredBy_sendAll]
      rintro _ ⟨⟩
      exact ⟨⟨_, _, _, rfl, (hpast events rfl).1⟩, (hpast events rfl).2⟩

end Process

/-! ## A process -/

/-- The log has an allow for the principal. -/
def Allowed (log : List DecisionLogEntry) (tenant actor : JsString) : Prop :=
  ∃ entry ∈ log, entry.decision.effect = .allow ∧ entry.request.tenantId.value = tenant ∧
    entry.request.actorId.value = actor

/-- The arguments admit a call of the database: they select allow mode, and the rows it writes or
asks for are of the trusted tenant; it is none of the log unless the audit is on, and then no
transaction begins before an allow for the trusted principal has been appended. -/
def Admits (argv : List JsString) (log : List DecisionLogEntry) (c : Call) : Prop :=
  ∃ args tenant actor, parseArgs argv = .ok args ∧ args.policy = .allow ∧
    args.trustedTenantId = some tenant ∧ args.trustedActorId = some actor ∧
    (∀ t, touchedTenant? c = some t → t = tenant) ∧
    if args.audit = true then ∀ client, c = .query client .begin → Allowed log tenant actor
    else IsNoLog c

/-- The process has printed nothing. -/
def NothingPrinted (past : History runner) : Prop :=
  ∀ text r, (⟨.inr (.write text), r⟩ : Event runner) ∉ past

/-- What has to hold before a call of a process. -/
def Boundary (argv : List JsString) (past : History runner) : runner.Call → Prop
  | .inl c => NothingPrinted past ∧ Admits argv (appended (poolPart past)) c
  | .inr (.write text) => Recordable (poolPart past) ∧
      ∃ events, IsResponse events ∧ text = encodeEventsForStdout events
  | _ => True

/-- Arguments that are accepted in allow mode name a tenant and an actor, and the audit is on in
allow mode only. -/
theorem trusted_of_parseArgs {argv : List JsString} {args : Args} (h : parseArgs argv = .ok args) :
    (args.audit = true → args.policy = .allow) ∧
      (args.policy = .allow → ∃ tenant actor, args.trustedTenantId = some tenant ∧
        args.trustedActorId = some actor) := by
  simp only [parseArgs, bind_eq_ok, throwIf_eq_ok, exists_const] at h
  obtain ⟨args', -, haudit, h⟩ := h
  split_ifs at h with hallow
  · simp only [bind_eq_ok, throwIf_eq_ok, exists_const] at h
    obtain ⟨-, htenant, hactor, h⟩ := h
    obtain rfl := Except.ok.inj h
    exact ⟨fun _ => hallow, fun _ => ⟨_, _, (Option.ne_none_iff_exists'.mp htenant).choose_spec,
      (Option.ne_none_iff_exists'.mp hactor).choose_spec⟩⟩
  · obtain rfl := Except.ok.inj h
    exact ⟨fun hon => by_contra fun hne => haudit ⟨hon, hne⟩, fun h => absurd h hallow⟩

/-- The candidate of deny mode allows nothing. -/
theorem effect_ne_allow {request : PolicyRequest} {d : PolicyDecision}
    (h : AuthorizationEvaluator.decide request
      (.array .arrayPrototype [(some .data, candidate .deny)] 0) = .ok d) : d.effect ≠ .allow := by
  obtain ⟨checked, ⟨entries, hentries, hspells, -⟩, hcombines, -⟩ :=
    AuthorizationEvaluator.decide_eq_ok_iff.mp h
  obtain rfl : [candidate .deny] = entries := Option.some.inj hentries
  intro hallow
  rw [hallow] at hcombines
  generalize d.matchedPolicyId = matched at hcombines
  cases hcombines with
  | allow c _ hwins =>
    obtain ⟨entry, hentry, _, hprops, -, heffect, -⟩ :=
      exists_of_forall₂_left hspells.flip hwins.1
    rw [List.mem_singleton.mp hentry] at hprops
    cases hprops
    rw [hwins.2.2.1] at heffect
    exact absurd (JsValue.string.inj heffect) (by decide)

section Process

variable {sha256 : ByteArray → JsString} {text : JsValue → Except NativeError JsString}
  {toLowerCase : JsString → JsString} {argv : List JsString} {args : Args}
  {identity : JsString × JsString} {past : History kernel} {past' : History runner}

/-- The calls of the pool hold all that was appended. -/
theorem appended_filter_isPool (past : History kernel) :
    appended (past.filter fun ev => isPool ev.1) = appended past := by
  rw [appended, List.filterMap_filter]
  refine List.filterMap_congr fun ev _ => ?_
  obtain ⟨c, r⟩ := ev
  cases c <;> rfl

/-- An identity that was asked for is that of the process. -/
theorem identity_of_isOf (h : Mirrors args.policy identity past past') {principal : Principal}
    (hof : (⟨.current, .ok (some principal)⟩ : Event kernel) ∈ past) :
    principal.tenantId.value = identity.1 ∧ principal.actorId.value = identity.2 := by
  have hanswer : (.ok (some principal) : Except Thrown (Option Principal)) =
      orThrow (some <$> principalOf identity) := h.answers _ hof
  obtain ⟨_, hprincipal, hsome⟩ := map_eq_ok.mp (orThrow_eq_ok.mp hanswer.symm)
  obtain rfl := Option.some.inj hsome
  simp only [principalOf, bind_eq_ok] at hprincipal
  obtain ⟨tenantId, htenant, actorId, hactor, h⟩ := hprincipal
  obtain rfl := Except.ok.inj h
  exact ⟨(JsValue.string.inj (TenantId.ofRaw_eq_ok htenant)).symm,
    (JsValue.string.inj (ActorId.ofRaw_eq_ok hactor)).symm⟩

/-- What the process calls on behalf of the composition is admitted by its arguments. -/
theorem admits_of_onBehalf (hargs : parseArgs argv = .ok args) {scope : JsValue}
    (hidentity : identityOf text toLowerCase args scope = .ok identity) {c : Call}
    (h : OnBehalf args.policy identity (KernelGuard args) past' (.inl c)) :
    Admits argv (appended (poolPart past')) c := by
  obtain ⟨past, hmirrors, ⟨htenant, hguard⟩, hpool⟩ := h
  obtain ⟨haudit, htrusted⟩ := trusted_of_parseArgs hargs
  cases hpolicy : args.policy with
  | deny =>
    -- the plain composition goes to the pool after candidates that allow only
    rw [if_neg (by simp [hpolicy])] at hguard
    obtain ⟨hnolog, hcollaborator | ⟨request, candidates, d, hmem, hd, hallow⟩⟩ := hguard
    · cases c <;> first | exact hcollaborator.elim | exact hnolog.elim | cases hpool
    · obtain rfl := Except.ok.inj (hmirrors.answers _ hmem)
      rw [hpolicy] at hd
      exact absurd hallow (effect_ne_allow hd)
  | allow =>
    obtain ⟨tenant, actor, htenantId, hactorId⟩ := htrusted hpolicy
    have hpair : (tenant, actor) = identity := by
      simp only [identityOf, hpolicy, htenantId, hactorId] at hidentity
      exact Except.ok.inj hidentity
    refine ⟨args, tenant, actor, hargs, hpolicy, htenantId, hactorId, fun t ht => ?_, ?_⟩
    · obtain ⟨rfl, -⟩ | ⟨principal, ⟨_, rfl⟩, hrow⟩ := htenant
      · cases hpool
      · have hsame := identity_of_isOf hmirrors List.mem_cons_self
        rw [hrow.2 t ht, hsame.1, ← hpair]
    · by_cases hon : args.audit = true
      · rw [if_pos ⟨hpolicy, hon⟩] at hguard
        rw [if_pos hon]
        rintro client rfl
        obtain ⟨request, -, hrecorded⟩ := hguard
        obtain ⟨entry, hentry, heffect, -, principal, hauthenticated, hentryTenant, hentryActor⟩ :=
          hrecorded rfl
        obtain ⟨hsameTenant, hsameActor⟩ := identity_of_isOf hmirrors hauthenticated
        refine ⟨entry, ?_, heffect, ?_, ?_⟩
        · rwa [hmirrors.pools, appended_filter_isPool]
        · rw [hentryTenant, hsameTenant, ← hpair]
        · rw [hentryActor, hsameActor, ← hpair]
      · rw [if_neg fun h => hon h.2] at hguard
        rw [if_neg hon]
        exact hguard.1

/-- Nothing is printed on behalf of the composition. -/
theorem NothingPrinted.snoc {past : History runner} (h : NothingPrinted past) {policy : Policy}
    {G : History kernel → Call → Prop} {c : runner.Call} (hc : OnBehalf policy identity G past c)
    (r : runner.Settled c) : NothingPrinted (past ++ [⟨c, r⟩]) := by
  intro text r' hmem
  rcases List.mem_append.mp hmem with hmem | hmem
  · exact h text r' hmem
  · cases List.mem_singleton.mp hmem
    exact hc

/-- The process prints what it has responded, and closes its composition. -/
theorem safe_serve (hargs : parseArgs argv = .ok args) (envelope : Envelope) :
    Safe (Boundary argv) (fun past o => o = .ok .success → Recordable (poolPart past)) []
      (serve sha256 text toLowerCase args envelope) := by
  refine Safe.syncBind (fun identity hidentity => ?_) fun _ _ => nofun
  have hidentity := orThrow_eq_ok.mp hidentity
  have hquiet : Safe _ (fun past o => _ ∧ NothingPrinted past) [] (respond sha256 args identity
      (ScopeEnvelope.unwrapJsonSafe envelope.scope) envelope.body) :=
    (safe_respond _ _).keep (fun _ _ => List.not_mem_nil) fun past c r hc hpast => hpast.snoc hc r
  have hrespond : Safe (Boundary argv) _ [] (respond sha256 args identity
      (ScopeEnvelope.unwrapJsonSafe envelope.scope) envelope.body) := hquiet.weaken
        fun past c h => by
    rcases c with c | c
    · exact ⟨h.2, admits_of_onBehalf hargs hidentity h.1⟩
    · cases c with
      | write text => exact h.1.elim
      | _ => trivial
  have hprint : Safe (Boundary argv)
      (fun past o => o = .ok .success → Recordable (poolPart past)) [] (do
        let sentEvents ← respond sha256 args identity
          (ScopeEnvelope.unwrapJsonSafe envelope.scope) envelope.body
        let _ : Unit ← Program.ask (I := runner)
          (.inr (.write (encodeEventsForStdout sentEvents)))
        return Exit.success) := by
    refine hrespond.bind (fun past' events h => ?_) fun _ _ _ => nofun
    obtain ⟨hresponse, past, hmirrors, hrecordable⟩ := h.1 events rfl
    -- the log has no rejected append that the composition does not have
    have hpools : Recordable (poolPart past') := fun entry e hmem => by
      rw [hmirrors.pools] at hmem
      exact hrecordable entry e (List.mem_filter.mp hmem).1
    refine ⟨⟨hpools, events, hresponse, rfl⟩, fun r => ?_⟩
    cases r with
    | error e => exact nofun
    | ok _ =>
      intro _
      rw [poolPart_append]
      exact (List.append_nil (poolPart past')).symm ▸ hpools
  refine hprint.ensuring fun past o ho => ⟨trivial, fun r => ?_⟩
  cases r with
  | error e => exact nofun
  | ok _ =>
    intro hsuccess
    rw [poolPart_append]
    exact (List.append_nil (poolPart past)).symm ▸ ho hsuccess

/-- A process keeps to its boundary, and ends well when its entries were recorded. -/
theorem safe_main (argv : List JsString) (stdin : List UInt8) :
    Safe (Boundary argv) (fun past o => o = .ok .success → Recordable (poolPart past)) []
      (main sha256 text toLowerCase argv stdin) := by
  unfold main
  cases hargs : parseArgs argv with
  | error reason => exact nofun
  | ok args =>
    cases jsonParse (utf8Decode stdin) with
    | none => exact nofun
    | some json =>
      cases henvelope : checkEnvelope json with
      | error reason => simp [henvelope, Safe, pure_eq]
      | ok envelope =>
        simp only [henvelope]
        refine (safe_serve hargs envelope).tryCatch (fun _ _ h => h) fun past error _ => ?_
        exact nofun

end Process

/-! ## Processes next to each other -/

/-- What a process is started with. -/
structure Process where
  argv : List JsString
  stdin : List UInt8

/-- Processes next to each other, over a log that takes the entries of fulfilled appends. A rejected
append may have been committed or not. -/
def runnerSystem (sha256 : ByteArray → JsString) (text : JsValue → Except NativeError JsString)
    (toLowerCase : JsString → JsString) (processes : ℕ → Process) :
    System runner ℕ (List DecisionLogEntry) Exit where
  program i := main sha256 text toLowerCase (processes i).argv (processes i).stdin
  Answers committed _ ev committed' :=
    (∀ entry e, ev = ⟨.inl (.append entry), .error e⟩ → e.IsAppendRejection) ∧
      (committed' = committed ++ appended (poolPart [ev]) ∨
        ∃ entry e, ev = ⟨.inl (.append entry), .error e⟩ ∧ committed' = committed ++ [entry])

section System

variable {sha256 : ByteArray → JsString} {text : JsValue → Except NativeError JsString}
  {toLowerCase : JsString → JsString} {processes : ℕ → Process}
  {cfg : Config runner ℕ (List DecisionLogEntry) Exit}

/-- What the processes have appended is in the log, and appends have been rejected for the reasons
of the adapter only. -/
structure LogHas (committed : List DecisionLogEntry) (past : ℕ → History runner) : Prop where
  committed : ∀ i, ∀ entry ∈ appended (poolPart (past i)), entry ∈ committed
  rejected : ∀ i entry e, (⟨.append entry, .error e⟩ : Event kernel) ∈ poolPart (past i) →
    e.IsAppendRejection

/-- One answer adds to the log what it appends. -/
theorem log_of_answers {committed committed' : List DecisionLogEntry} {i : ℕ} {ev : Event runner}
    (h : (runnerSystem sha256 text toLowerCase processes).Answers committed i ev committed') :
    committed ⊆ committed' ∧ appended (poolPart [ev]) ⊆ committed' := by
  obtain ⟨-, rfl | ⟨entry, e, rfl, rfl⟩⟩ := h
  · exact ⟨List.subset_append_left _ _, List.subset_append_right _ _⟩
  · exact ⟨List.subset_append_left _ _, List.nil_subset _⟩

/-- In every reachable configuration the log has what was appended. -/
theorem logHas_of_reachable
    (h : (runnerSystem sha256 text toLowerCase processes).Reachable [] cfg) :
    LogHas cfg.state cfg.past := by
  refine h.invariant (P := LogHas) (fun i => safe_main (processes i).argv (processes i).stdin)
    ⟨fun _ _ h => absurd h List.not_mem_nil, fun _ _ _ h => absurd h List.not_mem_nil⟩ ?_
  intro committed past i c r committed' hlog _ hanswers
  obtain ⟨hsubset, happended⟩ := log_of_answers hanswers
  -- the process that is answered has one more event; the others are as they were
  refine ⟨fun j entry hentry => ?_, fun j entry e hmem => ?_⟩
  · by_cases hj : j = i
    · subst hj
      rw [Function.update_self, poolPart_append, appended_append] at hentry
      rcases List.mem_append.mp hentry with hentry | hentry
      · exact hsubset (hlog.committed j entry hentry)
      · exact happended hentry
    · rw [Function.update_of_ne hj] at hentry
      exact hsubset (hlog.committed j entry hentry)
  · by_cases hj : j = i
    · subst hj
      rw [Function.update_self, poolPart_append] at hmem
      rcases List.mem_append.mp hmem with hmem | hmem
      · exact hlog.rejected j entry e hmem
      · obtain ⟨ev, hev, heq⟩ := List.mem_filterMap.mp hmem
        rw [List.mem_singleton.mp hev] at heq
        rcases c with c | c
        · obtain rfl := congrArg Sigma.fst (Option.some.inj heq)
          cases heq
          exact hanswers.1 entry e rfl
        · cases heq
    · rw [Function.update_of_ne hj] at hmem
      exact hlog.rejected j entry e hmem

/-- What a log admits, a longer one does. -/
theorem Admits.mono {argv : List JsString} {log log' : List DecisionLogEntry} {c : Call}
    (h : Admits argv log c) (hsubset : log ⊆ log') : Admits argv log' c := by
  obtain ⟨args, tenant, actor, hargs, hpolicy, htenant, hactor, hrows, haudit⟩ := h
  refine ⟨args, tenant, actor, hargs, hpolicy, htenant, hactor, hrows, ?_⟩
  split_ifs with hon
  · rw [if_pos hon] at haudit
    intro client hc
    obtain ⟨entry, hentry, hallow⟩ := haudit client hc
    exact ⟨entry, hsubset hentry, hallow⟩
  · rwa [if_neg hon] at haudit

/-- A call of the kernel is one of the pool's. -/
theorem mem_poolPart {past : History runner} {c : Call} {r : kernel.Settled c}
    (h : (⟨.inl c, r⟩ : Event runner) ∈ past) : (⟨c, r⟩ : Event kernel) ∈ poolPart past :=
  List.mem_filterMap.mpr ⟨_, h, rfl⟩

/-- A process whose entry could not be appended has printed nothing, whichever came first. -/
theorem nothingPrinted_of_rejected {argv : List JsString} {stdin : List UInt8}
    {past : History runner} {p : Program runner Exit}
    (hsteps : Steps (main sha256 text toLowerCase argv stdin) past p) {entry : DecisionLogEntry}
    {e : Thrown} (hrejected : (⟨.inl (.append entry), .error e⟩ : Event runner) ∈ past)
    (hreason : e.IsAppendRejection) : NothingPrinted past := by
  intro printed r hprinted
  obtain ⟨before, after, rfl⟩ := List.append_of_mem hprinted
  have hguard := (safe_main argv stdin).guard_of_steps hsteps rfl
  -- before the print the guard of the print forbids it, behind it the guard of the append
  rcases List.mem_append.mp hrejected with hbefore | hafter
  · have hconflict := hguard.1 entry e (mem_poolPart hbefore)
    rw [hreason.not_conflict] at hconflict
    cases hconflict
  · rcases List.mem_cons.mp hafter with heq | hafter
    · cases heq
    · obtain ⟨middle, rest, rfl⟩ := List.append_of_mem hafter
      have hsplit : before ++ ⟨.inr (.write printed), r⟩ ::
          (middle ++ ⟨.inl (.append entry), .error e⟩ :: rest) =
        (before ++ ⟨.inr (.write printed), r⟩ :: middle) ++
          ⟨.inl (.append entry), .error e⟩ :: rest := by simp
      have hguard := (safe_main argv stdin).guard_of_steps hsteps hsplit
      exact hguard.1 printed r (by simp)

/-- In any interleaving of any number of processes, whatever their requests claim: a process has
made, and is about to make, only calls of the database that its arguments admit; what it prints is
one response; and after an entry could not be appended it prints nothing and does not end well. -/
theorem runner_boundary (h : (runnerSystem sha256 text toLowerCase processes).Reachable [] cfg)
    (i : ℕ) :
    (∀ c r, ⟨.inl c, r⟩ ∈ cfg.past i → Admits (processes i).argv cfg.state c) ∧
    (∀ c next, cfg.left i = .await (.inl c) next → Admits (processes i).argv cfg.state c) ∧
    (∀ printed r, ⟨.inr (.write printed), r⟩ ∈ cfg.past i →
      ∃ events, IsResponse events ∧ printed = encodeEventsForStdout events) ∧
    ∀ entry e, ⟨.inl (.append entry), .error e⟩ ∈ cfg.past i →
      (∀ printed r, ⟨.inr (.write printed), r⟩ ∉ cfg.past i) ∧
      (∀ printed next, cfg.left i ≠ .await (.inr (.write printed)) next) ∧
      cfg.left i ≠ .settled (.ok .success) := by
  have hlog := logHas_of_reachable h
  have hsafe := h.safe (i := i) (safe_main (processes i).argv (processes i).stdin)
  have hguard {before after : History runner} {ev : Event runner}
      (hpast : cfg.past i = before ++ ev :: after) : Boundary (processes i).argv before ev.1 :=
    (safe_main (processes i).argv (processes i).stdin).guard_of_steps (h.steps i) hpast
  -- a call that was made, one that is awaited, what was printed,
  -- and what a rejected append leaves open
  refine ⟨fun c r hmem => ?_, fun c next hleft => ?_, fun printed r hmem => ?_,
    fun entry e hrejected => ?_⟩
  · obtain ⟨before, after, hpast⟩ := List.append_of_mem hmem
    refine (hguard hpast).2.mono fun entry hentry => hlog.committed i entry ?_
    rw [hpast, poolPart_append, appended_append]
    exact List.mem_append_left _ hentry
  · rw [hleft] at hsafe
    exact hsafe.1.2.mono fun entry hentry => hlog.committed i entry hentry
  · obtain ⟨before, after, hpast⟩ := List.append_of_mem hmem
    exact (hguard hpast).2
  · -- an entry that was rejected is not recorded, which a write and a success both need
    have hreason := hlog.rejected i entry e (mem_poolPart hrejected)
    have hnot {past : History runner} (hpast : past = cfg.past i)
        (hrecordable : Recordable (poolPart past)) : False := by
      have hconflict := hrecordable entry e (mem_poolPart (hpast ▸ hrejected))
      rw [hreason.not_conflict] at hconflict
      cases hconflict
    refine ⟨nothingPrinted_of_rejected (h.steps i) hrejected hreason, fun printed next hleft => ?_,
      fun hleft => ?_⟩
    · rw [hleft] at hsafe
      exact hnot rfl hsafe.1.1
    · rw [hleft] at hsafe
      exact hnot rfl (hsafe rfl)

end System

/-! ## A process that is audited -/

/-- The envelope of the sample request, with the body `{"name":"Ada"}`; it claims the tenant and the
actor it is given. -/
def sampleEnvelope (tenant actor : String) : Json :=
  .obj [(lit "scope", .obj
      [(lit "type", .str (lit "http")), (lit "method", .str (lit "POST")),
        (lit "path", .str (lit "/customers")), (lit "headers", .arr
          [.arr [.str (lit "x-request-id"), .str (lit "22222222-2222-4222-8222-222222222222")],
            .arr [.str (lit "x-actor-id"), .str (lit actor)],
            .arr [.str (lit "x-tenant-id"), .str (lit tenant)],
            .arr [.str (lit "idempotency-key"), .str (lit "key-1")]])]),
    (lit "bodyBase64", .str (lit "eyJuYW1lIjoiQWRhIn0="))]

/-- A process in allow mode, with the audit on. -/
def sampleProcess : Process where
  argv := [lit "--policy", lit "allow", lit "--connection-string", lit "postgres://localhost",
    lit "--trusted-tenant-id", lit "11111111-1111-4111-8111-111111111111",
    lit "--trusted-actor-id", lit "clerk", lit "--audit", lit "on"]
  stdin := (sampleEnvelope "11111111-1111-4111-8111-111111111111" "clerk").stringify.map fun c =>
    UInt8.ofNat c.toNat

/-- What its arguments say. -/
def sampleArgs : Args :=
  ⟨.allow, some (lit "postgres://localhost"), some (lit "11111111-1111-4111-8111-111111111111"),
    some (lit "clerk"), true⟩

/-- The arguments of the sample process are read. -/
theorem parseArgs_sampleProcess : parseArgs sampleProcess.argv = .ok sampleArgs := by
  decide +kernel

/-- The text of a string. -/
def stringText : JsValue → Except NativeError JsString
  | .string s => .ok s
  | _ => .error (.typeError [])

/-- A database that takes every statement, over a log without entries of the tenant, beside a clock
and a source of random bytes. -/
def grantingAnswers : Outside runner (List DecisionLogEntry) := fun c committed =>
  match c with
  | .inl (.chainHead _) => (.ok .null, committed)
  -- the state is what has been logged
  | .inl (.append entry) => (.ok (), committed ++ [entry])
  | .inl .connect => (.ok (0 : ℕ), committed)
  | .inl (.query _ statement) =>
      (.ok (match statement with
        | .begin => ()
        | .beginTenantContext _ => ()
        | .insertCustomer .. =>
            ⟨lit "33333333-3333-4333-8333-333333333333", lit "2026-01-01T00:00:00.000Z"⟩
        | .insertAudit .. => lit "44444444-4444-4444-8444-444444444444"
        | .insertOutbox .. => lit "55555555-5555-4555-8555-555555555555"
        | .commit => ()
        | .rollback => ()), committed)
  | .inl (.release _) => (.ok (), committed)
  | .inl _ => (.error (.driver ⟨lit "error", none, none, by decide⟩), committed)
  | .inr .dateNow => (.ok (1767225600000 : ℕ), committed)
  | .inr .randomBytes => (.ok (List.replicate 16 (0 : UInt8)), committed)
  | .inr .isoNow => (.ok (lit "2026-01-01T00:00:00.000Z"), committed)
  | .inr (.write _) => (.ok (), committed)
  | .inr .close => (.ok (), committed)

/-- The outcome is a good end. -/
def isSuccess : Except Thrown Exit → Bool
  | .ok .success => true
  | _ => false

/-- The call begins a transaction. -/
def isBegin : runner.Call → Bool
  | .inl (.query _ .begin) => true
  | _ => false

/-- The sample process ends with success. -/
theorem sampleProcess_succeeds :
    isSuccess (run grantingAnswers (main sha256Hex stringText id sampleProcess.argv
      sampleProcess.stdin) []).outcome = true := by
  decide +kernel

/-- The sample process begins a transaction. -/
theorem sampleProcess_begins :
    ((run grantingAnswers (main sha256Hex stringText id sampleProcess.argv
      sampleProcess.stdin) []).history.any fun ev => isBegin ev.1) = true := by
  decide +kernel

/-- Success is the outcome of a process that ends with it. -/
theorem eq_of_isSuccess {o : Except Thrown Exit} (h : isSuccess o = true) : o = .ok .success := by
  match o, h with
  | .ok .success, _ => rfl

/-- A call that begins a transaction is a `BEGIN`. -/
theorem eq_of_isBegin {c : runner.Call} (h : isBegin c = true) :
    ∃ client, c = .inl (.query client .begin) := by
  match c, h with
  | .inl (.query client .begin), _ => exact ⟨client, rfl⟩

/-- The sample's answers are ones that the outside can give. -/
theorem answers_grantingAnswers {sha256 : ByteArray → JsString}
    {text : JsValue → Except NativeError JsString} {toLowerCase : JsString → JsString}
    {processes : ℕ → Process} (i : ℕ) (c : runner.Call) (committed : List DecisionLogEntry) :
    (runnerSystem sha256 text toLowerCase processes).Answers committed i
      ⟨c, (grantingAnswers c committed).1⟩ (grantingAnswers c committed).2 := by
  cases c with
  | inl c =>
    refine ⟨fun entry e h => ?_, .inl ?_⟩
    · obtain rfl := Sum.inl.inj (congrArg Sigma.fst h)
      cases h
    · cases c <;> first | rfl | exact (List.append_nil committed).symm
  | inr c =>
    refine ⟨fun entry e h => ?_, .inl ?_⟩
    · cases h
    · cases c <;> exact (List.append_nil committed).symm

/-- A run of a process is one of the system. -/
theorem exists_reachable_of_run {sha256 : ByteArray → JsString}
    {text : JsValue → Except NativeError JsString} {toLowerCase : JsString → JsString}
    (process : Process) :
    ∃ cfg, (runnerSystem sha256 text toLowerCase fun _ => process).Reachable [] cfg ∧
      cfg.left 0 = .settled (run grantingAnswers (main sha256 text toLowerCase process.argv
        process.stdin) []).outcome ∧
      cfg.past 0 = (run grantingAnswers (main sha256 text toLowerCase process.argv
        process.stdin) []).history := by
  have hinit : (runnerSystem sha256 text toLowerCase fun _ => process).Reachable [] _ := .init
  exact ⟨_, hinit.ran (answers_grantingAnswers 0), rfl, rfl⟩

/-- The audited process commits a customer, its transaction begins after an allow for the trusted
principal was appended, and it asks for the chain head of the trusted tenant only. -/
theorem runner_boundary_sample :
    ∃ cfg client r, (runnerSystem sha256Hex stringText id fun _ => sampleProcess).Reachable [] cfg ∧
      cfg.left 0 = .settled (.ok .success) ∧ ⟨.inl (.query client .begin), r⟩ ∈ cfg.past 0 ∧
      Allowed cfg.state (lit "11111111-1111-4111-8111-111111111111") (lit "clerk") ∧
      ∀ tenantId r, ⟨.inl (.chainHead tenantId), r⟩ ∈ cfg.past 0 →
        tenantId.value = lit "11111111-1111-4111-8111-111111111111" := by
  obtain ⟨cfg, hreachable, hleft, hpast⟩ := exists_reachable_of_run sampleProcess
  obtain ⟨⟨c, r⟩, hmem, hbegin⟩ := List.any_eq_true.mp sampleProcess_begins
  obtain ⟨client, rfl⟩ := eq_of_isBegin hbegin
  have hmem : ⟨.inl (.query client .begin), r⟩ ∈ cfg.past 0 := hpast ▸ hmem
  -- the arguments, and with them what the boundary says of each call
  have hadmits := (runner_boundary hreachable 0).1
  refine ⟨cfg, client, r, hreachable, hleft.trans (congrArg Program.settled
    (eq_of_isSuccess sampleProcess_succeeds)), hmem, ?_, fun tenantId r hhead => ?_⟩
  · obtain ⟨args, tenant, actor, hargs, -, htenant, hactor, -, haudit⟩ := hadmits _ r hmem
    obtain rfl := Except.ok.inj (parseArgs_sampleProcess.symm.trans hargs)
    obtain rfl := Option.some.inj htenant
    obtain rfl := Option.some.inj hactor
    exact haudit client rfl
  · obtain ⟨args, tenant, actor, hargs, -, htenant, -, hrows, -⟩ := hadmits _ r hhead
    obtain rfl := Except.ok.inj (parseArgs_sampleProcess.symm.trans hargs)
    obtain rfl := Option.some.inj htenant
    exact hrows _ rfl

end MetaframerKernel.CreateCustomerAsgiRunner
