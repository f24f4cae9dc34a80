import MetaframerKernel.Application.AuthorizationEvaluator
import MetaframerKernel.Application.Collaborators
import MetaframerKernel.Async.Loops
import MetaframerKernel.Domain.HexDigest

/-!
# The decision-logging policy decision point

`decide` asks for the candidates of one request, combines them and appends one entry to the log
before it answers. `decideAll` does so for a batch and reads the chain head of each tenant once,
keeping the hash of the last entry it appended for a tenant in a map.

## Main definitions

* `logOne`, `decide`, `decideAll`: the programs;
* `decideEach`: a batch decided by awaiting `decide` request by request;
* `LogStore`: an outside whose chain heads follow the appends.

## Main results

* `decideAll_eq_decideEach`: the batch and the sequence append and answer the same, and stop at the
  same request.
-/

namespace MetaframerKernel.DecisionLoggingPolicyDecisionPoint

open Js Async

/-! ## The programs -/

/-- `candidates.find((candidate) => candidate.policyId === matchedPolicyId)`. -/
def findWinner (candidates : JsValue) (matchedPolicyId : JsString) :
    Option (List ((PropertyKey × Descriptor) × JsValue)) :=
  (candidates.ordinaryElements?.getD []).findSome? fun candidate =>
    match candidate with
    | .object _ props =>
        match JsValue.get props (lit "policyId") with
        | .string id => if id = matchedPolicyId then some props else none
        | _ => none
    | _ => none

/-- `layerOf` -/
def layerOf (candidates : JsValue) (matchedPolicyId : Option JsString) :
    Except NativeError JsValue :=
  match matchedPolicyId with
  | none => .ok .null
  | some id =>
      match findWinner candidates id with
      | some props =>
          match JsValue.property? props (lit "layer") with
          | some (_, layer) => .ok layer
          | none => .ok (.string (lit "tenant"))
      | none => .error (.typeError (lit "Cannot convert undefined or null to object"))

/-- `#logOne` -/
def logOne (request : PolicyRequest) (resolvePrevHash : Program kernel JsValue) :
    Program kernel (PolicyDecision × DecisionLogEntry) := do
  let candidates : JsValue ← Program.ask (I := kernel) (.candidatesFor request)
  let decision ← Program.sync (orThrow (AuthorizationEvaluator.decide request candidates))
  let layerResolved ← Program.sync (orThrow (layerOf candidates decision.matchedPolicyId))
  -- asked of the port for a single request, and of the batch for the later ones
  let prevHash ← resolvePrevHash
  let id : JsValue ← Program.ask (I := kernel) .idGenerator
  let ts ← clockNow
  let entry ← Program.sync
    (orThrow (DecisionLogEntry.ofRaw id request decision layerResolved ts prevHash))
  -- nothing is returned before the entry is written
  let _ : Unit ← Program.ask (I := kernel) (.append entry)
  return (decision, entry)

/-- `() => chainHead(request.tenantId)`. -/
def readChainHead (request : PolicyRequest) : Program kernel JsValue :=
  Program.ask (I := kernel) (.chainHead request.tenantId)

/-- `decide` -/
def decide (request : PolicyRequest) : Program kernel PolicyDecision := do
  let (decision, _) ← logOne request (readChainHead request)
  return decision

/-- The map from a tenant to the hash of the last entry appended for it; the latest `set` is
first. -/
abbrev Heads : Type := List (JsString × JsString)

/-- `resolvePrevHash` of `decideAll`. -/
def cachedHead (heads : Heads) (request : PolicyRequest) : Program kernel JsValue :=
  match heads.lookup request.tenantId.value with
  | some hash => return .string hash
  | none => readChainHead request

section Batch

variable (sha256 : ByteArray → JsString)

/-- The body of the loop of `decideAll`. -/
def decideNext (so_far : Heads × List PolicyDecision) (request : PolicyRequest) :
    Program kernel (Heads × List PolicyDecision) := do
  let (decision, entry) ← logOne request (cachedHead so_far.1 request)
  return ((request.tenantId.value, entry.entryHash sha256) :: so_far.1, so_far.2 ++ [decision])

/-- `decideAll` -/
def decideAll (requests : List PolicyRequest) : Program kernel (List PolicyDecision) := do
  let (_, decisions) ← requests.foldlM (decideNext sha256) ([], [])
  return decisions

end Batch

/-- One turn of awaiting `decide(request)` for one request after another. -/
def decideOne (decisions : List PolicyDecision) (request : PolicyRequest) :
    Program kernel (List PolicyDecision) := do
  let decision ← decide request
  return decisions ++ [decision]

/-- `decide` awaited for one request after another. -/
def decideEach (requests : List PolicyRequest) : Program kernel (List PolicyDecision) :=
  requests.foldlM decideOne []

/-! ## The log behind the calls -/

/-- The calls that are not reads of a chain head. -/
def isVisible : Call → Bool
  | .chainHead _ => false
  | _ => true

/-- The calls of one decision that neither read nor write the log. -/
def isUnlogged : Call → Bool
  | .candidatesFor _ => true
  | .idGenerator => true
  | .now => true
  | _ => false

section Store

variable {σ : Type} {sha256 : ByteArray → JsString} {outside : Outside kernel σ}

/-- What `chainHead(tenantId)` settles to in a state of the outside. -/
def headAt (outside : Outside kernel σ) (tenantId : TenantId) (s : σ) : Except Thrown JsValue :=
  (outside (.chainHead tenantId) s).1

/-- A log without a concurrent writer: reading a chain head changes nothing, a fulfilled append of
an entry makes its hash the head of its tenant, and nothing else moves a head. -/
structure LogStore (sha256 : ByteArray → JsString) (outside : Outside kernel σ) : Prop where
  read : ∀ tenantId s, (outside (.chainHead tenantId) s).2 = s
  appended : ∀ e s, (outside (.append e) s).1 = .ok () → ∀ tenantId,
    headAt outside tenantId (outside (.append e) s).2 =
      if tenantId = e.request.tenantId then .ok (.string (e.entryHash sha256))
      else headAt outside tenantId s
  undisturbed : ∀ c, isUnlogged c = true → ∀ tenantId s,
    headAt outside tenantId (outside c s).2 = headAt outside tenantId s

/-- The heads of the two states are the same. -/
def SameHeads (outside : Outside kernel σ) (s s' : σ) : Prop :=
  ∀ tenantId, headAt outside tenantId s' = headAt outside tenantId s

/-- Every head the map holds is the one the log would answer. -/
def CacheAgrees (outside : Outside kernel σ) (heads : Heads) (s : σ) : Prop :=
  ∀ tenantId hash, heads.lookup tenantId.value = some hash →
    headAt outside tenantId s = .ok (.string hash)

/-- The entry has been appended for its tenant, and no other head has moved. -/
def HeadMoved (sha256 : ByteArray → JsString) (outside : Outside kernel σ) (s : σ)
    (request : PolicyRequest) (e : DecisionLogEntry) (s' : σ) : Prop :=
  ∀ tenantId, headAt outside tenantId s' =
    if tenantId = request.tenantId then .ok (.string (e.entryHash sha256))
    else headAt outside tenantId s

/-- An entry is built around its request and its decision. -/
theorem fields_of_ofRaw {id layerResolved ts prevHash : JsValue} {request : PolicyRequest}
    {decision : PolicyDecision} {e : DecisionLogEntry}
    (h : DecisionLogEntry.ofRaw id request decision layerResolved ts prevHash = .ok e) :
    e.request = request ∧ e.decision = decision := by
  simp only [DecisionLogEntry.ofRaw, bind_eq_ok] at h
  obtain ⟨id', -, h⟩ := h
  split_ifs at h
  simp only [bind_eq_ok] at h
  obtain ⟨_, -, _, -, _, -, h⟩ := h
  obtain rfl := Except.ok.inj h
  exact ⟨rfl, rfl⟩

/-- Both ways to resolve the head answer the same and leave the heads alone. -/
theorem agree_resolve (hlog : LogStore sha256 outside) {heads : Heads} {s s' : σ}
    (hcache : CacheAgrees outside heads s) (hsame : SameHeads outside s s')
    (request : PolicyRequest) :
    Agree isVisible (fun v w t => v = w ∧ SameHeads outside s t)
      (run outside (cachedHead heads request) s') (run outside (readChainHead request) s') := by
  have hread : (outside (.chainHead request.tenantId) s').2 = s' := hlog.read request.tenantId s'
  cases hheads : heads.lookup request.tenantId.value with
  | some hash =>
    -- the cached hash is what the log would answer, and asking it is not visible
    have hhead : (outside (.chainHead request.tenantId) s').1 = .ok (.string hash) :=
      (hsame request.tenantId).trans (hcache request.tenantId hash hheads)
    rw [cachedHead, hheads]
    exact ⟨hread.symm, rfl, Or.inl ⟨_, _, rfl, hhead, rfl, hsame⟩⟩
  | none =>
    rw [cachedHead, hheads]
    apply Agree.self
    intro v _
    change SameHeads outside s (outside (.chainHead request.tenantId) s').2
    rw [hread]
    exact hsame

/-- A call that does not concern the log leaves the heads alone. -/
theorem agree_ask (hlog : LogStore sha256 outside) {s s' : σ} (hsame : SameHeads outside s s')
    {c : Call} (hc : isUnlogged c = true) :
    Agree isVisible (fun v w t => v = w ∧ SameHeads outside s t)
      (run outside (Program.ask (I := kernel) c) s')
      (run outside (Program.ask (I := kernel) c) s') := by
  apply Agree.self
  intro v _ tenantId
  exact (hlog.undisturbed c hc tenantId s').trans (hsame tenantId)

/-- Reading the clock leaves the heads alone. -/
theorem agree_clockNow (hlog : LogStore sha256 outside) {s s' : σ}
    (hsame : SameHeads outside s s') :
    Agree isVisible (fun v w t => v = w ∧ SameHeads outside s t) (run outside clockNow s')
      (run outside clockNow s') := by
  refine (agree_ask hlog hsame (c := .now) rfl).bind ?_
  rintro reading _ t ⟨rfl, ht⟩
  exact Agree.self fun _ _ => ht

/-- One decision is the same with a cached head as with one read from the log. -/
theorem agree_logOne (hlog : LogStore sha256 outside) {heads : Heads} {s : σ}
    (hcache : CacheAgrees outside heads s) (request : PolicyRequest) :
    Agree isVisible
      (fun x y t => x = y ∧ x.2.request = request ∧ HeadMoved sha256 outside s request x.2 t)
      (run outside (logOne request (cachedHead heads request)) s)
      (run outside (logOne request (readChainHead request)) s) := by
  have hsync {α : Type} (r : Except Thrown α) {t : σ} (ht : SameHeads outside s t) :
      Agree isVisible (fun v w t => v = w ∧ SameHeads outside s t)
        (run outside (Program.sync (I := kernel) r) t)
        (run outside (Program.sync (I := kernel) r) t) :=
    Agree.self fun _ _ => ht
  -- one await after another: both sides ask the same, but for the head
  refine (agree_ask hlog (fun _ => rfl) (c := .candidatesFor request) rfl).bind ?_
  rintro candidates _ s₁ ⟨rfl, h₁⟩
  refine (hsync _ h₁).bind ?_
  rintro decision _ s₂ ⟨rfl, h₂⟩
  refine (hsync _ h₂).bind ?_
  rintro layerResolved _ s₃ ⟨rfl, h₃⟩
  refine (agree_resolve hlog hcache h₃ request).bind ?_
  rintro prevHash _ s₄ ⟨rfl, h₄⟩
  refine (agree_ask hlog h₄ (c := .idGenerator) rfl).bind ?_
  rintro id _ s₅ ⟨rfl, h₅⟩
  refine (agree_clockNow hlog h₅).bind ?_
  rintro ts _ s₆ ⟨rfl, h₆⟩
  have hentry : Agree isVisible (fun e e' t => e = e' ∧ e.request = request ∧ SameHeads outside s t)
      (run outside (Program.sync (I := kernel) (orThrow
        (DecisionLogEntry.ofRaw id request decision layerResolved ts prevHash))) s₆)
      (run outside (Program.sync (I := kernel) (orThrow
        (DecisionLogEntry.ofRaw id request decision layerResolved ts prevHash))) s₆) := by
    exact Agree.self fun e he => ⟨(fields_of_ofRaw (orThrow_eq_ok.mp he)).1, h₆⟩
  refine hentry.bind ?_
  rintro entry _ s₇ ⟨rfl, hrequest, h₇⟩
  have happend : Agree isVisible (fun _ _ t => HeadMoved sha256 outside s request entry t)
      (run outside (Program.ask (I := kernel) (.append entry)) s₇)
      (run outside (Program.ask (I := kernel) (.append entry)) s₇) := by
    refine (Agree.self (P := fun _ t => HeadMoved sha256 outside s request entry t) ?_).mono
      fun _ _ _ h => h.2
    intro u hu tenantId
    rw [← hrequest, ← h₇ tenantId]
    exact hlog.appended entry s₇ hu tenantId
  refine happend.bind ?_
  intro _ _ s₈ h₈
  exact ⟨rfl, rfl, Or.inl ⟨_, _, rfl, rfl, rfl, hrequest, h₈⟩⟩

/-- The cache is right again after the entry has been added to it. -/
theorem cacheAgrees_cons {heads : Heads} {s s' : σ} (hcache : CacheAgrees outside heads s)
    {request : PolicyRequest} {e : DecisionLogEntry}
    (h : HeadMoved sha256 outside s request e s') :
    CacheAgrees outside ((request.tenantId.value, e.entryHash sha256) :: heads) s' := by
  intro tenantId hash hlookup
  rw [h tenantId]
  by_cases htenant : tenantId = request.tenantId
  · subst htenant
    rw [List.lookup_cons_self, Option.some.injEq] at hlookup
    rw [if_pos rfl, hlookup]
  · have hkey : tenantId.value ≠ request.tenantId.value := fun heq => htenant (TenantId.ext heq)
    rw [List.lookup_cons, beq_false_of_ne hkey] at hlookup
    rw [if_neg htenant]
    exact hcache tenantId hash hlookup

/-- A turn of the batch agrees with a turn of the sequence. -/
theorem agree_decideNext (hlog : LogStore sha256 outside) {so_far : Heads × List PolicyDecision}
    {s : σ} (hcache : CacheAgrees outside so_far.1 s) (request : PolicyRequest) :
    Agree isVisible (fun b ds t => b.2 = ds ∧ CacheAgrees outside b.1 t)
      (run outside (decideNext sha256 so_far request) s)
      (run outside (decideOne so_far.2 request) s) := by
  have hone : decideOne so_far.2 request =
      logOne request (readChainHead request) >>= fun x => pure (so_far.2 ++ [x.1]) := by
    simp only [decideOne, decide, bind_assoc, pure_bind]
  rw [hone]
  refine (agree_logOne hlog hcache request).bind ?_
  rintro x _ t ⟨rfl, -, hmoved⟩
  exact ⟨rfl, rfl, Or.inl ⟨_, _, rfl, rfl, rfl, cacheAgrees_cons hcache hmoved⟩⟩

/-- The batch agrees with the sequence. -/
theorem agree_decideAll (hlog : LogStore sha256 outside) (requests : List PolicyRequest) (s : σ) :
    Agree isVisible (fun ds ds' _ => ds = ds') (run outside (decideAll sha256 requests) s)
      (run outside (decideEach requests) s) := by
  have hloop : Agree isVisible (fun b ds t => b.2 = ds ∧ CacheAgrees outside b.1 t)
      (run outside (requests.foldlM (decideNext sha256) ([], [])) s)
      (run outside (decideEach requests) s) := by
    refine Agree.foldlM ?_ ⟨rfl, fun _ _ h => by cases h⟩
    rintro b _ t request - ⟨rfl, hcache⟩
    exact agree_decideNext hlog hcache request
  have hpure : decideEach requests = decideEach requests >>= fun ds => pure ds :=
    (bind_pure _).symm
  rw [hpure]
  refine hloop.bind ?_
  rintro b _ t ⟨rfl, -⟩
  exact ⟨rfl, rfl, Or.inl ⟨_, _, rfl, rfl, rfl⟩⟩

end Store

/-! ## What a decision calls -/

/-- The entries whose append was fulfilled. -/
def appended (history : History kernel) : List DecisionLogEntry :=
  history.filterMap fun ev =>
    match ev with
    | ⟨.append e, .ok _⟩ => some e
    | _ => none

/-- What is appended in two histories follows one another. -/
theorem appended_append (past rest : History kernel) :
    appended (past ++ rest) = appended past ++ appended rest :=
  List.filterMap_append

/-- The calls the decision of one request may make. -/
def Concerns (request : PolicyRequest) : Call → Prop
  | .candidatesFor r => r = request
  | .chainHead tenantId => tenantId = request.tenantId
  | .idGenerator => True
  | .now => True
  | .append e => e.request = request
  | _ => False

/-- What one decision has appended when it settles: its entry, or nothing. -/
def AppendsOne (request : PolicyRequest) (past : History kernel) :
    Except Thrown (PolicyDecision × DecisionLogEntry) → Prop
  | .ok (decision, e) => appended past = [e] ∧ e.request = request ∧ e.decision = decision
  | .error _ => appended past = []

/-- A program that makes such calls only and appends nothing. -/
def Quiet {α : Type} (request : PolicyRequest) (past : History kernel) (p : Program kernel α) :
    Prop :=
  Safe (fun _ c => Concerns request c) (fun past _ => appended past = []) past p

section Calls

variable {request : PolicyRequest}

/-- A call that appends nothing is quiet. -/
theorem quiet_ask {past : History kernel} (h : appended past = []) {c : Call}
    (hc : Concerns request c) (happend : ∀ r, appended [⟨c, r⟩] = []) :
    Quiet request past (Program.ask (I := kernel) c) :=
  Safe.ask hc fun r => by rw [appended_append, h, happend, List.append_nil]

/-- Reading the clock is quiet. -/
theorem quiet_clockNow {past : History kernel} (h : appended past = []) :
    Quiet request past clockNow :=
  Safe.bind (quiet_ask h (c := .now) trivial fun _ => rfl) (fun _ _ h => h) fun _ _ h => h

/-- Reading a cached head is quiet. -/
theorem quiet_cachedHead (heads : Heads) {past : History kernel} (h : appended past = []) :
    Quiet request past (cachedHead heads request) := by
  unfold cachedHead
  split
  · exact h
  · exact quiet_ask h rfl fun _ => rfl

/-- A decision calls its collaborators for its own request and appends one entry if it is
fulfilled, none if it is rejected. -/
theorem safe_logOne (request : PolicyRequest) {resolve : Program kernel JsValue}
    (hresolve : ∀ past, appended past = [] → Quiet request past resolve) :
    Safe (fun _ c => Concerns request c) (AppendsOne request) [] (logOne request resolve) := by
  refine Safe.bind (quiet_ask rfl (c := .candidatesFor request) rfl fun _ => rfl) ?_
    fun _ _ h => h
  intro past₁ candidates h₁
  refine Safe.bind (Q := fun past _ => appended past = []) h₁ ?_ fun _ _ h => h
  intro past₂ decision h₂
  refine Safe.bind (Q := fun past _ => appended past = []) h₂ ?_ fun _ _ h => h
  intro past₃ layerResolved h₃
  refine Safe.bind (hresolve past₃ h₃) ?_ fun _ _ h => h
  intro past₄ prevHash h₄
  refine Safe.bind (quiet_ask h₄ (c := .idGenerator) trivial fun _ => rfl) ?_ fun _ _ h => h
  intro past₅ id h₅
  refine Safe.bind (quiet_clockNow h₅) ?_ fun _ _ h => h
  intro past₆ ts h₆
  refine Safe.bind (Q := fun past o => appended past = [] ∧
    ∀ e, o = .ok e → e.request = request ∧ e.decision = decision)
    ⟨h₆, fun e he => fields_of_ofRaw (orThrow_eq_ok.mp he)⟩ ?_ fun _ _ h => h.1
  rintro past₇ entry ⟨h₇, hentry⟩
  obtain ⟨hrequest, hdecision⟩ := hentry entry rfl
  -- the append is the last call, and the only one that can add an entry
  have happend : Safe (fun _ c => Concerns request c)
      (fun past (r : Except Thrown Unit) => appended past = if r.isOk then [entry] else []) past₇
      (Program.ask (I := kernel) (.append entry)) := by
    refine ⟨hrequest, fun r => ?_⟩
    cases r with
    | error e => exact (appended_append _ _).trans (by rw [h₇]; rfl)
    | ok u => exact (appended_append _ _).trans (by rw [h₇]; rfl)
  refine Safe.bind happend ?_ fun _ _ h => h
  intro past₈ _ h₈
  exact ⟨h₈, hrequest, hdecision⟩

end Calls

section Batch

variable {σ : Type} {sha256 : ByteArray → JsString} {outside : Outside kernel σ}

/-- A turn of the batch appends one entry, for its request and with its decision. -/
theorem decideNext_ok {so_far next : Heads × List PolicyDecision} {request : PolicyRequest} {s : σ}
    (h : (run outside (decideNext sha256 so_far request) s).outcome = .ok next) :
    ∃ e, appended (run outside (decideNext sha256 so_far request) s).history = [e] ∧
      e.request = request ∧ next.2 = so_far.2 ++ [e.decision] := by
  have hspec := safe_logOne request fun past hpast => quiet_cachedHead so_far.1 hpast
  have hsafe := hspec.run outside s
  rw [List.nil_append] at hsafe
  unfold decideNext at h ⊢
  -- the rest of the step makes no call
  cases hone : (run outside (logOne request (cachedHead so_far.1 request)) s).outcome with
  | error e =>
    rw [run_bind_of_error hone] at h
    cases h
  | ok x =>
    rw [run_bind_of_ok hone] at h ⊢
    rw [hone] at hsafe
    obtain ⟨happended, hrequest, hdecision⟩ := hsafe
    obtain rfl := Except.ok.inj h
    refine ⟨x.2, ?_, hrequest, by rw [hdecision]⟩
    rw [appended_append, happended]
    rfl

/-- A batch that is fulfilled has appended one entry for each request, in order. -/
theorem appended_foldlM {requests : List PolicyRequest} {so_far next : Heads × List PolicyDecision}
    {s : σ}
    (h : (run outside (requests.foldlM (decideNext sha256) so_far) s).outcome = .ok next) :
    let entries := appended (run outside (requests.foldlM (decideNext sha256) so_far) s).history
    entries.map DecisionLogEntry.request = requests ∧
      next.2 = so_far.2 ++ entries.map DecisionLogEntry.decision := by
  induction requests generalizing so_far s with
  | nil =>
    obtain rfl := Except.ok.inj h
    exact ⟨rfl, (List.append_nil _).symm⟩
  | cons request requests ih =>
    rw [List.foldlM_cons] at h ⊢
    cases hone : (run outside (decideNext sha256 so_far request) s).outcome with
    | error e =>
      rw [run_bind_of_error hone] at h
      cases h
    | ok b =>
      rw [run_bind_of_ok hone] at h ⊢
      -- each request appends one entry, so the appended ones are those of the requests in turn
      obtain ⟨e, happended, hrequest, hb⟩ := decideNext_ok hone
      obtain ⟨hrest, hnext⟩ := ih h
      simp only [appended_append, happended, List.map_cons, hrequest, hrest, hnext, hb,
        List.append_assoc, List.singleton_append, true_and]

/-- A rejected turn of the batch has called collaborators for its own request only and appended
nothing. -/
theorem decideNext_error {so_far : Heads × List PolicyDecision} {request : PolicyRequest} {s : σ}
    {e : Thrown} (h : (run outside (decideNext sha256 so_far request) s).outcome = .error e) :
    appended (run outside (decideNext sha256 so_far request) s).history = [] ∧
      ∀ ev ∈ (run outside (decideNext sha256 so_far request) s).history,
        Concerns request ev.1 := by
  have hspec := safe_logOne request fun past hpast => quiet_cachedHead so_far.1 hpast
  have hsafe := hspec.run outside s
  rw [List.nil_append] at hsafe
  unfold decideNext at h ⊢
  cases hone : (run outside (logOne request (cachedHead so_far.1 request)) s).outcome with
  | ok x =>
    rw [run_bind_of_ok hone] at h
    cases h
  | error e' =>
    rw [run_bind_of_error hone]
    rw [hone] at hsafe
    refine ⟨hsafe, fun ev hev => ?_⟩
    obtain ⟨before, after, hsplit⟩ := List.append_of_mem hev
    exact hspec.guard_of_steps (steps_run outside _ s) hsplit

/-- Logging one decision fails fast. -/
theorem failsFast_logOne {request : PolicyRequest} {resolve : Program kernel JsValue}
    (hresolve : FailsFast resolve) : FailsFast (logOne request resolve) := by
  refine (FailsFast.ask _).bind fun candidates => ?_
  refine (FailsFast.settled _).bind fun decision => ?_
  refine (FailsFast.settled _).bind fun layerResolved => ?_
  refine hresolve.bind fun prevHash => ?_
  refine (FailsFast.ask _).bind fun id => ?_
  refine ((FailsFast.ask _).bind fun _ => .settled _).bind fun ts => ?_
  refine (FailsFast.settled _).bind fun entry => ?_
  exact (FailsFast.ask _).bind fun _ => .settled _

/-- The batch makes no call after a rejected one. -/
theorem failsFast_decideAll (sha256 : ByteArray → JsString) (requests : List PolicyRequest) :
    FailsFast (decideAll sha256 requests) := by
  have hcached (heads : Heads) (request : PolicyRequest) :
      FailsFast (cachedHead heads request) := by
    unfold cachedHead
    split
    · exact .settled _
    · exact .ask _
  have hnext (so_far : Heads × List PolicyDecision) (request : PolicyRequest) :
      FailsFast (decideNext sha256 so_far request) :=
    (failsFast_logOne (hcached so_far.1 request)).bind fun _ => .settled _
  exact (FailsFast.foldlM hnext requests _).bind fun _ => .settled _

/-- Reads of a chain head append nothing. -/
theorem appended_filter_isVisible (history : History kernel) :
    appended (history.filter fun ev => isVisible ev.1) = appended history := by
  induction history with
  | nil => rfl
  | cons ev history ih =>
    obtain ⟨c, r⟩ := ev
    cases c with
    | chainHead tenantId => exact ih
    | _ =>
      rw [List.filter_cons_of_pos rfl, ← List.singleton_append, appended_append, ih,
        ← appended_append]
      rfl

/-- The run of a batch is the run of its loop. -/
theorem run_decideAll (requests : List PolicyRequest) (s : σ) :
    let loop := run outside (requests.foldlM (decideNext sha256) ([], [])) s
    run outside (decideAll sha256 requests) s =
      ⟨loop.history, loop.outcome.map Prod.snd, loop.state⟩ := by
  intro loop
  cases hloop : loop.outcome with
  | error e => exact run_bind_of_error hloop _
  | ok b =>
    exact (run_bind_of_ok hloop _).trans (congrArg (Run.mk · _ _) (List.append_nil loop.history))

/-- `decideAll` makes the appends of `decide` awaited for one request after another, answers and
stops as that does; a fulfilled batch has appended one entry for each request, and a rejected one
for each request before the one that failed, whose calls are the last it made. -/
theorem decideAll_eq_decideEach (hlog : LogStore sha256 outside) (requests : List PolicyRequest)
    (s : σ) :
    let batch := run outside (decideAll sha256 requests) s
    let sequence := run outside (decideEach requests) s
    (batch.outcome = sequence.outcome ∧ batch.state = sequence.state ∧
      appended batch.history = appended sequence.history ∧
      batch.history.filter (fun ev => isVisible ev.1) =
        sequence.history.filter fun ev => isVisible ev.1) ∧
    (∀ decisions, batch.outcome = .ok decisions →
      (appended batch.history).map DecisionLogEntry.request = requests ∧
        (appended batch.history).map DecisionLogEntry.decision = decisions) ∧
    ∀ e, batch.outcome = .error e → ∃ done failing rest, requests = done ++ failing :: rest ∧
      let before := run outside (decideAll sha256 done) s
      before.outcome.isOk = true ∧ appended batch.history = appended before.history ∧
        (appended batch.history).map DecisionLogEntry.request = done ∧
        (∃ last, batch.history = before.history ++ last ∧ ∀ ev ∈ last, Concerns failing ev.1) ∧
        ∀ ev ∈ batch.history.dropLast, ev.2.isOk = true := by
  intro batch sequence
  -- the two runs agree but for the reads of the head that the cache saves
  have hagree := agree_decideAll hlog requests s
  refine ⟨⟨?_, hagree.state, ?_, hagree.history⟩, ?_, ?_⟩
  · obtain ⟨ds, _, h, h', rfl⟩ | ⟨e, h, h'⟩ := hagree.outcome
    · exact h.trans h'.symm
    · exact h.trans h'.symm
  · rw [← appended_filter_isVisible, hagree.history, appended_filter_isVisible]
  · intro decisions h
    simp only [batch, run_decideAll] at h ⊢
    cases hloop : (run outside (requests.foldlM (decideNext sha256) ([], [])) s).outcome with
    | error e =>
      rw [hloop] at h
      cases h
    | ok next =>
      rw [hloop] at h
      obtain rfl := Except.ok.inj h
      exact ⟨(appended_foldlM hloop).1, (appended_foldlM hloop).2.symm⟩
  · intro e h
    have hfast := (failsFast_decideAll sha256 requests).run outside s
    simp only [batch, run_decideAll] at h hfast ⊢
    cases hloop : (run outside (requests.foldlM (decideNext sha256) ([], [])) s).outcome with
    | ok next =>
      rw [hloop] at h
      cases h
    | error e =>
      obtain ⟨done, failing, rest, b, rfl, hdone, hlast, hhistory⟩ := run_foldlM_error hloop
      obtain ⟨hnone, hconcerns⟩ := decideNext_error hlast
      refine ⟨done, failing, rest, rfl, ?_, ?_, ?_, ⟨_, hhistory, hconcerns⟩, hfast⟩
      · rw [hdone]
        rfl
      · rw [hhistory, appended_append, hnone, List.append_nil]
      · rw [hhistory, appended_append, hnone, List.append_nil]
        exact (appended_foldlM hdone).1

end Batch

/-- A log kept in memory, its latest entry first, with no candidate for any request. -/
def memory (sha256 : ByteArray → JsString) : Outside kernel (List DecisionLogEntry) := fun c s =>
  match c with
  | .candidatesFor _ => (.ok (.array .arrayPrototype [] 0), s)
  | .idGenerator => (.ok (.string (lit "01ARZ3NDEKTSV4RRFFQ69G5FAV")), s)
  | .now => (.ok (.string (lit "2026-01-01T00:00:00.000Z")), s)
  | .chainHead tenantId =>
      match s.find? fun e => e.request.tenantId = tenantId with
      | some e => (.ok (.string (e.entryHash sha256)), s)
      | none => (.ok .null, s)
  | .append e => (.ok (), e :: s)
  | _ => (.error (.foreign none none), s)

/-- The head in memory is the hash of the tenant's last entry. -/
theorem headAt_memory (sha256 : ByteArray → JsString) (tenantId : TenantId)
    (s : List DecisionLogEntry) : headAt (memory sha256) tenantId s =
      .ok (((s.find? fun e => e.request.tenantId = tenantId).map fun e =>
        JsValue.string (e.entryHash sha256)).getD .null) := by
  simp only [headAt, memory]
  cases s.find? fun e => e.request.tenantId = tenantId <;> rfl

/-- The memory is a store of the log. -/
theorem logStore_memory (sha256 : ByteArray → JsString) : LogStore sha256 (memory sha256) where
  read tenantId s := by
    simp only [memory]
    cases s.find? fun e => e.request.tenantId = tenantId <;> rfl
  appended e s _ tenantId := by
    have hstate : (memory sha256 (.append e) s).2 = e :: s := rfl
    rw [hstate, headAt_memory, headAt_memory]
    by_cases htenant : tenantId = e.request.tenantId
    · subst htenant
      rw [if_pos rfl, List.find?_cons_of_pos (by simp)]
      rfl
    · rw [if_neg htenant, List.find?_cons_of_neg (by simp [Ne.symm htenant])]
  undisturbed c hc tenantId s := by
    cases c with
    | candidatesFor r => rfl
    | idGenerator => rfl
    | now => rfl
    | _ => cases hc

/-- Two decisions append two entries. -/
theorem length_appended_memory :
    (appended (run (memory sha256Hex) (decideEach [.sample, .sample]) []).history).length = 2 := by
  decide +kernel

/-- Two requests of one tenant: the second entry is linked to the first. -/
theorem decideAll_eq_decideEach_memory :
    let batch := run (memory sha256Hex) (decideAll sha256Hex [.sample, .sample]) []
    let sequence := run (memory sha256Hex) (decideEach [.sample, .sample]) []
    batch.outcome = sequence.outcome ∧ appended batch.history = appended sequence.history ∧
      (appended batch.history).length = 2 :=
  let h := decideAll_eq_decideEach (logStore_memory sha256Hex) [.sample, .sample] []
  ⟨h.1.1, h.1.2.2.1, (congrArg List.length h.1.2.2.1).trans length_appended_memory⟩

end MetaframerKernel.DecisionLoggingPolicyDecisionPoint
