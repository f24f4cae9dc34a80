import MetaframerKernel.Adapters.PostgresDecisionLog
import MetaframerKernel.Application.LoggedDecision
import MetaframerKernel.Application.PolicyCandidateResolver
import MetaframerKernel.Async.Answers

/-!
# The policy decision log composition

`policyDecisionLogComposition` wires a decision point to a resolver over policy statements and to
the PostgreSQL decision log. Its facade answers `decide` and `decideAll`; any number of facades work
on one table at the same time.

## Main definitions

* `wired`: what the composition gives the decision point for each of its collaborators;
* `FacadeCall`, `compositionSystem`: calls of facades next to each other over one table.

## Main results

* `composition_logs`: whatever the interleaving, the logs are linear chains of decisions that the
  statements give, and a call has committed the entries of what it has answered, in order, and of no
  more.
-/

namespace MetaframerKernel.PolicyDecisionLogComposition

open Js Async Stores PostgresDecisionLog DecisionLoggingPolicyDecisionPoint

/-! ## The wiring -/

/-- The functions the composition is given. -/
inductive HostCall where
  | idGenerator
  | now

/-- What the composition awaits: what the adapter does, and the functions it is given. -/
abbrev host : Interface := ⟨LogCall ⊕ HostCall, Sum.elim LogCall.Answer fun _ => JsValue, Thrown⟩

/-- A program of the adapter within the composition. -/
def ofAdapter {α : Type} (p : Program driver α) : Program host α :=
  p.answeredBy fun c => Program.ask (I := host) (.inl c)

section Wiring

variable (sha256 : ByteArray → JsString) (statements : List PolicyStatement)

/-- What the composition gives the decision point. -/
def wired : (c : Call) → Program host (kernel.Answer c)
  | .candidatesFor request =>
      Program.sync (.ok (PolicyCandidateResolver.candidatesFor statements request))
  | .idGenerator => Program.ask (I := host) (.inr .idGenerator)
  | .now => Program.ask (I := host) (.inr .now)
  | .chainHead tenantId => headValue <$> ofAdapter (PostgresDecisionLog.chainHead tenantId)
  | .append entry => (fun _ => ()) <$> ofAdapter (PostgresDecisionLog.append sha256 entry)
  -- the decision point has no other collaborators
  | _ => throw (.foreign none none)

/-- `decide` of the facade. -/
def decide (request : PolicyRequest) : Program host PolicyDecision :=
  (DecisionLoggingPolicyDecisionPoint.decide request).answeredBy (wired sha256 statements)

/-- `decideAll` of the facade. -/
def decideAll (requests : List PolicyRequest) : Program host (List PolicyDecision) :=
  (DecisionLoggingPolicyDecisionPoint.decideAll sha256 requests).answeredBy
    (wired sha256 statements)

end Wiring

/-- A call of the facade over some statements. -/
inductive FacadeCall where
  | decide (statements : List PolicyStatement) (request : PolicyRequest)
  | decideAll (statements : List PolicyStatement) (requests : List PolicyRequest)

/-- The statements of the facade that is called. -/
def FacadeCall.statements : FacadeCall → List PolicyStatement
  | decide statements _ => statements
  | decideAll statements _ => statements

/-- The requests a call is made with. -/
def FacadeCall.requests : FacadeCall → List PolicyRequest
  | decide _ request => [request]
  | decideAll _ requests => requests

/-- The program of a call, with its decisions. -/
def FacadeCall.program (sha256 : ByteArray → JsString) :
    FacadeCall → Program host (List PolicyDecision)
  | decide statements request =>
      (fun d => [d]) <$> PolicyDecisionLogComposition.decide sha256 statements request
  | decideAll statements requests =>
      PolicyDecisionLogComposition.decideAll sha256 statements requests

/-- What a call is to the table. -/
def tableAction : Event host → Stores.Action ClientId LogRow
  | ⟨.inl c, r⟩ => logAction ⟨c, r⟩
  | ⟨.inr _, _⟩ => .none

/-- A select is fulfilled with what its query selects from the table. -/
def SelectsFrom (table : List LogRow) : Event host → Prop
  | ⟨.inl c, r⟩ => Selects table ⟨c, r⟩
  | ⟨.inr _, _⟩ => True

/-- Calls of facades next to each other over one table. -/
def compositionSystem (sha256 : ByteArray → JsString) (calls : ℕ → FacadeCall) :
    System host ℕ (Store ℕ ClientId LogRow) (List PolicyDecision) where
  program i := (calls i).program sha256
  Answers s i ev s' := s.Step Admitted i (tableAction ev) s' ∧ SelectsFrom s.rows ev

/-! ## Programs of the adapter -/

section OfAdapter

variable {α : Type} {P : List LogRow → Prop}

/-- The calls of the adapter. -/
def adapterPart (past : History host) : History driver := past.filterMap fun
  | ⟨.inl c, r⟩ => some ⟨c, r⟩
  | ⟨.inr _, _⟩ => none

/-- What a transaction has written is seen in the adapter's part of the history. -/
theorem viewAfter_adapterPart (past : History host) :
    viewAfter logAction (adapterPart past) = viewAfter tableAction past := by
  induction past using List.reverseRecOn with
  | nil => rfl
  | append_singleton past ev ih =>
    have happend : adapterPart (past ++ [ev]) = adapterPart past ++ adapterPart [ev] :=
      List.filterMap_append
    rw [happend, viewAfter_append, ← ih]
    obtain ⟨c | c, r⟩ := ev
    · exact viewAfter_append logAction (adapterPart past) ⟨c, r⟩
    · exact congrArg (viewAfter logAction) (List.append_nil (adapterPart past))

/-- What a program of the adapter does to the table it does within the composition. -/
theorem safe_ofAdapter (past : History host) {p : Program driver α} {done : List (List LogRow)}
    {Wrote : α → List LogRow → Prop}
    (h : Safe (Keeps logAction P) (Settled logAction done Wrote) (adapterPart past) p) :
    Safe (Keeps tableAction P) (Settled tableAction done Wrote) past (ofAdapter p) := by
  induction p generalizing past with
  | settled o =>
    have hview := viewAfter_adapterPart past
    cases o with
    | ok a =>
      obtain ⟨writes, ha, hwrites⟩ := h
      exact ⟨writes, ha, hview.symm.trans hwrites⟩
    | error e => exact hview.symm.trans h
  | await c next ih =>
    -- a call of the adapter is one of the host's, and its part of the history is the adapter's own
    have hstep (r : driver.Settled c) : adapterPart (past ++ [⟨.inl c, r⟩]) =
        adapterPart past ++ [⟨c, r⟩] := List.filterMap_append
    obtain ⟨⟨hdisciplined, hkeeps⟩, hnext⟩ := h
    refine ⟨⟨fun r => ?_, fun r writes hwrites => ?_⟩, fun r => ih r _ ?_⟩
    · rw [← viewAfter_adapterPart]
      exact hdisciplined r
    · rw [← viewAfter_adapterPart] at hwrites ⊢
      exact hkeeps r writes (hstep r ▸ hwrites)
    · rw [hstep r]
      exact hnext r

end OfAdapter

/-! ## What a call commits -/

section Calls

variable {sha256 : ByteArray → JsString} {statements : List PolicyStatement}
  {requests : List PolicyRequest} {rows : List LogRow} {past : History host}

/-- The entry records what the statements give for its request: the decision, and the layer of the
statement that won. -/
structure Records (statements : List PolicyStatement) (e : DecisionLogEntry) : Prop where
  decision : PolicyCandidateResolver.decideFrom statements e.request = .ok e.decision
  layer : Resolves (PolicyCandidateResolver.candidatesFor statements e.request) e.decision
    e.layerResolved

variable (sha256 statements requests) in
/-- What a call commits: nothing, or the row of an entry for one of its requests. -/
def IsLogged (writes : List LogRow) : Prop :=
  writes = [] ∨ ∃ e, writes = [rowOf sha256 e] ∧ e.request ∈ requests ∧ Records statements e

/-- The call holds no client, and these rows are what it has committed. -/
def Committed (rows : List LogRow) (past : History host) : Prop :=
  ∃ done, viewAfter tableAction past = ⟨none, done⟩ ∧ done.flatten = rows

/-- A call of a function that is given is nothing to the table. -/
theorem safe_askHost {P : List LogRow → Prop} (h : Committed rows past) (c : HostCall) :
    Safe (Keeps tableAction P) (fun past _ => Committed rows past) past
      (Program.ask (I := host) (.inr c)) := by
  refine Safe.ask (keeps_of_none fun _ => rfl) fun r => ?_
  obtain ⟨done, hview, hrows⟩ := h
  refine ⟨done, ?_, hrows⟩
  rw [viewAfter_append, hview]
  rfl

/-- A reading of the chain head commits no rows. -/
theorem safe_chainHead_wired (h : Committed rows past) (tenantId : TenantId) :
    Safe (Keeps tableAction (IsLogged sha256 statements requests))
      (fun past _ => Committed rows past) past (wired sha256 statements (.chainHead tenantId)) := by
  obtain ⟨done, hview, hrows⟩ := h
  have hadapter := safe_ofAdapter past (safe_chainHead
    ((viewAfter_adapterPart past).trans hview) tenantId (P := IsLogged sha256 statements requests)
    (.inl rfl))
  refine hadapter.bind ?_ fun past _ hrejected => ⟨done, hrejected, hrows⟩
  rintro past head ⟨_, rfl, hread⟩
  refine ⟨done ++ [[]], hread, ?_⟩
  rw [List.flatten_append, hrows, List.flatten_singleton, List.append_nil]

/-- An append commits the row of its entry when it is fulfilled, and nothing when it is rejected. -/
theorem safe_append_wired (h : Committed rows past) {e : DecisionLogEntry}
    (hrequest : e.request ∈ requests) (hrecords : Records statements e) :
    Safe (Keeps tableAction (IsLogged sha256 statements requests))
      (fun past o => Committed (if o.isOk then rows ++ [rowOf sha256 e] else rows) past) past
      (wired sha256 statements (.append e)) := by
  obtain ⟨done, hview, hrows⟩ := h
  have hadapter := safe_ofAdapter past (safe_append sha256
    ((viewAfter_adapterPart past).trans hview) e (P := IsLogged sha256 statements requests)
    (.inr ⟨e, rfl, hrequest, hrecords⟩))
  refine hadapter.bind ?_ fun past _ hrejected => ⟨done, hrejected, hrows⟩
  rintro past receipt ⟨_, rfl, happended⟩
  refine ⟨done ++ [[rowOf sha256 e]], happended, ?_⟩
  rw [List.flatten_append, hrows, List.flatten_singleton]
  rfl

/-- How one logged decision ends: with the row of its entry, or with no further row. -/
def LoggedAs (sha256 : ByteArray → JsString) (statements : List PolicyStatement)
    (request : PolicyRequest) (rows : List LogRow) (past : History host) :
    Except Thrown (PolicyDecision × DecisionLogEntry) → Prop
  | .ok (d, e) => Committed (rows ++ [rowOf sha256 e]) past ∧ e.request = request ∧
      e.decision = d ∧ Records statements e
  | .error _ => Committed rows past

/-- A logged decision is what the statements give, and its entry is committed before it is
answered. -/
theorem safe_logOne {request : PolicyRequest} (hrequest : request ∈ requests)
    {resolve : Program kernel JsValue}
    (hresolve : ∀ past, Committed rows past →
      Safe (Keeps tableAction (IsLogged sha256 statements requests))
        (fun past _ => Committed rows past) past (resolve.answeredBy (wired sha256 statements)))
    (h : Committed rows past) :
    Safe (Keeps tableAction (IsLogged sha256 statements requests))
      (LoggedAs sha256 statements request rows) past
      ((logOne request resolve).answeredBy (wired sha256 statements)) := by
  have hask (c : Call) : (Program.ask (I := kernel) c).answeredBy (wired sha256 statements) =
      wired sha256 statements c := answeredBy_ask (I := kernel) _ c
  simp only [logOne, clockNow, answeredBy_bind, bind_assoc]
  have hcandidates : wired sha256 statements (.candidatesFor request) =
      Program.sync (.ok (PolicyCandidateResolver.candidatesFor statements request)) := rfl
  rw [hask, hask, hask, hcandidates]
  refine Safe.syncBind (fun candidates hcandidates => ?_) fun _ h => by cases h
  obtain rfl := Except.ok.inj hcandidates
  refine Safe.syncBind (fun d hd => ?_) fun _ _ => h
  refine Safe.syncBind (fun value hvalue => ?_) fun _ _ => h
  refine Safe.bind (hresolve past h) ?_ fun _ _ h => h
  intro past₁ head h₁
  refine Safe.bind (safe_askHost h₁ .idGenerator) ?_ fun _ _ h => h
  intro past₂ id h₂
  refine Safe.bind (safe_askHost h₂ .now) ?_ fun _ _ h => h
  intro past₃ reading h₃
  refine Safe.syncBind (fun ts _ => ?_) fun _ _ => h₃
  refine Safe.syncBind (fun e he => ?_) fun _ _ => h₃
  rw [orThrow_eq_ok] at hd hvalue he
  -- the entry carries the request, the decision and the layer of the winner
  obtain ⟨rfl, rfl⟩ := fields_of_ofRaw he
  obtain ⟨-, layer, hlayer, hresolved⟩ := parts_of_ofRaw he
  have hrecords : Records statements e :=
    ⟨hd, hresolved ▸ resolves_of_layerOf hd hvalue hlayer⟩
  rw [hask]
  refine Safe.bind (safe_append_wired h₃ hrequest hrecords) ?_ fun _ _ h => h
  intro past₄ _ h₄
  exact ⟨h₄, rfl, rfl, hrecords⟩

/-- How a call ends: answered, with the entries of all its requests, or rejected, with those of the
first ones. -/
def Logged (sha256 : ByteArray → JsString) (statements : List PolicyStatement)
    (requests : List PolicyRequest) (past : History host)
      (o : Except Thrown (List PolicyDecision)) :
    Prop :=
  ∃ entries : List DecisionLogEntry, Committed (entries.map (rowOf sha256)) past ∧
    (∀ e ∈ entries, Records statements e) ∧
    match o with
    | .ok decisions => entries.map DecisionLogEntry.request = requests ∧
        entries.map DecisionLogEntry.decision = decisions
    | .error _ => ∃ next later,
        requests = entries.map DecisionLogEntry.request ++ next :: later

/-- Before any call nothing is committed. -/
theorem committed_init : Committed [] [] := ⟨[], rfl, rfl⟩

/-- A reading of the chain head, in the log or in the map of a batch, commits no rows. -/
theorem safe_cachedHead (heads : Heads) (request : PolicyRequest) (h : Committed rows past) :
    Safe (Keeps tableAction (IsLogged sha256 statements requests))
      (fun past _ => Committed rows past) past
      ((cachedHead heads request).answeredBy (wired sha256 statements)) := by
  unfold cachedHead
  split
  · exact h
  · rw [readChainHead, answeredBy_ask (I := kernel)]
    exact safe_chainHead_wired h request.tenantId

/-- How a call for one request ends before its decision is put into a list. -/
def LoggedOne (sha256 : ByteArray → JsString) (statements : List PolicyStatement)
    (request : PolicyRequest) (past : History host) : Except Thrown PolicyDecision → Prop
  | .ok d => Logged sha256 statements [request] past (.ok [d])
  | .error _ => Committed [] past

/-- `decide` logs its request. -/
theorem safe_decide (statements : List PolicyStatement) (request : PolicyRequest) :
    Safe (Keeps tableAction (IsLogged sha256 statements [request]))
      (Logged sha256 statements [request]) []
      ((FacadeCall.decide statements request).program sha256) := by
  have hone : Safe (Keeps tableAction (IsLogged sha256 statements [request]))
      (LoggedAs sha256 statements request []) []
      ((logOne request (readChainHead request)).answeredBy (wired sha256 statements)) :=
    safe_logOne List.mem_cons_self (fun _ => safe_cachedHead [] request) committed_init
  simp only [FacadeCall.program, decide, DecisionLoggingPolicyDecisionPoint.decide, answeredBy_bind]
  refine Safe.bind (Safe.bind hone (R := LoggedOne sha256 statements request) ?_ fun _ _ h => h)
    (fun _ _ h => h) ?_
  · rintro past ⟨d, e⟩ ⟨hcommitted, rfl, rfl, hrecords⟩
    exact ⟨[e], hcommitted, by simpa using hrecords, rfl, rfl⟩
  · intro past e h
    exact ⟨[], h, fun _ he => absurd he List.not_mem_nil, request, [], rfl⟩

/-- After some requests a batch has committed one entry for each, in order, with its decision. -/
def BatchLogged (sha256 : ByteArray → JsString) (statements : List PolicyStatement)
    (requests : List PolicyRequest) (so_far : Heads × List PolicyDecision) (past : History host) :
    Prop :=
  ∃ entries : List DecisionLogEntry, Committed (entries.map (rowOf sha256)) past ∧
    (∀ e ∈ entries, Records statements e) ∧ entries.map DecisionLogEntry.request = requests ∧
    entries.map DecisionLogEntry.decision = so_far.2

/-- `decideAll` logs its requests. -/
theorem safe_decideAll (statements : List PolicyStatement) (requests : List PolicyRequest) :
    Safe (Keeps tableAction (IsLogged sha256 statements requests))
      (Logged sha256 statements requests) []
      ((FacadeCall.decideAll statements requests).program sha256) := by
  simp only [FacadeCall.program, decideAll, DecisionLoggingPolicyDecisionPoint.decideAll,
    answeredBy_bind, answeredBy_foldlM]
  -- the invariant of the loop is that the requests so far are the ones that are logged
  refine Safe.bind (Safe.foldlM (BatchLogged sha256 statements)
    (Q := fun past o => match o with
      | .ok so_far => BatchLogged sha256 statements requests so_far past
      | .error e => Logged sha256 statements requests past (.error e)) ?_ (fun _ _ h => h)
    ⟨[], committed_init, fun _ he => absurd he List.not_mem_nil, rfl, rfl⟩) ?_ fun _ _ h => h
  · -- one more request: its entry is committed after those of the requests before it, or none is
    rintro before request after so_far past hrequests ⟨entries, hcommitted, hrecords, hbefore, hd⟩
    have hmem : request ∈ requests := by
      rw [hrequests]
      exact List.mem_append_right _ List.mem_cons_self
    simp only [decideNext, answeredBy_bind]
    refine Safe.bind (safe_logOne hmem (fun _ => safe_cachedHead so_far.1 request) hcommitted)
      ?_ ?_
    · rintro past ⟨d, e⟩ ⟨hcommitted, hrequest, hdecision, hrecord⟩
      refine ⟨entries ++ [e], ?_, ?_, ?_, ?_⟩
      · rwa [List.map_append]
      · intro e' he'
        rcases List.mem_append.mp he' with he' | he'
        · exact hrecords e' he'
        · exact List.mem_singleton.mp he' ▸ hrecord
      · rw [List.map_append, hbefore, List.map_singleton, hrequest]
      · rw [List.map_append, hd, List.map_singleton, hdecision]
    · intro past e hcommitted
      exact ⟨entries, hcommitted, hrecords, request, after, hbefore.symm ▸ hrequests⟩
  · rintro past so_far ⟨entries, hcommitted, hrecords, hrequests, hdecisions⟩
    exact ⟨entries, hcommitted, hrecords, hrequests, hdecisions⟩

/-- A call of the facade logs its requests. -/
theorem FacadeCall.safe (sha256 : ByteArray → JsString) (call : FacadeCall) :
    Safe (Keeps tableAction (IsLogged sha256 call.statements call.requests))
      (Logged sha256 call.statements call.requests) [] (call.program sha256) := by
  cases call with
  | decide statements request => exact safe_decide statements request
  | decideAll statements requests => exact safe_decideAll statements requests

end Calls

/-! ## Calls next to each other -/

section System

variable {sha256 : ByteArray → JsString} {calls : ℕ → FacadeCall}
  {cfg : Config host ℕ (Store ℕ ClientId LogRow) (List PolicyDecision)}

/-- The rows a call has committed. -/
def rowsBy (i : ℕ) (s : Store ℕ ClientId LogRow) : List LogRow :=
  writesOf (s.committed.filter fun tx => tx.1 = i)

/-- Whatever the interleaving: the rows of each tenant are one linear chain; every row is that of an
entry for a request of the call that has committed it, with the decision and the layer that the
statements of its facade give; a call that is answered has committed the entries of its requests,
one each and in order, with the decisions it is answered with; and one that is rejected those of
the first requests, but not all. -/
theorem composition_logs (h : (compositionSystem sha256 calls).Reachable .empty cfg) :
    (∀ tenantId, IsLinearChain LogRow.entryHash LogRow.prevHash
      (rowsOf tenantId cfg.state.rows)) ∧
    (∀ i, ∀ r ∈ rowsBy i cfg.state, ∃ e, r = rowOf sha256 e ∧ e.request ∈ (calls i).requests ∧
      Records (calls i).statements e) ∧
    ∀ i o, cfg.left i = .settled o → ∃ entries : List DecisionLogEntry,
      rowsBy i cfg.state = entries.map (rowOf sha256) ∧
      match o with
      | .ok decisions => entries.map DecisionLogEntry.request = (calls i).requests ∧
          entries.map DecisionLogEntry.decision = decisions
      | .error _ => ∃ next later,
          (calls i).requests = entries.map DecisionLogEntry.request ++ next :: later := by
  have hsafe (i : ℕ) := (calls i).safe sha256
  -- the table holds what the calls have committed, each in its own history
  have hviews : Views Admitted cfg.state fun i => viewAfter tableAction (cfg.past i) :=
    views_of_keeps (fun _ _ _ _ h => And.left h) hsafe h
  have hrows (i : ℕ) : rowsBy i cfg.state = (viewAfter tableAction (cfg.past i)).done.flatten := by
    rw [rowsBy, writesOf, hviews.done i]
  refine ⟨fun tenantId => ?_, fun i r hr => ?_, fun i o hsettled => ?_⟩
  · exact (allLinked_of_admitted hviews.admitted tenantId).isLinearChain
  · obtain ⟨writes, hwrites, hr⟩ := List.mem_flatten.mp (hrows i ▸ hr)
    rcases committed_of_keeps (hsafe i) (h.steps i) writes hwrites with rfl | ⟨e, rfl, he⟩
    · cases hr
    · exact ⟨e, List.mem_singleton.mp hr, he⟩
  · have hlogged := h.safe (hsafe i)
    rw [hsettled] at hlogged
    obtain ⟨entries, ⟨done, hview, hdone⟩, -, ho⟩ := hlogged
    refine ⟨entries, ?_, ho⟩
    rw [hrows i, hview, hdone]

/-! ## Two linked rows -/

/-- The answers a call of a facade may get are the same among any other calls. -/
abbrev AnswersTo (i : ℕ) (s : Store ℕ ClientId LogRow) (ev : Event host)
    (s' : Store ℕ ClientId LogRow) : Prop :=
  s.Step Admitted i (tableAction ev) s' ∧ SelectsFrom s.rows ev

/-- What a program of the adapter can come to it can come to within the composition. -/
theorem runs_ofAdapter {α : Type} {i : ℕ} {s s' : Store ℕ ClientId LogRow} {p : Program driver α}
    {o : Except Thrown α} (h : Runs (PostgresDecisionLog.AnswersTo i) s p s' o) :
    Runs (AnswersTo i) s (ofAdapter p) s' o := by
  induction h with
  | settled s o => exact Runs.settled (I := host) s o
  | await r hanswers _ ih => exact Runs.await (I := host) r hanswers ih

/-- A call of `decide` can commit the row of its entry, when the table takes it. -/
theorem runs_decide (statements : List PolicyStatement) (i : ℕ) (e : DecisionLogEntry)
    (id ts : JsValue) {s : Store ℕ ClientId LogRow} {client : ClientId} {payload : Json}
    {time layer : JsValue} (hfree : Free client s)
    (hdecision : AuthorizationEvaluator.decide e.request
      (PolicyCandidateResolver.candidatesFor statements e.request) = .ok e.decision)
    (hlayer : layerOf (PolicyCandidateResolver.candidatesFor statements e.request)
      e.decision.matchedPolicyId = .ok layer) (htime : canonicalReading ts = .ok time)
    (hentry : DecisionLogEntry.ofRaw id e.request e.decision layer time
      (headValue (chainHeadQuery e.request.tenantId.value s.rows).head?) = .ok e)
    (hhash : isHex64 (e.entryHash sha256) = true) (hrow : Constraints s.rows (rowOf sha256 e))
    (hw : payload.wellFormed = true)
    (hsame : payload.canonical = e.plainPayloadOf.canonical) :
    ∃ s', Runs (AnswersTo i) s ((FacadeCall.decide statements e.request).program sha256) s'
        (.ok [e.decision]) ∧
      s'.rows = s.rows ++ [rowOf sha256 e] ∧ Free client s' := by
  obtain ⟨s₁, hread, hrows₁, hfree₁⟩ := runs_chainHead (i := i) hfree e.request.tenantId
  obtain ⟨s₂, receipt, happend, hrows₂, hfree₂⟩ :=
    runs_append (i := i) hfree₁ hhash (hrows₁ ▸ hrow) hw hsame
  refine ⟨s₂, ?_, hrows₁ ▸ hrows₂, hfree₂⟩
  have hask (c : Call) : (Program.ask (I := kernel) c).answeredBy (wired sha256 statements) =
      wired sha256 statements c := answeredBy_ask (I := kernel) _ c
  -- the program, with its ports wired: candidates, head, id, time, append
  simp only [FacadeCall.program, decide, DecisionLoggingPolicyDecisionPoint.decide, logOne,
    readChainHead, clockNow, answeredBy_bind, bind_assoc]
  refine Runs.map ?_ fun d => [d]
  have hgiven (c : HostCall) (r : JsValue) : Runs (AnswersTo i) s₁
      (Program.ask (I := host) (.inr c)) s₁ (.ok r) :=
    Runs.ask (I := host) (c := .inr c) (.ok r) ⟨.none, trivial⟩
  rw [hask, hask, hask, hask]
  -- each call is answered in turn
  refine Runs.bind (.settled s _) ?_
  refine Runs.bind (.sync (orThrow_eq_ok.mpr hdecision)) ?_
  refine Runs.bind (.sync (orThrow_eq_ok.mpr hlayer)) ?_
  refine Runs.bind ((runs_ofAdapter hread).map headValue) ?_
  refine Runs.bind (hgiven .idGenerator id) (Runs.bind (hgiven .now ts) ?_)
  refine Runs.bind (.sync (orThrow_eq_ok.mpr htime)) ?_
  refine Runs.bind (.sync (orThrow_eq_ok.mpr hentry)) ?_
  rw [hask]
  exact Runs.bind ((runs_ofAdapter happend).map fun _ => ()) (.settled s₂ _)

/-- The entry of a request that no statement is about. -/
def firstEntry : DecisionLogEntry :=
  { DecisionLogEntry.sample with
    decision := {
      effect := .deny
      reason := AuthorizationEvaluator.combinedReason
      matchedPolicyId := none
      traceId := PolicyRequest.sample.action.correlationId
      reasonOk := by decide
      matchedOk := rfl }
    sameTrace := rfl
    layerOk := by simp [DecisionLogEntry.sample] }

/-- The SHA-256 of that entry. -/
def firstHash : JsString :=
  lit "cbea0feb4aa098becbd1023ca975cd631fdba2d6fd7c40e32380b3d85dfd66a8"

/-- It has the form of a digest. -/
theorem isHex64_firstHash : isHex64 firstHash = true := by decide

/-- The second id has the form of a ULID. -/
theorem isUlid_secondId : isUlid (lit "01ARZ3NDEKTSV4RRFFQ69G5FAW") = true := by decide

/-- The entry of the same request, after that one. -/
def secondEntry : DecisionLogEntry :=
  { firstEntry with
    id := lit "01ARZ3NDEKTSV4RRFFQ69G5FAW"
    prevHash := some firstHash
    idOk := isUlid_secondId
    prevHashOk := by
      rintro _ ⟨⟩
      exact isHex64_firstHash }

/-- That is the hash of the first entry. -/
theorem entryHash_firstEntry : firstEntry.entryHash sha256Hex = firstHash := by decide +kernel

/-- The second entry has another hash. -/
theorem entryHash_secondEntry_ne : firstHash ≠ secondEntry.entryHash sha256Hex := by decide +kernel

/-- A table of the first entry's row takes the second one's. -/
theorem constraints_secondEntry :
    Constraints [rowOf sha256Hex firstEntry] (rowOf sha256Hex secondEntry) :=
  constraints_successor (isHex64_sha256Hex _) rfl (by decide) rfl
    (congrArg some entryHash_firstEntry.symm) (by
      rw [entryHash_firstEntry]
      exact entryHash_secondEntry_ne)

/-- Two facades are asked for the same decision, one after the other. -/
def linkedCalls (_ : ℕ) : FacadeCall := .decide [] .sample

/-- Two calls one after the other can commit both entries, linked. -/
theorem exists_linkedRows : ∃ cfg,
    (compositionSystem sha256Hex linkedCalls).Reachable .empty cfg ∧
    cfg.state.rows = [rowOf sha256Hex firstEntry, rowOf sha256Hex secondEntry] ∧
    cfg.left 0 = .settled (.ok [firstEntry.decision]) ∧
    cfg.left 1 = .settled (.ok [secondEntry.decision]) := by
  have hinit : (compositionSystem sha256Hex linkedCalls).Reachable .empty _ := .init
  have hempty : Free 0 (Store.empty : Store ℕ ClientId LogRow) := ⟨rfl, rfl⟩
  have hfirst : isHex64 (firstEntry.entryHash sha256Hex) = true := isHex64_sha256Hex _
  have hsecond : isHex64 (secondEntry.entryHash sha256Hex) = true := isHex64_sha256Hex _
  -- the head of an empty log is null
  obtain ⟨s₁, hruns₁, hrows₁, hfree₁⟩ := runs_decide [] 0 firstEntry
    (.string firstEntry.id) (.string firstEntry.ts) hempty rfl rfl rfl rfl hfirst
    (constraints_genesis hfirst rfl) (wellFormed_plainPayloadOf _) rfl
  obtain ⟨cfg₁, h₁, hstate₁, hleft₁⟩ := hinit.runs hruns₁
  have hhead : chainHeadQuery secondEntry.request.tenantId.value s₁.rows = [firstHash] := by
    have hrows : s₁.rows = [rowOf sha256Hex firstEntry] := hrows₁
    have htenant : (rowOf sha256Hex firstEntry).tenantId = secondEntry.request.tenantId.value := rfl
    have hprev : (rowOf sha256Hex firstEntry).prevHash = none := rfl
    rw [hrows, chainHeadQuery_singleton htenant (hprev ▸ nofun), entryHash_rowOf,
      entryHash_firstEntry]
  obtain ⟨s₂, hruns₂, hrows₂, -⟩ := runs_decide [] 1 secondEntry
    (.string secondEntry.id) (.string secondEntry.ts) hfree₁ rfl rfl rfl
    (by rw [hhead]; rfl) hsecond (hrows₁ ▸ constraints_secondEntry) (wellFormed_plainPayloadOf _)
      rfl
  obtain ⟨cfg, h, rfl, hleft⟩ := h₁.runs (i := 1) (by
    rw [hstate₁, hleft₁, Function.update_of_ne Nat.one_ne_zero]
    exact hruns₂)
  refine ⟨cfg, h, by rw [hrows₂, hrows₁]; rfl, ?_, ?_⟩
  · rw [hleft, Function.update_of_ne Nat.zero_ne_one, hleft₁, Function.update_self]
  · rw [hleft, Function.update_self]

theorem composition_logs_linked :
    ∃ cfg, (compositionSystem sha256Hex linkedCalls).Reachable .empty cfg ∧
      cfg.state.rows = [rowOf sha256Hex firstEntry, rowOf sha256Hex secondEntry] ∧
      (∀ tenantId, IsLinearChain LogRow.entryHash LogRow.prevHash
        (rowsOf tenantId cfg.state.rows)) ∧
      (∀ r ∈ rowsBy 1 cfg.state, ∃ e, r = rowOf sha256Hex e ∧ e.request ∈ [PolicyRequest.sample] ∧
        Records [] e) ∧
      ∃ e, rowsBy 1 cfg.state = [rowOf sha256Hex e] ∧ e.request = .sample ∧
        e.decision = secondEntry.decision := by
  obtain ⟨cfg, h, hrows, -, hleft⟩ := exists_linkedRows
  obtain ⟨hchain, hrecords, hended⟩ := composition_logs h
  obtain ⟨entries, hcommitted, hrequests, hdecisions⟩ := hended 1 _ hleft
  obtain ⟨e, rfl, he⟩ := List.map_eq_singleton_iff.mp hrequests
  exact ⟨cfg, h, hrows, hchain, hrecords 1, e, hcommitted, he, List.singleton_injective hdecisions⟩

end System

end MetaframerKernel.PolicyDecisionLogComposition
