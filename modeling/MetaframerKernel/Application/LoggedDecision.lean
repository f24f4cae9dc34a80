import MetaframerKernel.Application.DecisionLoggingPolicyDecisionPoint

/-!
# The entry of a logged decision

The evaluator reads the candidate array through its own checks and returns an id; the logger finds
the entry of that id in the raw array and reads the layer off it, and the log entry has a rule of
its own for the layer it takes. The three agree: the entry `decide` appends carries the layer of the
candidate that won.

## Main definitions

* `Resolves`: the layer a decision resolves to on a candidate array;
* `LoggedBy`: the calls of a decision that is fulfilled.

## Main results

* `layerOf_of_mem`: the layer read off the raw array is that of the winner;
* `decide_logged`: what a fulfilled decision has appended, and what a rejected one has tried to.
-/

namespace MetaframerKernel.DecisionLoggingPolicyDecisionPoint

open Js Async AuthorizationEvaluator

/-! ## The layer of the winner -/

/-- The layer is that of the winner of the effect decided on, or there is none and no candidate
applies. -/
def Resolves (candidates : JsValue) (d : PolicyDecision) (layer : Option Layer) : Prop :=
  ∃ checked, Admits candidates checked ∧ Combines checked d.effect d.matchedPolicyId ∧
    (∀ c, Wins checked d.effect c → layer = some c.layer) ∧
    (layer = none ↔ ∀ c ∈ checked, c.applies = false)

/-- An entry of the three keys has no layer. -/
theorem property?_layer_of_legacy {props : List ((PropertyKey × Descriptor) × JsValue)}
    (h : hasExactEnumerableDataKeys props legacyCandidateKeys = true) :
    JsValue.property? props (lit "layer") = none := by
  simp only [hasExactEnumerableDataKeys, Bool.and_eq_true, List.all_eq_true, List.any_eq_true,
    beq_iff_eq] at h
  rw [JsValue.property?, Option.map_eq_none_iff, List.find?_eq_none]
  intro p hp hlayer
  obtain ⟨k, hk, hkey⟩ := h.2 p hp
  rw [beq_iff_eq, hkey, PropertyKey.string.injEq] at hlayer
  subst hlayer
  exact absurd hk (by decide)

/-- Of admitted entries under distinct ids, the one of a candidate's id is the one that spells
it. -/
theorem findSome?_of_spells {entries : List JsValue} {checked : List Candidate}
    (h : List.Forall₂ Spells entries checked) (hnodup : (checked.map Candidate.policyId).Nodup)
    {c : Candidate} (hc : c ∈ checked) :
    ∃ props, Spells (.object .objectPrototype props) c ∧
      (entries.findSome? fun candidate =>
        match candidate with
        | .object _ props =>
            match JsValue.get props (lit "policyId") with
            | .string id => if id = c.policyId then some props else none
            | _ => none
        | _ => none) = some props := by
  -- on the entries: the first of that id is the one, since the ids are different
  induction h with
  | nil => cases hc
  | @cons entry d entries checked hspells hrest ih =>
    rw [List.map_cons, List.nodup_cons] at hnodup
    have hspells' := hspells
    obtain ⟨props, rfl, hid, -⟩ := hspells'
    rw [List.findSome?_cons]
    rcases List.mem_cons.mp hc with rfl | hmem
    · refine ⟨props, hspells, ?_⟩
      simp only [hid, if_true]
    · have hne : d.policyId ≠ c.policyId := by
        intro heq
        exact hnodup.1 (List.mem_map.mpr ⟨c, hmem, heq.symm⟩)
      obtain ⟨found, hfound, hrest⟩ := ih hnodup.2 hmem
      refine ⟨found, hfound, ?_⟩
      simp only [hid, if_neg hne]
      exact hrest

/-- The layer read off the raw array under the id of an admitted candidate is that candidate's,
whichever shape its entry has. -/
theorem layerOf_of_mem {candidates : JsValue} {checked : List Candidate}
    (h : Admits candidates checked) {c : Candidate} (hc : c ∈ checked) :
    layerOf candidates (some c.policyId) = .ok (.string c.layer.name) := by
  obtain ⟨entries, hentries, hspells, hnodup⟩ := h
  obtain ⟨props, ⟨props', heq, -, -, -, hshape⟩, hfound⟩ := findSome?_of_spells hspells hnodup hc
  obtain rfl := (JsValue.object.inj heq).2
  have hwinner : findWinner candidates c.policyId = some props := by
    rw [findWinner, hentries]
    exact hfound
  simp only [layerOf, hwinner]
  -- a candidate of the old shape names no layer, and is of the tenant
  rcases hshape with ⟨hlegacy, -, htenant⟩ | ⟨-, -, hlayer⟩
  · rw [property?_layer_of_legacy hlegacy, htenant]
    rfl
  · cases hprop : JsValue.property? props (lit "layer") with
    | none =>
      rw [JsValue.get, hprop] at hlayer
      cases hlayer
    | some p =>
      rw [JsValue.get, hprop] at hlayer
      exact congrArg Except.ok hlayer

/-- A combination names the winner of its effect, or no id when no candidate applies. -/
theorem combines_winner {checked : List Candidate} {effect : Effect} {id : Option JsString}
    (h : Combines checked effect id) :
    (∃ c, Wins checked effect c ∧ id = some c.policyId) ∨
      id = none ∧ ∀ c ∈ checked, c.applies = false := by
  cases h with
  | deny c hwins => exact Or.inl ⟨c, hwins, rfl⟩
  | allow c _ hwins => exact Or.inl ⟨c, hwins, rfl⟩
  | default hdeny hallow =>
    refine Or.inr ⟨rfl, fun c hc => ?_⟩
    by_contra happlies
    rw [Bool.not_eq_false] at happlies
    cases heffect : c.effect with
    | deny => exact hdeny c hc happlies heffect
    | allow => exact hallow c hc happlies heffect

/-- The layer an entry takes beside a decision is the one read off the array, so it is the
winner's where a candidate applies. -/
theorem resolves_of_layerOf {request : PolicyRequest} {candidates value : JsValue}
    {d : PolicyDecision} {layer : {l : Option Layer // l = none ↔ d.matchedPolicyId = none}}
    (hdecide : AuthorizationEvaluator.decide request candidates = .ok d)
    (hread : layerOf candidates d.matchedPolicyId = .ok value)
    (htaken : DecisionLogEntry.layerResolvedValue value d = .ok layer) :
    Resolves candidates d layer.1 := by
  obtain ⟨checked, hadmits, hcombines, -⟩ := decide_eq_ok_iff.mp hdecide
  refine ⟨checked, hadmits, hcombines, ?_⟩
  -- a candidate wins, or none applies and the default was taken
  rcases combines_winner hcombines with ⟨c, hwins, hid⟩ | ⟨hid, hnone⟩
  · have hlayer : layer.1 = some c.layer := by
      rw [hid, layerOf_of_mem hadmits hwins.1, Except.ok.injEq] at hread
      have hmatched : d.matchedPolicyId ≠ none := by simp [hid]
      simp only [DecisionLogEntry.layerResolvedValue, dif_neg hmatched, ← hread,
        Layer.ofName?_name, Except.ok.injEq] at htaken
      rw [← htaken]
    constructor
    · intro w hw
      rw [hw.unique hwins, hlayer]
    · rw [hlayer]
      refine iff_of_false (by simp) fun hnone => ?_
      have happlies := hwins.2.1
      rw [hnone c hwins.1] at happlies
      cases happlies
  · have hlayer : layer.1 = none := layer.2.mpr hid
    constructor
    · intro w hw
      have happlies := hw.2.1
      rw [hnone w hw.1] at happlies
      cases happlies
    · exact iff_of_true hlayer hnone

/-! ## The calls of a logged decision -/

/-- The value `chainHead` is to answer for the hash an entry follows on. -/
def headValue : Option JsString → JsValue
  | none => .null
  | some hash => .string hash

theorem headValue_of_prevHashValue {value : JsValue}
    {hash : {s : Option JsString // ∀ h ∈ s, isHex64 h = true}}
    (h : DecisionLogEntry.prevHashValue value = .ok hash) : value = headValue hash.1 := by
  unfold DecisionLogEntry.prevHashValue at h
  split at h
  · obtain rfl := Except.ok.inj h
    rfl
  · split_ifs at h
    obtain rfl := Except.ok.inj h
    rfl
  · cases h

/-- What an entry holds of the values it is built from. -/
theorem parts_of_ofRaw {id value ts prevHash : JsValue} {request : PolicyRequest}
    {d : PolicyDecision} {e : DecisionLogEntry}
    (h : DecisionLogEntry.ofRaw id request d value ts prevHash = .ok e) :
    prevHash = headValue e.prevHash ∧ ∃ layer, DecisionLogEntry.layerResolvedValue value d =
      .ok layer ∧ layer.1 = e.layerResolved := by
  simp only [DecisionLogEntry.ofRaw, bind_eq_ok] at h
  obtain ⟨id', -, h⟩ := h
  split_ifs at h
  simp only [bind_eq_ok] at h
  obtain ⟨layer, hlayer, ts', -, hash, hhash, h⟩ := h
  obtain rfl := Except.ok.inj h
  exact ⟨headValue_of_prevHashValue hhash, layer, hlayer, rfl⟩

/-- The calls of a decision that is fulfilled: the candidates, the chain head of the tenant, an id
and an instant are asked for once each, and then one append is awaited, of an entry that carries
them. -/
def LoggedBy (request : PolicyRequest) (d : PolicyDecision) (history : History kernel) : Prop :=
  ∃ (candidates id reading : JsValue) (e : DecisionLogEntry),
    history = [⟨.candidatesFor request, .ok candidates⟩,
      ⟨.chainHead request.tenantId, .ok (headValue e.prevHash)⟩, ⟨.idGenerator, .ok id⟩,
      ⟨.now, .ok reading⟩, ⟨.append e, .ok ()⟩] ∧
    e.request = request ∧ e.decision = d ∧ Resolves candidates d e.layerResolved

/-- The appends awaited, fulfilled or not. -/
def attempts (history : History kernel) : History kernel :=
  history.filter fun ev =>
    match ev.1 with
    | .append _ => true
    | _ => false

/-- A call that is no append. -/
theorem safe_ask_of_attempts {past : History kernel} {c : Call} (h : attempts past = [])
    (hc : ∀ r, attempts [⟨c, r⟩] = []) :
    Safe (fun _ _ => True) (fun past _ => attempts past = []) past
      (Program.ask (I := kernel) c) := by
  refine Safe.ask trivial fun r => ?_
  rw [attempts, List.filter_append]
  exact List.append_eq_nil_iff.mpr ⟨h, hc r⟩

/-- One decision awaits at most one append. -/
theorem safe_logOne_attempts (request : PolicyRequest) :
    Safe (fun _ _ => True)
      (fun past (_ : Except Thrown (PolicyDecision × DecisionLogEntry)) =>
        (attempts past).length ≤ 1) [] (logOne request (readChainHead request)) := by
  have hrejected {past : History kernel} (h : attempts past = []) :
      (attempts past).length ≤ 1 := by simp [h]
  simp only [logOne, readChainHead, clockNow, bind_assoc]
  -- nothing is appended before the last call
  refine Safe.bind (safe_ask_of_attempts rfl fun _ => rfl) ?_ fun _ _ h => hrejected h
  intro past₁ candidates h₁
  refine Safe.syncBind (fun d _ => ?_) fun _ _ => hrejected h₁
  refine Safe.syncBind (fun layer _ => ?_) fun _ _ => hrejected h₁
  refine Safe.bind (safe_ask_of_attempts h₁ fun _ => rfl) ?_ fun _ _ h => hrejected h
  intro past₂ head h₂
  refine Safe.bind (safe_ask_of_attempts h₂ fun _ => rfl) ?_ fun _ _ h => hrejected h
  intro past₃ id h₃
  refine Safe.bind (safe_ask_of_attempts h₃ fun _ => rfl) ?_ fun _ _ h => hrejected h
  intro past₄ reading h₄
  refine Safe.syncBind (fun ts _ => ?_) fun _ _ => hrejected h₄
  refine Safe.syncBind (fun e _ => ?_) fun _ _ => hrejected h₄
  have happend : Safe (fun _ _ => True)
      (fun past (_ : Except Thrown Unit) => (attempts past).length ≤ 1) past₄
      (Program.ask (I := kernel) (.append e)) := by
    refine ⟨trivial, fun r => ?_⟩
    change (attempts (past₄ ++ [⟨.append e, r⟩])).length ≤ 1
    rw [attempts, List.filter_append, List.length_append]
    change (attempts past₄).length + 1 ≤ 1
    rw [h₄, List.length_nil]
  refine Safe.bind happend ?_ fun _ _ h => h
  intro past₅ _ h₅
  exact h₅

section Run

variable {σ : Type}

/-- A fulfilled decision has made its calls in one order. -/
theorem loggedBy_of_run {request : PolicyRequest} {outside : Outside kernel σ} {s : σ}
    {x : PolicyDecision × DecisionLogEntry}
    (h : (run outside (logOne request (readChainHead request)) s).outcome = .ok x) :
    LoggedBy request x.1 (run outside (logOne request (readChainHead request)) s).history := by
  simp only [logOne, readChainHead, clockNow, bind_assoc] at h ⊢
  -- the run is followed call by call: each of them was fulfilled
  obtain ⟨candidates, s₁, h, hcandidates⟩ := run_askBind_eq_ok h
  obtain ⟨d, hd, hrun⟩ := run_syncBind_eq_ok h
  rw [hrun] at h hcandidates
  obtain ⟨value, hvalue, hrun⟩ := run_syncBind_eq_ok h
  rw [hrun] at h hcandidates
  obtain ⟨head, s₂, h, hhead⟩ := run_askBind_eq_ok h
  obtain ⟨id, s₃, h, hid⟩ := run_askBind_eq_ok h
  obtain ⟨reading, s₄, h, hreading⟩ := run_askBind_eq_ok h
  obtain ⟨ts, -, hrun⟩ := run_syncBind_eq_ok h
  rw [hrun] at h hreading
  obtain ⟨e, he, hrun⟩ := run_syncBind_eq_ok h
  rw [hrun] at h hreading
  obtain ⟨⟨⟩, s₅, h, happend⟩ := run_askBind_eq_ok h
  obtain rfl := Except.ok.inj h
  rw [orThrow_eq_ok] at hd hvalue he
  obtain ⟨hrequest, hdecision⟩ := fields_of_ofRaw he
  obtain ⟨rfl, layer, hlayer, hresolved⟩ := parts_of_ofRaw he
  refine ⟨candidates, id, reading, e, ?_, hrequest, hdecision, ?_⟩
  · rw [hcandidates, hhead, hid, hreading, happend]
    rfl
  · rw [← hresolved]
    exact resolves_of_layerOf hd hvalue hlayer

/-- The run of `decide` is the run of its one logged decision. -/
theorem run_decide (request : PolicyRequest) (outside : Outside kernel σ) (s : σ) :
    let one := run outside (logOne request (readChainHead request)) s
    run outside (decide request) s = ⟨one.history, one.outcome.map Prod.fst, one.state⟩ := by
  intro one
  cases hone : one.outcome with
  | error e => exact run_bind_of_error hone _
  | ok x =>
    exact (run_bind_of_ok hone _).trans (congrArg (Run.mk · _ _) (List.append_nil one.history))

/-- A decision that resolves has appended one entry, as its last call, for its request, with its
decision, after the chain head read for its tenant and under the layer of the winner; one of whose
calls is rejected is rejected too, and none awaits two appends. -/
theorem decide_logged (request : PolicyRequest) (outside : Outside kernel σ) (s : σ) :
    let r := run outside (decide request) s
    (∀ d, r.outcome = .ok d → LoggedBy request d r.history) ∧
      ((∃ ev ∈ r.history, ev.2.isOk = false) → r.outcome.isOk = false) ∧
      (attempts r.history).length ≤ 1 := by
  intro r
  have hlogged : ∀ d, r.outcome = .ok d → LoggedBy request d r.history := by
    intro d hd
    simp only [r, run_decide] at hd ⊢
    cases hone : (run outside (logOne request (readChainHead request)) s).outcome with
    | error e =>
      rw [hone] at hd
      cases hd
    | ok x =>
      rw [hone] at hd
      obtain rfl := Except.ok.inj hd
      exact loggedBy_of_run hone
  refine ⟨hlogged, ?_, ?_⟩
  · rintro ⟨ev, hev, hrejected⟩
    -- all five calls of a fulfilled decision are fulfilled
    by_contra hok
    rw [Bool.not_eq_false] at hok
    obtain ⟨d, hd⟩ : ∃ d, r.outcome = .ok d := by
      cases hr : r.outcome with
      | ok d => exact ⟨d, rfl⟩
      | error e => simp [hr, Except.isOk, Except.toBool] at hok
    obtain ⟨candidates, id, reading, e, hhistory, -⟩ := hlogged d hd
    rw [hhistory] at hev
    simp only [List.mem_cons, List.not_mem_nil, or_false] at hev
    rcases hev with rfl | rfl | rfl | rfl | rfl <;> cases hrejected
  · have hsafe := (safe_logOne_attempts request).run outside s
    simp only [r, run_decide]
    exact hsafe

end Run

end MetaframerKernel.DecisionLoggingPolicyDecisionPoint
