import MetaframerKernel.Tools.TokenGuardSight

/-!
# What passes the promotion gate

A request may carry any keys and values. Where the decision is `PASS`, nothing in it says that git
is about to be changed, or the action is a promotion by name and every gate is green.

## Main definitions

* `Quiet`: a request that says nothing of a change of git;
* `Promoted`: a promotion by name, with its gates green.

## Main results

* `pass_gated`: what a decision to pass means for the request.
-/

namespace MetaframerKernel.TokenGuard

open Js

/-! ## Findings of the gate -/

/-- The findings of an evaluator are among those of the decision. -/
theorem mem_findings_of_mem {facts : Facts} {v : Verdict} (hv : decide facts = .ok v)
    {evaluate : Facts → Except NativeError (List Finding)} (hmem : evaluate ∈ evaluators) :
    ∃ fs, evaluate facts = .ok fs ∧ v = verdictOf v.findings ∧ ∀ f ∈ fs, f ∈ v.findings := by
  obtain ⟨r, hr, hv⟩ := bind_eq_ok.mp hv
  obtain rfl := Except.ok.inj hv
  obtain ⟨fs, hfs, heq⟩ := exists_of_forall₂_left (mapM_eq_ok.mp hr) hmem
  exact ⟨fs, heq, rfl, fun f hf => List.mem_flatten.mpr ⟨fs, hfs, hf⟩⟩

/-- A decision to pass leaves the gate without a finding that stops. -/
theorem promotionGate_of_pass {facts : Facts} {v : Verdict} (hv : decide facts = .ok v)
    (hpass : v.decision = .pass) :
    ∃ fs, evaluatePromotionGate facts = .ok fs ∧ ∀ f ∈ fs, ¬f.Stops := by
  have hgate : evaluatePromotionGate ∈ evaluators := by simp [evaluators]
  obtain ⟨fs, hfs, hverdict, hmem⟩ := mem_findings_of_mem hv hgate
  rw [hverdict] at hpass
  exact ⟨fs, hfs, fun f hf hstops =>
    decisionOf_eq_pass_iff.mp hpass ⟨f, hmem f hf, hstops⟩⟩

/-! ## Requests -/

section Request

variable {m : List (JsString × Json)}

/-- The value of a key is among the entries of an object. -/
theorem mem_entries_of_lookup {k : JsString} {v : Json} (h : m.lookup k = some v) :
    (k, v) ∈ Json.entries (.obj m) :=
  (ownOrder_perm m).mem_iff.mpr (mem_of_lookup_eq_some h)

/-- A field that no list knows as harmless, or that names a change of git. -/
def IsSignal (k : JsString) : Prop := k ∉ knownNonMutatingFields ∨ k ∈ mutationSignals

/-- A value that is no boolean, and that a condition takes for `true`. -/
def TruthyNonBoolean (v : Json) : Prop := Json.isTruthy (some v) = true ∧ ∀ b, v ≠ .bool b

/-- A signal with a value that is no boolean is malformed. -/
theorem isMalformedSignal_of_truthy {k : JsString} {v : Json} (hk : IsSignal k)
    (hv : TruthyNonBoolean v) : isMalformedSignal (k, v) = true := by
  obtain ⟨htruthy, hboolean⟩ := hv
  cases v with
  | null => cases htruthy
  | bool b => exact absurd rfl (hboolean b)
  | _ =>
    simp only [isMalformedSignal, Bool.or_eq_true, Bool.and_eq_true, Bool.not_eq_true',
      List.contains_eq_mem, decide_eq_true_eq, decide_eq_false_iff_not]
    exact hk.elim (fun hk => .inr ⟨hk, htruthy⟩) .inl

/-- A request that says nothing of a change of git: its action is absent or known to change
nothing, no field that is not known is `true`, and there is no report on gates. -/
structure Quiet (m : List (JsString × Json)) (gates : Option Json) : Prop where
  action : m.lookup (lit "action") = none ∨ m.lookup (lit "action") = some .null ∨
    ∃ action, m.lookup (lit "action") = some (.str action) ∧
      toLowerCase (trim action) ∈ nonGitMutatingActions
  fields : ∀ k, k ∉ knownNonMutatingFields → m.lookup k ≠ some (.bool true)
  report : ∀ g, gates = some g → (∃ l, g = .arr l) ∨ (∃ o, g = .obj o) → g.entries = []

/-- A promotion by name, with each of the required gates reported green. -/
structure Promoted (m : List (JsString × Json)) (gates : Option Json) : Prop where
  action : ∃ action, m.lookup (lit "action") = some (.str action) ∧
    toLowerCase (trim action) ∈ promotionActions
  green : ∃ g, gates = some (.obj g) ∧ ∀ key ∈ requiredGates, g.lookup key = some (.bool true)

/-- The gate of a request that is an object. -/
theorem evaluatePromotionGate_eq {facts : Facts} (h : facts.request = .obj m) :
    evaluatePromotionGate facts = (do
      let gated ← actionFindings (.obj m) (m.lookup (lit "action")) facts.gates
      return (if Json.strictEq (m.lookup (lit "forcePush")) (some (.bool true)) then
          [forcePushFinding] else []) ++
        (malformedMutationSignals (.obj m)).map signalFinding ++ gated) := by
  rw [evaluatePromotionGate, h]
  rfl

/-- Without a finding that stops, the gates are quiet. -/
theorem quiet_of_unnamedFindings {gates : Option Json}
    (h : ∀ f ∈ unnamedFindings (.obj m) (m.lookup (lit "action")) gates, ¬f.Stops) :
    Quiet m gates := by
  unfold unnamedFindings at h
  dsimp only at h
  split at h
  · exact absurd (.inr rfl) (h _ List.mem_cons_self)
  · next hnone =>
    simp only [Bool.or_eq_true, not_or, Bool.not_eq_true] at hnone
    obtain ⟨⟨hintent, hreport⟩, hsafe⟩ := hnone
    refine ⟨?_, fun k hk hlookup => ?_, ?_⟩
    · cases haction : m.lookup (lit "action") with
      | none => exact .inl rfl
      | some v =>
        rw [haction] at hsafe
        cases v with
        | null => exact .inr (.inl rfl)
        | str action =>
          refine .inr (.inr ⟨action, rfl, ?_⟩)
          simpa [actionIsKnownSafe, normalizedAction] using hsafe
        | _ => simp [actionIsKnownSafe, normalizedAction] at hsafe
    · have hentry := mem_entries_of_lookup hlookup
      rw [carriesMutationIntent, List.any_eq_false] at hintent
      exact hintent _ hentry (by simp [Json.strictEq, hk])
    · rintro g rfl (⟨l, rfl⟩ | ⟨o, rfl⟩)
      · simpa [isReport] using hreport
      · simpa [isReport] using hreport

/-- A gate that is reported green gives no finding, and only such a gate. -/
theorem green_of_gateFinding {gates : Json} {key : JsString} {fs : List Finding}
    (h : gateFinding gates key = .ok fs) (hfs : ∀ f ∈ fs, ¬f.Stops) :
    ∃ g, gates = .obj g ∧ g.lookup key = some (.bool true) := by
  obtain ⟨v, hv, h⟩ := bind_eq_ok.mp h
  cases v with
  | none =>
    obtain rfl := Except.ok.inj h
    exact absurd (.inr rfl) (hfs _ List.mem_cons_self)
  | some v =>
    dsimp only at h
    split at h
    · next htrue =>
      obtain rfl := Option.some.inj (Json.strictEq_true.mp htrue)
      cases gates with
      | obj g => exact ⟨g, rfl, Except.ok.inj hv⟩
      | _ => cases hv
    · obtain rfl := Except.ok.inj h
      exact absurd (.inl rfl) (hfs _ List.mem_cons_self)

/-- Without a finding that stops, all the required gates are green. -/
theorem green_of_gateFindings {gates : Option Json} {fs : List Finding}
    (h : gateFindings gates = .ok fs) (hfs : ∀ f ∈ fs, ¬f.Stops) :
    ∃ g, gates = some (.obj g) ∧ ∀ key ∈ requiredGates, g.lookup key = some (.bool true) := by
  unfold gateFindings at h
  split at h
  · obtain ⟨r, hr, h⟩ := bind_eq_ok.mp h
    obtain rfl := Except.ok.inj h
    have hgreen : ∀ key ∈ requiredGates,
        ∃ g, gates.getD .null = .obj g ∧ g.lookup key = some (.bool true) := by
      intro key hkey
      obtain ⟨gs, hgs, hfinding⟩ := exists_of_forall₂_left (mapM_eq_ok.mp hr) hkey
      exact green_of_gateFinding hfinding fun f hf => hfs f (List.mem_flatten.mpr ⟨gs, hgs, hf⟩)
    obtain ⟨g, hg, -⟩ := hgreen (lit "correctWorktree") (by simp [requiredGates])
    have hgates : gates = some (.obj g) := by
      cases gates with
      | none => cases hg
      | some v => exact congrArg some hg
    refine ⟨g, hgates, fun key hkey => ?_⟩
    obtain ⟨g', hg', hlookup⟩ := hgreen key hkey
    obtain rfl := Json.obj.inj (hg.symm.trans hg')
    exact hlookup
  · obtain rfl := Except.ok.inj h
    exact absurd (.inr rfl) (hfs _ List.mem_cons_self)

end Request

/-! ## What passes -/

/-- For a request with any keys and values that is decided to pass: there is no force push, and no
field that is not known, or that names a change of git, holds a value that is no boolean and stands
for `true`; and either the action is a promotion by name with every gate green, or the request says
nothing of a change of git. -/
theorem pass_gated {facts : Facts} {m : List (JsString × Json)}
    (hrequested : facts.requested = some (.obj m)) {v : Verdict} (hv : decide facts = .ok v)
    (hpass : v.decision = .pass) :
    m.lookup (lit "forcePush") ≠ some (.bool true) ∧
    (∀ k w, IsSignal k → m.lookup k = some w → ¬TruthyNonBoolean w) ∧
    (Promoted m facts.gates ∨ Quiet m facts.gates) := by
  obtain ⟨fs, hfs, hstops⟩ := promotionGate_of_pass hv hpass
  have hrequest : facts.request = .obj m := by
    rw [Facts.request, hrequested]
    rfl
  rw [evaluatePromotionGate_eq hrequest] at hfs
  obtain ⟨gated, hgated, hfs⟩ := bind_eq_ok.mp hfs
  obtain rfl := Except.ok.inj hfs
  simp only [List.mem_append, or_imp, forall_and] at hstops
  obtain ⟨⟨hforced, hsignals⟩, hgates⟩ := hstops
  -- a request that passes has no finding that stops it, of any of the three kinds
  refine ⟨fun hforce => ?_, fun k w hk hw htruthy => ?_, ?_⟩
  · rw [hforce, if_pos (Json.strictEq_true.mpr rfl)] at hforced
    exact hforced _ List.mem_cons_self (.inl rfl)
  · refine hsignals _ (List.mem_map_of_mem (List.mem_filter.mpr
      ⟨mem_entries_of_lookup hw, isMalformedSignal_of_truthy hk htruthy⟩)) (.inr rfl)
  · unfold actionFindings at hgated
    split at hgated
    · next hnamed =>
      refine .inl ⟨?_, green_of_gateFindings hgated hgates⟩
      cases haction : m.lookup (lit "action") with
      | none => simp [haction, normalizedAction] at hnamed
      | some w =>
        cases w with
        | str action =>
          refine ⟨action, rfl, ?_⟩
          simpa [haction, normalizedAction] using hnamed
        | _ => simp [haction, normalizedAction] at hnamed
    · obtain rfl := Except.ok.inj hgated
      exact .inr (quiet_of_unnamedFindings hgates)

/-- A request to push with every gate green, for examples. -/
def samplePush : List (JsString × Json) := [(lit "action", .str (lit " Push"))]

/-- Every gate green, for examples. -/
def greenGates : List (JsString × Json) := requiredGates.map fun key => (key, .bool true)

/-- The facts of that request. -/
def pushFacts : Facts :=
  ⟨some (.obj samplePush), none, none, none, none, none, none, none, some (.obj greenGates), none⟩

/-- A push by name passes with its gates green. -/
theorem pass_gated_push :
    Promoted samplePush (some (.obj greenGates)) ∨ Quiet samplePush (some (.obj greenGates)) :=
  have hrequested : pushFacts.requested = some (.obj samplePush) := rfl
  (pass_gated hrequested rfl (by decide)).2.2

end MetaframerKernel.TokenGuard
