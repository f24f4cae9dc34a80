import MetaframerKernel.Application.PolicyStatement
import MetaframerKernel.Application.AuthorizationEvaluator

/-!
# The policy candidate resolver

`PolicyCandidateResolver` turns a set of genuine statements into the candidate array the evaluator
combines. What a statement says that the resolver cannot interpret makes its candidate not apply,
whatever the statement's effect.

## Main definitions

* `candidateFor`, `candidatesFor`: the resolver;
* `decideFrom`: the resolver followed by the evaluator;
* `DoesNotApply`, `Uninterpreted`: statements the resolver answers `applies = false` for.

## Main results

* `decideFrom_eq_ok_iff`: the composition returns exactly when the statement ids are distinct;
* `decideFrom_inapplicable_iff`: then, and only then, is a statement that does not apply without
  influence;
* `decideFrom_uninterpreted_iff`: what is not understood turns a deny into an allow exactly when
  it hides the only deny that applies.
-/

namespace MetaframerKernel.PolicyCandidateResolver

open Js AuthorizationEvaluator

/-! ## The resolver -/

/-- `value === s` on a property read from canonical data. -/
def isString (s : JsString) : Json → Bool
  | .str t => t == s
  | _ => false

/-- `targetActorMatches` -/
def targetActorMatches (targetActor : CanonicalObject) (request : PolicyRequest) : Bool :=
  (targetActor.members.all fun p => p.1 == lit "tenantId" || p.1 == lit "actorId") &&
    ((targetActor.members.lookup (lit "tenantId")).all (isString request.tenantId.value)) &&
    (targetActor.members.lookup (lit "actorId")).all (isString request.actorId.value)

/-- `conditionMatches` -/
def conditionMatches (condition : CanonicalObject) : Bool := condition.members.isEmpty

/-- `applies` of the candidate of a statement. -/
def applies (statement : PolicyStatement) (request : PolicyRequest) : Bool :=
  statement.enabled && statement.targetAction == request.action.name &&
    (request.resource.members.lookup (lit "type")).any (isString statement.targetResourceType) &&
    targetActorMatches statement.targetActor request && conditionMatches statement.condition

/-- `candidateFor` -/
def candidateFor (statement : PolicyStatement) (request : PolicyRequest) : JsValue :=
  .object .objectPrototype
    [((.string (lit "policyId"), .data), .string statement.id),
      ((.string (lit "effect"), .data), .string statement.effect.name),
      ((.string (lit "applies"), .data), .boolean (applies statement request)),
      ((.string (lit "priority"), .data), .number statement.priority),
      ((.string (lit "layer"), .data), .string statement.layer.name)]

/-- `candidatesFor` of a resolver over the statements. -/
def candidatesFor (statements : List PolicyStatement) (request : PolicyRequest) : JsValue :=
  .array .arrayPrototype (statements.map fun s => (some .data, candidateFor s request)) 0

/-- The decision of the evaluator on what the resolver answers. -/
def decideFrom (statements : List PolicyStatement) (request : PolicyRequest) :
    Except NativeError PolicyDecision :=
  decide request (candidatesFor statements request)

/-- A tenant-layer statement about the sample request, for examples. -/
def sampleStatement (id : String) (effect : Effect) (enabled : Bool)
    (idOk : 1 ≤ (lit id).length ∧ (lit id).length ≤ 128 ∧ isCanonicalIdForm (lit id) = true) :
    PolicyStatement where
  id := lit id
  effect := effect
  targetActor := ⟨[], isHardened_empty⟩
  targetAction := lit "customer.create"
  targetResourceType := lit "customer"
  condition := ⟨[], isHardened_empty⟩
  priority := .ofInt 0
  layer := .tenant
  version := lit "1.0.0"
  enabled := enabled
  idOk := idOk
  targetActionOk := by decide
  targetResourceTypeOk := by decide
  priorityOk := by rw [JsNumber.safeInteger?_ofInt (by norm_num)]; rfl
  versionOk := by decide

/-! ## What is admitted -/

/-- The candidate a statement is checked as. -/
def candidateOf (request : PolicyRequest) (statement : PolicyStatement) : Candidate where
  policyId := statement.id
  effect := statement.effect
  applies := applies statement request
  priority := statement.priority.safeInteger?.get statement.priorityOk
  layer := statement.layer
  policyIdOk := statement.isPolicyId_id

/-- The candidate built of a statement spells the one the rules mean. -/
theorem spells_candidateFor (statement : PolicyStatement) (request : PolicyRequest) :
    Spells (candidateFor statement request) (candidateOf request statement) := by
  refine ⟨_, rfl, rfl, rfl, rfl, Or.inr ⟨by rfl, ⟨statement.priority, rfl, ?_⟩, rfl⟩⟩
  exact (Option.some_get statement.priorityOk).symm

/-- The candidates of statements spell those the rules mean, and no others. -/
theorem forall₂_spells_iff {statements : List PolicyStatement} {request : PolicyRequest}
    {checked : List Candidate} :
    List.Forall₂ Spells (statements.map fun s => candidateFor s request) checked ↔
      checked = statements.map (candidateOf request) := by
  induction statements generalizing checked with
  | nil => simp
  | cons s statements ih =>
    rw [List.map_cons, List.map_cons, List.forall₂_cons_left_iff]
    constructor
    · rintro ⟨c, rest, hc, hrest, rfl⟩
      rw [hc.unique (spells_candidateFor s request), ih.mp hrest]
    · rintro rfl
      exact ⟨_, _, spells_candidateFor s request, ih.mpr rfl, rfl⟩

/-- The array of the resolver is an ordinary one. -/
theorem ordinaryElements?_candidatesFor (statements : List PolicyStatement)
    (request : PolicyRequest) : (candidatesFor statements request).ordinaryElements? =
      some (statements.map fun s => candidateFor s request) := by
  rw [candidatesFor, JsValue.ordinaryElements?, List.mapM_map]
  induction statements with
  | nil => rfl
  | cons s statements ih => simp_all [Descriptor.data, Descriptor.isEnumerableData]

/-- The array of the resolver is admitted as the candidates of the statements. -/
theorem admits_candidatesFor {statements : List PolicyStatement} {request : PolicyRequest}
    {checked : List Candidate} :
    Admits (candidatesFor statements request) checked ↔
      checked = statements.map (candidateOf request) ∧
        (statements.map PolicyStatement.id).Nodup := by
  have hids : (statements.map (candidateOf request)).map Candidate.policyId =
      statements.map PolicyStatement.id := by
    rw [List.map_map]
    rfl
  simp only [Admits, ordinaryElements?_candidatesFor, Option.some.injEq, exists_eq_left',
    forall₂_spells_iff]
  constructor
  · rintro ⟨rfl, hnodup⟩
    exact ⟨rfl, hids ▸ hnodup⟩
  · rintro ⟨rfl, hnodup⟩
    exact ⟨rfl, hids.symm ▸ hnodup⟩

/-- The composition returns when the ids are distinct, and then the combination of the statements'
candidates. -/
theorem decideFrom_eq_ok_iff {statements : List PolicyStatement} {request : PolicyRequest}
    {d : PolicyDecision} :
    decideFrom statements request = .ok d ↔ (statements.map PolicyStatement.id).Nodup ∧
      Decides request (statements.map (candidateOf request)) d := by
  rw [decideFrom, decide_eq_ok_iff]
  constructor
  · rintro ⟨checked, hadmits, hdecides⟩
    obtain ⟨rfl, hnodup⟩ := admits_candidatesFor.mp hadmits
    exact ⟨hnodup, hdecides⟩
  · rintro ⟨hnodup, hdecides⟩
    exact ⟨_, admits_candidatesFor.mpr ⟨rfl, hnodup⟩, hdecides⟩

/-- The composition throws only for a repeated id. -/
theorem exists_decideFrom_eq_ok_iff {statements : List PolicyStatement}
    {request : PolicyRequest} :
    (∃ d, decideFrom statements request = .ok d) ↔
      (statements.map PolicyStatement.id).Nodup := by
  constructor
  · rintro ⟨d, hd⟩
    exact (decideFrom_eq_ok_iff.mp hd).1
  · intro hnodup
    have hids : ((statements.map (candidateOf request)).map Candidate.policyId).Nodup := by
      rwa [List.map_map]
    obtain ⟨d, -, hdecides⟩ := combine_eq_ok request hids
    exact ⟨d, decideFrom_eq_ok_iff.mpr ⟨hnodup, hdecides⟩⟩

/-! ## Statements that do not apply -/

/-- The statement is disabled, or is about another action or resource type, or names another
tenant or actor. -/
def DoesNotApply (statement : PolicyStatement) (request : PolicyRequest) : Prop :=
  statement.enabled = false ∨ statement.targetAction ≠ request.action.name ∨
    request.resource.members.lookup (lit "type") ≠ some (.str statement.targetResourceType) ∨
    (∃ v, statement.targetActor.members.lookup (lit "tenantId") = some v ∧
      v ≠ .str request.tenantId.value) ∨
    ∃ v, statement.targetActor.members.lookup (lit "actorId") = some v ∧
      v ≠ .str request.actorId.value

/-- A value is that string. -/
theorem isString_iff {s : JsString} {v : Json} : isString s v = true ↔ v = .str s := by
  cases v <;> simp [isString]

/-- A statement that does not apply is found not to. -/
theorem DoesNotApply.applies_eq_false {statement : PolicyStatement} {request : PolicyRequest}
    (h : DoesNotApply statement request) : applies statement request = false := by
  rw [← Bool.not_eq_true]
  intro happlies
  simp only [applies, targetActorMatches, Bool.and_eq_true, beq_iff_eq, Option.any_eq_true,
    Option.all_eq_true, isString_iff] at happlies
  obtain ⟨⟨⟨⟨henabled, haction⟩, v, htype, rfl⟩, ⟨-, htenant⟩, hactor⟩, -⟩ := happlies
  rcases h with h | h | h | ⟨w, hw, hne⟩ | ⟨w, hw, hne⟩
  · rw [h] at henabled
    cases henabled
  · exact h haction
  · exact h htype
  · exact hne (htenant w hw)
  · exact hne (hactor w hw)

/-- A statement whose candidate does not apply leaves the combination as it is. -/
theorem decides_insert_iff {before after : List PolicyStatement} {s : PolicyStatement}
    {request : PolicyRequest} (hs : applies s request = false) {d : PolicyDecision} :
    Decides request ((before ++ s :: after).map (candidateOf request)) d ↔
      Decides request ((before ++ after).map (candidateOf request)) d := by
  have hmem (c : Candidate) (hc : c.applies = true) :
      c ∈ (before ++ s :: after).map (candidateOf request) ↔
        c ∈ (before ++ after).map (candidateOf request) := by
    have hne : c ≠ candidateOf request s := by
      rintro rfl
      rw [candidateOf, hs] at hc
      cases hc
    simp [hne]
  constructor
  · rintro ⟨hcombines, hrest⟩
    exact ⟨hcombines.congr fun c hc => (hmem c hc).symm, hrest⟩
  · rintro ⟨hcombines, hrest⟩
    exact ⟨hcombines.congr hmem, hrest⟩

/-- A set of statements is decided exactly when its ids are distinct, and a statement that does
not apply leaves the decision unchanged exactly when its id, too, is that of no other. -/
theorem decideFrom_inapplicable_iff (statements before after : List PolicyStatement)
    (request : PolicyRequest) (s : PolicyStatement) (hs : DoesNotApply s request) :
    ((∃ d, decideFrom statements request = .ok d) ↔
        (statements.map PolicyStatement.id).Nodup) ∧
      ((∃ d, decideFrom (before ++ after) request = .ok d ∧
          decideFrom (before ++ s :: after) request = .ok d) ↔
        ((before ++ s :: after).map PolicyStatement.id).Nodup) := by
  refine ⟨exists_decideFrom_eq_ok_iff, ?_⟩
  constructor
  · rintro ⟨d, -, hd⟩
    exact (decideFrom_eq_ok_iff.mp hd).1
  · intro hnodup
    obtain ⟨d, hd⟩ : ∃ d, decideFrom (before ++ s :: after) request = .ok d :=
      exists_decideFrom_eq_ok_iff.mpr hnodup
    have hsub : (before ++ after).Sublist (before ++ s :: after) :=
      (List.Sublist.refl before).append (List.sublist_cons_self s after)
    refine ⟨d, decideFrom_eq_ok_iff.mpr ⟨hnodup.sublist (hsub.map _), ?_⟩, hd⟩
    exact (decides_insert_iff hs.applies_eq_false).mp (decideFrom_eq_ok_iff.mp hd).2

/-- A disabled statement under the id of another makes the evaluator throw. -/
theorem decideFrom_isolation_fails :
    ¬ ∀ (before after : List PolicyStatement) (request : PolicyRequest) (s : PolicyStatement),
      DoesNotApply s request → ∃ d, decideFrom (before ++ after) request = .ok d ∧
        decideFrom (before ++ s :: after) request = .ok d := by
  intro h
  obtain ⟨d, -, hd⟩ := h [] [sampleStatement "a" .allow true (by decide)] .sample
    (sampleStatement "a" .allow false (by decide)) (Or.inl rfl)
  have hnodup := (decideFrom_eq_ok_iff.mp hd).1
  exact absurd hnodup (by decide)

/-- A disabled deny beside an allow. -/
theorem decideFrom_inapplicable_iff_disabled :
    ((∃ d, decideFrom [sampleStatement "a" .allow true (by decide)] .sample = .ok d) ↔
        [lit "a"].Nodup) ∧
      ((∃ d, decideFrom ([] ++ [sampleStatement "a" .allow true (by decide)]) .sample = .ok d ∧
          decideFrom ([] ++ sampleStatement "b" .deny false (by decide) ::
            [sampleStatement "a" .allow true (by decide)]) .sample = .ok d) ↔
        [lit "b", lit "a"].Nodup) :=
  decideFrom_inapplicable_iff [sampleStatement "a" .allow true (by decide)] []
    [sampleStatement "a" .allow true (by decide)] .sample
    (sampleStatement "b" .deny false (by decide)) (Or.inl rfl)

/-! ## Statements that are not understood -/

/-- A target actor the resolver has no reading of: a key besides `tenantId` and `actorId`, or a
value that is no string. -/
def OutsideGrammar (targetActor : CanonicalObject) : Prop :=
  ∃ p ∈ targetActor.members, (p.1 ≠ lit "tenantId" ∧ p.1 ≠ lit "actorId") ∨ ∀ s, p.2 ≠ .str s

/-- The second statement is the first with its empty condition, or its target actor, replaced by
one the resolver does not interpret. -/
inductive Uninterpreted (s : PolicyStatement) : PolicyStatement → Prop where
  | condition (c : CanonicalObject) : s.condition.members = [] → c.members ≠ [] →
      Uninterpreted s { s with condition := c }
  | targetActor (a : CanonicalObject) : OutsideGrammar a →
      Uninterpreted s { s with targetActor := a }

/-- A target actor outside the grammar matches no request. -/
theorem OutsideGrammar.targetActorMatches_eq_false {a : CanonicalObject} (h : OutsideGrammar a)
    (request : PolicyRequest) : targetActorMatches a request = false := by
  have hkeys : (a.members.map Prod.fst).Nodup :=
    ((isHardened_obj a.members 1).mp a.hardened).2.1.imp fun h => h.ne
  obtain ⟨p, hp, hbad⟩ := h
  have hlookup : a.members.lookup p.1 = some p.2 := (lookup_eq_some_iff hkeys).mpr hp
  rw [← Bool.not_eq_true]
  intro hmatches
  simp only [targetActorMatches, Bool.and_eq_true, Option.all_eq_true, isString_iff,
    List.all_eq_true, Bool.or_eq_true, beq_iff_eq] at hmatches
  obtain ⟨⟨hall, htenant⟩, hactor⟩ := hmatches
  rcases hbad with ⟨hnotTenant, hnotActor⟩ | hvalue
  · exact (hall p hp).elim hnotTenant hnotActor
  · rcases hall p hp with hkey | hkey
    · exact hvalue _ (htenant p.2 (hkey ▸ hlookup))
    · exact hvalue _ (hactor p.2 (hkey ▸ hlookup))

/-- A statement that cannot be interpreted does not apply. -/
theorem Uninterpreted.applies_eq_false {s s' : PolicyStatement} (h : Uninterpreted s s')
    (request : PolicyRequest) : applies s' request = false := by
  cases h with
  | condition c _ hc =>
    have hmatches : conditionMatches c = false := by simpa [conditionMatches] using hc
    simp [applies, hmatches]
  | targetActor a ha => simp [applies, ha.targetActorMatches_eq_false request]

/-- It keeps its id. -/
theorem Uninterpreted.id_eq {s s' : PolicyStatement} (h : Uninterpreted s s') : s'.id = s.id := by
  cases h <;> rfl

/-- A combination allows exactly when an allow applies and no deny does. -/
theorem effect_eq_allow_iff {statements : List PolicyStatement} {request : PolicyRequest}
    {d : PolicyDecision} (h : decideFrom statements request = .ok d) :
    d.effect = .allow ↔
      (∀ t ∈ statements, applies t request = true → t.effect ≠ .deny) ∧
        ∃ t ∈ statements, applies t request = true ∧ t.effect = .allow := by
  have hcombines := (decideFrom_eq_ok_iff.mp h).2.1
  have hnone (e : Effect) : NoneApplies (statements.map (candidateOf request)) e ↔
      ∀ t ∈ statements, applies t request = true → t.effect ≠ e := List.forall_mem_map
  generalize d.effect = effect at hcombines
  generalize d.matchedPolicyId = id at hcombines
  -- the three ways the candidates combine
  cases hcombines with
  | deny c hc =>
    have hnot := mt (hnone .deny).mpr hc.not_noneApplies
    simp [hnot]
  | allow c hdeny hc =>
    obtain ⟨t, ht, rfl⟩ := List.mem_map.mp hc.1
    exact iff_of_true rfl ⟨(hnone .deny).mp hdeny, t, ht, hc.2.1, hc.2.2.1⟩
  | default hdeny hallow =>
    refine iff_of_false (by decide) fun ⟨_, t, ht, happlies, heffect⟩ => ?_
    exact (hnone .allow).mp hallow t ht happlies heffect

/-- Replacing a part of a statement by something that is not understood turns a deny into an
allow exactly when the statement was the only deny that applied and an allow applies. -/
theorem decideFrom_uninterpreted_iff (before after : List PolicyStatement) (request : PolicyRequest)
    (s s' : PolicyStatement) (hreplaced : Uninterpreted s s')
    (hids : ((before ++ s :: after).map PolicyStatement.id).Nodup) :
    (∃ d d', decideFrom (before ++ s :: after) request = .ok d ∧
        decideFrom (before ++ s' :: after) request = .ok d' ∧
        (d.effect = .deny → d'.effect ≠ .allow)) ↔
      ¬(applies s request = true ∧ s.effect = .deny ∧
        (∀ t ∈ before ++ after, applies t request = true → t.effect ≠ .deny) ∧
        ∃ t ∈ before ++ after, applies t request = true ∧ t.effect = .allow) := by
  have hids' : ((before ++ s' :: after).map PolicyStatement.id).Nodup := by
    rwa [List.map_append, List.map_cons, hreplaced.id_eq, ← List.map_cons, ← List.map_append]
  obtain ⟨d, hd⟩ : ∃ d, decideFrom (before ++ s :: after) request = .ok d :=
    exists_decideFrom_eq_ok_iff.mpr hids
  obtain ⟨d', hd'⟩ : ∃ d, decideFrom (before ++ s' :: after) request = .ok d :=
    exists_decideFrom_eq_ok_iff.mpr hids'
  have hallow := effect_eq_allow_iff hd
  have hallow' := effect_eq_allow_iff hd'
  have hforall (t : PolicyStatement) (P : PolicyStatement → Prop) :
      (∀ u ∈ before ++ t :: after, P u) ↔ P t ∧ ∀ u ∈ before ++ after, P u := by
    simp only [List.mem_append, List.mem_cons]
    grind
  have hexists (t : PolicyStatement) (P : PolicyStatement → Prop) :
      (∃ u ∈ before ++ t :: after, P u) ↔ P t ∨ ∃ u ∈ before ++ after, P u := by
    simp only [List.mem_append, List.mem_cons]
    grind
  rw [hforall, hexists] at hallow hallow'
  -- what is not understood does not apply, so the others decide alone
  simp only [hreplaced.applies_eq_false request, Bool.false_eq_true, false_implies, true_and,
    false_and, false_or] at hallow'
  constructor
  · rintro ⟨e, e', he, he', hkeeps⟩ ⟨happlies, hdeny, hnone, hsome⟩
    obtain rfl := Except.ok.inj (hd.symm.trans he)
    obtain rfl := Except.ok.inj (hd'.symm.trans he')
    have hdeniedBefore : d.effect = .deny := by
      cases heffect : d.effect with
      | deny => rfl
      | allow => exact absurd hdeny ((hallow.mp heffect).1.1 happlies)
    exact hkeeps hdeniedBefore (hallow'.mpr ⟨hnone, hsome⟩)
  · intro hother
    refine ⟨d, d', hd, hd', fun hdenied hallowed => ?_⟩
    obtain ⟨hnone, hsome⟩ := hallow'.mp hallowed
    -- otherwise the statement was not what denied
    have hhidden : ¬(applies s request = true → s.effect ≠ .deny) := fun hs => by
      have heffect := hallow.mpr ⟨⟨hs, hnone⟩, Or.inr hsome⟩
      rw [hdenied] at heffect
      cases heffect
    simp only [Classical.not_imp, not_not] at hhidden
    exact hother ⟨hhidden.1, hhidden.2, hnone, hsome⟩

/-- A deny whose condition is replaced is lost, and the allow beside it decides. -/
theorem decideFrom_fails_open :
    ¬ ∀ (before after : List PolicyStatement) (request : PolicyRequest) (s s' : PolicyStatement),
      Uninterpreted s s' → ((before ++ s :: after).map PolicyStatement.id).Nodup →
        ∀ d d', decideFrom (before ++ s :: after) request = .ok d →
          decideFrom (before ++ s' :: after) request = .ok d' →
            d.effect = .deny → d'.effect ≠ .allow := by
  intro h
  let allow := sampleStatement "a" .allow true (by decide)
  let deny := sampleStatement "d" .deny true (by decide)
  let region : CanonicalObject := ⟨[(lit "region", .str (lit "eu"))], by decide⟩
  obtain ⟨d, hd⟩ : ∃ d, decideFrom [deny, allow] .sample = .ok d :=
    exists_decideFrom_eq_ok_iff.mpr (by decide)
  obtain ⟨d', hd'⟩ : ∃ d, decideFrom [{ deny with condition := region }, allow] .sample = .ok d :=
    exists_decideFrom_eq_ok_iff.mpr (by decide)
  -- with the statement that denies the request is denied, and without it the other one allows it
  have hdenied : d.effect = .deny := by
    cases heffect : d.effect with
    | deny => rfl
    | allow =>
      exact absurd rfl (((effect_eq_allow_iff hd).mp heffect).1 deny (by simp) (by decide))
  have hallowed : d'.effect = .allow := by
    refine (effect_eq_allow_iff hd').mpr ⟨?_, allow, by simp, by decide, rfl⟩
    simp only [List.mem_cons, List.not_mem_nil, or_false, forall_eq_or_imp, forall_eq]
    exact ⟨fun happlies => absurd happlies (by decide), fun _ => by decide⟩
  exact h [] [allow] .sample deny _ (.condition region rfl (by simp [region])) (by decide) d d' hd
    hd' hdenied hallowed

/-- A disabled deny loses nothing with its condition. -/
theorem decideFrom_uninterpreted_iff_disabled :
    (∃ d d', decideFrom ([] ++ sampleStatement "d" .deny false (by decide) ::
          [sampleStatement "a" .allow true (by decide)]) .sample = .ok d ∧
        decideFrom ([] ++ { sampleStatement "d" .deny false (by decide) with
            condition := ⟨[(lit "region", .str (lit "eu"))], by decide⟩ } ::
          [sampleStatement "a" .allow true (by decide)]) .sample = .ok d' ∧
        (d.effect = .deny → d'.effect ≠ .allow)) ↔
      ¬(applies (sampleStatement "d" .deny false (by decide)) .sample = true ∧
        (sampleStatement "d" .deny false (by decide)).effect = .deny ∧
        (∀ t ∈ [] ++ [sampleStatement "a" .allow true (by decide)],
          applies t .sample = true → t.effect ≠ .deny) ∧
        ∃ t ∈ [] ++ [sampleStatement "a" .allow true (by decide)],
          applies t .sample = true ∧ t.effect = .allow) :=
  decideFrom_uninterpreted_iff [] [sampleStatement "a" .allow true (by decide)] .sample
    (sampleStatement "d" .deny false (by decide)) _
    (.condition ⟨[(lit "region", .str (lit "eu"))], by decide⟩ rfl (by simp)) (by decide)

end MetaframerKernel.PolicyCandidateResolver
