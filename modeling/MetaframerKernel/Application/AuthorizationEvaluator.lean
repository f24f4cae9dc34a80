import MetaframerKernel.Application.PolicyDecision
import Mathlib.Data.List.MinMax
import Mathlib.Data.Prod.Lex

/-!
# The authorization evaluator

`AuthorizationEvaluator.decide` combines candidate outcomes by a fixed deny-overrides rule. The
winner of the applicable denies, or failing those of the applicable allows, is found by one fold
with three tie-breakers; it is the maximum of the candidates under the linear order `precedence`
compares them by, which no reordering of the array can change.

## Main definitions

* `checkCandidates`: admission of the candidate array, of both candidate shapes;
* `winningPolicyId`, `decide`: the combination;
* `Wins`, `Combines`: what the combination is meant to be.

## Main results

* `winner_eq_argmax`: the fold finds the candidate of greatest precedence;
* `checkCandidates_eq_ok_iff`: an array is admitted when each entry is and the ids differ;
* `decide_eq_ok_iff`: the decision is the combination of the admitted candidates;
* `decide_reference`: order and shape of the candidates do not matter.
-/

namespace MetaframerKernel.AuthorizationEvaluator

open Js

/-! ## Admission -/

/-- A checked candidate. -/
structure Candidate where
  policyId : JsString
  effect : Effect
  applies : Bool
  priority : ℤ
  layer : Layer
  policyIdOk : isPolicyId policyId = true
deriving DecidableEq

/-- `LEGACY_CANDIDATE_KEYS` -/
def legacyCandidateKeys : List JsString := [lit "policyId", lit "effect", lit "applies"]

/-- `V2_CANDIDATE_KEYS` -/
def v2CandidateKeys : List JsString :=
  [lit "policyId", lit "effect", lit "applies", lit "priority", lit "layer"]

/-- `hasExactEnumerableDataKeys` -/
def hasExactEnumerableDataKeys (props : List ((PropertyKey × Descriptor) × JsValue))
    (expected : List JsString) : Bool :=
  props.length == expected.length &&
    (expected.all fun k => (JsValue.property? props k).any fun d => d.1.isEnumerableData) &&
    props.all fun p => expected.any fun k => p.1.1 == .string k

/-- The refusal of a candidate of neither shape. -/
def shapeRefusal : NativeError :=
  .typeError (lit ("an authorization candidate takes exactly these keys: policyId, effect, " ++
    "applies or these keys: policyId, effect, applies, priority, layer"))

/-- The identifier of a candidate. -/
def checkPolicyId (value : JsValue) : Except NativeError {s : JsString // isPolicyId s = true} :=
  match value with
  | .string s =>
      if h : isPolicyId s = true then .ok ⟨s, h⟩
      else .error (.typeError (lit ("an authorization candidate policyId needs a lowercase " ++
        "canonical id of letters, digits, dot or hyphen")))
  | _ => .error (.typeError (lit ("an authorization candidate policyId needs a lowercase " ++
      "canonical id of letters, digits, dot or hyphen")))

/-- The effect of a candidate. -/
def checkEffect (value : JsValue) : Except NativeError Effect :=
  match value with
  | .string s =>
      match Effect.ofName? s with
      | some e => .ok e
      | none => .error (.typeError
          (lit "an authorization candidate effect needs exactly \"allow\" or \"deny\""))
  | _ => .error (.typeError
      (lit "an authorization candidate effect needs exactly \"allow\" or \"deny\""))

/-- Whether a candidate applies. -/
def checkApplies (value : JsValue) : Except NativeError Bool :=
  match value with
  | .boolean b => .ok b
  | _ => .error (.typeError (lit "an authorization candidate applies needs a primitive boolean"))

/-- The priority of a v2 candidate. -/
def checkPriority (value : JsValue) : Except NativeError ℤ :=
  match value with
  | .number n =>
      match n.safeInteger? with
      | some z => .ok z
      | none =>
          .error (.typeError (lit "a v2 authorization candidate priority needs a safe integer"))
  | _ => .error (.typeError (lit "a v2 authorization candidate priority needs a safe integer"))

/-- The layer of a v2 candidate. -/
def checkLayer (value : JsValue) : Except NativeError Layer :=
  match value with
  | .string s =>
      match Layer.ofName? s with
      | some l => .ok l
      | none => .error (.typeError (lit ("a v2 authorization candidate layer needs exactly " ++
          "\"system\", \"platform\" or \"tenant\"")))
  | _ => .error (.typeError (lit ("a v2 authorization candidate layer needs exactly " ++
      "\"system\", \"platform\" or \"tenant\"")))

/-- `checkCandidate`: a legacy candidate has priority 0 and layer tenant. -/
def checkCandidate (candidate : JsValue) : Except NativeError Candidate :=
  match candidate with
  | .object .objectPrototype props => do
      let isLegacyShape := hasExactEnumerableDataKeys props legacyCandidateKeys
      let isV2Shape := hasExactEnumerableDataKeys props v2CandidateKeys
      throwIf (!isLegacyShape && !isV2Shape) shapeRefusal
      let policyId ← checkPolicyId (JsValue.get props (lit "policyId"))
      let effect ← checkEffect (JsValue.get props (lit "effect"))
      let applies ← checkApplies (JsValue.get props (lit "applies"))
      -- a candidate of three keys has the defaults of the other two
      if isLegacyShape then return ⟨policyId.1, effect, applies, 0, .tenant, policyId.2⟩
      else
        let priority ← checkPriority (JsValue.get props (lit "priority"))
        let layer ← checkLayer (JsValue.get props (lit "layer"))
        return ⟨policyId.1, effect, applies, priority, layer, policyId.2⟩
  | _ => .error shapeRefusal

/-- The loop of `checkCandidates` over the remaining entries, `seen` being the ids met so far. -/
def checkEntries (seen : List JsString) : List JsValue → Except NativeError (List Candidate)
  | [] => .ok []
  | entry :: entries => do
      let candidate ← checkCandidate entry
      throwIf (candidate.policyId ∈ seen) (.typeError
        (lit "authorization candidate policyId " ++ candidate.policyId ++ lit " is duplicated"))
      let checked ← checkEntries (candidate.policyId :: seen) entries
      return candidate :: checked

/-- `checkCandidates` -/
def checkCandidates (candidates : JsValue) : Except NativeError (List Candidate) :=
  match candidates.ordinaryElements? with
  | some entries => checkEntries [] entries
  | none => .error (.typeError
      (lit "authorization candidates needs an ordinary array carrying only its elements"))

/-! ## Combination -/

/-- `REASON` -/
def combinedReason : JsString :=
  lit "authorization decision combined from the given candidate outcomes"

/-- `LAYER_RANK` -/
def layerRank : Layer → ℕ
  | .system => 2
  | .platform => 1
  | .tenant => 0

/-- One turn of the loop of `winningPolicyId`: keep the winner so far or take the entry. -/
def keepWinner (winner entry : Candidate) : Candidate :=
  if entry.priority ≠ winner.priority then
    if entry.priority > winner.priority then entry else winner
  else if layerRank entry.layer ≠ layerRank winner.layer then
    if layerRank entry.layer > layerRank winner.layer then entry else winner
  else if entry.policyId < winner.policyId then entry else winner

/-- The winner of a list that starts with `first`. -/
def winner (first : Candidate) (entries : List Candidate) : Candidate :=
  entries.foldl keepWinner first

/-- The candidates of an effect that apply. -/
def applicable (effect : Effect) (checked : List Candidate) : List Candidate :=
  (checked.filter fun c => c.applies).filter fun c => c.effect = effect

/-- The decision on the checked candidates. -/
def combine (request : PolicyRequest) (checked : List Candidate) :
    Except NativeError PolicyDecision :=
  let answer (effect : Effect) (matchedPolicyId : JsValue) :=
    PolicyDecision.ofRaw (.string effect.name) (.string combinedReason) matchedPolicyId
      request.action.correlationId
  match applicable .deny checked with
  | first :: entries => answer .deny (.string (winner first entries).policyId)
  | [] =>
      match applicable .allow checked with
      | first :: entries => answer .allow (.string (winner first entries).policyId)
      | [] => answer .deny .null

/-- `decide` on a genuine request. -/
def decide (request : PolicyRequest) (candidates : JsValue) :
    Except NativeError PolicyDecision := do
  let checked ← checkCandidates candidates
  combine request checked

/-! ## What the evaluator is meant to do -/

/-- The entry spells the candidate, in one of the two shapes. -/
def Spells (entry : JsValue) (c : Candidate) : Prop :=
  ∃ props, entry = .object .objectPrototype props ∧
    JsValue.get props (lit "policyId") = .string c.policyId ∧
    JsValue.get props (lit "effect") = .string c.effect.name ∧
    JsValue.get props (lit "applies") = .boolean c.applies ∧
    (hasExactEnumerableDataKeys props legacyCandidateKeys = true ∧
        c.priority = 0 ∧ c.layer = .tenant ∨
      hasExactEnumerableDataKeys props v2CandidateKeys = true ∧
        (∃ n, JsValue.get props (lit "priority") = .number n ∧
          n.safeInteger? = some c.priority) ∧
        JsValue.get props (lit "layer") = .string c.layer.name)

/-- One candidate goes before another: by priority, then by layer, then by the smaller id. -/
def Outranks (a b : Candidate) : Prop :=
  b.priority < a.priority ∨ b.priority = a.priority ∧
    (layerRank b.layer < layerRank a.layer ∨ layerRank b.layer = layerRank a.layer ∧
      a.policyId < b.policyId)

/-- The candidate goes before every other applicable candidate of its effect. -/
def Wins (checked : List Candidate) (effect : Effect) (c : Candidate) : Prop :=
  c ∈ checked ∧ c.applies = true ∧ c.effect = effect ∧
    ∀ d ∈ checked, d.applies = true → d.effect = effect → d ≠ c → Outranks c d

/-- No candidate of the effect applies. -/
def NoneApplies (checked : List Candidate) (effect : Effect) : Prop :=
  ∀ c ∈ checked, c.applies = true → c.effect ≠ effect

/-- Deny overrides allow, and the default is to deny. -/
inductive Combines (checked : List Candidate) : Effect → Option JsString → Prop where
  | deny (c : Candidate) : Wins checked .deny c → Combines checked .deny (some c.policyId)
  | allow (c : Candidate) : NoneApplies checked .deny → Wins checked .allow c →
      Combines checked .allow (some c.policyId)
  | default : NoneApplies checked .deny → NoneApplies checked .allow →
      Combines checked .deny none

/-- The decision a set of candidates leads to on a request. -/
def Decides (request : PolicyRequest) (checked : List Candidate) (d : PolicyDecision) : Prop :=
  Combines checked d.effect d.matchedPolicyId ∧ d.reason = combinedReason ∧
    d.traceId = request.action.correlationId

/-! ## The winner -/

/-- What the three tie-breakers compare, in one linear order. -/
def precedence (c : Candidate) : ℤ ×ₗ ℕ ×ₗ JsStringᵒᵈ :=
  toLex (c.priority, toLex (layerRank c.layer, OrderDual.toDual c.policyId))

/-- One candidate outranks another when its precedence is higher. -/
theorem outranks_iff {a b : Candidate} : Outranks a b ↔ precedence b < precedence a := by
  simp [Outranks, precedence, Prod.Lex.toLex_lt_toLex]

/-- Candidates of the same precedence have the same id. -/
theorem policyId_eq_of_precedence_eq {a b : Candidate} (h : precedence a = precedence b) :
    a.policyId = b.policyId := by
  simp only [precedence, toLex_inj, Prod.mk.injEq, OrderDual.toDual_inj] at h
  exact h.2.2

/-- The winner is kept unless the next one has a higher precedence. -/
theorem keepWinner_eq (w e : Candidate) :
    keepWinner w e = if precedence w < precedence e then e else w := by
  have hiff := outranks_iff (a := e) (b := w)
  unfold keepWinner
  simp only [← hiff, Outranks]
  split_ifs <;> grind

/-- The fold finds the candidate of greatest precedence. -/
theorem winner_eq_argmax (first : Candidate) (entries : List Candidate) :
    (first :: entries).argmax precedence = some (winner first entries) := by
  rw [List.argmax, List.foldl_cons, winner]
  change entries.foldl _ (some first) = _
  induction entries generalizing first with
  | nil => rfl
  | cons e entries ih =>
    rw [List.foldl_cons, List.foldl_cons, ← ih, keepWinner_eq]
    congr 1
    simp only [List.argAux]
    split_ifs <;> rfl

/-- The applicable candidates of an effect are those that apply and have it. -/
theorem mem_applicable {effect : Effect} {checked : List Candidate} {c : Candidate} :
    c ∈ applicable effect checked ↔ c ∈ checked ∧ c.applies = true ∧ c.effect = effect := by
  simp only [applicable, List.mem_filter, decide_eq_true_eq, and_assoc]

/-- There are none when no candidate of the effect applies. -/
theorem applicable_eq_nil_iff {effect : Effect} {checked : List Candidate} :
    applicable effect checked = [] ↔ NoneApplies checked effect := by
  simp [List.eq_nil_iff_forall_not_mem, mem_applicable, NoneApplies]

/-- The candidate the fold ends with wins, when the ids differ. -/
theorem wins_winner {effect : Effect} {checked entries : List Candidate} {first : Candidate}
    (hnodup : (checked.map Candidate.policyId).Nodup)
    (h : applicable effect checked = first :: entries) :
    Wins checked effect (winner first entries) := by
  have hmax : winner first entries ∈ (applicable effect checked).argmax precedence := by
    rw [h, winner_eq_argmax]
    exact rfl
  obtain ⟨hmem, happlies, heffect⟩ := mem_applicable.mp (List.argmax_mem hmax)
  refine ⟨hmem, happlies, heffect, fun d hd hdapplies hdeffect hne => ?_⟩
  have hle := List.le_of_mem_argmax (mem_applicable.mpr ⟨hd, hdapplies, hdeffect⟩) hmax
  refine outranks_iff.mpr (lt_of_le_of_ne hle fun heq => hne ?_)
  exact List.inj_on_of_nodup_map hnodup hd hmem (policyId_eq_of_precedence_eq heq)

/-- At most one candidate wins. -/
theorem Wins.unique {effect : Effect} {checked : List Candidate} {c d : Candidate}
    (hc : Wins checked effect c) (hd : Wins checked effect d) : c = d := by
  by_contra hne
  have hcd := outranks_iff.mp (hc.2.2.2 d hd.1 hd.2.1 hd.2.2.1 (Ne.symm hne))
  have hdc := outranks_iff.mp (hd.2.2.2 c hc.1 hc.2.1 hc.2.2.1 hne)
  exact lt_asymm hcd hdc

/-- Where a candidate wins, one applies. -/
theorem Wins.not_noneApplies {effect : Effect} {checked : List Candidate} {c : Candidate}
    (h : Wins checked effect c) : ¬NoneApplies checked effect :=
  fun hnone => hnone c h.1 h.2.1 h.2.2.1

/-- The combination is a function of the candidates. -/
theorem Combines.unique {checked : List Candidate} {e e' : Effect} {id id' : Option JsString}
    (h : Combines checked e id) (h' : Combines checked e' id') : e = e' ∧ id = id' := by
  cases h with
  | deny c hc =>
    cases h' with
    | deny d hd => exact ⟨rfl, by rw [hc.unique hd]⟩
    | allow d hnone _ => exact absurd hnone hc.not_noneApplies
    | default hnone _ => exact absurd hnone hc.not_noneApplies
  | allow c hnone hc =>
    cases h' with
    | deny d hd => exact absurd hnone hd.not_noneApplies
    | allow d _ hd => exact ⟨rfl, by rw [hc.unique hd]⟩
    | default _ hnone' => exact absurd hnone' hc.not_noneApplies
  | default hdeny hallow =>
    cases h' with
    | deny d hd => exact absurd hdeny hd.not_noneApplies
    | allow d _ hd => exact absurd hallow hd.not_noneApplies
    | default _ _ => exact ⟨rfl, rfl⟩

/-- The combination looks at the candidates that apply, in no order. -/
theorem Combines.congr {checked checked' : List Candidate}
    (hmem : ∀ c, c.applies = true → (c ∈ checked' ↔ c ∈ checked)) {e : Effect}
    {id : Option JsString} (h : Combines checked e id) : Combines checked' e id := by
  have hwins {effect : Effect} {c : Candidate} (hc : Wins checked effect c) :
      Wins checked' effect c := by
    obtain ⟨hc, happlies, heffect, hbest⟩ := hc
    exact ⟨(hmem c happlies).mpr hc, happlies, heffect,
      fun d hd hdapplies => hbest d ((hmem d hdapplies).mp hd) hdapplies⟩
  have hnone {effect : Effect} (hn : NoneApplies checked effect) : NoneApplies checked' effect :=
    fun c hc happlies => hn c ((hmem c happlies).mp hc) happlies
  cases h with
  | deny c hc => exact .deny c (hwins hc)
  | allow c hn hc => exact .allow c (hnone hn) (hwins hc)
  | default hdeny hallow => exact .default (hnone hdeny) (hnone hallow)

/-- The combined reason has the form of reasons. -/
theorem isReason_combinedReason : isReason combinedReason = true := by decide

/-- On candidates of distinct ids, `combine` returns the combination. -/
theorem combine_eq_ok (request : PolicyRequest) {checked : List Candidate}
    (hnodup : (checked.map Candidate.policyId).Nodup) :
    ∃ d, combine request checked = .ok d ∧ Decides request checked d := by
  unfold combine
  cases hdeny : applicable .deny checked with
  | cons first entries =>
    have hwins := wins_winner hnodup hdeny
    exact ⟨_, PolicyDecision.ofRaw_string _ isReason_combinedReason
      (winner first entries).policyIdOk, .deny _ hwins, rfl, rfl⟩
  | nil =>
    have hnone := applicable_eq_nil_iff.mp hdeny
    cases hallow : applicable .allow checked with
    | cons first entries =>
      have hwins := wins_winner hnodup hallow
      exact ⟨_, PolicyDecision.ofRaw_string _ isReason_combinedReason
        (winner first entries).policyIdOk, .allow _ hnone hwins, rfl, rfl⟩
    | nil =>
      exact ⟨_, PolicyDecision.ofRaw_null _ isReason_combinedReason,
        .default hnone (applicable_eq_nil_iff.mp hallow), rfl, rfl⟩

/-! ## Admission -/

/-- A policy id passes as a string of its form. -/
theorem checkPolicyId_eq_ok_iff {v : JsValue} {s : {s : JsString // isPolicyId s = true}} :
    checkPolicyId v = .ok s ↔ v = .string s.1 := by
  constructor
  · intro h
    unfold checkPolicyId at h
    split at h
    · split_ifs at h
      obtain rfl := Except.ok.inj h
      rfl
    · cases h
  · rintro rfl
    rw [checkPolicyId, dif_pos s.2]

/-- An effect passes by its name. -/
theorem checkEffect_eq_ok_iff {v : JsValue} {e : Effect} :
    checkEffect v = .ok e ↔ v = .string e.name := by
  constructor
  · intro h
    unfold checkEffect at h
    split at h
    · split at h
      · next heffect =>
        obtain rfl := Except.ok.inj h
        rw [Effect.ofName?_eq_some.mp heffect]
      · cases h
    · cases h
  · rintro rfl
    simp only [checkEffect, Effect.ofName?_name]

/-- `applies` passes as a boolean. -/
theorem checkApplies_eq_ok_iff {v : JsValue} {b : Bool} :
    checkApplies v = .ok b ↔ v = .boolean b := by
  cases v <;> simp [checkApplies]

/-- A priority passes as a safe integer. -/
theorem checkPriority_eq_ok_iff {v : JsValue} {z : ℤ} :
    checkPriority v = .ok z ↔ ∃ n, v = .number n ∧ n.safeInteger? = some z := by
  cases v with
  | number n => cases hn : n.safeInteger? <;> simp [checkPriority, hn]
  | _ => simp [checkPriority]

/-- A layer passes by its name. -/
theorem checkLayer_eq_ok_iff {v : JsValue} {l : Layer} :
    checkLayer v = .ok l ↔ v = .string l.name := by
  constructor
  · intro h
    unfold checkLayer at h
    split at h
    · split at h
      · next hlayer =>
        obtain rfl := Except.ok.inj h
        rw [Layer.ofName?_eq_some.mp hlayer]
      · cases h
    · cases h
  · rintro rfl
    simp only [checkLayer, Layer.ofName?_name]

/-- No object has both shapes. -/
theorem not_legacy_of_v2 {props : List ((PropertyKey × Descriptor) × JsValue)}
    (h : hasExactEnumerableDataKeys props v2CandidateKeys = true) :
    hasExactEnumerableDataKeys props legacyCandidateKeys = false := by
  simp only [hasExactEnumerableDataKeys, Bool.and_eq_true, beq_iff_eq] at h
  have hlength : (props.length == legacyCandidateKeys.length) = false := by
    rw [h.1.1]
    rfl
  simp only [hasExactEnumerableDataKeys, hlength, Bool.false_and]

/-- An entry is admitted as the candidate it spells. -/
theorem checkCandidate_eq_ok_iff {entry : JsValue} {c : Candidate} :
    checkCandidate entry = .ok c ↔ Spells entry c := by
  constructor
  · intro h
    unfold checkCandidate at h
    split at h
    · next props =>
      simp only [bind_eq_ok, throwIf_eq_ok, checkPolicyId_eq_ok_iff, checkEffect_eq_ok_iff,
        checkApplies_eq_ok_iff] at h
      obtain ⟨_, hshape, id, hid, effect, heffect, applies, happlies, h⟩ := h
      split at h
      · -- an entry of the older shape has no priority and no layer to check
        next hlegacy =>
        obtain rfl := Except.ok.inj h
        exact ⟨props, rfl, hid, heffect, happlies, Or.inl ⟨hlegacy, rfl, rfl⟩⟩
      · next hlegacy =>
        simp only [bind_eq_ok, checkPriority_eq_ok_iff, checkLayer_eq_ok_iff] at h
        obtain ⟨priority, hpriority, layer, hlayer, h⟩ := h
        obtain rfl := Except.ok.inj h
        refine ⟨props, rfl, hid, heffect, happlies, Or.inr ⟨?_, hpriority, hlayer⟩⟩
        simpa [hlegacy] using hshape
    · cases h
  · rintro ⟨props, rfl, hid, heffect, happlies, hshape⟩
    have hid' := checkPolicyId_eq_ok_iff (s := ⟨c.policyId, c.policyIdOk⟩).mpr hid
    simp only [checkCandidate, hid', checkEffect_eq_ok_iff.mpr heffect,
      checkApplies_eq_ok_iff.mpr happlies]
    -- an entry has one of the two shapes
    rcases hshape with ⟨hlegacy, hpriority, hlayer⟩ | ⟨hv2, hpriority, hlayer⟩
    · simp only [hlegacy, throwIf, Bool.not_true, Bool.false_and, if_true]
      rw [← hpriority, ← hlayer]
      rfl
    · simp only [not_legacy_of_v2 hv2, hv2, throwIf, checkPriority_eq_ok_iff.mpr hpriority,
        checkLayer_eq_ok_iff.mpr hlayer]
      rfl

/-- An entry spells at most one candidate. -/
theorem Spells.unique {entry : JsValue} {c d : Candidate} (hc : Spells entry c)
    (hd : Spells entry d) : c = d :=
  Except.ok.inj ((checkCandidate_eq_ok_iff.mpr hc).symm.trans (checkCandidate_eq_ok_iff.mpr hd))

/-- The loop admits entries that are each admitted, under ids it has not seen. -/
theorem checkEntries_eq_ok_iff {seen : List JsString} {entries : List JsValue}
    {checked : List Candidate} :
    checkEntries seen entries = .ok checked ↔
      List.Forall₂ (fun entry c => checkCandidate entry = .ok c) entries checked ∧
        (checked.map Candidate.policyId).Nodup ∧ ∀ c ∈ checked, c.policyId ∉ seen := by
  -- on the entries, with the ids of those before them
  induction entries generalizing seen checked with
  | nil =>
    constructor
    · intro h
      obtain rfl := Except.ok.inj h
      exact ⟨.nil, List.nodup_nil, by simp⟩
    · rintro ⟨h, -, -⟩
      cases h
      rfl
  | cons entry entries ih =>
    simp only [checkEntries, bind_eq_ok, throwIf_eq_ok, ih, List.forall₂_cons_left_iff]
    constructor
    · rintro ⟨c, hc, -, hfresh, rest, ⟨hrest, hnodup, hseen⟩, hcons⟩
      obtain rfl := Except.ok.inj hcons
      simp only [List.mem_cons, not_or] at hseen
      refine ⟨⟨c, rest, hc, hrest, rfl⟩, ?_, ?_⟩
      · rw [List.map_cons, List.nodup_cons]
        refine ⟨fun hmem => ?_, hnodup⟩
        obtain ⟨d, hd, hid⟩ := List.mem_map.mp hmem
        exact (hseen d hd).1 hid
      · exact List.forall_mem_cons.mpr ⟨hfresh, fun d hd => (hseen d hd).2⟩
    · rintro ⟨⟨c, rest, hc, hrest, rfl⟩, hnodup, hseen⟩
      rw [List.map_cons, List.nodup_cons] at hnodup
      rw [List.forall_mem_cons] at hseen
      refine ⟨c, hc, (), hseen.1, rest, ⟨hrest, hnodup.2, fun d hd => ?_⟩, rfl⟩
      rw [List.mem_cons, not_or]
      exact ⟨fun hid => hnodup.1 (List.mem_map.mpr ⟨d, hd, hid⟩), hseen.2 d hd⟩

/-- The array is admitted as the candidates its entries spell, under distinct ids. -/
def Admits (candidates : JsValue) (checked : List Candidate) : Prop :=
  ∃ entries, candidates.ordinaryElements? = some entries ∧
    List.Forall₂ Spells entries checked ∧ (checked.map Candidate.policyId).Nodup

/-- The candidates that are admitted. -/
theorem checkCandidates_eq_ok_iff {candidates : JsValue} {checked : List Candidate} :
    checkCandidates candidates = .ok checked ↔ Admits candidates checked := by
  unfold checkCandidates Admits
  cases candidates.ordinaryElements? with
  | none => simp
  | some entries => simp [checkEntries_eq_ok_iff, checkCandidate_eq_ok_iff]

/-- The rules decide one way. -/
theorem Decides.unique {request : PolicyRequest} {checked : List Candidate}
    {d d' : PolicyDecision} (h : Decides request checked d) (h' : Decides request checked d') :
    d = d' := by
  obtain ⟨hcombines, hreason, htrace⟩ := h
  obtain ⟨hcombines', hreason', htrace'⟩ := h'
  obtain ⟨heffect, hid⟩ := hcombines.unique hcombines'
  cases d
  cases d'
  simp_all

/-- `decide` returns exactly when it admits the array, and returns the combination. -/
theorem decide_eq_ok_iff {request : PolicyRequest} {candidates : JsValue} {d : PolicyDecision} :
    decide request candidates = .ok d ↔
      ∃ checked, Admits candidates checked ∧ Decides request checked d := by
  rw [decide, bind_eq_ok]
  refine exists_congr fun checked => ?_
  rw [checkCandidates_eq_ok_iff]
  refine and_congr_right fun hadmits => ?_
  obtain ⟨-, -, -, hnodup⟩ := hadmits
  obtain ⟨d', hd', hdecides⟩ := combine_eq_ok request hnodup
  rw [hd', Except.ok.injEq]
  constructor
  · rintro rfl
    exact hdecides
  · exact Decides.unique hdecides

/-! ## Order and shape -/

/-- The v2 entry has the three values of the legacy entry, priority 0 and layer tenant. -/
def FiveKeyEquivalent (legacy v2 : JsValue) : Prop :=
  ∃ props props', legacy = .object .objectPrototype props ∧
    v2 = .object .objectPrototype props' ∧
    hasExactEnumerableDataKeys props legacyCandidateKeys = true ∧
    hasExactEnumerableDataKeys props' v2CandidateKeys = true ∧
    (∀ k ∈ legacyCandidateKeys, JsValue.get props' k = JsValue.get props k) ∧
    (∃ n, JsValue.get props' (lit "priority") = .number n ∧ n.safeInteger? = some 0) ∧
    JsValue.get props' (lit "layer") = .string (lit "tenant")

/-- A legacy entry and its five-key equivalent spell the same candidate. -/
theorem Spells.upgrade {legacy v2 : JsValue} {c : Candidate} (h : Spells legacy c)
    (hequiv : FiveKeyEquivalent legacy v2) : Spells v2 c := by
  obtain ⟨props, hlegacy, hid, heffect, happlies, hshape⟩ := h
  obtain ⟨props₁, props', hlegacy', rfl, hshape₁, hshape', hget, hpriority, hlayer⟩ := hequiv
  obtain ⟨-, rfl⟩ := JsValue.object.inj (hlegacy.symm.trans hlegacy')
  rcases hshape with ⟨-, hzero, htenant⟩ | ⟨hv2, -⟩
  · refine ⟨props', rfl, ?_, ?_, ?_, Or.inr ⟨hshape', ?_, ?_⟩⟩
    · rw [hget _ (by simp [legacyCandidateKeys]), hid]
    · rw [hget _ (by simp [legacyCandidateKeys]), heffect]
    · rw [hget _ (by simp [legacyCandidateKeys]), happlies]
    · rwa [hzero]
    · rw [htenant, hlayer, Layer.name]
  · rw [not_legacy_of_v2 hv2] at hshape₁
    cases hshape₁

/-- Admitted entries stay admitted, as the same candidates, when some are upgraded. -/
theorem forall₂_spells_upgrade {entries entries' : List JsValue} {checked : List Candidate}
    (h : List.Forall₂ Spells entries checked)
    (hupgrade : List.Forall₂ (fun e e' => e' = e ∨ FiveKeyEquivalent e e') entries entries') :
    List.Forall₂ Spells entries' checked := by
  induction h generalizing entries' with
  | nil =>
    cases hupgrade
    exact .nil
  | cons hspells _ ih =>
    cases hupgrade with
    | cons hentry hrest =>
      refine .cons ?_ (ih hrest)
      rcases hentry with rfl | hequiv
      · exact hspells
      · exact hspells.upgrade hequiv

/-- The decision on an admitted array is the reference combination of its candidates, and neither
the order of the array nor the shape of its legacy candidates matters to it. -/
theorem decide_reference {request : PolicyRequest} {candidates : JsValue} {d : PolicyDecision}
    (h : decide request candidates = .ok d) :
    ∃ entries checked, candidates.ordinaryElements? = some entries ∧
      List.Forall₂ Spells entries checked ∧ Combines checked d.effect d.matchedPolicyId ∧
      (∀ candidates' entries', candidates'.ordinaryElements? = some entries' →
        entries'.Perm entries → decide request candidates' = .ok d) ∧
      ∀ candidates' entries', candidates'.ordinaryElements? = some entries' →
        List.Forall₂ (fun e e' => e' = e ∨ FiveKeyEquivalent e e') entries entries' →
          decide request candidates' = .ok d := by
  obtain ⟨checked, ⟨entries, hentries, hspells, hnodup⟩, hdecides⟩ := decide_eq_ok_iff.mp h
  refine ⟨entries, checked, hentries, hspells, hdecides.1, fun candidates' entries' h' hperm => ?_,
    fun candidates' entries' h' hupgrade => ?_⟩
  · obtain ⟨checked', hspells', hperm'⟩ := List.perm_comp_forall₂ hperm hspells
    have hnodup' := ((hperm'.map Candidate.policyId).nodup_iff).mpr hnodup
    refine decide_eq_ok_iff.mpr ⟨checked', ⟨entries', h', hspells', hnodup'⟩, ?_, hdecides.2⟩
    exact hdecides.1.congr fun c _ => hperm'.mem_iff
  · exact decide_eq_ok_iff.mpr
      ⟨checked, ⟨entries', h', forall₂_spells_upgrade hspells hupgrade, hnodup⟩, hdecides⟩

/-- The entry of a legacy candidate. -/
def legacyEntry (policyId effect : String) (applies : Bool) : JsValue :=
  .ofJson (.obj [(lit "policyId", .str (lit policyId)), (lit "effect", .str (lit effect)),
    (lit "applies", .bool applies)])

/-- A legacy allow with a smaller id beats another legacy allow. -/
theorem decide_reference_legacy_allows :
    ∃ d, decide .sample (.array .arrayPrototype
        [(some .data, legacyEntry "b" "allow" true), (some .data, legacyEntry "a" "allow" true)]
          0) =
          .ok d ∧ d.effect = .allow ∧ d.matchedPolicyId = some (lit "a") ∧
      ∃ entries checked, JsValue.ordinaryElements? (.array .arrayPrototype
        [(some .data, legacyEntry "b" "allow" true), (some .data, legacyEntry "a" "allow" true)]
          0) =
          some entries ∧
      List.Forall₂ Spells entries checked ∧ Combines checked d.effect d.matchedPolicyId ∧
      (∀ candidates' entries', candidates'.ordinaryElements? = some entries' →
        entries'.Perm entries → decide .sample candidates' = .ok d) ∧
      ∀ candidates' entries', candidates'.ordinaryElements? = some entries' →
        List.Forall₂ (fun e e' => e' = e ∨ FiveKeyEquivalent e e') entries entries' →
          decide .sample candidates' = .ok d := by
  have hid : isPolicyId (lit "a") = true := by decide
  exact ⟨⟨.allow, combinedReason, some (lit "a"), PolicyRequest.sample.action.correlationId,
    isReason_combinedReason, hid⟩, by rfl, rfl, rfl, decide_reference (by rfl)⟩

end MetaframerKernel.AuthorizationEvaluator
