import MetaframerKernel.Tools.ClosureSemantics

/-!
# The closure simulation

The simulator follows a monotone rule on the set of phases reached, so it ends, and the set it ends
with depends on neither the order of the phases nor that of the edges. What it discharges and
reports along the way is an invariant of its visits.

## Main definitions

* `rule`: the phases a set of reached phases admits;
* `Laws`: what holds after every visit;
* `Result.Reaches`: the phases a report does not list as blocked.

## Main results

* `reaches_iff`: the phases reached are the least fixed point of the rule;
* `simulation_laws`: the laws of the simulation.
-/

namespace MetaframerKernel.ClosureSemantics

open Js

/-! ## Looking up phases and edges -/

/-- With distinct keys, an element is found exactly where it is listed. -/
theorem find?_reverse_eq_some_iff {α : Type} {key : α → JsString} {l : List α}
    (h : (l.map key).Nodup) {id : JsString} {a : α} :
    (l.reverse.find? fun a => key a = id) = some a ↔ a ∈ l ∧ key a = id := by
  have hfound {b : α} (hb : (l.reverse.find? fun a => key a = id) = some b) :
      b ∈ l ∧ key b = id := by
    have hid : decide (key b = id) = true := List.find?_some (p := fun a => decide (key a = id)) hb
    exact ⟨List.mem_reverse.mp (List.mem_of_find?_eq_some hb), of_decide_eq_true hid⟩
  refine ⟨hfound, fun ⟨hmem, hid⟩ => ?_⟩
  cases hfind : l.reverse.find? fun a => key a = id with
  | none =>
    exact absurd (decide_eq_true hid)
      (List.find?_eq_none.mp hfind a (List.mem_reverse.mpr hmem))
  | some b =>
    obtain ⟨hb, hid'⟩ := hfound hfind
    rw [List.inj_on_of_nodup_map h hb hmem (hid'.trans hid.symm)]

/-- A phase is found by its id when no two have one. -/
theorem phaseById_eq_some_iff {phases : List Phase} (h : (phases.map Phase.id).Nodup)
    {id : JsString} {phase : Phase} :
    phaseById phases id = some phase ↔ phase ∈ phases ∧ phase.id = id :=
  find?_reverse_eq_some_iff h

/-- An edge is found by its id when no two have one. -/
theorem edgeById_eq_some_iff {edges : List Edge} (h : (edges.map Edge.edgeId).Nodup)
    {id : JsString} {edge : Edge} :
    edgeById edges id = some edge ↔ edge ∈ edges ∧ edge.edgeId = id :=
  find?_reverse_eq_some_iff h

/-- Sorting loses no phase and adds none. -/
theorem mem_sortedPhases {m : Model} {phase : Phase} : phase ∈ sortedPhases m ↔ phase ∈ m.phases :=
  List.mem_insertionSort _

/-- Sorted phases have distinct ids when the phases do. -/
theorem nodup_sortedPhases {m : Model} (h : (m.phases.map Phase.id).Nodup) :
    ((sortedPhases m).map Phase.id).Nodup :=
  ((List.perm_insertionSort _ _).map Phase.id).nodup_iff.mpr h

/-! ## Obligations -/

/-- An obligation that passes its check. -/
structure Obliges (m : Model) (phase : Phase) (id : JsString) (edge : Edge) : Prop where
  found : edgeById m.edges id = some edge
  source : edge.sourcePhase = phase.id
  destination : ∃ destination, phaseById (sortedPhases m) edge.destinationPhase = some destination ∧
    ((edge.classification = intraAtomic ∧ destination.ordinal = phase.ordinal) ∨
      (edge.classification = forwardDeferred ∧ phase.ordinal < destination.ordinal))

/-- The two classifications are different. -/
theorem intraAtomic_ne_forwardDeferred : intraAtomic ≠ forwardDeferred := by decide

/-- An edge passes within one ordinal when it is atomic, and to a later one when it is deferred. -/
theorem checkOrdinals_eq_ok {phase destination : Phase} {edge edge' : Edge} :
    checkOrdinals phase destination edge = .ok edge' ↔ edge' = edge ∧
      ((edge.classification = intraAtomic ∧ destination.ordinal = phase.ordinal) ∨
        (edge.classification = forwardDeferred ∧ phase.ordinal < destination.ordinal)) := by
  have hne := intraAtomic_ne_forwardDeferred
  unfold checkOrdinals
  by_cases hintra : edge.classification = intraAtomic
  · by_cases hordinal : destination.ordinal = phase.ordinal
    · simp [hintra, hordinal, hne, eq_comm]
    · simp [hintra, hordinal, hne]
  · by_cases hforward : edge.classification = forwardDeferred
    · by_cases hordinal : phase.ordinal < destination.ordinal
      · simp [hforward, hne.symm, hordinal, hordinal.ne', hordinal.not_gt, eq_comm]
      · have hcases : destination.ordinal = phase.ordinal ∨
          destination.ordinal < phase.ordinal := by
          omega
        rcases hcases with heq | hlt
        · simp [hforward, hne.symm, heq]
        · simp [hforward, hne.symm, hlt, hlt.ne, hlt.not_gt]
    · simp [hintra, hforward]

/-- An id passes when it is that of an edge the phase is obliged by. -/
theorem checkObligation_eq_ok {m : Model} {phase : Phase} {id : JsString} {edge : Edge} :
    checkObligation m phase id = .ok edge ↔ Obliges m phase id edge := by
  unfold checkObligation
  -- by the questions of the check: the edge, its source, its destination, the ordinals
  cases hedge : edgeById m.edges id with
  | none => exact ⟨nofun, fun h => (nomatch hedge.symm.trans h.found)⟩
  | some found =>
    by_cases hsource : found.sourcePhase = phase.id
    · simp only [hsource, ne_eq, not_true_eq_false, if_false]
      cases hdestination : phaseById (sortedPhases m) found.destinationPhase with
      | none =>
        refine ⟨nofun, fun h => ?_⟩
        obtain rfl := Option.some.inj (hedge.symm.trans h.found)
        obtain ⟨destination, hfound, -⟩ := h.destination
        exact nomatch hdestination.symm.trans hfound
      | some destination =>
        rw [checkOrdinals_eq_ok]
        constructor
        · rintro ⟨rfl, hordinals⟩
          exact ⟨hedge, hsource, destination, hdestination, hordinals⟩
        · intro h
          obtain rfl := Option.some.inj (hedge.symm.trans h.found)
          obtain ⟨destination', hfound, hordinals⟩ := h.destination
          obtain rfl := Option.some.inj (hdestination.symm.trans hfound)
          exact ⟨rfl, hordinals⟩
    · simp only [hsource, ne_eq, not_false_eq_true, if_true]
      refine ⟨nofun, fun h => ?_⟩
      obtain rfl := Option.some.inj (hedge.symm.trans h.found)
      exact absurd h.source hsource

/-- A phase is structurally sound when all its obligations pass. -/
theorem structuralViolations_eq_nil {m : Model} {phase : Phase} :
    structuralViolations m phase = [] ↔
      ∀ id ∈ phase.closureEdgeIds, ∃ edge, Obliges m phase id edge := by
  rw [structuralViolations, List.filterMap_eq_nil_iff]
  refine forall₂_congr fun id _ => ?_
  cases hcheck : checkObligation m phase id with
  | error violation =>
    simp only [reduceCtorEq, false_iff, not_exists, ← checkObligation_eq_ok, hcheck]
    exact fun _ => not_false
  | ok edge => simp [← checkObligation_eq_ok, hcheck]

/-- The obligations of a phase are the edges that its ids oblige it by. -/
theorem mem_obligations {m : Model} {phase : Phase} {edge : Edge} :
    edge ∈ obligations m phase ↔ ∃ id ∈ phase.closureEdgeIds, Obliges m phase id edge := by
  rw [obligations, List.mem_filterMap]
  refine exists_congr fun id => and_congr_right fun _ => ?_
  rw [← checkObligation_eq_ok]
  cases checkObligation m phase id <;> simp [Except.toOption]

/-! ## The status of gaps -/

/-- The edges of a gap. -/
theorem getD_lookup_owedBy (edges : List Edge) (gap : JsString) :
    ((owedBy edges).lookup gap).getD [] =
      (edges.filter fun edge => edge.sourceGap = gap).map Edge.edgeId := by
  induction edges using List.reverseRecOn with
  | nil => rfl
  | append_singleton edges edge ih =>
    rw [owedBy, List.foldl_append, List.foldl_cons, List.foldl_nil, lookup_putMember]
    by_cases hgap : gap = edge.sourceGap
    · subst hgap
      rw [if_pos rfl, Option.getD_some]
      change ((owedBy edges).lookup edge.sourceGap).getD [] ++ [edge.edgeId] = _
      rw [ih]
      simp
    · rw [if_neg hgap]
      change ((owedBy edges).lookup gap).getD [] = _
      rw [ih]
      simp [Ne.symm hgap]

/-- No id is owed twice. -/
theorem nodup_owedBy (edges : List Edge) : ((owedBy edges).map Prod.fst).Nodup := by
  induction edges using List.reverseRecOn with
  | nil => exact List.nodup_nil
  | append_singleton edges edge ih =>
    rw [owedBy, List.foldl_append, List.foldl_cons, List.foldl_nil]
    exact nodup_putMember ih

/-- Only the gaps of edges are in the map. -/
theorem mem_map_sourceGap {edges : List Edge} {gap : JsString}
    (h : gap ∈ (owedBy edges).map Prod.fst) : ∃ edge ∈ edges, edge.sourceGap = gap := by
  induction edges using List.reverseRecOn with
  | nil => cases h
  | append_singleton edges edge ih =>
    rw [owedBy, List.foldl_append, List.foldl_cons, List.foldl_nil] at h
    obtain ⟨p, hp, rfl⟩ := List.mem_map.mp h
    rcases mem_putMember hp with hold | rfl
    · obtain ⟨edge', hedge', hgap⟩ := ih (List.mem_map_of_mem hold)
      exact ⟨edge', List.mem_append_left _ hedge', hgap⟩
    · exact ⟨edge, List.mem_append_right _ List.mem_cons_self, rfl⟩

/-- A gap is closed when it has edges and all of them are discharged. -/
theorem closed_mem_gapStatusSnapshot {edges : List Edge} {ids : List JsString} {gap : JsString} :
    (gap, GapStatus.closed) ∈ gapStatusSnapshot edges ids ↔
      (∃ edge ∈ edges, edge.sourceGap = gap) ∧
        ∀ edge ∈ edges, edge.sourceGap = gap → edge.edgeId ∈ ids := by
  have howed {owed : List JsString} (h : (gap, owed) ∈ owedBy edges) :
      owed = (edges.filter fun edge => edge.sourceGap = gap).map Edge.edgeId := by
    rw [← getD_lookup_owedBy, (lookup_eq_some_iff (nodup_owedBy edges)).mpr h, Option.getD_some]
  have hids : (∀ id ∈ (edges.filter fun edge => edge.sourceGap = gap).map Edge.edgeId, id ∈ ids) ↔
      ∀ edge ∈ edges, edge.sourceGap = gap → edge.edgeId ∈ ids := by
    simp only [List.forall_mem_map, List.mem_filter, decide_eq_true_eq, and_imp]
  simp only [gapStatusSnapshot, List.mem_map, Prod.mk.injEq]
  constructor
  · rintro ⟨⟨gap', owed⟩, hmem, rfl, hstatus⟩
    split_ifs at hstatus with hall
    refine ⟨?_, hids.mp (howed hmem ▸ hall)⟩
    exact mem_map_sourceGap (List.mem_map_of_mem hmem)
  · rintro ⟨⟨edge, hedge, rfl⟩, hall⟩
    cases hlookup : (owedBy edges).lookup edge.sourceGap with
    | none =>
      -- a gap with an edge is in the map
      have hnil := getD_lookup_owedBy edges edge.sourceGap
      rw [hlookup, Option.getD_none] at hnil
      have hmem : edge.edgeId ∈ (edges.filter fun e => e.sourceGap = edge.sourceGap).map
        Edge.edgeId :=
        List.mem_map_of_mem (List.mem_filter.mpr ⟨hedge, decide_eq_true rfl⟩)
      rw [← hnil] at hmem
      cases hmem
    | some owed =>
      have hmem := mem_of_lookup_eq_some hlookup
      exact ⟨(edge.sourceGap, owed), hmem, rfl, if_pos (howed hmem ▸ hids.mpr hall)⟩

/-! ## What a visit does -/

section Visits

variable {m : Model} {semantics : Semantics} {phase : Phase} {st : State}

/-- A part of the state that settling an obligation leaves alone. -/
theorem foldl_settle_frame {α : Type} (f : State → α)
    (hf : ∀ st edge, f (settle phase st edge) = f st) (l : List Edge) (st : State) :
    f (l.foldl (settle phase) st) = f st := by
  induction l generalizing st with
  | nil => rfl
  | cons edge l ih => rw [List.foldl_cons, ih, hf]

/-- Settling an edge issues nothing. -/
theorem settle_issued (st : State) (edge : Edge) : (settle phase st edge).issued = st.issued := by
  unfold settle
  split <;> rfl

/-- Settling an edge is not progress. -/
theorem settle_progress (st : State) (edge : Edge) :
    (settle phase st edge).progress = st.progress := by
  unfold settle
  split <;> rfl

/-- Settling the obligations of a phase issues nothing. -/
theorem settleObligations_issuedIds :
    (settleObligations m phase st).issuedIds = st.issuedIds :=
  congrArg (List.map Prod.fst) (foldl_settle_frame State.issued settle_issued (obligations m phase)
    st)

/-- Settling the obligations of a phase is not progress. -/
theorem settleObligations_progress :
    (settleObligations m phase st).progress = st.progress :=
  foldl_settle_frame State.progress settle_progress (obligations m phase) st

/-- The phases a set of reached phases admits. -/
structure Enabled (m : Model) (semantics : Semantics) (phase : Phase) (reached : Set JsString) :
    Prop where
  predecessor : ∀ p ∈ phase.predecessor, p ∈ reached
  sound : ∀ id ∈ phase.closureEdgeIds, ∃ edge, Obliges m phase id edge
  destinations : semantics = .historicalLiteral →
    ∀ edge ∈ obligations m phase, edge.destinationPhase ∈ reached

/-- The visit of a phase that is reached by it. -/
def reach (m : Model) (semantics : Semantics) (phase : Phase) (st : State) : State :=
  match semantics with
  | .historicalLiteral => issue phase (admitPhase m phase st)
  | .p01ClosureSemanticsV1 => settleObligations m phase (issue phase (admitPhase m phase st))

/-- Reaching a phase issues its id, after those issued before. -/
theorem reach_issuedIds : (reach m semantics phase st).issuedIds = st.issuedIds ++ [phase.id] := by
  cases semantics with
  | historicalLiteral => simp [reach, State.issuedIds, issue, admitPhase]
  | p01ClosureSemanticsV1 =>
    rw [reach, settleObligations_issuedIds]
    simp [State.issuedIds, issue, admitPhase]

/-- Reaching a phase is progress. -/
theorem reach_progress : (reach m semantics phase st).progress = true := by
  cases semantics with
  | historicalLiteral => rfl
  | p01ClosureSemanticsV1 => exact settleObligations_progress

/-- The set of the phases reached. -/
def State.reached (st : State) : Set JsString := {id | id ∈ st.issuedIds}

/-- A visit leaves a phase that is reached, admits one that is blocked, and reaches the others. -/
theorem visit_cases (m : Model) (semantics : Semantics) (phase : Phase) (st : State) :
    (visit m semantics st phase = st ∧
      (phase.id ∉ st.issuedIds → ¬Enabled m semantics phase st.reached)) ∨
    (visit m semantics st phase = admitPhase m phase st ∧ ¬Enabled m semantics phase st.reached) ∨
    (visit m semantics st phase = reach m semantics phase st ∧ phase.id ∉ st.issuedIds ∧
      Enabled m semantics phase st.reached) := by
  unfold visit
  -- by the questions of a visit, in its order
  by_cases hissued : phase.id ∈ st.issuedIds
  · rw [if_pos hissued]
    exact .inl ⟨rfl, fun h => absurd hissued h⟩
  rw [if_neg hissued]
  by_cases hpredecessor : ∃ p ∈ phase.predecessor, p ∉ st.issuedIds
  · rw [if_pos hpredecessor]
    obtain ⟨p, hp, hmissing⟩ := hpredecessor
    exact .inl ⟨rfl, fun _ h => hmissing (h.predecessor p hp)⟩
  rw [if_neg hpredecessor]
  push Not at hpredecessor
  by_cases hviolations : structuralViolations m phase = []
  · rw [if_neg (not_not.mpr hviolations)]
    have hsound := structuralViolations_eq_nil.mp hviolations
    cases semantics with
    | historicalLiteral =>
      dsimp only
      split_ifs with hblocked
      · obtain ⟨edge, hedge, hmissing⟩ := hblocked
        exact .inr (.inl ⟨rfl, fun h => hmissing (h.destinations rfl edge hedge)⟩)
      · push Not at hblocked
        exact .inr (.inr ⟨rfl, hissued, hpredecessor, hsound, fun _ => hblocked⟩)
    | p01ClosureSemanticsV1 =>
      exact .inr (.inr ⟨rfl, hissued, hpredecessor, hsound, nofun⟩)
  · rw [if_pos hviolations]
    exact .inr (.inl ⟨rfl, fun h => hviolations (structuralViolations_eq_nil.mpr h.sound)⟩)

end Visits

/-! ## The rule -/

/-- A phase that is enabled stays so when more has been issued. -/
theorem Enabled.mono {m : Model} {semantics : Semantics} {phase : Phase} {D E : Set JsString}
    (h : Enabled m semantics phase D) (hDE : D ⊆ E) : Enabled m semantics phase E :=
  ⟨fun p hp => hDE (h.predecessor p hp), h.sound,
    fun hs edge hedge => hDE (h.destinations hs edge hedge)⟩

/-- The phases a set of reached phases admits, by id. -/
def rule (m : Model) (semantics : Semantics) : Set JsString →o Set JsString where
  toFun D := {id | ∃ phase ∈ m.phases, phase.id = id ∧ Enabled m semantics phase D}
  monotone' := by
    rintro D E hDE id ⟨phase, hphase, hid, henabled⟩
    exact ⟨phase, hphase, hid, henabled.mono hDE⟩

/-- The rule adds the phases that are enabled. -/
theorem mem_rule_iff {m : Model} {semantics : Semantics} (h : (m.phases.map Phase.id).Nodup)
    {phase : Phase} (hphase : phase ∈ m.phases) {D : Set JsString} :
    phase.id ∈ rule m semantics D ↔ Enabled m semantics phase D := by
  constructor
  · rintro ⟨phase', hphase', hid, henabled⟩
    rwa [List.inj_on_of_nodup_map h hphase' hphase hid] at henabled
  · exact fun henabled => ⟨phase, hphase, rfl, henabled⟩

/-- The simulator follows the rule. -/
theorem follows_rule {m : Model} (semantics : Semantics) (h : (m.phases.map Phase.id).Nodup) :
    (loop m semantics).Follows (rule m semantics) where
  keys D k := by
    rintro ⟨phase, hphase, hid, -⟩
    exact ⟨phase, mem_sortedPhases.mpr hphase, hid⟩
  added_start st := rfl
  progress_start st := rfl
  visit st phase hphase := by
    have hrule : phase.id ∈ rule m semantics st.reached ↔ Enabled m semantics phase st.reached :=
      mem_rule_iff h (mem_sortedPhases.mp hphase)
    -- a visit leaves the state, admits the phase, or issues its receipt
    rcases visit_cases m semantics phase st with
      ⟨hvisit, hblocked⟩ | ⟨hvisit, hblocked⟩ | ⟨hvisit, hfresh, henabled⟩
    · refine .inl ⟨congrArg State.issuedIds hvisit, congrArg State.progress hvisit, fun hadmits =>
        ?_⟩
      by_contra hfresh
      exact hblocked hfresh (hrule.mp hadmits)
    · have hids : (admitPhase m phase st).issuedIds = st.issuedIds := rfl
      have hprogress : (admitPhase m phase st).progress = st.progress := rfl
      exact .inl ⟨(congrArg State.issuedIds hvisit).trans hids,
        (congrArg State.progress hvisit).trans hprogress,
        fun hadmits => absurd (hrule.mp hadmits) hblocked⟩
    · exact .inr ⟨(congrArg State.issuedIds hvisit).trans reach_issuedIds,
        (congrArg State.progress hvisit).trans reach_progress, hrule.mpr henabled, hfresh⟩

/-! ## What is discharged -/

/-- An id that is added once is there with those that were. -/
theorem mem_addOnce {x y : JsString} {l : List JsString} :
    y ∈ addOnce x l ↔ y ∈ l ∨ y = x := by
  unfold addOnce
  split
  · next hmem =>
    refine ⟨.inl, fun h => h.elim id ?_⟩
    rintro rfl
    exact hmem
  · simp

/-- Adding the ready ids once each leaves those and the ones before. -/
theorem mem_foldl_addOnce {ready : List (JsString × Debt)} {ids : List JsString} {y : JsString} :
    y ∈ ready.foldl (fun ids p => addOnce p.1 ids) ids ↔ y ∈ ids ∨ y ∈ ready.map Prod.fst := by
  induction ready generalizing ids with
  | nil => simp
  | cons p ready ih =>
    rw [List.foldl_cons, ih, mem_addOnce, List.map_cons, List.mem_cons, or_assoc]

/-- The edges whose discharge is recorded. -/
def State.dischargeRecords (st : State) : List JsString :=
  st.intraDischarges.map IntraDischarge.edgeId ++ st.dischargeTimings.map DischargeTiming.edgeId

/-- What a discharged edge and an open debt say of the phases reached, and what the statuses
reported say of the edges discharged. -/
structure Inv (m : Model) (st : State) : Prop where
  discharged : ∀ id ∈ st.dischargedEdgeIds, ∃ edge, edgeById m.edges id = some edge ∧
    edge.sourcePhase ∈ st.issuedIds ∧
      (edge.classification ≠ intraAtomic → edge.destinationPhase ∈ st.issuedIds)
  debts : ∀ p ∈ st.openDebts, ∃ edge, edgeById m.edges p.1 = some edge ∧
    edge.sourcePhase ∈ st.issuedIds ∧ p.2.destinationPhase = edge.destinationPhase
  reported : ∀ entry ∈ st.gapStatusAt, ∀ gap, (gap, .closed) ∈ entry.2 →
    (gap, .closed) ∈ gapStatusSnapshot m.edges st.dischargedEdgeIds
  kept : st.gapStatusAt.Pairwise fun entry later =>
    ∀ gap, (gap, GapStatus.closed) ∈ entry.2 → (gap, GapStatus.closed) ∈ later.2
  records : ∀ id, id ∈ st.dischargedEdgeIds ↔ id ∈ st.dischargeRecords

section Invariant

variable {m : Model} {semantics : Semantics} {phase : Phase} {st : State}

/-- The invariant holds before the first round. -/
theorem Inv.initial : Inv m .initial where
  discharged := by simp [State.initial]
  debts := by simp [State.initial]
  reported := by simp [State.initial]
  kept := .nil
  records := by simp [State.initial, State.dischargeRecords]

/-- More edges discharged close no fewer gaps. -/
theorem closed_mono {edges : List Edge} {ids ids' : List JsString} (h : ids ⊆ ids')
    {gap : JsString} (hclosed : (gap, GapStatus.closed) ∈ gapStatusSnapshot edges ids) :
    (gap, GapStatus.closed) ∈ gapStatusSnapshot edges ids' := by
  rw [closed_mem_gapStatusSnapshot] at hclosed ⊢
  exact ⟨hclosed.1, fun edge hedge hgap => h (hclosed.2 edge hedge hgap)⟩

/-- Admitting a phase keeps the invariant. -/
theorem Inv.admitPhase (h : Inv m st) : Inv m (admitPhase m phase st) := ⟨h.1, h.2, h.3, h.4, h.5⟩

/-- Issuing a phase keeps the invariant. -/
theorem Inv.issue (h : Inv m st) : Inv m (issue phase st) where
  discharged id hid := by
    obtain ⟨edge, hedge, hsource, hdestination⟩ := h.discharged id hid
    have hsub : st.issuedIds ⊆ (ClosureSemantics.issue phase st).issuedIds :=
      List.map_subset _ (List.subset_append_left _ _)
    exact ⟨edge, hedge, hsub hsource, fun hne => hsub (hdestination hne)⟩
  debts p hp := by
    obtain ⟨edge, hedge, hsource, hdestination⟩ := h.debts p hp
    exact ⟨edge, hedge, List.map_subset _ (List.subset_append_left _ _) hsource, hdestination⟩
  reported := h.reported
  kept := h.kept
  records := h.records

/-- Settling an obligation of a phase that is reached. -/
theorem Inv.settle (h : Inv m st) {id : JsString} {edge : Edge} (hobliges : Obliges m phase id edge)
    (hissued : phase.id ∈ st.issuedIds) (hid : edge.edgeId = id) :
    Inv m (settle phase st edge) := by
  -- the edge leaves the phase whose receipt has just been issued
  have hsource : edge.sourcePhase ∈ st.issuedIds := hobliges.source ▸ hissued
  unfold ClosureSemantics.settle
  split
  · next hintra =>
    refine ⟨fun id' hid' => ?_, h.debts, fun entry hentry gap hclosed => ?_, h.kept, fun id' => ?_⟩
    · rcases mem_addOnce.mp hid' with hold | rfl
      · exact h.discharged id' hold
      · exact ⟨edge, hid ▸ hobliges.found, hsource, fun hne => absurd hintra hne⟩
    · exact closed_mono (fun x hx => mem_addOnce.mpr (.inl hx))
        (h.reported entry hentry gap hclosed)
    · rw [mem_addOnce, h.records]
      simp only [State.dischargeRecords, List.map_append, List.map_cons, List.map_nil,
        List.mem_append, List.mem_singleton]
      tauto
  · refine ⟨h.discharged, fun p hp => ?_, h.reported, h.kept, h.records⟩
    rcases mem_putMember hp with hold | rfl
    · exact h.debts p hold
    · exact ⟨edge, hid ▸ hobliges.found, hsource, rfl⟩

/-- Recording the debts of a phase keeps the invariant. -/
theorem Inv.recordDebts (h : Inv m st) : Inv m (recordDebts m phase st) := ⟨h.1, h.2, h.3, h.4, h.5⟩

/-- Discharging the debts whose destination is reached. -/
theorem Inv.dischargeReadyDebts (h : Inv m st) (receipt : Option JsString) :
    Inv m (dischargeReadyDebts receipt st) where
  discharged id hid := by
    rcases mem_foldl_addOnce.mp hid with hold | hready
    · exact h.discharged id hold
    · obtain ⟨p, hp, rfl⟩ := List.mem_map.mp hready
      obtain ⟨hopen, hdestination⟩ := List.mem_filter.mp hp
      obtain ⟨edge, hedge, hsource, hsame⟩ := h.debts p hopen
      exact ⟨edge, hedge, hsource, fun _ => hsame ▸ of_decide_eq_true hdestination⟩
  debts p hp := h.debts p (List.mem_of_mem_filter hp)
  reported entry hentry gap hclosed :=
    closed_mono (fun x hx => mem_foldl_addOnce.mpr (.inl hx)) (h.reported entry hentry gap hclosed)
  kept := h.kept
  records id := by
    refine mem_foldl_addOnce.trans ?_
    rw [h.records]
    simp [State.dischargeRecords, ClosureSemantics.dischargeReadyDebts, timingOf, or_assoc]

/-- Reporting the status the gaps have. -/
theorem Inv.recordStatus (h : Inv m st) : Inv m (recordStatus m phase st) where
  discharged := h.discharged
  debts := h.debts
  reported entry hentry gap hclosed := by
    rcases List.mem_append.mp hentry with hold | hnew
    · exact h.reported entry hold gap hclosed
    · obtain rfl := List.mem_singleton.mp hnew
      exact hclosed
  kept := by
    refine List.pairwise_append.mpr ⟨h.kept, List.pairwise_singleton _ _, ?_⟩
    intro entry hentry later hlater gap hclosed
    obtain rfl := List.mem_singleton.mp hlater
    exact h.reported entry hentry gap hclosed
  records := h.records

/-- Settling the obligations of a phase that is reached. -/
theorem Inv.settleObligations (hedges : (m.edges.map Edge.edgeId).Nodup) (h : Inv m st)
    (hissued : phase.id ∈ st.issuedIds) : Inv m (settleObligations m phase st) := by
  have hfold (l : List Edge) (hl : l ⊆ obligations m phase) (st : State) (h : Inv m st)
      (hissued : phase.id ∈ st.issuedIds) : Inv m (l.foldl (ClosureSemantics.settle phase) st) := by
    induction l generalizing st with
    | nil => exact h
    | cons edge l ih =>
      rw [List.cons_subset] at hl
      obtain ⟨id, -, hobliges⟩ := mem_obligations.mp hl.1
      have hid : edge.edgeId = id := ((edgeById_eq_some_iff hedges).mp hobliges.found).2
      refine ih hl.2 _ (h.settle hobliges hissued hid) ?_
      rwa [State.issuedIds, settle_issued]
  exact ((hfold _ (List.Subset.refl _) st h hissued).recordDebts.dischargeReadyDebts _).recordStatus

/-- Every visit keeps the invariant. -/
theorem Inv.visit (hedges : (m.edges.map Edge.edgeId).Nodup) (h : Inv m st) :
    Inv m (visit m semantics st phase) := by
  rcases visit_cases m semantics phase st with ⟨hvisit, -⟩ | ⟨hvisit, -⟩ | ⟨hvisit, -⟩
  · rwa [hvisit]
  · rw [hvisit]
    exact h.admitPhase
  · rw [hvisit]
    cases semantics with
    | historicalLiteral => exact h.admitPhase.issue
    | p01ClosureSemanticsV1 =>
      refine h.admitPhase.issue.settleObligations hedges ?_
      simp [State.issuedIds, ClosureSemantics.issue]

/-- The invariant holds after every visit. -/
theorem inv_stateAt (hedges : (m.edges.map Edge.edgeId).Nodup) (rounds visits : ℕ) :
    Inv m ((loop m semantics).stateAt .initial rounds visits) :=
  Loop.stateAt_induct (L := loop m semantics) (P := Inv m) (fun _ h => ⟨h.1, h.2, h.3, h.4, h.5⟩)
    (fun _ _ _ h => h.visit hedges) Inv.initial rounds visits

end Invariant

/-! ## The laws -/

/-- The laws of a state of the simulation. -/
structure Laws (m : Model) (st : State) : Prop where
  /-- A phase is reached after its predecessor. -/
  predecessor : ∀ l₁ id l₂, st.issuedIds = l₁ ++ id :: l₂ →
    ∀ phase ∈ m.phases, phase.id = id → ∀ p ∈ phase.predecessor, p ∈ l₁
  /-- The records of discharges are of the edges discharged. -/
  records : ∀ id, id ∈ st.dischargedEdgeIds ↔ id ∈ st.dischargeRecords
  intraAtomic : ∀ edge ∈ m.edges, edge.classification = intraAtomic →
    edge.edgeId ∈ st.dischargedEdgeIds → edge.sourcePhase ∈ st.issuedIds
  forwardDeferred : ∀ edge ∈ m.edges, edge.classification = forwardDeferred →
    edge.edgeId ∈ st.dischargedEdgeIds →
      edge.sourcePhase ∈ st.issuedIds ∧ edge.destinationPhase ∈ st.issuedIds
  /-- A gap reported closed has all its edges discharged. -/
  closed : ∀ entry ∈ st.gapStatusAt, ∀ gap, (gap, .closed) ∈ entry.2 →
    ∀ edge ∈ m.edges, edge.sourceGap = gap → edge.edgeId ∈ st.dischargedEdgeIds
  /-- A gap reported closed is closed in every later report. -/
  kept : st.gapStatusAt.Pairwise fun entry later =>
    ∀ gap, (gap, GapStatus.closed) ∈ entry.2 → (gap, GapStatus.closed) ∈ later.2

section Simulation

variable {m : Model} (hphases : (m.phases.map Phase.id).Nodup)
  (hedges : (m.edges.map Edge.edgeId).Nodup)

include hphases hedges in
/-- The laws hold after every visit. -/
theorem laws_stateAt (semantics : Semantics) (rounds visits : ℕ) :
    Laws m ((loop m semantics).stateAt .initial rounds visits) := by
  have hinv : Inv m ((loop m semantics).stateAt .initial rounds visits) :=
    inv_stateAt hedges rounds visits
  -- with distinct ids the edge that is found under an id is the edge
  have hfound {edge : Edge} (hedge : edge ∈ m.edges) :
      edgeById m.edges edge.edgeId = some edge :=
    (edgeById_eq_some_iff hedges).mpr ⟨hedge, rfl⟩
  refine ⟨?_, hinv.records, ?_, ?_, ?_, hinv.kept⟩
  · intro l₁ id l₂ hsplit phase hphase hid p hp
    have hadmits := (follows_rule semantics hphases).justified_stateAt rfl rounds visits hsplit
    rw [← hid] at hadmits
    exact ((mem_rule_iff hphases hphase).mp hadmits).predecessor p hp
  · intro edge hedge _ hdischarged
    obtain ⟨edge', hedge', hsource, -⟩ := hinv.discharged _ hdischarged
    obtain rfl := Option.some.inj ((hfound hedge).symm.trans hedge')
    exact hsource
  · intro edge hedge hforward hdischarged
    obtain ⟨edge', hedge', hsource, hdestination⟩ := hinv.discharged _ hdischarged
    obtain rfl := Option.some.inj ((hfound hedge).symm.trans hedge')
    exact ⟨hsource, hdestination (hforward ▸ intraAtomic_ne_forwardDeferred.symm)⟩
  · intro entry hentry gap hclosed
    exact (closed_mem_gapStatusSnapshot.mp (hinv.reported entry hentry gap hclosed)).2

/-- A phase of the model that a report does not list as blocked. -/
def Result.Reaches (m : Model) (r : Result) (id : JsString) : Prop :=
  id ∈ m.phases.map Phase.id ∧ id ∉ r.blockedPhases

/-- A semantics is found by its own name. -/
theorem ofName?_name (semantics : Semantics) :
    Semantics.ofName? semantics.name = some semantics := by
  cases semantics <;> decide

/-- A run under a reading the simulator knows. -/
theorem simulateExecution_name (semantics : Semantics) (fuel : ℕ) :
    simulateExecution m (some semantics.name) fuel =
      ((loop m semantics).run fuel .initial).map (report m semantics) := by
  simp only [simulateExecution, simulateNamed, Option.getD_some, ofName?_name]

include hphases in
/-- The simulator ends. -/
theorem exists_run (semantics : Semantics) : ∃ st, ∀ fuel, m.phases.length < fuel →
    (loop m semantics).run fuel .initial = some st := by
  have hlength : (sortedPhases m).length = m.phases.length := List.length_insertionSort _ _
  have hcard : (((sortedPhases m).map Phase.id).toFinset \
      (State.initial.issuedIds).toFinset).card < m.phases.length + 1 := by
    refine Nat.lt_succ_of_le ((Finset.card_le_card Finset.sdiff_subset).trans ?_)
    refine (List.toFinset_card_le _).trans ?_
    rw [List.length_map, hlength]
  obtain ⟨st, hst⟩ := (follows_rule semantics hphases).exists_run (s := .initial) hcard
  exact ⟨st, fun fuel hfuel => Loop.run_of_le hst hfuel⟩

include hphases in
/-- The phases reached under a known reading are the least fixed point of its rule. -/
theorem report_reaches_iff {semantics : Semantics} {fuel : ℕ} {st : State}
    (h : (loop m semantics).run fuel .initial = some st) {id : JsString} :
    (report m semantics st).Reaches m id ↔ id ∈ (rule m semantics).lfp := by
  have hfollows := follows_rule semantics hphases
  rw [← hfollows.mem_added_run rfl h]
  -- a phase is blocked when its receipt was not issued
  have hblocked : id ∉ (report m semantics st).blockedPhases ↔
      ∀ phase ∈ m.phases, phase.id = id → id ∈ st.issuedIds := by
    simp only [report, blockedPhases, List.mem_map, List.mem_filter, mem_sortedPhases,
      decide_eq_true_eq, not_exists, not_and, and_imp]
    constructor
    · intro hnone phase hphase hid
      by_contra hmissing
      exact hnone phase hphase (hid ▸ hmissing) hid
    · rintro hall phase hphase hmissing rfl
      exact hmissing (hall phase hphase rfl)
  rw [Result.Reaches, hblocked]
  constructor
  · rintro ⟨hmem, hall⟩
    obtain ⟨phase, hphase, hid⟩ := List.mem_map.mp hmem
    exact hall phase hphase hid
  · intro hmem
    refine ⟨?_, fun _ _ _ => hmem⟩
    have hlfp := (hfollows.mem_added_run rfl h).mp hmem
    rw [← (rule m semantics).map_lfp] at hlfp
    obtain ⟨phase, hphase, rfl, -⟩ := hlfp
    exact List.mem_map_of_mem hphase

/-- The phases reached, under any reading. -/
def Reachable (m : Model) (semantics : Option JsString) (id : JsString) : Prop :=
  ∃ known, Semantics.ofName? (semantics.getD Semantics.p01ClosureSemanticsV1.name) = some known ∧
    id ∈ (rule m known).lfp

include hphases in
/-- The simulation reaches the phases that are reachable. -/
theorem reaches_iff {semantics : Option JsString} {fuel : ℕ} {r : Result}
    (h : simulateExecution m semantics fuel = some r) {id : JsString} :
    r.Reaches m id ↔ Reachable m semantics id := by
  unfold simulateExecution simulateNamed at h
  unfold Reachable
  cases hname : Semantics.ofName? (semantics.getD Semantics.p01ClosureSemanticsV1.name) with
  | none =>
    simp only [hname] at h
    obtain rfl := Option.some.inj h
    refine iff_of_false ?_ (by simp)
    rintro ⟨hmem, hblocked⟩
    obtain ⟨phase, hphase, rfl⟩ := List.mem_map.mp hmem
    exact hblocked (List.mem_map_of_mem (mem_sortedPhases.mpr hphase))
  | some known =>
    simp only [hname] at h
    obtain ⟨st, hst, rfl⟩ := Option.map_eq_some_iff.mp h
    simp [report_reaches_iff hphases hst]

include hphases in
/-- The simulator ends, under any reading. -/
theorem exists_simulateExecution (semantics : Option JsString) :
    ∃ r, ∀ fuel, m.phases.length < fuel → simulateExecution m semantics fuel = some r := by
  unfold simulateExecution simulateNamed
  cases Semantics.ofName? (semantics.getD Semantics.p01ClosureSemanticsV1.name) with
  | none => exact ⟨_, fun _ _ => rfl⟩
  | some known =>
    obtain ⟨st, hst⟩ := exists_run hphases known
    exact ⟨report m known st, fun fuel hfuel => congrArg (Option.map _) (hst fuel hfuel)⟩

/-! ## The order of phases and edges -/

/-- Phases are found alike in any order. -/
theorem phaseById_perm {phases phases' : List Phase} (h : (phases.map Phase.id).Nodup)
    (hperm : phases'.Perm phases) (id : JsString) :
    phaseById phases' id = phaseById phases id := by
  have h' : (phases'.map Phase.id).Nodup := (hperm.map Phase.id).nodup_iff.mpr h
  refine Option.ext fun phase => ?_
  rw [phaseById_eq_some_iff h', phaseById_eq_some_iff h, hperm.mem_iff]

/-- Edges are found alike in any order. -/
theorem edgeById_perm {edges edges' : List Edge} (h : (edges.map Edge.edgeId).Nodup)
    (hperm : edges'.Perm edges) (id : JsString) : edgeById edges' id = edgeById edges id := by
  have h' : (edges'.map Edge.edgeId).Nodup := (hperm.map Edge.edgeId).nodup_iff.mpr h
  refine Option.ext fun edge => ?_
  rw [edgeById_eq_some_iff h', edgeById_eq_some_iff h, hperm.mem_iff]

include hphases hedges in
/-- The rule does not depend on the order. -/
theorem rule_perm {m' : Model} (hpermPhases : m'.phases.Perm m.phases)
    (hpermEdges : m'.edges.Perm m.edges) (semantics : Semantics) :
    rule m' semantics = rule m semantics := by
  have hsorted : (sortedPhases m').Perm (sortedPhases m) :=
    ((List.perm_insertionSort _ _).trans hpermPhases).trans (List.perm_insertionSort _ _).symm
  have hcheck (phase : Phase) (id : JsString) :
      checkObligation m' phase id = checkObligation m phase id := by
    unfold checkObligation
    simp only [edgeById_perm hedges hpermEdges, phaseById_perm (nodup_sortedPhases hphases) hsorted]
  have hobligations (phase : Phase) : obligations m' phase = obligations m phase := by
    simp only [obligations, hcheck]
  have hobliges (phase : Phase) (id : JsString) (edge : Edge) :
      Obliges m' phase id edge ↔ Obliges m phase id edge := by
    rw [← checkObligation_eq_ok, ← checkObligation_eq_ok, hcheck]
  -- what enables a phase reads the edges by id and the phases by id
  have henabled (phase : Phase) (D : Set JsString) :
      Enabled m' semantics phase D ↔ Enabled m semantics phase D := by
    constructor
    · rintro ⟨hpredecessor, hsound, hdestinations⟩
      simp only [hobliges, hobligations] at hsound hdestinations
      exact ⟨hpredecessor, hsound, hdestinations⟩
    · rintro ⟨hpredecessor, hsound, hdestinations⟩
      simp only [← hobliges, ← hobligations] at hsound hdestinations
      exact ⟨hpredecessor, hsound, hdestinations⟩
  refine OrderHom.ext _ _ (funext fun D => Set.ext fun id => exists_congr fun phase => ?_)
  rw [hpermPhases.mem_iff, henabled]

/-- The historical reading admits no more than the corrected one. -/
theorem rule_historicalLiteral_le :
    rule m .historicalLiteral ≤ rule m .p01ClosureSemanticsV1 := by
  rintro D id ⟨phase, hphase, hid, henabled⟩
  exact ⟨phase, hphase, hid, henabled.predecessor, henabled.sound, nofun⟩

include hphases hedges in
/-- The simulation ends; after every visit its laws hold, and in its report every gap that was ever
closed is closed; the phases reached do not depend on the order of phases and edges, and the
historical reading reaches no phase that the corrected one does not. -/
theorem simulation_laws :
    (∀ semantics, ∃ r, ∀ fuel, m.phases.length < fuel →
      simulateExecution m semantics fuel = some r) ∧
    (∀ semantics rounds visits, Laws m ((loop m semantics).stateAt .initial rounds visits)) ∧
    (∀ semantics fuel r, simulateExecution m (some (Semantics.name semantics)) fuel = some r →
      ∃ rounds st, st = (loop m semantics).stateAt .initial rounds (sortedPhases m).length ∧
        r = report m semantics st ∧
        (∀ gap, (gap, .closed) ∈ r.gapStatusFinal →
          ∀ edge ∈ m.edges, edge.sourceGap = gap → edge.edgeId ∈ st.dischargedEdgeIds) ∧
        ∀ entry ∈ r.gapStatusAt, ∀ gap, (gap, .closed) ∈ entry.2 →
          (gap, .closed) ∈ r.gapStatusFinal) ∧
    (∀ m' : Model, m'.phases.Perm m.phases → m'.edges.Perm m.edges →
      ∀ semantics fuel fuel' r r', simulateExecution m semantics fuel = some r →
        simulateExecution m' semantics fuel' = some r' → ∀ id, r'.Reaches m' id ↔ r.Reaches m id) ∧
    ∀ fuel fuel' r r',
      simulateExecution m (some Semantics.historicalLiteral.name) fuel = some r →
      simulateExecution m (some Semantics.p01ClosureSemanticsV1.name) fuel' = some r' →
      ∀ id, r.Reaches m id → r'.Reaches m id := by
  refine ⟨exists_simulateExecution hphases, laws_stateAt hphases hedges, ?_, ?_, ?_⟩
  · intro semantics fuel r h
    rw [simulateExecution_name] at h
    obtain ⟨st, hst, rfl⟩ := Option.map_eq_some_iff.mp h
    obtain ⟨rounds, hat⟩ := Loop.exists_stateAt_of_run hst
    have hinv : Inv m st := hat ▸ inv_stateAt hedges rounds _
    exact ⟨rounds, st, hat, rfl, fun gap hclosed => (closed_mem_gapStatusSnapshot.mp hclosed).2,
      hinv.reported⟩
  · -- what is reached is the least fixed point of a rule that does not depend on the order
    intro m' hpermPhases hpermEdges semantics fuel fuel' r r' h h' id
    have hphases' : (m'.phases.map Phase.id).Nodup :=
      (hpermPhases.map Phase.id).nodup_iff.mpr hphases
    rw [reaches_iff hphases h, reaches_iff hphases' h', Reachable, Reachable]
    simp only [rule_perm hphases hedges hpermPhases hpermEdges]
  · intro fuel fuel' r r' h h' id hreaches
    rw [simulateExecution_name] at h h'
    obtain ⟨st, hst, rfl⟩ := Option.map_eq_some_iff.mp h
    obtain ⟨st', hst', rfl⟩ := Option.map_eq_some_iff.mp h'
    rw [report_reaches_iff hphases hst] at hreaches
    rw [report_reaches_iff hphases hst']
    exact OrderHom.lfp.monotone rule_historicalLiteral_le hreaches

/-- A model with a debt, while it is settled. -/
theorem simulation_laws_sample : (sampleModel.phases.map Phase.id).Nodup ∧
    Laws sampleModel ((loop sampleModel .p01ClosureSemanticsV1).stateAt .initial 0 1) := by
  have hphases : (sampleModel.phases.map Phase.id).Nodup := by decide
  have hedges : (sampleModel.edges.map Edge.edgeId).Nodup := by decide
  exact ⟨hphases, (simulation_laws hphases hedges).2.1 _ 0 1⟩

end Simulation

end MetaframerKernel.ClosureSemantics
