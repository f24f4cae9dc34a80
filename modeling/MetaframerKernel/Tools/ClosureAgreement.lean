import MetaframerKernel.Tools.ClosureSimulation

/-!
# Analyzer and simulator agree

A model in which the analyzer finds no violation, whose predecessors come earlier, runs to its end
under the corrected reading: the static checks rule out every way the run could be blocked or leave
an obligation open.

## Main definitions

* `WellOwned`: what a clean analysis says of a model.

## Main results

* `wellOwned_of_analysis`: a clean analysis says it;
* `simulation_of_analysis`: a clean model runs to its end.
-/

namespace MetaframerKernel.ClosureSemantics

open Js

/-! ## A clean analysis -/

/-- Every edge joins known phases as it is classified and is enumerated once, by its own phase. -/
structure WellOwned (m : Model) : Prop where
  edges : (m.edges.map Edge.edgeId).Nodup
  judged : ∀ edge ∈ m.edges, ∃ source destination,
    phaseById m.phases edge.sourcePhase = some source ∧
    phaseById m.phases edge.destinationPhase = some destination ∧
    ((edge.classification = intraAtomic ∧ destination.ordinal = source.ordinal) ∨
      (edge.classification = forwardDeferred ∧ source.ordinal < destination.ordinal))
  owned : ∀ phase ∈ m.phases, ∀ id ∈ phase.closureEdgeIds,
    ∃ edge ∈ m.edges, edge.edgeId = id ∧ edge.sourcePhase = phase.id
  complete : ∀ edge ∈ m.edges, edge.edgeId ∈ enumerated m
  once : (enumerated m).Nodup

/-- Only an empty list has nothing left without its duplicates. -/
theorem eraseDups_eq_nil {α : Type} [BEq α] {l : List α} : l.eraseDups = [] ↔ l = [] := by
  cases l with
  | nil => simp
  | cons a l => simp [List.eraseDups_cons]

/-- Without a finding of duplicates no two edges have one id. -/
theorem nodup_of_duplicateEdges {seen : List JsString} {edges : List Edge}
    (h : duplicateEdges seen edges = []) :
    (edges.map Edge.edgeId).Nodup ∧ ∀ edge ∈ edges, edge.edgeId ∉ seen := by
  induction edges generalizing seen with
  | nil => simp
  | cons edge edges ih =>
    rw [duplicateEdges, List.append_eq_nil_iff] at h
    obtain ⟨hnodup, hfresh⟩ := ih h.2
    have hseen : edge.edgeId ∉ seen := by
      intro hmem
      rw [if_pos hmem] at h
      cases h.1
    refine ⟨List.nodup_cons.mpr ⟨fun hmem => ?_, hnodup⟩, List.forall_mem_cons.mpr ⟨hseen, ?_⟩⟩
    · obtain ⟨edge', hedge', hid⟩ := List.mem_map.mp hmem
      exact hfresh edge' hedge' (hid ▸ List.mem_cons_self)
    · exact fun edge' hedge' hmem => hfresh edge' hedge' (List.mem_cons_of_mem _ hmem)

/-- Without a violation an edge goes as it is classified. -/
theorem classified_of_judgeOrdinals {edge : Edge} {source destination : Phase}
    (h : (judgeOrdinals edge source destination).violation? = none) :
    (edge.classification = intraAtomic ∧ destination.ordinal = source.ordinal) ∨
      (edge.classification = forwardDeferred ∧ source.ordinal < destination.ordinal) := by
  unfold judgeOrdinals at h
  by_cases hbackward : destination.ordinal < source.ordinal
  · rw [if_pos hbackward] at h
    cases h
  rw [if_neg hbackward] at h
  by_cases hclass : edge.classification =
      if destination.ordinal = source.ordinal then intraAtomic else forwardDeferred
  · by_cases hequal : destination.ordinal = source.ordinal
    · rw [if_pos hequal] at hclass
      exact .inl ⟨hclass, hequal⟩
    · rw [if_neg hequal] at hclass
      exact .inr ⟨hclass, by omega⟩
  · rw [if_pos hclass] at h
    cases h

/-- An edge without a violation joins known phases as it is classified. -/
theorem judged_of_judgeEdge {m : Model} {edge : Edge} (h : (judgeEdge m edge).violation? = none) :
    ∃ source destination, phaseById m.phases edge.sourcePhase = some source ∧
      phaseById m.phases edge.destinationPhase = some destination ∧
      ((edge.classification = intraAtomic ∧ destination.ordinal = source.ordinal) ∨
        (edge.classification = forwardDeferred ∧ source.ordinal < destination.ordinal)) := by
  unfold judgeEdge at h
  split at h
  · cases h
  · cases h
  unfold judgePhases at h
  split_ifs at h
  · cases h
  · cases h
  split at h
  · next source destination hsource hdestination =>
    exact ⟨source, destination, hsource, hdestination, classified_of_judgeOrdinals h⟩
  · cases h

/-- An enumerated id without a violation is that of an edge of the phase. -/
theorem owned_of_enumeratedViolation {m : Model} {phase : Phase} {id : JsString}
    (h : enumeratedViolation m phase id = none) :
    ∃ edge ∈ m.edges, edge.edgeId = id ∧ edge.sourcePhase = phase.id := by
  unfold enumeratedViolation at h
  split at h
  · cases h
  · next edge hfind =>
    split_ifs at h with howner
    have hid : decide (edge.edgeId = id) = true :=
      List.find?_some (p := fun candidate : Edge => decide (candidate.edgeId = id)) hfind
    exact ⟨edge, List.mem_of_find?_eq_some hfind, of_decide_eq_true hid, not_not.mp howner⟩

/-- What a clean analysis says of a model. -/
theorem wellOwned_of_analysis {m : Model} (h : (analyzeClosureGraph m).violations = []) :
    WellOwned m := by
  simp only [analyzeClosureGraph, eraseDups_eq_nil, List.append_eq_nil_iff] at h
  obtain ⟨⟨⟨⟨hduplicate, hjudged⟩, henumeration⟩, hmissing⟩, honce⟩ := h
  refine ⟨(nodup_of_duplicateEdges hduplicate).1, fun edge hedge => ?_, fun phase hphase id hid =>
    ?_,
    fun edge hedge => ?_, ?_⟩
  · exact judged_of_judgeEdge (List.filterMap_eq_nil_iff.mp hjudged edge hedge)
  · have hphase := List.flatMap_eq_nil_iff.mp henumeration phase hphase
    rw [enumerationViolations, List.append_eq_nil_iff] at hphase
    exact owned_of_enumeratedViolation (List.filterMap_eq_nil_iff.mp hphase.1 id hid)
  · rw [List.map_eq_nil_iff, List.filter_eq_nil_iff] at hmissing
    have hmem : edge.edgeId ∈ accepted m := List.mem_eraseDups.mpr (List.mem_map_of_mem hedge)
    have hlisted := hmissing edge.edgeId hmem
    rwa [decide_eq_true_eq, not_not] at hlisted
  · split_ifs at honce with hlength
    rw [not_not] at hlength
    have hdedup : (enumerated m).dedup = enumerated m :=
      (List.dedup_sublist _).eq_of_length hlength.symm
    exact hdedup ▸ List.nodup_dedup _

/-! ## Every phase is reached -/

section Agreement

variable {m : Model} (hphases : (m.phases.map Phase.id).Nodup)

include hphases in
/-- The obligations of a phase pass their checks. -/
theorem WellOwned.obliges (h : WellOwned m) {phase : Phase} (hphase : phase ∈ m.phases)
    {id : JsString} (hid : id ∈ phase.closureEdgeIds) : ∃ edge, Obliges m phase id edge := by
  obtain ⟨edge, hedge, hedgeId, howner⟩ := h.owned phase hphase id hid
  obtain ⟨source, destination, hsource, hdestination, hclass⟩ := h.judged edge hedge
  have hsame : source = phase := by
    rw [howner, (phaseById_eq_some_iff hphases).mpr ⟨hphase, rfl⟩] at hsource
    exact (Option.some.inj hsource).symm
  subst hsame
  refine ⟨edge, (edgeById_eq_some_iff h.edges).mpr ⟨hedge, hedgeId⟩, howner, destination, ?_,
    hclass⟩
  rw [← hdestination]
  exact phaseById_perm hphases (List.perm_insertionSort _ _) _

/-- With predecessors that come earlier, the rule forces every phase. -/
theorem mem_lfp_of_sound
    (hpredecessors : ∀ phase ∈ m.phases, ∀ p ∈ phase.predecessor,
      ∃ earlier ∈ m.phases, earlier.id = p ∧ earlier.ordinal < phase.ordinal)
    (hsound : ∀ phase ∈ m.phases, ∀ id ∈ phase.closureEdgeIds, ∃ edge, Obliges m phase id edge)
    {phase : Phase} (hphase : phase ∈ m.phases) :
    phase.id ∈ (rule m .p01ClosureSemanticsV1).lfp := by
  classical
  by_contra hnot
  -- of the phases that are not forced, take one of least ordinal
  let missing := m.phases.toFinset.filter fun phase =>
    phase.id ∉ (rule m .p01ClosureSemanticsV1).lfp
  have hmissing : missing.Nonempty :=
    ⟨phase, Finset.mem_filter.mpr ⟨List.mem_toFinset.mpr hphase, hnot⟩⟩
  obtain ⟨least, hleast, hmin⟩ := missing.exists_min_image Phase.ordinal hmissing
  obtain ⟨hmem, hforced⟩ := Finset.mem_filter.mp hleast
  rw [List.mem_toFinset] at hmem
  apply hforced
  rw [← (rule m .p01ClosureSemanticsV1).map_lfp]
  refine ⟨least, hmem, rfl, fun p hp => ?_, hsound least hmem, nofun⟩
  obtain ⟨earlier, hearlier, rfl, hordinal⟩ := hpredecessors least hmem p hp
  by_contra hp
  have hle := hmin earlier (Finset.mem_filter.mpr ⟨List.mem_toFinset.mpr hearlier, hp⟩)
  omega

/-! ## Every obligation is tracked -/

/-- The edges discharged and the edges owed. -/
def State.tracked (st : State) : List JsString := st.dischargeRecords ++ st.openDebts.map Prod.fst

/-- The edges that phases enumerate, by phase id. -/
def obligedBy (m : Model) (ids : List JsString) : List JsString :=
  ids.flatMap fun id => ((phaseById m.phases id).map Phase.closureEdgeIds).getD []

/-- Settling a fresh obligation tracks it. -/
theorem tracked_settle {phase : Phase} {st : State} {edge : Edge}
    (hfresh : edge.edgeId ∉ st.tracked) :
    (settle phase st edge).tracked.Perm (st.tracked ++ [edge.edgeId]) := by
  unfold settle
  split
  · simp only [State.tracked, State.dischargeRecords, List.map_append, List.map_cons, List.map_nil,
      List.append_assoc]
    refine List.Perm.append_left _ ?_
    rw [← List.append_assoc (List.map DischargeTiming.edgeId st.dischargeTimings)]
    exact List.perm_append_comm
  · have hkey : edge.edgeId ∉ st.openDebts.map Prod.fst := fun hmem =>
      hfresh (List.mem_append_right _ hmem)
    rw [State.tracked, putMember_of_fresh hkey, List.map_append, ← List.append_assoc]
    exact List.Perm.refl _

/-- Settling edges tracks each of them once. -/
theorem tracked_foldl_settle {phase : Phase} {l : List Edge} {st : State}
    (h : (st.tracked ++ l.map Edge.edgeId).Nodup) :
    (l.foldl (settle phase) st).tracked.Perm (st.tracked ++ l.map Edge.edgeId) := by
  induction l generalizing st with
  | nil => simp
  | cons edge l ih =>
    have hsplit : st.tracked ++ (edge :: l).map Edge.edgeId =
        (st.tracked ++ [edge.edgeId]) ++ l.map Edge.edgeId := by simp
    rw [hsplit] at h ⊢
    have hfresh : edge.edgeId ∉ st.tracked := by
      have hleft := (List.nodup_append.mp h).1
      exact fun hmem => (List.nodup_append.mp hleft).2.2 _ hmem _ List.mem_cons_self rfl
    have hsettle := @tracked_settle phase _ _ hfresh
    have hrest := hsettle.append_right (l.map Edge.edgeId)
    exact (ih (hrest.nodup_iff.mpr h)).trans hrest

/-- Discharging a debt keeps it tracked. -/
theorem tracked_dischargeReadyDebts (receipt : Option JsString) (st : State) :
    (dischargeReadyDebts receipt st).tracked.Perm st.tracked := by
  have hsplit := (List.filter_append_perm
    (fun p : JsString × Debt => decide (p.2.destinationPhase ∈ st.issuedIds)) st.openDebts).map
      Prod.fst
  rw [List.map_append] at hsplit
  simp only [State.tracked, State.dischargeRecords, dischargeReadyDebts, List.map_append,
    List.map_map, List.append_assoc]
  refine List.Perm.append_left _ (List.Perm.append_left _ ?_)
  simpa [Function.comp_def, timingOf] using hsplit

/-- A phase is obliged by the edges it names. -/
theorem map_edgeId_obligations (hedges : (m.edges.map Edge.edgeId).Nodup) {phase : Phase}
    (hsound : ∀ id ∈ phase.closureEdgeIds, ∃ edge, Obliges m phase id edge) :
    (obligations m phase).map Edge.edgeId = phase.closureEdgeIds := by
  have hids (l : List JsString) (hl : ∀ id ∈ l, ∃ edge, Obliges m phase id edge) :
      (l.filterMap fun id => (checkObligation m phase id).toOption).map Edge.edgeId = l := by
    induction l with
    | nil => rfl
    | cons id l ih =>
      obtain ⟨⟨edge, hobliges⟩, hrest⟩ := List.forall_mem_cons.mp hl
      have hid : edge.edgeId = id := ((edgeById_eq_some_iff hedges).mp hobliges.found).2
      rw [List.filterMap_cons, checkObligation_eq_ok.mpr hobliges]
      change edge.edgeId :: _ = _
      rw [ih hrest, hid]
  exact hids _ hsound

include hphases in
/-- Distinct phases enumerate distinct edges. -/
theorem nodup_obligedBy (honce : (enumerated m).Nodup) {ids : List JsString} (hids : ids.Nodup)
    (hknown : ids ⊆ m.phases.map Phase.id) : (obligedBy m ids).Nodup := by
  have hread {id : JsString} (hid : id ∈ ids) : ∃ phase ∈ m.phases, phase.id = id ∧
      ((phaseById m.phases id).map Phase.closureEdgeIds).getD [] = phase.closureEdgeIds := by
    obtain ⟨phase, hphase, rfl⟩ := List.mem_map.mp (hknown hid)
    refine ⟨phase, hphase, rfl, ?_⟩
    rw [(phaseById_eq_some_iff hphases).mpr ⟨hphase, rfl⟩]
    rfl
  -- no edge is enumerated twice, by one phase or by two
  obtain ⟨heach, hdisjoint⟩ := List.nodup_flatMap.mp honce
  refine List.nodup_flatMap.mpr ⟨fun id hid => ?_, ?_⟩
  · obtain ⟨phase, hphase, -, hread⟩ := hread hid
    rw [hread]
    exact heach phase hphase
  · refine hids.imp_of_mem fun {a b} ha hb hne => ?_
    obtain ⟨phase, hphase, rfl, hreadA⟩ := hread ha
    obtain ⟨phase', hphase', rfl, hreadB⟩ := hread hb
    have hsymm : Std.Symm (Function.onFun List.Disjoint Phase.closureEdgeIds) :=
      ⟨fun _ _ h => h.symm⟩
    have hneq : phase ≠ phase' := fun heq => hne (congrArg Phase.id heq)
    rw [Function.onFun, hreadA, hreadB]
    exact hdisjoint.forall hphase hphase' hneq

/-- The run of a clean model: nothing is refused, open debts wait for phases not yet reached, and
every edge of a phase reached is either discharged or owed. -/
structure Clean (m : Model) (st : State) : Prop where
  nodup : st.issuedIds.Nodup
  known : st.issuedIds ⊆ m.phases.map Phase.id
  violations : st.violations = []
  waiting : ∀ p ∈ st.openDebts, p.2.destinationPhase ∉ st.issuedIds
  tracked : st.tracked.Perm (obligedBy m st.issuedIds)

/-- Settling an edge is no violation. -/
theorem settle_violations {phase : Phase} (st : State) (edge : Edge) :
    (settle phase st edge).violations = st.violations := by
  unfold settle
  split <;> rfl

include hphases in
/-- Reaching a phase of a clean model. -/
theorem Clean.reach (hown : WellOwned m) {st : State} (h : Clean m st) {phase : Phase}
    (hphase : phase ∈ m.phases) (hfresh : phase.id ∉ st.issuedIds) :
    Clean m (reach m .p01ClosureSemanticsV1 phase st) := by
  have hids : (ClosureSemantics.reach m .p01ClosureSemanticsV1 phase st).issuedIds =
      st.issuedIds ++ [phase.id] := reach_issuedIds
  have hsound : ∀ id ∈ phase.closureEdgeIds, ∃ edge, Obliges m phase id edge :=
    fun id hid => hown.obliges hphases hphase hid
  have hnodup : (st.issuedIds ++ [phase.id]).Nodup :=
    List.nodup_append.mpr ⟨h.nodup, List.nodup_singleton _, fun a ha b hb hab =>
      hfresh ((hab.trans (List.mem_singleton.mp hb)) ▸ ha)⟩
  have hknown : st.issuedIds ++ [phase.id] ⊆ m.phases.map Phase.id :=
    List.append_subset.mpr ⟨h.known, List.cons_subset.mpr
      ⟨List.mem_map_of_mem hphase, List.nil_subset _⟩⟩
  -- the edges to settle are those of the phases issued so far, and each is settled once
  have hobliged : obligedBy m (st.issuedIds ++ [phase.id]) =
      obligedBy m st.issuedIds ++ phase.closureEdgeIds := by
    simp [obligedBy, (phaseById_eq_some_iff hphases).mpr ⟨hphase, rfl⟩]
  refine ⟨hids ▸ hnodup, hids ▸ hknown, ?_, fun p hp => ?_, ?_⟩
  · refine (foldl_settle_frame State.violations settle_violations (obligations m phase) _).trans ?_
    simp [issue, admitPhase, h.violations, structuralViolations_eq_nil.mpr hsound]
  · rw [hids]
    have hwaiting := of_decide_eq_true (List.mem_filter.mp hp).2
    have hsame : (recordDebts m phase ((obligations m phase).foldl (settle phase)
        (issue phase (admitPhase m phase st)))).issuedIds = st.issuedIds ++ [phase.id] := by
      rw [← hids]
      rfl
    rwa [hsame] at hwaiting
  · rw [hids, hobliged]
    have hstart : (issue phase (admitPhase m phase st)).tracked = st.tracked := rfl
    have hedgeIds := map_edgeId_obligations hown.edges hsound
    have hperm : (st.tracked ++ phase.closureEdgeIds).Perm
        (obligedBy m st.issuedIds ++ phase.closureEdgeIds) := h.tracked.append_right _
    have hfresh : ((issue phase (admitPhase m phase st)).tracked ++
        (obligations m phase).map Edge.edgeId).Nodup := by
      rw [hstart, hedgeIds, hperm.nodup_iff, ← hobliged]
      exact nodup_obligedBy hphases hown.once hnodup hknown
    have hsettle := @tracked_foldl_settle phase _ _ hfresh
    rw [hstart, hedgeIds] at hsettle
    exact ((tracked_dischargeReadyDebts phase.receiptId _).trans hsettle).trans hperm

include hphases in
/-- A visit of a phase stays clean. -/
theorem Clean.visit (hown : WellOwned m) {st : State} (h : Clean m st) {phase : Phase}
    (hphase : phase ∈ m.phases) : Clean m (visit m .p01ClosureSemanticsV1 st phase) := by
  rcases visit_cases m .p01ClosureSemanticsV1 phase st with
    ⟨hvisit, -⟩ | ⟨hvisit, -⟩ | ⟨hvisit, hfresh, -⟩
  · rwa [hvisit]
  · rw [hvisit]
    have hsound : ∀ id ∈ phase.closureEdgeIds, ∃ edge, Obliges m phase id edge :=
      fun id hid => hown.obliges hphases hphase hid
    refine ⟨h.nodup, h.known, ?_, h.waiting, h.tracked⟩
    simp [admitPhase, h.violations, structuralViolations_eq_nil.mpr hsound]
  · rw [hvisit]
    exact h.reach hphases hown hphase hfresh

include hphases in
/-- The last state of a clean model is clean. -/
theorem clean_of_run (hown : WellOwned m) {fuel : ℕ} {st : State}
    (h : (loop m .p01ClosureSemanticsV1).run fuel .initial = some st) : Clean m st := by
  obtain ⟨rounds, rfl⟩ := Loop.exists_stateAt_of_run h
  refine Loop.stateAt_induct (P := Clean m) (fun st h => ⟨h.1, h.2, h.3, h.4, h.5⟩)
    (fun st phase hphase h => h.visit hphases hown (mem_sortedPhases.mp hphase)) ?_ rounds _
  exact ⟨List.nodup_nil, List.nil_subset _, rfl, fun _ hp => (nomatch hp), List.Perm.refl _⟩

/-! ## The whole run -/

/-- A phase that is reported as reached has been issued. -/
theorem mem_issuedIds_of_reaches {semantics : Semantics} {st : State} {id : JsString}
    (h : (report m semantics st).Reaches m id) : id ∈ st.issuedIds := by
  obtain ⟨hmem, hblocked⟩ := h
  obtain ⟨phase, hphase, rfl⟩ := List.mem_map.mp hmem
  by_contra hmissing
  refine hblocked (List.mem_map_of_mem (List.mem_filter.mpr ⟨mem_sortedPhases.mpr hphase, ?_⟩))
  exact decide_eq_true hmissing

include hphases in
/-- Every enumerated edge is owed by some phase. -/
theorem mem_obligedBy {ids : List JsString} (hids : ∀ phase ∈ m.phases, phase.id ∈ ids)
    {id : JsString} (h : id ∈ enumerated m) : id ∈ obligedBy m ids := by
  obtain ⟨phase, hphase, hid⟩ := List.mem_flatMap.mp h
  refine List.mem_flatMap.mpr ⟨phase.id, hids phase hphase, ?_⟩
  rwa [(phaseById_eq_some_iff hphases).mpr ⟨hphase, rfl⟩]

include hphases in
/-- A model without violations, whose predecessors come earlier, runs to its end under the corrected
reading: every phase is reached, nothing is refused, no debt stays open, every edge is discharged
exactly once and every gap with an edge is closed. -/
theorem simulation_of_analysis (hpredecessors : ∀ phase ∈ m.phases, ∀ p ∈ phase.predecessor,
      ∃ earlier ∈ m.phases, earlier.id = p ∧ earlier.ordinal < phase.ordinal)
    (hanalysis : (analyzeClosureGraph m).violations = []) :
    ∃ r, (∀ fuel, m.phases.length < fuel →
        simulateExecution m (some Semantics.p01ClosureSemanticsV1.name) fuel = some r) ∧
      (∀ phase ∈ m.phases, r.Reaches m phase.id) ∧ r.blockedPhases = [] ∧ r.violations = [] ∧
      r.forwardDebts = [] ∧
      (∀ edge ∈ m.edges, (r.intraDischarges.map IntraDischarge.edgeId ++
        r.dischargeTimings.map DischargeTiming.edgeId).count edge.edgeId = 1) ∧
      ∀ edge ∈ m.edges, (edge.sourceGap, .closed) ∈ r.gapStatusFinal := by
  have hown := wellOwned_of_analysis hanalysis
  obtain ⟨st, hst⟩ := exists_run hphases .p01ClosureSemanticsV1
  have hlast := hst (m.phases.length + 1) (Nat.lt_succ_self _)
  have hclean : Clean m st := clean_of_run hphases hown hlast
  have hinv : Inv m st := by
    obtain ⟨rounds, hat⟩ := Loop.exists_stateAt_of_run hlast
    exact hat ▸ inv_stateAt hown.edges rounds _
  have hreached : ∀ phase ∈ m.phases, (report m .p01ClosureSemanticsV1 st).Reaches m phase.id :=
    fun phase hphase => (report_reaches_iff hphases hlast).mpr (mem_lfp_of_sound hpredecessors
      (fun phase hphase id hid => hown.obliges hphases hphase hid) hphase)
  have hissued : ∀ phase ∈ m.phases, phase.id ∈ st.issuedIds :=
    fun phase hphase => mem_issuedIds_of_reaches (hreached phase hphase)
  have hknown {id : JsString} {phase : Phase} (h : phaseById m.phases id = some phase) :
      id ∈ st.issuedIds := by
    obtain ⟨hphase, rfl⟩ := (phaseById_eq_some_iff hphases).mp h
    exact hissued phase hphase
  have hdebts : st.openDebts = [] := by
    refine List.eq_nil_iff_forall_not_mem.mpr fun p hp => ?_
    obtain ⟨edge, hedge, -, hsame⟩ := hinv.debts p hp
    obtain ⟨hedge, -⟩ := (edgeById_eq_some_iff hown.edges).mp hedge
    obtain ⟨-, destination, -, hdestination, -⟩ := hown.judged edge hedge
    -- a debt that is open waits for a phase of the model
    apply hclean.waiting p hp
    rw [hsame]
    exact hknown hdestination
  have hdischarges : ∀ edge ∈ m.edges, st.dischargeRecords.count edge.edgeId = 1 := by
    intro edge hedge
    have htracked : st.dischargeRecords.Perm (obligedBy m st.issuedIds) := by
      have h := hclean.tracked
      rwa [State.tracked, hdebts, List.map_nil, List.append_nil] at h
    rw [htracked.count_eq]
    exact List.count_eq_one_of_mem (nodup_obligedBy hphases hown.once hclean.nodup hclean.known)
      (mem_obligedBy hphases hissued (hown.complete edge hedge))
  refine ⟨report m .p01ClosureSemanticsV1 st, fun fuel hfuel => ?_, hreached, ?_, ?_, ?_,
    hdischarges, fun edge hedge => ?_⟩
  · rw [simulateExecution_name, hst fuel hfuel]
    rfl
  · simp only [report, blockedPhases, List.map_eq_nil_iff, List.filter_eq_nil_iff,
      mem_sortedPhases, decide_eq_true_eq, not_not]
    exact hissued
  · simp [report, hclean.violations]
  · simp [report, hdebts]
  · refine closed_mem_gapStatusSnapshot.mpr ⟨⟨edge, hedge, rfl⟩, fun edge' hedge' _ => ?_⟩
    rw [hinv.records, ← List.count_pos_iff, hdischarges edge' hedge']
    exact Nat.one_pos

/-- A model with a debt runs to its end. -/
theorem simulation_of_analysis_sample : (analyzeClosureGraph sampleModel).violations = [] ∧
    ∃ r, simulateExecution sampleModel (some Semantics.p01ClosureSemanticsV1.name) 3 = some r ∧
      r.blockedPhases = [] ∧ r.forwardDebts = [] := by
  have hanalysis : (analyzeClosureGraph sampleModel).violations = [] := by decide +kernel
  obtain ⟨r, hr, -, hblocked, -, hdebts, -⟩ := simulation_of_analysis (m := sampleModel) (by decide)
    (by decide) hanalysis
  exact ⟨hanalysis, r, hr 3 (by decide), hblocked, hdebts⟩

end Agreement

end MetaframerKernel.ClosureSemantics
