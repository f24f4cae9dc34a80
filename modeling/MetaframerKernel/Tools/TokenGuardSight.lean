import MetaframerKernel.Tools.TokenGuard

/-!
# Losing sight of a registry

An evaluator that cannot see its registry escalates wherever it would have had something to say. So
facts with fewer registries in sight are judged at least as strictly, up to what a registry alone
can settle: a refusal needs a registry to rest on.

## Main definitions

* `Dimmed`: findings made with less in sight;
* `Blinded`: facts with less in sight.

## Main results

* `decide_of_blinded`: a decision with less in sight.
-/

namespace MetaframerKernel.TokenGuard

open Js

/-! ## Findings with less in sight -/

/-- A finding that keeps the decision from `PASS`. -/
def Finding.Stops (f : Finding) : Prop := f.decision = .deny ∨ f.decision = .escalate

/-- Findings made with less in sight: no new refusal, and something that stops where there was
something before. -/
structure Dimmed (fs fs' : List Finding) : Prop where
  denied : ∀ f ∈ fs', f.decision = .deny → f ∈ fs
  stopped : (∃ f ∈ fs, f.Stops) → ∃ f ∈ fs', f.Stops

/-- Findings are a dimmed form of themselves. -/
theorem Dimmed.refl (fs : List Finding) : Dimmed fs fs := ⟨fun _ hf _ => hf, id⟩

/-- Lists of findings are dimmed part by part. -/
theorem Dimmed.append {fs fs' gs gs' : List Finding} (hf : Dimmed fs fs') (hg : Dimmed gs gs') :
    Dimmed (fs ++ gs) (fs' ++ gs') where
  denied f hmem hdeny := by
    rcases List.mem_append.mp hmem with hmem | hmem
    · exact List.mem_append_left _ (hf.denied f hmem hdeny)
    · exact List.mem_append_right _ (hg.denied f hmem hdeny)
  stopped := by
    rintro ⟨f, hmem, hstops⟩
    rcases List.mem_append.mp hmem with hmem | hmem
    · obtain ⟨f', hmem', hstops'⟩ := hf.stopped ⟨f, hmem, hstops⟩
      exact ⟨f', List.mem_append_left _ hmem', hstops'⟩
    · obtain ⟨f', hmem', hstops'⟩ := hg.stopped ⟨f, hmem, hstops⟩
      exact ⟨f', List.mem_append_right _ hmem', hstops'⟩

/-- Lists of lists are dimmed list by list. -/
theorem Dimmed.flatten {l l' : List (List Finding)} (h : List.Forall₂ Dimmed l l') :
    Dimmed l.flatten l'.flatten := by
  induction h with
  | nil => exact Dimmed.refl []
  | cons hfs _ ih =>
    rw [List.flatten_cons, List.flatten_cons]
    exact hfs.append ih

/-- Findings that escalate and refuse nothing are less in sight than any. -/
theorem dimmed_of_escalates {fs fs' : List Finding} (hdeny : ∀ f ∈ fs', f.decision ≠ .deny)
    (hescalates : ∃ f ∈ fs', f.decision = .escalate) : Dimmed fs fs' where
  denied f hf hdenied := absurd hdenied (hdeny f hf)
  stopped _ := by
    obtain ⟨f, hf, hescalate⟩ := hescalates
    exact ⟨f, hf, .inr hescalate⟩

/-- One finding that escalates. -/
theorem dimmed_singleton {fs : List Finding} {f : Finding} (h : f.decision = .escalate) :
    Dimmed fs [f] := by
  refine dimmed_of_escalates ?_ ⟨f, List.mem_singleton_self f, h⟩
  rintro f' hf' hdeny
  obtain rfl := List.mem_singleton.mp hf'
  rw [h] at hdeny
  cases hdeny

/-! ## Evaluations with less in sight -/

/-- An evaluation with less in sight: it returns when the other does, with less in sight. -/
def Dims (x x' : Except NativeError (List Finding)) : Prop :=
  ∀ fs, x = .ok fs → ∃ fs', x' = .ok fs' ∧ Dimmed fs fs'

/-- An evaluation is a dimmed form of itself. -/
theorem Dims.refl (x : Except NativeError (List Finding)) : Dims x x :=
  fun fs h => ⟨fs, h, Dimmed.refl fs⟩

/-- What both evaluations read alike. -/
theorem Dims.bind {α : Type} (x : Except NativeError α)
    {f f' : α → Except NativeError (List Finding)} (h : ∀ a, x = .ok a → Dims (f a) (f' a)) :
    Dims (x >>= f) (x >>= f') := by
  intro fs hfs
  obtain ⟨a, ha, hfs⟩ := bind_eq_ok.mp hfs
  obtain ⟨fs', hfs', hdimmed⟩ := h a ha fs hfs
  exact ⟨fs', bind_eq_ok.mpr ⟨a, ha, hfs'⟩, hdimmed⟩

/-- A test both evaluations make alike. -/
theorem Dims.ite {c : Prop} [Decidable c] (x : Except NativeError (List Finding))
    {y y' : Except NativeError (List Finding)} (h : Dims y y') :
    Dims (if c then x else y) (if c then x else y') := by
  split
  · exact Dims.refl x
  · exact h

/-- A registry that is out of sight, or is as it was. -/
def OutOfSight (registry registry' : Option Json) : Prop :=
  registry' = registry ∨ Json.isArray registry' = false

/-- Out of sight, a registry is not evaluated. -/
theorem observing_of_not_array {registry : Option Json} (h : Json.isArray registry = false)
    (unseen : List Finding) (evaluate : List Json → Except NativeError (List Finding)) :
    observing registry unseen evaluate = .ok unseen := by
  unfold observing
  split
  · cases h
  · rfl

/-- The evaluation of a registry that may have gone out of sight. -/
theorem dims_observing {registry registry' : Option Json} (hsight : OutOfSight registry registry')
    (id name gate : String) {evaluate evaluate' : List Json → Except NativeError (List Finding)}
    (h : ∀ l, Dims (evaluate l) (evaluate' l)) :
    Dims (observing registry (unobserved id name gate) evaluate)
      (observing registry' (unobserved id name gate) evaluate') := by
  rcases hsight with rfl | hnot
  · unfold observing
    split
    · exact h _
    · exact Dims.refl _
  · rw [observing_of_not_array hnot]
    exact fun fs _ => ⟨_, rfl, dimmed_singleton rfl⟩

/-! ## Facts with less in sight -/

/-- Facts with less in sight. -/
structure Blinded (facts facts' : Facts) : Prop where
  requested : facts'.requested = facts.requested
  gates : facts'.gates = facts.gates
  liveWorkers : OutOfSight facts.liveWorkers facts'.liveWorkers
  alreadyRead : OutOfSight facts.alreadyRead facts'.alreadyRead
  activeWriters : OutOfSight facts.activeWriters facts'.activeWriters
  worktrees : OutOfSight facts.worktrees facts'.worktrees
  reviews : OutOfSight facts.reviews facts'.reviews
  panels : OutOfSight facts.panels facts'.panels
  guardian : facts'.guardian = facts.guardian ∨ facts'.guardian = some .null
  currentSnapshot : facts'.currentSnapshot = facts.currentSnapshot ∨
    Json.isString facts'.currentSnapshot = false

section Evaluators

variable {facts facts' : Facts}

/-- Blinded facts keep the request. -/
theorem Blinded.request_eq (h : Blinded facts facts') : facts'.request = facts.request := by
  rw [Facts.request, Facts.request, h.requested]

/-- Blinded facts dim the gate of duplicate workers. -/
theorem dims_duplicateWorker (h : Blinded facts facts') :
    Dims (evaluateDuplicateWorker facts) (evaluateDuplicateWorker facts') := by
  unfold evaluateDuplicateWorker
  rw [h.request_eq]
  refine Dims.bind _ fun signature _ => Dims.ite _ ?_
  exact dims_observing h.liveWorkers _ _ _ fun l => Dims.refl _

/-- Blinded facts dim the gate of duplicate file reads. -/
theorem dims_duplicateFileRead (h : Blinded facts facts') :
    Dims (evaluateDuplicateFileRead facts) (evaluateDuplicateFileRead facts') := by
  unfold evaluateDuplicateFileRead
  rw [h.request_eq]
  refine Dims.bind _ fun path _ => Dims.ite _ ?_
  refine Dims.bind _ fun sha256 _ => Dims.ite _ ?_
  exact dims_observing h.alreadyRead _ _ _ fun l => Dims.refl _

/-- Blinded facts dim the gate of writer ownership. -/
theorem dims_writerOwnership (h : Blinded facts facts') :
    Dims (evaluateWriterOwnership facts) (evaluateWriterOwnership facts') := by
  unfold evaluateWriterOwnership
  rw [h.request_eq]
  refine Dims.bind _ fun changePackage _ => Dims.ite _ ?_
  exact dims_observing h.activeWriters _ _ _ fun l => Dims.refl _

/-- Blinded facts dim the gate of dirty snapshots. -/
theorem dims_dirtySnapshot (h : Blinded facts facts') :
    Dims (evaluateDirtySnapshot facts) (evaluateDirtySnapshot facts') := by
  unfold evaluateDirtySnapshot
  rw [h.request_eq]
  refine Dims.bind _ fun worktree _ => Dims.ite _ ?_
  refine Dims.bind _ fun role _ => Dims.ite _ (Dims.ite _ ?_)
  exact dims_observing h.worktrees _ _ _ fun l => Dims.refl _

/-- Blinded facts dim the gate of branches and worktrees. -/
theorem dims_branchWorktreeCollision (h : Blinded facts facts') :
    Dims (evaluateBranchWorktreeCollision facts) (evaluateBranchWorktreeCollision facts') := by
  unfold evaluateBranchWorktreeCollision
  rw [h.request_eq]
  refine Dims.bind _ fun branch _ => Dims.ite _ ?_
  exact dims_observing h.worktrees _ _ _ fun l => Dims.refl _

/-- Blinded facts dim the gate of guardian admission. -/
theorem dims_guardianAdmission (h : Blinded facts facts') :
    Dims (evaluateGuardianAdmission facts) (evaluateGuardianAdmission facts') := by
  unfold evaluateGuardianAdmission
  rw [h.request_eq]
  refine Dims.bind _ fun opensWorker _ => Dims.ite _ ?_
  rcases h.guardian with heq | hnull
  · rw [heq]
    exact Dims.refl _
  · rw [hnull]
    exact fun fs _ => ⟨_, rfl, dimmed_singleton rfl⟩

/-- What is found passes the test. -/
theorem test_of_findM {test : Json → Except NativeError Bool} {l : List Json} {v : Json}
    (h : findM test l = .ok (some v)) : test v = .ok true := by
  induction l with
  | nil => cases h
  | cons w l ih =>
    obtain ⟨passes, htest, h⟩ := bind_eq_ok.mp h
    cases passes with
    | true =>
      obtain rfl := Option.some.inj (Except.ok.inj h)
      exact htest
    | false => exact ih h

/-- Blinded facts dim the gate of stale reviews. -/
theorem dims_staleReview (h : Blinded facts facts') :
    Dims (evaluateStaleReview facts) (evaluateStaleReview facts') := by
  unfold evaluateStaleReview
  rw [h.request_eq]
  refine Dims.bind _ fun useReviewFrom _ => Dims.ite _ ?_
  refine dims_observing h.reviews _ _ _ fun reviews => Dims.bind _ fun found hfound => ?_
  cases found with
  | none => exact Dims.refl _
  | some review =>
    rcases h.currentSnapshot with heq | hnot
    · rw [heq]
      exact Dims.refl _
    · -- the snapshot of the tree is out of sight, so the review cannot be verified
      obtain ⟨id, hid, hsame⟩ := bind_eq_ok.mp (test_of_findM hfound)
      obtain ⟨text, htext⟩ := Json.exists_templateText_of_strictEq (Except.ok.inj hsame)
      refine Dims.bind _ fun snapshot _ => ?_
      rw [hnot, Bool.not_false, Bool.or_true, if_pos rfl, hid]
      intro fs _
      refine ⟨_, bind_eq_ok.mpr ⟨_, rfl, bind_eq_ok.mpr ⟨text, htext, rfl⟩⟩, dimmed_singleton rfl⟩

/-- Blinded facts dim the gate of promotions. -/
theorem dims_promotionGate (h : Blinded facts facts') :
    Dims (evaluatePromotionGate facts) (evaluatePromotionGate facts') := by
  unfold evaluatePromotionGate
  rw [h.request_eq, h.gates]
  exact Dims.refl _

/-- The cleanup of panels advises only. -/
theorem advise_of_mem_completedPanelCleanup {fs : List Finding} {f : Finding}
    (h : evaluateCompletedPanelCleanup facts = .ok fs) (hf : f ∈ fs) : f.decision = .advise := by
  unfold evaluateCompletedPanelCleanup observing at h
  split at h
  · obtain ⟨leaked, -, h⟩ := bind_eq_ok.mp h
    split at h
    · obtain rfl := Except.ok.inj h
      cases hf
    · obtain ⟨panelIds, -, h⟩ := bind_eq_ok.mp h
      obtain ⟨texts, -, h⟩ := bind_eq_ok.mp h
      obtain rfl := Except.ok.inj h
      obtain rfl := List.mem_singleton.mp hf
      rfl
  · obtain rfl := Except.ok.inj h
    obtain rfl := List.mem_singleton.mp hf
    rfl

/-- Blinded facts dim the gate of completed panels. -/
theorem dims_completedPanelCleanup (h : Blinded facts facts') :
    Dims (evaluateCompletedPanelCleanup facts) (evaluateCompletedPanelCleanup facts') := by
  intro fs hfs
  obtain ⟨fs', hfs'⟩ : ∃ fs', evaluateCompletedPanelCleanup facts' = .ok fs' := by
    unfold evaluateCompletedPanelCleanup at hfs ⊢
    rcases h.panels with heq | hnot
    · rw [heq]
      exact ⟨fs, hfs⟩
    · exact ⟨_, observing_of_not_array hnot _ _⟩
  refine ⟨fs', hfs', fun f hf hdeny => ?_, ?_⟩
  · rw [advise_of_mem_completedPanelCleanup hfs' hf] at hdeny
    cases hdeny
  · rintro ⟨f, hf, hstops⟩
    rw [Finding.Stops, advise_of_mem_completedPanelCleanup hfs hf] at hstops
    rcases hstops with hstops | hstops <;> cases hstops

/-- Every evaluator. -/
theorem dims_of_mem_evaluators (h : Blinded facts facts')
    {evaluate : Facts → Except NativeError (List Finding)} (hmem : evaluate ∈ evaluators) :
    Dims (evaluate facts) (evaluate facts') := by
  simp only [evaluators, List.mem_cons, List.not_mem_nil, or_false] at hmem
  rcases hmem with rfl | rfl | rfl | rfl | rfl | rfl | rfl | rfl | rfl
  · exact dims_duplicateWorker h
  · exact dims_duplicateFileRead h
  · exact dims_writerOwnership h
  · exact dims_dirtySnapshot h
  · exact dims_branchWorktreeCollision h
  · exact dims_guardianAdmission h
  · exact dims_staleReview h
  · exact dims_promotionGate h
  · exact dims_completedPanelCleanup h

/-- Evaluations one after the other. -/
theorem dims_mapM {l : List (Facts → Except NativeError (List Finding))}
    (h : ∀ evaluate ∈ l, Dims (evaluate facts) (evaluate facts')) {r : List (List Finding)}
    (hr : (l.mapM fun evaluate => evaluate facts) = .ok r) :
    ∃ r', (l.mapM fun evaluate => evaluate facts') = .ok r' ∧ List.Forall₂ Dimmed r r' := by
  rw [mapM_eq_ok] at hr
  induction hr with
  | nil => exact ⟨[], rfl, .nil⟩
  | cons hfs _ ih =>
    obtain ⟨hfirst, hrest⟩ := List.forall_mem_cons.mp h
    obtain ⟨fs', hfs', hdimmed⟩ := hfirst _ hfs
    obtain ⟨r', hr', hdimmed'⟩ := ih hrest
    exact ⟨fs' :: r', mapM_eq_ok.mpr (.cons hfs' (mapM_eq_ok.mp hr')), .cons hdimmed hdimmed'⟩

end Evaluators

/-! ## The decision -/

/-- The decision is to deny when a finding denies. -/
theorem decisionOf_eq_deny_iff {fs : List Finding} :
    decisionOf fs = .deny ↔ ∃ f ∈ fs, f.decision = .deny := by
  unfold decisionOf
  split_ifs <;> simp_all

/-- The decision is to pass when no finding stops. -/
theorem decisionOf_eq_pass_iff {fs : List Finding} :
    decisionOf fs = .pass ↔ ¬∃ f ∈ fs, f.Stops := by
  unfold decisionOf Finding.Stops
  split_ifs <;> simp_all
  all_goals grind

/-- The decision is never an advice. -/
theorem decisionOf_ne_advise (fs : List Finding) : decisionOf fs ≠ .advise := by
  unfold decisionOf
  split_ifs <;> decide

/-- Where the decision returns, it returns with less in sight too: a decision other than `PASS` does
not become `PASS`, no refusal is new, and `PASS` becomes `PASS` or `ESCALATE`. -/
theorem decide_of_blinded {facts facts' : Facts} (h : Blinded facts facts') {v : Verdict}
    (hv : decide facts = .ok v) :
    ∃ v', decide facts' = .ok v' ∧ (v.decision ≠ .pass → v'.decision ≠ .pass) ∧
      (∀ f ∈ v'.findings, f.decision = .deny → f ∈ v.findings) ∧
      (v.decision = .pass → v'.decision = .pass ∨ v'.decision = .escalate) := by
  obtain ⟨r, hr, hv⟩ := bind_eq_ok.mp hv
  obtain rfl := Except.ok.inj hv
  obtain ⟨r', hr', hdimmed⟩ := dims_mapM (fun _ => dims_of_mem_evaluators h) hr
  have hall := Dimmed.flatten hdimmed
  refine ⟨verdictOf r'.flatten, bind_eq_ok.mpr ⟨r', hr', rfl⟩, fun hne hpass => hne ?_,
    hall.denied, fun hpass => ?_⟩
  · exact decisionOf_eq_pass_iff.mpr fun hstops =>
      decisionOf_eq_pass_iff.mp hpass (hall.stopped hstops)
  · -- a refusal with less in sight would be one that was there before
    have hdeny : decisionOf r'.flatten ≠ .deny := by
      intro hdeny
      obtain ⟨f, hf, hdenied⟩ := decisionOf_eq_deny_iff.mp hdeny
      exact decisionOf_eq_pass_iff.mp hpass ⟨f, hall.denied f hf hdenied, .inl hdenied⟩
    change decisionOf r'.flatten = .pass ∨ decisionOf r'.flatten = .escalate
    cases hdecision : decisionOf r'.flatten with
    | pass => exact .inl rfl
    | escalate => exact .inr rfl
    | deny => exact absurd hdecision hdeny
    | advise => exact absurd hdecision (decisionOf_ne_advise _)

/-- A request to review at a dirty worktree, with the worktrees in sight, for examples. -/
def sampleFacts (worktrees : Json) : Facts :=
  ⟨some (.obj [(lit "worktree", .str (lit "/w")), (lit "role", .str (lit "reviewer"))]),
    none, none, none, some worktrees, none, none, none, none, none⟩

/-- A refusal becomes an escalation when the worktrees go out of sight. -/
theorem decide_of_blinded_worktrees :
    ∃ v', decide (sampleFacts .null) = .ok v' ∧ v'.decision ≠ .pass := by
  have hblinded : Blinded
      (sampleFacts (.arr [.obj [(lit "path", .str (lit "/w")), (lit "dirty", .bool true)]]))
      (sampleFacts .null) :=
    ⟨rfl, rfl, .inl rfl, .inl rfl, .inl rfl, .inr rfl, .inl rfl, .inl rfl, .inl rfl, .inl rfl⟩
  obtain ⟨v', hv', hne, -⟩ := decide_of_blinded hblinded rfl
  exact ⟨v', hv', hne (by decide)⟩

end MetaframerKernel.TokenGuard
