import Mathlib.Data.Finset.Card
import Mathlib.Logic.Function.Iterate
import Mathlib.Order.FixedPoints
import Mathlib.Order.CompletePartialOrder

/-!
# Rounds to a fixed point

A loop that visits the items of a list one after the other, in rounds, until a round adds no key.
What a visit adds is governed by a monotone rule on the set of keys added so far. The loop ends, and
the keys it has added are the least fixed point of the rule, whatever the order of the items.

## Main definitions

* `Loop`, `Loop.run`: the loop, with the number of rounds it may take;
* `Loop.stateAt`: the state after some rounds and some visits of the next;
* `Loop.Follows`: the visits of the loop follow a rule.

## Main results

* `Loop.Follows.exists_run`: the loop ends after one round more than there are items;
* `Loop.Follows.mem_added_run`: what it has added is the least fixed point;
* `Loop.Follows.justified_stateAt`: every key was admitted by the keys added before it.
-/

/-- A loop over items, each of a key. -/
structure Loop (ι κ σ : Type) where
  items : List ι
  key : ι → κ
  /-- What a round begins with. -/
  start : σ → σ
  visit : σ → ι → σ
  /-- The keys added so far, in order. -/
  added : σ → List κ
  /-- Whether the round has added a key. -/
  progress : σ → Bool

namespace Loop

variable {ι κ σ : Type} (L : Loop ι κ σ)

/-- One round. -/
def round (s : σ) : σ := L.items.foldl L.visit (L.start s)

/-- Rounds until one adds nothing, `none` if there are too many. -/
def run : ℕ → σ → Option σ
  | 0, _ => none
  | fuel + 1, s => if L.progress (L.round s) then run fuel (L.round s) else some (L.round s)

/-- The state after `n` rounds and `m` visits of the next. -/
def stateAt (s : σ) (n m : ℕ) : σ := (L.items.take m).foldl L.visit (L.start (L.round^[n] s))

/-- The set of the keys added so far. -/
def addedSet (s : σ) : Set κ := {k | k ∈ L.added s}

/-! ## Invariants -/

variable {L}

/-- What every visit keeps, any number of visits keep. -/
theorem foldl_visit_induct {P : σ → Prop} (hvisit : ∀ s, ∀ i ∈ L.items, P s → P (L.visit s i))
    {l : List ι} (hl : l ⊆ L.items) {s : σ} (hs : P s) : P (l.foldl L.visit s) := by
  induction l generalizing s with
  | nil => exact hs
  | cons i l ih =>
    rw [List.cons_subset] at hl
    exact ih hl.2 (hvisit s i hl.1 hs)

/-- What the start of a round and every visit keep holds throughout. -/
theorem stateAt_induct {P : σ → Prop} (hstart : ∀ s, P s → P (L.start s))
    (hvisit : ∀ s, ∀ i ∈ L.items, P s → P (L.visit s i)) {s : σ} (hs : P s) (n m : ℕ) :
    P (L.stateAt s n m) := by
  have hround : P (L.round^[n] s) := by
    induction n with
    | zero => exact hs
    | succ n ih =>
      rw [Function.iterate_succ_apply']
      exact foldl_visit_induct hvisit (List.Subset.refl _) (hstart _ ih)
  exact foldl_visit_induct hvisit (List.take_subset m _) (hstart _ hround)

/-- More rounds than it takes change nothing. -/
theorem run_of_le {fuel fuel' : ℕ} {s r : σ} (h : L.run fuel s = some r) (hle : fuel ≤ fuel') :
    L.run fuel' s = some r := by
  induction fuel generalizing fuel' s with
  | zero => cases h
  | succ fuel ih =>
    obtain ⟨fuel', rfl⟩ : ∃ k, fuel' = k + 1 := ⟨fuel' - 1, by omega⟩
    rw [run] at h ⊢
    split_ifs at h ⊢ with hprogress
    · exact ih h (Nat.le_of_succ_le_succ hle)
    · exact h

/-- The loop ends in one of its states. -/
theorem exists_stateAt_of_run {fuel : ℕ} {s r : σ} (h : L.run fuel s = some r) :
    ∃ n, r = L.stateAt s n L.items.length := by
  induction fuel generalizing s with
  | zero => cases h
  | succ fuel ih =>
    rw [run] at h
    split_ifs at h with hprogress
    · obtain ⟨n, hn⟩ := ih h
      refine ⟨n + 1, hn.trans ?_⟩
      rw [stateAt, stateAt, Function.iterate_succ_apply]
    · obtain rfl := Option.some.inj h
      refine ⟨0, ?_⟩
      rw [stateAt, List.take_length]
      rfl

/-- The last round adds nothing. -/
theorem exists_round_of_run {fuel : ℕ} {s r : σ} (h : L.run fuel s = some r) :
    ∃ t, r = L.round t ∧ L.progress r = false := by
  induction fuel generalizing s with
  | zero => cases h
  | succ fuel ih =>
    rw [run] at h
    split_ifs at h with hprogress
    · exact ih h
    · obtain rfl := Option.some.inj h
      exact ⟨s, rfl, Bool.eq_false_iff.mpr hprogress⟩

/-! ## Loops that follow a rule -/

variable (L) in
/-- A visit adds the key of its item when it is new and the rule admits it, and otherwise adds
nothing. -/
structure Follows (F : Set κ →o Set κ) : Prop where
  /-- The rule admits keys of items only. -/
  keys : ∀ D, ∀ k ∈ F D, ∃ i ∈ L.items, L.key i = k
  added_start : ∀ s, L.added (L.start s) = L.added s
  progress_start : ∀ s, L.progress (L.start s) = false
  visit : ∀ s, ∀ i ∈ L.items,
    (L.added (L.visit s i) = L.added s ∧ L.progress (L.visit s i) = L.progress s ∧
      (L.key i ∈ F (L.addedSet s) → L.key i ∈ L.added s)) ∨
    (L.added (L.visit s i) = L.added s ++ [L.key i] ∧ L.progress (L.visit s i) = true ∧
      L.key i ∈ F (L.addedSet s) ∧ L.key i ∉ L.added s)

namespace Follows

variable {F : Set κ →o Set κ} (hF : L.Follows F)

include hF

/-- The keys added are a prefix of those added later. -/
theorem added_prefix_visit (s : σ) {i : ι} (hi : i ∈ L.items) :
    L.added s <+: L.added (L.visit s i) := by
  rcases hF.visit s i hi with ⟨hadded, -⟩ | ⟨hadded, -⟩
  · exact hadded ▸ List.prefix_rfl
  · exact hadded ▸ List.prefix_append _ _

theorem added_prefix_foldl {l : List ι} (hl : l ⊆ L.items) (s : σ) :
    L.added s <+: L.added (l.foldl L.visit s) :=
  foldl_visit_induct (P := fun t => L.added s <+: L.added t)
    (fun t _ hi h => h.trans (hF.added_prefix_visit t hi)) hl List.prefix_rfl

/-- Progress is not undone. -/
theorem progress_foldl {l : List ι} (hl : l ⊆ L.items) {s : σ} (hs : L.progress s = true) :
    L.progress (l.foldl L.visit s) = true := by
  refine foldl_visit_induct (P := fun t => L.progress t = true) (fun t i hi h => ?_) hl hs
  rcases hF.visit t i hi with ⟨-, hprogress, -⟩ | ⟨-, hprogress, -⟩
  · rw [hprogress, h]
  · exact hprogress

/-- Visits without progress add nothing, and none of their items is admitted. -/
theorem closed_of_not_progress {l : List ι} (hl : l ⊆ L.items) {s : σ}
    (h : L.progress (l.foldl L.visit s) = false) :
    L.added (l.foldl L.visit s) = L.added s ∧
      ∀ i ∈ l, L.key i ∈ F (L.addedSet s) → L.key i ∈ L.added s := by
  induction l generalizing s with
  | nil => exact ⟨rfl, by simp⟩
  | cons i l ih =>
    rw [List.cons_subset] at hl
    rw [List.foldl_cons] at h ⊢
    obtain ⟨hadded, hclosed⟩ := ih hl.2 h
    rcases hF.visit s i hl.1 with ⟨hsame, -, hi⟩ | ⟨-, hprogress, -⟩
    · have hset : L.addedSet (L.visit s i) = L.addedSet s := by rw [addedSet, hsame]; rfl
      rw [hset, hsame] at hclosed
      exact ⟨hadded.trans hsame, List.forall_mem_cons.mpr ⟨hi, hclosed⟩⟩
    · rw [hF.progress_foldl hl.2 hprogress] at h
      cases h

/-- Visits with progress add the key of an item. -/
theorem exists_added_of_progress {l : List ι} (hl : l ⊆ L.items) {s : σ}
    (hs : L.progress s = false) (h : L.progress (l.foldl L.visit s) = true) :
    ∃ i ∈ L.items, L.key i ∉ L.added s ∧ L.key i ∈ L.added (l.foldl L.visit s) := by
  induction l generalizing s with
  | nil =>
    rw [List.foldl_nil, hs] at h
    cases h
  | cons i l ih =>
    rw [List.cons_subset] at hl
    rw [List.foldl_cons] at h ⊢
    rcases hF.visit s i hl.1 with ⟨hsame, hprogress, -⟩ | ⟨hadded, -, -, hfresh⟩
    · rw [← hsame]
      exact ih hl.2 (hprogress.trans hs) h
    · refine ⟨i, hl.1, hfresh, (hF.added_prefix_foldl hl.2 _).subset ?_⟩
      rw [hadded]
      exact List.mem_append_right _ List.mem_cons_self

/-! ## The loop ends -/

/-- A loop ends before it has taken more rounds than there are items left to add. -/
theorem exists_run [DecidableEq κ] {s : σ} {fuel : ℕ}
    (hfuel : ((L.items.map L.key).toFinset \ (L.added s).toFinset).card < fuel) :
    ∃ r, L.run fuel s = some r := by
  induction fuel generalizing s with
  | zero => exact absurd hfuel (Nat.not_lt_zero _)
  | succ fuel ih =>
    rw [run]
    split_ifs with hprogress
    · refine ih (Nat.lt_of_lt_of_le (Finset.card_lt_card ?_) (Nat.le_of_lt_succ hfuel))
      obtain ⟨i, hi, hold, hnew⟩ := hF.exists_added_of_progress (List.Subset.refl _)
        (hF.progress_start s) hprogress
      rw [hF.added_start] at hold
      -- the key that is new is missing before the round and not after it
      refine Finset.ssubset_iff_subset_ne.mpr ⟨Finset.sdiff_subset_sdiff subset_rfl ?_, ?_⟩
      · intro k hk
        rw [List.mem_toFinset] at hk ⊢
        refine (hF.added_prefix_foldl (List.Subset.refl _) _).subset ?_
        rwa [hF.added_start]
      · intro heq
        have hmem : L.key i ∈ (L.items.map L.key).toFinset \ (L.added s).toFinset := by
          simp [hold, List.mem_map_of_mem hi]
        rw [← heq] at hmem
        exact (Finset.mem_sdiff.mp hmem).2 (List.mem_toFinset.mpr hnew)
    · exact ⟨_, rfl⟩

/-! ## What the loop adds -/

/-- Every key was admitted by the keys added before it. -/
theorem justified_stateAt {s : σ} (hs : L.added s = []) (n m : ℕ) {l₁ l₂ : List κ} {k : κ}
    (h : L.added (L.stateAt s n m) = l₁ ++ k :: l₂) : k ∈ F {x | x ∈ l₁} := by
  refine stateAt_induct (P := fun t => ∀ l₁ k l₂, L.added t = l₁ ++ k :: l₂ → k ∈ F {x | x ∈ l₁})
    (fun t ht => ?_) (fun t i hi ht => ?_) ?_ n m l₁ k l₂ h
  · rwa [hF.added_start]
  · rcases hF.visit t i hi with ⟨hadded, -⟩ | ⟨hadded, -, hadmits, -⟩
    · rwa [hadded]
    · intro l₁ k l₂ hsplit
      rw [hadded] at hsplit
      rcases List.eq_nil_or_concat l₂ with rfl | ⟨l₂, x, rfl⟩
      · obtain ⟨hinit, hlast⟩ := List.append_inj' hsplit rfl
        rw [← hinit, ← List.head_eq_of_cons_eq hlast]
        exact hadmits
      · have hinit : L.added t ++ [L.key i] = (l₁ ++ k :: l₂) ++ [x] := by
          rw [hsplit, List.concat_eq_append, List.append_assoc, List.cons_append]
        exact ht l₁ k l₂ (List.append_inj' hinit rfl).1
  · intro l₁ k l₂ hsplit
    rw [hs] at hsplit
    exact absurd hsplit (by simp)

/-- Nothing is added that the rule does not force. -/
theorem added_subset_lfp {s : σ} (hs : L.added s = []) (n m : ℕ) :
    L.addedSet (L.stateAt s n m) ⊆ F.lfp := by
  refine stateAt_induct (P := fun t => L.addedSet t ⊆ F.lfp) (fun t ht => ?_)
    (fun t i hi ht => ?_) ?_ n m
  · intro k hk
    change k ∈ L.added (L.start t) at hk
    rw [hF.added_start] at hk
    exact ht hk
  · intro k hk
    change k ∈ L.added (L.visit t i) at hk
    -- a visit adds nothing, or a key that the function admits at what was added before
    rcases hF.visit t i hi with ⟨hadded, -⟩ | ⟨hadded, -, hadmits, -⟩
    · rw [hadded] at hk
      exact ht hk
    · rw [hadded, List.mem_append, List.mem_singleton] at hk
      rcases hk with hk | rfl
      · exact ht hk
      · rw [← F.map_lfp]
        exact F.monotone ht hadmits
  · intro k hk
    change k ∈ L.added s at hk
    rw [hs] at hk
    cases hk

/-- What the loop has added when it ends is the least fixed point of the rule. -/
theorem mem_added_run {fuel : ℕ} {s r : σ} (hs : L.added s = []) (h : L.run fuel s = some r)
    {k : κ} : k ∈ L.added r ↔ k ∈ F.lfp := by
  constructor
  · intro hk
    obtain ⟨n, rfl⟩ := exists_stateAt_of_run h
    exact hF.added_subset_lfp hs n _ hk
  · obtain ⟨t, rfl, hprogress⟩ := exists_round_of_run h
    obtain ⟨hadded, hclosed⟩ := hF.closed_of_not_progress (List.Subset.refl _) hprogress
    -- the last round leaves a set that the rule adds nothing to
    have hle : F (L.addedSet (L.start t)) ≤ L.addedSet (L.start t) := by
      intro k hk
      obtain ⟨i, hi, rfl⟩ := hF.keys _ k hk
      exact hclosed i hi hk
    intro hk
    have hmem : k ∈ L.addedSet (L.start t) := F.lfp_le hle hk
    rw [round, hadded]
    exact hmem

end Follows

end Loop
