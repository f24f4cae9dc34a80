import Mathlib.Data.List.Nodup
import Mathlib.Logic.Relation
import Mathlib.Tactic.Common

/-!
# Linked logs

A log whose rows each carry a key and, but for the first, the key of the row before. No single
constraint says that the rows form one chain: it follows from several that each look at one new row
and the rows already there.

## Main definitions

* `Linked`: each row links to the one before;
* `Admits`: the constraints on a new row;
* `IsLinearChain`: what being one finite chain means for a set of rows.

## Main results

* `Linked.snoc_of_admits`: a row the constraints admit extends the chain;
* `Linked.isLinearChain`, `Linked.heads_eq`: a linked log is one chain, and its only row without
  a successor is its last.
-/

namespace Stores

variable {ρ κ : Type} (key : ρ → κ) (prev : ρ → Option κ)

/-- Each row has a key of its own and links to the key of the row before. -/
inductive Linked : List ρ → Prop
  | nil : Linked []
  | snoc {rows : List ρ} {r : ρ} : Linked rows → key r ∉ rows.map key →
      prev r = rows.getLast?.map key → Linked (rows ++ [r])

/-- The constraints on a new row: its key is new, it does not link to itself, what it links to is
there, and neither a second first row nor a second successor is. -/
structure Admits (rows : List ρ) (r : ρ) : Prop where
  unique : key r ∉ rows.map key
  noSelfLink : prev r ≠ some (key r)
  foreignKey : ∀ k, prev r = some k → k ∈ (rows ++ [r]).map key
  oneGenesis : prev r = none → ∀ s ∈ rows, prev s ≠ none
  oneSuccessor : ∀ k, prev r = some k → ∀ s ∈ rows, prev s ≠ some k

/-- The rows that no other row links to. -/
def heads [DecidableEq κ] (rows : List ρ) : List ρ :=
  rows.filter fun r => rows.all fun s => prev s ≠ some (key r)

/-- The rows, in the order they came, form one finite linear chain. -/
structure IsLinearChain [DecidableEq κ] (rows : List ρ) : Prop where
  /-- Exactly one row links to none, if there is any row. -/
  genesis : rows ≠ [] → ∃ g, rows.filter (fun r => prev r = none) = [g]
  /-- What any other row links to is exactly one earlier row. -/
  predecessor : ∀ earlier r later, rows = earlier ++ r :: later → ∀ k, prev r = some k →
    ∃ p, earlier.filter (fun s => key s = k) = [p]
  /-- No row has two successors. -/
  successor : ∀ p ∈ rows, (rows.filter fun s => prev s = some (key p)).length ≤ 1
  /-- No row comes before itself. -/
  acyclic : ∀ r, ¬Relation.TransGen
    (fun a b => a ∈ rows ∧ b ∈ rows ∧ prev b = some (key a)) r r

variable {key prev} {rows : List ρ}

namespace Linked

/-- No two rows of a linked log have one key. -/
theorem nodup (h : Linked key prev rows) : (rows.map key).Nodup := by
  induction h with
  | nil => exact List.nodup_nil
  | snoc _ hnew _ ih =>
    rw [List.map_append, List.nodup_append]
    refine ⟨ih, List.nodup_singleton _, ?_⟩
    rintro _ hk _ hr rfl
    exact hnew (List.mem_singleton.mp hr ▸ hk)

/-- What a row links to is the row before it. -/
theorem prev_eq (h : Linked key prev rows) {earlier later : List ρ} {r : ρ}
    (hrows : rows = earlier ++ r :: later) : prev r = earlier.getLast?.map key := by
  induction h generalizing later with
  | nil => simp at hrows
  | @snoc rows last _ _ hprev ih =>
    rcases List.eq_nil_or_concat later with rfl | ⟨later, x, rfl⟩
    · obtain ⟨rfl, hr⟩ := List.append_inj' hrows rfl
      obtain rfl := (List.cons.inj hr).1
      exact hprev
    · rw [List.concat_eq_append, ← List.cons_append, ← List.append_assoc] at hrows
      exact ih (List.append_inj' hrows rfl).1

/-- A row that is not the first links to a row. -/
theorem prev_ne_none (h : Linked key prev rows) {earlier later : List ρ} {r : ρ}
    (hrows : rows = earlier ++ r :: later) (hearlier : earlier ≠ []) : prev r ≠ none := by
  rw [h.prev_eq hrows, List.getLast?_eq_some_getLast hearlier]
  exact Option.some_ne_none _

/-- Every row but the last has a successor. -/
theorem exists_successor (h : Linked key prev rows) {p : ρ} (hp : p ∈ rows)
    (hlast : rows.getLast? ≠ some p) : ∃ s ∈ rows, prev s = some (key p) := by
  obtain ⟨earlier, later, rfl⟩ := List.append_of_mem hp
  cases later with
  | nil => simp at hlast
  | cons s later =>
    refine ⟨s, by simp, ?_⟩
    have hrows : earlier ++ p :: s :: later = (earlier ++ [p]) ++ s :: later := by simp
    rw [h.prev_eq hrows, List.getLast?_concat]
    rfl

/-- What a row links to is there. -/
theorem mem_of_prev (h : Linked key prev rows) {r : ρ} (hr : r ∈ rows) {k : κ}
    (hk : prev r = some k) : k ∈ rows.map key := by
  obtain ⟨earlier, later, rfl⟩ := List.append_of_mem hr
  rw [h.prev_eq rfl] at hk
  obtain ⟨p, hp, rfl⟩ := Option.map_eq_some_iff.mp hk
  exact List.mem_map_of_mem (List.mem_append_left _ (List.mem_of_getLast? hp))

/-- A row the constraints admit extends the chain. -/
theorem snoc_of_admits (h : Linked key prev rows) {r : ρ} (hr : Admits key prev rows r) :
    Linked key prev (rows ++ [r]) := by
  refine .snoc h hr.unique ?_
  rcases rows with _ | ⟨first, rest⟩
  · -- a first row can link to nothing but itself
    cases hprev : prev r with
    | none => rfl
    | some k =>
      have hself := hr.foreignKey k hprev
      rw [List.nil_append, List.map_singleton, List.mem_singleton] at hself
      exact absurd (hself ▸ hprev) hr.noSelfLink
  · have hgenesis : prev first = none := h.prev_eq (List.nil_append _).symm
    cases hprev : prev r with
    | none => exact absurd hgenesis (hr.oneGenesis hprev first List.mem_cons_self)
    | some k =>
      -- it links to a row that has no successor yet, which is the last one
      have hmem := hr.foreignKey k hprev
      rw [List.map_append, List.mem_append, List.map_singleton, List.mem_singleton] at hmem
      rcases hmem with hmem | rfl
      · obtain ⟨p, hp, rfl⟩ := List.mem_map.mp hmem
        by_cases hlast : (first :: rest).getLast? = some p
        · rw [hlast]
          rfl
        · obtain ⟨s, hs, hsuccessor⟩ := h.exists_successor hp hlast
          exact absurd hsuccessor (hr.oneSuccessor _ hprev s hs)
      · exact absurd hprev hr.noSelfLink

/-! ## What a linked log looks like -/

/-- A linked log that is not empty has exactly one first row. -/
theorem exists_genesis (h : Linked key prev rows) (hrows : rows ≠ []) :
    ∃ g, rows.filter (fun r => prev r = none) = [g] := by
  obtain ⟨first, rest, rfl⟩ := List.exists_cons_of_ne_nil hrows
  have hgenesis : prev first = none := h.prev_eq (List.nil_append _).symm
  have hrest : rest.filter (fun r => prev r = none) = [] := by
    rw [List.filter_eq_nil_iff]
    intro r hr
    obtain ⟨before, after, rfl⟩ := List.append_of_mem hr
    simpa using h.prev_ne_none (List.cons_append ..).symm (List.cons_ne_nil _ _)
  exact ⟨first, by rw [List.filter_cons_of_pos (by simp [hgenesis]), hrest]⟩

/-- The last row has no successor. -/
theorem prev_ne_last (h : Linked key prev rows) {last s : ρ} (hlast : rows.getLast? = some last)
    (hs : s ∈ rows) : prev s ≠ some (key last) := by
  intro hprev
  cases h with
  | nil => cases hs
  | @snoc rows r hlinked hnew hr =>
    rw [List.getLast?_concat, Option.some.injEq] at hlast
    subst hlast
    rcases List.mem_append.mp hs with hs | hs
    · exact hnew (hlinked.mem_of_prev hs hprev)
    · rw [List.mem_singleton.mp hs, hr] at hprev
      obtain ⟨q, hq, hkey⟩ := Option.map_eq_some_iff.mp hprev
      exact hnew (hkey ▸ List.mem_map_of_mem (List.mem_of_getLast? hq))

section Chain

variable [DecidableEq κ]

/-- A key belongs to one row. -/
theorem filter_key_eq (h : (rows.map key).Nodup) {p : ρ} (hp : p ∈ rows) :
    rows.filter (fun s => key s = key p) = [p] := by
  induction rows with
  | nil => cases hp
  | cons r rows ih =>
    rw [List.map_cons, List.nodup_cons] at h
    rcases List.mem_cons.mp hp with rfl | hp
    · have hrest : rows.filter (fun s => key s = key p) = [] := by
        rw [List.filter_eq_nil_iff]
        intro s hs hkey
        exact h.1 (of_decide_eq_true hkey ▸ List.mem_map_of_mem hs)
      rw [List.filter_cons_of_pos (by simp), hrest]
    · have hne : key r ≠ key p := fun hkey => h.1 (hkey ▸ List.mem_map_of_mem hp)
      rw [List.filter_cons_of_neg (by simp [hne]), ih h.2 hp]

/-- The row that is named as previous comes earlier, once. -/
theorem exists_predecessor (h : Linked key prev rows) {earlier later : List ρ} {r : ρ}
    (hrows : rows = earlier ++ r :: later) {k : κ} (hk : prev r = some k) :
    ∃ p, earlier.filter (fun s => key s = k) = [p] := by
  have hnodup := h.nodup
  rw [h.prev_eq hrows] at hk
  obtain ⟨p, hp, rfl⟩ := Option.map_eq_some_iff.mp hk
  rw [hrows, List.map_append, List.nodup_append] at hnodup
  exact ⟨p, filter_key_eq hnodup.1 (List.mem_of_getLast? hp)⟩

/-- No row is named as previous twice. -/
theorem length_successors_le (h : Linked key prev rows) (k : κ) :
    (rows.filter fun s => prev s = some k).length ≤ 1 := by
  induction h with
  | nil => exact Nat.zero_le _
  | @snoc rows r hlinked hnew hprev ih =>
    rw [List.filter_append, List.length_append]
    by_cases hr : prev r = some k
    · -- the last row had no successor before
      have hnone : rows.filter (fun s => prev s = some k) = [] := by
        obtain ⟨q, hq, rfl⟩ := Option.map_eq_some_iff.mp (hprev.symm.trans hr)
        rw [List.filter_eq_nil_iff]
        intro s hs
        simpa using hlinked.prev_ne_last hq hs
      rw [hnone, List.length_nil, Nat.zero_add]
      exact List.length_filter_le _ [r]
    · rw [List.filter_singleton, decide_eq_false hr]
      exact ih

/-- A chain in which rows link to earlier rows only has no cycle. -/
theorem acyclic (h : Linked key prev rows) (r : ρ) : ¬Relation.TransGen
    (fun a b => a ∈ rows ∧ b ∈ rows ∧ prev b = some (key a)) r r := by
  -- a link leads from a row to one that stands behind it
  have hrank {a b : ρ} (hab : a ∈ rows ∧ b ∈ rows ∧ prev b = some (key a)) :
      (rows.map key).idxOf (key a) < (rows.map key).idxOf (key b) := by
    obtain ⟨-, hb, hprev⟩ := hab
    obtain ⟨earlier, later, hrows⟩ := List.append_of_mem hb
    have hnodup := h.nodup
    rw [h.prev_eq hrows] at hprev
    obtain ⟨p, hp, hkey⟩ := Option.map_eq_some_iff.mp hprev
    have ha : key a ∈ earlier.map key := hkey ▸ List.mem_map_of_mem (List.mem_of_getLast? hp)
    rw [hrows, List.map_append, List.map_cons] at hnodup ⊢
    have hb : key b ∉ earlier.map key := fun hmem =>
      (List.nodup_append.mp hnodup).2.2 _ hmem _ List.mem_cons_self rfl
    rw [List.idxOf_append_of_mem ha, List.idxOf_append_of_notMem hb, List.idxOf_cons_self]
    exact Nat.lt_add_right 0 (List.idxOf_lt_length_of_mem ha)
  have hlt {b : ρ} (hpath : Relation.TransGen
      (fun a b => a ∈ rows ∧ b ∈ rows ∧ prev b = some (key a)) r b) :
      (rows.map key).idxOf (key r) < (rows.map key).idxOf (key b) := by
    induction hpath with
    | single hstep => exact hrank hstep
    | tail _ hstep ih => exact Nat.lt_trans ih (hrank hstep)
  exact fun hcycle => Nat.lt_irrefl _ (hlt hcycle)

/-- A linked log is one finite linear chain. -/
theorem isLinearChain (h : Linked key prev rows) : IsLinearChain key prev rows where
  genesis := h.exists_genesis
  predecessor _ _ _ hrows _ hk := h.exists_predecessor hrows hk
  successor p _ := h.length_successors_le (key p)
  acyclic := h.acyclic

/-- The only row without a successor is the last. -/
theorem heads_eq (h : Linked key prev rows) : heads key prev rows = rows.getLast?.toList := by
  rcases List.eq_nil_or_concat rows with rfl | ⟨init, last, hrows⟩
  · rfl
  · rw [List.concat_eq_append] at hrows
    have hnodup := h.nodup
    have hlast : rows.getLast? = some last := by rw [hrows, List.getLast?_concat]
    -- every row but the last has a successor
    have hinit : init.filter (fun r => rows.all fun s => prev s ≠ some (key r)) = [] := by
      rw [List.filter_eq_nil_iff]
      intro p hp hall
      have hne : rows.getLast? ≠ some p := by
        rw [hlast, Ne, Option.some.injEq]
        rintro rfl
        rw [hrows, List.map_append, List.nodup_append] at hnodup
        exact hnodup.2.2 _ (List.mem_map_of_mem hp) _ List.mem_cons_self rfl
      obtain ⟨s, hs, hprev⟩ := h.exists_successor (hrows ▸ List.mem_append_left _ hp) hne
      simpa [hprev] using List.all_eq_true.mp hall s hs
    -- and the last has none
    have hself : rows.all (fun s => prev s ≠ some (key last)) = true := by
      rw [List.all_eq_true]
      intro s hs
      simpa using h.prev_ne_last hlast hs
    calc heads key prev rows
        = (init ++ [last]).filter fun r => rows.all fun s => prev s ≠ some (key r) := by
          rw [heads, ← hrows]
      _ = [last] := by rw [List.filter_append, hinit, List.filter_singleton, hself]; rfl
      _ = rows.getLast?.toList := by rw [hlast]; rfl

end Chain

end Linked

end Stores
