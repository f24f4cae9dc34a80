import Mathlib.Data.List.Induction
import MetaframerKernel.Stores.LinkedLog

/-!
# Hash chains

Logs whose rows each link to the key of the row before, where a key is one of the content of its row
and of what the row links to. Nothing is asked about the keys being different, so a log can be any
list that somebody has put together; the keys alone tell what it holds.

## Main definitions

* `Chained`: each row links to the one before.

## Main results

* `Chained.map_eq`: two chains with the same last key hold the same;
* `Chained.map_prefix`: a chain whose last key is found in another one is an initial part of it.
-/

namespace Stores

variable {ρ ρ' κ γ : Type}

/-- Each row links to the key of the row before it. -/
inductive Chained (key : ρ → κ) (prev : ρ → Option κ) : List ρ → Prop
  | nil : Chained key prev []
  | snoc {rows : List ρ} {r : ρ} : Chained key prev rows → prev r = rows.getLast?.map key →
      Chained key prev (rows ++ [r])

/-- Rows of one key hold the same and link to the same. -/
def Binds (key : ρ → κ) (prev : ρ → Option κ) (content : ρ → γ) (key' : ρ' → κ)
    (prev' : ρ' → Option κ) (content' : ρ' → γ) (rows : List ρ) (rows' : List ρ') : Prop :=
  ∀ r ∈ rows, ∀ r' ∈ rows', key r = key' r' → prev r = prev' r' ∧ content r = content' r'

variable {key : ρ → κ} {prev : ρ → Option κ} {content : ρ → γ} {key' : ρ' → κ}
  {prev' : ρ' → Option κ} {content' : ρ' → γ} {rows rest : List ρ} {rows' : List ρ'}

theorem Linked.chained (h : Linked key prev rows) : Chained key prev rows := by
  induction h with
  | nil => exact .nil
  | snoc _ _ hprev ih => exact ih.snoc hprev

/-- Rows of the same keys and links in the same order are a chain too. -/
theorem Chained.congr (h : Chained key prev rows)
    (hsame : rows.map (fun r => (key r, prev r)) = rows'.map fun r => (key' r, prev' r)) :
    Chained key' prev' rows' := by
  induction h generalizing rows' with
  | nil =>
    rw [List.map_nil, eq_comm, List.map_eq_nil_iff] at hsame
    rw [hsame]
    exact .nil
  | @snoc rows r _ hr ih =>
    rcases List.eq_nil_or_concat rows' with rfl | ⟨rows', r', rfl⟩
    · simp at hsame
    · rw [List.concat_eq_append] at hsame ⊢
      rw [List.map_append, List.map_append] at hsame
      obtain ⟨hrows, hlast⟩ := List.append_inj' hsame rfl
      simp only [List.map_cons, List.map_nil, List.cons.injEq, Prod.mk.injEq, and_true] at hlast
      have hkeys : rows.map key = rows'.map key' := by
        simpa [Function.comp_def] using congrArg (List.map Prod.fst) hrows
      refine (ih hrows).snoc ?_
      rw [← hlast.2, hr, ← List.getLast?_map, hkeys, List.getLast?_map]

/-- An initial part of a chain is one. -/
theorem Chained.of_append (h : Chained key prev (rows ++ rest)) : Chained key prev rows := by
  induction rest using List.reverseRecOn with
  | nil => rwa [List.append_nil] at h
  | append_singleton rest r ih =>
    rw [← List.append_assoc] at h
    generalize hall : rows ++ rest ++ [r] = all at h
    cases h with
    | nil => simp at hall
    | snoc h _ =>
      obtain ⟨hrest, -⟩ := List.append_inj' hall rfl
      exact ih (hrest ▸ h)

namespace Chained

/-- Two chains of one last key hold the same rows. -/
theorem map_eq (h : Chained key prev rows) (h' : Chained key' prev' rows')
    (hbinds : Binds key prev content key' prev' content' rows rows')
    (hhead : rows.getLast?.map key = rows'.getLast?.map key') :
    rows.map content = rows'.map content' := by
  induction h generalizing rows' with
  | nil =>
    cases h' with
    | nil => rfl
    | snoc _ _ => simp at hhead
  | @snoc rows r _ hr ih =>
    cases h' with
    | nil => simp at hhead
    | @snoc rows' r' h' hr' =>
      rw [List.getLast?_concat, List.getLast?_concat] at hhead
      -- the last rows hold the same, and link to the same key
      obtain ⟨hprev, hcontent⟩ := hbinds r (List.mem_append_right _ List.mem_cons_self) r'
        (List.mem_append_right _ List.mem_cons_self) (Option.some.inj hhead)
      have hrest := ih h' (fun s hs s' hs' => hbinds s (List.mem_append_left _ hs) s'
        (List.mem_append_left _ hs')) (by rw [← hr, hprev, hr'])
      rw [List.map_append, List.map_append, hrest, List.map_singleton, List.map_singleton, hcontent]

/-- A chain whose last key is that of a row of another chain holds what that one holds up to the
row. -/
theorem map_prefix (h : Chained key prev rows) (h' : Chained key' prev' rows')
    (hbinds : Binds key prev content key' prev' content' rows rows') {k : κ}
    (hhead : rows.getLast?.map key = some k) (hk : k ∈ rows'.map key') :
    rows.map content <+: rows'.map content' := by
  obtain ⟨r', hr', rfl⟩ := List.mem_map.mp hk
  obtain ⟨earlier, later, rfl⟩ := List.append_of_mem hr'
  rw [List.append_cons] at h' hbinds ⊢
  have heq := h.map_eq h'.of_append
    (fun s hs s' hs' => hbinds s hs s' (List.mem_append_left _ hs'))
    (by rw [hhead, List.getLast?_concat, Option.map_some])
  rw [heq]
  exact (List.prefix_append _ later).map content'

end Chained

end Stores
