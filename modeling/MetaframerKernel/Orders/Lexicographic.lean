import Mathlib.Data.List.Lex
import Mathlib.Order.Compare
import Mathlib.Tactic

/-!
# Lexicographic comparison through a monotone map

Two lists of fields are compared at the first place where they differ. When every field is first
sent through a monotone map that may identify fields, such as a rounding, the outcome is kept
unless the map closes the first difference and the rest of the lists decides otherwise.

## Main definitions

* `KeepsOrder`: the map does not turn a comparison at its first difference.

## Main results

* `compare_cons`: the comparison of two lists, field by field;
* `compare_map_eq_iff`: the mapped lists compare as the lists do when the map keeps the order.
-/

namespace Lexicographic

variable {α β : Type} [LinearOrder α] [LinearOrder β] {f : α → β}

/-- The comparison of two lists is that of their first fields, then that of the rest. -/
theorem compare_cons (x y : α) (xs ys : List α) :
    compare (x :: xs) (y :: ys) = (compare x y).then (compare xs ys) :=
  List.compareLex_cons_cons

/-- Lists that compare as equal are equal. -/
theorem eq_of_compare_eq {xs ys : List α} (h : compare xs ys = .eq) : xs = ys :=
  Std.LawfulEqCmp.eq_of_compare h

/-- Two fields that differ decide. -/
theorem compare_then_of_ne {x y : α} (h : x ≠ y) (o : Ordering) :
    (compare x y).then o = compare x y := by
  rcases lt_or_gt_of_ne h with hlt | hgt
  · rw [compare_lt_iff_lt.mpr hlt, Ordering.lt_then]
  · rw [compare_gt_iff_gt.mpr hgt, Ordering.gt_then]

/-- A monotone map keeps the order of two fields that it does not identify. -/
theorem compare_map_of_ne (hf : Monotone f) {x y : α} (h : f x ≠ f y) :
    compare (f x) (f y) = compare x y := by
  rcases lt_trichotomy x y with hlt | rfl | hgt
  · rw [compare_lt_iff_lt.mpr hlt]
    exact compare_lt_iff_lt.mpr (lt_of_le_of_ne (hf hlt.le) h)
  · exact absurd rfl h
  · rw [compare_gt_iff_gt.mpr hgt]
    exact compare_gt_iff_gt.mpr (lt_of_le_of_ne (hf hgt.le) h.symm)

variable (f) in
/-- Where the map identifies the first two fields that differ, the rest of the lists, mapped,
compares as these two do. -/
def KeepsOrder : List α → List α → Prop
  | x :: xs, y :: ys =>
      if x = y then KeepsOrder xs ys
      else f x = f y → compare (xs.map f) (ys.map f) = compare x y
  | _, _ => True

/-- A common beginning keeps the order. -/
theorem keepsOrder_cons_self (x : α) (xs ys : List α) :
    KeepsOrder f (x :: xs) (x :: ys) ↔ KeepsOrder f xs ys := by
  rw [KeepsOrder, if_pos rfl]

/-- At the first difference the order is kept when the images differ, or what follows them decides
alike. -/
theorem keepsOrder_cons_of_ne {x y : α} (h : x ≠ y) (xs ys : List α) :
    KeepsOrder f (x :: xs) (y :: ys) ↔
      (f x = f y → compare (xs.map f) (ys.map f) = compare x y) := by
  rw [KeepsOrder, if_neg h]

/-- A map that identifies no two different fields keeps the order. -/
theorem keepsOrder_of_injOn {xs ys : List α} (h : ∀ x ∈ xs, ∀ y ∈ ys, f x = f y → x = y) :
    KeepsOrder f xs ys := by
  induction xs generalizing ys with
  | nil => exact trivial
  | cons x xs ih =>
    cases ys with
    | nil => exact trivial
    | cons y ys =>
      by_cases hxy : x = y
      · subst hxy
        rw [keepsOrder_cons_self]
        exact ih fun x' hx y' hy => h x' (List.mem_cons_of_mem _ hx) y' (List.mem_cons_of_mem _ hy)
      · rw [keepsOrder_cons_of_ne hxy]
        exact fun hmap => absurd (h x List.mem_cons_self y List.mem_cons_self hmap) hxy

/-- Lists sent through a monotone map compare as before when it keeps their order, and only
then. -/
theorem compare_map_eq_iff (hf : Monotone f) (xs ys : List α) :
    compare (xs.map f) (ys.map f) = compare xs ys ↔ KeepsOrder f xs ys := by
  induction xs generalizing ys with
  | nil =>
    cases ys with
    | nil => exact ⟨fun _ => trivial, fun _ => rfl⟩
    | cons y ys => exact ⟨fun _ => trivial, fun _ => rfl⟩
  | cons x xs ih =>
    cases ys with
    | nil => exact ⟨fun _ => trivial, fun _ => rfl⟩
    | cons y ys =>
      rw [List.map_cons, List.map_cons, compare_cons, compare_cons]
      -- the first place where the lists differ decides, unless the two become one there
      by_cases hxy : x = y
      · subst hxy
        rw [compare_eq_iff_eq.mpr rfl, compare_eq_iff_eq.mpr rfl, Ordering.eq_then,
          Ordering.eq_then, keepsOrder_cons_self]
        exact ih ys
      · rw [keepsOrder_cons_of_ne hxy, compare_then_of_ne hxy]
        by_cases hmap : f x = f y
        · rw [compare_eq_iff_eq.mpr hmap, Ordering.eq_then]
          exact ⟨fun h _ => h, fun h => h hmap⟩
        · rw [compare_then_of_ne hmap, compare_map_of_ne hf hmap]
          exact ⟨fun _ h => absurd h hmap, fun _ => rfl⟩

end Lexicographic
