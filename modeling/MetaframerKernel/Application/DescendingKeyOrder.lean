import MetaframerKernel.Js.JsonText

/-!
# Descending key order

`decision-log-entry.mjs` and `postgres-decision-log-adapter.mjs` each re-emit the members of every
object in descending key order before hashing, by assignment to a fresh ordinary object. The text
that is hashed then depends on the value alone and not on the order its members came in. It does
not depend on all of the value: an assignment under the key `__proto__` makes no own property, so
the members of that key, at every depth, are not in the text.

## Main definitions

* `reorderDescending`: the recursion both modules write out;
* `withoutProto`: a value without its `__proto__` members;
* `agreeOnProto`: two values have the same `__proto__` members in the same places.

## Main results

* `stringify_reorderDescending_eq_iff`: two values have the same text exactly when they are the
  same value up to `__proto__` members;
* `canonical_eq_iff_agreeOnProto`: two such values are the same when these members agree.
-/

namespace MetaframerKernel

open Js Json

/-! ## The recursion -/

/-- The own properties of `out` after the loop over `Object.keys(value).sort().reverse()`. -/
def assignDescending (m : List (JsString × Json)) : List (JsString × Json) :=
  assignMembers (sortMembers m).reverse

/-- `descendingKeyOrder` -/
def reorderDescending : Json → Json := rebuild .num assignDescending

/-- The members the loop keeps. -/
def dropProto (m : List (JsString × Json)) : List (JsString × Json) :=
  m.filter fun p => p.1 ≠ protoKey

/-- A value without the members of key `__proto__`, at any depth. -/
def withoutProto : Json → Json := rebuild .num dropProto

/-! ## The members it keeps -/

/-- Dropping `__proto__` rearranges the members that are left. -/
theorem rearranges_dropProto : Rearranges dropProto where
  map f m := by
    rw [dropProto, List.filter_map]
    rfl
  subset m := List.filter_sublist.subset
  nodup m h := h.sublist (List.filter_sublist.map _)

/-- Sorting and dropping commute: both ways give the sorted list of the same members. -/
theorem sortMembers_dropProto {m : List (JsString × Json)} (h : (m.map Prod.fst).Nodup) :
    sortMembers (dropProto m) = dropProto (sortMembers m) := by
  have hperm : (dropProto (sortMembers m)).Perm (sortMembers (dropProto m)) :=
    ((sortMembers_perm m).filter _).trans (sortMembers_perm _).symm
  have : Std.Irrefl fun p q : JsString × Json => p.1 < q.1 := ⟨fun p => lt_irrefl p.1⟩
  have : Std.Antisymm fun p q : JsString × Json => p.1 < q.1 :=
    ⟨fun _ _ hpq hqp => absurd hqp (lt_asymm hpq)⟩
  exact (List.Perm.eq_of_pairwise' ((pairwise_lt_sortMembers h).filter _)
    (pairwise_lt_sortMembers (rearranges_dropProto.nodup m h)) hperm).symm

/-- With distinct keys, the loop lists the kept members in descending order. -/
theorem assignDescending_eq {m : List (JsString × Json)} (h : (m.map Prod.fst).Nodup) :
    assignDescending m = (sortMembers (dropProto m)).reverse := by
  have hnodup : (((dropProto (sortMembers m)).reverse).map Prod.fst).Nodup := by
    rw [List.map_reverse, List.nodup_reverse]
    exact (((sortMembers_perm m).filter _).map Prod.fst).nodup_iff.mpr
      (rearranges_dropProto.nodup m h)
  rw [assignDescending, assignMembers_eq, List.filter_reverse, sortMembers_dropProto h]
  exact collectMembers_of_nodup hnodup

/-- The own properties the loop leaves are those of the keys other than `__proto__`. -/
theorem assignDescending_perm {m : List (JsString × Json)} (h : (m.map Prod.fst).Nodup) :
    (assignDescending m).Perm (dropProto m) := by
  rw [assignDescending_eq h]
  exact (List.reverse_perm _).trans (sortMembers_perm _)

/-- Assigning in descending order leaves the values as they are. -/
theorem assignDescending_map (f : Json → Json) {m : List (JsString × Json)}
    (h : (m.map Prod.fst).Nodup) :
    assignDescending (m.map (Prod.map id f)) = (assignDescending m).map (Prod.map id f) := by
  have hkeys : ((m.map (Prod.map id f)).map Prod.fst).Nodup := by rwa [map_fst_map]
  rw [assignDescending_eq h, assignDescending_eq hkeys, rearranges_dropProto.map,
    sortMembers_map (Prod.map id f) fun _ => rfl, List.map_reverse]

/-- An object is written again with its members assigned in descending order. -/
theorem reorderDescending_obj {m : List (JsString × Json)} (h : (m.map Prod.fst).Nodup) :
    reorderDescending (.obj m) =
      .obj ((assignDescending m).map (Prod.map id reorderDescending)) := by
  rw [reorderDescending, rebuild, rebuildMembers_eq, assignDescending_map _ h]

/-- An array is written again element by element. -/
theorem reorderDescending_arr (l : List Json) :
    reorderDescending (.arr l) = .arr (l.map reorderDescending) := by
  rw [reorderDescending, rebuild, rebuildElems_eq]

/-- An object is rebuilt without its `__proto__` member. -/
theorem withoutProto_obj (m : List (JsString × Json)) :
    withoutProto (.obj m) = .obj ((dropProto m).map (Prod.map id withoutProto)) :=
  rebuild_obj rearranges_dropProto m

/-- An array is rebuilt element by element. -/
theorem withoutProto_arr (l : List Json) :
    withoutProto (.arr l) = .arr (l.map withoutProto) := by
  rw [withoutProto, rebuild, rebuildElems_eq]

/-- What is left without `__proto__` is well formed. -/
theorem wellFormed_withoutProto {v : Json} (hv : v.wellFormed = true) :
    (withoutProto v).wellFormed = true := by
  refine wellFormed_rebuild ?_ rearranges_dropProto hv
  exact fun _ hn => hn

/-- Dropping the members is a function of the value. -/
theorem withoutProto_canonical {v : Json} (hv : v.wellFormed = true) :
    withoutProto (canonical v) = canonical (withoutProto v) := by
  induction v using ind with
  | arr l ih =>
    rw [wellFormed_arr] at hv
    rw [canonical_arr, withoutProto_arr, withoutProto_arr, canonical_arr, List.map_map,
      List.map_map]
    congr 1
    exact List.map_congr_left fun v hmem => ih v hmem (hv v hmem)
  | obj m ih =>
    rw [wellFormed_obj] at hv
    rw [canonical_obj, withoutProto_obj, withoutProto_obj, canonical_obj, rearranges_dropProto.map,
      sortMembers_map (Prod.map id _) fun _ => rfl, sortMembers_dropProto hv.1, List.map_map,
      List.map_map]
    congr 1
    refine List.map_congr_left fun p hp => ?_
    have hmem : p ∈ m := (sortMembers_perm m).subset (rearranges_dropProto.subset _ hp)
    exact Prod.ext rfl (ih p hmem (hv.2 p hmem))
  | _ => rfl

/-- Values that are the same are the same without their `__proto__` members. -/
theorem canonical_withoutProto_congr {v w : Json} (hv : v.wellFormed = true)
    (hw : w.wellFormed = true) (h : canonical v = canonical w) :
    canonical (withoutProto v) = canonical (withoutProto w) := by
  rw [← withoutProto_canonical hv, ← withoutProto_canonical hw, h]

/-- There is no `__proto__` to drop twice. -/
theorem withoutProto_withoutProto (v : Json) : withoutProto (withoutProto v) = withoutProto v := by
  induction v using ind with
  | arr l ih =>
    rw [withoutProto_arr, withoutProto_arr, List.map_map]
    congr 1
    exact List.map_congr_left ih
  | obj m ih =>
    have hdrop : dropProto (dropProto m) = dropProto m :=
      List.filter_eq_self.mpr fun p hp => (List.mem_filter.mp hp).2
    rw [withoutProto_obj, withoutProto_obj, rearranges_dropProto.map, hdrop, List.map_map]
    congr 1
    exact List.map_congr_left fun p hp => Prod.ext rfl (ih p (rearranges_dropProto.subset m hp))
  | _ => rfl

/-! ## The value behind the text -/

/-- The reordered value is the value without its `__proto__` members. -/
theorem canonical_reorderDescending {v : Json} (hv : v.wellFormed = true) :
    canonical (reorderDescending v) = canonical (withoutProto v) := by
  induction v using ind with
  | null => rfl
  | bool b => rfl
  | num n => rfl
  | str s => rfl
  | arr l ih =>
    rw [wellFormed_arr] at hv
    rw [reorderDescending_arr, withoutProto_arr, canonical_arr, canonical_arr, List.map_map,
      List.map_map]
    congr 1
    exact List.map_congr_left fun v hmem => ih v hmem (hv v hmem)
  | obj m ih =>
    rw [wellFormed_obj] at hv
    have hkeys := (assignDescending_perm hv.1).map Prod.fst
    -- the canonical form sorts the members again, whatever the order of assignment
    have hsort : sortMembers (assignDescending m) = sortMembers (dropProto m) :=
      sortMembers_eq_of_perm (assignDescending_perm hv.1)
        (hkeys.nodup_iff.mpr (rearranges_dropProto.nodup m hv.1))
    rw [reorderDescending_obj hv.1, withoutProto_obj, canonical_obj, canonical_obj,
      sortMembers_map (Prod.map id _) fun _ => rfl, sortMembers_map (Prod.map id _) fun _ => rfl,
      hsort, List.map_map, List.map_map]
    congr 1
    refine List.map_congr_left fun p hp => ?_
    have hmem : p ∈ m := rearranges_dropProto.subset m ((sortMembers_perm _).subset hp)
    exact Prod.ext rfl (ih p hmem (hv.2 p hmem))

/-- A value written again is well formed. -/
theorem wellFormed_reorderDescending {v : Json} (hv : v.wellFormed = true) :
    (reorderDescending v).wellFormed = true := by
  induction v using ind with
  | arr l ih =>
    rw [wellFormed_arr] at hv
    rw [reorderDescending_arr, wellFormed_arr]
    exact List.forall_mem_map.mpr fun v hmem => ih v hmem (hv v hmem)
  | obj m ih =>
    rw [wellFormed_obj] at hv
    have hperm := assignDescending_perm hv.1
    rw [reorderDescending_obj hv.1, wellFormed_obj, map_fst_map]
    refine ⟨(hperm.map _).nodup_iff.mpr (rearranges_dropProto.nodup m hv.1), ?_⟩
    refine List.forall_mem_map.mpr fun p hp => ?_
    have hmem : p ∈ m := rearranges_dropProto.subset m (hperm.subset hp)
    exact ih p hmem (hv.2 p hmem)
  | _ => exact hv

/-- A zero is printed without its sign. -/
theorem text_unsignZero (x : Js.Finite) :
    numberText (JsNumber.finite x).unsignZero = x.text := by
  by_cases hx : x.coeff = 0 <;> simp [JsNumber.unsignZero, numberText, Js.Finite.text, hx]

/-- The text of a reordered value is that of its representative without `__proto__` members. -/
theorem stringify_reorderDescending {v : Json} (hv : v.wellFormed = true) :
    stringify (reorderDescending v) =
      stringify (reorderDescending (canonical (withoutProto v))) := by
  induction v using ind with
  | null => rfl
  | bool b => rfl
  | num n =>
    cases n with
    | finite x => exact (text_unsignZero x).symm
    | infinity neg => rfl
    | nan => rfl
  | str s => rfl
  | arr l ih =>
    rw [wellFormed_arr] at hv
    rw [withoutProto_arr, canonical_arr, reorderDescending_arr, reorderDescending_arr,
      stringify_arr, stringify_arr, List.map_map, List.map_map, List.map_map, List.map_map]
    congr 3
    exact List.map_congr_left fun v hmem => ih v hmem (hv v hmem)
  | obj m ih =>
    rw [wellFormed_obj] at hv
    -- the representative lists the kept members sorted, and reordering reverses that list
    have hkept := rearranges_dropProto.nodup m hv.1
    have hsorted : ((sortMembers (dropProto m)).map Prod.fst).Nodup :=
      ((sortMembers_perm _).map Prod.fst).nodup_iff.mpr hkept
    have hdrop : dropProto (sortMembers (dropProto m)) = sortMembers (dropProto m) := by
      refine List.filter_eq_self.mpr fun p hp => ?_
      exact (List.mem_filter.mp ((sortMembers_perm _).subset hp)).2
    have hlist : assignDescending (sortMembers (dropProto m)) = assignDescending m := by
      rw [assignDescending_eq hsorted, assignDescending_eq hv.1, hdrop,
        sortMembers_eq_of_perm (sortMembers_perm (dropProto m)) hsorted]
    rw [withoutProto_obj, canonical_obj, sortMembers_map (Prod.map id _) fun _ => rfl,
      List.map_map, Prod.map_comp_map, Function.id_comp,
      reorderDescending_obj hv.1, reorderDescending_obj (by rwa [map_fst_map]),
      assignDescending_map _ hsorted, hlist, List.map_map, Prod.map_comp_map, Function.id_comp,
      stringify_obj, stringify_obj, ownOrder_map (Prod.map id _) fun _ => rfl,
      ownOrder_map (Prod.map id _) fun _ => rfl, List.map_map, List.map_map]
    congr 3
    refine List.map_congr_left fun p hp => ?_
    have hmem : p ∈ m := rearranges_dropProto.subset m
      ((assignDescending_perm hv.1).subset ((ownOrder_perm _).subset hp))
    exact congrArg (quote p.1 ++ ':' :: ·) (ih p hmem (hv.2 p hmem))

/-- Two values are given the same text exactly when they are the same value up to their
`__proto__` members. -/
theorem stringify_reorderDescending_eq_iff {v w : Json} (hv : v.wellFormed = true)
    (hw : w.wellFormed = true) :
    stringify (reorderDescending v) = stringify (reorderDescending w) ↔
      canonical (withoutProto v) = canonical (withoutProto w) := by
  constructor
  · intro h
    rw [← canonical_reorderDescending hv, ← canonical_reorderDescending hw]
    exact stringify_inj (wellFormed_reorderDescending hv) (wellFormed_reorderDescending hw) h
  · intro h
    rw [stringify_reorderDescending hv, stringify_reorderDescending hw, h]

/-! ## The members that are not in the text -/

/-- The two own `__proto__` properties are the same: both absent, or of the same value. -/
def sameProto : Option Json → Option Json → Bool
  | none, none => true
  | some v, some w => sameValue v w
  | _, _ => false

mutual

/-- At every depth, objects in the same place have the same `__proto__` member. -/
def agreeOnProto : Json → Json → Bool
  | .arr l, .arr l' => agreeElems l l'
  | .obj m, .obj m' => sameProto (m.lookup protoKey) (m'.lookup protoKey) && agreeMembers m m'
  | _, _ => true

/-- `agreeOnProto` element by element. -/
def agreeElems : List Json → List Json → Bool
  | v :: l, v' :: l' => agreeOnProto v v' && agreeElems l l'
  | _, _ => true

/-- `agreeOnProto` at every other key that both objects have. -/
def agreeMembers : List (JsString × Json) → List (JsString × Json) → Bool
  | [], _ => true
  | (k, v) :: m, m' =>
      (k == protoKey || m'.all fun q => q.1 != k || agreeOnProto v q.2) && agreeMembers m m'

end

/-- Members agree when those of one key do, `__proto__` apart. -/
theorem agreeMembers_iff (m m' : List (JsString × Json)) : agreeMembers m m' = true ↔
    ∀ p ∈ m, p.1 ≠ protoKey → ∀ q ∈ m', q.1 = p.1 → agreeOnProto p.2 q.2 = true := by
  induction m with
  | nil => simp [agreeMembers]
  | cons p m ih =>
    simp only [agreeMembers, Bool.and_eq_true, Bool.or_eq_true, beq_iff_eq, List.all_eq_true,
      bne_iff_ne, ih, List.forall_mem_cons, or_iff_not_imp_left, ne_eq, not_not]

/-- `__proto__` members are the same when both are absent or their values the same. -/
theorem sameProto_iff {v w : Option Json} (hv : ∀ x ∈ v, x.wellFormed = true)
    (hw : ∀ x ∈ w, x.wellFormed = true) :
    sameProto v w = true ↔ v.map canonical = w.map canonical := by
  cases v with
  | none => cases w <;> simp [sameProto]
  | some x =>
    cases w with
    | none => simp [sameProto]
    | some y => simp [sameProto, sameValue_iff_canonical (hv x rfl) (hw y rfl)]

/-- Under any other key the same member is found. -/
theorem lookup_dropProto (k : JsString) (m : List (JsString × Json)) :
    (dropProto m).lookup k = if k = protoKey then none else m.lookup k := by
  rw [dropProto, lookup_filter_key (fun k => k ≠ protoKey)]
  by_cases hk : k = protoKey <;> simp [hk]

/-- A member of a well-formed object is well formed. -/
theorem wellFormed_of_lookup {m : List (JsString × Json)} (h : (Json.obj m).wellFormed = true)
    {k : JsString} {v : Json} (hv : m.lookup k = some v) : v.wellFormed = true :=
  ((wellFormed_obj m).mp h).2 _ (mem_of_lookup_eq_some hv)

/-- Values that are the same without their `__proto__` members are the same when these members
agree. -/
theorem canonical_eq_iff_agreeOnProto {v w : Json} (hv : v.wellFormed = true)
    (hw : w.wellFormed = true) (h : canonical (withoutProto v) = canonical (withoutProto w)) :
    canonical v = canonical w ↔ agreeOnProto v w = true := by
  induction v using ind generalizing w with
  | null => cases w <;> simp_all [agreeOnProto, withoutProto, canonical, rebuild]
  | bool b => cases w <;> simp_all [agreeOnProto, withoutProto, canonical, rebuild]
  | num n => cases w <;> simp_all [agreeOnProto, withoutProto, canonical, rebuild]
  | str s => cases w <;> simp_all [agreeOnProto, withoutProto, canonical, rebuild]
  | arr l ih =>
    cases w with
    | arr l' =>
      rw [wellFormed_arr] at hv hw
      rw [withoutProto_arr, withoutProto_arr, canonical_arr, canonical_arr, Json.arr.injEq] at h
      rw [canonical_arr, canonical_arr, Json.arr.injEq, agreeOnProto]
      induction l generalizing l' with
      | nil => cases l' <;> simp_all [agreeElems]
      | cons x l ihl =>
        cases l' with
        | nil => cases h
        | cons y l' =>
          simp only [List.map_cons, List.cons.injEq, List.forall_mem_cons] at h hv hw ih ⊢
          rw [agreeElems, Bool.and_eq_true, ih.1 hv.1 hw.1 h.1, ihl ih.2 hv.2 l' hw.2 h.2]
    | _ => simp [withoutProto, canonical, rebuild] at h
  | obj m ih =>
    cases w with
    | obj m' =>
      have hm := (wellFormed_obj m).mp hv
      have hm' := (wellFormed_obj m').mp hw
      -- under every other key the members agree without their own `__proto__` members
      have hkept (k : JsString) (hk : k ≠ protoKey) :
          (m.lookup k).map (canonical ∘ withoutProto) =
            (m'.lookup k).map (canonical ∘ withoutProto) := by
        rw [withoutProto_obj, withoutProto_obj, canonical_obj_eq_iff
          (by rw [map_fst_map]; exact rearranges_dropProto.nodup m hm.1)
          (by rw [map_fst_map]; exact rearranges_dropProto.nodup m' hm'.1)] at h
        have hread := h k
        rw [lookup_map, lookup_map, lookup_dropProto, lookup_dropProto, if_neg hk, if_neg hk,
          Option.map_map, Option.map_map] at hread
        exact hread
      rw [canonical_obj_eq_iff hm.1 hm'.1, agreeOnProto, Bool.and_eq_true, agreeMembers_iff,
        sameProto_iff (fun x hx => wellFormed_of_lookup hv hx)
          (fun x hx => wellFormed_of_lookup hw hx)]
      constructor
      · -- the same members under each key: those of `__proto__` itself,
        -- and below each other key by induction
        intro hread
        refine ⟨hread protoKey, fun p hp hne q hq hkey => ?_⟩
        have hlp := (lookup_eq_some_iff hm.1).mpr hp
        have hlq := (lookup_eq_some_iff hm'.1).mpr (hkey ▸ hq : (p.1, q.2) ∈ m')
        have hkept' := hkept p.1 hne
        have hread' := hread p.1
        rw [hlp, hlq] at hkept' hread'
        exact (ih p hp (hm.2 p hp) (hm'.2 q hq) (Option.some.inj hkept')).mp
          (Option.some.inj hread')
      · -- a key other than `__proto__` is missing on both sides or has members that agree
        rintro ⟨hproto, hagree⟩ k
        by_cases hk : k = protoKey
        · rw [hk, hproto]
        · have hkept' := hkept k hk
          cases hlp : m.lookup k with
          | none =>
            rw [hlp] at hkept'
            rw [Option.map_none, Option.map_eq_none_iff.mp hkept'.symm, Option.map_none]
          | some x =>
            rw [hlp] at hkept'
            obtain ⟨y, hlq, hxy⟩ := Option.map_eq_some_iff.mp hkept'.symm
            have hx := mem_of_lookup_eq_some hlp
            have hy := mem_of_lookup_eq_some hlq
            rw [hlq, Option.map_some, Option.map_some, Option.some.injEq]
            exact (ih (k, x) hx (hm.2 _ hx) (hm'.2 _ hy) hxy.symm).mpr
              (hagree (k, x) hx hk (k, y) hy rfl)
    | _ => simp [withoutProto, canonical, rebuild] at h

end MetaframerKernel
