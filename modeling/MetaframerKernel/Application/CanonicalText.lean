import MetaframerKernel.Application.PolicyStatement

/-!
# The text of a canonical value

What `JSON.stringify` writes of a canonical value, read back by `JSON.parse`, is admitted again and
canonicalised to the same value, and the order in which the properties of an input were created does
not show in its canonical value.

## Main definitions

* `Reordered`: values that differ at most in the order their own properties were created.

## Main results

* `canonicalValue_readBack`: a canonical value survives its text;
* `canonicalValue_reordered`: values that differ in key order have one canonical value.
-/

namespace MetaframerKernel

open Js Json

/-! ## Hardened values -/

/-- What the canonicaliser admits is a JSON value `JSON.stringify` spells out. -/
theorem wellFormed_of_isHardened {v : Json} {depth : ℕ} (h : isHardened v depth = true) :
    v.wellFormed = true := by
  induction v using Json.ind generalizing depth with
  | num n => exact (Bool.and_eq_true_iff.mp h).1
  | arr l ih =>
    rw [isHardened_arr] at h
    exact (wellFormed_arr l).mpr fun v hv => ih v hv (h.2 v hv)
  | obj m ih =>
    obtain ⟨-, hsorted, -, hmembers⟩ := (isHardened_obj m depth).mp h
    refine (wellFormed_obj m).mpr ⟨hsorted.imp ne_of_lt, fun p hp => ih p hp (hmembers p hp)⟩
  | _ => rfl

/-- Members in ascending key order are sorted. -/
theorem sortMembers_of_pairwise {α : Type} {m : List (JsString × α)}
    (h : (m.map Prod.fst).Pairwise (· < ·)) : sortMembers m = m :=
  ((List.pairwise_map.mp h).imp le_of_lt).insertionSort_eq

/-- A hardened value represents itself. -/
theorem canonical_of_isHardened {v : Json} {depth : ℕ} (h : isHardened v depth = true) :
    canonical v = v := by
  induction v using Json.ind generalizing depth with
  | num n =>
    obtain ⟨-, hunsign⟩ := Bool.and_eq_true_iff.mp h
    exact congrArg Json.num (beq_iff_eq.mp hunsign)
  | arr l ih =>
    rw [isHardened_arr] at h
    have hmap : l.map canonical = l.map id :=
      List.map_congr_left fun v hv => ih v hv (h.2 v hv)
    rw [canonical_arr, hmap, List.map_id]
  | obj m ih =>
    obtain ⟨-, hsorted, -, hmembers⟩ := (isHardened_obj m depth).mp h
    have hmap : m.map (Prod.map id canonical) = m.map id :=
      List.map_congr_left fun p hp => Prod.ext rfl (ih p hp (hmembers p hp))
    rw [canonical_obj, sortMembers_of_pairwise hsorted, hmap, List.map_id]
  | _ => rfl

/-! ## Admission -/

/-- The string keys of own properties. -/
def stringKeys (props : List ((PropertyKey × Descriptor) × JsValue)) : List JsString :=
  props.filterMap fun p =>
    match p.1.1 with
    | .string k => some k
    | .symbol => none

section Admission

variable {nonFinite what : JsString}

/-- A property is admitted as a member. -/
def AdmitsMember (nonFinite what : JsString) (depth : ℕ)
    (p : (PropertyKey × Descriptor) × JsValue) (q : JsString × Json) : Prop :=
  p.1 = (.string q.1, .data) ∧ q.1 ∉ refusedKeys ∧
    canonicalValue nonFinite what p.2 depth = .ok q.2

/-- Data properties under admitted keys pass the check. -/
theorem checkMembers_of_forall {props : List ((PropertyKey × Descriptor) × JsValue)}
    (h : ∀ p ∈ props, ∃ k, p.1 = (.string k, .data) ∧ k ∉ refusedKeys) :
    checkMembers what props = .ok () := by
  induction props with
  | nil => rfl
  | cons p props ih =>
    obtain ⟨⟨k, hk, hrefused⟩, hprops⟩ := List.forall_mem_cons.mp h
    obtain ⟨⟨key, d⟩, v⟩ := p
    obtain ⟨rfl, rfl⟩ := Prod.mk.inj hk
    rw [checkMembers, if_neg hrefused]
    exact ih hprops

/-- Members that are all admitted are collected. -/
theorem collect_map (m : List (JsString × Json)) :
    collect (m.map fun p => (p.1, .ok p.2)) = .ok m := by
  induction m with
  | nil => rfl
  | cons p m ih => rw [List.map_cons, collect, ih]; rfl

/-- The results of admitted members. -/
theorem canonicalMembers_of_admits {depth : ℕ}
    {props : List ((PropertyKey × Descriptor) × JsValue)} {m : List (JsString × Json)}
    (h : List.Forall₂ (AdmitsMember nonFinite what depth) props m) :
    canonicalMembers nonFinite what props depth = m.map fun q => (q.1, .ok q.2) := by
  induction h with
  | nil => rfl
  | @cons p q props m hp _ ih =>
    obtain ⟨⟨key, d⟩, v⟩ := p
    obtain ⟨hkey, -, hval⟩ := hp
    obtain ⟨rfl, rfl⟩ := Prod.mk.inj hkey
    rw [canonicalMembers, ih, hval]
    rfl

/-- Checked properties whose results are all values are admitted. -/
theorem admits_of_canonicalMembers {depth : ℕ}
    {props : List ((PropertyKey × Descriptor) × JsValue)}
    (hchecked : ∀ p ∈ props, ∃ k, p.1 = (.string k, .data) ∧ k ∉ refusedKeys)
    (h : ∀ x ∈ canonicalMembers nonFinite what props depth, ∃ v, x.2 = .ok v) :
    ∃ m, List.Forall₂ (AdmitsMember nonFinite what depth) props m := by
  induction props with
  | nil => exact ⟨[], .nil⟩
  | cons p props ih =>
    obtain ⟨⟨key, d⟩, v⟩ := p
    obtain ⟨⟨k, hk, hrefused⟩, hprops⟩ := List.forall_mem_cons.mp hchecked
    obtain ⟨rfl, rfl⟩ := Prod.mk.inj hk
    rw [canonicalMembers] at h
    obtain ⟨⟨w, hw⟩, hrest⟩ := List.forall_mem_cons.mp h
    obtain ⟨m, hm⟩ := ih hprops hrest
    exact ⟨(k, w) :: m, .cons ⟨rfl, hrefused, hw⟩ hm⟩

/-- What is admitted has the keys of the properties. -/
theorem map_fst_of_admits {depth : ℕ}
    {props : List ((PropertyKey × Descriptor) × JsValue)} {m : List (JsString × Json)}
    (h : List.Forall₂ (AdmitsMember nonFinite what depth) props m) :
    m.map Prod.fst = stringKeys props := by
  induction h with
  | nil => rfl
  | @cons p q props m hp _ ih =>
    obtain ⟨⟨key, d⟩, v⟩ := p
    obtain ⟨hkey, -⟩ := hp
    obtain ⟨rfl, rfl⟩ := Prod.mk.inj hkey
    rw [List.map_cons, ih]
    rfl

/-- An object is admitted when its prototype is the ordinary one and its properties are admitted,
and its canonical value has their members in key order. -/
theorem canonicalValue_object_iff {proto : Proto}
    {props : List ((PropertyKey × Descriptor) × JsValue)} (hkeys : (stringKeys props).Nodup)
    {depth : ℕ} {r : Json} :
    canonicalValue nonFinite what (.object proto props) depth = .ok r ↔
      depth ≤ maxDepth ∧ proto = .objectPrototype ∧
        ∃ m, List.Forall₂ (AdmitsMember nonFinite what (depth + 1)) props m ∧
          r = .obj (sortMembers m) := by
  -- the members of any admitted list are distinct, so the object has them all
  have hcollect {m : List (JsString × Json)}
      (hm : List.Forall₂ (AdmitsMember nonFinite what (depth + 1)) props m) :
      collect (sortMembers (canonicalMembers nonFinite what props (depth + 1))) =
        .ok (sortMembers m) ∧ firstMembers (sortMembers m) = sortMembers m := by
    have hnodup : (m.map Prod.fst).Nodup := by rwa [map_fst_of_admits hm]
    refine ⟨?_, firstMembers_of_nodup
      (((sortMembers_perm m).map Prod.fst).nodup_iff.mpr hnodup)⟩
    rw [canonicalMembers_of_admits hm, sortMembers_map (fun q => (q.1, Except.ok q.2)) fun _ => rfl,
      collect_map]
  simp only [canonicalValue, bind_eq_ok]
  constructor
  · rintro ⟨_, hdepth, _, hproto, _, hchecked, m', hm', hr⟩
    have hresults := collect_eq_ok hm'
    obtain ⟨m, hm⟩ : ∃ m, List.Forall₂ (AdmitsMember nonFinite what (depth + 1)) props m := by
      refine admits_of_canonicalMembers (checkMembers_eq_ok hchecked) fun x hx => ?_
      have hmem := (sortMembers_perm _).mem_iff.mpr hx
      rw [hresults] at hmem
      obtain ⟨q, -, rfl⟩ := List.mem_map.mp hmem
      exact ⟨q.2, rfl⟩
    obtain ⟨hsorted, hcollected⟩ := hcollect hm
    obtain rfl := Except.ok.inj (hm'.symm.trans hsorted)
    rw [hcollected] at hr
    exact ⟨checkDepth_eq_ok hdepth, Decidable.not_not.mp (throwIf_eq_ok.mp hproto), m, hm,
      (Except.ok.inj hr).symm⟩
  · rintro ⟨hdepth, rfl, m, hm, rfl⟩
    obtain ⟨hsorted, hcollected⟩ := hcollect hm
    refine ⟨(), throwIf_eq_ok.mpr (Nat.not_lt.mpr hdepth), (), throwIf_eq_ok.mpr (not_not.mpr rfl),
      (), checkMembers_of_forall ?_, sortMembers m, hsorted, by rw [hcollected]; rfl⟩
    have hboth := hm.imp fun p q hpq =>
      And.intro (⟨q.1, hpq.1, hpq.2.1⟩ : ∃ k, p.1 = (.string k, .data) ∧ k ∉ refusedKeys) hpq
    exact ((List.forall₂_and_left _ _).mp hboth).1

/-- Elements pass the check when none is a hole and all are enumerable data. -/
theorem checkElements_iff {elems : List (Option Descriptor × JsValue)} {u : Unit} :
    checkElements what elems = .ok u ↔
      ∀ e ∈ elems, ∃ d, e.1 = some d ∧ d.isEnumerableData = true := by
  induction elems with
  | nil => simp [checkElements]
  | cons e elems ih =>
    obtain ⟨d, v⟩ := e
    cases d with
    | none => simp [checkElements]
    | some d => by_cases hd : d.isEnumerableData = true <;> simp [checkElements, hd, ih]

/-- The results of the elements, in order. -/
theorem canonicalElements_iff {elems : List (Option Descriptor × JsValue)} {depth : ℕ}
    {l : List Json} : canonicalElements nonFinite what elems depth = .ok l ↔
      List.Forall₂ (fun v w => canonicalValue nonFinite what v depth = .ok w)
        (elems.map Prod.snd) l := by
  induction elems generalizing l with
  | nil =>
    rw [canonicalElements, List.map_nil, List.forall₂_nil_left_iff]
    exact ⟨fun h => (Except.ok.inj h).symm, fun h => congrArg Except.ok h.symm⟩
  | cons e elems ih =>
    simp only [canonicalElements, bind_eq_ok, ih, List.map_cons, List.forall₂_cons_left_iff]
    constructor
    · rintro ⟨w, hw, l', hl', h⟩
      exact ⟨w, l', hw, hl', (Except.ok.inj h).symm⟩
    · rintro ⟨w, l', hw, hl', rfl⟩
      exact ⟨w, hw, l', hl', rfl⟩

/-- An array is admitted when it is an ordinary one, carries enumerable data and nothing else, and
its elements are admitted. -/
theorem canonicalValue_array_iff {proto : Proto} {elems : List (Option Descriptor × JsValue)}
    {extra depth : ℕ} {r : Json} :
    canonicalValue nonFinite what (.array proto elems extra) depth = .ok r ↔
      depth ≤ maxDepth ∧ proto = .arrayPrototype ∧
        (∀ d ∈ elems.map Prod.fst, ∃ d', d = some d' ∧ d'.isEnumerableData = true) ∧ extra = 0 ∧
        ∃ l, List.Forall₂ (fun v w => canonicalValue nonFinite what v (depth + 1) = .ok w)
          (elems.map Prod.snd) l ∧ r = .arr l := by
  simp only [canonicalValue, bind_eq_ok, canonicalElements_iff, checkElements_iff, checkDepth,
    throwIf_eq_ok, List.forall_mem_map, Nat.not_lt, ne_eq, not_not]
  constructor
  · rintro ⟨_, hdepth, _, hproto, _, hchecked, _, hextra, l, hl, h⟩
    exact ⟨hdepth, hproto, hchecked, hextra, l, hl, (Except.ok.inj h).symm⟩
  · rintro ⟨hdepth, hproto, hchecked, hextra, l, hl, rfl⟩
    exact ⟨(), hdepth, (), hproto, (), hchecked, (), hextra, l, hl, rfl⟩

end Admission

/-! ## Reading the text back -/

/-- An array reads back element by element. -/
theorem readBack_arr (l : List Json) : (Json.arr l).readBack = .arr (l.map readBack) := by
  rw [readBack, rebuild, rebuildElems_eq]

/-- An object reads back with its members in own-property order. -/
theorem readBack_obj (m : List (JsString × Json)) :
    (Json.obj m).readBack = .obj ((ownOrder m).map (Prod.map id readBack)) :=
  rebuild_obj rearranges_ownOrder m

/-- A JSON object has the keys of its members. -/
theorem stringKeys_ofMembers (m : List (JsString × Json)) :
    stringKeys (JsValue.ofMembers m) = m.map Prod.fst := by
  rw [JsValue.ofMembers_eq, stringKeys, List.filterMap_map]
  exact List.filterMap_eq_map (f := Prod.fst) ▸ rfl

section RoundTrip

variable (nonFinite what : JsString)

/-- A hardened value, printed and read back, is canonicalised to itself. -/
theorem canonicalValue_readBack {v : Json} {depth : ℕ} (h : isHardened v depth = true) :
    canonicalValue nonFinite what (.ofJson v.readBack) depth = .ok v := by
  induction v using Json.ind generalizing depth with
  | null => rfl
  | bool b => rfl
  | str s => rfl
  | num n =>
    obtain ⟨hfinite, hunsign⟩ := Bool.and_eq_true_iff.mp h
    have hzero : n.unsignZero = n := beq_iff_eq.mp hunsign
    rw [readBack, rebuild, if_pos hfinite, hzero, JsValue.ofJson, canonicalValue, if_pos hfinite,
      hzero]
  | arr l ih =>
    rw [isHardened_arr] at h
    rw [readBack_arr, JsValue.ofJson, JsValue.ofElems_eq, List.map_map, canonicalValue_array_iff]
    refine ⟨h.1, rfl, ?_, rfl, l, ?_, rfl⟩
    · simp [Descriptor.isEnumerableData, Descriptor.data]
    · rw [List.map_map, List.forall₂_map_left_iff, List.forall₂_same]
      exact fun v hv => ih v hv (h.2 v hv)
  | obj m ih =>
    obtain ⟨hdepth, hsorted, hrefused, hmembers⟩ := (isHardened_obj m depth).mp h
    have hkeys : (m.map Prod.fst).Nodup := hsorted.imp ne_of_lt
    have horder : (ownOrder m).Perm m := ownOrder_perm m
    have hnodup : ((ownOrder m).map Prod.fst).Nodup := (horder.map Prod.fst).nodup_iff.mpr hkeys
    rw [readBack_obj, JsValue.ofJson, canonicalValue_object_iff
      (by rwa [stringKeys_ofMembers, map_fst_map])]
    -- read back, the members stand in enumeration order; sorting them restores the value
    refine ⟨hdepth, rfl, ownOrder m, ?_, ?_⟩
    · rw [JsValue.ofMembers_eq, List.map_map, List.forall₂_map_left_iff, List.forall₂_same]
      intro p hp
      have hmem : p ∈ m := horder.subset hp
      exact ⟨rfl, hrefused p hmem, ih p hmem (hmembers p hmem)⟩
    · rw [sortMembers_eq_of_perm horder hnodup, sortMembers_of_pairwise hsorted]

end RoundTrip

/-! ## The order of keys -/

/-- Values that differ at most in the order in which the own properties of objects were created. -/
inductive Reordered : JsValue → JsValue → Prop
  | refl (v : JsValue) : Reordered v v
  | array {proto : Proto} {elems elems' : List (Option Descriptor × JsValue)} {extra : ℕ}
      (descriptors : elems.map Prod.fst = elems'.map Prod.fst)
      (values : List.Forall₂ Reordered (elems.map Prod.snd) (elems'.map Prod.snd)) :
      Reordered (.array proto elems extra) (.array proto elems' extra)
  | object {proto : Proto} {props props₁ props' : List ((PropertyKey × Descriptor) × JsValue)}
      (keys : (stringKeys props).Nodup)
      (descriptors : props.map Prod.fst = props₁.map Prod.fst)
      (values : List.Forall₂ Reordered (props.map Prod.snd) (props₁.map Prod.snd))
      (order : props₁.Perm props') :
      Reordered (.object proto props) (.object proto props')

/-- The string keys, as a filter of the own keys. -/
theorem stringKeys_eq (props : List ((PropertyKey × Descriptor) × JsValue)) :
    stringKeys props = (props.map Prod.fst).filterMap fun d =>
      match d.1 with
      | .string k => some k
      | .symbol => none := by
  rw [List.filterMap_map]
  rfl

section Reorder

variable {nonFinite what : JsString}

/-- Elements that are admitted alike have the same results. -/
theorem forall₂_congr_left {α β : Type} {R : α → α → Prop} {S : α → β → Prop} {l l' : List α}
    (hl : List.Forall₂ R l l') (hcongr : ∀ a ∈ l, ∀ a', R a a' → ∀ b, S a b ↔ S a' b)
    {r : List β} : List.Forall₂ S l r ↔ List.Forall₂ S l' r := by
  induction hl generalizing r with
  | nil => exact Iff.rfl
  | cons ha _ ih =>
    obtain ⟨hhead, htail⟩ := List.forall_mem_cons.mp hcongr
    simp only [List.forall₂_cons_left_iff, hhead _ ha, ih htail]

/-- Admission of members, with keys and values apart. -/
theorem admits_iff {depth : ℕ} {props : List ((PropertyKey × Descriptor) × JsValue)}
    {m : List (JsString × Json)} : List.Forall₂ (AdmitsMember nonFinite what depth) props m ↔
      List.Forall₂ (fun d q => d = (.string q.1, .data) ∧ q.1 ∉ refusedKeys) (props.map Prod.fst)
        m ∧
      List.Forall₂ (fun v q => canonicalValue nonFinite what v depth = .ok q.2)
        (props.map Prod.snd) m := by
  induction props generalizing m with
  | nil => cases m <;> simp
  | cons p props ih =>
    cases m with
    | nil => simp
    | cons q m =>
      simp only [List.map_cons, List.forall₂_cons, ih, AdmitsMember]
      tauto

/-- The members admitted of the same properties in another order sort alike. -/
theorem exists_admits_of_perm {depth : ℕ}
    {props props' : List ((PropertyKey × Descriptor) × JsValue)} (hperm : props'.Perm props)
    (hkeys : (stringKeys props).Nodup) {m : List (JsString × Json)}
    (hm : List.Forall₂ (AdmitsMember nonFinite what depth) props m) :
    ∃ m', List.Forall₂ (AdmitsMember nonFinite what depth) props' m' ∧
      sortMembers m' = sortMembers m := by
  obtain ⟨m', hm', hperm'⟩ := List.perm_comp_forall₂ hperm hm
  have hnodup : (m.map Prod.fst).Nodup := by rwa [map_fst_of_admits hm]
  exact ⟨m', hm', sortMembers_eq_of_perm hperm'
    ((hperm'.map Prod.fst).nodup_iff.mpr hnodup)⟩

/-- Values that differ in key order have one canonical value. -/
theorem canonicalValue_reordered {v v' : JsValue} (h : Reordered v v') {depth : ℕ} {r : Json} :
    canonicalValue nonFinite what v depth = .ok r ↔
      canonicalValue nonFinite what v' depth = .ok r := by
  induction v using JsValue.ind generalizing v' depth r with
  | array proto elems extra ih =>
    cases h with
    | refl => exact Iff.rfl
    | @array _ _ elems' _ hdescriptors hvalues =>
      have hcongr := fun l => forall₂_congr_left
        (S := fun v w => canonicalValue nonFinite what v (depth + 1) = .ok w) hvalues
        (fun v hv v' hv' w => by
          obtain ⟨e, he, rfl⟩ := List.mem_map.mp hv
          exact ih e he hv') (r := l)
      simp only [canonicalValue_array_iff, hdescriptors, hcongr]
  | object proto props ih =>
    cases h with
    | refl => exact Iff.rfl
    | @object _ _ props₁ props' hkeys hdescriptors hvalues horder =>
      -- first the values below, under the same keys, and then the order of the keys
      have hcongr : ∀ m, List.Forall₂ (AdmitsMember nonFinite what (depth + 1)) props m ↔
          List.Forall₂ (AdmitsMember nonFinite what (depth + 1)) props₁ m := fun m => by
        rw [admits_iff, admits_iff, hdescriptors, forall₂_congr_left hvalues fun v hv v' hv' q =>
          ?_]
        obtain ⟨p, hp, rfl⟩ := List.mem_map.mp hv
        exact ih p hp hv'
      have hkeys₁ : (stringKeys props₁).Nodup := by
        rwa [stringKeys_eq, ← hdescriptors, ← stringKeys_eq]
      have hkeys' : (stringKeys props').Nodup := (horder.filterMap _).nodup_iff.mp hkeys₁
      rw [canonicalValue_object_iff hkeys, canonicalValue_object_iff hkeys']
      refine and_congr_right fun _ => and_congr_right fun _ => ?_
      simp only [hcongr]
      constructor
      · rintro ⟨m, hm, rfl⟩
        obtain ⟨m', hm', hsort⟩ := exists_admits_of_perm horder.symm hkeys₁ hm
        exact ⟨m', hm', congrArg Json.obj hsort.symm⟩
      · rintro ⟨m, hm, rfl⟩
        obtain ⟨m', hm', hsort⟩ := exists_admits_of_perm horder hkeys' hm
        exact ⟨m', hm', congrArg Json.obj hsort.symm⟩
  | _ =>
    cases h
    exact Iff.rfl

end Reorder

/-! ## The surfaces that accept data -/

/-- A place where the kernel accepts data. -/
inductive Surface where
  | commandPayload
  | queryPayload
  | errorDetails
  | resultValue
  | requestResource
  | requestContext
  | statementTargetActor
  | statementCondition
deriving DecidableEq

/-- `canonicalAnything` -/
def canonicalAnything (what : JsString) (value : JsValue) : Except NativeError Json :=
  canonicalValue (lit ", and this one has no JSON form") what value 1

/-- The details of a `KernelError`, which may be `null`. -/
def kernelErrorDetails (details : JsValue) : Except NativeError Json :=
  match details with
  | .null => .ok .null
  | v => (actionPayload (lit "KernelError details") v).map CanonicalObject.toJson

namespace Surface

/-- What a refusal calls the data. -/
def what : Surface → JsString
  | commandPayload => lit "a Command payload"
  | queryPayload => lit "a Query payload"
  | errorDetails => lit "KernelError details"
  | resultValue => lit "a Result value"
  | requestResource => lit "a PolicyRequest resource"
  | requestContext => lit "a PolicyRequest context"
  | statementTargetActor => lit "PolicyStatement targetActor"
  | statementCondition => lit "PolicyStatement condition"

/-- What the module of the surface adds to the refusal of a number. -/
def nonFinite : Surface → JsString
  | commandPayload | queryPayload | errorDetails | resultValue =>
      lit ", and this one has no JSON form"
  | _ => []

/-- The canonical value kept of data. -/
def canonicalise : Surface → JsValue → Except NativeError Json
  | commandPayload, value =>
      (actionPayload (lit "a Command payload") value).map CanonicalObject.toJson
  | queryPayload, value =>
      (actionPayload (lit "a Query payload") value).map CanonicalObject.toJson
  | errorDetails, value => kernelErrorDetails value
  | resultValue, value => canonicalAnything (lit "a Result value") value
  | requestResource, value =>
      (canonicalRoot [] (lit "a PolicyRequest resource") value).map CanonicalObject.toJson
  | requestContext, value =>
      (canonicalRoot [] (lit "a PolicyRequest context") value).map CanonicalObject.toJson
  | statementTargetActor, value =>
      (canonicalRoot [] (lit "PolicyStatement targetActor") value).map CanonicalObject.toJson
  | statementCondition, value =>
      (canonicalRoot [] (lit "PolicyStatement condition") value).map CanonicalObject.toJson

/-- The roots a surface takes. -/
def TakesRoot : Surface → JsValue → Prop
  | resultValue, _ => True
  | errorDetails, value => value = .null ∨ ∃ proto props, value = .object proto props
  | _, value => ∃ proto props, value = .object proto props

end Surface

section Surfaces

variable {s : Surface} {v v' : JsValue} {r : Json}

/-- A root is made canonical when it is an object that is. -/
theorem canonicalRoot_map_eq_ok {nonFinite what : JsString} :
    (canonicalRoot nonFinite what v).map CanonicalObject.toJson = .ok r ↔
      (∃ proto props, v = .object proto props) ∧ canonicalValue nonFinite what v 1 = .ok r := by
  rw [map_eq_ok]
  unfold canonicalRoot
  split
  · next proto props =>
    split
    · next r' h =>
      -- an object is canonicalised to an object, so the root is one
      have hobj : r' = .obj r'.members := canonicalValue_object h
      constructor
      · rintro ⟨o, ho, rfl⟩
        obtain rfl := Except.ok.inj ho
        exact ⟨⟨proto, props, rfl⟩, h.trans (congrArg Except.ok hobj)⟩
      · rintro ⟨-, hr⟩
        obtain rfl := Except.ok.inj (h.symm.trans hr)
        exact ⟨_, rfl, hobj.symm⟩
    · next e h => simp [h]
  · next hnot =>
    exact ⟨fun ⟨_, h, _⟩ => (nomatch h), fun ⟨⟨proto, props, hv⟩, _⟩ => (hnot proto props hv).elim⟩

/-- A result that is there is one. -/
theorem toOption_eq_some {ε α : Type} {x : Except ε α} {a : α} :
    x.toOption = some a ↔ x = .ok a := by
  cases x <;> simp [Except.toOption]

/-- A surface canonicalises the roots it takes. -/
theorem Surface.canonicalise_eq_ok : s.canonicalise v = .ok r ↔
    s.TakesRoot v ∧ canonicalValue s.nonFinite s.what v 1 = .ok r := by
  cases s with
  | resultValue => exact ⟨fun h => ⟨trivial, h⟩, And.right⟩
  | errorDetails =>
    rw [canonicalise, TakesRoot]
    unfold kernelErrorDetails
    split
    · simp [canonicalValue]
    · next hnull =>
      rw [or_iff_right hnull]
      exact canonicalRoot_map_eq_ok
  | _ => exact canonicalRoot_map_eq_ok

/-- What is read back of a canonical value is a root the surface takes. -/
theorem Surface.takesRoot_readBack (hroot : s.TakesRoot v)
    (h : canonicalValue s.nonFinite s.what v 1 = .ok r) : s.TakesRoot (.ofJson r.readBack) := by
  have hobject : (∃ proto props, v = .object proto props) →
      ∃ proto props, JsValue.ofJson r.readBack = .object proto props := by
    rintro ⟨proto, props, rfl⟩
    rw [canonicalValue_object h, readBack_obj, JsValue.ofJson]
    exact ⟨_, _, rfl⟩
  cases s with
  | resultValue => trivial
  | errorDetails =>
    rcases hroot with rfl | hroot
    · obtain rfl := Except.ok.inj h
      exact .inl rfl
    · exact .inr (hobject hroot)
  | _ => exact hobject hroot

/-- A surface takes a root in any order of its keys. -/
theorem Surface.takesRoot_reordered (h : Reordered v v') : s.TakesRoot v ↔ s.TakesRoot v' := by
  cases h with
  | refl => exact Iff.rfl
  | array => cases s <;> simp [TakesRoot]
  | object => cases s <;> simp [TakesRoot]

/-- At every surface, what is printed of a canonical value and read back is admitted again and is
the same value with the same text, and data that differs in key order alone is admitted alike, with
one text. -/
theorem Surface.canonical_text (s : Surface) :
    (∀ v r, s.canonicalise v = .ok r →
      ∃ parsed, jsonParse r.stringify = some parsed ∧
        ∃ r', s.canonicalise (.ofJson parsed) = .ok r' ∧ r'.sameValue r = true ∧
          r'.stringify = r.stringify) ∧
    ∀ v v', Reordered v v' →
      (s.canonicalise v).toOption.map Json.stringify =
        (s.canonicalise v').toOption.map Json.stringify := by
  constructor
  · intro v r h
    -- a canonical value reads back as one that is canonical already
    obtain ⟨hroot, hvalue⟩ := canonicalise_eq_ok.mp h
    have hhardened : isHardened r 1 = true := isHardened_of_canonicalValue hvalue
    have hw : r.wellFormed = true := wellFormed_of_isHardened hhardened
    refine ⟨r.readBack, jsonParse_stringify hw, r, canonicalise_eq_ok.mpr
      ⟨takesRoot_readBack hroot hvalue, canonicalValue_readBack _ _ hhardened⟩, ?_, rfl⟩
    exact (sameValue_iff_canonical hw hw).mpr rfl
  · intro v v' h
    -- sorting the members forgets the order in which they were written
    have hsame (r : Json) : s.canonicalise v = .ok r ↔ s.canonicalise v' = .ok r := by
      rw [canonicalise_eq_ok, canonicalise_eq_ok, takesRoot_reordered h, canonicalValue_reordered h]
    have hoption : (s.canonicalise v).toOption = (s.canonicalise v').toOption := by
      refine Option.ext fun r => ?_
      rw [toOption_eq_some, toOption_eq_some, hsame]
    rw [hoption]

end Surfaces

/-- `{ second: "", first: inner }` -/
def descendingSample (inner : JsValue) : JsValue :=
  .object .objectPrototype [((.string (lit "second"), .data), .string []),
    ((.string (lit "first"), .data), inner)]

/-- `{ first: inner, second: "" }` -/
def ascendingSample (inner : JsValue) : JsValue :=
  .object .objectPrototype [((.string (lit "first"), .data), inner),
    ((.string (lit "second"), .data), .string [])]

/-- The two samples are reorderings of each other. -/
theorem reordered_sample {inner inner' : JsValue} (h : Reordered inner inner') :
    Reordered (descendingSample inner) (ascendingSample inner') := by
  have hkeys : [lit "second", lit "first"].Nodup := by decide
  exact @Reordered.object _ _ [((.string (lit "second"), .data), .string []),
    ((.string (lit "first"), .data), inner')] _ hkeys rfl (.cons (.refl _) (.cons h .nil))
    (List.Perm.swap _ _ _)

theorem Surface.canonical_text_sample :
    (∃ r, Surface.commandPayload.canonicalise (descendingSample (descendingSample .null)) = .ok r ∧
      ∃ parsed, jsonParse r.stringify = some parsed ∧
        ∃ r', Surface.commandPayload.canonicalise (.ofJson parsed) = .ok r' ∧
          r'.sameValue r = true ∧ r'.stringify = r.stringify) ∧
    (Surface.commandPayload.canonicalise (descendingSample (descendingSample .null))).toOption.map
        Json.stringify =
      (Surface.commandPayload.canonicalise (ascendingSample (ascendingSample .null))).toOption.map
        Json.stringify := by
  obtain ⟨r, hr⟩ : ∃ r, Surface.commandPayload.canonicalise
      (descendingSample (descendingSample .null)) = .ok r := ⟨_, rfl⟩
  exact ⟨⟨r, hr, (Surface.canonical_text .commandPayload).1 _ r hr⟩,
    (Surface.canonical_text .commandPayload).2 _ _
      (reordered_sample (reordered_sample (.refl _)))⟩

end MetaframerKernel
