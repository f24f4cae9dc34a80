import MetaframerKernel.Js.Digits
import MetaframerKernel.Js.JsonText

/-!
# The order of keys in a text

`JSON.stringify` lists the members of an object in enumeration order: the keys that are array
indices come first, in numeric order, whatever the order the properties were created in. Whether
the keys created in some order come out in that order is a question about those keys alone.

## Main definitions

* `Json.keyLists`: the keys of every object in a value, one list an object;
* `IndicesFirst`: the condition on the keys of one object.

## Main results

* `pairwise_ownOrder_iff`: when enumeration keeps the order of creation;
* `Json.keysInOrder_readBack_iff`: when the text of a value lists its keys in that order.
-/

namespace Js

/-! ## Array indices -/

/-- An array index is spelled in one way. -/
theorem arrayIndex?_inj {k l : JsString} {n : ℕ} (hk : arrayIndex? k = some n)
    (hl : arrayIndex? l = some n) : k = l := by
  have hcanonical {s : JsString} (h : arrayIndex? s = some n) :
      IsCanonical s ∧ decimal s = n := by
    unfold arrayIndex? at h
    split_ifs at h with hform
    obtain ⟨hne, hall, hhead⟩ := hform
    dsimp only at h
    split_ifs at h
    exact ⟨⟨List.all_eq_true.mp hall, hne, hhead⟩, Option.some.inj h⟩
  obtain ⟨hk, hkn⟩ := hcanonical hk
  obtain ⟨hl, hln⟩ := hcanonical hl
  exact eq_of_decimal_eq hk hl (hkn.trans hln.symm)

/-! ## One object -/

/-- Among keys in the order `R`, an array index is preceded by smaller array indices only. -/
def IndicesFirst (R : JsString → JsString → Prop) (keys : List JsString) : Prop :=
  ∀ a ∈ keys, ∀ b ∈ keys, R a b → ∀ n, arrayIndex? b = some n →
    ∃ k, arrayIndex? a = some k ∧ k < n

/-- Whether indices come first is about which keys there are. -/
theorem indicesFirst_congr {R : JsString → JsString → Prop} {keys keys' : List JsString}
    (h : ∀ k, k ∈ keys ↔ k ∈ keys') : IndicesFirst R keys ↔ IndicesFirst R keys' := by
  simp only [IndicesFirst, h]

section Enumeration

variable {α : Type} {R : JsString → JsString → Prop}

/-- Enumeration puts an index before any other key and behind smaller indices, and leaves the keys
that are no index in the order they were created in. -/
theorem pairwise_ownOrder {m : List (JsString × α)} (hm : m.Pairwise fun p q => R p.1 q.1) :
    (ownOrder m).Pairwise fun p q =>
      (∀ n, arrayIndex? q.1 = some n → ∃ k, arrayIndex? p.1 = some k ∧ k ≤ n) ∧
        (arrayIndex? q.1 = none → arrayIndex? p.1 = none → R p.1 q.1) := by
  have hindex {p : JsString × α} (hp : p ∈ (m.filter fun p => (arrayIndex? p.1).isSome)) :
      ∃ k, arrayIndex? p.1 = some k := Option.isSome_iff_exists.mp (List.mem_filter.mp hp).2
  have hother {p : JsString × α} (hp : p ∈ m.filter fun p => !(arrayIndex? p.1).isSome) :
      arrayIndex? p.1 = none := by simpa using (List.mem_filter.mp hp).2
  have hsorted := (List.perm_insertionSort (fun p q : JsString × α =>
    (arrayIndex? p.1).getD 0 ≤ (arrayIndex? q.1).getD 0)
      (m.filter fun p => (arrayIndex? p.1).isSome)).subset
  -- first the indices in their order, and then the others as they were
  rw [ownOrder, List.pairwise_append]
  refine ⟨?_, ?_, fun p hp q hq => ⟨fun n hn => ?_, fun _ hnone => ?_⟩⟩
  · have : IsTrans (JsString × α) fun p q =>
        (arrayIndex? p.1).getD 0 ≤ (arrayIndex? q.1).getD 0 := ⟨fun _ _ _ => le_trans⟩
    have : Std.Total fun p q : JsString × α =>
        (arrayIndex? p.1).getD 0 ≤ (arrayIndex? q.1).getD 0 := ⟨fun _ _ => le_total _ _⟩
    refine (List.pairwise_insertionSort _ _).imp_of_mem fun hp hq hle => ⟨fun n hn => ?_, ?_⟩
    · obtain ⟨k, hk⟩ := hindex (hsorted hp)
      rw [hk, hn] at hle
      exact ⟨k, hk, hle⟩
    · intro hnone
      obtain ⟨k, hk⟩ := hindex (hsorted hq)
      cases hk.symm.trans hnone
  · refine (hm.filter _).imp_of_mem fun _ hq hR => ⟨fun n hn => ?_, fun _ _ => hR⟩
    cases hn.symm.trans (hother hq)
  · cases hn.symm.trans (hother hq)
  · obtain ⟨k, hk⟩ := hindex (hsorted hp)
    cases hk.symm.trans hnone

/-- Of two elements of a list one comes first. -/
theorem pairwise_or {S : α → α → Prop} {l : List α} (h : l.Pairwise S) {x y : α} (hx : x ∈ l)
    (hy : y ∈ l) (hxy : x ≠ y) : S x y ∨ S y x := by
  have hor : l.Pairwise fun x y => S x y ∨ S y x := h.imp fun h => .inl h
  have : Std.Symm fun x y => S x y ∨ S y x := ⟨fun _ _ => Or.symm⟩
  exact hor.forall hx hy hxy

/-- Keys created in the order `R` are enumerated in that order when an index is preceded by
smaller indices only. -/
theorem pairwise_ownOrder_iff (hasymm : ∀ a b, R a b → ¬R b a)
    (htotal : ∀ a b, a ≠ b → R a b ∨ R b a) {m : List (JsString × α)}
    (hm : (m.map Prod.fst).Pairwise R) :
    ((ownOrder m).map Prod.fst).Pairwise R ↔ IndicesFirst R (m.map Prod.fst) := by
  have henumerated := pairwise_ownOrder (List.pairwise_map.mp hm)
  have hne : ∀ a b, R a b → a ≠ b := by
    rintro a _ hR rfl
    exact hasymm a a hR hR
  rw [List.pairwise_map]
  constructor
  · intro hordered a ha b hb hR n hn
    obtain ⟨p, hp, rfl⟩ := List.mem_map.mp ha
    obtain ⟨q, hq, rfl⟩ := List.mem_map.mp hb
    have hperm := (ownOrder_perm m).symm.subset
    have hpq : p ≠ q := fun h => hne _ _ hR (congrArg Prod.fst h)
    -- one of the two is enumerated first, and `R` says which
    rcases pairwise_or (hordered.and henumerated) (hperm hp) (hperm hq) hpq with
      ⟨-, hindex, -⟩ | ⟨hqp, -⟩
    · obtain ⟨k, hk, hle⟩ := hindex n hn
      refine ⟨k, hk, lt_of_le_of_ne hle ?_⟩
      rintro rfl
      exact hne _ _ hR (arrayIndex?_inj hk hn)
    · exact absurd hqp (hasymm _ _ hR)
  · intro hfirst
    have hnodup : ((ownOrder m).map Prod.fst).Nodup :=
      ((ownOrder_perm m).map Prod.fst).nodup_iff.mpr (hm.imp fun {a b} => hne a b)
    refine ((List.pairwise_map.mp hnodup).and henumerated).imp_of_mem
      fun {p q} hp hq ⟨hpq, hindex, hother⟩ => ?_
    have hmem := (ownOrder_perm m).subset
    refine (htotal p.1 q.1 hpq).resolve_right fun hqp => ?_
    have hback := hfirst q.1 (List.mem_map_of_mem (hmem hq)) p.1 (List.mem_map_of_mem (hmem hp)) hqp
    cases hq' : arrayIndex? q.1 with
    | some n =>
      obtain ⟨k, hk, hle⟩ := hindex n hq'
      obtain ⟨n', hn', hlt⟩ := hback k hk
      obtain rfl := Option.some.inj (hq'.symm.trans hn')
      omega
    | none =>
      cases hp' : arrayIndex? p.1 with
      | some k =>
        obtain ⟨n, hn, -⟩ := hback k hp'
        exact nomatch hq'.symm.trans hn
      | none => exact hasymm _ _ hqp (hother hq' hp')

end Enumeration

/-! ## Every object of a value -/

namespace Json

mutual

/-- The keys of every object in a value, at every depth: one list an object. -/
def keyLists : Json → List (List JsString)
  | .arr l => keyListsElems l
  | .obj m => m.map Prod.fst :: keyListsMembers m
  | _ => []

/-- `keyLists` of every element. -/
def keyListsElems : List Json → List (List JsString)
  | [] => []
  | v :: l => keyLists v ++ keyListsElems l

/-- `keyLists` of every member. -/
def keyListsMembers : List (JsString × Json) → List (List JsString)
  | [] => []
  | (_, v) :: m => keyLists v ++ keyListsMembers m

end

/-- Every object lists its keys in the order `R`. -/
def KeysInOrder (R : JsString → JsString → Prop) (v : Json) : Prop :=
  ∀ keys ∈ v.keyLists, keys.Pairwise R

variable {P : List JsString → Prop}

/-- The key lists of an array are those of its elements. -/
theorem forall_keyLists_arr {l : List Json} :
    (∀ keys ∈ (Json.arr l).keyLists, P keys) ↔ ∀ v ∈ l, ∀ keys ∈ v.keyLists, P keys := by
  rw [keyLists]
  induction l with
  | nil => simp [keyListsElems]
  | cons v l ih => rw [keyListsElems, List.forall_mem_append, ih, List.forall_mem_cons]

/-- The key lists of members are those of their values. -/
theorem forall_keyListsMembers {m : List (JsString × Json)} :
    (∀ keys ∈ keyListsMembers m, P keys) ↔ ∀ p ∈ m, ∀ keys ∈ p.2.keyLists, P keys := by
  induction m with
  | nil => simp [keyListsMembers]
  | cons p m ih => rw [keyListsMembers, List.forall_mem_append, ih, List.forall_mem_cons]

/-- The key lists of an object are its own and those of its values. -/
theorem forall_keyLists_obj {m : List (JsString × Json)} :
    (∀ keys ∈ (Json.obj m).keyLists, P keys) ↔
      P (m.map Prod.fst) ∧ ∀ p ∈ m, ∀ keys ∈ p.2.keyLists, P keys := by
  rw [keyLists, List.forall_mem_cons, forall_keyListsMembers]

/-- A value whose keys were created in the order `R` is written in that order when, in every
object, an index is preceded by smaller indices only. -/
theorem keysInOrder_readBack_iff {R : JsString → JsString → Prop} (hasymm : ∀ a b, R a b → ¬R b a)
    (htotal : ∀ a b, a ≠ b → R a b ∨ R b a) {v : Json} (hv : v.KeysInOrder R) :
    v.readBack.KeysInOrder R ↔ ∀ keys ∈ v.keyLists, IndicesFirst R keys := by
  unfold KeysInOrder at hv ⊢
  induction v using Json.ind with
  | arr l ih =>
    rw [forall_keyLists_arr] at hv
    rw [readBack, rebuild, rebuildElems_eq, forall_keyLists_arr, forall_keyLists_arr,
      List.forall_mem_map]
    exact forall₂_congr fun v hmem => ih v hmem (hv v hmem)
  | obj m ih =>
    rw [forall_keyLists_obj] at hv
    rw [readBack, rebuild_obj rearranges_ownOrder, forall_keyLists_obj, forall_keyLists_obj,
      List.forall_mem_map]
    -- reading back sorts the indices to the front,
    -- which keeps the order when they were there already
    refine and_congr ?_ ?_
    · rw [map_fst_map]
      exact pairwise_ownOrder_iff hasymm htotal hv.1
    · constructor
      · intro h p hp
        exact (ih p hp (hv.2 p hp)).mp (h p ((ownOrder_perm m).symm.subset hp))
      · intro h p hp
        have hmem := (ownOrder_perm m).subset hp
        exact (ih p hmem (hv.2 p hmem)).mpr (h p hmem)
  | num n =>
    rw [readBack, rebuild]
    split <;> simp [keyLists]
  | _ => exact iff_of_true (by simp [readBack, rebuild, keyLists]) (by simp [keyLists])

/-- A member is found in the text of an object under its key. -/
theorem lookup_readBack_members {m : List (JsString × Json)} (hm : (m.map Prod.fst).Nodup)
    (k : JsString) :
    ((ownOrder m).map (Prod.map id readBack)).lookup k = (m.lookup k).map readBack := by
  have horder := ownOrder_perm m
  rw [lookup_map, (perm_iff_lookup_eq ((horder.map _).nodup_iff.mpr hm) hm).mp horder]

end Json

end Js
