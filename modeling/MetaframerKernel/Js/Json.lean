import MetaframerKernel.Js.Numbers
import Mathlib.Data.List.Sort

/-!
# JSON values

The values `JSON.parse` returns: an object is the list of its own properties in the order they
were created, and two objects that list the same properties in different orders are different as
lists but the same JSON value. `sameValue` is that coarser equality; `canonical` picks one
representative of each class, so that equality up to key order becomes equality of terms.

## Main definitions

* `Json`: JSON values;
* `Json.wellFormed`: every number is finite and no object has two properties of one key;
* `Json.sameValue`: equality at every depth, object keys unordered and the two zeros identified;
* `ownOrder`: the order in which JavaScript enumerates own properties;
* `Json.rebuild`: a pass over a value that rewrites its numbers and reorders its properties.

## Main results

* `Json.sameValue_iff_canonical`: on well-formed values, equality up to key order is equality of
  canonical representatives;
* `Json.canonical_rebuild_congr`: reordering the properties of the objects keeps the value.
-/

namespace Js

/-- A JSON value. -/
inductive Json where
  | null
  | bool (b : Bool)
  | num (n : JsNumber)
  | str (s : JsString)
  | arr (elems : List Json)
  | obj (members : List (JsString × Json))

/-! ## Property order -/

section Members

variable {α β : Type}

/-- Members in ascending order of their keys. -/
def sortMembers (m : List (JsString × α)) : List (JsString × α) :=
  m.insertionSort fun p q => p.1 ≤ q.1

/-- The array index a property key is: a canonical decimal below `2 ^ 32 - 1`. -/
def arrayIndex? (k : JsString) : Option ℕ :=
  if k ≠ [] ∧ k.all (CodeUnit.inRange '0' '9') ∧ (k.length = 1 ∨ k.head? ≠ some 48) then
    let n := k.foldl (fun n u => 10 * n + (u.val - 48)) 0
    if n < 4294967295 then some n else none
  else none

/-- Own properties in the order JavaScript enumerates them: array indices in ascending order,
then the other keys in the order they were created. -/
def ownOrder (m : List (JsString × α)) : List (JsString × α) :=
  (m.filter fun p => (arrayIndex? p.1).isSome).insertionSort
      (fun p q => (arrayIndex? p.1).getD 0 ≤ (arrayIndex? q.1).getD 0) ++
    m.filter fun p => !(arrayIndex? p.1).isSome

/-- Define a property: a new key comes last, a key that is there keeps its place. -/
def putMember (k : JsString) (v : α) (m : List (JsString × α)) :
    List (JsString × α) :=
  if m.any fun p => p.1 == k then m.map fun p => if p.1 = k then (k, v) else p
  else m ++ [(k, v)]

/-- The object a list of members defines, one after the other. -/
def collectMembers (m : List (JsString × α)) : List (JsString × α) :=
  m.foldl (fun o p => putMember p.1 p.2 o) []

/-- The members that are read: of those that share a key, the first. -/
def firstMembers : List (JsString × α) → List (JsString × α)
  | [] => []
  | p :: m => p :: (firstMembers m).filter fun q => q.1 ≠ p.1

/-- `"__proto__"`, the one key under which an ordinary object inherits an accessor. -/
def protoKey : JsString := lit "__proto__"

/-- `out[k] = v` on an ordinary object: under `__proto__` the inherited accessor takes the value
and no own property appears. -/
def assignMember (k : JsString) (v : α) (out : List (JsString × α)) : List (JsString × α) :=
  if k = protoKey then out else putMember k v out

/-- The own properties of `{}` after a list of assignments. -/
def assignMembers (m : List (JsString × α)) : List (JsString × α) :=
  m.foldl (fun out p => assignMember p.1 p.2 out) []

/-- Sorting by key keeps the members. -/
theorem sortMembers_perm (m : List (JsString × α)) : (sortMembers m).Perm m :=
  List.perm_insertionSort _ m

/-- Own-property order keeps the members. -/
theorem ownOrder_perm (m : List (JsString × α)) : (ownOrder m).Perm m :=
  ((List.perm_insertionSort _ _).append_right _).trans
    (List.filter_append_perm (fun p : JsString × α => (arrayIndex? p.1).isSome) m)

/-- Sorted members are in ascending key order. -/
theorem pairwise_le_sortMembers (m : List (JsString × α)) :
    (sortMembers m).Pairwise fun p q => p.1 ≤ q.1 := by
  have : IsTrans (JsString × α) fun p q => p.1 ≤ q.1 := ⟨fun _ _ _ => le_trans⟩
  have : Std.Total fun p q : JsString × α => p.1 ≤ q.1 := ⟨fun _ _ => le_total _ _⟩
  exact List.pairwise_insertionSort _ m

/-- Members with distinct keys, sorted, have strictly ascending keys. -/
theorem pairwise_lt_sortMembers {m : List (JsString × α)} (h : (m.map Prod.fst).Nodup) :
    (sortMembers m).Pairwise fun p q => p.1 < q.1 := by
  have hnodup : ((sortMembers m).map Prod.fst).Nodup :=
    ((sortMembers_perm m).map Prod.fst).nodup_iff.mpr h
  rw [List.Nodup, List.pairwise_map] at hnodup
  exact (pairwise_le_sortMembers m).imp₂ (fun _ _ hle hne => lt_of_le_of_ne hle hne) hnodup

/-- The sorted list does not depend on the order the members came in. -/
theorem sortMembers_eq_of_perm {m m' : List (JsString × α)} (hperm : m.Perm m')
    (h : (m.map Prod.fst).Nodup) : sortMembers m = sortMembers m' := by
  have h' : (m'.map Prod.fst).Nodup := (hperm.map Prod.fst).nodup_iff.mp h
  have : Std.Irrefl fun p q : JsString × α => p.1 < q.1 := ⟨fun p => lt_irrefl p.1⟩
  have : Std.Antisymm fun p q : JsString × α => p.1 < q.1 :=
    ⟨fun _ _ hpq hqp => absurd hqp (lt_asymm hpq)⟩
  exact List.Perm.eq_of_pairwise' (pairwise_lt_sortMembers h) (pairwise_lt_sortMembers h')
    (((sortMembers_perm m).trans hperm).trans (sortMembers_perm m').symm)

/-- Sorting looks at keys only. -/
theorem sortMembers_map (g : JsString × α → JsString × β) (hg : ∀ p, (g p).1 = p.1)
    (m : List (JsString × α)) : sortMembers (m.map g) = (sortMembers m).map g :=
  (List.map_insertionSort _ _ _ _ (by simp [hg])).symm

/-- Enumeration order looks at keys only. -/
theorem ownOrder_map (g : JsString × α → JsString × β) (hg : ∀ p, (g p).1 = p.1)
    (m : List (JsString × α)) : ownOrder (m.map g) = (ownOrder m).map g := by
  have hindex : ((fun p : JsString × β => (arrayIndex? p.1).isSome) ∘ g) =
      fun p => (arrayIndex? p.1).isSome := by
    funext p
    rw [Function.comp_apply, hg]
  have hother : ((fun p : JsString × β => !(arrayIndex? p.1).isSome) ∘ g) =
      fun p => !(arrayIndex? p.1).isSome := by
    funext p
    rw [Function.comp_apply, hg]
  rw [ownOrder, ownOrder, List.map_append, List.map_insertionSort
    (fun p q : JsString × α => (arrayIndex? p.1).getD 0 ≤ (arrayIndex? q.1).getD 0)
    (fun p q : JsString × β => (arrayIndex? p.1).getD 0 ≤ (arrayIndex? q.1).getD 0) _ _
    (by simp [hg]), List.filter_map, List.filter_map, hindex, hother]

/-- Members whose keys are no array indices stay where they are. -/
theorem ownOrder_eq_self {m : List (JsString × α)}
    (h : ∀ p ∈ m, arrayIndex? p.1 = none) : ownOrder m = m := by
  have hindex : (m.filter fun p => (arrayIndex? p.1).isSome) = [] :=
    List.filter_eq_nil_iff.mpr fun p hp => by simp [h p hp]
  have hother : (m.filter fun p => !(arrayIndex? p.1).isSome) = m :=
    List.filter_eq_self.mpr fun p hp => by simp [h p hp]
  rw [ownOrder, hindex, hother]
  rfl

/-! ## Reading properties -/

/-- What is found under a key is a member. -/
theorem mem_of_lookup_eq_some {k : JsString} {v : α} {m : List (JsString × α)}
    (h : m.lookup k = some v) : (k, v) ∈ m := by
  induction m with
  | nil => cases h
  | cons p m ih =>
    rw [List.lookup_cons] at h
    split at h
    · next heq =>
      obtain rfl := Option.some.inj h
      rw [beq_iff_eq.mp heq]
      exact List.mem_cons_self
    · exact List.mem_cons_of_mem p (ih h)

/-- With distinct keys, a property is read exactly as it is listed. -/
theorem lookup_eq_some_iff {k : JsString} {v : α} {m : List (JsString × α)}
    (hkeys : (m.map Prod.fst).Nodup) : m.lookup k = some v ↔ (k, v) ∈ m := by
  refine ⟨mem_of_lookup_eq_some, fun h => ?_⟩
  induction m with
  | nil => cases h
  | cons p m ih =>
    rw [List.map_cons, List.nodup_cons] at hkeys
    rcases List.mem_cons.mp h with rfl | hmem
    · simp
    · have hne : (k == p.1) = false :=
        beq_eq_false_iff_ne.mpr fun heq => hkeys.1 (heq ▸ List.mem_map_of_mem hmem)
      rw [List.lookup_cons, hne]
      exact ih hkeys.2 hmem

/-- A function of the values is applied to what is found. -/
theorem lookup_map (f : α → β) (k : JsString) (m : List (JsString × α)) :
    (m.map (Prod.map id f)).lookup k = (m.lookup k).map f := by
  induction m with
  | nil => rfl
  | cons p m ih =>
    rw [List.map_cons, List.lookup_cons, List.lookup_cons, ih]
    change (match k == p.1 with | true => some (f p.2) | false => _) = _
    cases k == p.1 <;> rfl

/-- A filter on keys hides the properties of the other keys. -/
theorem lookup_filter_key (q : JsString → Bool) (k : JsString) (m : List (JsString × α)) :
    (m.filter fun p => q p.1).lookup k = if q k then m.lookup k else none := by
  induction m with
  | nil => simp
  | cons p m ih =>
    rw [List.filter_cons, List.lookup_cons]
    cases hkey : k == p.1 with
    | true =>
      obtain rfl := beq_iff_eq.mp hkey
      by_cases hq : q p.1 = true
      · rw [if_pos hq, if_pos hq, List.lookup_cons, beq_self_eq_true]
      · rw [if_neg hq, ih, if_neg hq, if_neg hq]
    | false =>
      by_cases hq : q p.1 = true
      · rw [if_pos hq, List.lookup_cons, hkey, ih]
      · rw [if_neg hq, ih]

/-- What is read after a sort: members of one key keep their order. -/
theorem lookup_sortMembers (m : List (JsString × α)) (k : JsString) :
    (sortMembers m).lookup k = m.lookup k := by
  -- an insertion goes in front of the members of its key
  have hinsert (p : JsString × α) (m : List (JsString × α)) :
      (m.orderedInsert (fun p q => p.1 ≤ q.1) p).lookup k = (p :: m).lookup k := by
    induction m with
    | nil => rfl
    | cons q m ih =>
      rw [List.orderedInsert_cons]
      split_ifs with hle
      · rfl
      · -- what `p` is put behind has another key
        have hne : q.1 ≠ p.1 := fun heq => hle heq.ge
        rw [List.lookup_cons, ih, List.lookup_cons, List.lookup_cons, List.lookup_cons]
        by_cases hk : k = q.1
        · subst hk
          rw [beq_self_eq_true, beq_eq_false_iff_ne.mpr hne]
        · rw [beq_eq_false_iff_ne.mpr hk]
  induction m with
  | nil => rfl
  | cons p m ih =>
    rw [sortMembers, List.insertionSort_cons, hinsert, List.lookup_cons, List.lookup_cons]
    exact congrArg (fun r => match k == p.1 with | true => some p.2 | false => r) ih

/-- Lists of members with distinct keys are rearrangements of each other when every key reads the
same. -/
theorem perm_iff_lookup_eq {m m' : List (JsString × α)} (hm : (m.map Prod.fst).Nodup)
    (hm' : (m'.map Prod.fst).Nodup) : m.Perm m' ↔ ∀ k, m.lookup k = m'.lookup k := by
  rw [List.perm_ext_iff_of_nodup hm.of_map hm'.of_map]
  constructor
  · intro h k
    refine Option.ext fun v => ?_
    rw [lookup_eq_some_iff hm, lookup_eq_some_iff hm']
    exact h (k, v)
  · intro h p
    rw [← lookup_eq_some_iff hm, ← lookup_eq_some_iff hm', h]

/-! ## Defining properties -/

/-- Assignments are definitions of the keys other than `__proto__`. -/
theorem assignMembers_eq (m : List (JsString × α)) :
    assignMembers m = collectMembers (m.filter fun p => p.1 ≠ protoKey) := by
  have hfold (m o : List (JsString × α)) :
      m.foldl (fun out p => assignMember p.1 p.2 out) o =
        (m.filter fun p => p.1 ≠ protoKey).foldl (fun o p => putMember p.1 p.2 o) o := by
    induction m generalizing o with
    | nil => rfl
    | cons p m ih =>
      rw [List.foldl_cons, ih, assignMember]
      by_cases hproto : p.1 = protoKey
      · rw [if_pos hproto, List.filter_cons_of_neg (by simp [hproto])]
      · rw [if_neg hproto, List.filter_cons_of_pos (by simp [hproto]), List.foldl_cons]
  exact hfold m []

/-- A new key comes last. -/
theorem putMember_of_fresh {k : JsString} {o : List (JsString × α)}
    (h : k ∉ o.map Prod.fst) (v : α) : putMember k v o = o ++ [(k, v)] := by
  refine if_neg fun hany => h ?_
  obtain ⟨q, hq, hkey⟩ := List.any_eq_true.mp hany
  exact List.mem_map.mpr ⟨q, hq, beq_iff_eq.mp hkey⟩

/-- Members with distinct keys define an object with exactly these members. -/
theorem collectMembers_of_nodup {m : List (JsString × α)}
    (h : (m.map Prod.fst).Nodup) : collectMembers m = m := by
  have hput (o m : List (JsString × α)) (hnodup : ((o ++ m).map Prod.fst).Nodup) :
      m.foldl (fun o p => putMember p.1 p.2 o) o = o ++ m := by
    induction m generalizing o with
    | nil => simp
    | cons p m ih =>
      have hsplit := hnodup
      rw [List.map_append, List.nodup_append] at hsplit
      have hfresh : p.1 ∉ o.map Prod.fst := fun hmem =>
        hsplit.2.2 _ hmem p.1 (List.mem_map_of_mem List.mem_cons_self) rfl
      rw [List.foldl_cons, putMember_of_fresh hfresh, ih _ (by simpa using hnodup)]
      simp
  exact hput [] m h

/-- A key that is there keeps its place. -/
theorem map_fst_putMember_of_mem {k : JsString} {o : List (JsString × α)}
    (h : k ∈ o.map Prod.fst) (v : α) : (putMember k v o).map Prod.fst = o.map Prod.fst := by
  obtain ⟨q, hq, hkey⟩ := List.mem_map.mp h
  have hany : (o.any fun p => p.1 == k) = true :=
    List.any_eq_true.mpr ⟨q, hq, beq_iff_eq.mpr hkey⟩
  rw [putMember, if_pos hany, List.map_map]
  refine List.map_congr_left fun p _ => ?_
  rw [Function.comp_apply]
  split
  · next heq => exact heq.symm
  · rfl

/-- Putting a member adds no other. -/
theorem mem_putMember {k : JsString} {v : α} {o : List (JsString × α)} {p : JsString × α}
    (h : p ∈ putMember k v o) : p ∈ o ∨ p = (k, v) := by
  unfold putMember at h
  split at h
  · obtain ⟨q, hq, rfl⟩ := List.mem_map.mp h
    split
    · exact Or.inr rfl
    · exact Or.inl hq
  · simpa using h

/-- What is read after a definition. -/
theorem lookup_putMember (k : JsString) (v : α) (m : List (JsString × α))
    (k' : JsString) : (putMember k v m).lookup k' = if k' = k then some v else m.lookup k' := by
  have hkey (p : JsString × α) : (if p.1 = k then (k, v) else p).1 = p.1 := by
    split
    · next h => exact h.symm
    · rfl
  have hreplace (m : List (JsString × α)) :
      (m.map fun p => if p.1 = k then (k, v) else p).lookup k' =
        if k' = k then (m.lookup k').map fun _ => v else m.lookup k' := by
    induction m with
    | nil => simp
    | cons p m ih =>
      rw [List.map_cons, List.lookup_cons, List.lookup_cons, hkey, ih]
      by_cases hp : k' = p.1
      · subst hp
        by_cases hk : p.1 = k <;> simp [hk]
      · simp [beq_eq_false_iff_ne.mpr hp]
  -- a key that is there is defined in its place, a new one behind the others
  unfold putMember
  split
  · next hany =>
    obtain ⟨q, hq, hqk⟩ := List.any_eq_true.mp hany
    rw [hreplace]
    by_cases hk : k' = k
    · rw [if_pos hk, if_pos hk]
      cases hlookup : m.lookup k' with
      | none =>
        have hne := List.lookup_eq_none_iff.mp hlookup q hq
        rw [hk, bne_iff_ne] at hne
        exact absurd (beq_iff_eq.mp hqk).symm hne
      | some w => rfl
    · rw [if_neg hk, if_neg hk]
  · next hany =>
    rw [List.lookup_append]
    by_cases hk : k' = k
    · have hnone : m.lookup k' = none := List.lookup_eq_none_iff.mpr fun q hq => by
        rw [bne_iff_ne]
        exact fun heq => hany (List.any_eq_true.mpr ⟨q, hq, beq_iff_eq.mpr (heq.symm.trans hk)⟩)
      rw [hnone, if_pos hk]
      simp [hk]
    · rw [if_neg hk]
      simp [beq_eq_false_iff_ne.mpr hk, List.lookup_cons]

/-- Putting a member gives no key twice. -/
theorem nodup_putMember {k : JsString} {v : α} {m : List (JsString × α)}
    (h : (m.map Prod.fst).Nodup) : ((putMember k v m).map Prod.fst).Nodup := by
  by_cases hk : k ∈ m.map Prod.fst
  · rwa [map_fst_putMember_of_mem hk]
  · rw [putMember_of_fresh hk, List.map_append, List.nodup_append]
    refine ⟨h, List.nodup_singleton _, fun a ha b hb hab => hk ?_⟩
    rw [List.map_singleton, List.mem_singleton] at hb
    rwa [show k = a from (hab.trans hb).symm]

/-- The keys of an object that was defined member by member are distinct. -/
theorem nodup_collectMembers (m : List (JsString × α)) :
    ((collectMembers m).map Prod.fst).Nodup := by
  have hfold (o m : List (JsString × α)) (ho : (o.map Prod.fst).Nodup) :
      ((m.foldl (fun o p => putMember p.1 p.2 o) o).map Prod.fst).Nodup := by
    induction m generalizing o with
    | nil => exact ho
    | cons p m ih => exact ih _ (nodup_putMember ho)
  exact hfold [] m List.nodup_nil

/-! ## The first member of a key -/

/-- The first members are members, in their order. -/
theorem firstMembers_sublist (m : List (JsString × α)) : (firstMembers m).Sublist m := by
  induction m with
  | nil => exact .slnil
  | cons p m ih => exact (List.filter_sublist.trans ih).cons_cons p

/-- The first members have distinct keys. -/
theorem nodup_firstMembers (m : List (JsString × α)) :
    ((firstMembers m).map Prod.fst).Nodup := by
  induction m with
  | nil => exact List.nodup_nil
  | cons p m ih =>
    rw [firstMembers, List.map_cons, List.nodup_cons]
    refine ⟨fun hmem => ?_, ih.sublist (List.filter_sublist.map _)⟩
    obtain ⟨q, hq, hkey⟩ := List.mem_map.mp hmem
    exact of_decide_eq_true (List.mem_filter.mp hq).2 hkey

/-- With distinct keys every member is the first. -/
theorem firstMembers_of_nodup {m : List (JsString × α)} (h : (m.map Prod.fst).Nodup) :
    firstMembers m = m := by
  induction m with
  | nil => rfl
  | cons p m ih =>
    rw [List.map_cons, List.nodup_cons] at h
    rw [firstMembers, ih h.2, List.filter_eq_self.mpr]
    intro q hq
    exact decide_eq_true fun heq => h.1 (heq ▸ List.mem_map_of_mem hq)

/-- A read finds the first member of a key. -/
theorem lookup_firstMembers (m : List (JsString × α)) (k : JsString) :
    (firstMembers m).lookup k = m.lookup k := by
  induction m with
  | nil => rfl
  | cons p m ih =>
    rw [firstMembers, List.lookup_cons, List.lookup_cons]
    by_cases hk : k = p.1
    · rw [hk, beq_self_eq_true]
    · rw [lookup_filter_key (fun key => decide (key ≠ p.1)), if_pos (decide_eq_true hk), ih]

/-- The first of members in ascending order of their keys are in strictly ascending order. -/
theorem pairwise_lt_firstMembers {m : List (JsString × α)}
    (hm : m.Pairwise fun p q => p.1 ≤ q.1) :
    ((firstMembers m).map Prod.fst).Pairwise (· < ·) := by
  have hle := hm.sublist (firstMembers_sublist m)
  exact List.pairwise_map.mpr (hle.imp₂ (fun _ _ hle hne => lt_of_le_of_ne hle hne)
    (List.pairwise_map.mp (nodup_firstMembers m)))

end Members

namespace Json

/-! ## Induction and traversal -/

/-- Induction over a JSON value: the members of an array or object come with the hypothesis. -/
@[elab_as_elim]
theorem ind {P : Json → Prop} (null : P .null) (bool : ∀ b, P (.bool b)) (num : ∀ n, P (.num n))
    (str : ∀ s, P (.str s)) (arr : ∀ l, (∀ v ∈ l, P v) → P (.arr l))
    (obj : ∀ m, (∀ p ∈ m, P p.2) → P (.obj m)) (v : Json) : P v :=
  @Json.rec P (fun l => ∀ v ∈ l, P v) (fun m => ∀ p ∈ m, P p.2) (fun p => P p.2)
    null bool num str arr obj (by simp) (fun _ _ hv hl => List.forall_mem_cons.mpr ⟨hv, hl⟩)
    (by simp) (fun _ _ hp hm => List.forall_mem_cons.mpr ⟨hp, hm⟩) (fun _ _ hv => hv) v

section Rebuild

variable (num : JsNumber → Json) (order : List (JsString × Json) → List (JsString × Json))

mutual

/-- Rewrite every number of a value and rearrange the members of every object. -/
def rebuild : Json → Json
  | .null => .null
  | .bool b => .bool b
  | .num n => num n
  | .str s => .str s
  | .arr l => .arr (rebuildElems l)
  | .obj m => .obj (order (rebuildMembers m))

/-- `rebuild` at every element. -/
def rebuildElems : List Json → List Json
  | [] => []
  | v :: l => rebuild v :: rebuildElems l

/-- `rebuild` at every member. -/
def rebuildMembers : List (JsString × Json) → List (JsString × Json)
  | [] => []
  | (k, v) :: m => (k, rebuild v) :: rebuildMembers m

end

/-- Elements are rebuilt one by one. -/
theorem rebuildElems_eq (l : List Json) :
    rebuildElems num order l = l.map (rebuild num order) := by
  induction l with
  | nil => rfl
  | cons v l ih => rw [rebuildElems, ih, List.map_cons]

/-- Members are rebuilt one by one. -/
theorem rebuildMembers_eq (m : List (JsString × Json)) :
    rebuildMembers num order m = m.map (Prod.map id (rebuild num order)) := by
  induction m with
  | nil => rfl
  | cons p m ih => rw [rebuildMembers, ih, List.map_cons]; rfl

end Rebuild

/-- The members of a mapped object have the keys of the object. -/
theorem map_fst_map (f : Json → Json) (m : List (JsString × Json)) :
    (m.map (Prod.map id f)).map Prod.fst = m.map Prod.fst := by
  simp

/-- The members of an object. -/
def members : Json → List (JsString × Json)
  | .obj m => m
  | _ => []

/-! ## Well-formed values -/

mutual

/-- Every number is finite and no object has two members of one key: what holds of every value
`JSON.parse` returns whose numbers have not overflowed. -/
def wellFormed : Json → Bool
  | .num n => n.isFinite
  | .arr l => wellFormedElems l
  | .obj m => decide (m.map Prod.fst).Nodup && wellFormedMembers m
  | _ => true

/-- `wellFormed` of every element. -/
def wellFormedElems : List Json → Bool
  | [] => true
  | v :: l => wellFormed v && wellFormedElems l

/-- `wellFormed` of every member. -/
def wellFormedMembers : List (JsString × Json) → Bool
  | [] => true
  | (_, v) :: m => wellFormed v && wellFormedMembers m

end

/-- An array is well formed when its elements are. -/
@[simp]
theorem wellFormed_arr (l : List Json) :
    (Json.arr l).wellFormed = true ↔ ∀ v ∈ l, v.wellFormed = true := by
  rw [wellFormed]
  induction l with
  | nil => simp [wellFormedElems]
  | cons v l ih => simp [wellFormedElems, ih]

/-- Members are well formed when their values are. -/
theorem wellFormedMembers_iff (m : List (JsString × Json)) :
    wellFormedMembers m = true ↔ ∀ p ∈ m, p.2.wellFormed = true := by
  induction m with
  | nil => simp [wellFormedMembers]
  | cons p m ih => simp [wellFormedMembers, ih]

/-- An object is well formed when its keys are distinct and its values well formed. -/
@[simp]
theorem wellFormed_obj (m : List (JsString × Json)) :
    (Json.obj m).wellFormed = true ↔
      (m.map Prod.fst).Nodup ∧ ∀ p ∈ m, p.2.wellFormed = true := by
  rw [wellFormed, Bool.and_eq_true, decide_eq_true_iff, wellFormedMembers_iff]

/-! ## Equality up to key order -/

mutual

/-- Equality of JSON values at every depth: numbers by their value, so that the two zeros are one,
and objects by their properties, in whatever order they are listed. -/
def sameValue : Json → Json → Bool
  | .null, .null => true
  | .bool a, .bool b => a == b
  | .num x, .num y => x.unsignZero == y.unsignZero
  | .str s, .str t => s == t
  | .arr l, .arr l' => sameElems l l'
  | .obj m, .obj m' => m.length == m'.length && sameMembers m m'
  | _, _ => false

/-- `sameValue` element by element. -/
def sameElems : List Json → List Json → Bool
  | [], [] => true
  | v :: l, v' :: l' => sameValue v v' && sameElems l l'
  | _, _ => false

/-- Every member on the left has a member on the right of the same key and value. -/
def sameMembers : List (JsString × Json) → List (JsString × Json) → Bool
  | [], _ => true
  | (k, v) :: m, m' => (m'.any fun q => q.1 == k && sameValue v q.2) && sameMembers m m'

end

/-- The representative of a value: members sorted by key, zeros unsigned. -/
def canonical : Json → Json := rebuild (fun n => .num n.unsignZero) sortMembers

/-- The canonical form of an array is that of its elements. -/
@[simp]
theorem canonical_arr (l : List Json) : canonical (.arr l) = .arr (l.map canonical) := by
  rw [canonical, rebuild, rebuildElems_eq]

/-- The canonical form of an object is that of its members, sorted by key. -/
@[simp]
theorem canonical_obj (m : List (JsString × Json)) :
    canonical (.obj m) = .obj ((sortMembers m).map (Prod.map id canonical)) := by
  rw [canonical, rebuild, rebuildMembers_eq, sortMembers_map (Prod.map id _) fun _ => rfl]

/-- Members are the same when each is found, under its key, with the same value. -/
theorem sameMembers_iff (m m' : List (JsString × Json)) :
    sameMembers m m' = true ↔ ∀ p ∈ m, ∃ q ∈ m', q.1 = p.1 ∧ sameValue p.2 q.2 = true := by
  induction m with
  | nil => simp [sameMembers]
  | cons p m ih => simp [sameMembers, ih]

/-- Objects are the same value when, keys sorted, their members are. -/
theorem sortMembers_map_eq_iff {f : Json → Json} {m m' : List (JsString × Json)}
    (hm : (m.map Prod.fst).Nodup) :
    (sortMembers m).map (Prod.map id f) = (sortMembers m').map (Prod.map id f) ↔
      m.length = m'.length ∧ ∀ p ∈ m, ∃ q ∈ m', q.1 = p.1 ∧ f p.2 = f q.2 := by
  have hkeys : ((m.map (Prod.map id f)).map Prod.fst).Nodup := by rwa [map_fst_map]
  rw [← sortMembers_map (Prod.map id _) fun _ => rfl, ← sortMembers_map (Prod.map id _) fun _ =>
    rfl]
  constructor
  · intro h
    have hperm : (m.map (Prod.map id f)).Perm (m'.map (Prod.map id f)) :=
      (sortMembers_perm _).symm.trans (h ▸ sortMembers_perm _)
    refine ⟨by simpa using hperm.length_eq, fun p hp => ?_⟩
    obtain ⟨q, hq, heq⟩ := List.mem_map.mp (hperm.subset (List.mem_map_of_mem hp))
    exact ⟨q, hq, (Prod.ext_iff.mp heq).1, (Prod.ext_iff.mp heq).2.symm⟩
  · rintro ⟨hlen, hmem⟩
    refine sortMembers_eq_of_perm ?_ hkeys
    -- as many members, each found on the other side, and no key twice
    refine (List.subperm_of_subset hkeys.of_map ?_).perm_of_length_le (by simp [hlen])
    intro p' hp'
    obtain ⟨p, hp, rfl⟩ := List.mem_map.mp hp'
    obtain ⟨q, hq, hkey, hval⟩ := hmem p hp
    exact List.mem_map.mpr ⟨q, hq, Prod.ext hkey hval.symm⟩

/-- On well-formed values, equality up to key order is equality of representatives. -/
theorem sameValue_iff_canonical {a b : Json} (ha : a.wellFormed = true)
    (hb : b.wellFormed = true) : sameValue a b = true ↔ canonical a = canonical b := by
  induction a using ind generalizing b with
  | null => cases b <;> simp [sameValue, canonical, rebuild]
  | bool x => cases b <;> simp [sameValue, canonical, rebuild]
  | num n => cases b <;> simp [sameValue, canonical, rebuild]
  | str s => cases b <;> simp [sameValue, canonical, rebuild]
  | arr l ih =>
    cases b with
    | arr l' =>
      rw [wellFormed_arr] at ha hb
      rw [canonical_arr, canonical_arr, sameValue, Json.arr.injEq]
      induction l generalizing l' with
      | nil => cases l' <;> simp [sameElems]
      | cons v l ihl =>
        cases l' with
        | nil => simp [sameElems]
        | cons v' l' =>
          simp only [List.forall_mem_cons] at ha hb ih
          rw [sameElems, Bool.and_eq_true, ih.1 ha.1 hb.1, ihl ih.2 ha.2 l' hb.2, List.map_cons,
            List.map_cons, List.cons.injEq]
    | _ => simp [sameValue, canonical, rebuild]
  | obj m ih =>
    cases b with
    | obj m' =>
      rw [wellFormed_obj] at ha hb
      -- sorted members are equal when each has one of its key and value on the other side
      rw [canonical_obj, canonical_obj, sameValue, Json.obj.injEq, sortMembers_map_eq_iff ha.1,
        Bool.and_eq_true, beq_iff_eq, sameMembers_iff]
      refine and_congr_right fun _ => forall₂_congr fun p hp => ?_
      refine exists_congr fun q => and_congr_right fun hq => and_congr_right fun _ => ?_
      exact ih p hp (ha.2 p hp) (hb.2 q hq)
    | _ => simp [sameValue, canonical, rebuild]

/-- Objects are the same value when every key reads the same value. -/
theorem canonical_obj_eq_iff {m m' : List (JsString × Json)} (hm : (m.map Prod.fst).Nodup)
    (hm' : (m'.map Prod.fst).Nodup) : canonical (.obj m) = canonical (.obj m') ↔
      ∀ k, (m.lookup k).map canonical = (m'.lookup k).map canonical := by
  have hkeys : ((m.map (Prod.map id canonical)).map Prod.fst).Nodup := by rwa [map_fst_map]
  have hkeys' : ((m'.map (Prod.map id canonical)).map Prod.fst).Nodup := by rwa [map_fst_map]
  simp only [← lookup_map]
  rw [← perm_iff_lookup_eq hkeys hkeys', canonical_obj, canonical_obj, obj.injEq,
    ← sortMembers_map (Prod.map id canonical) fun _ => rfl,
    ← sortMembers_map (Prod.map id canonical) fun _ => rfl]
  constructor
  · intro h
    exact (sortMembers_perm _).symm.trans (h ▸ sortMembers_perm _)
  · intro h
    exact sortMembers_eq_of_perm h hkeys

/-- Objects of the same canonical form read the same under a key both have. -/
theorem canonical_eq_of_lookup {m m' : List (JsString × Json)} (hm : (m.map Prod.fst).Nodup)
    (hm' : (m'.map Prod.fst).Nodup) (h : canonical (.obj m) = canonical (.obj m')) {k : JsString}
    {x y : Json} (hx : m.lookup k = some x) (hy : m'.lookup k = some y) :
    canonical x = canonical y := by
  have hread := (canonical_obj_eq_iff hm hm').mp h k
  rw [hx, hy] at hread
  exact Option.some.inj hread

/-- A value of the same canonical form as a string is that string. -/
theorem eq_str_of_canonical {v : Json} {s : JsString} (h : canonical v = canonical (.str s)) :
    v = .str s := by
  cases v <;> simp_all [canonical, rebuild]

/-- `null` alone has its canonical form. -/
theorem eq_null_of_canonical {v : Json} (h : canonical v = canonical .null) : v = .null := by
  cases v <;> simp_all [canonical, rebuild]

/-! ## Passes over a value -/

/-- A rearrangement of members that looks at keys only, invents none and repeats none. -/
structure Rearranges (order : List (JsString × Json) → List (JsString × Json)) : Prop where
  map : ∀ f m, order (m.map (Prod.map id f)) = (order m).map (Prod.map id f)
  subset : ∀ m, order m ⊆ m
  nodup : ∀ m, (m.map Prod.fst).Nodup → ((order m).map Prod.fst).Nodup

/-- Leaving members in order rearranges them. -/
theorem rearranges_id : Rearranges id := ⟨fun _ _ => rfl, fun _ => List.Subset.refl _, fun _ h => h⟩

/-- Own-property order rearranges the members. -/
theorem rearranges_ownOrder : Rearranges ownOrder where
  map f m := ownOrder_map (Prod.map id f) (fun _ => rfl) m
  subset m := (ownOrder_perm m).subset
  nodup m h := ((ownOrder_perm m).map Prod.fst).nodup_iff.mpr h

/-- An object is rebuilt from its rearranged members. -/
theorem rebuild_obj {num : JsNumber → Json} {order : List (JsString × Json) → _}
    (horder : Rearranges order) (m : List (JsString × Json)) :
    rebuild num order (.obj m) = .obj ((order m).map (Prod.map id (rebuild num order))) := by
  rw [rebuild, rebuildMembers_eq, horder.map]

/-- A pass that changes nothing. -/
theorem rebuild_id (v : Json) : rebuild .num id v = v := by
  induction v using ind with
  | arr l ih =>
    rw [rebuild, rebuildElems_eq]
    congr 1
    exact (List.map_congr_left ih).trans (List.map_id l)
  | obj m ih =>
    rw [rebuild_obj rearranges_id]
    have hfix : ∀ p ∈ m, Prod.map id (rebuild .num id) p = id p := fun p hp =>
      Prod.ext rfl (ih p hp)
    congr 1
    exact (List.map_congr_left hfix).trans (List.map_id m)
  | _ => rfl

/-- Passes that keep the same members and the same numbers return the same value. -/
theorem canonical_rebuild_congr {num num' : JsNumber → Json}
    {order order' : List (JsString × Json) → List (JsString × Json)}
    (hnum : ∀ n, n.isFinite = true → canonical (num n) = canonical (num' n))
    (horder : Rearranges order) (horder' : Rearranges order')
    (hperm : ∀ m, (m.map Prod.fst).Nodup → (order m).Perm (order' m)) {v : Json}
    (hv : v.wellFormed = true) :
    canonical (rebuild num order v) = canonical (rebuild num' order' v) := by
  induction v using ind with
  | null => rfl
  | bool b => rfl
  | num n => exact hnum n hv
  | str s => rfl
  | arr l ih =>
    rw [wellFormed_arr] at hv
    rw [rebuild, rebuild, rebuildElems_eq, rebuildElems_eq, canonical_arr, canonical_arr,
      List.map_map, List.map_map]
    congr 1
    exact List.map_congr_left fun v hmem => ih v hmem (hv v hmem)
  | obj m ih =>
    rw [wellFormed_obj] at hv
    -- the order of a pass is forgotten by the sorting
    have hsort : sortMembers (order m) = sortMembers (order' m) :=
      sortMembers_eq_of_perm (hperm m hv.1) (horder.nodup m hv.1)
    rw [rebuild_obj horder, rebuild_obj horder', canonical_obj, canonical_obj,
      sortMembers_map (Prod.map id _) fun _ => rfl, sortMembers_map (Prod.map id _) fun _ => rfl,
      hsort, List.map_map, List.map_map]
    congr 1
    refine List.map_congr_left fun p hp => ?_
    have hmem : p ∈ m := horder'.subset m ((sortMembers_perm _).subset hp)
    exact Prod.ext rfl (ih p hmem (hv.2 p hmem))

/-- A pass keeps a value well formed. -/
theorem wellFormed_rebuild {num : JsNumber → Json}
    {order : List (JsString × Json) → List (JsString × Json)}
    (hnum : ∀ n, n.isFinite = true → (num n).wellFormed = true)
    (horder : Rearranges order) {v : Json} (hv : v.wellFormed = true) :
    (rebuild num order v).wellFormed = true := by
  -- only a number and an object are changed by the pass
  induction v using ind with
  | null => rfl
  | bool b => rfl
  | num n => exact hnum n hv
  | str s => rfl
  | arr l ih =>
    rw [wellFormed_arr] at hv
    rw [rebuild, rebuildElems_eq, wellFormed_arr]
    exact List.forall_mem_map.mpr fun v hmem => ih v hmem (hv v hmem)
  | obj m ih =>
    rw [wellFormed_obj] at hv
    rw [rebuild_obj horder, wellFormed_obj, map_fst_map]
    refine ⟨horder.nodup m hv.1, List.forall_mem_map.mpr fun p hp => ?_⟩
    have hmem := horder.subset m hp
    exact ih p hmem (hv.2 p hmem)

end Json

end Js
