import MetaframerKernel.Application.EntryHash
import MetaframerKernel.Js.KeyOrder

/-!
# The key order of the canonical texts

The payload of an act is frozen with its keys in ascending order, and the resource and context of a
decision log entry are copied with their keys in descending order before they are hashed. The text
of either lists the keys in that order as far as the enumeration of the runtime keeps it.

## Main definitions

* `ListsAscending`: the text of a payload lists its keys in ascending order;
* `DecisionLogEntry.ListsDescending`: the hashed text lists the keys of resource and context in
  descending order.

## Main results

* `key_order_iff`: the keys for which the two texts do.
-/

namespace MetaframerKernel

open Js Json

/-- The text of a payload lists the keys of every object in ascending order of their code units. -/
def ListsAscending (payload : CanonicalObject) : Prop :=
  ∃ written, jsonParse payload.toJson.stringify = some written ∧ written.KeysInOrder (· < ·)

/-- The text that is hashed lists the keys of every object of the resource and of the context in
descending order of their code units. -/
def DecisionLogEntry.ListsDescending (e : DecisionLogEntry) : Prop :=
  ∃ written, jsonParse e.plainPayloadOf.stringify = some (.obj written) ∧
    (∃ v, written.lookup (lit "requestResource") = some v ∧ v.KeysInOrder (· > ·)) ∧
    ∃ v, written.lookup (lit "requestContext") = some v ∧ v.KeysInOrder (· > ·)

/-! ## The keys as they are created -/

/-- The canonicaliser creates the keys of every object in ascending order. -/
theorem keysInOrder_of_isHardened {v : Json} {depth : ℕ} (h : isHardened v depth = true) :
    v.KeysInOrder (· < ·) := by
  unfold KeysInOrder
  induction v using Json.ind generalizing depth with
  | arr l ih =>
    rw [isHardened_arr] at h
    exact forall_keyLists_arr.mpr fun v hv => ih v hv (h.2 v hv)
  | obj m ih =>
    obtain ⟨-, hsorted, -, hmembers⟩ := (isHardened_obj m depth).mp h
    exact forall_keyLists_obj.mpr ⟨hsorted, fun p hp => ih p hp (hmembers p hp)⟩
  | _ => simp [keyLists]

/-- The loop over the reversed keys creates the keys of every object in descending order. -/
theorem keysInOrder_reorderDescending {v : Json} (hv : v.wellFormed = true) :
    (reorderDescending v).KeysInOrder (· > ·) := by
  unfold KeysInOrder
  induction v using Json.ind with
  | arr l ih =>
    rw [wellFormed_arr] at hv
    rw [reorderDescending_arr, forall_keyLists_arr, List.forall_mem_map]
    exact fun v hmem => ih v hmem (hv v hmem)
  | obj m ih =>
    rw [wellFormed_obj] at hv
    have hmem {p : JsString × Json} (hp : p ∈ assignDescending m) : p ∈ m :=
      rearranges_dropProto.subset m ((assignDescending_perm hv.1).subset hp)
    rw [reorderDescending_obj hv.1, forall_keyLists_obj, List.forall_mem_map, map_fst_map]
    refine ⟨?_, fun p hp => ih p (hmem hp) (hv.2 p (hmem hp))⟩
    rw [assignDescending_eq hv.1, List.map_reverse, List.pairwise_reverse, List.pairwise_map]
    exact pairwise_lt_sortMembers (rearranges_dropProto.nodup m hv.1)
  | _ => simp [reorderDescending, rebuild, keyLists]

/-- The loop keeps the keys of hardened data, object by object. -/
theorem forall_keyLists_reorderDescending {P : List JsString → Prop}
    (hP : ∀ keys keys' : List JsString, keys.Perm keys' → (P keys ↔ P keys')) {v : Json}
    {depth : ℕ} (h : isHardened v depth = true) :
    (∀ keys ∈ (reorderDescending v).keyLists, P keys) ↔ ∀ keys ∈ v.keyLists, P keys := by
  induction v using Json.ind generalizing depth with
  | arr l ih =>
    rw [isHardened_arr] at h
    rw [reorderDescending_arr, forall_keyLists_arr, forall_keyLists_arr, List.forall_mem_map]
    exact forall₂_congr fun v hv => ih v hv (h.2 v hv)
  | obj m ih =>
    obtain ⟨-, hsorted, hrefused, hmembers⟩ := (isHardened_obj m depth).mp h
    have hnodup : (m.map Prod.fst).Nodup := hsorted.imp ne_of_lt
    -- a canonical object has no `__proto__` member to lose
    have hperm : (assignDescending m).Perm m := by
      have hdrop : dropProto m = m := List.filter_eq_self.mpr fun p hp =>
        decide_eq_true fun hproto => hrefused p hp (hproto ▸ List.mem_cons_self)
      have hassign := assignDescending_perm hnodup
      rwa [hdrop] at hassign
    rw [reorderDescending_obj hnodup, forall_keyLists_obj, forall_keyLists_obj,
      List.forall_mem_map, map_fst_map]
    refine and_congr (hP _ _ (hperm.map _)) ?_
    constructor
    · intro hkeys p hp
      exact (ih p hp (hmembers p hp)).mp (hkeys p (hperm.symm.subset hp))
    · intro hkeys p hp
      have hmem := hperm.subset hp
      exact (ih p hmem (hmembers p hmem)).mpr (hkeys p hmem)
  | _ => simp [reorderDescending, rebuild, keyLists]

/-! ## The keys as they are written -/

theorem lt_or_gt_keys (a b : JsString) (h : a ≠ b) : a < b ∨ b < a := lt_or_gt_of_ne h

/-- When the text of a payload lists its keys in ascending order. -/
theorem listsAscending_iff {payload : CanonicalObject} :
    ListsAscending payload ↔ ∀ keys ∈ payload.toJson.keyLists, IndicesFirst (· < ·) keys := by
  have hparse := jsonParse_stringify (wellFormed_of_isHardened payload.hardened)
  have hiff := keysInOrder_readBack_iff (fun a b : JsString => lt_asymm) lt_or_gt_keys
    (keysInOrder_of_isHardened payload.hardened)
  constructor
  · rintro ⟨written, hwritten, hkeys⟩
    obtain rfl := Option.some.inj (hparse.symm.trans hwritten)
    exact hiff.mp hkeys
  · exact fun h => ⟨_, hparse, hiff.mpr h⟩

/-- When the copy of a resource or context is written in descending order. -/
theorem keysInOrder_readBack_descending {o : CanonicalObject} :
    (DecisionLogEntry.descendingKeyOrder o.toJson).readBack.KeysInOrder (· > ·) ↔
      ∀ keys ∈ o.toJson.keyLists, IndicesFirst (· > ·) keys := by
  have hw := wellFormed_of_isHardened o.hardened
  refine (keysInOrder_readBack_iff (fun a b : JsString => lt_asymm)
    (fun a b h => lt_or_gt_keys b a h.symm) (keysInOrder_reorderDescending hw)).trans ?_
  refine forall_keyLists_reorderDescending (fun keys keys' hperm => ?_) o.hardened
  exact indicesFirst_congr fun k => hperm.mem_iff

/-- When the hashed text lists the keys of resource and context in descending order. -/
theorem DecisionLogEntry.listsDescending_iff {e : DecisionLogEntry} :
    e.ListsDescending ↔
      (∀ keys ∈ e.request.resource.toJson.keyLists, IndicesFirst (· > ·) keys) ∧
        ∀ keys ∈ e.request.context.toJson.keyLists, IndicesFirst (· > ·) keys := by
  obtain ⟨members, hmembers, hresource, hcontext⟩ : ∃ members, e.plainPayloadOf = .obj members ∧
      members.lookup (lit "requestResource") =
        some (descendingKeyOrder e.request.resource.toJson) ∧
      members.lookup (lit "requestContext") = some (descendingKeyOrder e.request.context.toJson) :=
    ⟨_, rfl, rfl, rfl⟩
  have hw := wellFormed_plainPayloadOf e
  have hparse := jsonParse_stringify hw
  rw [hmembers] at hw
  have hnodup := ((wellFormed_obj members).mp hw).1
  rw [hmembers, readBack_obj, ← hmembers] at hparse
  have hread := lookup_readBack_members hnodup
  rw [← keysInOrder_readBack_descending, ← keysInOrder_readBack_descending]
  -- the text parses to one value only, and the two members are found in it
  constructor
  · rintro ⟨written, hwritten, ⟨v, hv, hvkeys⟩, w, hw, hwkeys⟩
    obtain rfl := Json.obj.inj (Option.some.inj (hparse.symm.trans hwritten))
    rw [hread, hresource] at hv
    rw [hread, hcontext] at hw
    obtain rfl := Option.some.inj hv
    obtain rfl := Option.some.inj hw
    exact ⟨hvkeys, hwkeys⟩
  · rintro ⟨hvkeys, hwkeys⟩
    exact ⟨_, hparse, ⟨_, by rw [hread, hresource]; rfl, hvkeys⟩,
      _, by rw [hread, hcontext]; rfl, hwkeys⟩

/-- The two texts list their keys in the canonical order exactly when, in every object, the keys
that are array indices come first in that order, smaller before larger. -/
theorem key_order_iff (payload : CanonicalObject) (e : DecisionLogEntry) :
    (ListsAscending payload ↔ ∀ keys ∈ payload.toJson.keyLists, IndicesFirst (· < ·) keys) ∧
      (e.ListsDescending ↔
        (∀ keys ∈ e.request.resource.toJson.keyLists, IndicesFirst (· > ·) keys) ∧
          ∀ keys ∈ e.request.context.toJson.keyLists, IndicesFirst (· > ·) keys) :=
  ⟨listsAscending_iff, DecisionLogEntry.listsDescending_iff⟩

/-- The canonical value of `{ "10": null, "9": null }`. -/
def indexedPayload : CanonicalObject where
  members := [(lit "10", .null), (lit "9", .null)]
  hardened := by decide

/-- The sample entry, about the resource `{ "10": null, "a": null }`. -/
def DecisionLogEntry.sampleIndexed : DecisionLogEntry where
  id := sample.id
  request := { PolicyRequest.sample with
    resource := ⟨[(lit "10", .null), (lit "a", .null)], by decide⟩ }
  decision := sample.decision
  layerResolved := sample.layerResolved
  ts := sample.ts
  prevHash := sample.prevHash
  idOk := sample.idOk
  sameTrace := sample.sameTrace
  layerOk := sample.layerOk
  tsOk := sample.tsOk
  prevHashOk := sample.prevHashOk

/-- Neither text keeps the order when a key is an array index. -/
theorem not_key_order_indexed : ¬ListsAscending indexedPayload ∧
    ¬DecisionLogEntry.sampleIndexed.ListsDescending := by
  constructor
  · rw [listsAscending_iff]
    intro h
    -- "10" < "9" in code units, and 9 is the smaller index
    obtain ⟨k, hk, hlt⟩ := h [lit "10", lit "9"] (by decide) (lit "10") (by decide) (lit "9")
      (by decide) (by decide) 9 (by decide)
    have hten : arrayIndex? (lit "10") = some 10 := by decide
    obtain rfl := Option.some.inj (hten.symm.trans hk)
    omega
  · rw [DecisionLogEntry.listsDescending_iff]
    rintro ⟨h, -⟩
    obtain ⟨k, hk, -⟩ := h [lit "10", lit "a"] (by decide) (lit "a") (by decide) (lit "10")
      (by decide) (by decide) 10 (by decide)
    have hnone : arrayIndex? (lit "a") = none := by decide
    exact nomatch hnone.symm.trans hk

end MetaframerKernel
