import MetaframerKernel.Application.CommitReceipt
import MetaframerKernel.Js.Coercions
import Mathlib.Data.List.Sort

/-!
# The layers of the onion contract

`parseCanonicalLayers` and `mergeArchitectureFitnessSupplement` of the import-direction gate: the
canonical contract gives each layer its order, and a supplement may put one more layer between them.
`toLowerCase` is any function of the names.

## Main definitions

* `parseCanonicalLayers`: the order of each layer, or a refusal;
* `mergeArchitectureFitnessSupplement`: the layers with that of the supplement, or a refusal.

## Main results

* `parse_eq_ok_iff`, `parse_layersOf_eq_ok_iff`: the contracts that are accepted, from their layers
  and from their file;
* `isContiguous_shift`: the orders that a supplement may put its layer at;
* `merge_parse`: what is merged into an accepted contract is accepted, with the canonical layers in
  their old order.
-/

namespace MetaframerKernel.ArchitectureFitness

open Js

/-! ## The contract -/

/-- A layer that passes the checks of an entry. -/
structure OnionLayer where
  name : JsString
  order : ℤ
deriving DecidableEq

/-- The integer a Number is, when `Number.isInteger` holds of it. -/
def integer? : JsNumber → Option ℤ
  | .finite x =>
      if 0 ≤ x.exp then
        some (if x.neg then -(x.coeff * 10 ^ x.exp.toNat : ℕ) else (x.coeff * 10 ^ x.exp.toNat : ℕ))
      else none
  | _ => none

/-- `typeof value === "string" && value.trim() !== ""` -/
def nonBlankString? : Option Json → Option JsString
  | some (.str s) => if isNonBlank s then some s else none
  | _ => none

/-- `Number.isInteger(value)` -/
def integerAt? : Option Json → Option ℤ
  | some (.num n) => integer? n
  | _ => none

/-- An entry of `layers`, when it is valid. -/
def layerEntry (layer : Json) : Option OnionLayer := do
  let name ← nonBlankString? (layer.members.lookup (lit "name"))
  let order ← integerAt? (layer.members.lookup (lit "order"))
  return ⟨name, order⟩

/-- `architectureContract?.onion?.layers`, when it is an array, with its valid entries. -/
def layersOf (architectureContract : Json) : Option (List (Option OnionLayer)) := do
  let onion ← architectureContract.members.lookup (lit "onion")
  let layers ← onion.members.lookup (lit "layers")
  match layers with
  | .arr entries => some (entries.map layerEntry)
  | _ => none

/-- The map from a layer's name, in lower case, to its order. -/
abbrev LayerOrder : Type := List (JsString × ℤ)

/-- Whether the orders are `1` to `N`. -/
def isContiguous (orders : List ℤ) : Bool :=
  (orders.insertionSort (· ≤ ·)).zipIdx.all fun p => p.1 = p.2 + 1

section Contract

variable (toLowerCase : JsString → JsString)

/-- One entry of the loop of `parseCanonicalLayers`. -/
def addLayer (layerOrder : LayerOrder) (layer : Option OnionLayer) : Except JsString LayerOrder :=
  match layer with
  | none => .error (lit "canonical-layer-contract-invalid: malformed layer entry")
  | some layer =>
      let key := toLowerCase layer.name
      if (layerOrder.lookup key).isSome then
        .error (lit "canonical-layer-contract-invalid: duplicate layer " ++ key)
      else .ok (layerOrder ++ [(key, layer.order)])

/-- `parseCanonicalLayers`, on the layers of the contract. -/
def parseCanonicalLayers (layers : Option (List (Option OnionLayer))) :
    Except JsString LayerOrder :=
  match layers with
  | none | some [] => .error (lit "canonical-layer-contract-invalid: layers missing or empty")
  | some layers => do
      let layerOrder ← layers.foldlM (addLayer toLowerCase) []
      if isContiguous (layerOrder.map Prod.snd) then return layerOrder
      else throw (lit
        "canonical-layer-contract-invalid: layer order is not a contiguous 1..N sequence")

/-! ## The supplement -/

/-- What is read of a layer to add. -/
structure SupplementLayer where
  name : JsString
  order : ℤ
  dependsOn : List JsString

/-- `supplement?.layer`, when its shape is valid. -/
def supplementLayer? (supplement : Json) : Option SupplementLayer := do
  let layer ← supplement.members.lookup (lit "layer")
  let name ← nonBlankString? (layer.members.lookup (lit "name"))
  let order ← integerAt? (layer.members.lookup (lit "order"))
  -- the position has to be there and is not read
  let _ ← nonBlankString? (layer.members.lookup (lit "position"))
  match layer.members.lookup (lit "dependsOn") with
  | some (.arr dependsOn) =>
      let names ← dependsOn.mapM fun dep => nonBlankString? (some dep)
      if names.isEmpty then none else some ⟨name, order, names⟩
  | _ => none

/-- The order of a layer at or beyond the one that is added. -/
def shift (order existing : ℤ) : ℤ := if existing ≥ order then existing + 1 else existing

/-- The layers, shifted to make room, with the one that is added. -/
def shifted (layers : List OnionLayer) (layer : SupplementLayer) : List OnionLayer :=
  layers.map (fun existing => { existing with order := shift layer.order existing.order }) ++
    [⟨layer.name, layer.order⟩]

/-- A refusal of the supplement. -/
def supplementInvalid (reason : JsString) : JsString :=
  lit "architecture-fitness-supplement-invalid: " ++ reason

/-- The layer put between the others. -/
def insertLayer (layers : List OnionLayer) (layer : SupplementLayer) :
    Except JsString (List OnionLayer) := do
  throwIf (layer.name ≠ lit "SDK") (supplementInvalid
    (lit "names " ++ layer.name ++ lit ", only SDK is a permitted V9 supplement"))
  let existingNames := layers.map fun existing => toLowerCase existing.name
  throwIf (toLowerCase layer.name ∈ existingNames)
    (supplementInvalid (lit "duplicate layer, SDK is already canonical"))
  -- it may depend on canonical layers only
  layer.dependsOn.forM fun dep => throwIf (toLowerCase dep ∉ existingNames)
    (supplementInvalid (lit "dependsOn names an unknown layer " ++ dep))
  let merged := shifted layers layer
  -- the layers at or above the new order have moved up by one
  throwIf (isContiguous (merged.map OnionLayer.order) = false)
    (supplementInvalid (lit "non-contiguous order after merge"))
  throwIf (¬(merged.map fun entry => toLowerCase entry.name).Nodup)
    (supplementInvalid (lit "duplicate name after merge"))
  return merged.insertionSort fun a b => a.order ≤ b.order

/-- `mergeArchitectureFitnessSupplement`, on layers whose names are strings and whose orders are
integers. -/
def mergeArchitectureFitnessSupplement (layers : Option (List OnionLayer))
    (supplement : Option Json) : Except JsString (Option (List OnionLayer)) :=
  match supplement with
  -- without a supplement the canonical layers are handed on as they are
  | none | some .null => .ok layers
  | some supplement =>
      match layers with
      | none | some [] =>
          .error (supplementInvalid (lit "canonical layers missing or empty"))
      | some layers =>
          match supplementLayer? supplement with
          | none => .error (supplementInvalid (lit "malformed layer entry"))
          | some layer => some <$> insertLayer toLowerCase layers layer

end Contract

/-! ## Contiguous orders -/

/-- The orders `1` to `n`. -/
def oneTo (n : ℕ) : List ℤ := (List.range n).map fun i : ℕ => (i : ℤ) + 1

/-- The orders are those from one to `n`. -/
theorem mem_oneTo {n : ℕ} {z : ℤ} : z ∈ oneTo n ↔ 1 ≤ z ∧ z ≤ n := by
  simp only [oneTo, List.mem_map, List.mem_range]
  constructor
  · rintro ⟨i, hi, rfl⟩
    omega
  · rintro ⟨h₁, h₂⟩
    exact ⟨(z - 1).toNat, by omega, by omega⟩

/-- No order is there twice. -/
theorem nodup_oneTo (n : ℕ) : (oneTo n).Nodup :=
  List.nodup_range.map fun i j h => by simpa using h

/-- The orders are ascending. -/
theorem pairwise_oneTo (n : ℕ) : (oneTo n).Pairwise (· ≤ ·) := by
  refine List.pairwise_map.mpr (List.pairwise_lt_range.imp fun h => ?_)
  exact add_le_add_left (Int.ofNat_le.mpr h.le) 1

/-- Orders are contiguous when they are `1` to `N` in some order. -/
theorem isContiguous_iff {orders : List ℤ} :
    isContiguous orders = true ↔ orders.Perm (oneTo orders.length) := by
  have hlist : isContiguous orders = true ↔
      orders.insertionSort (· ≤ ·) = oneTo orders.length := by
    have hlength := List.length_insertionSort (· ≤ ·) orders
    rw [isContiguous, List.all_eq_true]
    constructor
    · intro h
      refine List.ext_getElem (by rw [hlength, oneTo, List.length_map, List.length_range]) ?_
      intro i hi hi'
      have hat := h ((orders.insertionSort (· ≤ ·))[i], i)
        (List.mem_zipIdx_iff_getElem?.mpr (List.getElem?_eq_getElem hi))
      simpa [oneTo] using hat
    · rintro h ⟨z, i⟩ hz
      rw [List.mem_zipIdx_iff_getElem?, h] at hz
      obtain ⟨hi, hat⟩ := List.getElem?_eq_some_iff.mp hz
      simpa [oneTo, eq_comm] using hat
  rw [hlist]
  constructor
  · intro h
    exact h ▸ (List.perm_insertionSort (· ≤ ·) orders).symm
  · intro h
    exact ((List.perm_insertionSort (· ≤ ·) orders).trans h).eq_of_pairwise'
      (List.pairwise_insertionSort (· ≤ ·) orders) (pairwise_oneTo _)

/-- Contiguous orders lie between `1` and their number. -/
theorem mem_of_isContiguous {orders : List ℤ} (h : isContiguous orders = true) {z : ℤ} :
    z ∈ orders ↔ 1 ≤ z ∧ z ≤ orders.length := by
  rw [(isContiguous_iff.mp h).mem_iff, mem_oneTo]

/-- No two contiguous orders are equal. -/
theorem nodup_of_isContiguous {orders : List ℤ} (h : isContiguous orders = true) : orders.Nodup :=
  (isContiguous_iff.mp h).nodup_iff.mpr (nodup_oneTo _)

/-- An order is put between contiguous ones exactly when it is at most one beyond the last. -/
theorem isContiguous_shift {orders : List ℤ} (h : isContiguous orders = true) (order : ℤ) :
    isContiguous (orders.map (shift order) ++ [order]) = true ↔
      1 ≤ order ∧ order ≤ orders.length + 1 := by
  have hlength : (orders.map (shift order) ++ [order]).length = orders.length + 1 := by simp
  constructor
  · intro hmerged
    have hmem := (mem_of_isContiguous hmerged).mp (List.mem_append_right _ List.mem_cons_self)
    rw [hlength] at hmem
    exact ⟨hmem.1, by exact_mod_cast hmem.2⟩
  · rintro ⟨hlow, hhigh⟩
    rw [isContiguous_iff, hlength]
    have hinj : Function.Injective (shift order) := fun a b hab => by
      unfold shift at hab
      split_ifs at hab <;> omega
    have hnotMem : order ∉ orders.map (shift order) := by
      rintro hmem
      obtain ⟨z, -, hz⟩ := List.mem_map.mp hmem
      unfold shift at hz
      split_ifs at hz <;> omega
    have hnodup : (orders.map (shift order) ++ [order]).Nodup :=
      ((nodup_of_isContiguous h).map hinj).append (List.nodup_singleton _)
        (by simpa using hnotMem)
    refine (List.perm_ext_iff_of_nodup hnodup (nodup_oneTo _)).mpr fun z => ?_
    rw [mem_oneTo, List.mem_append, List.mem_singleton, List.mem_map]
    constructor
    · rintro (⟨y, hy, rfl⟩ | rfl)
      · have hy := (mem_of_isContiguous h).mp hy
        unfold shift
        split_ifs <;> omega
      · omega
    · rintro ⟨hz₁, hz₂⟩
      -- an order of the result is the new one or comes from a neighbour
      rcases lt_trichotomy z order with hlt | rfl | hgt
      · refine .inl ⟨z, (mem_of_isContiguous h).mpr (by omega), ?_⟩
        rw [shift, if_neg (by omega)]
      · exact .inr rfl
      · refine .inl ⟨z - 1, (mem_of_isContiguous h).mpr (by omega), ?_⟩
        rw [shift, if_pos (by omega)]
        omega

/-! ## What is accepted -/

section Accepted

variable {toLowerCase : JsString → JsString} {layers : List (Option OnionLayer)}
  {entries merged : List OnionLayer} {layerOrder : LayerOrder}

/-- The key and the order of a layer. -/
def OnionLayer.entry (toLowerCase : JsString → JsString) (layer : OnionLayer) : JsString × ℤ :=
  (toLowerCase layer.name, layer.order)

/-- A layer has an order when its key is there. -/
theorem lookup_isSome_iff {key : JsString} {m : LayerOrder} :
    (m.lookup key).isSome = true ↔ key ∈ m.map Prod.fst := by
  induction m with
  | nil => simp
  | cons p m ih =>
    rw [List.lookup_cons, List.map_cons, List.mem_cons]
    cases hkey : key == p.1 with
    | true => simp [beq_iff_eq.mp hkey]
    | false => simp [beq_eq_false_iff_ne.mp hkey, ih]

/-- The loop accepts valid entries of different keys. -/
theorem foldlM_addLayer_eq_ok_iff {before : LayerOrder} (hbefore : (before.map Prod.fst).Nodup) :
    layers.foldlM (addLayer toLowerCase) before = .ok layerOrder ↔
      ∃ entries : List OnionLayer, layers = entries.map some ∧
        layerOrder = before ++ entries.map (OnionLayer.entry toLowerCase) ∧
        (layerOrder.map Prod.fst).Nodup := by
  -- on the layers that are left: the keys of those that came before are different already
  induction layers generalizing before with
  | nil =>
    constructor
    · intro h
      obtain rfl := Except.ok.inj h
      exact ⟨[], rfl, by simp, hbefore⟩
    · rintro ⟨entries, hentries, rfl, -⟩
      obtain rfl := List.map_eq_nil_iff.mp hentries.symm
      exact congrArg Except.ok (List.append_nil before).symm
  | cons layer layers ih =>
    rw [List.foldlM_cons, bind_eq_ok]
    constructor
    · rintro ⟨next, hnext, hrest⟩
      cases layer with
      | none => cases hnext
      | some layer =>
        simp only [addLayer] at hnext
        split_ifs at hnext with hseen
        obtain rfl := Except.ok.inj hnext
        have hnodup : ((before ++ [(toLowerCase layer.name, layer.order)]).map Prod.fst).Nodup := by
          rw [List.map_append, List.map_singleton]
          rw [lookup_isSome_iff] at hseen
          exact hbefore.append (List.nodup_singleton _) (by simpa using hseen)
        obtain ⟨entries, rfl, rfl, hkeys⟩ := (ih hnodup).mp hrest
        exact ⟨layer :: entries, rfl, by simp [OnionLayer.entry], hkeys⟩
    · rintro ⟨entries, hentries, rfl, hkeys⟩
      obtain ⟨first, entries, rfl, hfirst, rfl⟩ := List.map_eq_cons_iff.mp hentries.symm
      subst hfirst
      have hkeys' := hkeys
      rw [List.map_append, List.map_cons, List.map_cons, List.nodup_append] at hkeys'
      have hseen : ¬(before.lookup (toLowerCase first.name)).isSome = true := by
        rw [lookup_isSome_iff]
        exact fun hmem => hkeys'.2.2 _ hmem _ List.mem_cons_self rfl
      refine ⟨before ++ [first.entry toLowerCase], ?_, ?_⟩
      · simp only [addLayer, if_neg hseen]
        rfl
      · have hnodup : ((before ++ [first.entry toLowerCase]).map Prod.fst).Nodup := by
          rw [List.map_append, List.map_singleton]
          exact hbefore.append (List.nodup_singleton _)
            (by simpa [lookup_isSome_iff, OnionLayer.entry] using hseen)
        exact (ih hnodup).mpr ⟨entries, rfl, by simp, by simpa using hkeys⟩

/-- The contracts that are accepted: there are layers, all are valid, no two have one key, and
their orders are `1` to `N`. -/
theorem parse_eq_ok_iff {layers : Option (List (Option OnionLayer))} :
    parseCanonicalLayers toLowerCase layers = .ok layerOrder ↔
      ∃ entries : List OnionLayer, layers = some (entries.map some) ∧ entries ≠ [] ∧
        layerOrder = entries.map (OnionLayer.entry toLowerCase) ∧
        (entries.map fun layer => toLowerCase layer.name).Nodup ∧
        isContiguous (entries.map OnionLayer.order) = true := by
  have hkeys (entries : List OnionLayer) : (entries.map (OnionLayer.entry toLowerCase)).map
      Prod.fst = entries.map fun layer => toLowerCase layer.name := List.map_map
  have horders (entries : List OnionLayer) : (entries.map (OnionLayer.entry toLowerCase)).map
      Prod.snd = entries.map OnionLayer.order := List.map_map
  -- no layers and an empty list are refused; otherwise the loop over the layers decides
  match layers with
  | none =>
    refine iff_of_false nofun ?_
    rintro ⟨_, hlayers, -⟩
    cases hlayers
  | some [] =>
    refine iff_of_false nofun ?_
    rintro ⟨entries, hlayers, hne, -⟩
    exact hne (List.map_eq_nil_iff.mp (Option.some.inj hlayers).symm)
  | some (layer :: layers) =>
    have hnodup : ((([] : LayerOrder)).map Prod.fst).Nodup := List.nodup_nil
    simp only [parseCanonicalLayers, bind_eq_ok, foldlM_addLayer_eq_ok_iff hnodup,
      List.nil_append, Option.some.injEq]
    constructor
    · rintro ⟨_, ⟨entries, hlayers, rfl, hnodup⟩, h⟩
      split_ifs at h with hcontiguous
      obtain rfl := Except.ok.inj h
      rw [hkeys] at hnodup
      rw [horders] at hcontiguous
      refine ⟨entries, hlayers, ?_, rfl, hnodup, hcontiguous⟩
      rintro rfl
      cases hlayers
    · rintro ⟨entries, hlayers, -, rfl, hnodup, hcontiguous⟩
      refine ⟨_, ⟨entries, hlayers, rfl, by rwa [hkeys]⟩, ?_⟩
      rw [horders, if_pos hcontiguous]
      rfl

/-- A valid entry has a name that is not blank and an order that is an integer. -/
structure IsEntry (entry : Json) (layer : OnionLayer) : Prop where
  name : entry.members.lookup (lit "name") = some (.str layer.name)
  nonBlank : isNonBlank layer.name = true
  order : ∃ order, entry.members.lookup (lit "order") = some (.num order) ∧
    integer? order = some layer.order

/-- The entries that pass the checks are the valid ones. -/
theorem layerEntry_eq_some_iff {entry : Json} {layer : OnionLayer} :
    layerEntry entry = some layer ↔ IsEntry entry layer := by
  have hname {value : Option Json} {s : JsString} :
      nonBlankString? value = some s ↔ value = some (.str s) ∧ isNonBlank s = true := by
    unfold nonBlankString?
    split <;> grind
  have horder {value : Option Json} {z : ℤ} :
      integerAt? value = some z ↔ ∃ order, value = some (.num order) ∧ integer? order = some z := by
    unfold integerAt?
    split <;> grind
  obtain ⟨name, order⟩ := layer
  simp only [layerEntry, Option.bind_eq_bind, Option.bind_eq_some_iff, Option.pure_def,
    Option.some.injEq, OnionLayer.mk.injEq, hname, horder]
  constructor
  · rintro ⟨_, ⟨hlookup, hblank⟩, _, hat, rfl, rfl⟩
    exact ⟨hlookup, hblank, hat⟩
  · rintro ⟨hlookup, hblank, hat⟩
    exact ⟨name, ⟨hlookup, hblank⟩, order, hat, rfl, rfl⟩

/-- All the entries pass when they are valid, one for each layer. -/
theorem map_layerEntry_eq_iff {entries : List Json} {layers : List OnionLayer} :
    entries.map layerEntry = layers.map some ↔ List.Forall₂ IsEntry entries layers := by
  rw [← List.forall₂_eq_eq_eq, List.forall₂_map_left_iff, List.forall₂_map_right_iff]
  simp only [layerEntry_eq_some_iff]

/-- The contract has an array of layers. -/
theorem layersOf_eq_some_iff {architectureContract : Json} {layers : List (Option OnionLayer)} :
    layersOf architectureContract = some layers ↔
      ∃ onion entries, architectureContract.members.lookup (lit "onion") = some onion ∧
        onion.members.lookup (lit "layers") = some (.arr entries) ∧
        entries.map layerEntry = layers := by
  simp only [layersOf, Option.bind_eq_bind, Option.bind_eq_some_iff]
  constructor
  · rintro ⟨onion, honion, value, hvalue, h⟩
    split at h
    · exact ⟨onion, _, honion, hvalue, Option.some.inj h⟩
    · cases h
  · rintro ⟨onion, entries, honion, hentries, rfl⟩
    exact ⟨onion, honion, _, hentries, rfl⟩

/-- The contracts that are accepted, as they are read from their file: `onion.layers` is an array
of valid entries, no two with one key, in the orders `1` to `N`. -/
theorem parse_layersOf_eq_ok_iff {architectureContract : Json} :
    parseCanonicalLayers toLowerCase (layersOf architectureContract) = .ok layerOrder ↔
      ∃ onion entries layers, architectureContract.members.lookup (lit "onion") = some onion ∧
        onion.members.lookup (lit "layers") = some (.arr entries) ∧
        List.Forall₂ IsEntry entries layers ∧ layers ≠ [] ∧
        layerOrder = layers.map (OnionLayer.entry toLowerCase) ∧
        (layers.map fun layer => toLowerCase layer.name).Nodup ∧
        isContiguous (layers.map OnionLayer.order) = true := by
  rw [parse_eq_ok_iff]
  constructor
  · rintro ⟨layers, hlayers, h⟩
    obtain ⟨onion, entries, honion, hentries, hvalid⟩ := layersOf_eq_some_iff.mp hlayers
    exact ⟨onion, entries, layers, honion, hentries, map_layerEntry_eq_iff.mp hvalid, h⟩
  · rintro ⟨onion, entries, layers, honion, hentries, hvalid, h⟩
    have hread := layersOf_eq_some_iff.mpr
      ⟨onion, entries, honion, hentries, map_layerEntry_eq_iff.mpr hvalid⟩
    exact ⟨layers, hread, h⟩

/-- A layer is inserted when it is named `SDK`, is new, depends on known layers and leaves the
orders contiguous. -/
theorem insertLayer_eq_ok_iff {layer : SupplementLayer} :
    insertLayer toLowerCase entries layer = .ok merged ↔
      layer.name = lit "SDK" ∧
        toLowerCase layer.name ∉ entries.map (fun existing => toLowerCase existing.name) ∧
        (∀ dep ∈ layer.dependsOn,
          toLowerCase dep ∈ entries.map fun existing => toLowerCase existing.name) ∧
        isContiguous ((shifted entries layer).map OnionLayer.order) = true ∧
        ((shifted entries layer).map fun entry => toLowerCase entry.name).Nodup ∧
        merged = (shifted entries layer).insertionSort fun a b => a.order ≤ b.order := by
  simp only [insertLayer, bind_eq_ok, throwIf_eq_ok, forM_eq_ok, not_not, Bool.not_eq_false,
    exists_const]
  constructor
  · rintro ⟨hname, hnew, hdeps, hcontiguous, hnodup, h⟩
    exact ⟨hname, hnew, hdeps, hcontiguous, hnodup, (Except.ok.inj h).symm⟩
  · rintro ⟨hname, hnew, hdeps, hcontiguous, hnodup, rfl⟩
    exact ⟨hname, hnew, hdeps, hcontiguous, hnodup, rfl⟩

/-- A layer is found under its key. -/
theorem lookup_entry_iff (hnodup : (entries.map fun layer => toLowerCase layer.name).Nodup)
    {key : JsString} {order : ℤ} :
    (entries.map (OnionLayer.entry toLowerCase)).lookup key = some order ↔
      ∃ layer ∈ entries, toLowerCase layer.name = key ∧ layer.order = order := by
  have hkeys : ((entries.map (OnionLayer.entry toLowerCase)).map Prod.fst).Nodup := by
    rwa [List.map_map]
  rw [Js.lookup_eq_some_iff hkeys, List.mem_map]
  exact exists_congr fun layer => and_congr_right fun _ => Prod.mk_inj

/-- A shift keeps the order of layers. -/
theorem strictMono_shift (order : ℤ) : StrictMono (shift order) := fun a b hab => by
  unfold shift
  split_ifs <;> omega

/-- The layers of one contract among those of another: they have their old order, and none but the
given one is new. -/
structure Extends (layerOrder layerOrder' : LayerOrder) (added : JsString) (f : ℤ → ℤ) : Prop where
  strictMono : StrictMono f
  kept : ∀ key order, layerOrder.lookup key = some order → layerOrder'.lookup key = some (f order)
  only : ∀ key, layerOrder.lookup key = none → key ≠ added → layerOrder'.lookup key = none

/-- A contract extends itself. -/
theorem Extends.refl (layerOrder : LayerOrder) (added : JsString) :
    Extends layerOrder layerOrder added id :=
  ⟨strictMono_id, fun _ _ h => h, fun _ h _ => h⟩

/-- A layer that is inserted into an accepted contract extends it. -/
theorem extends_of_insertLayer {layer : SupplementLayer}
    (hnodup : (entries.map fun layer => toLowerCase layer.name).Nodup)
    (h : insertLayer toLowerCase entries layer = .ok merged) :
    ∃ layerOrder', parseCanonicalLayers toLowerCase (some (merged.map some)) = .ok layerOrder' ∧
      Extends (entries.map (OnionLayer.entry toLowerCase)) layerOrder' (toLowerCase (lit "SDK"))
        (shift layer.order) := by
  -- sorting moves the layers only, so keys and orders are those of the shifted list
  obtain ⟨hname, -, -, hcontiguous, hnodup', rfl⟩ := insertLayer_eq_ok_iff.mp h
  have hperm := List.perm_insertionSort (fun a b : OnionLayer => a.order ≤ b.order)
    (shifted entries layer)
  have hsorted : (((shifted entries layer).insertionSort fun a b => a.order ≤ b.order).map
      fun layer => toLowerCase layer.name).Nodup := (hperm.map _).nodup_iff.mpr hnodup'
  refine ⟨_, parse_eq_ok_iff.mpr ⟨_, rfl, ?_, rfl, hsorted, ?_⟩, strictMono_shift layer.order, ?_,
    ?_⟩
  · intro hnil
    have hempty := hperm
    rw [hnil, List.nil_perm, shifted] at hempty
    exact List.append_ne_nil_of_right_ne_nil _ (List.cons_ne_nil _ _) hempty
  · rw [isContiguous_iff, List.length_map] at hcontiguous ⊢
    rw [hperm.length_eq]
    exact (hperm.map OnionLayer.order).trans hcontiguous
  · intro key order hkey
    obtain ⟨existing, hexisting, rfl, rfl⟩ := (lookup_entry_iff hnodup).mp hkey
    refine (lookup_entry_iff hsorted).mpr
      ⟨{ existing with order := shift layer.order existing.order }, ?_, rfl, rfl⟩
    exact hperm.mem_iff.mpr (List.mem_append_left _ (List.mem_map_of_mem hexisting))
  · intro key hkey hnew
    -- a key that is found now is that of a canonical layer or of the new one
    cases hfound : List.lookup key ((((shifted entries layer).insertionSort
        fun a b => a.order ≤ b.order)).map (OnionLayer.entry toLowerCase)) with
    | none => rfl
    | some order =>
      obtain ⟨found, hmem, rfl, -⟩ := (lookup_entry_iff hsorted).mp hfound
      rcases List.mem_append.mp (hperm.mem_iff.mp hmem) with hmem | hmem
      · obtain ⟨existing, hexisting, rfl⟩ := List.mem_map.mp hmem
        rw [(lookup_entry_iff hnodup).mpr ⟨existing, hexisting, rfl, rfl⟩] at hkey
        cases hkey
      · obtain rfl := List.mem_singleton.mp hmem
        exact absurd (congrArg toLowerCase hname) hnew

/-- A supplement that is merged into an accepted contract leaves one that is accepted, in which the
canonical layers have their old order and none but `SDK` is new. -/
theorem merge_parse {supplement : Option Json} {layers' : Option (List OnionLayer)}
    (hparse : parseCanonicalLayers toLowerCase (some (entries.map some)) = .ok layerOrder)
    (hmerge : mergeArchitectureFitnessSupplement toLowerCase (some entries) supplement =
      .ok layers') :
    ∃ layerOrder' f, parseCanonicalLayers toLowerCase (layers'.map (List.map some)) =
        .ok layerOrder' ∧
      Extends layerOrder layerOrder' (toLowerCase (lit "SDK")) f := by
  obtain ⟨entries', hentries, hne, rfl, hnodup, -⟩ := parse_eq_ok_iff.mp hparse
  obtain rfl := List.map_injective_iff.mpr (Option.some_injective _) (Option.some.inj hentries)
  have hunchanged (h : mergeArchitectureFitnessSupplement toLowerCase (some entries) supplement =
      .ok (some entries)) : layers' = some entries := Except.ok.inj (hmerge.symm.trans h)
  -- an absent supplement and `null` change nothing; any other value has to be a layer
  cases supplement with
  | none =>
    obtain rfl := hunchanged rfl
    exact ⟨_, id, hparse, .refl _ _⟩
  | some supplement =>
    by_cases hnull : supplement = .null
    · obtain rfl := hunchanged (hnull ▸ rfl)
      exact ⟨_, id, hparse, .refl _ _⟩
    · obtain ⟨first, rest, rfl⟩ := List.exists_cons_of_ne_nil hne
      have hinsert : mergeArchitectureFitnessSupplement toLowerCase (some (first :: rest))
          (some supplement) = match supplementLayer? supplement with
            | none => .error (supplementInvalid (lit "malformed layer entry"))
            | some layer => some <$> insertLayer toLowerCase (first :: rest) layer := by
        cases supplement with
        | null => exact absurd rfl hnull
        | _ => rfl
      rw [hinsert] at hmerge
      cases hlayer : supplementLayer? supplement with
      | none =>
        rw [hlayer] at hmerge
        cases hmerge
      | some layer =>
        rw [hlayer] at hmerge
        obtain ⟨merged, hmerged, rfl⟩ := map_eq_ok.mp hmerge
        obtain ⟨layerOrder', hparse', hextends⟩ := extends_of_insertLayer hnodup hmerged
        exact ⟨layerOrder', _, hparse', hextends⟩

end Accepted

end MetaframerKernel.ArchitectureFitness
