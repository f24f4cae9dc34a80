import MetaframerKernel.Js.JsonText

/-!
# Printed values

What `JSON.stringify` makes of the values of an object, some of which it leaves out.

## Main definitions

* `Printed`: a value as its JSON text reads it back, or one that is left out;
* `Json.present`: the members of an object of fixed keys that are not left out.

## Main results

* `stringify_present_inj`: objects of the same keys and of one text have values that are printed
  alike.
-/

namespace Js

/-- A value as its JSON text reads it back; `undefined` and the like have none. -/
abbrev Printed : Type := Option {v : Json // v.wellFormed = true ∧ v.readBack = v}

namespace Json

/-- The members that an object has under some keys. -/
def present (keys : List JsString) (values : List (Option Json)) : List (JsString × Json) :=
  (keys.zip values).filterMap fun p => p.2.map (p.1, ·)

/-- Distinct keys that are no array indices, so that they stay in their order. -/
def IsFixed (keys : List JsString) : Prop :=
  keys.Nodup ∧ ∀ key ∈ keys, arrayIndex? key = none

instance (keys : List JsString) : Decidable (IsFixed keys) := inferInstanceAs (Decidable (_ ∧ _))

variable {keys : List JsString} {values values' : List (Option Json)}

/-- The first key is present when its value is. -/
theorem present_cons (key : JsString) (value : Option Json) :
    present (key :: keys) (value :: values) =
      (value.map (key, ·)).toList ++ present keys values := by
  cases value <;> rfl

/-- The keys that are present are in their order. -/
theorem map_fst_present_sublist (keys : List JsString) (values : List (Option Json)) :
    ((present keys values).map Prod.fst).Sublist keys := by
  induction keys generalizing values with
  | nil => exact List.Sublist.refl _
  | cons key keys ih =>
    cases values with
    | nil => exact List.nil_sublist _
    | cons value values =>
      rw [present_cons]
      cases value with
      | none => exact (ih values).cons key
      | some v => exact (ih values).cons_cons key

/-- A member that is present has one of the values. -/
theorem mem_of_mem_present {p : JsString × Json} (h : p ∈ present keys values) :
    some p.2 ∈ values := by
  obtain ⟨⟨key, value⟩, hmem, hvalue⟩ := List.mem_filterMap.mp h
  obtain ⟨v, rfl, rfl⟩ := Option.map_eq_some_iff.mp hvalue
  exact (List.of_mem_zip hmem).2

/-- The members tell which values are left out, and what the others are. -/
theorem present_inj (hkeys : keys.Nodup) (hlength : values.length = keys.length)
    (hlength' : values'.length = keys.length) (h : present keys values = present keys values') :
    values = values' := by
  induction keys generalizing values values' with
  | nil => rw [List.length_eq_zero_iff.mp hlength, List.length_eq_zero_iff.mp hlength']
  | cons key keys ih =>
    obtain ⟨value, values, rfl⟩ := List.exists_cons_of_length_eq_add_one hlength
    obtain ⟨value', values', rfl⟩ := List.exists_cons_of_length_eq_add_one hlength'
    obtain ⟨hkey, hkeys⟩ := List.nodup_cons.mp hkeys
    -- the first key is present in both or in neither, as the other keys are different from it
    have hother (values : List (Option Json)) {v : Json} {m : List (JsString × Json)} :
        present keys values ≠ (key, v) :: m := fun heq =>
      hkey ((map_fst_present_sublist keys values).subset (heq ▸ List.mem_cons_self))
    have hrest {values values' : List (Option Json)}
      (hlength : (values.length + 1) = keys.length + 1)
        (hlength' : (values'.length + 1) = keys.length + 1)
        (heq : present keys values = present keys values') : values = values' :=
      ih hkeys (Nat.succ_injective hlength) (Nat.succ_injective hlength') heq
    rw [present_cons, present_cons] at h
    cases value with
    | none =>
      cases value' with
      | none => exact congrArg _ (hrest hlength hlength' h)
      | some v => exact absurd h (hother values)
    | some v =>
      cases value' with
      | none => exact absurd h.symm (hother values')
      | some v' =>
        obtain ⟨hhead, htail⟩ := List.cons.inj h
        rw [(Prod.mk.inj hhead).2, hrest hlength hlength' htail]

/-- A function of the values leaves the same keys present. -/
theorem map_present (f : Json → Json) (keys : List JsString) (values : List (Option Json)) :
    (present keys values).map (Prod.map id f) = present keys (values.map (Option.map f)) := by
  rw [present, present, List.zip_map_right, List.filterMap_map, List.map_filterMap]
  refine List.filterMap_congr fun p _ => ?_
  obtain ⟨key, value⟩ := p
  cases value <;> rfl

/-- Distinct keys with well-formed values make a well-formed object. -/
theorem wellFormed_present (hkeys : IsFixed keys)
    (hvalues : ∀ v, some v ∈ values → v.wellFormed = true) :
    (Json.obj (present keys values)).wellFormed = true :=
  (wellFormed_obj _).mpr ⟨hkeys.1.sublist (map_fst_present_sublist keys values), fun _ hp =>
    hvalues _ (mem_of_mem_present hp)⟩

/-- An object of fixed keys reads back with its values read back. -/
theorem readBack_present (hkeys : IsFixed keys) (values : List (Option Json)) :
    (Json.obj (present keys values)).readBack =
      .obj (present keys (values.map (Option.map readBack))) := by
  rw [readBack_obj, ownOrder_eq_self, map_present]
  intro p hp
  exact hkeys.2 _ ((map_fst_present_sublist keys values).subset (List.mem_map_of_mem hp))

/-- Objects of the same keys and of one text have values that are printed alike. -/
theorem stringify_present_inj (hkeys : IsFixed keys) (hlength : values.length = keys.length)
    (hlength' : values'.length = keys.length)
    (hvalues : ∀ v, some v ∈ values → v.wellFormed = true)
    (hvalues' : ∀ v, some v ∈ values' → v.wellFormed = true)
    (h : (Json.obj (present keys values)).stringify = (Json.obj (present keys values')).stringify) :
    values.map (Option.map readBack) = values'.map (Option.map readBack) := by
  have hread := readBack_eq_of_stringify (wellFormed_present hkeys hvalues)
    (wellFormed_present hkeys hvalues') h
  rw [readBack_present hkeys, readBack_present hkeys] at hread
  exact present_inj hkeys.1 (by rwa [List.length_map]) (by rwa [List.length_map])
    (Json.obj.inj hread)

end Json

namespace Printed

/-- A string is printed as itself. -/
def str (s : JsString) : Printed := some ⟨.str s, rfl, readBack_str s⟩

/-- `null` -/
def null : Printed := some ⟨.null, rfl, by rw [Json.readBack, Json.rebuild]⟩

/-- The JSON value that is printed. -/
def value? (p : Printed) : Option Json := p.map Subtype.val

/-- What is printed is known by its value. -/
theorem value?_injective : Function.Injective value? :=
  Option.map_injective Subtype.val_injective

/-- Strings are printed differently. -/
theorem str_injective : Function.Injective str := fun _ _ h =>
  Json.str.inj (congrArg Subtype.val (Option.some.inj h))

/-- It reads back as it is. -/
theorem map_readBack_value? (p : Printed) : p.value?.map Json.readBack = p.value? := by
  cases p with
  | none => rfl
  | some v => exact congrArg some v.2.2

/-- What is printed is well formed. -/
theorem wellFormed_of_value? {p : Printed} {v : Json} (h : p.value? = some v) :
    v.wellFormed = true := by
  obtain ⟨w, -, rfl⟩ := Option.map_eq_some_iff.mp h
  exact w.2.1

/-- An object of printed values under fixed keys. -/
def object (keys : List JsString) (hkeys : Json.IsFixed keys) (values : List Printed) : Printed :=
  some ⟨.obj (Json.present keys (values.map value?)),
    Json.wellFormed_present hkeys fun _ hv => by
      obtain ⟨p, -, hp⟩ := List.mem_map.mp hv
      exact wellFormed_of_value? hp,
    by
      rw [Json.readBack_present hkeys, List.map_map]
      exact congrArg (fun values => Json.obj (Json.present keys values))
        (List.map_congr_left fun p _ => map_readBack_value? p)⟩

/-- Objects of one list of keys are told apart by their values. -/
theorem object_inj {keys : List JsString} {hkeys : Json.IsFixed keys}
    {values values' : List Printed}
    (hlength : values.length = keys.length) (hlength' : values'.length = keys.length)
    (h : object keys hkeys values = object keys hkeys values') : values = values' := by
  have hmembers := Json.obj.inj (congrArg Subtype.val (Option.some.inj h))
  exact value?_injective.list_map (Json.present_inj hkeys.1 (by rwa [List.length_map])
    (by rwa [List.length_map]) hmembers)

end Printed

end Js
