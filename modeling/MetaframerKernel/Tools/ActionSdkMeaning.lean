import MetaframerKernel.Tools.ActionSdk

/-!
# What a rendered module means

The functions of a rendered module over every argument they can be handed: an object is its
prototype and its own properties, an array too, and reading a property may run a getter.

## Main definitions

* `Argument`: an argument, as far as the functions look at it;
* `Module.buildActionSpecOf`, `Module.isErrorEnvelopeOf`: the functions on arguments.

## Main results

* `buildActionSpecOf_data`: on plain objects they are the functions of the module;
* `renderActionSdk_means`: the module of a contract, and that contracts are told apart by their
  texts.
-/

namespace MetaframerKernel.ActionSdk

open Js

/-! ## Arguments -/

/-- An own property: a value, or what its getter answers. -/
inductive Property (ε : Type) where
  | value (v : JsValue)
  | getter (answer : Except ε JsValue)

/-- Reading a property. -/
def Property.read {ε : Type} : Property ε → Except ε JsValue
  | value v => .ok v
  | getter answer => answer

/-- An argument, whose getters throw `ε`. -/
inductive Argument (ε : Type) where
  /-- A primitive value or a function. -/
  | noObject
  | object (proto : Proto) (props : List (PropertyKey × Property ε))

/-- How a call ends that does not return. -/
inductive BuildFailure (ε : Type) where
  | refused (e : NativeError)
  | getter (e : ε)

section Functions

variable {ε : Type} (mod : Module)

/-- `spec[field]`, of a field that the object has. -/
def readField (props : List (PropertyKey × Property ε)) (field : JsString) : Except ε JsValue :=
  ((props.lookup (.string field)).map Property.read).getD (.ok .undefined)

/-- The loop that copies the fields. -/
def copyFields (props : List (PropertyKey × Property ε)) (fields : List JsString) :
    Except (BuildFailure ε) (List (JsString × JsValue)) :=
  fields.mapM fun field => ((readField props field).mapError .getter).map fun v => (field, v)

/-- `buildActionSpec` -/
def Module.buildActionSpecOf : Argument ε → Except (BuildFailure ε) (List (JsString × JsValue))
  | .object .objectPrototype props =>
      if hasExactly (props.map Prod.fst) mod.actionFields then
        (copyFields props mod.actionFields).map assignMembers
      else .error (.refused
        (.typeError (lit "buildActionSpec needs exactly the declared fields")))
  | _ => .error (.refused (.typeError (lit "buildActionSpec needs an ordinary object")))

/-- `isErrorEnvelope` -/
def Module.isErrorEnvelopeOf : Argument ε → Bool
  | .object .objectPrototype props => hasExactly (props.map Prod.fst) mod.errorEnvelopeFields
  | _ => false

/-- An object literal as an argument. -/
def argumentOf (props : List ((PropertyKey × Descriptor) × JsValue)) : Argument ε :=
  .object .objectPrototype (props.map fun p => (p.1.1, .value p.2))

end Functions

/-! ## Keys -/

/-- An ordinary object with exactly these own keys. -/
def HasOwnKeys {ε : Type} (names : List JsString) (arg : Argument ε)
    (props : List (PropertyKey × Property ε)) : Prop :=
  arg = .object .objectPrototype props ∧ (props.map Prod.fst).Perm (names.map .string)

/-- Among distinct names, as many keys that contain each are the names in some order. -/
theorem hasExactly_iff_perm {keys : List PropertyKey} {names : List JsString}
    (hnodup : names.Nodup) :
    Module.hasExactly keys names = true ↔ keys.Perm (names.map .string) := by
  refine ⟨fun h => ?_, hasExactly_of_perm⟩
  rw [Module.hasExactly, Bool.and_eq_true, beq_iff_eq, List.all_eq_true] at h
  obtain ⟨hlength, hall⟩ := h
  have hinjective : Function.Injective PropertyKey.string := fun _ _ => PropertyKey.string.inj
  have hsubset : names.map .string ⊆ keys := by
    rintro key hkey
    obtain ⟨name, hname, rfl⟩ := List.mem_map.mp hkey
    exact List.contains_iff_mem.mp (hall name hname)
  have hsubperm : (names.map .string).Subperm keys :=
    List.subperm_of_subset (hnodup.map hinjective) hsubset
  exact (hsubperm.perm_of_length_le (by rw [List.length_map, hlength])).symm

section Functions

variable {ε : Type} {mod : Module}

/-- The members that are copied are the fields, in their order, with the values that are read. -/
theorem copyFields_eq_ok {props : List (PropertyKey × Property ε)} {fields : List JsString}
    {out : List (JsString × JsValue)} :
    copyFields props fields = .ok out ↔
      List.Forall₂ (fun field p => ∃ v, readField props field = .ok v ∧ p = (field, v)) fields
        out := by
  rw [copyFields, mapM_eq_ok]
  have hstep (field : JsString) (p : JsString × JsValue) :
      ((readField props field).mapError BuildFailure.getter).map (fun v => (field, v)) = .ok p ↔
        ∃ v, readField props field = .ok v ∧ p = (field, v) := by
    cases readField props field with
    | error e => simp [Except.map, Except.mapError]
    | ok v => simp [Except.map, Except.mapError, eq_comm]
  simp only [hstep]

/-- What is copied has the fields, in their order. -/
theorem map_fst_of_copyFields {props : List (PropertyKey × Property ε)} {fields : List JsString}
    {out : List (JsString × JsValue)} (h : copyFields props fields = .ok out) :
    out.map Prod.fst = fields := by
  have hcopied := copyFields_eq_ok.mp h
  clear h
  induction hcopied with
  | nil => rfl
  | cons hp _ ih =>
    obtain ⟨v, -, rfl⟩ := hp
    rw [List.map_cons, ih]

/-- Distinct fields other than `__proto__` become the own properties, in their order. -/
theorem assignMembers_of_fields {out : List (JsString × JsValue)}
    (hnodup : (out.map Prod.fst).Nodup) (hproto : protoKey ∉ out.map Prod.fst) :
    assignMembers out = out := by
  rw [assignMembers_eq, List.filter_eq_self.mpr, collectMembers_of_nodup hnodup]
  intro p hp
  exact decide_eq_true fun heq => hproto (heq ▸ List.mem_map_of_mem hp)

/-- What `buildActionSpec` returns, where it returns. -/
theorem buildActionSpecOf_eq_ok (hnodup : mod.actionFields.Nodup)
    (hproto : protoKey ∉ mod.actionFields) {arg : Argument ε} {out : List (JsString × JsValue)} :
    mod.buildActionSpecOf arg = .ok out ↔
      ∃ props, HasOwnKeys mod.actionFields arg props ∧ copyFields props mod.actionFields =
        .ok out := by
  -- the fields are different and none is `__proto__`, so that the literal keeps them all
  have hcopied {props : List (PropertyKey × Property ε)} :
      (copyFields props mod.actionFields).map assignMembers = .ok out ↔
        copyFields props mod.actionFields = .ok out := by
    rw [map_eq_ok]
    constructor
    · rintro ⟨copied, hcopied, rfl⟩
      have hfst := map_fst_of_copyFields hcopied
      rwa [assignMembers_of_fields (hfst ▸ hnodup) (hfst ▸ hproto)]
    · intro h
      have hfst := map_fst_of_copyFields h
      exact ⟨out, h, assignMembers_of_fields (hfst ▸ hnodup) (hfst ▸ hproto)⟩
  unfold Module.buildActionSpecOf
  split
  · next props =>
    split
    · next hexact =>
      rw [hcopied]
      refine ⟨fun h => ⟨props, ⟨rfl, (hasExactly_iff_perm hnodup).mp hexact⟩, h⟩, ?_⟩
      rintro ⟨_, ⟨⟨⟩, -⟩, h⟩
      exact h
    · next hexact =>
      refine iff_of_false nofun ?_
      rintro ⟨_, ⟨⟨⟩, hperm⟩, -⟩
      exact hexact ((hasExactly_iff_perm hnodup).mpr hperm)
  · next hother =>
    refine iff_of_false nofun ?_
    rintro ⟨props, ⟨rfl, -⟩, -⟩
    exact hother props rfl

/-- An error envelope has exactly the declared fields as own keys. -/
theorem isErrorEnvelopeOf_iff (hnodup : mod.errorEnvelopeFields.Nodup) {arg : Argument ε} :
    mod.isErrorEnvelopeOf arg = true ↔
      ∃ props, HasOwnKeys mod.errorEnvelopeFields arg props := by
  unfold Module.isErrorEnvelopeOf
  split
  · next props =>
    rw [hasExactly_iff_perm hnodup]
    refine ⟨fun h => ⟨props, rfl, h⟩, ?_⟩
    rintro ⟨_, ⟨⟩, h⟩
    exact h
  · next hother =>
    refine iff_of_false nofun ?_
    rintro ⟨props, rfl, -⟩
    exact hother props rfl

/-- A value is read as it is stored. -/
theorem readField_data (props : List ((PropertyKey × Descriptor) × JsValue)) (field : JsString) :
    readField (ε := ε) (props.map fun p => (p.1.1, .value p.2)) field =
      .ok (JsValue.get props field) := by
  induction props with
  | nil => rfl
  | cons p props ih =>
    rw [readField, JsValue.get, JsValue.property?, List.map_cons, List.lookup_cons,
      List.find?_cons]
    by_cases hkey : p.1.1 = .string field
    · rw [hkey, beq_self_eq_true]
      rfl
    · rw [beq_false_of_ne (Ne.symm hkey), beq_false_of_ne hkey]
      exact ih

/-- Copying data properties reads their values. -/
theorem copyFields_data (props : List ((PropertyKey × Descriptor) × JsValue))
    (fields : List JsString) :
    copyFields (ε := ε) (props.map fun p => (p.1.1, .value p.2)) fields =
      .ok (fields.map fun field => (field, JsValue.get props field)) := by
  refine copyFields_eq_ok.mpr ?_
  rw [List.forall₂_map_right_iff]
  exact List.forall₂_same.mpr fun field _ => ⟨_, readField_data props field, rfl⟩

/-- On an object literal the function is that of the module. -/
theorem buildActionSpecOf_data (props : List ((PropertyKey × Descriptor) × JsValue)) :
    mod.buildActionSpecOf (argumentOf (ε := ε) props) =
      (mod.buildActionSpec (.object .objectPrototype props)).mapError .refused := by
  have hkeys : (props.map fun p => (p.1.1, Property.value (ε := ε) p.2)).map Prod.fst =
      props.map fun p => p.1.1 := by
    rw [List.map_map]
    rfl
  rw [argumentOf, Module.buildActionSpecOf, Module.buildActionSpec, hkeys, copyFields_data]
  split <;> rfl

end Functions

/-! ## The module of a contract -/

section Contracts

variable {ε : Type} (notice : Notice) (contract : ActionContract)

/-- `__proto__` is no identifier. -/
theorem protoKey_notMem_names (l : IdentifierList) : protoKey ∉ l.names := fun h =>
  (l.identifiers _ h).2.2 List.mem_cons_self

/-- Kinds are told apart by their names. -/
theorem kindName_injective : Function.Injective ActionKind.name := by
  have hname : ∀ kind kind' : ActionKind, kind.name = kind'.name → kind = kind' := by
    rintro (_ | _) (_ | _) <;> decide
  exact fun kind kind' => hname kind kind'

/-- The constants tell contracts apart. -/
theorem moduleOf_injective {contract contract' : ActionContract}
    (h : moduleOf contract = moduleOf contract') : contract = contract' := by
  have hlist {l l' : IdentifierList} (hnames : l.names = l'.names) : l = l' := by
    cases l
    cases l'
    cases hnames
    rfl
  obtain ⟨kind, name, version, fields, outcomes, errorFields, hname, hversion⟩ := contract
  obtain ⟨kind', name', version', fields', outcomes', errorFields', hname', hversion'⟩ := contract'
  rw [moduleOf, moduleOf, Module.mk.injEq] at h
  obtain ⟨hkind, rfl, hnumber, hfields, houtcomes, herrors⟩ := h
  obtain rfl : kind = kind' := kindName_injective hkind
  -- the version is printed as a Number, and a safe integer is read back from it
  obtain rfl : version = version' := by
    have hsafe := (safeInteger?_of_isActionVersion hversion).symm.trans
      ((congrArg JsNumber.safeInteger? hnumber).trans (safeInteger?_of_isActionVersion hversion'))
    exact Option.some.inj hsafe
  obtain rfl := hlist hfields
  obtain rfl := hlist houtcomes
  obtain rfl := hlist herrors
  rfl

/-- Contracts that render to one text are one contract. -/
theorem renderActionSdk_injective {contract contract' : ActionContract}
    (h : renderActionSdk notice contract = renderActionSdk notice contract') :
    contract = contract' := by
  have hmodule := evaluateModule_renderActionSdk notice contract
  rw [h, evaluateModule_renderActionSdk] at hmodule
  exact moduleOf_injective (Option.some.inj hmodule.symm)

/-- The module of a contract has its constants. It builds a specification of an argument if and only
if that is an ordinary object whose own keys are exactly the fields and whose getters answer; the
specification then has the fields in the order of the contract, with the values that were read. It
takes for error envelopes exactly the ordinary objects with the keys of one. Different contracts
render to different texts. -/
theorem renderActionSdk_means :
    (∃ mod, evaluateModule (renderActionSdk notice contract) = some mod ∧
      mod.actionKind = contract.kind.name ∧ mod.actionName = contract.name ∧
      mod.actionVersion = .ofInt contract.version ∧ mod.actionFields = contract.fields.names ∧
      mod.outcomes = contract.outcomes.names ∧
      mod.errorEnvelopeFields = contract.errorEnvelopeFields.names ∧
      ∀ (ε : Type) (arg : Argument ε),
        ((∃ out, mod.buildActionSpecOf arg = .ok out) ↔
          ∃ props, HasOwnKeys contract.fields.names arg props ∧
            ∀ field ∈ contract.fields.names, ∃ v, readField props field = .ok v) ∧
        (∀ out, mod.buildActionSpecOf arg = .ok out →
          ∃ props, HasOwnKeys contract.fields.names arg props ∧
            List.Forall₂ (fun field p => ∃ v, readField props field = .ok v ∧ p = (field, v))
              contract.fields.names out) ∧
        (mod.isErrorEnvelopeOf arg = true ↔
          ∃ props, HasOwnKeys contract.errorEnvelopeFields.names arg props)) ∧
    ∀ contract' : ActionContract, contract' ≠ contract →
      renderActionSdk notice contract' ≠ renderActionSdk notice contract := by
  refine ⟨⟨moduleOf contract, evaluateModule_renderActionSdk notice contract, rfl, rfl,
    by rw [moduleOf], rfl, rfl, rfl, fun ε arg => ⟨?_, fun out hout => ?_, ?_⟩⟩,
    fun contract' hne heq => hne ?_⟩
  · -- each getter is read once, so the specification exists when each of them answers
    constructor
    · rintro ⟨out, hout⟩
      obtain ⟨props, hkeys, hcopied⟩ := (buildActionSpecOf_eq_ok contract.fields.nodup
        (protoKey_notMem_names contract.fields)).mp hout
      refine ⟨props, hkeys, fun field hfield => ?_⟩
      obtain ⟨p, -, v, hv, -⟩ := exists_of_forall₂_left (copyFields_eq_ok.mp hcopied) hfield
      exact ⟨v, hv⟩
    · rintro ⟨props, hkeys, hread⟩
      obtain ⟨out, hout⟩ := exists_forall₂ (R := fun field p =>
        ∃ v, readField props field = .ok v ∧ p = (field, v)) fun field hfield => by
          obtain ⟨v, hv⟩ := hread field hfield
          exact ⟨(field, v), v, hv, rfl⟩
      exact ⟨out, (buildActionSpecOf_eq_ok contract.fields.nodup
        (protoKey_notMem_names contract.fields)).mpr ⟨props, hkeys, copyFields_eq_ok.mpr hout⟩⟩
  · obtain ⟨props, hkeys, hcopied⟩ := (buildActionSpecOf_eq_ok contract.fields.nodup
      (protoKey_notMem_names contract.fields)).mp hout
    exact ⟨props, hkeys, copyFields_eq_ok.mp hcopied⟩
  · exact isErrorEnvelopeOf_iff contract.errorEnvelopeFields.nodup
  · exact renderActionSdk_injective notice heq

end Contracts

/-- A contract with one field, for examples. -/
def sampleContract : ActionContract where
  kind := .command
  name := lit "customer.create"
  version := 1
  fields := ⟨[lit "displayName"], by decide, by decide⟩
  outcomes := ⟨[], by decide, by decide⟩
  errorEnvelopeFields := ⟨[], by decide, by decide⟩
  nameOk := by decide
  versionOk := by decide

/-- An object whose own keys are exactly the fields is refused when its getter throws. -/
theorem not_accepts_throwingGetter :
    ¬∀ (ε : Type) (arg : Argument ε),
      (∃ out, (moduleOf sampleContract).buildActionSpecOf arg = .ok out) ↔
        ∃ props, HasOwnKeys sampleContract.fields.names arg props := by
  intro h
  obtain ⟨out, hout⟩ := (h Unit (.object .objectPrototype
    [(.string (lit "displayName"), .getter (.error ()))])).mpr ⟨_, rfl, List.Perm.refl _⟩
  cases hout

end MetaframerKernel.ActionSdk
