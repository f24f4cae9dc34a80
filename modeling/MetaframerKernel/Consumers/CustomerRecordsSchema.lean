import Mathlib.Data.List.DropRight
import MetaframerKernel.Domain.Identity
import MetaframerKernel.Js.Values

/-!
# The customer records schema

A customer record is checked and copied before it is stored: its six fields, and a payload that is
cloned container by container and later printed for a JSON column.

## Main definitions

* `cloneJsonValue`: the clone of a payload, where it can be cloned;
* `canonicalizeCustomerRecord`: the canonical record of a record;
* `IsJsonFaithful`: a value that JSON gives back;
* `isDense`: a payload whose arrays are ordinary and have no holes.

## Main results

* `cloneJsonValue_clone`: a clone is cloned to itself;
* `isJsonFaithful_canonicalize_iff`: a canonical record is accepted again as it is, and JSON gives
  its payload back exactly when the payload it was made from is dense.
-/

namespace MetaframerKernel

open Js

/-! ## Payloads -/

namespace CustomerRecordsSchema

/-- `isJsonPlainObject` -/
def isJsonPlainObject : JsValue → Bool
  | .object proto _ => proto = .objectPrototype ∨ proto = .null
  | _ => false

/-- `Array.isArray` -/
def isArray : JsValue → Bool
  | .array .. => true
  | _ => false

/-- The enumerable own properties with string keys, as `Object.keys` and `value[key]` see them. -/
def enumerableMembers (props : List ((PropertyKey × Descriptor) × JsValue)) :
    List (JsString × JsValue) :=
  props.filterMap fun p =>
    match p.1 with
    | (.string k, d) => if d.enumerable then some (k, p.2) else none
    | (.symbol, _) => none

/-- The properties of a clone. -/
def dataProperties (members : List (JsString × JsValue)) :
    List ((PropertyKey × Descriptor) × JsValue) :=
  members.map fun p => ((.string p.1, .data), p.2)

/-- `Object.defineProperty` on an object for each member, none of which can be redefined. -/
def definedMembers (members : List (JsString × JsValue)) :
    Except NativeError (List (JsString × JsValue)) :=
  if (members.map Prod.fst).Nodup then .ok members
  else .error (.typeError (lit "Cannot redefine property"))

mutual

/-- `cloneJsonValue`, with `deepFreezeClone` on arrays and plain objects. A container is forgotten
when the walk leaves it, so what it meets `again` is a container inside itself. An array of another
class maps to an array of that class. -/
def cloneJsonValue : JsValue → Except NativeError JsValue
  | .array proto elems _ =>
      -- `Array.isArray` does not ask for the prototype, but `map` is found there
      if proto = .arrayPrototype ∨ proto = .other then do
        let clone ← cloneElems elems
        return .array proto clone 0
      else throw (.typeError (lit "value.map is not a function"))
  | .object proto props =>
      if proto = .objectPrototype ∨ proto = .null then do
        let members ← cloneProps props
        let clone ← definedMembers members
        return .object .objectPrototype (dataProperties clone)
      else throw (.typeError
        (lit "payload must contain only JSON-compatible finite scalar values"))
  | .again => throw (.typeError (lit "payload must not contain circular references"))
  | .null => return .null
  | .string s => return .string s
  | .boolean b => return .boolean b
  | .number n =>
      if n.isFinite then return .number n
      else throw (.typeError
        (lit "payload must contain only JSON-compatible finite scalar values"))
  | _ => throw (.typeError (lit "payload must contain only JSON-compatible finite scalar values"))

/-- `value.map`: a hole stays one. -/
def cloneElems : List (Option Descriptor × JsValue) →
    Except NativeError (List (Option Descriptor × JsValue))
  | [] => return []
  -- `map` keeps a hole and does not call the function on it
  | (none, _) :: elems => do
      let rest ← cloneElems elems
      return (none, .undefined) :: rest
  | (some _, v) :: elems => do
      let clone ← cloneJsonValue v
      let rest ← cloneElems elems
      return (some .data, clone) :: rest

/-- The loop over `Object.keys(value)`. -/
def cloneProps : List ((PropertyKey × Descriptor) × JsValue) →
    Except NativeError (List (JsString × JsValue))
  | [] => return []
  | ((.string k, d), v) :: props =>
      -- `Object.entries` passes over symbols and what is not enumerable
      if d.enumerable then do
        let clone ← cloneJsonValue v
        let rest ← cloneProps props
        return (k, clone) :: rest
      else cloneProps props
  | ((.symbol, _), _) :: props => cloneProps props

end

/-- `deepFreezeClone` -/
def deepFreezeClone (value : JsValue) : Except NativeError JsValue :=
  if isArray value || isJsonPlainObject value then cloneJsonValue value
  else throw (.typeError
    (lit "payload must contain only plain objects, arrays, and JSON-compatible scalars"))

end CustomerRecordsSchema

open CustomerRecordsSchema

/-! ## Records -/

/-- A canonical record. -/
structure CustomerRecord where
  id : JsString
  tenantId : JsString
  name : JsString
  payload : JsValue
  createdAt : JsString
  recordedAt : JsString

/-- The object a canonical record is. -/
def CustomerRecord.toValue (r : CustomerRecord) : JsValue :=
  .object .objectPrototype (dataProperties
    [(lit "id", .string r.id), (lit "tenant_id", .string r.tenantId), (lit "name", .string r.name),
      (lit "payload", r.payload), (lit "created_at", .string r.createdAt),
      (lit "recorded_at", .string r.recordedAt)])

namespace CustomerRecordsSchema

/-- `CANONICAL_KEYS` -/
def canonicalKeys : List JsString :=
  [lit "id", lit "tenant_id", lit "name", lit "payload", lit "created_at", lit "recorded_at"]

/-- `[0-9a-f]` without regard to case. -/
def hexDigitClass (u : CodeUnit) : Bool := hexClass u || u.inRange 'A' 'F'

/-- `UUID_PATTERN` -/
def uuidPattern : List (CodeUnit → Bool) :=
  List.replicate 8 hexDigitClass ++ charClass '-' ::
    (List.replicate 4 hexDigitClass ++ charClass '-' ::
      (List.replicate 4 hexDigitClass ++ charClass '-' ::
        (List.replicate 4 hexDigitClass ++ charClass '-' :: List.replicate 12 hexDigitClass)))

/-- `assertUuid`, with the string it lets through. -/
def assertUuid (value : JsValue) (key : JsString) : Except NativeError JsString :=
  match value with
  | .string s =>
      if matchesForm uuidPattern s then .ok s
      else .error (.typeError (key ++ lit " must be a uuid string"))
  | _ => .error (.typeError (key ++ lit " must be a uuid string"))

/-- `assertTimestamp`, with the string it lets through; `Date.parse` reads what it reads. -/
def assertTimestamp (dateParses : JsString → Bool) (value : JsValue) (key : JsString) :
    Except NativeError JsString :=
  match value with
  | .string s =>
      if dateParses s then .ok s
      else .error (.typeError (key ++ lit " must be an ISO timestamp string"))
  | _ => .error (.typeError (key ++ lit " must be an ISO timestamp string"))

/-- The name check, with the trimmed name. -/
def checkName (value : JsValue) : Except NativeError JsString :=
  match value with
  | .string s =>
      if trim s = [] then .error (.typeError (lit "name must be a non-blank string"))
      else .ok (trim s)
  | _ => .error (.typeError (lit "name must be a non-blank string"))

/-- The own properties of a plain object. -/
def plainProperties? : JsValue → Option (List ((PropertyKey × Descriptor) × JsValue))
  | .object proto props => if proto = .objectPrototype ∨ proto = .null then some props else none
  | _ => none

/-- `record.payload` -/
def payloadOf (record : JsValue) : JsValue :=
  JsValue.get ((plainProperties? record).getD []) (lit "payload")

end CustomerRecordsSchema

/-- `canonicalizeCustomerRecord` -/
def canonicalizeCustomerRecord (dateParses : JsString → Bool) (record : JsValue) :
    Except NativeError CustomerRecord :=
  match plainProperties? record with
  | none => .error (.typeError (lit "record must be a plain object"))
  | some props => do
      -- `Object.keys`: what is not enumerable is not counted
      let keys := (enumerableMembers props).map Prod.fst
      throwIf (keys.length ≠ canonicalKeys.length ∨ ¬∀ k ∈ canonicalKeys, k ∈ keys)
        (.typeError (lit "record must have exactly the six canonical keys"))
      let id ← assertUuid (JsValue.get props (lit "id")) (lit "id")
      let tenantId ← assertUuid (JsValue.get props (lit "tenant_id")) (lit "tenant_id")
      let name ← checkName (JsValue.get props (lit "name"))
      throwIf (isJsonPlainObject (JsValue.get props (lit "payload")) = false)
        (.typeError (lit "payload must be a plain object"))
      let createdAt ← assertTimestamp dateParses (JsValue.get props (lit "created_at"))
        (lit "created_at")
      let recordedAt ← assertTimestamp dateParses (JsValue.get props (lit "recorded_at"))
        (lit "recorded_at")
      -- the payload is walked last, when all else has been accepted
      let payload ← deepFreezeClone (JsValue.get props (lit "payload"))
      return { id, tenantId, name, payload, createdAt, recordedAt }

/-! ## JSON -/

namespace CustomerRecordsSchema

mutual

/-- What `JSON.stringify` prints of a value that has no `toJSON`, where it prints anything. -/
def serialized : JsValue → Except NativeError (Option Json)
  | .undefined => return none
  | .symbol => return none
  | .function => return none
  | .null => return some .null
  | .boolean b => return some (.bool b)
  -- `JSON.stringify` has no other name for what is not finite
  | .number n => return some (if n.isFinite then .num n else .null)
  | .string s => return some (.str s)
  | .bigint => throw (.typeError (lit "Do not know how to serialize a BigInt"))
  | .again => throw (.typeError (lit "Converting circular structure to JSON"))
  | .array _ elems _ => do
      let l ← serializedElems elems
      return some (.arr l)
  | .object _ props => do
      let m ← serializedProps props
      return some (.obj m)

/-- The elements of an array, `null` where there is nothing to print. -/
def serializedElems : List (Option Descriptor × JsValue) → Except NativeError (List Json)
  | [] => return []
  | (none, _) :: elems => do
      let rest ← serializedElems elems
      return .null :: rest
  | (some _, v) :: elems => do
      let j ← serialized v
      let rest ← serializedElems elems
      return j.getD .null :: rest

/-- The enumerable members of an object that there is something to print of. -/
def serializedProps : List ((PropertyKey × Descriptor) × JsValue) →
    Except NativeError (List (JsString × Json))
  | [] => return []
  | ((.string k, d), v) :: props =>
      if d.enumerable then do
        let j ← serialized v
        let rest ← serializedProps props
        return (j.map fun j => (k, j)).toList ++ rest
      else serializedProps props
  | ((.symbol, _), _) :: props => serializedProps props

end

/-- `JSON.parse(JSON.stringify(value))` -/
def throughJson (value : JsValue) : Except NativeError (Option Json) :=
  (serialized value).map fun j => j.bind fun j => jsonParse j.stringify

/-- The value is what `JSON.parse(JSON.stringify(value))` is, at every depth. -/
def IsJsonFaithful (value : JsValue) : Prop :=
  ∃ j w, value = .ofJson j ∧ throughJson value = .ok (some w) ∧ j.sameValue w = true

mutual

/-- Every array of the value inherits from `Array.prototype` and has no hole. -/
def isDense : JsValue → Bool
  | .array proto elems _ => decide (proto = .arrayPrototype) && isDenseElems elems
  | .object _ props => isDenseProps props
  | _ => true

def isDenseElems : List (Option Descriptor × JsValue) → Bool
  | [] => true
  | (d, v) :: elems => d.isSome && isDense v && isDenseElems elems

def isDenseProps : List ((PropertyKey × Descriptor) × JsValue) → Bool
  | [] => true
  | ((.string _, d), v) :: props => (!d.enumerable || isDense v) && isDenseProps props
  | ((.symbol, _), _) :: props => isDenseProps props

end

/-! ### Containers -/

/-- Elements are dense when none is a hole and all are dense. -/
theorem isDenseElems_iff {elems : List (Option Descriptor × JsValue)} :
    isDenseElems elems = true ↔ ∀ e ∈ elems, e.1.isSome = true ∧ isDense e.2 = true := by
  induction elems with
  | nil => exact iff_of_true rfl (List.forall_mem_nil _)
  | cons e elems ih =>
    rw [isDenseElems, Bool.and_eq_true, Bool.and_eq_true, List.forall_mem_cons, ih]

/-- Properties are dense when the enumerable ones are. -/
theorem isDenseProps_iff {props : List ((PropertyKey × Descriptor) × JsValue)} :
    isDenseProps props = true ↔ ∀ p ∈ enumerableMembers props, isDense p.2 = true := by
  induction props with
  | nil => exact iff_of_true rfl (List.forall_mem_nil _)
  | cons p props ih =>
    obtain ⟨⟨key, d⟩, v⟩ := p
    cases key with
    | symbol => exact ih
    | string k =>
      rw [isDenseProps, Bool.and_eq_true, ih, enumerableMembers]
      cases hd : d.enumerable with
      | true => simp [hd, enumerableMembers]
      | false => simp [hd, enumerableMembers]

/-- An element and its clone. -/
def ElemCloned (e e' : Option Descriptor × JsValue) : Prop :=
  (e.1 = none ∧ e' = (none, .undefined)) ∨
    ∃ d clone, e.1 = some d ∧ cloneJsonValue e.2 = .ok clone ∧ e' = (some .data, clone)

/-- Elements are cloned one by one. -/
theorem cloneElems_eq_ok {elems clone : List (Option Descriptor × JsValue)} :
    cloneElems elems = .ok clone ↔ List.Forall₂ ElemCloned elems clone := by
  induction elems generalizing clone with
  | nil =>
    rw [cloneElems, List.forall₂_nil_left_iff]
    exact ⟨fun h => (Except.ok.inj h).symm, fun h => congrArg Except.ok h.symm⟩
  | cons e elems ih =>
    obtain ⟨d, v⟩ := e
    rw [List.forall₂_cons_left_iff]
    -- a hole stays a hole, and any other element is cloned
    cases d with
    | none =>
      simp only [cloneElems, bind_eq_ok, ih]
      constructor
      · rintro ⟨rest, hrest, h⟩
        exact ⟨_, rest, .inl ⟨rfl, rfl⟩, hrest, (Except.ok.inj h).symm⟩
      · rintro ⟨_, rest, ⟨-, rfl⟩ | ⟨_, _, h, -⟩, hrest, rfl⟩
        · exact ⟨rest, hrest, rfl⟩
        · cases h
    | some d =>
      simp only [cloneElems, bind_eq_ok, ih]
      constructor
      · rintro ⟨c, hc, rest, hrest, h⟩
        exact ⟨_, rest, .inr ⟨d, c, rfl, hc, rfl⟩, hrest, (Except.ok.inj h).symm⟩
      · rintro ⟨_, rest, ⟨h, -⟩ | ⟨_, c, -, hc, rfl⟩, hrest, rfl⟩
        · cases h
        · exact ⟨c, hc, rest, hrest, rfl⟩

/-- A member and its clone. -/
def MemberCloned (p p' : JsString × JsValue) : Prop :=
  p'.1 = p.1 ∧ cloneJsonValue p.2 = .ok p'.2

/-- The enumerable properties are cloned one by one. -/
theorem cloneProps_eq_ok {props : List ((PropertyKey × Descriptor) × JsValue)}
    {members : List (JsString × JsValue)} :
    cloneProps props = .ok members ↔
      List.Forall₂ MemberCloned (enumerableMembers props) members := by
  induction props generalizing members with
  | nil =>
    rw [cloneProps, enumerableMembers, List.filterMap_nil, List.forall₂_nil_left_iff]
    exact ⟨fun h => (Except.ok.inj h).symm, fun h => congrArg Except.ok h.symm⟩
  | cons p props ih =>
    obtain ⟨⟨key, d⟩, v⟩ := p
    cases key with
    | symbol => exact ih
    | string k =>
      rw [cloneProps]
      -- a property that is not enumerable is passed over
      cases hd : d.enumerable with
      | false =>
        have hskip : enumerableMembers (((.string k, d), v) :: props) =
            enumerableMembers props := by simp [enumerableMembers, hd]
        rw [hskip]
        exact ih
      | true =>
        have hkeep : enumerableMembers (((.string k, d), v) :: props) =
            (k, v) :: enumerableMembers props := by simp [enumerableMembers, hd]
        rw [hkeep, List.forall₂_cons_left_iff]
        simp only [if_true, bind_eq_ok, ih]
        constructor
        · rintro ⟨c, hc, rest, hrest, h⟩
          exact ⟨(k, c), rest, ⟨rfl, hc⟩, hrest, (Except.ok.inj h).symm⟩
        · rintro ⟨⟨_, c⟩, rest, ⟨rfl, hc⟩, hrest, rfl⟩
          exact ⟨c, hc, rest, hrest, rfl⟩

/-- A clone has its members when no two have one key. -/
theorem definedMembers_eq_ok {members clone : List (JsString × JsValue)} :
    definedMembers members = .ok clone ↔ (members.map Prod.fst).Nodup ∧ clone = members := by
  unfold definedMembers
  split
  · next h => exact ⟨fun heq => ⟨h, (Except.ok.inj heq).symm⟩, fun heq => heq.2 ▸ rfl⟩
  · next h => exact iff_of_false (by rintro ⟨⟩) fun heq => h heq.1

/-- Data properties are all enumerable. -/
theorem enumerableMembers_dataProperties (members : List (JsString × JsValue)) :
    enumerableMembers (dataProperties members) = members := by
  rw [enumerableMembers, dataProperties, List.filterMap_map]
  exact List.filterMap_some

/-! ### Clones -/

/-- An array that is cloned. -/
theorem cloneJsonValue_array_eq_ok {proto : Proto} {elems : List (Option Descriptor × JsValue)}
    {extra : ℕ} {v : JsValue} :
    cloneJsonValue (.array proto elems extra) = .ok v ↔
      (proto = .arrayPrototype ∨ proto = .other) ∧
        ∃ clone, List.Forall₂ ElemCloned elems clone ∧ v = .array proto clone 0 := by
  rw [cloneJsonValue]
  split
  · next hproto =>
    simp only [bind_eq_ok, cloneElems_eq_ok, hproto, true_and]
    exact exists_congr fun clone => and_congr_right fun _ =>
      ⟨fun h => (Except.ok.inj h).symm, fun h => congrArg Except.ok h.symm⟩
  · next hproto => exact iff_of_false (by rintro ⟨⟩) fun h => hproto h.1

/-- An object that is cloned. -/
theorem cloneJsonValue_object_eq_ok {proto : Proto}
    {props : List ((PropertyKey × Descriptor) × JsValue)} {v : JsValue} :
    cloneJsonValue (.object proto props) = .ok v ↔
      (proto = .objectPrototype ∨ proto = .null) ∧
        ∃ members, List.Forall₂ MemberCloned (enumerableMembers props) members ∧
          (members.map Prod.fst).Nodup ∧
          v = .object .objectPrototype (dataProperties members) := by
  rw [cloneJsonValue]
  split
  · next hproto =>
    simp only [bind_eq_ok, cloneProps_eq_ok, definedMembers_eq_ok, hproto, true_and]
    refine exists_congr fun members => and_congr_right fun _ => ?_
    constructor
    · rintro ⟨_, ⟨hnodup, rfl⟩, h⟩
      exact ⟨hnodup, (Except.ok.inj h).symm⟩
    · rintro ⟨hnodup, rfl⟩
      exact ⟨members, ⟨hnodup, rfl⟩, rfl⟩
  · next hproto => exact iff_of_false (by rintro ⟨⟩) fun h => hproto h.1

/-- A scalar is its own clone. -/
theorem eq_of_cloneJsonValue_scalar {v clone : JsValue} (hcontainer : ∀ proto elems extra,
    v ≠ .array proto elems extra) (hobject : ∀ proto props, v ≠ .object proto props)
    (h : cloneJsonValue v = .ok clone) : clone = v ∧ ∃ j : Json, v = .ofJson j ∧
      j.wellFormed = true := by
  cases v with
  | null => exact ⟨(Except.ok.inj h).symm, .null, rfl, rfl⟩
  | string s => exact ⟨(Except.ok.inj h).symm, .str s, rfl, rfl⟩
  | boolean b => exact ⟨(Except.ok.inj h).symm, .bool b, rfl, rfl⟩
  | number n =>
    rw [cloneJsonValue] at h
    split at h
    · next hfinite => exact ⟨(Except.ok.inj h).symm, .num n, rfl, hfinite⟩
    · cases h
  | array proto elems extra => exact absurd rfl (hcontainer proto elems extra)
  | object proto props => exact absurd rfl (hobject proto props)
  | _ => cases h

/-- A clone is cloned to itself. -/
theorem cloneJsonValue_clone {v clone : JsValue} (h : cloneJsonValue v = .ok clone) :
    cloneJsonValue clone = .ok clone := by
  induction v using JsValue.ind generalizing clone with
  | array proto elems extra ih =>
    obtain ⟨hproto, c, hc, rfl⟩ := cloneJsonValue_array_eq_ok.mp h
    refine cloneJsonValue_array_eq_ok.mpr ⟨hproto, c, ?_, rfl⟩
    rw [List.forall₂_same]
    intro e' he'
    -- every element of the clone is a hole or the clone of an element
    obtain ⟨e, he, hcloned⟩ := exists_of_forall₂_left hc.flip he'
    rcases hcloned with ⟨-, rfl⟩ | ⟨d, clone, -, hclone, rfl⟩
    · exact .inl ⟨rfl, rfl⟩
    · exact .inr ⟨.data, clone, rfl, ih e he hclone, rfl⟩
  | object proto props ih =>
    obtain ⟨-, members, hmembers, hnodup, rfl⟩ := cloneJsonValue_object_eq_ok.mp h
    refine cloneJsonValue_object_eq_ok.mpr ⟨.inl rfl, members, ?_, hnodup, rfl⟩
    rw [enumerableMembers_dataProperties, List.forall₂_same]
    intro p' hp'
    obtain ⟨p, hp, hkey, hclone⟩ := exists_of_forall₂_left hmembers.flip hp'
    obtain ⟨q, hq, hqp⟩ := List.mem_filterMap.mp hp
    refine ⟨rfl, ih q hq ?_⟩
    split at hqp
    · split_ifs at hqp
      obtain rfl := Option.some.inj hqp
      exact hclone
    · cases hqp
  | _ =>
    have hscalar := eq_of_cloneJsonValue_scalar (by rintro _ _ _ ⟨⟩) (by rintro _ _ ⟨⟩) h
    rw [hscalar.1] at h ⊢
    exact h

/-- A list of images is the image of a list. -/
theorem exists_map_of_forall_mem {α β : Type} {f : α → β} {P : α → Prop} {l : List β}
    (h : ∀ b ∈ l, ∃ a, b = f a ∧ P a) : ∃ l' : List α, l = l'.map f ∧ ∀ a ∈ l', P a := by
  induction l with
  | nil => exact ⟨[], rfl, List.forall_mem_nil _⟩
  | cons b l ih =>
    obtain ⟨⟨a, rfl, ha⟩, hl⟩ := List.forall_mem_cons.mp h
    obtain ⟨l', rfl, hl'⟩ := ih hl
    exact ⟨a :: l', rfl, List.forall_mem_cons.mpr ⟨ha, hl'⟩⟩

/-- An array is JSON data when its elements are. -/
theorem array_eq_ofJson_iff {proto : Proto} {elems : List (Option Descriptor × JsValue)} :
    (∃ j : Json, JsValue.array proto elems 0 = .ofJson j ∧ j.wellFormed = true) ↔
      proto = .arrayPrototype ∧
        ∀ e ∈ elems, ∃ j : Json, e = (some .data, .ofJson j) ∧ j.wellFormed = true := by
  constructor
  · rintro ⟨j, heq, hj⟩
    cases j with
    | arr l =>
      rw [JsValue.ofJson, JsValue.ofElems_eq, JsValue.array.injEq] at heq
      obtain ⟨rfl, rfl, -⟩ := heq
      refine ⟨rfl, List.forall_mem_map.mpr fun j hmem => ⟨j, rfl, ?_⟩⟩
      exact (Json.wellFormed_arr l).mp hj j hmem
    | _ => cases heq
  · rintro ⟨rfl, helems⟩
    obtain ⟨l, rfl, hl⟩ := exists_map_of_forall_mem helems
    refine ⟨.arr l, ?_, (Json.wellFormed_arr l).mpr hl⟩
    rw [JsValue.ofJson, JsValue.ofElems_eq]

/-- The object of some members is JSON data when they are. -/
theorem object_eq_ofJson_iff {members : List (JsString × JsValue)}
    (hnodup : (members.map Prod.fst).Nodup) :
    (∃ j : Json, JsValue.object .objectPrototype (dataProperties members) = .ofJson j ∧
        j.wellFormed = true) ↔
      ∀ p ∈ members, ∃ j : Json, p.2 = .ofJson j ∧ j.wellFormed = true := by
  constructor
  · rintro ⟨j, heq, hj⟩ p hp
    cases j with
    | obj m =>
      rw [JsValue.ofJson, JsValue.ofMembers_eq, JsValue.object.injEq] at heq
      have hmem : ((.string p.1, .data), p.2) ∈ dataProperties members := List.mem_map_of_mem hp
      rw [heq.2] at hmem
      obtain ⟨q, hq, hqp⟩ := List.mem_map.mp hmem
      exact ⟨q.2, (Prod.mk.inj hqp).2.symm, ((Json.wellFormed_obj m).mp hj).2 q hq⟩
    | _ => cases heq
  · intro h
    -- each value is one of JSON, so the members are the image of JSON members
    have hpairs : ∀ p ∈ members, ∃ q : JsString × Json,
        p = (q.1, .ofJson q.2) ∧ q.2.wellFormed = true := fun p hp => by
      obtain ⟨j, heq, hj⟩ := h p hp
      exact ⟨(p.1, j), Prod.ext rfl heq, hj⟩
    obtain ⟨m, rfl, hm⟩ := exists_map_of_forall_mem hpairs
    rw [List.map_map] at hnodup
    refine ⟨.obj m, ?_, (Json.wellFormed_obj m).mpr ⟨hnodup, hm⟩⟩
    rw [JsValue.ofJson, JsValue.ofMembers_eq, dataProperties, List.map_map]
    rfl

/-- A clone is JSON data exactly when the value is dense. -/
theorem isDense_iff {v clone : JsValue} (h : cloneJsonValue v = .ok clone) :
    isDense v = true ↔ ∃ j : Json, clone = .ofJson j ∧ j.wellFormed = true := by
  induction v using JsValue.ind generalizing clone with
  | array proto elems extra ih =>
    -- an element and its clone stand at the same place, and a hole has a clone that is no JSON
    obtain ⟨-, c, hc, rfl⟩ := cloneJsonValue_array_eq_ok.mp h
    rw [isDense, Bool.and_eq_true, decide_eq_true_iff, isDenseElems_iff, array_eq_ofJson_iff]
    refine and_congr_right fun _ => ?_
    constructor
    · intro hdense e' he'
      obtain ⟨e, he, hcloned⟩ := exists_of_forall₂_left hc.flip he'
      obtain ⟨hsome, hvalue⟩ := hdense e he
      rcases hcloned with ⟨hnone, -⟩ | ⟨d, clone, -, hclone, rfl⟩
      · rw [hnone] at hsome
        cases hsome
      · obtain ⟨j, rfl, hj⟩ := (ih e he hclone).mp hvalue
        exact ⟨j, rfl, hj⟩
    · intro hjson e he
      obtain ⟨e', he', hcloned⟩ := exists_of_forall₂_left hc he
      obtain ⟨j, rfl, hj⟩ := hjson e' he'
      rcases hcloned with ⟨-, hnone⟩ | ⟨d, clone, hsome, hclone, heq⟩
      · cases hnone
      · obtain ⟨-, rfl⟩ := Prod.mk.inj heq
        exact ⟨by rw [hsome]; rfl, (ih e he hclone).mpr ⟨j, rfl, hj⟩⟩
  | object proto props ih =>
    obtain ⟨-, members, hmembers, hnodup, rfl⟩ := cloneJsonValue_object_eq_ok.mp h
    rw [isDense, isDenseProps_iff, object_eq_ofJson_iff hnodup]
    -- a member that is cloned is the value of a data property
    have hmember {p : JsString × JsValue} (hp : p ∈ enumerableMembers props) {clone : JsValue}
        (hclone : cloneJsonValue p.2 = .ok clone) :
        isDense p.2 = true ↔ ∃ j : Json, clone = .ofJson j ∧ j.wellFormed = true := by
      obtain ⟨q, hq, hqp⟩ := List.mem_filterMap.mp hp
      split at hqp
      · split_ifs at hqp
        obtain rfl := Option.some.inj hqp
        exact ih q hq hclone
      · cases hqp
    constructor
    · intro hdense p' hp'
      obtain ⟨p, hp, -, hclone⟩ := exists_of_forall₂_left hmembers.flip hp'
      exact (hmember hp hclone).mp (hdense p hp)
    · intro hjson p hp
      obtain ⟨p', hp', -, hclone⟩ := exists_of_forall₂_left hmembers hp
      exact (hmember hp hclone).mpr (hjson p' hp')
  | _ =>
    have hscalar := eq_of_cloneJsonValue_scalar (by rintro _ _ _ ⟨⟩) (by rintro _ _ ⟨⟩) h
    rw [hscalar.1]
    exact iff_of_true rfl hscalar.2

/-! ### Through JSON -/

/-- JSON data is printed as it is. -/
theorem serialized_ofJson {j : Json} (h : j.wellFormed = true) :
    serialized (.ofJson j) = .ok (some j) := by
  induction j using Json.ind with
  | null => rfl
  | bool b => rfl
  | str s => rfl
  | num n =>
    rw [Json.wellFormed] at h
    rw [JsValue.ofJson, serialized, if_pos h]
    rfl
  | arr l ih =>
    rw [Json.wellFormed_arr] at h
    -- the hypotheses about the elements are about each of them, so the list is taken apart again
    have helems : serializedElems (JsValue.ofElems l) = .ok l := by
      induction l with
      | nil => rfl
      | cons v l ihl =>
        obtain ⟨hv, hl⟩ := List.forall_mem_cons.mp h
        obtain ⟨ihv, ihl'⟩ := List.forall_mem_cons.mp ih
        rw [JsValue.ofElems, serializedElems, ihv hv, ihl ihl' hl]
        rfl
    rw [JsValue.ofJson, serialized, helems]
    rfl
  | obj m ih =>
    rw [Json.wellFormed_obj] at h
    -- likewise for the members
    have hprops : serializedProps (JsValue.ofMembers m) = .ok m := by
      obtain ⟨-, h⟩ := h
      induction m with
      | nil => rfl
      | cons p m ihm =>
        obtain ⟨hv, hm⟩ := List.forall_mem_cons.mp h
        obtain ⟨ihv, ihm'⟩ := List.forall_mem_cons.mp ih
        obtain ⟨k, v⟩ := p
        rw [JsValue.ofMembers, serializedProps, ihv hv, ihm ihm' hm]
        rfl
    rw [JsValue.ofJson, serialized, hprops]
    rfl

/-- JSON gives JSON data back. -/
theorem isJsonFaithful_ofJson {j : Json} (h : j.wellFormed = true) :
    IsJsonFaithful (.ofJson j) := by
  refine ⟨j, j.readBack, rfl, ?_, ?_⟩
  · rw [throughJson, serialized_ofJson h]
    exact congrArg Except.ok (jsonParse_stringify h)
  · rw [Json.sameValue_iff_canonical h (wellFormed_readBack h), canonical_readBack h]

/-- JSON data is dense. -/
theorem isDense_ofJson (j : Json) : isDense (.ofJson j) = true := by
  induction j using Json.ind with
  | arr l ih =>
    rw [JsValue.ofJson, isDense, Bool.and_eq_true, decide_eq_true_iff, isDenseElems_iff,
      JsValue.ofElems_eq]
    exact ⟨rfl, List.forall_mem_map.mpr fun v hv => ⟨rfl, ih v hv⟩⟩
  | obj m ih =>
    rw [JsValue.ofJson, isDense, isDenseProps_iff, JsValue.ofMembers_eq]
    intro p hp
    obtain ⟨q, hq, hqp⟩ := List.mem_filterMap.mp hp
    obtain ⟨r, hr, rfl⟩ := List.mem_map.mp hq
    obtain rfl := Option.some.inj hqp
    exact ih r hr
  | _ => rfl

/-- JSON gives a clone back exactly when the value it is a clone of is dense. -/
theorem isJsonFaithful_clone_iff {v clone : JsValue} (h : cloneJsonValue v = .ok clone) :
    IsJsonFaithful clone ↔ isDense v = true := by
  constructor
  · rintro ⟨j, w, rfl, -, -⟩
    rw [isDense_iff h]
    exact (isDense_iff (cloneJsonValue_clone h)).mp (isDense_ofJson j)
  · intro hdense
    obtain ⟨j, rfl, hj⟩ := (isDense_iff h).mp hdense
    exact isJsonFaithful_ofJson hj

/-! ### Records -/

/-- A trimmed text is trimmed. -/
theorem trim_trim (s : JsString) : trim (trim s) = trim s := by
  have hleft : (trim s).dropWhile isTrimmed = trim s := by
    have htrim : trim s <+: s.dropWhile isTrimmed := List.rdropWhile_prefix isTrimmed _
    rw [List.dropWhile_eq_self_iff]
    intro hl
    rw [htrim.getElem hl]
    exact List.dropWhile_get_zero_not isTrimmed s _
  rw [trim, hleft]
  exact List.rdropWhile_idempotent isTrimmed (s.dropWhile isTrimmed)

/-- A UUID passes as a string of its form. -/
theorem assertUuid_eq_ok {value : JsValue} {key s : JsString} :
    assertUuid value key = .ok s ↔ value = .string s ∧ matchesForm uuidPattern s = true := by
  unfold assertUuid
  split
  · next t =>
    split_ifs with hform
    · simp only [Except.ok.injEq, JsValue.string.injEq]
      exact ⟨fun h => ⟨h, h ▸ hform⟩, And.left⟩
    · refine iff_of_false (by rintro ⟨⟩) ?_
      rintro ⟨⟨⟩, h⟩
      exact hform h
  · next hnot => exact iff_of_false (by rintro ⟨⟩) fun h => hnot s h.1

variable {dateParses : JsString → Bool}

/-- A timestamp passes as a string that `Date` parses. -/
theorem assertTimestamp_eq_ok {value : JsValue} {key s : JsString} :
    assertTimestamp dateParses value key = .ok s ↔ value = .string s ∧ dateParses s = true := by
  unfold assertTimestamp
  split
  · next t =>
    split_ifs with hparses
    · simp only [Except.ok.injEq, JsValue.string.injEq]
      exact ⟨fun h => ⟨h, h ▸ hparses⟩, And.left⟩
    · refine iff_of_false (by rintro ⟨⟩) ?_
      rintro ⟨⟨⟩, h⟩
      exact hparses h
  · next hnot => exact iff_of_false (by rintro ⟨⟩) fun h => hnot s h.1

/-- A name passes as a string that is not blank, and is trimmed. -/
theorem checkName_eq_ok {value : JsValue} {name : JsString} :
    checkName value = .ok name ↔ ∃ s, value = .string s ∧ trim s ≠ [] ∧ name = trim s := by
  unfold checkName
  split
  · next t =>
    split_ifs with hblank
    · refine iff_of_false (by rintro ⟨⟩) ?_
      rintro ⟨_, ⟨⟩, h, -⟩
      exact h hblank
    · simp only [Except.ok.injEq, JsValue.string.injEq, exists_eq_left']
      exact ⟨fun h => ⟨hblank, h.symm⟩, fun h => h.2.symm⟩
  · next hnot =>
    refine iff_of_false (by rintro ⟨⟩) ?_
    rintro ⟨s, h, -⟩
    exact hnot s h

/-- A plain payload is cloned as any value in it. -/
theorem deepFreezeClone_of_plain {value : JsValue} (h : isJsonPlainObject value = true) :
    deepFreezeClone value = cloneJsonValue value := by
  rw [deepFreezeClone, h, Bool.or_true, if_pos rfl]

/-- A record and the canonical one it is accepted as. -/
structure Canonicalizes (dateParses : JsString → Bool)
    (props : List ((PropertyKey × Descriptor) × JsValue)) (r : CustomerRecord) : Prop where
  keys : ((enumerableMembers props).map Prod.fst).length = canonicalKeys.length ∧
    ∀ k ∈ canonicalKeys, k ∈ (enumerableMembers props).map Prod.fst
  id : JsValue.get props (lit "id") = .string r.id ∧ matchesForm uuidPattern r.id = true
  tenantId : JsValue.get props (lit "tenant_id") = .string r.tenantId ∧
    matchesForm uuidPattern r.tenantId = true
  name : ∃ s, JsValue.get props (lit "name") = .string s ∧ trim s ≠ [] ∧ r.name = trim s
  plain : isJsonPlainObject (JsValue.get props (lit "payload")) = true
  createdAt : JsValue.get props (lit "created_at") = .string r.createdAt ∧
    dateParses r.createdAt = true
  recordedAt : JsValue.get props (lit "recorded_at") = .string r.recordedAt ∧
    dateParses r.recordedAt = true
  payload : cloneJsonValue (JsValue.get props (lit "payload")) = .ok r.payload

/-- The records that are made canonical, and what of them. -/
theorem canonicalizeCustomerRecord_eq_ok {record : JsValue} {r : CustomerRecord} :
    canonicalizeCustomerRecord dateParses record = .ok r ↔
      ∃ props, plainProperties? record = some props ∧ Canonicalizes dateParses props r := by
  unfold canonicalizeCustomerRecord
  cases plainProperties? record with
  | none => exact iff_of_false (by rintro ⟨⟩) (by rintro ⟨_, ⟨⟩, _⟩)
  | some props =>
    -- every check by its own lemma
    simp only [bind_eq_ok, throwIf_eq_ok, exists_const, assertUuid_eq_ok, checkName_eq_ok,
      assertTimestamp_eq_ok, Option.some.injEq, exists_eq_left', not_or, not_not,
      Bool.not_eq_false]
    constructor
    · rintro ⟨hkeys, id, hid, tenantId, htenant, name, hname, hplain, createdAt, hcreated,
        recordedAt, hrecorded, payload, hpayload, h⟩
      obtain rfl := Except.ok.inj h
      rw [deepFreezeClone_of_plain hplain] at hpayload
      exact ⟨hkeys, hid, htenant, hname, hplain, hcreated, hrecorded, hpayload⟩
    · rintro ⟨hkeys, hid, htenant, hname, hplain, hcreated, hrecorded, hpayload⟩
      rw [← deepFreezeClone_of_plain hplain] at hpayload
      exact ⟨hkeys, _, hid, _, htenant, _, hname, hplain, _, hcreated, _, hrecorded, _, hpayload,
        rfl⟩

/-- The clone of a plain object is one. -/
theorem isJsonPlainObject_clone {v clone : JsValue} (h : cloneJsonValue v = .ok clone)
    (hplain : isJsonPlainObject v = true) : isJsonPlainObject clone = true := by
  cases v with
  | object proto props =>
    obtain ⟨-, members, -, -, rfl⟩ := cloneJsonValue_object_eq_ok.mp h
    rfl
  | _ => cases hplain

/-- A canonical record is accepted as it is. -/
theorem canonicalize_toValue {record : JsValue} {r : CustomerRecord}
    (h : canonicalizeCustomerRecord dateParses record = .ok r) :
    canonicalizeCustomerRecord dateParses r.toValue = .ok r := by
  obtain ⟨props, -, -, hid, htenant, ⟨s, -, hblank, hname⟩, hplain, hcreated, hrecorded,
    hpayload⟩ := canonicalizeCustomerRecord_eq_ok.mp h
  refine canonicalizeCustomerRecord_eq_ok.mpr ⟨_, rfl, ?_⟩
  have hmembers := enumerableMembers_dataProperties
    [(lit "id", .string r.id), (lit "tenant_id", .string r.tenantId), (lit "name", .string r.name),
      (lit "payload", r.payload), (lit "created_at", .string r.createdAt),
      (lit "recorded_at", .string r.recordedAt)]
  refine ⟨?_, ⟨rfl, hid.2⟩, ⟨rfl, htenant.2⟩, ⟨r.name, rfl, ?_, ?_⟩,
    isJsonPlainObject_clone hpayload hplain, ⟨rfl, hcreated.2⟩, ⟨rfl, hrecorded.2⟩,
    cloneJsonValue_clone hpayload⟩
  · rw [hmembers]
    exact ⟨rfl, fun k hk => hk⟩
  · rwa [hname, trim_trim]
  · rw [hname, trim_trim]

end CustomerRecordsSchema

/-- A canonical record is accepted again as it is, and JSON gives its payload back exactly when the
payload of the record it was made from is dense. -/
theorem isJsonFaithful_canonicalize_iff {dateParses : JsString → Bool} {record : JsValue}
    {r : CustomerRecord} (h : canonicalizeCustomerRecord dateParses record = .ok r) :
    IsJsonFaithful r.payload ∧ canonicalizeCustomerRecord dateParses r.toValue = .ok r ↔
      isDense (payloadOf record) = true := by
  obtain ⟨props, hprops, hcanonicalizes⟩ := canonicalizeCustomerRecord_eq_ok.mp h
  rw [payloadOf, hprops, Option.getD_some, and_iff_left (canonicalize_toValue h)]
  exact isJsonFaithful_clone_iff hcanonicalizes.payload

/-- A `Date.parse` that reads one timestamp, for examples. -/
def readsSampleDate (s : JsString) : Bool := s = lit "2026-01-01T00:00:00.000Z"

/-- A record whose payload has these tags, for examples. -/
def sampleRecord (tags : JsValue) : JsValue :=
  .object .objectPrototype (dataProperties
    [(lit "id", .string (lit "33333333-3333-4333-8333-333333333333")),
      (lit "tenant_id", .string (lit "11111111-1111-4111-8111-111111111111")),
      (lit "name", .string (lit " Ada ")),
      (lit "payload", .object .null (dataProperties [(lit "tags", tags)])),
      (lit "created_at", .string (lit "2026-01-01T00:00:00.000Z")),
      (lit "recorded_at", .string (lit "2026-01-01T00:00:00.000Z"))])

/-- The canonical record of a sample record. -/
def sampleCanonical (tags : JsValue) : CustomerRecord where
  id := lit "33333333-3333-4333-8333-333333333333"
  tenantId := lit "11111111-1111-4111-8111-111111111111"
  name := lit "Ada"
  payload := .object .objectPrototype (dataProperties [(lit "tags", tags)])
  createdAt := lit "2026-01-01T00:00:00.000Z"
  recordedAt := lit "2026-01-01T00:00:00.000Z"

/-- A record is accepted with its tags cloned. -/
theorem canonicalize_sampleRecord {tags clone : JsValue} (h : cloneJsonValue tags = .ok clone) :
    canonicalizeCustomerRecord readsSampleDate (sampleRecord tags) =
      .ok (sampleCanonical clone) := by
  have hid : matchesForm uuidPattern (lit "33333333-3333-4333-8333-333333333333") = true := by
    decide
  have htenant : matchesForm uuidPattern (lit "11111111-1111-4111-8111-111111111111") = true := by
    decide
  have hname : lit "Ada" = trim (lit " Ada ") := by decide
  have hdate : readsSampleDate (lit "2026-01-01T00:00:00.000Z") = true := by decide
  refine canonicalizeCustomerRecord_eq_ok.mpr ⟨_, rfl, ?_⟩
  refine ⟨⟨rfl, ?_⟩, ⟨rfl, hid⟩, ⟨rfl, htenant⟩, ⟨lit " Ada ", rfl, by decide, hname⟩, rfl,
    ⟨rfl, hdate⟩, ⟨rfl, hdate⟩, ?_⟩
  · rw [enumerableMembers_dataProperties]
    exact fun k hk => hk
  · refine cloneJsonValue_object_eq_ok.mpr ⟨.inr rfl, [(lit "tags", clone)], ?_, ?_, rfl⟩
    · rw [enumerableMembers_dataProperties]
      exact .cons ⟨rfl, h⟩ .nil
    · exact List.nodup_singleton _

theorem isJsonFaithful_sample :
    IsJsonFaithful (sampleCanonical (.array .arrayPrototype [(some .data, .null)] 0)).payload ∧
      canonicalizeCustomerRecord readsSampleDate
          (sampleCanonical (.array .arrayPrototype [(some .data, .null)] 0)).toValue =
        .ok (sampleCanonical (.array .arrayPrototype [(some .data, .null)] 0)) :=
  (isJsonFaithful_canonicalize_iff (@canonicalize_sampleRecord
    (.array .arrayPrototype [(some .data, .null)] 0) _ rfl)).mpr rfl

/-- The hole of an array is accepted, and comes back from JSON as `null`. -/
theorem not_isJsonFaithful_hole :
    canonicalizeCustomerRecord readsSampleDate
        (sampleRecord (.array .arrayPrototype [(none, .undefined)] 0)) =
      .ok (sampleCanonical (.array .arrayPrototype [(none, .undefined)] 0)) ∧
    ¬IsJsonFaithful (sampleCanonical (.array .arrayPrototype [(none, .undefined)] 0)).payload := by
  refine ⟨canonicalize_sampleRecord rfl, ?_⟩
  rintro ⟨j, w, heq, -⟩
  have hdense := isDense_ofJson j
  rw [← heq] at hdense
  cases hdense

end MetaframerKernel
