import MetaframerKernel.Js.JsonText

/-!
# JavaScript values

The values a function of the kernel may be handed, as far as its admission checks can tell them
apart: the primitive types, and the containers with their prototype and the attributes of their
own properties. A container the caller can reach along two paths appears once in full and, where a
walk meets it again, as `again`.

## Main definitions

* `JsValue`: the values;
* `JsValue.ofJson`: the ordinary value `JSON.parse` makes of a JSON value;
* `JsValue.ordinaryElements?`, `JsValue.ordinaryMembers?`: the contents of an array or object
  literal that carries enumerable data and nothing else;
* `NativeError`: the errors the admission checks throw.

## Main results

* `JsValue.ordinaryMembers?_ofJson`, `JsValue.ordinaryElements?_ofJson`: JSON data passes both
  tests.
-/

namespace Js

/-- The prototype of an object. -/
inductive Proto where
  | objectPrototype
  | arrayPrototype
  | null
  | other
deriving DecidableEq

/-- A property key. Symbols are told from strings but not from one another. -/
inductive PropertyKey where
  | string (s : JsString)
  | symbol
deriving DecidableEq

/-- What `Object.getOwnPropertyDescriptor` says of a property besides its value. -/
structure Descriptor where
  /-- The property has a getter or setter in place of a value. -/
  accessor : Bool
  enumerable : Bool
deriving DecidableEq

/-- The descriptor of a property made by assignment or by a literal. -/
def Descriptor.data : Descriptor := ⟨false, true⟩

/-- `"value" in descriptor && descriptor.enumerable`. -/
def Descriptor.isEnumerableData (d : Descriptor) : Bool := !d.accessor && d.enumerable

/-- A JavaScript value. The value stored under an accessor property stands for nothing. -/
inductive JsValue where
  | undefined
  | null
  | boolean (b : Bool)
  | number (n : JsNumber)
  | bigint
  | string (s : JsString)
  | symbol
  | function
  /-- A container that the walk over the value has met before. -/
  | again
  /-- An array: its elements, a hole having no descriptor, and the number of its own properties
  beside the elements and `length`. -/
  | array (proto : Proto) (elems : List (Option Descriptor × JsValue)) (extra : ℕ)
  /-- Any other object: its own properties in `Reflect.ownKeys` order. -/
  | object (proto : Proto) (props : List ((PropertyKey × Descriptor) × JsValue))

/-- An error of one of the native types, with its message. -/
inductive NativeError where
  | typeError (message : JsString)
  | rangeError (message : JsString)
deriving DecidableEq

section Throwing

variable {ε α β : Type}

/-- A sequence of two steps returns when both do. -/
theorem bind_eq_ok {x : Except ε α} {f : α → Except ε β} {r : β} :
    (x >>= f) = .ok r ↔ ∃ a, x = .ok a ∧ f a = .ok r := by
  cases x with
  | error e => simp [bind, Except.bind]
  | ok a => simp [bind, Except.bind]

/-- A step whose result is mapped returns when it does. -/
theorem map_eq_ok {x : Except ε α} {f : α → β} {r : β} :
    x.map f = .ok r ↔ ∃ a, x = .ok a ∧ f a = r := by
  cases x with
  | error e => simp [Except.map]
  | ok a => simp [Except.map]

/-- `if (c) throw e`. -/
def throwIf (c : Prop) [Decidable c] (e : ε) : Except ε Unit := if c then .error e else .ok ()

/-- Nothing is thrown when the condition fails. -/
@[simp]
theorem throwIf_eq_ok {c : Prop} [Decidable c] {e : ε} {u : Unit} :
    throwIf c e = .ok u ↔ ¬c := by
  by_cases h : c <;> simp [throwIf, h]

/-- A loop that throws returns when every turn does. -/
theorem forM_eq_ok {f : α → Except ε Unit} {l : List α} {u : Unit} :
    l.forM f = .ok u ↔ ∀ a ∈ l, f a = .ok () := by
  induction l with
  | nil => exact iff_of_true rfl (List.forall_mem_nil _)
  | cons a l ih =>
    rw [List.forall_mem_cons, ← ih]
    change (f a >>= fun _ => l.forM f) = .ok () ↔ _
    rw [bind_eq_ok]
    exact ⟨fun ⟨_, ha, hl⟩ => ⟨ha, hl⟩, fun ⟨ha, hl⟩ => ⟨(), ha, hl⟩⟩

end Throwing

section InOrder

variable {ε α β : Type} {R : α → β → Prop} {l : List α} {r : List β}

/-- A traversal returns when every element does, with the results in order. -/
theorem mapM_eq_ok {f : α → Except ε β} :
    l.mapM f = .ok r ↔ List.Forall₂ (fun a b => f a = .ok b) l r := by
  induction l generalizing r with
  | nil =>
    rw [List.mapM_nil, List.forall₂_nil_left_iff]
    exact ⟨fun h => (Except.ok.inj h).symm, fun h => congrArg Except.ok h.symm⟩
  | cons a l ih =>
    simp only [List.mapM_cons, bind_eq_ok, ih, List.forall₂_cons_left_iff]
    constructor
    · rintro ⟨b, hb, r', hr', h⟩
      exact ⟨b, r', hb, hr', (Except.ok.inj h).symm⟩
    · rintro ⟨b, r', hb, hr', rfl⟩
      exact ⟨b, hb, r', hr', rfl⟩

/-- An element of the one list has its element in the other. -/
theorem exists_of_forall₂_left (h : List.Forall₂ R l r) {a : α} (ha : a ∈ l) : ∃ b ∈ r, R a b := by
  induction h with
  | nil => cases ha
  | cons hab _ ih =>
    rcases List.mem_cons.mp ha with rfl | ha
    · exact ⟨_, List.mem_cons_self, hab⟩
    · obtain ⟨b, hb, hab⟩ := ih ha
      exact ⟨b, List.mem_cons_of_mem _ hb, hab⟩

/-- Elements that can each be related are related to a list. -/
theorem exists_forall₂ (h : ∀ a ∈ l, ∃ b, R a b) : ∃ r, List.Forall₂ R l r := by
  induction l with
  | nil => exact ⟨[], .nil⟩
  | cons a l ih =>
    obtain ⟨b, hb⟩ := h a List.mem_cons_self
    obtain ⟨r, hr⟩ := ih fun a' ha' => h a' (List.mem_cons_of_mem _ ha')
    exact ⟨b :: r, .cons hb hr⟩

end InOrder

namespace JsValue

/-- `typeof`. -/
def typeOf : JsValue → JsString
  | undefined => lit "undefined"
  | boolean _ => lit "boolean"
  | number _ => lit "number"
  | bigint => lit "bigint"
  | string _ => lit "string"
  | symbol => lit "symbol"
  | function => lit "function"
  | _ => lit "object"

/-- `value === null ? "null" : typeof value`. -/
def nullOrTypeOf : JsValue → JsString
  | null => lit "null"
  | v => v.typeOf

/-- Induction over a value: the elements or properties of a container come with the hypothesis. -/
@[elab_as_elim]
theorem ind {P : JsValue → Prop} (undefined : P .undefined) (null : P .null)
    (boolean : ∀ b, P (.boolean b)) (number : ∀ n, P (.number n)) (bigint : P .bigint)
    (string : ∀ s, P (.string s)) (symbol : P .symbol) (function : P .function) (again : P .again)
    (array : ∀ proto elems extra, (∀ e ∈ elems, P e.2) → P (.array proto elems extra))
    (object : ∀ proto props, (∀ p ∈ props, P p.2) → P (.object proto props)) (v : JsValue) : P v :=
  @JsValue.rec P (fun l => ∀ e ∈ l, P e.2) (fun l => ∀ p ∈ l, P p.2) (fun e => P e.2)
    (fun p => P p.2)
    undefined null boolean number bigint string symbol function again array object
    (by simp) (fun _ _ he hl => List.forall_mem_cons.mpr ⟨he, hl⟩)
    (by simp) (fun _ _ hp hl => List.forall_mem_cons.mpr ⟨hp, hl⟩)
    (fun _ _ hv => hv) (fun _ _ hv => hv) v

/-! ## JSON data -/

mutual

/-- The value `JSON.parse` returns for a JSON value: every object an ordinary one, every property
an enumerable data property. -/
def ofJson : Json → JsValue
  | .null => null
  | .bool b => boolean b
  | .num n => number n
  | .str s => string s
  | .arr l => array .arrayPrototype (ofElems l) 0
  | .obj m => object .objectPrototype (ofMembers m)

/-- The elements of an array of JSON values. -/
def ofElems : List Json → List (Option Descriptor × JsValue)
  | [] => []
  | v :: l => (some .data, ofJson v) :: ofElems l

/-- The properties of an object of JSON values. -/
def ofMembers : List (JsString × Json) → List ((PropertyKey × Descriptor) × JsValue)
  | [] => []
  | (k, v) :: m => ((.string k, .data), ofJson v) :: ofMembers m

end

/-- Elements become values one by one. -/
theorem ofElems_eq (l : List Json) : ofElems l = l.map fun v => (some .data, ofJson v) := by
  induction l with
  | nil => rfl
  | cons v l ih => rw [ofElems, ih, List.map_cons]

/-- Members become data properties one by one. -/
theorem ofMembers_eq (m : List (JsString × Json)) :
    ofMembers m = m.map fun p => ((.string p.1, .data), ofJson p.2) := by
  induction m with
  | nil => rfl
  | cons p m ih => rw [ofMembers, ih, List.map_cons]

/-! ## Ordinary containers -/

/-- The elements of an `Array.prototype` array that has no hole, no accessor, no non-enumerable
element and no property beside its elements. -/
def ordinaryElements? : JsValue → Option (List JsValue)
  | array .arrayPrototype elems 0 =>
      elems.mapM fun e => if e.1.any Descriptor.isEnumerableData then some e.2 else none
  | _ => none

/-- The properties of an `Object.prototype` object all of which are enumerable data properties
with string keys. -/
def ordinaryMembers? : JsValue → Option (List (JsString × JsValue))
  | object .objectPrototype props =>
      props.mapM fun p =>
        match p.1 with
        | (.string k, d) => if d.isEnumerableData then some (k, p.2) else none
        | (.symbol, _) => none
  | _ => none

/-- The own property of a key. -/
def property? (props : List ((PropertyKey × Descriptor) × JsValue)) (k : JsString) :
    Option (Descriptor × JsValue) :=
  (props.find? fun p => p.1.1 == .string k).map fun p => (p.1.2, p.2)

/-- `value[key]` for a key that no prototype carries. -/
def get (props : List ((PropertyKey × Descriptor) × JsValue)) (k : JsString) : JsValue :=
  ((property? props k).map Prod.snd).getD .undefined

/-- A JSON array is an ordinary array. -/
theorem ordinaryElements?_ofJson (l : List Json) :
    (ofJson (.arr l)).ordinaryElements? = some (l.map ofJson) := by
  rw [ofJson, ordinaryElements?, ofElems_eq, List.mapM_map]
  induction l with
  | nil => rfl
  | cons v l ih => simp_all [Descriptor.data, Descriptor.isEnumerableData]

/-- A JSON object is an ordinary object. -/
theorem ordinaryMembers?_ofJson (m : List (JsString × Json)) :
    (ofJson (.obj m)).ordinaryMembers? = some (m.map fun p => (p.1, ofJson p.2)) := by
  rw [ofJson, ordinaryMembers?, ofMembers_eq, List.mapM_map]
  induction m with
  | nil => rfl
  | cons p m ih => simp_all [Descriptor.data, Descriptor.isEnumerableData]

end JsValue

end Js
