import MetaframerKernel.Domain.Identity
import MetaframerKernel.Js.Printed

/-!
# Identity objects

The identity types as their methods meet them. A method may be called on any receiver and handed
any argument; what it asks of either is whether its prototype is exactly that of the type, and what
its private fields hold. An object made directly on the prototype passes the first question and has
no private field. It may have members of its own, which stand before those of the type, while an
instance is frozen and has none. A `Principal` may be built around such objects, since its
constructor asks the first question only.

## Main definitions

* `OwnMembers`: what an object made directly on a prototype answers;
* `Exact`: an object on the prototype of a type, with its private state or without;
* `TenantId.equals` and its siblings, `Principal.equals`, `IdempotencyKey.equals`.

## Main results

* `Exact.equalsBy_eq_ok`: an identity compares with a value that holds an identity and no other;
* `PrincipalState.equals_eq_ok`: how two principals compare;
* `IdempotencyKey.fingerprints_differ_iff`: which raw strings get fingerprints of their own.
-/

namespace MetaframerKernel

open Js

/-! ## Objects on a prototype -/

/-- What a method with the name `equals` answers: a boolean, or another value, which `&&` takes for
true or for false. -/
inductive Answer where
  | boolean (b : Bool)
  | other (truthy : Bool)

/-- How `&&` takes an answer. -/
def Answer.isTruthy : Answer → Bool
  | boolean b => b
  | other truthy => truthy

/-- What an object made directly on the prototype of a type answers when it is asked by these names,
in members of its own or in those of the type; `equals` may look at the private state of what it is
handed. A text it answers counts as `JSON.stringify` prints it. -/
structure OwnMembers (α : Type) where
  equals : Option α → Except NativeError Answer
  toText : Except NativeError Printed
  toJson : Except NativeError Printed
  fingerprint : Except NativeError Printed

/-- An object whose prototype is exactly that of a type: an instance with its private state, or an
object made directly on the prototype, which has none. -/
inductive Exact (α : Type) where
  | held (state : α)
  | hollow (members : OwnMembers α)

namespace Exact

variable {α β : Type}

/-- The private state of an object, when it has one. -/
def held? : Exact α → Option α
  | held state => some state
  | hollow _ => none

/-- Reading a private field that is not there throws. -/
def notDeclared (field : String) : NativeError :=
  .typeError (lit "Cannot read private member " ++ lit field ++
    lit " from an object whose class did not declare it")

/-- `object.#field` -/
def read (field : String) : Exact α → Except NativeError α
  | held state => .ok state
  | hollow _ => .error (notDeclared field)

/-- `Object.create(type.prototype)` for an identity type of that tag, where a string is rendered as
`notAnInstance(this)`. -/
def created (tag : String) : Exact α :=
  hollow {
    equals := fun _ => .error (notDeclared "#value")
    toText := .ok (Printed.str (lit "[object " ++ lit tag ++ lit "]"))
    toJson := .ok (Printed.str (lit "[object " ++ lit tag ++ lit "]"))
    fingerprint := .ok none }

/-- `object.toString()`: of an instance the canonical string. -/
def render (value : α → JsString) : Exact α → Except NativeError Printed
  | held state => .ok (Printed.str (value state))
  | hollow members => members.toText

/-- `theirs.equals(ours)`: an instance answers by the method of its type. -/
def callEquals (method : Option (Exact α) → Option (Exact α) → Except NativeError Bool) :
    Exact α → Exact α → Except NativeError Answer
  | held theirs, ours => (method (some (held theirs)) (some ours)).map .boolean
  | hollow members, ours => members.equals ours.held?

/-- `isExactly(this, type) && isExactly(other, type) && …`, where `none` stands for a value whose
prototype is another. -/
def guarded (no : β) (body : Exact α → Exact α → Except NativeError β) :
    Option (Exact α) → Option (Exact α) → Except NativeError β
  | some this, some other => body this other
  | _, _ => .ok no

/-- `other.#field === this.#field` -/
def equalsBy (field : String) (value : α → JsString) (this other : Exact α) :
    Except NativeError Bool := do
  let theirs ← other.read field
  let ours ← this.read field
  return value theirs == value ours

/-- Comparing two objects that hold an identity answers whether it is one. -/
@[simp]
theorem equalsBy_held (field : String) (value : α → JsString) (a b : α) :
    equalsBy field value (held a) (held b) = .ok (value b == value a) := rfl

/-- A comparison answers when both objects hold an identity, and throws otherwise. -/
theorem equalsBy_eq_ok {field : String} {value : α → JsString} {this other : Exact α} {r : Bool} :
    equalsBy field value this other = .ok r ↔
      ∃ a b, this = held a ∧ other = held b ∧ r = (value b == value a) := by
  cases this with
  | hollow members =>
    refine iff_of_false (fun h => ?_) (by rintro ⟨a, b, h, -⟩; cases h)
    cases other <;> cases h
  | held a =>
    cases other with
    | hollow members =>
      exact iff_of_false (fun h => by cases h) (by rintro ⟨a, b, -, h, -⟩; cases h)
    | held b =>
      rw [equalsBy_held, Except.ok.injEq]
      constructor
      · exact fun h => ⟨a, b, rfl, rfl, h.symm⟩
      · rintro ⟨a', b', ha, hb, rfl⟩
        obtain rfl := held.inj ha
        obtain rfl := held.inj hb
        rfl

end Exact

/-! ## The methods of the types -/

/-- `tenantId.toString()` -/
def TenantId.toString : Exact TenantId → Except NativeError Printed := Exact.render (·.value)

/-- `correlationId.toString()` -/
def CorrelationId.toString : Exact CorrelationId → Except NativeError Printed :=
  Exact.render (·.value)

/-- `causationId.toString()` -/
def CausationId.toString : Exact CausationId → Except NativeError Printed := Exact.render (·.value)

/-- `actorId.toString()` -/
def ActorId.toString : Exact ActorId → Except NativeError Printed := Exact.render (·.value)

/-- `TenantId.prototype.equals` -/
def TenantId.equals : Option (Exact TenantId) → Option (Exact TenantId) →
    Except NativeError Bool :=
  Exact.guarded false (Exact.equalsBy "#value" (·.value))

/-- `CorrelationId.prototype.equals` -/
def CorrelationId.equals : Option (Exact CorrelationId) → Option (Exact CorrelationId) →
    Except NativeError Bool :=
  Exact.guarded false (Exact.equalsBy "#value" (·.value))

/-- `CausationId.prototype.equals` -/
def CausationId.equals : Option (Exact CausationId) → Option (Exact CausationId) →
    Except NativeError Bool :=
  Exact.guarded false (Exact.equalsBy "#value" (·.value))

/-- `ActorId.prototype.equals` -/
def ActorId.equals : Option (Exact ActorId) → Option (Exact ActorId) → Except NativeError Bool :=
  Exact.guarded false (Exact.equalsBy "#value" (·.value))

/-- `IdempotencyKey.prototype.equals` -/
def IdempotencyKey.equals : Option (Exact IdempotencyKey) → Option (Exact IdempotencyKey) →
    Except NativeError Bool :=
  Exact.guarded false (Exact.equalsBy "#fingerprint" (·.fingerprint))

/-- `idempotencyKey.fingerprint` -/
def IdempotencyKey.fingerprintOfObject : Exact IdempotencyKey → Except NativeError Printed
  | .held key => .ok (Printed.str key.fingerprint)
  | .hollow members => members.fingerprint

/-! ## Principals -/

/-- What a `Principal` holds: objects its constructor found on the right prototypes. -/
@[ext]
structure PrincipalState where
  tenantId : Exact TenantId
  actorId : Exact ActorId

namespace PrincipalState

/-- `new Principal(tenantId, actorId)` -/
def construct (tenantId : Option (Exact TenantId)) (actorId : Option (Exact ActorId)) :
    Except NativeError PrincipalState :=
  match tenantId, actorId with
  | none, _ => .error (.typeError (lit "Principal needs a TenantId instance as its first argument"))
  | some _, none =>
      .error (.typeError (lit "Principal needs an ActorId instance as its second argument"))
  | some tenantId, some actorId => .ok ⟨tenantId, actorId⟩

/-- The keys of `toJSON()`. -/
def jsonKeys : List JsString := [lit "tenantId", lit "actorId"]

/-- The keys of a principal's text are in the order in which they are written. -/
theorem isFixed_jsonKeys : Json.IsFixed jsonKeys := by decide

/-- What `toJSON()` answers. -/
def toJson (p : PrincipalState) : Except NativeError Printed := do
  let tenantId ← TenantId.toString p.tenantId
  let actorId ← ActorId.toString p.actorId
  return Printed.object jsonKeys isFixed_jsonKeys [tenantId, actorId]

/-- The comparison of two objects on the prototype. -/
def equals (this other : Exact PrincipalState) : Except NativeError Answer := do
  let theirs ← other.read "#tenantId"
  let ours ← this.read "#tenantId"
  -- the tenant of the argument is asked first, and an answer that is not truthy ends the comparison
  let sameTenant ← theirs.tenantId.callEquals TenantId.equals ours.tenantId
  if sameTenant.isTruthy then theirs.actorId.callEquals ActorId.equals ours.actorId
  else return sameTenant

end PrincipalState

/-- The object of a genuine principal. -/
def Principal.state (p : Principal) : PrincipalState := ⟨.held p.tenantId, .held p.actorId⟩

/-- `Principal.prototype.equals` -/
def Principal.equals : Option (Exact PrincipalState) → Option (Exact PrincipalState) →
    Except NativeError Answer :=
  Exact.guarded (.boolean false) PrincipalState.equals

/-- `principal.toJSON()` -/
def Principal.toJson : Exact PrincipalState → Except NativeError Printed
  | .held p => p.toJson
  | .hollow members => members.toJson

/-! ## Fingerprints -/

/-- A string with each surrogate that is not half of a pair replaced by U+FFFD. -/
def toWellFormed (s : JsString) : JsString := ofText (toScalars s)

/-- The bytes of two strings are the same when they are the same up to lone surrogates. -/
theorem utf8Bytes_eq_iff {s t : JsString} :
    utf8Bytes s = utf8Bytes t ↔ toWellFormed s = toWellFormed t := by
  rw [utf8Bytes, utf8Bytes, toWellFormed, toWellFormed, ofText_injective.eq_iff]
  exact String.toByteArray_inj.trans String.ofList_inj

namespace IdempotencyKey

variable {sha256 : ByteArray → JsString}

/-- A string the constructor takes: trimmed, without controls, of 1 to 1024 bytes. -/
def IsAccepted (s : JsString) : Prop :=
  trim s = s ∧ s.any isControl = false ∧ 1 ≤ (utf8Bytes s).size ∧ (utf8Bytes s).size ≤ 1024

instance (s : JsString) : Decidable (IsAccepted s) := inferInstanceAs (Decidable (_ ∧ _))

/-- An accepted string makes a key, whatever the digest. -/
theorem ofRaw_of_isAccepted {s : JsString} (h : IsAccepted s) :
    ofRaw sha256 (.string s) = .ok ⟨sha256 (utf8Bytes s)⟩ := by
  obtain ⟨htrim, hcontrol, hmin, hmax⟩ := h
  have hsize : ¬((utf8Bytes s).size < 1 ∨ 1024 < (utf8Bytes s).size) := by omega
  simp only [ofRaw, fingerprintOf, htrim, hcontrol, hsize, ne_eq, not_true_eq_false, if_false,
    Bool.false_eq_true]
  rfl

/-- A key that is made carries the digest of the bytes of its string. -/
theorem fingerprint_of_ofRaw {s : JsString} {key : IdempotencyKey}
    (h : ofRaw sha256 (.string s) = .ok key) : key.fingerprint = sha256 (utf8Bytes s) := by
  obtain ⟨fingerprint, hfingerprint, rfl⟩ := map_eq_ok.mp h
  simp only [fingerprintOf] at hfingerprint
  split_ifs at hfingerprint
  exact (Except.ok.inj hfingerprint).symm

/-- Two raw strings get fingerprints of their own, and keys that are not equal, when they are still
different once their lone surrogates are replaced. -/
theorem fingerprints_differ_iff (hsha : Function.Injective sha256) {s t : JsString}
    {key key' : IdempotencyKey} (hs : ofRaw sha256 (.string s) = .ok key)
    (ht : ofRaw sha256 (.string t) = .ok key') :
    (key.fingerprint ≠ key'.fingerprint ∧
      equals (some (.held key)) (some (.held key')) = .ok false) ↔
      toWellFormed s ≠ toWellFormed t := by
  have hfingerprints : key.fingerprint = key'.fingerprint ↔ toWellFormed s = toWellFormed t := by
    rw [fingerprint_of_ofRaw hs, fingerprint_of_ofRaw ht, hsha.eq_iff, utf8Bytes_eq_iff]
  have hequals : equals (some (.held key)) (some (.held key')) =
      .ok (key'.fingerprint == key.fingerprint) := rfl
  rw [hequals, Except.ok.injEq, beq_eq_false_iff_ne, Ne, Ne, hfingerprints,
    eq_comm (a := key'.fingerprint), hfingerprints, and_self]

/-- A lone surrogate and the replacement character are two raw strings with one fingerprint. -/
theorem fingerprint_loneSurrogate : ([0xD800] : JsString) ≠ [0xFFFD] ∧
    ∀ sha256 : ByteArray → JsString, ∃ key key' : IdempotencyKey,
      ofRaw sha256 (.string [0xD800]) = .ok key ∧ ofRaw sha256 (.string [0xFFFD]) = .ok key' ∧
        key.fingerprint = key'.fingerprint ∧
        equals (some (.held key)) (some (.held key')) = .ok true := by
  refine ⟨by decide, fun sha256 => ⟨_, _, ofRaw_of_isAccepted (by decide),
    ofRaw_of_isAccepted (by decide), ?_⟩⟩
  have hbytes : utf8Bytes [0xD800] = utf8Bytes [0xFFFD] := rfl
  rw [hbytes]
  exact ⟨rfl, congrArg Except.ok (beq_self_eq_true (sha256 (utf8Bytes [0xFFFD])))⟩

/-- A digest that is SHA-256 on two sample strings and tells all others apart. -/
def sampleDigest (bytes : ByteArray) : JsString :=
  if bytes = utf8Bytes (lit "order-1") then
    lit "0bafe22156d2698c143b86040446d366ead863ba600d5c924f3d15c786ef4057"
  else if bytes = utf8Bytes (lit "order-2") then
    lit "3d5e3106cd72ba03fededf6dbb9fc3367edcebe453e90db236ea763aa228bee3"
  else 0x67 :: bytes.data.toList.map fun b => Fin.ofNat 65536 b.toNat

/-- The sample's digest has no collisions. -/
theorem injective_sampleDigest : Function.Injective sampleDigest := by
  have hhead {digest : JsString} (h : digest.head? ≠ some 0x67) (l : List CodeUnit) :
      digest ≠ 0x67 :: l := by
    rintro rfl
    exact h rfl
  intro a b h
  unfold sampleDigest at h
  split_ifs at h with ha hb hb' ha' hb hb' hb hb'
  · rw [ha, hb]
  · exact absurd h (by decide)
  · exact absurd h (hhead (by decide) _)
  · exact absurd h (by decide)
  · rw [ha', hb']
  · exact absurd h (hhead (by decide) _)
  · exact absurd h.symm (hhead (by decide) _)
  · exact absurd h.symm (hhead (by decide) _)
  · rw [List.cons.injEq] at h
    exact ByteArray.ext (Array.toList_inj.mp (unitOfByte_injective.list_map h.2))

theorem fingerprints_differ_iff_sample :
    sampleDigest (utf8Bytes (lit "order-1")) ≠ sampleDigest (utf8Bytes (lit "order-2")) := by
  have h := (fingerprints_differ_iff injective_sampleDigest
    (ofRaw_of_isAccepted (s := lit "order-1") (by decide))
    (ofRaw_of_isAccepted (s := lit "order-2") (by decide))).mpr (by decide)
  exact h.1

end IdempotencyKey

end MetaframerKernel
