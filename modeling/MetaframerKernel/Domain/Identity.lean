import MetaframerKernel.Js.Values

/-!
# Identity primitives

The identity value types of the domain ring. A value of one of these types carries the proof that
its string is canonical, so a function that takes a genuine instance takes the structure, and the
constructor of the source is the function that checks a raw value and builds it.

The SHA-256 digest is a parameter: a function from the hashed bytes to the hexadecimal text.

## Main definitions

* `TenantId`, `CorrelationId`, `CausationId`, `ActorId`, `Principal`, `IdempotencyKey`;
* `uuidForm`, `hex64Form`: the forms these and the persisted rows are written in.
-/

namespace MetaframerKernel

open Js

/-! ## Forms -/

/-- `[0-9]` -/
def digitClass (u : CodeUnit) : Bool := u.inRange '0' '9'

/-- `[0-9a-f]` -/
def hexClass (u : CodeUnit) : Bool := u.inRange '0' '9' || u.inRange 'a' 'f'

/-- The class of one character. -/
def charClass (c : Char) (u : CodeUnit) : Bool := u.isChar c

/-- `/^[0-9a-f]{8}-[0-9a-f]{4}-[0-9a-f]{4}-[0-9a-f]{4}-[0-9a-f]{12}$/` -/
def uuidForm : List (CodeUnit → Bool) :=
  List.replicate 8 hexClass ++ charClass '-' ::
    (List.replicate 4 hexClass ++ charClass '-' ::
      (List.replicate 4 hexClass ++ charClass '-' ::
        (List.replicate 4 hexClass ++ charClass '-' :: List.replicate 12 hexClass)))

/-- `/^[0-9a-f]{64}$/` -/
def hex64Form : List (CodeUnit → Bool) := List.replicate 64 hexClass

/-- `UUID_FORM.test(value)`. -/
def isUuid (s : JsString) : Bool := matchesForm uuidForm s

/-- `HEX64_FORM.test(value)`. -/
def isHex64 (s : JsString) : Bool := matchesForm hex64Form s

/-! ## UUID-form identities -/

/-- `NIL_UUID` -/
def nilUuid : JsString := lit "00000000-0000-0000-0000-000000000000"

/-- A canonical UUID that names an entity. -/
structure CanonicalUuid where
  value : JsString
  form : isUuid value = true
  notNil : value ≠ nilUuid
deriving DecidableEq

/-- `canonicalUuid`: check the raw value of an identity of the named type. -/
def canonicalUuid (value : JsValue) (type : JsString) : Except NativeError CanonicalUuid :=
  match value with
  | .string s =>
      -- the form says nothing of version or variant; only the nil UUID is refused besides
      if form : isUuid s = true then
        if notNil : s ≠ nilUuid then .ok ⟨s, form, notNil⟩
        else .error (.rangeError (type ++ lit " must not be the nil UUID"))
      else
        .error (.typeError
          (type ++ lit " needs a canonical lowercase hyphenated UUID in 8-4-4-4-12 form"))
  | v => .error (.typeError (type ++ lit " needs a primitive string, not " ++ v.nullOrTypeOf))

/-- The tenant something belongs to. -/
@[ext]
structure TenantId extends CanonicalUuid
deriving DecidableEq

/-- The trace a message belongs to. -/
structure CorrelationId extends CanonicalUuid
deriving DecidableEq

/-- The message that caused another. -/
structure CausationId extends CanonicalUuid
deriving DecidableEq

/-- `new TenantId(value)`. -/
def TenantId.ofRaw (value : JsValue) : Except NativeError TenantId :=
  (canonicalUuid value (lit "TenantId")).map TenantId.mk

/-- `new CorrelationId(value)`. -/
def CorrelationId.ofRaw (value : JsValue) : Except NativeError CorrelationId :=
  (canonicalUuid value (lit "CorrelationId")).map CorrelationId.mk

/-- `new CausationId(value)`. -/
def CausationId.ofRaw (value : JsValue) : Except NativeError CausationId :=
  (canonicalUuid value (lit "CausationId")).map CausationId.mk

/-- A checked identity is the string it was made from. -/
theorem canonicalUuid_eq_ok {value : JsValue} {type : JsString} {id : CanonicalUuid}
    (h : canonicalUuid value type = .ok id) : value = .string id.value := by
  unfold canonicalUuid at h
  split at h
  · split_ifs at h
    obtain rfl := Except.ok.inj h
    rfl
  · cases h

/-- A tenant id is made of a string, which is its value. -/
theorem TenantId.ofRaw_eq_ok {value : JsValue} {id : TenantId} (h : ofRaw value = .ok id) :
    value = .string id.value := by
  obtain ⟨uuid, huuid, rfl⟩ := map_eq_ok.mp h
  exact canonicalUuid_eq_ok huuid

/-- A correlation id is made of a string, which is its value. -/
theorem CorrelationId.ofRaw_eq_ok {value : JsValue} {id : CorrelationId}
    (h : ofRaw value = .ok id) :
    value = .string id.value := by
  obtain ⟨uuid, huuid, rfl⟩ := map_eq_ok.mp h
  exact canonicalUuid_eq_ok huuid

/-- A correlation id is known by its value. -/
theorem CorrelationId.value_inj {a b : CorrelationId} (h : a.value = b.value) : a = b := by
  obtain ⟨⟨value, form, notNil⟩⟩ := a
  obtain ⟨⟨value', form', notNil'⟩⟩ := b
  obtain rfl : value = value' := h
  rfl

/-- The string of an identity makes that identity again. -/
theorem canonicalUuid_string (id : CanonicalUuid) (type : JsString) :
    canonicalUuid (.string id.value) type = .ok id := by
  simp only [canonicalUuid]
  rw [dif_pos id.form, dif_pos id.notNil]

/-! ## Actors and principals -/

/-- `/^[\x21-\x7e]{1,128}$/` -/
def isActor (s : JsString) : Bool :=
  s.all (CodeUnit.inRange '\x21' '\x7e') && (1 ≤ s.length && s.length ≤ 128)

/-- An actor: opaque, visible ASCII. -/
structure ActorId where
  value : JsString
  form : isActor value = true
deriving DecidableEq

/-- `new ActorId(value)`. -/
def ActorId.ofRaw (value : JsValue) : Except NativeError ActorId :=
  match value with
  | .string s =>
      if form : isActor s = true then .ok ⟨s, form⟩
      else
        .error (.typeError
          (lit "ActorId needs 1 to 128 visible ASCII characters (0x21 through 0x7e)"))
  | v => .error (.typeError (lit "ActorId needs a primitive string, not " ++ v.nullOrTypeOf))

/-- An actor id is made of a string, which is its value. -/
theorem ActorId.ofRaw_eq_ok {value : JsValue} {id : ActorId} (h : ofRaw value = .ok id) :
    value = .string id.value := by
  unfold ofRaw at h
  split at h
  · split_ifs at h
    obtain rfl := Except.ok.inj h
    rfl
  · cases h

/-- An actor id is known by its value. -/
theorem ActorId.value_inj {a b : ActorId} (h : a.value = b.value) : a = b := by
  cases a
  cases b
  obtain rfl := h
  rfl

/-- A tenant and an actor, together. -/
structure Principal where
  tenantId : TenantId
  actorId : ActorId
deriving DecidableEq

/-! ## Idempotency keys -/

/-- A unit `String.prototype.trim` strips: white space and line terminators. -/
def isTrimmed (u : CodeUnit) : Bool :=
  [0x09, 0x0A, 0x0B, 0x0C, 0x0D, 0x20, 0xA0, 0x1680, 0x2028, 0x2029, 0x202F, 0x205F, 0x3000,
    0xFEFF].contains u.val || (0x2000 ≤ u.val && u.val ≤ 0x200A)

/-- `String.prototype.trim`. -/
def trim (s : JsString) : JsString :=
  ((s.dropWhile isTrimmed).reverse.dropWhile isTrimmed).reverse

/-- `/[\x00-\x1f\x7f]/` -/
def isControl (u : CodeUnit) : Bool := u.val ≤ 0x1F || u.val == 0x7F

/-- The fingerprint of a raw idempotency string, which is all an instance keeps. -/
structure IdempotencyKey where
  fingerprint : JsString
deriving DecidableEq

section Fingerprint

variable (sha256 : ByteArray → JsString)

/-- `fingerprintOf`: validate the raw input and hash it. -/
def fingerprintOf (raw : JsValue) : Except NativeError JsString :=
  match raw with
  | .string s =>
      if trim s ≠ s then
        .error (.rangeError
          (lit "IdempotencyKey raw input must carry no leading or trailing whitespace"))
      else if s.any isControl then
        .error (.rangeError
          (lit "IdempotencyKey raw input must carry no C0 or DEL control character"))
      -- the bound is on the bytes that are hashed, not on code units
      else if (utf8Bytes s).size < 1 ∨ 1024 < (utf8Bytes s).size then
        .error (.rangeError
          (lit "IdempotencyKey raw input must be 1 to 1024 UTF-8 bytes, and this one is " ++
            ofText (toString (utf8Bytes s).size).toList))
      else .ok (sha256 (utf8Bytes s))
  | v =>
      .error (.typeError (lit "IdempotencyKey needs a primitive string, not " ++ v.nullOrTypeOf))

/-- `new IdempotencyKey(raw)`. -/
def IdempotencyKey.ofRaw (raw : JsValue) : Except NativeError IdempotencyKey :=
  (fingerprintOf sha256 raw).map IdempotencyKey.mk

end Fingerprint

end MetaframerKernel
