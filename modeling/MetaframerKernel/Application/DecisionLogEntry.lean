import MetaframerKernel.Application.DescendingKeyOrder
import MetaframerKernel.Application.PolicyDecision

/-!
# Decision log entries

One append-only, hash-chained record of a policy decision. Every covered field is fixed at
construction into a JSON payload and `entryHash` is the SHA-256 of its text.

Instances are compared by value here: that a decision carries the very `CorrelationId` instance of
its request's action is read as carrying an equal one.

## Main definitions

* `DecisionLogEntry`, `DecisionLogEntry.ofRaw`;
* `DecisionLogEntry.plainPayloadOf`, `DecisionLogEntry.entryHash`.
-/

namespace MetaframerKernel

open Js

/-! ## Forms -/

/-- `[0-9A-HJKMNP-TV-Z]` -/
def crockfordClass (u : CodeUnit) : Bool :=
  digitClass u || u.inRange 'A' 'H' || u.inRange 'J' 'K' || u.inRange 'M' 'N' ||
    u.inRange 'P' 'T' || u.inRange 'V' 'Z'

/-- `/^[0-7][0-9A-HJKMNP-TV-Z]{25}$/` -/
def ulidForm : List (CodeUnit → Bool) :=
  CodeUnit.inRange '0' '7' :: List.replicate 25 crockfordClass

/-- `ULID_FORM.test(value)`. -/
def isUlid (s : JsString) : Bool := matchesForm ulidForm s

/-- `/^\d{4}-\d{2}-\d{2}T\d{2}:\d{2}:\d{2}\.\d{3}Z$/` -/
def timestampForm : List (CodeUnit → Bool) :=
  [digitClass, digitClass, digitClass, digitClass, charClass '-', digitClass, digitClass,
    charClass '-', digitClass, digitClass, charClass 'T', digitClass, digitClass, charClass ':',
    digitClass, digitClass, charClass ':', digitClass, digitClass, charClass '.', digitClass,
    digitClass, digitClass, charClass 'Z']

/-- `TS_FORM.test(value)`. -/
def isTimestampForm (s : JsString) : Bool := matchesForm timestampForm s

/-! ## The calendar -/

/-- `Number(digits)` of a capture group. -/
def capturedNumber (s : JsString) (start length : ℕ) : ℕ :=
  ((s.drop start).take length).foldl (fun n u => 10 * n + (u.val - 48)) 0

/-- `isLeapYear` -/
def isLeapYear (year : ℕ) : Bool := (year % 4 = 0 && year % 100 ≠ 0) || year % 400 = 0

/-- `lengthOfMonth` -/
def lengthOfMonth (year month : ℕ) : ℕ :=
  if month = 2 && isLeapYear year then 29
  else [31, 28, 31, 30, 31, 30, 31, 31, 30, 31, 30, 31].getD (month - 1) 0

/-- The checks of `timestampValue` and of `committedAtValue` past the type, in their order. -/
def timestampRefusal (what s : JsString) : Option NativeError :=
  let year := capturedNumber s 0 4
  let month := capturedNumber s 5 2
  let day := capturedNumber s 8 2
  let hour := capturedNumber s 11 2
  let minute := capturedNumber s 14 2
  let second := capturedNumber s 17 2
  if !isTimestampForm s then
    some (.typeError (what ++ lit " needs a canonical UTC millisecond ISO instant"))
  else if year < 1 then
    some (.rangeError (what ++ lit " year 0000 is below the floor"))
  else if month < 1 || 12 < month then
    some (.rangeError (what ++ lit " month must be 01 to 12"))
  else if day < 1 || lengthOfMonth year month < day then
    some (.rangeError (what ++ lit " day must name a real calendar day"))
  else if 23 < hour || 59 < minute || 59 < second then
    some (.rangeError (what ++ lit " time of day must be a real time"))
  else none

/-- An instant `timestampValue` admits, which is one `namesARealInstant` admits. -/
def isInstant (s : JsString) : Bool := (timestampRefusal [] s).isNone

/-- Whether an instant is refused does not depend on whose it is. -/
theorem timestampRefusal_eq_none {what s : JsString} :
    timestampRefusal what s = none ↔ isInstant s = true := by
  simp only [isInstant, timestampRefusal]
  split_ifs <;> simp

theorem isTimestampForm_of_isInstant {s : JsString} (h : isInstant s = true) :
    isTimestampForm s = true := by
  by_contra hform
  rw [Bool.not_eq_true] at hform
  simp [isInstant, timestampRefusal, hform] at h

/-! ## Entries -/

/-- A genuine decision log entry. -/
structure DecisionLogEntry where
  id : JsString
  request : PolicyRequest
  decision : PolicyDecision
  layerResolved : Option Layer
  ts : JsString
  prevHash : Option JsString
  idOk : isUlid id = true
  sameTrace : decision.traceId = request.action.correlationId
  /-- A default deny resolves to no layer, any other decision to one. -/
  layerOk : layerResolved = none ↔ decision.matchedPolicyId = none
  tsOk : isInstant ts = true
  prevHashOk : ∀ h ∈ prevHash, isHex64 h = true

/-- A default deny of the sample request, for examples. -/
def DecisionLogEntry.sample : DecisionLogEntry where
  id := lit "01ARZ3NDEKTSV4RRFFQ69G5FAV"
  request := .sample
  decision := {
    effect := .deny
    reason := lit "no grant"
    matchedPolicyId := none
    traceId := PolicyRequest.sample.action.correlationId
    reasonOk := by decide
    matchedOk := rfl }
  layerResolved := none
  ts := lit "2026-01-01T00:00:00.000Z"
  prevHash := none
  idOk := by decide
  sameTrace := rfl
  layerOk := by simp
  tsOk := by decide
  prevHashOk := by simp

namespace DecisionLogEntry

/-- `ulidValue` -/
def ulidValue (value : JsValue) : Except NativeError {s : JsString // isUlid s = true} :=
  match value with
  | .string s =>
      if h : isUlid s = true then .ok ⟨s, h⟩
      else .error (.typeError
        (lit "DecisionLogEntry id needs a canonical uppercase 26-character ULID"))
  | _ => .error (.typeError
      (lit "DecisionLogEntry id needs a canonical uppercase 26-character ULID"))

/-- `timestampValue` -/
def timestampValue (value : JsValue) : Except NativeError {s : JsString // isInstant s = true} :=
  match value with
  | .string s =>
      match h : timestampRefusal (lit "DecisionLogEntry ts") s with
      | some e => .error e
      | none => .ok ⟨s, timestampRefusal_eq_none.mp h⟩
  | _ => .error (.typeError (lit "DecisionLogEntry ts needs a primitive string"))

/-- `prevHashValue` -/
def prevHashValue (value : JsValue) :
    Except NativeError {s : Option JsString // ∀ h ∈ s, isHex64 h = true} :=
  match value with
  | .null => .ok ⟨none, by simp⟩
  | .string s =>
      if h : isHex64 s = true then .ok ⟨some s, by simpa using h⟩
      else .error (.typeError
        (lit "DecisionLogEntry prevHash needs null or a lowercase 64-hex string"))
  | _ => .error (.typeError
      (lit "DecisionLogEntry prevHash needs null or a lowercase 64-hex string"))

/-- `layerResolvedValue` -/
def layerResolvedValue (value : JsValue) (decision : PolicyDecision) : Except NativeError
    {l : Option Layer // l = none ↔ decision.matchedPolicyId = none} :=
  if hdefault : decision.matchedPolicyId = none then
    match value with
    | .null => .ok ⟨none, iff_of_true rfl hdefault⟩
    | _ => .error (.typeError
        (lit "DecisionLogEntry layerResolved must be null for a default-deny decision"))
  else
    match value with
    | .string s =>
        match Layer.ofName? s with
        | some l => .ok ⟨some l, iff_of_false (by simp) hdefault⟩
        | none => .error (.typeError (lit ("DecisionLogEntry layerResolved needs \"system\", " ++
            "\"platform\" or \"tenant\" when matchedPolicyId is non-null")))
    | _ => .error (.typeError (lit ("DecisionLogEntry layerResolved needs \"system\", " ++
        "\"platform\" or \"tenant\" when matchedPolicyId is non-null")))

/-- `new DecisionLogEntry({ id, request, decision, layerResolved, ts, prevHash })` on a genuine
request and decision. -/
def ofRaw (id : JsValue) (request : PolicyRequest) (decision : PolicyDecision)
    (layerResolved ts prevHash : JsValue) : Except NativeError DecisionLogEntry := do
  let id ← ulidValue id
  if hsame : decision.traceId = request.action.correlationId then
    let layer ← layerResolvedValue layerResolved decision
    let ts ← timestampValue ts
    let prevHash ← prevHashValue prevHash
    return ⟨id.1, request, decision, layer.1, ts.1, prevHash.1, id.2, hsame, layer.2, ts.2,
      prevHash.2⟩
  else
    throw (.typeError (lit ("DecisionLogEntry decision.traceId must be the exact same " ++
      "CorrelationId instance as request.action.correlationId")))

/-! ## The payload -/

/-- `descendingKeyOrder` of `decision-log-entry.mjs`. -/
def descendingKeyOrder : Json → Json := reorderDescending

/-- A string, or `null`. -/
def nullable : Option JsString → Json
  | none => .null
  | some s => .str s

/-- `plainPayloadOf` -/
def plainPayloadOf (e : DecisionLogEntry) : Json :=
  .obj
    [(lit "id", .str e.id),
      (lit "requestActor", .obj
        [(lit "tenantId", .str e.request.tenantId.value),
          (lit "actorId", .str e.request.actorId.value)]),
      (lit "requestAction", .str e.request.action.name),
      -- the order here is the order of the text that is hashed
      (lit "requestResource", descendingKeyOrder e.request.resource.toJson),
      (lit "requestContext", descendingKeyOrder e.request.context.toJson),
      (lit "decision", .str e.decision.effect.name),
      (lit "reason", .str e.decision.reason),
      (lit "matchedPolicyId", nullable e.decision.matchedPolicyId),
      (lit "layerResolved", nullable (e.layerResolved.map Layer.name)),
      (lit "traceId", .str e.decision.traceId.value),
      (lit "ts", .str e.ts),
      (lit "prevHash", nullable e.prevHash)]

section Hash

variable (sha256 : ByteArray → JsString)

/-- `sha256Of`: the digest of the JSON text of a payload. -/
def sha256Of (payload : Json) : JsString := sha256 (utf8Bytes (ofText payload.stringify))

/-- `entry.entryHash` -/
def entryHash (e : DecisionLogEntry) : JsString := sha256Of sha256 e.plainPayloadOf

/-- The hash of an entry is the digest of the text of its payload. -/
theorem entryHash_eq (e : DecisionLogEntry) :
    e.entryHash sha256 = sha256 (utf8Bytes (ofText e.plainPayloadOf.stringify)) := rfl

/-- Distinct texts have distinct hashes, when the digest tells all inputs apart. -/
theorem sha256Of_inj (hinj : Function.Injective sha256) {p q : Json} :
    sha256Of sha256 p = sha256Of sha256 q ↔ p.stringify = q.stringify := by
  rw [sha256Of, sha256Of, hinj.eq_iff, utf8Bytes_ofText_inj]

end Hash

end DecisionLogEntry

end MetaframerKernel
