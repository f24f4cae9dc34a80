import MetaframerKernel.Application.DecisionLogEntry

/-!
# Persisted decision log rows

`verifyPersistedDecisionLogRow` of the PostgreSQL decision log adapter: it checks the shape of a
row and of its payload, rebuilds the payload in the order that was hashed and compares the digest
with the row's `entry_hash`. A row and its payload are JSON values.

## Main definitions

* `verifyPersistedDecisionLogRow`;
* `AppendReceipt`: what it answers for a row it accepts.
-/

namespace MetaframerKernel.DecisionLogRow

open Js

/-- `DecisionLogIntegrityError`, by its message. -/
structure IntegrityError where
  message : JsString
deriving DecidableEq

/-- `demand` -/
def demand (condition : Bool) (message : JsString) : Except IntegrityError Unit :=
  throwIf (condition = false) ⟨message⟩

/-- `value[key]` of a JSON value; `none` is `undefined`. -/
def field (value : Json) (key : String) : Option Json := value.members.lookup (lit key)

/-- `isOrdinaryObject` on JSON data. -/
def isOrdinaryObject : Json → Bool
  | .obj _ => true
  | _ => false

/-- `keys.join(", ")` -/
def joinKeys (keys : List String) : JsString := lit (", ".intercalate keys)

/-- `exactKeys` -/
def exactKeys (value : Json) (keys : List String) (what : String) : Except IntegrityError Unit := do
  demand (isOrdinaryObject value) (lit what ++ lit " must be an ordinary object")
  let given := value.members.map Prod.fst
  demand (given.length == keys.length && keys.all fun k => given.contains (lit k))
    (lit what ++ lit " must carry exactly these keys: " ++ joinKeys keys)

section Shape

variable (what : String)

mutual

/-- `demandJsonShape`: the walk that refuses what JSON cannot hold. -/
def demandJsonShape : Json → Except IntegrityError Unit
  | .arr l => demandElementShapes l
  | .obj m => do
      demand (isOrdinaryObject (.obj m))
        (lit what ++ lit " must be a JSON-native primitive, null, array or ordinary object")
      demandMemberShapes m
  | _ => .ok ()

/-- The walk over the elements of an array. -/
def demandElementShapes : List Json → Except IntegrityError Unit
  | [] => .ok ()
  | v :: l => do
      demandJsonShape v
      demandElementShapes l

/-- The walk over the members of an object. -/
def demandMemberShapes : List (JsString × Json) → Except IntegrityError Unit
  | [] => .ok ()
  | (_, v) :: m => do
      demandJsonShape v
      demandMemberShapes m

end

end Shape

/-- `typeof value === "string" && form.test(value)`. -/
def isStringOf (form : JsString → Bool) : Option Json → Bool
  | some (.str s) => form s
  | _ => false

/-- `typeof value === "string"`. -/
def isString (value : Option Json) : Bool := isStringOf (fun _ => true) value

/-- `value === null || …` -/
def isNullOr (test : Option Json → Bool) (value : Option Json) : Bool :=
  match value with
  | some .null => true
  | v => test v

/-- `a === b` for strings and `null`. -/
def strictlyEqual : Option Json → Option Json → Bool
  | some (.str s), some (.str t) => s == t
  | some .null, some .null => true
  | _, _ => false

/-- `ROW_KEYS`, spelled out at the call. -/
def rowKeys : List String := ["id", "tenant_id", "entry_hash", "prev_hash", "payload"]

/-- `PAYLOAD_KEYS` -/
def payloadKeys : List String :=
  ["id", "requestActor", "requestAction", "requestResource", "requestContext", "decision", "reason",
    "matchedPolicyId", "layerResolved", "traceId", "ts", "prevHash"]

/-- `descendingKeyOrder` of `postgres-decision-log-adapter.mjs`. -/
def descendingKeyOrder : Json → Json := reorderDescending

/-- The value of a property that the checks have found present. -/
def present (value : Json) (key : String) : Json := (field value key).getD .null

/-- The payload rebuilt in the order that is hashed. -/
def canonicalPayload (payload : Json) : Json :=
  .obj
    [(lit "id", present payload "id"),
      (lit "requestActor", .obj
        [(lit "tenantId", present (present payload "requestActor") "tenantId"),
          (lit "actorId", present (present payload "requestActor") "actorId")]),
      (lit "requestAction", present payload "requestAction"),
      -- only the two nested values are put in order: the keys around them are written out
      (lit "requestResource", descendingKeyOrder (present payload "requestResource")),
      (lit "requestContext", descendingKeyOrder (present payload "requestContext")),
      (lit "decision", present payload "decision"),
      (lit "reason", present payload "reason"),
      (lit "matchedPolicyId", present payload "matchedPolicyId"),
      (lit "layerResolved", present payload "layerResolved"),
      (lit "traceId", present payload "traceId"),
      (lit "ts", present payload "ts"),
      (lit "prevHash", present payload "prevHash")]

/-- The frozen receipt of an accepted row. -/
structure AppendReceipt where
  entryId : JsString
  tenantId : JsString
  entryHash : JsString
  prevHash : Option JsString
deriving DecidableEq

/-- The string a property is, when it is one. -/
def asString : Option Json → Option JsString
  | some (.str s) => some s
  | _ => none

/-- The receipt of a row, read from its columns. -/
def receiptOf (row : Json) : AppendReceipt where
  entryId := (asString (field row "id")).getD []
  tenantId := (asString (field row "tenant_id")).getD []
  entryHash := (asString (field row "entry_hash")).getD []
  prevHash := asString (field row "prev_hash")

/-- The checks of the columns of a row. -/
def demandRow (row : Json) : Except IntegrityError Unit := do
  exactKeys row rowKeys "row"
  demand (isStringOf isUlid (field row "id")) (lit "row.id must be a canonical ULID")
  demand (isStringOf isUuid (field row "tenant_id")) (lit "row.tenant_id must be a canonical UUID")
  demand (isStringOf isHex64 (field row "entry_hash"))
    (lit "row.entry_hash must be a lowercase 64-hex string")
  demand (isNullOr (isStringOf isHex64) (field row "prev_hash"))
    (lit "row.prev_hash must be null or a lowercase 64-hex string")
  demandJsonShape "row.payload" (present row "payload")

/-- The checks of the fields of a payload. -/
def demandPayload (payload : Json) : Except IntegrityError Unit := do
  exactKeys payload payloadKeys "row.payload"
  demand (isStringOf isUlid (field payload "id")) (lit "row.payload.id must be a canonical ULID")
  -- an actor that is no object has none of the keys, and is refused here
  exactKeys (present payload "requestActor") ["tenantId", "actorId"] "row.payload.requestActor"
  demand (isStringOf isUuid (field (present payload "requestActor") "tenantId"))
    (lit "row.payload.requestActor.tenantId must be a canonical UUID")
  demand (isString (field (present payload "requestActor") "actorId"))
    (lit "row.payload.requestActor.actorId must be a string")
  demand (isString (field payload "requestAction"))
    (lit "row.payload.requestAction must be a string")
  demandJsonShape "row.payload.requestResource" (present payload "requestResource")
  demandJsonShape "row.payload.requestContext" (present payload "requestContext")
  demand (isString (field payload "decision")) (lit "row.payload.decision must be a string")
  demand (isString (field payload "reason")) (lit "row.payload.reason must be a string")
  -- a member that is missing is not null
  demand (isNullOr isString (field payload "matchedPolicyId"))
    (lit "row.payload.matchedPolicyId must be null or a string")
  demand (isNullOr isString (field payload "layerResolved"))
    (lit "row.payload.layerResolved must be null or a string")
  demand (isStringOf isUuid (field payload "traceId"))
    (lit "row.payload.traceId must be a canonical UUID")
  demand (isStringOf isTimestampForm (field payload "ts"))
    (lit "row.payload.ts must be a canonical UTC millisecond ISO instant")
  demand (isNullOr (isStringOf isHex64) (field payload "prevHash"))
    (lit "row.payload.prevHash must be null or a lowercase 64-hex string")

/-- The checks that the columns agree with the payload. -/
def demandBinding (row payload : Json) : Except IntegrityError Unit := do
  demand (strictlyEqual (field payload "id") (field row "id"))
    (lit "row.payload.id must bind to row.id")
  demand (strictlyEqual (field (present payload "requestActor") "tenantId")
    (field row "tenant_id")) (lit "row.payload.requestActor.tenantId must bind to row.tenant_id")
  demand (strictlyEqual (field payload "prevHash") (field row "prev_hash"))
    (lit "row.payload.prevHash must bind to row.prev_hash")

/-- `verifyPersistedDecisionLogRow` -/
def verifyPersistedDecisionLogRow (sha256 : ByteArray → JsString) (row : Json) :
    Except IntegrityError AppendReceipt := do
  demandRow row
  let payload := present row "payload"
  demandPayload payload
  demandBinding row payload
  let recomputed := DecisionLogEntry.sha256Of sha256 (canonicalPayload payload)
  demand (strictlyEqual (some (.str recomputed)) (field row "entry_hash"))
    (lit "recomputed hash does not match row.entry_hash")
  return receiptOf row

/-! ## What is accepted -/

/-- A demand is met when its condition holds. -/
@[simp]
theorem demand_eq_ok {condition : Bool} {message : JsString} {u : Unit} :
    demand condition message = .ok u ↔ condition = true := by
  rw [demand, throwIf_eq_ok, Bool.not_eq_false]

/-- The object has the listed keys and no others. -/
def HasExactly (value : Json) (keys : List String) : Prop :=
  value = .obj value.members ∧ value.members.length = keys.length ∧
    ∀ k ∈ keys, (field value k).isSome = true

/-- A value is found under the keys of the members. -/
theorem lookup_isSome_iff {k : JsString} {m : List (JsString × Json)} :
    (m.lookup k).isSome = true ↔ k ∈ m.map Prod.fst := by
  rw [← not_iff_not, Bool.not_eq_true, Option.isSome_eq_false_iff, Option.isNone_iff_eq_none,
    List.lookup_eq_none_iff]
  simp only [List.mem_map, not_exists, not_and, bne_iff_ne]
  exact forall₂_congr fun p _ => ne_comm

/-- An object passes when it has exactly the keys. -/
@[simp]
theorem exactKeys_eq_ok {value : Json} {keys : List String} {what : String} {u : Unit} :
    exactKeys value keys what = .ok u ↔ HasExactly value keys := by
  have hobject : isOrdinaryObject value = true ↔ value = .obj value.members := by
    cases value <;> simp [isOrdinaryObject, Json.members]
  simp only [exactKeys, bind_eq_ok, demand_eq_ok, hobject, Bool.and_eq_true, beq_iff_eq,
    List.length_map, List.all_eq_true, List.contains_iff_mem, HasExactly, field,
    lookup_isSome_iff, exists_const]

/-- The shape walk accepts every JSON value. -/
theorem demandJsonShape_eq_ok (what : String) (v : Json) : demandJsonShape what v = .ok () := by
  induction v using Json.ind with
  | arr l ih =>
    rw [demandJsonShape]
    induction l with
    | nil => rfl
    | cons v l ihl =>
      rw [List.forall_mem_cons] at ih
      rw [demandElementShapes, ih.1]
      exact ihl ih.2
  | obj m ih =>
    -- the members one after the other, each admitted by the induction hypothesis
    have hmembers : demandMemberShapes what m = .ok () := by
      induction m with
      | nil => rfl
      | cons p m ihm =>
        rw [List.forall_mem_cons] at ih
        rw [demandMemberShapes, ih.1]
        exact ihm ih.2
    rw [demandJsonShape, hmembers]
    rfl
  | _ => rfl

/-- A value passes as a string of the form. -/
theorem isStringOf_iff {form : JsString → Bool} {v : Option Json} :
    isStringOf form v = true ↔ ∃ s, v = some (.str s) ∧ form s = true := by
  unfold isStringOf
  split <;> simp_all

/-- A value passes as `null` or by the other check. -/
theorem isNullOr_iff {test : Option Json → Bool} {v : Option Json} :
    isNullOr test v = true ↔ v = some .null ∨ test v = true := by
  unfold isNullOr
  split <;> simp_all

/-- Values are strictly equal when both are `null` or one string. -/
theorem strictlyEqual_iff {v w : Option Json} : strictlyEqual v w = true ↔
    v = some .null ∧ w = some .null ∨ ∃ s, v = some (.str s) ∧ w = some (.str s) := by
  constructor
  · intro h
    unfold strictlyEqual at h
    split at h
    · exact Or.inr ⟨_, rfl, by rw [beq_iff_eq.mp h]⟩
    · exact Or.inl ⟨rfl, rfl⟩
    · cases h
  · rintro (⟨rfl, rfl⟩ | ⟨s, rfl, rfl⟩)
    · rfl
    · exact beq_self_eq_true s

/-- What the checks of a payload establish. -/
structure WellShaped (payload : Json) : Prop where
  keys : HasExactly payload payloadKeys
  actorKeys : HasExactly (present payload "requestActor") ["tenantId", "actorId"]
  id : isStringOf isUlid (field payload "id") = true
  tenantId : isStringOf isUuid (field (present payload "requestActor") "tenantId") = true
  actorId : isString (field (present payload "requestActor") "actorId") = true
  requestAction : isString (field payload "requestAction") = true
  decision : isString (field payload "decision") = true
  reason : isString (field payload "reason") = true
  matchedPolicyId : isNullOr isString (field payload "matchedPolicyId") = true
  layerResolved : isNullOr isString (field payload "layerResolved") = true
  traceId : isStringOf isUuid (field payload "traceId") = true
  ts : isStringOf isTimestampForm (field payload "ts") = true
  prevHash : isNullOr (isStringOf isHex64) (field payload "prevHash") = true

/-- The payloads that pass are the well-shaped ones. -/
theorem demandPayload_eq_ok {payload : Json} {u : Unit} :
    demandPayload payload = .ok u ↔ WellShaped payload := by
  simp only [demandPayload, bind_eq_ok, demand_eq_ok, exactKeys_eq_ok, demandJsonShape_eq_ok,
    exists_const, true_and]
  constructor
  · rintro ⟨keys, id, actorKeys, tenantId, actorId, action, decision, reason, matched, layer,
      trace, ts, prev⟩
    exact ⟨keys, actorKeys, id, tenantId, actorId, action, decision, reason, matched, layer,
      trace, ts, prev⟩
  · intro h
    exact ⟨h.keys, h.id, h.actorKeys, h.tenantId, h.actorId, h.requestAction, h.decision, h.reason,
      h.matchedPolicyId, h.layerResolved, h.traceId, h.ts, h.prevHash⟩

/-- What the checks of the columns establish. -/
structure WellShapedRow (row : Json) : Prop where
  keys : HasExactly row rowKeys
  id : isStringOf isUlid (field row "id") = true
  tenantId : isStringOf isUuid (field row "tenant_id") = true
  entryHash : isStringOf isHex64 (field row "entry_hash") = true
  prevHash : isNullOr (isStringOf isHex64) (field row "prev_hash") = true

/-- The columns of the row agree with its payload. -/
structure Bound (row payload : Json) : Prop where
  id : strictlyEqual (field payload "id") (field row "id") = true
  tenantId : strictlyEqual (field (present payload "requestActor") "tenantId")
    (field row "tenant_id") = true
  prevHash : strictlyEqual (field payload "prevHash") (field row "prev_hash") = true

/-- A row is accepted when its shape, its binding and its hash are right. -/
theorem verify_eq_ok_iff {sha256 : ByteArray → JsString} {row : Json} {receipt : AppendReceipt} :
    verifyPersistedDecisionLogRow sha256 row = .ok receipt ↔
      WellShapedRow row ∧ WellShaped (present row "payload") ∧ Bound row (present row "payload") ∧
        field row "entry_hash" = some (.str
          (DecisionLogEntry.sha256Of sha256 (canonicalPayload (present row "payload")))) ∧
        receipt = receiptOf row := by
  have hrow (u : Unit) : demandRow row = .ok u ↔ WellShapedRow row := by
    simp only [demandRow, bind_eq_ok, demand_eq_ok, exactKeys_eq_ok, demandJsonShape_eq_ok,
      exists_const, and_true]
    exact ⟨fun ⟨h₁, h₂, h₃, h₄, h₅⟩ => ⟨h₁, h₂, h₃, h₄, h₅⟩,
      fun h => ⟨h.keys, h.id, h.tenantId, h.entryHash, h.prevHash⟩⟩
  have hbound (u : Unit) : demandBinding row (present row "payload") = .ok u ↔
      Bound row (present row "payload") := by
    simp only [demandBinding, bind_eq_ok, demand_eq_ok, exists_const]
    exact ⟨fun ⟨h₁, h₂, h₃⟩ => ⟨h₁, h₂, h₃⟩, fun h => ⟨h.id, h.tenantId, h.prevHash⟩⟩
  have hhash (s : JsString) (v : Option Json) :
      strictlyEqual (some (.str s)) v = true ↔ v = some (.str s) := by
    rw [strictlyEqual_iff]
    simp
  -- the demands are made one after the other, and the receipt is returned last
  simp only [verifyPersistedDecisionLogRow, bind_eq_ok, hrow, demandPayload_eq_ok, hbound,
    demand_eq_ok, hhash, exists_const]
  exact and_congr_right fun _ => and_congr_right fun _ => and_congr_right fun _ =>
    and_congr_right fun _ => ⟨fun h => (Except.ok.inj h).symm, fun h => congrArg Except.ok h.symm⟩

/-! ## Values with exactly the listed keys -/

/-- A key that is not listed reads nothing. -/
theorem HasExactly.lookup_eq_none {value : Json} {keys : List String} (h : HasExactly value keys)
    (hkeys : (keys.map lit).Nodup) {k : JsString} (hk : k ∉ keys.map lit) :
    value.members.lookup k = none := by
  have hsubset : keys.map lit ⊆ value.members.map Prod.fst := by
    intro k hk
    obtain ⟨key, hkey, rfl⟩ := List.mem_map.mp hk
    exact lookup_isSome_iff.mp (h.2.2 key hkey)
  have hperm : (keys.map lit).Perm (value.members.map Prod.fst) :=
    (List.subperm_of_subset hkeys hsubset).perm_of_length_le (by simp [h.2.1])
  rw [← Option.isNone_iff_eq_none, ← Option.isSome_eq_false_iff, ← Bool.not_eq_true,
    lookup_isSome_iff]
  exact fun hmem => hk (hperm.symm.subset hmem)

/-- A relation between what two such values read holds of every key when it holds of the listed
keys. -/
theorem HasExactly.forall_lookup {v w : Json} {keys : List String} (hv : HasExactly v keys)
    (hw : HasExactly w keys) (hkeys : (keys.map lit).Nodup) {R : Option Json → Option Json → Prop}
    (hnone : R none none) (h : ∀ key ∈ keys, R (field v key) (field w key)) (k : JsString) :
    R (v.members.lookup k) (w.members.lookup k) := by
  by_cases hk : k ∈ keys.map lit
  · obtain ⟨key, hkey, rfl⟩ := List.mem_map.mp hk
    exact h key hkey
  · rw [hv.lookup_eq_none hkeys hk, hw.lookup_eq_none hkeys hk]
    exact hnone

/-- A listed key is present. -/
theorem HasExactly.field_eq {value : Json} {keys : List String} (h : HasExactly value keys)
    {key : String} (hkey : key ∈ keys) : field value key = some (present value key) := by
  obtain ⟨v, hv⟩ := Option.isSome_iff_exists.mp (h.2.2 key hkey)
  rw [present, hv, Option.getD_some]

/-- A well-formed value stays so with a key that is present. -/
theorem wellFormed_present {value : Json} (h : value.wellFormed = true) (key : String) :
    (present value key).wellFormed = true := by
  unfold present field
  cases hv : value.members.lookup (lit key) with
  | none => rfl
  | some v =>
    cases value with
    | obj m => exact wellFormed_of_lookup h hv
    | _ => cases hv

end MetaframerKernel.DecisionLogRow
