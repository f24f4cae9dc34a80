import MetaframerKernel.Adapters.PostgresWriteEnvelopeWrite
import MetaframerKernel.Application.CanonicalText
import MetaframerKernel.Domain.HexDigest

/-!
# The admission of a change set

The writer checks the prepared change set it is handed as it would check any value: prototypes,
keys, and the strings it is going to bind. The pipeline makes the change set out of a command it has
checked by rules of its own. Here the change set is the value the pipeline freezes, and the writer's
checks are applied to it.

## Main definitions

* `PreparedChangeSet.toValue`: the change set as the value the pipeline returns;
* `ChangeSetAdmission.checkPreparedChangeSet`, `ChangeSetAdmission.checkTenantId`: the checks, on
  any value.

## Main results

* `ChangeSetAdmission.admitted_iff`: what the writer asks of a change set of the pipeline;
* `CreateCustomerPipeline.run_admitted_iff`: the requests whose change set it accepts.
-/

namespace MetaframerKernel

open Js Async CreateCustomerPipeline

/-! ## The change set as a value -/

mutual

/-- The frozen value of canonical JSON data: every object has a null prototype. -/
def frozenValue : Json → JsValue
  | .null => .null
  | .bool b => .boolean b
  | .num n => .number n
  | .str s => .string s
  | .arr l => .array .arrayPrototype (frozenElems l) 0
  | .obj m => .object .null (frozenMembers m)

/-- The elements of a frozen array. -/
def frozenElems : List Json → List (Option Descriptor × JsValue)
  | [] => []
  | v :: l => (some .data, frozenValue v) :: frozenElems l

/-- The properties of a frozen object. -/
def frozenMembers : List (JsString × Json) → List ((PropertyKey × Descriptor) × JsValue)
  | [] => []
  | (k, v) :: m => ((.string k, .data), frozenValue v) :: frozenMembers m

end

namespace CreateCustomerPipeline

/-- The members of `intents.customer`. -/
def CustomerIntent.members (customer : CustomerIntent) : List (String × JsValue) :=
  [("type", .string customer.type),
    ("tenantId", .string customer.tenantId),
    ("payload", frozenValue customer.payload.toJson)]

/-- The members of `intents.audit`. -/
def AuditIntent.members (audit : AuditIntent) : List (String × JsValue) :=
  [("type", .string audit.type),
    ("tenantId", .string audit.tenantId),
    ("actorId", .string audit.actorId),
    ("action", .string audit.action),
    ("correlationId", .string audit.correlationId)]

/-- The members of `intents.transactionalOutbox`. -/
def OutboxIntent.members (outbox : OutboxIntent) : List (String × JsValue) :=
  [("type", .string outbox.type),
    ("eventName", .string outbox.eventName),
    ("tenantId", .string outbox.tenantId),
    ("correlationId", .string outbox.correlationId)]

/-- The members of `intents.idempotency`. -/
def IdempotencyIntent.members (idempotency : IdempotencyIntent) : List (String × JsValue) :=
  [("type", .string idempotency.type),
    ("tenantId", .string idempotency.tenantId),
    ("fingerprint", .string idempotency.fingerprint),
    ("correlationId", .string idempotency.correlationId)]

namespace PreparedChangeSet

/-- The members of `intents`. -/
def intents (changeSet : PreparedChangeSet) : List (String × JsValue) :=
  [("customer", literal changeSet.customer.members),
    ("audit", literal changeSet.audit.members),
    ("transactionalOutbox", literal changeSet.transactionalOutbox.members),
    ("idempotency", literal changeSet.idempotency.members)]

/-- The frozen object `preparedChangeSetOf` returns. -/
def toValue (changeSet : PreparedChangeSet) : JsValue :=
  literal [("persistenceState", .string (lit "pending")), ("intents", literal changeSet.intents)]

end PreparedChangeSet

end CreateCustomerPipeline

namespace ChangeSetAdmission

/-! ## The checks -/

/-- The own properties of an object. -/
abbrev Properties := List ((PropertyKey × Descriptor) × JsValue)

/-- `isOrdinaryObject(value)`, with the properties of the object. -/
def ordinaryObject? : JsValue → Option Properties
  | .object .objectPrototype props => some props
  | _ => none

/-- `isSafePlainRecord(value)`, with the properties of the object. -/
def safePlainRecord? : JsValue → Option Properties
  | .object .objectPrototype props => some props
  | .object .null props => some props
  | _ => none

/-- `typeof value === "string"`, with the string. -/
def string? : JsValue → Option JsString
  | .string s => some s
  | _ => none

/-- `typeof value === "string" && value`, with the string. -/
def nonEmptyString? (value : JsValue) : Option JsString := (string? value).filter (· ≠ [])

/-- `if (!test(value)) throw new TypeError(message)`. -/
def demand {α : Type} (found : Option α) (message : String) : Except NativeError α :=
  found.elim (.error (.typeError (lit message))) .ok

/-- `INTENT_KEYS` -/
def intentKeys : List String := ["customer", "audit", "transactionalOutbox", "idempotency"]

/-- `keys.length !== INTENT_KEYS.length || INTENT_KEYS.some((key) => !keys.includes(key))` -/
def hasIntentKeys (intents : Properties) : Bool :=
  let keys := intents.map fun p => p.1.1
  keys.length == intentKeys.length && intentKeys.all fun key => keys.contains (.string (lit key))

/-- The intents the writer destructures. -/
structure Intents where
  customer : Properties
  audit : Properties
  transactionalOutbox : Properties
  idempotency : Properties

/-- `checkPreparedChangeSet` -/
def checkPreparedChangeSet (preparedChangeSet : JsValue) : Except NativeError Intents := do
  let changeSet ← demand (ordinaryObject? preparedChangeSet)
    "PostgresCommitAdapter.commit needs an ordinary preparedChangeSet object"
  throwIf (string? (JsValue.get changeSet (lit "persistenceState")) ≠ some (lit "pending"))
    (.typeError (lit "PostgresCommitAdapter.commit needs persistenceState \"pending\""))
  let intents ← demand (ordinaryObject? (JsValue.get changeSet (lit "intents")))
    "preparedChangeSet.intents must be an ordinary object"
  -- the keys are compared as a set, symbols among them
  throwIf (hasIntentKeys intents = false) (.typeError
    (lit ("preparedChangeSet.intents must carry exactly these keys: " ++
      "customer, audit, transactionalOutbox, idempotency")))
  let intent (name : String) : Except NativeError Properties :=
    demand (ordinaryObject? (JsValue.get intents (lit name)))
      ("preparedChangeSet.intents." ++ name ++ " must be an ordinary object")
  -- each intent is looked at before any of its members is
  let customer ← intent "customer"
  let audit ← intent "audit"
  let transactionalOutbox ← intent "transactionalOutbox"
  let idempotency ← intent "idempotency"
  -- the strings that the statements of the transaction bind
  let _ ← demand
    ((safePlainRecord? (JsValue.get customer (lit "payload"))).bind fun payload =>
      nonEmptyString? (JsValue.get payload (lit "name")))
    "intents.customer.payload.name must be a non-empty string"
  let _ ← demand (nonEmptyString? (JsValue.get audit (lit "action")))
    "intents.audit.action must be a non-empty string"
  let _ ← demand (nonEmptyString? (JsValue.get transactionalOutbox (lit "eventName")))
    "intents.transactionalOutbox.eventName must be a non-empty string"
  let _ ← demand (nonEmptyString? (JsValue.get idempotency (lit "fingerprint")))
    "intents.idempotency.fingerprint must be a non-empty string"
  return ⟨customer, audit, transactionalOutbox, idempotency⟩

/-- `checkTenantId` -/
def checkTenantId (tenantId : JsValue) : Except NativeError JsString :=
  demand (nonEmptyString? tenantId) "commit needs an options.tenantId string"

/-- The writer accepts the value as a change set and the tenant of its customer intent. -/
def Admitted (preparedChangeSet : JsValue) : Prop :=
  ∃ intents, checkPreparedChangeSet preparedChangeSet = .ok intents ∧
    ∃ tenantId, checkTenantId (JsValue.get intents.customer (lit "tenantId")) = .ok tenantId

/-! ## What they ask of a change set of the pipeline -/

/-- A demand is met by what is found. -/
theorem demand_eq_ok {α : Type} {found : Option α} {message : String} {a : α} :
    demand found message = .ok a ↔ found = some a := by
  cases found <;> simp [demand]

/-- A string passes when it is not empty. -/
theorem nonEmptyString?_string {s t : JsString} :
    nonEmptyString? (.string s) = some t ↔ s ≠ [] ∧ t = s := by
  rw [nonEmptyString?, string?]
  by_cases hs : s = [] <;> simp [Option.filter, hs, eq_comm]

/-- A member of canonical data is a property of its frozen value. -/
theorem get_frozenMembers (m : List (JsString × Json)) (k : JsString) :
    JsValue.get (frozenMembers m) k = ((m.lookup k).map frozenValue).getD .undefined := by
  induction m with
  | nil => rfl
  | cons p m ih =>
    obtain ⟨key, v⟩ := p
    by_cases hk : key = k
    · subst hk
      simp [frozenMembers, JsValue.get, JsValue.property?]
    · have hne : (k == key) = false := beq_eq_false_iff_ne.mpr (Ne.symm hk)
      have hkey : (PropertyKey.string key == PropertyKey.string k) = false :=
        beq_eq_false_iff_ne.mpr fun h => hk (PropertyKey.string.inj h)
      rw [List.lookup_cons, hne, ← ih]
      simp [frozenMembers, JsValue.get, JsValue.property?, hkey]

/-- A frozen value passes when it is a string that is not empty. -/
theorem nonEmptyString?_frozenValue {v : Json} {s : JsString} :
    nonEmptyString? (frozenValue v) = some s ↔ v = .str s ∧ s ≠ [] := by
  cases v with
  | str t =>
    rw [frozenValue, nonEmptyString?_string, Json.str.injEq]
    constructor
    · rintro ⟨hne, rfl⟩
      exact ⟨rfl, hne⟩
    · rintro ⟨rfl, hne⟩
      exact ⟨hne, rfl⟩
  | _ => simp [frozenValue, nonEmptyString?, string?]

/-- A value that passes the check is made of ordinary objects, and its strings are there. -/
theorem checkPreparedChangeSet_eq_ok {v : JsValue} {r : Intents} :
    checkPreparedChangeSet v = .ok r ↔ ∃ changeSet intents,
      ordinaryObject? v = some changeSet ∧
      string? (JsValue.get changeSet (lit "persistenceState")) = some (lit "pending") ∧
      ordinaryObject? (JsValue.get changeSet (lit "intents")) = some intents ∧
      hasIntentKeys intents = true ∧
      ordinaryObject? (JsValue.get intents (lit "customer")) = some r.customer ∧
      ordinaryObject? (JsValue.get intents (lit "audit")) = some r.audit ∧
      ordinaryObject? (JsValue.get intents (lit "transactionalOutbox")) =
        some r.transactionalOutbox ∧
      ordinaryObject? (JsValue.get intents (lit "idempotency")) = some r.idempotency ∧
      (∃ payload name, safePlainRecord? (JsValue.get r.customer (lit "payload")) = some payload ∧
        nonEmptyString? (JsValue.get payload (lit "name")) = some name) ∧
      (∃ s, nonEmptyString? (JsValue.get r.audit (lit "action")) = some s) ∧
      (∃ s, nonEmptyString? (JsValue.get r.transactionalOutbox (lit "eventName")) = some s) ∧
      ∃ s, nonEmptyString? (JsValue.get r.idempotency (lit "fingerprint")) = some s := by
  -- the checks in their order, one existential for each value that is read
  simp only [checkPreparedChangeSet, bind_eq_ok, demand_eq_ok, throwIf_eq_ok,
    Option.bind_eq_some_iff,
    ne_eq, Decidable.not_not, Bool.not_eq_false]
  constructor
  · rintro ⟨changeSet, h1, -, h2, intents, h3, -, h4, c, hc, a, ha, o, ho, i, hi, name,
      ⟨payload, hp, hname⟩, s, hs, t, ht, u, hu, h⟩
    obtain rfl := Except.ok.inj h
    exact ⟨changeSet, intents, h1, h2, h3, h4, hc, ha, ho, hi, ⟨payload, name, hp, hname⟩, ⟨s, hs⟩,
      ⟨t, ht⟩, u, hu⟩
  · rintro ⟨changeSet, intents, h1, h2, h3, h4, hc, ha, ho, hi, ⟨payload, name, hp, hname⟩, ⟨s, hs⟩,
      ⟨t, ht⟩, u, hu⟩
    exact ⟨changeSet, h1, (), h2, intents, h3, (), h4, _, hc, _, ha, _, ho, _, hi, name,
      ⟨payload, hp, hname⟩, s, hs, t, ht, u, hu, rfl⟩

/-- The payload of a change set names the customer. -/
def NamesCustomer (payload : CanonicalObject) : Prop :=
  ∃ name, payload.members.lookup (lit "name") = some (.str name) ∧ name ≠ []

/-- The own properties of an object literal. -/
def properties (members : List (String × JsValue)) : Properties :=
  members.map fun p => ((.string (lit p.1), .data), p.2)

/-- An object literal has its properties. -/
theorem ordinaryObject?_literal (members : List (String × JsValue)) :
    ordinaryObject? (literal members) = some (properties members) := rfl

/-- A member is found under its key behind members of other keys. -/
theorem get_properties_cons (k k' : String) (v : JsValue) (members : List (String × JsValue)) :
    JsValue.get (properties ((k, v) :: members)) (lit k') =
      if lit k = lit k' then v else JsValue.get (properties members) (lit k') := by
  by_cases hk : lit k = lit k'
  · simp [JsValue.get, JsValue.property?, properties, hk]
  · simp [JsValue.get, JsValue.property?, properties, hk]

/-- The intents of a change set of the pipeline, as the writer destructures them. -/
def intentsOf (changeSet : PreparedChangeSet) : Intents :=
  ⟨properties changeSet.customer.members, properties changeSet.audit.members,
    properties changeSet.transactionalOutbox.members, properties changeSet.idempotency.members⟩

/-- A change set of the pipeline has the shape the writer asks for. -/
theorem checkPreparedChangeSet_toValue {changeSet : PreparedChangeSet} {r : Intents} :
    checkPreparedChangeSet changeSet.toValue = .ok r ↔ r = intentsOf changeSet ∧
      (∃ name, nonEmptyString? (JsValue.get (frozenMembers changeSet.customer.payload.members)
        (lit "name")) = some name) ∧
      (∃ s, nonEmptyString? (.string changeSet.audit.action) = some s) ∧
      (∃ s, nonEmptyString? (.string changeSet.transactionalOutbox.eventName) = some s) ∧
      ∃ s, nonEmptyString? (.string changeSet.idempotency.fingerprint) = some s := by
  -- the keys are those of the literal
  have hkeys : hasIntentKeys (properties changeSet.intents) = true := by
    have hmap : (properties changeSet.intents).map (fun p => p.1.1) =
        intentKeys.map fun key => .string (lit key) := rfl
    rw [hasIntentKeys, hmap]
    decide
  rw [PreparedChangeSet.intents] at hkeys
  have hpayload : safePlainRecord? (frozenValue changeSet.customer.payload.toJson) =
      some (frozenMembers changeSet.customer.payload.members) := rfl
  rw [checkPreparedChangeSet_eq_ok]
  simp +decide only [PreparedChangeSet.toValue, ordinaryObject?_literal, Option.some.injEq,
    exists_and_left, exists_eq_left', get_properties_cons, if_true, if_false, string?, true_and,
    hkeys, PreparedChangeSet.intents]
  constructor
  · rintro ⟨hc, ha, ho, hi, hstrings⟩
    obtain ⟨c, a, o, i⟩ := r
    subst hc ha ho hi
    refine ⟨rfl, ?_⟩
    simpa +decide only [CustomerIntent.members, AuditIntent.members, OutboxIntent.members,
      IdempotencyIntent.members, get_properties_cons, if_true, if_false, hpayload,
      Option.some.injEq, exists_and_left, exists_eq_left'] using hstrings
  · rintro ⟨rfl, hstrings⟩
    refine ⟨rfl, rfl, rfl, rfl, ?_⟩
    simpa +decide only [intentsOf, CustomerIntent.members, AuditIntent.members,
      OutboxIntent.members, IdempotencyIntent.members, get_properties_cons, if_true, if_false,
      hpayload, Option.some.injEq, exists_and_left, exists_eq_left'] using hstrings

/-- Of a change set of the pipeline the writer asks for the name of the customer, and for strings
that are not empty. -/
theorem admitted_iff (changeSet : PreparedChangeSet) :
    Admitted changeSet.toValue ↔ NamesCustomer changeSet.customer.payload ∧
      changeSet.audit.action ≠ [] ∧ changeSet.transactionalOutbox.eventName ≠ [] ∧
        changeSet.idempotency.fingerprint ≠ [] ∧ changeSet.customer.tenantId ≠ [] := by
  have hname : (∃ name, nonEmptyString? (JsValue.get
      (frozenMembers changeSet.customer.payload.members) (lit "name")) = some name) ↔
      NamesCustomer changeSet.customer.payload := by
    rw [get_frozenMembers]
    refine exists_congr fun name => ?_
    cases changeSet.customer.payload.members.lookup (lit "name") with
    | none => simp [nonEmptyString?, string?]
    | some v => simp [nonEmptyString?_frozenValue]
  have hstring {s : JsString} : (∃ t, nonEmptyString? (.string s) = some t) ↔ s ≠ [] := by
    simp only [nonEmptyString?_string]
    exact ⟨fun ⟨_, h, _⟩ => h, fun h => ⟨s, h, rfl⟩⟩
  have htenant : JsValue.get (intentsOf changeSet).customer (lit "tenantId") =
      .string changeSet.customer.tenantId := by
    simp +decide only [intentsOf, CustomerIntent.members, get_properties_cons, if_true, if_false]
  -- what is left are the four strings, and the tenant, which is read off the intents
  simp only [Admitted, checkPreparedChangeSet_toValue, checkTenantId, demand_eq_ok, hname, hstring]
  constructor
  · rintro ⟨_, ⟨rfl, hn, ha, he, hf⟩, ht⟩
    rw [htenant, hstring] at ht
    exact ⟨hn, ha, he, hf, ht⟩
  · rintro ⟨hn, ha, he, hf, ht⟩
    refine ⟨_, ⟨rfl, hn, ha, he, hf⟩, ?_⟩
    rw [htenant, hstring]
    exact ht

/-- The checks the write makes of a change set are these. -/
theorem admitted_iff_write_checks (changeSet : PreparedChangeSet) :
    Admitted changeSet.toValue ↔
      (∃ name, MetaframerKernel.checkPreparedChangeSet changeSet = .ok name) ∧
        MetaframerKernel.checkTenantId changeSet.customer.tenantId = .ok () := by
  -- both read the name of the customer from the payload
  have hname : NamesCustomer changeSet.customer.payload ↔
      ∃ name, customerName? changeSet.customer.payload = some name := by
    rw [NamesCustomer]
    unfold customerName?
    split
    · next u s h => simp [h]
    · next hnot =>
      refine iff_of_false ?_ (by simp)
      rintro ⟨name, hlookup, hne⟩
      obtain ⟨u, s, rfl⟩ := List.exists_cons_of_ne_nil hne
      exact hnot u s hlookup
  rw [admitted_iff, hname]
  simp only [MetaframerKernel.checkPreparedChangeSet, MetaframerKernel.checkTenantId,
    demandNonEmpty, bind_eq_ok, throwIf_eq_ok]
  constructor
  · rintro ⟨⟨name, hn⟩, ha, he, hf, ht⟩
    exact ⟨⟨name, name, by rw [hn]; rfl, (), ha, (), he, (), hf, rfl⟩, ht⟩
  · rintro ⟨⟨_, name, hn, _, ha, _, he, _, hf, -⟩, ht⟩
    refine ⟨?_, ha, he, hf, ht⟩
    cases hlookup : customerName? changeSet.customer.payload with
    | none =>
      rw [hlookup] at hn
      cases hn
    | some name' => exact ⟨name', rfl⟩

end ChangeSetAdmission

/-! ## The requests whose change set is accepted -/

/-- `payload.name` is a string that is not empty. -/
def NamesCustomer (payload : JsValue) : Prop :=
  ∃ proto props name, payload = .object proto props ∧
    JsValue.get props (lit "name") = .string name ∧ name ≠ []

section Payload

variable {nonFinite what : JsString}

/-- Strings are admitted as they are, and nothing else becomes one. -/
theorem canonicalValue_eq_str {v : JsValue} {depth : ℕ} {s : JsString} :
    canonicalValue nonFinite what v depth = .ok (.str s) ↔ v = .string s := by
  cases v with
  | number n =>
    rw [canonicalValue]
    split <;> simp
  | array proto elems extra =>
    simp only [canonicalValue, bind_eq_ok, reduceCtorEq, iff_false]
    rintro ⟨_, -, _, -, _, -, _, -, l, -, h⟩
    cases h
  | object proto props =>
    simp only [canonicalValue, bind_eq_ok, reduceCtorEq, iff_false]
    rintro ⟨_, -, _, -, _, -, m, -, h⟩
    cases h
  | again => simp [canonicalValue, bind_eq_ok]
  | _ => simp [canonicalValue]

/-- The result of a key is that of the value read under it. -/
theorem lookup_canonicalMembers {depth : ℕ} {props : List ((PropertyKey × Descriptor) × JsValue)}
    {k s : JsString} :
    (canonicalMembers nonFinite what props depth).lookup k = some (.ok (.str s)) ↔
      JsValue.get props k = .string s := by
  induction props with
  | nil => simp [canonicalMembers, JsValue.get, JsValue.property?]
  | cons p props ih =>
    obtain ⟨⟨key, d⟩, v⟩ := p
    cases key with
    | symbol =>
      have hget : JsValue.get (((.symbol, d), v) :: props) k = JsValue.get props k := by
        simp [JsValue.get, JsValue.property?]
      rw [canonicalMembers, hget]
      exact ih
    | string k' =>
      rw [canonicalMembers]
      -- a member under another key is passed over on both sides
      by_cases hk : k' = k
      · subst hk
        have hget : JsValue.get (((.string k', d), v) :: props) k' = v := by
          simp [JsValue.get, JsValue.property?]
        rw [hget, List.lookup_cons, beq_self_eq_true, Option.some.injEq]
        exact canonicalValue_eq_str
      · have hget : JsValue.get (((.string k', d), v) :: props) k = JsValue.get props k := by
          simp [JsValue.get, JsValue.property?, hk]
        rw [hget, List.lookup_cons, beq_eq_false_iff_ne.mpr (Ne.symm hk)]
        exact ih

/-- A string is found in the canonical object where it is read from the payload. -/
theorem lookup_eq_str_of_canonicalValue {proto : Proto}
    {props : List ((PropertyKey × Descriptor) × JsValue)} {depth : ℕ}
    {members : List (JsString × Json)}
    (h : canonicalValue nonFinite what (.object proto props) depth = .ok (.obj members))
    {k s : JsString} :
    members.lookup k = some (.str s) ↔ JsValue.get props k = .string s := by
  simp only [canonicalValue, bind_eq_ok] at h
  obtain ⟨_, -, _, -, _, -, m, hm, hr⟩ := h
  obtain rfl := Json.obj.inj (Except.ok.inj hr)
  -- neither the sort nor the assignments move a member in front of another of its key
  have hresults := lookup_sortMembers (canonicalMembers nonFinite what props (depth + 1)) k
  rw [collect_eq_ok hm] at hresults
  have hmap : (m.map fun p => (p.1, (.ok p.2 : Except NativeError Json))).lookup k =
      (m.lookup k).map .ok := lookup_map _ k m
  rw [hmap] at hresults
  have hread : (canonicalMembers nonFinite what props (depth + 1)).lookup k = some (.ok (.str s)) ↔
      JsValue.get props k = .string s := lookup_canonicalMembers
  rw [lookup_firstMembers, ← hread, ← hresults]
  simp

/-- The canonical payload names the customer when the payload does. -/
theorem namesCustomer_iff {payload : JsValue} {o : CanonicalObject}
    (h : canonicalRoot nonFinite what payload = .ok o) :
    ChangeSetAdmission.NamesCustomer o ↔ NamesCustomer payload := by
  obtain ⟨⟨proto, props, rfl⟩, hvalue⟩ := canonicalRoot_map_eq_ok.mp
    (show (canonicalRoot nonFinite what payload).map CanonicalObject.toJson =
      .ok o.toJson by rw [h]; rfl)
  have hlookup (name : JsString) : o.members.lookup (lit "name") = some (.str name) ↔
      JsValue.get props (lit "name") = .string name := lookup_eq_str_of_canonicalValue hvalue
  constructor
  · rintro ⟨name, hname, hne⟩
    exact ⟨proto, props, name, rfl, (hlookup name).mp hname, hne⟩
  · rintro ⟨proto', props', name, hpayload, hname, hne⟩
    obtain ⟨rfl, rfl⟩ := JsValue.object.inj hpayload
    exact ⟨name, (hlookup name).mpr hname, hne⟩

end Payload

namespace CreateCustomerPipeline

variable {sha256 : ByteArray → JsString}

/-- The shape check hands on the payload. -/
theorem payload_of_shapeCheck {actionSpec : ActionSpec} {shaped : Shaped}
    (h : shapeCheck sha256 actionSpec = .ok shaped) : shaped.payload = actionSpec.payload := by
  simp only [shapeCheck, bind_eq_ok] at h
  obtain ⟨_, -, _, -, _, -, _, -, h⟩ := h
  obtain rfl := Except.ok.inj h
  rfl

/-- The payload of the command is the canonical payload. -/
theorem payload_of_commandOf {principal : Principal} {correlationId : CorrelationId}
    {idempotencyKey : IdempotencyKey} {payload : JsValue} {command : Command}
    (h : commandOf principal correlationId idempotencyKey payload = .ok command) :
    actionPayload (lit "a Command payload") payload = .ok command.payload := by
  simp only [commandOf, Command.ofRaw, bind_eq_ok] at h
  obtain ⟨_, -, _, -, o, ho, h⟩ := h
  obtain rfl := Except.ok.inj h
  exact ho

/-- The change set of an allowed request is accepted when the request names a customer. -/
theorem Prepared.admitted_iff (hsha : ∀ bytes, isHex64 (sha256 bytes) = true)
    {actionSpec : ActionSpec} {requestId : JsString} {changeSet : PreparedChangeSet}
    (h : Prepared sha256 actionSpec requestId changeSet) :
    ChangeSetAdmission.Admitted changeSet.toValue ↔ NamesCustomer actionSpec.payload := by
  obtain ⟨command, shaped, hshape, hcommand, rfl, -⟩ := h
  -- a digest has sixty-four letters
  have hkey : (preparedChangeSetOf command).idempotency.fingerprint ≠ [] := by
    obtain ⟨-, -, -, hraw⟩ := shapeCheck_eq_ok hshape
    obtain ⟨fingerprint, hfingerprint, hmk⟩ := map_eq_ok.mp hraw
    have hcarried : command.idempotencyKey.fingerprint = fingerprint := by
      rw [(commandOf_eq_ok hcommand).2.2, ← hmk]
    obtain ⟨bytes, rfl⟩ : ∃ bytes, fingerprint = sha256 bytes := by
      unfold fingerprintOf at hfingerprint
      split at hfingerprint
      · split_ifs at hfingerprint
        exact ⟨_, (Except.ok.inj hfingerprint).symm⟩
      · cases hfingerprint
    intro hempty
    have hlength := length_of_matchesForm (hsha bytes)
    rw [← hcarried, show command.idempotencyKey.fingerprint = [] from hempty] at hlength
    exact absurd hlength (by decide)
  have htenant : (preparedChangeSetOf command).customer.tenantId ≠ [] := by
    intro hempty
    have hlength := length_of_matchesForm command.principal.tenantId.form
    rw [show command.principal.tenantId.value = [] from hempty] at hlength
    exact absurd hlength (by decide)
  have hpayload := payload_of_commandOf hcommand
  rw [payload_of_shapeCheck hshape] at hpayload
  rw [ChangeSetAdmission.admitted_iff, ← namesCustomer_iff hpayload]
  have haction : lit "customer.create" ≠ [] := by decide
  have hevent : lit "customer.created" ≠ [] := by decide
  exact ⟨And.left, fun hname => ⟨hname, haction, hevent, hkey, htenant⟩⟩

/-- Whatever the collaborators answer, the change set of an allowed request is accepted by the
writer exactly when the payload of the request has a name that is a string and not empty. -/
theorem run_admitted_iff {σ : Type} (hsha : ∀ bytes, isHex64 (sha256 bytes) = true)
    (ports : Ports) {actionSpec : ActionSpec} (outside : Outside kernel σ) (s : σ)
    {requestId : JsString} {changeSet : PreparedChangeSet}
    (h : (Async.run outside (run sha256 ports actionSpec) s).outcome =
      .ok (.allowCommit requestId changeSet)) :
    ChangeSetAdmission.Admitted changeSet.toValue ↔ NamesCustomer actionSpec.payload :=
  ((prepared_of_run actionSpec []).run outside s requestId changeSet h).admitted_iff hsha

/-! ### Requests of the sample principal -/

/-- A decision point that allows every request, and no witness of the guards, for examples. -/
def allowingPorts : Ports where
  decide request := .settled (.ok {
    effect := .allow
    reason := lit "granted"
    matchedPolicyId := some (lit "customer.grant")
    traceId := request.action.correlationId
    reasonOk := by decide
    matchedOk := show isPolicyId (lit "customer.grant") = true by decide })
  auditIdentityGuard := none

/-- The sample principal, and invariants that hold, for examples. -/
def allowingOutside : Outside kernel Unit := fun c u =>
  match c with
  | .current => (.ok (some PolicyRequest.sample.action.principal), u)
  | .evaluateInvariants _ => (.ok (.truthy (.boolean true)), u)
  | _ => (.error (.native (.typeError (lit "not called"))), u)

/-- The request of the sample principal, with that payload. -/
def sampleSpec (payload : JsValue) : ActionSpec where
  requestId := .string PolicyRequest.sample.action.correlationId.value
  actorId := .string PolicyRequest.sample.action.principal.actorId.value
  tenantId := .string PolicyRequest.sample.action.principal.tenantId.value
  payload := payload
  idempotencyKey := .string (lit "order-1")

/-- `outcome === "ALLOW_COMMIT"` -/
def isAllowCommit : Except Thrown Outcome → Bool
  | .ok (.allowCommit _ _) => true
  | _ => false

/-- An outcome that allows the commit hands on a change set. -/
theorem eq_allowCommit {outcome : Except Thrown Outcome} (h : isAllowCommit outcome = true) :
    ∃ requestId changeSet, outcome = .ok (.allowCommit requestId changeSet) := by
  unfold isAllowCommit at h
  split at h
  · exact ⟨_, _, rfl⟩
  · cases h

/-- A payload without any member. -/
def emptyPayload : JsValue := literal []

/-- `{ name: "Ada" }` -/
def adaPayload : JsValue := literal [("name", .string (lit "Ada"))]

/-- A request without a name is allowed, and the writer refuses its change set. -/
theorem run_not_admitted : ∃ requestId changeSet,
    (Async.run allowingOutside (run sha256Hex allowingPorts (sampleSpec emptyPayload)) ()).outcome =
      .ok (.allowCommit requestId changeSet) ∧
    ¬ChangeSetAdmission.Admitted changeSet.toValue := by
  obtain ⟨requestId, changeSet, h⟩ := eq_allowCommit (show isAllowCommit
    (Async.run allowingOutside (run sha256Hex allowingPorts (sampleSpec emptyPayload)) ()).outcome =
      true by decide +kernel)
  refine ⟨requestId, changeSet, h, ?_⟩
  have hprepared := (prepared_of_run (sampleSpec emptyPayload) []).run allowingOutside () requestId
    changeSet h
  rw [hprepared.admitted_iff isHex64_sha256Hex]
  rintro ⟨proto, props, name, hpayload, hname, -⟩
  obtain ⟨-, rfl⟩ := JsValue.object.inj hpayload
  cases hname

theorem run_admitted_iff_sample : ∃ requestId changeSet,
    (Async.run allowingOutside (run sha256Hex allowingPorts (sampleSpec adaPayload)) ()).outcome =
      .ok (.allowCommit requestId changeSet) ∧
    ChangeSetAdmission.Admitted changeSet.toValue := by
  obtain ⟨requestId, changeSet, h⟩ := eq_allowCommit (show isAllowCommit
    (Async.run allowingOutside (run sha256Hex allowingPorts (sampleSpec adaPayload)) ()).outcome =
      true by decide +kernel)
  refine ⟨requestId, changeSet, h, ?_⟩
  exact (run_admitted_iff isHex64_sha256Hex allowingPorts allowingOutside () h).mpr
    ⟨_, _, lit "Ada", rfl, rfl, by decide⟩

end CreateCustomerPipeline

end MetaframerKernel
