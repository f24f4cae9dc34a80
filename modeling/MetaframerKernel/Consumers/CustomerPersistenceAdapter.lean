import MetaframerKernel.Async.Answers
import MetaframerKernel.Consumers.CustomerDataCutover
import MetaframerKernel.Consumers.CustomerRecordsSchema
import MetaframerKernel.Stores.Sessions

/-!
# The customer persistence adapter

What the application writer of the cutover does on its client: the records adapter inserts the
canonical record and reads it back, and the persistence adapter adds the audit row and the outbox
row. Checks are made before the first statement and again on the row that comes back.

## Main definitions

* `recordsInsert`, `persistenceInsert`: the two adapters;
* `persistenceAdapter`: what the cutover calls, with the parity options it makes;
* `FailsAfter`, `RunsThrough`: the statements of an insert that fails at one of its steps, with
  the error of that step, and of one that does not.

## Main results

* `settles_insertTransaction`: a transaction fails at one of its steps or runs through;
* `settles_insert`: an insert that fails rolls back, and any insert returns its client.
-/

namespace MetaframerKernel.CustomerDataCutover

open Js Async Program CustomerRecordsSchema

/-! ## Options -/

/-- What the program asks of `Date`. -/
structure Dates where
  /-- `Date.parse` reads the text. -/
  parses : JsString → Bool
  /-- `value.toISOString()`, for a value that is a `Date`. -/
  isoText : JsValue → Option (Except NativeError JsString)

/-- `value?.key` -/
def property (value : JsValue) (key : String) : JsValue :=
  match value with
  | .object _ props => JsValue.get props (lit key)
  | _ => .undefined

/-- `value ?? null` -/
def orNull : JsValue → JsValue
  | .undefined => .null
  | value => value

/-- `typeof value === "object" && value !== null` -/
def isTypeofObject : JsValue → Bool
  | .object _ _ | .array _ _ _ | .again => true
  | _ => false

/-- `typeof value === "string" && value !== ""` -/
def isNonEmptyString : JsValue → Bool
  | .string s => s != []
  | _ => false

/-- The value is this string. -/
def isString (value : JsValue) (s : JsString) : Bool :=
  match value with
  | .string t => t == s
  | _ => false

/-- An option is an object that carries non-empty strings. -/
def checkOption (fields : List String) (notObject missing : String) (option : JsValue) :
    Except NativeError Unit := do
  throwIf (isTypeofObject option = false) (.typeError (lit notObject))
  throwIf (fields.all (fun field => isNonEmptyString (property option field)) = false)
    (.typeError (lit missing))

/-- `checkAudit` -/
def checkAudit : JsValue → Except NativeError Unit :=
  checkOption ["action", "correlationId"] "options.audit must be an object"
    "options.audit must carry non-empty action and correlationId"

/-- `checkOutbox` -/
def checkOutbox : JsValue → Except NativeError Unit :=
  checkOption ["eventName", "correlationId"] "options.transactionalOutbox must be an object"
    "options.transactionalOutbox must carry non-empty eventName and correlationId"

/-- `checkIdempotency` -/
def checkIdempotency : JsValue → Except NativeError Unit :=
  checkOption ["fingerprint"] "options.idempotency must be an object"
    "options.idempotency must carry a non-empty fingerprint"

/-- The tenant of the options, which is that of the record. -/
def checkTenant (record options : JsValue) : Except NativeError JsString :=
  let refused : NativeError := .typeError
    (lit "options.tenantId must be a non-empty string matching the record's tenant_id")
  match property options "tenantId" with
  | .string tenantId =>
      if tenantId = [] ∨ isString (property record "tenant_id") tenantId = false then .error refused
      else .ok tenantId
  | _ => .error refused

/-- The checks of the persistence adapter, with the tenant. -/
def checkOptions (record options : JsValue) : Except NativeError JsString := do
  let tenantId ← checkTenant record options
  checkAudit (property options "audit")
  checkOutbox (property options "transactionalOutbox")
  checkIdempotency (property options "idempotency")
  return tenantId

/-- The own enumerable members of a value that is spread. A key is read once, where it is first. -/
def spread : JsValue → List ((PropertyKey × Descriptor) × JsValue)
  | .object _ props => props.filter fun p =>
      match p.1.1 with
      | .string k => (JsValue.property? props k).any fun q => q.1.enumerable
      | .symbol => p.1.2.enumerable
  | _ => []

/-- The members of an object literal after those that are spread into it. -/
def overridden (props : List ((PropertyKey × Descriptor) × JsValue))
    (members : List (JsString × JsValue)) : List ((PropertyKey × Descriptor) × JsValue) :=
  props.filter (fun p => !(members.map fun m => PropertyKey.string m.1).contains p.1.1) ++
    dataProperties members

/-- An object literal. -/
def literal (members : List (String × JsValue)) : JsValue :=
  .object .objectPrototype (dataProperties (members.map fun m => (lit m.1, m.2)))

/-- `value === undefined` -/
def isUndefined : JsValue → Bool
  | .undefined => true
  | _ => false

/-- `parityOptions` -/
def parityOptions (record insertOptions : JsValue) : JsValue :=
  let recordId := property record "id"
  -- the defaults are used where none of the three is given
  if isUndefined (property insertOptions "audit") ∧
      isUndefined (property insertOptions "transactionalOutbox") ∧
      isUndefined (property insertOptions "idempotency") then
    .object .objectPrototype (overridden (spread insertOptions)
      [(lit "audit", literal [("action", .string (lit "customer.created")),
          ("type", .string (lit "audit.append")), ("correlationId", recordId)]),
        (lit "transactionalOutbox", literal [("eventName", .string (lit "customer.created")),
          ("correlationId", recordId)]),
        (lit "idempotency", literal [("fingerprint", recordId)])])
  else .object .objectPrototype (spread insertOptions)

/-! ## Statements -/

/-- `INSERT_SQL` -/
def insertRecordSql : JsString :=
  lit "INSERT INTO customer_records (id, tenant_id, name, payload, created_at, recorded_at) " ++
    lit "VALUES ($1, $2, $3, $4, $5, $6) " ++
    lit "RETURNING id, tenant_id, name, payload, created_at, recorded_at"

/-- The insert into `audit_log`. -/
def insertAuditSql : JsString :=
  lit "INSERT INTO audit_log (tenant_id, event_type, actor_id, correlation_id, details) " ++
    lit "VALUES ($1, $2, $3, $4, $5) RETURNING id"

/-- The insert into `transactional_outbox`. -/
def insertOutboxSql : JsString :=
  lit "INSERT INTO transactional_outbox (tenant_id, event_type, correlation_id, dedup_key) " ++
    lit "VALUES ($1, $2, $3, $4) RETURNING id"

/-- The values of a record, in the order of the fields. -/
def recordParams (r : CustomerRecord) : List JsValue :=
  [.string r.id, .string r.tenantId, .string r.name, r.payload, .string r.createdAt,
    .string r.recordedAt]

/-- The values of the audit row, but for its details. -/
def auditParams (tenantId : JsString) (audit : JsValue) (details : JsValue) : List JsValue :=
  [.string tenantId, property audit "action", orNull (property audit "actorId"),
    property audit "correlationId", details]

/-- The values of the outbox row. -/
def outboxParams (tenantId : JsString) (options : JsValue) : List JsValue :=
  [.string tenantId, property (property options "transactionalOutbox") "eventName",
    property (property options "transactionalOutbox") "correlationId",
    property (property options "idempotency") "fingerprint"]

/-- `JSON.stringify({ intentType: audit.type ?? null })` -/
def auditDetails (audit : JsValue) : Except NativeError JsValue :=
  (serialized (literal [("intentType", orNull (property audit "type"))])).map fun text =>
    match text with
    | some j => .string (ofText j.stringify)
    | none => .undefined

/-! ## The adapters -/

/-- The checks of the records adapter, with the canonical record. -/
def admitRecord (dates : Dates) (record options : JsValue) : Except NativeError CustomerRecord := do
  let canonical ← canonicalizeCustomerRecord dates.parses record
  match property options "tenantId" with
  | .string tenantId =>
      throwIf (tenantId = [] ∨ tenantId ≠ canonical.tenantId)
        (.typeError (lit "options.tenantId must match the record's canonical tenant_id"))
  -- a number or a boolean is no string either
  | .number _ | .boolean _ =>
      throw (.typeError (lit "options.tenantId must match the record's canonical tenant_id"))
  | _ => throw (.typeError (lit "options.tenantId must be a non-empty primitive"))
  return canonical

/-- `normalizeTimestamp` -/
def normalizeTimestamp (dates : Dates) (value : JsValue) : Except NativeError JsValue :=
  match dates.isoText value with
  | some text => text.map .string
  | none => .ok value

/-- The canonical record of the one row that a query gave. -/
def returnedRecord (dates : Dates) (result : JsValue) : Except NativeError CustomerRecord :=
  match property result "rows" with
  -- `result.rows[0].id` on a row that is not there
  | .array _ [(_, .undefined)] _ =>
      .error (.typeError (lit "Cannot read properties of undefined (reading 'id')"))
  | .array _ [(_, .null)] _ =>
      .error (.typeError (lit "Cannot read properties of null (reading 'id')"))
  -- the row is put through the schema of the record once more
  | .array _ [(_, row)] _ => do
      let createdAt ← normalizeTimestamp dates (property row "created_at")
      let recordedAt ← normalizeTimestamp dates (property row "recorded_at")
      canonicalizeCustomerRecord dates.parses
        (literal [("id", property row "id"), ("tenant_id", property row "tenant_id"),
          ("name", property row "name"), ("payload", property row "payload"),
          ("created_at", createdAt), ("recorded_at", recordedAt)])
  | _ => .error (.typeError (lit "query must return exactly one row"))

/-- A statement of an adapter. -/
def adapterQuery (client : ClientId) (sql : JsString) (params : List JsValue) :
    Program cutover JsValue :=
  query client (.adapter sql params)

/-- `insert` of `createCustomerRecordsAdapter`. -/
def recordsInsert (dates : Dates) (record options : JsValue) (client : ClientId) :
    Program cutover CustomerRecord := do
  let canonical ← sync (orThrow (admitRecord dates record options))
  let result ← adapterQuery client insertRecordSql (recordParams canonical)
  sync (orThrow (returnedRecord dates result))

/-- `error`, or the conflict that a violated deduplication key is reported as. -/
def translateDedup (tenantId : JsString) (options : JsValue) (error : Thrown) : Thrown :=
  if error.isDuplicateIdempotencyFingerprintError then
    match property (property options "idempotency") "fingerprint" with
    | .string fingerprint => .customerIdempotencyConflict tenantId fingerprint
    | _ => error
  else error

/-- `insert` of `createCustomerPersistenceAdapter`. -/
def persistenceInsert (dates : Dates) (record options : JsValue) (client : ClientId) :
    Program cutover JsValue := do
  let tenantId ← sync (orThrow (checkOptions record options))
  -- the record before the audit row, the audit row before the outbox row
  let canonical ← recordsInsert dates record options client
  let details ← sync (orThrow (auditDetails (property options "audit")))
  let _ ← adapterQuery client insertAuditSql
    (auditParams tenantId (property options "audit") details)
  let _ ← tryCatch (adapterQuery client insertOutboxSql (outboxParams tenantId options))
    -- only the outbox insert can name a key that is taken
    fun error => throw (translateDedup tenantId options error)
  return canonical.toValue

theorem calls_persistenceInsert (dates : Dates) (record options : JsValue) (client : ClientId) :
    Calls (IsAdapterQuery client) (persistenceInsert dates record options client) := by
  have hquery (sql : JsString) (params : List JsValue) :
      Calls (IsAdapterQuery client) (adapterQuery client sql params) := Calls.ask rfl
  refine Calls.syncBind fun tenantId => ?_
  refine Calls.bind ?_ fun canonical => ?_
  · exact Calls.syncBind fun canonical => (hquery _ _).bind fun result => trivial
  refine Calls.syncBind fun details => ?_
  refine (hquery _ _).bind fun _ => ?_
  refine Calls.bind (Calls.tryCatch (hquery _ _) fun error => ?_) fun _ => ?_
  · exact trivial
  · exact trivial

/-- What the cutover calls, with the parity options. -/
def persistenceAdapter (dates : Dates) : AdapterInsert where
  run record insertOptions client :=
    persistenceInsert dates record (parityOptions record insertOptions) client
  queriesOnly record insertOptions client :=
    calls_persistenceInsert dates record (parityOptions record insertOptions) client

/-! ## The course of a transaction -/

/-- A statement that is fulfilled. -/
def fulfilled (client : ClientId) (statement : CutoverStatement) (answer : statement.Answer) :
    Event cutover :=
  ⟨CutoverCall.query client statement, .ok answer⟩

/-- A statement that is rejected. -/
def rejected (client : ClientId) (statement : CutoverStatement) (e : Thrown) : Event cutover :=
  ⟨CutoverCall.query client statement, .error e⟩

section Course

variable (dates : Dates) (record insertOptions : JsValue) (client : ClientId)

/-- `BEGIN` and the tenant context. -/
def opened : History cutover :=
  [fulfilled client .begin (), fulfilled client (.beginTenantContext (tenantIdOf insertOptions)) ()]

/-- The insert of a record, with its result. -/
def recordInserted (canonical : CustomerRecord) (result : JsValue) : Event cutover :=
  fulfilled client (.adapter insertRecordSql (recordParams canonical)) result

/-- The insert of the audit row. -/
def auditStatement (tenantId : JsString) (details : JsValue) : CutoverStatement :=
  .adapter insertAuditSql
    (auditParams tenantId (property (parityOptions record insertOptions) "audit") details)

/-- The insert of the outbox row. -/
def outboxStatement (tenantId : JsString) : CutoverStatement :=
  .adapter insertOutboxSql (outboxParams tenantId (parityOptions record insertOptions))

/-- What is known when the record has been inserted and read back. -/
structure Recorded where
  tenantId : JsString
  canonical : CustomerRecord
  result : JsValue
  returned : CustomerRecord
  options_ok : checkOptions record (parityOptions record insertOptions) = .ok tenantId
  admitted : admitRecord dates record (parityOptions record insertOptions) = .ok canonical
  returned_ok : returnedRecord dates result = .ok returned

variable {dates record insertOptions} in
/-- The statements up to the insert of the record. -/
def Recorded.past (r : Recorded dates record insertOptions) (client : ClientId) :
    History cutover :=
  opened insertOptions client ++ [recordInserted client r.canonical r.result]

/-- The statements after which a transaction fails, one case for each step that can fail, and the
error of that step. -/
inductive FailsAfter : History cutover → Thrown → Prop
  | begin (e : Thrown) : FailsAfter [rejected client .begin e] e
  | context (e : Thrown) :
      FailsAfter [fulfilled client .begin (),
        rejected client (.beginTenantContext (tenantIdOf insertOptions)) e] e
  | options {e : NativeError} :
      checkOptions record (parityOptions record insertOptions) = .error e →
      FailsAfter (opened insertOptions client) (.native e)
  | admission {tenantId : JsString} {e : NativeError} :
      checkOptions record (parityOptions record insertOptions) = .ok tenantId →
      admitRecord dates record (parityOptions record insertOptions) = .error e →
      FailsAfter (opened insertOptions client) (.native e)
  | record {canonical : CustomerRecord} (e : Thrown) :
      admitRecord dates record (parityOptions record insertOptions) = .ok canonical →
      FailsAfter (opened insertOptions client ++
        [rejected client (.adapter insertRecordSql (recordParams canonical)) e]) e
  | returned {canonical : CustomerRecord} {result : JsValue} {e : NativeError} :
      admitRecord dates record (parityOptions record insertOptions) = .ok canonical →
      returnedRecord dates result = .error e →
      FailsAfter (opened insertOptions client ++ [recordInserted client canonical result])
        (.native e)
  | details (r : Recorded dates record insertOptions) {e : NativeError} :
      auditDetails (property (parityOptions record insertOptions) "audit") = .error e →
      FailsAfter (r.past client) (.native e)
  | audit (r : Recorded dates record insertOptions) {details : JsValue} (e : Thrown) :
      auditDetails (property (parityOptions record insertOptions) "audit") = .ok details →
      FailsAfter (r.past client ++
        [rejected client (auditStatement record insertOptions r.tenantId details) e]) e
  | outbox (r : Recorded dates record insertOptions) {details : JsValue} (auditRow : JsValue)
      (e : Thrown) :
      auditDetails (property (parityOptions record insertOptions) "audit") = .ok details →
      FailsAfter (r.past client ++
        [fulfilled client (auditStatement record insertOptions r.tenantId details) auditRow,
          rejected client (outboxStatement record insertOptions r.tenantId) e])
        (translateDedup r.tenantId (parityOptions record insertOptions) e)
  | commit (r : Recorded dates record insertOptions) {details : JsValue}
      (auditRow outboxRow : JsValue) (e : Thrown) :
      auditDetails (property (parityOptions record insertOptions) "audit") = .ok details →
      FailsAfter (r.past client ++
        [fulfilled client (auditStatement record insertOptions r.tenantId details) auditRow,
          fulfilled client (outboxStatement record insertOptions r.tenantId) outboxRow,
          rejected client .commit e]) e

/-- The statements of a transaction that runs through, and its value. -/
inductive RunsThrough : History cutover → JsValue → Prop
  | mk (r : Recorded dates record insertOptions) {details : JsValue}
      (auditRow outboxRow : JsValue) :
      auditDetails (property (parityOptions record insertOptions) "audit") = .ok details →
      RunsThrough (r.past client ++
        [fulfilled client (auditStatement record insertOptions r.tenantId details) auditRow,
          fulfilled client (outboxStatement record insertOptions r.tenantId) outboxRow,
          fulfilled client .commit ()]) r.returned.toValue

/-- How a transaction ends. -/
def Ends (past : History cutover) : Except Thrown JsValue → Prop
  | .ok value => RunsThrough dates record insertOptions client past value
  | .error e => FailsAfter dates record insertOptions client past e

/-- Any answers. -/
abbrev Anything : Event cutover → Prop := fun _ => True

theorem orThrow_eq_error {α : Type} {r : Except NativeError α} {e : Thrown}
    (h : orThrow r = .error e) : ∃ n, r = .error n ∧ e = .native n := by
  cases r with
  | error n => exact ⟨n, rfl, (Except.error.inj h).symm⟩
  | ok a => cases h

/-- The records adapter, on a client on which the tenant context is set. -/
theorem settles_recordsInsert {tenantId : JsString}
    (hoptions : checkOptions record (parityOptions record insertOptions) = .ok tenantId) :
    Settles Anything
      (fun past o => match o with
        | .ok returned => ∃ r : Recorded dates record insertOptions,
            r.tenantId = tenantId ∧ r.returned = returned ∧ past = r.past client
        | .error e => FailsAfter dates record insertOptions client past e)
      (opened insertOptions client)
      (recordsInsert dates record (parityOptions record insertOptions) client) := by
  refine Settles.syncBind (fun canonical hcanonical => ?_) fun e he => ?_
  · rw [orThrow_eq_ok] at hcanonical
    refine Settles.tryAskBind (fun result => ?_) fun e => .record e hcanonical
    cases hreturned : returnedRecord dates result with
    | error e => exact .returned hcanonical hreturned
    | ok returned =>
      exact ⟨⟨tenantId, canonical, result, returned, hoptions, hcanonical, hreturned⟩, rfl, rfl,
        rfl⟩
  · obtain ⟨n, hn, rfl⟩ := orThrow_eq_error he
    exact .admission hoptions hn

/-- The insert of the outbox row. -/
theorem settles_outbox {past : History cutover} {tenantId : JsString} :
    Settles Anything
      (fun past' o => match o with
        | .ok row => past' =
            past ++ [fulfilled client (outboxStatement record insertOptions tenantId) row]
        | .error error => ∃ e,
            error = translateDedup tenantId (parityOptions record insertOptions) e ∧
            past' = past ++ [rejected client (outboxStatement record insertOptions tenantId) e])
      past
      (tryCatch (adapterQuery client insertOutboxSql
          (outboxParams tenantId (parityOptions record insertOptions)))
        fun error => throw (translateDedup tenantId (parityOptions record insertOptions)
          error)) := by
  intro r _
  cases r with
  | ok row => rfl
  | error e => exact ⟨e, rfl, rfl⟩

/-- A transaction fails at one of its steps or runs through. -/
theorem settles_insertTransaction :
    Settles Anything (Ends dates record insertOptions client) []
      (insertTransaction (persistenceAdapter dates) record insertOptions client) := by
  refine Settles.tryAskBind (fun _ => ?_) fun e => .begin e
  refine Settles.tryAskBind (fun _ => ?_) fun e => .context e
  -- between BEGIN and COMMIT the adapter writes its three rows, or fails at one of them
  have hadapter : Settles Anything
      (fun past o => match o with
        | .ok value => ∃ r : Recorded dates record insertOptions, ∃ details auditRow outboxRow,
            auditDetails (property (parityOptions record insertOptions) "audit") = .ok details ∧
            r.returned.toValue = value ∧
            past = r.past client ++
              [fulfilled client (auditStatement record insertOptions r.tenantId details) auditRow,
                fulfilled client (outboxStatement record insertOptions r.tenantId) outboxRow]
        | .error e => FailsAfter dates record insertOptions client past e)
      (opened insertOptions client)
      (persistenceInsert dates record (parityOptions record insertOptions) client) := by
    refine Settles.syncBind (fun tenantId htenant => ?_) fun e he => ?_
    · rw [orThrow_eq_ok] at htenant
      refine (settles_recordsInsert dates record insertOptions client htenant).bind ?_
        fun past e h => h
      rintro past canonical ⟨r, rfl, rfl, rfl⟩
      refine Settles.syncBind (fun details hdetails => ?_) fun e he => ?_
      · rw [orThrow_eq_ok] at hdetails
        refine Settles.tryAskBind (fun auditRow => ?_) fun e => .audit r e hdetails
        refine Settles.bind (settles_outbox record insertOptions client) ?_ ?_
        · rintro past outboxRow rfl
          refine ⟨r, details, auditRow, outboxRow, hdetails, rfl, ?_⟩
          rw [List.append_assoc]
          rfl
        · rintro past _ ⟨e, rfl, rfl⟩
          rw [List.append_assoc]
          exact .outbox r auditRow e hdetails
      · obtain ⟨n, hn, rfl⟩ := orThrow_eq_error he
        exact .details r hn
    · obtain ⟨n, hn, rfl⟩ := orThrow_eq_error he
      exact .options hn
  refine hadapter.bind ?_ fun past e h => h
  rintro past value ⟨r, details, auditRow, outboxRow, hdetails, rfl, rfl⟩
  refine Settles.tryAskBind (fun _ => ?_) fun e => ?_
  · rw [List.append_assoc]
    exact .mk r auditRow outboxRow hdetails
  · rw [List.append_assoc]
    exact .commit r auditRow outboxRow e hdetails

/-- How an insert ends. -/
inductive InsertEnds : History cutover → Except Thrown JsValue → Prop
  | notConnected (e : Thrown) : InsertEnds [⟨CutoverCall.connect, .error e⟩] (.error e)
  | runsThrough {client : ClientId} {past : History cutover} {value : JsValue}
      (released : Except Thrown Unit) :
      RunsThrough dates record insertOptions client past value →
      InsertEnds (⟨CutoverCall.connect, .ok client⟩ :: past ++
        [⟨CutoverCall.release client, released⟩]) (.ok value)
  | rolledBack {client : ClientId} {past : History cutover} {e : Thrown}
      (rolledBack released : Except Thrown Unit) :
      FailsAfter dates record insertOptions client past e →
      InsertEnds (⟨CutoverCall.connect, .ok client⟩ :: past ++
        [⟨CutoverCall.query client .rollback, rolledBack⟩,
          ⟨CutoverCall.release client, released⟩]) (.error e)

/-- An insert of the application fails at one of its steps and rolls back, or runs through. -/
theorem settles_insert :
    Settles Anything (InsertEnds dates record insertOptions) []
      (insert .application (persistenceAdapter dates) record insertOptions) := by
  refine Settles.tryAskBind (fun client => ?_) fun e => .notConnected e
  -- what the transaction does comes after the connection
  have htransaction : Settles Anything
      (fun past o => ∃ rest, past = [⟨CutoverCall.connect, .ok client⟩] ++ rest ∧
        Ends dates record insertOptions client rest o)
      [⟨CutoverCall.connect, .ok client⟩]
      (insertTransaction (persistenceAdapter dates) record insertOptions client) :=
    (settles_insertTransaction dates record insertOptions client).after
  have hrollback : Settles Anything
      (fun past o => match o with
        | .ok value => ∃ rest, past = ⟨CutoverCall.connect, .ok client⟩ :: rest ∧
            RunsThrough dates record insertOptions client rest value
        | .error e => ∃ rest r, past = ⟨CutoverCall.connect, .ok client⟩ :: rest ++
            [⟨CutoverCall.query client .rollback, r⟩] ∧
            FailsAfter dates record insertOptions client rest e)
      [⟨CutoverCall.connect, .ok client⟩]
      (tryCatch (insertTransaction (persistenceAdapter dates) record insertOptions client)
        fun error => do
          let _ ← (query client .rollback).regardless
          throw error) := by
    refine htransaction.tryCatch (fun _ _ h => h) ?_
    rintro _ e ⟨rest, rfl, h⟩ r -
    exact ⟨rest, r, rfl, h⟩
  refine hrollback.ensuring ?_
  rintro past o h released -
  cases o with
  | ok value =>
    obtain ⟨rest, rfl, hruns⟩ := h
    exact .runsThrough released hruns
  | error e =>
    obtain ⟨rest, r, rfl, hfails⟩ := h
    have hends := InsertEnds.rolledBack r released hfails
    rwa [List.append_cons] at hends

end Course

end MetaframerKernel.CustomerDataCutover
