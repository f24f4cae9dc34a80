import MetaframerKernel.Application.CommitReceipt
import MetaframerKernel.Application.CreateCustomerPipeline
import MetaframerKernel.Application.UnitOfWork

/-!
# The customer write

The transaction that writes a prepared change set: the port of the PostgreSQL unit of work and the
`write` that inserts the three rows inside it.

## Main definitions

* `PostgresUnitOfWork.begin`, `PostgresUnitOfWork.commit`, `PostgresUnitOfWork.rollback`: the port;
* `createPostgresWrite`: the rows of a change set;
* `writeEnvelopeCommit`: both, as `WriteEnvelope.commit` runs them.
-/

namespace MetaframerKernel

open Js Async CreateCustomerPipeline

/-- A statement on a client. -/
def query (client : ClientId) (statement : Statement) : Program kernel statement.Answer :=
  Program.ask (I := kernel) (.query client statement)

/-- `client.release()` -/
def release (client : ClientId) : Program kernel Unit :=
  (Program.ask (I := kernel) (.release client)).regardless

/-! ## The port -/

namespace PostgresUnitOfWork

/-- `begin` -/
def begin : Program kernel ClientId := do
  let client : ClientId ← Program.ask (I := kernel) .connect
  let _ ← tryCatch (query client .begin) fun error => do
    let _ ← release client
    throw error
  return client

/-- `commit` -/
def commit (client : ClientId) : Program kernel Unit :=
  Program.ensuring
    (tryCatch (query client .commit) fun error => do
      let _ ← (query client .rollback).regardless
      throw error)
    (release client)

/-- `rollback` -/
def rollback (client : ClientId) : Program kernel Unit :=
  Program.ensuring (query client .rollback) (release client)

end PostgresUnitOfWork

/-! ## The write -/

/-- The `payload.name` of a customer intent, where it is a non-empty string. -/
def customerName? (payload : CanonicalObject) : Option JsString :=
  match payload.members.lookup (lit "name") with
  | some (.str (u :: s)) => some (u :: s)
  | _ => none

/-- A field that needs to be a non-empty string. -/
def demandNonEmpty (value : JsString) (message : String) : Except NativeError Unit :=
  throwIf (value = []) (.typeError (lit message))

/-- `checkPreparedChangeSet` on a change set of the pipeline, past the checks of its shape: the
customer name. -/
def checkPreparedChangeSet (changeSet : PreparedChangeSet) : Except NativeError JsString := do
  let name ← (customerName? changeSet.customer.payload).elim
    (.error (.typeError (lit "intents.customer.payload.name must be a non-empty string"))) .ok
  demandNonEmpty changeSet.audit.action "intents.audit.action must be a non-empty string"
  demandNonEmpty changeSet.transactionalOutbox.eventName
    "intents.transactionalOutbox.eventName must be a non-empty string"
  demandNonEmpty changeSet.idempotency.fingerprint
    "intents.idempotency.fingerprint must be a non-empty string"
  return name

/-- `checkTenantId` -/
def checkTenantId (tenantId : JsString) : Except NativeError Unit :=
  demandNonEmpty tenantId "commit needs an options.tenantId string"

/-- `nonEmptyString` of `createPostgresWrite`. -/
def nonEmptyString (value : JsValue) (label : String) : Except NativeError JsString :=
  match value with
  | .string (u :: s) => .ok (u :: s)
  | _ => .error (.typeError (lit "createPostgresWrite needs a " ++ lit label ++ lit " string"))

/-- The `details` of an audit row. -/
def auditDetails (audit : AuditIntent) : Json := .obj [(lit "intentType", .str audit.type)]

/-- The inserts of a change set, and the receipt they make. -/
def insertRows (requestId idempotencyKey name : JsString) (changeSet : PreparedChangeSet)
    (scope : ClientId) : Program kernel CommitReceipt := do
  let tenantId := changeSet.customer.tenantId
  -- the identifiers of the receipt are those the rows come back with
  let customer : InsertedCustomer ← query scope
    (.insertCustomer tenantId name changeSet.customer.payload.toJson.stringify)
  let auditId : JsString ← query scope
    (.insertAudit tenantId changeSet.audit.action changeSet.audit.actorId
      changeSet.audit.correlationId (auditDetails changeSet.audit).stringify)
  let outboxId : JsString ← query scope
    (.insertOutbox tenantId changeSet.transactionalOutbox.eventName
      changeSet.transactionalOutbox.correlationId changeSet.idempotency.fingerprint)
  -- a receipt that is refused is thrown inside the transaction
  Program.sync (orThrow (CommitReceipt.ofRaw requestId tenantId customer.id customer.recordedAt
    auditId [outboxId] idempotencyKey))

/-- `write` of `createPostgresWrite`. -/
def write (requestId idempotencyKey : JsString) (changeSet : PreparedChangeSet)
    (scope : ClientId) : Program kernel CommitReceipt := do
  let name ← Program.sync (orThrow (checkPreparedChangeSet changeSet))
  let tenantId := changeSet.customer.tenantId
  let _ ← Program.sync (orThrow (checkTenantId tenantId))
  let _ ← query scope (.beginTenantContext tenantId)
  tryCatch (insertRows requestId idempotencyKey name changeSet scope) fun error =>
    if error.isDuplicateIdempotencyFingerprintError then
      throw (.idempotencyConflict tenantId changeSet.idempotency.fingerprint)
    else throw error

/-- `WriteEnvelope.commit` over a fresh unit of work. -/
def writeEnvelopeCommit (requestId idempotencyKey : JsString) (changeSet : PreparedChangeSet) :
    Program kernel CommitReceipt :=
  UnitOfWork.runScope PostgresUnitOfWork.begin PostgresUnitOfWork.commit PostgresUnitOfWork.rollback
    (write requestId idempotencyKey changeSet)

/-- `commit` of the compositions. -/
def commitChangeSet (changeSet : PreparedChangeSet) (requestId : JsString)
    (idempotencyKey : JsValue) : Program kernel CommitReceipt := do
  let requestId ← Program.sync (orThrow (nonEmptyString (.string requestId) "requestId"))
  let idempotencyKey ← Program.sync (orThrow (nonEmptyString idempotencyKey "idempotencyKey"))
  writeEnvelopeCommit requestId idempotencyKey changeSet

/-! ## The calls of a commit -/

/-- The tenant a statement is about. -/
def Statement.tenantId? : Statement → Option JsString
  | beginTenantContext tenantId => some tenantId
  | insertCustomer tenantId _ _ => some tenantId
  | insertAudit tenantId _ _ _ _ => some tenantId
  | insertOutbox tenantId _ _ _ => some tenantId
  | _ => none

/-- A commit takes and returns a client, and its statements are about the tenant of the customer. -/
theorem calls_commitChangeSet_of {P : Call → Prop} {changeSet : PreparedChangeSet}
    {requestId : JsString} {idempotencyKey : JsValue} (hconnect : P .connect)
    (hrelease : ∀ client, P (.release client))
    (hquery : ∀ client (statement : Statement),
      (∀ t, statement.tenantId? = some t → t = changeSet.customer.tenantId) →
        P (.query client statement)) :
    Calls P (commitChangeSet changeSet requestId idempotencyKey) := by
  have hreturn (client : ClientId) : Calls P (release client) :=
    Calls.regardless (Calls.ask (hrelease client))
  have hplain (client : ClientId) {statement : Statement} (h : statement.tenantId? = none) :
      Calls P (query client statement) :=
    Calls.ask (hquery client statement fun t ht => by rw [h] at ht; cases ht)
  have htenant (client : ClientId) {statement : Statement}
      (h : statement.tenantId? = some changeSet.customer.tenantId) :
      Calls P (query client statement) :=
    Calls.ask (hquery client statement fun t ht => (Option.some.inj (h.symm.trans ht)).symm)
  -- each part of the unit of work in turn, with what it does when a statement fails
  have hbegin : Calls P PostgresUnitOfWork.begin := by
    refine Calls.askBind hconnect fun client => ?_
    refine Calls.bind ?_ fun _ => trivial
    exact (hplain client rfl).tryCatch fun error => (hreturn client).bind fun _ => trivial
  have hcommit (client : ClientId) : Calls P (PostgresUnitOfWork.commit client) := by
    refine Calls.ensuring ?_ (hreturn client)
    exact (hplain client rfl).tryCatch fun error =>
      (hplain client rfl).regardless.bind fun _ => trivial
  have hrollback (client : ClientId) : Calls P (PostgresUnitOfWork.rollback client) :=
    (hplain client rfl).ensuring (hreturn client)
  have hinsert (requestId idempotencyKey name : JsString) (client : ClientId) :
      Calls P (insertRows requestId idempotencyKey name changeSet client) := by
    refine (htenant client rfl).bind fun customer => ?_
    refine (htenant client rfl).bind fun auditId => ?_
    exact (htenant client rfl).bind fun outboxId => trivial
  have hwrite (requestId idempotencyKey : JsString) (client : ClientId) :
      Calls P (write requestId idempotencyKey changeSet client) := by
    refine Calls.syncBind fun name => ?_
    refine Calls.syncBind fun _ => ?_
    refine (htenant client rfl).bind fun _ => ?_
    refine (hinsert _ _ _ _).tryCatch fun error => ?_
    split_ifs <;> trivial
  refine Calls.syncBind fun requestId => ?_
  refine Calls.syncBind fun idempotencyKey => ?_
  refine hbegin.bind fun client => ?_
  refine Calls.bind ?_ fun receipt => (hcommit client).bind fun _ => trivial
  exact (hwrite _ _ _).tryCatch fun failure =>
    (hrollback client).regardless.bind fun _ => trivial

end MetaframerKernel
