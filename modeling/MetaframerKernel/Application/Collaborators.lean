import MetaframerKernel.Application.DecisionLogEntry
import MetaframerKernel.Async.Program

/-!
# Collaborators

What a request handler awaits: the functions its composition is given, the decision log and the
statements of a PostgreSQL client, with what each is fulfilled with and what it is rejected for.

## Main definitions

* `Thrown`: the values thrown and rejected with, as far as the kernel looks at them;
* `Statement`, `Call`, `kernel`: the interface of the programs of the kernel.
-/

namespace MetaframerKernel

open Js Async

/-! ## What is thrown -/

/-- An error of the PostgreSQL driver or of its connection. -/
structure DriverError where
  name : JsString
  code : Option JsString
  constraint : Option JsString
  /-- No class of the driver goes by the name of the kernel's own conflict. -/
  nameOk : name ≠ lit "IdempotencyConflictError"

/-- An error class of `postgres-decision-log-adapter.mjs`. -/
inductive DecisionLogError where
  | integrity (message : JsString)
  | chainConflict (tenantId entryId : JsString) (prevHash : Option JsString)

/-- A value that is thrown, or that a promise is rejected with. -/
inductive Thrown where
  | native (e : NativeError)
  | driver (e : DriverError)
  | decisionLog (e : DecisionLogError)
  | idempotencyConflict (tenantId fingerprint : JsString)
  /-- `CustomerIdempotencyConflictError` -/
  | customerIdempotencyConflict (tenantId fingerprint : JsString)
  /-- Whatever a function given by the caller throws, by the strings read off it. -/
  | foreign (name code : Option JsString)

namespace Thrown

/-- `isIdempotencyConflictError`, which looks at `error.name` and `error.code`. -/
def isIdempotencyConflictError : Thrown → Bool
  | idempotencyConflict _ _ => true
  | foreign name code =>
      name == some (lit "IdempotencyConflictError") && code == some (lit "IDEMPOTENCY_CONFLICT")
  | _ => false

/-- `isDuplicateIdempotencyFingerprintError`, which looks at `error.code` and
`error.constraint`. -/
def isDuplicateIdempotencyFingerprintError : Thrown → Bool
  | driver e => e.code == some (lit "23505") &&
      e.constraint == some (lit "transactional_outbox_tenant_dedup_key")
  | _ => false

/-- What `append` of the PostgreSQL adapter rejects with: an error of its own or of the driver. -/
def IsAppendRejection : Thrown → Prop
  | driver _ => True
  | decisionLog _ => True
  | _ => False

/-- No rejected append passes for a conflict of idempotency keys. -/
theorem IsAppendRejection.not_conflict {e : Thrown} (h : e.IsAppendRejection) :
    e.isIdempotencyConflictError = false := by
  cases e with
  | driver _ => rfl
  | decisionLog _ => rfl
  | _ => exact h.elim

end Thrown

/-- The return of a synchronous step, or what it throws. -/
def orThrow {α : Type} (r : Except NativeError α) : Except Thrown α := r.mapError .native

@[simp]
theorem orThrow_eq_ok {α : Type} {r : Except NativeError α} {a : α} :
    orThrow r = .ok a ↔ r = .ok a := by
  cases r with
  | error e => exact ⟨nofun, nofun⟩
  | ok b => exact ⟨fun h => congrArg _ (Except.ok.inj h), fun h => congrArg _ (Except.ok.inj h)⟩

/-! ## What is awaited -/

/-- A client of a connection pool. -/
abbrev ClientId : Type := ℕ

/-- The statements of a customer write transaction. -/
inductive Statement where
  | begin
  /-- `SELECT mfk_begin_tenant_context($1::uuid)` -/
  | beginTenantContext (tenantId : JsString)
  /-- `INSERT INTO customer_records … RETURNING id, recorded_at` -/
  | insertCustomer (tenantId name : JsString) (payload : List Char)
  /-- `INSERT INTO audit_log … RETURNING id` -/
  | insertAudit (tenantId eventType actorId correlationId : JsString) (details : List Char)
  /-- `INSERT INTO transactional_outbox … RETURNING id` -/
  | insertOutbox (tenantId eventType correlationId dedupKey : JsString)
  | commit
  | rollback
deriving DecidableEq

/-- The row a customer insert returns, its `recorded_at` as `toISOString` spells it. -/
structure InsertedCustomer where
  id : JsString
  recordedAt : JsString
deriving DecidableEq

/-- What a statement is fulfilled with, as far as it is looked at. -/
@[reducible]
def Statement.Answer : Statement → Type
  | insertCustomer .. => InsertedCustomer
  | insertAudit .. => JsString
  | insertOutbox .. => JsString
  | _ => Unit

/-- What `evaluateInvariants` answers, as far as it is looked at: a falsy value, or any other with
what its `ok` reads. -/
inductive Invariants where
  | falsy
  | truthy (ok : JsValue)

/-- What a program of the kernel awaits. -/
inductive Call where
  | current
  | candidatesFor (request : PolicyRequest)
  | evaluateInvariants (command : Command)
  | idGenerator
  | now
  | chainHead (tenantId : TenantId)
  | append (entry : DecisionLogEntry)
  | connect
  | query (client : ClientId) (statement : Statement)
  | release (client : ClientId)

/-- What a call is fulfilled with. -/
@[reducible]
def Call.Answer : Call → Type
  /- A genuine `Principal`, or anything else. -/
  | current => Option Principal
  | candidatesFor _ => JsValue
  | evaluateInvariants _ => Invariants
  | idGenerator => JsValue
  | now => JsValue
  | chainHead _ => JsValue
  | append _ => Unit
  | connect => ClientId
  | query _ statement => statement.Answer
  | release _ => Unit

/-- What the programs of the kernel call. -/
abbrev kernel : Interface := ⟨Call, Call.Answer, Thrown⟩

/-! ## Ports -/

/-- The principal `Identity.current` hands on. -/
def genuinePrincipal : Option Principal → Except NativeError Principal
  | some principal => .ok principal
  | none => .error (.typeError
      (lit "Identity.current needs a genuine Principal instance from its collaborator"))

/-- `Identity.current` -/
def identityCurrent : Program kernel Principal := do
  let candidate : Option Principal ← Program.ask (I := kernel) .current
  Program.sync (orThrow (genuinePrincipal candidate))

/-- The reading `Clock.now` hands on. -/
def canonicalReading (reading : JsValue) : Except NativeError JsValue :=
  let refused := NativeError.typeError
    (lit "Clock.now needs a canonical UTC instant spelled YYYY-MM-DDTHH:MM:SS.sssZ")
  match reading with
  | .string s => if isInstant s then .ok (.string s) else .error refused
  | _ => .error refused

/-- `Clock.now` -/
def clockNow : Program kernel JsValue := do
  let reading : JsValue ← Program.ask (I := kernel) .now
  Program.sync (orThrow (canonicalReading reading))

end MetaframerKernel
