import MetaframerKernel.Application.Collaborators

/-!
# The customer data cutover

`insert` of the customer application: before the cutover the legacy writer inserts, after it one
transaction on a client of the application's own pool does. What the persistence adapter does on
that client, which is to call its `query` function, is a parameter.

## Main definitions

* `AdapterInsert`: what `adapter.insert` does with the client it queries;
* `insert`: the program.
-/

namespace MetaframerKernel.CustomerDataCutover

open Js Async

/-- `activeWriter` -/
inductive Writer where
  | legacy
  | application

/-- The statements of `insert`. -/
inductive CutoverStatement where
  | begin
  /-- `SELECT mfk_begin_tenant_context($1::uuid)` -/
  | beginTenantContext (tenantId : JsValue)
  /-- A statement of the persistence adapter. -/
  | adapter (sql : JsString) (params : List JsValue)
  | commit
  | rollback

/-- What a statement is fulfilled with, as far as it is looked at. -/
@[reducible]
def CutoverStatement.Answer : CutoverStatement → Type
  | adapter .. => JsValue
  | _ => Unit

/-- What `insert` awaits. -/
inductive CutoverCall where
  | legacyInsert (record insertOptions : JsValue)
  | connect
  | query (client : ClientId) (statement : CutoverStatement)
  | release (client : ClientId)

/-- What a call is fulfilled with. -/
@[reducible]
def CutoverCall.Answer : CutoverCall → Type
  | legacyInsert .. => JsValue
  | connect => ClientId
  | query _ statement => statement.Answer
  | release _ => Unit

/-- What the program calls. -/
abbrev cutover : Interface := ⟨CutoverCall, CutoverCall.Answer, Thrown⟩

/-- The calls of `query(sql, params)` on a client. -/
def IsAdapterQuery (client : ClientId) : CutoverCall → Prop
  | .query k (.adapter _ _) => k = client
  | _ => False

/-- `adapter.insert` on a record and its parity options, over `query` on a client. -/
structure AdapterInsert where
  run : JsValue → JsValue → ClientId → Program cutover JsValue
  queriesOnly : ∀ record insertOptions client,
    Calls (IsAdapterQuery client) (run record insertOptions client)

/-- `insertOptions?.tenantId` -/
def tenantIdOf (insertOptions : JsValue) : JsValue :=
  match insertOptions with
  | .object _ props => JsValue.get props (lit "tenantId")
  | _ => .undefined

/-- A statement on a client. -/
def query (client : ClientId) (statement : CutoverStatement) : Program cutover statement.Answer :=
  Program.ask (I := cutover) (.query client statement)

/-- The transaction of `insert`. -/
def insertTransaction (adapter : AdapterInsert) (record insertOptions : JsValue)
    (client : ClientId) : Program cutover JsValue := do
  let _ ← query client .begin
  let _ ← query client (.beginTenantContext (tenantIdOf insertOptions))
  let result ← adapter.run record insertOptions client
  let _ ← query client .commit
  return result

/-- `insert` -/
def insert (activeWriter : Writer) (adapter : AdapterInsert) (record insertOptions : JsValue) :
    Program cutover JsValue :=
  match activeWriter with
  -- the legacy writer has a transaction of its own, if it has any
  | .legacy => Program.ask (I := cutover) (.legacyInsert record insertOptions)
  | .application => do
      let client : ClientId ← Program.ask (I := cutover) .connect
      Program.ensuring
        (tryCatch (insertTransaction adapter record insertOptions client) fun error => do
          -- the first error is thrown, whatever the rollback answers
          let _ ← (query client .rollback).regardless
          throw error)
        (Program.ask (I := cutover) (.release client)).regardless

end MetaframerKernel.CustomerDataCutover
