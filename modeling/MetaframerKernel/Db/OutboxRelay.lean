import Mathlib.Logic.Relation
import MetaframerKernel.Db.Outbox

/-!
# One pass of the relay

`run_outbox_relay_once` claims a batch, hands each row to `deliver` and publishes or releases it,
each in a transaction of its own, while other workers claim, release and publish at any time.

A statement comes to a row that it names when it locks and changes it, or when it finds a version
that its `WHERE` does not hold of.

## Main definitions

* `Delivery`: what `deliver` does with a row;
* `Control`: where the pass stands, with its local variables;
* `System`: the pass and the table;
* `Own`, `Other`: the steps of the pass and those of everybody else.

## Main results

* `statement_acknowledge`: a row is published or released by one statement, fenced on its token.
-/

namespace MetaframerKernel.OutboxRelay

open Outbox

variable {Id Tenant Token Worker : Type}

/-! ## The pass -/

/-- A row as `claim_batch` gives it. -/
structure ClaimedRow (Id Tenant Token : Type) where
  id : Id
  row : Row Tenant Token

/-- What `deliver` does with a row. -/
inductive Delivery where
  | returnsTrue
  /-- Any other value. -/
  | returnsOther
  /-- Any `Exception`. -/
  | raises
deriving DecidableEq

/-- `delivered` -/
def Delivery.delivered : Delivery → Bool
  | returnsTrue => true
  | _ => false

/-- The call that publishes a row or releases it. -/
def acknowledge (row : ClaimedRow Id Tenant Token) (delivery : Delivery) : Call Id Token :=
  if delivery.delivered then .publishClaim [row.id] row.row.claimToken
  else .releaseClaim [row.id] row.row.claimToken

/-- The statement that publishes a row or releases it. -/
def acknowledgement (row : ClaimedRow Id Tenant Token) (delivery : Delivery) (token : Token) :
    Mutation Id Token :=
  if delivery.delivered then .publish [row.id] token else .release [row.id] token

/-- An acknowledgement carries the token of the claim. -/
theorem token?_acknowledgement (row : ClaimedRow Id Tenant Token) (delivery : Delivery)
    (token : Token) : (acknowledgement row delivery token).token? = some token := by
  rw [acknowledgement]
  split_ifs <;> rfl

/-- A row is published when it was delivered. -/
theorem isPublish_acknowledgement (row : ClaimedRow Id Tenant Token) (delivery : Delivery)
    (token : Token) : (acknowledgement row delivery token).isPublish = delivery.delivered := by
  rw [acknowledgement]
  cases delivery.delivered <;> rfl

/-- An acknowledgement claims nothing. -/
theorem isClaim_acknowledgement (row : ClaimedRow Id Tenant Token) (delivery : Delivery)
    (token : Token) : (acknowledgement row delivery token).isClaim = false := by
  rw [acknowledgement]
  split_ifs <;> rfl

/-- An acknowledgement of a claimed row is a mutation of it. -/
theorem statement_acknowledge {row : ClaimedRow Id Tenant Token} (delivery : Delivery)
    {token : Token} (htoken : row.row.claimToken = some token) :
    (acknowledge row delivery).statement = .ok (some (acknowledgement row delivery token)) := by
  rw [acknowledge, acknowledgement, htoken]
  cases delivery.delivered <;> rfl

/-- The transaction that claims, with the rows once the statement is through. -/
inductive ClaimStage (Id Tenant Token : Type) where
  | begin
  | call
  | running
  | commit (rows : List (ClaimedRow Id Tenant Token))

/-- The transaction that publishes or releases, with whether the token was current when the
statement came to the row, and with the ids once the statement is through. -/
inductive AcknowledgeStage (Id : Type) where
  | begin
  | call
  | running
  | reached (current : Bool)
  | commit (current : Bool) (ids : List Id)

/-- The local variables of the loop; `rest` are the rows still to come. -/
structure Progress (Id Tenant Token : Type) where
  rows : List (ClaimedRow Id Tenant Token)
  rest : List (ClaimedRow Id Tenant Token)
  published : List Id
  failed : List Id

/-- The end of the body of the loop. -/
def Progress.settle (p : Progress Id Tenant Token) (row : ClaimedRow Id Tenant Token)
    (delivered : Bool) (ids : List Id) : Progress Id Tenant Token :=
  if delivered && !ids.isEmpty then { p with published := p.published ++ [row.id] }
  else { p with failed := p.failed ++ [row.id] }

/-- Where the pass stands. -/
inductive Control (Id Tenant Token : Type) where
  | claiming (stage : ClaimStage Id Tenant Token)
  | offering (p : Progress Id Tenant Token)
  | acknowledging (row : ClaimedRow Id Tenant Token) (delivery : Delivery)
      (stage : AcknowledgeStage Id) (p : Progress Id Tenant Token)
  | returned (p : Progress Id Tenant Token)
  | raised

/-- The arguments of a pass, with the worker that makes it. -/
structure Pass (Tenant Worker : Type) where
  worker : Worker
  tenantId : Tenant
  limit : ℤ
  leaseSeconds : Time

/-- What has become of a row: its delivery, and whether its token was current when the statement
that publishes or releases it came to it. -/
structure Settlement (Id Tenant Token : Type) where
  row : ClaimedRow Id Tenant Token
  delivery : Delivery
  current : Bool

/-- The table and a pass, with the tokens that the pass has been given and what has become of the
rows it has delivered. -/
structure System (Id Tenant Token Worker : Type) where
  db : State Id Tenant Token Worker
  control : Control Id Tenant Token
  mine : List Token
  settled : List (Settlement Id Tenant Token)

/-- The start. -/
def System.start (clock : Time) : System Id Tenant Token Worker :=
  ⟨.empty clock, .claiming .begin, [], []⟩

/-- The rows that a claim reports, as its transaction has them. -/
def claimedRows (tx : Tx Id Tenant Token) (reported : List Id) :
    List (ClaimedRow Id Tenant Token) :=
  reported.filterMap fun id => (tx.versions id).map fun row => ⟨id, row⟩

/-- The token of a row is still that of the row in the table. -/
def isCurrent [DecidableEq Token] (s : State Id Tenant Token Worker) (tx : Tx Id Tenant Token)
    (row : ClaimedRow Id Tenant Token) : Bool :=
  (s.version tx row.id).any fun r => r.claimToken = row.row.claimToken

/-- The token that a call carries. -/
def token? : Call Id Token → Option Token
  | .claimBatch .. => none
  | .releaseClaim _ claimToken => claimToken
  | .publishClaim _ claimToken => claimToken

section Moves

variable [DecidableEq Id] [DecidableEq Token] [DecidableEq Worker]

/-- A step of the pass. -/
inductive Own (pass : Pass Tenant Worker) (x : System Id Tenant Token Worker) :
    System Id Tenant Token Worker → Prop
  | claimBegin {db : State Id Tenant Token Worker} : x.control = .claiming .begin →
      Step x.db (.begin pass.worker pass.tenantId) db →
      Own pass x { x with db, control := .claiming .call }
  | claimCall {db : State Id Tenant Token Worker} : x.control = .claiming .call →
      Step x.db (.call pass.worker (.claimBatch pass.limit pass.leaseSeconds)) db →
      Own pass x { x with db, control := .claiming .running }
  | claimTouch {db : State Id Tenant Token Worker} {id : Id} {fresh : Token} :
      x.control = .claiming .running → Step x.db (.touch pass.worker id fresh) db →
      Own pass x { x with db, mine := fresh :: x.mine }
  | claimFinish {db : State Id Tenant Token Worker} {tx : Tx Id Tenant Token}
      {running : Running Id Token} : x.control = .claiming .running →
      x.db.txs pass.worker = some tx → tx.running = some running →
      Step x.db (.finish pass.worker) db →
      Own pass x
        { x with db, control := .claiming (.commit (claimedRows tx running.reported)) }
  | claimCommit {db : State Id Tenant Token Worker} {rows : List (ClaimedRow Id Tenant Token)} :
      x.control = .claiming (.commit rows) → Step x.db (.commit pass.worker) db →
      Own pass x { x with db, control := .offering ⟨rows, rows, [], []⟩ }
  | deliver {p : Progress Id Tenant Token} {row : ClaimedRow Id Tenant Token}
      {rest : List (ClaimedRow Id Tenant Token)} (delivery : Delivery) :
      x.control = .offering p → p.rest = row :: rest →
      Own pass x
        { x with control := .acknowledging row delivery .begin { p with rest } }
  | acknowledgeBegin {db : State Id Tenant Token Worker} {row : ClaimedRow Id Tenant Token}
      {delivery : Delivery} {p : Progress Id Tenant Token} :
      x.control = .acknowledging row delivery .begin p →
      Step x.db (.begin pass.worker pass.tenantId) db →
      Own pass x { x with db, control := .acknowledging row delivery .call p }
  | acknowledgeCall {db : State Id Tenant Token Worker} {row : ClaimedRow Id Tenant Token}
      {delivery : Delivery} {p : Progress Id Tenant Token} :
      x.control = .acknowledging row delivery .call p →
      Step x.db (.call pass.worker (acknowledge row delivery)) db →
      Own pass x { x with db, control := .acknowledging row delivery .running p }
  | acknowledgeTouch {db : State Id Tenant Token Worker} {row : ClaimedRow Id Tenant Token}
      {delivery : Delivery} {p : Progress Id Tenant Token} {tx : Tx Id Tenant Token} {id : Id}
      {fresh : Token} : x.control = .acknowledging row delivery .running p →
      x.db.txs pass.worker = some tx → Step x.db (.touch pass.worker id fresh) db →
      Own pass x
        { x with db, control := .acknowledging row delivery (.reached (isCurrent x.db tx row)) p }
  /-- The `WHERE` does not hold of the row, or there is none. -/
  | acknowledgePass {row : ClaimedRow Id Tenant Token} {delivery : Delivery}
      {p : Progress Id Tenant Token} {tx : Tx Id Tenant Token} {running : Running Id Token} :
      x.control = .acknowledging row delivery .running p → x.db.txs pass.worker = some tx →
      tx.running = some running →
      (∀ fresh r, x.db.version tx row.id = some r → r.tenantId = tx.tenant →
        running.mutation.apply row.id tx.now fresh r = none) →
      Own pass x
        { x with control := .acknowledging row delivery (.reached (isCurrent x.db tx row)) p }
  | acknowledgeFinish {db : State Id Tenant Token Worker} {row : ClaimedRow Id Tenant Token}
      {delivery : Delivery} {current : Bool} {p : Progress Id Tenant Token}
      {tx : Tx Id Tenant Token} {running : Running Id Token} :
      x.control = .acknowledging row delivery (.reached current) p →
      x.db.txs pass.worker = some tx → tx.running = some running →
      Step x.db (.finish pass.worker) db →
      Own pass x
        { x with db, control := .acknowledging row delivery (.commit current running.reported) p }
  | acknowledgeCommit {db : State Id Tenant Token Worker} {row : ClaimedRow Id Tenant Token}
      {delivery : Delivery} {current : Bool} {ids : List Id} {p : Progress Id Tenant Token} :
      x.control = .acknowledging row delivery (.commit current ids) p →
      Step x.db (.commit pass.worker) db →
      Own pass x
        { x with
          db
          control := .offering (p.settle row delivery.delivered ids)
          settled := x.settled ++ [⟨row, delivery, current⟩] }
  | finish {p : Progress Id Tenant Token} : x.control = .offering p → p.rest = [] →
      Own pass x { x with control := .returned p }
  /-- Anything the database raises, and what is no `Exception`. -/
  | raise {db : State Id Tenant Token Worker} : (∀ p, x.control ≠ .returned p) →
      Step x.db (.rollback pass.worker) db → Own pass x { x with db, control := .raised }

/-- A step of anybody else, or of the clock. A worker releases and publishes with tokens that have
been given out, and not to the pass. -/
inductive Other (pass : Pass Tenant Worker) (x : System Id Tenant Token Worker) :
    System Id Tenant Token Worker → Prop
  | mk {ev : Event Id Tenant Token Worker} {db : State Id Tenant Token Worker} :
      Step x.db ev db → ev.worker? ≠ some pass.worker →
      (∀ w c token, ev = .call w c → token? c = some token →
        token ∈ x.db.issued ∧ token ∉ x.mine) →
      Other pass x { x with db }

/-- A step. -/
def Moves (pass : Pass Tenant Worker) (x y : System Id Tenant Token Worker) : Prop :=
  Own pass x y ∨ Other pass x y

/-- A run. -/
abbrev Runs (pass : Pass Tenant Worker) : System Id Tenant Token Worker →
    System Id Tenant Token Worker → Prop := Relation.ReflTransGen (Moves pass)

/-- What a pass and the others can come to, from an empty table. -/
def Reachable (pass : Pass Tenant Worker) (x : System Id Tenant Token Worker) : Prop :=
  ∃ clock, Runs pass (.start clock) x

end Moves

end MetaframerKernel.OutboxRelay
