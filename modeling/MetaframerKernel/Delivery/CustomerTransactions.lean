import MetaframerKernel.Delivery.CreateCustomerRequestHandler
import MetaframerKernel.Domain.HexDigest
import MetaframerKernel.Stores.Sessions

/-!
# Customer transactions

What the handler commits: the three rows of a change set in one transaction, or nothing. The tables
admit no second outbox row of a tenant with the same deduplication key.

## Main definitions

* `CustomerRow`, `Triple`: the rows of the three tables, and the three of one request;
* `customerSystem`: any number of requests next to each other over one database.

## Main results

* `commits_at_most_once`: what any interleaving has committed is made of complete triples, one for
  each tenant and fingerprint, and each answer says what its own request has committed.
-/

namespace MetaframerKernel

open Js Async Stores CreateCustomerPipeline

/-! ## Rows -/

/-- A row of one of the three tables, by the columns an insert gives. -/
inductive CustomerRow where
  | customerRecord (tenantId name : JsString) (payload : List Char)
  | auditLog (tenantId eventType actorId correlationId : JsString) (details : List Char)
  | transactionalOutbox (tenantId eventType correlationId dedupKey : JsString)
deriving DecidableEq

/-- What a statement is to the tables. -/
def Statement.effect : Statement → Stores.Statement CustomerRow
  | begin => .begin
  | beginTenantContext _ => .read
  | insertCustomer tenantId name payload => .write (.customerRecord tenantId name payload)
  | insertAudit tenantId eventType actorId correlationId details =>
      .write (.auditLog tenantId eventType actorId correlationId details)
  | insertOutbox tenantId eventType correlationId dedupKey =>
      .write (.transactionalOutbox tenantId eventType correlationId dedupKey)
  | commit => .commit
  | rollback => .rollback

/-- What a call is to the tables. -/
def customerAction : Event kernel → Stores.Action ClientId CustomerRow
  | ⟨.connect, .ok client⟩ => .connect client
  | ⟨.query client statement, r⟩ => .statement client statement.effect r.isOk
  | ⟨.release client, _⟩ => .release client
  | _ => .none

/-- The keys of `transactional_outbox_tenant_dedup_key`. -/
def dedupKeys (rows : List CustomerRow) : List (JsString × JsString) :=
  rows.filterMap fun
    | .transactionalOutbox tenantId _ _ dedupKey => some (tenantId, dedupKey)
    | _ => none

/-- New rows leave the keys unique. -/
def UniqueDedup (rows new : List CustomerRow) : Prop := (dedupKeys (rows ++ new)).Nodup

/-- The rows of a change set. -/
def changeRows (changeSet : PreparedChangeSet) (name : JsString) : List CustomerRow :=
  [.customerRecord changeSet.customer.tenantId name changeSet.customer.payload.toJson.stringify,
    .auditLog changeSet.customer.tenantId changeSet.audit.action changeSet.audit.actorId
      changeSet.audit.correlationId (auditDetails changeSet.audit).stringify,
    .transactionalOutbox changeSet.customer.tenantId changeSet.transactionalOutbox.eventName
      changeSet.transactionalOutbox.correlationId changeSet.idempotency.fingerprint]

/-! ## The write transaction -/

/-- A receipt is about the change set of a request. -/
def ReceiptOf (requestId idempotencyKey : JsString) (changeSet : PreparedChangeSet)
    (receipt : CommitReceipt) : Prop :=
  receipt.requestId = requestId ∧ receipt.tenantId = changeSet.customer.tenantId ∧
    receipt.idempotencyKey = idempotencyKey

/-- The transaction of a change set. -/
def IsChange (changeSet : PreparedChangeSet) (writes : List CustomerRow) : Prop :=
  ∃ name, writes = changeRows changeSet name

section Write

variable {P : List CustomerRow → Prop} {requestId idempotencyKey : JsString}
  {changeSet : PreparedChangeSet} {client : ClientId} {past : History kernel}

/-- A client that has begun, or none. -/
theorem safe_begin (h : viewAfter customerAction past = ⟨none, []⟩) :
    Safe (Keeps customerAction P)
      (fun past o => match o with
        | .ok client => Held customerAction client (.active []) [] past
        | .error _ => viewAfter customerAction past = ⟨none, []⟩) past
            PostgresUnitOfWork.begin := by
  refine (safe_connect id (fun _ => rfl) (fun _ => rfl) h).bind ?_ fun _ _ h => h
  intro past client hidle
  -- when BEGIN is rejected the client is released again
  have hbegin : Safe (Keeps customerAction P)
      (fun past (o : Except Thrown Unit) => match o with
        | .ok _ => Held customerAction client (.active []) [] past
        | .error _ => viewAfter customerAction past = ⟨none, []⟩) past
      (tryCatch (query client .begin) fun error => do
        let _ ← release client
        throw error) := by
    refine (safe_pending (t := .begin) (fun _ => rfl) hidle rfl).tryCatch (fun _ _ h => h) ?_
    intro past e hfailed
    refine (Safe.regardless (safe_release (fun _ => rfl) hfailed)).bind ?_ ?_
    · intro past _ h
      exact h.1
    · rintro past _ ⟨-, h⟩
      cases h
  exact hbegin.bind (fun _ _ h => h) fun _ _ h => h

/-- The rows of the change set, written but not committed, with the receipt. -/
theorem safe_insertRows {name : JsString} (h : Held customerAction client (.active []) [] past) :
    Safe (Keeps customerAction P)
      (fun past o => match o with
        | .ok receipt => Held customerAction client (.active (changeRows changeSet name)) [] past ∧
            ReceiptOf requestId idempotencyKey changeSet receipt
        | .error _ => ∃ s, Held customerAction client s [] past) past
      (insertRows requestId idempotencyKey name changeSet client) := by
  refine (safe_pending (fun _ => rfl) h rfl).bind ?_ fun _ _ h => ⟨_, h⟩
  intro past customer hcustomer
  refine (safe_pending (fun _ => rfl) hcustomer rfl).bind ?_ fun _ _ h => ⟨_, h⟩
  intro past auditId haudit
  refine (safe_pending (fun _ => rfl) haudit rfl).bind ?_ fun _ _ h => ⟨_, h⟩
  intro past outboxId houtbox
  cases hreceipt : CommitReceipt.ofRaw requestId changeSet.customer.tenantId customer.id
      customer.recordedAt auditId [outboxId] idempotencyKey with
  | error e => exact ⟨_, houtbox⟩
  | ok receipt =>
    obtain ⟨hrequest, htenant, -, -, -, -, hkey⟩ := CommitReceipt.ofRaw_eq_ok hreceipt
    exact ⟨houtbox, hrequest, htenant, hkey⟩

/-- The write leaves the rows of the change set with the receipt, or no more than an open
session. -/
theorem safe_write (h : Held customerAction client (.active []) [] past) :
    Safe (Keeps customerAction P)
      (fun past o => match o with
        | .ok receipt => (∃ name, Held customerAction client
              (.active (changeRows changeSet name)) [] past) ∧
            ReceiptOf requestId idempotencyKey changeSet receipt
        | .error _ => ∃ s, Held customerAction client s [] past) past
      (write requestId idempotencyKey changeSet client) := by
  refine Safe.syncBind (fun name _ => ?_) fun _ _ => ⟨_, h⟩
  refine Safe.syncBind (fun _ _ => ?_) fun _ _ => ⟨_, h⟩
  refine (safe_pending (fun _ => rfl) h rfl).bind ?_ fun _ _ h => ⟨_, h⟩
  intro past _ hcontext
  refine (safe_insertRows hcontext).tryCatch ?_ ?_
  · rintro past receipt ⟨hrows, hreceipt⟩
    exact ⟨⟨name, hrows⟩, hreceipt⟩
  · rintro past error hsession
    split_ifs <;> exact hsession

/-- A commit that is fulfilled has committed the rows, and one that is rejected none. -/
theorem safe_commitRows {writes : List CustomerRow}
    (h : Held customerAction client (.active writes) [] past) (hP : P writes) :
    Safe (Keeps customerAction P)
      (fun past o => match o with
        | .ok _ => viewAfter customerAction past = ⟨none, [writes]⟩
        | .error _ => viewAfter customerAction past = ⟨none, []⟩) past
      (PostgresUnitOfWork.commit client) := by
  -- up to the release: a failed commit is rolled back, so the session ends idle either way
  have hcommit : Safe (Keeps customerAction P)
      (fun past (o : Except Thrown Unit) => match o with
        | .ok _ => Held customerAction client .idle [writes] past
        | .error _ => Held customerAction client .idle [] past) past
      (tryCatch (query client .commit) fun error => do
        let _ ← (query client .rollback).regardless
        throw error) := by
    refine (safe_statement (t := .commit) (fun _ => rfl) h ?_).tryCatch (fun _ _ h => h) ?_
    · rintro _ ⟨⟩
      exact hP
    · intro past e hfailed
      refine (Safe.regardless (safe_rollback (fun _ => rfl) hfailed)).bind ?_ ?_
      · intro past _ h
        exact h.1
      · rintro past _ ⟨-, h⟩
        cases h
  refine hcommit.ensuring ?_
  intro past o ho
  cases o with
  | ok u =>
    refine (Safe.regardless (safe_release (fun _ => rfl) ho)).mono ?_
    rintro past _ ⟨hview, rfl⟩
    exact hview
  | error e =>
    refine (Safe.regardless (safe_release (fun _ => rfl) ho)).mono ?_
    rintro past _ ⟨hview, rfl⟩
    exact hview

/-- A rollback leaves nothing. -/
theorem safe_rollbackRows {s : Session CustomerRow} (h : Held customerAction client s [] past) :
    Safe (Keeps customerAction P) (fun past _ => viewAfter customerAction past = ⟨none, []⟩) past
      (PostgresUnitOfWork.rollback client) := by
  refine (safe_rollback (fun _ => rfl) h).ensuring ?_
  intro past o ho
  refine (Safe.regardless (safe_release (fun _ => rfl) ho)).mono ?_
  rintro past _ ⟨hview, rfl⟩
  exact hview

/-- What passes as a string that is not empty is that string. -/
theorem nonEmptyString_eq_ok {value : JsValue} {label : String} {s : JsString}
    (h : nonEmptyString value label = .ok s) : value = .string s := by
  unfold nonEmptyString at h
  split at h
  · obtain rfl := Except.ok.inj h
    rfl
  · cases h

/-- A change set is committed with its receipt, or not at all. -/
theorem safe_commitChangeSet {rawKey : JsValue} (h : viewAfter customerAction past = ⟨none, []⟩) :
    Safe (Keeps customerAction (IsChange changeSet))
      (Settled customerAction [] fun receipt writes => IsChange changeSet writes ∧
        ∃ key, rawKey = .string key ∧ ReceiptOf requestId key changeSet receipt) past
      (commitChangeSet changeSet requestId rawKey) := by
  refine Safe.syncBind (fun checkedId hid => ?_) fun _ _ => h
  refine Safe.syncBind (fun key hkey => ?_) fun _ _ => h
  have hid : checkedId = requestId := (JsValue.string.inj
    (nonEmptyString_eq_ok (orThrow_eq_ok.mp hid))).symm
  refine (safe_begin h).bind ?_ fun _ _ h => h
  intro past client hbegun
  -- either the rows are written and the client is still held, or all is rolled back
  have hbody : Safe (Keeps customerAction (IsChange changeSet))
      (fun past o => match o with
        | .ok receipt => (∃ name, Held customerAction client
              (.active (changeRows changeSet name)) [] past) ∧
            ReceiptOf requestId key changeSet receipt
        | .error _ => viewAfter customerAction past = ⟨none, []⟩) past
      (tryCatch (write checkedId key changeSet client) fun failure => do
        let _ ← (PostgresUnitOfWork.rollback client).regardless
        throw failure) := by
    rw [hid]
    refine (safe_write hbegun).tryCatch (fun _ _ h => h) ?_
    rintro past failure ⟨s, hsession⟩
    refine (Safe.regardless (safe_rollbackRows hsession)).bind ?_ ?_
    · intro past _ h
      exact h.1
    · rintro past _ ⟨-, h⟩
      cases h
  refine hbody.bind ?_ fun _ _ h => h
  rintro past receipt ⟨⟨name, hrows⟩, hreceipt⟩
  refine (safe_commitRows hrows ⟨name, rfl⟩).bind ?_ fun _ _ h => h
  intro past _ hview
  exact ⟨_, ⟨⟨name, rfl⟩, key, nonEmptyString_eq_ok (orThrow_eq_ok.mp hkey), hreceipt⟩, hview⟩

end Write

/-! ## Lost races -/

/-- The insert of the outbox row has been refused by the index of the deduplication keys. -/
def LostRace (past : History kernel) : Prop :=
  ∃ client tenantId eventType correlationId dedupKey e,
    (⟨.query client (.insertOutbox tenantId eventType correlationId dedupKey), .error e⟩ :
      Event kernel) ∈ past ∧ e.isDuplicateIdempotencyFingerprintError = true

/-- The call is no insert of an outbox row. -/
def IsNoOutbox : Call → Prop
  | .query _ (.insertOutbox ..) => False
  | _ => True

/-- A call of a collaborator writes no outbox row. -/
theorem IsCollaborator.isNoOutbox {c : Call} (h : IsCollaborator c) : IsNoOutbox c := by
  cases c with
  | query client statement => exact h.elim
  | _ => trivial

/-- The outcome is a conflict of idempotency keys. -/
def IsConflict {α : Type} (o : Except Thrown α) : Prop :=
  ∃ tenantId fingerprint, o = .error (.idempotencyConflict tenantId fingerprint)

section Race

variable {past : History kernel}

/-- A call that writes no outbox row loses no race. -/
theorem lostRace_snoc {c : Call} (hc : IsNoOutbox c) {r : kernel.Settled c}
    (h : LostRace (past ++ [⟨c, r⟩])) : LostRace past := by
  obtain ⟨client, tenantId, eventType, correlationId, dedupKey, e, hmem, he⟩ := h
  rcases List.mem_append.mp hmem with hmem | hmem
  · exact ⟨client, tenantId, eventType, correlationId, dedupKey, e, hmem, he⟩
  · obtain rfl := congrArg Sigma.fst (List.mem_singleton.mp hmem)
    exact hc.elim

/-- A call that is fulfilled loses no race. -/
theorem lostRace_ok {c : Call} {a : kernel.Answer c} (h : LostRace (past ++ [⟨c, .ok a⟩])) :
    LostRace past := by
  obtain ⟨client, tenantId, eventType, correlationId, dedupKey, e, hmem, he⟩ := h
  rcases List.mem_append.mp hmem with hmem | hmem
  · exact ⟨client, tenantId, eventType, correlationId, dedupKey, e, hmem, he⟩
  · exact absurd (List.mem_singleton.mp hmem).symm (Event.ok_ne_error a e)

/-- Other calls lose no race. -/
theorem safe_noOutbox {α : Type} {p : Program kernel α} (h : Calls IsNoOutbox p) {X : Prop}
    (hX : LostRace past → X) :
    Safe (fun _ _ => True) (fun past _ => LostRace past → X) past p := by
  refine (((h.safe past).keep (W := fun past => LostRace past → X) hX ?_).weaken
    fun _ _ _ => trivial).mono fun _ _ h => h.2
  exact fun past c r hc hX hlost => hX (lostRace_snoc hc hlost)

variable {requestId idempotencyKey : JsString} {changeSet : PreparedChangeSet}

/-- A lost race is what the inserts are rejected for. -/
theorem race_insertRows {name : JsString} {client : ClientId} (h : ¬LostRace past) :
    Safe (fun _ _ => True)
      (fun past o => LostRace past →
        ∃ e, o = .error e ∧ e.isDuplicateIdempotencyFingerprintError = true) past
      (insertRows requestId idempotencyKey name changeSet client) := by
  refine (safe_noOutbox (Calls.ask (I := kernel) (c := .query client (.insertCustomer ..)) trivial)
    h).bind ?_
    fun _ _ h hlost => (h hlost).elim
  intro past customer h
  refine (safe_noOutbox (Calls.ask (I := kernel) (c := .query client (.insertAudit ..)) trivial)
    h).bind ?_
    fun _ _ h hlost => (h hlost).elim
  intro past auditId h
  refine ⟨trivial, fun r => ?_⟩
  -- only the last insert can lose the race
  cases r with
  | ok outboxId => exact fun hlost => (h (lostRace_ok hlost)).elim
  | error e =>
    rintro ⟨client', tenantId, eventType, correlationId, dedupKey, e', hmem, he⟩
    rcases List.mem_append.mp hmem with hmem | hmem
    · exact (h ⟨client', tenantId, eventType, correlationId, dedupKey, e', hmem, he⟩).elim
    · cases List.mem_singleton.mp hmem
      exact ⟨e, rfl, he⟩

/-- A lost race is a conflict. -/
theorem race_write {client : ClientId} (h : ¬LostRace past) :
    Safe (fun _ _ => True) (fun past o => LostRace past → IsConflict o) past
      (write requestId idempotencyKey changeSet client) := by
  refine Safe.syncBind (fun name _ => ?_) fun _ _ hlost => (h hlost).elim
  refine Safe.syncBind (fun _ _ => ?_) fun _ _ hlost => (h hlost).elim
  refine (safe_noOutbox (Calls.ask (I := kernel) (c := .query client (.beginTenantContext _))
    trivial) h).bind ?_
    fun _ _ h hlost => (h hlost).elim
  intro past _ h
  refine (race_insertRows h).tryCatch ?_ ?_
  · rintro past receipt hconflict hlost
    obtain ⟨e, he, -⟩ := hconflict hlost
    cases he
  · rintro past error hconflict
    split_ifs with hduplicate
    · exact fun _ => ⟨_, _, rfl⟩
    · intro hlost
      obtain ⟨e, he, hduplicate'⟩ := hconflict hlost
      obtain rfl := Except.error.inj he
      exact absurd hduplicate' hduplicate

/-- A lost race is a conflict, whatever happens to the rollback. -/
theorem race_commitChangeSet {rawKey : JsValue} (h : ¬LostRace past) :
    Safe (fun _ _ => True) (fun past o => LostRace past → IsConflict o) past
      (commitChangeSet changeSet requestId rawKey) := by
  have hrelease (client : ClientId) : Calls IsNoOutbox (release client) :=
    Calls.regardless (Calls.ask trivial)
  have hbegin : Calls IsNoOutbox PostgresUnitOfWork.begin := by
    refine Calls.askBind trivial fun client => Calls.bind ?_ fun _ => trivial
    exact (Calls.ask trivial).tryCatch fun error => (hrelease client).bind fun _ => trivial
  have hrollback (client : ClientId) : Calls IsNoOutbox (PostgresUnitOfWork.rollback client) :=
    (Calls.ask trivial).ensuring (hrelease client)
  have hcommit (client : ClientId) : Calls IsNoOutbox (PostgresUnitOfWork.commit client) := by
    refine Calls.ensuring ?_ (hrelease client)
    exact (Calls.ask trivial).tryCatch fun error =>
      (Calls.regardless (Calls.ask trivial)).bind fun _ => trivial
  refine Safe.syncBind (fun checkedId _ => ?_) fun _ _ hlost => (h hlost).elim
  refine Safe.syncBind (fun key _ => ?_) fun _ _ hlost => (h hlost).elim
  refine (safe_noOutbox hbegin h).bind ?_ fun _ _ h hlost => (h hlost).elim
  intro past client h
  have hbody : Safe (fun _ _ => True) (fun past o => LostRace past → IsConflict o) past
      (tryCatch (write checkedId key changeSet client) fun failure => do
        let _ ← (PostgresUnitOfWork.rollback client).regardless
        throw failure) := by
    refine (race_write h).tryCatch (fun _ _ h => h) fun past failure hconflict => ?_
    -- the failure that was caught is the one thrown on
    refine (Safe.regardless (safe_noOutbox (hrollback client) hconflict)).bind ?_ ?_
    · rintro past _ ⟨h, -⟩ hlost
      obtain ⟨tenantId, fingerprint, hfailure⟩ := h hlost
      exact ⟨tenantId, fingerprint, congrArg Except.error (Except.error.inj hfailure)⟩
    · rintro past e ⟨-, h⟩
      cases h
  refine hbody.bind ?_ ?_
  · intro past receipt hconflict
    have h : ¬LostRace past := fun hlost => by
      obtain ⟨_, _, h⟩ := hconflict hlost
      cases h
    refine (safe_noOutbox (hcommit client) h).bind ?_ fun _ _ h hlost => (h hlost).elim
    exact fun _ _ h hlost => (h hlost).elim
  · rintro past e hconflict hlost
    obtain ⟨tenantId, fingerprint, h⟩ := hconflict hlost
    exact ⟨tenantId, fingerprint, congrArg Except.error (Except.error.inj h)⟩

end Race

/-! ## The rows of a request -/

/-- The three rows of one customer. -/
structure Triple where
  tenantId : JsString
  actorId : JsString
  correlationId : JsString
  fingerprint : JsString
  name : JsString
  payload : List Char

/-- The rows, in the order they are written. -/
def Triple.rows (t : Triple) : List CustomerRow :=
  [.customerRecord t.tenantId t.name t.payload,
    .auditLog t.tenantId (lit "customer.create") t.actorId t.correlationId
      (Json.obj [(lit "intentType", .str (lit "audit.append"))]).stringify,
    .transactionalOutbox t.tenantId (lit "customer.created") t.correlationId t.fingerprint]

/-- The triple carries the tenant, the actor, the request id and the fingerprint of a request. -/
def Triple.IsFor (sha256 : ByteArray → JsString) (request : JsValue) (t : Triple) : Prop :=
  ∃ actionSpec, buildCreateCustomerActionSpec request = .ok actionSpec ∧
    actionSpec.requestId = .string t.correlationId ∧ actionSpec.actorId = .string t.actorId ∧
    actionSpec.tenantId = .string t.tenantId ∧
    IdempotencyKey.ofRaw sha256 actionSpec.idempotencyKey = .ok ⟨t.fingerprint⟩

/-- The receipt carries the request id, the tenant and the idempotency key of a request. -/
def IsReceiptFor (request : JsValue) (receipt : CommitReceipt) : Prop :=
  ∃ actionSpec, buildCreateCustomerActionSpec request = .ok actionSpec ∧
    actionSpec.requestId = .string receipt.requestId ∧
    actionSpec.tenantId = .string receipt.tenantId ∧
    actionSpec.idempotencyKey = .string receipt.idempotencyKey

/-- What a request has committed when it is answered. -/
def HandlerCommitted (sha256 : ByteArray → JsString) (request : JsValue)
    (past : History kernel) : Except Thrown Response → Prop
  | .ok response =>
      (response.outcome = .committed ∧ (∃ t : Triple, t.IsFor sha256 request ∧
          viewAfter customerAction past = ⟨none, [t.rows]⟩) ∧
        ∃ receipt, response.body = .commitReceipt receipt ∧ IsReceiptFor request receipt) ∨
      (response.outcome ≠ .committed ∧ viewAfter customerAction past = ⟨none, []⟩)
  | .error _ => viewAfter customerAction past = ⟨none, []⟩

section Handler

variable {sha256 : ByteArray → JsString} {ports : Ports} {request : JsValue}

/-- The change set of a request is written as its triple. -/
theorem exists_triple {actionSpec : ActionSpec} {requestId : JsString}
    {changeSet : PreparedChangeSet} {writes : List CustomerRow}
    (hspec : buildCreateCustomerActionSpec request = .ok actionSpec)
    (hprepared : Prepared sha256 actionSpec requestId changeSet)
    (hwrites : IsChange changeSet writes) : ∃ t :
      Triple, t.IsFor sha256 request ∧ writes = t.rows := by
  obtain ⟨command, shaped, hshape, hcommand, rfl, -⟩ := hprepared
  obtain ⟨hprincipal, hcorrelation, hkey⟩ := commandOf_eq_ok hcommand
  obtain ⟨hrequestId, hactorId, htenantId, hfingerprint⟩ := shapeCheck_eq_ok hshape
  obtain ⟨name, rfl⟩ := hwrites
  refine ⟨{ tenantId := shaped.claimedTenantId.value
            actorId := shaped.claimedActorId.value
            correlationId := shaped.correlationId.value
            fingerprint := shaped.idempotencyKey.fingerprint
            name := name
            payload := command.payload.toJson.stringify },
    ⟨actionSpec, hspec, hrequestId, hactorId, htenantId, hfingerprint⟩, ?_⟩
  simp only [changeRows, preparedChangeSetOf, hprincipal, hcorrelation, hkey, auditDetails,
    Triple.rows]

/-- The receipt of a change set is that of its request. -/
theorem isReceiptFor {actionSpec : ActionSpec} {requestId key : JsString}
    {changeSet : PreparedChangeSet} {receipt : CommitReceipt}
    (hspec : buildCreateCustomerActionSpec request = .ok actionSpec)
    (hprepared : Prepared sha256 actionSpec requestId changeSet)
    (hkey : actionSpec.idempotencyKey = .string key)
    (hreceipt : ReceiptOf requestId key changeSet receipt) : IsReceiptFor request receipt := by
  obtain ⟨command, shaped, hshape, hcommand, rfl, rfl⟩ := hprepared
  obtain ⟨hprincipal, hcorrelation, -⟩ := commandOf_eq_ok hcommand
  obtain ⟨hrequestId, -, htenantId, -⟩ := shapeCheck_eq_ok hshape
  obtain ⟨hrequest, htenant, hreceiptKey⟩ := hreceipt
  refine ⟨actionSpec, hspec, ?_, ?_, ?_⟩
  · rw [hrequest, hcorrelation, hrequestId]
  · rw [htenant, htenantId, preparedChangeSetOf, hprincipal]
  · rw [hreceiptKey, hkey]

/-- A call of a collaborator leaves what the transaction has written. -/
theorem viewAfter_collaborator {past : History kernel} {c : Call} (hc : IsCollaborator c)
    (r : kernel.Settled c) :
    viewAfter customerAction (past ++ [⟨c, r⟩]) = viewAfter customerAction past := by
  have hnone : customerAction ⟨c, r⟩ = .none := by
    cases c with
    | connect => exact hc.elim
    | query client statement => exact hc.elim
    | release client => exact hc.elim
    | _ => rfl
  rw [viewAfter_append, hnone]
  rfl

/-- A transaction is the triple of the request. -/
def IsTripleFor (sha256 : ByteArray → JsString) (request : JsValue) (writes : List CustomerRow) :
    Prop :=
  ∃ t : Triple, t.IsFor sha256 request ∧ writes = t.rows

/-- What a request has committed when the service answers. -/
def ServiceCommitted (sha256 : ByteArray → JsString) (request : JsValue)
    (past : History kernel) : Except Thrown ServiceResult → Prop
  | .ok (.committed _ receipt) =>
      (∃ t : Triple, t.IsFor sha256 request ∧
          viewAfter customerAction past = ⟨none, [t.rows]⟩) ∧ IsReceiptFor request receipt
  | .ok (.refused ..) => viewAfter customerAction past = ⟨none, []⟩
  | .error _ => viewAfter customerAction past = ⟨none, []⟩

/-- The pipeline writes nothing, and what it lets through is prepared for the action. -/
theorem safe_pipeline (hports : PortsCall IsCollaborator ports) (actionSpec : ActionSpec) :
    Safe (Keeps customerAction (IsTripleFor sha256 request))
      (fun past o => (∀ requestId changeSet, o = .ok (.allowCommit requestId changeSet) →
          Prepared sha256 actionSpec requestId changeSet) ∧
        viewAfter customerAction past = ⟨none, []⟩ ∧ ¬LostRace past) []
      (CreateCustomerPipeline.run sha256 ports actionSpec) := by
  -- the pipeline asks collaborators only, so the database is as it was
  have hcalls : Calls IsCollaborator (CreateCustomerPipeline.run sha256 ports actionSpec) :=
    calls_run hports actionSpec
  have hkeep := (hcalls.safe []).keep
    (W := fun past => viewAfter customerAction past = ⟨none, []⟩ ∧ ¬LostRace past)
    ⟨rfl, fun ⟨_, _, _, _, _, _, h, _⟩ => absurd h List.not_mem_nil⟩
    fun past c r hc h => ⟨(viewAfter_collaborator hc r).trans h.1,
      fun hlost => h.2 (lostRace_snoc hc.isNoOutbox hlost)⟩
  refine (((prepared_of_run actionSpec []).and hkeep).weaken ?_).mono ?_
  · rintro past c ⟨-, hc, -⟩
    refine keeps_of_none fun r => ?_
    cases c with
    | connect => exact hc.elim
    | query client statement => exact hc.elim
    | release client => exact hc.elim
    | _ => rfl
  · rintro past o ⟨hprepared, -, hview, hlost⟩
    exact ⟨hprepared, hview, hlost⟩

/-- A request of the service commits its triple or nothing. -/
theorem committed_serviceHandle (hports : PortsCall IsCollaborator ports) {actionSpec : ActionSpec}
    (hspec : buildCreateCustomerActionSpec request = .ok actionSpec) :
    Safe (Keeps customerAction (IsTripleFor sha256 request))
      (fun past o => ServiceCommitted sha256 request past o ∧ (LostRace past → IsConflict o)) []
      (serviceHandle sha256 ports actionSpec) := by
  refine (safe_pipeline hports actionSpec).bind ?_ ?_
  · rintro past outcome ⟨hprepared, hview, hlost⟩
    -- only what the pipeline lets through is committed
    cases outcome with
    | refused outcome requestId error => exact ⟨hview, fun h => (hlost h).elim⟩
    | allowCommit requestId changeSet =>
      have hprepared := hprepared requestId changeSet rfl
      refine (((safe_commitChangeSet hview).and (race_commitChangeSet hlost)).weaken
        fun past c h => ?_).bind ?_ ?_
      · exact h.1.mono fun writes hwrites => exists_triple hspec hprepared hwrites
      · rintro past receipt ⟨⟨writes, ⟨hwrites, key, hkey, hreceipt⟩, hview⟩, hrace⟩
        obtain ⟨t, ht, rfl⟩ := exists_triple hspec hprepared hwrites
        refine ⟨⟨⟨t, ht, hview⟩, isReceiptFor hspec hprepared hkey hreceipt⟩, fun hlost => ?_⟩
        obtain ⟨_, _, h⟩ := hrace hlost
        cases h
      · rintro past e ⟨hview, hrace⟩
        refine ⟨hview, fun hlost => ?_⟩
        obtain ⟨tenantId, fingerprint, h⟩ := hrace hlost
        exact ⟨tenantId, fingerprint, congrArg Except.error (Except.error.inj h)⟩
  · rintro past e ⟨-, hview, hlost⟩
    exact ⟨hview, fun h => (hlost h).elim⟩

/-- A request commits its triple and answers with its receipt, or commits nothing; when it loses a
race it answers that, and has committed nothing. -/
theorem committed_handle (hports : PortsCall IsCollaborator ports) (request : JsValue) :
    Safe (Keeps customerAction (IsTripleFor sha256 request))
      (fun past o => HandlerCommitted sha256 request past o ∧
        (LostRace past → o = .ok (idempotencyConflictResponse (rawRequestIdOf request)))) []
      (handle sha256 ports request) := by
  unfold handle
  cases hspec : buildCreateCustomerActionSpec request with
  | error e =>
    exact ⟨.inr ⟨nofun, rfl⟩, fun ⟨_, _, _, _, _, _, h, _⟩ => absurd h List.not_mem_nil⟩
  | ok actionSpec =>
    -- what the service commits, the response of it says
    have hservice : Safe (Keeps customerAction (IsTripleFor sha256 request))
        (fun past (o : Except Thrown Response) => HandlerCommitted sha256 request past o ∧
          (LostRace past → IsConflict o)) []
        (responseOf <$> serviceHandle sha256 ports actionSpec) := by
      refine (committed_serviceHandle hports hspec).bind ?_ ?_
      · rintro past result ⟨hcommitted, hrace⟩
        have hlost : ¬LostRace past := fun h => by
          obtain ⟨_, _, h⟩ := hrace h
          cases h
        refine ⟨?_, fun h => (hlost h).elim⟩
        cases result with
        | committed requestId receipt => exact .inl ⟨rfl, hcommitted.1, receipt, rfl, hcommitted.2⟩
        | refused outcome requestId error => exact .inr ⟨nofun, hcommitted⟩
      · rintro past e ⟨hcommitted, hrace⟩
        refine ⟨hcommitted, fun hlost => ?_⟩
        obtain ⟨tenantId, fingerprint, h⟩ := hrace hlost
        exact ⟨tenantId, fingerprint, congrArg Except.error (Except.error.inj h)⟩
    -- a conflict is answered and every other failure is thrown on, neither with a further call
    refine hservice.tryCatch ?_ ?_
    · rintro past response ⟨hcommitted, hrace⟩
      refine ⟨hcommitted, fun hlost => ?_⟩
      obtain ⟨_, _, h⟩ := hrace hlost
      cases h
    · rintro past error ⟨hview, hrace⟩
      split_ifs with hconflict
      · exact ⟨.inr ⟨nofun, hview⟩, fun _ => rfl⟩
      · refine ⟨hview, fun hlost => ?_⟩
        obtain ⟨tenantId, fingerprint, h⟩ := hrace hlost
        obtain rfl := Except.error.inj h
        exact absurd rfl hconflict

end Handler

/-! ## Requests next to each other -/

/-- The handler called any number of times over one database. -/
def customerSystem (sha256 : ByteArray → JsString) (ports : Ports) (requests : ℕ → JsValue) :
    System kernel ℕ (Store ℕ ClientId CustomerRow) Response where
  program i := handle sha256 ports (requests i)
  Answers s i ev s' := s.Step UniqueDedup i (customerAction ev) s'

/-- Transactions that were each admitted beside the earlier ones leave the keys unique. -/
theorem nodup_dedupKeys {transactions : List (ℕ × List CustomerRow)}
    (h : ∀ before tx after, transactions = before ++ tx :: after →
      UniqueDedup (writesOf before) tx.2) : (dedupKeys (writesOf transactions)).Nodup := by
  rcases List.eq_nil_or_concat transactions with rfl | ⟨before, last, rfl⟩
  · exact List.nodup_nil
  · rw [List.concat_eq_append, writesOf_append]
    have hlast := h before last [] (by rw [List.concat_eq_append])
    simpa [writesOf, UniqueDedup] using hlast

/-- What any interleaving of any number of requests has committed is made of complete triples, each
in one transaction of one request, with no two of a tenant and a fingerprint. A request that is
answered as committed has committed its own triple and its receipt says so; any other has committed
nothing, and one that has lost a race is answered as a conflict. -/
theorem commits_at_most_once (sha256 : ByteArray → JsString) {ports : Ports}
    (hports : ports = plainPorts ∨ ports = auditedPorts) (requests : ℕ → JsValue)
    {cfg : Config kernel ℕ (Store ℕ ClientId CustomerRow) Response}
    (h : (customerSystem sha256 ports requests).Reachable .empty cfg) :
    (∀ tx ∈ cfg.state.committed, ∃ t : Triple, t.IsFor sha256 (requests tx.1) ∧ tx.2 = t.rows) ∧
    (dedupKeys cfg.state.rows).Nodup ∧
    ∀ i o, cfg.left i = .settled o →
      (∀ response, o = .ok response → response.outcome = .committed →
        (∃ t : Triple, t.IsFor sha256 (requests i) ∧
          cfg.state.committed.filter (fun tx => tx.1 = i) = [(i, t.rows)]) ∧
        ∃ receipt, response.body = .commitReceipt receipt ∧ IsReceiptFor (requests i) receipt) ∧
      ((∀ response, o = .ok response → response.outcome ≠ .committed) →
        cfg.state.committed.filter (fun tx => tx.1 = i) = []) ∧
      (LostRace (cfg.past i) →
        o = .ok (idempotencyConflictResponse (rawRequestIdOf (requests i))) ∧
        cfg.state.committed.filter (fun tx => tx.1 = i) = []) := by
  have hcalls : PortsCall IsCollaborator ports := by
    rcases hports with rfl | rfl
    · exact portsCall_plain
    · exact portsCall_audited
  have hsafe (i : ℕ) : Safe (Keeps customerAction (IsTripleFor sha256 (requests i)))
      (fun past o => HandlerCommitted sha256 (requests i) past o ∧ (LostRace past →
        o = .ok (idempotencyConflictResponse (rawRequestIdOf (requests i))))) []
      (handle sha256 ports (requests i)) := committed_handle hcalls (requests i)
  -- each request sees its own transactions; the database keeps them apart
  have hviews := views_of_keeps (fun _ _ _ _ h => h) hsafe h
  refine ⟨committed_of_reachable (fun _ _ _ _ h => h) hsafe h, nodup_dedupKeys hviews.admitted,
    fun i o hleft => ?_⟩
  have hsettled := h.safe (hsafe i)
  rw [hleft] at hsettled
  obtain ⟨hcommitted, hrace⟩ := hsettled
  have hfilter := hviews.filter_eq i
  have hnone (hview : viewAfter customerAction (cfg.past i) = ⟨none, []⟩) :
      cfg.state.committed.filter (fun tx => tx.1 = i) = [] := by rw [hfilter, hview, List.map_nil]
  have hother (hne : ∀ response, o = .ok response → response.outcome ≠ .committed) :
      cfg.state.committed.filter (fun tx => tx.1 = i) = [] := by
    cases o with
    | error e => exact hnone hcommitted
    | ok response =>
      rcases hcommitted with ⟨houtcome, -⟩ | ⟨-, hview⟩
      · exact absurd houtcome (hne response rfl)
      · exact hnone hview
  refine ⟨?_, hother, fun hlost => ⟨hrace hlost, hother ?_⟩⟩
  · rintro response rfl houtcome
    rcases hcommitted with ⟨-, ⟨t, ht, hview⟩, hreceipt⟩ | ⟨hne, -⟩
    · exact ⟨⟨t, ht, by rw [hfilter, hview, List.map_singleton]⟩, hreceipt⟩
    · exact absurd houtcome hne
  · rintro response hresponse
    obtain rfl := Except.ok.inj ((hrace hlost).symm.trans hresponse)
    exact nofun

/-! ## Two requests of one key -/

/-- What the database answers a statement with, for examples. -/
def Statement.sampleAnswer : (statement : Statement) → statement.Answer
  | begin => ()
  | beginTenantContext _ => ()
  | insertCustomer .. => ⟨lit "33333333-3333-4333-8333-333333333333", lit "2026-01-01T00:00:00.000Z"⟩
  | insertAudit .. => lit "44444444-4444-4444-8444-444444444444"
  | insertOutbox .. => lit "55555555-5555-4555-8555-555555555555"
  | commit => ()
  | rollback => ()

/-- The driver's class has another name than the kernel's conflict. -/
theorem error_ne_idempotencyConflictError : lit "error" ≠ lit "IdempotencyConflictError" := by
  decide

/-- What the driver rejects an insert with that the index of the deduplication keys refuses. -/
def duplicateDedupKey : Thrown :=
  .driver ⟨lit "error", some (lit "23505"), some (lit "transactional_outbox_tenant_dedup_key"),
    error_ne_idempotencyConflictError⟩

/-- A pool of one client beside a grant, as a program `i` meets them, for examples. -/
def granting (i : ℕ) : Outside kernel (Store ℕ ClientId CustomerRow) := fun c s =>
  match c with
  | .candidatesFor _ =>
      (.ok (.array .arrayPrototype
        [(some .data, AuthorizationEvaluator.legacyEntry "a" "allow" true)] 0), s)
  | .evaluateInvariants _ => (.ok (.truthy (.boolean true)), s)
  | .connect =>
      if s.holder 0 = none then (.ok 0, s.hand 0 (some i)) else (.error (.foreign none none), s)
  | .query client statement =>
      -- an insert that would repeat a key is answered by the unique constraint
      if ((s.session client).checks statement.effect true).all
          (fun writes => (dedupKeys (s.rows ++ writes)).Nodup) then
        (.ok statement.sampleAnswer, s.execute i client statement.effect true)
      else (.error duplicateDedupKey, s.execute i client statement.effect false)
  | .release client => (.ok (), s.hand client none)
  | .current => (.ok (some PolicyRequest.sample.action.principal), s)
  | c => ((DecisionLoggingPolicyDecisionPoint.memory sha256Hex c []).1, s)

/-- The sample's answers are ones that the database can give. -/
theorem answers_granting (requests : ℕ → JsValue) (i : ℕ) (c : Call)
    (s : Store ℕ ClientId CustomerRow) :
    (customerSystem sha256Hex plainPorts requests).Answers s i
      ⟨c, (granting i c s).1⟩ (granting i c s).2 := by
  cases c with
  | connect =>
    by_cases hfree : s.holder 0 = none
    · simp only [granting, if_pos hfree]
      exact .connect 0 hfree
    · simp only [granting, if_neg hfree]
      exact .none
  | query client statement =>
    by_cases hadmits : ((s.session client).checks statement.effect true).all
        (fun writes => (dedupKeys (s.rows ++ writes)).Nodup)
    · simp only [granting, if_pos hadmits]
      refine .statement client statement.effect true fun writes hwrites => ?_
      rw [hwrites, Option.all_some, decide_eq_true_iff] at hadmits
      exact hadmits
    · simp only [granting, if_neg hadmits]
      -- a statement that fails asks the constraints about nothing
      refine .statement client statement.effect false fun writes hwrites => ?_
      cases statement <;> cases hwrites
  | release client => exact .release client
  | _ => exact .none

/-- The first of two requests, run to its end. -/
def firstRun : Run kernel (Store ℕ ClientId CustomerRow) Response :=
  run (granting 0) (handle sha256Hex plainPorts sampleRequest) .empty

/-- The second one, run after it. -/
def secondRun : Run kernel (Store ℕ ClientId CustomerRow) Response :=
  run (granting 1) (handle sha256Hex plainPorts sampleRequest) firstRun.state

/-- Is the call the insert of an outbox row that the index refuses? -/
def isLostRace : Event kernel → Bool
  | ⟨.query _ (.insertOutbox ..), .error e⟩ => e.isDuplicateIdempotencyFingerprintError
  | _ => false

/-- A history that shows a lost race has lost one. -/
theorem lostRace_of_any {past : History kernel} (h : past.any isLostRace = true) :
    LostRace past := by
  obtain ⟨ev, hmem, hlost⟩ := List.any_eq_true.mp h
  unfold isLostRace at hlost
  split at hlost
  · exact ⟨_, _, _, _, _, _, hmem, hlost⟩
  · cases hlost

/-- The first request is committed, and the second one loses the race. -/
theorem firstRun_committed :
    (firstRun.outcome.map Response.outcome).toOption = some .committed := by
  decide +kernel

/-- The second run of the sample loses the race. -/
theorem secondRun_lostRace : secondRun.history.any isLostRace = true := by decide +kernel

theorem commits_at_most_once_race :
    ∃ cfg response,
      (customerSystem sha256Hex plainPorts fun _ => sampleRequest).Reachable .empty cfg ∧
      cfg.left 0 = .settled (.ok response) ∧ response.outcome = .committed ∧
      (∃ t : Triple, t.IsFor sha256Hex sampleRequest ∧
        cfg.state.committed.filter (fun tx => tx.1 = 0) = [(0, t.rows)]) ∧
      cfg.left 1 = .settled (.ok (idempotencyConflictResponse (rawRequestIdOf sampleRequest))) ∧
      cfg.state.committed.filter (fun tx => tx.1 = 1) = [] := by
  let sys := customerSystem sha256Hex plainPorts fun _ => sampleRequest
  have hinit : sys.Reachable .empty _ := .init
  have h₁ := hinit.ran (answers_granting (fun _ => sampleRequest) 0)
  have h₂ := h₁.ran (answers_granting (fun _ => sampleRequest) 1)
  -- what the two runs have left, and what the second one has done
  generalize hcfg : Config.ran _ (granting 1) 1 = cfg at h₂
  have hfirst : cfg.left 0 = .settled firstRun.outcome := by
    rw [← hcfg]
    rfl
  have hsecond : cfg.left 1 = .settled secondRun.outcome := by
    rw [← hcfg]
    rfl
  have hpast : cfg.past 1 = secondRun.history := by
    rw [← hcfg]
    rfl
  have hsettled := (commits_at_most_once sha256Hex (.inl rfl) (fun _ => sampleRequest) h₂).2.2
  have hlost := (hsettled 1 _ hsecond).2.2 (lostRace_of_any (hpast ▸ secondRun_lostRace))
  have hcommitted := firstRun_committed
  cases houtcome : firstRun.outcome with
  | error e =>
    rw [houtcome] at hcommitted
    cases hcommitted
  | ok response =>
    rw [houtcome] at hcommitted hfirst
    have hresponse : response.outcome = .committed := Option.some.inj hcommitted
    exact ⟨cfg, response, h₂, hfirst, hresponse,
      ((hsettled 0 _ hfirst).1 response rfl hresponse).1, hlost.1 ▸ hsecond, hlost.2⟩

end MetaframerKernel
