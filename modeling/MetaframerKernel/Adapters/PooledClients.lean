import MetaframerKernel.Adapters.ClientLifecycle
import MetaframerKernel.Adapters.PostgresDecisionLog
import MetaframerKernel.Consumers.CustomerDataCutover
import MetaframerKernel.Delivery.CustomerTransactions
import MetaframerKernel.Stores.Leaks

/-!
# Pooled clients

Units of work, appends and reads of the decision log and inserts of the customer application next to
each other over pooled clients. Every one of them gives its client back without an error, also when
the ROLLBACK on it was rejected, and then its transaction goes back to the pool with it. As long as
no ROLLBACK is rejected while a transaction is open, none does.

## Main definitions

* `Borrower`: what borrows a client, and its program;
* `pooled`: any number of borrowers next to each other over one pool;
* `RolledBack`: a step that does not leave a transaction behind a rejected ROLLBACK.

## Main results

* `tidy_program`: every borrower uses the client it holds, and returns it rolled back or committed;
* `pool_noLeak`: while every step is of this kind, a client in the pool has no transaction open, a
  BEGIN starts a transaction of its own, and what a borrower commits are its own statements;
* `pool_not_noLeak`: a rejected ROLLBACK hands a transaction to the next borrower.
-/

namespace MetaframerKernel.PooledClients

open Js Async Stores Program

/-! ## Borrowers -/

/-- The body of a unit of work: it uses the client it is given for statements of its own. -/
structure UnitBody where
  Result : Type
  run : ClientId → Program kernel Result
  ownCalls : ∀ client, Calls (WriteEnvelope.IsOwn client) (run client)

/-- What borrows a client. -/
inductive Borrower : Type 1 where
  | unitOfWork (body : UnitBody)
  | append (entry : DecisionLogEntry)
  | chainHead (tenantId : TenantId)
  | insert (activeWriter : CustomerDataCutover.Writer)
      (adapter : CustomerDataCutover.AdapterInsert) (record insertOptions : JsValue)

namespace Borrower

/-- What a borrower calls. -/
@[reducible]
def interface : Borrower → Interface
  | unitOfWork _ => kernel
  | append _ => PostgresDecisionLog.driver
  | chainHead _ => PostgresDecisionLog.driver
  | insert .. => CustomerDataCutover.cutover

/-- What a borrower answers. -/
@[reducible]
def Result : Borrower → Type
  | unitOfWork body => body.Result
  | append _ => DecisionLogRow.AppendReceipt
  | chainHead _ => Option JsString
  | insert .. => JsValue

/-- The program of a borrower. -/
def program (sha256 : ByteArray → JsString) : (b : Borrower) → Program b.interface b.Result
  | unitOfWork body =>
      UnitOfWork.runScope PostgresUnitOfWork.begin PostgresUnitOfWork.commit
        PostgresUnitOfWork.rollback body.run
  | append entry => PostgresDecisionLog.append sha256 entry
  | chainHead tenantId => PostgresDecisionLog.chainHead tenantId
  | insert activeWriter adapter record insertOptions =>
      CustomerDataCutover.insert activeWriter adapter record insertOptions

end Borrower

/-! ## Statements -/

/-- What a borrower writes in a transaction. -/
inductive Written where
  | customer (row : CustomerRow)
  | decision (row : PostgresDecisionLog.LogRow)
  | application (sql : JsString) (params : List JsValue)

/-- A statement of a unit of work. -/
def unitStatement : MetaframerKernel.Statement → Stores.Statement Written
  | .begin => .begin
  | .beginTenantContext _ => .read
  | .insertCustomer tenantId name payload =>
      .write (.customer (.customerRecord tenantId name payload))
  | .insertAudit tenantId eventType actorId correlationId details =>
      .write (.customer (.auditLog tenantId eventType actorId correlationId details))
  | .insertOutbox tenantId eventType correlationId dedupKey =>
      .write (.customer (.transactionalOutbox tenantId eventType correlationId dedupKey))
  | .commit => .commit
  | .rollback => .rollback

/-- A statement of the decision log. -/
def logStatement : PostgresDecisionLog.LogStatement → Stores.Statement Written
  | .begin => .begin
  | .beginTenantContext _ => .read
  | .insertEntry id tenantId entryHash prevHash payload =>
      .write (.decision ⟨id, tenantId, entryHash, prevHash, jsonParse payload⟩)
  | .selectHead _ => .read
  | .commit => .commit
  | .rollback => .rollback

/-- A statement of the customer application. -/
def cutoverStatement : CustomerDataCutover.CutoverStatement → Stores.Statement Written
  | .begin => .begin
  | .beginTenantContext _ => .read
  | .adapter sql params => .write (.application sql params)
  | .commit => .commit
  | .rollback => .rollback

/-- What a call of a unit of work is to the clients. -/
def unitAction : Event kernel → Stores.Action ClientId Written
  | ⟨.connect, .ok client⟩ => .connect client
  | ⟨.query client statement, r⟩ => .statement client (unitStatement statement) r.isOk
  | ⟨.release client, _⟩ => .release client
  | _ => .none

/-- What a call of the decision log is to the clients. -/
def logAction : Event PostgresDecisionLog.driver → Stores.Action ClientId Written
  | ⟨.connect, .ok client⟩ => .connect client
  | ⟨.connect, .error _⟩ => .none
  | ⟨.query client statement, r⟩ => .statement client (logStatement statement) r.isOk
  | ⟨.release client, _⟩ => .release client

/-- What a call of the customer application is to the clients. -/
def cutoverAction : Event CustomerDataCutover.cutover → Stores.Action ClientId Written
  | ⟨.legacyInsert _ _, _⟩ => .none
  | ⟨.connect, .ok client⟩ => .connect client
  | ⟨.connect, .error _⟩ => .none
  | ⟨.query client statement, r⟩ => .statement client (cutoverStatement statement) r.isOk
  | ⟨.release client, _⟩ => .release client

/-- What a call of a borrower is to the clients. -/
def Borrower.action : (b : Borrower) → Event b.interface → Stores.Action ClientId Written
  | .unitOfWork _ => unitAction
  | .append _ => logAction
  | .chainHead _ => logAction
  | .insert .. => cutoverAction

/-- Borrowers next to each other over one pool, whatever each of their calls settles to. -/
def pooled (sha256 : ByteArray → JsString) (borrowers : ℕ → Borrower) :
    Mixed ℕ (Store ℕ ClientId Written) where
  interface i := (borrowers i).interface
  result i := (borrowers i).Result
  program i := (borrowers i).program sha256
  Answers s i ev s' := s.PooledStep i ((borrowers i).action ev) s'

/-! ## Every borrower is tidy -/

section Tidy

/-- The statements of the body of a unit of work. -/
theorem isOwnCall_of_isOwn {client : ClientId} {c : Call} (h : WriteEnvelope.IsOwn client c) :
    IsOwnCall (I := kernel) unitAction client c := by
  intro r
  cases c with
  | connect => exact h.elim
  | release k => exact h.elim
  | query k st =>
    right
    obtain ⟨rfl, hne⟩ : k = client ∧ unitStatement st ≠ .begin := by
      cases st with
      | begin => exact h.elim
      | commit => exact h.elim
      | rollback => exact h.elim
      | _ => exact ⟨h, nofun⟩
    exact ⟨_, _, hne, rfl⟩
  | _ => exact .inl rfl

/-- A client that has begun, or none. -/
theorem tidy_begin {past : History kernel} (h : HoldsNone (I := kernel) unitAction past) :
    Safe (I := kernel) (Tidy unitAction)
      (fun past (o : Except Thrown ClientId) => match o with
        | .ok client => Holds (I := kernel) unitAction client past
        | .error _ => HoldsNone (I := kernel) unitAction past) past PostgresUnitOfWork.begin := by
  refine (tidy_connect id (fun _ => rfl) (fun _ => rfl) h).bind ?_ fun _ _ h => h
  intro past client hidle
  -- a `BEGIN` that fails gives the client back before the error is thrown
  have hbegin : Safe (I := kernel) (Tidy unitAction)
      (fun past (o : Except Thrown Unit) => match o with
        | .ok _ => Holds (I := kernel) unitAction client past
        | .error _ => HoldsNone (I := kernel) unitAction past) past
      (tryCatch (query client .begin) fun error => do
        let _ ← release client
        throw error) := by
    have hquery := tidy_statement (I := kernel) (c := .query client .begin) (fun _ => rfl) hidle
    refine hquery.tryCatch (fun _ _ h => ⟨_, h⟩) ?_
    intro past e hfailed
    refine (Safe.regardless (tidy_release (fun _ => rfl) hfailed)).bind (fun _ _ h => h.1) ?_
    rintro past _ ⟨-, h⟩
    cases h
  exact hbegin.bind (fun _ _ h => h) fun _ _ h => h

/-- The client is returned, whichever way its ROLLBACK settles. -/
theorem tidy_rollbackClient {past : History kernel} {client : ClientId}
    (h : Holds (I := kernel) unitAction client past) :
    Safe (I := kernel) (Tidy unitAction) (fun past _ => HoldsNone (I := kernel) unitAction past)
      past (PostgresUnitOfWork.rollback client) := by
  refine (tidy_rollback (fun _ => rfl) h).ensuring fun past o hidle => ?_
  exact (Safe.regardless (tidy_release (fun _ => rfl) hidle)).mono fun _ _ h => h.1

/-- The client is returned, whichever way its COMMIT settles. -/
theorem tidy_commitClient {past : History kernel} {client : ClientId}
    (h : Holds (I := kernel) unitAction client past) :
    Safe (I := kernel) (Tidy unitAction) (fun past _ => HoldsNone (I := kernel) unitAction past)
      past (PostgresUnitOfWork.commit client) := by
  have hclosed : Safe (I := kernel) (Tidy unitAction)
      (fun past (_ : Except Thrown Unit) => HoldsIdle (I := kernel) unitAction client past) past
      (tryCatch (query client .commit) fun error => do
        let _ ← (query client .rollback).regardless
        throw error) := by
    refine (tidy_commit (fun _ => rfl) h).tryCatch (fun _ _ h => h) ?_
    intro past e hheld
    refine (Safe.regardless (tidy_rollback (fun _ => rfl) hheld)).bind (fun _ _ h => h.1) ?_
    rintro past _ ⟨-, h⟩
    cases h
  refine hclosed.ensuring fun past o hidle => ?_
  exact (Safe.regardless (tidy_release (fun _ => rfl) hidle)).mono fun _ _ h => h.1

/-- A unit of work returns its client. -/
theorem tidy_unitOfWork (body : UnitBody) :
    Safe (I := kernel) (Tidy unitAction) (fun past _ => HoldsNone (I := kernel) unitAction past) []
      (UnitOfWork.runScope PostgresUnitOfWork.begin PostgresUnitOfWork.commit
        PostgresUnitOfWork.rollback body.run) := by
  have hstart : HoldsNone (I := kernel) unitAction [] := rfl
  refine (tidy_begin hstart).bind ?_ fun _ _ h => h
  intro past client hbegun
  have hown : Calls (I := kernel) (IsOwnCall (I := kernel) unitAction client) (body.run client) :=
    (body.ownCalls client).mono fun c hc => isOwnCall_of_isOwn hc
  -- a body that fails is rolled back, and its failure is thrown again
  have hbody : Safe (I := kernel) (Tidy unitAction)
      (fun past (o : Except Thrown body.Result) => match o with
        | .ok _ => Holds (I := kernel) unitAction client past
        | .error _ => HoldsNone (I := kernel) unitAction past) past
      (tryCatch (body.run client) fun failure => do
        let _ ← (PostgresUnitOfWork.rollback client).regardless
        throw failure) := by
    refine (tidy_own hown hbegun).tryCatch (fun _ _ h => h) ?_
    intro past failure hheld
    refine (Safe.regardless (tidy_rollbackClient hheld)).bind (fun _ _ h => h.1) ?_
    rintro past _ ⟨-, h⟩
    cases h
  refine hbody.bind ?_ fun _ _ h => h
  intro past value hheld
  exact (tidy_commitClient hheld).bind (fun _ _ h => h) fun _ _ h => h

/-- The statements of the decision log between BEGIN and COMMIT. -/
theorem isOwnCall_log (client : ClientId) {st : PostgresDecisionLog.LogStatement}
    (h : logStatement st ≠ .begin) :
    IsOwnCall (I := PostgresDecisionLog.driver) logAction client (.query client st) :=
  fun _ => .inr ⟨_, _, h, rfl⟩

/-- An append returns its client. -/
theorem tidy_append (sha256 : ByteArray → JsString) (entry : DecisionLogEntry) :
    Safe (I := PostgresDecisionLog.driver) (Tidy logAction)
      (fun past _ => HoldsNone (I := PostgresDecisionLog.driver) logAction past) []
      (PostgresDecisionLog.append sha256 entry) := by
  -- the shape that the rule for a transaction asks for: BEGIN, the statements of its own, COMMIT
  have hshape (client : ClientId) : PostgresDecisionLog.appendTransaction sha256 entry client =
      Program.ask (I := PostgresDecisionLog.driver) (.query client .begin) >>= fun _ =>
        (do
          let _ ← PostgresDecisionLog.query client
            (.beginTenantContext entry.request.tenantId.value)
          let row ← PostgresDecisionLog.query client (.insertEntry entry.id
            entry.request.tenantId.value (entry.entryHash sha256) entry.prevHash
            entry.plainPayloadOf.stringify)
          Program.sync (PostgresDecisionLog.verified sha256 row)) >>= fun receipt =>
        Program.ask (I := PostgresDecisionLog.driver) (.query client .commit) >>= fun _ =>
          pure receipt := by
    simp only [PostgresDecisionLog.appendTransaction, PostgresDecisionLog.query, bind_assoc]
  rw [PostgresDecisionLog.append_eq]
  simp only [hshape]
  refine tidy_transaction id rfl (fun _ => rfl) (fun _ => rfl) (fun _ _ => rfl) (fun _ _ => rfl)
    (fun _ _ => rfl) (fun _ _ => rfl) fun client => ?_
  refine Calls.askBind (isOwnCall_log client (by rintro ⟨⟩)) fun _ => ?_
  exact Calls.askBind (isOwnCall_log client (by rintro ⟨⟩)) fun row => trivial

/-- Reading a head returns its client. -/
theorem tidy_chainHead (tenantId : TenantId) :
    Safe (I := PostgresDecisionLog.driver) (Tidy logAction)
      (fun past _ => HoldsNone (I := PostgresDecisionLog.driver) logAction past) []
      (PostgresDecisionLog.chainHead tenantId) := by
  -- the shape that the rule for a transaction asks for
  have hshape : PostgresDecisionLog.chainHead tenantId =
      Program.ask (I := PostgresDecisionLog.driver) .connect >>= fun client : ClientId =>
        Program.ensuring
          (tryCatch
            (Program.ask (I := PostgresDecisionLog.driver) (.query client .begin) >>= fun _ =>
              (do
                let _ ← PostgresDecisionLog.query client (.beginTenantContext tenantId.value)
                PostgresDecisionLog.query client (.selectHead tenantId.value)) >>= fun rows =>
              Program.ask (I := PostgresDecisionLog.driver) (.query client .commit) >>= fun _ =>
                pure rows.head?)
            fun error => do
              let _ ← (Program.ask (I := PostgresDecisionLog.driver)
                (.query client .rollback)).regardless
              throw error)
          (Program.ask (I := PostgresDecisionLog.driver) (.release client)).regardless := by
    simp only [PostgresDecisionLog.chainHead, PostgresDecisionLog.query,
      PostgresDecisionLog.release, bind_assoc]
  rw [hshape]
  refine tidy_transaction id rfl (fun _ => rfl) (fun _ => rfl) (fun _ _ => rfl) (fun _ _ => rfl)
    (fun _ _ => rfl) (fun _ _ => rfl) fun client => ?_
  refine Calls.askBind (isOwnCall_log client (by rintro ⟨⟩)) fun _ => ?_
  exact Calls.ask (isOwnCall_log client (by rintro ⟨⟩))

/-- The insert of the cutover returns its client. -/
theorem tidy_insert (activeWriter : CustomerDataCutover.Writer)
    (adapter : CustomerDataCutover.AdapterInsert) (record insertOptions : JsValue) :
    Safe (I := CustomerDataCutover.cutover) (Tidy cutoverAction)
      (fun past _ => HoldsNone (I := CustomerDataCutover.cutover) cutoverAction past) []
      (CustomerDataCutover.insert activeWriter adapter record insertOptions) := by
  have hown (client : ClientId) {st : CustomerDataCutover.CutoverStatement}
      (h : cutoverStatement st ≠ .begin) :
      IsOwnCall (I := CustomerDataCutover.cutover) cutoverAction client (.query client st) :=
    fun _ => .inr ⟨_, _, h, rfl⟩
  cases activeWriter with
  | legacy =>
    -- the legacy writer has no client of the pool
    exact ⟨fun _ => ⟨trivial, nofun⟩, fun _ => rfl⟩
  | application =>
    have hshape (client : ClientId) :
        CustomerDataCutover.insertTransaction adapter record insertOptions client =
          Program.ask (I := CustomerDataCutover.cutover) (.query client .begin) >>= fun _ =>
            (do
              let _ ← CustomerDataCutover.query client
                (.beginTenantContext (CustomerDataCutover.tenantIdOf insertOptions))
              adapter.run record insertOptions client) >>= fun result =>
            Program.ask (I := CustomerDataCutover.cutover) (.query client .commit) >>= fun _ =>
              pure result := by
      simp only [CustomerDataCutover.insertTransaction, CustomerDataCutover.query, bind_assoc]
    simp only [CustomerDataCutover.insert, CustomerDataCutover.query, hshape]
    refine tidy_transaction id rfl (fun _ => rfl) (fun _ => rfl) (fun _ _ => rfl)
      (fun _ _ => rfl) (fun _ _ => rfl) (fun _ _ => rfl) fun client => ?_
    refine Calls.askBind (hown client nofun) fun _ => ?_
    refine (adapter.queriesOnly record insertOptions client).mono fun c hc => ?_
    cases c with
    | query k st =>
      cases st with
      | adapter sql params =>
        obtain rfl : k = client := hc
        exact hown k nofun
      | _ => exact hc.elim
    | _ => exact hc.elim

/-- Every borrower uses the client it holds, begins on it while it is idle and returns it rolled
back or committed. -/
theorem tidy_program (sha256 : ByteArray → JsString) (b : Borrower) :
    Safe (Tidy b.action) (fun past _ => HoldsNone b.action past) [] (b.program sha256) := by
  cases b with
  | unitOfWork body => exact tidy_unitOfWork body
  | append entry => exact tidy_append sha256 entry
  | chainHead tenantId => exact tidy_chainHead tenantId
  | insert activeWriter adapter record insertOptions =>
    exact tidy_insert activeWriter adapter record insertOptions

end Tidy

/-! ## The pool -/

/-- No client in the pool has a transaction open; a BEGIN finds its client idle, so that it starts
a transaction; and what each borrower has committed is what its own calls commit. -/
structure NoLeak {sha256 : ByteArray → JsString} {borrowers : ℕ → Borrower}
    (cfg : (pooled sha256 borrowers).Config) : Prop where
  returned : ∀ k, cfg.state.holder k = none → cfg.state.session k = .idle
  fresh : ∀ i c next r k ok, cfg.left i = await c next →
    (borrowers i).action ⟨c, r⟩ = .statement k .begin ok → cfg.state.session k = .idle
  own : ∀ i, (cfg.state.committed.filter fun tx => tx.1 = i).map Prod.snd =
    (viewAfter (borrowers i).action (cfg.past i)).done

/-- A ROLLBACK is rejected on a client without an open transaction only. -/
def RolledBack (borrowers : ℕ → Borrower) (s : Store ℕ ClientId Written) (i : ℕ)
    (ev : Event (borrowers i).interface) : Prop :=
  Undisturbed s ((borrowers i).action ev)

/-- In every run in which no ROLLBACK is rejected on an open transaction, no transaction leaks
through the pool. -/
theorem pool_noLeak (sha256 : ByteArray → JsString) (borrowers : ℕ → Borrower)
    (cfg : (pooled sha256 borrowers).Config)
    (h : ((pooled sha256 borrowers).only (RolledBack borrowers)).Reachable .empty cfg) :
    NoLeak cfg := by
  have hviews := views_of_undisturbed (fun _ _ _ _ hanswers => hanswers)
    (fun i => tidy_program sha256 (borrowers i)) h
  refine ⟨hviews.free, ?_, fun i => (hviews.done i).symm⟩
  intro i c next r k ok hleft hbegin
  have hsafe := h.safe (tidy_program sha256 (borrowers i))
  rw [hleft] at hsafe
  exact (hviews.held i k .idle ((hsafe.1 r).2 k ok hbegin)).2

/-- A body that inserts a customer and then fails. -/
def failingBody : UnitBody where
  Result := Unit
  run client := do
    let _ : InsertedCustomer ← query client (.insertCustomer [] [] [])
    throw (.foreign none none)
  ownCalls _ := Calls.askBind rfl fun _ => trivial

/-- A body that does nothing. -/
def emptyBody : UnitBody where
  Result := Unit
  run _ := pure ()
  ownCalls _ := trivial

/-- A unit of work that fails, and others that do nothing. -/
def sampleBorrowers (i : ℕ) : Borrower :=
  match i with
  | 0 => .unitOfWork failingBody
  | _ => .unitOfWork emptyBody

/-- The row of the body that fails. -/
def sampleRow : Written := .customer (.customerRecord [] [] [])

section Runs

variable {sys : Mixed ℕ (Store ℕ ClientId Written)} {cfg : sys.Config}

/-- The next configuration of a run, by the call that is answered. -/
theorem reachable_call (h : sys.Reachable .empty cfg) (i : ℕ) {c : (sys.interface i).Call}
    {next : (sys.interface i).Settled c → Program (sys.interface i) (sys.result i)}
    (hleft : cfg.left i = .await c next) (r : (sys.interface i).Settled c)
    (s' : Store ℕ ClientId Written) (hanswers : sys.Answers cfg.state i ⟨c, r⟩ s') :
    sys.Reachable .empty ⟨s', Function.update cfg.left i (next r),
      Function.update cfg.past i (cfg.past i ++ [⟨c, r⟩])⟩ :=
  h.step (.call hleft hanswers)

end Runs

/-- The first unit of work fails, its ROLLBACK is rejected, and the second one, which does nothing,
commits the row of the first. -/
theorem pool_not_noLeak :
    ∃ cfg, (pooled (fun _ => []) sampleBorrowers).Reachable .empty cfg ∧
      cfg.left 0 = .settled (.error (.foreign none none)) ∧
      cfg.state.committed = [(1, [sampleRow])] ∧ ¬NoLeak cfg := by
  -- the first borrower leaves its row in an open transaction, which the second one commits
  let s₁ : Store ℕ ClientId Written := Store.empty.hand 7 (some 0)
  let s₂ := s₁.execute 0 7 .begin true
  let s₃ := s₂.execute 0 7 (.write sampleRow) true
  let s₄ := s₃.hand 7 none
  let s₅ := s₄.hand 7 (some 1)
  let s₆ := s₅.execute 1 7 .begin true
  let s₇ := s₆.execute 1 7 .commit true
  have h₀ : (pooled (fun _ => []) sampleBorrowers).Reachable .empty _ := .init
  have h₁ := reachable_call h₀ 0 rfl (.ok (7 : ClientId)) s₁ (.connect 7 rfl)
  have h₂ := reachable_call h₁ 0 rfl (.ok ()) s₂ (.statement 7 .begin true nofun)
  have h₃ := reachable_call h₂ 0 rfl (.ok (⟨[], []⟩ : InsertedCustomer)) s₃
    (.statement 7 (.write sampleRow) true nofun)
  have h₄ := reachable_call h₃ 0 rfl (.error (.foreign none none)) s₃ (.notRolledBack 7)
  have h₅ := reachable_call h₄ 0 rfl (.ok ()) s₄ (.release 7)
  have h₆ := reachable_call h₅ 1 rfl (.ok (7 : ClientId)) s₅ (.connect 7 rfl)
  have h₇ := reachable_call h₆ 1 rfl (.ok ()) s₆ (.statement 7 .begin true nofun)
  have h₈ := reachable_call h₇ 1 rfl (.ok ()) s₇ (.statement 7 .commit true nofun)
  refine ⟨_, h₈, rfl, rfl, fun hleak => ?_⟩
  have hown := hleak.own 1
  cases hown

/-- The same run with its ROLLBACK fulfilled, up to where the first unit of work has settled. -/
theorem pool_noLeak_sample :
    ∃ cfg : (pooled (fun _ => []) sampleBorrowers).Config,
      cfg.left 0 = .settled (.error (.foreign none none)) ∧ cfg.state.committed = [] ∧
        NoLeak cfg := by
  let s₁ : Store ℕ ClientId Written := Store.empty.hand 7 (some 0)
  let s₂ := s₁.execute 0 7 .begin true
  let s₃ := s₂.execute 0 7 (.write sampleRow) true
  let s₄ := s₃.execute 0 7 .rollback true
  let s₅ := s₄.hand 7 none
  have h₀ : ((pooled (fun _ => []) sampleBorrowers).only (RolledBack sampleBorrowers)).Reachable
    .empty _ := .init
  have h₁ := reachable_call h₀ 0 rfl (.ok (7 : ClientId)) s₁ ⟨.connect 7 rfl, nofun⟩
  have h₂ := reachable_call h₁ 0 rfl (.ok ()) s₂ ⟨.statement 7 .begin true nofun, nofun⟩
  have h₃ := reachable_call h₂ 0 rfl (.ok (⟨[], []⟩ : InsertedCustomer)) s₃
    ⟨.statement 7 (.write sampleRow) true nofun, nofun⟩
  have h₄ := reachable_call h₃ 0 rfl (.ok ()) s₄
    ⟨.statement 7 .rollback true fun _ => rfl, nofun⟩
  have h₅ := reachable_call h₄ 0 rfl (.ok ()) s₅ ⟨.release 7, nofun⟩
  exact ⟨_, rfl, rfl, pool_noLeak (fun _ => []) sampleBorrowers _ h₅⟩

end MetaframerKernel.PooledClients
