import MetaframerKernel.Adapters.PostgresWriteEnvelopeWrite

/-!
# The client of a write

A client is taken by `begin`, handed to the write, and returned by `begin`, by `commit` or by
`rollback`. Wherever the calls of a write envelope fail, the client is returned once, as the last
call, and what is called in between depends on how the write ended.

## Main definitions

* `WriteEnvelope.Write`: a write, which uses the client it is given for statements of its own;
* `WriteEnvelope.commit`: `WriteEnvelope.commit` over the PostgreSQL unit of work;
* `WriteEnvelope.Lifecycle`: the calls of one `commit`.

## Main results

* `WriteEnvelope.safe_commit`: every `commit` has such a lifecycle;
* `WriteEnvelope.commit_lifecycle`: its client is returned once and not used afterwards, a receipt
  means a fulfilled COMMIT, COMMIT follows a write that succeeded, and a transaction that was begun
  and is not answered with a receipt has been rolled back;
* `WriteEnvelope.commit_postgresWrite`: the customer write is such a write.
-/

namespace MetaframerKernel.WriteEnvelope

open Js Async Program CreateCustomerPipeline

/-! ## Writes -/

/-- A call that leaves the pool alone, and of the clients uses the given one only, for statements
that neither begin nor end a transaction. -/
def IsOwn (client : ClientId) : Call → Prop
  | .connect => False
  | .release _ => False
  | .query _ .begin => False
  | .query _ .commit => False
  | .query _ .rollback => False
  | .query k _ => k = client
  | _ => True

/-- A `write`: it resolves to a receipt, or to something else. -/
structure Write where
  run : ClientId → Program kernel (Option CommitReceipt)
  ownCalls : ∀ client, Calls (IsOwn client) (run client)

/-- The check of what the write has resolved to. -/
def receiptOf : Option CommitReceipt → Except NativeError CommitReceipt
  | some receipt => .ok receipt
  | none => .error (.typeError (lit "WriteEnvelope write must resolve to an exact CommitReceipt"))

/-- The body of `commit`: the write, and the check. -/
def body (write : Write) (client : ClientId) : Program kernel CommitReceipt := do
  let result ← write.run client
  Program.sync (orThrow (receiptOf result))

/-- `commit` -/
def commit (write : Write) : Program kernel CommitReceipt :=
  UnitOfWork.runScope PostgresUnitOfWork.begin PostgresUnitOfWork.commit PostgresUnitOfWork.rollback
    (body write)

/-- The body of a write uses its own client only. -/
theorem calls_body (write : Write) (client : ClientId) : Calls (IsOwn client) (body write client) :=
  (write.ownCalls client).bind fun _ => trivial

/-! ## The lifecycle -/

/-- The calls of a `begin` that resolves. -/
def begun (client : ClientId) : History kernel :=
  [⟨.connect, .ok client⟩, ⟨.query client .begin, .ok ()⟩]

/-- What one `commit` has called when it settles, and its outcome. -/
inductive Lifecycle (write : Write) : History kernel → Except Thrown CommitReceipt → Prop
  | noClient (e : Thrown) : Lifecycle write [⟨.connect, .error e⟩] (.error e)
  | notBegun (client : ClientId) (e : Thrown) (u : Except Thrown Unit) :
      Lifecycle write
        [⟨.connect, .ok client⟩, ⟨.query client .begin, .error e⟩, ⟨.release client, u⟩]
        (.error e)
  | rolledBack (client : ClientId) (wrote : History kernel) (e : Thrown)
      (r u : Except Thrown Unit) : Steps (body write client) wrote (settled (.error e)) →
      Lifecycle write
        (begun client ++ wrote ++ [⟨.query client .rollback, r⟩] ++ [⟨.release client, u⟩])
        (.error e)
  | committed (client : ClientId) (wrote : History kernel) (receipt : CommitReceipt)
      (u : Except Thrown Unit) : Steps (body write client) wrote (settled (.ok receipt)) →
      Lifecycle write
        (begun client ++ wrote ++ [⟨.query client .commit, .ok ()⟩] ++ [⟨.release client, u⟩])
        (.ok receipt)
  | notCommitted (client : ClientId) (wrote : History kernel) (receipt : CommitReceipt)
      (e : Thrown) (r u : Except Thrown Unit) :
      Steps (body write client) wrote (settled (.ok receipt)) →
      Lifecycle write
        (begun client ++ wrote ++ [⟨.query client .commit, .error e⟩] ++
          [⟨.query client .rollback, r⟩] ++ [⟨.release client, u⟩])
        (.error e)

/-- Every `commit` goes through such a lifecycle. -/
theorem safe_commit (write : Write) :
    Safe (fun _ _ => True) (Lifecycle write) [] (commit write) := by
  have hbegin : Safe (fun _ _ => True)
      (fun (past : History kernel) (o : Except Thrown ClientId) => match o with
        | .ok client => past = begun client
        | .error e => Lifecycle write past (.error e)) [] PostgresUnitOfWork.begin := by
    refine ⟨trivial, fun r => ?_⟩
    cases r with
    | error e => exact .noClient e
    | ok client =>
      refine ⟨trivial, fun r => ?_⟩
      cases r with
      | ok _ => exact rfl
      | error e => exact ⟨trivial, fun u => .notBegun client e u⟩
  refine hbegin.bind ?_ fun _ _ h => h
  rintro _ client rfl
  have hbody : Safe (fun _ _ => True)
      (fun (past : History kernel) (o : Except Thrown CommitReceipt) => match o with
        | .ok receipt => ∃ wrote, Steps (body write client) wrote (settled (.ok receipt)) ∧
            past = begun client ++ wrote
        | .error e => Lifecycle write past (.error e)) (begun client)
      (tryCatch (body write client) fun failure => do
        let _ ← (PostgresUnitOfWork.rollback client).regardless
        throw failure) := by
    refine ((Safe.self _ (body write client)).weaken fun _ _ _ => trivial).tryCatch ?_ ?_
    · rintro past receipt ⟨wrote, rfl, hsteps⟩
      exact ⟨wrote, hsteps, rfl⟩
    · rintro past e ⟨wrote, rfl, hsteps⟩
      -- a rejected ROLLBACK is followed by the release as well
      refine ⟨trivial, fun r => ?_⟩
      cases r with
      | ok _ => exact ⟨trivial, fun u => .rolledBack client wrote e (.ok ()) u hsteps⟩
      | error e' => exact ⟨trivial, fun u => .rolledBack client wrote e (.error e') u hsteps⟩
  refine hbody.bind ?_ fun _ _ h => h
  rintro _ receipt ⟨wrote, hsteps, rfl⟩
  refine ⟨trivial, fun r => ?_⟩
  cases r with
  | ok _ => exact ⟨trivial, fun u => .committed client wrote receipt u hsteps⟩
  | error e =>
    refine ⟨trivial, fun r => ⟨trivial, fun u => ?_⟩⟩
    exact .notCommitted client wrote receipt e r u hsteps

/-! ## What the lifecycle says -/

/-- A call that takes or returns a client. -/
def IsLease : Call → Prop
  | .connect => True
  | .release _ => True
  | _ => False

/-- The client of the history is returned by its last call, and only there; every statement before
is on that client. -/
def ReturnedOnce (client : ClientId) (history : History kernel) : Prop :=
  ∃ used u, history = ⟨.connect, .ok client⟩ :: used ++ [⟨.release client, u⟩] ∧
    ∀ ev ∈ used, ¬IsLease ev.1 ∧ ∀ k st, ev.1 = .query k st → k = client

/-- A call of its own client is no lease, and queries that client. -/
theorem IsOwn.used {client : ClientId} {c : Call} (h : IsOwn client c) :
    ¬IsLease c ∧ ∀ k st, c = .query k st → k = client := by
  refine ⟨fun hlease => ?_, ?_⟩
  · cases c with
    | connect => exact h
    | release k => exact h
    | _ => exact hlease
  · rintro k st rfl
    cases st with
    | begin => exact h.elim
    | commit => exact h.elim
    | rollback => exact h.elim
    | _ => exact h

/-- A statement of the unit of work itself. -/
theorem used_query (client : ClientId) (st : Statement) :
    ¬IsLease (.query client st) ∧
      ∀ k st', (Call.query client st) = .query k st' → k = client := by
  refine ⟨id, ?_⟩
  rintro k st' ⟨⟩
  rfl

/-- What a write has called is its own. -/
theorem own_of_steps {write : Write} {client : ClientId} {wrote : History kernel}
    {p : Program kernel CommitReceipt} (h : Steps (body write client) wrote p) :
    ∀ ev ∈ wrote, IsOwn client ev.1 :=
  ((calls_body write client).of_steps h).1

variable {write : Write} {history : History kernel} {o : Except Thrown CommitReceipt}

/-- Between the calls that take and return the client there are uses of it. -/
theorem Lifecycle.returned (h : Lifecycle write history o) :
    (∃ e, history = [⟨.connect, .error e⟩]) ∨ ∃ client, ReturnedOnce client history := by
  -- what the body calls is a use of its own client
  have hown {client : ClientId} {wrote : History kernel} {p : Program kernel CommitReceipt}
      (hsteps : Steps (body write client) wrote p) (ev : Event kernel) (hev : ev ∈ wrote) :
      ¬IsLease ev.1 ∧ ∀ k st, ev.1 = .query k st → k = client :=
    (own_of_steps hsteps ev hev).used
  cases h with
  | noClient e => exact .inl ⟨e, rfl⟩
  | notBegun client e u =>
    refine .inr ⟨client, [⟨.query client .begin, .error e⟩], u, rfl, ?_⟩
    intro ev hev
    rw [List.mem_singleton.mp hev]
    exact used_query client .begin
  | rolledBack client wrote e r u hsteps =>
    refine .inr ⟨client, ⟨.query client .begin, .ok ()⟩ :: wrote ++ [⟨.query client .rollback, r⟩],
      u, rfl, ?_⟩
    simp only [List.cons_append, List.forall_mem_cons, List.forall_mem_append, List.not_mem_nil,
      false_imp_iff, implies_true, and_true]
    exact ⟨used_query client .begin, hown hsteps, used_query client .rollback⟩
  | committed client wrote receipt u hsteps =>
    refine .inr ⟨client,
      ⟨.query client .begin, .ok ()⟩ :: wrote ++ [⟨.query client .commit, .ok ()⟩], u, rfl, ?_⟩
    simp only [List.cons_append, List.forall_mem_cons, List.forall_mem_append, List.not_mem_nil,
      false_imp_iff, implies_true, and_true]
    exact ⟨used_query client .begin, hown hsteps, used_query client .commit⟩
  | notCommitted client wrote receipt e r u hsteps =>
    refine .inr ⟨client, ⟨.query client .begin, .ok ()⟩ :: wrote ++
      [⟨.query client .commit, .error e⟩] ++ [⟨.query client .rollback, r⟩], u, rfl, ?_⟩
    simp only [List.cons_append, List.forall_mem_cons, List.forall_mem_append, List.not_mem_nil,
      false_imp_iff, implies_true, and_true]
    exact ⟨used_query client .begin, ⟨hown hsteps, used_query client .commit⟩,
      used_query client .rollback⟩

/-- A client that is taken is returned by the last call. -/
theorem Lifecycle.returnedOnce (h : Lifecycle write history o) {client : ClientId}
    (hclient : (⟨.connect, .ok client⟩ : Event kernel) ∈ history) :
    ReturnedOnce client history := by
  rcases h.returned with ⟨e, rfl⟩ | ⟨k, used, u, rfl, hused⟩
  · simp at hclient
  · -- the history takes no other client
    have hk : client = k := by
      simp only [List.cons_append, List.mem_cons, List.mem_append, List.not_mem_nil,
        or_false] at hclient
      rcases hclient with heq | hmem | heq
      · simpa using heq
      · exact absurd trivial (hused _ hmem).1
      · cases heq
    rw [hk]
    exact ⟨used, u, rfl, hused⟩

/-- A receipt is answered after a fulfilled COMMIT. -/
theorem Lifecycle.committed_of_ok {receipt : CommitReceipt}
    (h : Lifecycle write history (.ok receipt)) :
    ∃ client, (⟨.connect, .ok client⟩ : Event kernel) ∈ history ∧
      (⟨.query client .commit, .ok ()⟩ : Event kernel) ∈ history := by
  cases h with
  | committed client wrote _ u hsteps => exact ⟨client, by simp [begun], by simp⟩

/-- Neither `begin` nor the write has issued a COMMIT. -/
theorem notMem_commit {client k : ClientId} {wrote : History kernel}
    {p : Program kernel CommitReceipt} (h : Steps (body write client) wrote p)
    (x : Except Thrown Unit) :
    (⟨.query k .commit, x⟩ : Event kernel) ∉ begun client ++ wrote := by
  intro hmem
  rcases List.mem_append.mp hmem with hbegun | hwrote
  · simp [begun] at hbegun
  · exact own_of_steps h _ hwrote

/-- A COMMIT follows on a write that has resolved to a receipt. -/
theorem Lifecycle.wrote_of_commit (h : Lifecycle write history o) {before after : History kernel}
    {client : ClientId} {x : Except Thrown Unit}
    (hcommit : history = before ++ ⟨.query client .commit, x⟩ :: after) :
    ∃ wrote receipt, before = begun client ++ wrote ∧
      Steps (body write client) wrote (settled (.ok receipt)) := by
  have hmem : (⟨.query client .commit, x⟩ : Event kernel) ∈ history := by simp [hcommit]
  -- no COMMIT is sent in the first three cases; in the others it follows what the body has written
  cases h with
  | noClient e => simp at hmem
  | notBegun k e u => simp at hmem
  | rolledBack k wrote e r u hsteps =>
    have hnot := notMem_commit (k := client) hsteps x
    simp at hmem hnot
    tauto
  | committed k wrote receipt u hsteps =>
    rw [List.append_assoc, List.singleton_append] at hcommit
    obtain ⟨hbefore, heq, -⟩ := (List.append_cons_inj_of_notMem (notMem_commit hsteps x)
      (by simp)).mp hcommit
    obtain ⟨rfl, -⟩ : k = client ∧ _ := by simpa using heq
    exact ⟨wrote, receipt, hbefore.symm, hsteps⟩
  | notCommitted k wrote receipt e r u hsteps =>
    rw [List.append_assoc, List.append_assoc, List.singleton_append] at hcommit
    obtain ⟨hbefore, heq, -⟩ := (List.append_cons_inj_of_notMem (notMem_commit hsteps x)
      (by simp)).mp hcommit
    obtain ⟨rfl, -⟩ : k = client ∧ _ := by simpa using heq
    exact ⟨wrote, receipt, hbefore.symm, hsteps⟩

/-- The client a BEGIN of the history is on. -/
theorem eq_of_mem_begin {client k : ClientId} {wrote : History kernel}
    {p : Program kernel CommitReceipt} (h : Steps (body write k) wrote p)
    (hmem : (⟨.query client .begin, .ok ()⟩ : Event kernel) ∈ begun k ++ wrote) : client = k := by
  rcases List.mem_append.mp hmem with hbegun | hwrote
  · simpa [begun] using hbegun
  · exact (own_of_steps h _ hwrote).elim

/-- A transaction that was begun and is not answered with a receipt has been rolled back. -/
theorem Lifecycle.rolledBack_of_error {e : Thrown} (h : Lifecycle write history (.error e))
    {client : ClientId} (hbegun : (⟨.query client .begin, .ok ()⟩ : Event kernel) ∈ history) :
    ∃ r, (⟨.query client .rollback, r⟩ : Event kernel) ∈ history := by
  cases h with
  | noClient e => simp at hbegun
  | notBegun k e u => simp at hbegun
  | rolledBack k wrote e r u hsteps =>
    have hmem : (⟨.query client .begin, .ok ()⟩ : Event kernel) ∈ begun k ++ wrote := by
      simpa using hbegun
    rw [eq_of_mem_begin hsteps hmem]
    exact ⟨r, by simp⟩
  | notCommitted k wrote receipt e r u hsteps =>
    have hmem : (⟨.query client .begin, .ok ()⟩ : Event kernel) ∈ begun k ++ wrote := by
      simpa using hbegun
    rw [eq_of_mem_begin hsteps hmem]
    exact ⟨r, by simp⟩

/-- Whatever the pool, the queries and the write do: a client that is taken is returned once, by
the last call; a receipt is answered after a fulfilled COMMIT only; COMMIT is issued after the write
has resolved to a receipt only; and a transaction that was begun and is not answered with a receipt
has been rolled back on its client. -/
theorem commit_lifecycle {σ : Type} (write : Write) (outside : Outside kernel σ) (s : σ) :
    let r := run outside (commit write) s
    (∀ client, (⟨.connect, .ok client⟩ : Event kernel) ∈ r.history →
        ReturnedOnce client r.history) ∧
      (∀ receipt, r.outcome = .ok receipt →
        ∃ client, (⟨.connect, .ok client⟩ : Event kernel) ∈ r.history ∧
          (⟨.query client .commit, .ok ()⟩ : Event kernel) ∈ r.history) ∧
      (∀ before client x after, r.history = before ++ ⟨.query client .commit, x⟩ :: after →
        ∃ wrote receipt, before = begun client ++ wrote ∧
          Steps (body write client) wrote (settled (.ok receipt))) ∧
      ∀ client, (⟨.query client .begin, .ok ()⟩ : Event kernel) ∈ r.history →
        r.outcome.isOk = false →
        ∃ rolledBack, (⟨.query client .rollback, rolledBack⟩ : Event kernel) ∈ r.history := by
  intro r
  have hlifecycle : Lifecycle write r.history r.outcome := (safe_commit write).run outside s
  -- each part is read off the history that the lifecycle allows
  refine ⟨fun client => hlifecycle.returnedOnce, ?_, ?_, ?_⟩
  · intro receipt hreceipt
    rw [hreceipt] at hlifecycle
    exact hlifecycle.committed_of_ok
  · intro before client x after hcommit
    exact hlifecycle.wrote_of_commit hcommit
  · intro client hbegun hfailed
    cases houtcome : r.outcome with
    | ok receipt => simp [houtcome, Except.isOk, Except.toBool] at hfailed
    | error e =>
      rw [houtcome] at hlifecycle
      exact hlifecycle.rolledBack_of_error hbegun

/-! ## The customer write -/

/-- The three inserts use their own client only. -/
theorem ownCalls_insertRows (requestId idempotencyKey name : JsString)
    (changeSet : PreparedChangeSet) (client : ClientId) :
    Calls (IsOwn client) (insertRows requestId idempotencyKey name changeSet client) := by
  refine Calls.askBind rfl fun customer => ?_
  refine Calls.askBind rfl fun auditId => ?_
  exact Calls.askBind rfl fun outboxId => trivial

/-- The statements of the customer write are its own. -/
theorem ownCalls_write (requestId idempotencyKey : JsString) (changeSet : PreparedChangeSet)
    (client : ClientId) :
    Calls (IsOwn client) (MetaframerKernel.write requestId idempotencyKey changeSet client) := by
  refine Calls.syncBind fun name => Calls.syncBind fun _ => ?_
  refine Calls.askBind rfl fun _ => ?_
  refine (ownCalls_insertRows requestId idempotencyKey name changeSet client).tryCatch ?_
  intro error
  split_ifs <;> trivial

/-- The customer write as a write. -/
def postgresWrite (requestId idempotencyKey : JsString) (changeSet : PreparedChangeSet) :
    Write where
  run client := some <$> MetaframerKernel.write requestId idempotencyKey changeSet client
  ownCalls client := (ownCalls_write requestId idempotencyKey changeSet client).map some

/-- The commit of a customer change set is the commit of this write. -/
theorem commit_postgresWrite (requestId idempotencyKey : JsString)
    (changeSet : PreparedChangeSet) :
    commit (postgresWrite requestId idempotencyKey changeSet) =
      writeEnvelopeCommit requestId idempotencyKey changeSet := by
  have hbody : body (postgresWrite requestId idempotencyKey changeSet) =
      MetaframerKernel.write requestId idempotencyKey changeSet := by
    funext client
    rw [body, postgresWrite, bind_map_left]
    exact bind_pure _
  rw [commit, hbody, writeEnvelopeCommit]

end MetaframerKernel.WriteEnvelope
