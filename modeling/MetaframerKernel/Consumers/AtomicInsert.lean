import MetaframerKernel.Consumers.CustomerPersistenceAdapter

/-!
# The atomic insert of the application

What an insert of the customer application leaves in the three tables. PostgreSQL is read as in
`Stores`: a ROLLBACK takes effect whatever is heard of it, and a COMMIT that is rejected has
committed nothing.

## Main definitions

* `Row`, `insertAction`: the rows of the tables, and what a call is to them;
* `committed`: the transactions a run has committed.

## Main results

* `committed_of_runsThrough`, `committed_of_failsAfter`: what the two kinds of runs commit;
* `insert_atomic`: an insert commits its three rows in one transaction of the tenant and gives the
  canonical record, or leaves no row and rejects with the error of the step that failed; it returns
  its client once and does not call the legacy writer.
-/

namespace MetaframerKernel.CustomerDataCutover

open Js Async Program CustomerRecordsSchema Stores

/-! ## The tables -/

/-- A row of one of the three tables, by the values of its insert. -/
inductive Row where
  | customerRecords (params : List JsValue)
  | auditLog (params : List JsValue)
  | transactionalOutbox (params : List JsValue)

/-- `tenant_id` -/
def Row.tenantId : Row → Option JsValue
  | customerRecords params => params[1]?
  | auditLog params => params[0]?
  | transactionalOutbox params => params[0]?

/-- What a statement is to the tables. -/
def CutoverStatement.effect : CutoverStatement → Stores.Statement Row
  | begin => .begin
  | beginTenantContext _ => .read
  | adapter sql params =>
      -- the adapters are known by their statements
      if sql = insertRecordSql then .write (.customerRecords params)
      else if sql = insertAuditSql then .write (.auditLog params)
      else if sql = insertOutboxSql then .write (.transactionalOutbox params)
      else .read
  | commit => .commit
  | rollback => .rollback

/-- What a call is to the tables. -/
def insertAction : Event cutover → Stores.Action ClientId Row
  | ⟨.legacyInsert _ _, _⟩ => .none
  | ⟨.connect, .ok client⟩ => .connect client
  | ⟨.connect, .error _⟩ => .none
  | ⟨.query client statement, r⟩ => .statement client statement.effect r.isOk
  | ⟨.release client, _⟩ => .release client

/-- The transactions that were committed. -/
def committed (past : History cutover) : List (List Row) := (viewAfter insertAction past).done

/-- The clients that were obtained. -/
def obtained (past : History cutover) : List ClientId := past.filterMap fun
  | ⟨.connect, .ok client⟩ => some client
  | _ => none

/-- The clients that were released. -/
def released (past : History cutover) : List ClientId := past.filterMap fun
  | ⟨.release client, _⟩ => some client
  | _ => none

section Effects

variable (params : List JsValue)

/-- The first insert writes a customer record. -/
theorem effect_insertRecord :
    (CutoverStatement.adapter insertRecordSql params).effect =
      .write (.customerRecords params) := by
  rw [CutoverStatement.effect, if_pos rfl]

/-- The second insert writes an audit row. -/
theorem effect_insertAudit :
    (CutoverStatement.adapter insertAuditSql params).effect = .write (.auditLog params) := by
  have hrecord : insertAuditSql ≠ insertRecordSql := by decide +kernel
  rw [CutoverStatement.effect, if_neg hrecord, if_pos rfl]

/-- The third insert writes an outbox row. -/
theorem effect_insertOutbox :
    (CutoverStatement.adapter insertOutboxSql params).effect =
      .write (.transactionalOutbox params) := by
  have hrecord : insertOutboxSql ≠ insertRecordSql := by decide +kernel
  have haudit : insertOutboxSql ≠ insertAuditSql := by decide +kernel
  rw [CutoverStatement.effect, if_neg hrecord, if_neg haudit, if_pos rfl]

end Effects

/-! ## What a run commits -/

section Views

variable {dates : Dates} {record insertOptions : JsValue} {client : ClientId}
  {past : History cutover}

/-- After a statement that is fulfilled. -/
theorem held_fulfilled {s : Session Row} (h : Held insertAction client s [] past)
    {statement : CutoverStatement} {answer : statement.Answer} {effect : Stores.Statement Row}
    (heffect : statement.effect = effect) (hcommits : s.commits effect true = none) :
    Held insertAction client (s.next effect true) []
      (past ++ [fulfilled client statement answer]) := by
  rw [Held, viewAfter_append, show viewAfter insertAction past = _ from h, fulfilled, insertAction,
    heffect]
  simp [View.next, hcommits, Except.isOk, Except.toBool]

/-- After a statement that is rejected. -/
theorem held_rejected {s : Session Row} (h : Held insertAction client s [] past)
    (statement : CutoverStatement) (e : Thrown) :
    ∃ s', Held insertAction client s' [] (past ++ [rejected client statement e]) := by
  refine ⟨s.next statement.effect false, ?_⟩
  rw [Held, viewAfter_append, show viewAfter insertAction past = _ from h, rejected, insertAction]
  simp [View.next, Session.commits_false, Except.isOk, Except.toBool]

/-- The history of a client that was obtained. -/
def connected (client : ClientId) (past : History cutover) : History cutover :=
  ⟨CutoverCall.connect, .ok client⟩ :: past

/-- What follows a connected history is connected with it. -/
theorem connected_append (client : ClientId) (past rest : History cutover) :
    connected client (past ++ rest) = connected client past ++ rest := rfl

/-- An opened transaction has written nothing yet. -/
theorem held_opened :
    Held insertAction client (.active []) [] (connected client (opened insertOptions client)) := rfl

/-- Once the record is in, the transaction has written it. -/
theorem Recorded.held (r : Recorded dates record insertOptions) :
    Held insertAction client (.active [.customerRecords (recordParams r.canonical)]) []
      (connected client (r.past client)) :=
  held_fulfilled held_opened (effect_insertRecord _) rfl

/-- With its audit row, the transaction has written both. -/
theorem Recorded.held_audit (r : Recorded dates record insertOptions) (details auditRow : JsValue) :
    Held insertAction client
      (.active [.customerRecords (recordParams r.canonical),
        .auditLog (auditParams r.tenantId (property (parityOptions record insertOptions) "audit")
          details)]) []
      (connected client (r.past client ++
        [fulfilled client (auditStatement record insertOptions r.tenantId details) auditRow])) :=
  held_fulfilled r.held (effect_insertAudit _) rfl

/-- With its outbox row, the transaction has written all three. -/
theorem Recorded.held_outbox (r : Recorded dates record insertOptions)
    (details auditRow outboxRow : JsValue) :
    Held insertAction client
      (.active [.customerRecords (recordParams r.canonical),
        .auditLog (auditParams r.tenantId (property (parityOptions record insertOptions) "audit")
          details),
        .transactionalOutbox (outboxParams r.tenantId (parityOptions record insertOptions))]) []
      (connected client (r.past client ++
        [fulfilled client (auditStatement record insertOptions r.tenantId details) auditRow,
          fulfilled client (outboxStatement record insertOptions r.tenantId) outboxRow])) := by
  rw [List.append_cons]
  exact held_fulfilled (r.held_audit details auditRow) (effect_insertOutbox _) rfl

/-- The last of three events follows the other two. -/
theorem append_three (past : History cutover) (a b c : Event cutover) :
    past ++ [a, b, c] = past ++ [a, b] ++ [c] := by
  rw [List.append_assoc]
  rfl

/-- A transaction that fails leaves its client in a session that has committed nothing. -/
theorem FailsAfter.held {e : Thrown} (h : FailsAfter dates record insertOptions client past e) :
    ∃ s, Held insertAction client s [] (connected client past) := by
  have hconnected : Held insertAction client .idle [] (connected client []) := rfl
  have hbegun : Held insertAction client (.active []) []
      (connected client [fulfilled client .begin ()]) := rfl
  -- the session at each of the places where the insert can fail
  cases h with
  | begin e => exact held_rejected hconnected _ e
  | context e => exact held_rejected hbegun _ e
  | options _ => exact ⟨_, held_opened⟩
  | admission _ _ => exact ⟨_, held_opened⟩
  | record e _ => exact held_rejected held_opened _ e
  | returned _ _ => exact ⟨_, held_fulfilled held_opened (effect_insertRecord _) rfl⟩
  | details r _ => exact ⟨_, r.held⟩
  | audit r e _ => exact held_rejected r.held _ e
  | outbox r auditRow e _ =>
    rw [List.append_cons]
    exact held_rejected (r.held_audit _ auditRow) _ e
  | commit r auditRow outboxRow e _ =>
    rw [append_three]
    exact held_rejected (r.held_outbox _ auditRow outboxRow) _ e

/-- A transaction that fails commits nothing. -/
theorem committed_of_failsAfter {e : Thrown}
    (h : FailsAfter dates record insertOptions client past e)
      (rolledBack returned : Except Thrown Unit) :
    committed (connected client past ++
      [⟨CutoverCall.query client .rollback, rolledBack⟩,
        ⟨CutoverCall.release client, returned⟩]) = [] := by
  obtain ⟨s, hs⟩ := h.held
  rw [List.append_cons, committed, viewAfter_append, viewAfter_append,
    show viewAfter insertAction (connected client past) = _ from hs]
  rfl

/-- The rows of an insert. -/
def Recorded.rows (r : Recorded dates record insertOptions) (details : JsValue) : List Row :=
  [.customerRecords (recordParams r.canonical),
    .auditLog (auditParams r.tenantId (property (parityOptions record insertOptions) "audit")
      details),
    .transactionalOutbox (outboxParams r.tenantId (parityOptions record insertOptions))]

/-- A transaction that runs through commits its rows. -/
theorem committed_of_runsThrough (r : Recorded dates record insertOptions)
    (details auditRow outboxRow : JsValue) (returned : Except Thrown Unit) :
    committed (connected client (r.past client ++
        [fulfilled client (auditStatement record insertOptions r.tenantId details) auditRow,
          fulfilled client (outboxStatement record insertOptions r.tenantId) outboxRow,
          fulfilled client .commit ()]) ++
        [⟨CutoverCall.release client, returned⟩]) = [r.rows details] := by
  rw [append_three, connected_append, committed, viewAfter_append, viewAfter_append,
    show viewAfter insertAction _ = _ from r.held_outbox details auditRow outboxRow]
  rfl

/-! ## The tenant -/

/-- What is spread of a property is the property. -/
theorem property?_spread {value : JsValue} {key : JsString} {q : Descriptor × JsValue}
    (h : JsValue.property? (spread value) key = some q) :
    ∃ proto props, value = .object proto props ∧ JsValue.property? props key = some q := by
  cases value with
  | object proto props =>
    refine ⟨proto, props, rfl, ?_⟩
    rw [JsValue.property?, spread, List.find?_filter, Option.map_eq_some_iff] at h
    obtain ⟨p, hfind, rfl⟩ := h
    rw [JsValue.property?, Option.map_eq_some_iff]
    refine ⟨p, ?_, rfl⟩
    have hp := List.find?_some hfind
    rw [decide_eq_true_eq, beq_iff_eq] at hp
    obtain ⟨henumerable, hkey⟩ := hp
    rw [hkey] at henumerable
    rw [← hfind]
    -- every property of the key is kept or dropped with this one
    refine List.find?_congr fun p' _ => ?_
    by_cases hkey' : p'.1.1 = .string key
    · rw [hkey', beq_self_eq_true]
      exact (decide_eq_true ⟨henumerable, rfl⟩).symm
    · rw [beq_eq_false_iff_ne.mpr hkey']
      exact (decide_eq_false fun hboth => Bool.false_ne_true hboth.2).symm
  | _ => cases h

/-- A key that is not overridden keeps its property. -/
theorem property?_overridden {props : List ((PropertyKey × Descriptor) × JsValue)}
    {members : List (JsString × JsValue)} {key : JsString} (h : key ∉ members.map Prod.fst) :
    JsValue.property? (overridden props members) key = JsValue.property? props key := by
  have hmembers : (dataProperties members).find? (fun p => p.1.1 == .string key) = none := by
    rw [List.find?_eq_none]
    rintro _ hp
    obtain ⟨m, hm, rfl⟩ := List.mem_map.mp hp
    rw [beq_iff_eq]
    rintro ⟨⟩
    exact h (List.mem_map_of_mem hm)
  -- what the override takes out has other keys than this one
  have hkept : (props.filter fun p => !(members.map fun m => PropertyKey.string m.1).contains
    p.1.1).find?
      (fun p => p.1.1 == .string key) = props.find? fun p => p.1.1 == .string key := by
    rw [List.find?_filter]
    refine List.find?_congr fun p _ => ?_
    by_cases hkey : p.1.1 = .string key
    · have hnotMem : PropertyKey.string key ∉ members.map fun m => PropertyKey.string m.1 := by
        intro hmem
        obtain ⟨m, hm, hm'⟩ := List.mem_map.mp hmem
        cases hm'
        exact h (List.mem_map_of_mem hm)
      rw [hkey, List.contains_eq_mem, decide_eq_false hnotMem]
      simp
    · simp [beq_eq_false_iff_ne.mpr hkey]
  rw [JsValue.property?, overridden, List.find?_append, hkept, hmembers, Option.or_none,
    JsValue.property?]

/-- The options that the persistence adapter is given have the tenant of those of the insert. -/
theorem property_tenantId_of_parityOptions {t : JsString}
    (h : property (parityOptions record insertOptions) "tenantId" = .string t) :
    property insertOptions "tenantId" = .string t := by
  have hspread : JsValue.get (spread insertOptions) (lit "tenantId") = .string t := by
    rw [parityOptions] at h
    split_ifs at h
    · have hother : lit "tenantId" ∉
          [lit "audit", lit "transactionalOutbox", lit "idempotency"] := by decide
      rwa [property, JsValue.get, property?_overridden hother] at h
    · exact h
  rw [JsValue.get] at hspread
  cases hproperty : JsValue.property? (spread insertOptions) (lit "tenantId") with
  | none =>
    rw [hproperty] at hspread
    cases hspread
  | some q =>
    rw [hproperty] at hspread
    obtain ⟨proto, props, rfl, hprops⟩ := property?_spread hproperty
    rwa [property, JsValue.get, hprops]

/-- Checked options name the tenant that the check returns. -/
theorem property_tenantId_of_checkOptions {options : JsValue} {t : JsString}
    (h : checkOptions record options = .ok t) : property options "tenantId" = .string t := by
  rw [checkOptions, bind_eq_ok] at h
  obtain ⟨t', htenant, h⟩ := h
  simp only [bind_eq_ok] at h
  obtain ⟨_, -, _, -, _, -, h⟩ := h
  obtain rfl := Except.ok.inj h
  rw [checkTenant] at htenant
  split at htenant
  · rename_i s hs
    split_ifs at htenant
    obtain rfl := Except.ok.inj htenant
    exact hs
  · cases htenant

/-- The tenant context is set for the tenant of the rows. -/
theorem Recorded.tenantIdOf_eq (r : Recorded dates record insertOptions) :
    tenantIdOf insertOptions = .string r.tenantId :=
  property_tenantId_of_parityOptions (property_tenantId_of_checkOptions r.options_ok)

/-- The tenant of the record is that of the options. -/
theorem Recorded.tenant_eq (r : Recorded dates record insertOptions) :
    r.canonical.tenantId = r.tenantId := by
  have hadmitted := r.admitted
  rw [admitRecord, bind_eq_ok] at hadmitted
  obtain ⟨canonical, -, h⟩ := hadmitted
  rw [property_tenantId_of_checkOptions r.options_ok] at h
  obtain ⟨_, htenant, h⟩ := bind_eq_ok.mp h
  obtain rfl := Except.ok.inj h
  rw [throwIf_eq_ok, not_or, not_not] at htenant
  exact htenant.2.symm

/-- All the rows are of that tenant. -/
theorem Recorded.tenantId_rows (r : Recorded dates record insertOptions) (details : JsValue) :
    ∀ row ∈ r.rows details, row.tenantId = some (.string r.tenantId) := by
  intro row hrow
  simp only [rows, List.mem_cons, List.not_mem_nil, or_false] at hrow
  rcases hrow with rfl | rfl | rfl
  · rw [← r.tenant_eq]
    rfl
  · rfl
  · rfl

/-! ## The record that comes back -/

/-- The query gives back the row of a record. -/
def Returns (dates : Dates) (result : JsValue) (r : CustomerRecord) : Prop :=
  ∃ proto d row extra, property result "rows" = .array proto [(d, row)] extra ∧
    property row "id" = .string r.id ∧ property row "tenant_id" = .string r.tenantId ∧
    property row "name" = .string r.name ∧ property row "payload" = r.payload ∧
    normalizeTimestamp dates (property row "created_at") = .ok (.string r.createdAt) ∧
    normalizeTimestamp dates (property row "recorded_at") = .ok (.string r.recordedAt)

/-- A canonical record that comes back is given as it is. -/
theorem returnedRecord_of_returns {result : JsValue} {r : CustomerRecord}
    (hcanonical : canonicalizeCustomerRecord dates.parses record = .ok r)
    (h : Returns dates result r) : returnedRecord dates result = .ok r := by
  obtain ⟨proto, d, row, extra, hrows, hid, htenant, hname, hpayload, hcreated, hrecorded⟩ := h
  -- a row is there, since its id is a string
  have hrow : returnedRecord dates result = (do
      let createdAt ← normalizeTimestamp dates (property row "created_at")
      let recordedAt ← normalizeTimestamp dates (property row "recorded_at")
      canonicalizeCustomerRecord dates.parses
        (literal [("id", property row "id"), ("tenant_id", property row "tenant_id"),
          ("name", property row "name"), ("payload", property row "payload"),
          ("created_at", createdAt), ("recorded_at", recordedAt)])) := by
    rw [returnedRecord, hrows]
    cases row with
    | undefined => cases hid
    | null => cases hid
    | _ => rfl
  rw [hrow, hcreated, hrecorded, hid, htenant, hname, hpayload]
  change canonicalizeCustomerRecord dates.parses (literal
    [("id", .string r.id), ("tenant_id", .string r.tenantId), ("name", .string r.name),
      ("payload", r.payload), ("created_at", .string r.createdAt),
      ("recorded_at", .string r.recordedAt)]) = .ok r
  exact canonicalize_toValue hcanonical

/-- The record has been made canonical. -/
theorem Recorded.canonicalized (r : Recorded dates record insertOptions) :
    canonicalizeCustomerRecord dates.parses record = .ok r.canonical := by
  have hadmitted := r.admitted
  rw [admitRecord, bind_eq_ok] at hadmitted
  obtain ⟨canonical, hcanonical, h⟩ := hadmitted
  rw [property_tenantId_of_checkOptions r.options_ok] at h
  obtain ⟨_, -, h⟩ := bind_eq_ok.mp h
  obtain rfl := Except.ok.inj h
  exact hcanonical

/-- What is returned is the canonical record. -/
theorem Recorded.returned_eq (r : Recorded dates record insertOptions)
    (h : Returns dates r.result r.canonical) : r.returned = r.canonical := by
  have hreturned := returnedRecord_of_returns r.canonicalized h
  rw [r.returned_ok] at hreturned
  exact Except.ok.inj hreturned

end Views

/-! ## Atomicity -/

section Atomic

variable (dates : Dates) (record insertOptions : JsValue)

/-- One transaction has committed the three rows of the record, all of the tenant whose context was
set in it, and the value is the canonical form of the row that came back, which is the record
itself where the database gives back what was inserted. -/
def CommitsRows (past : History cutover) (value : JsValue) : Prop :=
  ∃ (client : ClientId) (r : Recorded dates record insertOptions) (details auditRow outboxRow :
      JsValue) (returned : Except Thrown Unit),
    past = connected client
        [fulfilled client .begin (),
          fulfilled client (.beginTenantContext (.string r.tenantId)) (),
          recordInserted client r.canonical r.result,
          fulfilled client (auditStatement record insertOptions r.tenantId details) auditRow,
          fulfilled client (outboxStatement record insertOptions r.tenantId) outboxRow,
          fulfilled client .commit ()] ++
      [⟨CutoverCall.release client, returned⟩] ∧
    committed past = [r.rows details] ∧
    (∀ row ∈ r.rows details, row.tenantId = some (.string r.tenantId)) ∧
    canonicalizeCustomerRecord dates.parses record = .ok r.canonical ∧
    value = r.returned.toValue ∧
    (Returns dates r.result r.canonical → r.returned = r.canonical)

/-- No client was obtained, for this reason, or the transaction failed at one of its steps, with
the error of that step, and was rolled back. -/
def RejectsWith (past : History cutover) (e : Thrown) : Prop :=
  past = [⟨CutoverCall.connect, .error e⟩] ∨
    ∃ client steps rolledBack returned, FailsAfter dates record insertOptions client steps e ∧
      past = connected client steps ++
        [⟨CutoverCall.query client .rollback, rolledBack⟩,
          ⟨CutoverCall.release client, returned⟩]

variable {dates record insertOptions} {past : History cutover}

/-- Only statements are made between the connection and the release. -/
def AreQueries (past : History cutover) : Prop :=
  ∀ ev ∈ past, ∃ client statement, ev.1 = CutoverCall.query client statement

/-- A query before queries. -/
theorem areQueries_cons {client : ClientId} {statement : CutoverStatement}
    {r : Except Thrown statement.Answer} {rest : History cutover} (h : AreQueries rest) :
    AreQueries (⟨CutoverCall.query client statement, r⟩ :: rest) := by
  rintro ev (_ | ⟨_, hev⟩)
  · exact ⟨client, statement, rfl⟩
  · exact h ev hev

/-- No events are queries. -/
theorem areQueries_nil : AreQueries [] := fun _ h => absurd h List.not_mem_nil

/-- Queries after queries are queries. -/
theorem AreQueries.append {rest : History cutover} (h : AreQueries past) (h' : AreQueries rest) :
    AreQueries (past ++ rest) := fun ev hev =>
  (List.mem_append.mp hev).elim (h ev) (h' ev)

/-- A transaction is opened by queries alone. -/
theorem areQueries_opened (client : ClientId) : AreQueries (opened insertOptions client) :=
  areQueries_cons (areQueries_cons areQueries_nil)

/-- A record is inserted by queries alone. -/
theorem Recorded.areQueries (r : Recorded dates record insertOptions) (client : ClientId) :
    AreQueries (r.past client) :=
  (areQueries_opened client).append (areQueries_cons areQueries_nil)

/-- What comes before a failure is queries alone. -/
theorem FailsAfter.areQueries {client : ClientId} {e : Thrown}
    (h : FailsAfter dates record insertOptions client past e) : AreQueries past := by
  cases h with
  | begin e => exact areQueries_cons areQueries_nil
  | context e => exact areQueries_cons (areQueries_cons areQueries_nil)
  | options _ => exact areQueries_opened client
  | admission _ _ => exact areQueries_opened client
  | record e _ => exact (areQueries_opened client).append (areQueries_cons areQueries_nil)
  | returned _ _ => exact (areQueries_opened client).append (areQueries_cons areQueries_nil)
  | details r _ => exact r.areQueries client
  | audit r e _ => exact (r.areQueries client).append (areQueries_cons areQueries_nil)
  | outbox r auditRow e _ =>
    exact (r.areQueries client).append (areQueries_cons (areQueries_cons areQueries_nil))
  | commit r auditRow outboxRow e _ =>
    exact (r.areQueries client).append
      (areQueries_cons (areQueries_cons (areQueries_cons areQueries_nil)))

/-- What comes before the result is queries alone. -/
theorem RunsThrough.areQueries {client : ClientId} {value : JsValue}
    (h : RunsThrough dates record insertOptions client past value) : AreQueries past := by
  obtain ⟨r, auditRow, outboxRow, _⟩ := h
  exact (r.areQueries client).append
    (areQueries_cons (areQueries_cons (areQueries_cons areQueries_nil)))

/-- Statements neither obtain nor release a client. -/
theorem AreQueries.obtained_eq (h : AreQueries past) : obtained past = [] := by
  rw [obtained, List.filterMap_eq_nil_iff]
  rintro ⟨call, r⟩ hev
  obtain ⟨client, statement, rfl⟩ := h _ hev
  rfl

/-- Queries release no client. -/
theorem AreQueries.released_eq (h : AreQueries past) : released past = [] := by
  rw [released, List.filterMap_eq_nil_iff]
  rintro ⟨call, r⟩ hev
  obtain ⟨client, statement, rfl⟩ := h _ hev
  rfl

/-- The client is returned once, and the legacy writer is not called. -/
def ReturnsClient (past : History cutover) : Prop :=
  released past = obtained past ∧ (obtained past).length ≤ 1 ∧
    ∀ ev ∈ past, ∀ record' insertOptions', ev.1 ≠ .legacyInsert record' insertOptions'

/-- A history of queries and a release returns its one client. -/
theorem returnsClient_of_areQueries {client : ClientId} {steps : History cutover}
    {returned : Except Thrown Unit} (h : AreQueries steps) :
    ReturnsClient (connected client steps ++ [⟨CutoverCall.release client, returned⟩]) := by
  -- the one client comes from the connection, and the queries hand out none
  have hobtained :
      obtained (connected client steps ++ [⟨CutoverCall.release client, returned⟩]) = [client] := by
    change client :: obtained (steps ++ [⟨CutoverCall.release client, returned⟩]) = [client]
    rw [obtained, List.filterMap_append]
    change client :: (obtained steps ++ []) = [client]
    rw [h.obtained_eq, List.append_nil]
  -- it is released once, at the end
  have hreleased :
      released (connected client steps ++ [⟨CutoverCall.release client, returned⟩]) = [client] := by
    change released (steps ++ [⟨CutoverCall.release client, returned⟩]) = [client]
    rw [released, List.filterMap_append]
    change released steps ++ [client] = [client]
    rw [h.released_eq, List.nil_append]
  refine ⟨hreleased.trans hobtained.symm, hobtained ▸ le_refl 1, ?_⟩
  intro ev hev record' insertOptions' hlegacy
  rcases List.mem_append.mp hev with hev | hev
  · cases hev with
    | head => cases hlegacy
    | tail _ hev =>
      obtain ⟨client', statement, hquery⟩ := h ev hev
      rw [hquery] at hlegacy
      cases hlegacy
  · obtain rfl := List.mem_singleton.mp hev
    cases hlegacy

/-- An insert of the application commits one customer row, one audit row and one outbox row of the
tenant in one transaction whose tenant context was set, and gives the canonical record; or it
leaves no row and rejects with the error of the step that failed. Either way it releases the client
it has obtained, if any, once, and never calls the legacy writer. -/
theorem insert_atomic {σ : Type} (dates : Dates) (record insertOptions : JsValue)
    (outside : Outside cutover σ) (s : σ) :
    let r := Async.run outside
      (insert .application (persistenceAdapter dates) record insertOptions) s
    ((∃ value, r.outcome = .ok value ∧ CommitsRows dates record insertOptions r.history value) ∨
      (∃ e, r.outcome = .error e ∧ RejectsWith dates record insertOptions r.history e ∧
        committed r.history = [])) ∧
    released r.history = obtained r.history ∧ (obtained r.history).length ≤ 1 ∧
    ∀ ev ∈ r.history, ∀ record' insertOptions', ev.1 ≠ .legacyInsert record' insertOptions' := by
  intro r
  have hends : InsertEnds dates record insertOptions r.history r.outcome :=
    (settles_insert dates record insertOptions).run outside s (fun _ _ => trivial)
  generalize r.history = past at hends ⊢
  generalize r.outcome = outcome at hends ⊢
  -- by the ways in which an insert ends: without a client, rolled back, or run through
  cases hends with
  | notConnected e =>
    refine ⟨.inr ⟨e, rfl, .inl rfl, rfl⟩, rfl, Nat.zero_le 1, ?_⟩
    intro ev hev record' insertOptions' hlegacy
    obtain rfl := List.mem_singleton.mp hev
    cases hlegacy
  | @rolledBack client steps e rolledBack returned hfails =>
    refine ⟨.inr ⟨_, rfl, .inr ⟨_, _, _, _, hfails, rfl⟩, committed_of_failsAfter hfails _ _⟩, ?_⟩
    have hquery : AreQueries [⟨CutoverCall.query client .rollback, rolledBack⟩] :=
      areQueries_cons areQueries_nil
    have hreturns : ReturnsClient (connected client
        (steps ++ [⟨CutoverCall.query client .rollback, rolledBack⟩]) ++
          [⟨CutoverCall.release client, returned⟩]) :=
      returnsClient_of_areQueries (hfails.areQueries.append hquery)
    rwa [connected_append, List.append_assoc] at hreturns
  | @runsThrough client steps value returned hruns =>
    refine ⟨.inl ⟨_, rfl, ?_⟩, returnsClient_of_areQueries hruns.areQueries⟩
    cases hruns with
    | mk r auditRow outboxRow hdetails =>
      refine ⟨client, r, _, auditRow, outboxRow, returned, ?_,
        committed_of_runsThrough r _ auditRow outboxRow returned, r.tenantId_rows _,
        r.canonicalized, rfl, r.returned_eq⟩
      rw [← r.tenantIdOf_eq]
      rfl

end Atomic

end MetaframerKernel.CustomerDataCutover
