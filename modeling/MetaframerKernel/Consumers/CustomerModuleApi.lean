import MetaframerKernel.Consumers.AtomicInsert
import MetaframerKernel.Consumers.CustomerSurface

/-!
# The customer module

`recordCustomer` of the customer module: it builds an action through the generated SDK,
canonicalizes the record, holds both against the options of the insert, and awaits `insert` of the
data cutover. The SDK is given to the module by its caller, and so is `buildActionSpec` here.

## Main definitions

* `admission`: the checks that come before the insert;
* `recordCustomer`: the program;
* `Keeps`, `KeepsNothing`: what a call leaves behind, under either writer.

## Main results

* `settles_recordCustomer`: a call keeps its record or keeps nothing, as its outcome says;
* `recordCustomer_atomic`: what an answered call has committed.
-/

namespace MetaframerKernel.CustomerModuleApi

open Js Async Program CustomerRecordsSchema CustomerDataCutover

/-! ## The checks -/

/-- An error that `recordCustomer` rejects with before it inserts. -/
inductive Refusal where
  /-- `new Error(message)` -/
  | error (message : JsString)
  | thrown (e : Thrown)

/-- `throw new TypeError(message)`, where the condition is met. -/
def typeErrorIf (c : Prop) [Decidable c] (message : String) : Except Refusal Unit :=
  throwIf c (.thrown (.native (.typeError (lit message))))

/-- `throw new Error(message)`, where the condition is met. -/
def errorIf (c : Prop) [Decidable c] (message : String) : Except Refusal Unit :=
  throwIf c (.error (lit message))

/-- `isOrdinaryObject`, which the surface has too. -/
def isOrdinaryObject (value : JsValue) : Bool := CustomerSurface.isOrdinaryObject value

/-- The own keys are those of `RECORD_CUSTOMER_KEYS`, which are the keys of a submit. -/
def hasRecordCustomerKeys (args : JsValue) : Bool := CustomerSurface.hasSubmitKeys args

/-- An option is an ordinary object. -/
def checkOrdinary (insertOptions : JsValue) (option : String) : Except Refusal Unit :=
  typeErrorIf (isOrdinaryObject (property insertOptions option) = false)
    ("recordCustomer requires an ordinary insertOptions." ++ option ++ " object")

/-- An option carries a non-empty string, which is given. -/
def requireString (insertOptions : JsValue) (option field : String) : Except Refusal JsString :=
  let refusal : Refusal := .error
    (lit ("recordCustomer requires a non-empty insertOptions." ++ option ++ "." ++ field))
  match property (property insertOptions option) field with
  | .string s => if s = [] then .error refusal else .ok s
  | _ => .error refusal

/-- `built.tenantId` -/
def tenantIdOfBuilt : JsValue → Except Refusal JsValue
  | .undefined => .error (.thrown (.native
      (.typeError (lit "Cannot read properties of undefined (reading 'tenantId')"))))
  | .null => .error (.thrown (.native
      (.typeError (lit "Cannot read properties of null (reading 'tenantId')"))))
  | built => .ok (property built "tenantId")

/-- What passes the checks: the canonical record, and the options of its insert. -/
structure Admitted where
  canonical : CustomerRecord
  insertOptions : JsValue

section Checks

variable (dates : Dates) (buildActionSpec : JsValue → Except Thrown JsValue)

/-- `recordCustomer(args)`, up to its call of `insert`. -/
def admission (args : JsValue) : Except Refusal Admitted := do
  typeErrorIf (isOrdinaryObject args = false) "recordCustomer requires an ordinary options object"
  typeErrorIf (hasRecordCustomerKeys args = false)
    "recordCustomer requires exactly \x7bactionSpec, record, insertOptions\x7d"
  let insertOptions := property args "insertOptions"
  typeErrorIf (isOrdinaryObject insertOptions = false)
    "recordCustomer requires an insertOptions object"
  checkOrdinary insertOptions "audit"
  checkOrdinary insertOptions "transactionalOutbox"
  checkOrdinary insertOptions "idempotency"
  -- the contract of the action is asked first, then the schema of the record
  let built ← (buildActionSpec (property args "actionSpec")).mapError .thrown
  let canonical ← (orThrow (canonicalizeCustomerRecord dates.parses
    (property args "record"))).mapError .thrown
  -- one tenant in the action, in the record and in the options
  let builtTenantId ← tenantIdOfBuilt built
  errorIf (isString builtTenantId canonical.tenantId = false ∨
      isString (property insertOptions "tenantId") canonical.tenantId = false)
    "recordCustomer requires the built tenantId to match the canonical record and insertOptions"
  let _ ← requireString insertOptions "audit" "action"
  let auditCorrelationId ← requireString insertOptions "audit" "correlationId"
  let _ ← requireString insertOptions "transactionalOutbox" "eventName"
  let outboxCorrelationId ← requireString insertOptions "transactionalOutbox" "correlationId"
  let _ ← requireString insertOptions "idempotency" "fingerprint"
  errorIf (auditCorrelationId ≠ outboxCorrelationId)
    "recordCustomer requires audit.correlationId to match transactionalOutbox.correlationId"
  return ⟨canonical, insertOptions⟩

/-- `Object.freeze({ ok: true, record: canonical })` -/
def Admitted.result (a : Admitted) : JsValue :=
  literal [("ok", .boolean true), ("record", a.canonical.toValue)]

/-- `recordCustomer`. A refusal of its own stands beside the rejections of the insert. -/
def recordCustomer (activeWriter : Writer) (args : JsValue) :
    Program cutover (Except Refusal JsValue) :=
  match admission dates buildActionSpec args with
  | .error refusal => settled (.ok (.error refusal))
  | .ok admitted => do
      let _insertResult ← insert activeWriter (persistenceAdapter dates) admitted.canonical.toValue
        admitted.insertOptions
      return .ok admitted.result

end Checks

/-! ## What passes the checks -/

section Admission

/-- No TypeError is thrown when the condition fails. -/
theorem typeErrorIf_eq_ok {c : Prop} [Decidable c] {message : String} {u : Unit} :
    typeErrorIf c message = .ok u ↔ ¬c := throwIf_eq_ok

/-- No Error is thrown when the condition fails. -/
theorem errorIf_eq_ok {c : Prop} [Decidable c] {message : String} {u : Unit} :
    errorIf c message = .ok u ↔ ¬c := throwIf_eq_ok

/-- A required field is a string that is not empty. -/
theorem requireString_eq_ok {insertOptions : JsValue} {option field : String} {s : JsString}
    (h : requireString insertOptions option field = .ok s) :
    s ≠ [] ∧ property (property insertOptions option) field = .string s := by
  rw [requireString] at h
  split at h
  · rename_i t ht
    split_ifs at h with hempty
    obtain rfl := Except.ok.inj h
    exact ⟨hempty, ht⟩
  · cases h

/-- A value that is that string. -/
theorem eq_of_isString {value : JsValue} {s : JsString} (h : isString value s = true) :
    value = .string s := by
  cases value with
  | string t => exact congrArg JsValue.string (eq_of_beq h)
  | _ => cases h

/-- Naming an error leaves the results. -/
theorem mapError_eq_ok {ε ε' α : Type} {f : ε → ε'} {x : Except ε α} {a : α}
    (h : x.mapError f = .ok a) : x = .ok a := by
  cases x with
  | error e => cases h
  | ok b => exact congrArg Except.ok (Except.ok.inj h)

/-- The tenant is read off what was built. -/
theorem tenantIdOfBuilt_eq_ok {built tenantId : JsValue}
    (h : tenantIdOfBuilt built = .ok tenantId) :
    tenantId = property built "tenantId" := by
  cases built with
  | undefined => cases h
  | null => cases h
  | _ => exact (Except.ok.inj h).symm

variable (dates : Dates) (buildActionSpec : JsValue → Except Thrown JsValue)

/-- The action, the record and the options of an admitted call are of one tenant, and its audit
event and its outbox event carry one correlation id. -/
structure Admits (args : JsValue) (a : Admitted) : Prop where
  built : ∃ spec, buildActionSpec (property args "actionSpec") = .ok spec ∧
    property spec "tenantId" = .string a.canonical.tenantId
  canonicalized : canonicalizeCustomerRecord dates.parses (property args "record") = .ok a.canonical
  insertOptions_eq : a.insertOptions = property args "insertOptions"
  tenantId_eq : property a.insertOptions "tenantId" = .string a.canonical.tenantId
  correlated : ∃ c, c ≠ [] ∧
    property (property a.insertOptions "audit") "correlationId" = .string c ∧
    property (property a.insertOptions "transactionalOutbox") "correlationId" = .string c

variable {dates buildActionSpec} {args : JsValue} {a : Admitted}

/-- What the checks let through is admitted. -/
theorem admits_of_admission (h : admission dates buildActionSpec args = .ok a) :
    Admits dates buildActionSpec args a := by
  simp only [admission, bind_eq_ok, typeErrorIf_eq_ok, errorIf_eq_ok] at h
  obtain ⟨-, -, -, -, -, -, -, -, -, -, -, -, built, hbuilt, canonical, hcanonical, tenantId,
    htenantId, -, htenants, -, -, c, haudit, -, -, c', houtbox, -, -, -, hcorrelated, h⟩ := h
  obtain rfl := Except.ok.inj h
  rw [not_or, Bool.not_eq_false, Bool.not_eq_false] at htenants
  obtain rfl := tenantIdOfBuilt_eq_ok htenantId
  obtain rfl := not_not.mp hcorrelated
  obtain ⟨hne, haudit⟩ := requireString_eq_ok haudit
  exact
    { built := ⟨built, mapError_eq_ok hbuilt, eq_of_isString htenants.1⟩
      canonicalized := orThrow_eq_ok.mp (mapError_eq_ok hcanonical)
      insertOptions_eq := rfl
      tenantId_eq := eq_of_isString htenants.2
      correlated := ⟨c, hne, haudit, (requireString_eq_ok houtbox).2⟩ }

/-- An admitted call has audit options. -/
theorem Admits.audit_ne_undefined (h : Admits dates buildActionSpec args a) :
    property a.insertOptions "audit" ≠ .undefined := by
  obtain ⟨c, -, haudit, -⟩ := h.correlated
  intro hundefined
  rw [hundefined] at haudit
  cases haudit

end Admission

/-! ## What an insert is given -/

section Parity

variable {dates : Dates} {record insertOptions : JsValue}

/-- The options that carry an audit event are spread as they are. -/
theorem property_parityOptions {key : String} (haudit : property insertOptions "audit" ≠ .undefined)
    (hkey : property (parityOptions record insertOptions) key ≠ .undefined) :
    property (parityOptions record insertOptions) key = property insertOptions key := by
  have hundefined : isUndefined (property insertOptions "audit") ≠ true := by
    cases hvalue : property insertOptions "audit" with
    | undefined => exact absurd hvalue haudit
    | _ => exact Bool.false_ne_true
  have hspread : parityOptions record insertOptions =
      .object .objectPrototype (spread insertOptions) := if_neg fun h => hundefined h.1
  rw [hspread] at hkey ⊢
  rw [property, JsValue.get] at hkey ⊢
  cases hproperty : JsValue.property? (spread insertOptions) (lit key) with
  | none => exact absurd (by rw [hproperty]; rfl) hkey
  | some q =>
    obtain ⟨proto, props, rfl, hprops⟩ := property?_spread hproperty
    rw [property, JsValue.get, hprops]

/-- An option that passes is there. -/
theorem ne_undefined_of_checkOption {fields : List String} {notObject missing : String}
    {option : JsValue} {u : Unit} (h : checkOption fields notObject missing option = .ok u) :
    option ≠ .undefined := by
  rintro rfl
  cases h

/-- What the persistence adapter finds in its options is what the insert was given. -/
theorem property_of_checkOptions {tenantId : JsString}
    (haudit : property insertOptions "audit" ≠ .undefined)
    (h : checkOptions record (parityOptions record insertOptions) = .ok tenantId) :
    property (parityOptions record insertOptions) "audit" = property insertOptions "audit" ∧
      property (parityOptions record insertOptions) "transactionalOutbox" =
        property insertOptions "transactionalOutbox" ∧
      property (parityOptions record insertOptions) "idempotency" =
        property insertOptions "idempotency" := by
  simp only [checkOptions, bind_eq_ok] at h
  obtain ⟨_, -, _, hauditOk, _, houtbox, _, hidempotency, -⟩ := h
  exact ⟨property_parityOptions haudit (ne_undefined_of_checkOption hauditOk),
    property_parityOptions haudit (ne_undefined_of_checkOption houtbox),
    property_parityOptions haudit (ne_undefined_of_checkOption hidempotency)⟩

end Parity

/-! ## What a call leaves behind -/

/-- The rows of an admitted call. -/
def Admitted.rows (a : Admitted) (details : JsValue) : List Row :=
  [.customerRecords (recordParams a.canonical),
    .auditLog (auditParams a.canonical.tenantId (property a.insertOptions "audit") details),
    .transactionalOutbox (outboxParams a.canonical.tenantId a.insertOptions)]

/-- `correlation_id`, in the tables that have it. -/
def Row.correlationId : Row → Option JsValue
  | .customerRecords _ => none
  | .auditLog params => params[3]?
  | .transactionalOutbox params => params[2]?

/-- The inserts that the legacy writer has fulfilled. -/
def legacyInserted (past : History cutover) : List (JsValue × JsValue) := past.filterMap fun
  | ⟨.legacyInsert record insertOptions, .ok _⟩ => some (record, insertOptions)
  | _ => none

/-- The record was kept once, by the writer that was active. -/
def Keeps (activeWriter : Writer) (a : Admitted) (past : History cutover) : Prop :=
  match activeWriter with
  | .legacy =>
      legacyInserted past = [(a.canonical.toValue, a.insertOptions)] ∧ committed past = []
  | .application =>
      legacyInserted past = [] ∧ ∃ details,
        CustomerDataCutover.auditDetails (property a.insertOptions "audit") = .ok details ∧
          committed past = [a.rows details]

/-- Neither writer has kept anything. -/
def KeepsNothing (past : History cutover) : Prop :=
  legacyInserted past = [] ∧ committed past = []

section Ends

variable {dates : Dates} {buildActionSpec : JsValue → Except Thrown JsValue} {args : JsValue}
  {a : Admitted} {past : History cutover}

/-- All the rows are of the tenant of the canonical record. -/
theorem Admitted.tenantId_rows (a : Admitted) (details : JsValue) :
    ∀ row ∈ a.rows details, row.tenantId = some (.string a.canonical.tenantId) := by
  intro row hrow
  simp only [rows, List.mem_cons, List.not_mem_nil, or_false] at hrow
  rcases hrow with rfl | rfl | rfl <;> rfl

/-- The audit and the outbox row share one correlation id. -/
theorem Admits.correlationId_rows (h : Admits dates buildActionSpec args a) (details : JsValue) :
    ∃ c, c ≠ [] ∧ (a.rows details).filterMap Row.correlationId = [.string c, .string c] := by
  obtain ⟨c, hne, haudit, houtbox⟩ := h.correlated
  refine ⟨c, hne, ?_⟩
  change [property (property a.insertOptions "audit") "correlationId",
    property (property a.insertOptions "transactionalOutbox") "correlationId"] = _
  rw [haudit, houtbox]

/-- The rows of a transaction of the cutover are those of the admitted call. -/
theorem Admits.rows_eq (h : Admits dates buildActionSpec args a)
    (r : CustomerDataCutover.Recorded dates a.canonical.toValue a.insertOptions)
    (details : JsValue) :
    r.rows details = a.rows details := by
  have hcanonical : r.canonical = a.canonical := by
    have hagain := canonicalize_toValue h.canonicalized
    rw [r.canonicalized] at hagain
    exact Except.ok.inj hagain
  obtain ⟨haudit, houtbox, hidempotency⟩ :=
    property_of_checkOptions h.audit_ne_undefined r.options_ok
  rw [CustomerDataCutover.Recorded.rows, Admitted.rows, ← r.tenant_eq, hcanonical, haudit,
    outboxParams, outboxParams, houtbox, hidempotency]

/-- Without a call of the legacy insert nothing is kept by it. -/
theorem legacyInserted_eq_nil
    (h : ∀ ev ∈ past, ∀ record insertOptions, ev.1 ≠ .legacyInsert record insertOptions) :
    legacyInserted past = [] := by
  rw [legacyInserted, List.filterMap_eq_nil_iff]
  rintro ⟨call, r⟩ hev
  cases call with
  | legacyInsert record insertOptions => exact absurd rfl (h _ hev record insertOptions)
  | _ => rfl

variable (dates buildActionSpec) in
/-- How a call ends. -/
inductive CallEnds (activeWriter : Writer) (args : JsValue) :
    History cutover → Except Thrown (Except Refusal JsValue) → Prop
  | refused {refusal : Refusal} :
      admission dates buildActionSpec args = .error refusal →
      CallEnds activeWriter args [] (.ok (.error refusal))
  | kept {a : Admitted} {past : History cutover} :
      admission dates buildActionSpec args = .ok a → Keeps activeWriter a past →
      CallEnds activeWriter args past (.ok (.ok a.result))
  | failed {a : Admitted} {past : History cutover} {e : Thrown} :
      admission dates buildActionSpec args = .ok a → KeepsNothing past →
      CallEnds activeWriter args past (.error e)

/-- An insert of the application keeps the admitted record, or nothing. -/
theorem keeps_of_insertEnds (h : Admits dates buildActionSpec args a)
    {o : Except Thrown JsValue}
    (hends : InsertEnds dates a.canonical.toValue a.insertOptions past o) :
    match o with
    | .ok _ => Keeps .application a past
    | .error _ => KeepsNothing past := by
  cases hends with
  | notConnected e => exact ⟨rfl, rfl⟩
  | @rolledBack client steps e rolledBack returned hfails =>
    -- the ROLLBACK is one more statement of the transaction
    have hquery : AreQueries [⟨CutoverCall.query client .rollback, rolledBack⟩] :=
      areQueries_cons areQueries_nil
    have hreturns : ReturnsClient (connected client
        (steps ++ [⟨CutoverCall.query client .rollback, rolledBack⟩]) ++
          [⟨CutoverCall.release client, returned⟩]) :=
      returnsClient_of_areQueries (hfails.areQueries.append hquery)
    rw [connected_append, List.append_assoc] at hreturns
    exact ⟨legacyInserted_eq_nil hreturns.2.2, committed_of_failsAfter hfails _ _⟩
  | @runsThrough client steps value returned hruns =>
    have hreturns : ReturnsClient (connected client steps ++
        [⟨CutoverCall.release client, returned⟩]) :=
      returnsClient_of_areQueries hruns.areQueries
    cases hruns with
    | @mk r details auditRow outboxRow hdetails =>
      -- the details were made of the audit event that the adapter found, which is the one given
      obtain ⟨haudit, -⟩ := property_of_checkOptions h.audit_ne_undefined r.options_ok
      rw [haudit] at hdetails
      refine ⟨legacyInserted_eq_nil hreturns.2.2, details, hdetails, ?_⟩
      rw [← h.rows_eq r details]
      exact committed_of_runsThrough r details auditRow outboxRow returned

/-- A call keeps the record it answers with, once, and one that is not answered keeps nothing. -/
theorem settles_recordCustomer (activeWriter : Writer) (args : JsValue) :
    Settles Anything (CallEnds dates buildActionSpec activeWriter args) []
      (recordCustomer dates buildActionSpec activeWriter args) := by
  rw [recordCustomer]
  cases hadmitted : admission dates buildActionSpec args with
  | error refusal => exact .refused hadmitted
  | ok a =>
    cases activeWriter with
    | legacy =>
      refine Settles.tryAskBind (fun value => ?_) fun e => ?_
      · exact .kept hadmitted ⟨rfl, rfl⟩
      · exact .failed hadmitted ⟨rfl, rfl⟩
    | application =>
      refine (settles_insert dates a.canonical.toValue a.insertOptions).bind ?_ ?_
      · intro past value hends
        exact .kept hadmitted (keeps_of_insertEnds (admits_of_admission hadmitted) hends)
      · intro past e hends
        exact .failed hadmitted (keeps_of_insertEnds (admits_of_admission hadmitted) hends)

/-- Whatever the database and the pool answer: a call of the application writer that is answered
has committed one transaction, with the row of the canonical record that it answers with, the row
of the audit event and the row of the outbox event, all of the tenant the SDK has built the action
for and the two events under one correlation id; a call that is not answered has committed
nothing, and a call that is refused has not called anything. -/
theorem recordCustomer_atomic {σ : Type} (dates : Dates)
    (buildActionSpec : JsValue → Except Thrown JsValue) (args : JsValue)
    (outside : Outside cutover σ) (s : σ) :
    let r := Async.run outside (recordCustomer dates buildActionSpec .application args) s
    (∃ a details, Admits dates buildActionSpec args a ∧ r.outcome = .ok (.ok a.result) ∧
        CustomerDataCutover.auditDetails (property a.insertOptions "audit") = .ok details ∧
        committed r.history = [a.rows details] ∧
        (∀ row ∈ a.rows details, row.tenantId = some (.string a.canonical.tenantId)) ∧
        ∃ c, c ≠ [] ∧ (a.rows details).filterMap Row.correlationId = [.string c, .string c]) ∨
      ((∃ e, r.outcome = .error e) ∧ committed r.history = []) ∨
      ∃ refusal, r.outcome = .ok (.error refusal) ∧ r.history = [] := by
  intro r
  have hends : CallEnds dates buildActionSpec .application args r.history r.outcome :=
    (settles_recordCustomer .application args).run outside s (fun _ _ => trivial)
  generalize r.history = past at hends ⊢
  generalize r.outcome = outcome at hends ⊢
  -- a call is refused by its admission, or it is admitted and fails, or its rows are kept
  cases hends with
  | refused hadmitted => exact .inr (.inr ⟨_, rfl, rfl⟩)
  | @failed a past e hadmitted hnothing => exact .inr (.inl ⟨⟨e, rfl⟩, hnothing.2⟩)
  | @kept a past hadmitted hkeeps =>
    obtain ⟨-, details, hdetails, hcommitted⟩ := hkeeps
    have hadmits := admits_of_admission hadmitted
    exact .inl ⟨a, details, hadmits, rfl, hdetails, hcommitted, a.tenantId_rows details,
      hadmits.correlationId_rows details⟩

end Ends

end MetaframerKernel.CustomerModuleApi
