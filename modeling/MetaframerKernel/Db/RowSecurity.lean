import MetaframerKernel.Db.TenantContext

/-!
# Row-level security

The tables with a `tenant_id`, the statements that read and change their rows, and what the
policies, the grants and the triggers of the migrations make of them. Sessions run next to each
other at READ COMMITTED: a statement works on the committed rows with the changes of its own
transaction, and waits for a row or a key another transaction has changed. A statement that is
refused changes nothing, and the constraints of a table are checked when a statement is done.

The columns beside `id` and `tenant_id` are those of any type, and the conditions of statements and
what they assign are any functions of the rows. The users of sessions are bound by the policies and
the grants, and leave the objects as the migrations have made them.

## Main definitions

* `Columns.Hold`: the keys, the foreign key and the checks of a table;
* `execute`: what a statement reads and changes under a tenant;
* `Step`, `Run`: statements of any number of sessions of any users.

## Main results

* `execute_eq_some_iff`: the statements that are carried out, by the checks they pass;
* `called_of_touched`: what a session that is not the owner's reads and changes are rows of a tenant
  it has asked for in the same transaction.
-/

namespace MetaframerKernel.RowSecurity

open TenantContext

/-! ## Tables -/

/-- The tables with a `tenant_id`. -/
inductive TableName where
  | transactionalOutbox
  | auditLog
  | customerRecords
  | policyDecisionLog
deriving DecidableEq

/-- The tables with a trigger that refuses `UPDATE`, `DELETE` and `TRUNCATE`. -/
def TableName.appendOnly : TableName → Bool
  | .auditLog | .policyDecisionLog => true
  | .transactionalOutbox | .customerRecords => false

/-- What is granted on a table. -/
inductive Privilege where
  | select
  | insert
  | update
  | delete
  | truncate
deriving DecidableEq

/-- The grants of the migrations to the runtime role; the owner has all privileges. -/
def granted (isOwner : Bool) (table : TableName) : Privilege → Bool
  | .select | .insert => true
  | .update | .delete => isOwner || !table.appendOnly
  | .truncate => isOwner

/-- A row, with the columns beside its key and its tenant. -/
structure Row (Id V : Type) where
  id : Id
  tenantId : Uuid
  columns : V
deriving DecidableEq

variable {Id V ι : Type}

/-- The rows of each table. -/
abbrev Tables (Id V : Type) : Type := TableName → List (Row Id V)

/-- A change of a row, or of a whole table. -/
inductive Change (Id V : Type) where
  | insert (table : TableName) (new : Row Id V)
  | replace (table : TableName) (old new : Row Id V)
  | remove (table : TableName) (old : Row Id V)
  | clear (table : TableName)

namespace Change

/-- The table it is made in. -/
def table : Change Id V → TableName
  | insert table _ | replace table _ _ | remove table _ | clear table => table

/-- The rows it is about. -/
def rows : Change Id V → List (Row Id V)
  | insert _ new => [new]
  | replace _ old new => [old, new]
  | remove _ old => [old]
  | clear _ => []

/-- A change that leaves all rows there were. -/
def IsInsert : Change Id V → Prop
  | insert .. => True
  | _ => False

/-- A change that empties no table and keeps away from the rows of a tenant. -/
def Avoids (tenant : Uuid) : Change Id V → Prop
  | clear _ => False
  | c => ∀ row ∈ c.rows, row.tenantId ≠ tenant

variable [DecidableEq Id] [DecidableEq V]

/-- What a change makes of the rows of its table. -/
def applyTo : Change Id V → List (Row Id V) → List (Row Id V)
  | insert _ new, rows => rows ++ [new]
  | replace _ old new, rows => rows.map fun row => if row = old then new else row
  | remove _ old, rows => rows.filter (· ≠ old)
  | clear _, _ => []

/-- What a change makes of the tables. -/
def apply (tables : Tables Id V) (c : Change Id V) : Tables Id V :=
  Function.update tables c.table (c.applyTo (tables c.table))

end Change

/-- The tables after changes, in their order. -/
def applyAll [DecidableEq Id] [DecidableEq V] (tables : Tables Id V)
    (changes : List (Change Id V)) : Tables Id V :=
  changes.foldl Change.apply tables

/-! ## Constraints -/

/-- The columns that the constraints of the tables read, and their `CHECK` constraints, which read
one row. -/
structure Columns (Id V : Type) where
  dedupKey : V → Option Text
  entryHash : V → Text
  prevHash : V → Option Text
  check : TableName → Row Id V → Bool

namespace Columns

variable (columns : Columns Id V)

/-- The unique keys of a table beside the primary one, each within a tenant; a partial index leaves
rows out. -/
def uniqueKeys : TableName → List (V → Option Text)
  | .transactionalOutbox => [columns.dedupKey]
  | .policyDecisionLog =>
      [fun v => some (columns.entryHash v),
        fun v => if (columns.prevHash v).isNone then some [] else none,
        columns.prevHash]
  | .auditLog | .customerRecords => []

/-- The keys of some rows, each with its tenant. -/
def keysOf (key : V → Option Text) (rows : List (Row Id V)) : List (Uuid × Text) :=
  rows.filterMap fun row => (key row.columns).map (row.tenantId, ·)

/-- The constraints of a table hold of its rows. -/
structure Hold (table : TableName) (rows : List (Row Id V)) : Prop where
  primaryKey : (rows.map Row.id).Nodup
  uniqueKey : ∀ key ∈ columns.uniqueKeys table, (keysOf key rows).Nodup
  foreignKey : table = .policyDecisionLog → ∀ row ∈ rows, ∀ hash ∈ columns.prevHash row.columns,
    ∃ s ∈ rows, s.tenantId = row.tenantId ∧ columns.entryHash s.columns = hash
  check : ∀ row ∈ rows, columns.check table row = true

/-- Two rows that no table of some constraints takes together. -/
def Collide (table : TableName) (row row' : Row Id V) : Prop :=
  row.id = row'.id ∨ row.tenantId = row'.tenantId ∧ ∃ key ∈ columns.uniqueKeys table,
    ∃ value, key row.columns = some value ∧ key row'.columns = some value

instance [DecidableEq Id] (table : TableName) (rows : List (Row Id V)) :
    Decidable (columns.Hold table rows) :=
  decidable_of_iff ((rows.map Row.id).Nodup ∧
      (∀ key ∈ columns.uniqueKeys table, (keysOf key rows).Nodup) ∧
      (table = .policyDecisionLog → ∀ row ∈ rows, ∀ hash ∈ columns.prevHash row.columns,
        ∃ s ∈ rows, s.tenantId = row.tenantId ∧ columns.entryHash s.columns = hash) ∧
      ∀ row ∈ rows, columns.check table row = true)
    ⟨fun h => ⟨h.1, h.2.1, h.2.2.1, h.2.2.2⟩, fun h => ⟨h.1, h.2, h.3, h.4⟩⟩

end Columns

/-- Two changes that cannot be made by two transactions at once: they lock one row or one key, or
one of them the table. -/
def Change.Conflicts (columns : Columns Id V) (c c' : Change Id V) : Prop :=
  c.table = c'.table ∧
    ((∃ table, c = .clear table) ∨ (∃ table, c' = .clear table) ∨
      ∃ row ∈ c.rows, ∃ row' ∈ c'.rows, columns.Collide c.table row row')

/-! ## Statements -/

/-- A statement on the rows of a table. -/
inductive Dml (Id V : Type) where
  | select (table : TableName) (condition : Row Id V → Bool)
  | insert (table : TableName) (rows : List (Row Id V))
  | update (table : TableName) (condition : Row Id V → Bool) (assign : Row Id V → Row Id V)
  | delete (table : TableName) (condition : Row Id V → Bool)
  | truncate (table : TableName)

/-- What a statement reads and changes. -/
structure Effect (Id V : Type) where
  read : List (Row Id V)
  changes : List (Change Id V)

/-- All rows a statement has to do with. -/
def Effect.rows (effect : Effect Id V) : List (Row Id V) :=
  effect.read ++ effect.changes.flatMap Change.rows

/-- The policy `…_tenant_isolation` of a table, in `USING` and in `WITH CHECK`: a comparison with
`NULL` is not true. -/
def tenantIsolation (tenant : Option Uuid) (row : Row Id V) : Bool := tenant == some row.tenantId

/-- The rows that the policy shows and that meet a condition. -/
def visible (tenant : Option Uuid) (condition : Row Id V → Bool) (rows : List (Row Id V)) :
    List (Row Id V) :=
  rows.filter fun row => tenantIsolation tenant row && condition row

section Execute

variable [DecidableEq Id] [DecidableEq V]

/-- The rows of a table after an update of some of them. -/
def updated (rows : List (Row Id V)) (affected : List (Row Id V))
    (assign : Row Id V → Row Id V) : List (Row Id V) :=
  rows.map fun row => if row ∈ affected then assign row else row

/-- What a statement does to the tables a session sees, under the tenant its policies work with;
`none` when it is refused. -/
def execute (columns : Columns Id V) (isOwner : Bool) (tenant : Option Uuid) (view : Tables Id V) :
    Dml Id V → Option (Effect Id V)
  | .select table condition =>
      if granted isOwner table .select then some ⟨visible tenant condition (view table), []⟩
      else none
  | .insert table rows =>
      if granted isOwner table .insert && rows.all (tenantIsolation tenant) &&
          columns.Hold table (view table ++ rows) then
        some ⟨rows, rows.map (.insert table)⟩
      else none
  | .update table condition assign =>
      let affected := visible tenant condition (view table)
      if granted isOwner table .update && !table.appendOnly &&
          affected.all (fun row => tenantIsolation tenant (assign row)) &&
          columns.Hold table (updated (view table) affected assign) then
        some ⟨affected, affected.map fun row => .replace table row (assign row)⟩
      else none
  | .delete table condition =>
      if granted isOwner table .delete && !table.appendOnly then
        let affected := visible tenant condition (view table)
        some ⟨affected, affected.map (.remove table)⟩
      else none
  -- no policy applies to `TRUNCATE`
  | .truncate table =>
      if granted isOwner table .truncate && !table.appendOnly then some ⟨[], [.clear table]⟩
      else none

end Execute

/-- The policy lets through the rows of the current tenant. -/
theorem tenantIsolation_iff {tenant : Option Uuid} {row : Row Id V} :
    tenantIsolation tenant row = true ↔ tenant = some row.tenantId := beq_iff_eq

/-- A row is visible when it is the current tenant's and meets the condition. -/
theorem mem_visible {tenant : Option Uuid} {condition : Row Id V → Bool}
    {rows : List (Row Id V)} {row : Row Id V} :
    row ∈ visible tenant condition rows ↔
      row ∈ rows ∧ tenant = some row.tenantId ∧ condition row = true := by
  rw [visible, List.mem_filter, Bool.and_eq_true, tenantIsolation_iff]

/-! ## What a statement touches -/

section Touches

variable [DecidableEq Id] [DecidableEq V] {columns : Columns Id V} {isOwner : Bool}
  {tenant : Option Uuid} {view : Tables Id V} {dml : Dml Id V} {effect : Effect Id V}

/-- The statements that are carried out, with the checks they have passed. -/
inductive Executes (columns : Columns Id V) (isOwner : Bool) (tenant : Option Uuid)
    (view : Tables Id V) :
    Dml Id V → Effect Id V → Prop
  | select (table : TableName) (condition : Row Id V → Bool) :
      Executes columns isOwner tenant view (.select table condition)
        ⟨visible tenant condition (view table), []⟩
  | insert {table : TableName} {rows : List (Row Id V)} :
      (∀ row ∈ rows, tenant = some row.tenantId) → columns.Hold table (view table ++ rows) →
      Executes columns isOwner tenant view (.insert table rows) ⟨rows, rows.map (.insert table)⟩
  | update {table : TableName} {condition : Row Id V → Bool} {assign : Row Id V → Row Id V} :
      table.appendOnly = false →
      (∀ row ∈ visible tenant condition (view table), tenant = some (assign row).tenantId) →
      columns.Hold table (updated (view table) (visible tenant condition (view table)) assign) →
      Executes columns isOwner tenant view (.update table condition assign)
        ⟨visible tenant condition (view table),
          (visible tenant condition (view table)).map fun row => .replace table row (assign row)⟩
  | delete {table : TableName} (condition : Row Id V → Bool) : table.appendOnly = false →
      Executes columns isOwner tenant view (.delete table condition)
        ⟨visible tenant condition (view table),
          (visible tenant condition (view table)).map (.remove table)⟩
  | truncate {table : TableName} : isOwner = true → table.appendOnly = false →
      Executes columns isOwner tenant view (.truncate table) ⟨[], [.clear table]⟩

/-- The statements that are executed, with what effect. -/
theorem execute_eq_some_iff :
    execute columns isOwner tenant view dml = some effect ↔
      Executes columns isOwner tenant view dml effect := by
  -- by the statement: the grant, the policy and the trigger are the conditions of its rule
  constructor
  · intro h
    cases dml with
    | select table condition =>
      obtain rfl := Option.some.inj h
      exact .select table condition
    | insert table rows =>
      rw [execute, Option.ite_none_right_eq_some, Option.some.injEq] at h
      obtain ⟨hchecks, rfl⟩ := h
      simp only [granted, Bool.true_and, Bool.and_eq_true, List.all_eq_true, tenantIsolation_iff,
        decide_eq_true_iff] at hchecks
      exact .insert hchecks.1 hchecks.2
    | update table condition assign =>
      rw [execute, Option.ite_none_right_eq_some, Option.some.injEq] at h
      obtain ⟨hchecks, rfl⟩ := h
      simp only [Bool.and_eq_true, List.all_eq_true, tenantIsolation_iff, Bool.not_eq_true',
        decide_eq_true_iff] at hchecks
      exact .update hchecks.1.1.2 hchecks.1.2 hchecks.2
    | delete table condition =>
      rw [execute, Option.ite_none_right_eq_some, Option.some.injEq] at h
      obtain ⟨hchecks, rfl⟩ := h
      simp only [Bool.and_eq_true, Bool.not_eq_true'] at hchecks
      exact .delete condition hchecks.2
    | truncate table =>
      rw [execute, Option.ite_none_right_eq_some, Option.some.injEq] at h
      obtain ⟨hchecks, rfl⟩ := h
      simp only [granted, Bool.and_eq_true, Bool.not_eq_true'] at hchecks
      exact .truncate hchecks.1 hchecks.2
  · rintro (⟨table, condition⟩ | ⟨hrows, hkeys⟩ | ⟨htable, hrows, hkeys⟩ | ⟨condition, htable⟩ |
      ⟨howner, htable⟩)
    · rfl
    · rw [execute, if_pos]
      simp only [granted, Bool.true_and, Bool.and_eq_true, List.all_eq_true, tenantIsolation_iff,
        decide_eq_true_iff]
      exact ⟨hrows, hkeys⟩
    · rw [execute, if_pos]
      simp only [granted, htable, Bool.not_false, Bool.or_true, Bool.true_and, Bool.and_eq_true,
        List.all_eq_true, tenantIsolation_iff, decide_eq_true_iff]
      exact ⟨hrows, hkeys⟩
    · rw [execute, if_pos]
      simp only [granted, htable, Bool.not_false, Bool.or_true, Bool.true_and]
    · rw [execute, if_pos]
      simp only [granted, howner, htable, Bool.not_false, Bool.true_and]

/-- A statement has to do with rows of the tenant of its policies only. -/
theorem Executes.tenant_eq (h : Executes columns isOwner tenant view dml effect) :
    ∀ row ∈ effect.rows, tenant = some row.tenantId := by
  intro row hrow
  rw [Effect.rows, List.mem_append, List.mem_flatMap] at hrow
  cases h with
  | select table condition =>
    rcases hrow with hrow | ⟨c, hc, -⟩
    · exact (mem_visible.mp hrow).2.1
    · cases hc
  | insert hrows =>
    rcases hrow with hrow | ⟨c, hc, hrow⟩
    · exact hrows row hrow
    · obtain ⟨new, hnew, rfl⟩ := List.mem_map.mp hc
      obtain rfl := List.mem_singleton.mp hrow
      exact hrows row hnew
  | update _ hassigned =>
    rcases hrow with hrow | ⟨c, hc, hrow⟩
    · exact (mem_visible.mp hrow).2.1
    · obtain ⟨old, hold, rfl⟩ := List.mem_map.mp hc
      -- the row before is shown by the policy, and the row after is checked by it
      rcases List.mem_pair.mp hrow with rfl | rfl
      · exact (mem_visible.mp hold).2.1
      · exact hassigned old hold
  | delete condition =>
    rcases hrow with hrow | ⟨c, hc, hrow⟩
    · exact (mem_visible.mp hrow).2.1
    · obtain ⟨old, hold, rfl⟩ := List.mem_map.mp hc
      obtain rfl := List.mem_singleton.mp hrow
      exact (mem_visible.mp hold).2.1
  | truncate =>
    rcases hrow with hrow | ⟨c, hc, hrow⟩
    · cases hrow
    · obtain rfl := List.mem_singleton.mp hc
      cases hrow

/-- The rows of the changes, under the tenant of the policies. -/
theorem Executes.tenant_eq_of_change (h : Executes columns isOwner tenant view dml effect)
    {c : Change Id V} (hc : c ∈ effect.changes) : ∀ row ∈ c.rows, tenant = some row.tenantId :=
  fun row hrow => h.tenant_eq row
    (List.mem_append_right _ (List.mem_flatMap.mpr ⟨c, hc, hrow⟩))

/-- A statement of the runtime role keeps away from the rows of every tenant but that of its
policies. -/
theorem Executes.avoids (h : Executes columns false tenant view dml effect) {other : Uuid}
    (hother : tenant ≠ some other) : ∀ c ∈ effect.changes, c.Avoids other := by
  intro c hc
  have hrows : ∀ row ∈ c.rows, row.tenantId ≠ other := by
    rintro row hrow rfl
    exact hother (h.tenant_eq_of_change hc row hrow)
  cases c with
  | clear table =>
    -- only `TRUNCATE` empties a table, which is not granted
    cases h with
    | select => cases hc
    | truncate howner => cases howner
    | _ =>
      obtain ⟨_, -, heq⟩ := List.mem_map.mp hc
      cases heq
  | _ => exact hrows

/-- A statement adds rows to an append-only table and does nothing else to it. -/
theorem Executes.isInsert (h : Executes columns isOwner tenant view dml effect) :
    ∀ c ∈ effect.changes, c.table.appendOnly = true → c.IsInsert := by
  intro c hc hAppendOnly
  cases h with
  | select => cases hc
  | insert =>
    obtain ⟨new, -, rfl⟩ := List.mem_map.mp hc
    trivial
  | update htable =>
    obtain ⟨old, -, rfl⟩ := List.mem_map.mp hc
    exact absurd hAppendOnly (Bool.eq_false_iff.mp htable)
  | delete condition htable =>
    obtain ⟨old, -, rfl⟩ := List.mem_map.mp hc
    exact absurd hAppendOnly (Bool.eq_false_iff.mp htable)
  | truncate _ htable =>
    obtain rfl := List.mem_singleton.mp hc
    exact absurd hAppendOnly (Bool.eq_false_iff.mp htable)

/-- An update leaves a row with its tenant, whoever makes it. -/
theorem Executes.tenantId_eq (h : Executes columns isOwner tenant view dml effect)
    {table : TableName}
    {old new : Row Id V} (hc : .replace table old new ∈ effect.changes) :
    new.tenantId = old.tenantId := by
  have hold := h.tenant_eq_of_change hc old List.mem_cons_self
  have hnew := h.tenant_eq_of_change hc new (List.mem_cons_of_mem _ List.mem_cons_self)
  rw [hold] at hnew
  exact (Option.some.inj hnew).symm

end Touches

/-! ## Sessions -/

/-- The sessions with their settings, the committed rows, and for each session the changes of the
transaction it is in and what these were at its savepoints, the latest first. -/
structure State (ι Id V : Type) where
  context : TenantContext.State ι
  committed : Tables Id V
  pending : ι → List (Change Id V)
  saved : ι → List (List (Change Id V))

/-- Sessions that have just been opened on a database. -/
def State.initial (tables : Tables Id V) : State ι Id V where
  context := .initial
  committed := tables
  pending _ := []
  saved _ := []

/-- What a session does: a statement of the tenant context, or one on rows with its effect. -/
inductive Event (Id V : Type) where
  | context (stmt : Statement)
  | dml (dml : Dml Id V) (effect : Effect Id V)

/-- The rows it has to do with. -/
def Event.rows : Event Id V → List (Row Id V)
  | context _ => []
  | dml _ effect => effect.rows

/-- The statement of the tenant context it amounts to: a transaction has an identifier once it has
changed something. -/
def Event.statement? : Event Id V → Option Statement
  | context stmt => some stmt
  | dml _ effect => if effect.changes.isEmpty then none else some .assignXid

/-- The statements of the tenant context among events. -/
def statements (past : List (ι × Event Id V)) : List (ι × Statement) :=
  past.filterMap fun ev => ev.2.statement?.map (ev.1, ·)

section System

variable [DecidableEq ι] [DecidableEq Id] [DecidableEq V]

/-- The changes of a transaction, and those at its savepoints, after a statement of the tenant
context that leaves it that many savepoints. -/
def changesAfter (stmt : Statement) (left : ℕ) (pending : List (Change Id V))
    (saved : List (List (Change Id V))) : List (Change Id V) × List (List (Change Id V)) :=
  match stmt with
  | .begin | .commit | .rollback => ([], [])
  | .savepoint _ => (pending, pending :: saved)
  | .rollbackTo _ =>
      -- what was changed since the savepoint is given up, the savepoint itself stays
      let kept := saved.drop (saved.length - left)
      (kept.headD pending, kept)
  | .release _ => (pending, saved.drop (saved.length - left))
  | .set .. | .assignXid | .beginTenantContext _ => (pending, saved)

/-- The committed rows after a statement of the tenant context. -/
def committedAfter (stmt : Statement) (pending : List (Change Id V)) (committed : Tables Id V) :
    Tables Id V :=
  match stmt with
  | .commit => applyAll committed pending
  | _ => committed

/-- The savepoints of the transaction a session is in. -/
def savepointsOf (context : TenantContext.State ι) (i : ι) : ℕ :=
  ((context.sessions i).tx.map fun tx => tx.savepoints.length).getD 0

/-- The state after a statement of the tenant context. -/
def State.after (s : State ι Id V) (i : ι) (stmt : Statement)
    (context : TenantContext.State ι) : State ι Id V :=
  let (pending, saved) := changesAfter stmt (savepointsOf context i) (s.pending i) (s.saved i)
  { context
    committed := committedAfter stmt (s.pending i) s.committed
    pending := Function.update s.pending i pending
    saved := Function.update s.saved i saved }

/-- The state after changes of rows. -/
def State.change (s : State ι Id V) (i : ι) (changes : List (Change Id V))
    (context : TenantContext.State ι) : State ι Id V :=
  { s with context, pending := Function.update s.pending i (s.pending i ++ changes) }

/-- The rows a session works on. -/
def State.view (s : State ι Id V) (i : ι) : Tables Id V := applyAll s.committed (s.pending i)

variable (hmac : Text → Text → Text) (secret objectOwner : Text) (users : ι → Text)
  (columns : Columns Id V)

/-- The tenant the policies work with in a session. -/
def State.currentTenant (s : State ι Id V) (i : ι) : Option Uuid :=
  mfkCurrentTenant hmac (some secret) (users i) objectOwner (s.context.sessions i)

/-- A statement of the tenant context. The owner may read the secret, and so may set any text. -/
inductive ContextStep (context : TenantContext.State ι) :
    ι × Statement → TenantContext.State ι → Prop
  | role {ev : ι × Statement} {context' : TenantContext.State ι} :
      TenantContext.Step hmac secret context ev context' → ContextStep context ev context'
  | ownerSet {i : ι} {settings : Settings} {tx : Tx} (isLocal : Bool) (name : SettingName)
      (value : Text) : users i = objectOwner → context.sessions i = ⟨settings, some tx⟩ →
      ContextStep context (i, .set isLocal name value)
        (context.withSession i ⟨settings.set isLocal name value, some tx⟩)

/-- One statement in one session. -/
inductive Step (s : State ι Id V) : ι × Event Id V → State ι Id V → Prop
  | context {i : ι} {stmt : Statement} {context' : TenantContext.State ι} :
      ContextStep hmac secret objectOwner users s.context (i, stmt) context' →
      Step s (i, .context stmt) (s.after i stmt context')
  | read {i : ι} {dml : Dml Id V} {effect : Effect Id V} :
      (s.context.sessions i).tx.isSome = true →
      execute columns (users i = objectOwner) (s.currentTenant hmac secret objectOwner users i)
        (s.view i)
        dml = some effect → effect.changes = [] → Step s (i, .dml dml effect) s
  | change {i : ι} {dml : Dml Id V} {effect : Effect Id V} {context' : TenantContext.State ι} :
      execute columns (users i = objectOwner) (s.currentTenant hmac secret objectOwner users i)
        (s.view i)
        dml = some effect → effect.changes ≠ [] →
      (∀ j ≠ i, ∀ c ∈ effect.changes, ∀ c' ∈ s.pending j, ¬c.Conflicts columns c') →
      TenantContext.Step hmac secret s.context (i, .assignXid) context' →
      Step s (i, .dml dml effect) (s.change i effect.changes context')

/-- Statements one after another, the latest first. -/
inductive Steps (s : State ι Id V) : List (ι × Event Id V) → State ι Id V → Prop
  | refl : Steps s [] s
  | step {past : List (ι × Event Id V)} {s' s'' : State ι Id V} {ev : ι × Event Id V} :
      Steps s past s' → Step hmac secret objectOwner users columns s' ev s'' →
        Steps s (ev :: past) s''

/-- A run from newly opened sessions on a database. -/
def Run (tables : Tables Id V) (past : List (ι × Event Id V)) (s : State ι Id V) : Prop :=
  Steps hmac secret objectOwner users columns (.initial tables) past s

end System

/-! ## The rows a session touches -/

section Runs

variable [DecidableEq ι] [DecidableEq Id] [DecidableEq V] {hmac : Text → Text → Text}
  {secret objectOwner : Text} {users : ι → Text} {columns : Columns Id V} {tables : Tables Id V}
  {past : List (ι × Event Id V)} {s s' s'' : State ι Id V}

/-- Without the owner, a run is one of the tenant context. -/
theorem Run.context (hrole : ∀ i, users i ≠ objectOwner)
    (h : Run hmac secret objectOwner users columns tables past s) :
    TenantContext.Run hmac secret (statements past) s.context := by
  unfold Run at h
  induction h with
  | refl => exact .start
  | @step past s' s'' ev _ hstep ih =>
    cases hstep with
    | context hcontext =>
      cases hcontext with
      | role hstep => exact ih.step hstep
      | ownerSet _ _ _ howner => exact absurd howner (hrole _)
    | @read i dml effect _ _ hnone =>
      -- a statement that changes nothing assigns no transaction id
      have hstmt : statements ((i, .dml dml effect) :: past) = statements past := by
        simp [statements, Event.statement?, hnone]
      rwa [hstmt]
    | @change i dml effect context' _ hsome _ hstep =>
      have hstmt : statements ((i, .dml dml effect) :: past) =
          (i, .assignXid) :: statements past := by
        simp [statements, Event.statement?, hsome]
      rw [hstmt]
      exact ih.step hstep

/-- A part of a run. -/
theorem Steps.split {s : State ι Id V} {later : List (ι × Event Id V)}
    (h : Steps hmac secret objectOwner users columns s (later ++ past) s'') :
    ∃ s', Steps hmac secret objectOwner users columns s past s' ∧
      Steps hmac secret objectOwner users columns s' later s'' := by
  induction later generalizing s'' with
  | nil => exact ⟨s'', h, .refl⟩
  | cons ev later ih =>
    cases h with
    | step h hstep =>
      obtain ⟨s', hpast, hlater⟩ := ih h
      exact ⟨s', hpast, hlater.step hstep⟩

/-- What a step that touches rows has executed. -/
theorem Step.executes {i : ι} {dml : Dml Id V} {effect : Effect Id V}
    (h : Step hmac secret objectOwner users columns s (i, .dml dml effect) s') :
    Executes columns (users i = objectOwner) (s.currentTenant hmac secret objectOwner users i)
      (s.view i)
      dml effect := by
  cases h with
  | read _ h => exact execute_eq_some_iff.mp h
  | change h => exact execute_eq_some_iff.mp h

/-- In any run of sessions that are not the owner's, whatever they set, take back and condition
their statements on, the rows a statement reads, adds, changes or removes are all of tenants that
`mfk_begin_tenant_context` has been called for in its own transaction. -/
theorem called_of_touched (hcollision : CollisionFree hmac secret)
    (hrole : ∀ i, users i ≠ objectOwner) {later : List (ι × Event Id V)} {i : ι} {ev : Event Id V}
    (h : Run hmac secret objectOwner users columns tables (later ++ (i, ev) :: past) s) :
    ∀ row ∈ ev.rows, row.tenantId ∈ calledInTransaction i (statements past) := by
  intro row hrow
  obtain ⟨s', hpast, -⟩ := Steps.split h
  cases hpast with
  | @step _ before _ _ hpast hstep =>
    cases ev with
    | context stmt => cases hrow
    | dml dml effect =>
      obtain ⟨xid, hxid, hattested⟩ :=
        attested_of_currentTenant (hrole i) (hstep.executes.tenant_eq row hrow)
      exact (Run.context hrole hpast).called_of_attested hcollision hxid hattested

end Runs

/-! ## A sample run -/

/-- The user of a sample run and the owner of the tables. -/
def sampleUser : Text := ['a', 'p', 'p']

def sampleOwner : Text := ['o', 'w', 'n', 'e', 'r']

/-- Rows with a hash and the hash they link to; a row does not link to itself. -/
def sampleColumns : Columns ℕ (Text × Option Text) where
  dedupKey _ := none
  entryHash := Prod.fst
  prevHash := Prod.snd
  check _ row := row.columns.2 != some row.columns.1

/-- The first row of the log of a tenant. -/
def genesisRow (id : ℕ) (tenant : Uuid) : Row ℕ (Text × Option Text) :=
  ⟨id, tenant, List.replicate 64 'a', none⟩

/-- The row of the sample tenant is inserted in one statement. -/
def sampleInsert : Event ℕ (Text × Option Text) :=
  .dml (.insert .policyDecisionLog [genesisRow 1 sampleTenant])
    ⟨[genesisRow 1 sampleTenant], [.insert .policyDecisionLog (genesisRow 1 sampleTenant)]⟩

/-- A session asks for the sample tenant, inserts the row and commits it. -/
def samplePast : List (Bool × Event ℕ (Text × Option Text)) :=
  [(false, .context .commit), (false, sampleInsert),
    (false, .context (.beginTenantContext sampleTenant)), (false, .context .begin)]

/-- The settings of a session that has set nothing. -/
def unset : Settings := ⟨⟨none, none⟩, ⟨none, none⟩⟩

/-- The session of the run once it has asked for the tenant. -/
def sampleSession : Session :=
  let xid : Xid := ⟨7, by decide⟩
  ⟨unset.beginTenantContext sampleHmac sampleSecret sampleTenant xid, some ⟨some xid, unset, []⟩⟩

/-- The run is possible where the log takes the row, and leaves the other session as it was. -/
theorem exists_sampleRun (users : Bool → Text) (huser : users false = sampleUser)
    (tables : Tables ℕ (Text × Option Text))
    (hhold : sampleColumns.Hold .policyDecisionLog
      (tables .policyDecisionLog ++ [genesisRow 1 sampleTenant])) :
    ∃ s, Run sampleHmac sampleSecret sampleOwner users sampleColumns tables samplePast s ∧
      s.committed = applyAll tables [.insert .policyDecisionLog (genesisRow 1 sampleTenant)] ∧
      s.context.sessions true = ⟨unset, none⟩ ∧ s.pending true = [] ∧ s.context.used = [7, 7] ∧
      s.pending false = [] := by
  have h₀ : Run sampleHmac sampleSecret sampleOwner users sampleColumns tables []
      (.initial tables) := .refl
  have h₁ := Steps.step h₀ (.context (i := false) (.role (.begin rfl)))
  have h₂ := h₁.step (.context (i := false) (.role (.beginTenantContext sampleTenant rfl
    (show Assigns _ _ (7 : Xid) from .inr ⟨rfl, List.not_mem_nil⟩))))
  -- the keyed hash of the session is checked by evaluation
  have htenant : mfkCurrentTenant sampleHmac (some sampleSecret) sampleUser sampleOwner
      sampleSession = some sampleTenant := by decide +kernel
  have h₃ := h₂.step (show Step _ _ _ _ _ _ (false, sampleInsert) _ from
    .change ?_ (List.cons_ne_nil _ _) (fun j hj c hc c' hc' => ?_) (.assignXid rfl (.inl rfl)))
  have h₄ := h₃.step (.context (i := false) (.role (.commit rfl)))
  · exact ⟨_, h₄, rfl, rfl, rfl, rfl, rfl⟩
  · rw [execute_eq_some_iff]
    refine .insert (fun row hrow => ?_) hhold
    obtain rfl := List.mem_singleton.mp hrow
    rw [State.currentTenant, huser]
    exact htenant
  · obtain rfl : j = true := Bool.eq_true_of_not_eq_false hj
    cases hc'

theorem called_of_touched_sample : ∃ s,
    Run sampleHmac sampleSecret sampleOwner (fun _ => sampleUser) sampleColumns (fun _ => [])
      samplePast s ∧
      ∀ row ∈ sampleInsert.rows,
        row.tenantId ∈ calledInTransaction false (statements (samplePast.drop 2)) := by
  obtain ⟨s, h, -⟩ := exists_sampleRun (fun _ => sampleUser) rfl (fun _ => []) (by decide)
  have hsplit : Run sampleHmac sampleSecret sampleOwner (fun _ => sampleUser) sampleColumns
      (fun _ => []) (samplePast.take 1 ++ (false, sampleInsert) :: samplePast.drop 2) s := h
  exact ⟨s, h, called_of_touched (collisionFree_sampleHmac _) (fun _ => by decide) hsplit⟩

end MetaframerKernel.RowSecurity
