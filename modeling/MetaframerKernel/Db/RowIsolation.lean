import MetaframerKernel.Db.RowSecurity

/-!
# Isolation of tenants and append-only tables

What row-level security, the grants and the triggers keep in every run of sessions next to each
other: what tenants can learn of each other, and what nobody can take back.

## Main definitions

* `State.Pending`: what holds of every change a session can come to commit;
* `State.erase`: the database without the rows of a tenant.

## Main results

* `run_erase`: sessions that do not ask for a tenant leave its rows as they are, and do the same in
  the database without them;
* `appendOnly_of_steps`: no user changes or removes a committed row of an append-only table, or
  moves a row to another tenant.
-/

namespace MetaframerKernel.RowSecurity

open TenantContext

variable {Id V ι : Type}

/-! ## The changes that are pending -/

/-- What holds of every change a session can come to commit. -/
def State.Pending (P : Change Id V → Prop) (s : State ι Id V) : Prop :=
  ∀ i, (∀ c ∈ s.pending i, P c) ∧ ∀ changes ∈ s.saved i, ∀ c ∈ changes, P c

/-- Newly opened sessions have nothing pending. -/
theorem pending_initial (P : Change Id V → Prop) (tables : Tables Id V) :
    (State.initial tables : State ι Id V).Pending P :=
  fun _ => ⟨nofun, nofun⟩

section Pending

variable {P : Change Id V → Prop}

/-- A statement of the tenant context brings back changes of the transaction or drops them. -/
theorem changesAfter_all (stmt : Statement) (left : ℕ) {pending : List (Change Id V)}
    {saved : List (List (Change Id V))} (hpending : ∀ c ∈ pending, P c)
    (hsaved : ∀ changes ∈ saved, ∀ c ∈ changes, P c) :
    (∀ c ∈ (changesAfter stmt left pending saved).1, P c) ∧
      ∀ changes ∈ (changesAfter stmt left pending saved).2, ∀ c ∈ changes, P c := by
  have hkept : ∀ changes ∈ saved.drop (saved.length - left), ∀ c ∈ changes, P c :=
    fun changes hmem => hsaved changes (List.drop_subset _ _ hmem)
  cases stmt with
  | begin => exact ⟨nofun, nofun⟩
  | commit => exact ⟨nofun, nofun⟩
  | rollback => exact ⟨nofun, nofun⟩
  | savepoint name => exact ⟨hpending, List.forall_mem_cons.mpr ⟨hpending, hsaved⟩⟩
  | rollbackTo name =>
    rw [changesAfter]
    refine ⟨?_, hkept⟩
    -- a rollback to a savepoint goes back to what was pending there
    cases hdrop : saved.drop (saved.length - left) with
    | nil => exact hpending
    | cons changes kept => exact hkept changes (hdrop ▸ List.mem_cons_self)
  | release name => exact ⟨hpending, hkept⟩
  | set isLocal name value => exact ⟨hpending, hsaved⟩
  | assignXid => exact ⟨hpending, hsaved⟩
  | beginTenantContext tenant => exact ⟨hpending, hsaved⟩

variable [DecidableEq ι] [DecidableEq Id] [DecidableEq V] {hmac : Text → Text → Text}
  {secret objectOwner : Text} {users : ι → Text} {columns : Columns Id V} {s s' : State ι Id V}
    {ev : ι × Event Id V}

/-- What holds of every pending change is kept by a statement whose changes have it. -/
theorem State.Pending.step (h : s.Pending P)
    (hstep : Step hmac secret objectOwner users columns s ev s')
    (hev : ∀ dml effect, ev.2 = .dml dml effect → ∀ c ∈ effect.changes, P c) : s'.Pending P := by
  cases hstep with
  | @context i stmt context' =>
    intro j
    have hafter := changesAfter_all stmt (savepointsOf context' i) (h i).1 (h i).2
    by_cases hji : j = i
    · subst hji
      simpa only [State.after, Function.update_self] using hafter
    · simpa only [State.after, Function.update_of_ne hji] using h j
  | read => exact h
  | @change i dml effect context' =>
    intro j
    refine ⟨?_, (h j).2⟩
    by_cases hji : j = i
    · subst hji
      simp only [State.change, Function.update_self]
      exact List.forall_mem_append.mpr ⟨(h j).1, hev dml effect rfl⟩
    · simpa only [State.change, Function.update_of_ne hji] using (h j).1

end Pending

/-! ## The database without a tenant -/

/-- The rows of a tenant, and those of the others. -/
def rowsOf (tenant : Uuid) (rows : List (Row Id V)) : List (Row Id V) :=
  rows.filter (·.tenantId = tenant)

def eraseRows (tenant : Uuid) (rows : List (Row Id V)) : List (Row Id V) :=
  rows.filter (·.tenantId ≠ tenant)

/-- The database without the rows of a tenant. -/
def eraseTables (tenant : Uuid) (tables : Tables Id V) : Tables Id V :=
  fun table => eraseRows tenant (tables table)

def State.erase (tenant : Uuid) (s : State ι Id V) : State ι Id V :=
  { s with committed := eraseTables tenant s.committed }

section Erase

variable [DecidableEq Id] [DecidableEq V] {tenant : Uuid} {c : Change Id V}
  {rows : List (Row Id V)} {tables : Tables Id V} {changes : List (Change Id V)}

/-- A change that keeps away from a tenant is the same change without its rows. -/
theorem Change.Avoids.eraseRows_applyTo (h : c.Avoids tenant) (rows : List (Row Id V)) :
    eraseRows tenant (c.applyTo rows) = c.applyTo (eraseRows tenant rows) := by
  cases c with
  | insert table new =>
    have hnew : new.tenantId ≠ tenant := h new List.mem_cons_self
    simp [eraseRows, Change.applyTo, hnew]
  | replace table old new =>
    have hold : old.tenantId ≠ tenant := h old List.mem_cons_self
    have hnew : new.tenantId ≠ tenant := h new (List.mem_cons_of_mem _ List.mem_cons_self)
    simp only [eraseRows, Change.applyTo, List.filter_map]
    refine congrArg (List.map _) (List.filter_congr fun row _ => ?_)
    by_cases hrow : row = old
    · simp [hrow, hold, hnew]
    · simp [hrow]
  | remove table old => simp only [eraseRows, Change.applyTo, List.filter_filter, Bool.and_comm]
  | clear table => exact h.elim

/-- And it leaves them as they are. -/
theorem Change.Avoids.rowsOf_applyTo (h : c.Avoids tenant) (rows : List (Row Id V)) :
    rowsOf tenant (c.applyTo rows) = rowsOf tenant rows := by
  -- a change of rows of other tenants is not seen among those of the tenant
  cases c with
  | insert table new =>
    have hnew : new.tenantId ≠ tenant := h new List.mem_cons_self
    simp [rowsOf, Change.applyTo, hnew]
  | replace table old new =>
    have hold : old.tenantId ≠ tenant := h old List.mem_cons_self
    have hnew : new.tenantId ≠ tenant := h new (List.mem_cons_of_mem _ List.mem_cons_self)
    rw [rowsOf, Change.applyTo, List.filter_map, rowsOf]
    have hfilter : rows.filter ((fun row : Row Id V => decide (row.tenantId = tenant)) ∘
        fun row => if row = old then new else row) = rows.filter (·.tenantId = tenant) := by
      refine List.filter_congr fun row _ => ?_
      by_cases hrow : row = old
      · simp [hrow, hold, hnew]
      · simp [hrow]
    rw [hfilter]
    -- among the rows of the tenant the replaced one does not occur
    conv_rhs => rw [← List.map_id (rows.filter _)]
    refine List.map_congr_left fun row hrow => if_neg ?_
    rintro rfl
    exact hold (of_decide_eq_true (List.mem_filter.mp hrow).2)
  | remove table old =>
    have hold : old.tenantId ≠ tenant := h old List.mem_cons_self
    rw [rowsOf, Change.applyTo, List.filter_filter, rowsOf]
    refine List.filter_congr fun row _ => ?_
    by_cases hrow : row = old
    · simp [hrow, hold]
    · simp [hrow]
  | clear table => exact h.elim

/-- Changes that avoid the tenant are made alike without its rows. -/
theorem eraseTables_applyAll (h : ∀ c ∈ changes, c.Avoids tenant) (tables : Tables Id V) :
    eraseTables tenant (applyAll tables changes) =
      applyAll (eraseTables tenant tables) changes := by
  induction changes generalizing tables with
  | nil => rfl
  | cons c changes ih =>
    have happly : eraseTables tenant (c.apply tables) = c.apply (eraseTables tenant tables) := by
      funext table
      by_cases htable : table = c.table
      · subst htable
        simp only [eraseTables, Change.apply, Function.update_self]
        exact (h c List.mem_cons_self).eraseRows_applyTo _
      · simp only [eraseTables, Change.apply, Function.update_of_ne htable]
    rw [applyAll, List.foldl_cons, applyAll, List.foldl_cons, ← happly]
    exact ih (fun c hc => h c (List.mem_cons_of_mem _ hc)) _

/-- Changes that avoid the tenant leave its rows. -/
theorem rowsOf_applyAll (h : ∀ c ∈ changes, c.Avoids tenant) (tables : Tables Id V)
    (table : TableName) :
    rowsOf tenant (applyAll tables changes table) = rowsOf tenant (tables table) := by
  induction changes generalizing tables with
  | nil => rfl
  | cons c changes ih =>
    have happly : rowsOf tenant (c.apply tables table) = rowsOf tenant (tables table) := by
      by_cases htable : table = c.table
      · subst htable
        simp only [Change.apply, Function.update_self]
        exact (h c List.mem_cons_self).rowsOf_applyTo _
      · simp only [Change.apply, Function.update_of_ne htable]
    rw [applyAll, List.foldl_cons, ← happly]
    exact ih (fun c hc => h c (List.mem_cons_of_mem _ hc)) _

omit [DecidableEq Id] [DecidableEq V] in
/-- What the policy shows under another tenant does not depend on the rows. -/
theorem visible_eraseRows {current : Option Uuid} (h : current ≠ some tenant)
    (condition : Row Id V → Bool) (rows : List (Row Id V)) :
    visible current condition (eraseRows tenant rows) = visible current condition rows := by
  rw [visible, eraseRows, List.filter_filter]
  refine List.filter_congr fun row _ => ?_
  by_cases hrow : row.tenantId = tenant
  · have hhidden : tenantIsolation current row = false := by
      rw [Bool.eq_false_iff, ne_eq, tenantIsolation_iff, hrow]
      exact h
    simp [hhidden]
  · simp [hrow]

omit [DecidableEq Id] [DecidableEq V] in
/-- Every key of a table is within a tenant, and so is its foreign key: the constraints hold without
the rows. -/
theorem Columns.Hold.erase {columns : Columns Id V} {table : TableName}
    (h : columns.Hold table rows) : columns.Hold table (eraseRows tenant rows) where
  primaryKey := h.primaryKey.sublist (List.filter_sublist.map _)
  uniqueKey key hkey := (h.uniqueKey key hkey).sublist (List.filter_sublist.filterMap _)
  foreignKey htable row hrow hash hhash := by
    obtain ⟨hrow, hother⟩ := List.mem_filter.mp hrow
    -- the row that is referred to is of the same tenant, and so is kept
    obtain ⟨s, hs, htenant, hsame⟩ := h.foreignKey htable row hrow hash hhash
    exact ⟨s, List.mem_filter.mpr ⟨hs, by rwa [htenant]⟩, htenant, hsame⟩
  check row hrow := h.check row (List.mem_filter.mp hrow).1

/-- An update of rows of other tenants, which stay theirs, is the same without the rows. -/
theorem eraseRows_updated {affected : List (Row Id V)} {assign : Row Id V → Row Id V}
    (h : ∀ row ∈ affected, row.tenantId ≠ tenant ∧ (assign row).tenantId ≠ tenant) :
    eraseRows tenant (updated rows affected assign) =
      updated (eraseRows tenant rows) affected assign := by
  simp only [eraseRows, updated, List.filter_map]
  refine congrArg (List.map _) (List.filter_congr fun row _ => ?_)
  by_cases hrow : row ∈ affected
  · simp [hrow, h row hrow]
  · simp [hrow]

/-- A statement that is carried out under another tenant is so, with the same effect, without the
rows. -/
theorem Executes.erase {columns : Columns Id V} {current : Option Uuid} {view : Tables Id V}
    {dml : Dml Id V} {effect : Effect Id V} (h : Executes columns false current view dml effect)
    (hcurrent : current ≠ some tenant) :
    Executes columns false current (eraseTables tenant view) dml effect := by
  have hvisible (table : TableName) (condition : Row Id V → Bool) :
      visible current condition (eraseTables tenant view table) =
        visible current condition (view table) := visible_eraseRows hcurrent condition _
  have hother {row : Row Id V} (hrow : current = some row.tenantId) : row.tenantId ≠ tenant := by
    rintro rfl
    exact hcurrent hrow
  -- what the statement sees and writes is of another tenant, so the rows make no difference to it
  cases h with
  | select table condition =>
    rw [← hvisible]
    exact .select table condition
  | insert hrows hhold =>
    refine .insert hrows ?_
    have hnew : columns.Hold _ (eraseRows tenant _) := hhold.erase
    rwa [eraseRows, List.filter_append, List.filter_eq_self.mpr fun row hrow =>
      decide_eq_true (hother (hrows row hrow))] at hnew
  | update htable hassigned hhold =>
    have hnew : columns.Hold _ (eraseRows tenant _) := hhold.erase
    rw [eraseRows_updated fun row hrow =>
      ⟨hother (mem_visible.mp hrow).2.1, hother (hassigned row hrow)⟩] at hnew
    rw [← hvisible] at hassigned hnew ⊢
    exact .update htable hassigned hnew
  | delete condition htable =>
    rw [← hvisible]
    exact .delete condition htable
  | truncate howner => cases howner

/-- Without the rows a session sees what it saw, without them. -/
theorem State.view_erase {s : State ι Id V} (h : s.Pending (Change.Avoids tenant)) (i : ι) :
    (s.erase tenant).view i = eraseTables tenant (s.view i) :=
  (eraseTables_applyAll (h i).1 _).symm

variable [DecidableEq ι] {hmac : Text → Text → Text} {secret objectOwner : Text}
  {users : ι → Text} {columns : Columns Id V} {s s' : State ι Id V} {i : ι} {ev : Event Id V}

/-- A statement of the tenant context does the same without the rows. -/
theorem State.after_erase (h : s.Pending (Change.Avoids tenant)) (i : ι) (stmt : Statement)
    (context : TenantContext.State ι) :
    (s.erase tenant).after i stmt context = (s.after i stmt context).erase tenant := by
  have hcommitted : committedAfter stmt (s.pending i) (eraseTables tenant s.committed) =
      eraseTables tenant (committedAfter stmt (s.pending i) s.committed) := by
    cases stmt with
    | commit => exact (eraseTables_applyAll (h i).1 _).symm
    | _ => rfl
  simp only [State.after, State.erase, hcommitted]

/-- A statement under another tenant is carried out alike without the rows. -/
theorem Step.erase (h : Step hmac secret objectOwner users columns s (i, ev) s')
    (hrole : users i ≠ objectOwner) (hpending : s.Pending (Change.Avoids tenant))
    (hcurrent : s.currentTenant hmac secret objectOwner users i ≠ some tenant) :
    Step hmac secret objectOwner users columns (s.erase tenant) (i, ev) (s'.erase tenant) := by
  have hexecute {dml : Dml Id V} {effect : Effect Id V}
      (hexec : execute columns (users i = objectOwner)
        (s.currentTenant hmac secret objectOwner users i) (s.view i) dml = some effect) :
      execute columns (users i = objectOwner)
        ((s.erase tenant).currentTenant hmac secret objectOwner users i)
        ((s.erase tenant).view i) dml = some effect := by
    rw [decide_eq_false hrole, execute_eq_some_iff] at hexec ⊢
    rw [State.view_erase hpending]
    exact hexec.erase hcurrent
  cases h with
  | context hcontext =>
    rw [← State.after_erase hpending]
    exact .context hcontext
  | read htx hexec hnone => exact .read htx (hexecute hexec) hnone
  | change hexec hsome hlocks hstep => exact .change (hexecute hexec) hsome hlocks hstep

end Erase

section Isolation

variable [DecidableEq ι] [DecidableEq Id] [DecidableEq V] {hmac : Text → Text → Text}
  {secret objectOwner : Text} {users : ι → Text} {columns : Columns Id V} {tables : Tables Id V}
  {past : List (ι × Event Id V)} {s s' : State ι Id V} {tenant : Uuid}

/-- A tenant asked for in the transaction was asked for. -/
theorem mem_of_calledInTransaction {i : ι} {past : List (ι × Statement)}
    (h : tenant ∈ calledInTransaction i past) : (i, .beginTenantContext tenant) ∈ past := by
  induction past with
  | nil => cases h
  | cons ev past ih =>
    obtain ⟨j, stmt⟩ := ev
    -- only a `BEGIN` forgets, and only a call of the function adds
    cases stmt with
    | begin =>
      rw [calledInTransaction] at h
      split_ifs at h
      · cases h
      · exact List.mem_cons_of_mem _ (ih h)
    | beginTenantContext called =>
      rw [calledInTransaction] at h
      split_ifs at h with hji
      · rcases List.mem_cons.mp h with rfl | h
        · rw [hji]
          exact List.mem_cons_self
        · exact List.mem_cons_of_mem _ (ih h)
      · exact List.mem_cons_of_mem _ (ih h)
    | _ => exact List.mem_cons_of_mem _ (ih h)

/-- A session works with no tenant that nobody has asked for. -/
theorem Run.currentTenant_ne (hcollision : CollisionFree hmac secret)
    (hrole : ∀ i, users i ≠ objectOwner)
    (h : Run hmac secret objectOwner users columns tables past s)
    (hnot : ∀ i, (i, .context (.beginTenantContext tenant)) ∉ past) (i : ι) :
    s.currentTenant hmac secret objectOwner users i ≠ some tenant := by
  intro hcurrent
  obtain ⟨xid, hxid, hattested⟩ := attested_of_currentTenant (hrole i) hcurrent
  have hcalled := mem_of_calledInTransaction
    ((h.context hrole).called_of_attested hcollision hxid hattested)
  obtain ⟨⟨j, ev⟩, hev, hstmt⟩ := List.mem_filterMap.mp hcalled
  obtain ⟨stmt, hstmt, heq⟩ := Option.map_eq_some_iff.mp hstmt
  obtain ⟨rfl, rfl⟩ := Prod.mk.inj heq
  cases ev with
  | context stmt =>
    obtain rfl := Option.some.inj hstmt
    exact hnot j hev
  | dml dml effect =>
    rw [Event.statement?] at hstmt
    split_ifs at hstmt
    cases hstmt

/-- Sessions that are not the owner's and never ask for a tenant leave its rows as they are, and
read and change the same in the database without them. -/
theorem run_erase (hcollision : CollisionFree hmac secret) (hrole : ∀ i, users i ≠ objectOwner)
    (h : Run hmac secret objectOwner users columns tables past s)
    (hnot : ∀ i, (i, .context (.beginTenantContext tenant)) ∉ past) :
    Run hmac secret objectOwner users columns (eraseTables tenant tables) past (s.erase tenant) ∧
      ∀ table, rowsOf tenant (s.committed table) = rowsOf tenant (tables table) := by
  -- what is pending has to avoid the tenant too, since a commit applies it
  suffices hall : s.Pending (Change.Avoids tenant) ∧
      Run hmac secret objectOwner users columns (eraseTables tenant tables) past (s.erase tenant) ∧
      ∀ table, rowsOf tenant (s.committed table) = rowsOf tenant (tables table) from hall.2
  unfold Run at h
  induction h with
  | refl => exact ⟨pending_initial _ _, .refl, fun _ => rfl⟩
  | @step past s s' ev hpast hstep ih =>
    obtain ⟨i, ev⟩ := ev
    have hnot' : ∀ i, (i, .context (.beginTenantContext tenant)) ∉ past :=
      fun i hmem => hnot i (List.mem_cons_of_mem _ hmem)
    obtain ⟨hpending, hrun, hkept⟩ := ih hnot'
    -- the context of the session is not that of the tenant, so its policies show none of its rows
    have hcurrent := Run.currentTenant_ne hcollision hrole hpast hnot' i
    refine ⟨hpending.step hstep ?_, hrun.step (hstep.erase (hrole i) hpending hcurrent), ?_⟩
    · rintro dml effect rfl
      have hexecutes := hstep.executes
      rw [decide_eq_false (hrole i)] at hexecutes
      exact hexecutes.avoids hcurrent
    · intro table
      cases hstep with
      | @context _ stmt =>
        cases stmt with
        | commit => exact (rowsOf_applyAll (hpending i).1 _ table).trans (hkept table)
        | _ => exact hkept table
      | read => exact hkept table
      | change => exact hkept table

end Isolation

/-- A tenant that the sample run does not ask for, with a row of its own. -/
def otherTenant : Uuid := ⟨List.replicate 32 ⟨11, by decide⟩, rfl⟩

/-- A log and a customer before the sample run. -/
def sampleTables : Tables ℕ (Text × Option Text)
  | .policyDecisionLog => [genesisRow 0 otherTenant]
  | .customerRecords => [genesisRow 2 sampleTenant]
  | .auditLog | .transactionalOutbox => []

/-- The log of the other tenant begins with a row of the same hash. -/
theorem run_erase_sample : ∃ s,
    Run sampleHmac sampleSecret sampleOwner (fun _ => sampleUser) sampleColumns sampleTables
      samplePast s ∧
    Run sampleHmac sampleSecret sampleOwner (fun _ => sampleUser) sampleColumns
      (eraseTables otherTenant sampleTables) samplePast (s.erase otherTenant) ∧
    rowsOf otherTenant (s.committed .policyDecisionLog) = [genesisRow 0 otherTenant] := by
  obtain ⟨s, h, -⟩ := exists_sampleRun (fun _ => sampleUser) rfl sampleTables (by decide)
  have hnot (i : Bool) : (i, .context (.beginTenantContext otherTenant)) ∉ samplePast := by
    simp [samplePast, sampleInsert, sampleTenant, otherTenant]
  obtain ⟨herased, hkept⟩ := run_erase (collisionFree_sampleHmac _) (fun _ => by decide) h hnot
  exact ⟨s, h, herased, hkept .policyDecisionLog⟩

/-! ## Append-only tables -/

section AppendOnly

variable [DecidableEq ι] [DecidableEq Id] [DecidableEq V] {hmac : Text → Text → Text}
  {secret objectOwner : Text} {users : ι → Text} {columns : Columns Id V} {tables : Tables Id V}
  {past later : List (ι × Event Id V)} {s s' : State ι Id V}

/-- A change that only adds rows, where its table is append-only. -/
def Change.KeepsHistory (c : Change Id V) : Prop := c.table.appendOnly = true → c.IsInsert

/-- Changes that keep the history of a table add to its end. -/
theorem prefix_applyAll {changes : List (Change Id V)} (h : ∀ c ∈ changes, c.KeepsHistory)
    (tables : Tables Id V) {table : TableName} (htable : table.appendOnly = true) :
    tables table <+: applyAll tables changes table := by
  induction changes generalizing tables with
  | nil => exact List.prefix_rfl
  | cons c changes ih =>
    refine List.IsPrefix.trans ?_ (ih (fun c hc => h c (List.mem_cons_of_mem _ hc))
      (c.apply tables))
    by_cases hc : table = c.table
    · subst hc
      have hinsert := h c List.mem_cons_self htable
      rw [Change.apply, Function.update_self]
      cases c with
      | insert table new => exact List.prefix_append _ _
      | _ => exact hinsert.elim
    · have hkept : c.apply tables table = tables table := by
        rw [Change.apply, Function.update_of_ne hc]
      exact hkept.symm ▸ List.prefix_rfl

/-- The changes of any statement keep the history. -/
theorem Step.keepsHistory {ev : ι × Event Id V}
    (h : Step hmac secret objectOwner users columns s ev s') :
    ∀ dml effect, ev.2 = .dml dml effect → ∀ c ∈ effect.changes, c.KeepsHistory := by
  obtain ⟨i, ev⟩ := ev
  rintro dml effect rfl
  exact h.executes.isInsert

/-- All that is pending keeps the history. -/
theorem Run.pending (h : Run hmac secret objectOwner users columns tables past s) :
    s.Pending Change.KeepsHistory := by
  unfold Run at h
  induction h with
  | refl => exact pending_initial _ _
  | step _ hstep ih => exact ih.step hstep hstep.keepsHistory

/-- Whoever the sessions belong to, the owner among them: the committed rows of an append-only table
stay, in their order, and no update moves a row to another tenant. -/
theorem appendOnly_of_steps (h : Run hmac secret objectOwner users columns tables past s)
    (hlater : Steps hmac secret objectOwner users columns s later s') :
    (∀ table : TableName, table.appendOnly = true → s.committed table <+: s'.committed table) ∧
      ∀ i dml effect, (i, .dml dml effect) ∈ later → ∀ table old new,
        .replace table old new ∈ effect.changes → new.tenantId = old.tenantId := by
  -- what is pending keeps the history as well, which a commit needs
  suffices hall : s'.Pending Change.KeepsHistory ∧
      (∀ table : TableName, table.appendOnly = true → s.committed table <+: s'.committed table) ∧
      ∀ i dml effect, (i, .dml dml effect) ∈ later → ∀ table old new,
        .replace table old new ∈ effect.changes → new.tenantId = old.tenantId from hall.2
  induction hlater with
  | refl => exact ⟨h.pending, fun _ _ => List.prefix_rfl, nofun⟩
  | @step later s' s'' ev _ hstep ih =>
    obtain ⟨hpending, hkept, htenant⟩ := ih
    refine ⟨hpending.step hstep hstep.keepsHistory, fun table htable => ?_,
      fun i dml effect hmem table old new hc => ?_⟩
    · refine (hkept table htable).trans ?_
      cases hstep with
      | @context i stmt =>
        cases stmt with
        | commit => exact prefix_applyAll (hpending i).1 _ htable
        | _ => exact List.prefix_rfl
      | read => exact List.prefix_rfl
      | change => exact List.prefix_rfl
    · rcases List.mem_cons.mp hmem with rfl | hmem
      · exact hstep.executes.tenantId_eq hc
      · exact htenant i dml effect hmem table old new hc

end AppendOnly

/-- Among the sessions one is the owner's. -/
def sampleUsers (isOwner : Bool) : Text := if isOwner then sampleOwner else sampleUser

/-- Another hash for a row. -/
def rehashed (row : Row ℕ (Text × Option Text)) : Row ℕ (Text × Option Text) :=
  { row with columns := (List.replicate 64 'b', none) }

/-- The owner updates the customer of the sample tenant. -/
def sampleUpdate : Event ℕ (Text × Option Text) :=
  .dml (.update .customerRecords (fun _ => true) rehashed)
    ⟨[genesisRow 2 sampleTenant],
      [.replace .customerRecords (genesisRow 2 sampleTenant)
        (rehashed (genesisRow 2 sampleTenant))]⟩

/-- The statements of the owner, in a transaction that it commits. -/
def sampleLater : List (Bool × Event ℕ (Text × Option Text)) :=
  [(true, .context .commit), (true, sampleUpdate),
    (true, .context (.set true .tenantId (uuidOut sampleTenant))), (true, .context .begin)]

/-- The owner can update the customer, and not the log. -/
theorem exists_sampleLater : ∃ s s' : State Bool ℕ (Text × Option Text),
    Run sampleHmac sampleSecret sampleOwner sampleUsers sampleColumns sampleTables samplePast s ∧
      Steps sampleHmac sampleSecret sampleOwner sampleUsers sampleColumns s sampleLater s' ∧
      s.committed .policyDecisionLog = [genesisRow 0 otherTenant, genesisRow 1 sampleTenant] ∧
      execute sampleColumns true (some sampleTenant) s'.committed
        (.update .policyDecisionLog (fun _ => true) rehashed) = none := by
  obtain ⟨s, h, hcommitted, hsession, hpending, hused, hnone⟩ :=
    exists_sampleRun sampleUsers rfl sampleTables (by decide)
  have h₀ : Steps sampleHmac sampleSecret sampleOwner sampleUsers sampleColumns s [] s := .refl
  have h₁ := h₀.step (.context (i := true) (.role (.begin hsession)))
  have h₂ := h₁.step (.context (i := true)
    (.ownerSet true .tenantId (uuidOut sampleTenant) rfl rfl))
  have hxid : (8 : Xid) ∉ s.context.used := by
    rw [hused]
    decide
  -- nothing is pending, so the owner works on the rows that the run has committed
  have hview (s' : State Bool ℕ (Text × Option Text)) (hs : s'.committed = s.committed)
      (hnew : s'.pending true = []) : s'.view true .customerRecords =
        [genesisRow 2 sampleTenant] := by
    rw [State.view, hs, hnew, hcommitted]
    rfl
  have hcurrent (s' : State Bool ℕ (Text × Option Text))
      (hs : s'.context.sessions true =
        ⟨unset.set true .tenantId (uuidOut sampleTenant), some ⟨none, unset, []⟩⟩) :
      s'.currentTenant sampleHmac sampleSecret sampleOwner sampleUsers true =
        some sampleTenant := by
    rw [State.currentTenant, hs]
    decide +kernel
  have h₃ := h₂.step (show Step _ _ _ _ _ _ (true, sampleUpdate) _ from
    .change ?_ (List.cons_ne_nil _ _) (fun j hj c hc c' hc' => ?_)
      (.assignXid rfl (.inr ⟨rfl, hxid⟩)))
  have h₄ := h₃.step (.context (i := true) (.role (.commit rfl)))
  · exact ⟨s, _, h, h₄, by rw [hcommitted]; rfl, rfl⟩
  · have howner : decide (sampleUsers true = sampleOwner) = true := rfl
    rw [execute, howner, hview, hcurrent]
    all_goals rfl
  · obtain rfl : j = false := Bool.eq_false_of_not_eq_true hj
    have hnothing : c' ∈ s.pending false := hc'
    rw [hnone] at hnothing
    cases hnothing

theorem appendOnly_of_steps_sample : ∃ s s' : State Bool ℕ (Text × Option Text),
    Run sampleHmac sampleSecret sampleOwner sampleUsers sampleColumns sampleTables samplePast s ∧
      Steps sampleHmac sampleSecret sampleOwner sampleUsers sampleColumns s sampleLater s' ∧
      s.committed .policyDecisionLog = [genesisRow 0 otherTenant, genesisRow 1 sampleTenant] ∧
      s.committed .policyDecisionLog <+: s'.committed .policyDecisionLog ∧
      execute sampleColumns true (some sampleTenant) s'.committed
        (.update .policyDecisionLog (fun _ => true) rehashed) = none := by
  obtain ⟨s, s', h, hlater, hlog, hrefused⟩ := exists_sampleLater
  exact ⟨s, s', h, hlater, hlog, (appendOnly_of_steps h hlater).1 .policyDecisionLog rfl, hrefused⟩

end MetaframerKernel.RowSecurity
