import Mathlib.Algebra.Group.Nat.Defs
import Mathlib.Data.Int.Notation
import Mathlib.Data.List.Count
import Mathlib.Logic.Function.Basic
import Mathlib.Tactic.Common

/-!
# Claiming outbox rows

The transactional outbox, claimed by any number of workers of any tenants: a claim is a lease, not a
lock, and what a worker does with its claim is fenced by the token of the claim.

A statement is run row by row. A row is changed under its lock, which the transaction keeps, and the
`WHERE` is asked of the version that is current then; a transaction has its own fixed `now()`.

## Main definitions

* `Row`: a row of `transactional_outbox` with its `CHECK` constraints;
* `Row.claim`, `Row.release`, `Row.publish`: the three statements on one row;
* `Call.statement`: `claim_batch`, `release_claim` and `publish_claim`;
* `State`, `Step`: the table, the transactions of the workers and what can happen next.

## Main results

* `outbox_protocol`: what holds in every reachable state and along every run from it.
-/

namespace MetaframerKernel.Outbox

/-- Microseconds. -/
abbrev Time : Type := ℤ

variable {Id Tenant Token Worker : Type}

/-! ## Rows -/

/-- A row, by the columns that claiming looks at. -/
structure Row (Tenant Token : Type) where
  tenantId : Tenant
  availableAt : Time
  claimToken : Option Token
  claimedAt : Option Time
  claimExpiresAt : Option Time
  attempts : ℕ
  publishedAt : Option Time
  /-- `transactional_outbox_claim_coherent` -/
  claimCoherent : (claimedAt.isNone ∧ claimToken.isNone ∧ claimExpiresAt.isNone) ∨
    (claimedAt.isSome ∧ claimToken.isSome ∧ claimExpiresAt.isSome)
  /-- `transactional_outbox_published_implies_claimed` -/
  publishedImpliesClaimed : publishedAt.isNone ∨ claimedAt.isSome
  /-- `attempts` is an `integer`. -/
  attemptsInRange : attempts < 2 ^ 31

namespace Row

variable (row : Row Tenant Token)

/-- The `WHERE` of `claimable`. -/
def isClaimable (now : Time) : Bool :=
  row.publishedAt.isNone && decide (row.availableAt ≤ now) &&
    (row.claimedAt.isNone || row.claimExpiresAt.any fun expires => expires ≤ now)

/-- A row is under a claim that has not expired. -/
def UnderClaim (now : Time) : Prop :=
  ∃ expires, row.claimExpiresAt = some expires ∧ now < expires

variable {row} in
/-- No row is lost: one that is unpublished and not under a claim is claimable in its time. -/
theorem isClaimable_of_not_underClaim {now : Time}
    (hpublished : row.publishedAt = none) (havailable : row.availableAt ≤ now)
    (hclaim : ¬row.UnderClaim now) : row.isClaimable now = true := by
  rw [isClaimable, hpublished, decide_eq_true havailable]
  rcases row.claimCoherent with ⟨hnone, -⟩ | ⟨-, -, hsome⟩
  · rw [hnone]
    rfl
  · obtain ⟨expires, hexpires⟩ := Option.isSome_iff_exists.mp hsome
    have hle : expires ≤ now := Int.not_lt.mp fun hlt => hclaim ⟨expires, hexpires, hlt⟩
    simp [hexpires, hle]

variable [DecidableEq Token]

/-- `_CLAIM_SQL`, with the token that `gen_random_uuid()` gives. Past the range of `attempts` the
statement fails. -/
def claim (now lease : Time) (fresh : Token) : Option (Row Tenant Token) :=
  -- the counter is a 32-bit column: a claim that would overflow it fails
  if h : row.isClaimable now ∧ row.attempts + 1 < 2 ^ 31 then
    some { row with
      claimedAt := some now
      claimToken := some fresh
      claimExpiresAt := some (now + lease)
      attempts := row.attempts + 1
      claimCoherent := .inr ⟨rfl, rfl, rfl⟩
      publishedImpliesClaimed := .inr rfl
      attemptsInRange := h.2 }
  else none

/-- `_RELEASE_SQL` -/
def release (token : Token) : Option (Row Tenant Token) :=
  if h : row.claimToken = some token ∧ row.publishedAt.isNone then
    some { row with
      claimedAt := none
      claimToken := none
      claimExpiresAt := none
      claimCoherent := .inl ⟨rfl, rfl, rfl⟩
      publishedImpliesClaimed := .inl h.2 }
  else none

/-- `_PUBLISH_SQL` -/
def publish (now : Time) (token : Token) : Option (Row Tenant Token) :=
  if h : row.claimToken = some token ∧ row.claimedAt.isSome ∧ row.publishedAt.isNone then
    some { row with
      publishedAt := some now
      publishedImpliesClaimed := .inr h.2.1 }
  else none

end Row

/-- What never changes about a row, and what only goes forward. -/
structure Evolves (row row' : Row Tenant Token) : Prop where
  tenantId : row'.tenantId = row.tenantId
  availableAt : row'.availableAt = row.availableAt
  attempts : row.attempts ≤ row'.attempts
  publishedAt : ∀ time, row.publishedAt = some time → row'.publishedAt = some time

/-- A row that has not changed has evolved. -/
theorem Evolves.refl (row : Row Tenant Token) : Evolves row row :=
  ⟨rfl, rfl, Nat.le_refl _, fun _ h => h⟩

/-- Rows evolve step after step. -/
theorem Evolves.trans {row row' row'' : Row Tenant Token} (h : Evolves row row')
    (h' : Evolves row' row'') : Evolves row row'' :=
  ⟨h'.tenantId.trans h.tenantId, h'.availableAt.trans h.availableAt,
    Nat.le_trans h.attempts h'.attempts, fun time ht => h'.publishedAt time (h.publishedAt time ht)⟩

/-! ## Statements -/

/-- A statement with its parameters. -/
inductive Mutation (Id Token : Type) where
  | claim (limit : ℕ) (lease : Time)
  | release (ids : List Id) (token : Token)
  | publish (ids : List Id) (token : Token)

namespace Mutation

/-- The token a mutation is fenced on. -/
def token? : Mutation Id Token → Option Token
  | claim .. => none
  | release _ token => some token
  | publish _ token => some token

/-- Whether a statement may go on to one more row. -/
def hasRoom : Mutation Id Token → ℕ → Bool
  | claim limit _, touched => touched < limit
  | _, _ => true

/-- What a statement makes of a row, where its `WHERE` holds. -/
def apply [DecidableEq Id] [DecidableEq Token] (m : Mutation Id Token) (id : Id) (now : Time)
    (fresh : Token) (row : Row Tenant Token) : Option (Row Tenant Token) :=
  match m with
  | claim _ lease => row.claim now lease fresh
  | release ids token => if id ∈ ids then row.release token else none
  | publish ids token => if id ∈ ids then row.publish now token else none

/-- A claim that reports a row. -/
def isClaim : Mutation Id Token → Bool
  | claim .. => true
  | _ => false

/-- A publication that reports a row. -/
def isPublish : Mutation Id Token → Bool
  | publish .. => true
  | _ => false

end Mutation

/-- A call of one of the three functions. -/
inductive Call (Id Token : Type) where
  | claimBatch (limit : ℤ) (lease : Time)
  | releaseClaim (ids : List Id) (claimToken : Option Token)
  | publishClaim (ids : List Id) (claimToken : Option Token)

/-- `_fenced`: no token is an error, and no ids is no statement. -/
def fenced (statement : List Id → Token → Mutation Id Token) (ids : List Id)
    (claimToken : Option Token) : Except String (Option (Mutation Id Token)) :=
  match claimToken with
  | none => .error ("a claim token is required: a mutation identified only by row id cannot " ++
      "tell the current claimant from a previous one")
  | some token => if ids.isEmpty then .ok none else .ok (some (statement ids token))

/-- The statement a call runs, if it comes to one. -/
def Call.statement : Call Id Token → Except String (Option (Mutation Id Token))
  | claimBatch limit lease =>
      if limit ≤ 0 then .error s!"limit must be positive, got {limit}"
      else .ok (some (.claim limit.toNat lease))
  | releaseClaim ids claimToken => fenced .release ids claimToken
  | publishClaim ids claimToken => fenced .publish ids claimToken

/-! ## The table and its transactions -/

/-- A statement that is running, and the rows it reports so far. -/
structure Running (Id Token : Type) where
  mutation : Mutation Id Token
  reported : List Id

/-- What statements have reported: each row with the statement. -/
abbrev Log (Id Token : Type) : Type := List (Mutation Id Token × Id)

/-- The transaction of a worker: its tenant context, its `now()`, its versions of the rows it has
locked, the statement it runs and what its statements have reported. -/
structure Tx (Id Tenant Token : Type) where
  tenant : Tenant
  now : Time
  versions : Id → Option (Row Tenant Token)
  running : Option (Running Id Token)
  log : Log Id Token

/-- The committed rows, the open transactions, the tokens given out and what the statements of
committed transactions have reported. -/
structure State (Id Tenant Token Worker : Type) where
  clock : Time
  rows : Id → Option (Row Tenant Token)
  txs : Worker → Option (Tx Id Tenant Token)
  issued : List Token
  committed : Log Id Token

/-- The empty table. -/
def State.empty (clock : Time) : State Id Tenant Token Worker :=
  ⟨clock, fun _ => none, fun _ => none, [], []⟩

namespace State

variable (s : State Id Tenant Token Worker)

/-- The version of a row that a transaction works on. -/
def version (tx : Tx Id Tenant Token) (id : Id) : Option (Row Tenant Token) :=
  (tx.versions id).or (s.rows id)

/-- The lock of a row is free, or held by the worker itself. -/
def MayLock (w : Worker) (id : Id) : Prop :=
  ∀ w' tx, s.txs w' = some tx → tx.versions id ≠ none → w' = w

variable [DecidableEq Worker]

/-- The state after a transaction has come to another one or to its end. -/
def withTx (w : Worker) (tx : Option (Tx Id Tenant Token)) : State Id Tenant Token Worker :=
  { s with txs := Function.update s.txs w tx }

/-- A worker has the transaction it is given. -/
@[simp]
theorem withTx_txs_self (w : Worker) (tx : Option (Tx Id Tenant Token)) :
    (s.withTx w tx).txs w = tx := Function.update_self ..

/-- The other workers keep their transactions. -/
@[simp]
theorem withTx_txs_of_ne {w w' : Worker} (tx : Option (Tx Id Tenant Token)) (h : w' ≠ w) :
    (s.withTx w tx).txs w' = s.txs w' := Function.update_of_ne h ..

/-- A transaction after one has changed is that one or an earlier one. -/
theorem txs_of_withTx {s : State Id Tenant Token Worker} {w w' : Worker}
    {t : Option (Tx Id Tenant Token)} {tx : Tx Id Tenant Token}
    (h : (s.withTx w t).txs w' = some tx) :
    w' = w ∧ t = some tx ∨ w' ≠ w ∧ s.txs w' = some tx := by
  by_cases hw : w' = w
  · subst hw
    exact .inl ⟨rfl, (s.withTx_txs_self w' t).symm.trans h⟩
  · exact .inr ⟨hw, (s.withTx_txs_of_ne t hw).symm.trans h⟩

end State

/-- What can happen. -/
inductive Event (Id Tenant Token Worker : Type) where
  | advance (elapsed : ℕ)
  /-- Another transaction adds a row. -/
  | insert (id : Id) (row : Row Tenant Token)
  | begin (w : Worker) (tenant : Tenant)
  | call (w : Worker) (c : Call Id Token)
  /-- The statement that runs locks and changes a row. -/
  | touch (w : Worker) (id : Id) (fresh : Token)
  | finish (w : Worker)
  | commit (w : Worker)
  /-- A rollback, also that of a worker that has died or of a statement that failed. -/
  | rollback (w : Worker)

/-- The worker whose statement an event belongs to. -/
def Event.worker? : Event Id Tenant Token Worker → Option Worker
  | advance _ => none
  | insert .. => none
  | begin w _ => some w
  | call w _ => some w
  | touch w .. => some w
  | finish w => some w
  | commit w => some w
  | rollback w => some w

section Steps

section Rows

variable [DecidableEq Id] {id id' : Id}

/-- The transaction after its statement has changed a row. -/
def Tx.touch (tx : Tx Id Tenant Token) (running : Running Id Token) (id : Id)
    (row : Row Tenant Token) : Tx Id Tenant Token :=
  { tx with
    versions := Function.update tx.versions id (some row)
    running := some { running with reported := running.reported ++ [id] }
    log := tx.log ++ [(running.mutation, id)] }

/-- A transaction sees the row it has touched. -/
@[simp]
theorem Tx.touch_versions_self (tx : Tx Id Tenant Token) (running : Running Id Token)
    (row : Row Tenant Token) : (tx.touch running id row).versions id = some row :=
  Function.update_self ..

/-- A transaction sees the other rows as before. -/
@[simp]
theorem Tx.touch_versions_of_ne (tx : Tx Id Tenant Token) (running : Running Id Token)
    (row : Row Tenant Token) (h : id' ≠ id) :
    (tx.touch running id row).versions id' = tx.versions id' := Function.update_of_ne h ..

/-- The table with another row. -/
def State.insert (s : State Id Tenant Token Worker) (id : Id) (row : Row Tenant Token) :
    State Id Tenant Token Worker :=
  { s with rows := Function.update s.rows id (some row) }

/-- An inserted row is there. -/
@[simp]
theorem State.insert_rows_self (s : State Id Tenant Token Worker) (row : Row Tenant Token) :
    (s.insert id row).rows id = some row := Function.update_self ..

/-- An insert leaves the other rows as they were. -/
@[simp]
theorem State.insert_rows_of_ne (s : State Id Tenant Token Worker) (row : Row Tenant Token)
    (h : id' ≠ id) : (s.insert id row).rows id' = s.rows id' := Function.update_of_ne h ..

end Rows

section Commit

variable [DecidableEq Worker] (s : State Id Tenant Token Worker) (tx : Tx Id Tenant Token)
  {w w' : Worker}

/-- The table after a transaction has been committed. -/
def State.commit (w : Worker) : State Id Tenant Token Worker :=
  { s with
    rows := s.version tx
    txs := Function.update s.txs w none
    committed := s.committed ++ tx.log }

/-- A commit makes the versions of the transaction the rows. -/
@[simp]
theorem State.commit_rows : (s.commit tx w).rows = s.version tx := rfl

/-- A commit adds the log of the transaction to the committed one. -/
@[simp]
theorem State.commit_committed : (s.commit tx w).committed = s.committed ++ tx.log := rfl

/-- A commit ends the transaction. -/
@[simp]
theorem State.commit_txs_self : (s.commit tx w).txs w = none := Function.update_self ..

/-- A commit leaves the transactions of the other workers open. -/
@[simp]
theorem State.commit_txs_of_ne (h : w' ≠ w) : (s.commit tx w).txs w' = s.txs w' :=
  Function.update_of_ne h ..

variable {s tx} in
/-- A transaction after another one has been committed. -/
theorem State.txs_of_commit {tx' : Tx Id Tenant Token} (h : (s.commit tx w).txs w' = some tx') :
    w' ≠ w ∧ s.txs w' = some tx' := by
  by_cases hw : w' = w
  · subst hw
    rw [State.commit_txs_self] at h
    cases h
  · exact ⟨hw, (s.commit_txs_of_ne tx hw).symm.trans h⟩

end Commit

variable [DecidableEq Id] [DecidableEq Token] [DecidableEq Worker]

/-- One step. A row is touched when its lock is to be had, the tenant context shows it and the
`WHERE` holds of the current version; a row a statement does not get to is stepped over. -/
inductive Step (s : State Id Tenant Token Worker) :
    Event Id Tenant Token Worker → State Id Tenant Token Worker → Prop
  | advance (elapsed : ℕ) : Step s (.advance elapsed) { s with clock := s.clock + elapsed }
  | insert {id : Id} {row : Row Tenant Token} : s.rows id = none → row.claimedAt = none →
      row.publishedAt = none → row.attempts = 0 →
      Step s (.insert id row) (s.insert id row)
  | begin {w : Worker} (tenant : Tenant) : s.txs w = none →
      Step s (.begin w tenant) (s.withTx w (some ⟨tenant, s.clock, fun _ => none, none, []⟩))
  | call {w : Worker} {tx : Tx Id Tenant Token} {c : Call Id Token} {m : Mutation Id Token} :
      s.txs w = some tx → tx.running = none → c.statement = .ok (some m) →
      Step s (.call w c) (s.withTx w (some { tx with running := some ⟨m, []⟩ }))
  | touch {w : Worker} {tx : Tx Id Tenant Token} {running : Running Id Token} {id : Id}
      {fresh : Token} {row row' : Row Tenant Token} :
      s.txs w = some tx → tx.running = some running → id ∉ running.reported →
      running.mutation.hasRoom running.reported.length = true → s.MayLock w id →
      s.version tx id = some row → row.tenantId = tx.tenant →
      (running.mutation.isClaim = true → fresh ∉ s.issued) →
      running.mutation.apply id tx.now fresh row = some row' →
      Step s (.touch w id fresh)
        { s.withTx w (some (tx.touch running id row')) with
          issued := if running.mutation.isClaim then fresh :: s.issued else s.issued }
  | finish {w : Worker} {tx : Tx Id Tenant Token} : s.txs w = some tx →
      Step s (.finish w) (s.withTx w (some { tx with running := none }))
  | commit {w : Worker} {tx : Tx Id Tenant Token} : s.txs w = some tx → tx.running = none →
      Step s (.commit w) (s.commit tx w)
  | rollback {w : Worker} : Step s (.rollback w) (s.withTx w none)

/-- A run. -/
inductive Steps (s : State Id Tenant Token Worker) : State Id Tenant Token Worker → Prop
  | refl : Steps s s
  | tail {s' s'' : State Id Tenant Token Worker} {ev : Event Id Tenant Token Worker} :
      Steps s s' → Step s' ev s'' → Steps s s''

/-- What workers can bring a table to that starts empty. -/
def Reachable (s : State Id Tenant Token Worker) : Prop := ∃ clock, Steps (.empty clock) s

end Steps

/-! ## One row -/

/-- What a statement does to a row, and what it needs of it. -/
structure Touched (m : Mutation Id Token) (fresh : Token) (row row' : Row Tenant Token) : Prop where
  unpublished : row.publishedAt = none
  tenantId : row'.tenantId = row.tenantId
  availableAt : row'.availableAt = row.availableAt
  fenced : ∀ token, m.token? = some token → row.claimToken = some token
  attempts : row'.attempts = row.attempts + if m.isClaim then 1 else 0
  publishedAt : row'.publishedAt.isSome = m.isPublish
  claimToken : ∀ token, row'.claimToken = some token →
    (m.isClaim = true ∧ token = fresh) ∨ (m.isClaim = false ∧ row.claimToken = some token)

/-- A mutation that is carried out touches its row as its kind does. -/
theorem Mutation.touched_of_apply [DecidableEq Id] [DecidableEq Token] {m : Mutation Id Token}
    {id : Id} {now : Time} {fresh : Token}
    {row row' : Row Tenant Token} (h : m.apply id now fresh row = some row') :
    Touched m fresh row row' := by
  -- each of the three mutations is guarded by the row being unpublished
  cases m with
  | claim limit lease =>
    simp only [apply, Row.claim, Option.dite_none_right_eq_some, Option.some.injEq] at h
    obtain ⟨⟨hclaimable, -⟩, rfl⟩ := h
    simp only [Row.isClaimable, Bool.and_eq_true, Option.isNone_iff_eq_none] at hclaimable
    exact ⟨hclaimable.1.1, rfl, rfl, nofun, rfl, by simp [hclaimable.1.1, isPublish],
      fun token htoken => .inl ⟨rfl, (Option.some.inj htoken).symm⟩⟩
  | release ids token =>
    simp only [apply, Row.release, Option.ite_none_right_eq_some, Option.dite_none_right_eq_some,
      Option.some.injEq] at h
    obtain ⟨-, ⟨htoken, hnone⟩, rfl⟩ := h
    rw [Option.isNone_iff_eq_none] at hnone
    exact ⟨hnone, rfl, rfl, fun t ht => Option.some.inj ht ▸ htoken, rfl,
      by simp [hnone, isPublish], nofun⟩
  | publish ids token =>
    simp only [apply, Row.publish, Option.ite_none_right_eq_some, Option.dite_none_right_eq_some,
      Option.some.injEq] at h
    obtain ⟨-, ⟨htoken, -, hnone⟩, rfl⟩ := h
    rw [Option.isNone_iff_eq_none] at hnone
    exact ⟨hnone, rfl, rfl, fun t ht => Option.some.inj ht ▸ htoken, rfl, rfl,
      fun t ht => .inr ⟨rfl, ht⟩⟩

/-! ## The invariant -/

section Invariant

variable [DecidableEq Id]

/-- How often a log reports a row as claimed. -/
def claims (log : Log Id Token) (id : Id) : ℕ := log.countP fun entry =>
  entry.1.isClaim && decide (entry.2 = id)

/-- How often a log reports a row as published. -/
def publications (log : Log Id Token) (id : Id) : ℕ := log.countP fun entry =>
  entry.1.isPublish && decide (entry.2 = id)

/-- The committed row is what the committed statements have reported of it. -/
def Accounts (log : Log Id Token) (id : Id) : Option (Row Tenant Token) → Prop
  | none => claims log id = 0 ∧ publications log id = 0
  | some row => row.attempts = claims log id ∧
      publications log id = if row.publishedAt.isSome then 1 else 0

/-- The version a transaction has of a row is what its own statements have reported of it, over a
committed row of its tenant that has not been published. -/
def Builds (tx : Tx Id Tenant Token) (id : Id) (base : Option (Row Tenant Token)) :
    Option (Row Tenant Token) → Prop
  | none => claims tx.log id = 0 ∧ publications tx.log id = 0
  | some row => ∃ old, base = some old ∧ old.publishedAt = none ∧ old.tenantId = tx.tenant ∧
      row.tenantId = tx.tenant ∧ row.availableAt = old.availableAt ∧
      row.attempts = old.attempts + claims tx.log id ∧
      publications tx.log id = if row.publishedAt.isSome then 1 else 0

/-- The logs account for the rows, and no two transactions have versions of one row. -/
structure Inv (s : State Id Tenant Token Worker) : Prop where
  committed : ∀ id, Accounts s.committed id (s.rows id)
  builds : ∀ w tx, s.txs w = some tx → ∀ id, Builds tx id (s.rows id) (tx.versions id)
  exclusive : ∀ w w' tx tx' id, s.txs w = some tx → s.txs w' = some tx' →
    tx.versions id ≠ none → tx'.versions id ≠ none → w = w'

/-- The claims of two logs are counted together. -/
theorem claims_append (log log' : Log Id Token) (id : Id) :
    claims (log ++ log') id = claims log id + claims log' id := List.countP_append

/-- The publications of two logs are counted together. -/
theorem publications_append (log log' : Log Id Token) (id : Id) :
    publications (log ++ log') id = publications log id + publications log' id :=
  List.countP_append

/-- One mutation is a claim of its row, or of none. -/
theorem claims_singleton (m : Mutation Id Token) (id id' : Id) :
    claims [(m, id)] id' = if m.isClaim ∧ id = id' then 1 else 0 := by
  simp [claims, List.countP_singleton]

/-- One mutation publishes its row, or none. -/
theorem publications_singleton (m : Mutation Id Token) (id id' : Id) :
    publications [(m, id)] id' = if m.isPublish ∧ id = id' then 1 else 0 := by
  simp [publications, List.countP_singleton]

variable {s s' : State Id Tenant Token Worker} {w : Worker} {tx : Tx Id Tenant Token}

/-- The invariant holds of an empty outbox. -/
theorem inv_empty (clock : Time) : Inv (.empty clock : State Id Tenant Token Worker) where
  committed _ := ⟨rfl, rfl⟩
  builds _ _ h := nomatch h
  exclusive _ _ _ _ _ h := nomatch h

/-- The lock of a row that a transaction has a version of is its own. -/
theorem Inv.mayLock (h : Inv s) (hw : s.txs w = some tx) {id : Id} (hid : tx.versions id ≠ none) :
    s.MayLock w id :=
  fun w' tx' hw' hid' => h.exclusive w' w tx' tx id hw' hw hid' hid

/-- A touched row is built on the same committed row. -/
theorem Builds.touch {running : Running Id Token} {fresh : Token} {id : Id}
    {row row' : Row Tenant Token} (h : Builds tx id (s.rows id) (tx.versions id))
    (hversion : s.version tx id = some row) (htenant : row.tenantId = tx.tenant)
    (htouched : Touched running.mutation fresh row row') :
    Builds (tx.touch running id row') id (s.rows id) (some row') := by
  have hnone : row.publishedAt.isSome = false := by rw [htouched.unpublished]; rfl
  simp only [Builds, Tx.touch, claims_append, publications_append, claims_singleton,
    publications_singleton, and_true, htouched.tenantId, htouched.attempts,
    htouched.publishedAt, htouched.availableAt]
  -- the transaction touches the committed row, or its own version of it once more
  cases hown : tx.versions id with
  | none =>
    rw [hown] at h
    rw [State.version, hown, Option.none_or] at hversion
    exact ⟨row, hversion, htouched.unpublished, htenant, htenant, rfl, by rw [h.1, Nat.zero_add],
      by rw [h.2, Nat.zero_add]⟩
  | some own =>
    rw [hown] at h
    rw [State.version, hown, Option.some_or] at hversion
    obtain rfl := Option.some.inj hversion
    obtain ⟨old, hold, hunpublished, htenant', -, havailable, hattempts, hpublications⟩ := h
    exact ⟨old, hold, hunpublished, htenant', htenant, havailable,
      by rw [hattempts, Nat.add_assoc], by rw [hpublications, hnone]; simp⟩

/-- What a transaction has built of a row stays when it touches another. -/
theorem Builds.touch_of_ne {running : Running Id Token} {id id' : Id} {row' : Row Tenant Token}
    {base : Option (Row Tenant Token)} (h : Builds tx id' base (tx.versions id')) (hne : id ≠ id') :
    Builds (tx.touch running id row') id' base (tx.versions id') := by
  have hclaims : claims (tx.touch running id row').log id' = claims tx.log id' := by
    rw [Tx.touch, claims_append, claims_singleton, if_neg (fun h => hne h.2), Nat.add_zero]
  have hpublications :
      publications (tx.touch running id row').log id' = publications tx.log id' := by
    rw [Tx.touch, publications_append, publications_singleton, if_neg (fun h => hne h.2),
      Nat.add_zero]
  cases hown : tx.versions id' with
  | none =>
    rw [hown] at h
    exact ⟨hclaims.trans h.1, hpublications.trans h.2⟩
  | some own =>
    rw [hown] at h
    simp only [Builds, hclaims, hpublications]
    exact h

section Preservation

variable [DecidableEq Worker]

/-- A transaction may come to any other one that builds on the table and has its locks. -/
theorem Inv.withTx (h : Inv s) {t : Option (Tx Id Tenant Token)}
    (ht : ∀ tx, t = some tx → ∀ id, Builds tx id (s.rows id) (tx.versions id) ∧
      (tx.versions id ≠ none → s.MayLock w id)) : Inv (s.withTx w t) := by
  refine ⟨h.committed, fun w' tx' hw' id => ?_, fun w₁ w₂ tx₁ tx₂ id h₁ h₂ hid₁ hid₂ => ?_⟩
  · rcases State.txs_of_withTx hw' with ⟨-, hnew⟩ | ⟨-, hold⟩
    · exact (ht tx' hnew id).1
    · exact h.builds w' tx' hold id
  · rcases State.txs_of_withTx h₁ with ⟨rfl, hnew₁⟩ | ⟨-, hold₁⟩
    · rcases State.txs_of_withTx h₂ with ⟨rfl, -⟩ | ⟨-, hold₂⟩
      · rfl
      · exact ((ht tx₁ hnew₁ id).2 hid₁ w₂ tx₂ hold₂ hid₂).symm
    · rcases State.txs_of_withTx h₂ with ⟨rfl, hnew₂⟩ | ⟨-, hold₂⟩
      · exact (ht tx₂ hnew₂ id).2 hid₂ w₁ tx₁ hold₁ hid₁
      · exact h.exclusive w₁ w₂ tx₁ tx₂ id hold₁ hold₂ hid₁ hid₂

/-- A commit makes the versions of a transaction the rows. -/
theorem Inv.commit (h : Inv s) (hw : s.txs w = some tx) : Inv (s.commit tx w) := by
  refine ⟨fun id => ?_, fun w' tx' hw' id => ?_, fun w₁ w₂ tx₁ tx₂ id h₁ h₂ hid₁ hid₂ => ?_⟩
  · have hcommitted := h.committed id
    have hbuilds := h.builds w tx hw id
    rw [State.commit_rows, State.version]
    cases hown : tx.versions id with
    | none =>
      rw [hown] at hbuilds
      rw [Option.none_or]
      cases hrow : s.rows id with
      | none =>
        rw [hrow] at hcommitted
        exact ⟨by rw [State.commit_committed, claims_append, hcommitted.1, hbuilds.1],
          by rw [State.commit_committed, publications_append, hcommitted.2, hbuilds.2]⟩
      | some row =>
        rw [hrow] at hcommitted
        exact ⟨by rw [State.commit_committed, claims_append, hcommitted.1, hbuilds.1, Nat.add_zero],
          by rw [State.commit_committed, publications_append, hcommitted.2, hbuilds.2,
            Nat.add_zero]⟩
    | some row =>
      rw [hown] at hbuilds
      obtain ⟨old, hold, hunpublished, -, -, -, hattempts, hpublications⟩ := hbuilds
      rw [hold] at hcommitted
      have hnone : publications s.committed id = 0 := by rw [hcommitted.2, hunpublished]; rfl
      exact ⟨by rw [State.commit_committed, claims_append, hattempts, hcommitted.1],
        by rw [State.commit_committed, publications_append, hnone, hpublications, Nat.zero_add]⟩
  · obtain ⟨hww, hold⟩ := State.txs_of_commit hw'
    have hbuilds := h.builds w' tx' hold id
    rw [State.commit_rows, State.version]
    cases hown : tx.versions id with
    | none => exact hbuilds
    | some row =>
      -- the row is locked by the transaction that commits, so the other one has no version of it
      have hother : tx'.versions id = none := by
        by_contra hid'
        exact hww (h.exclusive w' w tx' tx id hold hw hid' (by rw [hown]; nofun))
      rw [hother] at hbuilds ⊢
      exact hbuilds
  · exact h.exclusive w₁ w₂ tx₁ tx₂ id (State.txs_of_commit h₁).2
      (State.txs_of_commit h₂).2 hid₁ hid₂

variable [DecidableEq Token]

/-- Every step keeps the invariant. -/
theorem Inv.step {ev : Event Id Tenant Token Worker} (h : Inv s) (hstep : Step s ev s') :
    Inv s' := by
  cases hstep with
  | advance elapsed => exact ⟨h.committed, h.builds, h.exclusive⟩
  | @insert id row hnew hclaimed hpublished hattempts =>
    -- a new row has no attempt and no publication, and no transaction has a version of it
    refine ⟨fun id' => ?_, fun w tx hw id' => ?_, h.exclusive⟩
    · have hcommitted := h.committed id'
      by_cases hid : id' = id
      · subst hid
        rw [hnew] at hcommitted
        rw [State.insert_rows_self]
        exact ⟨hattempts.trans hcommitted.1.symm, by rw [hpublished]; exact hcommitted.2⟩
      · rw [State.insert_rows_of_ne _ _ hid]
        exact hcommitted
    · have hbuilds := h.builds w tx hw id'
      by_cases hid : id' = id
      · subst hid
        cases hown : tx.versions id' with
        | none =>
          rw [hown] at hbuilds
          exact hbuilds
        | some own =>
          rw [hown, hnew] at hbuilds
          obtain ⟨old, hold, -⟩ := hbuilds
          cases hold
      · rw [State.insert_rows_of_ne _ _ hid]
        exact hbuilds
  | begin tenant hw =>
    refine h.withTx ?_
    rintro _ ⟨⟩ id
    exact ⟨⟨rfl, rfl⟩, fun h => absurd rfl h⟩
  | call hw hidle hstatement =>
    refine h.withTx ?_
    rintro _ ⟨⟩ id
    exact ⟨h.builds _ _ hw id, fun hid => h.mayLock hw hid⟩
  | @touch w tx running id fresh row row' hw hrunning hnew hroom hlock hversion htenant hfresh
      happly =>
    -- the version of the row goes on from the one before; the others are as they were
    have htouched := Mutation.touched_of_apply happly
    have htx : Inv (s.withTx w (some (tx.touch running id row'))) := by
      refine h.withTx ?_
      rintro _ ⟨⟩ id'
      by_cases hid : id = id'
      · subst hid
        rw [Tx.touch_versions_self]
        exact ⟨(h.builds w tx hw id).touch hversion htenant htouched, fun _ => hlock⟩
      · rw [Tx.touch_versions_of_ne _ _ _ (Ne.symm hid)]
        exact ⟨(h.builds w tx hw id').touch_of_ne hid, fun hid' => h.mayLock hw hid'⟩
    exact ⟨htx.committed, htx.builds, htx.exclusive⟩
  | finish hw =>
    refine h.withTx ?_
    rintro _ ⟨⟩ id
    exact ⟨h.builds _ _ hw id, fun hid => h.mayLock hw hid⟩
  | commit hw hidle => exact h.commit hw
  | rollback => exact h.withTx nofun

/-- Any number of steps keep the invariant. -/
theorem Inv.steps (h : Inv s) (hsteps : Steps s s') : Inv s' := by
  induction hsteps with
  | refl => exact h
  | tail _ hstep ih => exact ih.step hstep

/-- The invariant holds in every reachable state. -/
theorem Reachable.inv (h : Reachable s) : Inv s := by
  obtain ⟨clock, hsteps⟩ := h
  exact (inv_empty clock).steps hsteps

/-! ## Rows over time -/

/-- In a step, a committed row stays and evolves. -/
theorem Inv.evolves {ev : Event Id Tenant Token Worker} (h : Inv s) (hstep : Step s ev s') {id : Id}
    {row : Row Tenant Token} (hrow : s.rows id = some row) :
    ∃ row', s'.rows id = some row' ∧ Evolves row row' := by
  cases hstep with
  | @insert id' new hnew _ _ _ =>
    have hid : id ≠ id' := by
      rintro rfl
      rw [hrow] at hnew
      cases hnew
    exact ⟨row, (s.insert_rows_of_ne new hid).trans hrow, .refl row⟩
  | @commit w tx hw _ =>
    have hbuilds := h.builds w tx hw id
    -- a row the transaction has not touched stays,
    -- and any other has been built from the committed one
    cases hown : tx.versions id with
    | none =>
      exact ⟨row, by rw [State.commit_rows, State.version, hown, Option.none_or, hrow], .refl row⟩
    | some own =>
      rw [hown] at hbuilds
      obtain ⟨old, hold, hunpublished, htenant, htenant', havailable, hattempts, -⟩ := hbuilds
      obtain rfl := Option.some.inj (hrow.symm.trans hold)
      refine ⟨own, by rw [State.commit_rows, State.version, hown, Option.some_or],
        htenant'.trans htenant.symm, havailable, hattempts ▸ Nat.le_add_right .., ?_⟩
      intro time htime
      rw [hunpublished] at htime
      cases htime
  | _ => exact ⟨row, hrow, .refl row⟩

/-- In any number of steps, a committed row stays and evolves. -/
theorem Inv.evolves_steps (h : Inv s) (hsteps : Steps s s') {id : Id} {row : Row Tenant Token}
    (hrow : s.rows id = some row) : ∃ row', s'.rows id = some row' ∧ Evolves row row' := by
  induction hsteps with
  | refl => exact ⟨row, hrow, .refl row⟩
  | tail hsteps hstep ih =>
    obtain ⟨row', hrow', hevolves⟩ := ih
    obtain ⟨row'', hrow'', hevolves'⟩ := (h.steps hsteps).evolves hstep hrow'
    exact ⟨row'', hrow'', hevolves.trans hevolves'⟩

/-! ## Stale tokens -/

/-- A token that has been given out and that no version of a row carries. -/
structure Stale (s : State Id Tenant Token Worker) (token : Token) (id : Id) : Prop where
  issued : token ∈ s.issued
  rows : ∀ row, s.rows id = some row → row.claimToken ≠ some token
  versions : ∀ w tx row, s.txs w = some tx → tx.versions id = some row →
    row.claimToken ≠ some token

omit [DecidableEq Id] [DecidableEq Worker] [DecidableEq Token] in
/-- The version a transaction works on carries no stale token. -/
theorem Stale.version {token : Token} {id : Id} {row : Row Tenant Token} (h : Stale s token id)
    (hw : s.txs w = some tx) (hversion : s.version tx id = some row) :
    row.claimToken ≠ some token := by
  rw [State.version] at hversion
  cases hown : tx.versions id with
  | none =>
    rw [hown, Option.none_or] at hversion
    exact h.rows row hversion
  | some own =>
    rw [hown, Option.some_or] at hversion
    exact Option.some.inj hversion ▸ h.versions w tx own hw hown

/-- A token that is stale for a row stays so: a new claim has a new token. -/
theorem Stale.step {ev : Event Id Tenant Token Worker} {token : Token} {id : Id}
    (h : Stale s token id) (hstep : Step s ev s') : Stale s' token id := by
  -- the versions of the other transactions stay
  have hwithTx {w : Worker} {t : Option (Tx Id Tenant Token)}
      (ht : ∀ tx, t = some tx → ∀ row, tx.versions id = some row → row.claimToken ≠ some token) :
      ∀ w' tx row, (s.withTx w t).txs w' = some tx → tx.versions id = some row →
        row.claimToken ≠ some token := by
    intro w' tx row hw' hrow
    rcases State.txs_of_withTx hw' with ⟨-, hnew⟩ | ⟨-, hold⟩
    · exact ht tx hnew row hrow
    · exact h.versions w' tx row hold hrow
  cases hstep with
  | advance elapsed => exact ⟨h.issued, h.rows, h.versions⟩
  | @insert id' new hnew hclaimed _ _ =>
    refine ⟨h.issued, fun row hrow => ?_, h.versions⟩
    by_cases hid : id = id'
    · subst hid
      rw [State.insert_rows_self] at hrow
      obtain rfl := Option.some.inj hrow
      have htoken := new.claimCoherent
      rw [hclaimed] at htoken
      rcases htoken with ⟨-, htoken, -⟩ | ⟨hsome, -⟩
      · rw [Option.isNone_iff_eq_none.mp htoken]
        nofun
      · cases hsome
    · rw [State.insert_rows_of_ne _ _ hid] at hrow
      exact h.rows row hrow
  | begin tenant hw =>
    refine ⟨h.issued, h.rows, hwithTx ?_⟩
    rintro _ ⟨⟩ row hrow
    cases hrow
  | call hw _ _ =>
    refine ⟨h.issued, h.rows, hwithTx ?_⟩
    rintro _ ⟨⟩ row hrow
    exact h.versions _ _ row hw hrow
  | @touch w tx running id' fresh row row' hw _ _ _ _ hversion _ hfresh happly =>
    have htouched := Mutation.touched_of_apply happly
    refine ⟨?_, h.rows, hwithTx ?_⟩
    · -- a claim adds its token to those that were issued
      dsimp only
      split_ifs
      · exact List.mem_cons_of_mem _ h.issued
      · exact h.issued
    · rintro _ ⟨⟩ new hnew
      by_cases hid : id = id'
      · subst hid
        rw [Tx.touch_versions_self] at hnew
        obtain rfl := Option.some.inj hnew
        intro htoken
        -- a claim has a fresh token; every other statement keeps the one that is there
        rcases htouched.claimToken token htoken with ⟨hclaim, rfl⟩ | ⟨-, hkept⟩
        · exact hfresh hclaim h.issued
        · exact h.version hw hversion hkept
      · rw [Tx.touch_versions_of_ne _ _ _ hid] at hnew
        exact h.versions w tx new hw hnew
  | finish hw =>
    refine ⟨h.issued, h.rows, hwithTx ?_⟩
    rintro _ ⟨⟩ row hrow
    exact h.versions _ _ row hw hrow
  | commit hw _ =>
    exact ⟨h.issued, fun row hrow => h.version hw hrow,
      fun w' tx' row hw' hrow => h.versions w' tx' row (State.txs_of_commit hw').2 hrow⟩
  | rollback => exact ⟨h.issued, h.rows, hwithTx nofun⟩

/-- A token that is stale for a row stays so. -/
theorem Stale.steps {token : Token} {id : Id} (h : Stale s token id) (hsteps : Steps s s') :
    Stale s' token id := by
  induction hsteps with
  | refl => exact h
  | tail _ hstep ih => exact ih.step hstep

/-! ## The protocol -/

/-- A release or a publication that carries another token than the row's current one neither changes
nor reports the row. -/
theorem Step.fenced {ev : Event Id Tenant Token Worker} (hstep : Step s ev s') {id : Id}
    {tx' : Tx Id Tenant Token} {running : Running Id Token} {token : Token}
    (hw : s.txs w = some tx) (hw' : s'.txs w = some tx') (hrunning : tx.running = some running)
    (htoken : running.mutation.token? = some token)
    (hother : ∀ row, s.version tx id = some row → row.claimToken ≠ some token) :
    tx'.versions id = tx.versions id ∧
      tx'.log.filter (fun entry => entry.2 = id) = tx.log.filter (fun entry => entry.2 = id) := by
  -- what another transaction does leaves this one alone
  have hwithTx {w₀ : Worker} {t : Option (Tx Id Tenant Token)}
      (hw' : (s.withTx w₀ t).txs w = some tx')
      (ht : w = w₀ → t = some tx' → tx'.versions id = tx.versions id ∧
        tx'.log.filter (fun entry => entry.2 = id) =
          tx.log.filter (fun entry => entry.2 = id)) :
      tx'.versions id = tx.versions id ∧
        tx'.log.filter (fun entry => entry.2 = id) =
          tx.log.filter (fun entry => entry.2 = id) := by
    rcases State.txs_of_withTx hw' with ⟨hww, hnew⟩ | ⟨-, hold⟩
    · exact ht hww hnew
    · obtain rfl := Option.some.inj (hw.symm.trans hold)
      exact ⟨rfl, rfl⟩
  cases hstep with
  | begin tenant hnone =>
    refine hwithTx hw' fun hww _ => ?_
    rw [hww, hnone] at hw
    cases hw
  | call hcaller hidle _ =>
    refine hwithTx hw' fun hww ht => ?_
    subst hww
    obtain rfl := Option.some.inj (hw.symm.trans hcaller)
    obtain rfl := Option.some.inj ht
    exact ⟨rfl, rfl⟩
  | @touch w₀ tx₀ running₀ id' fresh row row' hcaller hrunning' _ _ _ hversion _ _ happly =>
    refine hwithTx hw' fun hww ht => ?_
    subst hww
    obtain rfl := Option.some.inj (hw.symm.trans hcaller)
    obtain rfl := Option.some.inj ht
    obtain rfl := Option.some.inj (hrunning.symm.trans hrunning')
    -- the statement touches rows of its own token only, of which this row is none
    have hid : id ≠ id' := by
      rintro rfl
      exact hother row hversion ((Mutation.touched_of_apply happly).fenced token htoken)
    exact ⟨Tx.touch_versions_of_ne _ _ _ hid, by simp [Tx.touch, Ne.symm hid]⟩
  | finish hcaller =>
    refine hwithTx hw' fun hww ht => ?_
    subst hww
    obtain rfl := Option.some.inj (hw.symm.trans hcaller)
    obtain rfl := Option.some.inj ht
    exact ⟨rfl, rfl⟩
  | commit hcaller _ =>
    obtain rfl := Option.some.inj (hw.symm.trans (State.txs_of_commit hw').2)
    exact ⟨rfl, rfl⟩
  | rollback => exact hwithTx hw' fun _ ht => nomatch ht
  | _ =>
    obtain rfl := Option.some.inj (hw.symm.trans hw')
    exact ⟨rfl, rfl⟩

/-- A statement changes committed rows of its own tenant only, and with its commit. -/
theorem Inv.tenant_of_changed {ev : Event Id Tenant Token Worker} (h : Inv s) (hstep : Step s ev s')
    (hev : ev.worker? = some w) {id : Id} (hchanged : s'.rows id ≠ s.rows id) :
    ∃ tx row, s.txs w = some tx ∧ s.rows id = some row ∧ row.tenantId = tx.tenant := by
  cases hstep with
  | @commit w₀ tx hw _ =>
    obtain rfl := Option.some.inj hev
    have hbuilds := h.builds w₀ tx hw id
    cases hown : tx.versions id with
    | none =>
      rw [State.commit_rows, State.version, hown, Option.none_or] at hchanged
      exact absurd rfl hchanged
    | some own =>
      rw [hown] at hbuilds
      obtain ⟨old, hold, -, htenant, -⟩ := hbuilds
      exact ⟨tx, old, hw, hold, htenant⟩
  | insert => cases hev
  | _ => exact absurd rfl hchanged

/-- A claim statement that has come to a row of its tenant which nobody has locked. -/
structure MayClaim (s : State Id Tenant Token Worker) (w : Worker) (tx : Tx Id Tenant Token)
    (id : Id) (row : Row Tenant Token) (fresh : Token) : Prop where
  caller : s.txs w = some tx
  running : ∃ limit lease reported, tx.running = some ⟨.claim limit lease, reported⟩ ∧
    reported.length < limit ∧ id ∉ reported
  unlocked : ∀ w' tx, s.txs w' = some tx → tx.versions id = none
  committed : s.rows id = some row
  tenantId : row.tenantId = tx.tenant
  fresh : fresh ∉ s.issued
  attempts : row.attempts + 1 < 2 ^ 31

/-- A claimable row is claimed by a claim that comes to it. -/
theorem MayClaim.exists_step {id : Id} {row : Row Tenant Token} {fresh : Token}
    (h : MayClaim s w tx id row fresh) (hclaimable : row.isClaimable tx.now = true) :
    ∃ s', Step s (.touch w id fresh) s' ∧
      ∃ tx' row', s'.txs w = some tx' ∧ tx'.versions id = some row' ∧
        row'.claimToken = some fresh := by
  obtain ⟨limit, lease, reported, hrunning, hroom, hnew⟩ := h.running
  have hversion : s.version tx id = some row := by
    rw [State.version, h.unlocked w tx h.caller, Option.none_or, h.committed]
  have hlock : s.MayLock w id := fun w' tx' hw' hid => absurd (h.unlocked w' tx' hw') hid
  have happly : ∃ row', row.claim tx.now lease fresh = some row' ∧ row'.claimToken =
    some fresh := by
    rw [Row.claim, dif_pos ⟨hclaimable, h.attempts⟩]
    exact ⟨_, rfl, rfl⟩
  obtain ⟨row', happly, htoken⟩ := happly
  exact ⟨_, .touch h.caller hrunning hnew (decide_eq_true hroom) hlock hversion h.tenantId
    (fun _ => h.fresh) happly, _, row', State.withTx_txs_self .., Tx.touch_versions_self .., htoken⟩

/-- In every state that workers can reach: rows stay, keep their tenant, are published once and
never lose an attempt, of which each has one committed claim; a row is reported as published once;
a release or a publication with another token than the current one does nothing, and a token that is
stale for a row stays so; an unpublished row is under a claim or claimable, and then claimed by the
claim that comes to it; and what a worker changes is of its own tenant. -/
theorem outbox_protocol (h : Reachable s) :
    (∀ s', Steps s s' → ∀ id row, s.rows id = some row →
      ∃ row', s'.rows id = some row' ∧ Evolves row row') ∧
    (∀ id, publications s.committed id ≤ 1) ∧
    (∀ ev s' w tx tx' running token id, Step s ev s' → s.txs w = some tx → s'.txs w = some tx' →
      tx.running = some running → running.mutation.token? = some token →
      (∀ row, s.version tx id = some row → row.claimToken ≠ some token) →
      tx'.versions id = tx.versions id ∧
        tx'.log.filter (fun entry => entry.2 = id) = tx.log.filter (fun entry => entry.2 = id)) ∧
    (∀ token id, Stale s token id → ∀ s', Steps s s' → Stale s' token id) ∧
    (∀ id row now, s.rows id = some row → row.publishedAt = none →
      row.UnderClaim now ∨ (row.availableAt ≤ now → row.isClaimable now = true)) ∧
    (∀ w tx id row fresh, MayClaim s w tx id row fresh → row.isClaimable tx.now = true →
      ∃ s', Step s (.touch w id fresh) s' ∧
        ∃ tx' row', s'.txs w = some tx' ∧ tx'.versions id = some row' ∧
          row'.claimToken = some fresh) ∧
    (∀ id row, s.rows id = some row → row.attempts = claims s.committed id) ∧
    (∀ ev s' w id, Step s ev s' → ev.worker? = some w → s'.rows id ≠ s.rows id →
      ∃ tx row, s.txs w = some tx ∧ s.rows id = some row ∧ row.tenantId = tx.tenant) ∧
    ∀ w tx id row, s.txs w = some tx → tx.versions id = some row →
      ∃ old, s.rows id = some old ∧ old.tenantId = tx.tenant ∧ row.tenantId = tx.tenant := by
  -- each part is a fact about the invariant or about one step
  have hinv := h.inv
  refine ⟨fun s' hsteps id row hrow => hinv.evolves_steps hsteps hrow, fun id => ?_,
    fun ev s' w tx tx' running token id hstep hw hw' hrunning htoken hother =>
      hstep.fenced hw hw' hrunning htoken hother,
    fun token id hstale s' hsteps => hstale.steps hsteps, fun id row now hrow hpublished => ?_,
    fun w tx id row fresh hmay hclaimable => hmay.exists_step hclaimable, fun id row hrow => ?_,
    fun ev s' w id hstep hev hchanged => hinv.tenant_of_changed hstep hev hchanged,
    fun w tx id row hw hrow => ?_⟩
  · have hcommitted := hinv.committed id
    cases hrow : s.rows id with
    | none =>
      rw [hrow] at hcommitted
      rw [hcommitted.2]
      exact Nat.zero_le 1
    | some row =>
      rw [hrow] at hcommitted
      rw [hcommitted.2]
      split_ifs <;> omega
  · by_cases hclaim : row.UnderClaim now
    · exact .inl hclaim
    · exact .inr fun havailable =>
        Row.isClaimable_of_not_underClaim hpublished havailable hclaim
  · have hcommitted := hinv.committed id
    rw [hrow] at hcommitted
    exact hcommitted.1
  · have hbuilds := hinv.builds w tx hw id
    rw [hrow] at hbuilds
    obtain ⟨old, hold, -, htenant, htenant', -⟩ := hbuilds
    exact ⟨old, hold, htenant, htenant'⟩

end Preservation

end Invariant

/-- A row that is new, for examples. -/
def sampleRow : Row ℕ ℕ :=
  ⟨1, 0, none, none, none, 0, none, .inl ⟨rfl, rfl, rfl⟩, .inl rfl, by decide⟩

theorem outbox_protocol_sample :
    ∃ s : State ℕ ℕ ℕ Unit, Reachable s ∧ ∃ row, s.rows 5 = some row ∧
      row.publishedAt = some 0 ∧ row.attempts = claims s.committed 5 ∧
      publications s.committed 5 ≤ 1 := by
  have h₁ : Steps (.empty 0 : State ℕ ℕ ℕ Unit) _ :=
    .tail .refl (show Step _ (.insert 5 sampleRow) _ from .insert rfl rfl rfl rfl)
  -- one transaction claims the row with the token 77, the next one publishes it
  have h₂ := h₁.tail (show Step _ (.begin () 1) _ from .begin 1 rfl)
  have h₃ := h₂.tail (show Step _ (.call () (.claimBatch 10 60)) _ from .call rfl rfl rfl)
  have h₄ := h₃.tail (show Step _ (.touch () 5 77) _ from .touch rfl rfl List.not_mem_nil rfl
    (fun _ _ _ _ => rfl) rfl rfl (fun _ => List.not_mem_nil) rfl)
  have h₅ := (h₄.tail (show Step _ (.finish ()) _ from .finish rfl)).tail
    (show Step _ (.commit ()) _ from .commit rfl rfl)
  have h₆ := h₅.tail (show Step _ (.begin () 1) _ from .begin 1 rfl)
  have h₇ := h₆.tail
    (show Step _ (.call () (.publishClaim [5] (some 77))) _ from .call rfl rfl rfl)
  have h₈ := h₇.tail (show Step _ (.touch () 5 78) _ from .touch rfl rfl List.not_mem_nil rfl
    (fun _ _ _ _ => rfl) rfl rfl nofun rfl)
  have h₉ := (h₈.tail (show Step _ (.finish ()) _ from .finish rfl)).tail
    (show Step _ (.commit ()) _ from .commit rfl rfl)
  have hprotocol := outbox_protocol ⟨0, h₉⟩
  exact ⟨_, ⟨0, h₉⟩, _, rfl, rfl, hprotocol.2.2.2.2.2.2.1 5 _ rfl, hprotocol.2.1 5⟩

end MetaframerKernel.Outbox
