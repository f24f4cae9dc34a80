import MetaframerKernel.Adapters.DecisionLogIntegrity
import MetaframerKernel.Application.Collaborators
import MetaframerKernel.Stores.LinkedLog
import MetaframerKernel.Stores.Sessions

/-!
# The PostgreSQL decision log

`append` and `chainHead` of `PostgresDecisionLogAdapter`, and the table `policy_decision_log` they
work on: its constraints each look at one new row, and together keep the committed rows of every
tenant one linear chain.

## Main definitions

* `append`, `chainHead`: the programs;
* `LogRow`, `Constraints`: the rows of the table and what a new one has to meet;
* `chainHeadQuery`: what the query of `chainHead` selects;
* `logSystem`: any number of calls next to each other over one table.

## Main results

* `committed_isLinearChain`: what any interleaving has committed for a tenant is one chain, and the
  query selects its last link;
* `committed_of_settled`: a call that is fulfilled has committed its transaction, and one that is
  rejected none;
* `exists_committed`: an append can commit.
-/

namespace MetaframerKernel.PostgresDecisionLog

open Js Async Stores

/-! ## The programs -/

/-- The statements of the adapter. -/
inductive LogStatement where
  | begin
  /-- `SELECT mfk_begin_tenant_context($1::uuid)` -/
  | beginTenantContext (tenantId : JsString)
  /-- `INSERT INTO policy_decision_log … RETURNING …` -/
  | insertEntry (id tenantId entryHash : JsString) (prevHash : Option JsString)
      (payload : List Char)
  /-- The `SELECT` of the rows no successor names. -/
  | selectHead (tenantId : JsString)
  | commit
  | rollback

/-- What a statement is fulfilled with: an insert with the row it returns, a select with the column
it selects. -/
@[reducible]
def LogStatement.Answer : LogStatement → Type
  | insertEntry .. => Json
  | selectHead _ => List JsString
  | _ => Unit

/-- What the adapter awaits of its pool and its clients. -/
inductive LogCall where
  | connect
  | query (client : ClientId) (statement : LogStatement)
  | release (client : ClientId)

/-- What a call is fulfilled with. -/
@[reducible]
def LogCall.Answer : LogCall → Type
  | connect => ClientId
  | query _ statement => statement.Answer
  | release _ => Unit

/-- What the programs of the adapter call. -/
abbrev driver : Interface := ⟨LogCall, LogCall.Answer, Thrown⟩

/-- `CHAIN_CONFLICT_PAIRS` -/
def chainConflictPairs : List (JsString × JsString) :=
  [(lit "23505", lit "policy_decision_log_one_genesis_per_tenant"),
    (lit "23505", lit "policy_decision_log_one_successor_per_predecessor"),
    (lit "23503", lit "policy_decision_log_prev_hash_same_tenant_fk")]

/-- `isChainConflictError` -/
def isChainConflictError : Thrown → Bool
  | .driver e => chainConflictPairs.any fun p => e.code == some p.1 && e.constraint == some p.2
  | _ => false

/-- A statement on a client. -/
def query (client : ClientId) (statement : LogStatement) : Program driver statement.Answer :=
  Program.ask (I := driver) (.query client statement)

/-- `client.release()` -/
def release (client : ClientId) : Program driver Unit :=
  (Program.ask (I := driver) (.release client)).regardless

section Append

variable (sha256 : ByteArray → JsString)

/-- The row that was returned, verified. -/
def verified (row : Json) : Except Thrown DecisionLogRow.AppendReceipt :=
  (DecisionLogRow.verifyPersistedDecisionLogRow sha256 row).mapError fun e =>
    .decisionLog (.integrity e.message)

/-- The transaction of `append`. -/
def appendTransaction (entry : DecisionLogEntry) (client : ClientId) :
    Program driver DecisionLogRow.AppendReceipt := do
  let _ ← query client .begin
  let _ ← query client (.beginTenantContext entry.request.tenantId.value)
  let row ← query client (.insertEntry entry.id entry.request.tenantId.value
    (entry.entryHash sha256) entry.prevHash entry.plainPayloadOf.stringify)
  let receipt ← Program.sync (verified sha256 row)
  let _ ← query client .commit
  return receipt

/-- `append` on a genuine entry. -/
def append (entry : DecisionLogEntry) : Program driver DecisionLogRow.AppendReceipt := do
  let client : ClientId ← Program.ask (I := driver) .connect
  Program.ensuring
    (tryCatch (appendTransaction sha256 entry client) fun error => do
      let _ ← (query client .rollback).regardless
      if isChainConflictError error then
        throw (.decisionLog
          (.chainConflict entry.request.tenantId.value entry.id entry.prevHash))
      else throw error)
    (release client)

end Append

/-- `chainHead` on a genuine tenant. -/
def chainHead (tenantId : TenantId) : Program driver (Option JsString) := do
  let client : ClientId ← Program.ask (I := driver) .connect
  Program.ensuring
    (tryCatch
      (do
        let _ ← query client .begin
        let _ ← query client (.beginTenantContext tenantId.value)
        -- the one statement between the tenant's context and the commit
        let rows ← query client (.selectHead tenantId.value)
        let _ ← query client .commit
        return rows.head?)
      fun error => do
        -- what the rollback answers is not looked at: the first error is the one that is thrown
        let _ ← (query client .rollback).regardless
        throw error)
    (release client)

/-! ## The table -/

/-- A row of `policy_decision_log`; a payload that is no JSON has no `jsonb` value. -/
structure LogRow where
  id : JsString
  tenantId : JsString
  entryHash : JsString
  prevHash : Option JsString
  payload : Option Json

/-- The string a path of the payload leads to, `payload #>> path`, where there is one. -/
def payloadText (payload : Json) (path : List String) : Option Json :=
  path.foldl (fun v key => v.bind fun v => DecisionLogRow.field v key) (some payload)

/-- The constraints of the table that a new row meets beside the rows already there. -/
structure Constraints (table : List LogRow) (r : LogRow) : Prop where
  /-- `PRIMARY KEY` -/
  primaryKey : ∀ s ∈ table, s.id ≠ r.id
  idIsUlid : isUlid r.id = true
  entryHashIsHex64 : isHex64 r.entryHash = true
  prevHashIsHex64 : ∀ h, r.prevHash = some h → isHex64 h = true
  payloadIsObject : ∃ m, r.payload = some (.obj m)
  noSelfLink : r.prevHash ≠ some r.entryHash
  payloadIdMatches : r.payload.bind (payloadText · ["id"]) = some (.str r.id)
  payloadPrevHashMatches : r.payload.bind (payloadText · ["prevHash"]) =
    some (DecisionLogEntry.nullable r.prevHash)
  payloadTenantMatches : r.payload.bind (payloadText · ["requestActor", "tenantId"]) =
    some (.str r.tenantId)
  tenantEntryHashUnique : ∀ s ∈ table, s.tenantId = r.tenantId → s.entryHash ≠ r.entryHash
  prevHashSameTenantFk : ∀ h, r.prevHash = some h →
    ∃ s ∈ table ++ [r], s.tenantId = r.tenantId ∧ s.entryHash = h
  oneGenesisPerTenant : r.prevHash = none →
    ∀ s ∈ table, s.tenantId = r.tenantId → s.prevHash ≠ none
  oneSuccessorPerPredecessor : ∀ h, r.prevHash = some h →
    ∀ s ∈ table, s.tenantId = r.tenantId → s.prevHash ≠ some h

/-- Rows inserted one after another each meet the constraints. -/
def Admitted : List LogRow → List LogRow → Prop
  | _, [] => True
  | table, r :: rows => Constraints table r ∧ Admitted (table ++ [r]) rows

/-- The rows of a tenant. -/
def rowsOf (tenantId : JsString) (table : List LogRow) : List LogRow :=
  table.filter fun r => r.tenantId = tenantId

/-- The query of `chainHead`: the hashes of the rows of the tenant that no row of the tenant names
as its predecessor. -/
def chainHeadQuery (tenantId : JsString) (table : List LogRow) : List JsString :=
  (table.filter fun head => head.tenantId = tenantId ∧
    ¬table.any fun succ => succ.tenantId = head.tenantId ∧ succ.prevHash = some head.entryHash).map
    LogRow.entryHash

/-! ## Calls next to each other -/

/-- A call of the adapter. -/
inductive LogRequest where
  | append (entry : DecisionLogEntry)
  | chainHead (tenantId : TenantId)

/-- What a call answers. -/
inductive LogReply where
  | receipt (r : DecisionLogRow.AppendReceipt)
  | head (hash : Option JsString)

/-- The program of a call. -/
def LogRequest.program (sha256 : ByteArray → JsString) : LogRequest → Program driver LogReply
  | .append entry => LogReply.receipt <$> PostgresDecisionLog.append sha256 entry
  | .chainHead tenantId => LogReply.head <$> PostgresDecisionLog.chainHead tenantId

/-- What a statement is to the table. -/
def LogStatement.effect : LogStatement → Stores.Statement LogRow
  | .begin => .begin
  | .beginTenantContext _ => .read
  | .insertEntry id tenantId entryHash prevHash payload =>
      .write ⟨id, tenantId, entryHash, prevHash, jsonParse payload⟩
  | .selectHead _ => .read
  | .commit => .commit
  | .rollback => .rollback

/-- What a call is to the table. -/
def logAction : Event driver → Stores.Action ClientId LogRow
  | ⟨.connect, .ok client⟩ => .connect client
  | ⟨.connect, .error _⟩ => .none
  | ⟨.query client statement, r⟩ => .statement client statement.effect r.isOk
  | ⟨.release client, _⟩ => .release client

/-- A select is fulfilled with what its query selects from the table. -/
def Selects (table : List LogRow) : Event driver → Prop
  | ⟨.query _ (.selectHead tenantId), .ok hashes⟩ => hashes = chainHeadQuery tenantId table
  | _ => True

/-- Calls next to each other: the table takes their statements as its constraints admit, and a
select answers from the committed rows. -/
def logSystem (sha256 : ByteArray → JsString) (requests : ℕ → LogRequest) :
    System driver ℕ (Store ℕ ClientId LogRow) LogReply where
  program i := (requests i).program sha256
  Answers s i ev s' := s.Step Admitted i (logAction ev) s' ∧ Selects s.rows ev

/-! ## What one call commits -/

section Calls

variable (sha256 : ByteArray → JsString)

/-- The row an entry is inserted as. -/
def rowOf (entry : DecisionLogEntry) : LogRow where
  id := entry.id
  tenantId := entry.request.tenantId.value
  entryHash := entry.entryHash sha256
  prevHash := entry.prevHash
  payload := jsonParse entry.plainPayloadOf.stringify

/-- The row of an entry carries its hash. -/
theorem entryHash_rowOf (entry : DecisionLogEntry) :
    (rowOf sha256 entry).entryHash = entry.entryHash sha256 := rfl

/-- The transactions a call commits when it is fulfilled. -/
def LogRequest.Wrote : LogRequest → LogReply → List LogRow → Prop
  | .append entry, _, writes => writes = [rowOf sha256 entry]
  | .chainHead _, _, writes => writes = []

/-- An append runs one transaction. -/
theorem append_eq (entry : DecisionLogEntry) :
    append sha256 entry = Program.ask (I := driver) .connect >>= fun client : ClientId =>
      Program.ensuring
        (tryCatch (appendTransaction sha256 entry client) fun error => do
          let _ ← (Program.ask (I := driver) (.query client .rollback)).regardless
          throw (if isChainConflictError error then
            .decisionLog (.chainConflict entry.request.tenantId.value entry.id entry.prevHash)
          else error))
        (Program.ask (I := driver) (.release client)).regardless := by
  simp only [append, query, release, apply_ite throw]

/-- An append commits the row of its entry, or nothing, after whatever has been committed before. -/
theorem safe_append {P : List LogRow → Prop} {done : List (List LogRow)} {past : History driver}
    (hview : viewAfter logAction past = ⟨none, done⟩) (entry : DecisionLogEntry)
    (hP : P [rowOf sha256 entry]) :
    Safe (Keeps logAction P)
      (Settled logAction done fun _ writes => writes = [rowOf sha256 entry]) past
      (append sha256 entry) := by
  rw [append_eq]
  refine safe_transaction id hview (fun _ => rfl) (fun _ => rfl) (fun _ _ => rfl)
    (fun _ _ => rfl) ?_
  intro past client hidle
  refine safe_statement_bind (fun _ => rfl) hidle rfl fun past _ hbegun => ?_
  refine safe_statement_bind (fun _ => rfl) hbegun rfl fun past _ hcontext => ?_
  refine safe_statement_bind (fun _ => rfl) hcontext rfl
    fun past row hinserted => ?_
  -- the row that comes back is verified before the commit
  cases hverified : verified sha256 row with
  | error e => exact ⟨_, hinserted⟩
  | ok receipt => exact safe_commit (fun _ => rfl) hinserted hP rfl

/-- A reading of the chain head commits nothing. -/
theorem safe_chainHead {P : List LogRow → Prop} {done : List (List LogRow)} {past : History driver}
    (hview : viewAfter logAction past = ⟨none, done⟩) (tenantId : TenantId) (hP : P []) :
    Safe (Keeps logAction P) (Settled logAction done fun _ writes => writes = []) past
      (chainHead tenantId) := by
  refine safe_transaction id hview (fun _ => rfl)
    (fun _ => rfl) (fun _ _ => rfl) (fun _ _ => rfl) ?_
  intro past client hidle
  refine safe_statement_bind (fun _ => rfl) hidle rfl fun past _ hbegun => ?_
  refine safe_statement_bind (fun _ => rfl) hbegun rfl fun past _ hcontext => ?_
  refine safe_statement_bind (fun _ => rfl) hcontext rfl fun past rows hselected => ?_
  exact safe_commit (fun _ => rfl) hselected hP rfl

/-- What a call commits: the row of an entry, or nothing. -/
def IsWritten (writes : List LogRow) : Prop :=
  writes = [] ∨ ∃ entry, writes = [rowOf sha256 entry]

/-- A request writes what it should, or nothing. -/
theorem LogRequest.safe (request : LogRequest) :
    Safe (Keeps logAction (IsWritten sha256)) (Settled logAction [] (request.Wrote sha256)) []
      (request.program sha256) := by
  cases request with
  | append entry =>
    exact (safe_append sha256 rfl entry (.inr ⟨entry, rfl⟩)).bind (fun _ _ h => h) fun _ _ h => h
  | chainHead tenantId =>
    exact (safe_chainHead rfl tenantId (.inl rfl)).bind (fun _ _ h => h) fun _ _ h => h

variable {requests : ℕ → LogRequest} {cfg : Config driver ℕ (Store ℕ ClientId LogRow) LogReply}

/-- Every call's view of the table is right. -/
theorem views_of_calls (h : (logSystem sha256 requests).Reachable .empty cfg) :
    Views Admitted cfg.state fun i => viewAfter logAction (cfg.past i) :=
  views_of_keeps (fun _ _ _ _ h => And.left h)
    (fun i => (requests i).safe sha256) h

/-- Every committed row is that of an entry. -/
theorem exists_entry_of_mem_rows (h : (logSystem sha256 requests).Reachable .empty cfg)
    {r : LogRow} (hr : r ∈ cfg.state.rows) : ∃ entry, r = rowOf sha256 entry := by
  have hwritten := committed_of_reachable (P := fun _ => IsWritten sha256)
    (fun _ _ _ _ h => And.left h) (fun i => (requests i).safe sha256) h
  obtain ⟨writes, hwrites, hr⟩ := List.mem_flatten.mp hr
  obtain ⟨tx, htx, rfl⟩ := List.mem_map.mp hwrites
  rcases hwritten tx htx with hnil | ⟨entry, hentry⟩
  · rw [hnil] at hr
    cases hr
  · rw [hentry, List.mem_singleton] at hr
    exact ⟨entry, hr⟩

/-- A call that is fulfilled has committed its one transaction, and one that is rejected none. -/
theorem committed_of_settled (h : (logSystem sha256 requests).Reachable .empty cfg) {i : ℕ}
    {o : Except Thrown LogReply} (hsettled : cfg.left i = .settled o) :
    match o with
    | .ok reply => ∃ writes, (requests i).Wrote sha256 reply writes ∧
        cfg.state.committed.filter (fun tx => tx.1 = i) = [(i, writes)]
    | .error _ => cfg.state.committed.filter (fun tx => tx.1 = i) = [] := by
  have hdone := (views_of_calls sha256 h).filter_eq i
  have hsafe := h.safe ((requests i).safe sha256)
  rw [hsettled] at hsafe
  cases o with
  | error e => rw [hdone, show viewAfter logAction (cfg.past i) = _ from hsafe, List.map_nil]
  | ok reply =>
    obtain ⟨writes, hwrote, hview⟩ := hsafe
    exact ⟨writes, hwrote, by rw [hdone, hview, List.nil_append, List.map_singleton]⟩

end Calls

/-! ## The chain of a tenant -/

section Chain

variable {table rows : List LogRow} {tenantId : JsString}

/-- The rows of a tenant are those of its id. -/
theorem mem_rowsOf {r : LogRow} :
    r ∈ rowsOf tenantId table ↔ r ∈ table ∧ r.tenantId = tenantId := by
  rw [rowsOf, List.mem_filter, decide_eq_true_iff]

/-- The rows of a tenant are those of both parts of a table. -/
theorem rowsOf_append :
    rowsOf tenantId (table ++ rows) = rowsOf tenantId table ++ rowsOf tenantId rows :=
  List.filter_append ..

/-- Beside the rows of its tenant, the constraints on a new row are those of a linked log. -/
theorem Constraints.admits {r : LogRow} (h : Constraints table r) :
    Stores.Admits LogRow.entryHash LogRow.prevHash (rowsOf r.tenantId table) r where
  unique hmem := by
    obtain ⟨s, hs, hhash⟩ := List.mem_map.mp hmem
    obtain ⟨hs, htenant⟩ := mem_rowsOf.mp hs
    exact h.tenantEntryHashUnique s hs htenant hhash
  noSelfLink := h.noSelfLink
  foreignKey k hk := by
    obtain ⟨s, hs, htenant, rfl⟩ := h.prevHashSameTenantFk k hk
    have hself : rowsOf r.tenantId [r] = [r] := by simp [rowsOf]
    rw [← hself, ← rowsOf_append]
    exact List.mem_map_of_mem (mem_rowsOf.mpr ⟨hs, htenant⟩)
  oneGenesis hprev s hs := h.oneGenesisPerTenant hprev s (mem_rowsOf.mp hs).1 (mem_rowsOf.mp hs).2
  oneSuccessor k hk s hs :=
    h.oneSuccessorPerPredecessor k hk s (mem_rowsOf.mp hs).1 (mem_rowsOf.mp hs).2

/-- Each tenant has a linked log. -/
def AllLinked (table : List LogRow) : Prop :=
  ∀ tenantId, Linked LogRow.entryHash LogRow.prevHash (rowsOf tenantId table)

/-- An inserted row extends the log of its own tenant and leaves the others. -/
theorem AllLinked.snoc (h : AllLinked table) {r : LogRow} (hr : Constraints table r) :
    AllLinked (table ++ [r]) := by
  intro tenantId
  rw [rowsOf_append]
  by_cases htenant : r.tenantId = tenantId
  · subst htenant
    have hself : rowsOf r.tenantId [r] = [r] := by simp [rowsOf]
    rw [hself]
    exact (h r.tenantId).snoc_of_admits hr.admits
  · have hother : rowsOf tenantId [r] = [] := by simp [rowsOf, htenant]
    rw [hother, List.append_nil]
    exact h tenantId

/-- Rows that are admitted keep a table linked. -/
theorem AllLinked.append (h : AllLinked table) (hrows : Admitted table rows) :
    AllLinked (table ++ rows) := by
  induction rows generalizing table with
  | nil => rwa [List.append_nil]
  | cons r rows ih =>
    rw [← List.singleton_append, ← List.append_assoc]
    exact ih (h.snoc hrows.1) hrows.2

/-- Transactions that were each admitted beside the earlier ones keep every log linked. -/
theorem allLinked_of_admitted {transactions : List (ℕ × List LogRow)}
    (h : ∀ before tx after, transactions = before ++ tx :: after →
      Admitted (writesOf before) tx.2) : AllLinked (writesOf transactions) := by
  induction transactions using List.reverseRecOn with
  | nil => exact fun _ => .nil
  | append_singleton before tx ih =>
    have hbefore : AllLinked (writesOf before) := ih fun before' tx' after hbefore =>
      h before' tx' (after ++ [tx]) (by rw [hbefore, List.append_assoc, List.cons_append])
    have hwrites : writesOf (before ++ [tx]) = writesOf before ++ tx.2 := by
      simp [writesOf]
    rw [hwrites]
    exact hbefore.append (h before tx [] rfl)

/-- The query selects the rows of the tenant's log that no other one links to. -/
theorem chainHeadQuery_eq (tenantId : JsString) (table : List LogRow) :
    chainHeadQuery tenantId table =
      (heads LogRow.entryHash LogRow.prevHash (rowsOf tenantId table)).map LogRow.entryHash := by
  rw [chainHeadQuery, heads, rowsOf, List.filter_filter]
  congr 1
  refine List.filter_congr fun r _ => ?_
  rw [Bool.eq_iff_iff]
  simp only [decide_eq_true_iff, Bool.and_eq_true, List.all_eq_true, List.any_eq_true,
    List.mem_filter]
  grind

end Chain

/-! ## A call that commits -/

section Commits

open DecisionLogRow Json

variable {sha256 : ByteArray → JsString} {entry : DecisionLogEntry}

/-- The table takes the row of an entry whose identifier is new and that links to the log of its
tenant. -/
theorem constraints_rowOf {table : List LogRow} (hhash : isHex64 (entry.entryHash sha256) = true)
    (hid : ∀ s ∈ table, s.id ≠ entry.id)
    (hlink : Stores.Admits LogRow.entryHash LogRow.prevHash
      (rowsOf entry.request.tenantId.value table) (rowOf sha256 entry)) :
    Constraints table (rowOf sha256 entry) := by
  have hw := wellFormed_plainPayloadOf entry
  have hparse : jsonParse entry.plainPayloadOf.stringify = some entry.plainPayloadOf.readBack :=
    jsonParse_stringify hw
  -- what the checks on the payload read is what the row has beside it
  have hcarries := carries_of_canonical (wellFormed_readBack hw) (canonical_readBack hw)
  have hfield {key : String} (hkey : key ∈ payloadKeys) := hcarries.keys.field_eq hkey
  have hobject : ∃ m, entry.plainPayloadOf.readBack = .obj m := by
    rw [DecisionLogEntry.plainPayloadOf, readBack, rebuild]
    exact ⟨_, rfl⟩
  refine {
    primaryKey := hid
    idIsUlid := entry.idOk
    entryHashIsHex64 := hhash
    prevHashIsHex64 := entry.prevHashOk
    payloadIsObject := ?_
    noSelfLink := hlink.noSelfLink
    payloadIdMatches := ?_
    payloadPrevHashMatches := ?_
    payloadTenantMatches := ?_
    tenantEntryHashUnique := ?_
    prevHashSameTenantFk := ?_
    oneGenesisPerTenant := ?_
    oneSuccessorPerPredecessor := ?_ }
  · obtain ⟨m, hm⟩ := hobject
    exact ⟨m, hparse.trans (congrArg some hm)⟩
  · simp only [rowOf, hparse, Option.bind_some, payloadText, List.foldl_cons, List.foldl_nil]
    rw [hfield (by decide), hcarries.id]
  · simp only [rowOf, hparse, Option.bind_some, payloadText, List.foldl_cons, List.foldl_nil]
    rw [hfield (by decide), hcarries.prevHash]
  · simp only [rowOf, hparse, Option.bind_some, payloadText, List.foldl_cons, List.foldl_nil]
    rw [hfield (by decide), Option.bind_some, hcarries.actorKeys.field_eq (by decide),
      hcarries.tenantId]
  · intro s hs htenant hsame
    exact hlink.unique (hsame ▸ List.mem_map_of_mem (mem_rowsOf.mpr ⟨hs, htenant⟩))
  · intro h hprev
    obtain ⟨s, hs, hkey⟩ := List.mem_map.mp (hlink.foreignKey h hprev)
    rcases List.mem_append.mp hs with hs | hs
    · obtain ⟨hs, htenant⟩ := mem_rowsOf.mp hs
      exact ⟨s, List.mem_append_left _ hs, htenant, hkey⟩
    · obtain rfl := List.mem_singleton.mp hs
      exact ⟨_, List.mem_append_right _ hs, rfl, hkey⟩
  · intro hprev s hs htenant
    exact hlink.oneGenesis hprev s (mem_rowsOf.mpr ⟨hs, htenant⟩)
  · intro h hprev s hs htenant
    exact hlink.oneSuccessor h hprev s (mem_rowsOf.mpr ⟨hs, htenant⟩)

/-- An empty table takes a row that links to none. -/
theorem constraints_genesis (hhash : isHex64 (entry.entryHash sha256) = true)
    (hprev : entry.prevHash = none) : Constraints [] (rowOf sha256 entry) := by
  refine constraints_rowOf hhash nofun ⟨List.not_mem_nil, ?_, ?_, nofun, nofun⟩ <;>
    simp [rowOf, hprev]

/-- A table of one row takes a row that links to it. -/
theorem constraints_successor {next : DecisionLogEntry}
    (hhash : isHex64 (next.entryHash sha256) = true)
    (htenant : next.request.tenantId.value = entry.request.tenantId.value)
    (hid : entry.id ≠ next.id) (hgenesis : entry.prevHash = none)
    (hlink : next.prevHash = some (entry.entryHash sha256))
    (hnew : entry.entryHash sha256 ≠ next.entryHash sha256) :
    Constraints [rowOf sha256 entry] (rowOf sha256 next) := by
  have hrows : rowsOf next.request.tenantId.value [rowOf sha256 entry] = [rowOf sha256 entry] := by
    simp [rowsOf, rowOf, htenant]
  refine constraints_rowOf hhash (by simpa [rowOf] using hid) ?_
  rw [hrows]
  refine ⟨?_, ?_, ?_, ?_, ?_⟩
  · simpa [rowOf] using hnew.symm
  · simpa [rowOf, hlink] using hnew
  · simp [rowOf, hlink]
  · simp [rowOf, hlink]
  · simp [rowOf, hgenesis]

/-- The answers one call may get. -/
def AnswersTo (i : ℕ) (s : Store ℕ ClientId LogRow) (ev : Event driver)
    (s' : Store ℕ ClientId LogRow) : Prop :=
  s.Step Admitted i (logAction ev) s' ∧ Selects s.rows ev

/-- A client that nobody holds and on which no transaction is open. -/
structure Free (client : ClientId) (s : Store ℕ ClientId LogRow) : Prop where
  holder : s.holder client = none
  session : s.session client = .idle

/-- An append whose row the table takes can commit it, and gives its client back. -/
theorem runs_append {i : ℕ} {s : Store ℕ ClientId LogRow} {payload : Json} {client : ClientId}
    (hfree : Free client s) (hhash : isHex64 (entry.entryHash sha256) = true)
    (hrow : Constraints s.rows (rowOf sha256 entry)) (hw : payload.wellFormed = true)
    (hsame : canonical payload = canonical entry.plainPayloadOf) :
    ∃ s' receipt, Runs (AnswersTo i) s (append sha256 entry) s' (.ok receipt) ∧
      s'.rows = s.rows ++ [rowOf sha256 entry] ∧ Free client s' := by
  let row := rowFor sha256 entry payload
  have hverified : verified sha256 row =
      .ok ⟨entry.id, entry.request.tenantId.value, entry.entryHash sha256, entry.prevHash⟩ := by
    rw [verified, verify_rowFor hhash hw hsame]
    rfl
  have hadmitted : Admitted s.rows [rowOf sha256 entry] := ⟨hrow, trivial⟩
  -- the state after each call, with the answer by which nothing fails
  let connected := s.hand client (some i)
  let begun := connected.execute i client .begin true
  let inContext := begun.execute i client .read true
  let inserted := inContext.execute i client (.write (rowOf sha256 entry)) true
  let committed := inserted.execute i client .commit true
  have hbegun : begun.session client = .active [] ∧ begun.rows = s.rows := by
    simp [begun, connected, Store.hand, Store.execute, Store.rows, Session.next, Session.commits,
      hfree.session]
  have hcontext : inContext.session client = .active [] ∧ inContext.rows = s.rows := by
    simpa [inContext, Store.rows, Store.execute, Session.next, Session.commits, hbegun.1]
      using hbegun.2
  have hinserted : inserted.session client = .active [rowOf sha256 entry] ∧
      inserted.rows = s.rows := by
    simpa [inserted, Store.rows, Store.execute, Session.next, Session.commits, hcontext.1]
      using hcontext.2
  have hinsert : inContext.Step Admitted i (.statement client (.write (rowOf sha256 entry)) true)
      inserted := .statement client (.write _) true (by
    rw [hcontext.1, hcontext.2]
    rintro _ ⟨⟩
    exact hadmitted)
  have hcommit : inserted.Step Admitted i (.statement client .commit true) committed :=
    .statement client .commit true (by
      rw [hinserted.1, hinserted.2]
      rintro _ ⟨⟩
      exact hadmitted)
  refine ⟨committed.hand client none,
    ⟨entry.id, entry.request.tenantId.value, entry.entryHash sha256, entry.prevHash⟩,
    ?_, ?_, Store.hand_holder_self .., ?_⟩
  · refine .await (.ok client) ⟨.connect client hfree.holder, trivial⟩ ?_
    refine .await (.ok ()) ⟨.statement client .begin true (by rintro _ ⟨⟩), trivial⟩ ?_
    refine .await (.ok ()) ⟨.statement client .read true (by rintro _ ⟨⟩), trivial⟩ ?_
    refine .await (.ok row) ⟨hinsert, trivial⟩ ?_
    simp only [Program.andThen, Program.onFulfilled, hverified]
    refine .await (.ok ()) ⟨hcommit, trivial⟩ ?_
    exact .await (.ok ()) ⟨.release client, trivial⟩ (.settled _ _)
  · change writesOf committed.committed = _
    rw [show committed.committed = inserted.committed ++ [(i, [rowOf sha256 entry])] by
      simp [committed, Store.execute, hinserted.1, Session.commits], writesOf_append]
    exact congrArg₂ (· ++ ·) hinserted.2 (by simp [writesOf])
  · simp [committed, Store.hand, Store.execute, Session.next]

/-- A reading of the head can answer what the query selects, and gives its client back. -/
theorem runs_chainHead {i : ℕ} {s : Store ℕ ClientId LogRow} {client : ClientId}
    (hfree : Free client s) (tenantId : TenantId) :
    ∃ s', Runs (AnswersTo i) s (chainHead tenantId) s'
        (.ok (chainHeadQuery tenantId.value s.rows).head?) ∧
      s'.rows = s.rows ∧ Free client s' := by
  -- the states after each call; no row is written, so the table stays as it is
  let connected := s.hand client (some i)
  let begun := connected.execute i client .begin true
  let inContext := begun.execute i client .read true
  let selected := inContext.execute i client .read true
  let committed := selected.execute i client .commit true
  have hbegun : begun.session client = .active [] ∧ begun.rows = s.rows := by
    simp [begun, connected, Store.hand, Store.execute, Store.rows, Session.next, Session.commits,
      hfree.session]
  have hcontext : inContext.session client = .active [] ∧ inContext.rows = s.rows := by
    simpa [inContext, Store.rows, Store.execute, Session.next, Session.commits, hbegun.1]
      using hbegun.2
  have hselected : selected.session client = .active [] ∧ selected.rows = s.rows := by
    simpa [selected, Store.rows, Store.execute, Session.next, Session.commits, hcontext.1]
      using hcontext.2
  -- a transaction without writes can always be committed
  have hcommit : selected.Step Admitted i (.statement client .commit true) committed :=
    .statement client .commit true (by
      rw [hselected.1]
      rintro _ ⟨⟩
      trivial)
  refine ⟨committed.hand client none, ?_, ?_, Store.hand_holder_self .., ?_⟩
  · refine .await (.ok client) ⟨.connect client hfree.holder, trivial⟩ ?_
    refine .await (.ok ()) ⟨.statement client .begin true (by rintro _ ⟨⟩), trivial⟩ ?_
    refine .await (.ok ()) ⟨.statement client .read true (by rintro _ ⟨⟩), trivial⟩ ?_
    refine .await (.ok (chainHeadQuery tenantId.value s.rows))
      ⟨.statement client .read true (by rintro _ ⟨⟩), congrArg _ hcontext.2.symm⟩ ?_
    refine .await (.ok ()) ⟨hcommit, trivial⟩ ?_
    exact .await (.ok ()) ⟨.release client, trivial⟩ (.settled _ _)
  · change writesOf committed.committed = _
    rw [show committed.committed = selected.committed ++ [(i, [])] by
      simp [committed, Store.execute, hselected.1, Session.commits], writesOf_append]
    refine Eq.trans ?_ hselected.2
    simp [writesOf, Store.rows]
  · simp [committed, Store.hand, Store.execute, Session.next]

end Commits

/-- The query of the head selects the last row of a log that has one. -/
theorem chainHeadQuery_of_rowsOf {sha256 : ByteArray → JsString} {requests : ℕ → LogRequest}
    {cfg : Config driver ℕ (Store ℕ ClientId LogRow) LogReply}
    (h : (logSystem sha256 requests).Reachable .empty cfg) {tenantId : JsString}
    {earlier : List LogRow} {last : LogRow}
    (hrows : rowsOf tenantId cfg.state.rows = earlier ++ [last]) :
    chainHeadQuery tenantId cfg.state.rows = [last.entryHash] := by
  have hlinked : Linked LogRow.entryHash LogRow.prevHash (rowsOf tenantId cfg.state.rows) :=
    allLinked_of_admitted (views_of_calls sha256 h).admitted tenantId
  rw [chainHeadQuery_eq, hlinked.heads_eq, hrows, List.getLast?_concat]
  rfl

/-- It selects the only row of a log of one. -/
theorem chainHeadQuery_singleton {r : LogRow} {tenantId : JsString}
    (htenant : r.tenantId = tenantId)
    (hprev : r.prevHash ≠ some r.entryHash) : chainHeadQuery tenantId [r] = [r.entryHash] := by
  simp [chainHeadQuery, htenant, hprev]

/-- Whatever calls have run and in whatever order, the committed rows of a tenant are one chain,
and the query of its head selects nothing when there are none and else the last one alone. -/
theorem committed_isLinearChain (sha256 : ByteArray → JsString) (requests : ℕ → LogRequest)
    {cfg : Config driver ℕ (Store ℕ ClientId LogRow) LogReply}
    (h : (logSystem sha256 requests).Reachable .empty cfg) (tenantId : JsString) :
    IsLinearChain LogRow.entryHash LogRow.prevHash (rowsOf tenantId cfg.state.rows) ∧
      (rowsOf tenantId cfg.state.rows = [] ∧ chainHeadQuery tenantId cfg.state.rows = [] ∨
        ∃ earlier last, rowsOf tenantId cfg.state.rows = earlier ++ [last] ∧
          chainHeadQuery tenantId cfg.state.rows = [last.entryHash]) := by
  have hlinked : Linked LogRow.entryHash LogRow.prevHash (rowsOf tenantId cfg.state.rows) :=
    allLinked_of_admitted (views_of_calls sha256 h).admitted tenantId
  refine ⟨hlinked.isLinearChain, ?_⟩
  rcases List.eq_nil_or_concat (rowsOf tenantId cfg.state.rows) with hnil | ⟨earlier, last, hlast⟩
  · left
    rw [chainHeadQuery_eq, hlinked.heads_eq, hnil]
    exact ⟨rfl, rfl⟩
  · right
    rw [List.concat_eq_append] at hlast
    exact ⟨earlier, last, hlast, chainHeadQuery_of_rowsOf h hlast⟩

/-! ## Two linked rows -/

section Linked

open DecisionLogRow

/-- A call for the sample entry, and one for the entry after it. -/
def linkedRequests (i : ℕ) : LogRequest := .append (if i = 0 then .sample else nestedEntry)

/-- The rows the two calls commit. -/
def linkedRows : List LogRow := [rowOf sha256Hex .sample, rowOf sha256Hex nestedEntry]

/-- Both rows are of one tenant. -/
theorem rowsOf_linkedRows :
    rowsOf DecisionLogEntry.sample.request.tenantId.value linkedRows = linkedRows := by
  refine List.filter_eq_self.mpr fun r hr => decide_eq_true ?_
  rcases List.mem_cons.mp hr with rfl | hr
  · rfl
  · rw [List.mem_singleton.mp hr]
    rfl

/-- The table takes the nested entry after the sample one. -/
theorem constraints_nestedEntry :
    Constraints [rowOf sha256Hex .sample] (rowOf sha256Hex nestedEntry) :=
  constraints_successor (isHex64_sha256Hex _) rfl (by decide) rfl
    (congrArg some entryHash_sample.symm)
    (by rw [entryHash_sample, entryHash_nestedEntry]; decide)

/-- Both calls can commit, one after the other; the second one is given its payload back in another
order. -/
theorem exists_linkedRows : ∃ cfg, (logSystem sha256Hex linkedRequests).Reachable .empty cfg ∧
    cfg.state.rows = linkedRows := by
  have hinit : (logSystem sha256Hex linkedRequests).Reachable .empty _ := .init
  have hempty : Free 0 (Store.empty : Store ℕ ClientId LogRow) := ⟨rfl, rfl⟩
  have hfirst : isHex64 (DecisionLogEntry.sample.entryHash sha256Hex) = true := isHex64_sha256Hex _
  have hsecond : isHex64 (nestedEntry.entryHash sha256Hex) = true := isHex64_sha256Hex _
  obtain ⟨s₁, _, hruns₁, hrows₁, hfree₁⟩ := runs_append (i := 0) hempty hfirst
    (constraints_genesis hfirst rfl) (wellFormed_plainPayloadOf _) rfl
  obtain ⟨cfg₁, h₁, hstate₁, hleft₁⟩ := hinit.runs (hruns₁.map LogReply.receipt)
  -- the second row is linked to the first one, which is committed by now
  have hrow : Constraints s₁.rows (rowOf sha256Hex nestedEntry) := by
    rw [hrows₁]
    exact constraints_nestedEntry
  obtain ⟨s₂, _, hruns₂, hrows₂, -⟩ := runs_append (i := 1) hfree₁ hsecond hrow
    wellFormed_permutedPayload ((Json.sameValue_iff_canonical wellFormed_permutedPayload
      (wellFormed_plainPayloadOf _)).mp sameValue_permutedPayload)
  have hleft : cfg₁.left 1 = LogReply.receipt <$> append sha256Hex nestedEntry := by
    rw [hleft₁, Function.update_of_ne Nat.one_ne_zero]
    simp only [logSystem, linkedRequests, LogRequest.program, if_neg Nat.one_ne_zero]
  obtain ⟨cfg, h, rfl, -⟩ := h₁.runs (i := 1)
    (by rw [hstate₁, hleft]; exact hruns₂.map LogReply.receipt)
  exact ⟨cfg, h, by rw [hrows₂, hrows₁]; rfl⟩

theorem committed_isLinearChain_linked :
    ∃ cfg, (logSystem sha256Hex linkedRequests).Reachable .empty cfg ∧
      cfg.state.rows = linkedRows ∧
      IsLinearChain LogRow.entryHash LogRow.prevHash
        (rowsOf DecisionLogEntry.sample.request.tenantId.value cfg.state.rows) ∧
      chainHeadQuery DecisionLogEntry.sample.request.tenantId.value cfg.state.rows =
        [nestedHash] := by
  obtain ⟨cfg, h, hrows⟩ := exists_linkedRows
  obtain ⟨hchain, hhead⟩ := committed_isLinearChain sha256Hex linkedRequests h
    DecisionLogEntry.sample.request.tenantId.value
  rw [hrows, rowsOf_linkedRows] at hhead
  refine ⟨cfg, h, hrows, hchain, ?_⟩
  rcases hhead with ⟨hnil, -⟩ | ⟨earlier, last, hlast, hquery⟩
  · cases hnil
  · have hlatest : linkedRows.getLast? = some last := by
      rw [hlast, List.getLast?_concat]
    have hsecond : some (rowOf sha256Hex nestedEntry) = some last := hlatest
    rw [hrows, hquery, ← Option.some.inj hsecond, entryHash_rowOf, entryHash_nestedEntry]

end Linked

end MetaframerKernel.PostgresDecisionLog
