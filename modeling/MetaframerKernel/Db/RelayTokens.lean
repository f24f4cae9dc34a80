import MetaframerKernel.Db.OutboxRelay

/-!
# The tokens of a relay pass

Where the tokens that a pass has been given can be found: other workers put them nowhere, since a
release leaves no token, a publication the one it is fenced on and a claim a new one.

## Main definitions

* `Foreign`, `ForeignTx`: tokens of others, and transactions that carry no other ones;
* `Tokens`: the invariant.

## Main results

* `Tokens.other`: the steps of others keep it;
* `Tokens.keep`, `Tokens.commit`: and so do those of the pass.
-/

namespace MetaframerKernel.OutboxRelay

open Outbox

variable {Id Tenant Token Worker : Type}

/-! ## Steps of the table -/

section Steps

variable [DecidableEq Id] [DecidableEq Token] [DecidableEq Worker]
  {s s' : State Id Tenant Token Worker} {ev : Event Id Tenant Token Worker} {w : Worker}

/-- A step of one worker leaves the transactions of the others as they are. -/
theorem txs_eq_of_step (h : Step s ev s') (hw : ev.worker? ≠ some w) : s'.txs w = s.txs w := by
  have hne {w' : Worker} (hev : ev.worker? = some w') : w ≠ w' := by
    rintro rfl
    exact hw hev
  cases h with
  | advance elapsed => rfl
  | insert => rfl
  | begin tenant _ => exact s.withTx_txs_of_ne _ (hne rfl)
  | call => exact s.withTx_txs_of_ne _ (hne rfl)
  | touch => exact s.withTx_txs_of_ne _ (hne rfl)
  | finish => exact s.withTx_txs_of_ne _ (hne rfl)
  | commit => exact s.commit_txs_of_ne _ (hne rfl)
  | rollback => exact s.withTx_txs_of_ne _ (hne rfl)

/-- Tokens stay given out. -/
theorem issued_of_step (h : Step s ev s') {token : Token} (htoken : token ∈ s.issued) :
    token ∈ s'.issued := by
  cases h with
  | touch =>
    dsimp only
    split_ifs
    · exact List.mem_cons_of_mem _ htoken
    · exact htoken
  | _ => exact htoken

/-- What has been committed stays so. -/
theorem committed_of_step (h : Step s ev s') {entry : Mutation Id Token × Id}
    (hentry : entry ∈ s.committed) : entry ∈ s'.committed := by
  cases h with
  | commit => exact List.mem_append_left _ hentry
  | _ => exact hentry

end Steps

/-! ## Tokens -/

/-- A token that has been given out, and not to the pass. -/
structure Foreign (x : System Id Tenant Token Worker) (token : Token) : Prop where
  issued : token ∈ x.db.issued
  notMine : token ∉ x.mine

/-- Whatever carries a token in a transaction carries a foreign one. -/
structure ForeignTx (x : System Id Tenant Token Worker) (tx : Tx Id Tenant Token) : Prop where
  running : ∀ running token, tx.running = some running → running.mutation.token? = some token →
    Foreign x token
  versions : ∀ id row token, tx.versions id = some row → row.claimToken = some token →
    Foreign x token
  log : ∀ m id token, (m, id) ∈ tx.log → m.token? = some token → Foreign x token

/-- The statement that settled a row. -/
abbrev Settlement.mutation (σ : Settlement Id Tenant Token) (token : Token) : Mutation Id Token :=
  acknowledgement σ.row σ.delivery token

/-- Where the tokens are. Those of the pass are on committed rows that are not published, but for
the rows that are settled, and in what is committed only for these. -/
structure Tokens (pass : Pass Tenant Worker) (x : System Id Tenant Token Worker) : Prop where
  mine : ∀ token ∈ x.mine, token ∈ x.db.issued
  others : ∀ w tx, w ≠ pass.worker → x.db.txs w = some tx → ForeignTx x tx
  rows : ∀ id row token, x.db.rows id = some row → row.claimToken = some token →
    token ∈ x.db.issued ∧ (token ∈ x.mine → row.publishedAt ≠ none →
      ∃ σ ∈ x.settled, σ.row.id = id)
  committed : ∀ m id token, (m, id) ∈ x.db.committed → m.token? = some token →
    token ∈ x.db.issued ∧ (token ∈ x.mine →
      ∃ σ ∈ x.settled, σ.row.id = id ∧ σ.current = true ∧ m = σ.mutation token)

section Tokens

variable {pass : Pass Tenant Worker} {x y : System Id Tenant Token Worker} {token : Token}
  {tx : Tx Id Tenant Token}

/-- A token of another worker stays one. -/
theorem Foreign.mono (h : Foreign x token) (hissued : ∀ t ∈ x.db.issued, t ∈ y.db.issued)
    (hmine : ∀ t ∈ y.mine, t ∈ x.mine ∨ t ∉ x.db.issued) : Foreign y token where
  issued := hissued token h.issued
  notMine hmem := (hmine token hmem).elim h.notMine fun hnot => hnot h.issued

/-- A transaction of another worker stays one. -/
theorem ForeignTx.mono (h : ForeignTx x tx) (hissued : ∀ t ∈ x.db.issued, t ∈ y.db.issued)
    (hmine : ∀ t ∈ y.mine, t ∈ x.mine ∨ t ∉ x.db.issued) : ForeignTx y tx where
  running running token hrunning htoken := (h.running running token hrunning htoken).mono hissued
    hmine
  versions id row token hrow htoken := (h.versions id row token hrow htoken).mono hissued hmine
  log m id token hm htoken := (h.log m id token hm htoken).mono hissued hmine

/-- A transaction that has begun. -/
theorem foreignTx_begin (x : System Id Tenant Token Worker) (tenant : Tenant) (now : Time) :
    ForeignTx x ⟨tenant, now, fun _ => none, none, []⟩ := by
  refine ⟨?_, ?_, ?_⟩
  · rintro _ _ ⟨⟩
  · rintro _ _ _ ⟨⟩
  · rintro _ _ _ hm
    exact absurd hm List.not_mem_nil

/-- A statement carries the token of its call. -/
theorem token?_of_statement {c : Call Id Token} {m : Mutation Id Token}
    (h : c.statement = .ok (some m)) (hm : m.token? = some token) : token? c = some token := by
  -- a fenced statement carries the token of its argument
  have hfenced {statement : List Id → Token → Mutation Id Token} {ids : List Id}
      {claimToken : Option Token} (hstatement : ∀ ids t, (statement ids t).token? = some t)
      (h : fenced statement ids claimToken = .ok (some m)) : claimToken = some token := by
    cases claimToken with
    | none => cases h
    | some t =>
      rw [fenced] at h
      split_ifs at h
      · cases h
      · obtain rfl := Option.some.inj (Except.ok.inj h)
        rw [hstatement] at hm
        exact hm
  cases c with
  | claimBatch limit lease =>
    rw [Call.statement] at h
    split_ifs at h
    obtain rfl := Option.some.inj (Except.ok.inj h)
    cases hm
  | releaseClaim ids claimToken => exact hfenced (fun _ _ => rfl) h
  | publishClaim ids claimToken => exact hfenced (fun _ _ => rfl) h

variable [DecidableEq Id] [DecidableEq Token] [DecidableEq Worker]
  {db : State Id Tenant Token Worker}

omit [DecidableEq Token] [DecidableEq Worker] in
/-- A row that a foreign statement has changed carries no token of the pass. -/
theorem ForeignTx.touch (h : ForeignTx x tx) {running : Running Id Token} {id : Id} {fresh : Token}
    {row row' : Row Tenant Token} (hrunning : tx.running = some running)
    (hfresh : running.mutation.isClaim = true → Foreign x fresh)
    (htouched : Touched running.mutation fresh row row') :
    ForeignTx x (tx.touch running id row') := by
  -- the running statement, the new versions, and the log with the statement
  refine ⟨?_, fun id' new token hnew htoken => ?_, fun m id' token hm htoken => ?_⟩
  · rintro _ token ⟨⟩ htoken
    exact h.running running token hrunning htoken
  · by_cases hid : id' = id
    · subst hid
      rw [Tx.touch_versions_self] at hnew
      obtain rfl := Option.some.inj hnew
      rcases htouched.claimToken token htoken with ⟨hclaim, rfl⟩ | ⟨hclaim, hkept⟩
      · exact hfresh hclaim
      · -- a release leaves no token, and a publication that of the statement
        cases hm : running.mutation.token? with
        | none =>
          cases hmutation : running.mutation <;> rw [hmutation] at hclaim hm
          · cases hclaim
          · cases hm
          · cases hm
        | some t =>
          have hsame := htouched.fenced t hm
          rw [hkept] at hsame
          exact h.running running token hrunning (hm.trans hsame.symm)
    · rw [Tx.touch_versions_of_ne _ _ _ hid] at hnew
      exact h.versions id' new token hnew htoken
  · rcases List.mem_append.mp hm with hm | hm
    · exact h.log m id' token hm htoken
    · obtain ⟨rfl, rfl⟩ := Prod.mk.inj (List.mem_singleton.mp hm)
      exact h.running running token hrunning htoken

/-- Other workers put tokens of the pass nowhere. -/
theorem Tokens.other {ev : Event Id Tenant Token Worker} (h : Tokens pass x)
    (hstep : Step x.db ev db) (hworker : ev.worker? ≠ some pass.worker)
    (hcall : ∀ w c token, ev = .call w c → token? c = some token → Foreign x token) :
    Tokens pass { x with db } := by
  have hissued : ∀ t ∈ x.db.issued, t ∈ db.issued := fun t ht => issued_of_step hstep ht
  have hmine : ∀ t ∈ x.mine, t ∈ db.issued := fun t ht => hissued t (h.mine t ht)
  have hforeign {tx : Tx Id Tenant Token} (htx : ForeignTx x tx) :
      ForeignTx { x with db } tx := htx.mono hissued fun t ht => .inl ht
  have hrows : ∀ id row token, x.db.rows id = some row → row.claimToken = some token →
      token ∈ db.issued ∧ (token ∈ x.mine → row.publishedAt ≠ none →
        ∃ σ ∈ x.settled, σ.row.id = id) := fun id row token hrow htoken =>
    ⟨hissued token (h.rows id row token hrow htoken).1, (h.rows id row token hrow htoken).2⟩
  have hcommitted : ∀ m id token, (m, id) ∈ x.db.committed → m.token? = some token →
      token ∈ db.issued ∧ (token ∈ x.mine →
        ∃ σ ∈ x.settled, σ.row.id = id ∧ σ.current = true ∧ m = σ.mutation token) :=
    fun m id token hm htoken =>
      ⟨hissued token (h.committed m id token hm htoken).1, (h.committed m id token hm htoken).2⟩
  -- a step that gives one worker another transaction
  have hwithTx {w : Worker} {t : Option (Tx Id Tenant Token)}
      (htxs : db.txs = Function.update x.db.txs w t)
      (ht : ∀ tx, t = some tx → ForeignTx { x with db } tx) :
      ∀ w' tx, w' ≠ pass.worker → db.txs w' = some tx → ForeignTx { x with db } tx := by
    intro w' tx hne hw'
    rw [htxs, Function.update_apply] at hw'
    split_ifs at hw' with hww
    · exact ht tx hw'
    · exact hforeign (h.others w' tx hne hw')
  cases hstep with
  | advance elapsed =>
    exact ⟨hmine, fun w tx hne hw => hforeign (h.others w tx hne hw), hrows, hcommitted⟩
  | @insert id new hnew hclaimed _ _ =>
    refine ⟨hmine, fun w tx hne hw => hforeign (h.others w tx hne hw), ?_, hcommitted⟩
    intro id' row token hrow htoken
    by_cases hid : id' = id
    · subst hid
      dsimp only at hrow
      rw [State.insert_rows_self] at hrow
      obtain rfl := Option.some.inj hrow
      rcases new.claimCoherent with ⟨-, hnone, -⟩ | ⟨hsome, -⟩
      · rw [htoken] at hnone
        cases hnone
      · rw [hclaimed] at hsome
        cases hsome
    · dsimp only at hrow
      rw [State.insert_rows_of_ne _ _ hid] at hrow
      exact hrows id' row token hrow htoken
  | begin tenant _ =>
    refine ⟨hmine, hwithTx rfl ?_, hrows, hcommitted⟩
    rintro _ ⟨⟩
    exact foreignTx_begin _ tenant x.db.clock
  | @call w tx c m hw hidle hstatement =>
    have htx := h.others w tx (fun hww => hworker (congrArg some hww)) hw
    refine ⟨hmine, hwithTx rfl ?_, hrows, hcommitted⟩
    rintro _ ⟨⟩
    refine hforeign ⟨?_, htx.versions, htx.log⟩
    rintro _ token ⟨⟩ htoken
    exact hcall w c token rfl (token?_of_statement hstatement htoken)
  | @touch w tx running id fresh row row' hw hrunning _ _ _ _ _ hfresh happly =>
    have htx := h.others w tx (fun hww => hworker (congrArg some hww)) hw
    refine ⟨hmine, hwithTx rfl ?_, hrows, hcommitted⟩
    rintro _ ⟨⟩
    refine (hforeign htx).touch hrunning (fun hclaim => ⟨?_, fun hmem => ?_⟩)
      (Mutation.touched_of_apply happly)
    · dsimp only
      rw [if_pos hclaim]
      exact List.mem_cons_self
    · exact hfresh hclaim (h.mine fresh hmem)
  | @finish w tx hw =>
    have htx := h.others w tx (fun hww => hworker (congrArg some hww)) hw
    refine ⟨hmine, hwithTx rfl ?_, hrows, hcommitted⟩
    rintro _ ⟨⟩
    refine hforeign ⟨?_, htx.versions, htx.log⟩
    rintro _ _ ⟨⟩
  | @commit w tx hw _ =>
    have htx := h.others w tx (fun hww => hworker (congrArg some hww)) hw
    refine ⟨hmine, hwithTx rfl nofun, fun id row token hrow htoken => ?_,
      fun m id token hm htoken => ?_⟩
    · dsimp only at hrow
      rw [State.commit_rows, State.version] at hrow
      cases hown : tx.versions id with
      | none =>
        rw [hown, Option.none_or] at hrow
        exact hrows id row token hrow htoken
      | some own =>
        rw [hown, Option.some_or] at hrow
        have hforeign := htx.versions id own token hown (Option.some.inj hrow ▸ htoken)
        exact ⟨hforeign.issued, fun hmem => absurd hmem hforeign.notMine⟩
    · rcases List.mem_append.mp hm with hm | hm
      · exact hcommitted m id token hm htoken
      · have hforeign := htx.log m id token hm htoken
        exact ⟨hforeign.issued, fun hmem => absurd hmem hforeign.notMine⟩
  | rollback => exact ⟨hmine, hwithTx rfl nofun, hrows, hcommitted⟩

omit [DecidableEq Id] [DecidableEq Token] [DecidableEq Worker] in
/-- What changes neither rows nor the transactions of others, and gives the pass new tokens only. -/
theorem Tokens.keep (h : Tokens pass x) (hissued : ∀ t ∈ x.db.issued, t ∈ y.db.issued)
    (hnew : ∀ t ∈ y.mine, t ∈ x.mine ∨ t ∉ x.db.issued) (hmine : ∀ t ∈ y.mine, t ∈ y.db.issued)
    (hothers : ∀ w, w ≠ pass.worker → y.db.txs w = x.db.txs w) (hrows : y.db.rows = x.db.rows)
    (hcommitted : y.db.committed = x.db.committed) (hsettled : y.settled = x.settled) :
    Tokens pass y := by
  refine ⟨hmine, fun w tx hne hw => ?_, fun id row token hrow htoken => ?_,
    fun m id token hm htoken => ?_⟩
  · rw [hothers w hne] at hw
    exact (h.others w tx hne hw).mono hissued hnew
  · rw [hrows] at hrow
    obtain ⟨hold, hpublished⟩ := h.rows id row token hrow htoken
    rw [hsettled]
    exact ⟨hissued token hold, fun hmem =>
      hpublished ((hnew token hmem).resolve_right fun hnot => hnot hold)⟩
  · rw [hcommitted] at hm
    obtain ⟨hold, hentry⟩ := h.committed m id token hm htoken
    rw [hsettled]
    exact ⟨hissued token hold, fun hmem =>
      hentry ((hnew token hmem).resolve_right fun hnot => hnot hold)⟩

omit [DecidableEq Id] [DecidableEq Token] in
/-- A commit of the pass. -/
theorem Tokens.commit (h : Tokens pass x) (control : Control Id Tenant Token)
    {settled : List (Settlement Id Tenant Token)} (hsettled : ∀ σ ∈ x.settled, σ ∈ settled)
    (hversions : ∀ id row token, tx.versions id = some row → row.claimToken = some token →
      token ∈ x.mine ∧ (row.publishedAt ≠ none → ∃ σ ∈ settled, σ.row.id = id))
    (hlog : ∀ m id token, (m, id) ∈ tx.log → m.token? = some token → token ∈ x.mine ∧
      ∃ σ ∈ settled, σ.row.id = id ∧ σ.current = true ∧ m = σ.mutation token) :
    Tokens pass ⟨x.db.commit tx pass.worker, control, x.mine, settled⟩ := by
  refine ⟨h.mine, fun w tx' hne hw => ?_, fun id row token hrow htoken => ?_,
    fun m id token hm htoken => ?_⟩
  · exact (h.others w tx' hne (State.txs_of_commit hw).2).mono (fun _ ht => ht) fun _ ht => .inl ht
  · dsimp only at hrow
    rw [State.commit_rows, State.version] at hrow
    -- a committed row is the one that was there or the transaction's own version of it
    cases hown : tx.versions id with
    | none =>
      rw [hown, Option.none_or] at hrow
      obtain ⟨hold, hpublished⟩ := h.rows id row token hrow htoken
      refine ⟨hold, fun hmem hne => ?_⟩
      obtain ⟨σ, hσ, hid⟩ := hpublished hmem hne
      exact ⟨σ, hsettled σ hσ, hid⟩
    | some own =>
      rw [hown, Option.some_or] at hrow
      obtain rfl := Option.some.inj hrow
      obtain ⟨hmem, hpublished⟩ := hversions id own token hown htoken
      exact ⟨h.mine token hmem, fun _ => hpublished⟩
  · rcases List.mem_append.mp hm with hm | hm
    · obtain ⟨hold, hentry⟩ := h.committed m id token hm htoken
      refine ⟨hold, fun hmem => ?_⟩
      obtain ⟨σ, hσ, hσ'⟩ := hentry hmem
      exact ⟨σ, hsettled σ hσ, hσ'⟩
    · obtain ⟨hmem, hentry⟩ := hlog m id token hm htoken
      exact ⟨h.mine token hmem, fun _ => hentry⟩

end Tokens

end MetaframerKernel.OutboxRelay
