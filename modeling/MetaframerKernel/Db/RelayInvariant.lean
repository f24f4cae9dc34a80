import Mathlib.Data.List.Nodup
import MetaframerKernel.Db.RelayTokens

/-!
# The invariant of a relay pass

What holds at each point of a pass: how far its transaction has come, and that its local variables
agree with what has become of the rows so far.

## Main definitions

* `ClaimInv`, `AcknowledgeInv`: the transaction of the pass at each of its stages;
* `Progressing`: the loop;
* `Inv`: the invariant.

## Main results

* `Inv.unpublished`: a row that is still to be settled has not been published under its token;
* `Inv.other`, `Inv.own`: every step keeps the invariant.
-/

namespace MetaframerKernel.OutboxRelay

open Outbox

variable {Id Tenant Token Worker : Type}

/-! ## The transactions of the pass -/

/-- A transaction that has changed nothing. -/
structure Untouched (pass : Pass Tenant Worker) (running : Option (Running Id Token))
    (tx : Tx Id Tenant Token) : Prop where
  tenant : tx.tenant = pass.tenantId
  running : tx.running = running
  versions : ∀ id, tx.versions id = none
  log : tx.log = []

/-- The transaction of the claim, with the rows it has reported. -/
structure Claims (pass : Pass Tenant Worker) (mine : List Token) (reported : List Id)
    (tx : Tx Id Tenant Token) : Prop where
  tenant : tx.tenant = pass.tenantId
  nodup : reported.Nodup
  reported : ∀ id, tx.versions id ≠ none ↔ id ∈ reported
  rows : ∀ id row, tx.versions id = some row → row.tenantId = pass.tenantId ∧
    row.publishedAt = none ∧ ∃ token ∈ mine, row.claimToken = some token
  log : ∀ m id, (m, id) ∈ tx.log → m.token? = none

/-- The transaction that has published or released a row. -/
structure Acknowledged (row : ClaimedRow Id Tenant Token) (delivery : Delivery) (token : Token)
    (tx : Tx Id Tenant Token) : Prop where
  version : ∃ row', tx.versions row.id = some row' ∧
    row'.publishedAt.isSome = delivery.delivered ∧ ∀ t, row'.claimToken = some t → t = token
  others : ∀ id, id ≠ row.id → tx.versions id = none
  log : tx.log = [(acknowledgement row delivery token, row.id)]

/-- The transaction of the claim at a stage. -/
def ClaimInv (pass : Pass Tenant Worker) (x : System Id Tenant Token Worker) :
    ClaimStage Id Tenant Token → Prop
  | .begin => x.db.txs pass.worker = none
  | .call => ∃ tx, x.db.txs pass.worker = some tx ∧ Untouched pass none tx
  | .running => ∃ tx m reported, x.db.txs pass.worker = some tx ∧
      tx.running = some ⟨m, reported⟩ ∧ m.isClaim = true ∧ Claims pass x.mine reported tx
  | .commit rows => ∃ tx reported, x.db.txs pass.worker = some tx ∧
      Claims pass x.mine reported tx ∧ rows = claimedRows tx reported

/-- The transaction that publishes or releases at a stage. -/
def AcknowledgeInv (pass : Pass Tenant Worker) (x : System Id Tenant Token Worker)
    (row : ClaimedRow Id Tenant Token) (delivery : Delivery) (token : Token) :
    AcknowledgeStage Id → Prop
  -- the transaction opens with the call and has touched nothing until its statement is done
  | .begin => x.db.txs pass.worker = none
  | .call => ∃ tx, x.db.txs pass.worker = some tx ∧ Untouched pass none tx
  | .running | .reached false => ∃ tx, x.db.txs pass.worker = some tx ∧
      Untouched pass (some ⟨acknowledgement row delivery token, []⟩) tx
  | .reached true => ∃ tx, x.db.txs pass.worker = some tx ∧
      tx.running = some ⟨acknowledgement row delivery token, [row.id]⟩ ∧
      Acknowledged row delivery token tx
  | .commit false ids => ids = [] ∧ ∃ tx, x.db.txs pass.worker = some tx ∧ Untouched pass none tx
  | .commit true ids => ids = [row.id] ∧ ∃ tx, x.db.txs pass.worker = some tx ∧
      Acknowledged row delivery token tx

/-- A row was delivered, and its token was current. -/
def Settlement.isPublished (σ : Settlement Id Tenant Token) : Bool :=
  σ.delivery.delivered && σ.current

/-- The loop, with the rows that are not settled. -/
structure Progressing (pass : Pass Tenant Worker) (x : System Id Tenant Token Worker)
    (p : Progress Id Tenant Token) (pending : List (ClaimedRow Id Tenant Token)) : Prop where
  rows : p.rows = x.settled.map Settlement.row ++ pending
  published : p.published = (x.settled.filter Settlement.isPublished).map fun σ => σ.row.id
  failed : p.failed = (x.settled.filter fun σ => !σ.isPublished).map fun σ => σ.row.id
  nodup : (p.rows.map ClaimedRow.id).Nodup
  tokens : ∀ r ∈ p.rows, ∃ token ∈ x.mine, r.row.claimToken = some token
  claimed : ∀ r ∈ p.rows, ∃ row, x.db.rows r.id = some row ∧ row.tenantId = pass.tenantId
  committed : ∀ σ ∈ x.settled, σ.current = true → ∀ token, σ.row.row.claimToken = some token →
    (σ.mutation token, σ.row.id) ∈ x.db.committed
  publishedAt : ∀ σ ∈ x.settled, σ.isPublished = true →
    ∃ row, x.db.rows σ.row.id = some row ∧ row.publishedAt.isSome = true

/-- Where the pass stands. -/
def ControlInv (pass : Pass Tenant Worker) (x : System Id Tenant Token Worker) :
    Control Id Tenant Token → Prop
  | .claiming stage => x.settled = [] ∧ ClaimInv pass x stage
  -- no transaction is open while a row is offered
  | .offering p => x.db.txs pass.worker = none ∧ Progressing pass x p p.rest
  | .acknowledging row delivery stage p =>
      (∃ token ∈ x.mine, row.row.claimToken = some token ∧
        AcknowledgeInv pass x row delivery token stage) ∧
      Progressing pass x p (row :: p.rest)
  | .returned p => Progressing pass x p []
  | .raised => True

section Control

variable {pass : Pass Tenant Worker} {x y : System Id Tenant Token Worker}
  {p : Progress Id Tenant Token} {pending : List (ClaimedRow Id Tenant Token)}
  {tx : Tx Id Tenant Token} {row : ClaimedRow Id Tenant Token} {delivery : Delivery} {token : Token}

/-- Rows stay, and what is published does. -/
theorem Progressing.mono (h : Progressing pass x p pending)
    (hrows : ∀ id row, x.db.rows id = some row →
      ∃ row', y.db.rows id = some row' ∧ Evolves row row')
    (hcommitted : ∀ entry ∈ x.db.committed, entry ∈ y.db.committed) (hmine : y.mine = x.mine)
    (hsettled : y.settled = x.settled) : Progressing pass y p pending := by
  refine ⟨hsettled ▸ h.rows, hsettled ▸ h.published, hsettled ▸ h.failed, h.nodup,
    hmine ▸ h.tokens, fun r hr => ?_, fun σ hσ hcurrent token htoken => ?_, fun σ hσ hσp => ?_⟩
  · obtain ⟨row, hrow, htenant⟩ := h.claimed r hr
    obtain ⟨row', hrow', hevolves⟩ := hrows _ row hrow
    exact ⟨row', hrow', hevolves.tenantId.trans htenant⟩
  · exact hcommitted _ (h.committed σ (hsettled ▸ hσ) hcurrent token htoken)
  · obtain ⟨row, hrow, hpublished⟩ := h.publishedAt σ (hsettled ▸ hσ) hσp
    obtain ⟨row', hrow', hevolves⟩ := hrows _ row hrow
    obtain ⟨time, htime⟩ := Option.isSome_iff_exists.mp hpublished
    exact ⟨row', hrow', Option.isSome_iff_exists.mpr ⟨time, hevolves.publishedAt time htime⟩⟩

/-- What leaves the pass and its transaction as they are. -/
theorem ControlInv.mono {control : Control Id Tenant Token} (h : ControlInv pass x control)
    (htxs : y.db.txs pass.worker = x.db.txs pass.worker)
    (hrows : ∀ id row, x.db.rows id = some row →
      ∃ row', y.db.rows id = some row' ∧ Evolves row row')
    (hcommitted : ∀ entry ∈ x.db.committed, entry ∈ y.db.committed) (hmine : y.mine = x.mine)
    (hsettled : y.settled = x.settled) : ControlInv pass y control := by
  -- each stage speaks of the pass's own transaction, which has not changed,
  -- and of rows that may evolve
  cases control with
  | claiming stage =>
    refine ⟨hsettled.trans h.1, ?_⟩
    have hstage := h.2
    cases stage <;> simp only [ClaimInv, htxs, hmine] at hstage ⊢ <;> exact hstage
  | offering p => exact ⟨htxs.trans h.1, h.2.mono hrows hcommitted hmine hsettled⟩
  | acknowledging row delivery stage p =>
    obtain ⟨⟨token, htoken, hclaimed, hstage⟩, hprogress⟩ := h
    refine ⟨⟨token, hmine ▸ htoken, hclaimed, ?_⟩, hprogress.mono hrows hcommitted hmine hsettled⟩
    cases stage with
    | reached current =>
      cases current <;> simp only [AcknowledgeInv, htxs] at hstage ⊢ <;> exact hstage
    | commit current ids =>
      cases current <;> simp only [AcknowledgeInv, htxs] at hstage ⊢ <;> exact hstage
    | _ => simp only [AcknowledgeInv, htxs] at hstage ⊢; exact hstage
  | returned p => exact Progressing.mono h hrows hcommitted hmine hsettled
  | raised => trivial

/-- The claimed rows are those reported, as the transaction sees them. -/
theorem mem_claimedRows {reported : List Id} {r : ClaimedRow Id Tenant Token} :
    r ∈ claimedRows tx reported ↔ r.id ∈ reported ∧ tx.versions r.id = some r.row := by
  rw [claimedRows, List.mem_filterMap]
  constructor
  · rintro ⟨id, hid, hr⟩
    obtain ⟨own, hown, rfl⟩ := Option.map_eq_some_iff.mp hr
    exact ⟨hid, hown⟩
  · rintro ⟨hid, hown⟩
    exact ⟨r.id, hid, by rw [hown]; rfl⟩

/-- They have the ids that were reported. -/
theorem map_id_claimedRows {reported : List Id} (h : ∀ id ∈ reported, tx.versions id ≠ none) :
    (claimedRows tx reported).map ClaimedRow.id = reported := by
  induction reported with
  | nil => rfl
  | cons id reported ih =>
    obtain ⟨own, hown⟩ := Option.ne_none_iff_exists'.mp (h id List.mem_cons_self)
    have hrest := ih fun id' hid' => h id' (List.mem_cons_of_mem id hid')
    rw [claimedRows, List.filterMap_cons, hown]
    exact congrArg (List.cons id) hrest

/-- The one row that is published or released is the row itself. -/
theorem Acknowledged.id_eq {id : Id} {own : Row Tenant Token}
    (h : Acknowledged row delivery token tx) (hown : tx.versions id = some own) : row.id = id := by
  by_contra hid
  cases (h.others id (Ne.symm hid)).symm.trans hown

/-- The token of an acknowledgement is that of the claim. -/
theorem Acknowledged.token_eq {id : Id} {own : Row Tenant Token} {t : Token}
    (h : Acknowledged row delivery token tx) (hown : tx.versions id = some own)
    (ht : own.claimToken = some t) : token = t := by
  obtain ⟨new, hnew, -, htoken⟩ := h.version
  rw [h.id_eq hown] at hnew
  obtain rfl := Option.some.inj (hnew.symm.trans hown)
  exact (htoken t ht).symm

/-- An acknowledgement logs one entry, for its row and its token. -/
theorem Acknowledged.entry_eq {m : Mutation Id Token} {id : Id} {t : Token}
    (h : Acknowledged row delivery token tx) (hm : (m, id) ∈ tx.log) (ht : m.token? = some t) :
    acknowledgement row delivery token = m ∧ row.id = id ∧ token = t := by
  rw [h.log] at hm
  obtain ⟨rfl, rfl⟩ := Prod.mk.inj (List.mem_singleton.mp hm)
  rw [token?_acknowledgement] at ht
  exact ⟨rfl, rfl, Option.some.inj ht⟩

variable [DecidableEq Id] [DecidableEq Token]

/-- A row that is claimed carries the new token. -/
theorem claimToken_of_claim {m : Mutation Id Token} {id : Id} {now : Time} {fresh : Token}
    {row row' : Row Tenant Token} (hclaim : m.isClaim = true)
    (h : m.apply id now fresh row = some row') : row'.claimToken = some fresh := by
  cases m with
  | claim limit lease =>
    rw [Mutation.apply, Row.claim, Option.dite_none_right_eq_some] at h
    obtain ⟨_, heq⟩ := h
    rw [← Option.some.inj heq]
  | release => cases hclaim
  | publish => cases hclaim

omit [DecidableEq Id] [DecidableEq Token] in
/-- A claim does not publish. -/
theorem isPublish_of_isClaim {m : Mutation Id Token} (hclaim : m.isClaim = true) :
    m.isPublish = false := by
  cases m with
  | claim => rfl
  | release => cases hclaim
  | publish => cases hclaim

/-- The transaction of the claim after its statement has come to one more row. -/
theorem Claims.touch {mine : List Token} {reported : List Id} {m : Mutation Id Token} {id : Id}
    {fresh : Token} {old new : Row Tenant Token} (h : Claims pass mine reported tx)
    (hclaim : m.isClaim = true) (hnew : id ∉ reported) (htenant : old.tenantId = pass.tenantId)
    (happly : m.apply id tx.now fresh old = some new) :
    Claims pass (fresh :: mine) (reported ++ [id]) (tx.touch ⟨m, reported⟩ id new) := by
  have htouched := Mutation.touched_of_apply happly
  -- the ids are distinct, the versions are theirs, the rows are claimed,
  -- and the log has claims only
  refine ⟨h.tenant, ?_, fun id' => ?_, fun id' row hrow => ?_, fun m' id' hm => ?_⟩
  · rw [List.nodup_append]
    refine ⟨h.nodup, List.nodup_singleton id, fun id' hid' id'' hid'' heq => ?_⟩
    rw [List.mem_singleton.mp hid''] at heq
    exact hnew (heq ▸ hid')
  · rw [List.mem_append, List.mem_singleton]
    by_cases hid : id' = id
    · subst hid
      rw [Tx.touch_versions_self]
      exact iff_of_true (Option.some_ne_none _) (.inr rfl)
    · rw [Tx.touch_versions_of_ne _ _ _ hid, h.reported, or_iff_left hid]
  · by_cases hid : id' = id
    · -- the row that is new carries the new token and, like any claimed row, is not published
      subst hid
      rw [Tx.touch_versions_self] at hrow
      obtain rfl := Option.some.inj hrow
      have hunpublished : new.publishedAt.isSome = false :=
        htouched.publishedAt.trans (isPublish_of_isClaim hclaim)
      exact ⟨htouched.tenantId.trans htenant,
        Option.isNone_iff_eq_none.mp (Option.isSome_eq_false_iff.mp hunpublished), fresh,
        List.mem_cons_self, claimToken_of_claim hclaim happly⟩
    · rw [Tx.touch_versions_of_ne _ _ _ hid] at hrow
      obtain ⟨htenant', hunpublished, t, ht, htoken⟩ := h.rows id' row hrow
      exact ⟨htenant', hunpublished, t, List.mem_cons_of_mem _ ht, htoken⟩
  · rcases List.mem_append.mp hm with hm | hm
    · exact h.log m' id' hm
    · obtain ⟨rfl, rfl⟩ := Prod.mk.inj (List.mem_singleton.mp hm)
      cases m' with
      | claim => rfl
      | release => cases hclaim
      | publish => cases hclaim

/-- What publishes or releases a row is applied to no other. -/
theorem eq_of_acknowledgement {id : Id} {now : Time} {fresh : Token} {r r' : Row Tenant Token}
    (h : (acknowledgement row delivery token).apply id now fresh r = some r') : id = row.id := by
  rw [acknowledgement] at h
  cases hdelivered : delivery.delivered <;> rw [hdelivered] at h <;>
    exact List.mem_singleton.mp (Option.ite_none_right_eq_some.mp h).1

/-- A row that carries the token and is not published is published or released. -/
theorem exists_acknowledgement {now : Time} {fresh : Token} {r : Row Tenant Token}
    (htoken : r.claimToken = some token) (hpublished : r.publishedAt = none) :
    ∃ r', (acknowledgement row delivery token).apply row.id now fresh r = some r' := by
  -- a row with a token is claimed: the two columns are set together
  have hclaimed : r.claimedAt.isSome = true := by
    rcases r.claimCoherent with ⟨-, hnone, -⟩ | ⟨hsome, -⟩
    · rw [htoken] at hnone
      cases hnone
    · exact hsome
  have hunpublished : r.publishedAt.isNone = true := by rw [hpublished]; rfl
  rw [acknowledgement]
  cases delivery.delivered with
  | true =>
    change ∃ r', (if row.id ∈ [row.id] then r.publish now token else none) = some r'
    rw [if_pos (List.mem_singleton.mpr rfl), Row.publish,
      dif_pos ⟨htoken, hclaimed, hunpublished⟩]
    exact ⟨_, rfl⟩
  | false =>
    change ∃ r', (if row.id ∈ [row.id] then r.release token else none) = some r'
    rw [if_pos (List.mem_singleton.mpr rfl), Row.release, dif_pos ⟨htoken, hunpublished⟩]
    exact ⟨_, rfl⟩

end Control

/-! ## What every step preserves -/

/-- What holds between the steps. -/
structure Inv [DecidableEq Id] (pass : Pass Tenant Worker) (x : System Id Tenant Token Worker) :
    Prop where
  outbox : Outbox.Inv x.db
  tokens : Tokens pass x
  control : ControlInv pass x x.control

section Preservation

variable [DecidableEq Id] [DecidableEq Token] [DecidableEq Worker] {pass : Pass Tenant Worker}
  {x y : System Id Tenant Token Worker} {p : Progress Id Tenant Token}
  {row : ClaimedRow Id Tenant Token} {delivery : Delivery} {token : Token}
  {db : State Id Tenant Token Worker}

omit [DecidableEq Token] [DecidableEq Worker] in
/-- The invariant holds before the pass. -/
theorem inv_start (clock : Time) : Inv pass (.start clock : System Id Tenant Token Worker) where
  outbox := inv_empty clock
  tokens := by
    refine ⟨?_, ?_, ?_, ?_⟩
    · exact fun _ h => absurd h List.not_mem_nil
    · rintro _ _ _ ⟨⟩
    · rintro _ _ _ ⟨⟩
    · exact fun _ _ _ h => absurd h List.not_mem_nil
  control := ⟨rfl, rfl⟩

/-- The steps of the others. -/
theorem Inv.other (h : Inv pass x) (hstep : Other pass x y) : Inv pass y := by
  obtain ⟨hdb, hworker, hcall⟩ := hstep
  refine ⟨h.outbox.step hdb, h.tokens.other hdb hworker ?_, h.control.mono ?_ ?_ ?_ rfl rfl⟩
  · exact fun w c token hev htoken => ⟨(hcall w c token hev htoken).1,
      (hcall w c token hev htoken).2⟩
  · exact txs_eq_of_step hdb hworker
  · exact fun id row hrow => h.outbox.evolves hdb hrow
  · exact fun entry hentry => committed_of_step hdb hentry

omit [DecidableEq Id] [DecidableEq Token] in
/-- A step that changes the transaction of the pass only. -/
theorem Tokens.withTx (h : Tokens pass x) (t : Option (Tx Id Tenant Token))
    (control : Control Id Tenant Token) :
    Tokens pass { x with db := x.db.withTx pass.worker t, control } :=
  h.keep (fun _ ht => ht) (fun _ ht => .inl ht) h.mine
    (fun _ hne => x.db.withTx_txs_of_ne t hne) rfl rfl rfl

/-- The claim: its transaction begins. -/
theorem Inv.claimBegin (h : Inv pass x) (hcontrol : x.control = .claiming .begin)
    (hstep : Step x.db (.begin pass.worker pass.tenantId) db) :
    Inv pass { x with db, control := .claiming .call } := by
  have hinv := h.control
  rw [hcontrol] at hinv
  have houtbox := h.outbox.step hstep
  cases hstep with
  | begin _ hnone =>
    exact ⟨houtbox, h.tokens.withTx _ _, hinv.1, _, x.db.withTx_txs_self .., rfl, rfl,
      fun _ => rfl, rfl⟩

/-- The claim keeps the invariant. -/
theorem Inv.claimCall (h : Inv pass x) (hcontrol : x.control = .claiming .call)
    (hstep : Step x.db (.call pass.worker (.claimBatch pass.limit pass.leaseSeconds)) db) :
    Inv pass { x with db, control := .claiming .running } := by
  have hinv := h.control
  rw [hcontrol] at hinv
  obtain ⟨hsettled, tx, hw, htx⟩ := hinv
  have houtbox := h.outbox.step hstep
  cases hstep with
  | @call _ tx' _ m hw' _ hstatement =>
    obtain rfl := Option.some.inj (hw.symm.trans hw')
    -- the statement that the call runs is the claim
    have hclaim : m.isClaim = true := by
      rw [Call.statement] at hstatement
      split_ifs at hstatement
      obtain rfl := Option.some.inj (Except.ok.inj hstatement)
      rfl
    refine ⟨houtbox, h.tokens.withTx _ _, hsettled, _, m, [], x.db.withTx_txs_self .., rfl, hclaim,
      htx.tenant, List.nodup_nil, fun id => ?_, fun id row hrow => ?_, fun m id hm => ?_⟩
    · exact iff_of_false (fun hne => hne (htx.versions id)) List.not_mem_nil
    · cases (htx.versions id).symm.trans hrow
    · rw [show _ = _ from htx.log] at hm
      exact absurd hm List.not_mem_nil

/-- The claim: its statement comes to one more row. -/
theorem Inv.claimTouch {id : Id} {fresh : Token} (h : Inv pass x)
    (hcontrol : x.control = .claiming .running)
    (hstep : Step x.db (.touch pass.worker id fresh) db) :
    Inv pass { x with db, mine := fresh :: x.mine } := by
  have hinv := h.control
  rw [hcontrol] at hinv
  obtain ⟨hsettled, tx, m, reported, hw, hrunning, hclaim, htx⟩ := hinv
  have houtbox := h.outbox.step hstep
  cases hstep with
  | @touch _ tx' running _ _ old new hw' hrunning' hnew _ _ hversion htenant hfresh happly =>
    obtain rfl := Option.some.inj (hw.symm.trans hw')
    obtain rfl := Option.some.inj (hrunning.symm.trans hrunning')
    -- the token of the new row is the worker's, and was nobody's before
    have hissued : fresh ∉ x.db.issued := hfresh hclaim
    have htokens : Tokens pass { x with
        db := { x.db.withTx pass.worker (some (tx.touch ⟨m, reported⟩ id new)) with
          issued := fresh :: x.db.issued }
        mine := fresh :: x.mine } := by
      refine h.tokens.keep (fun _ ht => List.mem_cons_of_mem _ ht) (fun t ht => ?_) (fun t ht => ?_)
        (fun _ hne => x.db.withTx_txs_of_ne _ hne) rfl rfl rfl
      · rcases List.mem_cons.mp ht with rfl | ht
        · exact .inr hissued
        · exact .inl ht
      · rcases List.mem_cons.mp ht with rfl | ht
        · exact List.mem_cons_self
        · exact List.mem_cons_of_mem _ (h.tokens.mine t ht)
    rw [if_pos hclaim] at houtbox ⊢
    refine ⟨houtbox, htokens, ?_⟩
    dsimp only
    rw [hcontrol]
    exact ⟨hsettled, _, m, reported ++ [id], x.db.withTx_txs_self .., rfl, hclaim,
      htx.touch hclaim hnew (htenant.trans htx.tenant) happly⟩

/-- The claim: its statement is through. -/
theorem Inv.claimFinish {tx : Tx Id Tenant Token} {running : Running Id Token} (h : Inv pass x)
    (hcontrol : x.control = .claiming .running) (hcaller : x.db.txs pass.worker = some tx)
    (hrunning : tx.running = some running) (hstep : Step x.db (.finish pass.worker) db) :
    Inv pass { x with db, control := .claiming (.commit (claimedRows tx running.reported)) } := by
  have hinv := h.control
  rw [hcontrol] at hinv
  obtain ⟨hsettled, tx', m, reported, hw, hrunning', -, htx⟩ := hinv
  obtain rfl := Option.some.inj (hw.symm.trans hcaller)
  obtain rfl := Option.some.inj (hrunning'.symm.trans hrunning)
  have houtbox := h.outbox.step hstep
  cases hstep with
  | finish hw' =>
    obtain rfl := Option.some.inj (hw.symm.trans hw')
    exact ⟨houtbox, h.tokens.withTx _ _, hsettled, _, reported, x.db.withTx_txs_self ..,
      ⟨htx.tenant, htx.nodup, htx.reported, htx.rows, htx.log⟩, rfl⟩

/-- The claim is committed. -/
theorem Inv.claimCommit {rows : List (ClaimedRow Id Tenant Token)} (h : Inv pass x)
    (hcontrol : x.control = .claiming (.commit rows))
    (hstep : Step x.db (.commit pass.worker) db) :
    Inv pass { x with db, control := .offering ⟨rows, rows, [], []⟩ } := by
  have hinv := h.control
  rw [hcontrol] at hinv
  obtain ⟨hsettled, tx, reported, hw, htx, rfl⟩ := hinv
  have houtbox := h.outbox.step hstep
  cases hstep with
  | commit hw' _ =>
    obtain rfl := Option.some.inj (hw.symm.trans hw')
    have htokens : Tokens pass ⟨x.db.commit tx pass.worker,
        .offering ⟨claimedRows tx reported, claimedRows tx reported, [], []⟩, x.mine,
          x.settled⟩ := by
      refine h.tokens.commit _ (fun _ hσ => hσ) (fun id row token hrow htoken => ?_)
        fun m id token hm htoken => ?_
      · obtain ⟨-, hunpublished, t, ht, hclaimed⟩ := htx.rows id row hrow
        obtain rfl := Option.some.inj (hclaimed.symm.trans htoken)
        exact ⟨ht, fun hne => absurd hunpublished hne⟩
      · rw [htx.log m id hm] at htoken
        cases htoken
    -- the pass starts from the rows the statement reported, with nothing settled yet
    have hids : (claimedRows tx reported).map ClaimedRow.id = reported :=
      map_id_claimedRows fun id hid => (htx.reported id).mpr hid
    -- the last two are about settled rows, of which there are none
    refine ⟨houtbox, htokens, State.commit_txs_self .., ?_, ?_, ?_, ?_, fun r hr => ?_,
      fun r hr => ?_, ?_, ?_⟩
    · rw [hsettled]
      rfl
    · rw [hsettled]
      rfl
    · rw [hsettled]
      rfl
    · dsimp only
      rw [hids]
      exact htx.nodup
    · obtain ⟨-, -, hclaimed⟩ := htx.rows r.id r.row (mem_claimedRows.mp hr).2
      exact hclaimed
    · have hversion := (mem_claimedRows.mp hr).2
      refine ⟨r.row, ?_, (htx.rows r.id r.row hversion).1⟩
      dsimp only
      rw [State.commit_rows, State.version, hversion, Option.some_or]
    · rw [hsettled]
      exact fun _ hσ => absurd hσ List.not_mem_nil
    · rw [hsettled]
      exact fun _ hσ => absurd hσ List.not_mem_nil

omit [DecidableEq Token] [DecidableEq Worker] in
/-- A row is delivered. -/
theorem Inv.deliver {rest : List (ClaimedRow Id Tenant Token)} (h : Inv pass x)
    (hcontrol : x.control = .offering p) (hrest : p.rest = row :: rest) (delivery : Delivery) :
    Inv pass { x with control := .acknowledging row delivery .begin { p with rest } } := by
  have hinv := h.control
  rw [hcontrol] at hinv
  obtain ⟨hidle, hprogress⟩ := hinv
  have hrow : row ∈ p.rows := by
    rw [hprogress.rows, hrest]
    exact List.mem_append_right _ List.mem_cons_self
  obtain ⟨token, htoken, hclaimed⟩ := hprogress.tokens row hrow
  rw [hrest] at hprogress
  refine ⟨h.outbox, h.tokens.keep (fun _ ht => ht) (fun _ ht => .inl ht) h.tokens.mine
    (fun _ _ => rfl) rfl rfl rfl, ⟨token, htoken, hclaimed, hidle⟩, ?_⟩
  exact ⟨hprogress.rows, hprogress.published, hprogress.failed, hprogress.nodup, hprogress.tokens,
    hprogress.claimed, hprogress.committed, hprogress.publishedAt⟩

omit [DecidableEq Token] in
/-- A step of the transaction that publishes or releases, up to its commit. -/
theorem Inv.acknowledging {t : Option (Tx Id Tenant Token)} {issued : List Token}
    {stage stage' : AcknowledgeStage Id} (h : Inv pass x)
    (hcontrol : x.control = .acknowledging row delivery stage p)
    (houtbox : Outbox.Inv { x.db.withTx pass.worker t with issued })
    (hissued : ∀ token ∈ x.db.issued, token ∈ issued)
    (hstage : ∀ token, row.row.claimToken = some token →
      AcknowledgeInv pass x row delivery token stage →
      AcknowledgeInv pass { x with db := { x.db.withTx pass.worker t with issued } } row delivery
        token stage') :
    Inv pass { x with
      db := { x.db.withTx pass.worker t with issued }
      control := .acknowledging row delivery stage' p } := by
  -- only the transaction and the stage change; the progress speaks of neither
  have hinv := h.control
  rw [hcontrol] at hinv
  obtain ⟨⟨token, htoken, hclaimed, hold⟩, hprogress⟩ := hinv
  refine ⟨houtbox, h.tokens.keep hissued (fun _ ht => .inl ht)
    (fun token ht => hissued token (h.tokens.mine token ht))
    (fun _ hne => x.db.withTx_txs_of_ne t hne) rfl rfl rfl, ⟨token, htoken, hclaimed, ?_⟩, ?_⟩
  · have hnew := hstage token hclaimed hold
    cases stage' with
    | reached current => cases current <;> exact hnew
    | commit current ids => cases current <;> exact hnew
    | _ => exact hnew
  · exact hprogress.mono (fun _ row hrow => ⟨row, hrow, .refl row⟩) (fun _ hentry => hentry) rfl rfl

/-- Opening the transaction of an acknowledgement keeps the invariant. -/
theorem Inv.acknowledgeBegin (h : Inv pass x)
    (hcontrol : x.control = .acknowledging row delivery .begin p)
    (hstep : Step x.db (.begin pass.worker pass.tenantId) db) :
    Inv pass { x with db, control := .acknowledging row delivery .call p } := by
  have houtbox := h.outbox.step hstep
  cases hstep with
  | begin _ hnone =>
    refine h.acknowledging hcontrol houtbox (fun _ ht => ht) fun token hclaimed _ => ?_
    exact ⟨_, x.db.withTx_txs_self .., rfl, rfl, fun _ => rfl, rfl⟩

/-- An acknowledgement keeps the invariant. -/
theorem Inv.acknowledgeCall (h : Inv pass x)
    (hcontrol : x.control = .acknowledging row delivery .call p)
    (hstep : Step x.db (.call pass.worker (acknowledge row delivery)) db) :
    Inv pass { x with db, control := .acknowledging row delivery .running p } := by
  have houtbox := h.outbox.step hstep
  cases hstep with
  | @call _ tx' _ m hw' _ hstatement =>
    refine h.acknowledging hcontrol houtbox (fun _ ht => ht) ?_
    rintro token hclaimed ⟨tx, hw, htx⟩
    obtain rfl := Option.some.inj (hw.symm.trans hw')
    rw [statement_acknowledge delivery hclaimed] at hstatement
    obtain rfl := Option.some.inj (Except.ok.inj hstatement)
    exact ⟨_, x.db.withTx_txs_self .., htx.tenant, rfl, htx.versions, htx.log⟩

/-- The statement comes to the row and changes it. -/
theorem Inv.acknowledgeTouch {tx : Tx Id Tenant Token} {id : Id} {fresh : Token} (h : Inv pass x)
    (hcontrol : x.control = .acknowledging row delivery .running p)
    (hcaller : x.db.txs pass.worker = some tx)
    (hstep : Step x.db (.touch pass.worker id fresh) db) :
    Inv pass { x with
      db, control := .acknowledging row delivery (.reached (isCurrent x.db tx row)) p } := by
  have houtbox := h.outbox.step hstep
  cases hstep with
  | @touch _ tx' running _ _ old new hw' hrunning' hnew _ _ hversion htenant hfresh happly =>
    obtain rfl := Option.some.inj (hcaller.symm.trans hw')
    refine h.acknowledging hcontrol houtbox (fun token ht => ?_) ?_
    · split_ifs
      · exact List.mem_cons_of_mem _ ht
      · exact ht
    · rintro token hclaimed ⟨tx', hw, htx⟩
      obtain rfl := Option.some.inj (hcaller.symm.trans hw)
      obtain rfl := Option.some.inj (htx.running.symm.trans hrunning')
      obtain rfl := eq_of_acknowledgement happly
      have htouched := Mutation.touched_of_apply happly
      -- a fenced statement changes a row only where its token is current
      have hcurrent : isCurrent x.db tx row = true := by
        rw [isCurrent, hversion, hclaimed]
        exact decide_eq_true (htouched.fenced token (token?_acknowledgement ..))
      rw [hcurrent]
      refine ⟨_, x.db.withTx_txs_self .., rfl, ⟨new, Tx.touch_versions_self .., ?_, ?_⟩,
        fun id hid => ?_, ?_⟩
      · rw [htouched.publishedAt, isPublish_acknowledgement]
      · -- neither a publication nor a release issues a token
        intro t ht
        rcases htouched.claimToken t ht with ⟨hclaim, -⟩ | ⟨-, hkept⟩
        · rw [isClaim_acknowledgement] at hclaim
          cases hclaim
        · rw [htouched.fenced token (token?_acknowledgement ..)] at hkept
          exact (Option.some.inj hkept).symm
      · rw [Tx.touch_versions_of_ne _ _ _ hid]
        exact htx.versions id
      · rw [Tx.touch, htx.log]
        rfl

omit [DecidableEq Token] [DecidableEq Worker] in
/-- A row that the pass has yet to settle is not published under the token of the pass. -/
theorem Inv.unpublished (h : Inv pass x) {pending : List (ClaimedRow Id Tenant Token)}
    (hprogress : Progressing pass x p (row :: pending)) {token : Token} (htoken : token ∈ x.mine)
    {r : Row Tenant Token} (hrow : x.db.rows row.id = some r)
    (hcurrent : r.claimToken = some token) : r.publishedAt = none := by
  by_contra hpublished
  obtain ⟨σ, hσ, hid⟩ := (h.tokens.rows row.id r token hrow hcurrent).2 htoken hpublished
  have hnodup := hprogress.nodup
  rw [hprogress.rows, List.map_append, List.nodup_append] at hnodup
  refine hnodup.2.2 σ.row.id ?_ row.id List.mem_cons_self hid
  exact List.mem_map_of_mem (List.mem_map_of_mem hσ)

omit [DecidableEq Worker] in
/-- The statement comes to the row and leaves it. -/
theorem Inv.acknowledgePass {tx : Tx Id Tenant Token} {running : Running Id Token}
    (h : Inv pass x) (hcontrol : x.control = .acknowledging row delivery .running p)
    (hcaller : x.db.txs pass.worker = some tx) (hrunning : tx.running = some running)
    (hpass : ∀ fresh r, x.db.version tx row.id = some r → r.tenantId = tx.tenant →
      running.mutation.apply row.id tx.now fresh r = none) :
    Inv pass { x with
      control := .acknowledging row delivery (.reached (isCurrent x.db tx row)) p } := by
  have hinv := h.control
  rw [hcontrol] at hinv
  obtain ⟨⟨token, htoken, hclaimed, tx', hw, htx⟩, hprogress⟩ := hinv
  obtain rfl := Option.some.inj (hw.symm.trans hcaller)
  obtain rfl := Option.some.inj (htx.running.symm.trans hrunning)
  -- were the token current, the statement would apply to the row
  have hstale : isCurrent x.db tx' row = false := by
    by_contra hcurrent
    rw [Bool.not_eq_false, isCurrent, Option.any_eq_true] at hcurrent
    obtain ⟨r, hversion, hr⟩ := hcurrent
    rw [decide_eq_true_eq, hclaimed] at hr
    have hrow : x.db.rows row.id = some r := by
      rwa [State.version, htx.versions, Option.none_or] at hversion
    have hmem : row ∈ p.rows := by
      rw [hprogress.rows]
      exact List.mem_append_right _ List.mem_cons_self
    obtain ⟨r', hrow', htenant⟩ := hprogress.claimed row hmem
    obtain rfl := Option.some.inj (hrow.symm.trans hrow')
    obtain ⟨r', happly⟩ := @exists_acknowledgement _ _ _ row delivery token _ _ tx'.now token r hr
      (h.unpublished hprogress htoken hrow hr)
    have hnone := hpass token r hversion (htenant.trans htx.tenant.symm)
    dsimp only at hnone
    rw [happly] at hnone
    cases hnone
  rw [hstale]
  refine ⟨h.outbox, h.tokens.keep (fun _ ht => ht) (fun _ ht => .inl ht) h.tokens.mine
    (fun _ _ => rfl) rfl rfl rfl, ⟨token, htoken, hclaimed, tx', hw, htx⟩, ?_⟩
  exact hprogress.mono (fun _ row hrow => ⟨row, hrow, .refl row⟩) (fun _ hentry => hentry) rfl rfl

/-- The statement is through. -/
theorem Inv.acknowledgeFinish {tx : Tx Id Tenant Token} {running : Running Id Token}
    {current : Bool} (h : Inv pass x)
    (hcontrol : x.control = .acknowledging row delivery (.reached current) p)
    (hcaller : x.db.txs pass.worker = some tx) (hrunning : tx.running = some running)
    (hstep : Step x.db (.finish pass.worker) db) :
    Inv pass { x with
      db, control := .acknowledging row delivery (.commit current running.reported) p } := by
  have houtbox := h.outbox.step hstep
  cases hstep with
  | finish hw' =>
    obtain rfl := Option.some.inj (hcaller.symm.trans hw')
    refine h.acknowledging hcontrol houtbox (fun _ ht => ht) ?_
    intro token hclaimed hold
    -- the row was still to be touched when nothing was, and has been touched otherwise
    cases current with
    | false =>
      obtain ⟨tx', hw, htx⟩ := hold
      obtain rfl := Option.some.inj (hcaller.symm.trans hw)
      obtain rfl := Option.some.inj (htx.running.symm.trans hrunning)
      exact ⟨rfl, _, x.db.withTx_txs_self .., htx.tenant, rfl, htx.versions, htx.log⟩
    | true =>
      obtain ⟨tx', hw, hrunning', htx⟩ := hold
      obtain rfl := Option.some.inj (hcaller.symm.trans hw)
      obtain rfl := Option.some.inj (hrunning'.symm.trans hrunning)
      exact ⟨rfl, _, x.db.withTx_txs_self .., htx.version, htx.others, htx.log⟩

omit [DecidableEq Id] [DecidableEq Token] in
/-- The lists of the loop after one more row. -/
theorem settle_eq (p : Progress Id Tenant Token) (row : ClaimedRow Id Tenant Token)
    (delivery : Delivery) (current : Bool) {ids : List Id} (hids : ids.isEmpty = !current) :
    p.settle row delivery.delivered ids =
      { p with
        published := p.published ++
          ([(⟨row, delivery, current⟩ : Settlement Id Tenant Token)].filter
            Settlement.isPublished).map fun σ => σ.row.id
        failed := p.failed ++
          ([(⟨row, delivery, current⟩ : Settlement Id Tenant Token)].filter
            fun σ => !σ.isPublished).map fun σ => σ.row.id } := by
  rw [Progress.settle, hids, Bool.not_not]
  -- a row counts as published when it was delivered and the fence let it through
  cases hpublished : delivery.delivered && current with
  | true =>
    have hσ : (⟨row, delivery, current⟩ : Settlement Id Tenant Token).isPublished = true :=
      hpublished
    simp [hσ]
  | false =>
    have hσ : (⟨row, delivery, current⟩ : Settlement Id Tenant Token).isPublished = false :=
      hpublished
    simp [hσ]

omit [DecidableEq Id] [DecidableEq Token] [DecidableEq Worker] in
/-- The loop goes on to the next row. -/
theorem Progressing.settle {ids : List Id} {current : Bool} {db' : State Id Tenant Token Worker}
    {control : Control Id Tenant Token} (h : Progressing pass x p (row :: p.rest))
    (hids : ids.isEmpty = !current)
    (hrows : ∀ id row, x.db.rows id = some row → ∃ row', db'.rows id = some row' ∧ Evolves row row')
    (hcommitted : ∀ entry ∈ x.db.committed, entry ∈ db'.committed)
    (hlog : current = true → ∀ token, row.row.claimToken = some token →
      (acknowledgement row delivery token, row.id) ∈ db'.committed)
    (hpublished : delivery.delivered = true → current = true →
      ∃ row', db'.rows row.id = some row' ∧ row'.publishedAt.isSome = true) :
    Progressing pass ⟨db', control, x.mine, x.settled ++ [⟨row, delivery, current⟩]⟩
      (p.settle row delivery.delivered ids) (p.settle row delivery.delivered ids).rest := by
  -- what was settled before stays so in the new database; the new settlement comes last
  have hmono : Progressing pass ⟨db', control, x.mine, x.settled⟩ p (row :: p.rest) :=
    h.mono hrows hcommitted rfl rfl
  rw [settle_eq p row delivery current hids]
  refine ⟨?_, ?_, ?_, h.nodup, h.tokens, hmono.claimed, fun σ hσ hcurrent token htoken => ?_,
    fun σ hσ hσp => ?_⟩
  · rw [List.map_append, List.append_assoc]
    exact h.rows
  · rw [List.filter_append, List.map_append, ← h.published]
  · rw [List.filter_append, List.map_append, ← h.failed]
  · rcases List.mem_append.mp hσ with hσ | hσ
    · exact hmono.committed σ hσ hcurrent token htoken
    · obtain rfl := List.mem_singleton.mp hσ
      exact hlog hcurrent token htoken
  · rcases List.mem_append.mp hσ with hσ | hσ
    · exact hmono.publishedAt σ hσ hσp
    · obtain rfl := List.mem_singleton.mp hσ
      rw [Settlement.isPublished, Bool.and_eq_true] at hσp
      exact hpublished hσp.1 hσp.2

/-- What was published or released is committed. -/
theorem Inv.acknowledgeCommit {current : Bool} {ids : List Id} (h : Inv pass x)
    (hcontrol : x.control = .acknowledging row delivery (.commit current ids) p)
    (hstep : Step x.db (.commit pass.worker) db) :
    Inv pass ⟨db, .offering (p.settle row delivery.delivered ids), x.mine,
      x.settled ++ [⟨row, delivery, current⟩]⟩ := by
  have hinv := h.control
  rw [hcontrol] at hinv
  obtain ⟨⟨token, htoken, hclaimed, hstage⟩, hprogress⟩ := hinv
  have houtbox := h.outbox.step hstep
  have hrows : ∀ id row, x.db.rows id = some row →
      ∃ row', db.rows id = some row' ∧ Evolves row row' :=
    fun _ _ hrow => h.outbox.evolves hstep hrow
  have hkept : ∀ entry ∈ x.db.committed, entry ∈ db.committed :=
    fun _ hentry => committed_of_step hstep hentry
  cases hstep with
  | @commit _ tx hw' _ =>
    cases current with
    -- the token was stale when the statement came to the row: the transaction has written nothing
    | false =>
      obtain ⟨rfl, tx', hw, htx⟩ := hstage
      obtain rfl := Option.some.inj (hw.symm.trans hw')
      refine ⟨houtbox, h.tokens.commit _ (fun σ hσ => List.mem_append_left _ hσ) ?_ ?_,
        State.commit_txs_self .., hprogress.settle rfl hrows hkept nofun fun _ => nofun⟩
      · intro id row token hrow
        cases (htx.versions id).symm.trans hrow
      · intro m id token hm
        rw [htx.log] at hm
        exact absurd hm List.not_mem_nil
    | true =>
      obtain ⟨rfl, tx', hw, htx⟩ := hstage
      obtain rfl := Option.some.inj (hw.symm.trans hw')
      -- the transaction has one version and one entry of the log, and both are of `row`
      obtain ⟨new, hnew, hpublished, -⟩ := htx.version
      have hσ : (⟨row, delivery, true⟩ : Settlement Id Tenant Token) ∈
          x.settled ++ [⟨row, delivery, true⟩] := List.mem_append_right _ List.mem_cons_self
      have htokens := h.tokens.commit
        (.offering (p.settle row delivery.delivered [row.id]))
        (fun σ hσ => List.mem_append_left [⟨row, delivery, true⟩] hσ)
        (fun id own t hown ht => htx.token_eq hown ht ▸ ⟨htoken, fun _ => ⟨_, hσ, htx.id_eq hown⟩⟩)
        (fun m id t hm ht => by
          obtain ⟨rfl, rfl, rfl⟩ := htx.entry_eq hm ht
          exact ⟨htoken, _, hσ, rfl, rfl, rfl⟩)
      refine ⟨houtbox, htokens, State.commit_txs_self ..,
        hprogress.settle rfl hrows hkept ?_ ?_⟩
      · -- what is released is in the log
        intro _ t ht
        obtain rfl := Option.some.inj (hclaimed.symm.trans ht)
        rw [State.commit_committed, htx.log]
        exact List.mem_append_right _ List.mem_cons_self
      · -- what is published is in its row
        intro hdelivered _
        refine ⟨new, ?_, hpublished.trans hdelivered⟩
        rw [State.commit_rows, State.version, hnew, Option.some_or]

/-- The steps of the pass. -/
theorem Inv.own (h : Inv pass x) (hstep : Own pass x y) : Inv pass y := by
  -- one lemma for each step of the pass
  cases hstep with
  | claimBegin hcontrol hdb => exact h.claimBegin hcontrol hdb
  | claimCall hcontrol hdb => exact h.claimCall hcontrol hdb
  | claimTouch hcontrol hdb => exact h.claimTouch hcontrol hdb
  | claimFinish hcontrol hcaller hrunning hdb => exact h.claimFinish hcontrol hcaller hrunning hdb
  | claimCommit hcontrol hdb => exact h.claimCommit hcontrol hdb
  | deliver delivery hcontrol hrest => exact h.deliver hcontrol hrest delivery
  | acknowledgeBegin hcontrol hdb => exact h.acknowledgeBegin hcontrol hdb
  | acknowledgeCall hcontrol hdb => exact h.acknowledgeCall hcontrol hdb
  | acknowledgeTouch hcontrol hcaller hdb => exact h.acknowledgeTouch hcontrol hcaller hdb
  | acknowledgePass hcontrol hcaller hrunning hpass =>
    exact h.acknowledgePass hcontrol hcaller hrunning hpass
  | acknowledgeFinish hcontrol hcaller hrunning hdb =>
    exact h.acknowledgeFinish hcontrol hcaller hrunning hdb
  | acknowledgeCommit hcontrol hdb => exact h.acknowledgeCommit hcontrol hdb
  | @finish p hcontrol hrest =>
    have hinv := h.control
    rw [hcontrol] at hinv
    obtain ⟨-, hprogress⟩ := hinv
    rw [hrest] at hprogress
    refine ⟨h.outbox, h.tokens.keep (fun _ ht => ht) (fun _ ht => .inl ht) h.tokens.mine
      (fun _ _ => rfl) rfl rfl rfl, ?_⟩
    exact Progressing.mono hprogress (fun _ row hrow => ⟨row, hrow, .refl row⟩)
      (fun _ hentry => hentry) rfl rfl
  | raise _ hdb =>
    have houtbox := h.outbox.step hdb
    cases hdb with
    | rollback => exact ⟨houtbox, h.tokens.withTx _ _, trivial⟩

/-- Any number of steps of the pass keep the invariant. -/
theorem Inv.runs (h : Inv pass x) (hruns : Runs pass x y) : Inv pass y := by
  induction hruns with
  | refl => exact h
  | tail _ hstep ih => exact hstep.elim ih.own ih.other

/-- The invariant holds whenever the pass can be there. -/
theorem Reachable.inv (h : Reachable pass x) : Inv pass x := by
  obtain ⟨clock, hruns⟩ := h
  exact (inv_start clock).runs hruns

end Preservation

end MetaframerKernel.OutboxRelay
