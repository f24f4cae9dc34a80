import MetaframerKernel.Db.RelayInvariant

/-!
# What a relay pass has done

When `run_outbox_relay_once` returns, its two lists are a partition of the rows it has claimed, and
they say what has been committed.

## Main results

* `Inv.mem_of_changed`: a pass changes no rows but those it claims;
* `relay_partitions`: the result of a pass.
-/

namespace MetaframerKernel.OutboxRelay

open Outbox

variable {Id Tenant Token Worker : Type}

/-! ## The lists -/

section Returned

variable {pass : Pass Tenant Worker} {z : System Id Tenant Token Worker}
  {p : Progress Id Tenant Token} (h : Progressing pass z p [])

include h

/-- The settled rows are those of the progress. -/
theorem Progressing.rows_eq : z.settled.map Settlement.row = p.rows := by
  rw [h.rows, List.append_nil]

/-- So are their ids. -/
theorem Progressing.ids_eq :
    (z.settled.map fun σ => σ.row.id) = p.rows.map ClaimedRow.id := by
  rw [← h.rows_eq, List.map_map]
  rfl

/-- No row is settled twice. -/
theorem Progressing.eq_of_id_eq {σ σ' : Settlement Id Tenant Token} (hσ : σ ∈ z.settled)
    (hσ' : σ' ∈ z.settled) (hid : σ'.row.id = σ.row.id) : σ' = σ :=
  List.inj_on_of_nodup_map (h.ids_eq ▸ h.nodup) hσ' hσ hid

/-- Every settled row is published or has failed. -/
theorem Progressing.perm :
    (p.published ++ p.failed).Perm (z.settled.map fun σ => σ.row.id) := by
  rw [h.published, h.failed, ← List.map_append]
  exact (List.filter_append_perm _ _).map _

/-- A row is counted as published when it was settled so. -/
theorem Progressing.mem_published_iff {σ : Settlement Id Tenant Token} (hσ : σ ∈ z.settled) :
    σ.row.id ∈ p.published ↔ σ.isPublished = true := by
  rw [h.published, List.mem_map]
  constructor
  · rintro ⟨σ', hσ', hid⟩
    obtain ⟨hmem, hisPublished⟩ := List.mem_filter.mp hσ'
    rwa [← h.eq_of_id_eq hσ hmem hid]
  · exact fun hisPublished => ⟨σ, List.mem_filter.mpr ⟨hσ, hisPublished⟩, rfl⟩

end Returned

/-! ## The rows of a pass -/

/-- The local variables, in the loop and after it. -/
def Control.progress? : Control Id Tenant Token → Option (Progress Id Tenant Token)
  | offering p => some p
  | acknowledging _ _ _ p => some p
  | returned p => some p
  | _ => none

/-- Settling a row leaves the rows of the pass. -/
theorem rows_settle (p : Progress Id Tenant Token) (row : ClaimedRow Id Tenant Token)
    (delivered : Bool) (ids : List Id) : (p.settle row delivered ids).rows = p.rows := by
  rw [Progress.settle]
  split_ifs <;> rfl

section Rows

variable [DecidableEq Id] [DecidableEq Token] [DecidableEq Worker] {pass : Pass Tenant Worker}
  {x y z : System Id Tenant Token Worker} {p : Progress Id Tenant Token}

/-- The rows of a pass are those it has claimed, as long as nothing is raised. -/
theorem Own.rows_eq (h : Own pass x y) (hp : x.control.progress? = some p) :
    y.control = .raised ∨ ∃ p', y.control.progress? = some p' ∧ p'.rows = p.rows := by
  have hcontrol {c : Control Id Tenant Token} (hc : x.control = c) : c.progress? = some p :=
    hc ▸ hp
  cases h with
  | claimBegin hc _ | claimCall hc _ | claimTouch hc _ | claimFinish hc _ _ _
  | claimCommit hc _ => cases hcontrol hc
  | deliver _ hc _ | acknowledgeBegin hc _ | acknowledgeCall hc _ | acknowledgeTouch hc _ _
  | acknowledgePass hc _ _ _ | acknowledgeFinish hc _ _ _ | finish hc _ =>
    obtain rfl := Option.some.inj (hcontrol hc)
    exact .inr ⟨_, rfl, rfl⟩
  | acknowledgeCommit hc _ =>
    obtain rfl := Option.some.inj (hcontrol hc)
    exact .inr ⟨_, rfl, rows_settle ..⟩
  | raise _ _ => exact .inl rfl

/-- A pass that has raised an error stays so. -/
theorem Own.raised (h : Own pass x y) (hraised : x.control = .raised) : y.control = .raised := by
  have hcontrol {c : Control Id Tenant Token} (hc : x.control = c) : c = .raised := hc ▸ hraised
  cases h with
  | raise _ _ => rfl
  | claimBegin hc _ | claimCall hc _ | claimTouch hc _ | claimFinish hc _ _ _
  | claimCommit hc _ | deliver _ hc _ | acknowledgeBegin hc _ | acknowledgeCall hc _
  | acknowledgeTouch hc _ _ | acknowledgePass hc _ _ _ | acknowledgeFinish hc _ _ _
  | acknowledgeCommit hc _ | finish hc _ => cases hcontrol hc

/-- A step of another worker leaves where the pass is. -/
theorem Other.control_eq (h : Other pass x y) : y.control = x.control := by
  cases h
  rfl

/-- A pass keeps its rows, or has raised an error. -/
theorem Runs.rows_eq (h : Runs pass x y) (hp : x.control.progress? = some p) :
    y.control = .raised ∨ ∃ p', y.control.progress? = some p' ∧ p'.rows = p.rows := by
  induction h with
  | refl => exact .inr ⟨p, hp, rfl⟩
  | tail _ hstep ih =>
    rcases ih with hraised | ⟨p', hp', hrows⟩
    · rcases hstep with hown | hother
      · exact .inl (hown.raised hraised)
      · exact .inl (hother.control_eq.trans hraised)
    · rcases hstep with hown | hother
      · rcases hown.rows_eq hp' with hraised | ⟨p'', hp'', hrows'⟩
        · exact .inl hraised
        · exact .inr ⟨p'', hp'', hrows'.trans hrows⟩
      · exact .inr ⟨p', hother.control_eq.symm ▸ hp', hrows⟩

/-- The pass changes rows of its own only. -/
theorem Inv.mem_of_changed (h : Inv pass x) (hstep : Own pass x y) {id : Id}
    (hchanged : y.db.rows id ≠ x.db.rows id) :
    ∃ p, y.control.progress? = some p ∧ id ∈ p.rows.map ClaimedRow.id := by
  have hinv := h.control
  cases hstep with
  -- rows are changed by a commit only
  | claimBegin _ hdb | claimCall _ hdb | claimTouch _ hdb | claimFinish _ _ _ hdb
  | acknowledgeBegin _ hdb | acknowledgeCall _ hdb | acknowledgeTouch _ _ hdb
  | acknowledgeFinish _ _ _ hdb | raise _ hdb =>
    cases hdb
    exact absurd rfl hchanged
  | deliver | acknowledgePass | finish => exact absurd rfl hchanged
  | claimCommit hcontrol hdb =>
    rw [hcontrol] at hinv
    obtain ⟨-, tx, reported, hw, htx, rfl⟩ := hinv
    cases hdb with
    | commit hw' _ =>
      obtain rfl := Option.some.inj (hw.symm.trans hw')
      refine ⟨_, rfl, ?_⟩
      dsimp only
      rw [map_id_claimedRows fun id hid => (htx.reported id).mpr hid, ← htx.reported]
      -- a row with no version in the transaction would be as it was
      intro hnone
      dsimp only at hchanged
      rw [State.commit_rows, State.version, hnone, Option.none_or] at hchanged
      exact hchanged rfl
  | @acknowledgeCommit db row delivery current ids p hcontrol hdb =>
    rw [hcontrol] at hinv
    obtain ⟨⟨token, -, -, hstage⟩, hprogress⟩ := hinv
    refine ⟨_, rfl, ?_⟩
    rw [rows_settle]
    cases hdb with
    | @commit _ tx hw' _ =>
      dsimp only at hchanged
      rw [State.commit_rows, State.version] at hchanged
      -- a publication or a release has a version of the row it is for, and of no other
      by_cases hid : id = row.id
      · rw [hid, hprogress.rows, List.map_append]
        exact List.mem_append_right _ List.mem_cons_self
      · have hnone : tx.versions id = none := by
          cases current with
          | false =>
            obtain ⟨-, tx', hw, htx⟩ := hstage
            obtain rfl := Option.some.inj (hw.symm.trans hw')
            exact htx.versions id
          | true =>
            obtain ⟨-, tx', hw, htx⟩ := hstage
            obtain rfl := Option.some.inj (hw.symm.trans hw')
            exact htx.others id hid
        rw [hnone, Option.none_or] at hchanged
        exact absurd rfl hchanged

/-! ## What a pass has done -/

/-- When a pass returns, the rows it has claimed are its published and its failed ones, without
repetition; each was delivered once and no other was; a row is published if and only if `deliver`
returned `True` and its token was current when the statement came to it, and then its publication is
committed; a row whose delivery failed was released if and only if its token was current; and no
other row was changed. -/
theorem relay_partitions (h : Reachable pass z) (hreturned : z.control = .returned p) :
    (p.published ++ p.failed).Nodup ∧
    (∀ id, id ∈ p.published ++ p.failed ↔ id ∈ p.rows.map ClaimedRow.id) ∧
    z.settled.map Settlement.row = p.rows ∧
    (∀ σ ∈ z.settled,
      (σ.row.id ∈ p.published ↔ σ.delivery = .returnsTrue ∧ σ.current = true) ∧
      (σ.row.id ∈ p.published →
        ∃ row, z.db.rows σ.row.id = some row ∧ row.publishedAt.isSome = true) ∧
      ∃ token ∈ z.mine, σ.row.row.claimToken = some token ∧ (σ.delivery ≠ .returnsTrue →
        ((.release [σ.row.id] token, σ.row.id) ∈ z.db.committed ↔ σ.current = true))) ∧
    ∀ x y id, Reachable pass x → Own pass x y → Runs pass y z → y.db.rows id ≠ x.db.rows id →
      id ∈ p.rows.map ClaimedRow.id := by
  -- a pass that has returned has no row left to deliver
  have hprogress : Progressing pass z p [] := by
    have hinv := h.inv.control
    rwa [hreturned] at hinv
  refine ⟨hprogress.perm.nodup_iff.mpr (hprogress.ids_eq ▸ hprogress.nodup),
    fun id => hprogress.ids_eq ▸ hprogress.perm.mem_iff, hprogress.rows_eq, fun σ hσ => ?_,
    fun x y id hx hown hruns hchanged => ?_⟩
  · have hdelivered : σ.delivery.delivered = true ↔ σ.delivery = .returnsTrue := by
      cases σ.delivery <;> simp [Delivery.delivered]
    refine ⟨?_, fun hmem => hprogress.publishedAt σ hσ
      ((hprogress.mem_published_iff hσ).mp hmem), ?_⟩
    · rw [hprogress.mem_published_iff hσ, Settlement.isPublished, Bool.and_eq_true, hdelivered]
    · obtain ⟨token, htoken, hclaimed⟩ :=
        hprogress.tokens σ.row (hprogress.rows_eq ▸ List.mem_map_of_mem hσ)
      refine ⟨token, htoken, hclaimed, fun hfailed => ⟨fun hmem => ?_, fun hcurrent => ?_⟩⟩
      · obtain ⟨σ', hσ', hid, hcurrent, -⟩ :=
          (h.inv.tokens.committed _ _ token hmem rfl).2 htoken
        rwa [← hprogress.eq_of_id_eq hσ hσ' hid]
      · have hlog := hprogress.committed σ hσ hcurrent token hclaimed
        rwa [Settlement.mutation, acknowledgement,
          if_neg fun hdelivery => hfailed (hdelivered.mp hdelivery)] at hlog
  · -- the rows of a pass do not change between that step and the return
    obtain ⟨p', hp', hmem⟩ := hx.inv.mem_of_changed hown hchanged
    rcases hruns.rows_eq hp' with hraised | ⟨p'', hp'', hrows'⟩
    · rw [hreturned] at hraised
      cases hraised
    · rw [hreturned] at hp''
      obtain rfl := Option.some.inj hp''
      rwa [hrows']

end Rows

/-- A pass, for examples. -/
def samplePass : Pass ℕ Unit := ⟨(), 1, 10, 60⟩

/-- Two rows are claimed, with the tokens 77 and 78; the first is delivered and published, the
delivery of the second raises and it is released. -/
theorem relay_partitions_sample :
    ∃ (z : System ℕ ℕ ℕ Unit) (p : Progress ℕ ℕ ℕ), Reachable samplePass z ∧
      z.control = .returned p ∧ p.published = [5] ∧ p.failed = [6] ∧
      (p.published ++ p.failed).Nodup := by
  have h₁ : Runs samplePass (.start 0 : System ℕ ℕ ℕ Unit) _ :=
    .tail .refl (.inr (.mk (show Step _ (.insert 5 sampleRow) _ from .insert rfl rfl rfl rfl)
      nofun nofun))
  have h₂ := h₁.tail (.inr (.mk (show Step _ (.insert 6 sampleRow) _ from .insert rfl rfl rfl rfl)
    nofun nofun))
  -- the claim
  have h₃ := (h₂.tail (.inl (.claimBegin rfl (.begin 1 rfl)))).tail
    (.inl (.claimCall rfl (.call rfl rfl rfl)))
  have h₄ := h₃.tail (.inl (.claimTouch rfl (show Step _ (.touch () 5 77) _ from .touch rfl rfl
    List.not_mem_nil rfl (fun _ _ _ _ => rfl) rfl rfl (fun _ => List.not_mem_nil) rfl)))
  have h₅ := h₄.tail (.inl (.claimTouch rfl (show Step _ (.touch () 6 78) _ from .touch rfl rfl
    (by decide) rfl (fun _ _ _ _ => rfl) rfl rfl (fun _ => by decide) rfl)))
  have h₆ := (h₅.tail (.inl (.claimFinish rfl rfl rfl (.finish rfl)))).tail
    (.inl (.claimCommit rfl (.commit rfl rfl)))
  -- the first delivery, and the publication
  have h₇ := (h₆.tail (.inl (.deliver .returnsTrue rfl rfl))).tail
    (.inl (.acknowledgeBegin rfl (.begin 1 rfl)))
  have h₈ := h₇.tail (.inl (.acknowledgeCall rfl (.call rfl rfl rfl)))
  have h₉ := h₈.tail (.inl (.acknowledgeTouch rfl rfl (show Step _ (.touch () 5 79) _ from
    .touch rfl rfl List.not_mem_nil rfl (fun _ _ _ _ => rfl) rfl rfl nofun rfl)))
  have h₁₀ := (h₉.tail (.inl (.acknowledgeFinish rfl rfl rfl (.finish rfl)))).tail
    (.inl (.acknowledgeCommit rfl (.commit rfl rfl)))
  -- the second one, and the release
  have h₁₁ := (h₁₀.tail (.inl (.deliver .raises rfl rfl))).tail
    (.inl (.acknowledgeBegin rfl (.begin 1 rfl)))
  have h₁₂ := h₁₁.tail (.inl (.acknowledgeCall rfl (.call rfl rfl rfl)))
  have h₁₃ := h₁₂.tail (.inl (.acknowledgeTouch rfl rfl (show Step _ (.touch () 6 80) _ from
    .touch rfl rfl List.not_mem_nil rfl (fun _ _ _ _ => rfl) rfl rfl nofun rfl)))
  have h₁₄ := (h₁₃.tail (.inl (.acknowledgeFinish rfl rfl rfl (.finish rfl)))).tail
    (.inl (.acknowledgeCommit rfl (.commit rfl rfl)))
  have h₁₅ := h₁₄.tail (.inl (.finish rfl rfl))
  exact ⟨_, _, ⟨0, h₁₅⟩, rfl, rfl, rfl, (relay_partitions ⟨0, h₁₅⟩ rfl).1⟩

end MetaframerKernel.OutboxRelay
