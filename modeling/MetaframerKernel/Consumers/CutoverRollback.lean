import MetaframerKernel.Consumers.CustomerDataCutover

/-!
# Cutover and rollback

`cutover`, `rollback` and `insert` of the customer data cutover share `activeWriter`. A cutover
awaits a connection and then a verification before it sets the flag, a rollback sets it at once,
and an insert reads it when it is called; the calls come in any order, and so do the settlements
of what they await.

## Main definitions

* `State`, `Step`: the shared flag and the calls that are under way;
* `NotLost`: after a rollback and until the next cutover, the legacy writer is the one;
* `Stale`: a verification that answers `true` in that time.

## Main results

* `Step.notLost`: every other step keeps what a rollback has done;
* `notLost_iff`: a run loses no rollback when none of its steps is stale, and only then.
-/

namespace MetaframerKernel.CustomerDataCutover

open Js Async Program

/-- What a call of `cutover` is at. -/
inductive CutoverPhase where
  | connecting
  | verifying (client : ClientId)
  | finished

/-- A call of `insert`: what it has called and what is left of it. -/
structure InsertRun where
  record : JsValue
  insertOptions : JsValue
  past : History cutover
  left : Program cutover JsValue
  /-- It was called after a rollback and before the next cutover. -/
  afterRollback : Bool

/-- The shared flag and the calls that were made. -/
structure State where
  activeWriter : Writer
  cutovers : List CutoverPhase
  inserts : List InsertRun
  /-- A rollback was called, and no cutover since. -/
  afterRollback : Bool

/-- As `createCustomerDataCutover` leaves it. -/
def State.init : State := ⟨.legacy, [], [], false⟩

/-- `if (compatible === true) activeWriter = "application"` -/
def afterVerification (activeWriter : Writer) : Except Thrown JsValue → Writer
  | .ok (.boolean true) => .application
  | _ => activeWriter

/-- What happens next. -/
inductive Action where
  | cutover
  | rollback
  | insert (record insertOptions : JsValue)
  /-- `getPool().connect()` of a cutover settles. -/
  | connected (i : ℕ) (settled : Except Thrown ClientId)
  /-- `verifyCompatibility(boundary)` of a cutover settles. -/
  | verified (i : ℕ) (settled : Except Thrown JsValue)
  /-- A call of an insert settles. -/
  | answered (i : ℕ)

variable (adapter : AdapterInsert)

/-- One call, or one settlement. -/
inductive Step : State → Action → State → Prop
  | cutover (s : State) :
      Step s .cutover { s with cutovers := s.cutovers ++ [.connecting], afterRollback := false }
  | rollback (s : State) :
      Step s .rollback { s with activeWriter := .legacy, afterRollback := true }
  | insert (s : State) (record insertOptions : JsValue) :
      Step s (.insert record insertOptions)
        { s with
          inserts := s.inserts ++
            [⟨record, insertOptions, [], insert s.activeWriter adapter record insertOptions,
              s.afterRollback⟩] }
  | connected {s : State} {i : ℕ} (client : ClientId) : s.cutovers[i]? = some .connecting →
      Step s (.connected i (.ok client)) { s with cutovers := s.cutovers.set i (.verifying client) }
  | notConnected {s : State} {i : ℕ} (e : Thrown) : s.cutovers[i]? = some .connecting →
      Step s (.connected i (.error e)) { s with cutovers := s.cutovers.set i .finished }
  | verified {s : State} {i : ℕ} {client : ClientId} (settled : Except Thrown JsValue) :
      s.cutovers[i]? = some (.verifying client) →
      Step s (.verified i settled)
        { s with
          activeWriter := afterVerification s.activeWriter settled
          cutovers := s.cutovers.set i .finished }
  | answered {s : State} {i : ℕ} {run : InsertRun} {c : CutoverCall}
      {next : cutover.Settled c → Program cutover JsValue} (r : cutover.Settled c) :
      s.inserts[i]? = some run → run.left = .await c next →
      Step s (.answered i)
        { s with
          inserts := s.inserts.set i { run with past := run.past ++ [⟨c, r⟩], left := next r } }

/-- A run: each step with the state it leads to. -/
inductive IsRun : State → List (Action × State) → Prop
  | nil (s : State) : IsRun s []
  | cons {s s' : State} {a : Action} {rest : List (Action × State)} :
      Step adapter s a s' → IsRun s' rest → IsRun s ((a, s') :: rest)

variable {adapter}

/-- The call of the legacy writer. -/
def InsertRun.legacyCall (run : InsertRun) : cutover.Call :=
  CutoverCall.legacyInsert run.record run.insertOptions

/-- An insert calls the legacy writer, goes on with its answer and calls nothing else. -/
def InsertRun.LegacyOnly (run : InsertRun) : Prop :=
  (run.past = [] ∧ run.left = ask run.legacyCall) ∨
    ∃ r : cutover.Settled run.legacyCall,
      run.past = [⟨run.legacyCall, r⟩] ∧ run.left = settled r

/-- After a rollback and until the next cutover the legacy writer is active, and every insert that
was called in such a time calls the legacy writer and nothing else. -/
def NotLost (s : State) : Prop :=
  (s.afterRollback = true → s.activeWriter = .legacy) ∧
    ∀ run ∈ s.inserts, run.afterRollback = true → run.LegacyOnly

/-- After a rollback, and before the next cutover, the verification of a cutover answers `true`. -/
def Stale (s : State) (a : Action) : Prop :=
  s.afterRollback = true ∧ ∃ i, a = .verified i (.ok (.boolean true))

/-- No step of a run is stale. -/
def NoneStale : State → List (Action × State) → Prop
  | _, [] => True
  | s, (a, s') :: rest => ¬Stale s a ∧ NoneStale s' rest

section Runs

variable {s s' : State} {a : Action} {run : List (Action × State)}

/-- Nothing is lost before any event. -/
theorem NotLost.init : NotLost .init :=
  ⟨fun h => absurd h Bool.false_ne_true, fun _ h => absurd h List.not_mem_nil⟩

/-- An insert that finds the legacy writer active calls it. -/
theorem legacyOnly_insert (record insertOptions : JsValue) (afterRollback : Bool) :
    InsertRun.LegacyOnly
      ⟨record, insertOptions, [], insert .legacy adapter record insertOptions, afterRollback⟩ :=
  .inl ⟨rfl, rfl⟩

/-- An insert that goes to the legacy writer only does so after an answer. -/
theorem InsertRun.LegacyOnly.answered {run : InsertRun} {c : CutoverCall}
    {next : cutover.Settled c → Program cutover JsValue} (h : run.LegacyOnly)
    (hleft : run.left = .await c next) (r : cutover.Settled c) :
    InsertRun.LegacyOnly { run with past := run.past ++ [⟨c, r⟩], left := next r } := by
  rcases h with ⟨hpast, hask⟩ | ⟨_, -, hsettled⟩
  · rw [hleft] at hask
    cases hask
    exact .inr ⟨r, by rw [hpast]; rfl, rfl⟩
  · rw [hleft] at hsettled
    cases hsettled

/-- A verification that does not answer `true` leaves the writer. -/
theorem afterVerification_eq (activeWriter : Writer) {settled : Except Thrown JsValue}
    (h : settled ≠ .ok (.boolean true)) : afterVerification activeWriter settled =
      activeWriter := by
  rw [afterVerification]
  intro heq
  exact h heq

/-- A step that is not stale keeps what a rollback has done. -/
theorem Step.notLost (h : Step adapter s a s') (hs : NotLost s) (hstale : ¬Stale s a) :
    NotLost s' := by
  obtain ⟨hwriter, hinserts⟩ := hs
  cases h with
  | cutover => exact ⟨fun h => absurd h Bool.false_ne_true, hinserts⟩
  | rollback => exact ⟨fun _ => rfl, hinserts⟩
  | insert record insertOptions =>
    refine ⟨hwriter, fun run hrun hafter => ?_⟩
    rcases List.mem_append.mp hrun with hrun | hrun
    · exact hinserts run hrun hafter
    · cases List.mem_singleton.mp hrun
      rw [hwriter hafter]
      exact legacyOnly_insert record insertOptions s.afterRollback
  | connected client => exact ⟨hwriter, hinserts⟩
  | notConnected e => exact ⟨hwriter, hinserts⟩
  | verified settled hphase =>
    refine ⟨fun hafter => ?_, hinserts⟩
    -- a verification that answers `true` after the rollback is the stale one
    have hsettled : settled ≠ .ok (.boolean true) := by
      rintro rfl
      exact hstale ⟨hafter, _, rfl⟩
    exact (afterVerification_eq s.activeWriter hsettled).trans (hwriter hafter)
  | answered r hrun hleft =>
    refine ⟨hwriter, fun run' hrun' hafter => ?_⟩
    -- an insert that goes on stays with the writer it began with
    rcases List.mem_or_eq_of_mem_set hrun' with hrun' | rfl
    · exact hinserts run' hrun' hafter
    · exact (hinserts _ (List.mem_of_getElem? hrun) hafter).answered hleft r

/-- A stale step loses the rollback. -/
theorem Step.lost (h : Step adapter s a s') (hstale : Stale s a) : ¬NotLost s' := by
  obtain ⟨hafter, i, rfl⟩ := hstale
  intro hnotLost
  cases h with
  | verified settled hphase => cases hnotLost.1 hafter

/-- In a run from a state in which no rollback is lost, none is lost when no step is stale, and
only then. -/
theorem IsRun.keeps_iff (h : IsRun adapter s run) (hs : NotLost s) :
    (∀ p ∈ run, NotLost p.2) ↔ NoneStale s run := by
  induction h with
  | nil => exact ⟨fun _ => trivial, fun _ _ hp => absurd hp List.not_mem_nil⟩
  | cons hstep _ ih =>
    rw [List.forall_mem_cons, NoneStale]
    constructor
    · rintro ⟨hfirst, hrest⟩
      exact ⟨fun hstale => hstep.lost hstale hfirst, (ih hfirst).mp hrest⟩
    · rintro ⟨hstale, hrest⟩
      have hfirst := hstep.notLost hs hstale
      exact ⟨hfirst, (ih hfirst).mpr hrest⟩

/-- Whatever calls are made and however what they await settles, no rollback is lost when after a
rollback, and before the next cutover, no verification answers `true`, and only then. -/
theorem notLost_iff (h : IsRun adapter .init run) :
    (∀ p ∈ run, NotLost p.2) ↔ NoneStale .init run :=
  h.keeps_iff NotLost.init

/-- A persistence adapter that makes no query. -/
def noAdapter : AdapterInsert := ⟨fun _ _ _ => settled (.ok .undefined), fun _ _ _ => trivial⟩

/-- A cutover whose verification is answered after a rollback. -/
def lateVerification (answer : JsValue) : List (Action × State) :=
  [(.cutover, ⟨.legacy, [.connecting], [], false⟩),
    (.connected 0 (.ok 0), ⟨.legacy, [.verifying 0], [], false⟩),
    (.rollback, ⟨.legacy, [.verifying 0], [], true⟩),
    (.verified 0 (.ok answer),
      ⟨afterVerification .legacy (.ok answer), [.finished], [], true⟩)]

/-- The run with the late verification is possible. -/
theorem isRun_lateVerification (answer : JsValue) :
    IsRun noAdapter .init (lateVerification answer) :=
  .cons (.cutover _) <| .cons (.connected _ rfl) <| .cons (.rollback _) <|
    .cons (.verified _ rfl) <| .nil _

/-- The answer `false` loses nothing. -/
theorem notLost_lateVerification :
    (∀ p ∈ lateVerification (.boolean false), NotLost p.2) ↔
      NoneStale .init (lateVerification (.boolean false)) :=
  notLost_iff (isRun_lateVerification _)

/-- The answer `true` puts the application back. -/
theorem not_notLost_lateVerification :
    IsRun noAdapter .init (lateVerification (.boolean true)) ∧
      ∃ p ∈ lateVerification (.boolean true), ¬NotLost p.2 := by
  refine ⟨isRun_lateVerification _, _, List.mem_of_getElem? (show _[3]? = _ from rfl), fun h => ?_⟩
  cases h.1 rfl

end Runs

end MetaframerKernel.CustomerDataCutover
